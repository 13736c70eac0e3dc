import S2c.Loop
import S2c.Machine
import S2c.Network.MessageRw

namespace S2c

open Wire Machine Loop

/-- What one turn of a `drain_out` meets, from a wait for a message to the next: the message, what
becomes of its write (`none` is an error, a number what the socket's last partial write left over), and
the flag at the head of the loop. -/
structure Received (α : Type) where
  message : Option α
  write : Option ℕ
  running : Bool

structure ClientReceived extends Received Bytes where
  stillRunning : Bool

inductive DrainEnd where
  | stopped
  | closed
  | failed
  | panicked
  deriving DecidableEq

structure Draining where
  writer : BufWriter
  buf : Bytes
  taken : List Bytes
  deriving DecidableEq

namespace Draining

def new : Draining := ⟨BufWriter.new, [], []⟩

def write (d : Draining) (payload : Bytes) (kept : ℕ) : Draining where
  writer := writeBytes d.writer payload kept
  buf := []
  taken := d.taken ++ [payload]

end Draining

/-- The throttle only delays the turn. -/
def S2cClient.drainTurn (d : Draining) (a : ClientReceived) : Turn Draining DrainEnd :=
  match a.message with
  | none => .leave .closed
  | some outMsg =>
    if !a.stillRunning then .leave .stopped
    else
      match a.write with
      | none => .leave .failed
      | some kept => if a.running then .again (d.write outMsg kept) else .leave .stopped

namespace GroupServer

/-- The contents of `buf` after its `resize` and the message's `encode`, which appends; `none` where
they do not fit into memory. -/
def encodeOut (buf : Bytes) (msg : S2cMessage) : Option Bytes :=
  let encoded := S2cMessage.message.encode msg
  let buf := buf.take encoded.length ++ List.replicate (encoded.length - buf.length) 0
  if buf.length + encoded.length ≤ Message.isizeMax then some (buf ++ encoded) else none

def drainTurn (d : Draining) (a : Received S2cMessage) : Turn Draining DrainEnd :=
  match a.message with
  -- a closed channel does not end the loop
  | none => if a.running then .again d else .leave .stopped
  | some msg =>
    match encodeOut d.buf msg with
    | none => .leave .panicked
    | some payload =>
      match a.write with
      | none => .leave .failed
      -- `split` leaves an empty buffer behind
      | some kept => if a.running then .again (d.write payload kept) else .leave .stopped

end GroupServer

variable {w : BufWriter} {payload : Bytes} {kept : ℕ} {d t : Draining}

theorem writeAll_buf_eq_nil_iff (hw : w.buf ≠ []) (hle : w.buf.length ≤ BufWriter.capacity) :
    (w.writeAll payload kept).buf = [] ↔ BufWriter.capacity ≤ payload.length ∧ kept = 0 := by
  unfold BufWriter.writeAll
  split_ifs with hlarge hover
  · simp only [List.drop_eq_nil_iff, hlarge, true_and]
    simp only [BufWriter.capacity] at hlarge ⊢
    omega
  · have hne : payload ≠ [] := by
      rintro rfl
      rw [List.length_nil] at hover
      omega
    simp [hlarge, hne]
  · simp [hlarge, hw]

theorem writeAll_header (hw : w.buf = []) {header : Bytes} (hlen : header.length = 4) (kept : ℕ) :
    w.writeAll header kept = ⟨w.socket, header⟩ := by
  simp [BufWriter.writeAll, BufWriter.capacity, hw, hlen]

theorem writeBytes_buf_eq_nil_iff (hw : w.buf = []) :
    (writeBytes w payload kept).buf = [] ↔ BufWriter.capacity ≤ payload.length ∧ kept = 0 := by
  have hlen : (putFixed 4 (UInt32.ofNat payload.length).toNat).length = 4 := length_putFixed _ _
  rw [writeBytes, writeAll_header hw hlen]
  apply writeAll_buf_eq_nil_iff
  · apply List.ne_nil_of_length_pos
    dsimp only
    omega
  · dsimp only
    rw [hlen]
    decide

namespace Draining

def Sent (d : Draining) : Prop := d.writer.socket = d.taken.flatMap frame

structure Accounted (d : Draining) : Prop where
  buf : d.buf = []
  written : d.writer.written = d.taken.flatMap frame

theorem sent_new : new.Sent := rfl

theorem accounted_new : new.Accounted := ⟨rfl, rfl⟩

theorem Accounted.write (hd : d.Accounted) : (d.write payload kept).Accounted where
  buf := rfl
  written := by simp [Draining.write, written_writeBytes, hd.written]

theorem Accounted.sent_iff_empty (hd : d.Accounted) : d.Sent ↔ d.writer.buf = [] := by
  rw [Sent, ← hd.written, BufWriter.written]
  constructor
  · intro h
    simpa using h
  · intro h
    rw [h, List.append_nil]

theorem sent_write_iff (hd : d.Accounted) (hsent : d.Sent) :
    (d.write payload kept).Sent ↔ BufWriter.capacity ≤ payload.length ∧ kept = 0 := by
  rw [hd.write.sent_iff_empty]
  exact writeBytes_buf_eq_nil_iff (hd.sent_iff_empty.mp hsent)

end Draining

namespace S2cClient

def drainStep (d : Draining) (a : ClientReceived) : Option Draining := (drainTurn d a).next

theorem drainStep_cases {a : ClientReceived} (h : drainStep d a = some t) :
    ∃ outMsg kept, a.message = some outMsg ∧ a.write = some kept ∧ t = d.write outMsg kept := by
  unfold drainStep drainTurn at h
  split at h
  · cases h
  · rename_i outMsg hmessage
    split at h
    · cases h
    · split at h
      · cases h
      · rename_i kept hwrite
        split at h
        · exact ⟨outMsg, kept, hmessage, hwrite, (Option.some.inj h).symm⟩
        · cases h

end S2cClient

namespace GroupServer

def drainStep (d : Draining) (a : Received S2cMessage) : Option Draining := (drainTurn d a).next

theorem drainStep_cases {a : Received S2cMessage} (h : drainStep d a = some t) :
    (a.message = none ∧ t = d) ∨ ∃ msg payload kept, a.message = some msg ∧
      encodeOut d.buf msg = some payload ∧ a.write = some kept ∧ t = d.write payload kept := by
  unfold drainStep drainTurn at h
  split at h
  · rename_i hmessage
    split at h
    · exact Or.inl ⟨hmessage, (Option.some.inj h).symm⟩
    · cases h
  · rename_i msg hmessage
    split at h
    · cases h
    · rename_i payload hpayload
      split at h
      · cases h
      · rename_i kept hwrite
        split at h
        · exact Or.inr ⟨msg, payload, kept, hmessage, hpayload, hwrite, (Option.some.inj h).symm⟩
        · cases h

def padded (msg : S2cMessage) : Bytes :=
  List.replicate (S2cMessage.message.encode msg).length 0 ++ S2cMessage.message.encode msg

theorem length_padded (msg : S2cMessage) : (padded msg).length = 2 * (S2cMessage.message.encode msg).length := by
  rw [padded, List.length_append, List.length_replicate]
  omega

theorem encodeOut_nil_eq_some_iff (msg : S2cMessage) (payload : Bytes) : encodeOut [] msg = some payload ↔
    (padded msg).length ≤ Message.isizeMax ∧ padded msg = payload := by
  simp [encodeOut, padded]

end GroupServer

theorem sent_iff (requests : List ClientReceived) (responses : List (Received S2cMessage)) :
    (Always S2cClient.drainStep Draining.Sent Draining.new requests ↔
      Along S2cClient.drainStep (fun _ a => ∀ outMsg, a.message = some outMsg →
        BufWriter.capacity ≤ outMsg.length ∧ a.write = some 0) Draining.new requests) ∧
    (Always GroupServer.drainStep Draining.Sent Draining.new responses ↔
      Along GroupServer.drainStep (fun _ a => ∀ msg, a.message = some msg →
        BufWriter.capacity ≤ 2 * (S2cMessage.message.encode msg).length ∧ a.write = some 0)
        Draining.new responses) := by
  constructor
  · apply always_iff_along (J := Draining.Accounted) _ _ Draining.accounted_new Draining.sent_new
    · intro d a t hd _ h
      obtain ⟨outMsg, kept, _, _, rfl⟩ := S2cClient.drainStep_cases h
      exact hd.write
    · intro d a t hd hsent h
      obtain ⟨outMsg, kept, hmessage, hwrite, rfl⟩ := S2cClient.drainStep_cases h
      rw [Draining.sent_write_iff hd hsent, hmessage, hwrite]
      simp
  · apply always_iff_along (J := Draining.Accounted) _ _ Draining.accounted_new Draining.sent_new
    · intro d a t hd _ h
      rcases GroupServer.drainStep_cases h with ⟨_, rfl⟩ | ⟨msg, payload, kept, _, _, _, rfl⟩
      · exact hd
      · exact hd.write
    · intro d a t hd hsent h
      rcases GroupServer.drainStep_cases h with ⟨hmessage, rfl⟩ | ⟨msg, payload, kept, hmessage, hpayload, hwrite, rfl⟩
      · rw [hmessage]
        simp [hsent]
      · rw [hd.buf, GroupServer.encodeOut_nil_eq_some_iff] at hpayload
        obtain ⟨_, rfl⟩ := hpayload
        rw [Draining.sent_write_iff hd hsent, GroupServer.length_padded, hmessage, hwrite]
        simp

theorem sent_fails :
    ¬Always S2cClient.drainStep Draining.Sent Draining.new [⟨⟨some [7], some 0, true⟩, true⟩] ∧
    ¬Always GroupServer.drainStep Draining.Sent Draining.new [⟨some ⟨"c1", none, none⟩, some 0, true⟩] := by
  constructor
  · intro h
    have hsent := h _ (List.prefix_refl _) _ rfl
    cases hsent
  · intro h
    have hsent := h _ (List.prefix_refl _) _ rfl
    cases hsent

namespace S2CMessageReaderImpl

theorem readNextMessage_ok {decode : Bytes → Except String S2cMessage} {r r' : S2CMessageReaderImpl}
    {rest : Bytes} {ended : Bool} {msg : S2cMessage} {reader : Stream}
    (h : r.readNextMessage decode ⟨frame payload ++ rest, ended⟩ = some (.ok msg, r', reader)) :
    decode (payload.take (UInt32.ofNat payload.length).toNat) = .ok msg := by
  have hle : (UInt32.ofNat payload.length).toNat ≤ payload.length := by
    rw [UInt32.toNat_ofNat']
    exact Nat.mod_le _ _
  simp only [readNextMessage, readExact_frame, Option.bind_some, fixed_header] at h
  split at h
  · obtain ⟨_, _, hout⟩ := Option.map_eq_some_iff.mp h
    simp at hout
  · have hpayload : Stream.readExact ⟨payload ++ rest, ended⟩ (UInt32.ofNat payload.length).toNat =
        some (.ok (payload.take (UInt32.ofNat payload.length).toNat),
          ⟨(payload ++ rest).drop (UInt32.ofNat payload.length).toNat, ended⟩) := by
      rw [Stream.readExact, if_pos (by rw [List.length_append]; omega), List.take_append_of_le_length hle]
    have hlen := List.length_take_of_le hle
    rw [hpayload, Option.map_some] at h
    simp only [List.take_left' hlen, Option.some.injEq, Prod.mk.injEq] at h
    obtain ⟨hdecoded, _⟩ := h
    split at hdecoded
    · cases hdecoded
      assumption
    · cases hdecoded

theorem eq_empty_of_read {describe : Bytes → String} {r r' : S2CMessageReaderImpl} {rest : Bytes} {ended : Bool}
    {msg : S2cMessage} {reader : Stream}
    (h : r.readNextMessage (decodeMessage describe) ⟨frame (GroupServer.padded msg) ++ rest, ended⟩ =
      some (.ok msg, r', reader)) : msg = S2cMessage.message.empty := by
  have hdecode := readNextMessage_ok h
  have hsome : ∀ bs, decodeMessage describe bs = .ok msg → S2cMessage.message.decode bs = some msg := by
    intro bs hbs
    unfold decodeMessage at hbs
    split at hbs
    · cases hbs
      assumption
    · cases hbs
  have hdecoded := hsome _ hdecode
  cases hencode : S2cMessage.message.encode msg with
  | nil => exact Message.eq_empty_of_encode_nil hencode
  | cons b bs =>
    -- a padded payload begins with a zero, which no field has for its key
    have hzero : ∃ tail, GroupServer.padded msg = 0 :: tail := by
      rw [GroupServer.padded, hencode, List.length_cons, List.replicate_succ, List.cons_append]
      exact ⟨_, rfl⟩
    obtain ⟨tail, htail⟩ := hzero
    rw [htail] at hdecoded
    cases hcount : (UInt32.ofNat (0 :: tail).length).toNat with
    | zero =>
      rw [hcount, List.take_zero] at hdecoded
      exact (Option.some.inj hdecoded).symm
    | succ n =>
      rw [hcount, List.take_succ_cons, Message.decode_zero] at hdecoded
      cases hdecoded

theorem frame_empty (rest : Bytes) (ended : Bool) (describe : Bytes → String) (r : S2CMessageReaderImpl) :
    ∃ r', r.readNextMessage (decodeMessage describe)
      ⟨frame (GroupServer.padded S2cMessage.message.empty) ++ rest, ended⟩ =
        some (.ok S2cMessage.message.empty, r', ⟨rest, ended⟩) ∧ r'.maxMessageSize = r.maxMessageSize := by
  have hpadded : GroupServer.padded S2cMessage.message.empty = [] := rfl
  rw [hpadded]
  have hlen : ([] : Bytes).length < 2 ^ 32 := by decide
  have hread := readNextMessage_frame (decodeMessage describe) r hlen rest ended
  have hreading : reading (decodeMessage describe) r.maxMessageSize [] = .ok S2cMessage.message.empty :=
    reading_encode describe S2cMessage.message.empty (Nat.zero_le _)
  rwa [hreading] at hread

theorem readMessages_padded_iff (describe : Bytes → String) (r : S2CMessageReaderImpl) (messages : List S2cMessage) :
    (r.readMessages (decodeMessage describe) (messages.length + 1)
      ⟨(messages.map GroupServer.padded).flatMap frame, true⟩).map Prod.fst =
        some (messages.map .ok ++ [.error (unexpectedEof "unexpected end of file")]) ↔
      ∀ msg ∈ messages, msg = S2cMessage.message.empty := by
  induction messages generalizing r with
  | nil => simp [readMessages, readNextMessage, Stream.readExact_ended (n := 4)]
  | cons msg messages ih =>
    rw [List.map_cons, List.flatMap_cons, List.length_cons, readMessages, List.forall_mem_cons]
    by_cases hempty : msg = S2cMessage.message.empty
    · subst hempty
      obtain ⟨r', hr', _⟩ := frame_empty ((messages.map GroupServer.padded).flatMap frame) true describe r
      rw [hr', Option.bind_some, ← ih r']
      simp
    · constructor
      · intro h
        obtain ⟨_, hreads, hfirst⟩ := Option.map_eq_some_iff.mp h
        obtain ⟨⟨re, r₁, reader⟩, hread, hrest⟩ := Option.bind_eq_some_iff.mp hreads
        obtain ⟨_, _, rfl⟩ := Option.map_eq_some_iff.mp hrest
        cases (List.cons.inj hfirst).1
        exact absurd (eq_empty_of_read hread) hempty
      · rintro ⟨h, _⟩
        exact absurd h hempty

end S2CMessageReaderImpl

namespace GroupServer

def handed (p : S2cMessage × ℕ) : Received S2cMessage := ⟨some p.1, some p.2, true⟩

def Survive (describe : Bytes → String) (r : S2CMessageReaderImpl) (messages : List (S2cMessage × ℕ)) : Prop :=
  ∃ d, exec drainStep Draining.new (messages.map handed) = some d ∧
    (r.readMessages (decodeMessage describe) (messages.length + 1) ⟨d.writer.written, true⟩).map Prod.fst =
      some (messages.map (fun p => .ok p.1) ++ [.error (unexpectedEof "unexpected end of file")])

theorem exec_handed (hbuf : d.buf = []) {messages : List (S2cMessage × ℕ)}
    (hfits : ∀ p ∈ messages, (padded p.1).length ≤ Message.isizeMax) :
    ∃ t, exec drainStep d (messages.map handed) = some t ∧
      t.writer.written = d.writer.written ++ (messages.map (fun p => padded p.1)).flatMap frame := by
  induction messages generalizing d with
  | nil => exact ⟨d, rfl, by simp⟩
  | cons p messages ih =>
    rw [List.forall_mem_cons] at hfits
    have hstep : drainStep d (handed p) = some (d.write (padded p.1) p.2) := by
      have hencode := (encodeOut_nil_eq_some_iff p.1 _).mpr ⟨hfits.1, rfl⟩
      simp [drainStep, drainTurn, handed, hbuf, hencode, Turn.next]
    obtain ⟨t, ht, hwritten⟩ := ih (d := d.write (padded p.1) p.2) rfl hfits.2
    refine ⟨t, by rw [List.map_cons, exec_cons, hstep]; exact ht, ?_⟩
    rw [hwritten, Draining.write, written_writeBytes]
    simp

theorem survive_iff (describe : Bytes → String) (r : S2CMessageReaderImpl) {messages : List (S2cMessage × ℕ)}
    (hlen : ∀ p ∈ messages, (S2cMessage.message.encode p.1).length ≤ r.maxMessageSize.toNat) :
    Survive describe r messages ↔ ∀ p ∈ messages, p.1 = S2cMessage.message.empty := by
  have hfits : ∀ p ∈ messages, (padded p.1).length ≤ Message.isizeMax := by
    intro p hp
    have hle := hlen p hp
    have hmax := r.maxMessageSize.toNat_lt
    rw [length_padded, Message.isizeMax]
    omega
  obtain ⟨d, hd, hwritten⟩ := exec_handed (d := Draining.new) rfl hfits
  have hnew : Draining.new.writer.written = [] := rfl
  rw [hnew, List.nil_append] at hwritten
  have hread := S2CMessageReaderImpl.readMessages_padded_iff describe r (messages.map Prod.fst)
  simp only [List.length_map, List.map_map, Function.comp_def, List.forall_mem_map] at hread
  rw [← hread]
  constructor
  · rintro ⟨t, ht, hreads⟩
    cases hd.symm.trans ht
    rw [hwritten] at hreads
    exact hreads
  · intro hreads
    refine ⟨d, hd, ?_⟩
    rw [hwritten]
    exact hreads

def sampleWritten : List (S2cMessage × ℕ) :=
  [(S2cMessage.message.empty, 0), (⟨"c1", none, none⟩, 0), (S2cMessage.message.empty, 3)]

theorem survive_sample :
    (∀ p ∈ sampleWritten, (S2cMessage.message.encode p.1).length ≤ (8 : UInt32).toNat) ∧
      (Survive (fun _ => "") (S2CMessageReaderImpl.new 8) sampleWritten ↔
        ∀ p ∈ sampleWritten, p.1 = S2cMessage.message.empty) :=
  ⟨by decide, survive_iff (fun _ => "") (S2CMessageReaderImpl.new 8) (by decide)⟩

theorem survive_fails : (S2cMessage.message.encode ⟨"c1", none, none⟩).length ≤ (8 : UInt32).toNat ∧
    ¬Survive (fun _ => "") (S2CMessageReaderImpl.new 8) [(⟨"c1", none, none⟩, 0)] := by
  refine ⟨by decide, ?_⟩
  rintro ⟨d, hd, hreads⟩
  cases hd
  revert hreads
  decide

end GroupServer

end S2c
