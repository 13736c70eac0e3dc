import S2c.Network.MessageRw

namespace S2c

open Wire

/-- The byte that `read_next_message` waits for: of the size, of a message it skips, or of one it
reads into its buffer. -/
inductive Awaiting where
  | header (got : Bytes)
  | skipping (size : UInt32) (left : ℕ)
  | body (size : UInt32) (got : ℕ)
  deriving DecidableEq

structure Receiving where
  reader : S2CMessageReaderImpl
  awaiting : Awaiting
  results : List (Except NetworkError S2cMessage)

namespace S2CMessageReaderImpl

variable (decode : Bytes → Except String S2cMessage)

def decoded (bs : Bytes) : Except NetworkError S2cMessage :=
  match decode bs with
  | .ok message => .ok message
  | .error err => .error (.invalidProtobuf err)

def receiving (r : S2CMessageReaderImpl) : Receiving := ⟨r, .header [], []⟩

end S2CMessageReaderImpl

namespace Receiving

open S2CMessageReaderImpl

variable (decode : Bytes → Except String S2cMessage) (s : Receiving)

def returns (re : Except NetworkError S2cMessage) : Receiving := ⟨s.reader, .header [], s.results ++ [re]⟩

def filled (size : UInt32) (got : ℕ) : Receiving :=
  if got = size.toNat then s.returns (decoded decode (s.reader.buf.take size.toNat))
  else { s with awaiting := .body size got }

def sized (size : UInt32) : Receiving :=
  if size > s.reader.maxMessageSize then { s with awaiting := .skipping size size.toNat }
  else filled decode { s with reader := { s.reader with buf := s.reader.resized size.toNat } } size 0

def arrive (b : UInt8) : Receiving :=
  match s.awaiting with
  | .header got =>
    if got.length < 3 then { s with awaiting := .header (got ++ [b]) }
    else s.sized decode (UInt32.ofNat (fixed (got ++ [b])))
  | .skipping size left =>
    if left ≤ 1 then s.returns (.error (.messageTooLarge s.reader.maxMessageSize size))
    else { s with awaiting := .skipping size (left - 1) }
  | .body size got =>
    filled decode { s with reader := { s.reader with buf := s.reader.buf.set got b } } size (got + 1)

def arriveAll (chunk : Bytes) : Receiving := chunk.foldl (arrive decode) s

def ends : Receiving :=
  match s.awaiting with
  | .header _ => s.returns (.error (unexpectedEof "unexpected end of file"))
  | .skipping size _ => s.returns (.error (.messageTooLarge s.reader.maxMessageSize size))
  | .body _ _ => s.returns (.error (unexpectedEof "early eof"))

inductive Partway (r : S2CMessageReaderImpl) : Bytes → S2CMessageReaderImpl → Awaiting → Prop where
  | header (got : Bytes) (hgot : got.length < 4) : Partway r got r (.header got)
  | skipping (header skipped : Bytes) (size : UInt32) (left : ℕ) (hheader : header.length = 4)
      (hsize : UInt32.ofNat (fixed header) = size) (hlarge : size > r.maxMessageSize)
      (hleft : skipped.length + left = size.toNat) (hpos : 0 < left) :
      Partway r (header ++ skipped) r (.skipping size left)
  | body (header taken : Bytes) (size : UInt32) (hheader : header.length = 4)
      (hsize : UInt32.ofNat (fixed header) = size) (hsmall : ¬size > r.maxMessageSize)
      (htaken : taken.length < size.toNat) : Partway r (header ++ taken)
      { r with buf := taken ++ (r.resized size.toNat).drop taken.length } (.body size taken.length)

end Receiving

namespace S2CMessageReaderImpl

variable {decode : Bytes → Except String S2cMessage} {r r' : S2CMessageReaderImpl} {bs rest : Bytes}
  {re : Except NetworkError S2cMessage} {ended : Bool}

theorem length_resized (r : S2CMessageReaderImpl) (n : ℕ) : n ≤ (r.resized n).length := by
  unfold resized
  split_ifs
  · simp
    omega
  · omega

theorem readNextMessage_open {stream : Stream} (h : r.readNextMessage decode ⟨bs, false⟩ = some (re, r', stream)) :
    ∃ rest, stream = ⟨rest, false⟩ ∧ ∀ more ended,
      r.readNextMessage decode ⟨bs ++ more, ended⟩ = some (re, r', ⟨rest ++ more, ended⟩) := by
  unfold readNextMessage at h ⊢
  rw [Stream.readExact_open] at h
  split_ifs at h with hheader
  · simp only [Stream.readExact_extend hheader, Option.bind_some] at h ⊢
    split_ifs at h ⊢ with hlarge
    · rw [Stream.skip_open] at h
      split_ifs at h with hskip
      · cases h
        refine ⟨_, rfl, ?_⟩
        intro more ended
        rw [Stream.skip_extend hskip]
        rfl
      · cases h
    · rw [Stream.readExact_open] at h
      split_ifs at h with hbody
      · cases h
        refine ⟨_, rfl, ?_⟩
        intro more ended
        rw [Stream.readExact_extend hbody]
        rfl
      · cases h
  · cases h

theorem readMessages_open {n : ℕ} {res : List (Except NetworkError S2cMessage)}
    (h : r.readMessages decode n ⟨bs, false⟩ = some (res, r', ⟨rest, false⟩)) (more : Bytes) (ended : Bool) :
    r.readMessages decode n ⟨bs ++ more, ended⟩ = some (res, r', ⟨rest ++ more, ended⟩) := by
  induction n generalizing r bs res with
  | zero =>
    cases h
    rfl
  | succ n ih =>
    obtain ⟨⟨re, r₁, stream⟩, hfirst, hrest⟩ := Option.bind_eq_some_iff.mp h
    obtain ⟨rest₁, rfl, hmore⟩ := readNextMessage_open hfirst
    obtain ⟨⟨res₁, r₂, stream₂⟩, hn, heq⟩ := Option.map_eq_some_iff.mp hrest
    cases heq
    rw [readMessages, hmore, Option.bind_some]
    dsimp only
    rw [ih hn]
    rfl

theorem readMessages_add (m n : ℕ) (stream : Stream) : r.readMessages decode (m + n) stream =
    (r.readMessages decode m stream).bind (fun (res, r, stream) =>
      (r.readMessages decode n stream).map (fun (res', r, stream) => (res ++ res', r, stream))) := by
  induction m generalizing r stream with
  | zero =>
    rw [Nat.zero_add]
    simp [readMessages]
  | succ m ih =>
    rw [Nat.add_right_comm, readMessages, readMessages, Option.bind_assoc]
    cases r.readNextMessage decode stream with
    | none => rfl
    | some answer =>
      obtain ⟨re, r₁, stream₁⟩ := answer
      simp only [Option.bind_some, ih, Option.bind_map, Option.map_bind, Function.comp_def, Option.map_map,
        List.cons_append]

theorem readMessages_snoc {n : ℕ} {res : List (Except NetworkError S2cMessage)} {stream stream' : Stream}
    {r₁ : S2CMessageReaderImpl} (h : r.readMessages decode n stream = some (res, r₁, stream')) :
    r.readMessages decode (n + 1) stream = (r₁.readNextMessage decode stream').map
      (fun (re, r, stream) => (res ++ [re], r, stream)) := by
  rw [readMessages_add, h, Option.bind_some]
  simp only [readMessages]
  cases r₁.readNextMessage decode stream' <;> rfl

theorem readNextMessage_complete {stream : Stream} {message : S2cMessage}
    (h : r.readNextMessage decode ⟨bs, ended⟩ = some (.ok message, r', stream)) :
    ∃ rest, stream = ⟨rest, ended⟩ ∧ r.readNextMessage decode ⟨bs, false⟩ = some (.ok message, r', ⟨rest, false⟩) := by
  cases hopen : r.readNextMessage decode ⟨bs, false⟩ with
  | some answer =>
    obtain ⟨re, r₁, stream₁⟩ := answer
    obtain ⟨rest, rfl, hmore⟩ := readNextMessage_open hopen
    have hsame := hmore [] ended
    rw [List.append_nil, List.append_nil, h] at hsame
    cases hsame
    exact ⟨rest, rfl, rfl⟩
  | none =>
    exfalso
    unfold readNextMessage at h hopen
    rw [Stream.readExact_open] at hopen
    split_ifs at hopen with hheader
    · have hread := Stream.readExact_extend hheader [] ended
      rw [List.append_nil, List.append_nil] at hread
      simp only [hread, Option.bind_some] at h hopen
      split_ifs at h hopen with hlarge
      · obtain ⟨_, _, heq⟩ := Option.map_eq_some_iff.mp h
        cases heq
      · rw [Stream.readExact_open] at hopen
        split_ifs at hopen with hbody
        · cases hopen
        · unfold Stream.readExact at h
          rw [if_neg hbody] at h
          split_ifs at h
          · cases h
          · cases h
    · unfold Stream.readExact at h
      rw [if_neg hheader] at h
      split_ifs at h
      · cases h
      · cases h

theorem readMessages_framed (decode : Bytes → Except String S2cMessage) (r : S2CMessageReaderImpl)
    {payloads : List Bytes} (hlen : ∀ p ∈ payloads, p.length < 2 ^ 32) : ∃ r', r.readMessages decode payloads.length
      ⟨payloads.flatMap frame, false⟩ = some (payloads.map (reading decode r.maxMessageSize), r', ⟨[], false⟩) := by
  induction payloads generalizing r with
  | nil => exact ⟨r, rfl⟩
  | cons p payloads ih =>
    rw [List.forall_mem_cons] at hlen
    obtain ⟨m, hm, hmax⟩ := readNextMessage_frame decode r hlen.1 (payloads.flatMap frame) false
    obtain ⟨r', hr'⟩ := ih m hlen.2
    refine ⟨r', ?_⟩
    rw [List.flatMap_cons, List.length_cons, readMessages, hm, Option.bind_some]
    simp only [hr', hmax, Option.map_some, List.map_cons]

theorem prefix_of_framed {payloads : List Bytes} (hlen : ∀ p ∈ payloads, p.length < 2 ^ 32) {n : ℕ}
    {res : List (Except NetworkError S2cMessage)} (hbs : bs <+: payloads.flatMap frame)
    (h : r.readMessages decode n ⟨bs, false⟩ = some (res, r', ⟨rest, false⟩)) :
    res <+: payloads.map (reading decode r.maxMessageSize) ∧
    (bs = payloads.flatMap frame → r'.readNextMessage decode ⟨rest, false⟩ = none →
      res = payloads.map (reading decode r.maxMessageSize)) := by
  obtain ⟨more, hmore⟩ := hbs
  have hread := readMessages_open h more false
  rw [hmore] at hread
  obtain ⟨r₁, hall⟩ := readMessages_framed decode r hlen
  rcases Nat.le_total n payloads.length with hn | hn
  · obtain ⟨m, hm⟩ := Nat.exists_eq_add_of_le hn
    rw [hm, readMessages_add, hread, Option.bind_some] at hall
    obtain ⟨⟨res', r₂, stream⟩, hlater, heq⟩ := Option.map_eq_some_iff.mp hall
    have hres : res ++ res' = payloads.map (reading decode r.maxMessageSize) := congrArg Prod.fst heq
    refine ⟨⟨res', hres⟩, ?_⟩
    intro hwhole hwaits
    have hnone : more = [] := by
      rw [← hmore] at hwhole
      exact List.self_eq_append_right.mp hwhole
    cases m with
    | zero =>
      cases hlater
      rw [← hres, List.append_nil]
    | succ m =>
      rw [hnone, List.append_nil, readMessages, hwaits] at hlater
      cases hlater
  · obtain ⟨m, rfl⟩ := Nat.exists_eq_add_of_le hn
    rw [readMessages_add, hall, Option.bind_some] at hread
    obtain ⟨⟨res', r₂, stream⟩, hlater, heq⟩ := Option.map_eq_some_iff.mp hread
    have hres : payloads.map (reading decode r.maxMessageSize) ++ res' = res := congrArg Prod.fst heq
    cases m with
    | zero =>
      cases hlater
      rw [← hres, List.append_nil]
      exact ⟨List.prefix_rfl, fun _ _ => rfl⟩
    | succ m =>
      rw [readMessages, readNextMessage, Stream.readExact_open, if_neg (by simp)] at hlater
      cases hlater

theorem readNextMessage_large {header skipped : Bytes} {size : UInt32} (hheader : header.length = 4)
    (hsize : UInt32.ofNat (fixed header) = size) (hlarge : size > r.maxMessageSize)
    (hskipped : skipped.length = size.toNat ∨ skipped.length ≤ size.toNat ∧ ended = true) :
    r.readNextMessage decode ⟨header ++ skipped, ended⟩ =
      some (.error (.messageTooLarge r.maxMessageSize size), r, ⟨[], ended⟩) := by
  have hread := Stream.readExact_append header skipped ended
  rw [hheader] at hread
  simp only [readNextMessage, hread, Option.bind_some, hsize, if_pos hlarge]
  have hskip : Stream.skip ⟨skipped, ended⟩ size.toNat = some ⟨[], ended⟩ := by
    unfold Stream.skip
    dsimp only
    rw [if_pos (hskipped.imp (fun h => Nat.le_of_eq h.symm) And.right), List.drop_of_length_le (by omega)]
  rw [hskip]
  rfl

theorem readNextMessage_body {header payload : Bytes} {size : UInt32} (hheader : header.length = 4)
    (hsize : UInt32.ofNat (fixed header) = size) (hsmall : ¬size > r.maxMessageSize)
    (hpayload : payload.length = size.toNat) : r.readNextMessage decode ⟨header ++ payload, ended⟩ =
      some (decoded decode payload,
        { r with buf := payload ++ (r.resized size.toNat).drop payload.length }, ⟨[], ended⟩) := by
  have hread := Stream.readExact_append header payload ended
  have hbody := Stream.readExact_append payload [] ended
  rw [hheader] at hread
  rw [List.append_nil, hpayload] at hbody
  simp only [readNextMessage, hread, Option.bind_some, hsize, if_neg hsmall, hbody, Option.map_some]
  rw [← hpayload, List.take_left]
  rfl

theorem readNextMessage_cut {header taken : Bytes} {size : UInt32} (hheader : header.length = 4)
    (hsize : UInt32.ofNat (fixed header) = size) (hsmall : ¬size > r.maxMessageSize)
    (htaken : taken.length < size.toNat) : r.readNextMessage decode ⟨header ++ taken, true⟩ =
      some (.error (unexpectedEof "early eof"),
        { r with buf := taken ++ (r.resized size.toNat).drop taken.length }, ⟨[], true⟩) := by
  have hread := Stream.readExact_append header taken true
  rw [hheader] at hread
  have hbody : Stream.readExact ⟨taken, true⟩ size.toNat = some (.error taken, ⟨[], true⟩) := by
    unfold Stream.readExact
    dsimp only
    rw [if_neg (by omega), if_pos rfl]
  simp only [readNextMessage, hread, Option.bind_some, hsize, if_neg hsmall, hbody, Option.map_some]

end S2CMessageReaderImpl

namespace Receiving

open S2CMessageReaderImpl

variable {decode : Bytes → Except String S2cMessage} {s : Receiving} {r : S2CMessageReaderImpl} {rest : Bytes}

theorem set_filled {buf taken : Bytes} (h : taken.length < buf.length) (b : UInt8) :
    (taken ++ buf.drop taken.length).set taken.length b = taken ++ [b] ++ buf.drop (taken ++ [b]).length := by
  rw [List.set_append_right _ _ (Nat.le_refl _), Nat.sub_self, List.drop_eq_getElem_cons h, List.set_cons_zero,
    List.length_append, List.length_singleton, List.append_assoc, List.singleton_append]

def Follows (decode : Bytes → Except String S2cMessage) (r : S2CMessageReaderImpl) (rest : Bytes)
    (s t : Receiving) : Prop :=
  (Partway r rest t.reader t.awaiting ∧ t.results = s.results) ∨
  ∃ re, t = ⟨t.reader, .header [], s.results ++ [re]⟩ ∧
    r.readNextMessage decode ⟨rest, false⟩ = some (re, t.reader, ⟨[], false⟩)

theorem follows_filled {header taken : Bytes} {size : UInt32} (hheader : header.length = 4)
    (hsize : UInt32.ofNat (fixed header) = size) (hsmall : ¬size > r.maxMessageSize)
    (htaken : taken.length ≤ size.toNat)
    (hreader : s.reader = { r with buf := taken ++ (r.resized size.toNat).drop taken.length }) :
    Follows decode r (header ++ taken) s (s.filled decode size taken.length) := by
  unfold filled
  split_ifs with hfull
  · refine Or.inr ⟨decoded decode taken, ?_, ?_⟩
    · rw [hreader, ← hfull, List.take_left]
      simp only [returns, hreader]
    · rw [readNextMessage_body hheader hsize hsmall hfull, ← hreader]
      rfl
  · refine Or.inl ⟨?_, rfl⟩
    rw [hreader]
    exact .body header taken size hheader hsize hsmall (by omega)

theorem follows_arrive (h : Partway r rest s.reader s.awaiting) (b : UInt8) :
    Follows decode r (rest ++ [b]) s (s.arrive decode b) := by
  obtain ⟨reader, awaiting, results⟩ := s
  dsimp only at h
  cases h with
  | header got hgot =>
    simp only [arrive]
    split_ifs with hshort
    · exact Or.inl ⟨.header _ (by simp; omega), rfl⟩
    · have hheader : (rest ++ [b]).length = 4 := by
        simp
        omega
      unfold sized
      split_ifs with hlarge
      · have hpos : 0 < (UInt32.ofNat (fixed (rest ++ [b]))).toNat := by
          rw [gt_iff_lt, UInt32.lt_iff_toNat_lt] at hlarge
          omega
        have hpart := Partway.skipping (r := r) (rest ++ [b]) [] _ _ hheader rfl hlarge (Nat.zero_add _) hpos
        rw [List.append_nil] at hpart
        exact Or.inl ⟨hpart, rfl⟩
      · let size := UInt32.ofNat (fixed (rest ++ [b]))
        have hfilled : Follows decode r (rest ++ [b] ++ [])
            ⟨{ r with buf := r.resized size.toNat }, .header rest, results⟩
            (filled decode ⟨{ r with buf := r.resized size.toNat }, .header rest, results⟩ size ([] : Bytes).length) :=
          follows_filled hheader rfl hlarge (Nat.zero_le _) rfl
        rw [List.append_nil] at hfilled
        exact hfilled
  | skipping header skipped size left hheader hsize hlarge hleft hpos =>
    simp only [arrive]
    rw [List.append_assoc]
    split_ifs with hlast
    · refine Or.inr ⟨.error (.messageTooLarge r.maxMessageSize size), rfl, ?_⟩
      exact readNextMessage_large hheader hsize hlarge (Or.inl (by simp; omega))
    · exact Or.inl ⟨.skipping header _ size _ hheader hsize hlarge (by simp; omega) (by omega), rfl⟩
  | body header taken size hheader hsize hsmall htaken =>
    have hbuf : taken.length < (r.resized size.toNat).length :=
      Nat.lt_of_lt_of_le htaken (length_resized r size.toNat)
    have hlen : (taken ++ [b]).length = taken.length + 1 := by simp
    rw [List.append_assoc]
    simp only [arrive, set_filled hbuf]
    rw [← hlen]
    apply follows_filled hheader hsize hsmall (by omega) rfl

def Received (decode : Bytes → Except String S2cMessage) (r : S2CMessageReaderImpl) (bs : Bytes)
    (s : Receiving) : Prop :=
  ∃ r₁ rest, r.readMessages decode s.results.length ⟨bs, false⟩ = some (s.results, r₁, ⟨rest, false⟩) ∧
    Partway r₁ rest s.reader s.awaiting

theorem received_arrive {bs : Bytes} (h : Received decode r bs s) (b : UInt8) :
    Received decode r (bs ++ [b]) (s.arrive decode b) := by
  obtain ⟨r₁, rest, hread, hpart⟩ := h
  have hmore := readMessages_open hread [b] false
  rcases follows_arrive hpart b with ⟨hpart', hresults⟩ | ⟨re, heq, hnext⟩
  · exact ⟨r₁, rest ++ [b], by rw [hresults]; exact hmore, hpart'⟩
  · refine ⟨(s.arrive decode b).reader, [], ?_, ?_⟩
    · rw [heq]
      dsimp only
      rw [List.length_append, List.length_singleton, readMessages_snoc hmore, hnext]
      rfl
    · rw [heq]
      exact .header [] (by simp)

theorem received_arriveAll {bs : Bytes} (h : Received decode r bs s) (chunk : Bytes) :
    Received decode r (bs ++ chunk) (s.arriveAll decode chunk) := by
  induction chunk generalizing s bs with
  | nil =>
    rw [List.append_nil]
    exact h
  | cons b chunk ih =>
    have hrest := ih (received_arrive h b)
    rwa [List.append_assoc, List.singleton_append] at hrest

theorem received_chunks {bs : Bytes} (h : Received decode r bs s) (chunks : List Bytes) :
    Received decode r (bs ++ chunks.flatten) (chunks.foldl (arriveAll decode) s) := by
  induction chunks generalizing s bs with
  | nil => simpa using h
  | cons chunk chunks ih =>
    have hrest := ih (received_arriveAll h chunk)
    rwa [List.append_assoc] at hrest

theorem Partway.waits {reader : S2CMessageReaderImpl} {awaiting : Awaiting} (h : Partway r rest reader awaiting)
    (decode : Bytes → Except String S2cMessage) : r.readNextMessage decode ⟨rest, false⟩ = none := by
  cases h with
  | header got hgot =>
    rw [readNextMessage, Stream.readExact_open, if_neg (by omega)]
    rfl
  | skipping header skipped size left hheader hsize hlarge hleft hpos =>
    have hread := Stream.readExact_append header skipped false
    rw [hheader] at hread
    simp only [readNextMessage, hread, Option.bind_some, hsize, if_pos hlarge]
    rw [Stream.skip_open, if_neg (by omega)]
    rfl
  | body header taken size hheader hsize hsmall htaken =>
    have hread := Stream.readExact_append header taken false
    rw [hheader] at hread
    simp only [readNextMessage, hread, Option.bind_some, hsize, if_neg hsmall]
    rw [Stream.readExact_open, if_neg (by omega)]
    rfl

theorem Partway.ends (h : Partway r rest s.reader s.awaiting) (decode : Bytes → Except String S2cMessage) :
    ∃ re, s.ends = ⟨s.reader, .header [], s.results ++ [re]⟩ ∧
    r.readNextMessage decode ⟨rest, true⟩ = some (re, s.reader, ⟨[], true⟩) := by
  obtain ⟨reader, awaiting, results⟩ := s
  dsimp only at h ⊢
  cases h with
  | header got hgot =>
    refine ⟨.error (unexpectedEof "unexpected end of file"), rfl, ?_⟩
    have hcut : Stream.readExact ⟨rest, true⟩ 4 = some (.error rest, ⟨[], true⟩) := by
      unfold Stream.readExact
      dsimp only
      rw [if_neg (by omega), if_pos rfl]
    rw [readNextMessage, hcut]
    rfl
  | skipping header skipped size left hheader hsize hlarge hleft hpos =>
    refine ⟨.error (.messageTooLarge r.maxMessageSize size), rfl, ?_⟩
    exact readNextMessage_large hheader hsize hlarge (Or.inr ⟨by omega, rfl⟩)
  | body header taken size hheader hsize hsmall htaken =>
    exact ⟨.error (unexpectedEof "early eof"), rfl, readNextMessage_cut hheader hsize hsmall htaken⟩

/-- However the bytes come in, the calls return what they would return on the whole of them at once,
and another one waits; when the stream ends, so does that one. -/
theorem received (decode : Bytes → Except String S2cMessage) (r : S2CMessageReaderImpl) (chunks : List Bytes) :
    let s := chunks.foldl (arriveAll decode) r.receiving
    (∃ r₁ rest, r.readMessages decode s.results.length ⟨chunks.flatten, false⟩ = some (s.results, r₁, ⟨rest, false⟩) ∧
      r₁.readNextMessage decode ⟨rest, false⟩ = none) ∧
    r.readMessages decode (s.results.length + 1) ⟨chunks.flatten, true⟩ =
      some (s.ends.results, s.ends.reader, ⟨[], true⟩) := by
  have hstart : Received decode r [] r.receiving := ⟨r, [], rfl, .header [] (by simp)⟩
  obtain ⟨r₁, rest, hread, hpart⟩ := received_chunks hstart chunks
  rw [List.nil_append] at hread
  obtain ⟨re, heq, hlast⟩ := hpart.ends decode
  refine ⟨⟨r₁, rest, hread, hpart.waits decode⟩, ?_⟩
  have hended := readMessages_open hread [] true
  rw [List.append_nil, List.append_nil] at hended
  rw [readMessages_snoc hended, hlast, heq]
  rfl

end Receiving

end S2c
