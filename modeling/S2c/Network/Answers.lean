import S2c.Fsm.State
import S2c.Network.Arrival
import S2c.Network.Handshake
import S2c.Network.SetUp
import S2c.Network.Spent

namespace S2c

open Machine Wire

def DrainIn.inHand : DrainIn → Option S2cMessage
  | .handling m => some m
  | .responding m => some m
  | _ => none

def HandlerStage.silent : HandlerStage → Bool
  | .reading => true
  | .replying _ _ => true
  | _ => false

namespace S2cClient

variable {κ : Type} {ident : κ → String} {c t : S2cClient ident} {P : S2cMessage → Prop}

/-- `P` holds of every message that has come in and may still answer a call, or has answered one. -/
structure Heard (P : S2cMessage → Prop) (c : S2cClient ident) : Prop where
  calls : c.calls.Sound
  inHand : ∀ m, c.drainIn.inHand = some m → P m
  slots : ∀ k m, c.calls.inflightRequests.slots k = .filled (.ok m) → P m

theorem heard_new (ident : κ → String) (maxPendingReqs : ℕ) : (new ident maxPendingReqs).Heard P :=
  ⟨Calls.sound_new ident maxPendingReqs, by simp [new, DrainIn.inHand], by
    intro k m hslot
    cases hslot⟩

variable [DecidableEq κ] {e : ClientEvent κ}

theorem inHand_step (h : c.step e = some t) {m : S2cMessage} (hm : t.drainIn.inHand = some m) :
    c.drainIn.inHand = some m ∨ e = .drainIn (.read (.ok m)) := by
  cases stepped h with
  | connecting hlock hconnected =>
    rename_i n k stage e re
    have hlocked : (locked n k re).drainIn = re.1.drainIn := by
      unfold locked
      split <;> rfl
    rw [hlocked] at hm
    cases hconnected with
    | connectedStored => cases hm
    | spawnedIn => cases hm
    | _ => exact Or.inl hm
  | closing hlock hclosing => cases hclosing <;> exact Or.inl hm
  | drainIn hdrain =>
    cases hdrain with
    | read hfrom m' =>
      cases hm
      exact Or.inr rfl
    | handled m' hfrom _ =>
      cases hm
      exact Or.inl (by rw [hfrom]; rfl)
    | _ => cases hm
  | drainOut hdrain => cases hdrain <;> exact Or.inl hm
  | _ => exact Or.inl hm

theorem filled_step (h : c.step e = some t) {k : κ} {m : S2cMessage}
    (hslot : t.calls.inflightRequests.slots k = .filled (.ok m)) :
    c.calls.inflightRequests.slots k = .filled (.ok m) ∨ c.drainIn.inHand = some m := by
  by_cases hold : c.calls.inflightRequests.slots k = .filled (.ok m)
  · exact Or.inl hold
  · right
    cases stepped h with
    | connecting hlock hconnected =>
      rename_i n k' stage e re
      have hcalls : re.1.calls = c.calls := by cases hconnected <;> rfl
      rw [calls_locked.1, hcalls] at hslot
      exact absurd hslot hold
    | call j s calls hcall => cases (Calls.filled_step (e := .call j s) hcall hold hslot).1
    | closing hlock hclosing => cases hclosing <;> exact absurd hslot hold
    | drainIn hdrain =>
      cases hdrain with
      | responded m' hfrom =>
        cases (Calls.filled_step (c := c.calls) (e := .respond m') rfl hold hslot).1
        rw [hfrom]
        rfl
      | failedAll err => cases (Calls.filled_step (c := c.calls) (e := .failAll (.io err)) rfl hold hslot).1
      | _ => exact absurd hslot hold
    | drainOut hdrain => cases hdrain <;> exact absurd hslot hold
    | _ => exact absurd hslot hold

theorem heard_step (hc : c.Heard P) (hread : ∀ m, e = .drainIn (.read (.ok m)) → P m) (h : c.step e = some t) :
    t.Heard P := by
  refine ⟨invariant (fun _ _ _ => Calls.sound_step) hc.calls (calls_step h), ?_, ?_⟩
  · intro m hm
    rcases inHand_step h hm with hold | hnew
    · exact hc.inHand m hold
    · exact hread m hnew
  · intro k m hslot
    rcases filled_step h hslot with hold | hhand
    · exact hc.slots k m hold
    · exact hc.inHand m hhand

omit [DecidableEq κ] in
theorem Heard.answered (hc : c.Heard P) {k : κ} {m : S2cMessage} (hk : c.calls.stages k = .returned (.ok m)) :
    P m ∧ m.correlationId = ident k := by
  have hslot := hc.calls.ok k m hk
  exact ⟨hc.slots k m hslot, hc.calls.answer k m hslot⟩

end S2cClient

namespace Peers

variable {κ : Type} {ident : κ → String} {p : Peers κ} {groupServers groupServers' : GroupServers} {c c' : Connection}

/-- No request is too long for the header of its frame, and only a handshake reads as one. -/
structure Proper (p : Peers κ) (ident : κ → String) : Prop where
  decode : ∃ describe, p.decode = decodeMessage describe
  short : ∀ k, (p.payload ident k).length < 2 ^ 32
  other : ∀ k payload, p.request k = .other payload → ∀ m, p.decode payload = .ok m →
    ∀ handshake, m.body ≠ some (.handshake handshake)

def Echo (p : Peers κ) (ident : κ → String) (m : S2cMessage) : Prop :=
  ∃ k, p.request k = .handshake ∧ m = p.handshakeMessage (ident k)

structure Echoing (p : Peers κ) (ident : κ → String) (c : Connection) : Prop where
  requests : ∃ ks : List κ, c.clientWriter.written = (ks.map (p.payload ident)).flatMap frame
  flushed : c.serverWriter.buf = []
  silent : c.handler.silent = true → c.serverWriter.socket = []
  replying : ∀ m handshake, c.handler = .replying m handshake → p.Echo ident m
  reply : c.serverWriter.socket = [] ∨
    ∃ m, p.Echo ident m ∧ c.serverWriter.socket = frame (S2cMessage.message.encode m)

theorem payload_handshake {k : κ} (hk : p.request k = .handshake) :
    p.payload ident k = S2cMessage.message.encode (p.handshakeMessage (ident k)) := by
  rw [payload, hk]

theorem decode_payload (hp : p.Proper ident) {k : κ} {m : S2cMessage} {handshake : Handshake}
    (hm : p.decode (p.payload ident k) = .ok m) (hbody : m.body = some (.handshake handshake)) : p.Echo ident m := by
  have hshort := hp.short k
  cases hrequest : p.request k with
  | handshake =>
    obtain ⟨describe, hdecode⟩ := hp.decode
    rw [payload_handshake hrequest] at hm hshort
    rw [hdecode, decodeMessage_encode describe _ (by omega)] at hm
    cases hm
    exact ⟨k, hrequest, rfl⟩
  | other payload =>
    have hother := hp.other k payload hrequest m
    rw [Peers.payload, hrequest] at hm
    exact absurd hbody (hother hm handshake)

theorem decode_echo (hp : p.Proper ident) {m : S2cMessage} (hm : p.Echo ident m) :
    p.decode (S2cMessage.message.encode m) = .ok m ∧ (S2cMessage.message.encode m).length < 2 ^ 32 := by
  obtain ⟨k, hrequest, rfl⟩ := hm
  obtain ⟨describe, hdecode⟩ := hp.decode
  have hshort := hp.short k
  rw [payload_handshake hrequest] at hshort
  refine ⟨?_, hshort⟩
  rw [hdecode, decodeMessage_encode describe _ (by omega)]

theorem readNextMessage_frames {decode : Bytes → Except String S2cMessage} {r r' : S2CMessageReaderImpl}
    {bs more : Bytes} {payloads : List Bytes} {re : Except NetworkError S2cMessage} {stream : Stream}
    (hlen : ∀ payload ∈ payloads, payload.length < 2 ^ 32) (hbs : bs ++ more = payloads.flatMap frame)
    (h : r.readNextMessage decode ⟨bs, false⟩ = some (re, r', stream)) :
    ∃ payload rest, payloads = payload :: rest ∧ re = S2CMessageReaderImpl.reading decode r.maxMessageSize payload ∧
      stream.unread ++ more = rest.flatMap frame := by
  obtain ⟨left, rfl, hmore⟩ := S2CMessageReaderImpl.readNextMessage_open h
  have hall := hmore more false
  rw [hbs] at hall
  cases payloads with
  | nil =>
    rw [List.flatMap_nil, S2CMessageReaderImpl.readNextMessage, Stream.readExact_open] at hall
    cases hall
  | cons payload rest =>
    obtain ⟨r₁, hfirst, _⟩ := S2CMessageReaderImpl.readNextMessage_frame decode r
      (hlen payload List.mem_cons_self) (rest.flatMap frame) false
    rw [List.flatMap_cons, hfirst] at hall
    obtain ⟨rfl, _, hleft⟩ : S2CMessageReaderImpl.reading decode r.maxMessageSize payload = re ∧ r₁ = r' ∧
        (⟨rest.flatMap frame, false⟩ : Stream) = ⟨left ++ more, false⟩ := by simpa using hall
    exact ⟨payload, rest, rfl, rfl, (congrArg Stream.unread hleft).symm⟩

theorem ok_of_reading {decode : Bytes → Except String S2cMessage} {max : UInt32} {payload : Bytes} {m : S2cMessage}
    (h : S2CMessageReaderImpl.reading decode max payload = .ok m) : decode payload = .ok m := by
  unfold S2CMessageReaderImpl.reading at h
  split_ifs at h
  split at h
  · cases h
    assumption
  · cases h

theorem echoing_opened : p.Echoing ident p.opened :=
  ⟨⟨[], rfl⟩, rfl, fun _ => rfl, by simp [opened], Or.inl rfl⟩

theorem requests_read (hp : p.Proper ident) (hc : p.Echoing ident c) {re : Except NetworkError S2cMessage}
    {serverReader : S2CMessageReaderImpl} {reader : Stream}
    (hread : c.serverReader.readNextMessage p.decode ⟨c.clientWriter.socket, false⟩ = some (re, serverReader, reader)) :
    (∃ ks : List κ, reader.unread ++ c.clientWriter.buf = (ks.map (p.payload ident)).flatMap frame) ∧
      ∀ m handshake, re = .ok m → m.body = some (.handshake handshake) → p.Echo ident m := by
  obtain ⟨ks, hks⟩ := hc.requests
  have hlen : ∀ payload ∈ ks.map (p.payload ident), payload.length < 2 ^ 32 := by
    simpa using fun k _ => hp.short k
  obtain ⟨payload, rest, hpayloads, hre, hleft⟩ := readNextMessage_frames hlen hks hread
  obtain ⟨k, ks', rfl, rfl, rfl⟩ := List.map_eq_cons_iff.mp hpayloads
  refine ⟨⟨ks', hleft⟩, ?_⟩
  rintro m handshake rfl hbody
  exact decode_payload hp (ok_of_reading hre.symm) hbody

theorem echoing_handleClient {e : HandlerEvent} (hp : p.Proper ident) (hc : p.Echoing ident c)
    (h : p.handleClient groupServers c e = some (c', groupServers')) : p.Echoing ident c' := by
  unfold handleClient at h
  split at h
  · rename_i hreading
    obtain ⟨⟨re, serverReader, reader⟩, hread, hanswer⟩ := Option.map_eq_some_iff.mp h
    obtain ⟨hrequests, hecho⟩ := requests_read hp hc hread
    have hsocket : c.serverWriter.socket = [] := hc.silent (by rw [hreading]; rfl)
    dsimp only at hanswer
    split at hanswer
    · rename_i message
      split at hanswer
      · rename_i handshake hbody
        cases hanswer
        refine ⟨hrequests, hc.flushed, fun _ => hsocket, ?_, Or.inl hsocket⟩
        rintro _ _ ⟨⟩
        exact hecho message handshake rfl hbody
      · cases hanswer
        exact ⟨hrequests, hc.flushed, fun _ => hsocket, hc.replying, Or.inl hsocket⟩
    · cases hanswer
      exact ⟨hrequests, hc.flushed, by simp [HandlerStage.silent], by simp, Or.inl hsocket⟩
  · rename_i message handshake hreplying
    have hsocket : c.serverWriter.socket = [] := hc.silent (by rw [hreplying]; rfl)
    cases h
    refine ⟨hc.requests, rfl, by simp [HandlerStage.silent], by simp,
      Or.inr ⟨message, hc.replying message handshake hreplying, ?_⟩⟩
    rw [BufWriter.socket_flush, written_writeBytes, BufWriter.written, hsocket, hc.flushed]
    rfl
  · cases h
    exact ⟨hc.requests, hc.flushed, by simp [HandlerStage.silent], by simp, hc.reply⟩
  · cases h
    exact ⟨hc.requests, hc.flushed, by simp [HandlerStage.silent], by simp, hc.reply⟩
  · cases h

theorem reply_read (hp : p.Proper ident) (hc : p.Echoing ident c) {re : Except NetworkError S2cMessage}
    {clientReader : S2CMessageReaderImpl} {reader : Stream}
    (hread : c.clientReader.readNextMessage p.decode ⟨c.serverWriter.socket, false⟩ = some (re, clientReader, reader)) :
    reader.unread = [] ∧ ∀ m, re = .ok m → p.Echo ident m := by
  rcases hc.reply with hsocket | ⟨m, hm, hsocket⟩
  · have hframes : c.serverWriter.socket ++ [] = ([] : List Bytes).flatMap frame := by
      rw [hsocket]
      rfl
    obtain ⟨_, _, hpayloads, _⟩ := readNextMessage_frames (by simp) hframes hread
    cases hpayloads
  · obtain ⟨hdecode, hlen⟩ := decode_echo hp hm
    have hframes : c.serverWriter.socket ++ [] = [S2cMessage.message.encode m].flatMap frame := by
      rw [hsocket]
      simp
    obtain ⟨_, _, hpayloads, hre, hleft⟩ := readNextMessage_frames (by simpa using hlen) hframes hread
    cases hpayloads
    refine ⟨by simpa using hleft, ?_⟩
    rintro m' rfl
    cases hdecode.symm.trans (ok_of_reading hre.symm)
    exact hm

structure Echoed (p : Peers κ) (s : Session ident) : Prop where
  client : s.client.Heard (p.Echo ident)
  connections : ∀ c ∈ s.connections, p.Echoing ident c

variable [DecidableEq κ] {s t : Session ident}

theorem echoed_step {e : SessionEvent κ} (hp : p.Proper ident) (hs : p.Echoed s) (h : p.step s e = some t) :
    p.Echoed t := by
  cases e with
  | client e =>
    simp only [step] at h
    split_ifs at h with hfree
    · obtain ⟨client, hclient, rfl⟩ := Option.map_eq_some_iff.mp h
      refine ⟨S2cClient.heard_step hs.client ?_ hclient, hs.connections⟩
      rintro m rfl
      cases hfree
    · split at h
      · obtain ⟨client, hclient, rfl⟩ := Option.map_eq_some_iff.mp h
        exact ⟨S2cClient.heard_step hs.client (by simp) hclient,
          List.forall_mem_cons.mpr ⟨echoing_opened, hs.connections⟩⟩
      · cases h
  | clientRead =>
    simp only [step] at h
    split at h
    · cases h
    · rename_i c connections hconnections
      obtain ⟨⟨re, clientReader, reader⟩, hread, hanswer⟩ := Option.bind_eq_some_iff.mp h
      obtain ⟨client, hclient, rfl⟩ := Option.map_eq_some_iff.mp hanswer
      have hall := hs.connections
      rw [hconnections, List.forall_mem_cons] at hall
      obtain ⟨hc, hrest⟩ := hall
      obtain ⟨hunread, hecho⟩ := reply_read hp hc hread
      refine ⟨S2cClient.heard_step hs.client ?_ hclient, List.forall_mem_cons.mpr ⟨?_, hrest⟩⟩
      · rintro m ⟨⟩
        exact hecho m rfl
      · exact ⟨hc.requests, hc.flushed, fun _ => hunread, hc.replying, Or.inl hunread⟩
  | clientWritten kept =>
    simp only [step] at h
    split at h
    · rename_i c connections k hconnections hwriting
      obtain ⟨client, hclient, rfl⟩ := Option.map_eq_some_iff.mp h
      have hall := hs.connections
      rw [hconnections, List.forall_mem_cons] at hall
      obtain ⟨hc, hrest⟩ := hall
      refine ⟨S2cClient.heard_step hs.client (by simp) hclient, List.forall_mem_cons.mpr ⟨?_, hrest⟩⟩
      obtain ⟨ks, hks⟩ := hc.requests
      refine ⟨⟨ks ++ [k], ?_⟩, hc.flushed, hc.silent, hc.replying, hc.reply⟩
      rw [written_writeBytes, hks]
      simp
    · cases h
  | handler i e =>
    simp only [step] at h
    obtain ⟨c, hget, hc⟩ := Option.bind_eq_some_iff.mp h
    obtain ⟨⟨c', groupServers⟩, hhandle, rfl⟩ := Option.map_eq_some_iff.mp hc
    refine ⟨hs.client, ?_⟩
    intro d hd
    rcases List.mem_or_eq_of_mem_set hd with hold | rfl
    · exact hs.connections d hold
    · exact echoing_handleClient hp (hs.connections c (List.mem_of_getElem? hget)) hhandle
  | group groupId e =>
    simp only [step] at h
    split at h
    · cases h
    · obtain ⟨g, _, hstep⟩ := Option.bind_eq_some_iff.mp h
      obtain ⟨g', _, rfl⟩ := Option.map_eq_some_iff.mp hstep
      exact ⟨hs.client, hs.connections⟩

theorem echoed_of_reachable {maxPendingReqs : ℕ} (hp : p.Proper ident)
    (h : Reachable p.step (start ident maxPendingReqs groupServers) s) : p.Echoed s :=
  invariant (I := fun s => p.Echoed s) (fun _ _ _ => echoed_step hp)
    ⟨S2cClient.heard_new ident maxPendingReqs, by simp [start]⟩ h

omit [DecidableEq κ] in
theorem Echoed.answered (hs : p.Echoed s) (hident : Function.Injective ident) {k : κ} {m : S2cMessage}
    (hk : s.client.calls.stages k = .returned (.ok m)) :
    p.request k = .handshake ∧ m = p.handshakeMessage (ident k) := by
  obtain ⟨⟨j, hrequest, rfl⟩, hid⟩ := hs.client.answered hk
  obtain rfl : j = k := hident hid
  exact ⟨hrequest, rfl⟩

/-- Over however many connections, a server answers no request but a handshake, and that with itself. -/
theorem only_handshakes_answered {maxPendingReqs : ℕ} (hp : p.Proper ident) (hident : Function.Injective ident)
    (h : Reachable p.step (start ident maxPendingReqs groupServers) s) {k : κ} {m : S2cMessage}
    (hk : s.client.calls.stages k = .returned (.ok m)) :
    p.request k = .handshake ∧ m = p.handshakeMessage (ident k) :=
  (echoed_of_reachable hp h).answered hident hk

def greeter : Peers Unit where
  decode := decodeMessage (fun _ => "failed to decode Protobuf message")
  clientMaxMessageSize := 512000
  serverMaxMessageSize := 512000
  handshake := longHandshake BufWriter.capacity
  request _ := .handshake

def greeting : S2cMessage := greeter.handshakeMessage "h"

theorem length_greeting : BufWriter.capacity ≤ (S2cMessage.message.encode greeting).length ∧
    (S2cMessage.message.encode greeting).length ≤ 8268 :=
  length_longHandshake (n := BufWriter.capacity) (by decide)

theorem proper_greeter : greeter.Proper (fun _ => "h") := by
  refine ⟨⟨_, rfl⟩, ?_, by simp [greeter]⟩
  intro k
  exact Nat.lt_of_le_of_lt length_greeting.2 (by decide)

def asking : List (ClientEvent Unit) :=
  [.connecting .connectedStored, .connecting .spawnedIn, .connecting .spawnedOut, .call () .added, .call () .queued,
    .drainIn .started, .drainIn .checked, .drainOut .started, .drainOut .checked, .drainOut .throttleLoaded,
    .drainOut .received, .drainOut .handled]

theorem exec_greeting : ∃ s : Session (fun _ : Unit => "h"),
    Reachable greeter.step (start (fun _ => "h") 1 (oneGroup "g")) s ∧
      s.client.calls.stages () = .returned (.ok greeting) := by
  obtain ⟨waited, opened, queued, written, read, done, hcalled, hopened, hasked, hwriting, hwritten, hread, hanswered,
      hreturned⟩ : ∃ waited opened queued written read done : S2cClient (fun _ : Unit => "h"),
        exec S2cClient.step (.new _ 1) [.connect S2cClient.server (), .connecting .waited] = some waited ∧
        waited.step (.connecting (.opened (.ok ()))) = some opened ∧
        exec S2cClient.step opened asking = some queued ∧ queued.drainOut = .writing () ∧
        queued.step (.drainOut (.written true)) = some written ∧
        written.step (.drainIn (.read (.ok greeting))) = some read ∧
        exec S2cClient.step read [.drainIn .handled, .drainIn .responded, .call () .received] = some done ∧
        done.calls.stages () = .returned (.ok greeting) :=
    ⟨_, _, _, _, _, _, rfl, rfl, rfl, rfl, rfl, rfl, rfl, rfl⟩
  obtain ⟨hlarge, hmax⟩ := length_greeting
  have hreading : S2CMessageReaderImpl.reading greeter.decode 512000 (S2cMessage.message.encode greeting) =
      .ok greeting := S2CMessageReaderImpl.reading_encode _ _ (Nat.le_trans hmax (by decide))
  have hcall : exec greeter.step (start (fun _ => "h") 1 (oneGroup "g"))
      ([.connect S2cClient.server (), .connecting .waited].map .client) = some ⟨waited, [], oneGroup "g"⟩ :=
    exec_client rfl hcalled
  have hopen : greeter.step ⟨waited, [], oneGroup "g"⟩ (.client (.connecting (.opened (.ok ())))) =
      some ⟨opened, [greeter.opened], oneGroup "g"⟩ := by
    simp [step, free, hopened]
  have hask : exec greeter.step ⟨opened, [greeter.opened], oneGroup "g"⟩ (asking.map .client) =
      some ⟨queued, [greeter.opened], oneGroup "g"⟩ := exec_client rfl hasked
  have hbody : greeting.body = some (.handshake greeter.handshake) := rfl
  obtain ⟨c, hserve, _⟩ := exec_served (s := ⟨queued, [greeter.opened], oneGroup "g"⟩) rfl hwriting hbody rfl
    hlarge (by omega) hreading hreading hwritten hread
  have hanswer : exec greeter.step ⟨read, [c], oneGroup "g"⟩
      ([.drainIn .handled, .drainIn .responded, .call () .received].map .client) = some ⟨done, [c], oneGroup "g"⟩ :=
    exec_client rfl hanswered
  refine ⟨⟨done, [c], oneGroup "g"⟩, ?_, hreturned⟩
  exact (((Reachable.trans ⟨_, hcall⟩ (.single hopen)).trans ⟨_, hask⟩).trans ⟨_, hserve⟩).trans ⟨_, hanswer⟩

theorem only_handshakes_answered_sample : ∃ s : Session (fun _ : Unit => "h"),
    s.client.calls.stages () = .returned (.ok greeting) ∧ greeter.request () = .handshake ∧
      greeting = greeter.handshakeMessage "h" := by
  obtain ⟨s, hs, hreturned⟩ := exec_greeting
  exact ⟨s, hreturned, only_handshakes_answered proper_greeter (Function.injective_of_subsingleton _) hs
    hreturned⟩

end Peers

def FSM.followMessage (f : FSM) (correlationId : String) : S2cMessage :=
  ⟨correlationId, some (.follow ⟨f.applyIndex, some f.nodeIdentity, f.group⟩), none⟩

namespace Peers

variable {κ : Type} {ident : κ → String} {p : Peers κ}

def Follows (p : Peers κ) (ident : κ → String) (f : FSM) : Prop :=
  ∀ k, p.request k = .handshake ∨ p.request k = .other (S2cMessage.message.encode (f.followMessage (ident k)))

theorem proper_of_follows {f : FSM} {describe : Bytes → String} (hdecode : p.decode = decodeMessage describe)
    (hshort : ∀ k, (p.payload ident k).length < 2 ^ 32) (hfollows : p.Follows ident f) : p.Proper ident := by
  refine ⟨⟨describe, hdecode⟩, hshort, ?_⟩
  intro k payload hrequest m hm handshake hbody
  rcases hfollows k with hhandshake | hfollow
  · cases hrequest.symm.trans hhandshake
  · have hlen := hshort k
    rw [Peers.payload, hfollow] at hlen
    cases hrequest.symm.trans hfollow
    rw [hdecode, decodeMessage_encode describe _ (Nat.lt_trans hlen (by decide))] at hm
    cases hm
    cases hbody

theorem follow_fails [DecidableEq κ] {f : FSM} {describe : Bytes → String} {maxPendingReqs : ℕ}
    {groupServers : GroupServers} {s : Session ident} (hdecode : p.decode = decodeMessage describe)
    (hshort : ∀ k, (p.payload ident k).length < 2 ^ 32) (hfollows : p.Follows ident f)
    (hident : Function.Injective ident) (h : Reachable p.step (start ident maxPendingReqs groupServers) s)
    {answers : List Response} (hanswers : ∀ m, .ok m ∈ answers →
      ∃ k, p.request k ≠ .handshake ∧ s.client.calls.stages k = .returned (.ok m))
    {backoff : BackoffCounter} {re : Except ClientError Unit} (hre : Loop.feed followTurn backoff answers = .leave re) :
    ∃ e, re = .error e := by
  obtain ⟨c, a, ha, _, hleave⟩ := Loop.exists_of_feed_leave (I := fun _ => True) (fun _ _ _ _ _ => trivial) trivial hre
  cases a with
  | error e =>
    rw [followTurn_eq, Loop.retry] at hleave
    split_ifs at hleave
    cases hleave
    exact ⟨e, rfl⟩
  | ok m =>
    obtain ⟨k, hother, hk⟩ := hanswers m ha
    have hp := proper_of_follows hdecode hshort hfollows
    exact absurd ((echoed_of_reachable hp h).answered hident hk).1 hother

end Peers

end S2c
