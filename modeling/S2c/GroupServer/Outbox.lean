import Mathlib.Data.List.Forall2
import S2c.GroupServer.Router
import S2c.GroupServer.Tasks
import S2c.Network.Arrival
import S2c.Network.Drain

namespace S2c

open Wire Machine

/-- A group server with its router, the write half of each client's connection, the messages that its
`drain_out` took from its channel and the bytes that the connection passed on. -/
structure Outbox where
  server : GroupServer
  run : RouterRun
  drains : NodeIdentity → Draining
  taken : NodeIdentity → List S2cMessage
  sent : NodeIdentity → Bytes

/-- A turn of a `drain_out` writes its message out, or is cut off by an error or the cancelled token
after some of the bytes were passed on. -/
inductive OutboxEvent where
  | server (e : GroupEvent)
  | handleClient (n : NodeIdentity)
  | received (msg : S2cMessageEnvelope)
  | routed
  | written (n : NodeIdentity) (kept : ℕ)
  | cut (n : NodeIdentity) (cancelled : Bool) (passed : ℕ)

def GroupEvent.outward : GroupEvent → Bool
  | .handleClient _ => true
  | .written _ _ => true
  | _ => false

def GroupServer.Writes (s : GroupServer) (n : NodeIdentity) : Prop :=
  ∀ loop, s.writeLoops n = some loop → loop = .running

namespace Outbox

def start : Outbox := ⟨.started, .start, fun _ => .new, fun _ => [], fun _ => []⟩

def next (s : Outbox) (n : NodeIdentity) : Option (S2cMessage × Bytes) :=
  (s.run.router.channels n)[(s.taken n).length]?.bind (fun msg =>
    (GroupServer.encodeOut (s.drains n).buf msg.s2cMessage).map (fun payload => (msg.s2cMessage, payload)))

def route (s : Outbox) (e : RouterEvent) : Option Outbox :=
  if s.server.supervisor = .draining then (s.run.step e).map (fun run => { s with run := run }) else none

def step (s : Outbox) : OutboxEvent → Option Outbox
  | .server e =>
    if e.outward then none else (s.server.step e).map (fun server => { s with server := server })
  | .handleClient n =>
    if s.server.running then
      (s.run.step (.handleClient n)).map (fun run => { s with server := s.server.handleClient n, run := run })
    else some s
  | .received msg => s.route (.received msg)
  | .routed => s.route .routed
  | .written n kept =>
    (s.next n).bind (fun (msg, payload) =>
      (s.server.step (.written n true)).map (fun server =>
        let d := (s.drains n).write payload kept
        { s with
          server := server
          drains := Function.update s.drains n d
          taken := Function.update s.taken n (s.taken n ++ [msg])
          sent := Function.update s.sent n d.writer.socket }))
  | .cut n cancelled passed =>
    (s.next n).bind (fun (msg, payload) =>
      (s.server.step (if cancelled then .writeCancelled n else .written n false)).map (fun server =>
        { s with
          server := server
          taken := Function.update s.taken n (s.taken n ++ [msg])
          sent := Function.update s.sent n
            (s.sent n ++ ((s.drains n).writer.buf ++ frame payload).take passed) }))

structure Passed (s : Outbox) (n : NodeIdentity) : Prop where
  unregistered : s.server.clientsIns n = false → s.server.writeLoops n = none
  taken : s.taken n <+: (s.run.router.channels n).map S2cMessageEnvelope.s2cMessage
  sent : s.sent n <+: ((s.taken n).map GroupServer.padded).flatMap frame
  writes : s.server.Writes n → (s.drains n).buf = [] ∧ s.sent n = (s.drains n).writer.socket ∧
    (s.drains n).writer.written = ((s.taken n).map GroupServer.padded).flatMap frame

variable {s t : Outbox} {n : NodeIdentity}

theorem reachable_run (h : Reachable step s t) : Reachable RouterRun.step s.run t.run := by
  apply reachable_view Outbox.run _ h
  intro s e t he
  have hroute {ev : RouterEvent} (h : s.route ev = some t) : Reachable RouterRun.step s.run t.run := by
    unfold route at h
    split_ifs at h
    obtain ⟨run, hrun, rfl⟩ := Option.map_eq_some_iff.mp h
    exact .single hrun
  cases e with
  | server e =>
    simp only [step] at he
    split_ifs at he
    obtain ⟨server, _, rfl⟩ := Option.map_eq_some_iff.mp he
    exact .refl _
  | handleClient m =>
    simp only [step] at he
    split_ifs at he
    · obtain ⟨run, hrun, rfl⟩ := Option.map_eq_some_iff.mp he
      exact .single hrun
    · cases he
      exact .refl _
  | received msg => exact hroute he
  | routed => exact hroute he
  | written m kept =>
    obtain ⟨_, _, hserver⟩ := Option.bind_eq_some_iff.mp he
    obtain ⟨server, _, rfl⟩ := Option.map_eq_some_iff.mp hserver
    exact .refl _
  | cut m cancelled passed =>
    obtain ⟨_, _, hserver⟩ := Option.bind_eq_some_iff.mp he
    obtain ⟨server, _, rfl⟩ := Option.map_eq_some_iff.mp hserver
    exact .refl _

theorem channels_step {s t : RouterRun} {e : RouterEvent} (h : s.step e = some t) (n : NodeIdentity) :
    s.router.channels n <+: t.router.channels n := by
  cases e with
  | handleClient m =>
    cases h
    simp only [Router.handleClient]
    split_ifs <;> exact List.prefix_refl _
  | received msg =>
    simp only [RouterRun.step] at h
    split_ifs at h <;> cases h <;> exact List.prefix_refl _
  | routed =>
    obtain ⟨msg, _, rfl⟩ := Option.map_eq_some_iff.mp h
    simp only [Router.route]
    split_ifs
    · dsimp only
      by_cases hn : n = msg.nodeIdentity
      · subst hn
        rw [Function.update_self]
        exact List.prefix_append _ _
      · exact (Function.update_of_ne hn _ _).symm ▸ List.prefix_refl _
    · exact List.prefix_refl _
    · exact List.prefix_refl _

theorem writes_of_running {s : GroupServer} (h : s.writeLoops n = some .running) : s.Writes n := by
  intro loop hloop
  exact Option.some.inj (hloop.symm.trans h)

theorem writes_step {s t : GroupServer} {e : GroupEvent} (hs : s.clientsIns n = false → s.writeLoops n = none)
    (h : s.step e = some t) : (t.clientsIns n = false → t.writeLoops n = none) ∧ (t.Writes n → s.Writes n) := by
  have hupdate (m : NodeIdentity) (loop : LoopState) (hloop : s.writeLoops m = some .running)
      (hclients : t.clientsIns = s.clientsIns) (hloops : t.writeLoops = Function.update s.writeLoops m (some loop)) :
      (t.clientsIns n = false → t.writeLoops n = none) ∧ (t.Writes n → s.Writes n) := by
    rw [hclients, hloops]
    by_cases hnm : n = m
    · subst hnm
      constructor
      · intro hn
        cases (hs hn).symm.trans hloop
      · exact fun _ => writes_of_running hloop
    · unfold GroupServer.Writes
      rw [hloops, Function.update_of_ne hnm]
      exact ⟨hs, id⟩
  cases GroupServer.stepped h with
  | registered m _ hm =>
    by_cases hnm : n = m
    · subst hnm
      refine ⟨by simp, ?_⟩
      intro _ loop hloop
      cases (hs hm).symm.trans hloop
    · simp only [GroupServer.Writes, Function.update_of_ne hnm]
      exact ⟨hs, id⟩
  | written m hloop => exact hupdate m _ hloop rfl rfl
  | writeFailed m hloop => exact hupdate m _ hloop rfl rfl
  | writeCancelled m hloop => exact hupdate m _ hloop rfl rfl
  | _ => exact ⟨hs, id⟩

theorem passed_start : start.Passed n :=
  ⟨fun _ => rfl, List.prefix_refl _, List.prefix_refl _, fun _ => ⟨rfl, rfl, rfl⟩⟩

theorem Passed.keep (h : s.Passed n) (hserver : s.server = t.server ∨ ∃ e, s.server.step e = some t.server)
    (hchannels : s.run.router.channels n <+: t.run.router.channels n) (hdrains : t.drains n = s.drains n)
    (htaken : t.taken n = s.taken n) (hsent : t.sent n = s.sent n) : t.Passed n := by
  have hwrites : (t.server.clientsIns n = false → t.server.writeLoops n = none) ∧
      (t.server.Writes n → s.server.Writes n) := by
    rcases hserver with hsame | ⟨e, hstep⟩
    · rw [← hsame]
      exact ⟨h.unregistered, id⟩
    · exact writes_step h.unregistered hstep
  refine ⟨hwrites.1, ?_, ?_, ?_⟩
  · rw [htaken]
    exact h.taken.trans (hchannels.map _)
  · rw [hsent, htaken]
    exact h.sent
  · intro hn
    rw [hdrains, hsent, htaken]
    exact h.writes (hwrites.2 hn)

theorem taken_next (h : s.Passed n) {msg : S2cMessage} {payload : Bytes} (hnext : s.next n = some (msg, payload)) :
    s.taken n ++ [msg] <+: (s.run.router.channels n).map S2cMessageEnvelope.s2cMessage ∧
      GroupServer.encodeOut (s.drains n).buf msg = some payload := by
  obtain ⟨envelope, henvelope, hencode⟩ := Option.bind_eq_some_iff.mp hnext
  obtain ⟨payload', hpayload, heq⟩ := Option.map_eq_some_iff.mp hencode
  cases heq
  refine ⟨?_, hpayload⟩
  obtain ⟨rest, hrest⟩ := h.taken
  have hget : ((s.run.router.channels n).map S2cMessageEnvelope.s2cMessage)[(s.taken n).length]? =
      some envelope.s2cMessage := by rw [List.getElem?_map, henvelope, Option.map_some]
  rw [← hrest, List.getElem?_append_right (Nat.le_refl _), Nat.sub_self] at hget
  cases rest with
  | nil => cases hget
  | cons first rest =>
    cases hget
    exact ⟨rest, by rw [← hrest]; simp⟩

theorem flatMap_frame_snoc (messages : List S2cMessage) (msg : S2cMessage) :
    ((messages ++ [msg]).map GroupServer.padded).flatMap frame =
      (messages.map GroupServer.padded).flatMap frame ++ frame (GroupServer.padded msg) := by
  rw [List.map_append, List.flatMap_append]
  simp

theorem passed_written {server : GroupServer} {msg : S2cMessage} {payload : Bytes} {kept : ℕ} (h : s.Passed n)
    (hnext : s.next n = some (msg, payload)) (hserver : s.server.step (.written n true) = some server) :
    Passed
      { s with
        server := server
        drains := Function.update s.drains n ((s.drains n).write payload kept)
        taken := Function.update s.taken n (s.taken n ++ [msg])
        sent := Function.update s.sent n ((s.drains n).write payload kept).writer.socket } n := by
  obtain ⟨hunregistered, hwrites⟩ := writes_step h.unregistered hserver
  obtain ⟨htaken, hencode⟩ := taken_next h hnext
  have hloop : s.server.Writes n := by
    simp only [GroupServer.step] at hserver
    split_ifs at hserver with hrunning
    exact writes_of_running hrunning
  obtain ⟨hbuf, _, hwritten⟩ := h.writes hloop
  rw [hbuf, GroupServer.encodeOut_nil_eq_some_iff] at hencode
  obtain ⟨_, rfl⟩ := hencode
  have hall : ((s.drains n).write (GroupServer.padded msg) kept).writer.written =
      ((s.taken n ++ [msg]).map GroupServer.padded).flatMap frame := by
    rw [flatMap_frame_snoc, ← hwritten]
    exact written_writeBytes _ _ _
  refine ⟨hunregistered, ?_, ?_, ?_⟩
  · simpa using htaken
  · simp only [Function.update_self]
    rw [← hall]
    exact List.prefix_append _ _
  · intro _
    simp only [Function.update_self]
    exact ⟨rfl, trivial, hall⟩

theorem passed_cut {server : GroupServer} {msg : S2cMessage} {payload : Bytes} {cancelled : Bool} {passed : ℕ}
    (h : s.Passed n) (hnext : s.next n = some (msg, payload))
    (hserver : s.server.step (if cancelled then .writeCancelled n else .written n false) = some server) :
    Passed
      { s with
        server := server
        taken := Function.update s.taken n (s.taken n ++ [msg])
        sent := Function.update s.sent n
          (s.sent n ++ ((s.drains n).writer.buf ++ frame payload).take passed) } n := by
  obtain ⟨hunregistered, _⟩ := writes_step h.unregistered hserver
  obtain ⟨htaken, hencode⟩ := taken_next h hnext
  have hended : s.server.Writes n ∧ ¬server.Writes n := by
    cases cancelled with
    | true =>
      simp only [if_true, GroupServer.step] at hserver
      split_ifs at hserver with hloop
      cases hserver
      refine ⟨writes_of_running hloop.1, ?_⟩
      intro hwrites
      cases hwrites .cancelled (by simp)
    | false =>
      simp only [Bool.false_eq_true, if_false, GroupServer.step] at hserver
      split_ifs at hserver with hloop
      cases hserver
      refine ⟨writes_of_running hloop, ?_⟩
      intro hwrites
      cases hwrites .failed (by simp [GroupServer.looped])
  obtain ⟨hbuf, hsocket, hwritten⟩ := h.writes hended.1
  rw [hbuf, GroupServer.encodeOut_nil_eq_some_iff] at hencode
  obtain ⟨_, rfl⟩ := hencode
  refine ⟨hunregistered, ?_, ?_, fun hwrites => absurd hwrites hended.2⟩
  · simpa using htaken
  · simp only [Function.update_self]
    rw [flatMap_frame_snoc, ← hwritten, BufWriter.written, hsocket, List.append_assoc, List.prefix_append_right_inj]
    exact List.take_prefix _ _

theorem passed_step {e : OutboxEvent} (h : s.Passed n) (hstep : s.step e = some t) : t.Passed n := by
  have hroute {ev : RouterEvent} (hev : s.route ev = some t) : t.Passed n := by
    unfold route at hev
    split_ifs at hev
    obtain ⟨run, hrun, rfl⟩ := Option.map_eq_some_iff.mp hev
    exact h.keep (Or.inl rfl) (channels_step hrun n) rfl rfl rfl
  cases e with
  | server e =>
    simp only [step] at hstep
    split_ifs at hstep
    obtain ⟨server, hserver, rfl⟩ := Option.map_eq_some_iff.mp hstep
    exact h.keep (Or.inr ⟨e, hserver⟩) (List.prefix_refl _) rfl rfl rfl
  | handleClient m =>
    simp only [step] at hstep
    split_ifs at hstep
    · obtain ⟨run, hrun, rfl⟩ := Option.map_eq_some_iff.mp hstep
      exact h.keep (Or.inr ⟨.handleClient m, rfl⟩) (channels_step hrun n) rfl rfl rfl
    · cases hstep
      exact h
  | received msg => exact hroute hstep
  | routed => exact hroute hstep
  | written m kept =>
    obtain ⟨⟨msg, payload⟩, hnext, hanswer⟩ := Option.bind_eq_some_iff.mp hstep
    obtain ⟨server, hserver, rfl⟩ := Option.map_eq_some_iff.mp hanswer
    by_cases hnm : n = m
    · subst hnm
      exact passed_written h hnext hserver
    · refine h.keep (Or.inr ⟨_, hserver⟩) (List.prefix_refl _) ?_ ?_ ?_ <;> simp [hnm]
  | cut m cancelled passed =>
    obtain ⟨⟨msg, payload⟩, hnext, hanswer⟩ := Option.bind_eq_some_iff.mp hstep
    obtain ⟨server, hserver, rfl⟩ := Option.map_eq_some_iff.mp hanswer
    by_cases hnm : n = m
    · subst hnm
      exact passed_cut h hnext hserver
    · refine h.keep (Or.inr ⟨_, hserver⟩) (List.prefix_refl _) ?_ ?_ ?_ <;> simp [hnm]

theorem passed_of_reachable (h : Reachable step start s) (n : NodeIdentity) : s.Passed n :=
  invariant (I := fun s => s.Passed n) (fun _ _ _ => passed_step) passed_start h

theorem channels_of_reachable {s : RouterRun} (h : Reachable RouterRun.step RouterRun.start s) (n : NodeIdentity) :
    ∃ lost : List S2cMessageEnvelope, lost.length ≤ 1 ∧ lost ++ s.router.channels n <+: s.addressed n := by
  have htracks := RouterRun.sound_of_reachable h n
  cases hregistered : s.router.clientsIns n <;> cases hcached : s.router.localClientIns n <;>
    cases hprimed : s.primed n <;> rw [hregistered, hcached, hprimed] at htracks
  all_goals first
    | exact ⟨[], Nat.zero_le 1, by rw [htracks.2.1]; exact List.nil_prefix⟩
    | exact ⟨[], Nat.zero_le 1, by rw [htracks.1]; exact List.nil_prefix⟩
    | skip
  · obtain ⟨lost, haddressed⟩ := htracks
    refine ⟨[lost], Nat.le_refl 1, ?_⟩
    rw [haddressed, List.cons_append, List.nil_append, List.prefix_cons_inj]
    exact List.prefix_append _ _
  · have haddressed : s.addressed n = s.router.channels n ++ s.inHand n := htracks
    refine ⟨[], Nat.zero_le 1, ?_⟩
    rw [haddressed]
    exact List.prefix_append _ _

theorem exists_taken (h : Reachable step start s) (n : NodeIdentity) :
    ∃ (lost messages : List S2cMessageEnvelope), lost.length ≤ 1 ∧ lost ++ messages <+: s.run.addressed n ∧
      messages.map S2cMessageEnvelope.s2cMessage = s.taken n := by
  obtain ⟨lost, hlost, hchannels⟩ := channels_of_reachable (reachable_run h) n
  refine ⟨lost, (s.run.router.channels n).take (s.taken n).length, hlost, ?_, ?_⟩
  · exact ((List.prefix_append_right_inj lost).mpr (List.take_prefix _ _)).trans hchannels
  · rw [List.map_take]
    exact (List.prefix_iff_eq_take.mp (passed_of_reachable h n).taken).symm

def Misread (re : Except NetworkError S2cMessage) (msg : S2cMessage) : Prop :=
  (msg = S2cMessage.message.empty ∧ re = .ok S2cMessage.message.empty) ∨
    (msg ≠ S2cMessage.message.empty ∧ ∃ e, re = .error e)

theorem Misread.eq_empty {msg m : S2cMessage} (h : Misread (.ok m) msg) : m = S2cMessage.message.empty := by
  rcases h with ⟨_, hok⟩ | ⟨_, _, herror⟩
  · exact Except.ok.inj hok
  · cases herror

theorem misread_padded (describe : Bytes → String) (max : UInt32) (msg : S2cMessage) :
    Misread (S2CMessageReaderImpl.reading (decodeMessage describe) max (GroupServer.padded msg)) msg := by
  by_cases hempty : msg = S2cMessage.message.empty
  · subst hempty
    exact Or.inl ⟨rfl, S2CMessageReaderImpl.reading_encode describe S2cMessage.message.empty (Nat.zero_le _)⟩
  · refine Or.inr ⟨hempty, ?_⟩
    -- a field's key is never zero
    obtain ⟨tail, htail⟩ : ∃ tail, GroupServer.padded msg = 0 :: tail := by
      cases hencode : S2cMessage.message.encode msg with
      | nil => exact absurd (Message.eq_empty_of_encode_nil hencode) hempty
      | cons b bs =>
        rw [GroupServer.padded, hencode, List.length_cons, List.replicate_succ, List.cons_append]
        exact ⟨_, rfl⟩
    rw [S2CMessageReaderImpl.reading, decodeMessage, htail, Message.decode_zero]
    split_ifs
    · exact ⟨_, rfl⟩
    · exact ⟨_, rfl⟩

/-- Whatever else the group server does, a client's connection carries the frames of the envelopes for it
in their order: all but possibly the first, none twice, and up to where the loop stands. -/
theorem outbox_of_client (h : Reachable step start s) (n : NodeIdentity) :
    ∃ (lost messages : List S2cMessageEnvelope), lost.length ≤ 1 ∧ lost ++ messages <+: s.run.addressed n ∧
      s.sent n <+: (messages.map (fun msg => GroupServer.padded msg.s2cMessage)).flatMap frame ∧
      (s.server.writeLoops n = some .running → s.sent n ++ (s.drains n).writer.buf =
        (messages.map (fun msg => GroupServer.padded msg.s2cMessage)).flatMap frame) := by
  obtain ⟨lost, messages, hlost, haddressed, htaken⟩ := exists_taken h n
  have hn := passed_of_reachable h n
  have hframes : messages.map (fun msg => GroupServer.padded msg.s2cMessage) = (s.taken n).map GroupServer.padded := by
    rw [← htaken, List.map_map]
    rfl
  refine ⟨lost, messages, hlost, haddressed, ?_, ?_⟩
  · rw [hframes]
    exact hn.sent
  · intro hrunning
    obtain ⟨_, hsocket, hwritten⟩ := hn.writes (writes_of_running hrunning)
    rw [hframes, ← hwritten, hsocket]
    rfl

/-- No client ever gets a reply: what its reader makes of the frames is an error, or the message
without any field where that was the reply. -/
theorem never_answered (describe : Bytes → String) (h : Reachable step start s) {n : NodeIdentity}
    (hsize : ∀ msg ∈ s.run.addressed n, (S2cMessage.message.encode msg.s2cMessage).length < 2 ^ 31)
    {r r' : S2CMessageReaderImpl} {k : ℕ} {res : List (Except NetworkError S2cMessage)} {rest : Bytes}
    (hread : r.readMessages (decodeMessage describe) k ⟨s.sent n, false⟩ = some (res, r', ⟨rest, false⟩)) :
    (∀ m, .ok m ∈ res → m = S2cMessage.message.empty) ∧
    ∃ (lost replies : List S2cMessageEnvelope), lost.length ≤ 1 ∧ lost ++ replies <+: s.run.addressed n ∧
      List.Forall₂ (fun re reply => Misread re reply.s2cMessage) res replies := by
  obtain ⟨lost, messages, hlost, haddressed, htaken⟩ := exists_taken h n
  have hshort : ∀ p ∈ (s.taken n).map GroupServer.padded, p.length < 2 ^ 32 := by
    simp only [← htaken, List.map_map, List.forall_mem_map, Function.comp_apply]
    intro msg hmsg
    have hlen := hsize msg (haddressed.subset (List.mem_append_right lost hmsg))
    rw [GroupServer.length_padded]
    omega
  obtain ⟨hgiven, _⟩ := S2CMessageReaderImpl.prefix_of_framed hshort (passed_of_reachable h n).sent hread
  obtain ⟨count, hres⟩ : ∃ count, res = (messages.take count).map (fun msg =>
      S2CMessageReaderImpl.reading (decodeMessage describe) r.maxMessageSize (GroupServer.padded msg.s2cMessage)) := by
    refine ⟨res.length, ?_⟩
    rw [List.map_take]
    simpa [← htaken, Function.comp_def] using List.prefix_iff_eq_take.mp hgiven
  refine ⟨?_, lost, messages.take count, hlost, ?_, ?_⟩
  · intro m hm
    obtain ⟨msg, _, hmsg⟩ := List.mem_map.mp (hres ▸ hm)
    exact Misread.eq_empty (hmsg ▸ misread_padded describe r.maxMessageSize msg.s2cMessage)
  · exact ((List.prefix_append_right_inj lost).mpr (List.take_prefix _ _)).trans haddressed
  · rw [hres, List.forall₂_map_left_iff, List.forall₂_same]
    intro msg _
    exact misread_padded describe r.maxMessageSize msg.s2cMessage

open RouterRun in
def sampleReplies : List OutboxEvent :=
  [.handleClient sampleIdentity, .received sampleEnvelope, .routed, .received sampleEnvelope, .routed,
    .cut sampleIdentity false 100]

open RouterRun in
theorem exec_sampleReplies : ∃ s, exec step start sampleReplies = some s ∧
    s.run.addressed sampleIdentity = [sampleEnvelope, sampleEnvelope] ∧
    s.sent sampleIdentity = frame (GroupServer.padded sampleEnvelope.s2cMessage) := by
  have hruns : (exec step start sampleReplies).map (fun s => (s.run.addressed sampleIdentity, s.sent sampleIdentity)) =
      some ([sampleEnvelope, sampleEnvelope], frame (GroupServer.padded sampleEnvelope.s2cMessage)) := by decide
  obtain ⟨s, hs, hboth⟩ := Option.map_eq_some_iff.mp hruns
  obtain ⟨haddressed, hsent⟩ := Prod.mk.inj hboth
  exact ⟨s, hs, haddressed, hsent⟩

open RouterRun in
theorem outbox_of_client_sample : ∃ s, exec step start sampleReplies = some s ∧
    ∃ (lost messages : List S2cMessageEnvelope), lost.length ≤ 1 ∧
      lost ++ messages <+: s.run.addressed sampleIdentity ∧ s.sent sampleIdentity <+:
        (messages.map (fun msg => GroupServer.padded msg.s2cMessage)).flatMap frame := by
  obtain ⟨s, hs, _⟩ := exec_sampleReplies
  obtain ⟨lost, messages, hlost, haddressed, hsent, _⟩ := outbox_of_client ⟨_, hs⟩ sampleIdentity
  exact ⟨s, hs, lost, messages, hlost, haddressed, hsent⟩

open RouterRun in
theorem never_answered_sample : ∃ s, exec step start sampleReplies = some s ∧
    ∃ res r' rest, (S2CMessageReaderImpl.new 1024).readMessages (decodeMessage (fun _ => "")) 1
      ⟨s.sent sampleIdentity, false⟩ = some (res, r', ⟨rest, false⟩) ∧ res = [.error (.invalidProtobuf "")] ∧
      ∃ (lost replies : List S2cMessageEnvelope), lost.length ≤ 1 ∧
        lost ++ replies <+: s.run.addressed sampleIdentity ∧
        List.Forall₂ (fun re reply => Misread re reply.s2cMessage) res replies := by
  obtain ⟨s, hs, haddressed, hsent⟩ := exec_sampleReplies
  have hread : ∃ r' rest, (S2CMessageReaderImpl.new 1024).readMessages (decodeMessage (fun _ => "")) 1
      ⟨s.sent sampleIdentity, false⟩ = some ([.error (.invalidProtobuf "")], r', ⟨rest, false⟩) := by
    rw [hsent]
    exact ⟨_, _, rfl⟩
  obtain ⟨r', rest, hread⟩ := hread
  refine ⟨s, hs, _, r', rest, hread, rfl, (never_answered (fun _ => "") ⟨_, hs⟩ ?_ hread).2⟩
  rw [haddressed]
  decide

end Outbox

end S2c
