import S2c.GroupServer.Tasks
import S2c.Network.Arrival

namespace S2c

open Wire Machine

structure ReadHalf where
  reader : S2CMessageReaderImpl
  stream : Stream

/-- A group server with the connections its read loops read from, the bytes that came in on each, and
what the loops put on `all_in`. -/
structure Inbox where
  server : GroupServer
  connections : NodeIdentity → ReadHalf
  arrived : NodeIdentity → Bytes
  allIn : List S2cMessageEnvelope

inductive InboxEvent where
  | server (e : GroupEvent)
  | arrived (n : NodeIdentity) (chunk : Bytes)
  | ended (n : NodeIdentity)
  | read (n : NodeIdentity)

def GroupEvent.reads : GroupEvent → Bool
  | .read _ _ => true
  | _ => false

def GroupServer.Listens (s : GroupServer) (n : NodeIdentity) : Prop :=
  ∀ loop, s.readLoops n = some loop → loop = .running

namespace Inbox

variable (decode : Bytes → Except String S2cMessage)

def start (max : UInt32) : Inbox := ⟨.started, fun _ => ⟨.new max, ⟨[], false⟩⟩, fun _ => [], []⟩

def taken (s : Inbox) (n : NodeIdentity) : Except NetworkError S2cMessage → List S2cMessageEnvelope
  | .ok msg => if s.server.running then [⟨msg, n⟩] else []
  | .error _ => []

def step (s : Inbox) : InboxEvent → Option Inbox
  | .server e =>
    if e.reads then none else (s.server.step e).map (fun server => { s with server := server })
  | .arrived n chunk =>
    let c := s.connections n
    if c.stream.ended then none else some
      { s with
        connections := Function.update s.connections n ⟨c.reader, { c.stream with unread := c.stream.unread ++ chunk }⟩
        arrived := Function.update s.arrived n (s.arrived n ++ chunk) }
  | .ended n =>
    let c := s.connections n
    some { s with connections := Function.update s.connections n ⟨c.reader, { c.stream with ended := true }⟩ }
  | .read n =>
    let c := s.connections n
    (c.reader.readNextMessage decode c.stream).bind (fun (re, reader, stream) =>
      (s.server.step (.read n re.isOk)).map (fun server =>
        { s with
          server := server
          connections := Function.update s.connections n ⟨reader, stream⟩
          allIn := s.allIn ++ s.taken n re }))

def ofClient (s : Inbox) (n : NodeIdentity) : List S2cMessageEnvelope :=
  s.allIn.filter (fun msg => msg.nodeIdentity = n)

/-- The messages of `n` on `all_in` are the first that its connection gives, and a loop that has not
ended stands right behind them. -/
structure Fed (max : UInt32) (s : Inbox) (n : NodeIdentity) : Prop where
  unregistered : s.server.clientsIns n = false → s.server.readLoops n = none
  fed : ∃ messages r rest,
    S2CMessageReaderImpl.readMessages decode (List.length messages) (.new max) ⟨s.arrived n, false⟩ =
      some (messages.map .ok, r, ⟨rest, false⟩) ∧
    s.ofClient n = messages.map (fun msg => ⟨msg, n⟩) ∧
    (s.server.Listens n → (s.connections n).reader = r ∧ (s.connections n).stream.unread = rest)

variable {decode} {max : UInt32} {s t : Inbox} {n : NodeIdentity}

theorem listens_of_running {s : GroupServer} (h : s.readLoops n = some .running) : s.Listens n := by
  intro loop hloop
  exact Option.some.inj (hloop.symm.trans h)

theorem listens_step {s t : GroupServer} {e : GroupEvent} (hs : s.clientsIns n = false → s.readLoops n = none)
    (h : s.step e = some t) : (t.clientsIns n = false → t.readLoops n = none) ∧ (t.Listens n → s.Listens n) := by
  have hupdate (m : NodeIdentity) (loop : LoopState) (hloop : s.readLoops m = some .running)
      (hclients : t.clientsIns = s.clientsIns) (hloops : t.readLoops = Function.update s.readLoops m (some loop)) :
      (t.clientsIns n = false → t.readLoops n = none) ∧ (t.Listens n → s.Listens n) := by
    rw [hclients, hloops]
    by_cases hnm : n = m
    · subst hnm
      refine ⟨?_, fun _ => listens_of_running hloop⟩
      intro hn
      cases (hs hn).symm.trans hloop
    · unfold GroupServer.Listens
      rw [hloops, Function.update_of_ne hnm]
      exact ⟨hs, id⟩
  cases GroupServer.stepped h with
  | registered m _ hm =>
    by_cases hnm : n = m
    · subst hnm
      refine ⟨by simp, ?_⟩
      intro _ loop hloop
      cases (hs hm).symm.trans hloop
    · simp only [GroupServer.Listens, Function.update_of_ne hnm]
      exact ⟨hs, id⟩
  | read m hloop => exact hupdate m _ hloop rfl rfl
  | readFailed m hloop => exact hupdate m _ hloop rfl rfl
  | readCancelled m hloop => exact hupdate m _ hloop rfl rfl
  | _ => exact ⟨hs, id⟩

theorem fed_start : (start max).Fed decode max n :=
  ⟨fun _ => rfl, [], .new max, [], rfl, rfl, fun _ => ⟨rfl, rfl⟩⟩

theorem Fed.keep (h : s.Fed decode max n) (chunk : Bytes)
    (hserver : s.server = t.server ∨ ∃ e, s.server.step e = some t.server)
    (hallIn : t.ofClient n = s.ofClient n) (hreader : (t.connections n).reader = (s.connections n).reader)
    (harrived : t.arrived n = s.arrived n ++ chunk)
    (hunread : (t.connections n).stream.unread = (s.connections n).stream.unread ++ chunk) : t.Fed decode max n := by
  have hlistens : (t.server.clientsIns n = false → t.server.readLoops n = none) ∧
      (t.server.Listens n → s.server.Listens n) := by
    rcases hserver with hsame | ⟨e, hstep⟩
    · rw [← hsame]
      exact ⟨h.unregistered, id⟩
    · exact listens_step h.unregistered hstep
  obtain ⟨messages, r, rest, hread, hofClient, hstands⟩ := h.fed
  refine ⟨hlistens.1, messages, r, rest ++ chunk, ?_, ?_, ?_⟩
  · rw [harrived]
    exact S2CMessageReaderImpl.readMessages_open hread chunk false
  · rw [hallIn, hofClient]
  · intro hn
    obtain ⟨hr, hrest⟩ := hstands (hlistens.2 hn)
    rw [hreader, hunread, hr, hrest]
    exact ⟨rfl, rfl⟩

theorem fed_read {server : GroupServer} {re : Except NetworkError S2cMessage} {reader : S2CMessageReaderImpl}
    {stream : Stream} (h : s.Fed decode max n)
    (hread : (s.connections n).reader.readNextMessage decode (s.connections n).stream = some (re, reader, stream))
    (hserver : s.server.step (.read n re.isOk) = some server) :
    Fed decode max
      ⟨server, Function.update s.connections n ⟨reader, stream⟩, s.arrived, s.allIn ++ s.taken n re⟩ n := by
  obtain ⟨hunregistered, _⟩ := listens_step h.unregistered hserver
  obtain ⟨messages, r, rest, hmessages, hofClient, hstands⟩ := h.fed
  refine ⟨hunregistered, ?_⟩
  simp only [GroupServer.step] at hserver
  split_ifs at hserver with hloop
  cases hserver
  obtain ⟨hr, hrest⟩ := hstands (listens_of_running hloop)
  cases re with
  | error e =>
    refine ⟨messages, r, rest, hmessages, ?_, ?_⟩
    · simpa [ofClient, taken] using hofClient
    · intro hn
      cases hn .failed (by simp [GroupServer.looped, Except.isOk, Except.toBool])
  | ok msg =>
    have hstream : (s.connections n).stream = ⟨rest, (s.connections n).stream.ended⟩ := by rw [← hrest]
    rw [hr, hstream] at hread
    obtain ⟨rest', rfl, hopen⟩ := S2CMessageReaderImpl.readNextMessage_complete hread
    by_cases hrunning : s.server.running = true
    · refine ⟨messages ++ [msg], reader, rest', ?_, ?_, ?_⟩
      · dsimp only
        rw [List.length_append, List.length_singleton, S2CMessageReaderImpl.readMessages_snoc hmessages, hopen,
          List.map_append]
        rfl
      · rw [List.map_append, ← hofClient]
        simp [ofClient, taken, hrunning]
      · intro _
        simp
    · refine ⟨messages, r, rest, hmessages, ?_, ?_⟩
      · simpa [ofClient, taken, hrunning] using hofClient
      · intro hn
        cases hn .stopped (by simp [GroupServer.looped, Except.isOk, Except.toBool, hrunning])

theorem fed_step {e : InboxEvent} (h : s.Fed decode max n) (hstep : s.step decode e = some t) : t.Fed decode max n := by
  cases e with
  | server e =>
    simp only [step] at hstep
    split_ifs at hstep
    obtain ⟨server, hserver, rfl⟩ := Option.map_eq_some_iff.mp hstep
    exact h.keep [] (Or.inr ⟨e, hserver⟩) rfl rfl (List.append_nil _).symm (List.append_nil _).symm
  | arrived m chunk =>
    simp only [step] at hstep
    split_ifs at hstep
    cases hstep
    by_cases hnm : n = m
    · subst hnm
      exact h.keep chunk (Or.inl rfl) rfl (by simp) (by simp) (by simp)
    · exact h.keep [] (Or.inl rfl) rfl (by simp [hnm]) (by simp [hnm]) (by simp [hnm])
  | ended m =>
    cases hstep
    by_cases hnm : n = m
    · subst hnm
      exact h.keep [] (Or.inl rfl) rfl (by simp) (List.append_nil _).symm (by simp)
    · exact h.keep [] (Or.inl rfl) rfl (by simp [hnm]) (List.append_nil _).symm (by simp [hnm])
  | read m =>
    obtain ⟨⟨re, reader, stream⟩, hread, hanswer⟩ := Option.bind_eq_some_iff.mp hstep
    obtain ⟨server, hserver, rfl⟩ := Option.map_eq_some_iff.mp hanswer
    by_cases hnm : n = m
    · subst hnm
      exact fed_read h hread hserver
    · have hother : (s.taken m re).filter (fun msg => msg.nodeIdentity = n) = [] := by
        rw [List.filter_eq_nil_iff]
        intro msg hmsg
        unfold taken at hmsg
        split at hmsg
        · split_ifs at hmsg
          · obtain rfl := List.mem_singleton.mp hmsg
            simpa using fun h => hnm h.symm
          · cases hmsg
        · cases hmsg
      refine h.keep [] (Or.inr ⟨_, hserver⟩) ?_ (by simp [hnm]) (List.append_nil _).symm (by simp [hnm])
      simp [ofClient, List.filter_append, hother]

theorem fed_of_reachable (h : Reachable (step decode) (start max) s) (n : NodeIdentity) : s.Fed decode max n :=
  invariant (I := fun s => s.Fed decode max n) (fun _ _ _ => fed_step) fed_start h

/-- Whatever comes in beside them, the messages that a client frames on its connection are put on
`all_in` under its identity in their order, none twice and none left out; all of them, once the client's
read loop waits for more. -/
theorem inbox_of_client (describe : Bytes → String) (h : Reachable (step (decodeMessage describe)) (start max) s)
    (messages : List S2cMessage) (hlen : ∀ m ∈ messages, (S2cMessage.message.encode m).length ≤ max.toNat)
    (hsent : s.arrived n <+: (messages.map S2cMessage.message.encode).flatMap frame) :
    s.ofClient n <+: messages.map (fun msg => ⟨msg, n⟩) ∧
    (s.server.readLoops n = some .running → s.arrived n = (messages.map S2cMessage.message.encode).flatMap frame →
      (s.connections n).reader.readNextMessage (decodeMessage describe) (s.connections n).stream = none →
      s.ofClient n = messages.map (fun msg => ⟨msg, n⟩)) := by
  have hinjective : Function.Injective (Except.ok : S2cMessage → Except NetworkError S2cMessage) :=
    fun _ _ => Except.ok.inj
  have hshort : ∀ p ∈ messages.map S2cMessage.message.encode, p.length < 2 ^ 32 := by
    simp only [List.forall_mem_map]
    intro m hm
    exact Nat.lt_of_le_of_lt (hlen m hm) max.toNat_lt
  have hreading : (messages.map S2cMessage.message.encode).map
      (S2CMessageReaderImpl.reading (decodeMessage describe) max) = messages.map .ok := by
    rw [List.map_map]
    exact List.map_congr_left (fun m hm => S2CMessageReaderImpl.reading_encode describe m (hlen m hm))
  obtain ⟨read, r, rest, hread, hofClient, hstands⟩ := (fed_of_reachable h n).fed
  obtain ⟨hfirst, hall⟩ := S2CMessageReaderImpl.prefix_of_framed hshort hsent hread
  rw [S2CMessageReaderImpl.new, hreading] at hfirst hall
  rw [hofClient]
  refine ⟨((List.prefix_map_iff_of_injective hinjective).mp hfirst).map _, ?_⟩
  intro hloop hwhole hwaits
  obtain ⟨hr, hrest⟩ := hstands (listens_of_running hloop)
  have hopen : r.readNextMessage (decodeMessage describe) ⟨rest, false⟩ = none := by
    by_contra hsome
    obtain ⟨⟨re, r', stream⟩, hanswer⟩ := Option.ne_none_iff_exists'.mp hsome
    obtain ⟨rest', rfl, hmore⟩ := S2CMessageReaderImpl.readNextMessage_open hanswer
    have hstream : (s.connections n).stream = ⟨rest ++ [], (s.connections n).stream.ended⟩ := by
      rw [List.append_nil, ← hrest]
    rw [hr, hstream, hmore] at hwaits
    cases hwaits
  rw [(List.map_inj_right (fun _ _ => Except.ok.inj)).mp (hall hwhole hopen)]

open GroupServer in
def sampleArrivals : List InboxEvent :=
  [.server (.handleClient firstClient), .server (.handleClient secondClient), .arrived secondClient [0, 0, 0],
    .arrived firstClient [0, 0, 0, 2, 98, 0], .read firstClient]

def sampleMessage : S2cMessage := ⟨"", none, some .slowDownError⟩

theorem inbox_of_client_sample : ∃ s, exec (step (decodeMessage (fun _ => ""))) (start 1024) sampleArrivals = some s ∧
    s.ofClient GroupServer.firstClient = [⟨sampleMessage, GroupServer.firstClient⟩] := by
  cases hs : exec (step (decodeMessage (fun _ => ""))) (start 1024) sampleArrivals with
  | none => cases hs
  | some s =>
    refine ⟨s, rfl, ?_⟩
    have hinbox := inbox_of_client (fun _ => "") ⟨sampleArrivals, hs⟩ (n := GroupServer.firstClient) [sampleMessage]
      (by decide)
    cases hs
    exact (hinbox ⟨[], rfl⟩).2 rfl rfl rfl

end Inbox

end S2c
