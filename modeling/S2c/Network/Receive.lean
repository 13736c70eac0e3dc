import S2c.Fsm.Accounting
import S2c.Fsm.Batch
import S2c.Fsm.Flush
import S2c.Fsm.Follower
import S2c.Network.Delivery
import S2c.Network.Handshake

namespace S2c

open Machine Wire

namespace S2cClient

variable {κ : Type} {ident : κ → String} {c : S2cClient ident} {n : NodeIdentity} {k : κ} {m : S2cMessage}

def handshake : Response → Option (Except ClientError Handshake)
  | .ok resp =>
    match resp.body with
    | some (.handshake handshake) => some (.ok handshake)
    | _ => none
  | .error err => some (.error err)

def awaiting (c : S2cClient ident) : Option κ :=
  match c.rwLock with
  | .connect _ k .handshaking =>
    match (c.calls.stages k).pending, c.calls.inflightRequests.slots k with
    | true, .empty => some k
    | _, _ => none
  | _ => none

def handshaken : Option (Except ClientError Handshake) → Connecting
  | none => .panicked
  | some (.ok _) => .at .storingReady
  | some (.error err) => .at (.storingNotConnected err)

theorem handshake_isSome_iff : (handshake (.ok m)).isSome ↔ ∃ handshake, m.body = some (.handshake handshake) := by
  cases hbody : m.body with
  | none => simp [handshake, hbody]
  | some body => cases body <;> simp [handshake, hbody]

theorem slots_awaiting (h : c.awaiting = some k) : c.calls.inflightRequests.slots k = .empty := by
  unfold awaiting at h
  split at h
  · split at h
    · cases h
      assumption
    · cases h
  · cases h

variable [DecidableEq κ]

theorem connecting_handshaken {re : Response} (hre : c.calls.stages k = .returned re) :
    c.connecting n k .handshaking .handshaken = some (c, handshaken (handshake re)) := by
  cases re with
  | error err => simp [connecting, hre, handshake, handshaken]
  | ok response =>
    cases hbody : response.body with
    | none => simp [connecting, hre, handshake, handshaken, hbody]
    | some body => cases body <;> simp [connecting, hre, handshake, handshaken, hbody]

def received (c : S2cClient ident) (message : S2cMessage) : Option (S2cClient ident) :=
  match (c.inDrain (.read (.ok message))).bind process with
  | none => some c
  | some t =>
    match c.awaiting with
    | none => some t
    | some k =>
      match t.calls.inflightRequests.slots k with
      | .filled re => (handshake re).map (fun _ => t)
      | _ => some t

def Expects (c : S2cClient ident) (message : S2cMessage) : Prop :=
  c.drainIn = .reading → c.clientState.running = true → message.error = none →
    ∀ k, c.awaiting = some k → c.calls.inflightRequests.senders message.correlationId = some k →
      ∃ handshake, message.body = some (.handshake handshake)

theorem read_process (hreading : c.drainIn = .reading) :
    ∃ t, (c.inDrain (.read (.ok m))).bind process = some t ∧ t.calls.inflightRequests =
      if c.clientState.running = true ∧ m.error = none then c.calls.inflightRequests.respond m
      else c.calls.inflightRequests := by
  have hread : c.inDrain (.read (.ok m)) = some { c with drainIn := .handling m } := by simp [inDrain, hreading]
  rw [hread, Option.bind_some]
  by_cases hrunning : c.clientState.running = true
  · cases herror : m.error with
    | some err =>
      obtain ⟨t, ht, _, hcalls⟩ := process_error (c := { c with drainIn := .handling m }) hrunning rfl herror
      exact ⟨t, ht, by simp [hcalls]⟩
    | none =>
      obtain ⟨t, ht, _, hcalls⟩ := process_reply (c := { c with drainIn := .handling m }) hrunning rfl herror
      exact ⟨t, ht, by simp [hcalls, hrunning]⟩
  · exact ⟨{ c with drainIn := .ended }, by simp [process, inDrain, hrunning], by simp [hrunning]⟩

theorem respond_fills (hk : c.calls.inflightRequests.slots k = .empty) :
    (c.calls.inflightRequests.respond m).slots k =
      if c.calls.inflightRequests.senders m.correlationId = some k then .filled (.ok m) else .empty := by
  have hiff : c.calls.inflightRequests.Registered k ∧ ident k = m.correlationId ↔
      c.calls.inflightRequests.senders m.correlationId = some k := by
    constructor
    · rintro ⟨hregistered, hident⟩
      rwa [← hident]
    · intro hsender
      have hident : ident k = m.correlationId := c.calls.inflightRequests.own _ _ hsender
      exact ⟨by rwa [Pending.Registered, hident], hident⟩
  simp [InflightRequests.respond, Pending.slots_settle, hiff, hk]

theorem received_isSome_iff : (c.received m).isSome ↔ c.Expects m := by
  unfold received Expects
  by_cases hreading : c.drainIn = .reading
  · obtain ⟨t, ht, hcalls⟩ := read_process (m := m) hreading
    rw [ht]
    cases hawaiting : c.awaiting with
    | none => simp
    | some k =>
      have hempty := slots_awaiting hawaiting
      by_cases hresponds : c.clientState.running = true ∧ m.error = none
      · rw [if_pos hresponds] at hcalls
        simp only [hcalls, respond_fills hempty]
        split_ifs with hsender
        · simp [hreading, hresponds, hsender, handshake_isSome_iff]
        · simp [hsender]
      · rw [if_neg hresponds] at hcalls
        simp only [hcalls, hempty, Option.isSome_some, true_iff]
        exact fun _ hrunning herror => absurd ⟨hrunning, herror⟩ hresponds
  · have hread : c.inDrain (.read (.ok m)) = none := by
      unfold inDrain
      split <;> simp_all
    simp [hread, hreading]

theorem panicked_of_received (hlock : c.rwLock = .connect n k .handshaking)
    (hwaiting : c.calls.stages k = .waiting) (h : c.received m = none) :
    ∃ t calls, exec step c [.drainIn (.read (.ok m)), .drainIn .handled, .drainIn .responded] = some t ∧
      t.calls.call k .received = some calls ∧
      ∃ u, connecting { t with calls := calls } n k .handshaking .handshaken = some (u, .panicked) := by
  have hnot : ¬c.Expects m := by
    rw [← received_isSome_iff, h]
    exact Bool.false_ne_true
  simp only [Expects, not_forall] at hnot
  obtain ⟨hreading, hrunning, herror, j, hj, hsender, hbody⟩ := hnot
  have hempty := slots_awaiting hj
  obtain rfl : k = j := by
    simp only [awaiting, hlock] at hj
    split at hj
    · exact Option.some.inj hj
    · cases hj
  have hnone : handshake (.ok m) = none := by
    rw [← Option.not_isSome_iff_eq_none, handshake_isSome_iff]
    exact hbody
  let calls : Calls ident := { c.calls with inflightRequests := c.calls.inflightRequests.respond m }
  refine ⟨{ c with calls := calls, drainIn := .checking }, calls.enter k (.returned (.ok m)), ?_, ?_, ?_⟩
  · simp [exec, step, inDrain, hreading, hrunning, herror, Calls.step, calls]
  · simp [Calls.call, hwaiting, respond_fills hempty, hsender, calls]
  · exact ⟨_, by rw [connecting_handshaken Calls.stages_enter_self, hnone, handshaken]⟩

end S2cClient

/-- Who takes a message from a peer, in any state. Behind it a leader finds the rest of its turn, a
server's handler a socket that takes its reply or not. -/
inductive Receiver {κ : Type} (ident : κ → String) where
  | leader (f : FSM) (acc : List StateRequest) (behind : List S2cMessageEnvelope) (elapsedNanos : ℕ)
  | follower (f : FSM)
  | client (c : S2cClient ident)
  | server (handler : HandlerStage) (groupServers : GroupServers) (written : Bool)

namespace Receiver

variable {κ : Type} {ident : κ → String}

def handleClient (handler : HandlerStage) (groupServers : GroupServers) (written : Bool) (message : S2cMessage) :
    Option (HandlerStage × GroupServers) :=
  match handler, message.body with
  | .reading, some (.handshake handshake) =>
    (S2cMessage.message.encodeToVec message).map (fun _ =>
      if written then (.ended, lookUp groupServers handshake) else (.ended, groupServers))
  | handler, _ => some (handler, groupServers)

def process [DecidableEq κ] (r : Receiver ident) (peer : NodeIdentity) (message : S2cMessage) :
    Option (Receiver ident) :=
  match r with
  | .leader f acc behind elapsedNanos =>
    match f.leaderTurn acc ⟨some ⟨message, peer⟩, [], behind, elapsedNanos⟩ with
    | .receiving f acc => some (.leader f acc [] elapsedNanos)
    -- `acc.clear()` and a new start, whatever the append returns
    | .appending f _ _ => some (.leader f [] [] 0)
    | .panicked => none
  | .follower f =>
    match f.followerTurn (.received ⟨message, peer⟩) with
    | .again f _ => some (.follower f)
    | .returned f => some (.follower f)
  | .client c => (c.received message).map .client
  | .server handler groupServers written =>
    (handleClient handler groupServers written message).map (fun s => .server s.1 s.2 written)

def Accepts (r : Receiver ident) (peer : NodeIdentity) (message : S2cMessage) : Prop :=
  match r with
  | .leader f acc behind elapsedNanos =>
    let arrivals : Arrivals := ⟨some ⟨message, peer⟩, [], behind, elapsedNanos⟩
    (∀ msg ∈ arrivals.due, msg.NamesFollower) ∧
      (f.flushDue (acc ++ arrivals.requests) elapsedNanos = true → Fits (acc ++ arrivals.requests))
  | .follower _ => True
  | .client c => c.Expects message
  | .server handler _ _ => handler = .reading → (∃ handshake, message.body = some (.handshake handshake)) →
    (S2cMessage.message.encode message).length ≤ Message.isizeMax

theorem handleClient_isSome_iff (handler : HandlerStage) (groupServers : GroupServers) (written : Bool)
    (message : S2cMessage) : (handleClient handler groupServers written message).isSome ↔
      (handler = .reading → (∃ handshake, message.body = some (.handshake handshake)) →
        (S2cMessage.message.encode message).length ≤ Message.isizeMax) := by
  unfold handleClient
  split
  · rename_i handshake hbody
    simp [Message.encodeToVec, hbody]
  · rename_i hother
    refine iff_of_true rfl ?_
    rintro rfl ⟨handshake, hbody⟩
    exact absurd hbody (hother handshake rfl)

theorem exec_handleClient {p : Peers κ} {c : Connection} {groupServers : GroupServers} {message : S2cMessage}
    {serverReader : S2CMessageReaderImpl} {reader : Stream} (hhandler : c.handler = .reading)
    (hread : c.serverReader.readNextMessage p.decode ⟨c.clientWriter.socket, false⟩ =
      some (.ok message, serverReader, reader))
    (hfits : (S2cMessage.message.encode message).length ≤ Message.isizeMax) :
    ∃ es s, exec (fun s e => p.handleClient s.2 s.1 e) (c, groupServers) (.read :: es) = some s ∧
      handleClient .reading groupServers true message = some (s.1.handler, s.2) := by
  by_cases hbody : ∃ handshake, message.body = some (.handshake handshake)
  · obtain ⟨handshake, hbody⟩ := hbody
    refine ⟨[.replied 0, .lookedUp], ?_⟩
    simp [exec, Peers.handleClient, handleClient, hhandler, hread, hbody, Message.encodeToVec, hfits]
  · refine ⟨[], ?_⟩
    have hother : ∀ handshake, message.body ≠ some (.handshake handshake) := fun handshake h => hbody ⟨handshake, h⟩
    cases hbody : message.body with
    | none => simp [exec, Peers.handleClient, handleClient, hhandler, hread, hbody]
    | some body =>
      cases body with
      | handshake handshake => exact absurd hbody (hother handshake)
      | _ => simp [exec, Peers.handleClient, handleClient, hhandler, hread, hbody]

theorem process_isSome_iff [DecidableEq κ] (r : Receiver ident) (peer : NodeIdentity) (message : S2cMessage) :
    (r.process peer message).isSome ↔ r.Accepts peer message := by
  cases r with
  | leader f acc behind elapsedNanos =>
    simp only [Accepts, ← flushPayload_ne_none_iff]
    rw [← leaderTurn_panicked_iff, process]
    split <;> simp_all
  | follower f =>
    refine iff_of_true ?_ trivial
    rw [process]
    split <;> rfl
  | client c => rw [process, Option.isSome_map, S2cClient.received_isSome_iff, Accepts]
  | server handler groupServers written => rw [process, Option.isSome_map, handleClient_isSome_iff, Accepts]

def anonymousFollow : S2cMessage := ⟨"c1", some (.follow ⟨0, none, "g"⟩), none⟩

def bodiless : S2cMessage := ⟨"h", none, none⟩

theorem process_isSome_fails :
    S2cMessage.message.decode (S2cMessage.message.encode anonymousFollow) = some anonymousFollow ∧
    sampleNode.Elected ∅ [.served] sampleStore sampleLeader ∧
    (leader sampleLeader [] [] 0 : Receiver (id : String → String)).process sampleNode.nodeIdentity anonymousFollow =
      none ∧
    S2cMessage.message.decode (S2cMessage.message.encode bodiless) = some bodiless ∧
    ∃ c, exec S2cClient.step (S2cClient.new id 1) S2cClient.handshakeSent = some c ∧
      (client c).process sampleNode.nodeIdentity bodiless = none := by
  refine ⟨?_, FlushRun.elected_sample, rfl, ?_, _, rfl, rfl⟩
  · exact S2cMessage.message.decode_encode anonymousFollow (by decide)
  · exact S2cMessage.message.decode_encode bodiless (by decide)

end Receiver

end S2c
