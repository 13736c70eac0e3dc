import S2c.GroupServer.Tasks
import S2c.Network.MessageRw
import S2c.Network.Reconnect

namespace S2c

open Machine Wire

inductive Request where
  | handshake
  | other (payload : Bytes)

structure Peers (κ : Type) where
  decode : Bytes → Except String S2cMessage
  clientMaxMessageSize : UInt32
  serverMaxMessageSize : UInt32
  handshake : Handshake
  request : κ → Request

inductive HandlerStage where
  | reading
  | replying (message : S2cMessage) (handshake : Handshake)
  | lookingUp (handshake : Handshake)
  | ended

/-- Both ends of a connection. What a writer's socket holds is on its way to the other end. -/
structure Connection where
  clientReader : S2CMessageReaderImpl
  clientWriter : BufWriter
  handler : HandlerStage
  serverReader : S2CMessageReaderImpl
  serverWriter : BufWriter

inductive HandlerEvent where
  | read
  | replied (kept : ℕ)
  | lookedUp
  | failed

abbrev GroupServers := String → Option GroupServer

structure Session {κ : Type} (ident : κ → String) where
  client : S2cClient ident
  connections : List Connection
  groupServers : GroupServers

inductive SessionEvent (κ : Type) where
  | client (e : ClientEvent κ)
  | clientRead
  | clientWritten (kept : ℕ)
  | handler (i : ℕ) (e : HandlerEvent)
  | group (groupId : String) (e : GroupEvent)

/-- An `async fn` that is called but not awaited: its future is dropped before it has run. -/
def unawaited {σ : Type} (_future : σ → σ) (s : σ) : σ := s

def lookUp (groupServers : GroupServers) (handshake : Handshake) : GroupServers :=
  match groupServers handshake.groupId with
  | some groupServer =>
    match handshake.nodeIdentity with
    | some nodeIdentity =>
      Function.update groupServers handshake.groupId
        (some (unawaited (fun g => g.handleClient nodeIdentity) groupServer))
    -- "Invalid handshake missing NodeIdentity"
    | none => groupServers
  -- "Invalid handshake with unknown group"
  | none => groupServers

namespace Peers

variable {κ : Type} {ident : κ → String}

def handshakeMessage (p : Peers κ) (correlationId : String) : S2cMessage :=
  ⟨correlationId, some (.handshake p.handshake), none⟩

def payload (p : Peers κ) (ident : κ → String) (k : κ) : Bytes :=
  match p.request k with
  | .handshake => S2cMessage.message.encode (p.handshakeMessage (ident k))
  | .other payload => payload

def opened (p : Peers κ) : Connection where
  clientReader := .new p.clientMaxMessageSize
  clientWriter := .new
  handler := .reading
  serverReader := .new p.serverMaxMessageSize
  serverWriter := .new

def handleClient (p : Peers κ) (groupServers : GroupServers) (c : Connection) (e : HandlerEvent) :
    Option (Connection × GroupServers) :=
  match e, c.handler with
  | .read, .reading =>
    (c.serverReader.readNextMessage p.decode ⟨c.clientWriter.socket, false⟩).map (fun (re, serverReader, reader) =>
      let c := { c with serverReader := serverReader, clientWriter := ⟨reader.unread, c.clientWriter.buf⟩ }
      match re with
      | .ok message =>
        match message.body with
        | some (.handshake handshake) => ({ c with handler := .replying message handshake }, groupServers)
        | _ => (c, groupServers)
      | .error _ => ({ c with handler := .ended }, groupServers))
  | .replied kept, .replying message handshake =>
    some ({ c with
      handler := .lookingUp handshake
      serverWriter := (writeBytes c.serverWriter (S2cMessage.message.encode message) kept).flush }, groupServers)
  | .lookedUp, .lookingUp handshake => some ({ c with handler := .ended }, lookUp groupServers handshake)
  | .failed, _ => some ({ c with handler := .ended }, groupServers)
  | _, _ => none

variable [DecidableEq κ]

def free (p : Peers κ) : ClientEvent κ → Bool
  | .connect _ k => match p.request k with | .handshake => true | .other _ => false
  | .send k => match p.request k with | .handshake => false | .other _ => true
  | .connecting (.opened (.ok _)) => false
  | .drainIn (.read (.ok _)) => false
  | .drainOut (.written true) => false
  | _ => true

def step (p : Peers κ) (s : Session ident) : SessionEvent κ → Option (Session ident)
  | .client e =>
    if p.free e then (s.client.step e).map (fun client => { s with client := client })
    else
      match e with
      | .connecting (.opened (.ok _)) =>
        (s.client.step e).map (fun client => { s with client := client, connections := p.opened :: s.connections })
      | _ => none
  | .clientRead =>
    match s.connections with
    | [] => none
    | c :: connections =>
      (c.clientReader.readNextMessage p.decode ⟨c.serverWriter.socket, false⟩).bind
        (fun (re, clientReader, reader) =>
          (s.client.step (.drainIn (.read re))).map (fun client =>
            { s with
              client := client
              connections :=
                { c with clientReader := clientReader, serverWriter := ⟨reader.unread, c.serverWriter.buf⟩ } ::
                  connections }))
  | .clientWritten kept =>
    match s.connections, s.client.drainOut with
    | c :: connections, .writing k =>
      (s.client.step (.drainOut (.written true))).map (fun client =>
        { s with
          client := client
          connections :=
            { c with clientWriter := writeBytes c.clientWriter (p.payload ident k) kept } :: connections })
    | _, _ => none
  | .handler i e =>
    s.connections[i]?.bind (fun c =>
      (p.handleClient s.groupServers c e).map (fun (c, groupServers) =>
        { s with connections := s.connections.set i c, groupServers := groupServers }))
  | .group groupId e =>
    match e with
    | .handleClient _ => none
    | e =>
      (s.groupServers groupId).bind (fun g =>
        (g.step e).map (fun g =>
          { s with groupServers := Function.update s.groupServers groupId (some g) }))

def start (ident : κ → String) (maxPendingReqs : ℕ) (groupServers : GroupServers) : Session ident :=
  ⟨.new ident maxPendingReqs, [], groupServers⟩

def handlers (s : Session ident) : List HandlerStage := s.connections.reverse.map Connection.handler

def Registered (p : Peers κ) (before after : GroupServers) : Prop :=
  ∃ g g' n, before p.handshake.groupId = some g ∧ after p.handshake.groupId = some g' ∧
    p.handshake.nodeIdentity = some n ∧ g.clientsIns n = false ∧ g'.clientsIns n = true ∧
    (g'.readLoops n).isSome = true ∧ (g'.writeLoops n).isSome = true

def SameClients (before after : GroupServers) : Prop :=
  ∀ groupId, (after groupId).map GroupServer.clientsIns = (before groupId).map GroupServer.clientsIns

theorem lookUp_eq (groupServers : GroupServers) (handshake : Handshake) :
    lookUp groupServers handshake = groupServers := by
  unfold lookUp
  split
  · rename_i g hg
    split
    · rw [unawaited, ← hg, Function.update_eq_self]
    · rfl
  · rfl

omit [DecidableEq κ] in
theorem handleClient_groupServers {p : Peers κ} {groupServers groupServers' : GroupServers} {c c' : Connection}
    {e : HandlerEvent} (h : p.handleClient groupServers c e = some (c', groupServers')) :
    groupServers' = groupServers := by
  unfold handleClient at h
  split at h
  · obtain ⟨⟨re, serverReader, reader⟩, _, hread⟩ := Option.map_eq_some_iff.mp h
    dsimp only at hread
    split at hread
    · split at hread
      · cases hread
        rfl
      · cases hread
        rfl
    · cases hread
      rfl
  · cases h
    rfl
  · cases h
    apply lookUp_eq
  · cases h
    rfl
  · cases h

variable {p : Peers κ} {s t u : Session ident}

theorem sameClients_step {e : SessionEvent κ} (h : p.step s e = some t) :
    SameClients s.groupServers t.groupServers := by
  cases e with
  | client e =>
    simp only [step] at h
    split_ifs at h
    · obtain ⟨client, _, rfl⟩ := Option.map_eq_some_iff.mp h
      exact fun _ => rfl
    · split at h
      · obtain ⟨client, _, rfl⟩ := Option.map_eq_some_iff.mp h
        exact fun _ => rfl
      · cases h
  | clientRead =>
    simp only [step] at h
    split at h
    · cases h
    · obtain ⟨⟨re, clientReader, reader⟩, _, hread⟩ := Option.bind_eq_some_iff.mp h
      obtain ⟨client, _, rfl⟩ := Option.map_eq_some_iff.mp hread
      exact fun _ => rfl
  | clientWritten kept =>
    simp only [step] at h
    split at h
    · obtain ⟨client, _, rfl⟩ := Option.map_eq_some_iff.mp h
      exact fun _ => rfl
    · cases h
  | handler i e =>
    simp only [step] at h
    obtain ⟨c, _, hc⟩ := Option.bind_eq_some_iff.mp h
    obtain ⟨⟨c', groupServers⟩, hhandle, rfl⟩ := Option.map_eq_some_iff.mp hc
    rw [handleClient_groupServers hhandle]
    exact fun _ => rfl
  | group groupId e =>
    simp only [step] at h
    split at h
    · cases h
    · rename_i hother
      obtain ⟨g, hg, hstep⟩ := Option.bind_eq_some_iff.mp h
      obtain ⟨g', hg', rfl⟩ := Option.map_eq_some_iff.mp hstep
      intro other
      by_cases hsame : other = groupId
      · subst hsame
        simp [hg, GroupServer.clientsIns_step hg' hother]
      · simp [hsame]

theorem unregistered {maxPendingReqs : ℕ} {groupServers : GroupServers}
    (hreach : Reachable p.step (start ident maxPendingReqs groupServers) s) :
    ¬p.Registered groupServers s.groupServers := by
  have hsame : SameClients groupServers s.groupServers := by
    refine invariant (I := fun s => SameClients groupServers s.groupServers) ?_ (fun _ => rfl) hreach
    intro s e t hs hstep groupId
    rw [sameClients_step hstep groupId, hs groupId]
  rintro ⟨g, g', n, hg, hg', _, hbefore, hafter, _, _⟩
  have hclients := hsame p.handshake.groupId
  rw [hg, hg', Option.map_some, Option.map_some, Option.some_inj] at hclients
  rw [hclients, hbefore] at hafter
  cases hafter

theorem exec_client {es : List (ClientEvent κ)} {client : S2cClient ident} (hfree : es.all p.free = true)
    (h : exec S2cClient.step s.client es = some client) :
    exec p.step s (es.map .client) = some { s with client := client } := by
  let within (client : S2cClient ident) : Session ident := { s with client := client }
  have hstep : ∀ client, ∀ e ∈ es, p.step (within client) (.client e) = (client.step e).map within := by
    intro client e he
    unfold step
    exact if_pos (List.all_eq_true.mp hfree e he)
  have hexec := exec_map (s := s.client) within SessionEvent.client hstep
  rwa [h, Option.map_some] at hexec

def Connects (p : Peers κ) (maxPendingReqs : ℕ) (groupServers : GroupServers) (t : Session ident) : Prop :=
  ∃ s e n, Reachable p.step (start ident maxPendingReqs groupServers) s ∧
    s.client.connectReturns e = some (n, .ok ()) ∧ p.step s (.client e) = some t

theorem handshake_unregistered {maxPendingReqs : ℕ} {groupServers : GroupServers}
    (hconnects : p.Connects maxPendingReqs groupServers t) :
    ∀ u, Reachable p.step t u → (handlers u)[t.connections.length - 1]? = some .ended →
      ¬p.Registered groupServers u.groupServers := by
  obtain ⟨s, e, n, hreach, _, hstep⟩ := hconnects
  intro u hrun _
  have hnext : Reachable p.step s t := ⟨[.client e], by rw [exec_cons, hstep]; rfl⟩
  exact unregistered ((hreach.trans hnext).trans hrun)

def peers (handshake : Handshake) : Peers String where
  decode := decodeMessage (fun _ => "failed to decode Protobuf message")
  clientMaxMessageSize := 512000
  serverMaxMessageSize := 512000
  handshake := handshake
  request _ := .handshake

def called : List (ClientEvent String) := [.connect S2cClient.server "h", .connecting .waited]

def asked : List (ClientEvent String) :=
  [.connecting .connectedStored, .connecting .spawnedIn, .connecting .spawnedOut, .call "h" .added, .call "h" .queued,
    .drainIn .started, .drainIn .checked, .drainOut .started, .drainOut .checked, .drainOut .throttleLoaded,
    .drainOut .received, .drainOut .handled]

def served : List (SessionEvent κ) :=
  [.clientWritten 0, .handler 0 .read, .handler 0 (.replied 0), .handler 0 .lookedUp, .clientRead]

def answered : List (ClientEvent String) :=
  [.drainIn .handled, .drainIn .responded, .call "h" .received, .connecting .handshaken, .connecting .readyStored]

def handshaken : List (SessionEvent String) :=
  called.map .client ++ ([.client (.connecting (.opened (.ok ())))] ++ (asked.map .client ++
    (served ++ answered.map .client)))

omit [DecidableEq κ] in
theorem handleClient_served (groupServers : GroupServers) {c : Connection} {message : S2cMessage}
    {handshake : Handshake} (hreading : c.handler = .reading)
    (hsocket : c.clientWriter.socket = frame (S2cMessage.message.encode message)) (hnew : c.serverWriter = .new)
    (hmessage : message.body = some (.handshake handshake))
    (hlen : (S2cMessage.message.encode message).length < 2 ^ 32)
    (hserver : S2CMessageReaderImpl.reading p.decode c.serverReader.maxMessageSize
      (S2cMessage.message.encode message) = .ok message) :
    ∃ c₁ c₂ c₃, p.handleClient groupServers c .read = some (c₁, groupServers) ∧
      p.handleClient groupServers c₁ (.replied 0) = some (c₂, groupServers) ∧
      p.handleClient groupServers c₂ .lookedUp = some (c₃, groupServers) ∧ c₃.handler = .ended ∧
      c₃.serverWriter.socket = frame (S2cMessage.message.encode message) ∧ c₃.clientReader = c.clientReader := by
  obtain ⟨serverReader, hread, _⟩ :=
    S2CMessageReaderImpl.readNextMessage_frame p.decode c.serverReader hlen [] false
  rw [List.append_nil, ← hsocket, hserver] at hread
  let replied : BufWriter := (writeBytes c.serverWriter (S2cMessage.message.encode message) 0).flush
  have hreceive : p.handleClient groupServers c .read = some
      (⟨c.clientReader, ⟨[], c.clientWriter.buf⟩, .replying message handshake, serverReader, c.serverWriter⟩,
        groupServers) := by
    simp [handleClient, hreading, hread, hmessage]
  have hlookUp : p.handleClient groupServers
      ⟨c.clientReader, ⟨[], c.clientWriter.buf⟩, .lookingUp handshake, serverReader, replied⟩ .lookedUp = some
      (⟨c.clientReader, ⟨[], c.clientWriter.buf⟩, .ended, serverReader, replied⟩, groupServers) := by
    simp [handleClient, lookUp_eq]
  have hsocket : replied.socket = frame (S2cMessage.message.encode message) := by
    simp only [replied, BufWriter.socket_flush, written_writeBytes, hnew]
    rfl
  exact ⟨_, _, _, hreceive, rfl, hlookUp, rfl, hsocket, rfl⟩

theorem step_handler {client : S2cClient ident} {c c' : Connection} {groupServers : GroupServers} {e : HandlerEvent}
    (h : p.handleClient groupServers c e = some (c', groupServers)) :
    p.step ⟨client, [c], groupServers⟩ (.handler 0 e) = some ⟨client, [c'], groupServers⟩ := by
  simp [step, h]

theorem exec_served {k : κ} {message : S2cMessage} {written read : S2cClient ident}
    (hopened : s.connections = [p.opened]) (hwriting : s.client.drainOut = .writing k)
    (hmessage : message.body = some (.handshake p.handshake))
    (hpayload : p.payload ident k = S2cMessage.message.encode message)
    (hlarge : BufWriter.capacity ≤ (S2cMessage.message.encode message).length)
    (hlen : (S2cMessage.message.encode message).length < 2 ^ 32)
    (hserver : S2CMessageReaderImpl.reading p.decode p.serverMaxMessageSize (S2cMessage.message.encode message) =
      .ok message)
    (hclient : S2CMessageReaderImpl.reading p.decode p.clientMaxMessageSize (S2cMessage.message.encode message) =
      .ok message)
    (hwritten : s.client.step (.drainOut (.written true)) = some written)
    (hread : written.step (.drainIn (.read (.ok message))) = some read) :
    ∃ c, exec p.step s served = some ⟨read, [c], s.groupServers⟩ ∧ c.handler = .ended := by
  obtain ⟨client, connections, groupServers⟩ := s
  dsimp only at hopened hwriting hwritten
  subst hopened
  have hwrite : p.step ⟨client, [p.opened], groupServers⟩ (.clientWritten 0) =
      some ⟨written, [{ p.opened with
        clientWriter := ⟨frame (S2cMessage.message.encode message), []⟩ }], groupServers⟩ := by
    simp only [step, hwriting, hwritten, hpayload, Option.map_some]
    rw [opened, writeBytes_large _ hlarge]
    rfl
  obtain ⟨c₁, c₂, c₃, hreceive, hreply, hlookUp, hended, hsocket, hreader⟩ :=
    handleClient_served (p := p) groupServers
      (c := { p.opened with clientWriter := ⟨frame (S2cMessage.message.encode message), []⟩ })
      rfl rfl rfl hmessage hlen hserver
  obtain ⟨clientReader, hreturn, _⟩ := S2CMessageReaderImpl.readNextMessage_frame p.decode
    (.new p.clientMaxMessageSize) hlen [] false
  have hback : p.step ⟨written, [c₃], groupServers⟩ .clientRead = some ⟨read, [{ c₃ with
      clientReader := clientReader, serverWriter := ⟨[], c₃.serverWriter.buf⟩ }], groupServers⟩ := by
    rw [List.append_nil, ← hsocket] at hreturn
    have hnew : c₃.clientReader = .new p.clientMaxMessageSize := hreader
    have hmax : S2CMessageReaderImpl.reading p.decode (S2CMessageReaderImpl.new p.clientMaxMessageSize).maxMessageSize
        (S2cMessage.message.encode message) = .ok message := hclient
    simp [step, hnew, hreturn, hmax, hread]
  refine ⟨{ c₃ with clientReader := clientReader, serverWriter := ⟨[], c₃.serverWriter.buf⟩ }, ?_, hended⟩
  rw [served, exec_cons, hwrite, Option.bind_some, exec_cons, step_handler hreceive, Option.bind_some, exec_cons,
    step_handler hreply, Option.bind_some, exec_cons, step_handler hlookUp, Option.bind_some, exec_cons, hback]
  rfl

theorem exec_handshaken {handshake : Handshake} (groupServers : GroupServers)
    (hlarge : BufWriter.capacity ≤ (S2cMessage.message.encode ((peers handshake).handshakeMessage "h")).length)
    (hmax : (S2cMessage.message.encode ((peers handshake).handshakeMessage "h")).length ≤ 512000) :
    ∃ s t : Session id, exec (peers handshake).step (start id 1 groupServers) handshaken = some s ∧
      s.client.connectReturns (.connecting .returned) = some (S2cClient.server, .ok ()) ∧
      (peers handshake).step s (.client (.connecting .returned)) = some t ∧
      t.connections.length = 1 ∧ handlers t = [.ended] ∧ t.groupServers = groupServers := by
  obtain ⟨waited, opened, queued, written, read, done, ready, hcalled, hopened, hasked, hwriting, hwritten, hread,
      hanswered, hreturns, hready⟩ :
      ∃ waited opened queued written read done ready : S2cClient id,
        exec S2cClient.step (.new id 1) called = some waited ∧
        waited.step (.connecting (.opened (.ok ()))) = some opened ∧
        exec S2cClient.step opened asked = some queued ∧ queued.drainOut = .writing "h" ∧
        queued.step (.drainOut (.written true)) = some written ∧
        written.step (.drainIn (.read (.ok ((peers handshake).handshakeMessage "h")))) = some read ∧
        exec S2cClient.step read answered = some done ∧
        done.connectReturns (.connecting .returned) = some (S2cClient.server, .ok ()) ∧
        done.step (.connecting .returned) = some ready :=
    ⟨_, _, _, _, _, _, _, rfl, rfl, rfl, rfl, rfl, rfl, rfl, rfl, rfl⟩
  have hreading : S2CMessageReaderImpl.reading (peers handshake).decode 512000
      (S2cMessage.message.encode ((peers handshake).handshakeMessage "h")) =
      .ok ((peers handshake).handshakeMessage "h") := S2CMessageReaderImpl.reading_encode _ _ hmax
  have hcall : exec (peers handshake).step (start id 1 groupServers) (called.map .client) =
      some ⟨waited, [], groupServers⟩ := exec_client rfl hcalled
  have hopen : (peers handshake).step ⟨waited, [], groupServers⟩ (.client (.connecting (.opened (.ok ())))) =
      some ⟨opened, [(peers handshake).opened], groupServers⟩ := by
    simp [step, free, hopened]
  have hask : exec (peers handshake).step ⟨opened, [(peers handshake).opened], groupServers⟩ (asked.map .client) =
      some ⟨queued, [(peers handshake).opened], groupServers⟩ := exec_client rfl hasked
  have hlen : (S2cMessage.message.encode ((peers handshake).handshakeMessage "h")).length < 2 ^ 32 := by omega
  obtain ⟨c, hserve, hended⟩ := exec_served (p := peers handshake) (k := "h")
    (s := ⟨queued, [(peers handshake).opened], groupServers⟩) rfl hwriting rfl rfl hlarge hlen hreading hreading
    hwritten hread
  have hanswer : exec (peers handshake).step ⟨read, [c], groupServers⟩ (answered.map .client) =
      some ⟨done, [c], groupServers⟩ := exec_client rfl hanswered
  refine ⟨⟨done, [c], groupServers⟩, ⟨ready, [c], groupServers⟩, ?_, hreturns, ?_, rfl, ?_, rfl⟩
  · rw [handshaken, exec_append, hcall, Option.bind_some, List.singleton_append, exec_cons, hopen, Option.bind_some,
      exec_append, hask, Option.bind_some, exec_append, hserve]
    exact hanswer
  · simp [step, free, hready]
  · simp [handlers, hended]

def longId (n : ℕ) : String := String.ofList (List.replicate n 'a')

theorem length_longId (n : ℕ) : (utf8 (longId n)).length = n := by
  have hchar : 'a'.utf8Size = 1 := by decide
  simp [utf8, longId, List.utf8Encode, hchar]

def longHandshake (n : ℕ) : Handshake := ⟨longId n, some ⟨"n2", "h2", 1, "a"⟩⟩

theorem length_encode_longHandshake {n : ℕ} (hn : 0 < n) :
    n ≤ (Handshake.message.encode (longHandshake n)).length ∧
      (Handshake.message.encode (longHandshake n)).length ≤ n + 35 := by
  have hne : (longId n == "") = false := by
    rw [beq_eq_false_iff_ne]
    intro hempty
    have hlen := length_longId n
    rw [hempty] at hlen
    exact Nat.ne_of_lt hn hlen
  have hencode : Handshake.message.encode (longHandshake n) = serialize (⟨1, .bytes (utf8 (longId n))⟩ ::
      messageField NodeIdentity.message 2 (longHandshake n).nodeIdentity) := by
    simp [Message.encode, Handshake.message, Handshake.toFields, longHandshake, stringField, scalar, hne]
  have hidentity : (serialize (messageField NodeIdentity.message 2 (longHandshake n).nodeIdentity)).length = 15 := rfl
  have hgroup := Field.length_le (f := ⟨1, .bytes (utf8 (longId n))⟩) rfl
  have hgroupLe := Field.serialize_le 1 (utf8 (longId n))
  rw [length_longId] at hgroup hgroupLe
  rw [hencode, length_serialize_cons, hidentity]
  omega

theorem length_longHandshake {n : ℕ} (hn : 0 < n) :
    n ≤ (S2cMessage.message.encode ((peers (longHandshake n)).handshakeMessage "h")).length ∧
      (S2cMessage.message.encode ((peers (longHandshake n)).handshakeMessage "h")).length ≤ n + 76 := by
  have hmessage : S2cMessage.message.encode ((peers (longHandshake n)).handshakeMessage "h") =
      serialize [⟨1, .bytes (utf8 "h")⟩, ⟨8, .bytes (Handshake.message.encode (longHandshake n))⟩] := rfl
  have hbody := Field.length_le (f := ⟨8, .bytes (Handshake.message.encode (longHandshake n))⟩) rfl
  have hbodyLe := Field.serialize_le 8 (Handshake.message.encode (longHandshake n))
  have hidLe : (Field.serialize ⟨1, .bytes (utf8 "h")⟩).length ≤ 21 := Field.serialize_le 1 (utf8 "h")
  have hnil : (serialize []).length = 0 := rfl
  have hlen := length_encode_longHandshake hn
  rw [hmessage, length_serialize_cons, length_serialize_cons, hnil]
  omega

def oneGroup (groupId : String) : GroupServers := fun g => if g = groupId then some .started else none

theorem handshake_unregistered_sample : ∃ t : Session id,
    (peers (longHandshake BufWriter.capacity)).Connects 1 (oneGroup (longId BufWriter.capacity)) t ∧
    (handlers t)[t.connections.length - 1]? = some .ended ∧
    ¬(peers (longHandshake BufWriter.capacity)).Registered (oneGroup (longId BufWriter.capacity)) t.groupServers := by
  obtain ⟨hlarge, hmax⟩ := length_longHandshake (n := BufWriter.capacity) (by decide)
  obtain ⟨s, t, hs, hreturns, ht, hlen, hended, hgroups⟩ := exec_handshaken
    (oneGroup (longId BufWriter.capacity)) hlarge (Nat.le_trans hmax (by decide))
  have hconnects : (peers (longHandshake BufWriter.capacity)).Connects 1 (oneGroup (longId BufWriter.capacity)) t :=
    ⟨s, _, _, ⟨_, hs⟩, hreturns, ht⟩
  have hlast : (handlers t)[t.connections.length - 1]? = some .ended := by
    rw [hended, hlen]
    rfl
  exact ⟨t, hconnects, hlast, handshake_unregistered hconnects t (.refl t) hlast⟩

theorem handshake_fails : ∃ s t : Session id,
    exec (peers (longHandshake BufWriter.capacity)).step (start id 1 (oneGroup (longId BufWriter.capacity)))
      handshaken = some s ∧
    s.client.connectReturns (.connecting .returned) = some (S2cClient.server, .ok ()) ∧
    (peers (longHandshake BufWriter.capacity)).step s (.client (.connecting .returned)) = some t ∧
    handlers t = [.ended] ∧ t.groupServers (longId BufWriter.capacity) = some .started ∧
    ¬(peers (longHandshake BufWriter.capacity)).Registered (oneGroup (longId BufWriter.capacity)) t.groupServers := by
  obtain ⟨hlarge, hmax⟩ := length_longHandshake (n := BufWriter.capacity) (by decide)
  obtain ⟨s, t, hs, hreturns, ht, _, hended, hgroups⟩ := exec_handshaken
    (oneGroup (longId BufWriter.capacity)) hlarge (Nat.le_trans hmax (by decide))
  refine ⟨s, t, hs, hreturns, ht, hended, ?_, ?_⟩
  · rw [hgroups]
    exact if_pos rfl
  · rintro ⟨g, g', n, hg, hg', _, hbefore, hafter, _, _⟩
    rw [hgroups, hg] at hg'
    cases hg'
    rw [hbefore] at hafter
    cases hafter

end Peers

end S2c
