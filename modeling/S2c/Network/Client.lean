import S2c.Network.Inflight

namespace S2c

open Machine

inductive ClientState where
  | notConnected
  | connected
  | ready
  | closed
  deriving DecidableEq

def ClientState.running : ClientState → Bool
  | .ready => true
  | .connected => true
  | _ => false

inductive ConnectStage where
  | waiting
  | opening
  | storingConnected
  | spawningIn
  | spawningOut
  | handshaking
  | storingReady
  | returning
  | storingNotConnected (err : ClientError)
  | cancelling (err : ClientError)
  | draining (err : ClientError)

inductive CloseStage where
  | storing
  | cancelling
  | draining
  deriving DecidableEq

/-- Who holds the lock for writing. Readers take and leave it within one step. -/
inductive RwLock (κ : Type) where
  | free
  | connect (serverNodeId : NodeIdentity) (k : κ) (stage : ConnectStage)
  | close (stage : CloseStage)

inductive DrainIn where
  | ended
  | unspawned
  | spawned
  | checking
  | reading
  | handling (message : S2cMessage)
  | responding (message : S2cMessage)
  | failing (err : NetworkError)
  | cancelling
  | storing
  deriving DecidableEq

inductive DrainOut (κ : Type) where
  | ended
  | unspawned
  | spawned
  | checking
  | throttling
  | sleeping
  | receiving
  | handling (k : κ)
  | writing (k : κ)
  | storing
  deriving DecidableEq

/-- Requests go by `k`, their correlation ids by `ident k`; `connection` is the address the last
connection was opened to. -/
structure S2cClient {κ : Type} (ident : κ → String) where
  clientState : ClientState
  rwLock : RwLock κ
  trackerClosed : Bool
  cancellationToken : Bool
  throttle : Bool
  calls : Calls ident
  admitted : κ → Bool
  connection : Option String
  drainIn : DrainIn
  drainOut : DrainOut κ

inductive ConnectEvent where
  | waited
  | opened (outcome : Except ClientError Unit)
  | connectedStored
  | spawnedIn
  | spawnedOut
  | handshaken
  | readyStored
  | returned
  | notConnectedStored
  | cancelled
  | drained

inductive CloseEvent where
  | closedStored
  | cancelled
  | drained
  deriving DecidableEq

inductive DrainInEvent where
  | started
  | checked
  | read (re : Except NetworkError S2cMessage)
  | handled
  | responded
  | failedAll
  | cancelled
  | notConnectedStored
  | dropped

inductive DrainOutEvent where
  | started
  | checked
  | throttleLoaded
  | slept
  | received
  | handled
  | written (ok : Bool)
  | notConnectedStored
  | dropped
  deriving DecidableEq

inductive ClientEvent (κ : Type) where
  | connect (serverNodeId : NodeIdentity) (k : κ)
  | connecting (e : ConnectEvent)
  | send (k : κ)
  | call (k : κ) (step : CallStep)
  | close
  | closing (e : CloseEvent)
  | drainIn (e : DrainInEvent)
  | drainOut (e : DrainOutEvent)

inductive Connecting where
  | at (stage : ConnectStage)
  | returned (re : Except ClientError Unit)
  | panicked

def NodeIdentity.addr (n : NodeIdentity) : String := n.address ++ ":" ++ toString n.port.toInt

namespace S2cClient

variable {κ : Type} {ident : κ → String}

def new (ident : κ → String) (maxPendingReqs : ℕ) : S2cClient ident where
  clientState := .notConnected
  rwLock := .free
  trackerClosed := false
  cancellationToken := false
  throttle := false
  calls := Calls.new ident maxPendingReqs
  admitted _ := false
  connection := none
  drainIn := .ended
  drainOut := .ended

def Drained (c : S2cClient ident) : Prop := c.drainIn = .ended ∧ c.drainOut = .ended

def send (c : S2cClient ident) : Except ClientError Unit :=
  match c.clientState with
  | .closed => .error .closed
  | .notConnected => .error .notConnected
  | _ => .ok ()

variable [DecidableEq κ]

instance (c : S2cClient ident) : Decidable c.Drained :=
  inferInstanceAs (Decidable (c.drainIn = .ended ∧ c.drainOut = .ended))

def connect (c : S2cClient ident) : S2cClient ident × Connecting :=
  if c.clientState = .notConnected then
    if c.trackerClosed then ({ c with trackerClosed := false }, .at .opening)
    else ({ c with trackerClosed := true }, .at .waiting)
  else (c, .returned (.ok ()))

def connecting (c : S2cClient ident) (n : NodeIdentity) (k : κ) (stage : ConnectStage) (e : ConnectEvent) :
    Option (S2cClient ident × Connecting) :=
  match e, stage with
  | .waited, .waiting => if c.Drained then some ({ c with trackerClosed := false }, .at .opening) else none
  | .opened (.error err), .opening => some (c, .returned (.error err))
  | .opened (.ok _), .opening => some ({ c with connection := some n.addr }, .at .storingConnected)
  | .connectedStored, .storingConnected =>
    some ({ c with clientState := .connected, drainIn := .unspawned, drainOut := .unspawned }, .at .spawningIn)
  | .spawnedIn, .spawningIn => some ({ c with drainIn := .spawned }, .at .spawningOut)
  | .spawnedOut, .spawningOut =>
    some ({ c with drainOut := .spawned, admitted := Function.update c.admitted k true }, .at .handshaking)
  | .handshaken, .handshaking =>
    match c.calls.stages k with
    | .returned (.ok response) =>
      match response.body with
      | some (.handshake _) => some (c, .at .storingReady)
      | _ => some (c, .panicked)
    | .returned (.error err) => some (c, .at (.storingNotConnected err))
    | _ => none
  | .readyStored, .storingReady => some ({ c with clientState := .ready }, .at .returning)
  | .returned, .returning => some (c, .returned (.ok ()))
  | .notConnectedStored, .storingNotConnected err =>
    if c.trackerClosed then some ({ c with clientState := .notConnected }, .returned (.error err))
    else some ({ c with clientState := .notConnected, trackerClosed := true }, .at (.cancelling err))
  | .cancelled, .cancelling err => some ({ c with cancellationToken := true }, .at (.draining err))
  | .drained, .draining err => if c.Drained then some (c, .returned (.error err)) else none
  | _, _ => none

def closing (c : S2cClient ident) (stage : CloseStage) (e : CloseEvent) : Option (S2cClient ident) :=
  match e, stage with
  | .closedStored, .storing =>
    if c.trackerClosed then some { c with clientState := .closed, rwLock := .free }
    else some { c with clientState := .closed, trackerClosed := true, rwLock := .close .cancelling }
  | .cancelled, .cancelling => some { c with cancellationToken := true, rwLock := .close .draining }
  | .drained, .draining => if c.Drained then some { c with rwLock := .free } else none
  | _, _ => none

def inDrain (c : S2cClient ident) (e : DrainInEvent) : Option (S2cClient ident) :=
  match e, c.drainIn with
  | .started, .spawned => if c.cancellationToken then none else some { c with drainIn := .checking }
  | .checked, .checking => some { c with drainIn := if c.clientState.running then .reading else .ended }
  | .read (.ok message), .reading => some { c with drainIn := .handling message }
  | .read (.error err), .reading => some { c with drainIn := .failing err }
  | .handled, .handling message =>
    if c.clientState.running then
      match message.error with
      | some .slowDownError => some { c with throttle := true, drainIn := .checking }
      | some _ => some { c with drainIn := .checking }
      | none => some { c with drainIn := .responding message }
    else some { c with drainIn := .ended }
  | .responded, .responding message =>
    (c.calls.step (.respond message)).map (fun calls => { c with calls := calls, drainIn := .checking })
  | .failedAll, .failing err =>
    (c.calls.step (.failAll (.io err))).map (fun calls => { c with calls := calls, drainIn := .cancelling })
  | .cancelled, .cancelling => some { c with cancellationToken := true, drainIn := .storing }
  | .notConnectedStored, .storing => some { c with clientState := .notConnected, drainIn := .ended }
  | .dropped, .spawned => if c.cancellationToken then some { c with drainIn := .ended } else none
  | .dropped, .reading => if c.cancellationToken then some { c with drainIn := .ended } else none
  | .dropped, .responding _ => if c.cancellationToken then some { c with drainIn := .ended } else none
  | .dropped, .failing _ => if c.cancellationToken then some { c with drainIn := .ended } else none
  | _, _ => none

def outDrain (c : S2cClient ident) (e : DrainOutEvent) : Option (S2cClient ident) :=
  match e, c.drainOut with
  | .started, .spawned => if c.cancellationToken then none else some { c with drainOut := .checking }
  | .checked, .checking => some { c with drainOut := if c.clientState.running then .throttling else .ended }
  | .throttleLoaded, .throttling => some { c with drainOut := if c.throttle then .sleeping else .receiving }
  | .slept, .sleeping => some { c with throttle := false, drainOut := .receiving }
  | .received, .receiving =>
    match c.calls.queue with
    | [] => none
    | k :: _ => (c.calls.step .taken).map (fun calls => { c with calls := calls, drainOut := .handling k })
  | .handled, .handling k => some { c with drainOut := if c.clientState.running then .writing k else .ended }
  | .written true, .writing _ => some { c with drainOut := .checking }
  | .written false, .writing _ => some { c with drainOut := .storing }
  -- "Writer dropped, reader clears up"
  | .notConnectedStored, .storing => some { c with clientState := .notConnected, drainOut := .ended }
  | .dropped, .spawned => if c.cancellationToken then some { c with drainOut := .ended } else none
  | .dropped, .sleeping => if c.cancellationToken then some { c with drainOut := .ended } else none
  | .dropped, .receiving => if c.cancellationToken then some { c with drainOut := .ended } else none
  | .dropped, .writing _ => if c.cancellationToken then some { c with drainOut := .ended } else none
  | _, _ => none

def locked (n : NodeIdentity) (k : κ) (re : S2cClient ident × Connecting) : S2cClient ident :=
  match re.2 with
  | .at stage => { re.1 with rwLock := .connect n k stage }
  | .returned _ => { re.1 with rwLock := .free }
  | .panicked => { re.1 with rwLock := .free }

/-- A correlation id is used for one request only, the handshake's `k` among them. -/
def step (c : S2cClient ident) : ClientEvent κ → Option (S2cClient ident)
  | .connect n k =>
    match c.rwLock with
    | .free => if c.admitted k then none else some (locked n k c.connect)
    | _ => none
  | .connecting e =>
    match c.rwLock with
    | .connect n k stage => (c.connecting n k stage e).map (locked n k)
    | _ => none
  | .send k =>
    match c.rwLock with
    | .free =>
      if c.admitted k then none
      else
        match c.send with
        | .ok _ => some { c with admitted := Function.update c.admitted k true }
        | .error _ => some c
    | _ => none
  | .call k step =>
    if c.admitted k then (c.calls.step (.call k step)).map (fun calls => { c with calls := calls }) else none
  | .close =>
    match c.rwLock with
    | .free => if c.clientState = .closed then some c else some { c with rwLock := .close .storing }
    | _ => none
  | .closing e =>
    match c.rwLock with
    | .close stage => c.closing stage e
    | _ => none
  | .drainIn e => c.inDrain e
  | .drainOut e => c.outDrain e

end S2cClient

end S2c
