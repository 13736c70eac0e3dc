import S2c.Log.Append
import S2c.SyncQueue

namespace S2c

open Wire Loop

inductive FSMState where
  | notJoined
  | follower
  | leader
  | stopped
  deriving DecidableEq

/-- The fields that the machine's own code reads or writes; the client, the server and the channels
appear as the answers they give. -/
structure FSM where
  state : FSMState
  s2cOptions : S2cOptions
  syncQueue : ReplicateQueue
  group : String
  nodeIdentity : NodeIdentity
  s2cLog : S2cLog
  missedHeartbeats : UInt32
  commitIndex : UInt64
  applyIndex : UInt64
  epoch : UInt64
  followers : List NodeIdentity

namespace FSM

def new (group : String) (s2cOptions : S2cOptions) (nodeIdentity : NodeIdentity) (s2cLog : S2cLog) :
    FSM where
  state := .notJoined
  s2cOptions := s2cOptions
  syncQueue := ReplicateQueue.new s2cOptions.maxBatchesPendingForApply.toNat
  group := group
  nodeIdentity := nodeIdentity
  s2cLog := s2cLog
  missedHeartbeats := 0
  commitIndex := 0
  applyIndex := 0
  epoch := 0
  followers := []

end FSM

def sampleLog : S2cLog := ⟨PathEncoding.escape, "g", S2cOptions.default⟩

def sampleNode : FSM := FSM.new "g" S2cOptions.default ⟨"n1", "h1", 1, "a"⟩ sampleLog

end S2c
