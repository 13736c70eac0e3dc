import S2c.Proto.State

namespace S2c

open Wire

structure StateRequest where
  body : Bytes
  type : Int32
  groupId : String
  internal : Bool
  leaderCommand : Bool
  deriving DecidableEq

structure ApplicationResult where
  body : Bytes
  deriving DecidableEq

structure StateRequestResponse where
  body : Option ApplicationResult
  deriving DecidableEq

structure ReplicateRequest where
  batch : Option Batch
  commitIndex : UInt64
  groupId : String
  followerTooFarBehindError : Option Unit
  deriving DecidableEq

structure ReplicateResponse where
  applyIndex : UInt64
  deriving DecidableEq

structure Follow where
  applyIndex : UInt64
  nodeIdentity : Option NodeIdentity
  groupId : String
  deriving DecidableEq

structure Handshake where
  groupId : String
  nodeIdentity : Option NodeIdentity
  deriving DecidableEq

inductive Body where
  | stateRequest (request : StateRequest)
  | stateRequestResponse (response : StateRequestResponse)
  | replicateRequest (request : ReplicateRequest)
  | replicateResponse (response : ReplicateResponse)
  | follow (follow : Follow)
  | followResponse
  | handshake (handshake : Handshake)
  deriving DecidableEq

inductive S2cError where
  | notLeaderError
  | leaderStartingError
  | notFollowerError
  | slowDownError
  | internalError
  | unknownGroupError
  deriving DecidableEq

structure S2cMessage where
  correlationId : String
  body : Option Body
  error : Option S2cError
  deriving DecidableEq

structure S2cMessageEnvelope where
  s2cMessage : S2cMessage
  nodeIdentity : NodeIdentity
  deriving DecidableEq

namespace StateRequest

def toFields (m : StateRequest) : List Field :=
  bytesField 1 m.body ++ int32Field 2 m.type ++ stringField 3 m.groupId ++ boolField 4 m.internal ++
    boolField 5 m.leaderCommand

def mergeField (recurseCount : ℕ) (m : StateRequest) (f : Field) : Option StateRequest :=
  match f.number with
  | 1 => f.value.byteString.map (fun v => { m with body := v })
  | 2 => f.value.int32.map (fun v => { m with type := v })
  | 3 => f.value.string.map (fun v => { m with groupId := v })
  | 4 => f.value.bool.map (fun v => { m with internal := v })
  | 5 => f.value.bool.map (fun v => { m with leaderCommand := v })
  | _ => skipField recurseCount m

theorem valid (m : StateRequest) : ∀ f ∈ m.toFields, f.Valid := by
  simp only [toFields, List.forall_mem_append]
  refine ⟨⟨⟨⟨?_, ?_⟩, ?_⟩, ?_⟩, ?_⟩ <;> apply valid_scalar <;> simp

theorem roundTrip (recurseCount : ℕ) (m : StateRequest) :
    m.toFields.foldlM (mergeField recurseCount) ⟨[], 0, "", false, false⟩ = some m := by
  have hbody : (bytesField 1 m.body).foldlM (mergeField recurseCount) ⟨[], 0, "", false, false⟩ =
      some ⟨m.body, 0, "", false, false⟩ :=
    foldlM_bytesField (mk · 0 "" false false) (by simp [mergeField])
  have htype : (int32Field 2 m.type).foldlM (mergeField recurseCount) ⟨m.body, 0, "", false, false⟩ =
      some ⟨m.body, m.type, "", false, false⟩ :=
    foldlM_int32Field (mk m.body · "" false false) (by simp [mergeField])
  have hgroup : (stringField 3 m.groupId).foldlM (mergeField recurseCount) ⟨m.body, m.type, "", false, false⟩ =
      some ⟨m.body, m.type, m.groupId, false, false⟩ :=
    foldlM_stringField (mk m.body m.type · false false) (by simp [mergeField])
  have hinternal : (boolField 4 m.internal).foldlM (mergeField recurseCount) ⟨m.body, m.type, m.groupId, false, false⟩ =
      some ⟨m.body, m.type, m.groupId, m.internal, false⟩ :=
    foldlM_boolField (mk m.body m.type m.groupId · false) (by simp [mergeField])
  have hcommand : (boolField 5 m.leaderCommand).foldlM (mergeField recurseCount)
      ⟨m.body, m.type, m.groupId, m.internal, false⟩ = some m :=
    foldlM_boolField (mk m.body m.type m.groupId m.internal ·) (by simp [mergeField])
  simp [toFields, List.foldlM_append, hbody, htype, hgroup, hinternal, hcommand]

def message : Message StateRequest :=
  ⟨⟨[], 0, "", false, false⟩, 0, toFields, mergeField, Nat.zero_le recursionLimit, valid, fun c m _ _ => roundTrip c m⟩

end StateRequest

end S2c
