import S2c.Wire.Message

namespace S2c

open Wire

structure NodeIdentity where
  id : String
  address : String
  port : Int32
  az : String
  deriving DecidableEq

structure BatchEntry where
  body : Bytes
  internal : Bool
  deriving DecidableEq

structure Batch where
  entries : List BatchEntry
  deriving DecidableEq

structure FollowerInfo where
  nodeIdentity : Option NodeIdentity
  replicatedApplyIndex : UInt64
  deriving DecidableEq

structure LeaderState where
  epoch : UInt64
  commitIndex : UInt64
  nodeIdentity : Option NodeIdentity
  followers : List FollowerInfo
  deriving DecidableEq

structure LogEntry where
  batch : Option Batch
  leaderState : Option LeaderState
  deriving DecidableEq

namespace NodeIdentity

def toFields (m : NodeIdentity) : List Field :=
  stringField 1 m.id ++ stringField 2 m.address ++ int32Field 3 m.port ++ stringField 4 m.az

def mergeField (recurseCount : ℕ) (m : NodeIdentity) (f : Field) : Option NodeIdentity :=
  match f.number with
  | 1 => f.value.string.map (fun v => { m with id := v })
  | 2 => f.value.string.map (fun v => { m with address := v })
  | 3 => f.value.int32.map (fun v => { m with port := v })
  | 4 => f.value.string.map (fun v => { m with az := v })
  | _ => skipField recurseCount m

theorem valid (m : NodeIdentity) : ∀ f ∈ m.toFields, f.Valid := by
  simp only [toFields, List.forall_mem_append]
  refine ⟨⟨⟨?_, ?_⟩, ?_⟩, ?_⟩ <;> apply valid_scalar <;> simp

theorem roundTrip (recurseCount : ℕ) (m : NodeIdentity) :
    m.toFields.foldlM (mergeField recurseCount) ⟨"", "", 0, ""⟩ = some m := by
  have hid : (stringField 1 m.id).foldlM (mergeField recurseCount) ⟨"", "", 0, ""⟩ = some ⟨m.id, "", 0, ""⟩ :=
    foldlM_stringField (mk · "" 0 "") (by simp [mergeField])
  have haddress : (stringField 2 m.address).foldlM (mergeField recurseCount) ⟨m.id, "", 0, ""⟩ =
      some ⟨m.id, m.address, 0, ""⟩ :=
    foldlM_stringField (mk m.id · 0 "") (by simp [mergeField])
  have hport : (int32Field 3 m.port).foldlM (mergeField recurseCount) ⟨m.id, m.address, 0, ""⟩ =
      some ⟨m.id, m.address, m.port, ""⟩ :=
    foldlM_int32Field (mk m.id m.address · "") (by simp [mergeField])
  have haz : (stringField 4 m.az).foldlM (mergeField recurseCount) ⟨m.id, m.address, m.port, ""⟩ = some m :=
    foldlM_stringField (mk m.id m.address m.port ·) (by simp [mergeField])
  simp [toFields, List.foldlM_append, hid, haddress, hport, haz]

def message : Message NodeIdentity :=
  ⟨⟨"", "", 0, ""⟩, 0, toFields, mergeField, Nat.zero_le recursionLimit, valid, fun c m _ _ => roundTrip c m⟩

end NodeIdentity

namespace BatchEntry

def toFields (m : BatchEntry) : List Field := bytesField 1 m.body ++ boolField 2 m.internal

def mergeField (recurseCount : ℕ) (m : BatchEntry) (f : Field) : Option BatchEntry :=
  match f.number with
  | 1 => f.value.byteString.map (fun v => { m with body := v })
  | 2 => f.value.bool.map (fun v => { m with internal := v })
  | _ => skipField recurseCount m

theorem valid (m : BatchEntry) : ∀ f ∈ m.toFields, f.Valid := by
  simp only [toFields, List.forall_mem_append]
  constructor <;> apply valid_scalar <;> simp

theorem roundTrip (recurseCount : ℕ) (m : BatchEntry) :
    m.toFields.foldlM (mergeField recurseCount) ⟨[], false⟩ = some m := by
  have hbody : (bytesField 1 m.body).foldlM (mergeField recurseCount) ⟨[], false⟩ = some ⟨m.body, false⟩ :=
    foldlM_bytesField (mk · false) (by simp [mergeField])
  have hinternal : (boolField 2 m.internal).foldlM (mergeField recurseCount) ⟨m.body, false⟩ = some m :=
    foldlM_boolField (mk m.body ·) (by simp [mergeField])
  simp [toFields, List.foldlM_append, hbody, hinternal]

def message : Message BatchEntry :=
  ⟨⟨[], false⟩, 0, toFields, mergeField, Nat.zero_le recursionLimit, valid, fun c m _ _ => roundTrip c m⟩

end BatchEntry

namespace Batch

def toFields (m : Batch) : List Field := repeatedField BatchEntry.message 1 m.entries

def mergeField (recurseCount : ℕ) (m : Batch) (f : Field) : Option Batch :=
  match f.number with
  | 1 => (f.value.message BatchEntry.message recurseCount BatchEntry.message.empty).map
      (fun v => { m with entries := m.entries ++ [v] })
  | _ => skipField recurseCount m

theorem valid (m : Batch) : ∀ f ∈ m.toFields, f.Valid := by
  apply valid_repeatedField <;> simp

theorem roundTrip (recurseCount : ℕ) (m : Batch) (hcount : 1 ≤ recurseCount)
    (hlen : ∀ f ∈ m.toFields, f.serialize.length < 2 ^ 64) :
    m.toFields.foldlM (mergeField recurseCount) ⟨[]⟩ = some m := by
  obtain ⟨c, rfl, hc⟩ := recurses hcount
  rw [toFields]
  refine foldlM_repeatedField mk [] hc ?_ hlen
  intro ys b y hy
  simp [mergeField, hy]

def message : Message Batch := ⟨⟨[]⟩, 1, toFields, mergeField, one_le_recursionLimit, valid, roundTrip⟩

end Batch

namespace FollowerInfo

def toFields (m : FollowerInfo) : List Field :=
  messageField NodeIdentity.message 1 m.nodeIdentity ++ uint64Field 2 m.replicatedApplyIndex

def mergeField (recurseCount : ℕ) (m : FollowerInfo) (f : Field) : Option FollowerInfo :=
  match f.number with
  | 1 => (f.value.message NodeIdentity.message recurseCount (m.nodeIdentity.getD NodeIdentity.message.empty)).map
      (fun v => { m with nodeIdentity := some v })
  | 2 => f.value.uint64.map (fun v => { m with replicatedApplyIndex := v })
  | _ => skipField recurseCount m

theorem valid (m : FollowerInfo) : ∀ f ∈ m.toFields, f.Valid := by
  simp only [toFields, List.forall_mem_append]
  refine ⟨?_, ?_⟩
  · apply valid_repeatedField <;> simp
  · apply valid_scalar <;> simp

theorem roundTrip (recurseCount : ℕ) (m : FollowerInfo) (hcount : 1 ≤ recurseCount)
    (hlen : ∀ f ∈ m.toFields, f.serialize.length < 2 ^ 64) :
    m.toFields.foldlM (mergeField recurseCount) ⟨none, 0⟩ = some m := by
  obtain ⟨c, rfl, hc⟩ := recurses hcount
  simp only [toFields, List.forall_mem_append] at hlen
  have hidentity : (messageField NodeIdentity.message 1 m.nodeIdentity).foldlM (mergeField (c + 1)) ⟨none, 0⟩ =
      some ⟨m.nodeIdentity, 0⟩ := by
    refine foldlM_messageField (mk · 0) hc ?_ hlen.1
    intro b y hy
    simp [mergeField, hy]
  have hindex : (uint64Field 2 m.replicatedApplyIndex).foldlM (mergeField (c + 1)) ⟨m.nodeIdentity, 0⟩ = some m :=
    foldlM_uint64Field (mk m.nodeIdentity ·) (by simp [mergeField])
  simp [toFields, List.foldlM_append, hidentity, hindex]

def message : Message FollowerInfo := ⟨⟨none, 0⟩, 1, toFields, mergeField, one_le_recursionLimit, valid, roundTrip⟩

end FollowerInfo

namespace LeaderState

def toFields (m : LeaderState) : List Field :=
  uint64Field 1 m.epoch ++ uint64Field 2 m.commitIndex ++
    messageField NodeIdentity.message 3 m.nodeIdentity ++ repeatedField FollowerInfo.message 4 m.followers

def mergeField (recurseCount : ℕ) (m : LeaderState) (f : Field) : Option LeaderState :=
  match f.number with
  | 1 => f.value.uint64.map (fun v => { m with epoch := v })
  | 2 => f.value.uint64.map (fun v => { m with commitIndex := v })
  | 3 => (f.value.message NodeIdentity.message recurseCount (m.nodeIdentity.getD NodeIdentity.message.empty)).map
      (fun v => { m with nodeIdentity := some v })
  | 4 => (f.value.message FollowerInfo.message recurseCount FollowerInfo.message.empty).map
      (fun v => { m with followers := m.followers ++ [v] })
  | _ => skipField recurseCount m

theorem valid (m : LeaderState) : ∀ f ∈ m.toFields, f.Valid := by
  simp only [toFields, List.forall_mem_append]
  refine ⟨⟨⟨?_, ?_⟩, ?_⟩, ?_⟩
  · apply valid_scalar <;> simp
  · apply valid_scalar <;> simp
  · apply valid_repeatedField <;> simp
  · apply valid_repeatedField <;> simp

theorem roundTrip (recurseCount : ℕ) (m : LeaderState) (hcount : 2 ≤ recurseCount)
    (hlen : ∀ f ∈ m.toFields, f.serialize.length < 2 ^ 64) :
    m.toFields.foldlM (mergeField recurseCount) ⟨0, 0, none, []⟩ = some m := by
  obtain ⟨c, rfl, hc⟩ := recurses hcount
  simp only [toFields, List.forall_mem_append] at hlen
  obtain ⟨⟨_, hidentityLen⟩, hfollowersLen⟩ := hlen
  have hepoch : (uint64Field 1 m.epoch).foldlM (mergeField (c + 1)) ⟨0, 0, none, []⟩ =
      some ⟨m.epoch, 0, none, []⟩ :=
    foldlM_uint64Field (mk · 0 none []) (by simp [mergeField])
  have hindex : (uint64Field 2 m.commitIndex).foldlM (mergeField (c + 1)) ⟨m.epoch, 0, none, []⟩ =
      some ⟨m.epoch, m.commitIndex, none, []⟩ :=
    foldlM_uint64Field (mk m.epoch · none []) (by simp [mergeField])
  have hidentity : (messageField NodeIdentity.message 3 m.nodeIdentity).foldlM (mergeField (c + 1))
      ⟨m.epoch, m.commitIndex, none, []⟩ = some ⟨m.epoch, m.commitIndex, m.nodeIdentity, []⟩ := by
    refine foldlM_messageField (mk m.epoch m.commitIndex · []) (Nat.zero_le c) ?_ hidentityLen
    intro b y hy
    simp [mergeField, hy]
  have hfollowers : (repeatedField FollowerInfo.message 4 m.followers).foldlM (mergeField (c + 1))
      ⟨m.epoch, m.commitIndex, m.nodeIdentity, []⟩ = some m := by
    refine foldlM_repeatedField (mk m.epoch m.commitIndex m.nodeIdentity ·) [] hc ?_ hfollowersLen
    intro ys b y hy
    simp [mergeField, hy]
  simp [toFields, List.foldlM_append, hepoch, hindex, hidentity, hfollowers]

def message : Message LeaderState :=
  ⟨⟨0, 0, none, []⟩, 2, toFields, mergeField, two_le_recursionLimit, valid, roundTrip⟩

end LeaderState

namespace LogEntry

def toFields (m : LogEntry) : List Field :=
  messageField Batch.message 1 m.batch ++ messageField LeaderState.message 2 m.leaderState

def mergeField (recurseCount : ℕ) (m : LogEntry) (f : Field) : Option LogEntry :=
  match f.number with
  | 1 => (f.value.message Batch.message recurseCount (m.batch.getD Batch.message.empty)).map
      (fun v => { m with batch := some v })
  | 2 => (f.value.message LeaderState.message recurseCount (m.leaderState.getD LeaderState.message.empty)).map
      (fun v => { m with leaderState := some v })
  | _ => skipField recurseCount m

theorem valid (m : LogEntry) : ∀ f ∈ m.toFields, f.Valid := by
  simp only [toFields, List.forall_mem_append]
  constructor <;> apply valid_repeatedField <;> simp

theorem roundTrip (recurseCount : ℕ) (m : LogEntry) (hcount : 3 ≤ recurseCount)
    (hlen : ∀ f ∈ m.toFields, f.serialize.length < 2 ^ 64) :
    m.toFields.foldlM (mergeField recurseCount) ⟨none, none⟩ = some m := by
  obtain ⟨c, rfl, hc⟩ := recurses hcount
  simp only [toFields, List.forall_mem_append] at hlen
  have hbatch : (messageField Batch.message 1 m.batch).foldlM (mergeField (c + 1)) ⟨none, none⟩ =
      some ⟨m.batch, none⟩ := by
    refine foldlM_messageField (mk · none) (Nat.le_of_succ_le hc) ?_ hlen.1
    intro b y hy
    simp [mergeField, hy]
  have hleader : (messageField LeaderState.message 2 m.leaderState).foldlM (mergeField (c + 1)) ⟨m.batch, none⟩ =
      some m := by
    refine foldlM_messageField (mk m.batch ·) hc ?_ hlen.2
    intro b y hy
    simp [mergeField, hy]
  simp [toFields, List.foldlM_append, hbatch, hleader]

def message : Message LogEntry := ⟨⟨none, none⟩, 3, toFields, mergeField, three_le_recursionLimit, valid, roundTrip⟩

end LogEntry

end S2c
