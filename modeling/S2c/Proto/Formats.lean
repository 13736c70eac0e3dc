import S2c.Proto.Messages

namespace S2c

open Wire

def emptyMessage : Message Unit :=
  ⟨(), 0, fun _ => [], fun recurseCount m _ => skipField recurseCount m, Nat.zero_le recursionLimit,
    by simp, by simp⟩

namespace ApplicationResult

def toFields (m : ApplicationResult) : List Field := bytesField 1 m.body

def mergeField (recurseCount : ℕ) (m : ApplicationResult) (f : Field) : Option ApplicationResult :=
  match f.number with
  | 1 => f.value.byteString.map (fun v => { m with body := v })
  | _ => skipField recurseCount m

theorem valid (m : ApplicationResult) : ∀ f ∈ m.toFields, f.Valid := by
  apply valid_scalar <;> simp

theorem roundTrip (recurseCount : ℕ) (m : ApplicationResult) :
    m.toFields.foldlM (mergeField recurseCount) ⟨[]⟩ = some m :=
  foldlM_bytesField mk (by simp [mergeField])

def message : Message ApplicationResult :=
  ⟨⟨[]⟩, 0, toFields, mergeField, Nat.zero_le recursionLimit, valid, fun c m _ _ => roundTrip c m⟩

end ApplicationResult

namespace StateRequestResponse

def toFields (m : StateRequestResponse) : List Field := messageField ApplicationResult.message 1 m.body

def mergeField (recurseCount : ℕ) (m : StateRequestResponse) (f : Field) : Option StateRequestResponse :=
  match f.number with
  | 1 => (f.value.message ApplicationResult.message recurseCount (m.body.getD ApplicationResult.message.empty)).map
      (fun v => { m with body := some v })
  | _ => skipField recurseCount m

theorem valid (m : StateRequestResponse) : ∀ f ∈ m.toFields, f.Valid := by
  apply valid_repeatedField <;> simp

theorem roundTrip (recurseCount : ℕ) (m : StateRequestResponse) (hcount : 1 ≤ recurseCount)
    (hlen : ∀ f ∈ m.toFields, f.serialize.length < 2 ^ 64) :
    m.toFields.foldlM (mergeField recurseCount) ⟨none⟩ = some m := by
  obtain ⟨c, rfl, hc⟩ := recurses hcount
  refine foldlM_messageField mk hc ?_ hlen
  intro b y hy
  simp [mergeField, hy]

def message : Message StateRequestResponse := ⟨⟨none⟩, 1, toFields, mergeField, one_le_recursionLimit, valid, roundTrip⟩

end StateRequestResponse

namespace ReplicateRequest

def toFields (m : ReplicateRequest) : List Field :=
  messageField Batch.message 1 m.batch ++ uint64Field 2 m.commitIndex ++ stringField 3 m.groupId ++
    messageField emptyMessage 4 m.followerTooFarBehindError

def mergeField (recurseCount : ℕ) (m : ReplicateRequest) (f : Field) : Option ReplicateRequest :=
  match f.number with
  | 1 => (f.value.message Batch.message recurseCount (m.batch.getD Batch.message.empty)).map
      (fun v => { m with batch := some v })
  | 2 => f.value.uint64.map (fun v => { m with commitIndex := v })
  | 3 => f.value.string.map (fun v => { m with groupId := v })
  | 4 => (f.value.message emptyMessage recurseCount ()).map (fun v => { m with followerTooFarBehindError := some v })
  | _ => skipField recurseCount m

theorem valid (m : ReplicateRequest) : ∀ f ∈ m.toFields, f.Valid := by
  simp only [toFields, List.forall_mem_append]
  refine ⟨⟨⟨?_, ?_⟩, ?_⟩, ?_⟩
  · apply valid_repeatedField <;> simp
  · apply valid_scalar <;> simp
  · apply valid_scalar <;> simp
  · apply valid_repeatedField <;> simp

theorem roundTrip (recurseCount : ℕ) (m : ReplicateRequest) (hcount : 2 ≤ recurseCount)
    (hlen : ∀ f ∈ m.toFields, f.serialize.length < 2 ^ 64) :
    m.toFields.foldlM (mergeField recurseCount) ⟨none, 0, "", none⟩ = some m := by
  obtain ⟨c, rfl, hc⟩ := recurses hcount
  simp only [toFields, List.forall_mem_append] at hlen
  obtain ⟨⟨⟨hbatchLen, _⟩, _⟩, herrorLen⟩ := hlen
  have hbatch : (messageField Batch.message 1 m.batch).foldlM (mergeField (c + 1)) ⟨none, 0, "", none⟩ =
      some ⟨m.batch, 0, "", none⟩ := by
    refine foldlM_messageField (mk · 0 "" none) hc ?_ hbatchLen
    intro b y hy
    simp [mergeField, hy]
  have hindex : (uint64Field 2 m.commitIndex).foldlM (mergeField (c + 1)) ⟨m.batch, 0, "", none⟩ =
      some ⟨m.batch, m.commitIndex, "", none⟩ :=
    foldlM_uint64Field (mk m.batch · "" none) (by simp [mergeField])
  have hgroup : (stringField 3 m.groupId).foldlM (mergeField (c + 1)) ⟨m.batch, m.commitIndex, "", none⟩ =
      some ⟨m.batch, m.commitIndex, m.groupId, none⟩ :=
    foldlM_stringField (mk m.batch m.commitIndex · none) (by simp [mergeField])
  have herror : (messageField emptyMessage 4 m.followerTooFarBehindError).foldlM (mergeField (c + 1))
      ⟨m.batch, m.commitIndex, m.groupId, none⟩ = some m := by
    refine foldlM_messageField (mk m.batch m.commitIndex m.groupId ·) (Nat.zero_le c) ?_ herrorLen
    intro b y hy
    have hmerge : emptyMessage.merge c () b = some y := hy
    simp [mergeField, hmerge]
  simp [toFields, List.foldlM_append, hbatch, hindex, hgroup, herror]

def message : Message ReplicateRequest :=
  ⟨⟨none, 0, "", none⟩, 2, toFields, mergeField, two_le_recursionLimit, valid, roundTrip⟩

end ReplicateRequest

namespace ReplicateResponse

def toFields (m : ReplicateResponse) : List Field := uint64Field 1 m.applyIndex

def mergeField (recurseCount : ℕ) (m : ReplicateResponse) (f : Field) : Option ReplicateResponse :=
  match f.number with
  | 1 => f.value.uint64.map (fun v => { m with applyIndex := v })
  | _ => skipField recurseCount m

theorem valid (m : ReplicateResponse) : ∀ f ∈ m.toFields, f.Valid := by
  apply valid_scalar <;> simp

theorem roundTrip (recurseCount : ℕ) (m : ReplicateResponse) :
    m.toFields.foldlM (mergeField recurseCount) ⟨0⟩ = some m :=
  foldlM_uint64Field mk (by simp [mergeField])

def message : Message ReplicateResponse :=
  ⟨⟨0⟩, 0, toFields, mergeField, Nat.zero_le recursionLimit, valid, fun c m _ _ => roundTrip c m⟩

end ReplicateResponse

namespace Follow

def toFields (m : Follow) : List Field :=
  uint64Field 1 m.applyIndex ++ messageField NodeIdentity.message 2 m.nodeIdentity ++
    stringField 3 m.groupId

def mergeField (recurseCount : ℕ) (m : Follow) (f : Field) : Option Follow :=
  match f.number with
  | 1 => f.value.uint64.map (fun v => { m with applyIndex := v })
  | 2 => (f.value.message NodeIdentity.message recurseCount (m.nodeIdentity.getD NodeIdentity.message.empty)).map
      (fun v => { m with nodeIdentity := some v })
  | 3 => f.value.string.map (fun v => { m with groupId := v })
  | _ => skipField recurseCount m

theorem valid (m : Follow) : ∀ f ∈ m.toFields, f.Valid := by
  simp only [toFields, List.forall_mem_append]
  refine ⟨⟨?_, ?_⟩, ?_⟩
  · apply valid_scalar <;> simp
  · apply valid_repeatedField <;> simp
  · apply valid_scalar <;> simp

theorem roundTrip (recurseCount : ℕ) (m : Follow) (hcount : 1 ≤ recurseCount)
    (hlen : ∀ f ∈ m.toFields, f.serialize.length < 2 ^ 64) :
    m.toFields.foldlM (mergeField recurseCount) ⟨0, none, ""⟩ = some m := by
  obtain ⟨c, rfl, hc⟩ := recurses hcount
  simp only [toFields, List.forall_mem_append] at hlen
  have hindex : (uint64Field 1 m.applyIndex).foldlM (mergeField (c + 1)) ⟨0, none, ""⟩ =
      some ⟨m.applyIndex, none, ""⟩ :=
    foldlM_uint64Field (mk · none "") (by simp [mergeField])
  have hidentity : (messageField NodeIdentity.message 2 m.nodeIdentity).foldlM (mergeField (c + 1))
      ⟨m.applyIndex, none, ""⟩ = some ⟨m.applyIndex, m.nodeIdentity, ""⟩ := by
    refine foldlM_messageField (mk m.applyIndex · "") hc ?_ hlen.1.2
    intro b y hy
    simp [mergeField, hy]
  have hgroup : (stringField 3 m.groupId).foldlM (mergeField (c + 1)) ⟨m.applyIndex, m.nodeIdentity, ""⟩ = some m :=
    foldlM_stringField (mk m.applyIndex m.nodeIdentity ·) (by simp [mergeField])
  simp [toFields, List.foldlM_append, hindex, hidentity, hgroup]

def message : Message Follow := ⟨⟨0, none, ""⟩, 1, toFields, mergeField, one_le_recursionLimit, valid, roundTrip⟩

end Follow

namespace Handshake

def toFields (m : Handshake) : List Field :=
  stringField 1 m.groupId ++ messageField NodeIdentity.message 2 m.nodeIdentity

def mergeField (recurseCount : ℕ) (m : Handshake) (f : Field) : Option Handshake :=
  match f.number with
  | 1 => f.value.string.map (fun v => { m with groupId := v })
  | 2 => (f.value.message NodeIdentity.message recurseCount (m.nodeIdentity.getD NodeIdentity.message.empty)).map
      (fun v => { m with nodeIdentity := some v })
  | _ => skipField recurseCount m

theorem valid (m : Handshake) : ∀ f ∈ m.toFields, f.Valid := by
  simp only [toFields, List.forall_mem_append]
  constructor
  · apply valid_scalar <;> simp
  · apply valid_repeatedField <;> simp

theorem roundTrip (recurseCount : ℕ) (m : Handshake) (hcount : 1 ≤ recurseCount)
    (hlen : ∀ f ∈ m.toFields, f.serialize.length < 2 ^ 64) :
    m.toFields.foldlM (mergeField recurseCount) ⟨"", none⟩ = some m := by
  obtain ⟨c, rfl, hc⟩ := recurses hcount
  simp only [toFields, List.forall_mem_append] at hlen
  have hgroup : (stringField 1 m.groupId).foldlM (mergeField (c + 1)) ⟨"", none⟩ = some ⟨m.groupId, none⟩ :=
    foldlM_stringField (mk · none) (by simp [mergeField])
  have hidentity : (messageField NodeIdentity.message 2 m.nodeIdentity).foldlM (mergeField (c + 1))
      ⟨m.groupId, none⟩ = some m := by
    refine foldlM_messageField (mk m.groupId ·) hc ?_ hlen.2
    intro b y hy
    simp [mergeField, hy]
  simp [toFields, List.foldlM_append, hgroup, hidentity]

def message : Message Handshake := ⟨⟨"", none⟩, 1, toFields, mergeField, one_le_recursionLimit, valid, roundTrip⟩

end Handshake

namespace S2cError

def number : S2cError → ℕ
  | .notLeaderError => 9
  | .leaderStartingError => 10
  | .notFollowerError => 11
  | .slowDownError => 12
  | .internalError => 13
  | .unknownGroupError => 14

end S2cError

namespace Body

def toField : Body → Field
  | .stateRequest x => ⟨2, .bytes (StateRequest.message.encode x)⟩
  | .stateRequestResponse x => ⟨3, .bytes (StateRequestResponse.message.encode x)⟩
  | .replicateRequest x => ⟨4, .bytes (ReplicateRequest.message.encode x)⟩
  | .replicateResponse x => ⟨5, .bytes (ReplicateResponse.message.encode x)⟩
  | .follow x => ⟨6, .bytes (Follow.message.encode x)⟩
  | .followResponse => ⟨7, .bytes (emptyMessage.encode ())⟩
  | .handshake x => ⟨8, .bytes (Handshake.message.encode x)⟩

end Body

namespace S2cMessage

def errorField (e : S2cError) : Field := ⟨e.number, .bytes (emptyMessage.encode ())⟩

def toFields (m : S2cMessage) : List Field :=
  stringField 1 m.correlationId ++ m.body.toList.map Body.toField ++ m.error.toList.map errorField

def mergeError (recurseCount : ℕ) (m : S2cMessage) (e : S2cError) (v : Value) : Option S2cMessage :=
  (v.message emptyMessage recurseCount ()).map (fun _ => { m with error := some e })

/-- A variant that comes again is merged with the one before, any other takes its place. -/
def mergeBody {β : Type} (recurseCount : ℕ) (m : S2cMessage) (M : Message β) (current : Option β)
    (wrap : β → Body) (v : Value) : Option S2cMessage :=
  (v.message M recurseCount (current.getD M.empty)).map (fun x => { m with body := some (wrap x) })

def mergeField (recurseCount : ℕ) (m : S2cMessage) (f : Field) : Option S2cMessage :=
  match f.number with
  | 1 => f.value.string.map (fun v => { m with correlationId := v })
  | 2 => mergeBody recurseCount m StateRequest.message
      (match m.body with | some (.stateRequest x) => some x | _ => none) .stateRequest f.value
  | 3 => mergeBody recurseCount m StateRequestResponse.message
      (match m.body with | some (.stateRequestResponse x) => some x | _ => none) .stateRequestResponse f.value
  | 4 => mergeBody recurseCount m ReplicateRequest.message
      (match m.body with | some (.replicateRequest x) => some x | _ => none) .replicateRequest f.value
  | 5 => mergeBody recurseCount m ReplicateResponse.message
      (match m.body with | some (.replicateResponse x) => some x | _ => none) .replicateResponse f.value
  | 6 => mergeBody recurseCount m Follow.message
      (match m.body with | some (.follow x) => some x | _ => none) .follow f.value
  | 7 => mergeBody recurseCount m emptyMessage none (fun _ => .followResponse) f.value
  | 8 => mergeBody recurseCount m Handshake.message
      (match m.body with | some (.handshake x) => some x | _ => none) .handshake f.value
  | 9 => mergeError recurseCount m .notLeaderError f.value
  | 10 => mergeError recurseCount m .leaderStartingError f.value
  | 11 => mergeError recurseCount m .notFollowerError f.value
  | 12 => mergeError recurseCount m .slowDownError f.value
  | 13 => mergeError recurseCount m .internalError f.value
  | 14 => mergeError recurseCount m .unknownGroupError f.value
  | _ => skipField recurseCount m

theorem valid (m : S2cMessage) : ∀ f ∈ m.toFields, f.Valid := by
  simp only [toFields, List.forall_mem_append]
  refine ⟨⟨?_, ?_⟩, ?_⟩
  · apply valid_scalar <;> simp
  · intro f hf
    obtain ⟨body, _, rfl⟩ := List.mem_map.mp hf
    cases body <;> simp [Body.toField, Field.Valid]
  · intro f hf
    obtain ⟨e, _, rfl⟩ := List.mem_map.mp hf
    cases e <;> simp [errorField, S2cError.number, Field.Valid]

theorem mergeBody_encode {β : Type} {M : Message β} {x : β} {c : ℕ} (hc : M.nesting ≤ c) (m : S2cMessage)
    (wrap : β → Body) {n : ℕ} (hlen : (Field.serialize ⟨n, .bytes (M.encode x)⟩).length < 2 ^ 64) :
    mergeBody (c + 1) m M none wrap (.bytes (M.encode x)) = some { m with body := some (wrap x) } := by
  have hx : (M.encode x).length < 2 ^ 64 := Nat.lt_of_le_of_lt (Field.length_le rfl) hlen
  have hmerge : M.merge c M.empty (M.encode x) = some x := Message.merge_encode hc x hx
  simp [mergeBody, hmerge]

theorem mergeError_encode (c : ℕ) (m : S2cMessage) (e : S2cError) :
    mergeError (c + 1) m e (.bytes (emptyMessage.encode ())) = some { m with error := some e } := by
  have hmerge : emptyMessage.merge c () (emptyMessage.encode ()) = some () :=
    Message.merge_encode (Nat.zero_le c) () (by decide)
  simp [mergeError, hmerge]

theorem foldlM_body {c : ℕ} (hc : 2 ≤ c) (correlationId : String) (body : Option Body)
    (hlen : ∀ f ∈ body.toList.map Body.toField, f.serialize.length < 2 ^ 64) :
    (body.toList.map Body.toField).foldlM (mergeField (c + 1)) ⟨correlationId, none, none⟩ =
      some ⟨correlationId, body, none⟩ := by
  cases body with
  | none => rfl
  | some body =>
    have hbody : (Body.toField body).serialize.length < 2 ^ 64 := hlen _ (by simp)
    have hnesting : ∀ {k : ℕ}, k ≤ 2 → k ≤ c := fun hk => Nat.le_trans hk hc
    cases body <;> exact (bind_pure _).trans
      (mergeBody_encode (hnesting (by decide)) ⟨correlationId, none, none⟩ _ hbody)

theorem foldlM_error (c : ℕ) (correlationId : String) (body : Option Body) (error : Option S2cError) :
    (error.toList.map errorField).foldlM (mergeField (c + 1)) ⟨correlationId, body, none⟩ =
      some ⟨correlationId, body, error⟩ := by
  cases error with
  | none => rfl
  | some e => cases e <;> exact (bind_pure _).trans (mergeError_encode c ⟨correlationId, body, none⟩ _)

theorem roundTrip (recurseCount : ℕ) (m : S2cMessage) (hcount : 3 ≤ recurseCount)
    (hlen : ∀ f ∈ m.toFields, f.serialize.length < 2 ^ 64) :
    m.toFields.foldlM (mergeField recurseCount) ⟨"", none, none⟩ = some m := by
  obtain ⟨c, rfl, hc⟩ := recurses hcount
  simp only [toFields, List.forall_mem_append] at hlen
  have hid : (stringField 1 m.correlationId).foldlM (mergeField (c + 1)) ⟨"", none, none⟩ =
      some ⟨m.correlationId, none, none⟩ :=
    foldlM_stringField (mk · none none) (by simp [mergeField])
  have hbody := foldlM_body hc m.correlationId m.body hlen.1.2
  have herror := foldlM_error c m.correlationId m.body m.error
  simp only [toFields, List.foldlM_append, hid, hbody, herror, Option.bind_eq_bind, Option.bind_some]

def message : Message S2cMessage :=
  ⟨⟨"", none, none⟩, 3, toFields, mergeField, three_le_recursionLimit, valid, roundTrip⟩

end S2cMessage

end S2c
