import S2c.Wire.Field

namespace S2c.Wire

def recursionLimit : ℕ := 100

theorem one_le_recursionLimit : 1 ≤ recursionLimit := by decide

theorem two_le_recursionLimit : 2 ≤ recursionLimit := by decide

theorem three_le_recursionLimit : 3 ≤ recursionLimit := by decide

/-- The wire format of a message type: the fields it is written as, and what a field that is read
does to the message read so far, with what is left of the recursion limit. `nesting` is how deep its
messages contain others. -/
structure Message (α : Type) where
  empty : α
  nesting : ℕ
  toFields : α → List Field
  mergeField : ℕ → α → Field → Option α
  shallow : nesting ≤ recursionLimit
  valid : ∀ m, ∀ f ∈ toFields m, f.Valid
  roundTrip : ∀ recurseCount m, nesting ≤ recurseCount → (∀ f ∈ toFields m, f.serialize.length < 2 ^ 64) →
    (toFields m).foldlM (mergeField recurseCount) empty = some m

namespace Message

variable {α β : Type}

def encode (M : Message α) (m : α) : Bytes := serialize (M.toFields m)

def merge (M : Message α) (recurseCount : ℕ) (m : α) (bs : Bytes) : Option α :=
  (parse recurseCount bs).bind (fun fs => fs.foldlM (M.mergeField recurseCount) m)

def decode (M : Message α) (bs : Bytes) : Option α := M.merge recursionLimit M.empty bs

theorem merge_encode {M : Message α} {recurseCount : ℕ} (hcount : M.nesting ≤ recurseCount) (m : α)
    (hlen : (M.encode m).length < 2 ^ 64) : M.merge recurseCount M.empty (M.encode m) = some m := by
  rw [merge, encode, parse_serialize recurseCount (M.valid m) hlen, Option.bind_some]
  apply M.roundTrip recurseCount m hcount
  intro f hf
  exact Nat.lt_of_le_of_lt (length_serialize_of_mem hf) hlen

theorem decode_encode (M : Message α) (m : α) (hlen : (M.encode m).length < 2 ^ 64) :
    M.decode (M.encode m) = some m :=
  merge_encode M.shallow m hlen

theorem decode_zero (M : Message α) (bs : Bytes) : M.decode (0 :: bs) = none := by
  have hkey : takeKey (0 :: bs) = none := rfl
  have hfield : takeField recursionLimit (0 :: bs) = none := by rw [takeField, hkey, Option.bind_none]
  rw [decode, merge, parse, List.length_cons, takeFields, hfield]
  rfl

theorem eq_empty_of_encode_nil {M : Message α} {m : α} (h : M.encode m = []) : m = M.empty := by
  have hdecode := M.decode_encode m (by simp [h])
  rw [h] at hdecode
  exact (Option.some.inj hdecode).symm

def isizeMax : ℕ := 2 ^ 63 - 1

def encodeToVec (M : Message α) (m : α) : Option Bytes :=
  if (M.encode m).length ≤ isizeMax then some (M.encode m) else none

theorem encodeToVec_eq_some {M : Message α} {m : α} {bs : Bytes} (h : M.encodeToVec m = some bs) :
    bs = M.encode m ∧ bs.length < 2 ^ 64 := by
  unfold encodeToVec at h
  split at h
  · rename_i hle
    obtain rfl := Option.some.inj h
    simp only [isizeMax] at hle
    exact ⟨rfl, by omega⟩
  · cases h

theorem decode_encodeToVec {M : Message α} {m : α} {bs : Bytes} (h : M.encodeToVec m = some bs) :
    M.decode bs = some m := by
  obtain ⟨rfl, hlen⟩ := encodeToVec_eq_some h
  exact M.decode_encode m hlen

end Message

def utf8 (s : String) : Bytes := s.toUTF8.data.toList

def ofUtf8 (bs : Bytes) : Option String := String.fromUTF8? ⟨bs.toArray⟩

theorem ofUtf8_utf8 (s : String) : ofUtf8 (utf8 s) = some s := by
  have hs : s.toByteArray.IsValidUTF8 := s.isValidUTF8
  simp [ofUtf8, utf8, String.fromUTF8?, String.fromUTF8, hs]

def int32ToVarint (v : Int32) : UInt64 := v.toInt64.toUInt64

def int32OfVarint (v : UInt64) : Int32 := v.toUInt32.toInt32

theorem int32OfVarint_int32ToVarint (v : Int32) : int32OfVarint (int32ToVarint v) = v := by
  apply Int32.toBitVec_inj.mp
  apply BitVec.eq_of_getLsbD_eq
  intro i hi
  simp [int32OfVarint, int32ToVarint, BitVec.getLsbD_signExtend, hi]
  omega

namespace Value

def uint64 : Value → Option UInt64
  | .varint v => some v
  | _ => none

def int32 : Value → Option Int32
  | .varint v => some (int32OfVarint v)
  | _ => none

def bool : Value → Option Bool
  | .varint v => some (v != 0)
  | _ => none

def byteString : Value → Option Bytes
  | .bytes b => some b
  | _ => none

def string : Value → Option String
  | .bytes b => ofUtf8 b
  | _ => none

def message {β : Type} (M : Message β) (recurseCount : ℕ) (m : β) : Value → Option β
  | .bytes b => if recurseCount = 0 then none else M.merge (recurseCount - 1) m b
  | _ => none

@[simp] theorem uint64_varint (v : UInt64) : (varint v).uint64 = some v := rfl

@[simp] theorem int32_varint (v : Int32) : (varint (int32ToVarint v)).int32 = some v := by
  rw [int32, int32OfVarint_int32ToVarint]

@[simp] theorem bool_one : (varint 1).bool = some true := rfl

@[simp] theorem byteString_bytes (b : Bytes) : (bytes b).byteString = some b := rfl

@[simp] theorem string_utf8 (s : String) : (bytes (utf8 s)).string = some s := ofUtf8_utf8 s

@[simp] theorem message_bytes {β : Type} (M : Message β) (recurseCount : ℕ) (m : β) (b : Bytes) :
    (bytes b).message M (recurseCount + 1) m = M.merge recurseCount m b := rfl

end Value

variable {α β : Type}

theorem recurses {nesting recurseCount : ℕ} (h : nesting + 1 ≤ recurseCount) :
    ∃ c, recurseCount = c + 1 ∧ nesting ≤ c :=
  ⟨recurseCount - 1, by omega⟩

def skipField (recurseCount : ℕ) (m : α) : Option α := if recurseCount = 0 then none else some m

def scalar (n : ℕ) (isDefault : Bool) (v : Value) : List Field := if isDefault then [] else [⟨n, v⟩]

def uint64Field (n : ℕ) (v : UInt64) : List Field := scalar n (v == 0) (.varint v)

def int32Field (n : ℕ) (v : Int32) : List Field := scalar n (v == 0) (.varint (int32ToVarint v))

def boolField (n : ℕ) (b : Bool) : List Field := scalar n (!b) (.varint 1)

def bytesField (n : ℕ) (b : Bytes) : List Field := scalar n (b == []) (.bytes b)

def stringField (n : ℕ) (s : String) : List Field := scalar n (s == "") (.bytes (utf8 s))

def repeatedField (M : Message β) (n : ℕ) (xs : List β) : List Field :=
  xs.map (fun x => ⟨n, .bytes (M.encode x)⟩)

def messageField (M : Message β) (n : ℕ) (x : Option β) : List Field := repeatedField M n x.toList

theorem valid_scalar {n : ℕ} {d : Bool} {v : Value} (hn : 1 ≤ n) (hn' : n < 2 ^ 29)
    (hv : v ≠ .skipped) : ∀ f ∈ scalar n d v, f.Valid := by
  intro f hf
  cases d with
  | true => simp [scalar] at hf
  | false =>
    obtain rfl : f = ⟨n, v⟩ := by simpa [scalar] using hf
    exact ⟨hn, hn', hv⟩

theorem valid_repeatedField {M : Message β} {n : ℕ} {xs : List β} (hn : 1 ≤ n) (hn' : n < 2 ^ 29) :
    ∀ f ∈ repeatedField M n xs, f.Valid := by
  intro f hf
  obtain ⟨x, _, rfl⟩ := List.mem_map.mp hf
  exact ⟨hn, hn', by simp⟩

variable {mergeField : α → Field → Option α}

theorem foldlM_scalar {n : ℕ} {d : Bool} {v : Value} {m m' : α}
    (hmerge : mergeField m ⟨n, v⟩ = some m') (hdefault : d = true → m' = m) :
    (scalar n d v).foldlM mergeField m = some m' := by
  cases d with
  | true => rw [hdefault rfl]; rfl
  | false => simp [scalar, hmerge]

theorem foldlM_uint64Field {n : ℕ} {v : UInt64} (set : UInt64 → α)
    (hmerge : mergeField (set 0) ⟨n, .varint v⟩ = some (set v)) :
    (uint64Field n v).foldlM mergeField (set 0) = some (set v) :=
  foldlM_scalar hmerge (fun h => by rw [eq_of_beq h])

theorem foldlM_int32Field {n : ℕ} {v : Int32} (set : Int32 → α)
    (hmerge : mergeField (set 0) ⟨n, .varint (int32ToVarint v)⟩ = some (set v)) :
    (int32Field n v).foldlM mergeField (set 0) = some (set v) :=
  foldlM_scalar hmerge (fun h => by rw [eq_of_beq h])

theorem foldlM_boolField {n : ℕ} {b : Bool} (set : Bool → α)
    (hmerge : mergeField (set false) ⟨n, .varint 1⟩ = some (set true)) :
    (boolField n b).foldlM mergeField (set false) = some (set b) := by
  cases b with
  | false => rfl
  | true => exact foldlM_scalar hmerge (by simp)

theorem foldlM_bytesField {n : ℕ} {b : Bytes} (set : Bytes → α)
    (hmerge : mergeField (set []) ⟨n, .bytes b⟩ = some (set b)) :
    (bytesField n b).foldlM mergeField (set []) = some (set b) :=
  foldlM_scalar hmerge (fun h => by rw [eq_of_beq h])

theorem foldlM_stringField {n : ℕ} {s : String} (set : String → α)
    (hmerge : mergeField (set "") ⟨n, .bytes (utf8 s)⟩ = some (set s)) :
    (stringField n s).foldlM mergeField (set "") = some (set s) :=
  foldlM_scalar hmerge (fun h => by rw [eq_of_beq h])

theorem foldlM_repeatedField {M : Message β} {n c : ℕ} {xs : List β} (set : List β → α) (ys : List β)
    (hcount : M.nesting ≤ c)
    (hmerge : ∀ ys b y, M.merge c M.empty b = some y → mergeField (set ys) ⟨n, .bytes b⟩ = some (set (ys ++ [y])))
    (hlen : ∀ f ∈ repeatedField M n xs, f.serialize.length < 2 ^ 64) :
    (repeatedField M n xs).foldlM mergeField (set ys) = some (set (ys ++ xs)) := by
  induction xs generalizing ys with
  | nil => simp [repeatedField]
  | cons x xs ih =>
    have hx : (M.encode x).length < 2 ^ 64 :=
      Nat.lt_of_le_of_lt (Field.length_le (f := ⟨n, .bytes (M.encode x)⟩) rfl)
        (hlen _ (by simp [repeatedField]))
    have hrest := ih (ys ++ [x]) (fun f hf => hlen f (List.mem_cons_of_mem _ hf))
    simp only [repeatedField, List.map_cons, List.foldlM_cons] at hrest ⊢
    rw [hmerge ys _ x (Message.merge_encode hcount x hx)]
    simpa using hrest

theorem foldlM_messageField {M : Message β} {n c : ℕ} {x : Option β} (set : Option β → α)
    (hcount : M.nesting ≤ c)
    (hmerge : ∀ b y, M.merge c M.empty b = some y → mergeField (set none) ⟨n, .bytes b⟩ = some (set (some y)))
    (hlen : ∀ f ∈ messageField M n x, f.serialize.length < 2 ^ 64) :
    (messageField M n x).foldlM mergeField (set none) = some (set x) := by
  cases x with
  | none => simp [messageField, repeatedField]
  | some x =>
    have hx : (M.encode x).length < 2 ^ 64 :=
      Nat.lt_of_le_of_lt (Field.length_le (f := ⟨n, .bytes (M.encode x)⟩) rfl)
        (hlen _ (by simp [messageField, repeatedField]))
    simp [messageField, repeatedField, hmerge _ x (Message.merge_encode hcount x hx)]

end S2c.Wire
