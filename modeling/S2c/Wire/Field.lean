import S2c.Wire.Varint

namespace S2c.Wire

/-- What a field carries. Fixed-width values and groups are read over: no schema here has them. -/
inductive Value where
  | varint (v : UInt64)
  | bytes (b : Bytes)
  | skipped
  deriving DecidableEq

structure Field where
  number : ℕ
  value : Value
  deriving DecidableEq

def Field.Valid (f : Field) : Prop :=
  1 ≤ f.number ∧ f.number < 2 ^ 29 ∧ f.value ≠ .skipped

def putKey (number wireType : ℕ) : Bytes := putVarint 10 (8 * number + wireType)

def putBytes (b : Bytes) : Bytes := putVarint 10 b.length ++ b

def Field.serialize (f : Field) : Bytes :=
  match f.value with
  | .varint v => putKey f.number 0 ++ encodeVarint v
  | .bytes b => putKey f.number 2 ++ putBytes b
  | .skipped => []

def serialize (fs : List Field) : Bytes := fs.flatMap Field.serialize

def takeKey (bs : Bytes) : Option (ℕ × ℕ × Bytes) :=
  (takeVarint 10 bs).bind (fun p =>
    if p.1 < 2 ^ 32 ∧ 8 ≤ p.1 ∧ p.1 % 8 < 6 then some (p.1 / 8, p.1 % 8, p.2) else none)

def takeExact (n : ℕ) (bs : Bytes) : Option (Bytes × Bytes) :=
  if n ≤ bs.length then some (bs.take n, bs.drop n) else none

def takeBytes (bs : Bytes) : Option (Bytes × Bytes) :=
  (takeVarint 10 bs).bind (fun p => takeExact p.1 p.2)

def skipGroup : ℕ → ℕ → ℕ → Bytes → Option Bytes
  | 0, _, _, _ => none
  | fuel + 1, recurseCount, number, bs =>
    (takeKey bs).bind (fun (inner, wireType, rest) =>
      if wireType = 4 then (if inner = number then some rest else none)
      else if recurseCount = 0 then none
      else match wireType with
      | 0 => (takeVarint 10 rest).bind (fun p => skipGroup fuel recurseCount number p.2)
      | 1 => (takeExact 8 rest).bind (fun p => skipGroup fuel recurseCount number p.2)
      | 2 => (takeBytes rest).bind (fun p => skipGroup fuel recurseCount number p.2)
      | 3 => (skipGroup fuel (recurseCount - 1) inner rest).bind (skipGroup fuel recurseCount number)
      | _ => (takeExact 4 rest).bind (fun p => skipGroup fuel recurseCount number p.2))

def takeValue (recurseCount number wireType : ℕ) (bs : Bytes) : Option (Value × Bytes) :=
  match wireType with
  | 0 => (decodeVarint bs).map (fun p => (.varint p.1, p.2))
  | 1 => (takeExact 8 bs).map (fun p => (.skipped, p.2))
  | 2 => (takeBytes bs).map (fun p => (.bytes p.1, p.2))
  | 3 =>
    if recurseCount = 0 then none
    else (skipGroup bs.length (recurseCount - 1) number bs).map (fun rest => (.skipped, rest))
  | 4 => none
  | _ => (takeExact 4 bs).map (fun p => (.skipped, p.2))

def takeField (recurseCount : ℕ) (bs : Bytes) : Option (Field × Bytes) :=
  (takeKey bs).bind (fun (number, wireType, rest) =>
    (takeValue recurseCount number wireType rest).map (fun p => (⟨number, p.1⟩, p.2)))

def takeFields (recurseCount : ℕ) : ℕ → Bytes → Option (List Field)
  | _, [] => some []
  | 0, _ :: _ => none
  | n + 1, b :: bs =>
    (takeField recurseCount (b :: bs)).bind (fun p => (takeFields recurseCount n p.2).map (p.1 :: ·))

def parse (recurseCount : ℕ) (bs : Bytes) : Option (List Field) := takeFields recurseCount bs.length bs

theorem takeKey_putKey {number wireType : ℕ} (rest : Bytes) (hn : 1 ≤ number)
    (hn' : number < 2 ^ 29) (hw : wireType < 6) :
    takeKey (putKey number wireType ++ rest) = some (number, wireType, rest) := by
  rw [takeKey, putKey, takeVarint_putVarint 9 _ _ (by omega), Option.bind_some]
  dsimp only
  rw [if_pos (by omega)]
  have hdiv : (8 * number + wireType) / 8 = number := by omega
  have hmod : (8 * number + wireType) % 8 = wireType := by omega
  rw [hdiv, hmod]

theorem takeBytes_putBytes {b : Bytes} (rest : Bytes) (hb : b.length < 2 ^ 64) :
    takeBytes (putBytes b ++ rest) = some (b, rest) := by
  rw [takeBytes, putBytes, List.append_assoc, takeVarint_putVarint 9 _ _ hb, Option.bind_some]
  simp [takeExact]

theorem Field.serialize_pos {f : Field} (hf : f.Valid) : 0 < f.serialize.length := by
  have hkey (w : ℕ) : 0 < (putKey f.number w).length := putVarint_length_pos 9 _
  cases hv : f.value with
  | varint v =>
    simp only [Field.serialize, hv, List.length_append]
    exact Nat.add_pos_left (hkey 0) _
  | bytes b =>
    simp only [Field.serialize, hv, List.length_append]
    exact Nat.add_pos_left (hkey 2) _
  | skipped => exact absurd hv hf.2.2

theorem Field.length_le {f : Field} {b : Bytes} (hv : f.value = .bytes b) :
    b.length ≤ f.serialize.length := by
  simp only [Field.serialize, hv, putBytes, List.length_append]
  omega

theorem Field.serialize_le (number : ℕ) (b : Bytes) :
    (Field.serialize ⟨number, .bytes b⟩).length ≤ b.length + 20 := by
  have hkey : (putKey number 2).length ≤ 10 := putVarint_length_le 10 _
  have hlen : (putVarint 10 b.length).length ≤ 10 := putVarint_length_le 10 _
  simp only [Field.serialize, putBytes, List.length_append]
  omega

theorem takeField_serialize {f : Field} (recurseCount : ℕ) (rest : Bytes) (hf : f.Valid)
    (hlen : f.serialize.length < 2 ^ 64) : takeField recurseCount (f.serialize ++ rest) = some (f, rest) := by
  obtain ⟨number, value⟩ := f
  obtain ⟨hn, hn', hskip⟩ := hf
  cases value with
  | varint v =>
    simp only [Field.serialize, List.append_assoc, takeField]
    rw [takeKey_putKey _ hn hn' (by omega)]
    simp [takeValue, decodeVarint_encodeVarint]
  | bytes b =>
    have hb : b.length < 2 ^ 64 := Nat.lt_of_le_of_lt (Field.length_le rfl) hlen
    simp only [Field.serialize, List.append_assoc, takeField]
    rw [takeKey_putKey _ hn hn' (by omega)]
    simp [takeValue, takeBytes_putBytes _ hb]
  | skipped => exact absurd rfl hskip

theorem length_serialize_of_mem {fs : List Field} {f : Field} (hf : f ∈ fs) :
    f.serialize.length ≤ (serialize fs).length := by
  induction fs with
  | nil => cases hf
  | cons g fs ih =>
    rw [serialize, List.flatMap_cons, List.length_append]
    rcases List.mem_cons.mp hf with rfl | hf
    · omega
    · have := ih hf
      simp only [serialize] at this
      omega

@[simp] theorem length_serialize_cons (f : Field) (fs : List Field) :
    (serialize (f :: fs)).length = f.serialize.length + (serialize fs).length := by
  rw [serialize, List.flatMap_cons, List.length_append, serialize]

theorem takeFields_serialize (recurseCount n : ℕ) (fs : List Field) (hf : ∀ f ∈ fs, f.Valid)
    (hlen : (serialize fs).length < 2 ^ 64) (hn : (serialize fs).length ≤ n) :
    takeFields recurseCount n (serialize fs) = some fs := by
  induction fs generalizing n with
  | nil => cases n <;> rfl
  | cons f fs ih =>
    have hsplit : serialize (f :: fs) = f.serialize ++ serialize fs := List.flatMap_cons
    have hpos := Field.serialize_pos (hf f List.mem_cons_self)
    have hfield := takeField_serialize recurseCount (serialize fs) (hf f List.mem_cons_self)
      (Nat.lt_of_le_of_lt (length_serialize_of_mem List.mem_cons_self) hlen)
    rw [hsplit, List.length_append] at hlen hn
    obtain ⟨m, rfl⟩ : ∃ m, n = m + 1 := ⟨n - 1, by omega⟩
    have hrest := ih m (fun g hg => hf g (List.mem_cons_of_mem _ hg)) (by omega) (by omega)
    rw [hsplit]
    cases hbytes : f.serialize ++ serialize fs with
    | nil =>
      have hzero := congrArg List.length hbytes
      simp only [List.length_append, List.length_nil] at hzero
      omega
    | cons b bs =>
      rw [takeFields, ← hbytes, hfield, Option.bind_some, hrest]
      rfl

theorem parse_serialize {fs : List Field} (recurseCount : ℕ) (hf : ∀ f ∈ fs, f.Valid)
    (hlen : (serialize fs).length < 2 ^ 64) : parse recurseCount (serialize fs) = some fs :=
  takeFields_serialize recurseCount _ fs hf hlen (Nat.le_refl _)

end S2c.Wire
