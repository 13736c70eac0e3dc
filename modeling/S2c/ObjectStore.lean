import Mathlib.Tactic.Common
import Mathlib.Data.List.Infix
import Std.Data.ExtTreeMap.Lemmas
import S2c.Wire.Varint

namespace S2c

open Wire

/-- `other` stands for the variants that the code treats alike. -/
inductive Error where
  | generic (store source : String)
  | notFound
  | alreadyExists
  | other (variant : String)
  deriving DecidableEq

/-- Besides `A` to `Z`, only the dotted capital I and the Kelvin sign have ASCII letters in lower
case; no other character matters for the needles below. -/
def lowerChar (c : Char) : List Char :=
  if c.toNat = 0x130 then ['i', Char.ofNat 0x307]
  else if c.toNat = 0x212A then ['k']
  else [c.toLower]

def toLowercase (s : String) : List Char := s.toList.flatMap lowerChar

def transientNeedles : List String :=
  ["slowdown", "503", "timeout", "requesttimeout", "internalerror", "serviceunavailable", "skewed"]

def isTransient : Error → Bool
  | .generic _ source => transientNeedles.any (fun needle => needle.toList <:+: toLowercase source)
  | _ => false

/-- A path's raw text. Code points sort as the bytes of their UTF-8 do. -/
abbrev Path := List Char

structure PathEncoding where
  encode : List Char → List Char
  injective : Function.Injective encode
  noSlash : ∀ s, '/' ∉ encode s
  nonempty : ∀ s, s ≠ [] → encode s ≠ []
  digits : ∀ s, (∀ c ∈ s, c.isDigit = true) → encode s = s

def escapeChar (c : Char) : List Char :=
  if c = '%' then ['%', '2', '5'] else if c = '/' then ['%', '2', 'F'] else [c]

theorem escapeChar_cases (c : Char) : (c = '%' ∧ escapeChar c = ['%', '2', '5']) ∨
    (c = '/' ∧ escapeChar c = ['%', '2', 'F']) ∨ (c ≠ '%' ∧ c ≠ '/' ∧ escapeChar c = [c]) := by
  unfold escapeChar
  split_ifs with hpercent hslash
  · exact Or.inl ⟨hpercent, rfl⟩
  · exact Or.inr (Or.inl ⟨hslash, rfl⟩)
  · exact Or.inr (Or.inr ⟨hpercent, hslash, rfl⟩)

theorem escape_injective : Function.Injective (fun s : List Char => s.flatMap escapeChar) := by
  intro s t h
  simp only at h
  induction s generalizing t with
  | nil =>
    cases t with
    | nil => rfl
    | cons d t => rcases escapeChar_cases d with ⟨_, hd⟩ | ⟨_, hd⟩ | ⟨_, _, hd⟩ <;> simp [hd] at h
  | cons c s ih =>
    cases t with
    | nil => rcases escapeChar_cases c with ⟨_, hc⟩ | ⟨_, hc⟩ | ⟨_, _, hc⟩ <;> simp [hc] at h
    | cons d t =>
      rw [List.flatMap_cons, List.flatMap_cons] at h
      rcases escapeChar_cases c with ⟨rfl, hc⟩ | ⟨rfl, hc⟩ | ⟨hc1, hc2, hc⟩ <;>
        rcases escapeChar_cases d with ⟨rfl, hd⟩ | ⟨rfl, hd⟩ | ⟨hd1, hd2, hd⟩ <;>
        simp only [hc, hd] at h <;> grind

def PathEncoding.escape : PathEncoding where
  encode s := s.flatMap escapeChar
  injective := escape_injective
  noSlash s := by
    intro h
    obtain ⟨c, _, hc⟩ := List.mem_flatMap.mp h
    rcases escapeChar_cases c with ⟨_, he⟩ | ⟨_, he⟩ | ⟨_, hne, he⟩
    · simp [he] at hc
    · simp [he] at hc
    · rw [he, List.mem_singleton] at hc
      exact hne hc.symm
  nonempty s hs := by
    cases s with
    | nil => exact absurd rfl hs
    | cons c s => rcases escapeChar_cases c with ⟨_, he⟩ | ⟨_, he⟩ | ⟨_, _, he⟩ <;> simp [he]
  digits s hs := by
    induction s with
    | nil => rfl
    | cons c s ih =>
      have hc := hs c List.mem_cons_self
      have hrest := ih (fun d hd => hs d (List.mem_cons_of_mem _ hd))
      rcases escapeChar_cases c with ⟨rfl, _⟩ | ⟨rfl, _⟩ | ⟨_, _, he⟩
      · simp at hc
      · simp at hc
      · rw [List.flatMap_cons, he, hrest]
        rfl

def PathEncoding.path (enc : PathEncoding) (s : String) : Path :=
  ['/'].intercalate (((s.toList.splitOn '/').filter (fun part => part ≠ [])).map enc.encode)

def filename (p : Path) : Option (List Char) :=
  if p = [] then none else some (p.reverse.takeWhile (fun c => c ≠ '/')).reverse

def prefixMatch (pre key : Path) : Bool :=
  if pre = [] then true else (pre ++ ['/']).isPrefixOf key

abbrev ObjectStore := Std.ExtTreeMap Path Bytes compare

/-- What becomes of one request to put: it is carried out and answered, it fails without effect, or
it is carried out and its answer is lost on the way. -/
inductive Fate where
  | served
  | refused (e : { e : Error // e ≠ .alreadyExists })
  | lostReply (store source : String)
  deriving DecidableEq

namespace Fate

def error : Fate → Option Error
  | .served => none
  | .refused e => some e
  | .lostReply store source => some (.generic store source)

def Generic (f : Fate) : Prop := ∃ store source, f.error = some (.generic store source)

def transient (f : Fate) : Bool := f.error.any isTransient

def lost : Fate → Bool
  | .lostReply _ _ => true
  | _ => false

end Fate

inductive ReadFate where
  | served
  | refused (e : Error)
  | cut (e : Error)
  deriving DecidableEq

def ReadFate.error : ReadFate → Option Error
  | .served => none
  | .refused e => some e
  | .cut e => some e

namespace ObjectStore

def putOpts (s : ObjectStore) (p : Path) (payload : Bytes) : Fate → ObjectStore × Except Error Unit
  | .served => (s.insertIfNew p payload, if p ∈ s then .error .alreadyExists else .ok ())
  | .refused e => (s, .error e)
  | .lostReply store source => (s.insertIfNew p payload, .error (.generic store source))

theorem getElem?_putOpts {s : ObjectStore} {k : Path} {b : Bytes} (h : s[k]? = some b) (p : Path)
    (payload : Bytes) (fate : Fate) : (s.putOpts p payload fate).1[k]? = some b := by
  have hcreate : (s.insertIfNew p payload)[k]? = some b := by
    rw [Std.ExtTreeMap.getElem?_insertIfNew, if_neg, h]
    rintro ⟨hk, hp⟩
    rw [Std.LawfulEqOrd.eq_of_compare hk, Std.ExtTreeMap.mem_iff_isSome_getElem?, h] at hp
    exact hp rfl
  cases fate with
  | served => exact hcreate
  | refused e => exact h
  | lostReply store source => exact hcreate

def list (s : ObjectStore) (pre : Path) : List Path := s.keys.filter (prefixMatch pre)

def get (s : ObjectStore) (p : Path) : Except Error Bytes :=
  match s[p]? with
  | some b => .ok b
  | none => .error .notFound

def answer (s : ObjectStore) (p : Path) : ReadFate → Except Error (Except Error Bytes)
  | .served => (s.get p).map .ok
  | .refused e => .error e
  | .cut e => (s.get p).map (fun _ => .error e)

end ObjectStore

structure Put where
  path : Path
  payload : Bytes
  fate : Fate

namespace ObjectStore

def puts (s : ObjectStore) (ps : List Put) : ObjectStore :=
  ps.foldl (fun s p => (s.putOpts p.path p.payload p.fate).1) s

theorem getElem?_puts {s : ObjectStore} {k : Path} {b : Bytes} (h : s[k]? = some b) (ps : List Put) :
    (s.puts ps)[k]? = some b := by
  induction ps generalizing s with
  | nil => exact h
  | cons p ps ih => exact ih (getElem?_putOpts h p.path p.payload p.fate)

end ObjectStore

end S2c
