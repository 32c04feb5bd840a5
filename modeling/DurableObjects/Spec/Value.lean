import DurableObjects.Spec.Basic
import DurableObjects.Lib.JsonString

/-! `serde_json::Value` and its text. A number is kept as the text it is printed as,
so that nothing is assumed about floating point; what `serde_json` makes of a
number literal, and how deep it reads, is a parameter. -/

namespace LDO

open Json

def isNumberLiteral : List Char → Bool
  | [] => false
  | c :: cs => startsNumber c && (c :: cs).all isNumberChar

structure Number where
  text : List Char
  literal : isNumberLiteral text = true
  deriving DecidableEq

theorem isNumberLiteral_digits (n : ℕ) : isNumberLiteral (Nat.toDigits 10 n) = true := by
  have hdigit : ∀ c ∈ Nat.toDigits 10 n, c.isDigit = true :=
    fun c hc => Nat.isDigit_of_mem_toDigits (by decide) (by decide) hc
  cases h : Nat.toDigits 10 n with
  | nil => exact absurd h Nat.toDigits_ne_nil
  | cons c cs =>
    rw [h] at hdigit
    simp only [isNumberLiteral, Bool.and_eq_true, List.all_eq_true]
    refine ⟨by simp [startsNumber, hdigit c (by simp)], fun d hd => ?_⟩
    simp [isNumberChar, hdigit d hd]

/-- An unsigned integer, as `serde_json` prints it. -/
def Number.ofNat (n : ℕ) : Number := ⟨Nat.toDigits 10 n, isNumberLiteral_digits n⟩

/-- `Number::as_u64` -/
def Number.asU64 (n : Number) : Option ℕ :=
  if n.text.all Char.isDigit then
    let value := Nat.ofDigitChars 10 n.text 0
    if value ≤ u64Max then some value else none
  else none

abbrev Value := Json String Number

/-- `serde_json` as a reader: integers are read exactly, anything else as it may. -/
structure SerdeJson extends Json.Reader Number where
  integers : ∀ n ≤ u64Max, number (Nat.toDigits 10 n) = some (.ofNat n)

/-- How `serde_json` prints strings and numbers. -/
def serdeWriter : Json.Writer String Number where
  quote s := quoteChars s.toList
  digits n := n.text
  text s := some s.toList
  quote_read s rest := quoteChars_read s.toList rest
  digits_literal n := by
    rcases n with ⟨_ | ⟨c, cs⟩, h⟩
    · cases h
    · simp only [isNumberLiteral, Bool.and_eq_true] at h
      exact ⟨c, cs, rfl, h.1, h.2⟩

/-- `serde_json::to_vec` -/
def toVec (v : Value) : ByteArray := (String.ofList (serdeWriter.print v)).toUTF8

/-! A `Map` is a `BTreeMap`: sorted by key, and the last of two equal keys stays. -/

def insertField {α : Type} (key : String) (v : α) : List (String × α) → List (String × α)
  | [] => [(key, v)]
  | (k, w) :: fields =>
    if key < k then (key, v) :: (k, w) :: fields
    else if key = k then (key, v) :: fields
    else (k, w) :: insertField key v fields

mutual
/-- The `Value` a document tree is read as. -/
def toValue : Value → Value
  | .arr vs => .arr (toValueItems vs)
  | .obj fs => .obj (toValueFields fs [])
  | v => v

def toValueItems : List Value → List Value
  | [] => []
  | v :: vs => toValue v :: toValueItems vs

def toValueFields : List (String × Value) → List (String × Value) → List (String × Value)
  | [], map => map
  | (k, v) :: fs, map => toValueFields fs (insertField k (toValue v) map)
end

/-- `serde_json::from_slice`, up to the type that is read -/
def fromSlice (serde : SerdeJson) (bytes : ByteArray) : Option Value :=
  match String.fromUTF8? bytes with
  | none => none
  | some s => Json.read serde.toReader s.toList

/-- A field of a derived `Deserialize`: present exactly once. -/
def field (fields : List (String × Value)) (name : String) : Option Value :=
  match fields.filter fun f => f.1 = name with
  | [f] => some f.2
  | _ => none

def asU64 : Value → Option ℕ
  | .num n => n.asU64
  | _ => none

def asString : Value → Option String
  | .str s => some s
  | _ => none

def isObject : Value → Bool
  | .obj _ => true
  | _ => false

mutual
/-- `v` with at most `depth` brackets open at once, every number read back exactly. -/
def Readable (serde : SerdeJson) : ℕ → Value → Prop
  | _, .num n => serde.number n.text = some n
  | 0, .arr _ => False
  | depth + 1, .arr vs => ReadableItems serde depth vs
  | 0, .obj _ => False
  | depth + 1, .obj fs => (fs.map Prod.fst).Pairwise (· < ·) ∧ ReadableFields serde depth fs
  | _, _ => True

def ReadableItems (serde : SerdeJson) : ℕ → List Value → Prop
  | _, [] => True
  | depth, v :: vs => Readable serde depth v ∧ ReadableItems serde depth vs

def ReadableFields (serde : SerdeJson) : ℕ → List (String × Value) → Prop
  | _, [] => True
  | depth, (_, v) :: fs => Readable serde depth v ∧ ReadableFields serde depth fs
end

end LDO
