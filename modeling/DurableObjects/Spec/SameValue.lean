import Mathlib.Data.Rat.Defs
import Mathlib.Algebra.Field.Rat
import DurableObjects.Spec.Session
import DurableObjects.Spec.Connection

/-! When a JavaScript value and a Rust value are the same JSON value. Strings have the
same characters, numbers the same decimal value, and objects the same fields in
whatever order. -/

namespace LDO

open Json

def decimalExponent : List Char → ℤ
  | '-' :: digits => -(Nat.ofDigitChars 10 digits 0 : ℕ)
  | '+' :: digits => (Nat.ofDigitChars 10 digits 0 : ℕ)
  | digits => (Nat.ofDigitChars 10 digits 0 : ℕ)

/-- The value of an unsigned number literal. -/
def unsignedDecimal (text : List Char) : ℚ :=
  let whole := text.takeWhile Char.isDigit
  let rest := text.dropWhile Char.isDigit
  let fraction := if rest.head? = some '.' then rest.tail.takeWhile Char.isDigit else []
  let rest := if rest.head? = some '.' then rest.tail.dropWhile Char.isDigit else rest
  let exponent := if rest = [] then 0 else decimalExponent rest.tail
  (Nat.ofDigitChars 10 (whole ++ fraction) 0 : ℕ) * 10 ^ (exponent - fraction.length)

def Number.value (n : Number) : ℚ :=
  if n.text.head? = some '-' then -unsignedDecimal n.text.tail else unsignedDecimal n.text

def SameString (s : Units) (t : String) : Prop := textOfUnits s = some t.toList

mutual
def SameValue : JsTree → Value → Prop
  | .null, v => v = .null
  | .bool b, v => v = .bool b
  | .num n, v => ∃ n', v = .num n' ∧ n'.value = n.value
  | .str s, v => ∃ t, v = .str t ∧ SameString s t
  | .arr items, v => ∃ items', v = .arr items' ∧ SameItems items items'
  | .obj fields, v => ∃ fields', v = .obj fields' ∧ fields'.length = fields.length ∧ SameFields fields fields'

def SameItems : List JsTree → List Value → Prop
  | [], items => items = []
  | v :: vs, items => ∃ v' vs', items = v' :: vs' ∧ SameValue v v' ∧ SameItems vs vs'

/-- Every field is there under its key. -/
def SameFields : List (Units × JsTree) → List (String × Value) → Prop
  | [], _ => True
  | (k, v) :: fs, fields => (∃ k' v', SameString k k' ∧ (k', v') ∈ fields ∧ SameValue v v') ∧
      SameFields fs fields
end

def SocketMessage.Same : SocketMessage → ActorSocketMessage → Prop
  | .text data, .text data' => SameString data data'
  | .binary data, .binary data' => SameString data data'
  | _, _ => False

def SocketEffect.Same : SocketEffect → ActorSocketEffect → Prop
  | .send id message, .send id' message' => SameString id id' ∧ message.Same message'
  | .broadcast message excepted tags, .broadcast message' excepted' tags' =>
    message.Same message' ∧ List.Forall₂ SameString excepted excepted' ∧ List.Forall₂ SameString tags tags'
  | .close id code reason, .close id' code' reason' =>
      SameString id id' ∧ code.code = code' ∧ SameString reason reason'
  | .reject id code reason, .reject id' code' reason' =>
      SameString id id' ∧ code.code = code' ∧ SameString reason reason'
  | .setMetadata id metadata, .setMetadata id' metadata' =>
      SameString id id' ∧ SameValue metadata.tree metadata'
  | .setTags id tags, .setTags id' tags' => SameString id id' ∧ List.Forall₂ SameString tags tags'
  | _, _ => False

def ActorExecutorReply.Same : ActorExecutorReply → ExecutorReply → Prop
  | .stateRequired, .stateRequired => True
  | .invoked result state effects, .invoked result' state' effects' =>
    SameValue result.tree result' ∧ SameValue state.tree state' ∧
    List.Forall₂ SocketEffect.Same effects effects'
  | .websocketHandled state effects, .websocketHandled state' effects' =>
    SameValue state.tree state' ∧ List.Forall₂ SocketEffect.Same effects effects'
  | .failed code message, .failed code' message' => SameString code code' ∧ SameString message message'
  | .evicted, .evicted => True
  | _, _ => False

/-- `serde_json` reads the number JavaScript prints, and reads it exactly. -/
def SerdeJson.Exact (serde : SerdeJson) (n : Number) : Prop :=
  ∃ n', serde.number n.text = some n' ∧ n'.value = n.value

/-- No unpaired surrogate. -/
def WellFormed (s : Units) : Prop := ∀ u, .inr u ∉ codePoints s

end LDO
