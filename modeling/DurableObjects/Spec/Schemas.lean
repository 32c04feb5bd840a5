import Mathlib.Algebra.GroupWithZero.Nat
import DurableObjects.Lib.JsonString
import DurableObjects.Spec.Wire

/-! The schemas with which the package checks what it is sent. All of it was written by the host, so
no string has an unpaired surrogate and strings are Unicode text here; a number is kept as the text
`JSON.stringify` prints for it. -/

namespace LDO

open Json

def maxSafeInteger : ℕ := 2 ^ 53 - 1

/-- `JSON.parse` as a reader: integers that a double holds are read exactly, anything else as it may. -/
structure JsonParse extends Json.Reader Number where
  integers : ∀ n ≤ maxSafeInteger, number (Nat.toDigits 10 n) = some (.ofNat n)

/-- `JSON.parse(Buffer.from(bytes).toString("utf8"))` -/
def jsonParse (parser : JsonParse) (bytes : ByteArray) : Option Value :=
  match String.fromUTF8? bytes with
  | none => none
  | some s => Json.read parser.toReader s.toList

/-- `JSON.stringify(value)`. Of two equal keys the last stays; the order of the keys does not change the length. -/
def jsonStringify (v : Value) : ByteArray := toVec (toValue v)

/-- `value.length` -/
def utf16Length (s : String) : ℕ := (s.toList.flatMap unitsOfChar).length

/-! ### Parts -/

abbrev Schema := Value → Bool

def stringSchema (check : String → Bool) : Schema
  | .str s => check s
  | _ => false

def literal (text : String) : Schema := stringSchema fun s => s = text

def safeDigits (digits : List Char) : Option ℕ :=
  let value := Nat.ofDigitChars 10 digits 0
  if digits ≠ [] ∧ digits.all Char.isDigit ∧ value ≤ maxSafeInteger then some value else none

/-- The integer that is printed as this text, if it is a safe one. -/
def Number.asSafeInteger (n : Number) : Option ℤ :=
  match n.text with
  | '-' :: digits => (safeDigits digits).map fun value => -(value : ℤ)
  | digits => (safeDigits digits).map fun value => (value : ℤ)

/-- `z.number().int()` with a further check -/
def intSchema (check : ℤ → Bool) : Schema
  | .num n => n.asSafeInteger.any check
  | _ => false

def arraySchema (item : Schema) : Schema
  | .arr vs => vs.all item
  | _ => false

/-- The field that `JSON.parse` leaves under a name. -/
def member (fields : List (String × Value)) (name : String) : Option Value :=
  (fields.filter fun f => f.1 = name).getLast?.map Prod.snd

def required (schema : Schema) : Option Value → Bool := Option.any schema

def objectSchema (shape : List (String × (Option Value → Bool))) : Schema
  | .obj fields => shape.all fun f => f.2 (member fields f.1)
  | _ => false

/-- `z.discriminatedUnion`: the options differ in their tag. -/
def oneOf (options : List Schema) : Schema := fun v => options.any fun schema => schema v

/-! ### Values -/

/-- `/^[A-Za-z0-9._-]+$/u` -/
def isActorComponent (s : String) : Bool := s ≠ "" && s.toList.all isComponentChar

/-- Any value that `JSON.parse` gives -/
def jsonValueSchema : Schema := fun _ => true

def socketConnectionIdSchema : Schema := stringSchema fun s => isActorComponent s && utf16Length s ≤ 128

def socketMetadataSchema : Schema := fun v => jsonValueSchema v && (jsonStringify v).size ≤ 64 * 1024

def socketTagSchema : Schema := stringSchema fun s => 1 ≤ utf16Length s && utf16Length s ≤ 256

def tagBytes : Value → ℕ
  | .str tag => tag.utf8ByteSize
  | _ => 0

def socketTagsSchema : Schema
  | .arr tags => tags.all socketTagSchema && tags.length ≤ 128 && (tags.map tagBytes).sum ≤ 8 * 1024
  | _ => false

def socketTextSchema : Schema := stringSchema fun s => s.utf8ByteSize ≤ 16 * 1024 * 1024

def isBase64Char (c : Char) : Bool := c.isAlphanum || c == '+' || c == '/'

/-- `/^(?:[A-Za-z0-9+/]{4})*(?:[A-Za-z0-9+/]{2}==|[A-Za-z0-9+/]{3}=)?$/u` -/
def isBase64 : List Char → Bool
  | [] => true
  | [a, b, '=', '='] => isBase64Char a && isBase64Char b
  | [a, b, c, '='] => isBase64Char a && isBase64Char b && isBase64Char c
  | a :: b :: c :: d :: rest => isBase64Char a && isBase64Char b && isBase64Char c && isBase64Char d && isBase64 rest
  | _ => false

/-- `Buffer.byteLength(value, "base64")` -/
def base64ByteLength (cs : List Char) : ℕ :=
  let bytes := if cs.getLast? = some '=' then cs.dropLast else cs
  let bytes := if 1 < bytes.length ∧ bytes.getLast? = some '=' then bytes.dropLast else bytes
  bytes.length * 3 / 4

def socketBinarySchema : Schema :=
  stringSchema fun s => isBase64 s.toList && base64ByteLength s.toList ≤ 16 * 1024 * 1024

def socketCloseCodeSchema : Schema := intSchema fun code => code = 1000 || (3000 ≤ code && code ≤ 4999)

def socketCloseReasonSchema : Schema := stringSchema fun reason => reason.utf8ByteSize ≤ 123

/-! ### Documents -/

def socketMessageSchema : Schema :=
  oneOf [objectSchema [("type", required (literal "text")), ("data", required socketTextSchema)],
    objectSchema [("type", required (literal "binary")), ("data", required socketBinarySchema)]]

def socketEffectSchema : Schema :=
  oneOf [
    objectSchema [("type", required (literal "send")), ("connection_id", required socketConnectionIdSchema),
      ("message", required socketMessageSchema)],
    objectSchema [("type", required (literal "broadcast")), ("message", required socketMessageSchema),
      ("except_connection_ids", required fun v => arraySchema socketConnectionIdSchema v && arrayLength v ≤ 128),
      ("tags", required socketTagsSchema)],
    objectSchema [("type", required (literal "close")), ("connection_id", required socketConnectionIdSchema),
      ("code", required socketCloseCodeSchema), ("reason", required socketCloseReasonSchema)],
    objectSchema [("type", required (literal "reject")), ("connection_id", required socketConnectionIdSchema),
      ("code", required socketCloseCodeSchema), ("reason", required socketCloseReasonSchema)],
    objectSchema [("type", required (literal "set_metadata")), ("connection_id", required socketConnectionIdSchema),
      ("metadata", required socketMetadataSchema)],
    objectSchema [("type", required (literal "set_tags")), ("connection_id", required socketConnectionIdSchema),
      ("tags", required socketTagsSchema)]]
where
  arrayLength : Value → ℕ
    | .arr vs => vs.length
    | _ => 0

/-- `socketEffectsSchema`; `parseSocketEffects` throws if it fails. -/
def parseSocketEffects : Schema := arraySchema socketEffectSchema

end LDO
