import Mathlib.Data.List.Basic

/-! JSON trees, their compact text, and a strict reader of that text. The tree is
over any type of strings and of numbers: one side of a wire may hold UTF-16
strings and doubles where the other holds Unicode strings and its own numbers. -/

inductive Json (σ ν : Type) where
  | null
  | bool (b : Bool)
  | num (n : ν)
  | str (s : σ)
  | arr (items : List (Json σ ν))
  | obj (fields : List (σ × Json σ ν))
  deriving Repr

namespace Json

variable {σ ν σ' ν' : Type}

section Eq

variable [DecidableEq σ] [DecidableEq ν]

mutual
def beq : Json σ ν → Json σ ν → Bool
  | .null, .null => true
  | .bool a, .bool b => a == b
  | .num a, .num b => decide (a = b)
  | .str a, .str b => decide (a = b)
  | .arr a, .arr b => beqItems a b
  | .obj a, .obj b => beqFields a b
  | _, _ => false

def beqItems : List (Json σ ν) → List (Json σ ν) → Bool
  | [], [] => true
  | a :: as, b :: bs => beq a b && beqItems as bs
  | _, _ => false

def beqFields : List (σ × Json σ ν) → List (σ × Json σ ν) → Bool
  | [], [] => true
  | a :: as, b :: bs => decide (a.1 = b.1) && beq a.2 b.2 && beqFields as bs
  | _, _ => false
end

mutual
theorem beq_iff : ∀ a b : Json σ ν, beq a b = true ↔ a = b
  | .null, b => by cases b <;> simp [beq]
  | .bool _, b => by cases b <;> simp [beq]
  | .num _, b => by cases b <;> simp [beq]
  | .str _, b => by cases b <;> simp [beq]
  | .arr as, b => by cases b <;> simp [beq, beqItems_iff as]
  | .obj as, b => by cases b <;> simp [beq, beqFields_iff as]

theorem beqItems_iff : ∀ as bs : List (Json σ ν), beqItems as bs = true ↔ as = bs
  | [], bs => by cases bs <;> simp [beqItems]
  | a :: as, bs => by cases bs <;> simp [beqItems, beq_iff a, beqItems_iff as]

theorem beqFields_iff : ∀ as bs : List (σ × Json σ ν), beqFields as bs = true ↔ as = bs
  | [], bs => by cases bs <;> simp [beqFields]
  | (k, a) :: as, bs => by
    rcases bs with _ | ⟨⟨l, b⟩, bs⟩ <;> simp [beqFields, beq_iff a, beqFields_iff as, and_assoc]
end

instance : DecidableEq (Json σ ν) := fun a b => decidable_of_iff _ (beq_iff a b)

end Eq

/-! ### Text -/

section Print

variable (quote : σ → List Char) (digits : ν → List Char)

mutual
def print : Json σ ν → List Char
  | .null => ['n', 'u', 'l', 'l']
  | .bool true => ['t', 'r', 'u', 'e']
  | .bool false => ['f', 'a', 'l', 's', 'e']
  | .num n => digits n
  | .str s => quote s
  | .arr [] => ['[', ']']
  | .arr (v :: vs) => '[' :: (print v ++ printItems vs)
  | .obj [] => ['\x7b', '\x7d']
  | .obj ((k, v) :: fs) => '\x7b' :: (quote k ++ ':' :: (print v ++ printFields fs))

/-- The items after the first one, with the bracket that closes them. -/
def printItems : List (Json σ ν) → List Char
  | [] => [']']
  | v :: vs => ',' :: (print v ++ printItems vs)

def printFields : List (σ × Json σ ν) → List Char
  | [] => ['\x7d']
  | (k, v) :: fs => ',' :: (quote k ++ ':' :: (print v ++ printFields fs))
end

end Print

def hexDigit (n : ℕ) : Char := if n < 10 then Char.ofNat (48 + n) else Char.ofNat (87 + n)

/-- Four lower-case hexadecimal digits. -/
def hex4 (n : ℕ) : List Char :=
  [hexDigit (n / 4096 % 16), hexDigit (n / 256 % 16), hexDigit (n / 16 % 16), hexDigit (n % 16)]

/-- A character inside a string literal. -/
def escapeChar (c : Char) : List Char :=
  if c = '"' then ['\\', '"']
  else if c = '\\' then ['\\', '\\']
  else if c = '\x08' then ['\\', 'b']
  else if c = '\x09' then ['\\', 't']
  else if c = '\x0a' then ['\\', 'n']
  else if c = '\x0c' then ['\\', 'f']
  else if c = '\x0d' then ['\\', 'r']
  else if c.toNat < 0x20 then '\\' :: 'u' :: hex4 c.toNat
  else [c]

def quoteChars (cs : List Char) : List Char := '"' :: (cs.flatMap escapeChar ++ ['"'])

/-! ### Reading -/

def hexValue (c : Char) : Option ℕ :=
  let n := c.toNat
  if 48 ≤ n ∧ n ≤ 57 then some (n - 48)
  else if 97 ≤ n ∧ n ≤ 102 then some (n - 87)
  else if 65 ≤ n ∧ n ≤ 70 then some (n - 55)
  else none

def readHex4 (a b c d : Char) : Option ℕ := do
  let a ← hexValue a
  let b ← hexValue b
  let c ← hexValue c
  let d ← hexValue d
  return 4096 * a + 256 * b + 16 * c + d

def unescape (c : Char) : Option Char :=
  if c = '"' then some '"'
  else if c = '\\' then some '\\'
  else if c = '/' then some '/'
  else if c = 'b' then some '\x08'
  else if c = 'f' then some '\x0c'
  else if c = 'n' then some '\x0a'
  else if c = 'r' then some '\x0d'
  else if c = 't' then some '\x09'
  else none

def isHighSurrogate (n : ℕ) : Bool := 0xd800 ≤ n && n ≤ 0xdbff
def isLowSurrogate (n : ℕ) : Bool := 0xdc00 ≤ n && n ≤ 0xdfff

/-- The code point of a surrogate pair. -/
def joinSurrogates (high low : ℕ) : ℕ := 0x10000 + (high - 0xd800) * 0x400 + (low - 0xdc00)

/-- The rest of a string literal after its opening quote. A surrogate escape
without its other half is refused. -/
def readString : List Char → Option (List Char × List Char)
  | [] => none
  | '"' :: rest => some ([], rest)
  | '\\' :: 'u' :: a :: b :: c :: d :: rest =>
    match readHex4 a b c d with
    | none => none
    | some n =>
      if isLowSurrogate n then none
      else if isHighSurrogate n then
        match rest with
        | '\\' :: 'u' :: a' :: b' :: c' :: d' :: rest' =>
          match readHex4 a' b' c' d' with
          | none => none
          | some m =>
            if isLowSurrogate m then
              (readString rest').map fun p => (Char.ofNat (joinSurrogates n m) :: p.1, p.2)
            else none
        | _ => none
      else (readString rest).map fun p => (Char.ofNat n :: p.1, p.2)
  | '\\' :: c :: rest =>
    match unescape c with
    | none => none
    | some c => (readString rest).map fun p => (c :: p.1, p.2)
  | c :: rest =>
    if c.toNat < 0x20 then none else (readString rest).map fun p => (c :: p.1, p.2)

def isSpace (c : Char) : Bool := c == ' ' || c == '\x09' || c == '\x0a' || c == '\x0d'

def skipSpace (cs : List Char) : List Char := cs.dropWhile isSpace

def isNumberChar (c : Char) : Bool :=
  c.isDigit || c == '-' || c == '+' || c == '.' || c == 'e' || c == 'E'

/-- The first characters of a number literal. -/
def startsNumber (c : Char) : Bool := c.isDigit || c == '-'

end Json

/-- What a strict reader is free to choose: what it makes of a number literal, and
how many arrays and objects may be open at once. -/
structure Json.Reader (ν : Type) where
  number : List Char → Option ν
  maxDepth : ℕ

namespace Json

variable {ν : Type} (R : Reader ν)

mutual
/-- One value, with at most `depth` more brackets open. The first argument bounds
the number of nested calls. -/
def readValue : ℕ → ℕ → List Char → Option (Json String ν × List Char)
  | 0, _, _ => none
  | fuel + 1, depth, input =>
    match skipSpace input with
    | [] => none
    | c :: rest =>
      if c = '"' then (readString rest).map fun p => (.str (String.ofList p.1), p.2)
      else if c = '[' then
        match depth with
        | 0 => none
        | depth + 1 =>
          match skipSpace rest with
          | ']' :: rest => some (.arr [], rest)
          | rest => (readItems fuel depth rest).map fun p => (.arr p.1, p.2)
      else if c = '\x7b' then
        match depth with
        | 0 => none
        | depth + 1 =>
          match skipSpace rest with
          | '\x7d' :: rest => some (.obj [], rest)
          | rest => (readFields fuel depth rest).map fun p => (.obj p.1, p.2)
      else if startsNumber c then
        let literal := (c :: rest).takeWhile isNumberChar
        (R.number literal).map fun n => (.num n, (c :: rest).dropWhile isNumberChar)
      else
        match c, rest with
        | 'n', 'u' :: 'l' :: 'l' :: rest => some (.null, rest)
        | 't', 'r' :: 'u' :: 'e' :: rest => some (.bool true, rest)
        | 'f', 'a' :: 'l' :: 's' :: 'e' :: rest => some (.bool false, rest)
        | _, _ => none

def readItems : ℕ → ℕ → List Char → Option (List (Json String ν) × List Char)
  | 0, _, _ => none
  | fuel + 1, depth, input =>
    match readValue fuel depth input with
    | none => none
    | some (v, rest) =>
      match skipSpace rest with
      | ',' :: rest => (readItems fuel depth rest).map fun p => (v :: p.1, p.2)
      | ']' :: rest => some ([v], rest)
      | _ => none

def readFields : ℕ → ℕ → List Char → Option (List (String × Json String ν) × List Char)
  | 0, _, _ => none
  | fuel + 1, depth, input =>
    match skipSpace input with
    | '"' :: rest =>
      match readString rest with
      | none => none
      | some (k, rest) =>
        match skipSpace rest with
        | ':' :: rest =>
          match readValue fuel depth rest with
          | none => none
          | some (v, rest) =>
            match skipSpace rest with
            | ',' :: rest => (readFields fuel depth rest).map fun p => ((String.ofList k, v) :: p.1, p.2)
            | '\x7d' :: rest => some ([(String.ofList k, v)], rest)
            | _ => none
        | _ => none
    | _ => none
end

/-- A whole document: one value and white space. -/
def read (input : List Char) : Option (Json String ν) :=
  match readValue R (input.length + 1) R.maxDepth input with
  | some (v, rest) => if skipSpace rest = [] then some v else none
  | none => none

end Json
