import Mathlib.Data.String.Basic

/-! Rust's error values and integer widths, and the two string newtypes the
runtime keys its records by. -/

namespace LDO

/-- An `anyhow::Error`: the message and the contexts wrapped around it, the
outermost first. -/
structure Error where
  chain : List String
  deriving DecidableEq, Repr

namespace Error

def new (message : String) : Error := ⟨[message]⟩

def context (e : Error) (c : String) : Error := ⟨c :: e.chain⟩

/-- `format!("{error:#}")` -/
def alternate (e : Error) : String := ": ".intercalate e.chain

end Error

abbrev Result (α : Type) := Except Error α

instance {α : Type} [DecidableEq α] : DecidableEq (Result α)
  | .ok a, .ok b => decidable_of_iff (a = b) (by simp)
  | .error e, .error f => decidable_of_iff (e = f) (by simp)
  | .ok _, .error _ => .isFalse nofun
  | .error _, .ok _ => .isFalse nofun

def ensure (p : Prop) [Decidable p] (message : String) : Result Unit :=
  if p then .ok () else .error (.new message)

theorem ensure_ok {p : Prop} [Decidable p] {message : String} :
    ensure p message = .ok () ↔ p := by
  unfold ensure; split_ifs with h <;> simp [h]

theorem ensure_ok_iff {p : Prop} [Decidable p] {message : String} {u : Unit} : ensure p message = .ok u ↔ p :=
  ensure_ok

/-- `if p { return Err(e) }` -/
def refuse {ε : Type} (p : Prop) [Decidable p] (e : ε) : Except ε Unit := if p then .error e else .ok ()

theorem refuse_ok {ε : Type} {p : Prop} [Decidable p] {e : ε} {u : Unit} : refuse p e = .ok u ↔ ¬ p := by
  unfold refuse; split_ifs with h <;> simp [h]

theorem bind_ok {ε α β : Type} {x : Except ε α} {f : α → Except ε β} {b : β} :
    (x >>= f) = .ok b ↔ ∃ a, x = .ok a ∧ f a = .ok b := by
  cases x with
  | error e => exact ⟨nofun, nofun⟩
  | ok a => exact ⟨fun h => ⟨a, rfl, h⟩, fun ⟨_, ha, h⟩ => by cases ha; exact h⟩

theorem mapError_ok {ε ε' α : Type} {x : Except ε α} {f : ε → ε'} {a : α} :
    x.mapError f = .ok a ↔ x = .ok a := by
  cases x <;> simp [Except.mapError]

/-- `.context(..)` on an `Option` -/
def orContext {α : Type} (o : Option α) (c : String) : Result α :=
  match o with
  | some a => .ok a
  | none => .error (.new c)

theorem orContext_ok {α : Type} {o : Option α} {c : String} {a : α} : orContext o c = .ok a ↔ o = some a := by
  cases o with
  | none => exact ⟨nofun, nofun⟩
  | some b => simp [orContext]

def withContext {α : Type} (r : Result α) (c : String) : Result α :=
  match r with
  | .ok a => .ok a
  | .error e => .error (e.context c)

def u64Max : ℕ := 2 ^ 64 - 1
def i64Max : ℕ := 2 ^ 63 - 1

/-- `u64::checked_add` -/
def checkedAdd (a b : ℕ) : Option ℕ := if a + b ≤ u64Max then some (a + b) else none

/-- `u64::saturating_add` -/
def saturatingAdd (a b : ℕ) : ℕ := min (a + b) u64Max

/-- `i64::try_from` of an unsigned value -/
def i64TryFrom (n : ℕ) (c : String) : Result ℕ :=
  if n ≤ i64Max then .ok n else .error (.new c)

theorem i64TryFrom_ok {n m : ℕ} {c : String} : i64TryFrom n c = .ok m ↔ n ≤ i64Max ∧ m = n := by
  unfold i64TryFrom; split_ifs with h <;> simp [h, eq_comm]

structure HostId where
  id : String
  deriving DecidableEq, Repr

/-- The string an actor's placement row, execution gate and cached state are
all filed under. -/
structure ActorStorageKey where
  id : String
  deriving DecidableEq, Repr

/-- `char::is_control`: general category Cc -/
def isControl (c : Char) : Bool := c.toNat < 0x20 || (0x7f ≤ c.toNat && c.toNat < 0xa0)

def ActorStorageKey.validate (key : ActorStorageKey) : Result Unit := do
  ensure (key.id ≠ "") "actor storage key must not be empty"
  ensure (key.id.utf8ByteSize ≤ 255) "actor storage key must be at most 255 bytes"
  ensure (key.id ≠ "." ∧ key.id ≠ "..") "actor storage key must not be a relative path component"
  ensure (¬ key.id.toList.any fun c => c == '/' || c == '\\' || isControl c)
    "actor storage key must not contain path separators or control characters"

end LDO
