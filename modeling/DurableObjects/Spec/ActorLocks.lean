import DurableObjects.Spec.Basic
import DurableObjects.Lib.Runs

/-! `ActorExecutionLocks`: one gate for each storage key, found through a weak reference and
created again when nobody holds it any more. A call is interrupted between any two of
the values it takes or drops; the map is locked for one step. Which of the waiting calls
gets the mutex is left open. -/

namespace LDO

def maxAdmittedInvocationsPerActor : ℕ := 33

/-- What a call owns: a strong reference to the gate, its mutex, one of its permits. -/
inductive GuardField where
  | gate
  | execution
  | admission
  deriving DecidableEq

structure ActorExecutionGate where
  /-- The strong count. -/
  strong : ℕ
  locked : Bool
  permits : ℕ

namespace ActorExecutionGate

/-- Memory that holds no gate. -/
def dead : ActorExecutionGate := ⟨0, false, maxAdmittedInvocationsPerActor⟩

def take (gate : ActorExecutionGate) : GuardField → ActorExecutionGate
  | .gate => { gate with strong := gate.strong + 1 }
  | .execution => { gate with locked := true }
  | .admission => { gate with permits := gate.permits - 1 }

/-- `drop` of one field -/
def release (gate : ActorExecutionGate) : GuardField → ActorExecutionGate
  | .gate => { gate with strong := gate.strong - 1 }
  | .execution => { gate with locked := false }
  | .admission => { gate with permits := gate.permits + 1 }

end ActorExecutionGate

inductive AdmitPhase where
  | idle
  /-- Has the gate, not yet a permit. -/
  | asking (key : ActorStorageKey) (gate : ℕ)
  /-- Awaits `lock_owned`. -/
  | waiting (key : ActorStorageKey) (gate : ℕ)
  /-- `Acquired` was returned, and the guard is not being dropped. -/
  | holding (key : ActorStorageKey) (gate : ℕ)
  /-- What is still to be dropped. -/
  | leaving (key : ActorStorageKey) (gate : ℕ) (fields : List GuardField)

namespace AdmitPhase

def key : AdmitPhase → Option ActorStorageKey
  | .idle => none
  | .asking key _ => some key
  | .waiting key _ => some key
  | .holding key _ => some key
  | .leaving key _ _ => some key

def gate : AdmitPhase → Option ℕ
  | .idle => none
  | .asking _ gate => some gate
  | .waiting _ gate => some gate
  | .holding _ gate => some gate
  | .leaving _ gate _ => some gate

def fields : AdmitPhase → List GuardField
  | .idle => []
  | .asking _ _ => [.gate]
  | .waiting _ _ => [.gate, .admission]
  | .holding _ _ => [.gate, .execution, .admission]
  | .leaving _ _ fields => fields

/-- A call waits or holds. -/
def admitted (key : ActorStorageKey) : AdmitPhase → Prop
  | .waiting key' _ => key' = key
  | .holding key' _ => key' = key
  | _ => False

end AdmitPhase

/-- The fields of `ActorExecutionGuard`, dropped in the order of their declaration. -/
def guardFields : List GuardField := [.gate, .execution, .admission]

/-- The locals of `admit` while it waits, dropped in reverse. -/
def waitingLocals : List GuardField := [.admission, .gate]

structure LocksState (ι : Type) where
  locks : ActorStorageKey → Option ℕ
  gates : ℕ → ActorExecutionGate
  created : ℕ
  calls : ι → AdmitPhase

namespace LocksState

variable {ι : Type} [DecidableEq ι] (s : LocksState ι)

/-- `locks.retain(|_, gate| gate.strong_count() > 0)`: only entries of dead gates are gone.
A gate that dies after `retain` has looked at it keeps its entry. -/
def Retained (locks : ActorStorageKey → Option ℕ) : Prop :=
  ∀ key, locks key = s.locks key ∨ locks key = none ∧ ∀ g, s.locks key = some g → (s.gates g).strong = 0

/-- `Weak::upgrade` -/
def upgrade (g : ℕ) : Option ℕ := if 0 < (s.gates g).strong then some g else none

def setCall (c : ι) (phase : AdmitPhase) (g : ℕ) (gate : ActorExecutionGate) : LocksState ι :=
  { s with calls := Function.update s.calls c phase, gates := Function.update s.gates g gate }

/-- `ActorExecutionLocks::gate`, from the retained map on -/
def gate (c : ι) (key : ActorStorageKey) (locks : ActorStorageKey → Option ℕ) : LocksState ι :=
  match (locks key).bind s.upgrade with
  | some g => { s.setCall c (.asking key g) g ((s.gates g).take .gate) with locks := locks }
  | none =>
    { s.setCall c (.asking key s.created) s.created (ActorExecutionGate.dead.take .gate) with
      locks := Function.update locks key (some s.created), created := s.created + 1 }

end LocksState

inductive LocksEvent (ι : Type) where
  | gate (c : ι) (key : ActorStorageKey)
  | permit (c : ι)
  | full (c : ι)
  | acquired (c : ι)
  | cancel (c : ι)
  | drop (c : ι)
  | dropField (c : ι)

def LocksEvent.call {ι : Type} : LocksEvent ι → ι
  | .gate c _ => c
  | .permit c => c
  | .full c => c
  | .acquired c => c
  | .cancel c => c
  | .drop c => c
  | .dropField c => c

variable {ι : Type} [DecidableEq ι]

inductive LocksStep : LocksState ι → LocksEvent ι → LocksState ι → Prop
  | gate {s : LocksState ι} {c : ι} {key : ActorStorageKey} {locks : ActorStorageKey → Option ℕ} :
      s.calls c = .idle → s.Retained locks → LocksStep s (.gate c key) (s.gate c key locks)
  /-- `try_acquire_owned` finds a permit. -/
  | permit {s : LocksState ι} {c : ι} {key : ActorStorageKey} {g : ℕ} : s.calls c = .asking key g →
      0 < (s.gates g).permits →
      LocksStep s (.permit c) (s.setCall c (.waiting key g) g ((s.gates g).take .admission))
  /-- It finds none: `Full` is returned, and the gate dropped. -/
  | full {s : LocksState ι} {c : ι} {key : ActorStorageKey} {g : ℕ} : s.calls c = .asking key g →
      (s.gates g).permits = 0 → LocksStep s (.full c) (s.setCall c (.leaving key g [.gate]) g (s.gates g))
  /-- `lock_owned` is ready: `Acquired` is returned. -/
  | acquired {s : LocksState ι} {c : ι} {key : ActorStorageKey} {g : ℕ} : s.calls c = .waiting key g →
      (s.gates g).locked = false →
      LocksStep s (.acquired c) (s.setCall c (.holding key g) g ((s.gates g).take .execution))
  /-- The future is dropped while it waits. -/
  | cancel {s : LocksState ι} {c : ι} {key : ActorStorageKey} {g : ℕ} : s.calls c = .waiting key g →
      LocksStep s (.cancel c) (s.setCall c (.leaving key g waitingLocals) g (s.gates g))
  /-- The guard's drop starts. -/
  | drop {s : LocksState ι} {c : ι} {key : ActorStorageKey} {g : ℕ} : s.calls c = .holding key g →
      LocksStep s (.drop c) (s.setCall c (.leaving key g guardFields) g (s.gates g))
  | dropField {s : LocksState ι} {c : ι} {key : ActorStorageKey} {g : ℕ} {field : GuardField}
      {fields : List GuardField} : s.calls c = .leaving key g (field :: fields) →
      LocksStep s (.dropField c) (s.setCall c (.leaving key g fields) g ((s.gates g).release field))

/-- `ActorExecutionLocks::new` -/
def LocksState.new : LocksState ι := ⟨fun _ => none, fun _ => .dead, 0, fun _ => .idle⟩

def locksSystem (ι : Type) [DecidableEq ι] : System (LocksState ι) (LocksEvent ι) where
  init s := s = .new
  step := LocksStep

end LDO
