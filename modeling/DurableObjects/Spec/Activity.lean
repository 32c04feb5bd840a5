import DurableObjects.Lib.Holders
import DurableObjects.Lib.Runs

/-! The activity level of a host. A turn updates the counter when it begins and again when it
finishes, and after each update sends what it read to the watch channel. The process has
subscribed before the first turn, so that a send always stores its value. -/

namespace LDO

inductive ActivityPhase where
  | before
  /-- `begin_activity` has read `active` and not sent it. -/
  | beginning (active : ℕ)
  | running
  /-- `finish_activity` has read `active` and not sent it. -/
  | finishing (active : ℕ)
  | finished
  deriving DecidableEq

namespace ActivityPhase

/-- From the start's counter update to the end's. -/
def inProgress : ActivityPhase → Bool
  | .before => false
  | .beginning _ => true
  | .running => true
  | .finishing _ => false
  | .finished => false

/-- What a call between its counter update and its send is about to send. -/
def unsent : ActivityPhase → Option ℕ
  | .before => none
  | .beginning active => some active
  | .running => none
  | .finishing active => some active
  | .finished => none

end ActivityPhase

structure ActivityState (ι : Type) where
  active : ℕ
  /-- The value in the watch channel. -/
  activity : ℕ
  turns : ι → ActivityPhase

inductive ActivityEvent (ι : Type) where
  /-- `active.fetch_add(1)` -/
  | add (turn : ι)
  /-- `active.fetch_sub(1)` -/
  | sub (turn : ι)
  /-- `activity_tx.send(active)` -/
  | send (turn : ι)

variable {ι : Type} [DecidableEq ι]

namespace ActivityState

/-- `begin_activity` and `finish_activity`, half by half -/
def step (s : ActivityState ι) : ActivityEvent ι → Option (ActivityState ι)
  | .add turn =>
    match s.turns turn with
    | .before =>
      let active := s.active + 1
      some { s with active := active, turns := Function.update s.turns turn (.beginning active) }
    | _ => none
  | .sub turn =>
    match s.turns turn with
    | .running =>
      let active := s.active - 1
      some { s with active := active, turns := Function.update s.turns turn (.finishing active) }
    | _ => none
  | .send turn =>
    match s.turns turn with
    | .beginning active => some { s with activity := active, turns := Function.update s.turns turn .running }
    | .finishing active => some { s with activity := active, turns := Function.update s.turns turn .finished }
    | _ => none

/-- `*activity.borrow() == 0`: `wait_for_host_stop` lets the idle deadline run. -/
def idle (s : ActivityState ι) : Bool := s.activity == 0

/-- No call is between its counter update and its send. -/
def Settled (s : ActivityState ι) : Prop := ∀ turn, (s.turns turn).unsent = none

end ActivityState

def activitySystem (ι : Type) [DecidableEq ι] : System (ActivityState ι) (ActivityEvent ι) :=
  .ofStep (fun s => s = ⟨0, 0, fun _ => .before⟩) ActivityState.step

end LDO
