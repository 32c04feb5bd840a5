import DurableObjects.Sanity.Cluster
import DurableObjects.Sanity.Schedule

/-! No lost update. However many hosts serve an actor, and whatever is retried, delayed
or lost, each recorded version holds the outputs of one execution on the version
before it. -/

namespace LDO

/-- `snapshot` has the outputs of the one turn that wrote the object, on the state of version `v`. -/
def MadeByOne (D : Deployment) (w : World) (o : ActorStorageKey) (v : ℕ) (l : Location)
    (snapshot : StateSnapshot) : Prop :=
  ∃! t, Wrote w t l ∧ ∃ h call state effects, w.calls t = some (h, call) ∧ call.request.object = o ∧
    StateAt D w o v state ∧ call.request.RanOnce state snapshot.result snapshot.state effects (w.trace t) ∧
    D.Runs call.request state snapshot.result snapshot.state effects

/-- What the first call of the gauge is recorded as, and what that is read as. -/
def gaugeSnapshot (n : Number) : StateSnapshot := ⟨1, 1, "request-1", .obj [("value", .num n)], .num n⟩

theorem gaugeSnapshot_valid {n : Number} (h : n = low ∨ n = high) : (gaugeSnapshot n).validate = .ok () := by
  rcases h with rfl | rfl <;> decide +kernel

theorem gaugeSnapshot_readAgain :
    StateSnapshot.ReadAgain dividingSerde (gaugeSnapshot low) (gaugeSnapshot high) := by
  simp only [gaugeSnapshot]
  refine ⟨rfl, rfl, rfl, ?_, ?_⟩ <;> decide +kernel

end LDO
