import DurableObjects.Spec.Value

/-! The immutable snapshot an actor state is stored as. -/

namespace LDO

def maxActorStateBytes : ℕ := 16 * 1024 * 1024

structure StateSnapshot where
  stateVersion : ℕ
  ownerEpoch : ℕ
  requestId : String
  state : Value
  result : Value
  deriving DecidableEq

namespace StateSnapshot

def validate (snapshot : StateSnapshot) : Result Unit := do
  ensure (0 < snapshot.stateVersion) "actor state version must be positive"
  ensure (0 < snapshot.ownerEpoch) "owner epoch must be positive"
  ensure (snapshot.requestId ≠ "" ∧ snapshot.requestId.utf8ByteSize ≤ 255) "actor state request ID is invalid"
  ensure (isObject snapshot.state) "actor state must be a JSON object"
  ensure ((toVec snapshot.state).size ≤ maxActorStateBytes)
    ("actor state exceeds the " ++ toString maxActorStateBytes ++ "-byte limit")

def new (stateVersion ownerEpoch : ℕ) (requestId : String) (state result : Value) : Result StateSnapshot := do
  let snapshot : StateSnapshot := ⟨stateVersion, ownerEpoch, requestId, state, result⟩
  snapshot.validate
  pure snapshot

def toJson (snapshot : StateSnapshot) : Value :=
  .obj [("stateVersion", .num (.ofNat snapshot.stateVersion)), ("ownerEpoch", .num (.ofNat snapshot.ownerEpoch)),
    ("requestId", .str snapshot.requestId), ("state", snapshot.state), ("result", snapshot.result)]

def ofJson : Value → Option StateSnapshot
  | .obj fields => do
    let stateVersion ← (field fields "stateVersion").bind asU64
    let ownerEpoch ← (field fields "ownerEpoch").bind asU64
    let requestId ← (field fields "requestId").bind asString
    let state ← field fields "state"
    let result ← field fields "result"
    return ⟨stateVersion, ownerEpoch, requestId, toValue state, toValue result⟩
  | _ => none

def encode (snapshot : StateSnapshot) : Result ByteArray := do
  snapshot.validate
  pure (toVec snapshot.toJson)

/-- `serde_json`'s own message is left out of the error. -/
def decode (serde : SerdeJson) (bytes : ByteArray) : Result StateSnapshot := do
  let snapshot ← orContext ((fromSlice serde bytes).bind ofJson) "decode actor state snapshot"
  snapshot.validate
  pure snapshot

end StateSnapshot

end LDO
