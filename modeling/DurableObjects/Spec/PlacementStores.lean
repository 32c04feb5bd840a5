import DurableObjects.Lib.Machine
import DurableObjects.Spec.Leases

/-! The two placement stores, one call at a time. The local store keeps the placements in
a map, under a mutex that makes a call one step; the PostgreSQL store runs the statements of
a call against the tables. -/

namespace LDO

inductive PlacementCall where
  | get (object : ActorStorageKey)
  | claim (object : ActorStorageKey) (expected : Option ObjectPlacement) (owner : HostId) (homeRegion : String)
  | commitState (request : StateCommitRequest)

inductive PlacementAnswer where
  | get (r : Result (Option ObjectPlacement))
  | claim (r : Result PlacementClaim)
  | commitState (r : Result StateCommit)
  deriving DecidableEq

/-- A call with the leases and the clock of the database when it is made. -/
structure PlacementMoment where
  leases : HostId → Option LeaseRow
  nowMs : ℕ
  call : PlacementCall

/-! ### The local store -/

namespace LocalObjectPlacementStore

abbrev Placements := ActorStorageKey → Option ObjectPlacement

def insert (placements : Placements) (placement : ObjectPlacement) : Placements :=
  Function.update placements placement.object (some placement)

def claim (placements : Placements) (object : ActorStorageKey) (expected : Option ObjectPlacement)
    (owner : HostId) (homeRegion : String) : Result (PlacementClaim × Placements) := do
  validateRegion homeRegion
  match placements object with
  | none =>
    if expected = none then do
      let placement : ObjectPlacement := ⟨object, owner, 1, homeRegion, 0, none, none⟩
      pure (.acquired placement, insert placements placement)
    else throw (.new "expected object placement no longer exists")
  | some current =>
    if expected = some current then do
      ensure (current.homeRegion = homeRegion) "object home region cannot change"
      if current.owner = owner then pure (.current current, placements)
      else do
        let ownerEpoch ← orContext (checkedAdd current.ownerEpoch 1) "object owner epoch overflow"
        let placement : ObjectPlacement :=
          ⟨object, owner, ownerEpoch, homeRegion, current.stateVersion, current.stateObject, current.lastRequestId⟩
        pure (.acquired placement, insert placements placement)
    else pure (.current current, placements)

def commitState (placements : Placements) (request : StateCommitRequest) :
    Result (StateCommit × Placements) := do
  validateStateCommit request
  let current ← orContext (placements request.object) "actor placement does not exist"
  if isReplayedCommit current request then pure (.committed current, placements)
  else if current.owner ≠ request.owner ∨ current.ownerEpoch ≠ request.ownerEpoch ∨
      current.stateVersion ≠ request.expectedVersion then pure (.current current, placements)
  else do
    let stateVersion ← orContext (checkedAdd current.stateVersion 1) "actor state version overflow"
    let committed : ObjectPlacement := { current with
      stateVersion := stateVersion, stateObject := some request.stateObject,
      lastRequestId := some request.requestId }
    pure (.committed committed, Function.update placements request.object (some committed))

/-- A call that fails has changed nothing. -/
def call (c : PlacementMoment) (placements : Placements) : PlacementAnswer × Placements :=
  match c.call with
  | .get object => (.get (.ok (placements object)), placements)
  | .claim object expected owner homeRegion =>
    match claim placements object expected owner homeRegion with
    | .ok (r, placements) => (.claim (.ok r), placements)
    | .error e => (.claim (.error e), placements)
  | .commitState request =>
    match commitState placements request with
    | .ok (r, placements) => (.commitState (.ok r), placements)
    | .error e => (.commitState (.error e), placements)

def store : Machine PlacementMoment PlacementAnswer Placements where
  init _ := none
  call := call

end LocalObjectPlacementStore

/-! ### PostgreSQL -/

namespace PostgresObjectPlacementStore

def program : PlacementCall → StoreM PlacementAnswer
  | .get object => .get <$> get object
  | .claim object expected owner homeRegion => .claim <$> claim object expected owner homeRegion
  | .commitState request => .commitState <$> commitState request

def store : Machine PlacementMoment PlacementAnswer Database where
  init := .empty
  call c db := runSql { db with leases := c.leases, nowMs := c.nowMs } (program c.call)

/-- The rows as placements. -/
def placements (db : Database) (object : ActorStorageKey) : Option ObjectPlacement :=
  (db.placements object).map (placementFromRow object)

end PostgresObjectPlacementStore

end LDO
