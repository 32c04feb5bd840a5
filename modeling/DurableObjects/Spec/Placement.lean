import DurableObjects.Spec.Database

/-! `PostgresObjectPlacementStore` and `PostgresHostLeaseStore`: the statements
each call sends and what it makes of the rows. -/

namespace LDO

open Prog

structure ObjectPlacement where
  object : ActorStorageKey
  owner : HostId
  ownerEpoch : ℕ
  homeRegion : String
  stateVersion : ℕ
  stateObject : Option String
  lastRequestId : Option String
  deriving DecidableEq, Repr

inductive PlacementClaim where
  | acquired (placement : ObjectPlacement)
  | current (placement : ObjectPlacement)
  deriving DecidableEq, Repr

inductive StateCommit where
  | committed (placement : ObjectPlacement)
  | current (placement : ObjectPlacement)
  deriving DecidableEq, Repr

def placementFromRow (object : ActorStorageKey) (row : PlacementRow) : ObjectPlacement :=
  ⟨object, row.ownerHostId, row.ownerEpoch, row.homeRegion, row.stateVersion, row.stateObject,
    row.lastRequestId⟩

def isRegionChar (c : Char) : Bool :=
  c.isLower || c.isDigit || c == '.' || c == '_' || c == '-'

def validateRegion (region : String) : Result Unit :=
  ensure (region ≠ "" ∧ region.utf8ByteSize ≤ 64 ∧ region.toList.all isRegionChar)
    "sandbox region is invalid"

def validateStateCommit (request : StateCommitRequest) : Result Unit := do
  request.object.validate
  ensure (request.owner.id ≠ "") "state commit owner is empty"
  ensure (request.sessionId ≠ "") "state commit session is empty"
  ensure (0 < request.ownerEpoch) "state commit owner epoch must be positive"
  ensure (request.stateObject ≠ "" ∧ request.stateObject.utf8ByteSize ≤ 1024)
    "state commit object name is invalid"
  ensure (request.requestId ≠ "" ∧ request.requestId.utf8ByteSize ≤ 255)
    "state commit request ID is invalid"

def isReplayedCommit (current : ObjectPlacement) (request : StateCommitRequest) : Bool :=
  decide (current.stateVersion = saturatingAdd request.expectedVersion 1) &&
    decide (current.stateObject = some request.stateObject) &&
    decide (current.lastRequestId = some request.requestId)

namespace PostgresObjectPlacementStore

def get (object : ActorStorageKey) : StoreM (Result (Option ObjectPlacement)) := do
  match ← perform (Sql.selectPlacement object) with
  | .error e => pure (.error (e.context "load PostgreSQL object placement"))
  | .ok row => pure (.ok (Option.map (placementFromRow object) row))

def currentClaim (object : ActorStorageKey) : StoreM (Result PlacementClaim) := do
  match ← get object with
  | .error e => pure (.error e)
  | .ok placement =>
    pure (orContext (placement.map .current) "object placement disappeared during claim")

def claim (object : ActorStorageKey) (expected : Option ObjectPlacement) (owner : HostId)
    (homeRegion : String) : StoreM (Result PlacementClaim) :=
  match (do object.validate; validateRegion homeRegion : Result Unit) with
  | .error e => pure (.error e)
  | .ok () =>
    match expected with
    | none => do
      match ← perform (Sql.insertPlacement object owner homeRegion) with
      | .error e => pure (.error (e.context "insert PostgreSQL object placement"))
      | .ok (some row) => pure (.ok (.acquired (placementFromRow object row)))
      | .ok none => currentClaim object
    | some expected =>
      match (do
        ensure (expected.object = object ∧ expected.homeRegion = homeRegion)
          "expected object placement does not match the claim" : Result Unit) with
      | .error e => pure (.error e)
      | .ok () =>
        if expected.owner = owner then currentClaim object
        else
          match i64TryFrom expected.ownerEpoch "object owner epoch exceeds PostgreSQL BIGINT" with
          | .error e => pure (.error e)
          | .ok expectedEpoch => do
            match ← perform (Sql.claimPlacement object owner expected.owner expectedEpoch homeRegion) with
            | .error e => pure (.error (e.context "claim PostgreSQL object placement"))
            | .ok (some row) => pure (.ok (.acquired (placementFromRow object row)))
            | .ok none => currentClaim object

def commitState (request : StateCommitRequest) : StoreM (Result StateCommit) :=
  match (do
    validateStateCommit request
    let _ ← i64TryFrom request.ownerEpoch "object owner epoch exceeds PostgreSQL BIGINT"
    let _ ← i64TryFrom request.expectedVersion "actor state version exceeds PostgreSQL BIGINT"
    pure () : Result Unit) with
  | .error e => pure (.error e)
  | .ok () => do
    match ← perform (Sql.commitHead request) with
    | .error e => pure (.error (e.context "commit PostgreSQL actor state head"))
    | .ok (some row) => pure (.ok (.committed (placementFromRow request.object row)))
    | .ok none =>
      match ← get request.object with
      | .error e => pure (.error e)
      | .ok placement =>
        match orContext placement "actor placement disappeared during state commit" with
        | .error e => pure (.error e)
        | .ok current =>
          pure (.ok (if isReplayedCommit current request then .committed current else .current current))

end PostgresObjectPlacementStore

structure HostLease where
  id : HostId
  sessionId : String
  route : String
  expiresAtMs : ℕ
  deriving DecidableEq, Repr

structure HostLeaseStatus where
  lease : Option HostLease
  storeNowMs : ℕ
  deriving DecidableEq, Repr

def HostLeaseStatus.isActive (status : HostLeaseStatus) : Bool :=
  match status.lease with
  | some lease => decide (status.storeNowMs < lease.expiresAtMs)
  | none => false

def maxHostLeaseDurationMs : ℕ := 60000

def HostLeaseRequest.validateDuration (request : HostLeaseRequest) : Result Unit := do
  ensure (0 < request.durationMs) "host lease duration must be positive"
  ensure (request.durationMs ≤ maxHostLeaseDurationMs)
    ("host lease duration must not exceed " ++ toString maxHostLeaseDurationMs ++ "ms")

namespace PostgresHostLeaseStore

def register (request : HostLeaseRequest) : StoreM (Result HostLease) :=
  match request.validateDuration with
  | .error e => pure (.error e)
  | .ok () => do
    match ← perform (Sql.upsertLease request) with
    | .error e => pure (.error (e.context "register PostgreSQL host lease"))
    | .ok none => pure (.error (.new "host lease is held by a different active session"))
    | .ok (some expiresAtMs) =>
      pure (.ok ⟨request.id, request.sessionId, request.route, expiresAtMs⟩)

def unregister (id : HostId) (sessionId : String) : StoreM (Result Unit) := do
  match ← perform (Sql.deleteLease id sessionId) with
  | .error e => pure (.error (e.context "unregister PostgreSQL host lease"))
  | .ok _ => pure (.ok ())

def leaseStatus (id : HostId) : StoreM (Result HostLeaseStatus) := do
  match ← perform (Sql.selectLease id) with
  | .error e => pure (.error (e.context "read PostgreSQL host lease status"))
  | .ok (storeNowMs, lease) =>
    let lease := Option.map (fun row : LeaseRow => ⟨id, row.sessionId, row.route, row.expiresAtMs⟩) lease
    pure (.ok ⟨lease, storeNowMs⟩)

end PostgresHostLeaseStore

end LDO
