import Mathlib.Logic.Function.Basic
import DurableObjects.Spec.Basic
import DurableObjects.Lib.Program

/-! The two PostgreSQL tables behind placement and host leases, and the SQL
statements the stores send. `BIGINT` columns hold naturals below `2 ^ 63`: the
`CHECK` constraints keep them nonnegative and the server refuses to count past
the end. -/

namespace LDO

structure PlacementRow where
  ownerHostId : HostId
  ownerEpoch : ℕ
  homeRegion : String
  stateVersion : ℕ
  stateObject : Option String
  lastRequestId : Option String
  deriving DecidableEq, Repr

structure LeaseRow where
  sessionId : String
  route : String
  expiresAtMs : ℕ
  deriving DecidableEq, Repr

structure Database where
  placements : ActorStorageKey → Option PlacementRow
  leases : HostId → Option LeaseRow
  nowMs : ℕ

def Database.empty : Database := ⟨fun _ => none, fun _ => none, 0⟩

structure StateCommitRequest where
  object : ActorStorageKey
  owner : HostId
  sessionId : String
  ownerEpoch : ℕ
  expectedVersion : ℕ
  stateObject : String
  requestId : String
  deriving DecidableEq, Repr

structure HostLeaseRequest where
  id : HostId
  sessionId : String
  route : String
  durationMs : ℕ
  deriving DecidableEq, Repr

inductive Sql where
  | insertPlacement (object : ActorStorageKey) (owner : HostId) (homeRegion : String)
  | claimPlacement (object : ActorStorageKey) (owner expectedOwner : HostId) (expectedEpoch : ℕ)
      (homeRegion : String)
  | commitHead (request : StateCommitRequest)
  | selectPlacement (object : ActorStorageKey)
  | upsertLease (request : HostLeaseRequest)
  | deleteLease (id : HostId) (sessionId : String)
  | selectLease (id : HostId)
  deriving DecidableEq

@[reducible] def Sql.Rows : Sql → Type
  | .insertPlacement .. => Option PlacementRow
  | .claimPlacement .. => Option PlacementRow
  | .commitHead _ => Option PlacementRow
  | .selectPlacement _ => Option PlacementRow
  | .upsertLease _ => Option ℕ
  | .deleteLease .. => ℕ
  | .selectLease _ => ℕ × Option LeaseRow

/-- `column + 1` on a `BIGINT` -/
def bigintSucc (n : ℕ) : Result ℕ :=
  if n < i64Max then .ok (n + 1) else .error (.new "bigint out of range")

def Database.setPlacement (db : Database) (object : ActorStorageKey) (row : PlacementRow) : Database :=
  { db with placements := Function.update db.placements object (some row) }

/-- The rows of `lease` the commit statement joins with. -/
def Database.leaseHeld (db : Database) (host : HostId) (sessionId : String) : Prop :=
  ∃ lease, db.leases host = some lease ∧ lease.sessionId = sessionId ∧ db.nowMs < lease.expiresAtMs

instance (db : Database) (host : HostId) (sessionId : String) :
    Decidable (db.leaseHeld host sessionId) :=
  match h : db.leases host with
  | none => .isFalse fun ⟨_, hl, _⟩ => by simp [h] at hl
  | some lease => decidable_of_iff (lease.sessionId = sessionId ∧ db.nowMs < lease.expiresAtMs)
      ⟨fun hl => ⟨lease, h, hl⟩, fun ⟨_, hl, hr⟩ => by rw [h] at hl; cases hl; exact hr⟩

def commitMatches (db : Database) (row : PlacementRow) (request : StateCommitRequest) : Prop :=
  row.ownerHostId = request.owner ∧ row.ownerEpoch = request.ownerEpoch ∧
    row.stateVersion = request.expectedVersion ∧ db.leaseHeld row.ownerHostId request.sessionId

instance (db : Database) (row : PlacementRow) (request : StateCommitRequest) :
    Decidable (commitMatches db row request) := by
  unfold commitMatches; infer_instance

def Sql.run (db : Database) : (sql : Sql) → Result (sql.Rows × Database)
  | .insertPlacement object owner homeRegion =>
    match db.placements object with
    | some _ => .ok (none, db)
    | none =>
      let row : PlacementRow := ⟨owner, 1, homeRegion, 0, none, none⟩
      .ok (some row, db.setPlacement object row)
  | .claimPlacement object owner expectedOwner expectedEpoch homeRegion =>
    match db.placements object with
    | none => .ok (none, db)
    | some row =>
      if row.ownerHostId = expectedOwner ∧ row.ownerEpoch = expectedEpoch ∧
          row.homeRegion = homeRegion then
        match bigintSucc row.ownerEpoch with
        | .error e => .error e
        | .ok epoch =>
          let row := { row with ownerHostId := owner, ownerEpoch := epoch }
          .ok (some row, db.setPlacement object row)
      else .ok (none, db)
  | .commitHead request =>
    match db.placements request.object with
    | none => .ok (none, db)
    | some row =>
      if commitMatches db row request then
        match bigintSucc row.stateVersion with
        | .error e => .error e
        | .ok version =>
          let row := { row with stateVersion := version, stateObject := some request.stateObject,
                                lastRequestId := some request.requestId }
          .ok (some row, db.setPlacement request.object row)
      else .ok (none, db)
  | .selectPlacement object => .ok (db.placements object, db)
  | .upsertLease request =>
    let expires := db.nowMs + request.durationMs
    let row : LeaseRow := ⟨request.sessionId, request.route, expires⟩
    let db' := { db with leases := Function.update db.leases request.id (some row) }
    match db.leases request.id with
    | none => .ok (some expires, db')
    | some lease =>
      if lease.sessionId = request.sessionId ∨ lease.expiresAtMs ≤ db.nowMs then .ok (some expires, db')
      else .ok (none, db)
  | .deleteLease id sessionId =>
    match db.leases id with
    | none => .ok ((0 : ℕ), db)
    | some lease =>
      if lease.sessionId = sessionId then
        .ok ((1 : ℕ), { db with leases := Function.update db.leases id none })
      else .ok ((0 : ℕ), db)
  | .selectLease id => .ok ((db.nowMs, db.leases id), db)

/-- What a store can see of a statement: its rows, or an error of the server or
the connection, which leaves open whether the statement took effect. -/
inductive Sql.Answers (db : Database) (sql : Sql) : Result sql.Rows → Database → Prop
  | rows {rows : sql.Rows} {db' : Database} : sql.run db = .ok (rows, db') → Answers db sql (.ok rows) db'
  | failed (e : Error) : Answers db sql (.error e) db
  | lost {rows : sql.Rows} {db' : Database} (e : Error) :
      sql.run db = .ok (rows, db') → Answers db sql (.error e) db'

/-- Store code: each call is one statement, atomic in the database. -/
abbrev StoreM := Prog Sql fun sql => Result sql.Rows

end LDO
