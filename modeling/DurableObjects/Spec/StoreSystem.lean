import DurableObjects.Spec.Placement
import DurableObjects.Lib.Runs

/-! The placement and lease stores under load. Any number of calls are in
progress at once and interleave at their statements. A call may arrive with any
arguments at any time and any number of times, so a duplicated, delayed or
reordered request is one more arrival; a lost one is a call that is dropped. -/

namespace LDO

/-- What a placement row says about the state of its object. -/
structure Head where
  stateVersion : ℕ
  stateObject : Option String
  requestId : Option String
  deriving DecidableEq, Repr

def PlacementRow.head (row : PlacementRow) : Head :=
  ⟨row.stateVersion, row.stateObject, row.lastRequestId⟩

/-- The head history grows when, and only when, the version in the row changes. -/
def recordHead (old new : Option PlacementRow) (heads : List Head) : List Head :=
  match new with
  | none => heads
  | some row =>
    if row.stateVersion = (old.map (·.stateVersion)).getD 0 then heads else heads ++ [row.head]

/-- The database with the history of the heads it has recorded. -/
structure Store where
  db : Database
  heads : ActorStorageKey → List Head

def Store.empty : Store := ⟨.empty, fun _ => []⟩

def Store.write (st : Store) (db : Database) : Store :=
  ⟨db, fun object => recordHead (st.db.placements object) (db.placements object) (st.heads object)⟩

inductive StoreCall where
  | get (object : ActorStorageKey)
  | claim (object : ActorStorageKey) (expected : Option ObjectPlacement) (owner : HostId)
      (homeRegion : String)
  | commitState (request : StateCommitRequest)
  | register (request : HostLeaseRequest)
  | unregister (id : HostId) (sessionId : String)
  | leaseStatus (id : HostId)

inductive StoreAnswer where
  | get (r : Result (Option ObjectPlacement))
  | claim (r : Result PlacementClaim)
  | commitState (r : Result StateCommit)
  | register (r : Result HostLease)
  | unregister (r : Result Unit)
  | leaseStatus (r : Result HostLeaseStatus)

def StoreCall.program : StoreCall → StoreM StoreAnswer
  | .get object => .get <$> PostgresObjectPlacementStore.get object
  | .claim object expected owner homeRegion =>
    .claim <$> PostgresObjectPlacementStore.claim object expected owner homeRegion
  | .commitState request => .commitState <$> PostgresObjectPlacementStore.commitState request
  | .register request => .register <$> PostgresHostLeaseStore.register request
  | .unregister id sessionId => .unregister <$> PostgresHostLeaseStore.unregister id sessionId
  | .leaseStatus id => .leaseStatus <$> PostgresHostLeaseStore.leaseStatus id

structure StoreState where
  store : Store
  calls : ℕ → Option (StoreCall × StoreM StoreAnswer)

inductive StoreEvent where
  | arrive (i : ℕ) (call : StoreCall)
  | statement (i : ℕ) (sql : Sql)
  | answer (i : ℕ) (call : StoreCall) (answer : StoreAnswer)
  | drop (i : ℕ)
  | tick (nowMs : ℕ)

inductive StoreStep : StoreState → StoreEvent → StoreState → Prop
  | arrive {s : StoreState} {i : ℕ} (call : StoreCall) : s.calls i = none →
      StoreStep s (.arrive i call) { s with calls := Function.update s.calls i (some (call, call.program)) }
  | statement {s : StoreState} {i : ℕ} {call : StoreCall} {sql : Sql}
      {next : Result sql.Rows → StoreM StoreAnswer} {r : Result sql.Rows} {db : Database} :
      s.calls i = some (call, .call sql next) → sql.Answers s.store.db r db →
      StoreStep s (.statement i sql)
        ⟨s.store.write db, Function.update s.calls i (some (call, next r))⟩
  | answer {s : StoreState} {i : ℕ} {call : StoreCall} {answer : StoreAnswer} :
      s.calls i = some (call, .ret answer) →
      StoreStep s (.answer i call answer) { s with calls := Function.update s.calls i none }
  | drop {s : StoreState} (i : ℕ) :
      StoreStep s (.drop i) { s with calls := Function.update s.calls i none }
  | tick {s : StoreState} {nowMs : ℕ} : s.store.db.nowMs ≤ nowMs →
      StoreStep s (.tick nowMs) { s with store := s.store.write { s.store.db with nowMs := nowMs } }

def storeSystem : System StoreState StoreEvent where
  init s := s = ⟨.empty, fun _ => none⟩
  step := StoreStep

end LDO
