import DurableObjects.Spec.Placement
import DurableObjects.Spec.Value

/-! The two host lease stores, one call at a time, and the lease table both are for.
The PostgreSQL store is one statement a call; the local store keeps each lease in a
file of its own, under a mutex that makes a call one step. The file system is a
parameter. -/

namespace LDO

inductive LeaseCall where
  | register (request : HostLeaseRequest)
  | unregister (id : HostId) (sessionId : String)
  | leaseStatus (id : HostId)

inductive LeaseAnswer where
  | register (r : Result HostLease)
  | unregister (r : Result Unit)
  | leaseStatus (r : Result HostLeaseStatus)
  deriving DecidableEq

def LeaseCall.host : LeaseCall → HostId
  | .register request => request.id
  | .unregister id _ => id
  | .leaseStatus id => id

/-- The session a call is made for. -/
def LeaseCall.session : LeaseCall → Option String
  | .register request => some request.sessionId
  | .unregister _ sessionId => some sessionId
  | .leaseStatus _ => none

def LeaseAnswer.failed : LeaseAnswer → Bool
  | .register (.error _) => true
  | .unregister (.error _) => true
  | .leaseStatus (.error _) => true
  | _ => false

/-- A call and what the store clock reads when it is made. -/
structure TimedCall where
  nowMs : ℕ
  call : LeaseCall

/-- The last reading of a PostgreSQL `timestamptz`, in the year 294276. -/
def lastTimestampMs : ℕ := 9224318015999999

/-- A lease store as a machine: what it stores, and how it answers a call. -/
structure LeaseStore (σ : Type) where
  empty : σ
  call : TimedCall → σ → LeaseAnswer × σ
  stored : σ → HostId → Option HostLease

namespace LeaseStore

variable {σ : Type} (store : LeaseStore σ)

def after (calls : List TimedCall) : σ := calls.foldl (fun s c => (store.call c s).2) store.empty

def answer (calls : List TimedCall) (c : TimedCall) : LeaseAnswer := (store.call c (store.after calls)).1

def leases (calls : List TimedCall) : HostId → Option HostLease := store.stored (store.after calls)

end LeaseStore

/-! ### PostgreSQL -/

/-- Runs a store program against a database that answers every statement. -/
def runSql {α : Type} (db : Database) : StoreM α → α × Database
  | .ret a => (a, db)
  | .call sql next =>
    match sql.run db with
    | .ok (rows, db') => runSql db' (next (.ok rows))
    | .error e => runSql db (next (.error e))

namespace PostgresHostLeaseStore

def program : LeaseCall → StoreM LeaseAnswer
  | .register request => .register <$> register request
  | .unregister id sessionId => .unregister <$> unregister id sessionId
  | .leaseStatus id => .leaseStatus <$> leaseStatus id

/-- The rows as leases. -/
def leaseOf (id : HostId) (row : LeaseRow) : HostLease := ⟨id, row.sessionId, row.route, row.expiresAtMs⟩

def store : LeaseStore Database where
  empty := .empty
  call c db := runSql { db with nowMs := c.nowMs } (program c.call)
  stored db id := (db.leases id).map (leaseOf id)

end PostgresHostLeaseStore

/-! ### The local store -/

def HostLease.toJson (lease : HostLease) : Value :=
  .obj [("id", .str lease.id.id), ("session_id", .str lease.sessionId), ("route", .str lease.route),
    ("expires_at_ms", .num (.ofNat lease.expiresAtMs))]

def HostLease.ofJson : Value → Option HostLease
  | .obj fields => do
    let id ← (field fields "id").bind asString
    let sessionId ← (field fields "session_id").bind asString
    let route ← (field fields "route").bind asString
    let expiresAtMs ← (field fields "expires_at_ms").bind asU64
    return ⟨⟨id⟩, sessionId, route, expiresAtMs⟩
  | _ => none

inductive IoErrorKind where
  | notFound
  | other
  deriving DecidableEq

structure IoError where
  kind : IoErrorKind
  message : String

def IoError.toError (e : IoError) : Error := .new e.message

/-- The calls the local store makes, with paths below its root directory. `empty` is a root
directory that was just created. -/
structure FileSystem (σ : Type) where
  empty : σ
  read : String → σ → Except IoError ByteArray
  createParent : String → σ → Except IoError Unit × σ
  write : String → ByteArray → σ → Except IoError Unit × σ
  removeFile : String → σ → Except IoError Unit × σ

/-- A single path component, no longer than a file system takes. -/
def isFileName (name : String) : Bool :=
  !(name.toList.any fun c => c == '/' || c == '\x00') && name.utf8ByteSize ≤ 255

/-- What a file system does with the files of its root directory. -/
structure LawfulFileSystem {σ : Type} (fs : FileSystem σ) : Prop where
  read_empty : ∀ {name}, isFileName name = true → ∃ message, fs.read name fs.empty = .error ⟨.notFound, message⟩
  createParent : ∀ {name s}, isFileName name = true → fs.createParent name s = (.ok (), s)
  write : ∀ {name body s}, isFileName name = true → ∃ s', fs.write name body s = (.ok (), s') ∧
    fs.read name s' = .ok body ∧ ∀ other, isFileName other = true → other ≠ name →
    fs.read other s' = fs.read other s
  removeFile : ∀ {name body s}, isFileName name = true → fs.read name s = .ok body →
    ∃ s' message, fs.removeFile name s = (.ok (), s') ∧ fs.read name s' = .error ⟨.notFound, message⟩ ∧
      ∀ other, isFileName other = true → other ≠ name → fs.read other s' = fs.read other s

namespace LocalHostLeaseStore

variable {σ : Type} (fs : FileSystem σ) (serde : SerdeJson)

def pathFor (id : HostId) : String := id.id ++ ".json"

def load (s : σ) (id : HostId) : Result (Option HostLease) :=
  match fs.read (pathFor id) s with
  | .ok body => some <$> orContext ((fromSlice serde body).bind HostLease.ofJson) "decode host lease"
  | .error e => if e.kind = .notFound then pure none else .error e.toError

/-- Another session has to wait for the lease to expire. -/
def ensureFree (current : Option HostLease) (request : HostLeaseRequest) (nowMs : ℕ) : Result Unit :=
  match current with
  | none => pure ()
  | some current => ensure (current.sessionId = request.sessionId ∨ current.expiresAtMs ≤ nowMs)
      "host lease is held by a different active session"

/-- `register`, up to the first call that changes a file -/
def granted (nowMs : ℕ) (s : σ) (request : HostLeaseRequest) : Result HostLease := do
  request.validateDuration
  ensureFree (← load fs serde s request.id) request nowMs
  let expiresAtMs ← orContext (checkedAdd nowMs request.durationMs) "host lease expiration overflow"
  pure ⟨request.id, request.sessionId, request.route, expiresAtMs⟩

def register (nowMs : ℕ) (s : σ) (request : HostLeaseRequest) : Result HostLease × σ :=
  match granted fs serde nowMs s request with
  | .error e => (.error e, s)
  | .ok lease =>
    match fs.createParent (pathFor lease.id) s with
    | (.error e, s) => (.error e.toError, s)
    | (.ok (), s) =>
      match fs.write (pathFor lease.id) (toVec lease.toJson) s with
      | (.error e, s) => (.error e.toError, s)
      | (.ok (), s) => (.ok lease, s)

def unregister (s : σ) (id : HostId) (sessionId : String) : Result Unit × σ :=
  match load fs serde s id with
  | .error e => (.error e, s)
  | .ok none => (.ok (), s)
  | .ok (some lease) =>
    if lease.sessionId ≠ sessionId then (.ok (), s)
    else
      match fs.removeFile (pathFor id) s with
      | (.ok (), s) => (.ok (), s)
      | (.error e, s) => if e.kind = .notFound then (.ok (), s) else (.error e.toError, s)

def leaseStatus (nowMs : ℕ) (s : σ) (id : HostId) : Result HostLeaseStatus := do
  pure ⟨← load fs serde s id, nowMs⟩

def call (c : TimedCall) (s : σ) : LeaseAnswer × σ :=
  match c.call with
  | .register request => let (r, s) := register fs serde c.nowMs s request; (.register r, s)
  | .unregister id sessionId => let (r, s) := unregister fs serde s id sessionId; (.unregister r, s)
  | .leaseStatus id => (.leaseStatus (leaseStatus fs serde c.nowMs s id), s)

def store : LeaseStore σ where
  empty := fs.empty
  call := call fs serde
  stored s id := (load fs serde s id).toOption.join

end LocalHostLeaseStore

/-- One directory. A name that is too long is refused, and no other directory is looked into. -/
def directory : FileSystem (String → Option ByteArray) where
  empty _ := none
  read name files :=
    if isFileName name then
      match files name with
      | some body => .ok body
      | none => .error ⟨.notFound, "No such file or directory (os error 2)"⟩
    else .error ⟨.other, "File name too long (os error 36)"⟩
  createParent _ files := (.ok (), files)
  write name body files :=
    if isFileName name then (.ok (), Function.update files name (some body))
    else (.error ⟨.other, "File name too long (os error 36)"⟩, files)
  removeFile name files :=
    if isFileName name then
      match files name with
      | some _ => (.ok (), Function.update files name none)
      | none => (.error ⟨.notFound, "No such file or directory (os error 2)"⟩, files)
    else (.error ⟨.other, "File name too long (os error 36)"⟩, files)

/-! ### The lease table -/

/-- What a lease store is for: at most one lease a host, which another session can take
over only when it has expired. -/
abbrev LeaseTable := HostId → Option HostLease

namespace LeaseTable

/-- The request may have the lease of its host. -/
def Free (table : LeaseTable) (nowMs : ℕ) (request : HostLeaseRequest) : Prop :=
  ∀ lease, table request.id = some lease → lease.sessionId = request.sessionId ∨ lease.expiresAtMs ≤ nowMs

instance (table : LeaseTable) (nowMs : ℕ) (request : HostLeaseRequest) : Decidable (table.Free nowMs request) :=
  match h : table request.id with
  | none => .isTrue fun _ hl => by simp [h] at hl
  | some lease => decidable_of_iff (lease.sessionId = request.sessionId ∨ lease.expiresAtMs ≤ nowMs)
      ⟨fun hf _ hl => by rw [h] at hl; cases hl; exact hf, fun hf => hf lease h⟩

def grant (nowMs : ℕ) (request : HostLeaseRequest) : HostLease :=
  ⟨request.id, request.sessionId, request.route, nowMs + request.durationMs⟩

def register (nowMs : ℕ) (request : HostLeaseRequest) (table : LeaseTable) : LeaseAnswer × LeaseTable :=
  match request.validateDuration with
  | .error e => (.register (.error e), table)
  | .ok () =>
    if table.Free nowMs request then
      (.register (.ok (grant nowMs request)), Function.update table request.id (some (grant nowMs request)))
    else (.register (.error (.new "host lease is held by a different active session")), table)

def unregister (id : HostId) (sessionId : String) (table : LeaseTable) : LeaseTable :=
  if (table id).map (·.sessionId) = some sessionId then Function.update table id none else table

def call (c : TimedCall) (table : LeaseTable) : LeaseAnswer × LeaseTable :=
  match c.call with
  | .register request => table.register c.nowMs request
  | .unregister id sessionId => (.unregister (.ok ()), table.unregister id sessionId)
  | .leaseStatus id => (.leaseStatus (.ok ⟨table id, c.nowMs⟩), table)

end LeaseTable

end LDO
