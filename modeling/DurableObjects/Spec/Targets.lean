import DurableObjects.Spec.ControlPlane
import DurableObjects.Lib.Runs

/-! The control plane at work: commands of hosts and resolutions of targets, any number at a
time, interleaved at their calls. Nothing else writes the two tables. -/

namespace LDO

open Prog

inductive ControlTask where
  | execute (token : ActorJwt) (command : ControlPlaneCommand)
  | resolve (rounds : ℕ) (principal : ActorPrincipal) (actor : ActorKey) (routeKind : WorkflowRoute)

/-- What a task does, up to its answer. -/
def ControlTask.program (service : ControlPlaneService) : ControlTask → Prog ControlOp ControlOp.Res Unit
  | .execute token command => (fun _ => ()) <$> (service.execute token command).run
  | .resolve rounds principal actor routeKind =>
    (fun _ => ()) <$> (service.resolveWorkflowRoute rounds principal actor routeKind).run

structure ControlState where
  db : Database
  tasks : ℕ → Option (Prog ControlOp ControlOp.Res Unit)

inductive ControlMove where
  | arrive (i : ℕ) (task : ControlTask)
  | statement (i : ℕ) (sql : Sql)
  | call (i : ℕ) (op : ControlOp)
  | drop (i : ℕ)
  | tick (nowMs : ℕ)

/-- Calls that are not statements may be answered in any way. -/
inductive ControlStep (service : ControlPlaneService) : ControlState → ControlMove → ControlState → Prop
  | arrive {s : ControlState} {i : ℕ} (task : ControlTask) : s.tasks i = none →
      ControlStep service s (.arrive i task) { s with tasks := Function.update s.tasks i (some (task.program service)) }
  | statement {s : ControlState} {i : ℕ} {sql : Sql} {next : Result sql.Rows → Prog ControlOp ControlOp.Res Unit}
      {r : Result sql.Rows} {db : Database} :
      s.tasks i = some (.call (.sql sql) next) → sql.Answers s.db r db →
      ControlStep service s (.statement i sql) ⟨db, Function.update s.tasks i (some (next r))⟩
  | call {s : ControlState} {i : ℕ} {op : ControlOp} {next : op.Res → Prog ControlOp ControlOp.Res Unit} (r : op.Res) :
      s.tasks i = some (.call op next) → (∀ sql, op ≠ .sql sql) →
      ControlStep service s (.call i op) { s with tasks := Function.update s.tasks i (some (next r)) }
  | drop {s : ControlState} (i : ℕ) :
      ControlStep service s (.drop i) { s with tasks := Function.update s.tasks i none }
  | tick {s : ControlState} {nowMs : ℕ} : s.db.nowMs ≤ nowMs →
      ControlStep service s (.tick nowMs) { s with db := { s.db with nowMs := nowMs } }

def controlSystem (service : ControlPlaneService) : System ControlState ControlMove where
  init s := s = ⟨.empty, fun _ => none⟩
  step := ControlStep service

/-- The tables as the control plane can have left them. -/
def ReachableDb (service : ControlPlaneService) (db : Database) : Prop :=
  ∃ s, (controlSystem service).Reachable s ∧ s.db = db

/-- The URL signer and the sandbox provider: how they may answer. -/
structure Outside (parsers : Parsers) where
  readUrl : String → String → Result String → Prop
  ensureHost : EnsureHostRequest → Result ActorHostHandle → Prop
  /-- State is read from HTTP or HTTPS. -/
  readUrl_http : ∀ {region objectName url}, readUrl region objectName (.ok url) →
    ∃ parsed, parsers.parseUrl url = some parsed ∧ parsed.isHttp = true
  /-- A provider answers with a host it was asked for, for this deployment. -/
  ensureHost_named : ∀ {request handle}, ensureHost request (.ok handle) → ∃ uuid,
    handle.hostId = ⟨"host.v1." ++ request.namespaceId ++ "." ++ request.codeRevision ++ "." ++ uuid⟩

/-- One task among the others: each of its statements meets the tables in some reachable state.
`launch_spec` answers with the namespace it is asked for. -/
def taskEnv (service : ControlPlaneService) (outside : Outside service.parsers) :
    Env ControlOp ControlOp.Res Unit where
  ok _ _ := True
  step _ op r _ := match op, r with
    | .sql sql, r => ∃ before after, ReachableDb service before ∧ sql.Answers before r after
    | .launchSpec namespaceId, r => ∀ spec, r = .ok (some spec) → spec.namespaceId = namespaceId
    | .ensureHost request, r => outside.ensureHost request r
    | .readUrl region objectName, r => outside.readUrl region objectName r
    | _, _ => True

end LDO
