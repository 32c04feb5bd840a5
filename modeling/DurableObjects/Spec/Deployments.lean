import DurableObjects.Spec.ControlPlane
import DurableObjects.Lib.Runs

/-! Deployments: what an operator registers for a namespace, how the hosts of a deployment
are named, and `register_deployment`, which reads the active deployment, replaces it and
has the hosts of the one it read terminated. Calls interleave at the two statements and at
the call of the sandbox provider. -/

namespace LDO

open Prog

/-- A whole `HostLaunchSpec`; routing reads only the first two fields of it. -/
structure ProjectSpec extends HostLaunchSpec where
  imageRef : String
  workingDirectory : String
  actorEntrypoint : Option String
  deriving DecidableEq

/-- `validate_component` of the admin module. -/
def validateRevisionComponent (name value : String) (maximum : ℕ) : Result Unit := do
  ensure (value ≠ "") (name ++ " must not be empty")
  ensure (value.utf8ByteSize ≤ maximum) (name ++ " must be at most " ++ toString maximum ++ " bytes")
  ensure (value.toList.all isComponentChar) (name ++ " contains unsupported characters")

/-- `validate_namespace` -/
def validateNamespace (namespaceId : String) : Result Unit := (ActorScope.mk namespaceId).validate

def ProjectSpec.validate (spec : ProjectSpec) : Result Unit := do
  validateNamespace spec.namespaceId
  validateRevisionComponent "code revision" spec.codeRevision 128
  ensure (spec.imageRef ≠ "" ∧ spec.imageRef.utf8ByteSize ≤ 255)
    "sandbox image reference must contain between 1 and 255 bytes"
  ensure (['/'] <+: spec.workingDirectory.toList ∧ spec.workingDirectory.utf8ByteSize ≤ 1024)
    "host working directory must be an absolute path of at most 1024 bytes"
  match spec.actorEntrypoint with
  | some entrypoint =>
    ensure (entrypoint ≠ "" ∧ entrypoint.utf8ByteSize ≤ 1024) "actor entrypoint must contain between 1 and 1024 bytes"
  | none => pure ()

/-- A deployment that passes `HostLaunchSpec::validate`. -/
structure ValidProjectSpec extends ProjectSpec where
  valid : toProjectSpec.validate = .ok ()

def isLowerHexDigit (c : Char) : Bool := c.isDigit || ('a' ≤ c && c ≤ 'f')

/-- How `Uuid::new_v4` is printed: five groups of lower-case hexadecimal digits. -/
structure Uuid where
  text : String
  groups : (text.toList.splitOn '-').map List.length = [8, 4, 4, 4, 12]
  digits : ∀ c ∈ text.toList, c = '-' ∨ isLowerHexDigit c = true

/-- The host that `SandboxHostProvisioner::request` asks for. -/
def HostLaunchSpec.host (spec : HostLaunchSpec) (uuid : Uuid) : HostId :=
  ⟨"host.v1." ++ spec.namespaceId ++ "." ++ spec.codeRevision ++ "." ++ uuid.text⟩

/-! ### Registration -/

structure TerminateHostsRequest where
  namespaceId : String
  codeRevision : String
  canonicalRegions : List String
  deriving DecidableEq

inductive RegistryOp where
  | launchSpec (namespaceId : String)
  | register (spec : ProjectSpec)
  | terminateHosts (request : TerminateHostsRequest)
  deriving DecidableEq

/-- What the provider answers to `terminate_hosts` is only logged. -/
@[reducible] def RegistryOp.Res : RegistryOp → Type
  | .launchSpec _ => Result (Option ProjectSpec)
  | .register _ => Result Bool
  | .terminateHosts _ => Unit

abbrev RegistryM := ExceptT Error (Prog RegistryOp RegistryOp.Res)

namespace PostgresAdminRegistry

def launchSpec (namespaceId : String) : RegistryM (Option ProjectSpec) := do
  ExceptT.mk (pure (validateNamespace namespaceId))
  ExceptT.mk (perform (RegistryOp.launchSpec namespaceId))

def ensureNamespaceAndRegisterDeployment (spec : ProjectSpec) : RegistryM Bool := do
  ExceptT.mk (pure spec.validate)
  ExceptT.mk (perform (RegistryOp.register spec))

end PostgresAdminRegistry

namespace ControlPlaneService

variable (service : ControlPlaneService)

/-- Without routing or a provider nothing is terminated. -/
def terminateDeploymentHosts (spec : ProjectSpec) : RegistryM Unit :=
  if service.routing ∧ service.provisioner.isSome then
    ExceptT.lift (perform (RegistryOp.terminateHosts ⟨spec.namespaceId, spec.codeRevision, service.regions⟩))
  else pure ()

/-- `register_deployment` after it has read the active deployment. -/
def replaceDeployment (spec : ProjectSpec) (previous : Option ProjectSpec) : RegistryM Bool := do
  let changed ← PostgresAdminRegistry.ensureNamespaceAndRegisterDeployment spec
  match changed, previous with
  | true, some previous => do
    service.terminateDeploymentHosts previous
    pure changed
  | _, _ => pure changed

def registerDeployment (spec : ProjectSpec) : RegistryM Bool := do
  let previous ← PostgresAdminRegistry.launchSpec spec.namespaceId
  service.replaceDeployment spec previous

end ControlPlaneService

/-! ### Calls side by side -/

/-- The registry and the calls in progress; a call that has returned stays with its answer. -/
structure RegistryState where
  specs : String → Option ProjectSpec
  calls : ℕ → Option (Prog RegistryOp RegistryOp.Res (Result Bool))

def RegistryState.resume (s : RegistryState) (i : ℕ)
    (p : Prog RegistryOp RegistryOp.Res (Result Bool)) : RegistryState :=
  { s with calls := Function.update s.calls i (some p) }

/-- The upsert: it answers whether it changed anything. -/
def RegistryState.register (s : RegistryState) (spec : ProjectSpec) : RegistryState :=
  { s with specs := Function.update s.specs spec.namespaceId (some spec) }

inductive RegistryMove where
  | arrive (i : ℕ) (spec : ProjectSpec)
  | read (i : ℕ) (namespaceId : String)
  | register (i : ℕ) (spec : ProjectSpec) (changed : Bool)
  | lost (i : ℕ) (spec : ProjectSpec)
  | fail (i : ℕ) (op : RegistryOp)
  | terminated (i : ℕ) (request : TerminateHostsRequest)
  deriving DecidableEq

/-- Each statement is one step. A statement may also fail, having read or changed nothing, and
the answer of the upsert may be lost. -/
inductive RegistryStep (service : ControlPlaneService) : RegistryState → RegistryMove → RegistryState → Prop
  | arrive {s : RegistryState} {i : ℕ} (spec : ProjectSpec) : s.calls i = none →
      RegistryStep service s (.arrive i spec) (s.resume i (service.registerDeployment spec).run)
  | read {s : RegistryState} {i : ℕ} {namespaceId : String} {next} :
      s.calls i = some (.call (.launchSpec namespaceId) next) →
      RegistryStep service s (.read i namespaceId) (s.resume i (next (.ok (s.specs namespaceId))))
  | register {s : RegistryState} {i : ℕ} {spec : ProjectSpec} {next} :
      s.calls i = some (.call (.register spec) next) →
      RegistryStep service s (.register i spec (s.specs spec.namespaceId ≠ some spec))
        ((s.register spec).resume i (next (.ok (s.specs spec.namespaceId ≠ some spec))))
  | lost {s : RegistryState} {i : ℕ} {spec : ProjectSpec} {next} (e : Error) :
      s.calls i = some (.call (.register spec) next) →
      RegistryStep service s (.lost i spec) ((s.register spec).resume i (next (.error e)))
  | failRead {s : RegistryState} {i : ℕ} {namespaceId : String} {next} (e : Error) :
      s.calls i = some (.call (.launchSpec namespaceId) next) →
      RegistryStep service s (.fail i (.launchSpec namespaceId)) (s.resume i (next (.error e)))
  | failRegister {s : RegistryState} {i : ℕ} {spec : ProjectSpec} {next} (e : Error) :
      s.calls i = some (.call (.register spec) next) →
      RegistryStep service s (.fail i (.register spec)) (s.resume i (next (.error e)))
  | terminated {s : RegistryState} {i : ℕ} {request : TerminateHostsRequest} {next} :
      s.calls i = some (.call (.terminateHosts request) next) →
      RegistryStep service s (.terminated i request) (s.resume i (next ()))

/-- Whatever is registered at first, each row under its own namespace, no call is in progress. -/
def registrySystem (service : ControlPlaneService) : System RegistryState RegistryMove where
  init s := (∀ namespaceId spec, s.specs namespaceId = some spec → spec.namespaceId = namespaceId) ∧
    ∀ i, s.calls i = none
  step := RegistryStep service

end LDO
