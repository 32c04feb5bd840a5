import DurableObjects.Spec.ControlPlane
import DurableObjects.Spec.Deployments
import DurableObjects.Lib.Runs

/-! The sandbox provider for Modal. Any number of provider processes look sandboxes up by name, start
them and stop them. Modal itself is the world: it knows sandboxes by name and number, it may fail any
call, and a sandbox may exit at any time. The hash of a name is a parameter. -/

namespace LDO

open Prog

/-! ### Regions -/

structure ModalPlacement where
  regions : List String
  cloud : Option String
  observedPlacements : List String
  /-- `placement.privateNetwork === true` -/
  privateNetwork : Bool
  deriving DecidableEq

/-- In the order of `Object.entries` -/
abbrev CanonicalRegionCatalog := List (String × ModalPlacement)

def recommendedRegionCatalog : CanonicalRegionCatalog :=
  [("north-america-east", ⟨["us-east"], some "gcp", ["gcp:us-east*"], false⟩),
    ("north-america-central", ⟨["us-central"], some "gcp", ["gcp:us-central*"], false⟩),
    ("north-america-south", ⟨["us-south"], some "gcp", ["gcp:us-south*"], false⟩),
    ("north-america-west", ⟨["us-west"], some "gcp", ["gcp:us-west*"], false⟩),
    ("europe-west", ⟨["eu-west"], some "gcp", ["gcp:europe-west*"], false⟩),
    ("asia-southeast", ⟨["ap-southeast"], some "gcp", ["gcp:asia-southeast*"], false⟩)]

/-- An error of Modal's client, of which two kinds are told apart, or one of the provider's own -/
inductive ModalError where
  | notFound (message : String)
  | alreadyExists (message : String)
  | other (message : String)
  deriving DecidableEq

def ModalError.message : ModalError → String
  | .notFound message => message
  | .alreadyExists message => message
  | .other message => message

def isCanonicalEdge (c : Char) : Bool := ('a' ≤ c && c ≤ 'z') || ('0' ≤ c && c ≤ '9')

def isCanonicalChar (c : Char) : Bool := isCanonicalEdge c || c == '.' || c == '_' || c == '-'

/-- `canonicalRegionPattern` -/
def matchesCanonicalRegion (value : String) : Bool :=
  match value.toList with
  | [] => false
  | first :: rest =>
    isCanonicalEdge first && (match rest.getLast? with
      | none => true
      | some last => isCanonicalEdge last && rest.dropLast.all isCanonicalChar && rest.length ≤ 63)

def validateCanonicalRegion (value : String) : Except ModalError String :=
  if matchesCanonicalRegion value then .ok value else .error (.other "invalid canonical region")

def modalPlacement (region : String) (catalog : CanonicalRegionCatalog) :
    Except ModalError ModalPlacement := do
  match catalog.lookup (← validateCanonicalRegion region) with
  | some placement => pure placement
  | none => throw (.other "canonical region has no Modal placement")

/-! ### Requests -/

namespace ModalSandboxProvider

/-- The idle timeouts were written by the control plane as integers. -/
structure EnsureHostRequest where
  namespaceId : String
  codeRevision : String
  canonicalRegion : String
  hostId : String
  sessionId : String
  hostToken : String
  jwtPublicKeys : String
  controlPlaneUrl : String
  jwtIssuer : String
  invocationJwtAudience : String
  imageRef : String
  workingDirectory : String
  actorEntrypoint : Option String
  actorIdleTimeoutMs : ℕ
  hostIdleTimeoutMs : ℕ
  deriving DecidableEq

structure WarmImageRequest where
  namespaceId : String
  codeRevision : String
  canonicalRegion : String
  imageRef : String

structure PublicHostRouteRequest where
  namespaceId : String
  codeRevision : String
  canonicalRegion : String

structure ActorHostHandle where
  hostId : String
  route : String
  canonicalRegion : String
  deriving DecidableEq

/-- A handle with `provisioning.resourceId` and `provisioning.reused` -/
structure ProvisionedHost where
  handle : ActorHostHandle
  sandbox : ℕ
  reused : Bool

def maximumSandboxLifetimeMs : ℕ := 24 * 60 * 60 * 1000

def hostPort : ℕ := 7101

def hostRouteFile : String := "/tmp/durable-object-route"

def readyFile : String := "/tmp/durable-object-ready"

def modalPrivateHostname : String := "i6pn.modal.local"

def validateEnsureRequest (request : EnsureHostRequest) : Except ModalError Unit := do
  refuse (¬ ("host.v1." ++ request.namespaceId ++ ".").toList <+: request.hostId.toList)
    (.other "host ID does not belong to its namespace")
  refuse (request.actorIdleTimeoutMs = 0 ∨ maximumSandboxLifetimeMs < request.actorIdleTimeoutMs)
    (.other "actor idle timeout is invalid")
  refuse (request.hostIdleTimeoutMs = 0 ∨ maximumSandboxLifetimeMs < request.hostIdleTimeoutMs)
    (.other "host idle timeout is invalid")

def validateWarmImageRequest (request : WarmImageRequest) : Except ModalError Unit :=
  refuse (request.namespaceId = "" ∨ request.codeRevision = "" ∨ request.imageRef = "") (.other "image warmup request is invalid")

def validatePublicHostRouteRequest (request : PublicHostRouteRequest) (catalog : CanonicalRegionCatalog) :
    Except ModalError Unit := do
  refuse (request.namespaceId = "" ∨ request.codeRevision = "") (.other "public host route request is invalid")
  let _ ← modalPlacement request.canonicalRegion catalog

def validateTerminateHostsRequest (request : TerminateHostsRequest) (catalog : CanonicalRegionCatalog) :
    Except ModalError Unit := do
  refuse (request.namespaceId = "" ∨ request.codeRevision = "" ∨ request.canonicalRegions = [])
    (.other "host termination request is invalid")
  request.canonicalRegions.forM fun region => do
    let _ ← modalPlacement region catalog

def hostEnvironment (request : EnsureHostRequest) (privateNetwork : Bool) : List (String × String) :=
  [("DURABLE_OBJECT_PROCESS_ROLE", "host"),
    ("DURABLE_OBJECT_HOST_TOKEN", request.hostToken),
    ("DURABLE_OBJECT_JWT_PUBLIC_KEYS", request.jwtPublicKeys),
    ("DURABLE_OBJECT_NAMESPACE_ID", request.namespaceId),
    ("DURABLE_OBJECT_CONTROL_PLANE_URL", request.controlPlaneUrl),
    ("DURABLE_OBJECT_JWT_ISSUER", request.jwtIssuer),
    ("DURABLE_OBJECT_INVOKE_JWT_AUDIENCE", request.invocationJwtAudience),
    ("DURABLE_OBJECT_HOST_ID", request.hostId),
    ("DURABLE_OBJECT_SESSION_ID", request.sessionId),
    ("DURABLE_OBJECT_REGION", request.canonicalRegion),
    ("DURABLE_OBJECT_CODE_REVISION", request.codeRevision),
    ("DURABLE_OBJECT_EXECUTOR_SOCKET", "/tmp/durable-object-executor.sock"),
    ("DURABLE_OBJECT_HOST_READY_FILE", readyFile),
    ("DURABLE_OBJECT_HOST_BIND", (if privateNetwork then "[::]" else "0.0.0.0") ++ ":" ++ toString hostPort),
    ("DURABLE_OBJECT_ACTOR_IDLE_TIMEOUT_MS", toString request.actorIdleTimeoutMs),
    ("DURABLE_OBJECT_HOST_IDLE_TIMEOUT_MS", toString request.hostIdleTimeoutMs)] ++
  (match request.actorEntrypoint with
    | some entrypoint => if entrypoint = "" then [] else [("DURABLE_OBJECT_ENTRYPOINT", entrypoint)]
    | none => []) ++
  if privateNetwork then
    [("DURABLE_OBJECT_HOST_PRIVATE_HOSTNAME", modalPrivateHostname), ("DURABLE_OBJECT_HOST_ROUTE_FILE", hostRouteFile)]
  else [("DURABLE_OBJECT_HOST_PUBLIC_ROUTE_FILE", hostRouteFile)]

/-- The first 32 digits of the digest of the three parts with a NUL between them -/
def resourceName (sha256Hex : String → String)
    (kind namespaceId codeRevision canonicalRegion : String) : String :=
  "do-" ++ kind ++ "-" ++
    String.ofList ((sha256Hex (namespaceId ++ "\x00" ++ codeRevision ++ "\x00" ++ canonicalRegion)).toList.take 32)

/-! ### Calls of Modal -/

/-- What `experimentalCreate` is given -/
structure SandboxParams where
  name : Option String
  environment : List (String × String)
  regions : List String
  cloud : Option String
  timeoutMs : ℕ
  idleTimeoutMs : Option ℕ
  i6pn : Bool

inductive ModalOp where
  /-- `apps.fromName` -/
  | app (createIfMissing : Bool)
  /-- `images.fromId` -/
  | image (imageRef : String)
  | fromName (name : String)
  /-- The exit status, if there is one -/
  | poll (sandbox : ℕ)
  | create (params : SandboxParams)
  | terminate (sandbox : ℕ)
  /-- The wait for the metadata file, its text parsed -/
  | readMetadata (sandbox : ℕ)
  | writeMetadata (sandbox : ℕ) (handle : ActorHostHandle)
  | tunnel (sandbox : ℕ)
  | writeRoute (sandbox : ℕ) (route : String)
  | readRoute (sandbox : ℕ)
  | waitUntilReady (sandbox : ℕ)
  | readStderr (sandbox : ℕ)
  | wait (sandbox : ℕ)

@[reducible] def ModalOp.Res : ModalOp → Type
  | .fromName _ => Except ModalError ℕ
  | .poll _ => Except ModalError (Option ℤ)
  | .create _ => Except ModalError ℕ
  | .readMetadata _ => Except ModalError ActorHostHandle
  | .tunnel _ => Except ModalError (Option String)
  | .readRoute _ => Except ModalError String
  | .readStderr _ => Except ModalError String
  | .wait _ => Except ModalError ℤ
  | _ => Except ModalError Unit

abbrev ModalM := ExceptT ModalError (Prog ModalOp ModalOp.Res)

def fromName (name : String) : ModalM ℕ := ExceptT.mk (perform (ModalOp.fromName name))

def poll (sandbox : ℕ) : ModalM (Option ℤ) := ExceptT.mk (perform (ModalOp.poll sandbox))

def create (params : SandboxParams) : ModalM ℕ := ExceptT.mk (perform (ModalOp.create params))

def terminate (sandbox : ℕ) : ModalM Unit := ExceptT.mk (perform (ModalOp.terminate sandbox))

def tunnel (sandbox : ℕ) : ModalM (Option String) := ExceptT.mk (perform (ModalOp.tunnel sandbox))

/-- `new Error(message)` -/
def fail {α : Type} (message : String) : ModalM α := throw (.other message)

def attempt {α : Type} (r : Except ModalError α) : ModalM α := ExceptT.mk (pure r)

/-- The app and the image, one of which may fail the other -/
def resources (createIfMissing : Bool) (imageRef : String) : ModalM Unit := do
  ExceptT.mk (perform (ModalOp.app createIfMissing))
  ExceptT.mk (perform (ModalOp.image imageRef))

/-- White space and line terminators, as `String.prototype.trim` takes them away -/
def isJsSpace (c : Char) : Bool :=
  let n := c.toNat
  (9 ≤ n && n ≤ 13) || n == 0x20 || n == 0xa0 || n == 0x1680 || (0x2000 ≤ n && n ≤ 0x200a) || n == 0x2028 || n == 0x2029 ||
    n == 0x202f || n == 0x205f || n == 0x3000 || n == 0xfeff

def jsTrim (s : String) : String :=
  String.ofList (((s.toList.dropWhile isJsSpace).reverse.dropWhile isJsSpace).reverse)

/-! ### The provider -/

/-- A running sandbox of the name -/
def existing (name : String) : ModalM (Option ℕ) :=
  tryCatch (do
    let sandbox ← fromName name
    pure (if (← poll sandbox) = none then some sandbox else none))
    fun
    | .notFound _ => pure none
    | error => throw error

def readHandle (sandbox : ℕ) (canonicalRegion : String) : ModalM ActorHostHandle := do
  let handle ← ExceptT.mk (perform (ModalOp.readMetadata sandbox))
  if handle.canonicalRegion ≠ canonicalRegion then fail "existing Modal host has the wrong canonical region" else pure handle

/-- A sandbox whose handle cannot be read is terminated. -/
def reuse (sandbox : ℕ) (canonicalRegion : String) : ModalM (Option ProvisionedHost) :=
  tryCatch (do
    let handle ← readHandle sandbox canonicalRegion
    pure (some ⟨handle, sandbox, true⟩))
    fun _ => do
      terminate sandbox
      pure none

def hostParams (request : EnsureHostRequest) (name : String) (placement : ModalPlacement) :
    SandboxParams where
  name := some name
  environment := hostEnvironment request placement.privateNetwork
  regions := placement.regions
  cloud := placement.cloud
  timeoutMs := maximumSandboxLifetimeMs
  idleTimeoutMs := some request.hostIdleTimeoutMs
  i6pn := placement.privateNetwork

/-- The sandbox, and whether another process has created it -/
def createSandbox (request : EnsureHostRequest) (name : String) (placement : ModalPlacement) :
    ModalM (ℕ × Bool) :=
  tryCatch (do
    let sandbox ← create (hostParams request name placement)
    pure (sandbox, false))
    fun
    | .alreadyExists _ => do
      match ← existing name with
      | some raced => pure (raced, true)
      | none => pure (← fromName name, true)
    | error => throw error

def waitForReady (sandbox : ℕ) : ModalM Unit :=
  tryCatch (ExceptT.mk (perform (ModalOp.waitUntilReady sandbox))) fun error => do
    let detail ← tryCatch (ExceptT.mk (perform (ModalOp.readStderr sandbox))) fun _ => pure ""
    tryCatch (terminate sandbox) fun _ => pure ()
    let message := if jsTrim detail = "" then error.message else jsTrim detail
    fail ("durable-object host did not become ready" ++ if message = "" then "" else ": " ++ message)

def startPrivate (sandbox : ℕ) (request : EnsureHostRequest) : ModalM ActorHostHandle := do
  waitForReady sandbox
  let route ← ExceptT.mk (perform (ModalOp.readRoute sandbox))
  if route = "" then fail "Modal durable-object host did not publish its private route"
  else pure ⟨request.hostId, jsTrim route, request.canonicalRegion⟩

def startPublic (sandbox : ℕ) (request : EnsureHostRequest) : ModalM ActorHostHandle := do
  match ← tunnel sandbox with
  | none => fail "Modal did not create the durable-object HTTP/2 tunnel"
  | some route =>
    if route = "" then fail "Modal did not create the durable-object HTTP/2 tunnel"
    else
      ExceptT.mk (perform (ModalOp.writeRoute sandbox route))
      waitForReady sandbox
      pure ⟨request.hostId, route, request.canonicalRegion⟩

def start (sandbox : ℕ) (request : EnsureHostRequest) (placement : ModalPlacement) : ModalM ActorHostHandle :=
  if placement.privateNetwork then startPrivate sandbox request else startPublic sandbox request

def activate (sandbox : ℕ) (request : EnsureHostRequest) (placement : ModalPlacement) :
    ModalM ProvisionedHost := do
  let handle ← start sandbox request placement
  ExceptT.mk (perform (ModalOp.writeMetadata sandbox handle))
  pure ⟨handle, sandbox, false⟩

/-- What is done when no running host of the name could be reused -/
def provision (request : EnsureHostRequest) (name : String) (placement : ModalPlacement) :
    ModalM ProvisionedHost := do
  let (sandbox, reused) ← createSandbox request name placement
  if reused then
    match ← reuse sandbox request.canonicalRegion with
    | some handle => pure handle
    | none => fail "concurrent Modal V2 host could not be reused"
  else activate sandbox request placement

def ensureHostOnce (catalog : CanonicalRegionCatalog) (request : EnsureHostRequest) (name : String) :
    ModalM ProvisionedHost := do
  attempt (validateEnsureRequest request)
  let placement ← attempt (modalPlacement request.canonicalRegion catalog)
  resources true request.imageRef
  match ← existing name with
  | none => provision request name placement
  | some sandbox =>
    match ← reuse sandbox request.canonicalRegion with
    | some handle => pure handle
    | none => provision request name placement

/-- The loop over the regions; `names` are those of the regions that are left. -/
def terminateNamed : List String → ModalM (List ℕ)
  | [] => pure []
  | name :: names => do
    let stopped ← tryCatch (do
      let sandbox ← fromName name
      terminate sandbox
      pure [sandbox])
      fun
      | .notFound _ => pure []
      | error => throw error
    pure (stopped ++ (← terminateNamed names))

def hostNames (sha256Hex : String → String) (request : TerminateHostsRequest) : List String :=
  request.canonicalRegions.map fun region =>
    resourceName sha256Hex "host" request.namespaceId request.codeRevision region

def terminateHosts (sha256Hex : String → String) (catalog : CanonicalRegionCatalog)
    (request : TerminateHostsRequest) :
    ModalM (List ℕ) := do
  attempt (validateTerminateHostsRequest request catalog)
  let found ← tryCatch (do
    ExceptT.mk (perform (ModalOp.app false))
    pure true)
    fun
    | .notFound _ => pure false
    | error => throw error
  if found then terminateNamed (hostNames sha256Hex request) else pure []

def publicHostRoute (sha256Hex : String → String) (catalog : CanonicalRegionCatalog)
    (request : PublicHostRouteRequest) :
    ModalM String := do
  attempt (validatePublicHostRouteRequest request catalog)
  ExceptT.mk (perform (ModalOp.app false))
  let sandbox ← fromName (resourceName sha256Hex "host" request.namespaceId request.codeRevision request.canonicalRegion)
  if (← poll sandbox) ≠ none then fail "Modal durable-object host is not running"
  else
    match ← tunnel sandbox with
    | none => fail "Modal did not create the durable-object HTTP/2 tunnel"
    | some route => if route = "" then fail "Modal did not create the durable-object HTTP/2 tunnel" else pure route

def warmParams (placement : ModalPlacement) : SandboxParams where
  name := none
  environment := []
  regions := placement.regions
  cloud := placement.cloud
  timeoutMs := 120000
  idleTimeoutMs := none
  i6pn := false

/-- The `try` block of `warmImage` -/
def warmed (sandbox : ℕ) : ModalM (Except ModalError ℕ) :=
  tryCatch (do
    let exitCode ← ExceptT.mk (perform (ModalOp.wait sandbox))
    pure (if exitCode = 0 then .ok sandbox else .error (.other ("Modal image warmup exited with status " ++ toString exitCode))))
    fun error => pure (.error error)

/-- `finally` terminates the sandbox, whatever came before. -/
def warmImage (catalog : CanonicalRegionCatalog) (request : WarmImageRequest) : ModalM ℕ := do
  attempt (validateWarmImageRequest request)
  let placement ← attempt (modalPlacement request.canonicalRegion catalog)
  resources true request.imageRef
  let sandbox ← create (warmParams placement)
  let result ← warmed sandbox
  tryCatch (terminate sandbox) fun _ => pure ()
  attempt result

/-! ### Provider processes side by side -/

structure ModalSandbox where
  params : SandboxParams
  /-- `/tmp/durable-object-host.json`, parsed. Only providers write it. -/
  metadata : Option ActorHostHandle
  running : Bool

structure ModalWorld where
  sandboxes : ℕ → Option ModalSandbox

namespace ModalWorld

variable (w : ModalWorld)

def add (id : ℕ) (params : SandboxParams) : ModalWorld :=
  ⟨Function.update w.sandboxes id (some ⟨params, none, true⟩)⟩

def stop (id : ℕ) : ModalWorld :=
  ⟨Function.update w.sandboxes id ((w.sandboxes id).map fun sandbox => { sandbox with running := false })⟩

def write (id : ℕ) (handle : ActorHostHandle) : ModalWorld :=
  ⟨Function.update w.sandboxes id ((w.sandboxes id).map fun sandbox => { sandbox with metadata := some handle })⟩

/-- No running sandbox has the name. -/
def Free (params : SandboxParams) : Prop :=
  ∀ id sandbox, w.sandboxes id = some sandbox → sandbox.running = true → params.name ≠ none →
    sandbox.params.name ≠ params.name

/-- Any call may fail, and what it was to do may have been done all the same. -/
def Answers : (op : ModalOp) → op.Res → ModalWorld → Prop
  | .fromName name, .ok id, w' => (∃ sandbox, w.sandboxes id = some sandbox ∧ sandbox.params.name = some name) ∧ w' = w
  | .poll id, .ok none, w' => (∃ sandbox, w.sandboxes id = some sandbox ∧ sandbox.running = true) ∧ w' = w
  | .create params, .ok id, w' => w.sandboxes id = none ∧ w.Free params ∧ w' = w.add id params
  | .create params, .error _, w' => w' = w ∨ ∃ id, w.sandboxes id = none ∧ w.Free params ∧ w' = w.add id params
  | .terminate id, .ok _, w' => w' = w.stop id
  | .terminate id, .error _, w' => w' = w ∨ w' = w.stop id
  | .readMetadata id, .ok handle, w' => (∃ sandbox, w.sandboxes id = some sandbox ∧ sandbox.metadata = some handle) ∧ w' = w
  | .writeMetadata id handle, .ok _, w' => w' = w.write id handle
  | .writeMetadata id handle, .error _, w' => w' = w ∨ w' = w.write id handle
  | _, _, w' => w' = w

end ModalWorld

inductive ModalTask where
  | ensureHost (request : EnsureHostRequest)
  | terminateHosts (request : TerminateHostsRequest)
  | publicHostRoute (request : PublicHostRouteRequest)
  | warmImage (request : WarmImageRequest)

inductive ModalAnswer where
  | provisioned (r : Except ModalError ProvisionedHost)
  | terminated (r : Except ModalError (List ℕ))
  | routed (r : Except ModalError String)
  | warmed (r : Except ModalError ℕ)

/-- What a name is made of -/
structure HostKey where
  namespaceId : String
  codeRevision : String
  canonicalRegion : String
  deriving DecidableEq

def HostKey.name (sha256Hex : String → String) (key : HostKey) : String :=
  resourceName sha256Hex "host" key.namespaceId key.codeRevision key.canonicalRegion

def EnsureHostRequest.key (request : EnsureHostRequest) : HostKey :=
  ⟨request.namespaceId, request.codeRevision, request.canonicalRegion⟩

/-- The hosts that a task is about -/
def ModalTask.keys : ModalTask → List HostKey
  | .ensureHost request => [request.key]
  | .terminateHosts request => request.canonicalRegions.map fun region =>
      ⟨request.namespaceId, request.codeRevision, region⟩
  | .publicHostRoute request => [⟨request.namespaceId, request.codeRevision, request.canonicalRegion⟩]
  | .warmImage _ => []

def ModalTask.program (sha256Hex : String → String) (catalog : CanonicalRegionCatalog) :
    ModalTask → Prog ModalOp ModalOp.Res ModalAnswer
  | .ensureHost request => .provisioned <$> (ensureHostOnce catalog request (request.key.name sha256Hex)).run
  | .terminateHosts request => .terminated <$> (ModalSandboxProvider.terminateHosts sha256Hex catalog request).run
  | .publicHostRoute request => .routed <$> (ModalSandboxProvider.publicHostRoute sha256Hex catalog request).run
  | .warmImage request => .warmed <$> (ModalSandboxProvider.warmImage catalog request).run

/-- Tasks are numbered, and belong to a process. A task of `ensureHost` is an activation: it stands in the map of
its process under its name until it has settled, and calls wait for it. -/
structure ModalState where
  world : ModalWorld
  activations : ℕ → String → Option ℕ
  nextTask : ℕ
  tasks : ℕ → Option ((ℕ × ModalTask) × Prog ModalOp ModalOp.Res ModalAnswer)
  settled : ℕ → Option (ModalTask × ModalAnswer)
  calls : ℕ → Option (EnsureHostRequest × ℕ)
  /-- What was asked for so far -/
  asked : List HostKey

namespace ModalState

variable (s : ModalState)

def spawn (process : ℕ) (task : ModalTask) (p : Prog ModalOp ModalOp.Res ModalAnswer) : ModalState :=
  { s with
    nextTask := s.nextTask + 1
    tasks := Function.update s.tasks s.nextTask (some ((process, task), p))
    asked := task.keys ++ s.asked }

def await (c : ℕ) (request : EnsureHostRequest) (t : ℕ) : ModalState :=
  { s with calls := Function.update s.calls c (some (request, t)), asked := request.key :: s.asked }

def activate (process : ℕ) (name : String) (t : Option ℕ) : ModalState :=
  { s with activations := Function.update s.activations process (Function.update (s.activations process) name t) }

/-- `.finally(() => this.activations.delete(key))` -/
def finish (sha256Hex : String → String) (process t : ℕ) (task : ModalTask) (answer : ModalAnswer) :
    ModalState :=
  let s' := { s with tasks := Function.update s.tasks t none, settled := Function.update s.settled t (some (task, answer)) }
  match task with
  | .ensureHost request => s'.activate process (request.key.name sha256Hex) none
  | _ => s'

def kill (process : ℕ) : ModalState :=
  { s with
    activations := Function.update s.activations process fun _ => none
    tasks := fun t => (s.tasks t).filter fun task => task.1.1 ≠ process }

end ModalState

inductive ModalMove where
  | ensureHost (process c : ℕ) (request : EnsureHostRequest)
  | start (process : ℕ) (task : ModalTask)
  | call (t : ℕ) (op : ModalOp)
  | settle (t : ℕ)
  | kill (process : ℕ)
  | exit (sandbox : ℕ)

inductive ModalStep (sha256Hex : String → String) (catalog : CanonicalRegionCatalog) :
    ModalState → ModalMove → ModalState → Prop
  | join {s : ModalState} {process c t : ℕ} {request : EnsureHostRequest} : s.calls c = none →
      s.activations process (request.key.name sha256Hex) = some t →
      ModalStep sha256Hex catalog s (.ensureHost process c request) (s.await c request t)
  | begin {s : ModalState} {process c : ℕ} {request : EnsureHostRequest} : s.calls c = none →
      s.activations process (request.key.name sha256Hex) = none →
      ModalStep sha256Hex catalog s (.ensureHost process c request)
        (((s.await c request s.nextTask).activate process (request.key.name sha256Hex) (some s.nextTask)).spawn process
          (.ensureHost request) ((ModalTask.ensureHost request).program sha256Hex catalog))
  | start {s : ModalState} {process : ℕ} {task : ModalTask} : (∀ request, task ≠ .ensureHost request) →
      ModalStep sha256Hex catalog s (.start process task) (s.spawn process task (task.program sha256Hex catalog))
  | call {s : ModalState} {process t : ℕ} {task : ModalTask} {op : ModalOp}
      {next : op.Res → Prog ModalOp ModalOp.Res ModalAnswer} {r : op.Res} {w : ModalWorld} :
      s.tasks t = some ((process, task), .call op next) → s.world.Answers op r w →
      ModalStep sha256Hex catalog s (.call t op)
        { s with world := w, tasks := Function.update s.tasks t (some ((process, task), next r)) }
  | settle {s : ModalState} {process t : ℕ} {task : ModalTask} {answer : ModalAnswer} :
      s.tasks t = some ((process, task), .ret answer) →
      ModalStep sha256Hex catalog s (.settle t) (s.finish sha256Hex process t task answer)
  | kill {s : ModalState} (process : ℕ) : ModalStep sha256Hex catalog s (.kill process) (s.kill process)
  | exit {s : ModalState} (id : ℕ) : ModalStep sha256Hex catalog s (.exit id) { s with world := s.world.stop id }

def modalSystem (sha256Hex : String → String) (catalog : CanonicalRegionCatalog) :
    System ModalState ModalMove where
  init s := s = ⟨⟨fun _ => none⟩, fun _ _ => none, 0, fun _ => none, fun _ => none, fun _ => none, []⟩
  step := ModalStep sha256Hex catalog

end ModalSandboxProvider

end LDO
