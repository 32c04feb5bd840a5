import DurableObjects.Spec.Credentials
import DurableObjects.Spec.StoreSystem
import DurableObjects.Spec.Host

/-! `ControlPlaneService`: the commands of hosts and the resolution of workflow targets, as
programs over the statements of the stores, the clock, the sandbox provider and the URL
signer. -/

namespace LDO

open Prog

/-- What routing reads of a deployment. -/
structure HostLaunchSpec where
  namespaceId : String
  codeRevision : String
  deriving DecidableEq

structure EnsureHostRequest where
  namespaceId : String
  codeRevision : String
  canonicalRegion : String
  hostId : HostId
  sessionId : String
  hostToken : ActorJwt

structure ActorHostHandle where
  hostId : HostId
  route : String
  canonicalRegion : String

inductive ControlOp where
  | sql (statement : Sql)
  | unixMillis
  | unixSeconds
  | newUuid
  | launchSpec (namespaceId : String)
  | ensureHost (request : EnsureHostRequest)
  | publicHostRoute (spec : HostLaunchSpec) (region : String)
  | readUrl (region objectName : String)
  | writeTicket (region : String) (actor : ActorKey) (stateVersion : ℕ)

@[reducible] def ControlOp.Res : ControlOp → Type
  | .sql statement => Result statement.Rows
  | .unixMillis => Result ℕ
  | .unixSeconds => Result ℕ
  | .newUuid => Result String
  | .launchSpec _ => Result (Option HostLaunchSpec)
  | .ensureHost _ => Result ActorHostHandle
  | .publicHostRoute .. => Result String
  | .readUrl .. => Result String
  | .writeTicket .. => Result StateWriteTicket

abbrev ControlM := ExceptT Error (Prog ControlOp ControlOp.Res)

namespace ControlM

def ofResult {α : Type} (r : Result α) : ControlM α := ExceptT.mk (pure r)

/-- A call of a store, statement by statement. -/
def store {α : Type} (p : StoreM (Result α)) : ControlM α :=
  ExceptT.mk (p.interp fun statement => perform (ControlOp.sql statement))

def unixMillis : ControlM ℕ := ExceptT.mk (perform ControlOp.unixMillis)
def unixSeconds : ControlM ℕ := ExceptT.mk (perform ControlOp.unixSeconds)
def newUuid : ControlM String := ExceptT.mk (perform ControlOp.newUuid)
def launchSpec (namespaceId : String) : ControlM (Option HostLaunchSpec) :=
  ExceptT.mk (perform (ControlOp.launchSpec namespaceId))
def providerEnsureHost (request : EnsureHostRequest) : ControlM ActorHostHandle :=
  ExceptT.mk (perform (ControlOp.ensureHost request))
def publicHostRoute (spec : HostLaunchSpec) (region : String) : ControlM String :=
  ExceptT.mk (perform (ControlOp.publicHostRoute spec region))
def readUrl (region objectName : String) : ControlM String :=
  ExceptT.mk (perform (ControlOp.readUrl region objectName))
def writeTicket (region : String) (actor : ActorKey) (stateVersion : ℕ) : ControlM StateWriteTicket :=
  ExceptT.mk (perform (ControlOp.writeTicket region actor stateVersion))

end ControlM

inductive ControlPlaneCommand where
  | registerLease (request : HostLeaseRequest)
  | unregisterLease (hostId : HostId)
  | prepareStateWrite (actor : ActorKey) (hostId : HostId) (ownerEpoch expectedVersion : ℕ)
  | commitState (actor : ActorKey) (hostId : HostId) (ownerEpoch expectedVersion : ℕ) (stateObject requestId : String)

inductive ControlPlaneCommandReply where
  | unit
  | lease (lease : HostLease) (replacementToken : Option ActorJwt)
  | stateWriteTicket (ticket : StateWriteTicket)
  | stateCommitted (stateVersion : ℕ) (nextWrite : Option StateWriteTicket)

/-- `HOST_TOKEN_RENEWAL_WINDOW_SECONDS` -/
def hostTokenRenewalWindowSeconds : ℤ := 600

/-! ### Authorization of external sockets -/

structure SocketAuthorizationRequest where
  triggerId : String
  actorId : String
  credential : String

structure SocketAuthorization where
  actor : ActorKey
  storageRegion : String
  metadata : Value
  expiresAt : ℤ

inductive SocketAuthorizationError where
  | rejected
  | unavailable (error : Error)

structure SocketAuthorizationResponse where
  namespaceId : String
  actorType : String
  actorId : String
  storageRegion : String
  metadata : Value
  expiresAt : ℤ

def SocketAuthorizationResponse.intoAuthorization (response : SocketAuthorizationResponse) (now : ℤ)
    (requestedActorId : String) : Result SocketAuthorization := do
  ensure (response.actorId = requestedActorId) "socket authorization changed the requested actor ID"
  ensure (response.storageRegion ≠ "") "socket authorization omitted its storage region"
  ensure (now < response.expiresAt) "socket authorization has expired"
  validateSocketMetadata response.metadata
  let actor : ActorKey := ⟨response.namespaceId, response.actorType, response.actorId⟩
  actor.validate
  pure ⟨actor, response.storageRegion, response.metadata, response.expiresAt⟩

/-- What the authorization service says: nothing, or a status and what its document is read as. -/
inductive AuthorizationReply where
  | failed (error : Error)
  | answered (status : ℕ) (response : Result SocketAuthorizationResponse)

structure HttpSocketAuthenticator where
  post : SocketAuthorizationRequest → AuthorizationReply

def HttpSocketAuthenticator.authorize (authenticator : HttpSocketAuthenticator) (now : ℤ)
    (request : SocketAuthorizationRequest) : Except SocketAuthorizationError SocketAuthorization :=
  match authenticator.post request with
  | .failed e => .error (.unavailable e)
  | .answered status response =>
    if status = 401 ∨ status = 403 ∨ status = 404 then .error .rejected
    else if 400 ≤ status ∧ status < 600 then .error (.unavailable (.new "HTTP status error"))
    else (do (← response).intoAuthorization now request.actorId).mapError .unavailable

structure ControlPlaneService where
  auth : ActorJwtVerifier
  hostTokenIssuer : Option ActorJwtIssuer
  routing : Bool
  provisioner : Option ActorJwtIssuer
  regions : List String
  parsers : Parsers
  socketAuthenticator : Option HttpSocketAuthenticator := none

/-! ### Pure checks -/

def ActorPrincipal.validateHostId (principal : ActorPrincipal) (hostId : HostId) : Result Unit :=
  ensure (hostId = principal.hostId) "host does not match the authenticated host identity"

def validateHostRoute (parsers : Parsers) (route : String) : Result Unit := do
  let url ← orContext (parsers.parseUrl route) "relative URL without a base"
  ensure url.isHttp "host route must be an HTTP origin"
  ensure (url.username = "" ∧ url.password = none) "host route must not contain credentials"
  ensure (url.path = "/" ∧ url.query = none ∧ url.fragment = none)
    "host route must not contain a path, query, or fragment"

def validateStateOwner (principal : ActorPrincipal) (hostId : HostId) (ownerEpoch : ℕ)
    (placement : ObjectPlacement) :
    Result Unit := do
  ensure (placement.owner = hostId) "host does not own this actor"
  ensure (placement.ownerEpoch = ownerEpoch) "actor owner epoch is stale"
  ensure (placement.homeRegion = principal.region) "host is outside the actor home region"

def isHexDigit (c : Char) : Bool := c.isDigit || ('a' ≤ c && c ≤ 'f') || ('A' ≤ c && c ≤ 'F')

def validateObjectName (objectName : String) : Result Unit :=
  ensure ("snapshots/".toList <+: objectName.toList ∧ objectName.utf8ByteSize ≤ 1024 ∧ ¬ objectName.toList.any isControl)
    "actor state object name is invalid"

/-- The parts of a snapshot's name between the slashes. -/
def snapshotPartsMatch (actor : ActorKey) (stateVersion : ℕ) : List (List Char) → Bool
  | [root, head, nonce, namespaceId, actorType, actorId, file] =>
    root == "snapshots".toList && List.isPrefixOf head nonce && head.length == 2 && nonce.length == 32 &&
      nonce.all isHexDigit && namespaceId == actor.namespaceId.toList && actorType == actor.actorType.toList &&
      actorId == actor.actorId.toList && file == (toString stateVersion ++ ".json").toList
  | _ => false

def validateSnapshotObjectName (actor : ActorKey) (stateVersion : ℕ) (objectName : String) : Result Unit := do
  validateObjectName objectName
  ensure (snapshotPartsMatch actor stateVersion (objectName.toList.splitOn '/'))
    "actor state object name does not match its commit"

/-- The nonce is the simple form of a fresh UUID. -/
def snapshotObjectName (actor : ActorKey) (stateVersion : ℕ) (nonce : String) : Result String := do
  actor.validate
  ensure (0 < stateVersion) "actor state version must be positive"
  ensure (nonce.utf8ByteSize = 32 ∧ nonce.toList.all isHexDigit) "actor state object nonce is invalid"
  return "snapshots/" ++ String.ofList (nonce.toList.take 2) ++ "/" ++ nonce ++ "/" ++ actor.namespaceId ++ "/" ++
    actor.actorType ++ "/" ++ actor.actorId ++ "/" ++ toString stateVersion ++ ".json"

def hostMatchesRevision (host : HostId) (namespaceId revision : String) : Bool :=
  List.isPrefixOf ("host.v1." ++ namespaceId ++ "." ++ revision ++ ".").toList host.id.toList

def selectTargetRegion (current : Option ObjectPlacement) (storageRegion : String)
    (configuredRegions : List String) :
    Result String :=
  match current with
  | some placement => pure placement.homeRegion
  | none => do
    ensure (storageRegion ∈ configuredRegions) "workflow storage region has no Standard bucket"
    pure storageRegion

/-! ### Commands -/

namespace ControlPlaneService

open ControlM

variable (service : ControlPlaneService)

def authenticate (token : ActorJwt) : ControlM ActorPrincipal := do
  let decodedAt ← unixSeconds
  let now ← unixSeconds
  ofResult (service.auth.authenticate service.parsers decodedAt now token)

def requireActiveHost (principal : ActorPrincipal) : ControlM HostLease := do
  let status ← store (PostgresHostLeaseStore.leaseStatus principal.hostId)
  ofResult (ensure status.isActive "host lease is not active")
  let lease ← ofResult (orContext status.lease "active host lease is missing")
  ofResult (ensure (lease.sessionId = principal.sessionId) "host lease belongs to another session")
  pure lease

def currentPlacement (actor : ActorKey) : ControlM ObjectPlacement := do
  let placement ← store (PostgresObjectPlacementStore.get actor.storageKey)
  ofResult (orContext placement "actor has no current placement")

def stateWriteTicket (region : String) (actor : ActorKey) (expectedVersion : ℕ) :
    ControlM StateWriteTicket := do
  let stateVersion ← ofResult (orContext (checkedAdd expectedVersion 1) "actor state version overflow")
  writeTicket region actor stateVersion

def replacementHostToken (principal : ActorPrincipal) : ControlM (Option ActorJwt) := do
  let now ← unixSeconds
  if hostTokenRenewalWindowSeconds < principal.expiresAt - now then pure none
  else do
    let issuer ← ofResult (orContext service.hostTokenIssuer "JWT issuer is not configured")
    let codeRevision ← ofResult (orContext principal.codeRevision "host token has no code revision")
    let nowMs ← unixMillis
    let issued ← ofResult (issuer.issueHost nowMs principal.scope.namespaceId principal.hostId principal.sessionId
      codeRevision principal.region)
    pure (some issued.token)

def registerLease (principal : ActorPrincipal) (request : HostLeaseRequest) :
    ControlM ControlPlaneCommandReply := do
  ofResult (principal.validateHostId request.id)
  ofResult (ensure (request.sessionId = principal.sessionId) "lease session does not match host token")
  ofResult (validateHostRoute service.parsers request.route)
  let lease ← store (PostgresHostLeaseStore.register request)
  pure (.lease lease (← service.replacementHostToken principal))

def unregisterLease (principal : ActorPrincipal) (hostId : HostId) : ControlM ControlPlaneCommandReply := do
  ofResult (principal.validateHostId hostId)
  store (PostgresHostLeaseStore.unregister hostId principal.sessionId)
  pure .unit

def prepareStateWrite (principal : ActorPrincipal) (actor : ActorKey) (hostId : HostId)
    (ownerEpoch expectedVersion : ℕ) :
    ControlM ControlPlaneCommandReply := do
  ofResult actor.validate
  ofResult (ensure (principal.scope.contains actor) "actor crossed the host namespace")
  ofResult (principal.validateHostId hostId)
  let _ ← requireActiveHost principal
  let placement ← currentPlacement actor
  ofResult (validateStateOwner principal hostId ownerEpoch placement)
  ofResult (ensure (placement.stateVersion = expectedVersion) "actor state version changed before write preparation")
  pure (.stateWriteTicket (← stateWriteTicket placement.homeRegion actor expectedVersion))

/-- The ticket for the next write is a courtesy: without it the commit stands. -/
def nextWrite (actor : ActorKey) (placement : ObjectPlacement) : ControlM (Option StateWriteTicket) :=
  tryCatch (do return some (← stateWriteTicket placement.homeRegion actor placement.stateVersion)) fun _ => pure none

def commitState (principal : ActorPrincipal) (actor : ActorKey) (hostId : HostId)
    (ownerEpoch expectedVersion : ℕ) (stateObject requestId : String) :
    ControlM ControlPlaneCommandReply := do
  ofResult actor.validate
  ofResult (ensure (principal.scope.contains actor) "actor crossed the host namespace")
  ofResult (principal.validateHostId hostId)
  let _ ← requireActiveHost principal
  let stateVersion ← ofResult (orContext (checkedAdd expectedVersion 1) "actor state version overflow")
  ofResult (validateSnapshotObjectName actor stateVersion stateObject)
  match ← store (PostgresObjectPlacementStore.commitState
      ⟨actor.storageKey, hostId, principal.sessionId, ownerEpoch, expectedVersion, stateObject, requestId⟩) with
  | .committed placement => pure (.stateCommitted placement.stateVersion (← nextWrite actor placement))
  | .current _ => throw (.new "actor ownership or state version changed before commit")

def executeCommand (principal : ActorPrincipal) (command : ControlPlaneCommand) :
    ControlM ControlPlaneCommandReply := do
  ofResult (ensure (principal.processRole = .host) "only hosts may use the internal control-plane API")
  match command with
  | .registerLease request => service.registerLease principal request
  | .unregisterLease hostId => unregisterLease principal hostId
  | .prepareStateWrite actor hostId ownerEpoch expectedVersion =>
    prepareStateWrite principal actor hostId ownerEpoch expectedVersion
  | .commitState actor hostId ownerEpoch expectedVersion stateObject requestId =>
    commitState principal actor hostId ownerEpoch expectedVersion stateObject requestId

def execute (token : ActorJwt) (command : ControlPlaneCommand) : ControlM ControlPlaneCommandReply := do
  service.executeCommand (← service.authenticate token) command

/-! ### Targets -/

end ControlPlaneService

structure RoutedActor where
  placement : ObjectPlacement
  lease : HostLease
  spec : HostLaunchSpec

structure WorkflowActorTarget where
  route : String
  token : ActorJwt
  ownerEpoch : ℕ
  stateVersion : ℕ
  stateReadUrl : String
  expiresAtMs : ℤ
  deriving DecidableEq

inductive WorkflowRoute where
  | invocation
  | controlPlane

namespace ControlPlaneService

open ControlM

variable (service : ControlPlaneService)

/-- `SandboxHostProvisioner::request` -/
def hostRequest (issuer : ActorJwtIssuer) (spec : HostLaunchSpec) (region : String) :
    ControlM EnsureHostRequest := do
  let hostId : HostId := ⟨"host.v1." ++ spec.namespaceId ++ "." ++ spec.codeRevision ++ "." ++ (← newUuid)⟩
  let sessionId ← newUuid
  let nowMs ← unixMillis
  let issued ← ofResult (issuer.issueHost nowMs spec.namespaceId hostId sessionId spec.codeRevision region)
  pure ⟨spec.namespaceId, spec.codeRevision, region, hostId, sessionId, issued.token⟩

def activeLease (handle : ActorHostHandle) (region : String) : ControlM HostLease := do
  ofResult (ensure (handle.canonicalRegion = region) "sandbox provider returned the wrong region")
  ofResult (validateHostRoute service.parsers handle.route)
  let status ← store (PostgresHostLeaseStore.leaseStatus handle.hostId)
  ofResult (ensure status.isActive "sandbox host lease is not active")
  let lease ← ofResult (orContext status.lease "active sandbox lease is missing")
  ofResult (ensure (lease.route = handle.route) "sandbox route does not match its lease")
  pure lease

def ensureHost (issuer : ActorJwtIssuer) (spec : HostLaunchSpec) (region : String) : ControlM HostLease := do
  let handle ← providerEnsureHost (← hostRequest issuer spec region)
  service.activeLease handle region

def activeTarget (current : Option ObjectPlacement) (spec : HostLaunchSpec) : ControlM (Option RoutedActor) :=
  match current with
  | none => pure none
  | some placement =>
    if hostMatchesRevision placement.owner spec.namespaceId spec.codeRevision then do
      let status ← store (PostgresHostLeaseStore.leaseStatus placement.owner)
      if status.isActive then do
        let lease ← ofResult (orContext status.lease "active lease is missing")
        pure (some ⟨placement, lease, spec⟩)
      else pure none
    else pure none

/-- The loop of `route_actor`, cut after any number of rounds. -/
def routeRounds (actor : ActorKey) (storageRegion : String) (spec : HostLaunchSpec) : ℕ → ControlM RoutedActor
  | 0 => throw (.new "still claiming")
  | rounds + 1 => do
    let current ← store (PostgresObjectPlacementStore.get actor.storageKey)
    match ← activeTarget current spec with
    | some target => pure target
    | none => do
      let region ← ofResult (selectTargetRegion current storageRegion service.regions)
      let issuer ← ofResult (orContext service.provisioner "sandbox provider is not configured")
      let lease ← service.ensureHost issuer spec region
      match ← store (PostgresObjectPlacementStore.claim actor.storageKey current lease.id region) with
      | .acquired placement | .current placement =>
        if placement.owner = lease.id then pure ⟨placement, lease, spec⟩
        else routeRounds actor storageRegion spec rounds

def routeActor (rounds : ℕ) (actor : ActorKey) (storageRegion : String) : ControlM RoutedActor := do
  ofResult (ensure service.routing "actor routing is not configured")
  let spec ← ofResult (orContext (← launchSpec actor.namespaceId) "project has no registered actor code")
  service.routeRounds actor storageRegion spec rounds

def publicRoute (target : RoutedActor) : ControlM String :=
  if "https://".toList <+: target.lease.route.toList then pure target.lease.route
  else publicHostRoute target.spec target.placement.homeRegion

def stateReadUrl (placement : ObjectPlacement) : ControlM String :=
  match placement.stateObject with
  | some objectName => readUrl placement.homeRegion objectName
  | none => pure ""

def targetRoute (principal : ActorPrincipal) (target : RoutedActor) : WorkflowRoute → ControlM String
  | .invocation =>
    if principal.privateRouting ∧ principal.region = target.placement.homeRegion then pure target.lease.route
    else publicRoute target
  | .controlPlane => publicRoute target

def resolveWorkflowRoute (rounds : ℕ) (principal : ActorPrincipal) (actor : ActorKey)
    (routeKind : WorkflowRoute) :
    ControlM WorkflowActorTarget := do
  ofResult actor.validate
  ofResult (ensure (principal.processRole = .workflow ∧ principal.scope.contains actor)
    "workflow token cannot resolve this actor")
  let target ← service.routeActor rounds actor principal.region
  let stateReadUrl ← stateReadUrl target.placement
  let issuer ← ofResult (orContext service.hostTokenIssuer "JWT issuer is not configured")
  let nowMs ← unixMillis
  let issued ← ofResult (issuer.issueInvocationTarget nowMs actor target.lease.id target.lease.sessionId
    target.spec.codeRevision target.placement.homeRegion target.placement.ownerEpoch target.placement.stateVersion
    stateReadUrl principal.expiresAt)
  let route ← targetRoute principal target routeKind
  pure ⟨route, issued.token, target.placement.ownerEpoch, target.placement.stateVersion, stateReadUrl, issued.expiresAtMs⟩

end ControlPlaneService

/-! ### Workflow credentials at the public API and at the socket gateway -/

structure ApiError where
  status : ℕ
  code : String
  message : String

structure SocketApiError where
  status : ℕ
  message : String

namespace ControlPlaneService

variable (service : ControlPlaneService) (decodedAt now : ℤ) (token : ActorJwt) (actor : ActorKey)

def authenticateWorkflow : Result ActorPrincipal :=
  service.auth.authenticate service.parsers decodedAt now token

def authorizedWorkflow : Except ApiError ActorPrincipal := do
  let principal ← (service.authenticateWorkflow decodedAt now token).mapError fun _ =>
    ApiError.mk 401 "unauthenticated" "workflow token was rejected"
  refuse (principal.processRole ≠ .workflow) (ApiError.mk 403 "forbidden" "credential is not a workflow token")
  refuse (principal.scope.contains actor = false)
    (ApiError.mk 403 "forbidden" "workflow token cannot cross namespace scope")
  pure principal

/-- The checks of `resolve_actor_target` before it resolves. -/
def targetAccess : Except ApiError ActorPrincipal := do
  actor.validate.mapError fun e => ApiError.mk 400 "invalid_request" (e.chain.headD "")
  service.authorizedWorkflow decodedAt now token actor

def authorizeWorkflow : Except SocketApiError ActorPrincipal := do
  let principal ← (service.authenticateWorkflow decodedAt now token).mapError fun _ =>
    SocketApiError.mk 401 "actor token was rejected"
  refuse (principal.processRole ≠ .workflow ∨ principal.scope.contains actor = false)
    (SocketApiError.mk 403 "workflow token is not valid for this actor")
  pure principal

/-- The checks of `connect_workflow`, and the first ones of `apply_effects`. -/
def socketAccess : Except SocketApiError ActorPrincipal := do
  actor.validate.mapError fun _ => SocketApiError.mk 400 "invalid socket request"
  service.authorizeWorkflow decodedAt now token actor

/-- `apply_effects`, up to the registry -/
def effectsAccess (effects : List ActorSocketEffect) : Except SocketApiError ActorPrincipal := do
  let principal ← service.socketAccess decodedAt now token actor
  (validateSocketEffects effects).mapError fun _ => SocketApiError.mk 400 "invalid socket request"
  pure principal

end ControlPlaneService

/-- The headers of an upgrade that are text. -/
structure HeaderMap where
  authorization : Option String
  secWebsocketProtocol : Option String

def stripPrefix (start : String) (text : List Char) : Option (List Char) :=
  if start.toList <+: text then some (text.drop start.length) else none

def trimBlanks (text : List Char) : List Char :=
  ((text.dropWhile isAsciiSpace).reverse.dropWhile isAsciiSpace).reverse

def nonEmpty (text : List Char) : Option String := if text = [] then none else some (String.ofList text)

def externalCredential (headers : HeaderMap) : Option String :=
  let bearer := (headers.authorization.bind fun authorization => stripPrefix "Bearer " authorization.toList).bind nonEmpty
  let ticket := (headers.secWebsocketProtocol.bind fun protocols =>
    ((protocols.toList.splitOn ',').map trimBlanks).findSome? (stripPrefix "terse-ticket.")).bind nonEmpty
  bearer.or ticket

/-- The two random UUIDs are arguments. -/
def ActorPrincipal.forExternalSocket (hostUuid sessionUuid : String) (actor : ActorKey)
    (region : String) (expiresAt : ℤ) :
    ActorPrincipal where
  scope := ⟨actor.namespaceId⟩
  hostId := ⟨"workflow.v1." ++ actor.namespaceId ++ ".socket." ++ hostUuid⟩
  sessionId := sessionUuid
  processRole := .workflow
  region := region
  privateRouting := false
  codeRevision := none
  expiresAt := expiresAt
  invocation := none

def SocketApiError.fromAuthorization : SocketAuthorizationError → SocketApiError
  | .rejected => ⟨401, "socket credential was rejected"⟩
  | .unavailable _ => ⟨503, "socket authorization is unavailable"⟩

namespace ControlPlaneService

def authorizeSocket (service : ControlPlaneService) (now : ℤ) (request : SocketAuthorizationRequest) :
    Except SocketAuthorizationError SocketAuthorization :=
  match service.socketAuthenticator with
  | some authenticator => authenticator.authorize now request
  | none => .error (.unavailable (.new "socket authorization is not configured"))

/-- `connect_external`: the socket is opened without a token of the issuer. -/
def connectExternal (service : ControlPlaneService) (now : ℤ)
    (hostUuid sessionUuid triggerId actorId : String) (headers : HeaderMap) :
    Except SocketApiError (SocketAuthorization × ActorPrincipal) :=
  match externalCredential headers with
  | none => .error ⟨401, "socket credential is required"⟩
  | some credential => do
    let authorization ← (service.authorizeSocket now ⟨triggerId, actorId, credential⟩).mapError .fromAuthorization
    pure (authorization, .forExternalSocket hostUuid sessionUuid authorization.actor authorization.storageRegion
      authorization.expiresAt)

end ControlPlaneService

/-- `authorize_invocation` and `handle_socket`, up to the host: who may ask it for a turn. -/
def hostAccess (verifier : ActorJwtVerifier) (parsers : Parsers) (hostId : HostId) (decodedAt now : ℤ)
    (token : ActorJwt) (actor : ActorKey) (ownerEpoch stateVersion : ℕ) (stateReadUrl : String) :
    Except Status Unit := do
  let principal ← (verifier.authenticate parsers decodedAt now token).mapError fun e =>
    Status.mk .unauthenticated e.alternate
  validateHostRequest principal hostId actor ownerEpoch stateVersion stateReadUrl

end LDO
