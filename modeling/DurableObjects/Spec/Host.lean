import DurableObjects.Spec.Protocol
import DurableObjects.Spec.StateLog
import DurableObjects.Lib.Program

/-! `ActorHost`: one turn of an actor, for a method or a socket event. A turn is a
program whose calls are the places where it touches something shared or awaits:
the execution gate, the state cache, the clock, the executor, the object store and
the commit authority. Timings, logging and the activity counter are left out. -/

namespace LDO

open Prog

structure StateWriteTicket where
  stateVersion : ℕ
  objectName : String
  url : String
  expiresAtMs : ℤ
  deriving DecidableEq

structure PendingStateCommit where
  snapshot : StateSnapshot
  ticket : StateWriteTicket
  deriving DecidableEq

structure CachedActorState where
  ownerEpoch : ℕ
  stateVersion : ℕ
  state : Option Value
  lastRequestId : Option String
  lastResult : Option Value
  nextWrite : Option StateWriteTicket
  pending : Option PendingStateCommit
  deriving DecidableEq

structure CommittedState where
  stateVersion : ℕ
  nextWrite : Option StateWriteTicket
  deriving DecidableEq

inductive StateWrite where
  | written
  | alreadyExists
  deriving DecidableEq

structure LoadedState where
  bytes : ByteArray

inductive ActorExecutionAdmission where
  | acquired
  | full
  deriving DecidableEq

/-- The fixed parts of a host. -/
structure ActorHost where
  id : HostId
  namespaceId : String
  supports : String → Bool
  serde : SerdeJson

inductive HostOp where
  | accepting
  | admission (object : ActorStorageKey)
  | takeCachedState (object : ActorStorageKey)
  | storeCachedState (object : ActorStorageKey) (cached : CachedActorState)
  | read (url : String)
  | write (url : String) (bytes : ByteArray)
  | invokeWithState (invocation : ActorMethodInvocation) (state : Option Value)
  | handleSocketWithState (invocation : ActorSocketInvocation) (state : Option Value)
  | evict (actor : ActorKey)
  | unixMillis
  | prepareStateWrite (actor : ActorKey) (hostId : HostId) (ownerEpoch expectedVersion : ℕ)
  | commitState (actor : ActorKey) (hostId : HostId) (ownerEpoch expectedVersion : ℕ)
      (stateObject requestId : String)

@[reducible] def HostOp.Res : HostOp → Type
  | .accepting => Bool
  | .admission _ => Result ActorExecutionAdmission
  | .takeCachedState _ => Result (Option CachedActorState)
  | .storeCachedState .. => Result Unit
  | .read _ => Result LoadedState
  | .write .. => Result StateWrite
  | .invokeWithState .. => Result ActorMethodOutcome
  | .handleSocketWithState .. => Result ActorSocketOutcome
  | .evict _ => Result Unit
  | .unixMillis => Result ℕ
  | .prepareStateWrite .. => Result StateWriteTicket
  | .commitState .. => Result CommittedState

abbrev HostM := Prog HostOp HostOp.Res

/-- A call with its answer. -/
structure HostEvent where
  op : HostOp
  answer : op.Res

namespace CachedActorState

def new (ownerEpoch : ℕ) : CachedActorState where
  ownerEpoch := ownerEpoch
  stateVersion := 0
  state := none
  lastRequestId := none
  lastResult := none
  nextWrite := none
  pending := none

def fromLoaded (serde : SerdeJson) (ownerEpoch stateVersion : ℕ) (loaded : LoadedState) :
    Result CachedActorState := do
  let snapshot ← StateSnapshot.decode serde loaded.bytes
  ensure (snapshot.stateVersion = stateVersion) "actor snapshot version does not match its state head"
  ensure (snapshot.ownerEpoch ≤ ownerEpoch) "actor snapshot belongs to a newer owner epoch"
  pure { ownerEpoch := ownerEpoch, stateVersion := stateVersion, state := some snapshot.state,
         lastRequestId := some snapshot.requestId, lastResult := some snapshot.result,
         nextWrite := none, pending := none }

def replay (cached : CachedActorState) (requestId : String) : Option Value :=
  if cached.lastRequestId = some requestId then cached.lastResult else none

end CachedActorState

def failed (code message : String) : ActorExecutionResult := .failed ⟨code, message⟩

/-- `STATE_WRITE_TICKET_SAFETY` in milliseconds -/
def stateWriteTicketSafety : ℕ := 5000

inductive ActorSocketExecutionResult where
  | handled (effects : List ActorSocketEffect)
  | failed (failure : ActorInvocationFailure)
  | hostUnavailable
  deriving DecidableEq

def ActorSocketExecutionResult.fromActorResult : ActorExecutionResult → ActorSocketExecutionResult
  | .completed _ effects => .handled effects
  | .failed failure => .failed failure
  | .reroute => .hostUnavailable
  | .hostUnavailable => .hostUnavailable

def socketEventName : ActorSocketEvent → String
  | .connect _ => "onConnect"
  | .message .. => "onMessage"
  | .disconnect .. => "onDisconnect"

def ActorSocketEvent.disconnecting : ActorSocketEvent → Bool
  | .disconnect .. => true
  | _ => false

namespace ActorHost

variable (host : ActorHost)

/-- `allowed_while_draining || self.accepting.load(..)` -/
def accepts (allowedWhileDraining : Bool) : HostM Bool :=
  if allowedWhileDraining then pure true else perform HostOp.accepting

def validateOperation (invocation : ActorInvocation) (allowedWhileDraining : Bool) :
    HostM (Result (Option ActorExecutionResult)) := do
  let accepting ← accepts allowedWhileDraining
  if ¬ accepting then pure (.ok (some .hostUnavailable))
  else
    match invocation.validate with
    | .error e => pure (.error e)
    | .ok () =>
      if invocation.actor.namespaceId ≠ host.namespaceId then
        pure (.error (.new "actor invocation crossed the host namespace"))
      else if ¬ host.supports invocation.actor.actorType then
        pure (.ok (some (failed "actor_error" "actor type is not loaded by this host")))
      else pure (.ok none)

def validateInvocation (invocation : ActorInvocation) : HostM (Result (Option ActorExecutionResult)) :=
  host.validateOperation invocation false

/-- A failed eviction is only logged. -/
def evict (actor : ActorKey) : HostM Unit := do
  let _ ← perform (HostOp.evict actor)
  pure ()

def takeOrLoadState (object : ActorStorageKey) (ownerEpoch stateVersion : ℕ) (stateReadUrl : String) :
    HostM (Result CachedActorState) := do
  match ← perform (HostOp.takeCachedState object) with
  | .error e => pure (.error e)
  | .ok cached =>
    match cached.filter fun cached => cached.ownerEpoch = ownerEpoch with
    | some cached => pure (.ok cached)
    | none =>
      if stateVersion = 0 then
        pure (do
          ensure (stateReadUrl = "") "uninitialized actor has a state URL"
          pure (CachedActorState.new ownerEpoch))
      else
        match ensure (stateReadUrl ≠ "") "initialized actor has no state URL" with
        | .error e => pure (.error e)
        | .ok () => do
          match ← perform (HostOp.read stateReadUrl) with
          | .error e => pure (.error (e.context "load actor state"))
          | .ok loaded => pure (CachedActorState.fromLoaded host.serde ownerEpoch stateVersion loaded)

def failureCode (code : String) : String :=
  if code = "resource_exhausted" then "resource_exhausted" else "actor_error"

def executeMethod (invocation : ActorInvocation) (state : Option Value)
    (connections : List ActorSocketConnection) :
    HostM (Except ActorExecutionResult (Value × Value × List ActorSocketEffect)) := do
  let method : ActorMethodInvocation :=
    ⟨invocation.requestId, invocation.actor, invocation.method, invocation.args, connections⟩
  match ← perform (HostOp.invokeWithState method state) with
  | .ok (.completed result state effects) =>
    match validateSocketEffects effects with
    | .ok () => pure (.ok (result, state, effects))
    | .error e => do
      evict invocation.actor
      pure (.error (failed "actor_error" ("actor returned invalid socket effects: " ++ e.alternate)))
  | .ok (.failed failure) => do
    evict invocation.actor
    pure (.error (failed (failureCode failure.code) failure.message))
  | .error e => do
    evict invocation.actor
    pure (.error (failed "actor_error" ("actor executor failed: " ++ e.alternate)))

/-- Unlike `executeMethod`, a failure of the executor evicts nothing here. -/
def executeSocketEvent (invocation : ActorSocketInvocation) (state : Option Value) :
    HostM (Except ActorExecutionResult (Value × List ActorSocketEffect)) := do
  match ← perform (HostOp.handleSocketWithState invocation state) with
  | .ok (.handled state effects) =>
    match validateSocketEffects effects with
    | .ok () => pure (.ok (state, effects))
    | .error e => do
      evict invocation.actor
      pure (.error (failed "actor_error" ("actor returned invalid socket effects: " ++ e.alternate)))
  | .ok (.failed failure) => pure (.error (failed (failureCode failure.code) failure.message))
  | .error e => pure (.error (failed "actor_error" ("actor executor failed: " ++ e.alternate)))

def finishPendingCommit (invocation : ActorInvocation) (cached : CachedActorState) :
    HostM (Result Unit × CachedActorState) :=
  match cached.pending with
  | none => pure (.ok (), cached)
  | some pending => do
    match ← perform (HostOp.commitState invocation.actor host.id cached.ownerEpoch cached.stateVersion
        pending.ticket.objectName pending.snapshot.requestId) with
    | .error e => pure (.error e, cached)
    | .ok committed =>
      match ensure (committed.stateVersion = pending.snapshot.stateVersion)
          "control plane committed the wrong actor state version" with
      | .error e => pure (.error e, cached)
      | .ok () =>
        pure (.ok (), { cached with
          stateVersion := pending.snapshot.stateVersion
          state := some pending.snapshot.state
          lastRequestId := some pending.snapshot.requestId
          lastResult := some pending.snapshot.result
          nextWrite := committed.nextWrite
          pending := none })

/-- The ticket kept from the last commit, if it fits and lives long enough. -/
def usableTicket (nextVersion : ℕ) (kept : Option StateWriteTicket) :
    HostM (Result (Option StateWriteTicket)) :=
  match kept with
  | some ticket =>
    if ticket.stateVersion = nextVersion then do
      match ← perform HostOp.unixMillis with
      | .error e => pure (.error e)
      | .ok now =>
        pure (.ok (if ((min (now + stateWriteTicketSafety) i64Max : ℕ) : ℤ) < ticket.expiresAtMs
          then some ticket else none))
    else pure (.ok none)
  | none => pure (.ok none)

def writeTicket (actor : ActorKey) (ownerEpoch expectedVersion nextVersion : ℕ)
    (kept : Option StateWriteTicket) : HostM (Result StateWriteTicket) := do
  match ← usableTicket nextVersion kept with
  | .error e => pure (.error e)
  | .ok (some ticket) => pure (.ok ticket)
  | .ok none => perform (HostOp.prepareStateWrite actor host.id ownerEpoch expectedVersion)

/-- The snapshot of a turn, checked against its ticket and encoded. -/
def prepareSnapshot (ticket : StateWriteTicket) (nextVersion ownerEpoch : ℕ) (requestId : String)
    (nextState result : Value) : Result (StateSnapshot × ByteArray) := do
  ensure (ticket.stateVersion = nextVersion) "state write ticket has the wrong version"
  let snapshot ← StateSnapshot.new nextVersion ownerEpoch requestId nextState result
  let bytes ← snapshot.encode
  pure (snapshot, bytes)

def publishResultOnce (invocation : ActorInvocation) (ownerEpoch : ℕ) (cached : CachedActorState)
    (result nextState : Value) : HostM (Result ActorExecutionResult × CachedActorState) :=
  match orContext (checkedAdd cached.stateVersion 1) "actor state version overflow" with
  | .error e => pure (.error e, cached)
  | .ok nextVersion => do
    let kept := cached.nextWrite
    let cached := { cached with nextWrite := none }
    match ← host.writeTicket invocation.actor ownerEpoch cached.stateVersion nextVersion kept with
    | .error e => pure (.error e, cached)
    | .ok ticket =>
      match prepareSnapshot ticket nextVersion ownerEpoch invocation.requestId nextState result with
      | .error e => pure (.error e, cached)
      | .ok (snapshot, bytes) => do
        match ← perform (HostOp.write ticket.url bytes) with
        | .error e => pure (.error e, cached)
        | .ok _ => do
          let (finished, cached) ← host.finishPendingCommit invocation
            { cached with pending := some ⟨snapshot, ticket⟩ }
          match finished with
          | .error e => pure (.error e, cached)
          | .ok () => pure (.ok (.completed result []), cached)

/-- `self.store_cached_state(object, cached)?` before an answer -/
def storeAndAnswer {α : Type} (object : ActorStorageKey) (cached : CachedActorState) (answer : α) :
    HostM (Result α) := do
  match ← perform (HostOp.storeCachedState object cached) with
  | .error e => pure (.error e)
  | .ok () => pure (.ok answer)

def evictUnpublished (actor : ActorKey) : Result ActorExecutionResult → HostM Unit
  | .error _ => evict actor
  | .ok _ => pure ()

/-- The end of a turn whose state changed: publish, evict on failure, store, answer. -/
def publishAndStore {α : Type} (invocation : ActorInvocation) (object : ActorStorageKey) (ownerEpoch : ℕ)
    (cached : CachedActorState) (result nextState : Value)
    (answer : Result ActorExecutionResult → α) : HostM (Result α) := do
  let (published, cached) ← host.publishResultOnce invocation ownerEpoch cached result nextState
  evictUnpublished invocation.actor published
  storeAndAnswer object cached (answer published)

/-- What `invoke_actor_once` makes of its publication. -/
def methodAnswer (effects : List ActorSocketEffect) : Result ActorExecutionResult → ActorExecutionResult
  | .ok (.completed result _) => .completed result effects
  | .ok result => result
  | .error _ => .failed .outcomeUnknownAfterExecution

def socketAnswer (effects : List ActorSocketEffect) : Result ActorExecutionResult → ActorSocketExecutionResult
  | .ok (.completed ..) => .handled effects
  | .ok result => .fromActorResult result
  | .error _ => .failed .outcomeUnknownAfterExecution

/-- A method turn once it has its state. -/
def invokeWithCached (invocation : ActorInvocation) (object : ActorStorageKey) (ownerEpoch : ℕ)
    (cached : CachedActorState) : HostM (Result ActorExecutionResult) := do
  let (finished, cached) ← host.finishPendingCommit invocation cached
  match finished with
  | .error _ => storeAndAnswer object cached (.failed .outcomeUnknownAfterExecution)
  | .ok () =>
    match cached.replay invocation.requestId with
    | some result => storeAndAnswer object cached (.completed result [])
    | none => do
      match ← executeMethod invocation cached.state [] with
      | .error failure => storeAndAnswer object cached failure
      | .ok (result, nextState, effects) =>
        if cached.state = some nextState then storeAndAnswer object cached (.completed result effects)
        else host.publishAndStore invocation object ownerEpoch cached result nextState (methodAnswer effects)

/-- Admission and loading, the same for methods and socket events: wait for the
gate, check again that the host accepts work, and get the state. -/
def admitted {α : Type} (object : ActorStorageKey) (allowedWhileDraining : Bool) (unavailable : α)
    (ownerEpoch stateVersion : ℕ) (stateReadUrl : String) (turn : CachedActorState → HostM (Result α)) :
    HostM (Result α) := do
  match ← perform (HostOp.admission object) with
  | .error e => pure (.error e)
  | .ok .full => pure (.ok unavailable)
  | .ok .acquired => do
    let accepting ← accepts allowedWhileDraining
    if ¬ accepting then pure (.ok unavailable)
    else
      match ← host.takeOrLoadState object ownerEpoch stateVersion stateReadUrl with
      | .error e => pure (.error e)
      | .ok cached => turn cached

def invokeActorOnce (invocation : ActorInvocation) (ownerEpoch stateVersion : ℕ) (stateReadUrl : String) :
    HostM (Result ActorExecutionResult) := do
  match ← host.validateInvocation invocation with
  | .error e => pure (.error e)
  | .ok (some result) => pure (.ok result)
  | .ok none =>
    let object := invocation.actor.storageKey
    host.admitted object false .hostUnavailable ownerEpoch stateVersion stateReadUrl
      (host.invokeWithCached invocation object ownerEpoch)

/-- What a socket event is published under. -/
def persistence (invocation : ActorSocketInvocation) : ActorInvocation :=
  ⟨invocation.requestId, invocation.actor, socketEventName invocation.event, []⟩

/-- A socket turn once it has its state. There is no replay. -/
def handleSocketWithCached (invocation : ActorSocketInvocation) (object : ActorStorageKey) (ownerEpoch : ℕ)
    (cached : CachedActorState) : HostM (Result ActorSocketExecutionResult) := do
  let (finished, cached) ← host.finishPendingCommit (persistence invocation) cached
  match finished with
  | .error _ => storeAndAnswer object cached (.failed .outcomeUnknownAfterExecution)
  | .ok () => do
    match ← executeSocketEvent invocation cached.state with
    | .error failure => storeAndAnswer object cached (.fromActorResult failure)
    | .ok (nextState, effects) =>
      if cached.state = some nextState then storeAndAnswer object cached (.handled effects)
      else
        host.publishAndStore (persistence invocation) object ownerEpoch cached .null nextState
          (socketAnswer effects)

def handleSocketEventOnce (invocation : ActorSocketInvocation) (ownerEpoch stateVersion : ℕ)
    (stateReadUrl : String) : HostM (Result ActorSocketExecutionResult) := do
  let disconnecting := invocation.event.disconnecting
  match ← host.validateOperation (persistence invocation) disconnecting with
  | .error e => pure (.error e)
  | .ok (some result) => pure (.ok (.fromActorResult result))
  | .ok none =>
    let object := invocation.actor.storageKey
    host.admitted object disconnecting .hostUnavailable ownerEpoch stateVersion stateReadUrl
      (host.handleSocketWithCached invocation object ownerEpoch)

end ActorHost

/-! ### Calls of the host service -/

inductive ActorRequest where
  | invoke (invocation : ActorInvocation)
  | handleSocket (invocation : ActorSocketInvocation)
  deriving DecidableEq

/-- A request with the capability it carries. -/
structure HostCall where
  request : ActorRequest
  ownerEpoch : ℕ
  stateVersion : ℕ
  stateReadUrl : String
  deriving DecidableEq

inductive TurnAnswer where
  | invoked (r : Result ActorExecutionResult)
  | handled (r : Result ActorSocketExecutionResult)
  deriving DecidableEq

/-- What a request is published under. -/
def ActorRequest.persistence : ActorRequest → ActorInvocation
  | .invoke invocation => invocation
  | .handleSocket invocation => ActorHost.persistence invocation

def ActorRequest.actor (request : ActorRequest) : ActorKey := request.persistence.actor

def ActorRequest.object (request : ActorRequest) : ActorStorageKey := request.actor.storageKey

def ActorRequest.id (request : ActorRequest) : String := request.persistence.requestId

def HostCall.program (host : ActorHost) (call : HostCall) : HostM TurnAnswer :=
  match call.request with
  | .invoke invocation =>
    .invoked <$> host.invokeActorOnce invocation call.ownerEpoch call.stateVersion call.stateReadUrl
  | .handleSocket invocation =>
    .handled <$> host.handleSocketEventOnce invocation call.ownerEpoch call.stateVersion call.stateReadUrl

end LDO
