import DurableObjects.Spec.Sockets
import DurableObjects.Spec.ControlPlane
import DurableObjects.Lib.Runs

/-! The WebSocket gateway. A connection is a task that connects, serves frames and queued
messages until one of them ends it, and disconnects; a `socket-effects` request is a task
that applies its effects. Tasks interleave at every lock and every await. Actor hosts are
outside: an event that was sent may be executed and committed at any time, and only an
event that was executed is answered `Completed`. -/

namespace LDO

open Prog

/-- The key of the cache of socket targets. -/
structure TargetKey where
  actor : ActorKey
  hostId : HostId
  sessionId : String
  expiresAt : ℤ
  deriving DecidableEq

/-- What `select` took: a frame (or an error, or the end) of the socket, or a message of the queue. -/
inductive Selected where
  | inbound (frame : Option (Result Frame))
  | outbound (message : Option OutboundMessage)

inductive GatewayOp where
  | recvInitialization
  | newUuid
  | insert (actor : ActorKey) (connection : ActorSocketConnection) (outbound : ℕ) (triggerId : Option String)
  | remove (actor : ActorKey) (connectionId : String)
  | connections (actor : ActorKey)
  | triggerId (actor : ActorKey) (connectionId : Option String)
  | recipients (actor : ActorKey) (exceptConnectionIds tags : List String)
  | sender (actor : ActorKey) (connectionId : String)
  | setMetadata (actor : ActorKey) (connectionId : String) (metadata : Value)
  | setTags (actor : ActorKey) (connectionId : String) (tags : List String)
  | activate (actor : ActorKey) (connectionId : String)
  | send (channel : ℕ) (message : OutboundMessage)
  | sendBroadcast (channel : ℕ) (message : OutboundMessage)
  | unixSeconds
  | cachedTarget (key : TargetKey)
  | invalidateTarget (key : TargetKey)
  | resolveTarget (key : TargetKey) (principal : ActorPrincipal)
  | sendSocketEvent (target : WorkflowActorTarget) (invocation : ActorSocketInvocation)
  | invalidateChannel (route : String)
  | deliver (actor : ActorKey) (triggerId : Option String) (event : ActorSocketEvent)
  | select
  | socketSend (frame : Frame)

@[reducible] def GatewayOp.Res : GatewayOp → Type
  | .recvInitialization => Option (Result Frame)
  | .newUuid => String
  | .insert .. => Bool
  | .remove .. => Option ActorSocketConnection
  | .connections _ => List ActorSocketConnection
  | .triggerId .. => Option String
  | .recipients .. => List ℕ
  | .sender .. => Option ℕ
  | .unixSeconds => Result ℤ
  | .cachedTarget _ => Option WorkflowActorTarget
  | .resolveTarget .. => Result WorkflowActorTarget
  | .sendSocketEvent .. => Result ActorExecutionResult
  | .select => Selected
  | .socketSend _ => Result Unit
  | _ => Unit

abbrev GatewayM := Prog GatewayOp GatewayOp.Res

structure GatewayEvent where
  op : GatewayOp
  answer : op.Res

/-! ### `ControlPlaneService` -/

namespace Gateway

def ask (op : GatewayOp) : GatewayM op.Res := perform op

def ofResult {α : Type} (r : Result α) : ExceptT Error GatewayM α := ExceptT.mk (pure r)

def lift {α : Type} (p : GatewayM α) : ExceptT Error GatewayM α := ExceptT.lift p

def unixSeconds : ExceptT Error GatewayM ℤ := ExceptT.mk (ask .unixSeconds)

def targetKey (principal : ActorPrincipal) (actor : ActorKey) : TargetKey :=
  ⟨actor, principal.hostId, principal.sessionId, principal.expiresAt⟩

/-- `try_get_with`: one of the tasks that ask for a target resolves it. -/
def resolveTarget (principal : ActorPrincipal) (actor : ActorKey) :
    ExceptT Error GatewayM WorkflowActorTarget :=
  ExceptT.mk (ask (.resolveTarget (targetKey principal actor) principal))

def socketTarget (principal : ActorPrincipal) (actor : ActorKey) :
    ExceptT Error GatewayM WorkflowActorTarget := do
  ofResult actor.validate
  ofResult (ensure (principal.processRole = .workflow ∧ principal.scope.contains actor)
    "workflow token cannot resolve this actor")
  let now ← unixSeconds
  ofResult (ensure (now < principal.expiresAt) "workflow token has expired")
  match ← lift (ask (.cachedTarget (targetKey principal actor))) with
  | some target =>
    if (now + 5) * 1000 < target.expiresAtMs then pure target
    else do
      lift (ask (.invalidateTarget (targetKey principal actor)))
      resolveTarget principal actor
  | none => resolveTarget principal actor

/-- The attempts of `dispatch_socket_event` that are left. -/
def dispatchAttempts (principal : ActorPrincipal) (invocation : ActorSocketInvocation) :
    ℕ → ExceptT Error GatewayM (List ActorSocketEffect)
  | 0 => throw (.new "internal error: entered unreachable code")
  | attempts + 1 => do
    let target ← socketTarget principal invocation.actor
    let retry : ExceptT Error GatewayM (List ActorSocketEffect) := do
      lift (ask (.invalidateTarget (targetKey principal invocation.actor)))
      if attempts = 0 then throw (.new "actor host remained unavailable after socket reroute")
      else dispatchAttempts principal invocation attempts
    match ← lift (ask (.sendSocketEvent target invocation)) with
    | .ok (.completed _ effects) => pure effects
    | .ok .reroute => retry
    | .ok .hostUnavailable => retry
    | .ok (.failed failure) => throw (.new (failure.code ++ ": " ++ failure.message))
    | .error e => do
      lift (ask (.invalidateTarget (targetKey principal invocation.actor)))
      lift (ask (.invalidateChannel target.route))
      throw e

def dispatchSocketEvent (principal : ActorPrincipal) (invocation : ActorSocketInvocation) :
    ExceptT Error GatewayM (List ActorSocketEffect) :=
  dispatchAttempts principal invocation 2

/-! ### `SocketRegistry` -/

def prepareEvent (actor : ActorKey) :
    ActorSocketEvent → GatewayM (ActorSocketEvent × List ActorSocketConnection)
  | .connect connection => do
    let connections ← ask (.connections actor)
    pure (.connect connection, connections ++ [connection])
  | .message connectionId message => do
    let connections ← ask (.connections actor)
    pure (.message connectionId message, connections)
  | .disconnect connection code reason wasClean => do
    let removed ← ask (.remove actor connection.id)
    let connections ← ask (.connections actor)
    pure (.disconnect (removed.getD connection) code reason wasClean, connections)

def sendTo (channel : Option ℕ) (message : OutboundMessage) : GatewayM Unit :=
  match channel with
  | some channel => ask (.send channel message)
  | none => pure ()

/-- The loop over the recipients of a broadcast. -/
def sendToAll (message : OutboundMessage) : List ℕ → GatewayM Unit
  | [] => pure ()
  | channel :: channels => do
    ask (.sendBroadcast channel message)
    sendToAll message channels

def applyOne (actor : ActorKey) : ActorSocketEffect → GatewayM Unit
  | .broadcast message exceptConnectionIds tags => do
    let recipients ← ask (.recipients actor exceptConnectionIds tags)
    sendToAll (.message message) recipients
  | .setMetadata connectionId metadata => ask (.setMetadata actor connectionId metadata)
  | .setTags connectionId tags => ask (.setTags actor connectionId tags)
  | .send connectionId message => do
    let channel ← ask (.sender actor connectionId)
    sendTo channel (.message message)
  | .close connectionId code reason => do
    let channel ← ask (.sender actor connectionId)
    sendTo channel (.close code reason)
  | .reject connectionId code reason => do
    let channel ← ask (.sender actor connectionId)
    sendTo channel (.close code reason)

def apply (actor : ActorKey) : List ActorSocketEffect → GatewayM Unit
  | [] => pure ()
  | effect :: effects => do
    applyOne actor effect
    apply actor effects

end Gateway

/-! ### Connections -/

/-- What `connect_workflow` or `connect_external` lets in. -/
structure SocketAccess where
  actor : ActorKey
  principal : ActorPrincipal
  metadata : Option Value
  triggerId : Option String
  actor_valid : actor.validate = .ok ()
  authorized : principal.processRole = .workflow ∧ principal.scope.contains actor
  metadata_valid : ∀ m, metadata = some m → validateSocketMetadata m = .ok ()

/-- How a connection ends: a close code, a reason, and whether it was clean. -/
structure Disconnect where
  code : ℕ
  reason : String
  wasClean : Bool
  deriving DecidableEq

namespace Gateway

def connecting : ActorSocketEvent → Option String
  | .connect connection => some connection.id
  | _ => none

def messageConnectionId : ActorSocketEvent → Option String
  | .message connectionId _ => some connectionId
  | _ => none

def dispatch (actor : ActorKey) (principal : ActorPrincipal) (event : ActorSocketEvent)
    (triggerMessage : Bool) :
    GatewayM Bool := do
  let (event, connections) ← prepareEvent actor event
  let requestId ← ask .newUuid
  let r ← (dispatchSocketEvent principal ⟨requestId, actor, event, connections⟩).run
  match r with
  | .ok effects =>
    match validateSocketEffects effects with
    | .error _ => pure false
    | .ok () => do
      apply actor effects
      match connecting event with
      | some connectionId => ask (.activate actor connectionId)
      | none => pure ()
      if triggerMessage then do
        let triggerId ← ask (.triggerId actor (messageConnectionId event))
        ask (.deliver actor triggerId event)
      pure true
  | .error _ => pure false

/-- The type of an initialization: the name of its one variant. -/
def isInitialize : Value → Bool
  | .str tag => tag == "initialize"
  | .obj [(tag, .null)] => tag == "initialize"
  | _ => false

def initializationOfJson : Value → Option Value
  | .obj fields => do
    let kind ← field fields "type"
    let metadata ← field fields "metadata"
    if isInitialize kind then some (toValue metadata) else none
  | .arr [kind, metadata] => if isInitialize kind then some (toValue metadata) else none
  | _ => none

/-- What `receive_metadata` makes of the first frame. -/
def metadataOf (serde : SerdeJson) : Option (Result Frame) → Option Value
  | some (.ok (.text document)) =>
    if maxSocketMetadataBytes + 128 < document.utf8ByteSize then none
    else do
      let metadata ← (fromSlice serde document.toUTF8).bind initializationOfJson
      match validateSocketMetadata metadata with
      | .ok () => some metadata
      | .error _ => none
  | _ => none

def receiveMetadata (serde : SerdeJson) : GatewayM (Option Value) := do
  let frame ← ask .recvInitialization
  pure (metadataOf serde frame)

def closeSocket (code : ℕ) (reason : String) : GatewayM Unit := do
  let _ ← ask (.socketSend (.close (some (code, reason))))
  pure ()

end Gateway

/-- Where a connection is. -/
inductive Stage where
  | opening
  | serving (connection : ActorSocketConnection)
  | leaving (connection : ActorSocketConnection) (disconnect : Disconnect)
  | ended

namespace Gateway

/-- The metadata a connection starts with: trusted, or the client's own. -/
def initialMetadata (serde : SerdeJson) (access : SocketAccess) : GatewayM (Option Value) :=
  match access.metadata with
  | some metadata => pure (some metadata)
  | none => receiveMetadata serde

/-- Up to the loop. Task `channel` receives from the channel of its connection. -/
def openConnection (serde : SerdeJson) (channel : ℕ) (access : SocketAccess) : GatewayM Stage := do
  match ← initialMetadata serde access with
  | none => do
    closeSocket 1002 "socket metadata was not initialized"
    pure .ended
  | some metadata => do
    let id ← ask .newUuid
    let connection : ActorSocketConnection := ⟨id, metadata, []⟩
    let inserted ← ask (.insert access.actor connection channel access.triggerId)
    if inserted then do
      let connected ← dispatch access.actor access.principal (.connect connection) false
      if connected then pure (.serving connection)
      else do
        let _ ← ask (.remove access.actor connection.id)
        closeSocket 1011 "actor rejected the connection"
        pure .ended
    else do
      closeSocket 1013 "actor connection limit reached"
      pure .ended

def onMessage (access : SocketAccess) (connection : ActorSocketConnection) (message : ActorSocketMessage) :
    GatewayM Stage := do
  let handled ← dispatch access.actor access.principal (.message connection.id message) true
  if handled then pure (.serving connection)
  else pure (.leaving connection ⟨1011, "actor socket handler failed", false⟩)

/-- One round of the loop. -/
def serve (access : SocketAccess) (connection : ActorSocketConnection) : GatewayM Stage := do
  let lost : Stage := .leaving connection ⟨1006, "", false⟩
  match ← ask .select with
  | .inbound (some (.ok (.text data))) => onMessage access connection (.text data)
  | .inbound (some (.ok (.binary data))) =>
      onMessage access connection (.binary (String.ofList (base64Encode data)))
  | .inbound (some (.ok (.ping data))) => do
    match ← ask (.socketSend (.pong data)) with
    | .ok () => pure (.serving connection)
    | .error _ => pure lost
  | .inbound (some (.ok (.pong _))) => pure (.serving connection)
  | .inbound (some (.ok (.close none))) => pure (.leaving connection ⟨1000, "", true⟩)
  | .inbound (some (.ok (.close (some (code, reason))))) => pure (.leaving connection ⟨code, reason, true⟩)
  | .inbound (some (.error _)) => pure lost
  | .inbound none => pure lost
  | .outbound (some (.message message)) =>
    match websocketMessage message with
    | none => pure (.leaving connection ⟨1011, "actor produced an invalid socket message", false⟩)
    | some frame => do
      match ← ask (.socketSend frame) with
      | .ok () => pure (.serving connection)
      | .error _ => pure lost
  | .outbound (some (.close code reason)) => do
    closeSocket code reason
    pure (.leaving connection ⟨code, reason, true⟩)
  | .outbound none => pure lost

def leave (access : SocketAccess) (connection : ActorSocketConnection) (disconnect : Disconnect) :
    GatewayM Stage := do
  let _ ← dispatch access.actor access.principal
    (.disconnect connection disconnect.code disconnect.reason disconnect.wasClean) false
  let _ ← ask (.remove access.actor connection.id)
  pure .ended

/-- `run_connection`, stage by stage. -/
def runConnection (serde : SerdeJson) (channel : ℕ) (access : SocketAccess) : Stage → GatewayM Stage
  | .opening => openConnection serde channel access
  | .serving connection => serve access connection
  | .leaving connection disconnect => leave access connection disconnect
  | .ended => pure .ended

end Gateway

end LDO
