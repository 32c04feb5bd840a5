import DurableObjects.Spec.Session
import DurableObjects.Spec.Wire

/-! `RemoteActorClient`, which workflows call actors with: it finds the host of an actor, sends
the invocation there, and tries once more when the host sends it elsewhere. The caches of
other calls and the control plane answer as they may. Telemetry is left out. -/

namespace LDO

open Prog

structure ActorHostTarget where
  route : String
  token : String
  ownerEpoch : ℕ
  stateVersion : ℕ
  stateReadUrl : String
  expiresAtMs : ℤ
  deriving DecidableEq

structure DirectActorInvocation where
  requestId : String
  namespaceId : String
  actorType : String
  actorId : String
  method : String
  args : List JsonValue

inductive ActorHostReply where
  | completed (result : JsonValue) (effects : List SocketEffect)
  | failed (code message : String)
  | reroute

/-- What is thrown: the two error classes of the package, or anything else. -/
inductive ClientError where
  | invocation (code requestId message : String)
  | protocol (message : String)
  | other (message : String)
  deriving DecidableEq

/-- `decodeReply`; `parse` reads the JSON of a completed call and may throw. -/
def decodeReply (parse : ByteArray → ByteArray → Except ClientError (JsonValue × List SocketEffect))
    (reply : InvokeActorReply) : Except ClientError ActorHostReply :=
  match reply.result with
  | some (.completed resultJson socketEffectsJson) => do
    let (result, effects) ← parse resultJson socketEffectsJson
    pure (.completed result effects)
  | some (.failed code message) => pure (.failed code message)
  | some .reroute => pure .reroute
  | none => throw (.protocol "actor host response did not contain a result")

inductive ClientOp where
  | currentActorInvocation
  | getTarget (key : String × String)
  | setTarget (key : String × String)
  | deleteTarget (key : String × String)
  | now
  | fetchTarget (invocation : DirectActorInvocation)
  | actorHostInvoke (target : ActorHostTarget) (invocation : DirectActorInvocation)
  | postSocketEffects (invocation : DirectActorInvocation) (effects : List SocketEffect)

/-- A cached target is a promise: it is awaited, and may have been rejected. -/
@[reducible] def ClientOp.Res : ClientOp → Type
  | .currentActorInvocation => Bool
  | .getTarget _ => Option (Except ClientError ActorHostTarget)
  | .now => ℤ
  | .fetchTarget _ => Except ClientError ActorHostTarget
  | .actorHostInvoke .. => Except ClientError ActorHostReply
  | .postSocketEffects .. => Except ClientError Unit
  | _ => Unit

abbrev ClientM := ExceptT ClientError (Prog ClientOp ClientOp.Res)

namespace RemoteActorClient

def ask (op : ClientOp) : ClientM op.Res := ExceptT.lift (perform op)

/-- A call that may throw. -/
def await {α : Type} (p : Prog ClientOp ClientOp.Res (Except ClientError α)) : ClientM α := ExceptT.mk p

def actorKey (invocation : DirectActorInvocation) : String × String :=
  (invocation.actorType, invocation.actorId)

def targetExpirationSafetyMs : ℤ := 5000

def resolve (invocation : DirectActorInvocation) : ClientM ActorHostTarget := do
  ask (.setTarget (actorKey invocation))
  tryCatch (await (perform (ClientOp.fetchTarget invocation))) fun e => do
    ask (.deleteTarget (actorKey invocation))
    throw e

def target (invocation : DirectActorInvocation) : ClientM ActorHostTarget := do
  match ← ask (.getTarget (actorKey invocation)) with
  | some current => do
    let target ← await (pure current)
    let now ← ask .now
    if now + targetExpirationSafetyMs < target.expiresAtMs then pure target
    else do
      ask (.deleteTarget (actorKey invocation))
      resolve invocation
  | none => resolve invocation

def applySocketEffects (invocation : DirectActorInvocation) (effects : List SocketEffect) : ClientM Unit :=
  match effects with
  | [] => pure ()
  | effects => await (perform (ClientOp.postSocketEffects invocation effects))

def onError (invocation : DirectActorInvocation) : ClientError → ClientM (ClientM JsonValue)
  | .invocation code requestId message => throw (.invocation code requestId message)
  | .protocol message => throw (.protocol message)
  | .other message => do
    ask (.deleteTarget (actorKey invocation))
    throw (.invocation "outcome_unknown" invocation.requestId
      ("actor-host gRPC request failed after dispatch: " ++ message))

/-- The body of `direct`: what it returns is run outside the `try`. -/
def attempt (invocation : DirectActorInvocation) (rerouted : ClientM (ClientM JsonValue))
    (target : ActorHostTarget) :
    ClientM (ClientM JsonValue) :=
  tryCatch (do
    match ← await (perform (ClientOp.actorHostInvoke target invocation)) with
    | .completed result effects => do
      applySocketEffects invocation effects
      pure (pure result)
    | .failed code message => throw (.invocation code invocation.requestId message)
    | .reroute => rerouted) (onError invocation)

/-- `direct` with `retryReroute` off -/
def directLast (invocation : DirectActorInvocation) (target : ActorHostTarget) : ClientM JsonValue := do
  let next ← attempt invocation (throw (.invocation "unavailable" invocation.requestId
    "actor ownership changed repeatedly before execution")) target
  next

/-- `direct` with `retryReroute` on -/
def direct (invocation : DirectActorInvocation) (target : ActorHostTarget) : ClientM JsonValue := do
  let next ← attempt invocation (do
    ask (.deleteTarget (actorKey invocation))
    let rerouted ← RemoteActorClient.target invocation
    pure (directLast invocation rerouted)) target
  next

/-- `invoke`, from the point where the request has its ID; `built` is the checked invocation. -/
def invoke (requestId : String) (built : Except ClientError DirectActorInvocation) : ClientM JsonValue := do
  if ← ask .currentActorInvocation then
    throw (.invocation "actor_error" requestId "actor-to-actor calls are not available")
  else do
    let invocation ← await (pure built)
    let target ← target invocation
    direct invocation target

end RemoteActorClient

end LDO
