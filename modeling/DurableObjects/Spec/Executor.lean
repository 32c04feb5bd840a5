import DurableObjects.Spec.Connection
import DurableObjects.Spec.Host

/-! `JsActorExecutor`, which hands a turn to the customer's process, and the actor runtime
there. A command goes out without its state when the actor is thought to be resident, and
once more with it when the runtime asks for the state. -/

namespace LDO

open Prog

inductive ExecutorCommand where
  | invoke (invocation : ActorMethodInvocation)
  | websocketEvent (invocation : ActorSocketInvocation)
  deriving DecidableEq

def ExecutorCommand.actor : ExecutorCommand → ActorKey
  | .invoke invocation => invocation.actor
  | .websocketEvent invocation => invocation.actor

structure ExecutorCommandEnvelope where
  command : ExecutorCommand
  state : Option Value
  residentOnly : Bool
  deriving DecidableEq

/-! ### The runtime -/

/-- An actor class: `I` are its instances. A handler that throws leaves no instance behind. -/
structure ActorDefinition (I : Type) where
  actorType : String
  methods : String → Bool
  callable : I → String → Bool
  construct : ActorKey → Except String I
  hydrate : I → Value → Except String I
  invoke : I → ActorMethodInvocation → Except String (I × Value × Value × List ActorSocketEffect)
  handleSocketEvent : I → ActorSocketInvocation → Except String (I × Value × List ActorSocketEffect)

structure ActorRuntime (I : Type) where
  definition : ActorDefinition I
  /-- The instance and its identity, set and reset together. -/
  resident : Option (ActorKey × I)

/-- What a command did: the reply, the runtime after it, and whether a handler ran. -/
structure Handled (I : Type) where
  reply : ExecutorReply
  runtime : ActorRuntime I
  ran : Bool

namespace ActorRuntime

variable {I : Type}

def refuse (runtime : ActorRuntime I) (code message : String) : Handled I :=
  ⟨.failed code message, runtime, false⟩

def createInstance (runtime : ActorRuntime I) (identity : ActorKey) (state : Value) : Except String I := do
  let instance_ ← runtime.definition.construct identity
  match state with
  | .null => pure instance_
  | .obj fields => runtime.definition.hydrate instance_ (.obj fields)
  | _ => throw "persisted actor state must be a JSON object"

/-- The instance the command is for, made from its state if there is none. An exception here
is answered by the entrypoint of the worker. -/
def prepare (runtime : ActorRuntime I) (envelope : ExecutorCommandEnvelope) : Except (Handled I) I :=
  let identity := envelope.command.actor
  if identity.actorType ≠ runtime.definition.actorType then
    .error (runtime.refuse "actor_type_not_found"
      ("actor type " ++ identity.actorType ++ " is not loaded in this customer process"))
  else
    match runtime.resident with
    | some (resident, instance_) =>
      if resident ≠ identity then
        .error (runtime.refuse "actor_identity_mismatch"
          "resident actor Worker received an invocation for a different actor")
      else .ok instance_
    | none =>
      if envelope.residentOnly then .error ⟨.stateRequired, runtime, false⟩
      else
        match envelope.state with
        | none => .error (runtime.refuse "invalid_actor_state" "actor hydration requires an explicit state or null")
        | some state =>
          match runtime.createInstance identity state with
          | .ok instance_ => .ok instance_
          | .error message => .error (runtime.refuse "actor_worker_failed" message)

def reset (runtime : ActorRuntime I) : ActorRuntime I := { runtime with resident := none }

def keep (runtime : ActorRuntime I) (identity : ActorKey) (instance_ : I) : ActorRuntime I :=
  { runtime with resident := some (identity, instance_) }

def invoke (runtime : ActorRuntime I) (invocation : ActorMethodInvocation) (instance_ : I) : Handled I :=
  let actorMethod := "actor method " ++ runtime.definition.actorType ++ "." ++ invocation.method
  if ¬ runtime.definition.methods invocation.method then
    (runtime.keep invocation.actor instance_).refuse "method_not_found" (actorMethod ++ " was not found")
  else if ¬ runtime.definition.callable instance_ invocation.method then
    (runtime.keep invocation.actor instance_).refuse "method_not_callable" (actorMethod ++ " is not callable")
  else
    match runtime.definition.invoke instance_ invocation with
    | .ok (instance_, result, state, effects) =>
      ⟨.invoked result state effects, runtime.keep invocation.actor instance_, true⟩
    | .error message => ⟨.failed "actor_method_failed" message, runtime.reset, true⟩

def handleSocketEvent (runtime : ActorRuntime I) (invocation : ActorSocketInvocation)
    (instance_ : I) : Handled I :=
  match runtime.definition.handleSocketEvent instance_ invocation with
  | .ok (instance_, state, effects) =>
    ⟨.websocketHandled state effects, runtime.keep invocation.actor instance_, true⟩
  | .error message => ⟨.failed "actor_socket_failed" message, runtime.reset, true⟩

def handle (runtime : ActorRuntime I) (envelope : ExecutorCommandEnvelope) : Handled I :=
  match runtime.prepare envelope with
  | .error handled => handled
  | .ok instance_ =>
    match envelope.command with
    | .invoke invocation => runtime.invoke invocation instance_
    | .websocketEvent invocation => runtime.handleSocketEvent invocation instance_

end ActorRuntime

/-! ### The executor -/

inductive ExecutorOp where
  | removeResident (actor : ActorKey)
  | exchange (envelope : ExecutorCommandEnvelope)
  | insertResident (actor : ActorKey)

@[reducible] def ExecutorOp.Res : ExecutorOp → Type
  | .removeResident _ => Bool
  | .exchange _ => Result ExecutorReply
  | .insertResident _ => Unit

abbrev ExecutorM := Prog ExecutorOp ExecutorOp.Res

namespace JsActorExecutor

/-- After a reply: the actor is resident if its handler succeeded. -/
def settle (actor : ActorKey) (reply : ExecutorReply) : ExecutorM (Result ExecutorReply) :=
  match reply with
  | .stateRequired => pure (.error (.new "actor executor refused explicit hydration"))
  | .invoked .. => do
    perform (ExecutorOp.insertResident actor)
    pure (.ok reply)
  | .websocketHandled .. => do
    perform (ExecutorOp.insertResident actor)
    pure (.ok reply)
  | reply => pure (.ok reply)

/-- The exchange of a resident actor, with the state only if it is asked for. -/
def exchangeWithState (command : ExecutorCommand) (state : Option Value) :
    ExecutorM (Result ExecutorReply) := do
  let resident ← perform (ExecutorOp.removeResident command.actor)
  let hydration := state.getD .null
  match ← perform (ExecutorOp.exchange ⟨command, if resident then none else some hydration, resident⟩) with
  | .error e => pure (.error e)
  | .ok reply =>
    if resident ∧ reply = .stateRequired then do
      match ← perform (ExecutorOp.exchange ⟨command, some hydration, false⟩) with
      | .error e => pure (.error e)
      | .ok reply => settle command.actor reply
    else settle command.actor reply

def invokeWithState (invocation : ActorMethodInvocation) (state : Option Value) :
    ExecutorM (Result ActorMethodOutcome) := do
  match ← exchangeWithState (.invoke invocation) state with
  | .error e => pure (.error e)
  | .ok (.invoked result state effects) => pure (.ok (.completed result state effects))
  | .ok (.failed code message) => pure (.ok (.failed ⟨code, message⟩))
  | .ok .evicted => pure (.error (.new "actor executor returned eviction reply to invocation"))
  | .ok .stateRequired => pure (.error (.new "actor executor returned eviction reply to invocation"))
  | .ok (.websocketHandled ..) => pure (.error (.new "actor executor returned socket reply to invocation"))

def handleSocketWithState (invocation : ActorSocketInvocation) (state : Option Value) :
    ExecutorM (Result ActorSocketOutcome) := do
  match ← exchangeWithState (.websocketEvent invocation) state with
  | .error e => pure (.error e)
  | .ok (.websocketHandled state effects) => pure (.ok (.handled state effects))
  | .ok (.failed code message) => pure (.ok (.failed ⟨code, message⟩))
  | .ok _ => pure (.error (.new "actor executor returned the wrong reply to socket event"))

end JsActorExecutor

end LDO
