import DurableObjects.Spec.Executor
import DurableObjects.Spec.Gateway
import DurableObjects.Spec.RemoteClient

/-! What happens to a request that is sent to an actor host: it may be lost on the way, the
turn it starts may be cut off anywhere, and its reply may be lost. Executor calls and runs
of actor handlers are counted on the way. -/

namespace LDO

open Prog

/-! ### Commands -/

/-- What the customer's process replies to a command, and whether a handler ran for it. The
supervisor answers for an actor that has no worker, and reports as failed a worker that
could not be had or did not survive. -/
inductive WorkerReply (envelope : ExecutorCommandEnvelope) : ExecutorReply → Bool → Prop
  | absent : envelope.residentOnly = true → WorkerReply envelope .stateRequired false
  | failed (code message : String) (ran : Bool) : WorkerReply envelope (.failed code message) ran
  | handled {I : Type} (runtime : ActorRuntime I) :
      WorkerReply envelope (runtime.handle envelope).reply (runtime.handle envelope).ran

/-- What `exchange` returns, and how often a handler ran. -/
inductive Exchanged (envelope : ExecutorCommandEnvelope) : Result ExecutorReply → ℕ → Prop
  | unsent (e : Error) : Exchanged envelope (.error e) 0
  | tooLarge (message : String) : Exchanged envelope (.ok (.failed "resource_exhausted" message)) 0
  | disconnected {reply : ExecutorReply} {ran : Bool} (e : Error) : WorkerReply envelope reply ran →
      Exchanged envelope (.error e) ran.toNat
  | replied {reply : ExecutorReply} {ran : Bool} : WorkerReply envelope reply ran →
      Exchanged envelope (.ok reply) ran.toNat

/-- The executor in front of the process; a command is allowed only while no handler has run. -/
def executorEnv : Env ExecutorOp ExecutorOp.Res ℕ where
  ok runs
    | .exchange _ => runs = 0
    | _ => True
  step runs op r runs' :=
    match op, r with
    | .exchange envelope, r => ∃ n, Exchanged envelope r n ∧ runs' = runs + n
    | _, _ => runs' = runs

/-! ### Turns -/

structure Executions where
  calls : ℕ
  runs : ℕ
  deriving DecidableEq

def Executions.none : Executions := ⟨0, 0⟩

/-- The call is in the executor, which has got as far as `runs` runs. -/
def HostOp.Started : HostOp → ℕ → Prop
  | .invokeWithState invocation state, runs =>
    ∃ q, Reaches executorEnv (JsActorExecutor.invokeWithState invocation state) 0 q runs
  | .handleSocketWithState invocation state, runs =>
    ∃ q, Reaches executorEnv (JsActorExecutor.handleSocketWithState invocation state) 0 q runs
  | _, runs => runs = 0

/-- The executor has answered the call. -/
def HostOp.Answered : (op : HostOp) → op.Res → ℕ → Prop
  | .invokeWithState invocation state, r, runs =>
    Reaches executorEnv (JsActorExecutor.invokeWithState invocation state) 0 (.ret r) runs
  | .handleSocketWithState invocation state, r, runs =>
    Reaches executorEnv (JsActorExecutor.handleSocketWithState invocation state) 0 (.ret r) runs
  | _, _, runs => runs = 0

def HostOp.executorCalls : HostOp → ℕ
  | .invokeWithState .. => 1
  | .handleSocketWithState .. => 1
  | _ => 0

/-- A turn against anything at all; the executor may be called only while it has not been. -/
def executionEnv : Env HostOp HostOp.Res Executions where
  ok w op := 0 < op.executorCalls → w = .none
  step w op r w' := ∃ runs, op.Answered r runs ∧ w' = ⟨w.calls + op.executorCalls, w.runs + runs⟩

/-- The turn of a call, as far as it went. -/
inductive Turned (host : ActorHost) (call : HostCall) : Option TurnAnswer → Executions → Prop
  | ended {answer : TurnAnswer} {w : Executions} :
      Reaches executionEnv (call.program host) .none (.ret answer) w → Turned host call (some answer) w
  | cut {q : HostM TurnAnswer} {w : Executions} :
      Reaches executionEnv (call.program host) .none q w → Turned host call none w
  | during {op : HostOp} {next : op.Res → HostM TurnAnswer} {w : Executions} {runs : ℕ} :
      Reaches executionEnv (call.program host) .none (.call op next) w → op.Started runs →
      Turned host call none ⟨w.calls + op.executorCalls, w.runs + runs⟩

/-! ### Requests -/

/-- What `ActorHostService::handle_socket` does for a caller. The host reads the event from JSON. -/
inductive SocketDelivery (serde : SerdeJson) (target : WorkflowActorTarget)
    (invocation : ActorSocketInvocation) :
    Result ActorExecutionResult → Executions → Prop
  | undelivered (e : Error) : SocketDelivery serde target invocation (.error e) .none
  | lost {host : ActorHost} {received : ActorSocketInvocation} {answer : Option TurnAnswer} {w : Executions}
      (e : Error) : received.requestId = invocation.requestId → received.actor = invocation.actor →
      Turned host ⟨.handleSocket received, target.ownerEpoch, target.stateVersion, target.stateReadUrl⟩ answer w →
      SocketDelivery serde target invocation (.error e) w
  | replied {host : ActorHost} {received : ActorSocketInvocation} {result : ActorSocketExecutionResult}
      {w : Executions} : received.requestId = invocation.requestId → received.actor = invocation.actor →
      Turned host ⟨.handleSocket received, target.ownerEpoch, target.stateVersion, target.stateReadUrl⟩
        (some (.handled (.ok result))) w →
      SocketDelivery serde target invocation (ActorExecutionResult.ofReply serde (.ofSocketResult result)) w

/-- What `invoke_detached` replies for a turn. -/
def invokeReply : Result ActorExecutionResult → InvokeActorReply
  | .ok result => .ofResult result
  | .error _ => .ofResult (failed "unavailable" "actor could not start because its state was unavailable")

/-- What `ActorHostService::invoke` does for a caller. -/
inductive InvokeDelivery (parse : ByteArray → ByteArray → Except ClientError (JsonValue × List SocketEffect))
    (target : ActorHostTarget) (invocation : DirectActorInvocation) :
    Except ClientError ActorHostReply → Executions → Prop
  | undelivered (e : ClientError) : InvokeDelivery parse target invocation (.error e) .none
  | lost {host : ActorHost} {received : ActorInvocation} {answer : Option TurnAnswer} {w : Executions}
      (e : ClientError) : received.requestId = invocation.requestId → received.method = invocation.method →
      Turned host ⟨.invoke received, target.ownerEpoch, target.stateVersion, target.stateReadUrl⟩ answer w →
      InvokeDelivery parse target invocation (.error e) w
  | replied {host : ActorHost} {received : ActorInvocation} {r : Result ActorExecutionResult} {w : Executions} :
      received.requestId = invocation.requestId → received.method = invocation.method →
      Turned host ⟨.invoke received, target.ownerEpoch, target.stateVersion, target.stateReadUrl⟩
        (some (.invoked r)) w →
      InvokeDelivery parse target invocation (decodeReply parse (invokeReply r)) w

end LDO
