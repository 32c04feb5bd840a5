import Mathlib.Algebra.BigOperators.Group.List.Basic
import DurableObjects.Spec.Delivery
import DurableObjects.Sanity.GatewayRuns
import DurableObjects.Proofs.Wire

/-! One logical call runs its handler at most once. The executor sends a command again only
when the runtime has asked for the state, a turn calls the executor once, and a caller sends
a second request only after a reply that no turn gives once it has called the executor. -/

namespace LDO

open Prog

/-! ### The runtime and the executor -/

namespace ActorRuntime

variable {I : Type} {runtime : ActorRuntime I} {envelope : ExecutorCommandEnvelope}

theorem prepare_ran {handled : Handled I} (h : runtime.prepare envelope = .error handled) :
    handled.ran = false := by
  dsimp only [prepare, refuse] at h
  split at h
  · cases h
    rfl
  · split at h
    · split at h <;> cases h
      rfl
    · split at h
      · cases h
        rfl
      · split at h
        · cases h
          rfl
        · split at h <;> cases h
          rfl

/-- A runtime that asks for the state has run nothing. -/
theorem ran_of_stateRequired (h : (runtime.handle envelope).reply = .stateRequired) :
    (runtime.handle envelope).ran = false := by
  unfold handle at h ⊢
  split at h
  · exact prepare_ran ‹_›
  · split at h
    · dsimp only [invoke, refuse] at h
      split at h
      · cases h
      · split at h
        · cases h
        · split at h <;> cases h
    · unfold handleSocketEvent at h
      split at h <;> cases h

end ActorRuntime

theorem WorkerReply.stateRequired {envelope : ExecutorCommandEnvelope} {ran : Bool}
    (h : WorkerReply envelope .stateRequired ran) : ran = false := by
  generalize hreply : ExecutorReply.stateRequired = reply at h
  cases h with
  | absent => rfl
  | failed => cases hreply
  | handled runtime => exact ActorRuntime.ran_of_stateRequired hreply.symm

theorem Exchanged.le {envelope : ExecutorCommandEnvelope} {r : Result ExecutorReply} {n : ℕ}
    (h : Exchanged envelope r n) : n ≤ 1 := by
  cases h with
  | unsent e => omega
  | tooLarge message => omega
  | disconnected e hreply => exact Bool.toNat_le _
  | replied hreply => exact Bool.toNat_le _

theorem Exchanged.stateRequired {envelope : ExecutorCommandEnvelope} {n : ℕ}
    (h : Exchanged envelope (.ok .stateRequired) n) : n = 0 := by
  generalize hr : (.ok .stateRequired : Result ExecutorReply) = r at h
  cases h with
  | unsent e => rfl
  | tooLarge message => rfl
  | disconnected e hreply => cases hr
  | replied hreply =>
    cases hr
    rw [hreply.stateRequired]
    rfl

namespace JsActorExecutor

variable {command : ExecutorCommand} {state : Option Value} {runs : ℕ}

theorem wp_settle (actor : ActorKey) (reply : ExecutorReply) :
    wp executorEnv (settle actor reply) (fun _ _ => True) runs := by
  cases reply with
  | stateRequired => trivial
  | invoked result state effects => exact ⟨trivial, fun _ _ _ => trivial⟩
  | websocketHandled state effects => exact ⟨trivial, fun _ _ _ => trivial⟩
  | failed code message => trivial
  | evicted => trivial

/-- A command is sent only while no handler has run for it. -/
theorem wp_exchangeWithState : wp executorEnv (exchangeWithState command state) (fun _ _ => True) 0 := by
  refine ⟨trivial, fun resident w hw => ?_⟩
  obtain rfl : w = 0 := hw
  refine ⟨rfl, fun r w hw => ?_⟩
  obtain ⟨n, hn, rfl⟩ := hw
  cases r with
  | error e => trivial
  | ok reply =>
    change wp executorEnv (if resident = true ∧ reply = .stateRequired then _ else _) _ _
    by_cases hagain : resident = true ∧ reply = .stateRequired
    · rw [if_pos hagain]
      obtain ⟨-, rfl⟩ := hagain
      refine ⟨by rw [hn.stateRequired]; rfl, fun r w _ => ?_⟩
      cases r with
      | error e => trivial
      | ok reply => exact wp_settle _ reply
    · rw [if_neg hagain]
      exact wp_settle _ reply

theorem runs_le {α : Type} {p q : ExecutorM α} {Q : α → ℕ → Prop} (hp : wp executorEnv p Q 0)
    (h : Reaches executorEnv p 0 q runs) : runs ≤ 1 := by
  refine h.invariant (I := fun runs => runs ≤ 1) hp (Nat.zero_le 1) ?_
  intro w op r w' hw hok hs
  cases op with
  | exchange envelope =>
    obtain ⟨n, hn, rfl⟩ := hs
    obtain rfl : w = 0 := hok
    simpa using hn.le
  | removeResident actor =>
    obtain rfl : w' = w := hs
    exact hw
  | insertResident actor =>
    obtain rfl : w' = w := hs
    exact hw

theorem invokeWithState_runs_le {invocation : ActorMethodInvocation}
    {q : ExecutorM (Result ActorMethodOutcome)}
    (h : Reaches executorEnv (invokeWithState invocation state) 0 q runs) : runs ≤ 1 := by
  have hp : wp executorEnv (invokeWithState invocation state) (fun _ _ => True) 0 := by
    refine wp_seq wp_exchangeWithState fun r w _ => ?_
    rcases r with e | reply
    · trivial
    · cases reply <;> trivial
  exact runs_le hp h

theorem handleSocketWithState_runs_le {invocation : ActorSocketInvocation}
    {q : ExecutorM (Result ActorSocketOutcome)}
    (h : Reaches executorEnv (handleSocketWithState invocation state) 0 q runs) : runs ≤ 1 := by
  have hp : wp executorEnv (handleSocketWithState invocation state) (fun _ _ => True) 0 := by
    refine wp_seq wp_exchangeWithState fun r w _ => ?_
    rcases r with e | reply
    · trivial
    · cases reply <;> trivial
  exact runs_le hp h

end JsActorExecutor

theorem HostOp.Started.le {op : HostOp} {runs : ℕ} (h : op.Started runs) : runs ≤ op.executorCalls := by
  cases op with
  | invokeWithState invocation state =>
    obtain ⟨q, hq⟩ := h
    exact JsActorExecutor.invokeWithState_runs_le hq
  | handleSocketWithState invocation state =>
    obtain ⟨q, hq⟩ := h
    exact JsActorExecutor.handleSocketWithState_runs_le hq
  | _ =>
    obtain rfl : runs = 0 := h
    exact Nat.zero_le _

theorem HostOp.Answered.le {op : HostOp} {r : op.Res} {runs : ℕ} (h : op.Answered r runs) :
    runs ≤ op.executorCalls := by
  cases op with
  | invokeWithState invocation state => exact JsActorExecutor.invokeWithState_runs_le h
  | handleSocketWithState invocation state => exact JsActorExecutor.handleSocketWithState_runs_le h
  | _ =>
    obtain rfl : runs = 0 := h
    exact Nat.zero_le _

/-! ### Turns -/

/-- A call that leaves the executor alone. -/
def Apart (op : HostOp) : Prop := op.executorCalls = 0

theorem wp_apart {α : Type} {Q : α → Prop} {p : HostM α} {w : Executions} (h : Calls Apart p)
    (hret : Returns Q p) :
    wp executionEnv p (fun a w' => Q a ∧ w' = w) w := by
  refine h.wp hret (fun op hop hpos => ?_) fun op r w' hop hs => ?_
  · rw [hop] at hpos
    exact absurd hpos (lt_irrefl 0)
  · obtain ⟨runs, hruns, rfl⟩ := hs
    have hle := hruns.le
    rw [hop] at hle ⊢
    obtain rfl : runs = 0 := by omega
    rfl

theorem calls_perform {β : Type} {op : HostOp} {f : op.Res → HostM β} (h : op.executorCalls = 0)
    (hf : ∀ r, Calls Apart (f r)) : Calls Apart (perform op >>= f) := ⟨h, hf⟩

namespace ActorHost

variable {host : ActorHost}

theorem calls_accepts (draining : Bool) : Calls Apart (accepts draining) := by
  cases draining with
  | true => trivial
  | false => exact ⟨rfl, fun _ => trivial⟩

theorem calls_validateOperation (invocation : ActorInvocation) (draining : Bool) :
    Calls Apart (host.validateOperation invocation draining) := by
  refine (calls_accepts draining).bind fun accepting => ?_
  split
  · trivial
  · split
    · trivial
    · split
      · trivial
      · split <;> trivial

theorem calls_evict (actor : ActorKey) : Calls Apart (evict actor) := calls_perform rfl fun _ => trivial

theorem calls_takeOrLoadState (object : ActorStorageKey) (ownerEpoch stateVersion : ℕ) (url : String) :
    Calls Apart (host.takeOrLoadState object ownerEpoch stateVersion url) := by
  refine calls_perform rfl fun cached => ?_
  rcases cached with e | cached
  · trivial
  · dsimp only
    split
    · trivial
    · split
      · trivial
      · split
        · trivial
        · refine calls_perform rfl fun loaded => ?_
          cases loaded <;> trivial

theorem calls_finishPendingCommit (invocation : ActorInvocation) (cached : CachedActorState) :
    Calls Apart (host.finishPendingCommit invocation cached) := by
  unfold finishPendingCommit
  split
  · trivial
  · refine calls_perform rfl fun committed => ?_
    rcases committed with e | committed
    · trivial
    · dsimp only
      split <;> trivial

theorem calls_storeAndAnswer {α : Type} (object : ActorStorageKey) (cached : CachedActorState) (answer : α) :
    Calls Apart (storeAndAnswer object cached answer) := by
  refine calls_perform rfl fun stored => ?_
  cases stored <;> trivial

theorem calls_writeTicket (actor : ActorKey) (ownerEpoch expectedVersion nextVersion : ℕ)
    (kept : Option StateWriteTicket) :
    Calls Apart (host.writeTicket actor ownerEpoch expectedVersion nextVersion kept) := by
  refine Calls.bind ?_ fun usable => ?_
  · unfold usableTicket
    split
    · split
      · refine calls_perform rfl fun now => ?_
        cases now <;> trivial
      · trivial
    · trivial
  · rcases usable with e | _ | ticket
    · trivial
    · exact ⟨rfl, fun _ => trivial⟩
    · trivial

theorem calls_publishResultOnce (invocation : ActorInvocation) (ownerEpoch : ℕ) (cached : CachedActorState)
    (result nextState : Value) :
    Calls Apart (host.publishResultOnce invocation ownerEpoch cached result nextState) := by
  unfold publishResultOnce
  split
  · trivial
  · refine (calls_writeTicket _ _ _ _ _).bind fun ticket => ?_
    rcases ticket with e | ticket
    · trivial
    · dsimp only
      split
      · trivial
      · refine calls_perform rfl fun write => ?_
        rcases write with e | write
        · trivial
        · refine (calls_finishPendingCommit _ _).bind fun finished => ?_
          rcases finished with ⟨_ | _, _⟩ <;> trivial

theorem calls_publishAndStore {α : Type} (invocation : ActorInvocation) (object : ActorStorageKey)
    (ownerEpoch : ℕ) (cached : CachedActorState) (result nextState : Value)
    (answer : Result ActorExecutionResult → α) :
    Calls Apart (host.publishAndStore invocation object ownerEpoch cached result nextState answer) := by
  refine (calls_publishResultOnce _ _ _ _ _).bind fun published => ?_
  refine Calls.bind ?_ fun _ => calls_storeAndAnswer _ _ _
  unfold evictUnpublished
  split
  · exact calls_evict _
  · trivial

/-- What was published was completed. -/
def Completed (published : Result ActorExecutionResult) : Prop :=
  ∀ r, published = .ok r → ∃ result, r = .completed result []

theorem returns_publishResultOnce (invocation : ActorInvocation) (ownerEpoch : ℕ) (cached : CachedActorState)
    (result nextState : Value) : Returns (fun published => Completed published.1)
      (host.publishResultOnce invocation ownerEpoch cached result nextState) := by
  unfold publishResultOnce
  split
  · exact fun r => nofun
  · refine (Returns.trivial _).bind fun ticket _ => ?_
    rcases ticket with e | ticket
    · exact fun r => nofun
    · dsimp only
      split
      · exact fun r => nofun
      · refine (Returns.trivial _).bind fun write _ => ?_
        rcases write with e | write
        · exact fun r => nofun
        · refine (Returns.trivial _).bind fun finished _ => ?_
          rcases finished with ⟨_ | _, _⟩
          · exact fun r => nofun
          · rintro r ⟨rfl⟩
            exact ⟨result, rfl⟩

theorem returns_storeAndAnswer {α : Type} {P : α → Prop} (object : ActorStorageKey)
    (cached : CachedActorState) {answer : α} (h : P answer) :
    Returns (fun r => ∀ a, r = .ok a → P a) (storeAndAnswer object cached answer) := by
  refine (Returns.trivial _).bind fun stored _ => ?_
  rcases stored with e | _
  · intro a h
    cases h
  · rintro a ⟨rfl⟩
    exact h

theorem returns_publishAndStore {α : Type} {P : α → Prop} (invocation : ActorInvocation)
    (object : ActorStorageKey) (ownerEpoch : ℕ) (cached : CachedActorState) (result nextState : Value)
    {answer : Result ActorExecutionResult → α} (h : ∀ published, Completed published → P (answer published)) :
    Returns (fun r => ∀ a, r = .ok a → P a)
      (host.publishAndStore invocation object ownerEpoch cached result nextState answer) := by
  refine (returns_publishResultOnce _ _ _ _ _).bind fun published hpublished => ?_
  exact (Returns.trivial _).bind fun _ _ => returns_storeAndAnswer _ _ (h _ hpublished)

/-- An answer that was reached: it is not given by a host that has not called the executor. -/
def Reached : ActorExecutionResult → Prop
  | .completed .. => True
  | .failed _ => True
  | .reroute => False
  | .hostUnavailable => False

theorem reached_methodAnswer {effects : List ActorSocketEffect} {published : Result ActorExecutionResult}
    (h : Completed published) : Reached (methodAnswer effects published) := by
  rcases published with e | r
  · trivial
  · obtain ⟨result, rfl⟩ := h r rfl
    trivial

def SocketReached : ActorSocketExecutionResult → Prop
  | .hostUnavailable => False
  | _ => True

theorem socketReached_socketAnswer {effects : List ActorSocketEffect}
    {published : Result ActorExecutionResult} (h : Completed published) :
    SocketReached (socketAnswer effects published) := by
  rcases published with e | r
  · trivial
  · obtain ⟨result, rfl⟩ := h r rfl
    trivial

/-- A turn that answers something else than `P` has not called the executor. -/
abbrev Spares {α : Type} (P : α → Prop) (p : HostM (Result α)) : Prop :=
  wp executionEnv p (fun r w => ∀ a, r = .ok a → P a ∨ w = .none) .none

theorem Spares.apart {α : Type} {P : α → Prop} {p : HostM (Result α)} (h : Calls Apart p) : Spares P p :=
  wp_mono (wp_apart h (Returns.trivial _)) fun _ _ hw _ _ => .inr hw.2

/-- A turn that has called the executor and then leaves it alone. -/
theorem wp_after {α : Type} {P : α → Prop} {p : HostM (Result α)} {w : Executions} (h : Calls Apart p)
    (hret : Returns (fun r => ∀ a, r = .ok a → P a) p) :
    wp executionEnv p (fun r w' => ∀ a, r = .ok a → P a ∨ w' = .none) w :=
  wp_mono (wp_apart h hret) fun _ _ hw a ha => .inl (hw.1 a ha)

/-- The one call of the executor, and what it makes of a failure. -/
theorem wp_execute {α β : Type} {op : HostOp} {next : op.Res → HostM (Except ActorExecutionResult β)}
    {f : Except ActorExecutionResult β → HostM (Result α)} {P : α → Prop} (hnext : ∀ r, Calls Apart (next r))
    (hreached : ∀ r, Returns (fun x => ∀ failure, x = .error failure → Reached failure) (next r))
    (hcalls : ∀ x, Calls Apart (f x))
    (hret : ∀ x, (∀ failure, x = .error failure → Reached failure) →
      Returns (fun r => ∀ a, r = .ok a → P a) (f x)) : Spares P (perform op >>= next >>= f) := by
  refine ⟨fun _ => rfl, fun r w _ => ?_⟩
  refine wp_seq (wp_apart (hnext r) (hreached r)) fun x w' hx => ?_
  exact wp_after (hcalls x) (hret x hx.1)

theorem spares_invokeWithCached (invocation : ActorInvocation) (object : ActorStorageKey) (ownerEpoch : ℕ)
    (cached : CachedActorState) : Spares Reached (host.invokeWithCached invocation object ownerEpoch cached) := by
  refine wp_seq (wp_apart (calls_finishPendingCommit _ _) (Returns.trivial _)) fun finished w hw => ?_
  obtain ⟨-, rfl⟩ := hw
  obtain ⟨_ | _, cached⟩ := finished
  · exact Spares.apart (calls_storeAndAnswer _ _ _)
  · dsimp only
    split
    · exact Spares.apart (calls_storeAndAnswer _ _ _)
    · refine wp_execute (fun r => ?_) (fun r => ?_) (fun x => ?_) fun x hx => ?_
      · rcases r with e | ⟨result, state, effects⟩ | failure
        · exact (calls_evict _).bind fun _ => trivial
        · dsimp only
          split
          · trivial
          · exact (calls_evict _).bind fun _ => trivial
        · exact (calls_evict _).bind fun _ => trivial
      · rcases r with e | ⟨result, state, effects⟩ | failure
        · refine (Returns.trivial _).bind fun _ _ => ?_
          rintro failure ⟨rfl⟩
          trivial
        · dsimp only
          split
          · exact fun failure => nofun
          · refine (Returns.trivial _).bind fun _ _ => ?_
            rintro failure ⟨rfl⟩
            trivial
        · refine (Returns.trivial _).bind fun _ _ => ?_
          rintro failure ⟨rfl⟩
          trivial
      · rcases x with failure | ⟨result, nextState, effects⟩
        · exact calls_storeAndAnswer _ _ _
        · dsimp only
          split
          · exact calls_storeAndAnswer _ _ _
          · exact calls_publishAndStore _ _ _ _ _ _ _
      · rcases x with failure | ⟨result, nextState, effects⟩
        · exact returns_storeAndAnswer _ _ (hx failure rfl)
        · dsimp only
          split
          · exact returns_storeAndAnswer _ _ trivial
          · exact returns_publishAndStore _ _ _ _ _ _ fun _ => reached_methodAnswer

theorem reached_fromActorResult {failure : ActorExecutionResult} (h : Reached failure) :
    SocketReached (.fromActorResult failure) := by
  cases failure with
  | completed result effects => trivial
  | failed failure => trivial
  | reroute => exact h.elim
  | hostUnavailable => exact h.elim

theorem spares_handleSocketWithCached (invocation : ActorSocketInvocation) (object : ActorStorageKey)
    (ownerEpoch : ℕ) (cached : CachedActorState) :
    Spares SocketReached (host.handleSocketWithCached invocation object ownerEpoch cached) := by
  refine wp_seq (wp_apart (calls_finishPendingCommit _ _) (Returns.trivial _)) fun finished w hw => ?_
  obtain ⟨-, rfl⟩ := hw
  obtain ⟨_ | _, cached⟩ := finished
  · exact Spares.apart (calls_storeAndAnswer _ _ _)
  · refine wp_execute (fun r => ?_) (fun r => ?_) (fun x => ?_) fun x hx => ?_
    · rcases r with e | ⟨state, effects⟩ | failure
      · trivial
      · dsimp only
        split
        · trivial
        · exact (calls_evict _).bind fun _ => trivial
      · trivial
    · rcases r with e | ⟨state, effects⟩ | failure
      · rintro failure ⟨rfl⟩
        trivial
      · dsimp only
        split
        · exact fun failure => nofun
        · refine (Returns.trivial _).bind fun _ _ => ?_
          rintro failure ⟨rfl⟩
          trivial
      · rintro failure ⟨rfl⟩
        trivial
    · rcases x with failure | ⟨nextState, effects⟩
      · exact calls_storeAndAnswer _ _ _
      · dsimp only
        split
        · exact calls_storeAndAnswer _ _ _
        · exact calls_publishAndStore _ _ _ _ _ _ _
    · rcases x with failure | ⟨nextState, effects⟩
      · exact returns_storeAndAnswer _ _ (reached_fromActorResult (hx failure rfl))
      · dsimp only
        split
        · exact returns_storeAndAnswer _ _ trivial
        · exact returns_publishAndStore _ _ _ _ _ _ fun _ => socketReached_socketAnswer

theorem spares_admitted {α : Type} {P : α → Prop} {turn : CachedActorState → HostM (Result α)}
    (object : ActorStorageKey) (draining : Bool) (unavailable : α) (ownerEpoch stateVersion : ℕ) (url : String)
    (hturn : ∀ cached, Spares P (turn cached)) :
    Spares P (host.admitted object draining unavailable ownerEpoch stateVersion url turn) := by
  refine wp_seq (wp_apart ⟨rfl, fun _ => trivial⟩ (Returns.trivial _)) fun admission w hw => ?_
  obtain ⟨-, rfl⟩ := hw
  rcases admission with e | _ | _
  · intro a h
    cases h
  · refine wp_seq (wp_apart (calls_accepts draining) (Returns.trivial _)) fun accepting w hw => ?_
    obtain ⟨-, rfl⟩ := hw
    split
    · exact fun a _ => .inr rfl
    · refine wp_seq (wp_apart (calls_takeOrLoadState _ _ _ _) (Returns.trivial _)) fun cached w hw => ?_
      obtain ⟨-, rfl⟩ := hw
      rcases cached with e | cached
      · intro a h
        cases h
      · exact hturn cached
  · exact fun a _ => .inr rfl

theorem spares_invokeActorOnce (invocation : ActorInvocation) (ownerEpoch stateVersion : ℕ) (url : String) :
    Spares Reached (host.invokeActorOnce invocation ownerEpoch stateVersion url) := by
  refine wp_seq (wp_apart (calls_validateOperation _ _) (Returns.trivial _)) fun checked w hw => ?_
  obtain ⟨-, rfl⟩ := hw
  rcases checked with e | _ | result
  · exact fun a => nofun
  · exact spares_admitted _ _ _ _ _ _ fun cached => spares_invokeWithCached _ _ _ cached
  · exact fun a _ => .inr rfl

theorem spares_handleSocketEventOnce (invocation : ActorSocketInvocation) (ownerEpoch stateVersion : ℕ)
    (url : String) : Spares SocketReached (host.handleSocketEventOnce invocation ownerEpoch stateVersion url) := by
  refine wp_seq (wp_apart (calls_validateOperation _ _) (Returns.trivial _)) fun checked w hw => ?_
  obtain ⟨-, rfl⟩ := hw
  rcases checked with e | _ | result
  · exact fun a => nofun
  · exact spares_admitted _ _ _ _ _ _ fun cached => spares_handleSocketWithCached _ _ _ cached
  · exact fun a _ => .inr rfl

end ActorHost

/-- The answers of a host that has not called the executor. -/
def TurnAnswer.rerouted : TurnAnswer → Bool
  | .invoked (.ok .reroute) => true
  | .invoked (.ok .hostUnavailable) => true
  | .handled (.ok .hostUnavailable) => true
  | _ => false

theorem spares_program (host : ActorHost) (call : HostCall) :
    wp executionEnv (call.program host) (fun answer w => answer.rerouted = true → w = .none) .none := by
  obtain ⟨request, ownerEpoch, stateVersion, url⟩ := call
  cases request with
  | invoke invocation =>
    refine (wp_map _ _ _ _ _).mpr (wp_mono (ActorHost.spares_invokeActorOnce _ _ _ _) fun r w hr hrerouted => ?_)
    rcases r with e | result
    · cases hrerouted
    · rcases hr result rfl with hreached | hnone
      · cases result with
        | completed result effects => cases hrerouted
        | failed failure => cases hrerouted
        | reroute => exact hreached.elim
        | hostUnavailable => exact hreached.elim
      · exact hnone
  | handleSocket invocation =>
    refine (wp_map _ _ _ _ _).mpr
      (wp_mono (ActorHost.spares_handleSocketEventOnce _ _ _ _) fun r w hr hrerouted => ?_)
    rcases r with e | result
    · cases hrerouted
    · rcases hr result rfl with hreached | hnone
      · cases result with
        | handled effects => cases hrerouted
        | failed failure => cases hrerouted
        | hostUnavailable => exact hreached.elim
      · exact hnone

theorem HostOp.executorCalls_le (op : HostOp) : op.executorCalls ≤ 1 := by
  cases op <;> simp [HostOp.executorCalls]

/-- The executor has been called at most once, and has run a handler at most once. -/
def Executions.Once (w : Executions) : Prop := w.calls ≤ 1 ∧ w.runs ≤ w.calls

theorem Executions.Once.call {w : Executions} {op : HostOp} {runs : ℕ} (h : w.Once)
    (hok : executionEnv.ok w op) (hruns : runs ≤ op.executorCalls) :
    Executions.Once ⟨w.calls + op.executorCalls, w.runs + runs⟩ := by
  have hle := op.executorCalls_le
  obtain ⟨hcalls, hw⟩ := h
  rcases Nat.eq_zero_or_pos op.executorCalls with hzero | hpos
  · constructor <;> dsimp only <;> omega
  · obtain rfl : w = .none := hok hpos
    constructor <;> simp only [Executions.none] <;> omega

/-- However far a turn went. -/
theorem Turned.once {host : ActorHost} {call : HostCall} {answer : Option TurnAnswer} {w : Executions}
    (h : Turned host call answer w) : w.Once := by
  have hreaches : ∀ {q w}, Reaches executionEnv (call.program host) .none q w → w.Once := by
    intro q w hq
    refine hq.invariant (spares_program host call) ⟨Nat.zero_le 1, le_rfl⟩ fun hw hok hs => ?_
    obtain ⟨runs, hruns, rfl⟩ := hs
    exact hw.call hok hruns.le
  cases h with
  | ended h => exact hreaches h
  | cut h => exact hreaches h
  | during h hstarted => exact (hreaches h).call (h.wp (spares_program host call)).1 hstarted.le

theorem Turned.spared {host : ActorHost} {call : HostCall} {answer : TurnAnswer} {w : Executions}
    (h : Turned host call (some answer) w) (hrerouted : answer.rerouted = true) : w = .none := by
  cases h with
  | ended h => exact h.wp (spares_program host call) hrerouted

/-! ### Requests -/

/-- The answers of a socket event after which it is sent again. -/
def SocketRetried (r : Result ActorExecutionResult) : Prop := r = .ok .reroute ∨ r = .ok .hostUnavailable

def InvokeRetried (r : Except ClientError ActorHostReply) : Prop := r = .ok .reroute

theorem ofReply_eq_reroute {serde : SerdeJson} {reply : InvokeActorReply}
    (h : ActorExecutionResult.ofReply serde reply = .ok .reroute) : reply.result = some .reroute := by
  obtain ⟨_ | ⟨resultJson, socketEffectsJson⟩ | ⟨code, message⟩ | _⟩ := reply
  · cases h
  · obtain ⟨result, effects, -, -, heq⟩ := ofReply_completed_iff.mp h
    cases heq
  · cases h
  · rfl

theorem SocketDelivery.once {serde : SerdeJson} {target : WorkflowActorTarget}
    {invocation : ActorSocketInvocation} {r : Result ActorExecutionResult} {w : Executions}
    (h : SocketDelivery serde target invocation r w) :
    w.Once ∧ (SocketRetried r → w = .none) := by
  cases h with
  | undelivered e => exact ⟨⟨Nat.zero_le 1, le_rfl⟩, fun _ => rfl⟩
  | lost e _ _ hturned => exact ⟨hturned.once, fun h => by rcases h with h | h <;> cases h⟩
  | @replied _ _ result _ _ _ hturned =>
    refine ⟨hturned.once, fun h => ?_⟩
    rcases h with h | h
    · have hreply := ofReply_eq_reroute h
      cases result <;> cases hreply
    · exact absurd h (ofReply_ne_hostUnavailable _)

theorem decodeReply_eq_reroute {parse : ByteArray → ByteArray → Except ClientError (JsonValue × List SocketEffect)}
    {reply : InvokeActorReply} (h : decodeReply parse reply = .ok .reroute) : reply.result = some .reroute := by
  obtain ⟨_ | ⟨resultJson, socketEffectsJson⟩ | ⟨code, message⟩ | _⟩ := reply
  · cases h
  · obtain ⟨parsed, -, h⟩ := bind_ok.mp h
    cases h
  · cases h
  · rfl

theorem InvokeDelivery.once {parse : ByteArray → ByteArray → Except ClientError (JsonValue × List SocketEffect)}
    {target : ActorHostTarget} {invocation : DirectActorInvocation} {r : Except ClientError ActorHostReply}
    {w : Executions} (h : InvokeDelivery parse target invocation r w) :
    w.Once ∧ (InvokeRetried r → w = .none) := by
  cases h with
  | undelivered e => exact ⟨⟨Nat.zero_le 1, le_rfl⟩, fun _ => rfl⟩
  | lost e _ _ hturned => exact ⟨hturned.once, fun h => by cases h⟩
  | @replied _ _ result _ _ _ hturned =>
    refine ⟨hturned.once, fun h => ?_⟩
    have hreply := decodeReply_eq_reroute h
    rcases result with e | result
    · cases hreply
    · cases result with
      | reroute => exact hturned.spared rfl
      | _ => cases hreply

/-! ### Callers -/

section Callers

variable {A : Type} {retried : A → Prop}

/-- What a call has sent so far: the answer to each request, and what was executed for it. -/
structure AtMostOnce (retried : A → Prop) (sent : List (A × Executions)) : Prop where
  requests : sent.length ≤ 2
  executions : (sent.map fun s => s.2.runs).sum ≤ 1
  /-- Another request follows only one that sent the caller elsewhere, before the executor was called. -/
  followed : ∀ earlier s later, sent = earlier ++ s :: later → later ≠ [] → retried s.1 ∧ s.2 = .none

/-- Every request so far sent the caller elsewhere. -/
def Elsewhere (retried : A → Prop) (sent : List (A × Executions)) : Prop :=
  ∀ s ∈ sent, retried s.1 ∧ s.2 = .none

theorem Elsewhere.snoc {sent : List (A × Executions)} {s : A × Executions} (h : Elsewhere retried sent)
    (hs : retried s.1 ∧ s.2 = .none) : Elsewhere retried (sent ++ [s]) := by
  intro s' hs'
  rcases List.mem_append.mp hs' with hs' | hs'
  · exact h s' hs'
  · rwa [List.mem_singleton.mp hs']

theorem AtMostOnce.snoc {sent : List (A × Executions)} {s : A × Executions} (h : Elsewhere retried sent)
    (hlength : sent.length ≤ 1) (hs : s.2.Once) : AtMostOnce retried (sent ++ [s]) := by
  refine ⟨by simpa using hlength, ?_, ?_⟩
  · have hzero : (sent.map fun s => s.2.runs).sum = 0 := by
      refine List.sum_eq_zero fun n hn => ?_
      obtain ⟨s', hs', rfl⟩ := List.mem_map.mp hn
      rw [(h s' hs').2]
      rfl
    have hle : s.2.runs ≤ 1 := hs.2.trans hs.1
    simpa [hzero] using hle
  · intro earlier s' later heq hlater
    obtain ⟨later, last, rfl⟩ : ∃ l a, later = l ++ [a] :=
      ⟨later.dropLast, later.getLast hlater, (List.dropLast_append_getLast hlater).symm⟩
    rw [← List.cons_append, ← List.append_assoc] at heq
    obtain ⟨rfl, -⟩ := List.append_inj' heq rfl
    exact h s' (by simp)

end Callers

/-- The hosts that a gateway sends socket events to, and the network between them. -/
def dispatchEnv (serde : SerdeJson) :
    Env GatewayOp GatewayOp.Res (List (Result ActorExecutionResult × Executions)) where
  ok sent
    | .sendSocketEvent .. => Elsewhere SocketRetried sent ∧ sent.length ≤ 1
    | _ => True
  step sent op r sent' :=
    match op, r with
    | .sendSocketEvent target invocation, r =>
        ∃ w, SocketDelivery serde target invocation r w ∧ sent' = sent ++ [(r, w)]
    | _, _ => sent' = sent

namespace Gateway

variable {serde : SerdeJson} {sent : List (Result ActorExecutionResult × Executions)}

theorem wp_routing {α : Type} {p : GatewayM α} (h : Calls Routing p) :
    wp (dispatchEnv serde) p (fun _ sent' => sent' = sent) sent := by
  refine wp_mono (h.wp (Returns.trivial _) (fun op hop => ?_) fun op r sent' hop hs => ?_) fun _ _ h => h.2
  · cases op <;> trivial
  · cases op <;> first | exact hs | exact hop.elim

theorem wp_attemptsOnce (principal : ActorPrincipal) (invocation : ActorSocketInvocation) (attempts : ℕ)
    (h : Elsewhere SocketRetried sent) (hlength : sent.length + attempts ≤ 2) :
    wp (dispatchEnv serde) (dispatchAttempts principal invocation attempts).run (fun _ _ => True) sent := by
  induction attempts generalizing sent with
  | zero => trivial
  | succ attempts ih =>
    rw [dispatchAttempts_succ]
    refine wp_except_bind (wp_mono (wp_routing (calls_socketTarget principal invocation.actor)) ?_)
    intro target sent' hsame
    rw [hsame]
    rcases target with e | target
    · trivial
    · refine ⟨⟨h, by omega⟩, fun r sent' hs => ?_⟩
      obtain ⟨w, hw, rfl⟩ := hs
      -- the answers that lead to another attempt
      have hretry : SocketRetried r → wp (dispatchEnv serde) (retryDispatch principal invocation attempts).run
          (fun _ _ => True) (sent ++ [(r, w)]) := by
        intro hretried
        refine ⟨trivial, fun _ sent' hs => ?_⟩
        obtain rfl : sent' = sent ++ [(r, w)] := hs
        refine wp_except_ite (fun _ => trivial) fun _ => ih (h.snoc ⟨hretried, hw.once.2 hretried⟩) ?_
        rw [List.length_append, List.length_singleton]
        omega
      rcases r with e | result
      · exact ⟨trivial, fun _ _ _ => ⟨trivial, fun _ _ _ => trivial⟩⟩
      · cases result with
        | completed result effects => trivial
        | failed failure => trivial
        | reroute => exact hretry (.inl rfl)
        | hostUnavailable => exact hretry (.inr rfl)

end Gateway

theorem dispatch_atMostOnce {serde : SerdeJson} {principal : ActorPrincipal}
    {invocation : ActorSocketInvocation} {q : GatewayM (Result (List ActorSocketEffect))}
    {sent : List (Result ActorExecutionResult × Executions)}
    (h : Reaches (dispatchEnv serde) (Gateway.dispatchSocketEvent principal invocation).run [] q sent) :
    AtMostOnce SocketRetried sent := by
  have hwp : wp (dispatchEnv serde) (Gateway.dispatchSocketEvent principal invocation).run (fun _ _ => True) [] :=
    Gateway.wp_attemptsOnce principal invocation 2 nofun le_rfl
  refine h.invariant hwp ⟨by simp, by simp, by simp⟩ fun hw hok hs => ?_
  rename_i op r _
  cases op with
  | sendSocketEvent target invocation =>
    obtain ⟨w, hdelivery, rfl⟩ := hs
    exact .snoc hok.1 hok.2 hdelivery.once.1
  | _ =>
    obtain rfl := hs
    exact hw

/-- The hosts that a workflow calls actors on, and the network between them. -/
def clientEnv (parse : ByteArray → ByteArray → Except ClientError (JsonValue × List SocketEffect)) :
    Env ClientOp ClientOp.Res (List (Except ClientError ActorHostReply × Executions)) where
  ok sent
    | .actorHostInvoke .. => Elsewhere InvokeRetried sent ∧ sent.length ≤ 1
    | _ => True
  step sent op r sent' :=
    match op, r with
    | .actorHostInvoke target invocation, r =>
        ∃ w, InvokeDelivery parse target invocation r w ∧ sent' = sent ++ [(r, w)]
    | _, _ => sent' = sent

namespace RemoteActorClient

variable {parse : ByteArray → ByteArray → Except ClientError (JsonValue × List SocketEffect)}
variable {sent : List (Except ClientError ActorHostReply × Executions)}

/-- A call that sends nothing to a host. -/
def Resting : ClientOp → Prop
  | .actorHostInvoke .. => False
  | _ => True

theorem wp_resting {α : Type} {p : Prog ClientOp ClientOp.Res α} (h : Calls Resting p) :
    wp (clientEnv parse) p (fun _ sent' => sent' = sent) sent := by
  refine wp_mono (h.wp (Returns.trivial _) (fun op hop => ?_) fun op r sent' hop hs => ?_) fun _ _ h => h.2
  · cases op <;> trivial
  · cases op <;> first | exact hs | exact hop.elim

theorem calls_resolve (invocation : DirectActorInvocation) : Calls Resting (resolve invocation).run := by
  refine Calls.except_bind ⟨trivial, fun _ => trivial⟩ fun _ => ⟨trivial, fun r => ?_⟩
  rcases r with e | target
  · exact ⟨trivial, fun _ => trivial⟩
  · trivial

theorem calls_target (invocation : DirectActorInvocation) : Calls Resting (target invocation).run := by
  refine Calls.except_bind ⟨trivial, fun _ => trivial⟩ fun current => ?_
  rcases current with _ | current
  · exact calls_resolve invocation
  · refine Calls.except_bind (by trivial) fun target => ?_
    refine Calls.except_bind ⟨trivial, fun _ => trivial⟩ fun now => ?_
    split
    · trivial
    · exact Calls.except_bind ⟨trivial, fun _ => trivial⟩ fun _ => calls_resolve invocation

/-- What an attempt leaves to do outside the `try`. -/
abbrev Leaves (parse : ByteArray → ByteArray → Except ClientError (JsonValue × List SocketEffect))
    (r : Except ClientError (ClientM JsonValue))
    (sent : List (Except ClientError ActorHostReply × Executions)) : Prop :=
  ∀ next, r = .ok next → wp (clientEnv parse) next.run (fun _ _ => True) sent

/-- An attempt sends one request, and goes on only if it is sent elsewhere. -/
theorem wp_attempt {invocation : DirectActorInvocation} {rerouted : ClientM (ClientM JsonValue)}
    (target : ActorHostTarget) (h : Elsewhere InvokeRetried sent) (hlength : sent.length ≤ 1)
    (hrerouted : ∀ s, InvokeRetried s.1 ∧ s.2 = .none →
      wp (clientEnv parse) rerouted.run (Leaves parse) (sent ++ [s])) :
    wp (clientEnv parse) (attempt invocation rerouted target).run (Leaves parse) sent := by
  -- whatever is thrown, nothing more is sent
  have hthrown : ∀ (e : ClientError) sent',
      wp (clientEnv parse) (onError invocation e).run (Leaves parse) sent' := by
    intro e sent'
    cases e with
    | invocation code requestId message => exact fun next => nofun
    | protocol message => exact fun next => nofun
    | other message => exact ⟨trivial, fun _ _ _ next => nofun⟩
  refine wp_tryCatch ⟨⟨h, hlength⟩, fun reply sent' hs => ?_⟩
  obtain ⟨w, hw, rfl⟩ := hs
  rcases reply with e | ⟨result, effects⟩ | ⟨code, message⟩ | _
  · exact hthrown e _
  · cases effects with
    | nil =>
      rintro next ⟨rfl⟩
      trivial
    | cons effect effects =>
      refine ⟨trivial, fun r sent' _ => ?_⟩
      rcases r with e | _
      · exact hthrown e _
      · rintro next ⟨rfl⟩
        trivial
  · exact hthrown _ _
  · refine wp_mono (hrerouted _ ⟨rfl, hw.once.2 rfl⟩) fun r sent' hr => ?_
    rcases r with e | next
    · exact hthrown e _
    · exact hr

theorem wp_leaves {α : ClientM (ClientM JsonValue)} (h : wp (clientEnv parse) α.run (Leaves parse) sent) :
    wp (clientEnv parse) (do let next ← α; next : ClientM JsonValue).run (fun _ _ => True) sent := by
  refine wp_except_bind (wp_mono h fun r sent' hr => ?_)
  rcases r with e | next
  · trivial
  · exact hr next rfl

theorem wp_directLast (invocation : DirectActorInvocation) (target : ActorHostTarget)
    (h : Elsewhere InvokeRetried sent) (hlength : sent.length ≤ 1) :
    wp (clientEnv parse) (directLast invocation target).run (fun _ _ => True) sent :=
  wp_leaves (wp_attempt target h hlength fun _ _ _ => nofun)

theorem wp_direct (invocation : DirectActorInvocation) (target : ActorHostTarget) :
    wp (clientEnv parse) (direct invocation target).run (fun _ _ => True) [] := by
  refine wp_leaves (wp_attempt target nofun (Nat.zero_le 1) fun s hs => ?_)
  refine ⟨trivial, fun _ sent' hsame => ?_⟩
  obtain rfl : sent' = [s] := hsame
  refine wp_except_bind (wp_mono (wp_resting (calls_target invocation)) fun rerouted sent' hsame => ?_)
  rw [hsame]
  rcases rerouted with e | rerouted
  · exact fun next => nofun
  · rintro next ⟨rfl⟩
    refine wp_directLast invocation rerouted ?_ le_rfl
    intro s' hs'
    rwa [List.mem_singleton.mp hs']

theorem wp_invoke (requestId : String) (built : Except ClientError DirectActorInvocation) :
    wp (clientEnv parse) (invoke requestId built).run (fun _ _ => True) [] := by
  refine ⟨trivial, fun inside sent hsame => ?_⟩
  obtain rfl : sent = [] := hsame
  refine wp_except_ite (fun _ => trivial) fun _ => ?_
  rcases built with e | invocation
  · trivial
  · change wp (clientEnv parse) (target invocation >>= direct invocation).run _ _
    refine wp_except_bind (wp_mono (wp_resting (calls_target invocation)) fun target sent' hsame => ?_)
    rw [hsame]
    rcases target with e | target
    · trivial
    · exact wp_direct invocation target

end RemoteActorClient

theorem invoke_atMostOnce {parse : ByteArray → ByteArray → Except ClientError (JsonValue × List SocketEffect)}
    {requestId : String} {built : Except ClientError DirectActorInvocation}
    {q : Prog ClientOp ClientOp.Res (Except ClientError JsonValue)}
    {sent : List (Except ClientError ActorHostReply × Executions)}
    (h : Reaches (clientEnv parse) (RemoteActorClient.invoke requestId built).run [] q sent) :
    AtMostOnce InvokeRetried sent := by
  refine h.invariant (RemoteActorClient.wp_invoke requestId built)
    ⟨by simp, by simp, by simp⟩ fun hw hok hs => ?_
  rename_i op r _
  cases op with
  | actorHostInvoke target invocation =>
    obtain ⟨w, hdelivery, rfl⟩ := hs
    exact .snoc hok.1 hok.2 hdelivery.once.1
  | _ =>
    obtain rfl := hs
    exact hw

/-- One logical call runs the handler of its actor at most once and sends at most two requests,
wherever it is cut off; and a host that sends the caller elsewhere has not called the executor. -/
theorem one_execution_per_call
    (parse : ByteArray → ByteArray → Except ClientError (JsonValue × List SocketEffect)) (serde : SerdeJson) :
    (∀ principal invocation q sent,
        Reaches (dispatchEnv serde) (Gateway.dispatchSocketEvent principal invocation).run [] q sent →
        AtMostOnce SocketRetried sent) ∧
      (∀ requestId built q sent, Reaches (clientEnv parse) (RemoteActorClient.invoke requestId built).run [] q sent →
        AtMostOnce InvokeRetried sent) ∧
      ∀ host call answer w, Turned host call (some answer) w → answer.rerouted = true → w = .none :=
  ⟨fun _ _ _ _ => dispatch_atMostOnce, fun _ _ _ _ => invoke_atMostOnce, fun _ _ _ _ => Turned.spared⟩

namespace RoomTurn

/-- A room that keeps no state. -/
def definition : ActorDefinition Unit where
  actorType := "Room"
  methods _ := false
  callable _ _ := false
  construct _ := .ok ()
  hydrate room _ := .ok room
  invoke _ _ := .error "no methods"
  handleSocketEvent room _ := .ok (room, .obj [], [])

def host : ActorHost where
  id := ⟨"host-1"⟩
  namespaceId := "acme"
  supports _ := true
  serde := literalSerde

/-- The connect event runs in a new worker. -/
theorem executed : Reaches executorEnv (JsActorExecutor.handleSocketWithState Gateway.admission none) 0
    (.ret (.ok (.handled (.obj []) []))) 1 := by
  refine .call (r := false) rfl (.call (r := .ok (.websocketHandled (.obj []) [])) ?_ (.call (r := ()) rfl (.refl _ _)))
  exact ⟨1, .replied (.handled ⟨definition, none⟩), rfl⟩

/-- The turn of the event, cut off after the executor has answered. -/
theorem turned : Turned host ⟨.handleSocket Gateway.admission, 1, 0, ""⟩ none ⟨1, 1⟩ := by
  refine Turned.cut (q := ?_) ?_
  rotate_left
  refine .call (r := true) ⟨0, rfl, rfl⟩ ?_
  refine .call (r := .ok .acquired) ⟨0, rfl, rfl⟩ ?_
  refine .call (r := true) ⟨0, rfl, rfl⟩ ?_
  refine .call (r := .ok none) ⟨0, rfl, rfl⟩ ?_
  refine .call (r := .ok (.handled (.obj []) [])) ⟨1, executed, rfl⟩ ?_
  exact .refl _ _

end RoomTurn

/-- The gateway sends the connect event to a cached target; the room runs it, and the connection breaks
before the reply. It is not sent again. -/
theorem one_execution_per_call_lost_reply :
    AtMostOnce SocketRetried [((.error (.new "transport error") : Result ActorExecutionResult), ⟨1, 1⟩)] := by
  refine (one_execution_per_call (fun _ _ => .error (.protocol "")) literalSerde).1 Gateway.guest.principal
    Gateway.admission ?_ _ ?_
  rotate_left
  refine .call (r := .ok 10) rfl ?_
  refine .call (r := some Gateway.roomHost) rfl ?_
  refine .call (r := .error (.new "transport error")) ⟨⟨1, 1⟩, .lost _ rfl rfl RoomTurn.turned, rfl⟩ ?_
  exact .refl _ _

end LDO
