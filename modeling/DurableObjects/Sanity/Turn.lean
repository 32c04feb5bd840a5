import Mathlib.Data.List.Infix
import DurableObjects.Spec.Host
import DurableObjects.Spec.StoreSystem

/-! Everything one turn can do, whatever the executor, the object store and the
commit authority answer. The gate keeps other turns of the actor out, so a turn is
run against the cache entry of its actor alone; the head history may grow at any
time. A commit is answered with a version only if the head is in the history. -/

namespace LDO

open Prog

structure TurnWorld where
  entry : Option CachedActorState
  heads : List Head
  trace : List HostEvent

/-- The cache is a map behind a lock that no panic can poison. -/
def TurnWorld.Answers (w : TurnWorld) : (op : HostOp) → op.Res → TurnWorld → Prop
  | .takeCachedState _, r, w' => r = .ok w.entry ∧ w'.entry = none
  | .storeCachedState _ cached, r, w' => r = .ok () ∧ w'.entry = some cached
  | .commitState _ _ _ _ stateObject requestId, r, w' => w'.entry = w.entry ∧
      ∀ committed, r = .ok committed → ⟨committed.stateVersion, some stateObject, some requestId⟩ ∈ w'.heads
  | _, _, w' => w'.entry = w.entry

def turnEnv : Env HostOp HostOp.Res TurnWorld where
  ok _ _ := True
  step w op r w' := w.heads <+: w'.heads ∧ w'.trace = w.trace ++ [⟨op, r⟩] ∧ w.Answers op r w'

def HostOp.isExecution : HostOp → Bool
  | .invokeWithState .. => true
  | .handleSocketWithState .. => true
  | _ => false

def HostOp.isWrite : HostOp → Bool
  | .write .. => true
  | _ => false

def HostOp.isCommit : HostOp → Bool
  | .commitState .. => true
  | _ => false

/-- Calls that touch neither the executor nor anything durable. -/
def HostOp.isQuiet : HostOp → Bool
  | .accepting => true
  | .admission _ => true
  | .takeCachedState _ => true
  | .read _ => true
  | .unixMillis => true
  | .prepareStateWrite .. => true
  | _ => false

/-- The calls `tr` were made between `w` and `w'`. -/
structure Spans (w : TurnWorld) (tr : List HostEvent) (w' : TurnWorld) : Prop where
  trace : w'.trace = w.trace ++ tr
  heads : w.heads <+: w'.heads

theorem Spans.refl (w : TurnWorld) : Spans w [] w := ⟨by simp, List.prefix_refl _⟩

theorem Spans.trans {w w' w'' : TurnWorld} {tr tr' : List HostEvent} (h : Spans w tr w')
    (h' : Spans w' tr' w'') : Spans w (tr ++ tr') w'' :=
  ⟨by rw [h'.trace, h.trace, List.append_assoc], h.heads.trans h'.heads⟩

theorem extends_step {w w' : TurnWorld} {op : HostOp} {r : op.Res} (h : turnEnv.step w op r w') :
    Spans w [⟨op, r⟩] w' := ⟨h.2.1, h.1⟩

variable {host : ActorHost} {w w' : TurnWorld}

theorem exec_accepts {draining b : Bool} (h : Exec turnEnv (ActorHost.accepts draining) w b w') :
    ∃ tr, Spans w tr w' ∧ (∀ e ∈ tr, e.op.isQuiet = true) ∧ w'.entry = w.entry := by
  cases draining with
  | true =>
    obtain ⟨-, rfl⟩ := exec_ret.mp h
    exact ⟨[], .refl _, by simp, rfl⟩
  | false =>
    obtain ⟨r, w₂, hs, hret⟩ := exec_call.mp h
    obtain ⟨-, rfl⟩ := exec_ret.mp hret
    exact ⟨_, extends_step hs, by simp [HostOp.isQuiet], hs.2.2⟩

theorem exec_validateOperation {invocation : ActorInvocation} {draining : Bool}
    {r : Result (Option ActorExecutionResult)}
    (h : Exec turnEnv (host.validateOperation invocation draining) w r w') :
    ∃ tr, Spans w tr w' ∧ (∀ e ∈ tr, e.op.isQuiet = true) ∧ w'.entry = w.entry ∧
      ∀ res, r = .ok (some res) → res = .hostUnavailable ∨
        res = failed "actor_error" "actor type is not loaded by this host" := by
  unfold ActorHost.validateOperation at h
  rw [exec_bind] at h
  obtain ⟨accepting, w₁, hacc, h⟩ := h
  obtain ⟨tr, htr, hq, hentry⟩ := exec_accepts hacc
  refine ⟨tr, ?_⟩
  split at h
  · obtain ⟨rfl, rfl⟩ := exec_ret.mp h
    refine ⟨htr, hq, hentry, ?_⟩
    rintro _ ⟨rfl⟩
    exact .inl rfl
  · split at h
    · obtain ⟨rfl, rfl⟩ := exec_ret.mp h
      exact ⟨htr, hq, hentry, by simp⟩
    · split at h
      · obtain ⟨rfl, rfl⟩ := exec_ret.mp h
        exact ⟨htr, hq, hentry, by simp⟩
      · split at h
        · obtain ⟨rfl, rfl⟩ := exec_ret.mp h
          refine ⟨htr, hq, hentry, fun res hres => ?_⟩
          cases hres
          exact .inr rfl
        · obtain ⟨rfl, rfl⟩ := exec_ret.mp h
          exact ⟨htr, hq, hentry, by simp⟩

theorem fromLoaded_ok {serde : SerdeJson} {ownerEpoch stateVersion : ℕ} {state : LoadedState}
    {c : CachedActorState} (h : CachedActorState.fromLoaded serde ownerEpoch stateVersion state = .ok c) :
    ∃ s, StateSnapshot.decode serde state.bytes = .ok s ∧ s.stateVersion = stateVersion ∧
      s.ownerEpoch ≤ ownerEpoch ∧ c = ⟨ownerEpoch, stateVersion, some s.state, some s.requestId, some s.result,
        none, none⟩ := by
  unfold CachedActorState.fromLoaded at h
  cases hs : StateSnapshot.decode serde state.bytes with
  | error e => rw [hs] at h; cases h
  | ok s =>
    rw [hs] at h
    change (ensure (s.stateVersion = stateVersion) _ >>= _) = _ at h
    cases hv : ensure (s.stateVersion = stateVersion) "actor snapshot version does not match its state head" with
    | error e => rw [hv] at h; cases h
    | ok u =>
      rw [hv] at h
      change (ensure (s.ownerEpoch ≤ ownerEpoch) _ >>= _) = _ at h
      cases he : ensure (s.ownerEpoch ≤ ownerEpoch) "actor snapshot belongs to a newer owner epoch" with
      | error e => rw [he] at h; cases h
      | ok u =>
        rw [he] at h
        cases h
        exact ⟨s, rfl, ensure_ok.mp hv, ensure_ok.mp he, rfl⟩

/-- The state a turn starts from: the cached one of its epoch, none, or what it has read from the
place its capability names. -/
inductive StartState (host : ActorHost) (call : HostCall) (w : TurnWorld) (tr : List HostEvent) :
    CachedActorState → Prop
  | cached {c : CachedActorState} : w.entry = some c → c.ownerEpoch = call.ownerEpoch →
      StartState host call w tr c
  | uninitialized : call.stateVersion = 0 → call.stateReadUrl = "" →
      StartState host call w tr (.new call.ownerEpoch)
  | loaded {c : CachedActorState} {state : LoadedState} : call.stateVersion ≠ 0 →
      ⟨.read call.stateReadUrl, .ok state⟩ ∈ tr →
      CachedActorState.fromLoaded host.serde call.ownerEpoch call.stateVersion state = .ok c →
      StartState host call w tr c

theorem exec_takeOrLoadState {object : ActorStorageKey} {call : HostCall} {r : Result CachedActorState}
    (h : Exec turnEnv (host.takeOrLoadState object call.ownerEpoch call.stateVersion call.stateReadUrl) w r w') :
    ∃ tr, Spans w tr w' ∧ (∀ e ∈ tr, e.op.isQuiet = true) ∧ w'.entry = none ∧
      ∀ c, r = .ok c → StartState host call w tr c := by
  unfold ActorHost.takeOrLoadState at h
  rw [perform_bind, exec_call] at h
  obtain ⟨_, w₁, hs, h⟩ := h
  obtain ⟨rfl, hnone⟩ := hs.2.2
  have htr := extends_step hs
  split at h
  · cases ‹Except.ok _ = Except.error _›
  · rename_i cached heq
    cases heq
    split at h
    · rename_i c hc
      obtain ⟨rfl, rfl⟩ := exec_ret.mp h
      obtain ⟨hentry, hepoch⟩ := Option.filter_eq_some_iff.mp hc
      refine ⟨_, htr, by simp [HostOp.isQuiet], hnone, ?_⟩
      rintro _ ⟨rfl⟩
      exact .cached hentry (of_decide_eq_true hepoch)
    · split_ifs at h with hversion
      · obtain ⟨rfl, rfl⟩ := exec_ret.mp h
        refine ⟨_, htr, by simp [HostOp.isQuiet], hnone, ?_⟩
        intro c hc
        unfold ensure at hc
        split_ifs at hc with hurl
        · cases hc; exact .uninitialized hversion hurl
        · cases hc
      · split at h
        · obtain ⟨rfl, rfl⟩ := exec_ret.mp h
          exact ⟨_, htr, by simp [HostOp.isQuiet], hnone, by simp⟩
        · rw [perform_bind, exec_call] at h
          obtain ⟨loaded, w₂, hs₂, h⟩ := h
          have htr₂ := htr.trans (extends_step hs₂)
          have hnone₂ : w₂.entry = none := hs₂.2.2.trans hnone
          split at h
          · obtain ⟨rfl, rfl⟩ := exec_ret.mp h
            exact ⟨_, htr₂, by simp [HostOp.isQuiet], hnone₂, by simp⟩
          · obtain ⟨rfl, rfl⟩ := exec_ret.mp h
            refine ⟨_, htr₂, by simp [HostOp.isQuiet], hnone₂, fun c hc => ?_⟩
            exact .loaded hversion (List.mem_append_right _ (List.mem_singleton_self _)) hc

/-- `cached` once its pending commit is known to be recorded. -/
def CachedActorState.resolved (cached : CachedActorState) (pending : PendingStateCommit)
    (nextWrite : Option StateWriteTicket) : CachedActorState :=
  { cached with
    stateVersion := pending.snapshot.stateVersion
    state := some pending.snapshot.state
    lastRequestId := some pending.snapshot.requestId
    lastResult := some pending.snapshot.result
    nextWrite := nextWrite
    pending := none }

def PendingStateCommit.head (pending : PendingStateCommit) : Head :=
  ⟨pending.snapshot.stateVersion, some pending.ticket.objectName, some pending.snapshot.requestId⟩

/-- What is left of a cached state after its pending commit, if any, was resolved. -/
inductive Resolves (heads : List Head) : CachedActorState → CachedActorState → Prop
  | clear {c : CachedActorState} : c.pending = none → Resolves heads c c
  | committed {c : CachedActorState} {p : PendingStateCommit} (next : Option StateWriteTicket) :
      c.pending = some p → p.head ∈ heads → Resolves heads c (c.resolved p next)

theorem Resolves.pending {heads : List Head} {c c' : CachedActorState} (h : Resolves heads c c') :
    c'.pending = none := by
  cases h with
  | clear h => exact h
  | committed => rfl

theorem Resolves.mono {heads heads' : List Head} {c c' : CachedActorState} (h : Resolves heads c c')
    (hp : heads <+: heads') : Resolves heads' c c' := by
  cases h with
  | clear h => exact .clear h
  | committed next h hm => exact .committed next h (hp.subset hm)

theorem exec_finishPendingCommit {invocation : ActorInvocation} {c c' : CachedActorState} {r : Result Unit}
    (h : Exec turnEnv (host.finishPendingCommit invocation c) w (r, c') w') :
    ∃ tr, Spans w tr w' ∧ (∀ e ∈ tr, e.op.isCommit = true) ∧ w'.entry = w.entry ∧
      ((∃ e, r = .error e) ∧ c' = c ∧ c.pending ≠ none ∨ r = .ok () ∧ Resolves w'.heads c c') := by
  unfold ActorHost.finishPendingCommit at h
  split at h
  · rename_i hp
    obtain ⟨⟨rfl, rfl⟩, rfl⟩ := exec_ret.mp h
    exact ⟨[], .refl _, by simp, rfl, .inr ⟨rfl, .clear hp⟩⟩
  · rename_i p hp
    have hne : c.pending ≠ none := by simp [hp]
    rw [perform_bind, exec_call] at h
    obtain ⟨reply, w₁, hs, h⟩ := h
    obtain ⟨hentry, hhead⟩ := hs.2.2
    split at h
    · obtain ⟨⟨rfl, rfl⟩, rfl⟩ := exec_ret.mp h
      exact ⟨_, extends_step hs, by simp [HostOp.isCommit], hentry, .inl ⟨⟨_, rfl⟩, rfl, hne⟩⟩
    · split at h
      · obtain ⟨⟨rfl, rfl⟩, rfl⟩ := exec_ret.mp h
        exact ⟨_, extends_step hs, by simp [HostOp.isCommit], hentry, .inl ⟨⟨_, rfl⟩, rfl, hne⟩⟩
      · rename_i committed _ hversion
        obtain ⟨⟨rfl, rfl⟩, rfl⟩ := exec_ret.mp h
        refine ⟨_, extends_step hs, by simp [HostOp.isCommit], hentry, .inr ⟨rfl, ?_⟩⟩
        refine .committed committed.nextWrite hp ?_
        rw [PendingStateCommit.head, ← ensure_ok.mp hversion]
        exact hhead committed rfl

theorem exec_evict {actor : ActorKey} {u : Unit} (h : Exec turnEnv (ActorHost.evict actor) w u w') :
    ∃ r, Spans w [⟨.evict actor, r⟩] w' ∧ w'.entry = w.entry := by
  unfold ActorHost.evict at h
  rw [perform_bind, exec_call] at h
  obtain ⟨r, w₁, hs, h⟩ := h
  obtain ⟨-, rfl⟩ := exec_ret.mp h
  exact ⟨r, extends_step hs, hs.2.2⟩

theorem exec_storeAndAnswer {α : Type} {object : ActorStorageKey} {c : CachedActorState} {answer : α}
    {r : Result α} (h : Exec turnEnv (ActorHost.storeAndAnswer object c answer) w r w') :
    r = .ok answer ∧ w'.entry = some c ∧ Spans w [⟨.storeCachedState object c, .ok ()⟩] w' := by
  unfold ActorHost.storeAndAnswer at h
  rw [perform_bind, exec_call] at h
  obtain ⟨_, w₁, hs, h⟩ := h
  obtain ⟨rfl, hentry⟩ := hs.2.2
  obtain ⟨rfl, rfl⟩ := exec_ret.mp h
  exact ⟨rfl, hentry, extends_step hs⟩

/-- The only codes an execution fails with. -/
def ExecutionFailure (answer : ActorExecutionResult) : Prop :=
  ∃ code message, answer = failed code message ∧ (code = "actor_error" ∨ code = "resource_exhausted")

theorem executionFailure_error (message : String) : ExecutionFailure (failed "actor_error" message) :=
  ⟨_, _, rfl, .inl rfl⟩

theorem executionFailure_failureCode (code message : String) :
    ExecutionFailure (failed (ActorHost.failureCode code) message) := by
  refine ⟨_, _, rfl, ?_⟩
  unfold ActorHost.failureCode
  split_ifs
  · exact .inr rfl
  · exact .inl rfl

/-- The call that hands a method invocation to the executor. -/
def methodOp (invocation : ActorInvocation) (state : Option Value) : HostOp :=
  .invokeWithState ⟨invocation.requestId, invocation.actor, invocation.method, invocation.args, []⟩ state

/-- How an execution with the call `op` ended: with a valid outcome, or with a failure after
which nothing but an eviction was asked for. -/
inductive Execution (op : HostOp) (success : Value → Value → List ActorSocketEffect → op.Res)
    (actor : ActorKey) (tr : List HostEvent) :
    Except ActorExecutionResult (Value × Value × List ActorSocketEffect) → Prop
  | done {result next : Value} {effects : List ActorSocketEffect} : tr = [⟨op, success result next effects⟩] →
      validateSocketEffects effects = .ok () → Execution op success actor tr (.ok (result, next, effects))
  | failed {answer : ActorExecutionResult} {r : op.Res} {post : List HostEvent} : tr = ⟨op, r⟩ :: post →
      (∀ e ∈ post, e.op = .evict actor) → ExecutionFailure answer →
      Execution op success actor tr (.error answer)

theorem exec_executeMethod {invocation : ActorInvocation} {state : Option Value}
    {r : Except ActorExecutionResult (Value × Value × List ActorSocketEffect)}
    (h : Exec turnEnv (ActorHost.executeMethod invocation state []) w r w') :
    ∃ tr, Spans w tr w' ∧ w'.entry = w.entry ∧ Execution (methodOp invocation state)
      (fun result next effects => .ok (.completed result next effects)) invocation.actor tr r := by
  unfold ActorHost.executeMethod at h
  rw [perform_bind, exec_call] at h
  obtain ⟨outcome, w₁, hs, h⟩ := h
  have htr := extends_step hs
  have hentry : w₁.entry = w.entry := hs.2.2
  -- each failing branch evicts and answers
  have hfail : ∀ {answer : ActorExecutionResult}, ExecutionFailure answer →
      Exec turnEnv (do ActorHost.evict invocation.actor; pure (.error answer)) w₁ r w' →
      ∃ tr, Spans w tr w' ∧ w'.entry = w.entry ∧ Execution (methodOp invocation state)
        (fun result next effects => .ok (.completed result next effects)) invocation.actor tr r := by
    intro answer hcode hx
    obtain ⟨_, w₂, hev, hret⟩ := exec_bind.mp hx
    obtain ⟨rfl, rfl⟩ := exec_ret.mp hret
    obtain ⟨er, hext, hent⟩ := exec_evict hev
    refine ⟨_, htr.trans hext, hent.trans hentry, .failed rfl ?_ hcode⟩
    simp
  split at h
  · split at h
    · rename_i heff
      obtain ⟨rfl, rfl⟩ := exec_ret.mp h
      exact ⟨_, htr, hentry, .done rfl heff⟩
    · exact hfail (executionFailure_error _) h
  · exact hfail (executionFailure_failureCode _ _) h
  · exact hfail (executionFailure_error _) h

theorem exec_executeSocketEvent {invocation : ActorSocketInvocation} {state : Option Value}
    {r : Except ActorExecutionResult (Value × List ActorSocketEffect)}
    (h : Exec turnEnv (ActorHost.executeSocketEvent invocation state) w r w') :
    ∃ tr, Spans w tr w' ∧ w'.entry = w.entry ∧ Execution (.handleSocketWithState invocation state)
      (fun _ next effects => .ok (.handled next effects)) invocation.actor tr
      (r.map fun p => (.null, p.1, p.2)) := by
  unfold ActorHost.executeSocketEvent at h
  rw [perform_bind, exec_call] at h
  obtain ⟨outcome, w₁, hs, h⟩ := h
  have htr := extends_step hs
  have hentry : w₁.entry = w.entry := hs.2.2
  split at h
  · split at h
    · rename_i heff
      obtain ⟨rfl, rfl⟩ := exec_ret.mp h
      exact ⟨_, htr, hentry, .done rfl heff⟩
    · obtain ⟨_, w₂, hev, hret⟩ := exec_bind.mp h
      obtain ⟨rfl, rfl⟩ := exec_ret.mp hret
      obtain ⟨er, hext, hent⟩ := exec_evict hev
      exact ⟨_, htr.trans hext, hent.trans hentry, .failed rfl (by simp) (executionFailure_error _)⟩
  · obtain ⟨rfl, rfl⟩ := exec_ret.mp h
    exact ⟨_, htr, hentry, .failed rfl (by simp) (executionFailure_failureCode _ _)⟩
  · obtain ⟨rfl, rfl⟩ := exec_ret.mp h
    exact ⟨_, htr, hentry, .failed rfl (by simp) (executionFailure_error _)⟩

/-! ### Publication -/

theorem exec_writeTicket {actor : ActorKey} {ownerEpoch expectedVersion nextVersion : ℕ}
    {kept : Option StateWriteTicket} {r : Result StateWriteTicket}
    (h : Exec turnEnv (host.writeTicket actor ownerEpoch expectedVersion nextVersion kept) w r w') :
    ∃ tr, Spans w tr w' ∧ (∀ e ∈ tr, e.op.isQuiet = true) ∧ w'.entry = w.entry := by
  unfold ActorHost.writeTicket at h
  obtain ⟨usable, w₁, hu, h⟩ := exec_bind.mp h
  have husable : ∃ tr, Spans w tr w₁ ∧ (∀ e ∈ tr, e.op.isQuiet = true) ∧ w₁.entry = w.entry := by
    unfold ActorHost.usableTicket at hu
    split at hu
    · split at hu
      · rw [perform_bind, exec_call] at hu
        obtain ⟨now, w₂, hs, hu⟩ := hu
        have : w₁ = w₂ := by
          split at hu
          · exact (exec_ret.mp hu).2
          · exact (exec_ret.mp hu).2
        subst this
        exact ⟨_, extends_step hs, by simp [HostOp.isQuiet], hs.2.2⟩
      · obtain ⟨-, rfl⟩ := exec_ret.mp hu
        exact ⟨[], .refl _, by simp, rfl⟩
    · obtain ⟨-, rfl⟩ := exec_ret.mp hu
      exact ⟨[], .refl _, by simp, rfl⟩
  obtain ⟨tr, htr, hq, hentry⟩ := husable
  split at h
  · obtain ⟨-, rfl⟩ := exec_ret.mp h
    exact ⟨tr, htr, hq, hentry⟩
  · obtain ⟨-, rfl⟩ := exec_ret.mp h
    exact ⟨tr, htr, hq, hentry⟩
  · obtain ⟨r', w₂, hs, hret⟩ := exec_call.mp h
    obtain ⟨-, rfl⟩ := exec_ret.mp hret
    refine ⟨_, htr.trans (extends_step hs), ?_, hs.2.2.trans hentry⟩
    intro e he
    rcases List.mem_append.mp he with he | he
    · exact hq e he
    · rw [List.mem_singleton.mp he]; rfl

/-- What `publish_result_once` can make of the cached state. -/
inductive Publication (requestId : String) (ownerEpoch : ℕ) (c : CachedActorState) (result next : Value)
    (tr : List HostEvent) (heads : List Head) : Result ActorExecutionResult → CachedActorState → Prop
  | overflow (e : Error) : u64Max ≤ c.stateVersion → (∀ ev ∈ tr, ev.op.isWrite = false) →
      Publication requestId ownerEpoch c result next tr heads (.error e) c
  | notUploaded (e : Error) : (∀ url bytes write, ⟨.write url bytes, .ok write⟩ ∉ tr) →
      Publication requestId ownerEpoch c result next tr heads (.error e) { c with nextWrite := none }
  | unconfirmed (e : Error) {p : PendingStateCommit} {bytes : ByteArray} {write : StateWrite} :
      p.snapshot = ⟨c.stateVersion + 1, ownerEpoch, requestId, next, result⟩ → p.snapshot.encode = .ok bytes →
      ⟨.write p.ticket.url bytes, .ok write⟩ ∈ tr →
      Publication requestId ownerEpoch c result next tr heads (.error e)
        { c with nextWrite := none, pending := some p }
  | recorded {p : PendingStateCommit} {bytes : ByteArray} {write : StateWrite} (ticket : Option StateWriteTicket) :
      p.snapshot = ⟨c.stateVersion + 1, ownerEpoch, requestId, next, result⟩ → p.snapshot.encode = .ok bytes →
      ⟨.write p.ticket.url bytes, .ok write⟩ ∈ tr → p.head ∈ heads →
      Publication requestId ownerEpoch c result next tr heads (.ok (.completed result [])) (c.resolved p ticket)

theorem prepareSnapshot_ok {ticket : StateWriteTicket} {nextVersion ownerEpoch : ℕ} {requestId : String}
    {next result : Value} {snapshot : StateSnapshot} {bytes : ByteArray}
    (h : ActorHost.prepareSnapshot ticket nextVersion ownerEpoch requestId next result = .ok (snapshot, bytes)) :
    snapshot = ⟨nextVersion, ownerEpoch, requestId, next, result⟩ ∧ snapshot.encode = .ok bytes ∧
      snapshot.validate = .ok () ∧ ticket.stateVersion = nextVersion := by
  unfold ActorHost.prepareSnapshot StateSnapshot.new at h
  cases hv : ensure (ticket.stateVersion = nextVersion) "state write ticket has the wrong version" with
  | error e => rw [hv] at h; cases h
  | ok u =>
    rw [hv] at h
    change ((StateSnapshot.validate ⟨nextVersion, ownerEpoch, requestId, next, result⟩ >>= _) >>= _) = _ at h
    cases hs : StateSnapshot.validate ⟨nextVersion, ownerEpoch, requestId, next, result⟩ with
    | error e => rw [hs] at h; cases h
    | ok u' =>
      rw [hs] at h
      change (StateSnapshot.encode ⟨nextVersion, ownerEpoch, requestId, next, result⟩ >>= _) = _ at h
      cases he : StateSnapshot.encode ⟨nextVersion, ownerEpoch, requestId, next, result⟩ with
      | error e => rw [he] at h; cases h
      | ok b =>
        rw [he] at h
        cases h
        exact ⟨rfl, he, hs, ensure_ok.mp hv⟩

theorem checkedAdd_ok {n m : ℕ} {c : String} (h : orContext (checkedAdd n 1) c = .ok m) :
    m = n + 1 ∧ n < u64Max := by
  unfold checkedAdd orContext at h
  split at h
  · rename_i heq
    split_ifs at heq with hle
    cases heq
    cases h
    exact ⟨rfl, hle⟩
  · cases h

theorem checkedAdd_error {n : ℕ} {e : Error} {c : String} (h : orContext (checkedAdd n 1) c = .error e) :
    u64Max ≤ n := by
  unfold checkedAdd orContext at h
  split at h
  · cases h
  · rename_i heq
    split_ifs at heq with hle
    omega

theorem not_write_of_isQuiet {tr : List HostEvent} (h : ∀ e ∈ tr, e.op.isQuiet = true) (url : String)
    (bytes : ByteArray) (write : StateWrite) : ⟨.write url bytes, .ok write⟩ ∉ tr :=
  fun hm => by cases h _ hm

theorem exec_publishResultOnce {invocation : ActorInvocation} {ownerEpoch : ℕ} {c c' : CachedActorState}
    {result next : Value} {r : Result ActorExecutionResult}
    (h : Exec turnEnv (host.publishResultOnce invocation ownerEpoch c result next) w (r, c') w') :
    ∃ tr, Spans w tr w' ∧ (∀ e ∈ tr, e.op.isExecution = false) ∧ w'.entry = w.entry ∧
      Publication invocation.requestId ownerEpoch c result next tr w'.heads r c' := by
  unfold ActorHost.publishResultOnce at h
  split at h
  · rename_i hover
    obtain ⟨⟨rfl, rfl⟩, rfl⟩ := exec_ret.mp h
    exact ⟨[], .refl _, by simp, rfl, .overflow _ (checkedAdd_error hover) (by simp)⟩
  · rename_i nextVersion hnext
    obtain ⟨rfl, -⟩ := checkedAdd_ok hnext
    obtain ⟨ticketAnswer, w₁, hticket, h⟩ := exec_bind.mp h
    obtain ⟨tr₁, htr₁, hq₁, hentry₁⟩ := exec_writeTicket hticket
    have hne₁ : ∀ e ∈ tr₁, e.op.isExecution = false := by
      intro e he
      have := hq₁ e he
      cases hop : e.op <;> rw [hop] at this <;> first | rfl | cases this
    split at h
    · obtain ⟨⟨rfl, rfl⟩, rfl⟩ := exec_ret.mp h
      exact ⟨tr₁, htr₁, hne₁, hentry₁, .notUploaded _ (not_write_of_isQuiet hq₁)⟩
    · rename_i ticket
      split at h
      · obtain ⟨⟨rfl, rfl⟩, rfl⟩ := exec_ret.mp h
        exact ⟨tr₁, htr₁, hne₁, hentry₁, .notUploaded _ (not_write_of_isQuiet hq₁)⟩
      · rename_i snapshot bytes hprep
        obtain ⟨hsnap, henc, -, -⟩ := prepareSnapshot_ok hprep
        rw [perform_bind, exec_call] at h
        obtain ⟨write, w₂, hs, h⟩ := h
        have htr₂ := htr₁.trans (extends_step hs)
        have hentry₂ : w₂.entry = w.entry := hs.2.2.trans hentry₁
        have hne₂ : ∀ e ∈ tr₁ ++ [⟨.write ticket.url bytes, write⟩], e.op.isExecution = false := by
          intro e he
          rcases List.mem_append.mp he with he | he
          · exact hne₁ e he
          · rw [List.mem_singleton.mp he]; rfl
        split at h
        · rename_i e
          obtain ⟨⟨rfl, rfl⟩, rfl⟩ := exec_ret.mp h
          refine ⟨_, htr₂, hne₂, hentry₂, .notUploaded _ fun url b wr hm => ?_⟩
          rcases List.mem_append.mp hm with hm | hm
          · exact not_write_of_isQuiet hq₁ url b wr hm
          · cases List.mem_singleton.mp hm
        · rename_i stored
          obtain ⟨⟨finished, c₂⟩, w₃, hfin, h⟩ := exec_bind.mp h
          obtain ⟨tr₃, htr₃, hcommit, hentry₃, hcases⟩ := exec_finishPendingCommit hfin
          have htr := htr₂.trans htr₃
          have hup : (⟨.write ticket.url bytes, .ok stored⟩ : HostEvent) ∈
              tr₁ ++ [⟨.write ticket.url bytes, .ok stored⟩] ++ tr₃ := by simp
          have hne : ∀ e ∈ tr₁ ++ [⟨.write ticket.url bytes, .ok stored⟩] ++ tr₃, e.op.isExecution = false := by
            intro e he
            rcases List.mem_append.mp he with he | he
            · exact hne₂ e he
            · have := hcommit e he
              cases hop : e.op <;> rw [hop] at this <;> first | rfl | cases this
          simp only at h
          rcases hcases with ⟨⟨e, rfl⟩, rfl, -⟩ | ⟨rfl, hres⟩
          · obtain ⟨⟨rfl, rfl⟩, rfl⟩ := exec_ret.mp h
            exact ⟨_, htr, hne, hentry₃.trans hentry₂, .unconfirmed _ hsnap henc hup⟩
          · obtain ⟨⟨rfl, rfl⟩, rfl⟩ := exec_ret.mp h
            cases hres with
            | clear hp => cases hp
            | committed nw hp hm =>
              cases hp
              have := Publication.recorded (c := c) nw hsnap henc hup hm
              exact ⟨_, htr, hne, hentry₃.trans hentry₂, this⟩

theorem exec_publishAndStore {α : Type} {invocation : ActorInvocation} {object : ActorStorageKey}
    {ownerEpoch : ℕ} {c : CachedActorState} {result next : Value} {answer : Result ActorExecutionResult → α}
    {r : Result α}
    (h : Exec turnEnv (host.publishAndStore invocation object ownerEpoch c result next answer) w r w') :
    ∃ tr published c', Spans w tr w' ∧ (∀ e ∈ tr, e.op.isExecution = false) ∧ w'.entry = some c' ∧
      r = .ok (answer published) ∧
      Publication invocation.requestId ownerEpoch c result next tr w'.heads published c' ∧
      (∀ e, published = .error e → ∃ er, ⟨.evict invocation.actor, er⟩ ∈ tr) := by
  unfold ActorHost.publishAndStore at h
  obtain ⟨⟨published, c'⟩, w₁, hpub, h⟩ := exec_bind.mp h
  obtain ⟨tr₁, htr₁, hne₁, hentry₁, hcases⟩ := exec_publishResultOnce hpub
  obtain ⟨_, w₂, hev, h⟩ := exec_bind.mp h
  obtain ⟨hr, hentry, htr₃⟩ := exec_storeAndAnswer h
  -- the eviction, if there is one, and the store add nothing that a publication is about
  have hmid : ∃ tr₂, Spans w₁ tr₂ w₂ ∧ (∀ e ∈ tr₂, e.op = .evict invocation.actor) ∧
      (∀ e, published = .error e → ∃ er, ⟨.evict invocation.actor, er⟩ ∈ tr₂) := by
    cases published with
    | error e =>
      obtain ⟨er, hext, -⟩ := exec_evict hev
      exact ⟨_, hext, by simp, fun _ _ => ⟨er, by simp⟩⟩
    | ok res =>
      obtain ⟨-, rfl⟩ := exec_ret.mp hev
      exact ⟨[], .refl _, by simp, by simp⟩
  obtain ⟨tr₂, htr₂, hops₂, hevict⟩ := hmid
  have hheads : w₁.heads <+: w'.heads := htr₂.heads.trans htr₃.heads
  have hrest : ∀ e ∈ tr₂ ++ [⟨.storeCachedState object c', .ok ()⟩],
      e.op.isExecution = false ∧ ∀ url bytes, e.op ≠ .write url bytes := by
    intro e he
    rcases List.mem_append.mp he with he | he
    · rw [hops₂ e he]; exact ⟨rfl, by simp⟩
    · rw [List.mem_singleton.mp he]; exact ⟨rfl, by simp⟩
  refine ⟨tr₁ ++ (tr₂ ++ [⟨.storeCachedState object c', .ok ()⟩]), published, c', ?_, ?_, hentry, hr, ?_, ?_⟩
  · exact htr₁.trans (htr₂.trans htr₃)
  · intro e he
    rcases List.mem_append.mp he with he | he
    · exact hne₁ e he
    · exact (hrest e he).1
  · cases hcases with
    | overflow e hv hno =>
      refine .overflow e hv fun ev hm => ?_
      rcases List.mem_append.mp hm with hm | hm
      · exact hno ev hm
      · have := (hrest ev hm).2
        cases hop : ev.op <;> first | rfl | exact absurd hop (this _ _)
    | notUploaded e hno =>
      refine .notUploaded e fun url bytes write hm => ?_
      rcases List.mem_append.mp hm with hm | hm
      · exact hno url bytes write hm
      · exact (hrest _ hm).2 url bytes rfl
    | unconfirmed e hs henc hm => exact .unconfirmed e hs henc (List.mem_append_left _ hm)
    | recorded t hs henc hm hhead => exact .recorded t hs henc (List.mem_append_left _ hm) (hheads.subset hhead)
  · intro e he
    obtain ⟨er, hm⟩ := hevict e he
    exact ⟨er, List.mem_append_right _ (List.mem_append_left _ hm)⟩

/-! ### Whole turns -/

/-- The call that hands a request to the executor. -/
def ActorRequest.executionOp : ActorRequest → Option Value → HostOp
  | .invoke invocation, state => methodOp invocation state
  | .handleSocket invocation, state => .handleSocketWithState invocation state

/-- The executor ran the request on `state` and answered with these outputs. A
socket event has no result; it is published with `null`. -/
def ActorRequest.Ran (request : ActorRequest) (state : Option Value) (result next : Value)
    (effects : List ActorSocketEffect) (tr : List HostEvent) : Prop :=
  match request with
  | .invoke invocation => ⟨methodOp invocation state, .ok (.completed result next effects)⟩ ∈ tr
  | .handleSocket invocation =>
    result = .null ∧ ⟨.handleSocketWithState invocation state, .ok (.handled next effects)⟩ ∈ tr

/-- `HostUnavailable`, or an error the service reports as unavailable -/
def TurnAnswer.unavailable : TurnAnswer → Bool
  | .invoked (.error _) => true
  | .invoked (.ok .hostUnavailable) => true
  | .handled (.error _) => true
  | .handled (.ok .hostUnavailable) => true
  | _ => false

def TurnAnswer.failure : TurnAnswer → Option ActorInvocationFailure
  | .invoked (.ok (.failed failure)) => some failure
  | .handled (.ok (.failed failure)) => some failure
  | _ => none

/-- `Completed` with its result and effects, or `Handled` with its effects -/
def TurnAnswer.success : TurnAnswer → Option (Value × List ActorSocketEffect)
  | .invoked (.ok (.completed result effects)) => some (result, effects)
  | .handled (.ok (.handled effects)) => some (.null, effects)
  | _ => none

/-- The state an execution ran on, once any earlier pending commit was resolved. -/
def SettledState (host : ActorHost) (call : HostCall) (w : TurnWorld) (tr : List HostEvent)
    (heads : List Head) (c : CachedActorState) : Prop :=
  ∃ start, StartState host call w tr start ∧ Resolves heads start c

/-- The ways a turn can go: the calls it makes, the cache entry it leaves and its answer. -/
inductive TurnCase (host : ActorHost) (call : HostCall) (w : TurnWorld) (tr : List HostEvent)
    (heads : List Head) :
    Option CachedActorState → TurnAnswer → Prop
  | refused {answer : TurnAnswer} : (∀ e ∈ tr, e.op.isQuiet = true) →
      (answer.unavailable = true ∨
        answer.failure = some ⟨"actor_error", "actor type is not loaded by this host"⟩) →
      TurnCase host call w tr heads w.entry answer
  | unloaded {answer : TurnAnswer} : (∀ e ∈ tr, e.op.isQuiet = true) → answer.unavailable = true →
      TurnCase host call w tr heads none answer
  | unresolved {c : CachedActorState} {answer : TurnAnswer} :
      (∀ e ∈ tr, e.op.isExecution = false ∧ e.op.isWrite = false) →
      StartState host call w tr c → c.pending ≠ none →
      answer.failure = some .outcomeUnknownAfterExecution → TurnCase host call w tr heads (some c) answer
  | replayed {c : CachedActorState} {invocation : ActorInvocation} {result : Value} :
      (∀ e ∈ tr, e.op.isExecution = false ∧ e.op.isWrite = false) → call.request = .invoke invocation →
      SettledState host call w tr heads c → c.replay invocation.requestId = some result →
      TurnCase host call w tr heads (some c) (.invoked (.ok (.completed result [])))
  | executionFailed {c : CachedActorState} {pre post : List HostEvent} {e : HostEvent} {answer : TurnAnswer}
      {failure : ActorInvocationFailure} :
      tr = pre ++ e :: post → (∀ e ∈ pre, e.op.isExecution = false ∧ e.op.isWrite = false) →
      e.op = call.request.executionOp c.state →
      (∀ e ∈ post, e.op.isExecution = false ∧ e.op.isWrite = false ∧ e.op.isCommit = false) →
      SettledState host call w tr heads c → answer.failure = some failure →
      (failure.code = "actor_error" ∨ failure.code = "resource_exhausted") →
      TurnCase host call w tr heads (some c) answer
  | unchanged {c : CachedActorState} {result next : Value} {effects : List ActorSocketEffect} {answer : TurnAnswer} :
      (∀ e ∈ tr, e.op.isWrite = false) → SettledState host call w tr heads c →
      call.request.Ran c.state result next effects tr → validateSocketEffects effects = .ok () →
      c.state = some next → answer.success = some (result, effects) →
      TurnCase host call w tr heads (some c) answer
  | published {c c' : CachedActorState} {result next : Value} {effects : List ActorSocketEffect}
      {published : Result ActorExecutionResult} {answer : TurnAnswer} :
      SettledState host call w tr heads c → call.request.Ran c.state result next effects tr →
      validateSocketEffects effects = .ok () → c.state ≠ some next →
      Publication call.request.persistence.requestId call.ownerEpoch c result next tr heads published c' →
      (∀ e, published = .error e → (∃ er, ⟨.evict call.request.persistence.actor, er⟩ ∈ tr) ∧
        answer.failure = some .outcomeUnknownAfterExecution) →
      (∀ res, published = .ok res → answer.success = some (result, effects)) →
      TurnCase host call w tr heads (some c') answer

theorem StartState.mono {call : HostCall} {tr tr' : List HostEvent} {c : CachedActorState}
    (h : StartState host call w tr c) (hsub : tr ⊆ tr') : StartState host call w tr' c := by
  cases h with
  | cached he hc => exact .cached he hc
  | uninitialized hv hu => exact .uninitialized hv hu
  | loaded hv hm hl => exact .loaded hv (hsub hm) hl

theorem SettledState.mono {call : HostCall} {tr tr' : List HostEvent} {heads heads' : List Head}
    {c : CachedActorState} (h : SettledState host call w tr heads c) (hsub : tr ⊆ tr') (hp : heads <+: heads') :
    SettledState host call w tr' heads' c := by
  obtain ⟨start, hstart, hres⟩ := h
  exact ⟨start, hstart.mono hsub, hres.mono hp⟩

theorem SettledState.pending {call : HostCall} {tr : List HostEvent} {heads : List Head}
    {c : CachedActorState} (h : SettledState host call w tr heads c) : c.pending = none := by
  obtain ⟨start, -, hres⟩ := h
  exact hres.pending

theorem ActorRequest.Ran.mono {request : ActorRequest} {state : Option Value} {result next : Value}
    {effects : List ActorSocketEffect} {tr tr' : List HostEvent} (h : request.Ran state result next effects tr)
    (hsub : tr ⊆ tr') : request.Ran state result next effects tr' := by
  cases request with
  | invoke invocation => exact hsub h
  | handleSocket invocation => exact ⟨h.1, hsub h.2⟩

/-- A publication seen in a longer trace with no other uploads. -/
theorem Publication.mono {requestId : String} {ownerEpoch : ℕ} {c c' : CachedActorState} {result next : Value}
    {tr tr' : List HostEvent} {heads : List Head} {r : Result ActorExecutionResult}
    (h : Publication requestId ownerEpoch c result next tr heads r c')
    (hnew : ∀ e ∈ tr', e ∈ tr ∨ e.op.isWrite = false) (hsub : tr ⊆ tr') :
    Publication requestId ownerEpoch c result next tr' heads r c' := by
  cases h with
  | overflow e hv hno =>
    refine .overflow e hv fun ev hm => ?_
    rcases hnew ev hm with h | h
    · exact hno ev h
    · exact h
  | notUploaded e hno =>
    refine .notUploaded e fun url bytes write hm => ?_
    rcases hnew _ hm with h | h
    · exact hno url bytes write h
    · cases h
  | unconfirmed e hs henc hm => exact .unconfirmed e hs henc (hsub hm)
  | recorded t hs henc hm hhead => exact .recorded t hs henc (hsub hm) hhead

theorem quiet_facts {e : HostEvent} (h : e.op.isQuiet = true) :
    e.op.isExecution = false ∧ e.op.isWrite = false := by
  cases hop : e.op <;> rw [hop] at h <;> first | exact ⟨rfl, rfl⟩ | cases h

theorem commit_facts {e : HostEvent} (h : e.op.isCommit = true) :
    e.op.isExecution = false ∧ e.op.isWrite = false := by
  cases hop : e.op <;> rw [hop] at h <;> first | exact ⟨rfl, rfl⟩ | cases h

section Executed

variable {call : HostCall} {w₁ w₂ : TurnWorld} {pre tr₂ : List HostEvent} {c : CachedActorState}
  {object : ActorStorageKey}

/-- The executor failed, or its effects were refused: the entry goes back as it was. -/
theorem turnCase_executionFailed {α : Type} {op : HostOp} {r : op.Res} {post : List HostEvent}
    {failure : ActorInvocationFailure} {answer : α} {ans : Result α} {wrap : Result α → TurnAnswer}
    (hpre : Spans w pre w₁) (hno : ∀ e ∈ pre, e.op.isExecution = false ∧ e.op.isWrite = false)
    (hsettled : SettledState host call w pre w₁.heads c) (hx : Spans w₁ (⟨op, r⟩ :: post) w₂)
    (hop : op = call.request.executionOp c.state)
    (hpost : ∀ e ∈ post, e.op = .evict call.request.persistence.actor)
    (hstore : Exec turnEnv (ActorHost.storeAndAnswer object c answer) w₂ ans w')
    (hfail : (wrap (.ok answer)).failure = some failure)
    (hcode : failure.code = "actor_error" ∨ failure.code = "resource_exhausted") :
    ∃ tr, Spans w tr w' ∧ TurnCase host call w tr w'.heads w'.entry (wrap ans) := by
  obtain ⟨rfl, hentry, hst⟩ := exec_storeAndAnswer hstore
  have htr := hpre.trans (hx.trans hst)
  refine ⟨_, htr, ?_⟩
  rw [hentry]
  have hsplit : pre ++ (⟨op, r⟩ :: post ++ [⟨.storeCachedState object c, .ok ()⟩]) =
      pre ++ ⟨op, r⟩ :: (post ++ [⟨.storeCachedState object c, .ok ()⟩]) := rfl
  refine .executionFailed hsplit hno hop ?_
    (hsettled.mono (List.subset_append_left _ _) (hx.heads.trans hst.heads)) hfail hcode
  intro e he
  rcases List.mem_append.mp he with he | he
  · rw [hpost e he]; exact ⟨rfl, rfl, rfl⟩
  · rw [List.mem_singleton.mp he]; exact ⟨rfl, rfl, rfl⟩

theorem turnCase_unchanged {α : Type} {e : HostEvent} {result next : Value} {effects : List ActorSocketEffect}
    {answer : α} {ans : Result α} {wrap : Result α → TurnAnswer}
    (hpre : Spans w pre w₁) (hno : ∀ e ∈ pre, e.op.isExecution = false ∧ e.op.isWrite = false)
    (hsettled : SettledState host call w pre w₁.heads c) (hx : Spans w₁ [e] w₂)
    (hran : call.request.Ran c.state result next effects [e]) (he : e.op.isWrite = false)
    (heff : validateSocketEffects effects = .ok ()) (hsame : c.state = some next)
    (hstore : Exec turnEnv (ActorHost.storeAndAnswer object c answer) w₂ ans w')
    (hsuccess : (wrap (.ok answer)).success = some (result, effects)) :
    ∃ tr, Spans w tr w' ∧ TurnCase host call w tr w'.heads w'.entry (wrap ans) := by
  obtain ⟨rfl, hentry, hst⟩ := exec_storeAndAnswer hstore
  have htr := hpre.trans (hx.trans hst)
  refine ⟨_, htr, ?_⟩
  rw [hentry]
  refine .unchanged ?_ (hsettled.mono (List.subset_append_left _ _) (hx.heads.trans hst.heads))
    (hran.mono ?_) heff hsame hsuccess
  · intro e' he'
    simp only [List.mem_append, List.mem_singleton] at he'
    rcases he' with he' | rfl | rfl
    · exact (hno e' he').2
    · exact he
    · rfl
  · intro e' he'
    simp only [List.mem_append, he', true_or, or_true]

theorem turnCase_published {α : Type} {e : HostEvent} {result next : Value} {effects : List ActorSocketEffect}
    {answer : Result ActorExecutionResult → α} {ans : Result α} {wrap : Result α → TurnAnswer}
    (hpre : Spans w pre w₁) (hsettled : SettledState host call w pre w₁.heads c) (hx : Spans w₁ [e] w₂)
    (hno : ∀ e ∈ pre, e.op.isExecution = false ∧ e.op.isWrite = false) (he : e.op.isWrite = false)
    (hran : call.request.Ran c.state result next effects [e]) (heff : validateSocketEffects effects = .ok ())
    (hne : c.state ≠ some next)
    (hpub : Exec turnEnv (host.publishAndStore call.request.persistence object call.ownerEpoch c result next answer)
      w₂ ans w')
    (hfail : ∀ e, (wrap (.ok (answer (.error e)))).failure = some .outcomeUnknownAfterExecution)
    (hsuccess : (wrap (.ok (answer (.ok (.completed result []))))).success = some (result, effects)) :
    ∃ tr, Spans w tr w' ∧ TurnCase host call w tr w'.heads w'.entry (wrap ans) := by
  obtain ⟨tr₃, published, c', htr₃, -, hentry, rfl, hcases, hevict⟩ := exec_publishAndStore hpub
  have htr := hpre.trans (hx.trans htr₃)
  have hsub : tr₃ ⊆ pre ++ ([e] ++ tr₃) := fun e' he' => by simp [he']
  refine ⟨_, htr, ?_⟩
  rw [hentry]
  refine .published (hsettled.mono (List.subset_append_left _ _) (hx.heads.trans htr₃.heads))
    (hran.mono ?_) heff hne
    (hcases.mono ?_ hsub) ?_ ?_
  · intro e' he'
    simp only [List.mem_append, he', true_or, or_true]
  · intro e' he'
    simp only [List.mem_append, List.mem_singleton] at he'
    rcases he' with he' | rfl | he'
    · exact .inr (hno e' he').2
    · exact .inr he
    · exact .inl he'
  · rintro err rfl
    obtain ⟨er, hm⟩ := hevict err rfl
    exact ⟨⟨er, hsub hm⟩, hfail err⟩
  · rintro res rfl
    cases hcases with
    | recorded => exact hsuccess

end Executed

/-- A turn that holds its start state, up to the point where its pending commit is settled. -/
theorem exec_settle (call : HostCall) {c₀ c : CachedActorState} {tr₀ : List HostEvent} {w₁ w₂ : TurnWorld}
    {finished : Result Unit} (hpre : Spans w tr₀ w₁) (hq : ∀ e ∈ tr₀, e.op.isQuiet = true)
    (hstart : StartState host call w tr₀ c₀)
    (h : Exec turnEnv (host.finishPendingCommit call.request.persistence c₀) w₁ (finished, c) w₂) :
    ∃ pre, Spans w pre w₂ ∧ (∀ e ∈ pre, e.op.isExecution = false ∧ e.op.isWrite = false) ∧
      ((∃ e, finished = .error e) ∧ StartState host call w pre c ∧ c.pending ≠ none ∨
        finished = .ok () ∧ SettledState host call w pre w₂.heads c) := by
  obtain ⟨tr₁, htr₁, hcommit, -, hcases⟩ := exec_finishPendingCommit h
  have hstart' := hstart.mono (List.subset_append_left tr₀ tr₁)
  refine ⟨tr₀ ++ tr₁, hpre.trans htr₁, ?_, ?_⟩
  · intro e he
    rcases List.mem_append.mp he with he | he
    · exact quiet_facts (hq e he)
    · exact commit_facts (hcommit e he)
  · rcases hcases with ⟨herr, rfl, hne⟩ | ⟨rfl, hres⟩
    · exact .inl ⟨herr, hstart', hne⟩
    · exact .inr ⟨rfl, c₀, hstart', hres⟩

theorem turnCase_unresolved {α : Type} {call : HostCall} {object : ActorStorageKey} {c : CachedActorState}
    {pre : List HostEvent} {w₂ : TurnWorld} {ans : Result α} {wrap : Result α → TurnAnswer} {unknown : α}
    (hpre : Spans w pre w₂) (hno : ∀ e ∈ pre, e.op.isExecution = false ∧ e.op.isWrite = false)
    (hstart : StartState host call w pre c) (hne : c.pending ≠ none)
    (hunknown : (wrap (.ok unknown)).failure = some .outcomeUnknownAfterExecution)
    (h : Exec turnEnv (ActorHost.storeAndAnswer object c unknown) w₂ ans w') :
    ∃ tr, Spans w tr w' ∧ TurnCase host call w tr w'.heads w'.entry (wrap ans) := by
  obtain ⟨rfl, hentry, hst⟩ := exec_storeAndAnswer h
  refine ⟨_, hpre.trans hst, ?_⟩
  rw [hentry]
  refine .unresolved ?_ (hstart.mono (List.subset_append_left _ _)) hne hunknown
  intro e he
  rcases List.mem_append.mp he with he | he
  · exact hno e he
  · rw [List.mem_singleton.mp he]; exact ⟨rfl, rfl⟩

theorem turnCase_invokeWithCached {invocation : ActorInvocation} {ownerEpoch stateVersion : ℕ} {url : String}
    {object : ActorStorageKey} {c₀ : CachedActorState} {tr₀ : List HostEvent} {w₁ : TurnWorld}
    {ans : Result ActorExecutionResult} (hpre : Spans w tr₀ w₁) (hq : ∀ e ∈ tr₀, e.op.isQuiet = true)
    (hstart : StartState host ⟨.invoke invocation, ownerEpoch, stateVersion, url⟩ w tr₀ c₀)
    (h : Exec turnEnv (host.invokeWithCached invocation object ownerEpoch c₀) w₁ ans w') :
    ∃ tr, Spans w tr w' ∧
      TurnCase host ⟨.invoke invocation, ownerEpoch, stateVersion, url⟩ w tr w'.heads w'.entry (.invoked ans) := by
  unfold ActorHost.invokeWithCached at h
  obtain ⟨⟨finished, c⟩, w₂, hfin, h⟩ := exec_bind.mp h
  obtain ⟨pre, hpre, hno, ⟨⟨e, rfl⟩, hstart, hne⟩ | ⟨rfl, hsettled⟩⟩ :=
    exec_settle ⟨.invoke invocation, ownerEpoch, stateVersion, url⟩ hpre hq hstart hfin
  · exact turnCase_unresolved hpre hno hstart hne rfl h
  simp only at h
  split at h
  · rename_i result hreplay
    obtain ⟨rfl, hentry, hst⟩ := exec_storeAndAnswer h
    refine ⟨_, hpre.trans hst, ?_⟩
    rw [hentry]
    refine .replayed ?_ rfl (hsettled.mono (List.subset_append_left _ _) hst.heads) hreplay
    intro e he
    rcases List.mem_append.mp he with he | he
    · exact hno e he
    · rw [List.mem_singleton.mp he]; exact ⟨rfl, rfl⟩
  · obtain ⟨executed, w₃, hx, h⟩ := exec_bind.mp h
    obtain ⟨tr₂, htr₂, -, hcases⟩ := exec_executeMethod hx
    cases hcases with
    | failed hr hpost hcode =>
      subst hr
      obtain ⟨code, message, rfl, hc⟩ := hcode
      exact turnCase_executionFailed hpre hno hsettled htr₂ rfl hpost h rfl hc
    | done hr heff =>
      subst hr
      simp only at h
      split at h
      · rename_i hsame
        exact turnCase_unchanged hpre hno hsettled htr₂ (List.mem_singleton_self _) rfl heff hsame h rfl
      · rename_i hne
        exact turnCase_published hpre hsettled htr₂ hno rfl (List.mem_singleton_self _) heff hne h
          (fun _ => rfl) rfl

theorem turnCase_handleSocketWithCached {invocation : ActorSocketInvocation} {ownerEpoch stateVersion : ℕ}
    {url : String} {object : ActorStorageKey} {c₀ : CachedActorState} {tr₀ : List HostEvent} {w₁ : TurnWorld}
    {ans : Result ActorSocketExecutionResult} (hpre : Spans w tr₀ w₁) (hq : ∀ e ∈ tr₀, e.op.isQuiet = true)
    (hstart : StartState host ⟨.handleSocket invocation, ownerEpoch, stateVersion, url⟩ w tr₀ c₀)
    (h : Exec turnEnv (host.handleSocketWithCached invocation object ownerEpoch c₀) w₁ ans w') :
    ∃ tr, Spans w tr w' ∧ TurnCase host ⟨.handleSocket invocation, ownerEpoch, stateVersion, url⟩ w tr
      w'.heads w'.entry (.handled ans) := by
  unfold ActorHost.handleSocketWithCached at h
  obtain ⟨⟨finished, c⟩, w₂, hfin, h⟩ := exec_bind.mp h
  obtain ⟨pre, hpre, hno, ⟨⟨e, rfl⟩, hstart, hne⟩ | ⟨rfl, hsettled⟩⟩ :=
    exec_settle ⟨.handleSocket invocation, ownerEpoch, stateVersion, url⟩ hpre hq hstart hfin
  · exact turnCase_unresolved hpre hno hstart hne rfl h
  obtain ⟨executed, w₃, hx, h⟩ := exec_bind.mp h
  obtain ⟨tr₂, htr₂, -, hcases⟩ := exec_executeSocketEvent hx
  cases executed with
  | error answer =>
    cases hcases with
    | failed hr hpost hcode =>
      subst hr
      obtain ⟨code, message, rfl, hc⟩ := hcode
      exact turnCase_executionFailed hpre hno hsettled htr₂ rfl hpost h rfl hc
  | ok p =>
    obtain ⟨next, effects⟩ := p
    cases hcases with
    | done hr heff =>
      subst hr
      simp only at h
      split at h
      · rename_i hsame
        exact turnCase_unchanged hpre hno hsettled htr₂ ⟨rfl, List.mem_singleton_self _⟩ rfl heff hsame h rfl
      · rename_i hne
        exact turnCase_published hpre hsettled htr₂ hno rfl ⟨rfl, List.mem_singleton_self _⟩ heff hne h
          (fun _ => rfl) rfl

/-- Up to the point where a turn holds its state. -/
theorem turnCase_admitted {α : Type} {call : HostCall} {object : ActorStorageKey} {draining : Bool}
    {unavailable : α} {turn : CachedActorState → HostM (Result α)} {ans : Result α}
    {wrap : Result α → TurnAnswer}
    {w₀ : TurnWorld} {tr₀ : List HostEvent} (hpre : Spans w tr₀ w₀) (hq₀ : ∀ e ∈ tr₀, e.op.isQuiet = true)
    (hentry₀ : w₀.entry = w.entry) (hun : (wrap (.ok unavailable)).unavailable = true)
    (herr : ∀ e, (wrap (.error e)).unavailable = true)
    (h : Exec turnEnv (host.admitted object draining unavailable call.ownerEpoch call.stateVersion
      call.stateReadUrl turn) w₀ ans w')
    (hturn : ∀ {c : CachedActorState} {tr : List HostEvent} {w₁ : TurnWorld}, Spans w tr w₁ →
      (∀ e ∈ tr, e.op.isQuiet = true) → StartState host call w tr c →
      Exec turnEnv (turn c) w₁ ans w' →
      ∃ tr, Spans w tr w' ∧ TurnCase host call w tr w'.heads w'.entry (wrap ans)) :
    ∃ tr, Spans w tr w' ∧ TurnCase host call w tr w'.heads w'.entry (wrap ans) := by
  have hquiet : ∀ {tr : List HostEvent}, (∀ e ∈ tr, e.op.isQuiet = true) →
      ∀ e ∈ tr₀ ++ tr, e.op.isQuiet = true := by
    intro tr htr e he
    rcases List.mem_append.mp he with he | he
    · exact hq₀ e he
    · exact htr e he
  have hrefused : ∀ {tr : List HostEvent} {w₁ : TurnWorld}, Spans w₀ tr w₁ → (∀ e ∈ tr, e.op.isQuiet = true) →
      w₁.entry = w₀.entry → (wrap ans).unavailable = true → w' = w₁ →
      ∃ tr, Spans w tr w' ∧ TurnCase host call w tr w'.heads w'.entry (wrap ans) := by
    rintro tr w₁ htr hq hentry hans rfl
    refine ⟨_, hpre.trans htr, ?_⟩
    rw [hentry, hentry₀]
    exact .refused (hquiet hq) (.inl hans)
  unfold ActorHost.admitted at h
  rw [perform_bind, exec_call] at h
  obtain ⟨admission, w₁, hs, h⟩ := h
  have hentry₁ : w₁.entry = w₀.entry := hs.2.2
  have htr₁ := extends_step hs
  rcases admission with e | _ | _
  · obtain ⟨rfl, hw⟩ := exec_ret.mp h
    exact hrefused htr₁ (by simp [HostOp.isQuiet]) hentry₁ (herr e) hw
  · obtain ⟨accepting, w₂, hacc, h⟩ := exec_bind.mp h
    obtain ⟨tr₂, htr₂, hq₂, hentry₂⟩ := exec_accepts hacc
    have htr := htr₁.trans htr₂
    have hq : ∀ e ∈ [(⟨.admission object, .ok .acquired⟩ : HostEvent)] ++ tr₂, e.op.isQuiet = true := by
      intro e he
      rcases List.mem_append.mp he with he | he
      · rw [List.mem_singleton.mp he]; rfl
      · exact hq₂ e he
    split at h
    · obtain ⟨rfl, hw⟩ := exec_ret.mp h
      exact hrefused htr hq (hentry₂.trans hentry₁) hun hw
    · obtain ⟨r, w₃, hload, h⟩ := exec_bind.mp h
      obtain ⟨tr₃, htr₃, hq₃, hnone, hstart⟩ := exec_takeOrLoadState hload
      have hext := hpre.trans (htr.trans htr₃)
      have hq' : ∀ e ∈ [(⟨.admission object, .ok .acquired⟩ : HostEvent)] ++ tr₂ ++ tr₃,
          e.op.isQuiet = true := by
        intro e he
        rcases List.mem_append.mp he with he | he
        · exact hq e he
        · exact hq₃ e he
      have hqs := hquiet hq'
      cases r with
      | error e =>
        obtain ⟨rfl, rfl⟩ := exec_ret.mp h
        refine ⟨_, hext, ?_⟩
        rw [hnone]
        exact .unloaded hqs (herr e)
      | ok c =>
        refine hturn hext hqs ?_ h
        have hc := hstart c rfl
        have hsub : tr₃ ⊆ tr₀ ++ ([⟨.admission object, .ok .acquired⟩] ++ tr₂ ++ tr₃) := by
          intro e he
          simp [he]
        cases hc with
        | cached he hep => exact .cached (by rw [← hentry₀, ← hentry₁, ← hentry₂, he]) hep
        | uninitialized hv hu => exact .uninitialized hv hu
        | loaded hv hm hl => exact .loaded hv (hsub hm) hl
  · obtain ⟨rfl, hw⟩ := exec_ret.mp h
    exact hrefused htr₁ (by simp [HostOp.isQuiet]) hentry₁ hun hw

/-- Everything a turn can do. -/
theorem exec_turn {call : HostCall} {answer : TurnAnswer} (h : Exec turnEnv (call.program host) w answer w') :
    ∃ tr, Spans w tr w' ∧ TurnCase host call w tr w'.heads w'.entry answer := by
  obtain ⟨request, ownerEpoch, stateVersion, url⟩ := call
  cases request with
  | invoke invocation =>
    obtain ⟨ans, w₁, h, hret⟩ := exec_bind.mp h
    obtain ⟨rfl, rfl⟩ := exec_ret.mp hret
    unfold ActorHost.invokeActorOnce ActorHost.validateInvocation at h
    obtain ⟨checked, w₂, hv, h⟩ := exec_bind.mp h
    obtain ⟨tr₀, htr₀, hq₀, hentry₀, hrefuse⟩ := exec_validateOperation hv
    rcases checked with e | _ | res
    · obtain ⟨rfl, rfl⟩ := exec_ret.mp h
      refine ⟨tr₀, htr₀, ?_⟩
      rw [hentry₀]
      exact .refused hq₀ (.inl rfl)
    · exact turnCase_admitted htr₀ hq₀ hentry₀ rfl (fun _ => rfl) h turnCase_invokeWithCached
    · obtain ⟨rfl, rfl⟩ := exec_ret.mp h
      refine ⟨tr₀, htr₀, ?_⟩
      rw [hentry₀]
      refine .refused hq₀ ?_
      rcases hrefuse res rfl with rfl | rfl
      · exact .inl rfl
      · exact .inr rfl
  | handleSocket invocation =>
    obtain ⟨ans, w₁, h, hret⟩ := exec_bind.mp h
    obtain ⟨rfl, rfl⟩ := exec_ret.mp hret
    unfold ActorHost.handleSocketEventOnce at h
    obtain ⟨checked, w₂, hv, h⟩ := exec_bind.mp h
    obtain ⟨tr₀, htr₀, hq₀, hentry₀, hrefuse⟩ := exec_validateOperation hv
    rcases checked with e | _ | res
    · obtain ⟨rfl, rfl⟩ := exec_ret.mp h
      refine ⟨tr₀, htr₀, ?_⟩
      rw [hentry₀]
      exact .refused hq₀ (.inl rfl)
    · exact turnCase_admitted htr₀ hq₀ hentry₀ rfl (fun _ => rfl) h turnCase_handleSocketWithCached
    · obtain ⟨rfl, rfl⟩ := exec_ret.mp h
      refine ⟨tr₀, htr₀, ?_⟩
      rw [hentry₀]
      refine .refused hq₀ ?_
      rcases hrefuse res rfl with rfl | rfl
      · exact .inl rfl
      · exact .inr rfl

end LDO
