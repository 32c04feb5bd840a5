import DurableObjects.Sanity.Turn

/-! A turn as a machine. Between two calls a turn is in one of a few phases, and the
phase says what it holds and which calls it may make next; every program of a turn
keeps to the machine, whatever it is answered. Results about many turns at once are
proved from the phases alone. -/

namespace LDO

open Prog

/-- How a turn that got its state ended. -/
inductive Ending where
  | unresolved
  | replayed (result : Value)
  | failed
  | unchanged (result : Value) (effects : List ActorSocketEffect)
  | unpublished
  | published (result : Value) (effects : List ActorSocketEffect)

inductive Phase where
  | waiting
  | admitted
  | loading
  | unloaded
  | holding (c : CachedActorState)
  | publishing (c : CachedActorState) (result next : Value) (effects : List ActorSocketEffect)
      (ticket : Option StateWriteTicket)
  | committing (c : CachedActorState) (p : PendingStateCommit) (result : Value)
      (effects : List ActorSocketEffect)
  | storing (ending : Ending) (c : CachedActorState)
  | stored (ending : Ending)

/-- `cached` without the ticket a publication has taken. -/
def CachedActorState.spent (cached : CachedActorState) : CachedActorState := { cached with nextWrite := none }

/-- `cached` once its next snapshot is stored and its commit is open. -/
def CachedActorState.uploaded (cached : CachedActorState) (p : PendingStateCommit) : CachedActorState :=
  { cached with nextWrite := none, pending := some p }

/-- What is left of `cached` when nothing was sent; an overflowing version keeps its ticket. -/
def CachedActorState.unsent (cached : CachedActorState) : CachedActorState :=
  if cached.stateVersion < u64Max then cached.spent else cached

/-- The snapshot a turn on `cached` publishes. -/
def HostCall.snapshot (call : HostCall) (cached : CachedActorState) (result next : Value) : StateSnapshot :=
  ⟨cached.stateVersion + 1, call.ownerEpoch, call.request.id, next, result⟩

def methodOutcome : Result ActorMethodOutcome → Option (Value × Value × List ActorSocketEffect)
  | .ok (.completed result next effects) =>
    if validateSocketEffects effects = .ok () then some (result, next, effects) else none
  | _ => none

def socketOutcome : Result ActorSocketOutcome → Option (Value × Value × List ActorSocketEffect)
  | .ok (.handled next effects) =>
    if validateSocketEffects effects = .ok () then some (.null, next, effects) else none
  | _ => none

/-- The next ticket, if the answer says that `p` is recorded. -/
def PendingStateCommit.confirmed (p : PendingStateCommit) :
    Result CommittedState → Option (Option StateWriteTicket)
  | .ok committed =>
    if committed.stateVersion = p.snapshot.stateVersion then some committed.nextWrite else none
  | .error _ => none

namespace Phase

variable (host : ActorHost) (call : HostCall)

def start (cached : Option CachedActorState) : Phase :=
  match cached.filter fun c => c.ownerEpoch = call.ownerEpoch with
  | some c => .holding c
  | none =>
    if call.stateVersion = 0 then
      if call.stateReadUrl = "" then .holding (.new call.ownerEpoch) else .unloaded
    else .loading

def load : Result LoadedState → Phase
  | .ok state =>
    match CachedActorState.fromLoaded host.serde call.ownerEpoch call.stateVersion state with
    | .ok c => .holding c
    | .error _ => .unloaded
  | .error _ => .unloaded

def executed (c : CachedActorState) : Option (Value × Value × List ActorSocketEffect) → Phase
  | some (result, next, effects) =>
    if c.state = some next then .storing (.unchanged result effects) c
    else .publishing c result next effects c.nextWrite
  | none => .storing .failed c

def settle (c : CachedActorState) (r : Result CommittedState) : Phase :=
  match c.pending with
  | none => .holding c
  | some p =>
    match p.confirmed r with
    | some next => .holding (c.resolved p next)
    | none => .storing .unresolved c

def confirm (c : CachedActorState) (p : PendingStateCommit) (result : Value)
    (effects : List ActorSocketEffect) (r : Result CommittedState) : Phase :=
  match p.confirmed r with
  | some next => .storing (.published result effects) (c.resolved p next)
  | none => .storing .unpublished (c.uploaded p)

def onWaiting : (op : HostOp) → op.Res → Phase
  | .admission _, .ok .acquired => .admitted
  | _, _ => .waiting

def onAdmitted : (op : HostOp) → op.Res → Phase
  | .takeCachedState _, .ok cached => start call cached
  | .takeCachedState _, .error _ => .unloaded
  | _, _ => .admitted

def onLoading : (op : HostOp) → op.Res → Phase
  | .read _, r => load host call r
  | _, _ => .loading

def onHolding (c : CachedActorState) : (op : HostOp) → op.Res → Phase
  | .commitState .., r => settle c r
  | .invokeWithState .., r => executed c (methodOutcome r)
  | .handleSocketWithState .., r => executed c (socketOutcome r)
  | .storeCachedState .., .ok _ => .stored (.replayed ((c.replay call.request.id).getD .null))
  | .storeCachedState .., .error _ => .unloaded
  | _, _ => .holding c

def onPublishing (c : CachedActorState) (result next : Value) (effects : List ActorSocketEffect)
    (ticket : Option StateWriteTicket) : (op : HostOp) → op.Res → Phase
  | .unixMillis, .error _ => .storing .unpublished c.spent
  | .prepareStateWrite .., .ok k => .publishing c result next effects (some k)
  | .prepareStateWrite .., .error _ => .storing .unpublished c.spent
  | .write .., .ok _ =>
    match ticket with
    | some k => .committing c ⟨call.snapshot c result next, k⟩ result effects
    | none => .unloaded
  | .write .., .error _ => .storing .unpublished c.spent
  | .evict _, _ => .storing .unpublished c.unsent
  | _, _ => .publishing c result next effects ticket

def onCommitting (c : CachedActorState) (p : PendingStateCommit) (result : Value)
    (effects : List ActorSocketEffect) : (op : HostOp) → op.Res → Phase
  | .commitState .., r => confirm c p result effects r
  | _, _ => .committing c p result effects

def onStoring (ending : Ending) (c : CachedActorState) : (op : HostOp) → op.Res → Phase
  | .storeCachedState .., .ok _ => .stored ending
  | .storeCachedState .., .error _ => .unloaded
  | _, _ => .storing ending c

/-- The phase after a call was answered. -/
def next : Phase → (op : HostOp) → op.Res → Phase
  | .waiting => onWaiting
  | .admitted => onAdmitted call
  | .loading => onLoading host call
  | .unloaded => fun _ _ => .unloaded
  | .holding c => onHolding call c
  | .publishing c result next effects ticket => onPublishing call c result next effects ticket
  | .committing c p result effects => onCommitting c p result effects
  | .storing ending c => onStoring ending c
  | .stored ending => fun _ _ => .stored ending

/-- The commit of `p` on top of `c`, as every phase sends it. -/
def Commits (c : CachedActorState) (p : PendingStateCommit) (op : HostOp) : Prop :=
  op = .commitState call.request.actor host.id c.ownerEpoch c.stateVersion p.ticket.objectName
    p.snapshot.requestId

/-- The calls a phase may make. -/
inductive Allows : Phase → HostOp → Prop
  | accepting : Allows .waiting .accepting
  | admission : Allows .waiting (.admission call.request.object)
  | recheck : Allows .admitted .accepting
  | take : Allows .admitted (.takeCachedState call.request.object)
  | read : call.stateVersion ≠ 0 → Allows .loading (.read call.stateReadUrl)
  | settle {c : CachedActorState} {p : PendingStateCommit} {op : HostOp} : c.pending = some p →
      Commits host call c p op → Allows (.holding c) op
  | replay {c : CachedActorState} {invocation : ActorInvocation} {result : Value} : c.pending = none →
      call.request = .invoke invocation → c.replay invocation.requestId = some result →
      Allows (.holding c) (.storeCachedState call.request.object c)
  | execute {c : CachedActorState} : c.pending = none →
      (∀ invocation, call.request = .invoke invocation → c.replay invocation.requestId = none) →
      Allows (.holding c) (call.request.executionOp c.state)
  | clock {c : CachedActorState} {result next : Value} {effects : List ActorSocketEffect}
      {ticket : Option StateWriteTicket} : Allows (.publishing c result next effects ticket) .unixMillis
  | prepare {c : CachedActorState} {result next : Value} {effects : List ActorSocketEffect}
      {ticket : Option StateWriteTicket} : Allows (.publishing c result next effects ticket)
        (.prepareStateWrite call.request.actor host.id call.ownerEpoch c.stateVersion)
  | write {c : CachedActorState} {result next : Value} {effects : List ActorSocketEffect}
      {ticket : StateWriteTicket} {bytes : ByteArray} : c.stateVersion < u64Max →
      (call.snapshot c result next).validate = .ok () → (call.snapshot c result next).encode = .ok bytes →
      Allows (.publishing c result next effects (some ticket)) (.write ticket.url bytes)
  | unsent {c : CachedActorState} {result next : Value} {effects : List ActorSocketEffect}
      {ticket : Option StateWriteTicket} : c.stateVersion < u64Max ∨ ticket = c.nextWrite →
      Allows (.publishing c result next effects ticket) (.evict call.request.actor)
  | commit {c : CachedActorState} {p : PendingStateCommit} {result : Value} {effects : List ActorSocketEffect}
      {op : HostOp} : Commits host call c p op → Allows (.committing c p result effects) op
  | evict {ending : Ending} {c : CachedActorState} : Allows (.storing ending c) (.evict call.request.actor)
  | store {ending : Ending} {c : CachedActorState} :
      Allows (.storing ending c) (.storeCachedState call.request.object c)

end Phase

/-- What a turn with this ending answers. -/
def Ending.Answers (request : ActorRequest) : Ending → TurnAnswer → Prop
  | .unresolved, answer => answer.failure = some .outcomeUnknownAfterExecution
  | .replayed result, answer =>
    answer = .invoked (.ok (.completed result [])) ∧ ∃ invocation, request = .invoke invocation
  | .failed, answer => ∃ failure, answer.failure = some failure ∧
      (failure.code = "actor_error" ∨ failure.code = "resource_exhausted")
  | .unchanged result effects, answer => answer.success = some (result, effects)
  | .unpublished, answer => answer.failure = some .outcomeUnknownAfterExecution
  | .published result effects, answer => answer.success = some (result, effects)

/-- The answers a phase may end with. -/
def Phase.Returns (request : ActorRequest) : Phase → TurnAnswer → Prop
  | .waiting, answer => answer.unavailable = true ∨
      answer.failure = some ⟨"actor_error", "actor type is not loaded by this host"⟩
  | .admitted, answer => answer.unavailable = true
  | .loading, answer => answer.unavailable = true
  | .unloaded, answer => answer.unavailable = true
  | .stored ending, answer => ending.Answers request answer
  | _, _ => False

def phaseEnv (host : ActorHost) (call : HostCall) : Env HostOp HostOp.Res Phase where
  ok := Phase.Allows host call
  step phase op r phase' := phase' = phase.next host call op r

variable {host : ActorHost} {call : HostCall} {α : Type}

theorem wp_phase {op : HostOp} {next : op.Res → HostM α} {Q : α → Phase → Prop} {phase : Phase}
    (hop : Phase.Allows host call phase op)
    (h : ∀ r, wp (phaseEnv host call) (next r) Q (phase.next host call op r)) :
    wp (phaseEnv host call) (.call op next) Q phase := by
  rw [wp_call]
  refine ⟨hop, ?_⟩
  rintro r _ rfl
  exact h r

theorem wp_accepts {draining : Bool} {Q : Bool → Phase → Prop} {phase : Phase}
    (hop : Phase.Allows host call phase .accepting) (hkeep : ∀ b, phase.next host call .accepting b = phase)
    (h : ∀ b, Q b phase) : wp (phaseEnv host call) (ActorHost.accepts draining) Q phase := by
  cases draining with
  | true => exact h true
  | false =>
    refine wp_phase hop fun b => ?_
    rw [hkeep]
    exact h b

theorem wp_validateOperation {invocation : ActorInvocation} {draining : Bool} :
    wp (phaseEnv host call) (host.validateOperation invocation draining) (fun r phase => phase = .waiting ∧
      ∀ res, r = .ok (some res) → res = .hostUnavailable ∨
        res = failed "actor_error" "actor type is not loaded by this host") .waiting := by
  unfold ActorHost.validateOperation
  rw [wp_bind]
  refine wp_accepts .accepting (fun _ => rfl) fun accepting => ?_
  split
  · refine ⟨rfl, ?_⟩
    rintro _ ⟨rfl⟩
    exact .inl rfl
  · split
    · exact ⟨rfl, by simp⟩
    · split
      · exact ⟨rfl, by simp⟩
      · split
        · refine ⟨rfl, ?_⟩
          intro res hres
          cases hres
          exact .inr rfl
        · exact ⟨rfl, by simp⟩

/-- Loading ends with the state in hand, or with nothing. -/
theorem wp_takeOrLoadState : wp (phaseEnv host call)
    (host.takeOrLoadState call.request.object call.ownerEpoch call.stateVersion call.stateReadUrl)
    (fun r phase => (∃ e, r = .error e) ∧ (phase = .loading ∨ phase = .unloaded) ∨
      ∃ c, r = .ok c ∧ phase = .holding c) .admitted := by
  unfold ActorHost.takeOrLoadState
  rw [perform_bind]
  refine wp_phase .take fun r => ?_
  cases r with
  | error e => exact .inl ⟨⟨e, rfl⟩, .inr rfl⟩
  | ok cached =>
    simp only [Phase.next, Phase.onAdmitted, Phase.start]
    cases hc : cached.filter fun c => c.ownerEpoch = call.ownerEpoch with
    | some c => exact .inr ⟨c, rfl, rfl⟩
    | none =>
      by_cases hv : call.stateVersion = 0
      · by_cases hu : call.stateReadUrl = ""
        · simp only [hv, hu, if_true, ensure]
          exact .inr ⟨_, rfl, rfl⟩
        · simp only [hv, hu, if_true, if_false, ensure]
          exact .inl ⟨⟨_, rfl⟩, .inr rfl⟩
      · simp only [hv, if_false]
        split
        · exact .inl ⟨⟨_, rfl⟩, .inl rfl⟩
        · rw [perform_bind]
          refine wp_phase (.read hv) fun r => ?_
          cases r with
          | error e => exact .inl ⟨⟨_, rfl⟩, .inr rfl⟩
          | ok state =>
            simp only [Phase.next, Phase.onLoading, Phase.load]
            cases hl : CachedActorState.fromLoaded host.serde call.ownerEpoch call.stateVersion state with
            | error e => exact .inl ⟨⟨_, rfl⟩, .inr rfl⟩
            | ok c => exact .inr ⟨c, rfl, rfl⟩

/-- One attempt to commit `p` on top of `c`. -/
theorem wp_finishPendingCommit {c : CachedActorState} {p : PendingStateCommit} {phase : Phase} {op : HostOp}
    {Q : Result Unit × CachedActorState → Phase → Prop} (hp : c.pending = some p)
    (hop : Phase.Commits host call c p op) (hallow : Phase.Allows host call phase op)
    (hok : ∀ r next, p.confirmed r = some next →
      Q (.ok (), c.resolved p next) (phase.next host call (.commitState call.request.actor host.id c.ownerEpoch
        c.stateVersion p.ticket.objectName p.snapshot.requestId) r))
    (herr : ∀ r e, p.confirmed r = none →
      Q (.error e, c) (phase.next host call (.commitState call.request.actor host.id c.ownerEpoch
        c.stateVersion p.ticket.objectName p.snapshot.requestId) r)) :
    wp (phaseEnv host call) (host.finishPendingCommit call.request.persistence c) Q phase := by
  unfold ActorHost.finishPendingCommit
  rw [hp]
  simp only
  rw [Phase.Commits] at hop
  subst hop
  rw [perform_bind]
  refine wp_phase hallow fun r => ?_
  cases r with
  | error e => exact herr (.error e) e rfl
  | ok committed =>
    by_cases hv : committed.stateVersion = p.snapshot.stateVersion
    · simp only [ensure, hv, if_true]
      exact hok (.ok committed) committed.nextWrite (by simp [PendingStateCommit.confirmed, hv])
    · simp only [ensure, hv, if_false]
      exact herr (.ok committed) _ (by simp [PendingStateCommit.confirmed, hv])

theorem wp_settle {c : CachedActorState} : wp (phaseEnv host call)
    (host.finishPendingCommit call.request.persistence c) (fun r phase =>
      (∃ e, r.1 = .error e) ∧ phase = .storing .unresolved r.2 ∨
        r.1 = .ok () ∧ phase = .holding r.2 ∧ r.2.pending = none) (.holding c) := by
  cases hp : c.pending with
  | none =>
    unfold ActorHost.finishPendingCommit
    rw [hp]
    exact .inr ⟨rfl, rfl, hp⟩
  | some p =>
    refine wp_finishPendingCommit hp rfl (.settle hp rfl) ?_ ?_
    · intro r next hr
      refine .inr ⟨rfl, ?_, rfl⟩
      simp [Phase.next, Phase.onHolding, Phase.settle, hp, hr]
    · intro r e hr
      refine .inl ⟨⟨e, rfl⟩, ?_⟩
      simp [Phase.next, Phase.onHolding, Phase.settle, hp, hr]

theorem wp_evict {phase : Phase} {Q : Unit → Phase → Prop}
    (hop : Phase.Allows host call phase (.evict call.request.actor))
    (h : ∀ r, Q () (phase.next host call (.evict call.request.actor) r)) :
    wp (phaseEnv host call) (ActorHost.evict call.request.actor) Q phase := by
  unfold ActorHost.evict
  rw [perform_bind]
  exact wp_phase hop h

theorem wp_storeAndAnswer {ending : Ending} {c : CachedActorState} {answer : α} {Q : Result α → Phase → Prop}
    (hlost : ∀ e, Q (.error e) .unloaded) (h : Q (.ok answer) (.stored ending)) : wp (phaseEnv host call)
    (ActorHost.storeAndAnswer call.request.object c answer) Q (.storing ending c) := by
  unfold ActorHost.storeAndAnswer
  rw [perform_bind]
  refine wp_phase .store fun r => ?_
  cases r with
  | error e => exact hlost e
  | ok u => exact h

/-- What an execution leaves behind. -/
def Executed (c : CachedActorState) (r : Except ActorExecutionResult (Value × Value × List ActorSocketEffect))
    (phase : Phase) : Prop :=
  match r with
  | .ok outcome => phase = .executed c (some outcome)
  | .error answer => phase = .storing .failed c ∧ ExecutionFailure answer

theorem wp_executionFailed {c : CachedActorState} {answer : ActorExecutionResult}
    (h : ExecutionFailure answer) :
    wp (phaseEnv host call) (do ActorHost.evict call.request.actor; pure (.error answer)) (Executed c)
      (.storing .failed c) := by
  rw [wp_bind]
  refine wp_evict .evict fun r => ?_
  exact ⟨rfl, h⟩

theorem wp_executeMethod {invocation : ActorInvocation} {c : CachedActorState}
    (hreq : call.request = .invoke invocation) (hp : c.pending = none)
    (hreplay : c.replay invocation.requestId = none) : wp (phaseEnv host call)
    (ActorHost.executeMethod invocation c.state []) (Executed c) (.holding c) := by
  have hactor : invocation.actor = call.request.actor := by rw [hreq]; rfl
  unfold ActorHost.executeMethod
  rw [perform_bind, hactor]
  have hop : Phase.Allows host call (.holding c) (call.request.executionOp c.state) := by
    refine .execute hp fun other hother => ?_
    rw [hreq] at hother
    cases hother
    exact hreplay
  rw [hreq] at hop
  simp only [ActorRequest.executionOp, methodOp, hactor] at hop
  refine wp_phase hop fun r => ?_
  simp only [Phase.next, Phase.onHolding]
  rcases r with e | ⟨result, next, effects⟩ | failure
  · exact wp_executionFailed (executionFailure_error _)
  · cases heff : validateSocketEffects effects with
    | error e =>
      simp only [methodOutcome, heff]
      exact wp_executionFailed (executionFailure_error _)
    | ok u =>
      simp only [methodOutcome, heff]
      rfl
  · exact wp_executionFailed (executionFailure_failureCode _ _)

theorem wp_executeSocketEvent {invocation : ActorSocketInvocation} {c : CachedActorState}
    (hreq : call.request = .handleSocket invocation) (hp : c.pending = none) : wp (phaseEnv host call)
    (ActorHost.executeSocketEvent invocation c.state)
    (fun r => Executed c (r.map fun p => (.null, p.1, p.2))) (.holding c) := by
  have hactor : invocation.actor = call.request.actor := by rw [hreq]; rfl
  unfold ActorHost.executeSocketEvent
  rw [perform_bind, hactor]
  have hop : Phase.Allows host call (.holding c) (call.request.executionOp c.state) := by
    refine .execute hp fun other hother => ?_
    rw [hreq] at hother
    cases hother
  rw [hreq] at hop
  refine wp_phase hop fun r => ?_
  simp only [Phase.next, Phase.onHolding]
  rcases r with e | ⟨next, effects⟩ | failure
  · exact ⟨rfl, executionFailure_error _⟩
  · cases heff : validateSocketEffects effects with
    | error e =>
      simp only [socketOutcome, heff]
      rw [wp_bind]
      refine wp_evict .evict fun r => ?_
      exact ⟨rfl, executionFailure_error _⟩
    | ok u =>
      simp only [socketOutcome, heff]
      rfl
  · exact ⟨rfl, executionFailure_failureCode _ _⟩

/-! ### Publication -/

theorem wp_writeTicket {c : CachedActorState} {result next : Value} {effects : List ActorSocketEffect}
    {nextVersion : ℕ} : wp (phaseEnv host call)
    (host.writeTicket call.request.actor call.ownerEpoch c.stateVersion nextVersion c.nextWrite)
    (fun r phase => (∃ e, r = .error e) ∧ phase = .storing .unpublished c.spent ∨
      ∃ k, r = .ok k ∧ phase = .publishing c result next effects (some k))
    (.publishing c result next effects c.nextWrite) := by
  have hprepare : ∀ ticket, wp (phaseEnv host call)
      (perform (HostOp.prepareStateWrite call.request.actor host.id call.ownerEpoch c.stateVersion))
      (fun r phase => (∃ e, r = .error e) ∧ phase = .storing .unpublished c.spent ∨
        ∃ k, r = .ok k ∧ phase = .publishing c result next effects (some k))
      (.publishing c result next effects ticket) := by
    intro ticket
    refine wp_phase .prepare fun r => ?_
    cases r with
    | error e => exact .inl ⟨⟨e, rfl⟩, rfl⟩
    | ok k => exact .inr ⟨k, rfl, rfl⟩
  unfold ActorHost.writeTicket ActorHost.usableTicket
  rw [wp_bind]
  cases hk : c.nextWrite with
  | none => exact hprepare none
  | some ticket =>
    simp only
    split
    · rw [perform_bind]
      refine wp_phase .clock fun r => ?_
      cases r with
      | error e => exact .inl ⟨⟨e, rfl⟩, rfl⟩
      | ok now =>
        simp only [Phase.next, Phase.onPublishing, wp_ret, pure_eq]
        split_ifs
        · exact .inr ⟨ticket, rfl, rfl⟩
        · exact hprepare (some ticket)
    · exact hprepare (some ticket)

/-- What a publication leaves behind: nothing sent yet, a failure, or a recorded head. -/
def Published (c : CachedActorState) (result next : Value) (effects : List ActorSocketEffect)
    (r : Result ActorExecutionResult × CachedActorState) (phase : Phase) : Prop :=
  (∃ e, r.1 = .error e) ∧ (phase = .storing .unpublished r.2 ∨
    r.2 = c.unsent ∧ ∃ ticket, (c.stateVersion < u64Max ∨ ticket = c.nextWrite) ∧
      phase = .publishing c result next effects ticket) ∨
  r.1 = .ok (.completed result []) ∧ phase = .storing (.published result effects) r.2

theorem wp_publishResultOnce {c : CachedActorState} {result next : Value} {effects : List ActorSocketEffect} :
    wp (phaseEnv host call) (host.publishResultOnce call.request.persistence call.ownerEpoch c result next)
      (Published c result next effects) (.publishing c result next effects c.nextWrite) := by
  unfold ActorHost.publishResultOnce
  split
  · rename_i hover
    have hge := checkedAdd_error hover
    refine .inl ⟨⟨_, rfl⟩, .inr ⟨?_, _, .inr rfl, rfl⟩⟩
    rw [CachedActorState.unsent, if_neg (by omega)]
  · rename_i nextVersion hnext
    obtain ⟨rfl, hlt⟩ := checkedAdd_ok hnext
    refine wp_seq wp_writeTicket ?_
    rintro _ _ (⟨⟨e, rfl⟩, rfl⟩ | ⟨k, rfl, rfl⟩)
    · exact .inl ⟨⟨e, rfl⟩, .inl rfl⟩
    · simp only
      split
      · refine .inl ⟨⟨_, rfl⟩, .inr ⟨?_, _, .inl hlt, rfl⟩⟩
        rw [CachedActorState.unsent, if_pos hlt]
        rfl
      · rename_i snapshot bytes hprep
        obtain ⟨rfl, henc, hvalid, -⟩ := prepareSnapshot_ok hprep
        rw [perform_bind]
        refine wp_phase (.write hlt hvalid henc) fun r => ?_
        cases r with
        | error e => exact .inl ⟨⟨e, rfl⟩, .inl rfl⟩
        | ok write =>
          refine wp_seq (R := fun (r : Result Unit × CachedActorState) phase =>
            (∃ e, r.1 = .error e) ∧ phase = .storing .unpublished r.2 ∨
              r.1 = .ok () ∧ phase = .storing (.published result effects) r.2) ?_ ?_
          · refine wp_finishPendingCommit (c := c.uploaded ⟨call.snapshot c result next, k⟩) rfl rfl
              (.commit rfl) ?_ ?_
            · intro r t hr
              refine .inr ⟨rfl, ?_⟩
              simp only [Phase.next, Phase.onPublishing, Phase.onCommitting, Phase.confirm, hr]
              rfl
            · intro r e hr
              refine .inl ⟨⟨e, rfl⟩, ?_⟩
              simp only [Phase.next, Phase.onPublishing, Phase.onCommitting, Phase.confirm, hr]
          · rintro ⟨finished, c'⟩ _ (⟨⟨e, rfl⟩, rfl⟩ | ⟨rfl, rfl⟩)
            · exact .inl ⟨⟨e, rfl⟩, .inl rfl⟩
            · exact .inr ⟨rfl, rfl⟩

/-- The answers of a request, as the service returns them. -/
def Returned (request : ActorRequest) (wrap : Result α → TurnAnswer) (r : Result α) (phase : Phase) : Prop :=
  phase.Returns request (wrap r)

theorem wp_publishAndStore {c : CachedActorState} {result next : Value} {effects : List ActorSocketEffect}
    {answer : Result ActorExecutionResult → α} {wrap : Result α → TurnAnswer}
    (hlost : ∀ e, (wrap (.error e)).unavailable = true)
    (hfail : ∀ e, (wrap (.ok (answer (.error e)))).failure = some .outcomeUnknownAfterExecution)
    (hsuccess : (wrap (.ok (answer (.ok (.completed result []))))).success = some (result, effects)) :
    wp (phaseEnv host call) (host.publishAndStore call.request.persistence call.request.object call.ownerEpoch c
      result next answer) (Returned call.request wrap) (.publishing c result next effects c.nextWrite) := by
  unfold ActorHost.publishAndStore
  refine wp_seq wp_publishResultOnce ?_
  rintro ⟨published, c'⟩ phase (⟨⟨e, rfl⟩, hphase⟩ | ⟨rfl, rfl⟩)
  · -- nothing is recorded: the worker is evicted, and the entry goes back
    refine wp_seq (R := fun _ phase => phase = .storing .unpublished c') ?_ ?_
    · rcases hphase with rfl | ⟨rfl, ticket, hticket, rfl⟩
      · exact wp_evict .evict fun _ => rfl
      · exact wp_evict (.unsent hticket) fun _ => rfl
    · rintro _ _ rfl
      exact wp_storeAndAnswer hlost (hfail e)
  · rw [wp_bind]
    exact wp_storeAndAnswer hlost hsuccess

theorem wp_invokeWithCached {invocation : ActorInvocation} {c : CachedActorState}
    (hreq : call.request = .invoke invocation) : wp (phaseEnv host call)
    (host.invokeWithCached invocation call.request.object call.ownerEpoch c)
    (Returned call.request .invoked) (.holding c) := by
  have hinv : invocation = call.request.persistence := by rw [hreq]; rfl
  have hlost : ∀ e, (TurnAnswer.invoked (.error e)).unavailable = true := fun _ => rfl
  unfold ActorHost.invokeWithCached
  nth_rewrite 1 [hinv]
  refine wp_seq wp_settle ?_
  rintro ⟨finished, c⟩ phase (⟨⟨e, rfl⟩, rfl⟩ | ⟨rfl, rfl, hp⟩)
  · exact wp_storeAndAnswer hlost rfl
  · simp only
    cases hreplay : c.replay invocation.requestId with
    | some result =>
      simp only [ActorHost.storeAndAnswer]
      rw [perform_bind]
      refine wp_phase (.replay hp hreq hreplay) fun r => ?_
      have hid : call.request.id = invocation.requestId := by rw [hinv]; rfl
      cases r with
      | error e => exact hlost e
      | ok u =>
        simp only [Phase.next, Phase.onHolding, hid, hreplay]
        exact ⟨rfl, invocation, hreq⟩
    | none =>
      refine wp_seq (wp_executeMethod hreq hp hreplay) ?_
      rintro (answer | ⟨result, next, effects⟩) phase hx
      · obtain ⟨rfl, code, message, rfl, hcode⟩ := hx
        exact wp_storeAndAnswer hlost ⟨_, rfl, hcode⟩
      · rw [Executed] at hx
        subst hx
        simp only [Phase.executed]
        split_ifs
        · exact wp_storeAndAnswer hlost rfl
        · rw [hinv]
          exact wp_publishAndStore hlost (fun _ => rfl) rfl

theorem wp_handleSocketWithCached {invocation : ActorSocketInvocation} {c : CachedActorState}
    (hreq : call.request = .handleSocket invocation) : wp (phaseEnv host call)
    (host.handleSocketWithCached invocation call.request.object call.ownerEpoch c)
    (Returned call.request .handled) (.holding c) := by
  have hinv : ActorHost.persistence invocation = call.request.persistence := by rw [hreq]; rfl
  have hlost : ∀ e, (TurnAnswer.handled (.error e)).unavailable = true := fun _ => rfl
  unfold ActorHost.handleSocketWithCached
  rw [hinv]
  refine wp_seq wp_settle ?_
  rintro ⟨finished, c⟩ phase (⟨⟨e, rfl⟩, rfl⟩ | ⟨rfl, rfl, hp⟩)
  · exact wp_storeAndAnswer hlost rfl
  · refine wp_seq (wp_executeSocketEvent hreq hp) ?_
    rintro (answer | ⟨next, effects⟩) phase hx
    · obtain ⟨rfl, code, message, rfl, hcode⟩ := hx
      exact wp_storeAndAnswer hlost ⟨_, rfl, hcode⟩
    · simp only [Executed, Except.map] at hx
      subst hx
      simp only [Phase.executed]
      split_ifs
      · exact wp_storeAndAnswer hlost rfl
      · exact wp_publishAndStore hlost (fun _ => rfl) rfl

theorem wp_admitted {draining : Bool} {unavailable : α} {turn : CachedActorState → HostM (Result α)}
    (wrap : Result α → TurnAnswer) (call : HostCall) (hun : (wrap (.ok unavailable)).unavailable = true)
    (hlost : ∀ e, (wrap (.error e)).unavailable = true)
    (hturn : ∀ c, wp (phaseEnv host call) (turn c) (Returned call.request wrap) (.holding c)) :
    wp (phaseEnv host call) (host.admitted call.request.object draining unavailable call.ownerEpoch
      call.stateVersion call.stateReadUrl turn) (Returned call.request wrap) .waiting := by
  unfold ActorHost.admitted
  rw [perform_bind]
  refine wp_phase .admission fun r => ?_
  rcases r with e | _ | _
  · exact .inl (hlost e)
  · rw [wp_bind]
    refine wp_accepts .recheck (fun _ => rfl) fun accepting => ?_
    split
    · exact hun
    · refine wp_seq wp_takeOrLoadState ?_
      rintro _ phase (⟨⟨e, rfl⟩, rfl | rfl⟩ | ⟨c, rfl, rfl⟩)
      · exact hlost e
      · exact hlost e
      · exact hturn c
  · exact .inl hun

/-- Every turn keeps to the machine. -/
theorem wp_turn (host : ActorHost) (call : HostCall) : wp (phaseEnv host call) (call.program host)
    (fun answer phase => phase.Returns call.request answer) .waiting := by
  obtain ⟨request, ownerEpoch, stateVersion, url⟩ := call
  cases request with
  | invoke invocation =>
    simp only [HostCall.program]
    rw [wp_map]
    unfold ActorHost.invokeActorOnce ActorHost.validateInvocation
    refine wp_seq wp_validateOperation ?_
    rintro (e | _ | res) _ ⟨rfl, hrefuse⟩
    · exact .inl rfl
    · exact wp_admitted .invoked ⟨.invoke invocation, ownerEpoch, stateVersion, url⟩ rfl
        (fun _ => rfl) fun c => wp_invokeWithCached rfl
    · rcases hrefuse res rfl with rfl | rfl
      · exact .inl rfl
      · exact .inr rfl
  | handleSocket invocation =>
    simp only [HostCall.program]
    rw [wp_map]
    unfold ActorHost.handleSocketEventOnce
    refine wp_seq wp_validateOperation ?_
    rintro (e | _ | res) _ ⟨rfl, hrefuse⟩
    · exact .inl rfl
    · exact wp_admitted .handled ⟨.handleSocket invocation, ownerEpoch, stateVersion, url⟩ rfl
        (fun _ => rfl) fun c => wp_handleSocketWithCached rfl
    · rcases hrefuse res rfl with rfl | rfl
      · exact .inl rfl
      · exact .inr rfl

end LDO
