import DurableObjects.Proofs.NoLostUpdate
import DurableObjects.Proofs.Durability

/-! Failure answers are truthful and atomic: what an answer says was not done was not
done, and the cache entry it leaves is the one the execution started from. -/

namespace LDO

open Prog

variable {host : ActorHost} {call : HostCall} {w w' : TurnWorld}

theorem failure_of_unavailable {answer : TurnAnswer} (h : answer.unavailable = true) :
    answer.failure = none := by
  rcases answer with (_ | (_ | _ | _ | _)) | (_ | (_ | _ | _)) <;> first | rfl | cases h

/-- A publication of the outputs on `c` that failed, and the entry `c'` it left. -/
structure Unpublished (call : HostCall) (tr : List HostEvent) (c c' : CachedActorState)
    (result next : Value) :
    Prop where
  evicted : ∃ r, ⟨.evict call.request.actor, r⟩ ∈ tr
  -- the ticket is spent, and but for `pending` that is all; a version without a successor is
  -- refused before the ticket is taken
  entry : (∃ pending, c' = { c with nextWrite := none, pending := pending }) ∨ u64Max ≤ c.stateVersion ∧ c' = c
  pending : c'.pending ≠ none ↔ ∃ url bytes write, ⟨.write url bytes, .ok write⟩ ∈ tr
  snapshot : ∀ p, c'.pending = some p → p.snapshot =
    ⟨c.stateVersion + 1, call.ownerEpoch, call.request.id, next, result⟩

theorem unpublished_of_publication {requestId : String} {c c' : CachedActorState} {result next : Value}
    {tr : List HostEvent} {heads : List Head} {e : Error} (hp : c.pending = none)
    (hid : requestId = call.request.id)
    (h : Publication requestId call.ownerEpoch c result next tr heads (.error e) c')
    (hevict : ∃ r, ⟨.evict call.request.actor, r⟩ ∈ tr) : Unpublished call tr c c' result next := by
  cases h with
  | overflow _ hv hno =>
    refine ⟨hevict, .inr ⟨hv, rfl⟩, ?_, by simp [hp]⟩
    refine ⟨fun h => absurd hp h, ?_⟩
    rintro ⟨url, bytes, write, hm⟩
    cases hno _ hm
  | notUploaded _ hno =>
    refine ⟨hevict, .inl ⟨c.pending, rfl⟩, ?_, by simp [hp]⟩
    refine ⟨fun h => absurd hp h, ?_⟩
    rintro ⟨url, bytes, write, hm⟩
    exact absurd hm (hno url bytes write)
  | unconfirmed _ hs henc hm =>
    refine ⟨hevict, .inl ⟨_, rfl⟩, ⟨fun _ => ⟨_, _, _, hm⟩, fun _ => by simp⟩, ?_⟩
    rintro p ⟨rfl⟩
    rw [hs, hid]

/-- What is known of a turn from its answer. -/
structure FailureOk (host : ActorHost) (call : HostCall) (w : TurnWorld) (tr : List HostEvent)
    (w' : TurnWorld) (answer : TurnAnswer) : Prop where
  -- unavailable, or an error: the executor was not called
  unavailable : answer.unavailable = true → ∀ e ∈ tr, e.op.isExecution = false
  -- any failure but `outcome_unknown`: nothing was uploaded, and the entry is as it was
  -- once an earlier commit was resolved
  failed : ∀ failure, answer.failure = some failure → failure.code ≠ "outcome_unknown" →
    (∀ e ∈ tr, e.op.isWrite = false) ∧
      ((∀ e ∈ tr, e.op.isExecution = false) ∧ w'.entry = w.entry ∨
        ∃ c, SettledState host call w tr w'.heads c ∧ c.pending = none ∧ w'.entry = some c)
  -- an execution that neither succeeds nor fails in this way failed to publish
  unpublished : (∃ e ∈ tr, e.op.isExecution = true) → answer.success = none →
    (∃ failure, answer.failure = some failure ∧ failure.code ≠ "outcome_unknown") ∨
      answer.failure = some .outcomeUnknownAfterExecution ∧ ∃ c c' result next effects,
        SettledState host call w tr w'.heads c ∧ call.request.Ran c.state result next effects tr ∧
        w'.entry = some c' ∧ Unpublished call tr c c' result next

theorem failureOk_of_case {tr : List HostEvent} {answer : TurnAnswer}
    (h : TurnCase host call w tr w'.heads w'.entry answer) : FailureOk host call w tr w' answer := by
  generalize hentry : w'.entry = entry at h
  have hquiet : (∀ e ∈ tr, e.op.isQuiet = true) → ∀ e ∈ tr, e.op.isExecution = false ∧ e.op.isWrite = false :=
    fun hq e he => quiet_facts (hq e he)
  have hnone : (∀ e ∈ tr, e.op.isExecution = false) → ¬ ∃ e ∈ tr, e.op.isExecution = true := by
    rintro hno ⟨e, he, hx⟩
    rw [hno e he] at hx
    cases hx
  cases h with
  | refused hq hans =>
    have hno := hquiet hq
    refine ⟨fun _ e he => (hno e he).1, fun failure _ _ => ⟨fun e he => (hno e he).2, .inl ⟨fun e he => (hno e he).1, hentry⟩⟩, ?_⟩
    exact fun hx => absurd hx (hnone fun e he => (hno e he).1)
  | unloaded hq hans =>
    have hno := hquiet hq
    refine ⟨fun _ e he => (hno e he).1, fun failure hf => ?_,
      fun hx => absurd hx (hnone fun e he => (hno e he).1)⟩
    rw [failure_of_unavailable hans] at hf
    cases hf
  | unresolved hno _ _ hans =>
    refine ⟨fun _ e he => (hno e he).1, fun failure hf hcode => ?_,
      fun hx => absurd hx (hnone fun e he => (hno e he).1)⟩
    cases hans.symm.trans hf
    exact absurd rfl hcode
  | replayed hno _ _ _ =>
    refine ⟨nofun, nofun, fun hx => absurd hx (hnone fun e he => (hno e he).1)⟩
  | executionFailed hsplit hpre hop hpost hset hans hcode =>
    rename_i c pre post e failure
    have hne : failure.code ≠ "outcome_unknown" := by
      rcases hcode with h | h <;> rw [h] <;> decide
    refine ⟨fun h => ?_, fun f hf _ => ⟨?_, .inr ⟨c, hset, hset.pending, hentry⟩⟩,
      fun _ _ => .inl ⟨failure, hans, hne⟩⟩
    · rw [failure_of_unavailable h] at hans
      cases hans
    · intro ev hev
      rw [hsplit, List.mem_append, List.mem_cons] at hev
      rcases hev with hev | rfl | hev
      · exact (hpre ev hev).2
      · rw [hop]; cases call.request <;> rfl
      · exact (hpost ev hev).2.1
  | unchanged _ _ _ _ _ hans =>
    refine ⟨fun h => ?_, fun failure hf => ?_, fun _ hs => ?_⟩
    · rw [success_of_unavailable h] at hans; cases hans
    · rw [success_of_failure hf] at hans; cases hans
    · rw [hs] at hans; cases hans
  | published hset hran heff hne hpub hfail hsuccess =>
    rename_i c c' result next effects published
    cases published with
    | error e =>
      obtain ⟨hevict, hans⟩ := hfail e rfl
      refine ⟨fun h => ?_, fun failure hf hcode => ?_,
        fun _ _ => .inr ⟨hans, c, c', result, next, effects, hset, hran,
        hentry, unpublished_of_publication hset.pending rfl hpub hevict⟩⟩
      · rw [failure_of_unavailable h] at hans; cases hans
      · cases hans.symm.trans hf
        exact absurd rfl hcode
    | ok res =>
      have hans := hsuccess res rfl
      refine ⟨fun h => ?_, fun failure hf => ?_, fun _ hs => ?_⟩
      · rw [success_of_unavailable h] at hans; cases hans
      · rw [success_of_failure hf] at hans; cases hans
      · rw [hs] at hans; cases hans

/-! ### Nothing is committed later -/

variable {D : Deployment} {s s' : ClusterState} {t : ℕ}

theorem answers_step {e : ClusterEvent} {a : TurnAnswer} (hok : ClusterOk D s) (h : ClusterStep D s e s')
    (ha : s.world.answers t = some a) : s'.world.answers t = some a := by
  cases h with
  | call ht hans => simpa only [World.log, (answers_outside hans).answers] using ha
  | finish ht =>
    rename_i j _ _ _
    have hj : t ≠ j := by
      rintro rfl
      rw [(hok.turns _ _ _ _ ht).2.1] at ha
      cases ha
    simpa [hj] using ha
  | drop ht =>
    rename_i h call _
    obtain ⟨gates, hg⟩ := release_eq s.world h call.request.object t
    simp only [World.release]
    split_ifs <;> exact ha
  | _ => exact ha

theorem answers_path {evs : List ClusterEvent} {a : TurnAnswer} (hs : (clusterSystem D).Reachable s)
    (h : (clusterSystem D).Path s evs s') (ha : s.world.answers t = some a) : s'.world.answers t = some a := by
  induction h with
  | nil => exact ha
  | snoc hp hstep ih => exact answers_step (clusterOk_reachable (hs.path hp)) hstep ih

/-- A turn that answered with a plain failure never had anything uploaded. -/
theorem not_wrote_of_failure (hs : (clusterSystem D).Reachable s) {a : TurnAnswer}
    {failure : ActorInvocationFailure} (ha : s.world.answers t = some a)
    (hf : a.failure = some failure) (hcode : failure.code ≠ "outcome_unknown") :
    ∀ u ∈ s.world.uploads, u.turn ≠ t := by
  have hok := clusterOk_reachable hs
  cases hc : s.world.calls t with
  | none => exact (hok.unused t hc).2.2.2
  | some x =>
    obtain ⟨h, call⟩ := x
    have hret := hok.returned t h call a hc ha
    obtain ⟨-, hclean⟩ := hok.phases t h call (.inr (by rw [ha]; simp)) hc
    refine hclean ?_
    generalize s.world.phase D t h call = phase at hret
    cases phase with
    | unloaded => rw [failure_of_unavailable hret] at hf; cases hf
    | stored ending =>
      cases ending with
      | unpublished =>
        cases hret.symm.trans hf
        exact absurd rfl hcode
      | published => cases (success_of_failure hf).symm.trans hret
      | _ => trivial
    | committing => exact hret.elim
    | storing => exact hret.elim
    | _ => trivial

/-- Failure answers are truthful and atomic. -/
theorem failure_is_truthful :
    (∀ (host : ActorHost) (call : HostCall) (w w' : TurnWorld) (answer : TurnAnswer),
      Exec turnEnv (call.program host) w answer w' →
      ∃ tr, w'.trace = w.trace ++ tr ∧ FailureOk host call w tr w' answer) ∧
    -- in a cluster, nothing of a turn that failed plainly is there to be committed, then or later
    (∀ (D : Deployment) (s s' : ClusterState) (evs : List ClusterEvent) (t : ℕ) (answer : TurnAnswer)
      (failure : ActorInvocationFailure), (clusterSystem D).Reachable s → s.world.answers t = some answer →
      answer.failure = some failure → failure.code ≠ "outcome_unknown" → (clusterSystem D).Path s evs s' →
      ∀ l, ¬ Wrote s'.world t l) := by
  constructor
  · intro host call w w' answer h
    obtain ⟨tr, he, hcase⟩ := exec_turn h
    exact ⟨tr, he.trace, failureOk_of_case hcase⟩
  · rintro D s s' evs t answer failure hs ha hf hcode hp l ⟨u, hu, hut, -⟩
    exact not_wrote_of_failure (hs.path hp) (answers_path hs hp ha) hf hcode u hu hut

/-- A counter whose executor fails. -/
def failing : List Machine.Command :=
  claimed ++ .arrive 0 hostA (increment "request-1" 1 0 "") :: List.replicate 4 (.answer 0) ++
    [.fail 0, .answer 0, .answer 0, .finish 0]

/-- A host where everything works but the commit. -/
def unconfirmedAnswers (w : TurnWorld) : (op : HostOp) → op.Res × TurnWorld
  | .commitState a h e v o r => w.log (.commitState a h e v o r) (.error (.new "commit failed")) w.entry w.heads
  | op => counterAnswers w op

theorem unconfirmedAnswers_step (w : TurnWorld) (op : HostOp) :
    turnEnv.step w op (unconfirmedAnswers w op).1 (unconfirmedAnswers w op).2 := by
  cases op with
  | commitState a h e v o r => exact ⟨List.prefix_refl _, rfl, rfl, by simp [unconfirmedAnswers, TurnWorld.log]⟩
  | _ => exact counterAnswers_step w _

/-- A publication that fails at its commit, and an executor that fails. -/
theorem failure_is_truthful_counter :
    (∃ w answer tr c c' next, Exec turnEnv (counterCall.program counterHost) ⟨none, [], []⟩ answer w ∧
      answer.failure = some .outcomeUnknownAfterExecution ∧ w.entry = some c' ∧ c'.pending ≠ none ∧
      Unpublished counterCall tr c c' (.num (.ofNat 1)) next) ∧
    ∃ (s : ClusterState) (answer : TurnAnswer),
      (clusterSystem counter.deployment).Reachable s ∧ s.world.answers 0 = some answer ∧
      answer.failure = some ⟨"actor_error", "actor executor failed: executor failed"⟩ ∧
      ∀ l, ¬ Wrote s.world 0 l := by
  constructor
  · have hx := exec_run unconfirmedAnswers_step (counterCall.program counterHost) ⟨none, [], []⟩
    generalize hend : (counterCall.program counterHost).run unconfirmedAnswers ⟨none, [], []⟩ = final at hx
    have hends : final.1.failure = some .outcomeUnknownAfterExecution ∧ final.1.success = none ∧
        (final.2.entry.bind (·.pending)).map (·.snapshot.result) = some (.num (.ofNat 1)) ∧
        final.2.trace.any (·.op.isExecution) = true := by
      rw [← hend]
      decide +kernel
    obtain ⟨hfailure, hsuccess, hpending, hexec⟩ := hends
    obtain ⟨tr, htr, hok⟩ := failure_is_truthful.1 counterHost counterCall _ _ _ hx
    rw [List.nil_append] at htr
    rw [htr, List.any_eq_true] at hexec
    rcases hok.unpublished hexec hsuccess with ⟨failure, hf, hcode⟩ |
      ⟨hans, c, c', result, next, effects, -, -, hentry, hun⟩
    · cases hfailure.symm.trans hf
      exact absurd rfl hcode
    · rw [hentry, Option.bind_some] at hpending
      obtain ⟨p, hp, hresult⟩ := Option.map_eq_some_iff.mp hpending
      have hsnapshot := hun.snapshot p hp
      rw [hsnapshot] at hresult
      cases hresult
      exact ⟨_, _, tr, c, c', next, hx, hans, hentry, by simp [hp], hun⟩
  · have hrun : (counter.run failing Machine.initial).map (fun s => s.world.answers 0) =
        some (some (.invoked (.ok (.failed ⟨"actor_error", "actor executor failed: executor failed"⟩)))) := by
      decide
    obtain ⟨s, hs, hans⟩ := Option.map_eq_some_iff.mp hrun
    have hreach := Machine.reachable_of_run hs
    refine ⟨s, _, hreach, hans, rfl, ?_⟩
    exact failure_is_truthful.2 counter.deployment s s [] 0 _ _ hreach hans rfl (by decide) (.nil s)

end LDO
