import DurableObjects.Sanity.Epochs

/-! One actor on one host. Its gate lets one turn at a time have the state, which is in
the cache or in the hands of that turn, and whatever the host has sent under the epoch
of that state is accounted for in it. This is kept by every run in which the host gives
the state to requests in the order of their epochs. -/

namespace LDO

open Prog

variable {D : Deployment} {h : HostId} {o : ActorStorageKey}

def HostOp.isTake : HostOp → Bool
  | .takeCachedState _ => true
  | _ => false

/-- A request of epoch `e` has taken the state of `o` out of the cache of host `h`. -/
def World.Took (w : World) (h : HostId) (o : ActorStorageKey) (e : ℕ) : Prop :=
  ∃ t call ev, w.calls t = some (h, call) ∧ call.request.object = o ∧ call.ownerEpoch = e ∧ ev ∈ w.trace t ∧
    ev.op.isTake

/-- The state a turn has in its hands. -/
def Phase.held : Phase → Option CachedActorState
  | .holding c => some c
  | .publishing c .. => some c
  | .committing c p .. => some (c.uploaded p)
  | .storing _ c => some c
  | _ => none

/-- The cache was asked for the state. -/
def Phase.Started : Phase → Prop
  | .waiting => False
  | .admitted => False
  | _ => True

/-- The cache was asked for the state, and nothing was put back. -/
def Phase.Taken : Phase → Prop
  | .stored _ => False
  | phase => phase.Started

theorem Phase.Taken.started {phase : Phase} (h : phase.Taken) : phase.Started := by
  cases phase <;> trivial

theorem Phase.taken_of_held {phase : Phase} {c : CachedActorState} (h : phase.held = some c) :
    phase.Taken := by
  cases phase <;> trivial

theorem Phase.Started.ne_waiting {phase : Phase} (h : phase.Started) : phase ≠ .waiting := by
  rintro rfl
  exact h

theorem take_of_started {host : ActorHost} {call : HostCall} {tr : List HostEvent}
    (h : (Phase.after host call tr).Started) : ∃ ev ∈ tr, ev.op.isTake := by
  induction tr using List.reverseRecOn with
  | nil => exact h.elim
  | append_singleton tr e ih =>
    by_cases hs : (Phase.after host call tr).Started
    · obtain ⟨ev, hm, ht⟩ := ih hs
      exact ⟨ev, List.mem_append_left _ hm, ht⟩
    · -- only a take leaves the first two phases
      refine ⟨e, by simp, ?_⟩
      rw [Phase.after_snoc] at h
      obtain ⟨op, r⟩ := e
      generalize Phase.after host call tr = phase at h hs
      cases phase with
      | waiting =>
        cases op with
        | admission o => rcases r with e | _ | _ <;> exact h.elim
        | _ => exact h.elim
      | admitted =>
        cases op with
        | takeCachedState o => rfl
        | _ => exact h.elim
      | _ => exact absurd trivial hs

/-- Nothing that was accounted for in `c` is lost in `c'`. -/
def CachedActorState.Onward (c c' : CachedActorState) : Prop :=
  c'.ownerEpoch = c.ownerEpoch ∧ (c.stateVersion < c'.stateVersion ∨
    c'.stateVersion = c.stateVersion ∧ (c.pending ≠ none → c'.pending ≠ none))

theorem CachedActorState.Onward.refl (c : CachedActorState) : c.Onward c := ⟨rfl, .inr ⟨rfl, id⟩⟩

theorem CachedActorState.Onward.unsent (c : CachedActorState) : c.Onward c.unsent := by
  unfold CachedActorState.unsent
  split_ifs
  · exact ⟨rfl, .inr ⟨rfl, id⟩⟩
  · exact .refl c

theorem CachedActorState.Onward.resolved {c : CachedActorState} {p : PendingStateCommit}
    (hv : p.snapshot.stateVersion = c.stateVersion + 1) (next : Option StateWriteTicket) :
    c.Onward (c.resolved p next) := by
  refine ⟨rfl, .inl ?_⟩
  change c.stateVersion < p.snapshot.stateVersion
  omega

variable {w w' : World} {t : ℕ} {call : HostCall} {op : HostOp} {r : op.Res}

theorem held_executed {c : CachedActorState} {outcome : Option (Value × Value × List ActorSocketEffect)} :
    (Phase.executed c outcome).held = some c := by
  cases outcome with
  | none => rfl
  | some x =>
    simp only [Phase.executed]
    split_ifs <;> rfl

/-- A turn keeps the state it has in its hands until it puts it back. -/
theorem held_next {phase : Phase} {c : CachedActorState} (hphase : PhaseOk D w t h call phase)
    (hop : Phase.Allows (D.host h) call phase op) (hc : phase.held = some c) :
    (∃ c', (phase.next (D.host h) call op r).held = some c' ∧ c.Onward c') ∨
      op = .storeCachedState call.request.object c := by
  cases hop with
  | settle hp hcommit =>
    rw [Phase.Commits] at hcommit
    subst hcommit
    cases hc
    obtain ⟨hv, -⟩ := hphase.2.2.pending _ hp
    simp only [Phase.next, Phase.onHolding, Phase.settle, hp]
    split
    · exact .inl ⟨_, rfl, .resolved hv _⟩
    · exact .inl ⟨_, rfl, .refl _⟩
  | replay => cases hc; exact .inr rfl
  | execute =>
    cases hc
    obtain ⟨request, ownerEpoch, stateVersion, url⟩ := call
    cases request with
    | invoke i => exact .inl ⟨_, held_executed, .refl _⟩
    | handleSocket i => exact .inl ⟨_, held_executed, .refl _⟩
  | clock =>
    cases hc
    cases r with
    | error e => exact .inl ⟨_, rfl, rfl, .inr ⟨rfl, id⟩⟩
    | ok now => exact .inl ⟨_, rfl, .refl _⟩
  | prepare =>
    cases hc
    cases r with
    | error e => exact .inl ⟨_, rfl, rfl, .inr ⟨rfl, id⟩⟩
    | ok k => exact .inl ⟨_, rfl, .refl _⟩
  | write =>
    cases hc
    cases r with
    | error e => exact .inl ⟨_, rfl, rfl, .inr ⟨rfl, id⟩⟩
    | ok write => exact .inl ⟨_, rfl, rfl, .inr ⟨rfl, fun _ => by simp [CachedActorState.uploaded]⟩⟩
  | unsent => cases hc; exact .inl ⟨_, rfl, .unsent _⟩
  | commit hcommit =>
    rename_i c₀ p result effects
    rw [Phase.Commits] at hcommit
    subst hcommit
    cases hc
    obtain ⟨-, hs, -⟩ := hphase
    have hv : p.snapshot.stateVersion = c₀.stateVersion + 1 := by rw [hs]; rfl
    simp only [Phase.next, Phase.onCommitting, Phase.confirm]
    split
    · refine .inl ⟨_, rfl, rfl, .inl ?_⟩
      change c₀.stateVersion < p.snapshot.stateVersion
      omega
    · exact .inl ⟨_, rfl, .refl _⟩
  | evict => cases hc; exact .inl ⟨_, rfl, .refl _⟩
  | store => cases hc; exact .inr rfl
  | _ => cases hc

theorem admission_object {host : ActorHost} {phase : Phase} {o' : ActorStorageKey}
    (hop : Phase.Allows host call phase (.admission o')) : o' = call.request.object ∧ phase = .waiting := by
  generalize hs : HostOp.admission o' = op at hop
  cases hop with
  | admission => cases hs; exact ⟨rfl, rfl⟩
  | settle _ hc => rw [Phase.Commits, ← hs] at hc; cases hc
  | commit hc => rw [Phase.Commits, ← hs] at hc; cases hc
  | execute => cases hr : call.request <;> rw [hr] at hs <;> cases hs
  | _ => cases hs

theorem take_object {host : ActorHost} {phase : Phase} {o' : ActorStorageKey}
    (hop : Phase.Allows host call phase (.takeCachedState o')) :
    o' = call.request.object ∧ phase = .admitted := by
  generalize hs : HostOp.takeCachedState o' = op at hop
  cases hop with
  | take => cases hs; exact ⟨rfl, rfl⟩
  | settle _ hc => rw [Phase.Commits, ← hs] at hc; cases hc
  | commit hc => rw [Phase.Commits, ← hs] at hc; cases hc
  | execute => cases hr : call.request <;> rw [hr] at hs <;> cases hs
  | _ => cases hs

theorem store_held {host : ActorHost} {phase : Phase} {o' : ActorStorageKey} {c : CachedActorState}
    (hop : Phase.Allows host call phase (.storeCachedState o' c)) :
    o' = call.request.object ∧ phase.held = some c := by
  generalize hs : HostOp.storeCachedState o' c = op at hop
  cases hop with
  | replay => cases hs; exact ⟨rfl, rfl⟩
  | store => cases hs; exact ⟨rfl, rfl⟩
  | settle _ hc => rw [Phase.Commits, ← hs] at hc; cases hc
  | commit hc => rw [Phase.Commits, ← hs] at hc; cases hc
  | execute => cases hr : call.request <;> rw [hr] at hs <;> cases hs
  | _ => cases hs

/-! ### What is known of the state -/

/-- No commit of host `h` was sent under epoch `e`. -/
def World.NoneSent (w : World) (h : HostId) (o : ActorStorageKey) (e : ℕ) : Prop :=
  ∀ q ∈ w.sent, q.object = o → q.owner = h → q.ownerEpoch ≠ e

/-- The state is of the newest epoch the host has seen, and every commit sent under that
epoch is in it or pending on it. -/
structure StateOk (w : World) (h : HostId) (o : ActorStorageKey) (c : CachedActorState) : Prop where
  taken : w.Took h o c.ownerEpoch
  newest : ∀ e, w.Took h o e → e ≤ c.ownerEpoch
  observed : ∃ p ∈ w.observed, p.object = o ∧ p.owner = h ∧ p.ownerEpoch = c.ownerEpoch ∧
    p.stateVersion ≤ c.stateVersion
  covered : ∀ q ∈ w.sent, q.object = o → q.owner = h → q.ownerEpoch = c.ownerEpoch →
    q.expectedVersion < c.stateVersion ∨ q.expectedVersion = c.stateVersion ∧ c.pending ≠ none

theorem StateOk.onward {c c' : CachedActorState} (hc : StateOk w h o c) (hon : c.Onward c') :
    StateOk w h o c' := by
  obtain ⟨he, hv⟩ := hon
  obtain ⟨p, hm, hobj, hown, hep, hle⟩ := hc.observed
  refine ⟨he ▸ hc.taken, ?_, ⟨p, hm, hobj, hown, hep.trans he.symm, ?_⟩, ?_⟩
  · rw [he]; exact hc.newest
  · omega
  · intro q hq hqo hqh hqe
    rcases hc.covered q hq hqo hqh (hqe.trans he) with hlt | ⟨heq, hp⟩
    · exact .inl (by omega)
    · rcases hv with hv | ⟨hv, hpend⟩
      · exact .inl (by omega)
      · exact .inr ⟨heq.trans hv.symm, hpend hp⟩

/-- `c` is in the cache of host `h`, or a turn has it. -/
inductive HasState (D : Deployment) (h : HostId) (o : ActorStorageKey) (s : ClusterState) :
    CachedActorState → Prop
  | cache {c : CachedActorState} : s.world.caches h o = some c → HasState D h o s c
  | turn {t : ℕ} {call : HostCall} {p : HostM TurnAnswer} {c : CachedActorState} :
      s.turns t = some ((h, call), p) → call.request.object = o → (s.world.phase D t h call).held = some c →
      HasState D h o s c

structure OwnerOk (D : Deployment) (h : HostId) (o : ActorStorageKey) (s : ClusterState) : Prop where
  gate : ∀ t call p, s.turns t = some ((h, call), p) → call.request.object = o →
    s.world.phase D t h call ≠ .waiting → s.world.gates h o = some t
  alone : ∀ t call p, s.turns t = some ((h, call), p) → call.request.object = o →
    (s.world.phase D t h call).Taken → s.world.caches h o = none
  state : ∀ c, HasState D h o s c → StateOk s.world h o c
  loading : ∀ t call p, s.turns t = some ((h, call), p) → call.request.object = o →
    s.world.phase D t h call = .loading →
    s.world.NoneSent h o call.ownerEpoch ∧ ∀ e, s.world.Took h o e → e ≤ call.ownerEpoch
  sent : ∀ q ∈ s.world.sent, q.object = o → q.owner = h → s.world.Took h o q.ownerEpoch
  -- a state that is lost was never built on
  lost : ∀ e, s.world.Took h o e → (∀ e', s.world.Took h o e' → e' ≤ e) →
    (∃ c, HasState D h o s c ∧ c.ownerEpoch = e) ∨ s.world.NoneSent h o e

theorem StateOk.frame {c : CachedActorState} (hc : StateOk w h o c)
    (htook : ∀ e, w'.Took h o e ↔ w.Took h o e)
    (hsent : ∀ q ∈ w'.sent, q.object = o → q.owner = h → q ∈ w.sent) (hobs : w.observed ⊆ w'.observed) :
    StateOk w' h o c := by
  obtain ⟨p, hm, hrest⟩ := hc.observed
  refine ⟨(htook _).mpr hc.taken, fun e he => hc.newest e ((htook e).mp he), ⟨p, hobs hm, hrest⟩, ?_⟩
  exact fun q hq ho hh => hc.covered q (hsent q hq ho hh) ho hh

/-- Steps of others, and those of the turns that have nothing in their hands. -/
theorem OwnerOk.frame {s : ClusterState} (hk : OwnerOk D h o s) (s' : ClusterState)
    (hgate : ∀ t call p, s'.turns t = some ((h, call), p) → call.request.object = o →
      s.world.gates h o = some t → s'.world.gates h o = some t)
    (hcache : s'.world.caches h o = s.world.caches h o)
    (hturns : ∀ t call p, s'.turns t = some ((h, call), p) → call.request.object = o →
      ¬ (s'.world.phase D t h call).Started ∧
          (s'.world.phase D t h call ≠ .waiting → s'.world.gates h o = some t) ∨
        (∃ p', s.turns t = some ((h, call), p')) ∧ s'.world.phase D t h call = s.world.phase D t h call)
    (hheld : ∀ t call p, s.turns t = some ((h, call), p) → call.request.object = o →
      (s.world.phase D t h call).held ≠ none →
        (∃ p', s'.turns t = some ((h, call), p')) ∧ s'.world.phase D t h call = s.world.phase D t h call)
    (htook : ∀ e, s'.world.Took h o e ↔ s.world.Took h o e)
    (hsent : ∀ q ∈ s'.world.sent, q.object = o → q.owner = h → q ∈ s.world.sent)
    (hobs : s.world.observed ⊆ s'.world.observed) : OwnerOk D h o s' := by
  have hnone : ∀ e, s.world.NoneSent h o e → s'.world.NoneSent h o e :=
    fun e hn q hq ho hh => hn q (hsent q hq ho hh) ho hh
  refine ⟨?_, ?_, ?_, ?_, ?_, ?_⟩
  · intro t call p ht ho hw
    rcases hturns t call p ht ho with ⟨-, hg⟩ | ⟨⟨p', ht'⟩, hph⟩
    · exact hg hw
    · exact hgate t call p ht ho (hk.gate t call p' ht' ho (hph ▸ hw))
  · intro t call p ht ho htk
    rcases hturns t call p ht ho with ⟨hearly, -⟩ | ⟨⟨p', ht'⟩, hph⟩
    · exact absurd htk.started hearly
    · rw [hcache]; exact hk.alone t call p' ht' ho (hph ▸ htk)
  · intro c hc
    refine (hk.state c ?_).frame htook hsent hobs
    cases hc with
    | cache hc => exact .cache (hcache ▸ hc)
    | turn ht ho hc =>
      rcases hturns _ _ _ ht ho with ⟨hearly, -⟩ | ⟨⟨p', ht'⟩, hph⟩
      · exact absurd (Phase.taken_of_held hc).started hearly
      · exact .turn ht' ho (hph ▸ hc)
  · intro t call p ht ho hl
    rcases hturns t call p ht ho with ⟨hearly, -⟩ | ⟨⟨p', ht'⟩, hph⟩
    · exact absurd (by rw [hl]; trivial) hearly
    · obtain ⟨hn, hle⟩ := hk.loading t call p' ht' ho (hph ▸ hl)
      exact ⟨hnone _ hn, fun e he => hle e ((htook e).mp he)⟩
  · exact fun q hq ho hh => (htook _).mpr (hk.sent q (hsent q hq ho hh) ho hh)
  · intro e he hmax
    rcases hk.lost e ((htook e).mp he) (fun e' he' => hmax e' ((htook e').mpr he')) with ⟨c, hc, hce⟩ | hn
    · refine .inl ⟨c, ?_, hce⟩
      cases hc with
      | cache hc => exact .cache (hcache.trans hc)
      | turn ht ho hc =>
        obtain ⟨⟨p', ht'⟩, hph⟩ := hheld _ _ _ ht ho (by rw [hc]; simp)
        exact .turn ht' ho (hph ▸ hc)
    · exact .inr (hnone e hn)

/-! ### Calls of a turn -/

section Call

variable {s : ClusterState} {next : op.Res → HostM TurnAnswer}

/-- A turn reaches the cache and the gate of its own object only. -/
theorem answers_slot {phase : Phase} {host : ActorHost} (ha : Answers D t h w op r w')
    (hop : Phase.Allows host call phase op) {h' : HostId} {o' : ActorStorageKey}
    (hne : ¬ (h' = h ∧ o' = call.request.object)) :
    w'.caches h' o' = w.caches h' o' ∧ w'.gates h' o' = w.gates h' o' := by
  have hset : ∀ {α : Type} (f : HostId → ActorStorageKey → α) (a : α),
      Function.update f h (Function.update (f h) call.request.object a) h' o' = f h' o' := by
    intro α f a
    by_cases hh : h' = h
    · subst hh
      rw [Function.update_self, Function.update_of_ne fun ho => hne ⟨rfl, ho⟩]
    · rw [Function.update_of_ne hh]
  cases ha with
  | acquired _ =>
    obtain ⟨rfl, -⟩ := admission_object hop
    exact ⟨rfl, hset _ _⟩
  | take =>
    obtain ⟨rfl, -⟩ := take_object hop
    exact ⟨hset _ _, rfl⟩
  | store =>
    obtain ⟨rfl, -⟩ := store_held hop
    exact ⟨hset _ _, rfl⟩
  | _ => exact ⟨rfl, rfl⟩

theorem took_call {h₀ : HostId} (ha : Answers D t h₀ s.world op r w')
    (hcalls : s.world.calls t = some (h₀, call)) (e : ℕ) : (w'.log t ⟨op, r⟩).Took h o e ↔
      s.world.Took h o e ∨ op.isTake ∧ h = h₀ ∧ call.request.object = o ∧ call.ownerEpoch = e := by
  have hout := answers_outside ha
  constructor
  · rintro ⟨j, call', ev, hc, ho, he, hm, htake⟩
    change w'.calls j = _ at hc
    rw [hout.calls] at hc
    by_cases hj : j = t
    · subst hj
      rw [log_trace_self, hout.trace] at hm
      cases hc.symm.trans hcalls
      rcases List.mem_append.mp hm with hm | hm
      · exact .inl ⟨j, call, ev, hcalls, ho, he, hm, htake⟩
      · rw [List.mem_singleton.mp hm] at htake
        exact .inr ⟨htake, rfl, ho, he⟩
    · rw [log_trace_ne _ _ hj, hout.trace] at hm
      exact .inl ⟨j, call', ev, hc, ho, he, hm, htake⟩
  · rintro (⟨j, call', ev, hc, ho, he, hm, htake⟩ | ⟨htake, rfl, ho, he⟩)
    · refine ⟨j, call', ev, by simpa only [World.log, hout.calls] using hc, ho, he, ?_, htake⟩
      by_cases hj : j = t
      · subst hj
        rw [log_trace_self, hout.trace]
        exact List.mem_append_left _ hm
      · rwa [log_trace_ne _ _ hj, hout.trace]
    · refine ⟨t, call, ⟨op, r⟩, by simpa only [World.log, hout.calls] using hcalls, ho, he, ?_, htake⟩
      rw [log_trace_self]
      simp

theorem phase_answered {h₀ : HostId} (ha : Answers D t h₀ s.world op r w') :
    (s.answered t h₀ call op r next w').world.phase D t h₀ call =
      (s.world.phase D t h₀ call).next (D.host h₀) call op r := by
  change (w'.log t ⟨op, r⟩).phase D t h₀ call = _
  rw [phase_log, World.phase, (answers_outside ha).trace]
  rfl

theorem phase_answered_ne {h₀ h' : HostId} {call' : HostCall} {j : ℕ} (ha : Answers D t h₀ s.world op r w')
    (hj : j ≠ t) : (s.answered t h₀ call op r next w').world.phase D j h' call' =
      s.world.phase D j h' call' := by
  change (w'.log t ⟨op, r⟩).phase D j h' call' = _
  simp only [World.phase, log_trace_ne _ _ hj, (answers_outside ha).trace]

/-- A call of a turn that serves something else. -/
theorem OwnerOk.call_other {h₀ : HostId} (hk : OwnerOk D h o s) (hok : ClusterOk D s)
    (ht : s.turns t = some ((h₀, call), .call op next)) (ha : Answers D t h₀ s.world op r w')
    (hne : ¬ (h = h₀ ∧ o = call.request.object)) : OwnerOk D h o (s.answered t h₀ call op r next w') := by
  obtain ⟨hcalls, -, hwp⟩ := hok.turns t h₀ call _ ht
  have hout := answers_outside ha
  obtain ⟨hcache, hgate⟩ := answers_slot ha hwp.1 hne
  have hother : ∀ j call' p, s.turns j = some ((h, call'), p) → call'.request.object = o → j ≠ t := by
    rintro j call' p hj rfl rfl
    cases ht.symm.trans hj
    exact hne ⟨rfl, rfl⟩
  have hother' : ∀ j call' p, (s.answered t h₀ call op r next w').turns j = some ((h, call'), p) →
      call'.request.object = o → j ≠ t := by
    rintro j call' p hj rfl rfl
    simp only [ClusterState.answered, Function.update_self, Option.some.injEq, Prod.mk.injEq] at hj
    obtain ⟨⟨rfl, rfl⟩, -⟩ := hj
    exact hne ⟨rfl, rfl⟩
  refine hk.frame _ (fun _ _ _ _ _ hg => hgate.trans hg) hcache ?_ ?_ ?_ ?_ ?_
  · intro j call' p hj ho
    have hjt := hother' j call' p hj ho
    simp only [ClusterState.answered, Function.update_of_ne hjt] at hj
    exact .inr ⟨⟨p, hj⟩, phase_answered_ne ha hjt⟩
  · intro j call' p hj ho _
    have hjt := hother j call' p hj ho
    exact ⟨⟨p, by simp only [ClusterState.answered, Function.update_of_ne hjt, hj]⟩, phase_answered_ne ha hjt⟩
  · intro e
    refine (took_call ha hcalls e).trans (or_iff_left ?_)
    rintro ⟨-, rfl, ho, -⟩
    exact hne ⟨rfl, ho.symm⟩
  · intro q hq _ _
    change q ∈ w'.sent at hq
    rwa [hout.sent] at hq
  · change s.world.observed ⊆ w'.observed
    rw [hout.observed]
    exact fun _ => id

/-- The turn that has the gate makes a call: what it and the cache have afterwards. -/
theorem OwnerOk.call_own (hk : OwnerOk D h o s) (hok : ClusterOk D s)
    (ht : s.turns t = some ((h, call), .call op next)) (ha : Answers D t h s.world op r w')
    (ho : call.request.object = o) (hstart : s.world.phase D t h call ≠ .waiting)
    (halone : ((s.world.phase D t h call).next (D.host h) call op r).Taken → w'.caches h o = none)
    (hstate : ∀ c, w'.caches h o = some c ∨ ((s.world.phase D t h call).next (D.host h) call op r).held = some c →
      StateOk (w'.log t ⟨op, r⟩) h o c)
    (hload : (s.world.phase D t h call).next (D.host h) call op r = .loading →
      s.world.NoneSent h o call.ownerEpoch ∧ ∀ e, (w'.log t ⟨op, r⟩).Took h o e → e ≤ call.ownerEpoch)
    (hlost : ∀ e, (w'.log t ⟨op, r⟩).Took h o e → (∀ e', (w'.log t ⟨op, r⟩).Took h o e' → e' ≤ e) →
      (∃ c, (w'.caches h o = some c ∨ ((s.world.phase D t h call).next (D.host h) call op r).held = some c) ∧
        c.ownerEpoch = e) ∨ s.world.NoneSent h o e) :
    OwnerOk D h o (s.answered t h call op r next w') := by
  obtain ⟨hcalls, -, hwp⟩ := hok.turns t h call _ ht
  have hout := answers_outside ha
  have hgate := hk.gate t call _ ht ho hstart
  have hgate' : w'.gates h o = some t := by
    cases ha with
    | acquired _ => exact absurd (admission_object hwp.1).2 hstart
    | _ => exact hgate
  -- everybody else waits
  have hwait : ∀ j call' p, s.turns j = some ((h, call'), p) → call'.request.object = o → j ≠ t →
      s.world.phase D j h call' = .waiting := by
    intro j call' p hj ho' hne
    by_contra hw
    have := hk.gate j call' p hj ho' hw
    rw [hgate, Option.some.injEq] at this
    exact hne this.symm
  have hself : ∀ call' p, (s.answered t h call op r next w').turns t = some ((h, call'), p) → call' = call := by
    intro call' p hj
    simp only [ClusterState.answered, Function.update_self, Option.some.injEq, Prod.mk.injEq] at hj
    exact hj.1.2.symm
  have hother : ∀ j call' p, (s.answered t h call op r next w').turns j = some ((h, call'), p) →
      call'.request.object = o → j ≠ t →
      (s.answered t h call op r next w').world.phase D j h call' = .waiting := by
    intro j call' p hj ho' hne
    rw [phase_answered_ne ha hne]
    simp only [ClusterState.answered, Function.update_of_ne hne] at hj
    exact hwait j call' p hj ho' hne
  have hnone : ∀ e, s.world.NoneSent h o e → (w'.log t ⟨op, r⟩).NoneSent h o e := by
    intro e hn q hq
    change q ∈ w'.sent at hq
    rw [hout.sent] at hq
    exact hn q hq
  refine ⟨?_, ?_, ?_, ?_, ?_, ?_⟩
  · intro j call' p hj ho' hw
    by_cases hjt : j = t
    · subst hjt; exact hgate'
    · exact absurd (hother j call' p hj ho' hjt) hw
  · intro j call' p hj ho' htk
    by_cases hjt : j = t
    · subst hjt
      rw [hself call' p hj, phase_answered ha] at htk
      exact halone htk
    · rw [hother j call' p hj ho' hjt] at htk
      exact htk.elim
  · intro c hc
    cases hc with
    | cache hc => exact hstate c (.inl hc)
    | turn hj ho' hc =>
      rename_i j call' p
      by_cases hjt : j = t
      · subst hjt
        rw [hself call' p hj, phase_answered ha] at hc
        exact hstate c (.inr hc)
      · rw [hother j call' p hj ho' hjt] at hc
        cases hc
  · intro j call' p hj ho' hl
    by_cases hjt : j = t
    · subst hjt
      obtain rfl := hself call' p hj
      rw [phase_answered ha] at hl
      obtain ⟨hn, hle⟩ := hload hl
      exact ⟨hnone _ hn, hle⟩
    · rw [hother j call' p hj ho' hjt] at hl
      cases hl
  · intro q hq hqo hqh
    change q ∈ w'.sent at hq
    rw [hout.sent] at hq
    exact (took_call ha hcalls _).mpr (.inl (hk.sent q hq hqo hqh))
  · intro e he hmax
    rcases hlost e he hmax with ⟨c, hc, hce⟩ | hn
    · refine .inl ⟨c, ?_, hce⟩
      rcases hc with hc | hc
      · exact .cache hc
      · exact .turn (t := t) (p := next r) (by simp [ClusterState.answered]) ho (by rw [phase_answered ha]; exact hc)
    · exact .inr (hnone e hn)

/-- While a turn has the gate, the state is in the cache or in its hands. -/
theorem OwnerOk.slot {p : HostM TurnAnswer} {c : CachedActorState} (hk : OwnerOk D h o s)
    (ht : s.turns t = some ((h, call), p)) (ho : call.request.object = o)
    (hstart : s.world.phase D t h call ≠ .waiting) (hc : HasState D h o s c) :
    s.world.caches h o = some c ∨ (s.world.phase D t h call).held = some c := by
  cases hc with
  | cache hc => exact .inl hc
  | turn hj ho' hc =>
    have hgate := hk.gate _ _ _ ht ho hstart
    have hgate' := hk.gate _ _ _ hj ho' (Phase.taken_of_held hc).started.ne_waiting
    rw [hgate, Option.some.injEq] at hgate'
    subst hgate'
    cases ht.symm.trans hj
    exact .inr hc

theorem answers_caches_same (ha : Answers D t h w op r w') (htake : op.isTake = false)
    (hstore : ∀ o' c, op ≠ .storeCachedState o' c) : w'.caches = w.caches := by
  cases ha with
  | take => cases htake
  | store => exact absurd rfl (hstore _ _)
  | _ => rfl

/-- The turn with the state makes any call but the one that puts it back. -/
theorem OwnerOk.call_held {c : CachedActorState} (hk : OwnerOk D h o s) (hok : ClusterOk D s)
    (ht : s.turns t = some ((h, call), .call op next)) (ha : Answers D t h s.world op r w')
    (ho : call.request.object = o) (hc : (s.world.phase D t h call).held = some c)
    (hstore : ∀ o' c, op ≠ .storeCachedState o' c) : OwnerOk D h o (s.answered t h call op r next w') := by
  obtain ⟨hcalls, -, hwp⟩ := hok.turns t h call _ ht
  have hphase := (hok.phases t h call (.inl (by rw [ht]; simp)) hcalls).1
  have hout := answers_outside ha
  have htaken := Phase.taken_of_held hc
  have hstart := htaken.started.ne_waiting
  have htake : op.isTake = false := by
    cases op with
    | takeCachedState o' =>
      rw [(take_object hwp.1).2] at hc
      cases hc
    | _ => rfl
  have hnone : w'.caches h o = none := by
    rw [answers_caches_same ha htake hstore]
    exact hk.alone t call _ ht ho htaken
  have htook : ∀ e, (w'.log t ⟨op, r⟩).Took h o e ↔ s.world.Took h o e := by
    intro e
    refine (took_call ha hcalls e).trans (or_iff_left ?_)
    rw [htake]
    simp
  obtain ⟨c', hc', hon⟩ := (held_next hphase hwp.1 hc).resolve_right (hstore _ _)
  refine hk.call_own hok ht ha ho hstart (fun _ => hnone) ?_ ?_ ?_
  · rintro c'' (hcache | hheld)
    · rw [hnone] at hcache; cases hcache
    · cases hc'.symm.trans hheld
      refine ((hk.state c (.turn ht ho hc)).onward hon).frame htook (fun q hq _ _ => ?_) ?_
      · change q ∈ w'.sent at hq
        rwa [hout.sent] at hq
      · change s.world.observed ⊆ w'.observed
        rw [hout.observed]
        exact fun _ => id
  · intro hl
    rw [hl] at hc'
    cases hc'
  · intro e he hmax
    rcases hk.lost e ((htook e).mp he) (fun e' he' => hmax e' ((htook e').mpr he')) with ⟨c₀, hc₀, hce⟩ | hn
    · refine .inl ⟨c', .inr hc', ?_⟩
      rcases hk.slot ht ho hstart hc₀ with hcache | hheld
      · rw [hk.alone t call _ ht ho htaken] at hcache
        cases hcache
      · cases hc.symm.trans hheld
        exact hon.1.trans hce
    · exact .inr hn

/-- The state goes back into the cache. -/
theorem OwnerOk.call_store {o' : ActorStorageKey} {c : CachedActorState}
    {next : Result Unit → HostM TurnAnswer} {r : Result Unit} (hk : OwnerOk D h o s) (hok : ClusterOk D s)
    (ht : s.turns t = some ((h, call), .call (.storeCachedState o' c) next))
    (ha : Answers D t h s.world (.storeCachedState o' c) r w') (ho : call.request.object = o) :
    OwnerOk D h o (s.answered t h call (.storeCachedState o' c) r next w') := by
  obtain ⟨hcalls, -, hwp⟩ := hok.turns t h call _ ht
  obtain ⟨rfl, hc⟩ := store_held hwp.1
  have htaken := Phase.taken_of_held hc
  have hstart := htaken.started.ne_waiting
  cases ha with
  | store =>
    have hcache : (s.world.setCache h call.request.object (some c)).caches h o = some c := by
      rw [setCache_apply, if_pos ⟨rfl, ho.symm⟩]
    have hstored : ((s.world.phase D t h call).next (D.host h) call (.storeCachedState call.request.object c)
        (.ok ())).held = none ∧ ¬ ((s.world.phase D t h call).next (D.host h) call
          (.storeCachedState call.request.object c) (.ok ())).Taken := by
      have hop := hwp.1
      generalize s.world.phase D t h call = phase at hop hc ⊢
      cases phase with
      | holding _ => exact ⟨rfl, id⟩
      | storing _ _ => exact ⟨rfl, id⟩
      | publishing => cases hop
      | committing => cases hop with | commit hcommit => cases hcommit
      | _ => cases hc
    have htook : ∀ e, ((s.world.setCache h call.request.object (some c)).log t
        ⟨.storeCachedState call.request.object c, .ok ()⟩).Took h o e ↔ s.world.Took h o e := by
      intro e
      refine (took_call (D := D) .store hcalls e).trans (or_iff_left ?_)
      simp [HostOp.isTake]
    refine hk.call_own hok ht .store ho hstart (fun htk => absurd htk hstored.2) ?_ ?_ ?_
    · rintro c' (hc' | hheld)
      · cases hcache.symm.trans hc'
        exact (hk.state c (.turn ht ho hc)).frame htook (fun _ hq _ _ => hq) (fun _ => id)
      · rw [hstored.1] at hheld; cases hheld
    · intro hl
      rw [hl] at hstored
      exact absurd trivial hstored.2
    · intro e he hmax
      rcases hk.lost e ((htook e).mp he) (fun e' he' => hmax e' ((htook e').mpr he')) with ⟨c₀, hc₀, hce⟩ | hn
      · refine .inl ⟨c, .inl hcache, ?_⟩
        rcases hk.slot ht ho hstart hc₀ with hcache | hheld
        · rw [hk.alone t call _ ht ho htaken] at hcache
          cases hcache
        · cases hc.symm.trans hheld
          exact hce
      · exact .inr hn

/-- A state that starts at the capability of its request. -/
theorem stateOk_start {c : CachedActorState} (hcap : Capable D w h call) (ho : call.request.object = o)
    (he : c.ownerEpoch = call.ownerEpoch) (hv : c.stateVersion = call.stateVersion)
    (htook : w.Took h o call.ownerEpoch) (hle : ∀ e, w.Took h o e → e ≤ call.ownerEpoch)
    (hnone : w.NoneSent h o call.ownerEpoch) : StateOk w h o c := by
  obtain ⟨-, p, hm, hobj, hown, hep, hver, -⟩ := hcap
  refine ⟨he ▸ htook, by rwa [he], ⟨p, hm, hobj.trans ho, hown, hep.trans he.symm, by omega⟩, ?_⟩
  intro q hq hqo hqh hqe
  exact absurd (hqe.trans he) (hnone q hq hqo hqh)

theorem OwnerOk.call_take {o' : ActorStorageKey} {next : Result (Option CachedActorState) → HostM TurnAnswer}
    {r : Result (Option CachedActorState)} (hk : OwnerOk D h o s) (hok : ClusterOk D s)
    (ht : s.turns t = some ((h, call), .call (.takeCachedState o') next))
    (ha : Answers D t h s.world (.takeCachedState o') r w') (ho : call.request.object = o)
    (horder : ∀ e, s.world.Took h o e → e ≤ call.ownerEpoch) :
    OwnerOk D h o (s.answered t h call (.takeCachedState o') r next w') := by
  obtain ⟨hcalls, -, hwp⟩ := hok.turns t h call _ ht
  have hcap := hok.capable t h call hcalls
  obtain ⟨rfl, hadm⟩ := take_object hwp.1
  have hstart : s.world.phase D t h call ≠ .waiting := by simp [hadm]
  have htook := took_call (h := h) (o := o) ha hcalls
  cases ha with
  | take =>
    have hcache : (s.world.setCache h call.request.object none).caches h o = none := by
      rw [setCache_apply, if_pos ⟨rfl, ho.symm⟩]
    have hself := (htook call.ownerEpoch).mpr (.inr ⟨rfl, rfl, ho, rfl⟩)
    have hle : ∀ e, ((s.world.setCache h call.request.object none).log t
        ⟨.takeCachedState call.request.object, .ok (s.world.caches h call.request.object)⟩).Took h o e →
        e ≤ call.ownerEpoch := by
      intro e he
      rcases (htook e).mp he with hold | ⟨-, -, -, heq⟩
      · exact horder e hold
      · exact heq.ge
    have hnext : (s.world.phase D t h call).next (D.host h) call (.takeCachedState call.request.object)
        (.ok (s.world.caches h call.request.object)) = Phase.start call (s.world.caches h o) := by
      rw [hadm, ← ho]
      rfl
    -- nothing was sent under the epoch of a request that finds no state of it
    have hnone : (s.world.caches h o).filter (fun c => c.ownerEpoch = call.ownerEpoch) = none →
        s.world.NoneSent h o call.ownerEpoch := by
      intro hmiss q hq hqo hqh hqe
      have hold : s.world.Took h o call.ownerEpoch := hqe ▸ hk.sent q hq hqo hqh
      rcases hk.lost _ hold horder with ⟨c, hc, hce⟩ | hn
      · rcases hk.slot ht ho hstart hc with hc | hc
        · rw [hc] at hmiss
          simp [hce] at hmiss
        · rw [hadm] at hc; cases hc
      · exact hn q hq hqo hqh hqe
    refine hk.call_own hok ht .take ho hstart (fun _ => hcache) ?_ ?_ ?_
    · rintro c (hc | hc)
      · rw [hcache] at hc; cases hc
      · rw [hnext, Phase.start] at hc
        split at hc
        · rename_i c' hfind
          cases hc
          obtain ⟨hmem, hep⟩ := Option.filter_eq_some_iff.mp hfind
          have hep : c.ownerEpoch = call.ownerEpoch := of_decide_eq_true hep
          obtain ⟨-, -, hobs, hcov⟩ := hk.state c (.cache hmem)
          exact ⟨hep ▸ hself, by rwa [hep], hobs, hcov⟩
        · rename_i hmiss
          split_ifs at hc with hv
          · cases hc
            exact stateOk_start (D := D) hcap ho rfl hv.symm hself hle (hnone hmiss)
          · cases hc
          · cases hc
    · intro hl
      rw [hnext, Phase.start] at hl
      split at hl
      · cases hl
      · rename_i hmiss
        exact ⟨hnone hmiss, hle⟩
    · intro e he hmax
      obtain rfl : e = call.ownerEpoch := le_antisymm (hle e he) (hmax _ hself)
      rw [hnext, Phase.start]
      split
      · rename_i c hfind
        exact .inl ⟨c, .inr rfl, of_decide_eq_true (Option.filter_eq_some_iff.mp hfind).2⟩
      · rename_i hmiss
        exact .inr (hnone hmiss)

theorem OwnerOk.call_read {url : String} {next : Result LoadedState → HostM TurnAnswer}
    {r : Result LoadedState} (hk : OwnerOk D h o s) (hok : ClusterOk D s)
    (ht : s.turns t = some ((h, call), .call (.read url) next))
    (ha : Answers D t h s.world (.read url) r w') (ho : call.request.object = o)
    (hphase : s.world.phase D t h call = .loading) :
    OwnerOk D h o (s.answered t h call (.read url) r next w') := by
  obtain ⟨hcalls, -, hwp⟩ := hok.turns t h call _ ht
  have hout := answers_outside ha
  have hcap := hok.capable t h call hcalls
  have hstart : s.world.phase D t h call ≠ .waiting := by simp [hphase]
  obtain ⟨hnone, hle⟩ := hk.loading t call _ ht ho hphase
  have hcache : w'.caches h o = none := by
    rw [answers_caches_same ha rfl (by simp)]
    exact hk.alone t call _ ht ho (by rw [hphase]; trivial)
  have htook : ∀ e, (w'.log t ⟨.read url, r⟩).Took h o e ↔ s.world.Took h o e := by
    intro e
    refine (took_call ha hcalls e).trans (or_iff_left ?_)
    simp [HostOp.isTake]
  have hself : s.world.Took h o call.ownerEpoch := by
    have hstarted : (s.world.phase D t h call).Started := by
      rw [hphase]
      trivial
    obtain ⟨ev, hm, hev⟩ := take_of_started hstarted
    exact ⟨t, call, ev, hcalls, ho, rfl, hm, hev⟩
  refine hk.call_own hok ht ha ho hstart (fun _ => hcache) ?_ ?_ ?_
  · rintro c (hc | hc)
    · rw [hcache] at hc; cases hc
    · rw [hphase] at hc
      simp only [Phase.next, Phase.onLoading] at hc
      cases r with
      | error e => cases hc
      | ok state =>
        simp only [Phase.load] at hc
        split at hc
        · rename_i c' hload
          cases hc
          obtain ⟨snapshot, -, -, -, rfl⟩ := fromLoaded_ok hload
          have hstate : StateOk s.world h o ⟨call.ownerEpoch, call.stateVersion, some snapshot.state,
            some snapshot.requestId, some snapshot.result, none,
              none⟩ := stateOk_start hcap ho rfl rfl hself hle hnone
          refine hstate.frame htook (fun q hq _ _ => ?_) ?_
          · change q ∈ w'.sent at hq
            rwa [hout.sent] at hq
          · change s.world.observed ⊆ w'.observed
            rw [hout.observed]
            exact fun _ => id
        · cases hc
  · exact fun _ => ⟨hnone, fun e he => hle e ((htook e).mp he)⟩
  · intro e he hmax
    obtain rfl : e = call.ownerEpoch :=
      le_antisymm (hle e ((htook e).mp he)) (hmax _ ((htook _).mpr hself))
    exact .inr hnone

/-- What a turn that has not asked for the state can do. -/
theorem early_next {phase : Phase} (ha : Answers D t h w op r w')
    (hop : Phase.Allows (D.host h) call phase op) (hearly : ¬ phase.Started)
    (htake : op.isTake = false) :
    ¬ (phase.next (D.host h) call op r).Started ∧ w'.caches = w.caches ∧
      (phase.next (D.host h) call op r = phase ∧ w'.gates = w.gates ∨
        phase = .waiting ∧ w.gates h call.request.object = none ∧
          w'.gates h call.request.object = some t) := by
  cases hop with
  | accepting => cases ha with | accepting b => exact ⟨hearly, rfl, .inl ⟨rfl, rfl⟩⟩
  | admission =>
    cases ha with
    | notAdmitted hr =>
      rcases r with e | _ | _
      · exact ⟨hearly, rfl, .inl ⟨rfl, rfl⟩⟩
      · exact absurd rfl hr
      · exact ⟨hearly, rfl, .inl ⟨rfl, rfl⟩⟩
    | acquired hg => exact ⟨id, rfl, .inr ⟨rfl, hg, by simp [World.setGate]⟩⟩
  | recheck => cases ha with | accepting b => exact ⟨hearly, rfl, .inl ⟨rfl, rfl⟩⟩
  | take => cases htake
  | _ => exact absurd trivial hearly

theorem OwnerOk.call_early (hk : OwnerOk D h o s) (hok : ClusterOk D s)
    (ht : s.turns t = some ((h, call), .call op next)) (ha : Answers D t h s.world op r w')
    (ho : call.request.object = o) (hearly : ¬ (s.world.phase D t h call).Started) (htake : op.isTake = false) :
    OwnerOk D h o (s.answered t h call op r next w') := by
  obtain ⟨hcalls, -, hwp⟩ := hok.turns t h call _ ht
  have hout := answers_outside ha
  obtain ⟨hearly', hcaches, hgates⟩ := early_next ha hwp.1 hearly htake
  subst ho
  refine hk.frame _ ?_ (congrFun (congrFun hcaches h) _) ?_ ?_ ?_ ?_ ?_
  · intro _ _ _ _ _ hg
    rcases hgates with ⟨-, hsame⟩ | ⟨-, hfree, -⟩
    · exact (congrFun (congrFun hsame h) _).trans hg
    · rw [hfree] at hg; cases hg
  · intro j call' p hj ho'
    by_cases hjt : j = t
    · subst hjt
      simp only [ClusterState.answered, Function.update_self, Option.some.injEq, Prod.mk.injEq] at hj
      obtain ⟨⟨-, rfl⟩, -⟩ := hj
      rw [phase_answered ha]
      refine .inl ⟨hearly', fun hw => ?_⟩
      rcases hgates with ⟨hph, hsame⟩ | ⟨-, -, hg⟩
      · rw [hph] at hw
        exact (congrFun (congrFun hsame h) _).trans (hk.gate j call _ ht rfl hw)
      · exact hg
    · simp only [ClusterState.answered, Function.update_of_ne hjt] at hj
      exact .inr ⟨⟨p, hj⟩, phase_answered_ne ha hjt⟩
  · intro j call' p hj _ hne
    have hjt : j ≠ t := by
      rintro rfl
      cases ht.symm.trans hj
      obtain ⟨c, hc⟩ := Option.ne_none_iff_exists'.mp hne
      exact hearly (Phase.taken_of_held hc).started
    exact ⟨⟨p, by simp only [ClusterState.answered, Function.update_of_ne hjt, hj]⟩, phase_answered_ne ha hjt⟩
  · intro e
    refine (took_call ha hcalls e).trans (or_iff_left ?_)
    rw [htake]
    simp
  · intro q hq _ _
    change q ∈ w'.sent at hq
    rwa [hout.sent] at hq
  · change s.world.observed ⊆ w'.observed
    rw [hout.observed]
    exact fun _ => id

/-- Every call, if the state is taken in the order of the epochs. -/
theorem ownerOk_call {h₀ : HostId} (hk : OwnerOk D h o s) (hok : ClusterOk D s)
    (ht : s.turns t = some ((h₀, call), .call op next)) (ha : Answers D t h₀ s.world op r w')
    (horder : h₀ = h → op.isTake → ∀ e, s.world.Took h call.request.object e → e ≤ call.ownerEpoch) :
    OwnerOk D h o (s.answered t h₀ call op r next w') := by
  by_cases hown : h = h₀ ∧ o = call.request.object
  swap
  · exact hk.call_other hok ht ha hown
  obtain ⟨rfl, ho⟩ := hown
  have hop := (hok.turns t h call _ ht).2.2.1
  by_cases htake : op.isTake
  · cases op with
    | takeCachedState o' => exact hk.call_take hok ht ha ho.symm (by rw [ho]; exact horder rfl rfl)
    | _ => cases htake
  · rw [Bool.not_eq_true] at htake
    by_cases hearly : (s.world.phase D t h call).Started
    swap
    · exact hk.call_early hok ht ha ho.symm hearly htake
    · cases hc : (s.world.phase D t h call).held with
      | none =>
        -- the only call with nothing in hand reads the snapshot
        generalize hph : s.world.phase D t h call = phase at hop hearly hc
        cases hop with
        | read => exact hk.call_read hok ht ha ho.symm hph
        | accepting => exact hearly.elim
        | admission => exact hearly.elim
        | recheck => exact hearly.elim
        | take => exact hearly.elim
        | _ => cases hc
      | some c =>
        by_cases hstore : ∃ o' c', op = .storeCachedState o' c'
        · obtain ⟨o', c', rfl⟩ := hstore
          exact hk.call_store hok ht ha ho.symm
        · exact hk.call_held hok ht ha ho.symm hc fun o' c' heq => hstore ⟨o', c', heq⟩

end Call

/-! ### Other steps -/

variable {s s' : ClusterState}

/-- A commit is for the state in hand, which is pending. -/
theorem commit_held {phase : Phase} {sessionId : String} {q : StateCommitRequest}
    (hphase : PhaseOk D w t h call phase) (hop : Phase.Allows (D.host h) call phase op)
    (hq : commitRequest sessionId op = some q) :
    ∃ c, phase.held = some c ∧ q.object = call.request.object ∧ q.owner = h ∧ q.ownerEpoch = c.ownerEpoch ∧
      q.expectedVersion = c.stateVersion ∧ c.pending ≠ none := by
  cases hop with
  | settle hp hc =>
    rw [Phase.Commits, D.host_id] at hc
    subst hc
    cases hq
    exact ⟨_, rfl, rfl, rfl, rfl, rfl, by rw [hp]; simp⟩
  | commit hc =>
    rw [Phase.Commits, D.host_id] at hc
    subst hc
    cases hq
    exact ⟨_, rfl, rfl, rfl, rfl, rfl, by simp [CachedActorState.uploaded]⟩
  | execute => rw [commitRequest_executionOp] at hq; cases hq
  | _ => cases hq

theorem ownerOk_send {h₀ : HostId} {next : op.Res → HostM TurnAnswer} {q : StateCommitRequest}
    (hk : OwnerOk D h o s) (hok : ClusterOk D s) (ht : s.turns t = some ((h₀, call), .call op next))
    (hq : commitRequest (s.world.sessions h₀) op = some q) :
    OwnerOk D h o { s with world := { s.world with sent := s.world.sent ++ [q] } } := by
  obtain ⟨hcalls, -, hwp⟩ := hok.turns t h₀ call _ ht
  have hphase := (hok.phases t h₀ call (.inl (by rw [ht]; simp)) hcalls).1
  obtain ⟨c, hc, hqo, hqh, hqe, hqv, hpend⟩ := commit_held hphase hwp.1 hq
  by_cases hown : q.object = o ∧ q.owner = h
  swap
  · refine hk.frame ({ s with world := { s.world with sent := s.world.sent ++ [q] } })
      (fun _ _ _ _ _ => id) rfl (fun _ _ p ht _ => .inr ⟨⟨p, ht⟩, rfl⟩) (fun _ _ p ht _ _ => ⟨⟨p, ht⟩, rfl⟩)
      (fun _ => Iff.rfl) ?_ (fun _ => id)
    intro q' hm ho hh
    rcases List.mem_append.mp hm with hm | hm
    · exact hm
    · rw [List.mem_singleton.mp hm] at ho hh
      exact absurd ⟨ho, hh⟩ hown
  obtain ⟨rfl, rfl⟩ := hown
  rw [hqh] at hk ⊢
  have hstate := HasState.turn (o := q.object) ht hqo.symm hc
  have htaken := Phase.taken_of_held hc
  refine ⟨hk.gate, hk.alone, ?_, ?_, ?_, ?_⟩
  · intro c' hc'
    have hc'' : HasState D h₀ q.object s c' := by
      cases hc' with
      | cache hc' => exact .cache hc'
      | turn hj ho hc' => exact .turn hj ho hc'
    obtain ⟨htook, hnew, hobs, hcov⟩ := hk.state c' hc''
    refine ⟨htook, hnew, hobs, ?_⟩
    intro q' hm ho hh he
    rcases List.mem_append.mp hm with hm | hm
    · exact hcov q' hm ho hh he
    · rw [List.mem_singleton.mp hm]
      rcases hk.slot ht hqo.symm htaken.started.ne_waiting hc'' with hcache | hheld
      · rw [hk.alone t call _ ht hqo.symm htaken] at hcache
        cases hcache
      · cases hc.symm.trans hheld
        exact .inr ⟨hqv, hpend⟩
  · intro j call' p hj ho hl
    -- the turn that sends has the gate
    have hgate := hk.gate t call _ ht hqo.symm htaken.started.ne_waiting
    have hl' : s.world.phase D j h₀ call' = .loading := hl
    have hgate' := hk.gate j call' p hj ho (by rw [hl']; simp)
    rw [hgate, Option.some.injEq] at hgate'
    subst hgate'
    cases ht.symm.trans hj
    rw [hl'] at hc
    cases hc
  · intro q' hm ho hh
    rcases List.mem_append.mp hm with hm | hm
    · exact hk.sent q' hm ho hh
    · rw [List.mem_singleton.mp hm, hqe]
      exact (hk.state c hstate).taken
  · intro e he hmax
    by_cases heq : c.ownerEpoch = e
    · exact .inl ⟨c, .turn ht hqo.symm hc, heq⟩
    · rcases hk.lost e he hmax with ⟨c', hc', hce⟩ | hn
      · refine .inl ⟨c', ?_, hce⟩
        cases hc' with
        | cache hc' => exact .cache hc'
        | turn hj ho hc' => exact .turn hj ho hc'
      · refine .inr fun q' hm ho hh => ?_
        rcases List.mem_append.mp hm with hm | hm
        · exact hn q' hm ho hh
        · rw [List.mem_singleton.mp hm, hqe]
          exact heq

theorem release_gate {h₀ : HostId} {o₀ : ActorStorageKey} {j : ℕ} (hg : w.gates h o = some j) (hj : j ≠ t) :
    (w.release h₀ o₀ t).gates h o = some j := by
  unfold World.release
  split_ifs with heq
  · have hne : ¬ (h = h₀ ∧ o = o₀) := by
      rintro ⟨rfl, rfl⟩
      rw [hg, Option.some.injEq] at heq
      exact hj heq
    simp only [World.setGate]
    by_cases hh : h = h₀
    · subst hh
      rwa [Function.update_self, Function.update_of_ne fun ho => hne ⟨rfl, ho⟩]
    · rwa [Function.update_of_ne hh]
  · exact hg

/-- A turn with nothing in its hands goes away. -/
theorem ownerOk_gone {h₀ : HostId} {p : HostM TurnAnswer} (hk : OwnerOk D h o s)
    (ht : s.turns t = some ((h₀, call), p)) (answers : ℕ → Option TurnAnswer)
    (hfree : h₀ = h → (s.world.phase D t h call).held = none) :
    OwnerOk D h o ⟨{ s.world.release h₀ call.request.object t with answers := answers },
      Function.update s.turns t none⟩ := by
  have hrel : ∀ h' o' j, s.world.gates h' o' = some j → j ≠ t →
      (s.world.release h₀ call.request.object t).gates h' o' = some j := fun _ _ _ => release_gate
  obtain ⟨gates, hg⟩ := release_eq s.world h₀ call.request.object t
  rw [hg] at hrel ⊢
  refine hk.frame (⟨{ s.world with gates := gates, answers := answers }, Function.update s.turns t none⟩)
    ?_ rfl ?_ ?_ (fun _ => Iff.rfl) (fun _ hq _ _ => hq) (fun _ => id)
  · intro j call' p' hj _ hgate
    exact hrel h o j hgate (update_none_eq_some hj).2
  · intro j call' p' hj _
    exact .inr ⟨⟨p', (update_none_eq_some hj).1⟩, rfl⟩
  · intro j call' p' hj _ hne
    have hjt : j ≠ t := by
      rintro rfl
      cases ht.symm.trans hj
      exact hne (hfree rfl)
    exact ⟨⟨p', by simp [hjt, hj]⟩, rfl⟩

theorem ownerOk_arrive {h₀ : HostId} (hk : OwnerOk D h o s) (hok : ClusterOk D s)
    (hfree : s.world.calls t = none) :
    OwnerOk D h o ⟨{ s.world with calls := Function.update s.world.calls t (some (h₀, call)) },
      Function.update s.turns t (some ((h₀, call), call.program (D.host h₀)))⟩ := by
  obtain ⟨hturn, -, htr, -⟩ := hok.unused t hfree
  refine hk.frame (⟨{ s.world with calls := Function.update s.world.calls t (some (h₀, call)) },
      Function.update s.turns t (some ((h₀, call), call.program (D.host h₀)))⟩) (fun _ _ _ _ _ => id) rfl ?_ ?_ ?_
    (fun _ hq _ _ => hq) (fun _ => id)
  · intro j call' p hj _
    by_cases hjt : j = t
    · subst hjt
      have hwait : s.world.phase D j h call' = .waiting := by simp [World.phase, htr, Phase.after]
      refine .inl ⟨?_, fun hne => absurd hwait hne⟩
      change ¬ (s.world.phase D j h call').Started
      rw [hwait]
      exact id
    · exact .inr ⟨⟨p, by simpa [hjt] using hj⟩, rfl⟩
  · intro j call' p hj _ _
    have hjt : j ≠ t := by
      rintro rfl
      rw [hturn] at hj
      cases hj
    exact ⟨⟨p, by simp [hjt, hj]⟩, rfl⟩
  · intro e
    constructor
    · rintro ⟨j, call', ev, hc, hrest, he, hm, htake⟩
      have hjt : j ≠ t := by
        rintro rfl
        change ev ∈ s.world.trace j at hm
        rw [htr] at hm
        cases hm
      exact ⟨j, call', ev, by simpa [hjt] using hc, hrest, he, hm, htake⟩
    · rintro ⟨j, call', ev, hc, hrest, he, hm, htake⟩
      have hjt : j ≠ t := by
        rintro rfl
        rw [hfree] at hc
        cases hc
      exact ⟨j, call', ev, by simpa [hjt] using hc, hrest, he, hm, htake⟩

/-- The steps under which host `h` keeps its states: a request takes a state only if no
newer epoch has taken it before, a turn is not dropped with the state in its hands, and
the host is not restarted. -/
def InOrder (D : Deployment) (h : HostId) (s : ClusterState) (e : ClusterEvent) (_ : ClusterState) : Prop :=
  match e with
  | .call t op => ∀ call p, s.turns t = some ((h, call), p) → op.isTake →
      ∀ epoch, s.world.Took h call.request.object epoch → epoch ≤ call.ownerEpoch
  | .drop t => ∀ call p, s.turns t = some ((h, call), p) → (s.world.phase D t h call).held = none
  | .restart h' _ => h' ≠ h
  | _ => True

theorem ownerOk_step {e : ClusterEvent} (hk : OwnerOk D h o s) (hok : ClusterOk D s)
    (hs : ClusterStep D s e s') (hin : InOrder D h s e s') : OwnerOk D h o s' := by
  cases hs with
  | observe hrow =>
    exact hk.frame ({ s with world := { s.world with observed := s.world.observed ++ _ } })
      (fun _ _ _ _ _ => id) rfl (fun _ _ p ht _ => .inr ⟨⟨p, ht⟩, rfl⟩) (fun _ _ p ht _ _ => ⟨⟨p, ht⟩, rfl⟩)
      (fun _ => Iff.rfl) (fun _ hq _ _ => hq) (List.subset_append_left _ _)
  | arrive hfree _ => exact ownerOk_arrive hk hok hfree
  | call ht ha => exact ownerOk_call hk hok ht ha fun heq => by subst heq; exact hin _ _ ht
  | send ht hq => exact ownerOk_send hk hok ht hq
  | store _ _ =>
    exact hk.frame ({ s with world := { s.world with store := _, committed := _ } })
      (fun _ _ _ _ _ => id) rfl (fun _ _ p ht _ => .inr ⟨⟨p, ht⟩, rfl⟩) (fun _ _ p ht _ _ => ⟨⟨p, ht⟩, rfl⟩)
      (fun _ => Iff.rfl) (fun _ hq _ _ => hq) (fun _ => id)
  | land _ =>
    exact hk.frame ({ s with world := s.world.land _ })
      (fun _ _ _ _ _ => id) rfl (fun _ _ p ht _ => .inr ⟨⟨p, ht⟩, rfl⟩) (fun _ _ p ht _ _ => ⟨⟨p, ht⟩, rfl⟩)
      (fun _ => Iff.rfl) (fun _ hq _ _ => hq) (fun _ => id)
  | finish ht =>
    refine ownerOk_gone hk ht _ fun heq => ?_
    subst heq
    have hret := (hok.turns _ _ _ _ ht).2.2
    change Phase.Returns _ (World.phase D s.world _ _ _) _ at hret
    generalize World.phase D s.world _ _ _ = phase at hret ⊢
    cases phase <;> first | rfl | exact hret.elim
  | drop ht =>
    rename_i t h₀ call p
    refine ownerOk_gone hk ht (s.world.release h₀ call.request.object t).answers fun heq => ?_
    subst heq
    exact hin call p ht
  | restart sessionId _ =>
    have hne : h ≠ _ := fun heq => hin heq.symm
    exact hk.frame ({ s with world := { s.world with caches := _, sessions := _ } })
      (fun _ _ _ _ _ => id) (by simp [hne]) (fun _ _ p ht _ => .inr ⟨⟨p, ht⟩, rfl⟩)
      (fun _ _ p ht _ _ => ⟨⟨p, ht⟩, rfl⟩) (fun _ => Iff.rfl) (fun _ hq _ _ => hq) (fun _ => id)

theorem ownerOk_init (hs : (clusterSystem D).init s) : OwnerOk D h o s := by
  obtain ⟨sessions, rfl⟩ := hs
  refine ⟨nofun, nofun, ?_, nofun, nofun, ?_⟩
  · rintro c (hc | ⟨ht, -, -⟩)
    · cases hc
    · cases ht
  · rintro e ⟨t, call, ev, hc, -⟩
    cases hc

end LDO
