import DurableObjects.Sanity.Gateway
import DurableObjects.Sanity.Registry

/-! What holds in every run of the gateway. An identifier belongs to the task that drew
it, an entry of the registry to the task whose identifier it is filed under, and an open
entry to a task that has opened it; so what a task may do can be read off its own trace. -/

namespace LDO

open Prog Gateway

variable {serde : SerdeJson} {s s' : GatewayState} {t : ℕ}

/-- What is known when a task, or its stage, is over. -/
def TaskEnd : GatewayTask → List GatewayEvent → Stage → Prop
  | .connection _ stage, tr, stage' => StageEnd stage tr stage'
  | .applyEffects .., _, _ => True

/-- An entry is filed under an identifier of the task that receives from it. -/
structure RegisteredOk (w : GatewayWorld) (id : String) (entry : RegisteredSocket) : Prop where
  key : entry.connection.id = id
  drew : Drew (w.trace entry.outbound) id
  activated : entry.isOpen = true → Activated (w.trace entry.outbound)

structure GatewayOk (s : GatewayState) : Prop where
  tasks : ∀ t task p, s.tasks t = some (task, p) →
    wp (traceEnv t fun _ e => Sound e) p (fun stage tr => TaskEnd task tr stage) (s.world.trace t)
  unused : ∀ t, s.tasks t = none → s.world.trace t = []
  activated : ∀ t access stage p, s.tasks t = some (.connection access stage, p) → stage ≠ .opening →
    Activated (s.world.trace t)
  posts : ∀ t actor effects p, s.tasks t = some (.applyEffects actor effects, p) →
    Calls Applying p ∧ Extends Applying [] (s.world.trace t)
  history : ∀ t before e later, s.world.trace t = before ++ e :: later → CallOk t before e.op
  drew : ∀ t id, Drew (s.world.trace t) id → s.world.ids id = some t
  completed : ∀ t invocation effects, CompletedIn (s.world.trace t) invocation effects →
    invocation.requestId ∈ s.world.executed
  entries : ∀ actor id entry, s.world.registry.entry actor id = some entry → RegisteredOk s.world id entry
  chosen : ∀ t channel, Chosen (s.world.trace t) channel → Activated (s.world.trace channel)

theorem GatewayOk.drew_inj (hok : GatewayOk s) {t' : ℕ} {id : String} (h : Drew (s.world.trace t) id)
    (h' : Drew (s.world.trace t') id) : t = t' :=
  Option.some.inj ((hok.drew t id h).symm.trans (hok.drew t' id h'))

/-! ### One call -/

section Call

variable {task : GatewayTask} {op : GatewayOp} {next : op.Res → GatewayM Stage} {r : op.Res} {w : GatewayWorld}

/-- The state after task `t` was answered. -/
def GatewayState.answered (s : GatewayState) (t : ℕ) (task : GatewayTask) (op : GatewayOp) (r : op.Res)
    (next : op.Res → GatewayM Stage) : GatewayState :=
  ⟨(s.world.after t op r).log t ⟨op, r⟩, Function.update s.tasks t (some (task, next r))⟩

/-- What a call leaves alone. -/
theorem after_same (w : GatewayWorld) (t : ℕ) (op : GatewayOp) (r : op.Res) :
    (w.after t op r).trace = w.trace ∧ (w.after t op r).executed = w.executed ∧
      (w.after t op r).committed = w.committed := by
  cases op with
  | select => cases r <;> exact ⟨rfl, rfl, rfl⟩
  | _ => exact ⟨rfl, rfl, rfl⟩

theorem trace_answered (s : GatewayState) (t : ℕ) (task : GatewayTask) (op : GatewayOp) (r : op.Res)
    (next : op.Res → GatewayM Stage) : (s.answered t task op r next).world.trace t =
      s.world.trace t ++ [⟨op, r⟩] := by
  simp [GatewayState.answered, GatewayWorld.log, (after_same s.world t op r).1]

theorem trace_answered_ne {j : ℕ} (hj : j ≠ t) :
    (s.answered t task op r next).world.trace j = s.world.trace j := by
  simp [GatewayState.answered, GatewayWorld.log, (after_same s.world t op r).1, hj]

theorem trace_subset (s : GatewayState) (t : ℕ) (task : GatewayTask) (op : GatewayOp) (r : op.Res)
    (next : op.Res → GatewayM Stage) (j : ℕ) :
    s.world.trace j ⊆ (s.answered t task op r next).world.trace j := by
  by_cases hj : j = t
  · subst hj
    rw [trace_answered]
    exact List.subset_append_left _ _
  · rw [trace_answered_ne hj]
    exact List.Subset.refl _

/-- An event in a trace was there before, or it is the new one. -/
theorem mem_trace_answered {j : ℕ} {e : GatewayEvent} (h : e ∈ (s.answered t task op r next).world.trace j) :
    e ∈ s.world.trace j ∨ j = t ∧ e = ⟨op, r⟩ := by
  by_cases hj : j = t
  · subst hj
    rw [trace_answered] at h
    rcases List.mem_append.mp h with h | h
    · exact .inl h
    · exact .inr ⟨rfl, List.mem_singleton.mp h⟩
  · rw [trace_answered_ne hj] at h
    exact .inl h

theorem RegisteredOk.mono {w' : GatewayWorld} {id : String} {entry : RegisteredSocket}
    (h : RegisteredOk w id entry) (hsub : ∀ j, w.trace j ⊆ w'.trace j) : RegisteredOk w' id entry := by
  refine ⟨h.key, h.drew.mono (hsub _), fun hopen => ?_⟩
  obtain ⟨actor, id', hm⟩ := h.activated hopen
  exact ⟨actor, id', hsub _ hm⟩

theorem sound_of_allows (hok : GatewayOk s) (ha : s.world.Allows t op r) : Sound ⟨op, r⟩ := by
  cases op with
  | remove actor id =>
    intro connection hr
    have hremoved : r = (s.world.registry.remove actor id).1 := ha
    rw [hremoved, SocketRegistry.removed_eq] at hr
    obtain ⟨entry, hentry, rfl⟩ := Option.map_eq_some_iff.mp hr
    exact (hok.entries actor id entry hentry).key
  | _ => trivial

/-- The entry of a connection after a call. -/
theorem entries_answered (hok : GatewayOk s) (hcall : CallOk t (s.world.trace t) op)
    (actor : ActorKey) (id : String) (entry : RegisteredSocket)
    (h : (s.answered t task op r next).world.registry.entry actor id = some entry) :
    RegisteredOk (s.answered t task op r next).world id entry := by
  have hsub := trace_subset s t task op r next
  have hold : s.world.registry.entry actor id = some entry →
      RegisteredOk (s.answered t task op r next).world id entry :=
    fun h => (hok.entries actor id entry h).mono hsub
  cases op with
  | insert actor' connection outbound triggerId =>
    change (s.world.registry.insert actor' connection outbound triggerId).2.entry actor id = some entry at h
    cases hinserted : (s.world.registry.insert actor' connection outbound triggerId).1 with
    | false => exact hold ((SocketRegistry.entry_insert_full hinserted actor id).symm.trans h)
    | true =>
      rw [SocketRegistry.entry_insert hinserted] at h
      split_ifs at h with hkey
      · cases h
        obtain ⟨rfl, hdrew⟩ := hcall
        obtain ⟨-, rfl⟩ := hkey
        exact ⟨rfl, hdrew.mono (hsub outbound), fun hopen => by cases hopen⟩
      · exact hold h
  | remove actor' connectionId =>
    change (s.world.registry.remove actor' connectionId).2.entry actor id = some entry at h
    rw [SocketRegistry.entry_remove] at h
    split_ifs at h
    exact hold h
  | setMetadata actor' connectionId metadata =>
    change (s.world.registry.setMetadata actor' connectionId metadata).entry actor id = some entry at h
    rw [SocketRegistry.setMetadata, SocketRegistry.entry_modify] at h
    split_ifs at h
    · obtain ⟨entry', hentry, rfl⟩ := Option.map_eq_some_iff.mp h
      obtain ⟨hkey, hdrew, hact⟩ := (hok.entries actor id entry' hentry).mono hsub
      exact ⟨hkey, hdrew, hact⟩
    · exact hold h
  | setTags actor' connectionId tags =>
    change (s.world.registry.setTags actor' connectionId tags).entry actor id = some entry at h
    rw [SocketRegistry.setTags, SocketRegistry.entry_modify] at h
    split_ifs at h
    · obtain ⟨entry', hentry, rfl⟩ := Option.map_eq_some_iff.mp h
      obtain ⟨hkey, hdrew, hact⟩ := (hok.entries actor id entry' hentry).mono hsub
      exact ⟨hkey, hdrew, hact⟩
    · exact hold h
  | activate actor' connectionId =>
    change (s.world.registry.activate actor' connectionId).entry actor id = some entry at h
    rw [SocketRegistry.activate, SocketRegistry.entry_modify] at h
    split_ifs at h with hkey
    · obtain ⟨entry', hentry, rfl⟩ := Option.map_eq_some_iff.mp h
      have hentry' := hok.entries actor id entry' hentry
      obtain ⟨-, rfl⟩ := hkey
      -- the entry belongs to the task that drew its identifier, which is the one that opens it
      have hself : entry'.outbound = t := hok.drew_inj hentry'.drew hcall.1
      refine ⟨hentry'.key, hentry'.drew.mono (hsub _), fun _ => ⟨actor', id, ?_⟩⟩
      change _ ∈ (s.answered t task (.activate actor' id) r next).world.trace entry'.outbound
      rw [hself, trace_answered]
      simp
    · exact hold h
  | select => cases r <;> exact hold h
  | _ => exact hold h

/-- An identifier that was drawn is never drawn again. -/
theorem ids_answered {j : ℕ} {id : String} (ha : s.world.Allows t op r) (h : s.world.ids id = some j) :
    (s.answered t task op r next).world.ids id = some j := by
  cases op with
  | newUuid =>
    have hne : id ≠ r := by
      rintro rfl
      cases (show s.world.ids id = none from ha).symm.trans h
    change Function.update s.world.ids r (some t) id = some j
    rw [Function.update_of_ne hne, h]
  | select => cases r <;> exact h
  | _ => exact h

theorem gatewayOk_call (hok : GatewayOk s) (ht : s.tasks t = some (task, .call op next))
    (ha : s.world.Allows t op r) :
    GatewayOk (s.answered t task op r next) := by
  have hwp := hok.tasks t task _ ht
  have hcall : CallOk t (s.world.trace t) op := hwp.1
  have hsub := trace_subset s t task op r next
  refine ⟨?_, ?_, ?_, ?_, ?_, ?_, ?_, entries_answered hok hcall, ?_⟩
  · intro j task' p hj
    by_cases hjt : j = t
    · subst hjt
      obtain ⟨rfl, rfl⟩ : task = task' ∧ next r = p := by simpa [GatewayState.answered] using hj
      exact hwp.2 r _ ⟨sound_of_allows hok ha, trace_answered s j task op r next⟩
    · rw [trace_answered_ne hjt]
      exact hok.tasks j task' p (by simpa [GatewayState.answered, hjt] using hj)
  · intro j hj
    have hjt : j ≠ t := by
      rintro rfl
      simp [GatewayState.answered] at hj
    rw [trace_answered_ne hjt]
    exact hok.unused j (by simpa [GatewayState.answered, hjt] using hj)
  · intro j access stage p hj hne
    by_cases hjt : j = t
    · subst hjt
      obtain ⟨rfl, -⟩ : task = .connection access stage ∧ next r = p :=
        by simpa [GatewayState.answered] using hj
      exact (hok.activated j access stage _ ht hne).mono (hsub j)
    · exact (hok.activated j access stage p (by simpa [GatewayState.answered, hjt] using hj) hne).mono (hsub j)
  · intro j actor effects p hj
    by_cases hjt : j = t
    · subst hjt
      obtain ⟨rfl, rfl⟩ : task = .applyEffects actor effects ∧ next r = p := by
        simpa [GatewayState.answered] using hj
      obtain ⟨hcalls, hext⟩ := hok.posts j actor effects _ ht
      rw [trace_answered]
      exact ⟨hcalls.2 r, hext.snoc hcalls.1⟩
    · rw [trace_answered_ne hjt]
      exact hok.posts j actor effects p (by simpa [GatewayState.answered, hjt] using hj)
  · intro j before e later heq
    by_cases hjt : j = t
    · subst hjt
      rw [trace_answered] at heq
      rcases List.eq_nil_or_concat later with rfl | ⟨later', e', rfl⟩
      · obtain ⟨rfl, rfl⟩ := List.append_inj' heq rfl |>.imp_right List.singleton_inj.mp
        exact hcall
      · rw [List.concat_eq_append, ← List.cons_append, ← List.append_assoc] at heq
        exact hok.history j before e later' (List.append_inj' heq rfl).1
    · rw [trace_answered_ne hjt] at heq
      exact hok.history j before e later heq
  · intro j id hdrew
    rcases mem_trace_answered hdrew with hdrew | ⟨rfl, heq⟩
    · exact ids_answered ha (hok.drew j id hdrew)
    · cases heq
      simp [GatewayState.answered, GatewayWorld.after, GatewayWorld.log]
  · rintro j invocation effects ⟨target, result, hm⟩
    change invocation.requestId ∈ (s.world.after t op r).executed
    rw [(after_same s.world t op r).2.1]
    rcases mem_trace_answered hm with hm | ⟨rfl, heq⟩
    · exact hok.completed j invocation effects ⟨target, result, hm⟩
    · cases heq
      exact ha
  · rintro j channel ⟨actor, exceptConnectionIds, tags, recipients, hm, hc⟩
    have hactivated : Activated (s.world.trace channel) := by
      rcases mem_trace_answered hm with hm | ⟨rfl, heq⟩
      · exact hok.chosen j channel ⟨actor, exceptConnectionIds, tags, recipients, hm, hc⟩
      · cases heq
        obtain ⟨id, entry, hentry, hreceives, rfl⟩ :=
          SocketRegistry.entry_of_recipient ((List.Perm.mem_iff ha).mp hc)
        have hopen : entry.isOpen = true := by
          simp only [RegisteredSocket.receives, Bool.and_eq_true] at hreceives
          exact hreceives.1.1
        exact (hok.entries actor id entry hentry).activated hopen
    obtain ⟨actor', id, hm'⟩ := hactivated
    exact ⟨actor', id, hsub channel hm'⟩

end Call

/-! ### The other steps -/

/-- What is known of one task. -/
structure TaskOk (t : ℕ) (task : GatewayTask) (p : GatewayM Stage) (tr : List GatewayEvent) : Prop where
  wp : wp (traceEnv t fun _ e => Sound e) p (fun stage tr => TaskEnd task tr stage) tr
  activated : ∀ access stage, task = .connection access stage → stage ≠ .opening → Activated tr
  posts : ∀ actor effects, task = .applyEffects actor effects → Calls Applying p ∧ Extends Applying [] tr

theorem GatewayOk.taskOk (hok : GatewayOk s) {task : GatewayTask} {p : GatewayM Stage}
    (ht : s.tasks t = some (task, p)) :
    TaskOk t task p (s.world.trace t) := by
  refine ⟨hok.tasks t task p ht, ?_, ?_⟩
  · rintro access stage rfl
    exact hok.activated t access stage p ht
  · rintro actor effects rfl
    exact hok.posts t actor effects p ht

/-- A step that calls nothing: a task starts, goes on or is dropped, or a host moves. -/
theorem GatewayOk.frame (hok : GatewayOk s) (s' : GatewayState) (htrace : s'.world.trace = s.world.trace)
    (hids : s'.world.ids = s.world.ids) (hregistry : s'.world.registry = s.world.registry)
    (hexecuted : s.world.executed ⊆ s'.world.executed)
    (htasks : ∀ t task p, s'.tasks t = some (task, p) →
      TaskOk t task p (s.world.trace t))
    (hunused : ∀ t, s'.tasks t = none → s.tasks t = none) : GatewayOk s' := by
  refine ⟨?_, ?_, ?_, ?_, ?_, ?_, ?_, ?_, ?_⟩
  · rw [htrace]; exact fun t task p ht => (htasks t task p ht).wp
  · rw [htrace]; exact fun t ht => hok.unused t (hunused t ht)
  · rw [htrace]; exact fun t access stage p ht hne => (htasks t _ p ht).activated access stage rfl hne
  · rw [htrace]; exact fun t actor effects p ht => (htasks t _ p ht).posts actor effects rfl
  · rw [htrace]; exact hok.history
  · rw [htrace, hids]; exact hok.drew
  · rw [htrace]; exact fun t invocation effects hc => hexecuted (hok.completed t invocation effects hc)
  · intro actor id entry hentry
    rw [hregistry] at hentry
    exact (hok.entries actor id entry hentry).mono fun j => by rw [htrace]; exact List.Subset.refl _
  · rw [htrace]; exact hok.chosen

/-- One task has a new program. -/
theorem GatewayOk.setTask (hok : GatewayOk s) (task : GatewayTask) (p : GatewayM Stage)
    (hp : TaskOk t task p (s.world.trace t)) :
    GatewayOk { s with tasks := Function.update s.tasks t (some (task, p)) } := by
  refine hok.frame _ rfl rfl rfl (List.Subset.refl _) ?_ ?_
  · intro j task' p' hj
    by_cases hjt : j = t
    · subst hjt
      obtain ⟨rfl, rfl⟩ : task = task' ∧ p = p' := by simpa using hj
      exact hp
    · exact hok.taskOk (by simpa [hjt] using hj)
  · intro j hj
    have hjt : j ≠ t := by
      rintro rfl
      simp at hj
    simpa [hjt] using hj

theorem gatewayOk_step {e : GatewayMove} (hok : GatewayOk s) (hs : GatewayStep serde s e s') :
    GatewayOk s' := by
  cases hs with
  | connect access hfree =>
    refine hok.setTask _ _ ⟨?_, ?_, ?_⟩
    · rw [hok.unused _ hfree]
      exact wp_openConnection serde access fun _ _ h => h
    · intro _ _ h hne
      cases h
      exact (hne rfl).elim
    · exact fun _ _ h => by cases h
  | post hfree _ _ =>
    refine hok.setTask _ _ ⟨?_, ?_, ?_⟩
    · exact (wp_map _ _ _ _ _).mpr (wp_mono (wp_apply _ _) fun _ _ _ => trivial)
    · exact fun _ _ h => by cases h
    · intro _ _ _
      rw [hok.unused _ hfree]
      exact ⟨(calls_apply _ _).bind fun _ => trivial, .refl []⟩
  | call ht ha => exact gatewayOk_call hok ht ha
  | @proceed t access stage stage' ht hne =>
    have hend : StageEnd stage (s.world.trace t) stage' := hok.tasks t _ _ ht
    refine hok.setTask _ _ ⟨?_, ?_, ?_⟩
    · refine wp_runConnection serde _ (fun _ _ h => h) hne ?_ ?_ ?_
      · rintro rfl; exact hend.elim
      · rintro connection rfl; exact hend
      · rintro connection disconnect rfl; exact hend
    · intro access' stage'' h hne'
      cases h
      cases stage' with
      | opening => exact (hne' rfl).elim
      | serving connection => exact hend.activated
      | leaving connection disconnect => exact hend.activated
      | ended => exact (hne rfl).elim
    · exact fun _ _ h => by cases h
  | @drop t actor effects p ht _ =>
    refine hok.setTask _ _ ⟨trivial, ?_, ?_⟩
    · exact fun _ _ h => by cases h
    · exact fun _ _ _ => ⟨trivial, (hok.posts t actor effects p ht).2⟩
  | execute _ =>
    exact hok.frame _ rfl rfl rfl (List.subset_cons_self _ _) (fun _ _ _ => hok.taskOk) fun _ h => h
  | commit _ => exact hok.frame _ rfl rfl rfl (List.Subset.refl _) (fun _ _ _ => hok.taskOk) fun _ h => h

theorem gatewayOk_init : GatewayOk ⟨.empty, fun _ => none⟩ := by
  refine ⟨?_, fun _ _ => rfl, ?_, ?_, ?_, ?_, ?_, ?_, ?_⟩
  · intro t task p ht
    cases ht
  · intro t access stage p ht
    cases ht
  · intro t actor effects p ht
    cases ht
  · intro t before e later heq
    simp [GatewayWorld.empty] at heq
  · intro t id hdrew
    cases hdrew
  · rintro t invocation effects ⟨target, result, hm⟩
    cases hm
  · intro actor id entry hentry
    cases hentry
  · rintro t channel ⟨_, _, _, _, hm, -⟩
    cases hm

theorem gatewayOk_reachable (hs : (gatewaySystem serde).Reachable s) : GatewayOk s := by
  refine hs.invariant (I := GatewayOk) ?_ gatewayOk_step
  rintro s rfl
  exact gatewayOk_init

/-! ### What was sent -/

variable {invocation : ActorSocketInvocation}

/-- A sent event was allowed, when it was sent. -/
theorem GatewayOk.sent (hok : GatewayOk s) (hs : s.Sent t invocation) :
    ∃ before, before ⊆ s.world.trace t ∧ Drew before invocation.requestId ∧ EventOk before invocation := by
  rcases hs with ⟨target, r, hm⟩ | ⟨task, target, next, ht⟩
  · obtain ⟨before, later, heq⟩ := List.append_of_mem hm
    refine ⟨before, ?_, hok.history t before _ later heq⟩
    rw [heq]
    exact List.subset_append_left _ _
  · exact ⟨s.world.trace t, List.Subset.refl _, (hok.tasks t task _ ht).1⟩

/-- A request was sent by the task that drew its identifier. -/
theorem GatewayOk.request_task (hok : GatewayOk s) {t' : ℕ} {invocation' : ActorSocketInvocation}
    (hs : s.Sent t invocation) (hs' : s.Sent t' invocation')
    (hid : invocation.requestId = invocation'.requestId) :
    t = t' := by
  obtain ⟨before, hsub, hdrew, -⟩ := hok.sent hs
  obtain ⟨before', hsub', hdrew', -⟩ := hok.sent hs'
  rw [← hid] at hdrew'
  exact hok.drew_inj (hdrew.mono hsub) (hdrew'.mono hsub')

/-- A class of events of which a task sends one, as far as it can tell when it sends it. -/
theorem GatewayOk.sent_unique (hok : GatewayOk s) {P : ActorSocketInvocation → Prop}
    (hP : ∀ {before i j}, EventOk before i → P i → SentIn before j → P j → j = i)
    {invocation' : ActorSocketInvocation} (hs : s.Sent t invocation) (h : P invocation)
    (hs' : s.Sent t invocation')
    (h' : P invocation') : invocation = invocation' := by
  rcases hs with ⟨target, r, hm⟩ | ⟨task, target, next, ht⟩
  · rcases hs' with ⟨target', r', hm'⟩ | ⟨task', target', next', ht'⟩
    · -- of two answered sends, the later one was allowed only as a repetition of the earlier one
      obtain ⟨before, later, heq⟩ := List.append_of_mem hm
      have hevent : EventOk before invocation := (hok.history t before _ later heq).2
      rw [heq] at hm'
      rcases List.mem_append.mp hm' with hm' | hm'
      · exact (hP hevent h ⟨target', r', hm'⟩ h').symm
      · rcases List.mem_cons.mp hm' with heq' | hm'
        · cases heq'
          rfl
        · obtain ⟨middle, rest, rfl⟩ := List.append_of_mem hm'
          have heq' : s.world.trace t = (before ++ ⟨.sendSocketEvent target invocation, r⟩ :: middle) ++
              ⟨.sendSocketEvent target' invocation', r'⟩ :: rest := by rw [heq]; simp
          have hevent' : EventOk (before ++ ⟨.sendSocketEvent target invocation, r⟩ :: middle) invocation' :=
            (hok.history t _ _ _ heq').2
          exact hP hevent' h' ⟨target, r, by simp⟩ h
    · exact hP (hok.tasks t task' _ ht').1.2 h' ⟨target, r, hm⟩ h
  · have hevent : EventOk (s.world.trace t) invocation := (hok.tasks t task _ ht).1.2
    rcases hs' with ⟨target', r', hm'⟩ | ⟨task', target', next', ht'⟩
    · exact (hP hevent h ⟨target', r', hm'⟩ h').symm
    · cases ht.symm.trans ht'
      rfl

/-- A task says goodbye with one invocation. -/
theorem GatewayOk.disconnect_unique (hok : GatewayOk s) {invocation' : ActorSocketInvocation}
    (hs : s.Sent t invocation) (hd : invocation.IsDisconnect) (hs' : s.Sent t invocation')
    (hd' : invocation'.IsDisconnect) :
    invocation = invocation' := by
  refine hok.sent_unique (P := ActorSocketInvocation.IsDisconnect) ?_ hs hd hs' hd'
  rintro before i j hevent ⟨connection, code, reason, wasClean, heq⟩ hj hdj
  unfold EventOk at hevent
  rw [heq] at hevent
  exact hevent.2.2 j hj hdj

/-- A task connects with one invocation. -/
theorem GatewayOk.connect_unique (hok : GatewayOk s) {invocation' : ActorSocketInvocation}
    {connection connection' : ActorSocketConnection} (hs : s.Sent t invocation)
    (hc : invocation.event = .connect connection) (hs' : s.Sent t invocation')
    (hc' : invocation'.event = .connect connection') : invocation = invocation' := by
  refine hok.sent_unique (P := fun invocation => ∃ connection, invocation.event = .connect connection) ?_
    hs ⟨connection, hc⟩ hs' ⟨connection', hc'⟩
  rintro before i j hevent ⟨c, heq⟩ hj -
  unfold EventOk at hevent
  rw [heq] at hevent
  exact hevent.2.2.2 j hj

/-- A task that has opened its connection sends no connect event. -/
theorem GatewayOk.not_waiting (hok : GatewayOk s) {connection : ActorSocketConnection}
    (hact : Activated (s.world.trace t)) (hc : invocation.event = .connect connection) :
    ¬ s.Waiting t invocation := by
  rintro ⟨task, target, next, ht⟩
  have hevent : EventOk (s.world.trace t) invocation := (hok.tasks t task _ ht).1.2
  unfold EventOk at hevent
  rw [hc] at hevent
  exact hevent.2.2.1 hact

/-- No task with an empty trace sends a connect event. -/
theorem GatewayOk.not_waiting_new (hok : GatewayOk s) {connection : ActorSocketConnection}
    (hnew : s.world.trace t = []) (hc : invocation.event = .connect connection) : ¬ s.Waiting t invocation := by
  rintro ⟨task, target, next, ht⟩
  have hevent : EventOk (s.world.trace t) invocation := (hok.tasks t task _ ht).1.2
  unfold EventOk at hevent
  rw [hc, hnew] at hevent
  cases hevent.1

end LDO
