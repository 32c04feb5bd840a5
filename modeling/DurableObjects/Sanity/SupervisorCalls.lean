import DurableObjects.Sanity.Supervisor

/-! The calls of the worker supervisor. A call in flight is on the entry of its actor, which then has
no timer, or the worker it waits for has ended. -/

namespace LDO

variable {ι Thread : Type} [DecidableEq ι]

namespace ActorWorkerSupervisor

variable {supervisor supervisor' : ActorWorkerSupervisor ι Thread} {key : ActorKey} {r w now : ℕ} {h : ι} {phase : CallPhase}
  {envelope : ExecutorCommandEnvelope} {thrown : Option String} {code : WorkerCode Thread}

/-! ### The map under commands -/

omit [DecidableEq ι] in
theorem setResident_of_ne (resident : ResidentActorWorker) {r' : ℕ} (hne : r' ≠ r) :
    (supervisor.setResident r resident).residents r' = supervisor.residents r' := Function.update_of_ne hne ..

omit [DecidableEq ι] in
theorem setResident_key {resident : ResidentActorWorker}
    (hkey : resident.key = (supervisor.residents r).key) (r' : ℕ) :
    ((supervisor.setResident r resident).residents r').key = (supervisor.residents r').key := by
  rcases eq_or_ne r' r with rfl | hne
  · simpa [setResident] using hkey
  · rw [setResident_of_ne resident hne]

omit [DecidableEq ι] in
/-- Only a resident of the map may change its timer. -/
theorem Kept.setResident (hkept : supervisor.Kept) {resident : ResidentActorWorker}
    (hkey : resident.key = (supervisor.residents r).key)
    (hworker : resident.worker = (supervisor.residents r).worker)
    (htimer : ((supervisor.residents r).key, r) ∉ supervisor.actors → resident.idleTimer = (supervisor.residents r).idleTimer) :
    (supervisor.setResident r resident).Kept := by
  have hkeys : ∀ r', ((supervisor.setResident r resident).residents r').key =
      (supervisor.residents r').key := by
    intro r'
    rcases eq_or_ne r' r with rfl | hne
    · simpa [ActorWorkerSupervisor.setResident] using hkey
    · simp [ActorWorkerSupervisor.setResident, hne]
  have hworkers : ∀ r', ((supervisor.setResident r resident).residents r').worker =
      (supervisor.residents r').worker := by
    intro r'
    rcases eq_or_ne r' r with rfl | hne
    · simpa [ActorWorkerSupervisor.setResident] using hworker
    · simp [ActorWorkerSupervisor.setResident, hne]
  refine ⟨hkept.keys, hkept.bounded, fun key r' => ?_, fun r' hbare => ?_, fun r' => ?_,
    hkept.speculative, fun r₁ r₂ => ?_, fun r' => ?_, fun w => ?_, hkept.loaded⟩
  · rw [hkeys]
    exact hkept.entry key r'
  · rw [hkeys] at hbare
    rw [hworkers]
    rcases eq_or_ne r' r with rfl | hne
    · simpa [ActorWorkerSupervisor.setResident, htimer hbare] using hkept.bare r' hbare
    · simpa [ActorWorkerSupervisor.setResident, hne] using hkept.bare r' hbare
  · rw [hworkers]
    exact hkept.worker r'
  · rw [hworkers, hworkers]
    exact hkept.own r₁ r₂
  · rw [hworkers]
    exact hkept.spare r'
  · simp only [hworkers]
    exact hkept.owned w

omit [DecidableEq ι] in
theorem Kept.entry_registered (hkept : supervisor.Kept) (hmem : (key, r) ∈ supervisor.actors) :
    ((supervisor.residents r).key, r) ∈ supervisor.actors := by
  rwa [(hkept.entry key r hmem).2]

/-- A resident of the map without a worker gets a new one. -/
def employ (supervisor : ActorWorkerSupervisor ι Thread) (start : Thread) (r : ℕ) :
    ActorWorkerSupervisor ι Thread :=
  (supervisor.createWorker start).setResident r
    { supervisor.residents r with idleTimer := false, worker := some supervisor.nextWorker }

omit [DecidableEq ι] in
theorem employ_resident (start : Thread) (r' : ℕ) : (supervisor.employ start r).residents r' =
    if r' = r then { supervisor.residents r with idleTimer := false, worker := some supervisor.nextWorker }
    else supervisor.residents r' := by
  split_ifs with hr
  · rw [hr]
    exact Function.update_self ..
  · exact Function.update_of_ne hr ..

omit [DecidableEq ι] in
theorem employ_worker (start : Thread) (w : ℕ) : (supervisor.employ start r).workers w =
    if w = supervisor.nextWorker then .new start else supervisor.workers w := by
  split_ifs with hw
  · rw [hw]
    exact Function.update_self ..
  · exact Function.update_of_ne hw ..

omit [DecidableEq ι] in
theorem Kept.employ (hkept : supervisor.Kept) (start : Thread) (hmem : (key, r) ∈ supervisor.actors)
    (hworker : (supervisor.residents r).worker = none) : (supervisor.employ start r).Kept := by
  have hkeys : ∀ r', ((supervisor.employ start r).residents r').key = (supervisor.residents r').key := by
    intro r'
    rw [employ_resident]
    split_ifs with hr
    · rw [hr]
    · rfl
  -- whose worker is whose: the new one is r's alone
  have hworkers : ∀ r' w, ((supervisor.employ start r).residents r').worker = some w →
      r' = r ∧ w = supervisor.nextWorker ∨ (supervisor.residents r').worker = some w ∧
      w < supervisor.nextWorker := by
    intro r' w hw
    rw [employ_resident] at hw
    split_ifs at hw with hr
    · exact .inl ⟨hr, (Option.some.inj hw).symm⟩
    · exact .inr ⟨hw, hkept.worker r' w hw⟩
  refine ⟨hkept.keys, hkept.bounded, fun key r' => ?_, fun r' hbare => ?_, fun r' w hw => ?_, fun w hw => ?_,
    fun r₁ r₂ w h₁ h₂ => ?_, fun r' w hspeculative hw => ?_, fun w hw hlive => ?_, hkept.loaded⟩
  · rw [hkeys]
    exact hkept.entry key r'
  · rw [hkeys] at hbare
    have hne : r' ≠ r := by
      rintro rfl
      rw [(hkept.entry key r' hmem).2] at hbare
      exact hbare hmem
    rw [employ_resident, if_neg hne]
    exact hkept.bare r' hbare
  · rcases hworkers r' w hw with ⟨-, rfl⟩ | ⟨-, hlt⟩
    · exact Nat.lt_succ_self _
    · exact hlt.trans (Nat.lt_succ_self _)
  · exact (hkept.speculative w hw).trans (Nat.lt_succ_self _)
  · rcases hworkers r₁ w h₁ with ⟨hr₁, hw₁⟩ | ⟨hold₁, hlt₁⟩ <;> rcases hworkers r₂ w h₂ with ⟨hr₂, hw₂⟩ | ⟨hold₂, hlt₂⟩
    · rw [hr₁, hr₂]
    · exact absurd hw₁ hlt₂.ne
    · exact absurd hw₂ hlt₁.ne
    · exact hkept.own r₁ r₂ w hold₁ hold₂
  · rcases hworkers r' w hw with ⟨-, rfl⟩ | ⟨hw, -⟩
    · exact absurd (hkept.speculative _ hspeculative) (lt_irrefl _)
    · exact hkept.spare r' w hspeculative hw
  · rcases eq_or_ne w supervisor.nextWorker with rfl | hne
    · exact .inr ⟨r, by rw [employ_resident, if_pos rfl]⟩
    · rw [employ_worker, if_neg hne] at hlive
      have hlt : w < supervisor.nextWorker := lt_of_le_of_ne (Nat.lt_succ_iff.1 hw) hne
      refine (hkept.owned w hlt hlive).imp_right fun ⟨r', howner⟩ => ⟨r', ?_⟩
      have hne : r' ≠ r := by
        rintro rfl
        rw [hworker] at howner
        cases howner
      rwa [employ_resident, if_neg hne]

omit [DecidableEq ι] in
theorem register_resident (key : ActorKey) (now r' : ℕ) : (supervisor.register key now).residents r' =
    if r' = supervisor.nextResident then ⟨key, supervisor.speculativeWorker, false, now⟩ else supervisor.residents r' := by
  split_ifs with hr
  · rw [hr]
    exact Function.update_self ..
  · exact Function.update_of_ne hr ..

omit [DecidableEq ι] in
theorem mem_register {entry : ActorKey × ℕ} : entry ∈ (supervisor.register key now).actors ↔
    entry ∈ supervisor.actors ∨ entry = (key, supervisor.nextResident) := by simp [register]

omit [DecidableEq ι] in
theorem Kept.register (hkept : supervisor.Kept) (hnew : supervisor.residentOf key = none)
    (hroom : supervisor.actors.length < maxResidentActors) (hloaded : supervisor.actorTypes ≠ none) :
    (supervisor.register key now).Kept := by
  -- the new resident has a worker only if the preload was taken
  have hworkers : ∀ r' w, ((supervisor.register key now).residents r').worker = some w →
      r' = supervisor.nextResident ∧ supervisor.speculativeWorker = some w ∨
        r' ≠ supervisor.nextResident ∧ (supervisor.residents r').worker = some w := by
    intro r' w hw
    rw [register_resident] at hw
    split_ifs at hw with hr
    · exact .inl ⟨hr, hw⟩
    · exact .inr ⟨hr, hw⟩
  have hfresh : ∀ key', (key', supervisor.nextResident) ∉ supervisor.actors := fun key' hmem =>
    lt_irrefl _ (hkept.entry key' _ hmem).1
  refine ⟨?_, ?_, fun key' r' hmem => ?_, fun r' hbare => ?_, fun r' w hw => ?_, nofun,
    fun r₁ r₂ w h₁ h₂ => ?_, nofun, fun w hw hlive => ?_, fun _ => hloaded⟩
  · have hkeys : (supervisor.register key now).actors.map Prod.fst =
        supervisor.actors.map Prod.fst ++ [key] := by
      simp [ActorWorkerSupervisor.register]
    rw [hkeys]
    refine List.nodup_append.2 ⟨hkept.keys, List.nodup_singleton _, fun key' hmem key'' hmem' => ?_⟩
    obtain ⟨⟨key', r'⟩, hentry, rfl⟩ := List.mem_map.1 hmem
    intro hsame
    have hkey : key' = key := hsame.trans (List.mem_singleton.1 hmem')
    exact residentOf_eq_none hnew (hkey ▸ hentry)
  · simpa [ActorWorkerSupervisor.register, Nat.succ_le_iff] using hroom
  · rw [register_resident]
    rcases mem_register.1 hmem with hmem | hmem
    · have hne : r' ≠ supervisor.nextResident := by
        rintro rfl
        exact hfresh key' hmem
      rw [if_neg hne]
      exact ⟨(hkept.entry key' r' hmem).1.trans (Nat.lt_succ_self _), (hkept.entry key' r' hmem).2⟩
    · obtain ⟨rfl, rfl⟩ := Prod.mk.inj hmem
      rw [if_pos rfl]
      exact ⟨Nat.lt_succ_self _, rfl⟩
  · rw [register_resident] at hbare ⊢
    split_ifs at hbare ⊢ with hr
    · exact absurd (mem_register.2 (.inr (by rw [hr]))) hbare
    · exact hkept.bare r' fun hmem => hbare (mem_register.2 (.inl hmem))
  · rcases hworkers r' w hw with ⟨-, hspeculative⟩ | ⟨-, hworker⟩
    · exact hkept.speculative w hspeculative
    · exact hkept.worker r' w hworker
  · rcases hworkers r₁ w h₁ with ⟨hr₁, hspare₁⟩ | ⟨-, hold₁⟩ <;> rcases hworkers r₂ w h₂ with ⟨hr₂, hspare₂⟩ | ⟨-, hold₂⟩
    · rw [hr₁, hr₂]
    · exact absurd hold₂ (hkept.spare r₂ w hspare₁)
    · exact absurd hold₁ (hkept.spare r₁ w hspare₂)
    · exact hkept.own r₁ r₂ w hold₁ hold₂
  · refine .inr ?_
    rcases hkept.owned w hw hlive with hspeculative | ⟨r', howner⟩
    · exact ⟨supervisor.nextResident, by rw [register_resident, if_pos rfl, hspeculative]⟩
    · have hmem := hkept.registered (.inl (by rw [howner]; exact Option.some_ne_none w))
      have hne : r' ≠ supervisor.nextResident := fun hsame => hfresh _ (hsame ▸ hmem)
      exact ⟨r', by rwa [register_resident, if_neg hne]⟩

/-- The worker of a resident ends and leaves it. -/
theorem Kept.dismiss (hkept : supervisor.Kept) {resident : ResidentActorWorker}
    (hmem : (key, r) ∈ supervisor.actors) (hworker : (supervisor.residents r).worker = some w)
    (hkey : resident.key = (supervisor.residents r).key) (hnone : resident.worker = none) :
    ((supervisor.terminateWorker (some w) .failed).setResident r resident).Kept := by
  have hresident : ∀ r', ((supervisor.terminateWorker (some w) .failed).setResident r resident).residents r' =
      if r' = r then resident else supervisor.residents r' := by
    intro r'
    split_ifs with hr
    · rw [hr]
      exact Function.update_self ..
    · exact Function.update_of_ne hr ..
  have hkeys : ∀ r', (((supervisor.terminateWorker (some w) .failed).setResident r resident).residents r').key =
      (supervisor.residents r').key := by
    intro r'
    rw [hresident]
    split_ifs with hr
    · rw [hr, hkey]
    · rfl
  have hworkers : ∀ r' w', (((supervisor.terminateWorker (some w) .failed).setResident r resident).residents r').worker = some w' →
      (supervisor.residents r').worker = some w' := by
    intro r' w' hw
    rw [hresident] at hw
    split_ifs at hw
    · rw [hnone] at hw
      cases hw
    · exact hw
  refine ⟨hkept.keys, hkept.bounded, fun key' r' => ?_, fun r' hbare => ?_,
    fun r' w' hw => hkept.worker r' w' (hworkers r' w' hw),
    hkept.speculative, fun r₁ r₂ w' h₁ h₂ => hkept.own r₁ r₂ w' (hworkers r₁ w' h₁) (hworkers r₂ w' h₂),
    fun r' w' hspeculative hw => hkept.spare r' w' hspeculative (hworkers r' w' hw), fun w' hw hlive => ?_, hkept.loaded⟩
  · rw [hkeys]
    exact hkept.entry key' r'
  · rw [hkeys] at hbare
    have hne : r' ≠ r := by
      rintro rfl
      rw [(hkept.entry key r' hmem).2] at hbare
      exact hbare hmem
    rw [hresident, if_neg hne]
    exact hkept.bare r' hbare
  · obtain ⟨hlive, hne⟩ := (terminateWorker_live (some w)).1 hlive
    refine (hkept.owned w' hw hlive).imp_right fun ⟨r', howner⟩ => ⟨r', ?_⟩
    have hr : r' ≠ r := by
      rintro rfl
      exact hne (hworker.symm.trans howner)
    rwa [hresident, if_neg hr]

theorem Kept.executeOn (hkept : supervisor.Kept) (h : ι) (r w : ℕ) : (supervisor.executeOn h r w).1.Kept := by
  unfold ActorWorkerSupervisor.executeOn
  split
  · exact hkept.setWorker id
  · exact hkept

theorem Kept.executeResident (hkept : supervisor.Kept) (hmem : (key, r) ∈ supervisor.actors) :
    (supervisor.executeResident code h r envelope thrown).1.Kept := by
  have hregistered := hkept.entry_registered hmem
  unfold ActorWorkerSupervisor.executeResident
  dsimp only
  split_ifs with habsent
  · exact hkept
  · split
    · apply Kept.executeOn
      exact hkept.setResident rfl rfl fun hbare => absurd hregistered hbare
    · exact hkept.setResident rfl rfl fun hbare => absurd hregistered hbare
    · next hworker => exact (hkept.employ code.start hmem hworker).executeOn ..

/-- The command would be given to a new worker. -/
def StartsWorker (supervisor : ActorWorkerSupervisor ι Thread) (envelope : ExecutorCommandEnvelope) : Prop :=
  envelope.command.actor.actorType ∈ supervisor.actorTypes.getD [] ∧ envelope.residentOnly = false ∧
    match supervisor.residentOf envelope.command.actor with
    | some r => (supervisor.residents r).worker = none
    | none => supervisor.speculativeWorker = none ∧ supervisor.makeRoomForActor ≠ none

/-- What `execute` does: it answers at once, goes on with the entry of the actor, or files a new one. -/
theorem execute_cases (supervisor : ActorWorkerSupervisor ι Thread) (code : WorkerCode Thread) (h : ι)
    (envelope : ExecutorCommandEnvelope) (thrown : Option String) (now : ℕ) :
    (∃ reply, ¬ supervisor.StartsWorker envelope ∧ supervisor.execute code h envelope thrown now = (supervisor, .finished none reply)) ∨
    (∃ r, supervisor.residentOf envelope.command.actor = some r ∧
      envelope.command.actor.actorType ∈ supervisor.actorTypes.getD [] ∧
      supervisor.execute code h envelope thrown now = supervisor.executeResident code h r envelope thrown) ∨
    ∃ room, supervisor.residentOf envelope.command.actor = none ∧ supervisor.makeRoomForActor = some room ∧
      envelope.command.actor.actorType ∈ supervisor.actorTypes.getD [] ∧ envelope.residentOnly = false ∧
      supervisor.execute code h envelope thrown now =
        (room.register envelope.command.actor now).executeResident code h room.nextResident envelope thrown := by
  by_cases htype : envelope.command.actor.actorType ∈ supervisor.actorTypes.getD []
  · have hstarts : supervisor.StartsWorker envelope →
        envelope.residentOnly = false ∧ (supervisor.residentOf envelope.command.actor = none →
        supervisor.makeRoomForActor ≠ none) := by
      rintro ⟨-, honly, hworker⟩
      refine ⟨honly, fun hnone => ?_⟩
      rw [hnone] at hworker
      exact hworker.2
    unfold execute
    simp only [htype, not_true_eq_false, if_false]
    cases hfound : supervisor.residentOf envelope.command.actor with
    | some r => exact .inr (.inl ⟨r, rfl, trivial, rfl⟩)
    | none =>
      dsimp only
      split_ifs with honly
      · refine .inl ⟨_, fun hhas => ?_, rfl⟩
        rw [(hstarts hhas).1] at honly
        cases honly
      · cases hroom : supervisor.makeRoomForActor with
        | none => exact .inl ⟨_, fun hhas => (hstarts hhas).2 hfound hroom, rfl⟩
        | some room => exact .inr (.inr ⟨room, rfl, rfl, trivial, Bool.eq_false_iff.2 honly, rfl⟩)
  · exact .inl ⟨_, fun hhas => htype hhas.1, if_pos htype⟩

/-- What a call does first: it ends, waits for `ready()`, or executes its command. -/
theorem call_cases (supervisor : ActorWorkerSupervisor ι Thread) (code : WorkerCode Thread) (h : ι)
    (request : SupervisorRequest) (thrown : Option String) (now : ℕ) :
    (∃ phase, supervisor.call code h request thrown now = (supervisor, phase) ∧ phase.inFlight = false ∧
      ∀ w reply, phase ≠ .finished (some w) reply) ∨
    (∃ supervisor' w, supervisor.closed = false ∧ supervisor.actorTypes = none ∧ supervisor.awaitReady code thrown = .ok (supervisor', w) ∧
      supervisor.call code h request thrown now = (supervisor', .loading w)) ∨
    ∃ envelope, request = .command envelope ∧ supervisor.closed = false ∧
      supervisor.call code h request thrown now = supervisor.execute code h envelope thrown now := by
  cases request with
  | ready =>
    unfold call
    dsimp only
    split_ifs with hclosed
    · exact .inl ⟨_, rfl, rfl, nofun⟩
    · split
      · exact .inl ⟨_, rfl, rfl, nofun⟩
      · next hnone =>
        split
        · next hready => exact .inr (.inl ⟨_, _, Bool.eq_false_iff.2 hclosed, hnone, hready, rfl⟩)
        · exact .inl ⟨_, rfl, rfl, nofun⟩
  | command envelope =>
    unfold call
    dsimp only
    split_ifs with hclosed
    · exact .inl ⟨_, rfl, rfl, nofun⟩
    · split
      · exact .inr (.inr ⟨envelope, rfl, Bool.eq_false_iff.2 hclosed, rfl⟩)
      · next hnone =>
        split
        · next hready => exact .inr (.inl ⟨_, _, Bool.eq_false_iff.2 hclosed, hnone, hready, rfl⟩)
        · exact .inl ⟨_, rfl, rfl, nofun⟩

omit [DecidableEq ι] in
theorem actorTypes_ne_none {actorType : String} (htype : actorType ∈ supervisor.actorTypes.getD []) :
    supervisor.actorTypes ≠ none := by
  intro hnone
  simp [hnone] at htype

/-- The room for a new entry, and that its actor has none yet. -/
theorem Kept.makeRoom (hkept : supervisor.Kept) (hroom : supervisor.makeRoomForActor = some supervisor')
    (hnew : supervisor.residentOf key = none) : supervisor'.Kept ∧ supervisor'.residentOf key = none ∧
      supervisor'.actors.length < maxResidentActors := by
  have hnone : ∀ supervisor' : ActorWorkerSupervisor ι Thread, supervisor'.actors ⊆ supervisor.actors →
      supervisor'.residentOf key = none := by
    intro supervisor' hsub
    cases hfound : supervisor'.residentOf key with
    | none => rfl
    | some r => exact absurd (hsub (residentOf_mem hfound)) (residentOf_eq_none hnew)
  rcases makeRoomForActor_cases hroom with ⟨hlength, rfl⟩ | ⟨key', r', hmem, -, rfl⟩
  · exact ⟨hkept, hnew, hlength⟩
  · refine ⟨hkept.remove hmem, hnone _ (erodes_remove hkept hmem).actors, lt_of_lt_of_le ?_ hkept.bounded⟩
    rw [remove_actors]
    exact List.length_filter_lt_length_iff_exists.2 ⟨_, hmem, by simp⟩

/-- A supervisor that files a new entry, before the entry is filed -/
theorem Kept.room (hkept : supervisor.Kept) (hroom : supervisor.makeRoomForActor = some supervisor')
    (hnew : supervisor.residentOf key = none) (htypes : supervisor.actorTypes ≠ none) :
    (supervisor'.register key now).Kept := by
  obtain ⟨hroomKept, hroomNew, hlength⟩ := hkept.makeRoom hroom hnew
  have hsame : supervisor'.actorTypes = supervisor.actorTypes := by
    rcases makeRoomForActor_cases hroom with ⟨-, rfl⟩ | ⟨key', r', -, -, rfl⟩
    · rfl
    · exact remove_actorTypes
  exact hroomKept.register hroomNew hlength (hsame ▸ htypes)

omit [DecidableEq ι] in
theorem Kept.preload (hkept : supervisor.Kept) (start : Thread)
    (hnone : supervisor.speculativeWorker = none) :
    (supervisor.preload start).Kept where
  __ := hkept
  worker r w hworker := (hkept.worker r w hworker).trans (Nat.lt_succ_self _)
  speculative w hspeculative := by
    rw [← Option.some.inj hspeculative]
    exact Nat.lt_succ_self _
  spare r w hspeculative hworker := by
    rw [← Option.some.inj hspeculative] at hworker
    exact absurd (hkept.worker r _ hworker) (lt_irrefl _)
  owned w hw hlive := by
    rcases eq_or_ne w supervisor.nextWorker with rfl | hne
    · exact .inl rfl
    · have hlive' : (supervisor.workers w).terminalError = none := by
        simpa [ActorWorkerSupervisor.preload, createWorker, ActorWorkerSupervisor.setWorker, hne] using hlive
      refine (hkept.owned w (lt_of_le_of_ne (Nat.lt_succ_iff.1 hw) hne) hlive').imp_left fun hspeculative => ?_
      rw [hnone] at hspeculative
      cases hspeculative

omit [DecidableEq ι] in
theorem Kept.awaitReady (hkept : supervisor.Kept)
    (h : supervisor.awaitReady code thrown = .ok (supervisor', w)) : supervisor'.Kept := by
  unfold ActorWorkerSupervisor.awaitReady at h
  split at h
  · obtain ⟨rfl, rfl⟩ := Prod.mk.inj (Except.ok.inj h)
    exact { hkept with }
  · cases h
  · next hnone =>
    obtain ⟨rfl, rfl⟩ := Prod.mk.inj (Except.ok.inj h)
    exact { hkept.preload code.start hnone with }

omit [DecidableEq ι] in
theorem Kept.load (hkept : supervisor.Kept) (request : SupervisorRequest) (w : ℕ) :
    (supervisor.load request w).1.Kept := by
  unfold ActorWorkerSupervisor.load
  split
  · exact hkept
  · exact hkept
  · exact hkept
  · exact { hkept with loaded := fun _ => Option.some_ne_none _ }

theorem Kept.complete (hkept : supervisor.Kept) (r w : ℕ) (answer : Except WorkerError ExecutorReply)
    (now : ℕ) :
    (supervisor.complete r w answer now).1.Kept := by
  unfold ActorWorkerSupervisor.complete
  dsimp only
  split_ifs with hother
  · exact hkept.setResident rfl rfl fun _ => rfl
  · rw [not_not] at hother
    have hregistered := hkept.registered (.inl (by rw [hother]; exact Option.some_ne_none w))
    split
    · exact hkept.dismiss hregistered hother rfl rfl
    · exact hkept.setResident rfl rfl fun hbare => absurd hregistered hbare

/-! ### What a command is given -/

/-- Resident `r` has worker `w` and no timer; everything else is as it was, but for a new worker. -/
structure Assigns (supervisor : ActorWorkerSupervisor ι Thread) (start : Thread) (r w : ℕ)
    (supervisor' : ActorWorkerSupervisor ι Thread) : Prop where
  actors : supervisor'.actors = supervisor.actors
  nextResident : supervisor'.nextResident = supervisor.nextResident
  nextWorker : supervisor.nextWorker ≤ supervisor'.nextWorker
  resident : ∀ r', supervisor'.residents r' =
    if r' = r then { supervisor.residents r with idleTimer := false, worker := some w } else supervisor.residents r'
  worker : ∀ w', supervisor'.workers w' = supervisor.workers w' ∨
    w' = supervisor.nextWorker ∧ w' < supervisor'.nextWorker ∧ supervisor'.workers w' = .new start
  speculative : supervisor'.speculativeWorker = supervisor.speculativeWorker

omit [DecidableEq ι] in
theorem assigns_employ (start : Thread) (r : ℕ) :
    supervisor.Assigns start r supervisor.nextWorker (supervisor.employ start r) where
  actors := rfl
  nextResident := rfl
  nextWorker := Nat.le_succ _
  resident := employ_resident start
  worker w' := by
    rw [employ_worker]
    split_ifs with hw
    · exact .inr ⟨hw, hw ▸ Nat.lt_succ_self _, rfl⟩
    · exact .inl rfl
  speculative := rfl

omit [DecidableEq ι] in
theorem assigns_setResident (start : Thread) (hworker : (supervisor.residents r).worker = some w) :
    supervisor.Assigns start r w (supervisor.setResident r { supervisor.residents r with idleTimer := false }) where
  actors := rfl
  nextResident := rfl
  nextWorker := le_rfl
  resident r' := by
    split_ifs with hr
    · rw [hr, ← hworker]
      exact Function.update_self ..
    · exact Function.update_of_ne hr ..
  worker w' := .inl rfl
  speculative := rfl

/-- What `executeResident` does: it has no worker and needs none, it gets none, or it goes on with one. -/
theorem executeResident_cases (supervisor : ActorWorkerSupervisor ι Thread) (code : WorkerCode Thread)
    (h : ι) (r : ℕ) (envelope : ExecutorCommandEnvelope) (thrown : Option String) :
    (supervisor.residents r).worker = none ∧ envelope.residentOnly = true ∧
        supervisor.executeResident code h r envelope thrown = (supervisor, .finished none .stateRequired) ∨
    (∃ message, (supervisor.residents r).worker = none ∧ envelope.residentOnly = false ∧ thrown = some message ∧
      supervisor.executeResident code h r envelope thrown =
        (supervisor.setResident r { supervisor.residents r with idleTimer := false },
          .finished none (.failed "actor_worker_failed" message))) ∨
    ∃ w supervisor', ((supervisor.residents r).worker = some w ∨
        (supervisor.residents r).worker = none ∧ envelope.residentOnly = false ∧ thrown = none ∧
        w = supervisor.nextWorker ∧
          supervisor' = supervisor.employ code.start r) ∧
      supervisor.Assigns code.start r w supervisor' ∧
      supervisor.executeResident code h r envelope thrown = supervisor'.executeOn h r w := by
  unfold executeResident
  dsimp only
  split_ifs with habsent
  · exact .inl ⟨habsent.1, habsent.2, rfl⟩
  · have honly : (supervisor.residents r).worker = none → envelope.residentOnly = false := fun hworker => by
      simpa [hworker] using habsent
    refine .inr ?_
    split
    · next w hworker => exact .inr ⟨w, _, .inl hworker, assigns_setResident code.start hworker, rfl⟩
    · next message hworker => exact .inl ⟨message, hworker, honly hworker, rfl, rfl⟩
    · next hworker =>
      exact .inr ⟨_, _, .inr ⟨hworker, honly hworker, rfl, rfl, rfl⟩, assigns_employ code.start r, rfl⟩

theorem executeOn_cases (supervisor : ActorWorkerSupervisor ι Thread) (h : ι) (r w : ℕ) :
    (supervisor.workers w).terminalError = none ∧ supervisor.executeOn h r w = (supervisor, .starting r w) ∨
    ∃ error, (supervisor.workers w).terminalError = some error ∧ supervisor.executeOn h r w =
      (supervisor.setWorker w ((supervisor.workers w).settle h (.error error)), .executing r w) := by
  unfold executeOn
  split
  · next error hended => exact .inr ⟨error, hended, rfl⟩
  · next hlive => exact .inl ⟨hlive, rfl⟩

end ActorWorkerSupervisor

/-! ### Where the calls are -/

def CallPhase.On (phase : CallPhase) (r w : ℕ) : Prop := phase = .starting r w ∨ phase = .executing r w

namespace CallPhase

variable {phase : CallPhase} {r r' w w' : ℕ}

theorem On.inFlight (h : phase.On r w) : phase.inFlight = true := by
  rcases h with rfl | rfl <;> rfl

theorem On.unique (h : phase.On r w) (h' : phase.On r' w') : r = r' ∧ w = w' := by
  rcases h with rfl | rfl <;> rcases h' with h' | h' <;> cases h' <;> exact ⟨rfl, rfl⟩

theorem not_on_of_not_inFlight (h : phase.inFlight = false) : ¬ phase.On r w := fun hon => by
  simp [hon.inFlight] at h

/-- A call that is posted stays on its resident. -/
theorem on_executing_iff (hstarting : phase = .starting r w) (r' w' : ℕ) :
    (CallPhase.executing r w).On r' w' ↔ phase.On r' w' := by
  subst hstarting
  constructor
  · rintro (hexecuting | hexecuting) <;> cases hexecuting
    exact .inl rfl
  · rintro (hexecuting | hexecuting) <;> cases hexecuting
    exact .inr rfl

end CallPhase

variable {requests : ι → SupervisorRequest} {supervisor supervisor' : ActorWorkerSupervisor ι Thread} {calls : ι → CallPhase}
  {replies : List (ℕ × ι × ExecutorReply)} {key : ActorKey} {r w now : ℕ} {h : ι} {phase : CallPhase}
  {envelope : ExecutorCommandEnvelope}

/-- A call in flight is on the entry of its actor, and nobody else is. -/
structure Placed (requests : ι → SupervisorRequest) (supervisor : ActorWorkerSupervisor ι Thread)
    (calls : ι → CallPhase) : Prop where
  here : ∀ h envelope r, requests h = .command envelope → (calls h).inFlight = true →
    (envelope.command.actor, r) ∈ supervisor.actors →
    ∃ w, (calls h).On r w ∧ (supervisor.residents r).worker = some w ∧
    (supervisor.residents r).idleTimer = false
  on : ∀ h r w, (calls h).On r w →
    (∃ envelope, requests h = .command envelope ∧ (supervisor.residents r).key = envelope.command.actor) ∧
      r < supervisor.nextResident ∧
      (((supervisor.residents r).key, r) ∈ supervisor.actors ∨ (supervisor.workers w).terminalError ≠ none)
  single : ∀ h h' envelope envelope', requests h = .command envelope → requests h' = .command envelope' →
    envelope'.command.actor = envelope.command.actor → (calls h).inFlight = true →
    (calls h').inFlight = true → h = h'

/-- An entry is idle or has a call. -/
def Busy (supervisor : ActorWorkerSupervisor ι Thread) (calls : ι → CallPhase) : Prop :=
  ∀ key r, (key, r) ∈ supervisor.actors → (supervisor.residents r).idleTimer = true ∨ ∃ h w, (calls h).On r w

omit [DecidableEq ι] in
theorem Placed.erode (hplaced : Placed requests supervisor calls) (herodes : supervisor.Erodes supervisor') :
    Placed requests supervisor' calls where
  here h envelope r hrequest hflight hmem := by
    rw [herodes.stays _ _ hmem]
    exact hplaced.here h envelope r hrequest hflight (herodes.actors hmem)
  on h r w hon := by
    obtain ⟨⟨envelope, hrequest, hkey⟩, hlt, hplace⟩ := hplaced.on h r w hon
    rw [herodes.key, herodes.nextResident]
    refine ⟨⟨envelope, hrequest, hkey⟩, hlt, ?_⟩
    rcases hplace with hmem | hended
    · by_cases hstays : ((supervisor.residents r).key, r) ∈ supervisor'.actors
      · exact .inl hstays
      · obtain ⟨w', hon', hworker, -⟩ := hplaced.here h envelope r hrequest hon.inFlight (hkey ▸ hmem)
        obtain ⟨-, rfl⟩ := hon.unique hon'
        exact .inr (herodes.leaves _ r w hmem hstays hworker)
    · exact .inr (herodes.ended w hended)
  single := hplaced.single

omit [DecidableEq ι] in
theorem Busy.erode (hbusy : Busy supervisor calls) (herodes : supervisor.Erodes supervisor') :
    Busy supervisor' calls := by
  intro key r hmem
  rw [herodes.stays key r hmem]
  exact hbusy key r (herodes.actors hmem)

/-- A call ends, or has not begun. -/
theorem Placed.put (hplaced : Placed requests supervisor calls) (hphase : phase.inFlight = false) :
    Placed requests supervisor (Function.update calls h phase) := by
  have hflight : ∀ h', (Function.update calls h phase h').inFlight = true →
      h' ≠ h ∧ (calls h').inFlight = true := by
    intro h' hflight
    rcases eq_or_ne h' h with rfl | hne
    · simp [hphase] at hflight
    · exact ⟨hne, by rwa [Function.update_of_ne hne] at hflight⟩
  refine ⟨fun h' envelope r hrequest hh hmem => ?_, fun h' r w hon => ?_,
    fun h₁ h₂ envelope envelope' h₁' h₂' hsame hf₁ hf₂ => ?_⟩
  · rw [Function.update_of_ne (hflight h' hh).1]
    exact hplaced.here h' envelope r hrequest (hflight h' hh).2 hmem
  · rw [Function.update_of_ne (hflight h' hon.inFlight).1] at hon
    exact hplaced.on h' r w hon
  · exact hplaced.single h₁ h₂ envelope envelope' h₁' h₂' hsame (hflight h₁ hf₁).2 (hflight h₂ hf₂).2

theorem Busy.put (hbusy : Busy supervisor calls) (hoff : ∀ r w, ¬ (calls h).On r w) :
    Busy supervisor (Function.update calls h phase) := by
  intro key r hmem
  refine (hbusy key r hmem).imp_right fun ⟨h', w, hon⟩ => ⟨h', w, ?_⟩
  have hne : h' ≠ h := by
    rintro rfl
    exact hoff r w hon
  rwa [Function.update_of_ne hne]

/-- A call goes on where it is. -/
theorem Placed.move (hplaced : Placed requests supervisor calls)
    (hflight : phase.inFlight = (calls h).inFlight) (hon : ∀ r w, phase.On r w ↔ (calls h).On r w) :
    Placed requests supervisor (Function.update calls h phase) := by
  have hflight' : ∀ h', (Function.update calls h phase h').inFlight = (calls h').inFlight := by
    intro h'
    rcases eq_or_ne h' h with rfl | hne
    · rw [Function.update_self, hflight]
    · rw [Function.update_of_ne hne]
  have hon' : ∀ h' r w, (Function.update calls h phase h').On r w ↔ (calls h').On r w := by
    intro h' r w
    rcases eq_or_ne h' h with rfl | hne
    · rw [Function.update_self, hon]
    · rw [Function.update_of_ne hne]
  refine ⟨fun h' envelope r hrequest hh hmem => ?_, fun h' r w hh => ?_,
    fun h₁ h₂ envelope envelope' h₁' h₂' hsame hf₁ hf₂ => ?_⟩
  · obtain ⟨w, hplace⟩ := hplaced.here h' envelope r hrequest (hflight' h' ▸ hh) hmem
    exact ⟨w, (hon' h' r w).2 hplace.1, hplace.2⟩
  · exact hplaced.on h' r w ((hon' h' r w).1 hh)
  · exact hplaced.single h₁ h₂ envelope envelope' h₁' h₂' hsame (hflight' h₁ ▸ hf₁) (hflight' h₂ ▸ hf₂)

theorem Busy.move (hbusy : Busy supervisor calls) (hon : ∀ r w, phase.On r w ↔ (calls h).On r w) :
    Busy supervisor (Function.update calls h phase) := by
  intro key r hmem
  refine (hbusy key r hmem).imp_right fun ⟨h', w, hh⟩ => ⟨h', w, ?_⟩
  rcases eq_or_ne h' h with rfl | hne
  · rwa [Function.update_self, hon]
  · rwa [Function.update_of_ne hne]

omit [DecidableEq ι] in
theorem Placed.setWorker (hplaced : Placed requests supervisor calls) {worker : ActorWorker ι Thread}
    (hended : (supervisor.workers w).terminalError ≠ none → worker.terminalError ≠ none) :
    Placed requests (supervisor.setWorker w worker) calls where
  here := hplaced.here
  on h' r w' hon := by
    obtain ⟨hrequest, hlt, hplace⟩ := hplaced.on h' r w' hon
    refine ⟨hrequest, hlt, hplace.imp_right fun hended' => ?_⟩
    rcases eq_or_ne w' w with rfl | hne
    · simpa [ActorWorkerSupervisor.setWorker] using hended hended'
    · simpa [ActorWorkerSupervisor.setWorker, hne] using hended'
  single := hplaced.single

omit [DecidableEq ι] in
theorem Placed.setResident (hplaced : Placed requests supervisor calls) {resident : ResidentActorWorker}
    (hkey : resident.key = (supervisor.residents r).key)
    (hworker : resident.worker = (supervisor.residents r).worker)
    (htimer : (∃ h w, (calls h).On r w) → (supervisor.residents r).idleTimer = false → resident.idleTimer = false) :
    Placed requests (supervisor.setResident r resident) calls where
  here h envelope r' hrequest hflight hmem := by
    obtain ⟨w, hon, hplace⟩ := hplaced.here h envelope r' hrequest hflight hmem
    refine ⟨w, hon, ?_⟩
    rcases eq_or_ne r' r with rfl | hne
    · simpa [ActorWorkerSupervisor.setResident] using ⟨hworker.trans hplace.1, htimer ⟨h, w, hon⟩ hplace.2⟩
    · simpa [ActorWorkerSupervisor.setResident, hne] using hplace
  on h r' w hon := by
    have hkeys : ((supervisor.setResident r resident).residents r').key = (supervisor.residents r').key := by
      rcases eq_or_ne r' r with rfl | hne
      · simpa [ActorWorkerSupervisor.setResident] using hkey
      · simp [ActorWorkerSupervisor.setResident, hne]
    rw [hkeys]
    exact hplaced.on h r' w hon
  single := hplaced.single

/-- No other command of the actor is in flight. -/
def AloneFor (requests : ι → SupervisorRequest) (calls : ι → CallPhase) (h : ι) (actor : ActorKey) : Prop :=
  ∀ h' envelope, requests h' = .command envelope → envelope.command.actor = actor → h' ≠ h →
    (calls h').inFlight = false

/-- A call leaves its resident, which nobody else is on. -/
theorem Placed.release (hplaced : Placed requests supervisor calls) (hkept : supervisor.Kept)
    (hon : (calls h).On r w) (hactors : supervisor'.actors = supervisor.actors)
    (hnext : supervisor'.nextResident = supervisor.nextResident)
    (hkeys : ∀ r', (supervisor'.residents r').key = (supervisor.residents r').key)
    (hothers : ∀ r', r' ≠ r → supervisor'.residents r' = supervisor.residents r')
    (hended : ∀ w, (supervisor.workers w).terminalError ≠ none → (supervisor'.workers w).terminalError ≠ none) (hphase : phase.inFlight = false) : Placed requests supervisor' (Function.update calls h phase) := by
  have hflight : ∀ h', (Function.update calls h phase h').inFlight = true →
      h' ≠ h ∧ (calls h').inFlight = true := by
    intro h' hflight
    rcases eq_or_ne h' h with rfl | hne
    · simp [hphase] at hflight
    · exact ⟨hne, by rwa [Function.update_of_ne hne] at hflight⟩
  refine ⟨fun h' envelope r' hrequest hh hmem => ?_, fun h' r' w' hon' => ?_, (hplaced.put hphase).single⟩
  · obtain ⟨hne, hh⟩ := hflight h' hh
    rw [hactors] at hmem
    have hr : r' ≠ r := by
      rintro rfl
      obtain ⟨⟨envelope', hrequest', hkey⟩, -⟩ := hplaced.on h r' w hon
      have hsame : envelope'.command.actor = envelope.command.actor := by rw [← hkey, (hkept.entry _ r' hmem).2]
      exact hne (hplaced.single h' h envelope envelope' hrequest hrequest' hsame hh hon.inFlight)
    rw [Function.update_of_ne hne, hothers r' hr]
    exact hplaced.here h' envelope r' hrequest hh hmem
  · rw [Function.update_of_ne (hflight h' hon'.inFlight).1] at hon'
    obtain ⟨hrequest, hlt, hplace⟩ := hplaced.on h' r' w' hon'
    rw [hkeys, hnext, hactors]
    exact ⟨hrequest, hlt, hplace.imp_right (hended w')⟩

/-- A command that finds nothing loaded waits outside the map, which is empty. -/
theorem Placed.wait (hplaced : Placed requests supervisor calls) (hempty : supervisor.actors = [])
    (halone : ∀ envelope, requests h = .command envelope → AloneFor requests calls h envelope.command.actor)
    (hoff : ∀ r w, ¬ phase.On r w) : Placed requests supervisor (Function.update calls h phase) where
  here h' envelope r hrequest hflight hmem := by
    rw [hempty] at hmem
    cases hmem
  on h' r w hon := by
    have hne : h' ≠ h := by
      rintro rfl
      exact hoff r w (by rwa [Function.update_self] at hon)
    exact hplaced.on h' r w (by rwa [Function.update_of_ne hne] at hon)
  single h₁ h₂ envelope₁ envelope₂ h₁' h₂' hsame hf₁ hf₂ := by
    by_contra hne
    rcases eq_or_ne h₁ h with rfl | hne₁
    · rw [Function.update_of_ne (Ne.symm hne), halone envelope₁ h₁' h₂ envelope₂ h₂' hsame (Ne.symm hne)] at hf₂
      cases hf₂
    · rw [Function.update_of_ne hne₁] at hf₁
      rcases eq_or_ne h₂ h with rfl | hne₂
      · rw [halone envelope₂ h₂' h₁ envelope₁ h₁' hsame.symm hne] at hf₁
        cases hf₁
      · rw [Function.update_of_ne hne₂] at hf₂
        exact hne (hplaced.single h₁ h₂ envelope₁ envelope₂ h₁' h₂' hsame hf₁ hf₂)

/-- The entry of the actor has a worker and gets the call. -/
theorem Placed.assign (hplaced : Placed requests supervisor calls) (hkept : supervisor.Kept) {start : Thread}
    (hmem : (envelope.command.actor, r) ∈ supervisor.actors) (hrequest : requests h = .command envelope)
    (halone : AloneFor requests calls h envelope.command.actor)
    (hassigns : supervisor.Assigns start r w supervisor')
    (hworkers : ∀ h r w, (calls h).On r w → w < supervisor.nextWorker) (hon : phase.On r w) :
    Placed requests supervisor' (Function.update calls h phase) := by
  have hkey := (hkept.entry _ r hmem).2
  have hkeys : ∀ r', (supervisor'.residents r').key = (supervisor.residents r').key := by
    intro r'
    rw [hassigns.resident]
    split_ifs with hr
    · rw [hr]
    · rfl
  have hrequest' : ∀ {envelope'}, requests h = .command envelope' →
      envelope'.command.actor = envelope.command.actor := by
    intro envelope' hsame
    rw [hrequest] at hsame
    cases hsame
    rfl
  refine ⟨fun h' envelope' r' hh hflight hmem' => ?_, fun h' r' w' hon' => ?_,
    fun h₁ h₂ envelope₁ envelope₂ h₁' h₂' hsame hf₁ hf₂ => ?_⟩
  · rw [hassigns.actors] at hmem'
    rcases eq_or_ne h' h with rfl | hne
    · rw [hrequest' hh] at hmem'
      have hr : r' = r := (hkept.entry_unique hmem hmem').1 rfl
      rw [Function.update_self, hassigns.resident, if_pos hr, hr]
      exact ⟨w, hon, rfl, rfl⟩
    · rw [Function.update_of_ne hne] at hflight ⊢
      have hr : r' ≠ r := by
        rintro rfl
        have hactor := (hkept.entry_unique hmem hmem').2 rfl
        rw [halone h' envelope' hh hactor hne] at hflight
        cases hflight
      rw [hassigns.resident, if_neg hr]
      exact hplaced.here h' envelope' r' hh hflight hmem'
  · rw [hkeys, hassigns.nextResident, hassigns.actors]
    rcases eq_or_ne h' h with rfl | hne
    · rw [Function.update_self] at hon'
      obtain ⟨rfl, rfl⟩ := hon.unique hon'
      exact ⟨⟨envelope, hrequest, hkey⟩, (hkept.entry _ r hmem).1, .inl (hkept.entry_registered hmem)⟩
    · rw [Function.update_of_ne hne] at hon'
      obtain ⟨hrequest, hlt, hplace⟩ := hplaced.on h' r' w' hon'
      refine ⟨hrequest, hlt, hplace.imp_right fun hended => ?_⟩
      rcases hassigns.worker w' with hsame | ⟨rfl, -, -⟩
      · rwa [hsame]
      · exact absurd (hworkers h' r' _ hon') (lt_irrefl _)
  · have hothers : ∀ h' envelope', requests h' = .command envelope' →
        envelope'.command.actor = envelope.command.actor →
        (Function.update calls h phase h').inFlight = true → h' = h := by
      intro h' envelope' hh hactor hflight
      by_contra hne
      rw [Function.update_of_ne hne, halone h' envelope' hh hactor hne] at hflight
      cases hflight
    rcases eq_or_ne h₁ h with rfl | hne₁
    · exact (hothers h₂ envelope₂ h₂' (hsame.trans (hrequest' h₁')) hf₂).symm
    · rcases eq_or_ne h₂ h with rfl | hne₂
      · exact hothers h₁ envelope₁ h₁' (hsame.symm.trans (hrequest' h₂')) hf₁
      · rw [Function.update_of_ne hne₁] at hf₁
        rw [Function.update_of_ne hne₂] at hf₂
        exact hplaced.single h₁ h₂ envelope₁ envelope₂ h₁' h₂' hsame hf₁ hf₂

/-- Every other entry is busy as before. -/
theorem Busy.assign {start : Thread} (hbusy : ∀ key r', (key, r') ∈ supervisor.actors → r' ≠ r →
      (supervisor.residents r').idleTimer = true ∨ ∃ h w, (calls h).On r' w)
    (hoff : ∀ r w, ¬ (calls h).On r w) (hassigns : supervisor.Assigns start r w supervisor')
    (hon : phase.On r w) :
    Busy supervisor' (Function.update calls h phase) := by
  intro key r' hmem
  rw [hassigns.actors] at hmem
  rcases eq_or_ne r' r with rfl | hne
  · exact .inr ⟨h, w, by rwa [Function.update_self]⟩
  · rw [hassigns.resident, if_neg hne]
    refine (hbusy key r' hmem hne).imp_right fun ⟨h', w', hon'⟩ => ⟨h', w', ?_⟩
    have hh : h' ≠ h := by
      rintro rfl
      exact hoff r' w' hon'
    rwa [Function.update_of_ne hh]

omit [DecidableEq ι] in
theorem Placed.register (hplaced : Placed requests supervisor calls)
    (halone : ∀ h envelope, requests h = .command envelope → envelope.command.actor = key → (calls h).inFlight = false) :
    Placed requests (supervisor.register key now) calls where
  here h envelope r hrequest hflight hmem := by
    rcases ActorWorkerSupervisor.mem_register.1 hmem with hmem | hmem
    · obtain ⟨w, hon, hplace⟩ := hplaced.here h envelope r hrequest hflight hmem
      rw [ActorWorkerSupervisor.register_resident, if_neg (hplaced.on h r w hon).2.1.ne]
      exact ⟨w, hon, hplace⟩
    · rw [halone h envelope hrequest (Prod.mk.inj hmem).1] at hflight
      cases hflight
  on h r w hon := by
    obtain ⟨hrequest, hlt, hplace⟩ := hplaced.on h r w hon
    rw [ActorWorkerSupervisor.register_resident, if_neg hlt.ne]
    exact ⟨hrequest, hlt.trans (Nat.lt_succ_self _),
      hplace.imp_left fun hmem => ActorWorkerSupervisor.mem_register.2 (.inl hmem)⟩
  single := hplaced.single

/-! ### What the calls wait for -/

/-- A call that executes has an answer or the slot of its worker. What a call got, its worker said or could not. -/
structure Promised (supervisor : ActorWorkerSupervisor ι Thread) (calls : ι → CallPhase)
    (replies : List (ℕ × ι × ExecutorReply)) : Prop where
  bounded : ∀ h r w, (calls h).On r w → w < supervisor.nextWorker
  fresh : ∀ w, supervisor.nextWorker ≤ w → (supervisor.workers w).replySlot = none ∧
    ∀ h, (supervisor.workers w).settled h = none
  waits : ∀ h r w, calls h = .executing r w →
    (supervisor.workers w).replySlot = some h ∨ (supervisor.workers w).settled h ≠ none
  slotted : ∀ h w, (supervisor.workers w).replySlot = some h → ∃ r, calls h = .executing r w
  settled : ∀ h w, (supervisor.workers w).settled h ≠ none →
    (∃ r, calls h = .executing r w) ∨ ∃ reply, calls h = .finished (some w) reply
  replied : ∀ h w reply, (supervisor.workers w).settled h = some (.ok reply) → (w, h, reply) ∈ replies
  received : ∀ h w reply, (w, h, reply) ∈ replies → (supervisor.workers w).settled h ≠ none
  finished : ∀ h w reply, calls h = .finished (some w) reply →
    (∃ code message, reply = .failed code message) ∨ (w, h, reply) ∈ replies

namespace Promised

omit [DecidableEq ι] in
/-- What a command or a reply does not touch -/
theorem keep (hanswered : Promised supervisor calls replies)
    (hnext : supervisor.nextWorker ≤ supervisor'.nextWorker)
    (hkeeps : ∀ w, (supervisor.workers w).Keeps (supervisor'.workers w)) :
    Promised supervisor' calls replies where
  bounded h r w hon := (hanswered.bounded h r w hon).trans_le hnext
  fresh w hw := by
    obtain ⟨hslot, hsettled⟩ := hanswered.fresh w (hnext.trans hw)
    refine ⟨Option.eq_none_iff_forall_ne_some.2 fun h hslot' => ?_,
      fun h => Option.eq_none_iff_forall_ne_some.2 fun answer hanswer => ?_⟩
    · have := (hkeeps w).slot h hslot'
      rw [hslot] at this
      cases this
    · rcases (hkeeps w).answers h answer hanswer with hanswer | ⟨hslot', -⟩
      · rw [hsettled h] at hanswer
        cases hanswer
      · rw [hslot] at hslot'
        cases hslot'
  waits h r w hphase := (hanswered.waits h r w hphase).elim ((hkeeps w).waits h) fun hsettled =>
    .inr ((hkeeps w).settled h hsettled)
  slotted h w hslot := hanswered.slotted h w ((hkeeps w).slot h hslot)
  settled h w hsettled := by
    obtain ⟨answer, hanswer⟩ := Option.ne_none_iff_exists'.1 hsettled
    rcases (hkeeps w).answers h answer hanswer with hanswer | ⟨hslot, -⟩
    · exact hanswered.settled h w (by rw [hanswer]; exact Option.some_ne_none _)
    · exact .inl (hanswered.slotted h w hslot)
  replied h w reply hreply := by
    rcases (hkeeps w).answers h _ hreply with hreply | ⟨-, error, herror⟩
    · exact hanswered.replied h w reply hreply
    · cases herror
  received h w reply hmem := (hkeeps w).settled h (hanswered.received h w reply hmem)
  finished := hanswered.finished

omit [DecidableEq ι] in
/-- A new worker has nothing to answer. -/
theorem grow (hanswered : Promised supervisor calls replies) {start : Thread}
    (hnext : supervisor.nextWorker ≤ supervisor'.nextWorker)
    (hworkers : ∀ w, supervisor'.workers w = supervisor.workers w ∨
      supervisor.nextWorker ≤ w ∧ supervisor'.workers w = .new start) : Promised supervisor' calls replies := by
  refine hanswered.keep hnext fun w => ?_
  rcases hworkers w with hsame | ⟨hw, hnew⟩
  · rw [hsame]
    exact .refl _
  · rw [hnew]
    obtain ⟨hslot, hsettled⟩ := hanswered.fresh w hw
    refine ⟨nofun, fun h hslot' => ?_, fun h hsettled' => absurd (hsettled h) hsettled', nofun⟩
    rw [hslot] at hslot'
    cases hslot'

/-- A call that waits for no answer goes on, and still waits for none. -/
theorem put (hanswered : Promised supervisor calls replies) (hfrom : ∀ r w, calls h ≠ .executing r w)
    (hopen : ∀ w reply, calls h ≠ .finished (some w) reply) (hto : ∀ r w, phase ≠ .executing r w)
    (hover : ∀ w reply, phase ≠ .finished (some w) reply)
    (hbounded : ∀ r w, phase.On r w → w < supervisor.nextWorker) :
    Promised supervisor (Function.update calls h phase) replies where
  bounded h' r w hon := by
    rcases eq_or_ne h' h with rfl | hne
    · exact hbounded r w (by rwa [Function.update_self] at hon)
    · exact hanswered.bounded h' r w (by rwa [Function.update_of_ne hne] at hon)
  fresh := hanswered.fresh
  waits h' r w hphase := by
    rcases eq_or_ne h' h with rfl | hne
    · exact absurd (by rwa [Function.update_self] at hphase) (hto r w)
    · exact hanswered.waits h' r w (by rwa [Function.update_of_ne hne] at hphase)
  slotted h' w hslot := by
    obtain ⟨r, hphase⟩ := hanswered.slotted h' w hslot
    have hne : h' ≠ h := by
      rintro rfl
      exact hfrom r w hphase
    exact ⟨r, by rwa [Function.update_of_ne hne]⟩
  settled h' w hsettled := by
    have hne : h' ≠ h := by
      rintro rfl
      rcases hanswered.settled h' w hsettled with ⟨r, hphase⟩ | ⟨reply, hphase⟩
      · exact hfrom r w hphase
      · exact hopen w reply hphase
    rw [Function.update_of_ne hne]
    exact hanswered.settled h' w hsettled
  replied := hanswered.replied
  received := hanswered.received
  finished h' w reply hphase := by
    rcases eq_or_ne h' h with rfl | hne
    · exact absurd (by rwa [Function.update_self] at hphase) (hover w reply)
    · exact hanswered.finished h' w reply (by rwa [Function.update_of_ne hne] at hphase)

/-- The promise of a call is rejected before its command is posted. -/
theorem reject (hanswered : Promised supervisor calls replies) (hfrom : ∀ r w, calls h ≠ .executing r w)
    (hopen : ∀ w reply, calls h ≠ .finished (some w) reply) (error : WorkerError)
    (hw : w < supervisor.nextWorker) :
    Promised (supervisor.setWorker w ((supervisor.workers w).settle h (.error error)))
      (Function.update calls h (.executing r w)) replies := by
  have hworker : ∀ w', ((supervisor.setWorker w ((supervisor.workers w).settle h (.error error))).workers w').replySlot =
      (supervisor.workers w').replySlot := by
    intro w'
    rcases eq_or_ne w' w with rfl | hne
    · simp [ActorWorkerSupervisor.setWorker, ActorWorker.settle]
    · simp [ActorWorkerSupervisor.setWorker, hne]
  have hsettled : ∀ h' w', ((supervisor.setWorker w ((supervisor.workers w).settle h (.error error))).workers w').settled h' =
      if h' = h ∧ w' = w then some (.error error) else (supervisor.workers w').settled h' := by
    intro h' w'
    rcases eq_or_ne w' w with rfl | hne
    · rcases eq_or_ne h' h with rfl | hne'
      · simp [ActorWorkerSupervisor.setWorker, ActorWorker.settle]
      · simp [ActorWorkerSupervisor.setWorker, ActorWorker.settle, hne']
    · simp [ActorWorkerSupervisor.setWorker, hne]
  have hnever : ∀ w, (supervisor.workers w).settled h = none := by
    intro w
    by_contra hsome
    rcases hanswered.settled h w hsome with ⟨r, hphase⟩ | ⟨reply, hphase⟩
    · exact hfrom r w hphase
    · exact hopen w reply hphase
  refine ⟨fun h' r' w' hon => ?_, fun w' hw' => ?_, fun h' r' w' hphase => ?_, fun h' w' hslot => ?_,
    fun h' w' hsome => ?_,
    fun h' w' reply hok => ?_, fun h' w' reply hmem => ?_, fun h' w' reply hphase => ?_⟩
  · rcases eq_or_ne h' h with rfl | hne
    · rw [Function.update_self] at hon
      obtain ⟨-, rfl⟩ := hon.unique (.inr rfl)
      exact hw
    · exact hanswered.bounded h' r' w' (by rwa [Function.update_of_ne hne] at hon)
  · have hne : w' ≠ w := (hw.trans_le hw').ne'
    rw [hworker]
    refine ⟨(hanswered.fresh w' hw').1, fun h' => ?_⟩
    rw [hsettled, if_neg fun hsame => hne hsame.2]
    exact (hanswered.fresh w' hw').2 h'
  · rw [hworker, hsettled]
    split_ifs with hsame
    · exact .inr (Option.some_ne_none _)
    · have hne : h' ≠ h := by
        rintro rfl
        rw [Function.update_self] at hphase
        cases hphase
        exact hsame ⟨rfl, rfl⟩
      exact hanswered.waits h' r' w' (by rwa [Function.update_of_ne hne] at hphase)
  · rw [hworker] at hslot
    obtain ⟨r', hphase⟩ := hanswered.slotted h' w' hslot
    have hne : h' ≠ h := by
      rintro rfl
      exact hfrom r' w' hphase
    exact ⟨r', by rwa [Function.update_of_ne hne]⟩
  · rw [hsettled] at hsome
    split_ifs at hsome with hsame
    · rw [hsame.1, hsame.2, Function.update_self]
      exact .inl ⟨r, rfl⟩
    · have hne : h' ≠ h := by
        rintro rfl
        exact hsome (hnever w')
      rw [Function.update_of_ne hne]
      exact hanswered.settled h' w' hsome
  · rw [hsettled] at hok
    split_ifs at hok
    · cases Option.some.inj hok
    · exact hanswered.replied h' w' reply hok
  · rw [hsettled]
    split_ifs
    · exact Option.some_ne_none _
    · exact hanswered.received h' w' reply hmem
  · have hne : h' ≠ h := by
      rintro rfl
      rw [Function.update_self] at hphase
      cases hphase
    exact hanswered.finished h' w' reply (by rwa [Function.update_of_ne hne] at hphase)

/-- The command is posted; nobody else has the slot. -/
theorem post (hanswered : Promised supervisor calls replies) (hphase : calls h = .starting r w)
    (hfree : (supervisor.workers w).replySlot = none) :
    Promised (supervisor.setWorker w { supervisor.workers w with replySlot := some h, running := some h })
      (Function.update calls h (.executing r w)) replies := by
  have hsettled : ∀ w', ((supervisor.setWorker w { supervisor.workers w with replySlot := some h, running := some h }).workers w').settled =
      (supervisor.workers w').settled := by
    intro w'
    rcases eq_or_ne w' w with rfl | hne
    · simp [ActorWorkerSupervisor.setWorker]
    · simp [ActorWorkerSupervisor.setWorker, hne]
  have hslot : ∀ w', ((supervisor.setWorker w { supervisor.workers w with replySlot := some h, running := some h }).workers w').replySlot =
      if w' = w then some h else (supervisor.workers w').replySlot := by
    intro w'
    rcases eq_or_ne w' w with rfl | hne
    · simp [ActorWorkerSupervisor.setWorker]
    · simp [ActorWorkerSupervisor.setWorker, hne]
  have hw : w < supervisor.nextWorker := hanswered.bounded h r w (.inl hphase)
  have hother : ∀ {h' r' w'}, calls h' = .executing r' w' → h' ≠ h := by
    rintro h' r' w' hphase' rfl
    rw [hphase] at hphase'
    cases hphase'
  refine ⟨fun h' r' w' hon => ?_, fun w' hw' => ?_, fun h' r' w' hphase' => ?_,
    fun h' w' hslot' => ?_, fun h' w' hsome => ?_,
    fun h' w' reply hok => ?_, fun h' w' reply hmem => ?_, fun h' w' reply hphase' => ?_⟩
  · rcases eq_or_ne h' h with rfl | hne
    · rw [Function.update_self] at hon
      obtain ⟨-, rfl⟩ := hon.unique (.inr rfl)
      exact hw
    · exact hanswered.bounded h' r' w' (by rwa [Function.update_of_ne hne] at hon)
  · rw [hslot, hsettled, if_neg (hw.trans_le hw').ne']
    exact hanswered.fresh w' hw'
  · rw [hslot, hsettled]
    rcases eq_or_ne h' h with rfl | hne
    · rw [Function.update_self] at hphase'
      cases hphase'
      exact .inl (if_pos rfl)
    · rw [Function.update_of_ne hne] at hphase'
      rcases hanswered.waits h' r' w' hphase' with hslot' | hsome
      · have hne : w' ≠ w := by
          rintro rfl
          rw [hfree] at hslot'
          cases hslot'
        exact .inl (by rwa [if_neg hne])
      · exact .inr hsome
  · rw [hslot] at hslot'
    split_ifs at hslot' with hsame
    · rw [← Option.some.inj hslot', Function.update_self]
      exact ⟨r, by rw [hsame]⟩
    · obtain ⟨r', hphase'⟩ := hanswered.slotted h' w' hslot'
      exact ⟨r', by rwa [Function.update_of_ne (hother hphase')]⟩
  · rw [hsettled] at hsome
    have hne : h' ≠ h := by
      rintro rfl
      rcases hanswered.settled h' w' hsome with ⟨r', hphase'⟩ | ⟨reply, hphase'⟩ <;> simp [hphase] at hphase'
    rw [Function.update_of_ne hne]
    exact hanswered.settled h' w' hsome
  · rw [hsettled] at hok
    exact hanswered.replied h' w' reply hok
  · rw [hsettled]
    exact hanswered.received h' w' reply hmem
  · have hne : h' ≠ h := by
      rintro rfl
      rw [Function.update_self] at hphase'
      cases hphase'
    exact hanswered.finished h' w' reply (by rwa [Function.update_of_ne hne] at hphase')

/-- The call returns what its promise was settled with, or a failure. -/
theorem finish (hanswered : Promised supervisor calls replies) (hsound : ∀ w, (supervisor.workers w).Sound)
    (hphase : calls h = .executing r w) {answer : Except WorkerError ExecutorReply} {reply : ExecutorReply}
    (hanswer : (supervisor.workers w).settled h = some answer)
    (hreply : (∃ code message, reply = .failed code message) ∨ answer = .ok reply) :
    Promised supervisor (Function.update calls h (.finished (some w) reply)) replies where
  bounded h' r' w' hon := by
    rcases eq_or_ne h' h with rfl | hne
    · rw [Function.update_self] at hon
      rcases hon with hon | hon <;> cases hon
    · exact hanswered.bounded h' r' w' (by rwa [Function.update_of_ne hne] at hon)
  fresh := hanswered.fresh
  waits h' r' w' hphase' := by
    rcases eq_or_ne h' h with rfl | hne
    · rw [Function.update_self] at hphase'
      cases hphase'
    · exact hanswered.waits h' r' w' (by rwa [Function.update_of_ne hne] at hphase')
  slotted h' w' hslot := by
    obtain ⟨r', hphase'⟩ := hanswered.slotted h' w' hslot
    have hne : h' ≠ h := by
      rintro rfl
      rw [hphase] at hphase'
      cases hphase'
      rw [(hsound w).unsettled h' hslot] at hanswer
      cases hanswer
    exact ⟨r', by rwa [Function.update_of_ne hne]⟩
  settled h' w' hsome := by
    rcases eq_or_ne h' h with rfl | hne
    · rw [Function.update_self]
      rcases hanswered.settled h' w' hsome with ⟨r', hphase'⟩ | ⟨reply', hphase'⟩ <;> rw [hphase] at hphase' <;> cases hphase'
      exact .inr ⟨reply, rfl⟩
    · rw [Function.update_of_ne hne]
      exact hanswered.settled h' w' hsome
  replied := hanswered.replied
  received := hanswered.received
  finished h' w' reply' hphase' := by
    rcases eq_or_ne h' h with rfl | hne
    · rw [Function.update_self] at hphase'
      cases hphase'
      refine hreply.imp_right fun hok => hanswered.replied _ _ _ ?_
      rw [hanswer, hok]
    · exact hanswered.finished h' w' reply' (by rwa [Function.update_of_ne hne] at hphase')

/-- A worker replies to the command it runs. -/
theorem reply (hanswered : Promised supervisor calls replies) (hsound : ∀ w, (supervisor.workers w).Sound)
    (hrunning : (supervisor.workers w).running = some h) (reply : ExecutorReply) (thread : Thread) :
    Promised (supervisor.setWorker w ((supervisor.workers w).reply reply thread)) calls (replies ++ [(w, h, reply)]) := by
  have hother : ∀ {w'}, w' ≠ w →
      (supervisor.setWorker w ((supervisor.workers w).reply reply thread)).workers w' = supervisor.workers w' :=
    fun hne => Function.update_of_ne hne ..
  have hself : (supervisor.setWorker w ((supervisor.workers w).reply reply thread)).workers w =
      (supervisor.workers w).reply reply thread := Function.update_self ..
  have hsettled : (supervisor.workers w).settled h ≠ none ∨ (supervisor.workers w).replySlot = some h :=
    ((hsound w).posted h hrunning).symm.imp_left And.right
  have hw : w < supervisor.nextWorker := by
    by_contra hfresh
    obtain ⟨hslot, hnone⟩ := hanswered.fresh w (not_lt.1 hfresh)
    rcases hsettled with hsettled | hsettled
    · exact hsettled (hnone h)
    · rw [hslot] at hsettled
      cases hsettled
  have hkept : ∀ h' w', (supervisor.workers w').settled h' ≠ none →
      ((supervisor.setWorker w ((supervisor.workers w).reply reply thread)).workers w').settled h' ≠ none := by
    intro h' w' hsome
    rcases eq_or_ne w' w with rfl | hne
    · rw [hself]
      exact ActorWorker.reply_settled_ne_none reply thread hsome
    · rwa [hother hne]
  refine ⟨hanswered.bounded, fun w' hw' => ?_, fun h' r' w' hphase => ?_, fun h' w' hslot => ?_,
    fun h' w' hsome => ?_,
    fun h' w' reply' hok => ?_, fun h' w' reply' hmem => ?_, fun h' w' reply' hphase => ?_⟩
  · rw [hother (hw.trans_le hw').ne']
    exact hanswered.fresh w' hw'
  · rcases hanswered.waits h' r' w' hphase with hslot | hsome
    · rcases eq_or_ne w' w with rfl | hne
      · have hsame : h' = h := Option.some.inj (((hsound w').slot h' hslot).2.symm.trans hrunning)
        rw [hself, hsame]
        exact .inr (ActorWorker.reply_settled (hsound w') hrunning reply thread)
      · rw [hother hne]
        exact .inl hslot
    · exact .inr (hkept h' w' hsome)
  · rcases eq_or_ne w' w with rfl | hne
    · rw [hself, ActorWorker.reply_replySlot] at hslot
      cases hslot
    · exact hanswered.slotted h' w' (by rwa [hother hne] at hslot)
  · obtain ⟨answer, hanswer⟩ := Option.ne_none_iff_exists'.1 hsome
    rcases eq_or_ne w' w with rfl | hne
    · rw [hself] at hanswer
      rcases ActorWorker.reply_answers (hsound w') hrunning reply thread hanswer with hanswer | ⟨rfl, hslot, -⟩
      · exact hanswered.settled h' w' (by rw [hanswer]; exact Option.some_ne_none _)
      · exact .inl (hanswered.slotted h' w' hslot)
    · exact hanswered.settled h' w' (by rwa [hother hne] at hsome)
  · rcases eq_or_ne w' w with rfl | hne
    · rw [hself] at hok
      rcases ActorWorker.reply_answers (hsound w') hrunning reply thread hok with hok | ⟨rfl, -, hsame⟩
      · exact List.mem_append_left _ (hanswered.replied h' w' reply' hok)
      · rw [Except.ok.inj hsame]
        exact List.mem_append_right _ (List.mem_singleton_self _)
    · exact List.mem_append_left _ (hanswered.replied h' w' reply' (by rwa [hother hne] at hok))
  · rcases List.mem_append.1 hmem with hmem | hmem
    · exact hkept h' w' (hanswered.received h' w' reply' hmem)
    · cases List.mem_singleton.1 hmem
      rw [hself]
      exact ActorWorker.reply_settled (hsound w) hrunning reply thread
  · exact (hanswered.finished h' w' reply' hphase).imp_right (List.mem_append_left _)

end Promised

end LDO
