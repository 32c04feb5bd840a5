import DurableObjects.Sanity.SupervisorRuns

/-! Commands for a resident actor only. Between two commands the worker of an entry holds the actor's
instance, unless the thread has ended. So a command that finds no instance is told to bring the
state, except where the supervisor is closed or the entry still has a worker whose thread ended. -/

namespace LDO

open ActorWorkerSupervisor

/-! ### The thread of a worker -/

section Threads

variable {I : Type} {thread thread' : Option (ActorRuntime I)} {runtime : ActorRuntime I} {key : ActorKey} {reply : ExecutorReply}
  {envelope : ExecutorCommandEnvelope}

/-- The thread has an instance of the actor. -/
def Holds (thread : Option (ActorRuntime I)) (key : ActorKey) : Prop :=
  ∃ runtime instance_, thread = some runtime ∧ runtime.resident = some (key, instance_)

/-- The thread has the instance that the command is for, or the command brings a state and the thread is new. -/
def ReadyFor (thread : Option (ActorRuntime I)) (envelope : ExecutorCommandEnvelope) : Prop :=
  Holds thread envelope.command.actor ∨ thread = none ∧ envelope.residentOnly = false

theorem prepare_cases {handled : Handled I} (h : runtime.prepare envelope = .error handled) :
    (∃ code message, handled.reply = .failed code message) ∨ runtime.resident = none ∧
    envelope.residentOnly = true := by
  unfold ActorRuntime.prepare at h
  dsimp only at h
  split at h
  · cases h
    exact .inl ⟨_, _, rfl⟩
  · split at h
    · split at h
      · cases h
        exact .inl ⟨_, _, rfl⟩
      · cases h
    · next hnone =>
      split at h
      · next honly => exact .inr ⟨hnone, honly⟩
      · split at h
        · cases h
          exact .inl ⟨_, _, rfl⟩
        · split at h
          · cases h
          · cases h
            exact .inl ⟨_, _, rfl⟩

/-- A command fails, is for a resident actor that is absent, or leaves an instance of its actor. -/
theorem handle_cases (runtime : ActorRuntime I) (envelope : ExecutorCommandEnvelope) :
    (∃ code message, (runtime.handle envelope).reply = .failed code message) ∨
    (runtime.resident = none ∧ envelope.residentOnly = true) ∨
    ∃ instance_, (runtime.handle envelope).runtime.resident = some (envelope.command.actor, instance_) := by
  unfold ActorRuntime.handle
  cases hprepare : runtime.prepare envelope with
  | error handled => exact (prepare_cases hprepare).imp_right .inl
  | ok instance_ =>
    cases hcommand : envelope.command with
    | invoke invocation =>
      simp only [ActorRuntime.invoke]
      split
      · exact .inl ⟨_, _, rfl⟩
      · split
        · exact .inl ⟨_, _, rfl⟩
        · split
          · exact .inr (.inr ⟨_, rfl⟩)
          · exact .inl ⟨_, _, rfl⟩
    | websocketEvent invocation =>
      simp only [ActorRuntime.handleSocketEvent]
      split
      · exact .inr (.inr ⟨_, rfl⟩)
      · exact .inl ⟨_, _, rfl⟩

theorem respond_cases {moduleUrl : String} {findActorDefinition : String → Option (ActorDefinition I)}
    (hrespond : (entrypointCode moduleUrl findActorDefinition).respond thread envelope reply thread')
    (hready : ReadyFor thread envelope) :
    (∃ code message, reply = .failed code message) ∨ Holds thread' envelope.command.actor := by
  unfold entrypointCode at hrespond
  dsimp only at hrespond
  split at hrespond
  · exact .inl ⟨_, _, hrespond.1⟩
  · next definition _ =>
    obtain ⟨rfl, rfl⟩ := hrespond
    rcases handle_cases (thread.getD ⟨definition, none⟩) envelope with hfailed | ⟨habsent, honly⟩ |
      ⟨instance_, hinstance⟩
    · exact .inl hfailed
    · rcases hready with ⟨runtime, instance_, rfl, hresident⟩ | ⟨-, hstate⟩
      · rw [Option.getD_some, hresident] at habsent
        cases habsent
      · rw [honly] at hstate
        cases hstate
    · exact .inr ⟨_, instance_, rfl, hinstance⟩

end Threads

/-! ### The threads of the supervisor -/

variable {ι I : Type} [DecidableEq ι] {code : WorkerCode (Option (ActorRuntime I))} {moduleUrl : String}
  {findActorDefinition : String → Option (ActorDefinition I)} {idleTimeoutMs : ℕ}
    {requests : ι → SupervisorRequest}
  {s s' : SupervisorState ι (Option (ActorRuntime I))} {event : SupervisorEvent ι}
  {supervisor supervisor' : ActorWorkerSupervisor ι (Option (ActorRuntime I))} {calls : ι → CallPhase}
  {key : ActorKey} {r w now : ℕ} {h : ι} {phase : CallPhase} {envelope : ExecutorCommandEnvelope}
    {thrown : Option String}

/-- A preload has run nothing. The live worker of a resident that nobody is on holds its instance, but for the
resident `apart`; the one of a command is ready for it and then holds its instance. -/
structure Hydrated (requests : ι → SupervisorRequest)
    (supervisor : ActorWorkerSupervisor ι (Option (ActorRuntime I))) (calls : ι → CallPhase)
    (apart : Option ℕ) : Prop where
  preloaded : ∀ w, supervisor.speculativeWorker = some w →
    (supervisor.workers w).terminalError = none → (supervisor.workers w).thread = none
  idle : ∀ r w, some r ≠ apart → (supervisor.residents r).worker = some w →
    (supervisor.workers w).terminalError = none →
    (∀ h, ¬ (calls h).On r w) → Holds (supervisor.workers w).thread (supervisor.residents r).key
  ready : ∀ h r w envelope, (calls h).On r w → requests h = .command envelope →
    (supervisor.workers w).terminalError = none →
    (supervisor.workers w).settled h = none → ReadyFor (supervisor.workers w).thread envelope
  done : ∀ h r w envelope reply, (calls h).On r w → requests h = .command envelope →
    (supervisor.workers w).terminalError = none →
    (supervisor.workers w).settled h = some (.ok reply) →
    (∃ code message, reply = .failed code message) ∨ Holds (supervisor.workers w).thread envelope.command.actor

namespace Hydrated

omit [DecidableEq ι] in
theorem erode {apart : Option ℕ} (hhydrated : Hydrated requests supervisor calls apart)
    (hsound : ∀ w, (supervisor.workers w).Sound) (hkept : supervisor'.Kept)
    (herodes : supervisor.Erodes supervisor') : Hydrated requests supervisor' calls apart := by
  have hlive : ∀ {w}, (supervisor'.workers w).terminalError = none →
      (supervisor.workers w).terminalError = none := by
    intro w hlive
    by_contra hended
    exact herodes.ended w hended hlive
  refine ⟨fun w hspeculative hw => ?_, fun r w hr hworker hw hoff => ?_,
    fun h r w envelope hon hrequest hw hsettled => ?_,
    fun h r w envelope reply hon hrequest hw hsettled => ?_⟩
  · rw [herodes.thread]
    exact hhydrated.preloaded w (herodes.speculative w hspeculative) (hlive hw)
  · have hmem := hkept.registered (.inl (by rw [hworker]; exact Option.some_ne_none w))
    rw [herodes.stays _ r hmem] at hworker
    rw [herodes.thread, herodes.key]
    exact hhydrated.idle r w hr hworker (hlive hw) hoff
  · rw [herodes.thread]
    refine hhydrated.ready h r w envelope hon hrequest (hlive hw) ?_
    by_contra hsome
    exact (herodes.keeps hsound w).settled h hsome hsettled
  · rw [herodes.thread]
    refine hhydrated.done h r w envelope reply hon hrequest (hlive hw) ?_
    rcases (herodes.keeps hsound w).answers h _ hsettled with hsettled | ⟨-, error, herror⟩
    · exact hsettled
    · cases herror

/-- A call that is on no resident changes. -/
theorem put {apart : Option ℕ} (hhydrated : Hydrated requests supervisor calls apart)
    (hoff : ∀ r w, ¬ (calls h).On r w) (hphase : ∀ r w, ¬ phase.On r w) :
    Hydrated requests supervisor (Function.update calls h phase) apart := by
  have hon : ∀ {h' r w}, (Function.update calls h phase h').On r w → (calls h').On r w := by
    intro h' r w hon
    rcases eq_or_ne h' h with rfl | hne
    · rw [Function.update_self] at hon
      exact absurd hon (hphase r w)
    · rwa [Function.update_of_ne hne] at hon
  refine ⟨hhydrated.preloaded, fun r w hr hworker hw hnone => hhydrated.idle r w hr hworker hw fun h' hon' => hnone h' ?_,
    fun h' r w envelope hon' => hhydrated.ready h' r w envelope (hon hon'),
    fun h' r w envelope reply hon' => hhydrated.done h' r w envelope reply (hon hon')⟩
  have hne : h' ≠ h := by
    rintro rfl
    exact hoff r w hon'
  rwa [Function.update_of_ne hne]

/-- The resident `r` gets the call, and its worker is ready for it. -/
theorem assign (hhydrated : Hydrated requests supervisor calls (some r)) (hkept : supervisor.Kept)
    (hbounded : ∀ h r w, (calls h).On r w → w < supervisor.nextWorker)
    (hnever : ∀ w, (supervisor.workers w).settled h = none)
    (hoff : ∀ r w, ¬ (calls h).On r w) (hrequest : requests h = .command envelope)
    (hassigns : supervisor.Assigns none r w supervisor') (hon : phase.On r w)
    (hready : (supervisor'.workers w).terminalError = none → ReadyFor (supervisor'.workers w).thread envelope) :
    Hydrated requests supervisor' (Function.update calls h phase) none := by
  have hsame : ∀ {w'}, w' < supervisor.nextWorker → supervisor'.workers w' = supervisor.workers w' := by
    intro w' hw
    rcases hassigns.worker w' with hsame | ⟨rfl, -, -⟩
    · exact hsame
    · exact absurd hw (lt_irrefl _)
  have hrequest' : ∀ {envelope'}, requests h = .command envelope' → envelope' = envelope := by
    intro envelope' hsame
    rw [hrequest] at hsame
    cases hsame
    rfl
  refine ⟨fun w' hpreload hw => ?_, fun r' w' _ hworker hw hnone => ?_,
    fun h' r' w' envelope' hon' hrequest'' hw hsettled => ?_,
    fun h' r' w' envelope' reply hon' hrequest'' hw hsettled => ?_⟩
  · rw [hassigns.speculative] at hpreload
    rw [hsame (hkept.speculative w' hpreload)] at hw ⊢
    exact hhydrated.preloaded w' hpreload hw
  · rw [hassigns.resident] at hworker ⊢
    split_ifs at hworker ⊢ with hr
    · refine absurd ?_ (hnone h)
      rw [Function.update_self, hr, ← Option.some.inj hworker]
      exact hon
    · have hlt := hkept.worker r' w' hworker
      rw [hsame hlt] at hw ⊢
      refine hhydrated.idle r' w' (fun hsome => hr (Option.some.inj hsome)) hworker hw fun h' hon' =>
        hnone h' ?_
      have hne : h' ≠ h := by
        rintro rfl
        exact hoff r' w' hon'
      rwa [Function.update_of_ne hne]
  · rcases eq_or_ne h' h with rfl | hne
    · rw [Function.update_self] at hon'
      obtain ⟨rfl, rfl⟩ := hon.unique hon'
      exact hrequest' hrequest'' ▸ hready hw
    · rw [Function.update_of_ne hne] at hon'
      have hlt := hbounded h' r' w' hon'
      rw [hsame hlt] at hw hsettled ⊢
      exact hhydrated.ready h' r' w' envelope' hon' hrequest'' hw hsettled
  · rcases eq_or_ne h' h with rfl | hne
    · rcases hassigns.worker w' with hold | ⟨-, -, hnew⟩
      · rw [hold, hnever] at hsettled
        cases hsettled
      · rw [hnew] at hsettled
        cases hsettled
    · rw [Function.update_of_ne hne] at hon'
      have hlt := hbounded h' r' w' hon'
      rw [hsame hlt] at hw hsettled ⊢
      exact hhydrated.done h' r' w' envelope' reply hon' hrequest'' hw hsettled

omit [DecidableEq ι] in
/-- The promise of a call on a worker that ended is rejected. -/
theorem settle {apart : Option ℕ} (hhydrated : Hydrated requests supervisor calls apart)
    {worker : ActorWorker ι (Option (ActorRuntime I))}
    (hthread : worker.thread = (supervisor.workers w).thread)
    (hended : worker.terminalError = (supervisor.workers w).terminalError)
    (hsettled : ∀ h, worker.settled h = (supervisor.workers w).settled h ∨ ∃ error, worker.settled h = some (.error error)) :
    Hydrated requests (supervisor.setWorker w worker) calls apart := by
  have hother : ∀ {w'}, w' ≠ w → (supervisor.setWorker w worker).workers w' =
      supervisor.workers w' := fun hne => Function.update_of_ne hne ..
  have hself : (supervisor.setWorker w worker).workers w = worker := Function.update_self ..
  refine ⟨fun w' hpreload hw => ?_, fun r w' hr hworker hw hnone => ?_,
    fun h' r w' envelope hon hrequest hw hsome => ?_,
    fun h' r w' envelope reply hon hrequest hw hsome => ?_⟩ <;> rcases eq_or_ne w' w with rfl | hne
  · rw [hself] at hw ⊢
    rw [hthread]
    exact hhydrated.preloaded w' hpreload (hended ▸ hw)
  · rw [hother hne] at hw ⊢
    exact hhydrated.preloaded w' hpreload hw
  · rw [hself] at hw ⊢
    rw [hthread]
    exact hhydrated.idle r w' hr hworker (hended ▸ hw) hnone
  · rw [hother hne] at hw ⊢
    exact hhydrated.idle r w' hr hworker hw hnone
  · rw [hself] at hw hsome ⊢
    rw [hthread]
    rcases hsettled h' with hsame | ⟨error, herror⟩
    · exact hhydrated.ready h' r w' envelope hon hrequest (hended ▸ hw) (hsame ▸ hsome)
    · rw [herror] at hsome
      cases hsome
  · rw [hother hne] at hw hsome ⊢
    exact hhydrated.ready h' r w' envelope hon hrequest hw hsome
  · rw [hself] at hw hsome ⊢
    rw [hthread]
    rcases hsettled h' with hsame | ⟨error, herror⟩
    · exact hhydrated.done h' r w' envelope reply hon hrequest (hended ▸ hw) (hsame ▸ hsome)
    · rw [herror] at hsome
      cases hsome
  · rw [hother hne] at hw hsome ⊢
    exact hhydrated.done h' r w' envelope reply hon hrequest hw hsome

omit [DecidableEq ι] in
theorem of_bare (hhydrated : Hydrated requests supervisor calls (some r))
    (hnone : (supervisor.residents r).worker = none) :
    Hydrated requests supervisor calls none where
  __ := hhydrated
  idle r' w' _ hworker hw hoff := by
    refine hhydrated.idle r' w' (fun hsome => ?_) hworker hw hoff
    rw [Option.some.inj hsome, hnone] at hworker
    cases hworker

omit [DecidableEq ι] in
/-- A resident changes, but for its key and its worker. -/
theorem setResident {apart : Option ℕ} (hhydrated : Hydrated requests supervisor calls apart)
    {resident : ResidentActorWorker} (hkey : resident.key = (supervisor.residents r).key)
    (hworker : resident.worker = (supervisor.residents r).worker) :
    Hydrated requests (supervisor.setResident r resident) calls apart where
  __ := hhydrated
  idle r' w' hr howner hw hoff := by
    rw [setResident_key hkey]
    apply hhydrated.idle r' w' hr ?_ hw hoff
    rcases eq_or_ne r' r with rfl | hne
    · rw [← hworker]
      simpa [ActorWorkerSupervisor.setResident] using howner
    · rwa [setResident_of_ne _ hne] at howner

omit [DecidableEq ι] in
/-- Everything but the new resident, which may have the preload -/
theorem register (hhydrated : Hydrated requests supervisor calls none) :
    Hydrated requests (supervisor.register key now) calls (some supervisor.nextResident) where
  preloaded := nofun
  idle r w hr hworker hw hoff := by
    have hne : r ≠ supervisor.nextResident := fun hsame => hr (congrArg some hsame)
    rw [register_resident, if_neg hne] at hworker ⊢
    exact hhydrated.idle r w nofun hworker hw hoff
  ready := hhydrated.ready
  done := hhydrated.done

/-- The actor's entry goes on with the command: its worker is ready, or it gets a new one or none. -/
theorem executeResident (hhydrated : Hydrated requests s.supervisor s.calls (some r))
    (hok : SupervisorOk requests s) (hbefore : s.calls h = .before)
    (hrequest : requests h = .command envelope)
    (hready : ∀ w, (s.supervisor.residents r).worker = some w → (s.supervisor.workers w).terminalError = none →
      ReadyFor (s.supervisor.workers w).thread envelope) :
    Hydrated requests (s.supervisor.executeResident (entrypointCode moduleUrl findActorDefinition) h r envelope thrown).1
      (Function.update s.calls h (s.supervisor.executeResident (entrypointCode moduleUrl findActorDefinition) h r envelope thrown).2)
      none := by
  have hoff : ∀ r w, ¬ (s.calls h).On r w := by
    rw [hbefore]
    exact fun _ _ => CallPhase.not_on_of_not_inFlight rfl
  have hnever : ∀ w, (s.supervisor.workers w).settled h = none := by
    intro w
    by_contra hsome
    rcases hok.answered.settled h w hsome with ⟨r, hphase⟩ | ⟨reply, hphase⟩ <;> simp [hbefore] at hphase
  rcases executeResident_cases s.supervisor (entrypointCode moduleUrl findActorDefinition) h r envelope thrown with
    ⟨hnone, -, hnext⟩ | ⟨message, hnone, -, -, hnext⟩ | ⟨w, supervisor, hworker, hassigns, hnext⟩ <;> rw [hnext]
  · exact (hhydrated.of_bare hnone).put hoff fun _ _ => CallPhase.not_on_of_not_inFlight rfl
  · refine Hydrated.put ?_ hoff fun _ _ => CallPhase.not_on_of_not_inFlight rfl
    exact (hhydrated.of_bare hnone).setResident rfl rfl
  · have hready' : (supervisor.workers w).terminalError = none →
        ReadyFor (supervisor.workers w).thread envelope := by
      intro hw
      rcases hworker with hsome | ⟨-, hstate, -, rfl, rfl⟩
      · rcases hassigns.worker w with hsame | ⟨rfl, -, -⟩
        · rw [hsame] at hw ⊢
          exact hready w hsome hw
        · exact absurd (hok.kept.worker r _ hsome) (lt_irrefl _)
      · rw [employ_worker, if_pos rfl]
        exact .inr ⟨rfl, hstate⟩
    have hassigned : ∀ {phase : CallPhase}, phase.On r w →
        Hydrated requests supervisor (Function.update s.calls h phase) none := fun hon =>
      hhydrated.assign hok.kept hok.answered.bounded hnever hoff hrequest hassigns hon hready'
    rcases executeOn_cases supervisor h r w with ⟨-, hon⟩ | ⟨error, -, hon⟩ <;> rw [hon]
    · exact hassigned (.inl rfl)
    · refine (hassigned (.inr rfl)).settle rfl rfl fun h' => ?_
      rcases eq_or_ne h' h with rfl | hne
      · exact .inr ⟨error, ActorWorker.settle_settled _⟩
      · exact .inl (Function.update_of_ne hne ..)

theorem execute (hhydrated : Hydrated requests s.supervisor s.calls none) (hok : SupervisorOk requests s)
    (hbefore : s.calls h = .before) (hrequest : requests h = .command envelope)
    (halone : AloneFor requests s.calls h envelope.command.actor) :
    Hydrated requests (s.supervisor.execute (entrypointCode moduleUrl findActorDefinition) h envelope thrown now).1
      (Function.update s.calls h (s.supervisor.execute (entrypointCode moduleUrl findActorDefinition) h envelope thrown now).2) none := by
  have hoff : ∀ r w, ¬ (s.calls h).On r w := by
    rw [hbefore]
    exact fun _ _ => CallPhase.not_on_of_not_inFlight rfl
  rcases execute_cases s.supervisor (entrypointCode moduleUrl findActorDefinition) h envelope thrown now with ⟨reply, -, hnext⟩ |
    ⟨r, hfound, -, hnext⟩ | ⟨room, hnew, hroom, htype, honly, hnext⟩ <;> rw [hnext]
  · exact hhydrated.put hoff fun _ _ => CallPhase.not_on_of_not_inFlight rfl
  · have hmem := residentOf_mem hfound
    have hapart : Hydrated requests s.supervisor s.calls (some r) :=
      { hhydrated with idle := fun r' w' _ => hhydrated.idle r' w' nofun }
    refine hapart.executeResident hok hbefore hrequest fun w hworker hw => .inl ?_
    rw [← (hok.kept.entry _ r hmem).2]
    refine hhydrated.idle r w nofun hworker hw fun h' hon => ?_
    -- nobody else is on the entry of the actor
    obtain ⟨⟨envelope', hrequest', hkey⟩, -⟩ := hok.placed.on h' r w hon
    have hne : h' ≠ h := by
      rintro rfl
      exact hoff r w hon
    have hidle := halone h' envelope' hrequest' (hkey.symm.trans (hok.kept.entry _ r hmem).2) hne
    rw [hon.inFlight] at hidle
    cases hidle
  · have hregistered : SupervisorOk requests (s.set (room.register envelope.command.actor now)) :=
      hok.register hbefore halone hnew hroom (actorTypes_ne_none htype)
    have hroomHydrated : Hydrated requests room s.calls none :=
      hhydrated.erode hok.sound (hok.kept.makeRoom hroom hnew).1 (erodes_room hok.kept hroom)
    refine Hydrated.executeResident (s := s.set (room.register envelope.command.actor now)) hroomHydrated.register hregistered hbefore
      hrequest fun w hworker hw => .inr ⟨?_, honly⟩
    have hpreload : room.speculativeWorker = some w := by
      rwa [show (s.set (room.register envelope.command.actor now)).supervisor = room.register envelope.command.actor now from rfl,
        register_resident, if_pos rfl] at hworker
    exact hroomHydrated.preloaded w hpreload hw

omit [DecidableEq ι] in
theorem preload (hhydrated : Hydrated requests supervisor calls none) (hkept : supervisor.Kept)
    (hbounded : ∀ h r w, (calls h).On r w → w < supervisor.nextWorker) :
    Hydrated requests (supervisor.preload none) calls none := by
  have hsame : ∀ {w'}, w' < supervisor.nextWorker →
      (supervisor.preload none).workers w' = supervisor.workers w' := fun hw =>
    Function.update_of_ne hw.ne ..
  refine ⟨fun w hpreload _ => ?_, fun r w hr hworker hw hoff => ?_,
    fun h r w envelope hon hrequest hw hsettled => ?_,
    fun h r w envelope reply hon hrequest hw hsettled => ?_⟩
  · have hnew : (supervisor.preload none).workers supervisor.nextWorker = .new none := Function.update_self ..
    rw [← Option.some.inj hpreload, hnew]
    rfl
  · rw [hsame (hkept.worker r w hworker)] at hw ⊢
    exact hhydrated.idle r w hr hworker hw hoff
  · rw [hsame (hbounded h r w hon)] at hw hsettled ⊢
    exact hhydrated.ready h r w envelope hon hrequest hw hsettled
  · rw [hsame (hbounded h r w hon)] at hw hsettled ⊢
    exact hhydrated.done h r w envelope reply hon hrequest hw hsettled

omit [DecidableEq ι] in
theorem awaitReady (hhydrated : Hydrated requests supervisor calls none) (hkept : supervisor.Kept)
    (hbounded : ∀ h r w, (calls h).On r w → w < supervisor.nextWorker)
    (hready : supervisor.awaitReady (entrypointCode moduleUrl findActorDefinition) thrown = .ok (supervisor', w)) :
    Hydrated requests supervisor' calls none := by
  unfold ActorWorkerSupervisor.awaitReady at hready
  split at hready
  · obtain ⟨rfl, -⟩ := Prod.mk.inj (Except.ok.inj hready)
    exact { hhydrated with }
  · cases hready
  · obtain ⟨rfl, -⟩ := Prod.mk.inj (Except.ok.inj hready)
    exact { hhydrated.preload hkept hbounded with }

theorem call (hhydrated : Hydrated requests s.supervisor s.calls none) (hok : SupervisorOk requests s)
    (hbefore : s.calls h = .before)
    (halone : ∀ envelope, requests h = .command envelope → AloneFor requests s.calls h envelope.command.actor) :
    Hydrated requests (s.supervisor.call (entrypointCode moduleUrl findActorDefinition) h (requests h) thrown now).1
      (Function.update s.calls h (s.supervisor.call (entrypointCode moduleUrl findActorDefinition) h (requests h) thrown now).2) none := by
  have hoff : ∀ r w, ¬ (s.calls h).On r w := by
    rw [hbefore]
    exact fun _ _ => CallPhase.not_on_of_not_inFlight rfl
  rcases call_cases s.supervisor (entrypointCode moduleUrl findActorDefinition) h (requests h) thrown now with ⟨phase, hnext, hphase, -⟩ |
    ⟨supervisor', w, -, -, hready, hnext⟩ | ⟨envelope, hrequest, -, hnext⟩ <;> rw [hnext]
  · exact hhydrated.put hoff fun _ _ => CallPhase.not_on_of_not_inFlight hphase
  · refine (hhydrated.awaitReady hok.kept hok.answered.bounded hready).put hoff ?_
    rintro r w' (hon | hon) <;> cases hon
  · exact hhydrated.execute hok hbefore hrequest (halone envelope hrequest)

theorem move (hhydrated : Hydrated requests supervisor calls none)
    (hon : ∀ r w, phase.On r w ↔ (calls h).On r w) :
    Hydrated requests supervisor (Function.update calls h phase) none := by
  have hsame : ∀ h' r w, (Function.update calls h phase h').On r w ↔ (calls h').On r w := by
    intro h' r w
    rcases eq_or_ne h' h with rfl | hne
    · rw [Function.update_self, hon]
    · rw [Function.update_of_ne hne]
  refine ⟨hhydrated.preloaded, fun r w hr hworker hw hoff => ?_, fun h' r w envelope hon' => ?_,
    fun h' r w envelope reply hon' => ?_⟩
  · exact hhydrated.idle r w hr hworker hw fun h' hon' => hoff h' ((hsame h' r w).2 hon')
  · exact hhydrated.ready h' r w envelope ((hsame h' r w).1 hon')
  · exact hhydrated.done h' r w envelope reply ((hsame h' r w).1 hon')

/-- A call leaves its resident. The resident holds the instance, unless it has lost its worker. -/
theorem complete (hhydrated : Hydrated requests s.supervisor s.calls none) (hok : SupervisorOk requests s)
    (hexecuting : s.calls h = .executing r w) {answer : Except WorkerError ExecutorReply}
    (hanswer : (s.supervisor.workers w).settled h = some answer) :
    Hydrated requests (s.supervisor.complete r w answer now).1
      (Function.update s.calls h (s.supervisor.complete r w answer now).2) none := by
  have hon : (s.calls h).On r w := .inr hexecuting
  have hleft : ∀ {phase : CallPhase} {h' r' w'}, (∀ r w, ¬ phase.On r w) →
      (Function.update s.calls h phase h').On r' w' → h' ≠ h ∧ (s.calls h').On r' w' := by
    intro phase h' r' w' hphase hon'
    rcases eq_or_ne h' h with rfl | hne
    · rw [Function.update_self] at hon'
      exact absurd hon' (hphase r' w')
    · exact ⟨hne, by rwa [Function.update_of_ne hne] at hon'⟩
  -- on another resident or worker nobody was either
  have hothers : ∀ {phase : CallPhase} {r' w'}, ¬ (r' = r ∧ w' = w) →
      (∀ h', ¬ (Function.update s.calls h phase h').On r' w') → ∀ h', ¬ (s.calls h').On r' w' := by
    intro phase r' w' hother hnone h' hon'
    have hne : h' ≠ h := by
      rintro rfl
      exact hother (hon'.unique hon)
    exact hnone h' (by rwa [Function.update_of_ne hne])
  have hover : ∀ {w? : Option ℕ} {reply : ExecutorReply} (r w : ℕ), ¬ (CallPhase.finished w? reply).On r w :=
    fun _ _ => CallPhase.not_on_of_not_inFlight rfl
  rcases complete_cases s.supervisor r w answer now with ⟨code, message, hgone, hnext⟩ |
    ⟨code, message, hworker, hnext⟩ |
    ⟨reply, hworker, rfl, hreply, hnext⟩ <;> rw [hnext]
  · refine Hydrated.setResident ⟨hhydrated.preloaded, fun r' w' hr howner hw hnone => ?_, fun h' r' w' envelope hon' => ?_,
      fun h' r' w' envelope reply hon' => ?_⟩ rfl rfl
    · refine hhydrated.idle r' w' hr howner hw (hothers ?_ hnone)
      rintro ⟨rfl, rfl⟩
      exact hgone howner
    · exact hhydrated.ready h' r' w' envelope (hleft hover hon').2
    · exact hhydrated.done h' r' w' envelope reply (hleft hover hon').2
  · have hlive : ∀ {w'}, ((s.supervisor.terminateWorker (some w) .failed).workers w').terminalError = none →
        w' ≠ w ∧ (s.supervisor.terminateWorker (some w) .failed).workers w' = s.supervisor.workers w' := by
      intro w' hw
      have hne : w' ≠ w := fun hsame => ((terminateWorker_live (some w)).1 hw).2 (congrArg some hsame.symm)
      rw [terminateWorker_workers, if_neg fun hsame => hne (Option.some.inj hsame).symm]
      exact ⟨hne, rfl⟩
    refine ⟨fun w' hpreload hw => ?_, fun r' w' hr howner hw hnone => ?_,
      fun h' r' w' envelope hon' hrequest hw hsettled => ?_,
      fun h' r' w' envelope reply hon' hrequest hw hsettled => ?_⟩
    · obtain ⟨-, hsame⟩ := hlive hw
      rw [show ((s.supervisor.terminateWorker (some w) .failed).setResident r _).workers w' = _ from hsame] at hw ⊢
      exact hhydrated.preloaded w' hpreload hw
    · obtain ⟨hne, hsame⟩ := hlive hw
      rcases eq_or_ne r' r with rfl | hother
      · simp [ActorWorkerSupervisor.setResident] at howner
      · rw [setResident_of_ne _ hother] at howner ⊢
        rw [show ((s.supervisor.terminateWorker (some w) .failed).setResident r _).workers w' = _ from hsame] at hw ⊢
        exact hhydrated.idle r' w' hr howner hw (hothers (fun hboth => hother hboth.1) hnone)
    · obtain ⟨-, hsame⟩ := hlive hw
      rw [show ((s.supervisor.terminateWorker (some w) .failed).setResident r _).workers w' = _ from hsame] at hw hsettled ⊢
      exact hhydrated.ready h' r' w' envelope (hleft hover hon').2 hrequest hw hsettled
    · obtain ⟨-, hsame⟩ := hlive hw
      rw [show ((s.supervisor.terminateWorker (some w) .failed).setResident r _).workers w' = _ from hsame] at hw hsettled ⊢
      exact hhydrated.done h' r' w' envelope reply (hleft hover hon').2 hrequest hw hsettled
  · refine Hydrated.setResident ⟨hhydrated.preloaded, fun r' w' hr howner hw hnone => ?_, fun h' r' w' envelope hon' => ?_,
      fun h' r' w' envelope reply' hon' => ?_⟩ rfl rfl
    · by_cases hsame : r' = r ∧ w' = w
      · obtain ⟨rfl, rfl⟩ := hsame
        obtain ⟨⟨envelope, hrequest, hkey⟩, -⟩ := hok.placed.on h r' w' hon
        rw [hkey]
        refine (hhydrated.done h r' w' envelope reply hon hrequest hw hanswer).resolve_left ?_
        rintro ⟨code, message, hfailed⟩
        exact hreply code message hfailed
      · exact hhydrated.idle r' w' hr howner hw (hothers hsame hnone)
    · exact hhydrated.ready h' r' w' envelope (hleft hover hon').2
    · exact hhydrated.done h' r' w' envelope reply' (hleft hover hon').2

/-- The thread answers the command that it was ready for. -/
theorem reply (hhydrated : Hydrated requests s.supervisor s.calls none)
    (hok : SupervisorOk requests s) {reply : ExecutorReply} {thread : Option (ActorRuntime I)}
    (hrunning : (s.supervisor.workers w).running = some h) (hrequest : requests h = .command envelope)
    (hrespond : (entrypointCode moduleUrl findActorDefinition).respond (s.supervisor.workers w).thread envelope reply thread) :
    Hydrated requests (s.supervisor.setWorker w ((s.supervisor.workers w).reply reply thread)) s.calls none := by
  have hother : ∀ {w'}, w' ≠ w → (s.supervisor.setWorker w ((s.supervisor.workers w).reply reply thread)).workers w' =
      s.supervisor.workers w' := fun hne => Function.update_of_ne hne ..
  have hself : (s.supervisor.setWorker w ((s.supervisor.workers w).reply reply thread)).workers w =
      (s.supervisor.workers w).reply reply thread := Function.update_self ..
  have hthread : ((s.supervisor.workers w).reply reply thread).thread = thread :=
    ActorWorker.reply_thread reply thread
  -- a worker that lives is its resident's, and the call of the command alone is on it
  have hlive : (s.supervisor.workers w).terminalError = none →
      ∃ r, (s.supervisor.residents r).worker = some w ∧ (s.calls h).On r w ∧
      (∀ h' r', (s.calls h').On r' w → h' = h) ∧ (s.supervisor.workers w).settled h = none := by
    intro hw
    have hslot := ((hok.sound w).posted h hrunning).resolve_right fun hended => hended.1 hw
    obtain ⟨r, hexecuting⟩ := hok.answered.slotted h w hslot
    exact ⟨r, hok.works hw (.inr hexecuting), .inr hexecuting,
      fun h' r' hon => hok.single_on hw hon (.inr hexecuting), (hok.sound w).unsettled h hslot⟩
  have hanswered : ∀ {r}, (s.calls h).On r w → (s.supervisor.workers w).terminalError = none →
      (s.supervisor.workers w).settled h = none →
      (∃ code message, reply = .failed code message) ∨
      Holds thread envelope.command.actor := fun hon hw hnone =>
    respond_cases hrespond (hhydrated.ready h _ w envelope hon hrequest hw hnone)
  refine ⟨fun w' hpreload hw => ?_, fun r w' _ hworker hw hnone => ?_,
    fun h' r w' envelope' hon hrequest' hw hsome => ?_,
    fun h' r w' envelope' reply' hon hrequest' hw hsome => ?_⟩ <;> rcases eq_or_ne w' w with rfl | hne
  · rw [hself, ActorWorker.reply_terminalError] at hw
    obtain ⟨r, hworker, -⟩ := hlive hw
    exact absurd hworker (hok.kept.spare r w' hpreload)
  · rw [hother hne] at hw ⊢
    exact hhydrated.preloaded w' hpreload hw
  · rw [hself, ActorWorker.reply_terminalError] at hw
    obtain ⟨r', hworker', hon, -⟩ := hlive hw
    obtain rfl := hok.kept.own r r' w' hworker hworker'
    exact absurd hon (hnone h)
  · rw [hother hne] at hw ⊢
    exact hhydrated.idle r w' nofun hworker hw hnone
  · rw [hself] at hw hsome
    rw [ActorWorker.reply_terminalError] at hw
    obtain ⟨-, -, -, hsingle, -⟩ := hlive hw
    rw [hsingle h' r hon] at hsome
    exact absurd hsome (ActorWorker.reply_settled (hok.sound w') hrunning reply thread)
  · rw [hother hne] at hw hsome ⊢
    exact hhydrated.ready h' r w' envelope' hon hrequest' hw hsome
  · rw [hself] at hw hsome ⊢
    rw [ActorWorker.reply_terminalError] at hw
    obtain ⟨-, -, -, hsingle, hunsettled⟩ := hlive hw
    obtain rfl := hsingle h' r hon
    rw [hrequest] at hrequest'
    cases hrequest'
    rw [hthread]
    rcases ActorWorker.reply_answers (hok.sound w') hrunning reply thread hsome with hsome | ⟨-, -, hsame⟩
    · rw [hunsettled] at hsome
      cases hsome
    · rw [Except.ok.inj hsame]
      exact hanswered hon hw hunsettled
  · rw [hother hne] at hw hsome ⊢
    exact hhydrated.done h' r w' envelope' reply' hon hrequest' hw hsome

/-- `ready()` changes no worker. -/
theorem load (hhydrated : Hydrated requests s.supervisor s.calls none) (hloading : s.calls h = .loading w) :
    Hydrated requests (s.supervisor.load (requests h) w).1 (Function.update s.calls h (s.supervisor.load (requests h) w).2) none := by
  have hoff : ∀ {phase : CallPhase}, phase = .loaded ∨ phase = .loading w ∨ phase.inFlight = false →
      ∀ r w, ¬ phase.On r w := by
    rintro phase (rfl | rfl | hphase) r w hon
    · rcases hon with hon | hon <;> cases hon
    · rcases hon with hon | hon <;> cases hon
    · exact CallPhase.not_on_of_not_inFlight hphase hon
  have hfrom : ∀ r w, ¬ (s.calls h).On r w := by
    rw [hloading]
    exact hoff (.inr (.inl rfl))
  unfold ActorWorkerSupervisor.load
  split
  · exact hhydrated.put hfrom (hoff (.inr (.inl rfl)))
  · exact hhydrated.put hfrom (hoff (.inr (.inr rfl)))
  · exact hhydrated.put hfrom (hoff (.inr (.inr rfl)))
  · have hloaded : ∀ {phase : CallPhase}, (∀ r w, ¬ phase.On r w) →
        Hydrated requests s.supervisor (Function.update s.calls h phase) none :=
      fun hto => hhydrated.put hfrom hto
    cases requests h with
    | ready => exact { hloaded (hoff (.inr (.inr rfl))) with }
    | command envelope => exact { hloaded (hoff (.inl rfl)) with }

theorem post (hhydrated : Hydrated requests s.supervisor s.calls none)
    (hstarting : s.calls h = .starting r w) :
    Hydrated requests (s.supervisor.setWorker w ((s.supervisor.workers w).post h)) (Function.update s.calls h (.executing r w)) none := by
  have hmoved := hhydrated.move (CallPhase.on_executing_iff hstarting)
  rcases ActorWorker.post_cases (s.supervisor.workers w) h with ⟨-, hpost⟩ | ⟨error, hpost⟩ <;> rw [hpost]
  · exact hmoved.settle rfl rfl fun _ => .inl rfl
  · refine hmoved.settle rfl rfl fun h' => ?_
    rcases eq_or_ne h' h with rfl | hne
    · exact .inr ⟨error, ActorWorker.settle_settled _⟩
    · exact .inl (Function.update_of_ne hne ..)

theorem resume (hhydrated : Hydrated requests s.supervisor s.calls none)
    (hok : SupervisorOk requests s) (hloaded : s.calls h = .loaded)
    (hrequest : requests h = .command envelope) :
    Hydrated requests (s.supervisor.execute (entrypointCode moduleUrl findActorDefinition) h envelope thrown now).1
      (Function.update s.calls h (s.supervisor.execute (entrypointCode moduleUrl findActorDefinition) h envelope thrown now).2) none := by
  obtain ⟨hout, halone⟩ := hok.takeOut hloaded hrequest
  have hfrom : ∀ r w, ¬ (s.calls h).On r w := by
    rw [hloaded]
    rintro r w (hon | hon) <;> cases hon
  have htaken : Hydrated requests (s.put h (s.supervisor, .before)).supervisor (s.put h (s.supervisor, .before)).calls none :=
    hhydrated.put hfrom fun _ _ => CallPhase.not_on_of_not_inFlight rfl
  show Hydrated requests (s.put h _).supervisor
      (s.put h (s.supervisor.execute _ h envelope thrown now)).calls none
  rw [← put_put s .before]
  exact htaken.execute hout (Function.update_self ..) hrequest halone

theorem step (hhydrated : Hydrated requests s.supervisor s.calls none) (hok : SupervisorOk requests s)
    (hs : SupervisorStep (entrypointCode moduleUrl findActorDefinition) idleTimeoutMs requests s event s') :
    Hydrated requests s'.supervisor s'.calls none := by
  cases hs with
  | call hbefore hfree =>
    exact hhydrated.call hok hbefore fun envelope hrequest h' envelope' hh hactor _ =>
      hfree h' envelope envelope' hrequest hh hactor
  | load hloading => exact hhydrated.load hloading
  | resume hloaded hrequest => exact hhydrated.resume hok hloaded hrequest
  | post hstarting => exact hhydrated.post hstarting
  | complete hexecuting hanswer => exact hhydrated.complete hok hexecuting hanswer
  | reply hrunning hrequest hrespond => exact hhydrated.reply hok hrunning hrequest hrespond
  | @announce w actorTypes =>
    exact hhydrated.erode hok.sound (hok.kept.announce w actorTypes) (erodes_announce s.supervisor w actorTypes)
  | @fail w message => exact hhydrated.erode hok.sound (hok.kept.fail w (.failed message)) (erodes_fail s.supervisor w (.failed message))
  | @preloadRejected w => exact hhydrated.erode hok.sound (hok.kept.discardPreload w) (erodes_discardPreload w)
  | @preloadExpires w => exact hhydrated.erode hok.sound (hok.kept.discardPreload w) (erodes_discardPreload w)
  | @idle r =>
    exact hhydrated.erode hok.sound (hok.kept.removeIfCurrent idleTimeoutMs r)
      (erodes_removeIfCurrent hok.kept idleTimeoutMs r)
  | @evict actor => exact hhydrated.erode hok.sound (hok.kept.evict actor) (erodes_evict hok.kept actor)
  | close => exact hhydrated.erode hok.sound hok.kept.close (erodes_close s.supervisor)

end Hydrated

omit [DecidableEq ι] in
theorem hydrated_new :
    Hydrated requests (ActorWorkerSupervisor.new (entrypointCode moduleUrl findActorDefinition))
    (fun _ : ι => .before) none where
  preloaded w _ _ := by
    rw [new_workers]
    rfl
  idle _ _ _ := nofun
  ready _ _ _ _ hon := absurd hon (CallPhase.not_on_of_not_inFlight rfl)
  done _ _ _ _ _ hon := absurd hon (CallPhase.not_on_of_not_inFlight rfl)

theorem hydrated_reachable
    (h : (workerSupervisor (entrypointCode moduleUrl findActorDefinition) idleTimeoutMs requests).Reachable s) :
    SupervisorOk requests s ∧ Hydrated requests s.supervisor s.calls none := by
  apply h.invariant (I := fun s => SupervisorOk requests s ∧ Hydrated requests s.supervisor s.calls none)
  · rintro s rfl
    exact ⟨supervisorOk_new, hydrated_new⟩
  · exact fun hboth hs => ⟨hboth.1.step hs, hboth.2.step hboth.1 hs⟩

/-! ### Promises that were rejected -/

section Settled

variable {Thread : Type} {code : WorkerCode Thread} {s s' : SupervisorState ι Thread} {supervisor supervisor' : ActorWorkerSupervisor ι Thread}
  {h' : ι} {request : SupervisorRequest} {answer : Except WorkerError ExecutorReply}

theorem executeResident_settled (hw : w < supervisor.nextWorker) (hne : h' ≠ h) :
    ((supervisor.executeResident code h r envelope thrown).1.workers w).settled h' =
      (supervisor.workers w).settled h' := by
  rcases executeResident_cases supervisor code h r envelope thrown with ⟨-, -, hnext⟩ |
    ⟨message, -, -, -, hnext⟩ |
    ⟨w', supervisor', -, hassigns, hnext⟩ <;> rw [hnext]
  · rfl
  · have hsame : supervisor'.workers w = supervisor.workers w :=
      (hassigns.worker w).resolve_right fun hnew => hw.ne hnew.1
    rcases executeOn_cases supervisor' h r w' with ⟨-, hon⟩ | ⟨error, -, hon⟩ <;> rw [hon]
    · rw [hsame]
    · rcases eq_or_ne w w' with rfl | hother
      · simp [setWorker, ActorWorker.settle, hne, hsame]
      · simp [setWorker, hother, hsame]

theorem execute_settled (hkept : supervisor.Kept) (hsound : ∀ w, (supervisor.workers w).Sound)
    (hw : w < supervisor.nextWorker) (hne : h' ≠ h)
    (hsettled : (supervisor.workers w).settled h' = some answer) :
    ((supervisor.execute code h envelope thrown now).1.workers w).settled h' = some answer := by
  rcases execute_cases supervisor code h envelope thrown now with ⟨reply, -, hnext⟩ | ⟨r, -, -, hnext⟩ |
    ⟨room, -, hroom, -, -, hnext⟩ <;> rw [hnext]
  · exact hsettled
  · rwa [executeResident_settled hw hne]
  · have herodes := erodes_room hkept hroom
    have hw' : w < (room.register envelope.command.actor now).nextWorker := herodes.nextWorker ▸ hw
    rw [executeResident_settled hw' hne]
    exact (herodes.keeps hsound w).stable (hsound w) hsettled

theorem call_settled (hkept : supervisor.Kept) (hsound : ∀ w, (supervisor.workers w).Sound)
    (hw : w < supervisor.nextWorker) (hne : h' ≠ h)
    (hsettled : (supervisor.workers w).settled h' = some answer) :
    ((supervisor.call code h request thrown now).1.workers w).settled h' = some answer := by
  rcases call_cases supervisor code h request thrown now with ⟨phase, hnext, -⟩ |
    ⟨supervisor', w', -, -, hready, hnext⟩ |
    ⟨envelope, -, -, hnext⟩ <;> rw [hnext]
  · exact hsettled
  · obtain ⟨-, -, -, -, hworkers, -⟩ := awaitReady_cases hready
    rwa [(hworkers w).resolve_right fun hnew => hw.ne hnew.1]
  · exact execute_settled hkept hsound hw hne hsettled

/-- The answer of a call stays, until the call takes it. -/
theorem settled_step (hok : SupervisorOk requests s) (hexecuting : s.calls h = .executing r w)
    (hsettled : (s.supervisor.workers w).settled h = some answer)
    (hs : SupervisorStep code idleTimeoutMs requests s event s') :
    s'.calls h = .executing r w ∧ (s'.supervisor.workers w).settled h = some answer ∨
      ∃ now, s' = s.put h (s.supervisor.complete r w answer now) := by
  have hw : w < s.supervisor.nextWorker := hok.answered.bounded h r w (.inr hexecuting)
  have hother : ∀ {h' phase}, s.calls h' = phase → (∀ r w, phase ≠ .executing r w) → h ≠ h' := by
    rintro h' phase hphase hnot rfl
    exact hnot r w (hphase ▸ hexecuting)
  have hstays : ∀ {h' phase}, h ≠ h' → Function.update s.calls h' phase h = .executing r w := fun hne =>
    (Function.update_of_ne hne ..).trans hexecuting
  have hworker : ∀ {w' worker}, (w' = w → worker.settled h = some answer) →
      ((s.supervisor.setWorker w' worker).workers w).settled h = some answer := by
    intro w' worker hsame
    rcases eq_or_ne w w' with rfl | hne
    · simpa [setWorker] using hsame rfl
    · simpa [setWorker, hne] using hsettled
  have herodes : ∀ {supervisor'}, s.supervisor.Erodes supervisor' →
      (supervisor'.workers w).settled h = some answer := fun herodes =>
    (herodes.keeps hok.sound w).stable (hok.sound w) hsettled
  cases hs with
  | call hbefore =>
    have hne := hother hbefore (by simp)
    exact .inl ⟨hstays hne, call_settled hok.kept hok.sound hw hne hsettled⟩
  | @load h' w' hloading =>
    obtain ⟨-, -, -, -, hworkers⟩ := load_fields s.supervisor (requests h') w'
    refine .inl ⟨hstays (hother hloading (by simp)), ?_⟩
    simp only [SupervisorState.put, hworkers]
    exact hsettled
  | resume hloaded =>
    have hne := hother hloaded (by simp)
    exact .inl ⟨hstays hne, execute_settled hok.kept hok.sound hw hne hsettled⟩
  | @post h' r' w' hstarting =>
    have hne := hother hstarting (by simp)
    refine .inl ⟨hstays hne, hworker ?_⟩
    rintro rfl
    rcases ActorWorker.post_cases (s.supervisor.workers w') h' with ⟨-, hpost⟩ | ⟨error, hpost⟩ <;> rw [hpost]
    · exact hsettled
    · simpa [ActorWorker.settle, hne] using hsettled
  | @complete h' r' w' answer' now hexecuting' hsettled' =>
    rcases eq_or_ne h h' with rfl | hne
    · rw [hexecuting] at hexecuting'
      cases hexecuting'
      rw [hsettled] at hsettled'
      cases hsettled'
      exact .inr ⟨now, rfl⟩
    · refine .inl ⟨hstays hne, ?_⟩
      rcases complete_cases s.supervisor r' w' answer' now with ⟨code, message, -, hnext⟩ |
        ⟨code, message, -, hnext⟩ |
        ⟨reply, -, -, -, hnext⟩ <;> simp only [SupervisorState.put, hnext]
      · exact hsettled
      · exact (terminateWorker_keeps (some w') hok.sound w).stable (hok.sound w) hsettled
      · exact hsettled
  | @announce w' actorTypes => exact .inl ⟨hexecuting, herodes (erodes_announce s.supervisor w' actorTypes)⟩
  | @fail w' message => exact .inl ⟨hexecuting, herodes (erodes_fail s.supervisor w' (.failed message))⟩
  | @reply w' h' envelope reply thread hrunning =>
    refine .inl ⟨hexecuting, hworker ?_⟩
    rintro rfl
    obtain ⟨answer', hanswer⟩ := Option.ne_none_iff_exists'.1
      (ActorWorker.reply_settled_ne_none reply thread (by rw [hsettled]; exact Option.some_ne_none _))
    rcases ActorWorker.reply_answers (hok.sound w') hrunning reply thread hanswer with hsame | ⟨rfl, hslot, -⟩
    · rw [hanswer, ← hsame, hsettled]
    · rw [(hok.sound w').unsettled h hslot] at hsettled
      cases hsettled
  | @preloadRejected w' => exact .inl ⟨hexecuting, herodes (erodes_discardPreload w')⟩
  | @preloadExpires w' => exact .inl ⟨hexecuting, herodes (erodes_discardPreload w')⟩
  | @idle r' => exact .inl ⟨hexecuting, herodes (erodes_removeIfCurrent hok.kept idleTimeoutMs r')⟩
  | @evict actor => exact .inl ⟨hexecuting, herodes (erodes_evict hok.kept actor)⟩
  | close => exact .inl ⟨hexecuting, herodes (erodes_close s.supervisor)⟩

/-- A call whose promise was rejected fails. -/
theorem rejected_path {error : WorkerError}
    (hreach : (workerSupervisor code idleTimeoutMs requests).Reachable s)
    (hexecuting : s.calls h = .executing r w)
    (hsettled : (s.supervisor.workers w).settled h = some (.error error))
    {evs : List (SupervisorEvent ι)}
    (hpath : (workerSupervisor code idleTimeoutMs requests).Path s evs s') :
    s'.calls h = .executing r w ∧ (s'.supervisor.workers w).settled h = some (.error error) ∨
      ∃ code message, s'.calls h = .finished (some w) (.failed code message) := by
  induction hpath with
  | nil => exact .inl ⟨hexecuting, hsettled⟩
  | @snoc middle _ _ _ hpath hs ih =>
    rcases ih with ⟨hexecuting, hsettled⟩ | ⟨errorCode, message, hover⟩
    · rcases settled_step (supervisorOk_reachable (hreach.path hpath)) hexecuting hsettled hs with
        hsame | ⟨now, rfl⟩
      · exact .inl hsame
      · refine .inr ?_
        rcases complete_cases middle.supervisor r w (.error error) now with
          ⟨errorCode, message, -, hnext⟩ | ⟨errorCode, message, -, hnext⟩ |
          ⟨reply, -, hok, -, -⟩
        · exact ⟨errorCode, message, by rw [hnext]; exact Function.update_self ..⟩
        · exact ⟨errorCode, message, by rw [hnext]; exact Function.update_self ..⟩
        · cases hok
    · exact .inr ⟨errorCode, message, over_step hover hs⟩

end Settled

/-! ### Commands for a resident actor -/

/-- The step in which `execute` gets the command. -/
def SupervisorEvent.executes (h : ι) : SupervisorEvent ι → Prop
  | .call h' _ _ | .resume h' _ _ => h' = h
  | _ => False

def SupervisorEvent.isCall : SupervisorEvent ι → Bool
  | .call .. => true
  | _ => false

/-- No live worker holds an instance of the actor. -/
def Absent (supervisor : ActorWorkerSupervisor ι (Option (ActorRuntime I))) (key : ActorKey) : Prop :=
  ∀ w, (supervisor.workers w).terminalError = none → ¬ Holds (supervisor.workers w).thread key

/-- The command asks for the state, and the supervisor is as before: no code of the actor runs, and the command
with the state finds what it would have found. -/
structure AsksForState {Thread : Type} (s s' : SupervisorState ι Thread) (h : ι) : Prop where
  reply : s'.calls h = .finished none .stateRequired
  still : s'.supervisor = s.supervisor

/-- The command is let in, and the entry of the actor has no worker whose thread ended. -/
structure MayAsk {Thread : Type} (supervisor : ActorWorkerSupervisor ι Thread)
    (event : SupervisorEvent ι) (key : ActorKey) : Prop where
  opened : event.isCall = true → supervisor.closed = false
  alive : ∀ r w, supervisor.residentOf key = some r → (supervisor.residents r).worker = some w →
    (supervisor.workers w).terminalError = none

/-- Every reply that the call gets from here on is a failure. -/
def AlwaysFails {Thread : Type} (code : WorkerCode Thread) (idleTimeoutMs : ℕ)
    (requests : ι → SupervisorRequest) (s : SupervisorState ι Thread) (h : ι) : Prop :=
  ∀ evs s' w? reply, (workerSupervisor code idleTimeoutMs requests).Path s evs s' →
    s'.calls h = .finished w? reply → ∃ errorCode message, reply = .failed errorCode message

theorem alwaysFails_of_over {Thread : Type} {code : WorkerCode Thread} {s : SupervisorState ι Thread}
    {w? : Option ℕ} {errorCode message : String}
    (hover : s.calls h = .finished w? (.failed errorCode message)) :
    AlwaysFails code idleTimeoutMs requests s h := by
  intro evs s' w?' reply hpath hreply
  rw [over_path hover hpath] at hreply
  cases hreply
  exact ⟨errorCode, message, rfl⟩

theorem alwaysFails_of_rejected {Thread : Type} {code : WorkerCode Thread}
    {s : SupervisorState ι Thread} {error : WorkerError}
    (hreach : (workerSupervisor code idleTimeoutMs requests).Reachable s)
    (hexecuting : s.calls h = .executing r w)
    (hsettled : (s.supervisor.workers w).settled h = some (.error error)) :
    AlwaysFails code idleTimeoutMs requests s h := by
  intro evs s' w? reply hpath hreply
  rcases rejected_path hreach hexecuting hsettled hpath with ⟨hstill, -⟩ | ⟨errorCode, message, hover⟩
  · rw [hstill] at hreply
    cases hreply
  · rw [hover] at hreply
    cases hreply
    exact ⟨errorCode, message, rfl⟩

omit [DecidableEq ι] in
/-- The entry of an absent actor has no worker, or one that ended. -/
theorem Hydrated.ended (hhydrated : Hydrated requests s.supervisor s.calls none)
    (hok : SupervisorOk requests s) (habsent : Absent s.supervisor key)
    (hfound : s.supervisor.residentOf key = some r)
    (hworker : (s.supervisor.residents r).worker = some w)
    (hidle : ∀ h' envelope, requests h' = .command envelope → envelope.command.actor = key → ∀ r w, ¬ (s.calls h').On r w) :
    (s.supervisor.workers w).terminalError ≠ none := by
  intro hlive
  have hkey := (hok.kept.entry key r (residentOf_mem hfound)).2
  refine habsent w hlive (hkey ▸ hhydrated.idle r w nofun hworker hlive fun h' hon => ?_)
  obtain ⟨⟨envelope, hrequest, hactor⟩, -⟩ := hok.placed.on h' r w hon
  exact hidle h' envelope hrequest (hactor.symm.trans hkey) r w hon

/-- What `execute` does with the command of an absent actor. -/
theorem execute_resident_only (hhydrated : Hydrated requests s.supervisor s.calls none)
    (hok : SupervisorOk requests s) (honly : envelope.residentOnly = true)
    (hloaded : envelope.command.actor.actorType ∈ s.supervisor.actorTypes.getD [])
    (habsent : Absent s.supervisor envelope.command.actor)
    (hidle : ∀ h' envelope', requests h' = .command envelope' → envelope'.command.actor = envelope.command.actor →
      ∀ r w, ¬ (s.calls h').On r w) (code : WorkerCode (Option (ActorRuntime I))) (h : ι) (thrown : Option String) (now : ℕ) :
    s.supervisor.execute code h envelope thrown now = (s.supervisor, .finished none .stateRequired) ∧
      (∀ r w, s.supervisor.residentOf envelope.command.actor = some r → (s.supervisor.residents r).worker ≠ some w) ∨
    ∃ r w error supervisor', s.supervisor.residentOf envelope.command.actor = some r ∧
    (s.supervisor.residents r).worker = some w ∧
      (s.supervisor.workers w).terminalError ≠ none ∧ (supervisor'.workers w).settled h = some (.error error) ∧
      s.supervisor.execute code h envelope thrown now = (supervisor', .executing r w) := by
  unfold ActorWorkerSupervisor.execute
  simp only [hloaded, not_true_eq_false, if_false]
  cases hfound : s.supervisor.residentOf envelope.command.actor with
  | none => exact .inl ⟨if_pos honly, nofun⟩
  | some r =>
    dsimp only
    rcases executeResident_cases s.supervisor code h r envelope thrown with ⟨hnone, -, hnext⟩ |
      ⟨message, -, hstate, -, -⟩ |
      ⟨w, supervisor', hworker, hassigns, hnext⟩
    · refine .inl ⟨hnext, fun r' w hr hworker => ?_⟩
      rw [← Option.some.inj hr, hnone] at hworker
      cases hworker
    · rw [honly] at hstate
      cases hstate
    · have hsome : (s.supervisor.residents r).worker = some w := by
        refine hworker.resolve_right fun hcreated => ?_
        rw [honly] at hcreated
        cases hcreated.2.1
      have hended := hhydrated.ended hok habsent hfound hsome hidle
      rw [hnext]
      rcases executeOn_cases supervisor' h r w with ⟨hlive, -⟩ | ⟨error, -, hon⟩
      · have hsame := (hassigns.worker w).resolve_right fun hnew => (hok.kept.worker r w hsome).ne hnew.1
        exact absurd (hsame ▸ hlive) hended
      · refine .inr ⟨r, w, error, _, rfl, hsome, hended, ?_, hon⟩
        simp [setWorker, ActorWorker.settle]

/-- A command for a resident actor that is absent asks for the state, unless the supervisor refuses it or the entry
still has a worker whose thread ended; then it fails. -/
theorem resident_only {ι I : Type} [DecidableEq ι] {moduleUrl : String}
    {findActorDefinition : String → Option (ActorDefinition I)} {idleTimeoutMs : ℕ}
    {requests : ι → SupervisorRequest} {s s' : SupervisorState ι (Option (ActorRuntime I))}
    {event : SupervisorEvent ι} {h : ι} {envelope : ExecutorCommandEnvelope}
    (hreach : (workerSupervisor (entrypointCode moduleUrl findActorDefinition) idleTimeoutMs requests).Reachable s) (hs : (workerSupervisor (entrypointCode moduleUrl findActorDefinition) idleTimeoutMs requests).step s event s')
    (hevent : event.executes h) (hrequest : requests h = .command envelope)
    (honly : envelope.residentOnly = true)
    (hloaded : envelope.command.actor.actorType ∈ s.supervisor.actorTypes.getD [])
    (habsent : Absent s.supervisor envelope.command.actor) :
    (AsksForState s s' h ↔ MayAsk s.supervisor event envelope.command.actor) ∧
      (¬ MayAsk s.supervisor event envelope.command.actor →
        AlwaysFails (entrypointCode moduleUrl findActorDefinition) idleTimeoutMs requests s' h) := by
  have hreach' := hreach.step hs
  obtain ⟨hok, hhydrated⟩ := hydrated_reachable hreach
  -- from what `execute` does, whichever step it is in
  have hexecuted : ∀ {thrown now}, s' = s.put h (s.supervisor.execute (entrypointCode moduleUrl findActorDefinition) h envelope thrown now) →
      (∀ h' envelope', requests h' = .command envelope' → envelope'.command.actor = envelope.command.actor → ∀ r w, ¬ (s.calls h').On r w) →
      (event.isCall = true → s.supervisor.closed = false) →
      (AsksForState s s' h ↔ MayAsk s.supervisor event envelope.command.actor) ∧
      (¬ MayAsk s.supervisor event envelope.command.actor →
        AlwaysFails (entrypointCode moduleUrl findActorDefinition) idleTimeoutMs requests s' h) := by
    rintro thrown now rfl hidle hopened
    rcases execute_resident_only hhydrated hok honly hloaded habsent hidle (entrypointCode moduleUrl findActorDefinition) h thrown now with
      ⟨hnext, hnone⟩ | ⟨r, w, error, supervisor', hfound, hworker, hended, hsettled, hnext⟩
    · have hmay : MayAsk s.supervisor event envelope.command.actor :=
        ⟨hopened, fun r w hfound hworker => absurd hworker (hnone r w hfound)⟩
      have hasks : AsksForState s (s.put h (s.supervisor, .finished none .stateRequired)) h :=
        ⟨Function.update_self .., rfl⟩
      rw [hnext]
      exact ⟨iff_of_true hasks hmay, fun hnot => absurd hmay hnot⟩
    · have hnot : ¬ MayAsk s.supervisor event envelope.command.actor :=
        fun hmay => hended (hmay.alive r w hfound hworker)
      rw [hnext] at hreach' ⊢
      have hexecuting : (s.put h (supervisor', .executing r w)).calls h = .executing r w :=
        Function.update_self ..
      refine ⟨iff_of_false (fun hasks => ?_) hnot, fun _ => alwaysFails_of_rejected hreach' hexecuting hsettled⟩
      have hreply := hasks.reply
      rw [hexecuting] at hreply
      cases hreply
  cases hs with
  | @call h' thrown now hbefore hfree =>
    obtain rfl : h' = h := hevent
    cases hclosed : s.supervisor.closed with
    | false =>
      have hcall : s.supervisor.call (entrypointCode moduleUrl findActorDefinition) h' (requests h') thrown now =
          s.supervisor.execute (entrypointCode moduleUrl findActorDefinition) h' envelope thrown now := by
        obtain ⟨actorTypes, htypes⟩ := Option.ne_none_iff_exists'.1 (actorTypes_ne_none hloaded)
        rw [hrequest]
        simp only [ActorWorkerSupervisor.call, hclosed, htypes, Bool.false_eq_true, if_false]
      refine hexecuted (congrArg _ hcall) (fun c envelope' hc hactor r w hon => ?_) fun _ => hclosed
      have hidle := hfree c envelope envelope' hrequest hc hactor
      rw [hon.inFlight] at hidle
      cases hidle
    | true =>
      have hover : (s.put h' (s.supervisor.call (entrypointCode moduleUrl findActorDefinition) h' (requests h') thrown now)).calls h' =
          .finished none (.failed "actor_worker_terminated" "actor supervisor is closed") := by
        rw [hrequest]
        simp [SupervisorState.put, ActorWorkerSupervisor.call, hclosed]
      refine ⟨iff_of_false (fun hasks => ?_) fun hmay => ?_, fun _ => alwaysFails_of_over hover⟩
      · have hreply := hasks.reply
        rw [hover] at hreply
        cases hreply
      · rw [hmay.opened rfl] at hclosed
        cases hclosed
  | @resume h' envelope' thrown now hresumed hrequest' =>
    obtain rfl : h' = h := hevent
    obtain rfl : envelope' = envelope := by
      rw [hrequest] at hrequest'
      cases hrequest'
      rfl
    refine hexecuted rfl (fun c envelope'' hc hactor r w hon => ?_) fun hcall => Bool.noConfusion hcall
    have hflight : (s.calls h').inFlight = true := by
      rw [hresumed]
      rfl
    obtain rfl := hok.placed.single c h' envelope'' envelope' hc hrequest hactor.symm hon.inFlight hflight
    rw [hresumed] at hon
    rcases hon with hon | hon <;> cases hon
  | _ => exact hevent.elim

/-! ### A worker that ends while its actor is idle -/

section Exited

def counterDefinition : ActorDefinition Unit where
  actorType := "Counter"
  methods _ := true
  callable _ _ := true
  construct _ := .ok ()
  hydrate counter _ := .ok counter
  invoke counter _ := .ok (counter, .null, .obj [], [])
  handleSocketEvent counter _ := .ok (counter, .obj [], [])

abbrev counterCode : WorkerCode (Option (ActorRuntime Unit)) :=
  entrypointCode "file:///counter.js" fun _ => some counterDefinition

def counterCommand (state : Option Value) (residentOnly : Bool) : ExecutorCommandEnvelope :=
  ⟨.invoke ⟨"call-1", ⟨"namespace-1", "Counter", "counter-1"⟩, "increment", [], []⟩, state, residentOnly⟩

/-- A call of `ready`, a first command, and one for the resident -/
def counterRequests : Fin 3 → SupervisorRequest
  | 0 => .ready
  | 1 => .command (counterCommand (some .null) false)
  | 2 => .command (counterCommand none true)

abbrev counterSystem :
    System (SupervisorState (Fin 3) (Option (ActorRuntime Unit))) (SupervisorEvent (Fin 3)) :=
  workerSupervisor counterCode 60000 counterRequests

private def counterWaits : SupervisorState (Fin 3) (Option (ActorRuntime Unit)) :=
  let s : SupervisorState (Fin 3) (Option (ActorRuntime Unit)) := ⟨.new counterCode, fun _ => .before, []⟩
  s.put 0 (s.supervisor.call counterCode 0 .ready none 0)

/-- The preload is announced, and nothing was executed. -/
def counterLoaded : SupervisorState (Fin 3) (Option (ActorRuntime Unit)) :=
  let s := counterWaits.set (counterWaits.supervisor.setWorker 0 ((counterWaits.supervisor.workers 0).announce ["Counter"]))
  s.put 0 (s.supervisor.load .ready 0)

/-- A command is called on the loaded supervisor. -/
private def counterCalled (h : Fin 3) : SupervisorState (Fin 3) (Option (ActorRuntime Unit)) :=
  counterLoaded.put h (counterLoaded.supervisor.call counterCode h (counterRequests h) none 0)

/-- The preload has the first command. -/
private def counterPosted : SupervisorState (Fin 3) (Option (ActorRuntime Unit)) :=
  (counterCalled 1).put 1 ((counterCalled 1).supervisor.setWorker 0 (((counterCalled 1).supervisor.workers 0).post 1), .executing 0 0)

/-- It has replied, and the command is over. -/
private def counterIdle : SupervisorState (Fin 3) (Option (ActorRuntime Unit)) :=
  let reply : ExecutorReply := .invoked .null (.obj []) []
  let worker := (counterPosted.supervisor.workers 0).reply reply
    (some ⟨counterDefinition, some (⟨"namespace-1", "Counter", "counter-1"⟩, ())⟩)
  let s := { counterPosted.set (counterPosted.supervisor.setWorker 0 worker) with replies := counterPosted.replies ++ [(0, 1, reply)] }
  s.put 1 (s.supervisor.complete 0 0 (.ok reply) 0)

/-- The thread has exited during the command, and the entry has no worker. -/
def counterEmptied : SupervisorState (Fin 3) (Option (ActorRuntime Unit)) :=
  let error := WorkerError.failed "actor Worker exited with code 1"
  let s := counterPosted.set (counterPosted.supervisor.setWorker 0 ((counterPosted.supervisor.workers 0).fail error))
  s.put 1 (s.supervisor.complete 0 0 (.error error) 0)

private def counterAsked : SupervisorState (Fin 3) (Option (ActorRuntime Unit)) :=
  counterEmptied.put 2 (counterEmptied.supervisor.call counterCode 2 (counterRequests 2) none 0)

/-- The thread has exited by itself. -/
def counterExited : SupervisorState (Fin 3) (Option (ActorRuntime Unit)) :=
  counterIdle.set (counterIdle.supervisor.setWorker 0
    ((counterIdle.supervisor.workers 0).fail (.failed "actor Worker exited with code 1")))

/-- The command for the resident gets the error of the thread. -/
private def counterRejected : SupervisorState (Fin 3) (Option (ActorRuntime Unit)) :=
  counterExited.put 2 (counterExited.supervisor.call counterCode 2 (counterRequests 2) none 0)

theorem counterLoaded_reachable : counterSystem.Reachable counterLoaded := by
  have hinit : counterSystem.Reachable ⟨.new counterCode, fun _ => .before, []⟩ := ⟨[], _, rfl, .nil _⟩
  have hready : counterSystem.step ⟨.new counterCode, fun _ => .before, []⟩ (.call 0 none 0) counterWaits := .call rfl nofun
  have hannounce : counterSystem.step counterWaits (.announce 0 ["Counter"]) _ := .announce Nat.one_pos
  exact ((hinit.step hready).step hannounce).step (e := .load 0) (SupervisorStep.load (w := 0) rfl)

private theorem counterLoaded_free (h : Fin 3) : counterLoaded.Free counterRequests h := by
  intro h' _ _ _ hh' _
  match h' with
  | 0 => cases hh'
  | 1 => rfl
  | 2 => rfl

private theorem counterLoaded_thread (w : ℕ) : (counterLoaded.supervisor.workers w).thread = none := by
  have hworkers : counterLoaded.supervisor.workers =
      Function.update counterWaits.supervisor.workers 0 ((counterWaits.supervisor.workers 0).announce ["Counter"]) := rfl
  rcases eq_or_ne w 0 with rfl | hne
  · rfl
  · rw [hworkers, Function.update_of_ne hne]
    exact congrArg ActorWorker.thread (new_workers w)

private theorem counterPosted_reachable : counterSystem.Reachable counterPosted := by
  have hcall : counterSystem.step counterLoaded (.call 1 none 0) (counterCalled 1) :=
    .call rfl (counterLoaded_free 1)
  exact (counterLoaded_reachable.step hcall).step (e := .post 1)
    (SupervisorStep.post (r := 0) (w := 0) rfl nofun)

theorem counterEmptied_reachable : counterSystem.Reachable counterEmptied := by
  have hfail : counterSystem.step counterPosted (.fail 0 "actor Worker exited with code 1") _ :=
    .fail Nat.one_pos
  exact (counterPosted_reachable.step hfail).step (e := .complete 1 0)
    (SupervisorStep.complete (r := 0) (w := 0) rfl rfl)

/-- Nothing was executed yet, or the entry has lost its worker. -/
theorem resident_only_first : ((AsksForState counterLoaded (counterCalled 2) 2 ↔
      MayAsk counterLoaded.supervisor (.call 2 none 0) (counterCommand none true).command.actor) ∧
    AsksForState counterLoaded (counterCalled 2) 2) ∧
    counterEmptied.supervisor.residentOf (counterCommand none true).command.actor = some 0 ∧
    (counterEmptied.supervisor.residents 0).worker = none ∧ AsksForState counterEmptied counterAsked 2 := by
  constructor
  · have hcall : counterSystem.step counterLoaded (.call 2 none 0) (counterCalled 2) :=
      .call rfl (counterLoaded_free 2)
    have habsent : Absent counterLoaded.supervisor (counterCommand none true).command.actor := by
      rintro w - ⟨runtime, _, hthread, -⟩
      rw [counterLoaded_thread] at hthread
      cases hthread
    have hasks := (resident_only counterLoaded_reachable hcall rfl rfl rfl (by decide) habsent).1
    exact ⟨hasks, hasks.2 ⟨fun _ => rfl, fun _ _ hfound => by cases hfound⟩⟩
  · have hentry : counterEmptied.supervisor.residentOf (counterCommand none true).command.actor = some 0 := rfl
    have hnone : (counterEmptied.supervisor.residents 0).worker = none := rfl
    have hfree : counterEmptied.Free counterRequests 2 := by
      intro h' _ _ _ hh' _
      match h' with
      | 0 => cases hh'
      | 1 => rfl
      | 2 => rfl
    have hcall : counterSystem.step counterEmptied (.call 2 none 0) counterAsked := .call rfl hfree
    have habsent : Absent counterEmptied.supervisor (counterCommand none true).command.actor := by
      rintro w hlive ⟨runtime, _, hthread, -⟩
      rcases eq_or_ne w 0 with rfl | hne
      · cases hlive
      · have hworker : counterEmptied.supervisor.workers w = counterLoaded.supervisor.workers w :=
          ((Function.update_of_ne hne ..).trans (Function.update_of_ne hne ..)).trans (Function.update_of_ne hne ..)
        rw [hworker, counterLoaded_thread] at hthread
        cases hthread
    refine ⟨hentry, hnone, (resident_only counterEmptied_reachable hcall rfl rfl rfl (by decide) habsent).1.2 ⟨fun _ => rfl, ?_⟩⟩
    intro r w hfound hworker
    obtain rfl : 0 = r := Option.some.inj (hentry.symm.trans hfound)
    cases hnone.symm.trans hworker

theorem counterExited_reachable : counterSystem.Reachable counterExited := by
  have hreply : counterSystem.step counterPosted (.reply 0 (.invoked .null (.obj []) [])) _ :=
    .reply (h := 1) rfl rfl ⟨rfl, rfl⟩
  have hidle : counterSystem.Reachable counterIdle :=
    (counterPosted_reachable.step hreply).step (e := .complete 1 0)
    (SupervisorStep.complete (r := 0) (w := 0) rfl rfl)
  have hfail : counterSystem.step counterIdle (.fail 0 "actor Worker exited with code 1") _ := .fail Nat.one_pos
  exact hidle.step hfail

/-- No live worker holds the counter, and the command gets a failure. -/
theorem resident_only_exited :
    ¬ ∀ (s s' : SupervisorState (Fin 3) (Option (ActorRuntime Unit))) event h envelope,
    counterSystem.Reachable s → counterSystem.step s event s' → event.executes h →
    counterRequests h = .command envelope →
    envelope.residentOnly = true → envelope.command.actor.actorType ∈ s.supervisor.actorTypes.getD [] →
    Absent s.supervisor envelope.command.actor →
    ∀ evs s'' w? reply, counterSystem.Path s' evs s'' → s''.calls h = .finished w? reply →
    reply = .stateRequired := by
  intro hall
  have hfree : counterExited.Free counterRequests 2 := by
    intro h' _ _ _ hh' _
    match h' with
    | 0 => cases hh'
    | 1 => rfl
    | 2 => rfl
  have hcall : counterSystem.step counterExited (.call 2 none 0) counterRejected := .call rfl hfree
  have habsent : Absent counterExited.supervisor (counterCommand none true).command.actor := by
    rintro w hlive ⟨runtime, _, hthread, -⟩
    rcases eq_or_ne w 0 with rfl | hne
    · cases hlive
    · have hworker : counterExited.supervisor.workers w = counterLoaded.supervisor.workers w :=
        ((Function.update_of_ne hne ..).trans (Function.update_of_ne hne ..)).trans (Function.update_of_ne hne ..)
      rw [hworker, counterLoaded_thread] at hthread
      cases hthread
  have hcomplete : counterSystem.step counterRejected (.complete 2 0) _ := .complete (r := 0) (w := 0) rfl rfl
  cases hall _ _ _ 2 _ counterExited_reachable hcall rfl rfl rfl (by decide) habsent _ _ (some 0) _ (.single hcomplete) rfl

end Exited

end LDO
