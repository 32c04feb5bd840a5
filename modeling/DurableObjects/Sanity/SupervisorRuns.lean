import DurableObjects.Sanity.SupervisorCalls

/-! The worker supervisor over whole runs. The map, the workers and the calls fit together whatever
happens. That no entry is left without a worker or a timer, and that nothing is left after `close`,
needs that the workers which commands are given to start well. -/

namespace LDO

open ActorWorkerSupervisor

variable {ι Thread : Type} [DecidableEq ι] {code : WorkerCode Thread} {idleTimeoutMs : ℕ} {requests : ι → SupervisorRequest}
  {s s' : SupervisorState ι Thread} {event : SupervisorEvent ι}
    {supervisor : ActorWorkerSupervisor ι Thread} {key : ActorKey}
  {r w now : ℕ} {h : ι} {phase : CallPhase} {envelope : ExecutorCommandEnvelope} {thrown : Option String}

/-- What holds whatever happens. -/
structure SupervisorOk (requests : ι → SupervisorRequest) (s : SupervisorState ι Thread) : Prop where
  kept : s.supervisor.Kept
  sound : ∀ w, (s.supervisor.workers w).Sound
  placed : Placed requests s.supervisor s.calls
  answered : Promised s.supervisor s.calls s.replies

omit [DecidableEq ι] in
theorem SupervisorOk.erode (hok : SupervisorOk requests s) (hkept : supervisor.Kept)
    (herodes : s.supervisor.Erodes supervisor) :
    SupervisorOk requests (s.set supervisor) :=
  ⟨hkept, herodes.sound hok.sound, hok.placed.erode herodes, hok.answered.keep herodes.nextWorker.ge (herodes.keeps hok.sound)⟩

/-- A call that is nowhere ends up where it waits for no worker. -/
theorem SupervisorOk.put (hok : SupervisorOk requests s)
    (hfrom : s.calls h = .before ∨ s.calls h = .loaded ∨ ∃ w, s.calls h = .loading w)
    (hphase : phase.inFlight = false) (hto : ∀ w reply, phase ≠ .finished (some w) reply) :
    SupervisorOk requests (s.put h (s.supervisor, phase)) where
  kept := hok.kept
  sound := hok.sound
  placed := hok.placed.put hphase
  answered := by
    apply hok.answered.put
    · intro r w hexecuting
      rcases hfrom with hfrom | hfrom | ⟨w, hfrom⟩ <;> simp [hexecuting] at hfrom
    · intro w reply hover
      rcases hfrom with hfrom | hfrom | ⟨w, hfrom⟩ <;> simp [hover] at hfrom
    · rintro r w rfl
      cases hphase
    · exact hto
    · exact fun r w hon => absurd hon (CallPhase.not_on_of_not_inFlight hphase)

theorem SupervisorOk.executeResident (hok : SupervisorOk requests s) (hbefore : s.calls h = .before)
    (hmem : (envelope.command.actor, r) ∈ s.supervisor.actors) (hrequest : requests h = .command envelope)
    (halone : AloneFor requests s.calls h envelope.command.actor) :
    SupervisorOk requests (s.put h (s.supervisor.executeResident code h r envelope thrown)) := by
  have hkept : (s.supervisor.executeResident code h r envelope thrown).1.Kept := hok.kept.executeResident hmem
  rcases executeResident_cases s.supervisor code h r envelope thrown with ⟨-, -, hnext⟩ |
    ⟨message, -, -, -, hnext⟩ |
    ⟨w, supervisor, -, hassigns, hnext⟩ <;> rw [hnext] at hkept ⊢
  · exact hok.put (.inl hbefore) rfl nofun
  · have hstill : SupervisorOk requests (s.set (s.supervisor.setResident r { s.supervisor.residents r with idleTimer := false })) :=
      ⟨hkept, hok.sound, hok.placed.setResident rfl rfl fun _ _ => rfl, hok.answered.keep le_rfl fun _ => .refl _⟩
    exact hstill.put (.inl hbefore) rfl nofun
  · have hoff : ∀ r w, ¬ (s.calls h).On r w := by
      rw [hbefore]
      exact fun _ _ => CallPhase.not_on_of_not_inFlight rfl
    have hsound : ∀ w, (supervisor.workers w).Sound := by
      intro w'
      rcases hassigns.worker w' with hsame | ⟨-, -, hnew⟩
      · exact hsame ▸ hok.sound w'
      · exact hnew ▸ ActorWorker.sound_new _
    have hanswered : Promised supervisor s.calls s.replies :=
      hok.answered.grow hassigns.nextWorker fun w' => (hassigns.worker w').imp_right fun hnew =>
        ⟨hnew.1.ge, hnew.2.2⟩
    have hemployed : (supervisor.residents r).worker = some w := by rw [hassigns.resident, if_pos rfl]
    have hplaced : ∀ {phase : CallPhase}, phase.On r w →
        Placed requests supervisor (Function.update s.calls h phase) :=
      hok.placed.assign hok.kept hmem hrequest halone hassigns hok.answered.bounded
    rcases executeOn_cases supervisor h r w with ⟨-, hon⟩ | ⟨error, hended, hon⟩ <;> rw [hon] at hkept ⊢
    · refine ⟨hkept, hsound, hplaced (.inl rfl), hanswered.put ?_ ?_ nofun nofun ?_⟩
      · exact fun r w hphase => hoff r w (.inr hphase)
      · rw [hbefore]
        exact nofun
      · intro r' w' hon'
        obtain ⟨-, rfl⟩ := hon'.unique (.inl rfl)
        exact hkept.worker r _ hemployed
    · have hslot : (supervisor.workers w).replySlot ≠ some h := fun hslot => by
        simp [((hsound w).slot h hslot).1] at hended
      refine ⟨hkept, setWorker_sound hsound ((hsound w).settle hslot _), (hplaced (.inr rfl)).setWorker id,
        hanswered.reject ?_ ?_ error (hkept.worker r w hemployed)⟩
      · exact fun r w hphase => hoff r w (.inr hphase)
      · rw [hbefore]
        exact nofun

theorem erodes_room {room : ActorWorkerSupervisor ι Thread} (hkept : supervisor.Kept)
    (hroom : supervisor.makeRoomForActor = some room) :
    supervisor.Erodes room := by
  rcases makeRoomForActor_cases hroom with ⟨-, rfl⟩ | ⟨key, r, hmem, -, rfl⟩
  · exact .refl _
  · exact erodes_remove hkept hmem

/-- An entry is filed for an actor that has none. -/
theorem SupervisorOk.register {room : ActorWorkerSupervisor ι Thread} (hok : SupervisorOk requests s)
    (hbefore : s.calls h = .before) (halone : AloneFor requests s.calls h key)
    (hnew : s.supervisor.residentOf key = none) (hroom : s.supervisor.makeRoomForActor = some room)
    (htypes : s.supervisor.actorTypes ≠ none) :
    SupervisorOk requests (s.set (room.register key now)) := by
  have hroomOk : SupervisorOk requests (s.set room) :=
    hok.erode (hok.kept.makeRoom hroom hnew).1 (erodes_room hok.kept hroom)
  have hall : ∀ h' envelope', requests h' = .command envelope' → envelope'.command.actor = key →
      (s.calls h').inFlight = false := by
    intro h' envelope' hh hactor
    rcases eq_or_ne h' h with rfl | hne
    · rw [hbefore]
      rfl
    · exact halone h' envelope' hh hactor hne
  exact ⟨hok.kept.room hroom hnew htypes, hroomOk.sound, hroomOk.placed.register hall,
    hroomOk.answered.keep le_rfl fun _ => .refl _⟩

theorem SupervisorOk.execute (hok : SupervisorOk requests s) (hbefore : s.calls h = .before)
    (hrequest : requests h = .command envelope) (halone : AloneFor requests s.calls h envelope.command.actor) :
    SupervisorOk requests (s.put h (s.supervisor.execute code h envelope thrown now)) := by
  rcases execute_cases s.supervisor code h envelope thrown now with ⟨reply, -, hnext⟩ | ⟨r, hfound, -, hnext⟩ |
    ⟨room, hnew, hroom, htype, -, hnext⟩ <;> rw [hnext]
  · exact hok.put (.inl hbefore) rfl nofun
  · exact hok.executeResident hbefore (residentOf_mem hfound) hrequest halone
  · have hregistered : SupervisorOk requests (s.set (room.register envelope.command.actor now)) :=
      hok.register hbefore halone hnew hroom (actorTypes_ne_none htype)
    exact hregistered.executeResident hbefore (mem_register.2 (.inr rfl)) hrequest halone

omit [DecidableEq ι] in
/-- `ready()` leaves the map alone and may start a preload. -/
theorem awaitReady_cases {supervisor' : ActorWorkerSupervisor ι Thread}
    (h : supervisor.awaitReady code thrown = .ok (supervisor', w)) :
    supervisor'.actors = supervisor.actors ∧ supervisor'.residents = supervisor.residents ∧
      supervisor'.nextResident = supervisor.nextResident ∧ supervisor.nextWorker ≤ supervisor'.nextWorker ∧
      (∀ w', supervisor'.workers w' = supervisor.workers w' ∨
        w' = supervisor.nextWorker ∧ supervisor'.workers w' = .new code.start) ∧
      supervisor'.closed = supervisor.closed := by
  unfold awaitReady at h
  split at h
  · obtain ⟨rfl, rfl⟩ := Prod.mk.inj (Except.ok.inj h)
    exact ⟨rfl, rfl, rfl, le_rfl, fun _ => .inl rfl, rfl⟩
  · cases h
  · obtain ⟨rfl, rfl⟩ := Prod.mk.inj (Except.ok.inj h)
    refine ⟨rfl, rfl, rfl, Nat.le_succ _, fun w' => ?_, rfl⟩
    rcases eq_or_ne w' supervisor.nextWorker with rfl | hne
    · exact .inr ⟨rfl, Function.update_self ..⟩
    · exact .inl (Function.update_of_ne hne ..)

theorem SupervisorOk.wait (hok : SupervisorOk requests s) (hbefore : s.calls h = .before)
    (hnone : s.supervisor.actorTypes = none)
    (halone : ∀ envelope, requests h = .command envelope → AloneFor requests s.calls h envelope.command.actor) (hready : s.supervisor.awaitReady code thrown = .ok (supervisor, w)) :
    SupervisorOk requests (s.put h (supervisor, .loading w)) := by
  obtain ⟨hactors, hresidents, hnextResident, hnextWorker, hworkers, -⟩ := awaitReady_cases hready
  have hempty : supervisor.actors = [] := by
    rw [hactors]
    by_contra hsome
    exact hok.kept.loaded hsome hnone
  have hplaced : Placed requests supervisor s.calls := by
    refine ⟨fun h' envelope r _ _ hmem => ?_, fun h' r w' hon => ?_, hok.placed.single⟩
    · rw [hempty] at hmem
      cases hmem
    · obtain ⟨hrequest, hlt, hplace⟩ := hok.placed.on h' r w' hon
      rw [hresidents, hnextResident, hactors]
      refine ⟨hrequest, hlt, hplace.imp_right fun hended => ?_⟩
      rcases hworkers w' with hsame | ⟨rfl, -⟩
      · rwa [hsame]
      · exact absurd (hok.answered.bounded h' r _ hon) (lt_irrefl _)
  have hoff : ∀ r w', ¬ (CallPhase.loading w).On r w' := by
    rintro r w' (hon | hon) <;> cases hon
  refine ⟨hok.kept.awaitReady hready, fun w' => ?_, hplaced.wait hempty halone hoff,
    (hok.answered.grow hnextWorker fun w' => (hworkers w').imp_right fun hnew => ⟨hnew.1.ge, hnew.2⟩).put ?_ ?_ nofun nofun ?_⟩
  · rcases hworkers w' with hsame | ⟨-, hnew⟩
    · exact hsame ▸ hok.sound w'
    · exact hnew ▸ ActorWorker.sound_new _
  · rw [hbefore]
    exact nofun
  · rw [hbefore]
    exact nofun
  · exact fun r w' hon => absurd hon (hoff r w')

theorem SupervisorOk.call (hok : SupervisorOk requests s) (hbefore : s.calls h = .before)
    (halone : ∀ envelope, requests h = .command envelope → AloneFor requests s.calls h envelope.command.actor) :
    SupervisorOk requests (s.put h (s.supervisor.call code h (requests h) thrown now)) := by
  rcases call_cases s.supervisor code h (requests h) thrown now with ⟨phase, hnext, hphase, hto⟩ |
    ⟨supervisor, w, -, hnone, hready, hnext⟩ | ⟨envelope, hrequest, -, hnext⟩ <;> rw [hnext]
  · exact hok.put (.inl hbefore) hphase hto
  · exact hok.wait hbefore hnone halone hready
  · exact hok.execute hbefore hrequest (halone envelope hrequest)

/-- A call that waits for no worker of its own goes on waiting. -/
theorem SupervisorOk.move (hok : SupervisorOk requests s) (hloading : s.calls h = .loading w)
    (hphase : phase = .loaded ∨ ∃ w, phase = .loading w) :
    SupervisorOk requests (s.put h (s.supervisor, phase)) := by
  have hoff : ∀ {phase : CallPhase}, (phase = .loaded ∨ ∃ w, phase = .loading w) → ∀ r w, ¬ phase.On r w := by
    rintro phase (rfl | ⟨w', rfl⟩) r w (hon | hon) <;> cases hon
  have hfrom := hoff (.inr ⟨w, hloading⟩)
  refine ⟨hok.kept, hok.sound, hok.placed.move ?_ fun r w => iff_of_false (hoff hphase r w) (hfrom r w), hok.answered.put ?_ ?_ ?_ ?_ ?_⟩
  · rw [hloading]
    rcases hphase with rfl | ⟨w', rfl⟩ <;> rfl
  · exact fun r w hexecuting => hfrom r w (.inr hexecuting)
  · rw [hloading]
    exact nofun
  · exact fun r w hexecuting => hoff hphase r w (.inr hexecuting)
  · rcases hphase with rfl | ⟨w', rfl⟩ <;> exact nofun
  · exact fun r w hon => absurd hon (hoff hphase r w)

/-- `ready()` answers the call, or lets it go on. -/
theorem SupervisorOk.load (hok : SupervisorOk requests s) (hloading : s.calls h = .loading w) :
    SupervisorOk requests (s.put h (s.supervisor.load (requests h) w)) := by
  have hkept : (s.supervisor.load (requests h) w).1.Kept := hok.kept.load (requests h) w
  unfold ActorWorkerSupervisor.load at hkept ⊢
  split at hkept
  · exact hok.move hloading (.inr ⟨w, rfl⟩)
  · exact hok.put (.inr (.inr ⟨w, hloading⟩)) rfl nofun
  · exact hok.put (.inr (.inr ⟨w, hloading⟩)) rfl nofun
  · next actorTypes hresolved =>
    have hloaded : SupervisorOk requests (s.set { s.supervisor with
        actorTypes := some actorTypes
        speculativeTimer := if s.supervisor.speculativeWorker =
          some w then true else s.supervisor.speculativeTimer }) :=
      ⟨hkept, hok.sound, { hok.placed with }, { hok.answered with }⟩
    cases requests h with
    | ready => exact hloaded.put (.inr (.inr ⟨w, hloading⟩)) rfl nofun
    | command envelope => exact hloaded.move hloading (.inl rfl)

omit [DecidableEq ι] in
/-- A worker that lives is that of the resident its call is on. -/
theorem SupervisorOk.works (hok : SupervisorOk requests s)
    (hlive : (s.supervisor.workers w).terminalError = none) (hon : (s.calls h).On r w) :
    (s.supervisor.residents r).worker = some w := by
  obtain ⟨⟨envelope, hrequest, hkey⟩, -, hplace⟩ := hok.placed.on h r w hon
  have hmem := hplace.resolve_right fun hended => hended hlive
  obtain ⟨w', hon', hworker, -⟩ := hok.placed.here h envelope r hrequest hon.inFlight (hkey ▸ hmem)
  rwa [(hon.unique hon').2]

omit [DecidableEq ι] in
/-- One call is on a worker that lives. -/
theorem SupervisorOk.single_on (hok : SupervisorOk requests s)
    (hlive : (s.supervisor.workers w).terminalError = none) {h' : ι} {r' : ℕ}
    (hon' : (s.calls h').On r' w) (hon : (s.calls h).On r w) : h' = h := by
  obtain rfl := hok.kept.own r r' w (hok.works hlive hon) (hok.works hlive hon')
  obtain ⟨⟨envelope, hrequest, hkey⟩, -⟩ := hok.placed.on h r w hon
  obtain ⟨⟨envelope', hrequest', hkey'⟩, -⟩ := hok.placed.on h' r w hon'
  exact hok.placed.single h' h envelope' envelope hrequest' hrequest
    (hkey.symm.trans hkey') hon'.inFlight hon.inFlight

/-- The worker gets the command, or cannot. -/
theorem SupervisorOk.post (hok : SupervisorOk requests s) (hstarting : s.calls h = .starting r w) :
    SupervisorOk requests (s.put h (s.supervisor.setWorker w ((s.supervisor.workers w).post h), .executing r w)) := by
  have hon : (s.calls h).On r w := .inl hstarting
  have hplaced : Placed requests s.supervisor (Function.update s.calls h (.executing r w)) := by
    refine hok.placed.move ?_ (CallPhase.on_executing_iff hstarting)
    rw [hon.inFlight]
    rfl
  have hslot : (s.supervisor.workers w).replySlot ≠ some h := by
    intro hslot
    obtain ⟨r', hexecuting⟩ := hok.answered.slotted h w hslot
    rw [hstarting] at hexecuting
    cases hexecuting
  have hsettled : (s.supervisor.workers w).settled h = none := by
    by_contra hsome
    rcases hok.answered.settled h w hsome with ⟨r', hphase⟩ | ⟨reply, hphase⟩ <;> simp [hstarting] at hphase
  have hsound := setWorker_sound (w := w) hok.sound ((hok.sound w).post hslot hsettled)
  rcases ActorWorker.post_cases (s.supervisor.workers w) h with ⟨hlive, hpost⟩ | ⟨error, hpost⟩ <;> rw [hpost] at hsound ⊢
  · refine ⟨hok.kept.setWorker id, hsound, hplaced.setWorker id, hok.answered.post hstarting ?_⟩
    -- the worker lives, so it belongs to the entry of this call alone
    rw [Option.eq_none_iff_forall_ne_some]
    intro h' hslot'
    obtain ⟨r', hexecuting⟩ := hok.answered.slotted h' w hslot'
    exact hslot (hok.single_on hlive (.inr hexecuting) hon ▸ hslot')
  · refine ⟨hok.kept.setWorker id, hsound, hplaced.setWorker id,
      hok.answered.reject ?_ ?_ error (hok.answered.bounded h r w hon)⟩
    · rw [hstarting]
      exact nofun
    · rw [hstarting]
      exact nofun

/-- What a call leaves behind: its reply is a failure or the worker's, its resident is idle or gone. -/
theorem complete_cases (supervisor : ActorWorkerSupervisor ι Thread) (r w : ℕ)
    (answer : Except WorkerError ExecutorReply) (now : ℕ) :
    (∃ code message, (supervisor.residents r).worker ≠ some w ∧ supervisor.complete r w answer now =
      (supervisor.setResident r { supervisor.residents r with lastCompletedAt := now },
        .finished (some w) (.failed code message))) ∨
    (∃ code message, (supervisor.residents r).worker = some w ∧ supervisor.complete r w answer now =
      ((supervisor.terminateWorker (some w) .failed).setResident r
        { supervisor.residents r with lastCompletedAt := now, worker := none, idleTimer := true },
        .finished (some w) (.failed code message))) ∨
    ∃ reply, (supervisor.residents r).worker = some w ∧ answer = .ok reply ∧
    (∀ code message, reply ≠ .failed code message) ∧
      supervisor.complete r w answer now =
        (supervisor.setResident r { supervisor.residents r with lastCompletedAt := now, idleTimer := true },
          .finished (some w) reply) := by
  unfold ActorWorkerSupervisor.complete
  dsimp only
  split_ifs with hother
  · exact .inl ⟨_, _, hother, rfl⟩
  · rw [not_not] at hother
    refine .inr ?_
    cases answer with
    | error error => cases error <;> exact .inl ⟨_, _, hother, rfl⟩
    | ok reply =>
      cases reply with
      | failed code message => exact .inl ⟨code, message, hother, rfl⟩
      | stateRequired => exact .inr ⟨_, hother, rfl, nofun, rfl⟩
      | invoked result state effects => exact .inr ⟨_, hother, rfl, nofun, rfl⟩
      | websocketHandled state effects => exact .inr ⟨_, hother, rfl, nofun, rfl⟩
      | evicted => exact .inr ⟨_, hother, rfl, nofun, rfl⟩

theorem SupervisorOk.complete (hok : SupervisorOk requests s) (hexecuting : s.calls h = .executing r w)
    {answer : Except WorkerError ExecutorReply} (hanswer : (s.supervisor.workers w).settled h = some answer) :
    SupervisorOk requests (s.put h (s.supervisor.complete r w answer now)) := by
  have hkept := hok.kept.complete r w answer now
  have hon : (s.calls h).On r w := .inr hexecuting
  rcases complete_cases s.supervisor r w answer now with ⟨code, message, -, hnext⟩ | ⟨code, message, -, hnext⟩ |
    ⟨reply, -, hreply, -, hnext⟩ <;> rw [hnext] at hkept ⊢
  · exact ⟨hkept, hok.sound, hok.placed.release hok.kept hon rfl rfl (setResident_key rfl) (fun _ => setResident_of_ne _) (fun _ => id) rfl,
      (hok.answered.finish hok.sound hexecuting hanswer (.inl ⟨code, message, rfl⟩)).keep le_rfl fun _ => .refl _⟩
  · refine ⟨hkept, terminateWorker_sound (some w) hok.sound,
      hok.placed.release hok.kept hon rfl rfl (setResident_key rfl) (fun _ => setResident_of_ne _) (fun w' hended hlive => ?_) rfl, ?_⟩
    · exact hended ((terminateWorker_live (some w)).1 hlive).1
    · exact (hok.answered.finish hok.sound hexecuting hanswer (.inl ⟨code, message, rfl⟩)).keep le_rfl
        (terminateWorker_keeps (some w) hok.sound)
  · exact ⟨hkept, hok.sound, hok.placed.release hok.kept hon rfl rfl (setResident_key rfl) (fun _ => setResident_of_ne _) (fun _ => id) rfl,
      (hok.answered.finish hok.sound hexecuting hanswer (.inr hreply)).keep le_rfl fun _ => .refl _⟩

theorem put_put (s : SupervisorState ι Thread) (phase : CallPhase)
    (next : ActorWorkerSupervisor ι Thread × CallPhase) :
    (s.put h (s.supervisor, phase)).put h next = s.put h next := by
  simp [SupervisorState.put]

/-- A call that goes on is taken out first, and comes back with its new phase. -/
theorem SupervisorOk.takeOut (hok : SupervisorOk requests s) (hloaded : s.calls h = .loaded)
    (hrequest : requests h = .command envelope) :
    SupervisorOk requests (s.put h (s.supervisor, .before)) ∧
      AloneFor requests (Function.update s.calls h .before) h envelope.command.actor := by
  refine ⟨hok.put (.inr (.inl hloaded)) rfl nofun, fun h' envelope' hh hactor hne => ?_⟩
  rw [Function.update_of_ne hne, ← Bool.not_eq_true]
  intro hflight
  refine hne (hok.placed.single h' h envelope' envelope hh hrequest hactor.symm hflight ?_)
  rw [hloaded]
  rfl

theorem SupervisorOk.resume (hok : SupervisorOk requests s) (hloaded : s.calls h = .loaded)
    (hrequest : requests h = .command envelope) :
    SupervisorOk requests (s.put h (s.supervisor.execute code h envelope thrown now)) := by
  obtain ⟨hout, halone⟩ := hok.takeOut hloaded hrequest
  rw [← put_put s .before]
  exact hout.execute (Function.update_self ..) hrequest halone

theorem SupervisorOk.step (hok : SupervisorOk requests s)
    (hs : SupervisorStep code idleTimeoutMs requests s event s') :
    SupervisorOk requests s' := by
  cases hs with
  | call hbefore hfree =>
    exact hok.call hbefore fun envelope hrequest h' envelope' hh hactor _ =>
      hfree h' envelope envelope' hrequest hh hactor
  | load hloading => exact hok.load hloading
  | resume hloaded hrequest => exact hok.resume hloaded hrequest
  | post hstarting => exact hok.post hstarting
  | complete hexecuting hanswer => exact hok.complete hexecuting hanswer
  | @announce w actorTypes => exact hok.erode (hok.kept.announce w actorTypes) (erodes_announce s.supervisor w actorTypes)
  | @fail w message => exact hok.erode (hok.kept.fail w (.failed message)) (erodes_fail s.supervisor w (.failed message))
  | @reply w h envelope reply thread hrunning =>
    have hterminal : ((s.supervisor.workers w).reply reply thread).terminalError =
        (s.supervisor.workers w).terminalError :=
      ActorWorker.reply_terminalError reply thread
    exact ⟨hok.kept.setWorker (hterminal ▸ id), setWorker_sound hok.sound ((hok.sound w).reply reply thread),
      hok.placed.setWorker (hterminal ▸ id), hok.answered.reply hok.sound hrunning reply thread⟩
  | @preloadRejected w => exact hok.erode (hok.kept.discardPreload w) (erodes_discardPreload w)
  | @preloadExpires w => exact hok.erode (hok.kept.discardPreload w) (erodes_discardPreload w)
  | @idle r => exact hok.erode (hok.kept.removeIfCurrent idleTimeoutMs r) (erodes_removeIfCurrent hok.kept idleTimeoutMs r)
  | @evict actor => exact hok.erode (hok.kept.evict actor) (erodes_evict hok.kept actor)
  | close => exact hok.erode hok.kept.close (erodes_close s.supervisor)

omit [DecidableEq ι] in
theorem new_workers (w : ℕ) :
    (ActorWorkerSupervisor.new code : ActorWorkerSupervisor ι Thread).workers w = .new code.start := by
  show Function.update (fun _ => ActorWorker.new code.start) 0 (.new code.start) w = _
  rw [Function.update_apply]
  split_ifs <;> rfl

omit [DecidableEq ι] in
theorem kept_new : (ActorWorkerSupervisor.new code : ActorWorkerSupervisor ι Thread).Kept := by
  unfold ActorWorkerSupervisor.new
  apply Kept.preload
  · exact ⟨List.nodup_nil, Nat.zero_le _, nofun, fun _ _ => ⟨rfl, rfl⟩, nofun, nofun, nofun, nofun,
      nofun, fun hsome => absurd rfl hsome⟩
  · rfl

omit [DecidableEq ι] in
theorem supervisorOk_new :
    SupervisorOk requests (⟨.new code, fun _ => .before, []⟩ : SupervisorState ι Thread) where
  kept := kept_new
  sound w := by
    rw [new_workers]
    exact ActorWorker.sound_new _
  placed := by
    refine ⟨fun _ _ _ _ hflight => ?_, fun h r w hon => ?_, fun _ _ _ _ _ _ _ hflight => ?_⟩
    · exact absurd hflight Bool.false_ne_true
    · exact absurd hon (CallPhase.not_on_of_not_inFlight rfl)
    · exact absurd hflight Bool.false_ne_true
  answered := by
    refine ⟨fun h r w hon => ?_, fun w _ => ?_, fun _ _ _ => nofun, fun h w => ?_, fun h w => ?_,
      fun h w => ?_, fun _ _ _ => nofun, fun _ _ _ => nofun⟩
    · exact absurd hon (CallPhase.not_on_of_not_inFlight rfl)
    · rw [new_workers]
      exact ⟨rfl, fun _ => rfl⟩
    · rw [new_workers]
      exact nofun
    · rw [new_workers]
      exact fun hsome => absurd rfl hsome
    · rw [new_workers]
      exact nofun

theorem supervisorOk_reachable (h : (workerSupervisor code idleTimeoutMs requests).Reachable s) :
    SupervisorOk requests s := by
  apply h.invariant (I := SupervisorOk requests)
  · rintro s rfl
    exact supervisorOk_new
  · exact fun hok hs => hok.step hs

/-- A call that has a reply keeps it. -/
theorem over_step {w? : Option ℕ} {reply : ExecutorReply} (hover : s.calls h = .finished w? reply)
    (hs : SupervisorStep code idleTimeoutMs requests s event s') : s'.calls h = .finished w? reply := by
  have hkeeps : ∀ {h' next}, s.calls h' ≠ .finished w? reply →
      (s.put h' next).calls h = .finished w? reply := by
    intro h' next hother
    have hne : h ≠ h' := by
      rintro rfl
      exact hother hover
    exact (Function.update_of_ne hne ..).trans hover
  cases hs with
  | call hbefore => exact hkeeps (by rw [hbefore]; exact nofun)
  | load hloading => exact hkeeps (by rw [hloading]; exact nofun)
  | resume hloaded => exact hkeeps (by rw [hloaded]; exact nofun)
  | post hstarting => exact hkeeps (by rw [hstarting]; exact nofun)
  | complete hexecuting => exact hkeeps (by rw [hexecuting]; exact nofun)
  | announce | fail | reply | preloadRejected | preloadExpires | idle | evict | close => exact hover

theorem over_path {w? : Option ℕ} {reply : ExecutorReply} {evs : List (SupervisorEvent ι)}
    (hover : s.calls h = .finished w? reply)
    (hpath : (workerSupervisor code idleTimeoutMs requests).Path s evs s') :
    s'.calls h = .finished w? reply := by
  induction hpath with
  | nil => exact hover
  | snoc _ hs ih => exact over_step ih hs

/-! ### No entry without a worker or a timer, and nothing after `close` -/

/-- What the creation of a worker throws in the step. -/
def SupervisorEvent.creationError : SupervisorEvent ι → Option String
  | .call _ error _ | .resume _ error _ => error
  | _ => none

/-- The step gives a command to a new worker. -/
def GivesToNew (requests : ι → SupervisorRequest) (s : SupervisorState ι Thread) : SupervisorEvent ι → Prop
  | .call h _ _ => s.supervisor.closed = false ∧ ∃ envelope, requests h = .command envelope ∧
      s.supervisor.StartsWorker envelope
  | .resume h _ _ => ∃ envelope, requests h = .command envelope ∧ s.supervisor.StartsWorker envelope
  | _ => False

/-- A worker that a command needs can be created, and not after `close`. -/
def StartsWell (requests : ι → SupervisorRequest) (s : SupervisorState ι Thread) (event : SupervisorEvent ι)
    (_ : SupervisorState ι Thread) : Prop :=
  GivesToNew requests s event → event.creationError = none ∧ s.supervisor.closed = false

omit [DecidableEq ι] in
theorem Busy.setWorker {calls : ι → CallPhase} (hbusy : Busy supervisor calls)
    (worker : ActorWorker ι Thread) :
    Busy (supervisor.setWorker w worker) calls := hbusy

theorem Busy.executeResident {calls : ι → CallPhase} (hoff : ∀ r w, ¬ (calls h).On r w)
    (hothers : ∀ key r', (key, r') ∈ supervisor.actors → r' ≠ r →
      (supervisor.residents r').idleTimer = true ∨ ∃ h w, (calls h).On r' w)
    (hself : envelope.residentOnly = true → Busy supervisor calls)
    (hthrown : (supervisor.residents r).worker = none → envelope.residentOnly = false → thrown = none) :
    Busy (supervisor.executeResident code h r envelope thrown).1
      (Function.update calls h (supervisor.executeResident code h r envelope thrown).2) := by
  rcases executeResident_cases supervisor code h r envelope thrown with ⟨-, honly, hnext⟩ |
    ⟨message, hnone, honly, hmessage, -⟩ |
    ⟨w, supervisor', -, hassigns, hnext⟩
  · rw [hnext]
    exact (hself honly).put hoff
  · rw [hthrown hnone honly] at hmessage
    cases hmessage
  · rw [hnext]
    rcases executeOn_cases supervisor' h r w with ⟨-, hon⟩ | ⟨error, -, hon⟩ <;> rw [hon]
    · exact Busy.assign hothers hoff hassigns (.inl rfl)
    · exact (Busy.assign hothers hoff hassigns (.inr rfl)).setWorker _

theorem Busy.execute {calls : ι → CallPhase} (hbusy : Busy supervisor calls) (hkept : supervisor.Kept)
    (hplaced : Placed requests supervisor calls) (hoff : ∀ r w, ¬ (calls h).On r w)
    (hwell : supervisor.StartsWorker envelope → thrown = none) :
    Busy (supervisor.execute code h envelope thrown now).1
      (Function.update calls h (supervisor.execute code h envelope thrown now).2) := by
  rcases execute_cases supervisor code h envelope thrown now with ⟨reply, -, hnext⟩ |
    ⟨r, hfound, htype, hnext⟩ |
    ⟨room, hnew, hroom, htype, honly, hnext⟩ <;> rw [hnext]
  · exact hbusy.put hoff
  · refine Busy.executeResident hoff (fun key r' hmem _ => hbusy key r' hmem) (fun _ => hbusy) fun hnone honly => hwell ⟨htype, honly, ?_⟩
    rwa [hfound]
  · refine Busy.executeResident hoff (fun key r' hmem hne => ?_) (fun hboth => ?_) fun hnone _ =>
      hwell ⟨htype, honly, ?_⟩
    · rw [register_resident, if_neg hne]
      rcases mem_register.1 hmem with hmem | hmem
      · exact (hbusy.erode (erodes_room hkept hroom)) key r' hmem
      · exact absurd (Prod.mk.inj hmem).2 hne
    · rw [honly] at hboth
      cases hboth
    · have hspeculative : room.speculativeWorker = supervisor.speculativeWorker := by
        rcases makeRoomForActor_cases hroom with ⟨-, rfl⟩ | ⟨key, r, hmem, -, rfl⟩
        · rfl
        · exact remove_speculativeWorker
      rw [register_resident, if_pos rfl] at hnone
      rw [hnew]
      exact ⟨hspeculative ▸ hnone, by rw [hroom]; exact Option.some_ne_none _⟩

theorem Busy.complete (hbusy : Busy s.supervisor s.calls) (hok : SupervisorOk requests s)
    (hexecuting : s.calls h = .executing r w) (answer : Except WorkerError ExecutorReply) :
    Busy (s.supervisor.complete r w answer now).1 (Function.update s.calls h (s.supervisor.complete r w answer now).2) := by
  have hon : (s.calls h).On r w := .inr hexecuting
  -- the other residents keep their timers and their calls
  have hothers : ∀ {phase : CallPhase} key r', (key, r') ∈ s.supervisor.actors → r' ≠ r →
      (s.supervisor.residents r').idleTimer = true ∨
      ∃ h' w', (Function.update s.calls h phase h').On r' w' := by
    intro phase key r' hmem hne
    refine (hbusy key r' hmem).imp_right fun ⟨h', w', hon'⟩ => ⟨h', w', ?_⟩
    have hh : h' ≠ h := by
      rintro rfl
      exact hne (hon'.unique hon).1
    rwa [Function.update_of_ne hh]
  rcases complete_cases s.supervisor r w answer now with ⟨code, message, hgone, hnext⟩ |
    ⟨code, message, -, hnext⟩ |
    ⟨reply, -, -, -, hnext⟩ <;> rw [hnext] <;> intro key r' hmem <;> rcases eq_or_ne r' r with rfl | hne
  · obtain ⟨⟨envelope, hrequest, hkey⟩, -⟩ := hok.placed.on h r' w hon
    have hactor : (envelope.command.actor, r') ∈ s.supervisor.actors := by
      rw [← hkey]
      exact hok.kept.entry_registered hmem
    obtain ⟨w', hon', hworker, -⟩ := hok.placed.here h envelope r' hrequest hon.inFlight hactor
    exact absurd ((hon.unique hon').2 ▸ hworker) hgone
  · rw [setResident_of_ne _ hne]
    exact hothers key r' hmem hne
  · exact .inl (by simp [ActorWorkerSupervisor.setResident])
  · rw [setResident_of_ne _ hne]
    exact hothers key r' hmem hne
  · exact .inl (by simp [ActorWorkerSupervisor.setResident])
  · rw [setResident_of_ne _ hne]
    exact hothers key r' hmem hne

theorem executeResident_fields (supervisor : ActorWorkerSupervisor ι Thread)
    (code : WorkerCode Thread) (h : ι) (r : ℕ) (envelope : ExecutorCommandEnvelope)
    (thrown : Option String) :
    (supervisor.executeResident code h r envelope thrown).1.closed = supervisor.closed := by
  unfold ActorWorkerSupervisor.executeResident executeOn
  dsimp only
  split_ifs
  · rfl
  · split
    · split <;> rfl
    · rfl
    · split <;> rfl

theorem ActorWorkerSupervisor.Shut.execute (hshut : supervisor.Shut)
    (hwell : supervisor.StartsWorker envelope → supervisor.closed = false) :
    (supervisor.execute code h envelope thrown now).1.Shut := by
  rcases execute_cases supervisor code h envelope thrown now with ⟨reply, -, hnext⟩ |
    ⟨r, hfound, htype, hnext⟩ |
    ⟨room, hnew, hroom, htype, honly, hnext⟩ <;> rw [hnext]
  · exact hshut
  · intro hclosed
    rw [executeResident_fields] at hclosed
    have hmem := residentOf_mem hfound
    rw [(hshut hclosed).1] at hmem
    cases hmem
  · intro hclosed
    rw [executeResident_fields] at hclosed
    have hroomClosed : room.closed = supervisor.closed := by
      rcases makeRoomForActor_cases hroom with ⟨-, rfl⟩ | ⟨key, r, -, -, rfl⟩
      · rfl
      · exact remove_closed
    have hclosed' : supervisor.closed = true := hroomClosed ▸ hclosed
    have hopen : supervisor.closed = false := by
      refine hwell ⟨htype, honly, ?_⟩
      rw [hnew]
      exact ⟨(hshut hclosed').2, by rw [hroom]; exact Option.some_ne_none _⟩
    rw [hclosed'] at hopen
    cases hopen

theorem ActorWorkerSupervisor.Shut.complete (hshut : supervisor.Shut)
    (answer : Except WorkerError ExecutorReply) :
    (supervisor.complete r w answer now).1.Shut := by
  rcases complete_cases supervisor r w answer now with ⟨code, message, -, hnext⟩ | ⟨code, message, -, hnext⟩ |
    ⟨reply, -, -, -, hnext⟩ <;> rw [hnext] <;> exact hshut

/-- What holds as long as workers start well. -/
structure SupervisorTight (requests : ι → SupervisorRequest) (s : SupervisorState ι Thread) : Prop where
  ok : SupervisorOk requests s
  busy : Busy s.supervisor s.calls
  shut : s.supervisor.Shut

/-- A call that ends or waits, in a map without entries or unchanged -/
theorem Busy.call {calls : ι → CallPhase} (hbusy : Busy supervisor calls) (hkept : supervisor.Kept)
    (hplaced : Placed requests supervisor calls) (hbefore : calls h = .before)
    (hwell : GivesToNew requests ⟨supervisor, calls, []⟩ (.call h thrown now) → thrown = none) :
    Busy (supervisor.call code h (requests h) thrown now).1
      (Function.update calls h (supervisor.call code h (requests h) thrown now).2) := by
  have hoff : ∀ r w, ¬ (calls h).On r w := by
    rw [hbefore]
    exact fun _ _ => CallPhase.not_on_of_not_inFlight rfl
  rcases call_cases supervisor code h (requests h) thrown now with ⟨phase, hnext, -⟩ |
    ⟨supervisor', w, -, -, hready, hnext⟩ | ⟨envelope, hrequest, hopen, hnext⟩ <;> rw [hnext]
  · exact hbusy.put hoff
  · obtain ⟨hactors, hresidents, -⟩ := awaitReady_cases hready
    have hbusy' : Busy supervisor' calls := by
      intro key r hmem
      rw [hresidents]
      exact hbusy key r (hactors ▸ hmem)
    exact hbusy'.put hoff
  · exact hbusy.execute hkept hplaced hoff fun hstarts => hwell ⟨hopen, envelope, hrequest, hstarts⟩

theorem ActorWorkerSupervisor.Shut.call (hshut : supervisor.Shut) (request : SupervisorRequest) :
    (supervisor.call code h request thrown now).1.Shut := by
  rcases call_cases supervisor code h request thrown now with ⟨phase, hnext, -⟩ |
    ⟨supervisor', w, hopen, -, hready, hnext⟩ | ⟨envelope, -, hopen, hnext⟩ <;> rw [hnext]
  · exact hshut
  · intro hclosed
    rw [(awaitReady_cases hready).2.2.2.2.2, hopen] at hclosed
    cases hclosed
  · exact hshut.execute fun _ => hopen

omit [DecidableEq ι] in
theorem load_fields (supervisor : ActorWorkerSupervisor ι Thread) (request : SupervisorRequest) (w : ℕ) :
    (supervisor.load request w).1.actors = supervisor.actors ∧
    (supervisor.load request w).1.residents = supervisor.residents ∧
      (supervisor.load request w).1.closed = supervisor.closed ∧
      (supervisor.load request w).1.speculativeWorker = supervisor.speculativeWorker ∧
      (supervisor.load request w).1.workers = supervisor.workers := by
  unfold ActorWorkerSupervisor.load
  split <;> exact ⟨rfl, rfl, rfl, rfl, rfl⟩

theorem SupervisorTight.step (htight : SupervisorTight requests s)
    (hs : SupervisorStep code idleTimeoutMs requests s event s')
    (hwell : StartsWell requests s event s') : SupervisorTight requests s' := by
  have hok' : SupervisorOk requests s' := htight.ok.step hs
  cases hs with
  | @call h thrown now hbefore hfree =>
    exact ⟨hok', htight.busy.call htight.ok.kept htight.ok.placed hbefore fun hgives => (hwell hgives).1, htight.shut.call _⟩
  | @load h w hloading =>
    obtain ⟨hactors, hresidents, hclosed, hspeculative, -⟩ := load_fields s.supervisor (requests h) w
    refine ⟨hok', fun key r hmem => ?_, fun hshut => ?_⟩
    · have hput : Busy s.supervisor (Function.update s.calls h (s.supervisor.load (requests h) w).2) := by
        apply htight.busy.put
        rw [hloading]
        rintro r w (hon | hon) <;> cases hon
      simp only [SupervisorState.put, hresidents]
      exact hput key r (hactors ▸ hmem)
    · simp only [SupervisorState.put, hactors, hspeculative]
      exact htight.shut (hclosed ▸ hshut)
  | @resume h envelope thrown now hloaded hrequest =>
    have hgives : s.supervisor.StartsWorker envelope → thrown = none ∧ s.supervisor.closed = false :=
      fun hstarts =>
      hwell ⟨envelope, hrequest, hstarts⟩
    refine ⟨hok', htight.busy.execute htight.ok.kept htight.ok.placed ?_ fun hstarts => (hgives hstarts).1,
      htight.shut.execute fun hstarts => (hgives hstarts).2⟩
    rw [hloaded]
    rintro r w (hon | hon) <;> cases hon
  | @post h r w hstarting =>
    exact ⟨hok', (htight.busy.move (CallPhase.on_executing_iff hstarting)).setWorker _, htight.shut⟩
  | @complete h r w answer now hexecuting hanswer =>
    exact ⟨hok', htight.busy.complete htight.ok hexecuting answer, htight.shut.complete answer⟩
  | announce => exact ⟨hok', htight.busy, htight.shut⟩
  | fail => exact ⟨hok', htight.busy, htight.shut⟩
  | reply => exact ⟨hok', htight.busy, htight.shut⟩
  | @preloadRejected w => exact ⟨hok', htight.busy.erode (erodes_discardPreload w), htight.shut.discardPreload w⟩
  | @preloadExpires w => exact ⟨hok', htight.busy.erode (erodes_discardPreload w), htight.shut.discardPreload w⟩
  | @idle r =>
    exact ⟨hok', htight.busy.erode (erodes_removeIfCurrent htight.ok.kept idleTimeoutMs r),
      htight.shut.removeIfCurrent idleTimeoutMs r⟩
  | @evict actor => exact ⟨hok', htight.busy.erode (erodes_evict htight.ok.kept actor), htight.shut.evict actor⟩
  | close => exact ⟨hok', htight.busy.erode (erodes_close s.supervisor), shut_close s.supervisor⟩

omit [DecidableEq ι] in
theorem supervisorTight_new :
    SupervisorTight requests (⟨.new code, fun _ => .before, []⟩ : SupervisorState ι Thread) :=
  ⟨supervisorOk_new, fun _ _ hmem => absurd hmem List.not_mem_nil, fun hclosed => absurd hclosed Bool.false_ne_true⟩

theorem supervisorTight_reachable
    (h : ((workerSupervisor code idleTimeoutMs requests).restrict (StartsWell requests)).Reachable s) : SupervisorTight requests s := by
  apply h.invariant (I := SupervisorTight requests)
  · rintro s rfl
    exact supervisorTight_new
  · exact fun htight hs => htight.step hs.1 hs.2

end LDO
