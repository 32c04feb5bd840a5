import DurableObjects.Sanity.SupervisorRuns

/-! What the worker supervisor keeps to. Two things can go wrong where a command is given to a new
worker: the creation of the worker throws, which leaves an entry that nothing removes, or the
supervisor was closed while the command waited, and the worker outlives it. -/

namespace LDO

open ActorWorkerSupervisor

variable {ι Thread : Type} [DecidableEq ι] {code : WorkerCode Thread} {idleTimeoutMs : ℕ} {requests : ι → SupervisorRequest}
  {s s' : SupervisorState ι Thread} {event : SupervisorEvent ι}
    {supervisor : ActorWorkerSupervisor ι Thread} {key : ActorKey}
  {r w now : ℕ} {h : ι} {phase : CallPhase} {envelope : ExecutorCommandEnvelope} {thrown : Option String}

/-! ### Terminations -/

/-- A worker that ends for want of room or by its timer belongs to an actor that has no command in flight. -/
def SparesTurns (requests : ι → SupervisorRequest) (s s' : SupervisorState ι Thread) : Prop :=
  ∀ w reason, (s.supervisor.workers w).terminalError = none →
    (s'.supervisor.workers w).terminalError = some (.terminated reason) →
    (reason = .capacity ∨ ∃ timeoutMs, reason = .idle timeoutMs) →
    ∃ r, (s.supervisor.residents r).worker = some w ∧ ∀ h envelope, requests h = .command envelope →
      envelope.command.actor = (s.supervisor.residents r).key → (s.calls h).inFlight = false

theorem executeResident_error {error : WorkerError}
    (herror : ((supervisor.executeResident code h r envelope thrown).1.workers w).terminalError = some error) :
    (supervisor.workers w).terminalError = some error := by
  rcases executeResident_cases supervisor code h r envelope thrown with ⟨-, -, hnext⟩ |
    ⟨message, -, -, -, hnext⟩ |
    ⟨w', supervisor', -, hassigns, hnext⟩ <;> rw [hnext] at herror
  · exact herror
  · exact herror
  · have hassigned : (supervisor'.workers w).terminalError = some error := by
      rcases executeOn_cases supervisor' h r w' with ⟨-, hon⟩ | ⟨error', -, hon⟩ <;> rw [hon] at herror
      · exact herror
      · rcases eq_or_ne w w' with rfl | hne
        · simpa [setWorker, ActorWorker.settle] using herror
        · simpa [setWorker, hne] using herror
    rcases hassigns.worker w with hsame | ⟨-, -, hnew⟩
    · rwa [← hsame]
    · rw [hnew] at hassigned
      cases hassigned

/-- A command ends a worker only to make room, and then that of an idle entry. -/
theorem execute_error {error : WorkerError} (hlive : (supervisor.workers w).terminalError = none)
    (herror : ((supervisor.execute code h envelope thrown now).1.workers w).terminalError = some error) :
    ∃ key r, (key, r) ∈ supervisor.actors ∧ (supervisor.residents r).idleTimer = true ∧
    (supervisor.residents r).worker = some w := by
  rcases execute_cases supervisor code h envelope thrown now with ⟨reply, -, hnext⟩ | ⟨r, -, -, hnext⟩ |
    ⟨room, -, hroom, -, -, hnext⟩ <;> rw [hnext] at herror
  · rw [hlive] at herror
    cases herror
  · rw [executeResident_error herror] at hlive
    cases hlive
  · have hregistered : ((room.register envelope.command.actor now).workers w).terminalError =
        some error := executeResident_error herror
    have hroomError : (room.workers w).terminalError = some error := hregistered
    rcases makeRoomForActor_cases hroom with ⟨-, rfl⟩ | ⟨key, r, hmem, htimer, rfl⟩
    · rw [hroomError] at hlive
      cases hlive
    · rw [remove_workers] at hroomError
      exact ⟨key, r, hmem, htimer, (terminateWorker_error _ hlive hroomError).1⟩

omit [DecidableEq ι] in
/-- An idle entry has no command in flight. -/
theorem SupervisorOk.idle (hok : SupervisorOk requests s) (hmem : (key, r) ∈ s.supervisor.actors)
    (htimer : (s.supervisor.residents r).idleTimer = true) (hrequest : requests h = .command envelope)
    (hactor : envelope.command.actor = (s.supervisor.residents r).key) : (s.calls h).inFlight = false := by
  rw [← Bool.not_eq_true]
  intro hflight
  have hentry := hok.kept.entry_registered hmem
  obtain ⟨w, -, -, hrunning⟩ := hok.placed.here h envelope r hrequest hflight (hactor ▸ hentry)
  rw [hrunning] at htimer
  cases htimer

theorem call_error {request : SupervisorRequest} {error : WorkerError}
    (hlive : (supervisor.workers w).terminalError = none)
    (herror : ((supervisor.call code h request thrown now).1.workers w).terminalError = some error) :
    ∃ key r, (key, r) ∈ supervisor.actors ∧ (supervisor.residents r).idleTimer = true ∧
    (supervisor.residents r).worker = some w := by
  have hstill : ∀ {worker : ActorWorker ι Thread}, worker.terminalError = none →
      worker.terminalError = some error → False := by
    intro worker hnone hsome
    rw [hnone] at hsome
    cases hsome
  rcases call_cases supervisor code h request thrown now with ⟨phase, hnext, -⟩ |
    ⟨supervisor', w', -, -, hready, hnext⟩ | ⟨envelope, -, -, hnext⟩ <;> rw [hnext] at herror
  · exact (hstill hlive herror).elim
  · obtain ⟨-, -, -, -, hworkers, -⟩ := awaitReady_cases hready
    rcases hworkers w with hsame | ⟨-, hnew⟩
    · exact (hstill (hsame ▸ hlive) herror).elim
    · exact (hstill (hnew ▸ rfl) herror).elim
  · exact execute_error hlive herror

theorem sparesTurns_step (hok : SupervisorOk requests s)
    (hs : SupervisorStep code idleTimeoutMs requests s event s') :
    SparesTurns requests s s' := by
  intro w reason hlive hended hreason
  have hidle : (∃ key r, (key, r) ∈ s.supervisor.actors ∧ (s.supervisor.residents r).idleTimer = true ∧
      (s.supervisor.residents r).worker = some w) → ∃ r, (s.supervisor.residents r).worker = some w ∧
        ∀ h envelope, requests h = .command envelope → envelope.command.actor = (s.supervisor.residents r).key →
          (s.calls h).inFlight = false := by
    rintro ⟨key, r, hmem, htimer, hworker⟩
    exact ⟨r, hworker, fun h envelope hrequest hactor => hok.idle hmem htimer hrequest hactor⟩
  -- every other end has a reason of its own
  have hother : ∀ {reason'}, WorkerError.terminated reason = .terminated reason' → reason' ≠ .capacity →
      (∀ timeoutMs, reason' ≠ .idle timeoutMs) → False := by
    intro reason' hsame hcapacity hidle
    cases hsame
    rcases hreason with rfl | ⟨timeoutMs, rfl⟩
    · exact hcapacity rfl
    · exact hidle timeoutMs rfl
  have hworker : ∀ {w' worker}, ((s.supervisor.setWorker w' worker).workers w).terminalError =
      some (.terminated reason) → w = w' ∧ worker.terminalError = some (.terminated reason) := by
    intro w' worker herror
    rcases eq_or_ne w w' with rfl | hne
    · exact ⟨rfl, by simpa [setWorker] using herror⟩
    · simp [setWorker, hne, hlive] at herror
  have hdiscard : ∀ {w'}, ((s.supervisor.discardPreload w').workers w).terminalError ≠
      some (.terminated reason) := by
    intro w' herror
    unfold discardPreload at herror
    split_ifs at herror
    · rw [hlive] at herror
      cases herror
    · have htaken : (s.supervisor.takeSpeculativeWorker.workers w).terminalError = none := hlive
      exact hother (terminateWorker_error _ htaken herror).2 (by simp) (by simp)
  have hstill : (s.supervisor.workers w).terminalError = some (.terminated reason) → False := by
    simp [hlive]
  cases hs with
  | call => exact hidle (call_error hlive hended)
  | resume => exact hidle (execute_error hlive hended)
  | @load h w' hloading =>
    obtain ⟨-, -, -, -, hworkers⟩ := load_fields s.supervisor (requests h) w'
    have hended : ((s.supervisor.load (requests h) w').1.workers w).terminalError =
        some (.terminated reason) := hended
    rw [hworkers] at hended
    exact (hstill hended).elim
  | @post h r w' hstarting =>
    obtain ⟨rfl, herror⟩ := hworker hended
    rcases ActorWorker.post_cases (s.supervisor.workers w) h with ⟨-, hpost⟩ | ⟨error, hpost⟩ <;> rw [hpost] at herror
    · exact (hstill herror).elim
    · exact (hstill herror).elim
  | @complete h r w' answer now =>
    rcases complete_cases s.supervisor r w' answer now with ⟨code, message, -, hnext⟩ |
      ⟨code, message, -, hnext⟩ |
      ⟨reply, -, -, -, hnext⟩ <;> rw [hnext] at hended
    · exact (hstill hended).elim
    · exact (hother (terminateWorker_error (some w') hlive hended).2 (by simp) (by simp)).elim
    · exact (hstill hended).elim
  | @announce w' actorTypes =>
    obtain ⟨rfl, herror⟩ := hworker hended
    unfold ActorWorker.announce at herror
    split at herror
    · exact (hstill herror).elim
    · exact (hstill herror).elim
  | @fail w' message =>
    obtain ⟨rfl, herror⟩ := hworker hended
    unfold ActorWorker.fail at herror
    rw [hlive] at herror
    cases herror
  | @reply w' h envelope reply thread hrunning =>
    obtain ⟨rfl, herror⟩ := hworker hended
    rw [ActorWorker.reply_terminalError, hlive] at herror
    cases herror
  | @preloadRejected w' => exact absurd hended hdiscard
  | @preloadExpires w' => exact absurd hended hdiscard
  | @idle r htimer =>
    have hended : ((s.supervisor.removeIfCurrent idleTimeoutMs r).workers w).terminalError =
        some (.terminated reason) := hended
    unfold removeIfCurrent at hended
    dsimp only at hended
    split_ifs at hended with hstale
    · rw [hlive] at hended
      cases hended
    · rw [not_or, not_not] at hstale
      rw [remove_workers] at hended
      exact hidle ⟨_, r, residentOf_mem hstale.1, htimer, (terminateWorker_error _ hlive hended).1⟩
  | @evict actor =>
    have hended : ((s.supervisor.evict actor).workers w).terminalError = some (.terminated reason) := hended
    unfold evict at hended
    split at hended
    · rw [remove_workers] at hended
      exact (hother (terminateWorker_error _ hlive hended).2 (by simp) (by simp)).elim
    · rw [hlive] at hended
      cases hended
  | close =>
    obtain ⟨closing, hclose, hclosing⟩ := terminated_close s.supervisor
    have hended : (closing.workers w).terminalError = some (.terminated reason) := by
      have hsame : ((s.supervisor.close).workers w).terminalError = some (.terminated reason) := hended
      rwa [hclose] at hsame
    have hclosed : ∀ {error}, (closing.workers w).terminalError = some error → error = .terminated .closed := by
      intro error herror
      cases hfirst : (({ s.supervisor with closed := true }.takeSpeculativeWorker.terminateWorker
          s.supervisor.speculativeWorker .closed).workers w).terminalError with
      | none => exact hclosing.error w error hfirst herror
      | some first =>
        have hsame : first = error := Option.some.inj ((hclosing.stays w first hfirst).symm.trans herror)
        have htaken : ({ s.supervisor with closed := true }.takeSpeculativeWorker.workers w).terminalError = none := hlive
        exact hsame ▸ (terminateWorker_error _ htaken hfirst).2
    exact (hother (hclosed hended) (by simp) (by simp)).elim

/-! ### Replies -/

/-- The steps in which a call goes on by itself -/
def SupervisorEvent.continues (h : ι) : SupervisorEvent ι → Prop
  | .post h' | .complete h' _ => h' = h
  | _ => False

/-- Once its worker has replied or ended, a call needs only its own steps to return. -/
def ReturnsSoon (code : WorkerCode Thread) (idleTimeoutMs : ℕ) (requests : ι → SupervisorRequest)
    (s : SupervisorState ι Thread) (h : ι) (w : ℕ) : Prop :=
  ∃ evs s' reply, (workerSupervisor code idleTimeoutMs requests).Path s evs s' ∧ evs.length ≤ 2 ∧
    (∀ event ∈ evs, event.continues h) ∧ s'.calls h = .finished (some w) reply

theorem returns_of_settled (hexecuting : s.calls h = .executing r w)
    (hsettled : (s.supervisor.workers w).settled h ≠ none) :
    ∃ s' reply, SupervisorStep code idleTimeoutMs requests s (.complete h 0) s' ∧
    s'.calls h = .finished (some w) reply := by
  obtain ⟨answer, hanswer⟩ := Option.ne_none_iff_exists'.1 hsettled
  have hover : ∃ reply, (s.supervisor.complete r w answer 0).2 = .finished (some w) reply := by
    rcases complete_cases s.supervisor r w answer 0 with ⟨code, message, -, hnext⟩ | ⟨code, message, -, hnext⟩ |
      ⟨reply, -, -, -, hnext⟩ <;> rw [hnext] <;> exact ⟨_, rfl⟩
  obtain ⟨reply, hover⟩ := hover
  exact ⟨_, reply, .complete hexecuting hanswer, (Function.update_self ..).trans hover⟩

theorem SupervisorOk.returns (hok : SupervisorOk requests s) (hon : (s.calls h).On r w)
    (hdone : (s.supervisor.workers w).terminalError ≠ none ∨ ∃ reply, (w, h, reply) ∈ s.replies) :
    ReturnsSoon code idleTimeoutMs requests s h w := by
  rcases hon with hstarting | hexecuting
  · have hended : (s.supervisor.workers w).terminalError ≠ none := by
      refine hdone.resolve_right fun ⟨reply, hmem⟩ => ?_
      rcases hok.answered.settled h w (hok.answered.received h w reply hmem) with ⟨r', hphase⟩ | ⟨reply', hphase⟩ <;>
        simp [hstarting] at hphase
    have hpost : SupervisorStep code idleTimeoutMs requests s (.post h) _ :=
      .post hstarting ((hok.sound w).ended hended)
    have hsettled : ((s.supervisor.workers w).post h).settled h ≠ none := by
      rcases ActorWorker.post_cases (s.supervisor.workers w) h with ⟨hlive, -⟩ | ⟨error, hposted⟩
      · exact absurd hlive hended
      · rw [hposted, ActorWorker.settle_settled]
        exact Option.some_ne_none _
    have hsettled' : ((s.supervisor.setWorker w ((s.supervisor.workers w).post h)).workers w).settled h ≠ none := by
      simpa [setWorker] using hsettled
    obtain ⟨s', reply, hcomplete, hover⟩ :=
      returns_of_settled (s := s.put h (s.supervisor.setWorker w ((s.supervisor.workers w).post h), .executing r w))
        (Function.update_self ..) hsettled'
    refine ⟨[.post h, .complete h 0], s', reply, (System.Path.single hpost).snoc hcomplete, le_rfl, ?_, hover⟩
    simp [SupervisorEvent.continues]
  · have hsettled : (s.supervisor.workers w).settled h ≠ none := by
      rcases hdone with hended | ⟨reply, hmem⟩
      · exact (hok.answered.waits h r w hexecuting).resolve_left fun hslot =>
          hended ((hok.sound w).slot h hslot).1
      · exact hok.answered.received h w reply hmem
    obtain ⟨s', reply, hcomplete, hover⟩ := returns_of_settled hexecuting hsettled
    exact ⟨[.complete h 0], s', reply, .single hcomplete, Nat.le_succ 1,
      by simp [SupervisorEvent.continues], hover⟩

/-- What a command gets: the reply of its worker or a failure, once. -/
structure Settles (code : WorkerCode Thread) (idleTimeoutMs : ℕ) (requests : ι → SupervisorRequest)
    (s : SupervisorState ι Thread) :
    Prop where
  replied : ∀ h w reply, s.calls h = .finished (some w) reply →
    (∃ code message, reply = .failed code message) ∨ (w, h, reply) ∈ s.replies
  returns : ∀ h r w, (s.calls h).On r w →
    ((s.supervisor.workers w).terminalError ≠ none ∨ ∃ reply, (w, h, reply) ∈ s.replies) →
    ReturnsSoon code idleTimeoutMs requests s h w
  once : ∀ h w? reply evs s', s.calls h = .finished w? reply →
    (workerSupervisor code idleTimeoutMs requests).Path s evs s' → s'.calls h = .finished w? reply

theorem SupervisorOk.settles (hok : SupervisorOk requests s) : Settles code idleTimeoutMs requests s where
  replied := hok.answered.finished
  returns _ _ _ hon hdone := hok.returns hon hdone
  once _ _ _ _ _ hover hpath := over_path hover hpath

/-! ### A worker that does not start well -/

/-- After `close` every worker has ended. -/
def NoWorkerLeft (supervisor : ActorWorkerSupervisor ι Thread) : Prop :=
  supervisor.closed = true → ∀ w < supervisor.nextWorker, (supervisor.workers w).terminalError ≠ none

/-- A command that needs a new worker is given to a resident that has none, and nobody is on it. -/
theorem startsWorker_execute {calls : ι → CallPhase} (hstarts : supervisor.StartsWorker envelope)
    (hkept : supervisor.Kept) (hplaced : Placed requests supervisor calls) (code : WorkerCode Thread)
    (h : ι) (thrown : Option String) (now : ℕ) :
    ∃ (supervisor' : ActorWorkerSupervisor ι Thread) (r : ℕ), (envelope.command.actor, r) ∈ supervisor'.actors ∧
      (supervisor'.residents r).worker = none ∧ (∀ h w, ¬ (calls h).On r w) ∧
      supervisor'.closed = supervisor.closed ∧
      supervisor.execute code h envelope thrown now = supervisor'.executeResident code h r envelope thrown := by
  obtain ⟨htype, honly, hworker⟩ := hstarts
  rcases execute_cases supervisor code h envelope thrown now with ⟨reply, hnot, -⟩ | ⟨r, hfound, -, hnext⟩ |
    ⟨room, hnew, hroom, -, -, hnext⟩
  · exact absurd ⟨htype, honly, hworker⟩ hnot
  · rw [hfound] at hworker
    have hmem := residentOf_mem hfound
    refine ⟨supervisor, r, hmem, hworker, fun h w hon => ?_, rfl, hnext⟩
    obtain ⟨⟨envelope', hrequest, hkey⟩, -⟩ := hplaced.on h r w hon
    obtain ⟨w', -, hsome, -⟩ := hplaced.here h envelope' r hrequest hon.inFlight (hkey ▸ hkept.entry_registered hmem)
    rw [hworker] at hsome
    cases hsome
  · have hsame : room.closed = supervisor.closed ∧ room.speculativeWorker = supervisor.speculativeWorker ∧
        room.nextResident = supervisor.nextResident := by
      rcases makeRoomForActor_cases hroom with ⟨-, rfl⟩ | ⟨key, r, -, -, rfl⟩
      · exact ⟨rfl, rfl, rfl⟩
      · exact ⟨remove_closed, remove_speculativeWorker, remove_nextResident⟩
    rw [hnew] at hworker
    refine ⟨_, room.nextResident, mem_register.2 (.inr rfl), ?_, fun h w hon => ?_, hsame.1, hnext⟩
    · rw [register_resident, if_pos rfl, hsame.2.1]
      exact hworker.1
    · have hlt := (hplaced.on h _ w hon).2.1
      rw [hsame.2.2] at hlt
      exact lt_irrefl _ hlt

/-- A worker that does not start well leaves an entry without worker or timer, or lives after `close`. -/
theorem execute_not_well {calls : ι → CallPhase} (hstarts : supervisor.StartsWorker envelope)
    (hkept : supervisor.Kept) (hplaced : Placed requests supervisor calls) (code : WorkerCode Thread)
    (h : ι) (thrown : Option String) (now : ℕ) (hill : ¬ (thrown = none ∧ supervisor.closed = false)) :
    ¬ (Busy (supervisor.execute code h envelope thrown now).1
        (Function.update calls h (supervisor.execute code h envelope thrown now).2) ∧
      NoWorkerLeft (supervisor.execute code h envelope thrown now).1) := by
  obtain ⟨supervisor', r, hmem, hnone, hoff, hclosed, hnext⟩ :=
    startsWorker_execute hstarts hkept hplaced code h thrown now
  rw [hnext]
  rintro ⟨hbusy, hended⟩
  rcases executeResident_cases supervisor' code h r envelope thrown with ⟨-, honly, -⟩ |
    ⟨message, -, -, -, hresult⟩ |
    ⟨w, supervisor'', hworker, -, hresult⟩
  · rw [hstarts.2.1] at honly
    cases honly
  · rw [hresult] at hbusy
    rcases hbusy _ r hmem with htimer | ⟨h', w, hon⟩
    · simp [ActorWorkerSupervisor.setResident] at htimer
    · rcases eq_or_ne h' h with rfl | hne
      · rw [Function.update_self] at hon
        rcases hon with hon | hon <;> cases hon
      · exact hoff h' w (by rwa [Function.update_of_ne hne] at hon)
  · rcases hworker with hsome | ⟨-, -, hcreated, rfl, rfl⟩
    · rw [hnone] at hsome
      cases hsome
    -- the supervisor is closed, and the new worker lives
    · have hlate : supervisor'.closed = true := by
        rw [hclosed]
        by_contra hopen
        exact hill ⟨hcreated, Bool.eq_false_iff.2 hopen⟩
      have hlive : ((supervisor'.employ code.start r).workers supervisor'.nextWorker).terminalError = none := by
        rw [employ_worker, if_pos rfl]
        rfl
      rcases executeOn_cases (supervisor'.employ code.start r) h r supervisor'.nextWorker with
        ⟨-, hon⟩ | ⟨error, hfailed, -⟩
      · rw [hresult, hon] at hended
        exact hended hlate supervisor'.nextWorker (Nat.lt_succ_self _) hlive
      · rw [hlive] at hfailed
        cases hfailed

/-- A supervisor whose workers start well keeps to all of it; the first that does not breaks it. -/
theorem worker_supervisor (code : WorkerCode Thread) (idleTimeoutMs : ℕ) (requests : ι → SupervisorRequest) :
    (∀ s : SupervisorState ι Thread, ((workerSupervisor code idleTimeoutMs requests).restrict (StartsWell requests)).Reachable s →
      s.supervisor.actors.length ≤ maxResidentActors ∧ Busy s.supervisor s.calls ∧
      Settles code idleTimeoutMs requests s ∧
        NoWorkerLeft s.supervisor ∧ ∀ event s',
          (workerSupervisor code idleTimeoutMs requests).step s event s' → SparesTurns requests s s') ∧
    ∀ (s s' : SupervisorState ι Thread) event,
      ((workerSupervisor code idleTimeoutMs requests).restrict (StartsWell requests)).Reachable s →
      (workerSupervisor code idleTimeoutMs requests).step s event s' → ¬ StartsWell requests s event s' →
        ¬ (Busy s'.supervisor s'.calls ∧ NoWorkerLeft s'.supervisor) := by
  refine ⟨fun s hreach => ?_, fun s s' event hreach hs hill => ?_⟩
  · have htight := supervisorTight_reachable hreach
    exact ⟨htight.ok.kept.bounded, htight.busy, htight.ok.settles,
      fun hclosed w hw => htight.ok.kept.ended_of_closed htight.shut hclosed hw,
      fun event s' hs => sparesTurns_step htight.ok hs⟩
  · have hok := (supervisorTight_reachable hreach).ok
    unfold StartsWell at hill
    rw [Classical.not_imp] at hill
    obtain ⟨hgives, hill⟩ := hill
    cases hs with
    | @call h thrown now =>
      obtain ⟨hopen, envelope, hrequest, hstarts⟩ := hgives
      have hcall : s.supervisor.call code h (requests h) thrown now =
          s.supervisor.execute code h envelope thrown now := by
        obtain ⟨actorTypes, htypes⟩ := Option.ne_none_iff_exists'.1 (actorTypes_ne_none hstarts.1)
        rw [hrequest]
        simp only [call, hopen, htypes, Bool.false_eq_true, if_false]
      rw [hcall]
      exact execute_not_well hstarts hok.kept hok.placed code h thrown now hill
    | @resume h envelope thrown now hloaded hrequest =>
      obtain ⟨envelope', hrequest', hstarts⟩ := hgives
      obtain rfl : envelope = envelope' := by
        rw [hrequest] at hrequest'
        cases hrequest'
        rfl
      exact execute_not_well hstarts hok.kept hok.placed code h thrown now hill
    | _ => exact hgives.elim

/-! ### Two calls -/

section Late

def quietCode : WorkerCode Unit := ⟨(), fun _ _ _ _ => True⟩

def lateCommand : ExecutorCommandEnvelope :=
  ⟨.invoke ⟨"call-1", ⟨"namespace-1", "Counter", "counter-1"⟩, "increment", [], []⟩, some .null, false⟩

/-- A call of `ready`, and a command -/
def lateRequests : Bool → SupervisorRequest
  | false => .ready
  | true => .command lateCommand

private abbrev lateSystem : System (SupervisorState Bool Unit) (SupervisorEvent Bool) :=
  (workerSupervisor quietCode 60000 lateRequests).restrict (StartsWell lateRequests)

theorem late_step {s s' : SupervisorState Bool Unit} {event : SupervisorEvent Bool}
    (hs : SupervisorStep quietCode 60000 lateRequests s event s') (hcreated : event.creationError = none)
    (hopen : s.supervisor.closed = false) : lateSystem.step s event s' := ⟨hs, fun _ => ⟨hcreated, hopen⟩⟩

/-- Both wait for the preload. -/
private def bothWait : SupervisorState Bool Unit :=
  let s : SupervisorState Bool Unit := ⟨.new quietCode, fun _ => .before, []⟩
  let s := s.put false (s.supervisor.call quietCode false .ready none 0)
  s.put true (s.supervisor.call quietCode true (.command lateCommand) none 0)

/-- The preload was announced and both were answered, the command second. -/
private def bothAnswered : SupervisorState Bool Unit :=
  let s := bothWait.set (bothWait.supervisor.setWorker 0 ((bothWait.supervisor.workers 0).announce ["Counter"]))
  let s := s.put false (s.supervisor.load .ready 0)
  s.put true (s.supervisor.load (.command lateCommand) 0)

private theorem bothWait_reachable : lateSystem.Reachable bothWait := by
  have hinit : lateSystem.Reachable ⟨.new quietCode, fun _ => .before, []⟩ := ⟨[], _, rfl, .nil _⟩
  have hready : lateSystem.step ⟨.new quietCode, fun _ => .before, []⟩ (.call false none 0) _ :=
    late_step (.call rfl nofun) rfl rfl
  refine (hinit.step hready).step (late_step (.call rfl ?_) rfl rfl)
  rintro (_ | _) envelope envelope' - h' -
  · cases h'
  · rfl

private theorem bothAnswered_reachable : lateSystem.Reachable bothAnswered := by
  have hannounce : lateSystem.step bothWait (.announce 0 ["Counter"]) _ :=
    late_step (.announce Nat.one_pos) rfl rfl
  have hready : lateSystem.step _ (.load false) _ := late_step
    (.load (s := bothWait.set (bothWait.supervisor.setWorker 0 ((bothWait.supervisor.workers 0).announce ["Counter"]))) (w := 0) rfl)
    rfl rfl
  refine ((bothWait_reachable.step hannounce).step hready).step (e := .load true) (late_step ?_ rfl rfl)
  exact SupervisorStep.load (w := 0) rfl

/-! ### A command that is replied to -/

/-- The command is given to the preloaded worker. -/
private def given : SupervisorState Bool Unit :=
  bothAnswered.put true (bothAnswered.supervisor.execute quietCode true lateCommand none 0)

private def posted : SupervisorState Bool Unit :=
  given.put true (given.supervisor.setWorker 0 ((given.supervisor.workers 0).post true), .executing 0 0)

def quietReply : ExecutorReply := .invoked .null .null []

/-- The worker has replied, and its actor is idle. -/
def replied : SupervisorState Bool Unit :=
  let s : SupervisorState Bool Unit :=
    { posted.set (posted.supervisor.setWorker 0 ((posted.supervisor.workers 0).reply quietReply ())) with
      replies := posted.replies ++ [(0, true, quietReply)] }
  s.put true (s.supervisor.complete 0 0 (.ok quietReply) 5)

theorem replied_reachable : lateSystem.Reachable replied := by
  have hresume : lateSystem.step bothAnswered (.resume true none 0) given := late_step (.resume rfl rfl) rfl rfl
  have hstarting : given.calls true = .starting 0 0 := rfl
  have hready : (given.supervisor.workers 0).readyPromise = .resolved ["Counter"] := rfl
  have hpost : lateSystem.step given (.post true) posted :=
    late_step (.post hstarting (by rw [hready]; simp)) rfl rfl
  have hrunning : (posted.supervisor.workers 0).running = some true := rfl
  have hreply := late_step
    (@SupervisorStep.reply _ _ _ quietCode 60000 lateRequests posted 0 true lateCommand quietReply () hrunning rfl trivial) rfl rfl
  exact (((bothAnswered_reachable.step hresume).step hpost).step hreply).step
    (late_step (.complete rfl rfl) rfl rfl)

theorem worker_supervisor_replied :
    ((workerSupervisor quietCode 60000 lateRequests).restrict (StartsWell lateRequests)).Reachable replied ∧
    replied.calls true = .finished (some 0) quietReply ∧ Busy replied.supervisor replied.calls ∧
    Settles quietCode 60000 lateRequests replied ∧ NoWorkerLeft replied.supervisor ∧
    ∀ s', (workerSupervisor quietCode 60000 lateRequests).step replied (.idle 0) s' →
    SparesTurns lateRequests replied s' := by
  obtain ⟨-, hbusy, hsettles, hended, hspares⟩ :=
    (worker_supervisor quietCode 60000 lateRequests).1 replied replied_reachable
  exact ⟨replied_reachable, rfl, hbusy, hsettles, hended, fun s' => hspares (.idle 0) s'⟩

/-! ### A supervisor that is closed while a command waits -/

/-- The caller of `ready` has closed the supervisor, and the command goes on. -/
def lateWorker : SupervisorState Bool Unit :=
  let s := bothAnswered.set bothAnswered.supervisor.close
  s.put true (s.supervisor.execute quietCode true lateCommand none 0)

theorem lateWorker_reachable : (workerSupervisor quietCode 60000 lateRequests).Reachable lateWorker := by
  have hclose : (workerSupervisor quietCode 60000 lateRequests).step bothAnswered .close _ := .close
  exact (bothAnswered_reachable.of_restrict.step hclose).step (.resume rfl rfl)

/-- The worker of the command is created after `close`, and nothing ends it. -/
theorem worker_supervisor_closed : ¬ ∀ s :
    SupervisorState Bool Unit, (workerSupervisor quietCode 60000 lateRequests).Reachable s →
    s.supervisor.actors.length ≤ maxResidentActors ∧ Busy s.supervisor s.calls ∧
    Settles quietCode 60000 lateRequests s ∧
      NoWorkerLeft s.supervisor ∧ ∀ event s',
        (workerSupervisor quietCode 60000 lateRequests).step s event s' → SparesTurns lateRequests s s' := by
  intro h
  have hended : NoWorkerLeft lateWorker.supervisor := (h lateWorker lateWorker_reachable).2.2.2.1
  have hlive : (lateWorker.supervisor.workers 1).terminalError = none := by decide +kernel
  exact hended (by decide +kernel) 1 (by decide +kernel) hlive

end Late

end LDO
