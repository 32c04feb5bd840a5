import Mathlib.Data.List.Nodup
import DurableObjects.Spec.Supervisor

/-! The worker supervisor between two awaits. An entry of the map owns its worker, and a worker that
nobody owns has ended. A call is on the entry of its actor, or its worker has ended, so it
always has an answer coming. -/

namespace LDO

variable {ι Thread : Type} [DecidableEq ι]

/-! ### One worker -/

/-- The promises of a worker fit together. -/
structure ActorWorker.Sound (worker : ActorWorker ι Thread) : Prop where
  slot : ∀ h, worker.replySlot = some h → worker.terminalError = none ∧ worker.running = some h
  unsettled : ∀ h, worker.replySlot = some h → worker.settled h = none
  posted : ∀ h, worker.running = some h → worker.replySlot = some h ∨ worker.terminalError ≠ none ∧
    worker.settled h ≠ none
  ended : worker.terminalError ≠ none → worker.readyPromise ≠ .pending

/-- What holds of the calls of a worker after something that is no command and no reply. -/
structure ActorWorker.Keeps (worker worker' : ActorWorker ι Thread) : Prop where
  slot : ∀ h, worker'.replySlot = some h → worker.replySlot = some h
  waits : ∀ h, worker.replySlot = some h → worker'.replySlot = some h ∨ worker'.settled h ≠ none
  settled : ∀ h, worker.settled h ≠ none → worker'.settled h ≠ none
  answers : ∀ h answer, worker'.settled h = some answer →
    worker.settled h = some answer ∨ worker.replySlot = some h ∧ ∃ error, answer = .error error

namespace ActorWorker

variable {worker worker' : ActorWorker ι Thread} {h : ι}

omit [DecidableEq ι] in
theorem sound_new (start : Thread) : (new start : ActorWorker ι Thread).Sound :=
  ⟨nofun, nofun, nofun, fun hended => absurd rfl hended⟩

omit [DecidableEq ι] in
theorem Keeps.refl (worker : ActorWorker ι Thread) : worker.Keeps worker :=
  ⟨fun _ => id, fun _ => .inl, fun _ => id, fun _ _ => .inl⟩

omit [DecidableEq ι] in
theorem Keeps.trans {worker'' : ActorWorker ι Thread} (h : worker.Keeps worker')
    (h' : worker'.Keeps worker'') : worker.Keeps worker'' where
  slot c hslot := h.slot c (h'.slot c hslot)
  waits c hslot := (h.waits c hslot).elim (h'.waits c) fun hsettled => .inr (h'.settled c hsettled)
  settled c hsettled := h'.settled c (h.settled c hsettled)
  answers c answer hanswer := by
    rcases h'.answers c answer hanswer with hanswer | ⟨hslot, herror⟩
    · exact h.answers c answer hanswer
    · exact .inr ⟨h.slot c hslot, herror⟩

omit [DecidableEq ι] in
/-- A settled promise stays as it was settled. -/
theorem Keeps.stable (hkeeps : worker.Keeps worker') (hsound : worker.Sound)
    {answer : Except WorkerError ExecutorReply} (hsettled : worker.settled h = some answer) :
    worker'.settled h = some answer := by
  obtain ⟨answer', hanswer⟩ := Option.ne_none_iff_exists'.1 (hkeeps.settled h (by rw [hsettled]; exact Option.some_ne_none _))
  rcases hkeeps.answers h answer' hanswer with hsame | ⟨hslot, -⟩
  · rw [hanswer, ← hsame, hsettled]
  · rw [hsound.unsettled h hslot] at hsettled
    cases hsettled

theorem settle_settled (answer : Except WorkerError ExecutorReply) :
    (worker.settle h answer).settled h = some answer :=
  Function.update_self ..

theorem settle_settled_ne_none (answer : Except WorkerError ExecutorReply) {h' : ι}
    (hsettled : worker.settled h' ≠ none) :
    (worker.settle h answer).settled h' ≠ none := by
  rcases eq_or_ne h' h with rfl | hne
  · simp [settle]
  · simpa [settle, Function.update_of_ne hne] using hsettled

theorem Sound.settle (hsound : worker.Sound) (hslot : worker.replySlot ≠ some h)
    (answer : Except WorkerError ExecutorReply) :
    (worker.settle h answer).Sound where
  slot := hsound.slot
  unsettled h' hslot' := by
    have hne : h' ≠ h := fun hsame => hslot (hsame ▸ hslot')
    simpa [ActorWorker.settle, hne] using hsound.unsettled h' hslot'
  posted h' hrunning := (hsound.posted h' hrunning).imp_right fun ⟨hended, hsettled⟩ =>
    ⟨hended, settle_settled_ne_none answer hsettled⟩
  ended := hsound.ended

theorem fail_of_terminal (hterminal : worker.terminalError ≠ none) (error : WorkerError) :
    worker.fail error = worker :=
  if_pos hterminal

theorem fail_terminalError_ne_none (error : WorkerError) : (worker.fail error).terminalError ≠ none := by
  unfold fail
  split_ifs with hended
  · exact hended
  · exact Option.some_ne_none _

theorem fail_readyPromise_ne_pending (hsound : worker.Sound) (error : WorkerError) :
    (worker.fail error).readyPromise ≠ .pending := by
  unfold fail
  split_ifs with hended
  · exact hsound.ended hended
  · cases hready : worker.readyPromise with
    | pending => exact nofun
    | resolved actorTypes => exact nofun
    | rejected error => exact nofun

theorem fail_replySlot (hsound : worker.Sound) (error : WorkerError) :
    (worker.fail error).replySlot = none := by
  unfold fail
  split_ifs with hended
  · rw [Option.eq_none_iff_forall_ne_some]
    exact fun h hslot => hended (hsound.slot h hslot).1
  · rfl

theorem fail_running (error : WorkerError) : (worker.fail error).running = worker.running := by
  unfold fail
  split_ifs <;> rfl

theorem fail_thread (error : WorkerError) : (worker.fail error).thread = worker.thread := by
  unfold fail
  split_ifs <;> rfl

theorem fail_settled_ne_none (error : WorkerError) {h' : ι}
    (hsettled : worker.replySlot = some h' ∧ worker.terminalError = none ∨ worker.settled h' ≠ none) :
    (worker.fail error).settled h' ≠ none := by
  unfold fail
  split_ifs with hended
  · exact hsettled.resolve_left fun ⟨_, hlive⟩ => hended hlive
  · cases hslot : worker.replySlot with
    | none => exact hsettled.resolve_left fun ⟨hwaits, _⟩ => by simp [hslot] at hwaits
    | some h =>
      rcases eq_or_ne h' h with rfl | hne
      · simp
      · have hother : ¬ (worker.replySlot = some h' ∧ worker.terminalError = none) := by
          rw [hslot]
          exact fun ⟨hsame, _⟩ => hne (Option.some.inj hsame).symm
        simpa [Function.update_of_ne hne] using hsettled.resolve_left hother

theorem Sound.fail (hsound : worker.Sound) (error : WorkerError) : (worker.fail error).Sound where
  slot h hslot := by
    rw [fail_replySlot hsound] at hslot
    cases hslot
  unsettled h hslot := by
    rw [fail_replySlot hsound] at hslot
    cases hslot
  posted h hrunning := by
    rw [fail_running] at hrunning
    refine .inr ⟨fail_terminalError_ne_none error, fail_settled_ne_none error ?_⟩
    exact (hsound.posted h hrunning).imp (fun hslot => ⟨hslot, (hsound.slot h hslot).1⟩) And.right
  ended _ := fail_readyPromise_ne_pending hsound error

theorem keeps_fail (hsound : worker.Sound) (error : WorkerError) : worker.Keeps (worker.fail error) where
  slot h hslot := by
    rw [fail_replySlot hsound] at hslot
    cases hslot
  waits h hslot := .inr (fail_settled_ne_none error (.inl ⟨hslot, (hsound.slot h hslot).1⟩))
  settled h hsettled := fail_settled_ne_none error (.inr hsettled)
  answers h answer hanswer := by
    unfold ActorWorker.fail at hanswer
    split_ifs at hanswer with hended
    · exact .inl hanswer
    · cases hslot : worker.replySlot with
      | none => exact .inl (by simpa [hslot] using hanswer)
      | some h' =>
        rcases eq_or_ne h h' with rfl | hne
        · have herror : Except.error error = answer := by simpa [hslot] using hanswer
          exact .inr ⟨rfl, error, herror.symm⟩
        · exact .inl (by simpa [hslot, Function.update_of_ne hne] using hanswer)

omit [DecidableEq ι] in
theorem Sound.announce (hsound : worker.Sound) (actorTypes : List String) :
    (worker.announce actorTypes).Sound := by
  unfold ActorWorker.announce
  cases hready : worker.readyPromise with
  | pending => exact ⟨hsound.slot, hsound.unsettled, hsound.posted, fun _ => nofun⟩
  | resolved actorTypes => exact hsound
  | rejected error => exact hsound

omit [DecidableEq ι] in
theorem keeps_announce (actorTypes : List String) : worker.Keeps (worker.announce actorTypes) := by
  unfold announce
  split
  · exact ⟨fun _ => id, fun _ => .inl, fun _ => id, fun _ _ => .inl⟩
  · exact .refl _

theorem Sound.reply (hsound : worker.Sound) (reply : ExecutorReply) (thread : Thread) :
    (worker.reply reply thread).Sound := by
  simp only [ActorWorker.reply]
  split
  · exact ⟨nofun, nofun, nofun, hsound.ended⟩
  · refine ⟨fun h hslot => ?_, fun h hslot => ?_, nofun, hsound.ended⟩ <;> simp_all

/-- The reply goes to the call it was posted for. -/
theorem reply_settled (hsound : worker.Sound) (hrunning : worker.running = some h)
    (reply : ExecutorReply) (thread : Thread) :
    (worker.reply reply thread).settled h ≠ none := by
  simp only [ActorWorker.reply]
  split
  · next h' hslot =>
    have hsame : h' = h := Option.some.inj ((hsound.slot h' hslot).2.symm.trans hrunning)
    subst hsame
    exact Option.ne_none_iff_exists'.2 ⟨_, Function.update_self ..⟩
  · next hslot =>
    refine ((hsound.posted h hrunning).resolve_left fun hslot' => ?_).2
    simp_all

theorem reply_answers (hsound : worker.Sound) (hrunning : worker.running = some h)
    (reply : ExecutorReply) (thread : Thread) {h' : ι} {answer : Except WorkerError ExecutorReply}
    (hanswer : (worker.reply reply thread).settled h' = some answer) :
    worker.settled h' = some answer ∨ h' = h ∧ worker.replySlot = some h ∧ answer = .ok reply := by
  simp only [ActorWorker.reply] at hanswer
  split at hanswer
  · next c hslot =>
    have hsame : c = h := Option.some.inj ((hsound.slot c hslot).2.symm.trans hrunning)
    subst hsame
    rcases eq_or_ne h' c with rfl | hne
    · exact .inr ⟨rfl, hslot, by simpa [ActorWorker.settle, eq_comm] using hanswer⟩
    · exact .inl (by simpa [ActorWorker.settle, hne] using hanswer)
  · exact .inl hanswer

theorem reply_replySlot (reply : ExecutorReply) (thread : Thread) :
    (worker.reply reply thread).replySlot = none := by
  simp only [ActorWorker.reply]
  split
  · rfl
  · next hslot => exact hslot

theorem reply_settled_ne_none (reply : ExecutorReply) (thread : Thread) (hsettled : worker.settled h ≠ none) :
    (worker.reply reply thread).settled h ≠ none := by
  simp only [ActorWorker.reply]
  split
  · exact settle_settled_ne_none _ hsettled
  · exact hsettled

theorem reply_terminalError (reply : ExecutorReply) (thread : Thread) :
    (worker.reply reply thread).terminalError = worker.terminalError := by
  simp only [ActorWorker.reply]
  split <;> rfl

omit [DecidableEq ι] in
theorem announce_terminalError (actorTypes : List String) :
    (worker.announce actorTypes).terminalError = worker.terminalError := by
  unfold announce
  split <;> rfl

omit [DecidableEq ι] in
theorem announce_thread (actorTypes : List String) : (worker.announce actorTypes).thread = worker.thread := by
  unfold announce
  split <;> rfl

theorem reply_thread (reply : ExecutorReply) (thread : Thread) :
    (worker.reply reply thread).thread = thread := by
  simp only [ActorWorker.reply]
  split <;> rfl

/-- The command is posted, or the promise of the call is rejected. -/
theorem post_cases (worker : ActorWorker ι Thread) (h : ι) :
    worker.terminalError = none ∧ worker.post h = { worker with replySlot := some h, running := some h } ∨
      ∃ error, worker.post h = worker.settle h (.error error) := by
  unfold post
  split
  · exact .inr ⟨_, rfl⟩
  · exact .inr ⟨_, rfl⟩
  · next hlive _ => exact .inl ⟨hlive, rfl⟩

theorem Sound.post (hsound : worker.Sound) (hslot : worker.replySlot ≠ some h)
    (hsettled : worker.settled h = none) :
    (worker.post h).Sound := by
  rcases post_cases worker h with ⟨hlive, hpost⟩ | ⟨error, hpost⟩
  · rw [hpost]
    refine ⟨fun h' hslot' => ⟨hlive, hslot'⟩, fun h' hslot' => ?_, fun h' => .inl, hsound.ended⟩
    rwa [← show h = h' from Option.some.inj hslot']
  · rw [hpost]
    exact hsound.settle hslot _

end ActorWorker

/-! ### The map, its residents and their workers -/

namespace ActorWorkerSupervisor

variable {supervisor supervisor' : ActorWorkerSupervisor ι Thread} {key : ActorKey} {r w : ℕ} {reason : TerminationReason}

omit [DecidableEq ι] in
theorem residentOf_mem (h : supervisor.residentOf key = some r) : (key, r) ∈ supervisor.actors := by
  obtain ⟨entry, hentry, rfl⟩ := Option.map_eq_some_iff.1 h
  have hkey : entry.1 = key := of_decide_eq_true
      (List.find?_some (p := fun entry : ActorKey × ℕ => decide (entry.1 = key)) hentry)
  exact hkey ▸ List.mem_of_find?_eq_some hentry

omit [DecidableEq ι] in
theorem residentOf_eq_none (h : supervisor.residentOf key = none) : (key, r) ∉ supervisor.actors := by
  have hnone := List.find?_eq_none.1 (Option.map_eq_none_iff.1 h)
  exact fun hmem => hnone _ hmem (decide_eq_true rfl)

/-- The map is in order. A resident outside it is bare, and a worker that lives is owned. -/
structure Kept (supervisor : ActorWorkerSupervisor ι Thread) : Prop where
  keys : (supervisor.actors.map Prod.fst).Nodup
  bounded : supervisor.actors.length ≤ maxResidentActors
  entry : ∀ key r, (key, r) ∈ supervisor.actors →
    r < supervisor.nextResident ∧ (supervisor.residents r).key = key
  bare : ∀ r, ((supervisor.residents r).key, r) ∉ supervisor.actors →
    (supervisor.residents r).worker = none ∧ (supervisor.residents r).idleTimer = false
  worker : ∀ r w, (supervisor.residents r).worker = some w → w < supervisor.nextWorker
  speculative : ∀ w, supervisor.speculativeWorker = some w → w < supervisor.nextWorker
  own : ∀ r r' w, (supervisor.residents r).worker = some w → (supervisor.residents r').worker = some w → r = r'
  spare : ∀ r w, supervisor.speculativeWorker = some w → (supervisor.residents r).worker ≠ some w
  owned : ∀ w, w < supervisor.nextWorker → (supervisor.workers w).terminalError = none →
    supervisor.speculativeWorker = some w ∨ ∃ r, (supervisor.residents r).worker = some w
  loaded : supervisor.actors ≠ [] → supervisor.actorTypes ≠ none

/-- A supervisor that is closed has nothing left. -/
def Shut (supervisor : ActorWorkerSupervisor ι Thread) : Prop :=
  supervisor.closed = true → supervisor.actors = [] ∧ supervisor.speculativeWorker = none

omit [DecidableEq ι] in
theorem Kept.residentOf_eq (hkept : supervisor.Kept) (hmem : (key, r) ∈ supervisor.actors) :
    supervisor.residentOf key = some r := by
  cases hfound : supervisor.residentOf key with
  | none => exact absurd hmem (residentOf_eq_none hfound)
  | some r' =>
    have hsame := List.inj_on_of_nodup_map hkept.keys hmem (residentOf_mem hfound) rfl
    rw [show r = r' from congrArg Prod.snd hsame]

omit [DecidableEq ι] in
/-- A resident with a worker or a timer is in the map. -/
theorem Kept.registered (hkept : supervisor.Kept)
    (hbusy : (supervisor.residents r).worker ≠ none ∨ (supervisor.residents r).idleTimer = true) :
    ((supervisor.residents r).key, r) ∈ supervisor.actors := by
  by_contra hbare
  obtain ⟨hworker, htimer⟩ := hkept.bare r hbare
  rcases hbusy with hbusy | hbusy
  · exact hbusy hworker
  · simp [htimer] at hbusy

omit [DecidableEq ι] in
theorem Kept.ended_of_closed (hkept : supervisor.Kept) (hshut : supervisor.Shut)
    (hclosed : supervisor.closed = true) (hw : w < supervisor.nextWorker) :
    (supervisor.workers w).terminalError ≠ none := by
  intro hlive
  obtain ⟨hempty, hnone⟩ := hshut hclosed
  rcases hkept.owned w hw hlive with hspeculative | ⟨r, hworker⟩
  · rw [hnone] at hspeculative
    cases hspeculative
  · have hmem := hkept.registered (.inl (by rw [hworker]; exact Option.some_ne_none w))
    rw [hempty] at hmem
    cases hmem

/-- What an end of residents and workers leaves as it was. -/
structure Erodes (supervisor supervisor' : ActorWorkerSupervisor ι Thread) : Prop where
  actors : supervisor'.actors ⊆ supervisor.actors
  nextResident : supervisor'.nextResident = supervisor.nextResident
  nextWorker : supervisor'.nextWorker = supervisor.nextWorker
  key : ∀ r, (supervisor'.residents r).key = (supervisor.residents r).key
  stays : ∀ key r, (key, r) ∈ supervisor'.actors → supervisor'.residents r = supervisor.residents r
  ended : ∀ w, (supervisor.workers w).terminalError ≠ none → (supervisor'.workers w).terminalError ≠ none
  leaves : ∀ key r w, (key, r) ∈ supervisor.actors → (key, r) ∉ supervisor'.actors →
    (supervisor.residents r).worker = some w → (supervisor'.workers w).terminalError ≠ none
  sound : (∀ w, (supervisor.workers w).Sound) → ∀ w, (supervisor'.workers w).Sound
  keeps : (∀ w, (supervisor.workers w).Sound) → ∀ w, (supervisor.workers w).Keeps (supervisor'.workers w)
  thread : ∀ w, (supervisor'.workers w).thread = (supervisor.workers w).thread
  speculative : ∀ w, supervisor'.speculativeWorker = some w → supervisor.speculativeWorker = some w

omit [DecidableEq ι] in
theorem Erodes.refl (supervisor : ActorWorkerSupervisor ι Thread) : supervisor.Erodes supervisor :=
  ⟨fun _ => id, rfl, rfl, fun _ => rfl, fun _ _ _ => rfl, fun _ => id, fun _ _ _ h h' => absurd h h', id, fun _ _ => .refl _,
    fun _ => rfl, fun _ => id⟩

section Terminate

variable (w? : Option ℕ)

@[simp] theorem terminateWorker_actors :
    (supervisor.terminateWorker w? reason).actors = supervisor.actors := by cases w? <;> rfl

@[simp] theorem terminateWorker_residents :
    (supervisor.terminateWorker w? reason).residents = supervisor.residents := by
  cases w? <;> rfl

@[simp] theorem terminateWorker_nextResident :
    (supervisor.terminateWorker w? reason).nextResident = supervisor.nextResident := by
  cases w? <;> rfl

@[simp] theorem terminateWorker_nextWorker :
    (supervisor.terminateWorker w? reason).nextWorker = supervisor.nextWorker := by
  cases w? <;> rfl

@[simp] theorem terminateWorker_closed :
    (supervisor.terminateWorker w? reason).closed = supervisor.closed := by cases w? <;> rfl

@[simp] theorem terminateWorker_actorTypes :
    (supervisor.terminateWorker w? reason).actorTypes = supervisor.actorTypes := by
  cases w? <;> rfl

@[simp] theorem terminateWorker_speculativeWorker :
    (supervisor.terminateWorker w? reason).speculativeWorker = supervisor.speculativeWorker := by cases w? <;> rfl

theorem terminateWorker_workers :
    ((supervisor.terminateWorker w? reason).workers w) =
      if w? = some w then (supervisor.workers w).terminate reason else supervisor.workers w := by
  cases w? with
  | none => rfl
  | some w' =>
    rcases eq_or_ne w' w with rfl | hne
    · simp [terminateWorker, setWorker]
    · simp [terminateWorker, setWorker, Function.update_of_ne hne.symm, hne]

theorem terminateWorker_live :
    ((supervisor.terminateWorker w? reason).workers w).terminalError = none ↔
      (supervisor.workers w).terminalError = none ∧ w? ≠ some w := by
  rw [terminateWorker_workers]
  split_ifs with hw
  · exact iff_of_false (ActorWorker.fail_terminalError_ne_none _) fun h => h.2 hw
  · exact ⟨fun h => ⟨h, hw⟩, And.left⟩

theorem terminateWorker_stays {error : WorkerError}
    (hended : (supervisor.workers w).terminalError = some error) :
    ((supervisor.terminateWorker w? reason).workers w).terminalError = some error := by
  rw [terminateWorker_workers]
  split_ifs
  · rwa [ActorWorker.terminate, ActorWorker.fail_of_terminal (by rw [hended]; exact Option.some_ne_none _)]
  · exact hended

theorem terminateWorker_error {error : WorkerError} (hlive : (supervisor.workers w).terminalError = none)
    (herror : ((supervisor.terminateWorker w? reason).workers w).terminalError = some error) :
    w? = some w ∧ error = .terminated reason := by
  rw [terminateWorker_workers] at herror
  split_ifs at herror with hw
  · refine ⟨hw, ?_⟩
    unfold ActorWorker.terminate ActorWorker.fail at herror
    rw [hlive] at herror
    exact (Option.some.inj herror).symm
  · rw [hlive] at herror
    cases herror

theorem terminateWorker_thread :
    ((supervisor.terminateWorker w? reason).workers w).thread = (supervisor.workers w).thread := by
  rw [terminateWorker_workers]
  split_ifs
  · exact ActorWorker.fail_thread _
  · rfl

theorem terminateWorker_sound (hsound : ∀ w, (supervisor.workers w).Sound) (w : ℕ) :
    ((supervisor.terminateWorker w? reason).workers w).Sound := by
  rw [terminateWorker_workers]
  split_ifs
  · exact (hsound w).fail _
  · exact hsound w

theorem terminateWorker_keeps (hsound : ∀ w, (supervisor.workers w).Sound) (w : ℕ) :
    (supervisor.workers w).Keeps ((supervisor.terminateWorker w? reason).workers w) := by
  rw [terminateWorker_workers]
  split_ifs
  · exact ActorWorker.keeps_fail (hsound w) _
  · exact .refl _

end Terminate

/-- The worker is not in the map: nothing but the worker ends. -/
theorem erodes_terminateWorker (w? : Option ℕ) :
    supervisor.Erodes (supervisor.terminateWorker w? reason) where
  actors := by simp
  nextResident := by simp
  nextWorker := by simp
  key := by simp
  stays := by simp
  ended w hended hlive := hended ((terminateWorker_live w?).1 hlive).1
  leaves key r w hmem hleft := absurd hmem (by simpa using hleft)
  sound hsound := terminateWorker_sound w? hsound
  keeps hsound := terminateWorker_keeps w? hsound
  thread w := terminateWorker_thread w?
  speculative := by simp

section TerminateResident

variable (r)

@[simp] theorem terminateResident_actors :
    (supervisor.terminateResident r reason).actors = supervisor.actors := by
  simp [terminateResident, setResident]

@[simp] theorem terminateResident_nextResident :
    (supervisor.terminateResident r reason).nextResident =
      supervisor.nextResident := by simp [terminateResident, setResident]

@[simp] theorem terminateResident_nextWorker :
    (supervisor.terminateResident r reason).nextWorker =
      supervisor.nextWorker := by simp [terminateResident, setResident]

@[simp] theorem terminateResident_closed :
    (supervisor.terminateResident r reason).closed = supervisor.closed := by
  simp [terminateResident, setResident]

@[simp] theorem terminateResident_actorTypes :
    (supervisor.terminateResident r reason).actorTypes = supervisor.actorTypes := by
  simp [terminateResident, setResident]

@[simp] theorem terminateResident_speculativeWorker :
    (supervisor.terminateResident r reason).speculativeWorker = supervisor.speculativeWorker := by
  simp [terminateResident, setResident]

theorem terminateResident_residents : (supervisor.terminateResident r reason).residents =
    Function.update supervisor.residents r { supervisor.residents r with idleTimer := false, worker := none } := by
  simp [terminateResident, setResident]

theorem terminateResident_workers (w : ℕ) : (supervisor.terminateResident r reason).workers w =
    (supervisor.terminateWorker (supervisor.residents r).worker reason).workers w := by
  rw [terminateResident, terminateWorker_workers, terminateWorker_workers]
  rfl

theorem terminateResident_live : ((supervisor.terminateResident r reason).workers w).terminalError = none ↔
    (supervisor.workers w).terminalError = none ∧ (supervisor.residents r).worker ≠ some w :=
  terminateWorker_live _

end TerminateResident

section Remove

@[simp] theorem remove_actors :
    (supervisor.remove key r reason).actors = supervisor.actors.filter fun entry => entry.1 ≠ key := by
  simp [ActorWorkerSupervisor.remove]

theorem mem_remove {entry : ActorKey × ℕ} :
    entry ∈ (supervisor.remove key r reason).actors ↔ entry ∈ supervisor.actors ∧ entry.1 ≠ key := by simp

@[simp] theorem remove_nextResident :
    (supervisor.remove key r reason).nextResident = supervisor.nextResident := by
  simp [ActorWorkerSupervisor.remove]

@[simp] theorem remove_nextWorker : (supervisor.remove key r reason).nextWorker = supervisor.nextWorker := by
  simp [ActorWorkerSupervisor.remove]

@[simp] theorem remove_closed : (supervisor.remove key r reason).closed = supervisor.closed := by
  simp [ActorWorkerSupervisor.remove]

@[simp] theorem remove_actorTypes : (supervisor.remove key r reason).actorTypes = supervisor.actorTypes := by
  simp [ActorWorkerSupervisor.remove]

@[simp] theorem remove_speculativeWorker :
    (supervisor.remove key r reason).speculativeWorker =
      supervisor.speculativeWorker := by simp [ActorWorkerSupervisor.remove]

theorem remove_residents : (supervisor.remove key r reason).residents =
    Function.update supervisor.residents r { supervisor.residents r with idleTimer := false, worker := none } :=
  terminateResident_residents r

theorem remove_resident_of_ne {r' : ℕ} (hne : r' ≠ r) :
    (supervisor.remove key r reason).residents r' = supervisor.residents r' := by
  rw [remove_residents, Function.update_of_ne hne]

theorem remove_resident_worker {r' : ℕ}
    (hworker : ((supervisor.remove key r reason).residents r').worker = some w) :
    r' ≠ r ∧ (supervisor.residents r').worker = some w := by
  rcases eq_or_ne r' r with rfl | hne
  · simp [remove_residents] at hworker
  · exact ⟨hne, by rwa [remove_resident_of_ne hne] at hworker⟩

theorem remove_workers (w : ℕ) : (supervisor.remove key r reason).workers w =
    (supervisor.terminateWorker (supervisor.residents r).worker reason).workers w := by
  rw [ActorWorkerSupervisor.remove, terminateResident_workers, terminateWorker_workers, terminateWorker_workers]

theorem remove_live : ((supervisor.remove key r reason).workers w).terminalError = none ↔
    (supervisor.workers w).terminalError = none ∧ (supervisor.residents r).worker ≠ some w :=
  terminateResident_live r

end Remove

omit [DecidableEq ι] in
/-- Two entries of one resident, or of one key, are the same. -/
theorem Kept.entry_unique (hkept : supervisor.Kept) {key' : ActorKey} {r' : ℕ}
    (hmem : (key, r) ∈ supervisor.actors) (hmem' : (key', r') ∈ supervisor.actors) :
    key' = key ↔ r' = r := by
  constructor
  · rintro rfl
    have hfound := hkept.residentOf_eq hmem'
    rw [hkept.residentOf_eq hmem] at hfound
    exact (Option.some.inj hfound).symm
  · rintro rfl
    rw [← (hkept.entry key' r' hmem').2, (hkept.entry key r' hmem).2]

theorem Kept.remove (hkept : supervisor.Kept) (hmem : (key, r) ∈ supervisor.actors) :
    (supervisor.remove key r reason).Kept where
  keys := by
    rw [remove_actors]
    exact hkept.keys.sublist (List.filter_sublist.map _)
  bounded := by
    rw [remove_actors]
    exact (List.length_filter_le _ _).trans hkept.bounded
  entry := by
    intro key' r' hmem'
    obtain ⟨hmem', hkey⟩ := mem_remove.1 hmem'
    have hne : r' ≠ r := fun hsame => hkey ((hkept.entry_unique hmem hmem').2 hsame)
    rw [remove_resident_of_ne hne, remove_nextResident]
    exact hkept.entry key' r' hmem'
  bare := by
    intro r' hbare
    rcases eq_or_ne r' r with rfl | hne
    · simp [remove_residents]
    · rw [remove_resident_of_ne hne] at hbare ⊢
      refine hkept.bare r' fun hmem' => hbare ?_
      exact mem_remove.2 ⟨hmem', fun hsame => hne ((hkept.entry_unique hmem hmem').1 hsame)⟩
  worker r' w hworker := by
    rw [remove_nextWorker]
    exact hkept.worker r' w (remove_resident_worker hworker).2
  speculative w hspeculative := by
    rw [remove_nextWorker]
    rw [remove_speculativeWorker] at hspeculative
    exact hkept.speculative w hspeculative
  own r₁ r₂ w h₁ h₂ := hkept.own r₁ r₂ w (remove_resident_worker h₁).2 (remove_resident_worker h₂).2
  spare r' w hspeculative hworker := by
    rw [remove_speculativeWorker] at hspeculative
    exact hkept.spare r' w hspeculative (remove_resident_worker hworker).2
  owned := by
    intro w hw hlive
    obtain ⟨hlive, hkeeps⟩ := remove_live.1 hlive
    rw [remove_nextWorker] at hw
    rw [remove_speculativeWorker]
    refine (hkept.owned w hw hlive).imp_right fun ⟨r', hworker⟩ => ⟨r', ?_⟩
    have hne : r' ≠ r := fun hsame => hkeeps (hsame ▸ hworker)
    rwa [remove_resident_of_ne hne]
  loaded hsome := by
    rw [remove_actorTypes]
    refine hkept.loaded fun hempty => hsome ?_
    rw [remove_actors, hempty, List.filter_nil]

theorem Shut.remove (hshut : supervisor.Shut) : (supervisor.remove key r reason).Shut := by
  intro hclosed
  rw [remove_closed] at hclosed
  obtain ⟨hempty, hnone⟩ := hshut hclosed
  rw [remove_actors, remove_speculativeWorker, hempty, List.filter_nil]
  exact ⟨rfl, hnone⟩

theorem erodes_remove (hkept : supervisor.Kept) (hmem : (key, r) ∈ supervisor.actors) :
    supervisor.Erodes (supervisor.remove key r reason) where
  actors := by
    rw [remove_actors]
    exact List.filter_subset_self _
  nextResident := remove_nextResident
  nextWorker := remove_nextWorker
  key r' := by
    rcases eq_or_ne r' r with rfl | hne
    · simp [remove_residents]
    · rw [remove_resident_of_ne hne]
  stays key' r' hmem' := by
    obtain ⟨hmem', hkey⟩ := mem_remove.1 hmem'
    exact remove_resident_of_ne fun hsame => hkey ((hkept.entry_unique hmem hmem').2 hsame)
  ended w hended hlive := hended (remove_live.1 hlive).1
  leaves key' r' w hmem' hleft hworker hlive := by
    have hsame : key' = key := by
      by_contra hother
      exact hleft (mem_remove.2 ⟨hmem', hother⟩)
    have hr : r' = r := (hkept.entry_unique hmem hmem').1 hsame
    exact (remove_live.1 hlive).2 (hr ▸ hworker)
  sound hsound w := by
    rw [remove_workers]
    exact terminateWorker_sound _ hsound w
  keeps hsound w := by
    rw [remove_workers]
    exact terminateWorker_keeps _ hsound w
  thread w := by
    rw [remove_workers]
    exact terminateWorker_thread _
  speculative w hspeculative := by rwa [remove_speculativeWorker] at hspeculative

omit [DecidableEq ι] in
theorem Kept.setWorker (hkept : supervisor.Kept) {worker : ActorWorker ι Thread}
    (hlive : worker.terminalError = none → (supervisor.workers w).terminalError = none) :
    (supervisor.setWorker w worker).Kept where
  __ := hkept
  owned w' hw hlive' := by
    apply hkept.owned w' hw
    rcases eq_or_ne w' w with rfl | hne
    · exact hlive (by simpa [ActorWorkerSupervisor.setWorker] using hlive')
    · simpa [ActorWorkerSupervisor.setWorker, hne] using hlive'

omit [DecidableEq ι] in
theorem setWorker_sound {worker : ActorWorker ι Thread} (hsound : ∀ w, (supervisor.workers w).Sound)
    (hworker : worker.Sound) (w' : ℕ) :
    ((supervisor.setWorker w worker).workers w').Sound := by
  rcases eq_or_ne w' w with rfl | hne
  · simpa [setWorker] using hworker
  · simpa [setWorker, hne] using hsound w'

omit [DecidableEq ι] in
theorem erodes_setWorker {worker : ActorWorker ι Thread}
    (hended : (supervisor.workers w).terminalError ≠ none → worker.terminalError ≠ none)
    (hsound : (supervisor.workers w).Sound → worker.Sound)
    (hkeeps : (supervisor.workers w).Sound → (supervisor.workers w).Keeps worker)
    (hthread : worker.thread = (supervisor.workers w).thread) :
    supervisor.Erodes (supervisor.setWorker w worker) where
  __ := Erodes.refl supervisor
  ended w' hended' := by
    rcases eq_or_ne w' w with rfl | hne
    · simpa [setWorker] using hended hended'
    · simpa [setWorker, hne] using hended'
  leaves _ _ _ hmem hleft := absurd hmem hleft
  sound hall w' := by
    rcases eq_or_ne w' w with rfl | hne
    · simpa [setWorker] using hsound (hall w')
    · simpa [setWorker, hne] using hall w'
  keeps hall w' := by
    rcases eq_or_ne w' w with rfl | hne
    · simpa [setWorker] using hkeeps (hall w')
    · simpa [setWorker, hne] using ActorWorker.Keeps.refl _
  thread w' := by
    rcases eq_or_ne w' w with rfl | hne
    · simpa [setWorker] using hthread
    · simp [setWorker, hne]

omit [DecidableEq ι] in
theorem Kept.announce (hkept : supervisor.Kept) (w : ℕ) (actorTypes : List String) :
    (supervisor.setWorker w ((supervisor.workers w).announce actorTypes)).Kept := by
  apply hkept.setWorker
  rw [ActorWorker.announce_terminalError]
  exact id

omit [DecidableEq ι] in
theorem erodes_announce (supervisor : ActorWorkerSupervisor ι Thread) (w : ℕ) (actorTypes : List String) :
    supervisor.Erodes (supervisor.setWorker w ((supervisor.workers w).announce actorTypes)) := by
  apply erodes_setWorker
  · rw [ActorWorker.announce_terminalError]
    exact id
  · exact fun hsound => hsound.announce actorTypes
  · exact fun _ => ActorWorker.keeps_announce actorTypes
  · exact ActorWorker.announce_thread actorTypes

theorem Kept.fail (hkept : supervisor.Kept) (w : ℕ) (error : WorkerError) :
    (supervisor.setWorker w ((supervisor.workers w).fail error)).Kept :=
  hkept.setWorker fun hlive => absurd hlive (ActorWorker.fail_terminalError_ne_none error)

theorem erodes_fail (supervisor : ActorWorkerSupervisor ι Thread) (w : ℕ) (error : WorkerError) :
    supervisor.Erodes (supervisor.setWorker w ((supervisor.workers w).fail error)) := by
  apply erodes_setWorker
  · exact fun _ => ActorWorker.fail_terminalError_ne_none error
  · exact fun hsound => hsound.fail error
  · exact fun hsound => ActorWorker.keeps_fail hsound error
  · exact ActorWorker.fail_thread error

theorem Kept.discardPreload (hkept : supervisor.Kept) (w : ℕ) : (supervisor.discardPreload w).Kept := by
  unfold ActorWorkerSupervisor.discardPreload
  split_ifs with hother
  · exact hkept
  · rw [not_not] at hother
    refine ⟨hkept.keys, hkept.bounded, hkept.entry, hkept.bare, hkept.worker, nofun, hkept.own,
      nofun, ?_, hkept.loaded⟩
    intro w' hw hlive
    obtain ⟨hlive, hne⟩ := (terminateWorker_live (some w)).1 hlive
    refine .inr ((hkept.owned w' hw hlive).resolve_left fun hspeculative => hne ?_)
    rw [← hother, hspeculative]

theorem Shut.discardPreload (hshut : supervisor.Shut) (w : ℕ) : (supervisor.discardPreload w).Shut := by
  unfold ActorWorkerSupervisor.discardPreload
  split_ifs
  · exact hshut
  · exact fun hclosed => ⟨(hshut hclosed).1, rfl⟩

theorem erodes_discardPreload (w : ℕ) : supervisor.Erodes (supervisor.discardPreload w) := by
  unfold discardPreload
  split_ifs
  · exact .refl _
  · have htaken : supervisor.takeSpeculativeWorker.Erodes (supervisor.takeSpeculativeWorker.terminateWorker (some w) .preload) :=
      erodes_terminateWorker (some w)
    exact { htaken with speculative := nofun }

theorem Kept.evict (hkept : supervisor.Kept) (key : ActorKey) : (supervisor.evict key).Kept := by
  unfold ActorWorkerSupervisor.evict
  split
  · next hfound => exact hkept.remove (residentOf_mem hfound)
  · exact hkept

theorem Shut.evict (hshut : supervisor.Shut) (key : ActorKey) : (supervisor.evict key).Shut := by
  unfold ActorWorkerSupervisor.evict
  split
  · exact hshut.remove
  · exact hshut

theorem erodes_evict (hkept : supervisor.Kept) (key : ActorKey) :
    supervisor.Erodes (supervisor.evict key) := by
  unfold ActorWorkerSupervisor.evict
  split
  · next hfound => exact erodes_remove hkept (residentOf_mem hfound)
  · exact .refl _

theorem Kept.removeIfCurrent (hkept : supervisor.Kept) (idleTimeoutMs r : ℕ) :
    (supervisor.removeIfCurrent idleTimeoutMs r).Kept := by
  unfold ActorWorkerSupervisor.removeIfCurrent
  dsimp only
  split_ifs with hother
  · exact hkept
  · rw [not_or, not_not] at hother
    exact hkept.remove (residentOf_mem hother.1)

theorem Shut.removeIfCurrent (hshut : supervisor.Shut) (idleTimeoutMs r : ℕ) :
    (supervisor.removeIfCurrent idleTimeoutMs r).Shut := by
  unfold ActorWorkerSupervisor.removeIfCurrent
  dsimp only
  split_ifs
  · exact hshut
  · exact hshut.remove

theorem erodes_removeIfCurrent (hkept : supervisor.Kept) (idleTimeoutMs r : ℕ) :
    supervisor.Erodes (supervisor.removeIfCurrent idleTimeoutMs r) := by
  unfold ActorWorkerSupervisor.removeIfCurrent
  dsimp only
  split_ifs with hother
  · exact .refl _
  · rw [not_or, not_not] at hother
    exact erodes_remove hkept (residentOf_mem hother.1)

omit [DecidableEq ι] in
/-- The entry that makes room is idle. -/
theorem leastRecent_mem {entry : ActorKey × ℕ} (h : supervisor.leastRecent = some entry) :
    entry ∈ supervisor.actors ∧ (supervisor.residents entry.2).idleTimer = true :=
  List.mem_filter.1 (List.argmin_mem h)

theorem makeRoomForActor_cases (h : supervisor.makeRoomForActor = some supervisor') :
    supervisor.actors.length < maxResidentActors ∧ supervisor' = supervisor ∨
      ∃ key r, (key, r) ∈ supervisor.actors ∧ (supervisor.residents r).idleTimer = true ∧
        supervisor' = supervisor.remove key r .capacity := by
  unfold makeRoomForActor at h
  split_ifs at h with hroom
  · exact .inl ⟨hroom, (Option.some.inj h).symm⟩
  · obtain ⟨⟨key, r⟩, hidle, rfl⟩ := Option.map_eq_some_iff.1 h
    obtain ⟨hmem, htimer⟩ := leastRecent_mem hidle
    exact .inr ⟨key, r, hmem, htimer, rfl⟩

/-- The residents of `entries` are bare, and their workers have ended. -/
structure Terminated (reason : TerminationReason) (entries : List (ActorKey × ℕ))
    (supervisor supervisor' : ActorWorkerSupervisor ι Thread) : Prop where
  nextResident : supervisor'.nextResident = supervisor.nextResident
  nextWorker : supervisor'.nextWorker = supervisor.nextWorker
  closed : supervisor'.closed = supervisor.closed
  actorTypes : supervisor'.actorTypes = supervisor.actorTypes
  speculativeWorker : supervisor'.speculativeWorker = supervisor.speculativeWorker
  resident : ∀ r, supervisor'.residents r =
    if r ∈ entries.map Prod.snd then { supervisor.residents r with idleTimer := false, worker := none } else supervisor.residents r
  live : ∀ w, (supervisor'.workers w).terminalError = none →
    (supervisor.workers w).terminalError = none ∧
    ∀ r ∈ entries.map Prod.snd, (supervisor.residents r).worker ≠ some w
  stays : ∀ w error, (supervisor.workers w).terminalError = some error →
    (supervisor'.workers w).terminalError = some error
  error : ∀ w error, (supervisor.workers w).terminalError = none →
    (supervisor'.workers w).terminalError = some error → error = .terminated reason
  sound : (∀ w, (supervisor.workers w).Sound) → ∀ w, (supervisor'.workers w).Sound
  keeps : (∀ w, (supervisor.workers w).Sound) → ∀ w, (supervisor.workers w).Keeps (supervisor'.workers w)
  thread : ∀ w, (supervisor'.workers w).thread = (supervisor.workers w).thread

theorem terminated_foldl (entries : List (ActorKey × ℕ)) (supervisor : ActorWorkerSupervisor ι Thread) :
    Terminated reason entries supervisor (entries.foldl (fun closing entry => closing.terminateResident entry.2 reason) supervisor) := by
  induction entries generalizing supervisor with
  | nil =>
    refine ⟨rfl, rfl, rfl, rfl, rfl, fun _ => rfl, fun _ hlive => ⟨hlive, nofun⟩, fun _ _ => id,
      fun w error hlive herror => ?_, id, fun _ _ => .refl _, fun _ => rfl⟩
    rw [List.foldl_nil, hlive] at herror
    cases herror
  | cons entry entries ih =>
    have hrest := ih (supervisor.terminateResident entry.2 reason)
    have hresident : ∀ r, (supervisor.terminateResident entry.2 reason).residents r =
        if r = entry.2 then { supervisor.residents r with idleTimer := false, worker := none } else supervisor.residents r := by
      intro r
      rw [terminateResident_residents]
      split_ifs with hr
      · rw [hr, Function.update_self]
      · rw [Function.update_of_ne hr]
    have hsound : (∀ w, (supervisor.workers w).Sound) →
        ∀ w, ((supervisor.terminateResident entry.2 reason).workers w).Sound := by
      intro hsound w
      rw [terminateResident_workers]
      exact terminateWorker_sound _ hsound w
    refine ⟨by simp [hrest.nextResident], by simp [hrest.nextWorker], by simp [hrest.closed], by simp [hrest.actorTypes],
      by simp [hrest.speculativeWorker], fun r => ?_, fun w hlive => ?_, fun w error hended => ?_, fun w error hlive herror => ?_,
      fun hall => hrest.sound (hsound hall), fun hall w => ?_, fun w => ?_⟩
    · rw [List.foldl_cons, hrest.resident, hresident, List.map_cons]
      simp only [List.mem_cons]
      split_ifs <;> tauto
    · obtain ⟨hlive, hothers⟩ := hrest.live w hlive
      obtain ⟨hlive, hfirst⟩ := (terminateResident_live _).1 hlive
      refine ⟨hlive, fun r hr => ?_⟩
      rcases eq_or_ne r entry.2 with rfl | hne
      · exact hfirst
      · have hr' : r ∈ entries.map Prod.snd := (List.mem_cons.1 (List.map_cons ▸ hr)).resolve_left hne
        have hother := hothers r hr'
        rwa [hresident, if_neg hne] at hother
    · exact hrest.stays w error (by rw [terminateResident_workers]; exact terminateWorker_stays _ hended)
    · cases hfirst : ((supervisor.terminateResident entry.2 reason).workers w).terminalError with
      | none => exact hrest.error w error hfirst herror
      | some first =>
        have hsame : first = error := Option.some.inj ((hrest.stays w first hfirst).symm.trans herror)
        rw [terminateResident_workers] at hfirst
        exact hsame ▸ (terminateWorker_error _ hlive hfirst).2
    · have hfirst : (supervisor.workers w).Keeps ((supervisor.terminateResident entry.2 reason).workers w) := by
        rw [terminateResident_workers]
        exact terminateWorker_keeps _ hall w
      exact hfirst.trans (hrest.keeps (hsound hall) w)
    · rw [List.foldl_cons, hrest.thread, terminateResident_workers]
      exact terminateWorker_thread _

theorem terminated_close (supervisor : ActorWorkerSupervisor ι Thread) : ∃ closing :
    ActorWorkerSupervisor ι Thread,
    supervisor.close = { closing with actors := [] } ∧
      Terminated .closed supervisor.actors
        ({ supervisor with closed := true }.takeSpeculativeWorker.terminateWorker supervisor.speculativeWorker .closed) closing :=
  ⟨_, rfl, terminated_foldl _ _⟩

theorem Kept.close (hkept : supervisor.Kept) : supervisor.close.Kept := by
  obtain ⟨closing, hclose, hclosing⟩ := terminated_close supervisor
  rw [hclose]
  have hbare : ∀ r, (closing.residents r).worker = none ∧ (closing.residents r).idleTimer = false := by
    intro r
    rw [hclosing.resident, terminateWorker_residents]
    split_ifs with hr
    · exact ⟨rfl, rfl⟩
    · exact hkept.bare r fun hmem => hr (List.mem_map_of_mem hmem)
  have hworker : ∀ r w, (closing.residents r).worker ≠ some w :=
    fun r w hworker => by simp [(hbare r).1] at hworker
  have hspeculative : closing.speculativeWorker = none :=
    hclosing.speculativeWorker.trans (terminateWorker_speculativeWorker _)
  refine ⟨List.nodup_nil, Nat.zero_le _, nofun, fun r _ => hbare r, fun r w h => absurd h (hworker r w), ?_,
    fun r _ w h => absurd h (hworker r w), ?_, ?_, fun h => absurd rfl h⟩
  · intro w h
    rw [show closing.speculativeWorker = some w from h] at hspeculative
    cases hspeculative
  · exact fun r w _ => hworker r w
  · intro w hw hlive
    obtain ⟨hlive, hresidents⟩ := hclosing.live w hlive
    obtain ⟨hlive, hspeculative⟩ := (terminateWorker_live _).1 hlive
    have hw' : w < supervisor.nextWorker := by
      rw [show closing.nextWorker = supervisor.nextWorker from hclosing.nextWorker.trans (terminateWorker_nextWorker _)] at hw
      exact hw
    rcases hkept.owned w hw' hlive with howner | ⟨r, howner⟩
    · exact absurd howner hspeculative
    · have hmem := hkept.registered (.inl (by rw [howner]; exact Option.some_ne_none w))
      have hother := hresidents r (List.mem_map_of_mem hmem)
      rw [terminateWorker_residents] at hother
      exact absurd howner hother

theorem shut_close (supervisor : ActorWorkerSupervisor ι Thread) : supervisor.close.Shut := by
  obtain ⟨closing, hclose, hclosing⟩ := terminated_close supervisor
  rw [hclose]
  exact fun _ => ⟨rfl, hclosing.speculativeWorker.trans (terminateWorker_speculativeWorker _)⟩

theorem erodes_close (supervisor : ActorWorkerSupervisor ι Thread) : supervisor.Erodes supervisor.close := by
  obtain ⟨closing, hclose, hclosing⟩ := terminated_close supervisor
  rw [hclose]
  have hspeculative : closing.speculativeWorker = none :=
    hclosing.speculativeWorker.trans (terminateWorker_speculativeWorker _)
  refine ⟨List.nil_subset _, ?_, ?_, ?_, nofun, ?_, ?_, ?_, ?_, fun w => ?_, fun w hsome => ?_⟩
  · exact hclosing.nextResident.trans (terminateWorker_nextResident _)
  · exact hclosing.nextWorker.trans (terminateWorker_nextWorker _)
  · intro r
    have hresident := hclosing.resident r
    rw [terminateWorker_residents] at hresident
    rw [hresident]
    split_ifs <;> rfl
  · exact fun w hended hlive => hended ((terminateWorker_live _).1 (hclosing.live w hlive).1).1
  · intro key r w hmem _ hworker hlive
    have hother := (hclosing.live w hlive).2 r (List.mem_map_of_mem hmem)
    rw [terminateWorker_residents] at hother
    exact hother hworker
  · exact fun hsound => hclosing.sound (terminateWorker_sound _ hsound)
  · intro hsound w
    apply ActorWorker.Keeps.trans ?_ (hclosing.keeps (terminateWorker_sound _ hsound) w)
    have hclosed : ∀ w, ({ supervisor with closed := true }.takeSpeculativeWorker.workers w).Sound := hsound
    exact terminateWorker_keeps _ hclosed w
  · exact (hclosing.thread w).trans (terminateWorker_thread _)
  · rw [show closing.speculativeWorker = some w from hsome] at hspeculative
    cases hspeculative

end ActorWorkerSupervisor

end LDO
