import DurableObjects.Sanity.Modal

/-! Provider processes side by side never mix up their hosts, and never run two of one name. -/

namespace LDO

namespace ModalSandboxProvider

open Prog

variable {sha256Hex : String → String} {catalog : CanonicalRegionCatalog}

/-! ### What a sandbox serves -/

/-- The environment that the sandbox was created with names this host. -/
structure Serves (sandbox : ModalSandbox) (key : HostKey) : Prop where
  namespaceId : sandbox.params.environment.lookup "DURABLE_OBJECT_NAMESPACE_ID" = some key.namespaceId
  codeRevision : sandbox.params.environment.lookup "DURABLE_OBJECT_CODE_REVISION" = some key.codeRevision
  canonicalRegion : sandbox.params.environment.lookup "DURABLE_OBJECT_REGION" = some key.canonicalRegion

def hostIdOf (sandbox : ModalSandbox) : Option String :=
  sandbox.params.environment.lookup "DURABLE_OBJECT_HOST_ID"

theorem hostEnvironment_lookup (request : EnsureHostRequest) (privateNetwork : Bool) :
    (hostEnvironment request privateNetwork).lookup "DURABLE_OBJECT_NAMESPACE_ID" = some request.namespaceId ∧
      (hostEnvironment request privateNetwork).lookup "DURABLE_OBJECT_CODE_REVISION" =
        some request.codeRevision ∧
      (hostEnvironment request privateNetwork).lookup "DURABLE_OBJECT_REGION" = some request.canonicalRegion ∧
      (hostEnvironment request privateNetwork).lookup "DURABLE_OBJECT_HOST_ID" = some request.hostId := by
  simp [hostEnvironment, List.lookup_cons]

theorem Launches.serves {sandbox : ModalSandbox} {request : EnsureHostRequest}
    (h : Launches sha256Hex sandbox.params request) :
    Serves sandbox request.key ∧ hostIdOf sandbox = some request.hostId := by
  obtain ⟨-, placement, hparams⟩ := h
  obtain ⟨hns, hrevision, hregion, hid⟩ := hostEnvironment_lookup request placement.privateNetwork
  have henv : sandbox.params.environment = hostEnvironment request placement.privateNetwork := by rw [hparams]; rfl
  exact ⟨⟨henv ▸ hns, henv ▸ hrevision, henv ▸ hregion⟩, by rw [hostIdOf, henv, hid]⟩

theorem Serves.unique {sandbox : ModalSandbox} {key key' : HostKey} (h : Serves sandbox key)
    (h' : Serves sandbox key') :
    key = key' := by
  obtain ⟨ns, revision, region⟩ := key
  obtain ⟨ns', revision', region'⟩ := key'
  obtain ⟨h₁, h₂, h₃⟩ := h
  obtain ⟨h₁', h₂', h₃'⟩ := h'
  cases Option.some.inj (h₁.symm.trans h₁')
  cases Option.some.inj (h₂.symm.trans h₂')
  cases Option.some.inj (h₃.symm.trans h₃')
  rfl

theorem Serves.launched {sandbox : ModalSandbox} {key : HostKey} (h : Serves sandbox key)
    (hok : SandboxOk sha256Hex sandbox) :
    ∃ request, Launches sha256Hex sandbox.params request ∧ request.key = key := by
  rcases hok.origin with ⟨placement, hwarms⟩ | ⟨request, hlaunches⟩
  · have := h.namespaceId
    rw [hwarms] at this
    cases this
  · exact ⟨request, hlaunches, hlaunches.serves.1.unique h⟩

/-! ### The invariant -/

def AnswerOk (sha256Hex : String → String) (task : ModalTask) (answer : ModalAnswer)
    (w : ModalWorld) : Prop :=
  ∀ request host, task = .ensureHost request → answer = .provisioned (.ok host) →
    HostRead sha256Hex (request.key.name sha256Hex) request.canonicalRegion host w

theorem AnswerOk.grows {task : ModalTask} {answer : ModalAnswer} {w w' : ModalWorld}
    (h : AnswerOk sha256Hex task answer w) (hg : Grows w w') : AnswerOk sha256Hex task answer w' :=
  fun request host htask hanswer => (h request host htask hanswer).grows hg

theorem wp_grows {task : ModalTask} {p : Prog ModalOp ModalOp.Res ModalAnswer} {w w' : ModalWorld}
    (hg : Grows w w') (h : wp (modalEnv sha256Hex task) p (AnswerOk sha256Hex task) w) :
    wp (modalEnv sha256Hex task) p (AnswerOk sha256Hex task) w' := by
  refine wp_stable (R := Grows) (fun _ _ _ hg ha => Allowed.grows ha hg) ?_ (fun _ _ _ hg ha => ha.grows hg) hg h
  rintro w w' op r w'' hg ⟨w₁, hg₁, hok, ha⟩
  exact ⟨w₁, hg.trans hg₁, hok, ha⟩

theorem wp_program (task : ModalTask) (w : ModalWorld) :
    wp (modalEnv sha256Hex task) (task.program sha256Hex catalog) (AnswerOk sha256Hex task) w := by
  cases task with
  | ensureHost request =>
    refine (wp_map _ _ _ _ _).mpr (wp_mono gives_ensureHostOnce fun r w' hr => ?_)
    intro request' host htask hanswer
    cases htask
    exact hr host (by cases hanswer; rfl)
  | terminateHosts request =>
    exact (wp_map _ _ _ _ _).mpr (wp_mono (gives_terminateHosts request) fun _ _ _ _ _ htask => by cases htask)
  | publicHostRoute request =>
    exact (wp_map _ _ _ _ _).mpr (wp_mono (gives_publicHostRoute request) fun _ _ _ _ _ htask => by cases htask)
  | warmImage request =>
    exact (wp_map _ _ _ _ _).mpr (wp_mono (gives_warmImage request) fun _ _ _ _ _ htask => by cases htask)

/-- The task is an activation of the name. -/
def Activates (sha256Hex : String → String) (name : String) (task : ModalTask) : Prop :=
  ∃ request, task = .ensureHost request ∧ request.key.name sha256Hex = name

/-- Every sandbox, every task and every call is about hosts that were asked for. -/
structure AskedOk (sha256Hex : String → String) (s : ModalState) : Prop where
  sandboxes : ∀ id sandbox request, s.world.sandboxes id = some sandbox →
    Launches sha256Hex sandbox.params request → request.key ∈ s.asked
  tasks : ∀ t process task p, s.tasks t = some ((process, task), p) → ∀ key ∈ task.keys, key ∈ s.asked
  settled : ∀ t task answer, s.settled t = some (task, answer) → ∀ key ∈ task.keys, key ∈ s.asked
  calls : ∀ c request t, s.calls c = some (request, t) → request.key ∈ s.asked

structure ModalOk (sha256Hex : String → String) (s : ModalState) : Prop where
  sandboxes : SandboxesOk sha256Hex s.world
  single : Single s.world
  tasks : ThreadsOk (fun (_ : ℕ) (tag : ℕ × ModalTask) => modalEnv sha256Hex tag.2) (fun _ tag => AnswerOk sha256Hex tag.2)
    s.tasks s.world
  settled : ∀ t task answer, s.settled t = some (task, answer) → AnswerOk sha256Hex task answer s.world
  tasks_lt : ∀ t task, s.tasks t = some task → t < s.nextTask
  settled_lt : ∀ t task, s.settled t = some task → t < s.nextTask
  calls_lt : ∀ c request t, s.calls c = some (request, t) → t < s.nextTask
  ended : ∀ t answer, s.settled t = some answer → s.tasks t = none
  /-- An activation stands in the map of its process for as long as it runs. -/
  filed : ∀ t process request p, s.tasks t = some ((process, .ensureHost request), p) →
    s.activations process (request.key.name sha256Hex) = some t
  running : ∀ process name t, s.activations process name = some t →
    ∃ task p, s.tasks t = some ((process, task), p) ∧ Activates sha256Hex name task
  awaited : ∀ c request t, s.calls c = some (request, t) →
    (∀ process task p, s.tasks t = some ((process, task), p) → Activates sha256Hex (request.key.name sha256Hex) task) ∧
      ∀ task answer, s.settled t = some (task, answer) → Activates sha256Hex (request.key.name sha256Hex) task
  asked : AskedOk sha256Hex s

/-! ### One step -/

variable {s : ModalState}

/-- A call that waits for the activation of its name -/
theorem ModalOk.await {c t : ℕ} {request : EnsureHostRequest} (h : ModalOk sha256Hex s) (hlt : t < s.nextTask)
    (htask : ∀ process task p, s.tasks t = some ((process, task), p) → Activates sha256Hex (request.key.name sha256Hex) task)
    (hsettled : ∀ task answer, s.settled t = some (task, answer) → Activates sha256Hex (request.key.name sha256Hex) task) :
    ModalOk sha256Hex (s.await c request t) where
  sandboxes := h.sandboxes
  single := h.single
  tasks := h.tasks
  settled := h.settled
  tasks_lt := h.tasks_lt
  settled_lt := h.settled_lt
  calls_lt := by
    intro c' request' t' hcall
    rcases eq_or_ne c' c with rfl | hne
    · obtain ⟨rfl, rfl⟩ : request = request' ∧ t = t' := by simpa [ModalState.await] using hcall
      exact hlt
    · exact h.calls_lt c' request' t' (by simpa [ModalState.await, hne] using hcall)
  ended := h.ended
  filed := h.filed
  running := h.running
  awaited := by
    intro c' request' t' hcall
    rcases eq_or_ne c' c with rfl | hne
    · obtain ⟨rfl, rfl⟩ : request = request' ∧ t = t' := by simpa [ModalState.await] using hcall
      exact ⟨htask, hsettled⟩
    · exact h.awaited c' request' t' (by simpa [ModalState.await, hne] using hcall)
  asked := by
    refine ⟨fun id sandbox r h₁ h₂ => List.mem_cons_of_mem _ (h.asked.sandboxes id sandbox r h₁ h₂),
      fun t' process task p h₁ key hkey => List.mem_cons_of_mem _ (h.asked.tasks t' process task p h₁ key hkey),
      fun t' task answer h₁ key hkey => List.mem_cons_of_mem _ (h.asked.settled t' task answer h₁ key hkey), ?_⟩
    intro c' request' t' hcall
    rcases eq_or_ne c' c with rfl | hne
    · obtain ⟨rfl, rfl⟩ : request = request' ∧ t = t' := by simpa [ModalState.await] using hcall
      exact List.mem_cons_self ..
    · exact List.mem_cons_of_mem _ (h.asked.calls c' request' t' (by simpa [ModalState.await, hne] using hcall))

/-- A new task, filed under its name if it is an activation -/
theorem ModalOk.spawn {process : ℕ} {task : ModalTask} {activations : ℕ → String → Option ℕ}
    (h : ModalOk sha256Hex s)
    (hnew : ∀ request, task = .ensureHost request → activations process (request.key.name sha256Hex) = some s.nextTask) (hkeep : ∀ process' name t, s.activations process' name = some t → activations process' name = some t)
    (hold : ∀ process' name t, activations process' name = some t → s.activations process' name = some t ∨
      process' = process ∧ t = s.nextTask ∧ Activates sha256Hex name task) :
    ModalOk sha256Hex ({ s with activations := activations }.spawn process task (task.program sha256Hex catalog)) where
  sandboxes := h.sandboxes
  single := h.single
  tasks := h.tasks.spawn (wp_program task s.world)
  settled := h.settled
  tasks_lt := by
    intro t tag htag
    rcases eq_or_ne t s.nextTask with rfl | hne
    · exact Nat.lt_succ_self _
    · exact Nat.lt_succ_of_lt (h.tasks_lt t tag (by simpa [ModalState.spawn, hne] using htag))
  settled_lt t tag htag := Nat.lt_succ_of_lt (h.settled_lt t tag htag)
  calls_lt c request t hcall := Nat.lt_succ_of_lt (h.calls_lt c request t hcall)
  ended t answer hsettled := by
    have hne := (h.settled_lt t answer hsettled).ne
    simpa [ModalState.spawn, hne] using h.ended t answer hsettled
  filed := by
    intro t process' request p htask
    rcases eq_or_ne t s.nextTask with rfl | hne
    · obtain ⟨⟨rfl, rfl⟩, -⟩ : (process = process' ∧ task = .ensureHost request) ∧ _ = p := by
        simpa [ModalState.spawn] using htask
      exact hnew request rfl
    · exact hkeep _ _ _ (h.filed t process' request p (by simpa [ModalState.spawn, hne] using htask))
  running := by
    intro process' name t hact
    rcases hold process' name t hact with hact | ⟨rfl, rfl, hactivates⟩
    · obtain ⟨task', p, htask, hactivates⟩ := h.running process' name t hact
      have hne := (h.tasks_lt t _ htask).ne
      exact ⟨task', p, by simpa [ModalState.spawn, hne] using htask, hactivates⟩
    · exact ⟨task, _, Function.update_self .., hactivates⟩
  awaited := by
    intro c request t hcall
    have hne := (h.calls_lt c request t hcall).ne
    refine ⟨fun process' task' p htask => ?_, (h.awaited c request t hcall).2⟩
    exact (h.awaited c request t hcall).1 process' task' p (by simpa [ModalState.spawn, hne] using htask)
  asked := by
    have hgrown : ∀ {key}, key ∈ s.asked → key ∈ task.keys ++ s.asked := List.mem_append_right _
    refine ⟨fun id sandbox r h₁ h₂ => hgrown (h.asked.sandboxes id sandbox r h₁ h₂), ?_,
      fun t task' answer h₁ key hkey => hgrown (h.asked.settled t task' answer h₁ key hkey),
      fun c request t hcall => hgrown (h.asked.calls c request t hcall)⟩
    intro t process' task' p htask key hkey
    rcases eq_or_ne t s.nextTask with rfl | hne
    · obtain ⟨⟨-, rfl⟩, -⟩ : (process = process' ∧ task = task') ∧ _ = p :=
        by simpa [ModalState.spawn] using htask
      exact List.mem_append_left _ hkey
    · exact hgrown (h.asked.tasks t process' task' p (by simpa [ModalState.spawn, hne] using htask) key hkey)

theorem ModalOk.begin {process c : ℕ} {request : EnsureHostRequest} (h : ModalOk sha256Hex s)
    (hnone : s.activations process (request.key.name sha256Hex) = none) :
    ModalOk sha256Hex (((s.await c request s.nextTask).activate process (request.key.name sha256Hex) (some s.nextTask)).spawn process
      (.ensureHost request) ((ModalTask.ensureHost request).program sha256Hex catalog)) := by
  have hspawned : ModalOk sha256Hex ((s.activate process (request.key.name sha256Hex) (some s.nextTask)).spawn process
      (.ensureHost request) ((ModalTask.ensureHost request).program sha256Hex catalog)) := by
    refine h.spawn ?_ ?_ ?_
    · intro request' heq
      cases heq
      simp
    · intro process' name t hact
      rcases eq_or_ne process' process with rfl | hne
      · have hname : name ≠ request.key.name sha256Hex := by
          rintro rfl
          rw [hnone] at hact
          cases hact
        simpa [hname] using hact
      · simpa [hne] using hact
    · intro process' name t hact
      rcases eq_or_ne process' process with rfl | hne
      · rcases eq_or_ne name (request.key.name sha256Hex) with rfl | hname
        · exact .inr ⟨rfl, by simpa using hact.symm, request, rfl, rfl⟩
        · exact .inl (by simpa [hname] using hact)
      · exact .inl (by simpa [hne] using hact)
  refine hspawned.await (Nat.lt_succ_self _) ?_ ?_
  · intro process' task p htask
    obtain ⟨⟨-, rfl⟩, -⟩ : (process = process' ∧ ModalTask.ensureHost request = task) ∧ _ = p := by
      simpa [ModalState.spawn, ModalState.activate] using htask
    exact ⟨request, rfl, rfl⟩
  · intro task answer hsettled
    exact absurd (h.settled_lt _ _ hsettled) (lt_irrefl _)

/-- The world moves on by itself, and with it what is known of every task. -/
theorem ModalOk.world {w : ModalWorld} (h : ModalOk sha256Hex s) (hg : Grows s.world w)
    (hok : SandboxesOk sha256Hex w)
    (hsingle : Single w) (hasked : ∀ id sandbox request, w.sandboxes id = some sandbox →
      Launches sha256Hex sandbox.params request →
      request.key ∈ s.asked) : ModalOk sha256Hex { s with world := w } where
  sandboxes := hok
  single := hsingle
  tasks := h.tasks.move fun _ _ _ hp => wp_grows hg hp
  settled t task answer hsettled := (h.settled t task answer hsettled).grows hg
  tasks_lt := h.tasks_lt
  settled_lt := h.settled_lt
  calls_lt := h.calls_lt
  ended := h.ended
  filed := h.filed
  running := h.running
  awaited := h.awaited
  asked := ⟨hasked, h.asked.tasks, h.asked.settled, h.asked.calls⟩

/-- A task goes on. -/
theorem ModalOk.resume {process t : ℕ} {task : ModalTask} {p q : Prog ModalOp ModalOp.Res ModalAnswer}
    (h : ModalOk sha256Hex s) (ht : s.tasks t = some ((process, task), p))
    (hq : wp (modalEnv sha256Hex task) q (AnswerOk sha256Hex task) s.world) :
    ModalOk sha256Hex { s with tasks := Function.update s.tasks t (some ((process, task), q)) } := by
  -- the tags stay as they were
  have hbefore : ∀ t' process' task' p', Function.update s.tasks t (some ((process, task), q)) t' =
      some ((process', task'), p') → ∃ p, s.tasks t' = some ((process', task'), p) := by
    intro t' process' task' p' htask
    rcases eq_or_ne t' t with rfl | hne
    · obtain ⟨⟨rfl, rfl⟩, -⟩ : (process = process' ∧ task = task') ∧ q = p' := by simpa using htask
      exact ⟨p, ht⟩
    · exact ⟨p', by simpa [hne] using htask⟩
  refine ⟨h.sandboxes, h.single, h.tasks.spawn hq, h.settled, ?_, h.settled_lt, h.calls_lt, ?_, ?_, ?_, ?_,
    h.asked.sandboxes, ?_, h.asked.settled, h.asked.calls⟩
  · intro t' tag htag
    obtain ⟨p', hp'⟩ := hbefore t' tag.1.1 tag.1.2 tag.2 htag
    exact h.tasks_lt t' _ hp'
  · intro t' answer hsettled
    have hended := h.ended t' answer hsettled
    rcases eq_or_ne t' t with rfl | hne
    · rw [ht] at hended
      cases hended
    · simpa [hne] using hended
  · intro t' process' request p' htask
    obtain ⟨p, hp⟩ := hbefore t' process' _ p' htask
    exact h.filed t' process' request p hp
  · intro process' name t' hact
    obtain ⟨task', p', htask, hactivates⟩ := h.running process' name t' hact
    rcases eq_or_ne t' t with rfl | hne
    · cases ht.symm.trans htask
      exact ⟨task, q, Function.update_self .., hactivates⟩
    · exact ⟨task', p', by simpa [hne] using htask, hactivates⟩
  · intro c request t' hcall
    refine ⟨fun process' task' p' htask => ?_, (h.awaited c request t' hcall).2⟩
    obtain ⟨p, hp⟩ := hbefore t' process' task' p' htask
    exact (h.awaited c request t' hcall).1 process' task' p hp
  · intro t' process' task' p' htask
    obtain ⟨p, hp⟩ := hbefore t' process' task' p' htask
    exact h.asked.tasks t' process' task' p hp

theorem finish_activations {process t process' t' : ℕ} {task : ModalTask} {answer : ModalAnswer}
    {name : String} :
    (s.finish sha256Hex process t task answer).activations process' name = some t' ↔
      s.activations process' name = some t' ∧ ¬ (process' = process ∧ Activates sha256Hex name task) := by
  cases task with
  | ensureHost request =>
    rcases eq_or_ne process' process with rfl | hne
    · rcases eq_or_ne name (request.key.name sha256Hex) with rfl | hname
      · simp [ModalState.finish, ModalState.activate, Activates]
      · simp [ModalState.finish, ModalState.activate, Activates, hname, hname.symm]
    · simp [ModalState.finish, ModalState.activate, hne]
  | terminateHosts request => simp [ModalState.finish, Activates]
  | publicHostRoute request => simp [ModalState.finish, Activates]
  | warmImage request => simp [ModalState.finish, Activates]

theorem finish_tasks (sha256Hex : String → String) (s : ModalState) (process t : ℕ) (task : ModalTask)
    (answer : ModalAnswer) :
    (s.finish sha256Hex process t task answer).tasks = Function.update s.tasks t none ∧
      (s.finish sha256Hex process t task answer).settled = Function.update s.settled t (some (task, answer)) ∧
      (s.finish sha256Hex process t task answer).world = s.world ∧
      (s.finish sha256Hex process t task answer).nextTask = s.nextTask ∧
      (s.finish sha256Hex process t task answer).calls = s.calls ∧
      (s.finish sha256Hex process t task answer).asked = s.asked := by
  cases task with
  | _ => exact ⟨rfl, rfl, rfl, rfl, rfl, rfl⟩

theorem ModalOk.finish {process t : ℕ} {task : ModalTask} {answer : ModalAnswer} (h : ModalOk sha256Hex s)
    (ht : s.tasks t = some ((process, task), .ret answer)) :
    ModalOk sha256Hex (s.finish sha256Hex process t task answer) := by
  obtain ⟨htasks, hsettled, hworld, hnext, hcalls, hasked⟩ := finish_tasks sha256Hex s process t task answer
  have hleft : ∀ t' tag, (s.finish sha256Hex process t task answer).tasks t' = some tag →
      t' ≠ t ∧ s.tasks t' = some tag := by
    intro t' tag htag
    rw [htasks] at htag
    rcases eq_or_ne t' t with rfl | hne
    · simp at htag
    · exact ⟨hne, by simpa [hne] using htag⟩
  have hdone : ∀ t' task' answer', (s.finish sha256Hex process t task answer).settled t' =
      some (task', answer') →
      t' = t ∧ task' = task ∧ answer' = answer ∨ s.settled t' = some (task', answer') := by
    intro t' task' answer' hs
    rw [hsettled] at hs
    rcases eq_or_ne t' t with rfl | hne
    · obtain ⟨rfl, rfl⟩ : task = task' ∧ answer = answer' := by simpa using hs
      exact .inl ⟨rfl, rfl, rfl⟩
    · exact .inr (by simpa [hne] using hs)
  constructor
  case sandboxes => exact hworld ▸ h.sandboxes
  case single => exact hworld ▸ h.single
  case tasks =>
    rw [htasks, hworld]
    exact h.tasks.drop t
  case settled =>
    intro t' task' answer' hs
    rw [hworld]
    rcases hdone t' task' answer' hs with ⟨rfl, rfl, rfl⟩ | hs
    · exact h.tasks _ _ _ ht
    · exact h.settled t' task' answer' hs
  case tasks_lt => exact fun t' tag htag => hnext ▸ h.tasks_lt t' tag (hleft t' tag htag).2
  case settled_lt =>
    rintro t' ⟨task', answer'⟩ hs
    rw [hnext]
    rcases hdone t' task' answer' hs with ⟨rfl, -, -⟩ | hs
    · exact h.tasks_lt _ _ ht
    · exact h.settled_lt t' _ hs
  case calls_lt => exact fun c request t' hcall => hnext ▸ h.calls_lt c request t' (hcalls ▸ hcall)
  case ended =>
    rintro t' ⟨task', answer'⟩ hs
    rw [htasks]
    rcases hdone t' task' answer' hs with ⟨rfl, -, -⟩ | hs
    · exact Function.update_self ..
    · rcases eq_or_ne t' t with rfl | hne
      · exact Function.update_self ..
      · simpa [hne] using h.ended t' _ hs
  case filed =>
    intro t' process' request p htask
    obtain ⟨hne, htask⟩ := hleft t' _ htask
    have hfiled := h.filed t' process' request p htask
    refine finish_activations.mpr ⟨hfiled, ?_⟩
    rintro ⟨rfl, request', rfl, hname⟩
    -- two activations of one name would be filed in one place
    rw [← hname, h.filed t _ request' _ ht] at hfiled
    exact hne (Option.some.inj hfiled).symm
  case running =>
    intro process' name t' hact
    obtain ⟨hact, hkept⟩ := finish_activations.mp hact
    obtain ⟨task', p, htask, hactivates⟩ := h.running process' name t' hact
    have hne : t' ≠ t := by
      rintro rfl
      cases ht.symm.trans htask
      exact hkept ⟨rfl, hactivates⟩
    exact ⟨task', p, by simpa [htasks, hne] using htask, hactivates⟩
  case awaited =>
    intro c request t' hcall
    obtain ⟨hrunning, hended⟩ := h.awaited c request t' (hcalls ▸ hcall)
    refine ⟨fun process' task' p htask => hrunning process' task' p (hleft t' _ htask).2,
      fun task' answer' hs => ?_⟩
    rcases hdone t' task' answer' hs with ⟨rfl, rfl, rfl⟩ | hs
    · exact hrunning _ _ _ ht
    · exact hended task' answer' hs
  case asked =>
    constructor
    · rw [hworld, hasked]
      exact h.asked.sandboxes
    · rw [hasked]
      exact fun t' process' task' p htask => h.asked.tasks t' process' task' p (hleft t' _ htask).2
    · rw [hasked]
      intro t' task' answer' hs
      rcases hdone t' task' answer' hs with ⟨rfl, rfl, rfl⟩ | hs
      · exact h.asked.tasks _ _ _ _ ht
      · exact h.asked.settled t' task' answer' hs
    · rw [hcalls, hasked]
      exact h.asked.calls

theorem ModalOk.kill (h : ModalOk sha256Hex s) (process : ℕ) : ModalOk sha256Hex (s.kill process) := by
  have hleft : ∀ t tag, (s.kill process).tasks t = some tag → tag.1.1 ≠ process ∧ s.tasks t = some tag := by
    intro t tag htag
    obtain ⟨hsome, hne⟩ := Option.filter_eq_some_iff.mp htag
    exact ⟨by simpa using hne, hsome⟩
  refine ⟨h.sandboxes, h.single, fun t tag p htask => h.tasks t tag p (hleft t _ htask).2, h.settled,
    fun t tag htag => h.tasks_lt t tag (hleft t tag htag).2, h.settled_lt, h.calls_lt, ?_, ?_, ?_, ?_,
    h.asked.sandboxes, fun t process' task p htask => h.asked.tasks t process' task p (hleft t _ htask).2,
    h.asked.settled, h.asked.calls⟩
  · intro t answer hsettled
    simp [ModalState.kill, h.ended t answer hsettled]
  · intro t process' request p htask
    obtain ⟨hne, htask⟩ := hleft t _ htask
    simpa [ModalState.kill, show process' ≠ process from hne] using h.filed t process' request p htask
  · intro process' name t hact
    have hne : process' ≠ process := by
      rintro rfl
      simp [ModalState.kill] at hact
    obtain ⟨task, p, htask, hactivates⟩ :=
      h.running process' name t (by simpa [ModalState.kill, hne] using hact)
    exact ⟨task, p, Option.filter_eq_some_iff.mpr ⟨htask, by simpa using hne⟩, hactivates⟩
  · intro c request t hcall
    exact ⟨fun process' task p htask => (h.awaited c request t hcall).1 process' task p (hleft t _ htask).2,
      (h.awaited c request t hcall).2⟩

/-- A sandbox that a task creates is of a host that the task was asked for. -/
theorem asked_effect {task : ModalTask} {op : ModalOp} {w : ModalWorld} (h : AskedOk sha256Hex s)
    (htask : ∀ key ∈ task.keys, key ∈ s.asked) (ha : Allowed sha256Hex task s.world op)
    (he : Effect s.world op w) :
    ∀ id sandbox request, w.sandboxes id = some sandbox → Launches sha256Hex sandbox.params request →
    request.key ∈ s.asked := by
  intro id sandbox request hsandbox hlaunches
  rcases he.before hsandbox with ⟨old, hold, hparams⟩ | rfl
  · exact h.sandboxes id old request hold (hparams ▸ hlaunches)
  · rcases ha with ⟨placement, hwarms⟩ | ⟨request', rfl, hlaunches'⟩
    · have hname := hlaunches.name
      rw [hwarms] at hname
      cases hname
    · exact htask _ (List.mem_singleton.mpr (hlaunches.serves.1.unique hlaunches'.serves.1))

theorem modalOk_step {move : ModalMove} {s' : ModalState} (h : ModalOk sha256Hex s)
    (hs : ModalStep sha256Hex catalog s move s') :
    ModalOk sha256Hex s' := by
  cases hs with
  | @join process c t request hfree hact =>
    obtain ⟨task, p, htask, hactivates⟩ := h.running _ _ _ hact
    refine h.await (h.tasks_lt _ _ htask) ?_ ?_
    · intro process' task' p' htask'
      cases htask.symm.trans htask'
      exact hactivates
    · intro task' answer hsettled
      cases htask.symm.trans (h.ended _ _ hsettled)
  | begin hfree hnone => exact h.begin hnone
  | @start process task hne =>
    have hactivations : ∀ request, task = .ensureHost request →
        s.activations process (request.key.name sha256Hex) =
          some s.nextTask := fun request heq => absurd heq (hne request)
    exact h.spawn hactivations (fun _ _ _ hact => hact) fun _ _ _ hact => .inl hact
  | @call process t task op next r w ht hans =>
    have hwp := h.tasks t _ _ ht
    have he := effect_of_answers hans
    have hok := sandboxesOk_effect h.sandboxes hwp.1 he
    have hmoved := h.world he.grows hok (he.single h.single)
        (asked_effect h.asked (h.asked.tasks _ _ _ _ ht) hwp.1 he)
    exact hmoved.resume ht (hwp.2 r w ⟨s.world, .refl _, h.sandboxes, hans⟩)
  | settle ht => exact h.finish ht
  | kill process => exact h.kill process
  | exit id =>
    refine h.world (grows_stop _ _) (sandboxesOk_stop h.sandboxes id) (single_stop h.single id) ?_
    intro j sandbox request hsandbox hlaunches
    obtain ⟨old, hold, hparams⟩ := before_stop hsandbox
    exact h.asked.sandboxes j old request hold (hparams ▸ hlaunches)

theorem modalOk_reachable (h : (modalSystem sha256Hex catalog).Reachable s) : ModalOk sha256Hex s := by
  refine h.invariant (I := ModalOk sha256Hex) ?_ fun hok hs => modalOk_step hok hs
  rintro s rfl
  constructor
  case asked => exact ⟨by simp, by simp, by simp, by simp⟩
  case single =>
    intro id id' sandbox sandbox' hsandbox
    simp at hsandbox
  case tasks =>
    intro t tag p htask
    simp at htask
  all_goals simp [SandboxesOk]

/-! ### Hosts and their names -/

theorem serves_of_named {id : ℕ} {key : HostKey} (h : ModalOk sha256Hex s)
    (hnames : Set.InjOn (HostKey.name sha256Hex) {key | key ∈ s.asked}) (hkey : key ∈ s.asked)
    (hnamed : Named s.world (some (key.name sha256Hex)) id) :
    ∃ sandbox, s.world.sandboxes id = some sandbox ∧ Serves sandbox key := by
  obtain ⟨sandbox, hsandbox, hname⟩ := hnamed
  refine ⟨sandbox, hsandbox, ?_⟩
  rcases (h.sandboxes id sandbox hsandbox).origin with ⟨placement, hwarms⟩ | ⟨request, hlaunches⟩
  · rw [hwarms] at hname
    cases hname
  · have hsame := Option.some.inj (hlaunches.name.symm.trans hname)
    rw [← hnames (h.asked.sandboxes id sandbox request hsandbox hlaunches) hkey hsame]
    exact hlaunches.serves.1

theorem Serves.named {sandbox : ModalSandbox} {key : HostKey} (h : Serves sandbox key)
    (hok : SandboxOk sha256Hex sandbox) :
    sandbox.params.name = some (key.name sha256Hex) := by
  obtain ⟨request, hlaunches, rfl⟩ := h.launched hok
  exact hlaunches.name

structure HostsMatch (s : ModalState) : Prop where
  /-- A call is answered with a sandbox that was started for what it asked for, under the host id of its handle. -/
  answered : ∀ c request t task host, s.calls c = some (request, t) →
    s.settled t = some (task, .provisioned (.ok host)) →
    host.handle.canonicalRegion = request.canonicalRegion ∧
    ∃ sandbox, s.world.sandboxes host.sandbox = some sandbox ∧
      Serves sandbox request.key ∧ hostIdOf sandbox = some host.handle.hostId
  /-- Of all the sandboxes of a host, at most one is running, whatever processes have started them. -/
  single : ∀ key id id' sandbox sandbox', s.world.sandboxes id = some sandbox →
    s.world.sandboxes id' = some sandbox' →
    sandbox.running = true → sandbox'.running = true → Serves sandbox key → Serves sandbox' key → id = id'
  /-- A process starts a host at most once at a time. -/
  activation : ∀ process t t' request request' p p', s.tasks t = some ((process, .ensureHost request), p) →
    s.tasks t' = some ((process, .ensureHost request'), p') → request.key = request'.key → t = t'
  /-- No task stops a host that it was not asked about. -/
  stops : ∀ t process task id next, s.tasks t = some ((process, task), .call (.terminate id) next) →
    ∃ sandbox, s.world.sandboxes id = some sandbox ∧ ∀ key, Serves sandbox key → key ∈ task.keys

theorem modal_hosts_match (h : (modalSystem sha256Hex catalog).Reachable s)
    (hnames : Set.InjOn (HostKey.name sha256Hex) {key | key ∈ s.asked}) : HostsMatch s := by
  have hok := modalOk_reachable h
  constructor
  case answered =>
    intro c request t task host hcall hsettled
    obtain ⟨request', rfl, hname⟩ := (hok.awaited c request t hcall).2 task _ hsettled
    have hasked := hok.asked.settled t _ _ hsettled request'.key (List.mem_singleton_self _)
    have hkey : request'.key = request.key := hnames hasked (hok.asked.calls c request t hcall) hname
    have hread := hok.settled t _ _ hsettled request' host rfl rfl
    obtain ⟨launched, ⟨sandbox, hsandbox, hlaunches⟩, hsame, hhost, -⟩ := hread.launched
    have hserves := hlaunches.serves
    rw [hnames (hok.asked.sandboxes _ sandbox launched hsandbox hlaunches) hasked hsame, hkey] at hserves
    exact ⟨hread.region.trans (congrArg HostKey.canonicalRegion hkey), sandbox, hsandbox, hserves.1,
      hhost ▸ hserves.2⟩
  case single =>
    intro key id id' sandbox sandbox' hid hid' hrun hrun' hserves hserves'
    have hname := hserves.named (hok.sandboxes id sandbox hid)
    refine hok.single id id' sandbox sandbox' hid hid' hrun hrun' (by simp [hname]) ?_
    rw [hname, hserves'.named (hok.sandboxes id' sandbox' hid')]
  case activation =>
    intro process t t' request request' p p' htask htask' hkey
    have hfiled := hok.filed t process request p htask
    rw [hkey, hok.filed t' process request' p' htask'] at hfiled
    exact (Option.some.inj hfiled).symm
  case stops =>
    intro t process task id next htask
    rcases (hok.tasks t _ _ htask).1 with ⟨key, hkey, hnamed⟩ | ⟨-, hnamed⟩
    · obtain ⟨sandbox, hsandbox, hserves⟩ :=
        serves_of_named hok hnames (hok.asked.tasks t process task _ htask key hkey) hnamed
      exact ⟨sandbox, hsandbox, fun key' hserves' => hserves'.unique hserves ▸ hkey⟩
    · obtain ⟨sandbox, hsandbox, hname⟩ := hnamed
      refine ⟨sandbox, hsandbox, fun key hserves => ?_⟩
      rw [hserves.named (hok.sandboxes id sandbox hsandbox)] at hname
      cases hname

/-! ### Two calls for one host -/

/-- Modal in the hands of one task alone -/
def answersEnv : Env ModalOp ModalOp.Res ModalWorld where
  ok _ _ := True
  step w op r w' := w.Answers op r w'

theorem reachable_step {m : ModalMove} {s' : ModalState} (h : (modalSystem sha256Hex catalog).Reachable s)
    (hs : ModalStep sha256Hex catalog s m s') : (modalSystem sha256Hex catalog).Reachable s' := h.step hs

theorem reachable_alone {t process : ℕ} {task : ModalTask} {p : Prog ModalOp ModalOp.Res ModalAnswer}
    {w w' : ModalWorld} {answer : ModalAnswer} (hx : Exec answersEnv p w answer w')
    (h : (modalSystem sha256Hex catalog).Reachable s) (hw : s.world = w)
    (ht : s.tasks t = some ((process, task), p)) :
    (modalSystem sha256Hex catalog).Reachable
      { s with world := w', tasks := Function.update s.tasks t (some ((process, task), .ret answer)) } := by
  induction hx generalizing s with
  | ret answer w =>
    obtain rfl := hw
    rwa [← ht, Function.update_eq_self]
  | call hs _ ih =>
    obtain rfl := hw
    have hcall := h.step (ModalStep.call ht hs)
    have hrest := ih hcall rfl (Function.update_self ..)
    rwa [Function.update_idem] at hrest

theorem exec_existing {name : String} (w : ModalWorld) :
    Exec answersEnv (existing name).run w (.ok none) w := by
  have hgone : Exec answersEnv (fromName name).run w (.error (.notFound "")) w := .perform rfl
  exact .tryCatch_error (.except_bind_error hgone) (.ret _ _)

theorem exec_createSandbox {request : EnsureHostRequest} {name : String} {placement : ModalPlacement}
    {w : ModalWorld} (hempty : ∀ id, w.sandboxes id = none) :
    Exec answersEnv (createSandbox request name placement).run w (.ok (0, false)) (w.add 0 (hostParams request name placement)) := by
  have hfree : w.Free (hostParams request name placement) := by
    intro id sandbox hsandbox
    rw [hempty id] at hsandbox
    cases hsandbox
  have hcreate : Exec answersEnv (create (hostParams request name placement)).run w (.ok 0)
      (w.add 0 (hostParams request name placement)) := .perform ⟨hempty 0, hfree, rfl⟩
  exact .tryCatch_ok (.except_bind hcreate (.ret _ _))

theorem exec_startPublic {request : EnsureHostRequest} {route : String} (id : ℕ) (w : ModalWorld)
    (hroute : route ≠ "") :
    Exec answersEnv (startPublic id request).run w (.ok ⟨request.hostId, route, request.canonicalRegion⟩) w := by
  have htunnel : Exec answersEnv (tunnel id).run w (.ok (some route)) w := .perform rfl
  refine .except_bind htunnel ?_
  simp only [if_neg hroute]
  have hwrite : Exec answersEnv (perform (ModalOp.writeRoute id route)) w (.ok ()) w := .perform rfl
  have hready : Exec answersEnv (waitForReady id).run w (.ok ()) w := .tryCatch_ok (.perform rfl)
  exact .except_bind hwrite (.except_bind hready (.ret _ _))

/-- A host on a public network, where nothing was running before -/
theorem exec_ensureHostOnce {request : EnsureHostRequest} {name route : String}
    {placement : ModalPlacement} {w : ModalWorld} (hvalid : validateEnsureRequest request = .ok ())
    (hplacement : modalPlacement request.canonicalRegion catalog = .ok placement)
    (hpublic : placement.privateNetwork = false) (hroute : route ≠ "")
    (hempty : ∀ id, w.sandboxes id = none) :
    ∃ w', Exec answersEnv (ensureHostOnce catalog request name).run w
      (.ok ⟨⟨request.hostId, route, request.canonicalRegion⟩, 0, false⟩) w' := by
  have hattempt : ∀ {α : Type} {a : α} {w : ModalWorld},
      Exec answersEnv (attempt (.ok a)).run w (.ok a) w := .ret _ _
  have happ : Exec answersEnv (perform (ModalOp.app true)) w (.ok ()) w := .perform rfl
  have himage : Exec answersEnv (perform (ModalOp.image request.imageRef)) w (.ok ()) w := .perform rfl
  have hstart : Exec answersEnv (start 0 request placement).run (w.add 0 (hostParams request name placement))
      (.ok ⟨request.hostId, route, request.canonicalRegion⟩) (w.add 0 (hostParams request name placement)) := by
    simp only [start, hpublic]
    exact exec_startPublic 0 _ hroute
  have hwrite : ∀ handle w, Exec answersEnv (perform (ModalOp.writeMetadata 0 handle)) w (.ok ()) (w.write 0 handle) :=
    fun _ _ => .perform rfl
  rw [ensureHostOnce, hvalid, hplacement]
  refine ⟨(w.add 0 (hostParams request name placement)).write 0 ⟨request.hostId, route, request.canonicalRegion⟩, ?_⟩
  refine .except_bind hattempt (.except_bind hattempt (.except_bind (.except_bind happ himage) ?_))
  refine .except_bind (exec_existing w) (.except_bind (exec_createSandbox hempty) ?_)
  exact .except_bind hstart (.except_bind (hwrite _ _) (.ret _ _))

def exampleRequest (hostId : String) : EnsureHostRequest where
  namespaceId := "ns"
  codeRevision := "r1"
  canonicalRegion := "europe-west"
  hostId := hostId
  sessionId := "0"
  hostToken := "token"
  jwtPublicKeys := "keys"
  controlPlaneUrl := "https://control"
  jwtIssuer := "issuer"
  invocationJwtAudience := "audience"
  imageRef := "im-1"
  workingDirectory := "/app"
  actorEntrypoint := none
  actorIdleTimeoutMs := 1
  hostIdleTimeoutMs := 1

/-- Two calls for one host under two host ids: the second waits for the first, and has its answer. -/
theorem modal_hosts_match_joined :
    ∃ s, (modalSystem id recommendedRegionCatalog).Reachable s ∧ HostsMatch s ∧
    s.calls 1 = some (exampleRequest "host.v1.ns.b", 0) ∧
      s.settled 0 = some (.ensureHost (exampleRequest "host.v1.ns.a"),
        .provisioned (.ok ⟨⟨"host.v1.ns.a", "https://host", "europe-west"⟩, 0, false⟩)) := by
  have hvalid : validateEnsureRequest (exampleRequest "host.v1.ns.a") = .ok () := by decide +kernel
  have hplacement : modalPlacement "europe-west" recommendedRegionCatalog =
      .ok ⟨["eu-west"], some "gcp", ["gcp:europe-west*"], false⟩ := by decide +kernel
  have hinit : (modalSystem id recommendedRegionCatalog).Reachable
      ⟨⟨fun _ => none⟩, fun _ _ => none, 0, fun _ => none, fun _ => none, fun _ => none, []⟩ := ⟨[], _, rfl, .nil _⟩
  have hbegun := reachable_step (m := .ensureHost 0 0 (exampleRequest "host.v1.ns.a")) hinit (.begin rfl rfl)
  have hjoined := reachable_step (m := .ensureHost 0 1 (exampleRequest "host.v1.ns.b")) hbegun (.join rfl rfl)
  have hroute : "https://host" ≠ "" := by decide
  obtain ⟨w, hx⟩ := exec_ensureHostOnce (w := ⟨fun _ => none⟩) hvalid hplacement rfl hroute fun _ => rfl
  have hprogram : Exec answersEnv ((ModalTask.ensureHost (exampleRequest "host.v1.ns.a")).program id recommendedRegionCatalog)
      ⟨fun _ => none⟩ _ w := exec_bind.mpr ⟨_, _, hx, .ret _ _⟩
  have hprovisioned := reachable_alone (t := 0) hprogram hjoined rfl rfl
  have hsettled := reachable_step (m := .settle 0) hprovisioned (.settle rfl)
  refine ⟨_, hsettled, modal_hosts_match hsettled ?_, rfl, rfl⟩
  -- one name was asked for
  intro key hkey key' hkey' _
  have hone : ∀ key, key ∈ [(exampleRequest "host.v1.ns.b").key, (exampleRequest "host.v1.ns.a").key, (exampleRequest "host.v1.ns.a").key] →
      key = ⟨"ns", "r1", "europe-west"⟩ := by simp [exampleRequest, EnsureHostRequest.key]
  exact (hone key hkey).trans (hone key' hkey').symm

end ModalSandboxProvider

end LDO
