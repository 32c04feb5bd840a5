import DurableObjects.Lib.Fallible
import DurableObjects.Spec.Modal

/-! What the calls of a provider do to Modal. A sandbox keeps what it was created with, its metadata
name the host it was launched as, and a task stops only sandboxes of its own names. -/

namespace LDO

namespace ModalSandboxProvider

open Prog

variable {sha256Hex : String → String} {catalog : CanonicalRegionCatalog} {w w' : ModalWorld} {id : ℕ}
  {request : EnsureHostRequest} {task : ModalTask}

/-! ### Sandboxes -/

/-- These are the parameters of the host that `request` asks for. -/
def Launches (sha256Hex : String → String) (params : SandboxParams) (request : EnsureHostRequest) : Prop :=
  validateEnsureRequest request = .ok () ∧
    ∃ placement, params = hostParams request (request.key.name sha256Hex) placement

theorem Launches.name {params : SandboxParams} (h : Launches sha256Hex params request) :
    params.name = some (request.key.name sha256Hex) := by
  obtain ⟨-, placement, rfl⟩ := h
  rfl

def Named (w : ModalWorld) (name : Option String) (id : ℕ) : Prop :=
  ∃ sandbox, w.sandboxes id = some sandbox ∧ sandbox.params.name = name

def CreatedFor (sha256Hex : String → String) (w : ModalWorld) (request : EnsureHostRequest) (id : ℕ) : Prop :=
  ∃ sandbox, w.sandboxes id = some sandbox ∧ Launches sha256Hex sandbox.params request

theorem CreatedFor.named (h : CreatedFor sha256Hex w request id) :
    Named w (some (request.key.name sha256Hex)) id := by
  obtain ⟨sandbox, hsandbox, hlaunches⟩ := h
  exact ⟨sandbox, hsandbox, hlaunches.name⟩

def Warms (params : SandboxParams) : Prop := ∃ placement, params = warmParams placement

/-- A sandbox warms an image, or is a host; its metadata are those of the host. -/
structure SandboxOk (sha256Hex : String → String) (sandbox : ModalSandbox) : Prop where
  origin : Warms sandbox.params ∨ ∃ request, Launches sha256Hex sandbox.params request
  metadata : ∀ handle, sandbox.metadata = some handle → ∃ request, Launches sha256Hex sandbox.params request ∧
    handle.hostId = request.hostId ∧ handle.canonicalRegion = request.canonicalRegion

def SandboxesOk (sha256Hex : String → String) (w : ModalWorld) : Prop :=
  ∀ id sandbox, w.sandboxes id = some sandbox → SandboxOk sha256Hex sandbox

/-- Of one name, at most one sandbox is running. -/
def Single (w : ModalWorld) : Prop :=
  ∀ id id' sandbox sandbox', w.sandboxes id = some sandbox → w.sandboxes id' = some sandbox' →
    sandbox.running = true →
    sandbox'.running = true → sandbox.params.name ≠ none → sandbox.params.name = sandbox'.params.name → id = id'

/-- Sandboxes are never forgotten. -/
def Grows (w w' : ModalWorld) : Prop :=
  ∀ id sandbox, w.sandboxes id = some sandbox → ∃ sandbox', w'.sandboxes id = some sandbox' ∧
    sandbox'.params = sandbox.params

theorem Grows.refl (w : ModalWorld) : Grows w w := fun _ sandbox h => ⟨sandbox, h, rfl⟩

theorem Grows.trans {w'' : ModalWorld} (h : Grows w w') (h' : Grows w' w'') : Grows w w'' := by
  intro id sandbox hsandbox
  obtain ⟨sandbox₁, h₁, hparams₁⟩ := h id sandbox hsandbox
  obtain ⟨sandbox₂, h₂, hparams₂⟩ := h' id sandbox₁ h₁
  exact ⟨sandbox₂, h₂, hparams₂.trans hparams₁⟩

theorem Named.grows {name : Option String} (h : Named w name id) (hg : Grows w w') : Named w' name id := by
  obtain ⟨sandbox, hsandbox, hname⟩ := h
  obtain ⟨sandbox', h', hparams⟩ := hg id sandbox hsandbox
  exact ⟨sandbox', h', hparams ▸ hname⟩

theorem CreatedFor.grows (h : CreatedFor sha256Hex w request id) (hg : Grows w w') :
    CreatedFor sha256Hex w' request id := by
  obtain ⟨sandbox, hsandbox, hlaunches⟩ := h
  obtain ⟨sandbox', h', hparams⟩ := hg id sandbox hsandbox
  exact ⟨sandbox', h', hparams ▸ hlaunches⟩

theorem grows_add {params : SandboxParams} (hfree : w.sandboxes id = none) : Grows w (w.add id params) := by
  intro j sandbox hsandbox
  have hne : j ≠ id := by
    rintro rfl
    rw [hfree] at hsandbox
    cases hsandbox
  exact ⟨sandbox, by simpa [ModalWorld.add, hne] using hsandbox, rfl⟩

/-- `f` changes a sandbox, but not what it was created with. -/
theorem grows_update {f : ModalSandbox → ModalSandbox} (hf : ∀ sandbox, (f sandbox).params = sandbox.params) :
    Grows w ⟨Function.update w.sandboxes id ((w.sandboxes id).map f)⟩ := by
  intro j sandbox hsandbox
  rcases eq_or_ne j id with rfl | hne
  · exact ⟨f sandbox, by simp [hsandbox], hf sandbox⟩
  · exact ⟨sandbox, by simpa [hne] using hsandbox, rfl⟩

theorem grows_stop (w : ModalWorld) (id : ℕ) : Grows w (w.stop id) := grows_update fun _ => rfl

theorem grows_write (w : ModalWorld) (id : ℕ) (handle : ActorHostHandle) : Grows w (w.write id handle) :=
  grows_update fun _ => rfl

/-! ### One call -/

/-- What a call leaves behind -/
inductive Effect (w : ModalWorld) : ModalOp → ModalWorld → Prop
  | same (op : ModalOp) : Effect w op w
  | add {id : ℕ} {params : SandboxParams} : w.sandboxes id = none → w.Free params →
      Effect w (.create params) (w.add id params)
  | stop (id : ℕ) : Effect w (.terminate id) (w.stop id)
  | write (id : ℕ) (handle : ActorHostHandle) : Effect w (.writeMetadata id handle) (w.write id handle)

theorem effect_of_answers {op : ModalOp} {r : op.Res} (h : w.Answers op r w') : Effect w op w' := by
  cases op with
  | create params =>
    cases r with
    | ok id =>
      obtain ⟨hnone, hfree, rfl⟩ := h
      exact .add hnone hfree
    | error e =>
      rcases h with rfl | ⟨id, hnone, hfree, rfl⟩
      · exact .same _
      · exact .add hnone hfree
  | terminate id =>
    cases r with
    | ok u =>
      obtain rfl : w' = w.stop id := h
      exact .stop id
    | error e =>
      rcases h with rfl | rfl
      · exact .same _
      · exact .stop id
  | writeMetadata id handle =>
    cases r with
    | ok u =>
      obtain rfl : w' = w.write id handle := h
      exact .write id handle
    | error e =>
      rcases h with rfl | rfl
      · exact .same _
      · exact .write id handle
  | fromName name =>
    cases r with
    | ok id =>
      obtain ⟨-, rfl⟩ := h
      exact .same _
    | error e =>
      obtain rfl : w' = w := h
      exact .same _
  | poll id =>
    rcases r with e | _ | status
    · obtain rfl : w' = w := h
      exact .same _
    · obtain ⟨-, rfl⟩ := h
      exact .same _
    · obtain rfl : w' = w := h
      exact .same _
  | readMetadata id =>
    cases r with
    | ok handle =>
      obtain ⟨-, rfl⟩ := h
      exact .same _
    | error e =>
      obtain rfl : w' = w := h
      exact .same _
  | app createIfMissing =>
    obtain rfl : w' = w := h
    exact .same _
  | image imageRef =>
    obtain rfl : w' = w := h
    exact .same _
  | tunnel id =>
    obtain rfl : w' = w := h
    exact .same _
  | writeRoute id route =>
    obtain rfl : w' = w := h
    exact .same _
  | readRoute id =>
    obtain rfl : w' = w := h
    exact .same _
  | waitUntilReady id =>
    obtain rfl : w' = w := h
    exact .same _
  | readStderr id =>
    obtain rfl : w' = w := h
    exact .same _
  | wait id =>
    obtain rfl : w' = w := h
    exact .same _

theorem Effect.grows {op : ModalOp} (h : Effect w op w') : Grows w w' := by
  cases h with
  | same => exact .refl w
  | add hnone => exact grows_add hnone
  | stop id => exact grows_stop w id
  | write id handle => exact grows_write w id handle

/-- What a task may ask of Modal -/
def Allowed (sha256Hex : String → String) (task : ModalTask) (w : ModalWorld) : ModalOp → Prop
  | .create params => Warms params ∨ ∃ request, task = .ensureHost request ∧ Launches sha256Hex params request
  | .terminate id => (∃ key ∈ task.keys, Named w (some (key.name sha256Hex)) id) ∨ task.keys = [] ∧
      Named w none id
  | .writeMetadata id handle => ∃ request, CreatedFor sha256Hex w request id ∧ handle.hostId = request.hostId ∧
      handle.canonicalRegion = request.canonicalRegion
  | _ => True

theorem Allowed.grows {op : ModalOp} (h : Allowed sha256Hex task w op) (hg : Grows w w') :
    Allowed sha256Hex task w' op := by
  cases op with
  | terminate id =>
    rcases h with ⟨key, hkey, hnamed⟩ | ⟨hkeys, hnamed⟩
    · exact .inl ⟨key, hkey, hnamed.grows hg⟩
    · exact .inr ⟨hkeys, hnamed.grows hg⟩
  | writeMetadata id handle =>
    obtain ⟨request, hcreated, hhandle⟩ := h
    exact ⟨request, hcreated.grows hg, hhandle⟩
  | _ => exact h

theorem sandboxesOk_update {f : ModalSandbox → ModalSandbox} (h : SandboxesOk sha256Hex w)
    (hf : ∀ sandbox, w.sandboxes id = some sandbox → SandboxOk sha256Hex sandbox → SandboxOk sha256Hex (f sandbox)) :
    SandboxesOk sha256Hex ⟨Function.update w.sandboxes id ((w.sandboxes id).map f)⟩ := by
  intro j sandbox hsandbox
  replace hsandbox : Function.update w.sandboxes id ((w.sandboxes id).map f) j = some sandbox := hsandbox
  rcases eq_or_ne j id with rfl | hne
  · rw [Function.update_self, Option.map_eq_some_iff] at hsandbox
    obtain ⟨old, hold, rfl⟩ := hsandbox
    exact hf old hold (h j old hold)
  · exact h j sandbox (by simpa [hne] using hsandbox)

theorem sandboxesOk_stop (h : SandboxesOk sha256Hex w) (id : ℕ) : SandboxesOk sha256Hex (w.stop id) :=
  sandboxesOk_update h fun _ _ hok => ⟨hok.origin, hok.metadata⟩

theorem sandboxesOk_effect {op : ModalOp} (h : SandboxesOk sha256Hex w) (ha : Allowed sha256Hex task w op)
    (he : Effect w op w') : SandboxesOk sha256Hex w' := by
  cases he with
  | same => exact h
  | @add id params hnone =>
    intro j sandbox hsandbox
    rcases eq_or_ne j id with rfl | hne
    · obtain rfl : ⟨params, none, true⟩ = sandbox := by simpa [ModalWorld.add] using hsandbox
      refine ⟨?_, by simp⟩
      rcases ha with hwarms | ⟨request, -, hlaunches⟩
      · exact .inl hwarms
      · exact .inr ⟨request, hlaunches⟩
    · exact h j sandbox (by simpa [ModalWorld.add, hne] using hsandbox)
  | stop id => exact sandboxesOk_stop h id
  | write id handle =>
    refine sandboxesOk_update h fun sandbox hsandbox hok => ⟨hok.origin, fun handle' hhandle' => ?_⟩
    obtain ⟨request, ⟨sandbox', hsandbox', hlaunches⟩, hhandle⟩ := ha
    obtain rfl : sandbox' = sandbox := Option.some.inj (hsandbox'.symm.trans hsandbox)
    cases hhandle'
    exact ⟨request, hlaunches, hhandle⟩

/-- Every sandbox was there before, and the one that was changed is `f` of what it was. -/
theorem before_update {f : ModalSandbox → ModalSandbox}
    (hparams : ∀ sandbox, (f sandbox).params = sandbox.params) {j : ℕ} {sandbox : ModalSandbox}
    (h : Function.update w.sandboxes id ((w.sandboxes id).map f) j = some sandbox) :
    ∃ old, w.sandboxes j = some old ∧ old.params = sandbox.params ∧ (sandbox = old ∨ sandbox = f old) := by
  rcases eq_or_ne j id with rfl | hne
  · rw [Function.update_self, Option.map_eq_some_iff] at h
    obtain ⟨old, hold, rfl⟩ := h
    exact ⟨old, hold, (hparams old).symm, .inr rfl⟩
  · exact ⟨sandbox, by simpa [hne] using h, rfl, .inl rfl⟩

theorem before_stop {j : ℕ} {sandbox : ModalSandbox} (h : (w.stop id).sandboxes j = some sandbox) :
    ∃ old, w.sandboxes j = some old ∧ old.params = sandbox.params := by
  obtain ⟨old, hold, hparams, -⟩ := before_update (f := fun sandbox => { sandbox with running := false }) (fun _ => rfl) h
  exact ⟨old, hold, hparams⟩

theorem before_write {handle : ActorHostHandle} {j : ℕ} {sandbox : ModalSandbox}
    (h : (w.write id handle).sandboxes j = some sandbox) :
    ∃ old, w.sandboxes j = some old ∧ old.params = sandbox.params := by
  obtain ⟨old, hold, hparams, -⟩ := before_update (f := fun sandbox => { sandbox with metadata := some handle }) (fun _ => rfl) h
  exact ⟨old, hold, hparams⟩

theorem Effect.before {op : ModalOp} (he : Effect w op w') {j : ℕ} {sandbox : ModalSandbox}
    (h : w'.sandboxes j = some sandbox) :
    (∃ old, w.sandboxes j = some old ∧ old.params = sandbox.params) ∨ op = .create sandbox.params := by
  cases he with
  | same => exact .inl ⟨sandbox, h, rfl⟩
  | @add id params =>
    rcases eq_or_ne j id with rfl | hne
    · obtain rfl : ⟨params, none, true⟩ = sandbox := by simpa [ModalWorld.add] using h
      exact .inr rfl
    · exact .inl ⟨sandbox, by simpa [ModalWorld.add, hne] using h, rfl⟩
  | stop id => exact .inl (before_stop h)
  | write id handle => exact .inl (before_write h)

theorem single_update {f : ModalSandbox → ModalSandbox} (h : Single w)
    (hparams : ∀ sandbox, (f sandbox).params = sandbox.params)
    (hrunning : ∀ sandbox, (f sandbox).running = true → sandbox.running = true) :
    Single ⟨Function.update w.sandboxes id ((w.sandboxes id).map f)⟩ := by
  intro j j' sandbox sandbox' hj hj' hrun hrun' hname hsame
  obtain ⟨old, hold, hp, hchanged⟩ := before_update hparams hj
  obtain ⟨old', hold', hp', hchanged'⟩ := before_update hparams hj'
  have hran : ∀ {old sandbox}, sandbox = old ∨ sandbox = f old → sandbox.running = true →
      old.running = true := by
    rintro old sandbox (rfl | rfl) hrun
    · exact hrun
    · exact hrunning old hrun
  exact h j j' old old' hold hold' (hran hchanged hrun) (hran hchanged' hrun') (hp ▸ hname)
    (by rw [hp, hp', hsame])

theorem single_stop (h : Single w) (id : ℕ) : Single (w.stop id) :=
  single_update h (fun _ => rfl) fun _ hfalse => by cases hfalse

theorem Effect.single {op : ModalOp} (he : Effect w op w') (h : Single w) : Single w' := by
  cases he with
  | same => exact h
  | @add id params hnone hfree =>
    intro j j' sandbox sandbox' hj hj' hrun hrun' hname hsame
    rcases eq_or_ne j id with rfl | hne <;> rcases eq_or_ne j' j with rfl | hne'
    · rfl
    · obtain rfl : ⟨params, none, true⟩ = sandbox := by simpa [ModalWorld.add] using hj
      exact absurd hsame.symm (hfree j' sandbox' (by simpa [ModalWorld.add, hne'] using hj') hrun' hname)
    · rfl
    · rcases eq_or_ne j' id with rfl | hne''
      · obtain rfl : ⟨params, none, true⟩ = sandbox' := by simpa [ModalWorld.add] using hj'
        exact absurd hsame (hfree j sandbox (by simpa [ModalWorld.add, hne] using hj) hrun (hsame ▸ hname))
      · exact h j j' sandbox sandbox' (by simpa [ModalWorld.add, hne] using hj) (by simpa [ModalWorld.add, hne''] using hj')
          hrun hrun' hname hsame
  | stop id => exact single_stop h id
  | write id handle => exact single_update h (fun _ => rfl) fun _ hrun => hrun

/-! ### The programs -/

/-- Modal as one task sees it: whatever the other tasks and the sandboxes did, it finds a sound world. -/
def modalEnv (sha256Hex : String → String) (task : ModalTask) : Env ModalOp ModalOp.Res ModalWorld where
  ok w op := Allowed sha256Hex task w op
  step w op r w' := ∃ w₁, Grows w w₁ ∧ SandboxesOk sha256Hex w₁ ∧ w₁.Answers op r w'

section Specs

variable {op : ModalOp} {r : op.Res} {name : String}

theorem env_grows (h : (modalEnv sha256Hex task).step w op r w') : Grows w w' := by
  obtain ⟨w₁, hg, -, ha⟩ := h
  exact hg.trans (effect_of_answers ha).grows

theorem named_step {name : Option String} (h : Named w name id)
    (hs : (modalEnv sha256Hex task).step w op r w') :
    Named w' name id := h.grows (env_grows hs)

theorem created_step (h : CreatedFor sha256Hex w request id) (hs : (modalEnv sha256Hex task).step w op r w') :
    CreatedFor sha256Hex w' request id := h.grows (env_grows hs)

/-- `id` is the host that `host` names, one that was launched under `name`. -/
structure HostRead (sha256Hex : String → String) (name region : String) (host : ProvisionedHost)
    (w : ModalWorld) : Prop where
  launched : ∃ request, CreatedFor sha256Hex w request host.sandbox ∧ request.key.name sha256Hex = name ∧
    host.handle.hostId = request.hostId ∧ host.handle.canonicalRegion = request.canonicalRegion
  region : host.handle.canonicalRegion = region

theorem HostRead.grows {region : String} {host : ProvisionedHost}
    (h : HostRead sha256Hex name region host w) (hg : Grows w w') :
    HostRead sha256Hex name region host w' := by
  obtain ⟨⟨request, hcreated, hhost⟩, hregion⟩ := h
  exact ⟨⟨request, hcreated.grows hg, hhost⟩, hregion⟩

theorem gives_fromName :
    Gives (modalEnv sha256Hex task) (fromName name) (fun id w' => Named w' (some name) id) w := by
  refine Gives.call trivial fun r w' hs => ⟨r, rfl, fun id hid => ?_⟩
  subst hid
  obtain ⟨w₁, -, -, ⟨sandbox, hsandbox, hname⟩, rfl⟩ := hs
  exact ⟨sandbox, hsandbox, hname⟩

theorem gives_poll : Gives (modalEnv sha256Hex task) (poll id) (fun _ _ => True) w :=
  Gives.call trivial fun r _ _ => ⟨r, rfl, fun _ _ => trivial⟩

theorem gives_tunnel : Gives (modalEnv sha256Hex task) (tunnel id) (fun _ _ => True) w :=
  Gives.call trivial fun r _ _ => ⟨r, rfl, fun _ _ => trivial⟩

theorem gives_resources (createIfMissing : Bool) (imageRef : String) :
    Gives (modalEnv sha256Hex task) (resources createIfMissing imageRef) (fun _ _ => True) w :=
  (Gives.call trivial fun r _ _ => ⟨r, rfl, fun _ _ => trivial⟩ : Gives _ _ (fun _ _ => True) w).bind fun _ _ _ =>
    Gives.call trivial fun r _ _ => ⟨r, rfl, fun _ _ => trivial⟩

theorem gives_terminate (h : Allowed sha256Hex task w (.terminate id)) :
    Gives (modalEnv sha256Hex task) (terminate id) (fun _ _ => True) w :=
  Gives.call h fun r _ _ => ⟨r, rfl, fun _ _ => trivial⟩

theorem gives_existing : Gives (modalEnv sha256Hex task) (existing name)
    (fun found w' => ∀ id, found = some id → Named w' (some name) id) w := by
  refine Gives.tryCatch (I := fun _ => True) (fun _ _ => trivial) trivial ?_ fun e w₁ _ => ?_
  · refine gives_fromName.bind fun id w₁ hnamed => ?_
    refine gives_poll.seq named_step hnamed fun status w₂ _ hnamed => Gives.pure fun id' hid' => ?_
    split_ifs at hid'
    cases hid'
    exact hnamed
  · cases e with
    | notFound message => exact Gives.pure (by simp)
    | alreadyExists message => exact Gives.throw _
    | other message => exact Gives.throw _

theorem gives_readHandle {region : String} (hnamed : Named w (some name) id) :
    Gives (modalEnv sha256Hex task) (readHandle id region)
      (fun handle w' => HostRead sha256Hex name region ⟨handle, id, true⟩ w') w := by
  have hread : Gives (modalEnv sha256Hex task) (ExceptT.mk (perform (ModalOp.readMetadata id)))
      (fun handle w' => ∃ request, CreatedFor sha256Hex w' request id ∧ request.key.name sha256Hex = name ∧
        handle.hostId = request.hostId ∧ handle.canonicalRegion = request.canonicalRegion) w := by
    refine Gives.call trivial fun r w' hs => ⟨r, rfl, fun handle hhandle => ?_⟩
    subst hhandle
    obtain ⟨w₁, hg, hok, ⟨sandbox, hsandbox, hmetadata⟩, rfl⟩ := hs
    obtain ⟨request, hlaunches, hhost⟩ := (hok id sandbox hsandbox).metadata handle hmetadata
    obtain ⟨sandbox', hsandbox', hname⟩ := hnamed.grows hg
    obtain rfl : sandbox' = sandbox := Option.some.inj (hsandbox'.symm.trans hsandbox)
    exact ⟨request, ⟨sandbox', hsandbox', hlaunches⟩, Option.some.inj (hlaunches.name.symm.trans hname), hhost⟩
  refine hread.bind fun handle w₁ hlaunched => Gives.ite (fun _ => Gives.throw _) fun hregion =>
    Gives.pure ⟨hlaunched, ?_⟩
  exact not_not.mp hregion

theorem gives_reuse {region : String} {key : HostKey} (hkey : key ∈ task.keys)
    (hnamed : Named w (some (key.name sha256Hex)) id) :
    Gives (modalEnv sha256Hex task) (reuse id region)
      (fun found w' => ∀ host, found = some host → HostRead sha256Hex (key.name sha256Hex) region host w') w := by
  refine Gives.tryCatch named_step hnamed ?_ fun e w₁ hnamed => ?_
  · refine (gives_readHandle hnamed).bind fun handle w₁ hread => Gives.pure fun host hhost => ?_
    cases hhost
    exact hread
  · exact (gives_terminate (.inl ⟨key, hkey, hnamed⟩)).bind fun _ _ _ => Gives.pure (by simp)

theorem gives_createSandbox {placement : ModalPlacement} (hvalid : validateEnsureRequest request = .ok ()) :
    Gives (modalEnv sha256Hex (.ensureHost request)) (createSandbox request (request.key.name sha256Hex) placement)
      (fun acquired w' => Named w' (some (request.key.name sha256Hex)) acquired.1 ∧
        (acquired.2 = false → CreatedFor sha256Hex w' request acquired.1)) w := by
  have hlaunches : Launches sha256Hex (hostParams request (request.key.name sha256Hex) placement) request :=
    ⟨hvalid, placement, rfl⟩
  refine Gives.tryCatch (I := fun _ => True) (fun _ _ => trivial) trivial ?_ fun e w₁ _ => ?_
  · have hcreate : Gives (modalEnv sha256Hex (.ensureHost request)) (create (hostParams request (request.key.name sha256Hex) placement))
        (fun id w' => CreatedFor sha256Hex w' request id) w := by
      refine Gives.call (.inr ⟨request, rfl, hlaunches⟩) fun r w' hs => ⟨r, rfl, fun id hid => ?_⟩
      subst hid
      obtain ⟨w₁, -, -, -, -, rfl⟩ := hs
      exact ⟨_, Function.update_self .., hlaunches⟩
    exact hcreate.bind fun id w₁ hcreated => Gives.pure ⟨hcreated.named, fun _ => hcreated⟩
  · cases e with
    | notFound message => exact Gives.throw _
    | alreadyExists message =>
      refine gives_existing.bind fun found w₂ hfound => ?_
      cases found with
      | some id => exact Gives.pure ⟨hfound id rfl, by simp⟩
      | none => exact gives_fromName.bind fun id w₃ hnamed => Gives.pure ⟨hnamed, by simp⟩
    | other message => exact Gives.throw _

theorem gives_waitForReady {key : HostKey} (hkey : key ∈ task.keys)
    (hnamed : Named w (some (key.name sha256Hex)) id) :
    Gives (modalEnv sha256Hex task) (waitForReady id) (fun _ _ => True) w := by
  refine Gives.tryCatch named_step hnamed
    (Gives.call trivial fun r _ _ => ⟨r, rfl, fun _ _ => trivial⟩) fun e w₁ hnamed => ?_
  have hdetail : Gives (modalEnv sha256Hex task)
      (tryCatch (ExceptT.mk (perform (ModalOp.readStderr id))) fun _ => pure "") (fun _ _ => True) w₁ :=
    Gives.tryCatch (I := fun _ => True) (fun _ _ => trivial) trivial
      (Gives.call trivial fun r _ _ => ⟨r, rfl, fun _ _ => trivial⟩) fun _ _ _ => Gives.pure trivial
  refine hdetail.seq named_step hnamed fun detail w₂ _ hnamed => ?_
  have hstop : Gives (modalEnv sha256Hex task) (tryCatch (terminate id) fun _ => pure ()) (fun _ _ => True) w₂ :=
    Gives.tryCatch (I := fun _ => True) (fun _ _ => trivial) trivial (gives_terminate (.inl ⟨key, hkey, hnamed⟩))
      fun _ _ _ => Gives.pure trivial
  exact hstop.bind fun _ _ _ => Gives.throw _

/-- The handle of a host that was started is that of the request. -/
def IsHandleOf (request : EnsureHostRequest) (handle : ActorHostHandle) : Prop :=
  handle.hostId = request.hostId ∧ handle.canonicalRegion = request.canonicalRegion

theorem gives_startPrivate (hcreated : CreatedFor sha256Hex w request id) :
    Gives (modalEnv sha256Hex (.ensureHost request)) (startPrivate id request) (fun handle _ => IsHandleOf request handle) w := by
  refine (gives_waitForReady (List.mem_singleton_self request.key) hcreated.named).bind fun _ w₁ _ => ?_
  have hroute : Gives (modalEnv sha256Hex (.ensureHost request)) (ExceptT.mk (perform (ModalOp.readRoute id)))
      (fun _ _ => True) w₁ := Gives.call trivial fun r _ _ => ⟨r, rfl, fun _ _ => trivial⟩
  exact hroute.bind fun route w₂ _ => Gives.ite (fun _ => Gives.throw _) fun _ => Gives.pure ⟨rfl, rfl⟩

theorem gives_startPublic (hcreated : CreatedFor sha256Hex w request id) :
    Gives (modalEnv sha256Hex (.ensureHost request)) (startPublic id request) (fun handle _ => IsHandleOf request handle) w := by
  refine gives_tunnel.seq created_step hcreated fun route w₁ _ hcreated => ?_
  cases route with
  | none => exact Gives.throw _
  | some route =>
    refine Gives.ite (fun _ => Gives.throw _) fun _ => ?_
    have hwrite : Gives (modalEnv sha256Hex (.ensureHost request)) (ExceptT.mk (perform (ModalOp.writeRoute id route)))
        (fun _ _ => True) w₁ := Gives.call trivial fun r _ _ => ⟨r, rfl, fun _ _ => trivial⟩
    refine hwrite.seq created_step hcreated fun _ w₂ _ hcreated => ?_
    exact (gives_waitForReady (List.mem_singleton_self request.key) hcreated.named).bind fun _ _ _ =>
      Gives.pure ⟨rfl, rfl⟩

theorem gives_activate {placement : ModalPlacement} (hcreated : CreatedFor sha256Hex w request id) :
    Gives (modalEnv sha256Hex (.ensureHost request)) (activate id request placement)
      (fun host w' => HostRead sha256Hex (request.key.name sha256Hex) request.canonicalRegion host w') w := by
  have hstart : Gives (modalEnv sha256Hex (.ensureHost request))
      (start id request placement) (fun handle _ => IsHandleOf request handle) w :=
    Gives.ite (fun _ => gives_startPrivate hcreated) fun _ => gives_startPublic hcreated
  refine hstart.seq created_step hcreated fun handle w₁ hhandle hcreated => ?_
  have hwrite : Gives (modalEnv sha256Hex (.ensureHost request)) (ExceptT.mk (perform (ModalOp.writeMetadata id handle)))
      (fun _ _ => True) w₁ := Gives.call ⟨request, hcreated, hhandle⟩ fun r _ _ => ⟨r, rfl, fun _ _ => trivial⟩
  exact hwrite.seq created_step hcreated fun _ w₂ _ hcreated =>
    Gives.pure ⟨⟨request, hcreated, rfl, hhandle⟩, hhandle.2⟩

theorem gives_provision {placement : ModalPlacement} (hvalid : validateEnsureRequest request = .ok ()) :
    Gives (modalEnv sha256Hex (.ensureHost request)) (provision request (request.key.name sha256Hex) placement)
      (fun host w' => HostRead sha256Hex (request.key.name sha256Hex) request.canonicalRegion host w') w := by
  refine (gives_createSandbox hvalid).bind fun acquired w₁ hacquired => ?_
  obtain ⟨sandbox, reused⟩ := acquired
  cases reused with
  | false => exact gives_activate (hacquired.2 rfl)
  | true =>
    refine (gives_reuse (List.mem_singleton_self request.key) hacquired.1).bind fun found w₂ hfound => ?_
    cases found with
    | some host => exact Gives.pure (hfound host rfl)
    | none => exact Gives.throw _

theorem gives_ensureHostOnce : Gives (modalEnv sha256Hex (.ensureHost request))
    (ensureHostOnce catalog request (request.key.name sha256Hex))
    (fun host w' => HostRead sha256Hex (request.key.name sha256Hex) request.canonicalRegion host w') w := by
  refine (Gives.value fun _ hvalid => hvalid :
    Gives _ (attempt (validateEnsureRequest request)) (fun u _ => validateEnsureRequest request = .ok u) w).bind
    fun u w₁ hvalid => ?_
  refine (Gives.value fun _ _ => trivial : Gives _ (attempt _) (fun _ _ => True) w₁).bind fun placement w₂ _ => ?_
  refine (gives_resources true request.imageRef).bind fun _ w₃ _ =>
    gives_existing.bind fun found w₄ hfound => ?_
  cases found with
  | none => exact gives_provision hvalid
  | some sandbox =>
    refine (gives_reuse (List.mem_singleton_self request.key) (hfound sandbox rfl)).bind fun reused w₅ hreused => ?_
    cases reused with
    | some host => exact Gives.pure (hreused host rfl)
    | none => exact gives_provision hvalid

theorem gives_terminateNamed {names : List String}
    (h : ∀ name ∈ names, ∃ key ∈ task.keys, name = key.name sha256Hex) :
    Gives (modalEnv sha256Hex task) (terminateNamed names) (fun _ _ => True) w := by
  induction names generalizing w with
  | nil => exact Gives.pure trivial
  | cons name names ih =>
    obtain ⟨key, hkey, rfl⟩ := h name (List.mem_cons_self ..)
    refine Gives.bind (P := fun _ _ => True) ?_ fun _ w₁ _ =>
      (ih fun name hname => h name (List.mem_cons_of_mem _ hname)).bind fun _ _ _ => Gives.pure trivial
    refine Gives.tryCatch (I := fun _ => True) (fun _ _ => trivial) trivial ?_ fun e w₁ _ => ?_
    · exact gives_fromName.bind fun id w₁ hnamed =>
        (gives_terminate (.inl ⟨key, hkey, hnamed⟩)).bind fun _ _ _ => Gives.pure trivial
    · cases e with
      | notFound message => exact Gives.pure trivial
      | alreadyExists message => exact Gives.throw _
      | other message => exact Gives.throw _

theorem gives_terminateHosts (request : TerminateHostsRequest) :
    Gives (modalEnv sha256Hex (.terminateHosts request))
    (terminateHosts sha256Hex catalog request) (fun _ _ => True) w := by
  refine (Gives.value fun _ _ => trivial : Gives _ (attempt _) (fun _ _ => True) w).bind fun _ w₁ _ => ?_
  refine Gives.bind (P := fun _ _ => True) ?_ fun found w₂ _ =>
    Gives.ite (fun _ => gives_terminateNamed fun name hname => ?_) fun _ => Gives.pure trivial
  · refine Gives.tryCatch (I := fun _ => True) (fun _ _ => trivial) trivial ?_ fun e w₂ _ => ?_
    · exact (Gives.call trivial fun r _ _ => ⟨r, rfl, fun _ _ => trivial⟩ : Gives _ _ (fun _ _ => True) w₁).bind
        fun _ _ _ => Gives.pure trivial
    · cases e with
      | notFound message => exact Gives.pure trivial
      | alreadyExists message => exact Gives.throw _
      | other message => exact Gives.throw _
  · obtain ⟨region, hregion, rfl⟩ := List.mem_map.mp hname
    exact ⟨⟨request.namespaceId, request.codeRevision, region⟩, List.mem_map_of_mem hregion, rfl⟩

theorem gives_publicHostRoute (request : PublicHostRouteRequest) :
    Gives (modalEnv sha256Hex (.publicHostRoute request))
    (publicHostRoute sha256Hex catalog request) (fun _ _ => True) w := by
  refine (Gives.value fun _ _ => trivial : Gives _ (attempt _) (fun _ _ => True) w).bind fun _ w₁ _ => ?_
  refine (Gives.call trivial fun r _ _ => ⟨r, rfl, fun _ _ => trivial⟩ : Gives _ _ (fun _ _ => True) w₁).bind fun _ w₂ _ => ?_
  refine gives_fromName.bind fun id w₃ _ => gives_poll.bind fun status w₄ _ =>
    Gives.ite (fun _ => Gives.throw _) fun _ => ?_
  refine gives_tunnel.bind fun route w₅ _ => ?_
  cases route with
  | none => exact Gives.throw _
  | some route => exact Gives.ite (fun _ => Gives.throw _) fun _ => Gives.pure trivial

theorem gives_warmImage (request : WarmImageRequest) : Gives (modalEnv sha256Hex (.warmImage request))
    (warmImage catalog request) (fun _ _ => True) w := by
  refine (Gives.value fun _ _ => trivial : Gives _ (attempt _) (fun _ _ => True) w).bind fun _ w₁ _ => ?_
  refine (Gives.value fun _ _ => trivial : Gives _ (attempt _) (fun _ _ => True) w₁).bind fun placement w₂ _ => ?_
  refine (gives_resources true request.imageRef).bind fun _ w₃ _ => ?_
  have hcreate : Gives (modalEnv sha256Hex (.warmImage request)) (create (warmParams placement))
      (fun id w' => Named w' none id) w₃ := by
    refine Gives.call (.inl ⟨placement, rfl⟩) fun r w' hs => ⟨r, rfl, fun id hid => ?_⟩
    subst hid
    obtain ⟨w₁, -, -, -, -, rfl⟩ := hs
    exact ⟨_, Function.update_self .., rfl⟩
  refine hcreate.bind fun id w₄ hnamed => ?_
  have hwait : Gives (modalEnv sha256Hex (.warmImage request)) (warmed id) (fun _ _ => True) w₄ := by
    refine Gives.tryCatch (I := fun _ => True) (fun _ _ => trivial) trivial ?_ fun _ _ _ => Gives.pure trivial
    exact (Gives.call trivial fun r _ _ => ⟨r, rfl, fun _ _ => trivial⟩ : Gives _ _ (fun _ _ => True) w₄).bind
      fun _ _ _ => Gives.pure trivial
  refine hwait.seq named_step hnamed fun warmed w₅ _ hnamed => ?_
  have hstop : Gives (modalEnv sha256Hex (.warmImage request)) (tryCatch (terminate id) fun _ => pure ()) (fun _ _ => True) w₅ :=
    Gives.tryCatch (I := fun _ => True) (fun _ _ => trivial) trivial (gives_terminate (.inr ⟨rfl, hnamed⟩))
      fun _ _ _ => Gives.pure trivial
  exact hstop.bind fun _ w₆ _ => Gives.value fun _ _ => trivial

end Specs

end ModalSandboxProvider

end LDO
