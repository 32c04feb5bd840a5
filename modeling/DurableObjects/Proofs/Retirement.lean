import DurableObjects.Spec.Deployments

/-! What becomes of replaced deployments. A call has the hosts terminated of the deployment
it read, which need not be the one it replaces: between the two statements another call may
have registered a third one, and before the hosts are terminated the deployment may be
active again. -/

namespace LDO

open Prog

variable {service : ControlPlaneService} {spec : ProjectSpec} {s s' : RegistryState} {i : ℕ}

abbrev RegistryCall := Prog RegistryOp RegistryOp.Res (Result Bool)

def ControlPlaneService.terminateRequest (service : ControlPlaneService) (spec : ProjectSpec) :
    TerminateHostsRequest :=
  ⟨spec.namespaceId, spec.codeRevision, service.regions⟩

/-- The provider is asked for a namespace and a revision only. -/
def TerminateHostsRequest.Names (request : TerminateHostsRequest) (spec : ProjectSpec) : Prop :=
  request.namespaceId = spec.namespaceId ∧ request.codeRevision = spec.codeRevision

/-! ### Where a call can be -/

/-- The end of a call that has the hosts of `previous` terminated. -/
def terminating (service : ControlPlaneService) (previous : ProjectSpec) : RegistryCall :=
  .call (.terminateHosts (service.terminateRequest previous)) fun _ => .ret (.ok true)

/-- What a call does once its upsert is answered. -/
def settled (service : ControlPlaneService) (previous : Option ProjectSpec) : Result Bool → RegistryCall
  | .ok true => match previous with
    | some previous => terminating service previous
    | none => .ret (.ok true)
  | r => .ret r

/-- The beginning of a call. -/
def readsPrevious (service : ControlPlaneService) (spec : ProjectSpec) : RegistryCall :=
  .call (.launchSpec spec.namespaceId) fun
    | .ok previous => (service.replaceDeployment spec previous).run
    | .error e => .ret (.error e)

inductive CallAt (service : ControlPlaneService) : RegistryCall → Prop
  | reading (spec : ProjectSpec) : CallAt service (readsPrevious service spec)
  | registering (spec : ProjectSpec) (previous : Option ProjectSpec) :
      CallAt service (.call (.register spec) (settled service previous))
  | terminating (previous : ProjectSpec) : CallAt service (terminating service previous)
  | ended (r : Result Bool) : CallAt service (.ret r)

/-- After the upsert, whatever it answered. -/
theorem replaced_run (hprovider : service.routing = true ∧ service.provisioner.isSome = true)
    (previous : Option ProjectSpec) (changed : Bool) :
    (match changed, previous with
      | true, some previous => do
        service.terminateDeploymentHosts previous
        pure changed
      | _, _ => pure changed : RegistryM Bool).run = settled service previous (.ok changed) := by
  cases changed with
  | false => rfl
  | true =>
    cases previous with
    | none => rfl
    | some previous =>
      simp only [ControlPlaneService.terminateDeploymentHosts, hprovider, and_self, if_true]
      rfl

theorem replaceDeployment_run (hprovider : service.routing = true ∧ service.provisioner.isSome = true)
    (previous : Option ProjectSpec) : (service.replaceDeployment spec previous).run =
      match spec.validate with
      | .ok () => .call (.register spec) (settled service previous)
      | .error e => .ret (.error e) := by
  unfold ControlPlaneService.replaceDeployment PostgresAdminRegistry.ensureNamespaceAndRegisterDeployment
  cases spec.validate with
  | error e => rfl
  | ok u =>
    refine congrArg (Prog.call (RegistryOp.register spec)) (funext fun r => ?_)
    cases r with
    | error e => rfl
    | ok changed => exact replaced_run hprovider previous changed

theorem callAt_replaceDeployment (hprovider : service.routing = true ∧ service.provisioner.isSome = true)
    (previous : Option ProjectSpec) : CallAt service (service.replaceDeployment spec previous).run := by
  rw [replaceDeployment_run hprovider]
  cases spec.validate with
  | error e => exact .ended _
  | ok u => exact .registering spec previous

theorem registerDeployment_run (spec : ProjectSpec) : (service.registerDeployment spec).run =
    match validateNamespace spec.namespaceId with
    | .ok () => readsPrevious service spec
    | .error e => .ret (.error e) := by
  unfold ControlPlaneService.registerDeployment PostgresAdminRegistry.launchSpec
  cases validateNamespace spec.namespaceId with
  | error e => rfl
  | ok u =>
    refine congrArg (Prog.call (RegistryOp.launchSpec spec.namespaceId)) (funext fun r => ?_)
    cases r with
    | error e => rfl
    | ok previous => rfl

theorem callAt_registerDeployment (spec : ProjectSpec) :
    CallAt service (service.registerDeployment spec).run := by
  rw [registerDeployment_run]
  cases validateNamespace spec.namespaceId with
  | error e => exact .ended _
  | ok u => exact .reading spec

theorem callAt_settled (previous : Option ProjectSpec) (r : Result Bool) :
    CallAt service (settled service previous r) := by
  rcases r with e | (_ | _)
  · exact .ended _
  · exact .ended _
  · cases previous with
    | none => exact .ended _
    | some previous => exact .terminating previous

theorem CallAt.next {op : RegistryOp} {next : op.Res → RegistryCall}
    (hprovider : service.routing = true ∧ service.provisioner.isSome = true)
    (h : CallAt service (.call op next)) (r : op.Res) :
    CallAt service (next r) := by
  cases h with
  | reading spec =>
    cases r with
    | ok previous => exact callAt_replaceDeployment hprovider previous
    | error e => exact .ended _
  | registering spec previous => exact callAt_settled previous r
  | terminating previous => exact .ended _

def CallsAt (service : ControlPlaneService) (s : RegistryState) : Prop :=
  ∀ i p, s.calls i = some p → CallAt service p

theorem CallsAt.resume {p : RegistryCall} (h : CallsAt service s) (hp : CallAt service p) :
    CallsAt service (s.resume i p) := by
  intro j q hq
  by_cases hj : j = i
  · subst hj
    cases (by simpa [RegistryState.resume] using hq)
    exact hp
  · exact h j q (by simpa [RegistryState.resume, hj] using hq)

theorem callsAt_step {e : RegistryMove}
    (hprovider : service.routing = true ∧ service.provisioner.isSome = true) (h : CallsAt service s)
    (hs : RegistryStep service s e s') : CallsAt service s' := by
  cases hs with
  | arrive spec _ => exact h.resume (callAt_registerDeployment spec)
  | read hi => exact h.resume ((h _ _ hi).next hprovider _)
  | register hi => exact CallsAt.resume (s := s.register _) h ((h _ _ hi).next hprovider _)
  | lost e hi => exact CallsAt.resume (s := s.register _) h ((h _ _ hi).next hprovider _)
  | failRead e hi => exact h.resume ((h _ _ hi).next hprovider _)
  | failRegister e hi => exact h.resume ((h _ _ hi).next hprovider _)
  | terminated hi => exact h.resume ((h _ _ hi).next hprovider _)

/-! ### When nothing is forgotten -/

/-- A call is about to have hosts of this revision terminated. -/
def RegistryState.Terminating (s : RegistryState) (spec : ProjectSpec) : Prop :=
  ∃ i request next, s.calls i = some (.call (.terminateHosts request) next) ∧ request.Names spec

/-- A registration that changes the row replaces the deployment its call has read by one of another revision, of which no
hosts are being terminated; and the answer is not lost if there was a deployment. -/
def InTurn (service : ControlPlaneService) (s : RegistryState) : RegistryMove → Prop
  | .register i spec _ => s.specs spec.namespaceId ≠ some spec →
    s.calls i = some (service.replaceDeployment spec (s.specs spec.namespaceId)).run ∧
      (∀ active, s.specs spec.namespaceId = some active → active.codeRevision ≠ spec.codeRevision) ∧
      ¬ s.Terminating spec
  | .lost _ spec => s.specs spec.namespaceId ≠ some spec → s.specs spec.namespaceId = none ∧
      ¬ s.Terminating spec
  | _ => True

/-- A deployment that was active still is, or its hosts have been terminated, or will be. -/
def Accounted (service : ControlPlaneService) (spec : ProjectSpec) (evs : List RegistryMove)
    (s : RegistryState) : Prop :=
  s.specs spec.namespaceId = some spec ∨
    (∃ i request, .terminated i request ∈ evs ∧ request.Names spec) ∨
    ∃ i, s.calls i = some (terminating service spec)

theorem settled_of_read {previous : Option ProjectSpec} {next : Result Bool → RegistryCall}
    (hprovider : service.routing = true ∧ service.provisioner.isSome = true)
    (h : (service.replaceDeployment spec previous).run = .call (.register spec) next) :
    next = settled service previous := by
  rw [replaceDeployment_run hprovider] at h
  split at h
  · cases h
    rfl
  · cases h

theorem Accounted.mono {evs : List RegistryMove} {e : RegistryMove}
    (h : ∃ j request, .terminated j request ∈ evs ∧ TerminateHostsRequest.Names request spec) :
    Accounted service spec (evs ++ [e]) s' := by
  obtain ⟨j, request, hmem, hnames⟩ := h
  exact .inr (.inl ⟨j, request, by simp [hmem], hnames⟩)

/-- A call that terminates goes on in one way only. -/
theorem accounted_resume {op : RegistryOp} {next : op.Res → RegistryCall} {p : RegistryCall} {j : ℕ}
    (hj : s.calls j = some (terminating service spec)) (hi : s.calls i = some (.call op next)) :
    (∃ k, (s.resume i p).calls k = some (terminating service spec)) ∨
    op = .terminateHosts (service.terminateRequest spec) := by
  by_cases hij : j = i
  · subst hij
    rw [hj] at hi
    cases hi
    exact .inr rfl
  · exact .inl ⟨j, by simpa [RegistryState.resume, hij] using hj⟩

theorem accounted_step {evs : List RegistryMove} {e : RegistryMove}
    (hprovider : service.routing = true ∧ service.provisioner.isSome = true)
    (h : Accounted service spec evs s) (hs : RegistryStep service s e s') (ho : InTurn service s e) :
    Accounted service spec (evs ++ [e]) s' := by
  rcases h with hactive | hterminated | ⟨j, hj⟩
  · -- active: only a registration can change that, and the call that makes it has read `spec`
    cases hs with
    | arrive _ _ => exact .inl hactive
    | read _ => exact .inl hactive
    | failRead _ _ => exact .inl hactive
    | failRegister _ _ => exact .inl hactive
    | terminated _ => exact .inl hactive
    | @register i new next hi =>
      by_cases hns : new.namespaceId = spec.namespaceId
      · by_cases hsame : spec = new
        · subst hsame
          exact .inl (by simp [RegistryState.register, RegistryState.resume])
        · rw [← hns] at hactive
          have hread := (ho (by simpa [hactive] using hsame)).1
          rw [hi, hactive] at hread
          have hnext := settled_of_read hprovider (Option.some.inj hread).symm
          refine .inr (.inr ⟨i, ?_⟩)
          simp [RegistryState.resume, hactive, hsame, hnext, settled]
      · exact .inl (by simpa [RegistryState.register, RegistryState.resume, Ne.symm hns] using hactive)
    | @lost i new next e hi =>
      by_cases hns : new.namespaceId = spec.namespaceId
      · rw [← hns] at hactive
        by_cases hsame : spec = new
        · subst hsame
          exact .inl (by simp [RegistryState.register, RegistryState.resume])
        · have hnone := (ho (by simpa [hactive] using hsame)).1
          cases hactive.symm.trans hnone
      · exact .inl (by simpa [RegistryState.register, RegistryState.resume, Ne.symm hns] using hactive)
  · exact Accounted.mono hterminated
  · cases hs with
    | @arrive i new hi =>
      refine .inr (.inr ⟨j, ?_⟩)
      have hij : j ≠ i := by
        rintro rfl
        rw [hi] at hj
        cases hj
      simpa [RegistryState.resume, hij] using hj
    | read hi => exact .inr (.inr ((accounted_resume hj hi).resolve_right nofun))
    | register hi => exact .inr (.inr ((accounted_resume (s := s.register _) hj hi).resolve_right nofun))
    | lost e hi => exact .inr (.inr ((accounted_resume (s := s.register _) hj hi).resolve_right nofun))
    | failRead e hi => exact .inr (.inr ((accounted_resume hj hi).resolve_right nofun))
    | failRegister e hi => exact .inr (.inr ((accounted_resume hj hi).resolve_right nofun))
    | @terminated i request next hi =>
      rcases accounted_resume (p := next ()) hj hi with hk | heq
      · exact .inr (.inr hk)
      · cases heq
        exact .inr (.inl ⟨i, service.terminateRequest spec, by simp, rfl, rfl⟩)

/-! ### Nobody terminates hosts of what is active -/

structure Retiring (service : ControlPlaneService) (s : RegistryState) : Prop where
  keyed : ∀ namespaceId spec, s.specs namespaceId = some spec → spec.namespaceId = namespaceId
  calls : CallsAt service s
  spared : ∀ active, s.specs active.namespaceId = some active → ¬ s.Terminating active

theorem not_terminating_arrive {request : TerminateHostsRequest} {next} :
    (service.registerDeployment spec).run ≠ .call (.terminateHosts request) next := by
  rw [registerDeployment_run]
  cases validateNamespace spec.namespaceId with
  | error e => simp
  | ok u => simp [readsPrevious]

theorem not_terminating_read {namespaceId : String} {request : TerminateHostsRequest}
    {next : Result (Option ProjectSpec) → RegistryCall} {next'}
    (hprovider : service.routing = true ∧ service.provisioner.isSome = true)
    (h : CallAt service (.call (.launchSpec namespaceId) next)) (r : Result (Option ProjectSpec)) :
    next r ≠ .call (.terminateHosts request) next' := by
  cases h with
  | reading spec =>
    cases r with
    | error e => simp
    | ok previous =>
      show (service.replaceDeployment spec previous).run ≠ _
      rw [replaceDeployment_run hprovider]
      cases spec.validate with
      | error e => simp
      | ok u => simp

/-- Only a registration that changed something goes on to terminate hosts, those of the deployment it has read. -/
theorem terminating_settled {previous : Option ProjectSpec} {r : Result Bool}
    {request : TerminateHostsRequest} {next}
    (h : settled service previous r = .call (.terminateHosts request) next) :
    r = .ok true ∧ ∃ active, previous = some active ∧ request = service.terminateRequest active := by
  rcases r with e | (_ | _)
  · cases h
  · cases h
  · cases previous with
    | none => cases h
    | some active =>
      cases h
      exact ⟨rfl, active, rfl, rfl⟩

theorem registering_settled {next : Result Bool → RegistryCall}
    (h : CallAt service (.call (.register spec) next)) :
    ∃ previous, next = settled service previous := by
  cases h with
  | registering _ previous => exact ⟨previous, rfl⟩

/-- A call is where it was before another call went on. -/
theorem Terminating.of_resume {p : RegistryCall} (h : (s.resume i p).Terminating spec) :
    s.Terminating spec ∨ ∃ request next, p = .call (.terminateHosts request) next ∧ request.Names spec := by
  obtain ⟨j, request, next, hj, hnames⟩ := h
  by_cases hij : j = i
  · subst hij
    have hp : p = .call (.terminateHosts request) next := by simpa [RegistryState.resume] using hj
    exact .inr ⟨request, next, hp, hnames⟩
  · exact .inl ⟨j, request, next, by simpa [RegistryState.resume, hij] using hj, hnames⟩

theorem specs_register {new active : ProjectSpec} {namespaceId : String}
    (h : (s.register new).specs namespaceId = some active) :
    namespaceId = new.namespaceId ∧ active = new ∨ namespaceId ≠ new.namespaceId ∧
    s.specs namespaceId = some active := by
  by_cases hns : namespaceId = new.namespaceId
  · subst hns
    exact .inl ⟨rfl, by simpa [RegistryState.register, eq_comm] using h⟩
  · exact .inr ⟨hns, by simpa [RegistryState.register, hns] using h⟩

theorem keyed_step {e : RegistryMove}
    (h : ∀ namespaceId spec, s.specs namespaceId = some spec → spec.namespaceId = namespaceId)
    (hs : RegistryStep service s e s') :
    ∀ namespaceId spec, s'.specs namespaceId = some spec → spec.namespaceId = namespaceId := by
  have hregister : ∀ new namespaceId spec, (s.register new).specs namespaceId = some spec →
      spec.namespaceId = namespaceId := by
    intro new namespaceId spec hspec
    rcases specs_register hspec with ⟨rfl, rfl⟩ | ⟨-, hold⟩
    · rfl
    · exact h _ _ hold
  cases hs with
  | register _ => exact hregister _
  | lost _ _ => exact hregister _
  | _ => exact h

/-- What was being terminated before the registration is not active after it. -/
theorem Retiring.registered {new active : ProjectSpec} (h : Retiring service s)
    (hnew : s.specs new.namespaceId ≠ some new → ¬ s.Terminating new)
    (hactive : (s.register new).specs active.namespaceId = some active) : ¬ s.Terminating active := by
  rcases specs_register hactive with ⟨hns, rfl⟩ | ⟨-, hold⟩
  · by_cases hsame : s.specs active.namespaceId = some active
    · exact h.spared active hsame
    · exact hnew hsame
  · exact h.spared active hold

theorem orderly_step {e : RegistryMove}
    (hprovider : service.routing = true ∧ service.provisioner.isSome = true) (h : Retiring service s)
    (hs : RegistryStep service s e s') (ho : InTurn service s e) : Retiring service s' := by
  refine ⟨keyed_step h.keyed hs, callsAt_step hprovider h.calls hs, fun active hactive hterminating => ?_⟩
  cases hs with
  | arrive spec _ =>
    rcases Terminating.of_resume hterminating with hold | ⟨request, next, hnew, -⟩
    · exact h.spared active hactive hold
    · exact not_terminating_arrive hnew
  | read hi =>
    rcases Terminating.of_resume hterminating with hold | ⟨request, next, hnew, -⟩
    · exact h.spared active hactive hold
    · exact not_terminating_read hprovider (h.calls _ _ hi) _ hnew
  | failRead e hi =>
    rcases Terminating.of_resume hterminating with hold | ⟨request, next, hnew, -⟩
    · exact h.spared active hactive hold
    · exact not_terminating_read hprovider (h.calls _ _ hi) _ hnew
  | failRegister e hi =>
    rcases Terminating.of_resume hterminating with hold | ⟨request, next, hnew, -⟩
    · exact h.spared active hactive hold
    · obtain ⟨previous, rfl⟩ := registering_settled (h.calls _ _ hi)
      cases (terminating_settled hnew).1
  | terminated hi =>
    rcases Terminating.of_resume hterminating with hold | ⟨request, next, hnew, -⟩
    · exact h.spared active hactive hold
    · cases hcall : h.calls _ _ hi
      cases hnew
  | @register i new next hi =>
    rcases Terminating.of_resume hterminating with hold | ⟨request, next', hgoes, hnames⟩
    · exact h.registered (fun hchanged => (ho hchanged).2.2) hactive hold
    · obtain ⟨previous, rfl⟩ := registering_settled (h.calls _ _ hi)
      obtain ⟨hok, -⟩ := terminating_settled hgoes
      have hchanged : s.specs new.namespaceId ≠ some new := by simpa using hok
      -- the call has read what it replaces, a deployment of another revision
      obtain ⟨hread, hrevision, -⟩ := ho hchanged
      rw [hi] at hread
      rw [settled_of_read hprovider (Option.some.inj hread).symm] at hgoes
      obtain ⟨-, replaced, hreplaced, rfl⟩ := terminating_settled hgoes
      have hkey := h.keyed _ _ hreplaced
      rcases specs_register hactive with ⟨-, rfl⟩ | ⟨hns, -⟩
      · exact hrevision replaced hreplaced hnames.2
      · exact hns (hnames.1.symm.trans hkey)
  | @lost i new next e hi =>
    rcases Terminating.of_resume hterminating with hold | ⟨request, next', hgoes, -⟩
    · exact h.registered (fun hchanged => (ho hchanged).2) hactive hold
    · obtain ⟨previous, rfl⟩ := registering_settled (h.calls _ _ hi)
      cases (terminating_settled hgoes).1

/-! ### Runs -/

/-- The move puts another deployment in the place of `spec`. -/
def RegistryMove.Replaces (spec : ProjectSpec) : RegistryMove → Prop
  | .register _ new _ => new.namespaceId = spec.namespaceId ∧ new ≠ spec
  | .lost _ new => new.namespaceId = spec.namespaceId ∧ new ≠ spec
  | _ => False

/-- What is asked of a run that has come to its end: the hosts of a deployment that was active and no longer
is were terminated, and those of a deployment that has been active since some point were not terminated after it. -/
structure Retired (S : System RegistryState RegistryMove) (evs : List RegistryMove)
    (s : RegistryState) : Prop where
  replaced : ∀ {earlier later s₁ spec}, evs = earlier ++ later → S.Run earlier s₁ → S.Path s₁ later s →
    s₁.specs spec.namespaceId = some spec → s.specs spec.namespaceId ≠ some spec →
    ∃ i request, .terminated i request ∈ evs ∧ TerminateHostsRequest.Names request spec
  spared : ∀ {earlier later s₁ spec}, evs = earlier ++ later → S.Run earlier s₁ → S.Path s₁ later s →
    s₁.specs spec.namespaceId = some spec → (∀ e ∈ later, ¬ e.Replaces spec) →
    ∀ i request, .terminated i request ∈ later → ¬ TerminateHostsRequest.Names request spec

/-- Every call has returned. -/
def RegistryState.Quiet (s : RegistryState) : Prop := ∀ i p, s.calls i = some p → ∃ r, p = .ret r

abbrev inTurnSystem (service : ControlPlaneService) : System RegistryState RegistryMove :=
  (registrySystem service).restrict fun s e _ => InTurn service s e

theorem accounted_path {later : List RegistryMove}
    (hprovider : service.routing = true ∧ service.provisioner.isSome = true)
    (hactive : s.specs spec.namespaceId = some spec) (hp : (inTurnSystem service).Path s later s') :
    Accounted service spec later s' := by
  induction hp with
  | nil => exact .inl hactive
  | snoc _ hs ih => exact accounted_step hprovider ih hs.1 hs.2

theorem active_step {e : RegistryMove} (hactive : s.specs spec.namespaceId = some spec)
    (he : ¬ e.Replaces spec) (hs : RegistryStep service s e s') :
    s'.specs spec.namespaceId = some spec := by
  have hregister : ∀ new : ProjectSpec, ¬ (new.namespaceId = spec.namespaceId ∧ new ≠ spec) →
      (s.register new).specs spec.namespaceId = some spec := by
    intro new hnew
    by_cases hns : new.namespaceId = spec.namespaceId
    · have hsame : new = spec := by_contra fun hne => hnew ⟨hns, hne⟩
      simp [RegistryState.register, hsame]
    · simpa [RegistryState.register, Ne.symm hns] using hactive
  cases hs with
  | register _ => exact hregister _ he
  | lost _ _ => exact hregister _ he
  | _ => exact hactive

theorem orderly_reachable (hprovider : service.routing = true ∧ service.provisioner.isSome = true)
    (h : (inTurnSystem service).Reachable s) : Retiring service s := by
  apply h.invariant (I := Retiring service)
  · rintro s ⟨hkeyed, hnone⟩
    refine ⟨hkeyed, fun i p hi => ?_, fun active _ hterminating => ?_⟩
    · cases (hnone i).symm.trans hi
    · obtain ⟨i, request, next, hi, -⟩ := hterminating
      cases (hnone i).symm.trans hi
  · intro s e s' horderly hs
    exact orderly_step hprovider horderly hs.1 hs.2

theorem spared_path {later : List RegistryMove}
    (hprovider : service.routing = true ∧ service.provisioner.isSome = true)
    (horderly : Retiring service s) (hactive : s.specs spec.namespaceId = some spec)
    (hp : (inTurnSystem service).Path s later s') (hlater : ∀ e ∈ later, ¬ e.Replaces spec) :
    (Retiring service s' ∧ s'.specs spec.namespaceId = some spec) ∧
      ∀ i request, .terminated i request ∈ later → ¬ TerminateHostsRequest.Names request spec := by
  induction hp with
  | nil => exact ⟨⟨horderly, hactive⟩, by simp⟩
  | @snoc s₁ s₂ evs e _ hs ih =>
    obtain ⟨⟨horderly₁, hactive₁⟩, hspared⟩ := ih fun e he => hlater e (by simp [he])
    refine ⟨⟨orderly_step hprovider horderly₁ hs.1 hs.2, active_step hactive₁ (hlater _ (by simp)) hs.1⟩,
      fun i request hmem hnames => ?_⟩
    rcases List.mem_append.mp hmem with hmem | hmem
    · exact hspared i request hmem hnames
    · obtain rfl := List.mem_singleton.mp hmem
      have hpending : ∃ next, s₁.calls i = some (.call (.terminateHosts request) next) := by
        cases hs.1 with
        | terminated hi => exact ⟨_, hi⟩
      obtain ⟨next, hi⟩ := hpending
      exact horderly₁.spared spec hactive₁ ⟨i, request, next, hi, hnames⟩

/-- In a run of steps that meet it every replaced deployment is retired once all calls have returned. -/
theorem replaced_deployments_retired (hprovider : service.routing = true ∧ service.provisioner.isSome = true)
    (evs : List RegistryMove) (hquiet : s.Quiet) : Retired (inTurnSystem service) evs s := by
  constructor
  · rintro earlier later s₁ spec rfl - hp hactive hgone
    rcases accounted_path hprovider hactive hp with hstill | ⟨i, request, hmem, hnames⟩ | ⟨i, hi⟩
    · exact absurd hstill hgone
    · exact ⟨i, request, by simp [hmem], hnames⟩
    · obtain ⟨r, hr⟩ := hquiet i _ hi
      cases hr
  · rintro earlier later s₁ spec rfl hrun hp hactive hlater
    exact (spared_path hprovider (orderly_reachable hprovider ⟨_, hrun⟩) hactive hp hlater).2

/-! ### Two calls at once -/

namespace Overlap

def first : ValidProjectSpec := ⟨⟨⟨"acme", "r1"⟩, "image-1", "/workspace", none⟩, by decide⟩
def second : ValidProjectSpec := ⟨⟨⟨"acme", "r2"⟩, "image-2", "/workspace", none⟩, by decide⟩
def third : ValidProjectSpec := ⟨⟨⟨"acme", "r3"⟩, "image-3", "/workspace", none⟩, by decide⟩

def issuer : ActorJwtIssuer := ⟨"key", "https://issuer", "authority", "invocation", 3600 * 10 ^ 9⟩

def controlPlane : ControlPlaneService where
  auth := ⟨["key"], "https://issuer", "authority", .controlPlane, 3600 * 10 ^ 9⟩
  hostTokenIssuer := some issuer
  routing := true
  provisioner := some issuer
  regions := ["eu"]
  parsers := ⟨fun _ => true, fun _ => none⟩

/-- `first` is active and no call is in progress. -/
def deployed : RegistryState :=
  ⟨Function.update (fun _ => none) "acme" (some first.toProjectSpec), fun _ => none⟩

theorem deployed_init : (registrySystem controlPlane).init deployed := by
  refine ⟨fun namespaceId spec h => ?_, fun _ => rfl⟩
  by_cases hns : namespaceId = "acme"
  · subst hns
    cases h
    rfl
  · simp [deployed, hns] at h

theorem arrives (spec : ValidProjectSpec) (hi : s.calls i = none) :
    RegistryStep controlPlane s (.arrive i spec.toProjectSpec) (s.resume i (readsPrevious controlPlane spec.toProjectSpec)) := by
  have hrun : (controlPlane.registerDeployment spec.toProjectSpec).run =
      readsPrevious controlPlane spec.toProjectSpec := by
    have hvalid := spec.valid
    rw [registerDeployment_run]
    unfold ProjectSpec.validate at hvalid
    cases hns : validateNamespace spec.namespaceId with
    | ok u => rfl
    | error e =>
      rw [hns] at hvalid
      cases hvalid
  rw [← hrun]
  exact .arrive _ hi

theorem reads (spec : ValidProjectSpec)
    (hi : s.calls i = some (readsPrevious controlPlane spec.toProjectSpec)) :
    RegistryStep controlPlane s (.read i spec.namespaceId) (s.resume i (.call (.register spec.toProjectSpec)
      (settled controlPlane (s.specs spec.namespaceId)))) := by
  have hrun : (controlPlane.replaceDeployment spec.toProjectSpec (s.specs spec.namespaceId)).run =
      .call (.register spec.toProjectSpec) (settled controlPlane (s.specs spec.namespaceId)) := by
    rw [replaceDeployment_run ⟨rfl, rfl⟩, spec.valid]
  rw [← hrun]
  exact .read hi

theorem terminates (h : s.calls i = some (terminating controlPlane spec)) :
    RegistryStep controlPlane s (.terminated i (controlPlane.terminateRequest spec)) (s.resume i (.ret (.ok true))) :=
  .terminated h

def overlap : List RegistryMove :=
  [.arrive 0 second.toProjectSpec, .arrive 1 third.toProjectSpec, .read 0 "acme", .read 1 "acme",
    .register 0 second.toProjectSpec true]

def overlapEnds : List RegistryMove :=
  [.register 1 third.toProjectSpec true, .terminated 0 (controlPlane.terminateRequest first.toProjectSpec),
    .terminated 1 (controlPlane.terminateRequest first.toProjectSpec)]

/-- Both calls have read `first`; the first of them has replaced it. -/
theorem overlap_path : ∃ s, (registrySystem controlPlane).Path deployed overlap s ∧
    s.specs "acme" = some second.toProjectSpec ∧
    s.calls 0 = some (terminating controlPlane first.toProjectSpec) ∧
    s.calls 1 = some (.call (.register third.toProjectSpec) (settled controlPlane (some first.toProjectSpec))) ∧
    ∀ j, 2 ≤ j → s.calls j = none := by
  have harrived := (System.Path.single (S := registrySystem controlPlane) (arrives (s := deployed) (i := 0) second rfl)).snoc
    (arrives (i := 1) third rfl)
  have hread := (harrived.snoc (reads (i := 0) second rfl)).snoc (reads (i := 1) third rfl)
  refine ⟨_, hread.snoc (.register (i := 0) rfl), rfl, rfl, rfl, fun j hj => ?_⟩
  have hne : j ≠ 0 ∧ j ≠ 1 := by omega
  simp [RegistryState.resume, RegistryState.register, deployed, hne]

theorem overlapEnds_path (hspecs : s.specs "acme" = some second.toProjectSpec)
    (h₀ : s.calls 0 = some (terminating controlPlane first.toProjectSpec))
    (h₁ : s.calls 1 = some (.call (.register third.toProjectSpec) (settled controlPlane (some first.toProjectSpec))))
    (hrest : ∀ j, 2 ≤ j → s.calls j = none) :
    ∃ s', (registrySystem controlPlane).Path s overlapEnds s' ∧
    s'.specs "acme" = some third.toProjectSpec ∧ s'.Quiet := by
  have hchanged : decide (s.specs third.namespaceId ≠ some third.toProjectSpec) = true := by
    rw [show third.namespaceId = "acme" from rfl, hspecs]
    decide
  have hregister : RegistryStep controlPlane s _ _ := .register h₁
  rw [hchanged] at hregister
  have hfirst := (System.Path.single (S := registrySystem controlPlane) hregister).snoc
    (terminates (i := 0) (by simpa [RegistryState.resume, RegistryState.register] using h₀))
  refine ⟨_, hfirst.snoc (terminates (i := 1) rfl), ?_, fun j p hp => ?_⟩
  · exact Function.update_self (f := s.specs) third.namespaceId (some third.toProjectSpec)
  rcases j with _ | _ | j
  · exact ⟨_, (Option.some.inj hp).symm⟩
  · exact ⟨_, (Option.some.inj hp).symm⟩
  · have hnone : s.calls (j + 2) = none := hrest (j + 2) (by omega)
    simp [RegistryState.resume, RegistryState.register, hnone] at hp

/-- `second` and `third` are registered side by side: both calls have the hosts of `first` terminated. -/
theorem replaced_deployment_forgotten :
    ¬ ∀ (service : ControlPlaneService) (evs : List RegistryMove) (s : RegistryState),
    service.routing = true ∧ service.provisioner.isSome = true → (registrySystem service).Run evs s → s.Quiet →
    Retired (registrySystem service) evs s := by
  intro h
  obtain ⟨s₁, hp₁, hspecs, h₀, h₁, hrest⟩ := overlap_path
  obtain ⟨s, hp, hthird, hquiet⟩ := overlapEnds_path hspecs h₀ h₁ hrest
  have hretired := h controlPlane _ s ⟨rfl, rfl⟩ ⟨deployed, deployed_init, hp₁.trans hp⟩ hquiet
  have hgone : s.specs second.namespaceId ≠ some second.toProjectSpec := by
    rw [show second.namespaceId = "acme" from rfl, hthird]
    decide
  obtain ⟨i, request, hmem, hnames⟩ := hretired.replaced rfl ⟨deployed, deployed_init, hp₁⟩ hp hspecs hgone
  have hrequest : request = controlPlane.terminateRequest first.toProjectSpec := by
    simp only [overlap, overlapEnds, List.cons_append, List.nil_append, List.mem_cons,
      List.not_mem_nil, reduceCtorEq, RegistryMove.terminated.injEq, false_or, or_false] at hmem
    rcases hmem with hmem | hmem
    · exact hmem.2
    · exact hmem.2
  rw [hrequest] at hnames
  exact absurd hnames.2 (by decide)

/-- `second` is registered alone. -/
theorem replaced_deployments_retired_alone : ∃ evs s, (inTurnSystem controlPlane).Run evs s ∧ s.Quiet ∧
    s.specs "acme" = some second.toProjectSpec ∧ Retired (inTurnSystem controlPlane) evs s := by
  have hpath : ∃ evs s, (inTurnSystem controlPlane).Run evs s ∧ s.Quiet ∧
      s.specs "acme" = some second.toProjectSpec := by
    have harrived := System.Path.single (S := inTurnSystem controlPlane)
      ⟨arrives (s := deployed) (i := 0) second rfl, by trivial⟩
    have hread := harrived.snoc ⟨reads (i := 0) second rfl, by trivial⟩
    have hregistered := hread.snoc ⟨.register (i := 0) rfl, fun _ => by
      refine ⟨?_, fun active hactive => ?_, ?_⟩
      · rw [replaceDeployment_run ⟨rfl, rfl⟩, second.valid]
        rfl
      · cases hactive
        decide
      · rintro ⟨j, request, next, hj, -⟩
        rcases j with _ | j
        · cases hj
        · simp [RegistryState.resume, deployed] at hj⟩
    refine ⟨_, _, ⟨deployed, deployed_init, hregistered.snoc ⟨terminates (i := 0) rfl, by trivial⟩⟩, fun j p hp => ?_, rfl⟩
    rcases j with _ | j
    · exact ⟨_, (Option.some.inj hp).symm⟩
    · simp [RegistryState.resume, RegistryState.register, deployed] at hp
  obtain ⟨evs, s, hrun, hquiet, hspecs⟩ := hpath
  exact ⟨evs, s, hrun, hquiet, hspecs, replaced_deployments_retired ⟨rfl, rfl⟩ evs hquiet⟩

end Overlap

end LDO
