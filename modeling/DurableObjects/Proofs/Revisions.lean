import DurableObjects.Proofs.Identity
import DurableObjects.Sanity.Authority
import DurableObjects.Spec.Deployments

/-! Which hosts routing takes for hosts of a revision. The name of a host joins the
namespace and the revision with dots, both may hold dots of their own, and a host is
recognised by the beginning of its name. So what is compared are the labels between the
dots, and a longer list of labels passes for each of its beginnings. -/

namespace LDO

open Prog ControlM

/-- The labels of a namespace and of a revision, in order. -/
def HostLaunchSpec.labels (spec : HostLaunchSpec) : List (List Char) :=
  LDO.labels spec.namespaceId ++ LDO.labels spec.codeRevision

/-- `namespace.revision` -/
def HostLaunchSpec.dotted (spec : HostLaunchSpec) : List Char :=
  spec.namespaceId.toList ++ '.' :: spec.codeRevision.toList

theorem HostLaunchSpec.splitOn_dotted (spec : HostLaunchSpec) : spec.dotted.splitOn '.' = spec.labels := by
  simp only [HostLaunchSpec.dotted, List.splitOn_append_cons_self, HostLaunchSpec.labels, LDO.labels]

theorem Uuid.dot_not_mem (uuid : Uuid) : '.' ∉ uuid.text.toList := by
  intro hmem
  rcases uuid.digits _ hmem with h | h
  · cases h
  · exact absurd h (by decide)

theorem splitOn_inj {xs ys : List Char} (h : xs.splitOn '.' = ys.splitOn '.') : xs = ys := by
  have hj := congrArg (List.intercalate ['.']) h
  rwa [List.intercalate_splitOn, List.intercalate_splitOn] at hj

/-- No label holds a dot. -/
theorem dot_not_mem_of_mem_splitOn {xs l : List Char} (h : l ∈ xs.splitOn '.') : '.' ∉ l := by
  induction xs generalizing l with
  | nil =>
    simp only [List.splitOn_nil, List.mem_singleton] at h
    simp [h]
  | cons x xs ih =>
    rw [List.splitOn_cons_eq_if_modifyHead] at h
    split at h
    · rcases List.mem_cons.mp h with rfl | hl
      · simp
      · exact ih hl
    · rename_i hx
      cases hs : xs.splitOn '.' with
      | nil => exact absurd hs (List.splitOn_ne_nil _ _)
      | cons first rest =>
        rw [hs] at h ih
        rcases List.mem_cons.mp h with rfl | hl
        · have hfirst : '.' ∉ first := ih (by simp)
          simp only [List.mem_cons, not_or]
          exact ⟨fun he => hx (by simp [← he]), hfirst⟩
        · exact ih (by simp [hl])

/-- A text goes on after a dot exactly if its labels go on. -/
theorem dot_prefix_iff (xs ys : List Char) :
    (xs ++ ['.'] <+: ys) ↔ ∃ rest, rest ≠ [] ∧ ys.splitOn '.' = xs.splitOn '.' ++ rest := by
  constructor
  · rintro ⟨zs, rfl⟩
    refine ⟨zs.splitOn '.', List.splitOn_ne_nil _ _, ?_⟩
    rw [List.append_assoc]
    exact List.splitOn_append_cons_self _ _
  · rintro ⟨rest, hne, hsplit⟩
    have hrest : (['.'].intercalate rest).splitOn '.' = rest := by
      refine List.splitOn_intercalate '.' (fun l hl => ?_) hne
      have hmem : l ∈ ys.splitOn '.' := by simp [hsplit, hl]
      exact dot_not_mem_of_mem_splitOn hmem
    have hys : ys = xs ++ '.' :: ['.'].intercalate rest :=
      splitOn_inj (by rw [hsplit, List.splitOn_append_cons_self, hrest])
    exact ⟨['.'].intercalate rest, by rw [hys, List.append_assoc]; rfl⟩

/-- A host is taken for one of `active` exactly if the labels of `active` begin its own. -/
theorem hostMatchesRevision_iff (spec active : HostLaunchSpec) (uuid : Uuid) :
    hostMatchesRevision (spec.host uuid) active.namespaceId active.codeRevision = true ↔
    active.labels <+: spec.labels := by
  have hbegins : hostMatchesRevision (spec.host uuid) active.namespaceId active.codeRevision = true ↔
      active.dotted ++ ['.'] <+: spec.dotted ++ '.' :: uuid.text.toList := by
    simp [hostMatchesRevision, HostLaunchSpec.host, HostLaunchSpec.dotted, List.append_assoc]
  rw [hbegins, dot_prefix_iff, List.splitOn_append_cons_self, spec.splitOn_dotted, active.splitOn_dotted,
    List.splitOn_eq_singleton uuid.dot_not_mem]
  constructor
  · rintro ⟨rest, hne, h⟩
    obtain ⟨rest, last, rfl⟩ := (List.eq_nil_or_concat rest).resolve_left hne
    rw [List.concat_eq_append, ← List.append_assoc] at h
    exact ⟨rest, (List.append_inj' h rfl).1.symm⟩
  · rintro ⟨rest, h⟩
    exact ⟨rest ++ [uuid.text.toList], by simp, by rw [← h, List.append_assoc]⟩

/-! ### Routing -/

/-- The calls of one resolution: `active` is the deployment it finds registered, and the provider
hands out only hosts in `handed`. -/
def routingEnv (active : HostLaunchSpec) (handed : HostId → Prop) : Env ControlOp ControlOp.Res Unit where
  ok _ _ := True
  step _ op r _ := match op, r with
    | .launchSpec _, r => r = .ok (some active)
    | .ensureHost _, .ok handle => handed handle.hostId
    | _, _ => True

section Routing

variable {service : ControlPlaneService} {active : HostLaunchSpec} {handed : HostId → Prop}

/-- The host of the target is recognised, or was handed out. -/
def RoutedTo (active : HostLaunchSpec) (handed : HostId → Prop) (target : RoutedActor) : Prop :=
  hostMatchesRevision target.placement.owner active.namespaceId active.codeRevision = true ∨
    handed target.placement.owner

theorem yields_leaseStatus_id (id : HostId) :
    Yields (routingEnv active handed) (store (PostgresHostLeaseStore.leaseStatus id)) fun status =>
      ∀ lease, status.lease = some lease → lease.id = id := by
  refine .call (fun _ => trivial) fun r => ?_
  cases r with
  | error e => exact ⟨_, rfl, fun _ _ _ _ => nofun⟩
  | ok row =>
    obtain ⟨nowMs, row⟩ := row
    refine ⟨_, rfl, fun _ _ _ status hstatus lease hlease => ?_⟩
    cases hstatus
    obtain ⟨row, -, rfl⟩ := Option.map_eq_some_iff.mp hlease
    rfl

theorem yields_activeTarget_matches (current : Option ObjectPlacement) :
    Yields (routingEnv active handed) (ControlPlaneService.activeTarget current active) fun found =>
      ∀ target, found = some target → RoutedTo active handed target := by
  unfold ControlPlaneService.activeTarget
  split
  · exact .pure nofun
  · split_ifs with hmatches
    · refine (Yields.any fun _ _ => trivial).bind fun status _ => ?_
      split_ifs
      · refine yields_guard fun lease _ => .pure fun target htarget => ?_
        cases htarget
        exact .inl hmatches
      · exact .pure nofun
    · exact .pure nofun

theorem yields_ensureHost_handed (issuer : ActorJwtIssuer) (spec : HostLaunchSpec) (region : String) :
    Yields (routingEnv active handed) (service.ensureHost issuer spec region) fun lease => handed lease.id := by
  have hhandle : ∀ request : EnsureHostRequest, Yields (routingEnv active handed) (providerEnsureHost request)
      fun handle => handed handle.hostId := by
    intro request
    refine .call (fun _ => trivial) fun r => ⟨r, rfl, fun _ _ hanswer handle hr => ?_⟩
    subst hr
    exact hanswer
  refine (Yields.any fun _ _ => trivial).bind fun request _ => (hhandle request).bind fun handle hhanded =>
    yields_guard fun _ _ => yields_guard fun _ _ =>
      (yields_leaseStatus_id handle.hostId).bind fun status hstatus =>
    yields_guard fun _ _ => yields_guard fun lease hlease => yields_guard fun _ _ => .pure ?_
  rw [hstatus lease (orContext_ok.mp hlease)]
  exact hhanded

theorem yields_routeRounds_to (actor : ActorKey) (region : String) (rounds : ℕ) :
    Yields (routingEnv active handed) (service.routeRounds actor region active rounds) (RoutedTo active handed) := by
  induction rounds with
  | zero => exact .throw _
  | succ rounds ih =>
    refine (Yields.any fun _ _ => trivial).bind fun current _ =>
      (yields_activeTarget_matches current).bind fun found hfound => ?_
    cases found with
    | some target => exact .pure (hfound target rfl)
    | none =>
      refine yields_guard fun _ _ => yields_guard fun _ _ =>
        (yields_ensureHost_handed _ _ _).bind fun lease hlease =>
        (Yields.any fun _ _ => trivial).bind fun claim _ => ?_
      -- the claim is only believed when the row records the host that was handed out
      cases claim with
      | acquired placement =>
        dsimp only
        split_ifs with howner
        · exact .pure (.inr (by rw [howner]; exact hlease))
        · exact ih
      | current placement =>
        dsimp only
        split_ifs with howner
        · exact .pure (.inr (by rw [howner]; exact hlease))
        · exact ih

theorem yields_routeActor_to (rounds : ℕ) (actor : ActorKey) (region : String) :
    Yields (routingEnv active handed) (service.routeActor rounds actor region) (RoutedTo active handed) := by
  have hspec : Yields (routingEnv active handed) (launchSpec actor.namespaceId) fun spec =>
      spec = some active :=
    .call (fun _ => trivial) fun r => ⟨r, rfl, fun _ _ hanswer spec hr => by
      rw [hr] at hanswer
      exact Except.ok.inj hanswer⟩
  refine yields_guard fun _ _ => hspec.bind fun spec hspec => yields_guard fun s hs => ?_
  rw [hspec] at hs
  cases orContext_ok.mp hs
  exact yields_routeRounds_to actor region rounds

end Routing

/-- Hosts of `spec` are told from the hosts of `active`: by name, and as targets that a resolution
finds in the table. -/
structure Recognised (spec active : HostLaunchSpec) (uuid : Uuid) : Prop where
  named : hostMatchesRevision (spec.host uuid) active.namespaceId active.codeRevision = true ↔
    spec.namespaceId = active.namespaceId ∧ spec.codeRevision = active.codeRevision
  routed : ∀ (service : ControlPlaneService) (rounds : ℕ) (actor : ActorKey) (region : String) (target : RoutedActor),
    Exec (routingEnv active (· ≠ spec.host uuid)) (service.routeActor rounds actor region).run () (.ok target) () →
    target.placement.owner = spec.host uuid →
    spec.namespaceId = active.namespaceId ∧ spec.codeRevision = active.codeRevision

/-- Two deployments are told apart unless the labels of the active one begin those of the other. -/
theorem recognised_iff (spec active : ValidProjectSpec) (uuid : Uuid) :
    Recognised spec.toHostLaunchSpec active.toHostLaunchSpec uuid ↔
      (active.labels <+: spec.labels →
        spec.namespaceId = active.namespaceId ∧ spec.codeRevision = active.codeRevision) := by
  constructor
  · intro h hlabels
    exact h.named.mp ((hostMatchesRevision_iff _ _ uuid).mpr hlabels)
  · intro h
    have hnamed : hostMatchesRevision (spec.host uuid) active.namespaceId active.codeRevision = true →
        spec.namespaceId = active.namespaceId ∧ spec.codeRevision = active.codeRevision :=
      fun hm => h ((hostMatchesRevision_iff _ _ uuid).mp hm)
    refine ⟨⟨hnamed, fun heq => ?_⟩, fun service rounds actor region target hx howner => ?_⟩
    · refine (hostMatchesRevision_iff _ _ uuid).mpr ?_
      rw [HostLaunchSpec.labels, HostLaunchSpec.labels, heq.1, heq.2]
    · rcases hx.of_yields (yields_routeActor_to rounds actor region) with hm | hne
      · rw [howner] at hm
        exact hnamed hm
      · exact absurd howner hne

/-- A patch release of the revision that is active. -/
def patched : ValidProjectSpec where
  namespaceId := "acme"
  codeRevision := "1.2"
  imageRef := "image-2"
  workingDirectory := "/workspace"
  actorEntrypoint := none
  valid := by decide

def unpatched : ValidProjectSpec where
  namespaceId := "acme"
  codeRevision := "1"
  imageRef := "image-1"
  workingDirectory := "/workspace"
  actorEntrypoint := none
  valid := by decide

def someUuid : Uuid where
  text := "9b2d1f60-1c7e-4f7a-8f0e-3a5c6b7d8e9f"
  groups := by decide
  digits := by simp [isLowerHexDigit]

theorem dotted_revision_not_recognised : ¬ ∀ (spec active : ValidProjectSpec) (uuid : Uuid),
    Recognised spec.toHostLaunchSpec active.toHostLaunchSpec uuid := by
  intro h
  have hmatches : hostMatchesRevision (patched.host someUuid) unpatched.namespaceId unpatched.codeRevision = true := by
    decide
  have hrevision := ((h patched unpatched someUuid).named.mp hmatches).2
  exact absurd hrevision (by decide)

end LDO
