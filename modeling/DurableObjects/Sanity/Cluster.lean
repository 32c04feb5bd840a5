import DurableObjects.Sanity.Calls

/-! Tickets and uploads across a call, and the invariant of every run. A ticket is held
by one turn or one cache entry until its object is sent, so no two turns ever upload
under one name. -/

namespace LDO

open Prog

variable {D : Deployment} {w w' : World} {o : ActorStorageKey}

variable {t : ℕ} {h : HostId} {call : HostCall} {op : HostOp} {r : op.Res}

/-- A phase that has uploaded nothing was reached without a write. -/
theorem clean_next {host : ActorHost} {phase : Phase} (hop : Phase.Allows host call phase op)
    (hclean : (phase.next host call op r).Clean) : phase.Clean ∧ op.isWrite = false := by
  cases hop with
  | settle _ hc => rw [Phase.Commits] at hc; subst hc; exact ⟨trivial, rfl⟩
  | execute => exact ⟨trivial, by cases call.request <;> rfl⟩
  | write =>
    cases r with
    | error e => exact hclean.elim
    | ok write => exact hclean.elim
  | commit hc =>
    rw [Phase.Commits] at hc
    subst hc
    simp only [Phase.next, Phase.onCommitting, Phase.confirm] at hclean
    split at hclean
    · exact hclean.elim
    · exact hclean.elim
  | evict => exact ⟨hclean, rfl⟩
  | store =>
    rename_i ending c
    cases r with
    | error e => exact hclean.elim
    | ok u => cases ending <;> first | exact ⟨trivial, rfl⟩ | exact hclean.elim
  | _ => exact ⟨trivial, rfl⟩

/-- Where a phase can have its ticket from. -/
theorem ticket_next {host : ActorHost} {phase : Phase} {k : StateWriteTicket}
    (hop : Phase.Allows host call phase op) (hk : (phase.next host call op r).ticket = some k) :
    (phase.ticket = some k ∧ op.isWrite = false ∧ ∀ o c, op ≠ .storeCachedState o c) ∨
    (∃ c : CachedActorState, (⟨op, r⟩ : HostEvent) = ⟨.takeCachedState call.request.object, .ok (some c)⟩ ∧
      c.nextWrite = some k) ∨
    (∃ version, (⟨op, r⟩ : HostEvent) =
      ⟨.prepareStateWrite call.request.actor host.id call.ownerEpoch version, .ok k⟩) ∨
    (∃ epoch version name id committed, (⟨op, r⟩ : HostEvent) =
      ⟨.commitState call.request.actor host.id epoch version name id, .ok committed⟩ ∧
      committed.nextWrite = some k) := by
  cases hop with
  | accepting => cases hk
  | admission => rcases r with e | _ | _ <;> cases hk
  | recheck => cases hk
  | take =>
    cases r with
    | error e => cases hk
    | ok cached =>
      simp only [Phase.next, Phase.onAdmitted, Phase.start] at hk
      split at hk
      · rename_i c hc
        have hmem := (Option.filter_eq_some_iff.mp hc).1
        exact .inr (.inl ⟨c, by rw [hmem], hk⟩)
      · split_ifs at hk <;> cases hk
  | read =>
    cases r with
    | error e => cases hk
    | ok state =>
      simp only [Phase.next, Phase.onLoading, Phase.load] at hk
      split at hk
      · rename_i c hc
        obtain ⟨s, -, -, -, rfl⟩ := fromLoaded_ok hc
        cases hk
      · cases hk
  | settle hp hc =>
    rw [Phase.Commits] at hc
    subst hc
    simp only [Phase.next, Phase.onHolding, Phase.settle, hp] at hk
    split at hk
    · rename_i ticket hr
      obtain ⟨committed, rfl, rfl⟩ := confirmed_ok hr
      exact .inr (.inr (.inr ⟨_, _, _, _, committed, rfl, hk⟩))
    · exact .inl ⟨hk, rfl, by simp⟩
  | replay =>
    cases r with
    | error e => cases hk
    | ok u => cases hk
  | execute =>
    rename_i c _ _
    refine .inl ⟨?_, by cases call.request <;> rfl, by cases call.request <;> simp [ActorRequest.executionOp, methodOp]⟩
    have hkeep : ∀ outcome, (Phase.executed c outcome).ticket = some k → c.nextWrite = some k := by
      intro outcome h
      cases outcome with
      | none => exact h
      | some x =>
        obtain ⟨result, next, effects⟩ := x
        simp only [Phase.executed] at h
        split_ifs at h <;> exact h
    obtain ⟨request, ownerEpoch, stateVersion, url⟩ := call
    cases request with
    | invoke i => exact hkeep _ hk
    | handleSocket i => exact hkeep _ hk
  | clock =>
    cases r with
    | error e => cases hk
    | ok now => exact .inl ⟨hk, rfl, by simp⟩
  | prepare =>
    cases r with
    | error e => cases hk
    | ok k' => cases hk; exact .inr (.inr (.inl ⟨_, rfl⟩))
  | write =>
    cases r with
    | error e => cases hk
    | ok write => cases hk
  | unsent hticket =>
    rename_i c _ _ _ ticket
    refine .inl ⟨?_, rfl, by simp⟩
    change c.unsent.nextWrite = some k at hk
    unfold CachedActorState.unsent at hk
    split_ifs at hk with hlt
    · cases hk
    · rcases hticket with h | h
      · exact absurd h hlt
      · exact h.trans hk
  | commit hc =>
    rw [Phase.Commits] at hc
    subst hc
    simp only [Phase.next, Phase.onCommitting, Phase.confirm] at hk
    split at hk
    · rename_i ticket hr
      obtain ⟨committed, rfl, rfl⟩ := confirmed_ok hr
      exact .inr (.inr (.inr ⟨_, _, _, _, committed, rfl, hk⟩))
    · cases hk
  | evict => exact .inl ⟨hk, rfl, by simp⟩
  | store =>
    cases r with
    | error e => cases hk
    | ok u => cases hk

/-- A ticket changes hands, is handed out, or is used up: only its own name is concerned. -/
theorem TicketsOk.update {s s' : ClusterState} {holder : String → Option Holder} (ht : TicketsOk D s holder)
    (n : String) (x : Option Holder) (hregion : ∀ o r, s.world.region o = some r → s'.world.region o = some r)
    (hheld : ∀ y o k, Held D s' y o k → (Held D s y o k ∧ holder n ≠ some y) ∨ (k.objectName = n ∧ x = some y ∧
      ∃ region, s'.world.region o = some region ∧ D.locate k.url = some ⟨region, k.objectName⟩))
    (hissued : s.world.issued ⊆ s'.world.issued)
    (huploads : ∀ u ∈ s'.world.uploads, u ∈ s.world.uploads ∨ u.location.objectName = n)
    (hx : ∀ y, x = some y → n ∈ s'.world.issued ∧ ∀ u ∈ s'.world.uploads, u.location.objectName ≠ n) :
    TicketsOk D s' (Function.update holder n x) := by
  refine ⟨fun y o k hk => ?_, fun m y hm => ?_⟩
  · rcases hheld y o k hk with ⟨hold, hne⟩ | ⟨rfl, rfl, hloc⟩
    · obtain ⟨hy, region, hr, hloc⟩ := ht.held y o k hold
      have hkn : k.objectName ≠ n := by
        rintro rfl
        exact hne hy
      exact ⟨by rw [Function.update_of_ne hkn, hy], region, hregion _ _ hr, hloc⟩
    · exact ⟨by simp, hloc⟩
  · by_cases hmn : m = n
    · subst hmn
      exact hx y (by simpa using hm)
    · rw [Function.update_of_ne hmn] at hm
      obtain ⟨hi, hu⟩ := ht.unused m y hm
      refine ⟨hissued hi, fun u hu' => ?_⟩
      rcases huploads u hu' with h | h
      · exact hu u h
      · rw [h]; exact Ne.symm hmn

theorem TicketsOk.keep {s s' : ClusterState} {holder : String → Option Holder} (ht : TicketsOk D s holder)
    (hregion : ∀ o r, s.world.region o = some r → s'.world.region o = some r)
    (hheld : ∀ y o k, Held D s' y o k → Held D s y o k) (hissued : s.world.issued ⊆ s'.world.issued)
    (huploads : s'.world.uploads = s.world.uploads) : TicketsOk D s' holder := by
  refine ⟨fun y o k hk => ?_, fun m y hm => ?_⟩
  · obtain ⟨hy, region, hr, hloc⟩ := ht.held y o k (hheld y o k hk)
    exact ⟨hy, region, hregion _ _ hr, hloc⟩
  · rw [huploads]
    exact ⟨hissued (ht.unused m y hm).1, (ht.unused m y hm).2⟩

theorem phase_log (w : World) (t : ℕ) (h : HostId) (call : HostCall) (e : HostEvent) :
    (w.log t e).phase D t h call = (w.phase D t h call).next (D.host h) call e.op e.answer := by
  simp only [World.phase, log_trace_self, Phase.after_snoc]

section Call

variable {s : ClusterState} {next : op.Res → HostM TurnAnswer}

/-- The state after turn `t` was answered. -/
def ClusterState.answered (s : ClusterState) (t : ℕ) (h : HostId) (call : HostCall) (op : HostOp) (r : op.Res)
    (next : op.Res → HostM TurnAnswer) (w' : World) : ClusterState :=
  ⟨w'.log t ⟨op, r⟩, Function.update s.turns t (some ((h, call), next r))⟩

theorem held_answered (ha : Answers D t h s.world op r w') {y : Holder} {k : StateWriteTicket}
    (hk : Held D (s.answered t h call op r next w') y o k) :
    (∃ h' c, y = .cache h' o ∧ w'.caches h' o = some c ∧ c.nextWrite = some k) ∨
      (∃ j, y = .turn j ∧ j ≠ t ∧ Held D s y o k) ∨
      y = .turn t ∧ o = call.request.object ∧
        ((s.world.phase D t h call).next (D.host h) call op r).ticket = some k := by
  have htrace := (answers_outside ha).trace
  cases hk with
  | cache hc hn => exact .inl ⟨_, _, rfl, hc, hn⟩
  | turn hj hn =>
    rename_i j h' call' p
    by_cases heq : j = t
    · subst heq
      simp only [ClusterState.answered, Function.update_self, Option.some.injEq, Prod.mk.injEq] at hj
      obtain ⟨⟨rfl, rfl⟩, -⟩ := hj
      simp only [ClusterState.answered, phase_log] at hn
      refine .inr (.inr ⟨rfl, rfl, ?_⟩)
      rwa [World.phase, htrace] at hn
    · simp only [ClusterState.answered, Function.update_of_ne heq] at hj
      refine .inr (.inl ⟨j, rfl, heq, .turn hj ?_⟩)
      simp only [ClusterState.answered, World.phase, log_trace_ne _ _ heq, htrace] at hn
      exact hn

theorem region_answered (ha : Answers D t h s.world op r w') (o : ActorStorageKey) :
    (s.answered t h call op r next w').world.region o = s.world.region o := by
  simp only [ClusterState.answered, World.log, World.region, World.row, (answers_outside ha).store]

/-- Calls that move no ticket. -/
theorem tickets_keep {holder : String → Option Holder} (htk : TicketsOk D s holder)
    (ht : s.turns t = some ((h, call), .call op next)) (ha : Answers D t h s.world op r w')
    (hcaches : ∀ h' o' c, w'.caches h' o' = some c → s.world.caches h' o' = some c)
    (hticket : ∀ k, ((s.world.phase D t h call).next (D.host h) call op r).ticket = some k →
      (s.world.phase D t h call).ticket = some k)
    (huploads : w'.uploads = s.world.uploads) : TicketsOk D (s.answered t h call op r next w') holder := by
  refine htk.keep (fun o r hr => (region_answered ha o).trans hr) ?_ (answers_issued ha : _ ⊆ w'.issued) huploads
  intro y o k hk
  rcases held_answered ha hk with ⟨h', c, rfl, hc, hn⟩ | ⟨j, rfl, -, hj⟩ | ⟨rfl, rfl, hn⟩
  · exact .cache (hcaches _ _ _ hc) hn
  · exact hj
  · exact .turn ht (hticket k hn)

/-- A ticket that was just made goes to the turn that asked for it. -/
theorem tickets_fresh {holder : String → Option Holder} {k : StateWriteTicket} {placement : ObjectPlacement}
    (htk : TicketsOk D s holder) (ha : Answers D t h s.world op r w')
    (hcaches : w'.caches = s.world.caches) (huploads : w'.uploads = s.world.uploads)
    (hissued : w'.issued = k.objectName :: s.world.issued) (hfresh : FreshTicket D s.world placement k)
    (hregion : s.world.region call.request.object = some placement.homeRegion)
    (huploaded : ∀ u ∈ s.world.uploads, u.location.objectName ∈ s.world.issued)
    (hticket : ((s.world.phase D t h call).next (D.host h) call op r).ticket = some k) :
    ∃ holder, TicketsOk D (s.answered t h call op r next w') holder := by
  have hnone : ∀ y, holder k.objectName ≠ some y := fun y hy => hfresh.unused (htk.unused _ y hy).1
  refine ⟨_, htk.update k.objectName (some (.turn t)) (fun o r hr => (region_answered ha o).trans hr) ?_
    (answers_issued ha : _ ⊆ w'.issued) ?_ ?_⟩
  · intro y o k' hk
    rcases held_answered ha hk with ⟨h', c, rfl, hc, hn⟩ | ⟨j, rfl, -, hj⟩ | ⟨rfl, rfl, hn⟩
    · rw [hcaches] at hc
      exact .inl ⟨.cache hc hn, hnone _⟩
    · exact .inl ⟨hj, hnone _⟩
    · cases hticket.symm.trans hn
      exact .inr ⟨rfl, rfl, _, (region_answered ha _).trans hregion, hfresh.location⟩
  · intro u hu
    change u ∈ w'.uploads at hu
    rw [huploads] at hu
    exact .inl hu
  · rintro _ ⟨rfl⟩
    refine ⟨by simp [ClusterState.answered, World.log, hissued], fun u hu heq => ?_⟩
    change u ∈ w'.uploads at hu
    rw [huploads] at hu
    exact hfresh.unused (heq ▸ huploaded u hu)

theorem setCache_apply (w : World) (h h' : HostId) (o o' : ActorStorageKey) (c : Option CachedActorState) :
    (w.setCache h o c).caches h' o' = if h' = h ∧ o' = o then c else w.caches h' o' := by
  simp only [World.setCache, Function.update_apply]
  by_cases hh : h' = h
  · subst hh
    by_cases ho : o' = o
    · simp [ho]
    · simp [ho]
  · simp [hh]

/-- The object a phase writes is the one its ticket names. -/
theorem ticket_of_write {host : ActorHost} {phase : Phase} {url : String} {bytes : ByteArray}
    (hop : Phase.Allows host call phase (.write url bytes)) : ∃ k, phase.ticket = some k ∧ k.url = url := by
  generalize hw : HostOp.write url bytes = op at hop
  cases hop with
  | write => cases hw; exact ⟨_, rfl, rfl⟩
  | settle _ hc => rw [Phase.Commits, ← hw] at hc; cases hc
  | commit hc => rw [Phase.Commits, ← hw] at hc; cases hc
  | execute => cases hr : call.request <;> rw [hr] at hw <;> cases hw
  | _ => cases hw

theorem tickets_write {holder : String → Option Holder} {url : String} {bytes : ByteArray}
    {r : Result StateWrite} {next : Result StateWrite → HostM TurnAnswer} {l : Location}
    (htk : TicketsOk D s holder)
    (hallow : Phase.Allows (D.host h) call (s.world.phase D t h call) (.write url bytes))
    (ht : s.turns t = some ((h, call), .call (.write url bytes) next))
    (ha : Answers D t h s.world (.write url bytes) r w') (hl : D.locate url = some l)
    (hcaches : w'.caches = s.world.caches)
    (huploads : w'.uploads = s.world.uploads ++ [⟨t, l, bytes⟩]) :
    TicketsOk D (s.answered t h call (.write url bytes) r next w') (Function.update holder l.objectName none) := by
  obtain ⟨k, hk, rfl⟩ := ticket_of_write hallow
  obtain ⟨hholder, region, -, hloc⟩ := htk.held _ _ k (.turn ht hk)
  rw [hloc] at hl
  cases hl
  have hnone : ∀ k', ((s.world.phase D t h call).next (D.host h) call (.write k.url bytes) r).ticket ≠ some k' := by
    intro k' hk'
    rcases ticket_next hallow hk' with ⟨-, hw, -⟩ | ⟨c, heq, -⟩ | ⟨v, heq⟩ | ⟨_, _, _, _, _, heq, -⟩
    · cases hw
    · cases congrArg HostEvent.op heq
    · cases congrArg HostEvent.op heq
    · cases congrArg HostEvent.op heq
  refine htk.update k.objectName none (fun o r hr => (region_answered ha o).trans hr) ?_
    (answers_issued ha : _ ⊆ w'.issued) ?_ (by simp)
  · intro y o k' hk'
    rcases held_answered ha hk' with ⟨h', c, rfl, hc, hn⟩ | ⟨j, rfl, hj, hj'⟩ | ⟨rfl, rfl, hn⟩
    · rw [hcaches] at hc
      exact .inl ⟨.cache hc hn, by rw [hholder]; simp⟩
    · refine .inl ⟨hj', ?_⟩
      rw [hholder]
      intro heq
      cases heq
      exact hj rfl
    · exact absurd hn (hnone k')
  · intro u hu
    change u ∈ w'.uploads at hu
    rw [huploads] at hu
    rcases List.mem_append.mp hu with hu | hu
    · exact .inl hu
    · rw [List.mem_singleton.mp hu]
      exact .inr rfl

theorem tickets_call (hok : ClusterOk D s) (ht : s.turns t = some ((h, call), .call op next))
    (ha : Answers D t h s.world op r w') :
    ∃ holder, TicketsOk D (s.answered t h call op r next w') holder := by
  obtain ⟨holder, htk⟩ := hok.tickets
  have hallow := (hok.turns t h call _ ht).2.2.1
  have hnext := fun k => ticket_next (r := r) (k := k) hallow
  -- a call that makes no ticket leaves at most the one the turn had
  have hquiet : (∀ o, op ≠ .takeCachedState o) → (∀ a b c d, op ≠ .prepareStateWrite a b c d) →
      (∀ a b c d e f, op ≠ .commitState a b c d e f) → ∀ k,
      ((s.world.phase D t h call).next (D.host h) call op r).ticket = some k →
      (s.world.phase D t h call).ticket = some k ∧ op.isWrite = false ∧ ∀ o c, op ≠ .storeCachedState o c := by
    intro h₁ h₂ h₃ k hk
    rcases hnext k hk with h | ⟨c, heq, -⟩ | ⟨v, heq⟩ | ⟨_, _, _, _, _, heq, -⟩
    · exact h
    · exact absurd (congrArg HostEvent.op heq) (h₁ _)
    · exact absurd (congrArg HostEvent.op heq) (h₂ _ _ _ _)
    · exact absurd (congrArg HostEvent.op heq) (h₃ _ _ _ _ _ _)
  have hkeep : w'.caches = s.world.caches → w'.uploads = s.world.uploads →
      (∀ k, ((s.world.phase D t h call).next (D.host h) call op r).ticket = some k →
        (s.world.phase D t h call).ticket = some k) →
      ∃ holder, TicketsOk D (s.answered t h call op r next w') holder :=
    fun hc hu hticket => ⟨holder, tickets_keep htk ht ha (by rw [hc]; exact fun _ _ _ => id) hticket hu⟩
  cases ha with
  | take =>
    rename_i object
    have hshrink : ∀ h' o' c, (s.world.setCache h object none).caches h' o' = some c →
        s.world.caches h' o' = some c := by
      intro h' o' c hc
      rw [setCache_apply] at hc
      split_ifs at hc
      exact hc
    cases hk : ((s.world.phase D t h call).next (D.host h) call (.takeCachedState object)
        (.ok (s.world.caches h object))).ticket with
    | none => exact ⟨holder, tickets_keep htk ht .take hshrink (by simp [hk]) rfl⟩
    | some k =>
      rcases hnext k hk with hold | ⟨c, heq, hn⟩ | ⟨v, heq⟩ | ⟨_, _, _, _, _, heq, -⟩
      · refine ⟨holder, tickets_keep htk ht .take hshrink ?_ rfl⟩
        intro k' hk'
        cases hk.symm.trans hk'
        exact hold.1
      · -- the ticket leaves the cache
        obtain ⟨rfl, hentry⟩ : object = call.request.object ∧ s.world.caches h object = some c := by
          injection heq with h₁ h₂
          cases h₁
          exact ⟨rfl, Except.ok.inj h₂⟩
        have hcache : Held D s (.cache h call.request.object) call.request.object k := .cache hentry hn
        obtain ⟨hholder, region, hregion, hloc⟩ := htk.held _ _ _ hcache
        refine ⟨_, htk.update k.objectName (some (.turn t)) (fun o r hr => (region_answered (D := D) .take o).trans hr) ?_
          (fun _ hn => hn) (fun u hu => .inl hu) ?_⟩
        · intro y o k' hk'
          rcases held_answered .take hk' with ⟨h', c', rfl, hc', hn'⟩ | ⟨j, rfl, -, hj⟩ | ⟨rfl, rfl, hn'⟩
          · refine .inl ⟨.cache (hshrink _ _ _ hc') hn', ?_⟩
            rw [hholder]
            intro heq
            cases heq
            rw [setCache_apply, if_pos ⟨rfl, rfl⟩] at hc'
            cases hc'
          · exact .inl ⟨hj, by rw [hholder]; simp⟩
          · cases hk.symm.trans hn'
            exact .inr ⟨rfl, rfl, region, (region_answered (D := D) .take _).trans hregion, hloc⟩
        · exact fun _ _ => htk.unused _ _ hholder
      · cases heq
      · cases heq
  | store =>
    rename_i object c
    have hnone : ∀ k, ((s.world.phase D t h call).next (D.host h) call (.storeCachedState object c) (.ok ())).ticket ≠
        some k := fun k hk => (hquiet (by simp) (by simp) (by simp) k hk).2.2 _ _ rfl
    have hgrow : ∀ h' o' c', (s.world.setCache h object (some c)).caches h' o' = some c' →
        h' = h ∧ o' = object ∧ c' = c ∨ s.world.caches h' o' = some c' := by
      intro h' o' c' hc
      rw [setCache_apply] at hc
      split_ifs at hc with heq
      · cases hc; exact .inl ⟨heq.1, heq.2, rfl⟩
      · exact .inr hc
    obtain ⟨hobj, hphase⟩ : object = call.request.object ∧ (s.world.phase D t h call).ticket = c.nextWrite := by
      generalize s.world.phase D t h call = phase at hallow
      generalize hop : HostOp.storeCachedState object c = op at hallow
      cases hallow with
      | replay => cases hop; exact ⟨rfl, rfl⟩
      | store => cases hop; exact ⟨rfl, rfl⟩
      | settle _ hc => rw [Phase.Commits, ← hop] at hc; cases hc
      | commit hc => rw [Phase.Commits, ← hop] at hc; cases hc
      | execute => cases hr : call.request <;> rw [hr] at hop <;> cases hop
      | _ => cases hop
    subst hobj
    cases hn : c.nextWrite with
    | none =>
      refine ⟨holder, htk.keep (fun o r hr => (region_answered (D := D) .store o).trans hr) ?_ (fun _ h => h) rfl⟩
      intro y o k hk
      rcases held_answered .store hk with ⟨h', c', rfl, hc', hn'⟩ | ⟨j, rfl, -, hj⟩ | ⟨rfl, rfl, hn'⟩
      · rcases hgrow _ _ _ hc' with ⟨-, -, rfl⟩ | hc'
        · rw [hn] at hn'; cases hn'
        · exact .cache hc' hn'
      · exact hj
      · exact absurd hn' (hnone k)
    | some k =>
      obtain ⟨hholder, region, hregion, hloc⟩ := htk.held _ _ k (.turn ht (hphase.trans hn))
      refine ⟨_, htk.update k.objectName (some (.cache h call.request.object))
        (fun o r hr => (region_answered (D := D) .store o).trans hr) ?_ (fun _ hn => hn) (fun u hu => .inl hu) ?_⟩
      · intro y o k' hk'
        rcases held_answered .store hk' with ⟨h', c', rfl, hc', hn'⟩ | ⟨j, rfl, hj, hj'⟩ | ⟨rfl, rfl, hn'⟩
        · rcases hgrow _ _ _ hc' with ⟨rfl, rfl, rfl⟩ | hc'
          · cases hn.symm.trans hn'
            exact .inr ⟨rfl, rfl, region, (region_answered (D := D) .store _).trans hregion, hloc⟩
          · exact .inl ⟨.cache hc' hn', by rw [hholder]; simp⟩
        · refine .inl ⟨hj', ?_⟩
          rw [hholder]
          intro heq
          cases heq
          exact hj rfl
        · exact absurd hn' (hnone k')
      · exact fun _ _ => htk.unused _ _ hholder
  | prepared hm hobj hown hepoch hver hfresh =>
    rename_i actor hostId epoch version placement ticket
    cases hk : ((s.world.phase D t h call).next (D.host h) call (.prepareStateWrite actor hostId epoch version)
        (.ok ticket)).ticket with
    | none =>
      exact ⟨holder, tickets_keep htk ht (.prepared hm hobj hown hepoch hver hfresh) (fun _ _ _ => id)
        (by simp [hk]) rfl⟩
    | some k =>
      rcases hnext k hk with hold | ⟨c, heq, -⟩ | ⟨v, heq⟩ | ⟨_, _, _, _, _, heq, -⟩
      · refine ⟨holder, tickets_keep htk ht (.prepared hm hobj hown hepoch hver hfresh) (fun _ _ _ => id) ?_ rfl⟩
        intro k' hk'
        cases hk.symm.trans hk'
        exact hold.1
      · cases heq
      · cases heq
        refine tickets_fresh htk (.prepared hm hobj hown hepoch hver hfresh) rfl rfl rfl hfresh ?_ hok.uploaded hk
        rw [← (hok.observed placement hm).1, hobj]
        rfl
      · cases heq
  | committedNext hm hfresh =>
    rename_i actor hostId sessionId epoch version name rid placement ticket
    cases hk : ((s.world.phase D t h call).next (D.host h) call (.commitState actor hostId epoch version name rid)
        (.ok ⟨placement.stateVersion, some ticket⟩)).ticket with
    | none => exact ⟨holder, tickets_keep htk ht (.committedNext hm hfresh) (fun _ _ _ => id) (by simp [hk]) rfl⟩
    | some k =>
      rcases hnext k hk with hold | ⟨c, heq, -⟩ | ⟨v, heq⟩ | ⟨_, _, _, _, _, heq, hn⟩
      · refine ⟨holder, tickets_keep htk ht (.committedNext hm hfresh) (fun _ _ _ => id) ?_ rfl⟩
        intro k' hk'
        cases hk.symm.trans hk'
        exact hold.1
      · cases heq
      · cases heq
      · cases heq
        cases hn
        exact tickets_fresh htk (.committedNext hm hfresh) rfl rfl rfl hfresh
          (hok.committed _ _ hm).2 hok.uploaded hk
  | committed hm =>
    refine hkeep rfl rfl fun k hk => ?_
    rcases hnext k hk with hold | ⟨c, heq, -⟩ | ⟨v, heq⟩ | ⟨_, _, _, _, _, heq, hn⟩
    · exact hold.1
    · cases heq
    · cases heq
    · cases heq; cases hn
  | notCommitted e =>
    refine hkeep rfl rfl fun k hk => ?_
    rcases hnext k hk with hold | ⟨c, heq, -⟩ | ⟨v, heq⟩ | ⟨_, _, _, _, _, heq, hn⟩
    · exact hold.1
    · cases heq
    · cases heq
    · cases heq
  | notPrepared e =>
    refine hkeep rfl rfl fun k hk => ?_
    rcases hnext k hk with hold | ⟨c, heq, -⟩ | ⟨v, heq⟩ | ⟨_, _, _, _, _, heq, hn⟩
    · exact hold.1
    · cases heq
    · cases heq
    · cases heq
  | written _ hl => exact ⟨_, tickets_write htk hallow ht (.written _ hl) hl rfl rfl⟩
  | writeLost _ hl => exact ⟨_, tickets_write htk hallow ht (.writeLost _ hl) hl rfl rfl⟩
  | _ => exact hkeep rfl rfl fun k hk => (hquiet (by simp) (by simp) (by simp) k hk).1

/-- An upload that is about to be sent has a name nobody has used. -/
theorem upload_fresh {url : String} {bytes : ByteArray} {next : Result StateWrite → HostM TurnAnswer}
    {l : Location} (hok : ClusterOk D s)
    (ht : s.turns t = some ((h, call), .call (.write url bytes) next)) (hl : D.locate url = some l) :
    l.objectName ∈ s.world.issued ∧ ∀ u ∈ s.world.uploads, u.location.objectName ≠ l.objectName := by
  obtain ⟨holder, htk⟩ := hok.tickets
  obtain ⟨k, hk, rfl⟩ := ticket_of_write (hok.turns t h call _ ht).2.2.1
  obtain ⟨hholder, region, -, hloc⟩ := htk.held _ _ k (.turn ht hk)
  rw [hloc] at hl
  cases hl
  exact htk.unused _ _ hholder

theorem nodup_upload {us : List Upload} {u : Upload} (h : (us.map (·.location.objectName)).Nodup)
    (hne : ∀ v ∈ us, v.location.objectName ≠ u.location.objectName) :
    ((us ++ [u]).map (·.location.objectName)).Nodup := by
  rw [List.map_append, List.nodup_append]
  refine ⟨h, by simp, fun a ha b hb => ?_⟩
  obtain ⟨v, hv, rfl⟩ := List.mem_map.mp ha
  rw [List.map_singleton, List.mem_singleton] at hb
  rw [hb]
  exact hne v hv

theorem answers_caches (ha : Answers D t h w op r w') {h' : HostId} {o' : ActorStorageKey}
    {c : CachedActorState} (hc : w'.caches h' o' = some c) :
    w.caches h' o' = some c ∨ h' = h ∧ op = .storeCachedState o' c := by
  cases ha with
  | take =>
    rw [setCache_apply] at hc
    split_ifs at hc
    exact .inl hc
  | store =>
    rw [setCache_apply] at hc
    split_ifs at hc with heq
    · cases hc
      rw [heq.2]
      exact .inr ⟨heq.1, rfl⟩
    · exact .inl hc
  | _ => exact .inl hc

/-- What a turn puts into the cache is known. -/
theorem cachedOk_of_store {phase : Phase} {host : ActorHost} {o' : ActorStorageKey} {c : CachedActorState}
    (hphase : PhaseOk D w t h call phase) (hop : Phase.Allows host call phase (.storeCachedState o' c)) :
    CachedOk D w h o' c := by
  generalize hs : HostOp.storeCachedState o' c = op at hop
  cases hop with
  | replay => cases hs; exact hphase.2.2
  | store => cases hs; exact hphase.2.2
  | settle _ hc => rw [Phase.Commits, ← hs] at hc; cases hc
  | commit hc => rw [Phase.Commits, ← hs] at hc; cases hc
  | execute => cases hr : call.request <;> rw [hr] at hs <;> cases hs
  | _ => cases hs

theorem clusterOk_call (hok : ClusterOk D s) (ht : s.turns t = some ((h, call), .call op next))
    (ha : Answers D t h s.world op r w') : ClusterOk D (s.answered t h call op r next w') := by
  obtain ⟨hcalls, hnone, hwp⟩ := hok.turns t h call _ ht
  obtain ⟨hphase, hclean⟩ := hok.phases t h call (.inl (by rw [ht]; simp)) hcalls
  have hallow := hwp.1
  have hout := answers_outside ha
  have hl := later_call ha (first_execution hphase hallow)
  have hstore : (w'.log t ⟨op, r⟩).store = s.world.store := hout.store
  have htrace : ∀ j, j ≠ t → (w'.log t ⟨op, r⟩).trace j = s.world.trace j := by
    intro j hj
    rw [log_trace_ne _ _ hj, hout.trace]
  have hphase' : (w'.log t ⟨op, r⟩).phase D t h call =
      (s.world.phase D t h call).next (D.host h) call op r := by
    rw [phase_log, World.phase, hout.trace]
    rfl
  have hups := answers_uploads ha
  refine ⟨?_, ?_, ?_, ?_, ?_, ?_, ?_, ?_, ?_, tickets_call hok ht ha, ?_, ?_, ?_, ?_, ?_, ?_⟩
  · exact hstore.symm ▸ hok.store
  · intro i q p hi
    change q ∈ w'.sent
    rw [hout.sent]
    exact hok.arriving i q p (by rwa [← hstore])
  · intro o head hm
    change ∃ q ∈ w'.sent, _
    rw [hout.sent]
    exact hok.heads o head (by rwa [World.heads, ← hstore])
  · intro q hq
    change q ∈ w'.sent at hq
    rw [hout.sent] at hq
    exact (hok.sent q hq).mono hl
  · intro q placement hm
    change (q, placement) ∈ w'.committed at hm
    rw [hout.committed] at hm
    obtain ⟨hh, hr⟩ := hok.committed q placement hm
    exact ⟨(hl.heads _).subset hh, hl.region _ _ hr⟩
  · intro placement hm
    change placement ∈ w'.observed at hm
    rw [hout.observed] at hm
    obtain ⟨hr, hh⟩ := hok.observed placement hm
    exact ⟨hl.region _ _ hr, hh.imp id fun hm => (hl.heads _).subset hm⟩
  · change (w'.uploads.map _).Nodup
    rcases hups with ⟨hu, -⟩ | ⟨url, bytes, l, rfl, hloc, hu, -⟩
    · rw [hu]; exact hok.uploads
    · rw [hu]; exact nodup_upload hok.uploads (upload_fresh hok ht hloc).2
  · intro u hu
    change u ∈ w'.uploads at hu
    refine answers_issued ha ?_
    rcases hups with ⟨hu', -⟩ | ⟨url, bytes, l, rfl, hloc, hu', -⟩
    · exact hok.uploaded u (by rwa [← hu'])
    · rw [hu'] at hu
      rcases List.mem_append.mp hu with hu | hu
      · exact hok.uploaded u hu
      · rw [List.mem_singleton.mp hu]
        exact (upload_fresh hok ht hloc).1
  · intro l b hb
    change w'.objects l = some b at hb
    change ∃ u ∈ w'.uploads, _
    rcases hups with ⟨hu, ho⟩ | ⟨url, bytes, l', rfl, -, hu, ho⟩
    · rw [hu]; exact hok.objects l b (by rwa [← ho])
    · have hold : s.world.objects l = some b → ∃ u ∈ w'.uploads, u.location = l ∧ u.bytes = b := by
        intro hb
        obtain ⟨u, hu', hrest⟩ := hok.objects l b hb
        exact ⟨u, by rw [hu]; exact List.mem_append_left _ hu', hrest⟩
      rcases ho with ho | ho
      · exact hold (by rwa [← ho])
      · rw [ho] at hb
        rcases land_objects hb with hb | hb
        · exact hold hb
        · exact ⟨_, by rw [hu]; simp, hb⟩
  · intro h' o' c hc
    rcases answers_caches ha hc with hc | ⟨rfl, rfl⟩
    · exact (hok.caches h' o' c hc).mono hl
    · exact (cachedOk_of_store hphase hallow).mono hl
  · intro j hj
    change w'.calls j = none at hj
    rw [hout.calls] at hj
    have hjt : j ≠ t := by
      rintro rfl
      rw [hcalls] at hj
      cases hj
    obtain ⟨hturn, hans, htr, hup⟩ := hok.unused j hj
    refine ⟨by simp only [ClusterState.answered, Function.update_of_ne hjt, hturn], ?_, ?_, ?_⟩
    · change w'.answers j = none
      rw [hout.answers, hans]
    · exact (htrace j hjt).trans htr
    · intro u hu
      change u ∈ w'.uploads at hu
      rcases hups with ⟨hu', -⟩ | ⟨url, bytes, l, -, -, hu', -⟩
      · exact hup u (by rwa [← hu'])
      · rw [hu'] at hu
        rcases List.mem_append.mp hu with hu | hu
        · exact hup u hu
        · rw [List.mem_singleton.mp hu]; exact hjt.symm
  · intro j h' call' hj
    change w'.calls j = _ at hj
    rw [hout.calls] at hj
    obtain ⟨hepoch, placement, hm, hrest⟩ := hok.capable j h' call' hj
    refine ⟨hepoch, placement, ?_, hrest⟩
    change placement ∈ w'.observed
    rwa [hout.observed]
  · intro j h' call' p hj
    change w'.calls j = _ ∧ w'.answers j = none ∧ _
    rw [hout.calls, hout.answers]
    by_cases heq : j = t
    · subst heq
      simp only [ClusterState.answered, Function.update_self, Option.some.injEq, Prod.mk.injEq] at hj
      obtain ⟨⟨rfl, rfl⟩, rfl⟩ := hj
      refine ⟨hcalls, hnone, ?_⟩
      simp only [ClusterState.answered]
      rw [hphase']
      exact hwp.2 r _ rfl
    · simp only [ClusterState.answered, Function.update_of_ne heq] at hj
      obtain ⟨hc, hn, hw⟩ := hok.turns j h' call' p hj
      refine ⟨hc, hn, ?_⟩
      simp only [ClusterState.answered, World.phase, htrace j heq]
      exact hw
  · intro j h' call' hk hj
    change w'.calls j = _ at hj
    rw [hout.calls] at hj
    by_cases heq : j = t
    · subst heq
      cases hcalls.symm.trans hj
      simp only [ClusterState.answered]
      refine ⟨?_, fun hcl => ?_⟩
      · rw [hphase']
        exact phaseOk_call hok ht ha
      · rw [hphase'] at hcl
        obtain ⟨hold, hw⟩ := clean_next hallow hcl
        change ∀ u ∈ w'.uploads, _
        rcases hups with ⟨hu, -⟩ | ⟨url, bytes, l, rfl, -, -, -⟩
        · rw [hu]; exact hclean hold
        · cases hw
    · have hk' : s.Kept j := by
        simpa [ClusterState.Kept, ClusterState.answered, heq, World.log, hout.answers] using hk
      obtain ⟨hph, hcl⟩ := hok.phases j h' call' hk' hj
      simp only [ClusterState.answered, World.phase, htrace j heq]
      refine ⟨hph.mono hl (by rw [htrace j heq]), fun hcl' u hu => ?_⟩
      change u ∈ w'.uploads at hu
      rcases hups with ⟨hu', -⟩ | ⟨url, bytes, l, -, -, hu', -⟩
      · exact hcl hcl' u (by rwa [← hu'])
      · rw [hu'] at hu
        rcases List.mem_append.mp hu with hu | hu
        · exact hcl hcl' u hu
        · rw [List.mem_singleton.mp hu]
          exact fun h => heq h.symm
  · intro j h' call' a hj ha'
    change w'.calls j = _ at hj
    change w'.answers j = _ at ha'
    rw [hout.calls] at hj
    rw [hout.answers] at ha'
    have hjt : j ≠ t := by
      rintro rfl
      rw [hnone] at ha'
      cases ha'
    simp only [ClusterState.answered, World.phase, htrace j hjt]
    exact hok.returned j h' call' a hj ha'

end Call

theorem clusterOk_step {s s' : ClusterState} {e : ClusterEvent} (hok : ClusterOk D s)
    (h : ClusterStep D s e s') :
    ClusterOk D s' := by
  cases h with
  | observe hrow => exact clusterOk_observe hok hrow
  | arrive hfree hcap => exact clusterOk_arrive hok hfree hcap
  | call ht ha => exact clusterOk_call hok ht ha
  | send ht hq => exact clusterOk_send hok ht hq
  | store hs hsent => exact clusterOk_store hok hs hsent
  | land hu => exact clusterOk_land hok hu
  | finish ht => exact clusterOk_finish hok ht
  | drop _ => exact clusterOk_drop hok _ _
  | restart sessionId _ => exact clusterOk_restart hok _ sessionId

theorem clusterOk_reachable {s : ClusterState} (h : (clusterSystem D).Reachable s) : ClusterOk D s :=
  h.invariant (I := ClusterOk D) clusterOk_init clusterOk_step

/-! ### Steps, seen from one turn -/

/-- A step answers a call of turn `t` or leaves its trace alone. -/
theorem trace_step {s s' : ClusterState} {e : ClusterEvent} (hs : ClusterStep D s e s') (t : ℕ) :
    s'.world.trace t = s.world.trace t ∨
    ∃ h call op next r w, s.turns t = some ((h, call), .call op next) ∧ Answers D t h s.world op r w ∧
      s' = s.answered t h call op r next w := by
  cases hs with
  | @call j h call op next r w ht ha =>
    by_cases hj : t = j
    · subst hj
      exact .inr ⟨h, call, op, next, r, w, ht, ha, rfl⟩
    · refine .inl ?_
      rw [log_trace_ne _ _ hj, (answers_outside ha).trace]
  | finish _ =>
    obtain ⟨gates, hg⟩ := release_eq s.world _ _ _
    exact .inl (by rw [hg])
  | drop _ =>
    obtain ⟨gates, hg⟩ := release_eq s.world _ _ _
    exact .inl (by rw [hg])
  | _ => exact .inl rfl

/-- Nothing that is known is lost in a step. -/
theorem later_step {s s' : ClusterState} {e : ClusterEvent} (hok : ClusterOk D s)
    (hs : ClusterStep D s e s') : Later s.world s'.world := by
  have hsame := Later.refl s.world
  cases hs with
  | observe _ => exact ⟨hsame.heads, hsame.region, hsame.objects, hsame.uploads, hsame.calls, hsame.ran⟩
  | @arrive t' _ _ hfree _ =>
    refine ⟨hsame.heads, hsame.region, hsame.objects, hsame.uploads, fun j c hj => ?_, hsame.ran⟩
    have hne : j ≠ t' := by
      rintro rfl
      rw [hfree] at hj
      cases hj
    exact (Function.update_of_ne hne _ _).trans hj
  | call ht ha =>
    obtain ⟨hc, -, hwp⟩ := hok.turns _ _ _ _ ht
    exact later_call ha (first_execution (hok.phases _ _ _ (.inl (by rw [ht]; simp)) hc).1 hwp.1)
  | send _ _ => exact ⟨hsame.heads, hsame.region, hsame.objects, hsame.uploads, hsame.calls, hsame.ran⟩
  | store hst _ => exact later_store hst _
  | land _ => exact later_land _ _
  | finish _ =>
    obtain ⟨gates, hg⟩ := release_eq s.world _ _ _
    rw [hg]
    exact ⟨hsame.heads, hsame.region, hsame.objects, hsame.uploads, hsame.calls, hsame.ran⟩
  | drop _ =>
    obtain ⟨gates, hg⟩ := release_eq s.world _ _ _
    rw [hg]
    exact ⟨hsame.heads, hsame.region, hsame.objects, hsame.uploads, hsame.calls, hsame.ran⟩
  | restart _ _ => exact ⟨hsame.heads, hsame.region, hsame.objects, hsame.uploads, hsame.calls, hsame.ran⟩

theorem Later.trans {a b c : World} (h₁ : Later a b) (h₂ : Later b c) : Later a c := by
  refine ⟨fun o => (h₁.heads o).trans (h₂.heads o), fun o r hr => h₂.region o r (h₁.region o r hr),
    fun l b hb => h₂.objects l b (h₁.objects l b hb), fun u hu => h₂.uploads (h₁.uploads hu),
    fun t c hc => h₂.calls t c (h₁.calls t c hc), fun t ht => ?_⟩
  have hran := h₁.ran t ht
  rw [← hran] at ht ⊢
  exact h₂.ran t ht

theorem later_path {s s' : ClusterState} {evs : List ClusterEvent}
    (hs : (clusterSystem D).Reachable s) (hp : (clusterSystem D).Path s evs s') :
    Later s.world s'.world := by
  induction hp with
  | nil => exact .refl _
  | snoc hp hstep ih => exact ih.trans (later_step (clusterOk_reachable (hs.path hp)) hstep)

/-- The calls of a state are the old ones and the one that arrives. -/
theorem calls_step {s s' : ClusterState} {e : ClusterEvent} {t : ℕ} {h : HostId} {call : HostCall}
    (hs : ClusterStep D s e s') (hc : s'.world.calls t = some (h, call)) :
    s.world.calls t = some (h, call) ∨ e = .arrive t h call := by
  cases hs with
  | arrive _ _ =>
    rename_i t' h' call' _ _
    by_cases ht : t = t'
    · subst ht
      simp only [Function.update_self, Option.some.injEq, Prod.mk.injEq] at hc
      obtain ⟨rfl, rfl⟩ := hc
      exact .inr rfl
    · exact .inl (by simpa [ht] using hc)
  | call _ ha =>
    refine .inl ?_
    rw [← (answers_outside ha).calls]
    exact hc
  | finish _ =>
    obtain ⟨gates, hg⟩ := release_eq s.world _ _ _
    rw [hg] at hc
    exact .inl hc
  | drop _ =>
    obtain ⟨gates, hg⟩ := release_eq s.world _ _ _
    rw [hg] at hc
    exact .inl hc
  | _ => exact .inl hc

/-! ### What a head holds -/

/-- The object of a head holds what was produced for a commit that was sent. -/
theorem IsHead.produced {snapshot : StateSnapshot} {s : ClusterState} (hok : ClusterOk D s)
    (hh : IsHead D s.world o snapshot) :
    ∃ q ∈ s.world.sent, q.object = o ∧ q.head ∈ s.world.heads q.object ∧ ∃ region name bytes written t,
      s.world.region o = some region ∧ ⟨snapshot.stateVersion, some name, some snapshot.requestId⟩ ∈
        s.world.heads o ∧
      s.world.objects ⟨region, name⟩ = some bytes ∧ written.encode = .ok bytes ∧
      written.stateVersion = q.expectedVersion + 1 ∧ written.ownerEpoch = q.ownerEpoch ∧
      Produced D s.world q.owner o q.stateObject written t ∧
      (snapshot = written ∨ StateSnapshot.decode D.serde bytes = .ok snapshot) := by
  obtain ⟨region, name, bytes, hr, hm, hobj, hd⟩ := hh
  obtain ⟨q, hq, rfl, heq⟩ := hok.heads o _ hm
  obtain ⟨written, t, hv, -, he, hp⟩ := hok.sent q hq
  obtain ⟨region', bytes', hr', henc, -, hobj'⟩ := hp.stored
  cases hr.symm.trans hr'
  have hname : q.stateObject = name := by
    rw [StateCommitRequest.head, Head.mk.injEq] at heq
    exact Option.some.inj heq.2.1
  rw [hname] at hobj'
  cases hobj.symm.trans hobj'
  exact ⟨q, hq, rfl, heq ▸ hm, region, name, bytes, written, t, hr, hm, hobj, henc, hv, he, hp,
    hd.imp_left fun henc' => StateSnapshot.encode_injective henc' henc⟩

/-- A head is one of the commits that were sent. -/
theorem IsHead.sent {snapshot : StateSnapshot} {s : ClusterState} (hok : ClusterOk D s)
    (hh : IsHead D s.world o snapshot) :
    ∃ q ∈ s.world.sent, q.object = o ∧ q.head ∈ s.world.heads q.object ∧ q.ownerEpoch = snapshot.ownerEpoch ∧
      q.expectedVersion + 1 = snapshot.stateVersion := by
  obtain ⟨q, hq, hqo, hqh, region, name, bytes, written, t, -, -, -, henc, hv, he, hp, heq⟩ := hh.produced hok
  refine ⟨q, hq, hqo, hqh, ?_⟩
  rcases heq with rfl | hd
  · exact ⟨he.symm, hv.symm⟩
  · obtain ⟨hversion, hepoch, -, -, -⟩ := StateSnapshot.decode_of_encode hp.sound henc hd
    exact ⟨(hepoch.trans he).symm, (hversion.trans hv).symm⟩

/-- Where `serde_json` reads back what the executor answers, a head decodes to what was encoded. -/
theorem IsHead.decodes {snapshot : StateSnapshot} {s : ClusterState} (hok : ClusterOk D s)
    (hread : D.ReadsBack) (hh : IsHead D s.world o snapshot) : HeadDecodes D s.world o snapshot := by
  obtain ⟨q, -, -, -, region, name, bytes, written, t, hr, hm, hobj, henc, -, -, hp, heq⟩ := hh.produced hok
  refine ⟨region, name, bytes, hr, hm, hobj, ?_⟩
  rcases heq with rfl | hd
  · exact StateSnapshot.decode_encode hp.sound (hp.readsBack hread) henc
  · exact hd

theorem StateAt.decodes {v : ℕ} {state : Option Value} {s : ClusterState} (hok : ClusterOk D s)
    (hread : D.ReadsBack) (hat : StateAt D s.world o v state) : HeadDecodesAt D s.world o v state := by
  rcases hat with hnone | ⟨snapshot, hh, hrest⟩
  · exact .inl hnone
  · exact .inr ⟨snapshot, hh.decodes hok hread, hrest⟩

end LDO
