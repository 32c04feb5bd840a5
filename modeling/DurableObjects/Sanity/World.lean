import DurableObjects.Sanity.Known

/-! The steps in which no turn makes a call: rows are read, requests travel, the store
runs statements, uploads land, turns arrive and end, hosts restart. -/

namespace LDO

open Prog

variable {D : Deployment} {w w' : World} {o : ActorStorageKey}

theorem clusterOk_init {s : ClusterState} (h : (clusterSystem D).init s) : ClusterOk D s := by
  obtain ⟨sessions, rfl⟩ := h
  refine ⟨⟨headsOk_empty, nofun⟩, nofun, nofun, nofun, nofun, nofun, List.nodup_nil, nofun, nofun,
    ⟨fun _ => none, ?_, nofun⟩, nofun, ?_, nofun, nofun, ?_, nofun⟩
  · intro x o k hk
    cases hk with
    | cache hc _ => cases hc
    | turn ht _ => cases ht
  · exact fun t _ => ⟨rfl, rfl, rfl, nofun⟩
  · rintro t h call (hk | hk) _
    · exact absurd rfl hk
    · exact absurd rfl hk

theorem Later.refl (w : World) : Later w w :=
  ⟨fun _ => List.prefix_refl _, fun _ _ => id, fun _ _ => id, fun _ => id, fun _ _ => id, fun _ _ => rfl⟩

/-- Moves of the world, of stopping turns and of emptied caches: nothing is uploaded,
and no turn makes a call. -/
theorem ClusterOk.frame {s : ClusterState} (hok : ClusterOk D s) (s' : ClusterState)
    (hl : Later s.world s'.world) (htrace : s'.world.trace = s.world.trace)
    (hcalls : s'.world.calls = s.world.calls) (hissued : s'.world.issued = s.world.issued)
    (huploads : s'.world.uploads = s.world.uploads)
    (hcaches : ∀ h o c, s'.world.caches h o = some c → s.world.caches h o = some c)
    (hturns : ∀ t x, s'.turns t = some x → s.turns t = some x ∧ s'.world.answers t = s.world.answers t)
    (hanswers : ∀ t a, s'.world.answers t = some a → s.world.answers t = some a ∨
      ∃ tag, s.turns t = some (tag, .ret a))
    (hstore : StoreOk s'.world.store)
    (harriving : ∀ i q p, s'.world.store.calls i = some (.commitState q, p) → q ∈ s'.world.sent)
    (hheads : ∀ o head, head ∈ s'.world.heads o → ∃ q ∈ s'.world.sent, q.object = o ∧ q.head = head)
    (hsent : ∀ q ∈ s'.world.sent, q ∈ s.world.sent ∨ Justified D s.world q)
    (hcommitted : ∀ q placement, (q, placement) ∈ s'.world.committed →
      q.head ∈ s'.world.heads q.object ∧ s'.world.region q.object = some placement.homeRegion)
    (hobserved : ∀ placement ∈ s'.world.observed, Observed s'.world placement)
    (hcapable : s.world.observed ⊆ s'.world.observed)
    (hobjects : ∀ l b, s'.world.objects l = some b → ∃ u ∈ s.world.uploads, u.location = l ∧ u.bytes = b) :
    ClusterOk D s' := by
  have hphase : ∀ t h call, s'.world.phase D t h call = s.world.phase D t h call := by
    intro t h call
    simp only [World.phase, htrace]
  have hheld : ∀ x o k, Held D s' x o k → Held D s x o k := by
    intro x o k hk
    cases hk with
    | cache hc hn => exact .cache (hcaches _ _ _ hc) hn
    | turn ht hn => exact .turn (hturns _ _ ht).1 (by rwa [← hphase])
  have hkept : ∀ t, s'.Kept t → s.Kept t := by
    rintro t (hk | hk)
    · obtain ⟨x, hx⟩ := Option.ne_none_iff_exists'.mp hk
      exact .inl (by rw [(hturns t x hx).1]; simp)
    · obtain ⟨a, ha⟩ := Option.ne_none_iff_exists'.mp hk
      rcases hanswers t a ha with h | ⟨tag, h⟩
      · exact .inr (by rw [h]; simp)
      · exact .inl (by rw [h]; simp)
  refine ⟨hstore, harriving, hheads, ?_, hcommitted, hobserved, ?_, ?_, ?_, ?_, ?_, ?_, ?_, ?_, ?_, ?_⟩
  · intro q hq
    rcases hsent q hq with h | h
    · exact (hok.sent q h).mono hl
    · exact h.mono hl
  · rw [huploads]; exact hok.uploads
  · rw [huploads, hissued]; exact hok.uploaded
  · rw [huploads]; exact hobjects
  · obtain ⟨holder, ht⟩ := hok.tickets
    refine ⟨holder, fun x o k hk => ?_, ?_⟩
    · obtain ⟨hx, region, hr, hloc⟩ := ht.held x o k (hheld x o k hk)
      exact ⟨hx, region, hl.region _ _ hr, hloc⟩
    · rw [hissued, huploads]; exact ht.unused
  · exact fun h o c hc => (hok.caches h o c (hcaches h o c hc)).mono hl
  · intro t ht
    rw [hcalls] at ht
    obtain ⟨hturn, hans, htr, hup⟩ := hok.unused t ht
    rw [htrace, huploads]
    refine ⟨?_, ?_, htr, hup⟩
    · rw [Option.eq_none_iff_forall_not_mem]
      intro x hx
      rw [(hturns t x hx).1] at hturn
      cases hturn
    · rw [Option.eq_none_iff_forall_not_mem]
      intro a ha
      rcases hanswers t a ha with h | ⟨tag, h⟩
      · rw [h] at hans; cases hans
      · rw [h] at hturn; cases hturn
  · intro t h call hc
    rw [hcalls] at hc
    obtain ⟨hepoch, placement, hm, hrest⟩ := hok.capable t h call hc
    exact ⟨hepoch, placement, hcapable hm, hrest⟩
  · intro t h call p hp
    obtain ⟨hp, hans⟩ := hturns t _ hp
    rw [hcalls, hans, hphase]
    exact hok.turns t h call p hp
  · intro t h call hk hc
    rw [hcalls] at hc
    rw [hphase, huploads]
    obtain ⟨hph, hclean⟩ := hok.phases t h call (hkept t hk) hc
    exact ⟨hph.mono hl (by rw [htrace]), hclean⟩
  · intro t h call a hc ha
    rw [hcalls] at hc
    rw [hphase]
    rcases hanswers t a ha with hold | ⟨⟨h', call'⟩, hret⟩
    · exact hok.returned t h call a hc hold
    · obtain ⟨hc', -, hwp⟩ := hok.turns t h' call' _ hret
      cases hc.symm.trans hc'
      exact hwp

theorem region_of_grows {st st' : Store} (hg : Grows st st') {o : ActorStorageKey} {r : String}
    (h : (st.db.placements o).map (·.homeRegion) = some r) :
    (st'.db.placements o).map (·.homeRegion) = some r := by
  obtain ⟨row, hrow, rfl⟩ := Option.map_eq_some_iff.mp h
  obtain ⟨row', hrow', hregion, -⟩ := hg.rows o row hrow
  rw [hrow', Option.map_some, hregion]

theorem Observed.grows {placement : ObjectPlacement} (h : Observed w placement)
    (hg : Grows w.store.store w'.store.store) : Observed w' placement := by
  refine ⟨region_of_grows hg h.1, h.2.imp id fun hm => ?_⟩
  exact (hg.heads _).subset hm

/-- What a step of the store does to one row and its history. -/
theorem row_step {st st' : StoreState} {e : StoreEvent} (hok : StoreOk st) (h : StoreStep st e st')
    (o : ActorStorageKey) :
    st'.store.heads o = st.store.heads o ∧
        (∀ row, st.store.db.placements o = some row → ∃ row', st'.store.db.placements o = some row' ∧
          (row'.ownerEpoch = row.ownerEpoch ∧ row'.ownerHostId = row.ownerHostId ∨
            row.ownerEpoch < row'.ownerEpoch)) ∨
      ∃ i q p row row', st.calls i = some (.commitState q, p) ∧ q.object = o ∧
        st'.store.heads o = st.store.heads o ++ [q.head] ∧ st.store.db.placements o = some row ∧
        st'.store.db.placements o = some row' ∧ row.ownerEpoch = q.ownerEpoch ∧ row.ownerHostId = q.owner ∧
        row'.ownerEpoch = row.ownerEpoch ∧ row'.ownerHostId = row.ownerHostId := by
  cases h with
  | arrive call _ => exact .inl ⟨rfl, fun row hr => ⟨row, hr, .inl ⟨rfl, rfl⟩⟩⟩
  | answer _ => exact .inl ⟨rfl, fun row hr => ⟨row, hr, .inl ⟨rfl, rfl⟩⟩⟩
  | drop i => exact .inl ⟨rfl, fun row hr => ⟨row, hr, .inl ⟨rfl, rfl⟩⟩⟩
  | tick _ => exact .inl ⟨recordHead_same _ _, fun row hr => ⟨row, hr, .inl ⟨rfl, rfl⟩⟩⟩
  | statement hi hans =>
    have ho := rowStep_of_answers hans o
    simp only [Store.write]
    generalize st.store.db.placements o = old at ho ⊢
    generalize Database.placements _ o = new at ho ⊢
    cases ho with
    | same => exact .inl ⟨recordHead_same _ _, fun row hr => ⟨row, hr, .inl ⟨rfl, rfl⟩⟩⟩
    | insert => exact .inl ⟨by simp [recordHead], by simp⟩
    | claim =>
      refine .inl ⟨recordHead_claim _ _ _ _, ?_⟩
      rintro _ ⟨rfl⟩
      exact ⟨_, rfl, .inr (Nat.lt_succ_self _)⟩
    | commit hsql hobj hm =>
      rename_i row request
      have hcall := (hok.calls _ _ _ hi).1 request hsql
      subst hcall
      refine .inr ⟨_, request, _, row, _, hi, hobj, ?_, rfl, rfl, hm.2.1, hm.1, rfl, rfl⟩
      rw [recordHead_commit, StateCommitRequest.head, hm.2.2.1]

/-- A step of the store records at most one head, from a commit call in progress. -/
theorem heads_step {s s' : StoreState} {e : StoreEvent} (hok : StoreOk s) (h : StoreStep s e s')
    (o : ActorStorageKey) : s'.store.heads o = s.store.heads o ∨ ∃ i q p, s.calls i = some (.commitState q, p) ∧
      q.object = o ∧ s'.store.heads o = s.store.heads o ++ [q.head] := by
  rcases row_step hok h o with ⟨heq, -⟩ | ⟨i, q, p, -, -, hi, ho, heq, -⟩
  · exact .inl heq
  · exact .inr ⟨i, q, p, hi, ho, heq⟩

theorem clusterOk_observe {s : ClusterState} {object : ActorStorageKey} {row : PlacementRow}
    (hok : ClusterOk D s) (hrow : s.world.row object = some row) :
    ClusterOk D { s with world := { s.world with
      observed := s.world.observed ++ [placementFromRow object row] } } := by
  refine hok.frame ({ s with world := { s.world with
    observed := s.world.observed ++ [placementFromRow object row] } })
    ⟨fun _ => List.prefix_refl _, fun _ _ => id, fun _ _ => id, fun _ => id, fun _ _ => id, fun _ _ => rfl⟩
    rfl rfl rfl rfl (fun _ _ _ => id) (fun _ _ h => ⟨h, rfl⟩) (fun _ _ => .inl) hok.store hok.arriving hok.heads
    (fun _ => .inl) hok.committed ?_ (List.subset_append_left _ _) hok.objects
  intro placement hm
  rcases List.mem_append.mp hm with hm | hm
  · exact hok.observed placement hm
  · rw [List.mem_singleton.mp hm]
    refine ⟨?_, ?_⟩
    · change Option.map _ (s.world.row object) = _
      rw [hrow]
      rfl
    · rcases Nat.eq_zero_or_pos row.stateVersion with h0 | hpos
      · exact .inl h0
      · exact .inr (hok.store.heads.head_mem hrow hpos)

theorem later_store {s : ClusterState} {e : StoreEvent} {store : StoreState}
    (h : StoreStep s.world.store e store) (committed : List (StateCommitRequest × ObjectPlacement)) :
    Later s.world { s.world with store := store, committed := committed } :=
  ⟨(grows_step h).heads, fun _ _ => region_of_grows (grows_step h), fun _ _ => id, fun _ => id,
    fun _ _ => id, fun _ _ => rfl⟩

theorem clusterOk_store {s : ClusterState} {e : StoreEvent} {store : StoreState} (hok : ClusterOk D s)
    (h : StoreStep s.world.store e store)
    (hsent : ∀ i request, e = .arrive i (.commitState request) → request ∈ s.world.sent) :
    ClusterOk D { s with world := { s.world with
      store := store, committed := s.world.committed ++ e.confirmed } } := by
  have hl := later_store h (s.world.committed ++ e.confirmed)
  refine hok.frame ({ s with world := { s.world with
    store := store, committed := s.world.committed ++ e.confirmed } }) hl rfl rfl rfl rfl (fun _ _ _ => id)
    (fun _ _ h => ⟨h, rfl⟩) (fun _ _ => .inl) (storeOk_step hok.store h) ?_ ?_ (fun _ => .inl) ?_ ?_
    (fun _ => id) hok.objects
  · -- calls in progress keep their request
    intro i q p hi
    have hcalls := hok.arriving
    cases h with
    | arrive call hfree =>
      rename_i j
      by_cases hj : i = j
      · subst hj
        simp only [Function.update_self, Option.some.injEq, Prod.mk.injEq] at hi
        exact hsent i q (by rw [hi.1])
      · exact hcalls i q p (by simpa [hj] using hi)
    | statement hi' hans =>
      rename_i j _ _ _ _ _
      by_cases hj : i = j
      · subst hj
        simp only [Function.update_self, Option.some.injEq, Prod.mk.injEq] at hi
        rw [hi.1] at hi'
        exact hcalls i q _ hi'
      · exact hcalls i q p (by simpa [hj] using hi)
    | answer hi' =>
      rename_i j _ _
      by_cases hj : i = j
      · subst hj; simp at hi
      · exact hcalls i q p (by simpa [hj] using hi)
    | drop j =>
      by_cases hj : i = j
      · subst hj; simp at hi
      · exact hcalls i q p (by simpa [hj] using hi)
    | tick _ => exact hcalls i q p hi
  · intro o head hm
    rcases heads_step hok.store h o with heq | ⟨i, q, p, hi, hobj, heq⟩
    · exact hok.heads o head (by rwa [World.heads, ← heq])
    · change head ∈ store.store.heads o at hm
      rw [heq] at hm
      rcases List.mem_append.mp hm with hm | hm
      · exact hok.heads o head hm
      · exact ⟨q, hok.arriving i q p hi, hobj, (List.mem_singleton.mp hm).symm⟩
  · intro q placement hm
    rcases List.mem_append.mp hm with hold | hnew
    · obtain ⟨hh, hr⟩ := hok.committed q placement hold
      exact ⟨(hl.heads _).subset hh, hl.region _ _ hr⟩
    · -- the answer was true when it was given
      have hans : ∀ {i call answer}, s.world.store.calls i = some (call, .ret answer) →
          (q, placement) ∈ (StoreEvent.answer i call answer).confirmed →
          q.head ∈ s.world.heads q.object ∧ s.world.region q.object = some placement.homeRegion := by
        intro i call answer hi hm
        have hans := hok.store.calls i call (.ret answer) hi
        unfold StoreEvent.confirmed at hm
        split at hm
        · rename_i heq
          cases heq
          cases List.mem_singleton.mp hm
          obtain ⟨hh, row, hrow, hregion⟩ := hans q placement rfl rfl
          refine ⟨hh, ?_⟩
          simp only [World.region, World.row, hrow, Option.map_some, hregion]
        · cases hm
      cases h with
      | answer hi =>
        obtain ⟨hh, hr⟩ := hans hi hnew
        exact ⟨(hl.heads _).subset hh, hl.region _ _ hr⟩
      | arrive => cases hnew
      | statement => cases hnew
      | drop => cases hnew
      | tick => cases hnew
  · exact fun placement hm => (hok.observed placement hm).grows (grows_step h)

theorem executionOp_isExecution (request : ActorRequest) (state : Option Value) :
    (request.executionOp state).isExecution = true := by
  cases request <;> rfl

theorem commitRequest_executionOp (sessionId : String) (request : ActorRequest) (state : Option Value) :
    commitRequest sessionId (request.executionOp state) = none := by
  cases request <;> rfl

/-- The commit of a phase is for a snapshot on top of the state it holds. -/
theorem justified_of_allows {t : ℕ} {h : HostId} {call : HostCall} {phase : Phase} {op : HostOp}
    {sessionId : String} {q : StateCommitRequest} (hphase : PhaseOk D w t h call phase)
    (hop : Phase.Allows (D.host h) call phase op) (hq : commitRequest sessionId op = some q) :
    Justified D w q := by
  cases hop with
  | settle hp hc =>
    rw [Phase.Commits, D.host_id] at hc
    subst hc
    cases hq
    obtain ⟨-, -, hcached⟩ := hphase
    obtain ⟨hv, he, t', hprod⟩ := hcached.pending _ hp
    exact ⟨_, t', hv, rfl, he, hprod⟩
  | commit hc =>
    rw [Phase.Commits, D.host_id] at hc
    subst hc
    cases hq
    obtain ⟨hran, hs, hprod, -⟩ := hphase
    exact ⟨_, t, by rw [hs]; rfl, rfl, by rw [hs]; exact hran.epoch.symm, hprod⟩
  | execute => rw [commitRequest_executionOp] at hq; cases hq
  | _ => cases hq

theorem clusterOk_send {s : ClusterState} {t : ℕ} {h : HostId} {call : HostCall} {op : HostOp}
    {next : op.Res → HostM TurnAnswer} {q : StateCommitRequest} (hok : ClusterOk D s)
    (ht : s.turns t = some ((h, call), .call op next)) (hq : commitRequest (s.world.sessions h) op = some q) :
    ClusterOk D { s with world := { s.world with sent := s.world.sent ++ [q] } } := by
  obtain ⟨hc, -, hwp⟩ := hok.turns t h call _ ht
  have hphase := (hok.phases t h call (.inl (by rw [ht]; simp)) hc).1
  refine hok.frame ({ s with world := { s.world with sent := s.world.sent ++ [q] } })
    ⟨fun _ => List.prefix_refl _, fun _ _ => id, fun _ _ => id, fun _ => id, fun _ _ => id, fun _ _ => rfl⟩
    rfl rfl rfl rfl (fun _ _ _ => id) (fun _ _ h => ⟨h, rfl⟩) (fun _ _ => .inl) hok.store ?_ ?_ ?_ hok.committed
    hok.observed (fun _ => id) hok.objects
  · exact fun i q' p hi => List.mem_append_left _ (hok.arriving i q' p hi)
  · intro o head hm
    obtain ⟨q', hq', hrest⟩ := hok.heads o head hm
    exact ⟨q', List.mem_append_left _ hq', hrest⟩
  · intro q' hm
    rcases List.mem_append.mp hm with hm | hm
    · exact .inl hm
    · rw [List.mem_singleton.mp hm]
      exact .inr (justified_of_allows hphase hwp.1 hq)

theorem land_objects {u : Upload} {l : Location} {b : ByteArray} (h : (w.land u).objects l = some b) :
    w.objects l = some b ∨ u.location = l ∧ u.bytes = b := by
  simp only [World.land, Function.update_apply] at h
  split_ifs at h with hl
  · cases ho : w.objects u.location with
    | none =>
      rw [ho] at h
      exact .inr ⟨hl.symm, by simpa using h⟩
    | some b' =>
      rw [ho] at h
      refine .inl ?_
      rw [hl, ho]
      simpa using h
  · exact .inl h

theorem later_land (w : World) (u : Upload) : Later w (w.land u) := by
  refine ⟨fun _ => List.prefix_refl _, fun _ _ => id, ?_, fun _ => id, fun _ _ => id, fun _ _ => rfl⟩
  intro l b hb
  simp only [World.land, Function.update_apply]
  split_ifs with hl
  · rw [← hl, hb]; rfl
  · exact hb

theorem clusterOk_land {s : ClusterState} {u : Upload} (hok : ClusterOk D s) (hu : u ∈ s.world.uploads) :
    ClusterOk D { s with world := s.world.land u } := by
  refine hok.frame ({ s with world := s.world.land u }) (later_land _ _) rfl rfl rfl rfl (fun _ _ _ => id)
    (fun _ _ h => ⟨h, rfl⟩) (fun _ _ => .inl) hok.store hok.arriving hok.heads (fun _ => .inl) hok.committed
    hok.observed (fun _ => id) ?_
  intro l b hb
  rcases land_objects hb with h | ⟨hl, hb⟩
  · exact hok.objects l b h
  · exact ⟨u, hu, hl, hb⟩

theorem release_eq (w : World) (h : HostId) (o : ActorStorageKey) (t : ℕ) :
    ∃ gates, w.release h o t = { w with gates := gates } := by
  unfold World.release
  split_ifs
  · exact ⟨_, rfl⟩
  · exact ⟨w.gates, rfl⟩

theorem update_none_eq_some {ι α : Type} [DecidableEq ι] {f : ι → Option α} {i j : ι} {a : α}
    (h : Function.update f i none j = some a) : f j = some a ∧ j ≠ i := by
  by_cases hj : j = i
  · subst hj; simp at h
  · exact ⟨by simpa [hj] using h, hj⟩

theorem clusterOk_finish {s : ClusterState} {t : ℕ} {h : HostId} {call : HostCall} {answer : TurnAnswer}
    (hok : ClusterOk D s) (ht : s.turns t = some ((h, call), .ret answer)) :
    ClusterOk D ⟨{ s.world.release h call.request.object t with
      answers := Function.update s.world.answers t (some answer) }, Function.update s.turns t none⟩ := by
  obtain ⟨gates, hg⟩ := release_eq s.world h call.request.object t
  rw [hg]
  refine hok.frame (⟨{ s.world with
      gates := gates, answers := Function.update s.world.answers t (some answer) }, Function.update s.turns t none⟩)
    ⟨fun _ => List.prefix_refl _, fun _ _ => id, fun _ _ => id, fun _ => id, fun _ _ => id, fun _ _ => rfl⟩
    rfl rfl rfl rfl (fun _ _ _ => id) ?_ ?_ hok.store hok.arriving hok.heads (fun _ => .inl) hok.committed
    hok.observed (fun _ => id) hok.objects
  · intro j x hx
    obtain ⟨hx, hj⟩ := update_none_eq_some hx
    exact ⟨hx, by simp [hj]⟩
  · intro j a ha
    by_cases hj : j = t
    · subst hj
      simp only [Function.update_self, Option.some.injEq] at ha
      exact .inr ⟨_, by rw [ht, ha]⟩
    · exact .inl (by simpa [hj] using ha)

theorem clusterOk_drop {s : ClusterState} {t : ℕ} (hok : ClusterOk D s) (h : HostId) (o : ActorStorageKey) :
    ClusterOk D ⟨s.world.release h o t, Function.update s.turns t none⟩ := by
  obtain ⟨gates, hg⟩ := release_eq s.world h o t
  rw [hg]
  refine hok.frame (⟨{ s.world with gates := gates }, Function.update s.turns t none⟩)
    ⟨fun _ => List.prefix_refl _, fun _ _ => id, fun _ _ => id, fun _ => id, fun _ _ => id, fun _ _ => rfl⟩
    rfl rfl rfl rfl (fun _ _ _ => id) ?_ (fun _ _ => .inl) hok.store hok.arriving hok.heads (fun _ => .inl)
    hok.committed hok.observed (fun _ => id) hok.objects
  exact fun j x hx => ⟨(update_none_eq_some hx).1, rfl⟩

theorem clusterOk_restart {s : ClusterState} (hok : ClusterOk D s) (h : HostId) (sessionId : String) :
    ClusterOk D { s with world := { s.world with
      caches := Function.update s.world.caches h fun _ => none
      sessions := Function.update s.world.sessions h sessionId } } := by
  refine hok.frame ({ s with world := { s.world with
      caches := Function.update s.world.caches h fun _ => none
      sessions := Function.update s.world.sessions h sessionId } })
    ⟨fun _ => List.prefix_refl _, fun _ _ => id, fun _ _ => id, fun _ => id, fun _ _ => id, fun _ _ => rfl⟩
    rfl rfl rfl rfl ?_ (fun _ _ h => ⟨h, rfl⟩) (fun _ _ => .inl) hok.store hok.arriving hok.heads (fun _ => .inl)
    hok.committed hok.observed (fun _ => id) hok.objects
  intro h' o c hc
  simp only [Function.update_apply] at hc
  split_ifs at hc
  exact hc

theorem clusterOk_arrive {s : ClusterState} {t : ℕ} {h : HostId} {call : HostCall} (hok : ClusterOk D s)
    (hfree : s.world.calls t = none) (hcap : Capable D s.world h call) :
    ClusterOk D ⟨{ s.world with calls := Function.update s.world.calls t (some (h, call)) },
      Function.update s.turns t (some ((h, call), call.program (D.host h)))⟩ := by
  obtain ⟨hturn, hans, htr, hup⟩ := hok.unused t hfree
  have hl : Later s.world { s.world with calls := Function.update s.world.calls t (some (h, call)) } := by
    refine ⟨fun _ => List.prefix_refl _, fun _ _ => id, fun _ _ => id, fun _ => id, ?_, fun _ _ => rfl⟩
    intro j c hc
    have hj : j ≠ t := by
      rintro rfl
      rw [hfree] at hc
      cases hc
    simpa [hj] using hc
  have hwait : s.world.phase D t h call = .waiting := by simp [World.phase, htr, Phase.after]
  refine ⟨hok.store, hok.arriving, hok.heads, fun q hq => (hok.sent q hq).mono hl, hok.committed, hok.observed,
    hok.uploads, hok.uploaded, hok.objects, ?_,
      fun h o c hc => (hok.caches h o c hc).mono hl, ?_, ?_, ?_, ?_, ?_⟩
  · obtain ⟨holder, htk⟩ := hok.tickets
    refine ⟨holder, fun x o k hk => ?_, htk.unused⟩
    cases hk with
    | cache hc hn => exact htk.held _ _ _ (.cache hc hn)
    | turn hj hn =>
      rename_i j _ _ _
      by_cases heq : j = t
      · subst heq
        simp only [Function.update_self, Option.some.injEq, Prod.mk.injEq] at hj
        obtain ⟨⟨rfl, rfl⟩, -⟩ := hj
        have hn' : (s.world.phase D j h call).ticket = some k := hn
        rw [hwait] at hn'
        cases hn'
      · exact htk.held _ _ _ (.turn (by simpa [heq] using hj) hn)
  · intro j hj
    by_cases heq : j = t
    · subst heq; simp at hj
    · simp only [Function.update_of_ne heq] at hj ⊢
      exact hok.unused j hj
  · intro j h' call' hj
    by_cases heq : j = t
    · subst heq
      simp only [Function.update_self, Option.some.injEq, Prod.mk.injEq] at hj
      obtain ⟨rfl, rfl⟩ := hj
      exact hcap
    · exact hok.capable j h' call' (by simpa [heq] using hj)
  · intro j h' call' p hj
    by_cases heq : j = t
    · subst heq
      simp only [Function.update_self, Option.some.injEq, Prod.mk.injEq] at hj
      obtain ⟨⟨rfl, rfl⟩, rfl⟩ := hj
      refine ⟨by simp, hans, ?_⟩
      change wp _ _ _ (s.world.phase D j h call)
      rw [hwait]
      exact wp_turn _ _
    · simp only [Function.update_of_ne heq] at hj ⊢
      exact hok.turns j h' call' p hj
  · intro j h' call' hk hj
    by_cases heq : j = t
    · subst heq
      simp only [Function.update_self, Option.some.injEq, Prod.mk.injEq] at hj
      obtain ⟨rfl, rfl⟩ := hj
      refine ⟨?_, fun _ => hup⟩
      change PhaseOk D _ j h call (s.world.phase D j h call)
      rw [hwait]
      exact congrArg executions htr
    · simp only [Function.update_of_ne heq] at hj
      have hk' : s.Kept j := by simpa [ClusterState.Kept, heq] using hk
      obtain ⟨hph, hclean⟩ := hok.phases j h' call' hk' hj
      exact ⟨hph.mono hl rfl, hclean⟩
  · intro j h' call' a hj ha
    by_cases heq : j = t
    · subst heq
      change s.world.answers j = _ at ha
      rw [hans] at ha
      cases ha
    · exact hok.returned j h' call' a (by simpa [heq] using hj) ha

end LDO
