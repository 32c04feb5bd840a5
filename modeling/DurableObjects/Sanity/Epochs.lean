import DurableObjects.Sanity.Cluster

/-! Epochs and versions move together. A row that was read under an epoch knows every
head of the epochs before it, and an epoch has one owner: whoever commits under it is
the host the row named. -/

namespace LDO

open Prog

variable {D : Deployment} {w w' : World} {s : ClusterState}

/-- `e` is no newer than the epoch in the row of `o`, and at that epoch `h` is its owner. -/
def World.Admits (w : World) (o : ActorStorageKey) (h : HostId) (e : ℕ) : Prop :=
  ∃ row, w.row o = some row ∧ e ≤ row.ownerEpoch ∧ (e = row.ownerEpoch → h = row.ownerHostId)

structure Fenced (w : World) : Prop where
  observed : ∀ p ∈ w.observed, w.Admits p.object p.owner p.ownerEpoch
  recorded : ∀ q ∈ w.sent, q.head ∈ w.heads q.object → w.Admits q.object q.owner q.ownerEpoch
  between : ∀ q ∈ w.sent, q.head ∈ w.heads q.object → ∀ p ∈ w.observed, p.object = q.object →
    (q.ownerEpoch < p.ownerEpoch → q.expectedVersion + 1 ≤ p.stateVersion) ∧
      (q.ownerEpoch = p.ownerEpoch → q.owner = p.owner)

/-- Requests for one object are for the same commit. -/
theorem Justified.same {q q' : StateCommitRequest} (h : Justified D w q) (h' : Justified D w q')
    (hnodup : (w.uploads.map (·.location.objectName)).Nodup) (ho : q.object = q'.object)
    (hn : q.stateObject = q'.stateObject) :
    q.owner = q'.owner ∧ q.ownerEpoch = q'.ownerEpoch ∧ q.expectedVersion = q'.expectedVersion := by
  obtain ⟨s, t, hv, -, he, hp⟩ := h
  obtain ⟨s', t', hv', -, he', hp'⟩ := h'
  rw [← ho, ← hn] at hp'
  obtain ⟨rfl, rfl⟩ := hp.unique hp' hnodup
  refine ⟨?_, he.symm.trans he', by omega⟩
  obtain ⟨_, _, _, hc, -⟩ := hp.origin
  obtain ⟨_, _, _, hc', -⟩ := hp'.origin
  exact (Prod.mk.inj (Option.some.inj (hc.symm.trans hc'))).1

theorem Justified.same_head {q q' : StateCommitRequest} (h : Justified D w q) (h' : Justified D w q')
    (hnodup : (w.uploads.map (·.location.objectName)).Nodup) (ho : q.object = q'.object)
    (hh : q.head = q'.head) :
    q.owner = q'.owner ∧ q.ownerEpoch = q'.ownerEpoch ∧ q.expectedVersion = q'.expectedVersion := by
  refine h.same h' hnodup ho ?_
  rw [StateCommitRequest.head, StateCommitRequest.head, Head.mk.injEq] at hh
  exact Option.some.inj hh.2.1

theorem fenced_same (hf : Fenced w) (hstore : w'.store.store = w.store.store)
    (hobs : w'.observed = w.observed) (hsent : w'.sent = w.sent) : Fenced w' := by
  obtain ⟨h1, h2, h3⟩ := hf
  refine ⟨?_, ?_, ?_⟩
  · rw [hobs]; simpa only [World.Admits, World.row, hstore] using h1
  · rw [hsent]; simpa only [World.Admits, World.row, World.heads, hstore] using h2
  · rw [hsent, hobs]; simpa only [World.heads, hstore] using h3

/-- A recorded version is not above the one in the row. -/
theorem HeadsOk.le_version {st : Store} (hok : HeadsOk st) {o : ActorStorageKey} {row : PlacementRow}
    {head : Head} (hrow : st.db.placements o = some row) (hm : head ∈ st.heads o) :
    head.stateVersion ≤ row.stateVersion := by
  obtain ⟨hk, hpos⟩ := hok.getElem hm
  have hlt := (List.getElem?_eq_some_iff.mp hk).1
  rw [hok.length o row hrow] at hlt
  omega

theorem fenced_observe {object : ActorStorageKey} {row : PlacementRow} (hok : ClusterOk D s)
    (hf : Fenced s.world) (hrow : s.world.row object = some row) :
    Fenced { s.world with observed := s.world.observed ++ [placementFromRow object row] } := by
  refine ⟨?_, hf.recorded, ?_⟩
  · intro p hm
    rcases List.mem_append.mp hm with hm | hm
    · exact hf.observed p hm
    · rw [List.mem_singleton.mp hm]
      exact ⟨row, hrow, le_rfl, fun _ => rfl⟩
  · intro q hq hh p hm ho
    rcases List.mem_append.mp hm with hm | hm
    · exact hf.between q hq hh p hm ho
    · rw [List.mem_singleton.mp hm] at ho ⊢
      obtain ⟨row', hrow', hle, hown⟩ := hf.recorded q hq hh
      rw [← ho] at hrow' hh
      cases hrow.symm.trans hrow'
      exact ⟨fun _ => hok.store.heads.le_version hrow hh, hown⟩

/-- A request for a recorded head repeats one that was sent before. -/
theorem recorded_before {q : StateCommitRequest} (hok : ClusterOk D s) (hq : Justified D s.world q)
    (hh : q.head ∈ s.world.heads q.object) :
    ∃ q₀ ∈ s.world.sent, q₀.object = q.object ∧ q₀.head = q.head ∧ q.owner = q₀.owner ∧
      q.ownerEpoch = q₀.ownerEpoch ∧ q.expectedVersion = q₀.expectedVersion := by
  obtain ⟨q₀, hq₀, ho, heq⟩ := hok.heads _ _ hh
  exact ⟨q₀, hq₀, ho, heq, hq.same_head (hok.sent q₀ hq₀) hok.uploads ho.symm heq.symm⟩

theorem fenced_send {q : StateCommitRequest} (hok : ClusterOk D s) (hf : Fenced s.world)
    (hq : Justified D s.world q) : Fenced { s.world with sent := s.world.sent ++ [q] } := by
  have hold : ∀ q' ∈ s.world.sent ++ [q], q'.head ∈ s.world.heads q'.object →
      ∃ q₀ ∈ s.world.sent, q₀.head ∈ s.world.heads q₀.object ∧ q₀.object = q'.object ∧ q'.owner = q₀.owner ∧
        q'.ownerEpoch = q₀.ownerEpoch ∧ q'.expectedVersion = q₀.expectedVersion := by
    intro q' hm hh
    rcases List.mem_append.mp hm with hm | hm
    · exact ⟨q', hm, hh, rfl, rfl, rfl, rfl⟩
    · rw [List.mem_singleton.mp hm] at hh ⊢
      obtain ⟨q₀, hq₀, ho, heq, hsame⟩ := recorded_before hok hq hh
      exact ⟨q₀, hq₀, by rwa [ho, heq], ho, hsame⟩
  refine ⟨hf.observed, ?_, ?_⟩
  · intro q' hm hh
    obtain ⟨q₀, hq₀, hh₀, ho, hown, hep, -⟩ := hold q' hm hh
    rw [← ho, hown, hep]
    exact hf.recorded q₀ hq₀ hh₀
  · intro q' hm hh p hp hobj
    obtain ⟨q₀, hq₀, hh₀, ho, hown, hep, hver⟩ := hold q' hm hh
    rw [hown, hep, hver]
    exact hf.between q₀ hq₀ hh₀ p hp (hobj.trans ho.symm)

/-- A head is old, or it was recorded by this step under the epoch in the row. -/
theorem recorded_store {e : StoreEvent} {store : StoreState} {q : StateCommitRequest} (hok : ClusterOk D s)
    (h : StoreStep s.world.store e store) (hq : q ∈ s.world.sent) (hh : q.head ∈ store.store.heads q.object) :
    q.head ∈ s.world.heads q.object ∨
      ∃ row, s.world.row q.object = some row ∧ row.ownerEpoch = q.ownerEpoch ∧ row.ownerHostId = q.owner := by
  rcases row_step hok.store h q.object with ⟨heq, -⟩ | ⟨i, q₀, p, row, _, hi, ho, heq, hrow, -, hep, hho, -, -⟩
  · exact .inl (by rwa [World.heads, ← heq])
  · rw [heq] at hh
    rcases List.mem_append.mp hh with hh | hh
    · exact .inl hh
    · obtain ⟨hown, hepoch, -⟩ := (hok.sent q hq).same_head (hok.sent q₀ (hok.arriving i q₀ p hi)) hok.uploads
        ho.symm (List.mem_singleton.mp hh)
      exact .inr ⟨row, hrow, hep.trans hepoch.symm, hho.trans hown.symm⟩

/-- The store never takes an epoch back. -/
theorem epoch_store {e : StoreEvent} {store : StoreState} {o : ActorStorageKey} {row : PlacementRow}
    (hok : ClusterOk D s) (h : StoreStep s.world.store e store) (hrow : s.world.row o = some row) :
    ∃ row', store.store.db.placements o = some row' ∧
      (row'.ownerEpoch = row.ownerEpoch ∧ row'.ownerHostId = row.ownerHostId ∨ row.ownerEpoch < row'.ownerEpoch) := by
  rcases row_step hok.store h o with ⟨-, hrows⟩ | ⟨_, _, _, row₀, row', -, -, -, hrow₀, hrow', -, -, hep, hho⟩
  · exact hrows row hrow
  · cases hrow.symm.trans hrow₀
    exact ⟨row', hrow', .inl ⟨hep, hho⟩⟩

theorem fenced_store {e : StoreEvent} {store : StoreState}
    {committed : List (StateCommitRequest × ObjectPlacement)} (hok : ClusterOk D s)
    (hf : Fenced s.world) (h : StoreStep s.world.store e store) :
    Fenced { s.world with store := store, committed := committed } := by
  have hadmits : ∀ {o h' e'}, s.world.Admits o h' e' →
      World.Admits { s.world with store := store, committed := committed } o h' e' := by
    rintro o h' e' ⟨row, hrow, hle, hown⟩
    obtain ⟨row', hrow', ⟨hep, hho⟩ | hlt⟩ := epoch_store hok h hrow
    · exact ⟨row', hrow', by omega, fun he => (hown (by omega)).trans hho.symm⟩
    · exact ⟨row', hrow', by omega, fun he => by omega⟩
  refine ⟨fun p hp => hadmits (hf.observed p hp), ?_, ?_⟩
  · intro q hq hh
    rcases recorded_store hok h hq hh with hh | ⟨row, hrow, hep, hho⟩
    · exact hadmits (hf.recorded q hq hh)
    · exact hadmits ⟨row, hrow, hep.ge, fun _ => hho.symm⟩
  · intro q hq hh p hp ho
    rcases recorded_store hok h hq hh with hh | ⟨row, hrow, hep, hho⟩
    · exact hf.between q hq hh p hp ho
    · obtain ⟨row', hrow', hle, hown⟩ := hf.observed p hp
      rw [ho] at hrow'
      cases hrow.symm.trans hrow'
      exact ⟨fun hlt => by omega, fun he => hho.symm.trans (hown (by omega)).symm⟩

theorem release_same (w : World) (h : HostId) (o : ActorStorageKey) (t : ℕ) :
    (w.release h o t).store = w.store ∧ (w.release h o t).observed = w.observed ∧
    (w.release h o t).sent = w.sent := by
  obtain ⟨gates, hg⟩ := release_eq w h o t
  rw [hg]
  exact ⟨rfl, rfl, rfl⟩

theorem fenced_step {s' : ClusterState} {e : ClusterEvent} (hok : ClusterOk D s) (hf : Fenced s.world)
    (h : ClusterStep D s e s') : Fenced s'.world := by
  cases h with
  | observe hrow => exact fenced_observe hok hf hrow
  | arrive _ _ => exact fenced_same hf rfl rfl rfl
  | call ht ha =>
    have hout := answers_outside ha
    exact fenced_same hf (congrArg _ hout.store) hout.observed hout.sent
  | send ht hq =>
    obtain ⟨hc, -, hwp⟩ := hok.turns _ _ _ _ ht
    have hphase := (hok.phases _ _ _ (.inl (by rw [ht]; simp)) hc).1
    exact fenced_send hok hf (justified_of_allows hphase hwp.1 hq)
  | store hs _ => exact fenced_store hok hf hs
  | land _ => exact fenced_same hf rfl rfl rfl
  | finish _ =>
    obtain ⟨h1, h2, h3⟩ := release_same s.world _ _ _
    exact fenced_same hf (congrArg _ h1) h2 h3
  | drop _ =>
    obtain ⟨h1, h2, h3⟩ := release_same s.world _ _ _
    exact fenced_same hf (congrArg _ h1) h2 h3
  | restart _ _ => exact fenced_same hf rfl rfl rfl

theorem fenced_reachable (h : (clusterSystem D).Reachable s) : Fenced s.world := by
  have hboth : ClusterOk D s ∧ Fenced s.world := by
    refine h.invariant (I := fun s => ClusterOk D s ∧ Fenced s.world) ?_ ?_
    · intro s hs
      refine ⟨clusterOk_init hs, ?_⟩
      obtain ⟨sessions, rfl⟩ := hs
      exact ⟨nofun, nofun, nofun⟩
    · exact fun hs hstep => ⟨clusterOk_step hs.1 hstep, fenced_step hs.1 hs.2 hstep⟩
  exact hboth.2

end LDO
