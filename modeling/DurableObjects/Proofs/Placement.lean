import DurableObjects.Sanity.Store

/-! The head history of every object is linear, whatever calls arrive and however
they interleave. The commit call needs two statements, so its answer is proved
against a store that other calls have moved in between. -/

namespace LDO

open Prog

/-- Only a commit call sends the commit statement, and only for its own request. -/
def StoreCall.Sends (call : StoreCall) (sql : Sql) : Prop :=
  ∀ request, sql = .commitHead request → call = .commitState request

/-- The store as one call sees it: other calls may move it before each statement. -/
def storeEnv (call : StoreCall) : Env Sql (fun sql => Result sql.Rows) Store where
  ok _ sql := call.Sends sql
  step st sql r st' := ∃ st₁ db, Grows st st₁ ∧ HeadsOk st₁ ∧ sql.Answers st₁.db r db ∧ st' = st₁.write db

def StateCommitRequest.head (request : StateCommitRequest) : Head :=
  ⟨request.expectedVersion + 1, some request.stateObject, some request.requestId⟩

/-- A commit answered as committed is in the history of its object, whose region it names. -/
def AnswerOk (call : StoreCall) (answer : StoreAnswer) (st : Store) : Prop :=
  ∀ request placement, call = .commitState request → answer = .commitState (.ok (.committed placement)) →
    request.head ∈ st.heads request.object ∧
      ∃ row, st.db.placements request.object = some row ∧ row.homeRegion = placement.homeRegion

theorem answerOk_grows {call : StoreCall} {answer : StoreAnswer} {st st' : Store} (hg : Grows st st')
    (h : AnswerOk call answer st) : AnswerOk call answer st' := by
  intro request placement hc ha
  obtain ⟨hhead, row, hrow, hregion⟩ := h request placement hc ha
  obtain ⟨row', hrow', hregion', -⟩ := hg.rows _ row hrow
  exact ⟨(hg.heads _).subset hhead, row', hrow', hregion'.trans hregion⟩

theorem wp_grows {call tag : StoreCall} {st st' : Store} {p : StoreM StoreAnswer} (hg : Grows st st')
    (h : wp (storeEnv call) p (AnswerOk tag) st) : wp (storeEnv call) p (AnswerOk tag) st' := by
  refine wp_stable (R := Grows) (E := storeEnv call) (Q := AnswerOk tag) (fun _ _ _ _ hok => hok) ?_
    (fun _ _ _ => answerOk_grows) hg h
  rintro _ _ _ _ _ hg ⟨st₁, db, h₁, hrest⟩
  exact ⟨st₁, db, hg.trans h₁, hrest⟩

theorem wp_get (call : StoreCall) (object : ActorStorageKey)
    (Q : Result (Option ObjectPlacement) → Store → Prop) (st : Store) :
    wp (storeEnv call) (PostgresObjectPlacementStore.get object) Q st ↔
      ∀ r st', (storeEnv call).step st (.selectPlacement object) r st' →
        Q (withContext (r.map (Option.map (placementFromRow object))) "load PostgreSQL object placement") st' := by
  have hs : call.Sends (.selectPlacement object) := nofun
  unfold PostgresObjectPlacementStore.get
  rw [perform_bind, wp_call]
  refine ⟨fun h r st' hst => ?_, fun h => ⟨hs, fun r st' hst => ?_⟩⟩
  · have := h.2 r st' hst
    cases r <;> exact this
  · have := h r st' hst
    cases r <;> exact this

/-- A read that looks like the request's own commit found it in the history. -/
theorem replayed_mem {st : Store} (hok : HeadsOk st) {request : StateCommitRequest} {row : PlacementRow}
    (hrow : st.db.placements request.object = some row) (hbound : request.expectedVersion ≤ i64Max)
    (h : isReplayedCommit (placementFromRow request.object row) request = true) :
    request.head ∈ st.heads request.object := by
  obtain ⟨⟨hv, hobj⟩, hreq⟩ : (row.stateVersion = saturatingAdd request.expectedVersion 1 ∧
      row.stateObject = some request.stateObject) ∧ row.lastRequestId = some request.requestId := by
    simp only [isReplayedCommit, Bool.and_eq_true, decide_eq_true_eq] at h
    exact h
  have hsat : saturatingAdd request.expectedVersion 1 = request.expectedVersion + 1 := by
    have : i64Max < u64Max := by decide
    unfold saturatingAdd
    omega
  rw [hsat] at hv
  have hm := hok.head_mem hrow (by omega)
  rwa [PlacementRow.head, hv, hobj, hreq] at hm

theorem wp_commitState (request : StateCommitRequest) (st : Store) :
    wp (storeEnv (.commitState request)) (StoreCall.commitState request).program
      (AnswerOk (.commitState request)) st := by
  simp only [StoreCall.program, wp_map]
  unfold PostgresObjectPlacementStore.commitState
  split
  · rintro _ _ - ⟨⟩
  · rename_i hvalid
    have hbound : request.expectedVersion ≤ i64Max := by
      rcases hv : validateStateCommit request with _ | _
      · rw [hv] at hvalid; cases hvalid
      · rw [hv] at hvalid
        rcases he : i64TryFrom request.ownerEpoch "object owner epoch exceeds PostgreSQL BIGINT" with _ | _
        · rw [he] at hvalid; cases hvalid
        · rw [he] at hvalid
          rcases hx : i64TryFrom request.expectedVersion "actor state version exceeds PostgreSQL BIGINT" with _ | _
          · rw [hx] at hvalid; cases hvalid
          · exact (i64TryFrom_ok.mp hx).1
    rw [perform_bind, wp_call]
    refine ⟨fun _ h => by cases h; rfl, ?_⟩
    rintro r _ ⟨st₁, db, -, hok, hans, rfl⟩
    cases hans with
    | failed e => rintro _ _ - ⟨⟩
    | lost e hr => rintro _ _ - ⟨⟩
    | rows hr =>
      rename_i rows
      cases rows with
      | some row =>
        rintro _ placement ⟨⟩ hans
        obtain rfl : placementFromRow request.object row = placement := by simpa using hans
        -- the statement matched: the row it returns is the new head
        simp only [Sql.run] at hr
        split at hr
        · cases hr
        · rename_i old hold
          split_ifs at hr with hm
          · split at hr
            · cases hr
            · rename_i version hversion
              cases hr
              rw [bigintSucc_ok hversion]
              simp only [Store.write, setPlacement_placements, if_true, hold, recordHead_commit]
              refine ⟨List.mem_append_right _ (by simp [StateCommitRequest.head, hm.2.2.1]), _, rfl, rfl⟩
          · cases hr
      | none =>
        rw [wp_bind, wp_get]
        rintro r' _ ⟨st₂, db₂, -, hok₂, hans₂, rfl⟩
        cases hans₂ with
        | failed e => rintro _ _ - ⟨⟩
        | lost e hr₂ => rintro _ _ - ⟨⟩
        | rows hr₂ =>
          cases hr₂
          generalize hrow : st₂.db.placements request.object = row
          cases row with
          | none => rintro _ _ - ⟨⟩
          | some row =>
            simp only [Except.map, Option.map_some, withContext, orContext]
            rintro _ placement ⟨⟩ ha
            split_ifs at ha with hrep
            · cases ha
              exact ⟨(recordHead_extends _ _ _).subset (replayed_mem hok₂ hrow hbound hrep), row, hrow, rfl⟩
            · cases ha

theorem wp_program (call : StoreCall) (st : Store) : wp (storeEnv call) call.program (AnswerOk call) st := by
  cases call with
  | commitState request => exact wp_commitState request st
  | get object =>
    simp only [StoreCall.program, wp_map, wp_get]
    rintro _ _ - _ _ ⟨⟩
  | claim object expected owner region =>
    -- sends no commit statement, and what it answers is no commit
    have hcurrent : ∀ st, wp (storeEnv (.claim object expected owner region))
        (PostgresObjectPlacementStore.currentClaim object)
        (fun a => AnswerOk (.claim object expected owner region) (.claim a)) st := by
      intro st
      unfold PostgresObjectPlacementStore.currentClaim
      rw [wp_bind, wp_get]
      intro r st' _
      cases r <;> rintro _ _ ⟨⟩
    simp only [StoreCall.program, wp_map]
    unfold PostgresObjectPlacementStore.claim
    split
    · rintro _ _ ⟨⟩
    · split
      · rw [perform_bind, wp_call]
        refine ⟨nofun, fun r st' _ => ?_⟩
        rcases r with e | _ | row
        · rintro _ _ ⟨⟩
        · exact hcurrent st'
        · rintro _ _ ⟨⟩
      · split
        · rintro _ _ ⟨⟩
        · split_ifs
          · exact hcurrent st
          · split
            · rintro _ _ ⟨⟩
            · rw [perform_bind, wp_call]
              refine ⟨nofun, fun r st' _ => ?_⟩
              rcases r with e | _ | row
              · rintro _ _ ⟨⟩
              · exact hcurrent st'
              · rintro _ _ ⟨⟩
  | register request =>
    simp only [StoreCall.program, wp_map]
    unfold PostgresHostLeaseStore.register
    split
    · rintro _ _ ⟨⟩
    · rw [perform_bind, wp_call]
      refine ⟨nofun, fun r st' _ => ?_⟩
      rcases r with e | _ | expires <;> rintro _ _ ⟨⟩
  | unregister id sessionId =>
    simp only [StoreCall.program, wp_map, PostgresHostLeaseStore.unregister, perform_bind, wp_call]
    refine ⟨nofun, fun r st' _ => ?_⟩
    rcases r with e | n <;> rintro _ _ ⟨⟩
  | leaseStatus id =>
    simp only [StoreCall.program, wp_map, PostgresHostLeaseStore.leaseStatus, perform_bind, wp_call]
    refine ⟨nofun, fun r st' _ => ?_⟩
    rcases r with e | ⟨now, lease⟩ <;> rintro _ _ ⟨⟩

/-- The history is in order and every call in progress will answer truthfully. -/
structure StoreOk (s : StoreState) : Prop where
  heads : HeadsOk s.store
  calls : ThreadsOk (fun _ : ℕ => storeEnv) (fun _ : ℕ => AnswerOk) s.calls s.store

/-- The store part of a step is one statement, or the clock. -/
theorem grows_step {s s' : StoreState} {e : StoreEvent} (h : StoreStep s e s') :
    Grows s.store s'.store := by
  cases h with
  | arrive call _ => exact .refl _
  | statement _ hans => exact grows_write (rowStep_of_answers hans)
  | answer _ => exact .refl _
  | drop i => exact .refl _
  | tick _ => exact grows_write (q := .selectLease ⟨""⟩) fun o => .same _

theorem storeOk_step {s s' : StoreState} {e : StoreEvent} (hok : StoreOk s) (h : StoreStep s e s') :
    StoreOk s' := by
  have hg := grows_step h
  cases h with
  | arrive call hfree => exact ⟨hok.heads, hok.calls.spawn (wp_program call _)⟩
  | statement hi hans =>
    refine ⟨headsOk_write hok.heads (rowStep_of_answers hans), hok.calls.call hi ?_ ?_⟩
    · exact ⟨_, _, .refl _, hok.heads, hans, rfl⟩
    · exact fun j u q _ => wp_grows hg
  | answer hi => exact ⟨hok.heads, hok.calls.drop _⟩
  | drop i => exact ⟨hok.heads, hok.calls.drop i⟩
  | tick hle =>
    refine ⟨headsOk_write (q := .selectLease ⟨""⟩) hok.heads fun o => .same _, hok.calls.move ?_⟩
    exact fun j u q => wp_grows hg

theorem storeOk_reachable {s : StoreState} (hs : storeSystem.Reachable s) : StoreOk s := by
  refine hs.invariant (I := StoreOk) ?_ storeOk_step
  rintro _ rfl
  exact ⟨headsOk_empty, nofun⟩

theorem grows_path {s s' : StoreState} {evs : List StoreEvent} (h : storeSystem.Path s evs s') :
    Grows s.store s'.store :=
  h.rel (R := fun a b => Grows a.store b.store) (fun _ => .refl _) Grows.trans grows_step

/-- The event `e` recorded `request` as the next head of `object`, whose row was `row`. -/
structure Advances (s : StoreState) (e : StoreEvent) (s' : StoreState) (object : ActorStorageKey)
    (row : PlacementRow) (request : StateCommitRequest) : Prop where
  sent : ∃ i next, e = .statement i (.commitHead request) ∧ s.calls i = some (.commitState request, next)
  object_eq : request.object = object
  version : request.expectedVersion = row.stateVersion
  owner : request.owner = row.ownerHostId
  epoch : request.ownerEpoch = row.ownerEpoch
  lease : s.store.db.leaseHeld request.owner request.sessionId
  heads : s'.store.heads object = s.store.heads object ++ [request.head]

theorem advances_of_version {s s' : StoreState} {e : StoreEvent} (hok : StoreOk s) (h : StoreStep s e s')
    {o : ActorStorageKey} {row row' : PlacementRow} (hrow : s.store.db.placements o = some row)
    (hrow' : s'.store.db.placements o = some row') (hne : row'.stateVersion ≠ row.stateVersion) :
    row'.stateVersion = row.stateVersion + 1 ∧ ∃ request, Advances s e s' o row request := by
  have same : s'.store.db.placements o = s.store.db.placements o → False := by
    intro heq
    rw [heq, hrow] at hrow'
    cases hrow'
    exact hne rfl
  cases h with
  | arrive call _ => exact (same rfl).elim
  | answer _ => exact (same rfl).elim
  | drop i => exact (same rfl).elim
  | tick _ => exact (same rfl).elim
  | statement hi hans =>
    have ho := rowStep_of_answers hans o
    change _ = some row' at hrow'
    simp only [Store.write] at hrow'
    rw [hrow, hrow'] at ho
    cases ho with
    | same => exact (hne rfl).elim
    | claim => exact (hne rfl).elim
    | commit hsql hobj hm =>
      rename_i request
      have hcall := (hok.calls _ _ _ hi).1 request hsql
      rw [hcall] at hi
      refine ⟨rfl, request, ⟨_, _, by rw [hsql], hi⟩, hobj, hm.2.2.1.symm, hm.1.symm, hm.2.1.symm, ?_, ?_⟩
      · rw [← hm.1]; exact hm.2.2.2
      · simp only [Store.write, hrow, hrow', recordHead_commit, StateCommitRequest.head, ← hm.2.2.1]

theorem new_row_version {s s' : StoreState} {e : StoreEvent} (h : StoreStep s e s') {o : ActorStorageKey}
    {row' : PlacementRow} (hnone : s.store.db.placements o = none)
    (hrow' : s'.store.db.placements o = some row') : row'.stateVersion = 0 := by
  cases h with
  | statement hi hans =>
    have ho := rowStep_of_answers hans o
    simp only [Store.write] at hrow'
    rw [hnone, hrow'] at ho
    cases ho with
    | insert => rfl
  | arrive call _ => cases hnone.symm.trans hrow'
  | answer _ => cases hnone.symm.trans hrow'
  | drop i => cases hnone.symm.trans hrow'
  | tick _ => cases hnone.symm.trans hrow'

theorem Advances.unique {s s' : StoreState} {e : StoreEvent} {o : ActorStorageKey} {row : PlacementRow}
    {a b : StateCommitRequest} (ha : Advances s e s' o row a) (hb : Advances s e s' o row b) : a = b := by
  obtain ⟨i, _, hi, -⟩ := ha.sent
  obtain ⟨j, _, hj, -⟩ := hb.sent
  cases hi.symm.trans hj
  rfl

/-- A request below the recorded epoch finds nothing to update. -/
theorem fenced {s s' : StoreState} {i : ℕ} {request : StateCommitRequest} {row : PlacementRow}
    (hrow : s.store.db.placements request.object = some row) (hlt : request.ownerEpoch < row.ownerEpoch)
    (h : StoreStep s (.statement i (.commitHead request)) s') :
    s'.store.db.placements request.object = s.store.db.placements request.object := by
  cases h with
  | statement hi hans =>
    have ho := rowStep_of_answers hans request.object
    simp only [Store.write]
    rw [hrow] at ho ⊢
    generalize Database.placements _ request.object = new at ho
    cases ho with
    | same => rfl
    | claim hsql => cases hsql
    | commit hsql _ hm =>
      cases hsql
      exact absurd hm.2.1 (by omega)

/-- Every object has one linear head history. -/
theorem head_history_linear {s : StoreState} (hs : storeSystem.Reachable s) :
    -- along every run from here the region is fixed and the owner epoch never falls
    (∀ evs s', storeSystem.Path s evs s' → ∀ o row, s.store.db.placements o = some row →
      ∃ row', s'.store.db.placements o = some row' ∧ row'.homeRegion = row.homeRegion ∧
        row.ownerEpoch ≤ row'.ownerEpoch) ∧
    -- a new row is at version 0, with no history
    (∀ e s' o row', storeSystem.step s e s' → s.store.db.placements o = none →
      s'.store.db.placements o = some row' → row'.stateVersion = 0 ∧ s'.store.heads o = []) ∧
    -- a version changes by one, through exactly one commit request of the recorded owner
    (∀ e s' o row row', storeSystem.step s e s' → s.store.db.placements o = some row →
      s'.store.db.placements o = some row' → row'.stateVersion ≠ row.stateVersion →
      row'.stateVersion = row.stateVersion + 1 ∧ ∃! request, Advances s e s' o row request) ∧
    -- a request below a recorded epoch never advances the head again
    (∀ evs s' i request s'' row, storeSystem.Path s evs s' →
      s.store.db.placements request.object = some row → request.ownerEpoch < row.ownerEpoch →
      storeSystem.step s' (.statement i (.commitHead request)) s'' →
      s''.store.db.placements request.object = s'.store.db.placements request.object) ∧
    -- an answer `committed` is in the history
    (∀ i request placement s', storeSystem.step s
        (.answer i (.commitState request) (.commitState (.ok (.committed placement)))) s' →
      request.head ∈ s.store.heads request.object) := by
  have hok := storeOk_reachable hs
  refine ⟨?_, ?_, ?_, ?_, ?_⟩
  · intro evs s' hp o row hrow
    obtain ⟨row', hrow', hregion, hepoch, -⟩ := (grows_path hp).rows o row hrow
    exact ⟨row', hrow', hregion, hepoch⟩
  · intro e s' o row' h hnone hrow'
    have hok' := storeOk_step hok h
    have hv := new_row_version h hnone hrow'
    refine ⟨hv, List.eq_nil_of_length_eq_zero ?_⟩
    rw [hok'.heads.length o row' hrow', hv]
  · intro e s' o row row' h hrow hrow' hne
    obtain ⟨hv, request, ha⟩ := advances_of_version hok h hrow hrow' hne
    exact ⟨hv, request, ha, fun other hb => hb.unique ha⟩
  · intro evs s' i request s'' row hp hrow hlt h
    obtain ⟨row', hrow', -, hepoch, -⟩ := (grows_path hp).rows _ row hrow
    exact fenced hrow' (by omega) h
  · intro i request placement s' h
    cases h with
    | answer hi => exact (hok.calls _ _ _ hi request placement rfl rfl).1

def counterRequest : StateCommitRequest where
  object := ⟨"object.v1.acme.Counter.1"⟩
  owner := ⟨"host-a"⟩
  sessionId := "session-1"
  ownerEpoch := 1
  expectedVersion := 0
  stateObject := "actors/Counter/1/state-1"
  requestId := "request-1"

/-- A claim, a lease and a commit, each run to its end. -/
theorem counterRequest_committed : ∃ s s' placement, storeSystem.Reachable s ∧
    storeSystem.step s (.answer 2 (.commitState counterRequest) (.commitState (.ok (.committed placement)))) s' := by
  have h₀ : storeSystem.Reachable ⟨.empty, fun _ => none⟩ := ⟨[], _, rfl, .nil _⟩
  have h₁ := h₀.step (.arrive (i := 0) (.claim counterRequest.object none counterRequest.owner "us-east") rfl)
  have h₂ := h₁.step (.statement (i := 0) rfl (.rows rfl))
  have h₃ := h₂.step (.arrive (i := 1) (.register ⟨counterRequest.owner, "session-1", "http://a", 60000⟩) rfl)
  have h₄ := h₃.step (.statement (i := 1) rfl (.rows rfl))
  have h₅ := h₄.step (.arrive (i := 2) (.commitState counterRequest) rfl)
  have h₆ := h₅.step (.statement (i := 2) rfl (.rows rfl))
  exact ⟨_, _, _, h₆, .answer rfl⟩

theorem head_history_linear_counter :
    ∃ s, storeSystem.Reachable s ∧ counterRequest.head ∈ s.store.heads counterRequest.object := by
  obtain ⟨s, s', placement, hs, h⟩ := counterRequest_committed
  exact ⟨s, hs, (head_history_linear hs).2.2.2.2 2 counterRequest placement s' h⟩

end LDO
