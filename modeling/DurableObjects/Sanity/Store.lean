import Mathlib.Data.List.Infix
import DurableObjects.Spec.StoreSystem

/-! What one statement can do to a placement row and to a lease, and what every statement keeps:
rows stay, their region is fixed, their counters and the head history only grow,
and the history ends in the head the row records. -/

namespace LDO

/-- The four things a statement does to the row of `object`. -/
inductive RowStep (db : Database) (sql : Sql) (object : ActorStorageKey) :
    Option PlacementRow → Option PlacementRow → Prop
  | same (row : Option PlacementRow) : RowStep db sql object row row
  | insert {owner : HostId} {region : String} : sql = .insertPlacement object owner region →
      RowStep db sql object none (some ⟨owner, 1, region, 0, none, none⟩)
  | claim {row : PlacementRow} {owner : HostId} :
      sql = .claimPlacement object owner row.ownerHostId row.ownerEpoch row.homeRegion →
      RowStep db sql object (some row)
        (some { row with ownerHostId := owner, ownerEpoch := row.ownerEpoch + 1 })
  | commit {row : PlacementRow} {request : StateCommitRequest} : sql = .commitHead request →
      request.object = object → commitMatches db row request →
      RowStep db sql object (some row)
        (some { row with stateVersion := row.stateVersion + 1, stateObject := some request.stateObject,
                         lastRequestId := some request.requestId })

theorem bigintSucc_ok {n m : ℕ} (h : bigintSucc n = .ok m) : m = n + 1 := by
  unfold bigintSucc at h
  split_ifs at h
  exact (Except.ok.inj h).symm

theorem setPlacement_placements (db : Database) (object o : ActorStorageKey) (row : PlacementRow) :
    (db.setPlacement object row).placements o = if o = object then some row else db.placements o := by
  simp only [Database.setPlacement, Function.update_apply]

theorem rowStep_setPlacement {db : Database} {sql : Sql} {object : ActorStorageKey} {row : PlacementRow}
    (h : RowStep db sql object (db.placements object) (some row)) (o : ActorStorageKey)
    (ho : o ≠ object → RowStep db sql o (db.placements o) (db.placements o)) :
    RowStep db sql o (db.placements o) ((db.setPlacement object row).placements o) := by
  rw [setPlacement_placements]
  split_ifs with heq
  · subst heq; exact h
  · exact ho heq

/-- The inversion of `Sql.run` on the placement table. -/
theorem rowStep_of_run {db db' : Database} {sql : Sql} {rows : sql.Rows}
    (h : sql.run db = .ok (rows, db')) (o : ActorStorageKey) :
    RowStep db sql o (db.placements o) (db'.placements o) := by
  cases sql with
  | insertPlacement object owner region =>
    simp only [Sql.run] at h
    split at h
    · cases h; exact .same _
    · rename_i hnone
      cases h
      exact rowStep_setPlacement (by rw [hnone]; exact .insert rfl) o fun _ => .same _
  | claimPlacement object owner expectedOwner expectedEpoch region =>
    simp only [Sql.run] at h
    split at h
    · cases h; exact .same _
    · rename_i row hrow
      split_ifs at h with hm
      · obtain ⟨rfl, rfl, rfl⟩ := hm
        split at h
        · cases h
        · rename_i epoch hepoch
          cases h
          rw [bigintSucc_ok hepoch]
          exact rowStep_setPlacement (by rw [hrow]; exact .claim rfl) o fun _ => .same _
      · cases h; exact .same _
  | commitHead request =>
    simp only [Sql.run] at h
    split at h
    · cases h; exact .same _
    · rename_i row hrow
      split_ifs at h with hm
      · split at h
        · cases h
        · rename_i version hversion
          cases h
          rw [bigintSucc_ok hversion]
          exact rowStep_setPlacement (by rw [hrow]; exact .commit rfl rfl hm) o fun _ => .same _
      · cases h; exact .same _
  | selectPlacement object => cases h; exact .same _
  | upsertLease request =>
    simp only [Sql.run] at h
    split at h
    · cases h; exact .same _
    · split_ifs at h <;> (cases h; exact .same _)
  | deleteLease id sessionId =>
    simp only [Sql.run] at h
    split at h
    · cases h; exact .same _
    · split_ifs at h <;> (cases h; exact .same _)
  | selectLease id => cases h; exact .same _

theorem rowStep_of_answers {db db' : Database} {sql : Sql} {r : Result sql.Rows}
    (h : sql.Answers db r db') (o : ActorStorageKey) :
    RowStep db sql o (db.placements o) (db'.placements o) := by
  cases h with
  | rows hr => exact rowStep_of_run hr o
  | failed e => exact .same _
  | lost e hr => exact rowStep_of_run hr o

/-- The three things a statement does to the lease of `id`. -/
inductive LeaseStep (db : Database) (sql : Sql) (id : HostId) : Option LeaseRow → Option LeaseRow → Prop
  | same (row : Option LeaseRow) : LeaseStep db sql id row row
  | upsert {old : Option LeaseRow} {request : HostLeaseRequest} : sql = .upsertLease request → request.id = id →
      LeaseStep db sql id old (some ⟨request.sessionId, request.route, db.nowMs + request.durationMs⟩)
  | delete {row : LeaseRow} : sql = .deleteLease id row.sessionId → LeaseStep db sql id (some row) none

theorem leaseStep_update {db : Database} {sql : Sql} {id : HostId} {row : Option LeaseRow}
    (h : LeaseStep db sql id (db.leases id) row) (o : HostId) :
    LeaseStep db sql o (db.leases o) (Function.update db.leases id row o) := by
  by_cases heq : o = id
  · subst heq
    rw [Function.update_self]
    exact h
  · rw [Function.update_of_ne heq]
    exact .same _

/-- The inversion of `Sql.run` on the lease table. -/
theorem leaseStep_of_run {db db' : Database} {sql : Sql} {rows : sql.Rows} (h : sql.run db = .ok (rows, db'))
    (o : HostId) : LeaseStep db sql o (db.leases o) (db'.leases o) := by
  cases sql with
  | insertPlacement object owner region =>
    simp only [Sql.run] at h
    split at h <;> (cases h; exact .same _)
  | claimPlacement object owner expectedOwner expectedEpoch region =>
    simp only [Sql.run] at h
    split at h
    · cases h; exact .same _
    · split_ifs at h
      · split at h
        · cases h
        · cases h; exact .same _
      · cases h; exact .same _
  | commitHead request =>
    simp only [Sql.run] at h
    split at h
    · cases h; exact .same _
    · split_ifs at h
      · split at h
        · cases h
        · cases h; exact .same _
      · cases h; exact .same _
  | selectPlacement object => cases h; exact .same _
  | upsertLease request =>
    simp only [Sql.run] at h
    split at h
    · cases h; exact leaseStep_update (.upsert rfl rfl) o
    · split_ifs at h
      · cases h; exact leaseStep_update (.upsert rfl rfl) o
      · cases h; exact .same _
  | deleteLease id sessionId =>
    simp only [Sql.run] at h
    split at h
    · cases h; exact .same _
    · rename_i lease hlease
      split_ifs at h with hsession
      · subst hsession
        cases h
        exact leaseStep_update (by rw [hlease]; exact .delete rfl) o
      · cases h; exact .same _
  | selectLease id => cases h; exact .same _

theorem leaseStep_of_answers {db db' : Database} {sql : Sql} {r : Result sql.Rows} (h : sql.Answers db r db')
    (o : HostId) : LeaseStep db sql o (db.leases o) (db'.leases o) := by
  cases h with
  | rows hr => exact leaseStep_of_run hr o
  | failed e => exact .same _
  | lost e hr => exact leaseStep_of_run hr o

/-- The store only moves forward. -/
structure Grows (st st' : Store) : Prop where
  heads : ∀ o, st.heads o <+: st'.heads o
  rows : ∀ o row, st.db.placements o = some row → ∃ row', st'.db.placements o = some row' ∧
    row'.homeRegion = row.homeRegion ∧ row.ownerEpoch ≤ row'.ownerEpoch ∧
    row.stateVersion ≤ row'.stateVersion

theorem Grows.refl (st : Store) : Grows st st :=
  ⟨fun _ => List.prefix_refl _, fun _ row h => ⟨row, h, rfl, le_rfl, le_rfl⟩⟩

theorem Grows.trans {a b c : Store} (h1 : Grows a b) (h2 : Grows b c) : Grows a c := by
  refine ⟨fun o => (h1.heads o).trans (h2.heads o), fun o row hrow => ?_⟩
  obtain ⟨row1, hrow1, hr1, he1, hv1⟩ := h1.rows o row hrow
  obtain ⟨row2, hrow2, hr2, he2, hv2⟩ := h2.rows o row1 hrow1
  exact ⟨row2, hrow2, hr2.trans hr1, he1.trans he2, hv1.trans hv2⟩

theorem recordHead_extends (old new : Option PlacementRow) (heads : List Head) :
    heads <+: recordHead old new heads := by
  unfold recordHead
  split
  · exact List.prefix_refl _
  · split_ifs
    · exact List.prefix_refl _
    · exact List.prefix_append _ _

theorem grows_write {st : Store} {db : Database} {q : Sql}
    (h : ∀ o, RowStep st.db q o (st.db.placements o) (db.placements o)) : Grows st (st.write db) := by
  refine ⟨fun o => recordHead_extends _ _ _, fun o row hrow => ?_⟩
  have ho := h o
  change ∃ row', db.placements o = some row' ∧ _
  generalize db.placements o = new at ho
  rw [hrow] at ho
  cases ho with
  | same => exact ⟨row, rfl, rfl, le_rfl, le_rfl⟩
  | claim => exact ⟨_, rfl, rfl, Nat.le_succ _, le_rfl⟩
  | commit => exact ⟨_, rfl, rfl, le_rfl, Nat.le_succ _⟩

/-- The head history of every object is the numbered list of the heads its row
went through, and ends in the present one. -/
structure HeadsOk (st : Store) : Prop where
  absent : ∀ o, st.db.placements o = none → st.heads o = []
  length : ∀ o row, st.db.placements o = some row → (st.heads o).length = row.stateVersion
  numbered : ∀ o k h, (st.heads o)[k]? = some h → h.stateVersion = k + 1
  last : ∀ o row, st.db.placements o = some row → 0 < row.stateVersion →
    (st.heads o).getLast? = some row.head

theorem headsOk_empty : HeadsOk .empty :=
  ⟨fun _ _ => rfl, nofun, nofun, nofun⟩

theorem recordHead_same (row : Option PlacementRow) (heads : List Head) :
    recordHead row row heads = heads := by
  cases row with
  | none => rfl
  | some row => simp [recordHead]

theorem recordHead_claim (row : PlacementRow) (owner : HostId) (epoch : ℕ) (heads : List Head) :
    recordHead (some row) (some { row with ownerHostId := owner, ownerEpoch := epoch }) heads = heads := by
  simp [recordHead]

theorem recordHead_commit (row : PlacementRow) (object request : Option String) (heads : List Head) :
    recordHead (some row)
      (some { row with stateVersion := row.stateVersion + 1, stateObject := object, lastRequestId := request })
      heads = heads ++ [⟨row.stateVersion + 1, object, request⟩] := by
  simp [recordHead, PlacementRow.head]

theorem headsOk_write {st : Store} {db : Database} {q : Sql} (hok : HeadsOk st)
    (h : ∀ o, RowStep st.db q o (st.db.placements o) (db.placements o)) : HeadsOk (st.write db) := by
  -- each field is about one object: follow its row through the statement
  have key : ∀ o, (db.placements o = none → (st.write db).heads o = []) ∧
      (∀ row, db.placements o = some row → ((st.write db).heads o).length = row.stateVersion) ∧
      (∀ k h, ((st.write db).heads o)[k]? = some h → h.stateVersion = k + 1) ∧
      (∀ row, db.placements o = some row → 0 < row.stateVersion →
        ((st.write db).heads o).getLast? = some row.head) := by
    intro o
    have ho := h o
    change _ ∧ _
    simp only [Store.write]
    generalize hold : st.db.placements o = old at ho
    generalize hnew : db.placements o = new at ho
    cases ho with
    | same =>
      rw [recordHead_same]
      exact ⟨fun hn => hok.absent o (hold.trans hn), fun row hr => hok.length o row (hold.trans hr),
        hok.numbered o, fun row hr => hok.last o row (hold.trans hr)⟩
    | insert =>
      have hnil := hok.absent o hold
      simp [recordHead, hnil]
    | claim =>
      rename_i row owner _
      rw [recordHead_claim]
      refine ⟨by simp, ?_, hok.numbered o, ?_⟩
      · rintro _ ⟨rfl⟩; exact hok.length o row hold
      · rintro _ ⟨rfl⟩ hpos; exact hok.last o row hold hpos
    | commit =>
      rename_i row request _ _ _
      have hlen := hok.length o row hold
      rw [recordHead_commit]
      refine ⟨by simp, ?_, ?_, ?_⟩
      · rintro _ ⟨rfl⟩; simp [hlen]
      · intro k hd hk
        rcases Nat.lt_trichotomy k (st.heads o).length with hlt | heq | hgt
        · rw [List.getElem?_append_left hlt] at hk
          exact hok.numbered o k hd hk
        · subst heq
          rw [List.getElem?_concat_length] at hk
          cases hk
          exact congrArg (· + 1) hlen.symm
        · rw [List.getElem?_eq_none (by simp; omega)] at hk
          cases hk
      · rintro _ ⟨rfl⟩ _; simp [PlacementRow.head]
  exact ⟨fun o => (key o).1, fun o => (key o).2.1, fun o => (key o).2.2.1, fun o => (key o).2.2.2⟩

/-- The head of a row with a state is in the history. -/
theorem HeadsOk.head_mem {st : Store} (hok : HeadsOk st) {o : ActorStorageKey} {row : PlacementRow}
    (hrow : st.db.placements o = some row) (hpos : 0 < row.stateVersion) : row.head ∈ st.heads o :=
  List.mem_of_getLast? (hok.last o row hrow hpos)

/-- A version names one head. -/
theorem HeadsOk.getElem {st : Store} (hok : HeadsOk st) {o : ActorStorageKey} {head : Head}
    (hm : head ∈ st.heads o) : (st.heads o)[head.stateVersion - 1]? = some head ∧ 0 < head.stateVersion := by
  obtain ⟨k, hk⟩ := List.mem_iff_getElem?.mp hm
  have hv := hok.numbered o k head hk
  rw [hv]
  exact ⟨hk, Nat.succ_pos k⟩

end LDO
