import DurableObjects.Spec.PlacementStores
import DurableObjects.Sanity.Leases
import DurableObjects.Sanity.Store

/-! When the in-memory placement store stands in for the PostgreSQL one. The two answer
alike unless a claim names a placement that is no longer the current one: the local store
compares all of it, PostgreSQL only the owner, the epoch and the region. -/

namespace LDO

open Prog

/-- The same result: the same placement, or an error. -/
def PlacementAnswer.Same : PlacementAnswer → PlacementAnswer → Prop
  | .get r, .get r' => r.toOption = r'.toOption
  | .claim r, .claim r' => r.toOption = r'.toOption
  | .commitState r, .commitState r' => r.toOption = r'.toOption
  | _, _ => False

/-- The arguments are valid for both stores: the host that commits holds an active lease, and what
is named or would be stored fits in a `BIGINT`. -/
def PlacementMoment.Valid (m : PlacementMoment) : Prop :=
  match m.call with
  | .get _ => True
  | .claim object expected _ homeRegion =>
    object.validate = .ok () ∧ validateRegion homeRegion = .ok () ∧ ∀ e, expected = some e →
    e.ownerEpoch < i64Max
  | .commitState request => request.ownerEpoch ≤ i64Max ∧ request.expectedVersion < i64Max ∧
      ∃ lease, m.leases request.owner = some lease ∧ lease.sessionId = request.sessionId ∧
      m.nowMs < lease.expiresAtMs

/-- A claim that expects a placement other than the current one expects one of the same object and
region, and either asks for the owner it expects or expects an ownership that has ended. -/
def PlacementMoment.Settled (m : PlacementMoment)
    (placements : LocalObjectPlacementStore.Placements) : Prop :=
  match m.call with
  | .claim object (some expected) owner homeRegion => ∀ current, placements object = some current →
      expected = current ∨ expected.object = object ∧ expected.homeRegion = homeRegion ∧
        (expected.owner = owner ∨ ¬ (current.owner = expected.owner ∧ current.ownerEpoch = expected.ownerEpoch ∧
          current.homeRegion = expected.homeRegion))
  | _ => True

/-! ### What an answer says was stored -/

def PlacementClaim.stored : PlacementClaim → Option ObjectPlacement
  | .acquired placement => some placement
  | .current _ => none

def StateCommit.stored : StateCommit → Option ObjectPlacement
  | .committed placement => some placement
  | .current _ => none

def PlacementAnswer.stored : PlacementAnswer → Option ObjectPlacement
  | .get _ => none
  | .claim r => r.toOption.bind PlacementClaim.stored
  | .commitState r => r.toOption.bind StateCommit.stored

theorem PlacementAnswer.Same.stored {a a' : PlacementAnswer} (h : a.Same a') : a.stored = a'.stored := by
  cases a <;> cases a' <;> first | rfl | exact h.elim | exact congrArg (Option.bind · _) h

namespace LocalObjectPlacementStore

/-- The placements after a call that was answered so. -/
def record (a : PlacementAnswer) (placements : Placements) : Placements :=
  match a.stored with
  | some placement => insert placements placement
  | none => placements

theorem insert_self {placements : Placements} {placement : ObjectPlacement}
    (h : placements placement.object = some placement) : insert placements placement = placements := by
  rw [insert, ← h, Function.update_eq_self]

/-- Every placement is filed under its object. -/
def Filed (placements : Placements) : Prop := ∀ o p, placements o = some p → p.object = o

theorem claim_record {placements placements' : Placements} {object : ActorStorageKey}
    {expected : Option ObjectPlacement} {owner : HostId} {homeRegion : String} {r : PlacementClaim}
    (h : claim placements object expected owner homeRegion = .ok (r, placements')) :
    placements' = record (.claim (.ok r)) placements := by
  obtain ⟨-, -, h⟩ := bind_ok.mp h
  split at h
  · split_ifs at h
    cases h
    rfl
  · split_ifs at h
    · obtain ⟨-, -, h⟩ := bind_ok.mp h
      cases h
      rfl
    · obtain ⟨-, -, h⟩ := bind_ok.mp h
      obtain ⟨ownerEpoch, -, h⟩ := bind_ok.mp h
      cases h
      rfl
    · cases h
      rfl

theorem commitState_record {placements placements' : Placements} {request : StateCommitRequest}
    {r : StateCommit} (hfiled : Filed placements)
    (h : commitState placements request = .ok (r, placements')) :
    placements' = record (.commitState (.ok r)) placements := by
  obtain ⟨-, -, h⟩ := bind_ok.mp h
  obtain ⟨current, hcurrent, h⟩ := bind_ok.mp h
  rw [orContext_ok] at hcurrent
  have hobject := hfiled _ _ hcurrent
  split_ifs at h
  · cases h
    exact (insert_self (hobject ▸ hcurrent)).symm
  · cases h
    rfl
  · obtain ⟨stateVersion, -, h⟩ := bind_ok.mp h
    cases h
    simp [record, PlacementAnswer.stored, Except.toOption, StateCommit.stored, insert, hobject]

theorem call_record {m : PlacementMoment} {placements : Placements} (hfiled : Filed placements) :
    (call m placements).2 = record (call m placements).1 placements := by
  obtain ⟨leases, nowMs, object | ⟨object, expected, owner, homeRegion⟩ | request⟩ := m
  · rfl
  · simp only [call]
    cases h : claim placements object expected owner homeRegion with
    | error e => rfl
    | ok r => exact claim_record h
  · simp only [call]
    cases h : commitState placements request with
    | error e => rfl
    | ok r => exact commitState_record hfiled h

end LocalObjectPlacementStore

namespace PostgresObjectPlacementStore

theorem placements_setPlacement (db : Database) (object : ActorStorageKey) (row : PlacementRow) :
    placements (db.setPlacement object row) =
      Function.update (placements db) object (some (placementFromRow object row)) := by
  funext o
  rw [placements, setPlacement_placements, Function.update_apply]
  split_ifs with heq
  · subst heq
    rfl
  · rfl

theorem runSql_currentClaim {db : Database} {object : ActorStorageKey} {row : PlacementRow}
    (h : db.placements object = some row) :
    runSql db (currentClaim object) = (.ok (.current (placementFromRow object row)), db) := by
  have hrun : runSql db (currentClaim object) = (orContext ((placements db object).map .current)
      "object placement disappeared during claim", db) := rfl
  rw [hrun, placements, h]
  rfl

theorem runSql_currentClaim_absent {db : Database} {object : ActorStorageKey}
    (h : db.placements object = none) :
    runSql db (currentClaim object) = (.error (.new "object placement disappeared during claim"), db) := by
  have hrun : runSql db (currentClaim object) = (orContext ((placements db object).map .current)
      "object placement disappeared during claim", db) := rfl
  rw [hrun, placements, h]
  rfl

theorem runSql_insert {db : Database} {object : ActorStorageKey} {owner : HostId} {homeRegion : String}
    (hobject : object.validate = .ok ()) (hregion : validateRegion homeRegion = .ok ()) :
    runSql db (claim object none owner homeRegion) =
      match db.placements object with
      | some row => (.ok (.current (placementFromRow object row)), db)
      | none => (.ok (.acquired ⟨object, owner, 1, homeRegion, 0, none, none⟩),
          db.setPlacement object ⟨owner, 1, homeRegion, 0, none, none⟩) := by
  have hvalid : (do object.validate; validateRegion homeRegion : Result Unit) = .ok () := by
    rw [hobject]
    exact hregion
  rw [claim, hvalid]
  cases h : db.placements object with
  | none => simp [runSql, Sql.run, h, placementFromRow]
  | some row => simpa [runSql, Sql.run, h] using runSql_currentClaim h

/-- A claim of a placement that was expected. -/
theorem runSql_claim {db : Database} {object : ActorStorageKey} {expected : ObjectPlacement} {owner : HostId}
    {homeRegion : String} {row : PlacementRow} (hobject : object.validate = .ok ())
    (hregion : validateRegion homeRegion = .ok ()) (hepoch : expected.ownerEpoch < i64Max)
    (hrow : db.placements object = some row) :
    runSql db (claim object (some expected) owner homeRegion) =
      if expected.object = object ∧ expected.homeRegion = homeRegion then
        if expected.owner ≠ owner ∧ row.ownerHostId = expected.owner ∧ row.ownerEpoch = expected.ownerEpoch ∧
            row.homeRegion = homeRegion then
          let claimed := { row with ownerHostId := owner, ownerEpoch := row.ownerEpoch + 1 }
          (.ok (.acquired (placementFromRow object claimed)), db.setPlacement object claimed)
        else (.ok (.current (placementFromRow object row)), db)
      else (.error (.new "expected object placement does not match the claim"), db) := by
  have hvalid : (do object.validate; validateRegion homeRegion : Result Unit) = .ok () := by
    rw [hobject]
    exact hregion
  have hcurrent := runSql_currentClaim hrow
  rw [claim, hvalid]
  by_cases hmatch : expected.object = object ∧ expected.homeRegion = homeRegion
  · rw [if_pos hmatch]
    have hensure : ensure (expected.object = object ∧ expected.homeRegion = homeRegion)
        "expected object placement does not match the claim" = .ok () := ensure_ok.mpr hmatch
    simp only [hensure]
    by_cases howner : expected.owner = owner
    · simpa [howner] using hcurrent
    · have hepoch64 : i64TryFrom expected.ownerEpoch "object owner epoch exceeds PostgreSQL BIGINT" =
          .ok expected.ownerEpoch := i64TryFrom_ok.mpr ⟨hepoch.le, rfl⟩
      by_cases hrow' : row.ownerHostId = expected.owner ∧ row.ownerEpoch = expected.ownerEpoch ∧
          row.homeRegion = homeRegion
      · have hsucc : bigintSucc row.ownerEpoch = .ok (row.ownerEpoch + 1) := by
          rw [bigintSucc, if_pos (hrow'.2.1 ▸ hepoch)]
        simp only [howner, hepoch64, if_false, ne_eq, not_false_eq_true, true_and, if_pos hrow']
        simp only [perform_bind, runSql, Sql.run, hrow, if_pos hrow', hsucc]
        rfl
      · simp only [howner, hepoch64, if_false, ne_eq, not_false_eq_true, true_and, if_neg hrow']
        simp only [perform_bind, runSql, Sql.run, hrow, if_neg hrow']
        exact hcurrent
  · rw [if_neg hmatch]
    simp [ensure, hmatch, runSql]

theorem runSql_claim_absent {db : Database} {object : ActorStorageKey} {expected : ObjectPlacement}
    {owner : HostId} {homeRegion : String} (hrow : db.placements object = none) :
    ∃ e, runSql db (claim object (some expected) owner homeRegion) = (.error e, db) := by
  have hcurrent := runSql_currentClaim_absent hrow
  rw [claim]
  split
  · exact ⟨_, rfl⟩
  · split
    · exact ⟨_, rfl⟩
    · split_ifs
      · exact ⟨_, hcurrent⟩
      · split
        · exact ⟨_, rfl⟩
        · simp only [perform_bind, runSql, Sql.run, hrow]
          exact ⟨_, hcurrent⟩

theorem runSql_commitState {db : Database} {request : StateCommitRequest}
    (hepoch : request.ownerEpoch ≤ i64Max) (hversion : request.expectedVersion < i64Max)
    (hvalid : validateStateCommit request = .ok ()) :
    runSql db (commitState request) =
      match db.placements request.object with
      | none => (.error (.new "actor placement disappeared during state commit"), db)
      | some row =>
        if commitMatches db row request then
          let committed := { row with stateVersion := row.stateVersion + 1, stateObject := some request.stateObject,
                                      lastRequestId := some request.requestId }
          (.ok (.committed (placementFromRow request.object committed)), db.setPlacement request.object committed)
        else
          let current := placementFromRow request.object row
          (.ok (if isReplayedCommit current request then .committed current else .current current), db) := by
  have hargs : (do
      validateStateCommit request
      let _ ← i64TryFrom request.ownerEpoch "object owner epoch exceeds PostgreSQL BIGINT"
      let _ ← i64TryFrom request.expectedVersion "actor state version exceeds PostgreSQL BIGINT"
      pure () : Result Unit) = .ok () := by
    rw [hvalid, i64TryFrom_ok.mpr ⟨hepoch, rfl⟩, i64TryFrom_ok.mpr ⟨hversion.le, rfl⟩]
    rfl
  simp only [commitState, hargs, perform_bind, runSql]
  cases hrow : db.placements request.object with
  | none => simp [Sql.run, hrow, get, runSql, orContext]
  | some row =>
    by_cases hmatch : commitMatches db row request
    · have hsucc : bigintSucc row.stateVersion = .ok (row.stateVersion + 1) := by
        rw [bigintSucc, if_pos (hmatch.2.2.1 ▸ hversion)]
      simp [Sql.run, hrow, hmatch, hsucc, runSql]
    · simp [Sql.run, hrow, hmatch, get, runSql, orContext]

open LocalObjectPlacementStore (record insert Filed)

theorem claim_record {db : Database} {object : ActorStorageKey} {expected : Option ObjectPlacement}
    {owner : HostId} {homeRegion : String} (hobject : object.validate = .ok ())
    (hregion : validateRegion homeRegion = .ok ())
    (hepoch : ∀ e, expected = some e → e.ownerEpoch < i64Max) :
    placements (runSql db (claim object expected owner homeRegion)).2 =
      record (.claim (runSql db (claim object expected owner homeRegion)).1) (placements db) := by
  cases expected with
  | none =>
    rw [runSql_insert hobject hregion]
    cases db.placements object with
    | none => exact placements_setPlacement _ _ _
    | some row => rfl
  | some expected =>
    cases hrow : db.placements object with
    | none =>
      obtain ⟨e, he⟩ := runSql_claim_absent hrow
      rw [he]
      rfl
    | some row =>
      rw [runSql_claim hobject hregion (hepoch expected rfl) hrow]
      split_ifs
      · exact placements_setPlacement _ _ _
      · rfl
      · rfl

theorem commitState_record {db : Database} {request : StateCommitRequest}
    (hepoch : request.ownerEpoch ≤ i64Max) (hversion : request.expectedVersion < i64Max) :
    placements (runSql db (commitState request)).2 =
      record (.commitState (runSql db (commitState request)).1) (placements db) := by
  cases hvalid : validateStateCommit request with
  | error e =>
    have hrun : runSql db (commitState request) = (.error e, db) := by
      rw [commitState, hvalid]
      rfl
    rw [hrun]
    rfl
  | ok u =>
    rw [runSql_commitState hepoch hversion hvalid]
    cases hrow : db.placements request.object with
    | none => rfl
    | some row =>
      have hcurrent : placements db request.object = some (placementFromRow request.object row) := by
        rw [placements, hrow]
        rfl
      dsimp only
      split_ifs
      · exact placements_setPlacement _ _ _
      · exact (LocalObjectPlacementStore.insert_self hcurrent).symm
      · rfl

theorem filed_placements (db : Database) : Filed (placements db) := by
  intro o p hp
  obtain ⟨row, -, rfl⟩ := Option.map_eq_some_iff.mp hp
  rfl

end PostgresObjectPlacementStore

/-! ### When they answer alike -/

namespace LocalObjectPlacementStore

theorem claim_current {placements : Placements} {object : ActorStorageKey} {expected : Option ObjectPlacement}
    {owner : HostId} {homeRegion : String} {current : ObjectPlacement}
    (hregion : validateRegion homeRegion = .ok ())
    (hcurrent : placements object = some current) (hstale : expected ≠ some current) :
    claim placements object expected owner homeRegion = .ok (.current current, placements) := by
  rw [claim, hregion, hcurrent]
  change (if expected = some current then _ else _) = _
  rw [if_neg hstale]
  rfl

/-- A claim of the current placement is answered as PostgreSQL answers it. -/
theorem claim_expected {placements : Placements} {object : ActorStorageKey} {owner : HostId}
    {homeRegion : String} {current : ObjectPlacement} (hregion : validateRegion homeRegion = .ok ())
    (hcurrent : placements object = some current) (hepoch : current.ownerEpoch < i64Max) :
    ((claim placements object (some current) owner homeRegion).map Prod.fst).toOption =
      if current.homeRegion = homeRegion then
        if current.owner = owner then some (.current current)
        else some (.acquired { current with object := object, owner := owner, ownerEpoch := current.ownerEpoch + 1 })
      else none := by
  have hadd : checkedAdd current.ownerEpoch 1 = some (current.ownerEpoch + 1) := by
    have hmax : i64Max ≤ u64Max := by decide
    rw [checkedAdd, if_pos (by omega)]
  rw [claim, hregion, hcurrent]
  change Except.toOption (Except.map _ (if some current = some current then _ else _)) = _
  rw [if_pos rfl]
  by_cases hsame : current.homeRegion = homeRegion
  · rw [ensure_ok.mpr hsame, if_pos hsame]
    by_cases howner : current.owner = owner
    · subst howner
      rw [if_pos rfl, if_pos rfl]
      rfl
    · rw [if_neg howner]
      subst hsame
      simp only [if_neg howner, hadd]
      rfl
  · rw [if_neg hsame, ensure, if_neg hsame]
    rfl

theorem commitState_current {placements : Placements} {request : StateCommitRequest}
    {current : ObjectPlacement} (hvalid : validateStateCommit request = .ok ())
    (hcurrent : placements request.object = some current) :
    ((commitState placements request).map Prod.fst).toOption =
      if isReplayedCommit current request then some (.committed current)
      else if current.owner = request.owner ∧ current.ownerEpoch = request.ownerEpoch ∧
          current.stateVersion = request.expectedVersion then
        (checkedAdd current.stateVersion 1).map fun stateVersion => .committed { current with
          stateVersion := stateVersion, stateObject := some request.stateObject,
          lastRequestId := some request.requestId }
      else some (.current current) := by
  rw [commitState, hvalid, hcurrent]
  change Except.toOption (Except.map _ (if isReplayedCommit current request = true then _ else if _ then _ else _)) = _
  by_cases hreplayed : isReplayedCommit current request = true
  · rw [if_pos hreplayed, if_pos hreplayed]
    rfl
  · rw [if_neg hreplayed, if_neg hreplayed]
    by_cases hmatch : current.owner = request.owner ∧ current.ownerEpoch = request.ownerEpoch ∧
        current.stateVersion = request.expectedVersion
    · rw [if_pos hmatch, if_neg (by tauto)]
      cases checkedAdd current.stateVersion 1 <;> rfl
    · rw [if_neg hmatch, if_pos (by tauto)]
      rfl

end LocalObjectPlacementStore

section Claims

open PostgresObjectPlacementStore

variable {db : Database} {object : ActorStorageKey} {owner : HostId} {homeRegion : String} {row : PlacementRow}

theorem placements_some (h : db.placements object = some row) :
    placements db object = some (placementFromRow object row) := by
  rw [placements, h]
  rfl

theorem placements_none (h : db.placements object = none) : placements db object = none := by
  rw [placements, h]
  rfl

theorem insert_same (hobject : object.validate = .ok ()) (hregion : validateRegion homeRegion = .ok ()) :
    ((LocalObjectPlacementStore.claim (placements db) object none owner homeRegion).map Prod.fst).toOption =
      (runSql db (claim object none owner homeRegion)).1.toOption := by
  rw [runSql_insert hobject hregion]
  cases hrow : db.placements object with
  | none =>
    rw [LocalObjectPlacementStore.claim, hregion, placements_none hrow]
    rfl
  | some row =>
    rw [LocalObjectPlacementStore.claim_current hregion (placements_some hrow) (by simp)]
    rfl

theorem expected_same (hobject : object.validate = .ok ()) (hregion : validateRegion homeRegion = .ok ())
    (hrow : db.placements object = some row) (hepoch : row.ownerEpoch < i64Max) :
    ((LocalObjectPlacementStore.claim (placements db) object (some (placementFromRow object row)) owner
        homeRegion).map Prod.fst).toOption =
      (runSql db (claim object (some (placementFromRow object row)) owner homeRegion)).1.toOption := by
  rw [LocalObjectPlacementStore.claim_expected hregion (placements_some hrow) hepoch,
    runSql_claim hobject hregion hepoch hrow]
  by_cases hsame : row.homeRegion = homeRegion
  · by_cases howner : row.ownerHostId = owner
    · simp [placementFromRow, hsame, howner, Except.toOption]
    · simp [placementFromRow, hsame, howner, Except.toOption]
  · simp [placementFromRow, hsame, Except.toOption]

/-- A stale claim is refused by the local store; PostgreSQL lets it through if the ownership still stands. -/
theorem stale_same_iff {expected : ObjectPlacement} (hobject : object.validate = .ok ())
    (hregion : validateRegion homeRegion = .ok ()) (hrow : db.placements object = some row)
    (hepoch : expected.ownerEpoch < i64Max) (hstale : expected ≠ placementFromRow object row) :
    ((LocalObjectPlacementStore.claim (placements db) object (some expected) owner homeRegion).map
        Prod.fst).toOption = (runSql db (claim object (some expected) owner homeRegion)).1.toOption ↔
      expected.object = object ∧ expected.homeRegion = homeRegion ∧ (expected.owner = owner ∨
        ¬ (row.ownerHostId = expected.owner ∧ row.ownerEpoch = expected.ownerEpoch ∧
          row.homeRegion = expected.homeRegion)) := by
  rw [LocalObjectPlacementStore.claim_current hregion (placements_some hrow) (by simpa using hstale),
    runSql_claim hobject hregion hepoch hrow]
  by_cases hmatch : expected.object = object ∧ expected.homeRegion = homeRegion
  · obtain ⟨rfl, rfl⟩ := hmatch
    rw [if_pos ⟨rfl, rfl⟩]
    split_ifs with hclaimed
    · simp [Except.map, Except.toOption, hclaimed]
    · simp only [Except.map, Except.toOption, true_and, true_iff]
      tauto
  · rw [if_neg hmatch]
    simp only [Except.map, Except.toOption, reduceCtorEq, false_iff]
    tauto

theorem claim_same_iff {m : PlacementMoment} {expected : Option ObjectPlacement}
    (hcall : m.call = .claim object expected owner homeRegion) (hvalid : m.Valid) :
    ((LocalObjectPlacementStore.claim (placements db) object expected owner homeRegion).map Prod.fst).toOption =
      (runSql db (claim object expected owner homeRegion)).1.toOption ↔ m.Settled (placements db) := by
  simp only [PlacementMoment.Valid, hcall] at hvalid
  obtain ⟨hobject, hregion, hepoch⟩ := hvalid
  simp only [PlacementMoment.Settled, hcall]
  cases expected with
  | none => exact iff_of_true (insert_same hobject hregion) trivial
  | some expected =>
    have hepoch := hepoch expected rfl
    cases hrow : db.placements object with
    | none =>
      refine iff_of_true ?_ (by simp [placements_none hrow])
      obtain ⟨e, he⟩ : ∃ e, runSql db (claim object (some expected) owner homeRegion) = (.error e, db) :=
        runSql_claim_absent hrow
      rw [he, LocalObjectPlacementStore.claim, hregion, placements_none hrow]
      rfl
    | some row =>
      dsimp only
      rw [placements_some hrow]
      simp only [Option.some.injEq, forall_eq']
      by_cases hstale : expected = placementFromRow object row
      · refine iff_of_true ?_ (.inl hstale)
        subst hstale
        exact expected_same hobject hregion hrow hepoch
      · rw [stale_same_iff hobject hregion hrow hepoch hstale]
        exact (or_iff_right hstale).symm

/-- A commit is answered alike whatever the order of the two checks: a replay is one version ahead. -/
theorem commit_same {request : StateCommitRequest} (hepoch : request.ownerEpoch ≤ i64Max)
    (hversion : request.expectedVersion < i64Max) (hlease : db.leaseHeld request.owner request.sessionId) :
    ((LocalObjectPlacementStore.commitState (placements db) request).map Prod.fst).toOption =
      (runSql db (commitState request)).1.toOption := by
  cases hvalid : validateStateCommit request with
  | error e =>
    rw [LocalObjectPlacementStore.commitState, commitState, hvalid]
    rfl
  | ok u =>
    rw [runSql_commitState hepoch hversion hvalid]
    cases hrow : db.placements request.object with
    | none =>
      rw [LocalObjectPlacementStore.commitState, hvalid, placements_none hrow]
      rfl
    | some row =>
      have hadd : request.expectedVersion + 1 ≤ u64Max := by
        have hmax : i64Max ≤ u64Max := by decide
        omega
      have hmatch : commitMatches db row request ↔ row.ownerHostId = request.owner ∧
          row.ownerEpoch = request.ownerEpoch ∧ row.stateVersion = request.expectedVersion := by
        constructor
        · intro h
          exact ⟨h.1, h.2.1, h.2.2.1⟩
        · rintro ⟨howner, hrest⟩
          exact ⟨howner, hrest.1, hrest.2, howner ▸ hlease⟩
      rw [LocalObjectPlacementStore.commitState_current hvalid (placements_some hrow)]
      dsimp only
      by_cases hcommit : commitMatches db row request
      · have hheld := hmatch.mp hcommit
        have hne : row.stateVersion ≠ saturatingAdd request.expectedVersion 1 := by
          rw [saturatingAdd, min_eq_left hadd]
          omega
        have hnot : ¬ isReplayedCommit (placementFromRow request.object row) request = true := by
          simp [isReplayedCommit, placementFromRow, hne]
        have hsucc : checkedAdd row.stateVersion 1 = some (row.stateVersion + 1) := by
          rw [checkedAdd, if_pos (hheld.2.2 ▸ hadd)]
        rw [if_neg hnot, if_pos hcommit]
        simp only [placementFromRow, if_pos hheld, hsucc]
        rfl
      · have hmismatch := mt hmatch.mpr hcommit
        rw [if_neg hcommit]
        by_cases hreplayed : isReplayedCommit (placementFromRow request.object row) request = true
        · rw [if_pos hreplayed, if_pos hreplayed]
          rfl
        · rw [if_neg hreplayed, if_neg hreplayed]
          exact if_neg hmismatch

end Claims

/-! ### Runs -/

namespace LocalObjectPlacementStore

theorem call_claim {leases : HostId → Option LeaseRow} {nowMs : ℕ} {placements : Placements}
    {object : ActorStorageKey} {expected : Option ObjectPlacement} {owner : HostId}
    {homeRegion : String} :
    (store.call ⟨leases, nowMs, .claim object expected owner homeRegion⟩ placements).1 =
      .claim ((claim placements object expected owner homeRegion).map Prod.fst) := by
  simp only [store, call]
  cases claim placements object expected owner homeRegion <;> rfl

theorem call_commitState {leases : HostId → Option LeaseRow} {nowMs : ℕ} {placements : Placements}
    {request : StateCommitRequest} : (store.call ⟨leases, nowMs, .commitState request⟩ placements).1 =
      .commitState ((commitState placements request).map Prod.fst) := by
  simp only [store, call]
  cases commitState placements request <;> rfl

end LocalObjectPlacementStore

namespace PostgresObjectPlacementStore

variable {leases : HostId → Option LeaseRow} {nowMs : ℕ} {db : Database}

theorem call_claim {object : ActorStorageKey} {expected : Option ObjectPlacement} {owner : HostId}
    {homeRegion : String} : store.call ⟨leases, nowMs, .claim object expected owner homeRegion⟩ db =
      let r := runSql { db with leases := leases, nowMs := nowMs } (claim object expected owner homeRegion)
      (.claim r.1, r.2) :=
  PostgresHostLeaseStore.runSql_map _ _ _

theorem call_commitState {request : StateCommitRequest} :
    store.call ⟨leases, nowMs, .commitState request⟩ db =
      let r := runSql { db with leases := leases, nowMs := nowMs } (commitState request)
      (.commitState r.1, r.2) :=
  PostgresHostLeaseStore.runSql_map _ _ _

theorem call_record {m : PlacementMoment} (hvalid : m.Valid) :
    placements (store.call m db).2 = LocalObjectPlacementStore.record (store.call m db).1 (placements db) := by
  obtain ⟨leases, nowMs, object | ⟨object, expected, owner, homeRegion⟩ | request⟩ := m
  · rfl
  · obtain ⟨hobject, hregion, hepoch⟩ := hvalid
    rw [call_claim]
    exact claim_record hobject hregion hepoch
  · obtain ⟨hepoch, hversion, -⟩ := hvalid
    rw [call_commitState]
    exact commitState_record hepoch hversion

end PostgresObjectPlacementStore

/-- The local store and the PostgreSQL store, side by side. -/
theorem stores_agreement :
    Machine.Agreement LocalObjectPlacementStore.store PostgresObjectPlacementStore.store
    PlacementAnswer.Same PlacementMoment.Valid PlacementMoment.Settled
    fun placements db => placements = PostgresObjectPlacementStore.placements db where
  init := rfl
  same_iff := by
    rintro ⟨leases, nowMs, object | ⟨object, expected, owner, homeRegion⟩ | request⟩ _ db hvalid rfl
    · exact iff_of_true rfl trivial
    · rw [LocalObjectPlacementStore.call_claim, PostgresObjectPlacementStore.call_claim]
      have hsame : _ ↔ PlacementMoment.Settled _ (PostgresObjectPlacementStore.placements
        { db with leases := leases, nowMs := nowMs }) := claim_same_iff rfl hvalid
      exact hsame
    · obtain ⟨hepoch, hversion, hlease⟩ := hvalid
      refine iff_of_true ?_ trivial
      rw [LocalObjectPlacementStore.call_commitState, PostgresObjectPlacementStore.call_commitState]
      have hheld : ({ db with leases := leases, nowMs := nowMs } : Database).leaseHeld request.owner
        request.sessionId := hlease
      exact commit_same hepoch hversion hheld
  related := by
    rintro m _ db hvalid rfl hsame
    rw [PostgresObjectPlacementStore.call_record hvalid, LocalObjectPlacementStore.record, ← hsame.stored]
    exact LocalObjectPlacementStore.call_record (PostgresObjectPlacementStore.filed_placements db)

/-- The in-memory store stands in for PostgreSQL in the run `moments`: every call is answered
alike, and both end in the same placements. -/
structure StandsIn (moments : List PlacementMoment) : Prop where
  answers : Machine.Each (fun earlier m => (LocalObjectPlacementStore.store.answer earlier m).Same
    (PostgresObjectPlacementStore.store.answer earlier m)) moments
  placements : LocalObjectPlacementStore.store.after moments =
    PostgresObjectPlacementStore.placements (PostgresObjectPlacementStore.store.after moments)

/-- The in-memory store stands in for PostgreSQL exactly in the runs whose claims are settled:
none of them expects a placement of a live ownership that has been committed to since. -/
theorem stands_in_iff {moments : List PlacementMoment} (hvalid : ∀ m ∈ moments, m.Valid) :
    StandsIn moments ↔
      Machine.Each (fun earlier m => m.Settled (LocalObjectPlacementStore.store.after earlier)) moments := by
  constructor
  · intro h
    exact (stores_agreement.each_same_iff hvalid).mp h.answers
  · intro h
    exact ⟨(stores_agreement.each_same_iff hvalid).mpr h, stores_agreement.after_related hvalid h⟩

namespace Handover

def object : ActorStorageKey := ⟨"actor.v1.ns.counter.one"⟩

def leases (host : HostId) : Option LeaseRow :=
  if host = ⟨"host-1"⟩ then some ⟨"session-1", "http://host-1", 60000⟩ else none

def at0 : ObjectPlacement := ⟨object, ⟨"host-1"⟩, 1, "us-east", 0, none, none⟩
def at1 : ObjectPlacement := ⟨object, ⟨"host-1"⟩, 1, "us-east", 1, some "state/1", some "request-1"⟩

def first : PlacementMoment := ⟨leases, 1000, .claim object none ⟨"host-1"⟩ "us-east"⟩
def commit : PlacementMoment :=
  ⟨leases, 2000, .commitState ⟨object, ⟨"host-1"⟩, "session-1", 1, 0, "state/1", "request-1"⟩⟩
def claimFrom (expected : ObjectPlacement) : PlacementMoment :=
  ⟨leases, 3000, .claim object (some expected) ⟨"host-2"⟩ "us-east"⟩

theorem first_valid : first.Valid := ⟨by decide, by decide, nofun⟩

theorem commit_valid : commit.Valid :=
  ⟨by decide, by decide, ⟨"session-1", "http://host-1", 60000⟩, rfl, rfl, by decide⟩

theorem claimFrom_valid {expected : ObjectPlacement} (h : expected.ownerEpoch = 1) :
    (claimFrom expected).Valid := by
  refine ⟨by decide, by decide, ?_⟩
  rintro e ⟨rfl⟩
  rw [h]
  decide

theorem valid {expected : ObjectPlacement} (h : expected.ownerEpoch = 1) :
    ∀ m ∈ [first, commit, claimFrom expected], m.Valid := by
  simp only [List.forall_mem_cons, List.not_mem_nil, false_imp_iff, implies_true, and_true]
  exact ⟨first_valid, commit_valid, claimFrom_valid h⟩

end Handover

open Handover in
/-- A host that reads the placement after the commit takes the actor over in both stores. -/
theorem stands_in_handover : StandsIn [first, commit, claimFrom at1] := by
  rw [stands_in_iff (valid rfl)]
  change Machine.Each _ ((([] ++ [first]) ++ [commit]) ++ [claimFrom at1])
  rw [Machine.each_append, Machine.each_append, Machine.each_append]
  refine ⟨⟨⟨Machine.each_nil, trivial⟩, trivial⟩, fun current hcurrent => .inl ?_⟩
  have hat : LocalObjectPlacementStore.store.after [first, commit] object = some at1 := by decide
  exact Option.some.inj (hat.symm.trans hcurrent)

open Handover in
/-- A host that read the placement before the commit takes the actor over in PostgreSQL only. -/
theorem commit_before_claim_not_alike :
    LocalObjectPlacementStore.store.after [first] object = some at0 ∧
      (∀ m ∈ [first, commit, claimFrom at0], m.Valid) ∧
      LocalObjectPlacementStore.store.answer [first, commit] (claimFrom at0) = .claim (.ok (.current at1)) ∧
      PostgresObjectPlacementStore.store.answer [first, commit] (claimFrom at0) =
        .claim (.ok (.acquired { at1 with owner := ⟨"host-2"⟩, ownerEpoch := 2 })) ∧
      ¬ StandsIn [first, commit, claimFrom at0] := by
  have hlocal : LocalObjectPlacementStore.store.answer [first, commit] (claimFrom at0) =
      .claim (.ok (.current at1)) := by decide
  have hpostgres : PostgresObjectPlacementStore.store.answer [first, commit] (claimFrom at0) =
      .claim (.ok (.acquired { at1 with owner := ⟨"host-2"⟩, ownerEpoch := 2 })) := by decide
  refine ⟨by decide, valid rfl, hlocal, hpostgres, fun h => ?_⟩
  have hsame := h.answers [first, commit] (claimFrom at0) [] rfl
  dsimp only at hsame
  rw [hlocal, hpostgres] at hsame
  cases hsame

end LDO
