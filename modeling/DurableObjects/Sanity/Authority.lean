import DurableObjects.Sanity.Store
import DurableObjects.Spec.ControlPlane

/-! A command of a host as the calls it makes, each with the database before and after it.
Between two calls of one command the database may become any other: the commands of other
hosts run in between. -/

namespace LDO

open Prog

structure ControlEvent where
  op : ControlOp
  answer : op.Res
  before : Database
  after : Database

/-- Only statements change the database. -/
def ControlEvent.Possible : ControlEvent → Prop
  | ⟨.sql statement, r, before, after⟩ => statement.Answers before r after
  | ⟨_, _, before, after⟩ => after = before

/-- The world of a command is the log of its calls, the newest first. -/
def controlEnv : Env ControlOp ControlOp.Res (List ControlEvent) where
  ok _ _ := True
  step log op r log' := ∃ before after, ControlEvent.Possible ⟨op, r, before, after⟩ ∧
    log' = ⟨op, r, before, after⟩ :: log

/-! ### What a command may do -/

/-- What a host token stands for. -/
structure HostAuthority where
  namespaceId : String
  hostId : HostId
  sessionId : String

/-- A lease is registered for the session or removed by it. -/
inductive LeaseMove (sessionId : String) : Option LeaseRow → Option LeaseRow → Prop
  | same (row : Option LeaseRow) : LeaseMove sessionId row row
  | registered {old : Option LeaseRow} {row : LeaseRow} : row.sessionId = sessionId →
      LeaseMove sessionId old (some row)
  | removed {row : LeaseRow} : row.sessionId = sessionId → LeaseMove sessionId (some row) none

/-- No actor of another namespace is filed under the key. -/
def OnlyFor (namespaceId : String) (object : ActorStorageKey) : Prop :=
  ∀ actor : ActorKey, actor.validate = .ok () → actor.storageKey = object → actor.namespaceId = namespaceId

/-- The head of an actor of the namespace, and of none of another, moves on, while the host
owns the actor and the session holds its lease. -/
inductive HeadMove (a : HostAuthority) (db : Database) (object : ActorStorageKey) :
    Option PlacementRow → Option PlacementRow → Prop
  | same (row : Option PlacementRow) : HeadMove a db object row row
  | advanced {actor : ActorKey} {row : PlacementRow} {stateObject requestId : String} : actor.namespaceId = a.namespaceId →
      actor.storageKey = object → OnlyFor a.namespaceId object → row.ownerHostId = a.hostId →
      db.leaseHeld a.hostId a.sessionId →
      HeadMove a db object (some row)
        (some { row with stateVersion := row.stateVersion + 1, stateObject := some stateObject,
                         lastRequestId := some requestId })

/-- The session's lease was read, and was active. -/
def LeaseRead (a : HostAuthority) (past : List ControlEvent) : Prop :=
  ∃ e ∈ past, e.op = .sql (.selectLease a.hostId) ∧ e.before.leaseHeld a.hostId a.sessionId

/-- The last call before left a row that records the host as the actor's owner. -/
def OwnerRecorded (a : HostAuthority) (actor : ActorKey) : List ControlEvent → Prop
  | [] => False
  | e :: _ => ∃ row, e.after.placements actor.storageKey = some row ∧ row.ownerHostId = a.hostId

def ControlOp.isCommandOp : ControlOp → Bool
  | .sql _ => true
  | .unixMillis => true
  | .unixSeconds => true
  | .writeTicket .. => true
  | _ => false

structure Allowed (a : HostAuthority) (past : List ControlEvent) (e : ControlEvent) : Prop where
  op : e.op.isCommandOp = true
  lease : LeaseMove a.sessionId (e.before.leases a.hostId) (e.after.leases a.hostId)
  leases : ∀ id, id ≠ a.hostId → e.after.leases id = e.before.leases id
  heads : ∀ object, HeadMove a e.before object (e.before.placements object) (e.after.placements object)
  ticket : ∀ region actor stateVersion, e.op = .writeTicket region actor stateVersion →
    actor.namespaceId = a.namespaceId ∧ LeaseRead a past ∧ OwnerRecorded a actor past

/-- Every call of the log was within the authority. -/
def Within (a : HostAuthority) : List ControlEvent → Prop
  | [] => True
  | e :: past => Allowed a past e ∧ Within a past

/-! ### Statements -/

/-- The statements a command of the host may send. -/
def StatementAllowed (a : HostAuthority) : Sql → Prop
  | .upsertLease request => request.id = a.hostId ∧ request.sessionId = a.sessionId
  | .deleteLease id sessionId => id = a.hostId ∧ sessionId = a.sessionId
  | .commitHead request => request.owner = a.hostId ∧ request.sessionId = a.sessionId ∧
      OnlyFor a.namespaceId request.object ∧ ∃ actor : ActorKey, actor.namespaceId = a.namespaceId ∧
        actor.storageKey = request.object
  | .selectPlacement _ => True
  | .selectLease _ => True
  | _ => False

variable {a : HostAuthority} {past : List ControlEvent} {statement : Sql} {r : Result statement.Rows} {before after : Database}

theorem leaseMove_of_step {id : HostId} {old new : Option LeaseRow} (hs : StatementAllowed a statement)
    (h : LeaseStep before statement id old new) :
    LeaseMove a.sessionId old new ∧ (id ≠ a.hostId → new = old) := by
  cases h with
  | same => exact ⟨.same _, fun _ => rfl⟩
  | upsert hq hid =>
    subst hq
    exact ⟨.registered hs.2, fun hne => absurd (hid.symm.trans hs.1) hne⟩
  | delete hq =>
    subst hq
    exact ⟨.removed hs.2, fun hne => absurd hs.1 hne⟩

theorem headMove_of_step {object : ActorStorageKey} {old new : Option PlacementRow}
    (hs : StatementAllowed a statement) (h : RowStep before statement object old new) :
    HeadMove a before object old new := by
  cases h with
  | same => exact .same _
  | insert hq => subst hq; exact hs.elim
  | claim hq => subst hq; exact hs.elim
  | commit hq hobject hm =>
    subst hq
    obtain ⟨howner, hsession, honly, actor, hns, hkey⟩ := hs
    obtain ⟨hrow, -, -, hlease⟩ := hm
    rw [hrow, howner, hsession] at hlease
    rw [hobject] at honly hkey
    exact .advanced hns hkey honly (hrow.trans howner) hlease

theorem allowed_statement (hs : StatementAllowed a statement) (h : statement.Answers before r after) :
    Allowed a past ⟨.sql statement, r, before, after⟩ where
  op := rfl
  lease := (leaseMove_of_step hs (leaseStep_of_answers h a.hostId)).1
  leases id hne := (leaseMove_of_step hs (leaseStep_of_answers h id)).2 hne
  heads object := headMove_of_step hs (rowStep_of_answers h object)
  ticket _ _ _ h := nomatch h

/-- A call that leaves the database alone and is no ticket. -/
theorem allowed_quiet {e : ControlEvent} (hop : e.op.isCommandOp = true) (hdb : e.after = e.before)
    (ht : ∀ region actor stateVersion, e.op ≠ .writeTicket region actor stateVersion) : Allowed a past e where
  op := hop
  lease := by rw [hdb]; exact .same _
  leases _ _ := by rw [hdb]
  heads _ := by rw [hdb]; exact .same _
  ticket region actor stateVersion h := absurd h (ht region actor stateVersion)

theorem allowed_ticket_iff {e : ControlEvent} {region : String} {actor : ActorKey} {stateVersion : ℕ}
    (hop : e.op = .writeTicket region actor stateVersion) (hdb : e.after = e.before) :
    Allowed a past e ↔ actor.namespaceId = a.namespaceId ∧ LeaseRead a past ∧ OwnerRecorded a actor past := by
  constructor
  · exact fun h => h.ticket region actor stateVersion hop
  · intro h
    refine ⟨by rw [hop]; rfl, by rw [hdb]; exact .same _, fun _ _ => by rw [hdb], fun _ => by rw [hdb]; exact .same _, ?_⟩
    intro region' actor' stateVersion' hop'
    cases hop.symm.trans hop'
    exact h

/-! ### The calls of a command -/

section Calls

open ControlM

variable {α β : Type} {w : List ControlEvent}

theorem wp_ofResult_bind {W : Type} {E : Env ControlOp ControlOp.Res W} {w : W} {x : Result α}
    {f : α → ControlM β} {Q : Result β → W → Prop} (herror : ∀ e, Q (.error e) w)
    (hok : ∀ a, x = .ok a → wp E (f a).run Q w) :
    wp E (ofResult x >>= f).run Q w := by
  refine wp_except_bind ?_
  cases x with
  | error e => exact herror e
  | ok a => exact hok a rfl

theorem yields_guard {W : Type} {E : Env ControlOp ControlOp.Res W} {x : Result α}
    {f : α → ControlM β} {P : β → Prop} (h : ∀ a, x = .ok a → Yields E (f a) P) :
    Yields E (ofResult x >>= f) P :=
  fun w => wp_ofResult_bind (fun _ _ => nofun) fun a ha => h a ha w

/-- One statement, in a store call. -/
theorem wp_sql {next : Result statement.Rows → StoreM α} {Q : α → List ControlEvent → Prop}
    (h : ∀ r before after, statement.Answers before r after →
      wp controlEnv ((next r).interp fun q => perform (ControlOp.sql q)) Q (⟨.sql statement, r, before, after⟩ :: w)) :
    wp controlEnv ((Prog.call statement next).interp fun q => perform (ControlOp.sql q)) Q w := by
  refine ⟨trivial, ?_⟩
  rintro r _ ⟨before, after, hp, rfl⟩
  exact h r before after hp

theorem selectLease_held {id : HostId} {nowMs : ℕ} {lease : Option LeaseRow} {row : LeaseRow}
    (h : (Sql.selectLease id).Answers before (.ok (nowMs, lease)) after) (hrow : lease = some row)
    (hlive : nowMs < row.expiresAtMs) : before.leaseHeld id row.sessionId := by
  subst hrow
  cases h with
  | rows hr =>
    simp only [Sql.run, Except.ok.injEq, Prod.mk.injEq] at hr
    obtain ⟨⟨rfl, hlease⟩, rfl⟩ := hr
    exact ⟨row, hlease, rfl, hlive⟩

theorem selectPlacement_row {object : ActorStorageKey} {row : Option PlacementRow}
    (h : (Sql.selectPlacement object).Answers before (.ok row) after) :
    before.placements object = row ∧ after = before := by
  cases h with
  | rows hr =>
    simp only [Sql.run, Except.ok.injEq, Prod.mk.injEq] at hr
    exact ⟨hr.1, hr.2.symm⟩

/-- The lease is read once, and the command goes on only if the session holds it. -/
theorem wp_requireActiveHost {principal : ActorPrincipal} {Q : Result HostLease → List ControlEvent → Prop}
    (h : ∀ e r, e.op = .sql (.selectLease principal.hostId) → e.Possible →
      (∀ lease, r = .ok lease → e.before.leaseHeld principal.hostId principal.sessionId) → Q r (e :: w)) :
    wp controlEnv (ControlPlaneService.requireActiveHost principal).run Q w := by
  refine wp_except_bind (wp_sql fun r before after hr => ?_)
  have hquit : ∀ e, Q (.error e) (⟨.sql (.selectLease principal.hostId), r, before, after⟩ :: w) :=
    fun e => h _ _ rfl hr fun _ => nofun
  cases r with
  | error e => exact hquit _
  | ok status =>
    obtain ⟨nowMs, lease⟩ := status
    refine wp_ofResult_bind hquit fun _ hactive => wp_ofResult_bind hquit fun lease' hlease =>
      wp_ofResult_bind hquit fun _ hsession => wp_except_pure (h _ _ rfl hr fun _ _ => ?_)
    cases lease with
    | none => cases orContext_ok.mp hlease
    | some row =>
      obtain rfl := Option.some.inj (orContext_ok.mp hlease)
      have hlive := ensure_ok_iff.mp hactive
      simp only [HostLeaseStatus.isActive, Option.map_some, decide_eq_true_eq] at hlive
      rw [← ensure_ok_iff.mp hsession]
      exact selectLease_held hr rfl hlive

theorem wp_currentPlacement {actor : ActorKey} {Q : Result ObjectPlacement → List ControlEvent → Prop}
    (h : ∀ e r, e.op = .sql (.selectPlacement actor.storageKey) → e.Possible →
      (∀ placement, r = .ok placement → ∃ row, e.after.placements actor.storageKey = some row ∧
        placement = placementFromRow actor.storageKey row) → Q r (e :: w)) :
    wp controlEnv (ControlPlaneService.currentPlacement actor).run Q w := by
  refine wp_except_bind (wp_sql fun r before after hr => ?_)
  have hquit : ∀ e, Q (.error e) (⟨.sql (.selectPlacement actor.storageKey), r, before, after⟩ :: w) :=
    fun e => h _ _ rfl hr fun _ => nofun
  cases r with
  | error e => exact hquit _
  | ok row =>
    obtain ⟨hrow, hdb⟩ := selectPlacement_row hr
    change Q (orContext (row.map _) _) _
    refine h _ _ rfl hr fun placement hp => ?_
    obtain ⟨row', rfl, hplacement⟩ := Option.map_eq_some_iff.mp (orContext_ok.mp hp)
    exact ⟨row', by rw [hdb]; exact hrow, hplacement.symm⟩

/-- A ticket is asked for, unless the version is the last. -/
theorem wp_stateWriteTicket {region : String} {actor : ActorKey} {expectedVersion : ℕ}
    {Q : Result StateWriteTicket → List ControlEvent → Prop}
    (hoverflow : ∀ e, u64Max < expectedVersion + 1 → Q (.error e) w)
    (h : ∀ e r, e.op = .writeTicket region actor (expectedVersion + 1) → e.after = e.before → Q r (e :: w)) :
    wp controlEnv (ControlPlaneService.stateWriteTicket region actor expectedVersion).run Q w := by
  by_cases hle : expectedVersion + 1 ≤ u64Max
  · have hadd : checkedAdd expectedVersion 1 = some (expectedVersion + 1) := if_pos hle
    simp only [ControlPlaneService.stateWriteTicket, hadd]
    refine ⟨trivial, ?_⟩
    rintro r _ ⟨before, after, hp, rfl⟩
    exact h _ _ rfl hp
  · have hadd : checkedAdd expectedVersion 1 = none := if_neg hle
    simp only [ControlPlaneService.stateWriteTicket, hadd]
    exact hoverflow _ (not_le.mp hle)

theorem commitHead_row {request : StateCommitRequest} {row : PlacementRow}
    (h : (Sql.commitHead request).Answers before (.ok (some row)) after) :
    after.placements request.object = some row ∧ row.ownerHostId = request.owner := by
  cases h with
  | rows hr =>
    simp only [Sql.run] at hr
    split at hr
    · cases hr
    · split_ifs at hr with hm
      · split at hr
        · cases hr
        · cases hr
          exact ⟨by simp [Database.setPlacement], hm.1⟩
      · cases hr

/-- What a commit that moved no row makes of the row it finds. -/
def afterRefusal (request : StateCommitRequest) : Result (Option PlacementRow) → Result StateCommit
  | .error e => .error (e.context "load PostgreSQL object placement")
  | .ok none => .error (.new "actor placement disappeared during state commit")
  | .ok (some row) => .ok (if isReplayedCommit (placementFromRow request.object row) request
      then .committed (placementFromRow request.object row) else .current (placementFromRow request.object row))

theorem wp_commitStore {request : StateCommitRequest} {Q : Result StateCommit → List ControlEvent → Prop}
    (hinvalid : ∀ e, Q (.error e) w)
    (hmoved : ∀ e r, request.expectedVersion ≤ i64Max → e.op = .sql (.commitHead request) → e.Possible →
      (∀ c, r = .ok c → ∃ row, c = .committed (placementFromRow request.object row) ∧
        e.after.placements request.object = some row ∧ row.ownerHostId = request.owner) → Q r (e :: w))
    (hrefused : ∀ e r before after, request.expectedVersion ≤ i64Max → e.op = .sql (.commitHead request) → e.Possible →
      (Sql.selectPlacement request.object).Answers before r after →
      Q (afterRefusal request r) (⟨.sql (.selectPlacement request.object), r, before, after⟩ :: e :: w)) :
    wp controlEnv (store (PostgresObjectPlacementStore.commitState request)).run Q w := by
  unfold PostgresObjectPlacementStore.commitState
  split
  · exact hinvalid _
  · rename_i hvalid
    simp only [bind_ok, i64TryFrom_ok] at hvalid
    obtain ⟨-, -, -, -, version, ⟨hversion, -⟩, -⟩ := hvalid
    refine wp_sql fun r before after hr => ?_
    cases r with
    | error e => exact hmoved _ _ hversion rfl hr fun _ => nofun
    | ok moved =>
      cases moved with
      | some row =>
        refine hmoved _ _ hversion rfl hr fun c hc => ?_
        cases hc
        exact ⟨row, rfl, commitHead_row hr⟩
      | none =>
        refine wp_sql fun r' before' after' hr' => ?_
        have h := hrefused ⟨.sql (.commitHead request), .ok none, before, after⟩ r' before' after' hversion rfl hr hr'
        cases r' with
        | error e => exact h
        | ok row =>
          cases row with
          | none => exact h
          | some row => exact h

/-- The log of a command that has read nothing but the clock. -/
def ClockOnly (log : List ControlEvent) : Prop := ∀ e ∈ log, e.op = .unixSeconds ∧ e.after = e.before

theorem wp_authenticate {service : ControlPlaneService} {token : ActorJwt}
    {Q : Result ActorPrincipal → List ControlEvent → Prop}
    (h : ∀ r log, ClockOnly log → (∀ principal, r = .ok principal → ∃ decodedAt now,
      service.auth.authenticate service.parsers decodedAt now token = .ok principal) → Q r log) :
    wp controlEnv (service.authenticate token).run Q [] := by
  refine wp_except_bind ⟨trivial, ?_⟩
  rintro r _ ⟨before, after, hp, rfl⟩
  have hfirst : ClockOnly [⟨.unixSeconds, r, before, after⟩] := by
    intro e he
    obtain rfl := List.mem_singleton.mp he
    exact ⟨rfl, hp⟩
  cases r with
  | error e => exact h _ _ hfirst fun _ => nofun
  | ok decodedAt =>
    refine wp_except_bind ⟨trivial, ?_⟩
    rintro r' _ ⟨before', after', hp', rfl⟩
    have hboth : ClockOnly [⟨.unixSeconds, r', before', after'⟩, ⟨.unixSeconds, .ok decodedAt, before, after⟩] := by
      intro e he
      rcases List.mem_cons.mp he with rfl | he
      · exact ⟨rfl, hp'⟩
      · exact hfirst e he
    cases r' with
    | error e => exact h _ _ hboth fun _ => nofun
    | ok now =>
      exact h (service.auth.authenticate service.parsers decodedAt now token) _ hboth
        fun principal hp => ⟨decodedAt, now, hp⟩

/-! ### Commands -/

def ActorPrincipal.authority (principal : ActorPrincipal) : HostAuthority :=
  ⟨principal.scope.namespaceId, principal.hostId, principal.sessionId⟩

/-- A token in the reply renews the one the command came with. -/
def Renews (service : ControlPlaneService) (a : HostAuthority) (r : Result ControlPlaneCommandReply) : Prop :=
  ∀ lease token, r = .ok (.lease lease (some token)) → ∃ issuer, service.hostTokenIssuer = some issuer ∧
    ∃ nowMs codeRevision region expiresAtMs, (0 : ℤ) ≤ nowMs ∧
      issuer.issueHost nowMs a.namespaceId a.hostId a.sessionId codeRevision region = .ok ⟨token, expiresAtMs⟩

variable {service : ControlPlaneService} {principal : ActorPrincipal}

theorem ClockOnly.within (h : ClockOnly w) : Within a w := by
  induction w with
  | nil => trivial
  | cons e past ih =>
    obtain ⟨hop, hdb⟩ := h e List.mem_cons_self
    refine ⟨allowed_quiet ?_ hdb ?_, ih fun e he => h e (List.mem_cons_of_mem _ he)⟩
    · rw [hop]; rfl
    · rw [hop]; exact fun _ _ _ => nofun

theorem within_sql {e : ControlEvent} (hw : Within a w) (hop : e.op = .sql statement) (hp : e.Possible)
    (hs : StatementAllowed a statement) : Within a (e :: w) := by
  obtain ⟨op, r, before, after⟩ := e
  subst hop
  exact ⟨allowed_statement hs hp, hw⟩

theorem within_replacementHostToken (hw : Within principal.authority w) :
    wp controlEnv (service.replacementHostToken principal).run (fun r log => Within principal.authority log ∧
      ∀ token, r = .ok (some token) → ∃ issuer, service.hostTokenIssuer = some issuer ∧
        ∃ nowMs codeRevision region expiresAtMs, (0 : ℤ) ≤ nowMs ∧
        issuer.issueHost nowMs principal.scope.namespaceId
          principal.hostId principal.sessionId codeRevision region = .ok ⟨token, expiresAtMs⟩) w := by
  refine wp_except_bind ⟨trivial, ?_⟩
  rintro r _ ⟨before, after, hp, rfl⟩
  have hw' : Within principal.authority (⟨.unixSeconds, r, before, after⟩ :: w) :=
    ⟨allowed_quiet rfl hp fun _ _ _ => nofun, hw⟩
  cases r with
  | error e => exact ⟨hw', fun _ => nofun⟩
  | ok now =>
    rw [wp_ret]
    dsimp only
    split_ifs with hlong
    · exact ⟨hw', fun _ => nofun⟩
    · refine wp_ofResult_bind (fun e => ⟨hw', fun _ => nofun⟩) fun issuer hissuer =>
        wp_ofResult_bind (fun e => ⟨hw', fun _ => nofun⟩) fun codeRevision _ => wp_except_bind ⟨trivial, ?_⟩
      rintro r' _ ⟨before', after', hp', rfl⟩
      have hw'' : Within principal.authority (⟨.unixMillis, r', before', after'⟩ :: ⟨.unixSeconds, .ok now, before, after⟩ :: w) :=
        ⟨allowed_quiet rfl hp' fun _ _ _ => nofun, hw'⟩
      cases r' with
      | error e => exact ⟨hw'', fun _ => nofun⟩
      | ok nowMs =>
        refine wp_ofResult_bind (fun e => ⟨hw'', fun _ => nofun⟩) fun issued hissued =>
          ⟨hw'', fun token ht => ?_⟩
        obtain rfl := Option.some.inj (Except.ok.inj ht)
        exact ⟨issuer, orContext_ok.mp hissuer, nowMs, codeRevision, principal.region,
          issued.expiresAtMs, Int.natCast_nonneg _, hissued⟩

theorem within_registerLease {request : HostLeaseRequest} (hw : Within principal.authority w) :
    wp controlEnv (service.registerLease principal request).run
      (fun r log => Within principal.authority log ∧ Renews service principal.authority r) w := by
  refine wp_ofResult_bind (fun e => ⟨hw, fun _ _ => nofun⟩) fun _ hid =>
    wp_ofResult_bind (fun e => ⟨hw, fun _ _ => nofun⟩)
    fun _ hsession => wp_ofResult_bind (fun e => ⟨hw, fun _ _ => nofun⟩) fun _ _ => wp_except_bind ?_
  have hs : StatementAllowed principal.authority (.upsertLease request) :=
    ⟨ensure_ok_iff.mp hid, ensure_ok_iff.mp hsession⟩
  unfold PostgresHostLeaseStore.register
  split
  · exact ⟨hw, fun _ _ => nofun⟩
  · refine wp_sql fun r before after hr => ?_
    have hw' := within_sql hw (e := ⟨.sql (.upsertLease request), r, before, after⟩) rfl hr hs
    cases r with
    | error e => exact ⟨hw', fun _ _ => nofun⟩
    | ok expires =>
      cases expires with
      | none => exact ⟨hw', fun _ _ => nofun⟩
      | some expiresAtMs =>
        refine wp_except_bind (wp_mono (within_replacementHostToken hw') fun r' log ⟨hlog, hrenews⟩ => ?_)
        cases r' with
        | error e => exact ⟨hlog, fun _ _ => nofun⟩
        | ok replacement =>
          refine ⟨hlog, fun lease token ht => ?_⟩
          obtain ⟨-, rfl⟩ := ControlPlaneCommandReply.lease.inj (Except.ok.inj ht)
          exact hrenews token rfl

theorem within_unregisterLease (service : ControlPlaneService) {hostId : HostId}
    (hw : Within principal.authority w) :
    wp controlEnv (ControlPlaneService.unregisterLease principal hostId).run
      (fun r log => Within principal.authority log ∧ Renews service principal.authority r) w := by
  refine wp_ofResult_bind (fun e => ⟨hw, fun _ _ => nofun⟩) fun _ hid =>
    wp_except_bind (wp_sql fun r before after hr => ?_)
  have hw' := within_sql hw (e := ⟨.sql (.deleteLease hostId principal.sessionId), r, before, after⟩) rfl hr
    ⟨ensure_ok_iff.mp hid, rfl⟩
  cases r with
  | error e => exact ⟨hw', fun _ _ => nofun⟩
  | ok rows => exact ⟨hw', fun _ _ => nofun⟩

theorem contains_namespace {actor : ActorKey} {message : String} {u : Unit}
    (h : ensure (principal.scope.contains actor) message = .ok u) :
    actor.namespaceId = principal.authority.namespaceId :=
  of_decide_eq_true (ensure_ok_iff.mp h)

theorem within_prepareStateWrite (service : ControlPlaneService) {actor : ActorKey} {hostId : HostId}
    {ownerEpoch expectedVersion : ℕ} (hw : Within principal.authority w) :
    wp controlEnv (ControlPlaneService.prepareStateWrite principal actor hostId ownerEpoch expectedVersion).run
      (fun r log => Within principal.authority log ∧ Renews service principal.authority r) w := by
  refine wp_ofResult_bind (fun e => ⟨hw, fun _ _ => nofun⟩) fun _ _ =>
    wp_ofResult_bind (fun e => ⟨hw, fun _ _ => nofun⟩)
    fun _ hscope => wp_ofResult_bind (fun e => ⟨hw, fun _ _ => nofun⟩) fun _ hid => wp_except_bind
    (wp_requireActiveHost fun e r hop hp hheld => ?_)
  have hw' := within_sql hw hop hp trivial
  cases r with
  | error e => exact ⟨hw', fun _ _ => nofun⟩
  | ok lease =>
    refine wp_except_bind (wp_currentPlacement fun e' r' hop' hp' hfound => ?_)
    have hw'' := within_sql hw' hop' hp' trivial
    cases r' with
    | error e => exact ⟨hw'', fun _ _ => nofun⟩
    | ok placement =>
      obtain ⟨row, hrow, rfl⟩ := hfound placement rfl
      refine wp_ofResult_bind (fun e => ⟨hw'', fun _ _ => nofun⟩) fun _ howner => wp_ofResult_bind
        (fun e => ⟨hw'', fun _ _ => nofun⟩) fun _ _ => wp_except_bind (wp_stateWriteTicket
          (fun e _ => ⟨hw'', fun _ _ => nofun⟩) fun e'' r'' hop'' hdb => ?_)
      have hlog : Within principal.authority (e'' :: e' :: e :: w) := by
        refine ⟨(allowed_ticket_iff hop'' hdb).mpr ⟨contains_namespace hscope, ?_, row, hrow, ?_⟩, hw''⟩
        · exact ⟨e, by simp, hop, hheld lease rfl⟩
        · simp only [validateStateOwner, bind_ok, ensure_ok_iff] at howner
          obtain ⟨-, howner, -⟩ := howner
          exact howner.trans (ensure_ok_iff.mp hid)
      cases r'' with
      | error e => exact ⟨hlog, fun _ _ => nofun⟩
      | ok ticket => exact ⟨hlog, fun _ _ => nofun⟩

/-- The commit a command asks for. -/
def ControlPlaneCommand.commits (sessionId : String) : ControlPlaneCommand → Option StateCommitRequest
  | .commitState actor hostId ownerEpoch expectedVersion stateObject requestId =>
    some ⟨actor.storageKey, hostId, sessionId, ownerEpoch, expectedVersion, stateObject, requestId⟩
  | _ => none

/-- A commit is for an actor whose storage key no actor of another namespace has. -/
def ControlPlaneCommand.Unshared : ControlPlaneCommand → Prop
  | .commitState actor .. => OnlyFor actor.namespaceId actor.storageKey
  | _ => True

/-- A commit that moved no row found it repeated in a row that records another owner. -/
def RepeatedElsewhere (a : HostAuthority) (command : ControlPlaneCommand) (log : List ControlEvent) : Prop :=
  ∃ request row before after, command.commits a.sessionId = some request ∧
    (⟨.sql (.selectPlacement request.object), .ok (some row), before, after⟩ : ControlEvent) ∈ log ∧
    isReplayedCommit (placementFromRow request.object row) request = true ∧ row.ownerHostId ≠ a.hostId

/-- Until it looks for a repetition, a commit reads no row. -/
def ReadsNoRow (log : List ControlEvent) : Prop := ∀ e ∈ log, ∀ object, e.op ≠ .sql (.selectPlacement object)

theorem ReadsNoRow.cons {e : ControlEvent} (h : ReadsNoRow w)
    (he : ∀ object, e.op ≠ .sql (.selectPlacement object)) :
    ReadsNoRow (e :: w) := by
  intro e' he'
  rcases List.mem_cons.mp he' with rfl | he'
  · exact he
  · exact h e' he'

theorem ClockOnly.readsNoRow (h : ClockOnly w) : ReadsNoRow w := by
  intro e he object hop
  cases (h e he).1.symm.trans hop

theorem ReadsNoRow.not_repeated {command : ControlPlaneCommand} (h : ReadsNoRow w) :
    ¬ RepeatedElsewhere a command w := by
  rintro ⟨request, row, before, after, -, hmem, -⟩
  exact h _ hmem _ rfl

theorem ReadsNoRow.iff (h : ReadsNoRow w) (command : ControlPlaneCommand) (hw : Within a w) :
    Within a w ↔ ¬ RepeatedElsewhere a command w :=
  iff_of_true hw h.not_repeated

theorem repeated_cons_iff {command : ControlPlaneCommand} {request : StateCommitRequest}
    {r : Result (Option PlacementRow)} (hn : ReadsNoRow w)
    (hc : command.commits a.sessionId = some request) :
    RepeatedElsewhere a command (⟨.sql (.selectPlacement request.object), r, before, after⟩ :: w) ↔
      ∃ row, r = .ok (some row) ∧ isReplayedCommit (placementFromRow request.object row) request = true ∧
        row.ownerHostId ≠ a.hostId := by
  constructor
  · rintro ⟨request', row, before', after', hc', hmem, hreplayed, howner⟩
    obtain rfl := Option.some.inj (hc.symm.trans hc')
    rcases List.mem_cons.mp hmem with heq | hmem
    · cases heq
      exact ⟨row, rfl, hreplayed, howner⟩
    · exact absurd rfl (hn _ hmem _)
  · rintro ⟨row, rfl, hreplayed, howner⟩
    exact ⟨request, row, before, after, hc, List.mem_cons_self, hreplayed, howner⟩

theorem repeated_cons_other {command : ControlPlaneCommand} {e : ControlEvent}
    (he : ∀ object, e.op ≠ .sql (.selectPlacement object)) :
    RepeatedElsewhere a command (e :: w) ↔ RepeatedElsewhere a command w := by
  constructor
  · rintro ⟨request, row, before, after, hc, hmem, hrest⟩
    rcases List.mem_cons.mp hmem with rfl | hmem
    · exact absurd rfl (he _)
    · exact ⟨request, row, before, after, hc, hmem, hrest⟩
  · rintro ⟨request, row, before, after, hc, hmem, hrest⟩
    exact ⟨request, row, before, after, hc, List.mem_cons_of_mem _ hmem, hrest⟩

theorem wp_nextWrite {actor : ActorKey} {placement : ObjectPlacement}
    {Q : Result (Option StateWriteTicket) → List ControlEvent → Prop}
    (hoverflow : u64Max < placement.stateVersion + 1 → Q (.ok none) w)
    (h : ∀ e r, e.op = .writeTicket placement.homeRegion actor (placement.stateVersion + 1) → e.after = e.before →
      Q (.ok r) (e :: w)) :
    wp controlEnv (ControlPlaneService.nextWrite actor placement).run Q w := by
  refine wp_tryCatch (wp_except_bind (wp_stateWriteTicket (fun e => hoverflow) fun e r hop hdb => ?_))
  cases r with
  | error _ => exact h e none hop hdb
  | ok ticket => exact h e (some ticket) hop hdb

/-- After a repetition there is room for another version. -/
theorem replayed_room {object : ActorStorageKey} {row : PlacementRow} {request : StateCommitRequest}
    (h : isReplayedCommit (placementFromRow object row) request = true)
    (hmax : request.expectedVersion ≤ i64Max) :
    ¬ u64Max < (placementFromRow object row).stateVersion + 1 := by
  simp only [isReplayedCommit, Bool.and_eq_true, decide_eq_true_eq] at h
  rw [h.1.1]
  simp only [saturatingAdd, u64Max, i64Max] at *
  omega

theorem owner_decides {e : ControlEvent} {actor : ActorKey} {row : PlacementRow}
    (hns : actor.namespaceId = a.namespaceId) (hread : LeaseRead a (e :: past))
    (hrow : e.before.placements actor.storageKey = some row ∧ e.after = e.before) :
    actor.namespaceId = a.namespaceId ∧ LeaseRead a (e :: past) ∧ OwnerRecorded a actor (e :: past) ↔
      row.ownerHostId = a.hostId := by
  obtain ⟨hrow, hdb⟩ := hrow
  constructor
  · rintro ⟨-, -, row', hrow', howner⟩
    rw [hdb, hrow] at hrow'
    obtain rfl := Option.some.inj hrow'
    exact howner
  · exact fun howner => ⟨hns, hread, row, by rw [hdb]; exact hrow, howner⟩

/-- A commit stays within the authority exactly if it is not found repeated under another owner. -/
theorem commitState_within_iff {actor : ActorKey} {hostId : HostId} {ownerEpoch expectedVersion : ℕ}
    {stateObject requestId : String} (hkey : OnlyFor actor.namespaceId actor.storageKey)
    (hw : Within principal.authority w)
    (hn : ReadsNoRow w) :
    wp controlEnv (ControlPlaneService.commitState principal actor hostId ownerEpoch expectedVersion stateObject
        requestId).run
      (fun r log => (Within principal.authority log ↔ ¬ RepeatedElsewhere principal.authority
        (.commitState actor hostId ownerEpoch expectedVersion stateObject requestId) log) ∧
        Renews service principal.authority r) w := by
  have hquit := hn.iff (.commitState actor hostId ownerEpoch expectedVersion stateObject requestId) hw
  refine wp_ofResult_bind (fun e => ⟨hquit, fun _ _ => nofun⟩) fun _ _ => wp_ofResult_bind
    (fun e => ⟨hquit, fun _ _ => nofun⟩) fun _ hscope => wp_ofResult_bind (fun e => ⟨hquit, fun _ _ => nofun⟩)
    fun _ hid => wp_except_bind (wp_requireActiveHost fun e r hop hp hheld => ?_)
  replace hw := within_sql hw hop hp trivial
  replace hn := hn.cons (e := e) fun object h => by cases hop.symm.trans h
  replace hquit := hn.iff (.commitState actor hostId ownerEpoch expectedVersion stateObject requestId) hw
  cases r with
  | error e => exact ⟨hquit, fun _ _ => nofun⟩
  | ok lease =>
    have hns := contains_namespace hscope
    rw [hns] at hkey
    have hhost : hostId = principal.authority.hostId := ensure_ok_iff.mp hid
    have hread : ∀ past, LeaseRead principal.authority (past ++ e :: w) :=
      fun past => ⟨e, by simp, hop, hheld lease rfl⟩
    refine wp_ofResult_bind (fun e => ⟨hquit, fun _ _ => nofun⟩) fun stateVersion _ => wp_ofResult_bind
      (fun e => ⟨hquit, fun _ _ => nofun⟩) fun _ _ =>
        wp_except_bind (wp_commitStore (fun e => ⟨hquit, fun _ _ => nofun⟩)
        (fun e' r' _ hop' hp' hrow => ?_) fun e' r' before after hmax hop' hp' hselect => ?_)
    · -- the row moved, in the hands of this host
      replace hw := within_sql hw hop' hp' ⟨hhost, rfl, hkey, actor, hns, rfl⟩
      replace hn := hn.cons (e := e') fun object h => by cases hop'.symm.trans h
      replace hquit := hn.iff (.commitState actor hostId ownerEpoch expectedVersion stateObject requestId) hw
      cases r' with
      | error e => exact ⟨hquit, fun _ _ => nofun⟩
      | ok c =>
        obtain ⟨row, rfl, hrow, howner⟩ := hrow c rfl
        refine wp_except_bind (wp_nextWrite (fun _ => ⟨hquit, fun _ _ => nofun⟩) fun e'' r'' hop'' hdb => ?_)
        refine ⟨(hn.cons fun object h => by cases hop''.symm.trans h).iff _ ⟨?_, hw⟩, fun _ _ => nofun⟩
        exact (allowed_ticket_iff hop'' hdb).mpr ⟨hns, hread [e'], row, hrow, howner.trans hhost⟩
    · -- no row moved: what the row says decides
      replace hw := within_sql hw hop' hp' ⟨hhost, rfl, hkey, actor, hns, rfl⟩
      replace hn := hn.cons (e := e') fun object h => by cases hop'.symm.trans h
      have hw' := within_sql hw (e := ⟨.sql (.selectPlacement actor.storageKey), r', before, after⟩) rfl hselect trivial
      have hrepeated := @repeated_cons_iff principal.authority before after _
        (.commitState actor hostId ownerEpoch expectedVersion stateObject requestId) _ r' hn rfl
      cases r' with
      | error e => exact ⟨iff_of_true hw' (by rw [hrepeated]; nofun), fun _ _ => nofun⟩
      | ok row =>
        cases row with
        | none => exact ⟨iff_of_true hw' (by rw [hrepeated]; nofun), fun _ _ => nofun⟩
        | some row =>
          by_cases hreplayed : isReplayedCommit (placementFromRow actor.storageKey row)
              ⟨actor.storageKey, hostId, principal.sessionId, ownerEpoch, expectedVersion, stateObject, requestId⟩ = true
          · simp only [afterRefusal, hreplayed, if_true]
            refine wp_except_bind (wp_nextWrite (fun hover => ?_) fun e'' r'' hop'' hdb => ?_)
            · exact absurd hover (replayed_room hreplayed hmax)
            · refine ⟨?_, fun _ _ => nofun⟩
              have hticket := (allowed_ticket_iff hop'' hdb).trans (owner_decides
                (e := ⟨.sql (.selectPlacement actor.storageKey), .ok (some row), before, after⟩) hns (hread [_, e'])
                (selectPlacement_row hselect))
              rw [repeated_cons_other (fun object h => by cases hop''.symm.trans h), hrepeated]
              constructor
              · rintro ⟨hallowed, -⟩ ⟨row', hrow, -, hne⟩
                cases hrow
                exact hne (hticket.mp hallowed)
              · exact fun hno => ⟨hticket.mpr (by_contra fun hne => hno ⟨row, rfl, hreplayed, hne⟩), hw'⟩
          · simp only [afterRefusal, hreplayed]
            refine ⟨iff_of_true hw' ?_, fun _ _ => nofun⟩
            rw [hrepeated]
            rintro ⟨row', hrow, hyes, -⟩
            cases hrow
            exact hreplayed hyes

end Calls

end LDO
