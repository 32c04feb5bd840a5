import DurableObjects.Sanity.Authority
import DurableObjects.Sanity.Credentials
import DurableObjects.Spec.Targets

/-! What every reachable state of the two tables has: a row names a snapshot exactly if its
version is not zero, and the sessions of leases are UUIDs. From this follows what a
resolution can find on its way. -/

namespace LDO

open Prog ControlM

variable {service : ControlPlaneService} {parsers : Parsers}

structure DbOk (parsers : Parsers) (db : Database) : Prop where
  head : ∀ object row, db.placements object = some row → (row.stateVersion = 0 ↔ row.stateObject = none)
  session : ∀ id row, db.leases id = some row → parsers.isUuid row.sessionId = true

theorem dbOk_answers {db db' : Database} {sql : Sql} {r : Result sql.Rows} (hok : DbOk parsers db)
    (hsql : ∀ request, sql = .upsertLease request → parsers.isUuid request.sessionId = true)
    (h : sql.Answers db r db') :
    DbOk parsers db' := by
  constructor
  · intro object row hrow
    have hstep := rowStep_of_answers h object
    generalize hold : db.placements object = old at hstep
    rw [hrow] at hstep
    cases hstep with
    | same => exact hok.head object row hold
    | insert => simp
    | @claim old => exact hok.head object old hold
    | commit => simp
  · intro id row hrow
    have hstep := leaseStep_of_answers h id
    generalize hold : db.leases id = old at hstep
    rw [hrow] at hstep
    cases hstep with
    | same => exact hok.session id row hold
    | upsert hq => exact hsql _ hq

/-! ### Only UUIDs are registered -/

def registerEnv (parsers : Parsers) : Env ControlOp ControlOp.Res Unit where
  ok _ op := ∀ request, op = .sql (.upsertLease request) → parsers.isUuid request.sessionId = true
  step _ _ _ _ := True

/-- The program registers no session that is not a UUID, whatever it is answered. -/
abbrev Registers {α : Type} (parsers : Parsers) (x : ControlM α) : Prop :=
  Yields (registerEnv parsers) x fun _ => True

section Registers

variable {α β : Type} {x : ControlM α} {f : α → ControlM β}

theorem Registers.next (hx : Registers parsers x) (hf : ∀ a, Registers parsers (f a)) :
    Registers parsers (x >>= f) :=
  Yields.bind hx fun a _ => hf a

theorem Registers.ofResult (r : Result α) : Registers parsers (ControlM.ofResult r) := fun _ _ _ => trivial

/-- A store call that registers nothing. -/
theorem Registers.store {p : StoreM (Result α)}
    (h : wp ⟨fun _ sql => ∀ request, sql ≠ .upsertLease request, fun _ _ _ _ => True⟩ p (fun _ (_ : Unit) => True) ()) :
    Registers parsers (ControlM.store p) := by
  refine fun _ => wp_mono (wp_interp (fun w sql hsql => ?_) h) fun _ _ _ _ _ => trivial
  refine ⟨fun request hop => ?_, fun _ _ _ => trivial⟩
  cases hop
  exact absurd rfl (hsql request)

end Registers

theorem registers_get (object : ActorStorageKey) :
    Registers parsers (store (PostgresObjectPlacementStore.get object)) := by
  refine .store ⟨fun _ => nofun, fun r _ _ => ?_⟩
  cases r <;> trivial

theorem registers_leaseStatus (id : HostId) :
    Registers parsers (store (PostgresHostLeaseStore.leaseStatus id)) := by
  refine .store ⟨fun _ => nofun, fun r _ _ => ?_⟩
  cases r <;> trivial

theorem registers_unregister (id : HostId) (sessionId : String) :
    Registers parsers (store (PostgresHostLeaseStore.unregister id sessionId)) := by
  refine .store ⟨fun _ => nofun, fun r _ _ => ?_⟩
  cases r <;> trivial

theorem registers_claim (object : ActorStorageKey) (expected : Option ObjectPlacement)
    (owner : HostId) (region : String) :
    Registers parsers (store (PostgresObjectPlacementStore.claim object expected owner region)) := by
  have hcurrent : wp ⟨fun _ sql => ∀ request, sql ≠ .upsertLease request, fun _ _ _ _ => True⟩
      (PostgresObjectPlacementStore.currentClaim object) (fun _ (_ : Unit) => True) () := by
    refine ⟨fun _ => nofun, fun r _ _ => ?_⟩
    cases r <;> trivial
  refine .store ?_
  unfold PostgresObjectPlacementStore.claim
  split
  · trivial
  · split
    · refine ⟨fun _ => nofun, fun r _ _ => ?_⟩
      rcases r with e | (_ | row)
      · trivial
      · exact hcurrent
      · trivial
    · split
      · trivial
      · split_ifs
        · exact hcurrent
        · split
          · trivial
          · refine ⟨fun _ => nofun, fun r _ _ => ?_⟩
            rcases r with e | (_ | row)
            · trivial
            · exact hcurrent
            · trivial

theorem registers_commitState (request : StateCommitRequest) :
    Registers parsers (store (PostgresObjectPlacementStore.commitState request)) := by
  refine .store ?_
  unfold PostgresObjectPlacementStore.commitState
  split
  · trivial
  · refine ⟨fun _ => nofun, fun r _ _ => ?_⟩
    rcases r with e | (_ | row)
    · trivial
    · refine ⟨fun _ => nofun, fun r _ _ => ?_⟩
      rcases r with e | (_ | row) <;> trivial
    · trivial

/-- A call that is no statement. -/
theorem registers_call {α : Type} {op : ControlOp} {next : op.Res → Prog ControlOp ControlOp.Res (Result α)}
    (hop : ∀ sql, op ≠ .sql sql) (hnext : ∀ r, ∃ a, next r = .ret a) :
    Registers parsers (ExceptT.mk (Prog.call op next) : ControlM α) :=
  .call (fun _ _ h => absurd h (hop _)) fun r => ⟨_, (hnext r).choose_spec, fun _ _ _ _ _ => trivial⟩

theorem registers_unixSeconds : Registers parsers unixSeconds := registers_call nofun fun r => ⟨r, rfl⟩

theorem registers_unixMillis : Registers parsers unixMillis := registers_call nofun fun r => ⟨r, rfl⟩

theorem registers_newUuid : Registers parsers newUuid := registers_call nofun fun r => ⟨r, rfl⟩

theorem registers_publicHostRoute (spec : HostLaunchSpec) (region : String) :
    Registers parsers (publicHostRoute spec region) := registers_call nofun fun r => ⟨r, rfl⟩

theorem registers_stateWriteTicket (region : String) (actor : ActorKey) (expectedVersion : ℕ) :
    Registers parsers (ControlPlaneService.stateWriteTicket region actor expectedVersion) :=
  yields_guard fun _ _ => registers_call nofun fun r => ⟨r, rfl⟩

theorem registers_requireActiveHost (principal : ActorPrincipal) :
    Registers parsers (ControlPlaneService.requireActiveHost principal) :=
  (registers_leaseStatus _).next fun _ => yields_guard fun _ _ => yields_guard fun _ _ =>
    yields_guard fun _ _ => .pure trivial

theorem registers_replacementHostToken (principal : ActorPrincipal) :
    Registers parsers (service.replacementHostToken principal) := by
  refine registers_unixSeconds.next fun now => ?_
  split_ifs
  · exact .pure trivial
  · exact yields_guard fun _ _ => yields_guard fun _ _ => registers_unixMillis.next fun _ =>
      yields_guard fun _ _ => .pure trivial

/-- The one place where a session enters the lease table. -/
theorem registers_registerLease {principal : ActorPrincipal}
    (hsession : parsers.isUuid principal.sessionId = true) (request : HostLeaseRequest) :
    Registers parsers (service.registerLease principal request) := by
  refine yields_guard fun _ _ => yields_guard fun _ heq => yields_guard fun _ _ =>
    Registers.next ?_ fun _ => (registers_replacementHostToken _).next fun _ => .pure trivial
  have hrequest : parsers.isUuid request.sessionId = true := by rw [ensure_ok_iff.mp heq]; exact hsession
  unfold PostgresHostLeaseStore.register
  split
  · exact Registers.ofResult (.error _)
  · refine fun _ => ⟨fun request' hop => ?_, fun r _ _ => ?_⟩
    · cases hop
      exact hrequest
    · rcases r with e | (_ | expiresAtMs) <;> exact fun _ _ => trivial

theorem registers_executeCommand {principal : ActorPrincipal}
    (hsession : parsers.isUuid principal.sessionId = true) (command : ControlPlaneCommand) :
    Registers parsers (service.executeCommand principal command) := by
  refine yields_guard fun _ _ => ?_
  cases command with
  | registerLease request => exact registers_registerLease hsession request
  | unregisterLease hostId => exact yields_guard fun _ _ => (registers_unregister _ _).next fun _ => .pure trivial
  | prepareStateWrite actor hostId ownerEpoch expectedVersion =>
    exact yields_guard fun _ _ => yields_guard fun _ _ => yields_guard fun _ _ =>
      (registers_requireActiveHost _).next fun _ =>
      Registers.next ((registers_get _).next fun _ => Registers.ofResult _) fun _ =>
        yields_guard fun _ _ => yields_guard fun _ _ =>
      (registers_stateWriteTicket _ _ _).next fun _ => .pure trivial
  | commitState actor hostId ownerEpoch expectedVersion stateObject requestId =>
    refine yields_guard fun _ _ => yields_guard fun _ _ => yields_guard fun _ _ =>
      (registers_requireActiveHost _).next fun _ =>
      yields_guard fun _ _ => yields_guard fun _ _ => (registers_commitState _).next fun commit => ?_
    cases commit with
    | committed placement =>
      exact Registers.next (.tryCatch ((registers_stateWriteTicket _ _ _).next fun _ => .pure trivial) fun _ => .pure trivial)
        fun _ => .pure trivial
    | current placement => exact Registers.ofResult (.error _)

/-- Whoever is authenticated has a UUID for a session. -/
theorem registers_execute (token : ActorJwt) (command : ControlPlaneCommand) :
    Registers service.parsers (service.execute token command) := by
  have hauth : Yields (registerEnv service.parsers) (service.authenticate token)
      fun principal => service.parsers.isUuid principal.sessionId = true := by
    refine registers_unixSeconds.bind fun decodedAt _ => registers_unixSeconds.bind fun now _ => ?_
    intro _ principal hprincipal
    obtain ⟨-, haccepted, rfl⟩ := authenticate_ok.mp hprincipal
    exact haccepted.session
  exact hauth.bind fun principal hsession => registers_executeCommand hsession command

theorem registers_ensureHost (issuer : ActorJwtIssuer) (spec : HostLaunchSpec) (region : String) :
    Registers parsers (service.ensureHost issuer spec region) := by
  refine Registers.next (registers_newUuid.next fun _ => registers_newUuid.next fun _ => registers_unixMillis.next fun _ =>
    yields_guard fun _ _ => .pure trivial) fun request => Registers.next (registers_call nofun fun r => ⟨r, rfl⟩) fun handle => ?_
  exact yields_guard fun _ _ => yields_guard fun _ _ => (registers_leaseStatus _).next fun _ =>
    yields_guard fun _ _ => yields_guard fun _ _ =>
    yields_guard fun _ _ => .pure trivial

theorem registers_activeTarget (current : Option ObjectPlacement) (spec : HostLaunchSpec) :
    Registers parsers (ControlPlaneService.activeTarget current spec) := by
  unfold ControlPlaneService.activeTarget
  split
  · exact .pure trivial
  · split_ifs
    · refine (registers_leaseStatus _).next fun status => ?_
      split_ifs
      · exact yields_guard fun _ _ => .pure trivial
      · exact .pure trivial
    · exact .pure trivial

theorem registers_routeRounds (actor : ActorKey) (region : String) (spec : HostLaunchSpec) (rounds : ℕ) :
    Registers parsers (service.routeRounds actor region spec rounds) := by
  induction rounds with
  | zero => exact Registers.ofResult (.error _)
  | succ rounds ih =>
    refine (registers_get _).next fun current => (registers_activeTarget _ _).next fun active => ?_
    cases active with
    | some target => exact .pure trivial
    | none =>
      refine yields_guard fun _ _ => yields_guard fun _ _ => (registers_ensureHost _ _ _).next fun lease =>
        (registers_claim _ _ _ _).next fun claim => ?_
      cases claim with
      | acquired placement =>
        dsimp only
        split_ifs
        · exact .pure trivial
        · exact ih
      | current placement =>
        dsimp only
        split_ifs
        · exact .pure trivial
        · exact ih

theorem registers_publicRoute (target : RoutedActor) :
    Registers parsers (ControlPlaneService.publicRoute target) := by
  unfold ControlPlaneService.publicRoute
  split_ifs
  · exact .pure trivial
  · exact registers_publicHostRoute _ _

theorem registers_resolve (rounds : ℕ) (principal : ActorPrincipal) (actor : ActorKey)
    (kind : WorkflowRoute) :
    Registers parsers (service.resolveWorkflowRoute rounds principal actor kind) := by
  refine yields_guard fun _ _ => yields_guard fun _ _ => Registers.next ?_ fun target =>
    Registers.next ?_ fun url => yields_guard fun _ _ =>
    registers_unixMillis.next fun _ => yields_guard fun _ _ => Registers.next ?_ fun _ => .pure trivial
  · exact yields_guard fun _ _ => Registers.next (registers_call (by simp) fun r => ⟨r, rfl⟩) fun _ => yields_guard fun _ _ =>
      registers_routeRounds _ _ _ _
  · unfold ControlPlaneService.stateReadUrl
    split
    · exact registers_call (by simp) fun r => ⟨r, rfl⟩
    · exact .pure trivial
  · unfold ControlPlaneService.targetRoute
    split
    · split_ifs
      · exact .pure trivial
      · exact registers_publicRoute _
    · exact registers_publicRoute _

/-! ### Reachable tables -/

/-- The tables are in order, and no task under way will register anything but a UUID. -/
structure ControlOk (service : ControlPlaneService) (s : ControlState) : Prop where
  db : DbOk service.parsers s.db
  tasks : ∀ i p, s.tasks i = some p → wp (registerEnv service.parsers) p (fun _ _ => True) ()

theorem wp_task (task : ControlTask) :
    wp (registerEnv service.parsers) (task.program service) (fun _ _ => True) () := by
  cases task with
  | execute token command =>
    exact (wp_map _ _ _ _ _).mpr (wp_mono (registers_execute token command ()) fun _ _ _ => trivial)
  | resolve rounds principal actor kind =>
    exact (wp_map _ _ _ _ _).mpr (wp_mono (registers_resolve rounds principal actor kind ()) fun _ _ _ => trivial)

theorem ControlOk.setTask {s : ControlState} (h : ControlOk service s) {db : Database}
    (hdb : DbOk service.parsers db) {i : ℕ} {p : Option (Prog ControlOp ControlOp.Res Unit)}
    (hp : ∀ q, p = some q → wp (registerEnv service.parsers) q (fun _ _ => True) ()) :
    ControlOk service ⟨db, Function.update s.tasks i p⟩ := by
  refine ⟨hdb, fun j q hq => ?_⟩
  change Function.update s.tasks i p j = some q at hq
  rw [Function.update_apply] at hq
  split_ifs at hq with hj
  · exact hp q hq
  · exact h.tasks j q hq

theorem controlOk_step {s s' : ControlState} {move : ControlMove} (hok : ControlOk service s)
    (h : ControlStep service s move s') : ControlOk service s' := by
  cases h with
  | arrive task _ =>
    refine hok.setTask hok.db fun q hq => ?_
    cases hq
    exact wp_task task
  | statement hi hanswers =>
    obtain ⟨hsql, hnext⟩ := hok.tasks _ _ hi
    refine hok.setTask (dbOk_answers hok.db (fun request heq => hsql request (by rw [heq])) hanswers) fun q hq => ?_
    cases hq
    exact hnext _ () trivial
  | call r hi _ =>
    obtain ⟨-, hnext⟩ := hok.tasks _ _ hi
    refine hok.setTask hok.db fun q hq => ?_
    cases hq
    exact hnext r () trivial
  | drop i => exact hok.setTask hok.db nofun
  | tick _ => exact ⟨⟨hok.db.head, hok.db.session⟩, hok.tasks⟩

theorem dbOk_reachable {db : Database} (h : ReachableDb service db) : DbOk service.parsers db := by
  obtain ⟨s, hs, rfl⟩ := h
  refine (System.Reachable.invariant (I := ControlOk service) ?_ (fun hok hs => controlOk_step hok hs) hs).db
  rintro s rfl
  exact ⟨⟨nofun, nofun⟩, nofun⟩

/-- The tables, in the hands of one task alone. -/
def tableEnv : Env ControlOp ControlOp.Res Database where
  ok _ _ := True
  step db op r db' := match op, r with
    | .sql sql, r => sql.Answers db r db'
    | _, _ => db' = db

/-- What a task leaves when it runs alone is reachable. -/
theorem reachable_alone {p : Prog ControlOp ControlOp.Res Unit} {db db' : Database} {u : Unit}
    (h : (controlSystem service).Reachable ⟨db, Function.update (fun _ => none) 0 (some p)⟩) (hx : Exec tableEnv p db u db') :
    ReachableDb service db' := by
  induction hx with
  | ret _ w => exact ⟨_, h, rfl⟩
  | @call op next w w' w'' r _ hs _ ih =>
    apply ih
    have htask : (⟨w, Function.update (fun _ => none) 0 (some (.call op next))⟩ : ControlState).tasks 0 =
        some (.call op next) := by simp
    by_cases hop : ∃ sql, op = .sql sql
    · obtain ⟨sql, rfl⟩ := hop
      have hstep := h.step (ControlStep.statement (i := 0) htask hs)
      rwa [Function.update_idem] at hstep
    · obtain rfl : w' = w := by
        cases op with
        | sql sql => exact absurd ⟨sql, rfl⟩ hop
        | _ => exact hs
      have hstep := h.step (ControlStep.call (i := 0) r htask fun sql heq => hop ⟨sql, heq⟩)
      rwa [Function.update_idem] at hstep

/-! ### What a resolution finds -/

section Finds

variable {outside : Outside service.parsers}

/-- A placement names a snapshot exactly if it has a version. -/
def PlacementOk (placement : ObjectPlacement) : Prop :=
  placement.stateVersion = 0 ↔ placement.stateObject = none

/-- One statement of a store call, against tables in order. -/
theorem yields_sql {α : Type} {sql : Sql} {next : Result sql.Rows → StoreM (Result α)} {P : α → Prop}
    (h : ∀ r before after, DbOk service.parsers before → sql.Answers before r after →
      Yields (taskEnv service outside) (store (next r)) P) :
    Yields (taskEnv service outside) (store (Prog.call sql next)) P := by
  refine fun _ => ⟨trivial, ?_⟩
  rintro r ⟨⟩ ⟨before, after, hreachable, hanswers⟩
  exact h r before after (dbOk_reachable hreachable) hanswers ()

theorem yields_result {α : Type} {r : Result α} {P : α → Prop} (h : ∀ a, r = .ok a → P a) :
    Yields (taskEnv service outside) (store (pure r)) P :=
  fun _ => h

theorem yields_get (object : ActorStorageKey) :
    Yields (taskEnv service outside) (store (PostgresObjectPlacementStore.get object)) fun current =>
      ∀ placement, current = some placement → PlacementOk placement := by
  refine yields_sql fun r before after hok hanswers => ?_
  cases r with
  | error e => exact yields_result nofun
  | ok row =>
    obtain ⟨hrow, -⟩ := selectPlacement_row hanswers
    refine yields_result fun current hcurrent placement hplacement => ?_
    cases hcurrent
    obtain ⟨row, rfl, rfl⟩ := Option.map_eq_some_iff.mp hplacement
    exact hok.head object row hrow

theorem yields_leaseStatus (id : HostId) :
    Yields (taskEnv service outside) (store (PostgresHostLeaseStore.leaseStatus id)) fun status =>
      ∀ lease, status.lease = some lease → lease.id = id ∧ service.parsers.isUuid lease.sessionId = true := by
  refine yields_sql fun r before after hok hanswers => ?_
  cases r with
  | error e => exact yields_result nofun
  | ok found =>
    obtain ⟨nowMs, row⟩ := found
    refine yields_result fun status hstatus lease hlease => ?_
    cases hstatus
    obtain ⟨row, rfl, rfl⟩ := Option.map_eq_some_iff.mp hlease
    cases hanswers with
    | rows hr =>
      simp only [Sql.run, Except.ok.injEq, Prod.mk.injEq] at hr
      exact ⟨rfl, hok.session id row hr.1.2⟩

theorem insertPlacement_row {db db' : Database} {object : ActorStorageKey} {owner : HostId}
    {region : String} {row : PlacementRow}
    (h : (Sql.insertPlacement object owner region).Answers db (.ok (some row)) db') :
    db'.placements object = some row := by
  cases h with
  | rows hr =>
    simp only [Sql.run] at hr
    split at hr
    · cases hr
    · cases hr
      simp [Database.setPlacement]

theorem claimPlacement_row {db db' : Database} {object : ActorStorageKey}
    {owner expectedOwner : HostId} {expectedEpoch : ℕ} {region : String} {row : PlacementRow}
    (h : (Sql.claimPlacement object owner expectedOwner expectedEpoch region).Answers db (.ok (some row)) db') :
    db'.placements object = some row := by
  cases h with
  | rows hr =>
    simp only [Sql.run] at hr
    split at hr
    · cases hr
    · split_ifs at hr
      · split at hr
        · cases hr
        · cases hr
          simp [Database.setPlacement]
      · cases hr

/-- Acquired or not, a claim answers with a placement in order. -/
def ClaimOk : PlacementClaim → Prop
  | .acquired placement => PlacementOk placement
  | .current placement => PlacementOk placement

theorem yields_currentClaim (object : ActorStorageKey) :
    Yields (taskEnv service outside) (store (PostgresObjectPlacementStore.currentClaim object)) ClaimOk := by
  refine yields_sql fun r before after hok hanswers => ?_
  cases r with
  | error e => exact yields_result nofun
  | ok row =>
    obtain ⟨hrow, -⟩ := selectPlacement_row hanswers
    refine yields_result fun claim hclaim => ?_
    simp only [orContext_ok, Option.map_map, Option.map_eq_some_iff] at hclaim
    obtain ⟨row, rfl, rfl⟩ := hclaim
    exact hok.head object row hrow

theorem yields_claim (object : ActorStorageKey) (expected : Option ObjectPlacement) (owner : HostId)
    (region : String) :
    Yields (taskEnv service outside) (store (PostgresObjectPlacementStore.claim object expected owner region)) ClaimOk := by
  unfold PostgresObjectPlacementStore.claim
  split
  · exact yields_result nofun
  · split
    · refine yields_sql fun r before after hok hanswers => ?_
      rcases r with e | (_ | row)
      · exact yields_result nofun
      · exact yields_currentClaim object
      · refine yields_result fun claim hclaim => ?_
        cases hclaim
        exact (dbOk_answers hok (fun _ h => by cases h) hanswers).head object row (insertPlacement_row hanswers)
    · split
      · exact yields_result nofun
      · split_ifs
        · exact yields_currentClaim object
        · split
          · exact yields_result nofun
          · refine yields_sql fun r before after hok hanswers => ?_
            rcases r with e | (_ | row)
            · exact yields_result nofun
            · exact yields_currentClaim object
            · refine yields_result fun claim hclaim => ?_
              cases hclaim
              exact (dbOk_answers hok (fun _ h => by cases h) hanswers).head object row (claimPlacement_row hanswers)

/-- A lease of a host of the namespace, with a UUID for a session. -/
structure HostLeaseOk (parsers : Parsers) (namespaceId : String) (lease : HostLease) : Prop where
  named : ("host.v1." ++ namespaceId ++ ".").toList <+: lease.id.id.toList
  session : parsers.isUuid lease.sessionId = true

structure RoutedOk (parsers : Parsers) (actor : ActorKey) (target : RoutedActor) : Prop where
  placement : PlacementOk target.placement
  lease : HostLeaseOk parsers actor.namespaceId target.lease

theorem named_of_revision {id : HostId} {namespaceId revision rest : String}
    (h : id.id = "host.v1." ++ namespaceId ++ "." ++ revision ++ "." ++ rest) :
    ("host.v1." ++ namespaceId ++ ".").toList <+: id.id.toList := by
  refine ⟨(revision ++ "." ++ rest).toList, ?_⟩
  rw [h]
  simp [List.append_assoc]

theorem named_of_matches {id : HostId} {namespaceId revision : String}
    (h : hostMatchesRevision id namespaceId revision = true) :
    ("host.v1." ++ namespaceId ++ ".").toList <+: id.id.toList := by
  refine List.IsPrefix.trans ?_ (List.isPrefixOf_iff_prefix.mp h)
  refine ⟨(revision ++ ".").toList, ?_⟩
  simp [List.append_assoc]

theorem yields_activeTarget {actor : ActorKey} {current : Option ObjectPlacement} {spec : HostLaunchSpec}
    (hspec : spec.namespaceId = actor.namespaceId)
    (hcurrent : ∀ placement, current = some placement → PlacementOk placement) :
    Yields (taskEnv service outside) (ControlPlaneService.activeTarget current spec) fun active =>
      ∀ target, active = some target → RoutedOk service.parsers actor target := by
  unfold ControlPlaneService.activeTarget
  split
  · exact .pure nofun
  · rename_i placement
    split_ifs with hmatches
    · refine (yields_leaseStatus placement.owner).bind fun status hstatus => ?_
      split_ifs
      · refine yields_guard fun lease hlease => .pure fun target htarget => ?_
        cases htarget
        obtain ⟨hid, hsession⟩ := hstatus lease (orContext_ok.mp hlease)
        refine ⟨hcurrent placement rfl, ?_, hsession⟩
        rw [← hspec, hid]
        exact named_of_matches hmatches
      · exact .pure nofun
    · exact .pure nofun

theorem yields_ensureHost {issuer : ActorJwtIssuer} {spec : HostLaunchSpec} {region : String} :
    Yields (taskEnv service outside) (service.ensureHost issuer spec region) (HostLeaseOk service.parsers spec.namespaceId) := by
  have hany : ∀ {α : Type} (x : ControlM α), Yields (taskEnv service outside) x fun _ => True :=
    fun _ => .any fun _ _ => trivial
  have hrequest : Yields (taskEnv service outside) (ControlPlaneService.hostRequest issuer spec region)
      fun request => request.namespaceId = spec.namespaceId :=
    (hany _).bind fun _ _ => (hany _).bind fun _ _ => (hany _).bind fun _ _ => yields_guard fun _ _ => .pure rfl
  have hhandle : ∀ request : EnsureHostRequest, Yields (taskEnv service outside) (providerEnsureHost request)
      fun handle => ("host.v1." ++ request.namespaceId ++ ".").toList <+: handle.hostId.id.toList := by
    intro request
    refine .call (fun _ => trivial) fun r => ⟨r, rfl, fun _ _ hanswer handle hr => ?_⟩
    subst hr
    obtain ⟨uuid, hid⟩ := outside.ensureHost_named hanswer
    exact named_of_revision (congrArg HostId.id hid)
  refine hrequest.bind fun request hns => (hhandle request).bind fun handle hnamed => yields_guard fun _ _ =>
    yields_guard fun _ _ => (yields_leaseStatus handle.hostId).bind fun status hstatus =>
      yields_guard fun _ _ =>
    yields_guard fun lease hlease => yields_guard fun _ _ => .pure ?_
  obtain ⟨hid, hsession⟩ := hstatus lease (orContext_ok.mp hlease)
  exact ⟨by rw [← hns, hid]; exact hnamed, hsession⟩

/-- However many rounds it takes, the actor ends with a host of its namespace. -/
theorem yields_routeRounds {actor : ActorKey} {region : String} {spec : HostLaunchSpec}
    (hspec : spec.namespaceId = actor.namespaceId) (rounds : ℕ) :
    Yields (taskEnv service outside) (service.routeRounds actor region spec rounds) (RoutedOk service.parsers actor) := by
  induction rounds with
  | zero => exact .throw _
  | succ rounds ih =>
    refine (yields_get _).bind fun current hcurrent =>
      (yields_activeTarget hspec hcurrent).bind fun active hactive => ?_
    cases active with
    | some target => exact .pure (hactive target rfl)
    | none =>
      refine yields_guard fun _ _ => yields_guard fun _ _ => yields_ensureHost.bind fun lease hlease =>
        (yields_claim _ _ _ _).bind fun claim hclaim => ?_
      rw [hspec] at hlease
      cases claim with
      | acquired placement =>
        dsimp only
        split_ifs
        · exact .pure ⟨hclaim, hlease⟩
        · exact ih
      | current placement =>
        dsimp only
        split_ifs
        · exact .pure ⟨hclaim, hlease⟩
        · exact ih

theorem yields_routeActor {rounds : ℕ} {actor : ActorKey} {region : String} :
    Yields (taskEnv service outside) (service.routeActor rounds actor region) (RoutedOk service.parsers actor) := by
  have hspec : Yields (taskEnv service outside) (launchSpec actor.namespaceId)
      fun spec => ∀ s, spec = some s → s.namespaceId = actor.namespaceId :=
    .call (fun _ => trivial) fun r => ⟨r, rfl, fun _ _ hanswer spec hr s hs => hanswer s (by rw [hr, hs])⟩
  exact yields_guard fun _ _ => hspec.bind fun spec hspec => yields_guard fun s hs =>
    yields_routeRounds (hspec s (orContext_ok.mp hs)) rounds

/-- The URL is empty exactly if there is no state, and is HTTP otherwise. -/
theorem yields_stateReadUrl {placement : ObjectPlacement} (hok : PlacementOk placement) :
    Yields (taskEnv service outside) (ControlPlaneService.stateReadUrl placement) fun url =>
      (placement.stateVersion = 0 → url = "") ∧
      (placement.stateVersion ≠ 0 → ∃ parsed, service.parsers.parseUrl url = some parsed ∧ parsed.isHttp = true) := by
  unfold ControlPlaneService.stateReadUrl
  split
  · rename_i objectName hobject
    have hversion : placement.stateVersion ≠ 0 := fun h => by cases (hok.mp h).symm.trans hobject
    refine .call (fun _ => trivial) fun r =>
      ⟨r, rfl, fun _ _ hanswer url hr => ⟨fun h => absurd h hversion, fun _ => ?_⟩⟩
    subst hr
    exact outside.readUrl_http hanswer
  · rename_i hobject
    exact .pure ⟨fun _ => rfl, fun h => absurd (hok.mpr hobject) h⟩

end Finds

end LDO
