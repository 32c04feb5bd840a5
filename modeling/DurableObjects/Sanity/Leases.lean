import Mathlib.Data.List.Induction
import DurableObjects.Spec.Leases
import DurableObjects.Sanity.Snapshot

/-! Both lease stores are the lease table: after the same calls they hold the same
leases, and they answer the next call alike. -/

namespace LDO

open Json

def LeaseTable.store : LeaseStore LeaseTable where
  empty _ := none
  call := LeaseTable.call
  stored table := table

namespace LeaseStore

variable {σ τ : Type} {store : LeaseStore σ} {store' : LeaseStore τ}

theorem after_append (calls : List TimedCall) (c : TimedCall) :
    store.after (calls ++ [c]) = (store.call c (store.after calls)).2 := by
  simp [after]

/-- Two stores that answer alike in related states stay related. -/
theorem after_rel {R : σ → τ → Prop} {P : TimedCall → Prop} (hempty : R store.empty store'.empty)
    (hcall : ∀ {c s t}, P c → R s t → (store.call c s).1 = (store'.call c t).1 ∧ R (store.call c s).2 (store'.call c t).2)
    {calls : List TimedCall} (h : ∀ c ∈ calls, P c) : R (store.after calls) (store'.after calls) := by
  induction calls using List.reverseRecOn with
  | nil => exact hempty
  | append_singleton calls c ih =>
    rw [after_append, after_append]
    exact (hcall (h c (by simp)) (ih fun c hc => h c (by simp [hc]))).2

end LeaseStore

theorem HostLeaseRequest.validateDuration_ok (request : HostLeaseRequest) :
    request.validateDuration = .ok () ↔ 0 < request.durationMs ∧
    request.durationMs ≤ maxHostLeaseDurationMs := by
  rw [HostLeaseRequest.validateDuration]
  by_cases h : 0 < request.durationMs
  · rw [ensure_ok.mpr h]
    change ensure _ _ = _ ↔ _
    rw [ensure_ok]
    simp [h]
  · rw [ensure, if_neg h]
    exact iff_of_false (fun heq => by cases heq) fun hboth => h hboth.1

/-! ### The table

Every stored lease was granted by some call, so its expiry is known from the time and the
duration of that call. -/

namespace LeaseTable

/-- A stored lease was there before the call, or the call granted it. -/
theorem call_stored {table : LeaseTable} {c : TimedCall} {id : HostId} {lease : HostLease}
    (h : (table.call c).2 id = some lease) : table id = some lease ∨
      ∃ request, c.call = .register request ∧ request.id = id ∧ request.validateDuration = .ok () ∧
        lease = grant c.nowMs request := by
  obtain ⟨nowMs, request | ⟨id', sessionId⟩ | id'⟩ := c
  · simp only [call, register] at h
    cases hdur : request.validateDuration with
    | error e =>
      simp only [hdur] at h
      exact .inl h
    | ok u =>
      simp only [hdur] at h
      split_ifs at h with hfree
      · dsimp only at h
        by_cases hid : id = request.id
        · subst hid
          rw [Function.update_self, Option.some.injEq] at h
          exact .inr ⟨request, rfl, rfl, hdur, h.symm⟩
        · rw [Function.update_of_ne hid] at h
          exact .inl h
      · exact .inl h
  · simp only [call, unregister] at h
    split_ifs at h with hs
    · by_cases hid : id = id'
      · subst hid
        simp at h
      · rw [Function.update_of_ne hid] at h
        exact .inl h
    · exact .inl h
  · exact .inl h

/-- Every stored lease was granted by a call. -/
theorem granted {calls : List TimedCall} {id : HostId} {lease : HostLease}
    (h : store.after calls id = some lease) :
    ∃ c ∈ calls, ∃ request, c.call = .register request ∧ request.id = id ∧ request.validateDuration = .ok () ∧
      lease = grant c.nowMs request := by
  induction calls using List.reverseRecOn with
  | nil => cases h
  | append_singleton calls c ih =>
    rw [LeaseStore.after_append] at h
    rcases call_stored h with hold | hnew
    · obtain ⟨c', hc', hrest⟩ := ih hold
      exact ⟨c', by simp [hc'], hrest⟩
    · exact ⟨c, by simp, hnew⟩

theorem register_failed {table : LeaseTable} {nowMs : ℕ} {request : HostLeaseRequest} :
    (table.register nowMs request).1.failed = false ↔
    request.validateDuration = .ok () ∧ table.Free nowMs request := by
  rw [register]
  cases hdur : request.validateDuration with
  | error e => simp [LeaseAnswer.failed]
  | ok u => by_cases hfree : table.Free nowMs request <;> simp [hfree, LeaseAnswer.failed]

theorem call_failed {table : LeaseTable} {c : TimedCall} (h : (table.call c).1.failed = true) :
    (table.call c).2 = table := by
  obtain ⟨nowMs, request | ⟨id', sessionId⟩ | id'⟩ := c
  · simp only [call, register] at h ⊢
    cases hdur : request.validateDuration with
    | error e => rfl
    | ok u => by_cases hfree : table.Free nowMs request <;> simp_all [LeaseAnswer.failed]
  · simp [call, LeaseAnswer.failed] at h
  · rfl

/-- A call of another session leaves a lease alone until it has expired. -/
theorem call_kept {table : LeaseTable} {c : TimedCall} {id : HostId} {lease : HostLease}
    (hlease : table id = some lease) (hactive : c.nowMs < lease.expiresAtMs)
    (hother : c.call.host = id → c.call.session ≠ some lease.sessionId) :
    (table.call c).2 id = some lease := by
  obtain ⟨nowMs, request | ⟨id', sessionId⟩ | id'⟩ := c
  · by_cases hid : id = request.id
    · subst hid
      have hheld : ¬ table.Free nowMs request := by
        intro hfree
        rcases hfree lease hlease with hsame | hexpired
        · exact hother rfl (by rw [hsame]; rfl)
        · exact absurd hactive (not_lt.mpr hexpired)
      have hfailed : (table.register nowMs request).1.failed = true := by
        by_contra hok
        exact hheld (register_failed.mp (by simpa using hok)).2
      have hsame : (table.register nowMs request).2 = table :=
        call_failed (c := ⟨nowMs, .register request⟩) hfailed
      simp only [call, hsame, hlease]
    · simp only [call, register]
      cases request.validateDuration with
      | error e => exact hlease
      | ok u =>
        split_ifs
        · simpa [Function.update_of_ne hid] using hlease
        · exact hlease
  · simp only [call, unregister]
    split_ifs with hs
    · by_cases hid : id = id'
      · subst hid
        rw [hlease, Option.map_some, Option.some.injEq] at hs
        exact absurd (by rw [hs]; rfl) (hother rfl)
      · rw [Function.update_of_ne hid]
        exact hlease
    · exact hlease
  · exact hlease

/-- While a session asks for one duration only, its expiry does not go back. -/
theorem expiry_mono {earlier later : List TimedCall}
    (htimed : (earlier ++ later).Pairwise fun c c' => c.nowMs ≤ c'.nowMs) {id : HostId}
    {sessionId : String} {durationMs : ℕ}
    (hsame : ∀ c ∈ earlier ++ later, ∀ request, c.call = .register request → request.id = id →
      request.sessionId = sessionId → request.durationMs = durationMs)
    {lease lease' : HostLease} (hlease : store.after earlier id = some lease) (hs : lease.sessionId = sessionId)
    (hlease' : store.after (earlier ++ later) id = some lease') (hs' : lease'.sessionId = sessionId) :
    lease.expiresAtMs ≤ lease'.expiresAtMs := by
  induction later using List.reverseRecOn generalizing lease' with
  | nil =>
    rw [List.append_nil, hlease] at hlease'
    cases hlease'
    exact le_rfl
  | append_singleton later c ih =>
    rw [← List.append_assoc] at htimed hsame hlease'
    rw [LeaseStore.after_append] at hlease'
    rcases call_stored hlease' with hold | ⟨request, hcall, hid, -, rfl⟩
    · rw [List.pairwise_append] at htimed
      exact ih htimed.1 (fun c hc => hsame c (List.mem_append_left _ hc)) hold hs'
    · obtain ⟨c₀, hc₀, request₀, hcall₀, hid₀, -, rfl⟩ := granted hlease
      have hle : c₀.nowMs ≤ c.nowMs := (List.pairwise_append.mp htimed).2.2 c₀ (by simp [hc₀]) c (by simp)
      have hdur := hsame c (by simp) request hcall hid hs'
      have hdur₀ := hsame c₀ (by simp [hc₀]) request₀ hcall₀ hid₀ hs
      simp only [grant, hdur, hdur₀]
      omega

end LeaseTable

/-! ### PostgreSQL -/

namespace PostgresHostLeaseStore

/-- The table the rows spell. -/
def table (leases : HostId → Option LeaseRow) : LeaseTable := fun id => (leases id).map (leaseOf id)

theorem table_update (leases : HostId → Option LeaseRow) (id : HostId) (row : Option LeaseRow) :
    table (Function.update leases id row) = Function.update (table leases) id (row.map (leaseOf id)) := by
  funext id'
  by_cases h : id' = id
  · subst h
    simp [table]
  · simp [table, h]

theorem free_iff (leases : HostId → Option LeaseRow) (nowMs : ℕ) (request : HostLeaseRequest) :
    (table leases).Free nowMs request ↔
      ∀ row, leases request.id = some row → row.sessionId = request.sessionId ∨ row.expiresAtMs ≤ nowMs := by
  unfold LeaseTable.Free
  cases h : leases request.id <;> simp [table, h, leaseOf]

theorem runSql_map {α β : Type} (db : Database) (f : α → β) (p : StoreM α) :
    runSql db (f <$> p) = (f (runSql db p).1, (runSql db p).2) := by
  induction p generalizing db with
  | ret a => rfl
  | call sql next ih =>
    change runSql db (.call sql fun r => f <$> next r) = _
    cases h : sql.run db with
    | error e => simp [runSql, h, ih]
    | ok r => simp [runSql, h, ih]

theorem call_register (db : Database) (nowMs : ℕ) (request : HostLeaseRequest) :
    (store.call ⟨nowMs, .register request⟩ db).1 = ((table db.leases).register nowMs request).1 ∧
      table (store.call ⟨nowMs, .register request⟩ db).2.leases =
        ((table db.leases).register nowMs request).2 := by
  have hcall : store.call ⟨nowMs, .register request⟩ db =
      (.register (runSql { db with nowMs := nowMs } (register request)).1,
        (runSql { db with nowMs := nowMs } (register request)).2) := runSql_map _ _ _
  have hfree := free_iff db.leases nowMs request
  rw [hcall, LeaseTable.register, register]
  cases hdur : request.validateDuration with
  | error e => exact ⟨rfl, rfl⟩
  | ok u =>
    cases hrow : db.leases request.id with
    | none =>
      have hyes : (table db.leases).Free nowMs request := hfree.mpr (by simp [hrow])
      simp [runSql, Sql.run, hrow, hyes, LeaseTable.grant, table_update, leaseOf]
    | some row =>
      simp only [hrow, Option.some.injEq, forall_eq'] at hfree
      by_cases hrow' : row.sessionId = request.sessionId ∨ row.expiresAtMs ≤ nowMs
      · simp [runSql, Sql.run, hrow, hfree.mpr hrow', hrow', LeaseTable.grant, table_update, leaseOf]
      · simp [runSql, Sql.run, hrow, mt hfree.mp hrow', hrow']

theorem call_unregister (db : Database) (nowMs : ℕ) (id : HostId) (sessionId : String) :
    (store.call ⟨nowMs, .unregister id sessionId⟩ db).1 = .unregister (.ok ()) ∧
      table (store.call ⟨nowMs, .unregister id sessionId⟩ db).2.leases =
        (table db.leases).unregister id sessionId := by
  have hcall : store.call ⟨nowMs, .unregister id sessionId⟩ db =
      (.unregister (runSql { db with nowMs := nowMs } (unregister id sessionId)).1,
        (runSql { db with nowMs := nowMs } (unregister id sessionId)).2) := runSql_map _ _ _
  rw [hcall, LeaseTable.unregister, unregister]
  cases hrow : db.leases id with
  | none => simp [runSql, Sql.run, hrow, table]
  | some row =>
    have htable : table db.leases id = some (leaseOf id row) := by simp [table, hrow]
    by_cases hs : row.sessionId = sessionId
    · simp [runSql, Sql.run, hrow, hs, table_update, htable, leaseOf]
    · simp [runSql, Sql.run, hrow, hs, htable, leaseOf]

theorem call_leaseStatus (db : Database) (nowMs : ℕ) (id : HostId) :
    (store.call ⟨nowMs, .leaseStatus id⟩ db).1 = .leaseStatus (.ok ⟨table db.leases id, nowMs⟩) ∧
      table (store.call ⟨nowMs, .leaseStatus id⟩ db).2.leases = table db.leases := by
  have hcall : store.call ⟨nowMs, .leaseStatus id⟩ db =
      (.leaseStatus (runSql { db with nowMs := nowMs } (leaseStatus id)).1,
        (runSql { db with nowMs := nowMs } (leaseStatus id)).2) := runSql_map _ _ _
  rw [hcall, leaseStatus]
  exact ⟨rfl, rfl⟩

theorem call_table (c : TimedCall) (db : Database) :
    (store.call c db).1 = ((table db.leases).call c).1 ∧
      table (store.call c db).2.leases = ((table db.leases).call c).2 := by
  obtain ⟨nowMs, request | ⟨id, sessionId⟩ | id⟩ := c
  · exact call_register db nowMs request
  · exact call_unregister db nowMs id sessionId
  · exact call_leaseStatus db nowMs id

/-- The PostgreSQL store is the lease table. -/
theorem leases_eq (calls : List TimedCall) : store.leases calls = LeaseTable.store.after calls := by
  refine LeaseStore.after_rel (R := fun (db : Database) (t : LeaseTable) => table db.leases = t) (P := fun _ => True) rfl ?_
    fun _ _ => trivial
  rintro c db _ - rfl
  exact call_table c db

theorem answer_eq (calls : List TimedCall) (c : TimedCall) :
    store.answer calls c = LeaseTable.store.answer calls c := by
  rw [LeaseStore.answer, LeaseStore.answer, ← leases_eq]
  exact (call_table c _).1

end PostgresHostLeaseStore

/-! ### The local store -/

namespace LocalHostLeaseStore

variable {σ : Type} {fs : FileSystem σ} {serde : SerdeJson} {s : σ}

theorem ofJson_toJson {lease : HostLease} (h : lease.expiresAtMs ≤ u64Max) :
    HostLease.ofJson lease.toJson = some lease := by
  simp [HostLease.ofJson, HostLease.toJson, field, asString, asU64, asU64_ofNat h]

theorem fromSlice_toVec {lease : HostLease} (hdepth : 1 ≤ serde.maxDepth) (h : lease.expiresAtMs ≤ u64Max) :
    fromSlice serde (toVec lease.toJson) = some lease.toJson := by
  obtain ⟨depth, hd⟩ := Nat.exists_eq_add_of_le' hdepth
  rw [fromSlice_toVec_eq, hd]
  simp only [HostLease.toJson, Json.readBack, readBackFields]
  simp [serdeWriter, Number.ofNat, serde.integers _ h]

/-- The lease of the host is in a file of its own. -/
def Kept (id : HostId) : Prop := isFileName (pathFor id) = true

/-- Every lease file reads as its entry in the table. -/
def Reads (fs : FileSystem σ) (serde : SerdeJson) (s : σ) (table : LeaseTable) : Prop :=
  ∀ id, Kept id → load fs serde s id = .ok (table id)

theorem path_inj {id id' : HostId} (h : pathFor id' = pathFor id) : id' = id := by
  have hlist : id'.id.toList ++ ".json".toList = id.id.toList ++ ".json".toList := by
    rw [← String.toList_append, ← String.toList_append]
    exact congrArg String.toList h
  obtain ⟨s⟩ := id
  obtain ⟨s'⟩ := id'
  rw [HostId.mk.injEq]
  exact String.toList_inj.mp (List.append_cancel_right hlist)

theorem load_notFound {id : HostId} {message : String}
    (h : fs.read (pathFor id) s = .error ⟨.notFound, message⟩) :
    load fs serde s id = .ok none := by
  rw [load, h]
  rfl

/-- A lease that is there is in a file. -/
theorem read_of_load {id : HostId} {lease : HostLease} (h : load fs serde s id = .ok (some lease)) :
    ∃ body, fs.read (pathFor id) s = .ok body := by
  rw [load] at h
  cases hread : fs.read (pathFor id) s with
  | ok body => exact ⟨body, rfl⟩
  | error e =>
    simp only [hread] at h
    split_ifs at h with hkind
    cases h

theorem load_written (hdepth : 1 ≤ serde.maxDepth) (lease : HostLease) (h : lease.expiresAtMs ≤ u64Max)
    (hread : fs.read (pathFor lease.id) s = .ok (toVec lease.toJson)) :
    load fs serde s lease.id = .ok (some lease) := by
  rw [load, hread]
  simp only [fromSlice_toVec hdepth h, Option.bind_some, ofJson_toJson h, orContext]
  rfl

/-- A call that changes one file changes one entry. -/
theorem reads_update {s' : σ} {table : LeaseTable} (hreads : Reads fs serde s table) {id : HostId}
    {lease : Option HostLease} (hload : load fs serde s' id = .ok lease)
    (hothers : ∀ name, isFileName name = true → name ≠ pathFor id → fs.read name s' = fs.read name s) :
    Reads fs serde s' (Function.update table id lease) := by
  intro id' hid'
  by_cases h : id' = id
  · subst h
    rw [hload, Function.update_self]
  · rw [Function.update_of_ne h, ← hreads id' hid', load, load, hothers _ hid' fun heq => h (path_inj heq)]

theorem ensureFree_ok {table : LeaseTable} {nowMs : ℕ} {request : HostLeaseRequest} :
    ensureFree (table request.id) request nowMs =
      if table.Free nowMs request then .ok () else .error (.new "host lease is held by a different active session") := by
  cases h : table request.id with
  | none =>
    have hfree : table.Free nowMs request := by simp [LeaseTable.Free, h]
    rw [if_pos hfree]
    rfl
  | some lease =>
    have hiff : table.Free nowMs request ↔ lease.sessionId = request.sessionId ∨ lease.expiresAtMs ≤ nowMs := by
      simp [LeaseTable.Free, h]
    simp only [ensureFree, ensure, hiff]

/-- A call the local store can serve. -/
structure Served (c : TimedCall) : Prop where
  name : Kept c.call.host
  clock : c.nowMs ≤ lastTimestampMs

theorem expiry_fits {nowMs : ℕ} {request : HostLeaseRequest} (hclock : nowMs ≤ lastTimestampMs)
    (hdur : request.validateDuration = .ok ()) : nowMs + request.durationMs ≤ u64Max := by
  have hle := (request.validateDuration_ok.mp hdur).2
  have hmax : lastTimestampMs + maxHostLeaseDurationMs ≤ u64Max := by decide
  omega

/-- What `register` decides, in terms of the table. -/
theorem granted_eq {table : LeaseTable} (hreads : Reads fs serde s table) {nowMs : ℕ}
    {request : HostLeaseRequest} (hname : Kept request.id) (hclock : nowMs ≤ lastTimestampMs)
    (hdur : request.validateDuration = .ok ()) :
    granted fs serde nowMs s request = if table.Free nowMs request then .ok (LeaseTable.grant nowMs request)
      else .error (.new "host lease is held by a different active session") := by
  have hsum : checkedAdd nowMs request.durationMs = some (nowMs + request.durationMs) :=
    if_pos (expiry_fits hclock hdur)
  simp only [granted, hdur, hreads _ hname, hsum]
  change (do ensureFree (table request.id) request nowMs; pure _ : Result _) = _
  rw [ensureFree_ok]
  by_cases hfree : table.Free nowMs request
  · rw [if_pos hfree, if_pos hfree]
    rfl
  · rw [if_neg hfree, if_neg hfree]
    rfl

theorem call_register (hfs : LawfulFileSystem fs) (hdepth : 1 ≤ serde.maxDepth) {table : LeaseTable}
    (hreads : Reads fs serde s table) {nowMs : ℕ} {request : HostLeaseRequest} (hname : Kept request.id)
    (hclock : nowMs ≤ lastTimestampMs) :
    (call fs serde ⟨nowMs, .register request⟩ s).1 = (table.register nowMs request).1 ∧
      Reads fs serde (call fs serde ⟨nowMs, .register request⟩ s).2 (table.register nowMs request).2 := by
  cases hdur : request.validateDuration with
  | error e =>
    have hgranted : granted fs serde nowMs s request = .error e := by
      rw [granted, hdur]
      rfl
    simp only [call, register, hgranted, LeaseTable.register, hdur]
    exact ⟨trivial, hreads⟩
  | ok u =>
    simp only [call, register, granted_eq hreads hname hclock hdur, LeaseTable.register, hdur]
    by_cases hfree : table.Free nowMs request
    · have hwritten := @hfs.write _ (toVec (LeaseTable.grant nowMs request).toJson) s hname
      obtain ⟨s', hwrite, hread, hothers⟩ := hwritten
      have hid : (LeaseTable.grant nowMs request).id = request.id := rfl
      simp only [if_pos hfree, hid, hfs.createParent hname, hwrite]
      have hfits : (LeaseTable.grant nowMs request).expiresAtMs ≤ u64Max := expiry_fits hclock hdur
      exact ⟨trivial, reads_update hreads (load_written hdepth _ hfits hread) hothers⟩
    · simp only [if_neg hfree]
      exact ⟨trivial, hreads⟩

theorem call_unregister (hfs : LawfulFileSystem fs) {table : LeaseTable}
    (hreads : Reads fs serde s table) {nowMs : ℕ} {id : HostId} {sessionId : String} (hname : Kept id) :
    (call fs serde ⟨nowMs, .unregister id sessionId⟩ s).1 = .unregister (.ok ()) ∧
      Reads fs serde (call fs serde ⟨nowMs, .unregister id sessionId⟩ s).2 (table.unregister id sessionId) := by
  have hload := hreads id hname
  simp only [call, unregister, LeaseTable.unregister, hload]
  cases h : table id with
  | none => exact ⟨rfl, by simpa using hreads⟩
  | some lease =>
    by_cases hs : lease.sessionId = sessionId
    · rw [h] at hload
      obtain ⟨body, hbody⟩ := read_of_load hload
      obtain ⟨s', message, hremove, hread, hothers⟩ := hfs.removeFile hname hbody
      simp only [hs, ne_eq, not_true, if_false, hremove, Option.map_some, if_true]
      exact ⟨trivial, reads_update hreads (load_notFound hread) hothers⟩
    · simpa [hs] using hreads

theorem call_table (hfs : LawfulFileSystem fs) (hdepth : 1 ≤ serde.maxDepth) {table : LeaseTable}
    {c : TimedCall} (hc : Served c) (hreads : Reads fs serde s table) :
    (call fs serde c s).1 = (table.call c).1 ∧ Reads fs serde (call fs serde c s).2 (table.call c).2 := by
  obtain ⟨nowMs, request | ⟨id, sessionId⟩ | id⟩ := c
  · exact call_register hfs hdepth hreads hc.name hc.clock
  · exact call_unregister hfs hreads hc.name
  · have hstatus : leaseStatus fs serde nowMs s id = .ok ⟨table id, nowMs⟩ := by
      rw [leaseStatus, hreads id hc.name]
      rfl
    simp only [call, hstatus, LeaseTable.call]
    exact ⟨trivial, hreads⟩

/-- The local store is the lease table as well. -/
theorem reads_after (hfs : LawfulFileSystem fs) (hdepth : 1 ≤ serde.maxDepth) {calls : List TimedCall}
    (h : ∀ c ∈ calls, Served c) : Reads fs serde ((store fs serde).after calls)
    (LeaseTable.store.after calls) := by
  refine LeaseStore.after_rel (R := Reads fs serde) ?_ (fun hc hreads => call_table hfs hdepth hc hreads) h
  intro id hid
  obtain ⟨message, hread⟩ := hfs.read_empty hid
  exact load_notFound hread

end LocalHostLeaseStore

/-! ### One directory -/

theorem directory_lawful : LawfulFileSystem directory where
  read_empty h := ⟨_, by simp [directory, h]; rfl⟩
  createParent _ := rfl
  write {name body s} h := by
    refine ⟨Function.update s name (some body), by simp [directory, h], by simp [directory, h], ?_⟩
    intro other ho hne
    simp [directory, ho, hne]
  removeFile {name body s} h hread := by
    have hsome : ∃ b, s name = some b := by
      simp only [directory, h, if_true] at hread
      split at hread
      · exact ⟨_, by assumption⟩
      · cases hread
    obtain ⟨b, hb⟩ := hsome
    refine ⟨Function.update s name none, _, by simp [directory, h, hb], by simp [directory, h]; rfl, ?_⟩
    intro other ho hne
    simp [directory, ho, hne]

end LDO
