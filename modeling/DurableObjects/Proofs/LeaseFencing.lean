import DurableObjects.Spec.Deployments
import DurableObjects.Sanity.Leases

/-! Lease sessions fence each other, in both stores. What holds of the lease table holds of
whatever a store shows of it. The local store needs a file for each host, and there are host
ids that are too long to name one. -/

namespace LDO

/-- How the lease sessions of `hosts` fence each other at the call `c` that follows `calls`. -/
structure SessionFencing {σ : Type} (store : LeaseStore σ) (hosts : HostId → Prop) (calls : List TimedCall)
    (c : TimedCall) : Prop where
  /-- No call for another session changes or removes an unexpired lease. -/
  kept : ∀ id lease, hosts id → store.leases calls id = some lease → c.nowMs < lease.expiresAtMs →
    (c.call.host = id → c.call.session ≠ some lease.sessionId) → store.leases (calls ++ [c]) id = some lease
  refused : ∀ request lease, c.call = .register request → hosts request.id →
    store.leases calls request.id = some lease →
    c.nowMs < lease.expiresAtMs → lease.sessionId ≠ request.sessionId → (store.answer calls c).failed = true
  /-- A register succeeds exactly when the lease is free for its session. -/
  registers : ∀ request, c.call = .register request → hosts request.id →
    ((store.answer calls c).failed = false ↔
    request.validateDuration = .ok () ∧ ∀ lease, store.leases calls request.id = some lease →
      lease.sessionId = request.sessionId ∨ lease.expiresAtMs ≤ c.nowMs)
  unchanged : (store.answer calls c).failed = true → ∀ id, hosts id →
    store.leases (calls ++ [c]) id = store.leases calls id
  /-- No expiry is far ahead of the clock. -/
  ahead : ∀ id lease, hosts id → store.leases (calls ++ [c]) id = some lease →
    lease.expiresAtMs ≤ c.nowMs + maxHostLeaseDurationMs
  /-- With one duration, the expiry of a session does not go back. -/
  monotone : ∀ earlier, earlier <+: calls ++ [c] → ∀ id sessionId durationMs, hosts id →
    (∀ c' ∈ calls ++ [c], ∀ request, c'.call = .register request → request.id = id →
      request.sessionId = sessionId → request.durationMs = durationMs) →
    ∀ lease lease', store.leases earlier id = some lease → lease.sessionId = sessionId →
      store.leases (calls ++ [c]) id = some lease' → lease'.sessionId = sessionId →
      lease.expiresAtMs ≤ lease'.expiresAtMs

/-- A store that has the leases of `hosts` as the table has them, and answers as the table does. -/
structure Shows {σ : Type} (store : LeaseStore σ) (hosts : HostId → Prop) (calls : List TimedCall)
    (c : TimedCall) :
    Prop where
  leases : ∀ {calls' id}, calls' <+: calls ++ [c] → hosts id →
    store.leases calls' id = LeaseTable.store.after calls' id
  answer : store.answer calls c = LeaseTable.store.answer calls c

theorem Shows.fencing {σ : Type} {store : LeaseStore σ} {hosts : HostId → Prop}
    {calls : List TimedCall} {c : TimedCall} (h : Shows store hosts calls c)
    (htimed : (calls ++ [c]).Pairwise fun c c' => c.nowMs ≤ c'.nowMs) :
    SessionFencing store hosts calls c := by
  have hbefore : ∀ {id}, hosts id → store.leases calls id = LeaseTable.store.after calls id :=
    fun hid => h.leases (List.prefix_append _ _) hid
  have hafter : ∀ {id}, hosts id →
      store.leases (calls ++ [c]) id = (LeaseTable.call c (LeaseTable.store.after calls)).2 id := by
    intro id hid
    rw [h.leases (List.prefix_refl _) hid, LeaseStore.after_append]
    rfl
  have hregisters : ∀ request, c.call = .register request → hosts request.id →
      ((store.answer calls c).failed = false ↔
      request.validateDuration = .ok () ∧ ∀ lease, store.leases calls request.id = some lease →
        lease.sessionId = request.sessionId ∨ lease.expiresAtMs ≤ c.nowMs) := by
    intro request hcall hid
    have hanswer : LeaseTable.store.answer calls c =
        ((LeaseTable.store.after calls).register c.nowMs request).1 := by
      obtain ⟨nowMs, call⟩ := c
      subst hcall
      rfl
    rw [h.answer, hanswer, LeaseTable.register_failed, hbefore hid]
    rfl
  refine ⟨?_, ?_, hregisters, ?_, ?_, ?_⟩
  · intro id lease hid hlease hactive hother
    rw [hbefore hid] at hlease
    rw [hafter hid]
    exact LeaseTable.call_kept hlease hactive hother
  · intro request lease hcall hid hlease hactive hne
    by_contra hok
    rcases ((hregisters request hcall hid).mp (by simpa using hok)).2 lease hlease with hsame | hexpired
    · exact hne hsame
    · omega
  · intro hfailed id hid
    rw [h.answer] at hfailed
    rw [hafter hid, hbefore hid]
    exact congrFun (LeaseTable.call_failed hfailed) id
  · intro id lease hid hlease
    rw [h.leases (List.prefix_refl _) hid] at hlease
    obtain ⟨c', hc', request, -, -, hdur, rfl⟩ := LeaseTable.granted hlease
    have hle : c'.nowMs ≤ c.nowMs := by
      rw [List.mem_append, List.mem_singleton] at hc'
      rcases hc' with hc' | rfl
      · exact (List.pairwise_append.mp htimed).2.2 c' hc' c (by simp)
      · exact le_rfl
    have hmax := (request.validateDuration_ok.mp hdur).2
    simp only [LeaseTable.grant]
    omega
  · rintro earlier ⟨later, hlater⟩ id sessionId durationMs hid hsame lease lease' hlease hs hlease' hs'
    rw [h.leases ⟨later, hlater⟩ hid] at hlease
    rw [h.leases (List.prefix_refl _) hid] at hlease'
    rw [← hlater] at htimed hsame hlease'
    exact LeaseTable.expiry_mono htimed hsame hlease hs hlease' hs'

theorem postgres_shows (calls : List TimedCall) (c : TimedCall) :
    Shows PostgresHostLeaseStore.store (fun _ => True) calls c := by
  constructor
  · intro calls' id _ _
    rw [PostgresHostLeaseStore.leases_eq]
  · exact PostgresHostLeaseStore.answer_eq calls c

namespace LocalHostLeaseStore

theorem shows {σ : Type} {fs : FileSystem σ} {serde : SerdeJson} (hfs : LawfulFileSystem fs)
    (hdepth : 1 ≤ serde.maxDepth) {calls : List TimedCall} {c : TimedCall}
    (hserved : ∀ c' ∈ calls ++ [c], Served c') :
    Shows (store fs serde) Kept calls c := by
  have hreads : ∀ {calls'}, calls' <+: calls ++ [c] →
      Reads fs serde ((store fs serde).after calls') (LeaseTable.store.after calls') :=
    fun hpre => reads_after hfs hdepth fun c' hc' => hserved c' (hpre.subset hc')
  constructor
  · intro calls' id hpre hid
    change (load fs serde ((store fs serde).after calls') id).toOption.join = _
    rw [hreads hpre id hid]
    rfl
  · exact (call_table hfs hdepth (hserved c (by simp)) (hreads (List.prefix_append _ _))).1

end LocalHostLeaseStore

/-- A successor is refused, waits for the lease to expire, and is left alone by the host
it replaces. -/
def handover : List TimedCall :=
  [⟨1000, .register ⟨⟨"node-a"⟩, "session-a", "node-a", 30000⟩⟩, ⟨2000, .register ⟨⟨"node-a"⟩, "session-b", "node-a", 30000⟩⟩,
    ⟨31000, .register ⟨⟨"node-a"⟩, "session-b", "node-a", 30000⟩⟩]

def staleUnregister : TimedCall := ⟨32000, .unregister ⟨"node-a"⟩ "session-a"⟩

namespace LocalHostLeaseStore

theorem load_of_not_kept (serde : SerdeJson) (files : String → Option ByteArray) {id : HostId}
    (h : ¬ Kept id) :
    ∃ e, load directory serde files id = .error e := by
  unfold Kept at h
  simp [load, directory, h]

variable {serde : SerdeJson} {calls : List TimedCall}

/-- In a directory, a host without a file of its own never gets a lease. -/
theorem register_of_not_kept {nowMs : ℕ} {request : HostLeaseRequest} (h : ¬ Kept request.id) :
    ((store directory serde).answer calls ⟨nowMs, .register request⟩).failed = true := by
  have hgranted : ∃ e, granted directory serde nowMs ((store directory serde).after calls) request =
      .error e := by
    cases hdur : request.validateDuration with
    | error e => exact ⟨e, by rw [granted, hdur]; rfl⟩
    | ok u =>
      obtain ⟨e, hload⟩ := load_of_not_kept serde ((store directory serde).after calls) h
      exact ⟨e, by rw [granted, hdur, hload]; rfl⟩
  obtain ⟨e, hgranted⟩ := hgranted
  change (LeaseAnswer.register (register directory serde nowMs _ request).1).failed = true
  rw [register, hgranted]
  rfl

theorem leases_of_not_kept {id : HostId} (h : ¬ Kept id) :
    (store directory serde).leases calls id = none := by
  obtain ⟨e, hload⟩ := load_of_not_kept serde ((store directory serde).after calls) h
  change (load directory serde _ id).toOption.join = none
  rw [hload]
  rfl

theorem not_fencing_of_not_kept {nowMs : ℕ} {request : HostLeaseRequest} (h : ¬ Kept request.id)
    (hdur : request.validateDuration = .ok ()) :
    ¬ SessionFencing (store directory serde) (fun _ => True) calls ⟨nowMs, .register request⟩ := by
  intro hfencing
  have hregisters := hfencing.registers request rfl trivial
  rw [register_of_not_kept h, leases_of_not_kept h] at hregisters
  simp [hdur] at hregisters

end LocalHostLeaseStore

def longestComponents : ValidProjectSpec where
  namespaceId := "".pushn 'n' 96
  codeRevision := "".pushn 'r' 128
  imageRef := "image"
  workingDirectory := "/workspace"
  actorEntrypoint := none
  valid := by decide +kernel

def longHostUuid : Uuid where
  text := "00000000-0000-4000-8000-000000000001"
  groups := by decide
  digits := by simp [isLowerHexDigit]

/-- The host of a registered deployment, with an id of 270 bytes. -/
def longHostId : HostId := longestComponents.toHostLaunchSpec.host longHostUuid

def longHost : TimedCall := ⟨1000, .register ⟨longHostId, "session-a", "node-a", 30000⟩⟩

theorem longHostId_not_kept : ¬ LocalHostLeaseStore.Kept longHostId := by
  have hnamespace : longestComponents.namespaceId.utf8ByteSize = 96 := by decide +kernel
  have hrevision : longestComponents.codeRevision.utf8ByteSize = 128 := by decide +kernel
  have huuid : longHostUuid.text.utf8ByteSize = 36 := by decide
  have hlength : 255 < (LocalHostLeaseStore.pathFor longHostId).utf8ByteSize := by
    simp only [longHostId, HostLaunchSpec.host, LocalHostLeaseStore.pathFor, String.utf8ByteSize_append,
      hnamespace, hrevision, huuid]
    omega
  simp [LocalHostLeaseStore.Kept, isFileName, not_le.mpr hlength]

end LDO
