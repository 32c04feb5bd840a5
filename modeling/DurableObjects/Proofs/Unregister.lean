import DurableObjects.Sanity.LeaseMaintenance

/-! Unregistering is final as long as no register call overtakes it. Shutting the renewal
loop down drops a call that is under way without knowing whether the store has seen it;
one that reaches the store after the unregister registers the stopped host again. -/

namespace LDO

variable {K : Type} [Field K] [LinearOrder K] [FloorRing K] {m : HostLeaseMaintainer K}
  {s s' : MaintainerState K} {e : MaintainerEvent K}

/-- The store processes no register call of the session after its unregister. -/
def NotOvertaken (s : MaintainerState K) (e : MaintainerEvent K) (_ : MaintainerState K) : Prop :=
  ∀ call, e = .deliver call → s.unregistered = false

/-- `lease_status` does not report an active lease of the session. -/
def NotActive (m : HostLeaseMaintainer K) (s : MaintainerState K) : Prop :=
  ∀ status lease, (m.process s (.leaseStatus m.host)).1 = .leaseStatus (.ok status) → status.isActive = true →
    status.lease = some lease → lease.sessionId ≠ m.sessionId

/-- The table holds no lease of the session. -/
def NoLease (m : HostLeaseMaintainer K) (s : MaintainerState K) : Prop :=
  ∀ lease, s.table m.host = some lease → lease.sessionId ≠ m.sessionId

theorem NoLease.notActive (h : NoLease m s) : NotActive m s := by
  intro status lease hstatus _ hlease
  simp only [HostLeaseMaintainer.process, LeaseTable.call, LeaseAnswer.leaseStatus.injEq,
    Except.ok.injEq] at hstatus
  subst hstatus
  exact h lease hlease

theorem sendRegister_table (deadline : Option K) : (m.sendRegister s deadline).table = s.table ∧
    (m.sendRegister s deadline).unregistered = s.unregistered := by
  rw [HostLeaseMaintainer.sendRegister]
  split
  · exact ⟨rfl, rfl⟩
  · exact ⟨rfl, rfl⟩

theorem noLease_step (h : s.unregistered = true → NoLease m s) (hs : MaintainerStep m s e s')
    (hn : NotOvertaken s e s') : s'.unregistered = true → NoLease m s' := by
  intro hun
  cases hs with
  | deliver => exact absurd hun (by simp [hn _ rfl])
  | applyUnregister => exact fun lease hlease => process_unregister hlease
  | other hother => exact fun lease hlease heq => h hun lease (process_other_row hother hlease heq) heq
  | start =>
    obtain ⟨htable, hsame⟩ := sendRegister_table (m := m) (s := s) none
    rw [hsame] at hun
    exact fun lease hlease => h hun lease (htable ▸ hlease)
  | wake =>
    obtain ⟨htable, hsame⟩ := sendRegister_table (m := m) (s := s) (some _)
    rw [hsame] at hun
    exact fun lease hlease => h hun lease (htable ▸ hlease)
  | tick => exact h hun
  | loseRequest => exact h hun
  | loseReply => exact h hun
  | reply => exact h hun
  | fail => exact h hun
  | sample => exact h hun
  | expire => exact h hun
  | shutdown => exact h hun
  | sendUnregister => exact h hun

/-- In every run in which no register call overtakes the unregister, the store never again
reports an active lease of the session. -/
theorem unregister_is_final (m : HostLeaseMaintainer K) {s : MaintainerState K}
    (h : ((maintainerSystem m).restrict NotOvertaken).Reachable s) (hun : s.unregistered = true) :
    NotActive m s := by
  refine NoLease.notActive (h.invariant (I := fun s => s.unregistered = true → NoLease m s) ?_ ?_ hun)
  · intro s hinit hun
    obtain ⟨-, -, -, -, -, -, -, -, -, -, hno⟩ := hinit
    simp [hno] at hun
  · exact fun ih hs => noLease_step ih hs.1 hs.2

/-! ### A host that stops while it renews -/

/-- The host of a first renewal sends a second register call and is shut down: the store
has applied its unregister, and that call is still under way. -/
theorem stop_while_renewing (cond : MaintainerState ℚ → MaintainerEvent ℚ → MaintainerState ℚ → Prop)
    (hfree : ∀ s₁ e s₂, s₁.unregistered = false → cond s₁ e s₂) :
    ∃ s call, ((maintainerSystem tightHost).restrict cond).Reachable s ∧ s.unregistered = true ∧
      s.phase = .stopped ∧ s.requests call = true ∧ s.table tightHost.host = none := by
  have hgo : ∀ {s₁ s₂ : MaintainerState ℚ} {e}, ((maintainerSystem tightHost).restrict cond).Reachable s₁ →
      MaintainerStep tightHost s₁ e s₂ → s₁.unregistered = false →
      ((maintainerSystem tightHost).restrict cond).Reachable s₂ :=
    fun hr hs hu => hr.step ⟨hs, hfree _ _ _ hu⟩
  obtain ⟨s, lease, hr, hfirst⟩ := first_renewal cond 2 4 4 notStarted_init rfl rfl tightHost_window
    (by norm_num [notStarted]) (by norm_num) le_rfl (fun _ _ _ hu _ => hfree _ _ _ hu) (fun _ _ _ _ _ hu => hfree _ _ _ hu)
  have hphase : s.phase = .waiting 30000 10004 := by
    rw [hfirst.phase, tightHost_confirmed (n := 4) (by norm_num) (by decide)]
    norm_num
  have hun : s.unregistered = false := hfirst.unregistered
  have hing : s.unregistering = false := hfirst.unregistering
  have hnow := tightHost_hostNowMs 10004
  push_cast at hnow
  have htick : MaintainerStep tightHost s (.tick 10004) { s with time := 10004 } := by
    refine .tick (by rw [hfirst.now]; norm_num) (fun d hd => ?_)
    rw [hphase] at hd
    obtain rfl := Option.some.inj hd
    norm_num
  have hr₁ := hgo hr htick hun
  have hr₂ := hgo hr₁ (.wake hphase le_rfl (by norm_num)) hun
  have hsend : tightHost.sendRegister { s with time := 10004 } (some 30000) = { s with
      time := 10004
      phase := .renewing (some 30000) s.sent 40004 10004
      requests := Function.update s.requests s.sent true
      sent := s.sent + 1 } := by
    simp only [HostLeaseMaintainer.sendRegister, hnow]
    rfl
  rw [hsend] at hr₂
  have hr₃ := hgo hr₂ (.shutdown (by simp) (by simp)) hun
  have hr₄ := hgo hr₃ (.sendUnregister rfl hing hun) hun
  have hr₅ := hgo hr₄ (.applyUnregister rfl) hun
  refine ⟨_, s.sent, hr₅, rfl, rfl, Function.update_self .., ?_⟩
  have hrow : s.table tightHost.host = some lease := by
    rw [hfirst.table, Function.update_self]
  simp [HostLeaseMaintainer.process, LeaseTable.call, LeaseTable.unregister, hrow, hfirst.session]

/-- The late call is lost: the store stays without a lease of the session. -/
theorem unregister_is_final_tightHost :
    ∃ s, ((maintainerSystem tightHost).restrict NotOvertaken).Reachable s ∧
    s.unregistered = true ∧ NotActive tightHost s := by
  obtain ⟨s, call, hr, hun, -⟩ := stop_while_renewing NotOvertaken (fun _ _ _ hu _ _ => hu)
  exact ⟨s, hr, hun, unregister_is_final tightHost hr hun⟩

/-- The late call reaches the store: it registers the stopped host again, and `lease_status`
reports its session as active. -/
theorem unregister_is_overtaken : ∃ s, (maintainerSystem tightHost).Reachable s ∧ s.unregistered = true ∧
    s.phase = .stopped ∧ ¬ NotActive tightHost s := by
  obtain ⟨s, call, hr, hun, hstopped, hcall, hrow⟩ :=
    stop_while_renewing (fun _ _ _ => True) (fun _ _ _ _ => trivial)
  have hr' := hr.of_restrict.step (.deliver hcall)
  refine ⟨_, hr', hun, hstopped, fun hno => ?_⟩
  have hfree : s.table.Free (tightHost.storeNowMs s.time) tightHost.request := fun lease hlease => by
    change s.table tightHost.host = some lease at hlease
    rw [hrow] at hlease
    cases hlease
  have hregister : (tightHost.process s (.register tightHost.request)).2 tightHost.host =
      some (LeaseTable.grant (tightHost.storeNowMs s.time) tightHost.request) := by
    simp only [HostLeaseMaintainer.process, LeaseTable.call, LeaseTable.register,
      show tightHost.request.validateDuration = .ok () from rfl, hfree, if_true]
    exact Function.update_self ..
  refine hno _ _ rfl ?_ hregister rfl
  simp only [HostLeaseStatus.isActive, hregister]
  simp [LeaseTable.grant, HostLeaseMaintainer.request, tightHost]

end LDO
