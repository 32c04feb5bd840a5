import DurableObjects.Sanity.LeaseMaintenance

/-! The host fences itself no later than the store does, up to what the clock readings
cut off. The deadline counts from a reading that is up to a millisecond early, and its
timer from an anchor that is up to a millisecond late, while the store may stamp the
lease at once with a reading of its own. -/

namespace LDO

variable {K : Type} [Field K] [LinearOrder K] [FloorRing K] {m : HostLeaseMaintainer K}
  {s s' : MaintainerState K} {e : MaintainerEvent K}

/-- The deadline ends with the last lease the store gave to this session, and that lease
is in the table for as long as it lasts. -/
def FencedInTime (m : HostLeaseMaintainer K) (s : MaintainerState K) (deadline : K) : Prop :=
  ∃ x, s.granted = some x ∧ deadline ≤ m.expiry x ∧ (m.expiry x ≤ s.time ∨
    ∃ lease, s.table m.host = some lease ∧ lease.sessionId = m.sessionId ∧ lease.expiresAtMs = x)

/-- The clock is read again only when the renewal took as long as its readings cut off. -/
def Punctual (m : HostLeaseMaintainer K) (s : MaintainerState K) (e : MaintainerEvent K)
    (_ : MaintainerState K) : Prop :=
  e = .sample → s.phase.Punctual m s.time

/-- A confirmation is on its way that was there before the deadline. -/
def RenewalPhase.RepliedBefore (deadline : K) : RenewalPhase K → Prop
  | .confirming _ _ _ anchor _ _ => anchor < deadline
  | _ => False

def MaintainerEvent.isReply : MaintainerEvent K → Bool
  | .reply _ => true
  | _ => false

/-! ### The deadline in force -/

omit [FloorRing K] in
theorem afterFailure_deadline (time : K) (deadline : Option K) :
    (m.afterFailure time deadline).deadline = deadline := by
  cases deadline <;> rfl

theorem sendRegister_deadline (s : MaintainerState K) (deadline : Option K) :
    (m.sendRegister s deadline).phase.deadline = deadline := by
  rw [HostLeaseMaintainer.sendRegister]
  split
  · exact afterFailure_deadline _ _
  · rfl

/-- Only a confirmation changes the deadline. -/
theorem deadline_step (hs : MaintainerStep m s e s') (he : e ≠ .sample) {d : K}
    (hd : s'.phase.deadline = some d) :
    s.phase.deadline = some d := by
  cases hs with
  | tick => exact hd
  | start hphase =>
    rw [sendRegister_deadline] at hd
    cases hd
  | wake hphase =>
    rw [sendRegister_deadline] at hd
    rwa [hphase]
  | deliver => exact hd
  | loseRequest => exact hd
  | loseReply => exact hd
  | reply hphase =>
    rw [hphase]
    exact hd
  | fail hphase =>
    rw [hphase]
    exact (afterFailure_deadline _ _).symm.trans hd
  | sample => exact absurd rfl he
  | expire => cases hd
  | shutdown => cases hd
  | sendUnregister => exact hd
  | applyUnregister => exact hd
  | other => exact hd

theorem laterGrant_step (h : MaintainerOk m s) (hs : MaintainerStep m s e s') : LaterGrant s s' := by
  cases hs with
  | deliver =>
    rcases process_register m s with ⟨hnone, -⟩ | ⟨lease, hanswer, -, -, hexpiry⟩
    · refine laterGrant_of_eq ?_
      simp [hnone]
    · refine fun x hx => ⟨lease.expiresAtMs, by simp [hanswer, LeaseAnswer.expiresAtMs], ?_⟩
      rw [hexpiry]
      exact (h.grant x hx).latest
  | start =>
    refine laterGrant_of_eq ?_
    rw [HostLeaseMaintainer.sendRegister]
    split <;> rfl
  | wake =>
    refine laterGrant_of_eq ?_
    rw [HostLeaseMaintainer.sendRegister]
    split <;> rfl
  | tick => exact laterGrant_of_eq rfl
  | loseRequest => exact laterGrant_of_eq rfl
  | loseReply => exact laterGrant_of_eq rfl
  | reply => exact laterGrant_of_eq rfl
  | fail => exact laterGrant_of_eq rfl
  | sample => exact laterGrant_of_eq rfl
  | expire => exact laterGrant_of_eq rfl
  | shutdown => exact laterGrant_of_eq rfl
  | sendUnregister => exact laterGrant_of_eq rfl
  | applyUnregister => exact laterGrant_of_eq rfl
  | other => exact laterGrant_of_eq rfl

/-- The new deadline ends with the lease that was confirmed. -/
theorem confirmed_deadline [IsStrictOrderedRing K] {deadline : Option K} {lease : HostLease}
    {validUntilMs : ℕ} {time anchor sampledAt stampedAt d : K}
    (hvalid : validUntilMs = m.hostNowMs sampledAt + m.durationMs)
    (hexpiry : lease.expiresAtMs = m.storeNowMs stampedAt + m.durationMs)
    (hpunctual : m.hostLoss time + m.storeLoss stampedAt ≤
      m.hostLoss sampledAt + (stampedAt - sampledAt) + (time - anchor))
    (hd : (m.confirmed time deadline validUntilMs anchor).deadline = some d) :
    d ≤ m.expiry lease.expiresAtMs ∨ deadline = some d := by
  simp only [HostLeaseMaintainer.confirmed] at hd
  split_ifs at hd with hpos
  · left
    have hle : m.hostNowMs time ≤ validUntilMs := by omega
    have hsub : ((validUntilMs - m.hostNowMs time : ℕ) : K) = validUntilMs - m.hostNowMs time :=
      Nat.cast_sub hle
    obtain rfl : anchor + ((validUntilMs - m.hostNowMs time : ℕ) : K) = d := Option.some.inj hd
    rw [hsub, hvalid, HostLeaseMaintainer.expiry, hexpiry, Nat.cast_add, Nat.cast_add]
    simp only [HostLeaseMaintainer.hostLoss, HostLeaseMaintainer.storeLoss] at hpunctual
    linarith
  · right
    rwa [afterFailure_deadline] at hd

def DeadlineOk (m : HostLeaseMaintainer K) (s : MaintainerState K) : Prop :=
  ∀ d, s.phase.deadline = some d → ∃ x, s.granted = some x ∧ d ≤ m.expiry x

theorem deadlineOk_step [IsStrictOrderedRing K] (hok : MaintainerOk m s) (h : DeadlineOk m s)
    (hs : MaintainerStep m s e s') (hp : Punctual m s e s') : DeadlineOk m s' := by
  have hl := laterGrant_step hok hs
  have hold : ∀ d, s.phase.deadline = some d → ∃ x, s'.granted = some x ∧ d ≤ m.expiry x := by
    intro d hd
    obtain ⟨x, hx, hle⟩ := h d hd
    obtain ⟨x', hx', hle'⟩ := hl x hx
    exact ⟨x', hx', hle.trans (HostLeaseMaintainer.expiry_mono hle')⟩
  intro d hd
  by_cases he : e = .sample
  · subst he
    have hpunctual := hp rfl
    cases hs with
    | sample hphase =>
      have hphaseOk := hok.phase
      rw [hphase] at hpunctual hphaseOk
      obtain ⟨hvalid, hheard⟩ := hphaseOk
      rcases confirmed_deadline hvalid hheard.expiry hpunctual hd with hle | hsame
      · obtain ⟨x, hx, hlex⟩ := hheard.granted
        exact ⟨x, hx, hle.trans (HostLeaseMaintainer.expiry_mono hlex)⟩
      · exact hold d (by rw [hphase]; exact hsame)
  · exact hold d (deadline_step hs he hd)

theorem deadlineOk_reachable [IsStrictOrderedRing K]
    (h : ((maintainerSystem m).restrict (Punctual m)).Reachable s) :
    MaintainerOk m s ∧ DeadlineOk m s := by
  refine h.invariant (I := fun s => MaintainerOk m s ∧ DeadlineOk m s) ?_ ?_
  · intro s hinit
    refine ⟨maintainerOk_init hinit, ?_⟩
    obtain ⟨-, -, -, -, -, -, -, hphase, -⟩ := hinit
    intro d hd
    rw [hphase] at hd
    cases hd
  · rintro s e s' ⟨hok, hdeadline⟩ ⟨hs, hp⟩
    exact ⟨maintainerOk_step hok hs, deadlineOk_step hok hdeadline hs hp⟩

omit [Field K] [LinearOrder K] [FloorRing K] in
theorem deadline_not_stopped {d : K} (h : s.phase.deadline = some d) : s.phase ≠ .stopped := by
  intro hstopped
  rw [hstopped] at h
  cases h

theorem fencedInTime_reachable [IsStrictOrderedRing K]
    (h : ((maintainerSystem m).restrict (Punctual m)).Reachable s) {d : K}
    (hd : s.phase.deadline = some d) : FencedInTime m s d := by
  obtain ⟨hok, hdeadline⟩ := deadlineOk_reachable h
  obtain ⟨x, hx, hle⟩ := hdeadline d hd
  exact ⟨x, hx, hle, (hok.grant x hx).held (deadline_not_stopped hd)⟩

/-! ### Late replies -/

/-- A reply is only taken before the deadline. -/
def AnchoredInTime (s : MaintainerState K) : Prop :=
  ∀ d lease validUntilMs anchor sampledAt stampedAt,
    s.phase = .confirming (some d) lease validUntilMs anchor sampledAt stampedAt → anchor < d

theorem sendRegister_not_confirming {deadline : Option K} {d : Option K} {lease : HostLease}
    {validUntilMs : ℕ} {anchor sampledAt stampedAt : K} :
    (m.sendRegister s deadline).phase ≠ .confirming d lease validUntilMs anchor sampledAt stampedAt := by
  rw [HostLeaseMaintainer.sendRegister]
  split
  · cases deadline <;> nofun
  · nofun

theorem anchoredInTime_step (h : AnchoredInTime s) (hs : MaintainerStep m s e s') : AnchoredInTime s' := by
  intro d lease validUntilMs anchor sampledAt stampedAt hphase'
  cases hs with
  | start => exact absurd hphase' sendRegister_not_confirming
  | wake => exact absurd hphase' sendRegister_not_confirming
  | reply hphase hbefore =>
    cases hphase'
    exact hbefore d rfl
  | @fail deadline =>
    cases deadline <;> cases hphase'
  | @sample deadline _ v a =>
    simp only [HostLeaseMaintainer.confirmed] at hphase'
    split_ifs at hphase'
    cases deadline <;> cases hphase'
  | expire => cases hphase'
  | shutdown => cases hphase'
  | tick => exact h d lease validUntilMs anchor sampledAt stampedAt hphase'
  | deliver => exact h d lease validUntilMs anchor sampledAt stampedAt hphase'
  | loseRequest => exact h d lease validUntilMs anchor sampledAt stampedAt hphase'
  | loseReply => exact h d lease validUntilMs anchor sampledAt stampedAt hphase'
  | sendUnregister => exact h d lease validUntilMs anchor sampledAt stampedAt hphase'
  | applyUnregister => exact h d lease validUntilMs anchor sampledAt stampedAt hphase'
  | other => exact h d lease validUntilMs anchor sampledAt stampedAt hphase'

theorem anchoredInTime_reachable (h : (maintainerSystem m).Reachable s) : AnchoredInTime s := by
  refine h.invariant (I := AnchoredInTime) ?_ anchoredInTime_step
  intro s hinit d lease validUntilMs anchor sampledAt stampedAt hphase
  obtain ⟨-, -, -, -, -, -, -, hidle, -⟩ := hinit
  rw [hidle] at hphase
  cases hphase

/-- The deadline is replaced only through a reply that was there before it. -/
theorem repliedBefore_of_replaced (h : (maintainerSystem m).Reachable s)
    (hs : MaintainerStep m s e s') {d d' : K} (hd : s.phase.deadline = some d)
    (hd' : s'.phase.deadline = some d') (hne : d' ≠ d) : s.phase.RepliedBefore d := by
  by_cases he : e = .sample
  · subst he
    cases hs with
    | sample hphase =>
      have hanchored := anchoredInTime_reachable h
      rw [hphase] at hd ⊢
      cases hd
      exact hanchored _ _ _ _ _ _ hphase
  · have hsame := deadline_step hs he hd'
    rw [hd, Option.some.injEq] at hsame
    exact absurd hsame.symm hne

/-! ### The timer -/

/-- The loop sleeps on a deadline that has not passed, or it has given the lease up. -/
def Sleeping (d : K) (s : MaintainerState K) : Prop :=
  s.phase.timer = some d ∧ s.time ≤ d ∨ s.phase = .stopped ∧ s.leaseLost = true

theorem sendRegister_timer (s : MaintainerState K) (d : K) :
    (m.sendRegister s (some d)).phase.timer = some d ∧ (m.sendRegister s (some d)).time = s.time := by
  rw [HostLeaseMaintainer.sendRegister]
  split
  · exact ⟨rfl, rfl⟩
  · exact ⟨rfl, rfl⟩

/-- A loop that has stopped stays so, and sends nothing more. -/
theorem stopped_step (h : s.phase = .stopped) (hs : MaintainerStep m s e s') :
    s'.phase = .stopped ∧ s'.sent = s.sent ∧ (s.leaseLost = true → s'.leaseLost = true) := by
  cases hs with
  | start hphase => rw [h] at hphase; cases hphase
  | wake hphase => rw [h] at hphase; cases hphase
  | reply hphase => rw [h] at hphase; cases hphase
  | fail hphase => rw [h] at hphase; cases hphase
  | sample hphase => rw [h] at hphase; cases hphase
  | expire => exact ⟨rfl, rfl, fun _ => rfl⟩
  | shutdown => exact ⟨rfl, rfl, id⟩
  | tick => exact ⟨h, rfl, id⟩
  | deliver => exact ⟨h, rfl, id⟩
  | loseRequest => exact ⟨h, rfl, id⟩
  | loseReply => exact ⟨h, rfl, id⟩
  | sendUnregister => exact ⟨h, rfl, id⟩
  | applyUnregister => exact ⟨h, rfl, id⟩
  | other => exact ⟨h, rfl, id⟩

theorem sleeping_step {d : K} (h : Sleeping d s) (hs : MaintainerStep m s e s') (hreply : e.isReply = false)
    (hshutdown : e ≠ .shutdown) : Sleeping d s' := by
  rcases h with ⟨htimer, hle⟩ | ⟨hstopped, hlost⟩
  · cases hs with
    | tick _ hguard => exact .inl ⟨htimer, hguard d htimer⟩
    | start hphase =>
      rw [hphase] at htimer
      cases htimer
    | wake hphase _ _ =>
      rw [hphase] at htimer
      obtain rfl := Option.some.inj htimer
      obtain ⟨ht, htime⟩ := sendRegister_timer (m := m) s _
      exact .inl ⟨ht, by rw [htime]; exact hle⟩
    | reply => cases hreply
    | fail hphase _ =>
      rw [hphase] at htimer
      obtain rfl : _ = some d := htimer
      exact .inl ⟨rfl, hle⟩
    | sample hphase =>
      rw [hphase] at htimer
      cases htimer
    | expire => exact .inr ⟨rfl, rfl⟩
    | shutdown => exact absurd rfl hshutdown
    | deliver => exact .inl ⟨htimer, hle⟩
    | loseRequest => exact .inl ⟨htimer, hle⟩
    | loseReply => exact .inl ⟨htimer, hle⟩
    | sendUnregister => exact .inl ⟨htimer, hle⟩
    | applyUnregister => exact .inl ⟨htimer, hle⟩
    | other => exact .inl ⟨htimer, hle⟩
  · obtain ⟨hphase, -, hkeep⟩ := stopped_step hstopped hs
    exact .inr ⟨hphase, hkeep hlost⟩

theorem sleeping_path {d : K} {evs : List (MaintainerEvent K)} (hp : (maintainerSystem m).Path s evs s')
    (h : Sleeping d s) (hevs : ∀ e ∈ evs, e.isReply = false ∧ e ≠ .shutdown) : Sleeping d s' := by
  induction hp with
  | nil => exact h
  | @snoc _ _ evs e _ hs ih =>
    obtain ⟨hreply, hshutdown⟩ := hevs e (by simp)
    exact sleeping_step (ih fun e he => hevs e (by simp [he])) hs hreply hshutdown

theorem stopped_path {evs : List (MaintainerEvent K)} (hp : (maintainerSystem m).Path s evs s')
    (h : s.phase = .stopped) :
    s'.phase = .stopped ∧ s'.sent = s.sent := by
  induction hp with
  | nil => exact ⟨h, rfl⟩
  | snoc _ hs ih =>
    obtain ⟨hphase, hsent⟩ := ih
    obtain ⟨hphase', hsent', -⟩ := stopped_step hphase hs
    exact ⟨hphase', hsent'.trans hsent⟩

theorem stopped_of_leaseLost (h : (maintainerSystem m).Reachable s) (hlost : s.leaseLost = true) :
    s.phase = .stopped := by
  revert hlost
  refine h.invariant (I := fun s => s.leaseLost = true → s.phase = .stopped) ?_ ?_
  · intro s hinit hlost
    obtain ⟨-, -, -, -, -, -, -, -, hno, -⟩ := hinit
    simp [hno] at hlost
  · intro s e s' ih hs hlost
    by_cases hold : s.leaseLost = true
    · exact (stopped_step (ih hold) hs).1
    · cases hs with
      | start hphase =>
        rw [HostLeaseMaintainer.sendRegister] at hlost
        split at hlost <;> exact absurd hlost hold
      | wake =>
        rw [HostLeaseMaintainer.sendRegister] at hlost
        split at hlost <;> exact absurd hlost hold
      | expire => rfl
      | shutdown => rfl
      | tick => exact absurd hlost hold
      | deliver => exact absurd hlost hold
      | loseRequest => exact absurd hlost hold
      | loseReply => exact absurd hlost hold
      | reply => exact absurd hlost hold
      | fail => exact absurd hlost hold
      | sample => exact absurd hlost hold
      | sendUnregister => exact absurd hlost hold
      | applyUnregister => exact absurd hlost hold
      | other => exact absurd hlost hold

/-- In every run whose renewals are punctual, the local deadline is never later than the
end of the lease at the store. In every run at all, only a reply that arrives before the
deadline replaces it, a deadline that passes without one loses the lease, and a host
that has lost its lease never renews it. -/
theorem host_fences_no_later [IsStrictOrderedRing K] (m : HostLeaseMaintainer K) :
    (∀ {s}, ((maintainerSystem m).restrict (Punctual m)).Reachable s → ∀ {d}, s.phase.deadline = some d →
      FencedInTime m s d) ∧
    (∀ {s e s'}, (maintainerSystem m).Reachable s → MaintainerStep m s e s' → ∀ {d d'}, s.phase.deadline = some d →
      s'.phase.deadline = some d' → d' ≠ d → s.phase.RepliedBefore d) ∧
    (∀ {s evs s'}, (maintainerSystem m).Reachable s → (maintainerSystem m).Path s evs s' → ∀ {d},
      s.phase.timer = some d → s.time ≤ d → d < s'.time → (∀ e ∈ evs, e.isReply = false ∧ e ≠ .shutdown) →
      s'.phase = .stopped ∧ s'.leaseLost = true) ∧
    (∀ {s evs s'}, (maintainerSystem m).Reachable s → s.leaseLost = true → (maintainerSystem m).Path s evs s' →
      s'.phase = .stopped ∧ s'.sent = s.sent) := by
  refine ⟨fun h _ hd => fencedInTime_reachable h hd, ?_, ?_, ?_⟩
  · exact fun h hs _ _ hd hd' hne => repliedBefore_of_replaced h hs hd hd' hne
  · intro s evs s' _ hp d htimer hle hpassed hevs
    rcases sleeping_path hp (.inl ⟨htimer, hle⟩) hevs with ⟨-, hle'⟩ | hgone
    · exact absurd hpassed (not_lt.mpr hle')
    · exact hgone
  · exact fun h hlost hp => stopped_path hp (stopped_of_leaseLost h hlost)

/-- A call that takes two milliseconds each way is punctual. -/
theorem host_fences_no_later_tightHost :
    ∃ s, ((maintainerSystem tightHost).restrict (Punctual tightHost)).Reachable s ∧
    s.phase.deadline = some 30000 ∧ FencedInTime tightHost s 30000 := by
  have hpunctual : tightHost.hostLoss 4 + tightHost.storeLoss 2 ≤ tightHost.hostLoss 0 + (2 - 0) + (4 - 4) := by
    have h0 := tightHost_hostNowMs 0
    have h4 := tightHost_hostNowMs 4
    have h2 := tightHost_storeNowMs 2
    push_cast at h0 h4 h2
    simp only [HostLeaseMaintainer.hostLoss, HostLeaseMaintainer.storeLoss, h0, h2, h4]
    norm_num [tightHost]
  obtain ⟨s, lease, hr, hfirst⟩ := first_renewal (Punctual tightHost) 2 4 4 notStarted_init rfl rfl tightHost_window
    (by norm_num [notStarted]) (by norm_num) le_rfl (fun _ _ _ _ he heq => absurd heq he) (by
      intro s₁ s₂ lease hphase htime _ _
      rw [hphase, htime]
      exact hpunctual)
  have hd : s.phase.deadline = some 30000 := by
    rw [hfirst.phase, tightHost_confirmed (n := 4) (by norm_num) (by decide)]
    simp only [RenewalPhase.deadline]
    norm_num
  exact ⟨s, hr, hd, (host_fences_no_later tightHost).1 hr hd⟩

/-- A call that takes no time at all: the store regards the lease as expired nine tenths
of a millisecond before the host does. -/
theorem host_fences_late : ∃ s, (maintainerSystem tightHost).Reachable s ∧ s.phase.deadline = some 30000 ∧
    s.granted = some 30000 ∧ tightHost.expiry 30000 < 30000 ∧ ¬ FencedInTime tightHost s 30000 := by
  obtain ⟨s, lease, hr, hfirst⟩ := first_renewal (fun _ _ _ => True) 0 0 0 notStarted_init rfl rfl tightHost_window
    le_rfl le_rfl le_rfl (fun _ _ _ _ _ => trivial) (fun _ _ _ _ _ _ => trivial)
  have hd : s.phase.deadline = some 30000 := by
    rw [hfirst.phase, tightHost_confirmed (n := 0) (by norm_num) (by decide)]
    simp only [RenewalPhase.deadline]
    norm_num
  have hg : s.granted = some 30000 := by
    have hzero := tightHost_storeNowMs 0
    rw [Nat.cast_zero] at hzero
    rw [hfirst.granted, hzero]
    rfl
  have hexpiry : tightHost.expiry 30000 < 30000 := by norm_num [HostLeaseMaintainer.expiry, tightHost]
  refine ⟨s, hr.of_restrict, hd, hg, hexpiry, ?_⟩
  rintro ⟨x, hx, hle, -⟩
  rw [hg, Option.some.injEq] at hx
  subst hx
  exact absurd hle (not_le.mpr hexpiry)

end LDO
