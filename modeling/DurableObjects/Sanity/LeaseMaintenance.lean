import Mathlib.Tactic.Linarith
import Mathlib.Data.Rat.Floor
import DurableObjects.Spec.LeaseMaintenance
import DurableObjects.Sanity.Leases

/-! What the maintainer knows about its lease. The store's last grant to the session is
the lease in the table until it expires, every reply is about a grant no later than the
last one, and the local deadline ends with the last grant, provided that the readings of
the clocks do not cut off more than the call took. -/

namespace LDO

variable {K : Type} [Field K] [LinearOrder K] [FloorRing K] {m : HostLeaseMaintainer K}
  {s s' : MaintainerState K} {e : MaintainerEvent K}

namespace HostLeaseMaintainer

/-- What a reading of the host clock leaves out. -/
def hostLoss (m : HostLeaseMaintainer K) (time : K) : K := time + m.hostOffset - m.hostNowMs time

def storeLoss (m : HostLeaseMaintainer K) (time : K) : K := time + m.storeOffset - m.storeNowMs time

theorem storeNowMs_le {time : K} (h : 0 ≤ time + m.storeOffset) :
    (m.storeNowMs time : K) ≤ time + m.storeOffset :=
  Nat.floor_le h

theorem storeNowMs_mono [IsStrictOrderedRing K] {time time' : K} (h : time ≤ time') :
    m.storeNowMs time ≤ m.storeNowMs time' :=
  Nat.floor_mono (by linarith)

theorem expiry_mono [IsStrictOrderedRing K] {x y : ℕ} (h : x ≤ y) : m.expiry x ≤ m.expiry y := by
  have hcast : (x : K) ≤ y := Nat.cast_le.mpr h
  simp only [expiry]
  linarith

end HostLeaseMaintainer

/-- The renewal took at least as long as its readings of the clocks cut off. -/
def RenewalPhase.Punctual (m : HostLeaseMaintainer K) (time : K) : RenewalPhase K → Prop
  | .confirming _ _ _ anchor sampledAt stampedAt =>
    m.hostLoss time + m.storeLoss stampedAt ≤ m.hostLoss sampledAt + (stampedAt - sampledAt) + (time - anchor)
  | _ => True

/-- The last grant of the session, as the store sees it. -/
structure GrantOk (m : HostLeaseMaintainer K) (s : MaintainerState K) (x : ℕ) : Prop where
  latest : x ≤ m.storeNowMs s.time + m.durationMs
  held : s.phase ≠ .stopped → m.expiry x ≤ s.time ∨
    ∃ lease, s.table m.host = some lease ∧ lease.sessionId = m.sessionId ∧ lease.expiresAtMs = x

/-- A grant the host has heard of. -/
structure HeardOf (m : HostLeaseMaintainer K) (s : MaintainerState K) (lease : HostLease)
    (stampedAt : K) : Prop where
  expiry : lease.expiresAtMs = m.storeNowMs stampedAt + m.durationMs
  granted : ∃ x, s.granted = some x ∧ lease.expiresAtMs ≤ x

def RenewalPhase.Ok (m : HostLeaseMaintainer K) (s : MaintainerState K) : RenewalPhase K → Prop
  | .renewing _ _ validUntilMs sampledAt => validUntilMs = m.hostNowMs sampledAt + m.durationMs
  | .confirming _ lease validUntilMs _ sampledAt stampedAt =>
    validUntilMs = m.hostNowMs sampledAt + m.durationMs ∧ HeardOf m s lease stampedAt
  | _ => True

structure MaintainerOk (m : HostLeaseMaintainer K) (s : MaintainerState K) : Prop where
  clock : 0 ≤ s.time + m.storeOffset
  row : ∀ lease, s.table m.host = some lease → lease.sessionId = m.sessionId →
    lease.expiresAtMs ≤ m.storeNowMs s.time + m.durationMs
  grant : ∀ x, s.granted = some x → GrantOk m s x
  replies : ∀ call lease stampedAt, s.replies call = some (.register (.ok lease), stampedAt) →
    HeardOf m s lease stampedAt
  phase : s.phase.Ok m s
  stopped : s.unregistering = true → s.phase = .stopped

/-- The grants of the store only get later. -/
def LaterGrant (s s' : MaintainerState K) : Prop :=
  ∀ x, s.granted = some x → ∃ x', s'.granted = some x' ∧ x ≤ x'

omit [Field K] [LinearOrder K] [FloorRing K] in
theorem laterGrant_of_eq (h : s'.granted = s.granted) : LaterGrant s s' := fun x hx => ⟨x, h.trans hx, le_rfl⟩

theorem HeardOf.later {lease : HostLease} {stampedAt : K} (h : HeardOf m s lease stampedAt)
    (hl : LaterGrant s s') :
    HeardOf m s' lease stampedAt := by
  obtain ⟨x, hx, hle⟩ := h.granted
  obtain ⟨x', hx', hle'⟩ := hl x hx
  exact ⟨h.expiry, x', hx', hle.trans hle'⟩

theorem RenewalPhase.Ok.later {phase : RenewalPhase K} (h : phase.Ok m s) (hl : LaterGrant s s') :
    phase.Ok m s' := by
  cases phase with
  | confirming => exact ⟨h.1, h.2.later hl⟩
  | renewing => exact h
  | idle => trivial
  | waiting => trivial
  | failed => trivial
  | stopped => trivial

/-- The store refuses the call and nothing changes, or it grants a new lease. -/
theorem process_register (m : HostLeaseMaintainer K) (s : MaintainerState K) :
    ((m.process s (.register m.request)).1.expiresAtMs = none ∧ (m.process s (.register m.request)).2 = s.table ∧
      ∀ lease, (m.process s (.register m.request)).1 ≠ .register (.ok lease)) ∨
    ∃ lease : HostLease, (m.process s (.register m.request)).1 = .register (.ok lease) ∧
      (m.process s (.register m.request)).2 = Function.update s.table m.host (some lease) ∧
      lease.sessionId = m.sessionId ∧ lease.expiresAtMs = m.storeNowMs s.time + m.durationMs := by
  simp only [HostLeaseMaintainer.process, LeaseTable.call, LeaseTable.register]
  cases m.request.validateDuration with
  | error e => exact .inl ⟨rfl, rfl, by simp⟩
  | ok u =>
    by_cases hfree : s.table.Free (m.storeNowMs s.time) m.request
    · simp only [hfree, if_true]
      exact .inr ⟨_, rfl, rfl, rfl, rfl⟩
    · simp only [hfree, if_false]
      exact .inl ⟨rfl, trivial, by simp⟩

theorem GrantOk.expired_or_active [IsStrictOrderedRing K] (hclock : 0 ≤ s.time + m.storeOffset) {x : ℕ} :
    m.expiry x ≤ s.time ∨ m.storeNowMs s.time < x := by
  by_cases h : m.storeNowMs s.time < x
  · exact .inr h
  · have hle : (x : K) ≤ m.storeNowMs s.time := Nat.cast_le.mpr (not_lt.mp h)
    have hnow := HostLeaseMaintainer.storeNowMs_le (m := m) hclock
    left
    simp only [HostLeaseMaintainer.expiry]
    linarith

/-- Another session's call leaves the lease alone until it has expired. -/
theorem process_other [IsStrictOrderedRing K] {call : LeaseCall}
    (hother : call.host = m.host → call.session ≠ some m.sessionId)
    (hclock : 0 ≤ s.time + m.storeOffset) {lease : HostLease} (hlease : s.table m.host = some lease)
    (hs : lease.sessionId = m.sessionId) :
    m.expiry lease.expiresAtMs ≤ s.time ∨ (m.process s call).2 m.host = some lease := by
  rcases GrantOk.expired_or_active (x := lease.expiresAtMs) hclock with hexpired | hactive
  · exact .inl hexpired
  · exact .inr (LeaseTable.call_kept hlease hactive (by rwa [hs]))

/-- Steps that touch neither the clock, the table nor the grants, and bring no good news. -/
theorem MaintainerOk.local (h : MaintainerOk m s) (htime : s'.time = s.time) (htable : s'.table = s.table)
    (hgranted : s'.granted = s.granted)
    (hreplies : ∀ call lease stampedAt, s'.replies call = some (.register (.ok lease), stampedAt) →
      s.replies call = some (.register (.ok lease), stampedAt))
    (hstop : s.phase = .stopped → s'.phase = .stopped) (hun : s'.unregistering = true → s'.phase = .stopped)
    (hphase : s'.phase.Ok m s') : MaintainerOk m s' := by
  have hl := laterGrant_of_eq hgranted
  refine ⟨by rw [htime]; exact h.clock, ?_, ?_, ?_, hphase, hun⟩
  · rw [htime, htable]
    exact h.row
  · intro x hx
    have hgrant := h.grant x (hgranted ▸ hx)
    refine ⟨by rw [htime]; exact hgrant.latest, fun hne => ?_⟩
    rw [htime, htable]
    exact hgrant.held fun heq => hne (hstop heq)
  · exact fun call lease stampedAt hr => (h.replies call lease stampedAt (hreplies _ _ _ hr)).later hl

/-- A running loop that changes its phase. -/
theorem MaintainerOk.move (h : MaintainerOk m s) (hne : s.phase ≠ .stopped) {phase : RenewalPhase K}
    (hphase : phase.Ok m s) : MaintainerOk m { s with phase := phase } :=
  h.local rfl rfl rfl (fun _ _ _ hr => hr) (fun heq => absurd heq hne) (fun hu => absurd (h.stopped hu) hne)
    (hphase.later (laterGrant_of_eq rfl))

theorem afterFailure_ok (time : K) (deadline : Option K) : (m.afterFailure time deadline).Ok m s := by
  cases deadline <;> trivial

theorem confirmedPhase_ok (time : K) (deadline : Option K) (validUntilMs : ℕ) (anchor : K) :
    (m.confirmed time deadline validUntilMs anchor).Ok m s := by
  simp only [HostLeaseMaintainer.confirmed]
  split_ifs
  · trivial
  · exact afterFailure_ok time deadline

/-- Sending a register call changes nothing but the phase and the calls on their way. -/
theorem sendRegister_ok (h : MaintainerOk m s) {deadline : Option K} (hne : s.phase ≠ .stopped) :
    MaintainerOk m (m.sendRegister s deadline) := by
  have hun : s.unregistering = true → False := fun hu => hne (h.stopped hu)
  rw [HostLeaseMaintainer.sendRegister]
  cases hsum : checkedAdd (m.hostNowMs s.time) m.durationMs with
  | none =>
    refine h.local rfl rfl rfl (fun _ _ _ hr => hr) (fun heq => absurd heq hne) (fun hu => (hun hu).elim) ?_
    exact afterFailure_ok s.time deadline
  | some validUntilMs =>
    refine h.local rfl rfl rfl (fun _ _ _ hr => hr) (fun heq => absurd heq hne) (fun hu => (hun hu).elim) ?_
    rw [checkedAdd] at hsum
    split_ifs at hsum with hle
    exact (Option.some.inj hsum).symm

theorem deliver_ok (h : MaintainerOk m s) (call : ℕ) : MaintainerOk m
    { s with table := (m.process s (.register m.request)).2
             granted := (m.process s (.register m.request)).1.expiresAtMs <|> s.granted
             requests := Function.update s.requests call false
             replies := Function.update s.replies call (some ((m.process s (.register m.request)).1, s.time)) } := by
  rcases process_register m s with ⟨hnone, htable, hno⟩ | ⟨lease, hanswer, htable, hsession, hexpiry⟩
  · rw [htable, hnone]
    refine h.local rfl rfl rfl ?_ id h.stopped (h.phase.later (laterGrant_of_eq rfl))
    intro call' lease stampedAt hr
    dsimp only at hr
    by_cases hcall : call' = call
    · subst hcall
      rw [Function.update_self, Option.some.injEq, Prod.mk.injEq] at hr
      exact absurd hr.1 (hno lease)
    · rwa [Function.update_of_ne hcall] at hr
  · rw [htable, hanswer]
    -- the new grant is the latest one
    have hl : LaterGrant s { s with
        table := Function.update s.table m.host (some lease)
        granted := (LeaseAnswer.register (.ok lease)).expiresAtMs <|> s.granted
        requests := Function.update s.requests call false
        replies := Function.update s.replies call (some (.register (.ok lease), s.time)) } :=
      fun x hx => ⟨lease.expiresAtMs, rfl, by rw [hexpiry]; exact (h.grant x hx).latest⟩
    refine ⟨h.clock, ?_, ?_, ?_, h.phase.later hl, h.stopped⟩
    · intro lease' hlease' _
      dsimp only at hlease' ⊢
      rw [Function.update_self, Option.some.injEq] at hlease'
      rw [← hlease', hexpiry]
    · intro x hx
      obtain rfl : lease.expiresAtMs = x := Option.some.inj hx
      exact ⟨le_of_eq hexpiry, fun _ => .inr ⟨lease, Function.update_self .., hsession, rfl⟩⟩
    · intro call' lease' stampedAt hr
      dsimp only at hr
      by_cases hcall : call' = call
      · subst hcall
        rw [Function.update_self, Option.some.injEq, Prod.mk.injEq] at hr
        obtain ⟨hlease, rfl⟩ := hr
        cases hlease
        exact ⟨hexpiry, lease.expiresAtMs, rfl, le_rfl⟩
      · rw [Function.update_of_ne hcall] at hr
        exact (h.replies call' lease' stampedAt hr).later hl

theorem tick_ok [IsStrictOrderedRing K] (h : MaintainerOk m s) {time : K} (hle : s.time ≤ time) :
    MaintainerOk m { s with time := time } := by
  have hnow := HostLeaseMaintainer.storeNowMs_mono (m := m) hle
  refine ⟨?_, ?_, ?_, ?_, h.phase.later (laterGrant_of_eq rfl), h.stopped⟩
  · have hclock := h.clock
    change 0 ≤ time + m.storeOffset
    linarith
  · intro lease hlease hs
    have hrow := h.row lease hlease hs
    change lease.expiresAtMs ≤ m.storeNowMs time + m.durationMs
    omega
  · intro x hx
    have hgrant := h.grant x hx
    refine ⟨?_, fun hne => (hgrant.held hne).imp_left fun hexp => hexp.trans hle⟩
    have hlatest := hgrant.latest
    change x ≤ m.storeNowMs time + m.durationMs
    omega
  · exact fun call lease stampedAt hr => (h.replies call lease stampedAt hr).later (laterGrant_of_eq rfl)

/-- The session's own row comes from its own register calls. -/
theorem process_other_row {call : LeaseCall} (hother : call.host = m.host → call.session ≠ some m.sessionId)
    {lease : HostLease} (hlease : (m.process s call).2 m.host = some lease)
    (hs : lease.sessionId = m.sessionId) :
    s.table m.host = some lease := by
  rcases LeaseTable.call_stored hlease with hold | ⟨request, hcall, hid, -, rfl⟩
  · exact hold
  · change call = .register request at hcall
    subst hcall
    exact absurd (by rw [← hs]; rfl) (hother hid)

theorem other_ok [IsStrictOrderedRing K] (h : MaintainerOk m s) {call : LeaseCall}
    (hother : call.host = m.host → call.session ≠ some m.sessionId) :
    MaintainerOk m { s with table := (m.process s call).2 } := by
  refine ⟨h.clock, ?_, ?_, ?_, h.phase.later (laterGrant_of_eq rfl), h.stopped⟩
  · exact fun lease hlease hs => h.row lease (process_other_row hother hlease hs) hs
  · intro x hx
    have hgrant := h.grant x hx
    refine ⟨hgrant.latest, fun hne => ?_⟩
    rcases hgrant.held hne with hexpired | ⟨lease, hlease, hs, rfl⟩
    · exact .inl hexpired
    · exact (process_other hother h.clock hlease hs).imp_right fun hkept => ⟨lease, hkept, hs, rfl⟩
  · exact fun call lease stampedAt hr => (h.replies call lease stampedAt hr).later (laterGrant_of_eq rfl)

theorem process_unregister {lease : HostLease}
    (h : (m.process s (.unregister m.host m.sessionId)).2 m.host = some lease) :
    lease.sessionId ≠ m.sessionId := by
  simp only [HostLeaseMaintainer.process, LeaseTable.call, LeaseTable.unregister] at h
  split_ifs at h with hs
  · simp at h
  · intro heq
    exact hs (by rw [h, Option.map_some, heq])

/-- The unregister call only comes when the loop has stopped. -/
theorem applyUnregister_ok (h : MaintainerOk m s) (hu : s.unregistering = true) : MaintainerOk m
    { s with table := (m.process s (.unregister m.host m.sessionId)).2, unregistering := false, unregistered := true } := by
  have hstopped := h.stopped hu
  refine ⟨h.clock, ?_, ?_, ?_, h.phase.later (laterGrant_of_eq rfl), by simp⟩
  · exact fun lease hlease hs => absurd hs (process_unregister hlease)
  · exact fun x hx => ⟨(h.grant x hx).latest, fun hne => absurd hstopped hne⟩
  · exact fun call lease stampedAt hr => (h.replies call lease stampedAt hr).later (laterGrant_of_eq rfl)

theorem maintainerOk_step [IsStrictOrderedRing K] (h : MaintainerOk m s)
    (hs : MaintainerStep m s e s') : MaintainerOk m s' := by
  cases hs with
  | tick hle _ => exact tick_ok h hle
  | start hphase => exact sendRegister_ok h (by simp [hphase])
  | wake hphase _ _ => exact sendRegister_ok h (by simp [hphase])
  | deliver _ => exact deliver_ok h _
  | loseRequest =>
    exact h.local rfl rfl rfl (fun _ _ _ hr => hr) id h.stopped (h.phase.later (laterGrant_of_eq rfl))
  | @loseReply call =>
    refine h.local rfl rfl rfl (fun call' lease stampedAt hr => ?_) id h.stopped (h.phase.later (laterGrant_of_eq rfl))
    dsimp only at hr
    by_cases hcall : call' = call
    · subst hcall
      simp at hr
    · rwa [Function.update_of_ne hcall] at hr
  | reply hphase _ hreply =>
    have hwindow := h.phase
    rw [hphase] at hwindow
    exact h.move (by simp [hphase]) ⟨hwindow, h.replies _ _ _ hreply⟩
  | fail hphase _ => exact h.move (by simp [hphase]) (afterFailure_ok _ _)
  | sample hphase => exact h.move (by simp [hphase]) (confirmedPhase_ok _ _ _ _)
  | expire _ _ => exact h.local rfl rfl rfl (fun _ _ _ hr => hr) (fun _ => rfl) (fun _ => rfl) trivial
  | shutdown _ _ => exact h.local rfl rfl rfl (fun _ _ _ hr => hr) (fun _ => rfl) (fun _ => rfl) trivial
  | sendUnregister hphase _ _ =>
    exact h.local rfl rfl rfl (fun _ _ _ hr => hr) id (fun _ => hphase) (h.phase.later (laterGrant_of_eq rfl))
  | applyUnregister hu => exact applyUnregister_ok h hu
  | other hother => exact other_ok h hother

theorem maintainerOk_init (h : (maintainerSystem m).init s) : MaintainerOk m s := by
  obtain ⟨-, hclock, hrow, hgranted, -, hreplies, -, hphase, -, hun, -⟩ := h
  refine ⟨hclock, fun lease hlease hs => absurd hs (hrow lease hlease), ?_, ?_, ?_, ?_⟩
  · simp [hgranted]
  · simp [hreplies]
  · rw [hphase]
    trivial
  · simp [hun]

/-! ### A first renewal -/

/-- The state after a first renewal: sampled at `s.time`, stamped at `stampedAt`, anchored
at `anchor` and sampled again at `time`. -/
structure FirstRenewal (m : HostLeaseMaintainer K) (s : MaintainerState K) (validUntilMs : ℕ)
    (stampedAt anchor time : K) (s' : MaintainerState K) (lease : HostLease) : Prop where
  now : s'.time = time
  phase : s'.phase = m.confirmed time none validUntilMs anchor
  granted : s'.granted = some (m.storeNowMs stampedAt + m.durationMs)
  table : s'.table = Function.update s.table m.host (some lease)
  session : lease.sessionId = m.sessionId
  unregistering : s'.unregistering = s.unregistering
  unregistered : s'.unregistered = s.unregistered

theorem first_renewal (cond : MaintainerState K → MaintainerEvent K → MaintainerState K → Prop)
    (stampedAt anchor time : K) (hinit : (maintainerSystem m).init s)
    (hempty : s.table m.host = none) (hdur : m.request.validateDuration = .ok ())
    {validUntilMs : ℕ} (hsum : checkedAdd (m.hostNowMs s.time) m.durationMs = some validUntilMs)
    (h₁ : s.time ≤ stampedAt) (h₂ : stampedAt ≤ anchor) (h₃ : anchor ≤ time)
    (hfree : ∀ s₁ e s₂, s₁.unregistered = s.unregistered → e ≠ .sample → cond s₁ e s₂)
    (hsample : ∀ s₁ s₂ lease, s₁.phase = .confirming none lease validUntilMs anchor s.time stampedAt → s₁.time = time →
      s₁.unregistered = s.unregistered → cond s₁ .sample s₂) :
    ∃ s' lease, ((maintainerSystem m).restrict cond).Reachable s' ∧
      FirstRenewal m s validUntilMs stampedAt anchor time s' lease := by
  have hgo : ∀ {s₁ s₂ : MaintainerState K} {e}, ((maintainerSystem m).restrict cond).Reachable s₁ →
      MaintainerStep m s₁ e s₂ → s₁.unregistered = s.unregistered → e ≠ .sample →
        ((maintainerSystem m).restrict cond).Reachable s₂ :=
    fun hr hs hu he => hr.step ⟨hs, hfree _ _ _ hu he⟩
  have hr₀ : ((maintainerSystem m).restrict cond).Reachable s := ⟨[], s, hinit, .nil s⟩
  obtain ⟨-, -, -, -, -, -, -, hidle, -⟩ := hinit
  have hr₁ := hgo hr₀ (.start hidle) rfl (by simp)
  have hsend : m.sendRegister s none = { s with
      phase := .renewing none s.sent validUntilMs s.time
      requests := Function.update s.requests s.sent true
      sent := s.sent + 1 } := by
    rw [HostLeaseMaintainer.sendRegister, hsum]
  rw [hsend] at hr₁
  have hr₂ := hgo hr₁ (.tick h₁ (by intro d hd; cases hd)) rfl (by simp)
  rcases process_register m { s with
      time := stampedAt
      phase := .renewing none s.sent validUntilMs s.time
      requests := Function.update s.requests s.sent true
      sent := s.sent + 1 } with ⟨-, -, hno⟩ | ⟨lease, hanswer, htable, hsession, hexpiry⟩
  · refine absurd ?_ (hno (LeaseTable.grant (m.storeNowMs stampedAt) m.request))
    have hfree' : s.table.Free (m.storeNowMs stampedAt) m.request := fun lease hlease => by
      change s.table m.host = some lease at hlease
      rw [hempty] at hlease
      cases hlease
    simp only [HostLeaseMaintainer.process, LeaseTable.call, LeaseTable.register, hdur, hfree', if_true]
  · have hr₃ := hgo hr₂ (.deliver (Function.update_self s.sent true s.requests)) rfl (by simp)
    have hr₄ := hgo hr₃ (.tick h₂ (by intro d hd; cases hd)) rfl (by simp)
    rw [hanswer] at hr₄
    have hr₅ := hgo hr₄ (.reply rfl (by intro d hd; cases hd) (Function.update_self ..)) rfl (by simp)
    have hr₆ := hgo hr₅ (.tick h₃ (by intro d hd; cases hd)) rfl (by simp)
    have hr₇ := hr₆.step ⟨.sample rfl, hsample _ _ _ rfl rfl rfl⟩
    refine ⟨_, lease, hr₇, rfl, rfl, ?_, htable, hsession, rfl, rfl⟩
    simp [LeaseAnswer.expiresAtMs, hexpiry]

/-- A host whose store's clock is nine tenths of a millisecond ahead. -/
def tightHost : HostLeaseMaintainer ℚ where
  host := ⟨"node-a"⟩
  route := "node-a"
  sessionId := "session-a"
  durationMs := 30000
  renewEvery := 10000
  hostOffset := 0
  storeOffset := 9 / 10
  duration_pos := by decide
  renewEvery_pos := by norm_num
  renewEvery_lt := by norm_num
  sessionId_ne := by decide

def notStarted : MaintainerState ℚ :=
  ⟨0, fun _ => none, none, fun _ => false, fun _ => none, 0, .idle, false, false, false⟩

theorem notStarted_init : (maintainerSystem tightHost).init notStarted := by
  refine ⟨?_, ?_, (fun _ h => nomatch h), rfl, fun _ => rfl, fun _ => rfl, rfl, rfl, rfl, rfl, rfl⟩
  · norm_num [notStarted, tightHost]
  · norm_num [notStarted, tightHost]

theorem tightHost_hostNowMs (n : ℕ) : tightHost.hostNowMs n = n := by
  simp [HostLeaseMaintainer.hostNowMs, tightHost]

theorem tightHost_storeNowMs (n : ℕ) : tightHost.storeNowMs n = n := by
  rw [HostLeaseMaintainer.storeNowMs, Nat.floor_eq_iff (by simp [tightHost]; positivity)]
  norm_num [tightHost]

theorem tightHost_window :
    checkedAdd (tightHost.hostNowMs notStarted.time) tightHost.durationMs = some 30000 := by
  have hzero := tightHost_hostNowMs 0
  rw [Nat.cast_zero] at hzero
  rw [show notStarted.time = 0 from rfl, hzero]
  decide

theorem tightHost_confirmed {time : ℚ} {n : ℕ} (htime : time = n) (hn : n < 30000) {anchor : ℚ} :
    tightHost.confirmed time none 30000 anchor = .waiting (anchor + (30000 - n)) (time + 10000) := by
  have hpos : 30000 - tightHost.hostNowMs time > 0 := by
    rw [htime, tightHost_hostNowMs]
    omega
  have hcast : ((30000 - n : ℕ) : ℚ) = 30000 - n := by
    rw [Nat.cast_sub (le_of_lt hn)]
    norm_num
  simp only [HostLeaseMaintainer.confirmed, if_pos hpos]
  rw [htime, tightHost_hostNowMs, hcast]
  rfl

end LDO
