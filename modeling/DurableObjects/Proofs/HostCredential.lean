import DurableObjects.Sanity.HostCredential
import DurableObjects.Sanity.LeaseMaintenance
import DurableObjects.Proofs.SelfFencing

/-! A host never loses its credential before its lease: the deadline of the lease is less than a lease
away from the time of a reading, and the token in hand is good for longer than that. -/

namespace LDO

open Prog

variable {K : Type} [Field K] [LinearOrder K] [FloorRing K] {c : LaunchedHost K}
  {s s' : CredentialState K} {e : MaintainerEvent K}

/-- The deadline ends within a lease of `time`, and the token later. -/
structure Ends (c : LaunchedHost K) (token : ActorJwt) (time deadline : K) : Prop where
  within : deadline < time + (c.maintainer.durationMs + 1 : ℕ)
  outlasts : ∀ t ≤ deadline, c.Outlasts token t

theorem Ends.mono [IsStrictOrderedRing K] {token : ActorJwt} {time time' deadline : K}
    (h : Ends c token time deadline) (hle : time ≤ time') :
    Ends c token time' deadline := ⟨h.within.trans_le (by linarith), h.outlasts⟩

theorem ends_of_fresh {token : ActorJwt} {sampledAt deadline : K} (h : c.Fresh token sampledAt)
    (hd : deadline < sampledAt + (c.maintainer.durationMs + 1 : ℕ)) : Ends c token sampledAt deadline :=
  ⟨hd, fun t ht => h t (ht.trans_lt hd)⟩

def RenewalPhase.CredentialOk (c : LaunchedHost K) (token : ActorJwt) (carried : ℕ → ActorJwt)
    (time : K) : RenewalPhase K → Prop
  | .waiting deadline _ => Ends c token time deadline
  | .renewing deadline sent _ sampledAt =>
      carried sent = token ∧ 0 ≤ sampledAt + c.maintainer.hostOffset ∧ sampledAt ≤ time ∧
      c.Minted token sampledAt ∧ ∀ d, deadline = some d → Ends c token sampledAt d
  | .confirming deadline _ _ anchor sampledAt _ =>
      0 ≤ sampledAt + c.maintainer.hostOffset ∧ sampledAt ≤ anchor ∧ anchor ≤ time ∧
      c.Fresh token sampledAt ∧ ∀ d, deadline = some d → Ends c token sampledAt d
  | _ => True

structure CredentialOk (c : LaunchedHost K) (s : CredentialState K) : Prop where
  lease : MaintainerOk c.maintainer s.lease
  clock : 0 ≤ s.lease.time + c.maintainer.hostOffset
  minted : c.Minted s.token s.lease.time
  phase : s.lease.phase.CredentialOk c s.token s.carried s.lease.time

theorem RenewalPhase.CredentialOk.later [IsStrictOrderedRing K] {token : ActorJwt}
    {carried : ℕ → ActorJwt} {time time' : K} {phase : RenewalPhase K}
    (h : phase.CredentialOk c token carried time) (hle : time ≤ time') :
    phase.CredentialOk c token carried time' := by
  cases phase with
  | waiting => exact Ends.mono h hle
  | renewing =>
    obtain ⟨hcarried, hclock, hsampled, hminted, hends⟩ := h
    exact ⟨hcarried, hclock, hsampled.trans hle, hminted, hends⟩
  | confirming =>
    obtain ⟨hclock, hsampled, hanchor, hfresh, hends⟩ := h
    exact ⟨hclock, hsampled, hanchor.trans hle, hfresh, hends⟩
  | idle => trivial
  | failed => trivial
  | stopped => trivial

theorem afterFailure_credential {token : ActorJwt} {carried : ℕ → ActorJwt} {time : K} {deadline : Option K}
    (h : ∀ d, deadline = some d → Ends c token time d) :
    (c.maintainer.afterFailure time deadline).CredentialOk c token carried time := by
  cases deadline with
  | none => trivial
  | some d => exact h d rfl

/-- A call is sent with the token in hand. -/
theorem sendRegister_credential {lease : MaintainerState K} {token : ActorJwt}
    {carried : ℕ → ActorJwt} {deadline : Option K} (hclock : 0 ≤ lease.time + c.maintainer.hostOffset)
    (hminted : c.Minted token lease.time) (h : ∀ d, deadline = some d → Ends c token lease.time d) :
    (c.maintainer.sendRegister lease deadline).phase.CredentialOk c token (Function.update carried lease.sent token) lease.time := by
  rw [HostLeaseMaintainer.sendRegister]
  split
  · exact afterFailure_credential h
  · exact ⟨Function.update_self .., hclock, le_rfl, hminted, h⟩

/-- What is left of the window ends less than a lease after the first reading. -/
theorem confirmed_within [IsStrictOrderedRing K] {deadline : Option K} {validUntilMs : ℕ}
    {time anchor sampledAt d : K}
    (hvalid : validUntilMs = c.maintainer.hostNowMs sampledAt + c.maintainer.durationMs)
    (hclock : 0 ≤ sampledAt + c.maintainer.hostOffset) (hanchor : anchor ≤ time)
    (hd : (c.maintainer.confirmed time deadline validUntilMs anchor).deadline = some d) :
    d < sampledAt + (c.maintainer.durationMs + 1 : ℕ) ∨ deadline = some d := by
  simp only [HostLeaseMaintainer.confirmed] at hd
  split_ifs at hd with hpos
  · left
    obtain rfl : anchor + ((validUntilMs - c.maintainer.hostNowMs time : ℕ) : K) = d := Option.some.inj hd
    have hle : c.maintainer.hostNowMs time ≤ validUntilMs := by omega
    have hread : (c.maintainer.hostNowMs sampledAt : K) ≤ sampledAt + c.maintainer.hostOffset :=
      Nat.floor_le hclock
    have hlate : time + c.maintainer.hostOffset < c.maintainer.hostNowMs time + 1 := Nat.lt_floor_add_one _
    rw [Nat.cast_sub hle, hvalid]
    push_cast
    linarith
  · right
    rwa [afterFailure_deadline] at hd

/-- Only a tick moves the clock. -/
theorem time_step {lease lease' : MaintainerState K}
    (hs : MaintainerStep c.maintainer lease e lease') : lease.time ≤ lease'.time := by
  cases hs with
  | tick hle => exact hle
  | start =>
    rw [HostLeaseMaintainer.sendRegister]
    split <;> exact le_rfl
  | wake =>
    rw [HostLeaseMaintainer.sendRegister]
    split <;> exact le_rfl
  | _ => exact le_rfl

theorem sendRegister_time (lease : MaintainerState K) (deadline : Option K) :
    (c.maintainer.sendRegister lease deadline).time = lease.time := by
  rw [HostLeaseMaintainer.sendRegister]
  split <;> rfl

theorem send_phase {lease : MaintainerState K} (h : CredentialOk c s) (he : e.sends = true)
    (hs : MaintainerStep c.maintainer s.lease e lease) :
    lease.phase.CredentialOk c s.token (Function.update s.carried s.lease.sent s.token) lease.time := by
  have hphase := h.phase
  cases hs with
  | start hidle =>
    rw [sendRegister_time]
    exact sendRegister_credential h.clock h.minted nofun
  | wake hwaiting =>
    rw [hwaiting] at hphase
    rw [sendRegister_time]
    refine sendRegister_credential h.clock h.minted fun d hd => ?_
    cases hd
    exact hphase
  | _ => cases he

theorem move_phase [IsStrictOrderedRing K] {lease : MaintainerState K} (h : CredentialOk c s)
    (he : e.sends = false) (hreply : ∀ n, e ≠ .reply n)
    (hs : MaintainerStep c.maintainer s.lease e lease) :
    lease.phase.CredentialOk c s.token s.carried lease.time := by
  have hphase := h.phase
  have hlease := h.lease.phase
  cases hs with
  | tick hle => exact hphase.later hle
  | start => cases he
  | wake => cases he
  | reply => exact absurd rfl (hreply _)
  | fail hrenewing =>
    rw [hrenewing] at hphase
    obtain ⟨-, -, hsampled, -, hends⟩ := hphase
    exact afterFailure_credential fun d hd => (hends d hd).mono hsampled
  | @sample deadline lease validUntilMs anchor sampledAt stampedAt hconfirming =>
    rw [hconfirming] at hphase hlease
    obtain ⟨hclock, hsampled, hanchor, hfresh, hends⟩ := hphase
    have hwithin : ∀ d, (c.maintainer.confirmed s.lease.time deadline validUntilMs anchor).deadline = some d →
        Ends c s.token s.lease.time d := by
      intro d hd
      rcases confirmed_within hlease.1 hclock hanchor hd with hlt | hsame
      · exact (ends_of_fresh hfresh hlt).mono (hsampled.trans hanchor)
      · exact (hends d hsame).mono (hsampled.trans hanchor)
    simp only [HostLeaseMaintainer.confirmed] at hwithin ⊢
    split
    · rename_i hpos
      exact hwithin _ (by rw [if_pos hpos]; rfl)
    · exact afterFailure_credential fun d hd => (hends d hd).mono (hsampled.trans hanchor)
  | expire => trivial
  | shutdown => trivial
  | deliver => exact hphase
  | loseRequest => exact hphase
  | loseReply => exact hphase
  | sendUnregister => exact hphase
  | applyUnregister => exact hphase
  | other => exact hphase

/-- The reply brings a token that is good for the lease, if the old one is not. -/
theorem reply_phase [IsStrictOrderedRing K] {lease : MaintainerState K} {deadline : Option K}
    {n validUntilMs : ℕ} {sampledAt time : K} {reply : HostLease} {replacement : Option ActorJwt}
    (hlife : c.maintainer.durationMs + 1001 ≤ c.config.maxTtlSeconds * 1000) (h : CredentialOk c s)
    (hphase : s.lease.phase = .renewing deadline n validUntilMs sampledAt)
    (hs : MaintainerStep c.maintainer s.lease (.reply n) lease)
    (hx : Exec c.serverEnv (c.service.execute (s.carried n) (.registerLease c.maintainer.request)).run sampledAt
      (.ok (.lease reply replacement)) time) (hle : time ≤ s.lease.time) :
    c.Minted (replacement.getD s.token) lease.time ∧
      lease.phase.CredentialOk c (replacement.getD s.token) s.carried lease.time := by
  have hrenewing := h.phase
  rw [hphase] at hrenewing
  obtain ⟨hcarried, hclock, hsampled, hminted, hends⟩ := hrenewing
  rw [hcarried] at hx
  have hrenewed := hx.of_wp (LaunchedHost.gives_registerLease hlife hminted) _ rfl reply replacement rfl
  cases hs with
  | reply hphase' =>
    cases hphase.symm.trans hphase'
    refine ⟨hrenewed.minted.mono hle, hclock, hsampled, le_rfl, hrenewed.fresh, fun d hd => ?_⟩
    exact ends_of_fresh hrenewed.fresh (hends d hd).within

theorem credentialOk_step [IsStrictOrderedRing K]
    (hlife : c.maintainer.durationMs + 1001 ≤ c.config.maxTtlSeconds * 1000) (h : CredentialOk c s)
    (hs : CredentialStep c s e s') : CredentialOk c s' := by
  have hclock : ∀ {time : K}, s.lease.time ≤ time → 0 ≤ time + c.maintainer.hostOffset := by
    intro time hle
    have := h.clock
    linarith
  cases hs with
  | send he hs =>
    have hle := time_step hs
    exact ⟨maintainerOk_step h.lease hs, hclock hle, h.minted.mono hle, send_phase h he hs⟩
  | reply hphase _ hs hx hle =>
    obtain ⟨hminted, hphase'⟩ := reply_phase hlife h hphase hs hx hle
    exact ⟨maintainerOk_step h.lease hs, hclock (time_step hs), hminted, hphase'⟩
  | move he hreply hs =>
    have hle := time_step hs
    exact ⟨maintainerOk_step h.lease hs, hclock hle, h.minted.mono hle, move_phase (s := s) h he hreply hs⟩

theorem credentialOk_reachable [IsStrictOrderedRing K]
    (hlife : c.maintainer.durationMs + 1001 ≤ c.config.maxTtlSeconds * 1000)
    (h : (credentialSystem c).Reachable s) : CredentialOk c s := by
  refine h.invariant (I := CredentialOk c) ?_ fun hok hs => credentialOk_step hlife hok hs
  rintro s ⟨hinit, hminted⟩
  refine ⟨maintainerOk_init hinit, hinit.1, hminted, ?_⟩
  obtain ⟨-, -, -, -, -, -, -, hphase, -⟩ := hinit
  rw [hphase]
  trivial

/-- The token of a host that still holds its lease is accepted, at any time up to the deadline. -/
theorem credential_outlives_lease [IsStrictOrderedRing K]
    (hlife : c.maintainer.durationMs + 1001 ≤ c.config.maxTtlSeconds * 1000)
    (h : (credentialSystem c).Reachable s) {deadline decodedAt now : K}
    (hd : s.lease.phase.deadline = some deadline) (hfrom : s.lease.time ≤ decodedAt)
    (hle : decodedAt ≤ now) (huntil : now ≤ deadline)
    (hclock : (c.serverMs now : ℤ) + 1000 ≤ i64Limit) :
    ∃ principal, c.service.auth.authenticate c.parsers (c.serverSeconds decodedAt) (c.serverSeconds now) s.token = .ok principal ∧
      principal.processRole = .host ∧ principal.hostId = c.maintainer.host ∧
      principal.sessionId = c.maintainer.sessionId ∧
      principal.scope.namespaceId = c.namespaceId ∧ principal.region = c.region := by
  have hok := credentialOk_reachable hlife h
  have hends : Ends c s.token s.lease.time deadline := by
    have hphase := hok.phase
    generalize s.lease.phase = phase at hphase hd
    cases phase with
    | waiting =>
      cases hd
      exact hphase
    | renewing =>
      obtain ⟨-, -, hsampled, -, hends⟩ := hphase
      exact (hends deadline hd).mono hsampled
    | confirming =>
      obtain ⟨-, hsampled, hanchor, -, hends⟩ := hphase
      exact (hends deadline hd).mono (hsampled.trans hanchor)
    | _ => cases hd
  have hlive := hends.outlasts now huntil hclock
  obtain ⟨mintedAt, -, -, hclaims⟩ := hok.minted.claims
  refine ⟨_, LaunchedHost.accepted_of_minted hok.minted hfrom hle hlive, hclaims.processRole, ?_,
    hclaims.session, hclaims.namespaceId, hclaims.region⟩
  exact congrArg HostId.mk hclaims.processId

/-! ### A first lease -/

def launchedHost : LaunchedHost ℚ where
  maintainer := { tightHost with host := ⟨"host.v1.acme.r1.a"⟩, route := "http://node-a" }
  config := ⟨"primary", "control-plane", "authority", "invoke", 300⟩
  regions := []
  parsers := ⟨fun _ => true, fun _ => some ⟨"http", some "node-a", "", none, "/", none, none⟩⟩
  namespaceId := "acme"
  region := "us-east"
  serverOffset := 0
  namespace_ok := by decide +kernel
  region_ok := by decide +kernel
  host_ok := by decide +kernel
  session_ok := rfl
  duration_ok := by decide

def firstToken : ActorJwt :=
  ⟨"primary", "control-plane", ["authority", "invoke"], "host.v1.acme.r1.a", "acme", "host.v1.acme.r1.a", "session-a", .host, "us-east",
    false, some "r1", "actor:authority actor:invoke", 0, 0, 300, none⟩

theorem launchedHost_serverMs : launchedHost.serverMs 0 = 0 := by simp [LaunchedHost.serverMs, launchedHost]

theorem firstToken_issued :
    launchedHost.config.tokenIssuer.issueHost (launchedHost.serverMs 0) "acme" ⟨"host.v1.acme.r1.a"⟩ "session-a" "r1"
    "us-east" = .ok ⟨firstToken, 300000⟩ := by
  rw [launchedHost_serverMs]
  rfl

theorem firstToken_minted : launchedHost.Minted firstToken 0 := ⟨0, "r1", 300000, le_rfl, firstToken_issued⟩

theorem exec_ofResult {α : Type} {r : Result α} {a : α} {time : K} (h : r = .ok a) :
    Exec c.serverEnv (ControlM.ofResult r).run time (.ok a) time := by
  subst h
  exact .ret _ _

def firstPrincipal : ActorPrincipal := ActorJwtVerifier.principalOf firstToken.claims

def firstLease (expiresAtMs : ℕ) : HostLease :=
  ⟨⟨"host.v1.acme.r1.a"⟩, "session-a", "http://node-a", expiresAtMs⟩

/-- Every call is answered at once. -/
theorem exec_register (expiresAtMs : ℕ) : Exec launchedHost.serverEnv
    (launchedHost.service.execute firstToken (.registerLease launchedHost.maintainer.request)).run 0
      (.ok (.lease (firstLease expiresAtMs) (some firstToken))) 0 := by
  have hepoch : (0 : ℚ) ≤ 0 + launchedHost.serverOffset := by simp [launchedHost]
  have hseconds : Exec launchedHost.serverEnv ControlM.unixSeconds.run 0 (.ok 0) 0 := by
    refine .perform ⟨le_rfl, hepoch, ?_⟩
    rw [LaunchedHost.serverSeconds, launchedHost_serverMs]
    decide
  have hmillis : Exec launchedHost.serverEnv ControlM.unixMillis.run 0 (.ok 0) 0 := by
    refine .perform ⟨le_rfl, hepoch, ?_⟩
    rw [launchedHost_serverMs]
    decide
  have haccepted : launchedHost.service.auth.authenticate launchedHost.service.parsers 0 0 firstToken = .ok firstPrincipal := by
    have hlive : ((launchedHost.serverSeconds 0 : ℕ) : ℤ) < firstToken.claims.exp := by
      rw [LaunchedHost.serverSeconds, launchedHost_serverMs]
      decide
    have h := LaunchedHost.accepted_of_minted firstToken_minted le_rfl le_rfl hlive
    rwa [LaunchedHost.serverSeconds, launchedHost_serverMs] at h
  have hauth : Exec launchedHost.serverEnv (launchedHost.service.authenticate firstToken).run 0 (.ok firstPrincipal) 0 :=
    .except_bind hseconds (.except_bind hseconds (exec_ofResult haccepted))
  have hstore : Exec launchedHost.serverEnv (ControlM.store (PostgresHostLeaseStore.register launchedHost.maintainer.request)).run 0
      (.ok (firstLease expiresAtMs)) 0 :=
    .call (r := .ok (some expiresAtMs)) ⟨le_rfl, trivial⟩ (.ret _ _)
  have hreplacement : Exec launchedHost.serverEnv (launchedHost.service.replacementHostToken firstPrincipal).run 0
      (.ok (some firstToken)) 0 := by
    have hissued : launchedHost.config.tokenIssuer.issueHost (0 : ℕ) "acme" ⟨"host.v1.acme.r1.a"⟩ "session-a" "r1" "us-east" =
        .ok ⟨firstToken, 300000⟩ := launchedHost_serverMs ▸ firstToken_issued
    exact .except_bind hseconds (.except_bind (exec_ofResult rfl) (.except_bind (exec_ofResult rfl)
      (.except_bind hmillis (.except_bind (exec_ofResult hissued) (.ret _ _)))))
  refine .except_bind hauth (.except_bind (exec_ofResult rfl) ?_)
  exact .except_bind (exec_ofResult rfl) (.except_bind (exec_ofResult rfl) (.except_bind (exec_ofResult rfl)
    (.except_bind hstore (.except_bind hreplacement (.ret _ _)))))

/-- The first call is on its way. -/
def firstCall : MaintainerState ℚ :=
  { notStarted with phase := .renewing none 0 30000 0, requests := Function.update notStarted.requests 0 true, sent := 1 }

theorem sendRegister_first : launchedHost.maintainer.sendRegister notStarted none = firstCall := by
  have hwindow : checkedAdd (launchedHost.maintainer.hostNowMs notStarted.time) launchedHost.maintainer.durationMs = some 30000 :=
    tightHost_window
  rw [HostLeaseMaintainer.sendRegister, hwindow]
  rfl

theorem process_first :
    ∃ x, (launchedHost.maintainer.process firstCall (.register launchedHost.maintainer.request)).1 =
    .register (.ok (firstLease x)) := by
  have hvalid : launchedHost.maintainer.request.validateDuration = .ok () := by decide
  refine ⟨launchedHost.maintainer.storeNowMs firstCall.time + 30000, ?_⟩
  have hfree : firstCall.table.Free (launchedHost.maintainer.storeNowMs firstCall.time) launchedHost.maintainer.request :=
    fun lease hlease => by cases hlease
  simp only [HostLeaseMaintainer.process, LeaseTable.call, LeaseTable.register, hvalid, hfree, if_true]
  rfl

theorem confirmed_first : launchedHost.maintainer.confirmed 0 none 30000 0 = .waiting 30000 10000 := by
  have htime : (0 : ℚ) = (0 : ℕ) := rfl
  have h := @tightHost_confirmed 0 0 htime (by decide) 0
  norm_num at h
  exact h

/-- The store has answered it. -/
def firstReply (x : ℕ) : MaintainerState ℚ :=
  { firstCall with
    table := (launchedHost.maintainer.process firstCall (.register launchedHost.maintainer.request)).2
    granted := some x
    requests := Function.update firstCall.requests 0 false
    replies := Function.update firstCall.replies 0 (some (.register (.ok (firstLease x)), 0)) }

theorem first_sent : CredentialStep launchedHost ⟨notStarted, firstToken, fun _ => firstToken⟩ .start
    ⟨firstCall, firstToken, fun _ => firstToken⟩ := by
  have h := CredentialStep.send (c := launchedHost)
      (s := ⟨notStarted, firstToken, fun _ => firstToken⟩) rfl (.start rfl)
  rwa [sendRegister_first, Function.update_eq_self] at h

theorem first_delivered :
    ∃ x, CredentialStep launchedHost ⟨firstCall, firstToken, fun _ => firstToken⟩ (.deliver 0)
    ⟨firstReply x, firstToken, fun _ => firstToken⟩ := by
  obtain ⟨x, hgranted⟩ := process_first
  refine ⟨x, ?_⟩
  have h : CredentialStep launchedHost ⟨firstCall, firstToken, fun _ => firstToken⟩ (.deliver 0) _ :=
    .move rfl (by simp) (.deliver rfl)
  rwa [hgranted] at h

theorem first_replied (x : ℕ) :
    CredentialStep launchedHost ⟨firstReply x, firstToken, fun _ => firstToken⟩ (.reply 0)
    ⟨{ firstReply x with phase := .confirming none (firstLease x) 30000 (firstReply x).time 0 0 }, firstToken, fun _ => firstToken⟩ := by
  have hphase : (firstReply x).phase = .renewing none 0 30000 0 := rfl
  have hreply : (firstReply x).replies 0 = some (.register (.ok (firstLease x)), 0) := by simp [firstReply]
  have htime : 0 ≤ (firstReply x).time := by simp [firstReply, firstCall, notStarted]
  have hx := exec_register x
  generalize firstReply x = s at hphase hreply htime
  generalize firstToken = token at hx
  exact .reply (s := ⟨s, token, fun _ => token⟩) hphase hreply (.reply hphase (by simp) hreply) hx htime

theorem first_confirmed (x : ℕ) : CredentialStep launchedHost
    ⟨{ firstReply x with phase := .confirming none (firstLease x) 30000 (firstReply x).time 0 0 }, firstToken, fun _ => firstToken⟩ .sample
    ⟨{ firstReply x with phase := .waiting 30000 10000 }, firstToken, fun _ => firstToken⟩ := by
  have hconfirmed : launchedHost.maintainer.confirmed (firstReply x).time none 30000
      (firstReply x).time = .waiting 30000 10000 := confirmed_first
  rw [← hconfirmed]
  exact .move rfl (by simp) (.sample rfl)

/-- A host that has just registered holds its lease for thirty seconds, and its token is accepted at the end of them. -/
theorem credential_outlives_lease_launchedHost :
    ∃ s, (credentialSystem launchedHost).Reachable s ∧ s.lease.phase.deadline = some 30000 ∧
    ∃ principal, launchedHost.service.auth.authenticate launchedHost.parsers (launchedHost.serverSeconds 30000)
      (launchedHost.serverSeconds 30000) s.token = .ok principal := by
  have hstart : (maintainerSystem launchedHost.maintainer).init notStarted := by
    refine ⟨?_, ?_, by simp [notStarted], rfl, fun _ => rfl, fun _ => rfl, rfl, rfl, rfl, rfl, rfl⟩
    · norm_num [notStarted, launchedHost, tightHost]
    · norm_num [notStarted, launchedHost, tightHost]
  have hinit : (credentialSystem launchedHost).Reachable ⟨notStarted, firstToken, fun _ => firstToken⟩ :=
    ⟨[], _, ⟨hstart, firstToken_minted⟩, .nil _⟩
  obtain ⟨x, hdelivered⟩ := first_delivered
  have hreachable := (((hinit.step first_sent).step hdelivered).step (first_replied x)).step (first_confirmed x)
  refine ⟨_, hreachable, rfl, ?_⟩
  have hclock : (launchedHost.serverMs 30000 : ℤ) + 1000 ≤ i64Limit := by
    have hms : launchedHost.serverMs 30000 = 30000 := by simp [LaunchedHost.serverMs, launchedHost]
    rw [hms]
    decide
  have hfrom : (0 : ℚ) ≤ 30000 := by norm_num
  obtain ⟨principal, haccepted, -⟩ := credential_outlives_lease (by decide) hreachable rfl hfrom le_rfl le_rfl hclock
  exact ⟨principal, haccepted⟩

end LDO
