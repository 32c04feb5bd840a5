import Mathlib.Tactic.Linarith
import DurableObjects.Lib.Fallible
import DurableObjects.Spec.HostCredential
import DurableObjects.Sanity.Credentials

/-! What a registration does for the token of the host: afterwards it has one that runs out later than
the lease that was asked for. -/

namespace LDO

open Prog

variable {K : Type} [Field K] [LinearOrder K] [FloorRing K] {c : LaunchedHost K}
  {token : ActorJwt} {time time' : K}

namespace LaunchedHost

/-! ### Clock readings -/

theorem serverMs_mono [IsStrictOrderedRing K] (h : time ≤ time') :
    c.serverMs time ≤ c.serverMs time' := Nat.floor_mono (by linarith)

theorem serverSeconds_mono [IsStrictOrderedRing K] (h : time ≤ time') :
    c.serverSeconds time ≤ c.serverSeconds time' :=
  Nat.div_le_div_right (serverMs_mono h)

/-- A clock does not gain more whole milliseconds than have begun. -/
theorem serverMs_lt_add [IsStrictOrderedRing K] {n : ℕ} (h : time' < time + n) :
    c.serverMs time' ≤ c.serverMs time + n := by
  rcases le_total 0 (time + c.serverOffset) with hpos | hneg
  · rw [serverMs, serverMs, ← Nat.floor_add_natCast hpos]
    exact Nat.floor_mono (by linarith)
  · have hle : ⌊time' + c.serverOffset⌋₊ ≤ n := Nat.floor_le_of_le (by linarith)
    exact hle.trans (Nat.le_add_left _ _)

/-! ### Minted tokens -/

/-- The claims of a token that was issued for the host at the reading `nowMs`. -/
structure HostClaims (c : LaunchedHost K) (nowMs : ℕ) (claims : ActorJwtClaims) : Prop where
  iss : claims.iss = c.config.issuer
  aud : claims.aud = [c.config.authorityAudience, c.config.invocationAudience]
  sub : claims.sub = c.maintainer.host.id
  namespaceId : claims.namespaceId = c.namespaceId
  processId : claims.processId = c.maintainer.host.id
  session : claims.sessionId = c.maintainer.sessionId
  processRole : claims.processRole = .host
  region : claims.region = c.region
  scope : claims.scope = "actor:authority actor:invoke"
  iat : claims.iat = nowMs / 1000
  nbf : claims.nbf = nowMs / 1000
  exp : claims.exp = min ((nowMs : ℤ) + c.config.maxTtlSeconds * 1000) i64Limit / 1000
  invocation : claims.invocation = none

theorem asMillis_seconds (n : ℕ) : asMillis (n * 10 ^ 9) = n * 1000 := by
  rw [asMillis, show (10 : ℕ) ^ 9 = 1000 * 10 ^ 6 from rfl, ← Nat.mul_assoc,
    Nat.mul_div_cancel _ (by positivity)]

omit [FloorRing K] in
theorem issueHost_ok {nowMs : ℕ} {codeRevision : String} {issued : IssuedActorToken}
    (h : c.config.tokenIssuer.issueHost nowMs c.namespaceId c.maintainer.host c.maintainer.sessionId codeRevision c.region =
      .ok issued) : issued.token.keyId = c.config.keyId ∧ HostClaims c nowMs issued.token.claims := by
  simp only [ActorJwtIssuer.issueHost, bind_ok] at h
  obtain ⟨lifetime, hlifetime, h⟩ := h
  obtain ⟨htoken, -⟩ := issue_ok h
  have hms : lifetime = c.config.maxTtlSeconds * 1000 := by
    rw [durationMillis, i64From, JwtConfig.tokenIssuer, asMillis_seconds] at hlifetime
    split at hlifetime
    · cases hlifetime
      push_cast
      rfl
    · cases hlifetime
  subst hms
  rw [htoken]
  exact ⟨rfl, rfl, rfl, rfl, rfl, rfl, rfl, rfl, rfl, rfl, rfl, rfl, rfl, rfl⟩

theorem Minted.claims (h : c.Minted token time) : ∃ mintedAt ≤ time, token.keyId = c.config.keyId ∧
    HostClaims c (c.serverMs mintedAt) token.claims := by
  obtain ⟨mintedAt, codeRevision, expiresAtMs, hle, h⟩ := h
  exact ⟨mintedAt, hle, issueHost_ok h⟩

theorem Minted.mono (h : c.Minted token time) (hle : time ≤ time') : c.Minted token time' := by
  obtain ⟨mintedAt, codeRevision, expiresAtMs, hminted, h⟩ := h
  exact ⟨mintedAt, codeRevision, expiresAtMs, hminted.trans hle, h⟩

/-! ### Running out -/

/-- As long as its clock can be told, the control plane sees the token unexpired up to a time. -/
def Outlasts (c : LaunchedHost K) (token : ActorJwt) (time : K) : Prop :=
  (c.serverMs time : ℤ) + 1000 ≤ i64Limit → (c.serverSeconds time : ℤ) < token.claims.exp

/-- The token is good for any lease that was asked for at `sampledAt`. -/
def Fresh (c : LaunchedHost K) (token : ActorJwt) (sampledAt : K) : Prop :=
  ∀ t, t < sampledAt + (c.maintainer.durationMs + 1 : ℕ) → c.Outlasts token t

/-- It has more than the renewal window left. -/
theorem fresh_of_kept [IsStrictOrderedRing K] {sampledAt readAt : K} (hle : sampledAt ≤ readAt)
    (h : hostTokenRenewalWindowSeconds < token.claims.exp - c.serverSeconds readAt) :
    c.Fresh token sampledAt := by
  intro t ht _
  have hms : c.serverMs t ≤ c.serverMs readAt + (c.maintainer.durationMs + 1) := serverMs_lt_add (by linarith)
  have hduration := c.duration_ok
  simp only [hostTokenRenewalWindowSeconds, serverSeconds, maxHostLeaseDurationMs] at *
  omega

theorem fresh_of_minted [IsStrictOrderedRing K] {sampledAt mintedAt : K} (hle : sampledAt ≤ mintedAt)
    (hlife : c.maintainer.durationMs + 1001 ≤ c.config.maxTtlSeconds * 1000)
    (h : HostClaims c (c.serverMs mintedAt) token.claims) : c.Fresh token sampledAt := by
  intro t ht hlimit
  have hms : c.serverMs t ≤ c.serverMs mintedAt + (c.maintainer.durationMs + 1) := serverMs_lt_add (by linarith)
  rw [h.exp, serverSeconds]
  have hmin : (c.serverMs t : ℤ) + 1000 ≤
      min ((c.serverMs mintedAt : ℤ) + c.config.maxTtlSeconds * 1000) i64Limit :=
    le_min (by omega) hlimit
  omega

/-! ### What the control plane accepts -/

theorem accepted_of_minted [IsStrictOrderedRing K] {decodedAt now : K} (h : c.Minted token time)
    (hdecoded : time ≤ decodedAt) (hle : decodedAt ≤ now)
    (hlive : (c.serverSeconds now : ℤ) < token.claims.exp) :
    c.config.auth.authenticate c.parsers (c.serverSeconds decodedAt) (c.serverSeconds now) token =
      .ok (ActorJwtVerifier.principalOf token.claims) := by
  obtain ⟨mintedAt, hminted, hkey, hclaims⟩ := h.claims
  have hread : c.serverMs mintedAt / 1000 ≤ c.serverSeconds decodedAt :=
    serverSeconds_mono (hminted.trans hdecoded)
  have hnow : c.serverSeconds decodedAt ≤ c.serverSeconds now := serverSeconds_mono hle
  have hiat : token.claims.iat = (c.serverMs mintedAt / 1000 : ℕ) := by rw [hclaims.iat]; rfl
  have hexp : token.claims.exp * 1000 ≤ i64Limit := by
    rw [hclaims.exp]
    have hmin := min_le_right ((c.serverMs mintedAt : ℤ) + c.config.maxTtlSeconds * 1000) i64Limit
    omega
  have hlifetime : token.claims.exp ≤ token.claims.iat + c.config.maxTtlSeconds := by
    rw [hclaims.exp, hclaims.iat]
    have hmin := min_le_left ((c.serverMs mintedAt : ℤ) + c.config.maxTtlSeconds * 1000) i64Limit
    omega
  have hprocess : ("host.v1." ++ token.claims.namespaceId ++ ".").toList <+: token.claims.processId.toList := by
    rw [hclaims.namespaceId, hclaims.processId]
    exact c.host_ok
  refine authenticate_ok.mpr ⟨⟨?_, hclaims.iss, ?_, ?_, ?_⟩, ⟨?_, ?_, ?_, ?_, ?_, ?_, ?_, hlive, ?_, ?_, ?_, ?_, ?_⟩, rfl⟩
  · rw [hkey]
    exact List.mem_singleton_self _
  · rw [hclaims.aud]
    exact List.mem_cons_self ..
  · simp only [clockSkew]
    omega
  · rw [hclaims.nbf]
    simp only [clockSkew]
    omega
  · rw [hclaims.scope, hclaims.processRole]
    exact (by decide : "actor:authority" ∈ splitAsciiWhitespace "actor:authority actor:invoke")
  · intro hempty
    have hhost := c.host_ok
    rw [← hclaims.sub, hempty] at hhost
    simp at hhost
  · exact fun _ => hclaims.sub.trans hclaims.processId.symm
  · rw [hclaims.session]
    exact c.session_ok
  · omega
  · omega
  · show (token.claims.exp - token.claims.iat) * 10 ^ 9 ≤ ((c.config.maxTtlSeconds * 10 ^ 9 : ℕ) : ℤ)
    push_cast
    omega
  · refine le_min ?_ ?_
    · simp only [clockSkew]
      omega
    · omega
  · rw [hclaims.namespaceId]
    exact c.namespace_ok
  · rw [hclaims.processRole]
    exact hprocess
  · rw [hclaims.region]
    exact ensure_ok.mp c.region_ok
  · rw [hclaims.invocation]
    simp

/-! ### A registration -/

theorem serverEnv_later {op : ControlOp} {r : op.Res} {start : K} (h : start ≤ time)
    (hs : c.serverEnv.step time op r time') :
    start ≤ time' := h.trans hs.1

theorem gives_later {α : Type} (x : ControlM α) : Gives c.serverEnv x (fun _ time' => time ≤ time') time :=
  (Gives.frame serverEnv_later le_rfl (wp_forall (fun _ _ => trivial) (fun _ _ _ _ => trivial) x.run time :
    Gives c.serverEnv x (fun _ _ => True) time)).mono fun _ _ h => h.2

theorem gives_ofResult {α : Type} (r : Result α) :
    Gives c.serverEnv (ControlM.ofResult r) (fun a time' => r = .ok a ∧ time' = time) time :=
  Gives.value fun _ hr => ⟨hr, rfl⟩

omit [FloorRing K] in
theorem ClockAnswers.eq {r : Result ℕ} {n reading : ℕ} (h : c.ClockAnswers time reading r)
    (hr : r = .ok n) : n = reading := by
  subst hr
  exact h.2.2

theorem gives_unixSeconds :
    Gives c.serverEnv ControlM.unixSeconds (fun now time' => time ≤ time' ∧ now = c.serverSeconds time') time :=
  Gives.call trivial fun r _ hs => ⟨r, rfl, fun _ hr => ⟨hs.1, hs.2.eq hr⟩⟩

theorem gives_unixMillis :
    Gives c.serverEnv ControlM.unixMillis (fun now time' => time ≤ time' ∧ now = c.serverMs time') time :=
  Gives.call trivial fun r _ hs => ⟨r, rfl, fun _ hr => ⟨hs.1, hs.2.eq hr⟩⟩

theorem gives_authenticate : Gives c.serverEnv (c.service.authenticate token)
    (fun principal time' => time ≤ time' ∧ principal = ActorJwtVerifier.principalOf token.claims) time := by
  refine gives_unixSeconds.bind fun decodedAt t hread => gives_unixSeconds.bind fun now t' hread' => ?_
  refine (gives_ofResult _).mono fun principal time' h => ?_
  obtain ⟨hauth, rfl⟩ := h
  exact ⟨hread.1.trans hread'.1, (authenticate_ok.mp hauth).2.2⟩

/-- Afterwards the client has a token that is good for the lease. -/
structure Renewed (c : LaunchedHost K) (token : ActorJwt) (sampledAt : K)
    (replacement : Option ActorJwt) (time : K) : Prop where
  minted : c.Minted (replacement.getD token) time
  fresh : c.Fresh (replacement.getD token) sampledAt

theorem gives_replacement [IsStrictOrderedRing K] {sampledAt : K}
    (hlife : c.maintainer.durationMs + 1001 ≤ c.config.maxTtlSeconds * 1000)
    (hminted : c.Minted token time) (hle : sampledAt ≤ time) :
    Gives c.serverEnv (c.service.replacementHostToken (ActorJwtVerifier.principalOf token.claims)) (c.Renewed token sampledAt) time := by
  refine gives_unixSeconds.bind fun now t hread => ?_
  obtain ⟨hlater, rfl⟩ := hread
  refine Gives.ite (fun hlong => Gives.pure ⟨hminted.mono hlater, fresh_of_kept (hle.trans hlater) hlong⟩) fun _ => ?_
  refine (gives_ofResult _).bind fun issuer t₁ hissuer =>
    (gives_ofResult _).bind fun codeRevision t₂ hrevision => ?_
  obtain ⟨hissuer, rfl⟩ := hissuer
  obtain ⟨-, rfl⟩ := hrevision
  obtain rfl : c.config.tokenIssuer = issuer := Option.some.inj (orContext_ok.mp hissuer)
  refine gives_unixMillis.bind fun nowMs t₃ hread => (gives_ofResult _).bind fun issued t₄ hissued =>
    Gives.pure ?_
  obtain ⟨hlater', rfl⟩ := hread
  obtain ⟨hissued, rfl⟩ := hissued
  obtain ⟨mintedAt, -, -, hclaims⟩ := hminted.claims
  -- the principal is the host itself
  have hown : c.config.tokenIssuer.issueHost (c.serverMs t₄) c.namespaceId c.maintainer.host c.maintainer.sessionId codeRevision
      c.region = .ok issued := by
    rw [← hissued, ActorJwtVerifier.principalOf, hclaims.namespaceId, hclaims.processId,
      hclaims.session, hclaims.region]
  exact ⟨⟨t₄, codeRevision, issued.expiresAtMs, le_rfl, hown⟩,
    fresh_of_minted (hle.trans (hlater.trans hlater')) hlife (issueHost_ok hown).2⟩

theorem gives_registerLease [IsStrictOrderedRing K] {request : HostLeaseRequest}
    (hlife : c.maintainer.durationMs + 1001 ≤ c.config.maxTtlSeconds * 1000)
    (hminted : c.Minted token time) :
    Gives c.serverEnv (c.service.execute token (.registerLease request))
      (fun reply time' => ∀ lease replacement, reply = .lease lease replacement → c.Renewed token time replacement time') time := by
  refine gives_authenticate.bind fun principal t₁ hprincipal => (gives_ofResult _).bind fun _ t₂ hrole => ?_
  obtain ⟨hlater₁, rfl⟩ := hprincipal
  obtain ⟨-, rfl⟩ := hrole
  refine (gives_ofResult _).bind fun _ t₃ h₃ => (gives_ofResult _).bind fun _ t₄ h₄ =>
    (gives_ofResult _).bind fun _ t₅ h₅ => ?_
  obtain ⟨-, rfl⟩ := h₃
  obtain ⟨-, rfl⟩ := h₄
  obtain ⟨-, rfl⟩ := h₅
  refine (gives_later _).bind fun lease t₆ hlater₆ => ?_
  have hlater := hlater₁.trans hlater₆
  refine (gives_replacement hlife (hminted.mono hlater) hlater).bind fun replacement t₇ hrenewed =>
    Gives.pure ?_
  intro lease' replacement' heq
  cases heq
  exact hrenewed

end LaunchedHost

end LDO
