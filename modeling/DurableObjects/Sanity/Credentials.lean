import DurableObjects.Spec.Credentials

/-! What the issuer puts into each kind of token and what a verifier has checked of a token
it accepts. -/

namespace LDO

variable {issuer : ActorJwtIssuer} {verifier : ActorJwtVerifier} {parsers : Parsers} {token : ActorJwt}

/-! ### The three kinds of tokens -/

/-- `issue_workflow` returned the token. -/
def IssuedWorkflow (issuer : ActorJwtIssuer) (namespaceId : String) (token : ActorJwt) : Prop :=
  ∃ nowMs processUuid sessionUuid executionId storageRegion deadlineUnixMs privateRouting expiresAtMs, 0 ≤ nowMs ∧
    issuer.issueWorkflow nowMs processUuid sessionUuid namespaceId executionId storageRegion deadlineUnixMs
      privateRouting = .ok ⟨token, expiresAtMs⟩

/-- `issue_host` returned the token. -/
def IssuedHost (issuer : ActorJwtIssuer) (namespaceId : String) (hostId : HostId) (sessionId : String)
    (token : ActorJwt) : Prop :=
  ∃ nowMs codeRevision region expiresAtMs, 0 ≤ nowMs ∧
    issuer.issueHost nowMs namespaceId hostId sessionId codeRevision region = .ok ⟨token, expiresAtMs⟩

/-- `issue_invocation_target` returned the token. -/
def IssuedInvocation (issuer : ActorJwtIssuer) (capability : ActorInvocationCapability)
    (workflowExpiresAt : ℤ) (token : ActorJwt) : Prop :=
  ∃ nowMs sessionId codeRevision region expiresAtMs, 0 ≤ nowMs ∧
    issuer.issueInvocationTarget nowMs capability.actor capability.hostId sessionId codeRevision region
      capability.ownerEpoch capability.stateVersion capability.stateReadUrl workflowExpiresAt =
        .ok ⟨token, expiresAtMs⟩

inductive Minted (issuer : ActorJwtIssuer) (token : ActorJwt) : Prop
  | workflow {namespaceId : String} : IssuedWorkflow issuer namespaceId token → Minted issuer token
  | host {namespaceId : String} {hostId : HostId} {sessionId : String} :
      IssuedHost issuer namespaceId hostId sessionId token → Minted issuer token
  | invocation {capability : ActorInvocationCapability} {workflowExpiresAt : ℤ} :
      IssuedInvocation issuer capability workflowExpiresAt token → Minted issuer token

theorem issue_ok {claims : ActorJwtClaims} {issued : IssuedActorToken}
    (h : issuer.issue claims = .ok issued) :
    issued.token = ⟨issuer.keyId, claims⟩ ∧ issued.expiresAtMs = claims.exp * 1000 := by
  simp only [ActorJwtIssuer.issue, bind_ok, ensure_ok_iff] at h
  obtain ⟨-, -, h⟩ := h
  cases h
  exact ⟨rfl, rfl⟩

theorem IssuedWorkflow.claims {namespaceId : String} (h : IssuedWorkflow issuer namespaceId token) :
    token.claims.processRole = .workflow ∧ token.claims.namespaceId = namespaceId := by
  obtain ⟨nowMs, processUuid, sessionUuid, executionId, storageRegion, deadlineUnixMs,
      privateRouting, expiresAtMs, -, h⟩ := h
  simp only [ActorJwtIssuer.issueWorkflow, bind_ok] at h
  obtain ⟨-, -, -, -, lifetime, -, h⟩ := h
  obtain ⟨rfl, -⟩ := issue_ok h
  exact ⟨rfl, rfl⟩

theorem IssuedHost.claims {namespaceId : String} {hostId : HostId} {sessionId : String}
    (h : IssuedHost issuer namespaceId hostId sessionId token) :
    token.claims.processRole = .host ∧ token.claims.namespaceId = namespaceId ∧
    token.claims.processId = hostId.id ∧
      token.claims.sessionId = sessionId ∧ token.claims.invocation = none := by
  obtain ⟨nowMs, codeRevision, region, expiresAtMs, -, h⟩ := h
  simp only [ActorJwtIssuer.issueHost, bind_ok] at h
  obtain ⟨lifetime, -, h⟩ := h
  obtain ⟨rfl, -⟩ := issue_ok h
  exact ⟨rfl, rfl, rfl, rfl, rfl⟩

/-- The claims of an invocation token that was issued at `now`. -/
structure InvocationClaims (issuer : ActorJwtIssuer) (capability : ActorInvocationCapability)
    (sessionId region : String) (now : ℤ) (workflowExpiresAt : ℤ) (claims : ActorJwtClaims) : Prop where
  iss : claims.iss = issuer.issuer
  aud : claims.aud = [issuer.invocationAudience]
  sub : claims.sub = capability.hostId.id
  namespaceId : claims.namespaceId = capability.actor.namespaceId
  processId : claims.processId = capability.hostId.id
  session : claims.sessionId = sessionId
  processRole : claims.processRole = .host
  home : claims.region = region
  scope : claims.scope = "actor:invoke"
  iat : claims.iat = now
  nbf : claims.nbf = now
  invocation : claims.invocation = some capability
  valid : capability.actor.validate = .ok ()
  regionValid : validateRegion region = .ok ()
  epoch_pos : 0 < capability.ownerEpoch
  lives : now < claims.exp
  workflow : claims.exp ≤ workflowExpiresAt
  ttl : claims.exp ≤ now + invocationTargetTtl

theorem issueInvocationTarget_ok {nowMs : ℤ} {capability : ActorInvocationCapability}
    {sessionId codeRevision region : String} {workflowExpiresAt : ℤ} {issued : IssuedActorToken}
    (h : issuer.issueInvocationTarget nowMs capability.actor capability.hostId sessionId codeRevision region
      capability.ownerEpoch capability.stateVersion capability.stateReadUrl workflowExpiresAt = .ok issued) :
    issued.token.keyId = issuer.keyId ∧ InvocationClaims issuer capability sessionId region (nowMs / 1000) workflowExpiresAt issued.token.claims := by
  simp only [ActorJwtIssuer.issueInvocationTarget, bind_ok, ensure_ok_iff] at h
  obtain ⟨_, hvalid, _, hregion, -, hepoch, lifetime, -, -, hlives, h⟩ := h
  obtain ⟨htoken, -⟩ := issue_ok h
  rw [htoken]
  refine ⟨rfl, rfl, rfl, rfl, rfl, rfl, rfl, rfl, rfl, rfl, rfl, rfl, rfl, hvalid, hregion, hepoch,
    hlives, ?_, ?_⟩
  · exact (min_le_left _ _).trans (min_le_left _ _)
  · exact (min_le_left _ _).trans ((min_le_right _ _).trans (min_le_left _ _))

theorem IssuedInvocation.claims {capability : ActorInvocationCapability} {workflowExpiresAt : ℤ}
    (h : IssuedInvocation issuer capability workflowExpiresAt token) :
    ∃ sessionId region now, InvocationClaims issuer capability sessionId region now workflowExpiresAt token.claims := by
  obtain ⟨nowMs, sessionId, codeRevision, region, expiresAtMs, -, h⟩ := h
  exact ⟨sessionId, region, nowMs / 1000, (issueInvocationTarget_ok h).2⟩

/-! ### What a verifier has checked -/

structure Accepted (verifier : ActorJwtVerifier) (parsers : Parsers) (now : ℤ)
    (claims : ActorJwtClaims) : Prop where
  scope : verifier.purpose.claim claims.processRole ∈ splitAsciiWhitespace claims.scope
  sub : claims.sub ≠ ""
  process : claims.processRole = .host → claims.sub = claims.processId
  session : parsers.isUuid claims.sessionId = true
  lifetime : claims.iat < claims.exp
  representable : claims.exp - claims.iat ≤ i64Limit
  maxLifetime : (claims.exp - claims.iat) * 10 ^ 9 ≤ verifier.maxLifetime
  unexpired : now < claims.exp
  issuedAt : claims.iat ≤ i64SaturatingAdd now clockSkew
  tenant : ActorScope.validate ⟨claims.namespaceId⟩ = .ok ()
  processName : (processNameStart claims.processRole claims.namespaceId).toList <+: claims.processId.toList
  region : claims.region ≠ "" ∧ claims.region.utf8ByteSize ≤ 64 ∧ claims.region.toList.all isRegionChar = true
  capability : ∀ capability, claims.invocation = some capability →
    ActorJwtVerifier.validateCapability parsers (ActorJwtVerifier.principalOf claims) capability = .ok ()

theorem validateInvocation_ok {principal : ActorPrincipal} {u : Unit} :
    ActorJwtVerifier.validateInvocation parsers principal = .ok u ↔
    ∀ capability, principal.invocation = some capability →
      ActorJwtVerifier.validateCapability parsers principal capability = .ok () := by
  unfold ActorJwtVerifier.validateInvocation
  split
  · rename_i capability hsome
    simp [hsome]
  · rename_i hnone
    simp [hnone, pure, Except.pure]

theorem validateClaims_ok {now : ℤ} {claims : ActorJwtClaims} {principal : ActorPrincipal} :
    verifier.validateClaims parsers now claims = .ok principal ↔
      Accepted verifier parsers now claims ∧ principal = ActorJwtVerifier.principalOf claims := by
  simp only [ActorJwtVerifier.validateClaims, bind_ok, ensure_ok_iff, validateInvocation_ok]
  constructor
  · rintro ⟨-, hscope, -, hsub, -, hprocess, -, hsession, -, hlifetime, -, hrepr, -, hmax, -, hexp,
      -, hiat, _, htenant, -, hname, -, hregion, -, hcapability, h⟩
    exact ⟨⟨hscope, hsub, hprocess, hsession, hlifetime, hrepr, hmax, hexp, hiat, htenant, hname, hregion, hcapability⟩,
      (Except.ok.inj h).symm⟩
  · rintro ⟨h, rfl⟩
    exact ⟨(), h.scope, (), h.sub, (), h.process, (), h.session, (), h.lifetime, (), h.representable,
      (), h.maxLifetime, (),
      h.unexpired, (), h.issuedAt, (), h.tenant, (), h.processName, (), h.region, (), h.capability, rfl⟩

/-- What `jsonwebtoken` has checked. -/
structure DecodedToken (verifier : ActorJwtVerifier) (now : ℤ) (token : ActorJwt) : Prop where
  key : token.keyId ∈ verifier.keyIds
  iss : token.claims.iss = verifier.issuer
  aud : verifier.audience ∈ token.claims.aud
  exp : now - clockSkew ≤ token.claims.exp
  nbf : token.claims.nbf ≤ now + clockSkew

theorem authenticate_ok {decodedAt now : ℤ} {principal : ActorPrincipal} :
    verifier.authenticate parsers decodedAt now token = .ok principal ↔ DecodedToken verifier decodedAt token ∧
      Accepted verifier parsers now token.claims ∧ principal = ActorJwtVerifier.principalOf token.claims := by
  simp only [ActorJwtVerifier.authenticate, ActorJwtVerifier.decode, bind_ok, ensure_ok_iff]
  constructor
  · rintro ⟨claims, ⟨-, hkey, -, ⟨hiss, haud, hexp, hnbf⟩, hclaims⟩, h⟩
    cases hclaims
    exact ⟨⟨hkey, hiss, haud, hexp, hnbf⟩, validateClaims_ok.mp h⟩
  · rintro ⟨h, haccepted⟩
    exact ⟨token.claims, ⟨(), h.key, (), ⟨h.iss, h.aud, h.exp, h.nbf⟩, rfl⟩, validateClaims_ok.mpr haccepted⟩

/-! ### Which tokens pass where -/

/-- A host principal with authority comes from `issue_host`. -/
theorem Minted.host_of_authority (hm : Minted issuer token) {now : ℤ}
    (hpurpose : verifier.purpose = .controlPlane) (h : Accepted verifier parsers now token.claims)
    (hrole : token.claims.processRole = .host) :
    IssuedHost issuer token.claims.namespaceId ⟨token.claims.processId⟩ token.claims.sessionId token := by
  cases hm with
  | workflow hw => cases hw.claims.1.symm.trans hrole
  | host hh =>
    obtain ⟨-, hns, hid, hsession, -⟩ := hh.claims
    rw [hns, hid, hsession]
    exact hh
  | invocation hi =>
    obtain ⟨sessionId, region, now', hclaims⟩ := hi.claims
    have hscope := h.scope
    rw [hpurpose, hrole, hclaims.scope] at hscope
    exact absurd hscope (by decide)

theorem Minted.workflow_of_role (hm : Minted issuer token) (hrole : token.claims.processRole = .workflow) :
    IssuedWorkflow issuer token.claims.namespaceId token := by
  cases hm with
  | workflow hw =>
    rw [hw.claims.2]
    exact hw
  | host hh => cases hh.claims.1.symm.trans hrole
  | invocation hi =>
    obtain ⟨sessionId, region, now, hclaims⟩ := hi.claims
    cases hclaims.processRole.symm.trans hrole

end LDO
