import DurableObjects.Spec.ControlPlane
import DurableObjects.Spec.LeaseMaintenance

/-! A host, its lease and its token. The control plane answers a registration with a new token when
the old one runs out soon; the client of the host takes it and sends it with the next call. -/

namespace LDO

open Prog

/-- What `control_plane_routes` builds the issuer and the verifier of host tokens from -/
structure JwtConfig where
  keyId : String
  issuer : String
  authorityAudience : String
  invocationAudience : String
  /-- `DURABLE_OBJECT_JWT_MAX_TTL_SECONDS` -/
  maxTtlSeconds : ℕ

def JwtConfig.tokenIssuer (config : JwtConfig) : ActorJwtIssuer :=
  ⟨config.keyId, config.issuer, config.authorityAudience, config.invocationAudience, config.maxTtlSeconds * 10 ^ 9⟩

def JwtConfig.auth (config : JwtConfig) : ActorJwtVerifier :=
  ⟨[config.keyId], config.issuer, config.authorityAudience, .controlPlane, config.maxTtlSeconds * 10 ^ 9⟩

variable {K : Type} [Field K] [LinearOrder K] [IsStrictOrderedRing K] [FloorRing K]

/-- A host that the control plane has launched, with a lease as long as `ActorHostConfig::from_lookup` allows -/
structure LaunchedHost (K : Type) [Field K] [LinearOrder K] where
  maintainer : HostLeaseMaintainer K
  config : JwtConfig
  regions : List String
  parsers : Parsers
  namespaceId : String
  region : String
  /-- Of the control plane's clock -/
  serverOffset : K
  namespace_ok : ActorScope.validate ⟨namespaceId⟩ = .ok ()
  region_ok : validateRegion region = .ok ()
  host_ok : ("host.v1." ++ namespaceId ++ ".").toList <+: maintainer.host.id.toList
  session_ok : parsers.isUuid maintainer.sessionId = true
  duration_ok : maintainer.durationMs ≤ maxHostLeaseDurationMs

namespace LaunchedHost

variable (c : LaunchedHost K)

def service : ControlPlaneService :=
  ⟨c.config.auth, some c.config.tokenIssuer, true, some c.config.tokenIssuer, c.regions, c.parsers, none⟩

/-- `unix_millis` of the control plane -/
def serverMs (time : K) : ℕ := ⌊time + c.serverOffset⌋₊

/-- `unix_seconds` -/
def serverSeconds (time : K) : ℕ := c.serverMs time / 1000

/-- What a clock answers that shows `reading`. Before the epoch, and past an `i64`, it is an error. -/
def ClockAnswers (time : K) (reading : ℕ) : Result ℕ → Prop
  | .ok n => 0 ≤ time + c.serverOffset ∧ (reading : ℤ) ≤ i64Limit ∧ n = reading
  | .error _ => time + c.serverOffset < 0 ∨ i64Limit < reading

/-- A command as it is carried out: at each call time has moved on, and nothing is known of what the stores answer. -/
def serverEnv : Env ControlOp ControlOp.Res K where
  ok _ _ := True
  step time op r time' := time ≤ time' ∧ match op, r with
    | .unixMillis, r => c.ClockAnswers time' (c.serverMs time') r
    | .unixSeconds, r => c.ClockAnswers time' (c.serverSeconds time') r
    | _, _ => True

/-- `issue_host` gave out the token for this host, at a time up to `time`. -/
def Minted (token : ActorJwt) (time : K) : Prop :=
  ∃ mintedAt codeRevision expiresAtMs, mintedAt ≤ time ∧
    c.config.tokenIssuer.issueHost (c.serverMs mintedAt) c.namespaceId c.maintainer.host c.maintainer.sessionId codeRevision
      c.region = .ok ⟨token, expiresAtMs⟩

end LaunchedHost

structure CredentialState (K : Type) where
  lease : MaintainerState K
  /-- `authorization` of the client -/
  token : ActorJwt
  /-- The token that a register call was sent with -/
  carried : ℕ → ActorJwt

def MaintainerEvent.sends : MaintainerEvent K → Bool
  | .start => true
  | .wake => true
  | _ => false

inductive CredentialStep (c : LaunchedHost K) :
    CredentialState K → MaintainerEvent K → CredentialState K → Prop
  | send {s : CredentialState K} {e : MaintainerEvent K} {lease : MaintainerState K} : e.sends = true →
      MaintainerStep c.maintainer s.lease e lease →
      CredentialStep c s e { s with lease := lease, carried := Function.update s.carried s.lease.sent s.token }
  /-- The command ran some time between the call and the reply. -/
  | reply {s : CredentialState K} {deadline : Option K} {call validUntilMs : ℕ} {sampledAt stampedAt time : K}
      {reply : HostLease} {replacement : Option ActorJwt} {lease : MaintainerState K} :
      s.lease.phase = .renewing deadline call validUntilMs sampledAt →
      s.lease.replies call = some (.register (.ok reply), stampedAt) →
      MaintainerStep c.maintainer s.lease (.reply call) lease →
      Exec c.serverEnv (c.service.execute (s.carried call) (.registerLease c.maintainer.request)).run sampledAt
        (.ok (.lease reply replacement)) time → time ≤ s.lease.time →
      CredentialStep c s (.reply call) { s with lease := lease, token := replacement.getD s.token }
  | move {s : CredentialState K} {e : MaintainerEvent K} {lease : MaintainerState K} : e.sends = false →
      (∀ call, e ≠ .reply call) → MaintainerStep c.maintainer s.lease e lease →
      CredentialStep c s e { s with lease := lease }

/-- The host starts with a token that was issued for it, however long ago. -/
def credentialSystem (c : LaunchedHost K) : System (CredentialState K) (MaintainerEvent K) where
  init s := (maintainerSystem c.maintainer).init s.lease ∧ c.Minted s.token s.lease.time
  step := CredentialStep c

end LDO
