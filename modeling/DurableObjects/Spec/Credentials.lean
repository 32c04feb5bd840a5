import Mathlib.Algebra.Group.Int.Defs
import DurableObjects.Spec.Identity
import DurableObjects.Spec.Placement

/-! Actor tokens: what the issuer mints, what a verifier accepts and what a host makes of
the principal. A token stands for its claims and the key that signed them; what
`jsonwebtoken` checks of them is `decode`. Times are Unix seconds unless they say
otherwise, and durations are in nanoseconds. -/

namespace LDO

inductive ActorProcessRole where
  | host
  | workflow
  deriving DecidableEq

inductive ActorTokenPurpose where
  | controlPlane
  | invocation
  deriving DecidableEq

def ActorTokenPurpose.claim : ActorTokenPurpose → ActorProcessRole → String
  | .controlPlane, .host => "actor:authority"
  | .controlPlane, .workflow => "actor:invoke"
  | .invocation, .workflow => "actor:invoke"
  | .invocation, .host => "actor:invoke"

structure ActorInvocationCapability where
  actor : ActorKey
  hostId : HostId
  ownerEpoch : ℕ
  stateVersion : ℕ
  stateReadUrl : String
  deriving DecidableEq

structure ActorPrincipal where
  scope : ActorScope
  hostId : HostId
  sessionId : String
  processRole : ActorProcessRole
  region : String
  privateRouting : Bool
  codeRevision : Option String
  expiresAt : ℤ
  invocation : Option ActorInvocationCapability
  deriving DecidableEq

structure ActorJwtClaims where
  iss : String
  aud : List String
  sub : String
  namespaceId : String
  processId : String
  sessionId : String
  processRole : ActorProcessRole
  region : String
  privateRouting : Bool
  codeRevision : Option String
  scope : String
  iat : ℤ
  nbf : ℤ
  exp : ℤ
  invocation : Option ActorInvocationCapability
  deriving DecidableEq

/-- Claims and the key they are signed with. -/
structure ActorJwt where
  keyId : String
  claims : ActorJwtClaims
  deriving DecidableEq

/-- A parsed `reqwest::Url`. -/
structure Url where
  scheme : String
  host : Option String
  username : String
  password : Option String
  path : String
  query : Option String
  fragment : Option String
  deriving DecidableEq

/-- What the `uuid` and `url` crates make of a string. -/
structure Parsers where
  isUuid : String → Bool
  parseUrl : String → Option Url

def Url.isHttp (url : Url) : Bool := (url.scheme == "http" || url.scheme == "https") && url.host.isSome

/-! ### Time -/

def i64Limit : ℤ := 2 ^ 63 - 1

/-- `i64::saturating_add` of a nonnegative value -/
def i64SaturatingAdd (a b : ℤ) : ℤ := min (a + b) i64Limit

/-- `i64::try_from` of a duration or a clock reading -/
def i64From (n : ℕ) (c : String) : Result ℤ := if n ≤ i64Max then .ok n else .error (.new c)

def asSecs (nanos : ℕ) : ℕ := nanos / 10 ^ 9
def asMillis (nanos : ℕ) : ℕ := nanos / 10 ^ 6

def durationMillis (nanos : ℕ) : Result ℤ := i64From (asMillis nanos) "duration exceeds supported JWT range"

/-! ### The issuer -/

/-- `WORKFLOW_DEADLINE_GRACE` in milliseconds -/
def workflowDeadlineGrace : ℤ := 30000

/-- `INVOCATION_TARGET_TTL` in seconds -/
def invocationTargetTtl : ℤ := 60

structure ActorJwtIssuer where
  keyId : String
  issuer : String
  authorityAudience : String
  invocationAudience : String
  maxLifetime : ℕ

structure IssuedActorToken where
  token : ActorJwt
  expiresAtMs : ℤ
  deriving DecidableEq

namespace ActorJwtIssuer

variable (issuer : ActorJwtIssuer)

def issue (claims : ActorJwtClaims) : Result IssuedActorToken := do
  ensure (claims.exp * 1000 ≤ i64Limit) "issued actor token expiration overflow"
  pure ⟨⟨issuer.keyId, claims⟩, claims.exp * 1000⟩

/-- The clock reading and the two random UUIDs are arguments. -/
def issueWorkflow (nowMs : ℤ) (processUuid sessionUuid : String)
    (namespaceId executionId storageRegion : String) (deadlineUnixMs : ℤ) (privateRouting : Bool) :
    Result IssuedActorToken := do
  validateRegion storageRegion
  ensure (nowMs < deadlineUnixMs) "workflow deadline must be in the future"
  let maximumExpiration := i64SaturatingAdd nowMs (← durationMillis issuer.maxLifetime)
  let requestedExpiration := i64SaturatingAdd deadlineUnixMs workflowDeadlineGrace
  let expiresAtMs := min requestedExpiration maximumExpiration
  issuer.issue
    { iss := issuer.issuer, aud := [issuer.authorityAudience, issuer.invocationAudience], sub := executionId
      namespaceId := namespaceId, processId := "workflow.v1." ++ namespaceId ++ "." ++ processUuid
      sessionId := sessionUuid, processRole := .workflow, region := storageRegion,
        privateRouting := privateRouting
      codeRevision := none, scope := "actor:invoke", iat := nowMs / 1000, nbf := nowMs / 1000
      exp := expiresAtMs / 1000, invocation := none }

def issueHost (nowMs : ℤ) (namespaceId : String) (hostId : HostId) (sessionId codeRevision region : String) :
    Result IssuedActorToken := do
  let expiresAtMs := i64SaturatingAdd nowMs (← durationMillis issuer.maxLifetime)
  issuer.issue
    { iss := issuer.issuer, aud := [issuer.authorityAudience, issuer.invocationAudience], sub := hostId.id
      namespaceId := namespaceId, processId := hostId.id, sessionId := sessionId, processRole := .host
      region := region, privateRouting := false, codeRevision := some codeRevision
      scope := "actor:authority actor:invoke", iat := nowMs / 1000, nbf := nowMs / 1000
      exp := expiresAtMs / 1000, invocation := none }

def issueInvocationTarget (nowMs : ℤ) (actor : ActorKey) (hostId : HostId)
    (sessionId codeRevision region : String) (ownerEpoch stateVersion : ℕ) (stateReadUrl : String)
    (workflowExpiresAt : ℤ) : Result IssuedActorToken := do
  actor.validate
  validateRegion region
  ensure (0 < ownerEpoch) "actor owner epoch must be positive"
  let now := nowMs / 1000
  let targetExpiresAt := i64SaturatingAdd now invocationTargetTtl
  let issuerExpiresAt := i64SaturatingAdd now (← i64From (asSecs issuer.maxLifetime) "out of range integral type conversion attempted")
  let expiresAt := min (min workflowExpiresAt targetExpiresAt) issuerExpiresAt
  ensure (now < expiresAt) "workflow credential expires too soon"
  issuer.issue
    { iss := issuer.issuer, aud := [issuer.invocationAudience], sub := hostId.id, namespaceId := actor.namespaceId
      processId := hostId.id, sessionId := sessionId, processRole := .host, region := region
      privateRouting := false, codeRevision := some codeRevision, scope := "actor:invoke",
        iat := now, nbf := now
      exp := expiresAt, invocation := some ⟨actor, hostId, ownerEpoch, stateVersion, stateReadUrl⟩ }

end ActorJwtIssuer

/-! ### The verifier -/

/-- `CLOCK_SKEW` -/
def clockSkew : ℤ := 5

structure ActorJwtVerifier where
  keyIds : List String
  issuer : String
  audience : String
  purpose : ActorTokenPurpose
  maxLifetime : ℕ

def isAsciiSpace (c : Char) : Bool := c == ' ' || c == '\t' || c == '\n' || c == '\x0c' || c == '\r'

def splitWords : List Char → List Char → List String
  | [], [] => []
  | [], word => [String.ofList word.reverse]
  | c :: cs, word =>
    if isAsciiSpace c then
      if word = [] then splitWords cs [] else String.ofList word.reverse :: splitWords cs []
    else splitWords cs (c :: word)

/-- `str::split_ascii_whitespace` -/
def splitAsciiWhitespace (s : String) : List String := splitWords s.toList []

/-- What a token must begin its process name with. -/
def processNameStart (role : ActorProcessRole) (namespaceId : String) : String :=
  match role with
  | .host => "host.v1." ++ namespaceId ++ "."
  | .workflow => "workflow.v1." ++ namespaceId ++ "."

namespace ActorJwtVerifier

variable (verifier : ActorJwtVerifier) (parsers : Parsers)

/-- `jsonwebtoken::decode` with issuer, audience, `exp` and `nbf` checked, with leeway -/
def decode (now : ℤ) (token : ActorJwt) : Result ActorJwtClaims := do
  ensure (token.keyId ∈ verifier.keyIds) ("actor token uses unknown key ID " ++ token.keyId.quote)
  ensure (token.claims.iss = verifier.issuer ∧ verifier.audience ∈ token.claims.aud ∧
    now - clockSkew ≤ token.claims.exp ∧ token.claims.nbf ≤ now + clockSkew) "verify actor JWT"
  pure token.claims

def validateCapability (principal : ActorPrincipal) (capability : ActorInvocationCapability) :
    Result Unit := do
  ensure (principal.processRole = .host) "actor invocation capability has an invalid process role"
  ensure (capability.hostId = principal.hostId) "actor invocation capability targets another host"
  ensure (principal.scope.contains capability.actor) "actor invocation capability crossed namespace scope"
  ensure (0 < capability.ownerEpoch) "actor invocation capability owner epoch is invalid"
  if capability.stateVersion = 0 then
    ensure (capability.stateReadUrl = "") "uninitialized actor invocation capability has a state URL"
  else
    let url ← orContext (parsers.parseUrl capability.stateReadUrl) "actor invocation capability state URL is invalid"
    ensure url.isHttp "actor invocation capability state URL must be HTTP or HTTPS"

def validateInvocation (principal : ActorPrincipal) : Result Unit :=
  match principal.invocation with
  | some capability => validateCapability parsers principal capability
  | none => pure ()

def principalOf (claims : ActorJwtClaims) : ActorPrincipal where
  scope := ⟨claims.namespaceId⟩
  hostId := ⟨claims.processId⟩
  sessionId := claims.sessionId
  processRole := claims.processRole
  region := claims.region
  privateRouting := claims.privateRouting
  codeRevision := claims.codeRevision
  expiresAt := claims.exp
  invocation := claims.invocation

def validateClaims (now : ℤ) (claims : ActorJwtClaims) : Result ActorPrincipal := do
  ensure (verifier.purpose.claim claims.processRole ∈ splitAsciiWhitespace claims.scope)
    "actor token credential scope is invalid"
  ensure (claims.sub ≠ "") "actor token subject is empty"
  ensure (claims.processRole = .host → claims.sub = claims.processId)
    "host token subject does not match its process identity"
  ensure (parsers.isUuid claims.sessionId) "actor token session ID is invalid"
  ensure (claims.iat < claims.exp) "actor token lifetime is invalid"
  ensure (claims.exp - claims.iat ≤ i64Limit) "actor token lifetime is invalid"
  ensure ((claims.exp - claims.iat) * 10 ^ 9 ≤ verifier.maxLifetime)
    "actor token lifetime exceeds the configured maximum"
  ensure (now < claims.exp) "actor token has expired"
  ensure (claims.iat ≤ i64SaturatingAdd now clockSkew) "actor token was issued in the future"
  let principal := principalOf claims
  principal.scope.validate
  ensure ((processNameStart principal.processRole principal.scope.namespaceId).toList <+: principal.hostId.id.toList)
    "actor token process does not belong to its namespace"
  ensure (principal.region ≠ "" ∧ principal.region.utf8ByteSize ≤ 64 ∧ principal.region.toList.all isRegionChar)
    "actor token storage region is invalid"
  validateInvocation parsers principal
  pure principal

/-- `verify_with_header`. The clock is read once by `decode` and once by `validate_claims`. -/
def authenticate (decodedAt now : ℤ) (token : ActorJwt) : Result ActorPrincipal := do
  verifier.validateClaims parsers now (← verifier.decode decodedAt token)

end ActorJwtVerifier

/-! ### Requests to a host -/

inductive StatusCode where
  | invalidArgument
  | unauthenticated
  | permissionDenied
  | failedPrecondition
  deriving DecidableEq

structure Status where
  code : StatusCode
  message : String
  deriving DecidableEq

/-- The capability of a token is not the one the request names. -/
def capabilityDiffers (hostId : HostId) (actor : ActorKey) (ownerEpoch stateVersion : ℕ)
    (stateReadUrl : String) :
    Option ActorInvocationCapability → Bool
  | some capability => decide (capability.actor ≠ actor ∨ capability.hostId ≠ hostId ∨ capability.ownerEpoch ≠ ownerEpoch ∨
      capability.stateVersion ≠ stateVersion ∨ capability.stateReadUrl ≠ stateReadUrl)
  | none => false

def validateHostRequest (principal : ActorPrincipal) (hostId : HostId) (actor : ActorKey)
    (ownerEpoch stateVersion : ℕ) (stateReadUrl : String) : Except Status Unit := do
  refuse (principal.scope.contains actor = false)
    (Status.mk .permissionDenied "actor invocation crossed namespace scope")
  refuse (ownerEpoch = 0 ∨ ¬ (stateVersion = 0 ↔ stateReadUrl = ""))
    (Status.mk .invalidArgument "actor ownership capability is incomplete")
  refuse (principal.processRole ≠ .host ∨ principal.hostId ≠ hostId)
    (Status.mk .permissionDenied "actor invocation credential is not for this host")
  refuse (capabilityDiffers hostId actor ownerEpoch stateVersion stateReadUrl principal.invocation = true)
    (Status.mk .permissionDenied "actor invocation does not match its direct capability")

end LDO
