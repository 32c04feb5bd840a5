import DurableObjects.Sanity.Targets

/-! Every resolved target is usable: the host it names accepts the token that comes with it, as
long as the token lives, for the request that echoes the target. -/

namespace LDO

open Prog

section Acceptance

variable {service : ControlPlaneService} {outside : Outside service.parsers} {issuer : ActorJwtIssuer}
  {verifier : ActorJwtVerifier} {parsers : Parsers}

/-- A host's verifier, configured for the tokens of the issuer. -/
structure Trusts (verifier : ActorJwtVerifier) (issuer : ActorJwtIssuer) : Prop where
  key : issuer.keyId ∈ verifier.keyIds
  iss : verifier.issuer = issuer.issuer
  audience : verifier.audience = issuer.invocationAudience
  purpose : verifier.purpose = .invocation
  lifetime : 60 * 10 ^ 9 ≤ verifier.maxLifetime

/-- The host named in the token takes the request that echoes the target, at every time from
five seconds before the token was issued until it expires. -/
structure Usable (parsers : Parsers) (verifier : ActorJwtVerifier) (actor : ActorKey)
    (target : WorkflowActorTarget) : Prop where
  lives : target.token.claims.iat < target.token.claims.exp
  short : (target.token.claims.exp - target.token.claims.iat) * 10 ^ 9 ≤ verifier.maxLifetime
  state : target.stateVersion = 0 ↔ target.stateReadUrl = ""
  accepted : ∀ decodedAt now, target.token.claims.iat - 5 ≤ decodedAt → decodedAt < target.token.claims.exp →
    target.token.claims.iat - 5 ≤ now → now < target.token.claims.exp →
    ∃ principal, verifier.authenticate parsers decodedAt now target.token = .ok principal ∧
      validateHostRequest principal ⟨target.token.claims.processId⟩ actor target.ownerEpoch target.stateVersion
        target.stateReadUrl = .ok ()

theorem issueInvocationTarget_exp_le {nowMs : ℤ} {actor : ActorKey} {hostId : HostId}
    {sessionId codeRevision region : String} {ownerEpoch stateVersion : ℕ} {stateReadUrl : String}
    {workflowExpiresAt : ℤ} {issued : IssuedActorToken}
    (h : issuer.issueInvocationTarget nowMs actor hostId sessionId codeRevision region ownerEpoch stateVersion stateReadUrl
      workflowExpiresAt = .ok issued) : issued.token.claims.exp ≤ i64Limit := by
  simp only [ActorJwtIssuer.issueInvocationTarget, bind_ok, ensure_ok_iff] at h
  obtain ⟨_, -, _, -, -, -, lifetime, -, -, -, h⟩ := h
  obtain ⟨htoken, -⟩ := issue_ok h
  rw [htoken]
  exact (min_le_right _ _).trans (min_le_right _ _)

theorem ne_empty_of_named {namespaceId id : String}
    (h : ("host.v1." ++ namespaceId ++ ".").toList <+: id.toList) : id ≠ "" := by
  rintro rfl
  have hlen := h.length_le
  simp at hlen

variable {capability : ActorInvocationCapability} {sessionId region : String} {issuedAt workflowExpiresAt : ℤ}
  {claims : ActorJwtClaims}

/-- The capability as the issuer writes it passes the verifier's check. -/
theorem validateCapability_issued (h : InvocationClaims issuer capability sessionId region issuedAt workflowExpiresAt claims)
    (hempty : capability.stateVersion = 0 → capability.stateReadUrl = "")
    (hurl : capability.stateVersion ≠ 0 → ∃ parsed, parsers.parseUrl capability.stateReadUrl = some parsed ∧ parsed.isHttp = true) :
    ActorJwtVerifier.validateCapability parsers (ActorJwtVerifier.principalOf claims) capability = .ok () := by
  have hhost : capability.hostId = (ActorJwtVerifier.principalOf claims).hostId :=
    congrArg HostId.mk h.processId.symm
  have hscope : (ActorJwtVerifier.principalOf claims).scope.contains capability.actor = true :=
    decide_eq_true h.namespaceId.symm
  simp only [ActorJwtVerifier.validateCapability, bind_ok, ensure_ok_iff]
  refine ⟨(), h.processRole, (), hhost, (), hscope, (), h.epoch_pos, ?_⟩
  split_ifs with hversion
  · exact ensure_ok.mpr (hempty hversion)
  · obtain ⟨parsed, hparsed, hhttp⟩ := hurl hversion
    rw [hparsed]
    exact ensure_ok.mpr hhttp

/-- What the issuer wrote is what the verifier asks for. -/
theorem accepted_issued (htrust : Trusts verifier issuer)
    (h : InvocationClaims issuer capability sessionId region issuedAt workflowExpiresAt claims)
    (hexp : claims.exp ≤ i64Limit)
    (hsession : parsers.isUuid sessionId = true)
    (hnamed : ("host.v1." ++ capability.actor.namespaceId ++ ".").toList <+: capability.hostId.id.toList)
    (hcapability : ActorJwtVerifier.validateCapability parsers (ActorJwtVerifier.principalOf claims) capability = .ok ())
    {now : ℤ} (hfrom : claims.iat - 5 ≤ now) (huntil : now < claims.exp) :
    Accepted verifier parsers now claims := by
  have hlives : claims.iat < claims.exp := by rw [h.iat]; exact h.lives
  have httl : claims.exp ≤ claims.iat + 60 := by rw [h.iat]; exact h.ttl
  have hvalid := h.valid
  simp only [ActorKey.validate, bind_ok] at hvalid
  obtain ⟨_, hnamespace, -⟩ := hvalid
  constructor
  · rw [htrust.purpose, h.processRole, h.scope]
    decide
  · rw [h.sub]
    exact ne_empty_of_named hnamed
  · exact fun _ => h.sub.trans h.processId.symm
  · rw [h.session]
    exact hsession
  · exact hlives
  · rw [i64Limit]
    omega
  · have hlifetime : (60 : ℤ) * 10 ^ 9 ≤ verifier.maxLifetime := by exact_mod_cast htrust.lifetime
    omega
  · exact huntil
  · refine le_min ?_ (hlives.le.trans hexp)
    rw [clockSkew]
    omega
  · rw [h.namespaceId]
    exact hnamespace
  · rw [h.processRole, h.namespaceId, h.processId]
    exact hnamed
  · rw [h.home]
    exact ensure_ok.mp h.regionValid
  · intro capability' hc
    obtain rfl := Option.some.inj (h.invocation.symm.trans hc)
    exact hcapability

theorem decoded_issued {token : ActorJwt} (htrust : Trusts verifier issuer)
    (hkey : token.keyId = issuer.keyId)
    (h : InvocationClaims issuer capability sessionId region issuedAt workflowExpiresAt token.claims)
    {decodedAt : ℤ} (hfrom : token.claims.iat - 5 ≤ decodedAt)
    (huntil : decodedAt < token.claims.exp) : DecodedToken verifier decodedAt token where
  key := by rw [hkey]; exact htrust.key
  iss := by rw [h.iss, htrust.iss]
  aud := by rw [h.aud, htrust.audience]; exact List.mem_singleton_self _
  exp := by rw [clockSkew]; omega
  nbf := by rw [h.nbf, ← h.iat, clockSkew]; omega

/-- The host takes the request that names what its capability names. -/
theorem validateHostRequest_issued (h : InvocationClaims issuer capability sessionId region issuedAt workflowExpiresAt claims)
    (hstate : capability.stateVersion = 0 ↔ capability.stateReadUrl = "") :
    validateHostRequest (ActorJwtVerifier.principalOf claims) ⟨claims.processId⟩ capability.actor capability.ownerEpoch
      capability.stateVersion capability.stateReadUrl = .ok () := by
  have hscope : (ActorJwtVerifier.principalOf claims).scope.contains capability.actor = true :=
    decide_eq_true h.namespaceId.symm
  have hdiffers : capabilityDiffers ⟨claims.processId⟩ capability.actor capability.ownerEpoch capability.stateVersion
      capability.stateReadUrl (ActorJwtVerifier.principalOf claims).invocation = false := by
    change capabilityDiffers _ _ _ _ _ claims.invocation = false
    rw [h.invocation, h.processId]
    simp [capabilityDiffers]
  simp only [validateHostRequest, bind_ok, refuse_ok]
  refine ⟨(), by simp [hscope], (), ?_, (), ?_, by simp [hdiffers]⟩
  · rintro (hzero | hno)
    · exact absurd h.epoch_pos (by omega)
    · exact hno hstate
  · rintro (hrole | hhost)
    · exact hrole h.processRole
    · exact hhost rfl

/-- A resolution that succeeds hands out a target that works. -/
theorem resolved_target_usable {rounds : ℕ} {principal : ActorPrincipal} {actor : ActorKey}
    {kind : WorkflowRoute} {target : WorkflowActorTarget} (hempty : service.parsers.parseUrl "" = none)
    (hissuer : service.hostTokenIssuer = some issuer) (htrust : Trusts verifier issuer)
    (hx : Exec (taskEnv service outside) (service.resolveWorkflowRoute rounds principal actor kind).run () (.ok target) ()) :
    Usable service.parsers verifier actor target := by
  have hany : ∀ {α : Type} (x : ControlM α), Yields (taskEnv service outside) x fun _ => True :=
    fun _ => .any fun _ _ => trivial
  refine hx.of_yields (P := Usable service.parsers verifier actor) ?_
  refine yields_guard fun _ _ => yields_guard fun _ _ => yields_routeActor.bind fun routed hrouted =>
    (yields_stateReadUrl hrouted.placement).bind fun url hurl => yields_guard fun issuer' hissuer' =>
    (hany _).bind fun nowMs _ => yields_guard fun issued hissued => (hany _).bind fun route _ => .pure ?_
  obtain rfl := Option.some.inj (hissuer.symm.trans (orContext_ok.mp hissuer'))
  obtain ⟨hkey, h⟩ : _ ∧ InvocationClaims issuer ⟨actor, routed.lease.id, routed.placement.ownerEpoch,
      routed.placement.stateVersion, url⟩ routed.lease.sessionId routed.placement.homeRegion (nowMs / 1000) principal.expiresAt
      issued.token.claims := issueInvocationTarget_ok hissued
  have hstate : routed.placement.stateVersion = 0 ↔ url = "" := by
    refine ⟨hurl.1, fun hu => by_contra fun hversion => ?_⟩
    obtain ⟨parsed, hparsed, -⟩ := hurl.2 hversion
    rw [hu, hempty] at hparsed
    cases hparsed
  have hcapability := validateCapability_issued h hurl.1 hurl.2
  have haccepted : ∀ now, issued.token.claims.iat - 5 ≤ now → now < issued.token.claims.exp →
      Accepted verifier service.parsers now issued.token.claims := fun now =>
    accepted_issued htrust h (issueInvocationTarget_exp_le hissued) hrouted.lease.session hrouted.lease.named hcapability
  have hlives : issued.token.claims.iat < issued.token.claims.exp := by rw [h.iat]; exact h.lives
  have hnow := haccepted issued.token.claims.iat (by omega) hlives
  refine ⟨hnow.lifetime, hnow.maxLifetime, hstate, fun decodedAt now hd hd' hn hn' => ?_⟩
  exact ⟨_, authenticate_ok.mpr ⟨decoded_issued htrust hkey h hd hd', haccepted now hn hn', rfl⟩,
    validateHostRequest_issued h hstate⟩

end Acceptance

/-! ### A first target

A host has registered its lease; the first resolution of an actor claims it for that host. -/

namespace FirstTarget

def uuid : String := "00000000-0000-4000-8000-000000000001"
def hostId : HostId := ⟨"host.v1.acme.r1." ++ uuid⟩
def route : String := "http://10.0.0.1:7101"
def actor : ActorKey := ⟨"acme", "counter", "1"⟩

def issuer : ActorJwtIssuer := ⟨"key", "https://issuer", "authority", "invocation", 3600 * 10 ^ 9⟩
def verifier : ActorJwtVerifier := ⟨["key"], "https://issuer", "invocation", .invocation, 3600 * 10 ^ 9⟩

def parsers : Parsers where
  isUuid s := decide (s = uuid)
  parseUrl s :=
    if s = route then some ⟨"http", some "10.0.0.1", "", none, "/", none, none⟩
    else if List.isPrefixOf "https://bucket/".toList s.toList then
      some ⟨"https", some "bucket", "", none, String.ofList (s.toList.drop 14), none, none⟩
    else none

def service : ControlPlaneService where
  auth := ⟨["key"], "https://issuer", "authority", .controlPlane, 3600 * 10 ^ 9⟩
  hostTokenIssuer := some issuer
  routing := true
  provisioner := some issuer
  regions := ["eu"]
  parsers := parsers

def hostToken : ActorJwt := ⟨"key",
  { iss := "https://issuer", aud := ["authority", "invocation"], sub := hostId.id, namespaceId := "acme"
    processId := hostId.id, sessionId := uuid, processRole := .host, region := "eu", privateRouting := false
    codeRevision := some "r1", scope := "actor:authority actor:invoke", iat := 1000, nbf := 1000, exp := 4600
    invocation := none }⟩

def principal : ActorPrincipal where
  scope := ⟨"acme"⟩
  hostId := ⟨"workflow.v1.acme." ++ uuid⟩
  sessionId := uuid
  processRole := .workflow
  region := "eu"
  privateRouting := true
  codeRevision := none
  expiresAt := 4600
  invocation := none

def ensureHost (request : EnsureHostRequest) : Result ActorHostHandle :=
  if request.hostId = ⟨"host.v1." ++ request.namespaceId ++ "." ++ request.codeRevision ++ "." ++ uuid⟩ then
    .ok ⟨request.hostId, route, request.canonicalRegion⟩
  else .error (.new "host ID does not belong to its namespace")

def outside : Outside service.parsers where
  readUrl _ objectName r := r = .ok ("https://bucket/" ++ objectName)
  ensureHost request r := r = ensureHost request
  readUrl_http := by
    rintro region objectName url h
    cases h
    have hroute : "https://bucket/" ++ objectName ≠ route := fun h => by
      have := congrArg (fun s => s.toList.take 5) h
      simp [route] at this
    have hstart : List.isPrefixOf "https://bucket/".toList ("https://bucket/" ++ objectName).toList = true := by
      simp
    refine ⟨⟨"https", some "bucket", "", none, String.ofList (("https://bucket/" ++ objectName).toList.drop 14), none, none⟩,
      ?_, rfl⟩
    simp only [service, parsers, hroute, hstart, if_true, if_false]
  ensureHost_named := by
    rintro request handle h
    unfold ensureHost at h
    split_ifs at h with hid
    cases h
    exact ⟨uuid, hid⟩

/-- Every call is answered, statements by the database. -/
def answer (db : Database) : (op : ControlOp) → op.Res × Database
  | .sql statement =>
    match statement.run db with
    | .ok (rows, after) => (.ok rows, after)
    | .error e => (.error e, db)
  | .unixMillis => (.ok 2000000, db)
  | .unixSeconds => (.ok 2000, db)
  | .newUuid => (.ok uuid, db)
  | .launchSpec namespaceId => (.ok (some ⟨namespaceId, "r1"⟩), db)
  | .ensureHost request => (ensureHost request, db)
  | .publicHostRoute .. => (.ok "https://tunnel", db)
  | .readUrl _ objectName => (.ok ("https://bucket/" ++ objectName), db)
  | .writeTicket _ _ stateVersion => (.ok ⟨stateVersion, "snapshots/", "https://bucket", 0⟩, db)

theorem answer_step (db : Database) (op : ControlOp) :
    tableEnv.step db op (answer db op).1 (answer db op).2 := by
  cases op with
  | sql statement =>
    simp only [answer]
    split
    · exact .rows ‹_›
    · exact .failed _
  | _ => rfl

def registerLease : ControlTask := .execute hostToken (.registerLease ⟨hostId, uuid, route, 60000⟩)

/-- The host has registered its lease. -/
def db : Database := ((registerLease.program service).run answer .empty).2

theorem db_reachable : ReachableDb service db := by
  have hinit : (controlSystem service).Reachable ⟨.empty, fun _ => none⟩ := ⟨[], _, rfl, .nil _⟩
  exact reachable_alone (hinit.step (.arrive (i := 0) registerLease rfl)) (exec_run answer_step _ _)

def resolution : ControlM WorkflowActorTarget := service.resolveWorkflowRoute 1 principal actor .invocation

def resolve : Result WorkflowActorTarget :=
  (resolution.run.run (fun (_ : Unit) op => ((answer db op).1, ())) ()).1

theorem resolve_exec : Exec (taskEnv service outside) resolution.run () resolve () := by
  refine exec_run (fun _ op => ?_) _ _
  cases op with
  | sql statement => exact ⟨db, (answer db (.sql statement)).2, db_reachable, answer_step db (.sql statement)⟩
  | launchSpec namespaceId =>
    rintro spec h
    cases h
    rfl
  | ensureHost request => rfl
  | readUrl region objectName => rfl
  | _ => trivial

def target : WorkflowActorTarget where
  route := route
  token := ⟨"key",
    { iss := "https://issuer", aud := ["invocation"], sub := hostId.id, namespaceId := "acme", processId := hostId.id
      sessionId := uuid, processRole := .host, region := "eu", privateRouting := false,
        codeRevision := some "r1"
      scope := "actor:invoke", iat := 2000, nbf := 2000, exp := 2060
      invocation := some ⟨actor, hostId, 1, 0, ""⟩ }⟩
  ownerEpoch := 1
  stateVersion := 0
  stateReadUrl := ""
  expiresAtMs := 2060000

theorem resolved_target_usable_first :
    resolve = .ok target ∧ Usable service.parsers verifier actor target := by
  have hresolve : resolve = .ok target := by decide
  have hx := resolve_exec
  rw [hresolve] at hx
  exact ⟨hresolve, resolved_target_usable (by decide) rfl ⟨by decide, rfl, rfl, rfl, by decide⟩ hx⟩

end FirstTarget

end LDO
