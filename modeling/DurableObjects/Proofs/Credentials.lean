import DurableObjects.Sanity.Credentials
import DurableObjects.Sanity.Authority
import DurableObjects.Proofs.Identity

/-! Three kinds of tokens share one claims type and one key, and each opens only what it was
minted for. A socket may also be opened without a token, with a credential that the
configured authorization service accepts. Two commits go further than their token: one that
is recognised as a repetition is answered, with a ticket for the next write, without asking
who owns the actor now, and one for an actor that shares its storage key moves the head of
another namespace's actor. -/

namespace LDO

open Prog

section Tokens

variable {issuer : ActorJwtIssuer} {service : ControlPlaneService} {verifier : ActorJwtVerifier} {parsers : Parsers}
  {token : ActorJwt} {actor : ActorKey} {decodedAt now : ℤ}

/-! ### Workflow tokens -/

theorem contains_ok {scope : ActorScope} :
    ¬ scope.contains actor = false ↔ actor.namespaceId = scope.namespaceId := by
  simp [ActorScope.contains]

theorem authorizedWorkflow_ok {principal : ActorPrincipal}
    (h : service.authorizedWorkflow decodedAt now token actor = .ok principal) :
    token.claims.processRole = .workflow ∧ token.claims.namespaceId = actor.namespaceId := by
  simp only [ControlPlaneService.authorizedWorkflow, ControlPlaneService.authenticateWorkflow,
    bind_ok, mapError_ok, refuse_ok, contains_ok, not_not] at h
  obtain ⟨principal', hauth, -, hrole, -, hscope, -⟩ := h
  obtain ⟨-, -, rfl⟩ := authenticate_ok.mp hauth
  exact ⟨hrole, hscope.symm⟩

theorem authorizeWorkflow_ok {principal : ActorPrincipal}
    (h : service.authorizeWorkflow decodedAt now token actor = .ok principal) :
    token.claims.processRole = .workflow ∧ token.claims.namespaceId = actor.namespaceId := by
  simp only [ControlPlaneService.authorizeWorkflow, ControlPlaneService.authenticateWorkflow,
    bind_ok, mapError_ok, refuse_ok, not_or, contains_ok, not_not] at h
  obtain ⟨principal', hauth, -, ⟨hrole, hscope⟩, -⟩ := h
  obtain ⟨-, -, rfl⟩ := authenticate_ok.mp hauth
  exact ⟨hrole, hscope.symm⟩

theorem targetAccess_ok {principal : ActorPrincipal}
    (h : service.targetAccess decodedAt now token actor = .ok principal) :
    token.claims.processRole = .workflow ∧ token.claims.namespaceId = actor.namespaceId := by
  simp only [ControlPlaneService.targetAccess, bind_ok] at h
  obtain ⟨-, -, h⟩ := h
  exact authorizedWorkflow_ok h

theorem socketAccess_ok {principal : ActorPrincipal}
    (h : service.socketAccess decodedAt now token actor = .ok principal) :
    token.claims.processRole = .workflow ∧ token.claims.namespaceId = actor.namespaceId := by
  simp only [ControlPlaneService.socketAccess, bind_ok] at h
  obtain ⟨-, -, h⟩ := h
  exact authorizeWorkflow_ok h

theorem effectsAccess_ok {effects : List ActorSocketEffect} {principal : ActorPrincipal}
    (h : service.effectsAccess decodedAt now token actor effects = .ok principal) :
    token.claims.processRole = .workflow ∧ token.claims.namespaceId = actor.namespaceId := by
  simp only [ControlPlaneService.effectsAccess, bind_ok] at h
  obtain ⟨principal', h, -⟩ := h
  exact socketAccess_ok h

/-! ### External sockets -/

/-- The socket was opened for what the authorization service says of the credential in the headers. -/
structure Authorized (service : ControlPlaneService) (now : ℤ) (triggerId actorId : String)
    (headers : HeaderMap) (authorization : SocketAuthorization) (principal : ActorPrincipal) :
    Prop where
  accepted : ∃ credential authenticator, externalCredential headers = some credential ∧
    service.socketAuthenticator = some authenticator ∧
    authenticator.authorize now ⟨triggerId, actorId, credential⟩ = .ok authorization
  valid : authorization.actor.validate = .ok ()
  requested : authorization.actor.actorId = actorId
  unexpired : now < authorization.expiresAt
  processRole : principal.processRole = .workflow
  scope : principal.scope = ⟨authorization.actor.namespaceId⟩
  expires : principal.expiresAt = authorization.expiresAt

theorem authorize_ok {authenticator : HttpSocketAuthenticator} {request : SocketAuthorizationRequest}
    {authorization : SocketAuthorization} (h : authenticator.authorize now request = .ok authorization) :
    authorization.actor.validate = .ok () ∧ authorization.actor.actorId = request.actorId ∧
    now < authorization.expiresAt := by
  unfold HttpSocketAuthenticator.authorize at h
  split at h
  · cases h
  · split_ifs at h
    simp only [mapError_ok, bind_ok, SocketAuthorizationResponse.intoAuthorization, ensure_ok_iff] at h
    obtain ⟨response, -, -, hid, -, -, -, hlives, -, -, _, hvalid, h⟩ := h
    cases h
    exact ⟨hvalid, hid, hlives⟩

theorem connectExternal_ok {hostUuid sessionUuid triggerId actorId : String} {headers : HeaderMap}
    {authorization : SocketAuthorization} {principal : ActorPrincipal}
    (h : service.connectExternal now hostUuid sessionUuid triggerId actorId headers = .ok (authorization, principal)) :
    Authorized service now triggerId actorId headers authorization principal := by
  unfold ControlPlaneService.connectExternal at h
  split at h
  · cases h
  · rename_i credential hcredential
    simp only [bind_ok, mapError_ok, ControlPlaneService.authorizeSocket] at h
    obtain ⟨_, hauthorize, h⟩ := h
    cases h
    split at hauthorize
    · rename_i authenticator hconfigured
      obtain ⟨hvalid, hid, hlives⟩ := authorize_ok hauthorize
      exact ⟨⟨credential, authenticator, hcredential, hconfigured, hauthorize⟩, hvalid, hid, hlives,
        rfl, rfl, rfl⟩
    · cases hauthorize

/-! ### Tokens a host accepts -/

variable {hostId : HostId} {ownerEpoch stateVersion : ℕ} {stateReadUrl : String}

/-- The host asks for its own name, the namespace, and the capability if there is one. -/
theorem hostAccess_ok (h : hostAccess verifier parsers hostId decodedAt now token actor ownerEpoch stateVersion stateReadUrl =
    .ok ()) : token.claims.processRole = .host ∧ token.claims.processId = hostId.id ∧
      token.claims.namespaceId = actor.namespaceId ∧ ∀ capability, token.claims.invocation = some capability →
        capability = ⟨actor, hostId, ownerEpoch, stateVersion, stateReadUrl⟩ := by
  simp only [hostAccess, validateHostRequest, bind_ok, mapError_ok, refuse_ok, not_or, contains_ok,
    not_not] at h
  obtain ⟨principal, hauth, -, hscope, -, -, -, ⟨hrole, hid⟩, hcapability⟩ := h
  obtain ⟨-, -, rfl⟩ := authenticate_ok.mp hauth
  refine ⟨hrole, congrArg HostId.id hid, hscope.symm, fun capability hc => ?_⟩
  have hc' : (ActorJwtVerifier.principalOf token.claims).invocation = some capability := hc
  simp only [hc', capabilityDiffers, decide_eq_true_eq, not_or, not_not] at hcapability
  obtain ⟨ha, hh, he, hv, hu⟩ := hcapability
  cases capability
  simp_all

/-- A token that names a host was minted for it. -/
def MintedFor (issuer : ActorJwtIssuer) (hostId : HostId) (token : ActorJwt) : Prop :=
  (∃ namespaceId sessionId, IssuedHost issuer namespaceId hostId sessionId token) ∨
    ∃ capability workflowExpiresAt, IssuedInvocation issuer capability workflowExpiresAt token ∧
    capability.hostId = hostId

theorem MintedFor.processId (h : MintedFor issuer hostId token) : token.claims.processId = hostId.id := by
  rcases h with ⟨namespaceId, sessionId, hh⟩ | ⟨capability, workflowExpiresAt, hi, rfl⟩
  · exact hh.claims.2.2.1
  · obtain ⟨sessionId, region, now, hclaims⟩ := hi.claims
    exact hclaims.processId

/-- A host takes its own token, or an invocation token for exactly this request. -/
theorem host_takes_own (hm : Minted issuer token)
    (h : hostAccess verifier parsers hostId decodedAt now token actor ownerEpoch stateVersion stateReadUrl = .ok ()) :
    (IssuedHost issuer actor.namespaceId hostId token.claims.sessionId token ∨
      ∃ workflowExpiresAt, IssuedInvocation issuer ⟨actor, hostId, ownerEpoch, stateVersion, stateReadUrl⟩
        workflowExpiresAt token) ∧
    (∀ namespaceId, ¬ IssuedWorkflow issuer namespaceId token) ∧
    ∀ other, MintedFor issuer other token → other = hostId := by
  obtain ⟨hrole, hid, hscope, hcapability⟩ := hostAccess_ok h
  refine ⟨?_, fun namespaceId hw => ?_, fun other hother => ?_⟩
  · cases hm with
    | workflow hw => cases hw.claims.1.symm.trans hrole
    | @host namespaceId host sessionId hh =>
      obtain ⟨-, hns, hhost, hsession, -⟩ := hh.claims
      obtain rfl : host = hostId := by
        cases host
        cases hostId
        exact congrArg HostId.mk (hhost.symm.trans hid)
      rw [← hscope, hns, hsession]
      exact .inl hh
    | @invocation capability workflowExpiresAt hi =>
      obtain ⟨sessionId, region, now', hclaims⟩ := hi.claims
      rw [← hcapability capability hclaims.invocation]
      exact .inr ⟨workflowExpiresAt, hi⟩
  · cases hw.claims.1.symm.trans hrole
  · cases other
    cases hostId
    exact congrArg HostId.mk (hother.processId.symm.trans hid)

/-! ### Commands -/

variable {command : ControlPlaneCommand} {principal : ActorPrincipal}

theorem executeCommand_confined {w : List ControlEvent} (hw : ClockOnly w) :
    wp controlEnv (service.executeCommand principal command).run (fun r log =>
      (command.Unshared → (Within principal.authority log ↔ ¬ RepeatedElsewhere principal.authority command log) ∧
        Renews service principal.authority r) ∧
      (principal.processRole = .host ∨ log = w ∧ ∀ answer, r ≠ .ok answer)) w := by
  have hwithin : Within principal.authority w := hw.within
  refine wp_ofResult_bind (fun e => ⟨fun _ => ⟨hw.readsNoRow.iff command hwithin, fun _ _ => nofun⟩,
    .inr ⟨rfl, fun _ => nofun⟩⟩) fun _ hrole => ?_
  have hhost := ensure_ok_iff.mp hrole
  cases command with
  | registerLease request =>
    refine wp_mono (within_registerLease hwithin) fun r log h =>
      ⟨fun _ => ⟨iff_of_true h.1 ?_, h.2⟩, .inl hhost⟩
    rintro ⟨_, _, _, _, hc, -⟩
    cases hc
  | unregisterLease hostId =>
    refine wp_mono (within_unregisterLease service hwithin) fun r log h =>
      ⟨fun _ => ⟨iff_of_true h.1 ?_, h.2⟩, .inl hhost⟩
    rintro ⟨_, _, _, _, hc, -⟩
    cases hc
  | prepareStateWrite actor hostId ownerEpoch expectedVersion =>
    refine wp_mono (within_prepareStateWrite service hwithin) fun r log h =>
      ⟨fun _ => ⟨iff_of_true h.1 ?_, h.2⟩, .inl hhost⟩
    rintro ⟨_, _, _, _, hc, -⟩
    cases hc
  | commitState actor hostId ownerEpoch expectedVersion stateObject requestId =>
    by_cases hkey : OnlyFor actor.namespaceId actor.storageKey
    · exact wp_mono (commitState_within_iff hkey hwithin hw.readsNoRow) fun r log h => ⟨fun _ => h, .inl hhost⟩
    · exact wp_forall (fun _ _ => trivial) (fun r log => ⟨fun h => absurd h hkey, .inl hhost⟩) _ w

/-- Only a host token moves anything. A command for an actor with a storage key of its own stays
within what its token stands for, unless it is found repeated under another owner. -/
def CommandConfined (issuer : ActorJwtIssuer) (service : ControlPlaneService) (token : ActorJwt)
    (command : ControlPlaneCommand) (reply : Result ControlPlaneCommandReply)
    (log : List ControlEvent) : Prop :=
  ((∃ answer, reply = .ok answer) ∨ (∃ e ∈ log, e.op ≠ .unixSeconds) →
    ∃ a : HostAuthority, IssuedHost issuer a.namespaceId a.hostId a.sessionId token) ∧
  ∀ a : HostAuthority, IssuedHost issuer a.namespaceId a.hostId a.sessionId token → command.Unshared →
    (Within a log ∧ Renews service a reply ↔ ¬ RepeatedElsewhere a command log)

theorem wp_execute_confined (hm : Minted issuer token) (hpurpose : service.auth.purpose = .controlPlane) :
    wp controlEnv (service.execute token command).run (CommandConfined issuer service token command) [] := by
  refine wp_except_bind (wp_authenticate fun r log hclock hprincipal => ?_)
  cases r with
  | error e =>
    refine ⟨?_, fun a _ _ => iff_of_true ⟨hclock.within, fun _ _ => nofun⟩ hclock.readsNoRow.not_repeated⟩
    rintro (⟨answer, h⟩ | ⟨e, he, hop⟩)
    · cases h
    · exact absurd (hclock e he).1 hop
  | ok principal =>
    obtain ⟨decodedAt, now, hauth⟩ := hprincipal principal rfl
    obtain ⟨-, haccepted, rfl⟩ := authenticate_ok.mp hauth
    refine wp_mono (executeCommand_confined hclock) fun reply log' h => ?_
    obtain ⟨hconfined, hrole⟩ := h
    constructor
    · intro hacts
      rcases hrole with hrole | ⟨rfl, hno⟩
      · exact ⟨⟨_, _, _⟩, hm.host_of_authority hpurpose haccepted hrole⟩
      · rcases hacts with ⟨answer, h⟩ | ⟨e, he, hop⟩
        · exact absurd h (hno answer)
        · exact absurd (hclock e he).1 hop
    · intro a ha hkey
      obtain ⟨hiff, hrenews⟩ := hconfined hkey
      obtain ⟨-, hns, hid, hsession, -⟩ := ha.claims
      obtain rfl : a = (ActorJwtVerifier.principalOf token.claims).authority := by
        obtain ⟨namespaceId, hostId, sessionId⟩ := a
        subst hns hsession
        exact congrArg (fun host => HostAuthority.mk token.claims.namespaceId host token.claims.sessionId)
          (congrArg HostId.mk hid.symm)
      exact (and_iff_left hrenews).trans hiff

/-! ### The life of an invocation token -/

theorem resolve_expiry {rounds : ℕ} {kind : WorkflowRoute} :
    Yields controlEnv (service.resolveWorkflowRoute rounds principal actor kind) fun target =>
      target.token.claims.exp ≤ principal.expiresAt ∧
      target.token.claims.exp ≤ target.token.claims.iat + invocationTargetTtl := by
  have hany : ∀ {α : Type} (x : ControlM α), Yields controlEnv x fun _ => True :=
    fun _ => .any fun _ _ => trivial
  refine yields_guard fun _ _ => yields_guard fun _ _ => (hany _).bind fun routed _ =>
    (hany _).bind fun url _ =>
    yields_guard fun issuer _ => (hany _).bind fun nowMs _ => yields_guard fun issued hissued =>
    (hany _).bind fun route _ => .pure ?_
  have h : InvocationClaims issuer ⟨actor, routed.lease.id, routed.placement.ownerEpoch, routed.placement.stateVersion, url⟩
      routed.lease.sessionId routed.placement.homeRegion (nowMs / 1000) principal.expiresAt issued.token.claims :=
    (issueInvocationTarget_ok hissued).2
  exact ⟨h.workflow, by rw [h.iat]; exact h.ttl⟩

/-! ### Separation -/

end Tokens

/-! ### Where the tokens do not separate

The first host commits, and loses the reply. Another host, of a newer deployment, takes the
actor over. The first one, whose lease is still active, repeats its commit. -/

namespace LostActor

def issuer : ActorJwtIssuer := ⟨"key", "https://issuer", "authority", "invocation", 3600 * 10 ^ 9⟩
def sessionId : String := "00000000-0000-4000-8000-000000000001"
def firstHost : HostId := ⟨"host.v1.acme.r1.1"⟩
def secondHost : HostId := ⟨"host.v1.acme.r2.2"⟩
def actor : ActorKey := ⟨"acme", "counter", "1"⟩
def stateObject : String := "snapshots/00/00000000000000000000000000000000/acme/counter/1/1.json"

def claims : ActorJwtClaims where
  iss := "https://issuer"
  aud := ["authority", "invocation"]
  sub := firstHost.id
  namespaceId := "acme"
  processId := firstHost.id
  sessionId := sessionId
  processRole := .host
  region := "eu"
  privateRouting := false
  codeRevision := some "r1"
  scope := "actor:authority actor:invoke"
  iat := 1000
  nbf := 1000
  exp := 4600
  invocation := none

def token : ActorJwt := ⟨"key", claims⟩

def service : ControlPlaneService where
  auth := ⟨["key"], "https://issuer", "authority", .controlPlane, 3600 * 10 ^ 9⟩
  hostTokenIssuer := some issuer
  routing := true
  provisioner := some issuer
  regions := ["eu"]
  parsers := ⟨fun s => decide (s = sessionId), fun _ => none⟩
  socketAuthenticator := some ⟨fun request =>
    .answered 200 (.ok ⟨"acme", "counter", request.actorId, "eu", .null, 5000⟩)⟩

def runStatements (db : Database) (statements : List Sql) : Database :=
  statements.foldl (fun db statement => match statement.run db with
    | .ok (_, db') => db'
    | .error _ => db) db

def db : Database :=
  runStatements .empty [.insertPlacement actor.storageKey firstHost "eu",
    .upsertLease ⟨firstHost, sessionId, "http://10.0.0.1:50051", 60000⟩,
    .commitHead ⟨actor.storageKey, firstHost, sessionId, 1, 0, stateObject, "request-1"⟩,
    .claimPlacement actor.storageKey secondHost firstHost 1 "eu"]

def command : ControlPlaneCommand := .commitState actor firstHost 1 0 stateObject "request-1"

/-- Every call is answered, and nothing else touches the database during the command. -/
def answer (db : Database) : (op : ControlOp) → op.Res × Database
  | .sql statement =>
    match statement.run db with
    | .ok (rows, after) => (.ok rows, after)
    | .error e => (.error e, db)
  | .unixMillis => (.ok 2000000, db)
  | .unixSeconds => (.ok 2000, db)
  | .newUuid => (.ok sessionId, db)
  | .launchSpec _ => (.ok none, db)
  | .ensureHost _ => (.error (.new "unused"), db)
  | .publicHostRoute .. => (.error (.new "unused"), db)
  | .readUrl .. => (.error (.new "unused"), db)
  | .writeTicket _ _ stateVersion => (.ok ⟨stateVersion, "snapshots/", "https://bucket", 0⟩, db)

def answers (db : Database) (log : List ControlEvent) (op : ControlOp) : op.Res × List ControlEvent :=
  let before := (log.head?.map (·.after)).getD db
  ((answer before op).1, ⟨op, (answer before op).1, before, (answer before op).2⟩ :: log)

theorem answers_step (db : Database) (log : List ControlEvent) (op : ControlOp) :
    controlEnv.step log op (answers db log op).1 (answers db log op).2 := by
  refine ⟨_, _, ?_, rfl⟩
  cases op with
  | sql statement =>
    simp only [answers, answer]
    split
    · exact .rows ‹_›
    · exact .failed _
  | _ => rfl

def run : Result ControlPlaneCommandReply × List ControlEvent :=
  (service.execute token command).run.run (answers db) []

/-- The last call is for a ticket, and the row before it records another owner than the first host. -/
def endsInForeignTicket : List ControlEvent → Bool
  | ⟨.writeTicket _ actor _, _, _, _⟩ :: e :: _ =>
    match e.after.placements actor.storageKey with
    | some row => decide (row.ownerHostId ≠ firstHost)
    | none => false
  | _ => false

theorem not_within {log : List ControlEvent} {namespaceId session : String}
    (h : endsInForeignTicket log = true) :
    ¬ Within ⟨namespaceId, firstHost, session⟩ log := by
  unfold endsInForeignTicket at h
  split at h
  · rintro ⟨hallowed, -⟩
    obtain ⟨-, -, row, hrow, howner⟩ := hallowed.ticket _ _ _ rfl
    simp only [hrow, decide_eq_true_eq] at h
    exact h howner
  · cases h

theorem token_issued : IssuedHost issuer "acme" firstHost sessionId token :=
  ⟨1000000, "r1", "eu", 4600000, by decide, by decide⟩

theorem run_exec : Exec controlEnv (service.execute token command).run [] run.1 run.2 :=
  exec_run (answers_step db) _ _

/-- Three labels are cut in one way. -/
theorem command_unshared : command.Unshared := by
  intro other _ hkey
  have hlabels : labels other.namespaceId ++ labels other.actorType ++ labels other.actorId =
      ["acme".toList, "counter".toList, "1".toList] := (storageKey_eq_iff other actor).mp hkey
  obtain ⟨x, xs, hx⟩ := List.exists_cons_of_ne_nil (List.splitOn_ne_nil '.' other.namespaceId.toList)
  obtain ⟨y, ys, hy⟩ := List.exists_cons_of_ne_nil (List.splitOn_ne_nil '.' other.actorType.toList)
  obtain ⟨z, zs, hz⟩ := List.exists_cons_of_ne_nil (List.splitOn_ne_nil '.' other.actorId.toList)
  simp only [labels, hx, hy, hz] at hlabels
  have hlength := congrArg List.length hlabels
  simp only [List.length_append, List.length_cons, List.length_nil] at hlength
  obtain rfl : xs = [] := List.eq_nil_of_length_eq_zero (by omega)
  have hname : labels other.namespaceId = labels "acme" := by
    rw [labels, hx, (List.cons.inj hlabels).1]
    rfl
  exact labels_inj hname

def nextTicketVersion : Result ControlPlaneCommandReply → Option ℕ
  | .ok (.stateCommitted 1 (some ticket)) => some ticket.stateVersion
  | _ => none

/-- The repetition is answered with a ticket for the next version, to a host that is not the owner. -/
theorem repeated_commit_gets_ticket :
    ∃ reply log, Exec controlEnv (service.execute token command).run [] reply log ∧
    (∃ ticket, reply = .ok (.stateCommitted 1 (some ticket)) ∧ ticket.stateVersion = 2) ∧
    ¬ Within ⟨"acme", firstHost, sessionId⟩ log := by
  refine ⟨run.1, run.2, run_exec, ?_, not_within (by decide)⟩
  have h : nextTicketVersion run.1 = some 2 := by decide
  unfold nextTicketVersion at h
  split at h
  · exact ⟨_, by assumption, Option.some.inj h⟩
  · cases h

/-! The actor `team.counter` of `acme` has the storage key of the actor `counter` of `acme.team`. -/

def dotted : ActorKey := ⟨"acme", "team.counter", "1"⟩
def foreign : ActorKey := ⟨"acme.team", "counter", "1"⟩

def claimedDb : Database :=
  runStatements .empty [.insertPlacement dotted.storageKey firstHost "eu",
    .upsertLease ⟨firstHost, sessionId, "http://10.0.0.1:50051", 60000⟩]

def dottedCommit : ControlPlaneCommand :=
  .commitState dotted firstHost 1 0 "snapshots/00/00000000000000000000000000000000/acme/team.counter/1/1.json" "request-1"

/-- The row of `foreign` is not the one it was. -/
def movesForeign (e : ControlEvent) : Bool :=
  decide (e.before.placements foreign.storageKey ≠ e.after.placements foreign.storageKey)

theorem Within.heads {log : List ControlEvent} {a : HostAuthority} (h : Within a log) : ∀ e ∈ log, ∀ object,
    HeadMove a e.before object (e.before.placements object) (e.after.placements object) := by
  induction log with
  | nil => simp
  | cons e past ih =>
    intro e' he'
    rcases List.mem_cons.mp he' with rfl | he'
    · exact h.1.heads
    · exact ih h.2 e' he'

theorem not_within_of_moves {log : List ControlEvent} {hostId : HostId} {session : String}
    (h : log.any movesForeign = true) : ¬ Within ⟨"acme", hostId, session⟩ log := by
  intro hw
  obtain ⟨e, he, hmoves⟩ := List.any_eq_true.mp h
  have hne := of_decide_eq_true hmoves
  have hmove := Within.heads hw e he foreign.storageKey
  generalize e.before.placements foreign.storageKey = old at hmove hne
  generalize e.after.placements foreign.storageKey = new at hmove hne
  cases hmove with
  | same => exact hne rfl
  | advanced _ _ honly _ _ =>
    have hns : foreign.namespaceId = "acme" := honly foreign (by decide) rfl
    exact absurd hns (by decide)

/-- A commit of `acme` moves the head of an actor of `acme.team`. -/
theorem commit_moves_foreign :
    ∃ reply log, Exec controlEnv (service.execute token dottedCommit).run [] reply log ∧
    (∃ e ∈ log, movesForeign e = true) ∧ ¬ Within ⟨"acme", firstHost, sessionId⟩ log := by
  have hany : ((service.execute token dottedCommit).run.run (answers claimedDb) []).2.any movesForeign = true := by decide
  exact ⟨_, _, exec_run (answers_step claimedDb) _ _, List.any_eq_true.mp hany, not_within_of_moves hany⟩

end LostActor

end LDO
