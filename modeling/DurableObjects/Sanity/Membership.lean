import DurableObjects.Sanity.Connections

/-! Whether a connection is in the registry, read off the trace of its task: it is filed
once, opened after its connect event, and struck out before its disconnect event is sent.
The catalog of an event is read from the registry at a point of this life that depends on
the kind of the event. -/

namespace LDO

open Prog

namespace Gateway

variable {t : ℕ} {tr tr' : List GatewayEvent} {invocation : ActorSocketInvocation} {α : Type} {access : SocketAccess}
  {connection : ActorSocketConnection}

inductive Membership where
  | outside
  | inside (connection : ActorSocketConnection) (isOpen : Bool)
  | gone (connection : ActorSocketConnection)

def Membership.next : Membership → GatewayEvent → Membership
  | .outside, ⟨.insert _ connection _ _, true⟩ => .inside connection false
  | .inside connection _, ⟨.activate .., _⟩ => .inside connection true
  | .inside connection _, ⟨.remove .., _⟩ => .gone connection
  | m, _ => m

def membership (tr : List GatewayEvent) : Membership := tr.foldl Membership.next .outside

@[simp] theorem membership_snoc (tr : List GatewayEvent) (e : GatewayEvent) :
    membership (tr ++ [e]) = (membership tr).next e := by
  simp [membership]

/-- A call that leaves the registry's members as they are. -/
def Steady : GatewayOp → Prop
  | .insert .. => False
  | .activate .. => False
  | .remove .. => False
  | _ => True

theorem Membership.next_steady (m : Membership) {e : GatewayEvent} (h : Steady e.op) : m.next e = m := by
  obtain ⟨op, r⟩ := e
  cases op <;> cases m <;> first | rfl | exact h.elim

theorem foldl_steady (m : Membership) {evs : List GatewayEvent} (h : ∀ e ∈ evs, Steady e.op) :
    evs.foldl Membership.next m = m := by
  induction evs with
  | nil => rfl
  | cons e evs ih =>
    rw [List.foldl_cons, Membership.next_steady m (h e (by simp))]
    exact ih fun e he => h e (by simp [he])

theorem Extends.membership (h : Extends Steady tr tr') : membership tr' = membership tr := by
  obtain ⟨evs, rfl, hevs⟩ := h
  rw [Gateway.membership, List.foldl_append]
  exact foldl_steady _ hevs

/-- Where the catalog of an event comes from. -/
def Catalogue (tr : List GatewayEvent) (invocation : ActorSocketInvocation) : Prop :=
  match invocation.event with
  | .connect connection => ∃ before after connections,
      tr = before ++ ⟨.connections invocation.actor, connections⟩ :: after ∧
      membership before = .inside connection false ∧ invocation.connections = connections ++ [connection]
  | .message connectionId _ => ∃ before after connections connection,
      tr = before ++ ⟨.connections invocation.actor, connections⟩ :: after ∧
      membership before = .inside connection true ∧ connection.id = connectionId ∧
      invocation.connections = connections
  | .disconnect leaving .. => ∃ before after connections connection,
      tr = before ++ ⟨.remove invocation.actor connection.id, some leaving⟩ ::
        ⟨.connections invocation.actor, connections⟩ :: after ∧
      membership before = .inside connection true ∧ leaving.id = connection.id ∧
      invocation.connections = connections

theorem Catalogue.append (h : Catalogue tr invocation) (evs : List GatewayEvent) :
    Catalogue (tr ++ evs) invocation := by
  unfold Catalogue at h ⊢
  split at h
  · obtain ⟨before, after, connections, rfl, h⟩ := h
    exact ⟨before, after ++ evs, connections, by simp, h⟩
  · obtain ⟨before, after, connections, connection, rfl, h⟩ := h
    exact ⟨before, after ++ evs, connections, connection, by simp, h⟩
  · obtain ⟨before, after, connections, connection, rfl, h⟩ := h
    exact ⟨before, after ++ evs, connections, connection, by simp, h⟩

/-- When the task of a connection may make a call. -/
def MemberOk (t : ℕ) (access : SocketAccess) (tr : List GatewayEvent) : GatewayOp → Prop
  | .insert actor connection outbound _ => actor = access.actor ∧ outbound = t ∧ Drew tr connection.id ∧
      membership tr = .outside
  | .activate actor id => actor = access.actor ∧ ∃ connection, connection.id = id ∧
      membership tr = .inside connection false
  | .remove actor id => actor = access.actor ∧ ∃ connection, connection.id = id ∧
      ((∃ isOpen, membership tr = .inside connection isOpen) ∨ membership tr = .gone connection)
  | .connections actor => actor = access.actor
  | .sendSocketEvent _ invocation => invocation.actor = access.actor ∧ Catalogue tr invocation
  | _ => True

/-- A connection that is in the registry is found there. -/
def Found (tr : List GatewayEvent) : GatewayEvent → Prop
  | ⟨.remove _ id, removed⟩ => ∀ connection isOpen, membership tr = .inside connection isOpen →
      connection.id = id → ∃ leaving, removed = some leaving ∧ leaving.id = id
  | _ => True

abbrev memberEnv (t : ℕ) (access : SocketAccess) : Env GatewayOp GatewayOp.Res (List GatewayEvent) :=
  eventEnv (MemberOk t access) Found

theorem Routing.steady {op : GatewayOp} (h : Routing op) : Steady op := by
  cases op <;> trivial

theorem Routing.memberOk {op : GatewayOp} (h : Routing op) : MemberOk t access tr op := by
  cases op <;> trivial

theorem Applying.steady {op : GatewayOp} (h : Applying op) : Steady op := by
  cases op <;> trivial

theorem Applying.memberOk {op : GatewayOp} (h : Applying op) : MemberOk t access tr op := by
  cases op <;> trivial

theorem Sending.steady {op : GatewayOp} (h : Sending invocation op) : Steady op := by
  rcases h with h | ⟨target, rfl⟩
  · exact h.steady
  · trivial

/-! ### One dispatch -/

/-- When an event may be dispatched. -/
def Ready (tr : List GatewayEvent) : ActorSocketEvent → Prop
  | .connect connection => membership tr = .inside connection false
  | .message connectionId _ => ∃ connection, connection.id = connectionId ∧
      membership tr = .inside connection true
  | .disconnect connection .. => membership tr = .inside connection true

/-- What a dispatch does to the membership of its connection. -/
def Membership.dispatched : Membership → ActorSocketEvent → Bool → Membership
  | .inside connection _, .connect _, true => .inside connection true
  | .inside connection _, .disconnect .., _ => .gone connection
  | m, _, _ => m

/-- What `prepare_event` leaves behind. -/
structure PreparedAt (actor : ActorKey) (event : ActorSocketEvent) (tr tr' : List GatewayEvent)
    (r : ActorSocketEvent × List ActorSocketConnection) : Prop where
  prepared : Prepared event r.1
  member : membership tr' = (membership tr).dispatched event false
  catalogue : ∀ requestId, Catalogue tr' ⟨requestId, actor, r.1, r.2⟩

theorem wp_prepareEvent_member {event : ActorSocketEvent} (h : Ready tr event) :
    wp (memberEnv t access) (prepareEvent access.actor event)
      (fun r tr' => PreparedAt access.actor event tr tr' r) tr := by
  cases event with
  | connect connection =>
    refine wp_ask rfl fun connections _ => ⟨rfl, ?_, fun requestId => ⟨tr, [], connections, rfl, h, rfl⟩⟩
    rw [membership_snoc, show membership tr = _ from h]
    exact Membership.next_steady _ (e := ⟨.connections access.actor, connections⟩) trivial
  | message connectionId message =>
    obtain ⟨connection, hid, hm⟩ := h
    refine wp_ask rfl fun connections _ => ⟨rfl, ?_, fun requestId => ?_⟩
    · rw [membership_snoc, hm]
      exact Membership.next_steady _ (e := ⟨.connections access.actor, connections⟩) trivial
    · exact ⟨tr, [], connections, connection, rfl, hm, hid, rfl⟩
  | disconnect connection code reason wasClean =>
    have hm : membership tr = .inside connection true := h
    refine wp_ask ⟨rfl, connection, rfl, .inl ⟨true, hm⟩⟩ fun removed hfound => ?_
    obtain ⟨leaving, rfl, hid⟩ := hfound connection true hm rfl
    refine wp_ask rfl fun connections _ => ⟨⟨leaving, hid, rfl⟩, ?_, fun requestId => ?_⟩
    · rw [membership_snoc, membership_snoc, hm]
      rfl
    · exact ⟨tr, [], connections, connection, by simp, hm, hid, rfl⟩

theorem wp_settle_member {event : ActorSocketEvent} (triggerMessage : Bool)
    (h : ∀ connection, event = .connect connection → membership tr = .inside connection false) :
    wp (memberEnv t access) (do
      match connecting event with
      | some connectionId => ask (.activate access.actor connectionId)
      | none => pure ()
      if triggerMessage then do
        let triggerId ← ask (.triggerId access.actor (messageConnectionId event))
        ask (.deliver access.actor triggerId event)
      pure true : GatewayM Bool) (fun done tr' => done = true ∧ (∀ connection, event = .connect connection →
        membership tr' = .inside connection true) ∧
        ((∀ connection, event ≠ .connect connection) → membership tr' = membership tr)) tr := by
  have hdeliver : ∀ {tr'}, wp (memberEnv t access) (do
      if triggerMessage then do
        let triggerId ← ask (.triggerId access.actor (messageConnectionId event))
        ask (.deliver access.actor triggerId event)
      pure true : GatewayM Bool) (fun done tr'' => done = true ∧ membership tr'' = membership tr') tr' := by
    intro tr'
    cases triggerMessage with
    | false => exact ⟨rfl, rfl⟩
    | true =>
      refine wp_ask trivial fun triggerId _ => wp_ask trivial fun _ _ => ⟨rfl, ?_⟩
      exact Extends.membership (((Extends.refl tr').snoc (by trivial)).snoc (by trivial))
  cases event with
  | connect connection =>
    have hm := h connection rfl
    refine wp_ask ⟨rfl, connection, rfl, hm⟩ fun _ _ => wp_mono hdeliver fun done tr' h' => ⟨h'.1, ?_, ?_⟩
    · rintro connection' heq
      cases heq
      rw [h'.2, membership_snoc, hm]
      rfl
    · exact fun hne => (hne connection rfl).elim
  | message connectionId message =>
    refine wp_mono hdeliver fun done tr' h' => ⟨h'.1, ?_, fun _ => h'.2⟩
    exact fun _ heq => by cases heq
  | disconnect connection code reason wasClean =>
    refine wp_mono hdeliver fun done tr' h' => ⟨h'.1, ?_, fun _ => h'.2⟩
    exact fun _ heq => by cases heq

theorem wp_dispatch_member {event : ActorSocketEvent} (principal : ActorPrincipal) (triggerMessage : Bool)
    (h : Ready tr event) :
    wp (memberEnv t access) (dispatch access.actor principal event triggerMessage)
      (fun done tr' => membership tr' = (membership tr).dispatched event done) tr := by
  refine wp_seq (wp_prepareEvent_member h) fun r tr₀ h₀ => ?_
  obtain ⟨event', connections⟩ := r
  refine wp_ask trivial fun requestId _ => ?_
  refine wp_seq (wp_attempts principal 2 ?_) fun r tr₁ h₁ => ?_
  · rintro tr' op ⟨evs, rfl, -⟩ (hop | ⟨target, rfl⟩)
    · exact hop.memberOk
    · rw [List.append_assoc]
      exact ⟨rfl, (h₀.catalogue requestId).append _⟩
  have hm : membership tr₁ = (membership tr).dispatched event false := by
    refine Eq.trans ?_ h₀.member
    refine Extends.membership (Extends.trans ((Extends.refl tr₀).snoc ?_) (h₁.sends.mono fun _ => Sending.steady))
    trivial
  cases r with
  | error e => exact hm
  | ok effects =>
    dsimp only
    cases validateSocketEffects effects with
    | error e => exact hm
    | ok u =>
      refine wp_seq (wp_calls (fun _ _ _ => Applying.memberOk) (calls_apply access.actor effects)) fun _ tr₂ h₂ => ?_
      have hm₂ : membership tr₂ = (membership tr).dispatched event false :=
        (h₂.mono fun _ => Applying.steady).membership.trans hm
      have hprep : Prepared event event' := h₀.prepared
      refine wp_mono (wp_settle_member triggerMessage ?_) fun done tr₃ h₃ => ?_
      · rintro connection rfl
        cases event with
        | connect connection' =>
          cases hprep
          rw [hm₂, show membership tr = .inside connection false from h]
          rfl
        | message => cases hprep
        | disconnect =>
          obtain ⟨_, _, heq⟩ := hprep
          cases heq
      · obtain ⟨rfl, hconnect, hother⟩ := h₃
        cases event with
        | connect connection =>
          cases hprep
          rw [hconnect connection rfl, show membership tr = .inside connection false from h]
          rfl
        | message connectionId message =>
          cases hprep
          rw [hother (fun _ heq => by cases heq), hm₂]
          cases membership tr <;> rfl
        | disconnect connection code reason wasClean =>
          obtain ⟨_, _, rfl⟩ := hprep
          rw [hother (fun _ heq => by cases heq), hm₂]
          cases membership tr <;> rfl

/-! ### The stages of a connection -/

/-- Where a connection is in the registry when a stage is over. -/
def MemberEnd (tr : List GatewayEvent) : Stage → Prop
  | .opening => False
  | .serving connection => membership tr = .inside connection true
  | .leaving connection _ => membership tr = .inside connection true
  | .ended => ∀ connection isOpen, membership tr ≠ .inside connection isOpen

theorem wp_closeSocket_member (code : ℕ) (reason : String) :
    wp (memberEnv t access) (closeSocket code reason) (fun _ tr' => membership tr' = membership tr) tr :=
  wp_ask trivial fun _ _ => Extends.membership ((Extends.refl tr).snoc trivial)

theorem wp_openConnection_member (serde : SerdeJson) :
    wp (memberEnv t access) (openConnection serde t access) (fun stage tr' => MemberEnd tr' stage) [] := by
  have hreceive : Calls (fun op => op = .recvInitialization) (initialMetadata serde access) := by
    unfold initialMetadata
    cases access.metadata with
    | some metadata => trivial
    | none => exact ⟨rfl, fun _ => trivial⟩
  refine wp_seq (wp_calls (fun _ _ _ h => by subst h; trivial) hreceive) fun metadata tr₀ h₀ => ?_
  have hm₀ : membership tr₀ = .outside := (h₀.mono fun op hop => by subst hop; trivial).membership
  cases metadata with
  | none =>
    refine wp_seq (wp_closeSocket_member 1002 _) fun _ tr' h' connection isOpen => ?_
    rw [h', hm₀]
    exact fun heq => by cases heq
  | some metadata =>
    refine wp_ask trivial fun id _ => ?_
    have hm₁ : membership (tr₀ ++ [⟨.newUuid, id⟩]) = .outside := by
      rw [membership_snoc, hm₀]
      rfl
    refine wp_ask ⟨rfl, rfl, by simp [Drew], hm₁⟩ fun inserted _ => ?_
    cases inserted with
    | false =>
      refine wp_seq (wp_closeSocket_member 1013 _) fun _ tr' h' connection isOpen => ?_
      rw [h', membership_snoc, hm₁]
      exact fun heq => by cases heq
    | true =>
      have hm₂ : membership (tr₀ ++ [⟨.newUuid, id⟩] ++
          [⟨.insert access.actor ⟨id, metadata, []⟩ t access.triggerId, true⟩]) = .inside ⟨id,
            metadata, []⟩ false := by
        rw [membership_snoc, hm₁]
        rfl
      refine wp_seq (wp_dispatch_member access.principal false hm₂) fun connected tr₃ h₃ => ?_
      rw [hm₂] at h₃
      cases connected with
      | true => exact h₃
      | false =>
        refine wp_ask ⟨rfl, ⟨id, metadata, []⟩, rfl, .inl ⟨false, h₃⟩⟩ fun removed _ => ?_
        refine wp_seq (wp_closeSocket_member 1011 _) fun _ tr' h' connection isOpen => ?_
        rw [h', membership_snoc, h₃]
        exact fun heq => by cases heq

theorem wp_onMessage_member (message : ActorSocketMessage) (hm : membership tr = .inside connection true) :
    wp (memberEnv t access) (onMessage access connection message) (fun stage tr' => MemberEnd tr' stage) tr := by
  refine wp_seq (wp_dispatch_member access.principal true ⟨connection, rfl, hm⟩) fun handled tr' h' => ?_
  rw [hm] at h'
  cases handled with
  | true => exact h'
  | false => exact h'

theorem wp_serve_member (hm : membership tr = .inside connection true) :
    wp (memberEnv t access) (serve access connection) (fun stage tr' => MemberEnd tr' stage) tr := by
  have hselected : ∀ selected, membership (tr ++ [⟨.select, selected⟩]) = .inside connection true :=
    fun selected => (Extends.membership ((Extends.refl tr).snoc (by trivial))).trans hm
  have hsent : ∀ selected frame r, membership (tr ++ [⟨.select, selected⟩] ++ [⟨.socketSend frame, r⟩]) =
      .inside connection true :=
    fun selected frame r => (Extends.membership ((Extends.refl _).snoc (by trivial))).trans (hselected selected)
  refine wp_ask trivial fun selected _ => ?_
  match selected with
  | .inbound (some (.ok (.text data))) => exact wp_onMessage_member _ (hselected _)
  | .inbound (some (.ok (.binary data))) => exact wp_onMessage_member _ (hselected _)
  | .inbound (some (.ok (.ping data))) =>
    refine wp_ask trivial fun r _ => ?_
    cases r with
    | ok u => exact hsent _ _ _
    | error e => exact hsent _ _ _
  | .inbound (some (.ok (.pong data))) => exact hselected _
  | .inbound (some (.ok (.close none))) => exact hselected _
  | .inbound (some (.ok (.close (some (code, reason))))) => exact hselected _
  | .inbound (some (.error e)) => exact hselected _
  | .inbound none => exact hselected _
  | .outbound (some (.message message)) =>
    dsimp only
    cases websocketMessage message with
    | none => exact hselected _
    | some frame =>
      refine wp_ask trivial fun r _ => ?_
      cases r with
      | ok u => exact hsent _ _ _
      | error e => exact hsent _ _ _
  | .outbound (some (.close code reason)) =>
    exact wp_seq (wp_closeSocket_member code reason) fun _ tr' h' => h'.trans (hselected _)
  | .outbound none => exact hselected _

theorem wp_leave_member (disconnect : Disconnect) (hm : membership tr = .inside connection true) :
    wp (memberEnv t access) (leave access connection disconnect) (fun stage tr' => MemberEnd tr' stage) tr := by
  refine wp_seq (wp_dispatch_member access.principal false hm) fun done tr' h' => ?_
  rw [hm] at h'
  refine wp_ask ⟨rfl, connection, rfl, .inr h'⟩ fun removed _ c isOpen => ?_
  rw [membership_snoc, h']
  exact fun heq => by cases heq

theorem wp_runConnection_member (serde : SerdeJson) {stage : Stage} (hne : stage ≠ .ended)
    (h : match stage with
      | .opening => tr = []
      | stage => MemberEnd tr stage) :
    wp (memberEnv t access) (runConnection serde t access stage) (fun stage' tr' => MemberEnd tr' stage') tr := by
  cases stage with
  | opening =>
    subst h
    exact wp_openConnection_member serde
  | serving connection => exact wp_serve_member h
  | leaving connection disconnect => exact wp_leave_member disconnect h
  | ended => exact (hne rfl).elim

end Gateway

end LDO
