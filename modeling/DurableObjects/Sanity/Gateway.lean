import DurableObjects.Spec.GatewaySystem

/-! What a task of the gateway does, read off its trace: the calls it has made so far and
how they were answered. A connection draws its identifier, is connected once, hears of
its client only then, and says goodbye with one invocation. -/

namespace LDO

open Prog

def ActorSocketInvocation.IsDisconnect (invocation : ActorSocketInvocation) : Prop :=
  ∃ connection code reason wasClean, invocation.event = .disconnect connection code reason wasClean

def Frame.isData : Frame → Bool
  | .text _ => true
  | .binary _ => true
  | _ => false

namespace Gateway

variable {t : ℕ} {tr evs : List GatewayEvent} {invocation : ActorSocketInvocation} {id : String} {α : Type}

/-! ### Reading a trace -/

def Drew (tr : List GatewayEvent) (id : String) : Prop := ⟨.newUuid, id⟩ ∈ tr

/-- `invocation` was sent and answered. -/
def SentIn (tr : List GatewayEvent) (invocation : ActorSocketInvocation) : Prop :=
  ∃ target r, ⟨.sendSocketEvent target invocation, r⟩ ∈ tr

def CompletedIn (tr : List GatewayEvent) (invocation : ActorSocketInvocation)
    (effects : List ActorSocketEffect) : Prop :=
  ∃ target result, ⟨.sendSocketEvent target invocation, .ok (.completed result effects)⟩ ∈ tr

/-- The connect event of `id` was answered `Completed`, with effects that can be applied. -/
def Connected (tr : List GatewayEvent) (id : String) : Prop :=
  ∃ invocation connection effects, invocation.event = .connect connection ∧ connection.id = id ∧
    CompletedIn tr invocation effects ∧ validateSocketEffects effects = .ok ()

/-- The client was heard. -/
def Heard (tr : List GatewayEvent) : Prop :=
  ∃ frame, ⟨.select, .inbound (some (.ok frame))⟩ ∈ tr ∧ frame.isData = true

def Activated (tr : List GatewayEvent) : Prop := ∃ actor id, ⟨.activate actor id, ()⟩ ∈ tr

def Chosen (tr : List GatewayEvent) (channel : ℕ) : Prop :=
  ∃ actor exceptConnectionIds tags recipients,
    ⟨.recipients actor exceptConnectionIds tags, recipients⟩ ∈ tr ∧ channel ∈ recipients

/-- When an event may be sent. -/
def EventOk (tr : List GatewayEvent) (invocation : ActorSocketInvocation) : Prop :=
  match invocation.event with
  | .connect connection => Drew tr connection.id ∧ ¬ Heard tr ∧ ¬ Activated tr ∧
      ∀ invocation', SentIn tr invocation' → invocation' = invocation
  | .message connectionId _ => Drew tr connectionId ∧ Heard tr
  | .disconnect connection .. => Drew tr connection.id ∧ Connected tr connection.id ∧
      ∀ invocation', SentIn tr invocation' → invocation'.IsDisconnect → invocation' = invocation

/-- When task `t` may make a call. -/
def CallOk (t : ℕ) (tr : List GatewayEvent) : GatewayOp → Prop
  | .insert _ connection outbound _ => outbound = t ∧ Drew tr connection.id
  | .activate _ id => Drew tr id ∧ Connected tr id
  | .sendBroadcast channel _ => Chosen tr channel
  | .sendSocketEvent _ invocation => Drew tr invocation.requestId ∧ EventOk tr invocation
  | .deliver _ _ event => ∀ id message, event = .message id message → Drew tr id ∧ Heard tr
  | _ => True

/-- An entry is filed under the identifier of its connection. -/
def Sound : GatewayEvent → Prop
  | ⟨.remove _ id, removed⟩ => ∀ connection, removed = some connection → connection.id = id
  | _ => True

/-- A task that makes calls in `ok` against answers in `good`, as far as its trace tells. -/
def eventEnv (ok : List GatewayEvent → GatewayOp → Prop) (good : List GatewayEvent → GatewayEvent → Prop) :
    Env GatewayOp GatewayOp.Res (List GatewayEvent) where
  ok := ok
  step tr op r tr' := good tr ⟨op, r⟩ ∧ tr' = tr ++ [⟨op, r⟩]

abbrev traceEnv (t : ℕ) (good : List GatewayEvent → GatewayEvent → Prop) :
    Env GatewayOp GatewayOp.Res (List GatewayEvent) := eventEnv (CallOk t) good

section Mono

variable (h : tr ⊆ evs)
include h

theorem Drew.mono (hd : Drew tr id) : Drew evs id := h hd

theorem SentIn.mono (hs : SentIn tr invocation) : SentIn evs invocation := by
  obtain ⟨target, r, hm⟩ := hs
  exact ⟨target, r, h hm⟩

theorem CompletedIn.mono {effects : List ActorSocketEffect} (hc : CompletedIn tr invocation effects) :
    CompletedIn evs invocation effects := by
  obtain ⟨target, result, hm⟩ := hc
  exact ⟨target, result, h hm⟩

theorem Connected.mono (hc : Connected tr id) : Connected evs id := by
  obtain ⟨invocation, connection, effects, hevent, hid, hdone, hvalid⟩ := hc
  exact ⟨invocation, connection, effects, hevent, hid, hdone.mono h, hvalid⟩

theorem Heard.mono (hd : Heard tr) : Heard evs := by
  obtain ⟨frame, hm, hdata⟩ := hd
  exact ⟨frame, h hm, hdata⟩

theorem Activated.mono (ha : Activated tr) : Activated evs := by
  obtain ⟨actor, id, hm⟩ := ha
  exact ⟨actor, id, h hm⟩

end Mono

/-! ### Calls that tell nothing -/

/-- A call that sends no event, hears nothing and opens nothing. -/
def Idle : GatewayOp → Prop
  | .sendSocketEvent .. => False
  | .select => False
  | .activate .. => False
  | _ => True

/-- A call that looks for the host of an actor. -/
def Routing : GatewayOp → Prop
  | .unixSeconds => True
  | .cachedTarget _ => True
  | .invalidateTarget _ => True
  | .resolveTarget .. => True
  | .invalidateChannel _ => True
  | _ => False

/-- The calls while `invocation` is sent. -/
def Sending (invocation : ActorSocketInvocation) (op : GatewayOp) : Prop :=
  Routing op ∨ ∃ target, op = .sendSocketEvent target invocation

/-- The calls while `invocation` is dispatched. -/
def Dispatching (invocation : ActorSocketInvocation) (op : GatewayOp) : Prop :=
  Idle op ∨ ∃ target, op = .sendSocketEvent target invocation

/-- `tr'` is `tr` and then calls in `P`. -/
def Extends (P : GatewayOp → Prop) (tr tr' : List GatewayEvent) : Prop :=
  ∃ evs, tr' = tr ++ evs ∧ ∀ e ∈ evs, P e.op

variable {P : GatewayOp → Prop} {tr' tr'' : List GatewayEvent}

theorem Extends.refl (tr : List GatewayEvent) : Extends P tr tr :=
  ⟨[], by simp, fun _ he => absurd he List.not_mem_nil⟩

theorem Extends.trans (h : Extends P tr tr') (h' : Extends P tr' tr'') : Extends P tr tr'' := by
  obtain ⟨evs, rfl, hevs⟩ := h
  obtain ⟨evs', rfl, hevs'⟩ := h'
  refine ⟨evs ++ evs', by simp, fun e he => ?_⟩
  rcases List.mem_append.mp he with he | he
  · exact hevs e he
  · exact hevs' e he

theorem Extends.snoc {e : GatewayEvent} (h : Extends P tr tr') (he : P e.op) : Extends P tr (tr' ++ [e]) :=
  h.trans ⟨[e], rfl, fun e' he' => by rwa [List.mem_singleton.mp he']⟩

theorem Extends.mono {P' : GatewayOp → Prop} (h : Extends P tr tr') (hP : ∀ op, P op → P' op) :
    Extends P' tr tr' := by
  obtain ⟨evs, rfl, hevs⟩ := h
  exact ⟨evs, rfl, fun e he => hP _ (hevs e he)⟩

theorem Extends.subset (h : Extends P tr tr') : tr ⊆ tr' := by
  obtain ⟨evs, rfl, -⟩ := h
  exact List.subset_append_left _ _

theorem Extends.new {e : GatewayEvent} (h : Extends P tr tr') (he : e ∈ tr') : e ∈ tr ∨ P e.op := by
  obtain ⟨evs, rfl, hevs⟩ := h
  rcases List.mem_append.mp he with he | he
  · exact .inl he
  · exact .inr (hevs e he)

section Dispatching

variable (h : Extends (Dispatching invocation) tr tr')
include h

theorem Extends.sentIn {invocation' : ActorSocketInvocation} (hs : SentIn tr' invocation') :
    SentIn tr invocation' ∨ invocation' = invocation := by
  obtain ⟨target, r, hm⟩ := hs
  rcases h.new hm with hm | hidle | ⟨target', heq⟩
  · exact .inl ⟨target, r, hm⟩
  · exact hidle.elim
  · cases heq
    exact .inr rfl

theorem Extends.heard (hd : Heard tr') : Heard tr := by
  obtain ⟨frame, hm, hdata⟩ := hd
  rcases h.new hm with hm | hidle | ⟨target', heq⟩
  · exact ⟨frame, hm, hdata⟩
  · exact hidle.elim
  · cases heq

theorem Extends.activated (ha : Activated tr') : Activated tr := by
  obtain ⟨actor, id, hm⟩ := ha
  rcases h.new hm with hm | hidle | ⟨target', heq⟩
  · exact ⟨actor, id, hm⟩
  · exact hidle.elim
  · cases heq

/-- The same event may be sent again. -/
theorem EventOk.again (he : EventOk tr invocation) : EventOk tr' invocation := by
  unfold EventOk at he ⊢
  cases hevent : invocation.event with
  | connect connection =>
    rw [hevent] at he
    obtain ⟨hdrew, hheard, hact, hone⟩ := he
    refine ⟨hdrew.mono h.subset, fun hd => hheard (h.heard hd), fun ha => hact (h.activated ha),
      fun invocation' hs => ?_⟩
    rcases h.sentIn hs with hs | rfl
    · exact hone invocation' hs
    · rfl
  | message connectionId message =>
    rw [hevent] at he
    exact ⟨he.1.mono h.subset, he.2.mono h.subset⟩
  | disconnect connection code reason wasClean =>
    rw [hevent] at he
    obtain ⟨hdrew, hconn, hone⟩ := he
    refine ⟨hdrew.mono h.subset, hconn.mono h.subset, fun invocation' hs hd => ?_⟩
    rcases h.sentIn hs with hs | rfl
    · exact hone invocation' hs hd
    · rfl

end Dispatching

/-! ### Dispatching an event -/

/-- An idle call that needs nothing. -/
def Plain : GatewayOp → Prop
  | .insert .. => False
  | .sendBroadcast .. => False
  | .deliver .. => False
  | op => Idle op

theorem Plain.callOk {op : GatewayOp} (h : Plain op) : CallOk t tr op := by
  cases op <;> trivial

theorem Plain.idle {op : GatewayOp} (h : Plain op) : Idle op := by
  cases op <;> trivial

theorem Routing.plain {op : GatewayOp} (h : Routing op) : Plain op := by
  cases op <;> trivial

theorem Sending.dispatching {op : GatewayOp} (h : Sending invocation op) : Dispatching invocation op :=
  h.imp_left fun hop => hop.plain.idle

variable {ok : List GatewayEvent → GatewayOp → Prop} {good : List GatewayEvent → GatewayEvent → Prop}

theorem wp_ask {op : GatewayOp} {f : op.Res → GatewayM α} {Q : α → List GatewayEvent → Prop} (hok : ok tr op)
    (h : ∀ r, good tr ⟨op, r⟩ → wp (eventEnv ok good) (f r) Q (tr ++ [⟨op, r⟩])) :
    wp (eventEnv ok good) (ask op >>= f) Q tr := by
  refine ⟨hok, fun r tr' hs => ?_⟩
  obtain ⟨hgood, rfl⟩ := hs
  exact h r hgood

/-- A program whose calls are allowed after calls of their kind. -/
theorem wp_calls {p : GatewayM α} (hP : ∀ tr' op, Extends P tr tr' → P op → ok tr' op) (hp : Calls P p) :
    wp (eventEnv ok good) p (fun _ tr' => Extends P tr tr') tr := by
  induction p generalizing tr with
  | ret a => exact .refl tr
  | call op next ih =>
    refine wp_ask (hP tr op (.refl tr) hp.1) fun r _ => ?_
    have hext : Extends P tr (tr ++ [⟨op, r⟩]) := (Extends.refl tr).snoc hp.1
    exact wp_mono (ih r (fun tr' op' h => hP tr' op' (hext.trans h)) (hp.2 r)) fun _ tr' h => hext.trans h

theorem wp_plain {p : GatewayM α} (hp : Calls Plain p) :
    wp (traceEnv t good) p (fun _ tr' => Extends Plain tr tr') tr :=
  wp_calls (fun _ _ _ => Plain.callOk) hp

theorem calls_ofResult {β : Type} (r : Result β) : Calls P (ofResult r).run := trivial

theorem calls_lift {op : GatewayOp} (h : P op) : Calls P (lift (ask op)).run := ⟨h, fun _ => trivial⟩

theorem calls_resolveTarget (principal : ActorPrincipal) (actor : ActorKey) :
    Calls Routing (resolveTarget principal actor).run := ⟨trivial, fun _ => trivial⟩

theorem calls_socketTarget (principal : ActorPrincipal) (actor : ActorKey) :
    Calls Routing (socketTarget principal actor).run := by
  refine (calls_ofResult _).except_bind fun _ => (calls_ofResult _).except_bind fun _ => ?_
  refine Calls.except_bind ⟨trivial, fun _ => trivial⟩ fun now => (calls_ofResult _).except_bind fun _ => ?_
  refine (calls_lift trivial).except_bind fun cached => ?_
  cases cached with
  | none => exact calls_resolveTarget principal actor
  | some target =>
    dsimp only
    split
    · trivial
    · exact (calls_lift trivial).except_bind fun _ => calls_resolveTarget principal actor

theorem completedIn_snoc {e : GatewayEvent} {effects : List ActorSocketEffect} :
    CompletedIn (tr ++ [e]) invocation effects ↔ CompletedIn tr invocation effects ∨
      ∃ target result, e = ⟨.sendSocketEvent target invocation, .ok (.completed result effects)⟩ := by
  simp only [CompletedIn, List.mem_append, List.mem_singleton]
  constructor
  · rintro ⟨target, result, h | h⟩
    · exact .inl ⟨target, result, h⟩
    · exact .inr ⟨target, result, h.symm⟩
  · rintro (⟨target, result, h⟩ | ⟨target, result, h⟩)
    · exact ⟨target, result, .inl h⟩
    · exact ⟨target, result, .inr h.symm⟩

theorem Extends.completedIn (h : Extends Plain tr tr') {effects : List ActorSocketEffect}
    (hc : CompletedIn tr' invocation effects) : CompletedIn tr invocation effects := by
  obtain ⟨target, result, hm⟩ := hc
  rcases h.new hm with hm | hplain
  · exact ⟨target, result, hm⟩
  · exact hplain.elim

/-- `invocation` was sent, perhaps more than once, and not completed. -/
def Tried (invocation : ActorSocketInvocation) (tr tr' : List GatewayEvent) : Prop :=
  ∃ evs, tr' = tr ++ evs ∧ ∀ e ∈ evs, Routing e.op ∨
    ∃ target answer, e = ⟨.sendSocketEvent target invocation, answer⟩ ∧
    ∀ result effects, answer ≠ .ok (.completed result effects)

theorem Tried.routing (h : Extends Routing tr tr') : Tried invocation tr tr' := by
  obtain ⟨evs, rfl, hevs⟩ := h
  exact ⟨evs, rfl, fun e he => .inl (hevs e he)⟩

theorem Tried.trans (h : Tried invocation tr tr') (h' : Tried invocation tr' tr'') :
    Tried invocation tr tr'' := by
  obtain ⟨evs, rfl, hevs⟩ := h
  obtain ⟨evs', rfl, hevs'⟩ := h'
  refine ⟨evs ++ evs', by simp, fun e he => ?_⟩
  rcases List.mem_append.mp he with he | he
  · exact hevs e he
  · exact hevs' e he

theorem Tried.refused {target : WorkflowActorTarget} {answer : Result ActorExecutionResult}
    (h : ∀ result effects, answer ≠ .ok (.completed result effects)) :
    Tried invocation tr (tr ++ [⟨.sendSocketEvent target invocation, answer⟩]) := by
  refine ⟨_, rfl, fun e he => .inr ⟨target, answer, ?_, h⟩⟩
  exact List.mem_singleton.mp he

theorem Tried.sends (h : Tried invocation tr tr') : Extends (Sending invocation) tr tr' := by
  obtain ⟨evs, rfl, hevs⟩ := h
  refine ⟨evs, rfl, fun e he => ?_⟩
  rcases hevs e he with hop | ⟨target, answer, rfl, -⟩
  · exact .inl hop
  · exact .inr ⟨target, rfl⟩

theorem Tried.completedIn (h : Tried invocation tr tr') {invocation' : ActorSocketInvocation}
    {effects : List ActorSocketEffect} (hc : CompletedIn tr' invocation' effects) :
    CompletedIn tr invocation' effects := by
  obtain ⟨evs, rfl, hevs⟩ := h
  obtain ⟨target, result, hm⟩ := hc
  rcases List.mem_append.mp hm with hm | hm
  · exact ⟨target, result, hm⟩
  · rcases hevs _ hm with hop | ⟨target', answer, heq, hne⟩
    · exact hop.elim
    · cases heq
      exact (hne result effects rfl).elim

/-- One event was sent, perhaps more than once, and `r` is what came of it. -/
def Attempted (invocation : ActorSocketInvocation) (tr tr' : List GatewayEvent) :
    Result (List ActorSocketEffect) → Prop
  | .error _ => Tried invocation tr tr'
  | .ok effects => ∃ tr₁ target result, Tried invocation tr tr₁ ∧
      tr' = tr₁ ++ [⟨.sendSocketEvent target invocation, .ok (.completed result effects)⟩]

/-- A failure, and then another try. -/
theorem Attempted.after {r : Result (List ActorSocketEffect)} (h : Tried invocation tr tr')
    (h' : Attempted invocation tr' tr'' r) : Attempted invocation tr tr'' r := by
  cases r with
  | error e => exact h.trans h'
  | ok effects =>
    obtain ⟨tr₁, target, result, h₁, rfl⟩ := h'
    exact ⟨tr₁, target, result, h.trans h₁, rfl⟩

theorem Attempted.sends {r : Result (List ActorSocketEffect)} (h : Attempted invocation tr tr' r) :
    Extends (Sending invocation) tr tr' := by
  cases r with
  | error e => exact Tried.sends h
  | ok effects =>
    obtain ⟨tr₁, target, result, h₁, rfl⟩ := h
    exact h₁.sends.snoc (.inr ⟨target, rfl⟩)

theorem Attempted.outcome {r : Result (List ActorSocketEffect)} (h : Attempted invocation tr tr' r)
    (effects : List ActorSocketEffect) :
    CompletedIn tr' invocation effects ↔ CompletedIn tr invocation effects ∨ r = .ok effects := by
  cases r with
  | error e =>
    refine ⟨fun hc => .inl (Tried.completedIn h hc), ?_⟩
    rintro (hc | hr)
    · exact hc.mono (Tried.sends h).subset
    · cases hr
  | ok effects' =>
    obtain ⟨tr₁, target, result, h₁, rfl⟩ := h
    rw [completedIn_snoc]
    constructor
    · rintro (hc | ⟨target', result', heq⟩)
      · exact .inl (h₁.completedIn hc)
      · cases heq
        exact .inr rfl
    · rintro (hc | hr)
      · exact .inl (hc.mono h₁.sends.subset)
      · cases hr
        exact .inr ⟨target, result, rfl⟩

/-- The attempts of a dispatch, whatever else is known: the calls they make are allowed after failed attempts. -/
theorem wp_attempts (principal : ActorPrincipal) (n : ℕ)
    (hsend : ∀ tr' op, Tried invocation tr tr' → Sending invocation op → ok tr' op) :
    wp (eventEnv ok good) (dispatchAttempts principal invocation n).run
      (fun r tr' => Attempted invocation tr tr' r) tr := by
  induction n generalizing tr with
  | zero => exact .routing (.refl tr)
  | succ n ih =>
    have hrouting : ∀ {tr₀}, Tried invocation tr tr₀ → ∀ tr' op, Extends Routing tr₀ tr' →
        Routing op → ok tr' op :=
      fun h₀ tr' op h hop => hsend tr' op (h₀.trans (.routing h)) (.inl hop)
    refine wp_except_bind (wp_mono (wp_calls (hrouting (.routing (.refl tr))) (calls_socketTarget principal _))
      fun r tr₁ h₁ => ?_)
    have hfirst : Tried invocation tr tr₁ := .routing h₁
    cases r with
    | error e => exact hfirst
    | ok target =>
      have hok : ok tr₁ (.sendSocketEvent target invocation) := hsend tr₁ _ hfirst (.inr ⟨target, rfl⟩)
      refine wp_except_bind (wp_ask hok fun answer _ => ?_)
      have hrefused : (∀ result effects, answer ≠ .ok (.completed result effects)) →
          Tried invocation tr (tr₁ ++ [⟨.sendSocketEvent target invocation, answer⟩]) :=
        fun hne => hfirst.trans (.refused hne)
      have hretry : (∀ result effects, answer ≠ .ok (.completed result effects)) →
          wp (eventEnv ok good) (do
            lift (ask (.invalidateTarget (targetKey principal invocation.actor)))
            if n = 0 then throw (.new "actor host remained unavailable after socket reroute")
            else dispatchAttempts principal invocation n : ExceptT Error GatewayM (List ActorSocketEffect)).run
          (fun r tr' => Attempted invocation tr tr' r) (tr₁ ++ [⟨.sendSocketEvent target invocation, answer⟩]) := by
        intro hne
        refine wp_except_bind (wp_mono (wp_calls (hrouting (hrefused hne)) (calls_lift trivial)) fun r tr₂ h₂ => ?_)
        have hsecond : Tried invocation tr tr₂ := (hrefused hne).trans (.routing h₂)
        cases r with
        | error e => exact hsecond
        | ok u =>
          dsimp only
          split
          · exact hsecond
          · exact wp_mono (ih fun tr' op h => hsend tr' op (hsecond.trans h)) fun r tr₃ h₃ => h₃.after hsecond
      cases answer with
      | error e =>
        have hfailed := hrefused fun _ _ h => by cases h
        refine wp_except_bind (wp_mono (wp_calls (hrouting hfailed) (calls_lift trivial)) fun r tr₂ h₂ => ?_)
        have hsecond : Tried invocation tr tr₂ := hfailed.trans (.routing h₂)
        cases r with
        | error e' => exact hsecond
        | ok u =>
          refine wp_except_bind (wp_mono (wp_calls (hrouting hsecond) (calls_lift trivial)) fun r tr₃ h₃ => ?_)
          cases r with
          | error e' => exact hsecond.trans (.routing h₃)
          | ok u => exact hsecond.trans (.routing h₃)
      | ok result =>
        cases result with
        | completed result effects => exact ⟨tr₁, target, result, hfirst, rfl⟩
        | failed failure => exact hrefused fun _ _ h => by cases h
        | reroute => exact hretry fun _ _ h => by cases h
        | hostUnavailable => exact hretry fun _ _ h => by cases h

theorem wp_dispatchAttempts (principal : ActorPrincipal) (n : ℕ) (hdrew : Drew tr invocation.requestId)
    (he : EventOk tr invocation) :
    wp (traceEnv t good) (dispatchAttempts principal invocation n).run
      (fun r tr' => Attempted invocation tr tr' r) tr := by
  refine wp_attempts principal n fun tr' op h hop => ?_
  rcases hop with hop | ⟨target, rfl⟩
  · exact hop.plain.callOk
  · exact ⟨hdrew.mono h.sends.subset, he.again (h.sends.mono fun _ => Sending.dispatching)⟩

/-! ### Applying effects -/

/-- A call that applies an effect. -/
def Applying : GatewayOp → Prop
  | .recipients .. => True
  | .sender .. => True
  | .setMetadata .. => True
  | .setTags .. => True
  | .send .. => True
  | .sendBroadcast .. => True
  | _ => False

theorem Applying.idle {op : GatewayOp} (h : Applying op) : Idle op := by
  cases op <;> trivial

theorem calls_sendToAll (message : OutboundMessage) (channels : List ℕ) :
    Calls Applying (sendToAll message channels) := by
  induction channels with
  | nil => trivial
  | cons channel channels ih => exact ⟨trivial, fun _ => ih⟩

theorem calls_sendTo (message : OutboundMessage) (channel : Option ℕ) :
    Calls Plain (sendTo channel message) := by
  cases channel with
  | none => trivial
  | some channel => exact ⟨trivial, fun _ => trivial⟩

theorem wp_sendToAll (message : OutboundMessage) {channels : List ℕ}
    (h : ∀ channel ∈ channels, Chosen tr channel) :
    wp (traceEnv t good) (sendToAll message channels) (fun _ tr' => Extends Idle tr tr') tr := by
  induction channels generalizing tr with
  | nil => exact .refl tr
  | cons channel channels ih =>
    refine wp_ask (h channel (by simp)) fun r _ => wp_mono (ih fun c hc => ?_) fun _ tr' h' => ?_
    · obtain ⟨actor, exceptConnectionIds, tags, recipients, hm, hr⟩ := h c (by simp [hc])
      exact ⟨actor, exceptConnectionIds, tags, recipients, List.mem_append_left _ hm, hr⟩
    · exact ((Extends.refl tr).snoc trivial).trans h'

theorem wp_applyOne (actor : ActorKey) (effect : ActorSocketEffect) :
    wp (traceEnv t good) (applyOne actor effect) (fun _ tr' => Extends Idle tr tr') tr := by
  have hplain : ∀ {p : GatewayM Unit}, Calls Plain p →
      wp (traceEnv t good) p (fun _ tr' => Extends Idle tr tr') tr :=
    fun hp => wp_mono (wp_plain hp) fun _ _ h => h.mono fun _ => Plain.idle
  have hsend : ∀ (connectionId : String) (message : OutboundMessage), Calls Plain (do
      let channel ← ask (.sender actor connectionId)
      sendTo channel message) := fun _ message => ⟨trivial, calls_sendTo message⟩
  cases effect with
  | broadcast message exceptConnectionIds tags =>
    refine wp_ask trivial fun recipients _ => wp_mono (wp_sendToAll _ fun channel hc => ?_) fun _ tr' h => ?_
    · exact ⟨actor, exceptConnectionIds, tags, recipients, by simp, hc⟩
    · exact ((Extends.refl tr).snoc trivial).trans h
  | setMetadata connectionId metadata => exact hplain ⟨trivial, fun _ => trivial⟩
  | setTags connectionId tags => exact hplain ⟨trivial, fun _ => trivial⟩
  | send connectionId message => exact hplain (hsend _ _)
  | close connectionId code reason => exact hplain (hsend _ _)
  | reject connectionId code reason => exact hplain (hsend _ _)

theorem wp_apply (actor : ActorKey) (effects : List ActorSocketEffect) :
    wp (traceEnv t good) (apply actor effects) (fun _ tr' => Extends Idle tr tr') tr := by
  induction effects generalizing tr with
  | nil => exact .refl tr
  | cons effect effects ih =>
    refine wp_seq (wp_applyOne actor effect) fun _ tr₁ h₁ => wp_mono ih fun _ tr₂ h₂ => h₁.trans h₂

theorem calls_apply (actor : ActorKey) (effects : List ActorSocketEffect) :
    Calls Applying (apply actor effects) := by
  have hsend : ∀ (message : OutboundMessage) (channel : Option ℕ), Calls Applying (sendTo channel message) := by
    intro message channel
    cases channel with
    | none => trivial
    | some channel => exact ⟨trivial, fun _ => trivial⟩
  induction effects with
  | nil => trivial
  | cons effect effects ih =>
    refine Calls.bind ?_ fun _ => ih
    cases effect with
    | broadcast message exceptConnectionIds tags => exact ⟨trivial, fun recipients => calls_sendToAll _ recipients⟩
    | setMetadata connectionId metadata => exact ⟨trivial, fun _ => trivial⟩
    | setTags connectionId tags => exact ⟨trivial, fun _ => trivial⟩
    | send connectionId message => exact ⟨trivial, hsend _⟩
    | close connectionId code reason => exact ⟨trivial, hsend _⟩
    | reject connectionId code reason => exact ⟨trivial, hsend _⟩

/-! ### One dispatch -/

/-- What `prepare_event` may make of an event: the connection that leaves is as the registry has it. -/
def Prepared : ActorSocketEvent → ActorSocketEvent → Prop
  | .disconnect connection code reason wasClean, event => ∃ connection', connection'.id = connection.id ∧
      event = .disconnect connection' code reason wasClean
  | event, event' => event' = event

theorem wp_prepareEvent (actor : ActorKey) (event : ActorSocketEvent) (hgood : ∀ tr e, good tr e → Sound e) :
    wp (traceEnv t good) (prepareEvent actor event)
      (fun r tr' => Extends Plain tr tr' ∧ Prepared event r.1) tr := by
  cases event with
  | connect connection => exact wp_ask trivial fun _ _ => ⟨(Extends.refl tr).snoc trivial, rfl⟩
  | message connectionId message => exact wp_ask trivial fun _ _ => ⟨(Extends.refl tr).snoc trivial, rfl⟩
  | disconnect connection code reason wasClean =>
    refine wp_ask trivial fun removed hremoved => wp_ask trivial fun _ _ => ?_
    refine ⟨((Extends.refl tr).snoc trivial).snoc trivial, removed.getD connection, ?_, rfl⟩
    cases removed with
    | none => rfl
    | some connection' => exact hgood _ _ hremoved connection' rfl

/-- The calls of a dispatch of `invocation`. -/
def DispatchCalls (invocation : ActorSocketInvocation) (op : GatewayOp) : Prop :=
  Dispatching invocation op ∨ ∃ actor id, op = .activate actor id

/-- The calls that follow an answer. -/
def Settling (op : GatewayOp) : Prop := Idle op ∨ ∃ actor id, op = .activate actor id

theorem Settling.dispatchCalls {op : GatewayOp} (h : Settling op) : DispatchCalls invocation op :=
  h.imp Or.inl id

theorem Extends.completedIn_settling (h : Extends Settling tr tr') {effects : List ActorSocketEffect}
    (hc : CompletedIn tr' invocation effects) : CompletedIn tr invocation effects := by
  obtain ⟨target, result, hm⟩ := hc
  rcases h.new hm with hm | hidle | ⟨actor, id, heq⟩
  · exact ⟨target, result, hm⟩
  · exact hidle.elim
  · cases heq

/-- What is known of a dispatch of `event` that is over. -/
structure Dispatched (event : ActorSocketEvent) (tr tr' : List GatewayEvent) (done : Bool)
    (invocation : ActorSocketInvocation) : Prop where
  event : Prepared event invocation.event
  calls : Extends (DispatchCalls invocation) tr tr'
  outcome : ∀ effects, CompletedIn tr' invocation effects → CompletedIn tr invocation effects ∨
    (done = true ↔ validateSocketEffects effects = .ok ())
  connected : done = true → ∀ connection, invocation.event = .connect connection → Connected tr' connection.id ∧
    Activated tr'

theorem Attempted.dispatched {event : ActorSocketEvent} {tr₁ tr₂ tr₃ : List GatewayEvent}
    {r : Result (List ActorSocketEffect)} {done : Bool} (h₁ : Extends Plain tr tr₁)
    (hevent : Prepared event invocation.event) (h₂ : Attempted invocation tr₁ tr₂ r)
    (h₃ : Extends Settling tr₂ tr₃)
    (hdone : ∀ effects, r = .ok effects → (done = true ↔ validateSocketEffects effects = .ok ()))
    (hok : done = true → ∃ effects, r = .ok effects)
    (hact : done = true → ∀ connection, invocation.event = .connect connection → Activated tr₃) :
    Dispatched event tr tr₃ done invocation := by
  refine ⟨hevent, ?_, ?_, ?_⟩
  · refine (h₁.mono fun op hop => ?_).trans ((h₂.sends.mono fun op hop => ?_).trans (h₃.mono fun op hop => ?_))
    · exact .inl (.inl hop.idle)
    · exact .inl hop.dispatching
    · exact hop.dispatchCalls
  · intro effects hc
    rcases (h₂.outcome effects).mp (h₃.completedIn_settling hc) with hc | hr
    · exact .inl (h₁.completedIn hc)
    · exact .inr (hdone effects hr)
  · intro hd connection hconnect
    obtain ⟨effects, hr⟩ := hok hd
    refine ⟨⟨invocation, connection, effects, hconnect, rfl, ?_, (hdone effects hr).mp hd⟩,
      hact hd connection hconnect⟩
    exact ((h₂.outcome effects).mpr (.inr hr)).mono h₃.subset

/-- After the effects are applied: a new connection is opened and a message is delivered. -/
theorem wp_settle (actor : ActorKey) (event : ActorSocketEvent) (triggerMessage : Bool)
    (hconnect : ∀ connection, event = .connect connection → Drew tr connection.id ∧ Connected tr connection.id)
    (hmessage : ∀ id message, event = .message id message → Drew tr id ∧ Heard tr) :
    wp (traceEnv t good) (do
      match connecting event with
      | some connectionId => ask (.activate actor connectionId)
      | none => pure ()
      if triggerMessage then do
        let triggerId ← ask (.triggerId actor (messageConnectionId event))
        ask (.deliver actor triggerId event)
      pure true : GatewayM Bool) (fun done tr' => done = true ∧ Extends Settling tr tr' ∧
        ∀ connection, event = .connect connection → Activated tr') tr := by
  have hdeliver : ∀ {tr'}, tr ⊆ tr' → Extends Settling tr tr' →
      (∀ connection, event = .connect connection → Activated tr') → wp (traceEnv t good) (do
      if triggerMessage then do
        let triggerId ← ask (.triggerId actor (messageConnectionId event))
        ask (.deliver actor triggerId event)
      pure true : GatewayM Bool) (fun done tr' => done = true ∧ Extends Settling tr tr' ∧
        ∀ connection, event = .connect connection → Activated tr') tr' := by
    intro tr' hsub hext hact
    cases triggerMessage with
    | false => exact ⟨rfl, hext, hact⟩
    | true =>
      refine wp_ask trivial fun triggerId _ => wp_ask (fun id message heq => ?_) fun _ _ => ⟨rfl, ?_, ?_⟩
      · obtain ⟨hdrew, hheard⟩ := hmessage id message heq
        exact ⟨(hdrew.mono hsub).mono (List.subset_append_left _ _),
          (hheard.mono hsub).mono (List.subset_append_left _ _)⟩
      · have hidle : ∀ op, Idle op → Settling op := fun _ => Or.inl
        refine (hext.snoc ?_).snoc ?_
        · exact hidle (.triggerId ..) trivial
        · exact hidle (.deliver ..) trivial
      · intro connection hconnect
        exact ((hact connection hconnect).mono (List.subset_append_left _ _)).mono (List.subset_append_left _ _)
  cases event with
  | connect connection =>
    refine wp_ask (hconnect connection rfl) fun _ _ => hdeliver (List.subset_append_left _ _) ?_ ?_
    · exact (Extends.refl tr).snoc (.inr ⟨actor, connection.id, rfl⟩)
    · exact fun _ _ => ⟨actor, connection.id, by simp⟩
  | message connectionId message => exact hdeliver (List.Subset.refl tr) (.refl tr) fun _ h => by cases h
  | disconnect connection code reason wasClean =>
    exact hdeliver (List.Subset.refl tr) (.refl tr) fun _ h => by cases h

theorem wp_dispatch (actor : ActorKey) (principal : ActorPrincipal) (event : ActorSocketEvent)
    (triggerMessage : Bool) (hgood : ∀ tr e, good tr e → Sound e)
    (hevent : ∀ tr' invocation, Extends Plain tr tr' → Prepared event invocation.event → EventOk tr' invocation) :
    wp (traceEnv t good) (dispatch actor principal event triggerMessage)
      (fun done tr' => ∃ invocation, Dispatched event tr tr' done invocation) tr := by
  refine wp_seq (wp_prepareEvent actor event hgood) fun r tr₀ h₀ => ?_
  obtain ⟨event', connections⟩ := r
  obtain ⟨h₀, hprep⟩ := h₀
  refine wp_ask trivial fun requestId _ => ?_
  have h₁ := h₀.snoc (e := ⟨.newUuid, requestId⟩) trivial
  have hok := hevent _ ⟨requestId, actor, event', connections⟩ h₁ hprep
  refine wp_seq (wp_dispatchAttempts principal 2 (by simp [Drew]) hok) fun r tr₂ h₂ => ?_
  cases r with
  | error e =>
    refine ⟨_, h₂.dispatched h₁ hprep (.refl tr₂) ?_ ?_ ?_⟩
    · exact fun effects hr => by cases hr
    · exact fun hd => by cases hd
    · exact fun hd => by cases hd
  | ok effects =>
    dsimp only
    cases hv : validateSocketEffects effects with
    | error e =>
      refine ⟨_, h₂.dispatched h₁ hprep (.refl tr₂) ?_ ?_ ?_⟩
      · intro effects' hr
        cases hr
        rw [hv]
        simp
      · exact fun hd => by cases hd
      · exact fun hd => by cases hd
    | ok u =>
      refine wp_seq (wp_apply actor effects) fun _ tr₃ h₃ => ?_
      have hdone : CompletedIn tr₃ ⟨requestId, actor, event', connections⟩ effects :=
        ((h₂.outcome effects).mpr (.inr rfl)).mono h₃.subset
      have hok₃ := hok.again (h₂.sends.mono fun _ => Sending.dispatching)
      refine wp_mono (wp_settle actor event' triggerMessage ?_ ?_) fun done tr₄ h₄ => ?_
      · rintro connection rfl
        exact ⟨hok₃.1.mono h₃.subset, _, connection, effects, rfl, rfl, hdone, hv⟩
      · rintro id message rfl
        exact ⟨hok₃.1.mono h₃.subset, hok₃.2.mono h₃.subset⟩
      · obtain ⟨rfl, h₄, hact⟩ := h₄
        refine ⟨_, h₂.dispatched h₁ hprep ((h₃.mono fun _ => Or.inl).trans h₄) ?_ (fun _ => ⟨effects, rfl⟩) fun _ => hact⟩
        intro effects' hr
        cases hr
        simp [hv]

/-! ### The stages of a connection -/

/-- A connection that was opened and has not said goodbye. -/
structure Serving (tr : List GatewayEvent) (connection : ActorSocketConnection) : Prop where
  drew : Drew tr connection.id
  connected : Connected tr connection.id
  activated : Activated tr
  present : ∀ invocation, SentIn tr invocation → ¬ invocation.IsDisconnect

/-- What is known when `stage` is over and the next one is to begin. -/
def StageEnd (stage : Stage) (tr : List GatewayEvent) : Stage → Prop
  | .opening => False
  | .serving connection => Serving tr connection
  | .leaving connection _ => Serving tr connection
  | .ended =>
    match stage with
    | .opening => ∀ id, ¬ Connected tr id
    | .leaving .. => True
    | _ => False

theorem SentIn.of_snoc {op : GatewayOp} {r : op.Res} (h : SentIn (tr ++ [⟨op, r⟩]) invocation) :
    SentIn tr invocation ∨ ∃ target, op = .sendSocketEvent target invocation := by
  obtain ⟨target, r', hm⟩ := h
  rcases List.mem_append.mp hm with hm | hm
  · exact .inl ⟨target, r', hm⟩
  · cases List.mem_singleton.mp hm
    exact .inr ⟨target, rfl⟩

theorem Serving.snoc {connection : ActorSocketConnection} (h : Serving tr connection) (op : GatewayOp)
    {r : op.Res} (hop : ∀ target invocation, op ≠ .sendSocketEvent target invocation) :
    Serving (tr ++ [⟨op, r⟩]) connection := by
  have hsub : tr ⊆ tr ++ [⟨op, r⟩] := List.subset_append_left _ _
  refine ⟨h.drew.mono hsub, h.connected.mono hsub, h.activated.mono hsub, fun invocation hs => ?_⟩
  rcases hs.of_snoc with hs | ⟨target, heq⟩
  · exact h.present invocation hs
  · exact (hop target invocation heq).elim

theorem Dispatched.sentIn {event : ActorSocketEvent} {done : Bool} {invocation' : ActorSocketInvocation}
    (h : Dispatched event tr tr' done invocation) (hs : SentIn tr' invocation') :
    SentIn tr invocation' ∨ invocation' = invocation := by
  obtain ⟨target, r, hm⟩ := hs
  rcases h.calls.new hm with hm | (hidle | ⟨target', heq⟩) | ⟨actor, id, heq⟩
  · exact .inl ⟨target, r, hm⟩
  · exact hidle.elim
  · cases heq
    exact .inr rfl
  · cases heq

theorem wp_closeSocket {Q : Unit → List GatewayEvent → Prop} (code : ℕ) (reason : String)
    (h : ∀ r, Q () (tr ++ [⟨.socketSend (.close (some (code, reason))), r⟩])) :
    wp (traceEnv t good) (closeSocket code reason) Q tr := wp_ask trivial fun r _ => h r

/-- Before its first event a connection has only drawn its identifier. -/
theorem not_sentIn_of_idle (h : Extends Idle [] tr) : ¬ SentIn tr invocation := by
  rintro ⟨target, r, hm⟩
  rcases h.new hm with hm | hidle
  · cases hm
  · exact hidle

theorem not_heard_of_idle (h : Extends Idle [] tr) : ¬ Heard tr := by
  rintro ⟨frame, hm, -⟩
  rcases h.new hm with hm | hidle
  · cases hm
  · exact hidle

theorem not_activated_of_idle (h : Extends Idle [] tr) : ¬ Activated tr := by
  rintro ⟨actor, id, hm⟩
  rcases h.new hm with hm | hidle
  · cases hm
  · exact hidle

theorem not_connected_of_sentIn (h : ∀ invocation, ¬ SentIn tr invocation) : ¬ Connected tr id := by
  rintro ⟨invocation, connection, effects, -, -, ⟨target, result, hm⟩, -⟩
  exact h invocation ⟨target, _, hm⟩

theorem wp_openConnection (serde : SerdeJson) (access : SocketAccess) (hgood : ∀ tr e, good tr e → Sound e) :
    wp (traceEnv t good) (openConnection serde t access) (fun stage tr' => StageEnd .opening tr' stage) [] := by
  have hreceive : Calls Plain (initialMetadata serde access) := by
    unfold initialMetadata
    cases access.metadata with
    | some metadata => trivial
    | none => exact ⟨trivial, fun _ => trivial⟩
  refine wp_seq (wp_plain hreceive) fun metadata tr₀ h₀ => ?_
  have hidle₀ : Extends Idle [] tr₀ := h₀.mono fun _ => Plain.idle
  have hclosed : ∀ {tr'}, Extends Idle [] tr' → StageEnd .opening tr' .ended :=
    fun h _ => not_connected_of_sentIn fun _ => not_sentIn_of_idle h
  cases metadata with
  | none => exact wp_seq (wp_closeSocket 1002 _ fun r => hidle₀.snoc (e := ⟨.socketSend _, r⟩) trivial) fun _ _ h => hclosed h
  | some metadata =>
    refine wp_ask trivial fun id _ => wp_ask ⟨rfl, by simp [Drew]⟩ fun inserted _ => ?_
    have hidle : Extends Idle [] (tr₀ ++ [⟨.newUuid, id⟩] ++
        [⟨.insert access.actor ⟨id, metadata, []⟩ t access.triggerId, inserted⟩]) :=
      (hidle₀.snoc (e := ⟨.newUuid, id⟩) trivial).snoc trivial
    have hdrew : Drew (tr₀ ++ [⟨.newUuid, id⟩] ++
        [⟨.insert access.actor ⟨id, metadata, []⟩ t access.triggerId, inserted⟩]) id := by simp [Drew]
    generalize tr₀ ++ [⟨.newUuid, id⟩] ++ [⟨.insert access.actor ⟨id, metadata, []⟩ t access.triggerId, inserted⟩] = tr₁
      at hidle hdrew ⊢
    cases inserted with
    | false => exact wp_seq (wp_closeSocket 1013 _ fun r => hidle.snoc (e := ⟨.socketSend _, r⟩) trivial) fun _ _ h => hclosed h
    | true =>
      refine wp_seq (wp_dispatch access.actor access.principal _ false hgood ?_) fun done tr₂ h₂ => ?_
      · intro tr' invocation hext hprep
        have hidle' := hidle.trans (hext.mono fun _ => Plain.idle)
        change invocation.event = .connect ⟨id, metadata, []⟩ at hprep
        unfold EventOk
        rw [hprep]
        refine ⟨hdrew.mono hext.subset, not_heard_of_idle hidle', not_activated_of_idle hidle', fun _ hs => ?_⟩
        exact (not_sentIn_of_idle hidle' hs).elim
      · obtain ⟨invocation, hd⟩ := h₂
        have hevent : invocation.event = .connect ⟨id, metadata, []⟩ := hd.event
        have hsent : ∀ {invocation'}, SentIn tr₂ invocation' → invocation' = invocation := fun hs =>
          (hd.sentIn hs).resolve_left (not_sentIn_of_idle hidle)
        cases done with
        | true =>
          obtain ⟨hconn, hact⟩ := hd.connected rfl _ hevent
          refine ⟨hdrew.mono hd.calls.subset, hconn, hact, ?_⟩
          rintro invocation' hs ⟨connection, code, reason, wasClean, hdisconnect⟩
          rw [hsent hs, hevent] at hdisconnect
          cases hdisconnect
        | false =>
          refine wp_ask trivial fun removed _ => wp_seq (wp_closeSocket 1011 _ fun r => ?_) fun _ _ h => h
          rintro id' ⟨invocation', connection, effects, -, -, hc, hvalid⟩
          have hc₂ : CompletedIn tr₂ invocation' effects := by
            rcases completedIn_snoc.mp hc with hc | ⟨target, result, heq⟩
            · rcases completedIn_snoc.mp hc with hc | ⟨target, result, heq⟩
              · exact hc
              · cases heq
            · cases heq
          obtain rfl := hsent (by obtain ⟨target, result, hm⟩ := hc₂; exact ⟨target, _, hm⟩)
          -- a failed dispatch had no answer whose effects could be applied
          rcases hd.outcome effects hc₂ with hold | hiff
          · obtain ⟨target, result, hm⟩ := hold
            exact not_sentIn_of_idle hidle ⟨target, _, hm⟩
          · cases hiff.mpr hvalid

theorem wp_onMessage {connection : ActorSocketConnection} (access : SocketAccess)
    (message : ActorSocketMessage) (hgood : ∀ tr e, good tr e → Sound e) (hs : Serving tr connection)
    (hheard : Heard tr) (stage : Stage) :
    wp (traceEnv t good) (onMessage access connection message) (fun stage' tr' => StageEnd stage tr' stage') tr := by
  refine wp_seq (wp_dispatch access.actor access.principal _ true hgood ?_) fun done tr' hd => ?_
  · intro tr' invocation hext hprep
    change invocation.event = .message connection.id message at hprep
    unfold EventOk
    rw [hprep]
    exact ⟨hs.drew.mono hext.subset, hheard.mono hext.subset⟩
  · obtain ⟨invocation, hd⟩ := hd
    have hserving : Serving tr' connection := by
      refine ⟨hs.drew.mono hd.calls.subset, hs.connected.mono hd.calls.subset,
        hs.activated.mono hd.calls.subset, ?_⟩
      intro invocation' hsent hdisconnect
      rcases hd.sentIn hsent with hsent | rfl
      · exact hs.present invocation' hsent hdisconnect
      · obtain ⟨_, _, _, _, heq⟩ := hdisconnect
        cases heq.symm.trans (hd.event : invocation'.event = .message connection.id message)
    cases done with
    | true => exact hserving
    | false => exact hserving

theorem wp_serve {connection : ActorSocketConnection} (access : SocketAccess)
    (hgood : ∀ tr e, good tr e → Sound e) (hs : Serving tr connection) :
    wp (traceEnv t good) (serve access connection)
      (fun stage tr' => StageEnd (.serving connection) tr' stage) tr := by
  have hs' : ∀ selected, Serving (tr ++ [⟨.select, selected⟩]) connection :=
    fun _ => hs.snoc .select fun _ _ h => by cases h
  have hsent : ∀ selected frame r, Serving (tr ++ [⟨.select, selected⟩] ++ [⟨.socketSend frame, r⟩]) connection :=
    fun selected frame _ => (hs' selected).snoc (.socketSend frame) fun _ _ h => by cases h
  refine wp_ask trivial fun selected _ => ?_
  match selected with
  | .inbound (some (.ok (.text data))) => exact wp_onMessage access _ hgood (hs' _) ⟨.text data, by simp, rfl⟩ _
  | .inbound (some (.ok (.binary data))) => exact wp_onMessage access _ hgood (hs' _) ⟨.binary data, by simp, rfl⟩ _
  | .inbound (some (.ok (.ping data))) =>
    refine wp_ask trivial fun r _ => ?_
    cases r with
    | ok u => exact hsent _ _ _
    | error e => exact hsent _ _ _
  | .inbound (some (.ok (.pong data))) => exact hs' _
  | .inbound (some (.ok (.close none))) => exact hs' _
  | .inbound (some (.ok (.close (some (code, reason))))) => exact hs' _
  | .inbound (some (.error e)) => exact hs' _
  | .inbound none => exact hs' _
  | .outbound (some (.message message)) =>
    dsimp only
    cases websocketMessage message with
    | none => exact hs' _
    | some frame =>
      refine wp_ask trivial fun r _ => ?_
      cases r with
      | ok u => exact hsent _ _ _
      | error e => exact hsent _ _ _
  | .outbound (some (.close code reason)) =>
    exact wp_seq (wp_closeSocket code reason fun r => hsent _ _ _) fun _ _ h => h
  | .outbound none => exact hs' _

theorem wp_leave {connection : ActorSocketConnection} (access : SocketAccess) (disconnect : Disconnect)
    (hgood : ∀ tr e, good tr e → Sound e) (hs : Serving tr connection) :
    wp (traceEnv t good) (leave access connection disconnect)
      (fun stage tr' => StageEnd (.leaving connection disconnect) tr' stage) tr := by
  refine wp_seq (wp_dispatch access.actor access.principal _ false hgood ?_) fun done tr' _ => ?_
  · rintro tr' invocation hext ⟨connection', hid, hevent⟩
    unfold EventOk
    rw [hevent]
    dsimp only
    rw [hid]
    refine ⟨hs.drew.mono hext.subset, hs.connected.mono hext.subset, fun invocation' hsent hdisconnect => ?_⟩
    obtain ⟨target, r, hm⟩ := hsent
    rcases hext.new hm with hm | hplain
    · exact (hs.present invocation' ⟨target, r, hm⟩ hdisconnect).elim
    · exact hplain.elim
  · exact wp_ask trivial fun _ _ => trivial

/-- Every stage keeps to its calls and ends as it should. -/
theorem wp_runConnection {stage : Stage} (serde : SerdeJson) (access : SocketAccess)
    (hgood : ∀ tr e, good tr e → Sound e) (hne : stage ≠ .ended) (hopen : stage = .opening → tr = [])
    (hserving : ∀ connection, stage = .serving connection → Serving tr connection)
    (hleaving : ∀ connection disconnect, stage = .leaving connection disconnect → Serving tr connection) :
    wp (traceEnv t good) (runConnection serde t access stage) (fun stage' tr' => StageEnd stage tr' stage') tr := by
  cases stage with
  | opening => rw [hopen rfl]; exact wp_openConnection serde access hgood
  | serving connection => exact wp_serve access hgood (hserving connection rfl)
  | leaving connection disconnect => exact wp_leave access disconnect hgood (hleaving connection disconnect rfl)
  | ended => exact (hne rfl).elim

end Gateway

end LDO
