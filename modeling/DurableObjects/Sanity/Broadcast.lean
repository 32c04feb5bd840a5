import DurableObjects.Sanity.TaskRules

/-! Broadcasts. A task that applies a broadcast reads the recipients and then sends to each
of them, in order and once; it does nothing else in between, and it cannot be dropped
there. -/

namespace LDO

open Prog

namespace Gateway

variable {tr tr' : List GatewayEvent} {α β : Type} {handed : List GatewayEvent → ActorKey → List ActorSocketEffect → Prop}

/-- The sends of a message to `channels`. -/
def sendsOf (message : ActorSocketMessage) (channels : List ℕ) : List GatewayEvent :=
  channels.map fun channel => ⟨.sendBroadcast channel (.message message), ()⟩

/-- The task was told to broadcast. -/
def Told (handed : List GatewayEvent → ActorKey → List ActorSocketEffect → Prop) (tr : List GatewayEvent)
    (actor : ActorKey) (message : ActorSocketMessage) (exceptConnectionIds tags : List String) : Prop :=
  ∃ effects, handed tr actor effects ∧ .broadcast message exceptConnectionIds tags ∈ effects

/-- Every broadcast has reached all its recipients. -/
def Whole (handed : List GatewayEvent → ActorKey → List ActorSocketEffect → Prop)
    (tr : List GatewayEvent) : Prop :=
  ∀ before actor exceptConnectionIds tags recipients after,
    tr = before ++ ⟨.recipients actor exceptConnectionIds tags, recipients⟩ :: after →
    ∃ message, Told handed before actor message exceptConnectionIds tags ∧ sendsOf message recipients <+: after

/-- A task in the middle of a broadcast: `rest` is still owed. -/
def Owes (handed : List GatewayEvent → ActorKey → List ActorSocketEffect → Prop) (tr : List GatewayEvent)
    (message : ActorSocketMessage) (rest : List ℕ) : Prop :=
  ∃ before actor exceptConnectionIds tags done, Whole handed before ∧
    Told handed before actor message exceptConnectionIds tags ∧
    tr = before ++ ⟨.recipients actor exceptConnectionIds tags, done ++ rest⟩ :: sendsOf message done

/-- When a task may make a call. -/
def BroadcastOk (handed : List GatewayEvent → ActorKey → List ActorSocketEffect → Prop)
    (tr : List GatewayEvent) :
    GatewayOp → Prop
  | .sendBroadcast channel message => ∃ m rest, message = .message m ∧ Owes handed tr m (channel :: rest)
  | .recipients actor exceptConnectionIds tags => Whole handed tr ∧
      ∃ message, Told handed tr actor message exceptConnectionIds tags
  | _ => Whole handed tr

abbrev broadcastEnv (handed : List GatewayEvent → ActorKey → List ActorSocketEffect → Prop) :
    Env GatewayOp GatewayOp.Res (List GatewayEvent) := eventEnv (BroadcastOk handed) fun _ _ => True

/-- A call that is no part of a broadcast. -/
def Apart : GatewayOp → Prop
  | .recipients .. => False
  | .sendBroadcast .. => False
  | _ => True

theorem whole_nil : Whole handed [] := by
  intro before actor exceptConnectionIds tags recipients after heq
  simp at heq

theorem Apart.broadcastOk {op : GatewayOp} (h : Apart op) (hw : Whole handed tr) :
    BroadcastOk handed tr op := by
  cases op <;> first | exact hw | exact h.elim

theorem Whole.snoc {e : GatewayEvent} (h : Whole handed tr) (he : Apart e.op) : Whole handed (tr ++ [e]) := by
  intro before actor exceptConnectionIds tags recipients after heq
  rcases List.eq_nil_or_concat after with rfl | ⟨after', e', rfl⟩
  · obtain ⟨-, heq'⟩ := List.append_inj' heq rfl
    cases List.singleton_inj.mp heq'
    exact he.elim
  · rw [List.concat_eq_append, ← List.cons_append, ← List.append_assoc] at heq
    obtain ⟨message, htold, hsent⟩ := h before actor exceptConnectionIds tags recipients after' (List.append_inj' heq rfl).1
    rw [List.concat_eq_append]
    exact ⟨message, htold, hsent.trans (List.prefix_append _ _)⟩

theorem Whole.extends (h : Whole handed tr) (hext : Extends Apart tr tr') : Whole handed tr' := by
  obtain ⟨evs, rfl, hevs⟩ := hext
  induction evs generalizing tr with
  | nil => simpa using h
  | cons e evs ih =>
    have hstep := ih (h.snoc (hevs e (by simp))) fun e' he' => hevs e' (by simp [he'])
    simpa using hstep

/-- In the middle of a broadcast, the earlier ones have reached all their recipients. -/
theorem Owes.split {message : ActorSocketMessage} {rest : List ℕ} (h : Owes handed tr message rest)
    {before after : List GatewayEvent} {actor : ActorKey} {exceptConnectionIds tags : List String}
    {recipients : List ℕ}
    (heq : tr = before ++ ⟨.recipients actor exceptConnectionIds tags, recipients⟩ :: after) :
    ∃ message', Told handed before actor message' exceptConnectionIds tags ∧
    (sendsOf message' recipients <+: after ∨
      ∃ done, recipients = done ++ rest ∧ after = sendsOf message' done) := by
  obtain ⟨before', actor', exceptConnectionIds', tags', done, hw, htold, rfl⟩ := h
  rcases List.append_eq_append_iff.mp heq with ⟨middle, rfl, hsends⟩ | ⟨middle, rfl, hsends⟩
  · cases middle with
    | nil =>
      obtain ⟨hhead, rfl⟩ := List.cons.inj hsends
      cases hhead
      rw [List.append_nil]
      exact ⟨message, htold, .inr ⟨done, rfl, rfl⟩⟩
    | cons e middle =>
      -- among the sends there is no other read of recipients
      obtain ⟨-, hsends⟩ := List.cons.inj hsends
      have hm : (⟨.recipients actor exceptConnectionIds tags, recipients⟩ : GatewayEvent) ∈
          sendsOf message done := by
        rw [hsends]
        simp
      obtain ⟨channel, -, heq'⟩ := List.mem_map.mp hm
      cases heq'
  · cases middle with
    | nil =>
      obtain ⟨hhead, rfl⟩ := List.cons.inj hsends
      cases hhead
      rw [List.append_nil] at htold
      exact ⟨message, htold, .inr ⟨done, rfl, rfl⟩⟩
    | cons e middle =>
      obtain ⟨rfl, rfl⟩ := List.cons.inj hsends
      obtain ⟨message', htold', hsent⟩ := hw before actor exceptConnectionIds tags recipients middle rfl
      exact ⟨message', htold', .inl (hsent.trans (List.prefix_append _ _))⟩

/-- When nothing is owed any more, the broadcast has reached all its recipients. -/
theorem Owes.whole {message : ActorSocketMessage} (h : Owes handed tr message []) : Whole handed tr := by
  intro before actor exceptConnectionIds tags recipients after heq
  obtain ⟨message', htold, hsent | ⟨done, rfl, rfl⟩⟩ := h.split heq
  · exact ⟨message', htold, hsent⟩
  · rw [List.append_nil]
    exact ⟨message', htold, List.prefix_refl _⟩

/-! ### The programs of the gateway -/

/-- A program that starts and ends between broadcasts. -/
def Keeps (handed : List GatewayEvent → ActorKey → List ActorSocketEffect → Prop) (p : GatewayM α) : Prop :=
  ∀ tr, Whole handed tr → wp (broadcastEnv handed) p (fun _ tr' => Whole handed tr') tr

theorem Keeps.bind {p : GatewayM α} {f : α → GatewayM β} (hp : Keeps handed p)
    (hf : ∀ a, Keeps handed (f a)) :
    Keeps handed (p >>= f) :=
  fun tr h => wp_seq (hp tr h) fun a tr' h' => hf a tr' h'

theorem Keeps.calls {p : GatewayM α} (hp : Calls Apart p) : Keeps handed p := fun _ h =>
  wp_mono (wp_calls (fun _ _ hext hop => hop.broadcastOk (h.extends hext)) hp) fun _ _ hext => h.extends hext

theorem Keeps.ask {op : GatewayOp} (hop : Apart op) : Keeps handed (Gateway.ask op) := .calls (.perform hop)

theorem wp_sendToAll_owes {message : ActorSocketMessage} {channels : List ℕ}
    (h : Owes handed tr message channels) :
    wp (broadcastEnv handed) (sendToAll (.message message) channels) (fun _ tr' => tr <+: tr' ∧ Whole handed tr') tr := by
  induction channels generalizing tr with
  | nil => exact ⟨List.prefix_refl _, h.whole⟩
  | cons channel channels ih =>
    refine wp_ask ⟨message, channels, rfl, h⟩ fun _ _ => ?_
    obtain ⟨before, actor, exceptConnectionIds, tags, done, hw, htold, rfl⟩ := h
    refine wp_mono (ih ⟨before, actor, exceptConnectionIds, tags, done ++ [channel], hw, htold, ?_⟩) fun _ tr' h' => ?_
    · simp [sendsOf]
    · exact ⟨(List.prefix_append _ _).trans h'.1, h'.2⟩

/-- The effects a task was handed can be applied. -/
theorem wp_apply_whole {actor : ActorKey} {effects effects' : List ActorSocketEffect}
    (hmono : ∀ {tr tr' actor effects}, tr <+: tr' → handed tr actor effects → handed tr' actor effects)
    (hsub : effects' ⊆ effects) (hh : handed tr actor effects) (h : Whole handed tr) :
    wp (broadcastEnv handed) (apply actor effects') (fun _ tr' => Whole handed tr') tr := by
  induction effects' generalizing tr with
  | nil => exact h
  | cons effect effects' ih =>
    have hsub' : effects' ⊆ effects := fun _ he => hsub (List.mem_cons_of_mem _ he)
    -- what is known after one effect
    suffices hone : wp (broadcastEnv handed) (applyOne actor effect) (fun _ tr' => tr <+: tr' ∧ Whole handed tr') tr from
      wp_seq hone fun _ tr' h' => ih hsub' (hmono h'.1 hh) h'.2
    have hcalls : ∀ {p : GatewayM Unit}, Calls Apart p →
        wp (broadcastEnv handed) p (fun _ tr' => tr <+: tr' ∧ Whole handed tr') tr := by
      intro p hp
      refine wp_mono (wp_calls (fun _ _ hext hop => hop.broadcastOk (h.extends hext)) hp) fun _ tr' hext => ?_
      obtain ⟨evs, rfl, -⟩ := id hext
      exact ⟨List.prefix_append _ _, h.extends hext⟩
    have hsend : ∀ (connectionId : String) (message : OutboundMessage), Calls Apart (do
        let channel ← Gateway.ask (.sender actor connectionId)
        sendTo channel message) := by
      refine fun connectionId message => ⟨trivial, fun channel => ?_⟩
      cases channel with
      | none => trivial
      | some channel => exact ⟨trivial, fun _ => trivial⟩
    cases effect with
    | broadcast message exceptConnectionIds tags =>
      have htold : Told handed tr actor message exceptConnectionIds tags := ⟨effects, hh, hsub (by simp)⟩
      refine wp_ask ⟨h, message, htold⟩ fun recipients _ => ?_
      have howes : Owes handed (tr ++ [⟨.recipients actor exceptConnectionIds tags, recipients⟩]) message recipients :=
        ⟨tr, actor, exceptConnectionIds, tags, [], h, htold, by simp [sendsOf]⟩
      exact wp_mono (wp_sendToAll_owes howes) fun _ tr' h' => ⟨(List.prefix_append _ _).trans h'.1, h'.2⟩
    | setMetadata connectionId metadata => exact hcalls ⟨trivial, fun _ => trivial⟩
    | setTags connectionId tags => exact hcalls ⟨trivial, fun _ => trivial⟩
    | send connectionId message => exact hcalls (hsend _ _)
    | close connectionId code reason => exact hcalls (hsend _ _)
    | reject connectionId code reason => exact hcalls (hsend _ _)

/-- What a connection is handed: the effects that its events were answered with. -/
def Answered (tr : List GatewayEvent) (actor : ActorKey) (effects : List ActorSocketEffect) : Prop :=
  ∃ invocation, invocation.actor = actor ∧ CompletedIn tr invocation effects

theorem Answered.mono {actor : ActorKey} {effects : List ActorSocketEffect} (hp : tr <+: tr')
    (h : Answered tr actor effects) : Answered tr' actor effects := by
  obtain ⟨invocation, hactor, hc⟩ := h
  exact ⟨invocation, hactor, hc.mono hp.subset⟩

theorem Sending.apart {invocation : ActorSocketInvocation} {op : GatewayOp}
    (h : Sending invocation op) : Apart op := by
  rcases h with h | ⟨target, rfl⟩
  · cases op <;> trivial
  · trivial

theorem keeps_prepareEvent (actor : ActorKey) (event : ActorSocketEvent) :
    Keeps handed (prepareEvent actor event) := by
  refine .calls ?_
  cases event with
  | connect connection => exact ⟨trivial, fun _ => trivial⟩
  | message connectionId message => exact ⟨trivial, fun _ => trivial⟩
  | disconnect connection code reason wasClean => exact ⟨trivial, fun _ => ⟨trivial, fun _ => trivial⟩⟩

theorem keeps_dispatch (actor : ActorKey) (principal : ActorPrincipal) (event : ActorSocketEvent)
    (triggerMessage : Bool) :
    Keeps Answered (dispatch actor principal event triggerMessage) := by
  refine (keeps_prepareEvent actor event).bind fun prepared => ?_
  obtain ⟨event', connections⟩ := prepared
  refine Keeps.bind (Keeps.ask (by trivial)) fun requestId tr h => ?_
  refine wp_seq (wp_attempts principal 2 fun tr' op hext hop =>
    hop.apart.broadcastOk (h.extends (hext.sends.mono fun _ => Sending.apart))) fun r tr₁ h₁ => ?_
  have hw₁ : Whole Answered tr₁ := h.extends (h₁.sends.mono fun _ => Sending.apart)
  cases r with
  | error e => exact hw₁
  | ok effects =>
    dsimp only
    cases validateSocketEffects effects with
    | error e => exact hw₁
    | ok u =>
      have hanswered : Answered tr₁ actor effects := ⟨_, rfl, (h₁.outcome effects).mpr (.inr rfl)⟩
      refine wp_seq (wp_apply_whole Answered.mono (List.Subset.refl _) hanswered hw₁) fun _ tr₂ h₂ => ?_
      have hdeliver : ∀ event'' : ActorSocketEvent, Calls Apart (do
          if triggerMessage then do
            let triggerId ← Gateway.ask (.triggerId actor (messageConnectionId event''))
            Gateway.ask (.deliver actor triggerId event'')
          Pure.pure true : GatewayM Bool) := by
        intro event''
        cases triggerMessage with
        | false => trivial
        | true => exact ⟨trivial, fun _ => ⟨trivial, fun _ => trivial⟩⟩
      cases event' with
      | connect connection => exact Keeps.bind (Keeps.ask (by trivial)) (fun _ => Keeps.calls (hdeliver _)) tr₂ h₂
      | message connectionId message => exact Keeps.calls (hdeliver _) tr₂ h₂
      | disconnect connection code reason wasClean => exact Keeps.calls (hdeliver _) tr₂ h₂

theorem apart_harmless : Harmless (BroadcastOk handed) (Whole handed) Apart :=
  ⟨fun hw hop => hop.broadcastOk hw, fun hw he => hw.snoc he⟩

theorem keeps_runConnection (serde : SerdeJson) (channel : ℕ) (access : SocketAccess) (stage : Stage) :
    Keeps Answered (runConnection serde channel access stage) :=
  maintains_runConnection (apart_harmless.mono fun op _ => by cases op <;> trivial)
    keeps_dispatch serde channel access stage

end Gateway

/-! ### Runs -/

open Gateway

variable {serde : SerdeJson} {s s' : GatewayState} {t : ℕ}

/-- What a task is handed: a connection the answers to its events, a request its effects. -/
def GatewayTask.handed (task : GatewayTask) (tr : List GatewayEvent) (actor : ActorKey)
    (effects : List ActorSocketEffect) : Prop :=
  match task.request with
  | none => Answered tr actor effects
  | some request => (actor, effects) = request

/-- The rules of broadcasts. -/
def broadcastRules : TaskRules where
  ok
    | none => BroadcastOk Answered
    | some request => BroadcastOk fun _ actor effects => (actor, effects) = request
  rests
    | none => Whole Answered
    | some request => Whole fun _ actor effects => (actor, effects) = request

theorem broadcastRules_ok (task : GatewayTask) :
    broadcastRules.ok task.request = BroadcastOk task.handed := by
  cases task <;> rfl

theorem broadcastRules_rests (task : GatewayTask) :
    broadcastRules.rests task.request = Whole task.handed := by
  cases task <;> rfl

theorem broadcastRules_kept : broadcastRules.Kept serde := by
  refine ⟨fun request => ?_, keeps_runConnection serde, fun actor effects => ?_,
    fun request p tr hawaits hwp => ?_⟩
  · cases request <;> exact whole_nil
  · exact wp_apply_whole (fun _ hh => hh) (List.Subset.refl _) rfl whole_nil
  · cases p with
    | ret stage => exact hwp
    | call op next =>
      have hok := hwp.1
      cases op with
      | sendBroadcast channel message => exact hawaits.elim
      | recipients => exact hok.1
      | _ => exact hok

/-- Between its sends a task has no broadcast under way. -/
theorem whole_of_reachable (hs : (gatewaySystem serde).Reachable s) {task : GatewayTask} {p : GatewayM Stage}
    (ht : s.tasks t = some (task, p)) (hp : ∀ channel message next, p ≠ .call (.sendBroadcast channel message) next) :
    Whole task.handed (s.world.trace t) := by
  have hwp := (broadcastRules_kept.reachable hs).tasks t task p ht
  rw [broadcastRules_rests] at hwp
  cases p with
  | ret stage => exact hwp
  | call op next =>
    have hok : broadcastRules.ok task.request (s.world.trace t) op := hwp.1
    rw [broadcastRules_ok] at hok
    cases op with
    | sendBroadcast channel message => exact (hp channel message next rfl).elim
    | recipients => exact hok.1
    | _ => exact hok

theorem broadcastOk_of_reachable (hs : (gatewaySystem serde).Reachable s) {task : GatewayTask}
    {p : GatewayM Stage} (ht : s.tasks t = some (task, p)) {before later : List GatewayEvent}
    {e : GatewayEvent} (heq : s.world.trace t = before ++ e :: later) :
    BroadcastOk task.handed before e.op := by
  rw [← broadcastRules_ok]
  exact (broadcastRules_kept.reachable hs).history t task p ht before e later heq

end LDO
