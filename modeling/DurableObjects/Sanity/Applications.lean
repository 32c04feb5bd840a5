import DurableObjects.Sanity.TaskRules

/-! Turns at the gateway. The effects of an event are applied by the task that sent it,
all of them and in order, before it sends another event. -/

namespace LDO

open Prog

namespace Gateway

variable {tr tr' : List GatewayEvent} {α : Type} {ok : List GatewayEvent → GatewayOp → Prop}
  {good : List GatewayEvent → GatewayEvent → Prop} {P : GatewayOp → Prop}

/-- Any calls, any answers. -/
abbrev anyEnv : Env GatewayOp GatewayOp.Res (List GatewayEvent) := eventEnv (fun _ _ => True) fun _ _ => True

/-- The calls `evs` apply `effects`, from the first to the last. -/
def Performed (actor : ActorKey) (effects : List ActorSocketEffect) (evs : List GatewayEvent) : Prop :=
  Reaches anyEnv (apply actor effects) [] (.ret ()) evs

/-- Every valid answer to an event was followed by the application of its effects. -/
def AllApplied (tr : List GatewayEvent) : Prop :=
  ∀ before target invocation result effects after,
    tr = before ++ ⟨.sendSocketEvent target invocation, .ok (.completed result effects)⟩ :: after →
    validateSocketEffects effects = .ok () → ∃ evs, evs <+: after ∧ Performed invocation.actor effects evs

/-- An event is sent only after the effects of the earlier ones have been applied. -/
def SendOk (tr : List GatewayEvent) : GatewayOp → Prop
  | .sendSocketEvent .. => AllApplied tr
  | _ => True

/-- A call that sends no event. -/
def Quiet : GatewayOp → Prop
  | .sendSocketEvent .. => False
  | _ => True

theorem reaches_after {p q : GatewayM α} (h : Reaches anyEnv p tr q tr') (before : List GatewayEvent) :
    Reaches anyEnv p (before ++ tr) q (before ++ tr') := by
  induction h with
  | refl p tr => exact .refl _ _
  | call hs _ ih =>
    obtain ⟨-, rfl⟩ := hs
    exact .call ⟨trivial, (List.append_assoc _ _ _).symm⟩ ih

/-- The calls that a program makes are a run of it. -/
theorem wp_performs {p : GatewayM α} (hok : ∀ tr op, P op → ok tr op) (hp : Calls P p) :
    wp (eventEnv ok good) p (fun a tr' => ∃ evs, tr' = tr ++ evs ∧ (∀ e ∈ evs, P e.op) ∧
      Reaches anyEnv p [] (.ret a) evs) tr := by
  induction p generalizing tr with
  | ret a => exact ⟨[], by simp, by simp, .refl _ _⟩
  | call op next ih =>
    refine wp_ask (hok tr op hp.1) fun r _ => wp_mono (ih r (hp.2 r)) fun a tr' h => ?_
    obtain ⟨evs, rfl, hevs, hreaches⟩ := h
    refine ⟨⟨op, r⟩ :: evs, by simp, ?_, .call ⟨trivial, rfl⟩ (reaches_after hreaches [⟨op, r⟩])⟩
    intro e he
    rcases List.mem_cons.mp he with rfl | he
    · exact hp.1
    · exact hevs e he

theorem calls_of_reaches {p q : GatewayM α} (h : Reaches anyEnv p tr q tr') (hp : Calls P p) :
    Extends P tr tr' := by
  induction h with
  | refl p tr => exact .refl tr
  | call hs _ ih =>
    obtain ⟨-, rfl⟩ := hs
    exact ((Extends.refl _).snoc hp.1).trans (ih (hp.2 _))

theorem Performed.applying {actor : ActorKey} {effects : List ActorSocketEffect} {evs : List GatewayEvent}
    (h : Performed actor effects evs) {e : GatewayEvent} (he : e ∈ evs) : Applying e.op :=
  ((calls_of_reaches h (calls_apply actor effects)).new he).resolve_left (by simp)

theorem Applying.quiet {op : GatewayOp} (h : Applying op) : Quiet op := by
  cases op <;> trivial

theorem Quiet.sendOk {op : GatewayOp} (h : Quiet op) : SendOk tr op := by
  cases op <;> trivial

theorem allApplied_nil : AllApplied [] := by
  intro before target invocation result effects after heq
  simp at heq

/-- Calls that answer no event leave nothing to apply. -/
theorem AllApplied.append (h : AllApplied tr) {evs : List GatewayEvent}
    (hevs : ∀ e ∈ evs, ∀ target invocation result effects,
      e ≠ ⟨.sendSocketEvent target invocation, .ok (.completed result effects)⟩) : AllApplied (tr ++ evs) := by
  intro before target invocation result effects after heq hvalid
  rcases List.append_eq_append_iff.mp heq with ⟨middle, -, hmiddle⟩ | ⟨middle, rfl, hmiddle⟩
  · exact (hevs _ (by rw [hmiddle]; simp) target invocation result effects rfl).elim
  · cases middle with
    | nil =>
      -- the answer would be the first of the new calls
      rw [List.nil_append] at hmiddle
      exact (hevs _ (by rw [← hmiddle]; simp) target invocation result effects rfl).elim
    | cons e middle =>
      obtain ⟨rfl, rfl⟩ := List.cons.inj hmiddle
      obtain ⟨applied, hprefix, hperformed⟩ := h before target invocation result effects middle rfl hvalid
      exact ⟨applied, hprefix.trans (List.prefix_append _ _), hperformed⟩

theorem AllApplied.extends (h : AllApplied tr) (hext : Extends Quiet tr tr') : AllApplied tr' := by
  obtain ⟨evs, rfl, hevs⟩ := hext
  refine h.append fun e he target invocation result effects heq => ?_
  have hquiet := hevs e he
  rw [heq] at hquiet
  exact hquiet

theorem AllApplied.tried {invocation : ActorSocketInvocation} (h : AllApplied tr)
    (ht : Tried invocation tr tr') :
    AllApplied tr' := by
  obtain ⟨evs, rfl, hevs⟩ := ht
  refine h.append fun e he target invocation' result effects heq => ?_
  rcases hevs e he with hrouting | ⟨target', answer, heq', hne⟩
  · rw [heq] at hrouting
    exact hrouting
  · rw [heq] at heq'
    cases heq'
    exact hne result effects rfl

theorem quiet_harmless : Harmless SendOk AllApplied Quiet :=
  ⟨fun _ hop => hop.sendOk, fun hw he => hw.extends ((Extends.refl _).snoc he)⟩

/-- After an answer, the calls `evs` are made. -/
theorem AllApplied.answered (h : AllApplied tr) (target : WorkflowActorTarget)
    (invocation : ActorSocketInvocation) (result : Value) {effects : List ActorSocketEffect}
    {evs : List GatewayEvent} (hquiet : ∀ e ∈ evs, Quiet e.op)
    (hevs : validateSocketEffects effects = .ok () → Performed invocation.actor effects evs) :
    AllApplied (tr ++ [⟨.sendSocketEvent target invocation, .ok (.completed result effects)⟩] ++ evs) := by
  intro before target' invocation' result' effects' after heq hvalid
  rw [List.append_assoc, List.singleton_append] at heq
  rcases List.append_eq_append_iff.mp heq with ⟨middle, rfl, hmiddle⟩ | ⟨middle, rfl, hmiddle⟩
  · cases middle with
    | nil =>
      obtain ⟨heq', rfl⟩ := List.cons.inj hmiddle
      cases heq'
      exact ⟨evs, List.prefix_refl _, hevs hvalid⟩
    | cons e middle =>
      -- among the new calls there is no other answer
      obtain ⟨-, hmiddle⟩ := List.cons.inj hmiddle
      have hq : Quiet (.sendSocketEvent target' invocation') :=
        hquiet ⟨.sendSocketEvent target' invocation', .ok (.completed result' effects')⟩ (by rw [hmiddle]; simp)
      exact hq.elim
  · cases middle with
    | nil =>
      obtain ⟨heq', hafter⟩ := List.cons.inj hmiddle
      cases heq'
      exact ⟨evs, hafter ▸ List.prefix_refl _, hevs hvalid⟩
    | cons e middle =>
      obtain ⟨rfl, rfl⟩ := List.cons.inj hmiddle
      obtain ⟨applied, hprefix, hperformed⟩ := h before target' invocation' result' effects' middle rfl hvalid
      exact ⟨applied, hprefix.trans (List.prefix_append _ _), hperformed⟩

theorem maintains_dispatch_applied (actor : ActorKey) (principal : ActorPrincipal) (event : ActorSocketEvent)
    (triggerMessage : Bool) : Maintains SendOk AllApplied (dispatch actor principal event triggerMessage) := by
  have hprepare : Maintains SendOk AllApplied (prepareEvent actor event) := by
    refine .calls quiet_harmless ?_
    cases event with
    | connect connection => exact ⟨trivial, fun _ => trivial⟩
    | message connectionId message => exact ⟨trivial, fun _ => trivial⟩
    | disconnect connection code reason wasClean => exact ⟨trivial, fun _ => ⟨trivial, fun _ => trivial⟩⟩
  refine hprepare.bind fun prepared => Maintains.bind (.ask quiet_harmless (by trivial)) fun requestId tr h => ?_
  obtain ⟨event', connections⟩ := prepared
  refine wp_seq (wp_attempts principal 2 fun tr' op htried hop => ?_) fun r tr₁ h₁ => ?_
  · rcases hop with hrouting | ⟨target, rfl⟩
    · cases op <;> trivial
    · exact h.tried htried
  · cases r with
    | error e => exact h.tried h₁
    | ok effects =>
      obtain ⟨tr₂, target, result, htried, rfl⟩ := h₁
      have h₂ := h.tried htried
      dsimp only
      cases hvalid : validateSocketEffects effects with
      | error e =>
        have hanswered := h₂.answered target ⟨requestId, actor, event', connections⟩ result
          (fun _ he => absurd he List.not_mem_nil) fun hv => by rw [hvalid] at hv; cases hv
        rwa [List.append_nil] at hanswered
      | ok u =>
        refine wp_seq (wp_performs (fun _ _ hop => Quiet.sendOk (Applying.quiet hop)) (calls_apply actor effects)) ?_
        rintro _ tr₃ ⟨evs, rfl, hevs, hperformed⟩
        have h₃ := h₂.answered target ⟨requestId, actor, event', connections⟩ result
            (fun e he => (hevs e he).quiet)
          fun _ => hperformed
        -- what is left of the dispatch sends no event
        have hdeliver : Calls Quiet (do
            if triggerMessage then do
              let triggerId ← Gateway.ask (.triggerId actor (messageConnectionId event'))
              Gateway.ask (.deliver actor triggerId event')
            Pure.pure true : GatewayM Bool) := by
          cases triggerMessage with
          | false => trivial
          | true => exact ⟨trivial, fun _ => ⟨trivial, fun _ => trivial⟩⟩
        cases event' with
        | connect connection =>
          exact Maintains.bind (.ask quiet_harmless (by trivial)) (fun _ => .calls quiet_harmless hdeliver) _ h₃
        | message connectionId message => exact Maintains.calls quiet_harmless hdeliver _ h₃
        | disconnect connection code reason wasClean => exact Maintains.calls quiet_harmless hdeliver _ h₃

end Gateway

/-! ### Runs -/

open Gateway

variable {serde : SerdeJson} {s : GatewayState} {t : ℕ}

/-- The rules of connections; a request sends no events. -/
def applicationRules : TaskRules where
  ok
    | none => SendOk
    | some _ => fun _ => Quiet
  rests
    | none => AllApplied
    | some _ => fun _ => True

theorem applicationRules_kept : applicationRules.Kept serde := by
  refine ⟨fun request => ?_, fun t access stage tr h => ?_, fun actor effects => ?_, fun _ _ _ _ _ => trivial⟩
  · cases request with
    | none => exact allApplied_nil
    | some request => trivial
  · refine maintains_runConnection (quiet_harmless.mono fun op _ => ?_) maintains_dispatch_applied serde t access stage tr h
    cases op <;> trivial
  · exact wp_mono (wp_performs (fun _ _ hop => hop.quiet) (calls_apply actor effects)) fun _ _ _ => trivial

/-- When a task sends an event, the effects of the earlier ones have been applied. -/
theorem allApplied_of_sending (hs : (gatewaySystem serde).Reachable s) {task : GatewayTask}
    {target : WorkflowActorTarget} {invocation : ActorSocketInvocation}
    {next : Result ActorExecutionResult → GatewayM Stage}
    (ht : s.tasks t = some (task, .call (.sendSocketEvent target invocation) next)) :
    AllApplied (s.world.trace t) := by
  have hok := ((applicationRules_kept.reachable hs).tasks t task _ ht).1
  cases task with
  | connection access stage => exact hok
  | applyEffects actor effects => exact False.elim hok

end LDO
