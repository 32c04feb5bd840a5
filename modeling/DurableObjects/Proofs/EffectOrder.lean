import DurableObjects.Sanity.Applications
import DurableObjects.Proofs.Catalog

/-! The order of socket effects. Turns of one actor are committed one after the other, but
their answers go to tasks that know nothing of each other, and each task applies its own.
Effects therefore take effect in the order of the applications. That is the order of the
commits between the events of one connection, and wherever one application ends before the
other begins; between two tasks it need not be. -/

namespace LDO

open Prog Gateway

variable {serde : SerdeJson} {s s' : GatewayState} {t : ℕ} {moves : List GatewayMove}

/-! ### What a run writes -/

namespace GatewayMove

/-- The call, if task `t` makes it. -/
def callOf (t : ℕ) : GatewayMove → Option GatewayEvent
  | .call t' e => if t' = t then some e else none
  | _ => none

/-- What the move puts into a queue. -/
def pushed (channel : ℕ) : GatewayMove → Option OutboundMessage
  | .call _ ⟨.send channel' message, _⟩ => if channel' = channel then some message else none
  | .call _ ⟨.sendBroadcast channel' message, _⟩ => if channel' = channel then some message else none
  | _ => none

/-- What the move takes out of a queue. -/
def taken (channel : ℕ) : GatewayMove → Option OutboundMessage
  | .call t ⟨.select, .outbound message⟩ => if t = channel then message else none
  | _ => none

/-- The metadata the move gives a connection. -/
def metadataSet (actor : ActorKey) (connectionId : String) : GatewayMove → Option Value
  | .call _ ⟨.setMetadata actor' connectionId' metadata, _⟩ =>
    if actor = actor' ∧ connectionId = connectionId' then some metadata else none
  | .call _ ⟨.insert actor' connection _ _, true⟩ =>
    if actor = actor' ∧ connectionId = connection.id then some connection.metadata else none
  | _ => none

/-- The tags the move gives a connection. -/
def tagsSet (actor : ActorKey) (connectionId : String) : GatewayMove → Option (List String)
  | .call _ ⟨.setTags actor' connectionId' tags, _⟩ =>
    if actor = actor' ∧ connectionId = connectionId' then some tags else none
  | .call _ ⟨.insert actor' connection _ _, true⟩ =>
    if actor = actor' ∧ connectionId = connection.id then some connection.tags else none
  | _ => none

end GatewayMove

def callsOf (t : ℕ) (moves : List GatewayMove) : List GatewayEvent := moves.filterMap (GatewayMove.callOf t)

/-- A move starts the application of `effects` by task `t`. -/
inductive Starts : GatewayMove → ℕ → ActorKey → List ActorSocketEffect → Prop
  | event (t : ℕ) (target : WorkflowActorTarget) (invocation : ActorSocketInvocation) (result : Value)
      (effects : List ActorSocketEffect) :
      Starts (.call t ⟨.sendSocketEvent target invocation, .ok (.completed result effects)⟩) t invocation.actor effects
  | request (t : ℕ) (actor : ActorKey) (effects : List ActorSocketEffect) :
      Starts (.post t actor effects) t actor effects

theorem Starts.cases {e : GatewayMove} {actor : ActorKey} {effects : List ActorSocketEffect}
    (h : Starts e t actor effects) :
    (∃ target invocation result, e = .call t ⟨.sendSocketEvent target invocation, .ok (.completed result effects)⟩) ∨
      e = .post t actor effects := by
  cases h with
  | event t target invocation result effects => exact .inl ⟨target, invocation, result, rfl⟩
  | request t actor effects => exact .inr rfl

/-- A turn whose effects are applied within `moves`: after the move `start`, which hands them to
a task, they are applied `during` the moves that follow. -/
structure Application (moves : List GatewayMove) where
  task : ℕ
  actor : ActorKey
  effects : List ActorSocketEffect
  earlier : List GatewayMove
  start : GatewayMove
  during : List GatewayMove
  later : List GatewayMove
  split : moves = earlier ++ start :: during ++ later
  starts : Starts start task actor effects
  performed : Performed actor effects (callsOf task during)

namespace Application

/-- The turn is that of the event `requestId`. -/
def Answers (a : Application moves) (requestId : String) : Prop :=
  ∃ target invocation result, a.start = .call a.task ⟨.sendSocketEvent target invocation, .ok (.completed result a.effects)⟩ ∧
    invocation.requestId = requestId

/-- The move at `i` applies an effect of the turn. -/
def Makes (a : Application moves) (i : ℕ) (e : GatewayMove) : Prop :=
  a.earlier.length < i ∧ i ≤ a.earlier.length + a.during.length ∧ moves[i]? = some e ∧ e.callOf a.task ≠ none

/-- `first` has been applied when the application of `second` begins. -/
def Before (first second : Application moves) : Prop :=
  first.earlier.length + first.during.length < second.earlier.length

/-- Of what the turn writes, `v` is the last. -/
def WritesLast {V : Type} (a : Application moves) (written : GatewayMove → Option V) (v : V) : Prop :=
  ∃ i e, a.Makes i e ∧ written e = some v ∧ ∀ i' e', a.Makes i' e' → written e' ≠ none → i' ≤ i

/-- From the beginning of `first`, only the two turns write. -/
def Alone {V : Type} (first second : Application moves) (written : GatewayMove → Option V) : Prop :=
  ∀ i e, first.earlier.length < i → moves[i]? = some e → written e ≠ none → first.Makes i e ∨ second.Makes i e

end Application

/-- The effects of `first` take effect before those of `second`. -/
structure EffectsInOrder (s : GatewayState) (first second : Application moves) : Prop where
  messages : ∀ channel i j e e', first.Makes i e → e.pushed channel ≠ none → second.Makes j e' →
    e'.pushed channel ≠ none → i < j
  metadata : ∀ id v entry, second.WritesLast (GatewayMove.metadataSet second.actor id) v →
    first.Alone second (GatewayMove.metadataSet second.actor id) →
    s.world.registry.entry second.actor id = some entry → entry.connection.metadata = v
  tags : ∀ id v entry, second.WritesLast (GatewayMove.tagsSet second.actor id) v →
    first.Alone second (GatewayMove.tagsSet second.actor id) →
    s.world.registry.entry second.actor id = some entry → entry.connection.tags = v

/-! ### Queues -/

/-- What is taken out of a queue was its head, and what is put in is its end. -/
theorem queue_step {e : GatewayMove} (hs : GatewayStep serde s e s') (channel : ℕ) :
    s.world.queues channel ++ (e.pushed channel).toList =
      (e.taken channel).toList ++ s'.world.queues channel := by
  have hpush : ∀ (channel' : ℕ) (message : OutboundMessage), s.world.queues channel ++
      (if channel' = channel then some message else none).toList =
        (s.world.push channel' message).queues channel := by
    intro channel' message
    by_cases hc : channel' = channel
    · subst hc
      simp [GatewayWorld.push]
    · simp [GatewayWorld.push, hc, Ne.symm hc]
  cases hs with
  | @call t task op next r ht ha =>
    cases op with
    | send channel' message => exact hpush channel' message
    | sendBroadcast channel' message => exact hpush channel' message
    | select =>
      cases r with
      | inbound frame => exact List.append_nil _
      | outbound message =>
        obtain rfl : message = (s.world.queues t).head? := ha
        by_cases ht : t = channel
        · subst ht
          cases hq : s.world.queues t <;>
            simp [GatewayMove.pushed, GatewayMove.taken, GatewayWorld.after, GatewayWorld.log, hq]
        · simp [GatewayMove.pushed, GatewayMove.taken, GatewayWorld.after, GatewayWorld.log, ht, Ne.symm ht]
    | _ => exact List.append_nil _
  | _ => exact List.append_nil _

/-- A queue is first in, first out: what was put in is what was taken out, and then what is left. -/
theorem queue_run (hrun : (gatewaySystem serde).Run moves s) (channel : ℕ) :
    moves.filterMap (GatewayMove.pushed channel) =
      moves.filterMap (GatewayMove.taken channel) ++ s.world.queues channel := by
  refine hrun.invariant (I := fun moves s => moves.filterMap (GatewayMove.pushed channel) =
    moves.filterMap (GatewayMove.taken channel) ++ s.world.queues channel) ?_ ?_
  · rintro s rfl
    rfl
  · intro moves s e s' _ ih hs
    have hone : ∀ f : GatewayMove → Option OutboundMessage, [e].filterMap f = (f e).toList := by
      intro f
      cases hf : f e <;> simp [hf]
    rw [List.filterMap_append, List.filterMap_append, hone, hone, ih, List.append_assoc, List.append_assoc,
      queue_step hs channel]

/-! ### Metadata and tags -/

/-- A connection has what was written last, or what it had. -/
def Carried {V : Type} (f : ActorSocketConnection → V) (written : Option V)
    (before : Option ActorSocketConnection) (after : ActorSocketConnection) : Prop :=
  written = some (f after) ∨ written = none ∧ ∃ connection, before = some connection ∧ f connection = f after

theorem carried_latestOf {known : Option ActorSocketConnection} {e : GatewayMove} {actor : ActorKey}
    {id : String} {connection : ActorSocketConnection}
    (h : latestOf actor id known e = some connection) :
    Carried (·.metadata) (e.metadataSet actor id) known connection ∧
      Carried (·.tags) (e.tagsSet actor id) known connection := by
  have hsame : ∀ {V : Type} {f : ActorSocketConnection → V} {written : Option V}, written = none →
      known = some connection → Carried f written known connection := fun hw h => .inr ⟨hw, connection, h, rfl⟩
  unfold latestOf at h
  split at h
  · split_ifs at h with hkey
    · cases h
      exact ⟨.inl (if_pos hkey), .inl (if_pos hkey)⟩
    · exact ⟨hsame (if_neg hkey) h, hsame (if_neg hkey) h⟩
  · split_ifs at h with hkey
    · obtain ⟨before, rfl, rfl⟩ := Option.map_eq_some_iff.mp h
      exact ⟨.inl (if_pos hkey), .inr ⟨rfl, before, rfl, rfl⟩⟩
    · exact ⟨hsame (if_neg hkey) h, hsame rfl h⟩
  · split_ifs at h with hkey
    · obtain ⟨before, rfl, rfl⟩ := Option.map_eq_some_iff.mp h
      exact ⟨.inr ⟨rfl, before, rfl, rfl⟩, .inl (if_pos hkey)⟩
    · exact ⟨hsame rfl h, hsame (if_neg hkey) h⟩
  · rename_i hinsert hmetadata htags
    have hm : e.metadataSet actor id = none := by
      unfold GatewayMove.metadataSet
      split
      · exact (hmetadata _ _ _ _ _ rfl).elim
      · exact (hinsert _ _ _ _ _ rfl).elim
      · rfl
    have ht : e.tagsSet actor id = none := by
      unfold GatewayMove.tagsSet
      split
      · exact (htags _ _ _ _ _ rfl).elim
      · exact (hinsert _ _ _ _ _ rfl).elim
      · rfl
    exact ⟨hsame hm h, hsame ht h⟩

/-- The last write at `i` left `v`. -/
def LastWrite {V : Type} (moves : List GatewayMove) (written : GatewayMove → Option V) (i : ℕ)
    (v : V) : Prop :=
  (∃ e, moves[i]? = some e ∧ written e = some v) ∧ ∀ k e, i < k → moves[k]? = some e → written e = none

theorem LastWrite.last {V : Type} {written : GatewayMove → Option V} {e : GatewayMove} {v : V}
    (h : written e = some v) :
    LastWrite (moves ++ [e]) written moves.length v := by
  refine ⟨⟨e, by simp, h⟩, fun k e' hk he' => ?_⟩
  have hlt := (List.getElem?_eq_some_iff.mp he').1
  rw [List.length_append, List.length_singleton] at hlt
  omega

theorem LastWrite.snoc {V : Type} {written : GatewayMove → Option V} {e : GatewayMove} {i : ℕ} {v : V}
    (h : LastWrite moves written i v) (he : written e = none) : LastWrite (moves ++ [e]) written i v := by
  obtain ⟨⟨e₀, he₀, hv⟩, hafter⟩ := h
  have hi := (List.getElem?_eq_some_iff.mp he₀).1
  refine ⟨⟨e₀, by rwa [List.getElem?_append_left hi], hv⟩, fun k e' hk he' => ?_⟩
  rcases Nat.lt_or_ge k moves.length with hlt | hge
  · rw [List.getElem?_append_left hlt] at he'
    exact hafter k e' hk he'
  · rw [List.getElem?_append_right hge] at he'
    obtain ⟨-, rfl⟩ := List.getElem?_eq_some_iff.mp he'
    simpa using he

theorem LastWrite.unique {V : Type} {written : GatewayMove → Option V} {i j : ℕ} {v v' : V}
    (h : LastWrite moves written i v) (h' : LastWrite moves written j v') : v = v' := by
  obtain ⟨⟨e, he, hv⟩, hafter⟩ := h
  obtain ⟨⟨e', he', hv'⟩, hafter'⟩ := h'
  rcases Nat.lt_trichotomy i j with hlt | rfl | hlt
  · have hnone := hafter j e' hlt he'
    rw [hnone] at hv'
    cases hv'
  · obtain rfl : e = e' := Option.some.inj (he.symm.trans he')
    exact Option.some.inj (hv.symm.trans hv')
  · have hnone := hafter' i e hlt he
    rw [hnone] at hv
    cases hv

/-- What a connection has is what was written last. -/
theorem lastWrite_of_latest {V : Type} {f : ActorSocketConnection → V} {written : GatewayMove → Option V}
    {actor : ActorKey} {id : String} {connection : ActorSocketConnection}
    (hstep : ∀ {known e connection}, latestOf actor id known e = some connection →
      Carried f (written e) known connection)
    (h : latest actor id moves = some connection) : ∃ i, LastWrite moves written i (f connection) := by
  induction moves using List.reverseRecOn generalizing connection with
  | nil => cases h
  | append_singleton moves e ih =>
    rw [latest_snoc] at h
    rcases hstep h with hwritten | ⟨hnone, before, hbefore, heq⟩
    · exact ⟨moves.length, .last hwritten⟩
    · obtain ⟨i, hi⟩ := ih hbefore
      rw [← heq]
      exact ⟨i, hi.snoc hnone⟩

namespace Application

theorem Makes.before {first second : Application moves} (h : first.Before second) {i j : ℕ}
    {e e' : GatewayMove} (hi : first.Makes i e) (hj : second.Makes j e') : i < j := by
  have hlast : i ≤ first.earlier.length + first.during.length := hi.2.1
  have hfirst : second.earlier.length < j := hj.1
  have hbefore : first.earlier.length + first.during.length < second.earlier.length := h
  omega

/-- The last write of the later turn is the last of all. -/
theorem lastWrite {V : Type} {first second : Application moves} {written : GatewayMove → Option V} {v : V}
    (h : first.Before second) (hv : second.WritesLast written v) (halone : first.Alone second written) :
    ∃ i, LastWrite moves written i v := by
  obtain ⟨i, e, hmakes, hwritten, hlast⟩ := hv
  refine ⟨i, ⟨e, hmakes.2.2.1, hwritten⟩, fun k e' hk he' => ?_⟩
  by_contra hne
  have hbefore : first.earlier.length + first.during.length < second.earlier.length := h
  have hi : second.earlier.length < i := hmakes.1
  rcases halone k e' (by omega) he' hne with hfirst | hsecond
  · have hk' := hfirst.before h hmakes
    omega
  · have hk' := hlast k e' hsecond hne
    omega

end Application

theorem effectsInOrder_of_before (hrun : (gatewaySystem serde).Run moves s) {first second : Application moves}
    (h : first.Before second) : EffectsInOrder s first second := by
  refine ⟨fun channel i j e e' hi _ hj _ => hi.before h hj, fun id v entry hv halone hentry => ?_,
    fun id v entry hv halone hentry => ?_⟩
  · obtain ⟨i, hi⟩ := Application.lastWrite h hv halone
    obtain ⟨j, hj⟩ := lastWrite_of_latest (fun h => (carried_latestOf h).1) (latest_of_run hrun _ _ _ hentry)
    exact hj.unique hi
  · obtain ⟨i, hi⟩ := Application.lastWrite h hv halone
    obtain ⟨j, hj⟩ := lastWrite_of_latest (fun h => (carried_latestOf h).2) (latest_of_run hrun _ _ _ hentry)
    exact hj.unique hi

/-! ### Tasks -/

theorem tasks_step {e : GatewayMove} (hs : GatewayStep serde s e s') (h : s.tasks t ≠ none) :
    s'.tasks t ≠ none := by
  have hupdate : ∀ (j : ℕ) (task : GatewayTask × GatewayM Stage),
      Function.update s.tasks j (some task) t ≠ none := by
    intro j task
    by_cases hj : t = j
    · subst hj
      simp
    · simpa [hj] using h
  cases hs with
  | execute => exact h
  | commit => exact h
  | _ => exact hupdate _ _

theorem starts_step {e : GatewayMove} {actor : ActorKey} {effects : List ActorSocketEffect}
    (hs : GatewayStep serde s e s') (h : Starts e t actor effects) : s'.tasks t ≠ none := by
  cases h with
  | event =>
    cases hs
    simp
  | request =>
    cases hs
    simp

theorem tasks_of_starts (hrun : (gatewaySystem serde).Run moves s) {e : GatewayMove} (he : e ∈ moves)
    {actor : ActorKey} {effects : List ActorSocketEffect} (h : Starts e t actor effects) :
    s.tasks t ≠ none := by
  refine hrun.invariant (I := fun moves s => e ∈ moves → s.tasks t ≠ none) (fun _ he => by cases he) ?_ he
  intro moves s e' s' _ ih hs he
  rcases List.mem_append.mp he with he | he
  · exact tasks_step hs (ih he)
  · obtain rfl := List.mem_singleton.mp he
    exact starts_step hs h

theorem callsOf_append (t : ℕ) (moves moves' : List GatewayMove) :
    callsOf t (moves ++ moves') = callsOf t moves ++ callsOf t moves' := List.filterMap_append

theorem trace_of_run (hrun : (gatewaySystem serde).Run moves s) (t : ℕ) :
    s.world.trace t = callsOf t moves := by
  refine hrun.invariant (I := fun moves s => s.world.trace t = callsOf t moves) ?_ ?_
  · rintro s rfl
    rfl
  · intro moves s e s' _ ih hs
    rw [callsOf_append, ← ih]
    cases hs with
    | @call j task op next r ht ha =>
      change (s.answered j task op r next).world.trace t = _
      by_cases hj : j = t
      · subst hj
        rw [trace_answered]
        simp [callsOf, GatewayMove.callOf]
      · rw [trace_answered_ne (Ne.symm hj)]
        simp [callsOf, GatewayMove.callOf, hj]
    | _ => exact (List.append_nil _).symm

/-- Of two splits of a list, the element of the first lies before that of the second, and the element of the second
within `during` unless it lies behind it. -/
theorem mem_of_split {α : Type} {earlier during later earlier' rest : List α} {start start' : α}
    (heq : earlier ++ start :: during ++ later = earlier' ++ start' :: rest)
    (h : earlier.length < earlier'.length) :
    start ∈ earlier' ∧ (earlier'.length ≤ earlier.length + during.length → start' ∈ during) := by
  rw [List.append_assoc, List.cons_append] at heq
  rcases List.append_eq_append_iff.mp heq with ⟨middle, rfl, hmiddle⟩ | ⟨middle, rfl, -⟩
  · cases middle with
    | nil => simp at h
    | cons e middle =>
      obtain ⟨rfl, htail⟩ := List.cons.inj hmiddle
      refine ⟨by simp, fun hle => ?_⟩
      rw [List.length_append, List.length_cons] at hle
      rcases List.append_eq_append_iff.mp htail with ⟨rest', rfl, -⟩ | ⟨rest', rfl, hrest⟩
      · rw [List.length_append] at hle
        omega
      · cases rest' with
        | nil =>
          rw [List.append_nil] at hle
          omega
        | cons e' rest' =>
          obtain ⟨rfl, -⟩ := List.cons.inj hrest
          simp
  · rw [List.length_append] at h
    omega

/-- A task applies the effects of one turn at a time. -/
theorem before_of_same_task (hrun : (gatewaySystem serde).Run moves s) {first second : Application moves}
    (htask : first.task = second.task) (h : first.earlier.length < second.earlier.length) :
    first.Before second := by
  have hsplit : moves = second.earlier ++ second.start :: (second.during ++ second.later) := by
    rw [← List.cons_append, ← List.append_assoc]
    exact second.split
  obtain ⟨hmem, hduring⟩ := mem_of_split (first.split.symm.trans hsplit) h
  refine lt_of_not_ge fun hle => ?_
  rcases second.starts.cases with ⟨target, invocation, result, hstart⟩ | hstart
  · -- an application sends no event
    have hcall : ⟨.sendSocketEvent target invocation, .ok (.completed result second.effects)⟩ ∈
        callsOf first.task first.during :=
      List.mem_filterMap.mpr ⟨second.start, hduring hle, by rw [hstart, htask]; exact if_pos rfl⟩
    exact (first.performed.applying hcall).elim
  · -- a request is posted to a task that has not started
    rw [hsplit, hstart] at hrun
    obtain ⟨s₁, hpass⟩ := hrun.passes
    obtain ⟨later, -, hrun₁, -⟩ := id hpass
    obtain ⟨s₂, hs⟩ := hpass.step
    have hstarted := tasks_of_starts hrun₁ hmem first.starts
    rw [htask] at hstarted
    cases hs with
    | post hfree _ _ => exact hstarted hfree

/-- The effects of an event are applied before its task sends another. -/
theorem applied_before_next (hrun : (gatewaySystem serde).Run moves s)
    {earlier middle later : List GatewayMove} {target target' : WorkflowActorTarget}
    {invocation invocation' : ActorSocketInvocation} {result : Value}
    {effects : List ActorSocketEffect} {answer : Result ActorExecutionResult}
    (hmoves : moves = earlier ++ .call t ⟨.sendSocketEvent target invocation, .ok (.completed result effects)⟩ ::
      middle ++ .call t ⟨.sendSocketEvent target' invocation', answer⟩ :: later)
    (hvalid : validateSocketEffects effects = .ok ()) :
    ∃ a : Application moves, a.task = t ∧ a.actor = invocation.actor ∧ a.effects = effects ∧
    a.earlier = earlier ∧
      a.during <+: middle := by
  subst hmoves
  obtain ⟨s₁, hpass⟩ := hrun.passes
  obtain ⟨_, -, hrun₁, -⟩ := id hpass
  obtain ⟨s₂, hs⟩ := hpass.step
  have htrace := trace_of_run hrun₁ t
  rw [callsOf_append, show ∀ e : GatewayEvent, callsOf t (.call t e :: middle) = e :: callsOf t middle from
    fun e => List.filterMap_cons_some (if_pos rfl)] at htrace
  have happlied : AllApplied (s₁.world.trace t) := by
    cases hs with
    | call ht _ => exact allApplied_of_sending hpass.reachable ht
  obtain ⟨evs, ⟨rest, hrest⟩, hperformed⟩ := happlied _ target invocation result effects _ htrace hvalid
  obtain ⟨during, middle, rfl, rfl, -⟩ := List.filterMap_eq_append_iff.mp hrest.symm
  exact ⟨⟨t, invocation.actor, effects, earlier, _, during, middle ++ .call t ⟨.sendSocketEvent target' invocation', answer⟩ ::
    later, by simp, .event t target invocation result effects, hperformed⟩, rfl, rfl, rfl, rfl, List.prefix_append _ _⟩

/-- Socket effects take effect in the order in which the gateway applies them: a queue is first in,
first out; when one turn has been applied before the application of another begins, its messages
come first in every queue, and the metadata and the tags that remain are those of the other. Two
turns of one connection are applied one after the other, each before the next event is sent. -/
theorem effects_in_application_order (hrun : (gatewaySystem serde).Run moves s) :
    (∀ channel, moves.filterMap (GatewayMove.pushed channel) =
        moves.filterMap (GatewayMove.taken channel) ++ s.world.queues channel) ∧
      (∀ first second : Application moves, first.Before second → EffectsInOrder s first second) ∧
      (∀ first second : Application moves, first.task = second.task → first.earlier.length < second.earlier.length →
        EffectsInOrder s first second) ∧
      ∀ t target invocation result effects earlier middle target' invocation' answer later,
        moves = earlier ++ .call t ⟨.sendSocketEvent target invocation, .ok (.completed result effects)⟩ ::
          middle ++ .call t ⟨.sendSocketEvent target' invocation', answer⟩ :: later →
        validateSocketEffects effects = .ok () →
        ∃ a : Application moves, a.task = t ∧ a.actor = invocation.actor ∧ a.effects = effects ∧
        a.earlier = earlier ∧
          a.during <+: middle :=
  ⟨queue_run hrun, fun _ _ => effectsInOrder_of_before hrun,
    fun _ _ htask h => effectsInOrder_of_before hrun (before_of_same_task hrun htask h),
    fun _ _ _ _ _ _ _ _ _ _ _ => applied_before_next hrun⟩

/-! ### Two answers that cross -/

namespace GatewayMove

def executes : GatewayMove → Option String
  | .execute requestId => some requestId
  | _ => none

def commits : GatewayMove → Option String
  | .commit requestId => some requestId
  | _ => none

/-- The answer to an event: its task, its request, its actor and its effects. -/
def answered : GatewayMove → Option (ℕ × String × ActorKey × List ActorSocketEffect)
  | .call t ⟨.sendSocketEvent _ invocation, .ok (.completed _ effects)⟩ =>
    some (t, invocation.requestId, invocation.actor, effects)
  | _ => none

end GatewayMove

/-- The host executes and commits the event `r` before it executes `r'`. -/
def CommittedBefore (moves : List GatewayMove) (r r' : String) : Prop :=
  ∃ before e after, moves = before ++ e :: after ∧ e.commits = some r ∧ (∀ e ∈ after, e.executes ≠ some r) ∧
    ∀ e ∈ before, e.executes ≠ some r'

namespace Gateway

/-- A client is let in, and says something. -/
def speaks (t : ℕ) (connectionId requestId requestId' text : String) : List Command :=
  arrives t connectionId requestId ++ handled t [] ++ goes t 1 ++ [.proceed t] ++
    [selects t (.inbound (some (.ok (.text text))))] ++ goes t 1 ++ [draws t requestId'] ++ goes t 3

/-- The room sends every message to the first client. -/
def echo (text : String) : List ActorSocketEffect := [.send "connection-1" (.text text)]

/-- Two clients speak. The room handles the first message and then the second, but the answer to the second is the
first to arrive. -/
def crossed : List Command :=
  speaks 0 "connection-1" "request-1" "request-3" "one" ++ speaks 1 "connection-2" "request-2" "request-4" "two" ++
    [.execute 0, .commit 0, .execute 1, .commit 1] ++
    [replied 1 (.ok (.completed .null (echo "two")))] ++ goes 1 2 ++
    [replied 0 (.ok (.completed .null (echo "one")))] ++ goes 0 2

/-- The calls that send one message. -/
def sentTo : List GatewayEvent → Option (ActorKey × String × ℕ × ℕ × OutboundMessage)
  | [⟨.sender actor connectionId, some channel⟩, ⟨.send channel' message, _⟩] =>
    some (actor, connectionId, channel, channel', message)
  | _ => none

theorem performed_of_sentTo {actor : ActorKey} {connectionId : String} {channel : ℕ}
    {message : ActorSocketMessage} {evs : List GatewayEvent}
    (h : sentTo evs = some (actor, connectionId, channel, channel, .message message)) :
    Performed actor [.send connectionId message] evs := by
  unfold sentTo at h
  split at h
  · cases h
    have hsend : Reaches anyEnv (sendTo (some channel) (.message message) >>= fun _ => apply actor [])
        [⟨.sender actor connectionId, some channel⟩] (.ret ())
        [⟨.sender actor connectionId, some channel⟩, ⟨.send channel (.message message), ()⟩] :=
      .call ⟨trivial, rfl⟩ (.refl _ _)
    change Reaches anyEnv (.call (.sender actor connectionId) fun channel =>
      sendTo channel (.message message) >>= fun _ => apply actor []) [] (.ret ()) _
    exact .call ⟨trivial, rfl⟩ hsend
  · cases h

theorem starts_of_answered {e : GatewayMove} {requestId : String} {actor : ActorKey}
    {effects : List ActorSocketEffect} {t : ℕ}
    (h : e.answered = some (t, requestId, actor, effects)) : ∃ target invocation result,
      e = .call t ⟨.sendSocketEvent target invocation, .ok (.completed result effects)⟩ ∧
      invocation.requestId = requestId ∧ invocation.actor = actor := by
  unfold GatewayMove.answered at h
  split at h
  · cases h
    exact ⟨_, _, _, rfl, rfl, rfl⟩
  · cases h

end Gateway

/-- The answer at `n` of a run is applied by the calls among the next `k` moves. -/
theorem exists_application {n k : ℕ} {requestId : String} {actor : ActorKey}
    {effects : List ActorSocketEffect}
    (h : moves[n]?.bind GatewayMove.answered = some (t, requestId, actor, effects))
    (hperformed : Performed actor effects (callsOf t ((moves.drop (n + 1)).take k))) :
    ∃ a : Application moves, a.task = t ∧ a.actor = actor ∧ a.Answers requestId ∧ a.earlier.length = n ∧
      a.during = (moves.drop (n + 1)).take k := by
  obtain ⟨e, he, hanswered⟩ := Option.bind_eq_some_iff.mp h
  obtain ⟨target, invocation, result, rfl, rfl, rfl⟩ := starts_of_answered hanswered
  obtain ⟨hn, he⟩ := List.getElem?_eq_some_iff.mp he
  refine ⟨⟨t, invocation.actor, effects, moves.take n, _, (moves.drop (n + 1)).take k, (moves.drop (n + 1)).drop k, ?_,
    .event t target invocation result effects, hperformed⟩, rfl, rfl, ⟨target, invocation, result,
      rfl, rfl⟩, ?_, rfl⟩
  · rw [List.append_assoc, List.cons_append, List.take_append_drop, ← he, List.getElem_cons_drop,
      List.take_append_drop]
  · exact List.length_take_of_le hn.le


/-- The answer to `requestId` is at `n`, and task `t` sends its message to the first client two moves later. -/
def EchoedAt (moves : List GatewayMove) (n t : ℕ) (requestId text : String) : Prop :=
  moves[n]?.bind GatewayMove.answered = some (t, requestId, room, echo text) ∧
    sentTo (callsOf t ((moves.drop (n + 1)).take 2)) =
      some (room, "connection-1", 0, 0, .message (.text text)) ∧
    (moves[n + 2]?.bind (GatewayMove.pushed 0)).isSome = true ∧
    (moves[n + 2]?.bind (GatewayMove.callOf t)).isSome = true

instance (moves : List GatewayMove) (n t : ℕ) (requestId text : String) : Decidable (EchoedAt moves n t requestId text) :=
  inferInstanceAs (Decidable (_ ∧ _))

theorem EchoedAt.application {n : ℕ} {requestId text : String} (h : EchoedAt moves n t requestId text) :
    ∃ a : Application moves, a.actor = room ∧ a.Answers requestId ∧ a.earlier.length = n ∧ a.during.length ≤ 2 ∧
      ∃ e, a.Makes (n + 2) e ∧ e.pushed 0 ≠ none := by
  obtain ⟨hanswered, hsent, hpushed, hcall⟩ := h
  obtain ⟨a, rfl, hactor, hanswers, rfl, hduring⟩ := exists_application hanswered (performed_of_sentTo hsent)
  obtain ⟨message, hpushed⟩ := Option.isSome_iff_exists.mp hpushed
  obtain ⟨e, he, hmessage⟩ := Option.bind_eq_some_iff.mp hpushed
  rw [he, Option.bind_some] at hcall
  have hlt := (List.getElem?_eq_some_iff.mp he).1
  have htwo : a.during.length = 2 := by
    rw [hduring, List.length_take, List.length_drop]
    omega
  refine ⟨a, hactor, hanswers, rfl, htwo.le, e, ⟨by omega, by omega, he, ?_⟩, ?_⟩
  · exact Option.isSome_iff_ne_none.mp hcall
  · rw [hmessage]
    exact Option.some_ne_none _

theorem crossed_run : ∃ moves s, ∃ one two : Application moves, (gatewaySystem literalSerde).Run moves s ∧
    one.Answers "request-3" ∧ two.Answers "request-4" ∧ one.actor = room ∧ two.actor = room ∧
    CommittedBefore moves "request-3" "request-4" ∧ two.Before one ∧
    (∃ e, one.Makes 47 e ∧ e.pushed 0 ≠ none) ∧ ∃ e, two.Makes 44 e ∧ e.pushed 0 ≠ none := by
  have hplay : (play literalSerde crossed initial).map (fun played => decide (
      EchoedAt played.1 45 0 "request-3" "one" ∧ EchoedAt played.1 42 1 "request-4" "two" ∧
      played.1[39]?.bind GatewayMove.commits = some "request-3" ∧
      (∀ e ∈ played.1.drop 40, e.executes ≠ some "request-3") ∧
      (∀ e ∈ played.1.take 39, e.executes ≠ some "request-4"))) = some true := by decide
  obtain ⟨⟨moves, s⟩, hs, heq⟩ := Option.map_eq_some_iff.mp hplay
  obtain ⟨hone, htwo, hcommit, hafter, hbefore⟩ := of_decide_eq_true heq
  obtain ⟨one, hactor, hanswers, hlength, -, hmakes⟩ := hone.application
  obtain ⟨two, hactor', hanswers', hlength', hduring, hmakes'⟩ := htwo.application
  obtain ⟨e, he, hcommits⟩ := Option.bind_eq_some_iff.mp hcommit
  obtain ⟨hlt, he⟩ := List.getElem?_eq_some_iff.mp he
  refine ⟨moves, s, one, two, ⟨initial, rfl, path_of_play hs⟩, hanswers, hanswers', hactor, hactor',
    ?_, ?_, hmakes, hmakes'⟩
  · refine ⟨moves.take 39, e, moves.drop 40, ?_, hcommits, hafter, hbefore⟩
    rw [← he, List.getElem_cons_drop, List.take_append_drop]
  · change two.earlier.length + two.during.length < one.earlier.length
    omega

/-- Between two connections the order of the commits is not kept. -/
theorem effects_out_of_commit_order : ¬ ∀ (serde : SerdeJson) (moves : List GatewayMove) (s : GatewayState),
    (gatewaySystem serde).Run moves s → ∀ (first second : Application moves) (r r' : String), first.Answers r →
    second.Answers r' → first.actor = second.actor → CommittedBefore moves r r' →
    EffectsInOrder s first second := by
  intro hclaim
  obtain ⟨moves, s, one, two, hrun, hone, htwo, hactor, hactor', hcommitted, -, ⟨e, he, hpushed⟩, e',
      he', hpushed'⟩ :=
    crossed_run
  have hinorder := hclaim _ moves s hrun one two _ _ hone htwo (hactor.trans hactor'.symm) hcommitted
  have hlt := hinorder.messages 0 47 44 e e' he hpushed he' hpushed'
  omega

/-- The second message is applied first. -/
theorem effects_in_application_order_crossed : ∃ moves s, ∃ one two : Application moves,
    (gatewaySystem literalSerde).Run moves s ∧ one.Answers "request-3" ∧ two.Answers "request-4" ∧
    two.Before one ∧ EffectsInOrder s two one := by
  obtain ⟨moves, s, one, two, hrun, hone, htwo, -, -, -, hbefore, -, -⟩ := crossed_run
  exact ⟨moves, s, one, two, hrun, hone, htwo, hbefore, (effects_in_application_order hrun).2.1 two one hbefore⟩

end LDO
