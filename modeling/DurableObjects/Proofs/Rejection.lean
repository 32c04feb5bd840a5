import DurableObjects.Sanity.GatewayRuns

/-! Rejected connections. A rejection is only a close message in the queue of the
connection, which is opened all the same: until its task takes that message it is chosen
for broadcasts, and a frame its client has already sent may be taken first. -/

namespace LDO

open Prog Gateway

variable {serde : SerdeJson} {s s' : GatewayState} {t : ℕ} {tr : List GatewayEvent}

namespace Gateway

/-- The connect event of connection `id` was answered with a rejection. -/
def RejectedIn (tr : List GatewayEvent) (id : String) : Prop :=
  ∃ invocation connection effects code reason, invocation.event = .connect connection ∧ connection.id = id ∧
    CompletedIn tr invocation effects ∧ .reject id code reason ∈ effects

end Gateway

structure ShutOut (s : GatewayState) (t : ℕ) (id : String) : Prop where
  /-- No message of the connection is sent to an actor host. -/
  messages : ∀ t' invocation message, s.Sent t' invocation → invocation.event ≠ .message id message
  /-- No trigger is told of a message. -/
  triggers : ∀ t' actor triggerId message,
    ⟨.deliver actor triggerId (.message id message), ()⟩ ∉ s.world.trace t'
  /-- No broadcast reaches the queue of the connection. -/
  broadcasts : ∀ t' message, ⟨.sendBroadcast t message, ()⟩ ∉ s.world.trace t'

/-- A step that neither hears the client of a rejected connection nor chooses it for a broadcast. -/
structure QuietStep (s : GatewayState) (e : GatewayMove) : Prop where
  unheard : ∀ t id frame, e = .call t ⟨.select, .inbound (some (.ok frame))⟩ → RejectedIn (s.world.trace t) id →
    frame.isData = false
  unchosen : ∀ t actor exceptConnectionIds tags recipients channel id,
    e = .call t ⟨.recipients actor exceptConnectionIds tags, recipients⟩ →
    RejectedIn (s.world.trace channel) id →
    channel ∉ s.world.registry.recipients actor exceptConnectionIds tags

/-- The client of a rejected connection was not heard, and no broadcast was meant for it. -/
structure QuietOk (s : GatewayState) : Prop where
  unheard : ∀ t id, RejectedIn (s.world.trace t) id → ¬ Heard (s.world.trace t)
  unchosen : ∀ t t' id, RejectedIn (s.world.trace t) id → ¬ Chosen (s.world.trace t') t

theorem GatewayOk.rejected_drew (hok : GatewayOk s) {id : String} (h : RejectedIn (s.world.trace t) id) :
    Drew (s.world.trace t) id := by
  obtain ⟨invocation, connection, effects, code, reason, hc, rfl, ⟨target, result, hm⟩, -⟩ := h
  obtain ⟨before, hsub, -, hevent⟩ := hok.sent (.inl ⟨target, _, hm⟩)
  unfold EventOk at hevent
  rw [hc] at hevent
  exact hevent.1.mono hsub

theorem QuietOk.shutOut (hok : GatewayOk s) (hq : QuietOk s) {id : String}
    (h : RejectedIn (s.world.trace t) id) :
    ShutOut s t id := by
  have hdrew := hok.rejected_drew h
  -- a message of the connection comes from its own task, which would have heard it
  have hheard : ∀ {t'}, Drew (s.world.trace t') id → ¬ Heard (s.world.trace t') := by
    intro t' hdrew'
    obtain rfl := hok.drew_inj hdrew hdrew'
    exact hq.unheard t id h
  refine ⟨fun t' invocation message hs hm => ?_, fun t' actor triggerId message hm => ?_,
    fun t' message hm => ?_⟩
  · obtain ⟨before, hsub, -, hevent⟩ := hok.sent hs
    unfold EventOk at hevent
    rw [hm] at hevent
    exact hheard (hevent.1.mono hsub) (hevent.2.mono hsub)
  · obtain ⟨before, later, heq⟩ := List.append_of_mem hm
    obtain ⟨hdrew', hheard'⟩ := hok.history t' before _ later heq id message rfl
    have hsub : before ⊆ s.world.trace t' := by
      rw [heq]
      exact List.subset_append_left _ _
    exact hheard (hdrew'.mono hsub) (hheard'.mono hsub)
  · obtain ⟨before, later, heq⟩ := List.append_of_mem hm
    obtain ⟨actor, exceptConnectionIds, tags, recipients, hm', hc⟩ := hok.history t' before _ later heq
    refine hq.unchosen t t' id h ⟨actor, exceptConnectionIds, tags, recipients, ?_, hc⟩
    rw [heq]
    exact List.mem_append_left _ hm'

/-! ### Runs -/

section Call

variable {task : GatewayTask} {op : GatewayOp} {next : op.Res → GatewayM Stage} {r : op.Res}

theorem rejectedIn_snoc {e : GatewayEvent} {id : String} (h : RejectedIn (tr ++ [e]) id) : RejectedIn tr id ∨
    ∃ target invocation connection result effects,
      e = ⟨.sendSocketEvent target invocation, .ok (.completed result effects)⟩ ∧
      invocation.event = .connect connection := by
  obtain ⟨invocation, connection, effects, code, reason, hc, hid, hdone, hm⟩ := h
  rcases completedIn_snoc.mp hdone with hdone | ⟨target, result, heq⟩
  · exact .inl ⟨invocation, connection, effects, code, reason, hc, hid, hdone, hm⟩
  · exact .inr ⟨target, invocation, connection, result, effects, heq, hc⟩

/-- A connection is rejected before it is heard and before it is opened. -/
theorem rejectedIn_answered (hok : GatewayOk s) (ht : s.tasks t = some (task, .call op next)) {j : ℕ}
    {id : String} (h : RejectedIn ((s.answered t task op r next).world.trace j) id) :
    RejectedIn (s.world.trace j) id ∨
      (j = t ∧ ∃ target invocation, op = .sendSocketEvent target invocation) ∧ ¬ Heard (s.world.trace j) ∧
        ¬ Activated (s.world.trace j) := by
  by_cases hj : j = t
  · subst hj
    rw [trace_answered] at h
    refine (rejectedIn_snoc h).imp_right ?_
    rintro ⟨target, invocation, connection, result, effects, heq, hc⟩
    cases heq
    have hevent : EventOk (s.world.trace j) invocation := (hok.tasks j task _ ht).1.2
    unfold EventOk at hevent
    rw [hc] at hevent
    exact ⟨⟨rfl, target, invocation, rfl⟩, hevent.2.1, hevent.2.2.1⟩
  · rw [trace_answered_ne hj] at h
    exact .inl h

theorem heard_answered {j : ℕ} (h : Heard ((s.answered t task op r next).world.trace j)) :
    Heard (s.world.trace j) ∨
    j = t ∧ ∃ frame, (⟨op, r⟩ : GatewayEvent) = ⟨.select, .inbound (some (.ok frame))⟩ ∧
    frame.isData = true := by
  obtain ⟨frame, hm, hdata⟩ := h
  rcases mem_trace_answered hm with hm | ⟨rfl, heq⟩
  · exact .inl ⟨frame, hm, hdata⟩
  · exact .inr ⟨rfl, frame, heq.symm, hdata⟩

theorem chosen_answered {j channel : ℕ} (h : Chosen ((s.answered t task op r next).world.trace j) channel) :
    Chosen (s.world.trace j) channel ∨ ∃ actor exceptConnectionIds tags recipients,
      (⟨op, r⟩ : GatewayEvent) = ⟨.recipients actor exceptConnectionIds tags, recipients⟩ ∧
      channel ∈ recipients := by
  obtain ⟨actor, exceptConnectionIds, tags, recipients, hm, hc⟩ := h
  rcases mem_trace_answered hm with hm | ⟨rfl, heq⟩
  · exact .inl ⟨actor, exceptConnectionIds, tags, recipients, hm, hc⟩
  · exact .inr ⟨actor, exceptConnectionIds, tags, recipients, heq.symm, hc⟩

theorem quietOk_call (hok : GatewayOk s) (hq : QuietOk s) (ht : s.tasks t = some (task, .call op next))
    (ha : s.world.Allows t op r) (hcond : QuietStep s (.call t ⟨op, r⟩)) :
    QuietOk (s.answered t task op r next) := by
  refine ⟨fun j id hrej hheard => ?_, fun j j' id hrej hchosen => ?_⟩
  · rcases rejectedIn_answered hok ht hrej with hold | ⟨⟨rfl, target, invocation, rfl⟩, hnot, -⟩
    · rcases heard_answered hheard with hheard | ⟨hj, frame, heq, hdata⟩
      · exact hq.unheard j id hold hheard
      · have hquiet := hcond.unheard j id frame (by rw [hj, heq]) hold
        exact absurd hdata (by simp [hquiet])
    · rcases heard_answered hheard with hheard | ⟨-, frame, heq, -⟩
      · exact hnot hheard
      · cases heq
  · rcases rejectedIn_answered hok ht hrej with hold | ⟨⟨rfl, target, invocation, rfl⟩, -, hnot⟩
    · rcases chosen_answered hchosen with hchosen | ⟨actor, exceptConnectionIds, tags, recipients, heq, hc⟩
      · exact hq.unchosen j j' id hold hchosen
      · cases heq
        exact hcond.unchosen t actor exceptConnectionIds tags recipients j id rfl hold
          ((List.Perm.mem_iff ha).mp hc)
    · rcases chosen_answered hchosen with hchosen | ⟨actor, exceptConnectionIds, tags, recipients, heq, hc⟩
      · exact hnot (hok.chosen j' j hchosen)
      · cases heq

end Call

theorem quietOk_step {e : GatewayMove} (hok : GatewayOk s) (hq : QuietOk s) (hs : GatewayStep serde s e s')
    (hcond : QuietStep s e) : QuietOk s' := by
  cases hs with
  | call ht ha => exact quietOk_call hok hq ht ha hcond
  | _ => exact ⟨hq.unheard, hq.unchosen⟩

/-- A rejected connection is shut out of every run that neither hears it nor chooses it. -/
theorem rejected_is_shut_out (hs : ((gatewaySystem serde).restrict fun s e _ => QuietStep s e).Reachable s) :
    ∀ t id, RejectedIn (s.world.trace t) id → ShutOut s t id := by
  have hinv : GatewayOk s ∧ QuietOk s := by
    refine hs.invariant (I := fun s => GatewayOk s ∧ QuietOk s) ?_ ?_
    · rintro s rfl
      refine ⟨gatewayOk_init, ?_, ?_⟩
      · rintro t id - ⟨frame, hm, -⟩
        cases hm
      · rintro t t' id - ⟨_, _, _, _, hm, -⟩
        cases hm
    · intro s e s' h hstep
      exact ⟨gatewayOk_step h.1 hstep.1, quietOk_step h.1 h.2 hstep.1 hstep.2⟩
  exact fun t id h => hinv.2.shutOut hinv.1 h

/-! ### A client that speaks too soon, and one that does not -/

def turnedAway : List ActorSocketEffect := [.reject "connection-1" 3000 "closed"]

/-- The room turns a client away: its queue holds the close message, and its connection is open. -/
def rejected : List Command :=
  arrives 0 "connection-1" "request-1" ++ handled 0 turnedAway ++ goes 0 3 ++ [.proceed 0]

/-- Its first frame is taken before the close message. -/
def spokeFirst : List Command :=
  rejected ++ [selects 0 (.inbound (some (.ok (.text "hi"))))] ++ goes 0 1 ++ [draws 0 "request-2"] ++ goes 0 3

/-- The close message is taken first. -/
def closedFirst : List Command :=
  rejected ++ [selects 0 (.outbound (some (.close 3000 "closed")))] ++ goes 0 1

def isCompleted (invocation : ActorSocketInvocation) (effects : List ActorSocketEffect) : GatewayEvent → Bool
  | ⟨.sendSocketEvent _ invocation', .ok (.completed _ effects')⟩ =>
      decide (invocation' = invocation ∧ effects' = effects)
  | _ => false

theorem completedIn_of_any {invocation : ActorSocketInvocation} {effects : List ActorSocketEffect}
    (h : tr.any (isCompleted invocation effects) = true) : CompletedIn tr invocation effects := by
  obtain ⟨e, hm, he⟩ := List.any_eq_true.mp h
  unfold isCompleted at he
  split at he
  · obtain ⟨rfl, rfl⟩ := of_decide_eq_true he
    exact ⟨_, _, hm⟩
  · cases he

theorem rejectedIn_of_any (h : tr.any (isCompleted admission turnedAway) = true) :
    RejectedIn tr "connection-1" :=
  ⟨admission, _, turnedAway, 3000, "closed", rfl, rfl, completedIn_of_any h, by simp [turnedAway]⟩

/-- A message of a rejected client is sent to an actor host. -/
theorem rejected_client_is_heard :
    ¬ ∀ (serde : SerdeJson) (s : GatewayState), (gatewaySystem serde).Reachable s →
    ∀ t id, RejectedIn (s.world.trace t) id → ShutOut s t id := by
  intro hclaim
  have hrun : (run literalSerde unchecked spokeFirst initial).map (fun s => decide
      ((s.world.trace 0).any (isCompleted admission turnedAway) = true ∧
        (waitsFor s 0).map (·.event) = some (.message "connection-1" (.text "hi")))) = some true := by decide
  obtain ⟨s, hs, heq⟩ := Option.map_eq_some_iff.mp hrun
  obtain ⟨hrej, hwaits⟩ := of_decide_eq_true heq
  obtain ⟨invocation, hw, hevent⟩ := Option.map_eq_some_iff.mp hwaits
  have hshut := hclaim literalSerde s (reachable_of_unchecked hs) 0 "connection-1" (rejectedIn_of_any hrej)
  exact hshut.messages 0 invocation _ (.inr (waiting_of_waitsFor hw)) hevent

/-- A check that a step is quiet. -/
def quiet (_ : GatewayState) (_ : Command) : GatewayMove → Bool
  | .call _ ⟨.select, .inbound (some (.ok frame))⟩ => !frame.isData
  | .call _ ⟨.recipients .., _⟩ => false
  | _ => true

theorem quiet_sound {c : Command} {e : GatewayMove} (h : quiet s c e = true) : QuietStep s e := by
  refine ⟨?_, ?_⟩
  · rintro t id frame rfl -
    simpa [quiet] using h
  · rintro t actor exceptConnectionIds tags recipients channel id rfl
    cases h

theorem rejected_is_shut_out_room :
    ∃ s, ((gatewaySystem literalSerde).restrict fun s e _ => QuietStep s e).Reachable s ∧
    RejectedIn (s.world.trace 0) "connection-1" ∧ ShutOut s 0 "connection-1" := by
  have hrun : (run literalSerde quiet closedFirst initial).map (fun s =>
      (s.world.trace 0).any (isCompleted admission turnedAway)) = some true := by decide
  obtain ⟨s, hs, heq⟩ := Option.map_eq_some_iff.mp hrun
  have hreach : ((gatewaySystem literalSerde).restrict fun s e _ => QuietStep s e).Reachable s :=
    reachable_of_run (fun _ _ => quiet_sound) hs ⟨[], _, rfl, .nil _⟩
  have hrej := rejectedIn_of_any heq
  exact ⟨s, hreach, hrej, rejected_is_shut_out hreach 0 "connection-1" hrej⟩

end LDO
