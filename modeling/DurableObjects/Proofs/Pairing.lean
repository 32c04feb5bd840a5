import DurableObjects.Sanity.GatewayRuns

/-! Connect and disconnect. A connection that was opened says goodbye when it ends, but the
gateway tells "opened" by the answer it gets: a connect event that was committed and whose
answer is lost is never followed by a disconnect, and a disconnect is not sent when the
credential has expired or the actor's host cannot be found. -/

namespace LDO

open Prog Gateway

variable {serde : SerdeJson} {s s' : GatewayState} {t : ℕ} {invocation : ActorSocketInvocation} {tr : List GatewayEvent}
  {α : Type}

/-! ### One goodbye -/

def ActorSocketInvocation.DisconnectOf (invocation : ActorSocketInvocation) (id : String) : Prop :=
  ∃ connection code reason wasClean, invocation.event = .disconnect connection code reason wasClean ∧
    connection.id = id

structure Paired (s : GatewayState) : Prop where
  /-- When the task of a committed connect has ended, one disconnect event was sent. -/
  left : ∀ t invocation connection, s.Sent t invocation → invocation.event = .connect connection → s.Ended t →
    invocation.requestId ∈ s.world.committed →
    ∃! invocation', (∃ t', s.Sent t' invocation') ∧ invocation'.DisconnectOf connection.id
  /-- Whoever leaves was connected by an actor host. -/
  came : ∀ t invocation id, s.Sent t invocation → invocation.DisconnectOf id →
    ∃ t' invocation' connection, s.Sent t' invocation' ∧ invocation'.event = .connect connection ∧
      connection.id = id ∧ invocation'.requestId ∈ s.world.executed

theorem GatewayOk.disconnect (hok : GatewayOk s) {id : String} (hs : s.Sent t invocation)
    (hd : invocation.DisconnectOf id) : Drew (s.world.trace t) id ∧ Connected (s.world.trace t) id := by
  obtain ⟨before, hsub, -, hevent⟩ := hok.sent hs
  obtain ⟨connection, code, reason, wasClean, heq, rfl⟩ := hd
  unfold EventOk at hevent
  rw [heq] at hevent
  exact ⟨hevent.1.mono hsub, hevent.2.1.mono hsub⟩

theorem GatewayOk.came (hok : GatewayOk s) {id : String} (hs : s.Sent t invocation)
    (hd : invocation.DisconnectOf id) :
    ∃ t' invocation' connection, s.Sent t' invocation' ∧ invocation'.event = .connect connection ∧
      connection.id = id ∧ invocation'.requestId ∈ s.world.executed := by
  obtain ⟨-, invocation', connection, effects, hevent, hid, hc, -⟩ := hok.disconnect hs hd
  refine ⟨t, invocation', connection, .inl ?_, hevent, hid, hok.completed t invocation' effects hc⟩
  obtain ⟨target, result, hm⟩ := hc
  exact ⟨target, _, hm⟩

/-! ### A goodbye that goes out -/

/-- No disconnect event was sent yet. -/
def NotLeft (tr : List GatewayEvent) : Prop := ∀ invocation, SentIn tr invocation → ¬ invocation.IsDisconnect

/-- The credential has not expired, and the actor's host is found. -/
def Promptly (principal : ActorPrincipal) : GatewayEvent → Prop
  | ⟨.unixSeconds, r⟩ => ∃ now, r = .ok now ∧ now < principal.expiresAt
  | ⟨.resolveTarget .., r⟩ => ∃ target, r = .ok target
  | _ => True

/-- A task whose goodbye is not held up. -/
def leaveEnv (principal : ActorPrincipal) : Env GatewayOp GatewayOp.Res (List GatewayEvent) where
  ok _ _ := True
  step tr op r tr' := (NotLeft tr → Promptly principal ⟨op, r⟩) ∧ tr' = tr ++ [⟨op, r⟩]

def Left (tr : List GatewayEvent) : Prop := ∃ invocation, SentIn tr invocation ∧ invocation.IsDisconnect

variable {principal : ActorPrincipal}

theorem Left.snoc {e : GatewayEvent} (h : Left tr) : Left (tr ++ [e]) := by
  obtain ⟨invocation, hs, hd⟩ := h
  exact ⟨invocation, hs.mono (List.subset_append_left _ _), hd⟩

theorem NotLeft.snoc {op : GatewayOp} {r : op.Res} (h : NotLeft tr)
    (hop : ∀ target invocation, op ≠ .sendSocketEvent target invocation) : NotLeft (tr ++ [⟨op, r⟩]) := by
  intro invocation hs
  rcases hs.of_snoc with hs | ⟨target, heq⟩
  · exact h invocation hs
  · exact (hop target invocation heq).elim

theorem wp_left (p : GatewayM α) (h : Left tr) : wp (leaveEnv principal) p (fun _ tr' => Left tr') tr := by
  induction p generalizing tr with
  | ret a => exact h
  | call op next ih =>
    refine ⟨trivial, fun r tr' hs => ?_⟩
    obtain ⟨-, rfl⟩ := hs
    exact ih r h.snoc

theorem wp_promptly {op : GatewayOp} {f : op.Res → GatewayM α} {Q : α → List GatewayEvent → Prop}
    (h : NotLeft tr)
    (hf : ∀ r, Promptly principal ⟨op, r⟩ → wp (leaveEnv principal) (f r) Q (tr ++ [⟨op, r⟩])) :
    wp (leaveEnv principal) (ask op >>= f) Q tr := by
  refine ⟨trivial, fun r tr' hs => ?_⟩
  obtain ⟨hprompt, rfl⟩ := hs
  exact hf r (hprompt h)

theorem wp_socketTarget {actor : ActorKey} (hactor : actor.validate = .ok ())
    (hauth : principal.processRole = .workflow ∧ principal.scope.contains actor) (h : NotLeft tr) :
    wp (leaveEnv principal) (socketTarget principal actor).run
      (fun r tr' => NotLeft tr' ∧ ∃ target, r = .ok target) tr := by
  have hresolve : ∀ {tr'}, NotLeft tr' → wp (leaveEnv principal) (resolveTarget principal actor).run
      (fun r tr' => NotLeft tr' ∧ ∃ target, r = .ok target) tr' := by
    intro tr' h'
    refine ⟨trivial, fun r tr'' hs => ?_⟩
    obtain ⟨hprompt, rfl⟩ := hs
    refine ⟨h'.snoc ?_, hprompt h'⟩
    exact fun _ _ heq => by cases heq
  unfold socketTarget
  rw [hactor, show ensure (principal.processRole = .workflow ∧ principal.scope.contains actor)
    "workflow token cannot resolve this actor" = .ok () from if_pos hauth]
  refine wp_except_bind (wp_except_bind ?_)
  refine wp_except_bind (wp_promptly h fun r hr => ?_)
  obtain ⟨now, rfl, hnow⟩ := hr
  have h₁ : NotLeft (tr ++ [⟨.unixSeconds, .ok now⟩]) := h.snoc fun _ _ heq => by cases heq
  refine wp_except_bind ?_
  rw [show ensure (now < principal.expiresAt) "workflow token has expired" = .ok () from if_pos hnow]
  refine wp_except_bind (wp_promptly h₁ fun cached _ => ?_)
  have h₂ : NotLeft (tr ++ [⟨.unixSeconds, .ok now⟩] ++ [⟨.cachedTarget (targetKey principal actor), cached⟩]) :=
    h₁.snoc fun _ _ heq => by cases heq
  cases cached with
  | none => exact hresolve h₂
  | some target =>
    refine wp_except_ite (fun _ => ⟨h₂, target, rfl⟩) fun _ => ?_
    refine wp_except_bind (wp_promptly h₂ fun _ _ => hresolve ?_)
    exact h₂.snoc fun _ _ heq => by cases heq

theorem wp_dispatchAttempts_left {n : ℕ} (hactor : invocation.actor.validate = .ok ())
    (hauth : principal.processRole = .workflow ∧ principal.scope.contains invocation.actor)
    (hd : invocation.IsDisconnect) (h : NotLeft tr) :
    wp (leaveEnv principal) (dispatchAttempts principal invocation (n + 1)).run (fun _ tr' => Left tr') tr := by
  refine wp_except_bind (wp_mono (wp_socketTarget hactor hauth h) fun r tr₁ h₁ => ?_)
  obtain ⟨h₁, target, rfl⟩ := h₁
  refine wp_except_bind (wp_promptly h₁ fun answer _ => ?_)
  exact wp_left _ ⟨invocation, ⟨target, answer, by simp⟩, hd⟩

theorem wp_leave_left {connection : ActorSocketConnection} (access : SocketAccess) (disconnect : Disconnect)
    (h : NotLeft tr) :
    wp (leaveEnv access.principal) (leave access connection disconnect) (fun _ tr' => Left tr') tr := by
  refine wp_seq ?_ fun _ tr' h' => wp_left _ h'
  -- the event is prepared, its request is named, and then it is sent
  refine wp_promptly h fun removed _ => wp_promptly (h.snoc fun _ _ heq => by cases heq) fun connections _ => ?_
  refine wp_promptly ((h.snoc fun _ _ heq => by cases heq).snoc fun _ _ heq => by cases heq) fun requestId _ => ?_
  refine wp_seq (wp_dispatchAttempts_left access.actor_valid access.authorized ⟨_, _, _, _, rfl⟩ ?_) fun _ _ h' => wp_left _ h'
  exact ((h.snoc fun _ _ heq => by cases heq).snoc fun _ _ heq => by cases heq).snoc fun _ _ heq => by cases heq

/-! ### Runs -/

/-- The connect event of task `t` was committed. -/
def GatewayState.Admitted (s : GatewayState) (t : ℕ) : Prop :=
  ∃ invocation connection, s.Sent t invocation ∧ invocation.event = .connect connection ∧
    invocation.requestId ∈ s.world.committed

/-- A step that lets connections that were connected leave in order. -/
structure Orderly (s : GatewayState) (e : GatewayMove) : Prop where
  /-- A connect event that was committed is answered so. -/
  answered : ∀ t target invocation connection r, e = .call t ⟨.sendSocketEvent target invocation, r⟩ →
    invocation.event = .connect connection → invocation.requestId ∈ s.world.committed →
    ∃ result effects, r = .ok (.completed result effects) ∧ validateSocketEffects effects = .ok ()
  /-- A connect event is committed while its task waits for the answer. -/
  awaited : ∀ t invocation connection, e = .commit invocation.requestId → s.Sent t invocation →
    invocation.event = .connect connection → s.Waiting t invocation
  /-- A connection that was connected leaves before its credential expires, and its actor's host is found. -/
  prompt : ∀ t event access connection disconnect p, e = .call t event →
    s.tasks t = some (.connection access (.leaving connection disconnect), p) → s.Admitted t →
    NotLeft (s.world.trace t) → Promptly access.principal event

structure PairOk (s : GatewayState) : Prop where
  pending : ∀ t invocation connection, s.Sent t invocation → invocation.event = .connect connection →
    invocation.requestId ∈ s.world.committed →
    s.Waiting t invocation ∨ ∃ effects, CompletedIn (s.world.trace t) invocation effects ∧
      validateSocketEffects effects = .ok ()
  leaving : ∀ t access connection disconnect p,
    s.tasks t = some (.connection access (.leaving connection disconnect), p) → s.Admitted t →
    wp (leaveEnv access.principal) p (fun _ tr => Left tr) (s.world.trace t)

theorem GatewayOk.paired (hok : GatewayOk s) (hpair : PairOk s) : Paired s := by
  refine ⟨fun t invocation connection hs hc hend hcommit => ?_, fun t invocation id hs hd => hok.came hs hd⟩
  obtain ⟨task, ht⟩ := hend
  have hconn : Connected (s.world.trace t) connection.id := by
    rcases hpair.pending t invocation connection hs hc hcommit with ⟨task', target, next, ht'⟩ |
      ⟨effects, hdone, hvalid⟩
    · cases ht.symm.trans ht'
    · exact ⟨invocation, connection, effects, hc, rfl, hdone, hvalid⟩
  have hend : TaskEnd task (s.world.trace t) .ended := hok.tasks t task _ ht
  -- only a connection that is leaving ends after it was connected
  have hleft : Left (s.world.trace t) := by
    cases task with
    | applyEffects actor effects =>
      exact (not_connected_of_sentIn (fun _ => not_sentIn_of_idle ((hok.posts t actor effects _ ht).2.mono fun _ => Applying.idle)) hconn).elim
    | connection access stage =>
      cases stage with
      | opening => exact (hend connection.id hconn).elim
      | serving _ => exact hend.elim
      | leaving c d => exact hpair.leaving t access c d _ ht ⟨invocation, connection, hs, hc, hcommit⟩
      | ended => exact hend.elim
  obtain ⟨invocation', hs', hd'⟩ := hleft
  have hsent' : s.Sent t invocation' := .inl hs'
  obtain ⟨connection', code, reason, wasClean, hevent⟩ := hd'
  refine ⟨invocation', ⟨⟨t, hsent'⟩, connection', code, reason, wasClean, hevent, ?_⟩, ?_⟩
  · obtain ⟨-, invocation'', connection'', effects, hc'', hid, ⟨target, result, hm⟩, -⟩ :=
      hok.disconnect hsent' ⟨connection', code, reason, wasClean, hevent, rfl⟩
    obtain rfl := hok.connect_unique (.inl ⟨target, _, hm⟩) hc'' hs hc
    cases hc''.symm.trans hc
    exact hid.symm
  · rintro invocation'' ⟨⟨t', hs''⟩, hd''⟩
    have hdrew := (hok.disconnect hs'' hd'').1
    have hdrew' : Drew (s.world.trace t) connection.id := by
      obtain ⟨before, hsub, -, hbefore⟩ := hok.sent hs
      unfold EventOk at hbefore
      rw [hc] at hbefore
      exact hbefore.1.mono hsub
    obtain rfl := hok.drew_inj hdrew hdrew'
    obtain ⟨c, code', reason', wasClean', hevent', -⟩ := hd''
    exact hok.disconnect_unique hs'' ⟨c, code', reason', wasClean', hevent'⟩ hsent' ⟨_, _, _, _, hevent⟩

/-- A step that calls nothing: one task has a new program, and sends no connect event. -/
theorem PairOk.setTask (hpair : PairOk s) {task : GatewayTask} {p : GatewayM Stage}
    (hbefore : ∀ invocation, ¬ s.Waiting t invocation)
    (hafter : ∀ invocation connection, invocation.event = .connect connection →
      ¬ GatewayState.Waiting { s with tasks := Function.update s.tasks t (some (task, p)) } t invocation)
    (hleaving : ∀ access connection disconnect, task = .connection access (.leaving connection disconnect) →
      wp (leaveEnv access.principal) p (fun _ tr => Left tr) (s.world.trace t)) :
    PairOk { s with tasks := Function.update s.tasks t (some (task, p)) } := by
  have hother : ∀ {j}, j ≠ t → Function.update s.tasks t (some (task, p)) j = s.tasks j :=
    fun hj => by simp [hj]
  have hsent : ∀ {j invocation connection}, invocation.event = .connect connection →
      GatewayState.Sent { s with tasks := Function.update s.tasks t (some (task, p)) } j invocation →
      s.Sent j invocation := by
    rintro j invocation connection hc (hm | hw)
    · exact .inl hm
    · by_cases hj : j = t
      · subst hj
        exact (hafter invocation connection hc hw).elim
      · obtain ⟨task', target, next, ht⟩ := hw
        exact .inr ⟨task', target, next, (hother hj).symm.trans ht⟩
  refine ⟨fun j invocation connection hs hc hcommit => ?_, fun j access connection disconnect q hq hadm => ?_⟩
  · refine (hpair.pending j invocation connection (hsent hc hs) hc hcommit).imp (fun hw => ?_) id
    obtain ⟨task', target, next, ht⟩ := hw
    have hj : j ≠ t := by
      rintro rfl
      exact hbefore invocation ⟨task', target, next, ht⟩
    exact ⟨task', target, next, (hother hj).trans ht⟩
  · by_cases hj : j = t
    · subst hj
      obtain ⟨rfl, rfl⟩ : task = .connection access (.leaving connection disconnect) ∧ p = q :=
        by simpa using hq
      exact hleaving access connection disconnect rfl
    · obtain ⟨invocation, c, hs, hc, hcommit⟩ := hadm
      exact hpair.leaving j access connection disconnect q ((hother hj).symm.trans hq)
        ⟨invocation, c, hsent hc hs, hc, hcommit⟩

theorem pairOk_call {task : GatewayTask} {op : GatewayOp} {next : op.Res → GatewayM Stage} {r : op.Res}
    (hok' : GatewayOk (s.answered t task op r next)) (hpair : PairOk s)
    (ht : s.tasks t = some (task, .call op next)) (hcond : Orderly s (.call t ⟨op, r⟩)) :
    PairOk (s.answered t task op r next) := by
  have hcommitted : (s.answered t task op r next).world.committed = s.world.committed :=
    (after_same s.world t op r).2.2
  have hsub := trace_subset s t task op r next
  have hother : ∀ {j}, j ≠ t → (s.answered t task op r next).tasks j = s.tasks j := by
    intro j hj
    simp [GatewayState.answered, hj]
  have hwaiting : ∀ {j invocation}, j ≠ t →
      ((s.answered t task op r next).Waiting j invocation ↔ s.Waiting j invocation) := by
    intro j invocation hj
    simp only [GatewayState.Waiting, hother hj]
  -- an event that was sent before the call, or that the call sends, or that comes next
  have hsent : ∀ {j invocation}, (s.answered t task op r next).Sent j invocation →
      s.Sent j invocation ∨ (s.answered t task op r next).Waiting j invocation := by
    rintro j invocation (⟨target, r', hm⟩ | hw)
    · rcases mem_trace_answered hm with hm | ⟨rfl, heq⟩
      · exact .inl (.inl ⟨target, r', hm⟩)
      · cases heq
        exact .inl (.inr ⟨task, target, next, ht⟩)
    · exact .inr hw
  refine ⟨fun j invocation connection hs hc hcommit => ?_, fun j access connection disconnect p hj hadm => ?_⟩
  · rw [hcommitted] at hcommit
    rcases hsent hs with hs | hw
    · rcases hpair.pending j invocation connection hs hc hcommit with hw | ⟨effects, hdone, hvalid⟩
      · by_cases hjt : j = t
        · subst hjt
          obtain ⟨task', target, next', ht'⟩ := hw
          cases ht.symm.trans ht'
          obtain ⟨result, effects, rfl, hvalid⟩ :=
            hcond.answered j target invocation connection r rfl hc hcommit
          refine .inr ⟨effects, ⟨target, result, ?_⟩, hvalid⟩
          rw [trace_answered]
          simp
        · exact .inl ((hwaiting hjt).mpr hw)
      · exact .inr ⟨effects, hdone.mono (hsub j), hvalid⟩
    · exact .inl hw
  · have hact : Activated ((s.answered t task op r next).world.trace j) :=
      hok'.activated j access _ p hj (fun h => by cases h)
    have hadm' : s.Admitted j := by
      obtain ⟨invocation, c, hs, hc, hcommit⟩ := hadm
      refine ⟨invocation, c, ?_, hc, hcommitted ▸ hcommit⟩
      exact (hsent hs).resolve_right (hok'.not_waiting hact hc)
    by_cases hjt : j = t
    · subst hjt
      obtain ⟨rfl, rfl⟩ : task = .connection access (.leaving connection disconnect) ∧ next r = p := by
        simpa [GatewayState.answered] using hj
      refine (hpair.leaving j access connection disconnect _ ht hadm').2 r _ ⟨fun hnot => ?_, trace_answered ..⟩
      exact hcond.prompt j _ access connection disconnect _ rfl ht hadm' hnot
    · rw [trace_answered_ne hjt]
      exact hpair.leaving j access connection disconnect p ((hother hjt).symm.trans hj) hadm'

theorem pairOk_step {e : GatewayMove} (hok : GatewayOk s) (hpair : PairOk s) (hs : GatewayStep serde s e s')
    (hcond : Orderly s e) : PairOk s' := by
  have hok' : GatewayOk s' := gatewayOk_step hok hs
  cases hs with
  | @connect t access hfree =>
    refine hpair.setTask ?_ (fun _ _ => hok'.not_waiting_new (hok.unused t hfree)) ?_
    · rintro invocation ⟨task, target, next, ht⟩
      cases hfree.symm.trans ht
    · exact fun _ _ _ h => by cases h
  | @post t actor effects hfree _ _ =>
    refine hpair.setTask ?_ (fun _ _ => hok'.not_waiting_new (hok.unused t hfree)) ?_
    · rintro invocation ⟨task, target, next, ht⟩
      cases hfree.symm.trans ht
    · exact fun _ _ _ h => by cases h
  | call ht ha => exact pairOk_call hok' hpair ht hcond
  | @proceed t access stage stage' ht hne =>
    have hend : StageEnd stage (s.world.trace t) stage' := hok.tasks t _ _ ht
    have hact : Activated (s.world.trace t) := by
      cases stage' with
      | opening => exact hend.elim
      | serving connection => exact hend.activated
      | leaving connection disconnect => exact hend.activated
      | ended => exact (hne rfl).elim
    refine hpair.setTask ?_ (fun _ _ => hok'.not_waiting hact) ?_
    · rintro invocation ⟨task, target, next, ht'⟩
      cases ht.symm.trans ht'
    · rintro access' connection disconnect heq
      cases heq
      exact wp_leave_left access disconnect hend.present
  | @drop t actor effects p ht _ =>
    refine hpair.setTask ?_ ?_ ?_
    · rintro invocation ⟨task, target, next, ht'⟩
      cases ht.symm.trans ht'
      exact (hok.posts t actor effects _ ht).1.1
    · rintro invocation connection - ⟨task, target, next, ht'⟩
      simp at ht'
    · exact fun _ _ _ h => by cases h
  | execute _ => exact ⟨hpair.pending, hpair.leaving⟩
  | @commit requestId _ =>
    refine ⟨fun t invocation connection hs hc hcommit => ?_, fun t access connection disconnect p ht hadm => ?_⟩
    · rcases List.mem_cons.mp hcommit with heq | hcommit
      · exact .inl (hcond.awaited t invocation connection (by rw [heq]) hs hc)
      · exact hpair.pending t invocation connection hs hc hcommit
    · have hact : Activated (s.world.trace t) := hok.activated t access _ p ht fun h => by cases h
      obtain ⟨invocation, c, hs, hc, hcommit⟩ := hadm
      rcases List.mem_cons.mp hcommit with heq | hcommit
      · exact (hok.not_waiting hact hc (hcond.awaited t invocation c (by rw [heq]) hs hc)).elim
      · exact hpair.leaving t access connection disconnect p ht ⟨invocation, c, hs, hc, hcommit⟩

/-- Connect and disconnect are paired in every run in which connections leave in order. -/
theorem connect_disconnect_paired (hs : ((gatewaySystem serde).restrict fun s e _ => Orderly s e).Reachable s) :
    Paired s := by
  have hinv : GatewayOk s ∧ PairOk s := by
    refine hs.invariant (I := fun s => GatewayOk s ∧ PairOk s) ?_ ?_
    · rintro s rfl
      refine ⟨gatewayOk_init, ?_, ?_⟩
      · rintro t invocation connection (⟨_, _, hm⟩ | ⟨_, _, _, ht⟩)
        · cases hm
        · cases ht
      · intro t access connection disconnect p ht
        cases ht
    · intro s e s' h hstep
      exact ⟨gatewayOk_step h.1 hstep.1, pairOk_step h.1 h.2 hstep.1 hstep.2⟩
  exact hinv.1.paired hinv.2

/-! ### Runs that go wrong, and one that does not -/

/-- The room lets a client in, the client hangs up, and the goodbye is about to be sent. -/
def visited : List Command :=
  arrives 0 "connection-1" "request-1" ++ handled 0 [] ++ goes 0 1 ++ [.proceed 0] ++ hangsUp 0 ++ goes 0 2 ++
    [draws 0 "request-2"]

/-- The credential has expired in the meantime. -/
def stayedTooLong : List Command := visited ++ [reads 0 100] ++ goes 0 1

/-- The goodbye is sent and handled. -/
def leftInTime : List Command :=
  visited ++ goes 0 3 ++ [.execute 0, replied 0 (.ok (.completed .null []))] ++ goes 0 1

def sends : GatewayEvent → Option ActorSocketInvocation
  | ⟨.sendSocketEvent _ invocation, _⟩ => some invocation
  | _ => none

/-- What task `t` has sent. -/
def sentBy (s : GatewayState) (t : ℕ) : List ActorSocketInvocation := (s.world.trace t).filterMap sends

def hasEnded (s : GatewayState) (t : ℕ) : Bool :=
  match s.tasks t with
  | some (_, .ret .ended) => true
  | _ => false

theorem sentIn_iff : SentIn tr invocation ↔ invocation ∈ tr.filterMap sends := by
  simp only [SentIn, List.mem_filterMap]
  constructor
  · rintro ⟨target, r, hm⟩
    exact ⟨_, hm, rfl⟩
  · rintro ⟨⟨op, r⟩, hm, hs⟩
    cases op with
    | sendSocketEvent target invocation' =>
      cases hs
      exact ⟨target, r, hm⟩
    | _ => cases hs

theorem ended_of_hasEnded (h : hasEnded s t = true) : s.Ended t := by
  unfold hasEnded at h
  split at h
  · exact ⟨_, ‹_›⟩
  · cases h

/-- A client that was let in leaves without a goodbye. -/
theorem left_without_goodbye :
    ¬ ∀ (serde : SerdeJson) (s : GatewayState), (gatewaySystem serde).Reachable s → Paired s := by
  intro hclaim
  have hrun : (run literalSerde unchecked stayedTooLong initial).map (fun s => decide
      (hasEnded s 0 = true ∧ sentBy s 0 = [admission] ∧ "request-1" ∈ s.world.committed)) = some true := by decide
  obtain ⟨s, hs, heq⟩ := Option.map_eq_some_iff.mp hrun
  obtain ⟨hend, hsent, hcommit⟩ := of_decide_eq_true heq
  have hreach := reachable_of_unchecked hs
  have hok := gatewayOk_reachable hreach
  have hend := ended_of_hasEnded hend
  have hconnect : s.Sent 0 admission := .inl (sentIn_iff.mpr (by change _ ∈ sentBy s 0; simp [hsent]))
  obtain ⟨invocation, ⟨⟨t, hs'⟩, hd⟩, -⟩ :=
    (hclaim literalSerde s hreach).left 0 admission visitor hconnect rfl hend hcommit
  -- whoever sent it drew the connection's identifier, and that task has sent nothing but the connect event
  have hdrew : Drew (s.world.trace 0) visitor.id := by
    obtain ⟨before, hsub, -, hevent⟩ := hok.sent hconnect
    exact hevent.1.mono hsub
  obtain rfl := hok.drew_inj (hok.disconnect hs' hd).1 hdrew
  obtain ⟨connection, code, reason, wasClean, hevent, -⟩ := hd
  rcases hs' with hm | ⟨task, target, next, ht⟩
  · have hmem : invocation ∈ sentBy s 0 := sentIn_iff.mp hm
    rw [hsent] at hmem
    obtain rfl := List.mem_singleton.mp hmem
    cases hevent
  · obtain ⟨task', ht'⟩ := hend
    cases ht.symm.trans ht'

/-- A check that a step is orderly. -/
def orderly (s : GatewayState) (c : Command) : GatewayMove → Bool
  | .call _ ⟨.sendSocketEvent _ invocation, r⟩ =>
    match r with
    | .ok (.completed _ effects) => decide (validateSocketEffects effects = .ok ())
    | _ => decide (invocation.requestId ∉ s.world.committed)
  | .call t ⟨.unixSeconds, r⟩ =>
    match s.tasks t, r with
    | some (.connection access _, _), .ok now => decide (now < access.principal.expiresAt)
    | _, _ => false
  | .call _ ⟨.resolveTarget .., r⟩ => r.isOk
  | .commit _ =>
    match c with
    | .commit t => ((waitsFor s t).bind fun invocation => connecting invocation.event).isSome
    | _ => false
  | _ => true

theorem orderly_sound {c : Command} {e : GatewayMove} (hs : (gatewaySystem serde).Reachable s)
    (hp : Gateway.perform serde s c = some (e, s')) (h : orderly s c e = true) : Orderly s e := by
  have hok := gatewayOk_reachable hs
  refine ⟨?_, ?_, ?_⟩
  · rintro t target invocation connection r rfl hc hcommit
    simp only [orderly] at h
    split at h
    · exact ⟨_, _, rfl, of_decide_eq_true h⟩
    · exact (of_decide_eq_true h hcommit).elim
  · rintro t invocation connection rfl hsent hc
    simp only [orderly] at h
    split at h
    · rename_i t'
      obtain ⟨id, hid⟩ := Option.isSome_iff_exists.mp h
      obtain ⟨invocation', hw, hconn⟩ := Option.bind_eq_some_iff.mp hid
      have hrequest : invocation'.requestId = invocation.requestId := by
        simp only [Gateway.perform, hw] at hp
        split_ifs at hp
        exact GatewayMove.commit.inj (Prod.mk.inj (Option.some.inj hp)).1
      have hw' := waiting_of_waitsFor hw
      obtain rfl := hok.request_task (.inr hw') hsent hrequest
      cases hevent : invocation'.event with
      | connect connection' =>
        obtain rfl := hok.connect_unique (.inr hw') hevent hsent hc
        exact hw'
      | message => simp [hevent, connecting] at hconn
      | disconnect => simp [hevent, connecting] at hconn
    · cases h
  · rintro t ⟨op, r⟩ access connection disconnect p rfl ht - -
    cases op with
    | unixSeconds =>
      simp only [orderly, ht] at h
      split at h
      · rename_i access' stage p' now heq
        cases heq
        exact ⟨now, rfl, of_decide_eq_true h⟩
      · cases h
    | resolveTarget key principal =>
      cases r with
      | ok target => exact ⟨target, rfl⟩
      | error e => cases h
    | _ => trivial

theorem connect_disconnect_paired_room :
    ∃ s, ((gatewaySystem literalSerde).restrict fun s e _ => Orderly s e).Reachable s ∧
    s.Ended 0 ∧ "request-1" ∈ s.world.committed ∧
    ∃! invocation, (∃ t, s.Sent t invocation) ∧ invocation.DisconnectOf "connection-1" := by
  have hrun : (run literalSerde orderly leftInTime initial).map (fun s => decide
      (hasEnded s 0 = true ∧ admission ∈ sentBy s 0 ∧ "request-1" ∈ s.world.committed)) = some true := by decide
  obtain ⟨s, hs, heq⟩ := Option.map_eq_some_iff.mp hrun
  obtain ⟨hend, hsent, hcommit⟩ := of_decide_eq_true heq
  have hreach : ((gatewaySystem literalSerde).restrict fun s e _ => Orderly s e).Reachable s :=
    reachable_of_run orderly_sound hs ⟨[], _, rfl, .nil _⟩
  have hend := ended_of_hasEnded hend
  refine ⟨s, hreach, hend, hcommit, ?_⟩
  exact (connect_disconnect_paired hreach).left 0 admission visitor
    (.inl (sentIn_iff.mpr hsent)) rfl hend hcommit

end LDO
