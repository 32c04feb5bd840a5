import DurableObjects.Sanity.Connections

/-! Rules that every task of the gateway keeps. A rule says which call may follow a trace,
for connections and for `socket-effects` requests; if the programs keep it, then every call
of every run was made in accordance with it. -/

namespace LDO

open Prog Gateway

variable {serde : SerdeJson} {s s' : GatewayState} {t : ℕ}

/-- What a request is to apply; a connection has nothing of the kind. -/
def GatewayTask.request : GatewayTask → Option (ActorKey × List ActorSocketEffect)
  | .connection .. => none
  | .applyEffects actor effects => some (actor, effects)

/-- When a call may be made, and what holds between the stages of a task. -/
structure TaskRules where
  ok : Option (ActorKey × List ActorSocketEffect) → List GatewayEvent → GatewayOp → Prop
  rests : Option (ActorKey × List ActorSocketEffect) → List GatewayEvent → Prop

namespace TaskRules

variable (rules : TaskRules)

abbrev env (request : Option (ActorKey × List ActorSocketEffect)) :
    Env GatewayOp GatewayOp.Res (List GatewayEvent) :=
  eventEnv (rules.ok request) fun _ _ => True

/-- The programs of the gateway keep the rules. -/
structure Kept (serde : SerdeJson) : Prop where
  start : ∀ request, rules.rests request []
  connection : ∀ t access stage tr, rules.rests none tr →
    wp (rules.env none) (runConnection serde t access stage) (fun _ tr' => rules.rests none tr') tr
  request : ∀ actor effects, wp (rules.env (some (actor, effects))) (apply actor effects)
    (fun _ tr' => rules.rests (some (actor, effects)) tr') []
  dropped : ∀ request (p : GatewayM Stage) tr, GatewayTask.awaits p →
    wp (rules.env (some request)) p (fun _ tr' => rules.rests (some request) tr') tr → rules.rests (some request) tr

/-- What is known of the tasks in a state. -/
structure Holds (s : GatewayState) : Prop where
  tasks : ∀ t task p, s.tasks t = some (task, p) →
    wp (rules.env task.request) p (fun _ tr => rules.rests task.request tr) (s.world.trace t)
  history : ∀ t task p, s.tasks t = some (task, p) → ∀ before e later, s.world.trace t = before ++ e :: later →
    rules.ok task.request before e.op

variable {rules}

/-- One task has a new program. -/
theorem Holds.setTask (h : rules.Holds s) {task : GatewayTask} {p : GatewayM Stage}
    (hwp : wp (rules.env task.request) p (fun _ tr => rules.rests task.request tr) (s.world.trace t))
    (hhist : ∀ before e later, s.world.trace t = before ++ e :: later → rules.ok task.request before e.op) :
    rules.Holds { s with tasks := Function.update s.tasks t (some (task, p)) } := by
  refine ⟨fun j task' q hj => ?_, fun j task' q hj => ?_⟩
  · by_cases hjt : j = t
    · subst hjt
      obtain ⟨rfl, rfl⟩ : task = task' ∧ p = q := by simpa using hj
      exact hwp
    · exact h.tasks j task' q (by simpa [hjt] using hj)
  · by_cases hjt : j = t
    · subst hjt
      obtain ⟨rfl, rfl⟩ : task = task' ∧ p = q := by simpa using hj
      exact hhist
    · exact h.history j task' q (by simpa [hjt] using hj)

theorem Holds.call {task : GatewayTask} {op : GatewayOp} {next : op.Res → GatewayM Stage} {r : op.Res}
    (h : rules.Holds s) (ht : s.tasks t = some (task, .call op next)) :
    rules.Holds (s.answered t task op r next) := by
  have hwp := h.tasks t task _ ht
  refine ⟨fun j task' q hj => ?_, fun j task' q hj before e later heq => ?_⟩
  · by_cases hjt : j = t
    · subst hjt
      obtain ⟨rfl, rfl⟩ : task = task' ∧ next r = q := by simpa [GatewayState.answered] using hj
      exact hwp.2 r _ ⟨trivial, trace_answered s j task op r next⟩
    · rw [trace_answered_ne hjt]
      exact h.tasks j task' q (by simpa [GatewayState.answered, hjt] using hj)
  · by_cases hjt : j = t
    · subst hjt
      obtain ⟨rfl, -⟩ : task = task' ∧ next r = q := by simpa [GatewayState.answered] using hj
      rw [trace_answered] at heq
      rcases List.eq_nil_or_concat later with rfl | ⟨later', e', rfl⟩
      · obtain ⟨rfl, rfl⟩ := List.append_inj' heq rfl |>.imp_right List.singleton_inj.mp
        exact hwp.1
      · rw [List.concat_eq_append, ← List.cons_append, ← List.append_assoc] at heq
        exact h.history j task _ ht before e later' (List.append_inj' heq rfl).1
    · rw [trace_answered_ne hjt] at heq
      exact h.history j task' q (by simpa [GatewayState.answered, hjt] using hj) before e later heq

theorem Kept.step (hkept : rules.Kept serde) {e : GatewayMove} (hok : GatewayOk s) (h : rules.Holds s)
    (hs : GatewayStep serde s e s') : rules.Holds s' := by
  -- a new task has made no call
  have hnew : ∀ {t} {task : GatewayTask}, s.world.trace t = [] → ∀ before e later,
      s.world.trace t = before ++ e :: later → rules.ok task.request before e.op := by
    intro t task hnil before e later heq
    rw [hnil] at heq
    simp at heq
  cases hs with
  | @connect t access hfree =>
    have hnil := hok.unused t hfree
    refine h.setTask ?_ (hnew hnil)
    rw [hnil]
    exact hkept.connection t access .opening [] (hkept.start none)
  | @post t actor effects hfree _ _ =>
    have hnil := hok.unused t hfree
    refine h.setTask ?_ (hnew hnil)
    rw [hnil]
    exact (wp_map _ _ _ _ _).mpr (hkept.request actor effects)
  | call ht _ => exact h.call ht
  | @proceed t access stage stage' ht hne =>
    exact h.setTask (hkept.connection t access stage' _ (h.tasks t _ _ ht))
      (h.history t (.connection access stage) _ ht)
  | @drop t actor effects p ht hawaits =>
    exact h.setTask (hkept.dropped (actor, effects) p _ hawaits (h.tasks t _ _ ht)) (h.history t _ _ ht)
  | execute _ => exact ⟨h.tasks, h.history⟩
  | commit _ => exact ⟨h.tasks, h.history⟩

/-- Rules that the programs keep hold in every run. -/
theorem Kept.reachable (hkept : rules.Kept serde) (hs : (gatewaySystem serde).Reachable s) :
    rules.Holds s := by
  have hinv : GatewayOk s ∧ rules.Holds s := by
    refine hs.invariant (I := fun s => GatewayOk s ∧ rules.Holds s) ?_
      fun h hs => ⟨gatewayOk_step h.1 hs, hkept.step h.1 h.2 hs⟩
    rintro s rfl
    refine ⟨gatewayOk_init, ?_, ?_⟩
    · intro t task p ht
      cases ht
    · intro t task p ht
      cases ht
  exact hinv.2

end TaskRules

/-! ### The programs of a connection

A connection dispatches events, and makes a few calls between them. -/

namespace Gateway

variable {α β : Type} {ok : List GatewayEvent → GatewayOp → Prop} {W : List GatewayEvent → Prop} {P : GatewayOp → Prop}

/-- A program that starts and ends where `W` holds. -/
def Maintains (ok : List GatewayEvent → GatewayOp → Prop) (W : List GatewayEvent → Prop)
    (p : GatewayM α) : Prop :=
  ∀ tr, W tr → wp (eventEnv ok fun _ _ => True) p (fun _ tr' => W tr') tr

/-- Calls in `P` may be made where `W` holds, and keep it. -/
structure Harmless (ok : List GatewayEvent → GatewayOp → Prop) (W : List GatewayEvent → Prop)
    (P : GatewayOp → Prop) :
    Prop where
  allowed : ∀ {tr op}, W tr → P op → ok tr op
  kept : ∀ {tr} {e : GatewayEvent}, W tr → P e.op → W (tr ++ [e])

theorem Harmless.mono {P' : GatewayOp → Prop} (h : Harmless ok W P) (hP : ∀ op, P' op → P op) :
    Harmless ok W P' :=
  ⟨fun hw hop => h.allowed hw (hP _ hop), fun hw he => h.kept hw (hP _ he)⟩

theorem Maintains.bind {p : GatewayM α} {f : α → GatewayM β} (hp : Maintains ok W p)
    (hf : ∀ a, Maintains ok W (f a)) : Maintains ok W (p >>= f) :=
  fun tr h => wp_seq (hp tr h) fun a tr' h' => hf a tr' h'

theorem Maintains.pure (a : α) : Maintains ok W (Pure.pure a : GatewayM α) := fun _ h => h

theorem Maintains.calls {p : GatewayM α} (hP : Harmless ok W P) (hp : Calls P p) : Maintains ok W p := by
  induction p with
  | ret a => exact .pure a
  | call op next ih => exact fun tr h => wp_ask (hP.allowed h hp.1) fun r _ => ih r (hp.2 r) _ (hP.kept h hp.1)

theorem Maintains.ask {op : GatewayOp} (hP : Harmless ok W P) (hop : P op) :
    Maintains ok W (Gateway.ask op) :=
  .calls hP (.perform hop)

/-- The calls of a connection between two events. -/
def Between : GatewayOp → Prop
  | .recvInitialization => True
  | .newUuid => True
  | .insert .. => True
  | .remove .. => True
  | .select => True
  | .socketSend _ => True
  | _ => False

section Connection

variable (hbetween : Harmless ok W Between) (hdispatch : ∀ actor principal event triggerMessage,
  Maintains ok W (dispatch actor principal event triggerMessage))
include hbetween

theorem maintains_closeSocket (code : ℕ) (reason : String) : Maintains ok W (closeSocket code reason) :=
  .calls hbetween ⟨trivial, fun _ => trivial⟩

theorem maintains_initialMetadata (serde : SerdeJson) (access : SocketAccess) :
    Maintains ok W (initialMetadata serde access) := by
  unfold initialMetadata
  cases access.metadata with
  | some metadata => exact .pure _
  | none => exact .calls hbetween ⟨trivial, fun _ => trivial⟩

include hdispatch

theorem maintains_openConnection (serde : SerdeJson) (channel : ℕ) (access : SocketAccess) :
    Maintains ok W (openConnection serde channel access) := by
  refine (maintains_initialMetadata hbetween serde access).bind fun metadata => ?_
  cases metadata with
  | none => exact (maintains_closeSocket hbetween 1002 _).bind fun _ => .pure _
  | some metadata =>
    refine Maintains.bind (.ask hbetween (by trivial)) fun id =>
      Maintains.bind (.ask hbetween (by trivial)) fun inserted => ?_
    cases inserted with
    | false => exact (maintains_closeSocket hbetween 1013 _).bind fun _ => .pure _
    | true =>
      refine (hdispatch access.actor access.principal _ false).bind fun connected => ?_
      cases connected with
      | true => exact .pure _
      | false =>
        exact Maintains.bind (.ask hbetween (by trivial)) fun _ =>
          (maintains_closeSocket hbetween 1011 _).bind fun _ => .pure _

omit hbetween in
theorem maintains_onMessage (access : SocketAccess) (connection : ActorSocketConnection)
    (message : ActorSocketMessage) :
    Maintains ok W (onMessage access connection message) := by
  refine (hdispatch access.actor access.principal _ true).bind fun handled => ?_
  cases handled with
  | true => exact .pure _
  | false => exact .pure _

theorem maintains_serve (access : SocketAccess) (connection : ActorSocketConnection) :
    Maintains ok W (serve access connection) := by
  have hsend : ∀ (frame : Frame) (f : Result Unit → GatewayM Stage), (∀ r, Maintains ok W (f r)) →
      Maintains ok W (Gateway.ask (.socketSend frame) >>= f) :=
    fun frame f hf => Maintains.bind (.ask hbetween (by trivial)) hf
  refine Maintains.bind (.ask hbetween (by trivial)) fun selected => ?_
  match selected with
  | .inbound (some (.ok (.text data))) => exact maintains_onMessage hdispatch access connection _
  | .inbound (some (.ok (.binary data))) => exact maintains_onMessage hdispatch access connection _
  | .inbound (some (.ok (.ping data))) =>
    refine hsend _ _ fun r => ?_
    cases r with
    | ok u => exact .pure _
    | error e => exact .pure _
  | .inbound (some (.ok (.pong data))) => exact .pure _
  | .inbound (some (.ok (.close none))) => exact .pure _
  | .inbound (some (.ok (.close (some (code, reason))))) => exact .pure _
  | .inbound (some (.error e)) => exact .pure _
  | .inbound none => exact .pure _
  | .outbound (some (.message message)) =>
    dsimp only
    cases websocketMessage message with
    | none => exact .pure _
    | some frame =>
      refine hsend _ _ fun r => ?_
      cases r with
      | ok u => exact .pure _
      | error e => exact .pure _
  | .outbound (some (.close code reason)) => exact (maintains_closeSocket hbetween code reason).bind fun _ => .pure _
  | .outbound none => exact .pure _

theorem maintains_leave (access : SocketAccess) (connection : ActorSocketConnection)
    (disconnect : Disconnect) :
    Maintains ok W (leave access connection disconnect) :=
  (hdispatch access.actor access.principal _ false).bind fun _ =>
    Maintains.bind (.ask hbetween (by trivial)) fun _ => .pure _

theorem maintains_runConnection (serde : SerdeJson) (channel : ℕ) (access : SocketAccess) (stage : Stage) :
    Maintains ok W (runConnection serde channel access stage) := by
  cases stage with
  | opening => exact maintains_openConnection hbetween hdispatch serde channel access
  | serving connection => exact maintains_serve hbetween hdispatch access connection
  | leaving connection disconnect => exact maintains_leave hbetween hdispatch access connection disconnect
  | ended => exact .pure _

end Connection

end Gateway

end LDO
