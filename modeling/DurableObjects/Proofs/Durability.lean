import DurableObjects.Sanity.Cluster
import DurableObjects.Sanity.Schedule

/-! A successful answer is durable. One actor on one host takes turn after turn,
each against an executor, an object store and a commit authority that answer as
they like; a caller may also abandon a turn. What the cache holds is at every
time a state that was recorded as a head, or that a call has loaded under its
capability. In the cluster, where a capability names a recorded head, both are one. -/

namespace LDO

open Prog

inductive ActorEvent where
  | turn (call : HostCall) (answer : TurnAnswer)
  | abandoned (call : HostCall)

inductive ActorStep (host : ActorHost) : TurnWorld → ActorEvent → TurnWorld → Prop
  | turn {w w' : TurnWorld} {call : HostCall} {answer : TurnAnswer} :
      Exec turnEnv (call.program host) w answer w' → ActorStep host w (.turn call answer) w'
  | abandoned {w w' : TurnWorld} {call : HostCall} {tr : List HostEvent} : Spans w tr w' →
      w'.entry = w.entry ∨ w'.entry = none → ActorStep host w (.abandoned call) w'

def ActorEvent.call : ActorEvent → HostCall
  | .turn call _ => call
  | .abandoned call => call

def actorSystem (host : ActorHost) : System TurnWorld ActorEvent where
  init w := w.entry = none ∧ w.trace = []
  step := ActorStep host

/-- The host stored `snapshot` through a ticket and the head history holds that object. -/
def Recorded (w : TurnWorld) (snapshot : StateSnapshot) : Prop :=
  ∃ (ticket : StateWriteTicket) (bytes : ByteArray) (write : StateWrite), snapshot.encode = .ok bytes ∧
    ⟨.write ticket.url bytes, .ok write⟩ ∈ w.trace ∧
    ⟨snapshot.stateVersion, some ticket.objectName, some snapshot.requestId⟩ ∈ w.heads

/-- The host read `snapshot` where the capability of one of the calls says, and it has the version
and no newer epoch than that capability says. -/
def Loaded (host : ActorHost) (calls : List HostCall) (w : TurnWorld) (snapshot : StateSnapshot) : Prop :=
  ∃ call ∈ calls, ∃ state : LoadedState, call.stateVersion ≠ 0 ∧
    ⟨.read call.stateReadUrl, .ok state⟩ ∈ w.trace ∧
    StateSnapshot.decode host.serde state.bytes = .ok snapshot ∧ snapshot.stateVersion = call.stateVersion ∧
    snapshot.ownerEpoch ≤ call.ownerEpoch

/-- `snapshot` is a stored head, as far as the host can know. -/
def StoredHead (host : ActorHost) (calls : List HostCall) (w : TurnWorld) (snapshot : StateSnapshot) : Prop :=
  Recorded w snapshot ∨ Loaded host calls w snapshot

/-- The cached fields are those of one stored head, or of no state at all. -/
def Committed (host : ActorHost) (calls : List HostCall) (w : TurnWorld) (c : CachedActorState) : Prop :=
  (c.stateVersion = 0 ∧ c.state = none ∧ c.lastRequestId = none ∧ c.lastResult = none) ∨
    ∃ snapshot, StoredHead host calls w snapshot ∧ c.stateVersion = snapshot.stateVersion ∧
      c.state = some snapshot.state ∧ c.lastRequestId = some snapshot.requestId ∧
      c.lastResult = some snapshot.result

/-- A pending snapshot was stored; only its commit is open. -/
def Uploaded (w : TurnWorld) (p : PendingStateCommit) : Prop :=
  ∃ (bytes : ByteArray) (write : StateWrite), p.snapshot.encode = .ok bytes ∧
    ⟨.write p.ticket.url bytes, .ok write⟩ ∈ w.trace

structure EntryOk (host : ActorHost) (calls : List HostCall) (w : TurnWorld) (c : CachedActorState) :
    Prop where
  committed : Committed host calls w c
  pending : ∀ p, c.pending = some p → Uploaded w p

variable {host : ActorHost} {calls calls' : List HostCall} {w w' : TurnWorld}

theorem Recorded.mono {tr : List HostEvent} {s : StateSnapshot} (h : Recorded w s) (he : Spans w tr w') :
    Recorded w' s := by
  obtain ⟨ticket, bytes, write, henc, hm, hhead⟩ := h
  refine ⟨ticket, bytes, write, henc, ?_, he.heads.subset hhead⟩
  rw [he.trace]
  exact List.mem_append_left _ hm

theorem StoredHead.mono {tr : List HostEvent} {s : StateSnapshot} (h : StoredHead host calls w s)
    (hc : calls ⊆ calls') (he : Spans w tr w') : StoredHead host calls' w' s := by
  rcases h with h | ⟨call, hcall, state, hv, hm, hrest⟩
  · exact .inl (h.mono he)
  · refine .inr ⟨call, hc hcall, state, hv, ?_, hrest⟩
    rw [he.trace]
    exact List.mem_append_left _ hm

theorem Committed.mono {tr : List HostEvent} {c : CachedActorState} (h : Committed host calls w c)
    (hc : calls ⊆ calls') (he : Spans w tr w') : Committed host calls' w' c := by
  rcases h with h | ⟨s, hs, hrest⟩
  · exact .inl h
  · exact .inr ⟨s, hs.mono hc he, hrest⟩

theorem Uploaded.mono {tr : List HostEvent} {p : PendingStateCommit} (h : Uploaded w p)
    (he : Spans w tr w') : Uploaded w' p := by
  obtain ⟨bytes, write, henc, hm⟩ := h
  refine ⟨bytes, write, henc, ?_⟩
  rw [he.trace]
  exact List.mem_append_left _ hm

theorem EntryOk.mono {tr : List HostEvent} {c : CachedActorState} (h : EntryOk host calls w c)
    (hc : calls ⊆ calls') (he : Spans w tr w') : EntryOk host calls' w' c :=
  ⟨h.committed.mono hc he, fun p hp => (h.pending p hp).mono he⟩

theorem entryOk_start {call : HostCall} {tr : List HostEvent} {c : CachedActorState}
    (hentry : ∀ c, w.entry = some c → EntryOk host calls w c) (he : Spans w tr w')
    (h : StartState host call w tr c) : EntryOk host (calls ++ [call]) w' c := by
  cases h with
  | cached hc _ => exact (hentry c hc).mono (List.subset_append_left _ _) he
  | uninitialized => exact ⟨.inl ⟨rfl, rfl, rfl, rfl⟩, by simp [CachedActorState.new]⟩
  | loaded hv hm hl =>
    obtain ⟨s, hdec, hversion, hepoch, rfl⟩ := fromLoaded_ok hl
    have hread := List.mem_append_right w.trace hm
    rw [← he.trace] at hread
    have hloaded : Loaded host (calls ++ [call]) w' s :=
      ⟨call, List.mem_append_right _ (List.mem_singleton_self _), _, hv, hread, hdec, hversion, hepoch⟩
    exact ⟨.inr ⟨s, .inr hloaded, hversion.symm, rfl, rfl, rfl⟩, by simp⟩

theorem recorded_of_uploaded {p : PendingStateCommit} (hup : Uploaded w p) (hhead : p.head ∈ w.heads) :
    Recorded w p.snapshot := by
  obtain ⟨bytes, write, henc, hm⟩ := hup
  exact ⟨p.ticket, bytes, write, henc, hm, hhead⟩

theorem entryOk_resolved {c : CachedActorState} {p : PendingStateCommit} (hup : Uploaded w p)
    (hhead : p.head ∈ w.heads) (next : Option StateWriteTicket) : EntryOk host calls w (c.resolved p next) :=
  ⟨.inr ⟨p.snapshot, .inl (recorded_of_uploaded hup hhead), rfl, rfl, rfl, rfl⟩,
    by simp [CachedActorState.resolved]⟩

theorem entryOk_settled {call : HostCall} {tr : List HostEvent} {c : CachedActorState}
    (hentry : ∀ c, w.entry = some c → EntryOk host calls w c) (he : Spans w tr w')
    (h : SettledState host call w tr w'.heads c) : EntryOk host (calls ++ [call]) w' c := by
  obtain ⟨start, hstart, hres⟩ := h
  have hok := entryOk_start hentry he hstart
  cases hres with
  | clear _ => exact hok
  | committed next hp hhead => exact entryOk_resolved (hok.pending _ hp) hhead next

/-- A publication keeps the entry in order, and one that succeeds is recorded. -/
theorem entryOk_published {requestId : String} {ownerEpoch : ℕ} {c c' : CachedActorState}
    {result next : Value} {tr : List HostEvent} {r : Result ActorExecutionResult} (he : Spans w tr w')
    (hok : EntryOk host calls w' c)
    (h : Publication requestId ownerEpoch c result next tr w'.heads r c') :
    EntryOk host calls w' c' ∧ ∀ res, r = .ok res →
      Recorded w' ⟨c.stateVersion + 1, ownerEpoch, requestId, next, result⟩ := by
  have htrace : ∀ {e : HostEvent}, e ∈ tr → e ∈ w'.trace := by
    intro e hm
    rw [he.trace]
    exact List.mem_append_right _ hm
  cases h with
  | overflow e _ _ => exact ⟨hok, by simp⟩
  | notUploaded e _ => exact ⟨⟨hok.committed, hok.pending⟩, by simp⟩
  | unconfirmed e hs henc hm =>
    refine ⟨⟨hok.committed, ?_⟩, by simp⟩
    rintro _ ⟨rfl⟩
    exact ⟨_, _, henc, htrace hm⟩
  | recorded t hs henc hm hhead =>
    refine ⟨entryOk_resolved ⟨_, _, henc, htrace hm⟩ hhead t, fun res _ => ?_⟩
    have hrec := recorded_of_uploaded ⟨_, _, henc, htrace hm⟩ hhead
    rwa [hs] at hrec

theorem entryOk_turn {call : HostCall} {answer : TurnAnswer}
    (hentry : ∀ c, w.entry = some c → EntryOk host calls w c)
    (h : Exec turnEnv (call.program host) w answer w') :
    ∀ c, w'.entry = some c → EntryOk host (calls ++ [call]) w' c := by
  obtain ⟨tr, he, hcase⟩ := exec_turn h
  intro c hc
  rw [hc] at hcase
  generalize hentry' : some c = entry at hcase
  cases hcase with
  | refused _ _ => exact (hentry c hentry'.symm).mono (List.subset_append_left _ _) he
  | unloaded _ _ => cases hentry'
  | unresolved _ hstart _ _ => cases hentry'; exact entryOk_start hentry he hstart
  | replayed _ _ hset _ => cases hentry'; exact entryOk_settled hentry he hset
  | executionFailed _ _ _ _ hset _ _ => cases hentry'; exact entryOk_settled hentry he hset
  | unchanged _ hset _ _ _ _ => cases hentry'; exact entryOk_settled hentry he hset
  | published hset _ _ _ hpub _ _ =>
    cases hentry'
    exact (entryOk_published he (entryOk_settled hentry he hset) hpub).1

theorem entryOk_run {evs : List ActorEvent} (hw : (actorSystem host).Run evs w) :
    ∀ c, w.entry = some c → EntryOk host (evs.map ActorEvent.call) w c := by
  refine hw.invariant (I := fun evs w => ∀ c, w.entry = some c → EntryOk host (evs.map ActorEvent.call) w c) ?_ ?_
  · rintro w ⟨hnone, -⟩ c hc
    rw [hnone] at hc
    cases hc
  · intro evs w ev w' _ hentry hstep
    rw [List.map_append]
    cases hstep with
    | turn h => exact entryOk_turn hentry h
    | abandoned he hlost =>
      intro c hc
      rcases hlost with h | h
      · exact (hentry c (h.symm.trans hc)).mono (List.subset_append_left _ _) he
      · rw [h] at hc; cases hc

theorem success_of_unavailable {answer : TurnAnswer} (h : answer.unavailable = true) :
    answer.success = none := by
  rcases answer with (_ | (_ | _ | _ | _)) | (_ | (_ | _ | _)) <;> first | rfl | cases h

theorem success_of_failure {answer : TurnAnswer} {f : ActorInvocationFailure} (h : answer.failure = some f) :
    answer.success = none := by
  rcases answer with (_ | (_ | _ | _ | _)) | (_ | (_ | _ | _)) <;> first | rfl | cases h

/-- A turn that answers with success has replayed an outcome, left the state as it was, or published. -/
theorem Phase.Returns.success {request : ActorRequest} {phase : Phase} {answer : TurnAnswer} {result : Value}
    {effects : List ActorSocketEffect} (h : phase.Returns request answer)
    (hs : answer.success = some (result, effects)) :
    (phase = .stored (.replayed result) ∧ effects = [] ∧ ∃ invocation, request = .invoke invocation) ∨
      phase = .stored (.unchanged result effects) ∨ phase = .stored (.published result effects) := by
  cases phase with
  | waiting => rcases h with h | h <;> simp [success_of_unavailable, success_of_failure, h] at hs
  | stored ending =>
    cases ending with
    | unresolved => simp [success_of_failure h] at hs
    | replayed value =>
      obtain ⟨rfl, hinvoke⟩ := h
      cases hs
      exact .inl ⟨rfl, rfl, hinvoke⟩
    | failed =>
      obtain ⟨failure, hf, -⟩ := h
      simp [success_of_failure hf] at hs
    | unchanged value effects' =>
      cases hs.symm.trans h
      exact .inr (.inl rfl)
    | unpublished => simp [success_of_failure h] at hs
    | published value effects' =>
      cases hs.symm.trans h
      exact .inr (.inr rfl)
  | admitted => simp [success_of_unavailable h] at hs
  | loading => simp [success_of_unavailable h] at hs
  | unloaded => simp [success_of_unavailable h] at hs
  | _ => exact h.elim

theorem Committed.replay {c : CachedActorState} {requestId : String} {result : Value}
    (h : Committed host calls w c) (hr : c.replay requestId = some result) :
    ∃ s, StoredHead host calls w s ∧ s.requestId = requestId ∧ s.result = result := by
  unfold CachedActorState.replay at hr
  split_ifs at hr with hid
  rcases h with ⟨-, -, hnone, -⟩ | ⟨s, hs, -, -, hlast, hres⟩
  · rw [hnone] at hid; cases hid
  · rw [hlast] at hid
    rw [hres] at hr
    cases hid
    cases hr
    exact ⟨s, hs, rfl, rfl⟩

theorem Committed.state {c : CachedActorState} {next : Value} (h : Committed host calls w c)
    (hs : c.state = some next) :
    ∃ s, StoredHead host calls w s ∧ s.state = next := by
  rcases h with ⟨-, hnone, -⟩ | ⟨s, hs', -, hstate, -⟩
  · rw [hnone] at hs; cases hs
  · rw [hstate] at hs
    cases hs
    exact ⟨s, hs', rfl⟩

/-- What a turn that answered with success has done, as far as its host can know. -/
inductive SucceededTurn (host : ActorHost) (calls : List HostCall) (call : HostCall) (tr : List HostEvent)
    (w : TurnWorld) (result : Value) (effects : List ActorSocketEffect) : Prop
  /-- It ran the executor, and left the committed state as it was. -/
  | unchanged {next : Value} {snapshot : StateSnapshot} : call.request.Ran (some next) result next effects tr →
      validateSocketEffects effects = .ok () → StoredHead host calls w snapshot → snapshot.state = next →
      SucceededTurn host calls call tr w result effects
  /-- It ran the executor, and its outputs are recorded. -/
  | recorded {state : Option Value} {snapshot : StateSnapshot} :
      call.request.Ran state result snapshot.state effects tr → validateSocketEffects effects = .ok () →
      snapshot.result = result → snapshot.requestId = call.request.id → Recorded w snapshot →
      SucceededTurn host calls call tr w result effects
  /-- It answered a method request from the head that already carries its id. -/
  | replayed {invocation : ActorInvocation} {snapshot : StateSnapshot} : call.request = .invoke invocation →
      effects = [] → (∀ e ∈ tr, e.op.isExecution = false) → StoredHead host calls w snapshot →
      snapshot.requestId = invocation.requestId → snapshot.result = result →
      SucceededTurn host calls call tr w result effects

theorem succeededTurn_of_exec {evs : List ActorEvent} {call : HostCall} {answer : TurnAnswer} {result : Value}
    {effects : List ActorSocketEffect} (hw : (actorSystem host).Run evs w)
    (h : Exec turnEnv (call.program host) w answer w') (hs : answer.success = some (result, effects)) :
    ∃ tr, w'.trace = w.trace ++ tr ∧ SucceededTurn host (evs.map ActorEvent.call ++ [call]) call tr w' result effects := by
  have hentry := entryOk_run hw
  obtain ⟨tr, he, hcase⟩ := exec_turn h
  refine ⟨tr, he.trace, ?_⟩
  generalize w'.entry = entry at hcase
  cases hcase with
  | refused _ hans => rcases hans with hans | hans <;> simp [success_of_unavailable, success_of_failure, hans] at hs
  | unloaded _ hans => simp [success_of_unavailable hans] at hs
  | unresolved _ _ _ hans => simp [success_of_failure hans] at hs
  | executionFailed _ _ _ _ _ hans _ => simp [success_of_failure hans] at hs
  | replayed hno hreq hset hreplay =>
    cases hs
    obtain ⟨s, hstored, hid, hres⟩ := (entryOk_settled hentry he hset).committed.replay hreplay
    exact .replayed hreq rfl (fun e hm => (hno e hm).1) hstored hid hres
  | unchanged _ hset hran heff hsame hans =>
    cases hans.symm.trans hs
    obtain ⟨s, hstored, hstate⟩ := (entryOk_settled hentry he hset).committed.state hsame
    rw [hsame] at hran
    exact .unchanged hran heff hstored hstate
  | published hset hran heff _ hpub hfail hsuccess =>
    rename_i c c' result' next effects' published _
    cases published with
    | error e => simp [success_of_failure (hfail e rfl).2] at hs
    | ok res =>
      cases (hsuccess res rfl).symm.trans hs
      have hrec := (entryOk_published he (entryOk_settled hentry he hset) hpub).2 res rfl
      have hran' : call.request.Ran c.state result (StateSnapshot.mk (c.stateVersion + 1) call.ownerEpoch
        call.request.persistence.requestId next result).state effects tr := hran
      exact .recorded hran' heff rfl rfl hrec

/-- The outcome of the request, as a recorded snapshot has it. -/
def Replays (D : Deployment) (w : World) (t : ℕ) (call : HostCall) (result : Value) : Prop :=
  (∃ invocation, call.request = .invoke invocation) ∧ executions (w.trace t) = [] ∧
    ∃ snapshot, IsHead D w call.request.object snapshot ∧ snapshot.requestId = call.request.id ∧
      snapshot.result = result

/-- In the cluster, a turn that succeeded has run on a recorded state, or replays a recorded outcome. -/
theorem ClusterOk.succeeded {D : Deployment} {s : ClusterState} (hok : ClusterOk D s) {t : ℕ} {h : HostId}
    {call : HostCall} {answer : TurnAnswer} {result : Value} {effects : List ActorSocketEffect}
    (hc : s.world.calls t = some (h, call)) (ha : s.world.answers t = some answer)
    (hs : answer.success = some (result, effects)) :
    (∃ c next, RanOn D s.world t call c result next effects ∧
      (c.state = some next ∨ IsHead D s.world call.request.object (call.snapshot c result next))) ∨
    Replays D s.world t call result ∧ effects = [] := by
  obtain ⟨hphase, -⟩ := hok.phases t h call (.inr (by rw [ha]; simp)) hc
  have hret := hok.returned t h call answer hc ha
  rcases hret.success hs with ⟨heq, rfl, hinvoke⟩ | heq | heq <;> rw [heq] at hphase
  · exact .inr ⟨⟨hinvoke, hphase⟩, rfl⟩
  · obtain ⟨c, next, hran, hsame⟩ := hphase
    exact .inl ⟨c, next, hran, .inl hsame⟩
  · obtain ⟨c, next, hran, hhead⟩ := hphase
    exact .inl ⟨c, next, hran, .inr hhead⟩

/-- Success means durable, and effects follow the commit. -/
theorem success_is_durable :
    (∀ (host : ActorHost) (evs : List ActorEvent) (w w' : TurnWorld) (call : HostCall) (answer : TurnAnswer)
      (result : Value) (effects : List ActorSocketEffect), (actorSystem host).Run evs w →
      Exec turnEnv (call.program host) w answer w' → answer.success = some (result, effects) →
      ∃ tr, w'.trace = w.trace ++ tr ∧
        SucceededTurn host (evs.map ActorEvent.call ++ [call]) call tr w' result effects) ∧
    -- in a cluster a capability names a recorded head, so what was loaded or cached is one
    (∀ (D : Deployment) (s : ClusterState) (t : ℕ) (h : HostId) (call : HostCall) (answer : TurnAnswer)
      (result : Value) (effects : List ActorSocketEffect), (clusterSystem D).Reachable s →
      s.world.calls t = some (h, call) → s.world.answers t = some answer →
      answer.success = some (result, effects) →
      (∃ c next, RanOn D s.world t call c result next effects ∧
        (c.state = some next ∨ IsHead D s.world call.request.object (call.snapshot c result next))) ∨
      Replays D s.world t call result ∧ effects = []) := by
  constructor
  · intro host evs w w' call answer result effects hw h hs
    exact succeededTurn_of_exec hw h hs
  · intro D s t h call answer result effects hreach hc ha hs
    exact (clusterOk_reachable hreach).succeeded hc ha hs

def counterHost : ActorHost := ⟨⟨"host-a"⟩, "acme", fun _ => true, literalSerde⟩

/-- The first call of a counter. -/
def counterCall : HostCall := ⟨.invoke ⟨"request-1", ⟨"acme", "Counter", "1"⟩, "increment", []⟩, 1, 0, ""⟩

def counterState : Value := .obj [("value", .num (.ofNat 1))]

def TurnWorld.log (w : TurnWorld) (op : HostOp) (r : op.Res) (entry : Option CachedActorState)
    (heads : List Head) : op.Res × TurnWorld := (r, ⟨entry, heads, w.trace ++ [⟨op, r⟩]⟩)

/-- A host where everything works: the executor answers `1`, the authority records what it is given. -/
def counterAnswers (w : TurnWorld) : (op : HostOp) → op.Res × TurnWorld
  | .accepting => w.log .accepting true w.entry w.heads
  | .admission o => w.log (.admission o) (.ok .acquired) w.entry w.heads
  | .takeCachedState o => w.log (.takeCachedState o) (.ok w.entry) none w.heads
  | .storeCachedState o c => w.log (.storeCachedState o c) (.ok ()) (some c) w.heads
  | .read u => w.log (.read u) (.error (.new "no such object")) w.entry w.heads
  | .write u b => w.log (.write u b) (.ok .written) w.entry w.heads
  | .invokeWithState i s => w.log (.invokeWithState i s)
      (.ok (.completed (.num (.ofNat 1)) counterState [])) w.entry w.heads
  | .handleSocketWithState i s => w.log (.handleSocketWithState i s) (.ok (.handled counterState [])) w.entry w.heads
  | .evict a => w.log (.evict a) (.ok ()) w.entry w.heads
  | .unixMillis => w.log .unixMillis (.ok 0) w.entry w.heads
  | .prepareStateWrite a h e v => w.log (.prepareStateWrite a h e v)
      (.ok ⟨v + 1, "snapshots/1", "https://storage/1", 60000⟩) w.entry w.heads
  | .commitState a h e v o r => w.log (.commitState a h e v o r) (.ok ⟨v + 1, none⟩) w.entry
      (w.heads ++ [⟨v + 1, some o, some r⟩])

theorem counterAnswers_step (w : TurnWorld) (op : HostOp) :
    turnEnv.step w op (counterAnswers w op).1 (counterAnswers w op).2 := by
  cases op with
  | takeCachedState o => exact ⟨List.prefix_refl _, rfl, rfl, rfl⟩
  | storeCachedState o c => exact ⟨List.prefix_refl _, rfl, rfl, rfl⟩
  | commitState a h e v o r =>
    refine ⟨List.prefix_append _ _, rfl, rfl, ?_⟩
    rintro _ ⟨rfl⟩
    exact List.mem_append_right _ (List.mem_singleton_self _)
  | _ => exact ⟨List.prefix_refl _, rfl, rfl⟩

theorem success_is_durable_counter :
    (∃ w w' answer tr, (actorSystem counterHost).Run [] w ∧ Exec turnEnv (counterCall.program counterHost) w answer w' ∧
      answer.success = some (.num (.ofNat 1), []) ∧ w'.trace = w.trace ++ tr ∧
      SucceededTurn counterHost [counterCall] counterCall tr w' (.num (.ofNat 1)) []) ∧
    ∃ s c next, (clusterSystem counter.deployment).Reachable s ∧
      RanOn counter.deployment s.world 0 (increment "request-1" 1 0 "") c (.num (.ofNat 1)) next [] ∧
      (c.state = some next ∨ IsHead counter.deployment s.world counterObject
        ((increment "request-1" 1 0 "").snapshot c (.num (.ofNat 1)) next)) := by
  constructor
  · have hw : (actorSystem counterHost).Run [] ⟨none, [], []⟩ := ⟨_, ⟨rfl, rfl⟩, .nil _⟩
    have hx := exec_run counterAnswers_step (counterCall.program counterHost) ⟨none, [], []⟩
    have hs : ((counterCall.program counterHost).run counterAnswers ⟨none, [], []⟩).1.success =
        some (.num (.ofNat 1), []) := by decide +kernel
    obtain ⟨tr, htr, hturn⟩ := success_is_durable.1 counterHost [] _ _ counterCall _ _ _ hw hx hs
    exact ⟨_, _, _, tr, hw, hx, hs, htr, hturn⟩
  · have hrun : (counter.run incremented Machine.initial).map (fun s => decide
        (s.world.calls 0 = some (hostA, increment "request-1" 1 0 "") ∧
          (s.world.answers 0).bind (·.success) = some (.num (.ofNat 1), []) ∧
          (executions (s.world.trace 0)).length = 1)) = some true := by decide +kernel
    obtain ⟨s, hs, heq⟩ := Option.map_eq_some_iff.mp hrun
    obtain ⟨hc, ha, hx⟩ := of_decide_eq_true heq
    obtain ⟨answer, ha, hsuccess⟩ := Option.bind_eq_some_iff.mp ha
    have hreach := Machine.reachable_of_run hs
    rcases success_is_durable.2 counter.deployment s 0 hostA _ answer _ _ hreach hc ha hsuccess with
      ⟨c, next, hran, hcase⟩ | ⟨⟨-, hnone, -⟩, -⟩
    · exact ⟨s, c, next, hreach, hran, hcase⟩
    · simp [hnone] at hx

end LDO
