import Mathlib.Data.List.Nodup
import DurableObjects.Spec.Cluster
import DurableObjects.Sanity.Phase
import DurableObjects.Sanity.Snapshot
import DurableObjects.Proofs.Placement

/-! What is known of a cluster at any time: every state in a cache or in the hands of
a turn is a recorded head, every commit that is under way is for the outputs of one
execution on the head before it, and every object has one writer. What is known is
never lost again (`Later`), so a step only has to account for what it adds. -/

namespace LDO

open Prog

/-- The calls of a turn that reached the executor. -/
def executions (tr : List HostEvent) : List HostEvent := tr.filter (·.op.isExecution)

theorem executions_snoc (tr : List HostEvent) (e : HostEvent) :
    executions (tr ++ [e]) = if e.op.isExecution then executions tr ++ [e] else executions tr := by
  unfold executions
  split_ifs with h <;> simp [h]

/-- The phase a turn is in after the calls `tr`. -/
def Phase.after (host : ActorHost) (call : HostCall) (tr : List HostEvent) : Phase :=
  tr.foldl (fun phase e => phase.next host call e.op e.answer) .waiting

theorem Phase.after_snoc (host : ActorHost) (call : HostCall) (tr : List HostEvent) (e : HostEvent) :
    Phase.after host call (tr ++ [e]) = (Phase.after host call tr).next host call e.op e.answer := by
  simp [Phase.after]

/-- The executor may answer the request on `state` with these outputs. -/
def Deployment.Runs (D : Deployment) (request : ActorRequest) (state : Option Value) (result next : Value)
    (effects : List ActorSocketEffect) : Prop :=
  match request with
  | .invoke i => D.invokes ⟨i.requestId, i.actor, i.method, i.args, []⟩ state result next effects
  | .handleSocket i => result = .null ∧ D.handles i state next effects

/-- Whatever the executor may answer, `serde_json` reads back as it is. -/
def Deployment.ReadsBack (D : Deployment) : Prop := ∀ request state result next effects,
  D.Runs request state result next effects → LDO.ReadsBack D.serde result ∧ LDO.ReadsBack D.serde next

/-- The only call to the executor was this request on `state`, with these outputs. -/
def ActorRequest.RanOnce (request : ActorRequest) (state : Option Value) (result next : Value)
    (effects : List ActorSocketEffect) (tr : List HostEvent) : Prop :=
  match request with
  | .invoke i => executions tr = [⟨methodOp i state, .ok (.completed result next effects)⟩]
  | .handleSocket i =>
    result = .null ∧ executions tr = [⟨.handleSocketWithState i state, .ok (.handled next effects)⟩]

theorem ActorRequest.RanOnce.nonempty {request : ActorRequest} {state : Option Value} {result next : Value}
    {effects : List ActorSocketEffect} {tr : List HostEvent}
    (h : request.RanOnce state result next effects tr) :
    executions tr ≠ [] := by
  cases request with
  | invoke i => rw [h]; simp
  | handleSocket i => rw [h.2]; simp

theorem ActorRequest.RanOnce.of_executions {request : ActorRequest} {state : Option Value}
    {result next : Value} {effects : List ActorSocketEffect} {tr tr' : List HostEvent}
    (h : request.RanOnce state result next effects tr) (he : executions tr' = executions tr) :
    request.RanOnce state result next effects tr' := by
  cases request with
  | invoke i => exact he.trans h
  | handleSocket i => exact ⟨h.1, he.trans h.2⟩

/-! ### What is known -/

variable {D : Deployment} {w w' : World} {h : HostId} {o : ActorStorageKey}

/-- The object recorded as head `s.stateVersion` was encoded from `s`, or decodes to it. -/
def IsHead (D : Deployment) (w : World) (o : ActorStorageKey) (s : StateSnapshot) : Prop :=
  ∃ region name bytes, w.region o = some region ∧ ⟨s.stateVersion, some name, some s.requestId⟩ ∈ w.heads o ∧
    w.objects ⟨region, name⟩ = some bytes ∧ (s.encode = .ok bytes ∨ StateSnapshot.decode D.serde bytes = .ok s)

/-- The version, state, request and result in `c` are those of a recorded head that is no
newer than its epoch, or of none. -/
def Based (D : Deployment) (w : World) (o : ActorStorageKey) (c : CachedActorState) : Prop :=
  (c.stateVersion = 0 ∧ c.state = none ∧ c.lastRequestId = none ∧ c.lastResult = none) ∨
    ∃ s, IsHead D w o s ∧ s.ownerEpoch ≤ c.ownerEpoch ∧ c.stateVersion = s.stateVersion ∧
    c.state = some s.state ∧
      c.lastRequestId = some s.requestId ∧ c.lastResult = some s.result

/-- Turn `t` ran its request, once, on the recorded state `c`; a method request was not
the one that state came from. -/
structure RanOn (D : Deployment) (w : World) (t : ℕ) (call : HostCall) (c : CachedActorState)
    (result next : Value) (effects : List ActorSocketEffect) : Prop where
  epoch : c.ownerEpoch = call.ownerEpoch
  based : Based D w call.request.object c
  once : call.request.RanOnce c.state result next effects (w.trace t)
  runs : D.Runs call.request c.state result next effects
  unanswered : ∀ i, call.request = .invoke i → c.replay i.requestId = none

/-- The object `name` holds `s`, the outputs of turn `t` on host `h`, which uploaded it. -/
structure Produced (D : Deployment) (w : World) (h : HostId) (o : ActorStorageKey) (name : String)
    (s : StateSnapshot) (t : ℕ) : Prop where
  sound : s.Sound
  stored : ∃ region bytes, w.region o = some region ∧ s.encode = .ok bytes ∧
    ⟨t, ⟨region, name⟩, bytes⟩ ∈ w.uploads ∧ w.objects ⟨region, name⟩ = some bytes
  origin : ∃ call c effects, w.calls t = some (h, call) ∧ call.request.object = o ∧
    s = call.snapshot c s.result s.state ∧ RanOn D w t call c s.result s.state effects

/-- What host `h` may keep of an object: a recorded state, and perhaps a commit on top of it. -/
structure CachedOk (D : Deployment) (w : World) (h : HostId) (o : ActorStorageKey) (c : CachedActorState) :
    Prop where
  based : Based D w o c
  pending : ∀ p, c.pending = some p → p.snapshot.stateVersion = c.stateVersion + 1 ∧
    p.snapshot.ownerEpoch = c.ownerEpoch ∧ ∃ t, Produced D w h o p.ticket.objectName p.snapshot t

/-- A commit request names an object that holds the next version. -/
def Justified (D : Deployment) (w : World) (q : StateCommitRequest) : Prop :=
  ∃ s t, s.stateVersion = q.expectedVersion + 1 ∧ s.requestId = q.requestId ∧ s.ownerEpoch = q.ownerEpoch ∧
    Produced D w q.owner q.object q.stateObject s t

/-- Nothing that is known in `w` is lost in `w'`. -/
structure Later (w w' : World) : Prop where
  heads : ∀ o, w.heads o <+: w'.heads o
  region : ∀ o r, w.region o = some r → w'.region o = some r
  objects : ∀ l b, w.objects l = some b → w'.objects l = some b
  uploads : w.uploads ⊆ w'.uploads
  calls : ∀ t c, w.calls t = some c → w'.calls t = some c
  ran : ∀ t, executions (w.trace t) ≠ [] → executions (w'.trace t) = executions (w.trace t)

theorem IsHead.mono {s : StateSnapshot} (h : IsHead D w o s) (hl : Later w w') : IsHead D w' o s := by
  obtain ⟨region, name, bytes, hr, hh, ho, hd⟩ := h
  exact ⟨region, name, bytes, hl.region _ _ hr, (hl.heads o).subset hh, hl.objects _ _ ho, hd⟩

theorem Based.mono {c : CachedActorState} (h : Based D w o c) (hl : Later w w') : Based D w' o c := by
  rcases h with h | ⟨s, hs, hrest⟩
  · exact .inl h
  · exact .inr ⟨s, hs.mono hl, hrest⟩

theorem RanOn.mono {t : ℕ} {call : HostCall} {c : CachedActorState} {result next : Value}
    {effects : List ActorSocketEffect} (h : RanOn D w t call c result next effects) (hl : Later w w') :
    RanOn D w' t call c result next effects :=
  ⟨h.epoch, h.based.mono hl, h.once.of_executions (hl.ran t h.once.nonempty), h.runs, h.unanswered⟩

theorem Produced.mono {name : String} {s : StateSnapshot} {t : ℕ} (hp : Produced D w h o name s t)
    (hl : Later w w') : Produced D w' h o name s t := by
  obtain ⟨region, bytes, hr, henc, hu, ho⟩ := hp.stored
  obtain ⟨call, c, effects, hc, hobj, hs, hran⟩ := hp.origin
  exact ⟨hp.sound, ⟨region, bytes, hl.region _ _ hr, henc, hl.uploads hu, hl.objects _ _ ho⟩,
    call, c, effects, hl.calls _ _ hc, hobj, hs, hran.mono hl⟩

theorem CachedOk.mono {c : CachedActorState} (hc : CachedOk D w h o c) (hl : Later w w') :
    CachedOk D w' h o c := by
  refine ⟨hc.based.mono hl, fun p hp => ?_⟩
  obtain ⟨hv, he, t, ht⟩ := hc.pending p hp
  exact ⟨hv, he, t, ht.mono hl⟩

theorem Justified.mono {q : StateCommitRequest} (h : Justified D w q) (hl : Later w w') :
    Justified D w' q := by
  obtain ⟨s, t, hv, hid, he, hp⟩ := h
  exact ⟨s, t, hv, hid, he, hp.mono hl⟩

theorem Produced.isHead {name : String} {s : StateSnapshot} {t : ℕ} (hp : Produced D w h o name s t)
    (hhead : ⟨s.stateVersion, some name, some s.requestId⟩ ∈ w.heads o) : IsHead D w o s := by
  obtain ⟨region, bytes, hr, henc, -, ho⟩ := hp.stored
  exact ⟨region, name, bytes, hr, hhead, ho, .inl henc⟩

theorem Based.replay {c : CachedActorState} {id : String} {result : Value} (h : Based D w o c)
    (hr : c.replay id = some result) : ∃ s, IsHead D w o s ∧ s.requestId = id ∧ s.result = result := by
  unfold CachedActorState.replay at hr
  split_ifs at hr with hid
  rcases h with ⟨-, -, hnone, -⟩ | ⟨s, hs, -, -, -, hlast, hres⟩
  · rw [hnone] at hid; cases hid
  · rw [hlast] at hid
    rw [hres] at hr
    cases hid
    cases hr
    exact ⟨s, hs, rfl, rfl⟩

/-- A request that is not answered from `c` did not produce it. -/
theorem Based.not_last {c : CachedActorState} {id : String} (h : Based D w o c) (hr : c.replay id = none) :
    c.lastRequestId ≠ some id := by
  intro hid
  unfold CachedActorState.replay at hr
  rw [if_pos hid] at hr
  rcases h with ⟨-, -, hnone, -⟩ | ⟨s, -, -, -, -, -, hres⟩
  · rw [hnone] at hid; cases hid
  · rw [hres] at hr; cases hr

theorem Based.resolved {c : CachedActorState} {p : PendingStateCommit} (h : IsHead D w o p.snapshot)
    (he : p.snapshot.ownerEpoch = c.ownerEpoch) (next : Option StateWriteTicket) :
    Based D w o (c.resolved p next) :=
  .inr ⟨p.snapshot, h, he.le, rfl, rfl, rfl, rfl⟩

/-- `state` is the state of the snapshot recorded as head `v`; before the first head there is none. -/
def StateAt (D : Deployment) (w : World) (o : ActorStorageKey) (v : ℕ) (state : Option Value) : Prop :=
  v = 0 ∧ state = none ∨ ∃ s, IsHead D w o s ∧ s.stateVersion = v ∧ state = some s.state

theorem Based.stateAt {c : CachedActorState} (hb : Based D w o c) : StateAt D w o c.stateVersion c.state := by
  rcases hb with ⟨hv, hs, -⟩ | ⟨s, hs, -, hv, hstate, -⟩
  · exact .inl ⟨hv, hs⟩
  · exact .inr ⟨s, hs, hv.symm, hstate⟩

/-- The object recorded as head `s.stateVersion` decodes to `s`. -/
def HeadDecodes (D : Deployment) (w : World) (o : ActorStorageKey) (s : StateSnapshot) : Prop :=
  ∃ region name bytes, w.region o = some region ∧ ⟨s.stateVersion, some name, some s.requestId⟩ ∈ w.heads o ∧
    w.objects ⟨region, name⟩ = some bytes ∧ StateSnapshot.decode D.serde bytes = .ok s

/-- `state` is what the object recorded as head `v` decodes to; before the first head there is none. -/
def HeadDecodesAt (D : Deployment) (w : World) (o : ActorStorageKey) (v : ℕ) (state : Option Value) : Prop :=
  v = 0 ∧ state = none ∨ ∃ s, HeadDecodes D w o s ∧ s.stateVersion = v ∧ state = some s.state

theorem Produced.readsBack {name : String} {s : StateSnapshot} {t : ℕ} (hp : Produced D w h o name s t)
    (hread : D.ReadsBack) : s.ReadsBack D.serde := by
  obtain ⟨call, c, effects, -, -, -, hran⟩ := hp.origin
  obtain ⟨hresult, hstate⟩ := hread _ _ _ _ _ hran.runs
  exact ⟨hstate, hresult⟩

/-- Turn `t` uploaded the object at `l`. -/
def Wrote (w : World) (t : ℕ) (l : Location) : Prop := ∃ u ∈ w.uploads, u.turn = t ∧ u.location = l

theorem wrote_unique {t t' : ℕ} {l : Location} (hnodup : (w.uploads.map (·.location.objectName)).Nodup)
    (ht : Wrote w t l) (ht' : Wrote w t' l) : t = t' := by
  obtain ⟨u, hu, rfl, hl⟩ := ht
  obtain ⟨u', hu', rfl, hl'⟩ := ht'
  have := List.inj_on_of_nodup_map hnodup hu hu' (by rw [hl, hl'])
  rw [this]

/-- An object holds one snapshot, and one turn has written it. -/
theorem Produced.unique {h' : HostId} {name : String} {s s' : StateSnapshot} {t t' : ℕ}
    (hp : Produced D w h o name s t) (hp' : Produced D w h' o name s' t')
    (hnodup : (w.uploads.map (·.location.objectName)).Nodup) : s = s' ∧ t = t' := by
  obtain ⟨region, bytes, hr, henc, hu, hobj⟩ := hp.stored
  obtain ⟨region', bytes', hr', henc', hu', hobj'⟩ := hp'.stored
  cases hr.symm.trans hr'
  cases hobj.symm.trans hobj'
  exact ⟨StateSnapshot.encode_injective henc henc', wrote_unique hnodup ⟨_, hu, rfl, rfl⟩ ⟨_, hu', rfl, rfl⟩⟩

/-! ### Turns -/

def EndingOk (D : Deployment) (w : World) (t : ℕ) (call : HostCall) : Ending → Prop
  | .unresolved => executions (w.trace t) = []
  | .replayed result => executions (w.trace t) = [] ∧ ∃ s, IsHead D w call.request.object s ∧
      s.requestId = call.request.id ∧ s.result = result
  | .failed => True
  | .unchanged result effects => ∃ c next, RanOn D w t call c result next effects ∧ c.state = some next
  | .unpublished => True
  | .published result effects => ∃ c next, RanOn D w t call c result next effects ∧
      IsHead D w call.request.object (call.snapshot c result next)

/-- What is known of a turn in each phase. -/
def PhaseOk (D : Deployment) (w : World) (t : ℕ) (h : HostId) (call : HostCall) : Phase → Prop
  | .waiting => executions (w.trace t) = []
  | .admitted => executions (w.trace t) = []
  | .loading => executions (w.trace t) = []
  | .unloaded => True
  | .holding c => executions (w.trace t) = [] ∧ c.ownerEpoch = call.ownerEpoch ∧
      CachedOk D w h call.request.object c
  | .publishing c result next effects _ => RanOn D w t call c result next effects ∧ c.pending = none
  | .committing c p result effects => RanOn D w t call c result p.snapshot.state effects ∧
      p.snapshot = call.snapshot c result p.snapshot.state ∧
      Produced D w h call.request.object p.ticket.objectName p.snapshot t ∧ c.pending = none
  | .storing ending c => EndingOk D w t call ending ∧ c.ownerEpoch = call.ownerEpoch ∧
      CachedOk D w h call.request.object c
  | .stored ending => EndingOk D w t call ending

theorem EndingOk.mono {t : ℕ} {call : HostCall} {ending : Ending} (h : EndingOk D w t call ending)
    (hl : Later w w') (he : executions (w'.trace t) = executions (w.trace t)) :
    EndingOk D w' t call ending := by
  cases ending with
  | unresolved => exact he.trans h
  | replayed result =>
    obtain ⟨hx, s, hs, hrest⟩ := h
    exact ⟨he.trans hx, s, hs.mono hl, hrest⟩
  | failed => trivial
  | unchanged result effects =>
    obtain ⟨c, next, hran, hsame⟩ := h
    exact ⟨c, next, hran.mono hl, hsame⟩
  | unpublished => trivial
  | published result effects =>
    obtain ⟨c, next, hran, hhead⟩ := h
    exact ⟨c, next, hran.mono hl, hhead.mono hl⟩

theorem PhaseOk.mono {t : ℕ} {call : HostCall} {phase : Phase} (hp : PhaseOk D w t h call phase)
    (hl : Later w w') (he : executions (w'.trace t) = executions (w.trace t)) :
    PhaseOk D w' t h call phase := by
  cases phase with
  | waiting => exact he.trans hp
  | admitted => exact he.trans hp
  | loading => exact he.trans hp
  | unloaded => trivial
  | holding c => exact ⟨he.trans hp.1, hp.2.1, hp.2.2.mono hl⟩
  | publishing c result next effects ticket => exact ⟨hp.1.mono hl, hp.2⟩
  | committing c p result effects => exact ⟨hp.1.mono hl, hp.2.1, hp.2.2.1.mono hl, hp.2.2.2⟩
  | storing ending c => exact ⟨hp.1.mono hl he, hp.2.1, hp.2.2.mono hl⟩
  | stored ending => exact EndingOk.mono hp hl he

/-- The phases in which a turn cannot have uploaded anything. -/
def Phase.Clean : Phase → Prop
  | .committing .. => False
  | .storing .unpublished _ => False
  | .storing (.published ..) _ => False
  | .stored .unpublished => False
  | .stored (.published ..) => False
  | .unloaded => False
  | _ => True

/-! ### Write tickets -/

inductive Holder where
  | cache (h : HostId) (o : ActorStorageKey)
  | turn (t : ℕ)

def Phase.ticket : Phase → Option StateWriteTicket
  | .holding c => c.nextWrite
  | .publishing _ _ _ _ ticket => ticket
  | .storing _ c => c.nextWrite
  | _ => none

def World.phase (D : Deployment) (w : World) (t : ℕ) (h : HostId) (call : HostCall) : Phase :=
  Phase.after (D.host h) call (w.trace t)

inductive Held (D : Deployment) (s : ClusterState) : Holder → ActorStorageKey → StateWriteTicket → Prop
  | cache {h : HostId} {o : ActorStorageKey} {c : CachedActorState} {k : StateWriteTicket} :
      s.world.caches h o = some c → c.nextWrite = some k → Held D s (.cache h o) o k
  | turn {t : ℕ} {h : HostId} {call : HostCall} {p : HostM TurnAnswer} {k : StateWriteTicket} :
      s.turns t = some ((h, call), p) → (s.world.phase D t h call).ticket = some k →
      Held D s (.turn t) call.request.object k

/-- Every ticket that may still be used has one holder, and its object was never sent. -/
structure TicketsOk (D : Deployment) (s : ClusterState) (holder : String → Option Holder) : Prop where
  held : ∀ x o k, Held D s x o k → holder k.objectName = some x ∧
    ∃ region, s.world.region o = some region ∧ D.locate k.url = some ⟨region, k.objectName⟩
  unused : ∀ n x, holder n = some x → n ∈ s.world.issued ∧ ∀ u ∈ s.world.uploads, u.location.objectName ≠ n

/-! ### The cluster -/

/-- A row the control plane read is in the history. -/
def Observed (w : World) (placement : ObjectPlacement) : Prop :=
  w.region placement.object = some placement.homeRegion ∧ (placement.stateVersion = 0 ∨
    ⟨placement.stateVersion, placement.stateObject, placement.lastRequestId⟩ ∈ w.heads placement.object)

/-- The turn is running or has answered; it was not dropped. -/
def ClusterState.Kept (s : ClusterState) (t : ℕ) : Prop := s.turns t ≠ none ∨ s.world.answers t ≠ none

structure ClusterOk (D : Deployment) (s : ClusterState) : Prop where
  store : StoreOk s.world.store
  arriving : ∀ i q p, s.world.store.calls i = some (.commitState q, p) → q ∈ s.world.sent
  heads : ∀ o head, head ∈ s.world.heads o → ∃ q ∈ s.world.sent, q.object = o ∧ q.head = head
  sent : ∀ q ∈ s.world.sent, Justified D s.world q
  committed : ∀ q placement, (q, placement) ∈ s.world.committed →
    q.head ∈ s.world.heads q.object ∧ s.world.region q.object = some placement.homeRegion
  observed : ∀ placement ∈ s.world.observed, Observed s.world placement
  uploads : (s.world.uploads.map (·.location.objectName)).Nodup
  uploaded : ∀ u ∈ s.world.uploads, u.location.objectName ∈ s.world.issued
  objects : ∀ l b, s.world.objects l = some b → ∃ u ∈ s.world.uploads, u.location = l ∧ u.bytes = b
  tickets : ∃ holder, TicketsOk D s holder
  caches : ∀ h o c, s.world.caches h o = some c → CachedOk D s.world h o c
  unused : ∀ t, s.world.calls t = none → s.turns t = none ∧ s.world.answers t = none ∧ s.world.trace t = [] ∧
    ∀ u ∈ s.world.uploads, u.turn ≠ t
  capable : ∀ t h call, s.world.calls t = some (h, call) → Capable D s.world h call
  turns : ∀ t h call p, s.turns t = some ((h, call), p) → s.world.calls t = some (h, call) ∧
    s.world.answers t = none ∧ wp (phaseEnv (D.host h) call) p (fun a phase => phase.Returns call.request a)
      (s.world.phase D t h call)
  phases : ∀ t h call, s.Kept t → s.world.calls t = some (h, call) →
    PhaseOk D s.world t h call (s.world.phase D t h call) ∧
      ((s.world.phase D t h call).Clean → ∀ u ∈ s.world.uploads, u.turn ≠ t)
  returned : ∀ t h call a, s.world.calls t = some (h, call) → s.world.answers t = some a →
    (s.world.phase D t h call).Returns call.request a

end LDO
