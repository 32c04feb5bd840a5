import DurableObjects.Sanity.Holding
import DurableObjects.Sanity.Schedule

/-! The owner and its cache. A request whose epoch is not that of the cached state takes
the state out of the cache before it is compared, so a request of an older epoch loses
it; the next request of the current epoch then starts from whatever its capability
names. Requests that reach the cache in the order of their epochs are served the
current head, however old the version in their capability. -/

namespace LDO

open Prog

variable {D : Deployment} {h : HostId} {o : ActorStorageKey} {s s' : ClusterState} {w : World}

/-- Turn `t` of host `h` is about to run its request on `state`. -/
def ClusterState.Executing (s : ClusterState) (t : ℕ) (h : HostId) (call : HostCall)
    (state : Option Value) : Prop :=
  ∃ next, s.turns t = some ((h, call), .call (call.request.executionOp state) next)

/-- A turn of host `h` wrote the recorded version `v`, whether or not it could say so. -/
def World.Published (w : World) (h : HostId) (o : ActorStorageKey) (v : ℕ) : Prop :=
  ∃ t call region name id, w.calls t = some (h, call) ∧ w.region o = some region ∧ Wrote w t ⟨region, name⟩ ∧
    ⟨v, some name, id⟩ ∈ w.heads o

structure ServesCurrent (D : Deployment) (h : HostId) (s : ClusterState) : Prop where
  /-- The recorded owner runs a request on the state of the current head. -/
  current : ∀ t call state row, s.Executing t h call state → s.world.row call.request.object = some row →
    row.ownerHostId = h → row.ownerEpoch = call.ownerEpoch →
    HeadDecodesAt D s.world call.request.object row.stateVersion state
  /-- What the host has published, every turn sees. -/
  visible : ∀ t call state, s.Executing t h call state →
    ∃ n, HeadDecodesAt D s.world call.request.object n state ∧
    ∀ v, s.world.Published h call.request.object v → v ≤ n

/-- A step leaves an entry of the cache alone, or it gives the whole entry to a request of
its epoch, or it drops it for a request of a newer epoch whose version is no older, also
than that of a pending commit which is recorded. -/
def KeepsNewer (D : Deployment) (h : HostId) (s : ClusterState) (e : ClusterEvent)
    (s' : ClusterState) : Prop :=
  ∀ o c, s.world.caches h o = some c → s'.world.caches h o = some c ∨
    ∃ t op call, e = .call t op ∧ s.world.calls t = some (h, call) ∧ call.request.object = o ∧
      (s'.world.phase D t h call = .holding c ∨
        c.ownerEpoch < call.ownerEpoch ∧ c.stateVersion ≤ call.stateVersion ∧
          ∀ p, c.pending = some p → IsHead D s.world o p.snapshot → p.snapshot.stateVersion ≤ call.stateVersion)

/-- A head of an epoch before the one that was read is in what was read. -/
theorem IsHead.le_observed {snapshot : StateSnapshot} {p : ObjectPlacement} (hok : ClusterOk D s)
    (hf : Fenced s.world) (hh : IsHead D s.world o snapshot) (hp : p ∈ s.world.observed) (ho : p.object = o)
    (hlt : snapshot.ownerEpoch < p.ownerEpoch) : snapshot.stateVersion ≤ p.stateVersion := by
  obtain ⟨q, hq, hqo, hqh, hqe, hqv⟩ := hh.sent hok
  have := (hf.between q hq hqh p hp (ho.trans hqo.symm)).1 (by omega)
  omega

/-- Nothing recorded up to the epoch of a settled state is missing in it. -/
theorem StateOk.latest {c : CachedActorState} {q : StateCommitRequest} (hc : StateOk w h o c) (hf : Fenced w)
    (hsettled : c.pending = none) (hq : q ∈ w.sent) (hqh : q.head ∈ w.heads q.object) (hqo : q.object = o)
    (hqe : q.ownerEpoch ≤ c.ownerEpoch) : q.expectedVersion + 1 ≤ c.stateVersion := by
  obtain ⟨p, hp, hpo, hph, hpe, hpv⟩ := hc.observed
  obtain ⟨hbefore, hsame⟩ := hf.between q hq hqh p hp (hpo.trans hqo.symm)
  rcases Nat.lt_or_ge q.ownerEpoch p.ownerEpoch with hlt | hge
  · exact (hbefore hlt).trans hpv
  · have heq : q.ownerEpoch = p.ownerEpoch := by omega
    rcases hc.covered q hq hqo ((hsame heq).trans hph) (heq.trans hpe) with hlt | ⟨-, hpend⟩
    · exact hlt
    · exact absurd hsettled hpend

theorem executionOp_inj {request : ActorRequest} {a b : Option Value}
    (heq : request.executionOp a = request.executionOp b) : a = b := by
  cases request with
  | invoke i => cases heq; rfl
  | handleSocket i => cases heq; rfl

/-- The only call to the executor is made with a settled state in hand. -/
theorem holding_of_execution {host : ActorHost} {call : HostCall} {phase : Phase} {op : HostOp}
    (hop : Phase.Allows host call phase op) (hx : op.isExecution = true) :
    ∃ c, phase = .holding c ∧ c.pending = none ∧ op = call.request.executionOp c.state := by
  cases hop with
  | execute hp => exact ⟨_, rfl, hp, rfl⟩
  | settle _ hc => rw [Phase.Commits] at hc; subst hc; cases hx
  | commit hc => rw [Phase.Commits] at hc; subst hc; cases hx
  | _ => cases hx

/-- A turn that is about to run its request holds the state it runs it on. -/
theorem executing_state {t : ℕ} {call : HostCall} {state : Option Value} (hok : ClusterOk D s)
    (hk : OwnerOk D h call.request.object s) (hx : s.Executing t h call state) :
    ∃ c, c.state = state ∧ c.pending = none ∧ c.ownerEpoch = call.ownerEpoch ∧
      Based D s.world call.request.object c ∧ StateOk s.world h call.request.object c := by
  obtain ⟨next, ht⟩ := hx
  obtain ⟨hcalls, -, hwp⟩ := hok.turns t h call _ ht
  have hphase := (hok.phases t h call (.inl (by rw [ht]; simp)) hcalls).1
  obtain ⟨c, hph, hp, hop⟩ := holding_of_execution hwp.1 (executionOp_isExecution _ _)
  rw [hph] at hphase
  obtain ⟨-, he, hcached⟩ := hphase
  refine ⟨c, (executionOp_inj hop).symm, hp, he, hcached.based, hk.state c (.turn ht rfl ?_)⟩
  rw [hph]
  rfl

theorem Based.le_version {c : CachedActorState} {row : PlacementRow} (hb : Based D s.world o c)
    (hok : ClusterOk D s) (hrow : s.world.row o = some row) : c.stateVersion ≤ row.stateVersion := by
  rcases hb with ⟨h0, -⟩ | ⟨snapshot, ⟨region, name, bytes, -, hm, -⟩, -, hv, -⟩
  · omega
  · rw [hv]
    exact hok.store.heads.le_version hrow hm

theorem servesCurrent_of_ownerOk (hok : ClusterOk D s) (hread : D.ReadsBack) (hf : Fenced s.world)
    (hk : ∀ o, OwnerOk D h o s) :
    ServesCurrent D h s := by
  refine ⟨?_, ?_⟩
  · intro t call state row hx hrow hown hep
    obtain ⟨c, rfl, hp, hce, hb, hc⟩ := executing_state hok (hk _) hx
    have hle := hb.le_version hok hrow
    have hge : row.stateVersion ≤ c.stateVersion := by
      rcases Nat.eq_zero_or_pos row.stateVersion with h0 | hpos
      · omega
      · -- the head in the row was committed under an epoch the row has reached
        obtain ⟨q, hq, hqo, hqh⟩ := hok.heads _ _ (hok.store.heads.head_mem hrow hpos)
        have hqm : q.head ∈ s.world.heads q.object := by
          rw [hqo, hqh]
          exact hok.store.heads.head_mem hrow hpos
        obtain ⟨row', hrow', hqe, -⟩ := hf.recorded q hq hqm
        rw [hqo] at hrow'
        cases hrow.symm.trans hrow'
        have hqv : q.expectedVersion + 1 = row.stateVersion := congrArg Head.stateVersion hqh
        have := hc.latest hf hp hq hqm hqo (by omega)
        omega
    rw [le_antisymm hge hle]
    exact hb.stateAt.decodes hok hread
  · intro t call state hx
    obtain ⟨c, rfl, hp, hce, hb, hc⟩ := executing_state hok (hk _) hx
    refine ⟨c.stateVersion, hb.stateAt.decodes hok hread, ?_⟩
    rintro v ⟨t', call', region, name, id, hcalls, hr, hwrote, hm⟩
    obtain ⟨q, hq, hqo, hqh⟩ := hok.heads _ _ hm
    obtain ⟨hqv, hqn, -⟩ := Head.mk.inj hqh
    obtain ⟨snapshot, writer, -, -, -, hprod⟩ := hok.sent q hq
    obtain ⟨region', bytes, hr', -, hu, -⟩ := hprod.stored
    rw [hqo] at hr'
    cases hr.symm.trans hr'
    -- the writer of the object is a turn of this host
    have hwriter : writer = t' := by
      refine wrote_unique hok.uploads ⟨_, hu, rfl, rfl⟩ ?_
      rw [Option.some.inj hqn]
      exact hwrote
    subst hwriter
    obtain ⟨call'', c', effects, hcalls', -⟩ := hprod.origin
    have hqown : q.owner = h := (Prod.mk.inj (Option.some.inj (hcalls'.symm.trans hcalls))).1
    have hqe := hc.newest _ ((hk _).sent q hq hqo hqown)
    have := hc.latest hf hp hq (by rw [hqo, hqh]; exact hm) hqo hqe
    omega

/-- A request of a newer epoch knows all of a cached state. -/
theorem CachedOk.le_capability {c : CachedActorState} {call : HostCall} (hc : CachedOk D s.world h o c)
    (hok : ClusterOk D s) (hf : Fenced s.world) (hcap : Capable D s.world h call) (ho : call.request.object = o)
    (hlt : c.ownerEpoch < call.ownerEpoch) : c.stateVersion ≤ call.stateVersion ∧
      ∀ p, c.pending = some p → IsHead D s.world o p.snapshot →
      p.snapshot.stateVersion ≤ call.stateVersion := by
  obtain ⟨-, placement, hm, hobj, -, hep, hver, -⟩ := hcap
  have hobj := hobj.trans ho
  constructor
  · rcases hc.based with ⟨h0, -⟩ | ⟨snapshot, hh, he, hv, -⟩
    · omega
    · have := hh.le_observed hok hf hm hobj (by omega)
      omega
  · intro p hp hh
    obtain ⟨-, he, -⟩ := hc.pending p hp
    have := hh.le_observed hok hf hm hobj (by omega)
    omega

theorem keepsNewer_of_ownerOk {e : ClusterEvent} (hok : ClusterOk D s) (hf : Fenced s.world)
    (hk : ∀ o, OwnerOk D h o s) (hs : ClusterStep D s e s') (hin : InOrder D h s e s') :
    KeepsNewer D h s e s' := by
  intro o c hc
  cases hs with
  | observe _ => exact .inl hc
  | arrive _ _ => exact .inl hc
  | send _ _ => exact .inl hc
  | store _ _ => exact .inl hc
  | land _ => exact .inl hc
  | finish _ =>
    refine .inl ?_
    obtain ⟨gates, hg⟩ := release_eq s.world _ _ _
    rw [hg]
    exact hc
  | drop _ =>
    refine .inl ?_
    obtain ⟨gates, hg⟩ := release_eq s.world _ _ _
    rw [hg]
    exact hc
  | restart sessionId _ =>
    refine .inl ?_
    have hne : h ≠ _ := fun heq => hin heq.symm
    simpa [hne] using hc
  | call ht ha =>
    rename_i t h₀ call op next r w'
    obtain ⟨hcalls, -, hwp⟩ := hok.turns t h₀ call _ ht
    by_cases hown : h = h₀ ∧ o = call.request.object
    swap
    · exact .inl ((answers_slot ha hwp.1 hown).1.trans hc)
    obtain ⟨rfl, rfl⟩ := hown
    cases ha with
    | take =>
      obtain ⟨rfl, hadm⟩ := take_object hwp.1
      refine .inr ⟨t, _, call, rfl, hcalls, rfl, ?_⟩
      rw [phase_log]
      change (s.world.phase D t h call).next (D.host h) call _ _ = _ ∨ _
      rw [hadm, hc]
      simp only [Phase.next, Phase.onAdmitted, Phase.start]
      by_cases he : c.ownerEpoch = call.ownerEpoch
      · exact .inl (by rw [Option.filter_some, if_pos (decide_eq_true he)])
      · have hle := hin call _ ht rfl _ ((hk _).state c (.cache hc)).taken
        have hlt : c.ownerEpoch < call.ownerEpoch := by omega
        exact .inr ⟨hlt, (hok.caches h _ c hc).le_capability hok hf (hok.capable t h call hcalls) rfl hlt⟩
    | store =>
      -- nothing is put into a cache that is not empty
      obtain ⟨rfl, hheld⟩ := store_held hwp.1
      rw [(hk _).alone t call _ ht rfl (Phase.taken_of_held hheld)] at hc
      cases hc
    | _ => exact .inl hc

/-- In a run in which host `h` lets requests take a state in the order of their epochs,
as the recorded owner it always serves the current state, if what the executor answers is
read back as it was. -/
theorem current_owner_serves_current (D : Deployment) (hread : D.ReadsBack) (h : HostId) {s : ClusterState}
    (hs : ((clusterSystem D).restrict (InOrder D h)).Reachable s) :
    ServesCurrent D h s ∧
      ∀ e s', ((clusterSystem D).restrict (InOrder D h)).step s e s' → KeepsNewer D h s e s' := by
  have hok := clusterOk_reachable hs.of_restrict
  have hf := fenced_reachable hs.of_restrict
  have hk : ∀ o, OwnerOk D h o s := by
    intro o
    have hboth : ClusterOk D s ∧ OwnerOk D h o s := by
      refine hs.invariant (I := fun s => ClusterOk D s ∧ OwnerOk D h o s) ?_ ?_
      · exact fun hi => ⟨clusterOk_init hi, ownerOk_init hi⟩
      · exact fun hs hstep => ⟨clusterOk_step hs.1 hstep.1, ownerOk_step hs.2 hs.1 hstep.1 hstep.2⟩
    exact hboth.2
  refine ⟨servesCurrent_of_ownerOk hok hread hf hk, ?_⟩
  exact fun e s' hstep => keepsNewer_of_ownerOk hok hf hk hstep.1 hstep.2

/-! ### The counter, in order and out of order -/

/-- What a schedule says about a turn that is about to execute. -/
theorem executing_of_reachable {t : ℕ} {call : HostCall} {state : Option Value}
    (hs : (clusterSystem D).Reachable s) (hc : s.world.calls t = some (h, call))
    (hx : Machine.executing s t = some state) : s.Executing t h call state := by
  unfold Machine.executing at hx
  split at hx
  · rename_i tag op next ht
    obtain ⟨h', call'⟩ := tag
    obtain ⟨hc', -, hwp⟩ := (clusterOk_reachable hs).turns t h' call' _ ht
    cases hc.symm.trans hc'
    have hop : op.isExecution = true := by
      cases op with
      | invokeWithState => rfl
      | handleSocketWithState => rfl
      | _ => cases hx
    obtain ⟨c, -, -, rfl⟩ := holding_of_execution hwp.1 hop
    have hstate : c.state = state := by
      cases hreq : call.request <;> rw [hreq] at hx <;> exact Option.some.inj hx
    subst hstate
    exact ⟨next, ht⟩
  · cases hx

/-- The counter moves to host B and back, so host A owns it at epochs 1 and 3. -/
def moved : List Machine.Command :=
  claimed ++
    [.storeCall 2 (.claim counterObject (some ⟨counterObject, hostA, 1, "us-east", 0, none, none⟩) hostB "us-east"),
      .storeRun 2,
      .storeCall 3 (.claim counterObject (some ⟨counterObject, hostB, 2, "us-east", 0, none, none⟩) hostA "us-east"),
      .storeRun 3, .observe counterObject]

/-- Version 1 is committed and acknowledged at epoch 3; a request of epoch 1 fails; the
next request of epoch 3 finds the cache without it. -/
def stale : List Machine.Command :=
  moved ++ uploading 0 (increment "request-1" 3 0 "") ++ committing 0 4 0 ++ [.answer 0, .answer 0, .finish 0] ++
    .arrive 1 hostA (increment "request-2" 1 0 "") :: List.replicate 4 (.answer 1) ++
    [.fail 1, .answer 1, .answer 1, .finish 1] ++
    .arrive 2 hostA (increment "request-3" 3 0 "") :: List.replicate 4 (.answer 2)

theorem owner_serves_stale_state : ∃ s, (clusterSystem counter.deployment).Reachable s ∧
    counter.run stale Machine.initial = some s ∧ ¬ ServesCurrent counter.deployment hostA s := by
  have hrun : (counter.run stale Machine.initial).map
      (fun s => (Machine.executing s 2, s.world.calls 2, s.world.row counterObject)) =
      some (some none, some (hostA, increment "request-3" 3 0 ""),
        some ⟨hostA, 3, "us-east", 1, some "snapshots/0", some "request-1"⟩) := by decide +kernel
  obtain ⟨s, hs, heq⟩ := Option.map_eq_some_iff.mp hrun
  simp only [Prod.mk.injEq] at heq
  obtain ⟨hx, hc, hrow⟩ := heq
  have hreach := Machine.reachable_of_run hs
  refine ⟨s, hreach, hs, fun hserves => ?_⟩
  rcases hserves.current 2 _ none _ (executing_of_reachable hreach hc hx) hrow rfl rfl with
    ⟨h0, -⟩ | ⟨snapshot, -, -, hnone⟩
  · cases h0
  · cases hnone

/-- A run whose requests all carry one epoch is in order. -/
theorem inOrder_of_atEpoch {n : ℕ} {evs : List ClusterEvent} (hp : (clusterSystem D).Run evs s)
    (hn : ∀ e ∈ evs, Machine.AtEpoch n e) : ((clusterSystem D).restrict (InOrder D h)).Reachable s := by
  obtain ⟨s₀, hi, hp⟩ := hp
  have hboth : (∀ t h call, s.world.calls t = some (h, call) → call.ownerEpoch = n) ∧
      ((clusterSystem D).restrict (InOrder D h)).Reachable s := by
    induction hp with
    | nil =>
      refine ⟨?_, [], _, hi, .nil _⟩
      obtain ⟨sessions, rfl⟩ := hi
      exact nofun
    | snoc _ hs ih =>
      rename_i s₁ s₂ evs e _
      obtain ⟨hcalls, hreach⟩ := ih fun e he => hn e (List.mem_append_left _ he)
      have he := hn e (by simp)
      refine ⟨?_, hreach.step ⟨hs, ?_⟩⟩
      · intro t h call hc
        rcases calls_step hs hc with hc | rfl
        · exact hcalls t h call hc
        · exact he
      · cases e with
        | call t op =>
          rintro call p ht - epoch ⟨t', call', ev, hc, -, rfl, -⟩
          rw [hcalls _ _ _ hc, hcalls _ _ _ ((clusterOk_reachable hreach.of_restrict).turns _ _ _ _ ht).1]
        | drop t => exact he.elim
        | restart h' sessionId => exact he.elim
        | _ => trivial
  exact hboth.2

/-- The second request carries the version before the first one. -/
def inOrder : List Machine.Command :=
  incremented ++ .arrive 1 hostA (increment "request-2" 1 0 "") :: List.replicate 4 (.answer 1)

theorem counter_readsBack : counter.deployment.ReadsBack := by
  have hnumber : ∀ n : Number, literalSerde.number n.text = some n := fun n => dif_pos n.literal
  have hrun : ∀ {request : ActorRequest} {state : Option Value} {result next : Value} {effects : List ActorSocketEffect},
      counter.execute request state = (result, next, effects) →
      ReadsBack literalSerde result ∧ ReadsBack literalSerde next := by
    rintro request state result next effects ⟨⟩
    refine ⟨⟨126, rfl, ?_⟩, ⟨126, rfl, ?_⟩⟩ <;> simp [Readable, ReadableFields, hnumber]
  intro request state result next effects hruns
  cases request with
  | invoke i => exact hrun hruns
  | handleSocket i =>
    obtain ⟨rfl, result, hresult⟩ := hruns
    exact ⟨⟨126, rfl, by simp [Readable]⟩, (hrun hresult).2⟩

theorem current_owner_serves_current_counter : ∃ s, ((clusterSystem counter.deployment).restrict
      (InOrder counter.deployment hostA)).Reachable s ∧
    s.Executing 1 hostA (increment "request-2" 1 0 "") (some (.obj [("value", .num (.ofNat 1))])) ∧
    HeadDecodesAt counter.deployment s.world counterObject 1 (some (.obj [("value", .num (.ofNat 1))])) := by
  have hrun : (counter.run inOrder Machine.initial).map
      (fun s => (Machine.executing s 1, s.world.calls 1, s.world.row counterObject)) =
      some (some (some (.obj [("value", .num (.ofNat 1))])), some (hostA, increment "request-2" 1 0 ""),
        some ⟨hostA, 1, "us-east", 1, some "snapshots/0", some "request-1"⟩) := by decide +kernel
  obtain ⟨s, hs, heq⟩ := Option.map_eq_some_iff.mp hrun
  simp only [Prod.mk.injEq] at heq
  obtain ⟨hx, hc, hrow⟩ := heq
  obtain ⟨evs, hp, hepoch⟩ := Machine.run_sound hs
  have hreach := inOrder_of_atEpoch (h := hostA) ⟨_, ⟨_, rfl⟩, hp⟩ (hepoch 1 (by decide))
  have hexec := executing_of_reachable hreach.of_restrict hc hx
  refine ⟨s, hreach, hexec, ?_⟩
  have hat := (current_owner_serves_current counter.deployment counter_readsBack hostA hreach).1.current 1 _ _ _ hexec
    (by rw [increment_object]; exact hrow) rfl rfl
  rwa [increment_object] at hat

end LDO
