import DurableObjects.Sanity.Schedule
import DurableObjects.Sanity.Holding
import DurableObjects.Proofs.Durability

/-! An owner that was superseded. Only the commit is fenced by the epoch: a turn of an older
epoch records nothing any more, but it is still answered when it replays an outcome or
leaves the state as it is, since neither asks the control plane. -/

namespace LDO

open Prog

variable {D : Deployment} {s s' : ClusterState} {e : ClusterEvent} {t : ℕ} {h : HostId} {call : HostCall} {o : ActorStorageKey}

/-! ### What a turn has published -/

/-- The turn was told that its own commit is recorded. -/
def Phase.Published : Phase → Prop
  | .storing (.published ..) _ => True
  | .stored (.published ..) => True
  | _ => False

/-- The head a turn published is its own work, of its epoch. -/
def PublishedBy (D : Deployment) (w : World) (t : ℕ) (h : HostId) (call : HostCall) : Prop :=
  ∃ name snapshot, Produced D w h call.request.object name snapshot t ∧ snapshot.ownerEpoch = call.ownerEpoch ∧
    ⟨snapshot.stateVersion, some name, some snapshot.requestId⟩ ∈ w.heads call.request.object

theorem PublishedBy.mono {w w' : World} (hp : PublishedBy D w t h call) (hl : Later w w') :
    PublishedBy D w' t h call := by
  obtain ⟨name, snapshot, hprod, hepoch, hhead⟩ := hp
  exact ⟨name, snapshot, hprod.mono hl, hepoch, (hl.heads _).subset hhead⟩

/-- Published is what was published before, or what is confirmed now. -/
theorem published_next {host : ActorHost} {phase : Phase} {op : HostOp} {r : op.Res}
    (hop : Phase.Allows host call phase op) (hpub : (phase.next host call op r).Published) : phase.Published ∨
      ∃ c p result effects committed, phase = .committing c p result effects ∧
        (⟨op, r⟩ : HostEvent) = ⟨.commitState call.request.actor host.id c.ownerEpoch c.stateVersion p.ticket.objectName
          p.snapshot.requestId, .ok committed⟩ := by
  cases hop with
  | accepting => exact hpub.elim
  | admission => rcases r with e | _ | _ <;> exact hpub.elim
  | recheck => exact hpub.elim
  | take =>
    cases r with
    | error e => exact hpub.elim
    | ok cached =>
      simp only [Phase.next, Phase.onAdmitted, Phase.start] at hpub
      split at hpub
      · exact hpub.elim
      · split_ifs at hpub <;> exact hpub.elim
  | read =>
    cases r with
    | error e => exact hpub.elim
    | ok state =>
      simp only [Phase.next, Phase.onLoading, Phase.load] at hpub
      split at hpub <;> exact hpub.elim
  | settle hp hc =>
    rw [Phase.Commits] at hc
    subst hc
    simp only [Phase.next, Phase.onHolding, Phase.settle, hp] at hpub
    split at hpub <;> exact hpub.elim
  | replay => cases r <;> exact hpub.elim
  | @execute c _ _ =>
    have hno : ∀ outcome, ¬ (Phase.executed c outcome).Published := by
      intro outcome h
      cases outcome with
      | none => exact h
      | some x =>
        simp only [Phase.executed] at h
        split_ifs at h <;> exact h
    obtain ⟨request, ownerEpoch, stateVersion, url⟩ := call
    cases request with
    | invoke i => exact (hno _ hpub).elim
    | handleSocket i => exact (hno _ hpub).elim
  | clock => cases r <;> exact hpub.elim
  | prepare => cases r <;> exact hpub.elim
  | write => cases r <;> exact hpub.elim
  | unsent => exact hpub.elim
  | commit hc =>
    rw [Phase.Commits] at hc
    subst hc
    simp only [Phase.next, Phase.onCommitting, Phase.confirm] at hpub
    split at hpub
    · rename_i hr
      obtain ⟨committed, rfl, -⟩ := confirmed_ok hr
      exact .inr ⟨_, _, _, _, committed, rfl, rfl⟩
    · exact hpub.elim
  | evict => exact .inl hpub
  | @store ending _ =>
    cases r with
    | error e => exact hpub.elim
    | ok u => cases ending <;> first | exact .inl trivial | exact hpub.elim

/-- Every turn that was told so has published its own work. -/
def PublishedOk (D : Deployment) (s : ClusterState) : Prop :=
  ∀ t h call, s.world.calls t = some (h, call) → (s.world.phase D t h call).Published →
    PublishedBy D s.world t h call

theorem publishedBy_call {op : HostOp} {next : op.Res → HostM TurnAnswer} {r : op.Res} {w : World}
    (hok : ClusterOk D s) (ht : s.turns t = some ((h, call), .call op next))
    (ha : Answers D t h s.world op r w)
    (hpub : ((s.world.phase D t h call).next (D.host h) call op r).Published)
    (hold : (s.world.phase D t h call).Published → PublishedBy D s.world t h call) :
    PublishedBy D s.world t h call := by
  obtain ⟨hc, -, hwp⟩ := hok.turns t h call _ ht
  rcases published_next hwp.1 hpub with hbefore | ⟨c, p, result, effects, committed, hphase, heq⟩
  · exact hold hbefore
  · have hp := (hok.phases t h call (.inl (by rw [ht]; simp)) hc).1
    rw [hphase] at hp
    obtain ⟨hran, hsnapshot, hprod, -⟩ := hp
    cases heq
    have hhead := head_of_committed hok ha
    refine ⟨p.ticket.objectName, p.snapshot, hprod, by rw [hsnapshot]; rfl, ?_⟩
    rwa [show p.snapshot.stateVersion = c.stateVersion + 1 by rw [hsnapshot]; rfl]

theorem publishedOk_step (hok : ClusterOk D s) (hpub : PublishedOk D s) (hs : ClusterStep D s e s') :
    PublishedOk D s' := by
  intro t h call hcalls hphase
  refine PublishedBy.mono ?_ (later_step hok hs)
  rcases calls_step hs hcalls with hcalls' | rfl
  · rcases trace_step hs t with htrace | ⟨h', call', op, next, r, w, ht, ha, rfl⟩
    · rw [World.phase, htrace] at hphase
      exact hpub t h call hcalls' hphase
    · cases hcalls'.symm.trans (hok.turns t h' call' _ ht).1
      rw [phase_answered ha] at hphase
      exact publishedBy_call hok ht ha hphase (hpub t h call hcalls')
  · -- a turn that arrives has done nothing yet
    cases hs with
    | arrive hfree _ =>
      have htrace := (hok.unused t hfree).2.2.1
      simp only [World.phase, htrace] at hphase
      exact hphase.elim

theorem publishedOk_reachable (hs : (clusterSystem D).Reachable s) : PublishedOk D s := by
  have hboth : ClusterOk D s ∧ PublishedOk D s := by
    refine hs.invariant (I := fun s => ClusterOk D s ∧ PublishedOk D s) ?_ ?_
    · intro s hs
      refine ⟨clusterOk_init hs, ?_⟩
      obtain ⟨sessions, rfl⟩ := hs
      exact nofun
    · exact fun hok hstep => ⟨clusterOk_step hok.1 hstep, publishedOk_step hok.1 hok.2 hstep⟩
  exact hboth.2

/-! ### After a newer epoch -/

/-- The row of `o` is of epoch `n` or newer, and so is whatever was recorded since `s₀`. -/
def RecordsFrom (s₀ : ClusterState) (o : ActorStorageKey) (n : ℕ) (s : ClusterState) : Prop :=
  (∃ row, s.world.row o = some row ∧ n ≤ row.ownerEpoch) ∧
    ∀ q ∈ s.world.sent, q.object = o → q.head ∈ s.world.heads o → q.head ∈ s₀.world.heads o ∨ n ≤ q.ownerEpoch

variable {s₀ : ClusterState} {n : ℕ}

theorem RecordsFrom.same (hr : RecordsFrom s₀ o n s) (hstore : s'.world.store = s.world.store)
    (hsent : s'.world.sent = s.world.sent) : RecordsFrom s₀ o n s' := by
  unfold RecordsFrom World.row World.heads
  rw [hstore, hsent]
  exact hr

theorem recordsFrom_step (hok : ClusterOk D s) (hr : RecordsFrom s₀ o n s) (hs : ClusterStep D s e s') :
    RecordsFrom s₀ o n s' := by
  cases hs with
  | call ht ha => exact hr.same (answers_outside ha).store (answers_outside ha).sent
  | @send t h call op next q ht hq =>
    refine ⟨hr.1, fun q' hm ho hh => ?_⟩
    rcases List.mem_append.mp hm with hm | hm
    · exact hr.2 q' hm ho hh
    · obtain ⟨hc, -, hwp⟩ := hok.turns t h call _ ht
      have hphase := (hok.phases t h call (.inl (by rw [ht]; simp)) hc).1
      rw [List.mem_singleton.mp hm] at ho hh ⊢
      subst ho
      obtain ⟨q₀, hq₀, ho, hhead, -, hepoch, -⟩ := recorded_before hok (justified_of_allows hphase hwp.1 hq) hh
      rw [hepoch, ← hhead]
      exact hr.2 q₀ hq₀ ho (by rw [hhead]; exact hh)
  | store hst _ =>
    obtain ⟨⟨row, hrow, hle⟩, hheads⟩ := hr
    obtain ⟨row', hrow', hepoch⟩ := epoch_store hok hst hrow
    refine ⟨⟨row', hrow', by omega⟩, fun q hq ho hh => ?_⟩
    subst ho
    rcases recorded_store hok hst hq hh with hh | ⟨row₁, hrow₁, hep, -⟩
    · exact hheads q hq rfl hh
    · -- what is recorded now is of the epoch in the row
      cases hrow.symm.trans hrow₁
      exact .inr (by omega)
  | finish _ =>
    obtain ⟨h1, -, h3⟩ := release_same s.world _ _ _
    exact hr.same h1 h3
  | drop _ =>
    obtain ⟨h1, -, h3⟩ := release_same s.world _ _ _
    exact hr.same h1 h3
  | _ => exact hr.same rfl rfl

theorem recordsFrom_path {evs : List ClusterEvent} {row : PlacementRow} (hs : (clusterSystem D).Reachable s)
    (hrow : s.world.row o = some row) (hp : (clusterSystem D).Path s evs s') :
    RecordsFrom s o row.ownerEpoch s' := by
  induction hp with
  | nil => exact ⟨⟨row, hrow, le_rfl⟩, fun _ _ _ hh => .inl hh⟩
  | snoc hp hstep ih => exact recordsFrom_step (clusterOk_reachable (hs.path hp)) ih hstep

/-- A turn of an older epoch that had not run publishes nothing. -/
theorem not_publishedBy {evs : List ClusterEvent} {row : PlacementRow} (hs : (clusterSystem D).Reachable s)
    (hrow : s.world.row call.request.object = some row) (hlt : call.ownerEpoch < row.ownerEpoch)
    (hx : executions (s.world.trace t) = []) (hp : (clusterSystem D).Path s evs s') :
    ¬ PublishedBy D s'.world t h call := by
  rintro ⟨name, snapshot, hprod, hepoch, hhead⟩
  have hok := clusterOk_reachable hs
  have hok' := clusterOk_reachable (hs.path hp)
  obtain ⟨q, hq, ho, hqh⟩ := hok'.heads _ _ hhead
  rcases (recordsFrom_path hs hrow hp).2 q hq ho (by rw [hqh]; exact hhead) with hold | hnew
  · -- a head that was there at `s` was written by a turn that had run
    rw [hqh] at hold
    obtain ⟨q₀, hq₀, ho₀, hqh₀⟩ := hok.heads _ _ hold
    obtain ⟨snapshot₀, t₀, -, -, -, hprod₀⟩ := hok.sent q₀ hq₀
    obtain ⟨-, hname, -⟩ := Head.mk.inj hqh₀
    rw [ho₀, Option.some.inj hname] at hprod₀
    obtain ⟨-, rfl⟩ := (hprod₀.mono (later_path hs hp)).unique hprod hok'.uploads
    obtain ⟨call₀, c₀, effects, -, -, -, hran⟩ := hprod₀.origin
    exact hran.once.nonempty hx
  · obtain ⟨snapshot₁, t₁, -, -, he₁, hprod₁⟩ := hok'.sent q hq
    obtain ⟨-, hname, -⟩ := Head.mk.inj hqh
    rw [ho, Option.some.inj hname] at hprod₁
    obtain ⟨rfl, -⟩ := hprod₁.unique hprod hok'.uploads
    omega

/-! ### What a superseded owner still answers -/

/-- At `s` the row of the actor is newer than the turn, which has not run its request; at
`s'` the turn has been answered. -/
structure AnsweredLate (D : Deployment) (s s' : ClusterState) (t : ℕ) (h : HostId) (call : HostCall)
    (answer : TurnAnswer) : Prop where
  reachable : (clusterSystem D).Reachable s
  newer : ∃ row, s.world.row call.request.object = some row ∧ call.ownerEpoch < row.ownerEpoch
  notRun : executions (s.world.trace t) = []
  path : ∃ evs, (clusterSystem D).Path s evs s'
  calls : s'.world.calls t = some (h, call)
  answered : s'.world.answers t = some answer

/-- The request ran on a recorded state and left it as it was. -/
def LeavesState (D : Deployment) (w : World) (t : ℕ) (call : HostCall) (result : Value)
    (effects : List ActorSocketEffect) : Prop :=
  ∃ c next, RanOn D w t call c result next effects ∧ c.state = some next

/-- A turn of an older epoch that is still answered with success has uploaded nothing:
it repeats a recorded outcome, or it has not changed the state. -/
theorem superseded_changes_nothing (D : Deployment) {s s' : ClusterState} {t : ℕ} {h : HostId}
    {call : HostCall} {answer : TurnAnswer} {result : Value} {effects : List ActorSocketEffect}
    (hlate : AnsweredLate D s s' t h call answer) (hsuccess : answer.success = some (result, effects)) :
    (∀ l, ¬ Wrote s'.world t l) ∧
      (Replays D s'.world t call result ∧ effects = [] ∨ LeavesState D s'.world t call result effects) := by
  obtain ⟨hs, ⟨row, hrow, hlt⟩, hx, ⟨evs, hp⟩, hc, ha⟩ := hlate
  have hs' := hs.path hp
  have hok := clusterOk_reachable hs'
  obtain ⟨hphase, hclean⟩ := hok.phases t h call (.inr (by rw [ha]; simp)) hc
  have hret := hok.returned t h call answer hc ha
  have hpub := publishedOk_reachable hs' t h call hc
  generalize s'.world.phase D t h call = phase at hphase hclean hret hpub
  have hquiet : phase.Clean → ∀ l, ¬ Wrote s'.world t l := by
    rintro hcl l ⟨u, hu, hut, -⟩
    exact hclean hcl u hu hut
  rcases hret.success hsuccess with ⟨rfl, rfl, hinvoke⟩ | rfl | rfl
  · exact ⟨hquiet trivial, .inl ⟨⟨hinvoke, hphase⟩, rfl⟩⟩
  · exact ⟨hquiet trivial, .inr hphase⟩
  · exact absurd (hpub trivial) (not_publishedBy hs hrow hlt hx hp)

/-! ### A counter that can be read -/

/-- What a request adds: `get` only reads. -/
def ActorRequest.amount : ActorRequest → ℕ
  | .invoke i => if i.method = "get" then 0 else 1
  | .handleSocket _ => 1

def tally : Machine where
  serde := literalSerde
  region := "us-east"
  namespaceId := "acme"
  execute request state :=
    let n : Value := .num (.ofNat (counterValue state + request.amount))
    (n, .obj [("value", n)], [])

def reading (requestId : String) (ownerEpoch stateVersion : ℕ) (url : String) : HostCall :=
  ⟨.invoke ⟨requestId, counterKey, "get", []⟩, ownerEpoch, stateVersion, url⟩

/-- Host A counts to one at epoch 1; host B takes the counter over and counts to two. -/
def takenOver : List Machine.Command :=
  incremented ++
    [.storeCall 3 (.claim counterObject
        (some ⟨counterObject, hostA, 1, "us-east", 1, some "snapshots/0", some "request-1"⟩) hostB "us-east"),
      .storeRun 3, .storeCall 4 (.register ⟨hostB, "session-1", "http://b", 60000⟩), .storeRun 4,
      .observe counterObject, .arrive 1 hostB (increment "request-2" 2 1 "snapshots/0")] ++
    List.replicate 8 (.answer 1) ++ committing 1 5 1 ++ [.answer 1, .answer 1, .finish 1]

/-- Host A is asked for the count at epoch 1. -/
def askedLate : List Machine.Command :=
  .arrive 2 hostA (reading "request-3" 1 0 "") :: List.replicate 6 (.answer 2) ++ [.finish 2]

/-- Host A says one, although host B has committed two. -/
theorem answered_late :
    ∃ s s' answer, AnsweredLate tally.deployment s s' 2 hostA (reading "request-3" 1 0 "") answer ∧
    answer.success = some (.num (.ofNat 1), []) ∧
    s.world.row counterObject = some ⟨hostB, 2, "us-east", 2, some "snapshots/1", some "request-2"⟩ := by
  have hrun : ((tally.run takenOver Machine.initial).bind fun s => (tally.run askedLate s).map fun s' => decide
      (s.world.row counterObject = some ⟨hostB, 2, "us-east", 2, some "snapshots/1", some "request-2"⟩ ∧
        (executions (s.world.trace 2)).length = 0 ∧
        s'.world.calls 2 = some (hostA, reading "request-3" 1 0 "") ∧
        (s'.world.answers 2).bind (·.success) = some (.num (.ofNat 1), []))) = some true := by decide +kernel
  obtain ⟨s, hs, hrun⟩ := Option.bind_eq_some_iff.mp hrun
  obtain ⟨s', hs', heq⟩ := Option.map_eq_some_iff.mp hrun
  obtain ⟨hrow, hx, hc, ha⟩ := of_decide_eq_true heq
  obtain ⟨answer, ha, hsuccess⟩ := Option.bind_eq_some_iff.mp ha
  obtain ⟨evs, hp, -⟩ := Machine.run_sound hs'
  refine ⟨s, s', answer, ⟨Machine.reachable_of_run hs, ⟨_, hrow, ?_⟩, List.eq_nil_of_length_eq_zero hx, ⟨evs, hp⟩,
    hc, ha⟩, hsuccess, hrow⟩
  change 1 < 2
  omega

/-- A superseded owner still answers `Completed`. -/
theorem superseded_owner_answers :
    ¬ ∀ (D : Deployment) (s s' : ClusterState) (t : ℕ) (h : HostId) (call : HostCall)
    (answer : TurnAnswer), AnsweredLate D s s' t h call answer → answer.success = none := by
  intro hclaim
  obtain ⟨s, s', answer, hlate, hsuccess, -⟩ := answered_late
  cases (hclaim _ _ _ _ _ _ _ hlate).symm.trans hsuccess

theorem superseded_changes_nothing_tally : ∃ s s' answer, AnsweredLate tally.deployment s s' 2 hostA
      (reading "request-3" 1 0 "") answer ∧ answer.success = some (.num (.ofNat 1), []) ∧
    ∀ l, ¬ Wrote s'.world 2 l := by
  obtain ⟨s, s', answer, hlate, hsuccess, -⟩ := answered_late
  exact ⟨s, s', answer, hlate, hsuccess, (superseded_changes_nothing tally.deployment hlate hsuccess).1⟩

end LDO
