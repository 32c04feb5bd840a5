import DurableObjects.Proofs.NoLostUpdate
import DurableObjects.Proofs.Durability

/-! A retried method request is applied at most once. A turn runs a method only on a
version that the request did not produce, so no version that a method turn publishes
carries the id of the version before it. -/

namespace LDO

variable {D : Deployment} {s : ClusterState} {o : ActorStorageKey}

/-- The object of `head` was uploaded by a turn of `invoke_actor`. -/
def PublishedByInvoke (w : World) (o : ActorStorageKey) (head : Head) : Prop :=
  ∃ region name t h call invocation, w.region o = some region ∧ head.stateObject = some name ∧
    Wrote w t ⟨region, name⟩ ∧ w.calls t = some (h, call) ∧ call.request = .invoke invocation

/-- Where a head comes from. -/
theorem head_origin (hok : ClusterOk D s) {v : ℕ} {head : Head} (hv : (s.world.heads o)[v]? = some head) :
    ∃ region name t h call c result next effects, s.world.region o = some region ∧
      head = ⟨v + 1, some name, some call.request.id⟩ ∧ Wrote s.world t ⟨region, name⟩ ∧
      s.world.calls t = some (h, call) ∧ call.request.object = o ∧ c.stateVersion = v ∧
      RanOn D s.world t call c result next effects := by
  obtain ⟨q, hq, rfl, rfl⟩ := hok.heads o head (List.mem_of_getElem? hv)
  have hversion : q.expectedVersion + 1 = v + 1 := hok.store.heads.numbered _ v _ hv
  obtain ⟨snapshot, t, hsv, hsr, -, hprod⟩ := hok.sent q hq
  obtain ⟨region, bytes, hregion, -, hup, -⟩ := hprod.stored
  obtain ⟨call, c, effects, hcall, hobject, hsnap, hran⟩ := hprod.origin
  have hc : snapshot.stateVersion = c.stateVersion + 1 := by rw [hsnap]; rfl
  have hid : snapshot.requestId = call.request.id := by rw [hsnap]; rfl
  refine ⟨region, q.stateObject, t, _, call, c, _, _, effects, hregion, ?_, ⟨_, hup, rfl, rfl⟩, hcall, hobject,
    by omega, hran⟩
  rw [StateCommitRequest.head, hversion, ← hsr, hid]

/-- The head at a version is the one a state of that version is based on. -/
theorem Based.head_requestId (hok : ClusterOk D s) {c : CachedActorState} (h : Based D s.world o c)
    {head : Head} (hm : head ∈ s.world.heads o) (hv : head.stateVersion = c.stateVersion) :
    head.requestId = c.lastRequestId := by
  obtain ⟨hk, hpos⟩ := hok.store.heads.getElem hm
  rcases h with ⟨h0, -⟩ | ⟨snapshot, ⟨region, name, bytes, -, hhead, -⟩, -, hcv, -, hlast, -⟩
  · omega
  · obtain ⟨hk', -⟩ := hok.store.heads.getElem hhead
    have heq : head.stateVersion = snapshot.stateVersion := hv.trans hcv
    rw [heq] at hk
    cases hk.symm.trans hk'
    rw [hlast]

theorem requestId_ne_of_invoke (hok : ClusterOk D s) {v : ℕ} {head head' : Head}
    (hv : (s.world.heads o)[v]? = some head) (hv' : (s.world.heads o)[v + 1]? = some head')
    (hinv : PublishedByInvoke s.world o head') : head.requestId ≠ head'.requestId := by
  obtain ⟨region, name, t, h, call, c, result, next, effects, hr, rfl, hw, hc, hobj, hcv, hran⟩ :=
    head_origin hok hv'
  obtain ⟨region', name', t', h', call', invocation, hr', hname, hw', hc', hreq⟩ := hinv
  cases hr.symm.trans hr'
  cases hname
  cases wrote_unique hok.uploads hw hw'
  cases hc.symm.trans hc'
  have hbased := hran.based
  rw [hobj] at hbased
  have hlast := hbased.not_last (hran.unanswered invocation hreq)
  have hid : head.requestId = c.lastRequestId := by
    refine hbased.head_requestId hok (List.mem_of_getElem? hv) ?_
    rw [hcv]
    exact hok.store.heads.numbered o v head hv
  rw [hid]
  intro heq
  refine hlast (heq.trans ?_)
  rw [hreq]
  rfl

/-- Host A answers a retry from its cache; host B, which takes the counter over, from the object. -/
def retriedElsewhere : List Machine.Command :=
  incremented ++ .arrive 1 hostA (increment "request-1" 1 0 "") :: List.replicate 5 (.answer 1) ++
    [.finish 1, .storeCall 3 (.claim counterObject
        (some ⟨counterObject, hostA, 1, "us-east", 1, some "snapshots/0", some "request-1"⟩) hostB "us-east"),
      .storeRun 3, .storeCall 4 (.register ⟨hostB, "session-1", "http://b", 60000⟩), .storeRun 4,
      .observe counterObject, .arrive 2 hostB (increment "request-1" 2 1 "snapshots/0")] ++
    List.replicate 6 (.answer 2) ++ [.finish 2]

/-- The first attempt is lost after its commit; the second finds the request recorded. -/
def retried : List Machine.Command :=
  claimed ++ uploading 0 (increment "request-1" 1 0 "") ++ committing 0 2 0 ++ [.fail 0, .answer 0, .answer 0, .finish 0] ++
    .arrive 1 hostA (increment "request-1" 1 0 "") :: List.replicate 6 (.answer 1) ++ [.finish 1]

end LDO
