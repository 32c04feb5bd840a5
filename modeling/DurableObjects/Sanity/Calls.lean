import DurableObjects.Sanity.World

/-! One call of a turn: what the answer leaves known in the next phase. -/

namespace LDO

open Prog

variable {D : Deployment} {w w' : World} {o : ActorStorageKey}

/-- What no call of a turn touches. -/
structure SameOutside (w w' : World) : Prop where
  store : w'.store = w.store
  observed : w'.observed = w.observed
  sent : w'.sent = w.sent
  committed : w'.committed = w.committed
  calls : w'.calls = w.calls
  trace : w'.trace = w.trace
  answers : w'.answers = w.answers

variable {t : ℕ} {h : HostId} {call : HostCall} {op : HostOp} {r : op.Res}

theorem answers_outside (ha : Answers D t h w op r w') : SameOutside w w' := by
  cases ha <;> exact ⟨rfl, rfl, rfl, rfl, rfl, rfl, rfl⟩

/-- Only a write uploads anything. -/
theorem answers_uploads (ha : Answers D t h w op r w') :
    w'.uploads = w.uploads ∧ w'.objects = w.objects ∨
      ∃ url bytes l, op = .write url bytes ∧ D.locate url = some l ∧ w'.uploads = w.uploads ++ [⟨t, l, bytes⟩] ∧
        (w'.objects = w.objects ∨ w'.objects = (w.land ⟨t, l, bytes⟩).objects) := by
  cases ha with
  | written r hl => exact .inr ⟨_, _, _, rfl, hl, rfl, .inr rfl⟩
  | writeLost e hl => exact .inr ⟨_, _, _, rfl, hl, rfl, .inl rfl⟩
  | _ => exact .inl ⟨rfl, rfl⟩

theorem answers_issued (ha : Answers D t h w op r w') : w.issued ⊆ w'.issued := by
  cases ha with
  | prepared => exact List.subset_cons_self _ _
  | committedNext => exact List.subset_cons_self _ _
  | _ => exact fun _ hn => hn

@[simp] theorem log_trace_self (w : World) (t : ℕ) (e : HostEvent) :
    (w.log t e).trace t = w.trace t ++ [e] := by
  simp [World.log]

theorem log_trace_ne (w : World) {t j : ℕ} (e : HostEvent) (hj : j ≠ t) :
    (w.log t e).trace j = w.trace j := by
  simp [World.log, hj]

theorem later_call (ha : Answers D t h w op r w')
    (hexec : op.isExecution = true → executions (w.trace t) = []) : Later w (w'.log t ⟨op, r⟩) := by
  have hout := answers_outside ha
  refine ⟨?_, ?_, ?_, ?_, ?_, ?_⟩
  · intro o
    simp only [World.heads, World.log, hout.store]
    exact List.prefix_refl _
  · intro o region hr
    simpa only [World.region, World.row, World.log, hout.store] using hr
  · intro l b hb
    rcases answers_uploads ha with ⟨-, ho⟩ | ⟨url, bytes, l', -, -, -, ho | ho⟩
    · simpa only [World.log, ho] using hb
    · simpa only [World.log, ho] using hb
    · simp only [World.log, ho]
      exact (later_land w _).objects l b hb
  · rcases answers_uploads ha with ⟨hu, -⟩ | ⟨url, bytes, l', -, -, hu, -⟩
    · simp only [World.log, hu]
      exact fun _ => id
    · simp only [World.log, hu]
      exact List.subset_append_left _ _
  · intro j c hc
    simpa only [World.log, hout.calls] using hc
  · intro j hj
    by_cases heq : j = t
    · subst heq
      rw [log_trace_self, hout.trace, executions_snoc]
      split_ifs with hx
      · exact absurd (hexec hx) hj
      · rfl
    · rw [log_trace_ne _ _ heq, hout.trace]

/-- What is read under a capability is a recorded head. -/
theorem isHead_of_read {s : ClusterState} {l : Location} {bytes : ByteArray} {snapshot : StateSnapshot}
    (hok : ClusterOk D s) (hcap : Capable D s.world h call) (hv : call.stateVersion ≠ 0)
    (hloc : D.locate call.stateReadUrl = some l) (ho : s.world.objects l = some bytes)
    (hd : StateSnapshot.decode D.serde bytes = .ok snapshot) :
    IsHead D s.world call.request.object snapshot := by
  obtain ⟨-, placement, hm, hobj, -, -, hpv, hurl⟩ := hcap
  obtain ⟨hregion, hhead⟩ := hok.observed placement hm
  rcases hhead with h0 | hhead
  · exact absurd (hpv.symm.trans h0) hv
  obtain ⟨q, hq, hqo, hqh⟩ := hok.heads _ _ hhead
  rw [StateCommitRequest.head, Head.mk.injEq] at hqh
  obtain ⟨hqv, hqn, hqr⟩ := hqh
  rw [← hqn] at hurl
  simp only at hurl
  rw [hloc] at hurl
  cases hurl
  obtain ⟨s', t', hsv, hsr, -, hprod⟩ := hok.sent q hq
  obtain ⟨region, bytes', hr', henc, -, ho'⟩ := hprod.stored
  rw [hqo] at hr'
  cases hregion.symm.trans hr'
  cases ho.symm.trans ho'
  obtain ⟨hversion, -, hid, -, -⟩ := StateSnapshot.decode_of_encode hprod.sound henc hd
  refine ⟨_, _, bytes, by rw [← hobj]; exact hregion, ?_, ho, .inr hd⟩
  rw [hversion, hid, hsv, hsr, hqv, hqr, ← hobj, hqn]
  exact hhead

/-- A commit that is answered with its version is recorded. -/
theorem head_of_committed {s : ClusterState} {actor : ActorKey} {hostId : HostId}
    {ownerEpoch expectedVersion : ℕ} {stateObject requestId : String} {committed : CommittedState}
    (hok : ClusterOk D s)
    (ha : Answers D t h s.world (.commitState actor hostId ownerEpoch expectedVersion stateObject requestId)
      (.ok committed) w') :
    ⟨expectedVersion + 1, some stateObject, some requestId⟩ ∈ s.world.heads actor.storageKey := by
  cases ha with
  | committed hm => exact (hok.committed _ _ hm).1
  | committedNext hm _ => exact (hok.committed _ _ hm).1

theorem confirmed_ok {p : PendingStateCommit} {r : Result CommittedState} {next : Option StateWriteTicket}
    (h : p.confirmed r = some next) : ∃ committed, r = .ok committed ∧ next = committed.nextWrite := by
  unfold PendingStateCommit.confirmed at h
  split at h
  · split_ifs at h
    cases h
    exact ⟨_, rfl, rfl⟩
  · cases h

theorem isHead_of_confirmed {s : ClusterState} {actor : ActorKey} {hostId : HostId} {ownerEpoch : ℕ}
    {c : CachedActorState} {p : PendingStateCommit} {r : Result CommittedState} {next : Option StateWriteTicket}
    {owner : HostId} {writer : ℕ} (hok : ClusterOk D s)
    (ha : Answers D t h s.world (.commitState actor hostId ownerEpoch c.stateVersion p.ticket.objectName
      p.snapshot.requestId) r w')
    (hprod : Produced D s.world owner actor.storageKey p.ticket.objectName p.snapshot writer)
    (hv : p.snapshot.stateVersion = c.stateVersion + 1) (hr : p.confirmed r = some next) :
    IsHead D s.world actor.storageKey p.snapshot := by
  obtain ⟨committed, rfl, -⟩ := confirmed_ok hr
  refine hprod.isHead ?_
  rw [hv]
  exact head_of_committed hok ha

theorem methodOutcome_some {r : Result ActorMethodOutcome} {result next : Value}
    {effects : List ActorSocketEffect} (h : methodOutcome r = some (result, next, effects)) :
    r = .ok (.completed result next effects) ∧ validateSocketEffects effects = .ok () := by
  unfold methodOutcome at h
  split at h
  · split_ifs at h with hv
    cases h
    exact ⟨rfl, hv⟩
  · cases h

theorem socketOutcome_some {r : Result ActorSocketOutcome} {result next : Value}
    {effects : List ActorSocketEffect} (h : socketOutcome r = some (result, next, effects)) :
    r = .ok (.handled next effects) ∧ result = .null ∧ validateSocketEffects effects = .ok () := by
  unfold socketOutcome at h
  split at h
  · split_ifs at h with hv
    cases h
    exact ⟨rfl, rfl, hv⟩
  · cases h

/-- What a valid outcome of the executor leaves known. -/
theorem phaseOk_executed {c : CachedActorState} {outcome : Option (Value × Value × List ActorSocketEffect)}
    (he : c.ownerEpoch = call.ownerEpoch) (hcached : CachedOk D w h call.request.object c)
    (hp : c.pending = none)
    (hran : ∀ result next effects, outcome = some (result, next, effects) →
      RanOn D w t call c result next effects) : PhaseOk D w t h call (.executed c outcome) := by
  cases outcome with
  | none => exact ⟨trivial, he, hcached⟩
  | some x =>
    obtain ⟨result, next, effects⟩ := x
    have hr := hran result next effects rfl
    simp only [Phase.executed]
    split_ifs with hsame
    · exact ⟨⟨c, next, hr, hsame⟩, he, hcached⟩
    · exact ⟨hr, hp⟩

theorem CachedOk.of_based {c c' : CachedActorState} (hb : Based D w o c) (he : c'.ownerEpoch = c.ownerEpoch)
    (hv : c'.stateVersion = c.stateVersion) (hs : c'.state = c.state)
    (hi : c'.lastRequestId = c.lastRequestId) (hr : c'.lastResult = c.lastResult)
    (hp : c'.pending = none) : CachedOk D w h o c' := by
  refine ⟨?_, by simp [hp]⟩
  unfold Based
  rw [he, hv, hs, hi, hr]
  exact hb

theorem CachedOk.spent {c : CachedActorState} (hb : Based D w o c) (hp : c.pending = none) :
    CachedOk D w h o c.spent := .of_based hb rfl rfl rfl rfl rfl hp

theorem CachedOk.unsent {c : CachedActorState} (hb : Based D w o c) (hp : c.pending = none) :
    CachedOk D w h o c.unsent := by
  unfold CachedActorState.unsent
  split_ifs
  · exact .spent hb hp
  · exact ⟨hb, by simp [hp]⟩

theorem unsent_ownerEpoch (c : CachedActorState) : c.unsent.ownerEpoch = c.ownerEpoch := by
  unfold CachedActorState.unsent
  split_ifs <;> rfl

/-- The upload of a publication stores the outputs of the turn. -/
theorem produced_write {s : ClusterState} {p : HostM TurnAnswer} {c : CachedActorState} {result next : Value}
    {effects : List ActorSocketEffect} {k : StateWriteTicket} {bytes : ByteArray} {write : StateWrite}
    (hok : ClusterOk D s) (ht : s.turns t = some ((h, call), p))
    (hphase : s.world.phase D t h call = .publishing c result next effects (some k))
    (hlt : c.stateVersion < u64Max) (hvalid : (call.snapshot c result next).validate = .ok ())
    (henc : (call.snapshot c result next).encode = .ok bytes)
    (hran : RanOn D (w'.log t ⟨.write k.url bytes, .ok write⟩) t call c result next effects)
    (ha : Answers D t h s.world (.write k.url bytes) (.ok write) w') :
    Produced D (w'.log t ⟨.write k.url bytes, .ok write⟩) h call.request.object k.objectName
      (call.snapshot c result next) t := by
  have hcalls := (hok.turns t h call p ht).1
  obtain ⟨holder, htk⟩ := hok.tickets
  obtain ⟨hholder, region, hregion, hloc⟩ := htk.held _ _ k (.turn ht (by rw [hphase]; rfl))
  have hunused := (htk.unused _ _ hholder).2
  refine ⟨⟨hvalid, hlt, (hok.capable t h call hcalls).1⟩, ?_, call, c, effects, ?_, rfl, rfl, hran⟩
  · cases ha with
    | written _ hl =>
      rw [hloc] at hl
      cases hl
      refine ⟨region, bytes, hregion, henc, by simp [World.log, World.land, World.upload], ?_⟩
      -- nobody else could have created the object
      have hnone : s.world.objects ⟨region, k.objectName⟩ = none := by
        rw [Option.eq_none_iff_forall_not_mem]
        intro b hb
        obtain ⟨u, hu, hul, -⟩ := hok.objects _ b hb
        exact hunused u hu (by rw [hul])
      simp [World.log, World.land, World.upload, hnone]
  · rw [World.log, (answers_outside ha).calls, hcalls]

theorem first_execution {phase : Phase} {host : ActorHost} (hphase : PhaseOk D w t h call phase)
    (hop : Phase.Allows host call phase op) (hx : op.isExecution = true) : executions (w.trace t) = [] := by
  cases hop with
  | execute => exact hphase.1
  | settle _ hc => rw [Phase.Commits] at hc; subst hc; cases hx
  | commit hc => rw [Phase.Commits] at hc; subst hc; cases hx
  | _ => cases hx

theorem phaseOk_call {s : ClusterState} {next : op.Res → HostM TurnAnswer} (hok : ClusterOk D s)
    (ht : s.turns t = some ((h, call), .call op next)) (ha : Answers D t h s.world op r w') :
    PhaseOk D (w'.log t ⟨op, r⟩) t h call ((s.world.phase D t h call).next (D.host h) call op r) := by
  obtain ⟨hcalls, -, hwp⟩ := hok.turns t h call _ ht
  have hphase := (hok.phases t h call (.inl (by rw [ht]; simp)) hcalls).1
  have hallow := hwp.1
  have hcap := hok.capable t h call hcalls
  have htrace := (answers_outside ha).trace
  have hl := later_call ha (first_execution hphase hallow)
  have hsame : op.isExecution = false →
      executions ((w'.log t ⟨op, r⟩).trace t) = executions (s.world.trace t) := by
    intro hx
    rw [log_trace_self, htrace, executions_snoc]
    simp [hx]
  generalize hph : s.world.phase D t h call = phase at hphase hallow
  cases hallow with
  | accepting => exact hphase.mono hl (hsame rfl)
  | recheck => exact hphase.mono hl (hsame rfl)
  | admission =>
    rcases r with e | _ | _
    · exact hphase.mono hl (hsame rfl)
    · exact (hsame rfl).trans hphase
    · exact hphase.mono hl (hsame rfl)
  | take =>
    cases ha with
    | take =>
      simp only [Phase.next, Phase.onAdmitted, Phase.start]
      have hx := (hsame rfl).trans hphase
      split
      · rename_i c hc
        obtain ⟨hmem, hepoch⟩ := Option.filter_eq_some_iff.mp hc
        exact ⟨hx, of_decide_eq_true hepoch, (hok.caches h _ c hmem).mono hl⟩
      · split_ifs
        · exact ⟨hx, rfl, .inl ⟨rfl, rfl, rfl, rfl⟩, by simp [CachedActorState.new]⟩
        · trivial
        · exact hx
  | read hv =>
    simp only [Phase.next, Phase.onLoading]
    cases ha with
    | readFailed e => trivial
    | read hloc ho =>
      simp only [Phase.load]
      split
      · rename_i c hc
        rw [D.host_serde] at hc
        obtain ⟨snapshot, hd, hversion, hepoch, rfl⟩ := fromLoaded_ok hc
        have hhead := isHead_of_read hok hcap hv hloc ho hd
        exact ⟨(hsame rfl).trans hphase, rfl,
          .inr ⟨snapshot, hhead.mono hl, hepoch, hversion.symm, rfl, rfl, rfl⟩, by simp⟩
      · trivial
  | settle hp hc =>
    rw [Phase.Commits] at hc
    subst hc
    simp only [Phase.next, Phase.onHolding, Phase.settle, hp]
    obtain ⟨hx, he, hcached⟩ := hphase
    obtain ⟨hv, hpe, writer, hprod⟩ := hcached.pending _ hp
    split
    · rename_i ticket hr
      have hhead := isHead_of_confirmed hok ha hprod hv hr
      exact ⟨(hsame rfl).trans hx, he, .resolved (hhead.mono hl) hpe ticket,
        by simp [CachedActorState.resolved]⟩
    · exact ⟨(hsame rfl).trans hx, he, hcached.mono hl⟩
  | replay hp hreq hrep =>
    rename_i invocation _
    have hrid : call.request.id = invocation.requestId := by rw [hreq]; rfl
    cases ha with
    | store =>
      obtain ⟨snapshot, hs, hid, hres⟩ := (hphase.2.2.based.mono hl).replay hrep
      rw [← hrid] at hrep
      simp only [Phase.next, Phase.onHolding, hrep]
      exact ⟨(hsame rfl).trans hphase.1, snapshot, hs, hid.trans hrid.symm, hres⟩
  | execute hp hfresh =>
    obtain ⟨hx, he, hcached⟩ := hphase
    have hx' : executions (w'.trace t) = [] := by rw [htrace, hx]
    -- the request decides which of the two calls this is
    obtain ⟨request, ownerEpoch, stateVersion, url⟩ := call
    cases request with
    | invoke i =>
      refine phaseOk_executed he (hcached.mono hl) hp fun result next effects hout => ?_
      obtain ⟨rfl, -⟩ := methodOutcome_some hout
      refine ⟨he, hcached.based.mono hl, ?_, ?_, hfresh⟩
      · rw [ActorRequest.RanOnce, log_trace_self, executions_snoc, hx']
        rfl
      · cases ha with
        | invoked hr => exact hr
        | notInvoked hr => exact absurd rfl (hr _ _ _)
    | handleSocket i =>
      refine phaseOk_executed he (hcached.mono hl) hp fun result next effects hout => ?_
      obtain ⟨rfl, rfl, -⟩ := socketOutcome_some hout
      refine ⟨he, hcached.based.mono hl, ⟨rfl, ?_⟩, ⟨rfl, ?_⟩, hfresh⟩
      · rw [log_trace_self, executions_snoc, hx']
        rfl
      · cases ha with
        | handled hr => exact hr
        | notHandled hr => exact absurd rfl (hr _ _)
  | clock =>
    cases r with
    | error e => exact ⟨trivial, hphase.1.epoch, .spent (hphase.1.based.mono hl) hphase.2⟩
    | ok now => exact ⟨hphase.1.mono hl, hphase.2⟩
  | prepare =>
    cases r with
    | error e => exact ⟨trivial, hphase.1.epoch, .spent (hphase.1.based.mono hl) hphase.2⟩
    | ok k => exact ⟨hphase.1.mono hl, hphase.2⟩
  | unsent _ => exact ⟨trivial, (unsent_ownerEpoch _).trans hphase.1.epoch, .unsent (hphase.1.based.mono hl) hphase.2⟩
  | write hlt hvalid henc =>
    cases r with
    | error e => exact ⟨trivial, hphase.1.epoch, .spent (hphase.1.based.mono hl) hphase.2⟩
    | ok write =>
      have hran := hphase.1.mono hl
      exact ⟨hran, rfl, produced_write hok ht hph hlt hvalid henc hran ha, hphase.2⟩
  | commit hc =>
    rename_i c p result effects
    rw [Phase.Commits] at hc
    subst hc
    obtain ⟨hran, hsnap, hprod, -⟩ := hphase
    have hv : p.snapshot.stateVersion = c.stateVersion + 1 := by rw [hsnap]; rfl
    have he : p.snapshot.ownerEpoch = c.ownerEpoch := by rw [hsnap]; exact hran.epoch.symm
    simp only [Phase.next, Phase.onCommitting, Phase.confirm]
    split
    · rename_i ticket hr
      have hhead := (isHead_of_confirmed hok ha hprod hv hr).mono hl
      refine ⟨⟨c, p.snapshot.state, hran.mono hl, ?_⟩, hran.epoch, .resolved hhead he ticket,
        by simp [CachedActorState.resolved]⟩
      rwa [← hsnap]
    · refine ⟨trivial, hran.epoch, hran.based.mono hl, ?_⟩
      intro p' hp'
      cases hp'
      exact ⟨hv, he, t, hprod.mono hl⟩
  | evict => exact hphase.mono hl (hsame rfl)
  | store =>
    cases ha with
    | store => exact hphase.1.mono hl (hsame rfl)

end LDO
