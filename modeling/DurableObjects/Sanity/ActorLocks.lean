import DurableObjects.Spec.ActorLocks
import DurableObjects.Lib.Holders

/-! What the gates count. Each gate's strong count, mutex and permits say exactly how many
calls own a reference, the mutex or a permit of it, and a call that owns a reference has
the gate that the map leads to. -/

namespace LDO

variable {ι : Type} [DecidableEq ι] {s s' : LocksState ι} {e : LocksEvent ι} {c : ι} {key : ActorStorageKey}
  {g : ℕ} {field : GuardField} {phase : AdmitPhase}

/-- How many of a field the gate has handed out. -/
def ActorExecutionGate.count (gate : ActorExecutionGate) : GuardField → ℕ
  | .gate => gate.strong
  | .execution => gate.locked.toNat
  | .admission => maxAdmittedInvocationsPerActor - gate.permits

/-- The gate has one of the field to hand out. -/
def ActorExecutionGate.CanTake (gate : ActorExecutionGate) : GuardField → Prop
  | .gate => True
  | .execution => gate.locked = false
  | .admission => 0 < gate.permits

def AdmitPhase.Owns (field : GuardField) (g : ℕ) (phase : AdmitPhase) : Prop :=
  phase.gate = some g ∧ field ∈ phase.fields

structure LocksOk (s : LocksState ι) : Prop where
  counts : ∀ g field, Counts ((s.gates g).count field) (AdmitPhase.Owns field g) s.calls
  permits : ∀ g, (s.gates g).permits ≤ maxAdmittedInvocationsPerActor
  nodup : ∀ c, (s.calls c).fields.Nodup
  current : ∀ c key g, (s.calls c).key = some key → (s.calls c).Owns .gate g → s.locks key = some g
  created : ∀ c g, (s.calls c).gate = some g → g < s.created
  mapped : ∀ key g, s.locks key = some g → g < s.created
  keyed : ∃ keyOf : ℕ → ActorStorageKey, (∀ key g, s.locks key = some g → keyOf g = key) ∧
    ∀ c key g, (s.calls c).key = some key → (s.calls c).gate = some g → keyOf g = key

/-! ### Handing out and taking back -/

namespace ActorExecutionGate

variable {gate : ActorExecutionGate}

theorem count_take (h : gate.CanTake field) (hp : gate.permits ≤ maxAdmittedInvocationsPerActor) :
    (gate.take field).count field = gate.count field + 1 := by
  cases field with
  | gate => rfl
  | execution =>
    have hfree : gate.locked = false := h
    simp [take, count, hfree]
  | admission =>
    have hpos : 0 < gate.permits := h
    simp only [take, count]
    omega

theorem count_take_of_ne {field' : GuardField} (h : field' ≠ field) :
    (gate.take field).count field' = gate.count field' := by
  cases field <;> cases field' <;> first | rfl | exact absurd rfl h

theorem count_release (h : 0 < gate.count field) :
    (gate.release field).count field + 1 = gate.count field := by
  cases field with
  | gate =>
    have hpos : 0 < gate.strong := h
    simp only [release, count]
    omega
  | execution =>
    cases hl : gate.locked with
    | false => simp [count, hl] at h
    | true => simp [release, count, hl]
  | admission =>
    have hpos : 0 < maxAdmittedInvocationsPerActor - gate.permits := h
    simp only [release, count]
    omega

theorem count_release_of_ne {field' : GuardField} (h : field' ≠ field) :
    (gate.release field).count field' = gate.count field' := by
  cases field <;> cases field' <;> first | rfl | exact absurd rfl h

theorem permits_take (h : gate.permits ≤ maxAdmittedInvocationsPerActor) :
    (gate.take field).permits ≤ maxAdmittedInvocationsPerActor := by
  cases field with
  | gate => exact h
  | execution => exact h
  | admission => exact le_trans (Nat.sub_le _ _) h

theorem permits_release (h : gate.permits ≤ maxAdmittedInvocationsPerActor) (hc : 0 < gate.count field) :
    (gate.release field).permits ≤ maxAdmittedInvocationsPerActor := by
  cases field with
  | gate => exact h
  | execution => exact h
  | admission =>
    have hpos : 0 < maxAdmittedInvocationsPerActor - gate.permits := hc
    simp only [release]
    omega

end ActorExecutionGate

/-! ### One call moves -/

/-- The counts of one gate after one of its calls has moved. -/
def CountsAt (s : LocksState ι) (c : ι) (phase : AdmitPhase) (g : ℕ) (gate : ActorExecutionGate) : Prop :=
  ∀ field, Counts (gate.count field) (AdmitPhase.Owns field g) (Function.update s.calls c phase)

theorem LocksOk.take (h : LocksOk s) (hcan : (s.gates g).CanTake field)
    (hnew : ¬ (s.calls c).Owns field g) (hfields : ∀ f, phase.Owns f g ↔ f = field ∨ (s.calls c).Owns f g) :
    CountsAt s c phase g ((s.gates g).take field) := by
  intro f
  by_cases hf : f = field
  · subst hf
    rw [ActorExecutionGate.count_take hcan (h.permits g)]
    exact (h.counts g f).take hnew ((hfields f).mpr (.inl rfl))
  · rw [ActorExecutionGate.count_take_of_ne hf]
    exact (h.counts g f).keep (by simp [hfields, hf])

theorem LocksOk.release (h : LocksOk s) (hold : (s.calls c).Owns field g) (hgone : ¬ phase.Owns field g)
    (hfields : ∀ f, f ≠ field → (phase.Owns f g ↔ (s.calls c).Owns f g)) :
    CountsAt s c phase g ((s.gates g).release field) := by
  intro f
  by_cases hf : f = field
  · subst hf
    have hcount := ActorExecutionGate.count_release ((h.counts g f).pos hold)
    have hall := h.counts g f
    rw [← hcount] at hall
    exact hall.release hold hgone
  · rw [ActorExecutionGate.count_release_of_ne hf]
    exact (h.counts g f).keep (hfields f hf)

theorem LocksOk.keep (h : LocksOk s) (hfields : ∀ f, phase.Owns f g ↔ (s.calls c).Owns f g) :
    CountsAt s c phase g (s.gates g) :=
  fun f => (h.counts g f).keep (hfields f)

/-- A call that is at no other gate moves to a phase at this one. -/
theorem LocksOk.setCall (h : LocksOk s) {gate : ActorExecutionGate}
    (hother : ∀ g', g' ≠ g → (s.calls c).gate ≠ some g') (hkey : phase.key = some key)
    (hgate : phase.gate = some g) (hnodup : phase.fields.Nodup)
    (hcurrent : .gate ∈ phase.fields → s.locks key = some g) (hcreated : g < s.created)
    (hkeyed : ∀ keyOf : ℕ → ActorStorageKey, (∀ key g, s.locks key = some g → keyOf g = key) →
      (∀ c key g, (s.calls c).key = some key → (s.calls c).gate = some g → keyOf g = key) → keyOf g = key)
    (hpermits : gate.permits ≤ maxAdmittedInvocationsPerActor) (hcounts : CountsAt s c phase g gate) :
    LocksOk (s.setCall c phase g gate) := by
  obtain ⟨keyOf, hmap, hcall⟩ := h.keyed
  constructor
  · intro g' f
    by_cases hg : g' = g
    · subst hg
      simpa [LocksState.setCall] using hcounts f
    · simp only [LocksState.setCall, Function.update_of_ne hg]
      refine (h.counts g' f).keep ?_
      simp [AdmitPhase.Owns, hother g' hg, hgate, Ne.symm hg]
  · intro g'
    by_cases hg : g' = g
    · subst hg
      simpa [LocksState.setCall] using hpermits
    · simpa [LocksState.setCall, hg] using h.permits g'
  · intro c'
    by_cases hc : c' = c
    · subst hc
      simpa [LocksState.setCall] using hnodup
    · simpa [LocksState.setCall, hc] using h.nodup c'
  · intro c' key' g' hk ho
    by_cases hc : c' = c
    · subst hc
      simp only [LocksState.setCall, Function.update_self, AdmitPhase.Owns, hkey, hgate,
        Option.some.injEq] at hk ho
      rw [← hk, ← ho.1]
      exact hcurrent ho.2
    · simp only [LocksState.setCall, Function.update_of_ne hc] at hk ho
      exact h.current c' key' g' hk ho
  · intro c' g' hg'
    by_cases hc : c' = c
    · subst hc
      simp only [LocksState.setCall, Function.update_self, hgate, Option.some.injEq] at hg'
      rw [← hg']
      exact hcreated
    · simp only [LocksState.setCall, Function.update_of_ne hc] at hg'
      exact h.created c' g' hg'
  · exact h.mapped
  · refine ⟨keyOf, hmap, fun c' key' g' hk hg' => ?_⟩
    by_cases hc : c' = c
    · subst hc
      simp only [LocksState.setCall, Function.update_self, hkey, hgate, Option.some.injEq] at hk hg'
      rw [← hk, ← hg']
      exact hkeyed keyOf hmap hcall
    · simp only [LocksState.setCall, Function.update_of_ne hc] at hk hg'
      exact hcall c' key' g' hk hg'

/-- A call stays at its gate and gains no reference to it. -/
theorem LocksOk.move (h : LocksOk s) {gate : ActorExecutionGate} (hkey : (s.calls c).key = some key)
    (hgate : (s.calls c).gate = some g) (hkey' : phase.key = some key) (hgate' : phase.gate = some g)
    (hnodup : phase.fields.Nodup) (hsub : .gate ∈ phase.fields → .gate ∈ (s.calls c).fields)
    (hpermits : gate.permits ≤ maxAdmittedInvocationsPerActor) (hcounts : CountsAt s c phase g gate) :
    LocksOk (s.setCall c phase g gate) := by
  refine h.setCall (fun g' hg heq => ?_) hkey' hgate' hnodup (fun hmem => h.current c key g hkey ⟨hgate, hsub hmem⟩)
    (h.created c g hgate) (fun keyOf _ hcall => hcall c key g hkey hgate) hpermits hcounts
  rw [hgate, Option.some.injEq] at heq
  exact hg heq.symm

/-! ### Finding the gate -/

omit [DecidableEq ι] in
theorem LocksOk.retained (h : LocksOk s) {locks : ActorStorageKey → Option ℕ} (hr : s.Retained locks) :
    LocksOk { s with locks := locks } := by
  have hsub : ∀ key g, locks key = some g → s.locks key = some g := by
    intro key g hl
    rcases hr key with heq | ⟨hnone, -⟩
    · rwa [← heq]
    · rw [hnone] at hl
      cases hl
  obtain ⟨keyOf, hmap, hcall⟩ := h.keyed
  refine ⟨h.counts, h.permits, h.nodup, fun c key g hk ho => ?_, h.created,
    fun key g hl => h.mapped key g (hsub key g hl), keyOf, fun key g hl => hmap key g (hsub key g hl), hcall⟩
  have hcurrent := h.current c key g hk ho
  rcases hr key with heq | ⟨-, hdead⟩
  · exact heq.trans hcurrent
  · have hpos : 0 < (s.gates g).strong := (h.counts g .gate).pos ho
    have hzero := hdead g hcurrent
    omega

/-- The call joins the gate that the map leads to. -/
theorem LocksOk.join (h : LocksOk s) (hidle : s.calls c = .idle) (hlock : s.locks key = some g) :
    LocksOk (s.setCall c (.asking key g) g ((s.gates g).take .gate)) := by
  refine h.setCall (by simp [hidle, AdmitPhase.gate]) rfl rfl (by simp [AdmitPhase.fields]) (fun _ => hlock)
    (h.mapped key g hlock) (fun keyOf hmap _ => hmap key g hlock) (ActorExecutionGate.permits_take (h.permits g)) ?_
  refine h.take (show (s.gates g).CanTake .gate from trivial) ?_ ?_
  · simp [AdmitPhase.Owns, hidle, AdmitPhase.gate]
  · simp [AdmitPhase.Owns, hidle, AdmitPhase.gate, AdmitPhase.fields]

omit [DecidableEq ι] in
/-- Nothing has been handed out of a gate that does not exist yet. -/
theorem LocksOk.gates_created (h : LocksOk s) : s.gates s.created = .dead := by
  have hzero : ∀ f, (s.gates s.created).count f = 0 := by
    intro f
    by_contra hne
    obtain ⟨c, hc⟩ := (h.counts s.created f).exists_holder (Nat.pos_of_ne_zero hne)
    exact lt_irrefl _ (h.created c s.created hc.1)
  have hstrong := hzero .gate
  have hlocked := hzero .execution
  have hpermits := hzero .admission
  have hle := h.permits s.created
  generalize s.gates s.created = gate at *
  obtain ⟨strong, locked, permits⟩ := gate
  simp only [ActorExecutionGate.count, Bool.toNat_eq_zero] at hstrong hlocked hpermits hle
  obtain rfl : permits = maxAdmittedInvocationsPerActor := by omega
  rw [hstrong, hlocked]
  rfl

omit [DecidableEq ι] in
/-- The map is led to a new gate: no call on the key has a reference to an old one. -/
theorem LocksOk.create (h : LocksOk s) (hnone : (s.locks key).bind s.upgrade = none) :
    LocksOk { s with locks := Function.update s.locks key (some s.created), created := s.created + 1 } := by
  obtain ⟨keyOf, hmap, hcall⟩ := h.keyed
  constructor
  · exact h.counts
  · exact h.permits
  · exact h.nodup
  · intro c key' g hk ho
    by_cases hkey : key' = key
    · subst hkey
      have hpos : 0 < (s.gates g).strong := (h.counts g .gate).pos ho
      simp [h.current c key' g hk ho, LocksState.upgrade, hpos] at hnone
    · simpa [hkey] using h.current c key' g hk ho
  · exact fun c g hg => Nat.lt_succ_of_lt (h.created c g hg)
  · intro key' g hl
    by_cases hkey : key' = key
    · subst hkey
      simp only [Function.update_self, Option.some.injEq] at hl
      exact hl ▸ Nat.lt_succ_self s.created
    · simp only [Function.update_of_ne hkey] at hl
      exact Nat.lt_succ_of_lt (h.mapped key' g hl)
  · refine ⟨Function.update keyOf s.created key, fun key' g hl => ?_, fun c key' g hk hg => ?_⟩
    · by_cases hkey : key' = key
      · subst hkey
        simp only [Function.update_self, Option.some.injEq] at hl
        rw [← hl, Function.update_self]
      · simp only [Function.update_of_ne hkey] at hl
        rw [Function.update_of_ne (h.mapped key' g hl).ne]
        exact hmap key' g hl
    · rw [Function.update_of_ne (h.created c g hg).ne]
      exact hcall c key' g hk hg

theorem LocksOk.gate (h : LocksOk s) (hidle : s.calls c = .idle) {locks : ActorStorageKey → Option ℕ}
    (hr : s.Retained locks) : LocksOk (s.gate c key locks) := by
  have hret := h.retained hr
  simp only [LocksState.gate]
  cases hfound : (locks key).bind s.upgrade with
  | some g =>
    obtain ⟨g', hl, hup⟩ := Option.bind_eq_some_iff.mp hfound
    obtain rfl : g' = g := by
      simp only [LocksState.upgrade] at hup
      split_ifs at hup
      exact Option.some.inj hup
    exact hret.join hidle hl
  | none =>
    rw [← h.gates_created]
    exact (hret.create hfound).join hidle (Function.update_self ..)

/-! ### Every step -/

theorem locksOk_step (h : LocksOk s) (hs : LocksStep s e s') : LocksOk s' := by
  cases hs with
  | gate hidle hr => exact h.gate hidle hr
  | permit hphase hpos =>
    refine h.move (by rw [hphase]; rfl) (by rw [hphase]; rfl) rfl rfl (by simp [AdmitPhase.fields])
      (by simp [hphase, AdmitPhase.fields]) (ActorExecutionGate.permits_take (h.permits _)) ?_
    refine h.take hpos ?_ (fun f => ?_)
    · simp [hphase, AdmitPhase.Owns, AdmitPhase.fields]
    · simp [hphase, AdmitPhase.Owns, AdmitPhase.fields, AdmitPhase.gate, or_comm]
  | full hphase =>
    refine h.move (by rw [hphase]; rfl) (by rw [hphase]; rfl) rfl rfl (by simp [AdmitPhase.fields])
      (by simp [hphase, AdmitPhase.fields]) (h.permits _) (h.keep fun f => ?_)
    simp [hphase, AdmitPhase.Owns, AdmitPhase.fields, AdmitPhase.gate]
  | acquired hphase hfree =>
    refine h.move (by rw [hphase]; rfl) (by rw [hphase]; rfl) rfl rfl (by simp [AdmitPhase.fields])
      (by simp [hphase, AdmitPhase.fields]) (ActorExecutionGate.permits_take (h.permits _)) ?_
    refine h.take hfree ?_ (fun f => ?_)
    · simp [hphase, AdmitPhase.Owns, AdmitPhase.fields]
    · simp [hphase, AdmitPhase.Owns, AdmitPhase.fields, AdmitPhase.gate, or_left_comm]
  | cancel hphase =>
    refine h.move (by rw [hphase]; rfl) (by rw [hphase]; rfl) rfl rfl (by simp [AdmitPhase.fields, waitingLocals])
      (by simp [hphase, AdmitPhase.fields]) (h.permits _) (h.keep fun f => ?_)
    simp [hphase, AdmitPhase.Owns, AdmitPhase.fields, AdmitPhase.gate, waitingLocals, or_comm]
  | drop hphase =>
    refine h.move (by rw [hphase]; rfl) (by rw [hphase]; rfl) rfl rfl (by simp [AdmitPhase.fields, guardFields])
      (by simp [hphase, AdmitPhase.fields]) (h.permits _) (h.keep fun f => ?_)
    simp [hphase, AdmitPhase.Owns, AdmitPhase.fields, AdmitPhase.gate, guardFields]
  | @dropField c key g field fields hphase =>
    have hnodup := h.nodup c
    rw [hphase] at hnodup
    obtain ⟨hnot, hrest⟩ := List.nodup_cons.mp hnodup
    have hown : (s.calls c).Owns field g := by
      rw [hphase]
      exact ⟨rfl, List.mem_cons_self⟩
    refine h.move (by rw [hphase]; rfl) (by rw [hphase]; rfl) rfl rfl hrest
      (by rw [hphase]; exact List.mem_cons_of_mem _)
      (ActorExecutionGate.permits_release (h.permits _) ((h.counts g field).pos hown)) ?_
    refine h.release hown (fun ho => hnot ho.2) (fun f hf => ?_)
    simp [hphase, AdmitPhase.Owns, AdmitPhase.fields, AdmitPhase.gate, hf]

omit [DecidableEq ι] in
theorem locksOk_new : LocksOk (LocksState.new : LocksState ι) := by
  refine ⟨fun g field => ?_, fun _ => le_rfl, fun _ => List.nodup_nil, ?_, ?_, ?_, ⟨fun _ => ⟨""⟩, ?_, ?_⟩⟩
  · have hcount : (ActorExecutionGate.dead).count field = 0 := by cases field <;> rfl
    have hnone : holders (AdmitPhase.Owns field g) (LocksState.new : LocksState ι).calls = ∅ := by
      ext c
      simp [holders, LocksState.new, AdmitPhase.Owns, AdmitPhase.gate]
    change (holders _ _).encard = ((ActorExecutionGate.dead).count field : ℕ)
    rw [hcount, hnone, Set.encard_empty]
    rfl
  · intro c key g hk
    cases hk
  · intro c g hg
    cases hg
  · intro key g hl
    cases hl
  · intro key g hl
    cases hl
  · intro c key g hk
    cases hk

theorem locksOk_reachable (h : (locksSystem ι).Reachable s) : LocksOk s :=
  h.invariant (fun hinit => by subst hinit; exact locksOk_new) locksOk_step

end LDO
