import Mathlib.Order.Interval.Finset.Nat
import DurableObjects.Sanity.ActorLocks

/-! Turns of one actor exclude each other, and at most 33 calls are in its queue. `Full` may
be returned a moment longer: a guard gives its permit back after the mutex, so that a
call whose guard is being dropped still counts. -/

namespace LDO

variable {ι : Type} [DecidableEq ι] {s s' s'' : LocksState ι} {e : LocksEvent ι} {c c' : ι} {key : ActorStorageKey}
  {g : ℕ} {phase : AdmitPhase}

def Enabled (s : LocksState ι) (e : LocksEvent ι) : Prop := ∃ s', LocksStep s e s'

theorem AdmitPhase.key_of_gate (h : phase.gate = some g) : ∃ key, phase.key = some key := by
  cases phase with
  | idle => cases h
  | asking key => exact ⟨key, rfl⟩
  | waiting key => exact ⟨key, rfl⟩
  | holding key => exact ⟨key, rfl⟩
  | leaving key => exact ⟨key, rfl⟩

/-- A call moves at one gate and keeps its key. -/
theorem step_shape (hs : LocksStep s e s') : ∃ phase g gate, s'.calls = Function.update s.calls e.call phase ∧
    s'.gates = Function.update s.gates g gate ∧ phase.gate = some g ∧
      ∀ key, (s.calls e.call).key = some key → phase.key = some key := by
  cases hs with
  | @gate c key locks hidle =>
    simp only [LocksState.gate, LocksEvent.call]
    split
    · exact ⟨_, _, _, rfl, rfl, rfl, fun _ hk => absurd ((congrArg AdmitPhase.key hidle).symm.trans hk) (by simp [AdmitPhase.key])⟩
    · exact ⟨_, _, _, rfl, rfl, rfl, fun _ hk => absurd ((congrArg AdmitPhase.key hidle).symm.trans hk) (by simp [AdmitPhase.key])⟩
  | permit hphase => exact ⟨_, _, _, rfl, rfl, rfl, fun _ hk => (congrArg AdmitPhase.key hphase).symm.trans hk⟩
  | full hphase => exact ⟨_, _, _, rfl, rfl, rfl, fun _ hk => (congrArg AdmitPhase.key hphase).symm.trans hk⟩
  | acquired hphase => exact ⟨_, _, _, rfl, rfl, rfl, fun _ hk => (congrArg AdmitPhase.key hphase).symm.trans hk⟩
  | cancel hphase => exact ⟨_, _, _, rfl, rfl, rfl, fun _ hk => (congrArg AdmitPhase.key hphase).symm.trans hk⟩
  | drop hphase => exact ⟨_, _, _, rfl, rfl, rfl, fun _ hk => (congrArg AdmitPhase.key hphase).symm.trans hk⟩
  | dropField hphase => exact ⟨_, _, _, rfl, rfl, rfl, fun _ hk => (congrArg AdmitPhase.key hphase).symm.trans hk⟩

/-! ### Exclusion -/

/-- A call keeps holding until its guard's drop starts. -/
theorem holding_step (h : s.calls c = .holding key g) (hs : LocksStep s e s') (hdrop : e ≠ .drop c) :
    s'.calls c = .holding key g := by
  by_cases hc : c = e.call
  · subst hc
    cases hs with
    | drop => exact absurd rfl hdrop
    | gate hphase => cases h.symm.trans hphase
    | permit hphase => cases h.symm.trans hphase
    | full hphase => cases h.symm.trans hphase
    | acquired hphase => cases h.symm.trans hphase
    | cancel hphase => cases h.symm.trans hphase
    | dropField hphase => cases h.symm.trans hphase
  · obtain ⟨phase, g', gate, hcalls, -⟩ := step_shape hs
    rw [hcalls, Function.update_of_ne hc]
    exact h

theorem holding_path {evs : List (LocksEvent ι)} (h : s.calls c = .holding key g)
    (hp : (locksSystem ι).Path s evs s') (hdrop : LocksEvent.drop c ∉ evs) :
    s'.calls c = .holding key g := by
  induction hp with
  | nil => exact h
  | @snoc _ _ evs e _ hs ih =>
    simp only [List.mem_append, List.mem_singleton, not_or] at hdrop
    exact holding_step (ih hdrop.1) hs (Ne.symm hdrop.2)

/-- While a call holds, the gate of its key is locked. -/
theorem acquired_excluded (h : LocksOk s) (hc : s.calls c = .holding key g)
    (hs : LocksStep s (.acquired c') s') :
    (s.calls c').key ≠ some key := by
  intro hkey
  cases hs with
  | @acquired _ key' g' hphase hfree =>
    obtain rfl : key' = key := by simpa [hphase, AdmitPhase.key] using hkey
    have hcur := h.current c key' g (by rw [hc]; rfl) (by rw [hc]; exact ⟨rfl, by simp [AdmitPhase.fields]⟩)
    have hcur' := h.current c' key' g' hkey (by rw [hphase]; exact ⟨rfl, by simp [AdmitPhase.fields]⟩)
    obtain rfl : g = g' := Option.some.inj (hcur.symm.trans hcur')
    have hpos := (h.counts g .execution).pos (i := c) (by rw [hc]; exact ⟨rfl, by simp [AdmitPhase.fields]⟩)
    simp [ActorExecutionGate.count, hfree] at hpos

/-! ### The bound -/

/-- The calls on a key that have a permit. -/
def Permitted (key : ActorStorageKey) (phase : AdmitPhase) : Prop :=
  phase.key = some key ∧ .admission ∈ phase.fields

theorem admitted_owns (hphase : phase.admitted key) : ∃ g, phase.key = some key ∧ phase.Owns .gate g ∧
    phase.Owns .admission g := by
  cases phase with
  | idle => cases hphase
  | asking => cases hphase
  | leaving => cases hphase
  | waiting key' g =>
    obtain rfl : key' = key := hphase
    exact ⟨g, rfl, ⟨rfl, by simp [AdmitPhase.fields]⟩, rfl, by simp [AdmitPhase.fields]⟩
  | holding key' g =>
    obtain rfl : key' = key := hphase
    exact ⟨g, rfl, ⟨rfl, by simp [AdmitPhase.fields]⟩, rfl, by simp [AdmitPhase.fields]⟩

omit [DecidableEq ι] in
theorem holders_admission_le (h : LocksOk s) (g : ℕ) :
    (holders (AdmitPhase.Owns .admission g) s.calls).encard ≤ maxAdmittedInvocationsPerActor := by
  rw [h.counts g .admission]
  exact_mod_cast Nat.sub_le _ _

omit [DecidableEq ι] in
theorem admitted_le (h : LocksOk s) (key : ActorStorageKey) :
    {c | (s.calls c).admitted key}.encard ≤ maxAdmittedInvocationsPerActor := by
  by_cases hany : ∃ c, (s.calls c).admitted key
  · obtain ⟨c, hc⟩ := hany
    obtain ⟨g, hkey, hgate, -⟩ := admitted_owns hc
    refine le_trans (Set.encard_le_encard fun c' hc' => ?_) (holders_admission_le h g)
    -- every such call has the gate the map leads to
    obtain ⟨g', hkey', hgate', hpermit'⟩ := admitted_owns hc'
    obtain rfl : g = g' := Option.some.inj ((h.current c key g hkey hgate).symm.trans (h.current c' key g' hkey' hgate'))
    exact hpermit'
  · have hempty : {c | (s.calls c).admitted key} = ∅ := by
      ext c
      simpa using fun hc => hany ⟨c, hc⟩
    rw [hempty, Set.encard_empty]
    exact zero_le

/-- `Full` says that every permit of the gate is out. -/
theorem full_permitted (h : LocksOk s) (hs : LocksStep s (.full c) s') (hkey : (s.calls c).key = some key) :
    maxAdmittedInvocationsPerActor ≤ {c' | c' ≠ c ∧ Permitted key (s.calls c')}.encard := by
  cases hs with
  | @full _ key' g hphase hzero =>
    obtain ⟨keyOf, -, hcall⟩ := h.keyed
    have hall : (holders (AdmitPhase.Owns .admission g) s.calls).encard = maxAdmittedInvocationsPerActor := by
      rw [h.counts g .admission, ActorExecutionGate.count, hzero]
      rfl
    rw [← hall]
    refine Set.encard_le_encard fun c' hc' => ⟨?_, ?_, hc'.2⟩
    · rintro rfl
      simp [holders, AdmitPhase.Owns, hphase, AdmitPhase.fields] at hc'
    · obtain ⟨key'', hkey''⟩ := AdmitPhase.key_of_gate hc'.1
      rw [hkey'', ← hcall c' key'' g hkey'' hc'.1, hcall c key g hkey (by rw [hphase]; rfl)]

/-! ### Different keys -/

/-- A step of a call on another key leaves a call and its gate alone. -/
theorem frame_step (h : LocksOk s) (hs : LocksStep s e s') (hkey : (s.calls c).key = some key)
    (hother : (s'.calls e.call).key ≠ some key) :
    s'.calls c = s.calls c ∧ ∀ g, (s.calls c).gate = some g → s'.gates g = s.gates g := by
  obtain ⟨keyOf, -, hcall⟩ := (locksOk_step h hs).keyed
  obtain ⟨phase, g', gate, hcalls, hgates, hgate, hkeeps⟩ := step_shape hs
  have hphase : s'.calls e.call = phase := by rw [hcalls, Function.update_self]
  have hc : c ≠ e.call := by
    rintro rfl
    exact hother (hphase ▸ hkeeps key hkey)
  have hsame : s'.calls c = s.calls c := by rw [hcalls, Function.update_of_ne hc]
  refine ⟨hsame, fun g hg => ?_⟩
  rw [hgates, Function.update_of_ne]
  rintro rfl
  obtain ⟨key', hkey'⟩ := AdmitPhase.key_of_gate hgate
  have hown : keyOf g = key := hcall c key g (by rw [hsame, hkey]) (by rw [hsame, hg])
  have hforeign : keyOf g = key' := hcall e.call key' g (by rw [hphase, hkey']) (by rw [hphase, hgate])
  rw [hphase, hkey', ← hforeign, hown] at hother
  exact hother rfl

/-- What a call can do depends on its phase and its gate. -/
theorem enabled_of_same (hkey : (s.calls e.call).key = some key) (hcall : s'.calls e.call = s.calls e.call)
    (hgate : ∀ g, (s.calls e.call).gate = some g → s'.gates g = s.gates g) (h : Enabled s e) :
    Enabled s' e := by
  obtain ⟨s₁, hs⟩ := h
  cases hs with
  | gate hidle => exact nomatch (congrArg AdmitPhase.key hidle).symm.trans hkey
  | permit hphase hpos => exact ⟨_, .permit (hcall.trans hphase) (by rwa [hgate _ (congrArg AdmitPhase.gate hphase)])⟩
  | full hphase hzero => exact ⟨_, .full (hcall.trans hphase) (by rwa [hgate _ (congrArg AdmitPhase.gate hphase)])⟩
  | acquired hphase hfree => exact ⟨_, .acquired (hcall.trans hphase) (by rwa [hgate _ (congrArg AdmitPhase.gate hphase)])⟩
  | cancel hphase => exact ⟨_, .cancel (hcall.trans hphase)⟩
  | drop hphase => exact ⟨_, .drop (hcall.trans hphase)⟩
  | dropField hphase => exact ⟨_, .dropField (hcall.trans hphase)⟩

/-- Only a call on the same key keeps a waiting call from its turn. -/
theorem waiting_blocked (h : LocksOk s) (hc : s.calls c = .waiting key g) : Enabled s (.acquired c) ∨
    ∃ c', c' ≠ c ∧ (s.calls c').key = some key ∧ .execution ∈ (s.calls c').fields := by
  cases hl : (s.gates g).locked with
  | false => exact .inl ⟨_, .acquired hc hl⟩
  | true =>
    right
    obtain ⟨keyOf, -, hcall⟩ := h.keyed
    obtain ⟨c', hgate, hmem⟩ := (h.counts g .execution).exists_holder (by simp [ActorExecutionGate.count, hl])
    refine ⟨c', ?_, ?_, hmem⟩
    · rintro rfl
      simp [hc, AdmitPhase.fields] at hmem
    · obtain ⟨key', hkey'⟩ := AdmitPhase.key_of_gate hgate
      rw [hkey', ← hcall c' key' g hkey' hgate, hcall c key g (by rw [hc]; rfl) (by rw [hc]; rfl)]

/-- Between the return of `Acquired` and the start of the guard's drop no other call on the
key returns `Acquired`; at most 33 calls wait or hold; `Full` is returned only when 33
other calls wait, hold or have yet to drop their permit. A call is kept waiting only by
a call on its own key, and no step on another key changes what it can do. -/
theorem turns_exclusive_and_bounded (h : (locksSystem ι).Reachable s) (key : ActorStorageKey) :
    (∀ c g evs s', s.calls c = .holding key g → (locksSystem ι).Path s evs s' → LocksEvent.drop c ∉ evs →
      ∀ c' s'', LocksStep s' (.acquired c') s'' → (s'.calls c').key ≠ some key) ∧
    {c | (s.calls c).admitted key}.encard ≤ maxAdmittedInvocationsPerActor ∧
    (∀ c s', LocksStep s (.full c) s' → (s.calls c).key = some key →
      maxAdmittedInvocationsPerActor ≤ {c' | c' ≠ c ∧ Permitted key (s.calls c')}.encard) ∧
    (∀ c, s.calls c = .idle → Enabled s (.gate c key)) ∧
    (∀ c g, s.calls c = .asking key g → Enabled s (.permit c) ∨ Enabled s (.full c)) ∧
    (∀ c g, s.calls c = .waiting key g → Enabled s (.acquired c) ∨
      ∃ c', c' ≠ c ∧ (s.calls c').key = some key ∧ .execution ∈ (s.calls c').fields) ∧
    (∀ e s', LocksStep s e s' → (s'.calls e.call).key ≠ some key → ∀ e', (s.calls e'.call).key = some key →
      (Enabled s e' ↔ Enabled s' e')) := by
  have hok := locksOk_reachable h
  refine ⟨?_, admitted_le hok key, fun c s' hs hkey => full_permitted hok hs hkey, ?_, ?_,
    fun c g hc => waiting_blocked hok hc, ?_⟩
  · intro c g evs s' hc hp hdrop c' s'' hs
    exact acquired_excluded (locksOk_reachable (h.path hp)) (holding_path hc hp hdrop) hs
  · exact fun c hc => ⟨_, .gate hc fun _ => .inl rfl⟩
  · intro c g hc
    rcases Nat.eq_zero_or_pos (s.gates g).permits with hzero | hpos
    · exact .inr ⟨_, .full hc hzero⟩
    · exact .inl ⟨_, .permit hc hpos⟩
  · intro e s' hs hother e' hkey
    obtain ⟨hcall, hgate⟩ := frame_step hok hs hkey hother
    refine ⟨enabled_of_same hkey hcall hgate, enabled_of_same (by rw [hcall, hkey]) hcall.symm fun g hg => ?_⟩
    rw [hcall] at hg
    exact (hgate g hg).symm

/-! ### A guard in the middle of its drop -/

def crowdedKey : ActorStorageKey := ⟨"object.v1.acme.Counter.1"⟩

/-- The map leads to one gate. -/
def oneGate (gate : ActorExecutionGate) (calls : ℕ → AdmitPhase) : LocksState ℕ :=
  ⟨Function.update (fun _ => none) crowdedKey (some 0), Function.update (fun _ => .dead) 0 gate, 1, calls⟩

theorem oneGate_setCall (gate gate' : ActorExecutionGate) (calls : ℕ → AdmitPhase) (c : ℕ)
    (phase : AdmitPhase) :
    (oneGate gate calls).setCall c phase 0 gate' = oneGate gate' (Function.update calls c phase) := by
  simp [oneGate, LocksState.setCall]

theorem oneGate_gates (gate : ActorExecutionGate) (calls : ℕ → AdmitPhase) :
    (oneGate gate calls).gates 0 = gate := by
  simp [oneGate]

section OneGate

variable {gate : ActorExecutionGate} {calls : ℕ → AdmitPhase} {i : ℕ} (h : (locksSystem ℕ).Reachable (oneGate gate calls))

include h

theorem oneGate_join (hi : calls i = .idle) (halive : 0 < gate.strong) :
    (locksSystem ℕ).Reachable (oneGate (gate.take .gate) (Function.update calls i (.asking crowdedKey 0))) := by
  have hfound : ((oneGate gate calls).locks crowdedKey).bind (oneGate gate calls).upgrade = some 0 := by
    simp [oneGate, LocksState.upgrade, halive]
  have hgate : (oneGate gate calls).gate i crowdedKey (oneGate gate calls).locks =
      oneGate (gate.take .gate) (Function.update calls i (.asking crowdedKey 0)) := by
    simp only [LocksState.gate, hfound, oneGate_setCall, oneGate_gates]
    rfl
  rw [← hgate]
  exact h.step (.gate hi fun _ => .inl rfl)

theorem oneGate_move {phase : AdmitPhase} {gate' : ActorExecutionGate} {e : LocksEvent ℕ}
    (hs : LocksStep (oneGate gate calls) e ((oneGate gate calls).setCall i phase 0 gate')) :
    (locksSystem ℕ).Reachable (oneGate gate' (Function.update calls i phase)) := by
  rw [← oneGate_setCall gate]
  exact h.step hs

theorem oneGate_wait (hi : calls i = .idle) (halive : 0 < gate.strong) (hpermits : 0 < gate.permits) :
    (locksSystem ℕ).Reachable (oneGate ((gate.take .gate).take .admission)
      (Function.update calls i (.waiting crowdedKey 0))) := by
  have hjoin := oneGate_join h hi halive
  have hwait := oneGate_move hjoin (.permit (c := i) (Function.update_self ..) (by rw [oneGate_gates]; exact hpermits))
  rwa [oneGate_gates, Function.update_idem] at hwait

end OneGate

def waitingBelow (n : ℕ) : ℕ → AdmitPhase := fun c => if c < n then .waiting crowdedKey 0 else .idle

theorem waitingBelow_succ (n : ℕ) :
    Function.update (waitingBelow n) n (.waiting crowdedKey 0) = waitingBelow (n + 1) := by
  funext c
  by_cases hc : c = n
  · subst hc
    simp [waitingBelow]
  · have hiff : c < n ↔ c < n + 1 := by omega
    simp [waitingBelow, Function.update_of_ne hc, hiff]

theorem waitingBelow_reachable {n : ℕ} (hn : n < 33) :
    (locksSystem ℕ).Reachable (oneGate ⟨n + 1, false, 32 - n⟩ (waitingBelow (n + 1))) := by
  induction n with
  | zero =>
    have hnew : (locksSystem ℕ).Reachable .new := ⟨[], .new, rfl, .nil _⟩
    have hgate : (locksSystem ℕ).Reachable
        (oneGate ⟨1, false, 33⟩ (Function.update (waitingBelow 0) 0 (.asking crowdedKey 0))) :=
      hnew.step (.gate rfl fun _ => .inl rfl)
    have hwait := oneGate_move hgate (.permit (Function.update_self ..) (by rw [oneGate_gates]; decide))
    rw [oneGate_gates, Function.update_idem, waitingBelow_succ] at hwait
    exact hwait
  | succ n ih =>
    have hwait := oneGate_wait (ih (by omega)) (i := n + 1) (by simp [waitingBelow]) (Nat.succ_pos n)
      (show 0 < 32 - n by omega)
    rw [waitingBelow_succ] at hwait
    exact hwait

/-- The calls when the last one asks: 32 wait, and the first has given its mutex back. -/
def dropUnderWay : ℕ → AdmitPhase :=
  Function.update (Function.update (waitingBelow 33) 0 (.leaving crowdedKey 0 [.admission])) 33 (.asking crowdedKey 0)

theorem dropUnderWay_reachable : (locksSystem ℕ).Reachable (oneGate ⟨33, false, 0⟩ dropUnderWay) := by
  have hwait := waitingBelow_reachable (n := 32) (by omega)
  have hhold := oneGate_move hwait (.acquired (c := 0) rfl (by rw [oneGate_gates]))
  have hdrop := oneGate_move hhold (.drop (Function.update_self ..))
  rw [Function.update_idem, oneGate_gates, oneGate_gates] at hdrop
  have hgate := oneGate_move hdrop (.dropField (Function.update_self ..))
  rw [Function.update_idem, oneGate_gates] at hgate
  have hexecution := oneGate_move hgate (.dropField (Function.update_self ..))
  rw [Function.update_idem, oneGate_gates] at hexecution
  exact oneGate_join hexecution (i := 33) rfl (by decide)

theorem dropUnderWay_full : LocksStep (oneGate ⟨33, false, 0⟩ dropUnderWay) (.full 33)
    ((oneGate ⟨33, false, 0⟩ dropUnderWay).setCall 33 (.leaving crowdedKey 0 [.gate]) 0 ⟨33, false, 0⟩) := by
  have hasks : dropUnderWay 33 = .asking crowdedKey 0 := Function.update_self ..
  have hgate := oneGate_gates ⟨33, false, 0⟩ dropUnderWay
  have hs := LocksStep.full (s := oneGate ⟨33, false, 0⟩ dropUnderWay) (c := 33) hasks (by rw [hgate])
  rwa [hgate] at hs

theorem admitted_dropUnderWay : {c | c ≠ 33 ∧ (dropUnderWay c).admitted crowdedKey} = Set.Ioo 0 33 := by
  ext c
  simp only [dropUnderWay, Set.mem_ofPred_eq, Set.mem_Ioo]
  by_cases hlast : c = 33
  · simp [hlast]
  · rw [Function.update_of_ne hlast]
    by_cases hfirst : c = 0
    · simp [hfirst, AdmitPhase.admitted]
    · rw [Function.update_of_ne hfirst, waitingBelow]
      split_ifs with hlt
      · simp [AdmitPhase.admitted, hlast, hlt, Nat.pos_of_ne_zero hfirst]
      · simp [AdmitPhase.admitted, hlt]

/-- `Full` is returned although only 32 other calls on the key wait or hold: the one whose
guard is being dropped has given the mutex back and not yet its permit. -/
theorem full_while_dropping :
    ∃ (s s' : LocksState ℕ) (c : ℕ), (locksSystem ℕ).Reachable s ∧ LocksStep s (.full c) s' ∧
    (s.calls c).key = some crowdedKey ∧ {c' | c' ≠ c ∧ (s.calls c').admitted crowdedKey}.encard = 32 := by
  refine ⟨_, _, 33, dropUnderWay_reachable, dropUnderWay_full, rfl, ?_⟩
  change {c' | c' ≠ 33 ∧ (dropUnderWay c').admitted crowdedKey}.encard = 32
  rw [admitted_dropUnderWay, ← Finset.coe_Ioo, Set.encard_coe_eq_coe_finsetCard]
  rfl

theorem turns_exclusive_and_bounded_dropUnderWay :
    (locksSystem ℕ).Reachable (oneGate ⟨33, false, 0⟩ dropUnderWay) ∧
    {c | (dropUnderWay c).admitted crowdedKey}.encard ≤ 33 ∧
    33 ≤ {c | c ≠ 33 ∧ Permitted crowdedKey (dropUnderWay c)}.encard := by
  obtain ⟨-, hbound, hfull, -⟩ := turns_exclusive_and_bounded dropUnderWay_reachable crowdedKey
  exact ⟨dropUnderWay_reachable, hbound, hfull 33 _ dropUnderWay_full rfl⟩

end LDO
