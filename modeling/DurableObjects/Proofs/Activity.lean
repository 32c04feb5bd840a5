import Mathlib.Data.List.DropRight
import DurableObjects.Spec.Activity

/-! The published activity level. The counter is always the number of turns in progress, but
two calls may send in the other order than they updated it. The channel is right exactly as
long as the last of some overlapping calls to send is not overtaken: since its own update, as
many turns have begun as have finished. -/

namespace LDO

variable {ι : Type} [DecidableEq ι] {s s' : ActivityState ι} {e : ActivityEvent ι} {evs : List (ActivityEvent ι)} {turn : ι}

/-! ### The order of updates and sends -/

namespace ActivityEvent

/-- The turn whose counter update it is. -/
def updated : ActivityEvent ι → Option ι
  | .add turn => some turn
  | .sub turn => some turn
  | .send _ => none

def sent : ActivityEvent ι → Option ι
  | .send turn => some turn
  | _ => none

def isAdd : ActivityEvent ι → Bool
  | .add _ => true
  | _ => false

def isSub : ActivityEvent ι → Bool
  | .sub _ => true
  | _ => false

/-- Every counter update has been followed by its send. -/
def NoneDue (evs : List (ActivityEvent ι)) : Prop :=
  ∀ turn, evs.countP (·.updated = some turn) = evs.countP (·.sent = some turn)

/-- What has happened since the last counter update of the turn. -/
def sinceUpdate (turn : ι) (evs : List (ActivityEvent ι)) : List (ActivityEvent ι) :=
  evs.rtakeWhile (·.updated ≠ some turn)

/-- If no other send is due, as many turns have begun as have finished since the update whose send this is. -/
def InOrderAt (earlier : List (ActivityEvent ι)) : ActivityEvent ι → Prop
  | .send turn => NoneDue (earlier ++ [.send turn]) →
    (sinceUpdate turn earlier).countP isAdd = (sinceUpdate turn earlier).countP isSub
  | _ => True

def InOrder (evs : List (ActivityEvent ι)) : Prop :=
  ∀ earlier e later, evs = earlier ++ e :: later → InOrderAt earlier e

theorem inOrder_nil : InOrder ([] : List (ActivityEvent ι)) := by
  intro earlier e later h
  simp at h

theorem inOrder_snoc : InOrder (evs ++ [e]) ↔ InOrder evs ∧ InOrderAt evs e := by
  constructor
  · intro h
    exact ⟨fun earlier e' later heq => h earlier e' (later ++ [e]) (by simp [heq]), h evs e [] rfl⟩
  · rintro ⟨h, hlast⟩ earlier e' later heq
    rcases List.eq_nil_or_concat later with rfl | ⟨later, last, rfl⟩
    · obtain ⟨rfl, hsame⟩ := List.append_inj' heq rfl
      obtain rfl := List.singleton_inj.mp hsame
      exact hlast
    · rw [List.concat_eq_append, ← List.cons_append, ← List.append_assoc] at heq
      exact h earlier e' later (List.append_inj' heq rfl).1

/-- An update of the turn leaves nothing since. -/
theorem sinceUpdate_updated (h : e.updated = some turn) : sinceUpdate turn (evs ++ [e]) = [] := by
  simp [sinceUpdate, h]

theorem sinceUpdate_other (h : e.updated ≠ some turn) :
    sinceUpdate turn (evs ++ [e]) = sinceUpdate turn evs ++ [e] := by
  simp [sinceUpdate, h]

end ActivityEvent

/-- How many updates and sends are behind a turn. -/
def ActivityPhase.done : ActivityPhase → ℕ × ℕ
  | .before => (0, 0)
  | .beginning _ => (1, 0)
  | .running => (1, 1)
  | .finishing _ => (2, 1)
  | .finished => (2, 2)

namespace ActivityState

open ActivityEvent

def Accurate (s : ActivityState ι) : Prop := s.Settled →
  Counts s.activity (ActivityPhase.inProgress · = true) s.turns ∧
    (s.idle = true ↔ ∀ turn, (s.turns turn).inProgress = false)

/-! ### One step -/

theorem step_cases (hs : s.step e = some s') :
    (∃ turn, e = .add turn ∧ s.turns turn = .before ∧
      s' = ⟨s.active + 1, s.activity, Function.update s.turns turn (.beginning (s.active + 1))⟩) ∨
    (∃ turn, e = .sub turn ∧ s.turns turn = .running ∧
      s' = ⟨s.active - 1, s.activity, Function.update s.turns turn (.finishing (s.active - 1))⟩) ∨
    ∃ turn active phase, e = .send turn ∧ (s.turns turn).unsent = some active ∧ phase.unsent = none ∧
      phase.inProgress = (s.turns turn).inProgress ∧
      phase.done = ((s.turns turn).done.1, (s.turns turn).done.2 + 1) ∧
      s' = ⟨s.active, active, Function.update s.turns turn phase⟩ := by
  cases e with
  | add turn =>
    simp only [ActivityState.step] at hs
    split at hs
    · rename_i hphase
      exact .inl ⟨turn, rfl, hphase, (Option.some.inj hs).symm⟩
    · cases hs
  | sub turn =>
    simp only [ActivityState.step] at hs
    split at hs
    · rename_i hphase
      exact .inr (.inl ⟨turn, rfl, hphase, (Option.some.inj hs).symm⟩)
    · cases hs
  | send turn =>
    simp only [ActivityState.step] at hs
    split at hs
    · rename_i active hphase
      refine .inr (.inr ⟨turn, active, .running, rfl, ?_, rfl, ?_, ?_, (Option.some.inj hs).symm⟩) <;> rw [hphase] <;> rfl
    · rename_i active hphase
      refine .inr (.inr ⟨turn, active, .finished, rfl, ?_, rfl, ?_, ?_, (Option.some.inj hs).symm⟩) <;> rw [hphase] <;> rfl
    · cases hs

/-- The counter says how many turns are in progress. -/
def Counted (s : ActivityState ι) : Prop := Counts s.active (ActivityPhase.inProgress · = true) s.turns

theorem counted_step (h : Counted s) (hs : s.step e = some s') : Counted s' := by
  obtain ⟨turn, -, hphase, rfl⟩ | ⟨turn, -, hphase, rfl⟩ | ⟨turn, active, phase, -, -, -, hsame, -,
      rfl⟩ := step_cases hs
  · apply Counts.take h
    · simp [hphase, ActivityPhase.inProgress]
    · rfl
  · have hpos := Counts.pos h (i := turn) (by rw [hphase]; rfl)
    obtain ⟨n, hn⟩ : ∃ n, s.active = n + 1 := ⟨s.active - 1, by omega⟩
    rw [Counted, hn] at h
    show Counts (s.active - 1) _ _
    rw [hn]
    apply Counts.release h
    · simp [hphase, ActivityPhase.inProgress]
    · simp [ActivityPhase.inProgress]
  · apply Counts.keep h
    rw [hsame]

/-! ### What a run says of its state -/

/-- The state is the one the events lead to. -/
structure Follows (evs : List (ActivityEvent ι)) (s : ActivityState ι) : Prop where
  counted : Counted s
  done : ∀ turn, (s.turns turn).done = (evs.countP (·.updated = some turn), evs.countP (·.sent = some turn))
  /-- What is still to be sent is the counter without the starts and ends since. -/
  unsent : ∀ turn active, (s.turns turn).unsent = some active →
    active + (sinceUpdate turn evs).countP isAdd = s.active + (sinceUpdate turn evs).countP isSub

theorem Follows.settled_iff (h : Follows evs s) : s.Settled ↔ NoneDue evs := by
  refine forall_congr' fun turn => ?_
  have hdone := h.done turn
  cases hphase : s.turns turn <;> rw [hphase] at hdone <;> obtain ⟨hu, hv⟩ := Prod.ext_iff.mp hdone <;>
    simp only [ActivityPhase.done] at hu hv <;> simp [ActivityPhase.unsent, ← hu, ← hv]

theorem follows_initial : Follows [] (⟨0, 0, fun _ => .before⟩ : ActivityState ι) := by
  refine ⟨by simp [Counted, Counts, holders, ActivityPhase.inProgress], fun _ => rfl, ?_⟩
  intro turn active h
  cases h

/-- A turn that makes no step owes what it owed, and what has happened since is one event more. -/
theorem Follows.unsent_other (h : Follows evs s) {active : ℕ} {other : ι} (hother : e.updated ≠ some other)
    (hunsent : (s.turns other).unsent = some active) {n : ℕ}
    (hn : n + (if e.isSub then 1 else 0) = s.active + (if e.isAdd then 1 else 0)) :
    active + (sinceUpdate other (evs ++ [e])).countP isAdd =
      n + (sinceUpdate other (evs ++ [e])).countP isSub := by
  have hbefore := h.unsent other active hunsent
  rw [sinceUpdate_other hother, List.countP_append, List.countP_append, List.countP_singleton,
    List.countP_singleton]
  omega

/-- Only the turn of the event has more behind it. -/
theorem Follows.done_snoc (h : Follows evs s) {phase : ActivityPhase}
    (hphase : phase.done = ((s.turns turn).done.1 + (if e.updated = some turn then 1 else 0),
      (s.turns turn).done.2 + (if e.sent = some turn then 1 else 0)))
    (hothers : ∀ other, other ≠ turn → e.updated ≠ some other ∧ e.sent ≠ some other) (other : ι) :
    (Function.update s.turns turn phase other).done =
      ((evs ++ [e]).countP (·.updated = some other), (evs ++ [e]).countP (·.sent = some other)) := by
  have hbefore := h.done other
  by_cases hother : other = turn
  · subst hother
    rw [Function.update_self, hphase, hbefore]
    simp [List.countP_append, List.countP_singleton]
  · obtain ⟨hupdated, hsent⟩ := hothers other hother
    rw [Function.update_of_ne hother, hbefore]
    simp [List.countP_append, hupdated, hsent]

theorem follows_step (h : Follows evs s) (hs : s.step e = some s') : Follows (evs ++ [e]) s' := by
  have hcounted := counted_step h.counted hs
  obtain ⟨turn, rfl, hphase, rfl⟩ | ⟨turn, rfl, hphase, rfl⟩ | ⟨turn, active, phase, rfl, hunsent,
      hnone, -, hdone, rfl⟩ :=
    step_cases hs
  · refine ⟨hcounted, ?_, fun other active hdue => ?_⟩
    · apply h.done_snoc
      · rw [hphase]
        simp [ActivityPhase.done, updated, sent]
      · intro other hother
        simp [updated, sent, Ne.symm hother]
    · by_cases hother : other = turn
      · subst hother
        simp only [Function.update_self, ActivityPhase.unsent, Option.some.injEq] at hdue
        rw [sinceUpdate_updated rfl, ← hdue]
        rfl
      · simp only [Function.update_of_ne hother] at hdue
        exact h.unsent_other (by simpa [updated] using Ne.symm hother) hdue rfl
  · have hpos := Counts.pos h.counted (i := turn) (by rw [hphase]; rfl)
    refine ⟨hcounted, ?_, fun other active hdue => ?_⟩
    · apply h.done_snoc
      · rw [hphase]
        simp [ActivityPhase.done, updated, sent]
      · intro other hother
        simp [updated, sent, Ne.symm hother]
    · by_cases hother : other = turn
      · subst hother
        simp only [Function.update_self, ActivityPhase.unsent, Option.some.injEq] at hdue
        rw [sinceUpdate_updated rfl, ← hdue]
        rfl
      · simp only [Function.update_of_ne hother] at hdue
        apply h.unsent_other (by simpa [updated] using Ne.symm hother) hdue
        simp only [isSub, isAdd, if_true, Bool.false_eq_true, if_false]
        omega
  · refine ⟨hcounted, ?_, fun other active' hdue => ?_⟩
    · apply h.done_snoc
      · rw [hdone]
        simp [updated, sent]
      · intro other hother
        simp [updated, sent, Ne.symm hother]
    · by_cases hother : other = turn
      · subst hother
        simp only [Function.update_self, hnone] at hdue
        cases hdue
      · simp only [Function.update_of_ne hother] at hdue
        exact h.unsent_other (by simp [updated]) hdue rfl

theorem follows_run (h : (activitySystem ι).Run evs s) : Follows evs s := by
  apply h.invariant (I := Follows)
  · intro s hi
    obtain rfl : s = _ := hi
    exact follows_initial
  · intro evs s e s' _ hfollows hs
    exact follows_step hfollows hs

/-! ### The channel -/

/-- With nothing left to send, the channel holds the counter. -/
def Published (s : ActivityState ι) : Prop := s.Settled → s.activity = s.active

omit [DecidableEq ι] in
theorem accurate_iff (h : Counted s) : s.Accurate ↔ Published s := by
  constructor
  · intro ha hq
    have hcount := (ha hq).1
    rw [Counts, show (holders _ _).encard = _ from h] at hcount
    exact_mod_cast hcount.symm
  · intro hp hq
    refine ⟨by rw [hp hq]; exact h, ?_⟩
    rw [ActivityState.idle, beq_iff_eq, hp hq]
    constructor
    · intro hzero turn
      by_contra hrun
      have := Counts.pos h (i := turn) (by simpa using hrun)
      omega
    · intro hnone
      by_contra hne
      obtain ⟨turn, hturn⟩ := Counts.exists_holder h (Nat.pos_of_ne_zero hne)
      simp [hnone turn] at hturn

/-- A counter update leaves something to send. -/
theorem not_settled_update {active activity : ℕ} {phase : ActivityPhase} {n : ℕ}
    (hphase : phase.unsent = some n) :
    ¬ Settled ⟨active, activity, Function.update s.turns turn phase⟩ := by
  intro h
  have := h turn
  simp [hphase] at this

/-- A step makes or leaves the channel right exactly if it is in order. -/
theorem published_step_iff (h : Follows evs s) (hs : s.step e = some s') :
    Published s' ↔ InOrderAt evs e := by
  have hsettled := (follows_step h hs).settled_iff
  obtain ⟨turn, rfl, -, rfl⟩ | ⟨turn, rfl, -, rfl⟩ | ⟨turn, active, phase, rfl, hunsent, -, -, -,
      rfl⟩ := step_cases hs
  · exact iff_of_true (fun hq => absurd hq (not_settled_update rfl)) trivial
  · exact iff_of_true (fun hq => absurd hq (not_settled_update rfl)) trivial
  · have hsince := h.unsent turn active hunsent
    rw [Published, hsettled, InOrderAt]
    refine forall_congr' fun _ => ?_
    show active = s.active ↔ _
    omega

theorem accurate_step_iff (h : (activitySystem ι).Run evs s) (hs : s.step e = some s') :
    s'.Accurate ↔ InOrderAt evs e := by
  have hfollows := follows_run h
  rw [accurate_iff (counted_step hfollows.counted hs)]
  exact published_step_iff hfollows hs

end ActivityState

open ActivityState ActivityEvent

/-- In every state of a run the channel is right when nothing is left to send, exactly if every send that
leaves none due is in order. -/
theorem activity_accurate (ι : Type) [DecidableEq ι] (evs : List (ActivityEvent ι)) (s : ActivityState ι)
    (hrun : (activitySystem ι).Run evs s) :
    (∀ earlier s', earlier <+: evs → (activitySystem ι).Run earlier s' → s'.Accurate) ↔ InOrder evs := by
  constructor
  · rintro h earlier e later rfl
    obtain ⟨s₁, hpasses⟩ := hrun.passes
    obtain ⟨_, -, ⟨s₀, hi, hpath⟩, -⟩ := id hpasses
    obtain ⟨s₂, hs⟩ := hpasses.step
    have hnext : (activitySystem ι).Run (earlier ++ [e]) s₂ := ⟨s₀, hi, hpath.snoc hs⟩
    exact (accurate_step_iff ⟨s₀, hi, hpath⟩ hs).mp (h _ s₂ ⟨later, by simp⟩ hnext)
  · rintro h earlier s' ⟨later, rfl⟩ ⟨s₀, hi, hpath⟩
    rcases List.eq_nil_or_concat earlier with rfl | ⟨before, e, rfl⟩
    · obtain rfl := hpath.of_nil
      obtain rfl : s' = _ := hi
      rw [accurate_iff follows_initial.counted]
      exact fun _ => rfl
    · rw [List.concat_eq_append] at hpath h
      obtain ⟨s₁, hbefore, hlast⟩ := hpath.of_append
      exact (accurate_step_iff ⟨s₀, hi, hbefore⟩ hlast.of_single).mpr (h before e later (by simp))

/-- A turn begins and ends; before the end is sent, another turn begins. -/
def overtaken : List (ActivityEvent Bool) :=
  [.add false, .send false, .sub false, .add true, .send true, .send false]

/-- Where `overtaken` leads: idle, with the second turn running. -/
def overtakenState : ActivityState Bool := ⟨1, 0, fun turn => if turn then .running else .finished⟩

theorem overtaken_run : (activitySystem Bool).Run overtaken overtakenState := by
  refine ⟨_, rfl, System.Path.of_foldlM ?_⟩
  show some _ = some _
  congr 2
  funext turn
  cases turn <;> rfl

/-- A turn begins, and before that is sent another turn begins and ends. -/
def nested : List (ActivityEvent Bool) :=
  [.add false, .add true, .send true, .sub true, .send true, .send false]

theorem nested_run :
    (activitySystem Bool).Run nested ⟨1, 1, fun turn => if turn then .finished else .running⟩ := by
  refine ⟨_, rfl, System.Path.of_foldlM ?_⟩
  show some _ = some _
  congr 2
  funext turn
  cases turn <;> rfl

theorem nested_inOrder : InOrder nested := by
  have hfirst : InOrder ([] ++ [.add false] ++ [.add true] : List (ActivityEvent Bool)) :=
    inOrder_snoc.mpr ⟨inOrder_snoc.mpr ⟨inOrder_nil, trivial⟩, trivial⟩
  have hsecond : InOrder ([.add false, .add true] ++ [.send true] ++ [.sub true] ++ [.send true] : List (ActivityEvent Bool)) := by
    refine inOrder_snoc.mpr ⟨inOrder_snoc.mpr ⟨inOrder_snoc.mpr ⟨hfirst, ?_⟩, trivial⟩, ?_⟩
    · exact fun hdue => absurd (hdue false) (by decide)
    · exact fun hdue => absurd (hdue false) (by decide)
  have hlast : InOrder ([.add false, .add true, .send true, .sub true, .send true] ++ [.send false] :
      List (ActivityEvent Bool)) := inOrder_snoc.mpr ⟨hsecond, fun _ => by decide⟩
  exact hlast

theorem activity_accurate_nested :
    (∀ earlier s', earlier <+: nested → (activitySystem Bool).Run earlier s' → s'.Accurate) ∧
    ¬ ∀ earlier s', earlier <+: overtaken → (activitySystem Bool).Run earlier s' → s'.Accurate := by
  refine ⟨(activity_accurate Bool nested _ nested_run).mpr nested_inOrder, ?_⟩
  rw [activity_accurate Bool overtaken _ overtaken_run]
  intro h
  have hlast := h [.add false, .send false, .sub false, .add true, .send true] (.send false) [] rfl
    (by intro turn; cases turn <;> decide)
  exact absurd hlast (by decide)

theorem activity_overtaken : ¬ ∀ s : ActivityState Bool, (activitySystem Bool).Reachable s → s.Accurate := by
  intro h
  have hsettled : overtakenState.Settled := by
    intro turn
    cases turn <;> rfl
  have hover := ((h _ ⟨_, overtaken_run⟩ hsettled).2.mp rfl) true
  cases hover

end LDO
