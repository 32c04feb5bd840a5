import Mathlib.Logic.Function.Basic
import DurableObjects.Lib.Program

/-! Labelled transition systems, their runs, and pools of programs that take
turns calling one shared environment. -/

structure System (σ ε : Type) where
  init : σ → Prop
  step : σ → ε → σ → Prop

namespace System

variable {σ ε : Type} (S : System σ ε)

/-- `Path s evs s'`: the events `evs` lead from `s` to `s'`. -/
inductive Path : σ → List ε → σ → Prop
  | nil (s : σ) : Path s [] s
  | snoc {s s' s'' : σ} {evs : List ε} {e : ε} :
      Path s evs s' → S.step s' e s'' → Path s (evs ++ [e]) s''

/-- A run is a path from an initial state. -/
def Run (evs : List ε) (s : σ) : Prop := ∃ s₀, S.init s₀ ∧ S.Path s₀ evs s

def Reachable (s : σ) : Prop := ∃ evs, S.Run evs s

/-- The runs of `S` whose steps all meet `cond`. -/
def restrict (cond : σ → ε → σ → Prop) : System σ ε where
  init := S.init
  step s e s' := S.step s e s' ∧ cond s e s'

variable {S}

theorem Path.trans {s s' s'' : σ} {evs evs' : List ε} (h : S.Path s evs s')
    (h' : S.Path s' evs' s'') : S.Path s (evs ++ evs') s'' := by
  induction h' with
  | nil => simpa using h
  | snoc _ hs ih => rw [← List.append_assoc]; exact ih.snoc hs

theorem Path.single {s s' : σ} {e : ε} (h : S.step s e s') : S.Path s [e] s' :=
  (Path.nil s).snoc h

theorem Reachable.path {s s' : σ} {evs : List ε} (h : S.Reachable s) (hp : S.Path s evs s') :
    S.Reachable s' := by
  obtain ⟨evs₀, s₀, hi, h₀⟩ := h
  exact ⟨evs₀ ++ evs, s₀, hi, h₀.trans hp⟩

theorem Reachable.step {s s' : σ} {e : ε} (h : S.Reachable s) (hs : S.step s e s') :
    S.Reachable s' := h.path (.single hs)

theorem Reachable.of_restrict {cond : σ → ε → σ → Prop} {s : σ} (h : (S.restrict cond).Reachable s) :
    S.Reachable s := by
  obtain ⟨evs, s₀, hi, hp⟩ := h
  refine ⟨evs, s₀, hi, ?_⟩
  clear hi
  induction hp with
  | nil => exact .nil _
  | snoc _ hs ih => exact ih.snoc hs.1

theorem Path.of_append {s s' : σ} {evs evs' : List ε} (h : S.Path s (evs ++ evs') s') :
    ∃ m, S.Path s evs m ∧ S.Path m evs' s' := by
  generalize heq : evs ++ evs' = all at h
  induction h generalizing evs' with
  | nil =>
    obtain ⟨rfl, rfl⟩ := List.append_eq_nil_iff.mp heq
    exact ⟨_, .nil _, .nil _⟩
  | snoc hp hs ih =>
    rcases List.eq_nil_or_concat evs' with rfl | ⟨evs'', e, rfl⟩
    · rw [List.append_nil] at heq
      subst heq
      exact ⟨_, hp.snoc hs, .nil _⟩
    · rw [List.concat_eq_append, ← List.append_assoc] at heq
      obtain ⟨rfl, heq'⟩ := List.append_inj' heq rfl
      cases List.singleton_inj.mp heq'
      obtain ⟨m, hm, hm'⟩ := ih rfl
      rw [List.concat_eq_append]
      exact ⟨m, hm, hm'.snoc hs⟩

theorem Path.of_nil {s s' : σ} (h : S.Path s [] s') : s' = s := by
  generalize heq : [] = evs at h
  cases h with
  | nil => rfl
  | snoc => simp at heq

theorem Path.of_single {s s' : σ} {e : ε} (h : S.Path s [e] s') : S.step s e s' := by
  generalize heq : [e] = evs at h
  cases h with
  | nil => cases heq
  | snoc hp hs =>
    obtain ⟨hnil, heq'⟩ := List.append_inj' ((List.nil_append _).trans heq) rfl
    cases List.singleton_inj.mp heq'
    subst hnil
    rw [← hp.of_nil]
    exact hs

/-- The run `evs` to `s` passes through `s₁`, with the events `earlier` behind it and the event `e` ahead. -/
def Passes (S : System σ ε) (evs : List ε) (s : σ) (earlier : List ε) (s₁ : σ) (e : ε) : Prop :=
  ∃ later, evs = earlier ++ e :: later ∧ S.Run earlier s₁ ∧ S.Path s₁ (e :: later) s

theorem Passes.snoc {s s₁ s' : σ} {evs earlier : List ε} {e e' : ε} (h : S.Passes evs s earlier s₁ e)
    (hs : S.step s e' s') : S.Passes (evs ++ [e']) s' earlier s₁ e := by
  obtain ⟨later, rfl, hrun, hp⟩ := h
  exact ⟨later ++ [e'], by simp, hrun, hp.snoc hs⟩

theorem Passes.step {s s₁ : σ} {evs earlier : List ε} {e : ε} (h : S.Passes evs s earlier s₁ e) :
    ∃ s₂, S.step s₁ e s₂ := by
  obtain ⟨later, -, -, hp⟩ := h
  obtain ⟨s₂, hs, -⟩ := Path.of_append (S := S) (s := s₁) (show S.Path s₁ ([e] ++ later) s from hp)
  exact ⟨s₂, hs.of_single⟩

theorem Passes.reachable {s s₁ : σ} {evs earlier : List ε} {e : ε} (h : S.Passes evs s earlier s₁ e) :
    S.Reachable s₁ := by
  obtain ⟨_, -, hrun, -⟩ := h
  exact ⟨earlier, hrun⟩

theorem Run.passes {s : σ} {earlier later : List ε} {e : ε} (h : S.Run (earlier ++ e :: later) s) :
    ∃ s₁, S.Passes (earlier ++ e :: later) s earlier s₁ e := by
  obtain ⟨s₀, hi, hp⟩ := h
  obtain ⟨s₁, hp₁, hp₂⟩ := hp.of_append
  exact ⟨s₁, later, rfl, ⟨s₀, hi, hp₁⟩, hp₂⟩

/-- A relation that is reflexive, transitive and kept by every step relates the
ends of every path. -/
theorem Path.rel {R : σ → σ → Prop} (hrefl : ∀ s, R s s)
    (htrans : ∀ {a b c}, R a b → R b c → R a c) (hstep : ∀ {s e s'}, S.step s e s' → R s s')
    {s s' : σ} {evs : List ε} (h : S.Path s evs s') : R s s' := by
  induction h with
  | nil => exact hrefl _
  | snoc _ hs ih => exact htrans ih (hstep hs)

/-- The invariant rule. -/
theorem Reachable.invariant {I : σ → Prop} (hinit : ∀ {s}, S.init s → I s)
    (hstep : ∀ {s e s'}, I s → S.step s e s' → I s') {s : σ} (h : S.Reachable s) : I s := by
  obtain ⟨evs, s₀, hi, hp⟩ := h
  induction hp with
  | nil => exact hinit hi
  | snoc _ hs ih => exact hstep ih hs

/-- The invariant rule, for what ties a state to the run that led to it. -/
theorem Run.invariant {I : List ε → σ → Prop} (hinit : ∀ {s}, S.init s → I [] s)
    (hstep : ∀ {evs s e s'}, S.Run evs s → I evs s → S.step s e s' → I (evs ++ [e]) s') {evs : List ε} {s : σ}
    (h : S.Run evs s) : I evs s := by
  obtain ⟨s₀, hi, hp⟩ := h
  induction hp with
  | nil => exact hinit hi
  | snoc hp hs ih => exact hstep ⟨s₀, hi, hp⟩ ih hs

/-! ### Systems of a step function -/

/-- The system of a partial step function. -/
def ofStep (init : σ → Prop) (next : σ → ε → Option σ) : System σ ε where
  init := init
  step s e s' := next s e = some s'

theorem Path.of_foldlM {init : σ → Prop} {next : σ → ε → Option σ} {evs : List ε} {s s' : σ}
    (h : evs.foldlM next s = some s') : (ofStep init next).Path s evs s' := by
  induction evs generalizing s with
  | nil =>
    cases h
    exact .nil _
  | cons e evs ih =>
    rw [List.foldlM_cons] at h
    obtain ⟨m, hm, hrest⟩ := Option.bind_eq_some_iff.mp h
    exact Path.trans (.single hm) (ih hrest)

end System

/-! ### Pools of programs -/

section Threads

open Prog

variable {ι τ Op α W : Type} {Res : Op → Type}
variable (E : ι → τ → Env Op Res W) (Q : ι → τ → α → W → Prop)

/-- Every running program still meets its specification: thread `i`, tagged
`t`, will end in `Q i t`. -/
def ThreadsOk (threads : ι → Option (τ × Prog Op Res α)) (w : W) : Prop :=
  ∀ i t p, threads i = some (t, p) → wp (E i t) p (Q i t) w

variable {E Q} [DecidableEq ι] {threads : ι → Option (τ × Prog Op Res α)} {w w' : W} {i : ι} {t : τ}

theorem ThreadsOk.spawn {p : Prog Op Res α} (h : ThreadsOk E Q threads w) (hp : wp (E i t) p (Q i t) w) :
    ThreadsOk E Q (Function.update threads i (some (t, p))) w := by
  intro j u q hq
  by_cases hj : j = i
  · subst hj
    obtain ⟨rfl, rfl⟩ := by simpa using hq
    exact hp
  · exact h j u q (by simpa [hj] using hq)

theorem ThreadsOk.drop (h : ThreadsOk E Q threads w) (i : ι) :
    ThreadsOk E Q (Function.update threads i none) w := by
  intro j u q hq
  by_cases hj : j = i
  · subst hj; simp at hq
  · exact h j u q (by simpa [hj] using hq)

/-- One call of thread `i`, seen by every other thread as interference. -/
theorem ThreadsOk.call {op : Op} {next : Res op → Prog Op Res α} {r : Res op}
    (h : ThreadsOk E Q threads w) (hi : threads i = some (t, .call op next))
    (hs : (E i t).step w op r w')
    (hrely : ∀ j u q, j ≠ i → wp (E j u) q (Q j u) w → wp (E j u) q (Q j u) w') :
    ThreadsOk E Q (Function.update threads i (some (t, next r))) w' := by
  intro j u q hq
  by_cases hj : j = i
  · subst hj
    obtain ⟨rfl, rfl⟩ := by simpa using hq
    exact (h _ _ _ hi).2 r w' hs
  · exact hrely j u q hj (h j u q (by simpa [hj] using hq))

omit [DecidableEq ι] in
theorem ThreadsOk.move (h : ThreadsOk E Q threads w)
    (hrely : ∀ j u q, wp (E j u) q (Q j u) w → wp (E j u) q (Q j u) w') : ThreadsOk E Q threads w' :=
  fun j u q hq => hrely j u q (h j u q hq)

end Threads
