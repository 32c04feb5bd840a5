import Mathlib.Data.Set.Card

/-! Counting who holds a resource. A pool of parties is a function from indices to
states; a counter is right when it says how many of them hold. -/

variable {ι φ : Type}

/-- The parties whose state meets `P`. -/
def holders (P : φ → Prop) (f : ι → φ) : Set ι := {i | P (f i)}

/-- Exactly `n` parties hold. -/
def Counts (n : ℕ) (P : φ → Prop) (f : ι → φ) : Prop := (holders P f).encard = n

namespace Counts

variable {n : ℕ} {P : φ → Prop} {f : ι → φ} {i j : ι} {v : φ}

theorem pos (h : Counts n P f) (hi : P (f i)) : 0 < n := by
  have hne : (holders P f).encard ≠ 0 := Set.encard_ne_zero.mpr ⟨i, hi⟩
  rw [h] at hne
  exact Nat.pos_of_ne_zero (by exact_mod_cast hne)

theorem exists_holder (h : Counts n P f) (hn : 0 < n) : ∃ i, P (f i) := by
  have hne : (holders P f).encard ≠ 0 := by
    rw [h]
    exact_mod_cast hn.ne'
  exact Set.encard_ne_zero.mp hne

variable [DecidableEq ι]

theorem holders_update_same (h : P v ↔ P (f i)) : holders P (Function.update f i v) = holders P f := by
  ext j
  by_cases hj : j = i
  · subst hj
    simp [holders, h]
  · simp [holders, hj]

theorem holders_update_take (h : P v) : holders P (Function.update f i v) = insert i (holders P f) := by
  ext j
  by_cases hj : j = i
  · subst hj
    simp [holders, h]
  · simp [holders, hj]

theorem keep (h : Counts n P f) (hv : P v ↔ P (f i)) : Counts n P (Function.update f i v) := by
  rw [Counts, holders_update_same hv]
  exact h

theorem take (h : Counts n P f) (hi : ¬ P (f i)) (hv : P v) : Counts (n + 1) P (Function.update f i v) := by
  have hmem : i ∉ holders P f := hi
  rw [Counts, holders_update_take hv, Set.encard_insert_of_notMem hmem, h]
  rfl

theorem release (h : Counts (n + 1) P f) (hi : P (f i)) (hv : ¬ P v) :
    Counts n P (Function.update f i v) := by
  have hback : Function.update (Function.update f i v) i (f i) = f := by simp
  have hmem : i ∉ holders P (Function.update f i v) := by simp [holders, hv]
  have hcard : (holders P (Function.update f i v)).encard + 1 = (n : ℕ∞) + 1 := by
    rw [← Set.encard_insert_of_notMem hmem, ← holders_update_take hi, hback, h]
    rfl
  exact ENat.add_left_injective_of_ne_top (by simp) hcard

end Counts
