import Mathlib.Data.List.Induction

/-! Machines that answer one call at a time, and when two of them answer alike. -/

structure Machine (Call Answer σ : Type) where
  init : σ
  call : Call → σ → Answer × σ

namespace Machine

variable {Call Answer Answer' σ τ : Type}

section After

variable (M : Machine Call Answer σ)

def after (calls : List Call) : σ := calls.foldl (fun s c => (M.call c s).2) M.init

def answer (calls : List Call) (c : Call) : Answer := (M.call c (M.after calls)).1

theorem after_append (calls : List Call) (c : Call) :
    M.after (calls ++ [c]) = (M.call c (M.after calls)).2 := by
  simp [after]

end After

/-- Every call of the list meets `p`, given the calls before it. -/
def Each (p : List Call → Call → Prop) (calls : List Call) : Prop :=
  ∀ earlier c later, calls = earlier ++ c :: later → p earlier c

variable {p : List Call → Call → Prop}

theorem each_nil : Each p [] := by
  intro earlier c later h
  simp at h

theorem each_append {calls : List Call} {c : Call} : Each p (calls ++ [c]) ↔ Each p calls ∧ p calls c := by
  constructor
  · intro h
    refine ⟨?_, h calls c [] rfl⟩
    rintro earlier c' later rfl
    exact h earlier c' (later ++ [c]) (by simp)
  · rintro ⟨hcalls, hc⟩ earlier c' later heq
    rcases List.eq_nil_or_concat later with rfl | ⟨later, last, rfl⟩
    · obtain ⟨rfl, hlast⟩ := List.append_inj' heq rfl
      cases hlast
      exact hc
    · rw [List.concat_eq_append, ← List.cons_append, ← List.append_assoc] at heq
      obtain ⟨rfl, -⟩ := List.append_inj' heq rfl
      exact hcalls earlier c' later rfl

/-- Two machines that, in the states `R` relates, answer a call alike exactly if it meets `P`, and
that stay related as long as they do. -/
structure Agreement (M : Machine Call Answer σ) (N : Machine Call Answer' τ) (same : Answer → Answer' → Prop)
    (valid : Call → Prop) (P : Call → σ → Prop) (R : σ → τ → Prop) : Prop where
  init : R M.init N.init
  same_iff : ∀ {c s t}, valid c → R s t → (same (M.call c s).1 (N.call c t).1 ↔ P c s)
  related : ∀ {c s t}, valid c → R s t → same (M.call c s).1 (N.call c t).1 → R (M.call c s).2 (N.call c t).2

namespace Agreement

variable {M : Machine Call Answer σ} {N : Machine Call Answer' τ} {same : Answer → Answer' → Prop}
variable {valid : Call → Prop} {P : Call → σ → Prop} {R : σ → τ → Prop}

theorem after_related (h : Agreement M N same valid P R) {calls : List Call} (hvalid : ∀ c ∈ calls, valid c)
    (hcalls : Each (fun earlier c => P c (M.after earlier)) calls) : R (M.after calls) (N.after calls) := by
  induction calls using List.reverseRecOn with
  | nil => exact h.init
  | append_singleton calls c ih =>
    obtain ⟨hbefore, hc⟩ := each_append.mp hcalls
    have hrel := ih (fun c' hc' => hvalid c' (by simp [hc'])) hbefore
    rw [after_append, after_append]
    have hvalid : valid c := hvalid c (by simp)
    exact h.related hvalid hrel ((h.same_iff hvalid hrel).mpr hc)

/-- The first call that does not meet `P` shows in the answers. -/
theorem each_same_iff (h : Agreement M N same valid P R) {calls : List Call} (hvalid : ∀ c ∈ calls, valid c) :
    Each (fun earlier c => same (M.answer earlier c) (N.answer earlier c)) calls ↔
      Each (fun earlier c => P c (M.after earlier)) calls := by
  induction calls using List.reverseRecOn with
  | nil => exact iff_of_true each_nil each_nil
  | append_singleton calls c ih =>
    have hbefore : ∀ c' ∈ calls, valid c' := fun c' hc' => hvalid c' (by simp [hc'])
    rw [each_append, each_append, ih hbefore]
    exact and_congr_right fun hcalls => h.same_iff (hvalid c (by simp)) (h.after_related hbefore hcalls)

end Agreement

end Machine
