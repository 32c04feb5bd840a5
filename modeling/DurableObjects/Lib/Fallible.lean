import DurableObjects.Lib.Program

/-! Programs that may fail, from one world at a time: what is known of a successful
answer and of the world it leaves. What every step keeps is known after a failure too. -/

namespace Prog

variable {Op : Type} {Res : Op → Type} {W α β ε : Type} {E : Env Op Res W}

/-- What every step keeps can be carried along. -/
theorem wp_frame {I : W → Prop} (hstep : ∀ {w op r w'}, I w → E.step w op r w' → I w') {p : Prog Op Res α}
    {Q : α → W → Prop} {w : W} (hI : I w) (h : wp E p Q w) : wp E p (fun a w' => Q a w' ∧ I w') w := by
  induction p generalizing w with
  | ret a => exact ⟨h, hI⟩
  | call op next ih => exact ⟨h.1, fun r w' hs => ih r (hstep hI hs) (h.2 r w' hs)⟩

/-- From `w` the program makes only allowed calls, and succeeds only with an answer and a world in `Q`. -/
def Gives (E : Env Op Res W) (x : ExceptT ε (Prog Op Res) α) (Q : α → W → Prop) (w : W) : Prop :=
  wp E x.run (fun r w' => ∀ a, r = .ok a → Q a w') w

variable {x : ExceptT ε (Prog Op Res) α} {f : α → ExceptT ε (Prog Op Res) β} {P P' : α → W → Prop} {Q : β → W → Prop} {w : W}

theorem Gives.mono (h : Gives E x P w) (hP : ∀ a w', P a w' → P' a w') : Gives E x P' w :=
  wp_mono h fun _ _ hr a ha => hP a _ (hr a ha)

theorem Gives.pure {a : α} (h : P a w) : Gives E (Pure.pure a : ExceptT ε (Prog Op Res) α) P w := by
  intro b hb
  cases hb
  exact h

theorem Gives.throw (e : ε) : Gives E (throw e : ExceptT ε (Prog Op Res) α) P w := by
  intro b hb
  cases hb

/-- An answer computed without a call -/
theorem Gives.value {r : Except ε α} (h : ∀ a, r = .ok a → P a w) :
    Gives E (ExceptT.mk (Prog.ret r) : ExceptT ε (Prog Op Res) α) P w := h

theorem Gives.bind (hx : Gives E x P w) (hf : ∀ a w', P a w' → Gives E (f a) Q w') :
    Gives E (x >>= f) Q w := by
  apply wp_except_bind
  refine wp_mono hx fun r w' hr => ?_
  cases r with
  | ok a => exact hf a w' (hr a rfl)
  | error e =>
    intro b hb
    cases hb

theorem Gives.ite {c : Prop} [Decidable c] {y : ExceptT ε (Prog Op Res) α} (hx : c → Gives E x P w)
    (hy : ¬ c → Gives E y P w) :
    Gives E (if c then x else y) P w := by
  split
  · exact hx ‹_›
  · exact hy ‹_›

/-- One call, whose answer is the answer -/
theorem Gives.call {op : Op} {next : Res op → Prog Op Res (Except ε α)} (hok : E.ok w op)
    (h : ∀ r w', E.step w op r w' → ∃ a, next r = .ret a ∧ ∀ b, a = .ok b → P b w') :
    Gives E (ExceptT.mk (Prog.call op next) : ExceptT ε (Prog Op Res) α) P w := by
  refine ⟨hok, fun r w' hs => ?_⟩
  obtain ⟨a, hnext, ha⟩ := h r w' hs
  rw [hnext]
  exact ha

section Kept

variable {I : W → Prop}

theorem Gives.frame (hstep : ∀ {w op r w'}, I w → E.step w op r w' → I w') (hI : I w) (h : Gives E x P w) :
    Gives E x (fun a w' => P a w' ∧ I w') w :=
  wp_mono (wp_frame hstep hI h) fun _ _ hr a ha => ⟨hr.1 a ha, hr.2⟩

theorem Gives.seq (hstep : ∀ {w op r w'}, I w → E.step w op r w' → I w') (hI : I w) (hx : Gives E x P w)
    (hf : ∀ a w', P a w' → I w' → Gives E (f a) Q w') : Gives E (x >>= f) Q w :=
  (hx.frame hstep hI).bind fun a w' h => hf a w' h.1 h.2

/-- After a failure nothing is known of the world but what every step keeps. -/
theorem Gives.tryCatch {h : ε → ExceptT ε (Prog Op Res) α}
    (hstep : ∀ {w op r w'}, I w → E.step w op r w' → I w') (hI : I w) (hx : Gives E x P w)
    (hh : ∀ e w', I w' → Gives E (h e) P w') : Gives E (tryCatch x h) P w := by
  apply wp_tryCatch
  refine wp_mono (wp_frame hstep hI hx) fun r w' hr => ?_
  cases r with
  | ok a => exact hr.1
  | error e => exact hh e w' hr.2

end Kept

/-! ### Runs -/

section Runs

variable {w' w'' : W} {a : α} {e : ε} {r : Except ε β} {r' : Except ε α} {h : ε → ExceptT ε (Prog Op Res) α}

theorem Exec.except_bind (hx : Exec E x.run w (.ok a) w') (hf : Exec E (f a).run w' r w'') :
    Exec E (x >>= f).run w r w'' :=
  exec_bind.mpr ⟨_, _, hx, hf⟩

theorem Exec.except_bind_error (hx : Exec E x.run w (.error e) w') : Exec E (x >>= f).run w (.error e) w' :=
  exec_bind.mpr ⟨_, _, hx, .ret _ _⟩

theorem Exec.tryCatch_ok (hx : Exec E x.run w (.ok a) w') : Exec E (tryCatch x h).run w (.ok a) w' :=
  exec_bind.mpr ⟨_, _, hx, .ret _ _⟩

theorem Exec.tryCatch_error (hx : Exec E x.run w (.error e) w') (hh : Exec E (h e).run w' r' w'') :
    Exec E (tryCatch x h).run w r' w'' :=
  exec_bind.mpr ⟨_, _, hx, hh⟩

theorem Exec.perform {op : Op} {a : Res op} (hs : E.step w op a w') :
    Exec E (Prog.perform op) w a w' := .call hs (.ret _ _)

end Runs

end Prog
