import Mathlib.Logic.Basic

/-! Programs that talk to an environment, one call at a time. A program is a
finite tree of calls: nothing is said about what a call does, so one program
can be run against a database, a network or an adversary. `wp` is the weakest
precondition of a program against such an environment. -/

/-- A program over the calls `Op`, whose call `op` is answered by a `Res op`. -/
inductive Prog (Op : Type) (Res : Op → Type) (α : Type) where
  | ret (a : α)
  | call (op : Op) (next : Res op → Prog Op Res α)

namespace Prog

variable {Op Op' : Type} {Res : Op → Type} {Res' : Op' → Type} {α β : Type}

def bind : Prog Op Res α → (α → Prog Op Res β) → Prog Op Res β
  | .ret a, f => f a
  | .call op next, f => .call op fun r => (next r).bind f

instance : Monad (Prog Op Res) where
  pure := .ret
  bind := Prog.bind

/-- The program that makes one call and returns its answer. -/
def perform (op : Op) : Prog Op Res (Res op) := .call op .ret

@[simp] theorem pure_eq (a : α) : (pure a : Prog Op Res α) = .ret a := rfl

@[simp] theorem ret_bind (a : α) (f : α → Prog Op Res β) : (Prog.ret a >>= f) = f a := rfl

@[simp] theorem call_bind (op : Op) (next : Res op → Prog Op Res α) (f : α → Prog Op Res β) :
    (Prog.call op next >>= f) = .call op fun r => next r >>= f := rfl

@[simp] theorem perform_bind (op : Op) (f : Res op → Prog Op Res β) :
    (perform op >>= f) = .call op f := rfl

/-- Answers every call of a program by running another program. -/
def interp (handler : (op : Op) → Prog Op' Res' (Res op)) : Prog Op Res α → Prog Op' Res' α
  | .ret a => .ret a
  | .call op next => handler op >>= fun r => (next r).interp handler

end Prog

/-- What an environment over worlds `W` asks of its caller (`ok`) and how it
may answer (`step`). -/
structure Env (Op : Type) (Res : Op → Type) (W : Type) where
  ok : W → Op → Prop
  step : W → (op : Op) → Res op → W → Prop

namespace Prog

variable {Op Op' : Type} {Res : Op → Type} {Res' : Op' → Type} {W W' α β : Type}

/-- Every call of the program is allowed, and every run of it ends in `Q`. -/
def wp (E : Env Op Res W) : Prog Op Res α → (α → W → Prop) → W → Prop
  | .ret a, Q, w => Q a w
  | .call op next, Q, w => E.ok w op ∧ ∀ r w', E.step w op r w' → wp E (next r) Q w'

@[simp] theorem wp_ret (E : Env Op Res W) (a : α) (Q : α → W → Prop) (w : W) :
    wp E (.ret a) Q w ↔ Q a w := Iff.rfl

theorem wp_call (E : Env Op Res W) (op : Op) (next : Res op → Prog Op Res α)
    (Q : α → W → Prop) (w : W) :
    wp E (.call op next) Q w ↔ E.ok w op ∧ ∀ r w', E.step w op r w' → wp E (next r) Q w' := Iff.rfl

theorem wp_bind (E : Env Op Res W) (p : Prog Op Res α) (f : α → Prog Op Res β)
    (Q : β → W → Prop) (w : W) :
    wp E (p >>= f) Q w ↔ wp E p (fun a w' => wp E (f a) Q w') w := by
  induction p generalizing w with
  | ret a => rfl
  | call op next ih =>
    simp only [call_bind, wp_call, ih]

theorem wp_map (E : Env Op Res W) (f : α → β) (p : Prog Op Res α) (Q : β → W → Prop) (w : W) :
    wp E (f <$> p) Q w ↔ wp E p (fun a w' => Q (f a) w') w :=
  wp_bind E p (fun a => .ret (f a)) Q w

theorem wp_mono {E : Env Op Res W} {p : Prog Op Res α} {Q Q' : α → W → Prop} {w : W}
    (h : wp E p Q w) (hQ : ∀ a w', Q a w' → Q' a w') : wp E p Q' w := by
  induction p generalizing w with
  | ret a => exact hQ _ _ h
  | call op next ih => exact ⟨h.1, fun r w' hs => ih r (h.2 r w' hs)⟩

theorem wp_forall {E : Env Op Res W} (hok : ∀ w op, E.ok w op) {Q : α → W → Prop} (hQ : ∀ a w, Q a w)
    (p : Prog Op Res α) (w : W) : wp E p Q w := by
  induction p generalizing w with
  | ret a => exact hQ a w
  | call op next ih => exact ⟨hok w op, fun r w' _ => ih r w'⟩

/-- Sequencing, with the two halves proved apart. -/
theorem wp_seq {E : Env Op Res W} {p : Prog Op Res α} {f : α → Prog Op Res β}
    {R : α → W → Prop} {Q : β → W → Prop} {w : W} (hp : wp E p R w)
    (hf : ∀ a w', R a w' → wp E (f a) Q w') : wp E (p >>= f) Q w :=
  (wp_bind E p f Q w).mpr (wp_mono hp hf)

/-- A world move that keeps `ok` and adds no answers keeps weakest preconditions. -/
theorem wp_stable {E : Env Op Res W} {R : W → W → Prop}
    (hok : ∀ w w' op, R w w' → E.ok w op → E.ok w' op)
    (hstep : ∀ w w' op r w'', R w w' → E.step w' op r w'' → E.step w op r w'')
    {p : Prog Op Res α} {Q : α → W → Prop} (hQ : ∀ a w w', R w w' → Q a w → Q a w')
    {w w' : W} (hR : R w w') (h : wp E p Q w) : wp E p Q w' := by
  cases p with
  | ret a => exact hQ a w w' hR h
  | call op next => exact ⟨hok w w' op hR h.1, fun r w'' hs => h.2 r w'' (hstep w w' op r w'' hR hs)⟩

/-- A handler that meets the environment `E` through `E'` carries every
specification over `E` to the handled program. -/
theorem wp_interp {E : Env Op Res W} {E' : Env Op' Res' W}
    {handler : (op : Op) → Prog Op' Res' (Res op)}
    (hh : ∀ w op, E.ok w op → wp E' (handler op) (fun r w' => E.step w op r w') w)
    {p : Prog Op Res α} {Q : α → W → Prop} {w : W} (h : wp E p Q w) :
    wp E' (p.interp handler) Q w := by
  induction p generalizing w with
  | ret a => exact h
  | call op next ih => exact wp_seq (hh w op h.1) fun r w' hs => ih r (h.2 r w' hs)

/-- A terminated run of a program, ending with an answer and a world. -/
inductive Exec (E : Env Op Res W) : Prog Op Res α → W → α → W → Prop
  | ret (a : α) (w : W) : Exec E (.ret a) w a w
  | call {op : Op} {next : Res op → Prog Op Res α} {w w' w'' : W} {r : Res op} {a : α} :
      E.step w op r w' → Exec E (next r) w' a w'' → Exec E (.call op next) w a w''

theorem exec_ret {E : Env Op Res W} {a b : α} {w w' : W} : Exec E (.ret a) w b w' ↔ b = a ∧ w' = w := by
  constructor
  · rintro ⟨⟩; exact ⟨rfl, rfl⟩
  · rintro ⟨rfl, rfl⟩; exact .ret _ _

theorem exec_call {E : Env Op Res W} {op : Op} {next : Res op → Prog Op Res α} {w w'' : W} {a : α} :
    Exec E (.call op next) w a w'' ↔ ∃ r w', E.step w op r w' ∧ Exec E (next r) w' a w'' := by
  constructor
  · rintro ⟨⟩; exact ⟨_, _, ‹_›, ‹_›⟩
  · rintro ⟨r, w', hs, hx⟩; exact .call hs hx

theorem exec_bind {E : Env Op Res W} {p : Prog Op Res α} {f : α → Prog Op Res β} {w w'' : W} {b : β} :
    Exec E (p >>= f) w b w'' ↔ ∃ a w', Exec E p w a w' ∧ Exec E (f a) w' b w'' := by
  induction p generalizing w with
  | ret a =>
    simp only [ret_bind, exec_ret]
    constructor
    · exact fun h => ⟨a, w, ⟨rfl, rfl⟩, h⟩
    · rintro ⟨_, _, ⟨rfl, rfl⟩, h⟩
      exact h
  | call op next ih =>
    simp only [call_bind, exec_call, ih]
    constructor
    · rintro ⟨r, w₁, hs, a, w₂, hx, hf⟩
      exact ⟨a, w₂, ⟨r, w₁, hs, hx⟩, hf⟩
    · rintro ⟨a, w₂, ⟨r, w₁, hs, hx⟩, hf⟩
      exact ⟨r, w₁, hs, a, w₂, hx, hf⟩

/-- The run against an environment that always answers the same way. -/
def run (oracle : W → (op : Op) → Res op × W) : Prog Op Res α → W → α × W
  | .ret a, w => (a, w)
  | .call op next, w => (next (oracle w op).1).run oracle (oracle w op).2

theorem exec_run {E : Env Op Res W} {oracle : W → (op : Op) → Res op × W}
    (h : ∀ w op, E.step w op (oracle w op).1 (oracle w op).2) (p : Prog Op Res α) (w : W) :
    Exec E p w (p.run oracle w).1 (p.run oracle w).2 := by
  induction p generalizing w with
  | ret a => exact .ret a w
  | call op next ih => exact .call (h w op) (ih _ _)

/-- The weakest precondition bounds every terminated run. -/
theorem Exec.of_wp {E : Env Op Res W} {p : Prog Op Res α} {Q : α → W → Prop} {w w' : W} {a : α}
    (hx : Exec E p w a w') (h : wp E p Q w) : Q a w' := by
  induction hx with
  | ret a w => exact h
  | call hs _ ih => exact ih (h.2 _ _ hs)

/-- A run that may be cut off anywhere: from `p` in `w` to what is left of it in `w'`. -/
inductive Reaches (E : Env Op Res W) : Prog Op Res α → W → Prog Op Res α → W → Prop
  | refl (p : Prog Op Res α) (w : W) : Reaches E p w p w
  | call {op : Op} {next : Res op → Prog Op Res α} {q : Prog Op Res α} {w w' w'' : W} {r : Res op} :
      E.step w op r w' → Reaches E (next r) w' q w'' → Reaches E (.call op next) w q w''

/-- What is left meets the specification. -/
theorem Reaches.wp {E : Env Op Res W} {p q : Prog Op Res α} {Q : α → W → Prop} {w w' : W}
    (h : Reaches E p w q w') (hp : p.wp E Q w) : q.wp E Q w' := by
  induction h with
  | refl p w => exact hp
  | call hs _ ih => exact ih (hp.2 _ _ hs)

/-- What every allowed call keeps holds wherever the run is cut off. -/
theorem Reaches.invariant {E : Env Op Res W} {p q : Prog Op Res α} {Q : α → W → Prop} {I : W → Prop}
    {w w' : W} (h : Reaches E p w q w') (hp : p.wp E Q w) (hI : I w)
    (hstep : ∀ {w op r w'}, I w → E.ok w op → E.step w op r w' → I w') : I w' := by
  induction h with
  | refl p w => exact hI
  | call hs _ ih => exact ih (hp.2 _ _ hs) (hstep hI hp.1 hs)

/-- Whatever it is answered, the program makes only calls in `P`. -/
def Calls (P : Op → Prop) : Prog Op Res α → Prop
  | .ret _ => True
  | .call op next => P op ∧ ∀ r, Calls P (next r)

theorem Calls.bind {P : Op → Prop} {p : Prog Op Res α} {f : α → Prog Op Res β} (hp : Calls P p)
    (hf : ∀ a, Calls P (f a)) : Calls P (p >>= f) := by
  induction p with
  | ret a => exact hf a
  | call op next ih => exact ⟨hp.1, fun r => ih r (hp.2 r)⟩

theorem Calls.perform {P : Op → Prop} {op : Op} (h : P op) : Calls P (perform op : Prog Op Res (Res op)) :=
  ⟨h, fun _ => trivial⟩

/-- Whatever it is answered, the program returns only values in `P`. -/
def Returns (P : α → Prop) : Prog Op Res α → Prop
  | .ret a => P a
  | .call _ next => ∀ r, Returns P (next r)

theorem Returns.bind {P : α → Prop} {Q : β → Prop} {p : Prog Op Res α} {f : α → Prog Op Res β}
    (hp : Returns P p) (hf : ∀ a, P a → Returns Q (f a)) : Returns Q (p >>= f) := by
  induction p with
  | ret a => exact hf a hp
  | call op next ih => exact fun r => ih r (hp r)

theorem Returns.trivial (p : Prog Op Res α) : Returns (fun _ => True) p := by
  induction p with
  | ret a => exact True.intro
  | call op next ih => exact ih

/-- A program whose calls leave the world as it is. -/
theorem Calls.wp {E : Env Op Res W} {P : Op → Prop} {Q : α → Prop} {p : Prog Op Res α} {w : W} (h : Calls P p)
    (hret : Returns Q p) (hok : ∀ op, P op → E.ok w op) (hstep : ∀ op r w', P op → E.step w op r w' → w' = w) :
    p.wp E (fun a w' => Q a ∧ w' = w) w := by
  induction p with
  | ret a => exact ⟨hret, rfl⟩
  | call op next ih =>
    refine ⟨hok op h.1, fun r w' hs => ?_⟩
    obtain rfl := hstep op r w' h.1 hs
    exact ih r (h.2 r) (hret r)

/-! ### Programs that may fail -/

section Except

variable {ε : Type} {E : Env Op Res W} {w : W}

theorem wp_except_bind {x : ExceptT ε (Prog Op Res) α} {f : α → ExceptT ε (Prog Op Res) β}
    {Q : Except ε β → W → Prop}
    (h : wp E x.run (fun r w' => match r with
      | .ok a => wp E (f a).run Q w'
      | .error e => Q (.error e) w') w) : wp E (x >>= f).run Q w := by
  refine (wp_bind E x.run _ Q w).mpr (wp_mono h fun r w' hr => ?_)
  cases r with
  | ok a => exact hr
  | error e => exact hr

theorem wp_except_pure {a : α} {Q : Except ε α → W → Prop} (h : Q (.ok a) w) :
    wp E (pure a : ExceptT ε (Prog Op Res) α).run Q w := h

theorem wp_except_ite {c : Prop} [Decidable c] {x y : ExceptT ε (Prog Op Res) α} {Q : Except ε α → W → Prop}
    (hx : c → wp E x.run Q w) (hy : ¬ c → wp E y.run Q w) : wp E (if c then x else y).run Q w := by
  split
  · exact hx ‹_›
  · exact hy ‹_›

theorem wp_tryCatch {x : ExceptT ε (Prog Op Res) α} {f : ε → ExceptT ε (Prog Op Res) α}
    {Q : Except ε α → W → Prop}
    (h : wp E x.run (fun r w' => match r with
      | .ok a => Q (.ok a) w'
      | .error e => wp E (f e).run Q w') w) : wp E (tryCatch x f).run Q w := by
  refine (wp_bind E x.run _ Q w).mpr (wp_mono h fun r w' hr => ?_)
  cases r with
  | ok a => exact hr
  | error e => exact hr

theorem Calls.except_bind {P : Op → Prop} {x : ExceptT ε (Prog Op Res) α} {f : α → ExceptT ε (Prog Op Res) β}
    (hx : Calls P x.run) (hf : ∀ a, Calls P (f a).run) : Calls P (x >>= f).run := by
  refine hx.bind fun r => ?_
  cases r with
  | ok a => exact hf a
  | error e => trivial

/-- From whatever world it starts, the program makes only allowed calls and succeeds only
with values in `P`. -/
def Yields (E : Env Op Res W) (x : ExceptT ε (Prog Op Res) α) (P : α → Prop) : Prop :=
  ∀ w, wp E x.run (fun r _ => ∀ a, r = .ok a → P a) w

variable {x : ExceptT ε (Prog Op Res) α} {f : α → ExceptT ε (Prog Op Res) β} {P P' : α → Prop} {Q : β → Prop}

theorem Yields.any (hok : ∀ w op, E.ok w op) : Yields E x fun _ => True :=
  fun w => wp_forall hok (fun _ _ _ _ => trivial) x.run w

theorem Yields.pure {a : α} (h : P a) : Yields E (Pure.pure a : ExceptT ε (Prog Op Res) α) P := by
  intro w b hb
  cases hb
  exact h

theorem Yields.throw (e : ε) : Yields E (ExceptT.mk (.ret (.error e)) : ExceptT ε (Prog Op Res) α) P :=
  fun _ _ => nofun

theorem Yields.bind (hx : Yields E x P) (hf : ∀ a, P a → Yields E (f a) Q) : Yields E (x >>= f) Q := by
  refine fun w => wp_except_bind (wp_mono (hx w) fun r w' hr => ?_)
  cases r with
  | ok a => exact hf a (hr a rfl) w'
  | error e => exact fun _ => nofun

theorem Yields.tryCatch {h : ε → ExceptT ε (Prog Op Res) α} (hx : Yields E x P) (hh : ∀ e, Yields E (h e) P) :
    Yields E (MonadExcept.tryCatch x h) P := by
  refine fun w => wp_tryCatch (wp_mono (hx w) fun r w' hr => ?_)
  cases r with
  | ok a => exact hr
  | error e => exact hh e w'

/-- One call, whose answer decides. -/
theorem Yields.call {op : Op} {next : Res op → Prog Op Res (Except ε α)} (hok : ∀ w, E.ok w op)
    (h : ∀ r, ∃ a, next r = .ret a ∧ ∀ w w', E.step w op r w' → ∀ b, a = .ok b → P b) :
    Yields E (ExceptT.mk (Prog.call op next) : ExceptT ε (Prog Op Res) α) P := by
  refine fun w => ⟨hok w, fun r w' hs => ?_⟩
  obtain ⟨a, hnext, ha⟩ := h r
  rw [hnext]
  exact ha w w' hs

theorem Exec.of_yields {a : α} {w' : W} (hx : Exec E x.run w (.ok a) w') (h : Yields E x P) : P a :=
  hx.of_wp (h w) a rfl

end Except

end Prog
