import DurableObjects.Proofs.Chunking
import DurableObjects.Proofs.ReplySize
import DurableObjects.Sanity.Frame
import DurableObjects.Sanity.ProviderProcess
import DurableObjects.Sanity.SocketEffects

/-! The pool of provider processes. A response goes to the exchange that sent the command it
answers; a process whose exchange did not come to a decoded response is out of the pool for
good; and neither side refuses what the other lets through. -/

namespace LDO

open Json Utf8

section Pool

variable {ι Reply : Type} [DecidableEq ι] {serde : SerdeJson} {requests : ι → ProviderRequest Reply}
  {s s' : ProviderPool ι Reply} {event : PoolEvent ι} {e e' : ι} {p p' : ℕ} {outcome : ExchangeOutcome Reply}

/-- `response` was read from the line with which `p` answered the command of `e`. -/
structure AnsweredFor (serde : SerdeJson) (requests : ι → ProviderRequest Reply)
    (process : ProviderProcess ι) (e : ι) (response : ProviderResponse Reply) : Prop where
  answer : ∃ (k : ℕ) (line : List UInt8), process.users[k]? = some e ∧
    process.commands[k]? = some (requests e).document ∧
    process.lines[k]? = some line ∧ (requests e).decode serde (line ++ [10]) = some response

/-- How an exchange may have ended. -/
def Ended (serde : SerdeJson) (requests : ι → ProviderRequest Reply) (s : ProviderPool ι Reply)
    (e : ι) (used : Option ℕ) :
    ExchangeOutcome Reply → Prop
  | .replied response => ∃ p, used = some p ∧ s.places p ≠ .absent ∧
      AnsweredFor serde requests (s.processes p) e response
  | _ => ∀ p, used = some p → s.places p = .gone

structure PoolOk (serde : SerdeJson) (requests : ι → ProviderRequest Reply)
    (s : ProviderPool ι Reply) : Prop where
  held : ∀ e p, (s.exchanges e).held = some p → s.places p = .leased e
  rested : ∀ p, s.places p = .idle → Rested (s.processes p)
  leased : ∀ p e, s.places p = .leased e → Leased (requests e).document e (s.exchanges e) p (s.processes p)
  ended : ∀ e used outcome, s.exchanges e = .finished used outcome → Ended serde requests s e used outcome
  /-- An exchange sends at most one command. -/
  users : ∀ p e, e ∈ (s.processes p).users → (s.exchanges e).used = some p
  nodup : ∀ p, (s.processes p).users.Nodup

/-! ### What every step keeps -/

structure Keeps (s s' : ProviderPool ι Reply) : Prop where
  grows : ∀ p, s.places p ≠ .absent → (s.processes p).Grows (s'.processes p)
  created : ∀ p, s.places p ≠ .absent → s'.places p ≠ .absent
  gone : ∀ p, s.places p = .gone → s'.places p = .gone

theorem getElem?_of_prefix {α : Type} {xs ys : List α} {k : ℕ} {x : α} (h : xs <+: ys)
    (hx : xs[k]? = some x) :
    ys[k]? = some x := by
  obtain ⟨zs, rfl⟩ := h
  rw [List.getElem?_append_left (List.getElem?_eq_some_iff.mp hx).1]
  exact hx

omit [DecidableEq ι] in
theorem AnsweredFor.grows {process process' : ProviderProcess ι} {response : ProviderResponse Reply}
    (h : AnsweredFor serde requests process e response) (hg : process.Grows process') :
    AnsweredFor serde requests process' e response := by
  obtain ⟨k, line, huser, hcommand, hline, hdecode⟩ := h.answer
  exact ⟨k, line, getElem?_of_prefix hg.users huser, getElem?_of_prefix hg.commands hcommand,
    getElem?_of_prefix hg.lines hline, hdecode⟩

omit [DecidableEq ι] in
theorem Ended.keeps {used : Option ℕ} (hk : Keeps s s') (h : Ended serde requests s e used outcome) :
    Ended serde requests s' e used outcome := by
  cases outcome with
  | replied response =>
    obtain ⟨p, hused, hcreated, hanswer⟩ := h
    exact ⟨p, hused, hk.created p hcreated, hanswer.grows (hk.grows p hcreated)⟩
  | error => exact fun p hused => hk.gone p (h p hused)
  | dropped => exact fun p hused => hk.gone p (h p hused)

/-! ### The steps -/

omit [DecidableEq ι] in
/-- A step of the provider itself. -/
theorem PoolOk.works {process' : ProviderProcess ι} (h : PoolOk serde requests s)
    (hw : Works (s.processes p) process') :
    PoolOk serde requests (s.setProcess p process') := by
  have hcases : ∀ p', (s.setProcess p process').processes p' = s.processes p' ∨
      Works (s.processes p') ((s.setProcess p process').processes p') := by
    intro p'
    by_cases hp : p' = p
    · subst hp
      exact .inr (by simpa [ProviderPool.setProcess] using hw)
    · exact .inl (by simp [ProviderPool.setProcess, hp])
  have husers : ∀ p', ((s.setProcess p process').processes p').users = (s.processes p').users := by
    intro p'
    rcases hcases p' with hsame | hworks
    · rw [hsame]
    · exact hworks.users
  have hkeeps : Keeps s (s.setProcess p process') := by
    refine ⟨fun p' _ => ?_, fun _ hc => hc, fun _ hg => hg⟩
    rcases hcases p' with hsame | hworks
    · rw [hsame]
      exact .refl _
    · exact hworks.grows
  refine ⟨h.held, fun p' hidle => ?_, fun p' e hleased => ?_, fun e used outcome hover => ?_,
    fun p' e he => ?_, fun p' => ?_⟩
  · rcases hcases p' with hsame | hworks
    · rw [hsame]
      exact h.rested p' hidle
    · exact (h.rested p' hidle).works hworks
  · rcases hcases p' with hsame | hworks
    · rw [hsame]
      exact h.leased p' e hleased
    · exact (h.leased p' e hleased).works (newline_not_mem_toVec _) hworks
  · exact (h.ended e used outcome hover).keeps hkeeps
  · exact h.users p' e (husers p' ▸ he)
  · exact husers p' ▸ h.nodup p'

theorem ExchangePhase.used_of_held {phase : ExchangePhase Reply} (h : phase.held = some p) :
    phase.used = some p := by
  cases phase with
  | before => cases h
  | writing => exact h
  | reading => exact h
  | finished => cases h

/-- The exchange `e` and the process `p` move, and nothing else. -/
def ProviderPool.move (s : ProviderPool ι Reply) (e : ι) (p : ℕ) (process : ProviderProcess ι)
    (place : ProcessPlace ι) (phase : ExchangePhase Reply) : ProviderPool ι Reply :=
  ((s.setProcess p process).setPlace p place).setPhase e phase

/-- What a move has to show. -/
structure Moves (serde : SerdeJson) (requests : ι → ProviderRequest Reply) (s : ProviderPool ι Reply)
    (e : ι) (p : ℕ) (process : ProviderProcess ι) (place : ProcessPlace ι)
    (phase : ExchangePhase Reply) : Prop where
  /-- The exchange has had to do with no other process, and no other exchange has this one. -/
  own : ∀ q, (s.exchanges e).used = some q → q = p
  alone : ∀ e', (s.exchanges e').held = some p → e' = e
  held : ∀ q, phase.held = some q → q = p ∧ place = .leased e
  rested : place = .idle → Rested process
  leased : ∀ e', place = .leased e' → e' = e ∧ Leased (requests e).document e phase p process
  ended : ∀ used outcome, phase = .finished used outcome →
    Ended serde requests (s.move e p process place phase) e used outcome
  keeps : Keeps s (s.move e p process place phase)
  users : ∀ e', e' ∈ process.users → e' ∈ (s.processes p).users ∨ e' = e
  used : e ∈ process.users → phase.used = some p
  nodup : process.users.Nodup

theorem PoolOk.move {process : ProviderProcess ι} {place : ProcessPlace ι} {phase : ExchangePhase Reply}
    (h : PoolOk serde requests s) (hm : Moves serde requests s e p process place phase) :
    PoolOk serde requests (s.move e p process place phase) := by
  have hexchange : ∀ e', e' ≠ e → (s.move e p process place phase).exchanges e' = s.exchanges e' :=
    fun e' he => Function.update_of_ne he _ _
  have hself : (s.move e p process place phase).exchanges e = phase := Function.update_self _ _ _
  have hprocess : ∀ q, q ≠ p → (s.move e p process place phase).processes q = s.processes q :=
    fun q hq => Function.update_of_ne hq _ _
  have hprocessSelf : (s.move e p process place phase).processes p = process := Function.update_self _ _ _
  have hplace : ∀ q, q ≠ p → (s.move e p process place phase).places q = s.places q :=
    fun q hq => Function.update_of_ne hq _ _
  have hplaceSelf : (s.move e p process place phase).places p = place := Function.update_self _ _ _
  refine ⟨fun e' q hq => ?_, fun q hidle => ?_, fun q e' hleased => ?_,
    fun e' used outcome hover => ?_, fun q e' he => ?_, fun q => ?_⟩
  · by_cases he : e' = e
    · subst he
      rw [hself] at hq
      obtain ⟨rfl, rfl⟩ := hm.held q hq
      exact hplaceSelf
    · rw [hexchange e' he] at hq
      have hne : q ≠ p := fun hqp => he (hm.alone e' (hqp ▸ hq))
      rw [hplace q hne]
      exact h.held e' q hq
  · by_cases hq : q = p
    · subst hq
      rw [hprocessSelf]
      exact hm.rested (hplaceSelf.symm.trans hidle)
    · rw [hprocess q hq]
      exact h.rested q ((hplace q hq).symm.trans hidle)
  · by_cases hq : q = p
    · subst hq
      obtain ⟨rfl, hl⟩ := hm.leased e' (hplaceSelf.symm.trans hleased)
      rw [hprocessSelf, hself]
      exact hl
    · have hl := h.leased q e' ((hplace q hq).symm.trans hleased)
      have hne : e' ≠ e := by
        rintro rfl
        obtain ⟨rest, response, hphase, -⟩ := hl.stage
        refine hq (hm.own q (ExchangePhase.used_of_held ?_))
        rcases hphase with ⟨hphase, -⟩ | ⟨hphase, -⟩
        · rw [hphase]
          rfl
        · rw [hphase]
          rfl
      rw [hprocess q hq, hexchange e' hne]
      exact hl
  · by_cases he : e' = e
    · subst he
      exact hm.ended used outcome (hself.symm.trans hover)
    · rw [hexchange e' he] at hover
      exact (h.ended e' used outcome hover).keeps hm.keeps
  · by_cases hq : q = p
    · subst hq
      rw [hprocessSelf] at he
      by_cases hee : e' = e
      · subst hee
        rw [hself]
        exact hm.used he
      · rw [hexchange e' hee]
        exact h.users q e' ((hm.users e' he).resolve_right hee)
    · rw [hprocess q hq] at he
      have hused := h.users q e' he
      have hne : e' ≠ e := fun hee => hq (hm.own q (hee ▸ hused))
      rw [hexchange e' hne]
      exact hused
  · by_cases hq : q = p
    · subst hq
      rw [hprocessSelf]
      exact hm.nodup
    · rw [hprocess q hq]
      exact h.nodup q

/-- A move of a process that was created, and is not out of the pool, keeps what was. -/
theorem keeps_move {process : ProviderProcess ι} {place : ProcessPlace ι} {phase : ExchangePhase Reply}
    (hgrows : s.places p ≠ .absent → (s.processes p).Grows process) (hplace : place ≠ .absent)
    (hgone : s.places p ≠ .gone) :
    Keeps s (s.move e p process place phase) := by
  have hother : ∀ q, q ≠ p → (s.move e p process place phase).places q = s.places q :=
    fun q hq => Function.update_of_ne hq _ _
  have hself : (s.move e p process place phase).places p = place := Function.update_self _ _ _
  refine ⟨fun q hq => ?_, fun q hq => ?_, fun q hq => ?_⟩
  · by_cases hqp : q = p
    · subst hqp
      have hprocess : (s.move e q process place phase).processes q = process := Function.update_self _ _ _
      rw [hprocess]
      exact hgrows hq
    · have hprocess : (s.move e p process place phase).processes q = s.processes q :=
        Function.update_of_ne hqp _ _
      rw [hprocess]
      exact .refl _
  · by_cases hqp : q = p
    · subst hqp
      rw [hself]
      exact hplace
    · rw [hother q hqp]
      exact hq
  · by_cases hqp : q = p
    · exact absurd (hqp ▸ hq) hgone
    · rw [hother q hqp]
      exact hq

omit [DecidableEq ι] in
/-- Nobody else holds a process that is leased to `e`. -/
theorem PoolOk.alone (h : PoolOk serde requests s) (hheld : (s.exchanges e).held = some p) :
    ∀ e', (s.exchanges e').held = some p → e' = e := by
  intro e' he'
  have hplace := (h.held e' p he').symm.trans (h.held e p hheld)
  exact ProcessPlace.leased.inj hplace

/-- A step of the exchange that holds the process. -/
theorem PoolOk.moves {process : ProviderProcess ι} {phase : ExchangePhase Reply} (h : PoolOk serde requests s)
    (hheld : (s.exchanges e).held = some p) (husers : process.users = (s.processes p).users)
    (hgrows : (s.processes p).Grows process) (hphase : phase.held = some p)
    (hleased : Leased (requests e).document e phase p process) :
    PoolOk serde requests ((s.setProcess p process).setPhase e phase) := by
  have hplace := h.held e p hheld
  have heq : (s.setProcess p process).setPhase e phase = s.move e p process (.leased e) phase := by
    rw [ProviderPool.move, ProviderPool.setPlace, ← hplace]
    simp [ProviderPool.setProcess]
  rw [heq]
  apply h.move
  refine ⟨fun q hq => ?_, h.alone hheld, fun q hq => ?_, nofun, fun e' he' => ?_,
    fun used outcome hover => ?_, ?_, fun e' he' => ?_,
    fun _ => ExchangePhase.used_of_held hphase, husers ▸ h.nodup p⟩
  · exact Option.some.inj (hq.symm.trans (ExchangePhase.used_of_held hheld))
  · exact ⟨Option.some.inj (hq.symm.trans hphase), rfl⟩
  · exact ⟨(ProcessPlace.leased.inj he').symm, hleased⟩
  · rw [hover] at hphase
    cases hphase
  · exact keeps_move (fun _ => hgrows) nofun (by rw [hplace]; nofun)
  · exact .inl (husers ▸ he')

/-- An exchange that ends without a response takes its process out of the pool. -/
theorem PoolOk.release (h : PoolOk serde requests s) (hheld : (s.exchanges e).held = some p)
    (houtcome : ∀ response, outcome ≠ .replied response) : PoolOk serde requests (s.release e p outcome) := by
  have hplace := h.held e p hheld
  have hbusy := (h.leased p e hplace).busy
  have heq : s.release e p outcome = s.move e p (s.processes p) .gone (.finished (some p) outcome) := by
    simp [ProviderPool.release, ProviderPool.move, ProviderPool.setProcess, ProviderPool.setPlace, hbusy]
  rw [heq]
  apply h.move
  refine ⟨fun q hq => ?_, h.alone hheld, nofun, nofun, nofun, fun used outcome' hover => ?_, ?_,
    fun e' he' => .inl he', fun _ => rfl, h.nodup p⟩
  · exact Option.some.inj (hq.symm.trans (ExchangePhase.used_of_held hheld))
  · obtain ⟨rfl, rfl⟩ := ExchangePhase.finished.inj hover
    have hgone : ∀ q, some p = some q →
        (s.move e p (s.processes p) .gone (.finished (some p) outcome)).places q = .gone := by
      rintro q ⟨⟩
      exact Function.update_self _ _ _
    cases outcome with
    | replied response => exact absurd rfl (houtcome response)
    | error => exact hgone
    | dropped => exact hgone
  · exact keeps_move (fun _ => .refl _) nofun (by rw [hplace]; nofun)

/-- An exchange gets a process that is at rest. -/
theorem PoolOk.start (h : PoolOk serde requests s) (hbefore : s.exchanges e = .before)
    (hplace : s.places p = .idle ∨ s.places p = .absent) (hrested : Rested (s.processes p)) :
    PoolOk serde requests (s.start (requests e).document e p) := by
  have hown : ∀ q, (s.exchanges e).used = some q → q = p := by
    intro q hq
    rw [hbefore] at hq
    cases hq
  have halone : ∀ e', (s.exchanges e').held = some p → e' = e := by
    intro e' he'
    rcases hplace with hplace | hplace
    · cases (h.held e' p he').symm.trans hplace
    · cases (h.held e' p he').symm.trans hplace
  have hgone : s.places p ≠ .gone := by
    rcases hplace with hplace | hplace
    · rw [hplace]
      nofun
    · rw [hplace]
      nofun
  have hfresh : e ∉ (s.processes p).users := by
    intro hmem
    have := h.users p e hmem
    rw [hbefore] at this
    cases this
  unfold ProviderPool.start
  split_ifs with hsize
  · show PoolOk serde requests (s.move e p _ (.leased e) _)
    apply h.move
    refine ⟨hown, halone, fun q hq => ⟨(Option.some.inj hq).symm, rfl⟩, nofun, fun e' he' => ?_,
      nofun, ?_, fun e' he' => ?_, fun _ => rfl, ?_⟩
    · exact ⟨(ProcessPlace.leased.inj he').symm, hrested.start⟩
    · exact keeps_move (fun _ => ⟨List.prefix_append _ _, List.prefix_refl _, List.prefix_refl _⟩) nofun hgone
    · rcases List.mem_append.mp he' with he' | he'
      · exact .inl he'
      · exact .inr (List.mem_singleton.mp he')
    · have hnodup := h.nodup p
      rw [List.nodup_append]
      exact ⟨hnodup, by simp, fun a ha b hb => by cases List.mem_singleton.mp hb; rintro rfl; exact hfresh ha⟩
  · have heq : (s.setPlace p .idle).setPhase e (.finished none (.error (.new "sandbox provider command is too large"))) =
        s.move e p (s.processes p) .idle (.finished none (.error (.new "sandbox provider command is too large"))) := by
      simp [ProviderPool.move, ProviderPool.setProcess]
    rw [heq]
    apply h.move
    refine ⟨hown, halone, nofun, fun _ => hrested, nofun, fun used outcome hover => ?_, ?_,
      fun e' he' => .inl he', fun he => absurd he hfresh, h.nodup p⟩
    · obtain ⟨rfl, rfl⟩ := ExchangePhase.finished.inj hover
      exact nofun
    · exact keeps_move (fun _ => .refl _) nofun hgone

omit [DecidableEq ι] in
/-- A process that was never used may as well be a new one. -/
theorem PoolOk.create (h : PoolOk serde requests s) (hplace : s.places p = .absent) :
    PoolOk serde requests (s.setProcess p .create) := by
  have hother : ∀ q, s.places q ≠ .absent → (s.setProcess p .create).processes q = s.processes q := by
    intro q hq
    have hne : q ≠ p := fun hqp => hq (hqp ▸ hplace)
    exact Function.update_of_ne hne _ _
  have husers : ∀ q, ((s.setProcess p .create).processes q).users <+: (s.processes q).users := by
    intro q
    by_cases hq : q = p
    · subst hq
      simp [ProviderPool.setProcess, ProviderProcess.create]
    · simp [ProviderPool.setProcess, hq]
  refine ⟨h.held, fun q hidle => ?_, fun q e hleased => ?_, fun e used outcome hover => ?_,
    fun q e he => ?_, fun q => ?_⟩
  · rw [hother q (by rw [show s.places q = .idle from hidle]; nofun)]
    exact h.rested q hidle
  · rw [hother q (by rw [show s.places q = .leased e from hleased]; nofun)]
    exact h.leased q e hleased
  · have hkeeps : Keeps s (s.setProcess p .create) := by
      refine ⟨fun q hq => ?_, fun q hq => hq, fun q hq => hq⟩
      rw [hother q hq]
      exact .refl _
    exact (h.ended e used outcome hover).keeps hkeeps
  · exact h.users q e ((husers q).subset he)
  · exact (husers q).sublist.nodup (h.nodup q)

/-- An exchange ends that never had a process. -/
theorem PoolOk.unused (h : PoolOk serde requests s) (hbefore : s.exchanges e = .before)
    (houtcome : ∀ response, outcome ≠ .replied response) :
    PoolOk serde requests (s.setPhase e (.finished none outcome)) := by
  have hexchange : ∀ e', e' ≠ e → (s.setPhase e (.finished none outcome)).exchanges e' = s.exchanges e' :=
    fun e' he => Function.update_of_ne he _ _
  have hself : (s.setPhase e (.finished none outcome)).exchanges e = .finished none outcome :=
    Function.update_self _ _ _
  refine ⟨fun e' q hq => ?_, h.rested, fun q e' hleased => ?_, fun e' used outcome' hover => ?_,
    fun q e' he' => ?_, h.nodup⟩
  · by_cases he : e' = e
    · subst he
      rw [hself] at hq
      cases hq
    · rw [hexchange e' he] at hq
      exact h.held e' q hq
  · have hne : e' ≠ e := by
      rintro rfl
      obtain ⟨rest, response, hphase, -⟩ := (h.leased q e' hleased).stage
      rw [hbefore] at hphase
      rcases hphase with ⟨hphase, -⟩ | ⟨hphase, -⟩ <;> cases hphase
    rw [hexchange e' hne]
    exact h.leased q e' hleased
  · by_cases he : e' = e
    · subst he
      obtain ⟨rfl, rfl⟩ := ExchangePhase.finished.inj (hself.symm.trans hover)
      cases outcome with
      | replied response => exact absurd rfl (houtcome response)
      | error => exact nofun
      | dropped => exact nofun
    · rw [hexchange e' he] at hover
      exact h.ended e' used outcome' hover
  · have hused := h.users q e' he'
    have hne : e' ≠ e := by
      rintro rfl
      rw [hbefore] at hused
      cases hused
    rw [hexchange e' hne]
    exact hused

omit [DecidableEq ι] in
/-- An idle process leaves the pool. -/
theorem PoolOk.discard (h : PoolOk serde requests s) (hplace : s.places p = .idle) :
    PoolOk serde requests (s.setPlace p .gone) := by
  have hother : ∀ q, q ≠ p → (s.setPlace p .gone).places q = s.places q :=
    fun q hq => Function.update_of_ne hq _ _
  have hself : (s.setPlace p .gone).places p = .gone := Function.update_self _ _ _
  refine ⟨fun e q hq => ?_, fun q hidle => ?_, fun q e hleased => ?_, fun e used outcome hover => ?_,
    h.users, h.nodup⟩
  · have hleased := h.held e q hq
    have hne : q ≠ p := by
      rintro rfl
      cases hleased.symm.trans hplace
    rw [hother q hne]
    exact hleased
  · have hne : q ≠ p := by
      rintro rfl
      cases hself.symm.trans hidle
    exact h.rested q ((hother q hne).symm.trans hidle)
  · have hne : q ≠ p := by
      rintro rfl
      cases hself.symm.trans hleased
    exact h.leased q e ((hother q hne).symm.trans hleased)
  · have hkeeps : Keeps s (s.setPlace p .gone) := by
      refine ⟨fun q _ => .refl _, fun q hq => ?_, fun q hq => ?_⟩
      · by_cases hqp : q = p
        · subst hqp
          rw [hself]
          nofun
        · rw [hother q hqp]
          exact hq
      · by_cases hqp : q = p
        · subst hqp
          exact hself
        · rw [hother q hqp]
          exact hq
    exact (h.ended e used outcome hover).keeps hkeeps

/-- The response has been read to its end. -/
theorem PoolOk.settle {response : List UInt8} (h : PoolOk serde requests s)
    (hphase : s.exchanges e = .reading p response) :
    PoolOk serde requests (s.settle serde (requests e) e p response) := by
  have hheld : (s.exchanges e).held = some p := by
    rw [hphase]
    rfl
  unfold ProviderPool.settle
  split
  · exact h.release hheld nofun
  · rename_i hcheck
    split
    · exact h.release hheld nofun
    · rename_i decoded hdecode
      have hplace := h.held e p hheld
      have hleased := h.leased p e hplace
      rw [hphase] at hleased
      obtain ⟨k, line, huser, hcommand, hline, rfl, hrested⟩ := hleased.settle hcheck
      have heq : (s.setProcess p { s.processes p with busy := false }).release e p (.replied decoded) =
          s.move e p { s.processes p with busy := false } .idle (.finished (some p) (.replied decoded)) := by
        simp [ProviderPool.release, ProviderPool.move, ProviderPool.setProcess, ProviderPool.setPlace]
      rw [heq]
      apply h.move
      refine ⟨fun q hq => ?_, h.alone hheld, nofun, fun _ => hrested, nofun, fun used outcome hover => ?_, ?_,
        fun e' he' => .inl he', fun _ => rfl, h.nodup p⟩
      · exact Option.some.inj (hq.symm.trans (ExchangePhase.used_of_held hheld))
      · obtain ⟨rfl, rfl⟩ := ExchangePhase.finished.inj hover
        refine ⟨p, rfl, ?_, ⟨k, line, ?_⟩⟩
        · simp [ProviderPool.move, ProviderPool.setPhase, ProviderPool.setPlace]
        · simp only [ProviderPool.move, ProviderPool.setPhase, ProviderPool.setPlace, ProviderPool.setProcess,
            Function.update_self]
          exact ⟨huser, hcommand, hline, hdecode⟩
      · exact keeps_move (fun _ => ⟨List.prefix_refl _, List.prefix_refl _, List.prefix_refl _⟩) nofun (by rw [hplace]; nofun)

theorem PoolOk.step (h : PoolOk serde requests s) (hs : PoolStep serde requests s event s') :
    PoolOk serde requests s' := by
  cases hs with
  | recycle hbefore hplace => exact h.start hbefore (.inl hplace) (h.rested _ hplace)
  | @create e p hbefore hplace =>
    apply (h.create hplace).start hbefore (.inr hplace)
    simpa [ProviderPool.setProcess] using rested_create
  | unacquired hbefore => exact h.unused hbefore nofun
  | discard hplace => exact h.discard hplace
  | @write e p chunk rest hchunk hphase =>
    have hheld : (s.exchanges e).held = some p := by
      rw [hphase]
      rfl
    have hleased := h.leased p e (h.held e p hheld)
    rw [hphase] at hleased
    apply h.moves hheld
    · rfl
    · exact ⟨List.prefix_refl _, List.prefix_refl _, List.prefix_refl _⟩
    · split_ifs
      · rfl
      · rfl
    · exact hleased.write hchunk
  | writeFails hphase => exact h.release (by rw [hphase]; rfl) nofun
  | @read e p response b bs hphase hmore hstdout =>
    have hheld : (s.exchanges e).held = some p := by
      rw [hphase]
      rfl
    have hleased := h.leased p e (h.held e p hheld)
    rw [hphase] at hleased
    apply h.moves hheld
    · rfl
    · exact ⟨List.prefix_refl _, List.prefix_refl _, List.prefix_refl _⟩
    · rfl
    · exact hleased.read hstdout
  | readFails hphase => exact h.release (by rw [hphase]; rfl) nofun
  | settle hphase => exact h.settle hphase
  | cancel hheld => exact h.release hheld nofun
  | cancelWaiting hbefore => exact h.unused hbefore nofun
  | take _ hstdin hcommand => exact h.works (.take hstdin hcommand)
  | answer _ hlt hfree hline => exact h.works (.answer hlt hfree hline)
  | emit _ hwriting => exact h.works (.emit hwriting)
  | exit => exact h.works .exit

theorem poolOk_reachable (h : (providerPool serde requests).Reachable s) : PoolOk serde requests s := by
  apply h.invariant (I := PoolOk serde requests)
  · intro s hi
    obtain rfl : s = _ := hi
    exact ⟨nofun, nofun, nofun, nofun, by simp [ProviderProcess.create], fun _ => List.nodup_nil⟩
  · intro s event s' hok hs
    exact hok.step hs

/-! ### Runs -/

theorem gone_step (h : PoolOk serde requests s) (hs : PoolStep serde requests s event s')
    (hgone : s.places p = .gone) :
    s'.places p = .gone := by
  have hstart : ∀ (t : ProviderPool ι Reply) (document : List UInt8) (e : ι) (q : ℕ), q ≠ p →
      (t.start document e q).places p = t.places p := by
    intro t document e q hq
    unfold ProviderPool.start
    split_ifs <;> exact Function.update_of_ne (Ne.symm hq) _ _
  have hrelease : ∀ (t : ProviderPool ι Reply) (e : ι) (q : ℕ) (outcome : ExchangeOutcome Reply), q ≠ p →
      (t.release e q outcome).places p =
        t.places p := fun t e q outcome hq => Function.update_of_ne (Ne.symm hq) _ _
  have hheld : ∀ e q, (s.exchanges e).held = some q → q ≠ p := by
    rintro e q hq rfl
    cases (h.held e q hq).symm.trans hgone
  cases hs with
  | recycle _ hplace =>
    rw [hstart _ _ _ _ (by rintro rfl; cases hplace.symm.trans hgone)]
    exact hgone
  | create _ hplace =>
    rw [hstart _ _ _ _ (by rintro rfl; cases hplace.symm.trans hgone)]
    exact hgone
  | unacquired => exact hgone
  | @discard q hplace =>
    have hq : q ≠ p := by
      rintro rfl
      cases hplace.symm.trans hgone
    exact (Function.update_of_ne (Ne.symm hq) _ _).trans hgone
  | write => exact hgone
  | writeFails hphase =>
    rw [hrelease _ _ _ _ (hheld _ _ (by rw [hphase]; rfl))]
    exact hgone
  | read => exact hgone
  | readFails hphase =>
    rw [hrelease _ _ _ _ (hheld _ _ (by rw [hphase]; rfl))]
    exact hgone
  | settle hphase =>
    have hq := hheld _ _ (by rw [hphase]; rfl)
    unfold ProviderPool.settle
    split
    · rw [hrelease _ _ _ _ hq]
      exact hgone
    · split
      · rw [hrelease _ _ _ _ hq]
        exact hgone
      · rw [hrelease _ _ _ _ hq]
        exact hgone
  | cancel hphase =>
    rw [hrelease _ _ _ _ (hheld _ _ hphase)]
    exact hgone
  | cancelWaiting => exact hgone
  | take => exact hgone
  | answer => exact hgone
  | emit => exact hgone
  | exit => exact hgone

theorem gone_path {events : List (PoolEvent ι)} (h : (providerPool serde requests).Reachable s)
    (hp : (providerPool serde requests).Path s events s') (hgone : s.places p = .gone) :
    s'.places p = .gone := by
  induction hp with
  | nil => exact hgone
  | snoc hp hs ih => exact gone_step (poolOk_reachable (h.path hp)) hs ih

/-- If `new` is a phase of reading, one byte was read. -/
def ReadsOn (old new : ExchangePhase Reply) : Prop :=
  ∀ p response, new = .reading p response →
    response = [] ∨ ∃ early b, response = early ++ [b] ∧ old = .reading p early ∧ responseRead early = false

theorem exchanges_step (hs : PoolStep serde requests s event s') : s'.exchanges = s.exchanges ∨
    ∃ e phase, s'.exchanges = Function.update s.exchanges e phase ∧ ReadsOn (s.exchanges e) phase := by
  have hstart : ∀ (t : ProviderPool ι Reply) (document : List UInt8) (e : ι) (p : ℕ),
      ∃ phase, (t.start document e p).exchanges = Function.update t.exchanges e phase ∧
      ReadsOn (t.exchanges e) phase := by
    intro t document e p
    unfold ProviderPool.start
    split_ifs
    · exact ⟨_, rfl, nofun⟩
    · exact ⟨_, rfl, nofun⟩
  cases hs with
  | recycle => exact .inr ⟨_, hstart _ _ _ _⟩
  | create => exact .inr ⟨_, hstart _ _ _ _⟩
  | unacquired => exact .inr ⟨_, _, rfl, nofun⟩
  | discard => exact .inl rfl
  | write =>
    refine .inr ⟨_, _, rfl, fun p response hphase => ?_⟩
    split_ifs at hphase
    exact .inl (ExchangePhase.reading.inj hphase).2.symm
  | writeFails => exact .inr ⟨_, _, rfl, nofun⟩
  | read hphase hmore =>
    refine .inr ⟨_, _, rfl, fun p response heq => ?_⟩
    obtain ⟨rfl, rfl⟩ := ExchangePhase.reading.inj heq
    exact .inr ⟨_, _, rfl, hphase, hmore⟩
  | readFails => exact .inr ⟨_, _, rfl, nofun⟩
  | settle =>
    unfold ProviderPool.settle
    split
    · exact .inr ⟨_, _, rfl, nofun⟩
    · split
      · exact .inr ⟨_, _, rfl, nofun⟩
      · exact .inr ⟨_, _, rfl, nofun⟩
  | cancel => exact .inr ⟨_, _, rfl, nofun⟩
  | cancelWaiting => exact .inr ⟨_, _, rfl, nofun⟩
  | take => exact .inl rfl
  | answer => exact .inl rfl
  | emit => exact .inl rfl
  | exit => exact .inl rfl

/-- An exchange stops reading at the first byte it may stop at. -/
theorem reading_reachable (h : (providerPool serde requests).Reachable s) :
    ∀ e p response, s.exchanges e = .reading p response → ∀ early b, early ++ [b] <+: response →
    responseRead early = false := by
  apply h.invariant (I := fun s => ∀ e p response, s.exchanges e = .reading p response →
    ∀ early b, early ++ [b] <+: response → responseRead early = false)
  · intro s hi
    obtain rfl : s = _ := hi
    exact nofun
  · intro s event s' hok hs e p response hphase early b hearly
    rcases exchanges_step hs with hsame | ⟨e', phase, hupdate, hreads⟩
    · rw [hsame] at hphase
      exact hok e p response hphase early b hearly
    · rw [hupdate] at hphase
      by_cases he : e = e'
      · subst he
        rw [Function.update_self] at hphase
        rcases hreads p response hphase with rfl | ⟨last, c, rfl, hbefore, hmore⟩
        · simp at hearly
        · rcases List.prefix_concat_iff.mp hearly with heq | hearly
          · obtain ⟨rfl, -⟩ := List.append_inj' heq rfl
            exact hmore
          · exact hok e p last hbefore early b hearly
      · rw [Function.update_of_ne he] at hphase
        exact hok e p response hphase early b hearly

theorem readUntilNewline_append {bytes rest : List UInt8} (h : 10 ∉ bytes) (limit : ℕ) :
    readUntilNewline (bytes.length + limit) (bytes ++ rest) =
      (bytes ++ (readUntilNewline limit rest).1, (readUntilNewline limit rest).2) := by
  induction bytes with
  | nil => simp
  | cons b bytes ih =>
    simp only [List.mem_cons, not_or] at h
    simp [readUntilNewline, Ne.symm h.1, ih h.2]

/-- Read byte by byte, a response is what `readResponse` takes from the stream at once. -/
theorem readUntilNewline_read {response rest : List UInt8} (hdone : responseRead response = true ∨ rest = [])
    (hearly : ∀ early b, early ++ [b] <+: response → responseRead early = false) :
    readUntilNewline (maxProviderOutputBytes + 1) (response ++ rest) = (response, rest) := by
  rcases List.eq_nil_or_concat response with rfl | ⟨init, last, rfl⟩
  · obtain rfl := hdone.resolve_left (by simp [responseRead])
    rfl
  rw [List.concat_eq_append] at *
  have hnewline : 10 ∉ init := by
    intro hmem
    -- the bytes up to a newline would have been read to their end
    obtain ⟨x, y, rfl⟩ := List.append_of_mem hmem
    obtain ⟨b, z, hz⟩ : ∃ b z, y ++ [last] = b :: z := by
      cases y with
      | nil => exact ⟨last, [], rfl⟩
      | cons b y => exact ⟨b, y ++ [last], rfl⟩
    have hread := hearly (x ++ [10]) b ⟨z, by simp [hz]⟩
    simp [responseRead] at hread
  have hlength : init.length ≤ maxProviderOutputBytes := by
    by_contra hlong
    have htake : (init ++ [last]).take (maxProviderOutputBytes + 2) <+: init ++ [last] := List.take_prefix _ _
    have hnext : maxProviderOutputBytes + 1 < (init ++ [last]).length := by
      rw [List.length_append, List.length_singleton]
      omega
    rw [List.take_succ_eq_append_getElem hnext] at htake
    have hread := hearly _ _ htake
    have hcount : ((init ++ [last]).take (maxProviderOutputBytes + 1)).length = maxProviderOutputBytes + 1 := by
      rw [List.length_take]
      omega
    simp only [responseRead, hcount, beq_self_eq_true, Bool.or_true] at hread
    cases hread
  by_cases hlast : last = 10
  · subst hlast
    rw [List.append_assoc, List.singleton_append, readUntilNewline_line hnewline (by omega)]
  · have hnone : 10 ∉ init ++ [last] := by simp [hnewline, Ne.symm hlast]
    have hlong : (init ++ [last]).length ≤ maxProviderOutputBytes + 1 := by
      rw [List.length_append, List.length_singleton]
      omega
    obtain ⟨limit, hlimit⟩ := Nat.exists_eq_add_of_le hlong
    have hrest : readUntilNewline limit rest = ([], rest) := by
      rcases hdone with hdone | rfl
      · have hfull : (init ++ [last]).length = maxProviderOutputBytes + 1 := by
          simpa [responseRead, hlast] using hdone
        obtain rfl : limit = 0 := by omega
        cases rest <;> simp [readUntilNewline]
      · rfl
    rw [hlimit, readUntilNewline_append hnone, hrest, List.append_nil]

/-- Once it may stop, what an exchange has read is what `readResponse` takes of the stream. -/
theorem readResponse_reachable (h : (providerPool serde requests).Reachable s) {response : List UInt8}
    (hphase : s.exchanges e = .reading p response)
    (hdone : responseRead response = true ∨ (s.processes p).stdout = []) :
    readResponse (response ++ (s.processes p).stdout) =
      (checkResponse response).map fun _ => (response, (s.processes p).stdout) := by
  rw [readResponse, readUntilNewline_read hdone (reading_reachable h e p response hphase)]
  cases hcheck : checkResponse response <;> simp [hcheck, Except.map, bind, Except.bind, pure, Except.pure]

/-! ### An exchange that is answered -/

/-- What has come can be read byte by byte. -/
theorem reads_path {response bytes rest : List UInt8} (hphase : s.exchanges e = .reading p response)
    (hstdout : (s.processes p).stdout = bytes ++ rest)
    (hmore : ∀ early b, early ++ [b] <+: bytes → responseRead (response ++ early) = false) :
    (providerPool serde requests).Path s (List.replicate bytes.length (.read e))
      ((s.setProcess p { s.processes p with stdout := rest }).setPhase e (.reading p (response ++ bytes))) := by
  induction bytes generalizing s response with
  | nil =>
    rw [List.nil_append] at hstdout
    have hsame : (s.setProcess p { s.processes p with stdout := rest }).setPhase e
        (.reading p (response ++ [])) = s := by
      simp [ProviderPool.setProcess, ProviderPool.setPhase, ← hstdout, ← hphase]
    rw [hsame]
    exact .nil _
  | cons b bytes ih =>
    have hstep : PoolStep serde requests s (.read e)
        ((s.setProcess p { s.processes p with stdout := bytes ++ rest }).setPhase e (.reading p (response ++ [b]))) :=
      .read hphase (by simpa using hmore [] b (by simp)) hstdout
    have hrest := @ih ((s.setProcess p { s.processes p with stdout := bytes ++ rest }).setPhase e
      (.reading p (response ++ [b]))) (response ++ [b]) (by simp [ProviderPool.setPhase])
      (by simp [ProviderPool.setProcess, ProviderPool.setPhase]) (by
        intro early c hearly
        rw [List.append_assoc]
        exact hmore ([b] ++ early) c (by simpa using hearly))
    have hpath := (System.Path.single (S := providerPool serde requests) hstep).trans hrest
    simpa [ProviderPool.setProcess, ProviderPool.setPhase, List.replicate_succ] using hpath

/-- `e` is in `phase`, and `p` is as `process` has it. -/
def ProviderPool.exchanging (s : ProviderPool ι Reply) (e : ι) (p : ℕ) (process : ProviderProcess ι)
    (phase : ExchangePhase Reply) : ProviderPool ι Reply := (s.setProcess p process).setPhase e phase

theorem exchanging_works {process process' : ProviderProcess ι} {phase : ExchangePhase Reply}
    (hs : ∀ t, t.processes p = process → PoolStep serde requests t event (t.setProcess p process')) :
    (providerPool serde requests).Path (s.exchanging e p process phase) [event]
    (s.exchanging e p process' phase) := by
  have hstep := hs (s.exchanging e p process phase)
      (by simp [ProviderPool.exchanging, ProviderPool.setProcess, ProviderPool.setPhase])
  have htarget : (s.exchanging e p process phase).setProcess p process' = s.exchanging e p process' phase := by
    simp [ProviderPool.exchanging, ProviderPool.setProcess, ProviderPool.setPhase]
  rw [htarget] at hstep
  exact .single hstep

/-- Before its newline, a line is not read to its end. -/
theorem not_responseRead {line early : List UInt8} {b : UInt8} (hline : 10 ∉ line)
    (hlength : line.length < maxProviderOutputBytes) (hearly : early ++ [b] <+: line ++ [10]) :
    responseRead early = false := by
  obtain ⟨rest, hrest⟩ := hearly
  have hsplit : early <+: line := by
    have hlonger := congrArg List.length hrest
    simp only [List.length_append, List.length_singleton] at hlonger
    rw [List.append_assoc] at hrest
    exact List.prefix_of_prefix_length_le ⟨_, hrest⟩ (List.prefix_append _ _) (by omega)
  have hnone : early.getLast? ≠ some 10 := fun hlast => hline (hsplit.subset (List.mem_of_getLast? hlast))
  have hshort := hsplit.length_le
  simp only [responseRead, Bool.or_eq_false_iff, beq_eq_false_iff_ne]
  exact ⟨hnone, by omega⟩

theorem checkResponse_line {line : List UInt8} (hlength : line.length < maxProviderOutputBytes) :
    checkResponse (line ++ [10]) = .ok () := by
  simp only [checkResponse, bind_ok, ensure_ok_iff]
  refine ⟨(), ?_, by simp⟩
  rw [List.length_append, List.length_singleton]
  omega

/-- A process takes the document from its input, answers it and writes the answer out. -/
theorem serves_path {users : List ι} {commands lines : List (List UInt8)} {line : List UInt8}
    {phase : ExchangePhase Reply} (hlines : lines.length = commands.length) (hline : 10 ∉ line) :
    (providerPool serde requests).Path
      (s.exchanging e p ⟨true, false, (requests e).document ++ [10], [], [], users, commands, lines⟩ phase)
      [.take p, .answer p, .emit p]
      (s.exchanging e p ⟨true, false, [], line ++ [10], [], users, commands ++ [(requests e).document],
        lines ++ [line]⟩ phase) := by
  have htake : (providerPool serde requests).Path
      (s.exchanging e p ⟨true, false, (requests e).document ++ [10], [], [], users, commands, lines⟩ phase) [.take p]
      (s.exchanging e p ⟨true, false, [], [], [], users, commands ++ [(requests e).document], lines⟩ phase) := by
    apply exchanging_works
    intro t ht
    have hstep := @PoolStep.take _ _ _ serde requests t p (requests e).document [] (by rw [ht]) (by rw [ht])
      (newline_not_mem_toVec _)
    rwa [ht] at hstep
  have hanswer : (providerPool serde requests).Path
      (s.exchanging e p ⟨true, false, [], [], [], users, commands ++ [(requests e).document], lines⟩ phase) [.answer p]
      (s.exchanging e p ⟨true, false, [], [], line ++ [10], users, commands ++ [(requests e).document],
        lines ++ [line]⟩ phase) := by
    apply exchanging_works
    intro t ht
    have hstep := @PoolStep.answer _ _ _ serde requests t p line (by rw [ht]) (by rw [ht]; simp [hlines])
      (by rw [ht]) hline
    rwa [ht] at hstep
  refine (htake.trans hanswer).trans ?_
  apply exchanging_works
  intro t ht
  have hstep := @PoolStep.emit _ _ _ serde requests t p (line ++ [10]) [] (by rw [ht]) (by rw [ht]; simp)
  rwa [ht] at hstep

/-- A process that has nothing to do may answer the command that is written to it with any line. -/
theorem answered_path {users : List ι} {commands lines : List (List UInt8)} {line : List UInt8}
    {response : ProviderResponse Reply} (hphase : s.exchanges e = .writing p ((requests e).document ++ [10]))
    (hprocess : s.processes p = ⟨true, false, [], [], [], users, commands, lines⟩)
    (hlines : lines.length = commands.length)
    (hline : 10 ∉ line) (hlength : line.length < maxProviderOutputBytes)
    (hdecode : (requests e).decode serde (line ++ [10]) = some response) :
    ∃ events, (providerPool serde requests).Path s events
      (((s.setProcess p ⟨false, false, [], [], [], users, commands ++ [(requests e).document], lines ++ [line]⟩).setPlace p
        .idle).setPhase e (.finished (some p) (.replied response))) := by
  have hwrite := @PoolStep.write _ _ _ serde requests s e p ((requests e).document ++ [10]) [] (by simp)
    (by simpa using hphase)
  rw [hprocess] at hwrite
  have hserves := @serves_path _ _ _ serde requests s e p users commands lines line (.reading p []) hlines hline
  generalize hanswered : s.exchanging e p ⟨true, false, [], line ++ [10], [], users,
    commands ++ [(requests e).document], lines ++ [line]⟩ (.reading p []) = answered at hserves
  have hprocess' : answered.processes p =
      ⟨true, false, [], line ++ [10], [], users, commands ++ [(requests e).document], lines ++ [line]⟩ := by
    simp [← hanswered, ProviderPool.exchanging, ProviderPool.setProcess, ProviderPool.setPhase]
  have hread := @reads_path _ _ _ serde requests answered e p [] (line ++ [10]) []
    (by simp [← hanswered, ProviderPool.exchanging, ProviderPool.setPhase]) (by simp [hprocess'])
    (fun _ _ => not_responseRead hline hlength)
  have hsettle := @PoolStep.settle _ _ _ serde requests
    ((answered.setProcess p { answered.processes p with stdout := [] }).setPhase e (.reading p (line ++ [10]))) e p
    (line ++ [10]) (by simp [ProviderPool.setPhase]) (.inl (by simp [responseRead]))
  have hlast : PoolStep serde requests
      ((answered.setProcess p { answered.processes p with stdout := [] }).setPhase e (.reading p ([] ++ (line ++ [10]))))
      (.settle e)
      (((s.setProcess p ⟨false, false, [], [], [], users, commands ++ [(requests e).document], lines ++ [line]⟩).setPlace
        p .idle).setPhase e (.finished (some p) (.replied response))) := by
    rw [hprocess', ← hanswered] at hsettle ⊢
    simpa [ProviderPool.settle, checkResponse_line hlength, hdecode, ProviderPool.release, ProviderPool.exchanging,
      ProviderPool.setProcess, ProviderPool.setPhase, ProviderPool.setPlace] using hsettle
  exact ⟨_, (((System.Path.single (S := providerPool serde requests) hwrite).trans hserves).trans hread).snoc hlast⟩

end Pool

/-! ### Sizes -/

theorem lines_cons (d : List Char) (documents : List (List Char)) :
    lines (d :: documents) = d ++ '\n' :: lines documents := by simp [lines]

/-- What a reader has of a stream of small documents is small. -/
theorem small_of_prefix {documents : List (List Char)} {text : List Char} {bound : ℕ}
    (hdocuments : ∀ d ∈ documents, '\n' ∉ d ∧ byteLength d ≤ bound) (h : text <+: lines documents) :
    (∀ d ∈ (takeDocuments text).1, byteLength d ≤ bound) ∧ byteLength (takeDocuments text).2 ≤ bound := by
  obtain ⟨taken, rest, rfl, htaken, hrest⟩ := exists_lines text
  rw [takeDocuments_lines _ htaken, takeDocuments_of_not_mem hrest, List.append_nil]
  induction taken generalizing documents with
  | nil =>
    refine ⟨nofun, ?_⟩
    obtain ⟨more, hmore⟩ := h
    change rest ++ more = lines documents at hmore
    cases documents with
    | nil =>
      obtain ⟨rfl, -⟩ := List.append_eq_nil_iff.mp hmore
      exact Nat.zero_le _
    | cons d documents =>
      rw [lines_cons] at hmore
      rcases List.append_eq_append_iff.mp hmore with ⟨left, rfl, -⟩ | ⟨left, rfl, hleft⟩
      · have hsmall := (hdocuments (rest ++ left) (by simp)).2
        rw [byteLength_append] at hsmall
        show byteLength rest ≤ bound
        omega
      · cases left with
        | nil => simpa using (hdocuments d (by simp)).2
        | cons c left =>
          obtain ⟨rfl, -⟩ := List.cons.inj hleft
          simp at hrest
  | cons x taken ih =>
    obtain ⟨more, hmore⟩ := h
    rw [lines_cons, List.append_assoc, List.append_assoc, List.cons_append] at hmore
    cases documents with
    | nil => simp [lines] at hmore
    | cons d documents =>
      rw [lines_cons] at hmore
      obtain ⟨rfl, hlater⟩ := split_newline (htaken x (by simp)) (hdocuments d (by simp)).1 hmore
      have hsmaller : ∀ d ∈ documents, '\n' ∉ d ∧ byteLength d ≤ bound :=
        fun d hd => hdocuments d (List.mem_cons_of_mem _ hd)
      obtain ⟨hsmall, hlast⟩ := ih hsmaller ⟨more, by rw [List.append_assoc]; exact hlater⟩
        fun d hd => htaken d (List.mem_cons_of_mem _ hd)
      refine ⟨fun d hd => ?_, hlast⟩
      rcases List.mem_cons.mp hd with rfl | hd
      · exact (hdocuments d (by simp)).2
      · exact hsmall d hd

/-- The bytes `bs` have come, and everything in them was small. -/
structure CommandReader.Accepted (bs : List UInt8) (s : CommandReader) : Prop where
  decoder : s.decoder = (Decoder.idle.feed bs).1
  yielded : s.yielded = (takeDocuments (decode bs)).1
  buffer : s.buffer = (takeDocuments (decode bs)).2
  going : s.failed = false

theorem CommandReader.Accepted.receive {bs c : List UInt8} {s : CommandReader} (h : s.Accepted bs)
    (hsmall : ∀ d ∈ (takeDocuments (decode (bs ++ c))).1, byteLength d ≤ maxCommandBytes)
    (hlast : byteLength (takeDocuments (decode (bs ++ c))).2 ≤ maxCommandBytes) :
    (s.receive c).Accepted (bs ++ c) := by
  have htext := decode_append bs c
  have hdecoder : ((Decoder.idle.feed bs).1.feed c).1 = (Decoder.idle.feed (bs ++ c)).1 := by
    rw [Decoder.feed_append]
  unfold CommandReader.receive
  simp only [h.going, h.decoder, Bool.false_eq_true, if_false]
  split_ifs with hempty
  · rw [hempty, List.append_nil] at htext
    exact ⟨hdecoder, by rw [htext]; exact h.yielded, by rw [htext]; exact h.buffer, rfl⟩
  · have htaken := takeDocuments_append (decode bs) ((Decoder.idle.feed bs).1.feed c).2
    rw [← htext] at htaken
    rw [htaken] at hsmall hlast
    have hall : ∀ d ∈ (takeDocuments ((takeDocuments (decode bs)).2 ++ ((Decoder.idle.feed bs).1.feed c).2)).1,
        checkSize d = true := by
      intro d hd
      simpa [checkSize] using hsmall d (List.mem_append_right _ hd)
    have hrest : checkSize (takeDocuments ((takeDocuments (decode bs)).2 ++ ((Decoder.idle.feed bs).1.feed c).2)).2 = true := by
      simpa [checkSize] using hlast
    simp only [CommandReader.accept, h.buffer, h.yielded]
    refine ⟨hdecoder, ?_, by rw [htaken], ?_⟩
    · rw [htaken, List.takeWhile_eq_self_iff.mpr hall]
    · rw [List.all_eq_true.mpr hall, hrest]
      rfl

/-- However the bytes arrive, a reader yields documents that are small enough, all of them and no others. -/
theorem receiveAll_lines {documents : List (List Char)} {chunks : List (List UInt8)}
    (hdocuments : ∀ d ∈ documents, '\n' ∉ d ∧ byteLength d ≤ maxCommandBytes)
    (hchunks : chunks.flatten = utf8Bytes (lines documents)) :
    CommandReader.receiveAll chunks = ⟨.idle, [], documents, false⟩ := by
  have hearly : ∀ before after, chunks = before ++ after →
      (CommandReader.receiveAll before).Accepted before.flatten := by
    intro before
    induction before using List.reverseRecOn with
    | nil =>
      intro after _
      exact ⟨rfl, (congrArg Prod.fst takeDocuments_nil).symm, (congrArg Prod.snd takeDocuments_nil).symm, rfl⟩
    | append_singleton before c ih =>
      intro after hsplit
      have hreceive : CommandReader.receiveAll (before ++ [c]) =
          (CommandReader.receiveAll before).receive c := by
        simp [CommandReader.receiveAll]
      have hflatten : (before ++ [c]).flatten = before.flatten ++ c := by simp
      have htext : decode (before.flatten ++ c) <+: lines documents := by
        have hdecoded : decode chunks.flatten = lines documents := by rw [hchunks, decode, feed_utf8Bytes]
        rw [hsplit, List.flatten_append, hflatten, decode_append] at hdecoded
        exact ⟨_, hdecoded⟩
      obtain ⟨hsmall, hlast⟩ := small_of_prefix hdocuments htext
      rw [hreceive, hflatten]
      exact (ih (c :: after) (by rw [hsplit]; simp)).receive hsmall hlast
  have haccepted := hearly chunks [] (by simp)
  have htext : decode chunks.flatten = lines documents := by rw [hchunks, decode, feed_utf8Bytes]
  have htaken : takeDocuments (lines documents) = (documents, []) := by
    have := takeDocuments_lines [] fun d hd => (hdocuments d hd).1
    rwa [takeDocuments_nil, List.append_nil, List.append_nil] at this
  have hdecoder := haccepted.decoder
  rw [hchunks, feed_utf8Bytes] at hdecoder
  have hyielded := haccepted.yielded
  have hbuffer := haccepted.buffer
  rw [htext, htaken] at hyielded hbuffer
  have hgoing := haccepted.going
  generalize CommandReader.receiveAll chunks = s at hdecoder hyielded hbuffer hgoing
  obtain ⟨decoder, buffer, yielded, failed⟩ := s
  simp only at hdecoder hyielded hbuffer hgoing
  subst hdecoder hyielded hbuffer hgoing
  rfl

/-- A line that the provider writes is read as the response, and no more than it. -/
theorem readResponse_write {reply : ProviderReply} {response : List UInt8} (h : reply.write = some response)
    (rest : List UInt8) : readResponse (response ++ rest) = .ok (response, rest) := by
  unfold ProviderReply.write at h
  simp only at h
  split_ifs at h with hsize
  obtain rfl := Option.some.inj h
  have hnewline : 10 ∉ utf8Bytes (jsWriter.print reply.toJs) :=
    newline_not_mem_utf8Bytes (newline_not_mem_print newline_not_mem_quoteUnits _)
  have hbytes : utf8Bytes (jsWriter.print reply.toJs ++ ['\n']) =
      utf8Bytes (jsWriter.print reply.toJs) ++ [10] := by
    simp [utf8Bytes]
    rfl
  have hlength := length_utf8Bytes (jsWriter.print reply.toJs)
  have hmax : maxCommandBytes = maxProviderOutputBytes := rfl
  rw [hbytes, readResponse, List.append_assoc, List.singleton_append, readUntilNewline_line hnewline (by omega)]
  have hcheck : checkResponse (utf8Bytes (jsWriter.print reply.toJs) ++ [10]) = .ok () := by
    simp only [checkResponse, bind_ok, ensure_ok_iff]
    refine ⟨(), ?_, by simp⟩
    rw [List.length_append, List.length_singleton]
    omega
  simp [hcheck, bind, Except.bind, pure, Except.pure]

/-- What the host makes of a written reply: a success that has a result which it can read as one of the type
it asked for, or a failure whose text it can read. -/
def ProviderReply.received {Reply : Type} (serde : SerdeJson) (reply : Value → Option Reply) :
    ProviderReply → Option (ProviderResponse Reply)
  | .success none => none
  | .success (some result) =>
    ((Json.readBack jsWriter serde.toReader (serde.maxDepth - 1) result.tree).bind reply).map .success
  | .failure error => (hostString error).map .failure

theorem fromSlice_printLine (serde : SerdeJson) (document : JsTree) :
    fromSlice serde (utf8Bytes (jsWriter.print document ++ ['\n'])).toByteArray =
      Json.readBack jsWriter serde.toReader serde.maxDepth document := by
  rw [toByteArray_utf8Bytes, fromSlice, fromUTF8?_toUTF8]
  simp only [String.toList_ofList]
  exact read_print jsWriter serde.toReader document ['\n'] rfl

theorem decode_write {Reply : Type} {serde : SerdeJson} (hdepth : 1 ≤ serde.maxDepth) {reply : ProviderReply}
    {response : List UInt8} (h : reply.write = some response) (request : ProviderRequest Reply) :
    request.decode serde response = reply.received serde request.reply := by
  unfold ProviderReply.write at h
  simp only at h
  split_ifs at h with hsize
  obtain rfl := Option.some.inj h
  obtain ⟨d, hd⟩ := Nat.exists_eq_add_of_le' hdepth
  have hsuccess : hostString (ascii "success") = some "success" :=
    hostString_some.mpr (sameString_ascii (by decide))
  have hfailure : hostString (ascii "failure") = some "failure" :=
    hostString_some.mpr (sameString_ascii (by decide))
  rw [ProviderRequest.decode, fromSlice_printLine, hd]
  cases reply with
  | success result =>
    cases result with
    | none =>
      have hjs : (ProviderReply.success none).toJs =
          .obj ([("status", Json.str (ascii "success"))].map fun f => (ascii f.1, f.2)) := rfl
      rw [hjs, Json.readBack, readBackFields_tagged d (by simp only [List.forall_mem_singleton]; decide)]
      simp [readBack_units, hsuccess, ProviderResponse.ofJson, LDO.field, asString, ProviderReply.received]
    | some v =>
      have hjs : (ProviderReply.success (some v)).toJs =
          .obj ([("status", Json.str (ascii "success")), ("result", v.tree)].map fun f => (ascii f.1, f.2)) := rfl
      rw [hjs, Json.readBack, readBackFields_tagged d (by simp only [List.forall_mem_cons]; decide)]
      cases hread : Json.readBack jsWriter serde.toReader d v.tree with
      | none => simp [readBack_units, hsuccess, hread, hd, ProviderReply.received]
      | some value =>
        cases hreply : request.reply value <;>
          simp [readBack_units, hsuccess, hread, hreply, hd, ProviderResponse.ofJson, LDO.field, asString,
            ProviderReply.received]
  | failure error =>
    have hjs : (ProviderReply.failure error).toJs =
        .obj ([("status", Json.str (ascii "failure")), ("error", .str error)].map fun f => (ascii f.1, f.2)) := rfl
    rw [hjs, Json.readBack, readBackFields_tagged d (by simp only [List.forall_mem_cons]; decide)]
    cases herror : hostString error with
    | none => simp [readBack_units, hfailure, herror, ProviderReply.received]
    | some message =>
      simp [readBack_units, hfailure, herror, ProviderResponse.ofJson, LDO.field, asString,
        ProviderReply.received]

/-- A response is the answer to the command of the exchange it goes to, a process whose exchange came to
no response is never used again, and both sides take what the other sends. Byte by byte, the pool reads
what `readResponse` takes, and it decodes what the provider replied. -/
theorem provider_pool {ι Reply : Type} [DecidableEq ι] (serde : SerdeJson)
    (requests : ι → ProviderRequest Reply) :
    (∀ s, (providerPool serde requests).Reachable s → ∀ e used response, s.exchanges e = .finished used (.replied response) →
      ∃ p, used = some p ∧ AnsweredFor serde requests (s.processes p) e response ∧ (s.processes p).users.Nodup ∧
        ∀ q, e ∈ (s.processes q).users → q = p) ∧
    (∀ s events s', (providerPool serde requests).Reachable s → (providerPool serde requests).Path s events s' →
      ∀ e p outcome, s.exchanges e = .finished (some p) outcome → (∀ response, outcome ≠ .replied response) →
        s'.places p = .gone ∧ ∀ e', (s'.exchanges e').held ≠ some p) ∧
    (∀ (sent : List (ProviderRequest Reply)) (chunks : List (List UInt8)),
      (∀ request ∈ sent, request.document.length ≤ maxProviderOutputBytes) →
      chunks.flatten = sent.flatMap (fun request => request.document ++ [10]) →
        CommandReader.receiveAll chunks =
          ⟨.idle, [], sent.map fun request => serdeWriter.print request.command, false⟩) ∧
    (∀ (reply : ProviderReply) (response : List UInt8), reply.write = some response →
      (∀ rest, readResponse (response ++ rest) = .ok (response, rest)) ∧
      (1 ≤ serde.maxDepth → ∀ request : ProviderRequest Reply,
        request.decode serde response = reply.received serde request.reply)) ∧
    ∀ s, (providerPool serde requests).Reachable s → ∀ e p response, s.exchanges e = .reading p response →
      (responseRead response = true ∨ (s.processes p).stdout = []) →
        readResponse (response ++ (s.processes p).stdout) =
          (checkResponse response).map fun _ => (response, (s.processes p).stdout) := by
  refine ⟨fun s h e used response hover => ?_, fun s events s' h hp e p outcome hover houtcome => ?_,
    fun sent chunks hsize hchunks => ?_,
    fun reply response h => ⟨readResponse_write h, fun hdepth request => decode_write hdepth h request⟩,
    fun s h e p response hphase hdone => readResponse_reachable h hphase hdone⟩
  · have hok := poolOk_reachable h
    obtain ⟨p, rfl, -, hanswer⟩ := hok.ended e used _ hover
    refine ⟨p, rfl, hanswer, hok.nodup p, fun q hq => ?_⟩
    have hused := hok.users q e hq
    rw [hover] at hused
    exact (Option.some.inj hused).symm
  · have hended := (poolOk_reachable h).ended e _ _ hover
    have hgone : s.places p = .gone := by
      cases outcome with
      | replied response => exact absurd rfl (houtcome response)
      | error => exact hended p rfl
      | dropped => exact hended p rfl
    have hgone' := gone_path h hp hgone
    refine ⟨hgone', fun e' he' => ?_⟩
    cases ((poolOk_reachable (h.path hp)).held e' p he').symm.trans hgone'
  · apply receiveAll_lines
    · intro d hd
      obtain ⟨request, hrequest, rfl⟩ := List.mem_map.mp hd
      refine ⟨newline_not_mem_print (fun t => newline_not_mem_quoteChars t.toList) _, ?_⟩
      rw [← length_utf8Bytes, ← toVec_toList]
      exact hsize request hrequest
    · rw [hchunks]
      simp only [ProviderRequest.document, toVec_toList, lines, utf8Bytes, List.flatMap_map,
        List.flatMap_assoc, List.flatMap_append]
      rfl

/-! ### Two exchanges on one process -/

section TwoExchanges

/-- Two commands, and replies of any type. -/
def eitherRequest (second : Bool) : ProviderRequest Value := ⟨.bool second, some⟩

/-- Two exchanges and the process `0`. -/
def twoExchanges (first second : ExchangePhase Value) (process : ProviderProcess Bool)
    (place : ProcessPlace Bool) :
    ProviderPool Bool Value where
  exchanges e := if e then second else first
  processes := Function.update (fun _ => .create) 0 process
  places := Function.update (fun _ => .absent) 0 place

variable {first second phase : ExchangePhase Value} {process process' : ProviderProcess Bool} {place place' : ProcessPlace Bool}

@[simp] theorem twoExchanges_processes : (twoExchanges first second process place).processes 0 = process := by
  simp [twoExchanges]

@[simp] theorem twoExchanges_places : (twoExchanges first second process place).places 0 = place := by
  simp [twoExchanges]

@[simp] theorem twoExchanges_exchanges (e : Bool) : (twoExchanges first second process place).exchanges e =
    if e then second else first := rfl

@[simp] theorem twoExchanges_setProcess : (twoExchanges first second process place).setProcess 0 process' =
    twoExchanges first second process' place := by
  simp [twoExchanges, ProviderPool.setProcess]

@[simp] theorem twoExchanges_setPlace : (twoExchanges first second process place).setPlace 0 place' =
    twoExchanges first second process place' := by
  simp [twoExchanges, ProviderPool.setPlace]

@[simp] theorem twoExchanges_setPhase (e : Bool) :
    (twoExchanges first second process place).setPhase e phase =
    if e then twoExchanges first phase process place else twoExchanges phase second process place := by
  have hexchanges : Function.update (twoExchanges first second process place).exchanges e phase =
      fun e' => if e' = e then phase else if e' then second else first := by
    funext e'
    simp [Function.update_apply, twoExchanges]
  rw [ProviderPool.setPhase, hexchanges]
  cases e <;> simp [twoExchanges] <;> funext e' <;> cases e' <;> rfl

def busyReply : ProviderReply := .failure (ascii "busy")

def busyLine : List UInt8 := utf8Bytes "\x7b\"status\":\"failure\",\"error\":\"busy\"\x7d".toList

theorem busyReply_write : busyReply.write = some (busyLine ++ [10]) := by decide +kernel

theorem eitherRequest_small (e : Bool) : (eitherRequest e).document.length ≤ maxProviderOutputBytes := by
  revert e
  decide +kernel

def answeredProcess : ProviderProcess Bool :=
  ⟨false, false, [], [], [], [false], [(eitherRequest false).document], [busyLine]⟩

/-- The first exchange starts the process and is answered. -/
theorem first_answered (hresponse : (eitherRequest false).decode literalSerde (busyLine ++ [10]) = some (.failure "busy")) :
    ∃ events, (providerPool literalSerde eitherRequest).Run events
      (twoExchanges (.finished (some 0) (.replied (.failure "busy"))) .before answeredProcess .idle) := by
  have hcreate := @PoolStep.create _ _ _ literalSerde eitherRequest
      (twoExchanges .before .before .create .absent) false 0 rfl
    (by simp)
  rw [ProviderPool.start, if_pos (eitherRequest_small false)] at hcreate
  simp only [twoExchanges_processes, twoExchanges_setProcess, twoExchanges_setPlace,
    twoExchanges_setPhase, Bool.false_eq_true, if_false] at hcreate
  obtain ⟨events, hpath⟩ := @answered_path _ _ _ literalSerde eitherRequest (twoExchanges _ .before _ (.leased false)) false 0
    [false] [] [] busyLine _ rfl twoExchanges_processes rfl (by decide +kernel) (by decide +kernel) hresponse
  have hinitial : twoExchanges .before .before .create .absent =
      ⟨fun _ => .before, fun _ => .create, fun _ => .absent⟩ := by
    simp [twoExchanges]
  simp only [twoExchanges_setProcess, twoExchanges_setPlace, twoExchanges_setPhase,
    Bool.false_eq_true, if_false, List.nil_append] at hpath
  exact ⟨_, _, hinitial, (System.Path.single hcreate).trans hpath⟩

theorem second_writes : PoolStep literalSerde eitherRequest
    (twoExchanges first (.writing 0 ((eitherRequest true).document ++ [10])) process place) (.write true)
    (twoExchanges first (.reading 0 [])
      { process with stdin := process.stdin ++ ((eitherRequest true).document ++ [10]) } place) := by
  have hstep := @PoolStep.write _ _ _ literalSerde eitherRequest
    (twoExchanges first (.writing 0 ((eitherRequest true).document ++ [10])) process place) true 0
    ((eitherRequest true).document ++ [10]) [] (by simp) (by simp)
  simpa using hstep

theorem second_cancels {response : List UInt8} : PoolStep literalSerde eitherRequest
    (twoExchanges first (.reading 0 response) process place) (.cancel true)
    (twoExchanges first (.finished (some 0) .dropped) process (if process.busy then .gone else .idle)) := by
  have hstep := @PoolStep.cancel _ _ _ literalSerde eitherRequest
    (twoExchanges first (.reading 0 response) process place) true 0 rfl
  simpa [ProviderPool.release] using hstep

/-- The second exchange gets the process of the first, writes its command and is cancelled. -/
theorem second_cancelled : ∃ events, (providerPool literalSerde eitherRequest).Path
    (twoExchanges (.finished (some 0) (.replied (.failure "busy"))) .before answeredProcess .idle) events
    (twoExchanges (.finished (some 0) (.replied (.failure "busy"))) (.finished (some 0) .dropped)
      { answeredProcess with
        busy := true, stdin := (eitherRequest true).document ++ [10],
          users := answeredProcess.users ++ [true] } .gone) := by
  have hrecycle := @PoolStep.recycle _ _ _ literalSerde eitherRequest
    (twoExchanges (.finished (some 0) (.replied (.failure "busy"))) .before answeredProcess .idle) true 0 rfl (by simp)
    (by simp [answeredProcess]) (by simp [answeredProcess])
  rw [ProviderPool.start, if_pos (eitherRequest_small true)] at hrecycle
  simp only [twoExchanges_processes, twoExchanges_setProcess, twoExchanges_setPlace,
    twoExchanges_setPhase, if_true] at hrecycle
  exact ⟨_, ((System.Path.single hrecycle).snoc second_writes).snoc second_cancels⟩

theorem provider_pool_interrupted : ∃ events s, (providerPool literalSerde eitherRequest).Run events s ∧
    s.exchanges false = .finished (some 0) (.replied (.failure "busy")) ∧
    s.exchanges true = .finished (some 0) .dropped ∧ (s.processes 0).users = [false, true] ∧
    AnsweredFor literalSerde eitherRequest (s.processes 0) false (.failure "busy") ∧
    s.places 0 = .gone ∧ (∀ e, (s.exchanges e).held ≠ some 0) ∧
    readResponse (busyLine ++ [10]) = .ok (busyLine ++ [10], []) := by
  obtain ⟨hanswers, hgone, -, hreplies, -⟩ := provider_pool literalSerde eitherRequest
  obtain ⟨hread, hdecode⟩ := hreplies busyReply _ busyReply_write
  have hresponse : (eitherRequest false).decode literalSerde (busyLine ++ [10]) = some (.failure "busy") := by
    have hbusy : hostString (ascii "busy") = some "busy" := hostString_some.mpr (sameString_ascii (by decide))
    rw [hdecode (by decide), busyReply, ProviderReply.received, hbusy]
    rfl
  obtain ⟨events, hfirst⟩ := first_answered hresponse
  obtain ⟨events', hsecond⟩ := second_cancelled
  obtain ⟨s₀, hinit, hpath⟩ := hfirst
  have hrun : (providerPool literalSerde eitherRequest).Run (events ++ events') _ :=
    ⟨s₀, hinit, hpath.trans hsecond⟩
  have hreachable : (providerPool literalSerde eitherRequest).Reachable _ := ⟨_, hrun⟩
  obtain ⟨p, hp, hanswer, -, -⟩ := hanswers _ hreachable false (some 0) _ rfl
  obtain rfl := Option.some.inj hp
  obtain ⟨hplace, hheld⟩ := hgone _ _ _ hreachable (.nil _) true 0 .dropped rfl (by simp)
  refine ⟨_, _, hrun, rfl, rfl, by simp [answeredProcess], hanswer, hplace, hheld, ?_⟩
  simpa using hread []

end TwoExchanges

end LDO
