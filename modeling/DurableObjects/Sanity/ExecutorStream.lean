import DurableObjects.Sanity.ProviderProcess
import DurableObjects.Spec.ExecutorStream

/-! What is on the stream to the customer's process while no exchange stops inside its frame:
complete frames, and the beginning of the frame of the exchange that holds the writer. A number is
one exchange's, its command is written once, and until it is answered somebody is filed under
it. -/

namespace LDO

open Json

variable {ι Reply : Type} [DecidableEq ι] {parser : CommandParser} {envelopes : ι → Value}
  {s s' : ExecutorStream ι Reply} {event : StreamEvent ι Reply} {e e' : ι} {m n : ℕ}

/-! ### Numbers -/

/-- The number of each exchange. -/
def numbers (s : ExecutorStream ι Reply) : ι → Option ℕ := fun e => (s.exchanges e).messageId

structure Numbered (s : ExecutorStream ι Reply) : Prop where
  fresh : ∀ e m, numbers s e = some m → m < s.nextMessageId
  own : ∀ e e' m, numbers s e = some m → numbers s e' = some m → e' = e

theorem numbers_update {phase : SendPhase Reply} (h : s'.exchanges = Function.update s.exchanges e phase)
    (hphase : phase.messageId = numbers s e) : numbers s' = numbers s := by
  funext e'
  by_cases he : e' = e
  · subst he
    simp [numbers, h, hphase]
  · simp [numbers, h, he]

theorem numbers_step (hs : StreamStep parser envelopes s event s') :
    numbers s' = numbers s ∧ s'.nextMessageId = s.nextMessageId ∨
    ∃ e, s.exchanges e = .before ∧ numbers s' = Function.update (numbers s) e (some s.nextMessageId) ∧
      s'.nextMessageId = s.nextMessageId + 1 := by
  cases hs with
  | @begin e hbefore =>
    refine .inr ⟨e, hbefore, ?_, rfl⟩
    funext e'
    by_cases he : e' = e
    · subst he
      simp [numbers, ExecutorStream.begin, ExecutorStream.setPhase, SendPhase.messageId]
    · simp [numbers, ExecutorStream.begin, ExecutorStream.setPhase, he]
  | acquire hphase =>
    left
    unfold ExecutorStream.acquire
    simp only
    split_ifs
    · exact ⟨numbers_update rfl (by rw [numbers, hphase]; rfl), rfl⟩
    · exact ⟨numbers_update rfl (by rw [numbers, hphase]; rfl), rfl⟩
  | write _ _ hphase =>
    left
    unfold ExecutorStream.write
    simp only
    split_ifs
    · exact ⟨numbers_update rfl (by rw [numbers, hphase]; rfl), rfl⟩
    · exact ⟨numbers_update rfl (by rw [numbers, hphase]; rfl), rfl⟩
  | writeFails _ hphase => exact .inl ⟨numbers_update rfl (by rw [numbers, hphase]; rfl), rfl⟩
  | breaks => exact .inl ⟨rfl, rfl⟩
  | receive hphase => exact .inl ⟨numbers_update rfl (by rw [numbers, hphase]; rfl), rfl⟩
  | orphaned hphase => exact .inl ⟨numbers_update rfl (by rw [numbers, hphase]; rfl), rfl⟩
  | dropWaiting hphase => exact .inl ⟨numbers_update rfl (by rw [numbers, hphase]; rfl), rfl⟩
  | dropWriting hphase => exact .inl ⟨numbers_update rfl (by rw [numbers, hphase]; rfl), rfl⟩
  | dropAwaiting hphase => exact .inl ⟨numbers_update rfl (by rw [numbers, hphase]; rfl), rfl⟩
  | readCommand => exact .inl ⟨rfl, rfl⟩
  | answer => exact .inl ⟨rfl, rfl⟩
  | deliver =>
    left
    unfold ExecutorStream.deliver
    split_ifs
    · exact ⟨rfl, rfl⟩
    · exact ⟨rfl, rfl⟩
  | readerEnds => exact .inl ⟨rfl, rfl⟩
  | shutDown => exact .inl ⟨rfl, rfl⟩
  | clear => exact .inl ⟨rfl, rfl⟩
  | abort => exact .inl ⟨rfl, rfl⟩

theorem Numbered.step (h : Numbered s) (hs : StreamStep parser envelopes s event s') : Numbered s' := by
  rcases numbers_step hs with ⟨hnumbers, hnext⟩ | ⟨e, hbefore, hnumbers, hnext⟩
  · exact ⟨by rw [hnumbers, hnext]; exact h.fresh, by rw [hnumbers]; exact h.own⟩
  · refine ⟨fun e' m hm => ?_, fun e₁ e₂ m h₁ h₂ => ?_⟩
    · rw [hnumbers] at hm
      rw [hnext]
      by_cases he : e' = e
      · subst he
        rw [Function.update_self] at hm
        cases hm
        omega
      · rw [Function.update_of_ne he] at hm
        have := h.fresh e' m hm
        omega
    · rw [hnumbers] at h₁ h₂
      -- the next number is nobody's yet
      have hnew : ∀ e', numbers s e' ≠ some s.nextMessageId := by
        intro e' he'
        have := h.fresh e' _ he'
        omega
      by_cases he₁ : e₁ = e
      · subst he₁
        rw [Function.update_self] at h₁
        by_cases he₂ : e₂ = e₁
        · exact he₂
        · rw [Function.update_of_ne he₂] at h₂
          cases h₁
          exact absurd h₂ (hnew e₂)
      · rw [Function.update_of_ne he₁] at h₁
        by_cases he₂ : e₂ = e
        · subst he₂
          rw [Function.update_self] at h₂
          cases h₂
          exact absurd h₁ (hnew e₁)
        · rw [Function.update_of_ne he₂] at h₂
          exact h.own e₁ e₂ m h₁ h₂

/-! ### The stream -/

/-- The exchange with this number is past its writing. -/
def SendPhase.Past : SendPhase Reply → ℕ → Prop
  | .before, _ => False
  | .waiting _, _ => False
  | .writing _ _, _ => False
  | .awaiting m, n => m = n
  | .finished m _, n => m = n

def frames (envelopes : ι → Value) (done : List (ι × ℕ)) : List UInt8 :=
  done.flatMap fun d => commandFrame d.2 (envelopes d.1)

structure Written (envelopes : ι → Value) (s : ExecutorStream ι Reply) (done : List (ι × ℕ)) : Prop where
  holder : ∀ e m rest, s.exchanges e = .writing m rest → s.writer = some e
  held : ∀ e, s.writer = some e → ∃ m sent rest, s.exchanges e = .writing m rest ∧ rest ≠ [] ∧
    sent ++ rest = commandFrame m (envelopes e) ∧ s.written = frames envelopes done ++ sent
  free : s.writer = none → s.written = frames envelopes done
  sent : ∀ d ∈ done, (s.exchanges d.1).Past d.2

/-- No exchange stops inside its frame. -/
def StopsBetween (envelopes : ι → Value) (s : ExecutorStream ι Reply) (event : StreamEvent ι Reply)
    (_ : ExecutorStream ι Reply) : Prop :=
  ∀ e m rest, event = .drop e ∨ event = .writeFails e → s.exchanges e = .writing m rest →
    rest = commandFrame m (envelopes e)

omit [DecidableEq ι] in
theorem Written.same {done : List (ι × ℕ)} (h : Written envelopes s done)
    (hexchanges : s'.exchanges = s.exchanges) (hwriter : s'.writer = s.writer)
    (hwritten : s'.written = s.written) : Written envelopes s' done := by
  refine ⟨?_, ?_, ?_, ?_⟩
  · rw [hexchanges, hwriter]
    exact h.holder
  · rw [hexchanges, hwriter, hwritten]
    exact h.held
  · rw [hwriter, hwritten]
    exact h.free
  · rw [hexchanges]
    exact h.sent

/-- An exchange moves that does not hold the writer. -/
theorem Written.moves {done : List (ι × ℕ)} {phase : SendPhase Reply} (h : Written envelopes s done)
    (hexchanges : s'.exchanges = Function.update s.exchanges e phase) (hwriter : s'.writer = s.writer)
    (hwritten : s'.written = s.written) (hold : ∀ m rest, s.exchanges e ≠ .writing m rest)
    (hnew : ∀ m rest, phase ≠ .writing m rest) (hsent : ∀ m, (s.exchanges e).Past m → phase.Past m) :
    Written envelopes s' done := by
  refine ⟨fun e' m rest hphase => ?_, fun e' he' => ?_, ?_, fun d hd => ?_⟩
  · rw [hexchanges] at hphase
    by_cases he : e' = e
    · subst he
      rw [Function.update_self] at hphase
      exact absurd hphase (hnew m rest)
    · rw [Function.update_of_ne he] at hphase
      rw [hwriter]
      exact h.holder e' m rest hphase
  · rw [hwriter] at he'
    obtain ⟨m, sent, rest, hphase, hrest⟩ := h.held e' he'
    have he : e' ≠ e := by
      rintro rfl
      exact hold m rest hphase
    rw [hexchanges, hwritten, Function.update_of_ne he]
    exact ⟨m, sent, rest, hphase, hrest⟩
  · rw [hwriter, hwritten]
    exact h.free
  · rw [hexchanges]
    by_cases he : d.1 = e
    · rw [he, Function.update_self]
      exact hsent d.2 (he ▸ h.sent d hd)
    · rw [Function.update_of_ne he]
      exact h.sent d hd

/-- The holder of the writer gives it back, and all that is on the stream is in frames. -/
theorem Written.unlocks {done done' : List (ι × ℕ)} {phase : SendPhase Reply} {rest : List UInt8}
    (h : Written envelopes s done) (hphase : s.exchanges e = .writing m rest)
    (hexchanges : s'.exchanges = Function.update s.exchanges e phase) (hwriter : s'.writer = none)
    (hwritten : s'.written = frames envelopes done') (hnew : ∀ m rest, phase ≠ .writing m rest)
    (hdone : ∀ d ∈ done', d ∈ done ∨ d = (e, m) ∧ phase.Past m) : Written envelopes s' done' := by
  refine ⟨fun e' m' rest' hphase' => ?_, fun e' he' => ?_, fun _ => hwritten, fun d hd => ?_⟩
  · rw [hexchanges] at hphase'
    by_cases he : e' = e
    · subst he
      rw [Function.update_self] at hphase'
      exact absurd hphase' (hnew m' rest')
    · rw [Function.update_of_ne he] at hphase'
      have hholder := (h.holder e' m' rest' hphase').symm.trans (h.holder e m rest hphase)
      exact absurd (Option.some.inj hholder) he
  · cases hwriter.symm.trans he'
  · rw [hexchanges]
    rcases hdone d hd with hd | ⟨rfl, hsent⟩
    · have he : d.1 ≠ e := by
        rintro rfl
        have hsent := h.sent d hd
        rw [hphase] at hsent
        exact hsent
      rw [Function.update_of_ne he]
      exact h.sent d hd
    · rw [Function.update_self]
      exact hsent

/-- The writer goes to `e`, or stays with it, with `rest` still to write. -/
theorem Written.writes {done : List (ι × ℕ)} {sent rest : List UInt8} (h : Written envelopes s done)
    (hexchanges : s'.exchanges = Function.update s.exchanges e (.writing m rest)) (hwriter : s'.writer = some e)
    (halone : ∀ e', s.writer = some e' → e' = e) (hrest : rest ≠ [])
    (hframe : sent ++ rest = commandFrame m (envelopes e))
    (hwritten : s'.written = frames envelopes done ++ sent) (hunsent : ∀ m, ¬ (s.exchanges e).Past m) :
    Written envelopes s' done := by
  refine ⟨fun e' m' rest' hphase => ?_, fun e' he' => ?_, fun hfree => ?_, fun d hd => ?_⟩
  · rw [hexchanges] at hphase
    by_cases he : e' = e
    · rw [he]
      exact hwriter
    · rw [Function.update_of_ne he] at hphase
      exact absurd (halone e' (h.holder e' m' rest' hphase)) he
  · obtain rfl : e' = e := Option.some.inj (he'.symm.trans hwriter)
    exact ⟨m, sent, rest, by rw [hexchanges, Function.update_self], hrest, hframe, hwritten⟩
  · cases hwriter.symm.trans hfree
  · have he : d.1 ≠ e := by
      rintro rfl
      exact hunsent d.2 (h.sent d hd)
    rw [hexchanges, Function.update_of_ne he]
    exact h.sent d hd

theorem commandFrame_ne_nil (m : ℕ) (envelope : Value) : commandFrame m envelope ≠ [] :=
  by simp [commandFrame]

omit [DecidableEq ι] in
theorem Written.untouched {done : List (ι × ℕ)} (h : Written envelopes s done)
    (hphase : s.exchanges e = .writing m (commandFrame m (envelopes e))) :
    s.writer = some e ∧ s.written = frames envelopes done := by
  have hholder := h.holder e m _ hphase
  obtain ⟨m', sent, rest, hphase', -, hframe, hwritten⟩ := h.held e hholder
  obtain ⟨rfl, rfl⟩ := SendPhase.writing.inj (hphase'.symm.trans hphase)
  obtain rfl := List.append_left_eq_self.mp hframe
  exact ⟨hholder, hwritten.trans (List.append_nil _)⟩

/-- What a step adds to the frames on the stream. -/
def Adds (s s' : ExecutorStream ι Reply) (done done' : List (ι × ℕ)) : Prop :=
  done' = done ∨ ∃ e m rest, s.exchanges e = .writing m rest ∧ s' = s.write e m rest [] ∧
    done' = done ++ [(e, m)]

theorem Written.step {done : List (ι × ℕ)} (h : Written envelopes s done)
    (hs : StreamStep parser envelopes s event s') (hstops : StopsBetween envelopes s event s') :
    ∃ done', Adds s s' done done' ∧ Written envelopes s' done' := by
  cases hs with
  | @begin e hbefore =>
    refine ⟨done, .inl rfl, h.moves (e := e) rfl rfl rfl ?_ nofun ?_⟩
    · rw [hbefore]
      exact nofun
    · rw [hbefore]
      exact fun _ => False.elim
  | @acquire e m hphase hfree =>
    refine ⟨done, .inl rfl, ?_⟩
    have hunsent : ∀ n, ¬ (s.exchanges e).Past n := by
      rw [hphase]
      exact fun _ => id
    unfold ExecutorStream.acquire
    simp only
    split_ifs
    · refine h.moves (e := e) rfl rfl rfl ?_ nofun fun n hn => absurd hn (hunsent n)
      rw [hphase]
      exact nofun
    · have hframe : [] ++ commandFrame m (envelopes e) = commandFrame m (envelopes e) := rfl
      refine h.writes rfl rfl ?_ (commandFrame_ne_nil _ _) hframe ?_ hunsent
      · rw [hfree]
        exact nofun
      · exact (h.free hfree).trans (List.append_nil _).symm
  | @write e m chunk rest hopen hchunk hphase =>
    have hholder := h.holder e m _ hphase
    obtain ⟨m', sent, rest', hphase', hrest', hframe, hwritten⟩ := h.held e hholder
    obtain ⟨rfl, rfl⟩ := SendPhase.writing.inj (hphase'.symm.trans hphase)
    by_cases hrest : rest = []
    · subst hrest
      rw [List.append_nil] at hphase
      refine ⟨done ++ [(e, m')], .inr ⟨e, m', _, hphase, rfl, rfl⟩, ?_⟩
      unfold ExecutorStream.write
      simp only [if_true]
      refine h.unlocks hphase rfl ?_ ?_ nofun ?_
      · simp [ExecutorStream.unlock, ExecutorStream.setPhase, hholder]
      · show s.written ++ chunk = _
        rw [List.append_nil] at hframe
        simp [frames, hwritten, ← hframe]
      · intro d hd
        rcases List.mem_append.mp hd with hd | hd
        · exact .inl hd
        · exact .inr ⟨List.mem_singleton.mp hd, rfl⟩
    · rw [← List.append_assoc] at hframe
      unfold ExecutorStream.write
      simp only [hrest, if_false]
      refine ⟨done, .inl rfl, h.writes rfl hholder ?_ hrest hframe ?_ ?_⟩
      · intro e' he'
        exact Option.some.inj (he'.symm.trans hholder)
      · show s.written ++ chunk = _
        rw [hwritten, List.append_assoc]
      · rw [hphase]
        exact fun _ => id
  | @writeFails e m rest hbroken hphase =>
    obtain rfl := hstops e m rest (.inr rfl) hphase
    obtain ⟨hholder, hwritten⟩ := h.untouched hphase
    refine ⟨done, .inl rfl, h.unlocks hphase rfl ?_ hwritten nofun fun d hd => .inl hd⟩
    simp [ExecutorStream.removePending, ExecutorStream.unlock, ExecutorStream.setPhase, hholder]
  | breaks => exact ⟨done, .inl rfl, h.same rfl rfl rfl⟩
  | receive hphase =>
    refine ⟨done, .inl rfl, h.moves rfl rfl rfl ?_ nofun ?_⟩
    · rw [hphase]
      exact nofun
    · rw [hphase]
      exact fun _ => id
  | orphaned hphase =>
    refine ⟨done, .inl rfl, h.moves rfl rfl rfl ?_ nofun ?_⟩
    · rw [hphase]
      exact nofun
    · rw [hphase]
      exact fun _ => id
  | dropWaiting hphase =>
    refine ⟨done, .inl rfl, h.moves rfl rfl rfl ?_ nofun ?_⟩
    · rw [hphase]
      exact nofun
    · rw [hphase]
      exact fun _ => False.elim
  | @dropWriting e m rest hphase =>
    obtain rfl := hstops e m rest (.inl rfl) hphase
    obtain ⟨hholder, hwritten⟩ := h.untouched hphase
    refine ⟨done, .inl rfl, h.unlocks hphase rfl ?_ hwritten nofun fun d hd => .inl hd⟩
    simp [ExecutorStream.unlock, ExecutorStream.setPhase, hholder]
  | dropAwaiting hphase =>
    refine ⟨done, .inl rfl, h.moves rfl rfl rfl ?_ nofun ?_⟩
    · rw [hphase]
      exact nofun
    · rw [hphase]
      exact fun _ => id
  | readCommand => exact ⟨done, .inl rfl, h.same rfl rfl rfl⟩
  | answer => exact ⟨done, .inl rfl, h.same rfl rfl rfl⟩
  | deliver =>
    unfold ExecutorStream.deliver
    split_ifs
    · exact ⟨done, .inl rfl, h.same rfl rfl rfl⟩
    · exact ⟨done, .inl rfl, h.same rfl rfl rfl⟩
  | readerEnds => exact ⟨done, .inl rfl, h.same rfl rfl rfl⟩
  | shutDown => exact ⟨done, .inl rfl, h.same rfl rfl rfl⟩
  | clear => exact ⟨done, .inl rfl, h.same rfl rfl rfl⟩
  | abort => exact ⟨done, .inl rfl, h.same rfl rfl rfl⟩

/-! ### Lines -/

theorem newline_not_mem_commandDocument (m : ℕ) (envelope : Value) : 10 ∉ commandDocument m envelope :=
  newline_not_mem_toVec _

theorem completeLines_nil {sent : List UInt8} (h : 10 ∉ sent) : completeLines sent = [] := by
  rw [completeLines, List.splitOn_eq_singleton h]
  rfl

theorem completeLines_cons {document rest : List UInt8} (h : 10 ∉ document) :
    completeLines (document ++ 10 :: rest) = document :: completeLines rest := by
  rw [completeLines, List.splitOn_append_cons_self_of_not_mem h,
    List.dropLast_cons_of_ne_nil (List.splitOn_ne_nil _ _)]
  rfl

omit [DecidableEq ι] in
theorem completeLines_frames {sent : List UInt8} (done : List (ι × ℕ)) (h : 10 ∉ sent) :
    completeLines (frames envelopes done ++ sent) = done.map fun d => commandDocument d.2 (envelopes d.1) := by
  induction done with
  | nil => exact completeLines_nil h
  | cons d done ih =>
    have hsplit : frames envelopes (d :: done) ++ sent =
        commandDocument d.2 (envelopes d.1) ++ 10 ::
          (frames envelopes done ++ sent) := by simp [frames, commandFrame]
    rw [hsplit, completeLines_cons (newline_not_mem_commandDocument _ _), ih]
    rfl

/-- A frame that is not complete has no newline yet. -/
theorem newline_not_mem_sent {sent rest : List UInt8} {envelope : Value} (hrest : rest ≠ [])
    (h : sent ++ rest = commandFrame m envelope) : 10 ∉ sent := by
  intro hmem
  obtain ⟨init, last, rfl⟩ := List.eq_nil_or_concat rest |>.resolve_left hrest
  rw [List.concat_eq_append, ← List.append_assoc] at h
  obtain ⟨hdocument, -⟩ := List.append_inj' h rfl
  exact newline_not_mem_commandDocument m envelope (hdocument ▸ List.mem_append_left _ hmem)

omit [DecidableEq ι] in
theorem Written.lines {done : List (ι × ℕ)} (h : Written envelopes s done) :
    completeLines s.written = done.map fun d => commandDocument d.2 (envelopes d.1) := by
  cases hwriter : s.writer with
  | none =>
    rw [h.free hwriter, ← List.append_nil (frames envelopes done)]
    exact completeLines_frames done (by simp)
  | some e =>
    obtain ⟨m, sent, rest, -, hrest, hframe, hwritten⟩ := h.held e hwriter
    rw [hwritten]
    exact completeLines_frames done (newline_not_mem_sent hrest hframe)

/-! ### Commands and replies -/

/-- The commands on the stream that the process has still to read, or to answer. -/
def unanswered (s : ExecutorStream ι Reply) (done : List (ι × ℕ)) : List ℕ :=
  (done.drop s.linesRead).map Prod.snd ++ s.owed

structure Ledger (s : ExecutorStream ι Reply) (done : List (ι × ℕ)) : Prop where
  read : s.linesRead ≤ done.length
  /-- Every command is unanswered, or was answered once. -/
  accounts : (unanswered s done ++ s.answers.map Prod.fst).Perm (done.map Prod.snd)
  distinct : (done.map Prod.snd).Nodup
  inbox : s.inbox.Sublist s.answers

omit [DecidableEq ι] in
theorem Ledger.same {done : List (ι × ℕ)} (h : Ledger s done) (hread : s'.linesRead = s.linesRead)
    (howed : s'.owed = s.owed) (hanswers : s'.answers = s.answers)
    (hinbox : s'.inbox.Sublist s.inbox) : Ledger s' done := by
  refine ⟨by rw [hread]; exact h.read, ?_, h.distinct, ?_⟩
  · rw [unanswered, hread, howed, hanswers]
    exact h.accounts
  · rw [hanswers]
    exact hinbox.trans h.inbox

omit [DecidableEq ι] in
/-- The command of an exchange that is writing is not among those on the stream. -/
theorem Written.unwritten {done : List (ι × ℕ)} (h : Written envelopes s done) (hnumbered : Numbered s)
    (hnumber : numbers s e = some m) (hpast : ¬ (s.exchanges e).Past m) : m ∉ done.map Prod.snd := by
  intro hmem
  obtain ⟨d, hd, rfl⟩ := List.mem_map.mp hmem
  have hsent := h.sent d hd
  have hown : numbers s d.1 = some d.2 := by
    rw [numbers]
    generalize s.exchanges d.1 = phase at hsent
    cases phase with
    | before => cases hsent
    | waiting => cases hsent
    | writing => cases hsent
    | awaiting => exact congrArg some hsent
    | finished => exact congrArg some hsent
  obtain rfl := hnumbered.own d.1 e d.2 hown hnumber
  exact hpast hsent

theorem Ledger.step {done done' : List (ι × ℕ)} (h : Ledger s done) (hnumbered : Numbered s)
    (hwritten : Written envelopes s done) (hs : StreamStep parser envelopes s event s')
    (hadds : Adds s s' done done') : Ledger s' done' := by
  rcases hadds with rfl | ⟨e, m, rest, hphase, rfl, rfl⟩
  · cases hs with
    | begin => exact h.same rfl rfl rfl (List.Sublist.refl _)
    | acquire =>
      unfold ExecutorStream.acquire
      simp only
      split_ifs
      · exact h.same rfl rfl rfl (List.Sublist.refl _)
      · exact h.same rfl rfl rfl (List.Sublist.refl _)
    | write =>
      unfold ExecutorStream.write
      simp only
      split_ifs
      · exact h.same rfl rfl rfl (List.Sublist.refl _)
      · exact h.same rfl rfl rfl (List.Sublist.refl _)
    | writeFails => exact h.same rfl rfl rfl (List.Sublist.refl _)
    | breaks => exact h.same rfl rfl rfl (List.Sublist.refl _)
    | receive => exact h.same rfl rfl rfl (List.Sublist.refl _)
    | orphaned => exact h.same rfl rfl rfl (List.Sublist.refl _)
    | dropWaiting => exact h.same rfl rfl rfl (List.Sublist.refl _)
    | dropWriting => exact h.same rfl rfl rfl (List.Sublist.refl _)
    | dropAwaiting => exact h.same rfl rfl rfl (List.Sublist.refl _)
    | @readCommand line m hline hparse =>
      rw [hwritten.lines, List.getElem?_map, Option.map_eq_some_iff] at hline
      obtain ⟨d, hd, rfl⟩ := hline
      obtain rfl := parser.reads hparse
      obtain ⟨hlt, rfl⟩ := List.getElem?_eq_some_iff.mp hd
      refine ⟨hlt, ?_, h.distinct, h.inbox⟩
      -- the number goes from the unread lines to the debts
      refine List.Perm.trans ?_ h.accounts
      rw [unanswered, unanswered, List.drop_eq_getElem_cons hlt]
      apply List.Perm.append_right
      rw [← List.append_assoc, List.map_cons, List.cons_append]
      exact List.perm_append_singleton _ _
    | @answer m reply howed =>
      refine ⟨h.read, ?_, h.distinct, h.inbox.append (List.Sublist.refl _)⟩
      refine List.Perm.trans ?_ h.accounts
      have hdebt := (List.perm_cons_erase howed).symm
      rw [unanswered, unanswered, List.map_append, ← List.append_assoc]
      refine (List.perm_append_singleton _ _).trans ?_
      rw [← List.cons_append]
      apply List.Perm.append_right
      exact List.perm_middle.symm.trans (hdebt.append_left _)
    | deliver _ hinbox =>
      unfold ExecutorStream.deliver
      split_ifs
      · exact h.same rfl rfl rfl (by rw [hinbox]; exact List.sublist_cons_self _ _)
      · exact h.same rfl rfl rfl (by rw [hinbox]; exact List.sublist_cons_self _ _)
    | readerEnds => exact h.same rfl rfl rfl (List.Sublist.refl _)
    | shutDown => exact h.same rfl rfl rfl (List.Sublist.refl _)
    | clear => exact h.same rfl rfl rfl (List.Sublist.refl _)
    | abort => exact h.same rfl rfl rfl (List.Sublist.refl _)
  · have hnew : m ∉ done.map Prod.snd := by
      apply hwritten.unwritten hnumbered
      · rw [numbers, hphase]
        rfl
      · rw [hphase]
        exact id
    have hfields : Ledger (s.write e m rest []) done := by
      unfold ExecutorStream.write
      exact h.same rfl rfl rfl (List.Sublist.refl _)
    refine ⟨?_, ?_, ?_, hfields.inbox⟩
    · have := hfields.read
      rw [List.length_append]
      omega
    · rw [unanswered, List.drop_append_of_le_length hfields.read, List.map_append, List.map_append]
      refine List.Perm.trans ?_ (hfields.accounts.append_right _)
      rw [unanswered, List.perm_iff_count]
      intro n
      simp only [List.count_append]
      omega
    · rw [List.map_append, List.nodup_append]
      refine ⟨h.distinct, by simp, fun a ha b hb => ?_⟩
      obtain rfl : b = m := by simpa using hb
      rintro rfl
      exact hnew ha

/-! ### Who is filed -/

/-- A reply to this number may still come. -/
def Due (s : ExecutorStream ι Reply) (done : List (ι × ℕ)) (m : ℕ) : Prop :=
  (∃ e, numbers s e = some m ∧ ¬ (s.exchanges e).Past m) ∨ m ∈ unanswered s done ∨ m ∈ s.inbox.map Prod.fst

/-- The stream is in use. -/
def Open (s : ExecutorStream ι Reply) : Prop := s.reader = none ∧ s.closing ≠ .cleared

structure Filing (s : ExecutorStream ι Reply) (done : List (ι × ℕ)) : Prop where
  due : Open s → ∀ m, Due s done m → s.pending m = true
  unknown : ∀ m, s.reader = some (.unknownMessage m) → s.closing = .cleared
  delivered : ∀ m reply, s.delivered m = some reply → (m, reply) ∈ s.answers
  replied : ∀ e m reply, s.exchanges e = .finished m (.replied reply) → (m, reply) ∈ s.answers

section Due

variable {done : List (ι × ℕ)}

omit [DecidableEq ι]

theorem Ledger.once (h : Ledger s done) : (unanswered s done ++ s.answers.map Prod.fst).Nodup :=
  h.accounts.nodup_iff.mpr h.distinct

theorem Ledger.inboxed (h : Ledger s done) (hm : m ∈ s.inbox.map Prod.fst) : m ∈ s.answers.map Prod.fst :=
  (h.inbox.map Prod.fst).subset hm

/-- What the process has to answer, or has answered, is on the stream. -/
theorem Ledger.known (h : Ledger s done) (hm : m ∈ unanswered s done ∨ m ∈ s.inbox.map Prod.fst) :
    m ∈ done.map Prod.snd := by
  rw [← h.accounts.mem_iff, List.mem_append]
  exact hm.imp_right h.inboxed

theorem Due.mono {done' : List (ι × ℕ)} (h : Due s' done' m)
    (hunsent : ∀ e, numbers s' e = some m → ¬ (s'.exchanges e).Past m → numbers s e = some m ∧ ¬ (s.exchanges e).Past m)
    (hunanswered : m ∈ unanswered s' done' → m ∈ unanswered s done ∨ ∃ e, numbers s e = some m ∧ ¬ (s.exchanges e).Past m)
    (hinbox : m ∈ s'.inbox.map Prod.fst → m ∈ s.inbox.map Prod.fst) : Due s done m := by
  rcases h with ⟨e, hnumber, hpast⟩ | h | h
  · exact .inl ⟨e, hunsent e hnumber hpast⟩
  · exact (hunanswered h).elim (fun h => .inr (.inl h)) .inl
  · exact .inr (.inr (hinbox h))

end Due

/-- An exchange that goes on with its number. -/
theorem unsent_update {phase : SendPhase Reply}
    (hexchanges : s'.exchanges = Function.update s.exchanges e phase)
    (hnumber : phase.messageId = numbers s e) (hpast : (s.exchanges e).Past m → phase.Past m) (e' : ι)
    (h : numbers s' e' = some m) (hp : ¬ (s'.exchanges e').Past m) :
    numbers s e' = some m ∧ ¬ (s.exchanges e').Past m := by
  rw [numbers_update hexchanges hnumber] at h
  refine ⟨h, ?_⟩
  rw [hexchanges] at hp
  by_cases he : e' = e
  · subst he
    rw [Function.update_self] at hp
    exact fun hold => hp (hpast hold)
  · rw [Function.update_of_ne he] at hp
    exact hp

/-- The exchange ends, and the entry under its number is removed: nobody else needs it. -/
theorem due_ne {done : List (ι × ℕ)} {phase : SendPhase Reply} (hnumbered : Numbered s)
    (hwritten : Written envelopes s done) (hledger : Ledger s done) (hnumber : numbers s e = some n)
    (hunsent : ¬ (s.exchanges e).Past n)
    (hexchanges : s'.exchanges = Function.update s.exchanges e phase)
    (hphase : phase.messageId = some n) (hpast : phase.Past n) (hread : s'.linesRead = s.linesRead)
    (howed : s'.owed = s.owed) (hinbox : s'.inbox = s.inbox) (h : Due s' done m) :
    Due s done m ∧ m ≠ n := by
  have hnew := hwritten.unwritten hnumbered hnumber hunsent
  have hsame : numbers s' = numbers s := numbers_update hexchanges (hphase.trans hnumber.symm)
  refine ⟨?_, ?_⟩
  · refine h.mono (fun e' hm hp => ?_) (fun hm => .inl ?_) fun hm => hinbox ▸ hm
    · rw [hsame] at hm
      refine ⟨hm, fun hold => hp ?_⟩
      rw [hexchanges]
      by_cases he : e' = e
      · subst he
        rw [Function.update_self]
        obtain rfl : m = n := Option.some.inj (hm.symm.trans hnumber)
        exact hpast
      · rw [Function.update_of_ne he]
        exact hold
    · rwa [unanswered, hread, howed] at hm
  · rintro rfl
    rcases h with ⟨e', hm, hp⟩ | hm | hm
    · rw [hsame] at hm
      obtain rfl := hnumbered.own e e' m hnumber hm
      rw [hexchanges, Function.update_self] at hp
      exact hp hpast
    · rw [unanswered, hread, howed] at hm
      exact hnew (hledger.known (.inl hm))
    · rw [hinbox] at hm
      exact hnew (hledger.known (.inr hm))

omit [DecidableEq ι] in
/-- A step that leaves the map, the replies and the reader alone. -/
theorem Filing.moves {done done' : List (ι × ℕ)} (h : Filing s done) (hpending : s'.pending = s.pending)
    (hdelivered : s'.delivered = s.delivered) (hanswers : ∀ a ∈ s.answers, a ∈ s'.answers)
    (hreader : s'.reader = s.reader)
    (hclosing : s'.closing = s.closing) (hdue : ∀ m, Due s' done' m → Due s done m)
    (hreplied : ∀ e m reply, s'.exchanges e = .finished m (.replied reply) →
      s.exchanges e = .finished m (.replied reply) ∨ s.delivered m = some reply) : Filing s' done' := by
  refine ⟨fun hopen m hm => ?_, ?_, fun m reply hm => ?_, fun e m reply he => hanswers _ ?_⟩
  · rw [hpending]
    apply h.due
    · exact ⟨hreader ▸ hopen.1, hclosing ▸ hopen.2⟩
    · exact hdue m hm
  · rw [hreader, hclosing]
    exact h.unknown
  · rw [hdelivered] at hm
    exact hanswers _ (h.delivered m reply hm)
  · rcases hreplied e m reply he with hold | hold
    · exact h.replied e m reply hold
    · exact h.delivered m reply hold

/-- What an exchange ends with that is given a phase other than a reply. -/
theorem replied_update {phase : SendPhase Reply}
    (hexchanges : s'.exchanges = Function.update s.exchanges e phase)
    (hphase : ∀ m reply, phase = .finished m (.replied reply) → s.delivered m = some reply) (e' : ι)
    (m : ℕ) (reply : Reply) (h : s'.exchanges e' = .finished m (.replied reply)) :
    s.exchanges e' = .finished m (.replied reply) ∨ s.delivered m = some reply := by
  rw [hexchanges] at h
  by_cases he : e' = e
  · subst he
    rw [Function.update_self] at h
    exact .inr (hphase m reply h)
  · rw [Function.update_of_ne he] at h
    exact .inl h

/-- A step of one exchange that leaves everything but its phase alone. -/
theorem Filing.goes {done : List (ι × ℕ)} {phase : SendPhase Reply} (h : Filing s done)
    (hexchanges : s'.exchanges = Function.update s.exchanges e phase) (hpending : s'.pending = s.pending)
    (hdelivered : s'.delivered = s.delivered) (hanswers : s'.answers = s.answers)
    (hreader : s'.reader = s.reader)
    (hclosing : s'.closing = s.closing) (hread : s'.linesRead = s.linesRead) (howed : s'.owed = s.owed)
    (hinbox : s'.inbox = s.inbox) (hnumber : phase.messageId = numbers s e)
    (hpast : ∀ m, (s.exchanges e).Past m → phase.Past m)
    (hphase : ∀ m reply, phase = .finished m (.replied reply) → s.delivered m = some reply) :
    Filing s' done := by
  apply h.moves hpending hdelivered (fun a ha => hanswers ▸ ha) hreader hclosing
  · intro m hm
    refine hm.mono (unsent_update hexchanges hnumber (hpast m)) (fun hm => .inl ?_) fun hm => hinbox ▸ hm
    rwa [unanswered, hread, howed] at hm
  · exact replied_update hexchanges hphase

/-- An exchange ends that was not past its writing, and its entry is removed. -/
theorem Filing.removes {done : List (ι × ℕ)} {outcome : SendOutcome Reply} (h : Filing s done)
    (hnumbered : Numbered s) (hwritten : Written envelopes s done) (hledger : Ledger s done)
    (hnumber : numbers s e = some n) (hunsent : ¬ (s.exchanges e).Past n)
    (hexchanges : s'.exchanges = Function.update s.exchanges e (.finished n outcome))
    (hpending : s'.pending = Function.update s.pending n false)
    (hdelivered : s'.delivered = s.delivered) (hanswers : s'.answers = s.answers)
    (hreader : s'.reader = s.reader) (hclosing : s'.closing = s.closing)
    (hread : s'.linesRead = s.linesRead) (howed : s'.owed = s.owed) (hinbox : s'.inbox = s.inbox)
    (houtcome : ∀ reply, outcome ≠ .replied reply) : Filing s' done := by
  refine ⟨fun hopen m hm => ?_, ?_, fun m reply hm => ?_, fun e' m reply he => ?_⟩
  · obtain ⟨hold, hne⟩ := due_ne hnumbered hwritten hledger hnumber hunsent hexchanges rfl rfl hread howed hinbox hm
    rw [hpending, Function.update_of_ne hne]
    exact h.due ⟨hreader ▸ hopen.1, hclosing ▸ hopen.2⟩ m hold
  · rw [hreader, hclosing]
    exact h.unknown
  · rw [hdelivered] at hm
    rw [hanswers]
    exact h.delivered m reply hm
  · rw [hanswers]
    rw [hexchanges] at he
    by_cases hee : e' = e
    · subst hee
      rw [Function.update_self] at he
      exact absurd (SendPhase.finished.inj he).2 (houtcome reply)
    · rw [Function.update_of_ne hee] at he
      exact h.replied e' m reply he

omit [DecidableEq ι] in
/-- A step that leaves the exchanges and the replies alone, at the end of which the map may be empty. -/
theorem Filing.closes {done : List (ι × ℕ)} (h : Filing s done) (hexchanges : s'.exchanges = s.exchanges)
    (hdelivered : s'.delivered = s.delivered) (hanswers : s'.answers = s.answers)
    (hdue : Open s' → ∀ m, Due s' done m → s'.pending m = true)
    (hunknown : ∀ m, s'.reader = some (.unknownMessage m) → s'.closing = .cleared) : Filing s' done := by
  refine ⟨hdue, hunknown, ?_, ?_⟩
  · rw [hdelivered, hanswers]
    exact h.delivered
  · rw [hexchanges, hanswers]
    exact h.replied

omit [DecidableEq ι] in
theorem Filing.deliver {done : List (ι × ℕ)} {reply : Reply} {inbox : List (ℕ × Reply)} (h : Filing s done)
    (hwritten : Written envelopes s done) (hnumbered : Numbered s) (hledger : Ledger s done)
    (hreader : s.reader = none)
    (hinbox : s.inbox = (n, reply) :: inbox) : Filing (s.deliver n reply inbox) done := by
  have hmem : n ∈ s.inbox.map Prod.fst := by simp [hinbox]
  unfold ExecutorStream.deliver
  split_ifs with hpending
  · refine ⟨fun hopen m hm => ?_, h.unknown, fun m reply' hm => ?_, h.replied⟩
    · have hne : m ≠ n := by
        rintro rfl
        rcases hm with ⟨e, hnumber, hpast⟩ | hm | hm
        · exact hwritten.unwritten hnumbered hnumber hpast (hledger.known (.inr hmem))
        · -- an answered command is owed no longer
          exact (List.nodup_append.mp hledger.once).2.2 m hm m (hledger.inboxed hmem) rfl
        · have hnodup := (hledger.inbox.map Prod.fst).nodup (List.nodup_append.mp hledger.once).2.1
          rw [hinbox, List.map_cons, List.nodup_cons] at hnodup
          exact hnodup.1 hm
      show Function.update s.pending n false m = true
      rw [Function.update_of_ne hne]
      refine h.due hopen m (hm.mono (fun e hnumber hpast => ⟨hnumber, hpast⟩) .inl fun hm => ?_)
      rw [hinbox]
      exact List.mem_cons_of_mem _ hm
    · have hanswer : (n, reply) ∈ s.answers := hledger.inbox.subset (by simp [hinbox])
      change Function.update s.delivered n (some reply) m = some reply' at hm
      by_cases hmn : m = n
      · subst hmn
        rw [Function.update_self] at hm
        cases hm
        exact hanswer
      · rw [Function.update_of_ne hmn] at hm
        exact h.delivered m reply' hm
  · refine h.closes rfl rfl rfl (fun hopen => nomatch hopen.1) fun m hm => ?_
    by_contra hclosing
    exact hpending (h.due ⟨hreader, hclosing⟩ n (.inr (.inr hmem)))

theorem Filing.begin {done : List (ι × ℕ)} (h : Filing s done) (hbefore : s.exchanges e = .before) :
    Filing (s.begin e) done := by
  have hexchanges : (s.begin e).exchanges = Function.update s.exchanges e (.waiting s.nextMessageId) := rfl
  refine ⟨fun hopen m hm => ?_, h.unknown, h.delivered, fun e' m reply he => ?_⟩
  · show Function.update s.pending s.nextMessageId true m = true
    by_cases hnext : m = s.nextMessageId
    · rw [hnext, Function.update_self]
    · rw [Function.update_of_ne hnext]
      refine h.due hopen m (hm.mono (fun e' hnumber hpast => ?_) .inl id)
      rw [numbers, hexchanges] at hnumber
      rw [hexchanges] at hpast
      by_cases he : e' = e
      · subst he
        rw [Function.update_self] at hnumber
        exact absurd (Option.some.inj hnumber).symm hnext
      · rw [Function.update_of_ne he] at hnumber hpast
        exact ⟨hnumber, hpast⟩
  · rcases replied_update hexchanges nofun e' m reply he with hold | hold
    · exact h.replied e' m reply hold
    · exact h.delivered m reply hold

theorem Filing.step {done done' : List (ι × ℕ)} (h : Filing s done) (hnumbered : Numbered s)
    (hwritten : Written envelopes s done) (hledger : Ledger s done)
    (hs : StreamStep parser envelopes s event s') (hadds : Adds s s' done done') : Filing s' done' := by
  rcases hadds with rfl | ⟨e, m, rest, hphase, rfl, rfl⟩
  · cases hs with
    | begin hbefore => exact h.begin hbefore
    | @acquire e m hphase =>
      have hnumber : numbers s e = some m := by
        rw [numbers, hphase]
        rfl
      have hunsent : ∀ n, ¬ (s.exchanges e).Past n := by
        rw [hphase]
        exact fun _ => id
      unfold ExecutorStream.acquire
      simp only
      split_ifs
      · exact h.removes hnumbered hwritten hledger hnumber (hunsent m) rfl rfl rfl rfl rfl rfl rfl rfl rfl nofun
      · exact h.goes rfl rfl rfl rfl rfl rfl rfl rfl rfl hnumber.symm (fun n hn => absurd hn (hunsent n)) nofun
    | @write e m chunk rest _ _ hphase =>
      have hnumber : numbers s e = some m := by
        rw [numbers, hphase]
        rfl
      have hunsent : ∀ n, ¬ (s.exchanges e).Past n := by
        rw [hphase]
        exact fun _ => id
      unfold ExecutorStream.write
      simp only
      split_ifs
      · exact h.goes rfl rfl rfl rfl rfl rfl rfl rfl rfl hnumber.symm (fun n hn => absurd hn (hunsent n)) nofun
      · exact h.goes rfl rfl rfl rfl rfl rfl rfl rfl rfl hnumber.symm (fun n hn => absurd hn (hunsent n)) nofun
    | @writeFails e m rest _ hphase =>
      have hnumber : numbers s e = some m := by
        rw [numbers, hphase]
        rfl
      have hunsent : ¬ (s.exchanges e).Past m := by
        rw [hphase]
        exact id
      exact h.removes hnumbered hwritten hledger hnumber hunsent rfl rfl rfl rfl rfl rfl rfl rfl rfl nofun
    | breaks => exact h.moves rfl rfl (fun a ha => ha) rfl rfl (fun m hm => hm) fun e m reply he => .inl he
    | @receive e m reply hphase hdelivered =>
      refine h.goes rfl rfl rfl rfl rfl rfl rfl rfl rfl ?_ ?_ ?_
      · rw [numbers, hphase]
        rfl
      · rw [hphase]
        exact fun _ => id
      · rintro m' reply' ⟨⟩
        exact hdelivered
    | orphaned hphase =>
      refine h.goes rfl rfl rfl rfl rfl rfl rfl rfl rfl ?_ ?_ nofun
      · rw [numbers, hphase]
        rfl
      · rw [hphase]
        exact fun _ => id
    | dropWaiting hphase =>
      refine h.goes rfl rfl rfl rfl rfl rfl rfl rfl rfl ?_ ?_ nofun
      · rw [numbers, hphase]
        rfl
      · rw [hphase]
        exact fun _ => False.elim
    | dropWriting hphase =>
      refine h.goes rfl rfl rfl rfl rfl rfl rfl rfl rfl ?_ ?_ nofun
      · rw [numbers, hphase]
        rfl
      · rw [hphase]
        exact fun _ => False.elim
    | dropAwaiting hphase =>
      refine h.goes rfl rfl rfl rfl rfl rfl rfl rfl rfl ?_ ?_ nofun
      · rw [numbers, hphase]
        rfl
      · rw [hphase]
        exact fun _ => id
    | @readCommand line m hline hparse =>
      refine h.moves rfl rfl (fun a ha => ha) rfl rfl (fun n hn => ?_) fun e m reply he => .inl he
      refine hn.mono (fun e hnumber hpast => ⟨hnumber, hpast⟩) (fun hn => .inl ?_) id
      rw [hwritten.lines, List.getElem?_map, Option.map_eq_some_iff] at hline
      obtain ⟨d, hd, rfl⟩ := hline
      obtain rfl := parser.reads hparse
      obtain ⟨hlt, rfl⟩ := List.getElem?_eq_some_iff.mp hd
      simp only [unanswered, List.mem_append, List.mem_singleton] at hn
      rw [unanswered, List.drop_eq_getElem_cons hlt]
      simp only [List.map_cons, List.mem_append, List.mem_cons]
      tauto
    | @answer m reply howed =>
      refine h.moves rfl rfl (fun a ha => List.mem_append_left _ ha) rfl rfl (fun n hn => ?_) fun e m reply he => .inl he
      rcases hn with ⟨e, hnumber, hpast⟩ | hn | hn
      · exact .inl ⟨e, hnumber, hpast⟩
      · rcases List.mem_append.mp hn with hn | hn
        · exact .inr (.inl (List.mem_append_left _ hn))
        · exact .inr (.inl (List.mem_append_right _ (List.mem_of_mem_erase hn)))
      · rw [List.map_append, List.mem_append] at hn
        rcases hn with hn | hn
        · exact .inr (.inr hn)
        · obtain rfl : n = m := by simpa using hn
          exact .inr (.inl (List.mem_append_right _ howed))
    | deliver hreader hinbox => exact h.deliver hwritten hnumbered hledger hreader hinbox
    | readerEnds => exact h.closes rfl rfl rfl (fun hopen => nomatch hopen.1) nofun
    | shutDown hclosing =>
      have hopens : s.closing ≠ .cleared := by
        rw [hclosing]
        nofun
      refine h.closes rfl rfl rfl (fun hopen m hm => h.due ⟨hopen.1, hopens⟩ m hm) fun m hm => ?_
      exact absurd (h.unknown m hm) hopens
    | clear => exact h.closes rfl rfl rfl (fun hopen => absurd rfl hopen.2) fun _ _ => rfl
    | abort => exact h.closes rfl rfl rfl (fun hopen => nomatch hopen.1) nofun
  · have hnumber : numbers s e = some m := by
      rw [numbers, hphase]
      rfl
    have hunsent : ∀ n, ¬ (s.exchanges e).Past n := by
      rw [hphase]
      exact fun _ => id
    have hexchanges : (s.write e m rest []).exchanges = Function.update s.exchanges e (.awaiting m) := rfl
    refine h.moves rfl rfl (fun a ha => ha) rfl rfl (fun n hn => ?_) (replied_update hexchanges nofun)
    refine hn.mono (unsent_update hexchanges hnumber.symm fun hn => absurd hn (hunsent n)) (fun hn => ?_) id
    change n ∈ ((done ++ [(e, m)]).drop s.linesRead).map Prod.snd ++ s.owed at hn
    rw [List.drop_append_of_le_length hledger.read, List.map_append, List.append_assoc] at hn
    simp only [List.mem_append, List.map_cons, List.map_nil, List.mem_singleton] at hn
    rcases hn with hn | rfl | hn
    · exact .inl (List.mem_append_left _ hn)
    · exact .inr ⟨e, hnumber, hunsent n⟩
    · exact .inl (List.mem_append_right _ hn)

end LDO
