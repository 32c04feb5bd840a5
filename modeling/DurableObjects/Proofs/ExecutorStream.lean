import Mathlib.Data.List.Nodup
import DurableObjects.Sanity.ExecutorStream
import DurableObjects.Sanity.Snapshot

/-! The stream to the customer's process under concurrent exchanges. It is well framed, replies
reach their own exchange and no reply is unknown, as long as no exchange stops after some bytes of its
frame and before the last. The first that does leaves a piece of a frame behind, and nothing
closes the stream. -/

namespace LDO

open Json

variable {ι Reply : Type} [DecidableEq ι] {parser : CommandParser} {envelopes : ι → Value}
  {s s' : ExecutorStream ι Reply} {event : StreamEvent ι Reply} {e : ι} {m : ℕ}

/-- Complete frames, then at most the beginning of one that is being written. -/
def Framed (envelopes : ι → Value) (s : ExecutorStream ι Reply) : Prop :=
  ∃ done sent, (∀ d ∈ done, numbers s d.1 = some d.2) ∧ s.written = frames envelopes done ++ sent ∧
    (sent = [] ∨ ∃ e m rest, s.exchanges e = .writing m rest ∧ sent ++ rest = commandFrame m (envelopes e))

/-- An exchange that returns a reply returns the one that was sent for its number. -/
def OwnReplies (s : ExecutorStream ι Reply) : Prop :=
  ∀ e m reply, s.exchanges e = .finished m (.replied reply) → (m, reply) ∈ s.answers ∧
    (∀ reply', (m, reply') ∈ s.answers → reply' = reply) ∧ ∀ e', numbers s e' = some m → e' = e

/-- An unknown number ends nothing: the session was closed before. -/
def KnowsReplies (s : ExecutorStream ι Reply) : Prop :=
  ∀ m, s.reader = some (.unknownMessage m) → s.closing = .cleared

structure StreamOk (envelopes : ι → Value) (s : ExecutorStream ι Reply) (done : List (ι × ℕ)) : Prop where
  numbered : Numbered s
  written : Written envelopes s done
  ledger : Ledger s done
  filed : Filing s done

theorem StreamOk.step {done : List (ι × ℕ)} (h : StreamOk envelopes s done)
    (hs : StreamStep parser envelopes s event s') (hstops : StopsBetween envelopes s event s') :
    ∃ done', StreamOk envelopes s' done' := by
  obtain ⟨done', hadds, hwritten⟩ := h.written.step hs hstops
  exact ⟨done', h.numbered.step hs, hwritten, h.ledger.step h.numbered h.written hs hadds,
    h.filed.step h.numbered h.written h.ledger hs hadds⟩

omit [DecidableEq ι] in
theorem streamOk_initial : StreamOk envelopes (ExecutorStream.initial : ExecutorStream ι Reply) [] := by
  refine ⟨⟨nofun, nofun⟩, ⟨nofun, nofun, fun _ => rfl, nofun⟩,
    ⟨le_rfl, List.Perm.refl _, List.nodup_nil, List.Sublist.refl _⟩, ?_⟩
  refine ⟨fun _ m hm => ?_, nofun, nofun, nofun⟩
  rcases hm with ⟨e, hnumber, -⟩ | hm | hm
  · cases hnumber
  · cases hm
  · cases hm

theorem streamOk_reachable (h : ((executorStream parser envelopes).restrict (StopsBetween envelopes)).Reachable s) :
    ∃ done, StreamOk envelopes s done := by
  apply h.invariant (I := fun s => ∃ done, StreamOk envelopes s done)
  · intro s hi
    obtain rfl : s = _ := hi
    exact ⟨[], streamOk_initial⟩
  · intro s event s' hok hs
    obtain ⟨done, hok⟩ := hok
    exact hok.step hs.1 hs.2

/-! ### What the invariant gives -/

omit [DecidableEq ι] in
theorem numbers_of_past (h : (s.exchanges e).Past m) : numbers s e = some m := by
  rw [numbers]
  generalize s.exchanges e = phase at h
  cases phase with
  | before => cases h
  | waiting => cases h
  | writing => cases h
  | awaiting => exact congrArg some h
  | finished => exact congrArg some h

omit [DecidableEq ι] in
theorem StreamOk.framed {done : List (ι × ℕ)} (h : StreamOk envelopes s done) : Framed envelopes s := by
  have hnumbers : ∀ d ∈ done, numbers s d.1 = some d.2 := fun d hd => numbers_of_past (h.written.sent d hd)
  cases hwriter : s.writer with
  | none => exact ⟨done, [], hnumbers, (h.written.free hwriter).trans (List.append_nil _).symm, .inl rfl⟩
  | some e =>
    obtain ⟨m, sent, rest, hphase, -, hframe, hwritten⟩ := h.written.held e hwriter
    exact ⟨done, sent, hnumbers, hwritten, .inr ⟨e, m, rest, hphase, hframe⟩⟩

omit [DecidableEq ι] in
theorem StreamOk.ownReplies {done : List (ι × ℕ)} (h : StreamOk envelopes s done) : OwnReplies s := by
  intro e m reply hphase
  have hanswer := h.filed.replied e m reply hphase
  refine ⟨hanswer, fun reply' hanswer' => ?_, fun e' he' => ?_⟩
  · have hnodup := (List.nodup_append.mp h.ledger.once).2.1
    have heq := List.inj_on_of_nodup_map hnodup hanswer' hanswer rfl
    exact (Prod.mk.inj heq).2
  · refine h.numbered.own e e' m ?_ he'
    rw [numbers, hphase]
    rfl

/-! ### A frame that is cut off -/

omit [DecidableEq ι] in
/-- Bytes of a frame that nobody writes on are no frame. -/
theorem not_framed {done : List (ι × ℕ)} {sent : List UInt8}
    (hwritten : s.written = frames envelopes done ++ sent) (hsent : sent ≠ []) (hnewline : 10 ∉ sent)
    (hnobody : ∀ e m rest, s.exchanges e ≠ .writing m rest) : ¬ Framed envelopes s := by
  rintro ⟨done', sent', -, hwritten', rfl | ⟨e, m, rest, hphase, -⟩⟩
  · have hlast : s.written.getLast? = sent.getLast? := by
      rw [hwritten, List.getLast?_append_of_ne_nil _ hsent]
    obtain ⟨init, last, rfl⟩ := List.eq_nil_or_concat sent |>.resolve_left hsent
    rw [List.concat_eq_append] at *
    rcases List.eq_nil_or_concat done' with rfl | ⟨done', d, rfl⟩
    · rw [hwritten'] at hlast
      simp [frames] at hlast
    · have hend : frames envelopes (done'.concat d) =
          frames envelopes done' ++ commandDocument d.2 (envelopes d.1) ++ [10] := by
        simp [frames, commandFrame]
      rw [hwritten', hend] at hlast
      simp only [List.append_nil, List.getLast?_concat, Option.some.injEq] at hlast
      simp [hlast] at hnewline
  · exact hnobody e m rest hphase

theorem not_stopsBetween_framed {done : List (ι × ℕ)} (h : StreamOk envelopes s done)
    (hs : StreamStep parser envelopes s event s') (hstops : ¬ StopsBetween envelopes s event s') :
    ¬ Framed envelopes s' := by
  simp only [StopsBetween, not_forall] at hstops
  obtain ⟨e, m, rest, hevent, hphase, hpart⟩ := hstops
  have hholder := h.written.holder e m rest hphase
  obtain ⟨m', sent, rest', hphase', hrest, hframe, hwritten⟩ := h.written.held e hholder
  obtain ⟨rfl, rfl⟩ := SendPhase.writing.inj (hphase'.symm.trans hphase)
  have hsent : sent ≠ [] := by
    rintro rfl
    exact hpart hframe
  have hnobody : ∀ phase : SendPhase Reply, (∀ m rest, phase ≠ .writing m rest) →
      ∀ e' m rest, Function.update s.exchanges e phase e' ≠ .writing m rest := by
    intro phase hnew e' m rest
    by_cases he : e' = e
    · subst he
      rw [Function.update_self]
      exact hnew m rest
    · rw [Function.update_of_ne he]
      intro hwriting
      exact he (Option.some.inj ((h.written.holder e' m rest hwriting).symm.trans hholder))
  have hnewline := newline_not_mem_sent hrest hframe
  rcases hevent with rfl | rfl
  · cases hs with
    | dropWaiting hwaiting => cases hwaiting.symm.trans hphase
    | dropWriting hwriting =>
      obtain ⟨rfl, rfl⟩ := SendPhase.writing.inj (hwriting.symm.trans hphase)
      exact not_framed hwritten hsent hnewline (hnobody _ nofun)
    | dropAwaiting hawaiting => cases hawaiting.symm.trans hphase
  · cases hs with
    | writeFails _ hwriting =>
      obtain ⟨rfl, rfl⟩ := SendPhase.writing.inj (hwriting.symm.trans hphase)
      exact not_framed hwritten hsent hnewline (hnobody _ nofun)

/-- As long as no exchange stops inside its frame, the stream is framed and replies reach their own exchange;
the first that does leaves a stream that is not. -/
theorem executor_stream (parser : CommandParser) (envelopes : ι → Value) :
    (∀ s : ExecutorStream ι Reply, ((executorStream parser envelopes).restrict (StopsBetween envelopes)).Reachable s →
      Framed envelopes s ∧ OwnReplies s ∧ KnowsReplies s) ∧
    ∀ (s s' : ExecutorStream ι Reply) event,
      ((executorStream parser envelopes).restrict (StopsBetween envelopes)).Reachable s →
      (executorStream parser envelopes).step s event s' → ¬ StopsBetween envelopes s event s' →
      ¬ Framed envelopes s' := by
  refine ⟨fun s h => ?_, fun s s' event h hs hstops => ?_⟩
  · obtain ⟨done, hok⟩ := streamOk_reachable h
    exact ⟨hok.framed, hok.ownReplies, hok.filed.unknown⟩
  · obtain ⟨done, hok⟩ := streamOk_reachable h
    exact not_stopsBetween_framed hok hs hstops

/-! ### A caller that leaves -/

theorem commandDocument_toByteArray (m : ℕ) (envelope : Value) :
    (commandDocument m envelope).toByteArray = toVec (commandMessage m envelope) := by
  rw [commandDocument, toVec_toList, toByteArray_utf8Bytes, toVec]

theorem readBack_commandMessage (m : ℕ) (envelope : Value) :
    Json.readBack serdeWriter literalSerde.toReader 127 (commandMessage m envelope) =
      (Json.readBack serdeWriter literalSerde.toReader 126 envelope).map fun v =>
        .obj [("type", .str "command"), ("message_id", .num (.ofNat m)), ("command", v)] := by
  have hnumber : literalSerde.number (serdeWriter.digits (.ofNat m)) = some (.ofNat m) := by
    simp [literalSerde, serdeWriter, Number.ofNat, isNumberLiteral_digits]
  have htext : ∀ t : String, serdeWriter.text t = some t.toList := fun _ => rfl
  simp only [commandMessage, Json.readBack, readBackFields, htext, hnumber, Option.bind_some, Option.map_some,
    String.ofList_toList]
  cases Json.readBack serdeWriter literalSerde.toReader 126 envelope with
  | none => rfl
  | some v => rfl

/-- A process that reads commands as `serde_json` does. -/
def literalParser : CommandParser where
  messageId line := (fromSlice literalSerde line.toByteArray).bind fun
    | .obj fields => (field fields "message_id").bind asU64
    | _ => none
  reads := by
    intro m n envelope h
    rw [commandDocument_toByteArray, fromSlice_toVec_eq] at h
    have hfields := readBack_commandMessage m envelope
    cases henvelope : Json.readBack serdeWriter literalSerde.toReader 126 envelope with
    | none =>
      rw [henvelope] at hfields
      rw [show Json.readBack serdeWriter literalSerde.toReader literalSerde.maxDepth (commandMessage m envelope) = none from
        hfields] at h
      cases h
    | some envelope' =>
      rw [henvelope] at hfields
      rw [show Json.readBack serdeWriter literalSerde.toReader literalSerde.maxDepth (commandMessage m envelope) = _ from
        hfields] at h
      have hasU64 : (Number.ofNat m).asU64 = some n := by simpa [field, asU64] using h
      have hvalue : Nat.ofDigitChars 10 (Nat.toDigits 10 m) 0 = m :=
        Nat.ofDigitChars_toDigits (by decide) (by decide)
      unfold Number.asU64 at hasU64
      simp only [Number.ofNat, hvalue] at hasU64
      split_ifs at hasU64
      exact (Option.some.inj hasU64).symm

/-! ### Two exchanges at once -/

section Interleaved

private abbrev calm : System (ExecutorStream Bool Bool) (StreamEvent Bool Bool) :=
  (executorStream literalParser fun _ => .null).restrict (StopsBetween fun _ => .null)

theorem calm_step {s s' : ExecutorStream Bool Bool} {event : StreamEvent Bool Bool}
    (hs : StreamStep literalParser (fun _ => .null) s event s') (hdrop : ∀ e, event ≠ .drop e)
    (hfails : ∀ e, event ≠ .writeFails e) : calm.step s event s' := by
  refine ⟨hs, fun e m rest hevent _ => ?_⟩
  rcases hevent with hevent | hevent
  · exact absurd hevent (hdrop e)
  · exact absurd hevent (hfails e)

theorem acquire_small {s : ExecutorStream Bool Bool} {e : Bool} {m : ℕ}
    (hsmall : (commandFrame m .null).length ≤ maxActorExecutorMessageBytes) :
    s.acquire .null e m = { s.setPhase e (.writing m (commandFrame m .null)) with writer := some e } :=
  if_neg (not_lt.mpr hsmall)

theorem commandFrame_small {m : ℕ} (h : m = 1 ∨ m = 2) :
    (commandFrame m .null).length ≤ maxActorExecutorMessageBytes := by
  rcases h with rfl | rfl <;> decide +kernel

/-- An exchange that has the turn writes its frame. -/
theorem frame_path {s : ExecutorStream Bool Bool} {e : Bool} {m : ℕ} (hm : m = 1 ∨ m = 2)
    (hphase : s.exchanges e = .waiting m) (hwriter : s.writer = none) (hbroken : s.broken = false) :
    calm.Path s [.acquire e, .write e] { s.setPhase e (.awaiting m) with written := s.written ++ commandFrame m .null } := by
  have hacquire : StreamStep literalParser (fun _ => .null) s (.acquire e) (s.acquire .null e m) :=
    .acquire hphase hwriter
  rw [acquire_small (commandFrame_small hm)] at hacquire
  have hne : commandFrame m .null ≠ [] := by simp [commandFrame]
  have hwrite := @StreamStep.write _ _ _ literalParser (fun _ => .null)
    { s.setPhase e (.writing m (commandFrame m .null)) with writer := some e } e m (commandFrame m .null) [] hbroken hne
    (by simp [ExecutorStream.setPhase])
  have hend : { s.setPhase e (.writing m (commandFrame m .null)) with writer := some e }.write e m
      (commandFrame m .null) [] =
      { s.setPhase e (.awaiting m) with written := s.written ++ commandFrame m .null } := by
    simp [ExecutorStream.write, ExecutorStream.setPhase, ExecutorStream.unlock, hwriter]
  rw [hend] at hwrite
  exact (System.Path.single (calm_step hacquire (by simp) (by simp))).snoc (calm_step hwrite (by simp) (by simp))

/-- Both frames are on the stream, that of the second exchange before that of the first. -/
private def bothSent (exchanges : Bool → SendPhase Bool) (pending : ℕ → Bool)
    (delivered : ℕ → Option Bool) (linesRead : ℕ) (owed : List ℕ) (inbox answers : List (ℕ × Bool)) :
    ExecutorStream Bool Bool :=
  ⟨exchanges, 3, pending, delivered, none, frames (fun _ => .null) [(true, 2), (false, 1)], false, .no, none, linesRead, owed,
    inbox, answers⟩

private def bothAwaiting (e : Bool) : SendPhase Bool := if e then .awaiting 2 else .awaiting 1

private def bothFiled (m : ℕ) : Bool := m == 1 || m == 2

variable {exchanges : Bool → SendPhase Bool} {pending : ℕ → Bool} {delivered : ℕ → Option Bool} {linesRead : ℕ}
  {owed : List ℕ} {inbox answers : List (ℕ × Bool)}

theorem bothSent_path :
    calm.Path .initial [.begin false, .begin true, .acquire true, .write true, .acquire false, .write false]
    (bothSent bothAwaiting bothFiled (fun _ => none) 0 [] [] []) := by
  have hfirst : StreamStep literalParser (fun _ => .null) .initial (.begin false)
      ((ExecutorStream.initial : ExecutorStream Bool Bool).begin false) := .begin rfl
  have hsecond := @StreamStep.begin _ _ _ literalParser (fun _ => .null)
    ((ExecutorStream.initial : ExecutorStream Bool Bool).begin false) true rfl
  have hbegun := (System.Path.single (calm_step hfirst nofun nofun)).snoc (calm_step hsecond nofun nofun)
  have hpath := (hbegun.trans (@frame_path _ true 2 (.inr rfl) rfl rfl rfl)).trans
      (@frame_path _ false 1 (.inl rfl) rfl rfl rfl)
  have hend : bothFiled = Function.update (Function.update (fun _ => false) 1 true) 2 true := by
    funext m
    by_cases h2 : m = 2 <;> by_cases h1 : m = 1 <;> simp [bothFiled, h1, h2]
  have hexchanges : bothAwaiting = Function.update (Function.update (Function.update (Function.update (fun _ => .before) false
      (.waiting 1)) true (.waiting 2)) true (.awaiting 2)) false (.awaiting 1) := by
    funext e
    cases e <;> rfl
  rw [bothSent, hend, hexchanges]
  exact hpath

theorem line_read {k m : ℕ}
    (hline : [commandDocument 2 .null, commandDocument 1 .null][k]? = some (commandDocument m .null))
    (hread : literalParser.messageId (commandDocument m .null) = some m) :
    calm.step (bothSent exchanges pending delivered k owed inbox answers) .readCommand
      (bothSent exchanges pending delivered (k + 1) (owed ++ [m]) inbox answers) := by
  have hlines := @completeLines_frames _ (fun _ : Bool => .null) [] [(true, 2), (false, 1)] (by simp)
  rw [List.append_nil] at hlines
  have hwritten : (completeLines (bothSent exchanges pending delivered k owed inbox answers).written)[k]? =
      some (commandDocument m .null) := by
    rw [bothSent, hlines]
    exact hline
  exact calm_step (@StreamStep.readCommand _ _ _ literalParser (fun _ => .null)
    (bothSent exchanges pending delivered k owed inbox answers)
    (commandDocument m .null) m hwritten hread) nofun nofun

theorem reply_delivered {m : ℕ} {reply : Bool} (hfiled : pending m = true) :
    calm.step (bothSent exchanges pending delivered linesRead owed ((m, reply) :: inbox) answers) .deliver
      (bothSent exchanges (Function.update pending m false) (Function.update delivered m (some reply)) linesRead owed inbox
        answers) := by
  have hstep := @StreamStep.deliver _ _ _ literalParser (fun _ => .null)
    (bothSent exchanges pending delivered linesRead owed ((m, reply) :: inbox) answers) m reply inbox rfl rfl
  rw [ExecutorStream.deliver, if_pos (by exact hfiled)] at hstep
  exact calm_step hstep nofun nofun

theorem answer_sent {m : ℕ} {reply : Bool} (howed : m ∈ owed) :
    calm.step (bothSent exchanges pending delivered linesRead owed inbox answers) (.answer m reply)
      (bothSent exchanges pending delivered linesRead (owed.erase m) (inbox ++ [(m, reply)]) (answers ++ [(m, reply)])) :=
  calm_step (@StreamStep.answer _ _ _ literalParser (fun _ => .null)
    (bothSent exchanges pending delivered linesRead owed inbox answers) m reply howed) nofun nofun

theorem reply_received {e : Bool} {m : ℕ} {reply : Bool} (hawaiting : exchanges e = .awaiting m)
    (hdelivered : delivered m = some reply) :
    calm.step (bothSent exchanges pending delivered linesRead owed inbox answers) (.receive e)
      (bothSent (Function.update exchanges e (.finished m (.replied reply))) pending delivered linesRead owed inbox answers) :=
  calm_step (@StreamStep.receive _ _ _ literalParser (fun _ => .null)
    (bothSent exchanges pending delivered linesRead owed inbox answers) e m reply hawaiting hdelivered) nofun nofun

/-- The process answers the first exchange first. -/
theorem interleaved_reachable : ∃ s, calm.Reachable s ∧ s.exchanges false = .finished 1 (.replied false) ∧
    s.exchanges true = .finished 2 (.replied true) := by
  have hsent : calm.Reachable (bothSent bothAwaiting bothFiled (fun _ => none) 0 [] [] []) :=
    ⟨_, _, rfl, bothSent_path⟩
  have hread := (hsent.step (line_read rfl (by decide +kernel))).step (line_read (m := 1) rfl (by decide +kernel))
  have hanswered := (hread.step (@answer_sent _ _ _ _ _ _ _ 1 false (by decide))).step
    (@answer_sent _ _ _ _ _ _ _ 2 true (by decide))
  have hdelivered := (hanswered.step (reply_delivered rfl)).step (reply_delivered rfl)
  have hreceived := (hdelivered.step (@reply_received _ _ _ _ _ _ _ false 1 false rfl rfl)).step
    (@reply_received _ _ _ _ _ _ _ true 2 true rfl rfl)
  exact ⟨_, hreceived, rfl, rfl⟩

theorem executor_stream_interleaved : ∃ s : ExecutorStream Bool Bool,
    ((executorStream literalParser fun _ => .null).restrict (StopsBetween fun _ => .null)).Reachable s ∧
    s.exchanges false = .finished 1 (.replied false) ∧ s.exchanges true = .finished 2 (.replied true) ∧
    Framed (fun _ => .null) s ∧ OwnReplies s ∧ KnowsReplies s := by
  obtain ⟨s, hreachable, hfirst, hsecond⟩ := interleaved_reachable
  exact ⟨s, hreachable, hfirst, hsecond, (executor_stream literalParser fun _ => .null).1 s hreachable⟩

end Interleaved

section Abandoned

private abbrev stream : System (ExecutorStream Unit Unit) (StreamEvent Unit Unit) :=
  executorStream literalParser fun _ => .null

private def only (phase : SendPhase Unit) (writer : Option Unit) (written : List UInt8) :
    ExecutorStream Unit Unit :=
  { (ExecutorStream.initial : ExecutorStream Unit Unit) with
    exchanges := fun _ => phase
    nextMessageId := 2
    pending := Function.update (fun _ => false) 1 true
    writer := writer
    written := written }

/-- The one exchange has written the first byte of its frame, and its future is dropped. -/
def abandoned : ExecutorStream Unit Unit := only (.finished 1 .dropped) none [0x7b]

theorem setPhase_only (phase phase' : SendPhase Unit) (writer : Option Unit) (written : List UInt8) :
    (only phase writer written).setPhase () phase' = only phase' writer written := by
  have hupdate : Function.update (fun _ : Unit => phase) () phase' = fun _ => phase' :=
    funext fun _ => Function.update_self ..
  simp [ExecutorStream.setPhase, only, hupdate]

theorem begun_step : stream.step .initial (.begin ()) (only (.waiting 1) none []) := by
  have hupdate : Function.update (fun _ : Unit => SendPhase.before) () (.waiting 1) = fun _ =>
      (.waiting 1 : SendPhase Unit) :=
    funext fun _ => Function.update_self ..
  have hbegin : stream.step .initial (.begin ()) (ExecutorStream.initial.begin ()) := .begin rfl
  simpa [ExecutorStream.begin, ExecutorStream.setPhase, ExecutorStream.initial, only, hupdate] using hbegin

theorem acquired_step : stream.step (only (.waiting 1) none []) (.acquire ())
    (only (.writing 1 (commandFrame 1 .null)) (some ()) []) := by
  have hsmall : ¬ maxActorExecutorMessageBytes < (commandFrame 1 .null).length := by decide +kernel
  have hacquire : stream.step (only (.waiting 1) none []) (.acquire ()) ((only (.waiting 1) none []).acquire .null () 1) :=
    .acquire rfl rfl
  rw [ExecutorStream.acquire, if_neg hsmall, setPhase_only] at hacquire
  exact hacquire

theorem written_step : stream.step (only (.writing 1 (commandFrame 1 .null)) (some ()) []) (.write ())
    (only (.writing 1 (commandFrame 1 .null).tail) (some ()) [0x7b]) := by
  have hframe : commandFrame 1 .null = [0x7b] ++ (commandFrame 1 .null).tail := by decide +kernel
  have hrest : (commandFrame 1 .null).tail ≠ [] := by decide +kernel
  have hwrite : stream.step (only (.writing 1 (commandFrame 1 .null)) (some ()) []) (.write ())
      ((only (.writing 1 (commandFrame 1 .null)) (some ()) []).write () 1 [0x7b] (commandFrame 1 .null).tail) :=
    .write rfl (List.cons_ne_nil _ _) (congrArg (SendPhase.writing 1) hframe)
  rw [ExecutorStream.write, if_neg hrest] at hwrite
  exact (setPhase_only _ (.writing 1 (commandFrame 1 .null).tail) (some ()) [0x7b]) ▸ hwrite

theorem dropped_step : stream.step (only (.writing 1 (commandFrame 1 .null).tail) (some ()) [0x7b])
    (.drop ()) abandoned := by
  have hdrop : stream.step (only (.writing 1 (commandFrame 1 .null).tail) (some ()) [0x7b]) (.drop ())
      (((only (.writing 1 (commandFrame 1 .null).tail) (some ()) [0x7b]).setPhase () (.finished 1 .dropped)).unlock ()) :=
    .dropWriting rfl
  rw [setPhase_only] at hdrop
  exact hdrop

theorem abandoned_reachable : stream.Reachable abandoned := by
  have hinit : stream.Reachable .initial := ⟨[], .initial, rfl, .nil _⟩
  exact (((hinit.step begun_step).step acquired_step).step written_step).step dropped_step

/-- The byte stays on the stream, and nobody is left to finish the frame. -/
theorem executor_stream_abandoned : ¬ ∀ s : ExecutorStream Unit Unit,
    (executorStream literalParser fun _ => .null).Reachable s →
      Framed (fun _ => .null) s ∧ OwnReplies s ∧ KnowsReplies s := by
  intro h
  have hlacks : ¬ Framed (fun _ : Unit => .null) abandoned := by
    have hwritten : abandoned.written = frames (fun _ : Unit => .null) [] ++ [0x7b] := rfl
    exact not_framed hwritten (List.cons_ne_nil _ _) (by decide) nofun
  exact hlacks (h abandoned abandoned_reachable).1

end Abandoned

end LDO
