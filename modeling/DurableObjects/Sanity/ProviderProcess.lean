import DurableObjects.Spec.ProviderProcess

/-! What is in the pipes of a provider process. An idle process has answered everything, and
nothing is left to read; a leased one is busy with the command of the exchange that holds it,
and what that exchange has read is the beginning of the line that answers it. -/

namespace LDO

open Json

variable {ι Reply : Type} {process process' : ProviderProcess ι} {document rest response line : List UInt8}
  {phase : ExchangePhase Reply} {e e' : ι} {p p' : ℕ} {outcome : ExchangeOutcome Reply}

/-! ### Lines -/

theorem split_newline {α : Type} [DecidableEq α] {newline : α} {a b x y : List α} (ha : newline ∉ a)
    (hb : newline ∉ b) (h : a ++ newline :: x = b ++ newline :: y) : a = b ∧ x = y := by
  have hsplit := congrArg (List.splitOn newline) h
  rw [List.splitOn_append_cons_self_of_not_mem ha, List.splitOn_append_cons_self_of_not_mem hb] at hsplit
  obtain rfl := (List.cons.inj hsplit).1
  exact ⟨rfl, (List.cons.inj (List.append_cancel_left h)).2⟩

/-- A beginning of a line that ends with a newline is the whole line. -/
theorem line_complete {left : List UInt8} (hline : 10 ∉ line) (hlast : response.getLast? = some 10)
    (h : response ++ left = line ++ [10]) : response = line ++ [10] ∧ left = [] := by
  obtain ⟨start, rfl⟩ := List.getLast?_eq_some_iff.mp hlast
  have hstart : 10 ∉ start := by
    intro hmem
    -- a newline before the last would be in the line
    rcases List.eq_nil_or_concat left with rfl | ⟨left, last, rfl⟩
    · obtain ⟨rfl, -⟩ := List.append_inj' ((List.append_nil _).symm.trans h) rfl
      exact hline hmem
    · rw [List.concat_eq_append, ← List.append_assoc] at h
      obtain ⟨rfl, -⟩ := List.append_inj' h rfl
      exact hline (by simp [hmem])
  rw [List.append_assoc] at h
  obtain ⟨rfl, hleft⟩ := split_newline hstart hline h
  exact ⟨rfl, hleft⟩

theorem newline_not_mem_quoteChars (cs : List Char) : '\n' ∉ quoteChars cs := by
  simp [quoteChars, newline_not_mem_escapeChar]

theorem toVec_toList (v : Value) : (toVec v).data.toList = utf8Bytes (serdeWriter.print v) :=
  toUTF8_ofList_toList _

theorem newline_not_mem_toVec (v : Value) : 10 ∉ (toVec v).data.toList := by
  rw [toVec_toList]
  apply newline_not_mem_utf8Bytes
  exact newline_not_mem_print (fun s => newline_not_mem_quoteChars s.toList) _

/-! ### One process -/

/-- Every command was answered, and every line read. -/
structure Rested (process : ProviderProcess ι) : Prop where
  free : process.busy = false
  stdin : process.stdin = []
  stdout : process.stdout = []
  writing : process.writing = []
  commands : process.commands.length = process.users.length
  lines : process.lines.length = process.users.length

/-- How far a command has come of which `rest` is still to be sent, and whose answer was read up to
`response`. -/
inductive CommandStage (document : List UInt8) (process : ProviderProcess ι)
    (rest response : List UInt8) : Prop
  | sending : process.commands.length + 1 = process.users.length →
      process.lines.length + 1 = process.users.length →
      process.writing = [] → process.stdout = [] → response = [] → process.stdin ++ rest = document ++ [10] →
      CommandStage document process rest response
  | sent : process.commands.length = process.users.length → process.lines.length + 1 = process.users.length →
      process.commands.getLast? = some document → rest = [] → process.stdin = [] → process.writing = [] →
      process.stdout = [] → response = [] → CommandStage document process rest response
  | answering (line : List UInt8) : process.commands.length = process.users.length →
      process.lines.length = process.users.length → process.commands.getLast? = some document →
      process.lines.getLast? = some line → 10 ∉ line → rest = [] → process.stdin = [] →
      response ++ (process.stdout ++ process.writing) = line ++ [10] →
      CommandStage document process rest response

/-- The process is held by `e`, which is in `phase`. -/
structure Leased (document : List UInt8) (e : ι) (phase : ExchangePhase Reply) (p : ℕ)
    (process : ProviderProcess ι) :
    Prop where
  busy : process.busy = true
  user : process.users.getLast? = some e
  stage : ∃ rest response, (phase = .writing p rest ∧ rest ≠ [] ∧ response = [] ∨ phase = .reading p response ∧ rest = []) ∧
    CommandStage document process rest response

/-- A provider only adds to what it did. -/
structure ProviderProcess.Grows (process process' : ProviderProcess ι) : Prop where
  users : process.users <+: process'.users
  commands : process.commands <+: process'.commands
  lines : process.lines <+: process'.lines

theorem ProviderProcess.Grows.refl (process : ProviderProcess ι) : process.Grows process :=
  ⟨List.prefix_refl _, List.prefix_refl _, List.prefix_refl _⟩

/-- What the provider does by itself. -/
inductive Works (process : ProviderProcess ι) : ProviderProcess ι → Prop
  | take {command rest : List UInt8} : process.stdin = command ++ 10 :: rest → 10 ∉ command →
      Works process { process with stdin := rest, commands := process.commands ++ [command] }
  | answer {line : List UInt8} : process.lines.length < process.commands.length →
      process.writing = [] → 10 ∉ line →
      Works process { process with writing := line ++ [10], lines := process.lines ++ [line] }
  | emit {chunk rest : List UInt8} : process.writing = chunk ++ rest →
      Works process { process with writing := rest, stdout := process.stdout ++ chunk }
  | exit : Works process { process with exited := true }

theorem Works.users (h : Works process process') : process'.users = process.users := by
  cases h with
  | take => rfl
  | answer => rfl
  | emit => rfl
  | exit => rfl

theorem Works.grows (h : Works process process') : process.Grows process' := by
  refine ⟨⟨[], by simp [h.users]⟩, ?_, ?_⟩
  · cases h with
    | take => exact List.prefix_append _ _
    | answer => exact List.prefix_refl _
    | emit => exact List.prefix_refl _
    | exit => exact List.prefix_refl _
  · cases h with
    | take => exact List.prefix_refl _
    | answer => exact List.prefix_append _ _
    | emit => exact List.prefix_refl _
    | exit => exact List.prefix_refl _

/-- A process at rest has nothing to do but exit. -/
theorem Rested.works (h : Rested process) (hw : Works process process') : Rested process' := by
  cases hw with
  | take hstdin => simp [h.stdin] at hstdin
  | answer hlt =>
    have := h.commands
    have := h.lines
    omega
  | emit hwriting =>
    rw [h.writing] at hwriting
    obtain ⟨rfl, rfl⟩ := List.append_eq_nil_iff.mp hwriting.symm
    exact ⟨h.free, h.stdin, by simp [h.stdout], rfl, h.commands, h.lines⟩
  | exit => exact ⟨h.free, h.stdin, h.stdout, h.writing, h.commands, h.lines⟩

theorem CommandStage.works (hdocument : 10 ∉ document) (h : CommandStage document process rest response)
    (hw : Works process process') : CommandStage document process' rest response := by
  cases h with
  | sending hcommands hlines hwriting hstdout hresponse hstdin =>
    cases hw with
    | take htaken hcommand =>
      -- the newline is the last byte of the document, so all of it was written
      rw [htaken, List.append_assoc, List.cons_append] at hstdin
      obtain ⟨rfl, hnil⟩ := split_newline hcommand hdocument hstdin
      obtain ⟨rfl, rfl⟩ := List.append_eq_nil_iff.mp hnil
      exact .sent (by simpa using hcommands) hlines (by simp) rfl rfl hwriting hstdout hresponse
    | answer hlt => omega
    | emit hemitted =>
      rw [hwriting] at hemitted
      obtain ⟨rfl, rfl⟩ := List.append_eq_nil_iff.mp hemitted.symm
      exact .sending hcommands hlines rfl (by simp [hstdout]) hresponse hstdin
    | exit => exact .sending hcommands hlines hwriting hstdout hresponse hstdin
  | sent hcommands hlines hlast hrest hstdin hwriting hstdout hresponse =>
    cases hw with
    | take htaken => simp [hstdin] at htaken
    | @answer line hlt hfree hline =>
      refine .answering line hcommands (by simpa using hlines) hlast (by simp) hline hrest hstdin ?_
      simp [hresponse, hstdout]
    | emit hemitted =>
      rw [hwriting] at hemitted
      obtain ⟨rfl, rfl⟩ := List.append_eq_nil_iff.mp hemitted.symm
      exact .sent hcommands hlines hlast hrest hstdin rfl (by simp [hstdout]) hresponse
    | exit => exact .sent hcommands hlines hlast hrest hstdin hwriting hstdout hresponse
  | answering line hcommands hlines hlast hbegun hline hrest hstdin hbytes =>
    cases hw with
    | take htaken => simp [hstdin] at htaken
    | answer hlt => omega
    | emit hemitted =>
      refine .answering line hcommands hlines hlast hbegun hline hrest hstdin ?_
      rw [hemitted] at hbytes
      simpa using hbytes
    | exit => exact .answering line hcommands hlines hlast hbegun hline hrest hstdin hbytes

theorem Leased.works (hdocument : 10 ∉ document) (h : Leased document e phase p process)
    (hw : Works process process') :
    Leased document e phase p process' := by
  obtain ⟨rest, response, hphase, hstage⟩ := h.stage
  refine ⟨?_, by rw [hw.users]; exact h.user, rest, response, hphase, hstage.works hdocument hw⟩
  have hbusy := h.busy
  cases hw with
  | take => exact hbusy
  | answer => exact hbusy
  | emit => exact hbusy
  | exit => exact hbusy

/-- A process that is leased anew. -/
theorem Rested.start (h : Rested process) :
    Leased document e (.writing p (document ++ [10]) : ExchangePhase Reply) p
    { process with busy := true, users := process.users ++ [e] } := by
  refine ⟨rfl, by simp, document ++ [10], [], .inl ⟨rfl, by simp, rfl⟩, ?_⟩
  exact .sending (by simp [h.commands]) (by simp [h.lines]) h.writing h.stdout rfl (by simp [h.stdin])

theorem rested_create : Rested (ProviderProcess.create : ProviderProcess ι) := ⟨rfl, rfl, rfl, rfl, rfl, rfl⟩

theorem Leased.write {chunk : List UInt8} (hchunk : chunk ≠ [])
    (h : Leased document e (.writing p (chunk ++ rest) : ExchangePhase Reply) p process) :
    Leased document e (if rest = [] then .reading p [] else .writing p rest : ExchangePhase Reply) p
      { process with stdin := process.stdin ++ chunk } := by
  obtain ⟨rest', response, ⟨heq, -, rfl⟩ | ⟨heq, -⟩, hstage⟩ := h.stage
  · obtain ⟨-, rfl⟩ := ExchangePhase.writing.inj heq
    refine ⟨h.busy, h.user, rest, [], ?_, ?_⟩
    · split_ifs with hrest
      · exact .inr ⟨rfl, hrest⟩
      · exact .inl ⟨rfl, hrest, rfl⟩
    · cases hstage with
      | sending hcommands hlines hwriting hstdout hresponse hstdin =>
        exact .sending hcommands hlines hwriting hstdout hresponse (by simpa using hstdin)
      | sent _ _ _ hrest => simp [hchunk] at hrest
      | answering _ _ _ _ _ _ hrest => simp [hchunk] at hrest
  · cases heq

theorem Leased.read {b : UInt8} {bs : List UInt8} (hstdout : process.stdout = b :: bs)
    (h : Leased document e (.reading p response : ExchangePhase Reply) p process) :
    Leased document e (.reading p (response ++ [b]) : ExchangePhase Reply) p { process with stdout := bs } := by
  obtain ⟨rest, response', ⟨heq, -⟩ | ⟨heq, rfl⟩, hstage⟩ := h.stage
  · cases heq
  · obtain ⟨-, rfl⟩ := ExchangePhase.reading.inj heq
    refine ⟨h.busy, h.user, [], response ++ [b], .inr ⟨rfl, rfl⟩, ?_⟩
    cases hstage with
    | sending _ _ _ hempty => simp [hstdout] at hempty
    | sent _ _ _ _ _ _ hempty => simp [hstdout] at hempty
    | answering line hcommands hlines hlast hbegun hline hrest hstdin hbytes =>
      refine .answering line hcommands hlines hlast hbegun hline hrest hstdin ?_
      rw [hstdout] at hbytes
      simpa using hbytes

/-- The response that passes the checks is the line that answers the command, and the process is at rest again. -/
theorem Leased.settle (h : Leased document e (.reading p response : ExchangePhase Reply) p process)
    (hcheck : checkResponse response = .ok ()) : ∃ (k : ℕ) (line : List UInt8), process.users[k]? = some e ∧
      process.commands[k]? = some document ∧ process.lines[k]? = some line ∧ response = line ++ [10] ∧
      Rested { process with busy := false } := by
  simp only [checkResponse, bind_ok, ensure_ok_iff] at hcheck
  obtain ⟨-, -, hnewline⟩ := hcheck
  obtain ⟨rest, response', ⟨heq, -⟩ | ⟨heq, rfl⟩, hstage⟩ := h.stage
  · cases heq
  · obtain ⟨-, rfl⟩ := ExchangePhase.reading.inj heq
    cases hstage with
    | sending _ _ _ _ hempty => simp [hempty] at hnewline
    | sent _ _ _ _ _ _ _ hempty => simp [hempty] at hnewline
    | answering line hcommands hlines hlast hbegun hline hrest hstdin hbytes =>
      obtain ⟨rfl, hempty⟩ := line_complete hline hnewline hbytes
      obtain ⟨hstdout, hwriting⟩ := List.append_eq_nil_iff.mp hempty
      have huser := h.user
      rw [List.getLast?_eq_getElem?] at huser hlast hbegun
      rw [hcommands] at hlast
      rw [hlines] at hbegun
      exact ⟨process.users.length - 1, line, huser, hlast, hbegun, rfl, rfl, hstdin, hstdout,
        hwriting, hcommands, hlines⟩

end LDO
