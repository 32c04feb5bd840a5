import DurableObjects.Lib.JsonLine
import DurableObjects.Lib.JsonShape
import DurableObjects.Spec.SameValue
import DurableObjects.Sanity.Snapshot

/-! What the host makes of a frame. A frame is one line, so the host reads exactly its
bytes; what it decodes is what a strict reader makes of the document. -/

namespace LDO

open Json

variable {serde : SerdeJson}

/-! ### One line -/

theorem readUntilNewline_line {bytes rest : List UInt8} (h : 10 ∉ bytes) :
    ∀ {limit : ℕ}, bytes.length < limit →
    readUntilNewline limit (bytes ++ 10 :: rest) = (bytes ++ [10], rest) := by
  induction bytes with
  | nil =>
    intro limit hlimit
    have hne : ¬ limit = 0 := by
      rw [List.length_nil] at hlimit
      omega
    simp [readUntilNewline, hne]
  | cons b bytes ih =>
    intro limit hlimit
    rw [List.length_cons] at hlimit
    have hb : ¬ b = 10 := by
      rintro rfl
      exact h (by simp)
    have hne : ¬ limit = 0 := by omega
    have hrest : readUntilNewline (limit - 1) (bytes ++ 10 :: rest) = _ :=
      ih (fun hmem => h (List.mem_cons_of_mem _ hmem)) (by omega)
    simp [readUntilNewline, hne, hb, hrest]

theorem printFields_closed {σ μ : Type} {W : Json.Writer σ μ} (fs : List (σ × Json σ μ)) :
    ∃ body, printFields W.quote W.digits fs = body ++ ['\x7d'] := by
  induction fs with
  | nil => exact ⟨[], by simp [printFields]⟩
  | cons f fs ih =>
    obtain ⟨k, v⟩ := f
    obtain ⟨body, hbody⟩ := ih
    exact ⟨',' :: (W.quote k ++ ':' :: (W.print v ++ body)), by simp [printFields, hbody]⟩

theorem print_obj_closed {σ μ : Type} {W : Json.Writer σ μ} (fs : List (σ × Json σ μ)) :
    ∃ body, W.print (.obj fs) = body ++ ['\x7d'] := by
  cases fs with
  | nil => exact ⟨['\x7b'], by simp [print]⟩
  | cons f fs =>
    obtain ⟨k, v⟩ := f
    obtain ⟨body, hbody⟩ := printFields_closed (W := W) fs
    exact ⟨'\x7b' :: (W.quote k ++ ':' :: (W.print v ++ body)), by simp [print, hbody]⟩

/-- Only the line feed is trimmed. -/
theorem trimAsciiEnd_obj (fs : List (Units × JsTree)) :
    trimAsciiEnd (utf8Bytes (jsWriter.print (.obj fs)) ++ [10]) = utf8Bytes (jsWriter.print (.obj fs)) := by
  obtain ⟨body, hbody⟩ := print_obj_closed (W := jsWriter) fs
  have hlast : utf8Bytes (body ++ ['\x7d']) = utf8Bytes body ++ [125] := by
    rw [utf8Bytes, List.flatMap_append]
    rfl
  rw [trimAsciiEnd, hbody, hlast, List.rdropWhile_concat_pos _ _ _ (by decide),
    List.rdropWhile_concat_neg _ _ _ (by decide)]

theorem serializeMessage_toList (message : JsTree) :
    (serializeMessage message).data.toList = utf8Bytes (jsWriter.print message) ++ [10] := by
  rw [serializeMessage, toUTF8_ofList_toList, utf8Bytes, List.flatMap_append]
  rfl

theorem fromSlice_print (message : JsTree) :
    fromSlice serde (utf8Bytes (jsWriter.print message)).toByteArray =
      readBack jsWriter serde.toReader serde.maxDepth message := by
  rw [toByteArray_utf8Bytes, fromSlice, fromUTF8?_toUTF8]
  simp only [String.toList_ofList]
  have hread := read_print jsWriter serde.toReader message [] rfl
  rwa [List.append_nil] at hread

/-- What `readClientMessage` decodes from the frame of an object. -/
def decodeFrame (serde : SerdeJson) (message : JsTree) : Result ActorExecutorClientMessage :=
  orContext ((readBack jsWriter serde.toReader serde.maxDepth message).bind ActorExecutorClientMessage.ofJson)
    "decode customer actor executor message"

theorem readClientMessage_frame {fs : List (Units × JsTree)}
    (hsize : (serializeMessage (.obj fs)).size ≤ maxMessageBytes) (rest : List UInt8) :
    readClientMessage serde ((serializeMessage (.obj fs)).data.toList ++ rest) =
      (decodeFrame serde (.obj fs)).map fun message => some (message, rest) := by
  have hline : 10 ∉ utf8Bytes (jsWriter.print (.obj fs)) :=
    newline_not_mem_utf8Bytes (newline_not_mem_print newline_not_mem_quoteUnits _)
  have hlength : (utf8Bytes (jsWriter.print (.obj fs)) ++ [10]).length ≤ maxActorExecutorMessageBytes := by
    rw [← serializeMessage_toList]
    exact hsize
  have hlimit : (utf8Bytes (jsWriter.print (.obj fs))).length < maxActorExecutorMessageBytes + 1 := by
    rw [List.length_append, List.length_singleton] at hlength
    omega
  rw [serializeMessage_toList, List.append_assoc, List.singleton_append, readClientMessage,
    readUntilNewline_line hline hlimit]
  simp only [List.append_eq_nil_iff, List.cons_ne_self, and_false, if_false, ensure, hlength, if_true,
    trimAsciiEnd_obj, fromSlice_print]
  rw [← decodeFrame]
  cases decodeFrame serde (.obj fs) <;> rfl

end LDO
