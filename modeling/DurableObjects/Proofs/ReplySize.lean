import DurableObjects.Sanity.Frame
import DurableObjects.Sanity.SizeEstimate

/-! When the size estimate of a message is right. It is the length of the text and the
surplus of its strings, so it goes wrong exactly for the limits between the two. -/

namespace LDO

open Json

/-- The limit does not lie between the length of the text and the length the loop counts. -/
def Unaffected (v : JsTree) (maxBytes : ℕ) : Prop :=
  textBytes v ≤ maxBytes ↔ (textBytes v : ℤ) + surplusOf v ≤ maxBytes

theorem jsonFitsWithinBytes_exact_iff {v : JsTree} (hv : nesting v ≤ 256) (maxBytes : ℕ) :
    (jsonFitsWithinBytes v maxBytes = true ↔ textBytes v ≤ maxBytes) ↔ Unaffected v maxBytes := by
  have hestimate := estimate_eq v
  have hfits : estimate v ≤ maxBytes ↔ (textBytes v : ℤ) + surplusOf v ≤ maxBytes := by
    rw [← hestimate]
    omega
  rw [jsonFitsWithinBytes_iff hv, Unaffected, hfits]
  exact Iff.comm

/-! ### Replies -/

theorem length_utf8Bytes (cs : List Char) : (utf8Bytes cs).length = byteLength cs := by
  induction cs with
  | nil => rfl
  | cons c cs ih =>
    have happend : utf8Bytes (c :: cs) = String.utf8EncodeChar c ++ utf8Bytes cs := rfl
    rw [happend, List.length_append, ih, byteLength_cons, String.length_utf8EncodeChar]

theorem size_serializeMessage (message : JsTree) :
    (serializeMessage message).size = textBytes message + 1 := by
  have hlength := congrArg List.length (serializeMessage_toList message)
  rw [List.length_append, length_utf8Bytes, List.length_singleton, Array.length_toList] at hlength
  exact hlength

theorem writeDocument_message (message : JsTree) :
    (∃ frame, writeDocument (serializeMessage message) = .ok frame) ↔
    textBytes message ≤ maxMessageBytes - 1 := by
  have hmax : 0 < maxMessageBytes := by decide
  simp only [writeDocument, bind_ok, ensure_ok_iff, size_serializeMessage]
  constructor
  · rintro ⟨_, _, hsize, -⟩
    omega
  · intro hle
    exact ⟨_, (), by omega, rfl⟩

section Oversized

variable (messageId : MessageId)

theorem surplusOf_oversized : surplusOf (replyMessage messageId oversized) = 0 := by
  simp only [replyMessage, oversized, failedReply, ActorExecutorReply.toJs, tagged, List.map_cons,
    List.map_nil, surplusOf, surplusFields, jsNat]
  decide +kernel

/-- A message identifier has at most sixteen digits. -/
theorem estimate_oversized : estimate (replyMessage messageId oversized) ≤ maxMessageBytes - 1 := by
  have hdigits : (Number.ofNat messageId.id).text.length ≤ 16 :=
    (Nat.length_toDigits_le_iff (by decide) (by decide)).mpr (messageId.safe.trans_le (by decide))
  simp only [replyMessage, oversized, failedReply, ActorExecutorReply.toJs, tagged, List.map_cons,
    List.map_nil, estimate, estimateFields, jsNat]
  generalize (Number.ofNat messageId.id).text.length = n at hdigits ⊢
  revert n
  decide +kernel

theorem oversized_fits :
    jsonFitsWithinBytes (replyMessage messageId oversized) (maxMessageBytes - 1) = true := by
  have hnesting : nesting (replyMessage messageId oversized) ≤ 256 := by
    simp only [replyMessage, oversized, failedReply, ActorExecutorReply.toJs, tagged, List.map_cons,
      List.map_nil, nesting, nestingFields, jsNat]
    decide
  exact (jsonFitsWithinBytes_iff hnesting _).mpr (estimate_oversized messageId)

theorem textBytes_oversized : textBytes (replyMessage messageId oversized) ≤ maxMessageBytes - 1 := by
  have hestimate := estimate_eq (replyMessage messageId oversized)
  rw [surplusOf_oversized] at hestimate
  have := estimate_oversized messageId
  omega

end Oversized

/-- The reply is written, and as `resource_exhausted` exactly if it is over the limit. -/
structure SizedReply (messageId : MessageId) (reply : ActorExecutorReply) : Prop where
  written : ∃ frame, sessionReply messageId reply = .ok frame
  sent : sentReply messageId reply =
    if textBytes (replyMessage messageId reply) ≤ maxMessageBytes - 1 then reply else oversized

theorem sizedReply_iff {messageId : MessageId} {reply : ActorExecutorReply}
    (hnesting : nesting (replyMessage messageId reply) ≤ 256) :
    SizedReply messageId reply ↔ Unaffected (replyMessage messageId reply) (maxMessageBytes - 1) := by
  rw [← jsonFitsWithinBytes_exact_iff hnesting]
  by_cases hfits : jsonFitsWithinBytes (replyMessage messageId reply) (maxMessageBytes - 1) = true
  · -- sent as it is: right unless the text is too long for `write`
    have hsent : sentReply messageId reply = reply := by rw [sentReply, if_pos hfits]
    rw [iff_true_left hfits]
    constructor
    · intro h
      have hwritten := h.written
      rw [sessionReply, hsent] at hwritten
      exact (writeDocument_message _).mp hwritten
    · intro hle
      refine ⟨?_, by rw [hsent, if_pos hle]⟩
      rw [sessionReply, hsent]
      exact (writeDocument_message _).mpr hle
  · -- replaced: right unless the text would have fitted
    have hsent : sentReply messageId reply = oversized := by rw [sentReply, if_neg hfits]
    rw [iff_false_left hfits]
    constructor
    · intro h hle
      have hreply := h.sent
      rw [hsent, if_pos hle] at hreply
      rw [← hreply] at hfits
      exact hfits (oversized_fits messageId)
    · intro hover
      refine ⟨?_, by rw [hsent, if_neg hover]⟩
      rw [sessionReply, hsent]
      exact (writeDocument_message _).mpr (textBytes_oversized messageId)

/-- The estimate is exact, and the session answers accordingly, unless the limit lies between the length of
the text and that length with the surplus of the strings. -/
theorem size_estimate_exact_iff (v : JsTree) (maxBytes : ℕ) (messageId : MessageId)
    (reply : ActorExecutorReply) (hv : nesting v ≤ 256)
    (hnesting : nesting (replyMessage messageId reply) ≤ 256) :
    ((jsonFitsWithinBytes v maxBytes = true ↔ textBytes v ≤ maxBytes) ↔ Unaffected v maxBytes) ∧
      (SizedReply messageId reply ↔ Unaffected (replyMessage messageId reply) (maxMessageBytes - 1)) :=
  ⟨jsonFitsWithinBytes_exact_iff hv maxBytes, sizedReply_iff hnesting⟩

theorem size_estimate_exact_ascii : nesting (.str (ascii "hello")) ≤ 256 ∧
    nesting (replyMessage ⟨1, by decide⟩ .evicted) ≤ 256 ∧
    ((jsonFitsWithinBytes (.str (ascii "hello")) 7 = true ↔ textBytes (.str (ascii "hello")) ≤ 7) ↔
      Unaffected (.str (ascii "hello")) 7) :=
  ⟨by decide, by decide, (size_estimate_exact_iff _ _ ⟨1, by decide⟩ .evicted (by decide) (by decide)).1⟩

/-- One character of three bytes is counted as four. -/
theorem three_byte_characters_misjudged :
    ¬ ∀ (v : JsTree) (maxBytes : ℕ), nesting v ≤ 256 →
    (jsonFitsWithinBytes v maxBytes = true ↔ textBytes v ≤ maxBytes) := by
  intro h
  have hone := (h (.str [0x4e2d]) 5 (by decide)).mpr (by decide +kernel)
  exact absurd hone (by decide +kernel)

end LDO
