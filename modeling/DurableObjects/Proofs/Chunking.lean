import Mathlib.Data.List.DropRight
import Mathlib.Data.List.Induction
import DurableObjects.Spec.SessionStream

/-! How the chunks of a stream decide whether its documents arrive. The size is checked
before the documents are taken out of the buffer, so a chunk that completes a document
and brings the beginning of the next one is measured with both. -/

namespace LDO

open Json Utf8

/-- The documents as they are written, each with its newline. -/
def lines (documents : List (List Char)) : List Char := documents.flatMap (· ++ ['\n'])

/-! ### The loop -/

theorem takeDocuments_of_not_mem {buffer : List Char} (h : '\n' ∉ buffer) :
    takeDocuments buffer = ([], buffer) := by
  rw [takeDocuments, dif_neg h]

theorem takeDocuments_nil : takeDocuments [] = ([], []) := takeDocuments_of_not_mem (by simp)

theorem takeDocuments_cons {document rest : List Char} (h : '\n' ∉ document) :
    takeDocuments (document ++ '\n' :: rest) =
      (document :: (takeDocuments rest).1, (takeDocuments rest).2) := by
  have hidx : (document ++ '\n' :: rest).idxOf '\n' = document.length := by
    rw [List.idxOf_append_of_notMem h, List.idxOf_cons_self, Nat.add_zero]
  have hdrop : (document ++ '\n' :: rest).drop (document.length + 1) = rest := by
    simp [List.drop_append]
  rw [takeDocuments, dif_pos (by simp)]
  simp only [hidx, hdrop, List.take_left']

/-- Every text is a list of documents and a rest without newline. -/
theorem exists_lines (text : List Char) :
    ∃ documents rest, text = lines documents ++ rest ∧ (∀ d ∈ documents, '\n' ∉ d) ∧ '\n' ∉ rest := by
  induction text with
  | nil => exact ⟨[], [], rfl, by simp, by simp⟩
  | cons c text ih =>
    obtain ⟨documents, rest, rfl, hdocuments, hrest⟩ := ih
    by_cases hc : c = '\n'
    · subst hc
      refine ⟨[] :: documents, rest, by simp [lines], fun d hd => ?_, hrest⟩
      rcases List.mem_cons.mp hd with rfl | hd
      · simp
      · exact hdocuments d hd
    · cases documents with
      | nil => exact ⟨[], c :: rest, by simp [lines], by simp, by simp [Ne.symm hc, hrest]⟩
      | cons first documents =>
        refine ⟨(c :: first) :: documents, rest, by simp [lines], fun d hd => ?_, hrest⟩
        rcases List.mem_cons.mp hd with rfl | hd
        · simp [Ne.symm hc, hdocuments first (by simp)]
        · exact hdocuments d (by simp [hd])

theorem takeDocuments_lines {documents : List (List Char)} (text : List Char)
    (h : ∀ d ∈ documents, '\n' ∉ d) :
    takeDocuments (lines documents ++ text) =
      (documents ++ (takeDocuments text).1, (takeDocuments text).2) := by
  induction documents with
  | nil => rfl
  | cons d documents ih =>
    have hsplit : lines (d :: documents) ++ text = d ++ '\n' :: (lines documents ++ text) := by simp [lines]
    rw [hsplit, takeDocuments_cons (h d (by simp)), ih fun d hd => h d (by simp [hd])]
    rfl

/-- Taking documents as they come is the same as taking them at the end. -/
theorem takeDocuments_append (text more : List Char) : takeDocuments (text ++ more) =
    ((takeDocuments text).1 ++ (takeDocuments ((takeDocuments text).2 ++ more)).1,
      (takeDocuments ((takeDocuments text).2 ++ more)).2) := by
  obtain ⟨documents, rest, rfl, hdocuments, hrest⟩ := exists_lines text
  rw [List.append_assoc, takeDocuments_lines _ hdocuments, takeDocuments_lines _ hdocuments,
    takeDocuments_of_not_mem hrest]
  simp

/-! ### One chunk -/

/-- The chunk `c` after the chunks `before`: the text up to its end reaches at most one
message beyond the last newline that came before it. -/
def Fits (before : List (List UInt8)) (c : List UInt8) : Prop :=
  byteLength (decode (before.flatten ++ c)) ≤
    byteLength ((decode before.flatten).rdropWhile (· ≠ '\n')) + maxMessageBytes

/-- The bytes `bs` have been received and no size was exceeded. -/
structure Received (bs : List UInt8) (s : SessionStream) : Prop where
  decoder : s.decoder = (Decoder.idle.feed bs).1
  handled : s.handled = (takeDocuments (decode bs)).1
  buffer : s.buffer = (takeDocuments (decode bs)).2
  going : s.failed = false
  bounded : byteLength s.buffer ≤ maxMessageBytes

theorem decode_append (bs c : List UInt8) :
    decode (bs ++ c) = decode bs ++ ((Decoder.idle.feed bs).1.feed c).2 := by
  rw [decode, Decoder.feed_append]
  rfl

theorem rdropWhile_lines {documents : List (List Char)} {rest : List Char} (hrest : '\n' ∉ rest) :
    (lines documents ++ rest).rdropWhile (· ≠ '\n') = lines documents := by
  induction rest using List.reverseRecOn with
  | nil =>
    rcases List.eq_nil_or_concat documents with rfl | ⟨documents, d, rfl⟩
    · rfl
    · have hends : lines (documents.concat d) = lines documents ++ d ++ ['\n'] := by simp [lines]
      rw [List.append_nil, hends, List.rdropWhile_concat_neg _ _ _ (by simp)]
  | append_singleton rest c ih =>
    simp only [List.mem_append, List.mem_singleton, not_or] at hrest
    rw [← List.append_assoc, List.rdropWhile_concat_pos _ _ _ (by simp [Ne.symm hrest.2])]
    exact ih hrest.1

/-- What is in the buffer when it is measured. -/
theorem fits_iff (before : List (List UInt8)) (c : List UInt8) : Fits before c ↔
    byteLength ((takeDocuments (decode before.flatten)).2 ++ ((Decoder.idle.feed before.flatten).1.feed c).2) ≤
      maxMessageBytes := by
  obtain ⟨documents, rest, htext, hdocuments, hrest⟩ := exists_lines (decode before.flatten)
  have htaken : (takeDocuments (decode before.flatten)).2 = rest := by
    rw [htext, takeDocuments_lines _ hdocuments, takeDocuments_of_not_mem hrest]
  rw [Fits, decode_append, htaken, htext, rdropWhile_lines hrest]
  simp only [byteLength_append]
  omega

theorem Received.receive {before : List (List UInt8)} {c : List UInt8} {s : SessionStream}
    (h : Received before.flatten s) (hfits : Fits before c) :
    Received (before ++ [c]).flatten (s.receive c) := by
  rw [fits_iff] at hfits
  have hflatten : (before ++ [c]).flatten = before.flatten ++ c := by simp
  have htext := decode_append before.flatten c
  have hdecoder : ((Decoder.idle.feed before.flatten).1.feed c).1 =
      (Decoder.idle.feed (before.flatten ++ c)).1 := by
    rw [Decoder.feed_append]
  rw [hflatten]
  unfold SessionStream.receive
  simp only [h.going, h.decoder, Bool.false_eq_true, if_false]
  split_ifs with hempty
  · rw [hempty, List.append_nil] at htext
    exact ⟨hdecoder, by rw [htext]; exact h.handled, by rw [htext]; exact h.buffer, rfl, h.bounded⟩
  · have htaken := takeDocuments_append (decode before.flatten) ((Decoder.idle.feed before.flatten).1.feed c).2
    rw [← htext] at htaken
    have hsmall : ¬ maxMessageBytes <
        byteLength ((takeDocuments (decode before.flatten)).2 ++ ((Decoder.idle.feed before.flatten).1.feed c).2) := by
      omega
    simp only [SessionStream.acceptChunk, h.buffer, hsmall, if_false]
    refine ⟨hdecoder, by rw [h.handled, htaken], by rw [htaken], rfl, ?_⟩
    obtain ⟨documents, rest, hbuffer, hdocuments, hrest⟩ :=
      exists_lines ((takeDocuments (decode before.flatten)).2 ++ ((Decoder.idle.feed before.flatten).1.feed c).2)
    rw [hbuffer, byteLength_append] at hfits
    rw [hbuffer, takeDocuments_lines _ hdocuments, takeDocuments_of_not_mem hrest]
    dsimp only
    omega

theorem Received.receive_fails {before : List (List UInt8)} {c : List UInt8} {s : SessionStream}
    (h : Received before.flatten s) (hfits : ¬ Fits before c) : (s.receive c).failed = true := by
  rw [fits_iff, not_le] at hfits
  have hnonempty : ((Decoder.idle.feed before.flatten).1.feed c).2 ≠ [] := by
    intro hempty
    rw [hempty, List.append_nil, ← h.buffer] at hfits
    have := h.bounded
    omega
  unfold SessionStream.receive
  simp only [h.going, h.decoder, Bool.false_eq_true, if_false, hnonempty, SessionStream.acceptChunk,
    h.buffer, hfits, if_true]

/-! ### All chunks -/

/-- Every chunk fits after those before it. -/
def AllFit (chunks : List (List UInt8)) : Prop := ∀ before c, before ++ [c] <+: chunks → Fits before c

theorem allFit_concat {chunks : List (List UInt8)} {c : List UInt8} :
    AllFit (chunks ++ [c]) ↔ AllFit chunks ∧ Fits chunks c := by
  constructor
  · intro h
    exact ⟨fun before c' hc' => h before c' (hc'.trans (List.prefix_append _ _)),
      h chunks c (List.prefix_refl _)⟩
  · rintro ⟨hall, hfits⟩ before c' hc'
    rcases List.prefix_concat_iff.mp hc' with heq | hc'
    · obtain ⟨rfl, hcs⟩ := List.append_inj' heq rfl
      cases hcs
      exact hfits
    · exact hall before c' hc'

theorem receiveAll_spec (chunks : List (List UInt8)) :
    (AllFit chunks → Received chunks.flatten (SessionStream.receiveAll chunks)) ∧
      (¬ AllFit chunks → (SessionStream.receiveAll chunks).failed = true) := by
  induction chunks using List.reverseRecOn with
  | nil =>
    refine ⟨fun _ => ⟨rfl, ?_, ?_, rfl, Nat.zero_le _⟩, fun h => absurd (fun _ _ hc => by simp at hc) h⟩
    · exact (congrArg Prod.fst takeDocuments_nil).symm
    · exact (congrArg Prod.snd takeDocuments_nil).symm
  | append_singleton chunks c ih =>
    have hreceive : SessionStream.receiveAll (chunks ++ [c]) = (SessionStream.receiveAll chunks).receive c := by
      simp [SessionStream.receiveAll]
    rw [allFit_concat, hreceive]
    refine ⟨fun h => (ih.1 h.1).receive h.2, fun h => ?_⟩
    by_cases hall : AllFit chunks
    · exact (ih.1 hall).receive_fails fun hfits => h ⟨hall, hfits⟩
    · simp [SessionStream.receive, ih.2 hall]

/-- What is asked of the reader. -/
structure Delivered (documents : List (List Char)) (s : SessionStream) : Prop where
  handled : s.handled = documents
  accepted : s.failed = false
  empty : s.buffer = []

/-- The documents arrive exactly if every chunk fits. -/
theorem delivered_iff {documents : List (List Char)} {chunks : List (List UInt8)}
    (hlines : ∀ d ∈ documents, '\n' ∉ d) (hchunks : chunks.flatten = utf8Bytes (lines documents)) :
    Delivered documents (SessionStream.receiveAll chunks) ↔ AllFit chunks := by
  obtain ⟨hreceives, hfails⟩ := receiveAll_spec chunks
  constructor
  · intro h
    by_contra hall
    have := hfails hall
    rw [h.accepted] at this
    cases this
  · intro hall
    have hreceived := hreceives hall
    have htext : decode chunks.flatten = lines documents := by rw [hchunks, decode, feed_utf8Bytes]
    have htaken : takeDocuments (lines documents) = (documents, []) := by
      have := takeDocuments_lines [] hlines
      rwa [takeDocuments_nil, List.append_nil, List.append_nil] at this
    exact ⟨by rw [hreceived.handled, htext, htaken], hreceived.going, by rw [hreceived.buffer, htext, htaken]⟩

/-- A stream that is no longer than one message always fits. -/
theorem allFit_of_le {chunks : List (List UInt8)} (h : byteLength (decode chunks.flatten) ≤ maxMessageBytes) :
    AllFit chunks := by
  rintro before c ⟨after, rfl⟩
  have hflatten : (before ++ [c] ++ after).flatten = before.flatten ++ c ++ after.flatten := by simp
  rw [hflatten, decode_append, byteLength_append] at h
  unfold Fits
  omega

/-- A character that arrives in two chunks. -/
theorem delivered_split : AllFit [[0xc3], [0xa9, 0x0a]] ∧
    Delivered [['é']] (SessionStream.receiveAll [[0xc3], [0xa9, 0x0a]]) := by
  have hall : AllFit [[0xc3], [0xa9, 0x0a]] := allFit_of_le (by decide)
  exact ⟨hall, (delivered_iff (by decide) (by decide)).mpr hall⟩

/-- Two documents, of which the first has the size of the largest message. -/
def pipelined : List (List Char) := [List.replicate (maxMessageBytes - 1) 'a', ['\x7b', '\x7d']]

/-- The newline of the first document comes with the second. -/
def pipelinedChunks : List (List UInt8) :=
  [utf8Bytes (List.replicate (maxMessageBytes - 1) 'a'), utf8Bytes ['\n', '\x7b', '\x7d', '\n']]

theorem byteLength_replicate (n : ℕ) : byteLength (List.replicate n 'a') = n := by
  induction n with
  | zero => rfl
  | succ n ih =>
    rw [List.replicate_succ', byteLength_append, ih]
    rfl

theorem pipelined_size : ∀ d ∈ pipelined, '\n' ∉ d ∧ byteLength d + 1 ≤ maxMessageBytes := by
  intro d hd
  rcases List.mem_cons.mp hd with rfl | hd
  · rw [byteLength_replicate]
    exact ⟨fun hmem => absurd (List.eq_of_mem_replicate hmem) (by decide), by decide⟩
  · cases List.mem_singleton.mp hd
    decide

theorem pipelined_not_delivered : ¬ ∀ (documents : List (List Char)) (chunks : List (List UInt8)),
    (∀ d ∈ documents, '\n' ∉ d ∧ byteLength d + 1 ≤ maxMessageBytes) →
    chunks.flatten = utf8Bytes (lines documents) →
    Delivered documents (SessionStream.receiveAll chunks) := by
  intro h
  have hchunks : pipelinedChunks.flatten = utf8Bytes (lines pipelined) := by
    simp [pipelinedChunks, pipelined, utf8Bytes, lines]
  have hall := (delivered_iff (fun d hd => (pipelined_size d hd).1) hchunks).mp
    (h pipelined pipelinedChunks pipelined_size hchunks)
  have hfits := hall [utf8Bytes (List.replicate (maxMessageBytes - 1) 'a')] _ (List.prefix_refl _)
  have hbefore : decode [utf8Bytes (List.replicate (maxMessageBytes - 1) 'a')].flatten =
      lines [] ++ List.replicate (maxMessageBytes - 1) 'a' := by
    rw [List.flatten_singleton, decode, feed_utf8Bytes]
    rfl
  have hdocument : '\n' ∉ List.replicate (maxMessageBytes - 1) 'a' := (pipelined_size _ (by simp [pipelined])).1
  rw [Fits, decode_append, hbefore, rdropWhile_lines hdocument, List.flatten_singleton,
    feed_utf8Bytes, feed_utf8Bytes,
    byteLength_append, byteLength_append, byteLength_replicate] at hfits
  have hmax : 0 < maxMessageBytes := by decide
  have hlines : byteLength (lines []) = 0 := rfl
  have hrest : byteLength ['\n', '\x7b', '\x7d', '\n'] = 4 := by decide
  dsimp only at hfits
  omega

end LDO
