import DurableObjects.Sanity.Strings

/-! Every reply a session writes, and when the host can decode it. The size limits of
both sides agree and the frame is always one line; what they do not agree on is
strings, depth and numbers. -/

namespace LDO

open Json

variable {serde : SerdeJson}

/-- The host reads the frame as this reply to this message, and the stream goes on after it. -/
def Decodes (serde : SerdeJson) (messageId : MessageId) (reply : ActorExecutorReply)
    (frame : ByteArray) : Prop :=
  ∀ rest, ∃ reply', readClientMessage serde (frame.data.toList ++ rest) =
    .ok (some (.reply messageId.id reply', rest)) ∧ reply.Same reply'

/-- What `serde_json` can read, and reads without loss. -/
structure Decodable (serde : SerdeJson) (message : JsTree) : Prop where
  depth : depth message ≤ serde.maxDepth
  strings : AllStrings WellFormed message
  numbers : AllNumbers serde.Exact message

theorem MessageId.le_u64Max (messageId : MessageId) : messageId.id ≤ u64Max := by
  have hsafe := messageId.safe
  exact (le_of_lt hsafe).trans (by decide)

theorem replyMessage_read {messageId : MessageId} {reply : ActorExecutorReply} {d : ℕ} {t : Value}
    (h : readBack jsWriter serde.toReader d (replyMessage messageId reply) = some t) :
    ∃ reply', ActorExecutorClientMessage.ofJson t = some (.reply messageId.id reply') ∧
      (reply.Same reply' ↔ AllNumbers serde.Exact (replyMessage messageId reply)) := by
  obtain ⟨d', fs, rfl, hfs⟩ := readBack_tagged (by simp only [List.map_cons, List.map_nil]; decide) h
  simp only [readFields_cons, readFields_nil] at hfs
  obtain ⟨t₁, _, h₁, ⟨t₂, _, h₂, rfl, rfl⟩, rfl⟩ := hfs
  obtain rfl := readBack_nat messageId.le_u64Max h₁
  obtain ⟨reply', hreply, hsame⟩ := ActorExecutorReply.read h₂
  refine ⟨reply', ?_, ?_⟩
  · simp [ActorExecutorClientMessage.ofJson, asTagged, field, asString, asU64,
      asU64_ofNat messageId.le_u64Max, hreply]
  · simp [hsame, replyMessage, allNumbers_tagged, allNumbers_nat messageId.le_u64Max]

theorem wellFormed_eq : (fun s => (jsWriter.text s).isSome = true) = WellFormed :=
  funext fun _ => propext textOfUnits_isSome

theorem decodeFrame_ok {message : JsTree} {decoded : ActorExecutorClientMessage} :
    decodeFrame serde message = .ok decoded ↔
      ∃ t, readBack jsWriter serde.toReader serde.maxDepth message = some t ∧
        ActorExecutorClientMessage.ofJson t = some decoded := by
  rw [decodeFrame]
  cases readBack jsWriter serde.toReader serde.maxDepth message with
  | none => simp [orContext]
  | some t =>
    rw [Option.bind_some]
    cases hjson : ActorExecutorClientMessage.ofJson t <;> simp [orContext, hjson]

theorem decodeFrame_replyMessage {messageId : MessageId} {reply : ActorExecutorReply} :
    (∃ reply', decodeFrame serde (replyMessage messageId reply) = .ok (.reply messageId.id reply') ∧
      reply.Same reply') ↔ Decodable serde (replyMessage messageId reply) := by
  have hsome := readBack_isSome (W := jsWriter) (R := serde.toReader) (v := replyMessage messageId reply)
    (d := serde.maxDepth)
  rw [wellFormed_eq] at hsome
  constructor
  · rintro ⟨reply', hdecode, hsame⟩
    obtain ⟨t, hread, hjson⟩ := decodeFrame_ok.mp hdecode
    obtain ⟨hdepth, hstrings, -⟩ := hsome.mp (by rw [hread]; rfl)
    obtain ⟨reply₀, hjson₀, hiff⟩ := replyMessage_read hread
    obtain rfl : reply₀ = reply' := by
      rw [hjson, Option.some.injEq] at hjson₀
      cases hjson₀
      rfl
    exact ⟨hdepth, hstrings, hiff.mp hsame⟩
  · intro h
    have hnumbers := h.numbers.imp fun _ hn => Exact.isSome hn
    obtain ⟨t, hread⟩ := Option.isSome_iff_exists.mp (hsome.mpr ⟨h.depth, h.strings, hnumbers⟩)
    obtain ⟨reply', hjson, hiff⟩ := replyMessage_read hread
    exact ⟨reply', decodeFrame_ok.mpr ⟨t, hread, hjson⟩, hiff.mpr h.numbers⟩

theorem replyMessage_obj (messageId : MessageId) (reply : ActorExecutorReply) :
    ∃ fs, replyMessage messageId reply = .obj fs := ⟨_, rfl⟩

theorem map_rest_ok {decoded : Result ActorExecutorClientMessage} {message : ActorExecutorClientMessage}
    {rest : List UInt8} : (decoded.map fun m => some (m, rest)) = .ok (some (message, rest)) ↔ decoded = .ok message := by
  cases decoded <;> simp [Except.map]

/-- A document that was written is decoded exactly when `serde_json` can read it. -/
theorem decodes_iff {messageId : MessageId} {reply : ActorExecutorReply}
    (hsize : (serializeMessage (replyMessage messageId reply)).size ≤ maxMessageBytes) :
    Decodes serde messageId reply (serializeMessage (replyMessage messageId reply)) ↔
      Decodable serde (replyMessage messageId reply) := by
  rw [← decodeFrame_replyMessage, Decodes]
  obtain ⟨fs, hfs⟩ := replyMessage_obj messageId reply
  rw [hfs] at hsize ⊢
  simp only [readClientMessage_frame hsize, map_rest_ok]
  exact ⟨fun h => h [], fun h _ => h⟩

theorem IsAscii.append {s t : String} (hs : IsAscii s) (ht : IsAscii t) : IsAscii (s ++ t) := by
  intro c hc
  rw [String.toList_append, List.mem_append] at hc
  exact hc.elim (hs c) (ht c)

theorem isAscii_toString (n : ℕ) : IsAscii (toString n) := by
  intro c hc
  have hdigit := Nat.isDigit_of_mem_toDigits (by decide) (by decide) (String.toList_ofList ▸ hc)
  simp only [Char.isDigit, Bool.and_eq_true, decide_eq_true_eq] at hdigit
  have hle : c.toNat ≤ 57 := UInt32.le_iff_toNat_le.mp hdigit.2
  omega

theorem allStrings_tagged {tag : String} {fields : List (String × JsTree)}
    (hkeys : ∀ k ∈ tag :: fields.map Prod.fst, IsAscii k) :
    AllStrings WellFormed (tagged tag fields) ↔ ∀ f ∈ fields, AllStrings WellFormed f.2 := by
  have hfields : AllStringsFields WellFormed (fields.map fun f => (ascii f.1, f.2)) ↔
      ∀ f ∈ fields, AllStrings WellFormed f.2 := by
    replace hkeys : ∀ f ∈ fields, WellFormed (ascii f.1) := fun f hf =>
      wellFormed_ascii (hkeys _ (List.mem_cons_of_mem _ (List.mem_map_of_mem hf)))
    induction fields with
    | nil => simp [AllStringsFields]
    | cons f fields ih =>
      have hrest := ih fun f hf => hkeys f (List.mem_cons_of_mem _ hf)
      simp [AllStringsFields, hrest, hkeys f (by simp)]
  have htype : WellFormed (ascii "type") := wellFormed_ascii (by decide)
  simp [tagged, AllStrings, AllStringsFields, hfields, htype, wellFormed_ascii (hkeys tag (by simp))]

/-- The reply that replaces an oversized one can always be read. -/
theorem oversized_decodable (messageId : MessageId) (hdepth : 2 ≤ serde.maxDepth) :
    Decodable serde (replyMessage messageId oversized) := by
  have hcode : WellFormed (ascii "resource_exhausted") := wellFormed_ascii (by decide)
  have hstart : IsAscii "actor session response exceeds " := by decide
  have hmessage : WellFormed (ascii ("actor session response exceeds " ++ toString maxMessageBytes ++ " bytes")) :=
    wellFormed_ascii ((hstart.append (isAscii_toString _)).append (by decide))
  refine ⟨?_, ?_, ?_⟩
  · simpa [replyMessage, oversized, failedReply, ActorExecutorReply.toJs, tagged, jsNat, Json.depth, depthFields]
      using hdepth
  · rw [replyMessage, allStrings_tagged (by simp only [List.map_cons, List.map_nil]; decide)]
    simp only [List.mem_cons, List.not_mem_nil, or_false, forall_eq_or_imp, forall_eq]
    refine ⟨trivial, ?_⟩
    rw [oversized, failedReply, ActorExecutorReply.toJs,
      allStrings_tagged (by simp only [List.map_cons, List.map_nil]; decide)]
    simp only [List.mem_cons, List.not_mem_nil, or_false, forall_eq_or_imp, forall_eq]
    exact ⟨hcode, hmessage⟩
  · simp [replyMessage, oversized, failedReply, ActorExecutorReply.toJs, allNumbers_tagged, AllNumbers,
      allNumbers_nat messageId.le_u64Max]

theorem writeDocument_ok {document frame : ByteArray} (h : writeDocument document = .ok frame) :
    frame = document ∧ document.size ≤ maxMessageBytes := by
  simp only [writeDocument, bind_ok, ensure_ok_iff] at h
  obtain ⟨-, hsize, h⟩ := h
  cases h
  exact ⟨rfl, hsize⟩

theorem writeDocument_of_le {document : ByteArray} (h : document.size ≤ maxMessageBytes) :
    writeDocument document = .ok document := by
  simp only [writeDocument, bind_ok, ensure_ok_iff]
  exact ⟨(), h, rfl⟩

/-- A frame is decoded to the reply it was written for exactly when that reply, if it
fits, is one `serde_json` reads without loss. -/
theorem reply_decoded_iff (hdepth : 2 ≤ serde.maxDepth) {messageId : MessageId} {reply : ActorExecutorReply}
    {frame : ByteArray} (hframe : sessionReply messageId reply = .ok frame) :
    Decodes serde messageId (sentReply messageId reply) frame ↔
      (jsonFitsWithinBytes (replyMessage messageId reply) (maxMessageBytes - 1) = true →
        Decodable serde (replyMessage messageId reply)) := by
  obtain ⟨rfl, hsize⟩ := writeDocument_ok hframe
  rw [decodes_iff hsize]
  by_cases hfits : jsonFitsWithinBytes (replyMessage messageId reply) (maxMessageBytes - 1) = true
  · simp [sentReply, hfits]
  · simp [sentReply, hfits, oversized_decodable messageId hdepth]

/-- A counter that answers its count and greets a connection. -/
def greeted : ActorExecutorReply :=
  .invoked ⟨.num ⟨"1.5".toList, by decide⟩, trivial⟩ ⟨[(ascii "count", jsNat 2)], by decide, trivial, trivial⟩
    [.send (ascii "connection-1") (.text [0xd83d, 0xde00])]

theorem literalSerde_exact (n : Number) : literalSerde.Exact n := ⟨n, by simp [literalSerde, n.literal], rfl⟩

theorem greeted_decodable : Decodable literalSerde (replyMessage ⟨1, by decide⟩ greeted) := by
  have hread : (readBack jsWriter literalSerde.toReader literalSerde.maxDepth
      (replyMessage ⟨1, by decide⟩ greeted)).isSome := by decide +kernel
  obtain ⟨hdepth, hstrings, hnumbers⟩ := readBack_isSome.mp hread
  rw [wellFormed_eq] at hstrings
  exact ⟨hdepth, hstrings, hnumbers.imp fun n _ => literalSerde_exact n⟩

theorem reply_decoded_greeted : ∃ frame, sessionReply ⟨1, by decide⟩ greeted = .ok frame ∧
    Decodes literalSerde ⟨1, by decide⟩ (sentReply ⟨1, by decide⟩ greeted) frame := by
  have hsize : (serializeMessage (replyMessage ⟨1, by decide⟩ (sentReply ⟨1, by decide⟩ greeted))).size ≤
      maxMessageBytes := by decide +kernel
  have hframe := writeDocument_of_le hsize
  exact ⟨_, hframe, (reply_decoded_iff (by decide) hframe).mpr fun _ => greeted_decodable⟩

/-- An actor that returns half of a surrogate pair. -/
def halfPair : ActorExecutorReply := .invoked ⟨.str [0xd800], trivial⟩ ⟨[], by decide, trivial⟩ []

theorem unpaired_surrogate_not_decoded : ∃ frame, sessionReply ⟨1, by decide⟩ halfPair = .ok frame ∧
    sentReply ⟨1, by decide⟩ halfPair = halfPair ∧
    readClientMessage literalSerde frame.data.toList = .error (.new "decode customer actor executor message") ∧
    ¬ Decodes literalSerde ⟨1, by decide⟩ halfPair frame := by
  have hfits : jsonFitsWithinBytes (replyMessage ⟨1, by decide⟩ halfPair) (maxMessageBytes - 1) = true := by
    decide +kernel
  have hsent : sentReply ⟨1, by decide⟩ halfPair = halfPair := by rw [sentReply, if_pos hfits]
  have hsize : (serializeMessage (replyMessage ⟨1, by decide⟩ halfPair)).size ≤ maxMessageBytes := by
    decide +kernel
  have hread : readClientMessage literalSerde
      (serializeMessage (replyMessage ⟨1, by decide⟩ halfPair)).data.toList =
        .error (.new "decode customer actor executor message") := by decide +kernel
  refine ⟨serializeMessage (replyMessage ⟨1, by decide⟩ halfPair), ?_, hsent, hread, fun h => ?_⟩
  · rw [sessionReply, hsent, writeDocument_of_le hsize]
  · obtain ⟨reply', hok, -⟩ := h []
    rw [List.append_nil, hread] at hok
    cases hok

end LDO
