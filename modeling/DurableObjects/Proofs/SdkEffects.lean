import DurableObjects.Sanity.SocketEffects

/-! Whether the host and a workflow take the effects that a turn has recorded. The limits are written
three times, and what the socket calls check is less than what the others ask: each call has its own
condition, and a list of effects is accepted exactly if every call that recorded one met it. -/

namespace LDO

open Json

variable {serde : SerdeJson} {parser : JsonParse} {d p : ℕ}

/-! ### What is accepted -/

/-- The effects as the host decodes them out of a reply, two brackets deep. -/
def decodeEffects (serde : SerdeJson) (effects : List SocketEffect) : Option (List ActorSocketEffect) :=
  (Json.readBack jsWriter serde.toReader (serde.maxDepth - 2) (effectsToJs effects)).bind (asList ActorSocketEffect.ofJson)

/-- The host decodes and takes the effects, and a workflow that gets them back does too. -/
def EffectsAccepted (serde : SerdeJson) (parser : JsonParse) (effects : List SocketEffect) : Prop :=
  ∃ effects', decodeEffects serde effects = some effects' ∧ validateSocketEffects effects' = .ok () ∧
    (jsonParse parser (toVec (.arr (effects'.map ActorSocketEffect.toJson)))).any parseSocketEffects = true

/-- The effects of a reply; only two kinds have any. -/
def ActorExecutorReply.effects : ActorExecutorReply → List SocketEffect
  | .invoked _ _ effects => effects
  | .websocketHandled _ effects => effects
  | _ => []

def ExecutorReply.effects : ExecutorReply → List ActorSocketEffect
  | .invoked _ _ effects => effects
  | .websocketHandled _ effects => effects
  | _ => []

theorem decodeEffects_nil (h : 3 ≤ serde.maxDepth) : decodeEffects serde [] = some [] := by
  obtain ⟨d, hd⟩ : ∃ d, serde.maxDepth - 2 = d + 1 := ⟨serde.maxDepth - 3, by omega⟩
  rw [decodeEffects, hd]
  rfl

theorem reply_effects {reply : ActorExecutorReply} {reply' : ExecutorReply} (h : 3 ≤ serde.maxDepth)
    (hread : (Json.readBack jsWriter serde.toReader (serde.maxDepth - 1) reply.toJs).bind ExecutorReply.ofJson = some reply') :
    decodeEffects serde reply.effects = some reply'.effects := by
  obtain ⟨d, hd⟩ : ∃ d, serde.maxDepth = d + 3 := ⟨serde.maxDepth - 3, by omega⟩
  have houter : serde.maxDepth - 1 = d + 1 + 1 := by omega
  have hinner : serde.maxDepth - 2 = d + 1 := by omega
  rw [houter] at hread
  cases reply with
  | stateRequired =>
    rw [ActorExecutorReply.toJs, readBack_tagged_eq (d + 1) (by decide)] at hread
    simp [taggedJson, ExecutorReply.ofJson, asTagged, field, asString, ExecutorReply.ofFields] at hread
    subst hread
    exact decodeEffects_nil h
  | evicted =>
    rw [ActorExecutorReply.toJs, readBack_tagged_eq (d + 1) (by decide)] at hread
    simp [taggedJson, ExecutorReply.ofJson, asTagged, field, asString, ExecutorReply.ofFields] at hread
    subst hread
    exact decodeEffects_nil h
  | failed code message =>
    rw [ActorExecutorReply.toJs, readBack_tagged_eq (d + 1) (by simp only [List.map_cons, List.map_nil]; decide)] at hread
    obtain ⟨_, hdocument, hreply⟩ := Option.bind_eq_some_iff.mp hread
    obtain ⟨fs, hfs, rfl⟩ := Option.map_eq_some_iff.mp hdocument
    simp only [mapM_some_iff, List.forall₂_cons_left_iff, List.forall₂_nil_left_iff,
      Option.map_eq_some_iff] at hfs
    obtain ⟨_, _, ⟨code', hcode, rfl⟩, ⟨_, _, ⟨message', hmessage, rfl⟩, rfl, rfl⟩, rfl⟩ := hfs
    simp [taggedJson, ExecutorReply.ofJson, asTagged, field, asString, ExecutorReply.ofFields,
      Option.bind_eq_some_iff] at hreply
    obtain ⟨_, -, _, -, rfl⟩ := hreply
    exact decodeEffects_nil h
  | websocketHandled state effects =>
    rw [ActorExecutorReply.toJs, readBack_tagged_eq (d + 1) (by simp only [List.map_cons, List.map_nil]; decide)] at hread
    obtain ⟨_, hdocument, hreply⟩ := Option.bind_eq_some_iff.mp hread
    obtain ⟨fs, hfs, rfl⟩ := Option.map_eq_some_iff.mp hdocument
    simp only [mapM_some_iff, List.forall₂_cons_left_iff, List.forall₂_nil_left_iff,
      Option.map_eq_some_iff] at hfs
    obtain ⟨_, _, ⟨state', hstate, rfl⟩, ⟨_, _, ⟨effects', heffects, rfl⟩, rfl, rfl⟩, rfl⟩ := hfs
    simp [taggedJson, ExecutorReply.ofJson, asTagged, field, asString, ExecutorReply.ofFields,
      Option.bind_eq_some_iff] at hreply
    obtain ⟨es, hes, rfl⟩ := hreply
    rw [decodeEffects, hinner]
    exact Option.bind_eq_some_iff.mpr ⟨_, heffects, hes⟩
  | invoked result state effects =>
    by_cases hnone : effects = []
    · subst hnone
      rw [ActorExecutorReply.toJs, if_pos rfl, List.append_nil,
        readBack_tagged_eq (d + 1) (by simp only [List.map_cons, List.map_nil]; decide)] at hread
      obtain ⟨_, hdocument, hreply⟩ := Option.bind_eq_some_iff.mp hread
      obtain ⟨fs, hfs, rfl⟩ := Option.map_eq_some_iff.mp hdocument
      simp only [mapM_some_iff, List.forall₂_cons_left_iff, List.forall₂_nil_left_iff,
        Option.map_eq_some_iff] at hfs
      obtain ⟨_, _, ⟨result', hresult, rfl⟩, ⟨_, _, ⟨state', hstate, rfl⟩, rfl, rfl⟩, rfl⟩ := hfs
      simp [taggedJson, ExecutorReply.ofJson, asTagged, field, fieldOr, asString,
        ExecutorReply.ofFields, asList] at hreply
      subst hreply
      exact decodeEffects_nil h
    · rw [ActorExecutorReply.toJs, if_neg hnone, List.cons_append, List.cons_append, List.nil_append,
        readBack_tagged_eq (d + 1) (by simp only [List.map_cons, List.map_nil]; decide)] at hread
      obtain ⟨_, hdocument, hreply⟩ := Option.bind_eq_some_iff.mp hread
      obtain ⟨fs, hfs, rfl⟩ := Option.map_eq_some_iff.mp hdocument
      simp only [mapM_some_iff, List.forall₂_cons_left_iff, List.forall₂_nil_left_iff,
        Option.map_eq_some_iff] at hfs
      obtain ⟨_, _, ⟨result', hresult, rfl⟩,
          ⟨_, _, ⟨state', hstate, rfl⟩, ⟨_, _, ⟨effects', heffects, rfl⟩, rfl, rfl⟩, rfl⟩, rfl⟩ := hfs
      simp [taggedJson, ExecutorReply.ofJson, asTagged, field, fieldOr, asString, ExecutorReply.ofFields,
        Option.bind_eq_some_iff] at hreply
      obtain ⟨es, hes, rfl⟩ := hreply
      rw [decodeEffects, hinner]
      exact Option.bind_eq_some_iff.mpr ⟨_, heffects, hes⟩

/-- The effects that the host decodes of a frame are those it decodes on their own. -/
theorem decodeFrame_effects {messageId : MessageId} {reply : ActorExecutorReply} {reply' : ExecutorReply}
    (h : 3 ≤ serde.maxDepth) (hframe : decodeFrame serde (replyMessage messageId reply) = .ok (.reply messageId.id reply')) :
    decodeEffects serde reply.effects = some reply'.effects := by
  obtain ⟨d, hd⟩ : ∃ d, serde.maxDepth = d + 1 := ⟨serde.maxDepth - 1, by omega⟩
  have houter : serde.maxDepth - 1 = d := by omega
  have hread := orContext_ok.mp hframe
  rw [replyMessage, hd, readBack_tagged_eq d (by simp only [List.map_cons, List.map_nil]; decide)] at hread
  obtain ⟨_, hdocument, hmessage⟩ := Option.bind_eq_some_iff.mp hread
  obtain ⟨fs, hfs, rfl⟩ := Option.map_eq_some_iff.mp hdocument
  simp only [mapM_some_iff, List.forall₂_cons_left_iff, List.forall₂_nil_left_iff,
    Option.map_eq_some_iff] at hfs
  obtain ⟨_, _, ⟨id', hid, rfl⟩, ⟨_, _, ⟨reply₀, hreply, rfl⟩, rfl, rfl⟩, rfl⟩ := hfs
  simp [taggedJson, ActorExecutorClientMessage.ofJson, asTagged, field, asString,
    Option.bind_eq_some_iff] at hmessage
  refine reply_effects h ?_
  rw [houter]
  exact Option.bind_eq_some_iff.mpr ⟨_, hreply, hmessage.2⟩

/-- One effect, metadata with `d` brackets open at the host and `p` at the workflow. -/
def SocketEffect.Accepted (serde : SerdeJson) (parser : JsonParse) (d p : ℕ) (e : SocketEffect) : Prop :=
  ∃ e', e.toHost serde (d + 1) = some e' ∧ validateSocketEffect e' = .ok () ∧
    (Json.readBack serdeWriter parser.toReader (p + 2) e'.toJson).any socketEffectSchema = true

theorem decodeEffects_eq (hserde : serde.maxDepth = d + 5) (effects : List SocketEffect) :
    decodeEffects serde effects = effects.mapM (SocketEffect.toHost serde (d + 1)) := by
  have hdepth : serde.maxDepth - 2 = d + 3 := by omega
  rw [decodeEffects, hdepth, effectsToJs_read_eq]

theorem parseSocketEffects_eq (hparser : parser.maxDepth = p + 3) (effects : List ActorSocketEffect) :
    (jsonParse parser (toVec (.arr (effects.map ActorSocketEffect.toJson)))).any parseSocketEffects =
      effects.all fun e => (Json.readBack serdeWriter parser.toReader (p + 2) e.toJson).any socketEffectSchema := by
  rw [jsonParse_toVec, hparser, Json.readBack]
  induction effects with
  | nil => rfl
  | cons e effects ih =>
    rw [List.map_cons, readBackItems, List.all_cons, ← ih]
    cases Json.readBack serdeWriter parser.toReader (p + 2) e.toJson with
    | none => rfl
    | some v =>
      cases readBackItems serdeWriter parser.toReader (p + 2) (effects.map ActorSocketEffect.toJson) with
      | none => simp
      | some vs => rfl

theorem accepted_iff (hserde : serde.maxDepth = d + 5) (hparser : parser.maxDepth = p + 3)
    (effects : List SocketEffect) :
    EffectsAccepted serde parser effects ↔ ∀ e ∈ effects, e.Accepted serde parser d p := by
  simp only [EffectsAccepted, decodeEffects_eq hserde, parseSocketEffects_eq hparser,
    validateSocketEffects_ok, List.all_eq_true, mapM_some_iff]
  induction effects with
  | nil => simp
  | cons e effects ih =>
    rw [List.forall_mem_cons, ← ih, SocketEffect.Accepted]
    constructor
    · rintro ⟨es, hread, hvalid, hschema⟩
      obtain ⟨e', es', he, hes, rfl⟩ := List.forall₂_cons_left_iff.mp hread
      rw [List.forall_mem_cons] at hvalid hschema
      exact ⟨⟨e', he, hvalid.1, hschema.1⟩, es', hes, hvalid.2, hschema.2⟩
    · rintro ⟨⟨e', he, hvalid, hschema⟩, es, hes, hvalids, hschemas⟩
      refine ⟨e' :: es, .cons he hes, ?_, ?_⟩
      · exact List.forall_mem_cons.mpr ⟨hvalid, hvalids⟩
      · exact List.forall_mem_cons.mpr ⟨hschema, hschemas⟩

/-! ### The parts of an effect -/

/-- An identifier the session's schema has let through. -/
def IsConnectionId (id : Units) : Prop := ∃ s, SameString id s ∧ isActorComponent s = true ∧ s.length ≤ 128

/-- Tags that both checks take. -/
structure TagsFit (tags : List Units) : Prop where
  number : tags.length ≤ 128
  wellFormed : ∀ tag ∈ tags, WellFormed tag
  bytes : (tags.map unitsByteLength).sum ≤ 8 * 1024

def MessageArgument.Fits : MessageArgument → Prop
  | .text data => WellFormed data ∧ unitsByteLength data ≤ 16 * 1024 * 1024
  | .bytes data => data.length ≤ 16 * 1024 * 1024
  | .other => True

theorem isAscii_of_isActorComponent {s : String} (h : isActorComponent s = true) : IsAscii s := by
  simp only [isActorComponent, Bool.and_eq_true, List.all_eq_true] at h
  intro c hc
  obtain ⟨-, hlt, -⟩ := isComponentChar_printable (h.2 c hc)
  omega

theorem connectionId_accepted (id : Units) : (∃ s, hostString id = some s ∧ validateConnectionId s = .ok () ∧
    socketConnectionIdSchema (.str s) = true) ↔ IsConnectionId id := by
  simp only [hostString_some, IsConnectionId, validateConnectionId_ok, socketConnectionIdSchema,
    stringSchema, Bool.and_eq_true, decide_eq_true_eq]
  refine exists_congr fun s => and_congr_right fun _ => ?_
  constructor
  · rintro ⟨-, hcomponent, hlength⟩
    exact ⟨hcomponent, (length_le_utf16Length s).trans hlength⟩
  · rintro ⟨hcomponent, hlength⟩
    have hascii := isAscii_of_isActorComponent hcomponent
    have hbytes := utf8ByteSize_of_ascii hascii
    rw [String.length_toList] at hbytes
    refine ⟨⟨?_, by omega⟩, hcomponent, ?_⟩
    · rintro rfl
      exact absurd hcomponent (by decide)
    · rw [utf16Length_of_ascii hascii]
      exact hlength

theorem ids_accepted {ids : List Units} : (∃ is, ids.mapM hostString = some is ∧ is.length ≤ 128 ∧
    (∀ i ∈ is, validateConnectionId i = .ok ()) ∧ ∀ i ∈ is, socketConnectionIdSchema (.str i) = true) ↔
      ids.length ≤ 128 ∧ ∀ id ∈ ids, IsConnectionId id := by
  have hall : (∃ is, ids.mapM hostString = some is ∧ (∀ i ∈ is, validateConnectionId i = .ok ()) ∧
      ∀ i ∈ is, socketConnectionIdSchema (.str i) = true) ↔ ∀ id ∈ ids, IsConnectionId id := by
    simp only [mapM_some_iff]
    induction ids with
    | nil => simp
    | cons id ids ih =>
      rw [List.forall_mem_cons, ← ih, ← connectionId_accepted]
      constructor
      · rintro ⟨is, hread, hvalid, hschema⟩
        obtain ⟨i, is', hi, his, rfl⟩ := List.forall₂_cons_left_iff.mp hread
        rw [List.forall_mem_cons] at hvalid hschema
        exact ⟨⟨i, hi, hvalid.1, hschema.1⟩, is', his, hvalid.2, hschema.2⟩
      · rintro ⟨⟨i, hi, hvalid, hschema⟩, is, his, hvalids, hschemas⟩
        refine ⟨i :: is, .cons hi his, ?_, ?_⟩
        · exact List.forall_mem_cons.mpr ⟨hvalid, hvalids⟩
        · exact List.forall_mem_cons.mpr ⟨hschema, hschemas⟩
  rw [← hall]
  constructor
  · rintro ⟨is, hread, hlength, hvalid, hschema⟩
    refine ⟨?_, is, hread, hvalid, hschema⟩
    rwa [(mapM_some_iff.mp hread).length_eq]
  · rintro ⟨hlength, is, hread, hvalid, hschema⟩
    refine ⟨is, hread, ?_, hvalid, hschema⟩
    rwa [← (mapM_some_iff.mp hread).length_eq]

theorem sum_sameStrings {tags : List Units} {ts : List String} (h : List.Forall₂ SameString tags ts) :
    (tags.map unitsByteLength).sum = (ts.map String.utf8ByteSize).sum := by
  induction h with
  | nil => rfl
  | cons htag _ ih => rw [List.map_cons, List.map_cons, List.sum_cons, List.sum_cons, htag.byteLength, ih]

theorem sameStrings_of_wellFormed {tags : List Units} (h : ∀ tag ∈ tags, WellFormed tag) :
    ∃ ts, List.Forall₂ SameString tags ts := by
  induction tags with
  | nil => exact ⟨[], .nil⟩
  | cons tag tags ih =>
    rw [List.forall_mem_cons] at h
    obtain ⟨t, ht⟩ := SameString.exists_of_wellFormed h.1
    obtain ⟨ts, hts⟩ := ih h.2
    exact ⟨t :: ts, .cons ht hts⟩

theorem socketTagsSchema_strings {tags : List String} : socketTagsSchema (stringsJson tags) = true ↔
    (∀ tag ∈ tags, 1 ≤ utf16Length tag ∧ utf16Length tag ≤ 256) ∧ tags.length ≤ 128 ∧
      (tags.map String.utf8ByteSize).sum ≤ 8 * 1024 := by
  have hbytes : tagBytes ∘ Json.str = String.utf8ByteSize := rfl
  rw [stringsJson, socketTagsSchema, List.map_map, hbytes]
  simp [socketTagSchema, stringSchema, and_assoc]

theorem tags_accepted {tags : List Units} (hlengths : ∀ tag ∈ tags, 1 ≤ tag.length ∧ tag.length ≤ 256) :
    (∃ ts, tags.mapM hostString = some ts ∧ validateSocketTags ts = .ok () ∧ socketTagsSchema (stringsJson ts) = true) ↔
      TagsFit tags := by
  simp only [mapM_some_iff, hostString_some, validateSocketTags_ok]
  constructor
  · rintro ⟨ts, hsame, ⟨hnumber, -, hbytes⟩, -⟩
    refine ⟨hsame.length_eq ▸ hnumber, fun tag htag => ?_, ?_⟩
    · have hget := List.forall₂_iff_get.mp hsame
      obtain ⟨i, hi, rfl⟩ := List.mem_iff_getElem.mp htag
      exact (hget.2 i hi (hget.1 ▸ hi)).wellFormed
    · rwa [sum_sameStrings hsame]
  · rintro ⟨hnumber, hwellFormed, hbytes⟩
    obtain ⟨ts, hsame⟩ := sameStrings_of_wellFormed hwellFormed
    have hread : ∀ t ∈ ts, 1 ≤ utf16Length t ∧ utf16Length t ≤ 256 := by
      intro t ht
      have hget := List.forall₂_iff_get.mp hsame
      obtain ⟨i, hi, rfl⟩ := List.mem_iff_getElem.mp ht
      have htags : i < tags.length := hget.1 ▸ hi
      have hlength : utf16Length ts[i] = tags[i].length := SameString.length (hget.2 i htags hi)
      rw [hlength]
      exact hlengths _ (List.getElem_mem htags)
    rw [sum_sameStrings hsame] at hbytes
    rw [hsame.length_eq] at hnumber
    refine ⟨ts, hsame, ⟨hnumber, fun t ht => ⟨ne_empty_iff.mpr (hread t ht).1, ?_⟩, hbytes⟩, ?_⟩
    · exact (length_le_utf16Length t).trans (hread t ht).2
    · exact socketTagsSchema_strings.mpr ⟨hread, hnumber, hbytes⟩

theorem isAscii_base64 (data : List UInt8) : IsAscii (String.ofList (base64Encode data)) := by
  rw [IsAscii, String.toList_ofList]
  exact base64Encode_ascii data

theorem sameString_base64 (data : List UInt8) :
    SameString ((base64Encode data).map fun c => UInt16.ofNat c.toNat) (String.ofList (base64Encode data)) := by
  rw [SameString, String.toList_ofList]
  exact textOfUnits_ascii (base64Encode_ascii data)

theorem message_accepted {argument : MessageArgument} {message : SocketMessage}
    (h : socketMessage argument = .ok message) :
    (∃ m, message.toHost = some m ∧ validateSocketMessage m = .ok () ∧ socketMessageSchema m.toJson = true) ↔ argument.Fits := by
  cases argument with
  | other => cases h
  | text data =>
    cases h
    simp only [SocketMessage.toHost, Option.map_eq_some_iff, hostString_some, MessageArgument.Fits]
    constructor
    · rintro ⟨_, ⟨t, ht, rfl⟩, hvalid, -⟩
      refine ⟨ht.wellFormed, ?_⟩
      rw [ht.byteLength]
      exact ensure_ok.mp hvalid
    · rintro ⟨hwellFormed, hbytes⟩
      obtain ⟨t, ht⟩ := SameString.exists_of_wellFormed hwellFormed
      rw [ht.byteLength] at hbytes
      refine ⟨_, ⟨t, ht, rfl⟩, ensure_ok.mpr hbytes, ?_⟩
      rw [socketMessageSchema_text]
      exact decide_eq_true hbytes
  | bytes data =>
    cases h
    have hsame := sameString_base64 data
    have hbytes : (String.ofList (base64Encode data)).utf8ByteSize = (data.length + 2) / 3 * 4 := by
      rw [utf8ByteSize_of_ascii (isAscii_base64 data), String.toList_ofList, length_base64Encode]
    have hvalid : validateSocketMessage (.binary (String.ofList (base64Encode data))) = .ok () ↔
        data.length ≤ 16 * 1024 * 1024 := by
      simp only [validateSocketMessage, bind_ok, ensure_ok_iff, orContext_ok, hbytes, String.toList_ofList,
        base64DecodedLength_encode, Option.some.injEq]
      constructor
      · rintro ⟨-, -, _, rfl, hle⟩
        exact hle
      · intro hle
        have hmax : maxSocketMessageBytes = 16 * 1024 * 1024 := rfl
        exact ⟨(), by omega, _, rfl, hle⟩
    simp only [SocketMessage.toHost, hostString_some.mpr hsame, Option.map_some, Option.some.injEq,
      MessageArgument.Fits, exists_eq_left', hvalid]
    refine and_iff_left_of_imp fun hle => ?_
    rw [socketMessageSchema_binary, String.toList_ofList, isBase64_encode, base64ByteLength_encode]
    exact decide_eq_true hle

theorem reason_accepted (code : CloseCode) {reason : Units} (hbytes : unitsByteLength reason ≤ 123) :
    (∃ r, hostString reason = some r ∧ validateClose code.code r = .ok () ∧ socketCloseReasonSchema (.str r) = true) ↔
      WellFormed reason := by
  simp only [hostString_some]
  constructor
  · rintro ⟨r, hr, -⟩
    exact hr.wellFormed
  · intro hwellFormed
    obtain ⟨r, hr⟩ := SameString.exists_of_wellFormed hwellFormed
    rw [hr.byteLength] at hbytes
    exact ⟨r, hr, validateClose_ok.mpr ⟨code.valid, hbytes⟩, decide_eq_true hbytes⟩

/-- Metadata that the host reads and prints within the limit, and that a workflow, which reads that
text, prints within the limit again. -/
def JsonValue.MetadataFits (serde : SerdeJson) (parser : JsonParse) (d p : ℕ) (metadata : JsonValue) : Prop :=
  ∃ v, (Json.readBack jsWriter serde.toReader d metadata.tree).map toValue = some v ∧
    (toVec v).size ≤ 64 * 1024 ∧
    ∃ w, Json.readBack serdeWriter parser.toReader p v = some w ∧ (jsonStringify w).size ≤ 64 * 1024

namespace SocketEffect

section Effects

variable {id : Units} {message : SocketMessage} {argument : MessageArgument}

theorem send_accepted (hid : IsConnectionId id) (hmessage : socketMessage argument = .ok message) :
    (send id message).Accepted serde parser d p ↔ argument.Fits := by
  obtain ⟨s, hs, hvalid, hschema⟩ := (connectionId_accepted id).mpr hid
  rw [← message_accepted hmessage, Accepted, toHost, hs]
  cases hm : message.toHost with
  | none => simp
  | some m => simp [validateSocketEffect, bind_ok, hvalid, effectSchema_send, hschema]

theorem broadcast_accepted {ids tags : List Units} (hmessage : socketMessage argument = .ok message)
    (htags : ∀ tag ∈ tags, 1 ≤ tag.length ∧ tag.length ≤ 256) :
    (broadcast message ids tags).Accepted serde parser d p ↔
      argument.Fits ∧ (ids.length ≤ 128 ∧ ∀ id ∈ ids, IsConnectionId id) ∧ TagsFit tags := by
  rw [← message_accepted hmessage, ← tags_accepted htags, ← ids_accepted, Accepted, toHost]
  cases hm : message.toHost with
  | none => simp
  | some m =>
    cases hids : ids.mapM hostString with
    | none => simp
    | some is =>
      cases hts : tags.mapM hostString with
      | none => simp
      | some ts =>
        simp only [validateBroadcast_ok, effectSchema_broadcast, Bool.and_eq_true, List.all_eq_true,
          decide_eq_true_eq,
          Option.pure_def, Option.bind_eq_bind, Option.bind_some, Option.some.injEq, exists_eq_left']
        tauto

theorem close_accepted {code : CloseCode} {reason : Units} (hid : IsConnectionId id)
    (hbytes : unitsByteLength reason ≤ 123) :
    (close id code reason).Accepted serde parser d p ↔ WellFormed reason := by
  obtain ⟨s, hs, hvalid, hschema⟩ := (connectionId_accepted id).mpr hid
  rw [← reason_accepted code hbytes, Accepted, toHost, hs]
  cases hr : hostString reason with
  | none => simp
  | some r => simp [validateSocketEffect, bind_ok, hvalid, effectSchema_close, hschema]

theorem reject_accepted {code : CloseCode} {reason : Units} (hid : IsConnectionId id)
    (hbytes : unitsByteLength reason ≤ 123) :
    (reject id code reason).Accepted serde parser d p ↔ WellFormed reason := by
  obtain ⟨s, hs, hvalid, hschema⟩ := (connectionId_accepted id).mpr hid
  rw [← reason_accepted code hbytes, Accepted, toHost, hs]
  cases hr : hostString reason with
  | none => simp
  | some r => simp [validateSocketEffect, bind_ok, hvalid, effectSchema_reject, hschema]

theorem setMetadata_accepted {metadata : JsonValue} (hid : IsConnectionId id) :
    (setMetadata id metadata).Accepted serde parser d p ↔
    metadata.MetadataFits serde parser (d + 1) (p + 1) := by
  obtain ⟨s, hs, hvalid, hschema⟩ := (connectionId_accepted id).mpr hid
  rw [Accepted, toHost, hs]
  cases hv : Json.readBack jsWriter serde.toReader (d + 1) metadata.tree with
  | none => simp [JsonValue.MetadataFits, hv]
  | some v =>
    have hhost : validateSocketEffect (.setMetadata s (toValue v)) = .ok () ↔
        (toVec (toValue v)).size ≤ 64 * 1024 := by
      have hmetadata : validateSocketEffect (.setMetadata s (toValue v)) =
          validateSocketMetadata (toValue v) := by
        rw [validateSocketEffect, hvalid]
        rfl
      rw [hmetadata]
      exact ensure_ok
    simp only [JsonValue.MetadataFits, hv, hhost, effectSchema_setMetadata, hschema, Option.pure_def,
      Option.bind_eq_bind,
      Option.bind_some, Option.map_some, Option.some.injEq, exists_eq_left', Bool.true_and]
    simp only [Option.any_eq_true, socketMetadataSchema, jsonValueSchema, Bool.true_and, decide_eq_true_eq]

theorem setTags_accepted {tags : List Units} (hid : IsConnectionId id)
    (htags : ∀ tag ∈ tags, 1 ≤ tag.length ∧ tag.length ≤ 256) :
    (setTags id tags).Accepted serde parser d p ↔ TagsFit tags := by
  obtain ⟨s, hs, hvalid, hschema⟩ := (connectionId_accepted id).mpr hid
  rw [← tags_accepted htags, Accepted, toHost, hs]
  cases hts : tags.mapM hostString with
  | none => simp
  | some ts => simp [validateSocketEffect, bind_ok, hvalid, effectSchema_setTags, hschema]

end Effects

end SocketEffect

/-! ### Calls -/

/-- The scope of a turn: the catalog and, at a connect or a disconnect, the socket of the event. -/
def turnScope (connections : List SocketConnection) :
    Option (SocketConnection × ActorSocketState) → ActorSocketScope
  | none => .new connections
  | some (connection, state) => (ActorSocketScope.new connections).eventSocket connection state

/-- What is asked of a call beyond what it checks itself. A close of a closed socket records nothing. -/
def SocketCall.Fits (serde : SerdeJson) (parser : JsonParse) (scope : ActorSocketScope) : SocketCall → Prop
  | .metadata _ value => ∀ metadata, value = .ok metadata →
    metadata.MetadataFits serde parser (serde.maxDepth - 4) (parser.maxDepth - 2)
  | .send _ message => message.Fits
  | .close i _ reason => (∃ socket, scope.socketAt i = .ok socket ∧ socket.stateValue = .closed) ∨
      WellFormed reason
  | .reject _ _ reason => WellFormed reason
  | .setTags _ tags => ∀ tag, some tag ∈ tags → WellFormed tag
  | .broadcast message except_ tags => message.Fits ∧
    ((excludedSocketIds except_).length ≤ 128 ∧ ∀ id ∈ excludedSocketIds except_, IsConnectionId id) ∧
      TagsFit ((tags.getD []).filterMap id)

/-- Each call, at the scope it is made in. -/
def CallsFit (serde : SerdeJson) (parser : JsonParse) (scope : ActorSocketScope) : List SocketCall → Prop
  | [] => True
  | c :: calls => c.Fits serde parser scope ∧ ∀ scope', scope.call c = .ok scope' →
      CallsFit serde parser scope' calls

theorem validateTag_ok {tag : Option Units} {t : Units} :
    validateTag tag = .ok t ↔ tag = some t ∧ 1 ≤ t.length ∧ t.length ≤ 256 := by
  cases tag with
  | none => simp [validateTag]
  | some tag =>
    rw [validateTag, Option.some.injEq]
    split_ifs with h
    · refine iff_of_false nofun ?_
      rintro ⟨rfl, hlength⟩
      omega
    · rw [Except.ok.injEq]
      refine ⟨?_, And.left⟩
      rintro rfl
      exact ⟨rfl, by omega⟩

theorem mapM_validateTag {tags : List (Option Units)} {ts : List Units} (h : tags.mapM validateTag = .ok ts) :
    tags.filterMap id = ts ∧ ∀ t ∈ ts, 1 ≤ t.length ∧ t.length ≤ 256 := by
  induction tags generalizing ts with
  | nil =>
    cases h
    exact ⟨rfl, nofun⟩
  | cons tag tags ih =>
    rw [List.mapM_cons] at h
    obtain ⟨t, ht, h⟩ := bind_ok.mp h
    obtain ⟨ts', hts, h⟩ := bind_ok.mp h
    cases h
    obtain ⟨rfl, hlength⟩ := validateTag_ok.mp ht
    obtain ⟨rfl, hlengths⟩ := ih hts
    exact ⟨rfl, List.forall_mem_cons.mpr ⟨hlength, hlengths⟩⟩

theorem checkClose_ok {code : Option ℤ} {reason : Units} {c : CloseCode}
    (h : checkClose code reason = .ok c) :
    unitsByteLength reason ≤ 123 := by
  unfold checkClose at h
  split at h
  · cases h
  · split_ifs at h with hcode hbytes
    omega

namespace ActorSocketScope

variable {scope scope' : ActorSocketScope}

def Connected (scope : ActorSocketScope) : Prop := ∀ socket ∈ scope.sockets, IsConnectionId socket.id

def AllAccepted (serde : SerdeJson) (parser : JsonParse) (d p : ℕ) (scope : ActorSocketScope) : Prop :=
  ∀ e ∈ scope.effects, e.Accepted serde parser d p

theorem allAccepted_push {e : SocketEffect} :
    (scope.push e).AllAccepted serde parser d p ↔
    scope.AllAccepted serde parser d p ∧ e.Accepted serde parser d p := by
  simp [AllAccepted, push, or_imp, forall_and]

theorem allAccepted_setSocket {i : ℕ} {socket : RuntimeActorSocket} :
    (scope.setSocket i socket).AllAccepted serde parser d p ↔ scope.AllAccepted serde parser d p := Iff.rfl

theorem Connected.setSocket (h : scope.Connected) {i : ℕ} {socket : RuntimeActorSocket}
    (hid : IsConnectionId socket.id) :
    (scope.setSocket i socket).Connected := by
  intro other hother
  rcases List.mem_or_eq_of_mem_set hother with hmem | rfl
  · exact h other hmem
  · exact hid

theorem Connected.socketAt (h : scope.Connected) {i : ℕ} {socket : RuntimeActorSocket}
    (hsocket : scope.socketAt i = .ok socket) :
    IsConnectionId socket.id := by
  rw [ActorSocketScope.socketAt] at hsocket
  split at hsocket
  · rename_i found hfound
    cases hsocket
    exact h socket (List.mem_of_getElem? hfound)
  · cases hsocket

theorem call_accepted (hserde : serde.maxDepth = d + 5) (hparser : parser.maxDepth = p + 3) {c : SocketCall}
    (hscope : scope.Connected) (h : scope.call c = .ok scope') :
    (scope'.AllAccepted serde parser d p ↔ scope.AllAccepted serde parser d p ∧ c.Fits serde parser scope) ∧ scope'.Connected := by
  cases c with
  | metadata i value =>
    obtain ⟨socket, hsocket, h⟩ := bind_ok.mp h
    obtain ⟨metadata, rfl, h⟩ := bind_ok.mp h
    cases h
    have hid := hscope.socketAt hsocket
    refine ⟨?_, hscope.setSocket hid⟩
    rw [allAccepted_push, allAccepted_setSocket, SocketEffect.setMetadata_accepted hid,
      SocketCall.Fits, hserde, hparser]
    simp
  | send i message =>
    obtain ⟨socket, hsocket, h⟩ := bind_ok.mp h
    split_ifs at h with hclosed
    obtain ⟨m, hm, h⟩ := bind_ok.mp h
    cases h
    have hid := hscope.socketAt hsocket
    refine ⟨?_, hscope⟩
    rw [allAccepted_push, SocketEffect.send_accepted hid hm, SocketCall.Fits]
  | close i code reason =>
    obtain ⟨socket, hsocket, h⟩ := bind_ok.mp h
    obtain ⟨c, hc, h⟩ := bind_ok.mp h
    split_ifs at h with hclosed
    · cases h
      exact ⟨(and_iff_left (.inl ⟨socket, hsocket, hclosed⟩)).symm, hscope⟩
    · cases h
      have hid := hscope.socketAt hsocket
      refine ⟨?_, hscope.setSocket hid⟩
      rw [allAccepted_push, allAccepted_setSocket,
        SocketEffect.close_accepted hid (checkClose_ok hc), SocketCall.Fits]
      refine and_congr_right fun _ => (or_iff_right ?_).symm
      rintro ⟨socket', hsocket', hclosed'⟩
      rw [hsocket] at hsocket'
      cases hsocket'
      exact hclosed hclosed'
  | reject i code reason =>
    obtain ⟨socket, hsocket, h⟩ := bind_ok.mp h
    split_ifs at h with hstate
    obtain ⟨c, hc, h⟩ := bind_ok.mp h
    cases h
    have hid := hscope.socketAt hsocket
    refine ⟨?_, hscope.setSocket hid⟩
    rw [allAccepted_push, allAccepted_setSocket, SocketEffect.reject_accepted hid (checkClose_ok hc),
      SocketCall.Fits]
  | setTags i tags =>
    obtain ⟨socket, hsocket, h⟩ := bind_ok.mp h
    obtain ⟨ts, hts, h⟩ := bind_ok.mp h
    dsimp only at h
    split_ifs at h with hlimits
    cases h
    have hid := hscope.socketAt hsocket
    obtain ⟨rfl, hlengths⟩ := mapM_validateTag hts
    refine ⟨?_, hscope.setSocket hid⟩
    rw [allAccepted_push, allAccepted_setSocket,
      SocketEffect.setTags_accepted hid fun t ht => hlengths t (List.mem_eraseDups.mp ht),
      SocketCall.Fits]
    refine and_congr_right fun _ => ?_
    rw [not_or, not_lt, not_lt] at hlimits
    constructor
    · intro hfit tag htag
      refine hfit.wellFormed tag (List.mem_eraseDups.mpr ?_)
      exact List.mem_filterMap.mpr ⟨some tag, htag, rfl⟩
    · intro hall
      refine ⟨hlimits.1, fun tag htag => ?_, hlimits.2⟩
      obtain ⟨_, hmem, rfl⟩ := List.mem_filterMap.mp (List.mem_eraseDups.mp htag)
      exact hall tag hmem
  | broadcast message except_ tags =>
    obtain ⟨m, hm, h⟩ := bind_ok.mp h
    obtain ⟨ts, hts, h⟩ := bind_ok.mp h
    cases h
    obtain ⟨rfl, hlengths⟩ := mapM_validateTag hts
    refine ⟨?_, hscope⟩
    rw [allAccepted_push, SocketEffect.broadcast_accepted hm hlengths, SocketCall.Fits]

theorem run_accepted (hserde : serde.maxDepth = d + 5) (hparser : parser.maxDepth = p + 3)
    {calls : List SocketCall} (hscope : scope.Connected) (h : scope.run calls = .ok scope') :
    scope'.AllAccepted serde parser d p ↔
    scope.AllAccepted serde parser d p ∧ CallsFit serde parser scope calls := by
  induction calls generalizing scope with
  | nil =>
    cases h
    exact (and_iff_left trivial).symm
  | cons c calls ih =>
    rw [run, List.foldlM_cons] at h
    obtain ⟨next, hcall, hrest⟩ := bind_ok.mp h
    obtain ⟨hnext, hconnected⟩ := call_accepted hserde hparser hscope hcall
    have hcalls : CallsFit serde parser scope (c :: calls) ↔
        c.Fits serde parser scope ∧ CallsFit serde parser next calls := by
      refine and_congr_right fun _ => ⟨fun hall => hall next hcall, fun hfit scope'' hcall' => ?_⟩
      rw [hcall] at hcall'
      cases hcall'
      exact hfit
    rw [ih hconnected hrest, hnext, hcalls, and_assoc]

theorem connected_turnScope {connections : List SocketConnection}
    {event : Option (SocketConnection × ActorSocketState)}
    (hconnections : ∀ connection ∈ connections, IsConnectionId connection.id)
    (hevent : ∀ e, event = some e → IsConnectionId e.1.id) :
    (turnScope connections event).Connected := by
  have hnew : (ActorSocketScope.new connections).Connected := by
    intro socket hsocket
    obtain ⟨connection, hmem, rfl⟩ := List.mem_map.mp hsocket
    exact hconnections connection hmem
  cases event with
  | none => exact hnew
  | some e =>
    have hid := hevent e rfl
    rw [turnScope, eventSocket]
    split
    · rename_i socket i hlast
      have hmem := List.mem_of_getLast? hlast
      obtain ⟨hentry, hsame⟩ := List.mem_filter.mp hmem
      refine hnew.setSocket ?_
      simp only [decide_eq_true_eq] at hsame
      rwa [hsame]
    · intro socket hsocket
      rcases List.mem_append.mp hsocket with hmem | hmem
      · exact hnew socket hmem
      · rw [List.mem_singleton.mp hmem]
        exact hid

theorem effects_turnScope (connections : List SocketConnection)
    (event : Option (SocketConnection × ActorSocketState)) :
    (turnScope connections event).effects = [] := by
  cases event with
  | none => rfl
  | some e =>
    rw [turnScope, eventSocket]
    split <;> rfl

end ActorSocketScope

/-- Effects that were recorded without an exception are accepted exactly if each call also met what the
host and the schema ask beyond its own checks. -/
theorem sdk_effects_accepted_iff (hserde : 5 ≤ serde.maxDepth) (hparser : 3 ≤ parser.maxDepth)
    {connections : List SocketConnection}
    (hconnections : ∀ connection ∈ connections, IsConnectionId connection.id)
    {event : Option (SocketConnection × ActorSocketState)}
    (hevent : ∀ e, event = some e → IsConnectionId e.1.id)
    {calls : List SocketCall} {scope : ActorSocketScope}
    (hrun : (turnScope connections event).run calls = .ok scope) :
    EffectsAccepted serde parser scope.effects ↔ CallsFit serde parser (turnScope connections event) calls := by
  obtain ⟨d, hd⟩ : ∃ d, serde.maxDepth = d + 5 := ⟨serde.maxDepth - 5, by omega⟩
  obtain ⟨p, hp⟩ : ∃ p, parser.maxDepth = p + 3 := ⟨parser.maxDepth - 3, by omega⟩
  have hconnected := ActorSocketScope.connected_turnScope hconnections hevent
  rw [accepted_iff hd hp]
  refine (ActorSocketScope.run_accepted hd hp hconnected hrun).trans (and_iff_right ?_)
  rw [ActorSocketScope.AllAccepted, ActorSocketScope.effects_turnScope]
  nofun

/-- `JSON.parse` that keeps every number as it is printed. -/
def literalParse : JsonParse where
  number := literalSerde.number
  maxDepth := 127
  integers n h := literalSerde.integers n (h.trans (by decide))

/-- One connection of a catalog -/
def socketOne : SocketConnection := ⟨ascii "socket-1", ⟨.null, trivial⟩, []⟩

theorem isConnectionId_ascii {s : String} (h : isActorComponent s = true) (hlength : s.length ≤ 128) :
    IsConnectionId (ascii s) :=
  ⟨s, sameString_ascii (isAscii_of_isActorComponent h), h, hlength⟩

/-- A greeting: tags, a message to the others with the tag, and a message back. -/
def greeting : List SocketCall :=
  [.setTags 0 [some (ascii "room")], .broadcast (.text (ascii "joined")) (.socket (ascii "socket-1")) (some [some (ascii "room")]),
    .send 0 (.bytes [1, 2, 3, 4]), .close 0 (some 1000) (ascii "bye")]

theorem sdk_effects_accepted_greeting : ∃ scope, (turnScope [socketOne] none).run greeting = .ok scope ∧
    EffectsAccepted literalSerde literalParse scope.effects := by
  have hid : IsConnectionId (ascii "socket-1") := isConnectionId_ascii (by decide) (by decide)
  have hroom : WellFormed (ascii "room") := wellFormed_ascii (by decide)
  have hjoined : WellFormed (ascii "joined") := wellFormed_ascii (by decide)
  have hbye : WellFormed (ascii "bye") := wellFormed_ascii (by decide)
  have hconnections : ∀ connection ∈ [socketOne], IsConnectionId connection.id := by
    intro connection hconnection
    rw [List.mem_singleton.mp hconnection]
    exact hid
  have hevent : ∀ e, (none : Option (SocketConnection × ActorSocketState)) = some e →
      IsConnectionId e.1.id := fun _ h => nomatch h
  obtain ⟨scope, hrun⟩ : ∃ scope, (turnScope [socketOne] none).run greeting = .ok scope := ⟨_, rfl⟩
  refine ⟨scope, hrun, (sdk_effects_accepted_iff (by decide) (by decide) hconnections hevent hrun).mpr ?_⟩
  refine ⟨?_, fun _ htags => ⟨?_, fun _ hbroadcast => ⟨?_, fun _ hsend => ⟨?_, fun _ _ => trivial⟩⟩⟩⟩
  · intro tag htag
    cases List.mem_singleton.mp htag
    exact hroom
  · refine ⟨⟨hjoined, by decide +kernel⟩, ⟨by decide, ?_⟩, by decide, ?_, by decide +kernel⟩
    · intro id hmem
      rw [List.mem_singleton.mp hmem]
      exact hid
    · intro tag htag
      rw [List.mem_singleton.mp htag]
      exact hroom
  · exact (by decide : 4 ≤ 16 * 1024 * 1024)
  · exact .inr hbye

/-- 129 tags are more than the host takes. -/
theorem broadcast_tags_rejected : ∃ scope,
    (turnScope [socketOne] none).run [.broadcast (.text (ascii "hi")) .absent (some (List.replicate 129 (some (ascii "room"))))] =
        .ok scope ∧
      (decodeEffects literalSerde scope.effects).map validateSocketEffects =
        some (.error (.new "socket tags exceed 128 entries")) ∧
      ¬ EffectsAccepted literalSerde literalParse scope.effects := by
  have hrejected : ∀ effects, (decodeEffects literalSerde effects).map validateSocketEffects =
      some (.error (.new "socket tags exceed 128 entries")) →
      ¬ EffectsAccepted literalSerde literalParse effects := by
    rintro effects herror ⟨effects', hdecode, hvalid, -⟩
    rw [hdecode, Option.map_some, hvalid] at herror
    cases herror
  obtain ⟨scope, hrun, herror⟩ : ∃ scope, (turnScope [socketOne] none).run
      [.broadcast (.text (ascii "hi")) .absent (some (List.replicate 129 (some (ascii "room"))))] = .ok scope ∧
      (decodeEffects literalSerde scope.effects).map validateSocketEffects =
        some (.error (.new "socket tags exceed 128 entries")) := ⟨_, rfl, by decide +kernel⟩
  exact ⟨scope, hrun, herror, hrejected _ herror⟩

end LDO
