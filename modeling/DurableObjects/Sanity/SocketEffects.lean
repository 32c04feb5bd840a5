import DurableObjects.Sanity.Documents
import DurableObjects.Sanity.Strings

/-! A socket effect on its way: what the host reads of the document that the package writes, and what
the checks of the host and of the schema ask of it, one condition for each field. -/

namespace LDO

open Json

variable {R : Json.Reader Number} {serde : SerdeJson} {s : Units} {t : String}

/-! ### What the host reads -/

/-- The string that the host reads, if the code units are well formed. -/
def hostString (s : Units) : Option String := (textOfUnits s).map String.ofList

theorem hostString_some : hostString s = some t ↔ SameString s t := by
  rw [hostString, SameString, Option.map_eq_some_iff]
  constructor
  · rintro ⟨cs, hcs, rfl⟩
    rw [hcs, String.toList_ofList]
  · intro h
    exact ⟨t.toList, h, String.ofList_toList⟩

def SocketMessage.toHost : SocketMessage → Option ActorSocketMessage
  | .text data => (hostString data).map .text
  | .binary data => (hostString data).map .binary

/-- The effect that the host reads, metadata with at most `d` brackets open. -/
def SocketEffect.toHost (serde : SerdeJson) (d : ℕ) : SocketEffect → Option ActorSocketEffect
  | .send connectionId message => do return .send (← hostString connectionId) (← message.toHost)
  | .broadcast message exceptConnectionIds tags => do
    return .broadcast (← message.toHost) (← exceptConnectionIds.mapM hostString) (← tags.mapM hostString)
  | .close connectionId code reason => do return .close (← hostString connectionId) code.code (← hostString reason)
  | .reject connectionId code reason => do return .reject (← hostString connectionId) code.code (← hostString reason)
  | .setMetadata connectionId metadata => do
    return .setMetadata (← hostString connectionId) (toValue (← Json.readBack jsWriter serde.toReader d metadata.tree))
  | .setTags connectionId tags => do return .setTags (← hostString connectionId) (← tags.mapM hostString)

theorem mapM_some_iff {α β : Type} {f : α → Option β} {as : List α} {bs : List β} :
    as.mapM f = some bs ↔ List.Forall₂ (fun a b => f a = some b) as bs := by
  induction as generalizing bs with
  | nil => simp [eq_comm]
  | cons a as ih =>
    rw [List.mapM_cons, List.forall₂_cons_left_iff]
    simp only [Option.bind_eq_bind, Option.bind_eq_some_iff, Option.pure_def, Option.some.injEq, ih]
    exact ⟨fun ⟨b, hb, bs, hbs, heq⟩ => ⟨b, bs, hb, hbs, heq.symm⟩,
      fun ⟨b, bs, hb, hbs, heq⟩ => ⟨b, hb, bs, hbs, heq.symm⟩⟩

theorem readBack_units (d : ℕ) (s : Units) :
    Json.readBack jsWriter R d (.str s) = (hostString s).map .str := by
  rw [Json.readBack, hostString, Option.map_map]
  rfl

theorem readBack_unitsList (d : ℕ) (ss : List Units) :
    Json.readBack jsWriter R (d + 1) (.arr (ss.map .str)) = (ss.mapM hostString).map stringsJson := by
  have hitems : readBackItems jsWriter R d (ss.map .str) = (ss.mapM hostString).map (List.map .str) := by
    induction ss with
    | nil => rfl
    | cons s ss ih =>
      rw [List.map_cons, readBackItems, readBack_units, ih, List.mapM_cons]
      cases hostString s with
      | none => rfl
      | some t => cases ss.mapM hostString <;> rfl
  rw [Json.readBack, hitems, Option.map_map]
  rfl

theorem readBackFields_tagged (d : ℕ) {fields : List (String × JsTree)} (hkeys : ∀ f ∈ fields, IsAscii f.1) :
    readBackFields jsWriter R d (fields.map fun f => (ascii f.1, f.2)) =
      fields.mapM fun f => (Json.readBack jsWriter R d f.2).map (Prod.mk f.1) := by
  induction fields with
  | nil => rfl
  | cons f fields ih =>
    rw [List.map_cons, readBackFields, text_ascii (hkeys f (by simp)), Option.bind_some,
      ih fun f hf => hkeys f (List.mem_cons_of_mem _ hf), List.mapM_cons, String.ofList_toList]
    cases Json.readBack jsWriter R d f.2 with
    | none => rfl
    | some v => cases fields.mapM fun f => (Json.readBack jsWriter R d f.2).map (Prod.mk f.1) <;> rfl

theorem readBack_tagged_eq (d : ℕ) {tag : String} {fields : List (String × JsTree)}
    (hkeys : ∀ k ∈ tag :: fields.map Prod.fst, IsAscii k) :
    Json.readBack jsWriter R (d + 1) (tagged tag fields) =
      (fields.mapM fun f => (Json.readBack jsWriter R d f.2).map (Prod.mk f.1)).map (taggedJson tag) := by
  have hfields : ∀ f ∈ ("type", Json.str (ascii tag)) :: fields, IsAscii f.1 := by
    rw [List.forall_mem_cons]
    exact ⟨(by decide : IsAscii "type"), fun f hf => hkeys _ (List.mem_cons_of_mem _ (List.mem_map_of_mem hf))⟩
  have hdocument : tagged tag fields = .obj
      ((("type", Json.str (ascii tag)) :: fields).map fun f => (ascii f.1, f.2)) := rfl
  have htag : hostString (ascii tag) = some tag := hostString_some.mpr (sameString_ascii (hkeys tag (by simp)))
  rw [hdocument, Json.readBack, readBackFields_tagged d hfields, List.mapM_cons, readBack_units, htag]
  cases fields.mapM fun f => (Json.readBack jsWriter R d f.2).map (Prod.mk f.1) <;> rfl

theorem SocketMessage.readBack (d : ℕ) (message : SocketMessage) :
    Json.readBack jsWriter R (d + 1) message.toJs = message.toHost.map ActorSocketMessage.toJson := by
  cases message with
  | text data =>
    rw [toJs, readBack_tagged_eq d (by simp only [List.map_cons, List.map_nil]; decide), toHost]
    cases hdata : hostString data <;> simp [readBack_units, hdata, ActorSocketMessage.toJson]
  | binary data =>
    rw [toJs, readBack_tagged_eq d (by simp only [List.map_cons, List.map_nil]; decide), toHost]
    cases hdata : hostString data <;> simp [readBack_units, hdata, ActorSocketMessage.toJson]

theorem readBack_closeCode (d : ℕ) (code : CloseCode) :
    Json.readBack jsWriter serde.toReader d (jsNat code.code) = some (.num (.ofNat code.code)) := by
  have hnumber : serde.number (Nat.toDigits 10 code.code) = some (.ofNat code.code) :=
    serde.integers _ code.le_u64Max
  rw [jsNat, Json.readBack]
  exact congrArg (Option.map Json.num) hnumber

theorem SocketEffect.read_eq (d : ℕ) (e : SocketEffect) :
    (Json.readBack jsWriter serde.toReader (d + 2) e.toJs).bind ActorSocketEffect.ofJson =
      e.toHost serde (d + 1) := by
  cases e with
  | send connectionId message =>
    rw [toJs, readBack_tagged_eq (d + 1) (by simp only [List.map_cons, List.map_nil]; decide), toHost]
    cases hid : hostString connectionId with
    | none => simp [readBack_units, hid]
    | some id =>
      cases hmessage : message.toHost with
      | none => simp [readBack_units, hid, SocketMessage.readBack, hmessage]
      | some m =>
        simp [readBack_units, hid, SocketMessage.readBack, hmessage, taggedJson,
          ActorSocketEffect.ofJson, asTagged, field,
          asString, ActorSocketEffect.ofFields, message_ofJson_toJson]
  | broadcast message exceptConnectionIds tags =>
    rw [toJs, readBack_tagged_eq (d + 1) (by simp only [List.map_cons, List.map_nil]; decide), toHost]
    cases hmessage : message.toHost with
    | none => simp [SocketMessage.readBack, hmessage]
    | some m =>
      cases hids : exceptConnectionIds.mapM hostString with
      | none => simp [SocketMessage.readBack, hmessage, readBack_unitsList, hids]
      | some ids =>
        cases htags : tags.mapM hostString with
        | none => simp [SocketMessage.readBack, hmessage, readBack_unitsList, hids, htags]
        | some ts =>
          simp [SocketMessage.readBack, hmessage, readBack_unitsList, hids, htags, taggedJson,
            ActorSocketEffect.ofJson, asTagged,
            field, asString, ActorSocketEffect.ofFields, message_ofJson_toJson, asList_strings]
  | close connectionId code reason =>
    rw [toJs, readBack_tagged_eq (d + 1) (by simp only [List.map_cons, List.map_nil]; decide), toHost]
    cases hid : hostString connectionId with
    | none => simp [readBack_units, hid]
    | some id =>
      cases hreason : hostString reason with
      | none => simp [readBack_units, hid, readBack_closeCode, hreason]
      | some r =>
        simp [readBack_units, hid, readBack_closeCode, hreason, taggedJson, ActorSocketEffect.ofJson,
          asTagged, field, asString, ActorSocketEffect.ofFields, asU16_ofNat code.le]
  | reject connectionId code reason =>
    rw [toJs, readBack_tagged_eq (d + 1) (by simp only [List.map_cons, List.map_nil]; decide), toHost]
    cases hid : hostString connectionId with
    | none => simp [readBack_units, hid]
    | some id =>
      cases hreason : hostString reason with
      | none => simp [readBack_units, hid, readBack_closeCode, hreason]
      | some r =>
        simp [readBack_units, hid, readBack_closeCode, hreason, taggedJson, ActorSocketEffect.ofJson,
          asTagged, field, asString, ActorSocketEffect.ofFields, asU16_ofNat code.le]
  | setMetadata connectionId metadata =>
    rw [toJs, readBack_tagged_eq (d + 1) (by simp only [List.map_cons, List.map_nil]; decide), toHost]
    cases hid : hostString connectionId with
    | none => simp [readBack_units, hid]
    | some id =>
      cases hmetadata : Json.readBack jsWriter serde.toReader (d + 1) metadata.tree with
      | none => simp [readBack_units, hid, hmetadata]
      | some v =>
        simp [readBack_units, hid, hmetadata, taggedJson, ActorSocketEffect.ofJson, asTagged, field, asString,
          ActorSocketEffect.ofFields]
  | setTags connectionId tags =>
    rw [toJs, readBack_tagged_eq (d + 1) (by simp only [List.map_cons, List.map_nil]; decide), toHost]
    cases hid : hostString connectionId with
    | none => simp [readBack_units, hid]
    | some id =>
      cases htags : tags.mapM hostString with
      | none => simp [readBack_units, hid, readBack_unitsList, htags]
      | some ts =>
        simp [readBack_units, hid, readBack_unitsList, htags, taggedJson, ActorSocketEffect.ofJson,
          asTagged, field, asString, ActorSocketEffect.ofFields, asList_strings]

/-- An effect is three brackets deep in the list of effects. -/
theorem effectsToJs_read_eq (d : ℕ) (effects : List SocketEffect) :
    (Json.readBack jsWriter serde.toReader (d + 3) (effectsToJs effects)).bind (asList ActorSocketEffect.ofJson) =
      effects.mapM (SocketEffect.toHost serde (d + 1)) := by
  rw [effectsToJs, Json.readBack]
  induction effects with
  | nil => rfl
  | cons e effects ih =>
    rw [List.map_cons, readBackItems, List.mapM_cons, ← ih, ← SocketEffect.read_eq]
    cases Json.readBack jsWriter serde.toReader (d + 2) e.toJs with
    | none => rfl
    | some v =>
      cases readBackItems jsWriter serde.toReader (d + 2) (effects.map SocketEffect.toJs) with
      | none => cases hv : ActorSocketEffect.ofJson v <;> simp [hv]
      | some vs => simp [asList, List.mapM_cons]

/-! ### What the host checks -/

theorem validateConnectionId_ok {connectionId : String} :
    validateConnectionId connectionId = .ok () ↔ connectionId ≠ "" ∧ connectionId.utf8ByteSize ≤ 128 := by
  simp [validateConnectionId, bind_ok, ensure_ok_iff, maxSocketConnectionIdBytes]

/-- One tag: the checks of the loop and the new total. -/
def addTag (totalBytes : ℕ) (tag : String) : Result ℕ := do
  ensure (tag ≠ "") "socket tag is empty"
  ensure (tag.length ≤ maxSocketTagCharacters) ("socket tag exceeds " ++ toString maxSocketTagCharacters ++ " characters")
  pure (saturatingAdd totalBytes tag.utf8ByteSize)

theorem addTag_ok {total bytes : ℕ} {tag : String} : addTag total tag = .ok bytes ↔
    (tag ≠ "" ∧ tag.length ≤ 256) ∧ saturatingAdd total tag.utf8ByteSize = bytes := by
  simp [addTag, bind_ok, ensure_ok_iff, maxSocketTagCharacters, pure, Except.pure, and_assoc]

/-- A total that saturates is over any bound below `u64::MAX`. -/
theorem totalBytes_ok {bound : ℕ} (hbound : bound < u64Max) {tags : List String} {total : ℕ} :
    (∃ bytes, tags.foldlM addTag total = .ok bytes ∧ bytes ≤ bound) ↔
      (∀ tag ∈ tags, tag ≠ "" ∧ tag.length ≤ 256) ∧ total + (tags.map String.utf8ByteSize).sum ≤ bound := by
  induction tags generalizing total with
  | nil => simp [pure, Except.pure]
  | cons tag tags ih =>
    have hsum : saturatingAdd total tag.utf8ByteSize + (tags.map String.utf8ByteSize).sum ≤ bound ↔
        total + ((tag :: tags).map String.utf8ByteSize).sum ≤ bound := by
      rw [saturatingAdd, List.map_cons, List.sum_cons]
      omega
    simp only [List.foldlM_cons, bind_ok, addTag_ok, List.forall_mem_cons]
    constructor
    · rintro ⟨bytes, ⟨_, ⟨htag, rfl⟩, hrest⟩, hle⟩
      obtain ⟨htags, htotal⟩ := ih.mp ⟨bytes, hrest, hle⟩
      exact ⟨⟨htag, htags⟩, hsum.mp htotal⟩
    · rintro ⟨⟨htag, htags⟩, htotal⟩
      obtain ⟨bytes, hrest, hle⟩ := ih.mpr ⟨htags, hsum.mpr htotal⟩
      exact ⟨bytes, ⟨_, ⟨htag, rfl⟩, hrest⟩, hle⟩

theorem validateSocketTags_ok {tags : List String} : validateSocketTags tags = .ok () ↔
    tags.length ≤ 128 ∧ (∀ tag ∈ tags, tag ≠ "" ∧ tag.length ≤ 256) ∧
    (tags.map String.utf8ByteSize).sum ≤ 8 * 1024 := by
  have htotal : (∃ bytes, tags.foldlM addTag 0 = .ok bytes ∧ bytes ≤ 8 * 1024) ↔ _ := totalBytes_ok (by decide)
  rw [Nat.zero_add] at htotal
  rw [← htotal]
  have hfold : validateSocketTags tags = (do
      ensure (tags.length ≤ maxSocketTags) ("socket tags exceed " ++ toString maxSocketTags ++ " entries")
      let totalBytes ← tags.foldlM addTag 0
      ensure (totalBytes ≤ maxSocketTagBytes) ("socket tags exceed " ++ toString maxSocketTagBytes ++ " bytes")) := rfl
  simp [hfold, bind_ok, ensure_ok_iff, maxSocketTags, maxSocketTagBytes]

theorem validateClose_ok {code : ℕ} {reason : String} : validateClose code reason = .ok () ↔
    (code = 1000 ∨ 3000 ≤ code ∧ code ≤ 4999) ∧ reason.utf8ByteSize ≤ 123 := by
  simp [validateClose, bind_ok, ensure_ok_iff, maxSocketCloseReasonBytes]

theorem forM_ok {α : Type} {check : α → Result Unit} {items : List α} :
    items.forM check = .ok () ↔ ∀ item ∈ items, check item = .ok () := by
  induction items with
  | nil => simp [pure, Except.pure]
  | cons item items ih =>
    have hcons : (item :: items).forM check = (do check item; items.forM check) := rfl
    rw [hcons, bind_ok, List.forall_mem_cons, ← ih]
    exact ⟨fun ⟨_, hitem, hitems⟩ => ⟨hitem, hitems⟩, fun ⟨hitem, hitems⟩ => ⟨(), hitem, hitems⟩⟩

theorem validateBroadcast_ok {message : ActorSocketMessage} {ids tags : List String} :
    validateSocketEffect (.broadcast message ids tags) = .ok () ↔
    (ids.length ≤ 128 ∧ ∀ id ∈ ids, validateConnectionId id = .ok ()) ∧
      validateSocketTags tags = .ok () ∧ validateSocketMessage message = .ok () := by
  rw [← forM_ok]
  simp only [validateSocketEffect, bind_ok, ensure_ok_iff]
  constructor
  · rintro ⟨_, hnumber, _, hids, _, htags, hmessage⟩
    exact ⟨⟨hnumber, hids⟩, htags, hmessage⟩
  · rintro ⟨⟨hnumber, hids⟩, htags, hmessage⟩
    exact ⟨(), hnumber, (), hids, (), htags, hmessage⟩

theorem validateSocketEffects_ok {effects : List ActorSocketEffect} :
    validateSocketEffects effects = .ok () ↔ ∀ e ∈ effects, validateSocketEffect e = .ok () := forM_ok

/-! ### What the schema checks -/

section Schema

variable {d : ℕ}

theorem socketMessageSchema_text (data : String) :
    socketMessageSchema (ActorSocketMessage.text data).toJson =
      decide (data.utf8ByteSize ≤ 16 * 1024 * 1024) := by
  simp [socketMessageSchema, oneOf, objectSchema, member, required, literal, stringSchema, socketTextSchema,
    ActorSocketMessage.toJson, taggedJson]

theorem socketMessageSchema_binary (data : String) :
    socketMessageSchema (ActorSocketMessage.binary data).toJson =
    (isBase64 data.toList && decide (base64ByteLength data.toList ≤ 16 * 1024 * 1024)) := by
  simp [socketMessageSchema, oneOf, objectSchema, member, required, literal, stringSchema, socketBinarySchema,
    ActorSocketMessage.toJson, taggedJson]

theorem arraySchema_ids (ids : List String) : arraySchema socketConnectionIdSchema (stringsJson ids) =
    ids.all fun id => socketConnectionIdSchema (.str id) := by
  rw [stringsJson, arraySchema, List.all_map]
  rfl

theorem arrayLength_ids (ids : List String) :
    socketEffectSchema.arrayLength (stringsJson ids) = ids.length := by
  rw [stringsJson, socketEffectSchema.arrayLength, List.length_map]

theorem asSafeInteger_ofNat {n : ℕ} (h : n ≤ maxSafeInteger) :
    (Number.ofNat n).asSafeInteger = some (n : ℤ) := by
  have hdigits : ∀ c ∈ Nat.toDigits 10 n, c.isDigit = true :=
    fun c hc => Nat.isDigit_of_mem_toDigits (by decide) (by decide) hc
  have hsafe : safeDigits (Nat.toDigits 10 n) = some n := by
    have hvalue : Nat.ofDigitChars 10 (Nat.toDigits 10 n) 0 = n :=
      Nat.ofDigitChars_toDigits (by decide) (by decide)
    simp [safeDigits, hvalue, h]
    exact hdigits
  have htext : (Number.ofNat n).text = Nat.toDigits 10 n := rfl
  rw [Number.asSafeInteger, htext]
  split
  · rename_i digits heq
    rw [heq] at hdigits
    exact absurd (hdigits '-' (by simp)) (by decide)
  · rw [hsafe]
    rfl

theorem readBack_integer (parser : JsonParse) {n : ℕ} (h : n ≤ maxSafeInteger) :
    Json.readBack serdeWriter parser.toReader d (.num (.ofNat n)) = some (.num (.ofNat n)) := by
  have hnumber : parser.number (Nat.toDigits 10 n) = some (.ofNat n) := parser.integers n h
  rw [Json.readBack]
  exact congrArg (Option.map Json.num) hnumber

theorem socketCloseCodeSchema_code (code : CloseCode) :
    socketCloseCodeSchema (.num (.ofNat code.code)) = true := by
  have hvalid := code.valid
  have hsafe : code.code ≤ maxSafeInteger := code.le.trans (by decide)
  simp only [socketCloseCodeSchema, intSchema, asSafeInteger_ofNat hsafe, Option.any_some,
    Bool.or_eq_true, Bool.and_eq_true, decide_eq_true_eq]
  omega

theorem effectSchema_send (connectionId : String) (message : ActorSocketMessage) :
    (Json.readBack serdeWriter R (d + 2) (ActorSocketEffect.send connectionId message).toJson).any socketEffectSchema =
      (socketConnectionIdSchema (.str connectionId) && socketMessageSchema message.toJson) := by
  rw [ActorSocketEffect.toJson, readBack_taggedJson]
  simp [readBackFields_serde_cons, readBackFields_serde_nil, readBack_string, readBack_message,
    taggedJson, socketEffectSchema, oneOf, objectSchema, member, required, literal, stringSchema]

theorem effectSchema_broadcast (message : ActorSocketMessage) (ids tags : List String) :
    (Json.readBack serdeWriter R (d + 2) (ActorSocketEffect.broadcast message ids tags).toJson).any socketEffectSchema =
      (socketMessageSchema message.toJson && ((ids.all fun id => socketConnectionIdSchema (.str id)) && decide (ids.length ≤ 128)) &&
        socketTagsSchema (stringsJson tags)) := by
  rw [ActorSocketEffect.toJson, readBack_taggedJson, ← arraySchema_ids]
  simp [readBackFields_serde_cons, readBackFields_serde_nil, readBack_strings, readBack_message,
    taggedJson, socketEffectSchema,
    oneOf, objectSchema, member, required, literal, stringSchema, arrayLength_ids, Bool.and_assoc]

theorem effectSchema_close (parser : JsonParse) (connectionId reason : String) (code : CloseCode) :
    (Json.readBack serdeWriter parser.toReader (d + 2) (ActorSocketEffect.close connectionId code.code reason).toJson).any
      socketEffectSchema = (socketConnectionIdSchema (.str connectionId) && socketCloseReasonSchema (.str reason)) := by
  have hsafe : code.code ≤ maxSafeInteger := code.le.trans (by decide)
  rw [ActorSocketEffect.toJson, readBack_taggedJson]
  simp [readBackFields_serde_cons, readBackFields_serde_nil, readBack_string,
    readBack_integer parser hsafe, taggedJson,
    socketEffectSchema, oneOf, objectSchema, member, required, literal, stringSchema,
      socketCloseCodeSchema_code]

theorem effectSchema_reject (parser : JsonParse) (connectionId reason : String) (code : CloseCode) :
    (Json.readBack serdeWriter parser.toReader (d + 2) (ActorSocketEffect.reject connectionId code.code reason).toJson).any
      socketEffectSchema = (socketConnectionIdSchema (.str connectionId) && socketCloseReasonSchema (.str reason)) := by
  have hsafe : code.code ≤ maxSafeInteger := code.le.trans (by decide)
  rw [ActorSocketEffect.toJson, readBack_taggedJson]
  simp [readBackFields_serde_cons, readBackFields_serde_nil, readBack_string,
    readBack_integer parser hsafe, taggedJson,
    socketEffectSchema, oneOf, objectSchema, member, required, literal, stringSchema,
      socketCloseCodeSchema_code]

theorem effectSchema_setMetadata (connectionId : String) (metadata : Value) :
    (Json.readBack serdeWriter R (d + 2) (ActorSocketEffect.setMetadata connectionId metadata).toJson).any socketEffectSchema =
      (socketConnectionIdSchema (.str connectionId) && (Json.readBack serdeWriter R (d + 1) metadata).any socketMetadataSchema) := by
  rw [ActorSocketEffect.toJson, readBack_taggedJson]
  cases hmetadata : Json.readBack serdeWriter R (d + 1) metadata <;>
    simp [readBackFields_serde_cons, readBackFields_serde_nil, readBack_string, hmetadata,
      taggedJson, socketEffectSchema, oneOf, objectSchema, member, required, literal, stringSchema]

theorem effectSchema_setTags (connectionId : String) (tags : List String) :
    (Json.readBack serdeWriter R (d + 2) (ActorSocketEffect.setTags connectionId tags).toJson).any socketEffectSchema =
      (socketConnectionIdSchema (.str connectionId) && socketTagsSchema (stringsJson tags)) := by
  rw [ActorSocketEffect.toJson, readBack_taggedJson]
  simp [readBackFields_serde_cons, readBackFields_serde_nil, readBack_string, readBack_strings,
    taggedJson, socketEffectSchema, oneOf, objectSchema, member, required, literal, stringSchema]

end Schema

end LDO
