import DurableObjects.Sanity.Documents
import DurableObjects.Spec.Gateway
import DurableObjects.Spec.Wire

/-! Which answers of a host survive the wire. JSON does, as far as `serde_json` reads back
what it wrote; a host that is unavailable does not: the reply has no case for it. -/

namespace LDO

open Json

variable {serde : SerdeJson}

/-! ### Values -/

theorem insertField_sorted {α : Type} {key : String} {v : α} {map : List (String × α)}
    (h : (map.map Prod.fst).Pairwise (· < ·)) : ((insertField key v map).map Prod.fst).Pairwise (· < ·) ∧
      ∀ k ∈ (insertField key v map).map Prod.fst, k = key ∨ k ∈ map.map Prod.fst := by
  induction map with
  | nil => simp [insertField]
  | cons f map ih =>
    obtain ⟨k, w⟩ := f
    simp only [List.map_cons, List.pairwise_cons] at h
    obtain ⟨hsorted, hkeys⟩ := ih h.2
    rw [insertField]
    split_ifs with hlt heq
    · refine ⟨?_, by simp⟩
      simp only [List.map_cons, List.pairwise_cons, List.mem_cons]
      refine ⟨fun l hl => ?_, h⟩
      rcases hl with rfl | hl
      · exact hlt
      · exact hlt.trans (h.1 l hl)
    · subst heq
      refine ⟨by simpa using h, ?_⟩
      intro l hl
      simpa using hl
    · have hk : k < key := lt_of_le_of_ne (not_lt.mp hlt) (Ne.symm heq)
      simp only [List.map_cons, List.pairwise_cons, List.mem_cons]
      refine ⟨⟨fun l hl => ?_, hsorted⟩, fun l hl => ?_⟩
      · rcases hkeys l hl with rfl | hl
        · exact hk
        · exact h.1 l hl
      · rcases hl with rfl | hl
        · exact .inr (.inl rfl)
        · exact (hkeys l hl).imp_right .inr

theorem toValueFields_sorted (fs : List (String × Value)) {map : List (String × Value)}
    (h : (map.map Prod.fst).Pairwise (· < ·)) : ((toValueFields fs map).map Prod.fst).Pairwise (· < ·) := by
  induction fs generalizing map with
  | nil => rwa [toValueFields]
  | cons f fs ih =>
    rw [toValueFields]
    exact ih (insertField_sorted h).1

/-- Fields that are in order stay where they are. -/
theorem toValueFields_of_sorted (fs : List (String × Value)) {map : List (String × Value)}
    (h : ((map ++ fs).map Prod.fst).Pairwise (· < ·)) : toValueFields fs map = map ++ fs.map valueField := by
  induction fs generalizing map with
  | nil => rw [toValueFields, List.map_nil, List.append_nil]
  | cons f fs ih =>
    obtain ⟨k, v⟩ := f
    have hlast : ∀ l ∈ map.map Prod.fst, l < k := by
      intro l hl
      rw [List.map_append, List.pairwise_append] at h
      exact h.2.2 l hl k (by simp)
    rw [toValueFields, insertField_last _ hlast, ih (by simpa using h)]
    simp [valueField]

theorem readBackFields_serde_keys {d : ℕ} {fs ts : List (String × Value)}
    (h : readBackFields serdeWriter serde.toReader d fs = some ts) : ts.map Prod.fst = fs.map Prod.fst := by
  have hkeys := readBackFields_keys h
  have hsame : List.Forall₂ Eq (fs.map Prod.fst) (ts.map Prod.fst) := by
    refine hkeys.imp fun k k' hk => ?_
    have htext : some k.toList = some k'.toList := hk
    exact String.toList_inj.mp (Option.some.inj htext)
  exact (List.forall₂_eq_eq_eq ▸ hsame : fs.map Prod.fst = ts.map Prod.fst).symm

theorem map_obj_eq_iff {d : ℕ} {fs : List (String × Value)} :
    ((readBackFields serdeWriter serde.toReader d fs).map fun ts => toValue (.obj ts)) = some (.obj fs) ↔
      (fs.map Prod.fst).Pairwise (· < ·) ∧
        (readBackFields serdeWriter serde.toReader d fs).map (List.map valueField) = some fs := by
  cases hts : readBackFields serdeWriter serde.toReader d fs with
  | none => simp
  | some ts =>
    have hkeys := readBackFields_serde_keys hts
    simp only [Option.map_some, Option.some.injEq, toValue, Json.obj.injEq]
    constructor
    · intro h
      have hsorted : (fs.map Prod.fst).Pairwise (· < ·) := by
        rw [← h]
        exact toValueFields_sorted ts .nil
      refine ⟨hsorted, ?_⟩
      rwa [toValueFields_of_sorted ts (by rwa [List.nil_append, hkeys]), List.nil_append] at h
    · rintro ⟨hsorted, h⟩
      rwa [toValueFields_of_sorted ts (by rwa [List.nil_append, hkeys]), List.nil_append]

mutual
/-- A value comes back as it was exactly if it is readable. -/
theorem readBack_eq_iff : ∀ (v : Value) (d : ℕ),
    (Json.readBack serdeWriter serde.toReader d v).map toValue = some v ↔ Readable serde d v
  | .null, d => by simp [Json.readBack, toValue, Readable]
  | .bool _, d => by simp [Json.readBack, toValue, Readable]
  | .str s, d => by simp [Json.readBack, toValue, Readable, serdeWriter]
  | .num n, d => by simp [Json.readBack, toValue, Readable, serdeWriter]
  | .arr vs, 0 => by simp [Json.readBack, Readable]
  | .obj fs, 0 => by simp [Json.readBack, Readable]
  | .arr vs, d + 1 => by
    rw [Json.readBack, Readable, ← readBackItems_eq_iff vs d]
    simp [toValue]
  | .obj fs, d + 1 => by
    rw [Json.readBack, Readable, ← readBackFields_eq_iff fs d, Option.map_map]
    exact map_obj_eq_iff

theorem readBackItems_eq_iff : ∀ (vs : List Value) (d : ℕ),
    (readBackItems serdeWriter serde.toReader d vs).map toValueItems = some vs ↔ ReadableItems serde d vs
  | [], d => by simp [readBackItems, toValueItems, ReadableItems]
  | v :: vs, d => by
    rw [ReadableItems, ← readBack_eq_iff v d, ← readBackItems_eq_iff vs d, readBackItems]
    cases Json.readBack serdeWriter serde.toReader d v with
    | none => simp
    | some t => cases readBackItems serdeWriter serde.toReader d vs <;> simp [toValueItems]

theorem readBackFields_eq_iff : ∀ (fs : List (String × Value)) (d : ℕ),
    (readBackFields serdeWriter serde.toReader d fs).map (List.map valueField) = some fs ↔
    ReadableFields serde d fs
  | [], d => by simp [readBackFields, ReadableFields]
  | (k, v) :: fs, d => by
    rw [ReadableFields, ← readBack_eq_iff v d, ← readBackFields_eq_iff fs d, readBackFields]
    cases Json.readBack serdeWriter serde.toReader d v with
    | none => simp [serdeWriter]
    | some t => cases readBackFields serdeWriter serde.toReader d fs <;> simp [valueField, serdeWriter]
end

/-! ### Effects -/

/-- An effect that arrives as it was sent. A close code is a `u16` in the source. -/
def ActorSocketEffect.Conveyed (serde : SerdeJson) : ActorSocketEffect → Prop
  | .close _ code _ => code ≤ 65535
  | .reject _ code _ => code ≤ 65535
  | .setMetadata _ metadata => Readable serde (serde.maxDepth - 2) metadata
  | _ => True

theorem readBack_code (serde : SerdeJson) (d n : ℕ) :
    (Json.readBack serdeWriter serde.toReader d (.num (.ofNat n))).bind asU16 = some n ↔ n ≤ 65535 := by
  constructor
  · intro h
    obtain ⟨v, -, hv⟩ := Option.bind_eq_some_iff.mp h
    rw [asU16, asBounded, Option.filter_eq_some_iff] at hv
    exact of_decide_eq_true hv.2
  · intro h
    have hu64 : n ≤ u64Max := h.trans (by decide)
    have hread : Json.readBack serdeWriter serde.toReader d (.num (.ofNat n)) = some (.num (.ofNat n)) := by
      simp [Json.readBack, serdeWriter, Number.ofNat, serde.integers n hu64]
    rw [hread, Option.bind_some, asU16_ofNat h]

theorem effect_conveyed_iff (e : ActorSocketEffect) {n : ℕ} (hdepth : serde.maxDepth = n + 3) :
    (Json.readBack serdeWriter serde.toReader (n + 2) e.toJson).bind ActorSocketEffect.ofJson = some e ↔
      e.Conveyed serde := by
  cases e with
  | send connectionId message =>
    rw [ActorSocketEffect.toJson, readBack_taggedJson]
    simp [readBackFields_serde_cons, readBackFields_serde_nil, readBack_string, readBack_message,
      taggedJson, ActorSocketEffect.ofJson, asTagged, field, asString, ActorSocketEffect.ofFields,
      message_ofJson_toJson, ActorSocketEffect.Conveyed]
  | broadcast message exceptConnectionIds tags =>
    rw [ActorSocketEffect.toJson, readBack_taggedJson]
    simp [readBackFields_serde_cons, readBackFields_serde_nil, readBack_strings, readBack_message,
      taggedJson, ActorSocketEffect.ofJson, asTagged, field, asString, ActorSocketEffect.ofFields,
      message_ofJson_toJson, asList_strings, ActorSocketEffect.Conveyed]
  | close connectionId code reason =>
    rw [ActorSocketEffect.Conveyed, ← readBack_code serde (n + 1) code, ActorSocketEffect.toJson,
      readBack_taggedJson]
    simp only [readBackFields_serde_cons, readBackFields_serde_nil, readBack_string,
      Option.bind_some, Option.map_some]
    cases Json.readBack serdeWriter serde.toReader (n + 1) (.num (.ofNat code)) with
    | none => simp
    | some v =>
      simp [taggedJson, ActorSocketEffect.ofJson, asTagged, field, asString, ActorSocketEffect.ofFields,
        Option.bind_eq_some_iff]
  | reject connectionId code reason =>
    rw [ActorSocketEffect.Conveyed, ← readBack_code serde (n + 1) code, ActorSocketEffect.toJson,
      readBack_taggedJson]
    simp only [readBackFields_serde_cons, readBackFields_serde_nil, readBack_string,
      Option.bind_some, Option.map_some]
    cases Json.readBack serdeWriter serde.toReader (n + 1) (.num (.ofNat code)) with
    | none => simp
    | some v =>
      simp [taggedJson, ActorSocketEffect.ofJson, asTagged, field, asString, ActorSocketEffect.ofFields,
        Option.bind_eq_some_iff]
  | setMetadata connectionId metadata =>
    have hinner : serde.maxDepth - 2 = n + 1 := by omega
    rw [ActorSocketEffect.Conveyed, hinner, ← readBack_eq_iff, ActorSocketEffect.toJson, readBack_taggedJson]
    simp only [readBackFields_serde_cons, readBackFields_serde_nil, readBack_string,
      Option.bind_some, Option.map_some]
    cases Json.readBack serdeWriter serde.toReader (n + 1) metadata with
    | none => simp
    | some v =>
      simp [taggedJson, ActorSocketEffect.ofJson, asTagged, field, asString, ActorSocketEffect.ofFields]
  | setTags connectionId tags =>
    rw [ActorSocketEffect.toJson, readBack_taggedJson]
    simp [readBackFields_serde_cons, readBackFields_serde_nil, readBack_string, readBack_strings,
      taggedJson, ActorSocketEffect.ofJson, asTagged, field, asString, ActorSocketEffect.ofFields,
      asList_strings, ActorSocketEffect.Conveyed]

theorem effects_conveyed_iff (effects : List ActorSocketEffect) (hdepth : 3 ≤ serde.maxDepth) :
    (fromSlice serde (toVec (.arr (effects.map ActorSocketEffect.toJson)))).bind (asList ActorSocketEffect.ofJson) =
      some effects ↔ ∀ e ∈ effects, e.Conveyed serde := by
  obtain ⟨n, hn⟩ : ∃ n, serde.maxDepth = n + 3 := ⟨serde.maxDepth - 3, by omega⟩
  rw [fromSlice_toVec_eq, hn, Json.readBack]
  induction effects with
  | nil => simp [readBackItems, asList]
  | cons e effects ih =>
    rw [List.forall_mem_cons, ← ih, ← effect_conveyed_iff e hn, List.map_cons, readBackItems]
    cases Json.readBack serdeWriter serde.toReader (n + 2) e.toJson with
    | none => simp
    | some t =>
      cases readBackItems serdeWriter serde.toReader (n + 2) (effects.map ActorSocketEffect.toJson) with
      | none => simp
      | some ts =>
        simp only [Option.bind_some, Option.map_some, asList, List.mapM_cons]
        cases ActorSocketEffect.ofJson t with
        | none => simp
        | some e' => cases ts.mapM ActorSocketEffect.ofJson <;> simp

/-! ### Answers -/

namespace Gateway

open Prog

/-- A reply that sends the caller elsewhere: the cached target is invalidated, and another
attempt resolves it again if one is left. -/
def retryDispatch (principal : ActorPrincipal) (invocation : ActorSocketInvocation) (attempts : ℕ) :
    ExceptT Error GatewayM (List ActorSocketEffect) := do
  lift (ask (.invalidateTarget (targetKey principal invocation.actor)))
  if attempts = 0 then throw (.new "actor host remained unavailable after socket reroute")
  else dispatchAttempts principal invocation attempts

/-- What `dispatch_socket_event` makes of an answer with `attempts` left after it. -/
def answered (principal : ActorPrincipal) (invocation : ActorSocketInvocation) (target : WorkflowActorTarget)
    (attempts : ℕ) : Result ActorExecutionResult → ExceptT Error GatewayM (List ActorSocketEffect)
  | .ok (.completed _ effects) => pure effects
  | .ok .reroute => retryDispatch principal invocation attempts
  | .ok .hostUnavailable => retryDispatch principal invocation attempts
  | .ok (.failed failure) => throw (.new (failure.code ++ ": " ++ failure.message))
  | .error e => do
    lift (ask (.invalidateTarget (targetKey principal invocation.actor)))
    lift (ask (.invalidateChannel target.route))
    throw e

theorem dispatchAttempts_succ (principal : ActorPrincipal) (invocation : ActorSocketInvocation)
    (attempts : ℕ) :
    dispatchAttempts principal invocation (attempts + 1) = (do
      let target ← socketTarget principal invocation.actor
      answered principal invocation target attempts (← lift (ask (.sendSocketEvent target invocation)))) := by
  rw [dispatchAttempts]
  refine bind_congr fun target => bind_congr fun answer => ?_
  rcases answer with e | r
  · rfl
  · cases r <;> rfl

end Gateway

/-- An answer survives if it comes back as it was; and when a host is unavailable, the gateway
that sent it an event takes the reply for what it is and tries again. -/
structure AnswerSurvives (serde : SerdeJson) (r : ActorExecutionResult) : Prop where
  converted : ActorExecutionResult.ofReply serde (.ofResult r) = .ok r
  retried : r = .hostUnavailable → ∀ principal invocation target,
    Gateway.answered principal invocation target 1
        (ActorExecutionResult.ofReply serde (.ofSocketResult .hostUnavailable)) =
      Gateway.retryDispatch principal invocation 1

/-- What the reply can carry: numbers `serde_json` reads back exactly, no deeper than it reads. -/
def Conveyed (serde : SerdeJson) : ActorExecutionResult → Prop
  | .completed result effects => Readable serde serde.maxDepth result ∧ ∀ e ∈ effects, e.Conveyed serde
  | .failed _ => True
  | .reroute => True
  | .hostUnavailable => False

theorem ofReply_completed_iff {resultJson socketEffectsJson : ByteArray} {r : ActorExecutionResult} :
    ActorExecutionResult.ofReply serde ⟨some (.completed resultJson socketEffectsJson)⟩ = .ok r ↔
      ∃ result effects, (fromSlice serde resultJson).map toValue = some result ∧
        (fromSlice serde socketEffectsJson).bind (asList ActorSocketEffect.ofJson) = some effects ∧
          r = .completed result effects := by
  have hreply : ActorExecutionResult.ofReply serde ⟨some (.completed resultJson socketEffectsJson)⟩ = (do
      let result ← orContext ((fromSlice serde resultJson).map toValue) "actor result is not valid JSON"
      let effects ← orContext ((fromSlice serde socketEffectsJson).bind (asList ActorSocketEffect.ofJson))
        "actor socket effects are not valid JSON"
      pure (.completed result effects)) := rfl
  rw [hreply]
  constructor
  · intro h
    obtain ⟨result, hresult, h⟩ := bind_ok.mp h
    obtain ⟨effects, heffects, h⟩ := bind_ok.mp h
    cases h
    exact ⟨result, effects, orContext_ok.mp hresult, orContext_ok.mp heffects, rfl⟩
  · rintro ⟨result, effects, hresult, heffects, rfl⟩
    rw [hresult, heffects]
    rfl

theorem ofReply_ofResult_completed {result : Value} {effects : List ActorSocketEffect}
    (hdepth : 3 ≤ serde.maxDepth) :
    ActorExecutionResult.ofReply serde (.ofResult (.completed result effects)) =
      .ok (.completed result effects) ↔
      Conveyed serde (.completed result effects) := by
  rw [Conveyed, ← readBack_eq_iff, ← fromSlice_toVec_eq, ← effects_conveyed_iff effects hdepth,
    InvokeActorReply.ofResult, ofReply_completed_iff]
  constructor
  · rintro ⟨result', effects', hresult, heffects, heq⟩
    cases heq
    exact ⟨hresult, heffects⟩
  · rintro ⟨hresult, heffects⟩
    exact ⟨result, effects, hresult, heffects, rfl⟩

/-- No reply is read as a host that is unavailable: the branch that retries then is dead. -/
theorem ofReply_ne_hostUnavailable (reply : InvokeActorReply) :
    ActorExecutionResult.ofReply serde reply ≠ .ok .hostUnavailable := by
  obtain ⟨_ | ⟨resultJson, socketEffectsJson⟩ | ⟨code, message⟩ | _⟩ := reply
  · nofun
  · intro h
    obtain ⟨result, effects, -, -, heq⟩ := ofReply_completed_iff.mp h
    cases heq
  · nofun
  · nofun

/-- The gateway gives up where it was meant to try again. -/
theorem unavailable_not_retried (principal : ActorPrincipal) (invocation : ActorSocketInvocation)
    (target : WorkflowActorTarget) : Gateway.answered principal invocation target 1
      (ActorExecutionResult.ofReply serde (.ofSocketResult .hostUnavailable)) ≠
        Gateway.retryDispatch principal invocation 1 := by
  have hthrown : Gateway.answered principal invocation target 1
      (ActorExecutionResult.ofReply serde (.ofSocketResult .hostUnavailable)) =
        throw (.new "unavailable: actor host is draining") := rfl
  rw [hthrown]
  intro h
  cases congrArg ExceptT.run h

/-- An answer survives the wire exactly if the reply can carry it. -/
theorem answer_survives_iff (hdepth : 3 ≤ serde.maxDepth) (r : ActorExecutionResult) :
    AnswerSurvives serde r ↔ Conveyed serde r := by
  cases r with
  | completed result effects =>
    rw [← ofReply_ofResult_completed hdepth]
    exact ⟨fun h => h.converted, fun h => ⟨h, fun hr => nomatch hr⟩⟩
  | failed failure => exact iff_of_true ⟨rfl, fun hr => nomatch hr⟩ trivial
  | reroute => exact iff_of_true ⟨rfl, fun hr => nomatch hr⟩ trivial
  | hostUnavailable => exact iff_of_false (fun h => ofReply_ne_hostUnavailable _ h.converted) id

/-- A counter's answer with a tag, a metadata object and a broadcast, read by `serde_json` as it is. -/
theorem answer_survives_counter : AnswerSurvives literalSerde
    (.completed (.obj [("count", .num (.ofNat 3))])
      [.setTags "c1" ["counter"], .setMetadata "c1" (.obj [("name", .str "ada")]),
        .broadcast (.text "3") ["c1"] [], .close "c2" 1000 "done"]) := by
  rw [answer_survives_iff (by decide), Conveyed]
  refine ⟨?_, ?_⟩
  · simp [literalSerde, Readable, ReadableFields, Number.ofNat, isNumberLiteral_digits]
  · simp [ActorSocketEffect.Conveyed, literalSerde, Readable, ReadableFields]

/-- A host that is draining is reported as a failure of the actor, and the event is not sent again. -/
theorem draining_host_not_conveyed :
    ActorExecutionResult.ofReply literalSerde (.ofResult .hostUnavailable) =
        .ok (.failed ⟨"unavailable", "actor host is draining"⟩) ∧
      ¬ AnswerSurvives literalSerde .hostUnavailable ∧
      ∀ principal invocation target, Gateway.answered principal invocation target 1
        (ActorExecutionResult.ofReply literalSerde (.ofSocketResult .hostUnavailable)) ≠
          Gateway.retryDispatch principal invocation 1 :=
  ⟨rfl, fun h => ofReply_ne_hostUnavailable _ h.converted, unavailable_not_retried⟩

end LDO
