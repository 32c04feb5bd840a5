import DurableObjects.Lib.JsonShape
import DurableObjects.Spec.StateLog

/-! What a snapshot decodes to after it was encoded: to what `serde_json` reads of the text of
its state and result, and to itself if these are values it reads back, that is, no number it
would round, no map out of order, and not nested too deep for the snapshot around them. Values
that reached the host through `serde_json` are in order and no deeper than it reads, but a
float it has read may be printed as a text that it reads as another one. -/

namespace LDO

open Json

variable {serde : SerdeJson}

mutual
theorem Readable.readBack : ∀ {v : Value} {depth : ℕ}, Readable serde depth v →
    Json.readBack serdeWriter serde.toReader depth v = some v
  | .null, _, _ => by simp [Json.readBack]
  | .bool _, _, _ => by simp [Json.readBack]
  | .str s, _, _ => by simp [Json.readBack, serdeWriter]
  | .num n, _, h => by
    rw [Readable] at h
    simp [Json.readBack, serdeWriter, h]
  | .arr _, 0, h => by simp [Readable] at h
  | .obj _, 0, h => by simp [Readable] at h
  | .arr vs, depth + 1, h => by
    rw [Readable] at h
    rw [Json.readBack, h.readBack]
    rfl
  | .obj fs, depth + 1, h => by
    rw [Readable] at h
    rw [Json.readBack, h.2.readBack]
    rfl

theorem ReadableItems.readBack : ∀ {vs : List Value} {depth : ℕ}, ReadableItems serde depth vs →
    readBackItems serdeWriter serde.toReader depth vs = some vs
  | [], _, _ => by rw [readBackItems]
  | v :: vs, depth, h => by
    rw [ReadableItems] at h
    rw [readBackItems, h.1.readBack, h.2.readBack]
    rfl

theorem ReadableFields.readBack : ∀ {fs : List (String × Value)} {depth : ℕ}, ReadableFields serde depth fs →
    readBackFields serdeWriter serde.toReader depth fs = some fs
  | [], _, _ => by rw [readBackFields]
  | (k, v) :: fs, depth, h => by
    rw [ReadableFields] at h
    rw [readBackFields, h.1.readBack, h.2.readBack]
    simp [serdeWriter]
end

theorem insertField_last {α : Type} {key : String} (v : α) {map : List (String × α)}
    (h : ∀ k ∈ map.map Prod.fst, k < key) : insertField key v map = map ++ [(key, v)] := by
  induction map with
  | nil => rfl
  | cons f map ih =>
    obtain ⟨k, w⟩ := f
    have hk : k < key := h k (by simp)
    have hlt : ¬ key < k := lt_asymm hk
    have hne : ¬ key = k := (ne_of_lt hk).symm
    rw [insertField, if_neg hlt, if_neg hne, ih fun k hk => h k (by simp [hk])]
    rfl

mutual
theorem Readable.toValue : ∀ {v : Value} {depth : ℕ}, Readable serde depth v → LDO.toValue v = v
  | .null, _, _ => by rw [LDO.toValue] <;> simp
  | .bool _, _, _ => by rw [LDO.toValue] <;> simp
  | .str _, _, _ => by rw [LDO.toValue] <;> simp
  | .num _, _, _ => by rw [LDO.toValue] <;> simp
  | .arr _, 0, h => by simp [Readable] at h
  | .obj _, 0, h => by simp [Readable] at h
  | .arr vs, depth + 1, h => by
    rw [Readable] at h
    rw [LDO.toValue, h.toValue]
  | .obj fs, depth + 1, h => by
    rw [Readable] at h
    rw [LDO.toValue, h.2.toValue [] (by simpa using h.1)]
    rfl

theorem ReadableItems.toValue : ∀ {vs : List Value} {depth : ℕ}, ReadableItems serde depth vs →
    toValueItems vs = vs
  | [], _, _ => by rw [toValueItems]
  | v :: vs, depth, h => by
    rw [ReadableItems] at h
    rw [toValueItems, h.1.toValue, h.2.toValue]

theorem ReadableFields.toValue : ∀ {fs : List (String × Value)} {depth : ℕ}, ReadableFields serde depth fs →
    ∀ map : List (String × Value), ((map ++ fs).map Prod.fst).Pairwise (· < ·) →
    toValueFields fs map = map ++ fs
  | [], _, _, map, _ => by rw [toValueFields, List.append_nil]
  | (k, v) :: fs, depth, h, map, hsorted => by
    rw [ReadableFields] at h
    have hlast : ∀ l ∈ map.map Prod.fst, l < k := by
      intro l hl
      rw [List.map_append, List.pairwise_append] at hsorted
      exact hsorted.2.2 l hl k (by simp)
    rw [toValueFields, h.1.toValue, insertField_last v hlast, h.2.toValue _ (by simpa using hsorted)]
    simp
end

theorem fromUTF8?_toUTF8 (s : String) : String.fromUTF8? s.toUTF8 = some s := by
  rw [String.toUTF8_eq_toByteArray, String.fromUTF8?, dif_pos s.isValidUTF8]
  rfl

/-- What is printed is read back. -/
theorem fromSlice_toVec_eq (v : Value) :
    fromSlice serde (toVec v) = Json.readBack serdeWriter serde.toReader serde.maxDepth v := by
  rw [fromSlice, toVec, fromUTF8?_toUTF8]
  simp only [String.toList_ofList]
  have hread := read_print serdeWriter serde.toReader v [] rfl
  rwa [List.append_nil] at hread

theorem asU64_ofNat {n : ℕ} (h : n ≤ u64Max) : (Number.ofNat n).asU64 = some n := by
  have hdigit : (Nat.toDigits 10 n).all Char.isDigit = true := by
    rw [List.all_eq_true]
    exact fun c hc => Nat.isDigit_of_mem_toDigits (by decide) (by decide) hc
  have hvalue : Nat.ofDigitChars 10 (Nat.toDigits 10 n) 0 = n :=
    Nat.ofDigitChars_toDigits (by decide) (by decide)
  simp only [Number.asU64, Number.ofNat, hdigit, hvalue, if_true, h]

theorem toDigits_injective {n m : ℕ} (h : Nat.toDigits 10 n = Nat.toDigits 10 m) : n = m := by
  have hn : Nat.ofDigitChars 10 (Nat.toDigits 10 n) 0 = n := Nat.ofDigitChars_toDigits (by decide) (by decide)
  rw [h] at hn
  exact hn.symm.trans (Nat.ofDigitChars_toDigits (by decide) (by decide))

/-- A reader that keeps every number literal as it is. -/
def literalSerde : SerdeJson where
  number cs := if h : isNumberLiteral cs = true then some ⟨cs, h⟩ else none
  maxDepth := 127
  integers n _ := by simp [isNumberLiteral_digits, Number.ofNat]

/-- Values with one text are the same. -/
theorem toVec_injective {v v' : Value} (h : toVec v = toVec v') : v = v' := by
  have hchars : serdeWriter.print v = serdeWriter.print v' := by
    rw [toVec, toVec, String.toUTF8_eq_toByteArray, String.toUTF8_eq_toByteArray, String.toByteArray_inj] at h
    exact String.ofList_injective h
  have hnumber : ∀ n : Number, literalSerde.number (serdeWriter.digits n) = some n := by
    intro n
    change (if h : isNumberLiteral n.text = true then some (⟨n.text, h⟩ : Number) else none) = some n
    rw [dif_pos n.literal]
  exact print_injective (fun s => rfl) hnumber hchars

/-- What `serde_json` reads of a value that it has printed inside a document. -/
def readAgain (serde : SerdeJson) (v : Value) : Option Value :=
  (Json.readBack serdeWriter serde.toReader (serde.maxDepth - 1) v).map toValue

/-- Inside a document the value is read as it was. -/
def ReadsBack (serde : SerdeJson) (v : Value) : Prop :=
  ∃ depth, depth + 1 = serde.maxDepth ∧ Readable serde depth v

theorem ReadsBack.readAgain {v : Value} (h : ReadsBack serde v) : readAgain serde v = some v := by
  obtain ⟨depth, hdepth, hv⟩ := h
  rw [LDO.readAgain, ← hdepth, Nat.add_sub_cancel, hv.readBack, Option.map_some, hv.toValue]

namespace StateSnapshot

variable {snapshot snapshot' : StateSnapshot} {bytes : ByteArray}

/-- The snapshot is one that is encoded, and its numbers are machine integers. -/
structure Sound (snapshot : StateSnapshot) : Prop where
  valid : snapshot.validate = .ok ()
  version : snapshot.stateVersion ≤ u64Max
  epoch : snapshot.ownerEpoch ≤ u64Max

/-- `serde_json` reads the state and the result back. -/
structure ReadsBack (serde : SerdeJson) (snapshot : StateSnapshot) : Prop where
  state : LDO.ReadsBack serde snapshot.state
  result : LDO.ReadsBack serde snapshot.result

theorem encode_ok (h : snapshot.validate = .ok ()) : snapshot.encode = .ok (toVec snapshot.toJson) := by
  rw [encode, h]
  rfl

theorem encode_eq (h : snapshot.encode = .ok bytes) :
    snapshot.validate = .ok () ∧ bytes = toVec snapshot.toJson := by
  obtain ⟨_, hvalid, hbytes⟩ := bind_ok.mp h
  cases hbytes
  exact ⟨hvalid, rfl⟩

/-- An object was encoded from one snapshot. -/
theorem encode_injective (h : snapshot.encode = .ok bytes) (h' : snapshot'.encode = .ok bytes) :
    snapshot = snapshot' := by
  have hjson := toVec_injective ((encode_eq h).2.symm.trans (encode_eq h').2)
  obtain ⟨version, epoch, id, state, result⟩ := snapshot
  obtain ⟨version', epoch', id', state', result'⟩ := snapshot'
  simp only [toJson, Json.obj.injEq, List.cons.injEq, Prod.mk.injEq, Json.num.injEq, Json.str.injEq,
    true_and, and_true, Number.ofNat, Number.mk.injEq] at hjson
  obtain ⟨hversion, hepoch, rfl, rfl, rfl⟩ := hjson
  obtain rfl := toDigits_injective hversion
  obtain rfl := toDigits_injective hepoch
  rfl

/-- What the text of `snapshot` is read as. -/
structure ReadAgain (serde : SerdeJson) (snapshot snapshot' : StateSnapshot) : Prop where
  version : snapshot'.stateVersion = snapshot.stateVersion
  epoch : snapshot'.ownerEpoch = snapshot.ownerEpoch
  requestId : snapshot'.requestId = snapshot.requestId
  state : readAgain serde snapshot.state = some snapshot'.state
  result : readAgain serde snapshot.result = some snapshot'.result

theorem readBack_toJson (h : snapshot.Sound) (depth : ℕ) :
    Json.readBack serdeWriter serde.toReader (depth + 1) snapshot.toJson =
    (Json.readBack serdeWriter serde.toReader depth snapshot.state).bind fun state =>
      (Json.readBack serdeWriter serde.toReader depth snapshot.result).map fun result =>
        .obj [("stateVersion", .num (.ofNat snapshot.stateVersion)), ("ownerEpoch", .num (.ofNat snapshot.ownerEpoch)),
          ("requestId", .str snapshot.requestId), ("state", state), ("result", result)] := by
  have htext : ∀ s : String, serdeWriter.text s = some s.toList := fun _ => rfl
  have hversion : serde.number (serdeWriter.digits (.ofNat snapshot.stateVersion)) =
      some (.ofNat snapshot.stateVersion) :=
    serde.integers _ h.version
  have hepoch : serde.number (serdeWriter.digits (.ofNat snapshot.ownerEpoch)) =
      some (.ofNat snapshot.ownerEpoch) :=
    serde.integers _ h.epoch
  simp only [toJson, Json.readBack, readBackFields, htext, hversion, hepoch, Option.map_some,
    Option.bind_some, String.ofList_toList]
  cases Json.readBack serdeWriter serde.toReader depth snapshot.state with
  | none => rfl
  | some state => cases Json.readBack serdeWriter serde.toReader depth snapshot.result <;> rfl

theorem ofJson_fromSlice (h : snapshot.Sound) :
    (fromSlice serde (toVec snapshot.toJson)).bind ofJson = some snapshot' ↔
    0 < serde.maxDepth ∧ ReadAgain serde snapshot snapshot' := by
  rw [fromSlice_toVec_eq]
  cases hdepth : serde.maxDepth with
  | zero => simp [toJson, Json.readBack]
  | succ depth =>
    have hagain : ∀ v, readAgain serde v = (Json.readBack serdeWriter serde.toReader depth v).map toValue := by
      intro v
      rw [readAgain, hdepth, Nat.add_sub_cancel]
    rw [readBack_toJson h]
    cases hs : Json.readBack serdeWriter serde.toReader depth snapshot.state with
    | none =>
      refine iff_of_false (by simp) fun hagain' => ?_
      have hstate := hagain'.2.state
      rw [hagain, hs] at hstate
      cases hstate
    | some state =>
      cases hr : Json.readBack serdeWriter serde.toReader depth snapshot.result with
      | none =>
        refine iff_of_false (by simp) fun hagain' => ?_
        have hresult := hagain'.2.result
        rw [hagain, hr] at hresult
        cases hresult
      | some result =>
        have hread : ofJson (.obj [("stateVersion", .num (.ofNat snapshot.stateVersion)),
            ("ownerEpoch", .num (.ofNat snapshot.ownerEpoch)),
              ("requestId", .str snapshot.requestId), ("state", state),
            ("result", result)]) = some ⟨snapshot.stateVersion, snapshot.ownerEpoch, snapshot.requestId, toValue state,
              toValue result⟩ := by
          simp [ofJson, field, asU64, asString, asU64_ofNat h.version, asU64_ofNat h.epoch]
        simp only [Option.map_some, Option.bind_some, hread, Option.some.injEq]
        constructor
        · rintro rfl
          exact ⟨Nat.succ_pos _, rfl, rfl, rfl, by rw [hagain, hs]; rfl, by rw [hagain, hr]; rfl⟩
        · rintro ⟨-, hversion, hepoch, hid, hstate, hresult⟩
          rw [hagain, hs] at hstate
          rw [hagain, hr] at hresult
          cases snapshot'
          simp_all

/-- What is decoded of an encoded snapshot is what its text is read as. -/
theorem decode_of_encode (h : snapshot.Sound) (henc : snapshot.encode = .ok bytes)
    (hd : decode serde bytes = .ok snapshot') :
    ReadAgain serde snapshot snapshot' := by
  obtain ⟨-, rfl⟩ := encode_eq henc
  obtain ⟨read, hread, hd⟩ := bind_ok.mp hd
  obtain ⟨_, -, hd⟩ := bind_ok.mp hd
  cases hd
  exact ((ofJson_fromSlice h).mp (orContext_ok.mp hread)).2

/-- What the text is read as is decoded, if it is a snapshot again. -/
theorem decode_of_readAgain (h : snapshot.Sound) (henc : snapshot.encode = .ok bytes)
    (hdepth : 0 < serde.maxDepth) (hagain : ReadAgain serde snapshot snapshot')
    (hvalid : snapshot'.validate = .ok ()) :
    decode serde bytes = .ok snapshot' := by
  obtain ⟨-, rfl⟩ := encode_eq henc
  rw [decode, (ofJson_fromSlice h).mpr ⟨hdepth, hagain⟩, orContext]
  change (do snapshot'.validate; pure snapshot') = _
  rw [hvalid]
  rfl

/-- Decoding inverts encoding where `serde_json` reads what it prints. -/
theorem decode_encode (h : snapshot.Sound) (hback : snapshot.ReadsBack serde)
    (henc : snapshot.encode = .ok bytes) :
    decode serde bytes = .ok snapshot := by
  obtain ⟨depth, hdepth, -⟩ := hback.state
  exact decode_of_readAgain h henc (by omega) ⟨rfl, rfl, rfl, hback.state.readAgain, hback.result.readAgain⟩ h.valid

end StateSnapshot

end LDO
