import Mathlib.Data.List.Nodup
import DurableObjects.Sanity.Frame

/-! Decoding a document that was read. Whatever the reader accepts of a reply decodes to
a reply, and to the same values exactly when every number of it is read exactly. -/

namespace LDO

open Json

variable {serde : SerdeJson}

/-! ### Maps -/

theorem insertField_perm {α : Type} {key : String} {v : α} {map : List (String × α)}
    (h : key ∉ map.map Prod.fst) : (insertField key v map).Perm ((key, v) :: map) := by
  induction map with
  | nil => exact .refl _
  | cons f map ih =>
    obtain ⟨k, w⟩ := f
    simp only [List.map_cons, List.mem_cons, not_or] at h
    rw [insertField]
    split_ifs with hlt heq
    · exact .refl _
    · exact absurd heq h.1
    · exact ((ih h.2).cons _).trans (.swap _ _ _)

/-- A field as it stands in the map. -/
def valueField (f : String × Value) : String × Value := (f.1, toValue f.2)

theorem toValueFields_perm : ∀ (fs map : List (String × Value)), ((fs ++ map).map Prod.fst).Nodup →
    (toValueFields fs map).Perm (fs.map valueField ++ map) := by
  intro fs
  induction fs with
  | nil =>
    intro map _
    rw [toValueFields]
    exact .refl _
  | cons f fs ih =>
    intro map hnodup
    obtain ⟨k, v⟩ := f
    have hk : k ∉ map.map Prod.fst := by
      simp only [List.cons_append, List.map_cons, List.nodup_cons, List.map_append, List.mem_append,
        not_or] at hnodup
      exact hnodup.1.2
    have hinsert := insertField_perm (v := toValue v) hk
    have hnodup' : ((fs ++ insertField k (toValue v) map).map Prod.fst).Nodup := by
      have hperm : ((fs ++ insertField k (toValue v) map).map Prod.fst).Perm
          (((k, v) :: fs ++ map).map Prod.fst) := by
        refine ((hinsert.append_left fs).map Prod.fst).trans ?_
        simp
      exact hperm.nodup_iff.mpr hnodup
    rw [toValueFields]
    refine (ih _ hnodup').trans ((hinsert.append_left _).trans ?_)
    simp [valueField]

theorem text_biUnique :
    Relator.BiUnique fun (k : Units) (k' : String) => jsWriter.text k = some k'.toList := by
  refine ⟨fun k l k' hk hl => textOfUnits_inj hk hl, fun k k' l' hk hl => ?_⟩
  have heq : some k'.toList = some l'.toList := hk.symm.trans hl
  exact String.toList_inj.mp (Option.some.inj heq)

/-- Distinct keys stay distinct when they are read, and every field is in the map. -/
theorem toValueFields_read {d : ℕ} {fs : List (Units × JsTree)} {ts : List (String × Value)}
    (hread : readBackFields jsWriter serde.toReader d fs = some ts) (hfs : (fs.map Prod.fst).Nodup) :
    (toValueFields ts []).Perm (ts.map valueField) ∧ ((toValueFields ts []).map Prod.fst).Nodup := by
  have hts : (ts.map Prod.fst).Nodup :=
    (List.rel_nodup text_biUnique (readBackFields_keys hread)).mp hfs
  have hperm : (toValueFields ts []).Perm (ts.map valueField) := by
    simpa using toValueFields_perm ts [] (by simpa using hts)
  refine ⟨hperm, (hperm.map Prod.fst).nodup_iff.mpr ?_⟩
  simpa [valueField, Function.comp_def] using hts

/-! ### Values -/

theorem Exact.isSome {n : Number} (h : serde.Exact n) : (serde.number n.text).isSome := by
  obtain ⟨n', hn', -⟩ := h
  simp [hn']

theorem value_eq_of_mem {fields : List (String × Value)} (h : (fields.map Prod.fst).Nodup)
    {k : String} {v w : Value} (hv : (k, v) ∈ fields) (hw : (k, w) ∈ fields) : v = w := by
  have := List.inj_on_of_nodup_map h hv hw rfl
  exact (Prod.ext_iff.mp this).2

mutual
/-- A value that is read is the same value if all of its numbers are. -/
theorem sameValue_iff : ∀ {v : JsTree} {d : ℕ} {t : Value}, DistinctKeys v →
    readBack jsWriter serde.toReader d v = some t → (SameValue v (toValue t) ↔ AllNumbers serde.Exact v)
  | .null, d, t, _, h => by
    simp only [readBack, Option.some.injEq] at h
    subst h
    simp [SameValue, toValue, AllNumbers]
  | .bool b, d, t, _, h => by
    simp only [readBack, Option.some.injEq] at h
    subst h
    simp [SameValue, toValue, AllNumbers]
  | .num n, d, t, _, h => by
    simp only [readBack, Option.map_eq_some_iff] at h
    obtain ⟨n', hn', rfl⟩ := h
    have hnumber : serde.number n.text = some n' := hn'
    simp [SameValue, toValue, AllNumbers, SerdeJson.Exact, hnumber]
  | .str s, d, t, _, h => by
    simp only [readBack, Option.map_eq_some_iff] at h
    obtain ⟨cs, hcs, rfl⟩ := h
    have htext : textOfUnits s = some cs := hcs
    simp [SameValue, toValue, AllNumbers, SameString, htext]
  | .arr vs, d, t, hdistinct, h => by
    obtain ⟨d', ts, rfl, hts, rfl⟩ := readBack_arr_some.mp h
    rw [DistinctKeys] at hdistinct
    have hitems := sameItems_iff hdistinct hts
    simp [SameValue, toValue, AllNumbers, hitems]
  | .obj fs, d, t, hdistinct, h => by
    obtain ⟨d', ts, rfl, hts, rfl⟩ := readBack_obj_some.mp h
    rw [DistinctKeys] at hdistinct
    obtain ⟨hperm, hnodup⟩ := toValueFields_read hts hdistinct.1
    have hlength : (toValueFields ts []).length = fs.length := by
      have hkeys := (readBackFields_keys hts).length_eq
      rw [hperm.length_eq]
      simpa using hkeys.symm
    have hfields := sameFields_iff hdistinct.2 hts hnodup fun f hf => hperm.mem_iff.mpr (List.mem_map_of_mem hf)
    simp [SameValue, toValue, AllNumbers, hlength, hfields]

theorem sameItems_iff : ∀ {vs : List JsTree} {d : ℕ} {ts : List Value}, DistinctItems vs →
    readBackItems jsWriter serde.toReader d vs = some ts →
    (SameItems vs (toValueItems ts) ↔ AllNumbersItems serde.Exact vs)
  | [], d, ts, _, h => by
    simp only [readBackItems, Option.some.injEq] at h
    subst h
    simp [SameItems, toValueItems, AllNumbersItems]
  | v :: vs, d, ts, hdistinct, h => by
    obtain ⟨t, ts', ht, hts, rfl⟩ := readBackItems_cons_some.mp h
    rw [DistinctItems] at hdistinct
    have hv := sameValue_iff hdistinct.1 ht
    have hvs := sameItems_iff hdistinct.2 hts
    simp [SameItems, toValueItems, AllNumbersItems, hv, hvs]

theorem sameFields_iff : ∀ {fs : List (Units × JsTree)} {d : ℕ} {ts fields : List (String × Value)},
    DistinctFields fs → readBackFields jsWriter serde.toReader d fs = some ts →
    (fields.map Prod.fst).Nodup → (∀ f ∈ ts, valueField f ∈ fields) →
    (SameFields fs fields ↔ AllNumbersFields serde.Exact fs)
  | [], d, ts, fields, _, _, _, _ => by simp [SameFields, AllNumbersFields]
  | (k, v) :: fs, d, ts, fields, hdistinct, h, hnodup, hmem => by
    obtain ⟨k', t, ts', hk, ht, hts, rfl⟩ := readBackFields_cons_some.mp h
    rw [DistinctFields] at hdistinct
    have hv := sameValue_iff hdistinct.1 ht
    have hfs := sameFields_iff hdistinct.2 hts hnodup fun f hf => hmem f (List.mem_cons_of_mem _ hf)
    have hfield : (String.ofList k', toValue t) ∈ fields := hmem (String.ofList k', t) (by simp)
    have htext : textOfUnits k = some k' := hk
    rw [SameFields, AllNumbersFields, hfs, ← hv]
    refine and_congr_left fun _ => ⟨?_, fun hsame => ⟨_, _, by simp [SameString, htext], hfield, hsame⟩⟩
    -- the keys of the map are distinct, so the field found there is the one that was read
    rintro ⟨l, w, hl, hw, hsame⟩
    rw [SameString, htext, Option.some.injEq] at hl
    subst hl
    rw [String.ofList_toList] at hfield
    rwa [value_eq_of_mem hnodup hfield hw]
end

/-! ### Tagged documents -/

def IsAscii (s : String) : Prop := ∀ c ∈ s.toList, c.toNat < 0x80

instance (s : String) : Decidable (IsAscii s) :=
  decidable_of_iff ((s.toList.all fun c => c.toNat < 0x80) = true) (by simp [IsAscii])

theorem text_ascii {s : String} (h : IsAscii s) : jsWriter.text (ascii s) = some s.toList :=
  textOfUnits_ascii h

/-- The fields of a document and what was read of them. -/
def ReadFields (serde : SerdeJson) (d : ℕ) : List (String × JsTree) → List (String × Value) → Prop :=
  List.Forall₂ fun f f' => f'.1 = f.1 ∧ readBack jsWriter serde.toReader d f.2 = some f'.2

theorem readBackFields_ascii {d : ℕ} {fields : List (String × JsTree)} {ts : List (String × Value)}
    (hkeys : ∀ f ∈ fields, IsAscii f.1)
    (h : readBackFields jsWriter serde.toReader d (fields.map fun f => (ascii f.1, f.2)) = some ts) :
    ReadFields serde d fields ts := by
  induction fields generalizing ts with
  | nil =>
    simp only [List.map_nil, readBackFields, Option.some.injEq] at h
    subst h
    exact .nil
  | cons f fields ih =>
    obtain ⟨k', t, ts', hk, ht, hts, rfl⟩ := readBackFields_cons_some.mp h
    rw [text_ascii (hkeys f (by simp)), Option.some.injEq] at hk
    refine .cons ⟨?_, ht⟩ (ih (fun f hf => hkeys f (List.mem_cons_of_mem _ hf)) hts)
    rw [← hk, String.ofList_toList]

theorem readBack_tagged {d : ℕ} {tag : String} {fields : List (String × JsTree)} {t : Value}
    (hkeys : ∀ k ∈ tag :: fields.map Prod.fst, IsAscii k)
    (h : readBack jsWriter serde.toReader d (tagged tag fields) = some t) :
    ∃ d' fs, t = .obj (("type", .str tag) :: fs) ∧ ReadFields serde d' fields fs := by
  obtain ⟨d', ts, rfl, hts, rfl⟩ := readBack_obj_some.mp h
  obtain ⟨k', v, ts', hk, hv, hrest, rfl⟩ := readBackFields_cons_some.mp hts
  rw [text_ascii (by decide), Option.some.injEq] at hk
  rw [readBack, text_ascii (hkeys tag (by simp)), Option.map_some, Option.some.injEq] at hv
  refine ⟨d', ts', ?_, readBackFields_ascii (fun f hf => hkeys _ ?_) hrest⟩
  · rw [← hk, ← hv, String.ofList_toList, String.ofList_toList]
  · exact List.mem_cons_of_mem _ (List.mem_map_of_mem hf)

theorem allNumbers_tagged {p : Number → Prop} {tag : String} {fields : List (String × JsTree)} :
    AllNumbers p (tagged tag fields) ↔ ∀ f ∈ fields, AllNumbers p f.2 := by
  have hfields : AllNumbersFields p (fields.map fun f => (ascii f.1, f.2)) ↔ ∀ f ∈ fields, AllNumbers p f.2 := by
    induction fields with
    | nil => simp [AllNumbersFields]
    | cons f fields ih => simp [AllNumbersFields, ih]
  simp [tagged, AllNumbers, AllNumbersFields, hfields]

theorem readFields_nil {d : ℕ} {fs : List (String × Value)} : ReadFields serde d [] fs ↔ fs = [] :=
  List.forall₂_nil_left_iff

theorem readFields_cons {d : ℕ} {k : String} {v : JsTree} {fields : List (String × JsTree)}
    {fs : List (String × Value)} : ReadFields serde d ((k, v) :: fields) fs ↔
      ∃ t fs', readBack jsWriter serde.toReader d v = some t ∧ ReadFields serde d fields fs' ∧
      fs = (k, t) :: fs' := by
  rw [ReadFields, List.forall₂_cons_left_iff]
  constructor
  · rintro ⟨⟨k', t⟩, fs', ⟨rfl, ht⟩, hfs, rfl⟩
    exact ⟨t, fs', ht, hfs, rfl⟩
  · rintro ⟨t, fs', ht, hfs, rfl⟩
    exact ⟨(k, t), fs', ⟨rfl, ht⟩, hfs, rfl⟩

theorem readBack_str {d : ℕ} {s : Units} {t : Value}
    (h : readBack jsWriter serde.toReader d (.str s) = some t) :
    ∃ s', t = .str s' ∧ SameString s s' := by
  simp only [readBack, Option.map_eq_some_iff] at h
  obtain ⟨cs, hcs, rfl⟩ := h
  refine ⟨String.ofList cs, rfl, ?_⟩
  rw [SameString, String.toList_ofList]
  exact hcs

theorem readBack_strs {d : ℕ} {ss : List Units} {t : Value}
    (h : readBack jsWriter serde.toReader d (.arr (ss.map .str)) = some t) :
    ∃ ss', asList asString t = some ss' ∧ List.Forall₂ SameString ss ss' := by
  obtain ⟨d', ts, rfl, hts, rfl⟩ := readBack_arr_some.mp h
  clear h
  rw [asList]
  induction ss generalizing ts with
  | nil =>
    simp only [List.map_nil, readBackItems, Option.some.injEq] at hts
    subst hts
    exact ⟨[], by simp, .nil⟩
  | cons s ss ih =>
    obtain ⟨t, ts', ht, hrest, rfl⟩ := readBackItems_cons_some.mp hts
    obtain ⟨s', rfl, hs⟩ := readBack_str ht
    obtain ⟨ss', hss, hsame⟩ := ih _ hrest
    exact ⟨s' :: ss', by simp [asString, hss], .cons hs hsame⟩

theorem readBack_nat {d n : ℕ} (hn : n ≤ u64Max) {t : Value}
    (h : readBack jsWriter serde.toReader d (jsNat n) = some t) : t = .num (.ofNat n) := by
  simp only [jsNat, readBack, jsWriter, Number.ofNat, serde.integers n hn, Option.map_some,
    Option.some.injEq] at h
  exact h.symm

theorem allNumbers_nat {n : ℕ} (hn : n ≤ u64Max) : AllNumbers serde.Exact (jsNat n) :=
  ⟨.ofNat n, serde.integers n hn, rfl⟩

theorem asU16_ofNat {n : ℕ} (hn : n ≤ 65535) : asU16 (.num (.ofNat n)) = some n := by
  have hu64 : n ≤ u64Max := hn.trans (by decide)
  simp [asU16, asBounded, asU64, asU64_ofNat hu64, hn]

theorem CloseCode.le (code : CloseCode) : code.code ≤ 65535 := by
  have hvalid := code.valid
  omega

theorem CloseCode.le_u64Max (code : CloseCode) : code.code ≤ u64Max := code.le.trans (by decide)

theorem allNumbers_strs {p : Number → Prop} (ss : List Units) :
    AllNumbersItems p (ss.map Json.str : List JsTree) := by
  induction ss with
  | nil => trivial
  | cons s ss ih => exact ⟨trivial, ih⟩

/-! ### Effects -/

theorem SocketMessage.allNumbers {p : Number → Prop} (m : SocketMessage) : AllNumbers p m.toJs := by
  cases m <;> simp [SocketMessage.toJs, allNumbers_tagged, AllNumbers]

theorem SocketMessage.read {d : ℕ} {m : SocketMessage} {t : Value}
    (h : readBack jsWriter serde.toReader d m.toJs = some t) :
    ∃ m', ActorSocketMessage.ofJson t = some m' ∧ m.Same m' := by
  cases m with
  | text data =>
    obtain ⟨d', fs, rfl, hfs⟩ := readBack_tagged (by simp only [List.map_cons, List.map_nil]; decide) h
    simp only [readFields_cons, readFields_nil] at hfs
    obtain ⟨t, _, ht, rfl, rfl⟩ := hfs
    obtain ⟨s', rfl, hs⟩ := readBack_str ht
    exact ⟨.text s', by simp [ActorSocketMessage.ofJson, asTagged, field, asString], hs⟩
  | binary data =>
    obtain ⟨d', fs, rfl, hfs⟩ := readBack_tagged (by simp only [List.map_cons, List.map_nil]; decide) h
    simp only [readFields_cons, readFields_nil] at hfs
    obtain ⟨t, _, ht, rfl, rfl⟩ := hfs
    obtain ⟨s', rfl, hs⟩ := readBack_str ht
    exact ⟨.binary s', by simp [ActorSocketMessage.ofJson, asTagged, field, asString], hs⟩

theorem SocketEffect.read {d : ℕ} {e : SocketEffect} {t : Value}
    (h : readBack jsWriter serde.toReader d e.toJs = some t) :
    ∃ e', ActorSocketEffect.ofJson t = some e' ∧ (e.Same e' ↔ AllNumbers serde.Exact e.toJs) := by
  cases e with
  | send id message =>
    obtain ⟨d', fs, rfl, hfs⟩ := readBack_tagged (by simp only [List.map_cons, List.map_nil]; decide) h
    simp only [readFields_cons, readFields_nil] at hfs
    obtain ⟨t₁, _, h₁, ⟨t₂, _, h₂, rfl, rfl⟩, rfl⟩ := hfs
    obtain ⟨id', rfl, hid⟩ := readBack_str h₁
    obtain ⟨m', hm, hsame⟩ := SocketMessage.read h₂
    refine ⟨.send id' m', ?_, iff_of_true ⟨hid, hsame⟩ ?_⟩
    · simp [ActorSocketEffect.ofJson, asTagged, ActorSocketEffect.ofFields, field, asString, hm]
    · simp [SocketEffect.toJs, allNumbers_tagged, AllNumbers, message.allNumbers]
  | broadcast message excepted tags =>
    obtain ⟨d', fs, rfl, hfs⟩ := readBack_tagged (by simp only [List.map_cons, List.map_nil]; decide) h
    simp only [readFields_cons, readFields_nil] at hfs
    obtain ⟨t₁, _, h₁, ⟨t₂, _, h₂, ⟨t₃, _, h₃, rfl, rfl⟩, rfl⟩, rfl⟩ := hfs
    obtain ⟨m', hm, hsame⟩ := SocketMessage.read h₁
    obtain ⟨excepted', hexcepted, hsame₂⟩ := readBack_strs h₂
    obtain ⟨tags', htags, hsame₃⟩ := readBack_strs h₃
    refine ⟨.broadcast m' excepted' tags', ?_, iff_of_true ⟨hsame, hsame₂, hsame₃⟩ ?_⟩
    · simp [ActorSocketEffect.ofJson, asTagged, ActorSocketEffect.ofFields, field, asString, hm,
        hexcepted, htags]
    · simp [SocketEffect.toJs, allNumbers_tagged, AllNumbers, message.allNumbers, allNumbers_strs]
  | close id code reason =>
    obtain ⟨d', fs, rfl, hfs⟩ := readBack_tagged (by simp only [List.map_cons, List.map_nil]; decide) h
    simp only [readFields_cons, readFields_nil] at hfs
    obtain ⟨t₁, _, h₁, ⟨t₂, _, h₂, ⟨t₃, _, h₃, rfl, rfl⟩, rfl⟩, rfl⟩ := hfs
    obtain ⟨id', rfl, hid⟩ := readBack_str h₁
    obtain rfl := readBack_nat code.le_u64Max h₂
    obtain ⟨reason', rfl, hreason⟩ := readBack_str h₃
    refine ⟨.close id' code.code reason', ?_, iff_of_true ⟨hid, rfl, hreason⟩ ?_⟩
    · simp [ActorSocketEffect.ofJson, asTagged, ActorSocketEffect.ofFields, field, asString,
        asU16_ofNat code.le]
    · simp [SocketEffect.toJs, allNumbers_tagged, AllNumbers, allNumbers_nat code.le_u64Max]
  | reject id code reason =>
    obtain ⟨d', fs, rfl, hfs⟩ := readBack_tagged (by simp only [List.map_cons, List.map_nil]; decide) h
    simp only [readFields_cons, readFields_nil] at hfs
    obtain ⟨t₁, _, h₁, ⟨t₂, _, h₂, ⟨t₃, _, h₃, rfl, rfl⟩, rfl⟩, rfl⟩ := hfs
    obtain ⟨id', rfl, hid⟩ := readBack_str h₁
    obtain rfl := readBack_nat code.le_u64Max h₂
    obtain ⟨reason', rfl, hreason⟩ := readBack_str h₃
    refine ⟨.reject id' code.code reason', ?_, iff_of_true ⟨hid, rfl, hreason⟩ ?_⟩
    · simp [ActorSocketEffect.ofJson, asTagged, ActorSocketEffect.ofFields, field, asString,
        asU16_ofNat code.le]
    · simp [SocketEffect.toJs, allNumbers_tagged, AllNumbers, allNumbers_nat code.le_u64Max]
  | setMetadata id metadata =>
    obtain ⟨d', fs, rfl, hfs⟩ := readBack_tagged (by simp only [List.map_cons, List.map_nil]; decide) h
    simp only [readFields_cons, readFields_nil] at hfs
    obtain ⟨t₁, _, h₁, ⟨t₂, _, h₂, rfl, rfl⟩, rfl⟩ := hfs
    obtain ⟨id', rfl, hid⟩ := readBack_str h₁
    have hmetadata := sameValue_iff metadata.distinct h₂
    refine ⟨.setMetadata id' (toValue t₂), ?_, ?_⟩
    · simp [ActorSocketEffect.ofJson, asTagged, ActorSocketEffect.ofFields, field, asString]
    · simp [SocketEffect.Same, hid, hmetadata, SocketEffect.toJs, allNumbers_tagged, AllNumbers]
  | setTags id tags =>
    obtain ⟨d', fs, rfl, hfs⟩ := readBack_tagged (by simp only [List.map_cons, List.map_nil]; decide) h
    simp only [readFields_cons, readFields_nil] at hfs
    obtain ⟨t₁, _, h₁, ⟨t₂, _, h₂, rfl, rfl⟩, rfl⟩ := hfs
    obtain ⟨id', rfl, hid⟩ := readBack_str h₁
    obtain ⟨tags', htags, hsame⟩ := readBack_strs h₂
    refine ⟨.setTags id' tags', ?_, iff_of_true ⟨hid, hsame⟩ ?_⟩
    · simp [ActorSocketEffect.ofJson, asTagged, ActorSocketEffect.ofFields, field, asString, htags]
    · simp [SocketEffect.toJs, allNumbers_tagged, AllNumbers, allNumbers_strs]

theorem effects_read {d : ℕ} {effects : List SocketEffect} {t : Value}
    (h : readBack jsWriter serde.toReader d (effectsToJs effects) = some t) :
    ∃ effects', asList ActorSocketEffect.ofJson t = some effects' ∧
      (List.Forall₂ SocketEffect.Same effects effects' ↔ AllNumbers serde.Exact (effectsToJs effects)) := by
  obtain ⟨d', ts, rfl, hts, rfl⟩ := readBack_arr_some.mp h
  clear h
  rw [asList, effectsToJs, AllNumbers]
  induction effects generalizing ts with
  | nil =>
    simp only [List.map_nil, readBackItems, Option.some.injEq] at hts
    subst hts
    exact ⟨[], by simp, by simp [AllNumbersItems]⟩
  | cons e effects ih =>
    obtain ⟨t, ts', ht, hrest, rfl⟩ := readBackItems_cons_some.mp hts
    obtain ⟨e', he, hsame⟩ := SocketEffect.read ht
    obtain ⟨effects', heffects, hall⟩ := ih _ hrest
    refine ⟨e' :: effects', by simp [he, heffects], ?_⟩
    simp [AllNumbersItems, hsame, hall]

/-! ### Replies -/

theorem ActorExecutorReply.read {d : ℕ} {r : ActorExecutorReply} {t : Value}
    (h : readBack jsWriter serde.toReader d r.toJs = some t) :
    ∃ r', ExecutorReply.ofJson t = some r' ∧ (r.Same r' ↔ AllNumbers serde.Exact r.toJs) := by
  cases r with
  | stateRequired =>
    obtain ⟨d', fs, rfl, hfs⟩ := readBack_tagged (by decide) h
    rw [readFields_nil] at hfs
    subst hfs
    exact ⟨.stateRequired, by simp [ExecutorReply.ofJson, asTagged, ExecutorReply.ofFields, field, asString],
      iff_of_true trivial (by simp [ActorExecutorReply.toJs, allNumbers_tagged])⟩
  | evicted =>
    obtain ⟨d', fs, rfl, hfs⟩ := readBack_tagged (by decide) h
    rw [readFields_nil] at hfs
    subst hfs
    exact ⟨.evicted, by simp [ExecutorReply.ofJson, asTagged, ExecutorReply.ofFields, field, asString],
      iff_of_true trivial (by simp [ActorExecutorReply.toJs, allNumbers_tagged])⟩
  | failed code message =>
    obtain ⟨d', fs, rfl, hfs⟩ := readBack_tagged (by simp only [List.map_cons, List.map_nil]; decide) h
    simp only [readFields_cons, readFields_nil] at hfs
    obtain ⟨t₁, _, h₁, ⟨t₂, _, h₂, rfl, rfl⟩, rfl⟩ := hfs
    obtain ⟨code', rfl, hcode⟩ := readBack_str h₁
    obtain ⟨message', rfl, hmessage⟩ := readBack_str h₂
    refine ⟨.failed code' message', ?_, iff_of_true ⟨hcode, hmessage⟩ ?_⟩
    · simp [ExecutorReply.ofJson, asTagged, ExecutorReply.ofFields, field, asString]
    · simp [ActorExecutorReply.toJs, allNumbers_tagged, AllNumbers]
  | websocketHandled state effects =>
    obtain ⟨d', fs, rfl, hfs⟩ := readBack_tagged (by simp only [List.map_cons, List.map_nil]; decide) h
    simp only [readFields_cons, readFields_nil] at hfs
    obtain ⟨t₁, _, h₁, ⟨t₂, _, h₂, rfl, rfl⟩, rfl⟩ := hfs
    have hstate := sameValue_iff state.distinct h₁
    obtain ⟨effects', heffects, hall⟩ := effects_read h₂
    refine ⟨.websocketHandled (toValue t₁) effects', ?_, ?_⟩
    · simp [ExecutorReply.ofJson, asTagged, ExecutorReply.ofFields, field, asString, heffects]
    · rw [← JsonObject.tree] at hstate
      simp [ActorExecutorReply.Same, ActorExecutorReply.toJs, allNumbers_tagged, hstate, hall]
  | invoked result state effects =>
    by_cases hnone : effects = []
    · subst hnone
      rw [ActorExecutorReply.toJs, if_pos rfl, List.append_nil] at h ⊢
      obtain ⟨d', fs, rfl, hfs⟩ := readBack_tagged (by simp only [List.map_cons, List.map_nil]; decide) h
      simp only [readFields_cons, readFields_nil] at hfs
      obtain ⟨t₁, _, h₁, ⟨t₂, _, h₂, rfl, rfl⟩, rfl⟩ := hfs
      have hresult := sameValue_iff result.distinct h₁
      have hstate := sameValue_iff state.distinct h₂
      rw [← JsonObject.tree] at hstate
      refine ⟨.invoked (toValue t₁) (toValue t₂) [], ?_, ?_⟩
      · simp [ExecutorReply.ofJson, asTagged, ExecutorReply.ofFields, field, fieldOr, asString, asList]
      · simp [ActorExecutorReply.Same, allNumbers_tagged, hresult, hstate]
    · rw [ActorExecutorReply.toJs, if_neg hnone] at h ⊢
      obtain ⟨d', fs, rfl, hfs⟩ := readBack_tagged
        (by simp only [List.cons_append, List.nil_append, List.map_cons, List.map_nil]; decide) h
      simp only [List.cons_append, List.nil_append, readFields_cons, readFields_nil] at hfs
      obtain ⟨t₁, _, h₁, ⟨t₂, _, h₂, ⟨t₃, _, h₃, rfl, rfl⟩, rfl⟩, rfl⟩ := hfs
      have hresult := sameValue_iff result.distinct h₁
      have hstate := sameValue_iff state.distinct h₂
      rw [← JsonObject.tree] at hstate
      obtain ⟨effects', heffects, hall⟩ := effects_read h₃
      refine ⟨.invoked (toValue t₁) (toValue t₂) effects', ?_, ?_⟩
      · simp [ExecutorReply.ofJson, asTagged, ExecutorReply.ofFields, field, fieldOr, asString, heffects]
      · simp [ActorExecutorReply.Same, allNumbers_tagged, hresult, hstate, hall]

end LDO
