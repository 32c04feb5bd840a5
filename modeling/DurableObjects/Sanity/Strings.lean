import Mathlib
import DurableObjects.Sanity.Decoding
import DurableObjects.Spec.Schemas
import DurableObjects.Spec.SocketScope

/-! Strings and their sizes. The two sides count a string in UTF-16 units, in characters and in bytes
of UTF-8; of a string that has come over the wire these agree as far as the checks need it. -/

namespace LDO

open Json

variable {s t : String} {c : Char} {us : Units}

theorem isComponentChar_printable (h : isComponentChar c = true) :
    0x20 ≤ c.toNat ∧ c.toNat < 0x7f ∧ c ≠ '/' := by
  have hslash : c.toNat ≠ 47 → c ≠ '/' := by
    rintro hne rfl
    exact hne rfl
  simp only [isComponentChar, Char.isAlphanum, Char.isAlpha, Char.isUpper, Char.isLower,
    Char.isDigit, Bool.or_eq_true,
    Bool.and_eq_true, decide_eq_true_eq, beq_iff_eq, UInt32.le_iff_toNat_le] at h
  have hnat : c.val.toNat = c.toNat := rfl
  rcases h with ((((h | h) | h) | rfl) | rfl) | rfl
  · simp at h
    exact ⟨by omega, by omega, hslash (by omega)⟩
  · simp at h
    exact ⟨by omega, by omega, hslash (by omega)⟩
  · simp at h
    exact ⟨by omega, by omega, hslash (by omega)⟩
  · decide
  · decide
  · decide

theorem utf8ByteSize_ofList (l : List Char) : (String.ofList l).utf8ByteSize = (l.map Char.utf8Size).sum := by
  induction l with
  | nil => rfl
  | cons c l ih =>
    rw [String.ofList_cons, String.utf8ByteSize_append, String.utf8ByteSize_singleton, ih,
      List.map_cons, List.sum_cons]

theorem utf8ByteSize_of_ascii (h : ∀ c ∈ s.toList, c.toNat < 0x80) : s.utf8ByteSize = s.toList.length := by
  have hone : ∀ c ∈ s.toList, c.utf8Size = 1 := by
    intro c hc
    rw [Char.utf8Size_eq_one_iff, UInt32.le_iff_toNat_le]
    exact Nat.le_of_lt_succ (h c hc)
  rw [← String.ofList_toList (s := s), utf8ByteSize_ofList, String.toList_ofList,
    List.map_congr_left hone, List.map_const', List.sum_replicate_nat, mul_one]

theorem utf8ByteSize_of_components (h : s.toList.all isComponentChar = true) :
    s.utf8ByteSize = s.toList.length := by
  apply utf8ByteSize_of_ascii
  intro c hc
  obtain ⟨-, hlt, -⟩ := isComponentChar_printable (List.all_eq_true.mp h c hc)
  omega

/-! ### Code units -/

theorem mapM_getLeft_iff {ps : List (Char ⊕ UInt16)} {cs : List Char} :
    ps.mapM Sum.getLeft? = some cs ↔ ps = cs.map .inl := by
  induction ps generalizing cs with
  | nil => cases cs <;> simp
  | cons p ps ih =>
    cases p with
    | inl c =>
      rw [textOfUnits_cons_inl, Option.map_eq_some_iff]
      cases cs with
      | nil => simp
      | cons d cs => simp [ih, and_comm]
    | inr u =>
      rw [textOfUnits_cons_inr]
      cases cs <;> simp

theorem SameString.codePoints (h : SameString us t) : codePoints us = t.toList.map .inl :=
  mapM_getLeft_iff.mp h

theorem SameString.byteLength (h : SameString us t) : unitsByteLength us = t.utf8ByteSize := by
  rw [unitsByteLength, h.codePoints, List.map_map, ← String.ofList_toList (s := t), utf8ByteSize_ofList,
    String.toList_ofList]
  rfl

theorem SameString.length (h : SameString us t) : utf16Length t = us.length := by
  rw [utf16Length, flatMap_unitsOfChar h]

theorem length_le_utf16Length (t : String) : t.length ≤ utf16Length t := by
  have hunits : ∀ c : Char, 1 ≤ (unitsOfChar c).length := by
    intro c
    rw [unitsOfChar]
    split_ifs <;> simp
  rw [utf16Length, ← String.length_toList]
  induction t.toList with
  | nil => simp
  | cons c cs ih =>
    have := hunits c
    rw [List.flatMap_cons, List.length_append, List.length_cons]
    omega

theorem ne_empty_iff : t ≠ "" ↔ 1 ≤ utf16Length t := by
  constructor
  · intro h
    have hlength : t.length ≠ 0 := fun hzero => h (String.length_eq_zero_iff.mp hzero)
    have hle := length_le_utf16Length t
    omega
  · rintro h rfl
    exact absurd h (by decide)

theorem utf16Length_of_ascii (h : IsAscii t) : utf16Length t = t.length := by
  have hunit : ∀ c ∈ t.toList, unitsOfChar c = [UInt16.ofNat c.toNat] := by
    intro c hc
    have hlt := h c hc
    rw [unitsOfChar, if_pos (by omega)]
  rw [utf16Length, List.flatMap_congr hunit, ← String.length_toList]
  simp

theorem sameString_ascii (h : IsAscii t) : SameString (ascii t) t := textOfUnits_ascii h

theorem SameString.exists_of_wellFormed (h : WellFormed us) : ∃ t, SameString us t := by
  obtain ⟨cs, hcs⟩ := Option.isSome_iff_exists.mp (textOfUnits_isSome.mpr h)
  exact ⟨String.ofList cs, by rw [SameString, String.toList_ofList, hcs]⟩

theorem SameString.wellFormed (h : SameString us t) : WellFormed us :=
  textOfUnits_isSome.mp (by rw [h]; rfl)

theorem wellFormed_ascii (h : IsAscii t) : WellFormed (ascii t) := (sameString_ascii h).wellFormed

/-! ### Base64 -/

/-- The characters of the alphabet, gone through once. -/
theorem base64_alphabet : ∀ n < 64, base64Value (base64Char n) = some n ∧ isBase64Char (base64Char n) = true ∧
    base64Char n ≠ '=' ∧ (base64Char n).toNat < 0x80 := by
  decide +kernel

theorem base64Value_char (n : ℕ) (h : n < 64) : base64Value (base64Char n) = some n := (base64_alphabet n h).1

theorem isBase64Char_char (n : ℕ) (h : n < 64) : isBase64Char (base64Char n) = true :=
  (base64_alphabet n h).2.1

theorem base64Char_ne_pad (n : ℕ) (h : n < 64) : base64Char n ≠ '=' := (base64_alphabet n h).2.2.1

theorem base64Char_ascii (n : ℕ) (h : n < 64) : (base64Char n).toNat < 0x80 := (base64_alphabet n h).2.2.2

theorem base64Encode_ascii (bytes : List UInt8) : ∀ c ∈ base64Encode bytes, c.toNat < 0x80 := by
  fun_induction base64Encode bytes with
  | case1 => simp
  | case2 a =>
    have ha := a.toNat_lt
    simp [base64Char_ascii _ (by omega : a.toNat / 4 < 64), base64Char_ascii _ (by omega : a.toNat % 4 * 16 < 64)]
  | case3 a b =>
    have ha := a.toNat_lt
    have hb := b.toNat_lt
    simp [base64Char_ascii _ (by omega : a.toNat / 4 < 64),
      base64Char_ascii _ (by omega : a.toNat % 4 * 16 + b.toNat / 16 < 64), base64Char_ascii _ (by omega : b.toNat % 16 * 4 < 64)]
  | case4 a b c rest ih =>
    have ha := a.toNat_lt
    have hb := b.toNat_lt
    have hc := c.toNat_lt
    simpa [base64Char_ascii _ (by omega : a.toNat / 4 < 64), base64Char_ascii _ (by omega : a.toNat % 4 * 16 + b.toNat / 16 < 64),
      base64Char_ascii _ (by omega : b.toNat % 16 * 4 + c.toNat / 64 < 64),
      base64Char_ascii _ (by omega : c.toNat % 64 < 64)] using ih

theorem length_base64Encode (bytes : List UInt8) :
    (base64Encode bytes).length = (bytes.length + 2) / 3 * 4 := by
  fun_induction base64Encode bytes with
  | case1 => rfl
  | case2 a => simp
  | case3 a b => simp
  | case4 a b c rest ih =>
    simp only [List.length_cons, ih]
    omega

/-- The host takes the encoding for what it is. -/
theorem base64DecodedLength_encode (bytes : List UInt8) :
    base64DecodedLength (base64Encode bytes) = some bytes.length := by
  fun_induction base64Encode bytes with
  | case1 => rfl
  | case2 a =>
    have ha := a.toNat_lt
    simp [base64DecodedLength, base64Value_char _ (by omega : a.toNat / 4 < 64),
      base64Value_char _ (by omega : a.toNat % 4 * 16 < 64)]
  | case3 a b =>
    have ha := a.toNat_lt
    have hb := b.toNat_lt
    have hne := base64Char_ne_pad _ (by omega : b.toNat % 16 * 4 < 64)
    rw [base64DecodedLength]
    · simp [base64Value_char _ (by omega : a.toNat / 4 < 64),
        base64Value_char _ (by omega : a.toNat % 4 * 16 + b.toNat / 16 < 64), base64Value_char _ (by omega : b.toNat % 16 * 4 < 64)]
    · exact hne
  | case4 a b c rest ih =>
    have ha := a.toNat_lt
    have hb := b.toNat_lt
    have hc := c.toNat_lt
    have hne := base64Char_ne_pad _ (by omega : c.toNat % 64 < 64)
    rw [base64DecodedLength]
    · simp [base64Value_char _ (by omega : a.toNat / 4 < 64),
        base64Value_char _ (by omega : a.toNat % 4 * 16 + b.toNat / 16 < 64),
        base64Value_char _ (by omega : b.toNat % 16 * 4 + c.toNat / 64 < 64), base64Value_char _ (by omega : c.toNat % 64 < 64), ih]
    · exact fun _ hpad _ => hne hpad
    · exact fun hpad _ => hne hpad

/-- And so does the pattern of the schema. -/
theorem isBase64_encode (bytes : List UInt8) : isBase64 (base64Encode bytes) = true := by
  fun_induction base64Encode bytes with
  | case1 => rfl
  | case2 a =>
    have ha := a.toNat_lt
    simp [isBase64, isBase64Char_char _ (by omega : a.toNat / 4 < 64), isBase64Char_char _ (by omega : a.toNat % 4 * 16 < 64)]
  | case3 a b =>
    have ha := a.toNat_lt
    have hb := b.toNat_lt
    have hne := base64Char_ne_pad _ (by omega : b.toNat % 16 * 4 < 64)
    rw [isBase64]
    · simp [isBase64Char_char _ (by omega : a.toNat / 4 < 64),
        isBase64Char_char _ (by omega : a.toNat % 4 * 16 + b.toNat / 16 < 64), isBase64Char_char _ (by omega : b.toNat % 16 * 4 < 64)]
    · exact hne
  | case4 a b c rest ih =>
    have ha := a.toNat_lt
    have hb := b.toNat_lt
    have hc := c.toNat_lt
    have hne := base64Char_ne_pad _ (by omega : c.toNat % 64 < 64)
    rw [isBase64]
    · simp [isBase64Char_char _ (by omega : a.toNat / 4 < 64),
        isBase64Char_char _ (by omega : a.toNat % 4 * 16 + b.toNat / 16 < 64),
        isBase64Char_char _ (by omega : b.toNat % 16 * 4 + c.toNat / 64 < 64), isBase64Char_char _ (by omega : c.toNat % 64 < 64), ih]
    · exact fun _ hpad _ => hne hpad
    · exact fun hpad _ => hne hpad

/-- What the two last characters leave of the length. -/
theorem base64ByteLength_concat (ds : List Char) (e f : Char) (h : ds ≠ []) :
    base64ByteLength (ds ++ [e, f]) =
    (ds.length + if f = '=' then if e = '=' then 0 else 1 else 2) * 3 / 4 := by
  have hsplit : ds ++ [e, f] = (ds ++ [e]) ++ [f] := by simp
  have hpos : 0 < ds.length := List.length_pos_iff.mpr h
  rw [base64ByteLength, hsplit, List.getLast?_concat, List.dropLast_concat]
  by_cases hf : f = '='
  · by_cases he : e = '='
    · simp [hf, he, hpos]
    · simp [hf, he]
  · simp [hf]

theorem base64ByteLength_append {x y z w : Char} {cs : List Char} (h : 4 ≤ cs.length) :
    base64ByteLength (x :: y :: z :: w :: cs) = base64ByteLength cs + 3 := by
  obtain ⟨ds, e, f, rfl⟩ : ∃ ds e f, cs = ds ++ [e, f] := by
    obtain ⟨ds, f, rfl⟩ := List.eq_nil_or_concat cs |>.resolve_left (by rintro rfl; simp at h)
    obtain ⟨es, e, rfl⟩ := List.eq_nil_or_concat ds |>.resolve_left (by rintro rfl; simp at h)
    exact ⟨es, e, f, by simp⟩
  have hds : ds ≠ [] := by
    rintro rfl
    simp at h
  have hcons := base64ByteLength_concat (x :: y :: z :: w :: ds) e f (by simp)
  rw [base64ByteLength_concat ds e f hds]
  refine hcons.trans ?_
  simp only [List.length_cons]
  omega

theorem base64ByteLength_encode (bytes : List UInt8) :
    base64ByteLength (base64Encode bytes) = bytes.length := by
  induction bytes using base64Encode.induct with
  | case1 => rfl
  | case2 a => simp [base64Encode, base64ByteLength]
  | case3 a b =>
    have ha := a.toNat_lt
    have hb := b.toNat_lt
    have hne := base64Char_ne_pad _ (by omega : b.toNat % 16 * 4 < 64)
    simp [base64Encode, base64ByteLength, hne]
  | case4 a b c rest ih =>
    have hc := c.toNat_lt
    have hne := base64Char_ne_pad _ (by omega : c.toNat % 64 < 64)
    cases rest with
    | nil => simp [base64Encode, base64ByteLength, hne]
    | cons d rest =>
      have hlong : 4 ≤ (base64Encode (d :: rest)).length := by
        rw [length_base64Encode, List.length_cons]
        omega
      rw [base64Encode, base64ByteLength_append hlong, ih]
      rfl

end LDO
