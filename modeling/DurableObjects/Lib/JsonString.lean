import DurableObjects.Lib.JsonRoundTrip

/-! String literals. A string of Unicode characters is read back as it was; a
string of UTF-16 code units only when every surrogate in it has its other half. -/

namespace Json

theorem hexValue_hexDigit : ∀ n, n < 16 → hexValue (hexDigit n) = some n := by decide

theorem readHex4_hex4 {n : ℕ} (h : n < 65536) :
    ∃ a b c d, hex4 n = [a, b, c, d] ∧ readHex4 a b c d = some n := by
  refine ⟨_, _, _, _, rfl, ?_⟩
  simp only [readHex4, hexValue_hexDigit _ (Nat.mod_lt _ (by decide : 0 < 16)), Option.bind_eq_bind,
    Option.bind_some, Option.pure_def, Option.some.injEq]
  omega

/-- A `\u` escape outside the surrogates. -/
theorem readString_hex4 {n : ℕ} (h : n < 65536) (hlow : isLowSurrogate n = false)
    (hhigh : isHighSurrogate n = false) (rest : List Char) :
    readString ('\\' :: 'u' :: hex4 n ++ rest) =
      (readString rest).map fun p => (Char.ofNat n :: p.1, p.2) := by
  obtain ⟨a, b, c, d, hhex, hread⟩ := readHex4_hex4 h
  rw [hhex]
  simp only [List.cons_append, List.nil_append]
  rw [readString]
  simp [hread, hlow, hhigh]

theorem readString_escapeChar (c : Char) (rest : List Char) :
    readString (escapeChar c ++ rest) = (readString rest).map fun p => (c :: p.1, p.2) := by
  unfold escapeChar
  split_ifs with h₁ h₂ h₃ h₄ h₅ h₆ h₇ h₈
  · subst h₁; simp [readString, unescape]
  · subst h₂; simp [readString, unescape]
  · subst h₃; simp [readString, unescape]
  · subst h₄; simp [readString, unescape]
  · subst h₅; simp [readString, unescape]
  · subst h₆; simp [readString, unescape]
  · subst h₇; simp [readString, unescape]
  · have hlow : isLowSurrogate c.toNat = false := by simp [isLowSurrogate]; omega
    have hhigh : isHighSurrogate c.toNat = false := by simp [isHighSurrogate]; omega
    rw [readString_hex4 (by omega) hlow hhigh, Char.ofNat_toNat]
  · simp only [List.singleton_append]
    rw [readString.eq_def]
    split
    · simp_all
    · simp_all
    · simp_all
    · simp_all
    · rename_i heq
      obtain ⟨rfl, rfl⟩ := List.cons.inj heq
      rw [if_neg h₈]

theorem readString_flatMap (cs rest : List Char) :
    readString (cs.flatMap escapeChar ++ '"' :: rest) = some (cs, rest) := by
  induction cs with
  | nil => simp [readString]
  | cons c cs ih => simp [List.flatMap_cons, readString_escapeChar, ih]

theorem quoteChars_read (cs rest : List Char) : ∃ body, quoteChars cs ++ rest = '"' :: body ∧
    readString body = some (cs, rest) := by
  refine ⟨cs.flatMap escapeChar ++ '"' :: rest, ?_, readString_flatMap cs rest⟩
  simp [quoteChars]

/-! ### UTF-16 -/

/-- The code points of a string of code units, unpaired surrogates kept apart. -/
def codePoints : List UInt16 → List (Char ⊕ UInt16)
  | [] => []
  | u :: us =>
    if isHighSurrogate u.toNat then
      match us with
      | v :: rest =>
        if isLowSurrogate v.toNat then .inl (Char.ofNat (joinSurrogates u.toNat v.toNat)) :: codePoints rest
        else .inr u :: codePoints (v :: rest)
      | [] => [.inr u]
    else if isLowSurrogate u.toNat then .inr u :: codePoints us
    else .inl (Char.ofNat u.toNat) :: codePoints us

def escapePoint : Char ⊕ UInt16 → List Char
  | .inl c => escapeChar c
  | .inr u => '\\' :: 'u' :: hex4 u.toNat

/-- A string literal that escapes unpaired surrogates. -/
def quoteUnits (us : List UInt16) : List Char := '"' :: ((codePoints us).flatMap escapePoint ++ ['"'])

/-- The characters of a string of code units, if it is well formed. -/
def textOfUnits (us : List UInt16) : Option (List Char) :=
  (codePoints us).mapM Sum.getLeft?

/-- Nothing here completes a surrogate pair that is being read. -/
def NoLowEscape (cs : List Char) : Prop :=
  ∀ a b c d rest n, cs = '\\' :: 'u' :: a :: b :: c :: d :: rest → readHex4 a b c d = some n →
    isLowSurrogate n = false

theorem readString_surrogate {n : ℕ} (hn : n < 65536) {rest : List Char}
    (h : isLowSurrogate n = true ∨ isHighSurrogate n = true ∧ NoLowEscape rest) :
    readString ('\\' :: 'u' :: hex4 n ++ rest) = none := by
  obtain ⟨a, b, c, d, hhex, hread⟩ := readHex4_hex4 hn
  rw [hhex]
  simp only [List.cons_append, List.nil_append]
  rw [readString]
  rcases h with hlow | ⟨hhigh, hno⟩
  · simp [hread, hlow]
  · have hlow : isLowSurrogate n = false := by
      simp only [isHighSurrogate, isLowSurrogate, Bool.and_eq_true, decide_eq_true_eq] at hhigh ⊢
      simp; omega
    simp only [hread, hlow, hhigh, if_true, Bool.false_eq_true, if_false]
    split
    · rename_i a' b' c' d' rest'
      cases hm : readHex4 a' b' c' d' with
      | none => rfl
      | some m => simp [hno _ _ _ _ _ _ rfl hm]
    · rfl

theorem noLowEscape_cons {c : Char} {cs : List Char} (h : c ≠ '\\') : NoLowEscape (c :: cs) := by
  rintro _ _ _ _ _ _ ⟨rfl, -⟩
  exact absurd rfl h

theorem noLowEscape_hex4 {n : ℕ} (hn : n < 65536) (hlow : isLowSurrogate n = false) (rest : List Char) :
    NoLowEscape ('\\' :: 'u' :: hex4 n ++ rest) := by
  obtain ⟨a, b, c, d, hhex, hread⟩ := readHex4_hex4 hn
  rw [hhex]
  rintro _ _ _ _ _ m ⟨⟩ hm
  cases hread.symm.trans hm
  exact hlow

theorem noLowEscape_escapeChar (c : Char) (rest : List Char) : NoLowEscape (escapeChar c ++ rest) := by
  unfold escapeChar
  split_ifs with h₁ h₂ h₃ h₄ h₅ h₆ h₇ h₈
  · rintro _ _ _ _ _ _ ⟨⟩
  · rintro _ _ _ _ _ _ ⟨⟩
  · rintro _ _ _ _ _ _ ⟨⟩
  · rintro _ _ _ _ _ _ ⟨⟩
  · rintro _ _ _ _ _ _ ⟨⟩
  · rintro _ _ _ _ _ _ ⟨⟩
  · rintro _ _ _ _ _ _ ⟨⟩
  · exact noLowEscape_hex4 (by omega) (by simp [isLowSurrogate]; omega) rest
  · exact noLowEscape_cons h₂

/-- The text of a string that does not start with a low surrogate. -/
theorem noLowEscape_codePoints {us : List UInt16} (h : ∀ v vs, us = v :: vs → isLowSurrogate v.toNat = false)
    (rest : List Char) : NoLowEscape ((codePoints us).flatMap escapePoint ++ '"' :: rest) := by
  have hchar := fun c (ps : List (Char ⊕ UInt16)) =>
    noLowEscape_escapeChar c (ps.flatMap escapePoint ++ '"' :: rest)
  have hunit := fun (u : UInt16) (hu : isLowSurrogate u.toNat = false) (ps : List (Char ⊕ UInt16)) =>
    noLowEscape_hex4 u.toNat_lt hu (ps.flatMap escapePoint ++ '"' :: rest)
  cases us with
  | nil => exact noLowEscape_cons (c := '"') (by decide)
  | cons u us =>
    have hu := h u us rfl
    rw [codePoints.eq_def]
    simp only [hu, Bool.false_eq_true, if_false]
    split_ifs with hhigh
    · split
      · split_ifs
        · simpa [escapePoint] using hchar _ _
        · simpa [escapePoint] using hunit u hu _
      · simpa [escapePoint] using hunit u hu []
    · simpa [escapePoint] using hchar _ _

theorem textOfUnits_cons_inl (c : Char) (ps : List (Char ⊕ UInt16)) :
    (Sum.inl c :: ps).mapM Sum.getLeft? = (ps.mapM Sum.getLeft?).map (c :: ·) := by
  cases h : ps.mapM Sum.getLeft? <;> simp [List.mapM_cons, h]

theorem textOfUnits_cons_inr (u : UInt16) (ps : List (Char ⊕ UInt16)) :
    (Sum.inr u :: ps).mapM Sum.getLeft? = none := by
  simp [List.mapM_cons]

theorem readString_codePoints (us : List UInt16) (rest : List Char) :
    readString ((codePoints us).flatMap escapePoint ++ '"' :: rest) =
      (textOfUnits us).map fun t => (t, rest) := by
  have hinl : ∀ c (vs : List UInt16),
      readString ((codePoints vs).flatMap escapePoint ++ '"' :: rest) = (textOfUnits vs).map (fun t => (t, rest)) →
      readString ((Sum.inl c :: codePoints vs).flatMap escapePoint ++ '"' :: rest) =
        ((Sum.inl c :: codePoints vs).mapM Sum.getLeft?).map fun t => (t, rest) := by
    intro c vs ih
    rw [textOfUnits_cons_inl, List.flatMap_cons, List.append_assoc]
    simp only [escapePoint, readString_escapeChar, ih, textOfUnits, Option.map_map]
    rfl
  have hinr : ∀ (u : UInt16) (ps : List (Char ⊕ UInt16)),
      (isLowSurrogate u.toNat = true ∨ isHighSurrogate u.toNat = true ∧
        NoLowEscape (ps.flatMap escapePoint ++ '"' :: rest)) →
      readString ((Sum.inr u :: ps).flatMap escapePoint ++ '"' :: rest) =
        ((Sum.inr u :: ps).mapM Sum.getLeft?).map fun t => (t, rest) := by
    intro u ps h
    rw [textOfUnits_cons_inr, List.flatMap_cons, List.append_assoc]
    exact readString_surrogate u.toNat_lt h
  unfold textOfUnits
  fun_induction codePoints us with
  | case1 => simp [readString]
  | case2 u v vs hhigh hlow ih => exact hinl _ _ ih
  | case3 u hhigh v vs hlow ih =>
    refine hinr u _ (.inr ⟨hhigh, noLowEscape_codePoints ?_ rest⟩)
    rintro _ _ ⟨rfl, rfl⟩
    simpa using hlow
  | case4 u hhigh => exact hinr u [] (.inr ⟨hhigh, noLowEscape_cons (c := '"') (by decide)⟩)
  | case5 u us hhigh hlow ih => exact hinr u _ (.inl hlow)
  | case6 u us hhigh hlow ih => exact hinl _ _ ih

theorem quoteUnits_read (us : List UInt16) (rest : List Char) : ∃ body, quoteUnits us ++ rest = '"' :: body ∧
    readString body = (textOfUnits us).map fun t => (t, rest) := by
  refine ⟨_, ?_, readString_codePoints us rest⟩
  simp [quoteUnits]

/-- The UTF-16 code units of a character. -/
def unitsOfChar (c : Char) : List UInt16 :=
  if c.toNat < 0x10000 then [UInt16.ofNat c.toNat]
  else [UInt16.ofNat (0xd800 + (c.toNat - 0x10000) / 0x400), UInt16.ofNat (0xdc00 + (c.toNat - 0x10000) % 0x400)]

theorem toNat_ofNat {n : ℕ} (h : n.isValidChar) : (Char.ofNat n).toNat = n := by
  rw [Char.ofNat, dif_pos h]
  rfl

theorem unitsOfChar_unit {u : UInt16} (hhigh : ¬ isHighSurrogate u.toNat = true)
    (hlow : ¬ isLowSurrogate u.toNat = true) : unitsOfChar (Char.ofNat u.toNat) = [u] := by
  have hu : u.toNat < 65536 := u.toNat_lt
  simp only [isHighSurrogate, isLowSurrogate, Bool.and_eq_true, decide_eq_true_eq] at hhigh hlow
  have hvalid : u.toNat.isValidChar := by
    unfold Nat.isValidChar
    omega
  rw [unitsOfChar, toNat_ofNat hvalid, if_pos hu, UInt16.ofNat_toNat]

theorem unitsOfChar_join {u v : UInt16} (hhigh : isHighSurrogate u.toNat = true)
    (hlow : isLowSurrogate v.toNat = true) :
    unitsOfChar (Char.ofNat (joinSurrogates u.toNat v.toNat)) = [u, v] := by
  simp only [isHighSurrogate, isLowSurrogate, Bool.and_eq_true, decide_eq_true_eq] at hhigh hlow
  have hvalid : (joinSurrogates u.toNat v.toNat).isValidChar := by
    unfold Nat.isValidChar joinSurrogates
    omega
  have hlarge : ¬ joinSurrogates u.toNat v.toNat < 0x10000 := by
    unfold joinSurrogates
    omega
  have hfirst : 0xd800 + (joinSurrogates u.toNat v.toNat - 0x10000) / 0x400 = u.toNat := by
    unfold joinSurrogates
    omega
  have hsecond : 0xdc00 + (joinSurrogates u.toNat v.toNat - 0x10000) % 0x400 = v.toNat := by
    unfold joinSurrogates
    omega
  rw [unitsOfChar, toNat_ofNat hvalid, if_neg hlarge, hfirst, hsecond, UInt16.ofNat_toNat, UInt16.ofNat_toNat]

/-- A well-formed string is the encoding of its characters. -/
theorem flatMap_unitsOfChar {us : List UInt16} {cs : List Char} (h : textOfUnits us = some cs) :
    cs.flatMap unitsOfChar = us := by
  unfold textOfUnits at h
  induction us using codePoints.induct generalizing cs with
  | case1 =>
    simp [codePoints] at h
    simp [h]
  | case2 u hhigh v vs hlow ih =>
    simp only [codePoints, hhigh, hlow, if_true, textOfUnits_cons_inl, Option.map_eq_some_iff] at h
    obtain ⟨cs, hcs, rfl⟩ := h
    rw [List.flatMap_cons, unitsOfChar_join hhigh hlow, ih hcs]
    rfl
  | case3 u hhigh v vs hlow ih =>
    simp only [codePoints, hhigh, hlow, if_true, Bool.false_eq_true, if_false, textOfUnits_cons_inr,
      reduceCtorEq] at h
  | case4 u hhigh =>
    simp only [codePoints, hhigh, if_true, textOfUnits_cons_inr, reduceCtorEq] at h
  | case5 u us hhigh hlow ih =>
    rw [codePoints.eq_def] at h
    simp only [hhigh, hlow, if_true, Bool.false_eq_true, if_false, textOfUnits_cons_inr, reduceCtorEq] at h
  | case6 u us hhigh hlow ih =>
    rw [codePoints.eq_def] at h
    simp only [hhigh, hlow, Bool.false_eq_true, if_false, textOfUnits_cons_inl, Option.map_eq_some_iff] at h
    obtain ⟨cs, hcs, rfl⟩ := h
    rw [List.flatMap_cons, unitsOfChar_unit hhigh hlow, ih hcs]
    rfl

theorem textOfUnits_inj {us vs : List UInt16} {cs : List Char} (hu : textOfUnits us = some cs)
    (hv : textOfUnits vs = some cs) : us = vs :=
  (flatMap_unitsOfChar hu).symm.trans (flatMap_unitsOfChar hv)

theorem textOfUnits_isSome {us : List UInt16} : (textOfUnits us).isSome ↔ ∀ u, .inr u ∉ codePoints us := by
  unfold textOfUnits
  induction codePoints us with
  | nil => simp
  | cons p ps ih =>
    cases p with
    | inl c =>
      rw [textOfUnits_cons_inl, Option.isSome_map, ih]
      simp
    | inr u =>
      rw [textOfUnits_cons_inr]
      exact iff_of_false (by simp) fun h => h u (by simp)

theorem textOfUnits_ascii {cs : List Char} (h : ∀ c ∈ cs, c.toNat < 0x80) :
    textOfUnits (cs.map fun c => UInt16.ofNat c.toNat) = some cs := by
  induction cs with
  | nil => simp [textOfUnits, codePoints]
  | cons c cs ih =>
    have hc := h c (by simp)
    have hunit : (UInt16.ofNat c.toNat).toNat = c.toNat := by
      rw [UInt16.toNat_ofNat', Nat.mod_eq_of_lt (by omega)]
    have hhigh : isHighSurrogate c.toNat = false := by simp [isHighSurrogate]; omega
    have hlow : isLowSurrogate c.toNat = false := by simp [isLowSurrogate]; omega
    have hrest := ih fun d hd => h d (by simp [hd])
    rw [textOfUnits] at hrest ⊢
    rw [List.map_cons, codePoints.eq_def]
    simp only [hunit, hhigh, hlow, Bool.false_eq_true, if_false, textOfUnits_cons_inl, hrest, Char.ofNat_toNat,
      Option.map_some]

end Json
