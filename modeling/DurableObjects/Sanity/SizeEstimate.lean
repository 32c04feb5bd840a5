import DurableObjects.Lib.JsonShape
import DurableObjects.Spec.SessionStream

/-! What the size estimate of the session adds up to. Cutting the sum short changes
nothing, so the estimate is a number; it differs from the length of the text only where a
string has a character of three bytes below the surrogates. The loop takes such a
character for the first half of a pair: it counts four bytes and skips a code unit. -/

namespace LDO

open Json

/-- The length of `JSON.stringify(value)` as UTF-8. -/
def textBytes (v : JsTree) : ℕ := byteLength (jsWriter.print v)

/-! ### Strings -/

/-- What the loop of `jsonStringByteLength` adds in all. -/
def estimatedUnits : Bool → Units → ℕ
  | _, [] => 0
  | true, _ :: us => estimatedUnits false us
  | false, u :: us => (unitBytes u us).1 + estimatedUnits (unitBytes u us).2 us

theorem upTo_none {maxBytes : ℤ} {bytes : ℕ} (h : maxBytes < bytes) : upTo maxBytes bytes = none := by
  rw [upTo, if_neg (by omega)]

theorem upTo_some {maxBytes : ℤ} {bytes : ℕ} (h : (bytes : ℤ) ≤ maxBytes) :
    upTo maxBytes bytes = some bytes := by
  rw [upTo, if_pos h]

/-- The loop stops early only if the whole would have been too long. -/
theorem stringBytesFrom_eq {maxBytes : ℤ} (us : Units) (skip : Bool) {bytes : ℕ}
    (h : (bytes : ℤ) ≤ maxBytes) :
    stringBytesFrom maxBytes skip us bytes = upTo maxBytes (bytes + estimatedUnits skip us) := by
  induction us generalizing skip bytes with
  | nil => cases skip <;> simp [stringBytesFrom, estimatedUnits, upTo, h]
  | cons u us ih =>
    cases skip with
    | true => rw [stringBytesFrom, ih false h, estimatedUnits]
    | false =>
      rw [stringBytesFrom, estimatedUnits, ← Nat.add_assoc]
      split_ifs with hover
      · exact (upTo_none (by push_cast at hover ⊢; omega)).symm
      · exact ih _ (by omega)

theorem jsonStringByteLength_eq (s : Units) (maxBytes : ℤ) :
    jsonStringByteLength s maxBytes = upTo maxBytes (2 + estimatedUnits false s) := by
  rw [jsonStringByteLength]
  split_ifs with h
  · exact (upTo_none (by push_cast; omega)).symm
  · exact stringBytesFrom_eq s false (by push_cast; omega)

/-- The bytes of a code point in a string literal. -/
def pointBytes (p : Char ⊕ UInt16) : ℕ := byteLength (escapePoint p)

/-- A character from U+0800 to U+D7FF. -/
def isMistaken : Char ⊕ UInt16 → Bool
  | .inl c => 0x800 ≤ c.toNat && c.toNat ≤ 0xd7ff
  | .inr _ => false

def isPair : Char ⊕ UInt16 → Bool
  | .inl c => 0x10000 ≤ c.toNat
  | .inr _ => false

/-- The bytes the loop counts too many: at a mistaken character one, less those of the code
point it skips; of a pair it skips only one half and takes the other for an unpaired one. -/
def surplus : List (Char ⊕ UInt16) → ℤ
  | [] => 0
  | [p] => if isMistaken p then 1 else 0
  | p :: q :: ps =>
    if isMistaken p then (if isPair q then 3 else 1 - (pointBytes q : ℤ)) + surplus ps
    else surplus (q :: ps)

def pointsBytes (ps : List (Char ⊕ UInt16)) : ℕ := (ps.map pointBytes).sum

/-! ### One code unit -/

theorem escapeChar_of_le {c : Char} (h : 0x80 ≤ c.toNat) : escapeChar c = [c] := by
  have hne : ∀ d : Char, d.toNat < 0x80 → ¬ c = d := by
    rintro d hd rfl
    omega
  have hcontrol : ¬ c.toNat < 0x20 := by omega
  simp only [escapeChar, hne '"' (by decide), hne '\\' (by decide), hne '\x08' (by decide), hne '\x09' (by decide),
    hne '\x0a' (by decide), hne '\x0c' (by decide), hne '\x0d' (by decide), hcontrol, if_false]

theorem pointBytes_of_le {c : Char} (h : 0x80 ≤ c.toNat) : pointBytes (.inl c) = c.utf8Size := by
  simp [pointBytes, escapePoint, escapeChar_of_le h, byteLength]

theorem utf8Size_eq (c : Char) : c.utf8Size =
    if c.toNat ≤ 0x7f then 1 else if c.toNat ≤ 0x7ff then 2 else if c.toNat ≤ 0xffff then 3 else 4 := by
  simp only [Char.utf8Size, UInt32.le_iff_toNat_le]
  rfl

theorem pointBytes_inr (u : UInt16) : pointBytes (.inr u) = 6 := by
  have hhex : ∀ n < 16, (hexDigit n).utf8Size = 1 := by decide
  have hdigit : ∀ n, (hexDigit (n % 16)).utf8Size = 1 := fun n => hhex _ (Nat.mod_lt _ (by decide))
  simp only [pointBytes, escapePoint, hex4, byteLength, List.map_cons, List.map_nil, hdigit,
    List.sum_cons, List.sum_nil]
  decide

theorem unitBytes_ascii :
    ∀ n < 0x80, unitBytes (UInt16.ofNat n) [] = (pointBytes (.inl (Char.ofNat n)), false) := by
  decide

theorem isShortEscape_of_le {u : UInt16} (h : 0x80 ≤ u.toNat) : isShortEscape u = false := by
  have hne : ∀ v : UInt16, v.toNat < 0x80 → u ≠ v := by
    rintro v hv rfl
    omega
  simp [isShortEscape, hne]

/-- `unitBytes` above ASCII, over the number of the unit. -/
theorem unitBytes_of_le {u : UInt16} (us : Units) (h : 0x80 ≤ u.toNat) : unitBytes u us =
    if 0xd800 ≤ u.toNat ∧ u.toNat ≤ 0xdfff ∧
    ¬ (u.toNat ≤ 0xdbff ∧ (us.head?.map isLow).getD false = true) then (6, false)
    else if u.toNat ≤ 0x7ff then (2, false) else if u.toNat ≤ 0xdbff then (4, true) else (3, false) := by
  have hcontrol : ¬ u.toNat ≤ 0x1f := by omega
  have hascii : ¬ u.toNat ≤ 0x7f := by omega
  unfold unitBytes
  rw [isShortEscape_of_le h]
  simp only [UInt16.le_iff_toNat_le, UInt16.reduceToNat, hcontrol, hascii, decide_false,
    Bool.false_or, Bool.false_eq_true,
    if_false, Bool.and_eq_true, Bool.not_eq_true', Bool.and_eq_false_iff, decide_eq_true_eq,
      decide_eq_false_iff_not, and_assoc,
    not_and_or, Bool.not_eq_true]

theorem toNat_ofNat_unit {u : UInt16} (h : u.toNat < 0xd800 ∨ 0xdfff < u.toNat) :
    (Char.ofNat u.toNat).toNat = u.toNat := by
  refine toNat_ofNat ?_
  have := u.toNat_lt
  unfold Nat.isValidChar
  omega

theorem unitBytes_single {u : UInt16} (us : Units) (h : u.toNat < 0xd800 ∨ 0xdfff < u.toNat) :
    unitBytes u us =
    if isMistaken (.inl (Char.ofNat u.toNat)) then (4, true) else (pointBytes (.inl (Char.ofNat u.toNat)), false) := by
  have hchar := toNat_ofNat_unit h
  have hlt := u.toNat_lt
  by_cases hascii : u.toNat < 0x80
  · have hbelow : ¬ 0xd800 ≤ u.toNat := by omega
    have hus : unitBytes u us = unitBytes u [] := by
      simp only [unitBytes, UInt16.le_iff_toNat_le, UInt16.reduceToNat, hbelow, decide_false, Bool.false_and]
    have hsingle := unitBytes_ascii u.toNat hascii
    rw [UInt16.ofNat_toNat] at hsingle
    have hmistaken : isMistaken (.inl (Char.ofNat u.toNat)) = false := by
      simp only [isMistaken, hchar, Bool.and_eq_false_iff, decide_eq_false_iff_not]
      omega
    rw [hus, hsingle, hmistaken]
    rfl
  · rw [unitBytes_of_le us (by omega), pointBytes_of_le (by omega), utf8Size_eq]
    simp only [isMistaken, hchar, Bool.and_eq_true, decide_eq_true_eq]
    split_ifs <;> first | rfl | omega

theorem unitBytes_pair {u v : UInt16} (us : Units) (hu : isHighSurrogate u.toNat = true)
    (hv : isLowSurrogate v.toNat = true) : unitBytes u (v :: us) = (4, true) := by
  simp only [isHighSurrogate, Bool.and_eq_true, decide_eq_true_eq] at hu
  have hlow : ((v :: us).head?.map isLow).getD false = true := hv
  rw [unitBytes_of_le _ (by omega), hlow, if_neg (by simp; omega), if_neg (by omega), if_pos hu.2]

theorem unitBytes_unpaired {u : UInt16} {us : Units} (h : 0xd800 ≤ u.toNat ∧ u.toNat ≤ 0xdfff)
    (hus : isHighSurrogate u.toNat = true → ∀ v vs, us = v :: vs → isLowSurrogate v.toNat = false) :
    unitBytes u us = (6, false) := by
  have hunpaired : ¬ (u.toNat ≤ 0xdbff ∧ (us.head?.map isLow).getD false = true) := by
    rintro ⟨hle, hlow⟩
    have hhigh : isHighSurrogate u.toNat = true := by simp [isHighSurrogate, h.1, hle]
    cases us with
    | nil => cases hlow
    | cons v vs =>
      rw [show ((v :: vs).head?.map isLow).getD false = isLowSurrogate v.toNat from rfl,
        hus hhigh v vs rfl] at hlow
      cases hlow
  rw [unitBytes_of_le _ (by omega), if_pos ⟨h.1, h.2, hunpaired⟩]

/-! ### Code points -/

theorem isMistaken_pointBytes {p : Char ⊕ UInt16} (h : isMistaken p = true) : pointBytes p = 3 := by
  cases p with
  | inr u => cases h
  | inl c =>
    simp only [isMistaken, Bool.and_eq_true, decide_eq_true_eq] at h
    rw [pointBytes_of_le (by omega), utf8Size_eq, if_neg (by omega), if_neg (by omega), if_pos (by omega)]

theorem pointBytes_of_isPair {p : Char ⊕ UInt16} (h : isPair p = true) : pointBytes p = 4 := by
  cases p with
  | inr u => cases h
  | inl c =>
    simp only [isPair, decide_eq_true_eq] at h
    rw [pointBytes_of_le (by omega), utf8Size_eq, if_neg (by omega), if_neg (by omega), if_neg (by omega)]

/-- The first code point of a string and the units it takes. -/
inductive FirstPoint : Units → Char ⊕ UInt16 → Units → Prop
  | pair {u v : UInt16} {us : Units} {c : Char} : isHighSurrogate u.toNat = true →
      isLowSurrogate v.toNat = true →
      c.toNat = joinSurrogates u.toNat v.toNat → FirstPoint (u :: v :: us) (.inl c) us
  | single {u : UInt16} {us : Units} {c : Char} : (u.toNat < 0xd800 ∨ 0xdfff < u.toNat) →
      c = Char.ofNat u.toNat → FirstPoint (u :: us) (.inl c) us
  | unpaired {u : UInt16} {us : Units} : 0xd800 ≤ u.toNat ∧ u.toNat ≤ 0xdfff →
      (isHighSurrogate u.toNat = true → ∀ v vs, us = v :: vs → isLowSurrogate v.toNat = false) →
      FirstPoint (u :: us) (.inr u) us

theorem surrogate_of_isLow {n : ℕ} (h : isLowSurrogate n = true) :
    0xd800 ≤ n ∧ n ≤ 0xdfff ∧ isHighSurrogate n = false := by
  simp only [isLowSurrogate, Bool.and_eq_true, decide_eq_true_eq] at h
  simp only [isHighSurrogate, Bool.and_eq_false_iff, decide_eq_false_iff_not]
  omega

theorem surrogate_of_isHigh {n : ℕ} (h : isHighSurrogate n = true) : 0xd800 ≤ n ∧ n ≤ 0xdfff := by
  simp only [isHighSurrogate, Bool.and_eq_true, decide_eq_true_eq] at h
  omega

theorem not_surrogate {n : ℕ} (hhigh : ¬ isHighSurrogate n = true) (hlow : ¬ isLowSurrogate n = true) :
    n < 0xd800 ∨ 0xdfff < n := by
  simp only [isHighSurrogate, Bool.and_eq_true, decide_eq_true_eq] at hhigh
  simp only [isLowSurrogate, Bool.and_eq_true, decide_eq_true_eq] at hlow
  omega

theorem le_joinSurrogates (high low : ℕ) : 0x10000 ≤ joinSurrogates high low :=
  (Nat.le_add_right _ _).trans (Nat.le_add_right _ _)

theorem toNat_joinSurrogates {high low : ℕ} (hhigh : isHighSurrogate high = true)
    (hlow : isLowSurrogate low = true) :
    (Char.ofNat (joinSurrogates high low)).toNat = joinSurrogates high low := by
  simp only [isHighSurrogate, Bool.and_eq_true, decide_eq_true_eq] at hhigh
  simp only [isLowSurrogate, Bool.and_eq_true, decide_eq_true_eq] at hlow
  refine toNat_ofNat (.inr ⟨?_, ?_⟩)
  · exact lt_of_lt_of_le (by decide) (le_joinSurrogates high low)
  · unfold joinSurrogates
    omega

theorem codePoints_cons (u : UInt16) (us : Units) :
    ∃ p rest, codePoints (u :: us) = p :: codePoints rest ∧ FirstPoint (u :: us) p rest := by
  rw [codePoints.eq_def]
  by_cases hhigh : isHighSurrogate u.toNat = true
  · have hrange := surrogate_of_isHigh hhigh
    cases us with
    | nil => exact ⟨.inr u, [], by simp [hhigh, codePoints], .unpaired hrange (by simp)⟩
    | cons v us =>
      by_cases hlow : isLowSurrogate v.toNat = true
      · exact ⟨_, us, by simp [hhigh, hlow], .pair hhigh hlow (toNat_joinSurrogates hhigh hlow)⟩
      · refine ⟨.inr u, v :: us, by simp [hhigh, hlow], .unpaired hrange fun _ w ws hw => ?_⟩
        cases hw
        simpa using hlow
  · by_cases hlow : isLowSurrogate u.toNat = true
    · obtain ⟨hge, hle, -⟩ := surrogate_of_isLow hlow
      exact ⟨.inr u, us, by simp [hhigh, hlow], .unpaired ⟨hge, hle⟩ fun h => absurd h hhigh⟩
    · exact ⟨.inl (Char.ofNat u.toNat), us, by simp [hhigh, hlow], .single (not_surrogate hhigh hlow) rfl⟩

theorem surplus_cons {p : Char ⊕ UInt16} (ps : List (Char ⊕ UInt16)) (h : isMistaken p = false) :
    surplus (p :: ps) = surplus ps := by
  cases ps with
  | nil => simp [surplus, h]
  | cons q ps => simp [surplus, h]

theorem pointsBytes_cons (p : Char ⊕ UInt16) (ps : List (Char ⊕ UInt16)) :
    pointsBytes (p :: ps) = pointBytes p + pointsBytes ps := by
  simp [pointsBytes]

/-- What the loop does with the first code point, unless it mistakes it. -/
theorem estimatedUnits_first {us rest : Units} {p : Char ⊕ UInt16} (h : FirstPoint us p rest)
    (hp : isMistaken p = false) :
    estimatedUnits false us = pointBytes p + estimatedUnits false rest := by
  cases h with
  | @pair u v us c hhigh hlow hc =>
    have hbytes : pointBytes (.inl c) = 4 := by
      refine pointBytes_of_isPair ?_
      simp only [isPair, hc, decide_eq_true_eq]
      exact le_joinSurrogates _ _
    rw [estimatedUnits, unitBytes_pair _ hhigh hlow, hbytes]
    rfl
  | @single u us c hu hc =>
    subst hc
    rw [estimatedUnits, unitBytes_single _ hu, hp]
    rfl
  | unpaired hu hus => rw [estimatedUnits, unitBytes_unpaired hu hus, pointBytes_inr]

/-- A mistaken character swallows the unit after it. -/
theorem estimatedUnits_mistaken {us rest : Units} {p : Char ⊕ UInt16} (h : FirstPoint us p rest)
    (hp : isMistaken p = true) :
    estimatedUnits false us = 4 + estimatedUnits true rest := by
  cases h with
  | @pair u v us c hhigh hlow hc =>
    have hge := le_joinSurrogates u.toNat v.toNat
    simp only [isMistaken, hc, Bool.and_eq_true, decide_eq_true_eq] at hp
    omega
  | @single u us c hu hc =>
    subst hc
    rw [estimatedUnits, unitBytes_single _ hu, hp]
    rfl
  | unpaired hu hus => cases hp

/-- The code point after a mistaken character. -/
theorem estimatedUnits_skip {us rest : Units} {p : Char ⊕ UInt16} (h : FirstPoint us p rest) :
    (estimatedUnits true us : ℤ) = (if isPair p then 6 else 0) + estimatedUnits false rest := by
  cases h with
  | @pair u v us c hhigh hlow hc =>
    have hpair : isPair (.inl c) = true := by
      simp only [isPair, hc, decide_eq_true_eq]
      exact le_joinSurrogates _ _
    obtain ⟨hge, hle, hnot⟩ := surrogate_of_isLow hlow
    rw [estimatedUnits, estimatedUnits, unitBytes_unpaired ⟨hge, hle⟩ fun hh => absurd hh (by simp [hnot]), hpair]
    push_cast
    rfl
  | @single u us c hu hc =>
    have hpair : isPair (.inl c) = false := by
      have := u.toNat_lt
      simp only [isPair, hc, toNat_ofNat_unit hu, decide_eq_false_iff_not]
      omega
    rw [estimatedUnits, hpair]
    simp
  | unpaired hu hus =>
    rw [estimatedUnits]
    simp [isPair]

theorem FirstPoint.length_lt {us rest : Units} {p : Char ⊕ UInt16} (h : FirstPoint us p rest) :
    rest.length < us.length := by
  cases h with
  | pair =>
    rw [List.length_cons, List.length_cons]
    omega
  | single => simp
  | unpaired => simp

/-- The loop counts the bytes of the literal and the surplus. -/
theorem estimatedUnits_eq (us : Units) :
    (estimatedUnits false us : ℤ) = pointsBytes (codePoints us) + surplus (codePoints us) := by
  induction hn : us.length using Nat.strong_induction_on generalizing us with
  | _ n ih =>
    subst hn
    cases us with
    | nil => rfl
    | cons u us =>
      obtain ⟨p, rest, hpoints, hfirst⟩ := codePoints_cons u us
      have hlength := hfirst.length_lt
      rw [hpoints, pointsBytes_cons]
      by_cases hp : isMistaken p = true
      · rw [estimatedUnits_mistaken hfirst hp, isMistaken_pointBytes hp]
        cases rest with
        | nil => simp [estimatedUnits, codePoints, pointsBytes, surplus, hp]
        | cons v rest =>
          obtain ⟨q, rest', hpoints', hfirst'⟩ := codePoints_cons v rest
          have hrest := ih _ (hfirst'.length_lt.trans hlength) rest' rfl
          have hskip := estimatedUnits_skip hfirst'
          rw [hpoints', pointsBytes_cons, surplus, if_pos hp]
          push_cast
          rw [hskip, hrest]
          split_ifs with hq
          · rw [pointBytes_of_isPair hq]
            omega
          · omega
      · have hrest := ih _ hlength rest rfl
        rw [estimatedUnits_first hfirst (by simpa using hp), surplus_cons _ (by simpa using hp)]
        push_cast
        omega

/-! ### Values -/

mutual
/-- What the estimate of a value adds up to, without a limit. -/
def estimate : JsTree → ℕ
  | .null => 4
  | .bool b => if b then 4 else 5
  | .num n => n.text.length
  | .str s => 2 + estimatedUnits false s
  | .arr vs => 2 + estimateItems 0 vs
  | .obj fs => 2 + estimateFields 0 fs

def estimateItems : ℕ → List JsTree → ℕ
  | _, [] => 0
  | entries, v :: vs => separatorBytes entries + estimate v + estimateItems (entries + 1) vs

def estimateFields : ℕ → List (Units × JsTree) → ℕ
  | _, [] => 0
  | entries, (k, v) :: fs =>
    (separatorBytes entries + (2 + estimatedUnits false k) + 1) + estimate v + estimateFields (entries + 1) fs
end

mutual
/-- The number of arrays and objects around the innermost value. -/
def nesting : JsTree → ℕ
  | .arr vs => nestingItems vs
  | .obj fs => nestingFields fs
  | _ => 0

def nestingItems : List JsTree → ℕ
  | [] => 0
  | v :: vs => max (nesting v + 1) (nestingItems vs)

def nestingFields : List (Units × JsTree) → ℕ
  | [] => 0
  | (_, v) :: fs => max (nesting v + 1) (nestingFields fs)
end

mutual
/-- The surplus of all strings and keys. -/
def surplusOf : JsTree → ℤ
  | .str s => surplus (codePoints s)
  | .arr vs => surplusItems vs
  | .obj fs => surplusFields fs
  | _ => 0

def surplusItems : List JsTree → ℤ
  | [] => 0
  | v :: vs => surplusOf v + surplusItems vs

def surplusFields : List (Units × JsTree) → ℤ
  | [] => 0
  | (k, v) :: fs => surplus (codePoints k) + surplusOf v + surplusFields fs
end

/-- The limit on the nesting, and the limit on the bytes. -/
def estimated (maxBytes : ℤ) (nested bytes : ℕ) : Option ℕ :=
  if nested ≤ 256 then upTo maxBytes bytes else none

theorem estimated_some {maxBytes : ℤ} {nested bytes : ℕ} (hn : nested ≤ 256) (hb : (bytes : ℤ) ≤ maxBytes) :
    estimated maxBytes nested bytes = some bytes := by
  rw [estimated, if_pos hn, upTo_some hb]

theorem estimated_none {maxBytes : ℤ} {nested bytes : ℕ} (h : 256 < nested ∨ maxBytes < bytes) :
    estimated maxBytes nested bytes = none := by
  rw [estimated]
  split_ifs with hn
  · exact upTo_none (h.resolve_left (by omega))
  · rfl

theorem estimated_congr {maxBytes : ℤ} {nested nested' bytes bytes' : ℕ} (hn : nested ≤ 256 ↔ nested' ≤ 256)
    (hb : bytes = bytes') : estimated maxBytes nested bytes = estimated maxBytes nested' bytes' := by
  simp only [estimated, hn, hb]

theorem estimated_cases (maxBytes : ℤ) (nested bytes : ℕ) :
    (nested ≤ 256 ∧ (bytes : ℤ) ≤ maxBytes ∧ estimated maxBytes nested bytes = some bytes) ∨
      ((256 < nested ∨ maxBytes < bytes) ∧ estimated maxBytes nested bytes = none) := by
  by_cases h : 256 < nested ∨ maxBytes < bytes
  · exact .inr ⟨h, estimated_none h⟩
  · have hn : nested ≤ 256 := by omega
    have hb : (bytes : ℤ) ≤ maxBytes := by omega
    exact .inl ⟨hn, hb, estimated_some hn hb⟩

theorem withinBounds_upTo {maxBytes : ℤ} (depth bytes : ℕ) :
    withinBounds maxBytes depth (upTo maxBytes bytes) = estimated maxBytes depth bytes := by
  unfold withinBounds
  split_ifs with h
  · exact (estimated_none (by omega)).symm
  · rw [estimated, if_pos (by omega)]

/-- An array or an object, from its two brackets on. -/
theorem withinBounds_container {maxBytes : ℤ} {depth nested bytes : ℕ} {rest : Option ℕ}
    (h : depth ≤ 256 → ((2 : ℕ) : ℤ) ≤ maxBytes → rest = estimated maxBytes (depth + nested) (2 + bytes)) :
    withinBounds maxBytes depth (if maxBytes < 2 then none else rest) =
      estimated maxBytes (depth + nested) (2 + bytes) := by
  unfold withinBounds
  split_ifs with hout hsmall
  · exact (estimated_none (by push_cast; omega)).symm
  · exact (estimated_none (by push_cast; omega)).symm
  · exact h (by omega) (by push_cast; omega)

mutual
theorem jsonByteLength_eq : ∀ (v : JsTree) (maxBytes : ℤ) (depth : ℕ),
    jsonByteLength maxBytes depth v = estimated maxBytes (depth + nesting v) (estimate v)
  | .null, maxBytes, depth => by rw [jsonByteLength, withinBounds_upTo, nesting, estimate] <;> simp
  | .bool b, maxBytes, depth => by rw [jsonByteLength, withinBounds_upTo, nesting, estimate] <;> simp
  | .num n, maxBytes, depth => by rw [jsonByteLength, withinBounds_upTo, nesting, estimate] <;> simp
  | .str s, maxBytes, depth => by
    rw [jsonByteLength, jsonStringByteLength_eq, withinBounds_upTo, nesting, estimate] <;> simp
  | .arr vs, maxBytes, depth => by
    rw [jsonByteLength, nesting, estimate]
    exact withinBounds_container fun hd hb => itemsByteLength_eq vs maxBytes depth 2 0 hd hb
  | .obj fs, maxBytes, depth => by
    rw [jsonByteLength, nesting, estimate]
    exact withinBounds_container fun hd hb => fieldsByteLength_eq fs maxBytes depth 2 0 hd hb

theorem itemsByteLength_eq : ∀ (vs : List JsTree) (maxBytes : ℤ) (depth bytes entries : ℕ), depth ≤ 256 →
    (bytes : ℤ) ≤ maxBytes → itemsByteLength maxBytes depth vs bytes entries =
      estimated maxBytes (depth + nestingItems vs) (bytes + estimateItems entries vs)
  | [], maxBytes, depth, bytes, entries, hd, hb => by
    rw [itemsByteLength, nestingItems, estimateItems]
    exact (estimated_some hd hb).symm
  | v :: vs, maxBytes, depth, bytes, entries, hd, hb => by
    rw [itemsByteLength, jsonByteLength_eq v, nestingItems, estimateItems]
    rcases estimated_cases (maxBytes - bytes - separatorBytes entries) (depth + 1 + nesting v) (estimate v) with
      ⟨hn, hle, hsome⟩ | ⟨hover, hnone⟩
    · rw [hsome]
      dsimp only
      rw [itemsByteLength_eq vs _ _ _ _ hd (by push_cast; omega)]
      exact estimated_congr (by omega) (by omega)
    · rw [hnone]
      exact (estimated_none (by push_cast; omega)).symm

theorem fieldsByteLength_eq :
    ∀ (fs : List (Units × JsTree)) (maxBytes : ℤ) (depth bytes entries : ℕ), depth ≤ 256 →
    (bytes : ℤ) ≤ maxBytes → fieldsByteLength maxBytes depth fs bytes entries =
      estimated maxBytes (depth + nestingFields fs) (bytes + estimateFields entries fs)
  | [], maxBytes, depth, bytes, entries, hd, hb => by
    rw [fieldsByteLength, nestingFields, estimateFields]
    exact (estimated_some hd hb).symm
  | (k, v) :: fs, maxBytes, depth, bytes, entries, hd, hb => by
    rw [fieldsByteLength, jsonStringByteLength_eq, nestingFields, estimateFields]
    by_cases hkey : ((2 + estimatedUnits false k : ℕ) : ℤ) ≤ maxBytes - bytes - separatorBytes entries
    · rw [upTo_some hkey]
      dsimp only
      rw [jsonByteLength_eq v]
      rcases estimated_cases (maxBytes - bytes - (separatorBytes entries + (2 + estimatedUnits false k : ℕ) + 1))
        (depth + 1 + nesting v) (estimate v) with ⟨hn, hle, hsome⟩ | ⟨hover, hnone⟩
      · rw [hsome]
        dsimp only
        rw [fieldsByteLength_eq fs _ _ _ _ hd (by push_cast at hle ⊢; omega)]
        exact estimated_congr (by omega) (by omega)
      · rw [hnone]
        exact (estimated_none (by push_cast at hover ⊢; omega)).symm
    · rw [upTo_none (by omega)]
      exact (estimated_none (by push_cast at hkey ⊢; omega)).symm
end

/-- A value that is not nested too deep fits exactly if its estimate does. -/
theorem jsonFitsWithinBytes_iff {v : JsTree} (hv : nesting v ≤ 256) (maxBytes : ℕ) :
    jsonFitsWithinBytes v maxBytes = true ↔ estimate v ≤ maxBytes := by
  rw [jsonFitsWithinBytes, jsonByteLength_eq]
  rcases estimated_cases maxBytes (0 + nesting v) (estimate v) with ⟨-, hle, hsome⟩ | ⟨hover, hnone⟩
  · simp only [hsome, Option.isSome_some, true_iff]
    omega
  · simp only [hnone, Option.isSome_none, Bool.false_eq_true, false_iff]
    omega

/-! ### The text -/

theorem byteLength_quote (s : Units) : byteLength (jsWriter.quote s) = 2 + pointsBytes (codePoints s) := by
  have hpoints : ∀ ps : List (Char ⊕ UInt16), byteLength (ps.flatMap escapePoint) = pointsBytes ps := by
    intro ps
    induction ps with
    | nil => rfl
    | cons p ps ih => rw [List.flatMap_cons, byteLength_append, ih, pointsBytes_cons, pointBytes]
  change byteLength ('"' :: ((codePoints s).flatMap escapePoint ++ ['"'])) = _
  rw [byteLength_cons, byteLength_append, hpoints,
    show '"'.utf8Size = 1 by decide, show byteLength ['"'] = 1 by decide]
  omega

theorem byteLength_ascii {cs : List Char} (h : ∀ c ∈ cs, c.toNat < 0x80) : byteLength cs = cs.length := by
  induction cs with
  | nil => rfl
  | cons c cs ih =>
    have hc := h c (by simp)
    rw [byteLength_cons, ih fun d hd => h d (by simp [hd]), utf8Size_eq, if_pos (by omega), List.length_cons]
    omega

theorem isNumberChar_ascii {c : Char} (h : isNumberChar c = true) : c.toNat < 0x80 := by
  simp only [isNumberChar, Bool.or_eq_true, beq_iff_eq] at h
  rcases h with ((((h | rfl) | rfl) | rfl) | rfl) | rfl
  · rw [Char.isDigit, Bool.and_eq_true, decide_eq_true_eq, decide_eq_true_eq] at h
    have hle : c.toNat ≤ '9'.toNat := h.2
    exact lt_of_le_of_lt hle (by decide)
  all_goals decide

theorem byteLength_number (n : Number) : byteLength n.text = n.text.length := by
  refine byteLength_ascii fun c hc => isNumberChar_ascii ?_
  have hliteral := n.literal
  cases htext : n.text with
  | nil => simp [htext] at hc
  | cons d ds =>
    rw [htext] at hliteral hc
    simp only [isNumberLiteral, Bool.and_eq_true, List.all_eq_true] at hliteral
    exact hliteral.2 c hc

theorem separatorBytes_succ (n : ℕ) : separatorBytes (n + 1) = 1 := rfl

mutual
/-- The estimate is the length of the text and the surplus of its strings. -/
theorem estimate_eq : ∀ v : JsTree, (estimate v : ℤ) = textBytes v + surplusOf v
  | .null => by rw [estimate, textBytes, surplusOf] <;> first | rfl | simp
  | .bool true => by rw [estimate, textBytes, surplusOf] <;> first | rfl | simp
  | .bool false => by rw [estimate, textBytes, surplusOf] <;> first | rfl | simp
  | .num n => by
    rw [estimate, textBytes, surplusOf, Writer.print, print] <;> simp
    exact_mod_cast (byteLength_number n).symm
  | .str s => by
    have hquote := byteLength_quote s
    have hunits := estimatedUnits_eq s
    rw [estimate, textBytes, surplusOf, Writer.print, print, hquote]
    push_cast
    omega
  | .arr [] => by rw [estimate, textBytes, surplusOf, estimateItems, surplusItems]; rfl
  | .arr (v :: vs) => by
    have hv := estimate_eq v
    have hvs : ((estimateItems 1 vs + 1 : ℕ) : ℤ) = _ := estimateItems_eq vs 0
    have hbracket : '['.utf8Size = 1 := by decide
    rw [textBytes, Writer.print] at hv
    rw [estimate, textBytes, surplusOf, estimateItems, surplusItems, Writer.print, print,
      byteLength_cons, byteLength_append]
    push_cast
    rw [hbracket, show separatorBytes 0 = 0 from rfl]
    push_cast
    omega
  | .obj [] => by rw [estimate, textBytes, surplusOf, estimateFields, surplusFields]; rfl
  | .obj ((k, v) :: fs) => by
    have hv := estimate_eq v
    have hfs : ((estimateFields 1 fs + 1 : ℕ) : ℤ) = _ := estimateFields_eq fs 0
    have hquote := byteLength_quote k
    have hunits := estimatedUnits_eq k
    have hbracket : '\x7b'.utf8Size = 1 := by decide
    have hcolon : ':'.utf8Size = 1 := by decide
    rw [textBytes, Writer.print] at hv
    rw [estimate, textBytes, surplusOf, estimateFields, surplusFields, Writer.print, print, byteLength_cons,
      byteLength_append, byteLength_cons, byteLength_append, hquote]
    push_cast
    rw [hbracket, hcolon, show separatorBytes 0 = 0 from rfl]
    push_cast
    omega

/-- The entries after the first one, with the bracket that closes them. -/
theorem estimateItems_eq : ∀ (vs : List JsTree) (n : ℕ), ((estimateItems (n + 1) vs + 1 : ℕ) : ℤ) =
    byteLength (printItems jsWriter.quote jsWriter.digits vs) + surplusItems vs
  | [], _ => by rw [estimateItems, surplusItems, printItems]; rfl
  | v :: vs, n => by
    have hv := estimate_eq v
    have hvs := estimateItems_eq vs (n + 1)
    have hcomma : ','.utf8Size = 1 := by decide
    rw [textBytes, Writer.print] at hv
    rw [estimateItems, surplusItems, printItems, byteLength_cons, byteLength_append, hcomma,
      separatorBytes_succ]
    push_cast at hvs ⊢
    omega

theorem estimateFields_eq :
    ∀ (fs : List (Units × JsTree)) (n : ℕ), ((estimateFields (n + 1) fs + 1 : ℕ) : ℤ) =
    byteLength (printFields jsWriter.quote jsWriter.digits fs) + surplusFields fs
  | [], _ => by rw [estimateFields, surplusFields, printFields]; rfl
  | (k, v) :: fs, n => by
    have hv := estimate_eq v
    have hfs := estimateFields_eq fs (n + 1)
    have hquote := byteLength_quote k
    have hunits := estimatedUnits_eq k
    have hcomma : ','.utf8Size = 1 := by decide
    have hcolon : ':'.utf8Size = 1 := by decide
    rw [textBytes, Writer.print] at hv
    rw [estimateFields, surplusFields, printFields, byteLength_cons, byteLength_append,
      byteLength_cons, byteLength_append, hquote, hcomma, hcolon, separatorBytes_succ]
    push_cast at hfs ⊢
    omega
end

end LDO
