import DurableObjects.Lib.JsonString

/-! The compact text of a tree is one line, in characters and in UTF-8 bytes. -/

namespace Json

theorem hexDigit_ne_newline : ∀ n, n < 16 → hexDigit n ≠ '\n' := by decide

theorem newline_not_mem_hex4 (n : ℕ) : '\n' ∉ hex4 n := by
  have hdigit := fun m => (hexDigit_ne_newline (m % 16) (Nat.mod_lt _ (by decide))).symm
  simp [hex4, hdigit]

theorem newline_not_mem_escapeChar (c : Char) : '\n' ∉ escapeChar c := by
  unfold escapeChar
  split_ifs with h₁ h₂ h₃ h₄ h₅ h₆ h₇ h₈
  · decide
  · decide
  · decide
  · decide
  · decide
  · decide
  · decide
  · simp [newline_not_mem_hex4]
  · simpa using Ne.symm h₅

theorem newline_not_mem_escapePoint : ∀ p, '\n' ∉ escapePoint p
  | .inl c => newline_not_mem_escapeChar c
  | .inr u => by simp [escapePoint, newline_not_mem_hex4]

theorem newline_not_mem_quoteUnits (us : List UInt16) : '\n' ∉ quoteUnits us := by
  simp [quoteUnits, newline_not_mem_escapePoint]

section Print

variable {σ μ : Type} {W : Writer σ μ}

theorem newline_not_mem_digits (n : μ) : '\n' ∉ W.digits n := by
  obtain ⟨c, cs, hdigits, -, hall⟩ := W.digits_literal n
  intro hmem
  rw [hdigits] at hmem
  exact absurd (List.all_eq_true.mp hall _ hmem) (by decide)

mutual
/-- The compact text is on one line. -/
theorem newline_not_mem_print (hquote : ∀ s, '\n' ∉ W.quote s) : ∀ v : Json σ μ, '\n' ∉ W.print v
  | .null => by simp [Writer.print, print]
  | .bool true => by simp [Writer.print, print]
  | .bool false => by simp [Writer.print, print]
  | .num n => newline_not_mem_digits n
  | .str s => hquote s
  | .arr [] => by simp [Writer.print, print]
  | .arr (v :: vs) => by
    simp [Writer.print, print, newline_not_mem_print hquote v, newline_not_mem_printItems hquote vs]
  | .obj [] => by simp [Writer.print, print]
  | .obj ((k, v) :: fs) => by
    simp [Writer.print, print, hquote k, newline_not_mem_print hquote v, newline_not_mem_printFields hquote fs]

theorem newline_not_mem_printItems (hquote : ∀ s, '\n' ∉ W.quote s) : ∀ vs : List (Json σ μ),
    '\n' ∉ printItems W.quote W.digits vs
  | [] => by simp [printItems]
  | v :: vs => by
    simp [printItems, newline_not_mem_print hquote v, newline_not_mem_printItems hquote vs]

theorem newline_not_mem_printFields (hquote : ∀ s, '\n' ∉ W.quote s) : ∀ fs : List (σ × Json σ μ),
    '\n' ∉ printFields W.quote W.digits fs
  | [] => by simp [printFields]
  | (k, v) :: fs => by
    simp [printFields, hquote k, newline_not_mem_print hquote v, newline_not_mem_printFields hquote fs]
end

end Print

theorem newline_mem_utf8EncodeChar {c : Char} (h : 10 ∈ String.utf8EncodeChar c) : c = '\n' := by
  have hbyte : ∀ n : ℕ, 128 ≤ n → n < 256 → (10 : UInt8) ≠ UInt8.ofNat n := by
    intro n hlow hhigh heq
    have hnat := congrArg UInt8.toNat heq
    rw [UInt8.toNat_ofNat_of_lt' hhigh] at hnat
    change 10 = n at hnat
    omega
  unfold String.utf8EncodeChar at h
  simp only at h
  split_ifs at h with h₁ h₂ h₃
  · rw [List.mem_singleton] at h
    have hnat := congrArg UInt8.toNat h
    rw [UInt8.toNat_ofNat_of_lt' (show c.val.toNat < 256 by omega)] at hnat
    rw [← Char.ofNat_toNat c, Char.toNat, ← hnat]
    rfl
  -- every byte of a longer encoding is at least 128
  · simp only [List.mem_cons, List.not_mem_nil, or_false] at h
    rcases h with h | h <;> exact absurd h (hbyte _ (by omega) (by omega))
  · simp only [List.mem_cons, List.not_mem_nil, or_false] at h
    rcases h with h | h | h <;> exact absurd h (hbyte _ (by omega) (by omega))
  · simp only [List.mem_cons, List.not_mem_nil, or_false] at h
    rcases h with h | h | h | h <;> exact absurd h (hbyte _ (by omega) (by omega))

/-- The UTF-8 bytes of a text. -/
def utf8Bytes (cs : List Char) : List UInt8 := cs.flatMap String.utf8EncodeChar

theorem newline_not_mem_utf8Bytes {cs : List Char} (h : '\n' ∉ cs) : 10 ∉ utf8Bytes cs := by
  intro hmem
  obtain ⟨c, hc, hbyte⟩ := List.mem_flatMap.mp hmem
  exact h (newline_mem_utf8EncodeChar hbyte ▸ hc)

theorem toByteArray_utf8Bytes (cs : List Char) : (utf8Bytes cs).toByteArray = (String.ofList cs).toUTF8 := by
  rw [String.toUTF8_eq_toByteArray]
  rfl

theorem toUTF8_ofList_toList (cs : List Char) : (String.ofList cs).toUTF8.data.toList = utf8Bytes cs := by
  rw [← toByteArray_utf8Bytes, List.toList_data_toByteArray]

end Json
