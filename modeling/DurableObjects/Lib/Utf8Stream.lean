import Mathlib.Data.Nat.Basic
import DurableObjects.Lib.JsonLine

/-! A UTF-8 decoder that is fed byte by byte, so that a text may arrive in pieces that
break off inside a character. Bytes that are no UTF-8 give the replacement character, one
for each longest beginning of a sequence. -/

namespace Utf8

/-- A character that has begun: how many bytes are missing, the bits so far, and the range
the next byte has to be in. -/
structure Decoder where
  missing : ℕ
  bits : ℕ
  lower : ℕ
  upper : ℕ
  deriving DecidableEq

def Decoder.idle : Decoder := ⟨0, 0, 0x80, 0xbf⟩

def replacement : Char := Char.ofNat 0xfffd

/-- The first byte of a character. -/
def start (b : ℕ) : Decoder × List Char :=
  if b ≤ 0x7f then (.idle, [Char.ofNat b])
  else if 0xc2 ≤ b ∧ b ≤ 0xdf then (⟨1, b % 32, 0x80, 0xbf⟩, [])
  else if 0xe0 ≤ b ∧ b ≤ 0xef then
    (⟨2, b % 16, if b = 0xe0 then 0xa0 else 0x80, if b = 0xed then 0x9f else 0xbf⟩, [])
  else if 0xf0 ≤ b ∧ b ≤ 0xf4 then
    (⟨3, b % 8, if b = 0xf0 then 0x90 else 0x80, if b = 0xf4 then 0x8f else 0xbf⟩, [])
  else (.idle, [replacement])

namespace Decoder

/-- One byte. A sequence that breaks off is replaced, and the byte starts anew. -/
def step (d : Decoder) (b : ℕ) : Decoder × List Char :=
  if d.missing = 0 then start b
  else if d.lower ≤ b ∧ b ≤ d.upper then
    if d.missing = 1 then (idle, [Char.ofNat (d.bits * 64 + b % 64)])
    else (⟨d.missing - 1, d.bits * 64 + b % 64, 0x80, 0xbf⟩, [])
  else ((start b).1, replacement :: (start b).2)

/-- A piece of the stream: the decoder after it and the text it completes. -/
def feed (d : Decoder) : List UInt8 → Decoder × List Char
  | [] => (d, [])
  | b :: bs => (((d.step b.toNat).1.feed bs).1, (d.step b.toNat).2 ++ ((d.step b.toNat).1.feed bs).2)

theorem feed_append (d : Decoder) (xs ys : List UInt8) :
    d.feed (xs ++ ys) = (((d.feed xs).1.feed ys).1, (d.feed xs).2 ++ ((d.feed xs).1.feed ys).2) := by
  induction xs generalizing d with
  | nil => rfl
  | cons x xs ih => simp only [List.cons_append, feed, ih, List.append_assoc]

end Decoder

/-- The text that the bytes complete. -/
def decode (bs : List UInt8) : List Char := (Decoder.idle.feed bs).2

/-! ### What was encoded is decoded -/

open Decoder

theorem toNat_ofNat {n : ℕ} (h : n < 256) : (UInt8.ofNat n).toNat = n := UInt8.toNat_ofNat_of_lt' h

theorem ofNat_of_toNat {c : Char} {n : ℕ} (h : n = c.toNat) : Char.ofNat n = c := by
  rw [h, Char.ofNat_toNat]

/-- No character is a surrogate, and none is above the last code point. -/
theorem toNat_valid (c : Char) : c.toNat < 0xd800 ∨ 0xdfff < c.toNat ∧ c.toNat < 0x110000 := c.valid

theorem step_last {d : Decoder} {b : ℕ} {c : Char} (hd : d.missing = 1) (hb : d.lower ≤ b ∧ b ≤ d.upper)
    (hc : d.bits * 64 + b % 64 = c.toNat) : d.step b = (idle, [c]) := by
  simp [step, hd, hb, ofNat_of_toNat hc]

theorem step_more {d : Decoder} {b n bits : ℕ} (hd : d.missing = n + 2) (hb : d.lower ≤ b ∧ b ≤ d.upper)
    (hbits : d.bits * 64 + b % 64 = bits) : d.step b = (⟨n + 1, bits, 0x80, 0xbf⟩, []) := by
  simp [step, hd, hb, hbits]

theorem feed_cons {d d' : Decoder} {n : ℕ} {bs : List UInt8} (hn : n < 256) (h : d.step n = (d', [])) :
    d.feed (UInt8.ofNat n :: bs) = d'.feed bs := by
  simp only [feed, toNat_ofNat hn, h, List.nil_append]

section Continuation

variable {c : Char} {v lower upper : ℕ}

/-- The last byte of a character. -/
theorem feed_one (hv : c.toNat = v) :
    feed ⟨1, v / 64, 0x80, 0xbf⟩ [UInt8.ofNat (v % 0x40 + 0x80)] = (idle, [c]) := by
  have hstep : step ⟨1, v / 64, 0x80, 0xbf⟩ (v % 0x40 + 0x80) = (idle, [c]) :=
    step_last rfl (by dsimp only; omega) (by dsimp only; omega)
  simp only [feed, toNat_ofNat (show v % 0x40 + 0x80 < 256 by omega), hstep]
  rfl

theorem feed_two (hv : c.toNat = v) (hrange : lower ≤ v / 64 % 0x40 + 0x80 ∧ v / 64 % 0x40 + 0x80 ≤ upper) :
    feed ⟨2, v / 4096, lower, upper⟩ [UInt8.ofNat (v / 64 % 0x40 + 0x80), UInt8.ofNat (v % 0x40 + 0x80)] = (idle, [c]) := by
  have hstep : step ⟨2, v / 4096, lower, upper⟩ (v / 64 % 0x40 + 0x80) = (⟨1, v / 64, 0x80, 0xbf⟩, []) :=
    step_more rfl hrange (by dsimp only; omega)
  rw [feed_cons (by omega) hstep, feed_one hv]

theorem feed_three (hv : c.toNat = v)
    (hrange : lower ≤ v / 4096 % 0x40 + 0x80 ∧ v / 4096 % 0x40 + 0x80 ≤ upper) :
    feed ⟨3, v / 262144, lower, upper⟩ [UInt8.ofNat (v / 4096 % 0x40 + 0x80), UInt8.ofNat (v / 64 % 0x40 + 0x80),
      UInt8.ofNat (v % 0x40 + 0x80)] = (idle, [c]) := by
  have hstep : step ⟨3, v / 262144, lower, upper⟩ (v / 4096 % 0x40 + 0x80) = (⟨2, v / 4096, 0x80, 0xbf⟩, []) :=
    step_more rfl hrange (by dsimp only; omega)
  rw [feed_cons (by omega) hstep, feed_two hv (by omega)]

end Continuation

theorem start_ascii {b : ℕ} (h : b ≤ 0x7f) : idle.step b = (idle, [Char.ofNat b]) :=
  by simp [idle, step, start, h]

theorem start_two {b : ℕ} (h : 0xc2 ≤ b ∧ b ≤ 0xdf) : idle.step b = (⟨1, b % 32, 0x80, 0xbf⟩, []) := by
  have hascii : ¬ b ≤ 0x7f := by omega
  simp [idle, step, start, hascii, h]

theorem start_three {b : ℕ} (h : 0xe0 ≤ b ∧ b ≤ 0xef) :
    idle.step b = (⟨2, b % 16, if b = 0xe0 then 0xa0 else 0x80, if b = 0xed then 0x9f else 0xbf⟩, []) := by
  have hascii : ¬ b ≤ 0x7f := by omega
  have htwo : ¬ (0xc2 ≤ b ∧ b ≤ 0xdf) := by omega
  simp [idle, step, start, hascii, htwo, h]

theorem start_four {b : ℕ} (h : 0xf0 ≤ b ∧ b ≤ 0xf4) :
    idle.step b = (⟨3, b % 8, if b = 0xf0 then 0x90 else 0x80, if b = 0xf4 then 0x8f else 0xbf⟩, []) := by
  have hascii : ¬ b ≤ 0x7f := by omega
  have htwo : ¬ (0xc2 ≤ b ∧ b ≤ 0xdf) := by omega
  have hthree : ¬ (0xe0 ≤ b ∧ b ≤ 0xef) := by omega
  simp [idle, step, start, hascii, htwo, hthree, h]

theorem feed_utf8EncodeChar (c : Char) : idle.feed (String.utf8EncodeChar c) = (idle, [c]) := by
  have hvalid := toNat_valid c
  unfold String.utf8EncodeChar
  simp only
  change idle.feed (if c.toNat ≤ _ then [UInt8.ofNat c.toNat] else if c.toNat ≤ _ then
    [UInt8.ofNat (c.toNat / 64 % 0x20 + 0xc0), UInt8.ofNat (c.toNat % 0x40 + 0x80)] else if c.toNat ≤ _ then
    [UInt8.ofNat (c.toNat / 4096 % 0x10 + 0xe0), UInt8.ofNat (c.toNat / 64 % 0x40 + 0x80),
      UInt8.ofNat (c.toNat % 0x40 + 0x80)] else
    [UInt8.ofNat (c.toNat / 262144 % 0x08 + 0xf0), UInt8.ofNat (c.toNat / 4096 % 0x40 + 0x80),
      UInt8.ofNat (c.toNat / 64 % 0x40 + 0x80), UInt8.ofNat (c.toNat % 0x40 + 0x80)]) = _
  generalize hv : c.toNat = v at hvalid ⊢
  split_ifs with h₁ h₂ h₃
  · have hstep : idle.step v = (idle, [c]) := by
      rw [start_ascii h₁, ofNat_of_toNat hv.symm]
    simp only [feed, toNat_ofNat (show v < 256 by omega), hstep]
    rfl
  · have hbits : (v / 64 % 0x20 + 0xc0) % 32 = v / 64 := by omega
    rw [feed_cons (by omega) (start_two (by omega)), hbits, feed_one hv]
  · have hbits : (v / 4096 % 0x10 + 0xe0) % 16 = v / 4096 := by omega
    rw [feed_cons (by omega) (start_three (by omega)), hbits, feed_two hv (by split_ifs <;> omega)]
  · have hbits : (v / 262144 % 0x08 + 0xf0) % 8 = v / 262144 := by omega
    rw [feed_cons (by omega) (start_four (by omega)), hbits, feed_three hv (by split_ifs <;> omega)]

theorem feed_utf8Bytes (cs : List Char) : idle.feed (Json.utf8Bytes cs) = (idle, cs) := by
  induction cs with
  | nil => rfl
  | cons c cs ih =>
    have happend : Json.utf8Bytes (c :: cs) = String.utf8EncodeChar c ++ Json.utf8Bytes cs := rfl
    rw [happend, feed_append, feed_utf8EncodeChar, ih]
    rfl

end Utf8
