import Mathlib.Data.List.TakeWhile
import DurableObjects.Lib.Json

/-! What a strict reader makes of the compact text of a tree. The text is read back
leaf by leaf: `readBack` says, from the tree alone, whether the reader accepts the
text and which tree it builds. -/

namespace Json

/-- A way to print leaves that a strict reader can take apart again: `text s` is
what the literal of `s` spells, if it is accepted at all. -/
structure Writer (σ μ : Type) where
  quote : σ → List Char
  digits : μ → List Char
  text : σ → Option (List Char)
  quote_read : ∀ s rest, ∃ body, quote s ++ rest = '"' :: body ∧
    readString body = (text s).map fun t => (t, rest)
  digits_literal : ∀ n, ∃ c cs, digits n = c :: cs ∧ startsNumber c = true ∧
    (c :: cs).all isNumberChar = true

attribute [local grind =] readValue readItems readFields

variable {σ μ ν : Type} (W : Writer σ μ) (R : Reader ν)

abbrev Writer.print (v : Json σ μ) : List Char := Json.print W.quote W.digits v

mutual
/-- The tree a reader builds from the text of `v`, `depth` brackets being allowed. -/
def readBack : ℕ → Json σ μ → Option (Json String ν)
  | _, .null => some .null
  | _, .bool b => some (.bool b)
  | _, .num n => (R.number (W.digits n)).map .num
  | _, .str s => (W.text s).map fun t => .str (String.ofList t)
  | 0, .arr _ => none
  | depth + 1, .arr vs => (readBackItems depth vs).map .arr
  | 0, .obj _ => none
  | depth + 1, .obj fs => (readBackFields depth fs).map .obj

def readBackItems : ℕ → List (Json σ μ) → Option (List (Json String ν))
  | _, [] => some []
  | depth, v :: vs => (readBack depth v).bind fun v' => (readBackItems depth vs).map (v' :: ·)

def readBackFields : ℕ → List (σ × Json σ μ) → Option (List (String × Json String ν))
  | _, [] => some []
  | depth, (k, v) :: fs => (W.text k).bind fun t => (readBack depth v).bind fun v' =>
      (readBackFields depth fs).map ((String.ofList t, v') :: ·)
end

mutual
/-- A bound for the nested calls that reading `v` takes. -/
def weight : Json σ μ → ℕ
  | .arr vs => 1 + weightItems vs
  | .obj fs => 1 + weightFields fs
  | _ => 1

def weightItems : List (Json σ μ) → ℕ
  | [] => 0
  | v :: vs => 1 + weight v + weightItems vs

def weightFields : List (σ × Json σ μ) → ℕ
  | [] => 0
  | (_, v) :: fs => 1 + weight v + weightFields fs
end

/-- No number literal runs on into `rest`. -/
def Delimited (rest : List Char) : Prop := ∀ c cs, rest = c :: cs → isNumberChar c = false

theorem delimited_cons {c : Char} {cs : List Char} (h : isNumberChar c = false) : Delimited (c :: cs) := by
  rintro _ _ ⟨rfl, rfl⟩
  exact h

theorem skipSpace_cons {c : Char} {cs : List Char} (h : isSpace c = false) :
    skipSpace (c :: cs) = c :: cs := by
  simp [skipSpace, h]

theorem not_space_of_startsNumber {c : Char} (h : startsNumber c = true) :
    isSpace c = false ∧ c ≠ '"' ∧ c ≠ '[' ∧ c ≠ '\x7b' := by
  refine ⟨?_, ?_, ?_, ?_⟩
  · by_contra hs
    simp only [isSpace, Bool.not_eq_false, Bool.or_eq_true, beq_iff_eq] at hs
    rcases hs with ((rfl | rfl) | rfl) | rfl <;> exact absurd h (by decide)
  all_goals rintro rfl; exact absurd h (by decide)

theorem takeWhile_literal {cs rest : List Char} (hcs : cs.all isNumberChar = true) (hrest : Delimited rest) :
    (cs ++ rest).takeWhile isNumberChar = cs ∧ (cs ++ rest).dropWhile isNumberChar = rest := by
  have hr : rest.takeWhile isNumberChar = [] ∧ rest.dropWhile isNumberChar = rest := by
    cases rest with
    | nil => exact ⟨rfl, rfl⟩
    | cons c cs => simp [hrest c cs rfl]
  induction cs with
  | nil => exact hr
  | cons c cs ih =>
    simp only [List.all_cons, Bool.and_eq_true] at hcs
    simp [hcs.1, ih hcs.2]

theorem readValue_num (n : μ) (fuel depth : ℕ) {rest : List Char} (hrest : Delimited rest) :
    readValue R (fuel + 1) depth (W.digits n ++ rest) =
      (R.number (W.digits n)).map fun n => (.num n, rest) := by
  obtain ⟨c, cs, hdig, hstart, hall⟩ := W.digits_literal n
  obtain ⟨hspace, hquote, hbracket, hbrace⟩ := not_space_of_startsNumber hstart
  obtain ⟨htake, hdrop⟩ := takeWhile_literal hall hrest
  rw [List.cons_append] at htake hdrop
  rw [hdig, List.cons_append]
  simp only [readValue, skipSpace_cons hspace, hquote, hbracket, hbrace, hstart, if_true, if_false,
    htake, hdrop]

theorem readValue_str (s : σ) (fuel depth : ℕ) (rest : List Char) :
    readValue R (fuel + 1) depth (W.quote s ++ rest) =
      (W.text s).map fun t => (.str (String.ofList t), rest) := by
  obtain ⟨body, hquote, hread⟩ := W.quote_read s rest
  rw [hquote, readValue, skipSpace_cons (by decide)]
  simp only [if_true, hread, Option.map_map]
  rfl

/-- The items of a nonempty list, as `print` lays them out. -/
def printList : List (Json σ μ) → List Char
  | [] => []
  | v :: vs => W.print v ++ printItems W.quote W.digits vs

def printFieldList : List (σ × Json σ μ) → List Char
  | [] => []
  | (k, v) :: fs => W.quote k ++ ':' :: (W.print v ++ printFields W.quote W.digits fs)

theorem print_cons (v : Json σ μ) : ∃ c cs, W.print v = c :: cs ∧ isSpace c = false ∧ c ≠ ']' ∧ c ≠ '\x7d' := by
  have hquote : ∀ s, ∃ cs, W.quote s = '"' :: cs := by
    intro s
    obtain ⟨body, h, -⟩ := W.quote_read s []
    exact ⟨body, by simpa using h⟩
  cases v with
  | null => exact ⟨_, _, rfl, by decide, by decide, by decide⟩
  | bool b => cases b <;> exact ⟨_, _, rfl, by decide, by decide, by decide⟩
  | num n =>
    obtain ⟨c, cs, hdig, hstart, -⟩ := W.digits_literal n
    refine ⟨c, cs, hdig, (not_space_of_startsNumber hstart).1, ?_, ?_⟩ <;>
      (rintro rfl; exact absurd hstart (by decide))
  | str s =>
    obtain ⟨cs, h⟩ := hquote s
    exact ⟨_, _, h, by decide, by decide, by decide⟩
  | arr vs => cases vs <;> exact ⟨_, _, rfl, by decide, by decide, by decide⟩
  | obj fs => cases fs <;> exact ⟨_, _, rfl, by decide, by decide, by decide⟩

theorem print_arr (v : Json σ μ) (vs : List (Json σ μ)) (rest : List Char) :
    W.print (.arr (v :: vs)) ++ rest = '[' :: (printList W (v :: vs) ++ rest) := by
  simp [Writer.print, print, printList]

theorem print_obj (k : σ) (v : Json σ μ) (fs : List (σ × Json σ μ)) (rest : List Char) :
    W.print (.obj ((k, v) :: fs)) ++ rest = '\x7b' :: (printFieldList W ((k, v) :: fs) ++ rest) := by
  simp [Writer.print, print, printFieldList]

/-- An array with an item is read as its list of items. -/
theorem readValue_arr (v : Json σ μ) (vs : List (Json σ μ)) (fuel depth : ℕ) (rest : List Char) :
    readValue R (fuel + 1) (depth + 1) (W.print (.arr (v :: vs)) ++ rest) =
      (readItems R fuel depth (printList W (v :: vs) ++ rest)).map fun p => (.arr p.1, p.2) := by
  obtain ⟨c, cs, hv, hspace, hbracket, -⟩ := print_cons W v
  rw [print_arr, readValue, skipSpace_cons (by decide)]
  simp only [printList, hv, List.cons_append, skipSpace_cons hspace]
  simp [hbracket]

theorem readValue_obj (k : σ) (v : Json σ μ) (fs : List (σ × Json σ μ)) (fuel depth : ℕ) (rest : List Char) :
    readValue R (fuel + 1) (depth + 1) (W.print (.obj ((k, v) :: fs)) ++ rest) =
      (readFields R fuel depth (printFieldList W ((k, v) :: fs) ++ rest)).map fun p => (.obj p.1, p.2) := by
  obtain ⟨body, hquote, -⟩ := W.quote_read k (':' :: (W.print v ++ printFields W.quote W.digits fs) ++ rest)
  have hfl : printFieldList W ((k, v) :: fs) ++ rest = '"' :: body := by
    rw [← hquote]; simp [printFieldList]
  rw [print_obj, readValue, skipSpace_cons (by decide), hfl]
  simp only [skipSpace_cons (show isSpace '"' = false by decide)]
  simp

theorem readValue_depth {c : Char} (hc : c = '[' ∨ c = '\x7b') (fuel : ℕ) (rest : List Char) :
    readValue R fuel 0 (c :: rest) = none := by
  cases fuel with
  | zero => rfl
  | succ fuel => rcases hc with rfl | rfl <;> (rw [readValue, skipSpace_cons (by decide)]; simp)

theorem exists_succ_of_weight (v : Json σ μ) {fuel : ℕ} (h : weight v ≤ fuel) : ∃ n, fuel = n + 1 := by
  have hpos : 1 ≤ weight v := by cases v <;> simp [weight]
  exact ⟨fuel - 1, by omega⟩

/-! One element is read back, the last one and one before others. -/

theorem readItems_last {v : Json σ μ} {fuel depth : ℕ} {rest : List Char}
    (hv : readValue R fuel depth (W.print v ++ ']' :: rest) =
      (readBack W R depth v).map fun v => (v, ']' :: rest)) :
    readItems R (fuel + 1) depth (W.print v ++ ']' :: rest) =
      (readBack W R depth v).map fun v => ([v], rest) := by
  rw [readItems, hv]
  cases readBack W R depth v <;> rfl

theorem readItems_next {v : Json σ μ} {fuel depth : ℕ} {rest : List Char}
    (hv : readValue R fuel depth (W.print v ++ ',' :: rest) = (readBack W R depth v).map fun v => (v, ',' :: rest)) :
    readItems R (fuel + 1) depth (W.print v ++ ',' :: rest) =
      (readBack W R depth v).bind fun v => (readItems R fuel depth rest).map fun p => (v :: p.1, p.2) := by
  rw [readItems, hv]
  cases readBack W R depth v <;> rfl

theorem readFields_last {k : σ} {v : Json σ μ} {fuel depth : ℕ} {rest : List Char}
    (hv : readValue R fuel depth (W.print v ++ '\x7d' :: rest) = (readBack W R depth v).map fun v => (v, '\x7d' :: rest)) :
    readFields R (fuel + 1) depth (W.quote k ++ ':' :: (W.print v ++ '\x7d' :: rest)) =
      (W.text k).bind fun t => (readBack W R depth v).map fun v => ([(String.ofList t, v)], rest) := by
  obtain ⟨body, hquote, hread⟩ := W.quote_read k (':' :: (W.print v ++ '\x7d' :: rest))
  rw [hquote, readFields, skipSpace_cons (by decide)]
  simp only [hread]
  cases W.text k with
  | none => rfl
  | some t =>
    simp only [Option.map_some, Option.bind_some, skipSpace_cons (show isSpace ':' = false by decide), hv]
    cases readBack W R depth v <;> rfl

theorem readFields_next {k : σ} {v : Json σ μ} {fuel depth : ℕ} {rest : List Char}
    (hv : readValue R fuel depth (W.print v ++ ',' :: rest) = (readBack W R depth v).map fun v => (v, ',' :: rest)) :
    readFields R (fuel + 1) depth (W.quote k ++ ':' :: (W.print v ++ ',' :: rest)) =
      (W.text k).bind fun t => (readBack W R depth v).bind fun v =>
        (readFields R fuel depth rest).map fun p => ((String.ofList t, v) :: p.1, p.2) := by
  obtain ⟨body, hquote, hread⟩ := W.quote_read k (':' :: (W.print v ++ ',' :: rest))
  rw [hquote, readFields, skipSpace_cons (by decide)]
  simp only [hread]
  cases W.text k with
  | none => rfl
  | some t =>
    simp only [Option.map_some, Option.bind_some, skipSpace_cons (show isSpace ':' = false by decide), hv]
    cases readBack W R depth v <;> rfl

mutual
/-- Reading the text of a tree gives what `readBack` says, whatever follows. -/
theorem readValue_print : ∀ (v : Json σ μ) (fuel depth : ℕ) (rest : List Char), weight v ≤ fuel →
    Delimited rest → readValue R fuel depth (W.print v ++ rest) = (readBack W R depth v).map fun v => (v, rest)
  | .null, fuel, depth, rest, hfuel, _ => by
    obtain ⟨fuel, rfl⟩ := exists_succ_of_weight _ hfuel
    simp [Writer.print, print, readValue, skipSpace, isSpace, startsNumber, readBack]
  | .bool true, fuel, depth, rest, hfuel, _ => by
    obtain ⟨fuel, rfl⟩ := exists_succ_of_weight _ hfuel
    simp [Writer.print, print, readValue, skipSpace, isSpace, startsNumber, readBack]
  | .bool false, fuel, depth, rest, hfuel, _ => by
    obtain ⟨fuel, rfl⟩ := exists_succ_of_weight _ hfuel
    simp [Writer.print, print, readValue, skipSpace, isSpace, startsNumber, readBack]
  | .num n, fuel, depth, rest, hfuel, hrest => by
    obtain ⟨fuel, rfl⟩ := exists_succ_of_weight _ hfuel
    rw [Writer.print, print, readValue_num W R n fuel depth hrest, readBack, Option.map_map]
    rfl
  | .str s, fuel, depth, rest, hfuel, _ => by
    obtain ⟨fuel, rfl⟩ := exists_succ_of_weight _ hfuel
    rw [Writer.print, print, readValue_str W R s fuel depth rest, readBack, Option.map_map]
    rfl
  | .arr [], fuel, 0, rest, _, _ => readValue_depth R (.inl rfl) fuel _
  | .arr (v :: vs), fuel, 0, rest, _, _ => readValue_depth R (.inl rfl) fuel _
  | .arr [], fuel, depth + 1, rest, hfuel, _ => by
    obtain ⟨fuel, rfl⟩ := exists_succ_of_weight _ hfuel
    simp [Writer.print, print, readValue, skipSpace, isSpace, readBack, readBackItems]
  | .arr (v :: vs), fuel, depth + 1, rest, hfuel, _ => by
    obtain ⟨fuel, rfl⟩ := exists_succ_of_weight _ hfuel
    have hitems := readItems_print (v :: vs) fuel depth rest (by simp) (by simp only [weight] at hfuel; omega)
    rw [readValue_arr, hitems, readBack, Option.map_map, Option.map_map]
    rfl
  | .obj [], fuel, 0, rest, _, _ => readValue_depth R (.inr rfl) fuel _
  | .obj ((k, v) :: fs), fuel, 0, rest, _, _ => readValue_depth R (.inr rfl) fuel _
  | .obj [], fuel, depth + 1, rest, hfuel, _ => by
    obtain ⟨fuel, rfl⟩ := exists_succ_of_weight _ hfuel
    simp [Writer.print, print, readValue, skipSpace, isSpace, readBack, readBackFields]
  | .obj ((k, v) :: fs), fuel, depth + 1, rest, hfuel, _ => by
    obtain ⟨fuel, rfl⟩ := exists_succ_of_weight _ hfuel
    have hfields := readFields_print ((k, v) :: fs) fuel depth rest (by simp)
      (by simp only [weight] at hfuel; omega)
    rw [readValue_obj, hfields, readBack, Option.map_map, Option.map_map]
    rfl

theorem readItems_print : ∀ (vs : List (Json σ μ)) (fuel depth : ℕ) (rest : List Char), vs ≠ [] →
    weightItems vs ≤ fuel →
    readItems R fuel depth (printList W vs ++ rest) = (readBackItems W R depth vs).map fun vs => (vs, rest)
  | [], _, _, _, hne, _ => absurd rfl hne
  | [v], fuel, depth, rest, _, hfuel => by
    simp only [weightItems] at hfuel
    obtain ⟨fuel, rfl⟩ : ∃ n, fuel = n + 1 := ⟨fuel - 1, by omega⟩
    have hv := readValue_print v fuel depth (']' :: rest) (by omega) (delimited_cons (by decide))
    have htext : printList W [v] ++ rest = W.print v ++ ']' :: rest := by simp [printList, printItems]
    rw [htext, readItems_last W R hv]
    simp only [readBackItems]
    cases readBack W R depth v <;> rfl
  | v :: w :: ws, fuel, depth, rest, _, hfuel => by
    rw [weightItems] at hfuel
    obtain ⟨fuel, rfl⟩ : ∃ n, fuel = n + 1 := ⟨fuel - 1, by omega⟩
    have hv := readValue_print v fuel depth (',' :: (printList W (w :: ws) ++ rest)) (by omega)
      (delimited_cons (by decide))
    have hws := readItems_print (w :: ws) fuel depth rest (by simp) (by omega)
    have htext : printList W (v :: w :: ws) ++ rest = W.print v ++ ',' :: (printList W (w :: ws) ++ rest) := by
      simp [printList, printItems]
    rw [htext, readItems_next W R hv, readBackItems]
    simp only [hws]
    cases readBack W R depth v with
    | none => rfl
    | some v => cases readBackItems W R depth (w :: ws) <;> rfl

theorem readFields_print : ∀ (fs : List (σ × Json σ μ)) (fuel depth : ℕ) (rest : List Char), fs ≠ [] →
    weightFields fs ≤ fuel →
    readFields R fuel depth (printFieldList W fs ++ rest) =
      (readBackFields W R depth fs).map fun fs => (fs, rest)
  | [], _, _, _, hne, _ => absurd rfl hne
  | [(k, v)], fuel, depth, rest, _, hfuel => by
    simp only [weightFields] at hfuel
    obtain ⟨fuel, rfl⟩ : ∃ n, fuel = n + 1 := ⟨fuel - 1, by omega⟩
    have hv := readValue_print v fuel depth ('\x7d' :: rest) (by omega) (delimited_cons (by decide))
    have htext : printFieldList W [(k, v)] ++ rest = W.quote k ++ ':' :: (W.print v ++ '\x7d' :: rest) := by
      simp [printFieldList, printFields]
    rw [htext, readFields_last W R hv]
    simp only [readBackFields]
    cases W.text k with
    | none => rfl
    | some t => cases readBack W R depth v <;> rfl
  | (k, v) :: (l, w) :: ws, fuel, depth, rest, _, hfuel => by
    rw [weightFields] at hfuel
    obtain ⟨fuel, rfl⟩ : ∃ n, fuel = n + 1 := ⟨fuel - 1, by omega⟩
    have hv := readValue_print v fuel depth (',' :: (printFieldList W ((l, w) :: ws) ++ rest)) (by omega)
      (delimited_cons (by decide))
    have hws := readFields_print ((l, w) :: ws) fuel depth rest (by simp) (by omega)
    have htext : printFieldList W ((k, v) :: (l, w) :: ws) ++ rest =
        W.quote k ++ ':' :: (W.print v ++ ',' :: (printFieldList W ((l, w) :: ws) ++ rest)) := by
      simp [printFieldList, printFields]
    rw [htext, readFields_next W R hv, readBackFields]
    simp only [hws]
    cases W.text k with
    | none => rfl
    | some t =>
      cases readBack W R depth v with
      | none => rfl
      | some v => cases readBackFields W R depth ((l, w) :: ws) <;> rfl
end

mutual
theorem weight_le_length : ∀ v : Json σ μ, weight v ≤ (W.print v).length
  | .null => by simp [weight, Writer.print, print]
  | .bool true => by simp [weight, Writer.print, print]
  | .bool false => by simp [weight, Writer.print, print]
  | .num n => by
    obtain ⟨c, cs, h, -⟩ := print_cons W (.num n)
    simp [weight, h]
  | .str s => by
    obtain ⟨c, cs, h, -⟩ := print_cons W (.str s)
    simp [weight, h]
  | .arr [] => by simp [weight, weightItems, Writer.print, print]
  | .arr (v :: vs) => by
    have hv := weight_le_length v
    have hvs := weightItems_le_length vs
    simp only [weight, weightItems, Writer.print, print, List.length_cons, List.length_append] at hv ⊢
    omega
  | .obj [] => by simp [weight, weightFields, Writer.print, print]
  | .obj ((k, v) :: fs) => by
    have hv := weight_le_length v
    have hfs := weightFields_le_length fs
    simp only [weight, weightFields, Writer.print, print, List.length_cons, List.length_append] at hv ⊢
    omega

theorem weightItems_le_length : ∀ vs : List (Json σ μ),
    weightItems vs + 1 ≤ (printItems W.quote W.digits vs).length
  | [] => by simp [weightItems, printItems]
  | v :: vs => by
    have hv := weight_le_length v
    have hvs := weightItems_le_length vs
    simp only [weightItems, Writer.print, printItems, List.length_cons, List.length_append] at hv ⊢
    omega

theorem weightFields_le_length : ∀ fs : List (σ × Json σ μ),
    weightFields fs + 1 ≤ (printFields W.quote W.digits fs).length
  | [] => by simp [weightFields, printFields]
  | (k, v) :: fs => by
    have hv := weight_le_length v
    have hfs := weightFields_le_length fs
    simp only [weightFields, Writer.print, printFields, List.length_cons, List.length_append] at hv ⊢
    omega
end

/-- A document is read back as its tree is. White space after it changes nothing. -/
theorem read_print (v : Json σ μ) (space : List Char) (hspace : space.all isSpace = true) :
    read R (W.print v ++ space) = readBack W R R.maxDepth v := by
  have hfuel : weight v ≤ (W.print v ++ space).length + 1 := by
    have := weight_le_length W v
    simp only [List.length_append]
    omega
  have hdel : Delimited space := by
    rintro c cs rfl
    simp only [List.all_cons, Bool.and_eq_true] at hspace
    have hc := hspace.1
    simp only [isSpace, Bool.or_eq_true, beq_iff_eq] at hc
    rcases hc with ((rfl | rfl) | rfl) | rfl <;> decide
  have hskip : skipSpace space = [] := by
    simpa [skipSpace, List.dropWhile_eq_nil_iff] using hspace
  rw [read, readValue_print W R v _ _ space hfuel hdel]
  cases readBack W R R.maxDepth v <;> simp [hskip]

end Json
