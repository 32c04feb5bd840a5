import DurableObjects.Lib.JsonRoundTrip

/-! Which trees a reader can read back at all: those that are not too deep, and whose
strings and numbers it accepts one by one. -/

namespace Json

section Shape

variable {σ ν : Type}

mutual
/-- The number of brackets that are open at once. -/
def depth : Json σ ν → ℕ
  | .arr vs => depthItems vs + 1
  | .obj fs => depthFields fs + 1
  | _ => 0

def depthItems : List (Json σ ν) → ℕ
  | [] => 0
  | v :: vs => max (depth v) (depthItems vs)

def depthFields : List (σ × Json σ ν) → ℕ
  | [] => 0
  | (_, v) :: fs => max (depth v) (depthFields fs)
end

mutual
/-- Every string of the tree, keys included. -/
def AllStrings (p : σ → Prop) : Json σ ν → Prop
  | .str s => p s
  | .arr vs => AllStringsItems p vs
  | .obj fs => AllStringsFields p fs
  | _ => True

def AllStringsItems (p : σ → Prop) : List (Json σ ν) → Prop
  | [] => True
  | v :: vs => AllStrings p v ∧ AllStringsItems p vs

def AllStringsFields (p : σ → Prop) : List (σ × Json σ ν) → Prop
  | [] => True
  | (k, v) :: fs => p k ∧ AllStrings p v ∧ AllStringsFields p fs
end

mutual
def AllNumbers (p : ν → Prop) : Json σ ν → Prop
  | .num n => p n
  | .arr vs => AllNumbersItems p vs
  | .obj fs => AllNumbersFields p fs
  | _ => True

def AllNumbersItems (p : ν → Prop) : List (Json σ ν) → Prop
  | [] => True
  | v :: vs => AllNumbers p v ∧ AllNumbersItems p vs

def AllNumbersFields (p : ν → Prop) : List (σ × Json σ ν) → Prop
  | [] => True
  | (_, v) :: fs => AllNumbers p v ∧ AllNumbersFields p fs
end

mutual
theorem AllNumbers.imp {p q : ν → Prop} (hpq : ∀ n, p n → q n) :
    ∀ {v : Json σ ν}, AllNumbers p v → AllNumbers q v
  | .null, _ => trivial
  | .bool _, _ => trivial
  | .str _, _ => trivial
  | .num n, h => hpq n h
  | .arr _, h => AllNumbersItems.imp hpq h
  | .obj _, h => AllNumbersFields.imp hpq h

theorem AllNumbersItems.imp {p q : ν → Prop} (hpq : ∀ n, p n → q n) :
    ∀ {vs : List (Json σ ν)}, AllNumbersItems p vs → AllNumbersItems q vs
  | [], _ => trivial
  | _ :: _, h => ⟨h.1.imp hpq, AllNumbersItems.imp hpq h.2⟩

theorem AllNumbersFields.imp {p q : ν → Prop} (hpq : ∀ n, p n → q n) :
    ∀ {fs : List (σ × Json σ ν)}, AllNumbersFields p fs → AllNumbersFields q fs
  | [], _ => trivial
  | (_, _) :: _, h => ⟨h.1.imp hpq, AllNumbersFields.imp hpq h.2⟩
end

end Shape

section ReadBack

variable {σ μ ν : Type} {W : Writer σ μ} {R : Reader ν}

mutual
theorem readBack_isSome : ∀ {v : Json σ μ} {d : ℕ}, (readBack W R d v).isSome ↔
    depth v ≤ d ∧ AllStrings (fun s => (W.text s).isSome) v ∧ AllNumbers (fun n => (R.number (W.digits n)).isSome) v
  | .null, d => by simp [readBack, depth, AllStrings, AllNumbers]
  | .bool b, d => by simp [readBack, depth, AllStrings, AllNumbers]
  | .num n, d => by simp [readBack, depth, AllStrings, AllNumbers]
  | .str s, d => by simp [readBack, depth, AllStrings, AllNumbers]
  | .arr vs, 0 => by simp [readBack, depth]
  | .obj fs, 0 => by simp [readBack, depth]
  | .arr vs, d + 1 => by
    rw [readBack, Option.isSome_map, readBackItems_isSome, depth, Nat.succ_le_succ_iff]
    rfl
  | .obj fs, d + 1 => by
    rw [readBack, Option.isSome_map, readBackFields_isSome, depth, Nat.succ_le_succ_iff]
    rfl

theorem readBackItems_isSome : ∀ {vs : List (Json σ μ)} {d : ℕ}, (readBackItems W R d vs).isSome ↔
    depthItems vs ≤ d ∧ AllStringsItems (fun s => (W.text s).isSome) vs ∧
      AllNumbersItems (fun n => (R.number (W.digits n)).isSome) vs
  | [], d => by simp [readBackItems, depthItems, AllStringsItems, AllNumbersItems]
  | v :: vs, d => by
    have hv := readBack_isSome (v := v) (d := d)
    have hvs : (readBackItems W R d vs).isSome ↔ _ := readBackItems_isSome
    have hboth : (readBackItems W R d (v :: vs)).isSome ↔
        (readBack W R d v).isSome ∧ (readBackItems W R d vs).isSome := by
      rw [readBackItems]
      cases readBack W R d v <;> simp
    rw [hboth, hv, hvs, depthItems, Nat.max_le, AllStringsItems, AllNumbersItems]
    tauto

theorem readBackFields_isSome : ∀ {fs : List (σ × Json σ μ)} {d : ℕ}, (readBackFields W R d fs).isSome ↔
    depthFields fs ≤ d ∧ AllStringsFields (fun s => (W.text s).isSome) fs ∧
      AllNumbersFields (fun n => (R.number (W.digits n)).isSome) fs
  | [], d => by simp [readBackFields, depthFields, AllStringsFields, AllNumbersFields]
  | (k, v) :: fs, d => by
    have hv := readBack_isSome (v := v) (d := d)
    have hfs : (readBackFields W R d fs).isSome ↔ _ := readBackFields_isSome
    have hall : (readBackFields W R d ((k, v) :: fs)).isSome ↔
        (W.text k).isSome ∧ (readBack W R d v).isSome ∧ (readBackFields W R d fs).isSome := by
      rw [readBackFields]
      cases W.text k with
      | none => simp
      | some t => cases readBack W R d v <;> simp
    rw [hall, hv, hfs, depthFields, Nat.max_le, AllStringsFields, AllNumbersFields]
    tauto
end

theorem readBack_arr_some {d : ℕ} {vs : List (Json σ μ)} {t : Json String ν} :
    readBack W R d (.arr vs) = some t ↔
      ∃ d' ts, d = d' + 1 ∧ readBackItems W R d' vs = some ts ∧ t = .arr ts := by
  cases d with
  | zero => simp [readBack]
  | succ d => simp [readBack, eq_comm]

theorem readBack_obj_some {d : ℕ} {fs : List (σ × Json σ μ)} {t : Json String ν} :
    readBack W R d (.obj fs) = some t ↔
      ∃ d' ts, d = d' + 1 ∧ readBackFields W R d' fs = some ts ∧ t = .obj ts := by
  cases d with
  | zero => simp [readBack]
  | succ d => simp [readBack, eq_comm]

theorem readBackItems_cons_some {d : ℕ} {v : Json σ μ} {vs : List (Json σ μ)} {ts : List (Json String ν)} :
    readBackItems W R d (v :: vs) = some ts ↔
      ∃ t ts', readBack W R d v = some t ∧ readBackItems W R d vs = some ts' ∧ ts = t :: ts' := by
  simp [readBackItems, Option.bind_eq_some_iff, @eq_comm _ ts]

theorem readBackFields_cons_some {d : ℕ} {k : σ} {v : Json σ μ} {fs : List (σ × Json σ μ)}
    {ts : List (String × Json String ν)} :
    readBackFields W R d ((k, v) :: fs) = some ts ↔
      ∃ k' t ts', W.text k = some k' ∧ readBack W R d v = some t ∧ readBackFields W R d fs = some ts' ∧
        ts = (String.ofList k', t) :: ts' := by
  simp [readBackFields, Option.bind_eq_some_iff, @eq_comm _ ts]

/-- The keys that are read are what the keys spell. -/
theorem readBackFields_keys {d : ℕ} {fs : List (σ × Json σ μ)} {ts : List (String × Json String ν)}
    (h : readBackFields W R d fs = some ts) :
    List.Forall₂ (fun k k' => W.text k = some (String.toList k')) (fs.map Prod.fst) (ts.map Prod.fst) := by
  induction fs generalizing ts with
  | nil =>
    simp only [readBackFields, Option.some.injEq] at h
    subst h
    exact .nil
  | cons f fs ih =>
    obtain ⟨k, v⟩ := f
    obtain ⟨k', t, ts', hk, -, hfs, rfl⟩ := readBackFields_cons_some.mp h
    exact .cons (by simpa using hk) (ih hfs)

end ReadBack

/-! ### Printing is injective -/

section Print

variable {ν : Type} {W : Writer String ν} {R : Reader ν}

mutual
/-- A reader that takes every leaf back reads the tree itself. -/
theorem readBack_self (htext : ∀ s, W.text s = some s.toList)
    (hnumber : ∀ n, R.number (W.digits n) = some n) :
    ∀ {v : Json String ν} {d : ℕ}, depth v ≤ d → readBack W R d v = some v
  | .null, d, _ => by rw [readBack]
  | .bool b, d, _ => by rw [readBack]
  | .num n, d, _ => by rw [readBack, hnumber, Option.map_some]
  | .str s, d, _ => by rw [readBack, htext, Option.map_some, String.ofList_toList]
  | .arr vs, 0, h => by simp [depth] at h
  | .obj fs, 0, h => by simp [depth] at h
  | .arr vs, d + 1, h => by
    rw [depth] at h
    rw [readBack, readBackItems_self htext hnumber (by omega), Option.map_some]
  | .obj fs, d + 1, h => by
    rw [depth] at h
    rw [readBack, readBackFields_self htext hnumber (by omega), Option.map_some]

theorem readBackItems_self (htext : ∀ s, W.text s = some s.toList)
    (hnumber : ∀ n, R.number (W.digits n) = some n) :
    ∀ {vs : List (Json String ν)} {d : ℕ}, depthItems vs ≤ d → readBackItems W R d vs = some vs
  | [], d, _ => by rw [readBackItems]
  | v :: vs, d, h => by
    rw [depthItems, Nat.max_le] at h
    rw [readBackItems, readBack_self htext hnumber h.1, readBackItems_self htext hnumber h.2]
    rfl

theorem readBackFields_self (htext : ∀ s, W.text s = some s.toList)
    (hnumber : ∀ n, R.number (W.digits n) = some n) :
    ∀ {fs : List (String × Json String ν)} {d : ℕ}, depthFields fs ≤ d → readBackFields W R d fs = some fs
  | [], d, _ => by rw [readBackFields]
  | (k, v) :: fs, d, h => by
    rw [depthFields, Nat.max_le] at h
    rw [readBackFields, htext, readBack_self htext hnumber h.1, readBackFields_self htext hnumber h.2]
    simp
end

/-- Two trees have one text only if they are the same. -/
theorem print_injective (htext : ∀ s, W.text s = some s.toList) {number : List Char → Option ν}
    (hnumber : ∀ n, number (W.digits n) = some n) {v v' : Json String ν}
    (h : W.print v = W.print v') : v = v' := by
  have hread : ∀ u : Json String ν, depth u ≤ max (depth v) (depth v') →
      read (⟨number, max (depth v) (depth v')⟩ : Reader ν) (W.print u) = some u := by
    intro u hu
    have hback := read_print W (⟨number, max (depth v) (depth v')⟩ : Reader ν) u [] rfl
    rw [List.append_nil] at hback
    rw [hback]
    exact readBack_self htext hnumber hu
  have hv := hread v (le_max_left _ _)
  rw [h, hread v' (le_max_right _ _)] at hv
  exact (Option.some.inj hv).symm

end Print

end Json
