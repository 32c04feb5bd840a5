import Std.Data.String.ToNat
import DurableObjects.Sanity.Strings
import DurableObjects.Spec.ControlPlane

/-! The names of snapshots. `snapshotObjectName` writes a list of parts with slashes between
them, and the validator splits a name at its slashes. No part of an actor's name holds a slash,
so the list can be read back: both say the same of a name, and a name tells whose it is. -/

namespace LDO

variable {actor actor' : ActorKey} {version version' : ℕ} {nonce : String} {s : String} {c : Char}

/-! ### Characters -/

theorem isComponentChar_of_isHexDigit (h : isHexDigit c = true) : isComponentChar c = true := by
  simp only [isHexDigit, isComponentChar, Char.isAlphanum, Char.isAlpha, Char.isUpper, Char.isLower,
    Char.isDigit,
    Bool.or_eq_true, Bool.and_eq_true, decide_eq_true_eq, beq_iff_eq, Char.le_def] at h ⊢
  grind

theorem isComponentChar_of_mem_repr (h : c ∈ (toString version).toList) : isComponentChar c = true := by
  have hdigit := Nat.isDigit_of_mem_toDigits (by decide) (by decide) (String.toList_ofList ▸ h)
  simp [isComponentChar, Char.isAlphanum, hdigit]

/-! ### The parts of a name -/

theorem mem_intercalate {sep : List Char} {parts : List (List Char)} (h : c ∈ sep.intercalate parts) :
    c ∈ sep ∨ ∃ part ∈ parts, c ∈ part := by
  induction parts with
  | nil => simp at h
  | cons part parts ih =>
    cases parts with
    | nil => exact .inr ⟨part, by simp, by simpa using h⟩
    | cons next rest =>
      rw [List.intercalate_cons_cons, List.mem_append, List.mem_append] at h
      rcases h with (h | h) | h
      · exact .inr ⟨part, by simp, h⟩
      · exact .inl h
      · rcases ih h with hsep | ⟨part', hmem, hc⟩
        · exact .inl hsep
        · exact .inr ⟨part', by simp [hmem], hc⟩

def nameParts (actor : ActorKey) (version : ℕ) (nonce : List Char) : List (List Char) :=
  ["snapshots".toList, nonce.take 2, nonce, actor.namespaceId.toList, actor.actorType.toList, actor.actorId.toList,
    (toString version ++ ".json").toList]

/-- The name with these parts. -/
def nameOf (actor : ActorKey) (version : ℕ) (nonce : List Char) : List Char :=
  ['/'].intercalate (nameParts actor version nonce)

def IsNonce (nonce : List Char) : Prop := nonce.length = 32 ∧ nonce.all isHexDigit = true

theorem IsNonce.components {nonce : List Char} (h : IsNonce nonce) : nonce.all isComponentChar = true :=
  List.all_eq_true.mpr fun c hc => isComponentChar_of_isHexDigit (List.all_eq_true.mp h.2 c hc)

theorem isNonce_iff :
    nonce.utf8ByteSize = 32 ∧ nonce.toList.all isHexDigit = true ↔ IsNonce nonce.toList := by
  constructor
  · rintro ⟨hsize, hhex⟩
    have hcomponents : nonce.toList.all isComponentChar = true :=
      List.all_eq_true.mpr fun c hc => isComponentChar_of_isHexDigit (List.all_eq_true.mp hhex c hc)
    exact ⟨(utf8ByteSize_of_components hcomponents).symm.trans hsize, hhex⟩
  · intro h
    exact ⟨(utf8ByteSize_of_components h.components).trans h.1, h.2⟩

theorem snapshotPartsMatch_iff {parts : List (List Char)} :
    snapshotPartsMatch actor version parts = true ↔
    ∃ nonce, IsNonce nonce ∧ parts = nameParts actor version nonce := by
  constructor
  · intro h
    unfold snapshotPartsMatch at h
    split at h
    · rename_i root head nonce namespaceId actorType actorId file
      simp only [Bool.and_eq_true, beq_iff_eq, List.isPrefixOf_iff_prefix] at h
      obtain ⟨⟨⟨⟨⟨⟨⟨⟨rfl, hprefix⟩, hhead⟩, hlength⟩, hhex⟩, rfl⟩, rfl⟩, rfl⟩, rfl⟩ := h
      refine ⟨nonce, ⟨hlength, hhex⟩, ?_⟩
      rw [nameParts, ← hhead, ← List.prefix_iff_eq_take.mp hprefix]
    · cases h
  · rintro ⟨nonce, ⟨hlength, hhex⟩, rfl⟩
    simp [snapshotPartsMatch, nameParts, hlength, hhex, List.isPrefixOf_iff_prefix, List.take_prefix]

/-! ### Valid actors -/

theorem validateComponent_ok {name value : String} {maxBytes : ℕ} {u : Unit} :
    validateComponent name value maxBytes = .ok u ↔
      value ≠ "" ∧ value.utf8ByteSize ≤ maxBytes ∧ value.toList.all isComponentChar = true := by
  simp [validateComponent, bind_ok, ensure_ok_iff]

theorem ActorKey.validate_components (h : actor.validate = .ok ()) :
    (actor.namespaceId.utf8ByteSize ≤ 96 ∧ actor.namespaceId.toList.all isComponentChar = true) ∧
    (actor.actorType.utf8ByteSize ≤ 48 ∧ actor.actorType.toList.all isComponentChar = true) ∧
    actor.actorId.utf8ByteSize ≤ 128 ∧ actor.actorId.toList.all isComponentChar = true := by
  simp only [ActorKey.validate, bind_ok, validateComponent_ok] at h
  obtain ⟨-, ⟨-, hnamespace⟩, -, ⟨-, htype⟩, -, ⟨-, hid⟩, -⟩ := h
  exact ⟨hnamespace, htype, hid⟩

theorem file_components : (toString version ++ ".json").toList.all isComponentChar = true := by
  rw [String.toList_append, List.all_append, Bool.and_eq_true]
  exact ⟨List.all_eq_true.mpr fun c hc => isComponentChar_of_mem_repr hc, by decide⟩

theorem nameParts_components {nonce : List Char} (h : actor.validate = .ok ()) (hnonce : IsNonce nonce) :
    ∀ part ∈ nameParts actor version nonce, ∀ c ∈ part, isComponentChar c = true := by
  obtain ⟨⟨-, hnamespace⟩, ⟨-, htype⟩, -, hid⟩ := ActorKey.validate_components h
  have hcomponents := hnonce.components
  rw [List.all_eq_true] at hnamespace htype hid hcomponents
  simp only [nameParts, List.forall_mem_cons]
  refine ⟨List.all_eq_true.mp (by decide), fun c hc => hcomponents c (List.mem_of_mem_take hc), hcomponents, hnamespace, htype, hid, ?_, nofun⟩
  exact List.all_eq_true.mp file_components

/-- A name can be split into its parts again. -/
theorem splitOn_nameOf {nonce : List Char} (h : actor.validate = .ok ()) (hnonce : IsNonce nonce) :
    (nameOf actor version nonce).splitOn '/' = nameParts actor version nonce := by
  apply List.splitOn_intercalate
  · intro part hpart hslash
    exact (isComponentChar_printable (nameParts_components h hnonce part hpart _ hslash)).2.2 rfl
  · simp [nameParts]

/-! ### What a name passes -/

theorem snapshotObjectName_ok (h : actor.validate = .ok ()) (hversion : 0 < version) :
    snapshotObjectName actor version nonce = .ok s ↔
    IsNonce nonce.toList ∧ s.toList = nameOf actor version nonce.toList := by
  have htext : ("snapshots/" ++ String.ofList (nonce.toList.take 2) ++ "/" ++ nonce ++ "/" ++ actor.namespaceId ++ "/" ++
      actor.actorType ++ "/" ++ actor.actorId ++ "/" ++ toString version ++ ".json").toList =
      nameOf actor version nonce.toList := by
    simp [nameOf, nameParts, List.intercalate]
  rw [← htext, String.toList_inj, ← isNonce_iff]
  simp only [snapshotObjectName, bind_ok, ensure_ok_iff]
  constructor
  · rintro ⟨_, -, _, -, _, hnonce, heq⟩
    exact ⟨hnonce, (Except.ok.inj heq).symm⟩
  · rintro ⟨hnonce, rfl⟩
    exact ⟨(), h, (), hversion, (), hnonce, rfl⟩

theorem length_version (h : version ≤ u64Max) : (toString version).toList.length ≤ 20 := by
  rw [String.length_toList]
  apply (Nat.length_repr_le_iff (by omega)).mpr
  rw [u64Max] at h
  omega

theorem nameOf_printable {nonce : List Char} (h : actor.validate = .ok ()) (hnonce : IsNonce nonce) :
    ∀ c ∈ nameOf actor version nonce, 0x20 ≤ c.toNat ∧ c.toNat < 0x7f := by
  have hparts : ∀ part ∈ nameParts actor version nonce, ∀ c ∈ part, isComponentChar c = true :=
    nameParts_components h hnonce
  have hslash : 0x20 ≤ '/'.toNat ∧ '/'.toNat < 0x7f := by decide
  have hpart : ∀ part ∈ nameParts actor version nonce, ∀ c ∈ part, 0x20 ≤ c.toNat ∧ c.toNat < 0x7f :=
    fun part hpart c hc => ⟨(isComponentChar_printable (hparts part hpart c hc)).1,
      (isComponentChar_printable (hparts part hpart c hc)).2.1⟩
  intro c hc
  rcases mem_intercalate hc with hc | ⟨part, hmem, hc⟩
  · cases List.mem_singleton.mp hc
    exact hslash
  · exact hpart part hmem c hc

theorem length_nameOf {nonce : List Char} (h : actor.validate = .ok ()) (hversion : version ≤ u64Max)
    (hnonce : IsNonce nonce) : (nameOf actor version nonce).length ≤ 1024 := by
  obtain ⟨⟨hnamespace, hnamespaceChars⟩, ⟨htype, htypeChars⟩, hid, hidChars⟩ := ActorKey.validate_components h
  rw [utf8ByteSize_of_components hnamespaceChars] at hnamespace
  rw [utf8ByteSize_of_components htypeChars] at htype
  rw [utf8ByteSize_of_components hidChars] at hid
  have hdigits := length_version hversion
  have hlength := hnonce.1
  simp only [nameOf, nameParts, List.intercalate, List.intersperse, List.flatten_cons,
    List.flatten_nil, List.length_append,
    List.length_cons, List.length_nil, List.length_take, hlength, String.toList_append] at *
  have hroot : "snapshots".toList.length = 9 := rfl
  have hsuffix : ".json".toList.length = 5 := rfl
  omega

theorem validateObjectName_ok {nonce : List Char} (h : actor.validate = .ok ()) (hversion : version ≤ u64Max)
    (hnonce : IsNonce nonce) (hs : s.toList = nameOf actor version nonce) : validateObjectName s = .ok () := by
  have hprintable : ∀ c ∈ nameOf actor version nonce, 0x20 ≤ c.toNat ∧ c.toNat < 0x7f :=
    nameOf_printable h hnonce
  rw [← hs] at hprintable
  rw [validateObjectName, ensure_ok]
  refine ⟨?_, ?_, ?_⟩
  · rw [hs]
    exact ⟨['/'].intercalate (nameParts actor version nonce).tail,
      by simp [nameOf, nameParts, List.intercalate]⟩
  · rw [utf8ByteSize_of_ascii fun c hc => by have := hprintable c hc; omega, hs]
    exact length_nameOf h hversion hnonce
  · simp only [List.any_eq_true, isControl, not_exists, not_and]
    intro c hc
    have := hprintable c hc
    simp
    omega

theorem validateSnapshotObjectName_ok (h : actor.validate = .ok ()) (hversion : version ≤ u64Max) :
    validateSnapshotObjectName actor version s = .ok () ↔
    ∃ nonce, IsNonce nonce ∧ s.toList = nameOf actor version nonce := by
  simp only [validateSnapshotObjectName, bind_ok, ensure_ok_iff, snapshotPartsMatch_iff]
  constructor
  · rintro ⟨_, -, nonce, hnonce, hparts⟩
    refine ⟨nonce, hnonce, ?_⟩
    rw [nameOf, ← hparts, List.intercalate_splitOn]
  · rintro ⟨nonce, hnonce, hs⟩
    refine ⟨(), validateObjectName_ok h hversion hnonce hs, nonce, hnonce, ?_⟩
    rw [hs, splitOn_nameOf h hnonce]

/-- A name is accepted for one actor and one version. -/
theorem validateSnapshotObjectName_inj (h : validateSnapshotObjectName actor version s = .ok ())
    (h' : validateSnapshotObjectName actor' version' s = .ok ()) : actor = actor' ∧ version = version' := by
  simp only [validateSnapshotObjectName, bind_ok, ensure_ok_iff, snapshotPartsMatch_iff] at h h'
  obtain ⟨_, -, nonce, -, hparts⟩ := h
  obtain ⟨_, -, nonce', -, hparts'⟩ := h'
  have heq := hparts.symm.trans hparts'
  simp only [nameParts, List.cons.injEq, String.toList_inj, and_true, true_and] at heq
  obtain ⟨-, -, hnamespace, htype, hid, hfile⟩ := heq
  refine ⟨by cases actor; cases actor'; simp_all, ?_⟩
  have hlists := congrArg String.toList hfile
  rw [String.toList_append, String.toList_append] at hlists
  exact Nat.repr_inj.mp (String.toList_inj.mp (List.append_cancel_right hlists))

end LDO
