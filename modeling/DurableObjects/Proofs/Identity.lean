import DurableObjects.Spec.Identity

/-! When two actor keys are filed under one storage key. The key joins its three
components with dots and every component may hold dots of its own, so a storage
key only remembers the labels between the dots and not where a component ends. -/

namespace LDO

/-- The labels between the dots of a component. -/
def labels (component : String) : List (List Char) := component.toList.splitOn '.'

/-- All labels of a key, in order. -/
def ActorKey.labels (actor : ActorKey) : List (List Char) :=
  LDO.labels actor.namespaceId ++ LDO.labels actor.actorType ++ LDO.labels actor.actorId

/-- Where the first two components end, counted in labels. -/
def ActorKey.cuts (actor : ActorKey) : ℕ × ℕ :=
  ((LDO.labels actor.namespaceId).length, (LDO.labels actor.actorType).length)

theorem labels_inj {a b : String} (h : labels a = labels b) : a = b := by
  have hj := congrArg (List.intercalate ['.']) h
  simp only [labels, List.intercalate_splitOn] at hj
  exact String.toList_inj.mp hj

theorem splitOn_storageKey (actor : ActorKey) :
    actor.storageKey.id.toList.splitOn '.' = "object".toList :: "v1".toList :: actor.labels := by
  have hjoin : actor.storageKey.id.toList =
      "object".toList ++ '.' :: ("v1".toList ++ '.' :: (actor.namespaceId.toList ++
        '.' :: (actor.actorType.toList ++ '.' :: actor.actorId.toList))) := by
    simp [ActorKey.storageKey]
  rw [hjoin]
  simp only [List.splitOn_append_cons_self, ActorKey.labels, labels, List.append_assoc]
  rfl

/-- A storage key determines the labels of the actor and nothing more. -/
theorem storageKey_eq_iff (a b : ActorKey) : a.storageKey = b.storageKey ↔ a.labels = b.labels := by
  constructor
  · intro h
    have hs := congrArg (fun k : ActorStorageKey => k.id.toList.splitOn '.') h
    simpa [splitOn_storageKey] using hs
  · intro h
    have hs : a.storageKey.id.toList.splitOn '.' = b.storageKey.id.toList.splitOn '.' := by
      rw [splitOn_storageKey, splitOn_storageKey, h]
    have hid := labels_inj hs
    cases ha : a.storageKey
    cases hb : b.storageKey
    rw [ha, hb] at hid
    exact congrArg ActorStorageKey.mk hid

theorem eq_of_labels_of_cuts {a b : ActorKey} (hl : a.labels = b.labels) (hc : a.cuts = b.cuts) :
    a = b := by
  obtain ⟨hn, ht⟩ := Prod.mk.inj hc
  obtain ⟨hnt, hid⟩ := List.append_inj hl (by rw [List.length_append, List.length_append, hn, ht])
  obtain ⟨hns, hty⟩ := List.append_inj hnt hn
  cases a
  cases b
  simp only [ActorKey.mk.injEq]
  exact ⟨labels_inj hns, labels_inj hty, labels_inj hid⟩

/-- Two keys share a storage key and still differ exactly when they spell the
same labels and cut them into components at different dots. -/
theorem storageKey_injective_iff (a b : ValidActorKey) :
    (a.storageKey = b.storageKey →
      a.namespaceId = b.namespaceId ∧ a.actorType = b.actorType ∧ a.actorId = b.actorId) ↔
    (a.labels = b.labels → a.cuts = b.cuts) := by
  constructor
  · intro h hl
    obtain ⟨hn, ht, -⟩ := h ((storageKey_eq_iff _ _).mpr hl)
    simp only [ActorKey.cuts, hn, ht]
  · intro h hk
    have hl := (storageKey_eq_iff _ _).mp hk
    have he := eq_of_labels_of_cuts hl (h hl)
    simp [he]

/-- An actor of namespace `acme` whose type carries a dot. -/
def dottedType : ValidActorKey where
  namespaceId := "acme"
  actorType := "team.Counter"
  actorId := "1"
  valid := by decide

/-- An actor of the other tenant `acme.team`. -/
def dottedNamespace : ValidActorKey where
  namespaceId := "acme.team"
  actorType := "Counter"
  actorId := "1"
  valid := by decide

theorem storageKey_shared_by_two_namespaces :
    dottedType.storageKey = dottedNamespace.storageKey ∧
      dottedType.namespaceId ≠ dottedNamespace.namespaceId ∧
      dottedType.actorType ≠ dottedNamespace.actorType := by decide

/-- Keys without dots in the namespace and the type never collide. -/
theorem storageKey_inj_of_dotFree {a b : ActorKey}
    (ha : '.' ∉ a.namespaceId.toList ∧ '.' ∉ a.actorType.toList)
    (hb : '.' ∉ b.namespaceId.toList ∧ '.' ∉ b.actorType.toList) (h : a.storageKey = b.storageKey) :
    a = b := by
  refine eq_of_labels_of_cuts ((storageKey_eq_iff a b).mp h) ?_
  simp only [ActorKey.cuts, labels, List.splitOn_eq_singleton ha.1, List.splitOn_eq_singleton ha.2,
    List.splitOn_eq_singleton hb.1, List.splitOn_eq_singleton hb.2, List.length_singleton]

end LDO
