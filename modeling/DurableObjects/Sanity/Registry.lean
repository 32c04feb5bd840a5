import DurableObjects.Spec.Sockets

/-! The registry, one connection at a time: what each operation does to the entry of a
connection, and which entries a list read from it can come from. -/

namespace LDO

variable {registry : SocketRegistry} {actor : ActorKey} {connectionId : String} {entry : RegisteredSocket}

namespace SocketRegistry

theorem entry_set (registry : SocketRegistry) (actor a : ActorKey)
    (connections : Option SocketEntries) (id : String) :
    (registry.set actor connections).entry a id =
      if a = actor then connections.bind fun cs => cs.lookup id else registry.entry a id := by
  unfold SocketRegistry.entry SocketRegistry.set
  by_cases ha : a = actor
  · subst ha
    simp
  · simp [ha]

theorem lookup_getD (connections : Option SocketEntries) (id : String) :
    (connections.getD ∅).lookup id = connections.bind fun cs => cs.lookup id := by
  cases connections with
  | none => exact AList.lookup_empty id
  | some cs => rfl

theorem entry_insert_full {connection : ActorSocketConnection} {outbound : ℕ} {triggerId : Option String}
    (h : (registry.insert actor connection outbound triggerId).1 = false) (a : ActorKey) (id : String) :
    (registry.insert actor connection outbound triggerId).2.entry a id = registry.entry a id := by
  unfold SocketRegistry.insert at h ⊢
  dsimp only at h ⊢
  split_ifs at h ⊢
  rw [entry_set]
  split_ifs with ha
  · subst ha
    exact lookup_getD _ id
  · rfl

theorem entry_insert {connection : ActorSocketConnection} {outbound : ℕ} {triggerId : Option String}
    (h : (registry.insert actor connection outbound triggerId).1 = true) (a : ActorKey) (id : String) :
    (registry.insert actor connection outbound triggerId).2.entry a id =
      if a = actor ∧ id = connection.id then some ⟨connection, outbound, false, triggerId⟩
      else registry.entry a id := by
  unfold SocketRegistry.insert at h ⊢
  dsimp only at h ⊢
  split_ifs at h ⊢ with hfull hkey
  · obtain ⟨rfl, rfl⟩ := hkey
    rw [entry_set, if_pos rfl]
    exact AList.lookup_insert _
  · rw [entry_set]
    split_ifs with ha
    · subst ha
      have hid : id ≠ connection.id := fun hid => hkey ⟨rfl, hid⟩
      exact (AList.lookup_insert_ne hid).trans (lookup_getD _ id)
    · rfl

theorem entry_remove (registry : SocketRegistry) (actor a : ActorKey) (connectionId id : String) :
    (registry.remove actor connectionId).2.entry a id =
      if a = actor ∧ id = connectionId then none else registry.entry a id := by
  unfold SocketRegistry.remove
  cases hentries : registry.entries actor with
  | none =>
    split_ifs with hkey
    · obtain ⟨rfl, rfl⟩ := hkey
      simp [SocketRegistry.entry, hentries]
    · rfl
  | some connections =>
    dsimp only
    rw [entry_set]
    -- an actor without connections is dropped
    have hdrop : (if (connections.erase connectionId).entries.isEmpty then none
        else some (connections.erase connectionId)).bind (fun cs => cs.lookup id) =
        (connections.erase connectionId).lookup id := by
      split_ifs with hempty
      · symm
        rw [Option.bind_none, AList.lookup_eq_none]
        intro hmem
        rw [AList.mem_keys, AList.keys, List.isEmpty_iff.mp hempty] at hmem
        cases hmem
      · rfl
    by_cases ha : a = actor
    · subst ha
      rw [if_pos rfl, hdrop]
      by_cases hid : id = connectionId
      · subst hid
        simp
      · simp [hid, SocketRegistry.entry, hentries, AList.lookup_erase_ne hid]
    · simp [ha]

theorem removed_eq (registry : SocketRegistry) (actor : ActorKey) (connectionId : String) :
    (registry.remove actor connectionId).1 = (registry.entry actor connectionId).map (·.connection) := by
  unfold SocketRegistry.remove SocketRegistry.entry
  cases registry.entries actor with
  | none => rfl
  | some connections => rfl

theorem entry_modify (registry : SocketRegistry) (actor a : ActorKey) (connectionId id : String)
    (f : RegisteredSocket → RegisteredSocket) :
    (registry.modify actor connectionId f).entry a id =
      if a = actor ∧ id = connectionId then (registry.entry a id).map f else registry.entry a id := by
  unfold SocketRegistry.modify
  cases hentries : registry.entries actor with
  | none =>
    split_ifs with hkey
    · obtain ⟨rfl, rfl⟩ := hkey
      simp [SocketRegistry.entry, hentries]
    · rfl
  | some connections =>
    dsimp only
    cases hlookup : connections.lookup connectionId with
    | none =>
      split_ifs with hkey
      · obtain ⟨rfl, rfl⟩ := hkey
        simp [SocketRegistry.entry, hentries, hlookup]
      · rfl
    | some entry =>
      dsimp only
      rw [entry_set]
      by_cases ha : a = actor
      · subst ha
        rw [if_pos rfl]
        by_cases hid : id = connectionId
        · subst hid
          simp [SocketRegistry.entry, hentries, hlookup]
        · simp [hid, SocketRegistry.entry, hentries, AList.lookup_insert_ne hid]
      · simp [ha]

/-- A listed entry is the entry of some connection. -/
theorem exists_entry_of_mem_values (h : entry ∈ registry.values actor) :
    ∃ id, registry.entry actor id = some entry := by
  unfold SocketRegistry.values at h
  unfold SocketRegistry.entry
  cases hentries : registry.entries actor with
  | none =>
    rw [hentries] at h
    cases h
  | some connections =>
    rw [hentries] at h
    obtain ⟨⟨id, entry'⟩, hm, rfl⟩ := List.mem_map.mp h
    exact ⟨id, AList.mem_lookup_iff.mpr hm⟩

theorem entry_of_recipient {exceptConnectionIds tags : List String} {channel : ℕ}
    (h : channel ∈ registry.recipients actor exceptConnectionIds tags) :
    ∃ id entry, registry.entry actor id = some entry ∧ entry.receives exceptConnectionIds tags = true ∧
      entry.outbound = channel := by
  obtain ⟨entry, hm, rfl⟩ := List.mem_map.mp h
  obtain ⟨hm, hreceives⟩ := List.mem_filter.mp hm
  obtain ⟨id, hentry⟩ := exists_entry_of_mem_values hm
  exact ⟨id, entry, hentry, hreceives, rfl⟩

/-! ### Lists read from the registry -/

theorem mem_values_of_entry (h : registry.entry actor connectionId = some entry) :
    entry ∈ registry.values actor := by
  unfold SocketRegistry.entry at h
  unfold SocketRegistry.values
  obtain ⟨connections, hentries, hlookup⟩ := Option.bind_eq_some_iff.mp h
  rw [hentries]
  exact List.mem_map.mpr ⟨⟨connectionId, entry⟩, AList.mem_lookup_iff.mp hlookup, rfl⟩

theorem mem_connections {connection : ActorSocketConnection} : connection ∈ registry.connections actor ↔
    ∃ id entry, registry.entry actor id = some entry ∧ entry.isOpen = true ∧ entry.connection = connection := by
  simp only [SocketRegistry.connections, List.mem_map, List.mem_filter]
  constructor
  · rintro ⟨entry, ⟨hm, hopen⟩, rfl⟩
    obtain ⟨id, hentry⟩ := exists_entry_of_mem_values hm
    exact ⟨id, entry, hentry, hopen, rfl⟩
  · rintro ⟨id, entry, hentry, hopen, rfl⟩
    exact ⟨entry, ⟨mem_values_of_entry hentry, hopen⟩, rfl⟩

theorem mem_recipients {exceptConnectionIds tags : List String} {channel : ℕ} :
    channel ∈ registry.recipients actor exceptConnectionIds tags ↔
    ∃ id entry, registry.entry actor id = some entry ∧
      entry.receives exceptConnectionIds tags = true ∧ entry.outbound = channel := by
  constructor
  · exact entry_of_recipient
  · rintro ⟨id, entry, hentry, hreceives, rfl⟩
    exact List.mem_map.mpr ⟨entry, List.mem_filter.mpr ⟨mem_values_of_entry hentry, hreceives⟩, rfl⟩

/-- What is different for different connections is different for the listed entries. -/
theorem nodup_values {β : Type} {f : RegisteredSocket → β} (hf : ∀ {id id' entry entry'},
      registry.entry actor id = some entry → registry.entry actor id' = some entry' →
      f entry = f entry' → id = id') :
    ((registry.values actor).map f).Nodup := by
  unfold SocketRegistry.values
  cases hentries : registry.entries actor with
  | none => exact List.nodup_nil
  | some connections =>
    have hentry : ∀ p ∈ connections.entries, registry.entry actor p.1 = some p.2 := by
      intro p hp
      unfold SocketRegistry.entry
      rw [hentries]
      exact AList.mem_lookup_iff.mpr hp
    have hnodup : connections.entries.Nodup := connections.nodupKeys.nodup
    change ((connections.entries.map (·.2)).map f).Nodup
    rw [List.map_map]
    refine hnodup.map_on fun p hp q hq heq => ?_
    have hkey : p.1 = q.1 := hf (hentry p hp) (hentry q hq) heq
    have hval : p.2 = q.2 := by
      have hp' := hentry p hp
      rw [hkey, hentry q hq] at hp'
      exact (Option.some.inj hp').symm
    obtain ⟨id, entry⟩ := p
    obtain ⟨id', entry'⟩ := q
    cases hkey
    cases hval
    rfl

/-! ### How many connections an actor has -/

/-- An actor in the registry has at least one connection, and not too many. -/
def Sized (registry : SocketRegistry) : Prop :=
  ∀ actor connections, registry.entries actor = some connections →
  1 ≤ connections.entries.length ∧ connections.entries.length ≤ maxConnectionsPerActor

theorem Sized.set (h : registry.Sized) {connections : Option SocketEntries} (hc : ∀ cs, connections = some cs →
    1 ≤ cs.entries.length ∧ cs.entries.length ≤
      maxConnectionsPerActor) : (registry.set actor connections).Sized := by
  intro a cs hcs
  change Function.update registry.entries actor connections a = some cs at hcs
  by_cases ha : a = actor
  · subst ha
    rw [Function.update_self] at hcs
    exact hc cs hcs
  · rw [Function.update_of_ne ha] at hcs
    exact h a cs hcs

theorem length_erase_le (connections : SocketEntries) (id : String) :
    (connections.erase id).entries.length ≤ connections.entries.length :=
  (List.kerase_sublist id connections.entries).length_le

theorem length_insert_le (connections : SocketEntries) (id : String) (entry : RegisteredSocket) :
    (connections.insert id entry).entries.length ≤ connections.entries.length + 1 := by
  rw [AList.entries_insert]
  exact Nat.succ_le_succ (List.kerase_sublist id connections.entries).length_le

theorem one_le_length_insert (connections : SocketEntries) (id : String) (entry : RegisteredSocket) :
    1 ≤ (connections.insert id entry).entries.length := by
  rw [AList.entries_insert, List.length_cons]
  omega

theorem length_insert_of_lookup {connections : SocketEntries} {id : String} {entry : RegisteredSocket}
    (h : connections.lookup id = some entry) (entry' : RegisteredSocket) :
    (connections.insert id entry').entries.length = connections.entries.length := by
  have hmem : id ∈ connections.entries.keys := (AList.lookup_isSome (s := connections)).mp (by rw [h]; rfl)
  obtain ⟨b, before, after, -, heq, hrest⟩ := List.exists_of_kerase hmem
  rw [AList.entries_insert, hrest, heq]
  simp
  omega

theorem sized_insert (h : registry.Sized) (connection : ActorSocketConnection) (outbound : ℕ)
    (triggerId : Option String) :
    (registry.insert actor connection outbound triggerId).2.Sized := by
  have hold : ∀ cs, registry.entries actor = some cs → cs.entries.length ≤ maxConnectionsPerActor :=
    fun cs hcs => (h actor cs hcs).2
  unfold SocketRegistry.insert
  dsimp only
  split_ifs with hfull
  · refine h.set fun cs hcs => ?_
    obtain rfl := Option.some.inj hcs
    refine ⟨le_trans (by decide) hfull, ?_⟩
    cases hentries : registry.entries actor with
    | none => exact Nat.zero_le _
    | some cs => exact hold cs hentries
  · refine h.set fun cs hcs => ?_
    obtain rfl := Option.some.inj hcs
    refine ⟨one_le_length_insert _ _ _, (length_insert_le _ _ _).trans ?_⟩
    omega

theorem sized_remove (h : registry.Sized) (connectionId : String) :
    (registry.remove actor connectionId).2.Sized := by
  unfold SocketRegistry.remove
  split
  · exact h
  · rename_i connections hentries
    refine h.set fun cs hcs => ?_
    split_ifs at hcs with hempty
    obtain rfl := Option.some.inj hcs
    refine ⟨?_, (length_erase_le connections connectionId).trans (h actor connections hentries).2⟩
    exact List.length_pos_iff.mpr fun hnil => hempty (by rw [hnil]; rfl)

theorem sized_modify (h : registry.Sized) (connectionId : String) (f : RegisteredSocket → RegisteredSocket) :
    (registry.modify actor connectionId f).Sized := by
  unfold SocketRegistry.modify
  split
  · exact h
  · rename_i connections hentries
    split
    · exact h
    · rename_i entry hlookup
      refine h.set fun cs hcs => ?_
      obtain rfl := Option.some.inj hcs
      rw [length_insert_of_lookup hlookup]
      exact h actor connections hentries

end SocketRegistry

end LDO
