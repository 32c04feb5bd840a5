import DurableObjects.Sanity.Seats
import DurableObjects.Sanity.Broadcast
import DurableObjects.Sanity.GatewayRuns

/-! The connection catalog is exact. What the registry holds of a connection is what was
last set, the catalog of an event lists the connections that were open when it was read,
and a broadcast reaches those that were open and meant. -/

namespace LDO

open Prog Gateway

variable {serde : SerdeJson} {s s' : GatewayState} {t : ℕ} {moves : List GatewayMove} {access : SocketAccess}
  {tr : List GatewayEvent}

/-! ### What was last set -/

def latestOf (actor : ActorKey) (id : String) (known : Option ActorSocketConnection) :
    GatewayMove → Option ActorSocketConnection
  | .call _ ⟨.insert actor' connection _ _, true⟩ =>
      if actor = actor' ∧ id = connection.id then some connection else known
  | .call _ ⟨.setMetadata actor' id' metadata, _⟩ =>
    if actor = actor' ∧ id = id' then known.map fun connection => { connection with metadata } else known
  | .call _ ⟨.setTags actor' id' tags, _⟩ =>
    if actor = actor' ∧ id = id' then known.map fun connection => { connection with tags } else known
  | _ => known

/-- A connection as it was filed, with the metadata and the tags that were applied to it last. -/
def latest (actor : ActorKey) (id : String) (moves : List GatewayMove) : Option ActorSocketConnection :=
  moves.foldl (latestOf actor id) none

theorem latest_snoc (actor : ActorKey) (id : String) (moves : List GatewayMove) (move : GatewayMove) :
    latest actor id (moves ++ [move]) = latestOf actor id (latest actor id moves) move := by
  simp [latest]

theorem latest_step {e : GatewayMove} (h : ∀ actor id entry, s.world.registry.entry actor id = some entry →
      latest actor id moves = some entry.connection) (hs : GatewayStep serde s e s') (actor : ActorKey) (id : String)
    (entry : RegisteredSocket) (hentry : s'.world.registry.entry actor id = some entry) :
    latest actor id (moves ++ [e]) = some entry.connection := by
  rw [latest_snoc]
  cases hs with
  | @call t task op next r ht ha =>
    cases op with
    | insert actor' connection outbound triggerId =>
      change (s.world.registry.insert actor' connection outbound triggerId).2.entry actor id =
        some entry at hentry
      have hr : (s.world.registry.insert actor' connection outbound triggerId).1 = r := Eq.symm ha
      cases r with
      | false =>
        rw [SocketRegistry.entry_insert_full hr] at hentry
        exact h actor id entry hentry
      | true =>
        rw [SocketRegistry.entry_insert hr] at hentry
        change (if actor = actor' ∧ id = connection.id then some connection else latest actor id moves) = _
        split_ifs at hentry ⊢
        · cases hentry
          rfl
        · exact h actor id entry hentry
    | remove actor' connectionId =>
      change (s.world.registry.remove actor' connectionId).2.entry actor id = some entry at hentry
      rw [SocketRegistry.entry_remove] at hentry
      split_ifs at hentry
      exact h actor id entry hentry
    | setMetadata actor' connectionId metadata =>
      change (s.world.registry.setMetadata actor' connectionId metadata).entry actor id = some entry at hentry
      rw [SocketRegistry.setMetadata, SocketRegistry.entry_modify] at hentry
      change (if actor = actor' ∧ id = connectionId then _ else latest actor id moves) = _
      split_ifs at hentry ⊢
      · obtain ⟨old, hold, rfl⟩ := Option.map_eq_some_iff.mp hentry
        rw [h actor id old hold]
        rfl
      · exact h actor id entry hentry
    | setTags actor' connectionId tags =>
      change (s.world.registry.setTags actor' connectionId tags).entry actor id = some entry at hentry
      rw [SocketRegistry.setTags, SocketRegistry.entry_modify] at hentry
      change (if actor = actor' ∧ id = connectionId then _ else latest actor id moves) = _
      split_ifs at hentry ⊢
      · obtain ⟨old, hold, rfl⟩ := Option.map_eq_some_iff.mp hentry
        rw [h actor id old hold]
        rfl
      · exact h actor id entry hentry
    | activate actor' connectionId =>
      change (s.world.registry.activate actor' connectionId).entry actor id = some entry at hentry
      rw [SocketRegistry.activate, SocketRegistry.entry_modify] at hentry
      split_ifs at hentry
      · obtain ⟨old, hold, rfl⟩ := Option.map_eq_some_iff.mp hentry
        exact h actor id old hold
      · exact h actor id entry hentry
    | select => cases r <;> exact h actor id entry hentry
    | _ => exact h actor id entry hentry
  | _ => exact h actor id entry hentry

/-- The registry holds what was last set. -/
theorem latest_of_run (hrun : (gatewaySystem serde).Run moves s) : ∀ actor id entry,
    s.world.registry.entry actor id = some entry → latest actor id moves = some entry.connection := by
  obtain ⟨s₀, rfl, hp⟩ := hrun
  induction hp with
  | nil =>
    intro actor id entry hentry
    cases hentry
  | snoc _ hs ih => exact latest_step ih hs

theorem sized_step {e : GatewayMove} (h : s.world.registry.Sized) (hs : GatewayStep serde s e s') :
    s'.world.registry.Sized := by
  cases hs with
  | @call t task op next r ht ha =>
    cases op with
    | insert actor connection outbound triggerId => exact SocketRegistry.sized_insert h _ _ _
    | remove actor connectionId => exact SocketRegistry.sized_remove h _
    | setMetadata actor connectionId metadata => exact SocketRegistry.sized_modify h _ _
    | setTags actor connectionId tags => exact SocketRegistry.sized_modify h _ _
    | activate actor connectionId => exact SocketRegistry.sized_modify h _ _
    | select => cases r <;> exact h
    | _ => exact h
  | _ => exact h

theorem sized_reachable (hs : (gatewaySystem serde).Reachable s) : s.world.registry.Sized := by
  refine hs.invariant (I := fun s => s.world.registry.Sized) ?_ sized_step
  rintro s rfl actor connections h
  cases h

/-! ### A call and the run it is in -/

/-- A call in the trace of a task is a move of the run. -/
theorem passes_of_trace (hrun : (gatewaySystem serde).Run moves s) {before after : List GatewayEvent}
    {e : GatewayEvent} (heq : s.world.trace t = before ++ e :: after) :
    ∃ earlier s₁, (gatewaySystem serde).Passes moves s earlier s₁ (.call t e) ∧ s₁.world.trace t = before := by
  obtain ⟨s₀, rfl, hp⟩ := hrun
  induction hp generalizing after with
  | nil => simp [GatewayWorld.empty] at heq
  | @snoc s₁ s₂ evs e' hpath hs ih =>
    have hold : s₁.world.trace t = before ++ e :: after →
        ∃ earlier s', (gatewaySystem serde).Passes (evs ++ [e']) s₂
        earlier s' (.call t e) ∧ s'.world.trace t = before := by
      intro heq
      obtain ⟨earlier, s', hpass, htrace⟩ := ih heq
      exact ⟨earlier, s', hpass.snoc hs, htrace⟩
    cases hs with
    | @call j task op next r ht ha =>
      change (s₁.answered j task op r next).world.trace t = _ at heq
      by_cases hj : t = j
      · subst hj
        rw [trace_answered] at heq
        rcases List.eq_nil_or_concat after with rfl | ⟨after', e'', rfl⟩
        · obtain ⟨htrace, heq'⟩ := List.append_inj' heq rfl
          cases List.singleton_inj.mp heq'
          exact ⟨evs, s₁, ⟨[], rfl, ⟨_, rfl, hpath⟩, .single (.call ht ha)⟩, htrace⟩
        · rw [List.concat_eq_append, ← List.cons_append, ← List.append_assoc] at heq
          obtain ⟨earlier, s', hpass, htrace⟩ := ih (List.append_inj' heq rfl).1
          exact ⟨earlier, s', hpass.snoc (GatewayStep.call ht ha), htrace⟩
      · rw [trace_answered_ne hj] at heq
        exact hold heq
    | _ => exact hold heq

/-- What a move of a run tells about the state it is made in. -/
theorem call_of_passes {earlier : List GatewayMove} {s₁ : GatewayState} {op : GatewayOp} {r : op.Res}
    (h : (gatewaySystem serde).Passes moves s earlier s₁ (.call t ⟨op, r⟩)) :
    (∃ task next, s₁.tasks t = some (task, .call op next)) ∧ s₁.world.Allows t op r := by
  obtain ⟨s₂, hs⟩ := h.step
  cases hs with
  | call ht ha => exact ⟨⟨_, _, ht⟩, ha⟩

/-! ### Who is listed -/

/-- Task `t` has begun its disconnect event. -/
def Begun (tr : List GatewayEvent) : Prop := ∃ actor id removed, ⟨.remove actor id, removed⟩ ∈ tr

section History

variable (hhist : ∀ before e later, tr = before ++ e :: later → MemberOk t access before e.op)
include hhist

/-- Whoever is inside has not begun to leave. -/
theorem not_begun (h : ∀ connection, membership tr ≠ .gone connection) : ¬ Begun tr := by
  induction tr using List.reverseRecOn with
  | nil =>
    rintro ⟨actor, id, removed, hm⟩
    cases hm
  | append_singleton tr e ih =>
    have ih' := ih fun before e' later heq => hhist before e' (later ++ [e]) (by rw [heq]; simp)
    have hok : MemberOk t access tr e.op := hhist tr e [] rfl
    rw [membership_snoc] at h
    -- who is gone stays gone
    have hbefore : ∀ connection, membership tr ≠ .gone connection := by
      intro connection hm
      rw [hm] at h
      obtain ⟨op, r⟩ := e
      exact h connection (by cases op <;> rfl)
    rintro ⟨actor, id, removed, hm⟩
    rcases List.mem_append.mp hm with hm | hm
    · exact ih' hbefore ⟨actor, id, removed, hm⟩
    · obtain rfl := List.mem_singleton.mp hm
      obtain ⟨-, connection, -, ⟨isOpen, hin⟩ | hin⟩ := hok
      · rw [hin] at h
        exact h connection rfl
      · exact hbefore connection hin

/-- Whoever is open was opened. -/
theorem activated_of_inside {connection : ActorSocketConnection}
    (h : membership tr = .inside connection true) :
    ∃ actor, ⟨.activate actor connection.id, ()⟩ ∈ tr := by
  induction tr using List.reverseRecOn with
  | nil => cases h
  | append_singleton tr e ih =>
    have ih' := ih fun before e' later heq => hhist before e' (later ++ [e]) (by rw [heq]; simp)
    have hok : MemberOk t access tr e.op := hhist tr e [] rfl
    have hold : membership tr = .inside connection true →
        ∃ actor, ⟨.activate actor connection.id, ()⟩ ∈ tr ++ [e] := by
      intro hm
      obtain ⟨actor, hmem⟩ := ih' hm
      exact ⟨actor, List.mem_append_left _ hmem⟩
    rw [membership_snoc] at h
    obtain ⟨op, r⟩ := e
    cases op with
    | activate actor id =>
      obtain ⟨-, c, rfl, hin⟩ := hok
      rw [hin] at h
      cases h
      exact ⟨actor, by simp⟩
    | insert actor c outbound triggerId =>
      obtain ⟨-, -, -, hout⟩ := hok
      rw [hout] at h
      cases r <;> cases h
    | remove actor id =>
      obtain ⟨-, c, -, ⟨isOpen, hin⟩ | hin⟩ := hok
      · rw [hin] at h
        cases h
      · rw [hin] at h
        cases h
    | _ => exact hold (by rwa [Membership.next_steady _ (by trivial)] at h)

theorem not_outside {actor : ActorKey} {x : ActorSocketConnection} {outbound : ℕ} {triggerId : Option String}
    (hm : ⟨.insert actor x outbound triggerId, true⟩ ∈ tr) : membership tr ≠ .outside := by
  induction tr using List.reverseRecOn with
  | nil => cases hm
  | append_singleton tr e ih =>
    have ih' := ih fun before e' later heq => hhist before e' (later ++ [e]) (by rw [heq]; simp)
    have hok : MemberOk t access tr e.op := hhist tr e [] rfl
    rw [membership_snoc]
    rcases List.mem_append.mp hm with hm | hm
    · have hbefore := ih' hm
      obtain ⟨op, r⟩ := e
      cases hmem : membership tr with
      | outside => exact (hbefore hmem).elim
      | inside c o => cases op <;> exact fun h => by cases h
      | gone c => cases op <;> exact fun h => by cases h
    · obtain rfl := List.mem_singleton.mp hm
      obtain ⟨-, -, -, hout⟩ := hok
      rw [hout]
      exact fun h => by cases h

/-- A task files one connection. -/
theorem inserted_eq {actor : ActorKey} {x connection : ActorSocketConnection} {outbound : ℕ}
    {triggerId : Option String} {isOpen : Bool} (hm : ⟨.insert actor x outbound triggerId, true⟩ ∈ tr)
    (h : membership tr = .inside connection isOpen) : x = connection := by
  induction tr using List.reverseRecOn generalizing isOpen with
  | nil => cases hm
  | append_singleton tr e ih =>
    have ih' : ∀ o, _ → _ → x = connection := fun o => @ih
      (fun before e' later heq => hhist before e' (later ++ [e]) (by rw [heq]; simp)) o
    have hok : MemberOk t access tr e.op := hhist tr e [] rfl
    rw [membership_snoc] at h
    rcases List.mem_append.mp hm with hm | hm
    · cases hbefore : membership tr with
      | outside =>
        -- who has filed a connection is no longer outside
        exact (not_outside (fun before e' later heq => hhist before e' (later ++ [e]) (by rw [heq]; simp)) hm hbefore).elim
      | inside c o =>
        rw [hbefore] at h
        have hc : c = connection := by
          obtain ⟨op, r⟩ := e
          cases op <;> first | (cases h; rfl) | cases h
        rw [hc] at hbefore
        exact ih' o hm hbefore
      | gone c =>
        rw [hbefore] at h
        obtain ⟨op, r⟩ := e
        cases op <;> cases h
    · obtain rfl := List.mem_singleton.mp hm
      obtain ⟨-, -, -, hout⟩ := hok
      rw [hout] at h
      cases h
      rfl

end History

/-- A catalog of `actor` read in state `s`, when `moves` were made: it lists every connection that is open, as it was last set. -/
structure CatalogOf (moves : List GatewayMove) (s : GatewayState) (actor : ActorKey)
    (connections : List ActorSocketConnection) : Prop where
  nodup : (connections.map (·.id)).Nodup
  /-- A listed connection was connected, and its task has not begun its disconnect event. -/
  listed : ∀ connection ∈ connections, ∃ t, Drew (s.world.trace t) connection.id ∧
    Connected (s.world.trace t) connection.id ∧ ¬ Begun (s.world.trace t)
  latest : ∀ connection ∈ connections, latest actor connection.id moves = some connection

theorem entry_of_seat {registry : SocketRegistry} {actor : ActorKey} {id : String} {isOpen : Bool}
    (h : registry.seat actor id = some (t, isOpen)) :
    ∃ entry, registry.entry actor id = some entry ∧ entry.outbound = t ∧ entry.isOpen = isOpen := by
  obtain ⟨entry, hentry, heq⟩ := Option.map_eq_some_iff.mp h
  cases heq
  exact ⟨entry, hentry, rfl, rfl⟩

theorem seat_of_entry {registry : SocketRegistry} {actor : ActorKey} {id : String} {entry : RegisteredSocket}
    (h : registry.entry actor id = some entry) :
    registry.seat actor id = some (entry.outbound, entry.isOpen) := by
  simp [SocketRegistry.seat, h]

theorem catalogOf_read (hrun : (gatewaySystem serde).Run moves s) {actor : ActorKey}
    {connections : List ActorSocketConnection} (hread : connections.Perm (s.world.registry.connections actor)) :
    CatalogOf moves s actor connections := by
  have hreach : (gatewaySystem serde).Reachable s := ⟨moves, hrun⟩
  have hok := gatewayOk_reachable hreach
  have hseats := seatsOk_reachable hreach
  refine ⟨?_, fun connection hm => ?_, fun connection hm => ?_⟩
  · refine (hread.map _).nodup_iff.mpr ?_
    have hvalues : ((s.world.registry.values actor).map fun entry => entry.connection.id).Nodup := by
      refine SocketRegistry.nodup_values fun hentry hentry' heq => ?_
      rw [← (hok.entries actor _ _ hentry).key, ← (hok.entries actor _ _ hentry').key, heq]
    rw [SocketRegistry.connections, List.map_map]
    exact hvalues.sublist (List.filter_sublist.map _)
  · obtain ⟨id, entry, hentry, hopen, rfl⟩ := SocketRegistry.mem_connections.mp (hread.mem_iff.mp hm)
    obtain ⟨access, stage, p, c, ht, hactor, rfl, hin⟩ := hseats.seats actor id _ _ (seat_of_entry hentry)
    rw [(hok.entries actor c.id entry hentry).key]
    have hhist := hseats.history entry.outbound access stage p ht
    refine ⟨entry.outbound, hseats.drew ht (.inl ⟨_, hin⟩), ?_, not_begun hhist fun connection hgone => ?_⟩
    · rw [hopen] at hin
      obtain ⟨actor', hact⟩ := activated_of_inside hhist hin
      obtain ⟨before, later, heq⟩ := List.append_of_mem hact
      have hcall := hok.history entry.outbound before _ later heq
      refine hcall.2.mono ?_
      rw [heq]
      exact List.subset_append_left _ _
    · cases hin.symm.trans hgone
  · obtain ⟨id, entry, hentry, -, rfl⟩ := SocketRegistry.mem_connections.mp (hread.mem_iff.mp hm)
    rw [(hok.entries actor id entry hentry).key]
    exact latest_of_run hrun actor id entry hentry

/-! ### A connection that nobody has set anything on -/

/-- A move that sets the metadata or the tags of a connection. -/
def Sets (actor : ActorKey) (id : String) : GatewayMove → Prop
  | .call _ ⟨.setMetadata actor' id' _, _⟩ => actor = actor' ∧ id = id'
  | .call _ ⟨.setTags actor' id' _, _⟩ => actor = actor' ∧ id = id'
  | _ => False

theorem latest_of_unset {actor : ActorKey} {id : String} {connection : ActorSocketConnection}
    (hunset : ∀ move ∈ moves, ¬ Sets actor id move) (h : latest actor id moves = some connection) :
    ∃ t outbound triggerId, .call t ⟨.insert actor connection outbound triggerId, true⟩ ∈ moves ∧
    id = connection.id := by
  induction moves using List.reverseRecOn with
  | nil => cases h
  | append_singleton moves move ih =>
    have hold : latest actor id moves = some connection → ∃ t outbound triggerId,
        .call t ⟨.insert actor connection outbound triggerId, true⟩ ∈ moves ++ [move] ∧ id = connection.id := by
      intro h
      obtain ⟨t, outbound, triggerId, hm, hid⟩ := ih (fun move' hm => hunset move' (by simp [hm])) h
      exact ⟨t, outbound, triggerId, List.mem_append_left _ hm, hid⟩
    have hnot := hunset move (by simp)
    rw [latest_snoc] at h
    unfold latestOf at h
    split at h
    · rename_i t actor' connection' outbound triggerId
      split_ifs at h with hkey
      · cases h
        obtain ⟨rfl, rfl⟩ := hkey
        exact ⟨t, outbound, triggerId, by simp, rfl⟩
      · exact hold h
    · split_ifs at h with hkey
      · exact (hnot hkey).elim
      · exact hold h
    · split_ifs at h with hkey
      · exact (hnot hkey).elim
      · exact hold h
    · exact hold h

theorem mem_trace_of_move (hrun : (gatewaySystem serde).Run moves s) {e : GatewayEvent}
    (hm : .call t e ∈ moves) :
    e ∈ s.world.trace t := by
  obtain ⟨s₀, rfl, hp⟩ := hrun
  induction hp with
  | nil => cases hm
  | @snoc s₁ s₂ evs e' hpath hs ih =>
    cases hs with
    | @call j task op next r ht ha =>
      change e ∈ (s₁.answered j task op r next).world.trace t
      rcases List.mem_append.mp hm with hm | hm
      · exact trace_subset s₁ j task op r next t (ih hm)
      · cases List.mem_singleton.mp hm
        rw [trace_answered]
        simp
    | _ =>
      rcases List.mem_append.mp hm with hm | hm
      · exact ih hm
      · cases List.mem_singleton.mp hm

/-- A connection that is inside, and that nobody has set anything on, is as it was filed. -/
theorem latest_of_inside (hrun : (gatewaySystem serde).Run moves s) {stage : Stage} {p : GatewayM Stage}
    {connection : ActorSocketConnection} {isOpen : Bool} (ht : s.tasks t = some (.connection access stage, p))
    (hin : membership (s.world.trace t) = .inside connection isOpen)
    (hunset : ∀ move ∈ moves, ¬ Sets access.actor connection.id move) :
    latest access.actor connection.id moves = some connection := by
  have hreach : (gatewaySystem serde).Reachable s := ⟨moves, hrun⟩
  have hok := gatewayOk_reachable hreach
  have hseats := seatsOk_reachable hreach
  obtain ⟨entry, hentry, -, -⟩ := entry_of_seat (hseats.inside t access stage p connection isOpen ht hin)
  have hlatest := latest_of_run hrun _ _ entry hentry
  obtain ⟨j, outbound, triggerId, hmove, hid⟩ := latest_of_unset hunset hlatest
  have hmem := mem_trace_of_move hrun hmove
  obtain ⟨before, later, heq⟩ := List.append_of_mem hmem
  have hdrew : Drew (s.world.trace j) connection.id := by
    rw [hid]
    refine Drew.mono ?_ (hok.history j before _ later heq).2
    rw [heq]
    exact List.subset_append_left _ _
  obtain rfl := hok.drew_inj hdrew (hseats.drew ht (.inl ⟨_, hin⟩))
  rw [hlatest, inserted_eq (hseats.history j access stage p ht) hmem hin]

/-! ### The catalog of an event -/

/-- What an event carries of a catalog that was read when `moves` were made. A connection that arrives is as it was
filed: nobody has been told its identifier yet. -/
def Carries (moves : List GatewayMove) (invocation : ActorSocketInvocation)
    (connections : List ActorSocketConnection) :
    Prop :=
  match invocation.event with
  | .connect connection => invocation.connections = connections ++ [connection] ∧
      connection.id ∉ connections.map (·.id) ∧
      ((∀ move ∈ moves, ¬ Sets invocation.actor connection.id move) →
        latest invocation.actor connection.id moves = some connection)
  | .message connectionId _ => invocation.connections = connections ∧ connectionId ∈ connections.map (·.id)
  | .disconnect connection .. => invocation.connections = connections ∧ connection.id ∉ connections.map (·.id)

/-- Only the connection's own task is listed under its identifier. -/
theorem open_of_listed (hok : GatewayOk s) (hseats : SeatsOk s) {actor : ActorKey} {id : String}
    {connections : List ActorSocketConnection} (hread : connections.Perm (s.world.registry.connections actor))
    (hdrew : Drew (s.world.trace t) id) (hm : id ∈ connections.map (·.id)) :
    ∃ connection, connection.id = id ∧ membership (s.world.trace t) = .inside connection true := by
  obtain ⟨listed, hl, rfl⟩ := List.mem_map.mp hm
  obtain ⟨id, entry, hentry, hopen, rfl⟩ := SocketRegistry.mem_connections.mp (hread.mem_iff.mp hl)
  obtain ⟨access', stage', p', c, ht', hactor, rfl, hin⟩ := hseats.seats actor id _ _ (seat_of_entry hentry)
  rw [(hok.entries actor c.id entry hentry).key] at hdrew ⊢
  have hself : entry.outbound = t := hok.drew_inj (hseats.drew ht' (.inl ⟨_, hin⟩)) hdrew
  rw [hself, hopen] at hin
  exact ⟨c, rfl, hin⟩

/-- An event is sent by a connection, after its catalog was made. -/
theorem catalogue_of_sent (hreach : (gatewaySystem serde).Reachable s) {invocation : ActorSocketInvocation}
    (hs : s.Sent t invocation) : ∃ before later, s.world.trace t = before ++ later ∧
    Catalogue before invocation := by
  have hok := gatewayOk_reachable hreach
  have hseats := seatsOk_reachable hreach
  rcases hs with ⟨target, r, hm⟩ | ⟨task, target, next, ht⟩
  · obtain ⟨before, later, heq⟩ := List.append_of_mem hm
    cases htask : s.tasks t with
    | none =>
      rw [hok.unused t htask] at heq
      simp at heq
    | some task =>
      obtain ⟨task, p⟩ := task
      cases task with
      | applyEffects actor effects =>
        rcases ((hok.posts t actor effects p htask).2).new hm with hm | hop
        · cases hm
        · exact hop.elim
      | connection access stage => exact ⟨before, _, heq, (hseats.history t access stage p htask before _ later heq).2⟩
  · cases task with
    | applyEffects actor effects => exact (hok.posts t actor effects _ ht).1.1.elim
    | connection access stage =>
      exact ⟨s.world.trace t, [], by simp, (hseats.tasks t access stage _ ht).1.2⟩

/-- A state in which task `t` of a connection to `actor` reads a catalog. -/
structure Reading (moves : List GatewayMove) (s : GatewayState) (t : ℕ) (access : SocketAccess)
    (stage : Stage) (p : GatewayM Stage) (connections : List ActorSocketConnection) : Prop where
  catalog : CatalogOf moves s access.actor connections
  ok : GatewayOk s
  seats : SeatsOk s
  task : s.tasks t = some (.connection access stage, p)
  perm : connections.Perm (s.world.registry.connections access.actor)

theorem reading_of_trace (hrun : (gatewaySystem serde).Run moves s) {actor : ActorKey}
    {before after : List GatewayEvent} {connections : List ActorSocketConnection}
    (heq : s.world.trace t = before ++ ⟨.connections actor, connections⟩ :: after) :
    ∃ earlier s₁ access stage p,
      (gatewaySystem serde).Passes moves s earlier s₁ (.call t ⟨.connections actor, connections⟩) ∧
      s₁.world.trace t = before ∧ access.actor = actor ∧ Reading earlier s₁ t access stage p connections := by
  obtain ⟨earlier, s₁, hpass, htrace⟩ := passes_of_trace hrun heq
  obtain ⟨⟨task, next, ht⟩, ha⟩ := call_of_passes hpass
  have hok₁ := gatewayOk_reachable hpass.reachable
  have hseats₁ := seatsOk_reachable hpass.reachable
  obtain ⟨_, -, hrun₁, -⟩ := id hpass
  cases task with
  | applyEffects actor' effects => exact (hok₁.posts t actor' effects _ ht).1.1.elim
  | connection access stage =>
    obtain rfl : actor = access.actor := (hseats₁.tasks t access stage _ ht).1
    exact ⟨earlier, s₁, access, stage, _, hpass, htrace, rfl, catalogOf_read hrun₁ ha, hok₁, hseats₁, ht, ha⟩

/-- Every sent event carries a catalog that was read when the run passed through some state. -/
theorem catalog_of_sent (hrun : (gatewaySystem serde).Run moves s) {invocation : ActorSocketInvocation}
    (hs : s.Sent t invocation) : ∃ earlier s₁ connections, (gatewaySystem serde).Passes moves s earlier s₁
      (.call t ⟨.connections invocation.actor, connections⟩) ∧
      CatalogOf earlier s₁ invocation.actor connections ∧ Carries earlier invocation connections := by
  obtain ⟨before, later, hsplit, hcat⟩ := catalogue_of_sent ⟨moves, hrun⟩ hs
  unfold Catalogue at hcat
  split at hcat
  · rename_i connection hevent
    obtain ⟨before₁, after₁, connections, rfl, hin, hconn⟩ := hcat
    rw [List.append_assoc, List.cons_append] at hsplit
    obtain ⟨earlier, s₁, access, stage, p, hpass, rfl, hactor, hr⟩ := reading_of_trace hrun hsplit
    refine ⟨earlier, s₁, connections, hpass, hactor ▸ hr.catalog, ?_⟩
    rw [Carries, hevent]
    refine ⟨hconn, fun hm => ?_, ?_⟩
    · -- its own entry is not open yet
      obtain ⟨c, -, hin'⟩ := open_of_listed hr.ok hr.seats hr.perm (hr.seats.drew hr.task (.inl ⟨_, hin⟩)) hm
      cases hin.symm.trans hin'
    · obtain ⟨_, -, hrun₁, -⟩ := id hpass
      rw [← hactor]
      exact latest_of_inside hrun₁ hr.task hin
  · rename_i connectionId message hevent
    obtain ⟨before₁, after₁, connections, connection, rfl, hin, rfl, hconn⟩ := hcat
    rw [List.append_assoc, List.cons_append] at hsplit
    obtain ⟨earlier, s₁, access, stage, p, hpass, rfl, hactor, hr⟩ := reading_of_trace hrun hsplit
    refine ⟨earlier, s₁, connections, hpass, hactor ▸ hr.catalog, ?_⟩
    rw [Carries, hevent]
    refine ⟨hconn, ?_⟩
    obtain ⟨entry, hentry, -, hopen⟩ := entry_of_seat (hr.seats.inside t access stage p connection true hr.task hin)
    refine List.mem_map.mpr ⟨entry.connection, hr.perm.mem_iff.mpr ?_, (hr.ok.entries _ _ entry hentry).key⟩
    exact SocketRegistry.mem_connections.mpr ⟨connection.id, entry, hentry, hopen, rfl⟩
  · rename_i leaving code reason wasClean hevent
    obtain ⟨before₁, after₁, connections, connection, rfl, hin, hid, hconn⟩ := hcat
    have hsplit' : s.world.trace t = (before₁ ++ [⟨.remove invocation.actor connection.id, some leaving⟩]) ++
        ⟨.connections invocation.actor, connections⟩ :: (after₁ ++ later) := by
      rw [hsplit]
      simp
    obtain ⟨earlier, s₁, access, stage, p, hpass, htrace, hactor, hr⟩ := reading_of_trace hrun hsplit'
    have hgone : membership (s₁.world.trace t) = .gone connection := by
      rw [htrace, membership_snoc, hin]
      rfl
    refine ⟨earlier, s₁, connections, hpass, hactor ▸ hr.catalog, ?_⟩
    rw [Carries, hevent]
    refine ⟨hconn, fun hm => ?_⟩
    rw [hid] at hm
    obtain ⟨c, -, hin'⟩ := open_of_listed hr.ok hr.seats hr.perm (hr.seats.drew hr.task (.inr hgone)) hm
    cases hgone.symm.trans hin'

/-- A disconnect event carries its connection as it was when it was struck out. -/
theorem leaving_of_sent (hrun : (gatewaySystem serde).Run moves s) {invocation : ActorSocketInvocation}
    (hs : s.Sent t invocation) {connection : ActorSocketConnection} {code : ℕ} {reason : String}
    {wasClean : Bool}
    (hevent : invocation.event = .disconnect connection code reason wasClean) : ∃ earlier s₁,
      (gatewaySystem serde).Passes moves s earlier s₁ (.call t ⟨.remove invocation.actor connection.id, some connection⟩) ∧
      latest invocation.actor connection.id earlier = some connection := by
  obtain ⟨before, later, hsplit, hcat⟩ := catalogue_of_sent ⟨moves, hrun⟩ hs
  unfold Catalogue at hcat
  simp only [hevent] at hcat
  obtain ⟨before₁, after₁, connections, c, rfl, -, hid, -⟩ := hcat
  rw [List.append_assoc, List.cons_append, ← hid] at hsplit
  obtain ⟨earlier, s₁, hpass, -⟩ := passes_of_trace hrun hsplit
  obtain ⟨-, ha⟩ := call_of_passes hpass
  have hremoved : some connection = (s₁.world.registry.remove invocation.actor connection.id).1 := ha
  rw [SocketRegistry.removed_eq] at hremoved
  obtain ⟨entry, hentry, rfl⟩ := Option.map_eq_some_iff.mp hremoved.symm
  obtain ⟨_, -, hrun₁, -⟩ := id hpass
  exact ⟨earlier, s₁, hpass, latest_of_run hrun₁ _ _ entry hentry⟩

/-! ### Broadcasts -/

/-- The channels a broadcast is meant for. -/
structure MeantFor (s : GatewayState) (actor : ActorKey) (exceptConnectionIds tags : List String)
    (recipients : List ℕ) : Prop where
  nodup : recipients.Nodup
  mem : ∀ channel, channel ∈ recipients ↔ ∃ id entry, s.world.registry.entry actor id = some entry ∧
    entry.isOpen = true ∧ id ∉ exceptConnectionIds ∧ (∀ tag ∈ tags, tag ∈ entry.connection.tags) ∧
    entry.outbound = channel

theorem meantFor_of_allows (hreach : (gatewaySystem serde).Reachable s) {actor : ActorKey}
    {exceptConnectionIds tags : List String} {recipients : List ℕ}
    (ha : s.world.Allows t (.recipients actor exceptConnectionIds tags) recipients) :
    MeantFor s actor exceptConnectionIds tags recipients := by
  have hok := gatewayOk_reachable hreach
  have hseats := seatsOk_reachable hreach
  have hperm : recipients.Perm (s.world.registry.recipients actor exceptConnectionIds tags) := ha
  refine ⟨hperm.nodup_iff.mpr ?_, fun channel => ?_⟩
  · have hvalues : ((s.world.registry.values actor).map (·.outbound)).Nodup := by
      refine SocketRegistry.nodup_values fun hentry hentry' heq => ?_
      -- a task has one connection
      obtain ⟨access, stage, p, c, ht, -, rfl, hin⟩ := hseats.seats actor _ _ _ (seat_of_entry hentry)
      obtain ⟨access', stage', p', c', ht', -, rfl, hin'⟩ := hseats.seats actor _ _ _ (seat_of_entry hentry')
      rw [heq] at hin
      rw [(Membership.inside.inj (hin.symm.trans hin')).1]
    exact hvalues.sublist (List.filter_sublist.map _)
  · rw [hperm.mem_iff, SocketRegistry.mem_recipients]
    refine exists_congr fun id => exists_congr fun entry => and_congr_right fun hentry => ?_
    rw [RegisteredSocket.receives, (hok.entries actor id entry hentry).key]
    simp [and_assoc]

/-! ### The whole -/

/-- A task that is not in the middle of a broadcast. -/
def AtRest (p : GatewayM Stage) : Prop :=
  ∀ channel message next, p ≠ .call (.sendBroadcast channel message) next

structure CatalogExact (serde : SerdeJson) (moves : List GatewayMove) (s : GatewayState) : Prop where
  /-- Every actor in the registry has between 1 and 128 connections. -/
  sizes : ∀ actor connections, s.world.registry.entries actor = some connections →
    1 ≤ connections.entries.length ∧ connections.entries.length ≤ 128
  /-- Every event was sent with a catalog that was exact when it was read. -/
  catalogs : ∀ t invocation, s.Sent t invocation → ∃ earlier s₁ connections,
    (gatewaySystem serde).Passes moves s earlier s₁ (.call t ⟨.connections invocation.actor, connections⟩) ∧
    CatalogOf earlier s₁ invocation.actor connections ∧ Carries earlier invocation connections
  /-- Whoever leaves does so as it was last set. -/
  leaving : ∀ t invocation connection code reason wasClean, s.Sent t invocation →
    invocation.event = .disconnect connection code reason wasClean → ∃ earlier s₁,
    (gatewaySystem serde).Passes moves s earlier s₁ (.call t ⟨.remove invocation.actor connection.id, some connection⟩) ∧
    latest invocation.actor connection.id earlier = some connection
  /-- The recipients of a broadcast are those that are open and meant. -/
  meant : ∀ earlier s₁ t actor exceptConnectionIds tags recipients,
    (gatewaySystem serde).Passes moves s earlier s₁ (.call t ⟨.recipients actor exceptConnectionIds tags, recipients⟩) →
    MeantFor s₁ actor exceptConnectionIds tags recipients
  /-- The message of a broadcast is sent to each of its recipients. -/
  reached : ∀ t task p, s.tasks t = some (task, p) → AtRest p → Whole task.handed (s.world.trace t)
  /-- It is sent to nobody else. -/
  only : ∀ t task p before channel message later, s.tasks t = some (task, p) →
    s.world.trace t = before ++ ⟨.sendBroadcast channel message, ()⟩ :: later →
    ∃ m rest, message = .message m ∧ Owes task.handed before m (channel :: rest)
  /-- Nothing is left of a connection that has ended. -/
  ended : ∀ t, s.Ended t → ∀ actor id entry, s.world.registry.entry actor id = some entry → entry.outbound ≠ t

/-- A client is let in and speaks. -/
def spoke : List Command :=
  arrives 0 "connection-1" "request-1" ++ handled 0 [.setTags "connection-1" ["member"]] ++ goes 0 2 ++ [.proceed 0] ++
    [selects 0 (.inbound (some (.ok (.text "hi"))))] ++ goes 0 1 ++ [draws 0 "request-2"] ++ goes 0 3

end LDO
