import Mathlib.Data.List.Induction
import DurableObjects.Sanity.Membership

/-! The registry and the tasks agree on who is in it: an entry is there if and only if the
task that receives from it is inside, and it is open if and only if that task has opened
it. -/

namespace LDO

open Prog Gateway

variable {serde : SerdeJson} {s s' : GatewayState} {t : ℕ} {access : SocketAccess} {tr : List GatewayEvent}

/-- The task that receives from the entry of a connection, and whether it is open. -/
def SocketRegistry.seat (registry : SocketRegistry) (actor : ActorKey) (id : String) : Option (ℕ × Bool) :=
  (registry.entry actor id).map fun entry => (entry.outbound, entry.isOpen)

structure SeatsOk (s : GatewayState) : Prop where
  tasks : ∀ t access stage p, s.tasks t = some (.connection access stage, p) →
    wp (memberEnv t access) p (fun stage' tr => MemberEnd tr stage') (s.world.trace t)
  history : ∀ t access stage p, s.tasks t = some (.connection access stage, p) → ∀ before e later,
    s.world.trace t = before ++ e :: later → MemberOk t access before e.op
  inside : ∀ t access stage p connection isOpen, s.tasks t = some (.connection access stage, p) →
    membership (s.world.trace t) = .inside connection isOpen →
    s.world.registry.seat access.actor connection.id = some (t, isOpen)
  seats : ∀ actor id t isOpen, s.world.registry.seat actor id = some (t, isOpen) →
    ∃ access stage p connection, s.tasks t = some (.connection access stage, p) ∧ access.actor = actor ∧
      connection.id = id ∧ membership (s.world.trace t) = .inside connection isOpen

/-- A connection in the registry, or struck out of it, is filed under an identifier its task has drawn. -/
theorem drew_of_membership {connection : ActorSocketConnection}
    (hhist : ∀ before e later, tr = before ++ e :: later → MemberOk t access before e.op)
    (h : (∃ isOpen, membership tr = .inside connection isOpen) ∨ membership tr = .gone connection) :
    Drew tr connection.id := by
  induction tr using List.reverseRecOn with
  | nil =>
    rcases h with ⟨isOpen, h⟩ | h
    · cases h
    · cases h
  | append_singleton tr e ih =>
    have hsub : tr ⊆ tr ++ [e] := List.subset_append_left _ _
    have ih' := fun h => (ih (fun before e' later heq => hhist before e' (later ++ [e]) (by rw [heq]; simp)) h).mono hsub
    have hok : MemberOk t access tr e.op := hhist tr e [] rfl
    rw [membership_snoc] at h
    obtain ⟨op, r⟩ := e
    cases hm : membership tr with
    | outside =>
      rw [hm] at h
      cases op with
      | insert actor c outbound triggerId =>
        cases r with
        | false => rcases h with ⟨isOpen, h⟩ | h <;> cases h
        | true =>
          rcases h with ⟨isOpen, h⟩ | h
          · cases h
            exact Drew.mono hsub hok.2.2.1
          · cases h
      | _ => rcases h with ⟨isOpen, h⟩ | h <;> cases h
    | inside c o =>
      have hc : c = connection := by
        rw [hm] at h
        cases op <;> (rcases h with ⟨isOpen, h⟩ | h) <;> first | (cases h; rfl) | cases h
      exact ih' (.inl ⟨o, by rw [hm, hc]⟩)
    | gone c =>
      have hc : c = connection := by
        rw [hm] at h
        cases op <;> (rcases h with ⟨isOpen, h⟩ | h) <;> first | (cases h; rfl) | cases h
      exact ih' (.inr (by rw [hm, hc]))

/-! ### One call -/

section Call

variable {task : GatewayTask} {op : GatewayOp} {next : op.Res → GatewayM Stage} {r : op.Res}

theorem membership_answered (s : GatewayState) (t : ℕ) (task : GatewayTask) (op : GatewayOp) (r : op.Res)
    (next : op.Res → GatewayM Stage) : membership ((s.answered t task op r next).world.trace t) =
      (membership (s.world.trace t)).next ⟨op, r⟩ := by
  rw [trace_answered, membership_snoc]

theorem seat_modify (registry : SocketRegistry) (actor a : ActorKey) (connectionId id : String)
    {f : RegisteredSocket → RegisteredSocket} (hf : ∀ entry, (f entry).outbound = entry.outbound ∧
      (f entry).isOpen = entry.isOpen) : (registry.modify actor connectionId f).seat a id = registry.seat a id := by
  unfold SocketRegistry.seat
  rw [SocketRegistry.entry_modify]
  split_ifs
  · rw [Option.map_map]
    refine Option.map_congr fun entry _ => ?_
    simp [hf entry]
  · rfl

/-- A steady call leaves every connection in its seat. -/
theorem seat_steady (hop : Steady op) (actor : ActorKey) (id : String) :
    (s.answered t task op r next).world.registry.seat actor id = s.world.registry.seat actor id := by
  cases op with
  | insert => exact hop.elim
  | activate => exact hop.elim
  | remove => exact hop.elim
  | setMetadata actor' connectionId metadata => exact seat_modify _ _ _ _ _ fun _ => ⟨rfl, rfl⟩
  | setTags actor' connectionId tags => exact seat_modify _ _ _ _ _ fun _ => ⟨rfl, rfl⟩
  | select => cases r <;> rfl
  | _ => rfl

theorem seat_insert {actor : ActorKey} {connection : ActorSocketConnection} {outbound : ℕ}
    {triggerId : Option String} {registry : SocketRegistry}
    (h : (registry.insert actor connection outbound triggerId).1 = true) (a : ActorKey)
    (id : String) : (registry.insert actor connection outbound triggerId).2.seat a id =
      if a = actor ∧ id = connection.id then some (outbound, false) else registry.seat a id := by
  unfold SocketRegistry.seat
  rw [SocketRegistry.entry_insert h]
  split_ifs <;> rfl

theorem seat_insert_full {actor : ActorKey} {connection : ActorSocketConnection} {outbound : ℕ}
    {triggerId : Option String} {registry : SocketRegistry}
    (h : (registry.insert actor connection outbound triggerId).1 = false) (a : ActorKey) (id : String) :
    (registry.insert actor connection outbound triggerId).2.seat a id = registry.seat a id := by
  unfold SocketRegistry.seat
  rw [SocketRegistry.entry_insert_full h]

theorem seat_remove (registry : SocketRegistry) (actor a : ActorKey) (connectionId id : String) :
    (registry.remove actor connectionId).2.seat a id =
      if a = actor ∧ id = connectionId then none else registry.seat a id := by
  unfold SocketRegistry.seat
  rw [SocketRegistry.entry_remove]
  split_ifs <;> rfl

theorem seat_activate (registry : SocketRegistry) (actor a : ActorKey) (connectionId id : String) :
    (registry.activate actor connectionId).seat a id =
      if a = actor ∧ id = connectionId then (registry.seat a id).map fun seat =>
        (seat.1, true) else registry.seat a id := by
  unfold SocketRegistry.seat SocketRegistry.activate
  rw [SocketRegistry.entry_modify]
  split_ifs
  · rw [Option.map_map, Option.map_map]
    rfl
  · rfl

/-- Two tasks do not share a seat. -/
theorem SeatsOk.drew (hseats : SeatsOk s) {stage : Stage} {p : GatewayM Stage}
    {connection : ActorSocketConnection} (ht : s.tasks t = some (.connection access stage, p))
    (hm : (∃ isOpen, membership (s.world.trace t) = .inside connection isOpen) ∨
      membership (s.world.trace t) = .gone connection) : Drew (s.world.trace t) connection.id :=
  drew_of_membership (hseats.history t access stage p ht) hm

theorem found_of_allows (hseats : SeatsOk s) {stage : Stage}
    (ht : s.tasks t = some (.connection access stage, .call op next)) (ha : s.world.Allows t op r)
    (hok : GatewayOk s) : Found (s.world.trace t) ⟨op, r⟩ := by
  cases op with
  | remove actor id =>
    rintro connection isOpen hm rfl
    have hcall : MemberOk t access (s.world.trace t) (.remove actor connection.id) :=
      (hseats.tasks t access stage _ ht).1
    have hseat := hseats.inside t access stage _ connection isOpen ht hm
    rw [← hcall.1] at hseat
    obtain ⟨entry, hentry, -⟩ := Option.map_eq_some_iff.mp hseat
    have hremoved : r = (s.world.registry.remove actor connection.id).1 := ha
    rw [SocketRegistry.removed_eq, hentry] at hremoved
    exact ⟨entry.connection, hremoved, (hok.entries actor connection.id entry hentry).key⟩
  | _ => trivial

/-- A call changes no task's purpose. -/
theorem tasks_answered {j : ℕ} {task' : GatewayTask} {p : GatewayM Stage}
    (ht : s.tasks t = some (task, .call op next))
    (h : (s.answered t task op r next).tasks j = some (task', p)) :
    ∃ p', s.tasks j = some (task', p') := by
  by_cases hj : j = t
  · subst hj
    obtain ⟨rfl, -⟩ : task = task' ∧ next r = p := by simpa [GatewayState.answered] using h
    exact ⟨_, ht⟩
  · exact ⟨p, by simpa [GatewayState.answered, hj] using h⟩

theorem tasks_answered_of {j : ℕ} {task' : GatewayTask} {p : GatewayM Stage}
    (ht : s.tasks t = some (task, .call op next)) (h : s.tasks j = some (task', p)) :
    ∃ p', (s.answered t task op r next).tasks j = some (task', p') := by
  by_cases hj : j = t
  · subst hj
    cases ht.symm.trans h
    exact ⟨next r, by simp [GatewayState.answered]⟩
  · exact ⟨p, by simpa [GatewayState.answered, hj] using h⟩

theorem history_answered (hseats : SeatsOk s) (ht : s.tasks t = some (task, .call op next)) {j : ℕ}
    {stage : Stage} {p : GatewayM Stage}
    (hj : (s.answered t task op r next).tasks j = some (.connection access stage, p))
    {before later : List GatewayEvent} {e : GatewayEvent}
    (heq : (s.answered t task op r next).world.trace j = before ++ e :: later) :
    MemberOk j access before e.op := by
  obtain ⟨p', hj'⟩ := tasks_answered ht hj
  by_cases hjt : j = t
  · subst hjt
    rw [trace_answered] at heq
    rcases List.eq_nil_or_concat later with rfl | ⟨later', e', rfl⟩
    · obtain ⟨rfl, rfl⟩ := List.append_inj' heq rfl |>.imp_right List.singleton_inj.mp
      cases ht.symm.trans hj'
      exact (hseats.tasks j access stage _ hj').1
    · rw [List.concat_eq_append, ← List.cons_append, ← List.append_assoc] at heq
      exact hseats.history j access stage p' hj' before e later' (List.append_inj' heq rfl).1
  · rw [trace_answered_ne hjt] at heq
    exact hseats.history j access stage p' hj' before e later heq

/-- The registry and the tasks still agree after a call, if they do on the seats of the task that made it. -/
theorem agree_answered (ht : s.tasks t = some (task, .call op next))
    (hinside : ∀ j access stage p connection isOpen, s.tasks j = some (.connection access stage, p) →
      membership ((s.answered t task op r next).world.trace j) = .inside connection isOpen →
      (s.answered t task op r next).world.registry.seat access.actor connection.id = some (j, isOpen))
    (hseat : ∀ actor id j isOpen, (s.answered t task op r next).world.registry.seat actor id = some (j, isOpen) →
      ∃ access stage p connection, s.tasks j = some (.connection access stage, p) ∧ access.actor = actor ∧
        connection.id = id ∧
        membership ((s.answered t task op r next).world.trace j) = .inside connection isOpen)
    (hok : GatewayOk s) (hseats : SeatsOk s) (ha : s.world.Allows t op r) :
    SeatsOk (s.answered t task op r next) := by
  refine ⟨?_, fun j access stage p hj before e later heq => history_answered hseats ht hj heq, ?_, ?_⟩
  · intro j access stage p hj
    by_cases hjt : j = t
    · subst hjt
      obtain ⟨rfl, rfl⟩ : task = .connection access stage ∧ next r = p :=
        by simpa [GatewayState.answered] using hj
      refine (hseats.tasks j access stage _ ht).2 r _ ⟨found_of_allows hseats ht ha hok, trace_answered ..⟩
    · rw [trace_answered_ne hjt]
      exact hseats.tasks j access stage p (by simpa [GatewayState.answered, hjt] using hj)
  · intro j access stage p connection isOpen hj hm
    obtain ⟨p', hj'⟩ := tasks_answered ht hj
    exact hinside j access stage p' connection isOpen hj' hm
  · intro actor id j isOpen hs
    obtain ⟨access, stage, p, connection, hj, hactor, hid, hm⟩ := hseat actor id j isOpen hs
    obtain ⟨p', hj'⟩ := tasks_answered_of ht hj
    exact ⟨access, stage, p', connection, hj', hactor, hid, hm⟩

theorem seatsOk_steady (hok : GatewayOk s) (hseats : SeatsOk s) (ht : s.tasks t = some (task, .call op next))
    (ha : s.world.Allows t op r) (hop : Steady op) : SeatsOk (s.answered t task op r next) := by
  have hm : ∀ j, membership ((s.answered t task op r next).world.trace j) = membership (s.world.trace j) := by
    intro j
    by_cases hj : j = t
    · subst hj
      rw [membership_answered]
      exact Membership.next_steady _ hop
    · rw [trace_answered_ne hj]
  refine agree_answered ht ?_ ?_ hok hseats ha
  · intro j access stage p connection isOpen hj hmj
    rw [seat_steady hop]
    exact hseats.inside j access stage p connection isOpen hj (hm j ▸ hmj)
  · intro actor id j isOpen hs
    rw [seat_steady hop] at hs
    rw [hm j]
    exact hseats.seats actor id j isOpen hs

/-- Task `t` has a seat of its own; the seats of other tasks are others. -/
theorem SeatsOk.other (hok : GatewayOk s) (hseats : SeatsOk s) {stage : Stage} {p : GatewayM Stage} {j : ℕ}
    {connection connection' : ActorSocketConnection} {isOpen : Bool}
    (hdrew : Drew (s.world.trace t) connection.id)
    (hj : s.tasks j = some (.connection access stage, p))
    (hm : membership (s.world.trace j) = .inside connection' isOpen) (hne : j ≠ t) :
    connection'.id ≠ connection.id := by
  intro heq
  have hdrew' := hseats.drew hj (.inl ⟨isOpen, hm⟩)
  rw [heq] at hdrew'
  exact hne (hok.drew_inj hdrew' hdrew)

theorem seatsOk_insert {stage : Stage} {actor : ActorKey} {connection : ActorSocketConnection} {outbound : ℕ}
    {triggerId : Option String} {next : Bool → GatewayM Stage} {r : Bool} (hok : GatewayOk s)
    (hseats : SeatsOk s)
    (ht : s.tasks t = some (.connection access stage, .call (.insert actor connection outbound triggerId) next))
    (ha : s.world.Allows t (.insert actor connection outbound triggerId) r) :
    SeatsOk (s.answered t (.connection access stage) (.insert actor connection outbound triggerId) r next) := by
  obtain ⟨rfl, rfl, hdrew, hout⟩ := (hseats.tasks t access stage _ ht).1
  have hr : (s.world.registry.insert access.actor connection outbound triggerId).1 = r := Eq.symm ha
  have hm := membership_answered s outbound (.connection access stage)
    (.insert access.actor connection outbound triggerId) r next
  rw [hout] at hm
  refine agree_answered ht ?_ ?_ hok hseats ha
  · intro j access' stage' p c isOpen hj hmj
    change (s.world.registry.insert access.actor connection outbound triggerId).2.seat access'.actor c.id = _
    by_cases hjt : j = outbound
    · subst hjt
      cases ht.symm.trans hj
      rw [hm] at hmj
      cases r with
      | false => cases hmj
      | true =>
        cases hmj
        rw [seat_insert hr, if_pos ⟨rfl, rfl⟩]
    · rw [trace_answered_ne hjt] at hmj
      have hne := hseats.other hok hdrew hj hmj hjt
      have hold := hseats.inside j access' stage' p c isOpen hj hmj
      cases r with
      | false => rw [seat_insert_full hr, hold]
      | true => rw [seat_insert hr, if_neg (fun h => hne h.2), hold]
  · intro a id j isOpen hs
    change (s.world.registry.insert access.actor connection outbound triggerId).2.seat a id = _ at hs
    have hold : s.world.registry.seat a id = some (j, isOpen) → ∃ access' stage' p c,
        s.tasks j = some (.connection access' stage', p) ∧ access'.actor = a ∧ c.id = id ∧
        membership ((s.answered outbound (.connection access stage)
          (.insert access.actor connection outbound triggerId) r next).world.trace j) = .inside c isOpen := by
      intro hs
      obtain ⟨access', stage', p, c, hj, hactor, hid, hmj⟩ := hseats.seats a id j isOpen hs
      have hjt : j ≠ outbound := by
        rintro rfl
        rw [hout] at hmj
        cases hmj
      exact ⟨access', stage', p, c, hj, hactor, hid, by rw [trace_answered_ne hjt, hmj]⟩
    cases r with
    | false => exact hold (by rwa [seat_insert_full hr] at hs)
    | true =>
      rw [seat_insert hr] at hs
      split_ifs at hs with hkey
      · cases hs
        exact ⟨access, stage, _, connection, ht, hkey.1.symm, hkey.2.symm, hm⟩
      · exact hold hs

theorem seatsOk_activate {stage : Stage} {actor : ActorKey} {id : String}
    {next : Unit → GatewayM Stage} {r : Unit} (hok : GatewayOk s) (hseats : SeatsOk s)
    (ht : s.tasks t = some (.connection access stage, .call (.activate actor id) next))
    (ha : s.world.Allows t (.activate actor id) r) :
    SeatsOk (s.answered t (.connection access stage) (.activate actor id) r next) := by
  obtain ⟨rfl, connection, rfl, hin⟩ := (hseats.tasks t access stage _ ht).1
  have hseat := hseats.inside t access stage _ connection false ht hin
  have hm := membership_answered s t (.connection access stage) (.activate access.actor connection.id) r next
  rw [hin] at hm
  refine agree_answered ht ?_ ?_ hok hseats ha
  · intro j access' stage' p c isOpen hj hmj
    change (s.world.registry.activate access.actor connection.id).seat access'.actor c.id = _
    rw [seat_activate]
    by_cases hjt : j = t
    · subst hjt
      cases ht.symm.trans hj
      cases hm.symm.trans hmj
      rw [if_pos ⟨rfl, rfl⟩, hseat]
      rfl
    · rw [trace_answered_ne hjt] at hmj
      have hne := hseats.other hok (hseats.drew ht (.inl ⟨false, hin⟩)) hj hmj hjt
      rw [if_neg (fun h => hne h.2)]
      exact hseats.inside j access' stage' p c isOpen hj hmj
  · intro a id j isOpen hs
    change (s.world.registry.activate access.actor connection.id).seat a id = _ at hs
    rw [seat_activate] at hs
    split_ifs at hs with hkey
    · obtain ⟨rfl, rfl⟩ := hkey
      rw [hseat] at hs
      cases hs
      exact ⟨access, stage, _, connection, ht, rfl, rfl, hm⟩
    · obtain ⟨access', stage', p, c, hj, hactor, hid, hmj⟩ := hseats.seats a id j isOpen hs
      have hjt : j ≠ t := by
        rintro rfl
        cases ht.symm.trans hj
        cases hin.symm.trans hmj
        exact hkey ⟨hactor.symm, hid.symm⟩
      exact ⟨access', stage', p, c, hj, hactor, hid, by rw [trace_answered_ne hjt, hmj]⟩

theorem seatsOk_remove {stage : Stage} {actor : ActorKey} {id : String}
    {next : Option ActorSocketConnection → GatewayM Stage} {r : Option ActorSocketConnection}
    (hok : GatewayOk s) (hseats : SeatsOk s)
    (ht : s.tasks t = some (.connection access stage, .call (.remove actor id) next))
    (ha : s.world.Allows t (.remove actor id) r) :
    SeatsOk (s.answered t (.connection access stage) (.remove actor id) r next) := by
  obtain ⟨rfl, connection, rfl, hin⟩ := (hseats.tasks t access stage _ ht).1
  have hm := membership_answered s t (.connection access stage) (.remove access.actor connection.id) r next
  have hgone : membership ((s.answered t (.connection access stage) (.remove access.actor connection.id) r
      next).world.trace t) = .gone connection := by
    rcases hin with ⟨isOpen, hin⟩ | hin
    · rw [hm, hin]; rfl
    · rw [hm, hin]; rfl
  refine agree_answered ht ?_ ?_ hok hseats ha
  · intro j access' stage' p c isOpen hj hmj
    change (s.world.registry.remove access.actor connection.id).2.seat access'.actor c.id = _
    have hjt : j ≠ t := by
      rintro rfl
      cases hgone.symm.trans hmj
    rw [trace_answered_ne hjt] at hmj
    have hne := hseats.other hok (hseats.drew ht hin) hj hmj hjt
    rw [seat_remove, if_neg (fun h => hne h.2)]
    exact hseats.inside j access' stage' p c isOpen hj hmj
  · intro a id j isOpen hs
    change (s.world.registry.remove access.actor connection.id).2.seat a id = _ at hs
    rw [seat_remove] at hs
    split_ifs at hs with hkey
    obtain ⟨access', stage', p, c, hj, hactor, hid, hmj⟩ := hseats.seats a id j isOpen hs
    have hjt : j ≠ t := by
      rintro rfl
      cases ht.symm.trans hj
      rcases hin with ⟨o, hin⟩ | hin
      · cases hin.symm.trans hmj
        exact hkey ⟨hactor.symm, hid.symm⟩
      · cases hin.symm.trans hmj
    exact ⟨access', stage', p, c, hj, hactor, hid, by rw [trace_answered_ne hjt, hmj]⟩

theorem seatsOk_call (hok : GatewayOk s) (hseats : SeatsOk s) (ht : s.tasks t = some (task, .call op next))
    (ha : s.world.Allows t op r) : SeatsOk (s.answered t task op r next) := by
  cases task with
  | applyEffects actor effects =>
    exact seatsOk_steady hok hseats ht ha (hok.posts t actor effects _ ht).1.1.steady
  | connection access stage =>
    cases op with
    | insert => exact seatsOk_insert hok hseats ht ha
    | activate => exact seatsOk_activate hok hseats ht ha
    | remove => exact seatsOk_remove hok hseats ht ha
    | _ => exact seatsOk_steady hok hseats ht ha trivial

end Call

/-! ### The other steps -/

/-- One task has a new program. -/
theorem SeatsOk.setTask (hseats : SeatsOk s) {task : GatewayTask} {p : GatewayM Stage}
    (hconnection : ∀ access stage, task = .connection access stage →
      wp (memberEnv t access) p (fun stage' tr => MemberEnd tr stage') (s.world.trace t) ∧
      (s.tasks t = none ∧ s.world.trace t = [] ∨ ∃ stage' p', s.tasks t = some (.connection access stage', p')))
    (hpost : ∀ actor effects, task = .applyEffects actor effects → ∀ access stage p',
      s.tasks t ≠ some (.connection access stage, p')) :
    SeatsOk { s with tasks := Function.update s.tasks t (some (task, p)) } := by
  refine ⟨?_, ?_, ?_, ?_⟩
  · intro j access stage q hj
    by_cases hjt : j = t
    · subst hjt
      obtain ⟨rfl, rfl⟩ : task = .connection access stage ∧ p = q := by simpa using hj
      exact (hconnection access stage rfl).1
    · exact hseats.tasks j access stage q (by simpa [hjt] using hj)
  · intro j access stage q hj before e later heq
    by_cases hjt : j = t
    · subst hjt
      obtain ⟨rfl, -⟩ : task = .connection access stage ∧ p = q := by simpa using hj
      rcases (hconnection access stage rfl).2 with ⟨-, hnil⟩ | ⟨stage', p', hold⟩
      · change s.world.trace j = _ at heq
        rw [hnil] at heq
        simp at heq
      · exact hseats.history j access stage' p' hold before e later heq
    · exact hseats.history j access stage q (by simpa [hjt] using hj) before e later heq
  · intro j access stage q connection isOpen hj hm
    by_cases hjt : j = t
    · subst hjt
      obtain ⟨rfl, -⟩ : task = .connection access stage ∧ p = q := by simpa using hj
      rcases (hconnection access stage rfl).2 with ⟨-, hnil⟩ | ⟨stage', p', hold⟩
      · change membership (s.world.trace j) = _ at hm
        rw [hnil] at hm
        cases hm
      · exact hseats.inside j access stage' p' connection isOpen hold hm
    · exact hseats.inside j access stage q connection isOpen (by simpa [hjt] using hj) hm
  · intro actor id j isOpen hs
    obtain ⟨access, stage, q, connection, hj, hactor, hid, hm⟩ := hseats.seats actor id j isOpen hs
    by_cases hjt : j = t
    · subst hjt
      cases task with
      | applyEffects actor' effects => exact (hpost actor' effects rfl access stage q hj).elim
      | connection access' stage'' =>
        rcases (hconnection access' stage'' rfl).2 with ⟨hnone, -⟩ | ⟨stage', p', hold⟩
        · cases hnone.symm.trans hj
        · cases hold.symm.trans hj
          exact ⟨access, stage'', p, connection, by simp, hactor, hid, hm⟩
    · exact ⟨access, stage, q, connection, by simpa [hjt] using hj, hactor, hid, hm⟩

theorem seatsOk_step {e : GatewayMove} (hok : GatewayOk s) (hseats : SeatsOk s)
    (hs : GatewayStep serde s e s') :
    SeatsOk s' := by
  cases hs with
  | @connect t access hfree =>
    refine hseats.setTask (fun access' stage heq => ?_) fun _ _ heq => by cases heq
    cases heq
    have hnil := hok.unused t hfree
    refine ⟨?_, .inl ⟨hfree, hnil⟩⟩
    rw [hnil]
    exact wp_openConnection_member serde
  | post hfree _ _ =>
    refine hseats.setTask (fun _ _ heq => by cases heq) fun _ _ _ access stage p' hold => ?_
    cases hfree.symm.trans hold
  | call ht ha => exact seatsOk_call hok hseats ht ha
  | @proceed t access stage stage' ht hne =>
    refine hseats.setTask (fun access' stage'' heq => ?_) fun _ _ heq => by cases heq
    cases heq
    have hend : MemberEnd (s.world.trace t) stage' := hseats.tasks t access stage _ ht
    refine ⟨wp_runConnection_member serde hne ?_, .inr ⟨stage, _, ht⟩⟩
    cases stage' with
    | opening => exact hend.elim
    | serving connection => exact hend
    | leaving connection disconnect => exact hend
    | ended => exact hend
  | drop ht _ =>
    refine hseats.setTask (fun _ _ heq => by cases heq) fun _ _ _ access stage p' hold => ?_
    cases ht.symm.trans hold
  | execute _ => exact ⟨hseats.tasks, hseats.history, hseats.inside, hseats.seats⟩
  | commit _ => exact ⟨hseats.tasks, hseats.history, hseats.inside, hseats.seats⟩

theorem seatsOk_reachable (hs : (gatewaySystem serde).Reachable s) : SeatsOk s := by
  have hinv : GatewayOk s ∧ SeatsOk s := by
    refine hs.invariant (I := fun s => GatewayOk s ∧ SeatsOk s) ?_ fun h hs =>
      ⟨gatewayOk_step h.1 hs, seatsOk_step h.1 h.2 hs⟩
    rintro s rfl
    refine ⟨gatewayOk_init, ?_, ?_, ?_, ?_⟩
    · intro t access stage p ht
      cases ht
    · intro t access stage p ht
      cases ht
    · intro t access stage p connection isOpen ht
      cases ht
    · intro actor id t isOpen hs
      cases hs
  exact hinv.2

end LDO
