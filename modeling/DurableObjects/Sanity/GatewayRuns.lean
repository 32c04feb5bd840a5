import DurableObjects.Sanity.Connections
import DurableObjects.Sanity.Snapshot

/-! A gateway that can be run. A schedule says which task is answered next, and how; every
schedule that goes through is a run of the gateway. -/

namespace LDO

namespace Gateway

inductive Command where
  | connect (t : ℕ) (access : SocketAccess)
  | post (t : ℕ) (actor : ActorKey) (effects : List ActorSocketEffect)
  | call (t : ℕ) (answer : GatewayWorld → (op : GatewayOp) → Option op.Res)
  | proceed (t : ℕ)
  | execute (t : ℕ)
  | commit (t : ℕ)

/-- The event task `t` waits for. -/
def waitsFor (s : GatewayState) (t : ℕ) : Option ActorSocketInvocation :=
  match s.tasks t with
  | some (_, .call (.sendSocketEvent _ invocation) _) => some invocation
  | _ => none

def goesOn : Stage → Bool
  | .ended => false
  | _ => true

def perform (serde : SerdeJson) (s : GatewayState) : Command → Option (GatewayMove × GatewayState)
  | .connect t access =>
    match s.tasks t with
    | none => some (.connect t access, { s with
        tasks := Function.update s.tasks t (some (.connection access .opening, runConnection serde t access .opening)) })
    | some _ => none
  | .post t actor effects =>
    match s.tasks t with
    | none =>
      match actor.validate, validateSocketEffects effects with
      | .ok (), .ok () => some (.post t actor effects, { s with
          tasks := Function.update s.tasks t
            (some (.applyEffects actor effects, (fun _ => .ended) <$> apply actor effects)) })
      | _, _ => none
    | some _ => none
  | .call t answer =>
    match s.tasks t with
    | some (task, .call op next) =>
      match answer s.world op with
      | some r => if s.world.Allows t op r then some (.call t ⟨op, r⟩, s.answered t task op r next) else none
      | none => none
    | _ => none
  | .proceed t =>
    match s.tasks t with
    | some (.connection access _, .ret stage') =>
      if goesOn stage' then some (.proceed t, { s with
        tasks := Function.update s.tasks t (some (.connection access stage', runConnection serde t access stage')) })
      else none
    | _ => none
  | .execute t =>
    match waitsFor s t with
    | some invocation => some (.execute invocation.requestId,
        { s with world := { s.world with executed := invocation.requestId :: s.world.executed } })
    | none => none
  | .commit t =>
    match waitsFor s t with
    | some invocation =>
      if invocation.requestId ∈ s.world.executed then some (.commit invocation.requestId,
        { s with world := { s.world with committed := invocation.requestId :: s.world.committed } })
      else none
    | none => none

variable {serde : SerdeJson} {s s' : GatewayState} {t : ℕ} {e : GatewayMove}

theorem waiting_of_waitsFor {invocation : ActorSocketInvocation} (h : waitsFor s t = some invocation) :
    s.Waiting t invocation := by
  unfold waitsFor at h
  split at h
  · rename_i task target invocation' next ht
    cases h
    exact ⟨task, target, next, ht⟩
  · cases h

theorem perform_sound {c : Command} (h : perform serde s c = some (e, s')) : GatewayStep serde s e s' := by
  cases c with
  | connect t access =>
    simp only [perform] at h
    split at h
    · rename_i hfree
      cases h
      exact .connect access hfree
    · cases h
  | post t actor effects =>
    simp only [perform] at h
    split at h
    · rename_i hfree
      split at h
      · rename_i hactor heffects
        cases h
        exact .post hfree hactor heffects
      · cases h
    · cases h
  | call t answer =>
    simp only [perform] at h
    split at h
    · rename_i task op next ht
      split at h
      · split_ifs at h with ha
        cases h
        exact .call ht ha
      · cases h
    · cases h
  | proceed t =>
    simp only [perform] at h
    split at h
    · rename_i access stage stage' ht
      split_ifs at h with hgoes
      cases h
      refine .proceed ht ?_
      rintro rfl
      cases hgoes
    · cases h
  | execute t =>
    simp only [perform] at h
    split at h
    · rename_i invocation hw
      cases h
      exact .execute (.inr (waiting_of_waitsFor hw))
    · cases h
  | commit t =>
    simp only [perform] at h
    split at h
    · split_ifs at h with hx
      cases h
      exact .commit hx
    · cases h

/-- The commands one after the other, each of them checked. -/
def run (serde : SerdeJson) (check : GatewayState → Command → GatewayMove → Bool) :
    List Command → GatewayState → Option GatewayState
  | [], s => some s
  | c :: cs, s =>
    match perform serde s c with
    | some (e, s') => if check s c e then run serde check cs s' else none
    | none => none

def initial : GatewayState := ⟨.empty, fun _ => none⟩

variable {check : GatewayState → Command → GatewayMove → Bool} {cond : GatewayState → GatewayMove → GatewayState → Prop}

theorem reachable_of_run (hcheck : ∀ {s c e s'}, (gatewaySystem serde).Reachable s → perform serde s c = some (e, s') →
      check s c e = true → cond s e s') {cs : List Command} (h : run serde check cs s = some s')
    (hs : ((gatewaySystem serde).restrict cond).Reachable s) :
    ((gatewaySystem serde).restrict cond).Reachable s' := by
  induction cs generalizing s with
  | nil =>
    cases h
    exact hs
  | cons c cs ih =>
    simp only [run] at h
    split at h
    · rename_i e s₁ hp
      split_ifs at h with hc
      exact ih h (hs.step ⟨perform_sound hp, hcheck hs.of_restrict hp hc⟩)
    · cases h

/-- Without a check. -/
def unchecked (_ : GatewayState) (_ : Command) (_ : GatewayMove) : Bool := true

theorem reachable_of_unchecked {cs : List Command} (h : run serde unchecked cs initial = some s) :
    (gatewaySystem serde).Reachable s := by
  have hs : ((gatewaySystem serde).restrict fun _ _ _ => True).Reachable s :=
    reachable_of_run (fun _ _ _ => trivial) h ⟨[], _, rfl, .nil _⟩
  exact hs.of_restrict

/-- The moves that the commands make. -/
def play (serde : SerdeJson) : List Command → GatewayState → Option (List GatewayMove × GatewayState)
  | [], s => some ([], s)
  | c :: cs, s =>
    match perform serde s c with
    | some (e, s') => (play serde cs s').map fun played => (e :: played.1, played.2)
    | none => none

theorem path_of_play {cs : List Command} {moves : List GatewayMove} (h : play serde cs s = some (moves, s')) :
    (gatewaySystem serde).Path s moves s' := by
  induction cs generalizing s moves with
  | nil =>
    cases h
    exact .nil _
  | cons c cs ih =>
    simp only [play] at h
    split at h
    · rename_i e s₁ hp
      obtain ⟨⟨later, s₂⟩, hplay, heq⟩ := Option.map_eq_some_iff.mp h
      cases heq
      exact System.Path.trans (.single (perform_sound hp)) (ih hplay)
    · cases h

/-! ### Answers -/

/-- The answers of a gateway at rest: a clock that stands at zero, an empty cache of targets, and one host. -/
def usual (target : WorkflowActorTarget) (w : GatewayWorld) : (op : GatewayOp) → Option op.Res
  | .insert actor connection outbound triggerId =>
      some (w.registry.insert actor connection outbound triggerId).1
  | .remove actor connectionId => some (w.registry.remove actor connectionId).1
  | .connections actor => some (w.registry.connections actor)
  | .triggerId actor connectionId => some (w.registry.triggerId actor connectionId)
  | .recipients actor exceptConnectionIds tags => some (w.registry.recipients actor exceptConnectionIds tags)
  | .sender actor connectionId => some (w.registry.sender actor connectionId)
  | .setMetadata .. => some ()
  | .setTags .. => some ()
  | .activate .. => some ()
  | .send .. => some ()
  | .sendBroadcast .. => some ()
  | .unixSeconds => some (.ok (0 : ℤ))
  | .cachedTarget _ => some none
  | .invalidateTarget _ => some ()
  | .resolveTarget .. => some (.ok target)
  | .invalidateChannel _ => some ()
  | .deliver .. => some ()
  | .socketSend _ => some (.ok ())
  | _ => none

def draws (t : ℕ) (id : String) : Command := .call t fun _ op =>
  match op with
  | .newUuid => some id
  | _ => none

def replied (t : ℕ) (answer : Result ActorExecutionResult) : Command := .call t fun _ op =>
  match op with
  | .sendSocketEvent .. => some answer
  | _ => none

def selects (t : ℕ) (selected : Selected) : Command := .call t fun _ op =>
  match op with
  | .select => some selected
  | _ => none

/-- The clock says `now`. -/
def reads (t : ℕ) (now : ℤ) : Command := .call t fun _ op =>
  match op with
  | .unixSeconds => some (.ok now)
  | _ => none

/-! ### A chat room -/

def room : ActorKey := ⟨"acme", "Room", "1"⟩

/-- The host of the room, and a token for it that expires at 30. -/
def roomHost : WorkflowActorTarget where
  route := "http://10.0.0.1"
  token :=
    { keyId := "key-1"
      claims :=
        { iss := "authority", aud := ["actors"], sub := "host-1", namespaceId := "acme", processId := "host-1"
          sessionId := "session-2", processRole := .host, region := "us-east", privateRouting := false
          codeRevision := some "1", scope := "actor:invoke", iat := 0, nbf := 0, exp := 30
          invocation := some ⟨room, ⟨"host-1"⟩, 1, 0, ""⟩ } }
  ownerEpoch := 1
  stateVersion := 0
  stateReadUrl := ""
  expiresAtMs := 30000

/-- A client whose metadata is trusted and whose credential expires at 50. -/
def guest : SocketAccess where
  actor := room
  principal := ⟨⟨"acme"⟩, ⟨"workflow"⟩, "session-1", .workflow, "us-east", false, none, 50, none⟩
  metadata := some .null
  triggerId := none
  actor_valid := by decide
  authorized := by decide
  metadata_valid := by
    rintro m ⟨⟩
    decide

def goes (t n : ℕ) : List Command := List.replicate n (.call t (usual roomHost))

/-- Task `t` opens a connection, up to the connect event. -/
def arrives (t : ℕ) (connectionId requestId : String) : List Command :=
  [.connect t guest, draws t connectionId] ++ goes t 2 ++ [draws t requestId] ++ goes t 3

/-- The first client, and its connect event. -/
def visitor : ActorSocketConnection := ⟨"connection-1", .null, []⟩

def admission : ActorSocketInvocation := ⟨"request-1", room, .connect visitor, [visitor]⟩

/-- The actor's host executes and commits the event that task `t` waits for, and answers it. -/
def handled (t : ℕ) (effects : List ActorSocketEffect) : List Command :=
  [.execute t, .commit t, replied t (.ok (.completed .null effects))]

/-- The client of task `t` closes its socket. -/
def hangsUp (t : ℕ) : List Command := [selects t (.inbound (some (.ok (.close none)))), .proceed t]

end Gateway

end LDO
