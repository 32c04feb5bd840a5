import DurableObjects.Spec.Host
import DurableObjects.Spec.StoreSystem

/-! Hosts, object storage and the control plane together. Any number of turns run at
once on any number of hosts and interleave at their calls. A request to the control
plane may be sent again, delayed, or answered when nobody waits for it any more; an
upload may be stored long after its caller gave up; a host may stop and start again
with an empty cache. -/

namespace LDO

/-- Where an object is stored: the bucket of a region, and the name in it. -/
structure Location where
  region : String
  objectName : String
  deriving DecidableEq

/-- What is fixed for a run: the hosts, which object a signed URL stands for, and what
the executor may answer on a state. -/
structure Deployment where
  serde : SerdeJson
  host : HostId → ActorHost
  host_id : ∀ h, (host h).id = h
  host_serde : ∀ h, (host h).serde = serde
  locate : String → Option Location
  invokes : ActorMethodInvocation → Option Value → Value → Value → List ActorSocketEffect → Prop
  handles : ActorSocketInvocation → Option Value → Value → List ActorSocketEffect → Prop

/-- A `PUT` that has left a host. -/
structure Upload where
  turn : ℕ
  location : Location
  bytes : ByteArray

structure World where
  store : StoreState
  /-- The rows the control plane has read, at any time. -/
  observed : List ObjectPlacement
  /-- The commit requests that have left a host, and those the store has confirmed. -/
  sent : List StateCommitRequest
  committed : List (StateCommitRequest × ObjectPlacement)
  /-- The names of all write tickets handed out. -/
  issued : List String
  uploads : List Upload
  objects : Location → Option ByteArray
  caches : HostId → ActorStorageKey → Option CachedActorState
  gates : HostId → ActorStorageKey → Option ℕ
  sessions : HostId → String
  calls : ℕ → Option (HostId × HostCall)
  trace : ℕ → List HostEvent
  answers : ℕ → Option TurnAnswer

namespace World

def heads (w : World) (object : ActorStorageKey) : List Head := w.store.store.heads object

def row (w : World) (object : ActorStorageKey) : Option PlacementRow := w.store.store.db.placements object

def region (w : World) (object : ActorStorageKey) : Option String := (w.row object).map (·.homeRegion)

def setCache (w : World) (h : HostId) (object : ActorStorageKey) (c : Option CachedActorState) : World :=
  { w with caches := Function.update w.caches h (Function.update (w.caches h) object c) }

def setGate (w : World) (h : HostId) (object : ActorStorageKey) (t : Option ℕ) : World :=
  { w with gates := Function.update w.gates h (Function.update (w.gates h) object t) }

/-- The gate is a guard: it opens again when the turn that holds it ends in any way. -/
def release (w : World) (h : HostId) (object : ActorStorageKey) (t : ℕ) : World :=
  if w.gates h object = some t then w.setGate h object none else w

def upload (w : World) (u : Upload) : World := { w with uploads := w.uploads ++ [u] }

/-- `ifGenerationMatch=0`: an object is created, never replaced. -/
def land (w : World) (u : Upload) : World :=
  { w with objects := Function.update w.objects u.location (some ((w.objects u.location).getD u.bytes)) }

def issue (w : World) (ticket : StateWriteTicket) : World :=
  { w with issued := ticket.objectName :: w.issued }

def log (w : World) (t : ℕ) (e : HostEvent) : World :=
  { w with trace := Function.update w.trace t (w.trace t ++ [e]) }

end World

/-- A ticket for the version after `placement`, with a name that was never used. -/
structure FreshTicket (D : Deployment) (w : World) (placement : ObjectPlacement) (ticket : StateWriteTicket) :
    Prop where
  version : ticket.stateVersion = placement.stateVersion + 1
  location : D.locate ticket.url = some ⟨placement.homeRegion, ticket.objectName⟩
  unused : ticket.objectName ∉ w.issued

/-- What turn `t` on host `h` may be answered. -/
inductive Answers (D : Deployment) (t : ℕ) (h : HostId) (w : World) : (op : HostOp) → op.Res → World → Prop
  | accepting (b : Bool) : Answers D t h w .accepting b w
  | notAdmitted {object : ActorStorageKey} {r : Result ActorExecutionAdmission} : r ≠ .ok .acquired →
      Answers D t h w (.admission object) r w
  | acquired {object : ActorStorageKey} : w.gates h object = none →
      Answers D t h w (.admission object) (.ok .acquired) (w.setGate h object (some t))
  | take {object : ActorStorageKey} :
      Answers D t h w (.takeCachedState object) (.ok (w.caches h object)) (w.setCache h object none)
  | store {object : ActorStorageKey} {c : CachedActorState} :
      Answers D t h w (.storeCachedState object c) (.ok ()) (w.setCache h object (some c))
  | read {url : String} {location : Location} {bytes : ByteArray} : D.locate url = some location →
      w.objects location = some bytes → Answers D t h w (.read url) (.ok ⟨bytes⟩) w
  | readFailed {url : String} (e : Error) : Answers D t h w (.read url) (.error e) w
  -- an attempt that is repeated finds its own object, so either answer may follow
  | written {url : String} {bytes : ByteArray} {location : Location} (r : StateWrite) :
      D.locate url = some location →
      Answers D t h w (.write url bytes) (.ok r) ((w.upload ⟨t, location, bytes⟩).land ⟨t, location, bytes⟩)
  | notWritten {url : String} {bytes : ByteArray} (e : Error) : Answers D t h w (.write url bytes) (.error e) w
  | writeLost {url : String} {bytes : ByteArray} {location : Location} (e : Error) :
      D.locate url = some location →
      Answers D t h w (.write url bytes) (.error e) (w.upload ⟨t, location, bytes⟩)
  | invoked {m : ActorMethodInvocation} {state : Option Value} {result next : Value}
      {effects : List ActorSocketEffect} : D.invokes m state result next effects →
      Answers D t h w (.invokeWithState m state) (.ok (.completed result next effects)) w
  | notInvoked {m : ActorMethodInvocation} {state : Option Value} {r : Result ActorMethodOutcome} :
      (∀ result next effects, r ≠ .ok (.completed result next effects)) →
      Answers D t h w (.invokeWithState m state) r w
  | handled {m : ActorSocketInvocation} {state : Option Value} {next : Value}
      {effects : List ActorSocketEffect} : D.handles m state next effects →
      Answers D t h w (.handleSocketWithState m state) (.ok (.handled next effects)) w
  | notHandled {m : ActorSocketInvocation} {state : Option Value} {r : Result ActorSocketOutcome} :
      (∀ next effects, r ≠ .ok (.handled next effects)) →
      Answers D t h w (.handleSocketWithState m state) r w
  | evict {actor : ActorKey} (r : Result Unit) : Answers D t h w (.evict actor) r w
  | unixMillis (r : Result ℕ) : Answers D t h w .unixMillis r w
  | prepared {actor : ActorKey} {hostId : HostId} {ownerEpoch expectedVersion : ℕ} {placement : ObjectPlacement}
      {ticket : StateWriteTicket} : placement ∈ w.observed → placement.object = actor.storageKey →
      placement.owner = hostId → placement.ownerEpoch = ownerEpoch → placement.stateVersion = expectedVersion →
      FreshTicket D w placement ticket →
      Answers D t h w (.prepareStateWrite actor hostId ownerEpoch expectedVersion) (.ok ticket) (w.issue ticket)
  | notPrepared {actor : ActorKey} {hostId : HostId} {ownerEpoch expectedVersion : ℕ} (e : Error) :
      Answers D t h w (.prepareStateWrite actor hostId ownerEpoch expectedVersion) (.error e) w
  | committed {actor : ActorKey} {hostId : HostId} {sessionId : String} {ownerEpoch expectedVersion : ℕ}
      {stateObject requestId : String} {placement : ObjectPlacement} :
      (⟨actor.storageKey, hostId, sessionId, ownerEpoch, expectedVersion, stateObject, requestId⟩, placement) ∈
        w.committed →
      Answers D t h w (.commitState actor hostId ownerEpoch expectedVersion stateObject requestId)
        (.ok ⟨placement.stateVersion, none⟩) w
  | committedNext {actor : ActorKey} {hostId : HostId} {sessionId : String} {ownerEpoch expectedVersion : ℕ}
      {stateObject requestId : String} {placement : ObjectPlacement} {ticket : StateWriteTicket} :
      (⟨actor.storageKey, hostId, sessionId, ownerEpoch, expectedVersion, stateObject, requestId⟩, placement) ∈
        w.committed → FreshTicket D w placement ticket →
      Answers D t h w (.commitState actor hostId ownerEpoch expectedVersion stateObject requestId)
        (.ok ⟨placement.stateVersion, some ticket⟩) (w.issue ticket)
  | notCommitted {actor : ActorKey} {hostId : HostId} {ownerEpoch expectedVersion : ℕ}
      {stateObject requestId : String} (e : Error) :
      Answers D t h w (.commitState actor hostId ownerEpoch expectedVersion stateObject requestId) (.error e) w

/-- The capability a call carries was made from a row the control plane once read; an
epoch travels as a `u64`. -/
def Capable (D : Deployment) (w : World) (h : HostId) (call : HostCall) : Prop :=
  call.ownerEpoch ≤ u64Max ∧ ∃ placement ∈ w.observed, placement.object = call.request.object ∧
    placement.owner = h ∧ placement.ownerEpoch = call.ownerEpoch ∧ placement.stateVersion = call.stateVersion ∧
    match placement.stateObject with
    | some name => D.locate call.stateReadUrl = some ⟨placement.homeRegion, name⟩
    | none => call.stateReadUrl = ""

/-- The request in a `commitState` call, under the session the host holds. -/
def commitRequest (sessionId : String) : HostOp → Option StateCommitRequest
  | .commitState actor hostId ownerEpoch expectedVersion stateObject requestId =>
    some ⟨actor.storageKey, hostId, sessionId, ownerEpoch, expectedVersion, stateObject, requestId⟩
  | _ => none

/-- What the control plane learns from an answer of the store. -/
def StoreEvent.confirmed : StoreEvent → List (StateCommitRequest × ObjectPlacement)
  | .answer _ (.commitState request) (.commitState (.ok (.committed placement))) => [(request, placement)]
  | _ => []

structure ClusterState where
  world : World
  turns : ℕ → Option ((HostId × HostCall) × HostM TurnAnswer)

inductive ClusterEvent where
  | observe (object : ActorStorageKey)
  | arrive (t : ℕ) (h : HostId) (call : HostCall)
  | call (t : ℕ) (op : HostOp)
  | send (t : ℕ)
  | store (e : StoreEvent)
  | land (u : Upload)
  | finish (t : ℕ) (answer : TurnAnswer)
  | drop (t : ℕ)
  | restart (h : HostId) (sessionId : String)

inductive ClusterStep (D : Deployment) : ClusterState → ClusterEvent → ClusterState → Prop
  | observe {s : ClusterState} {object : ActorStorageKey} {row : PlacementRow} : s.world.row object = some row →
      ClusterStep D s (.observe object)
        { s with world := { s.world with observed := s.world.observed ++ [placementFromRow object row] } }
  | arrive {s : ClusterState} {t : ℕ} {h : HostId} {call : HostCall} : s.world.calls t = none →
      Capable D s.world h call →
      ClusterStep D s (.arrive t h call)
        ⟨{ s.world with calls := Function.update s.world.calls t (some (h, call)) },
          Function.update s.turns t (some ((h, call), call.program (D.host h)))⟩
  | call {s : ClusterState} {t : ℕ} {h : HostId} {call : HostCall} {op : HostOp}
      {next : op.Res → HostM TurnAnswer} {r : op.Res} {w : World} :
      s.turns t = some ((h, call), .call op next) → Answers D t h s.world op r w →
      ClusterStep D s (.call t op) ⟨w.log t ⟨op, r⟩, Function.update s.turns t (some ((h, call), next r))⟩
  | send {s : ClusterState} {t : ℕ} {h : HostId} {call : HostCall} {op : HostOp}
      {next : op.Res → HostM TurnAnswer} {request : StateCommitRequest} :
      s.turns t = some ((h, call), .call op next) → commitRequest (s.world.sessions h) op = some request →
      ClusterStep D s (.send t) { s with world := { s.world with sent := s.world.sent ++ [request] } }
  | store {s : ClusterState} {e : StoreEvent} {store : StoreState} : StoreStep s.world.store e store →
      (∀ i request, e = .arrive i (.commitState request) → request ∈ s.world.sent) →
      ClusterStep D s (.store e)
        { s with world := { s.world with store := store, committed := s.world.committed ++ e.confirmed } }
  | land {s : ClusterState} {u : Upload} : u ∈ s.world.uploads →
      ClusterStep D s (.land u) { s with world := s.world.land u }
  | finish {s : ClusterState} {t : ℕ} {h : HostId} {call : HostCall} {answer : TurnAnswer} :
      s.turns t = some ((h, call), .ret answer) →
      ClusterStep D s (.finish t answer)
        ⟨{ s.world.release h call.request.object t with
            answers := Function.update s.world.answers t (some answer) }, Function.update s.turns t none⟩
  -- a turn dropped during an upload is one that was first told the upload failed
  | drop {s : ClusterState} {t : ℕ} {h : HostId} {call : HostCall} {p : HostM TurnAnswer} :
      s.turns t = some ((h, call), p) →
      ClusterStep D s (.drop t)
        ⟨s.world.release h call.request.object t, Function.update s.turns t none⟩
  | restart {s : ClusterState} {h : HostId} (sessionId : String) :
      (∀ t call p, s.turns t ≠ some ((h, call), p)) →
      ClusterStep D s (.restart h sessionId)
        { s with world := { s.world with caches := Function.update s.world.caches h fun _ => none,
                                         sessions := Function.update s.world.sessions h sessionId } }

def World.empty (sessions : HostId → String) : World where
  store := ⟨.empty, fun _ => none⟩
  observed := []
  sent := []
  committed := []
  issued := []
  uploads := []
  objects := fun _ => none
  caches := fun _ _ => none
  gates := fun _ _ => none
  sessions := sessions
  calls := fun _ => none
  trace := fun _ => []
  answers := fun _ => none

def clusterSystem (D : Deployment) : System ClusterState ClusterEvent where
  init s := ∃ sessions, s = ⟨.empty sessions, fun _ => none⟩
  step := ClusterStep D

end LDO
