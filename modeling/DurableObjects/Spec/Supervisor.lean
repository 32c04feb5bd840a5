import Mathlib.Data.List.MinMax
import Mathlib.Logic.Function.Basic
import DurableObjects.Lib.Runs
import DurableObjects.Spec.Executor

/-! `ActorWorkerSupervisor`, which keeps one worker thread for each resident actor of the customer's
process. A step is what runs between two awaits. The promises that a call waits for are kept with
the object that settles them, so a call goes on in a step of its own some time after. The host has
validated every actor key, so none of its parts has a separator in it and the key stands for
`actorKey`. Numbers stand for the worker and resident objects. -/

namespace LDO

def maxResidentActors : ℕ := 32

/-! ### Workers -/

/-- Why `terminate` was called. -/
inductive TerminationReason where
  | closed
  | preload
  | evicted
  | capacity
  | idle (timeoutMs : ℕ)
  | failed
  deriving DecidableEq

def TerminationReason.message : TerminationReason → String
  | .closed => "actor supervisor is closed"
  | .preload => "unused actor preload expired or failed"
  | .evicted => "resident actor was evicted by the Rust host"
  | .capacity => "resident actor was evicted by the LRU capacity limit"
  | .idle timeoutMs => "resident actor was idle for " ++ toString timeoutMs ++ "ms"
  | .failed => "actor invocation failed"

inductive WorkerError where
  /-- `ActorWorkerTerminatedError` -/
  | terminated (reason : TerminationReason)
  | failed (message : String)
  deriving DecidableEq

def WorkerError.message : WorkerError → String
  | .terminated reason => reason.message
  | .failed message => message

def WorkerError.reply (error : WorkerError) : ExecutorReply :=
  match error with
  | .terminated _ => .failed "actor_worker_terminated" error.message
  | .failed _ => .failed "actor_worker_failed" error.message

inductive ReadyPromise where
  | pending
  | resolved (actorTypes : List String)
  | rejected (error : WorkerError)

/-- What runs in a worker thread: how it begins, and how it answers a command. -/
structure WorkerCode (Thread : Type) where
  start : Thread
  respond : Thread → ExecutorCommandEnvelope → ExecutorReply → Thread → Prop

/-- `ι` names the calls. -/
structure ActorWorker (ι Thread : Type) where
  readyPromise : ReadyPromise
  /-- The call in `replyResolve` and `replyReject` -/
  replySlot : Option ι
  /-- How the promise of an `execute` was settled. -/
  settled : ι → Option (Except WorkerError ExecutorReply)
  terminalError : Option WorkerError
  thread : Thread
  /-- The command posted to the thread and not answered. -/
  running : Option ι

namespace ActorWorker

variable {ι Thread : Type} [DecidableEq ι]

def new (start : Thread) : ActorWorker ι Thread := ⟨.pending, none, fun _ => none, none, start, none⟩

def settle (worker : ActorWorker ι Thread) (h : ι) (answer : Except WorkerError ExecutorReply) :
    ActorWorker ι Thread :=
  { worker with settled := Function.update worker.settled h (some answer) }

def fail (worker : ActorWorker ι Thread) (error : WorkerError) : ActorWorker ι Thread :=
  if worker.terminalError ≠ none then worker
  else
    let ready := match worker.readyPromise with
      | .pending => .rejected error
      | settled => settled
    let settled := match worker.replySlot with
      | some h => Function.update worker.settled h (some (.error error))
      | none => worker.settled
    { worker with terminalError := some error, readyPromise := ready, settled := settled, replySlot := none }

def terminate (worker : ActorWorker ι Thread) (reason : TerminationReason) : ActorWorker ι Thread :=
  worker.fail (.terminated reason)

/-- The message `ready`. -/
def announce (worker : ActorWorker ι Thread) (actorTypes : List String) : ActorWorker ι Thread :=
  match worker.readyPromise with
  | .pending => { worker with readyPromise := .resolved actorTypes }
  | _ => worker

/-- `reply`, with the thread as it is after the command -/
def reply (worker : ActorWorker ι Thread) (reply : ExecutorReply) (thread : Thread) : ActorWorker ι Thread :=
  let worker := { worker with thread := thread, running := none }
  match worker.replySlot with
  | some h => { worker.settle h (.ok reply) with replySlot := none }
  | none => worker

/-- `execute` after `readyPromise`: the command is posted, unless the worker is gone. -/
def post (worker : ActorWorker ι Thread) (h : ι) : ActorWorker ι Thread :=
  match worker.readyPromise, worker.terminalError with
  | .rejected error, _ => worker.settle h (.error error)
  | _, some error => worker.settle h (.error error)
  | _, none => { worker with replySlot := some h, running := some h }

end ActorWorker

/-! ### The supervisor -/

structure ResidentActorWorker where
  /-- The key that `onIdle` removes. -/
  key : ActorKey
  worker : Option ℕ
  idleTimer : Bool
  lastCompletedAt : ℕ

structure ActorWorkerSupervisor (ι Thread : Type) where
  closed : Bool
  actorTypes : Option (List String)
  actors : List (ActorKey × ℕ)
  speculativeWorker : Option ℕ
  /-- A timer for the speculative worker is running. -/
  speculativeTimer : Bool
  residents : ℕ → ResidentActorWorker
  nextResident : ℕ
  workers : ℕ → ActorWorker ι Thread
  nextWorker : ℕ

inductive CallPhase where
  | before
  /-- Waits for `ready()` of the worker. -/
  | loading (worker : ℕ)
  /-- `ready()` was answered. -/
  | loaded
  /-- Waits for the `readyPromise` of the resident's worker. -/
  | starting (resident worker : ℕ)
  /-- Waits for the promise of `execute`. -/
  | executing (resident worker : ℕ)
  /-- The reply, and the worker that the command was for. -/
  | finished (worker : Option ℕ) (reply : ExecutorReply)
  /-- The end of a call of `ready()`. -/
  | returned (actorTypes : Except String (List String))

inductive SupervisorRequest where
  | ready
  | command (envelope : ExecutorCommandEnvelope)

namespace ActorWorkerSupervisor

variable {ι Thread : Type} [DecidableEq ι]

section Parts

variable (supervisor : ActorWorkerSupervisor ι Thread)

def setWorker (w : ℕ) (worker : ActorWorker ι Thread) : ActorWorkerSupervisor ι Thread :=
  { supervisor with workers := Function.update supervisor.workers w worker }

def setResident (r : ℕ) (resident : ResidentActorWorker) : ActorWorkerSupervisor ι Thread :=
  { supervisor with residents := Function.update supervisor.residents r resident }

/-- The new worker is number `nextWorker`. -/
def createWorker (start : Thread) : ActorWorkerSupervisor ι Thread :=
  { supervisor.setWorker supervisor.nextWorker (.new start) with nextWorker := supervisor.nextWorker + 1 }

def preload (start : Thread) : ActorWorkerSupervisor ι Thread :=
  { supervisor.createWorker start with speculativeWorker := some supervisor.nextWorker, speculativeTimer := true }

def takeSpeculativeWorker : ActorWorkerSupervisor ι Thread :=
  { supervisor with speculativeWorker := none, speculativeTimer := false }

def terminateWorker (w : Option ℕ) (reason : TerminationReason) : ActorWorkerSupervisor ι Thread :=
  match w with
  | some w => supervisor.setWorker w ((supervisor.workers w).terminate reason)
  | none => supervisor

def discardPreload (w : ℕ) : ActorWorkerSupervisor ι Thread :=
  if supervisor.speculativeWorker ≠ some w then supervisor
  else supervisor.takeSpeculativeWorker.terminateWorker (some w) .preload

/-- `ResidentActorWorker.terminate` -/
def terminateResident (r : ℕ) (reason : TerminationReason) : ActorWorkerSupervisor ι Thread :=
  let resident := supervisor.residents r
  (supervisor.setResident r { resident with idleTimer := false, worker := none }).terminateWorker resident.worker reason

def residentOf (key : ActorKey) : Option ℕ :=
  (supervisor.actors.find? fun entry => entry.1 = key).map Prod.snd

/-- The entry is deleted and its resident terminated. -/
def remove (key : ActorKey) (r : ℕ) (reason : TerminationReason) : ActorWorkerSupervisor ι Thread :=
  { supervisor with actors := supervisor.actors.filter fun entry => entry.1 ≠ key }.terminateResident r reason

def evict (key : ActorKey) : ActorWorkerSupervisor ι Thread :=
  match supervisor.residentOf key with
  | some r => supervisor.remove key r .evicted
  | none => supervisor

/-- The idle entry that completed first. -/
def leastRecent : Option (ActorKey × ℕ) :=
  (supervisor.actors.filter fun entry => (supervisor.residents entry.2).idleTimer).argmin fun entry =>
    (supervisor.residents entry.2).lastCompletedAt

def makeRoomForActor : Option (ActorWorkerSupervisor ι Thread) :=
  if supervisor.actors.length < maxResidentActors then some supervisor
  else supervisor.leastRecent.map fun idle => supervisor.remove idle.1 idle.2 .capacity

def removeIfCurrent (idleTimeoutMs r : ℕ) : ActorWorkerSupervisor ι Thread :=
  let resident := supervisor.residents r
  if supervisor.residentOf resident.key ≠ some r ∨ ¬ resident.idleTimer then supervisor
  else supervisor.remove resident.key r (.idle idleTimeoutMs)

def close : ActorWorkerSupervisor ι Thread :=
  let closing := { supervisor with closed := true }.takeSpeculativeWorker.terminateWorker supervisor.speculativeWorker .closed
  { supervisor.actors.foldl (fun closing entry => closing.terminateResident entry.2 .closed) closing with actors := [] }

end Parts

/-! ### Commands -/

section Commands

variable (code : WorkerCode Thread) (supervisor : ActorWorkerSupervisor ι Thread) (h : ι)

/-- `ActorWorker.execute`, up to its first await -/
def executeOn (r w : ℕ) : ActorWorkerSupervisor ι Thread × CallPhase :=
  match (supervisor.workers w).terminalError with
  | some error => (supervisor.setWorker w ((supervisor.workers w).settle h (.error error)), .executing r w)
  | none => (supervisor, .starting r w)

/-- `ResidentActorWorker.execute`, up to its first await. `thrown` is what the creation of a worker throws. -/
def executeResident (r : ℕ) (envelope : ExecutorCommandEnvelope) (thrown : Option String) :
    ActorWorkerSupervisor ι Thread × CallPhase :=
  let resident := supervisor.residents r
  if resident.worker = none ∧ envelope.residentOnly then (supervisor, .finished none .stateRequired)
  else
    let resident := { resident with idleTimer := false }
    match resident.worker, thrown with
    | some w, _ => (supervisor.setResident r resident).executeOn h r w
    | none, some message => (supervisor.setResident r resident, .finished none (.failed "actor_worker_failed" message))
    | none, none =>
      let w := supervisor.nextWorker
      ((supervisor.createWorker code.start).setResident r { resident with worker := some w }).executeOn h r w

/-- The resident gets the speculative worker, if there is one. -/
def register (key : ActorKey) (now : ℕ) : ActorWorkerSupervisor ι Thread :=
  let r := supervisor.nextResident
  { (supervisor.takeSpeculativeWorker.setResident r ⟨key, supervisor.speculativeWorker, false, now⟩) with
    nextResident := r + 1
    actors := supervisor.actors ++ [(key, r)] }

def execute (envelope : ExecutorCommandEnvelope) (thrown : Option String) (now : ℕ) :
    ActorWorkerSupervisor ι Thread × CallPhase :=
  let actor := envelope.command.actor
  if actor.actorType ∉ supervisor.actorTypes.getD [] then
    (supervisor, .finished none (.failed "actor_type_not_found"
      ("actor type " ++ actor.actorType ++ " is not loaded in this customer process")))
  else
    match supervisor.residentOf actor with
    | some r => supervisor.executeResident code h r envelope thrown
    | none =>
      if envelope.residentOnly then (supervisor, .finished none .stateRequired)
      else
        match supervisor.makeRoomForActor with
        | none => (supervisor, .finished none (.failed "resource_exhausted"
            ("actor host already has " ++ toString maxResidentActors ++ " active actor Workers")))
        | some supervisor =>
          (supervisor.register actor now).executeResident code h supervisor.nextResident envelope thrown

/-- `ready()`, up to the wait for the worker -/
def awaitReady (thrown : Option String) : Except String (ActorWorkerSupervisor ι Thread × ℕ) :=
  match supervisor.speculativeWorker, thrown with
  | some w, _ => .ok ({ supervisor with speculativeTimer := false }, w)
  | none, some message => .error message
  | none, none => .ok ({ supervisor.preload code.start with speculativeTimer := false }, supervisor.nextWorker)

/-- A call of `handle` or of `ready`, up to its first await -/
def call (request : SupervisorRequest) (thrown : Option String) (now : ℕ) :
    ActorWorkerSupervisor ι Thread × CallPhase :=
  match request with
  | .ready =>
    if supervisor.closed then (supervisor, .returned (.error "actor supervisor is closed"))
    else
      match supervisor.actorTypes with
      | some actorTypes => (supervisor, .returned (.ok actorTypes))
      | none =>
        match supervisor.awaitReady code thrown with
        | .ok (supervisor, w) => (supervisor, .loading w)
        | .error message => (supervisor, .returned (.error message))
  | .command envelope =>
    if supervisor.closed then
      (supervisor, .finished none (.failed "actor_worker_terminated" "actor supervisor is closed"))
    else
      match supervisor.actorTypes with
      | some _ => supervisor.execute code h envelope thrown now
      | none =>
        match supervisor.awaitReady code thrown with
        | .ok (supervisor, w) => (supervisor, .loading w)
        | .error message => (supervisor, .finished none (.failed "actor_worker_failed" message))

/-- `ready()` after its await -/
def load (request : SupervisorRequest) (w : ℕ) : ActorWorkerSupervisor ι Thread × CallPhase :=
  match (supervisor.workers w).readyPromise, request with
  | .pending, _ => (supervisor, .loading w)
  | .rejected error, .ready => (supervisor, .returned (.error error.message))
  | .rejected error, .command _ => (supervisor, .finished none (.failed "actor_worker_failed" error.message))
  | .resolved actorTypes, request =>
    ({ supervisor with
      actorTypes := some actorTypes
      speculativeTimer := if supervisor.speculativeWorker = some w then true else supervisor.speculativeTimer },
      match request with
      | .ready => .returned (.ok actorTypes)
      | .command _ => .loaded)

/-- `ResidentActorWorker.execute` after its await -/
def complete (r w : ℕ) (answer : Except WorkerError ExecutorReply) (now : ℕ) :
    ActorWorkerSupervisor ι Thread × CallPhase :=
  let resident := { supervisor.residents r with lastCompletedAt := now }
  if resident.worker ≠ some w then
    (supervisor.setResident r resident, .finished (some w)
      (.failed "actor_worker_terminated" "resident actor was terminated during invocation"))
  else
    let reply := match answer with
      | .ok reply => reply
      | .error error => error.reply
    match reply with
    | .failed .. =>
      ((supervisor.terminateWorker (some w) .failed).setResident r { resident with worker := none, idleTimer := true },
        .finished (some w) reply)
    | _ => (supervisor.setResident r { resident with idleTimer := true }, .finished (some w) reply)

end Commands

end ActorWorkerSupervisor

/-! ### The thread -/

/-- The entrypoint of a worker: its runtime begins with the first command. -/
def entrypointCode {I : Type} (moduleUrl : String)
    (findActorDefinition : String → Option (ActorDefinition I)) :
    WorkerCode (Option (ActorRuntime I)) where
  start := none
  respond runtime envelope reply runtime' :=
    let actorType := envelope.command.actor.actorType
    match findActorDefinition actorType with
    | none => reply = .failed "actor_type_not_found" ("actor entrypoint " ++ moduleUrl ++ " does not export " ++ actorType) ∧
        runtime' = runtime
    | some definition =>
      let handled := (runtime.getD ⟨definition, none⟩).handle envelope
      reply = handled.reply ∧ runtime' = some handled.runtime

/-! ### Runs -/

structure SupervisorState (ι Thread : Type) where
  supervisor : ActorWorkerSupervisor ι Thread
  calls : ι → CallPhase
  /-- history: every reply of a worker, with the call it was posted for -/
  replies : List (ℕ × ι × ExecutorReply)

inductive SupervisorEvent (ι : Type) where
  | call (h : ι) (thrown : Option String) (now : ℕ)
  | load (h : ι)
  | resume (h : ι) (thrown : Option String) (now : ℕ)
  | post (h : ι)
  | complete (h : ι) (now : ℕ)
  | announce (w : ℕ) (actorTypes : List String)
  | fail (w : ℕ) (message : String)
  | reply (w : ℕ) (reply : ExecutorReply)
  | preloadRejected (w : ℕ)
  | preloadExpires (w : ℕ)
  | idle (r : ℕ)
  | evict (actor : ActorKey)
  | close

/-- A call that has begun and not ended. -/
def CallPhase.inFlight : CallPhase → Bool
  | .loading _ | .loaded | .starting .. | .executing .. => true
  | .before | .finished .. | .returned _ => false

section Steps

variable {ι Thread : Type} [DecidableEq ι] (code : WorkerCode Thread) (idleTimeoutMs : ℕ) (requests : ι → SupervisorRequest)

/-- The host lets only one command of an actor in at a time. -/
def SupervisorState.Free (s : SupervisorState ι Thread) (h : ι) : Prop :=
  ∀ h' e e', requests h = .command e → requests h' = .command e' →
    e'.command.actor = e.command.actor → (s.calls h').inFlight = false

def SupervisorState.put (s : SupervisorState ι Thread) (h : ι)
    (next : ActorWorkerSupervisor ι Thread × CallPhase) :
    SupervisorState ι Thread := { s with supervisor := next.1, calls := Function.update s.calls h next.2 }

def SupervisorState.set (s : SupervisorState ι Thread) (supervisor : ActorWorkerSupervisor ι Thread) :
    SupervisorState ι Thread :=
  { s with supervisor := supervisor }

inductive SupervisorStep : SupervisorState ι Thread → SupervisorEvent ι → SupervisorState ι Thread → Prop
  | call {s : SupervisorState ι Thread} {h : ι} {thrown : Option String} {now : ℕ} : s.calls h =
      .before → s.Free requests h →
      SupervisorStep s (.call h thrown now) (s.put h (s.supervisor.call code h (requests h) thrown now))
  | load {s : SupervisorState ι Thread} {h : ι} {w : ℕ} : s.calls h = .loading w →
      SupervisorStep s (.load h) (s.put h (s.supervisor.load (requests h) w))
  | resume {s : SupervisorState ι Thread} {h : ι} {envelope : ExecutorCommandEnvelope} {thrown : Option String} {now : ℕ} :
      s.calls h = .loaded → requests h = .command envelope →
      SupervisorStep s (.resume h thrown now) (s.put h (s.supervisor.execute code h envelope thrown now))
  | post {s : SupervisorState ι Thread} {h : ι} {r w : ℕ} : s.calls h = .starting r w →
      (s.supervisor.workers w).readyPromise ≠ .pending →
      SupervisorStep s (.post h)
        (s.put h (s.supervisor.setWorker w ((s.supervisor.workers w).post h), .executing r w))
  | complete {s : SupervisorState ι Thread} {h : ι} {r w : ℕ} {answer : Except WorkerError ExecutorReply} {now : ℕ} :
      s.calls h = .executing r w → (s.supervisor.workers w).settled h = some answer →
      SupervisorStep s (.complete h now) (s.put h (s.supervisor.complete r w answer now))
  | announce {s : SupervisorState ι Thread} {w : ℕ} {actorTypes : List String} : w < s.supervisor.nextWorker →
      SupervisorStep s (.announce w actorTypes)
        (s.set (s.supervisor.setWorker w ((s.supervisor.workers w).announce actorTypes)))
  /-- The thread ends by itself, or says before `ready` that it failed. -/
  | fail {s : SupervisorState ι Thread} {w : ℕ} {message : String} : w < s.supervisor.nextWorker →
      SupervisorStep s (.fail w message) (s.set (s.supervisor.setWorker w ((s.supervisor.workers w).fail (.failed message))))
  | reply {s : SupervisorState ι Thread} {w : ℕ} {h : ι} {envelope : ExecutorCommandEnvelope} {reply : ExecutorReply}
      {thread : Thread} : (s.supervisor.workers w).running = some h → requests h = .command envelope →
      code.respond (s.supervisor.workers w).thread envelope reply thread →
      SupervisorStep s (.reply w reply)
        { s.set (s.supervisor.setWorker w ((s.supervisor.workers w).reply reply thread)) with
          replies := s.replies ++ [(w, h, reply)] }
  | preloadRejected {s : SupervisorState ι Thread} {w : ℕ} {error : WorkerError} :
      (s.supervisor.workers w).readyPromise = .rejected error →
      SupervisorStep s (.preloadRejected w) (s.set (s.supervisor.discardPreload w))
  | preloadExpires {s : SupervisorState ι Thread} {w : ℕ} : s.supervisor.speculativeTimer = true →
      SupervisorStep s (.preloadExpires w) (s.set (s.supervisor.discardPreload w))
  | idle {s : SupervisorState ι Thread} {r : ℕ} : (s.supervisor.residents r).idleTimer = true →
      SupervisorStep s (.idle r) (s.set (s.supervisor.removeIfCurrent idleTimeoutMs r))
  | evict {s : SupervisorState ι Thread} {actor : ActorKey} : s.supervisor.closed = false →
      SupervisorStep s (.evict actor) (s.set (s.supervisor.evict actor))
  | close {s : SupervisorState ι Thread} : SupervisorStep s .close (s.set s.supervisor.close)

/-- The constructor preloads a first worker. -/
def ActorWorkerSupervisor.new : ActorWorkerSupervisor ι Thread :=
  ActorWorkerSupervisor.preload ⟨false, none, [], none, false, fun _ => ⟨⟨"", "", ""⟩, none, false, 0⟩, 0, fun _ => .new code.start, 0⟩
    code.start

def workerSupervisor : System (SupervisorState ι Thread) (SupervisorEvent ι) where
  init s := s = ⟨.new code, fun _ => .before, []⟩
  step := SupervisorStep code idleTimeoutMs requests

end Steps

end LDO
