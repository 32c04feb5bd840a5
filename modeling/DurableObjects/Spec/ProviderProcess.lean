import DurableObjects.Lib.Runs
import DurableObjects.Spec.Connection
import DurableObjects.Spec.SessionStream

/-! The pool of persistent provider processes. A process is leased to one exchange at a time,
which writes a command to its stdin and reads a line from its stdout, byte by byte where it
may be interrupted. The pool is `deadpool`: an idle process is handed out if `recycle` lets it,
else it is dropped, and a new one may be created at any time. The provider answers every
command it has read with one line, in order, and may exit at any moment. -/

namespace LDO

open Json

def maxProviderOutputBytes : ℕ := 1024 * 1024

inductive ProviderResponse (Reply : Type) where
  | success (result : Reply)
  | failure (error : String)

/-- The fields are tagged by `status`; `reply` reads the type the caller asked for. -/
def ProviderResponse.ofJson {Reply : Type} (reply : Value → Option Reply) :
    Value → Option (ProviderResponse Reply)
  | .obj fields => do
    let status ← (LDO.field fields "status").bind asString
    if status = "success" then return .success (← (LDO.field fields "result").bind reply)
    else if status = "failure" then return .failure (← (LDO.field fields "error").bind asString)
    else none
  | _ => none

/-- A `ProviderCommand` and the type its reply is read as. -/
structure ProviderRequest (Reply : Type) where
  command : Value
  reply : Value → Option Reply

namespace ProviderRequest

variable {Reply : Type} (request : ProviderRequest Reply)

def document : List UInt8 := (toVec request.command).data.toList

def decode (serde : SerdeJson) (response : List UInt8) : Option (ProviderResponse Reply) :=
  (fromSlice serde response.toByteArray).bind (ProviderResponse.ofJson request.reply)

end ProviderRequest

/-! ### One process -/

/-- `read_until` behind `take` has what it asks for. -/
def responseRead (response : List UInt8) : Bool :=
  response.getLast? == some 10 || response.length == maxProviderOutputBytes + 1

/-- The checks of `read_response` -/
def checkResponse (response : List UInt8) : Result Unit := do
  ensure (response.length ≤ maxProviderOutputBytes)
    ("provider stdout exceeds " ++ toString maxProviderOutputBytes ++ " bytes")
  ensure (response.getLast? = some 10) "provider disconnected before replying; outcome may be unknown"

/-- `read_response` on what the process will have written: the response and what it leaves. -/
def readResponse (stdout : List UInt8) : Result (List UInt8 × List UInt8) := do
  let (response, rest) := readUntilNewline (maxProviderOutputBytes + 1) stdout
  checkResponse response
  return (response, rest)

structure ProviderProcess (ι : Type) where
  busy : Bool
  exited : Bool
  /-- Written by the host, not yet read by the provider. -/
  stdin : List UInt8
  /-- Written by the provider, not yet read by the host. -/
  stdout : List UInt8
  /-- What is left of the line the provider is writing. -/
  writing : List UInt8
  /-- history: the exchanges that sent a command, the commands read, the lines begun -/
  users : List ι
  commands : List (List UInt8)
  lines : List (List UInt8)

/-- `ProviderProcessManager::create` -/
def ProviderProcess.create {ι : Type} : ProviderProcess ι := ⟨false, false, [], [], [], [], [], []⟩

inductive ProcessPlace (ι : Type) where
  | absent
  | idle
  | leased (exchange : ι)
  /-- Taken out of the pool. -/
  | gone

/-! ### One exchange -/

inductive ExchangeOutcome (Reply : Type) where
  /-- The provider's value or its error. -/
  | replied (response : ProviderResponse Reply)
  | error (e : Error)
  /-- The future was dropped. -/
  | dropped

/-- What the caller is given. -/
def ExchangeOutcome.result {Reply : Type} : ExchangeOutcome Reply → Option (Result Reply)
  | .replied (.success result) => some (.ok result)
  | .replied (.failure message) => some (.error (.new ("sandbox provider failed: " ++ message)))
  | .error e => some (.error e)
  | .dropped => none

inductive ExchangePhase (Reply : Type) where
  | before
  /-- In `write_all`, with `rest` still to write. -/
  | writing (process : ℕ) (rest : List UInt8)
  /-- In `read_response`, with `response` read. -/
  | reading (process : ℕ) (response : List UInt8)
  /-- `used` is the process whose pipes it touched. -/
  | finished (used : Option ℕ) (outcome : ExchangeOutcome Reply)

namespace ExchangePhase

variable {Reply : Type}

/-- The process that the exchange holds. -/
def held : ExchangePhase Reply → Option ℕ
  | .before => none
  | .writing p _ => some p
  | .reading p _ => some p
  | .finished _ _ => none

/-- The process that the exchange has sent a command to, or begun to. -/
def used : ExchangePhase Reply → Option ℕ
  | .before => none
  | .writing p _ => some p
  | .reading p _ => some p
  | .finished used _ => used

end ExchangePhase

structure ProviderPool (ι Reply : Type) where
  exchanges : ι → ExchangePhase Reply
  processes : ℕ → ProviderProcess ι
  places : ℕ → ProcessPlace ι

namespace ProviderPool

variable {ι Reply : Type} [DecidableEq ι] (s : ProviderPool ι Reply)

def setProcess (p : ℕ) (process : ProviderProcess ι) : ProviderPool ι Reply :=
  { s with processes := Function.update s.processes p process }

def setPhase (e : ι) (phase : ExchangePhase Reply) : ProviderPool ι Reply :=
  { s with exchanges := Function.update s.exchanges e phase }

def setPlace (p : ℕ) (place : ProcessPlace ι) : ProviderPool ι Reply :=
  { s with places := Function.update s.places p place }

/-- `exchange` from the lease of `p` to the first byte -/
def start (document : List UInt8) (e : ι) (p : ℕ) : ProviderPool ι Reply :=
  if document.length ≤ maxProviderOutputBytes then
    let process := s.processes p
    ((s.setProcess p { process with busy := true, users := process.users ++ [e] }).setPlace p (.leased e)).setPhase e
      (.writing p (document ++ [10]))
  else (s.setPlace p .idle).setPhase e (.finished none (.error (.new "sandbox provider command is too large")))

/-- The exchange ends, and `ProcessLease::drop` gives the process back unless it is busy. -/
def release (e : ι) (p : ℕ) (outcome : ExchangeOutcome Reply) : ProviderPool ι Reply :=
  (s.setPlace p (if (s.processes p).busy then .gone else .idle)).setPhase e (.finished (some p) outcome)

/-- `exchange` from the last byte on -/
def settle (serde : SerdeJson) (request : ProviderRequest Reply) (e : ι) (p : ℕ) (response : List UInt8) :
    ProviderPool ι Reply :=
  match checkResponse response with
  | .error error => s.release e p (.error error)
  | .ok () =>
    match request.decode serde response with
    | none => s.release e p (.error (.new "decode provider response"))
    | some response => (s.setProcess p { s.processes p with busy := false }).release e p (.replied response)

end ProviderPool

inductive PoolEvent (ι : Type) where
  | acquire (e : ι) (p : ℕ)
  | unacquired (e : ι)
  | discard (p : ℕ)
  | write (e : ι)
  | writeFails (e : ι)
  | read (e : ι)
  | readFails (e : ι)
  | settle (e : ι)
  | cancel (e : ι)
  | take (p : ℕ)
  | answer (p : ℕ)
  | emit (p : ℕ)
  | exit (p : ℕ)

section Steps

variable {ι Reply : Type} [DecidableEq ι] (serde : SerdeJson) (requests : ι → ProviderRequest Reply)

inductive PoolStep : ProviderPool ι Reply → PoolEvent ι → ProviderPool ι Reply → Prop
  /-- `recycle` lets an idle process pass. -/
  | recycle {s : ProviderPool ι Reply} {e : ι} {p : ℕ} : s.exchanges e = .before → s.places p = .idle →
      (s.processes p).busy = false → (s.processes p).exited = false →
      PoolStep s (.acquire e p) (s.start (requests e).document e p)
  | create {s : ProviderPool ι Reply} {e : ι} {p : ℕ} : s.exchanges e = .before → s.places p = .absent →
      PoolStep s (.acquire e p) ((s.setProcess p .create).start (requests e).document e p)
  /-- No process in time, or none that starts. -/
  | unacquired {s : ProviderPool ι Reply} {e : ι} {error : String} : s.exchanges e = .before →
      PoolStep s (.unacquired e)
        (s.setPhase e (.finished none (.error (.new ("acquire sandbox provider process: " ++ error)))))
  /-- `recycle` refuses, or `try_wait` fails. -/
  | discard {s : ProviderPool ι Reply} {p : ℕ} : s.places p = .idle →
      PoolStep s (.discard p) (s.setPlace p .gone)
  | write {s : ProviderPool ι Reply} {e : ι} {p : ℕ} {chunk rest : List UInt8} : chunk ≠ [] →
      s.exchanges e = .writing p (chunk ++ rest) → PoolStep s (.write e)
        ((s.setProcess p { s.processes p with stdin := (s.processes p).stdin ++ chunk }).setPhase e
          (if rest = [] then .reading p [] else .writing p rest))
  | writeFails {s : ProviderPool ι Reply} {e : ι} {p : ℕ} {rest : List UInt8} : s.exchanges e =
      .writing p rest →
      PoolStep s (.writeFails e) (s.release e p (.error (.new "write provider command")))
  | read {s : ProviderPool ι Reply} {e : ι} {p : ℕ} {response : List UInt8} {b : UInt8} {bs : List UInt8} :
      s.exchanges e = .reading p response → responseRead response = false → (s.processes p).stdout = b :: bs →
      PoolStep s (.read e)
        ((s.setProcess p { s.processes p with stdout := bs }).setPhase e (.reading p (response ++ [b])))
  | readFails {s : ProviderPool ι Reply} {e : ι} {p : ℕ} {response : List UInt8} {error : Error} :
      s.exchanges e = .reading p response → PoolStep s (.readFails e) (s.release e p (.error error))
  /-- The last byte has come, or the end of the stream. -/
  | settle {s : ProviderPool ι Reply} {e : ι} {p : ℕ} {response : List UInt8} : s.exchanges e =
      .reading p response →
      (responseRead response = true ∨ (s.processes p).exited = true ∧ (s.processes p).stdout = []) →
      PoolStep s (.settle e) (s.settle serde (requests e) e p response)
  /-- The caller is gone, or its timeout has passed. -/
  | cancel {s : ProviderPool ι Reply} {e : ι} {p : ℕ} : (s.exchanges e).held = some p →
      PoolStep s (.cancel e) (s.release e p .dropped)
  | cancelWaiting {s : ProviderPool ι Reply} {e : ι} : s.exchanges e = .before →
      PoolStep s (.cancel e) (s.setPhase e (.finished none .dropped))
  /-- The provider reads a command. -/
  | take {s : ProviderPool ι Reply} {p : ℕ} {command rest : List UInt8} : (s.processes p).exited = false →
      (s.processes p).stdin = command ++ 10 :: rest → 10 ∉ command → PoolStep s (.take p)
        (s.setProcess p { s.processes p with stdin := rest, commands := (s.processes p).commands ++ [command] })
  /-- It begins the next line. -/
  | answer {s : ProviderPool ι Reply} {p : ℕ} {line : List UInt8} : (s.processes p).exited = false →
      (s.processes p).lines.length < (s.processes p).commands.length → (s.processes p).writing = [] →
      10 ∉ line → PoolStep s (.answer p)
        (s.setProcess p { s.processes p with writing := line ++ [10], lines := (s.processes p).lines ++ [line] })
  | emit {s : ProviderPool ι Reply} {p : ℕ} {chunk rest : List UInt8} : (s.processes p).exited = false →
      (s.processes p).writing = chunk ++ rest → PoolStep s (.emit p)
        (s.setProcess p { s.processes p with writing := rest, stdout := (s.processes p).stdout ++ chunk })
  | exit {s : ProviderPool ι Reply} {p : ℕ} :
      PoolStep s (.exit p) (s.setProcess p { s.processes p with exited := true })

def providerPool : System (ProviderPool ι Reply) (PoolEvent ι) where
  init s := s = ⟨fun _ => .before, fun _ => .create, fun _ => .absent⟩
  step := PoolStep serde requests

end Steps

/-! ### The provider's side -/

def maxCommandBytes : ℕ := 1024 * 1024

/-- `checkSize` does not throw. -/
def checkSize (document : List Char) : Bool := byteLength document ≤ maxCommandBytes

/-- `commandDocuments` of a persistent provider -/
structure CommandReader where
  decoder : Utf8.Decoder
  buffer : List Char
  /-- the documents that were yielded -/
  yielded : List (List Char)
  failed : Bool

namespace CommandReader

def initial : CommandReader := ⟨.idle, [], [], false⟩

/-- The body of the loop over the chunks: it throws at the first document that is too large,
or when what is left is. -/
def accept (s : CommandReader) (chunk : List Char) : CommandReader :=
  let taken := takeDocuments (s.buffer ++ chunk)
  { s with
    buffer := taken.2
    yielded := s.yielded ++ taken.1.takeWhile checkSize
    failed := !(taken.1.all checkSize && checkSize taken.2) }

/-- A chunk that completes no character is not emitted. -/
def receive (s : CommandReader) (chunk : List UInt8) : CommandReader :=
  if s.failed then s
  else
    let decoded := s.decoder.feed chunk
    if decoded.2 = [] then { s with decoder := decoded.1 } else accept { s with decoder := decoded.1 } decoded.2

def receiveAll (chunks : List (List UInt8)) : CommandReader := chunks.foldl receive initial

end CommandReader

/-- What `runProviderCommands` answers a command with. -/
inductive ProviderReply where
  | success (result : Option JsonValue)
  | failure (error : Units)

def ProviderReply.toJs : ProviderReply → JsTree
  | .success result => .obj ((ascii "status", .str (ascii "success")) :: result.toList.map fun r => (ascii "result", r.tree))
  | .failure error => .obj [(ascii "status", .str (ascii "failure")), (ascii "error", .str error)]

/-- The line it writes, unless it throws. -/
def ProviderReply.write (reply : ProviderReply) : Option (List UInt8) :=
  let encoded := jsWriter.print reply.toJs
  if maxCommandBytes ≤ byteLength encoded then none else some (utf8Bytes (encoded ++ ['\n']))

end LDO
