import DurableObjects.Lib.Runs
import DurableObjects.Spec.Connection

/-! The stream between `JsActorExecutor` and the customer's process. Exchanges share one socket:
each files a sender for its reply under a fresh number, waits for the writer, writes its
frame in as many pieces as the socket takes, and waits for the reply. A future may be dropped at
each of these waits. The process reads the stream line by line and answers every command it
has read once, in any order. A host does not live to see 2^64 exchanges, so numbers do not
wrap. -/

namespace LDO

def commandMessage (messageId : ℕ) (envelope : Value) : Value :=
  .obj [("type", .str "command"), ("message_id", .num (.ofNat messageId)), ("command", envelope)]

def commandDocument (messageId : ℕ) (envelope : Value) : List UInt8 :=
  (toVec (commandMessage messageId envelope)).data.toList

/-- What `write_server_message` hands to `write_all` -/
def commandFrame (messageId : ℕ) (envelope : Value) : List UInt8 := commandDocument messageId envelope ++ [10]

/-- The number that the process reads in a line, if the line is a command to it. -/
structure CommandParser where
  messageId : List UInt8 → Option ℕ
  reads : ∀ {m n : ℕ} {envelope : Value}, messageId (commandDocument m envelope) = some n → n = m

inductive SendOutcome (Reply : Type) where
  | replied (reply : Reply)
  /-- `ActorExecutorMessageTooLarge`, answered without the process -/
  | tooLarge
  | error (e : Error)
  | dropped

inductive SendPhase (Reply : Type) where
  | before
  /-- Waits for the writer. -/
  | waiting (messageId : ℕ)
  /-- Holds the writer, with `rest` still to write. -/
  | writing (messageId : ℕ) (rest : List UInt8)
  /-- Waits for the reply. -/
  | awaiting (messageId : ℕ)
  | finished (messageId : ℕ) (outcome : SendOutcome Reply)

def SendPhase.messageId {Reply : Type} : SendPhase Reply → Option ℕ
  | .before => none
  | .waiting m => some m
  | .writing m _ => some m
  | .awaiting m => some m
  | .finished m _ => some m

/-- How `read_executor_messages` ended. -/
inductive ReaderEnd where
  | unknownMessage (messageId : ℕ)
  /-- The stream ended or could not be read. -/
  | disconnected
  | aborted
  deriving DecidableEq

/-- How far `close` has come. -/
inductive Closing where
  | no
  | shutDown
  | cleared
  deriving DecidableEq

structure ExecutorStream (ι Reply : Type) where
  exchanges : ι → SendPhase Reply
  nextMessageId : ℕ
  /-- The numbers under which a sender is filed. -/
  pending : ℕ → Bool
  /-- What was sent to the exchange with that number. -/
  delivered : ℕ → Option Reply
  /-- The exchange that holds the writer. -/
  writer : Option ι
  /-- All bytes the socket has taken. -/
  written : List UInt8
  /-- The socket takes no more bytes. -/
  broken : Bool
  closing : Closing
  reader : Option ReaderEnd
  /-- The lines the process has read. -/
  linesRead : ℕ
  /-- The commands it has read and not answered. -/
  owed : List ℕ
  /-- Its replies on their way. -/
  inbox : List (ℕ × Reply)
  /-- history: every reply it sent -/
  answers : List (ℕ × Reply)

/-- The complete lines of a stream. -/
def completeLines (bytes : List UInt8) : List (List UInt8) := (bytes.splitOn 10).dropLast

namespace ExecutorStream

variable {ι Reply : Type} [DecidableEq ι]

def initial : ExecutorStream ι Reply :=
  ⟨fun _ => .before, 1, fun _ => false, fun _ => none, none, [], false, .no, none, 0, [], [], []⟩

variable (s : ExecutorStream ι Reply)

def setPhase (e : ι) (phase : SendPhase Reply) : ExecutorStream ι Reply :=
  { s with exchanges := Function.update s.exchanges e phase }

/-- `remove_pending` -/
def removePending (m : ℕ) : ExecutorStream ι Reply := { s with pending := Function.update s.pending m false }

/-- The guard of the writer is dropped, if `e` has it. -/
def unlock (e : ι) : ExecutorStream ι Reply :=
  { s with writer := if s.writer = some e then none else s.writer }

def disconnect : ExecutorStream ι Reply := { s with pending := fun _ => false }

/-- `exchange` up to the wait for the writer -/
def begin (e : ι) : ExecutorStream ι Reply :=
  { s.setPhase e (.waiting s.nextMessageId) with
    nextMessageId := s.nextMessageId + 1
    pending := Function.update s.pending s.nextMessageId true }

/-- With the writer: the size is checked before the first byte. -/
def acquire (envelope : Value) (e : ι) (m : ℕ) : ExecutorStream ι Reply :=
  let bytes := commandFrame m envelope
  if maxActorExecutorMessageBytes < bytes.length then (s.setPhase e (.finished m .tooLarge)).removePending m
  else { s.setPhase e (.writing m bytes) with writer := some e }

/-- The socket takes `chunk`; with the last byte the writer is free again. -/
def write (e : ι) (m : ℕ) (chunk rest : List UInt8) : ExecutorStream ι Reply :=
  let s := { s with written := s.written ++ chunk }
  if rest = [] then (s.setPhase e (.awaiting m)).unlock e else s.setPhase e (.writing m rest)

/-- `deliver`, and the end of the reader if nobody is filed under the number -/
def deliver (m : ℕ) (reply : Reply) (inbox : List (ℕ × Reply)) : ExecutorStream ι Reply :=
  if s.pending m then
    { s.removePending m with inbox := inbox, delivered := Function.update s.delivered m (some reply) }
  else { s.disconnect with inbox := inbox, reader := some (.unknownMessage m) }

end ExecutorStream

inductive StreamEvent (ι Reply : Type) where
  | begin (e : ι)
  | acquire (e : ι)
  | write (e : ι)
  | writeFails (e : ι)
  | breaks
  | receive (e : ι)
  | orphaned (e : ι)
  | drop (e : ι)
  | readCommand
  | answer (m : ℕ) (reply : Reply)
  | deliver
  | readerEnds
  | shutDown
  | clear
  | abort

section Steps

variable {ι Reply : Type} [DecidableEq ι] (parser : CommandParser) (envelopes : ι → Value)

inductive StreamStep : ExecutorStream ι Reply → StreamEvent ι Reply → ExecutorStream ι Reply → Prop
  | begin {s : ExecutorStream ι Reply} {e : ι} : s.exchanges e = .before → StreamStep s (.begin e) (s.begin e)
  | acquire {s : ExecutorStream ι Reply} {e : ι} {m : ℕ} : s.exchanges e = .waiting m → s.writer = none →
      StreamStep s (.acquire e) (s.acquire (envelopes e) e m)
  | write {s : ExecutorStream ι Reply} {e : ι} {m : ℕ} {chunk rest : List UInt8} : s.broken = false →
      chunk ≠ [] →
      s.exchanges e = .writing m (chunk ++ rest) → StreamStep s (.write e) (s.write e m chunk rest)
  /-- `write_all` fails. -/
  | writeFails {s : ExecutorStream ι Reply} {e : ι} {m : ℕ} {rest : List UInt8} : s.broken = true →
      s.exchanges e = .writing m rest → StreamStep s (.writeFails e)
        (((s.setPhase e (.finished m (.error (.new "send command to customer actor executor")))).unlock e).removePending m)
  /-- The other side is gone. -/
  | breaks {s : ExecutorStream ι Reply} : StreamStep s .breaks { s with broken := true }
  | receive {s : ExecutorStream ι Reply} {e : ι} {m : ℕ} {reply : Reply} : s.exchanges e = .awaiting m →
      s.delivered m = some reply → StreamStep s (.receive e) (s.setPhase e (.finished m (.replied reply)))
  /-- The sender was dropped with the map's entry. -/
  | orphaned {s : ExecutorStream ι Reply} {e : ι} {m : ℕ} : s.exchanges e = .awaiting m → s.pending m = false →
      s.delivered m = none → StreamStep s (.orphaned e)
        (s.setPhase e (.finished m (.error (.new "customer actor executor disconnected before replying"))))
  /-- The future of the exchange is dropped; its entry stays. -/
  | dropWaiting {s : ExecutorStream ι Reply} {e : ι} {m : ℕ} : s.exchanges e = .waiting m →
      StreamStep s (.drop e) (s.setPhase e (.finished m .dropped))
  | dropWriting {s : ExecutorStream ι Reply} {e : ι} {m : ℕ} {rest : List UInt8} : s.exchanges e =
      .writing m rest → StreamStep s (.drop e) ((s.setPhase e (.finished m .dropped)).unlock e)
  | dropAwaiting {s : ExecutorStream ι Reply} {e : ι} {m : ℕ} : s.exchanges e = .awaiting m →
      StreamStep s (.drop e) (s.setPhase e (.finished m .dropped))
  /-- The process reads the next line, a command. -/
  | readCommand {s : ExecutorStream ι Reply} {line : List UInt8} {m : ℕ} : (completeLines s.written)[s.linesRead]? = some line →
      parser.messageId line = some m →
      StreamStep s .readCommand { s with linesRead := s.linesRead + 1, owed := s.owed ++ [m] }
  | answer {s : ExecutorStream ι Reply} {m : ℕ} {reply : Reply} : m ∈ s.owed → StreamStep s (.answer m reply)
      { s with owed := s.owed.erase m, inbox := s.inbox ++ [(m, reply)], answers := s.answers ++ [(m, reply)] }
  | deliver {s : ExecutorStream ι Reply} {m : ℕ} {reply : Reply} {inbox : List (ℕ × Reply)} : s.reader = none →
      s.inbox = (m, reply) :: inbox → StreamStep s .deliver (s.deliver m reply inbox)
  | readerEnds {s : ExecutorStream ι Reply} : s.reader = none →
      StreamStep s .readerEnds { s.disconnect with reader := some .disconnected }
  /-- `close`, step by step, and the abort of the reader. -/
  | shutDown {s : ExecutorStream ι Reply} : s.closing = .no → s.writer = none →
      StreamStep s .shutDown { s with closing := .shutDown, broken := true }
  | clear {s : ExecutorStream ι Reply} : s.closing = .shutDown →
      StreamStep s .clear { s.disconnect with closing := .cleared }
  | abort {s : ExecutorStream ι Reply} : s.closing = .cleared → s.reader = none →
      StreamStep s .abort { s with reader := some .aborted }

def executorStream : System (ExecutorStream ι Reply) (StreamEvent ι Reply) where
  init s := s = .initial
  step := StreamStep parser envelopes

end Steps

end LDO
