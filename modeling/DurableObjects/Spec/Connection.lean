import Mathlib.Data.List.DropRight
import DurableObjects.Spec.Protocol

/-! The Rust side of an actor session: reading a client message from the socket. Both
enums are internally tagged; their array form, which no sender writes, is left out. -/

namespace LDO

inductive ExecutorReply where
  | stateRequired
  | invoked (result state : Value) (effects : List ActorSocketEffect)
  | websocketHandled (state : Value) (effects : List ActorSocketEffect)
  | failed (code message : String)
  | evicted
  deriving DecidableEq

inductive ActorExecutorClientMessage where
  | attach (protocol : ℕ) (actorTypes : List String)
  | reply (messageId : ℕ) (reply : ExecutorReply)
  deriving DecidableEq

/-! ### Fields -/

/-- `#[serde(default)]`: a field that may be missing. -/
def fieldOr (fields : List (String × Value)) (name : String) (default : Value) : Option Value :=
  match fields.filter fun f => f.1 = name with
  | [] => some default
  | [f] => some f.2
  | _ => none

def asBounded (bound : ℕ) (v : Value) : Option ℕ := (asU64 v).filter fun n => n ≤ bound

def asU16 : Value → Option ℕ := asBounded 65535
def asU32 : Value → Option ℕ := asBounded 4294967295

def asList {α : Type} (item : Value → Option α) : Value → Option (List α)
  | .arr vs => vs.mapM item
  | _ => none

/-- The fields of an internally tagged enum, with its tag. -/
def asTagged : Value → Option (String × List (String × Value))
  | .obj fields => (field fields "type").bind asString |>.map (·, fields)
  | _ => none

def ActorSocketMessage.ofJson (v : Value) : Option ActorSocketMessage := do
  let (tag, fields) ← asTagged v
  let data ← (field fields "data").bind asString
  if tag = "text" then some (.text data) else if tag = "binary" then some (.binary data) else none

namespace ActorSocketEffect

def ofFields (tag : String) (fields : List (String × Value)) : Option ActorSocketEffect :=
  let connectionId := (field fields "connection_id").bind asString
  let message := (field fields "message").bind ActorSocketMessage.ofJson
  let code := (field fields "code").bind asU16
  let reason := (field fields "reason").bind asString
  let tags := (field fields "tags").bind (asList asString)
  if tag = "send" then do return .send (← connectionId) (← message)
  else if tag = "broadcast" then do
    return .broadcast (← message) (← (field fields "except_connection_ids").bind (asList asString)) (← tags)
  else if tag = "close" then do return .close (← connectionId) (← code) (← reason)
  else if tag = "reject" then do return .reject (← connectionId) (← code) (← reason)
  else if tag = "set_metadata" then do return .setMetadata (← connectionId) (toValue (← field fields "metadata"))
  else if tag = "set_tags" then do return .setTags (← connectionId) (← tags)
  else none

def ofJson (v : Value) : Option ActorSocketEffect := do
  let (tag, fields) ← asTagged v
  ofFields tag fields

end ActorSocketEffect

namespace ExecutorReply

def ofFields (tag : String) (fields : List (String × Value)) : Option ExecutorReply :=
  if tag = "state_required" then some .stateRequired
  else if tag = "invoked" then do
    let effects ← (fieldOr fields "effects" (.arr [])).bind (asList ActorSocketEffect.ofJson)
    return .invoked (toValue (← field fields "result")) (toValue (← field fields "state")) effects
  else if tag = "websocket_handled" then do
    let effects ← (field fields "effects").bind (asList ActorSocketEffect.ofJson)
    return .websocketHandled (toValue (← field fields "state")) effects
  else if tag = "failed" then do
    return .failed (← (field fields "code").bind asString) (← (field fields "message").bind asString)
  else if tag = "evicted" then some .evicted
  else none

def ofJson (v : Value) : Option ExecutorReply := do
  let (tag, fields) ← asTagged v
  ofFields tag fields

end ExecutorReply

def ActorExecutorClientMessage.ofJson (v : Value) : Option ActorExecutorClientMessage := do
  let (tag, fields) ← asTagged v
  if tag = "attach" then
    return .attach (← (field fields "protocol").bind asU32) (← (field fields "actor_types").bind (asList asString))
  else if tag = "reply" then
    return .reply (← (field fields "message_id").bind asU64) (← (field fields "reply").bind ExecutorReply.ofJson)
  else none

/-! ### Reading from the socket -/

def maxActorExecutorMessageBytes : ℕ := 32 * 1024 * 1024

/-- `take(limit).read_until(b'\n')`: the bytes read, and those left in the stream. -/
def readUntilNewline : ℕ → List UInt8 → List UInt8 × List UInt8
  | _, [] => ([], [])
  | limit, b :: bs =>
    if limit = 0 then ([], b :: bs)
    else if b = 10 then ([b], bs)
    else
      let (document, rest) := readUntilNewline (limit - 1) bs
      (b :: document, rest)

def isAsciiWhitespace (b : UInt8) : Bool := b = 32 || b = 9 || b = 10 || b = 12 || b = 13

def trimAsciiEnd (document : List UInt8) : List UInt8 := document.rdropWhile isAsciiWhitespace

/-- `serde_json`'s own message is left out of the error. -/
def readClientMessage (serde : SerdeJson) (stream : List UInt8) :
    Result (Option (ActorExecutorClientMessage × List UInt8)) := do
  let (document, rest) := readUntilNewline (maxActorExecutorMessageBytes + 1) stream
  if document = [] then pure none
  else do
    ensure (document.length ≤ maxActorExecutorMessageBytes)
      ("customer actor executor message exceeds " ++ toString maxActorExecutorMessageBytes ++ " bytes")
    let message ← orContext ((fromSlice serde (trimAsciiEnd document).toByteArray).bind
      ActorExecutorClientMessage.ofJson) "decode customer actor executor message"
    pure (some (message, rest))

end LDO
