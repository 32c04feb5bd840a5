import DurableObjects.Spec.Identity
import DurableObjects.Spec.Value

/-! What a caller asks of an actor, what the executor makes of it, and the socket
effects an actor may return. -/

namespace LDO

def maxMethodBytes : ℕ := 128

structure ActorInvocation where
  requestId : String
  actor : ActorKey
  method : String
  args : List Value
  deriving DecidableEq

def ActorInvocation.validate (invocation : ActorInvocation) : Result Unit := do
  ensure (invocation.requestId ≠ "") "request ID must not be empty"
  ensure (invocation.requestId.utf8ByteSize ≤ 255) "request ID must be at most 255 bytes"
  invocation.actor.validate
  validateComponent "actor method" invocation.method maxMethodBytes

structure ActorInvocationFailure where
  code : String
  message : String
  deriving DecidableEq

def ActorInvocationFailure.outcomeUnknownAfterExecution : ActorInvocationFailure where
  code := "outcome_unknown"
  message := "actor execution completed, but its durable publication outcome could not be confirmed"

structure ActorSocketConnection where
  id : String
  metadata : Value
  tags : List String
  deriving DecidableEq

inductive ActorSocketMessage where
  | text (data : String)
  | binary (data : String)
  deriving DecidableEq

inductive ActorSocketEvent where
  | connect (connection : ActorSocketConnection)
  | message (connectionId : String) (message : ActorSocketMessage)
  | disconnect (connection : ActorSocketConnection) (code : ℕ) (reason : String) (wasClean : Bool)
  deriving DecidableEq

inductive ActorSocketEffect where
  | send (connectionId : String) (message : ActorSocketMessage)
  | broadcast (message : ActorSocketMessage) (exceptConnectionIds tags : List String)
  | close (connectionId : String) (code : ℕ) (reason : String)
  | reject (connectionId : String) (code : ℕ) (reason : String)
  | setMetadata (connectionId : String) (metadata : Value)
  | setTags (connectionId : String) (tags : List String)
  deriving DecidableEq

inductive ActorExecutionResult where
  | completed (result : Value) (effects : List ActorSocketEffect)
  | failed (failure : ActorInvocationFailure)
  | reroute
  | hostUnavailable
  deriving DecidableEq

/-- The state field is always filled by `invoke_with_state`. -/
structure ActorMethodInvocation where
  requestId : String
  actor : ActorKey
  method : String
  args : List Value
  connections : List ActorSocketConnection
  deriving DecidableEq

structure ActorSocketInvocation where
  requestId : String
  actor : ActorKey
  event : ActorSocketEvent
  connections : List ActorSocketConnection
  deriving DecidableEq

inductive ActorMethodOutcome where
  | completed (result state : Value) (effects : List ActorSocketEffect)
  | failed (failure : ActorInvocationFailure)
  deriving DecidableEq

inductive ActorSocketOutcome where
  | handled (state : Value) (effects : List ActorSocketEffect)
  | failed (failure : ActorInvocationFailure)
  deriving DecidableEq

/-! ### Limits on socket effects -/

def maxSocketMetadataBytes : ℕ := 64 * 1024
def maxSocketMessageBytes : ℕ := 16 * 1024 * 1024
def maxSocketConnectionIdBytes : ℕ := 128
def maxSocketTags : ℕ := 128
def maxSocketTagCharacters : ℕ := 256
def maxSocketTagBytes : ℕ := 8 * 1024
def maxSocketCloseReasonBytes : ℕ := 123

def base64Value (c : Char) : Option ℕ :=
  let n := c.toNat
  if 65 ≤ n ∧ n ≤ 90 then some (n - 65)
  else if 97 ≤ n ∧ n ≤ 122 then some (n - 71)
  else if 48 ≤ n ∧ n ≤ 57 then some (n + 4)
  else if c = '+' then some 62
  else if c = '/' then some 63
  else none

/-- The number of bytes `STANDARD.decode` gives: padding is required and unused
bits are zero. -/
def base64DecodedLength : List Char → Option ℕ
  | [] => some 0
  | [a, b, '=', '='] => do
    let _ ← base64Value a
    let b ← base64Value b
    if b % 16 = 0 then some 1 else none
  | [a, b, c, '='] => do
    let _ ← base64Value a
    let _ ← base64Value b
    let c ← base64Value c
    if c % 4 = 0 then some 2 else none
  | a :: b :: c :: d :: rest => do
    let _ ← base64Value a
    let _ ← base64Value b
    let _ ← base64Value c
    let _ ← base64Value d
    let n ← base64DecodedLength rest
    return n + 3
  | _ => none

def validateSocketMetadata (metadata : Value) : Result Unit :=
  ensure ((toVec metadata).size ≤ maxSocketMetadataBytes)
    ("socket metadata exceeds " ++ toString maxSocketMetadataBytes ++ " bytes")

def validateSocketMessage : ActorSocketMessage → Result Unit
  | .text data =>
    ensure (data.utf8ByteSize ≤ maxSocketMessageBytes)
      ("socket message exceeds " ++ toString maxSocketMessageBytes ++ " bytes")
  | .binary data => do
    let maxEncodedBytes := (maxSocketMessageBytes + 2) / 3 * 4
    ensure (data.utf8ByteSize ≤ maxEncodedBytes)
      ("socket message exceeds " ++ toString maxSocketMessageBytes ++ " decoded bytes")
    let decoded ← orContext (base64DecodedLength data.toList) "socket binary message is not valid base64"
    ensure (decoded ≤ maxSocketMessageBytes)
      ("socket message exceeds " ++ toString maxSocketMessageBytes ++ " decoded bytes")

def validateConnectionId (connectionId : String) : Result Unit := do
  ensure (connectionId ≠ "") "socket connection ID is empty"
  ensure (connectionId.utf8ByteSize ≤ maxSocketConnectionIdBytes)
    ("socket connection ID exceeds " ++ toString maxSocketConnectionIdBytes ++ " bytes")

def validateSocketTags (tags : List String) : Result Unit := do
  ensure (tags.length ≤ maxSocketTags) ("socket tags exceed " ++ toString maxSocketTags ++ " entries")
  let totalBytes ← tags.foldlM (fun totalBytes tag => do
    ensure (tag ≠ "") "socket tag is empty"
    ensure (tag.length ≤ maxSocketTagCharacters)
      ("socket tag exceeds " ++ toString maxSocketTagCharacters ++ " characters")
    pure (saturatingAdd totalBytes tag.utf8ByteSize)) 0
  ensure (totalBytes ≤ maxSocketTagBytes) ("socket tags exceed " ++ toString maxSocketTagBytes ++ " bytes")

def validateClose (code : ℕ) (reason : String) : Result Unit := do
  ensure (code = 1000 ∨ 3000 ≤ code ∧ code ≤ 4999) "socket close code must be 1000 or between 3000 and 4999"
  ensure (reason.utf8ByteSize ≤ maxSocketCloseReasonBytes)
    ("socket close reason exceeds " ++ toString maxSocketCloseReasonBytes ++ " bytes")

def validateSocketEffect : ActorSocketEffect → Result Unit
  | .send connectionId message => do
    validateConnectionId connectionId
    validateSocketMessage message
  | .broadcast message exceptConnectionIds tags => do
    ensure (exceptConnectionIds.length ≤ maxSocketTags)
      ("socket broadcast exclusions exceed " ++ toString maxSocketTags ++ " entries")
    exceptConnectionIds.forM validateConnectionId
    validateSocketTags tags
    validateSocketMessage message
  | .close connectionId code reason => do
    validateConnectionId connectionId
    validateClose code reason
  | .reject connectionId code reason => do
    validateConnectionId connectionId
    validateClose code reason
  | .setMetadata connectionId metadata => do
    validateConnectionId connectionId
    validateSocketMetadata metadata
  | .setTags connectionId tags => do
    validateConnectionId connectionId
    validateSocketTags tags

def validateSocketEffects (effects : List ActorSocketEffect) : Result Unit :=
  effects.forM validateSocketEffect

end LDO
