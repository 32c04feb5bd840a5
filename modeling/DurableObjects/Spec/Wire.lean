import DurableObjects.Spec.Connection
import DurableObjects.Spec.Host

/-! How a host's answer travels: the reply of the gRPC service, with the JSON inside it,
and what the control plane makes of it. -/

namespace LDO

/-! ### Effects as `serde` writes them -/

/-- A variant of an internally tagged enum. -/
def taggedJson (tag : String) (fields : List (String × Value)) : Value := .obj (("type", .str tag) :: fields)

def stringsJson (strings : List String) : Value := .arr (strings.map .str)

def ActorSocketMessage.toJson : ActorSocketMessage → Value
  | .text data => taggedJson "text" [("data", .str data)]
  | .binary data => taggedJson "binary" [("data", .str data)]

def ActorSocketEffect.toJson : ActorSocketEffect → Value
  | .send connectionId message => taggedJson "send" [("connection_id", .str connectionId), ("message", message.toJson)]
  | .broadcast message exceptConnectionIds tags =>
    taggedJson "broadcast" [("message", message.toJson), ("except_connection_ids", stringsJson exceptConnectionIds),
      ("tags", stringsJson tags)]
  | .close connectionId code reason =>
    taggedJson "close" [("connection_id", .str connectionId), ("code", .num (.ofNat code)), ("reason", .str reason)]
  | .reject connectionId code reason =>
    taggedJson "reject" [("connection_id", .str connectionId), ("code", .num (.ofNat code)), ("reason", .str reason)]
  | .setMetadata connectionId metadata =>
    taggedJson "set_metadata" [("connection_id", .str connectionId), ("metadata", metadata)]
  | .setTags connectionId tags =>
    taggedJson "set_tags" [("connection_id", .str connectionId), ("tags", stringsJson tags)]

/-! ### Replies -/

inductive WireResult where
  | completed (resultJson socketEffectsJson : ByteArray)
  | failed (code message : String)
  | reroute

structure InvokeActorReply where
  result : Option WireResult

def InvokeActorReply.ofResult : ActorExecutionResult → InvokeActorReply
  | .completed result effects => ⟨some (.completed (toVec result) (toVec (.arr (effects.map ActorSocketEffect.toJson))))⟩
  | .failed failure => ⟨some (.failed failure.code failure.message)⟩
  | .reroute => ⟨some .reroute⟩
  | .hostUnavailable => ⟨some (.failed "unavailable" "actor host is draining")⟩

/-- `serde_json`'s own message is left out of the errors. -/
def ActorExecutionResult.ofReply (serde : SerdeJson) (reply : InvokeActorReply) :
    Result ActorExecutionResult := do
  match ← orContext reply.result "actor reply omitted its result" with
  | .completed resultJson socketEffectsJson => do
    let result ← orContext ((fromSlice serde resultJson).map toValue) "actor result is not valid JSON"
    let effects ← orContext ((fromSlice serde socketEffectsJson).bind (asList ActorSocketEffect.ofJson))
      "actor socket effects are not valid JSON"
    pure (.completed result effects)
  | .failed code message => pure (.failed ⟨code, message⟩)
  | .reroute => pure .reroute

/-- What `handle_socket` replies for the host's answer. -/
def InvokeActorReply.ofSocketResult : ActorSocketExecutionResult → InvokeActorReply
  | .handled effects => .ofResult (.completed .null effects)
  | .failed failure => .ofResult (.failed failure)
  | .hostUnavailable => .ofResult .hostUnavailable

end LDO
