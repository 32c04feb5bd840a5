import DurableObjects.Spec.Basic
import DurableObjects.Spec.Value

/-! The Node side of an actor session: the replies of an actor runtime and the frames
they are written as. A JavaScript string is a list of UTF-16 code units, and a number
is kept as the text `JSON.stringify` prints for it. -/

namespace LDO

open Json

abbrev Units := List UInt16

abbrev JsTree := Json Units Number

/-- A string literal of the source; all of them are ASCII. -/
def ascii (s : String) : Units := s.toList.map fun c => UInt16.ofNat c.toNat

/-- How `JSON.stringify` prints strings and numbers. -/
def jsWriter : Json.Writer Units Number where
  quote := quoteUnits
  digits n := n.text
  text := textOfUnits
  quote_read := quoteUnits_read
  digits_literal := serdeWriter.digits_literal

mutual
/-- No object has a key twice. -/
def DistinctKeys : JsTree → Prop
  | .arr vs => DistinctItems vs
  | .obj fs => (fs.map Prod.fst).Nodup ∧ DistinctFields fs
  | _ => True

def DistinctItems : List JsTree → Prop
  | [] => True
  | v :: vs => DistinctKeys v ∧ DistinctItems vs

def DistinctFields : List (Units × JsTree) → Prop
  | [] => True
  | (_, v) :: fs => DistinctKeys v ∧ DistinctFields fs
end

structure JsonValue where
  tree : JsTree
  distinct : DistinctKeys tree

structure JsonObject where
  fields : List (Units × JsTree)
  distinct : DistinctKeys (.obj fields)

def JsonObject.tree (state : JsonObject) : JsTree := .obj state.fields

/-- `validateClose` has let the code through. -/
structure CloseCode where
  code : ℕ
  valid : code = 1000 ∨ 3000 ≤ code ∧ code ≤ 4999

/-- A message identifier is parsed as an integer that a double holds exactly. -/
structure MessageId where
  id : ℕ
  safe : id < 2 ^ 53

inductive SocketMessage where
  | text (data : Units)
  | binary (data : Units)

inductive SocketEffect where
  | send (connectionId : Units) (message : SocketMessage)
  | broadcast (message : SocketMessage) (exceptConnectionIds tags : List Units)
  | close (connectionId : Units) (code : CloseCode) (reason : Units)
  | reject (connectionId : Units) (code : CloseCode) (reason : Units)
  | setMetadata (connectionId : Units) (metadata : JsonValue)
  | setTags (connectionId : Units) (tags : List Units)

inductive ActorExecutorReply where
  | stateRequired
  | invoked (result : JsonValue) (state : JsonObject) (effects : List SocketEffect)
  | websocketHandled (state : JsonObject) (effects : List SocketEffect)
  | failed (code message : Units)
  | evicted

/-! ### The documents -/

def jsNat (n : ℕ) : JsTree := .num (.ofNat n)

/-- `{ type: tag, ...fields }` -/
def tagged (tag : String) (fields : List (String × JsTree)) : JsTree :=
  .obj ((ascii "type", .str (ascii tag)) :: fields.map fun f => (ascii f.1, f.2))

def SocketMessage.toJs : SocketMessage → JsTree
  | .text data => tagged "text" [("data", .str data)]
  | .binary data => tagged "binary" [("data", .str data)]

def SocketEffect.toJs : SocketEffect → JsTree
  | .send connectionId message => tagged "send" [("connection_id", .str connectionId), ("message", message.toJs)]
  | .broadcast message exceptConnectionIds tags =>
    tagged "broadcast" [("message", message.toJs), ("except_connection_ids", .arr (exceptConnectionIds.map .str)),
      ("tags", .arr (tags.map .str))]
  | .close connectionId code reason =>
    tagged "close" [("connection_id", .str connectionId), ("code", jsNat code.code), ("reason", .str reason)]
  | .reject connectionId code reason =>
    tagged "reject" [("connection_id", .str connectionId), ("code", jsNat code.code), ("reason", .str reason)]
  | .setMetadata connectionId metadata =>
    tagged "set_metadata" [("connection_id", .str connectionId), ("metadata", metadata.tree)]
  | .setTags connectionId tags =>
    tagged "set_tags" [("connection_id", .str connectionId), ("tags", .arr (tags.map .str))]

def effectsToJs (effects : List SocketEffect) : JsTree := .arr (effects.map SocketEffect.toJs)

/-- A method that has no effects has no such field. -/
def ActorExecutorReply.toJs : ActorExecutorReply → JsTree
  | .stateRequired => tagged "state_required" []
  | .invoked result state effects =>
    tagged "invoked" ([("result", result.tree), ("state", state.tree)] ++
      if effects = [] then [] else [("effects", effectsToJs effects)])
  | .websocketHandled state effects =>
    tagged "websocket_handled" [("state", state.tree), ("effects", effectsToJs effects)]
  | .failed code message => tagged "failed" [("code", .str code), ("message", .str message)]
  | .evicted => tagged "evicted" []

/-- `{ type: "reply", message_id: messageId, reply }` -/
def replyMessage (messageId : MessageId) (reply : ActorExecutorReply) : JsTree :=
  tagged "reply" [("message_id", jsNat messageId.id), ("reply", reply.toJs)]

/-! ### The size estimate -/

def isLow (u : UInt16) : Bool := isLowSurrogate u.toNat

/-- The code units that `JSON.stringify` escapes with one letter. -/
def isShortEscape (u : UInt16) : Bool :=
  u = 0x22 || u = 0x5c || u = 0x08 || u = 0x09 || u = 0x0a || u = 0x0c || u = 0x0d

/-- The bytes one turn of the loop in `jsonStringByteLength` adds, and whether it skips a unit. -/
def unitBytes (u : UInt16) (us : Units) : ℕ × Bool :=
  if isShortEscape u then (2, false)
  else if u ≤ 0x1f || (0xd800 ≤ u && u ≤ 0xdfff && !(u ≤ 0xdbff && (us.head?.map isLow).getD false)) then (6, false)
  else if u ≤ 0x7f then (1, false)
  else if u ≤ 0x7ff then (2, false)
  else if u ≤ 0xdbff then (4, true)
  else (3, false)

/-- The loop over the code units; `skip` after an `index += 1` in its body. -/
def stringBytesFrom (maxBytes : ℤ) : Bool → Units → ℕ → Option ℕ
  | _, [], bytes => some bytes
  | true, _ :: us, bytes => stringBytesFrom maxBytes false us bytes
  | false, u :: us, bytes =>
    let taken := unitBytes u us
    if maxBytes < (bytes + taken.1 : ℕ) then none else stringBytesFrom maxBytes taken.2 us (bytes + taken.1)

def jsonStringByteLength (value : Units) (maxBytes : ℤ) : Option ℕ :=
  if maxBytes < 2 then none else stringBytesFrom maxBytes false value 2

def upTo (maxBytes : ℤ) (bytes : ℕ) : Option ℕ := if (bytes : ℤ) ≤ maxBytes then some bytes else none

/-- `maxBytes < 0 || depth > 256` -/
def withinBounds (maxBytes : ℤ) (depth : ℕ) (bytes : Option ℕ) : Option ℕ :=
  if maxBytes < 0 ∨ 256 < depth then none else bytes

/-- A comma before every entry but the first. -/
def separatorBytes (entries : ℕ) : ℕ := if entries = 0 then 0 else 1

mutual
/-- The trees here are finite, so no value is its own ancestor. -/
def jsonByteLength (maxBytes : ℤ) (depth : ℕ) : JsTree → Option ℕ
  | .null => withinBounds maxBytes depth (upTo maxBytes 4)
  | .bool b => withinBounds maxBytes depth (upTo maxBytes (if b then 4 else 5))
  | .num n => withinBounds maxBytes depth (upTo maxBytes n.text.length)
  | .str s => withinBounds maxBytes depth (jsonStringByteLength s maxBytes)
  | .arr vs => withinBounds maxBytes depth (if maxBytes < 2 then none else itemsByteLength maxBytes depth vs 2 0)
  | .obj fs => withinBounds maxBytes depth (if maxBytes < 2 then none else fieldsByteLength maxBytes depth fs 2 0)

def itemsByteLength (maxBytes : ℤ) (depth : ℕ) : List JsTree → ℕ → ℕ → Option ℕ
  | [], bytes, _ => some bytes
  | item :: items, bytes, entries =>
    match jsonByteLength (maxBytes - bytes - separatorBytes entries) (depth + 1) item with
    | none => none
    | some itemBytes => itemsByteLength maxBytes depth items (bytes + separatorBytes entries + itemBytes) (entries + 1)

def fieldsByteLength (maxBytes : ℤ) (depth : ℕ) : List (Units × JsTree) → ℕ → ℕ → Option ℕ
  | [], bytes, _ => some bytes
  | (key, item) :: fields, bytes, entries =>
    match jsonStringByteLength key (maxBytes - bytes - separatorBytes entries) with
    | none => none
    | some keyBytes =>
      match jsonByteLength (maxBytes - bytes - (separatorBytes entries + keyBytes + 1)) (depth + 1) item with
      | none => none
      | some itemBytes =>
        fieldsByteLength maxBytes depth fields (bytes + (separatorBytes entries + keyBytes + 1) + itemBytes)
          (entries + 1)
end

def jsonFitsWithinBytes (value : JsTree) (maxBytes : ℕ) : Bool := (jsonByteLength maxBytes 0 value).isSome

/-! ### Writing a reply -/

def maxMessageBytes : ℕ := 32 * 1024 * 1024

def failedReply (code : String) (message : String) : ActorExecutorReply :=
  .failed (ascii code) (ascii message)

/-- What a reply that does not fit is replaced with; the actor is evicted as well. -/
def oversized : ActorExecutorReply :=
  failedReply "resource_exhausted" ("actor session response exceeds " ++ toString maxMessageBytes ++ " bytes")

/-- The reply that is written. -/
def sentReply (messageId : MessageId) (reply : ActorExecutorReply) : ActorExecutorReply :=
  if jsonFitsWithinBytes (replyMessage messageId reply) (maxMessageBytes - 1) then reply else oversized

/-- JSON.stringify(message) and a newline, as UTF-8 -/
def serializeMessage (message : JsTree) : ByteArray :=
  (String.ofList (jsWriter.print message ++ ['\n'])).toUTF8

/-- `ActorSessionConnection.write` -/
def writeDocument (document : ByteArray) : Result ByteArray := do
  ensure (document.size ≤ maxMessageBytes) "actor session message is too large"
  pure document

/-- `ActorSessionConnection.reply` -/
def sessionReply (messageId : MessageId) (reply : ActorExecutorReply) : Result ByteArray :=
  writeDocument (serializeMessage (replyMessage messageId (sentReply messageId reply)))

end LDO
