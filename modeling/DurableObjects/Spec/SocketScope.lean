import DurableObjects.Spec.Session
import DurableObjects.Spec.SessionStream
import DurableObjects.Spec.Sockets

/-! The sockets that an actor sees in one turn, and the effects it records with them. What an
assignment or an argument may be beyond its type is kept where the code checks it. -/

namespace LDO

open Json

inductive ActorSocketState where
  | connecting
  | opened
  | closed
  deriving DecidableEq

structure SocketConnection where
  id : Units
  metadata : JsonValue
  tags : List Units

structure RuntimeActorSocket where
  id : Units
  metadataValue : JsonValue
  tagsValue : List Units
  stateValue : ActorSocketState

/-- Every socket object of the turn, and the effects so far. -/
structure ActorSocketScope where
  sockets : List RuntimeActorSocket
  effects : List SocketEffect

/-- The message of an `ActorProtocolError` or an `ActorSerializationError`. -/
abbrev Thrown := String

/-- A string, a `Uint8Array`, or something else -/
inductive MessageArgument where
  | text (data : Units)
  | bytes (data : List UInt8)
  | other

/-- `except` of a broadcast, with the identifiers of its sockets -/
inductive ExceptArgument where
  | absent
  | socket (id : Units)
  | sockets (ids : List Units)

/-- `Buffer.byteLength(text)`: an unpaired surrogate is encoded as U+FFFD. -/
def unitsByteLength (text : Units) : ℕ :=
  ((codePoints text).map fun point =>
    match point with
    | .inl c => c.utf8Size
    | .inr _ => 3).sum

def socketMessage : MessageArgument → Except Thrown SocketMessage
  | .text data => .ok (.text data)
  | .bytes data => .ok (.binary ((base64Encode data).map fun c => UInt16.ofNat c.toNat))
  | .other => .error "socket messages must be strings or Uint8Arrays"

/-- `none` is a tag that is no string. -/
def validateTag (tag : Option Units) : Except Thrown Units :=
  match tag with
  | none => .error "socket tags must contain between 1 and 256 characters"
  | some tag =>
    if tag.length = 0 ∨ 256 < tag.length then .error "socket tags must contain between 1 and 256 characters"
    else .ok tag

/-- `validateClose`; `none` is a code that is no integer. -/
def checkClose (code : Option ℤ) (reason : Units) : Except Thrown CloseCode :=
  match code with
  | none => .error "socket close codes must be 1000 or between 3000 and 4999"
  | some code =>
    if h : code = 1000 ∨ 3000 ≤ code ∧ code ≤ 4999 then
      if 123 < unitsByteLength reason then .error "socket close reasons must not exceed 123 UTF-8 bytes"
      else .ok ⟨code.toNat, by omega⟩
    else .error "socket close codes must be 1000 or between 3000 and 4999"

def excludedSocketIds : ExceptArgument → List Units
  | .absent => []
  | .socket id => [id]
  | .sockets ids => ids

/-- The calls an actor can make. A socket is named by its place in the scope; defaults of arguments are filled in. -/
inductive SocketCall where
  /-- What the serializer clones the assigned value to, or throws. -/
  | metadata (socket : ℕ) (value : Except Thrown JsonValue)
  | send (socket : ℕ) (message : MessageArgument)
  | close (socket : ℕ) (code : Option ℤ) (reason : Units)
  | reject (socket : ℕ) (code : Option ℤ) (reason : Units)
  | setTags (socket : ℕ) (tags : List (Option Units))
  | broadcast (message : MessageArgument) (except_ : ExceptArgument) (tags : Option (List (Option Units)))

namespace ActorSocketScope

/-- The sockets of the catalog -/
def new (connections : List SocketConnection) : ActorSocketScope :=
  ⟨connections.map fun connection => ⟨connection.id, connection.metadata, connection.tags, .opened⟩, []⟩

section Calls

variable (scope : ActorSocketScope)

def setSocket (i : ℕ) (socket : RuntimeActorSocket) : ActorSocketScope :=
  { scope with sockets := scope.sockets.set i socket }

def push (effect : SocketEffect) : ActorSocketScope := { scope with effects := scope.effects ++ [effect] }

/-- The last socket of the catalog with the identifier gets the state; else there is a new one. -/
def eventSocket (connection : SocketConnection) (state : ActorSocketState) : ActorSocketScope :=
  match (scope.sockets.zipIdx.filter fun entry => entry.1.id = connection.id).getLast? with
  | some (socket, i) => scope.setSocket i { socket with stateValue := state }
  | none => { scope with sockets := scope.sockets ++ [⟨connection.id, connection.metadata, connection.tags, state⟩] }

/-- A number without a socket names none, so nothing can be called on it. -/
def socketAt (i : ℕ) : Except Thrown RuntimeActorSocket :=
  match scope.sockets[i]? with
  | some socket => .ok socket
  | none => .error "no such socket"

def setMetadata (i : ℕ) (value : Except Thrown JsonValue) : Except Thrown ActorSocketScope := do
  let socket ← scope.socketAt i
  let metadata ← value
  pure ((scope.setSocket i { socket with metadataValue := metadata }).push (.setMetadata socket.id metadata))

def send (i : ℕ) (message : MessageArgument) : Except Thrown ActorSocketScope := do
  let socket ← scope.socketAt i
  if socket.stateValue = .closed then throw "cannot send on a closed actor socket"
  else
    let message ← socketMessage message
    pure (scope.push (.send socket.id message))

def close (i : ℕ) (code : Option ℤ) (reason : Units) : Except Thrown ActorSocketScope := do
  let socket ← scope.socketAt i
  let code ← checkClose code reason
  if socket.stateValue = .closed then pure scope
  else pure ((scope.setSocket i { socket with stateValue := .closed }).push (.close socket.id code reason))

def reject (i : ℕ) (code : Option ℤ) (reason : Units) : Except Thrown ActorSocketScope := do
  let socket ← scope.socketAt i
  if socket.stateValue ≠ .connecting then throw "only a connecting actor socket can be rejected"
  else
    let code ← checkClose code reason
    pure ((scope.setSocket i { socket with stateValue := .closed }).push (.reject socket.id code reason))

def setTags (i : ℕ) (tags : List (Option Units)) : Except Thrown ActorSocketScope := do
  let socket ← scope.socketAt i
  let tags ← tags.mapM validateTag
  let unique := tags.eraseDups
  if 128 < unique.length ∨ 8 * 1024 < (unique.map unitsByteLength).sum then
    throw "socket tags must not exceed 128 entries or 8 KiB"
  else pure ((scope.setSocket i { socket with tagsValue := unique }).push (.setTags socket.id unique))

def broadcast (message : MessageArgument) (except_ : ExceptArgument) (tags : Option (List (Option Units))) :
    Except Thrown ActorSocketScope := do
  let message ← socketMessage message
  let tags ← (tags.getD []).mapM validateTag
  pure (scope.push (.broadcast message (excludedSocketIds except_) tags))

def call : SocketCall → Except Thrown ActorSocketScope
  | .metadata i value => scope.setMetadata i value
  | .send i message => scope.send i message
  | .close i code reason => scope.close i code reason
  | .reject i code reason => scope.reject i code reason
  | .setTags i tags => scope.setTags i tags
  | .broadcast message except_ tags => scope.broadcast message except_ tags

/-- Calls one after the other, of which none throws. -/
def run (calls : List SocketCall) : Except Thrown ActorSocketScope := calls.foldlM call scope

end Calls

end ActorSocketScope

end LDO
