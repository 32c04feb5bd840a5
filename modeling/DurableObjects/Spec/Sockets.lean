import Mathlib.Data.List.AList
import DurableObjects.Spec.Protocol

/-! The gateway's registry of live connections, and the frames of a physical socket. Each
operation of the registry is one acquisition of its lock; the order in which a hash map
lists its values is not fixed, so lists read from it are known up to order. -/

namespace LDO

def maxConnectionsPerActor : ℕ := 128

inductive OutboundMessage where
  | message (message : ActorSocketMessage)
  | close (code : ℕ) (reason : String)
  deriving DecidableEq

/-- `outbound` names the channel: the number of the task that receives from it. -/
structure RegisteredSocket where
  connection : ActorSocketConnection
  outbound : ℕ
  isOpen : Bool
  triggerId : Option String
  deriving DecidableEq

/-- The filter of a broadcast. -/
def RegisteredSocket.receives (entry : RegisteredSocket) (exceptConnectionIds tags : List String) : Bool :=
  entry.isOpen && !exceptConnectionIds.contains entry.connection.id &&
    tags.all fun tag => entry.connection.tags.contains tag

abbrev SocketEntries := AList fun _ : String => RegisteredSocket

def SocketEntries.values (entries : SocketEntries) : List RegisteredSocket := entries.entries.map (·.2)

structure SocketRegistry where
  entries : ActorKey → Option SocketEntries

namespace SocketRegistry

def empty : SocketRegistry := ⟨fun _ => none⟩

def set (registry : SocketRegistry) (actor : ActorKey) (connections : Option SocketEntries) :
    SocketRegistry :=
  ⟨Function.update registry.entries actor connections⟩

/-- The entry of one connection. -/
def entry (registry : SocketRegistry) (actor : ActorKey) (connectionId : String) : Option RegisteredSocket :=
  (registry.entries actor).bind fun connections => connections.lookup connectionId

/-- The entries of one actor. -/
def values (registry : SocketRegistry) (actor : ActorKey) : List RegisteredSocket :=
  ((registry.entries actor).map SocketEntries.values).getD []

def insert (registry : SocketRegistry) (actor : ActorKey) (connection : ActorSocketConnection) (outbound : ℕ)
    (triggerId : Option String) : Bool × SocketRegistry :=
  let connections := (registry.entries actor).getD ∅
  if maxConnectionsPerActor ≤ connections.entries.length then (false, registry.set actor (some connections))
  else (true, registry.set actor (some (connections.insert connection.id ⟨connection, outbound, false, triggerId⟩)))

def remove (registry : SocketRegistry) (actor : ActorKey) (connectionId : String) :
    Option ActorSocketConnection × SocketRegistry :=
  match registry.entries actor with
  | none => (none, registry)
  | some connections =>
    let removed := (connections.lookup connectionId).map (·.connection)
    let connections := connections.erase connectionId
    (removed, registry.set actor (if connections.entries.isEmpty then none else some connections))

def connections (registry : SocketRegistry) (actor : ActorKey) : List ActorSocketConnection :=
  ((registry.values actor).filter (·.isOpen)).map (·.connection)

def triggerId (registry : SocketRegistry) (actor : ActorKey) (connectionId : Option String) :
    Option String := do
  let entry ← registry.entry actor (← connectionId)
  entry.triggerId

def recipients (registry : SocketRegistry) (actor : ActorKey)
    (exceptConnectionIds tags : List String) : List ℕ :=
  ((registry.values actor).filter fun entry => entry.receives exceptConnectionIds tags).map (·.outbound)

def sender (registry : SocketRegistry) (actor : ActorKey) (connectionId : String) : Option ℕ :=
  (registry.entry actor connectionId).map (·.outbound)

/-- `get_mut`: changes the entry of one connection, if there is one. -/
def modify (registry : SocketRegistry) (actor : ActorKey) (connectionId : String)
    (f : RegisteredSocket → RegisteredSocket) : SocketRegistry :=
  match registry.entries actor with
  | none => registry
  | some connections =>
    match connections.lookup connectionId with
    | none => registry
    | some entry => registry.set actor (some (connections.insert connectionId (f entry)))

def setMetadata (registry : SocketRegistry) (actor : ActorKey) (connectionId : String) (metadata : Value) :
    SocketRegistry :=
  registry.modify actor connectionId fun entry =>
    { entry with connection := { entry.connection with metadata } }

def setTags (registry : SocketRegistry) (actor : ActorKey) (connectionId : String) (tags : List String) :
    SocketRegistry :=
  registry.modify actor connectionId fun entry => { entry with connection := { entry.connection with tags } }

def activate (registry : SocketRegistry) (actor : ActorKey) (connectionId : String) : SocketRegistry :=
  registry.modify actor connectionId fun entry => { entry with isOpen := true }

end SocketRegistry

/-! ### Frames -/

inductive Frame where
  | text (data : String)
  | binary (data : List UInt8)
  | ping (data : List UInt8)
  | pong (data : List UInt8)
  | close (frame : Option (ℕ × String))
  deriving DecidableEq

def base64Alphabet : List Char := "ABCDEFGHIJKLMNOPQRSTUVWXYZabcdefghijklmnopqrstuvwxyz0123456789+/".toList

def base64Char (n : ℕ) : Char := base64Alphabet.getD n 'A'

/-- `STANDARD.encode` -/
def base64Encode : List UInt8 → List Char
  | [] => []
  | [a] => [base64Char (a.toNat / 4), base64Char (a.toNat % 4 * 16), '=', '=']
  | [a, b] =>
    [base64Char (a.toNat / 4), base64Char (a.toNat % 4 * 16 + b.toNat / 16), base64Char (b.toNat % 16 * 4), '=']
  | a :: b :: c :: rest =>
    base64Char (a.toNat / 4) :: base64Char (a.toNat % 4 * 16 + b.toNat / 16) ::
      base64Char (b.toNat % 16 * 4 + c.toNat / 64) :: base64Char (c.toNat % 64) :: base64Encode rest

/-- `STANDARD.decode`: padding is required and unused bits are zero. -/
def base64Decode : List Char → Option (List UInt8)
  | [] => some []
  | [a, b, '=', '='] => do
    let a ← base64Value a
    let b ← base64Value b
    if b % 16 = 0 then some [UInt8.ofNat (a * 4 + b / 16)] else none
  | [a, b, c, '='] => do
    let a ← base64Value a
    let b ← base64Value b
    let c ← base64Value c
    if c % 4 = 0 then some [UInt8.ofNat (a * 4 + b / 16), UInt8.ofNat (b % 16 * 16 + c / 4)] else none
  | a :: b :: c :: d :: rest => do
    let a ← base64Value a
    let b ← base64Value b
    let c ← base64Value c
    let d ← base64Value d
    let bytes ← base64Decode rest
    return UInt8.ofNat (a * 4 + b / 16) :: UInt8.ofNat (b % 16 * 16 + c / 4) ::
      UInt8.ofNat (c % 4 * 64 + d) :: bytes
  | _ => none

def websocketMessage : ActorSocketMessage → Option Frame
  | .text data => some (.text data)
  | .binary data => (base64Decode data.toList).map .binary

end LDO
