import DurableObjects.Spec.Basic

/-! The namespace-scoped identity of an actor and the storage key derived from it. -/

namespace LDO

def maxNamespaceIdBytes : ℕ := 96
def maxActorTypeBytes : ℕ := 48
def maxActorIdBytes : ℕ := 128

def isComponentChar (c : Char) : Bool := c.isAlphanum || c == '-' || c == '_' || c == '.'

def validateComponent (name value : String) (maxBytes : ℕ) : Result Unit := do
  ensure (value ≠ "") (name ++ " must not be empty")
  ensure (value.utf8ByteSize ≤ maxBytes) (name ++ " must be at most " ++ toString maxBytes ++ " bytes")
  ensure (value.toList.all isComponentChar)
    (name ++ " may contain only ASCII letters, digits, '.', '-', and '_'")

structure ActorKey where
  namespaceId : String
  actorType : String
  actorId : String
  deriving DecidableEq, Repr

def ActorKey.storageKey (actor : ActorKey) : ActorStorageKey :=
  ⟨"object.v1." ++ actor.namespaceId ++ "." ++ actor.actorType ++ "." ++ actor.actorId⟩

def ActorKey.validate (actor : ActorKey) : Result Unit := do
  validateComponent "namespace ID" actor.namespaceId maxNamespaceIdBytes
  validateComponent "actor type" actor.actorType maxActorTypeBytes
  validateComponent "actor ID" actor.actorId maxActorIdBytes
  actor.storageKey.validate

/-- An actor key that passes `ActorKey.validate`. -/
structure ValidActorKey extends ActorKey where
  valid : toActorKey.validate = .ok ()

/-- The authenticated tenant boundary shared by a collection of actors. -/
structure ActorScope where
  namespaceId : String
  deriving DecidableEq, Repr

def ActorScope.validate (scope : ActorScope) : Result Unit :=
  validateComponent "namespace ID" scope.namespaceId maxNamespaceIdBytes

def ActorScope.contains (scope : ActorScope) (actor : ActorKey) : Bool :=
  decide (actor.namespaceId = scope.namespaceId)

end LDO
