import DurableObjects.Spec.Gateway

/-! The gateway at work: any number of connections and of `socket-effects` requests, and
the actor hosts that receive their events. -/

namespace LDO

open Prog

structure GatewayWorld where
  registry : SocketRegistry
  queues : ℕ → List OutboundMessage
  /-- The identifiers that were drawn, and the task that drew each. -/
  ids : String → Option ℕ
  /-- The requests an actor host has executed, and those whose state it has committed. -/
  executed : List String
  committed : List String
  trace : ℕ → List GatewayEvent

namespace GatewayWorld

def empty : GatewayWorld := ⟨.empty, fun _ => [], fun _ => none, [], [], fun _ => []⟩

def push (w : GatewayWorld) (channel : ℕ) (message : OutboundMessage) : GatewayWorld :=
  { w with queues := Function.update w.queues channel (w.queues channel ++ [message]) }

/-- The answers task `t` may get. -/
def Allows (w : GatewayWorld) (t : ℕ) : (op : GatewayOp) → op.Res → Prop
  | .newUuid, id => w.ids id = none
  | .insert actor connection outbound triggerId, inserted =>
    inserted = (w.registry.insert actor connection outbound triggerId).1
  | .remove actor connectionId, removed => removed = (w.registry.remove actor connectionId).1
  | .connections actor, connections => connections.Perm (w.registry.connections actor)
  | .triggerId actor connectionId, triggerId => triggerId = w.registry.triggerId actor connectionId
  | .recipients actor exceptConnectionIds tags, recipients =>
    recipients.Perm (w.registry.recipients actor exceptConnectionIds tags)
  | .sender actor connectionId, channel => channel = w.registry.sender actor connectionId
  | .sendSocketEvent _ invocation, .ok (.completed ..) => invocation.requestId ∈ w.executed
  | .select, .outbound message => message = (w.queues t).head?
  | _, _ => True

instance (w : GatewayWorld) (t : ℕ) : (op : GatewayOp) → (r : op.Res) → Decidable (w.Allows t op r)
  | .newUuid, id => inferInstanceAs (Decidable (w.ids id = none))
  | .insert actor connection outbound triggerId, inserted =>
    inferInstanceAs (Decidable (inserted = (w.registry.insert actor connection outbound triggerId).1))
  | .remove actor connectionId, removed =>
      inferInstanceAs (Decidable (removed = (w.registry.remove actor connectionId).1))
  | .connections actor, connections => inferInstanceAs (Decidable (connections.Perm (w.registry.connections actor)))
  | .triggerId actor connectionId, triggerId =>
    inferInstanceAs (Decidable (triggerId = w.registry.triggerId actor connectionId))
  | .recipients actor exceptConnectionIds tags, recipients =>
    inferInstanceAs (Decidable (recipients.Perm (w.registry.recipients actor exceptConnectionIds tags)))
  | .sender actor connectionId, channel =>
      inferInstanceAs (Decidable (channel = w.registry.sender actor connectionId))
  | .sendSocketEvent _ invocation, .ok (.completed ..) =>
      inferInstanceAs (Decidable (invocation.requestId ∈ w.executed))
  | .sendSocketEvent .., .ok (.failed _) => isTrue trivial
  | .sendSocketEvent .., .ok .reroute => isTrue trivial
  | .sendSocketEvent .., .ok .hostUnavailable => isTrue trivial
  | .sendSocketEvent .., .error _ => isTrue trivial
  | .select, .outbound message => inferInstanceAs (Decidable (message = (w.queues t).head?))
  | .select, .inbound _ => isTrue trivial
  | .recvInitialization, _ => isTrue trivial
  | .setMetadata .., _ => isTrue trivial
  | .setTags .., _ => isTrue trivial
  | .activate .., _ => isTrue trivial
  | .send .., _ => isTrue trivial
  | .sendBroadcast .., _ => isTrue trivial
  | .unixSeconds, _ => isTrue trivial
  | .cachedTarget _, _ => isTrue trivial
  | .invalidateTarget _, _ => isTrue trivial
  | .resolveTarget .., _ => isTrue trivial
  | .invalidateChannel _, _ => isTrue trivial
  | .deliver .., _ => isTrue trivial
  | .socketSend _, _ => isTrue trivial

/-- What a call of task `t` changes. -/
def after (w : GatewayWorld) (t : ℕ) : (op : GatewayOp) → op.Res → GatewayWorld
  | .newUuid, id => { w with ids := Function.update w.ids id (some t) }
  | .insert actor connection outbound triggerId, _ =>
    { w with registry := (w.registry.insert actor connection outbound triggerId).2 }
  | .remove actor connectionId, _ => { w with registry := (w.registry.remove actor connectionId).2 }
  | .setMetadata actor connectionId metadata, _ =>
    { w with registry := w.registry.setMetadata actor connectionId metadata }
  | .setTags actor connectionId tags, _ => { w with registry := w.registry.setTags actor connectionId tags }
  | .activate actor connectionId, _ => { w with registry := w.registry.activate actor connectionId }
  | .send channel message, _ => w.push channel message
  | .sendBroadcast channel message, _ => w.push channel message
  | .select, .outbound _ => { w with queues := Function.update w.queues t (w.queues t).tail }
  | _, _ => w

def log (w : GatewayWorld) (t : ℕ) (e : GatewayEvent) : GatewayWorld :=
  { w with trace := Function.update w.trace t (w.trace t ++ [e]) }

end GatewayWorld

/-- What a task is for. -/
inductive GatewayTask where
  | connection (access : SocketAccess) (stage : Stage)
  | applyEffects (actor : ActorKey) (effects : List ActorSocketEffect)

structure GatewayState where
  world : GatewayWorld
  tasks : ℕ → Option (GatewayTask × GatewayM Stage)

namespace GatewayState

/-- Task `t` waits for the answer to `invocation`. -/
def Waiting (s : GatewayState) (t : ℕ) (invocation : ActorSocketInvocation) : Prop :=
  ∃ task target next, s.tasks t = some (task, .call (.sendSocketEvent target invocation) next)

/-- Task `t` has sent `invocation` to an actor host. -/
def Sent (s : GatewayState) (t : ℕ) (invocation : ActorSocketInvocation) : Prop :=
  (∃ target r, ⟨.sendSocketEvent target invocation, r⟩ ∈ s.world.trace t) ∨ s.Waiting t invocation

def Ended (s : GatewayState) (t : ℕ) : Prop := ∃ task, s.tasks t = some (task, .ret .ended)

end GatewayState

inductive GatewayMove where
  | connect (t : ℕ) (access : SocketAccess)
  | post (t : ℕ) (actor : ActorKey) (effects : List ActorSocketEffect)
  | call (t : ℕ) (event : GatewayEvent)
  | proceed (t : ℕ)
  | drop (t : ℕ)
  | execute (requestId : String)
  | commit (requestId : String)

/-- Where a request can be dropped: at an await, and not while it sends. -/
def GatewayTask.awaits : GatewayM Stage → Prop
  | .call (.send ..) _ => False
  | .call (.sendBroadcast ..) _ => False
  | _ => True

/-- A task keeps its number when it has ended; only a request can be dropped. -/
inductive GatewayStep (serde : SerdeJson) : GatewayState → GatewayMove → GatewayState → Prop
  | connect {s : GatewayState} {t : ℕ} (access : SocketAccess) : s.tasks t = none →
      GatewayStep serde s (.connect t access) { s with
        tasks := Function.update s.tasks t
          (some (.connection access .opening, Gateway.runConnection serde t access .opening)) }
  | post {s : GatewayState} {t : ℕ} {actor : ActorKey} {effects : List ActorSocketEffect} : s.tasks t = none →
      actor.validate = .ok () → validateSocketEffects effects = .ok () →
      GatewayStep serde s (.post t actor effects) { s with
        tasks := Function.update s.tasks t
          (some (.applyEffects actor effects, (fun _ => .ended) <$> Gateway.apply actor effects)) }
  | call {s : GatewayState} {t : ℕ} {task : GatewayTask} {op : GatewayOp} {next : op.Res → GatewayM Stage} {r : op.Res} :
      s.tasks t = some (task, .call op next) → s.world.Allows t op r →
      GatewayStep serde s (.call t ⟨op, r⟩)
        ⟨(s.world.after t op r).log t ⟨op, r⟩, Function.update s.tasks t (some (task, next r))⟩
  | proceed {s : GatewayState} {t : ℕ} {access : SocketAccess} {stage stage' : Stage} :
      s.tasks t = some (.connection access stage, .ret stage') → stage' ≠ .ended →
      GatewayStep serde s (.proceed t) { s with
        tasks := Function.update s.tasks t
          (some (.connection access stage', Gateway.runConnection serde t access stage')) }
  | drop {s : GatewayState} {t : ℕ} {actor : ActorKey} {effects : List ActorSocketEffect} {p : GatewayM Stage} :
      s.tasks t = some (.applyEffects actor effects, p) → GatewayTask.awaits p →
      GatewayStep serde s (.drop t) { s with
        tasks := Function.update s.tasks t (some (.applyEffects actor effects, .ret .ended)) }
  | execute {s : GatewayState} {t : ℕ} {invocation : ActorSocketInvocation} : s.Sent t invocation →
      GatewayStep serde s (.execute invocation.requestId)
        { s with world := { s.world with executed := invocation.requestId :: s.world.executed } }
  | commit {s : GatewayState} {requestId : String} : requestId ∈ s.world.executed →
      GatewayStep serde s (.commit requestId)
        { s with world := { s.world with committed := requestId :: s.world.committed } }

def gatewaySystem (serde : SerdeJson) : System GatewayState GatewayMove where
  init s := s = ⟨.empty, fun _ => none⟩
  step := GatewayStep serde

end LDO
