import Mathlib.Algebra.Order.Floor.Ring
import Mathlib.Algebra.Order.Floor.Semiring
import DurableObjects.Spec.Leases
import DurableObjects.Lib.Runs

/-! `HostLeaseMaintainer` against the lease store. Time is counted in milliseconds by any
ordered field; the clocks of the host and of the store run at that rate, each with its
own offset, and are read in whole milliseconds. A register call reaches the store late
or never, also after the host has stopped waiting for it, and its reply likewise. -/

namespace LDO

variable {K : Type} [Field K] [LinearOrder K] [IsStrictOrderedRing K] [FloorRing K]

/-- The maintainer of one session, as `HostLeaseMaintainer::new` lets it through. -/
structure HostLeaseMaintainer (K : Type) [Field K] [LinearOrder K] where
  host : HostId
  route : String
  sessionId : String
  durationMs : ℕ
  renewEvery : K
  hostOffset : K
  storeOffset : K
  duration_pos : 0 < durationMs
  renewEvery_pos : 0 < renewEvery
  renewEvery_lt : renewEvery < durationMs
  sessionId_ne : sessionId ≠ ""

inductive RenewalPhase (K : Type) where
  | idle
  /-- `wait_until_renewal` -/
  | waiting (deadline wakeAt : K)
  /-- A register call is on its way; the first one has no deadline to meet. -/
  | renewing (deadline : Option K) (call : ℕ) (validUntilMs : ℕ) (sampledAt : K)
  /-- The reply is there and the timer is anchored; the clock is not yet read again. -/
  | confirming (deadline : Option K) (lease : HostLease) (validUntilMs : ℕ) (anchor sampledAt stampedAt : K)
  /-- The first registration failed: the host does not start. -/
  | failed
  | stopped

/-- The local deadline in force. -/
def RenewalPhase.deadline : RenewalPhase K → Option K
  | .waiting deadline _ => some deadline
  | .renewing deadline .. => deadline
  | .confirming deadline .. => deadline
  | _ => none

/-- The deadline the loop is sleeping on. -/
def RenewalPhase.timer : RenewalPhase K → Option K
  | .waiting deadline _ => some deadline
  | .renewing deadline .. => deadline
  | _ => none

def LeaseAnswer.expiresAtMs : LeaseAnswer → Option ℕ
  | .register (.ok lease) => some lease.expiresAtMs
  | _ => none

structure MaintainerState (K : Type) where
  time : K
  table : LeaseTable
  /-- The expiry of the last lease the store gave to this session. -/
  granted : Option ℕ
  /-- The register calls the store has yet to process. -/
  requests : ℕ → Bool
  /-- What it answered to a call, and when it processed it. -/
  replies : ℕ → Option (LeaseAnswer × K)
  sent : ℕ
  phase : RenewalPhase K
  leaseLost : Bool
  unregistering : Bool
  unregistered : Bool

namespace HostLeaseMaintainer

variable (m : HostLeaseMaintainer K)

/-- `SystemClock::now_ms` on the host -/
def hostNowMs (time : K) : ℕ := ⌊time + m.hostOffset⌋₊

def storeNowMs (time : K) : ℕ := ⌊time + m.storeOffset⌋₊

/-- The moment from which the store regards a lease with this expiry as expired. -/
def expiry (expiresAtMs : ℕ) : K := expiresAtMs - m.storeOffset

def request : HostLeaseRequest := ⟨m.host, m.sessionId, m.route, m.durationMs⟩

/-- What is left of a renewal that failed: the deadline in force stays. -/
def afterFailure (time : K) : Option K → RenewalPhase K
  | none => .failed
  | some deadline => .waiting deadline (time + m.renewEvery)

/-- The first half of `renew_once_with_deadline`: sample the clock and send the call. -/
def sendRegister (s : MaintainerState K) (deadline : Option K) : MaintainerState K :=
  match checkedAdd (m.hostNowMs s.time) m.durationMs with
  | none => { s with phase := m.afterFailure s.time deadline }
  | some validUntilMs =>
    { s with phase := .renewing deadline s.sent validUntilMs s.time
             requests := Function.update s.requests s.sent true
             sent := s.sent + 1 }

/-- The second half: what is left of the window, from the anchor on. -/
def confirmed (time : K) (deadline : Option K) (validUntilMs : ℕ) (anchor : K) : RenewalPhase K :=
  let remainingMs := validUntilMs - m.hostNowMs time
  if remainingMs > 0 then .waiting (anchor + remainingMs) (time + m.renewEvery) else m.afterFailure time deadline

def process (s : MaintainerState K) (call : LeaseCall) : LeaseAnswer × LeaseTable :=
  s.table.call ⟨m.storeNowMs s.time, call⟩

end HostLeaseMaintainer

inductive MaintainerEvent (K : Type) where
  | tick (time : K)
  | start
  | wake
  | deliver (call : ℕ)
  | loseRequest (call : ℕ)
  | loseReply (call : ℕ)
  | reply (call : ℕ)
  | fail
  | sample
  | expire
  | shutdown
  | sendUnregister
  | applyUnregister
  | other (call : LeaseCall)

open HostLeaseMaintainer in
/-- The timer is exact: time does not pass a deadline the loop is sleeping on. Both selects
are biased, so at the deadline neither a wake-up nor a reply is looked at any more. -/
inductive MaintainerStep (m : HostLeaseMaintainer K) :
    MaintainerState K → MaintainerEvent K → MaintainerState K → Prop
  | tick {s : MaintainerState K} {time : K} : s.time ≤ time → (∀ d, s.phase.timer = some d → time ≤ d) →
      MaintainerStep m s (.tick time) { s with time := time }
  | start {s : MaintainerState K} : s.phase = .idle → MaintainerStep m s .start (m.sendRegister s none)
  | wake {s : MaintainerState K} {deadline wakeAt : K} : s.phase = .waiting deadline wakeAt → wakeAt ≤ s.time →
      s.time < deadline → MaintainerStep m s .wake (m.sendRegister s (some deadline))
  | deliver {s : MaintainerState K} {call : ℕ} : s.requests call = true →
      MaintainerStep m s (.deliver call)
        { s with table := (m.process s (.register m.request)).2
                 granted := (m.process s (.register m.request)).1.expiresAtMs <|> s.granted
                 requests := Function.update s.requests call false
                 replies := Function.update s.replies call (some ((m.process s (.register m.request)).1, s.time)) }
  | loseRequest {s : MaintainerState K} {call : ℕ} :
      MaintainerStep m s (.loseRequest call) { s with requests := Function.update s.requests call false }
  | loseReply {s : MaintainerState K} {call : ℕ} :
      MaintainerStep m s (.loseReply call) { s with replies := Function.update s.replies call none }
  | reply {s : MaintainerState K} {deadline : Option K} {call validUntilMs : ℕ} {sampledAt stampedAt : K}
      {lease : HostLease} : s.phase = .renewing deadline call validUntilMs sampledAt →
      (∀ d, deadline = some d → s.time < d) → s.replies call = some (.register (.ok lease), stampedAt) →
      MaintainerStep m s (.reply call)
        { s with phase := .confirming deadline lease validUntilMs s.time sampledAt stampedAt }
  | fail {s : MaintainerState K} {deadline : Option K} {call validUntilMs : ℕ} {sampledAt : K} :
      s.phase = .renewing deadline call validUntilMs sampledAt → (∀ d, deadline = some d → s.time < d) →
      MaintainerStep m s .fail { s with phase := m.afterFailure s.time deadline }
  | sample {s : MaintainerState K} {deadline : Option K} {lease : HostLease} {validUntilMs : ℕ}
      {anchor sampledAt stampedAt : K} :
      s.phase = .confirming deadline lease validUntilMs anchor sampledAt stampedAt →
      MaintainerStep m s .sample { s with phase := m.confirmed s.time deadline validUntilMs anchor }
  | expire {s : MaintainerState K} {d : K} : s.phase.timer = some d → d ≤ s.time →
      MaintainerStep m s .expire { s with phase := .stopped, leaseLost := true }
  | shutdown {s : MaintainerState K} : s.phase ≠ .idle → s.phase ≠ .failed →
      MaintainerStep m s .shutdown { s with phase := .stopped }
  | sendUnregister {s : MaintainerState K} : s.phase = .stopped → s.unregistering = false →
      s.unregistered = false → MaintainerStep m s .sendUnregister { s with unregistering := true }
  | applyUnregister {s : MaintainerState K} : s.unregistering = true →
      MaintainerStep m s .applyUnregister
        { s with table := (m.process s (.unregister m.host m.sessionId)).2, unregistering := false, unregistered := true }
  /-- Calls of other hosts and of other sessions of this one. -/
  | other {s : MaintainerState K} {call : LeaseCall} : (call.host = m.host → call.session ≠ some m.sessionId) →
      MaintainerStep m s (.other call) { s with table := (m.process s call).2 }

/-- Both clocks read a time after the Unix epoch, and the session is new. -/
def maintainerSystem (m : HostLeaseMaintainer K) : System (MaintainerState K) (MaintainerEvent K) where
  init s := 0 ≤ s.time + m.hostOffset ∧ 0 ≤ s.time + m.storeOffset ∧
    (∀ lease, s.table m.host = some lease → lease.sessionId ≠ m.sessionId) ∧ s.granted = none ∧
    (∀ call, s.requests call = false) ∧
    (∀ call, s.replies call = none) ∧ s.sent = 0 ∧ s.phase = .idle ∧ s.leaseLost = false ∧
    s.unregistering = false ∧ s.unregistered = false
  step := MaintainerStep m

end LDO
