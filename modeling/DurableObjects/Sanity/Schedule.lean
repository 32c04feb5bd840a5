import DurableObjects.Spec.Cluster
import DurableObjects.Sanity.Snapshot

/-! A cluster that can be run. The executor is a function and a URL is the name of its
object; a schedule says which turn, statement or message moves next, and how. Every
schedule that goes through is a run of the cluster. -/

namespace LDO

/-- A deployment whose executor can be evaluated. -/
structure Machine where
  serde : SerdeJson
  region : String
  namespaceId : String
  execute : ActorRequest → Option Value → Value × Value × List ActorSocketEffect

namespace Machine

variable (M : Machine)

def ofMethod (m : ActorMethodInvocation) : ActorRequest := .invoke ⟨m.requestId, m.actor, m.method, m.args⟩

def deployment : Deployment where
  serde := M.serde
  host h := ⟨h, M.namespaceId, fun _ => true, M.serde⟩
  host_id _ := rfl
  host_serde _ := rfl
  locate name := some ⟨M.region, name⟩
  invokes m state result next effects := M.execute (ofMethod m) state = (result, next, effects)
  handles m state next effects := ∃ result, M.execute (.handleSocket m) state = (result, next, effects)

/-- A ticket named after the number of tickets before it. -/
def ticket (w : World) (placement : ObjectPlacement) : StateWriteTicket :=
  let name := "snapshots/" ++ toString w.issued.length
  ⟨placement.stateVersion + 1, name, name, 60000⟩

def ticketOk (w : World) (placement : ObjectPlacement) : Prop :=
  placement.homeRegion = M.region ∧ (ticket w placement).objectName ∉ w.issued

instance (w : World) (placement : ObjectPlacement) : Decidable (M.ticketOk w placement) :=
  inferInstanceAs (Decidable (_ ∧ _))

theorem freshTicket {w : World} {placement : ObjectPlacement} (h : M.ticketOk w placement) :
    FreshTicket M.deployment w placement (ticket w placement) :=
  ⟨rfl, by rw [h.1]; rfl, h.2⟩

def prepare (w : World) (actor : ActorKey) (hostId : HostId) (ownerEpoch expectedVersion : ℕ) :
    Option (Result StateWriteTicket × World) :=
  match w.observed.find? fun p => p.object = actor.storageKey ∧ p.owner = hostId ∧ p.ownerEpoch = ownerEpoch ∧
      p.stateVersion = expectedVersion with
  | some placement =>
    if M.ticketOk w placement then some (.ok (ticket w placement), w.issue (ticket w placement)) else none
  | none => none

def confirm (w : World) (sessionId : String) (op : HostOp) : Option (Result CommittedState × World) :=
  match commitRequest sessionId op with
  | some request =>
    match w.committed.find? fun c => c.1 = request with
    | some c => some (.ok ⟨c.2.stateVersion, none⟩, w)
    | none => none
  | none => none

/-- The next call of turn `t` goes well. -/
def answer (t : ℕ) (h : HostId) (w : World) : (op : HostOp) → Option (op.Res × World)
  | .accepting => some (true, w)
  | .admission o => if w.gates h o = none then some (.ok .acquired, w.setGate h o (some t)) else none
  | .takeCachedState o => some (.ok (w.caches h o), w.setCache h o none)
  | .storeCachedState o c => some (.ok (), w.setCache h o (some c))
  | .read name =>
    match w.objects ⟨M.region, name⟩ with
    | some bytes => some (.ok ⟨bytes⟩, w)
    | none => none
  | .write name bytes =>
    let u : Upload := ⟨t, ⟨M.region, name⟩, bytes⟩
    some (.ok .written, (w.upload u).land u)
  | .invokeWithState m state =>
    let out := M.execute (ofMethod m) state
    some (.ok (.completed out.1 out.2.1 out.2.2), w)
  | .handleSocketWithState m state =>
    let out := M.execute (.handleSocket m) state
    some (.ok (.handled out.2.1 out.2.2), w)
  | .evict _ => some (.ok (), w)
  | .unixMillis => some (.ok (0 : ℕ), w)
  | .prepareStateWrite actor hostId ownerEpoch expectedVersion =>
    M.prepare w actor hostId ownerEpoch expectedVersion
  | .commitState actor hostId ownerEpoch expectedVersion stateObject requestId =>
    confirm w (w.sessions h) (.commitState actor hostId ownerEpoch expectedVersion stateObject requestId)

/-- The next call of a turn fails, and nothing happens. -/
def failure (w : World) : (op : HostOp) → Option (op.Res × World)
  | .read _ => some (.error (.new "read failed"), w)
  | .write .. => some (.error (.new "write failed"), w)
  | .invokeWithState .. => some (.error (.new "executor failed"), w)
  | .handleSocketWithState .. => some (.error (.new "executor failed"), w)
  | .prepareStateWrite .. => some (.error (.new "prepare failed"), w)
  | .commitState .. => some (.error (.new "commit failed"), w)
  | _ => none

variable {M} {t : ℕ} {h : HostId} {w w' : World}

theorem answer_sound {op : HostOp} {r : op.Res} (hr : M.answer t h w op = some (r, w')) :
    Answers M.deployment t h w op r w' := by
  cases op with
  | accepting => cases hr; exact .accepting true
  | admission o =>
    simp only [answer] at hr
    split_ifs at hr with hg
    cases hr
    exact .acquired hg
  | takeCachedState o => cases hr; exact .take
  | storeCachedState o c => cases hr; exact .store
  | read name =>
    simp only [answer] at hr
    split at hr
    · rename_i bytes ho
      cases hr
      exact .read rfl ho
    · cases hr
  | write name bytes => cases hr; exact .written .written rfl
  | invokeWithState m state => cases hr; exact .invoked rfl
  | handleSocketWithState m state => cases hr; exact .handled ⟨_, rfl⟩
  | evict actor => cases hr; exact .evict _
  | unixMillis => cases hr; exact .unixMillis _
  | prepareStateWrite actor hostId ownerEpoch expectedVersion =>
    simp only [answer, prepare] at hr
    split at hr
    · rename_i placement hfind
      split_ifs at hr with hticket
      cases hr
      have hm := List.mem_of_find?_eq_some hfind
      have hfound := List.find?_some hfind
      obtain ⟨ho, hown, hep, hver⟩ := of_decide_eq_true hfound
      exact .prepared hm ho hown hep hver (M.freshTicket hticket)
    · cases hr
  | commitState actor hostId ownerEpoch expectedVersion stateObject requestId =>
    simp only [answer, confirm, commitRequest] at hr
    split at hr
    · rename_i c hfind
      cases hr
      have hm := List.mem_of_find?_eq_some hfind
      have hfound := List.find?_some hfind
      obtain ⟨request, placement⟩ := c
      obtain rfl := of_decide_eq_true hfound
      exact .committed hm
    · cases hr

theorem failure_sound {op : HostOp} {r : op.Res} (hr : failure w op = some (r, w')) :
    Answers M.deployment t h w op r w' := by
  cases op with
  | read name => cases hr; exact .readFailed _
  | write name bytes => cases hr; exact .notWritten _
  | invokeWithState m state => cases hr; exact .notInvoked (by simp)
  | handleSocketWithState m state => cases hr; exact .notHandled (by simp)
  | prepareStateWrite => cases hr; exact .notPrepared _
  | commitState => cases hr; exact .notCommitted _
  | _ => cases hr

/-! ### Schedules -/

inductive Command where
  | observe (o : ActorStorageKey)
  | arrive (t : ℕ) (h : HostId) (call : HostCall)
  | answer (t : ℕ)
  | fail (t : ℕ)
  | send (t : ℕ)
  | storeCall (i : ℕ) (call : StoreCall)
  | storeCommit (i n : ℕ)
  | storeRun (i : ℕ)
  | storeAnswer (i : ℕ)
  | finish (t : ℕ)
  | drop (t : ℕ)

/-- The capability of a call, checked against the rows that were read. -/
def capable (M : Machine) (w : World) (h : HostId) (call : HostCall) : Prop :=
  call.ownerEpoch ≤ u64Max ∧ ∃ p ∈ w.observed, p.object = call.request.object ∧ p.owner = h ∧
    p.ownerEpoch = call.ownerEpoch ∧ p.stateVersion = call.stateVersion ∧
    match p.stateObject with
    | some name => some (Location.mk M.region call.stateReadUrl) = some ⟨p.homeRegion, name⟩
    | none => call.stateReadUrl = ""

instance (M : Machine) (w : World) (h : HostId) (call : HostCall) : Decidable (M.capable w h call) := by
  unfold capable
  have : ∀ p : ObjectPlacement, Decidable (match p.stateObject with
      | some name => some (Location.mk M.region call.stateReadUrl) = some ⟨p.homeRegion, name⟩
      | none => call.stateReadUrl = "") := fun p => by
    split <;> infer_instance
  infer_instance

def isCommitCall : StoreCall → Bool
  | .commitState _ => true
  | _ => false

def storeStep (s : ClusterState) (e : StoreEvent) (store : StoreState) : ClusterState :=
  { s with world := { s.world with store := store, committed := s.world.committed ++ e.confirmed } }

def step (M : Machine) (s : ClusterState) : Command → Option ClusterState
  | .observe o =>
    match s.world.row o with
    | some row => some { s with world := { s.world with observed := s.world.observed ++ [placementFromRow o row] } }
    | none => none
  | .arrive t h call =>
    if s.world.calls t = none ∧ M.capable s.world h call then
      some ⟨{ s.world with calls := Function.update s.world.calls t (some (h, call)) },
        Function.update s.turns t (some ((h, call), call.program (M.deployment.host h)))⟩
    else none
  | .answer t =>
    match s.turns t with
    | some ((h, call), .call op next) =>
      match M.answer t h s.world op with
      | some (r, w) => some ⟨w.log t ⟨op, r⟩, Function.update s.turns t (some ((h, call), next r))⟩
      | none => none
    | _ => none
  | .fail t =>
    match s.turns t with
    | some ((h, call), .call op next) =>
      match failure s.world op with
      | some (r, w) => some ⟨w.log t ⟨op, r⟩, Function.update s.turns t (some ((h, call), next r))⟩
      | none => none
    | _ => none
  | .send t =>
    match s.turns t with
    | some ((h, _), .call op _) =>
      match commitRequest (s.world.sessions h) op with
      | some request => some { s with world := { s.world with sent := s.world.sent ++ [request] } }
      | none => none
    | _ => none
  | .storeCall i call =>
    if s.world.store.calls i = none ∧ isCommitCall call = false then
      some (storeStep s (.arrive i call) { s.world.store with
        calls := Function.update s.world.store.calls i (some (call, call.program)) })
    else none
  | .storeCommit i n =>
    match s.world.sent[n]? with
    | some request =>
      if s.world.store.calls i = none then
        some (storeStep s (.arrive i (.commitState request)) { s.world.store with
          calls := Function.update s.world.store.calls i
            (some (.commitState request, (StoreCall.commitState request).program)) })
      else none
    | none => none
  | .storeRun i =>
    match s.world.store.calls i with
    | some (call, .call sql next) =>
      match sql.run s.world.store.store.db with
      | .ok (rows, db) => some (storeStep s (.statement i sql)
          ⟨s.world.store.store.write db, Function.update s.world.store.calls i (some (call, next (.ok rows)))⟩)
      | .error _ => none
    | _ => none
  | .storeAnswer i =>
    match s.world.store.calls i with
    | some (call, .ret answer) => some (storeStep s (.answer i call answer) { s.world.store with
        calls := Function.update s.world.store.calls i none })
    | _ => none
  | .finish t =>
    match s.turns t with
    | some ((h, call), .ret answer) =>
      some ⟨{ s.world.release h call.request.object t with
        answers := Function.update s.world.answers t (some answer) }, Function.update s.turns t none⟩
    | _ => none
  | .drop t =>
    match s.turns t with
    | some ((h, call), _) => some ⟨s.world.release h call.request.object t, Function.update s.turns t none⟩
    | none => none

variable {s s' : ClusterState}

/-- No turn is dropped, and if a request arrives, it carries epoch `n`. -/
def Command.atEpoch (n : ℕ) : Command → Bool
  | .arrive _ _ call => call.ownerEpoch = n
  | .drop _ => false
  | _ => true

def AtEpoch (n : ℕ) : ClusterEvent → Prop
  | .arrive _ _ call => call.ownerEpoch = n
  | .drop _ => False
  | .restart .. => False
  | _ => True

theorem step_sound {c : Command} (h : M.step s c = some s') :
    ∃ e, ClusterStep M.deployment s e s' ∧ ∀ n, c.atEpoch n → AtEpoch n e := by
  cases c with
  | observe o =>
    simp only [step] at h
    split at h
    · rename_i hrow; cases h; exact ⟨_, .observe hrow, fun _ _ => trivial⟩
    · cases h
  | arrive t host call =>
    simp only [step] at h
    split_ifs at h with hc
    cases h
    exact ⟨_, .arrive hc.1 hc.2, fun n hn => (of_decide_eq_true hn : call.ownerEpoch = n)⟩
  | answer t =>
    simp only [step] at h
    split at h
    · rename_i ht
      split at h
      · rename_i ha; cases h; exact ⟨_, .call ht (answer_sound ha), fun _ _ => trivial⟩
      · cases h
    · cases h
  | fail t =>
    simp only [step] at h
    split at h
    · rename_i ht
      split at h
      · rename_i ha; cases h; exact ⟨_, .call ht (failure_sound ha), fun _ _ => trivial⟩
      · cases h
    · cases h
  | send t =>
    simp only [step] at h
    split at h
    · rename_i ht
      split at h
      · rename_i hq; cases h; exact ⟨_, .send ht hq, fun _ _ => trivial⟩
      · cases h
    · cases h
  | storeCall i call =>
    simp only [step] at h
    split_ifs at h with hc
    cases h
    refine ⟨_, .store (.arrive call hc.1) ?_, fun _ _ => trivial⟩
    intro j request heq
    cases heq
    cases hc.2
  | storeCommit i n =>
    simp only [step] at h
    split at h
    · rename_i request hn
      split_ifs at h with hc
      cases h
      refine ⟨_, .store (.arrive _ hc) ?_, fun _ _ => trivial⟩
      intro j request' heq
      cases heq
      exact List.mem_of_getElem? hn
    · cases h
  | storeRun i =>
    simp only [step] at h
    split at h
    · rename_i hi
      split at h
      · rename_i hr; cases h; exact ⟨_, .store (.statement hi (.rows hr)) (by simp), fun _ _ => trivial⟩
      · cases h
    · cases h
  | storeAnswer i =>
    simp only [step] at h
    split at h
    · rename_i hi; cases h; exact ⟨_, .store (.answer hi) (by simp), fun _ _ => trivial⟩
    · cases h
  | finish t =>
    simp only [step] at h
    split at h
    · rename_i ht; cases h; exact ⟨_, .finish ht, fun _ _ => trivial⟩
    · cases h
  | drop t =>
    simp only [step] at h
    split at h
    · rename_i ht; cases h; exact ⟨_, .drop ht, fun _ hn => Bool.noConfusion hn⟩
    · cases h

def run (M : Machine) : List Command → ClusterState → Option ClusterState
  | [], s => some s
  | c :: cs, s =>
    match M.step s c with
    | some s' => M.run cs s'
    | none => none

/-- A schedule that goes through is a run. -/
theorem run_sound {cs : List Command} (h : M.run cs s = some s') :
    ∃ evs, (clusterSystem M.deployment).Path s evs s' ∧ ∀ n, cs.all (·.atEpoch n) → ∀ e ∈ evs, AtEpoch n e := by
  induction cs generalizing s with
  | nil => cases h; exact ⟨[], .nil _, nofun⟩
  | cons c cs ih =>
    rw [run] at h
    split at h
    · rename_i s₁ hs
      obtain ⟨e, he, hepoch⟩ := step_sound hs
      obtain ⟨evs, hp, hepochs⟩ := ih h
      refine ⟨[e] ++ evs, (System.Path.single he).trans hp, fun n hall => ?_⟩
      rw [List.all_cons, Bool.and_eq_true] at hall
      simpa using ⟨hepoch n hall.1, hepochs n hall.2⟩
    · cases h

def initial : ClusterState := ⟨.empty fun _ => "session-1", fun _ => none⟩

theorem reachable_of_run {cs : List Command} (h : M.run cs initial = some s') :
    (clusterSystem M.deployment).Reachable s' := by
  obtain ⟨evs, hp, -⟩ := run_sound h
  exact ⟨evs, _, ⟨_, rfl⟩, hp⟩

/-- The state a call hands to the executor. -/
def executedOn : HostOp → Option (Option Value)
  | .invokeWithState _ state => some state
  | .handleSocketWithState _ state => some state
  | _ => none

/-- The state on which turn `t` is about to run its request. -/
def executing (s : ClusterState) (t : ℕ) : Option (Option Value) :=
  match s.turns t with
  | some (_, .call op _) => executedOn op
  | _ => none

end Machine

/-! ### A counter -/

def counterValue : Option Value → ℕ
  | some (.obj [(_, .num n)]) => n.asU64.getD 0
  | _ => 0

/-- Every call adds one. -/
def counter : Machine where
  serde := literalSerde
  region := "us-east"
  namespaceId := "acme"
  execute _ state :=
    let n : Value := .num (.ofNat (counterValue state + 1))
    (n, .obj [("value", n)], [])

def counterKey : ActorKey := ⟨"acme", "Counter", "1"⟩

def counterObject : ActorStorageKey := counterKey.storageKey

def hostA : HostId := ⟨"host-a"⟩

def hostB : HostId := ⟨"host-b"⟩

def increment (requestId : String) (ownerEpoch stateVersion : ℕ) (url : String) : HostCall :=
  ⟨.invoke ⟨requestId, counterKey, "increment", []⟩, ownerEpoch, stateVersion, url⟩

@[simp] theorem increment_object (requestId : String) (ownerEpoch stateVersion : ℕ) (url : String) :
    (increment requestId ownerEpoch stateVersion url).request.object = counterObject := rfl

/-- Host A takes the counter, gets a lease, and its row is read. -/
def claimed : List Machine.Command :=
  [.storeCall 0 (.claim counterObject none hostA "us-east"), .storeRun 0,
    .storeCall 1 (.register ⟨hostA, "session-1", "http://a", 60000⟩), .storeRun 1, .observe counterObject]

/-- The commit of turn `t`, the `n`th that was sent, goes through as store call `i`. -/
def committing (t i n : ℕ) : List Machine.Command := [.send t, .storeCommit i n, .storeRun i, .storeAnswer i]

/-- Turn `t` runs alone on host A, up to where its state is written. -/
def uploading (t : ℕ) (call : HostCall) : List Machine.Command :=
  .arrive t hostA call :: List.replicate 7 (.answer t)

def incremented : List Machine.Command :=
  claimed ++ uploading 0 (increment "request-1" 1 0 "") ++ committing 0 2 0 ++ [.answer 0, .answer 0, .finish 0]

/-! ### A gauge

`serde_json` divides the digits of a float by a power of ten. It reads each of these two
neighbours as the other. -/

def lowText : List Char := "9.61132577189144e-11".toList

def highText : List Char := "9.611325771891441e-11".toList

def low : Number := ⟨lowText, by decide⟩

def high : Number := ⟨highText, by decide⟩

def dividingSerde : SerdeJson where
  number cs := if cs = lowText then some high else if cs = highText then some low else literalSerde.number cs
  maxDepth := 127
  integers n _ := by
    have hdigit : ∀ c ∈ Nat.toDigits 10 n, c.isDigit = true :=
      fun c hc => Nat.isDigit_of_mem_toDigits (by decide) (by decide) hc
    have hpoint : ∀ cs : List Char, '.' ∈ cs → Nat.toDigits 10 n ≠ cs := by
      rintro cs hpoint rfl
      exact absurd (hdigit '.' hpoint) (by decide)
    rw [if_neg (hpoint _ (by decide)), if_neg (hpoint _ (by decide))]
    exact literalSerde.integers n ‹_›

/-- Every call returns the value of the gauge, and keeps it. -/
def gauge : Machine where
  serde := dividingSerde
  region := "us-east"
  namespaceId := "acme"
  execute _ _ := (.num low, .obj [("value", .num low)], [])

end LDO
