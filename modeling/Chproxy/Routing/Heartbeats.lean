/-
Heartbeats (`internal/heartbeat/heartbeat.go`, `StartHeartbeat` and `heartbeat` in `internal/topology/node.go`): the
nodes of a cluster, each checked by a goroutine of its own, while requests are served. How long a node that has
gone down, or come up again, can still be taken for what it was.
-/
import Chproxy.Lib.Monitor
import Chproxy.Routing.Sticky

namespace Chproxy.Routing.Heartbeats

open Monitor (Phase Timing)

/-! ## `IsHealthy` -/

/-- What is sent to the node. -/
structure Probe where
  method : String
  url : String
  basicAuth : Option (String × String)

/-- What comes back within the timeout: nothing, or a response whose body may break off. -/
inductive Reply
  | failed
  | response (status : Nat) (body : Option String)

inductive HealthError
  | cannotSend
  | statusCode (status : Nat)
  | cannotRead
  | unexpectedResponse (r : String)
  deriving DecidableEq, Repr

def defaultEndpoint : String := "/ping"

/-- Credentials are not needed for the default endpoint. -/
def probe (n : Node) : Probe where
  method := "GET"
  url := n.scheme ++ "://" ++ n.host ++ n.hb.request
  basicAuth := if n.hb.request ≠ defaultEndpoint then some (n.hb.user, n.hb.password) else none

/-- `IsHealthy` of a node that answers as given. -/
def isHealthy (n : Node) (answer : Probe → Reply) : Option HealthError :=
  match answer (probe n) with
  | .failed => some .cannotSend
  | .response status body =>
    if status ≠ 200 then some (.statusCode status)
    else
      match body with
      | none => some .cannotRead
      | some r => if r ≠ n.hb.response then some (.unexpectedResponse r) else none

/-! ## The goroutines of the nodes -/

/-- The cluster, the time since the goroutines were started, and what each of them does. `failed` is when a request
last got a 502 from the node; nothing reads it. -/
structure Beating where
  live : Live
  now : Nat
  phase : HostId → Phase
  failed : HostId → Option Nat

inductive Act
  /-- `IsHealthy` returns with the answer of the node. -/
  | beat (h : HostId) (answer : Probe → Reply)
  /-- `IsHealthy` returns since its context has timed out. -/
  | expire (h : HostId)
  /-- `time.After` fires. -/
  | wake (h : HostId)
  /-- `done` is closed. -/
  | done (h : HostId)
  /-- `SetIsActive(false)` of a request that got a 502. -/
  | deactivate (h : HostId)
  /-- Anything else that requests do to the cluster. -/
  | call (a : Call)
  | pass (d : Nat)

variable (c : Cluster) (slack : Nat)

/-- The `*topology.Node` at this place. -/
def nodeAt (h : HostId) : Option Node := c.replicas[h.replica]?.bind (·.hosts[h.host]?)

/-- The durations of the node, and how late a timer may be. -/
def timing (n : Node) : Timing := ⟨n.hb.timeout.toInt.toNat, n.hb.interval.toInt.toNat, slack⟩

namespace Beating

/-- `heartbeat` ends, and `StartHeartbeat` waits for the next one. -/
def conclude (s : Beating) (n : Node) (h : HostId) (healthy : Bool) : Beating :=
  { s with
    live := s.live.update h (·.setIsActive healthy)
    phase := Function.update s.phase h (.pausing (s.now + n.hb.interval.toInt.toNat)) }

def setPhase (s : Beating) (h : HostId) (p : Phase) : Beating := { s with phase := Function.update s.phase h p }

def deactivate (s : Beating) (h : HostId) : Beating :=
  { s with live := s.live.update h (·.setIsActive false), failed := Function.update s.failed h (some s.now) }

/-- Every timer of the nodes is late by no more than the slack at the time `t`. -/
def inTime (s : Beating) (t : Nat) : Bool :=
  c.hostIds.all fun h => (nodeAt c h).all fun n => (s.phase h).inTime (timing slack n) t

def step (s : Beating) : Act → Option Beating
  | .beat h answer => do
    let n ← nodeAt c h
    match s.phase h with
    | .checking _ => some (s.conclude n h (isHealthy n answer).isNone)
    | _ => none
  -- the context of the check times out, as an answer that did not come
  | .expire h => do
    let n ← nodeAt c h
    match s.phase h with
    | .checking since => if since + n.hb.timeout.toInt.toNat ≤ s.now then some (s.conclude n h false) else none
    | _ => none
  | .wake h =>
    match s.phase h with
    | .pausing due => if due ≤ s.now then some (s.setPhase h (.checking s.now)) else none
    | _ => none
  | .done h =>
    match s.phase h with
    | .pausing _ => some (s.setPhase h .stopped)
    | _ => none
  | .deactivate h => some (s.deactivate h)
  | .call a => some { s with live := s.live.call c a }
  | .pass d => if s.inTime c slack (s.now + d) then some { s with now := s.now + d } else none

/-- All goroutines have been started, and no node is active yet. -/
structure Started (s : Beating) : Prop where
  now : s.now = 0
  phase : ∀ h, s.phase h = .checking 0
  inactive : ∀ h, s.live.flags h = false
  failed : ∀ h, s.failed h = none

/-- From the time `t` on the node is healthy, or it is not: checks that begin then find it so. -/
structure Lasting (h : HostId) (b : Bool) (t : Nat) (s : Beating) (a : Act) (_ : Beating) : Prop where
  beat : ∀ n since answer, nodeAt c h = some n → s.phase h = .checking since → a = .beat h answer → t ≤ since →
    (isHealthy n answer).isNone = b
  expire : ∀ since, s.phase h = .checking since → a = .expire h → t ≤ since → b = false

/-! ## One node -/

variable {c slack} {s s' : Beating} {a : Act} {h x : HostId} {n : Node} {b : Bool} {t : Nat}

/-- What one step does, with what it has tested. -/
inductive Moves (c : Cluster) (slack : Nat) (s : Beating) : Act → Beating → Prop
  | beat {x : HostId} {n : Node} {since : Nat} (answer : Probe → Reply) : nodeAt c x = some n →
      s.phase x = .checking since → Moves c slack s (.beat x answer) (s.conclude n x (isHealthy n answer).isNone)
  | expire {x : HostId} {n : Node} {since : Nat} : nodeAt c x = some n → s.phase x = .checking since →
      since + n.hb.timeout.toInt.toNat ≤ s.now → Moves c slack s (.expire x) (s.conclude n x false)
  | wake {x : HostId} {due : Nat} : s.phase x = .pausing due → due ≤ s.now →
      Moves c slack s (.wake x) (s.setPhase x (.checking s.now))
  | done {x : HostId} {due : Nat} : s.phase x = .pausing due → Moves c slack s (.done x) (s.setPhase x .stopped)
  | deactivate (x : HostId) : Moves c slack s (.deactivate x) (s.deactivate x)
  | call (a : Call) : Moves c slack s (.call a) { s with live := s.live.call c a }
  | pass (d : Nat) : s.inTime c slack (s.now + d) = true → Moves c slack s (.pass d) { s with now := s.now + d }

theorem Lasting.mono {t' : Nat} (hle : t ≤ t') (h : Lasting c x b t s a s') : Lasting c x b t' s a s' :=
  ⟨fun n since answer hn hphase ha hs => h.beat n since answer hn hphase ha (hle.trans hs),
    fun since hphase ha hs => h.expire since hphase ha (hle.trans hs)⟩

end Beating

/-! ## Nodes that go down, and come up again -/

end Chproxy.Routing.Heartbeats
