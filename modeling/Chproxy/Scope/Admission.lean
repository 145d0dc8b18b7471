/-
Admission of requests (`scope.go`: `incQueued`, `waitUntilAllowStart`, `inc`, `dec`; `proxy.go`: the
host bookkeeping of `executeWithRetry`) as a pool of threads: every request is a thread, and each of
its steps is one atomic operation on the shared counters, queues and gauges, as the Go code performs
them. What the code cannot decide by itself (which host `getHost` returns, whether the wait deadline
has passed, how a proxied attempt ends) is an argument of the step.

`With` of a gauge panics on a label value that is not UTF-8. A name of the configuration is, but the
cluster user of a wildcarded request has the name the client sent. The deferred functions of `incQueued`
then run as after a return, and nothing else does: `net/http` recovers the panic.
-/
import Chproxy.Lib.Pool
import Mathlib.Logic.Function.Basic

namespace Chproxy.Scope

/-! ## Counters and limits -/

/-- `counter` (and `counter.Counter`): a `uint32` changed by atomic additions. -/
abbrev Counter := UInt32

def Counter.inc (c : Counter) : Counter := c + 1

def Counter.dec (c : Counter) : Counter := c + ~~~0

/-- The two sides of an admission: the chproxy user and the ClickHouse user it maps to. -/
inductive Side
  | user
  | clusterUser
  deriving DecidableEq, Repr

/-- The limits that `user` and `clusterUser` have in common. `queueCh` is the capacity of the queue
channel, `none` for a nil channel. -/
structure Limits where
  name : String
  maxConcurrentQueries : UInt32
  reqPerMin : Int32
  reqPacketSizeTokensBurst : UInt64
  queueCh : Option Nat
  deriving DecidableEq, Repr

/-- A `*user` or a `*clusterUser`: which of the two, and its address. -/
structure Acct where
  side : Side
  ptr : Nat
  deriving DecidableEq, Repr

/-- The errors of `inc`, each with the arguments of its message. -/
inductive LimitError
  | maxConcurrentQueries (side : Side) (name : String) (limit : UInt32)
  | requestsPerMinute (side : Side) (name : String) (limit : Int32)
  | requestPacketSizeTokensBurst (side : Side) (name : String) (limit : UInt64)
  deriving DecidableEq, Repr

def Limits.checkConcurrent (l : Limits) (side : Side) (queries : UInt32) : Option LimitError :=
  if l.maxConcurrentQueries > 0 && queries > l.maxConcurrentQueries then
    some (.maxConcurrentQueries side l.name l.maxConcurrentQueries)
  else none

/-- The `int32(xRPM) > 0` test makes a counter that was decremented after the per-minute zeroing
count as empty. -/
def Limits.checkRate (l : Limits) (side : Side) (rpm : UInt32) : Option LimitError :=
  if (l.reqPerMin > 0 && rpm.toInt32 > 0 && rpm > l.reqPerMin.toUInt32) || l.reqPerMin < 0 then
    some (.requestsPerMinute side l.name l.reqPerMin)
  else none

/-- `rate.Limiter.AllowN` on a bucket of `tokens`. -/
def allowN (tokens n : Nat) : Option Nat := if n ≤ tokens then some (tokens - n) else none

/-- The packet-size check: the bucket afterwards and the error. -/
def Limits.checkPacketSize (l : Limits) (side : Side) (tokens n : Nat) : Nat × Option LimitError :=
  if l.reqPacketSizeTokensBurst > 0 then
    match allowN tokens n with
    | some left => (left, none)
    | none => (tokens, some (.requestPacketSizeTokensBurst side l.name l.reqPacketSizeTokensBurst))
  else (tokens, none)

/-- `if err2 != nil { err = err2 }`. -/
def override (err2 err : Option LimitError) : Option LimitError :=
  match err2 with
  | some e => some e
  | none => err

/-! ## Shared data -/

/-- The label set of `concurrentQueries`. -/
structure Labels where
  user : String
  cluster : String
  clusterUser : String
  replica : String
  clusterNode : String
  deriving DecidableEq, Repr

/-- The label set of `requestQueueSize`. -/
structure QueueLabels where
  user : String
  cluster : String
  clusterUser : String
  deriving DecidableEq, Repr

def Labels.queue (l : Labels) : QueueLabels := ⟨l.user, l.cluster, l.clusterUser⟩

structure Shared where
  queryCounter : Acct → Counter
  rateLimiter : Acct → Counter
  tokens : Acct → Nat
  queueLen : Acct → Nat
  connections : Nat → Counter
  active : Nat → Bool
  concurrentQueries : Labels → Int
  requestQueueSize : QueueLabels → Int

namespace Shared

variable (h : Shared) (a : Acct) (n : Nat)

def incQuery : Shared := { h with queryCounter := Function.update h.queryCounter a (h.queryCounter a).inc }

def decQuery : Shared := { h with queryCounter := Function.update h.queryCounter a (h.queryCounter a).dec }

def incRate : Shared := { h with rateLimiter := Function.update h.rateLimiter a (h.rateLimiter a).inc }

def decRate : Shared := { h with rateLimiter := Function.update h.rateLimiter a (h.rateLimiter a).dec }

def setTokens : Shared := { h with tokens := Function.update h.tokens a n }

/-- `queueCh <- struct{}{}` on a channel that is not full. -/
def send : Shared := { h with queueLen := Function.update h.queueLen a (h.queueLen a + 1) }

/-- `<-queueCh`, which blocks on an empty channel. -/
def receive : Option Shared :=
  if 0 < h.queueLen a then some { h with queueLen := Function.update h.queueLen a (h.queueLen a - 1) } else none

def incrementConnections : Shared :=
  { h with connections := Function.update h.connections n (h.connections n).inc }

def decrementConnections : Shared :=
  { h with connections := Function.update h.connections n (h.connections n).dec }

def setIsActive (up : Bool) : Shared := { h with active := Function.update h.active n up }

def addConcurrent (l : Labels) (d : Int) : Shared :=
  { h with concurrentQueries := Function.update h.concurrentQueries l (h.concurrentQueries l + d) }

def addQueueSize (l : QueueLabels) (d : Int) : Shared :=
  { h with requestQueueSize := Function.update h.requestQueueSize l (h.requestQueueSize l + d) }

end Shared

/-- What never changes: the limits of every user and cluster user, the names of every node, and which
values of labels are UTF-8 (`utf8.ValidString`). -/
structure Env where
  limits : Acct → Limits
  replicaName : Nat → String
  host : Nat → String
  validLabel : String → Bool

def Env.validQueueLabels (env : Env) (l : QueueLabels) : Bool :=
  env.validLabel l.user && env.validLabel l.cluster && env.validLabel l.clusterUser

def Env.validLabels (env : Env) (l : Labels) : Bool :=
  env.validQueueLabels l.queue && env.validLabel l.replica && env.validLabel l.clusterNode

/-! ## Requests -/

/-- Where a request is: the next atomic operation it performs. `incReturned` and `returned` are the
points where `inc` and `incQueued` have returned `err`. -/
inductive Pc
  | incQueued
  | enqueue (side : Side)
  | queueSizeInc
  | inc (side : Side)
  | rate (side : Side)
  | packetSize (side : Side)
  | undo (side : Side)
  | undoRate (side : Side)
  | connect
  | gaugeInc
  | incReturned
  | rechoose
  | queueSizeDec
  | leave (side : Side)
  | returned
  | attempt
  | deactivate
  | pickHost
  | retryDec
  | retryInc
  | retryHost
  | dec (side : Side)
  | decHost
  | gaugeDec
  | done
  deriving DecidableEq, Repr

/-- The scope of a request and the locals of the functions it is in. `slot` tells which deferred
queue releases are registered, `waiting` whether the wait loop calls `inc`, `next` is `nextHost`,
`panic` the point whose operation panicked. `incLabels` records the labels under which
`concurrentQueries` was incremented. -/
structure Request where
  user : Nat
  clusterUser : Nat
  sessionId : String
  requestPacketSize : Nat
  retryNumber : Int
  host : Nat
  labels : Labels
  uQueries : UInt32 := 0
  cQueries : UInt32 := 0
  err : Option LimitError := none
  uSlot : Bool := false
  cSlot : Bool := false
  waiting : Bool := false
  next : Nat := 0
  numRetry : Int := 0
  panic : Option Pc := none
  incLabels : Option Labels := none
  pc : Pc := .incQueued
  deriving DecidableEq, Repr

namespace Request

def ptr (r : Request) : Side → Nat
  | .user => r.user
  | .clusterUser => r.clusterUser

def acct (r : Request) (side : Side) : Acct := ⟨side, r.ptr side⟩

def slot (r : Request) : Side → Bool
  | .user => r.uSlot
  | .clusterUser => r.cSlot

def setSlot (r : Request) (side : Side) (b : Bool) : Request :=
  match side with
  | .user => { r with uSlot := b }
  | .clusterUser => { r with cSlot := b }

/-- The value returned by the counter of one side. -/
def queries (r : Request) : Side → UInt32
  | .user => r.uQueries
  | .clusterUser => r.cQueries

/-- `inc` has returned nil, once it has ended. -/
def ok (r : Request) : Bool := r.err == none && r.panic == none

/-- `inc` has panicked after its increments, which nobody takes back: `dec` is deferred only later. -/
def stranded (r : Request) : Bool := r.panic == some .gaugeInc

end Request

/-- What a request needs from `getScope`: the user, the cluster and the cluster user found, and the
host `newScope` chose. -/
structure Arrival where
  user : Nat
  clusterUser : Nat
  cluster : String
  sessionId : String
  requestPacketSize : Nat
  retryNumber : Int
  host : Nat

def newScope (env : Env) (a : Arrival) : Request where
  user := a.user
  clusterUser := a.clusterUser
  sessionId := a.sessionId
  requestPacketSize := a.requestPacketSize
  retryNumber := a.retryNumber
  host := a.host
  labels :=
    { user := (env.limits ⟨.user, a.user⟩).name
      cluster := a.cluster
      clusterUser := (env.limits ⟨.clusterUser, a.clusterUser⟩).name
      replica := env.replicaName a.host
      clusterNode := env.host a.host }

/-- What the code leaves open at a step: whether the wait deadline has passed, the host returned by
`getHost`, and whether the proxied attempt ended with a 502 (`false` also stands for every other way
out of the handler: a cached response, an error, a panic). -/
structure Choice where
  expired : Bool := false
  next : Nat := 0
  badGateway : Bool := false

/-- Where control goes once the queue of `side` has been entered (or is disabled). -/
def afterEnqueue : Side → Pc
  | .user => .enqueue .clusterUser
  | .clusterUser => .queueSizeInc

/-- One atomic operation of a request. -/
def advance (env : Env) (h : Shared) (r : Request) (c : Choice) : Option (Shared × Request) :=
  let lim := fun side => env.limits (r.acct side)
  match r.pc with
  | .incQueued =>
    if (lim .user).queueCh = none ∧ (lim .clusterUser).queueCh = none then
      some (h, { r with pc := .inc .user })
    else some (h, { r with pc := .enqueue .user })
  | .enqueue side =>
    match (lim side).queueCh with
    | none => some (h, { r with pc := afterEnqueue side })
    | some cap =>
      if h.queueLen (r.acct side) < cap then
        some (h.send (r.acct side), { r.setSlot side true with pc := afterEnqueue side })
      else
        -- the queue is full: the last chance to run
        some (h, { r with pc := .inc .user })
  | .queueSizeInc =>
    if env.validQueueLabels r.labels.queue then
      some (h.addQueueSize r.labels.queue 1, { r with waiting := true, pc := .inc .user })
    else some (h, { r with panic := some .queueSizeInc, pc := .leave .clusterUser })
  | .inc .user =>
    some (h.incQuery (r.acct .user),
      { r with uQueries := (h.queryCounter (r.acct .user)).inc, pc := .inc .clusterUser })
  | .inc .clusterUser =>
    let q := (h.queryCounter (r.acct .clusterUser)).inc
    let err := (lim .user).checkConcurrent .user r.uQueries
    let err := override ((lim .clusterUser).checkConcurrent .clusterUser q) err
    some (h.incQuery (r.acct .clusterUser), { r with cQueries := q, err := err, pc := .rate .user })
  | .rate .user =>
    let rpm := (h.rateLimiter (r.acct .user)).inc
    some (h.incRate (r.acct .user),
      { r with err := override ((lim .user).checkRate .user rpm) r.err, pc := .rate .clusterUser })
  | .rate .clusterUser =>
    let rpm := (h.rateLimiter (r.acct .clusterUser)).inc
    some (h.incRate (r.acct .clusterUser),
      { r with err := override ((lim .clusterUser).checkRate .clusterUser rpm) r.err, pc := .packetSize .user })
  | .packetSize .user =>
    let res := (lim .user).checkPacketSize .user (h.tokens (r.acct .user)) r.requestPacketSize
    some (h.setTokens (r.acct .user) res.1,
      { r with err := override res.2 r.err, pc := .packetSize .clusterUser })
  | .packetSize .clusterUser =>
    let res := (lim .clusterUser).checkPacketSize .clusterUser (h.tokens (r.acct .clusterUser)) r.requestPacketSize
    match override res.2 r.err with
    | some e => some (h.setTokens (r.acct .clusterUser) res.1, { r with err := some e, pc := .undo .user })
    | none => some (h.setTokens (r.acct .clusterUser) res.1, { r with err := none, pc := .connect })
  | .undo .user => some (h.decQuery (r.acct .user), { r with pc := .undo .clusterUser })
  | .undo .clusterUser => some (h.decQuery (r.acct .clusterUser), { r with pc := .undoRate .user })
  | .undoRate .user => some (h.decRate (r.acct .user), { r with pc := .undoRate .clusterUser })
  | .undoRate .clusterUser => some (h.decRate (r.acct .clusterUser), { r with pc := .incReturned })
  | .connect => some (h.incrementConnections r.host, { r with pc := .gaugeInc })
  | .gaugeInc =>
    if env.validLabels r.labels then
      some (h.addConcurrent r.labels 1, { r with incLabels := some r.labels, pc := .incReturned })
    else if r.waiting then some (h, { r with panic := some .gaugeInc, pc := .queueSizeDec })
    else some (h, { r with panic := some .gaugeInc, pc := .leave .clusterUser })
  | .incReturned =>
    if r.waiting then
      if r.err = none ∨ c.expired then some (h, { r with pc := .queueSizeDec })
      else some (h, { r with pc := .rechoose })
    else some (h, { r with pc := .leave .clusterUser })
  | .rechoose =>
    some (h, { r with
      host := c.next
      labels := { r.labels with replica := env.replicaName c.next, clusterNode := env.host c.next }
      pc := .inc .user })
  | .queueSizeDec =>
    some (h.addQueueSize r.labels.queue (-1), { r with waiting := false, pc := .leave .clusterUser })
  | .leave .clusterUser =>
    if r.cSlot then (h.receive (r.acct .clusterUser)).map (·, { r with cSlot := false, pc := .leave .user })
    else some (h, { r with pc := .leave .user })
  | .leave .user =>
    if r.uSlot then (h.receive (r.acct .user)).map (·, { r with uSlot := false, pc := .returned })
    else some (h, { r with pc := .returned })
  | .returned =>
    -- a panic of the overflow or the `limitExcess` counter ends a rejected request as the 429 does
    if r.err = none ∧ r.panic = none then some (h, { r with pc := .attempt }) else some (h, { r with pc := .done })
  | .attempt =>
    if c.badGateway then some (h, { r with pc := .deactivate }) else some (h, { r with pc := .dec .user })
  | .deactivate => some (h.setIsActive r.host false, { r with pc := .pickHost })
  | .pickHost =>
    if r.numRetry < r.retryNumber ∧ h.active c.next = true ∧ r.sessionId = "" then
      if r.host ≠ c.next then some (h, { r with next := c.next, pc := .retryDec })
      else some (h, { r with next := c.next, pc := .retryHost })
    else some (h, { r with pc := .dec .user })
  | .retryDec => some (h.decrementConnections r.host, { r with pc := .retryInc })
  | .retryInc => some (h.incrementConnections r.next, { r with pc := .retryHost })
  | .retryHost => some (h, { r with host := r.next, numRetry := r.numRetry + 1, pc := .attempt })
  | .dec .user => some (h.decQuery (r.acct .user), { r with pc := .dec .clusterUser })
  | .dec .clusterUser => some (h.decQuery (r.acct .clusterUser), { r with pc := .decHost })
  | .decHost => some (h.decrementConnections r.host, { r with pc := .gaugeDec })
  | .gaugeDec =>
    if env.validLabels r.labels then some (h.addConcurrent r.labels (-1), { r with pc := .done })
    else some (h, { r with panic := some .gaugeDec, pc := .done })
  | .done => none

/-- What happens besides the requests: `rateLimiter.run` zeroes a rate limiter, time refills a token
bucket, the heartbeat sets the activity of a node. -/
inductive Event
  | zero (a : Acct)
  | refill (a : Acct) (n : Nat)
  | heartbeat (n : Nat) (up : Bool)

def outside (h : Shared) : Event → Option Shared
  | .zero a => some { h with rateLimiter := Function.update h.rateLimiter a 0 }
  | .refill a n => some (h.setTokens a (h.tokens a + n))
  | .heartbeat n up => some (h.setIsActive n up)

/-- All the requests of the process. -/
def admission (env : Env) : Pool.Program Shared Request Arrival Choice Event where
  spawn := newScope env
  step := advance env
  env := outside

abbrev State := Pool.St Shared Request

abbrev Action := Pool.Act Arrival Choice Event

/-- No request yet, every counter, queue and gauge at zero. -/
structure Initial (s : State) : Prop where
  threads : s.threads = []
  queryCounter : ∀ a, s.shared.queryCounter a = 0
  queueLen : ∀ a, s.shared.queueLen a = 0
  connections : ∀ n, s.shared.connections n = 0
  concurrentQueries : ∀ l, s.shared.concurrentQueries l = 0
  requestQueueSize : ∀ l, s.shared.requestQueueSize l = 0

/-! ## What a request holds -/

namespace Request

/-- Whether the request is counted by the query counter of `side`: tentatively, between the
increment and the decision of `inc`, or admitted, until `dec`, or for good when it is stranded. -/
def counted (r : Request) (side : Side) : Bool :=
  match r.pc with
  | .incQueued | .enqueue _ | .queueSizeInc | .rechoose | .inc .user => false
  | .inc .clusterUser => side == .user
  | .rate _ | .packetSize _ | .undo .user => true
  | .undo .clusterUser => side == .clusterUser
  | .undoRate _ => false
  | .connect | .gaugeInc => true
  | .incReturned | .queueSizeDec | .leave _ | .returned => r.ok || r.stranded
  | .attempt | .deactivate | .pickHost | .retryDec | .retryInc | .retryHost | .dec .user => true
  | .dec .clusterUser => side == .clusterUser
  | .decHost | .gaugeDec => false
  | .done => r.stranded

/-- `inc` has returned nil and `dec` has not yet run on the query counter of `side`. -/
def admitted (r : Request) (side : Side) : Bool :=
  match r.pc with
  | .incReturned | .queueSizeDec | .leave _ | .returned => r.ok
  | .attempt | .deactivate | .pickHost | .retryDec | .retryInc | .retryHost | .dec .user => true
  | .dec .clusterUser => side == .clusterUser
  | _ => false

/-- The account of `side` whose query counter counts the request. -/
def countedBy (r : Request) (side : Side) : Option Nat := if r.counted side then some (r.ptr side) else none

/-- The node whose connections count the request. -/
def holding (r : Request) : Option Nat :=
  match r.pc with
  | .gaugeInc => some r.host
  | .incReturned | .queueSizeDec | .leave _ | .returned => if r.ok || r.stranded then some r.host else none
  | .attempt | .deactivate | .pickHost | .retryDec | .dec _ | .decHost => some r.host
  | .retryInc => none
  | .retryHost => some r.next
  | .done => if r.stranded then some r.host else none
  | _ => none

/-- The labels under which the request is counted in `concurrentQueries`. -/
def gauged (r : Request) : Option Labels :=
  match r.pc with
  | .incReturned | .queueSizeDec | .leave _ | .returned => if r.ok then r.incLabels else none
  | .attempt | .deactivate | .pickHost | .retryDec | .retryInc | .retryHost | .dec _ | .decHost | .gaugeDec =>
    r.incLabels
  | _ => none

/-- The account of `side` in whose queue the request occupies a place. -/
def queuedIn (r : Request) (side : Side) : Option Nat := if r.slot side then some (r.ptr side) else none

/-- The labels under which the request is counted in `requestQueueSize`. -/
def queueSized (r : Request) : Option QueueLabels := if r.waiting then some r.labels.queue else none

/-- `incQueued` has returned. -/
def leftQueue (r : Request) : Bool :=
  match r.pc with
  | .returned | .attempt | .deactivate | .pickHost | .retryDec | .retryInc | .retryHost | .dec _ | .decHost
  | .gaugeDec | .done => true
  | _ => false

end Request

end Chproxy.Scope
