/-
Requests in `serveFromCache` (`proxy.go`) as a pool of threads over one cache: every call on the cache
(`Get`, `Put`), on its transaction registry (`Status`, `Create`, `Complete`, `Fail`) and on the clock is
one atomic step. Time passes, the registry is cleaned and cached responses expire between any two steps.
-/
import Chproxy.Cache.Registry
import Chproxy.Lib.Pool
import Chproxy.Proxy.Serve

namespace Chproxy.Proxy

open Utils Cache

/-! ## Requests -/

/-- How a request was answered. `cause` is how the execution ended that failed the transaction. -/
inductive Answer
  | hit
  | concurrentFailed (reason : Bytes) (cause : Option CtxErr)
  | noTmp
  | proxied
  deriving DecidableEq, Repr

/-- Where a request is in `serveFromCache`; `check` and `status` are the two halves of the loop of
`AwaitForConcurrentTransaction`, `calls` what is left to do on the cache after `proxyRequest`. -/
inductive Pc
  | get
  | enter
  | check (startTime : Int)
  | status (startTime : Int)
  | getAgain
  | newTmp
  | create
  | proxy
  | calls (left : List CacheCall)
  | done (answer : Answer)
  deriving DecidableEq

structure Client where
  key : String
  settings : Settings
  srw : Srw
  pc : Pc := .get
  /-- What remains of its own execution. -/
  execution : Option Execution := none

/-- How its own execution ended. -/
def Client.ended (t : Client) : Option CtxErr := t.execution.bind fun e => e.last.ctxErr

/-- The cache and its registry. `cause` records how the execution ended that resolved the transaction
of a key last; nothing reads it but `Answer.concurrentFailed`. -/
structure Shared where
  registry : InMemoryTransactionRegistry
  cached : String → Option (Bytes × ContentMetadata)
  now : Int
  cause : String → Option CtxErr

/-- What a step does not decide by itself: the remaining time to live of what `Get` returns, the failure
of the temporary file, how the proxied request goes, and what a failed `Put` leaves in the cache. -/
inductive Choice
  | go
  | get (ttl : Int)
  | noTmp (err : Bytes)
  | execute (rounds : List Round) (timeoutText : Bytes) (io : TmpIO)
  | putError (left : Option (Bytes × ContentMetadata))

inductive Event
  | tick (d : Nat)
  | clean (currentTime : Int)
  | evict (key : String)

/-! ## Steps -/

namespace Client

def goto (t : Client) (pc : Pc) : Client := { t with pc }

@[simp] theorem pc_goto (t : Client) (pc : Pc) : (t.goto pc).pc = pc := rfl

@[simp] theorem key_goto (t : Client) (pc : Pc) : (t.goto pc).key = t.key := rfl

/-- `Get`, and the response served from it; `miss` is where the request goes on without one. -/
def serveCached (t : Client) (h : Shared) (ttl : Int) (miss : Pc) : Client :=
  match h.cached t.key with
  | some (data, metadata) => { t with srw := (t.srw.respondWithData data metadata ttl .hit 200).1, pc := .done .hit }
  | none => t.goto miss

/-- What follows `Status` in the loop, and after it. -/
def onStatus (t : Client) (h : Shared) (startTime : Int) : Client :=
  match h.registry.status t.key with
  | ⟨.created, _⟩ => t.goto (.check startTime)
  | ⟨.completed, _⟩ => t.goto .getAgain
  -- the waiting request is answered with the failure of the one it waited for
  | ⟨.failed, reason⟩ =>
    { t with srw := t.srw.respondWith reason 500, pc := .done (.concurrentFailed reason (h.cause t.key)) }
  | ⟨.absent, _⟩ => t.goto .newTmp

/-- `proxyRequest` and what is computed from it. -/
def execute (t : Client) (rounds : List Round) (timeoutText : Bytes) (io : TmpIO) : Option Client :=
  (serveMiss t.settings rounds timeoutText io t.srw).map fun served =>
    { t with
      srw := served.srw
      pc := .calls served.calls
      execution := Proxy.execution t.settings rounds timeoutText io t.srw }

end Client

def Shared.perform (h : Shared) (k : String) (ended : Option CtxErr) : CacheCall → Shared
  | .put data metadata => { h with cached := Function.update h.cached k (some (data, metadata)) }
  | .complete => { h with registry := h.registry.complete h.now k, cause := Function.update h.cause k ended }
  | .fail reason => { h with registry := h.registry.fail h.now k reason, cause := Function.update h.cause k ended }

def step (graceTime : Int) (h : Shared) (t : Client) (c : Choice) : Option (Shared × Client) :=
  match t.pc, c with
  | .get, .get ttl => some (h, t.serveCached h ttl .enter)
  | .enter, .go => some (h, t.goto (.check h.now))
  -- once the grace time has elapsed the state returned is `transactionAbsent`
  | .check startTime, .go =>
    some (h, t.goto (if h.now - startTime > graceTime then .newTmp else .status startTime))
  | .status startTime, .go => some (h, t.onStatus h startTime)
  | .getAgain, .get ttl => some (h, t.serveCached h ttl .newTmp)
  | .newTmp, .go => some (h, t.goto .create)
  | .newTmp, .noTmp err => some (h, { t with srw := t.srw.respondWith err 500, pc := .done .noTmp })
  | .create, .go => some ({ h with registry := h.registry.create h.now t.key }, t.goto .proxy)
  | .proxy, .execute rounds timeoutText io => (t.execute rounds timeoutText io).map (h, ·)
  -- a failed `Put` is logged, and the transaction is resolved all the same
  | .calls (.put _ _ :: left), .putError stored =>
    some ({ h with cached := Function.update h.cached t.key stored }, t.goto (.calls left))
  | .calls (call :: left), .go => some (h.perform t.key t.ended call, t.goto (.calls left))
  | .calls [], .go => some (h, t.goto (.done .proxied))
  | _, _ => none

def environment (h : Shared) : Event → Option Shared
  | .tick d => some { h with now := h.now + d }
  | .clean currentTime =>
    if currentTime ≤ h.now then some { h with registry := h.registry.clean currentTime } else none
  | .evict k => some { h with cached := Function.update h.cached k none }

/-- A request that arrives, with its key and its settings. -/
structure Arrival where
  key : String
  settings : Settings
  srw : Srw

def program (graceTime : Int) : Pool.Program Shared Client Arrival Choice Event where
  spawn a := { key := a.key, settings := a.settings, srw := a.srw }
  step := step graceTime
  env := environment

abbrev State := Pool.St Shared Client

abbrev Action := Pool.Act Arrival Choice Event

/-- No request yet and no transaction; the cache may hold anything. -/
def Initial (s : State) : Prop := s.threads = [] ∧ ∀ k, s.shared.registry.pendingEntries k = none

/-! ## What a step does -/

/-- Every step of a request. -/
inductive Move (graceTime : Int) (h : Shared) (t : Client) : Choice → Shared → Client → Prop
  | get {ttl : Int} : t.pc = .get → Move graceTime h t (.get ttl) h (t.serveCached h ttl .enter)
  | enter : t.pc = .enter → Move graceTime h t .go h (t.goto (.check h.now))
  | check {startTime : Int} : t.pc = .check startTime →
      Move graceTime h t .go h (t.goto (if h.now - startTime > graceTime then .newTmp else .status startTime))
  | status {startTime : Int} : t.pc = .status startTime → Move graceTime h t .go h (t.onStatus h startTime)
  | getAgain {ttl : Int} : t.pc = .getAgain → Move graceTime h t (.get ttl) h (t.serveCached h ttl .newTmp)
  | newTmp : t.pc = .newTmp → Move graceTime h t .go h (t.goto .create)
  | noTmp {err : Bytes} : t.pc = .newTmp →
      Move graceTime h t (.noTmp err) h { t with srw := t.srw.respondWith err 500, pc := .done .noTmp }
  | create : t.pc = .create →
      Move graceTime h t .go { h with registry := h.registry.create h.now t.key } (t.goto .proxy)
  | execute {rounds : List Round} {timeoutText : Bytes} {io : TmpIO} {t' : Client} : t.pc = .proxy →
      t.execute rounds timeoutText io = some t' → Move graceTime h t (.execute rounds timeoutText io) h t'
  | putError {data : Bytes} {metadata : ContentMetadata} {left : List CacheCall}
      {stored : Option (Bytes × ContentMetadata)} : t.pc = .calls (.put data metadata :: left) →
      Move graceTime h t (.putError stored) { h with cached := Function.update h.cached t.key stored }
        (t.goto (.calls left))
  | perform {call : CacheCall} {left : List CacheCall} : t.pc = .calls (call :: left) →
      Move graceTime h t .go (h.perform t.key t.ended call) (t.goto (.calls left))
  | finish : t.pc = .calls [] → Move graceTime h t .go h (t.goto (.done .proxied))

theorem step_cases {graceTime : Int} {h h' : Shared} {t t' : Client} {c : Choice}
    (hs : step graceTime h t c = some (h', t')) : Move graceTime h t c h' t' := by
  unfold step at hs
  split at hs <;> rename_i hpc <;> try cases hs
  · exact .get hpc
  · exact .enter hpc
  · exact .check hpc
  · exact .status hpc
  · exact .getAgain hpc
  · exact .newTmp hpc
  · exact .noTmp hpc
  · exact .create hpc
  · obtain ⟨t'', ht'', heq⟩ := Option.map_eq_some_iff.1 hs
    cases heq
    exact .execute hpc ht''
  · exact .putError hpc
  · exact .perform hpc
  · exact .finish hpc

theorem Move.step_eq {graceTime : Int} {h h' : Shared} {t t' : Client} {c : Choice} (hm : Move graceTime h t c h' t') :
    Proxy.step graceTime h t c = some (h', t') := by
  cases hm with
  | execute hpc hex => simp [Proxy.step, hpc, hex]
  | perform hpc => simp [Proxy.step, hpc]
  | _ hpc => simp [Proxy.step, hpc]

end Chproxy.Proxy
