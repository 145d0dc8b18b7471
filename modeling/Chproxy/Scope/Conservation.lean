/-
Conservation of admission accounting. One step of a request moves every counter, queue and gauge by
exactly what the request takes or gives back (`advance_queryCounter`, `advance_connections`,
`advance_queueLen`, `advance_concurrentQueries`, `advance_requestQueueSize`); so in every reachable
state each of them equals the number of requests holding it. Requests whose `inc` panicked hold their
places for good; when there are none, the accounting is what it should be, and all is zero once no
request is in progress.
-/
import Chproxy.Scope.Moves
import Mathlib.Data.UInt
import Mathlib.Tactic

namespace Chproxy.Scope

open Function Pool

open scoped UInt32.CommRing

/-! ## Where the locals of a request stand -/

/-- `s.labels` are still the labels `concurrentQueries` was incremented under. -/
structure Request.Labelled (env : Env) (r : Request) : Prop where
  incLabels : r.incLabels = some r.labels
  valid : env.validLabels r.labels = true

/-- The end of `inc`: a success has left its labels, a panic was one of the labels. -/
structure Request.Ended (env : Env) (r : Request) : Prop where
  started : r.ok = true → r.Labelled env
  stranded : r.stranded = true → env.validLabels r.labels = false

/-- The locals a request has at each point: which queue places it holds, whether it waits, whether
`inc` failed or panicked. -/
def Request.WF (env : Env) (r : Request) : Prop :=
  match r.pc with
  | .incQueued | .enqueue .user => r.uSlot = false ∧ r.cSlot = false ∧ r.waiting = false ∧ r.panic = none
  | .enqueue .clusterUser => r.cSlot = false ∧ r.waiting = false ∧ r.panic = none
  | .queueSizeInc => r.waiting = false ∧ r.panic = none
  | .inc _ | .rate _ | .packetSize _ => r.panic = none
  | .undo _ | .undoRate _ | .rechoose => r.err ≠ none ∧ r.panic = none
  | .connect | .gaugeInc => r.err = none ∧ r.panic = none
  | .incReturned => r.panic = none ∧ r.Ended env
  | .queueSizeDec => r.waiting = true ∧ r.Ended env
  | .leave .clusterUser => r.waiting = false ∧ r.Ended env
  | .leave .user => r.cSlot = false ∧ r.waiting = false ∧ r.Ended env
  | .returned => r.uSlot = false ∧ r.cSlot = false ∧ r.waiting = false ∧ r.Ended env
  | .attempt | .deactivate | .pickHost | .retryDec | .retryInc | .retryHost | .dec _ | .decHost | .gaugeDec =>
    r.uSlot = false ∧ r.cSlot = false ∧ r.waiting = false ∧ r.panic = none ∧ r.Labelled env
  | .done => r.uSlot = false ∧ r.cSlot = false ∧ r.waiting = false ∧
      (r.stranded = true → env.validLabels r.labels = false)

theorem newScope_wf (env : Env) (a : Arrival) : (newScope env a).WF env := ⟨rfl, rfl, rfl, rfl⟩

@[simp] theorem Request.ok_eq {r : Request} : r.ok = true ↔ r.err = none ∧ r.panic = none := by
  simp [Request.ok]

@[simp] theorem Request.stranded_eq {r : Request} : r.stranded = true ↔ r.panic = some .gaugeInc := by
  simp [Request.stranded]

theorem Counter.dec_add_one (c : Counter) : c.dec + 1 = c := by
  unfold Counter.dec; rw [add_assoc]; exact add_zero c

/-! ## The tables of one side -/

section View

variable {V : Type} (f : Acct → V)

theorem update_side (side : Side) (p : Nat) (v : V) :
    (fun k => update f ⟨side, p⟩ v ⟨side, k⟩) = update (fun k => f ⟨side, k⟩) p v := by
  ext k
  by_cases hk : k = p
  · subst hk; simp
  · simp [update_of_ne, hk]

variable [Add V] [One V]

theorem take_acct {side : Side} {p : Nat} {v : V} {o : Option Nat} (hv : v = f ⟨side, p⟩ + 1) (ho : o = none) :
    Transfer (fun k => f ⟨side, k⟩) (fun k => update f ⟨side, p⟩ v ⟨side, k⟩) o (some p) := by
  rw [update_side, ho]; exact .take_update _ hv

theorem give_acct {side : Side} {p : Nat} {v : V} {o : Option Nat} (hv : v + 1 = f ⟨side, p⟩) (ho : o = some p) :
    Transfer (fun k => f ⟨side, k⟩) (fun k => update f ⟨side, p⟩ v ⟨side, k⟩) o none := by
  rw [update_side, ho]; exact .give_update _ hv

end View

section Step

variable {env : Env} {h h' : Shared} {r r' : Request} {c : Choice}

theorem Request.Ended.congr {r' : Request} (h : r.Ended env) (herr : r'.err = r.err) (hpanic : r'.panic = r.panic)
    (hinc : r'.incLabels = r.incLabels) (hlabels : r'.labels = r.labels) : r'.Ended env := by
  obtain ⟨hstarted, hstranded⟩ := h
  refine ⟨fun hok => ?_, fun hs => ?_⟩
  · obtain ⟨h1, h2⟩ := hstarted (by simpa [herr, hpanic] using hok)
    exact ⟨by rw [hinc, hlabels, h1], by rw [hlabels, h2]⟩
  · rw [hlabels]
    exact hstranded (by simpa [hpanic] using hs)

theorem advance_wf (hr : r.WF env) (hs : advance env h r c = some (h', r')) : r'.WF env := by
  cases advance_moves hs with
  | queueSizePanic r hlabels =>
    obtain ⟨hwait, -⟩ := hr
    exact ⟨hwait, fun hok => by simp at hok, fun hst => by simp at hst⟩
  | gaugeInc r hlabels =>
    obtain ⟨-, hpanic⟩ := hr
    exact ⟨hpanic, fun _ => ⟨rfl, hlabels⟩, fun hst => by simp_all⟩
  | waitingPanic r hlabels hwait | panics r hlabels hwait =>
    exact ⟨hwait, fun hok => by simp at hok, fun _ => hlabels⟩
  | undoRateClusterUser r =>
    obtain ⟨herr, hpanic⟩ := hr
    exact ⟨hpanic, fun hok => absurd (Request.ok_eq.1 hok).1 herr, fun hst => by simp_all⟩
  -- the deferred calls of `incQueued` and `inc` take back what they took and keep the rest
  | waited r hw | notWaiting r hw => exact ⟨hw, hr.2.congr rfl rfl rfl rfl⟩
  | queueSizeDec r => exact ⟨rfl, hr.2.congr rfl rfl rfl rfl⟩
  | leaveClusterUser r => exact ⟨rfl, hr.1, hr.2.congr rfl rfl rfl rfl⟩
  | notInClusterUser r hslot => exact ⟨hslot, hr.1, hr.2.congr rfl rfl rfl rfl⟩
  | leaveUser r => exact ⟨rfl, hr.1, hr.2.1, hr.2.2.congr rfl rfl rfl rfl⟩
  | notInUser r hslot => exact ⟨hslot, hr.1, hr.2.1, hr.2.2.congr rfl rfl rfl rfl⟩
  -- `inc` ends here: without an error nothing panicked either, and the gauge is up
  | admitted r herr hpanic =>
    obtain ⟨hu, hcl, hw, hended⟩ := hr
    obtain ⟨h1, h2⟩ := hended.started (Request.ok_eq.2 ⟨herr, hpanic⟩)
    exact ⟨hu, hcl, hw, hpanic, h1, h2⟩
  | rejected r =>
    obtain ⟨hu, hcl, hw, hended⟩ := hr
    exact ⟨hu, hcl, hw, hended.stranded⟩
  | waits r _ herr => exact ⟨herr, hr.1⟩
  | full r side =>
    cases side
    · exact hr.2.2.2
    · exact hr.2.2
  | gaugeDec r =>
    obtain ⟨hu, hcl, hw, hpanic, -⟩ := hr
    exact ⟨hu, hcl, hw, fun hst => by simp_all⟩
  | decPanic r hlabels =>
    obtain ⟨hu, hcl, hw, -⟩ := hr
    exact ⟨hu, hcl, hw, fun _ => hlabels⟩
  -- from here on to the end of the request only the host and its place change
  | badGateway r | served r | deactivate r | nextHost r | sameHost r | noRetry r | retryDec r | retryInc r | retryHost r
  | decUser r | decClusterUser r | decHost r =>
    obtain ⟨hu, hcl, hw, hpanic, h1, h2⟩ := hr
    exact ⟨hu, hcl, hw, hpanic, h1, h2⟩
  | _ => simp_all [Request.WF]

/-! ## One step on each table -/

/-- The counters of `side`: `inc` takes a place, the error branch of `inc` and `dec` give it back. -/
theorem advance_queryCounter (side : Side) (hr : r.WF env) (hs : advance env h r c = some (h', r')) :
    Transfer (fun k => h.queryCounter ⟨side, k⟩) (fun k => h'.queryCounter ⟨side, k⟩)
      (r.countedBy side) (r'.countedBy side) := by
  cases advance_moves hs with
  | incUser r =>
    cases side
    · exact take_acct h.queryCounter rfl rfl
    · exact .keep rfl rfl
  | incClusterUser r =>
    cases side
    · exact .keep rfl rfl
    · exact take_acct h.queryCounter rfl rfl
  | undoUser r | decUser r =>
    cases side
    · exact give_acct h.queryCounter (Counter.dec_add_one _) rfl
    · exact .keep rfl rfl
  | undoClusterUser r | decClusterUser r =>
    cases side
    · exact .keep rfl rfl
    · exact give_acct h.queryCounter (Counter.dec_add_one _) rfl
  | queueSizePanic r => exact .keep rfl (by simp [Request.countedBy, Request.counted])
  | undoRateClusterUser r =>
    -- the place was given back before; with an error set, neither point counts it
    obtain ⟨herr, hpanic⟩ := hr
    exact .keep rfl (by simp_all [Request.countedBy, Request.counted])
  | gaugeInc r =>
    obtain ⟨herr, hpanic⟩ := hr
    exact .keep rfl (by simp_all [Request.countedBy, Request.counted, Request.ptr])
  | waitingPanic r | panics r =>
    -- a stranded request stays counted
    exact .keep rfl (by simp [Request.countedBy, Request.counted, Request.ptr])
  | admitted r herr hpanic => exact .keep rfl (by simp [Request.countedBy, Request.counted, Request.ptr, herr, hpanic])
  | waits r _ herr =>
    obtain ⟨hpanic, -⟩ := hr
    exact .keep rfl (by simp_all [Request.countedBy, Request.counted])
  | rejected r hrej => exact .keep rfl (by simp [Request.countedBy, Request.counted, Request.ptr, hrej])
  | gaugeDec r =>
    obtain ⟨-, -, -, hpanic, -⟩ := hr
    exact .keep rfl (by simp_all [Request.countedBy, Request.counted])
  | decPanic r => exact .keep rfl rfl
  | _ => exact .keep rfl rfl

/-- The connections of the nodes: `inc` takes one of `s.host`; a retry gives it back and takes one
of the next host, unless that is the same host; `dec` gives it back. -/
theorem advance_connections (hr : r.WF env) (hs : advance env h r c = some (h', r')) :
    Transfer h.connections h'.connections r.holding r'.holding := by
  cases advance_moves hs with
  | connect | retryInc => exact .take_update _ rfl
  | retryDec | decHost => exact .give_update _ (Counter.dec_add_one _)
  | gaugeInc r =>
    obtain ⟨herr, hpanic⟩ := hr
    exact .keep rfl (by simp_all [Request.holding])
  | queueSizePanic r | waitingPanic r | panics r => exact .keep rfl (by simp [Request.holding])
  | undoRateClusterUser r =>
    obtain ⟨herr, hpanic⟩ := hr
    exact .keep rfl (by simp_all [Request.holding])
  | sameHost r _ hsame => exact .keep rfl (congrArg some hsame.symm)
  | waits r _ herr =>
    obtain ⟨hpanic, -⟩ := hr
    exact .keep rfl (by simp_all [Request.holding])
  | admitted r herr hpanic => exact .keep rfl (by simp [Request.holding, herr, hpanic])
  | rejected r hrej => exact .keep rfl (by simp [Request.holding, hrej])
  | gaugeDec r =>
    obtain ⟨-, -, -, hpanic, -⟩ := hr
    exact .keep rfl (by simp_all [Request.holding])
  | _ => exact .keep rfl rfl

/-- The gauge of running queries moves under the labels recorded at its increment. -/
theorem advance_concurrentQueries (hr : r.WF env) (hs : advance env h r c = some (h', r')) :
    Transfer h.concurrentQueries h'.concurrentQueries r.gauged r'.gauged := by
  cases advance_moves hs with
  | gaugeInc r =>
    obtain ⟨herr, hpanic⟩ := hr
    exact .take r.labels (update_self ..) (fun l hl => update_of_ne hl ..) rfl (by simp_all [Request.gauged])
  | gaugeDec r =>
    obtain ⟨-, -, -, -, hlabelled⟩ := hr
    exact .give r.labels (by simp [Shared.addConcurrent]) (fun l hl => update_of_ne hl ..) hlabelled.incLabels rfl
  | decPanic r hlabels =>
    -- the labels were good enough for the increment
    obtain ⟨-, -, -, -, hlabelled⟩ := hr
    cases hlabels.symm.trans hlabelled.valid
  | undoRateClusterUser r =>
    obtain ⟨herr, hpanic⟩ := hr
    exact .keep rfl (by simp_all [Request.gauged])
  | queueSizePanic r | waitingPanic r | panics r => exact .keep rfl (by simp [Request.gauged])
  | waits r _ herr => exact .keep rfl (by simp [Request.gauged, herr])
  | admitted r herr hpanic => exact .keep rfl (by simp [Request.gauged, herr, hpanic])
  | rejected r hrej => exact .keep rfl (by simp [Request.gauged, hrej])
  | _ => exact .keep rfl rfl

/-- The queue of `side`: the select takes a place when there is one, the deferred receive gives it
back. -/
theorem advance_queueLen (side : Side) (hr : r.WF env) (hs : advance env h r c = some (h', r')) :
    Transfer (fun k => h.queueLen ⟨side, k⟩) (fun k => h'.queueLen ⟨side, k⟩)
      (r.queuedIn side) (r'.queuedIn side) := by
  cases advance_moves hs with
  | enterUser r =>
    have hslot : r.uSlot = false := hr.1
    cases side
    · exact take_acct h.queueLen rfl (by simp [Request.queuedIn, Request.slot, hslot])
    · exact .keep rfl rfl
  | enterClusterUser r =>
    have hslot : r.cSlot = false := hr.1
    cases side
    · exact .keep rfl rfl
    · exact take_acct h.queueLen rfl (by simp [Request.queuedIn, Request.slot, hslot])
  | leaveUser r n hslot hn =>
    cases side
    · exact give_acct h.queueLen hn.symm (by simp [Request.queuedIn, Request.slot, Request.ptr, hslot])
    · exact .keep rfl rfl
  | leaveClusterUser r n hslot hn =>
    cases side
    · exact .keep rfl rfl
    · exact give_acct h.queueLen hn.symm (by simp [Request.queuedIn, Request.slot, Request.ptr, hslot])
  | _ => exact .keep rfl rfl

/-- The gauge of queued requests; `rechoose` changes only the labels it does not use. -/
theorem advance_requestQueueSize (hr : r.WF env) (hs : advance env h r c = some (h', r')) :
    Transfer h.requestQueueSize h'.requestQueueSize r.queueSized r'.queueSized := by
  cases advance_moves hs with
  | queueSizeInc r =>
    have hwait : r.waiting = false := hr.1
    exact .take r.labels.queue (update_self ..) (fun j hj => update_of_ne hj ..)
      (by simp [Request.queueSized, hwait]) rfl
  | queueSizeDec r =>
    have hwait : r.waiting = true := hr.1
    exact .give r.labels.queue (by simp [Shared.addQueueSize]) (fun j hj => update_of_ne hj ..)
      (by simp [Request.queueSized, hwait]) rfl
  | _ => exact .keep rfl rfl

end Step

/-! ## Whole runs -/

namespace State

variable (s : State)

def counted (a : Acct) : Nat := s.threads.countP fun r => decide (r.countedBy a.side = some a.ptr)

/-- The requests admitted on an account: `inc` returned nil and `dec` has not run on its counter. -/
def admitted (a : Acct) : Nat := s.threads.countP fun r => decide (r.ptr a.side = a.ptr) && r.admitted a.side

/-- The requests that have incremented the counter of an account and are not admitted (yet). -/
def tentative (a : Acct) : Nat :=
  s.threads.countP fun r => decide (r.ptr a.side = a.ptr) && (r.counted a.side && !r.admitted a.side && !r.stranded)

/-- The requests that a counter counts and that are gone: their `inc` panicked. -/
def stranded (a : Acct) : Nat := s.threads.countP fun r => decide (r.ptr a.side = a.ptr) && r.stranded

/-- The requests that the connections of a node count. -/
def held (n : Nat) : Nat := s.threads.countP fun r => decide (r.holding = some n)

/-- The admitted, unfinished requests that hold a node. -/
def holders (n : Nat) : Nat := s.threads.countP fun r => decide (r.holding = some n) && !r.stranded

def gauged (l : Labels) : Nat := s.threads.countP fun r => decide (r.gauged = some l)

def queued (a : Acct) : Nat := s.threads.countP fun r => decide (r.queuedIn a.side = some a.ptr)

def queueSized (l : QueueLabels) : Nat := s.threads.countP fun r => decide (r.queueSized = some l)

/-- The requests in progress, and the stranded ones. -/
def present : Nat := s.threads.countP fun r => decide (r.pc ≠ .done) || r.stranded

end State

theorem admitted_counted {r : Request} {side : Side} (h : r.admitted side = true) : r.counted side = true := by
  unfold Request.admitted at h
  unfold Request.counted
  cases hpc : r.pc with
  | inc acting | undo acting => simp [hpc] at h
  | dec acting => cases acting <;> simp_all
  | _ => simp_all

/-- A request that has panicked is on its way out, and is not admitted. -/
theorem panic_cases {r : Request} {env : Env} (hr : r.WF env) (hp : r.panic ≠ none) :
    r.pc = .queueSizeDec ∨ (∃ side, r.pc = .leave side) ∨ r.pc = .returned ∨ r.pc = .done := by
  unfold Request.WF at hr
  cases hpc : r.pc with
  | enqueue side => cases side <;> simp_all
  | _ => simp_all

theorem stranded_counted {r : Request} {env : Env} (hr : r.WF env) (hs : r.stranded = true) (side : Side) :
    r.counted side = true ∧ r.admitted side = false := by
  have hp := Request.stranded_eq.1 hs
  have hok : r.ok = false := by simp [Request.ok, hp]
  rcases panic_cases hr (by simp [hp]) with hpc | ⟨acting, hpc⟩ | hpc | hpc <;>
    simp [Request.counted, Request.admitted, hpc, hs, hok]

theorem countedBy_eq_some {r : Request} {side : Side} {p : Nat} :
    r.countedBy side = some p ↔ r.ptr side = p ∧ r.counted side = true := by
  unfold Request.countedBy
  cases r.counted side <;> simp

/-- Who is counted is admitted, tentative or stranded. -/
theorem counted_eq {env : Env} {s : State} (hwf : ∀ r ∈ s.threads, r.WF env) (a : Acct) :
    s.counted a = s.admitted a + s.tentative a + s.stranded a := by
  let gone : Request → Bool := fun r => decide (r.ptr a.side = a.ptr) && (r.counted a.side && !r.admitted a.side)
  have hout : s.counted a = s.admitted a + s.threads.countP gone := Program.countP_eq_add fun r _ => by
    have hac := @admitted_counted r a.side
    simp only [gone, countedBy_eq_some, Bool.decide_and, Bool.decide_eq_true]
    revert hac
    cases decide (r.ptr a.side = a.ptr) <;> cases r.counted a.side <;> cases r.admitted a.side <;> simp
  have hgone : s.threads.countP gone = s.tentative a + s.stranded a := Program.countP_eq_add fun r hr => by
    have hst := fun hs => stranded_counted (hwf r hr) hs a.side
    simp only [gone]
    revert hst
    cases decide (r.ptr a.side = a.ptr) <;> cases r.counted a.side <;> cases r.admitted a.side <;>
      cases r.stranded <;> simp
  rw [hout, hgone, Nat.add_assoc]

/-- The accounts, queues and gauges of a state agree with what its requests hold. -/
structure Balanced (env : Env) (s : State) : Prop where
  wf : ∀ r ∈ s.threads, r.WF env
  queryCounter : ∀ a, s.shared.queryCounter a = UInt32.ofNat (s.counted a)
  connections : ∀ n, s.shared.connections n = UInt32.ofNat (s.held n)
  concurrentQueries : ∀ l, s.shared.concurrentQueries l = s.gauged l
  queueLen : ∀ a, s.shared.queueLen a = s.queued a
  requestQueueSize : ∀ l, s.shared.requestQueueSize l = s.queueSized l
  capacity : ∀ a, s.shared.queueLen a ≤ (env.limits a).queueCh.getD 0

variable {env : Env} {s s' : State} {a : Action}

theorem initial_balanced (h : Initial s) : Balanced env s := by
  have ht := h.threads
  refine ⟨by simp [ht], fun a => ?_, fun n => ?_, fun l => ?_, fun a => ?_, fun l => ?_, fun a => ?_⟩
  · rw [h.queryCounter, State.counted, ht]; rfl
  · rw [h.connections, State.held, ht]; rfl
  · rw [h.concurrentQueries, State.gauged, ht]; rfl
  · rw [h.queueLen, State.queued, ht]; rfl
  · rw [h.requestQueueSize, State.queueSized, ht]; rfl
  · rw [h.queueLen]; exact Nat.zero_le _

theorem update_queueLen_le {h : Shared} {b : Acct} {n : Nat}
    (hn : n ≤ max (h.queueLen b) ((env.limits b).queueCh.getD 0)) (a : Acct) :
    update h.queueLen b n a ≤ max (h.queueLen a) ((env.limits a).queueCh.getD 0) := by
  rw [update_apply]
  split
  · rename_i ha; rw [ha]; exact hn
  · exact le_max_left _ _

/-- Only the select on a queue lengthens it, and only below its capacity. -/
theorem advance_queueLen_le {h h' : Shared} {r r' : Request} {c : Choice}
    (hs : advance env h r c = some (h', r')) (a : Acct) :
    h'.queueLen a ≤ max (h.queueLen a) ((env.limits a).queueCh.getD 0) := by
  cases advance_moves hs with
  | enterUser r cap hcap hlt | enterClusterUser r cap hcap hlt =>
    exact update_queueLen_le (le_max_of_le_right (by rw [hcap]; exact hlt)) a
  | leaveUser r n _ hn | leaveClusterUser r n _ hn =>
    exact update_queueLen_le (le_max_of_le_left (by omega)) a
  | _ => exact le_max_left _ _

theorem outside_frame {h h' : Shared} {e : Event} (he : outside h e = some h') :
    h'.queryCounter = h.queryCounter ∧ h'.connections = h.connections ∧
    h'.concurrentQueries = h.concurrentQueries ∧ h'.queueLen = h.queueLen ∧
    h'.requestQueueSize = h.requestQueueSize := by
  cases e <;> cases he <;> exact ⟨rfl, rfl, rfl, rfl, rfl⟩

theorem balanced_next (hb : Balanced env s) (hn : (admission env).next s a = some s') : Balanced env s' := by
  refine ⟨Program.local_next (newScope_wf env) (fun _ _ _ _ _ => advance_wf) hb.wf hn, ?_, ?_, ?_, ?_, ?_, ?_⟩
  · rintro ⟨side, p⟩
    exact Program.transfer_next (f := fun h k => h.queryCounter ⟨side, k⟩) (o := fun r => r.countedBy side)
      (fun _ => rfl) (fun _ _ _ _ _ => advance_queryCounter side)
      (fun _ _ _ he => by simp only [(outside_frame he).1]) hb.wf hn (fun k => hb.queryCounter ⟨side, k⟩) p
  · exact Program.transfer_next (f := Shared.connections) (o := Request.holding)
      (fun _ => rfl) (fun _ _ _ _ _ => advance_connections)
      (fun _ _ _ he => (outside_frame he).2.1) hb.wf hn hb.connections
  · exact Program.transfer_next (f := Shared.concurrentQueries) (o := Request.gauged)
      (fun _ => rfl) (fun _ _ _ _ _ => advance_concurrentQueries)
      (fun _ _ _ he => (outside_frame he).2.2.1) hb.wf hn hb.concurrentQueries
  · rintro ⟨side, p⟩
    exact Program.transfer_next (f := fun h k => h.queueLen ⟨side, k⟩) (o := fun r => r.queuedIn side)
      (fun _ => by cases side <;> rfl) (fun _ _ _ _ _ => advance_queueLen side)
      (fun _ _ _ he => by simp only [(outside_frame he).2.2.2.1]) hb.wf hn (fun k => hb.queueLen ⟨side, k⟩) p
  · exact Program.transfer_next (f := Shared.requestQueueSize) (o := Request.queueSized)
      (fun _ => rfl) (fun _ _ _ _ _ => advance_requestQueueSize)
      (fun _ _ _ he => (outside_frame he).2.2.2.2) hb.wf hn hb.requestQueueSize
  · -- a channel never holds more than its capacity, as a send waits
    intro acct
    obtain ⟨i, -, rfl⟩ | ⟨n, c, r, h', r', -, -, hst, rfl⟩ | ⟨e, h', -, he, rfl⟩ := Program.next_cases hn
    · exact hb.capacity acct
    · exact le_trans (advance_queueLen_le hst acct) (max_le (hb.capacity acct) le_rfl)
    · rw [(outside_frame he).2.2.2.1]; exact hb.capacity acct

theorem reach_balanced (h : Steps.Reach (admission env).next Initial s) : Balanced env s :=
  Steps.ReachWhen.invariant (fun _ => initial_balanced) (fun _ _ _ hb hn _ => balanced_next hb hn) h

/-! ## The conservation law -/

/-- A request about to decrement the connections of its host is one of those counted there. -/
theorem holders_pos (hb : Balanced env s) {r : Request} (hr : r ∈ s.threads)
    (hpc : r.pc = .retryDec ∨ r.pc = .decHost) :
    0 < s.holders r.host := by
  refine List.countP_pos_iff.2 ⟨r, hr, ?_⟩
  have hwf := hb.wf r hr
  rcases hpc with hpc | hpc <;> simp_all [Request.holding, Request.WF, Request.stranded]

/-- A request leaving a queue finds its own place there, so the deferred receive never blocks. -/
theorem leave_enabled (hb : Balanced env s) {r : Request} (hr : r ∈ s.threads) {side : Side}
    (hpc : r.pc = .leave side) (c : Choice) : (advance env s.shared r c).isSome = true := by
  have hpos : r.slot side = true → 0 < s.shared.queueLen (r.acct side) := by
    intro hslot
    rw [hb.queueLen]
    exact List.countP_pos_iff.2 ⟨r, hr, by simp [Request.queuedIn, Request.acct, hslot]⟩
  cases side <;> simp only [advance, hpc, Request.slot] at hpos ⊢ <;> split
  all_goals first | rfl | skip
  all_goals
    rename_i hslot
    simp [Shared.receive, hpos hslot]

theorem wf_leftQueue {r : Request} (hr : r.WF env) (hl : r.leftQueue = true) : r.uSlot = false ∧ r.cSlot = false := by
  unfold Request.WF at hr
  unfold Request.leftQueue at hl
  cases hpc : r.pc <;> simp only [hpc] at hl hr <;> first | exact ⟨hr.1, hr.2.1⟩ | cases hl

/-- The labels of a stranded request are not UTF-8. -/
theorem stranded_labels {r : Request} (hr : r.WF env) (hs : r.stranded = true) : env.validLabels r.labels = false := by
  have hp := Request.stranded_eq.1 hs
  have hends := panic_cases hr (by simp [hp])
  unfold Request.WF at hr
  rcases hends with hpc | ⟨side, hpc⟩ | hpc | hpc
  · simp only [hpc] at hr
    exact hr.2.stranded hs
  · cases side <;> simp only [hpc] at hr
    · exact hr.2.2.stranded hs
    · exact hr.2.stranded hs
  · simp only [hpc] at hr
    exact hr.2.2.2.stranded hs
  · simp only [hpc] at hr
    exact hr.2.2.2 hs

/-- Who holds something is present. -/
theorem countP_le_present (s : State) {p : Request → Bool} (hp : ∀ r, r.pc = .done → r.stranded = false → p r = false) :
    s.threads.countP p ≤ s.present := by
  refine List.countP_mono_left fun r _ hr => ?_
  by_contra hgone
  simp only [Bool.or_eq_true, decide_eq_true_eq, not_or, not_not, Bool.not_eq_true] at hgone
  rw [hp r hgone.1 hgone.2] at hr
  cases hr

theorem held_le_present (s : State) (n : Nat) : s.held n ≤ s.present :=
  countP_le_present s fun r hpc hst => by simp [Request.holding, hpc, hst]

theorem counted_le_present (s : State) (a : Acct) : s.counted a ≤ s.present :=
  countP_le_present s fun r hpc hst => by simp [Request.countedBy, Request.counted, hpc, hst]

/-- Admission accounting as it should be:
(a) the connections of a node are the admitted, unfinished requests holding it, and a decrement takes away one of them;
(b) a query counter counts the admitted and the tentative requests of its account;
(c) `concurrentQueries` is decremented under the labels it was incremented under;
(d) a queue is as long as the requests inside it, at most its capacity, and a request that has left
`incQueued` holds no place, its release never blocking;
and once every request has finished, all of them are zero. -/
structure Conserved (env : Env) (s : State) : Prop where
  connections : ∀ n, (s.shared.connections n).toNat = s.holders n
  decrement : ∀ r ∈ s.threads, r.pc = .retryDec ∨ r.pc = .decHost → s.shared.connections r.host ≠ 0
  queryCounter : ∀ a, (s.shared.queryCounter a).toNat = s.admitted a + s.tentative a
  concurrentQueries : ∀ l, s.shared.concurrentQueries l = s.gauged l
  sameLabels : ∀ r ∈ s.threads, r.pc = .gaugeDec → r.incLabels = some r.labels
  queueLen : ∀ a, s.shared.queueLen a = s.queued a ∧ s.shared.queueLen a ≤ (env.limits a).queueCh.getD 0
  released : ∀ r ∈ s.threads, r.leftQueue = true → r.uSlot = false ∧ r.cSlot = false
  unblocked : ∀ r ∈ s.threads, ∀ side c, r.pc = .leave side → (advance env s.shared r c).isSome = true
  zero : (∀ r ∈ s.threads, r.pc = .done) →
    (∀ n, s.shared.connections n = 0) ∧ (∀ a, s.shared.queryCounter a = 0) ∧
    (∀ l, s.shared.concurrentQueries l = 0) ∧ (∀ a, s.shared.queueLen a = 0) ∧ ∀ l, s.shared.requestQueueSize l = 0

section Law

variable (hb : Balanced env s)

include hb

/-- The queues and gauges, on which nobody is stranded, and the tables once nobody is left. -/
theorem Balanced.zero (hnone : ∀ r ∈ s.threads, r.stranded = false) (hdone : ∀ r ∈ s.threads, r.pc = .done) :
    (∀ n, s.shared.connections n = 0) ∧ (∀ a, s.shared.queryCounter a = 0) ∧
    (∀ l, s.shared.concurrentQueries l = 0) ∧
    (∀ a, s.shared.queueLen a = 0) ∧ ∀ l, s.shared.requestQueueSize l = 0 := by
  -- a finished request holds nothing, so every count is zero
  have hzero : ∀ p : Request → Bool, (∀ r ∈ s.threads, r.pc = .done → r.stranded = false → r.WF env → p r = false) →
      s.threads.countP p = 0 :=
    fun p hp => List.countP_eq_zero.2 fun r hr => by simp [hp r hr (hdone r hr) (hnone r hr) (hb.wf r hr)]
  have hwf : ∀ r : Request, r.pc = .done → r.WF env → r.uSlot = false ∧ r.cSlot = false ∧ r.waiting = false := by
    intro r hpc hw
    simp only [Request.WF, hpc] at hw
    exact ⟨hw.1, hw.2.1, hw.2.2.1⟩
  refine ⟨fun n => ?_, fun a => ?_, fun l => ?_, fun a => ?_, fun l => ?_⟩
  · rw [hb.connections, State.held, hzero _ fun r _ hpc hst _ => by simp [Request.holding, hpc, hst]]; rfl
  · rw [hb.queryCounter, State.counted,
      hzero _ fun r _ hpc hst _ => by simp [Request.countedBy, Request.counted, hpc, hst]]; rfl
  · rw [hb.concurrentQueries, State.gauged, hzero _ fun r _ hpc _ _ => by simp [Request.gauged, hpc]]; rfl
  · rw [hb.queueLen, State.queued, hzero _ fun r _ hpc _ hw => ?_]
    obtain ⟨hu, hc, -⟩ := hwf r hpc hw
    cases a with
    | mk side p => cases side <;> simp [Request.queuedIn, Request.slot, hu, hc]
  · rw [hb.requestQueueSize, State.queueSized, hzero _ fun r _ hpc _ hw => ?_]
    · rfl
    · simp [Request.queueSized, (hwf r hpc hw).2.2]

theorem Balanced.conserved (hfew : s.present < 2 ^ 32) (hnone : ∀ r ∈ s.threads, r.stranded = false) :
    Conserved env s := by
  have hstranded : ∀ a, s.stranded a = 0 := fun a => List.countP_eq_zero.2 fun r hr => by simp [hnone r hr]
  have hheld : ∀ n, s.held n = s.holders n := fun n => List.countP_congr fun r hr => by simp [hnone r hr]
  have hconn : ∀ n, (s.shared.connections n).toNat = s.holders n := fun n => by
    rw [hb.connections, UInt32.toNat_ofNat_of_lt' (lt_of_le_of_lt (held_le_present s n) hfew), hheld]
  refine ⟨hconn, fun r hr hpc h0 => ?_, fun a => ?_, hb.concurrentQueries, fun r hr hpc => ?_,
    fun a => ⟨hb.queueLen a, hb.capacity a⟩, fun r hr hl => wf_leftQueue (hb.wf r hr) hl,
    fun r hr side c hpc => leave_enabled hb hr hpc c, hb.zero hnone⟩
  · have hn := hconn r.host
    rw [h0] at hn
    exact absurd hn.symm (holders_pos hb hr hpc).ne'
  · rw [hb.queryCounter, UInt32.toNat_ofNat_of_lt' (lt_of_le_of_lt (counted_le_present s a) hfew),
      counted_eq hb.wf, hstranded, Nat.add_zero]
  · have hw := hb.wf r hr
    simp only [Request.WF, hpc] at hw
    exact hw.2.2.2.2.incLabels

/-- A stranded request is counted by its user and is neither admitted nor tentative. -/
theorem Balanced.not_stranded (hfew : s.present < 2 ^ 32) (hc : Conserved env s) :
    ∀ r ∈ s.threads, r.stranded = false := by
  intro r hr
  by_contra hst
  rw [Bool.not_eq_false] at hst
  have hpos : 0 < s.stranded (r.acct .user) :=
    List.countP_pos_iff.2 ⟨r, hr, by simp only [Request.acct, decide_true, Bool.true_and]; exact hst⟩
  have hcount := hc.queryCounter (r.acct .user)
  rw [hb.queryCounter, UInt32.toNat_ofNat_of_lt' (lt_of_le_of_lt (counted_le_present s _) hfew),
    counted_eq hb.wf] at hcount
  omega

end Law

/-- Admission accounting is conserved over the whole life of every request: in every state reached, by any number of
requests in any interleaving, exactly when no request was stranded by a label that is not UTF-8; in particular as
long as the labels of all requests are. -/
theorem accounting_conserved_iff (env : Env) {s : State} (hs : Steps.Reach (admission env).next Initial s)
    (hfew : s.present < 2 ^ 32) :
    (Conserved env s ↔ ∀ r ∈ s.threads, r.stranded = false) ∧
    ((∀ r ∈ s.threads, env.validLabels r.labels = true) → Conserved env s) := by
  have hb := reach_balanced hs
  refine ⟨⟨hb.not_stranded hfew, hb.conserved hfew⟩, fun hvalid => hb.conserved hfew fun r hr => ?_⟩
  by_contra hst
  rw [Bool.not_eq_false] at hst
  cases (stranded_labels (hb.wf r hr) hst).symm.trans (hvalid r hr)

/-- Every user and cluster user may run one query and queue one more. -/
def oneQuery : Env where
  limits _ :=
    { name := "u", maxConcurrentQueries := 1, reqPerMin := 0, reqPacketSizeTokensBurst := 0, queueCh := some 1 }
  replicaName _ := "r"
  host n := if n = 0 then "a" else "b"
  validLabel _ := true

/-- An idle process with every node active. -/
def idle : State where
  shared :=
    { queryCounter := fun _ => 0, rateLimiter := fun _ => 0, tokens := fun _ => 0, queueLen := fun _ => 0
      connections := fun _ => 0, active := fun _ => true, concurrentQueries := fun _ => 0
      requestQueueSize := fun _ => 0 }
  threads := []

theorem idle_initial : Initial idle := ⟨rfl, fun _ => rfl, fun _ => rfl, fun _ => rfl, fun _ => rfl, fun _ => rfl⟩

/-- A request that is queued and admitted on node 0, fails there and moves to node 1. -/
def retryRun : List Action :=
  .spawn ⟨0, 0, "c", "", 0, 1, 0⟩ :: List.replicate 17 (.step 0 {}) ++
    [.step 0 { badGateway := true }, .step 0 {}, .step 0 { next := 1 }, .step 0 {}, .step 0 {}]

def retried : State := (Steps.run (admission oneQuery).next idle retryRun).getD idle

theorem accounting_conserved_retry :
    Steps.Reach (admission oneQuery).next Initial retried ∧ retried.holders 1 = 1 ∧
    (retried.shared.connections 1).toNat = 1 ∧ (retried.shared.connections 0).toNat = 0 := by
  have hr : Steps.Reach (admission oneQuery).next Initial retried := .of_run retryRun (.init idle_initial) rfl
  have hc := (accounting_conserved_iff oneQuery hr (by decide)).2 (by decide)
  have hh : retried.holders 1 = 1 := by decide
  have h0 : retried.holders 0 = 0 := by decide
  exact ⟨hr, hh, (hc.connections 1).trans hh, (hc.connections 0).trans h0⟩

/-- `analyst_*` may run one query. What stands for a name in Latin-1 is not UTF-8. -/
def latin1Names : Env where
  limits a :=
    match a.side, a.ptr with
    | .user, _ => ⟨"analyst_*", 1, 0, 0, none⟩
    | .clusterUser, 0 => ⟨"analyst_ÿ", 0, 0, 0, none⟩
    | .clusterUser, _ => ⟨"analyst_7", 0, 0, 0, none⟩
  replicaName _ := "r"
  host _ := "a"
  validLabel name := name ≠ "analyst_ÿ"

/-- A request under such a name ends; then `analyst_7` asks. -/
def strandedRun : List Action :=
  .spawn ⟨0, 0, "c", "", 0, 0, 0⟩ :: List.replicate 12 (.step 0 {}) ++
    .spawn ⟨0, 1, "c", "", 0, 0, 0⟩ :: List.replicate 15 (.step 1 {})

def afterStranded : State := (Steps.run (admission latin1Names).next idle strandedRun).getD idle

/-- Both requests have ended and no query runs. The first is still counted by its user and on its host, and the second
was turned away for it. -/
theorem stranded_request_counted :
    Steps.Reach (admission latin1Names).next Initial afterStranded ∧ afterStranded.present = 1 ∧
    afterStranded.threads.map (fun r => (r.pc, r.err)) =
      [(.done, none), (.done, some (.maxConcurrentQueries .user "analyst_*" 1))] ∧
    afterStranded.shared.queryCounter ⟨.user, 0⟩ = 1 ∧ afterStranded.shared.connections 0 = 1 ∧
    afterStranded.admitted ⟨.user, 0⟩ + afterStranded.tentative ⟨.user, 0⟩ = 0 ∧ afterStranded.holders 0 = 0 ∧
    ¬ Conserved latin1Names afterStranded := by
  refine ⟨.of_run strandedRun (.init idle_initial) rfl,
    by decide, by decide, by decide, by decide, by decide, by decide,
    fun hc => ?_⟩
  have h0 := (hc.zero (by decide)).1 0
  revert h0
  decide

end Chproxy.Scope
