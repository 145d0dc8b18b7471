/-
Concurrency limits. `inc` increments both counters first and decides afterwards on the values they
returned; so the counters over-count by the tentative requests, and the bound on the admitted ones
comes from the values drawn: of the requests a counter counts, at most `k` drew a value of at most
`k`, and an admitted request drew at most `max_concurrent_queries`.
-/
import Chproxy.Scope.Conservation

namespace Chproxy.Scope

open Function Pool

/-! ## The value a request drew -/

section Step

variable {env : Env} {h h' : Shared} {r r' : Request} {c : Choice}

theorem advance_ptr (hs : advance env h r c = some (h', r')) : r'.ptr = r.ptr := by
  funext side
  cases advance_moves hs <;> cases side <;> rfl

/-- A step that leaves a request counted keeps the value it drew, or is the draw itself. -/
theorem advance_queries {side : Side} {p : Nat} (hr : r.WF env) (hs : advance env h r c = some (h', r'))
    (hc : r'.countedBy side = some p) :
    (r.countedBy side = some p ∧ r'.queries side = r.queries side) ∨
    (r.countedBy side = none ∧ r'.queries side = h'.queryCounter ⟨side, p⟩) := by
  cases advance_moves hs with
  | incUser r =>
    cases side <;> cases hc
    exact .inr ⟨rfl, by simp [Request.queries, Shared.incQuery, Request.acct, Request.ptr]⟩
  | incClusterUser r =>
    cases side <;> cases hc
    · exact .inl ⟨rfl, rfl⟩
    · exact .inr ⟨rfl, by simp [Request.queries, Shared.incQuery, Request.acct, Request.ptr]⟩
  -- giving up the place of the user leaves that of the cluster user
  | undoUser r | decUser r =>
    cases side <;> cases hc
    exact .inl ⟨rfl, rfl⟩
  | undoClusterUser | decClusterUser | waits | decPanic => cases hc
  | queueSizePanic r => simp [Request.countedBy, Request.counted] at hc
  | undoRateClusterUser r =>
    obtain ⟨herr, hpanic⟩ := hr
    simp_all [Request.countedBy, Request.counted]
  | gaugeDec r =>
    obtain ⟨-, -, -, hpanic, -⟩ := hr
    simp_all [Request.countedBy, Request.counted]
  -- the steps that neither draw nor give back change only what is noted of the request
  | gaugeInc r =>
    obtain ⟨herr, hpanic⟩ := hr
    refine .inl ⟨?_, by cases side <;> rfl⟩
    rw [← hc]
    simp_all [Request.countedBy, Request.counted, Request.ptr]
  | waitingPanic r | panics r =>
    refine .inl ⟨?_, by cases side <;> rfl⟩
    rw [← hc]
    simp [Request.countedBy, Request.counted, Request.ptr]
  | admitted r herr hpanic =>
    refine .inl ⟨?_, by cases side <;> rfl⟩
    rw [← hc]
    simp [Request.countedBy, Request.counted, Request.ptr, herr, hpanic]
  | rejected r hrej =>
    refine .inl ⟨?_, by cases side <;> rfl⟩
    rw [← hc]
    simp [Request.countedBy, Request.counted, Request.ptr, hrej]
  | _ => exact .inl ⟨hc, by cases side <;> rfl⟩

/-- Both concurrency checks of `inc` passed on the values drawn. -/
def Request.Passed (env : Env) (r : Request) : Prop :=
  ∀ side, (env.limits (r.acct side)).checkConcurrent side (r.queries side) = none

/-- After the concurrency checks, the absence of an error means that both passed; an admitted
request keeps that until it ends. -/
def Request.Checked (env : Env) (r : Request) : Prop :=
  match r.pc with
  | .rate _ | .packetSize _ | .connect | .gaugeInc => r.err = none → r.Passed env
  | .incReturned | .queueSizeDec | .leave _ | .returned => r.ok = true → r.Passed env
  | .attempt | .deactivate | .pickHost | .retryDec | .retryInc | .retryHost | .dec _ => r.Passed env
  | _ => True

theorem override_eq_none {e err : Option LimitError} : override e err = none ↔ e = none ∧ err = none := by
  cases e <;> simp [override]

theorem advance_checked (hr : r.WF env) (hk : r.Checked env) (hs : advance env h r c = some (h', r')) :
    r'.Checked env := by
  cases advance_moves hs with
  | incClusterUser r =>
    intro herr side
    obtain ⟨hcl, hu⟩ := override_eq_none.1 herr
    cases side
    · exact hu
    · exact hcl
  | rateUser r | rateClusterUser r | packetSizeUser r => exact fun herr => hk (override_eq_none.1 herr).2
  | passed r n e _ hnone => exact fun _ => hk (override_eq_none.1 hnone).2
  | undoRateClusterUser r => exact fun hok => absurd (Request.ok_eq.1 hok).1 hr.1
  | queueSizePanic r | waitingPanic r | panics r => exact fun hok => by simp at hok
  | gaugeInc r => exact fun hok => hk (Request.ok_eq.1 hok).1
  | admitted r herr hpanic => exact hk (Request.ok_eq.2 ⟨herr, hpanic⟩)
  | _ => trivial

theorem checked_admitted {side : Side} (hk : r.Checked env) (ha : r.admitted side = true) : r.Passed env := by
  unfold Request.Checked at hk
  unfold Request.admitted at ha
  cases hpc : r.pc <;> simp only [hpc] at hk ha <;> first | exact hk | cases ha | exact hk (by simpa using ha)

end Step

theorem checkConcurrent_eq_none_iff {l : Limits} {side : Side} {q : UInt32} (hmax : 0 < l.maxConcurrentQueries) :
    l.checkConcurrent side q = none ↔ q ≤ l.maxConcurrentQueries := by
  simp [Limits.checkConcurrent, hmax, UInt32.not_lt]

/-! ## Whole runs -/

/-- The requests between `inc` and `dec`. -/
def State.inFlight (s : State) : Nat := s.threads.countP fun r => r.counted .user || r.counted .clusterUser

theorem counted_le_inFlight (s : State) (a : Acct) : s.counted a ≤ s.inFlight := by
  refine List.countP_mono_left fun r _ hr => ?_
  have := (countedBy_eq_some.1 (of_decide_eq_true hr)).2
  cases hside : a.side <;> rw [hside] at this <;> simp [this]

/-- The invariant of the limits. -/
structure Limited (env : Env) (s : State) : Prop where
  balanced : Balanced env s
  checked : ∀ r ∈ s.threads, r.Checked env
  tickets : ∀ a : Acct, Program.Tickets (fun r : Request => decide (r.countedBy a.side = some a.ptr))
    (fun r => (r.queries a.side).toNat) s.threads

variable {env : Env} {s s' : State} {a : Action}

theorem limited_next (hl : Limited env s) (hn : (admission env).next s a = some s') (hf : s'.inFlight < 2 ^ 32) :
    Limited env s' := by
  have hb' := balanced_next hl.balanced hn
  obtain ⟨i, -, rfl⟩ | ⟨n, c, r, h', r', -, hr, hst, rfl⟩ | ⟨e, h', -, he, rfl⟩ := Program.next_cases hn
  · refine ⟨hb', forall_mem_concat hl.checked trivial, fun acct k => ?_⟩
    have := hl.tickets acct k
    simpa [admission, newScope, Request.countedBy, Request.counted] using this
  · have hmem := List.mem_of_getElem? hr
    have hchecked := advance_checked (hl.balanced.wf r hmem) (hl.checked r hmem) hst
    refine ⟨hb', forall_mem_set hl.checked hchecked, fun acct => Program.tickets_set hr ?_ (hl.tickets acct)⟩
    -- a request that the account does not count holds no ticket of it
    by_cases hc : r'.countedBy acct.side = some acct.ptr
    · rcases advance_queries (hl.balanced.wf r hmem) hst hc with ⟨h1, h2⟩ | ⟨h1, h2⟩
      · exact .inl fun _ => ⟨by simp [h1], by rw [h2]⟩
      · -- the draw: the counter is the number of requests it counts, now including this one
        refine .inr ⟨by simp [h1], ?_⟩
        have hcount := Program.countP_set (fun r => decide (r.countedBy acct.side = some acct.ptr)) r' hr
        have hval := hb'.queryCounter acct
        have hlt : State.counted _ acct < 2 ^ 32 := lt_of_le_of_lt (counted_le_inFlight _ acct) hf
        simp only [h1, hc, State.counted] at hcount hval hlt
        rw [h2, hval, UInt32.toNat_ofNat_of_lt' hlt]
        simpa using hcount
    · exact .inl fun h => absurd (of_decide_eq_true h) hc
  · exact ⟨hb', hl.checked, hl.tickets⟩

theorem initial_limited (h : Initial s) : Limited env s :=
  ⟨initial_balanced h, by simp [h.threads], fun _ _ => by simp [h.threads]⟩

/-- Concurrency limits are never exceeded: as long as fewer than `2^32` requests are between `inc`
and `dec` at once, in every state reached, by any number of requests in any interleaving, the
requests of a user (or of a cluster user) for which `inc` returned nil and `dec` has not run are at
most its `max_concurrent_queries`, when that is set. -/
theorem admitted_le_maxConcurrentQueries (env : Env) {s : State}
    (hs : Steps.ReachWhen (admission env).next Initial (fun _ _ s' => State.inFlight s' < 2 ^ 32) s) (a : Acct)
    (hmax : 0 < (env.limits a).maxConcurrentQueries) :
    s.admitted a ≤ (env.limits a).maxConcurrentQueries.toNat := by
  have hl : Limited env s :=
    hs.invariant (fun _ => initial_limited) (fun _ _ _ hl hn hf => limited_next hl hn hf)
  refine le_trans (List.countP_mono_left fun r hr ha => ?_) (hl.tickets a _)
  simp only [Bool.and_eq_true, decide_eq_true_eq] at ha ⊢
  obtain ⟨hp, ha⟩ := ha
  have hq := checked_admitted (hl.checked r hr) ha a.side
  refine ⟨countedBy_eq_some.2 ⟨hp, admitted_counted ha⟩, ?_⟩
  rw [Request.acct, hp] at hq
  exact UInt32.le_iff_toNat_le.1 ((checkConcurrent_eq_none_iff hmax).1 hq)

/-- Two requests of one user: the second is turned away while the first runs. -/
def twoRequests : List Action :=
  [.spawn ⟨0, 0, "c", "", 0, 0, 0⟩, .spawn ⟨0, 0, "c", "", 0, 0, 0⟩] ++ List.replicate 17 (.step 0 {}) ++
    List.replicate 18 (.step 1 { expired := true })

def oneRunning : State := (Steps.run (admission oneQuery).next idle twoRequests).getD idle

theorem admitted_le_maxConcurrentQueries_two :
    Steps.ReachWhen (admission oneQuery).next Initial (fun _ _ s' => State.inFlight s' < 2 ^ 32) oneRunning ∧
    oneRunning.threads.length = 2 ∧ oneRunning.admitted ⟨.user, 0⟩ = 1 ∧ oneRunning.admitted ⟨.user, 0⟩ ≤ 1 := by
  have hr : Steps.ReachWhen (admission oneQuery).next Initial (fun _ _ s' => State.inFlight s' < 2 ^ 32) oneRunning :=
    .of_runWhen (fun _ _ s' h => of_decide_eq_true h) twoRequests (.init idle_initial) rfl
  exact ⟨hr, by decide, by decide, admitted_le_maxConcurrentQueries oneQuery hr ⟨.user, 0⟩ (by decide)⟩

end Chproxy.Scope
