/-
Requests that reject each other. `inc` increments the counter of the user and then the counter of the
cluster user before it checks either, so a request that fails on one of them still occupies a place of
the other. With no query running, a burst of simultaneous requests of one user can fill both counters
crosswise: some see the user's limit exceeded by requests that fail on the cluster user's, and the other
way round.

The bound comes from the order of the draws: the first requests to increment a counter, as many as its
limit, draw a value within the limit. With fewer requests than the two limits together, some request is
among the first on both counters.
-/
import Chproxy.Scope.Limits

namespace Chproxy.Scope

open Function Pool

open scoped UInt32.CommRing

/-! ## Requests that call `inc` once -/

/-- A thread per request, from the first increment of `inc` to its return. -/
def contest (env : Env) : Pool.Program Shared Request Arrival Choice Event where
  spawn a := { newScope env a with pc := .inc .user }
  step h r c := if r.pc = .incReturned then none else advance env h r c
  env := outside

/-- No query of user `p` or of cluster user `q` is in progress. -/
structure Quiet (p q : Nat) (s : State) : Prop where
  threads : s.threads = []
  user : s.shared.queryCounter ⟨.user, p⟩ = 0
  clusterUser : s.shared.queryCounter ⟨.clusterUser, q⟩ = 0

/-- `n` requests of user `p`, mapped to cluster user `q`, have called `inc` at the same time and all of
them have returned; no other request touched the counters of the two. -/
structure Contest (env : Env) (p q n : Nat) (s : State) : Prop where
  reach : Steps.Reach (contest env).next (Quiet p q) s
  theirs : ∀ r ∈ s.threads, r.user = p ↔ r.clusterUser = q
  many : s.threads.countP (fun r => decide (r.user = p)) = n
  returned : ∀ r ∈ s.threads, r.user = p → r.pc = .incReturned

/-- No requests-per-minute and no packet-size limit. -/
structure Limits.Free (l : Limits) : Prop where
  reqPerMin : l.reqPerMin = 0
  burst : l.reqPacketSizeTokensBurst = 0

theorem Limits.Free.checkRate {l : Limits} (h : l.Free) (side : Side) (rpm : UInt32) : l.checkRate side rpm = none := by
  simp [Limits.checkRate, h.reqPerMin]

theorem Limits.Free.checkPacketSize {l : Limits} (h : l.Free) (side : Side) (tokens n : Nat) :
    l.checkPacketSize side tokens n = (tokens, none) := by
  simp [Limits.checkPacketSize, h.burst]

/-! ## What one step does to the draws -/

/-- The request has incremented the counter of `side` in this call of `inc`. -/
def Request.drawn (r : Request) (side : Side) : Bool :=
  match r.pc with
  | .incQueued | .enqueue _ | .queueSizeInc | .rechoose | .inc .user => false
  | .inc .clusterUser => side == .user
  -- the gauge of the queue panics before the first call
  | .queueSizeDec | .leave _ | .returned | .done => r.panic != some .queueSizeInc
  | _ => true

theorem counted_drawn {r : Request} {side : Side} (h : r.counted side = true) : r.drawn side = true := by
  -- a panic after the draw keeps the count, one before it has none
  have hended : (r.ok || r.stranded) = true → (r.panic != some .queueSizeInc) = true := by
    intro hend
    rcases Bool.or_eq_true_iff.1 hend with hok | hst
    · simp [(Request.ok_eq.1 hok).2]
    · simp [Request.stranded_eq.1 hst]
  unfold Request.counted at h
  unfold Request.drawn
  cases hpc : r.pc with
  | inc acting =>
    cases acting
    · simp [hpc] at h
    · simpa only [hpc] using h
  | queueSizeDec | leave | returned =>
    simp only [hpc] at h
    exact hended h
  | done =>
    simp only [hpc] at h
    exact hended (by simp [h])
  | _ => simp_all

section Step

variable {env : Env} {h h' : Shared} {r r' : Request} {c : Choice}

/-- Within one call of `inc` a request draws from each counter once. -/
theorem advance_drawn (side : Side) (hr : r.WF env) (hpc : r.pc ≠ .incReturned)
    (hs : advance env h r c = some (h', r')) :
    (r'.drawn side = r.drawn side ∧ r'.queries side = r.queries side) ∨
    (r.drawn side = false ∧ r'.drawn side = true ∧ r'.queries side = h'.queryCounter (r'.acct side)) := by
  cases advance_moves hs with
  | incUser r =>
    cases side
    · exact .inr ⟨rfl, rfl, by simp [Request.queries, Shared.incQuery, Request.acct, Request.ptr]⟩
    · exact .inl ⟨rfl, rfl⟩
  | incClusterUser r =>
    cases side
    · exact .inl ⟨rfl, rfl⟩
    · exact .inr ⟨rfl, rfl, by simp [Request.queries, Shared.incQuery, Request.acct, Request.ptr]⟩
  -- a request that has returned from `inc` is not moved here
  | waited | waits | notWaiting => exact absurd rfl hpc
  | queueSizePanic r => exact .inl ⟨by simp [Request.drawn], by cases side <;> rfl⟩
  | admitted r _ hpanic => exact .inl ⟨by simp [Request.drawn, hpanic], by cases side <;> rfl⟩
  | gaugeDec r =>
    obtain ⟨-, -, -, hpanic, -⟩ := hr
    exact .inl ⟨by simp_all [Request.drawn], by cases side <;> rfl⟩
  | _ => exact .inl ⟨rfl, by cases side <;> rfl⟩

/-- With only concurrency limits, an error of `inc` means that a value drawn is above its limit. -/
def Request.Faulted (env : Env) (r : Request) : Prop :=
  r.drawn .clusterUser = true → r.err ≠ none →
    ∃ side, (env.limits (r.acct side)).maxConcurrentQueries < r.queries side

theorem checkConcurrent_ne_none {l : Limits} {side : Side} {q : UInt32} (h : l.checkConcurrent side q ≠ none) :
    l.maxConcurrentQueries < q := by
  unfold Limits.checkConcurrent at h
  split at h
  · rename_i hq
    simp only [gt_iff_lt, Bool.and_eq_true, decide_eq_true_eq] at hq
    exact hq.2
  · exact absurd rfl h

theorem advance_faulted (hfree : ∀ side, (env.limits (r.acct side)).Free) (hpc : r.pc ≠ .incReturned)
    (hf : r.Faulted env) (hs : advance env h r c = some (h', r')) : r'.Faulted env := by
  cases advance_moves hs with
  | incUser r => exact fun hd => by cases hd
  | incClusterUser r =>
    intro _ herr
    -- the error is that of the cluster user, or else the one that the user had set
    by_cases hcl : (env.limits (r.acct .clusterUser)).checkConcurrent .clusterUser
        (h.queryCounter (r.acct .clusterUser)).inc = none
    · refine ⟨.user, @checkConcurrent_ne_none _ .user _ fun hu => herr ?_⟩
      exact override_eq_none.2 ⟨hcl, hu⟩
    · exact ⟨.clusterUser, checkConcurrent_ne_none hcl⟩
  -- without limits of rate and packet size no later check sets an error
  | rateUser r =>
    exact fun _ herr => hf rfl fun he => herr (override_eq_none.2 ⟨(hfree .user).checkRate .user _, he⟩)
  | rateClusterUser r =>
    exact fun _ herr => hf rfl fun he => herr (override_eq_none.2 ⟨(hfree .clusterUser).checkRate .clusterUser _, he⟩)
  | packetSizeUser r n e hres =>
    refine fun _ herr => hf rfl fun he => herr (override_eq_none.2 ⟨?_, he⟩)
    exact congrArg Prod.snd (hres.symm.trans ((hfree .user).checkPacketSize .user _ _))
  | failed r n e err hres herr =>
    intro _ _
    refine hf rfl fun hnone => ?_
    have he : e = none := congrArg Prod.snd (hres.symm.trans ((hfree .clusterUser).checkPacketSize .clusterUser _ _))
    cases herr.symm.trans (override_eq_none.2 ⟨he, hnone⟩)
  | passed => exact fun _ herr => absurd rfl herr
  | waited | waits | notWaiting => exact absurd rfl hpc
  | queueSizePanic r => exact fun hd => by simp [Request.drawn] at hd
  | admitted r _ hpanic => exact fun _ herr => hf (by simp [Request.drawn, hpanic]) herr
  | waitingPanic r | panics r | gaugeDec r | decPanic r => exact fun _ herr => hf rfl herr
  | _ => exact hf

end Step

/-! ## Enough room for one -/

/-- The account of `side` in a contest between the requests of user `p` and cluster user `q`. -/
def contested (p q : Nat) (side : Side) : Acct where
  side := side
  ptr := match side with
    | .user => p
    | .clusterUser => q

theorem acct_eq_contested {p q : Nat} {r : Request} {side : Side} (hp : r.user = p) (hq : r.clusterUser = q) :
    r.acct side = contested p q side := by
  subst hp hq
  cases side <;> rfl

/-- The request has drawn from the counter of the account. -/
def Request.drawnFrom (a : Acct) (r : Request) : Bool := decide (r.ptr a.side = a.ptr) && r.drawn a.side

section Drawn

variable {p q : Nat} {r : Request} {side : Side}

theorem drawnFrom_of_eq (hp : r.ptr side = (contested p q side).ptr) :
    r.drawnFrom (contested p q side) = r.drawn side := by
  show (decide (r.ptr side = (contested p q side).ptr) && r.drawn side) = _
  rw [decide_eq_true hp, Bool.true_and]

theorem drawnFrom_of_ne (hp : r.ptr side ≠ (contested p q side).ptr) : r.drawnFrom (contested p q side) = false := by
  show (decide (r.ptr side = (contested p q side).ptr) && r.drawn side) = _
  rw [decide_eq_false hp, Bool.false_and]

end Drawn

/-- The invariant of a contest. -/
structure Contending (env : Env) (p q : Nat) (s : State) : Prop where
  wf : ∀ r ∈ s.threads, r.WF env
  queryCounter : ∀ side, s.shared.queryCounter (contested p q side) = (s.counted (contested p q side) : UInt32)
  ranked : ∀ side, Program.Ranked (Request.drawnFrom (contested p q side)) (fun r => (r.queries side).toNat) s.threads
  faulted : (∀ side, (env.limits (contested p q side)).Free) →
    ∀ r ∈ s.threads, r.user = p → r.clusterUser = q → r.Faulted env

section Run

variable {env : Env} {p q : Nat} {s s' : State} {a : Action}

theorem toNat_cast_le (n : Nat) : (n : UInt32).toNat ≤ n := by
  show (UInt32.ofNat n).toNat ≤ n
  rw [UInt32.toNat_ofNat']
  exact Nat.mod_le n _

theorem contest_step {h h' : Shared} {r r' : Request} {c : Choice} (hs : (contest env).step h r c = some (h', r')) :
    r.pc ≠ .incReturned ∧ advance env h r c = some (h', r') := by
  simp only [contest] at hs
  split at hs
  · cases hs
  · exact ⟨‹_›, hs⟩

theorem outside_queryCounter {h h' : Shared} {e : Event} (he : outside h e = some h') :
    h'.queryCounter = h.queryCounter := by
  cases e <;> cases he <;> rfl

theorem counted_le_drawn (s : State) (a : Acct) : s.counted a ≤ s.threads.countP (Request.drawnFrom a) := by
  refine List.countP_mono_left fun r _ hr => ?_
  obtain ⟨hp, hc⟩ := countedBy_eq_some.1 (of_decide_eq_true hr)
  simp [Request.drawnFrom, hp, counted_drawn hc]

/-- A step of one request keeps the ranks: a value drawn counts the request and others that have drawn
before. -/
theorem ranked_step {h' : Shared} {r r' : Request} {c : Choice} {n : Nat} {side : Side} (hr : s.threads[n]? = some r)
    (hwf : r.WF env) (hpc : r.pc ≠ .incReturned) (hadv : advance env s.shared r c = some (h', r'))
    (hcounter : h'.queryCounter (contested p q side) =
      (State.counted ⟨h', s.threads.set n r'⟩ (contested p q side) : UInt32))
    (hi : Program.Ranked (Request.drawnFrom (contested p q side)) (fun r => (r.queries side).toNat) s.threads) :
    Program.Ranked (Request.drawnFrom (contested p q side)) (fun r => (r.queries side).toNat) (s.threads.set n r') := by
  have hptr := congrFun (advance_ptr hadv) side
  refine Program.ranked_set hr ?_ hi
  by_cases hp : r.ptr side = (contested p q side).ptr
  · have hp' := hptr.trans hp
    rw [drawnFrom_of_eq hp, drawnFrom_of_eq hp']
    -- either the request had drawn before, or this step is its draw
    rcases advance_drawn side hwf hpc hadv with ⟨hd, hq⟩ | ⟨hd, hd', hq⟩
    · exact .inl ⟨hd, fun _ => by rw [hq]⟩
    · refine .inr ⟨hd, hd', ?_⟩
      have hcount := Program.countP_set (Request.drawnFrom (contested p q side)) r' hr
      rw [drawnFrom_of_eq hp, drawnFrom_of_eq hp', hd, hd'] at hcount
      rw [hq, Request.acct, hp']
      calc (h'.queryCounter (contested p q side)).toNat
          ≤ State.counted ⟨h', s.threads.set n r'⟩ (contested p q side) :=
            (congrArg UInt32.toNat hcounter).trans_le (toNat_cast_le _)
        _ ≤ (s.threads.set n r').countP (Request.drawnFrom (contested p q side)) := counted_le_drawn _ _
        _ = s.threads.countP (Request.drawnFrom (contested p q side)) + 1 := hcount
  · rw [drawnFrom_of_ne hp, drawnFrom_of_ne (hptr.symm ▸ hp)]
    exact .inl ⟨rfl, fun h => by cases h⟩

theorem contending_next (hi : Contending env p q s) (hn : (contest env).next s a = some s') :
    Contending env p q s' := by
  have hwf : ∀ r ∈ s'.threads, r.WF env :=
    Program.local_next (P := contest env) (fun _ => rfl)
      (fun _ _ _ _ _ hw hst => advance_wf hw (contest_step hst).2) hi.wf hn
  have hcounter : ∀ side, s'.shared.queryCounter (contested p q side) = (s'.counted (contested p q side) : UInt32) :=
    fun side => Program.ledger_next (f := fun h => h.queryCounter (contested p q side)) (W := Request.WF env)
      (fun _ => rfl) (fun _ _ _ _ _ hw hst => (advance_queryCounter side hw (contest_step hst).2).balance _)
      (fun _ _ _ he => congrFun (outside_queryCounter he) _) hi.wf hn (hi.queryCounter side)
  refine ⟨hwf, hcounter, ?_, fun hfree => ?_⟩
  · intro side
    obtain ⟨i, -, rfl⟩ | ⟨n, c, r, h', r', -, hr, hst, rfl⟩ | ⟨e, h', -, he, rfl⟩ := Program.next_cases hn
    · intro k
      have := hi.ranked side k
      simpa [contest, Request.drawnFrom, Request.drawn] using this
    · obtain ⟨hpc, hadv⟩ := contest_step hst
      exact ranked_step hr (hi.wf r (List.mem_of_getElem? hr)) hpc hadv (hcounter side) (hi.ranked side)
    · exact hi.ranked side
  · -- the limits of the contested accounts are those of every request of the two
    refine Program.local_next (P := contest env) (W := fun r => r.user = p → r.clusterUser = q → r.Faulted env)
      (fun i _ _ hd => by cases hd) (fun h r c h' r' hr hst hp hq => ?_) (hi.faulted hfree) hn
    obtain ⟨hpc, hadv⟩ := contest_step hst
    have hptr := advance_ptr hadv
    have hp : r.user = p := (congrFun hptr .user).symm.trans hp
    have hq : r.clusterUser = q := (congrFun hptr .clusterUser).symm.trans hq
    refine advance_faulted (fun side => ?_) hpc (hr hp hq) hadv
    rw [acct_eq_contested hp hq]
    exact hfree side

theorem quiet_contending (h : Quiet p q s) : Contending env p q s := by
  refine ⟨by simp [h.threads], fun side => ?_, fun side k hpos => ?_, by simp [h.threads]⟩
  · rw [State.counted, h.threads]
    cases side
    · exact h.user
    · exact h.clusterUser
  · simp [h.threads] at hpos

theorem contending_reach (h : Steps.Reach (contest env).next (Quiet p q) s) : Contending env p q s :=
  h.invariant (P := Contending env p q) (fun _ => quiet_contending) fun _ _ _ hi hn _ => contending_next hi hn

end Run

section Outcome

variable {env : Env} {p q n : Nat} {s : State}

/-- The requests that drew more than the limit of `side` allows. -/
def State.above (s : State) (env : Env) (p q : Nat) (side : Side) : Nat :=
  s.threads.countP fun r => r.drawnFrom (contested p q side) &&
    decide ((env.limits (contested p q side)).maxConcurrentQueries.toNat < (r.queries side).toNat)

/-- As many requests as the limit drew before any that drew more. -/
theorem above_add_le (hc : Contest env p q n s) (side : Side) :
    s.above env p q side = 0 ∨
      s.above env p q side + (env.limits (contested p q side)).maxConcurrentQueries.toNat ≤ n := by
  have hrank := (contending_reach hc.reach).ranked side (env.limits (contested p q side)).maxConcurrentQueries.toNat
  have hmany : s.threads.countP (Request.drawnFrom (contested p q side)) ≤ n := by
    rw [← hc.many]
    refine List.countP_mono_left fun r hr hd => ?_
    simp only [Request.drawnFrom, Bool.and_eq_true, decide_eq_true_eq] at hd ⊢
    cases side
    · exact hd.1
    · exact (hc.theirs r hr).2 hd.1
  rcases Nat.eq_zero_or_pos (s.above env p q side) with h0 | hpos
  · exact .inl h0
  · exact .inr (le_trans (hrank hpos) hmany)

/-- When all are rejected, each drew too much from one of the counters. -/
theorem le_above_add_above (hc : Contest env p q n s) (hfree : ∀ side, (env.limits (contested p q side)).Free)
    (hrej : ∀ r ∈ s.threads, r.user = p → r.err ≠ none) :
    n ≤ s.above env p q .user + s.above env p q .clusterUser := by
  rw [← hc.many]
  refine le_trans (List.countP_mono_left fun r hr hp => ?_) (Program.countP_or_le _ _ s.threads)
  have hp : r.user = p := of_decide_eq_true hp
  have hq : r.clusterUser = q := (hc.theirs r hr).1 hp
  have hd : ∀ side, r.drawn side = true := fun side => by simp [Request.drawn, hc.returned r hr hp]
  have hfrom : ∀ side, r.drawnFrom (contested p q side) = true := fun side =>
    (drawnFrom_of_eq (congrArg Acct.ptr (acct_eq_contested hp hq))).trans (hd side)
  obtain ⟨side, hside⟩ := (contending_reach hc.reach).faulted hfree r hr hp hq (hd .clusterUser) (hrej r hr hp)
  rw [acct_eq_contested hp hq] at hside
  have hlt := UInt32.lt_iff_toNat_lt.1 hside
  cases side
  · simp [hfrom, hlt]
  · simp [hfrom, hlt]

/-- No value is above the largest one. -/
theorem above_eq_zero {side : Side} (hmax : (env.limits (contested p q side)).maxConcurrentQueries = 4294967295) :
    s.above env p q side = 0 := by
  refine List.countP_eq_zero.2 fun r _ => ?_
  have hlt := (r.queries side).toNat_lt
  have hm : (4294967295 : UInt32).toNat = 4294967295 := rfl
  simp only [hmax, hm, Bool.and_eq_true, decide_eq_true_eq, not_and]
  omega

theorem exists_admitted (hc : Contest env p q n s) (hn : 0 < n) (hfree : ∀ side, (env.limits (contested p q side)).Free)
    (hpos : ∀ side, 0 < (env.limits (contested p q side)).maxConcurrentQueries)
    (hroom : n < (env.limits (contested p q .user)).maxConcurrentQueries.toNat +
        (env.limits (contested p q .clusterUser)).maxConcurrentQueries.toNat ∨
      ∃ side, (env.limits (contested p q side)).maxConcurrentQueries = 4294967295) :
    ∃ r ∈ s.threads, r.user = p ∧ r.err = none := by
  by_contra hnone
  have hrej : ∀ r ∈ s.threads, r.user = p → r.err ≠ none := fun r hr hp he => hnone ⟨r, hr, hp, he⟩
  have hle := le_above_add_above hc hfree hrej
  have hu := above_add_le hc .user
  have hcl := above_add_le hc .clusterUser
  have hupos := UInt32.lt_iff_toNat_lt.1 (hpos .user)
  have hcpos := UInt32.lt_iff_toNat_lt.1 (hpos .clusterUser)
  rw [UInt32.toNat_zero] at hupos hcpos
  rcases hroom with hroom | ⟨side, hmax⟩
  · omega
  · have h0 := above_eq_zero (s := s) hmax
    cases side <;> omega

end Outcome

/-! ## How to leave no room

The run that rejects everybody stops its requests at three points: between the two increments (`waiting`),
between the two decrements of the error branch (`half`), and at the return with an error (`settled`). A
waiting request occupies a place of the user, one that is half undone a place of the cluster user. -/

inductive Stop
  | waiting
  | half
  | settled
  deriving DecidableEq, Repr

def Request.stop (r : Request) : Option Stop :=
  match r.pc, r.err with
  | .inc .clusterUser, _ => some .waiting
  | .undo .clusterUser, some _ => some .half
  | .incReturned, some _ => some .settled
  | _, _ => none

section Stops

variable (env : Env) (h : Shared) {r : Request}

/-- From the last check on, with an error found before. -/
theorem run_last_check {e : LimitError} (hpc : r.pc = .packetSize .clusterUser)
    (hfree : (env.limits (r.acct .clusterUser)).Free) (herr : r.err = some e) :
    ∃ h' r', Steps.run (contest env).alone (h, r) (List.replicate 2 {}) = some (h', r') ∧ r'.stop = some .half := by
  have hstep : advance env h r {} = some (h.setTokens (r.acct .clusterUser) (h.tokens (r.acct .clusterUser)),
      { r with err := some e, pc := .undo .user }) := by
    simp only [advance, hpc, hfree.checkPacketSize, herr, override]
  have halone : (contest env).alone (h, r) {} = advance env h r {} := by
    simp [Program.alone, contest, hpc]
  refine ⟨(h.setTokens (r.acct .clusterUser) (h.tokens (r.acct .clusterUser))).decQuery (r.acct .user),
    { r with err := some e, pc := .undo .clusterUser }, ?_, rfl⟩
  show ((contest env).alone (h, r) {}).bind _ = _
  rw [halone, hstep]
  rfl

/-- A request that has drawn, or is about to draw, more than a limit allows gets stuck half undone. -/
theorem run_to_half (hpc : r.pc = .inc .clusterUser) (hfree : ∀ side, (env.limits (r.acct side)).Free)
    (hover : (env.limits (r.acct .user)).checkConcurrent .user r.uQueries ≠ none ∨
      (env.limits (r.acct .clusterUser)).checkConcurrent .clusterUser
        (h.queryCounter (r.acct .clusterUser)).inc ≠ none) :
    ∃ h' r', Steps.run (contest env).alone (h, r) (List.replicate 6 {}) = some (h', r') ∧ r'.stop = some .half := by
  obtain ⟨r, rfl⟩ : ∃ r₀ : Request, r = { r₀ with pc := .inc .clusterUser } := ⟨r, by rw [← hpc]⟩
  have hu : (env.limits (r.acct .user)).Free := hfree .user
  have hcl : (env.limits (r.acct .clusterUser)).Free := hfree .clusterUser
  obtain ⟨e, he⟩ : ∃ e, override ((env.limits (r.acct .clusterUser)).checkConcurrent .clusterUser
      (h.queryCounter (r.acct .clusterUser)).inc)
      ((env.limits (r.acct .user)).checkConcurrent .user r.uQueries) = some e := by
    refine Option.ne_none_iff_exists'.1 fun hnone => ?_
    obtain ⟨h1, h2⟩ := override_eq_none.1 hnone
    rcases hover with hover | hover
    · exact hover h2
    · exact hover h1
  -- neither the rate limiters nor the buckets change the error
  obtain ⟨h₄, tokens, uRPM, cRPM, hfour⟩ : ∃ h₄ tokens uRPM cRPM,
      Steps.run (contest env).alone (h, { r with pc := .inc .clusterUser }) (List.replicate 4 {}) = some (h₄,
        { r with
          cQueries := (h.queryCounter (r.acct .clusterUser)).inc
          err := override ((env.limits (r.acct .user)).checkPacketSize .user tokens r.requestPacketSize).2
            (override ((env.limits (r.acct .clusterUser)).checkRate .clusterUser cRPM)
              (override ((env.limits (r.acct .user)).checkRate .user uRPM)
                (override ((env.limits (r.acct .clusterUser)).checkConcurrent .clusterUser
                  (h.queryCounter (r.acct .clusterUser)).inc)
                  ((env.limits (r.acct .user)).checkConcurrent .user r.uQueries))))
          pc := .packetSize .clusterUser }) := ⟨_, _, _, _, rfl⟩
  rw [hu.checkPacketSize, hcl.checkRate, hu.checkRate, he] at hfour
  let r₄ : Request :=
    { r with
      cQueries := (h.queryCounter (r.acct .clusterUser)).inc
      err := some e
      pc := .packetSize .clusterUser }
  obtain ⟨h', r', hrun, hstop⟩ := run_last_check env h₄ (r := r₄) rfl hcl rfl
  exact ⟨h', r', (Steps.run_append (List.replicate 4 ({} : Choice)) (List.replicate 2 {}) hfour).trans hrun, hstop⟩

theorem run_to_settled (hpc : r.stop = some .half) :
    ∃ h' r', Steps.run (contest env).alone (h, r) (List.replicate 3 {}) = some (h', r') ∧ r'.stop = some .settled := by
  obtain ⟨r, e, rfl⟩ : ∃ (r₀ : Request) (e : LimitError), r = { r₀ with err := some e, pc := .undo .clusterUser } := by
    unfold Request.stop at hpc
    split at hpc
    · cases hpc
    · rename_i e h1 h2
      exact ⟨r, e, by rw [← h1, ← h2]⟩
    · cases hpc
    · cases hpc
  exact ⟨_, _, rfl, rfl⟩

variable {env} in
theorem alone_ptr : ∀ (cs : List Choice) {h h' : Shared} {r r' : Request},
    Steps.run (contest env).alone (h, r) cs = some (h', r') → r'.ptr = r.ptr
  | [], _, _, _, _, hrun => by cases hrun; rfl
  | c :: cs, h, h', r, r', hrun => by
    obtain ⟨⟨h₁, r₁⟩, h1, h2⟩ := Option.bind_eq_some_iff.1 hrun
    exact (alone_ptr cs h2).trans (advance_ptr (contest_step h1).2)

/-- Of the counters, a stopped request occupies that of the user when it waits and that of the cluster
user when it is half undone. -/
theorem counted_of_stop {x : Stop} (hr : r.WF env) (hx : r.stop = some x) :
    r.counted .user = decide (x = .waiting) ∧ r.counted .clusterUser = decide (x = .half) := by
  unfold Request.stop at hx
  split at hx
  all_goals cases hx
  · rename_i hpc
    simp [Request.counted, hpc]
  · simp [Request.counted, *]
  · rename_i hpc herr
    simp only [Request.WF, hpc] at hr
    simp [Request.counted, Request.ok, Request.stranded, hpc, herr, hr.1]

end Stops

/-- `a` requests wait, `b` are half undone, `m` have been rejected, and there is no other. -/
structure Stage (env : Env) (p q a b m : Nat) (s : State) : Prop where
  reach : Steps.Reach (contest env).next (Quiet p q) s
  theirs : ∀ r ∈ s.threads, r.user = p ∧ r.clusterUser = q ∧ r.stop ≠ none
  waiting : s.threads.countP (fun r => decide (r.stop = some .waiting)) = a
  half : s.threads.countP (fun r => decide (r.stop = some .half)) = b
  settled : s.threads.countP (fun r => decide (r.stop = some .settled)) = m

section Stage

variable {env : Env} {p q a b m : Nat} {s : State}

theorem Stage.queryCounter (hs : Stage env p q a b m s) :
    s.shared.queryCounter ⟨.user, p⟩ = (a : UInt32) ∧ s.shared.queryCounter ⟨.clusterUser, q⟩ = (b : UInt32) := by
  have hi := contending_reach hs.reach
  -- a waiting request is counted for the user, a half undone one for the cluster user
  have hcount : ∀ r ∈ s.threads, (r.countedBy .user = some p ↔ r.stop = some .waiting) ∧
      (r.countedBy .clusterUser = some q ↔ r.stop = some .half) := by
    intro r hr
    obtain ⟨hp, hq, hstop⟩ := hs.theirs r hr
    obtain ⟨x, hx⟩ := Option.ne_none_iff_exists'.1 hstop
    obtain ⟨hu, hcl⟩ := counted_of_stop env (hi.wf r hr) hx
    simp [countedBy_eq_some, Request.ptr, hp, hq, hu, hcl, hx]
  constructor
  · rw [← hs.waiting]
    refine (hi.queryCounter .user).trans (congrArg Nat.cast (List.countP_congr fun r hr => ?_))
    rw [decide_eq_true_iff, decide_eq_true_iff]
    exact (hcount r hr).1
  · rw [← hs.half]
    refine (hi.queryCounter .clusterUser).trans (congrArg Nat.cast (List.countP_congr fun r hr => ?_))
    rw [decide_eq_true_iff, decide_eq_true_iff]
    exact (hcount r hr).2

/-- One request moves on from stop `x` to stop `y`, alone. -/
theorem Stage.move {a' b' m' n : Nat} {x y : Stop} {cs : List Choice} {h' : Shared} {r r' : Request}
    (hs : Stage env p q a b m s) (hr : s.threads[n]? = some r) (hx : r.stop = some x)
    (hrun : Steps.run (contest env).alone (s.shared, r) cs = some (h', r')) (hy : r'.stop = some y)
    (ha : a' + (decide (x = .waiting)).toNat = a + (decide (y = .waiting)).toNat)
    (hb : b' + (decide (x = .half)).toNat = b + (decide (y = .half)).toNat)
    (hm : m' + (decide (x = .settled)).toNat = m + (decide (y = .settled)).toNat) :
    Stage env p q a' b' m' ⟨h', s.threads.set n r'⟩ := by
  have hptr := alone_ptr cs hrun
  obtain ⟨hp, hq, -⟩ := hs.theirs r (List.mem_of_getElem? hr)
  have hcount : ∀ z, (s.threads.set n r').countP (fun r => decide (r.stop = some z)) + (decide (x = z)).toNat =
      s.threads.countP (fun r => decide (r.stop = some z)) + (decide (y = z)).toNat := fun z => by
    have := Program.countP_set (fun r : Request => decide (r.stop = some z)) r' hr
    simpa only [hx, hy, Option.some.injEq] using this
  refine ⟨.of_run _ hs.reach (Program.run_alone cs hr hrun), forall_mem_set hs.theirs ?_, ?_, ?_, ?_⟩
  · exact ⟨(congrFun hptr .user).trans hp, (congrFun hptr .clusterUser).trans hq, by simp [hy]⟩
  · have := hcount .waiting
    rw [hs.waiting] at this
    exact Nat.add_right_cancel (this.trans ha.symm)
  · have := hcount .half
    rw [hs.half] at this
    exact Nat.add_right_cancel (this.trans hb.symm)
  · have := hcount .settled
    rw [hs.settled] at this
    exact Nat.add_right_cancel (this.trans hm.symm)

/-- A request of the contest at its start. -/
def entrant (env : Env) (p q : Nat) : Request := { newScope env ⟨p, q, "c", "", 0, 0, 0⟩ with pc := .inc .user }

/-- A new request runs alone up to stop `y`. -/
theorem Stage.enter {a' b' m' : Nat} {y : Stop} {cs : List Choice} {h' : Shared} {r' : Request}
    (hs : Stage env p q a b m s)
    (hrun : Steps.run (contest env).alone (s.shared, entrant env p q) cs = some (h', r')) (hy : r'.stop = some y)
    (ha : a' = a + (decide (y = .waiting)).toNat) (hb : b' = b + (decide (y = .half)).toNat)
    (hm : m' = m + (decide (y = .settled)).toNat) :
    Stage env p q a' b' m' ⟨h', s.threads ++ [r']⟩ := by
  have hptr := alone_ptr cs hrun
  have hspawn : (contest env).next s (.spawn ⟨p, q, "c", "", 0, 0, 0⟩) =
      some ⟨s.shared, s.threads ++ [entrant env p q]⟩ := rfl
  have hrun' := Program.run_alone (n := s.threads.length) (l := s.threads ++ [entrant env p q]) cs (by simp) hrun
  rw [List.set_append_right _ _ le_rfl, Nat.sub_self, List.set_cons_zero] at hrun'
  have hcount : ∀ z, (s.threads ++ [r']).countP (fun r => decide (r.stop = some z)) =
      s.threads.countP (fun r => decide (r.stop = some z)) + (decide (y = z)).toNat := fun z => by
    rw [List.countP_append, List.countP_singleton, hy]
    by_cases hz : y = z <;> simp [hz]
  refine ⟨.of_run _ (.step hs.reach hspawn trivial) hrun', forall_mem_concat hs.theirs ?_, ?_, ?_, ?_⟩
  · exact ⟨congrFun hptr .user, congrFun hptr .clusterUser, by simp [hy]⟩
  · rw [hcount, hs.waiting, ha]
  · rw [hcount, hs.half, hb]
  · rw [hcount, hs.settled, hm]

/-- Some request is at a stop that has not run out. -/
theorem exists_stop {l : List Request} {x : Stop} {k : Nat}
    (h : l.countP (fun r => decide (r.stop = some x)) = k + 1) :
    ∃ (n : Nat) (r : Request), l[n]? = some r ∧ r.stop = some x := by
  obtain ⟨r, hr, hx⟩ := List.countP_pos_iff.1 (by rw [h]; exact Nat.succ_pos k)
  obtain ⟨n, hn⟩ := List.mem_iff_getElem?.1 hr
  exact ⟨n, r, hn, of_decide_eq_true hx⟩

/-- The draw that follows as many as the limit is above it. -/
theorem checkConcurrent_next {l : Limits} {side : Side} (hpos : 0 < l.maxConcurrentQueries)
    (hmax : l.maxConcurrentQueries ≠ 4294967295) :
    l.checkConcurrent side (Counter.inc (l.maxConcurrentQueries.toNat : UInt32)) ≠ none := by
  intro hnone
  have hle := UInt32.le_iff_toNat_le.1 ((checkConcurrent_eq_none_iff hpos).1 hnone)
  have hlt := l.maxConcurrentQueries.toNat_lt
  have hne : l.maxConcurrentQueries.toNat ≠ 4294967295 := fun h => hmax (UInt32.toNat_inj.1 h)
  have hval : (Counter.inc (l.maxConcurrentQueries.toNat : UInt32)).toNat =
      (l.maxConcurrentQueries.toNat + 1) % 2 ^ 32 := by
    show (UInt32.ofNat _ + 1).toNat = _
    rw [UInt32.toNat_add, UInt32.ofNat_toNat]
    rfl
  rw [hval] at hle
  omega

theorem Stage.wait (hs : Stage env p q a b m s) : ∃ s, Stage env p q (a + 1) b m s := by
  have hone : Steps.run (contest env).alone (s.shared, entrant env p q) [{}] = some (s.shared.incQuery ⟨.user, p⟩,
      { entrant env p q with uQueries := (s.shared.queryCounter ⟨.user, p⟩).inc, pc := .inc .clusterUser }) := rfl
  exact ⟨_, hs.enter hone (y := .waiting) rfl rfl rfl rfl⟩

theorem Stage.finish (hs : Stage env p q a (b + 1) m s) : ∃ s, Stage env p q a b (m + 1) s := by
  obtain ⟨n, r, hr, hx⟩ := exists_stop hs.half
  obtain ⟨h', r', hrun, hy⟩ := run_to_settled env s.shared hx
  exact ⟨_, hs.move hr hx hrun hy rfl rfl rfl⟩

variable (env p q) in
theorem stage_waiting : ∀ a, ∃ s, Stage env p q a 0 0 s
  | 0 => ⟨idle, .init ⟨rfl, rfl, rfl⟩, by simp [idle], rfl, rfl, rfl⟩
  | a + 1 => by
    obtain ⟨s, hs⟩ := stage_waiting a
    exact hs.wait

theorem stage_finished : ∀ {b m : Nat}, (∃ s, Stage env p q a b m s) → ∃ s, Stage env p q a 0 (m + b) s
  | 0, _, h => h
  | b + 1, m, ⟨s, hs⟩ => by
    have ih := stage_finished hs.finish
    rwa [Nat.add_right_comm] at ih

section Free

variable (hfree : ∀ side, (env.limits (contested p q side)).Free)
  (hpos : ∀ side, 0 < (env.limits (contested p q side)).maxConcurrentQueries)
  (hmax : ∀ side, (env.limits (contested p q side)).maxConcurrentQueries ≠ 4294967295)

include hfree hpos hmax

/-- With the user's places all taken by waiting requests, one more is rejected; it stops half undone. -/
theorem Stage.block (hs : Stage env p q a b m s)
    (ha : a = (env.limits (contested p q .user)).maxConcurrentQueries.toNat) :
    ∃ s, Stage env p q a (b + 1) m s := by
  let r₁ : Request :=
    { entrant env p q with uQueries := (s.shared.queryCounter ⟨.user, p⟩).inc, pc := .inc .clusterUser }
  have hone : Steps.run (contest env).alone (s.shared, entrant env p q) [{}] =
      some (s.shared.incQuery ⟨.user, p⟩, r₁) := rfl
  have hover : (env.limits ⟨.user, p⟩).checkConcurrent .user (s.shared.queryCounter ⟨.user, p⟩).inc ≠ none := by
    rw [hs.queryCounter.1, ha]
    exact checkConcurrent_next (hpos .user) (hmax .user)
  obtain ⟨h', r', hrun, hy⟩ := run_to_half env (s.shared.incQuery ⟨.user, p⟩) (r := r₁) rfl
    (fun side => by cases side <;> exact hfree _) (.inl hover)
  exact ⟨_, hs.enter ((Steps.run_append _ _ hone).trans hrun) hy rfl rfl rfl⟩

/-- With the cluster user's places all taken by half undone requests, a waiting one is rejected. -/
theorem Stage.reject (hs : Stage env p q (a + 1) b m s)
    (hb : b = (env.limits (contested p q .clusterUser)).maxConcurrentQueries.toNat) :
    ∃ s, Stage env p q a b (m + 1) s := by
  obtain ⟨n, r, hr, hx⟩ := exists_stop hs.waiting
  obtain ⟨hp, hq, -⟩ := hs.theirs r (List.mem_of_getElem? hr)
  have hpc : r.pc = .inc .clusterUser := by
    unfold Request.stop at hx
    split at hx
    · assumption
    all_goals cases hx
  -- the counter is at its limit before this request draws
  have hover : (env.limits (r.acct .clusterUser)).checkConcurrent .clusterUser
      (s.shared.queryCounter (r.acct .clusterUser)).inc ≠ none := by
    rw [acct_eq_contested hp hq]
    show Limits.checkConcurrent _ .clusterUser (s.shared.queryCounter ⟨.clusterUser, q⟩).inc ≠ none
    rw [hs.queryCounter.2, hb]
    exact checkConcurrent_next (hpos .clusterUser) (hmax .clusterUser)
  obtain ⟨h', r', hrun, hy⟩ := run_to_half env s.shared hpc
    (fun side => by rw [acct_eq_contested hp hq]; exact hfree side) (.inr hover)
  have hhalf : Stage env p q a (b + 1) m ⟨h', s.threads.set n r'⟩ := hs.move hr hx hrun hy rfl rfl rfl
  exact hhalf.finish

/-- With the user's places taken, any number of requests come and go. -/
theorem stage_surplus (ha : a = (env.limits (contested p q .user)).maxConcurrentQueries.toNat)
    (h : ∃ s, Stage env p q a b m s) : ∀ k, ∃ s, Stage env p q a b (m + k) s
  | 0 => h
  | k + 1 => by
    obtain ⟨s, hs⟩ := stage_surplus ha h k
    obtain ⟨s', hs'⟩ := hs.block hfree hpos hmax ha
    exact hs'.finish

theorem stage_blocked (ha : a = (env.limits (contested p q .user)).maxConcurrentQueries.toNat)
    (h : ∃ s, Stage env p q a b m s) : ∀ k, ∃ s, Stage env p q a (b + k) m s
  | 0 => h
  | k + 1 => by
    obtain ⟨s, hs⟩ := stage_blocked ha h k
    exact hs.block hfree hpos hmax ha

theorem stage_rejected (hb : b = (env.limits (contested p q .clusterUser)).maxConcurrentQueries.toNat) :
    ∀ {a m : Nat}, (∃ s, Stage env p q a b m s) → ∃ s, Stage env p q 0 b (m + a) s
  | 0, _, h => h
  | a + 1, m, ⟨s, hs⟩ => by
    have ih := stage_rejected hb (hs.reject hfree hpos hmax hb)
    rwa [Nat.add_right_comm] at ih

/-- As many simultaneous requests as the two limits together, or more, can all be rejected: the user's places
fill up with requests that wait between their increments; what is more than the two limits comes and goes;
the cluster user's places fill up with requests that are half undone; the waiting ones go on and find no
place. -/
theorem exists_all_rejected {n : Nat}
    (hn : (env.limits (contested p q .user)).maxConcurrentQueries.toNat +
      (env.limits (contested p q .clusterUser)).maxConcurrentQueries.toNat ≤ n) :
    ∃ s, Stage env p q 0 0 n s := by
  obtain ⟨k, rfl⟩ := Nat.exists_eq_add_of_le hn
  have hwaiting := stage_waiting env p q (env.limits (contested p q .user)).maxConcurrentQueries.toNat
  have hsurplus := stage_surplus hfree hpos hmax rfl hwaiting k
  have hblocked := stage_blocked hfree hpos hmax rfl hsurplus
    (env.limits (contested p q .clusterUser)).maxConcurrentQueries.toNat
  have hrejected := stage_rejected hfree hpos hmax (Nat.zero_add _) hblocked
  obtain ⟨s, hs⟩ := stage_finished hrejected
  refine ⟨s, ?_⟩
  convert hs using 1
  omega

end Free

/-- The last stage is a contest that nobody wins. -/
theorem Stage.contest {n : Nat} (hs : Stage env p q 0 0 n s) :
    Contest env p q n s ∧ ∀ r ∈ s.threads, r.err ≠ none := by
  -- nobody waits and nobody is half way
  have hstop : ∀ r ∈ s.threads, r.stop = some .settled := by
    intro r hr
    obtain ⟨x, hx⟩ := Option.ne_none_iff_exists'.1 (hs.theirs r hr).2.2
    cases x with
    | waiting => exact absurd (decide_eq_true hx) (List.countP_eq_zero.1 hs.waiting r hr)
    | half => exact absurd (decide_eq_true hx) (List.countP_eq_zero.1 hs.half r hr)
    | settled => exact hx
  have hsettled : ∀ r ∈ s.threads, r.pc = .incReturned ∧ r.err ≠ none := by
    intro r hr
    have hx := hstop r hr
    unfold Request.stop at hx
    split at hx
    · cases hx
    · cases hx
    · rename_i hpc herr
      exact ⟨hpc, by simp [herr]⟩
    · cases hx
  refine ⟨⟨hs.reach, fun r hr => ?_, ?_, fun r hr _ => (hsettled r hr).1⟩, fun r hr => (hsettled r hr).2⟩
  · obtain ⟨hp, hq, -⟩ := hs.theirs r hr
    exact ⟨fun _ => hq, fun _ => hp⟩
  · rw [← hs.settled]
    refine List.countP_congr fun r hr => ?_
    simp [(hs.theirs r hr).1, hstop r hr]

end Stage

/-- No mutual rejection: with concurrency limits only, both positive, and no query of the user or of the
cluster user in progress, among any `n > 0` requests of the user that call `inc` at the same time, in any
interleaving in which all of them return, one is admitted, exactly when there are fewer of them than the
two limits together (or a limit is the largest `uint32`, which no counter exceeds). -/
theorem someone_admitted_iff (env : Env) (p q n : Nat) (hn : 0 < n)
    (hfree : ∀ side, (env.limits (contested p q side)).Free)
    (hpos : ∀ side, 0 < (env.limits (contested p q side)).maxConcurrentQueries) :
    (∀ s, Contest env p q n s → ∃ r ∈ s.threads, r.user = p ∧ r.err = none) ↔
      n < (env.limits (contested p q .user)).maxConcurrentQueries.toNat +
          (env.limits (contested p q .clusterUser)).maxConcurrentQueries.toNat ∨
        ∃ side, (env.limits (contested p q side)).maxConcurrentQueries = 4294967295 := by
  constructor
  · intro hall
    by_contra hroom
    rw [not_or, not_lt, not_exists] at hroom
    obtain ⟨s, hs⟩ := exists_all_rejected hfree hpos hroom.2 hroom.1
    obtain ⟨hc, hrej⟩ := hs.contest
    obtain ⟨r, hr, -, herr⟩ := hall s hc
    exact hrej r hr herr
  · intro hroom s hc
    exact exists_admitted hc hn hfree hpos hroom

theorem idle_quiet : Quiet 0 0 idle := ⟨rfl, rfl, rfl⟩

/-- A user with two queries at a time, mapped to a cluster user with one. -/
def twoAndOne : Env where
  limits a :=
    match a.side with
    | .user => ⟨"u", 2, 0, 0, none⟩
    | .clusterUser => ⟨"c", 1, 0, 0, none⟩
  replicaName _ := "r"
  host _ := "a"
  validLabel _ := true

/-- Two requests that overlap: the first to increment the counter of the user is the second on the other one. -/
def overlapRun : List Action :=
  [.spawn ⟨0, 0, "c", "", 0, 0, 0⟩, .spawn ⟨0, 0, "c", "", 0, 0, 0⟩, .step 0 {}, .step 1 {}, .step 1 {}, .step 0 {}] ++
    List.replicate 8 (.step 0 {}) ++ List.replicate 6 (.step 1 {})

def overlapped : State := (Steps.run (contest twoAndOne).next idle overlapRun).getD idle

theorem someone_admitted_overlapping :
    Contest twoAndOne 0 0 2 overlapped ∧
    overlapped.threads.map (·.err) = [some (.maxConcurrentQueries .clusterUser "c" 1), none] ∧
    ∃ r ∈ overlapped.threads, r.user = 0 ∧ r.err = none := by
  have hc : Contest twoAndOne 0 0 2 overlapped :=
    ⟨.of_run overlapRun (.init idle_quiet) rfl, by decide, by decide, by decide⟩
  have hfree : ∀ side, (twoAndOne.limits (contested 0 0 side)).Free := fun side => by cases side <;> exact ⟨rfl, rfl⟩
  have hpos : ∀ side, 0 < (twoAndOne.limits (contested 0 0 side)).maxConcurrentQueries := fun side => by
    cases side <;> decide
  refine ⟨hc, by decide, (someone_admitted_iff twoAndOne 0 0 2 Nat.two_pos hfree hpos).2 (.inl ?_) overlapped hc⟩
  decide

/-- Two requests, each first on one counter and second on the other. -/
def crossRun : List Action :=
  [.spawn ⟨0, 0, "c", "", 0, 0, 0⟩, .spawn ⟨0, 0, "c", "", 0, 0, 0⟩, .step 0 {}, .step 1 {}, .step 1 {}, .step 0 {}] ++
    List.replicate 8 (.step 0 {}) ++ List.replicate 8 (.step 1 {})

def crossed : State := (Steps.run (contest oneQuery).next idle crossRun).getD idle

/-- With both limits 1 and nothing running, two simultaneous requests are both rejected. -/
theorem both_rejected : Contest oneQuery 0 0 2 crossed ∧ crossed.threads.map (·.err) =
    [some (.maxConcurrentQueries .clusterUser "u" 1), some (.maxConcurrentQueries .user "u" 1)] :=
  ⟨⟨.of_run crossRun (.init idle_quiet) rfl, by decide, by decide, by decide⟩, by decide⟩

end Chproxy.Scope
