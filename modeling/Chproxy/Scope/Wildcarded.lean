/-
Requests of wildcarded users (`generateWildcardedUserInformation`, `proxy.go`): each is admitted with a copy of the
cluster user that was made for it alone, with counters of its own. The limits of the cluster user are then never
exceeded, by any number of such requests at once and whatever other requests there are: what holds them back are
the limits of the user. Only a negative `requests_per_minute`, which refuses every request, is copied to some effect.
-/
import Chproxy.Routing.WildcardCopy
import Chproxy.Scope.Limits

namespace Chproxy.Scope

open Function Pool

/-- Whose limit it is. -/
def LimitError.side : LimitError → Side
  | .maxConcurrentQueries side _ _ => side
  | .requestsPerMinute side _ _ => side
  | .requestPacketSizeTokensBurst side _ _ => side

/-- The limits of a cluster user that `generateWildcardedUserInformation` returned. -/
def CopiedLimits (l : Limits) : Prop :=
  ∃ (rp : Routing.ReverseProxy) (user u : Routing.User) (name password : String) (c : Routing.Cluster)
    (cu : Routing.ClusterUser),
    rp.generateWildcardedUserInformation user name password = .ok ⟨true, some u, some c, some cu⟩ ∧ l = cu.limits

/-- The cluster user of the arriving request is a copy that no other request has. -/
structure OwnCopy (env : Env) (s : State) (a : Arrival) : Prop where
  copied : CopiedLimits (env.limits ⟨.clusterUser, a.clusterUser⟩)
  new : ∀ r ∈ s.threads, r.clusterUser ≠ a.clusterUser
  zero : s.shared.rateLimiter ⟨.clusterUser, a.clusterUser⟩ = 0

/-- `copies` are the addresses of the copies; every other request may share its cluster user. -/
def FreshCopies (env : Env) (copies : Nat → Bool) (s : State) (a : Action) (_ : State) : Prop :=
  ∀ i, a = .spawn i → copies i.clusterUser = true → OwnCopy env s i

/-! ## The checks on a copy -/

theorem CopiedLimits.no_burst {l : Limits} (h : CopiedLimits l) : l.reqPacketSizeTokensBurst = 0 := by
  obtain ⟨rp, user, u, name, password, c, cu, hcu, rfl⟩ := h
  unfold Routing.ReverseProxy.generateWildcardedUserInformation at hcu
  split at hcu
  · cases hcu
  · split at hcu <;> cases hcu
    rfl

/-- One request alone is below every limit on concurrent queries. -/
theorem checkConcurrent_one (l : Limits) (side : Side) : l.checkConcurrent side 1 = none := by
  unfold Limits.checkConcurrent
  rw [if_neg]
  simp only [gt_iff_lt, Bool.and_eq_true, decide_eq_true_eq, not_and, UInt32.not_lt]
  intro hpos
  exact UInt32.le_iff_toNat_le.2 (UInt32.lt_iff_toNat_lt.1 hpos)

/-- The rate limiter of a copy has counted its one request, or lost count of it to a zeroing: only a negative
limit refuses it. -/
theorem checkRate_drawn {l : Limits} {side : Side} {rpm : UInt32} (hrpm : rpm = 0 ∨ rpm = 1) {e : LimitError}
    (he : l.checkRate side rpm = some e) : e = .requestsPerMinute side l.name l.reqPerMin ∧ l.reqPerMin < 0 := by
  have hone : 0 < l.reqPerMin → ¬ rpm > l.reqPerMin.toUInt32 := by
    intro hpos
    have hval := Int32.toNat_toUInt32_of_le (Int32.le_of_lt hpos)
    have hpos' := Int32.lt_iff_toInt_lt.1 hpos
    rw [gt_iff_lt, UInt32.not_lt, UInt32.le_iff_toNat_le, hval]
    rcases hrpm with rfl | rfl
    · exact Nat.zero_le _
    · rw [Int32.toInt_zero] at hpos'
      show 1 ≤ l.reqPerMin.toInt.toNat
      omega
  unfold Limits.checkRate at he
  split at he
  · cases he
    rename_i hfails
    simp only [Bool.or_eq_true, Bool.and_eq_true, decide_eq_true_eq] at hfails
    exact ⟨rfl, hfails.resolve_left fun ⟨⟨hpos, _⟩, hgt⟩ => hone hpos hgt⟩
  · cases he

theorem CopiedLimits.checkPacketSize {l : Limits} (h : CopiedLimits l) (side : Side) (tokens n : Nat) :
    l.checkPacketSize side tokens n = (tokens, none) := by
  unfold Limits.checkPacketSize
  rw [h.no_burst]
  rfl

/-! ## One request and its copy -/

/-- The rate limiter of the copy, by what `inc` has done to it: not yet, or drawn and not given back. A zeroing
in between makes the value given back one too few. -/
def Request.OwnRate (h : Shared) (r : Request) : Prop :=
  let rpm := h.rateLimiter (r.acct .clusterUser)
  match r.pc with
  | .incQueued | .enqueue _ | .queueSizeInc | .inc _ | .rate _ | .rechoose => rpm = 0 ∨ rpm + 1 = 0
  | .packetSize _ | .undo _ | .undoRate _ => rpm = 0 ∨ rpm = 1
  | .incReturned => r.err ≠ none → rpm = 0 ∨ rpm + 1 = 0
  | _ => True

/-- A limit of the user, or the negative `requests_per_minute` of its cluster user. -/
def LimitError.OfUser (l : Limits) (e : LimitError) : Prop :=
  e.side = .user ∨ e = .requestsPerMinute .clusterUser l.name l.reqPerMin ∧ l.reqPerMin < 0

/-- The error of a request, if any, is of the user. -/
def Request.UserError (env : Env) (r : Request) : Prop :=
  ∀ e, r.err = some e → e.OfUser (env.limits (r.acct .clusterUser))

section Step

variable {env : Env} {h h' : Shared} {r r' : Request} {c : Choice}

theorem incRate_of_ne (h : Shared) {a b : Acct} (hne : b ≠ a) : (h.incRate a).rateLimiter b = h.rateLimiter b :=
  update_of_ne hne _ h.rateLimiter

theorem decRate_of_ne (h : Shared) {a b : Acct} (hne : b ≠ a) : (h.decRate a).rateLimiter b = h.rateLimiter b :=
  update_of_ne hne _ h.rateLimiter

theorem incRate_self (h : Shared) (a : Acct) : (h.incRate a).rateLimiter a = (h.rateLimiter a).inc :=
  update_self a _ h.rateLimiter

theorem decRate_self (h : Shared) (a : Acct) : (h.decRate a).rateLimiter a = (h.rateLimiter a).dec :=
  update_self a _ h.rateLimiter

theorem acct_clusterUser_ne (r x : Request) : x.acct .clusterUser ≠ r.acct .user := by
  simp [Request.acct]

/-- A request moves no rate limiter of a cluster user but its own. -/
theorem advance_rateLimiter_of_ne {x : Request} (hs : advance env h r c = some (h', r'))
    (hx : x.clusterUser ≠ r.clusterUser) :
    h'.rateLimiter (x.acct .clusterUser) = h.rateLimiter (x.acct .clusterUser) := by
  have hne : x.acct .clusterUser ≠ r.acct .clusterUser := by
    simpa [Request.acct, Request.ptr] using hx
  cases advance_moves hs with
  | rateUser r => exact incRate_of_ne h (acct_clusterUser_ne r x)
  | undoRateUser r => exact decRate_of_ne h (acct_clusterUser_ne r x)
  | rateClusterUser r => exact incRate_of_ne h hne
  | undoRateClusterUser r => exact decRate_of_ne h hne
  | _ => rfl

theorem Request.OwnRate.congr {x : Request} (ho : x.OwnRate h)
    (heq : h'.rateLimiter (x.acct .clusterUser) = h.rateLimiter (x.acct .clusterUser)) : x.OwnRate h' := by
  unfold Request.OwnRate
  rw [heq]
  exact ho

theorem Counter.inc_drawn {v : Counter} (hv : v = 0 ∨ v + 1 = 0) : v.inc = 0 ∨ v.inc = 1 := by
  rcases hv with rfl | hv
  · exact .inr rfl
  · exact .inl hv

theorem Counter.dec_drawn {v : Counter} (hv : v = 0 ∨ v = 1) : v.dec = 0 ∨ v.dec + 1 = 0 := by
  rcases hv with rfl | rfl
  · exact .inr rfl
  · exact .inl rfl

theorem advance_ownRate (hr : r.WF env) (ho : r.OwnRate h) (hs : advance env h r c = some (h', r')) :
    r'.OwnRate h' := by
  cases advance_moves hs with
  | rateUser r => exact ho.congr (x := { r with pc := .rate .user }) (incRate_of_ne h (acct_clusterUser_ne r r))
  | undoRateUser r =>
    exact ho.congr (x := { r with pc := .undoRate .user }) (decRate_of_ne h (acct_clusterUser_ne r r))
  | rateClusterUser r =>
    have hdrawn := Counter.inc_drawn ho
    rw [← incRate_self] at hdrawn
    exact hdrawn
  | undoRateClusterUser r =>
    have hback := Counter.dec_drawn ho
    rw [← decRate_self] at hback
    exact fun _ => hback
  | gaugeInc r => exact fun herr => absurd hr.1 herr
  | waits r _ herr _ => exact ho herr
  | _ => first | exact ho | trivial

theorem checkConcurrent_side {l : Limits} {side : Side} {q : UInt32} {e : LimitError}
    (he : l.checkConcurrent side q = some e) : e.side = side := by
  unfold Limits.checkConcurrent at he
  split at he <;> cases he
  rfl

theorem checkRate_side {l : Limits} {side : Side} {rpm : UInt32} {e : LimitError}
    (he : l.checkRate side rpm = some e) : e.side = side := by
  unfold Limits.checkRate at he
  split at he <;> cases he
  rfl

theorem checkPacketSize_side {l : Limits} {side : Side} {tokens n m : Nat} {e : LimitError}
    (he : l.checkPacketSize side tokens n = (m, some e)) : e.side = side := by
  unfold Limits.checkPacketSize at he
  split at he
  · split at he <;> cases he
    rfl
  · cases he

theorem override_user {l : Limits} {err2 err : Option LimitError} (h2 : ∀ e, err2 = some e → e.OfUser l)
    (h1 : ∀ e, err = some e → e.OfUser l) : ∀ e, override err2 err = some e → e.OfUser l := by
  cases err2 with
  | none => exact h1
  | some e => exact h2

/-- The steps of a request whose copy counts it alone: every limit that fails is the user's. -/
theorem advance_userError (hcopy : CopiedLimits (env.limits (r.acct .clusterUser)))
    (hq : r.pc = .inc .clusterUser → h.queryCounter (r.acct .clusterUser) = 0) (ho : r.OwnRate h)
    (hu : r.UserError env) (hs : advance env h r c = some (h', r')) : r'.UserError env := by
  cases advance_moves hs with
  | incClusterUser r =>
    have hone : (h.queryCounter (r.acct .clusterUser)).inc = 1 := congrArg Counter.inc (hq rfl)
    intro e he
    rw [hone, checkConcurrent_one] at he
    exact .inl (checkConcurrent_side he)
  | rateUser r => exact override_user (fun _ he => .inl (checkRate_side he)) hu
  | rateClusterUser r => exact override_user (fun e he => .inr (checkRate_drawn (Counter.inc_drawn ho) he)) hu
  | packetSizeUser r n e he => exact override_user (fun e' h' => .inl (checkPacketSize_side (h' ▸ he))) hu
  | failed r n e err he herr =>
    obtain ⟨-, rfl⟩ := Prod.mk.inj ((hcopy.checkPacketSize _ _ _).symm.trans he)
    intro e' h'
    exact hu e' (herr.trans h')
  | passed r n e he herr => exact fun e' h' => by cases h'
  | _ => exact hu

end Step

/-! ## All the requests -/

/-- The copy that a request has to itself. -/
def Request.copy (copies : Nat → Bool) (r : Request) : Option Nat :=
  if copies r.clusterUser then some r.clusterUser else none

/-- What a request with a copy has: the limits of a copy, its rate limiter to itself, and no error of the copy. -/
structure Request.Own (env : Env) (h : Shared) (r : Request) : Prop where
  copied : CopiedLimits (env.limits (r.acct .clusterUser))
  rate : r.OwnRate h
  error : r.UserError env

structure Owned (env : Env) (copies : Nat → Bool) (s : State) : Prop where
  balanced : Balanced env s
  distinct : Labelled (Request.copy copies) s.threads
  own : ∀ r ∈ s.threads, copies r.clusterUser = true → r.Own env s.shared

section Run

variable {env : Env} {copies : Nat → Bool} {s s' : State} {a : Action}

theorem copy_eq_some {r : Request} {p : Nat} :
    r.copy copies = some p ↔ copies r.clusterUser = true ∧ r.clusterUser = p := by
  unfold Request.copy
  split
  · simp_all
  · simp_all

/-- A request about to count itself with its copy finds the copy unused. -/
theorem Owned.queryCounter (h : Owned env copies s) {n : Nat} {r : Request} (hn : s.threads[n]? = some r)
    (hcopy : copies r.clusterUser = true) (hpc : r.pc = .inc .clusterUser) :
    s.shared.queryCounter (r.acct .clusterUser) = 0 := by
  have hnone : s.counted (r.acct .clusterUser) = 0 := by
    refine List.countP_eq_zero.2 fun x hx => ?_
    rw [decide_eq_true_eq, Request.acct, countedBy_eq_some]
    rintro ⟨hptr, hcounted⟩
    obtain ⟨i, hi⟩ := List.mem_iff_getElem?.1 hx
    have heq : x.clusterUser = r.clusterUser := hptr
    have hin := h.distinct i n x r _ hi hn (copy_eq_some.2 ⟨heq ▸ hcopy, heq⟩) (copy_eq_some.2 ⟨hcopy, rfl⟩)
    subst hin
    cases hi.symm.trans hn
    simp [Request.counted, hpc] at hcounted
  rw [h.balanced.queryCounter, hnone]
  rfl

/-- What others do leaves the copy of a request alone. -/
theorem Request.Own.frame {h h' : Shared} {r : Request} (ho : r.Own env h)
    (heq : h'.rateLimiter (r.acct .clusterUser) = h.rateLimiter (r.acct .clusterUser)) : r.Own env h' :=
  ⟨ho.copied, ho.rate.congr heq, ho.error⟩

theorem outside_ownRate {h h' : Shared} {e : Event} {r : Request} (ho : r.OwnRate h) (he : outside h e = some h') :
    r.OwnRate h' := by
  cases e with
  | zero acct =>
    cases he
    by_cases hacct : r.acct .clusterUser = acct
    · -- a zeroed rate limiter is at zero, which every point allows
      have hzero : update h.rateLimiter acct 0 (r.acct .clusterUser) = 0 := hacct ▸ update_self acct 0 h.rateLimiter
      unfold Request.OwnRate
      simp only [hzero]
      split <;> simp
    · exact ho.congr (update_of_ne hacct _ _)
  | refill acct n => cases he; exact ho
  | heartbeat n up => cases he; exact ho

theorem Owned.next (h : Owned env copies s) (hn : (admission env).next s a = some s')
    (hf : FreshCopies env copies s a s') :
    Owned env copies s' := by
  have hb := balanced_next h.balanced hn
  obtain ⟨i, rfl, rfl⟩ | ⟨n, c, r, h', r', -, hr, hst, rfl⟩ | ⟨e, h', -, he, rfl⟩ := Program.next_cases hn
  · refine ⟨hb, labelled_concat h.distinct fun p hp x hx hxp => ?_, forall_mem_concat h.own fun hcopy => ?_⟩
    · obtain ⟨hcopy, rfl⟩ := copy_eq_some.1 hp
      exact (hf i rfl hcopy).new x hx (copy_eq_some.1 hxp).2
    · have hown := hf i rfl hcopy
      exact ⟨hown.copied, .inl hown.zero, fun e he => by cases he⟩
  · -- the step of a request on its own copy, and its frame for every other copy
    have hptr := advance_ptr hst
    have hcu : r'.clusterUser = r.clusterUser := congrFun hptr .clusterUser
    refine ⟨hb, labelled_set h.distinct hr (.inl ?_), ?_⟩
    · simp only [Request.copy, hcu]
    · intro x hx hcopy
      rcases mem_set_cases hx with rfl | ⟨i, hi, hxi⟩
      · rw [hcu] at hcopy
        have hown := h.own r (List.mem_of_getElem? hr) hcopy
        have hwf := h.balanced.wf r (List.mem_of_getElem? hr)
        refine ⟨?_, advance_ownRate hwf hown.rate hst,
          advance_userError hown.copied (h.queryCounter hr hcopy) hown.rate hown.error hst⟩
        rw [Request.acct, hptr]
        exact hown.copied
      · -- another request with the same copy would be the same request
        have hne : x.clusterUser ≠ r.clusterUser := by
          intro heq
          exact hi (h.distinct i n x r _ hxi hr (copy_eq_some.2 ⟨hcopy, heq⟩) (copy_eq_some.2 ⟨heq ▸ hcopy, rfl⟩))
        exact (h.own x (List.mem_of_getElem? hxi) hcopy).frame (advance_rateLimiter_of_ne hst hne)
  · refine ⟨hb, h.distinct, fun x hx hcopy => ?_⟩
    have hown := h.own x hx hcopy
    exact ⟨hown.copied, outside_ownRate hown.rate he, hown.error⟩

theorem initial_owned (h : Initial s) : Owned env copies s := by
  refine ⟨initial_balanced h, ?_, ?_⟩ <;> rw [h.threads]
  · intro i j x y b hi
    simp at hi
  · exact List.forall_mem_nil _

end Run

/-- However many requests of wildcarded users are in progress, and whatever other requests are: a limit that one of
them exceeds is a limit of the user, unless the `requests_per_minute` of the cluster user is negative. -/
theorem wildcarded_limited_by_user (env : Env) (copies : Nat → Bool) {s : State}
    (hs : Steps.ReachWhen (admission env).next Initial (FreshCopies env copies) s) {r : Request} (hr : r ∈ s.threads)
    (hcopy : copies r.clusterUser = true) {e : LimitError} (he : r.err = some e) :
    e.side = .user ∨ e = .requestsPerMinute .clusterUser (env.limits (r.acct .clusterUser)).name
      (env.limits (r.acct .clusterUser)).reqPerMin ∧ (env.limits (r.acct .clusterUser)).reqPerMin < 0 := by
  have howned : Owned env copies s :=
    hs.invariant (fun _ => initial_owned) fun _ _ _ h hn hf => h.next hn hf
  exact (howned.own r hr hcopy).error e he

/-- The proxy of `analyst_*`, whose cluster user may run one query. -/
def oneWeb : Routing.ReverseProxy :=
  ((Routing.newReverseProxy ⟨2, 2⟩).applyConfig Routing.calmWorld 0
    { Routing.analystConfig with
      clusters :=
        [{ name := "c", scheme := "http", nodes := ["n"], replicas := []
           clusterUsers := [⟨"web", "secret", 1, 0, 0, 0, 0, 0, 0, []⟩]
           killQueryUser := ⟨"", ""⟩, heartBeat := ⟨5000000000, 3000000000, "/ping", "Ok.\n", "", ""⟩
           retryNumber := 0 }] }).rp

/-- `analyst_*` may run two queries, and its cluster user one. -/
def analystLimits : Env where
  limits a :=
    match a.side with
    | .user =>
      { name := "analyst_*", maxConcurrentQueries := 2, reqPerMin := 0, reqPacketSizeTokensBurst := 0, queueCh := none }
    | .clusterUser =>
      { name := "analyst_7", maxConcurrentQueries := 1, reqPerMin := 0, reqPacketSizeTokensBurst := 0, queueCh := none }
  replicaName _ := "r"
  host _ := "n"
  validLabel _ := true

theorem analystLimits_copied (p : Nat) : CopiedLimits (analystLimits.limits ⟨.clusterUser, p⟩) := by
  obtain ⟨user, huser⟩ : ∃ user, oneWeb.users.lookup "analyst_*" = some user := ⟨_, rfl⟩
  obtain ⟨c, hc⟩ : ∃ c, oneWeb.clusters.lookup user.toCluster = some c := by
    cases huser
    exact ⟨_, rfl⟩
  obtain ⟨cu, hcu, hlimits⟩ : ∃ cu, c.users.lookup user.toUser = some cu ∧
      analystLimits.limits ⟨.clusterUser, p⟩ =
        Routing.ClusterUser.limits { Routing.deepCopy cu with name := "analyst_7", password := "mine" } := by
    cases huser
    cases hc
    exact ⟨_, rfl, rfl⟩
  have hcopy := Routing.ReverseProxy.generateWildcardedUserInformation_copy hc hcu "analyst_7" "mine"
  exact ⟨oneWeb, user, user, "analyst_7", "mine", c, _, hcopy, hlimits⟩

/-- Three requests of `analyst_7`, each with a copy of its own. -/
def threeAnalysts : List Action :=
  ((List.range 3).flatMap fun n => .spawn ⟨0, n, "c", "", 0, 0, 0⟩ :: List.replicate 13 (.step n {})) ++
    List.replicate 2 (.step 2 {})

def freshCopy (s : State) (a : Action) (_ : State) : Bool :=
  match a with
  | .spawn i =>
    s.threads.all (fun r => r.clusterUser ≠ i.clusterUser) && s.shared.rateLimiter ⟨.clusterUser, i.clusterUser⟩ == 0
  | _ => true

theorem freshCopies_of_freshCopy (s : State) (a : Action) (s' : State) (h : freshCopy s a s' = true) :
    FreshCopies analystLimits (fun _ => true) s a s' := by
  rintro i rfl -
  simp only [freshCopy, Bool.and_eq_true, List.all_eq_true, decide_eq_true_eq, beq_iff_eq] at h
  exact ⟨analystLimits_copied _, h.1, h.2⟩

/-- Two of the three run at once, although their cluster user may run one query. The third is refused for the
user. -/
theorem wildcarded_limited_by_user_three :
    ∃ s, Steps.ReachWhen (admission analystLimits).next Initial (FreshCopies analystLimits fun _ => true) s ∧
      s.threads.map (fun r => (r.pc, r.err.isSome)) = [(.attempt, false), (.attempt, false), (.done, true)] ∧
      ∀ r ∈ s.threads, ∀ e, r.err = some e → e.side = .user := by
  obtain ⟨s, hrun, hthreads⟩ : ∃ s, Steps.runWhen (admission analystLimits).next freshCopy idle threeAnalysts = some s ∧
      s.threads.map (fun r => (r.pc, r.err.isSome)) = [(.attempt, false), (.attempt, false), (.done, true)] := by
    exact Option.map_eq_some_iff.1 (by decide)
  have hr := Steps.ReachWhen.of_runWhen freshCopies_of_freshCopy threeAnalysts (.init idle_initial) hrun
  refine ⟨s, hr, hthreads, fun r hr' e he => ?_⟩
  exact (wildcarded_limited_by_user analystLimits _ hr hr' rfl he).resolve_right fun hneg => by cases hneg.2

end Chproxy.Scope
