/-
What a rejected request costs. `inc` takes six things in a row (a place in both query counters and both
rate limiters, the tokens of both packet-size buckets) before it decides; when it decides against the
request it gives back the first four. When it decides for it, a label that is not UTF-8 makes it panic
after all. Here `inc` and the loop of `waitUntilAllowStart` are functions, the
request running without interference; `inc_run` and `waitUntilAllowStart_run` say that they are what the
steps of `Scope.Admission` compute when no other request moves.
-/
import Chproxy.Scope.Conservation

namespace Chproxy.Scope

open Function Pool

/-! ## `inc` without interference -/

/-- How a call of `inc` ends: it returns nil or an error, or it panics. -/
inductive Verdict
  | started
  | refused (e : LimitError)
  | panics
  deriving DecidableEq, Repr

section Functions

variable (env : Env) (h : Shared) (r : Request)

/-- Both buckets are asked, whatever the first one answers. -/
def checkTokenFreePacketSizeRateLimiters : Shared × Option LimitError :=
  let u := (env.limits (r.acct .user)).checkPacketSize .user (h.tokens (r.acct .user)) r.requestPacketSize
  let h := h.setTokens (r.acct .user) u.1
  let cu := (env.limits (r.acct .clusterUser)).checkPacketSize .clusterUser (h.tokens (r.acct .clusterUser))
    r.requestPacketSize
  (h.setTokens (r.acct .clusterUser) cu.1, override cu.2 u.2)

def checkTokenFreeRateLimiters : Shared × Option LimitError :=
  let uRPM := (h.rateLimiter (r.acct .user)).inc
  let h := h.incRate (r.acct .user)
  let cRPM := (h.rateLimiter (r.acct .clusterUser)).inc
  let h := h.incRate (r.acct .clusterUser)
  let err := (env.limits (r.acct .user)).checkRate .user uRPM
  let err := override ((env.limits (r.acct .clusterUser)).checkRate .clusterUser cRPM) err
  let res := checkTokenFreePacketSizeRateLimiters env h r
  (res.1, override res.2 err)

def inc : Shared × Verdict :=
  let uQueries := (h.queryCounter (r.acct .user)).inc
  let h := h.incQuery (r.acct .user)
  let cQueries := (h.queryCounter (r.acct .clusterUser)).inc
  let h := h.incQuery (r.acct .clusterUser)
  let err := (env.limits (r.acct .user)).checkConcurrent .user uQueries
  -- the error of the cluster user overrides that of the user
  let err := override ((env.limits (r.acct .clusterUser)).checkConcurrent .clusterUser cQueries) err
  let res := checkTokenFreeRateLimiters env h r
  match override res.2 err with
  | some e =>
    let h := (res.1.decQuery (r.acct .user)).decQuery (r.acct .clusterUser)
    ((h.decRate (r.acct .user)).decRate (r.acct .clusterUser), .refused e)
  | none =>
    let h := res.1.incrementConnections r.host
    if env.validLabels r.labels then (h.addConcurrent r.labels 1, .started) else (h, .panics)

end Functions

/-- The host and the labels after the sleep of the wait loop. -/
def Request.rechoose (env : Env) (r : Request) (next : Nat) : Request :=
  { r with
    host := next
    labels := { r.labels with replica := env.replicaName next, clusterNode := env.host next } }

/-- What time puts into the buckets of the request. -/
def Shared.refill (h : Shared) (r : Request) (n : Side → Nat) : Shared :=
  let h := h.setTokens (r.acct .user) (h.tokens (r.acct .user) + n .user)
  h.setTokens (r.acct .clusterUser) (h.tokens (r.acct .clusterUser) + n .clusterUser)

/-- One sleep of the wait loop: what the buckets regain meanwhile, and the host chosen after it. -/
structure Sleep where
  refill : Side → Nat
  next : Nat

/-- The wait loop with the sleeps its deadline leaves room for. -/
def waitUntilAllowStart (env : Env) : Shared → Request → List Sleep → Shared × Verdict
  | h, r, [] => inc env h r
  | h, r, z :: zs =>
    match inc env h r with
    | (h', .refused _) => waitUntilAllowStart env (h'.refill r z.refill) (r.rechoose env z.next) zs
    | (h', v) => (h', v)

/-! ## The steps of a request that runs alone -/

theorem override_assoc (e₁ e₂ e₃ : Option LimitError) :
    override (override e₁ e₂) e₃ = override e₁ (override e₂ e₃) := by
  cases e₁ <;> rfl

section Alone

variable (env : Env)

/-- How `inc` ends, from the last check on: `err` is the error so far. -/
def concludes (env : Env) (h : Shared) (r : Request) (err : Option LimitError) : Shared × Verdict :=
  let res := (env.limits (r.acct .clusterUser)).checkPacketSize .clusterUser (h.tokens (r.acct .clusterUser))
    r.requestPacketSize
  let h := h.setTokens (r.acct .clusterUser) res.1
  match override res.2 err with
  | some e =>
    let h := (h.decQuery (r.acct .user)).decQuery (r.acct .clusterUser)
    ((h.decRate (r.acct .user)).decRate (r.acct .clusterUser), .refused e)
  | none =>
    let h := h.incrementConnections r.host
    if env.validLabels r.labels then (h.addConcurrent r.labels 1, .started) else (h, .panics)

/-- The first five steps of `inc`, up to its last check. -/
theorem inc_checks (h : Shared) {r : Request} (hpc : r.pc = .inc .user) : ∃ h₅ uQueries cQueries err,
    Steps.run (admission env).alone (h, r) (List.replicate 5 {}) = some (h₅,
      { r with uQueries := uQueries, cQueries := cQueries, err := err, pc := .packetSize .clusterUser }) ∧
    inc env h r = concludes env h₅ r err := by
  obtain ⟨r, rfl⟩ : ∃ r₀ : Request, r = { r₀ with pc := .inc .user } := ⟨r, by rw [← hpc]⟩
  refine ⟨_, _, _, _, rfl, ?_⟩
  simp only [inc, checkTokenFreeRateLimiters, checkTokenFreePacketSizeRateLimiters, override_assoc]
  rfl

/-- The request where a call of `inc` has ended: at its return, or on the way out of `incQueued` after a panic. -/
def Request.after (r : Request) : Verdict → Request
  | .started => { r with err := none, incLabels := some r.labels, pc := .incReturned }
  | .refused e => { r with err := some e, pc := .incReturned }
  | .panics =>
    { r with err := none, panic := some .gaugeInc, pc := if r.waiting then .queueSizeDec else .leave .clusterUser }

theorem concludes_run (h : Shared) {r : Request} (hpc : r.pc = .packetSize .clusterUser) : ∃ cs,
    Steps.run (admission env).alone (h, r) cs =
      some ((concludes env h r r.err).1, r.after (concludes env h r r.err).2) := by
  cases he : override ((env.limits (r.acct .clusterUser)).checkPacketSize .clusterUser
    (h.tokens (r.acct .clusterUser)) r.requestPacketSize).2 r.err with
  | some e =>
    refine ⟨List.replicate 5 {}, ?_⟩
    simp only [concludes, he]
    show (advance env h r {}).bind _ = _
    simp only [advance, hpc, he]
    rfl
  | none =>
    refine ⟨List.replicate 3 {}, ?_⟩
    simp only [concludes, he]
    show (advance env h r {}).bind _ = _
    simp only [advance, hpc, he]
    -- the two steps that are left, the second by the labels
    by_cases hlabels : env.validLabels r.labels = true
    · simp [Steps.run, Program.alone, admission, advance, hlabels, Request.after]
    · cases hwait : r.waiting <;>
        simp [Steps.run, Program.alone, admission, advance, hlabels, hwait, Request.after]

/-- From its first increment on, a request that runs alone reaches the end of `inc` with the shared
data and the verdict that `inc` computes; of itself it changes only locals. -/
theorem inc_run (h : Shared) {r : Request} (hpc : r.pc = .inc .user) : ∃ cs uQueries cQueries err,
    Steps.run (admission env).alone (h, r) cs = some ((inc env h r).1,
      Request.after { r with uQueries := uQueries, cQueries := cQueries, err := err, pc := .packetSize .clusterUser }
        (inc env h r).2) := by
  obtain ⟨h₅, uQueries, cQueries, err, hrun, hinc⟩ := inc_checks env h hpc
  let r₅ : Request := { r with uQueries := uQueries, cQueries := cQueries, err := err, pc := .packetSize .clusterUser }
  obtain ⟨cs, hend⟩ := concludes_run env h₅ (r := r₅) rfl
  refine ⟨List.replicate 5 ({} : Choice) ++ cs, uQueries, cQueries, err, ?_⟩
  rw [Steps.run_append _ _ hrun, hend, hinc]
  rfl

/-- The wait loop reads of its request only what the sleeps of other attempts leave alone. -/
theorem waitUntilAllowStart_locals (uQueries cQueries : UInt32) (err : Option LimitError) (incLabels : Option Labels)
    (pc : Pc) : ∀ (zs : List Sleep) (h : Shared) (r : Request),
    waitUntilAllowStart env h
        { r with uQueries := uQueries, cQueries := cQueries, err := err, incLabels := incLabels, pc := pc } zs =
      waitUntilAllowStart env h r zs
  | [], h, r => rfl
  | z :: zs, h, r => by
    unfold waitUntilAllowStart
    have hinc : inc env h { r with
        uQueries := uQueries, cQueries := cQueries, err := err, incLabels := incLabels, pc := pc } = inc env h r := rfl
    rw [hinc]
    split
    · exact waitUntilAllowStart_locals uQueries cQueries err incLabels pc zs _ (r.rechoose env z.next)
    · rfl

/-- The steps of request `n` and what time puts into its buckets. -/
def Undisturbed (n : Nat) (r : Request) (a : Action) : Prop :=
  (∃ c, a = .step n c) ∨ ∃ side m, a = .env (.refill (r.acct side) m)

/-- One sleep: the loop goes on, the buckets regain, a host is chosen. -/
def Sleep.actions (z : Sleep) (n : Nat) (r : Request) : List Action :=
  [.step n {}, .env (.refill (r.acct .user) (z.refill .user)),
    .env (.refill (r.acct .clusterUser) (z.refill .clusterUser)), .step n { next := z.next }]

theorem Sleep.actions_undisturbed (z : Sleep) (n : Nat) (r : Request) : ∀ a ∈ z.actions n r, Undisturbed n r a := by
  simp [Sleep.actions, Undisturbed]

theorem Sleep.actions_run (z : Sleep) {n : Nat} (h : Shared) {r : Request} {l : List Request} (hr : l[n]? = some r)
    (hpc : r.pc = .incReturned) (hw : r.waiting = true) (herr : r.err ≠ none) :
    Steps.run (admission env).next ⟨h, l⟩ (z.actions n r) =
      some ⟨h.refill r z.refill, l.set n { r.rechoose env z.next with pc := .inc .user }⟩ := by
  have hstay : advance env h r {} = some (h, { r with pc := .rechoose }) := by
    simp [advance, hpc, hw, herr]
  have hset : ∀ r' : Request, (l.set n r')[n]? = some r' := fun r' => by rw [List.getElem?_set_self', hr]; rfl
  have hchoose : ∀ h, advance env h { r with pc := .rechoose } { next := z.next } =
      some (h, { r.rechoose env z.next with pc := .inc .user }) := fun _ => rfl
  show ((admission env).next _ (.step n {})).bind _ = _
  rw [Program.next_step hr hstay, Option.bind_some]
  show ((admission env).next _ (.step n { next := z.next })).bind _ = _
  rw [Program.next_step (hset _) (hchoose _), List.set_set]
  rfl

/-- Where a request is at the end of its wait loop: what `inc` came to is in the request's own fields. -/
def Request.Concluded (r : Request) : Verdict → Prop
  | .started => r.pc = .incReturned ∧ r.err = none ∧ r.panic = none
  | .refused e => r.pc = .incReturned ∧ r.err = some e ∧ r.panic = none
  | .panics => r.pc = .queueSizeDec ∧ r.stranded = true

theorem Request.after_concluded {r : Request} (hp : r.panic = none) (hw : r.waiting = true) (v : Verdict) :
    (r.after v).Concluded v := by
  cases v with
  | started => exact ⟨rfl, rfl, hp⟩
  | refused e => exact ⟨rfl, rfl, hp⟩
  | panics => exact ⟨by simp [Request.after, hw], rfl⟩

/-- With only its own steps and the refills of its buckets, a waiting request comes to the end of the loop
with the shared data and the verdict that `waitUntilAllowStart` computes. -/
theorem waitUntilAllowStart_run {n : Nat} : ∀ (zs : List Sleep) (h : Shared) (r : Request) (l : List Request),
    l[n]? = some r → r.pc = .inc .user → r.waiting = true → r.panic = none →
      ∃ acts r', (∀ a ∈ acts, Undisturbed n r a) ∧
        Steps.run (admission env).next ⟨h, l⟩ acts = some ⟨(waitUntilAllowStart env h r zs).1, l.set n r'⟩ ∧
        r'.Concluded (waitUntilAllowStart env h r zs).2
  | [], h, r, l, hr, hpc, hw, hp => by
    obtain ⟨cs, uQueries, cQueries, err, hrun⟩ := inc_run env h hpc
    exact ⟨cs.map (.step n), _, by simp [Undisturbed], Program.run_alone cs hr hrun,
      Request.after_concluded (by exact hp) (by exact hw) _⟩
  | z :: zs, h, r, l, hr, hpc, hw, hp => by
    obtain ⟨cs, uQueries, cQueries, err, hrun⟩ := inc_run env h hpc
    have hfirst := Program.run_alone cs hr hrun
    cases hinc : inc env h r with
    | mk h' v =>
    rw [hinc] at hfirst
    by_cases hv : ∃ e, v = .refused e
    · obtain ⟨e, rfl⟩ := hv
      -- refused: the request sleeps and tries again, at a host that is chosen anew
      let r₁ : Request :=
        { r with uQueries := uQueries, cQueries := cQueries, err := some e, pc := .incReturned }
      let r₂ : Request := { r₁.rechoose env z.next with pc := .inc .user }
      have hget : ∀ x : Request, (l.set n x)[n]? = some x := fun x => by rw [List.getElem?_set_self', hr]; rfl
      have hsleep := z.actions_run env h' (hget r₁) rfl hw (Option.some_ne_none e)
      have hloop : waitUntilAllowStart env h r (z :: zs) =
          waitUntilAllowStart env (h'.refill r z.refill) r₂ zs := by
        simp only [waitUntilAllowStart, hinc]
        exact (waitUntilAllowStart_locals env uQueries cQueries (some e) r.incLabels (.inc .user) zs _ _).symm
      obtain ⟨acts, r', hun, hrun', hend⟩ :=
        waitUntilAllowStart_run zs (h'.refill r z.refill) r₂ (l.set n r₂) (hget r₂) rfl hw hp
      rw [List.set_set] at hsleep hrun'
      rw [hloop]
      refine ⟨cs.map (.step n) ++ (z.actions n r₁ ++ acts), r', ?_, ?_, hend⟩
      · intro a ha
        simp only [List.mem_append, List.mem_map] at ha
        rcases ha with ⟨c, -, rfl⟩ | ha | ha
        · exact .inl ⟨c, rfl⟩
        · exact z.actions_undisturbed n r a ha
        · exact hun a ha
      · rw [Steps.run_append _ _ hfirst]
        exact (Steps.run_append _ _ hsleep).trans hrun'
    · -- the loop ends with this attempt
      have hloop : waitUntilAllowStart env h r (z :: zs) = (h', v) := by
        cases v with
        | refused e => exact absurd ⟨e, rfl⟩ hv
        | _ => simp only [waitUntilAllowStart, hinc]
      rw [hloop]
      exact ⟨cs.map (.step n), _, by simp [Undisturbed], hfirst,
        Request.after_concluded (by exact hp) (by exact hw) v⟩

end Alone

/-! ## What is given back -/

theorem acct_user_ne (r : Request) : r.acct .user ≠ r.acct .clusterUser := fun h => by cases congrArg Acct.side h

theorem Counter.dec_inc (c : Counter) : c.inc.dec = c := by
  have := Counter.dec_add_one c.inc
  exact add_right_cancel this

/-- Two places taken and given back in the same order. -/
theorem update_inc_dec (f : Acct → Counter) (u cu : Acct) :
    update (update (update (update f u (f u).inc) cu (f cu).inc) u (f u).inc.dec) cu (f cu).inc.dec = f := by
  funext a
  by_cases hcu : a = cu
  · rw [hcu, update_self, Counter.dec_inc]
  · rw [update_of_ne hcu]
    by_cases hu : a = u
    · rw [hu, update_self, Counter.dec_inc]
    · rw [update_of_ne hu, update_of_ne hcu, update_of_ne hu]

section Rejected

variable {env : Env} {h : Shared} {r : Request}

/-- Everything but the tokens is as it was. -/
theorem inc_rejected {e : LimitError} (he : (inc env h r).2 = .refused e) :
    (inc env h r).1 = (checkTokenFreePacketSizeRateLimiters env h r).1 := by
  have hne := acct_user_ne r
  have hq := update_inc_dec h.queryCounter (r.acct .user) (r.acct .clusterUser)
  have hrl := update_inc_dec h.rateLimiter (r.acct .user) (r.acct .clusterUser)
  unfold inc at he ⊢
  simp only at he ⊢
  split at he
  · simp only [checkTokenFreeRateLimiters, checkTokenFreePacketSizeRateLimiters, Shared.incQuery, Shared.incRate,
      Shared.decQuery, Shared.decRate, Shared.setTokens, update_self, update_of_ne hne, update_of_ne hne.symm, hq, hrl]
  · split at he <;> cases he

theorem inc_tokens : (inc env h r).1.tokens = (checkTokenFreePacketSizeRateLimiters env h r).1.tokens := by
  unfold inc
  simp only
  split
  · rfl
  · split <;> rfl

/-- A bucket is left alone when the limit is off, when nothing is asked for, or when it cannot pay. -/
theorem checkPacketSize_eq_iff {l : Limits} {side : Side} {tokens n : Nat} :
    (l.checkPacketSize side tokens n).1 = tokens ↔
      l.reqPacketSizeTokensBurst = 0 ∨ n = 0 ∨ tokens < n := by
  unfold Limits.checkPacketSize allowN
  by_cases hb : l.reqPacketSizeTokensBurst = 0
  · simp [hb]
  · have hpos : l.reqPacketSizeTokensBurst > 0 := UInt64.pos_iff_ne_zero.2 hb
    by_cases hn : n ≤ tokens
    · simp only [hpos, if_true, hn, hb, false_or]
      omega
    · simp only [hpos, if_true, hn, if_false, true_iff]
      omega

theorem allowN_le {tokens n left : Nat} (h : allowN tokens n = some left) : left ≤ tokens := by
  unfold allowN at h
  split at h
  · cases h; exact Nat.sub_le tokens n
  · cases h

theorem checkPacketSize_le (l : Limits) (side : Side) (tokens n : Nat) :
    (l.checkPacketSize side tokens n).1 ≤ tokens := by
  unfold Limits.checkPacketSize
  split
  · split
    · exact allowN_le ‹_›
    · exact le_rfl
  · exact le_rfl

variable (env h r) in
/-- The bucket of each side after the packet-size check. -/
theorem checkTokenFreePacketSizeRateLimiters_tokens (side : Side) :
    (checkTokenFreePacketSizeRateLimiters env h r).1.tokens (r.acct side) =
      ((env.limits (r.acct side)).checkPacketSize side (h.tokens (r.acct side)) r.requestPacketSize).1 := by
  have hne := acct_user_ne r
  cases side <;> simp [checkTokenFreePacketSizeRateLimiters, Shared.setTokens, hne, hne.symm]

theorem setTokens_eq_self (h : Shared) (a : Acct) : h.setTokens a (h.tokens a) = h := by
  unfold Shared.setTokens
  rw [update_eq_self]

/-- Neither bucket can pay for the request, or none is asked to. -/
def Shared.Spares (h : Shared) (env : Env) (r : Request) : Prop :=
  ∀ side, (env.limits (r.acct side)).reqPacketSizeTokensBurst = 0 ∨ r.requestPacketSize = 0 ∨
    h.tokens (r.acct side) < r.requestPacketSize

theorem checkTokenFreePacketSizeRateLimiters_eq_iff :
    (checkTokenFreePacketSizeRateLimiters env h r).1 = h ↔ h.Spares env r := by
  constructor
  · intro heq side
    have htok := checkTokenFreePacketSizeRateLimiters_tokens env h r side
    rw [heq] at htok
    exact checkPacketSize_eq_iff.1 htok.symm
  · intro hs
    have hkeep : ∀ side, ((env.limits (r.acct side)).checkPacketSize side (h.tokens (r.acct side))
        r.requestPacketSize).1 = h.tokens (r.acct side) := fun side => checkPacketSize_eq_iff.2 (hs side)
    unfold checkTokenFreePacketSizeRateLimiters
    simp only [hkeep, setTokens_eq_self]

theorem inc_rejected_eq_iff {e : LimitError} (he : (inc env h r).2 = .refused e) :
    (inc env h r).1 = h ↔ h.Spares env r := by
  rw [inc_rejected he, checkTokenFreePacketSizeRateLimiters_eq_iff]

variable (env h r) in
theorem inc_tokens_le (side : Side) : (inc env h r).1.tokens (r.acct side) ≤ h.tokens (r.acct side) := by
  rw [inc_tokens, checkTokenFreePacketSizeRateLimiters_tokens]
  exact checkPacketSize_le ..

/-- Buckets that have lost nothing were not asked to pay. -/
theorem spares_of_tokens_le
    (hle : ∀ side, h.tokens (r.acct side) ≤ (inc env h r).1.tokens (r.acct side)) : h.Spares env r := by
  intro side
  have heq := le_antisymm (inc_tokens_le env h r side) (hle side)
  rw [inc_tokens, checkTokenFreePacketSizeRateLimiters_tokens] at heq
  exact checkPacketSize_eq_iff.1 heq

end Rejected

/-! ## The wait loop -/

theorem refill_tokens (h : Shared) (r : Request) (n : Side → Nat) (side : Side) :
    (h.refill r n).tokens (r.acct side) = h.tokens (r.acct side) + n side := by
  have hne := acct_user_ne r
  cases side <;> simp [Shared.refill, Shared.setTokens, hne, hne.symm]

theorem refill_zero (h : Shared) (r : Request) : h.refill r 0 = h := by
  unfold Shared.refill
  simp only [Pi.zero_apply, Nat.add_zero, setTokens_eq_self]

theorem refill_refill (h : Shared) (r : Request) (m n : Side → Nat) :
    (h.refill r m).refill r n = h.refill r (m + n) := by
  have hne := acct_user_ne r
  unfold Shared.refill Shared.setTokens
  simp only [update_self, update_of_ne hne, update_of_ne hne.symm, Pi.add_apply, Nat.add_assoc]
  rw [update_comm hne.symm, update_idem, update_idem]

/-- What the buckets regain during the sleeps. -/
def regained (zs : List Sleep) : Side → Nat := (zs.map Sleep.refill).sum

section Loop

variable {env : Env}

/-- A new host changes neither the accounts of a request nor its size. -/
theorem acct_rechoose (r : Request) (n : Nat) (side : Side) : (r.rechoose env n).acct side = r.acct side := by
  cases side <;> rfl

theorem refill_rechoose (h : Shared) (r : Request) (n : Nat) (m : Side → Nat) :
    h.refill (r.rechoose env n) m = h.refill r m := rfl

theorem spares_rechoose (h : Shared) (r : Request) (n : Nat) :
    h.Spares env (r.rechoose env n) ↔ h.Spares env r :=
  forall_congr' fun side => by rw [acct_rechoose]; rfl

variable (env) in
/-- The loop never adds to a bucket. -/
theorem waitUntilAllowStart_tokens_le (side : Side) : ∀ (zs : List Sleep) (h : Shared) (r : Request),
    (waitUntilAllowStart env h r zs).1.tokens (r.acct side) ≤ h.tokens (r.acct side) + regained zs side
  | [], h, r => inc_tokens_le env h r side
  | z :: zs, h, r => by
    have hle := inc_tokens_le env h r side
    have ih := waitUntilAllowStart_tokens_le side zs ((inc env h r).1.refill r z.refill) (r.rechoose env z.next)
    have hreg : regained (z :: zs) side = z.refill side + regained zs side := by simp [regained]
    rw [acct_rechoose, refill_tokens] at ih
    unfold waitUntilAllowStart
    split
    · rename_i heq
      rw [heq] at hle ih
      calc _ ≤ _ + z.refill side + regained zs side := ih
        _ ≤ h.tokens (r.acct side) + z.refill side + regained zs side := by gcongr
        _ = h.tokens (r.acct side) + regained (z :: zs) side := by rw [hreg, Nat.add_assoc]
    · rename_i heq
      rw [heq] at hle
      exact le_trans hle (Nat.le_add_right ..)

/-- In a loop that never starts the request, the first attempt failed. -/
theorem inc_of_wait_rejected {zs : List Sleep} {h : Shared} {r : Request} {e : LimitError}
    (he : (waitUntilAllowStart env h r zs).2 = .refused e) : ∃ h' e', inc env h r = (h', .refused e') := by
  cases hinc : inc env h r with
  | mk h' v =>
    cases v with
    | refused e' => exact ⟨h', e', rfl⟩
    | _ => cases zs <;> simp [waitUntilAllowStart, hinc] at he

/-- A loop that never starts the request leaves its buckets alone exactly when each of its attempts
finds them so. -/
theorem waitUntilAllowStart_eq_iff {e : LimitError} : ∀ (zs : List Sleep) (h : Shared) (r : Request),
    (waitUntilAllowStart env h r zs).2 = .refused e →
      ((waitUntilAllowStart env h r zs).1 = h.refill r (regained zs) ↔
        ∀ k ≤ zs.length, (h.refill r (regained (zs.take k))).Spares env r)
  | [], h, r, he => by
    have hreg : regained [] = 0 := rfl
    simp only [List.take_nil, hreg, refill_zero]
    exact (inc_rejected_eq_iff he).trans ⟨fun hs _ _ => hs, fun hs => hs 0 le_rfl⟩
  | z :: zs, h, r, he => by
    have hreg : ∀ ys, regained (z :: ys) = z.refill + regained ys := fun ys => by simp [regained]
    obtain ⟨h', e', heq⟩ := inc_of_wait_rejected he
    have hrej : (inc env h r).2 = .refused e' := by rw [heq]
    have hfirst : h' = h ↔ h.Spares env r := by
      have := inc_rejected_eq_iff hrej
      rwa [heq] at this
    have hstep : waitUntilAllowStart env h r (z :: zs) =
        waitUntilAllowStart env (h'.refill r z.refill) (r.rechoose env z.next) zs := by
      simp only [waitUntilAllowStart, heq]
    rw [hstep] at he ⊢
    have ih := waitUntilAllowStart_eq_iff zs _ _ he
    simp only [refill_rechoose, refill_refill, spares_rechoose] at ih
    constructor
    · intro hfin k hk
      have hh : h' = h := hfirst.2 <| spares_of_tokens_le fun side => by
        -- the rest of the loop adds nothing, so the first attempt took nothing
        have hle := waitUntilAllowStart_tokens_le env side zs (h'.refill r z.refill) (r.rechoose env z.next)
        rw [acct_rechoose, hfin, refill_tokens, refill_tokens, hreg, Pi.add_apply] at hle
        rw [heq]
        exact (by omega : h.tokens (r.acct side) ≤ h'.tokens (r.acct side))
      subst hh
      cases k with
      | zero => simpa only [List.take_zero, regained, List.map_nil, List.sum_nil, refill_zero] using hfirst.1 rfl
      | succ k =>
        rw [List.take_succ_cons, hreg]
        exact ih.1 (by rw [hfin, hreg]) k (Nat.le_of_succ_le_succ hk)
    · intro hs
      have h0 := hs 0 (Nat.zero_le _)
      simp only [List.take_zero, regained, List.map_nil, List.sum_nil, refill_zero] at h0
      have hh : h' = h := hfirst.2 h0
      subst hh
      rw [hreg]
      refine ih.2 fun k hk => ?_
      have := hs (k + 1) (Nat.succ_le_succ hk)
      rwa [List.take_succ_cons, hreg] at this

end Loop

/-- What a rejected request costs: for every request, whatever the state of its user and cluster user, when
`inc` rejects it (and every later attempt of the wait loop does, with any refill of the buckets between two
attempts), then `inc` leaves everything as it was, and the whole loop everything but what was refilled,
exactly when no attempt finds a packet-size bucket that is switched on and can pay for a non-empty
request. -/
theorem rejected_admission_spares_iff (env : Env) (h : Shared) (r : Request) (zs : List Sleep) (e : LimitError)
    (he : (waitUntilAllowStart env h r zs).2 = .refused e) :
    ((inc env h r).1 = h ↔ h.Spares env r) ∧
    ((waitUntilAllowStart env h r zs).1 = h.refill r (regained zs) ↔
      ∀ k ≤ zs.length, (h.refill r (regained (zs.take k))).Spares env r) := by
  obtain ⟨h', e', hinc⟩ := inc_of_wait_rejected he
  exact ⟨inc_rejected_eq_iff (e := e') (by rw [hinc]), waitUntilAllowStart_eq_iff zs h r he⟩

/-- A user with one query at a time and a bucket of 100 tokens, mapped to a cluster user without limits. -/
def oneWithTokens : Env where
  limits a :=
    match a.side with
    | .user => ⟨"analyst", 1, 0, 100, none⟩
    | .clusterUser => ⟨"web", 0, 0, 0, none⟩
  replicaName _ := "r"
  host _ := "a"
  validLabel _ := true

/-- One query of that user runs; its bucket holds `tokens`. -/
def oneRuns (tokens : Nat) : Shared :=
  { idle.shared with queryCounter := fun _ => 1, tokens := fun _ => tokens }

/-- A request of 60 bytes. -/
def sixtyBytes : Request := newScope oneWithTokens ⟨0, 0, "c", "", 60, 0, 0⟩

theorem rejected_admission_spares_empty_bucket :
    (waitUntilAllowStart oneWithTokens (oneRuns 40) sixtyBytes [⟨fun _ => 10, 1⟩]).2 =
      .refused (.requestPacketSizeTokensBurst .user "analyst" 100) ∧
    (inc oneWithTokens (oneRuns 40) sixtyBytes).1 = oneRuns 40 := by
  have hcost := rejected_admission_spares_iff oneWithTokens (oneRuns 40) sixtyBytes [⟨fun _ => 10, 1⟩]
    (.requestPacketSizeTokensBurst .user "analyst" 100) (by decide)
  refine ⟨by decide, hcost.1.2 fun side => ?_⟩
  cases side
  · exact .inr (.inr (by decide))
  · exact .inl rfl

/-- The request is turned away because another query of the user runs; its 60 tokens are gone, and the next
attempt is turned away for want of tokens. -/
theorem rejected_admission_takes_tokens :
    (inc oneWithTokens (oneRuns 100) sixtyBytes).2 = .refused (.maxConcurrentQueries .user "analyst" 1) ∧
    (oneRuns 100).tokens (sixtyBytes.acct .user) = 100 ∧
    (inc oneWithTokens (oneRuns 100) sixtyBytes).1.tokens (sixtyBytes.acct .user) = 40 ∧
    (waitUntilAllowStart oneWithTokens (oneRuns 100) sixtyBytes [⟨fun _ => 0, 0⟩]).2 =
      .refused (.requestPacketSizeTokensBurst .user "analyst" 100) := by
  decide

end Chproxy.Scope
