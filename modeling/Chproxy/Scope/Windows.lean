/-
Requests per minute. `inc` counts a request in the rate limiters of both its sides and takes the counts
back when it rejects the request; every minute `rateLimiter.run` stores zero. A count taken back after a
zeroing drives the counter below zero, that is to values near `2^32`, which the `int32(x) > 0` test of the
check must make harmless.

What the counter stands for is noted beside the model, without changing its steps: the windows between two
zeroings are numbered, each request notes the window of its increment that still stands and the windows in
which it took back an increment of an earlier one, and `net` is the signed count of increments minus
decrements since the last zeroing. The counter is `net` modulo `2^32`, and `net` is the number of increments
of this window that stand minus the number of those taken back across the zeroing; so when the check lets a
request pass, the bound can be read off.
-/
import Chproxy.Scope.Limits

namespace Chproxy.Scope

open Function Pool

/-! ## The check on a signed count -/

theorem toNat_ofInt (x : Int) : ((UInt32.ofInt x).toNat : Int) = x % 2 ^ 32 := by
  show ((UInt32.ofNat (x % 2 ^ 32).toNat).toNat : Int) = x % 2 ^ 32
  rw [UInt32.toNat_ofNat']
  omega

theorem toInt_toInt32_ofInt {x : Int} (h0 : -2 ^ 31 ≤ x) (h1 : x < 2 ^ 31) : (UInt32.ofInt x).toInt32.toInt = x := by
  show (UInt32.ofInt x).toBitVec.toInt = x
  rw [BitVec.toInt_eq_toNat_bmod]
  show Int.bmod ((UInt32.ofInt x).toNat : Int) (2 ^ 32) = x
  rw [toNat_ofInt, show (2 ^ 32 : Int) = ((2 ^ 32 : Nat) : Int) from rfl, Int.emod_bmod]
  exact Int.bmod_eq_of_le (by omega) (by omega)

/-- On a counter that stands for a signed count of less than `2^31`, the check compares that count. -/
theorem checkRate_ofInt {l : Limits} {side : Side} {x : Int} (hR : 0 < l.reqPerMin) (h0 : -2 ^ 31 ≤ x)
    (h1 : x < 2 ^ 31) : l.checkRate side (UInt32.ofInt x) = none ↔ x ≤ l.reqPerMin.toInt := by
  have hRpos := Int32.lt_iff_toInt_lt.1 hR
  rw [Int32.toInt_zero] at hRpos
  have hRval : (l.reqPerMin.toUInt32.toNat : Int) = l.reqPerMin.toInt := by
    rw [Int32.toNat_toUInt32_of_le (by rw [Int32.le_iff_toInt_le, Int32.toInt_zero]; omega)]
    exact Int.toNat_of_nonneg (by omega)
  have hneg : ¬ l.reqPerMin < 0 := fun h => by
    rw [Int32.lt_iff_toInt_lt, Int32.toInt_zero] at h
    omega
  -- the code compares as `int32` first, so that a counter below zero passes
  have hsign : 0 < (UInt32.ofInt x).toInt32 ↔ 0 < x := by
    rw [Int32.lt_iff_toInt_lt, toInt_toInt32_ofInt h0 h1, Int32.toInt_zero]
  have hcmp : 0 < x → (l.reqPerMin.toUInt32 < UInt32.ofInt x ↔ l.reqPerMin.toInt < x) := fun hx => by
    have := toNat_ofInt x
    rw [UInt32.lt_iff_toNat_lt]
    omega
  unfold Limits.checkRate
  by_cases hx : 0 < x
  · simp [hR, hneg, hsign, hcmp hx, hx]
  · simp [hR, hneg, hsign, hx]
    omega

theorem inc_ofInt (x : Int) : Counter.inc (UInt32.ofInt x) = UInt32.ofInt (x + 1) := by
  rw [UInt32.ofInt_add]
  rfl

theorem dec_ofInt (x : Int) : Counter.dec (UInt32.ofInt x) = UInt32.ofInt (x - 1) := by
  rw [Int.sub_eq_add_neg, UInt32.ofInt_add]
  rfl

/-! ## The requests with their windows -/

/-- A request, the window of its increment of each rate limiter that still stands, and the windows in
which it took back an increment of an earlier window. -/
structure Metered where
  request : Request
  drew : Side → Option Nat := fun _ => none
  crossed : Side → List Nat := fun _ => []

/-- The shared data, the number of zeroings of each rate limiter so far, and its increments minus its
decrements since the last one. -/
structure MeteredShared where
  base : Shared
  window : Acct → Nat
  net : Acct → Int

def Metered.record (t : Metered) (window : Acct → Nat) (r' : Request) : Metered :=
  match t.request.pc with
  | .rate side => { t with request := r', drew := update t.drew side (some (window (t.request.acct side))) }
  | .undoRate side =>
    let w := window (t.request.acct side)
    { request := r'
      drew := update t.drew side none
      crossed := if t.drew side = some w then t.crossed else update t.crossed side (w :: t.crossed side) }
  | _ => { t with request := r' }

def MeteredShared.record (h : MeteredShared) (r : Request) (base : Shared) : MeteredShared :=
  match r.pc with
  | .rate side => { h with base := base, net := update h.net (r.acct side) (h.net (r.acct side) + 1) }
  | .undoRate side => { h with base := base, net := update h.net (r.acct side) (h.net (r.acct side) - 1) }
  | _ => { h with base := base }

/-- The steps of `admission`, with the notes. -/
def metered (env : Env) : Pool.Program MeteredShared Metered Arrival Choice Event where
  spawn a := { request := newScope env a }
  step h t c := (advance env h.base t.request c).map fun res => (h.record t.request res.1, t.record h.window res.2)
  env h e := (outside h.base e).map fun base =>
    match e with
    | .zero a => { base := base, window := update h.window a (h.window a + 1), net := update h.net a 0 }
    | _ => { h with base := base }

abbrev MeteredState := Pool.St MeteredShared Metered

/-- No request yet and nothing counted. -/
structure MeteredInitial (s : MeteredState) : Prop where
  threads : s.threads = []
  rateLimiter : ∀ a, s.shared.base.rateLimiter a = 0
  net : ∀ a, s.shared.net a = 0

/-- `inc` has returned nil. -/
def Request.accepted (r : Request) : Bool :=
  match r.pc with
  | .incReturned | .queueSizeDec | .leave _ | .returned | .attempt | .deactivate | .pickHost | .retryDec | .retryInc
  | .retryHost | .dec _ | .decHost | .gaugeDec | .done => r.ok
  | _ => false

namespace Metered

/-- The window of the increment of the rate limiter of `a` that stands for the request. -/
def drewFrom (t : Metered) (a : Acct) : Option Nat :=
  if t.request.ptr a.side = a.ptr then t.drew a.side else none

/-- The windows of `a` in which the request took back an increment of an earlier one. -/
def crossedOf (t : Metered) (a : Acct) : List Nat :=
  if t.request.ptr a.side = a.ptr then t.crossed a.side else []

end Metered

namespace MeteredState

variable (s : MeteredState) (a : Acct) (w : Nat)

/-- The requests whose increment of the rate limiter of `a` falls into window `w` and that are admitted. -/
def admittedIn : Nat := s.threads.countP fun t => decide (t.drewFrom a = some w) && t.request.accepted

/-- The requests that incremented before window `w` and decremented in it. -/
def crossings : Nat := s.threads.countP fun t => decide (w ∈ t.crossedOf a)

/-- The increments of window `w` that stand. -/
def held : Nat := s.threads.countP fun t => decide (t.drewFrom a = some w)

/-- The increments of window `w` that stand for requests without an error so far. -/
def standing : Nat := s.threads.countP fun t => decide (t.drewFrom a = some w) && (t.request.err == none)

/-- The requests the rate limiter of `a` counts in the current window, up or down. -/
def inPlay : Nat :=
  s.threads.countP fun t =>
    decide (t.drewFrom a = some (s.shared.window a)) || decide (s.shared.window a ∈ t.crossedOf a)

/-- The state without the notes. -/
def erase : State := ⟨s.shared.base, s.threads.map Metered.request⟩

end MeteredState

/-! ## The notes change nothing -/

@[simp] theorem Metered.record_request (t : Metered) (window : Acct → Nat) (r' : Request) :
    (t.record window r').request = r' := by
  unfold Metered.record
  split <;> rfl

@[simp] theorem MeteredShared.record_base (h : MeteredShared) (r : Request) (base : Shared) :
    (h.record r base).base = base := by
  unfold MeteredShared.record
  split <;> rfl

@[simp] theorem MeteredShared.record_window (h : MeteredShared) (r : Request) (base : Shared) :
    (h.record r base).window = h.window := by
  unfold MeteredShared.record
  split <;> rfl

section Step

variable {env : Env} {h h' : MeteredShared} {t t' : Metered} {c : Choice}

theorem metered_step (hs : (metered env).step h t c = some (h', t')) : ∃ base r',
    advance env h.base t.request c = some (base, r') ∧ h' = h.record t.request base ∧ t' = t.record h.window r' := by
  obtain ⟨⟨base, r'⟩, hadv, heq⟩ := Option.map_eq_some_iff.1 hs
  cases heq
  exact ⟨base, r', hadv, rfl, rfl⟩

/-- The steps are those of `admission`. -/
theorem metered_next (env : Env) (s : MeteredState) (a : Action) :
    ((metered env).next s a).map MeteredState.erase = (admission env).next s.erase a := by
  cases a with
  | spawn i => simp [Program.next, MeteredState.erase, metered, admission]
  | step n c =>
    cases ht : s.threads[n]? with
    | none => simp [Program.next, MeteredState.erase, ht]
    | some t =>
      cases hst : advance env s.shared.base t.request c with
      | none => simp [Program.next, MeteredState.erase, metered, admission, ht, hst]
      | some res => simp [Program.next, MeteredState.erase, metered, admission, ht, hst, List.map_set]
  | env e =>
    cases he : outside s.shared.base e with
    | none => simp [Program.next, MeteredState.erase, metered, admission, he]
    | some base => cases e <;> simp [Program.next, MeteredState.erase, metered, admission, he]

theorem metered_run (env : Env) : ∀ (acts : List Action) (s : MeteredState),
    (Steps.run (metered env).next s acts).map MeteredState.erase = Steps.run (admission env).next s.erase acts
  | [], s => rfl
  | a :: acts, s => by
    rw [Steps.run, Steps.run, ← metered_next]
    cases (metered env).next s a with
    | none => rfl
    | some s' => exact metered_run env acts s'

/-! ## One step on a rate limiter -/

/-- Where the notes of a request stand: between the increment of a rate limiter and its decrement, or for
good once the request is admitted, there is a window noted. -/
def Metered.Marked (t : Metered) : Prop :=
  match t.request.pc with
  | .incQueued | .enqueue _ | .queueSizeInc | .inc _ | .rate .user | .rechoose =>
    t.drew .user = none ∧ t.drew .clusterUser = none
  | .rate .clusterUser => t.drew .user ≠ none ∧ t.drew .clusterUser = none
  | .packetSize _ | .undo _ | .undoRate .user | .connect | .gaugeInc =>
    t.drew .user ≠ none ∧ t.drew .clusterUser ≠ none
  | .undoRate .clusterUser => t.drew .user = none ∧ t.drew .clusterUser ≠ none
  | .incReturned | .queueSizeDec | .leave _ | .returned =>
    t.request.err ≠ none → t.drew .user = none ∧ t.drew .clusterUser = none
  | _ => True

theorem record_marked {window : Acct → Nat} {base : Shared} {r' : Request} (hw : t.request.WF env) (hm : t.Marked)
    (hs : advance env h.base t.request c = some (base, r')) : (t.record window r').Marked := by
  obtain ⟨r, drew, crossed⟩ := t
  cases advance_moves hs <;> simp_all [Metered.Marked, Metered.record, Request.WF]

theorem advance_rate {h h' : Shared} {r r' : Request} {side : Side} (hpc : r.pc = .rate side)
    (hs : advance env h r c = some (h', r')) : h' = h.incRate (r.acct side) ∧
      r'.err = override ((env.limits (r.acct side)).checkRate side (h.rateLimiter (r.acct side)).inc) r.err := by
  cases side <;> simp only [advance, hpc] at hs <;> cases hs <;> exact ⟨rfl, rfl⟩

theorem advance_undoRate {h h' : Shared} {r r' : Request} {side : Side} (hpc : r.pc = .undoRate side)
    (hs : advance env h r c = some (h', r')) : h' = h.decRate (r.acct side) ∧ r'.err = r.err := by
  cases side <;> simp only [advance, hpc] at hs <;> cases hs <;> exact ⟨rfl, rfl⟩

/-- Every other step leaves the rate limiters alone, and drops an error only where `inc` starts anew. -/
theorem advance_rateLimiter {h h' : Shared} {r r' : Request} (hrate : ∀ side, r.pc ≠ .rate side)
    (hundo : ∀ side, r.pc ≠ .undoRate side) (hs : advance env h r c = some (h', r')) :
    h'.rateLimiter = h.rateLimiter ∧ (r'.err = none → r.err = none ∨ r.pc = .inc .clusterUser) := by
  cases advance_moves hs with
  | rateUser | rateClusterUser => exact absurd rfl (hrate _)
  | undoRateUser | undoRateClusterUser => exact absurd rfl (hundo _)
  | incClusterUser => exact ⟨rfl, fun _ => .inr rfl⟩
  | packetSizeUser => exact ⟨rfl, fun herr => .inl (override_eq_none.1 herr).2⟩
  | failed => exact ⟨rfl, fun herr => by cases herr⟩
  | passed r n e _ hnone => exact ⟨rfl, fun _ => .inl (override_eq_none.1 hnone).2⟩
  | _ => exact ⟨rfl, .inl⟩

/-- Everything a step of a request can do to the rate limiter of `a`. -/
inductive MeterStep (env : Env) (a : Acct) (h h' : MeteredShared) (t t' : Metered) : Prop
  | draw : h'.net a = h.net a + 1 → h'.base.rateLimiter a = (h.base.rateLimiter a).inc →
      t.drewFrom a = none → t'.drewFrom a = some (h.window a) → t'.crossedOf a = t.crossedOf a →
      (t'.request.err = none → (env.limits a).checkRate a.side (h.base.rateLimiter a).inc = none) →
      MeterStep env a h h' t t'
  | back (w : Nat) : h'.net a = h.net a - 1 → h'.base.rateLimiter a = (h.base.rateLimiter a).dec →
      t.request.err ≠ none → t.drewFrom a = some w → t'.drewFrom a = none →
      t'.crossedOf a = (if w = h.window a then t.crossedOf a else h.window a :: t.crossedOf a) →
      MeterStep env a h h' t t'
  | keep : h'.net a = h.net a → h'.base.rateLimiter a = h.base.rateLimiter a → t'.drewFrom a = t.drewFrom a →
      t'.crossedOf a = t.crossedOf a → (t'.request.err = none → t.drewFrom a ≠ none → t.request.err = none) →
      MeterStep env a h h' t t'

theorem side_ne_of_acct_ne {r : Request} {side : Side} {a : Acct} (hne : r.acct side ≠ a) (hp : r.ptr a.side = a.ptr) :
    a.side ≠ side := by
  rintro rfl
  exact hne (by rw [Request.acct, hp])

/-- What is noted for another account stays. -/
theorem drewFrom_update {side : Side} {a : Acct} {r' : Request} {v : Option Nat} {crossed : Side → List Nat}
    (hptr : r'.ptr = t.request.ptr) (hne : t.request.acct side ≠ a) :
    Metered.drewFrom ⟨r', update t.drew side v, crossed⟩ a = t.drewFrom a := by
  unfold Metered.drewFrom
  rw [hptr]
  split
  · exact update_of_ne (side_ne_of_acct_ne hne ‹_›) ..
  · rfl

theorem meterStep_rate {side : Side} {base : Shared} {r' : Request} (hpc : t.request.pc = .rate side) (hm : t.Marked)
    (hadv : advance env h.base t.request c = some (base, r')) (hptr : r'.ptr = t.request.ptr) (a : Acct) :
    MeterStep env a h (h.record t.request base) t (t.record h.window r') := by
  obtain ⟨rfl, herr⟩ := advance_rate hpc hadv
  -- this side has not drawn yet
  have hnone : t.drew side = none := by
    unfold Metered.Marked at hm
    cases side <;> simp only [hpc] at hm
    · exact hm.1
    · exact hm.2
  have hh : h.record t.request (h.base.incRate (t.request.acct side)) =
      { h with
        base := h.base.incRate (t.request.acct side)
        net := update h.net (t.request.acct side) (h.net (t.request.acct side) + 1) } := by
    simp only [MeteredShared.record, hpc]
  have ht : t.record h.window r' =
      { t with request := r', drew := update t.drew side (some (h.window (t.request.acct side))) } := by
    simp only [Metered.record, hpc]
  rw [hh, ht]
  by_cases ha : t.request.acct side = a
  · subst ha
    refine .draw (update_self ..) (update_self ..) ?_ ?_ ?_ fun he => (override_eq_none.1 (herr.symm.trans he)).1
    · simp [Metered.drewFrom, Request.acct, hnone]
    · simp [Metered.drewFrom, Request.acct, hptr]
    · simp [Metered.crossedOf, Request.acct, hptr]
  · refine .keep (update_of_ne (Ne.symm ha) ..) (update_of_ne (Ne.symm ha) ..) ?_ ?_ fun he _ => ?_
    · exact drewFrom_update hptr ha
    · simp only [Metered.crossedOf, hptr]
    · exact (override_eq_none.1 (herr.symm.trans he)).2

theorem meterStep_undoRate {side : Side} {base : Shared} {r' : Request} (hpc : t.request.pc = .undoRate side)
    (hw : t.request.WF env) (hm : t.Marked) (hadv : advance env h.base t.request c = some (base, r'))
    (hptr : r'.ptr = t.request.ptr) (a : Acct) :
    MeterStep env a h (h.record t.request base) t (t.record h.window r') := by
  obtain ⟨rfl, herr⟩ := advance_undoRate hpc hadv
  have hfail : t.request.err ≠ none := by
    simp only [Request.WF, hpc] at hw
    exact hw.1
  obtain ⟨w, hsome⟩ : ∃ w, t.drew side = some w := by
    refine Option.ne_none_iff_exists'.1 ?_
    unfold Metered.Marked at hm
    cases side <;> simp only [hpc] at hm
    · exact hm.1
    · exact hm.2
  -- what is noted of the step
  have hh : h.record t.request (h.base.decRate (t.request.acct side)) =
      { h with
        base := h.base.decRate (t.request.acct side)
        net := update h.net (t.request.acct side) (h.net (t.request.acct side) - 1) } := by
    simp only [MeteredShared.record, hpc]
  have ht : t.record h.window r' =
      { request := r'
        drew := update t.drew side none
        crossed :=
          if w = h.window (t.request.acct side) then t.crossed
          else update t.crossed side (h.window (t.request.acct side) :: t.crossed side) } := by
    simp only [Metered.record, hpc, hsome, Option.some.injEq]
  rw [hh, ht]
  by_cases ha : t.request.acct side = a
  · subst ha
    refine .back w (update_self ..) (update_self ..) hfail ?_ ?_ ?_
    · simp [Metered.drewFrom, Request.acct, hsome]
    · simp [Metered.drewFrom, Request.acct, hptr]
    · -- a query of an earlier window is taken back from this one
      by_cases hnow : w = h.window (t.request.acct side)
      · rw [if_pos hnow, if_pos hnow]
        simp only [Metered.crossedOf, hptr]
      · rw [if_neg hnow, if_neg hnow]
        simp [Metered.crossedOf, Request.acct, hptr]
  · refine .keep (update_of_ne (Ne.symm ha) ..) (update_of_ne (Ne.symm ha) ..) ?_ ?_ fun he _ => ?_
    · exact drewFrom_update hptr ha
    · unfold Metered.crossedOf
      rw [hptr]
      split
      · split
        · rfl
        · exact update_of_ne (side_ne_of_acct_ne ha ‹_›) ..
      · rfl
    · exact absurd (herr.symm.trans he) hfail

theorem meterStep_of_step (hw : t.request.WF env) (hm : t.Marked) (hs : (metered env).step h t c = some (h', t'))
    (a : Acct) : MeterStep env a h h' t t' := by
  obtain ⟨base, r', hadv, rfl, rfl⟩ := metered_step hs
  have hptr := advance_ptr hadv
  by_cases hrate : ∃ side, t.request.pc = .rate side
  · obtain ⟨side, hpc⟩ := hrate
    exact meterStep_rate hpc hm hadv hptr a
  · by_cases hundo : ∃ side, t.request.pc = .undoRate side
    · obtain ⟨side, hpc⟩ := hundo
      exact meterStep_undoRate hpc hw hm hadv hptr a
    · rw [not_exists] at hrate hundo
      -- any other step leaves the limiter, and nothing is noted of it
      obtain ⟨hrl, herr⟩ := advance_rateLimiter hrate hundo hadv
      have hh : h.record t.request base = { h with base := base } := by
        unfold MeteredShared.record
        split
        · exact absurd ‹_› (hrate _)
        · exact absurd ‹_› (hundo _)
        · rfl
      have ht : t.record h.window r' = { t with request := r' } := by
        unfold Metered.record
        split
        · exact absurd ‹_› (hrate _)
        · exact absurd ‹_› (hundo _)
        · rfl
      rw [hh, ht]
      refine .keep rfl (congrFun hrl a) ?_ ?_ fun he hdrew => ?_
      · simp only [Metered.drewFrom, hptr]
      · simp only [Metered.crossedOf, hptr]
      · rcases herr he with herr | hpc
        · exact herr
        · -- before its increments nothing is noted
          refine absurd ?_ hdrew
          have hnone : t.drew .user = none ∧ t.drew .clusterUser = none := by
            simpa only [Metered.Marked, hpc] using hm
          unfold Metered.drewFrom
          cases a.side <;> simp [hnone.1, hnone.2]

end Step

/-! ## Whole runs -/

/-- The windows a request has noted for `a` are in order and none lies ahead. -/
structure Metered.Dated (a : Acct) (window : Nat) (t : Metered) : Prop where
  drew : ∀ w, t.drewFrom a = some w → w ≤ window ∧ ∀ v ∈ t.crossedOf a, v ≤ w
  crossed : ∀ w ∈ t.crossedOf a, w ≤ window

theorem Metered.Dated.mono {a : Acct} {w w' : Nat} {t : Metered} (hd : t.Dated a w) (hw : w ≤ w') : t.Dated a w' :=
  ⟨fun v hv => ⟨le_trans (hd.drew v hv).1 hw, (hd.drew v hv).2⟩, fun v hv => le_trans (hd.crossed v hv) hw⟩

theorem MeterStep.dated {env : Env} {a : Acct} {h h' : MeteredShared} {t t' : Metered}
    (hs : MeterStep env a h h' t t') (hd : t.Dated a (h.window a)) : t'.Dated a (h.window a) := by
  cases hs with
  | draw _ _ _ hdrew hcrossed _ =>
    refine ⟨fun w hw => ?_, fun w hw => hd.crossed w (hcrossed ▸ hw)⟩
    obtain rfl : h.window a = w := Option.some.inj (hdrew.symm.trans hw)
    exact ⟨le_rfl, fun v hv => hd.crossed v (hcrossed ▸ hv)⟩
  | back w₀ _ _ _ hdrew hdrew' hcrossed =>
    refine ⟨fun w hw => (by cases hdrew'.symm.trans hw), fun w hw => ?_⟩
    rw [hcrossed] at hw
    split at hw
    · exact hd.crossed w hw
    · rcases List.mem_cons.1 hw with rfl | hw
      · exact le_rfl
      · exact hd.crossed w hw
  | keep _ _ hdrew hcrossed _ =>
    exact ⟨fun w hw => hcrossed ▸ hd.drew w (hdrew ▸ hw), fun w hw => hd.crossed w (hcrossed ▸ hw)⟩

/-- The limit of `a` as a number. -/
def Env.perMinute (env : Env) (a : Acct) : Nat := (env.limits a).reqPerMin.toInt.toNat

/-- The invariant of the rate limiter of `a`. -/
structure Metering (env : Env) (a : Acct) (s : MeteredState) : Prop where
  wf : ∀ t ∈ s.threads, t.request.WF env
  marked : ∀ t ∈ s.threads, t.Marked
  dated : ∀ t ∈ s.threads, t.Dated a (s.shared.window a)
  rateLimiter : s.shared.base.rateLimiter a = UInt32.ofInt (s.shared.net a)
  net : s.shared.net a = s.held a (s.shared.window a) - s.crossings a (s.shared.window a)
  standing : ∀ w, s.standing a w ≤ env.perMinute a + s.crossings a w

section Run

variable {env : Env} {a : Acct} {s s' : MeteredState}

theorem net_bounds (hnet : s.shared.net a = s.held a (s.shared.window a) - s.crossings a (s.shared.window a)) :
    -(s.inPlay a : Int) ≤ s.shared.net a ∧ s.shared.net a ≤ s.inPlay a := by
  have hheld : s.held a (s.shared.window a) ≤ s.inPlay a :=
    List.countP_mono_left fun t _ ht => by rw [ht, Bool.true_or]
  have hcrossed : s.crossings a (s.shared.window a) ≤ s.inPlay a :=
    List.countP_mono_left fun t _ ht => by rw [ht, Bool.or_true]
  omega

/-- One request moves: what it does to the rate limiter of `a` shows in the counts. -/
theorem meterStep_net {h' : MeteredShared} {t t' : Metered} {n : Nat} (hr : s.threads[n]? = some t)
    (hwin : h'.window = s.shared.window) (hs : MeterStep env a s.shared h' t t') (hd : t.Dated a (s.shared.window a))
    (hi : s.shared.net a = s.held a (s.shared.window a) - s.crossings a (s.shared.window a)) :
    h'.net a = MeteredState.held ⟨h', s.threads.set n t'⟩ a (h'.window a) -
      MeteredState.crossings ⟨h', s.threads.set n t'⟩ a (h'.window a) := by
  have hheld := Program.countP_set (fun t : Metered => decide (t.drewFrom a = some (s.shared.window a))) t' hr
  have hcross := Program.countP_set (fun t : Metered => decide (s.shared.window a ∈ t.crossedOf a)) t' hr
  rw [hwin]
  unfold MeteredState.held MeteredState.crossings at hi ⊢
  cases hs with
  | draw hnet _ hdrew hdrew' hcrossed _ =>
    simp only [hdrew, hdrew', reduceCtorEq, decide_false, decide_true, Bool.toNat_false, Bool.toNat_true] at hheld
    rw [hcrossed] at hcross
    simp only
    omega
  | back w hnet _ _ hdrew hdrew' hcrossed =>
    by_cases hw : w = s.shared.window a
    · simp only [hdrew, hdrew', hw, reduceCtorEq, decide_false, decide_true, Bool.toNat_false, Bool.toNat_true] at hheld
      rw [hcrossed, if_pos hw] at hcross
      simp only
      omega
    · -- an increment of an earlier window: the request has not decremented in this one before
      have hnew : s.shared.window a ∉ t.crossedOf a := fun hmem =>
        hw (le_antisymm (hd.drew w hdrew).1 ((hd.drew w hdrew).2 _ hmem))
      rw [hcrossed, if_neg hw] at hcross
      simp only [hnew, List.mem_cons, true_or, decide_false, decide_true, Bool.toNat_false, Bool.toNat_true] at hcross
      simp only [hdrew, hdrew', Option.some.injEq, hw, reduceCtorEq, decide_false, Bool.toNat_false] at hheld
      simp only
      omega
  | keep hnet _ hdrew hcrossed _ =>
    rw [hdrew] at hheld
    rw [hcrossed] at hcross
    simp only
    omega

theorem MeterStep.rateLimiter {h h' : MeteredShared} {t t' : Metered} (hs : MeterStep env a h h' t t')
    (hi : h.base.rateLimiter a = UInt32.ofInt (h.net a)) : h'.base.rateLimiter a = UInt32.ofInt (h'.net a) := by
  cases hs with
  | draw hnet hrl => rw [hrl, hi, hnet, inc_ofInt]
  | back w hnet hrl => rw [hrl, hi, hnet, dec_ofInt]
  | keep hnet hrl => rw [hrl, hi, hnet]

/-- A decrement that crossed a zeroing is never forgotten. -/
theorem MeterStep.crossedOf_subset {h h' : MeteredShared} {t t' : Metered} (hs : MeterStep env a h h' t t') :
    t.crossedOf a ⊆ t'.crossedOf a := by
  cases hs with
  | draw _ _ _ _ hcrossed => rw [hcrossed]; exact List.Subset.refl _
  | back w _ _ _ _ _ hcrossed =>
    rw [hcrossed]
    split
    · exact List.Subset.refl _
    · exact List.subset_cons_self _ _
  | keep _ _ _ hcrossed => rw [hcrossed]; exact List.Subset.refl _

theorem countP_set_le {l : List Metered} {n : Nat} {t t' : Metered} {p : Metered → Bool} (hr : l[n]? = some t)
    (hp : p t' = true → p t = true) : (l.set n t').countP p ≤ l.countP p := by
  have hset := Program.countP_set p t' hr
  have hle : (p t').toNat ≤ (p t).toNat := by
    cases h : p t' with
    | false => exact Nat.zero_le _
    | true => rw [hp h]
  omega

theorem crossings_le_set {h' : MeteredShared} {t t' : Metered} {n w : Nat} (hr : s.threads[n]? = some t)
    (hs : MeterStep env a s.shared h' t t') :
    s.crossings a w ≤ MeteredState.crossings ⟨h', s.threads.set n t'⟩ a w := by
  have hset := Program.countP_set (fun t : Metered => decide (w ∈ t.crossedOf a)) t' hr
  have hle : (decide (w ∈ t.crossedOf a)).toNat ≤ (decide (w ∈ t'.crossedOf a)).toNat := by
    by_cases hw : w ∈ t.crossedOf a
    · rw [decide_eq_true hw, decide_eq_true (hs.crossedOf_subset hw)]
    · rw [decide_eq_false hw]
      exact Nat.zero_le _
  unfold MeteredState.crossings
  simp only
  omega

/-- The bound on what stands in window `w` survives a step. Only a request that passes the check joins,
and the check compares the signed count. -/
theorem meterStep_standing {h' : MeteredShared} {t t' : Metered} {n : Nat} (hR : 0 < (env.limits a).reqPerMin)
    (hr : s.threads[n]? = some t) (hs : MeterStep env a s.shared h' t t') (hwin : h'.window = s.shared.window)
    (hrl : s.shared.base.rateLimiter a = UInt32.ofInt (s.shared.net a))
    (hnet : h'.net a = MeteredState.held ⟨h', s.threads.set n t'⟩ a (h'.window a) -
      MeteredState.crossings ⟨h', s.threads.set n t'⟩ a (h'.window a))
    (hplay : MeteredState.inPlay ⟨h', s.threads.set n t'⟩ a < 2 ^ 31) (w : Nat)
    (hi : s.standing a w ≤ env.perMinute a + s.crossings a w) :
    MeteredState.standing ⟨h', s.threads.set n t'⟩ a w ≤
      env.perMinute a + MeteredState.crossings ⟨h', s.threads.set n t'⟩ a w := by
  have hcross := crossings_le_set (w := w) hr hs
  -- unless the request joins those that stand, their number does not grow
  have hkeep : ((decide (t'.drewFrom a = some w) && (t'.request.err == none)) = true →
      (decide (t.drewFrom a = some w) && (t.request.err == none)) = true) →
      MeteredState.standing ⟨h', s.threads.set n t'⟩ a w ≤
        env.perMinute a + MeteredState.crossings ⟨h', s.threads.set n t'⟩ a w := fun hp =>
    le_trans (le_trans (countP_set_le hr hp) hi) (Nat.add_le_add_left hcross _)
  cases hs with
  | draw hnet' hrl' hdrew hdrew' _ hcheck =>
    by_cases hjoin : t'.request.err = none ∧ w = h'.window a
    · obtain ⟨herr, rfl⟩ := hjoin
      have hbounds : -(MeteredState.inPlay ⟨h', s.threads.set n t'⟩ a : Int) ≤ h'.net a ∧
          h'.net a ≤ MeteredState.inPlay ⟨h', s.threads.set n t'⟩ a := net_bounds hnet
      have hpass := hcheck herr
      rw [hrl, inc_ofInt, ← hnet'] at hpass
      have hle := (checkRate_ofInt hR (by omega) (by omega)).1 hpass
      have hstand : MeteredState.standing ⟨h', s.threads.set n t'⟩ a (h'.window a) ≤
          MeteredState.held ⟨h', s.threads.set n t'⟩ a (h'.window a) :=
        List.countP_mono_left fun t _ ht => (Bool.and_eq_true _ _ ▸ ht).1
      unfold Env.perMinute
      omega
    · refine hkeep fun hp => ?_
      simp only [hdrew', Bool.and_eq_true, decide_eq_true_eq, Option.some.injEq, beq_iff_eq] at hp
      exact absurd ⟨hp.2, by rw [hwin, hp.1]⟩ hjoin
  | back w₀ _ _ _ _ hdrew' _ => exact hkeep fun hp => by simp [hdrew'] at hp
  | keep _ _ hdrew _ herr =>
    refine hkeep fun hp => ?_
    simp only [Bool.and_eq_true, decide_eq_true_eq, beq_iff_eq, hdrew] at hp ⊢
    exact ⟨hp.1, herr hp.2 (by simp [hp.1])⟩

/-- Nothing is noted of the windows ahead. -/
theorem ahead_eq_zero (hd : ∀ t ∈ s.threads, t.Dated a (s.shared.window a)) {w : Nat} (hw : s.shared.window a < w) :
    s.held a w = 0 ∧ s.crossings a w = 0 := by
  refine ⟨List.countP_eq_zero.2 fun t ht hdrew => ?_, List.countP_eq_zero.2 fun t ht hmem => ?_⟩
  · have := ((hd t ht).drew w (of_decide_eq_true hdrew)).1
    omega
  · have := (hd t ht).crossed w (of_decide_eq_true hmem)
    omega

theorem metering_spawn (hi : Metering env a s) (i : Arrival) :
    Metering env a ⟨s.shared, s.threads ++ [(metered env).spawn i]⟩ := by
  have hdrew : ((metered env).spawn i).drewFrom a = none := by
    unfold Metered.drewFrom
    split <;> rfl
  have hcrossed : ((metered env).spawn i).crossedOf a = [] := by
    unfold Metered.crossedOf
    split <;> rfl
  refine ⟨forall_mem_concat hi.wf (newScope_wf env i), forall_mem_concat hi.marked ⟨rfl, rfl⟩,
    forall_mem_concat hi.dated ⟨fun w hw => ?_, fun w hw => ?_⟩, hi.rateLimiter, ?_, fun w => ?_⟩
  · cases hdrew.symm.trans hw
  · rw [hcrossed] at hw
    cases hw
  · have := hi.net
    simpa [MeteredState.held, MeteredState.crossings, hdrew, hcrossed] using this
  · have := hi.standing w
    simpa [MeteredState.standing, MeteredState.crossings, hdrew, hcrossed] using this

theorem metering_step {n : Nat} {c : Choice} {t t' : Metered} {h' : MeteredShared} (hR : 0 < (env.limits a).reqPerMin)
    (hi : Metering env a s) (hr : s.threads[n]? = some t) (hst : (metered env).step s.shared t c = some (h', t'))
    (hplay : MeteredState.inPlay ⟨h', s.threads.set n t'⟩ a < 2 ^ 31) :
    Metering env a ⟨h', s.threads.set n t'⟩ := by
  have hmem := List.mem_of_getElem? hr
  have hstep := meterStep_of_step (hi.wf t hmem) (hi.marked t hmem) hst a
  obtain ⟨base, r', hadv, rfl, rfl⟩ := metered_step hst
  have hwin := MeteredShared.record_window s.shared t.request base
  have hnet := meterStep_net hr hwin hstep (hi.dated t hmem) hi.net
  have hwf : (t.record s.shared.window r').request.WF env := by
    rw [Metered.record_request]
    exact advance_wf (hi.wf t hmem) hadv
  have hmarked : (t.record s.shared.window r').Marked := record_marked (hi.wf t hmem) (hi.marked t hmem) hadv
  refine ⟨forall_mem_set hi.wf hwf, forall_mem_set hi.marked hmarked, ?_, hstep.rateLimiter hi.rateLimiter, hnet,
    fun w => meterStep_standing hR hr hstep hwin hi.rateLimiter hnet hplay w (hi.standing w)⟩
  simp only [hwin]
  exact forall_mem_set hi.dated (hstep.dated (hi.dated t hmem))

/-- A zeroing of the rate limiter opens a window in which nothing has happened yet. -/
theorem metering_zero {h' : MeteredShared} (hi : Metering env a s) (hrl : h'.base.rateLimiter a = 0)
    (hnet : h'.net a = 0) (hwin : h'.window a = s.shared.window a + 1) : Metering env a ⟨h', s.threads⟩ := by
  obtain ⟨hheld, hcrossings⟩ := ahead_eq_zero hi.dated (Nat.lt_succ_self _)
  refine ⟨hi.wf, hi.marked, fun t ht => ?_, ?_, ?_, hi.standing⟩
  · simp only [hwin]
    exact (hi.dated t ht).mono (Nat.le_succ _)
  · simp only [hrl, hnet]
    rfl
  · simp only [hnet, hwin]
    show (0 : Int) = (s.held a _ : Nat) - (s.crossings a _ : Nat)
    rw [hheld, hcrossings]
    rfl

theorem metering_keep {h' : MeteredShared} (hi : Metering env a s)
    (hrl : h'.base.rateLimiter a = s.shared.base.rateLimiter a) (hnet : h'.net a = s.shared.net a)
    (hwin : h'.window a = s.shared.window a) : Metering env a ⟨h', s.threads⟩ := by
  refine ⟨hi.wf, hi.marked, ?_, ?_, ?_, hi.standing⟩
  · simp only [hwin]
    exact hi.dated
  · simp only [hrl, hnet]
    exact hi.rateLimiter
  · simp only [hnet, hwin]
    exact hi.net

theorem metering_next {act : Action} (hR : 0 < (env.limits a).reqPerMin) (hi : Metering env a s)
    (hn : (metered env).next s act = some s') (hplay : s'.inPlay a < 2 ^ 31) : Metering env a s' := by
  obtain ⟨i, -, rfl⟩ | ⟨n, c, t, h', t', -, hr, hst, rfl⟩ | ⟨e, h', -, he, rfl⟩ := Program.next_cases hn
  · exact metering_spawn hi i
  · exact metering_step hR hi hr hst hplay
  · cases e with
    | zero b =>
      cases he
      by_cases hb : a = b
      · subst hb
        exact metering_zero hi (update_self ..) (update_self ..) (update_self ..)
      · exact metering_keep hi (update_of_ne hb ..) (update_of_ne hb ..) (update_of_ne hb ..)
    | refill b n =>
      cases he
      exact metering_keep hi rfl rfl rfl
    | heartbeat n up =>
      cases he
      exact metering_keep hi rfl rfl rfl

theorem initial_metering (h : MeteredInitial s) : Metering env a s := by
  refine ⟨by simp [h.threads], by simp [h.threads], by simp [h.threads], ?_, ?_, fun w => ?_⟩
  · rw [h.rateLimiter, h.net]
    rfl
  · simp [h.net, MeteredState.held, MeteredState.crossings, h.threads]
  · simp [MeteredState.standing, h.threads]

theorem admittedIn_le_standing (s : MeteredState) (a : Acct) (w : Nat) : s.admittedIn a w ≤ s.standing a w := by
  refine List.countP_mono_left fun t _ ht => ?_
  rw [Bool.and_eq_true] at ht ⊢
  refine ⟨ht.1, ?_⟩
  have hacc := ht.2
  unfold Request.accepted at hacc
  split at hacc
  all_goals first | exact beq_iff_eq.2 (Request.ok_eq.1 hacc).1 | cases hacc

/-- The check of a request that increments compares the signed count, its own increment included. -/
theorem checkRate_iff_net {n : Nat} {c : Choice} {t : Metered} (hR : 0 < (env.limits a).reqPerMin)
    (hi : Metering env a s) (hr : s.threads[n]? = some t) (hpc : t.request.pc = .rate a.side)
    (hacct : t.request.acct a.side = a) (hn : (metered env).next s (.step n c) = some s')
    (hplay : s'.inPlay a < 2 ^ 31) :
    (env.limits a).checkRate a.side (s.shared.base.rateLimiter a).inc = none ↔
      s'.shared.net a ≤ (env.limits a).reqPerMin.toInt := by
  have hi' := metering_next hR hi hn hplay
  have hnet : s'.shared.net a = s.shared.net a + 1 := by
    obtain ⟨i, hact, -⟩ | ⟨m, c', t₁, h', t', hact, hr', hst, rfl⟩ | ⟨e, h', hact, -⟩ := Program.next_cases hn
    · cases hact
    · cases hact
      cases hr.symm.trans hr'
      obtain ⟨base, r', -, rfl, -⟩ := metered_step hst
      simp only [MeteredShared.record, hpc, hacct, update_self]
    · cases hact
  obtain ⟨hlo, hhi⟩ := net_bounds hi'.net
  rw [hi.rateLimiter, inc_ofInt, ← hnet]
  exact checkRate_ofInt hR (by omega) (by omega)

end Run

/-- Requests per minute: in every run of any number of requests, zeroings and other events, with fewer than
`2^31` requests counted by the rate limiter of `a` at once, and `R = requests_per_minute > 0`: of the requests
whose increment falls between two consecutive zeroings at most `R + K` are admitted, where `K` is the number of
requests that incremented before and decremented between the two; and the check rejects a request
exactly when the increments minus the decrements since the last zeroing, its own increment included, exceed
`R`, also when the counter has wrapped below zero. -/
theorem rate_limited_per_window (env : Env) (a : Acct) (hR : 0 < (env.limits a).reqPerMin) {s : MeteredState}
    (hs : Steps.ReachWhen (metered env).next MeteredInitial (fun _ _ s' => MeteredState.inPlay s' a < 2 ^ 31) s) :
    (∀ w, s.admittedIn a w ≤ (env.limits a).reqPerMin.toInt.toNat + s.crossings a w) ∧
    ∀ n c t (s' : MeteredState), s.threads[n]? = some t → t.request.pc = .rate a.side → t.request.acct a.side = a →
      (metered env).next s (.step n c) = some s' → s'.inPlay a < 2 ^ 31 →
      ((env.limits a).checkRate a.side (s.shared.base.rateLimiter a).inc = none ↔
        s'.shared.net a ≤ (env.limits a).reqPerMin.toInt) := by
  have hi : Metering env a s :=
    hs.invariant (fun _ => initial_metering) fun _ _ _ hi hn hplay => metering_next hR hi hn hplay
  exact ⟨fun w => le_trans (admittedIn_le_standing s a w) (hi.standing w),
    fun n c t s' hr hpc hacct hn hplay => checkRate_iff_net hR hi hr hpc hacct hn hplay⟩

/-- A user with one request per minute. -/
def onePerMinute : Env where
  limits a :=
    match a.side with
    | .user => ⟨"analyst", 0, 1, 0, none⟩
    | .clusterUser => ⟨"web", 0, 0, 0, none⟩
  replicaName _ := "r"
  host _ := "a"
  validLabel _ := true

def unmetered : MeteredState := ⟨⟨idle.shared, fun _ => 0, fun _ => 0⟩, []⟩

theorem unmetered_initial : MeteredInitial unmetered := ⟨rfl, fun _ => rfl, fun _ => rfl⟩

def oneRequest : Action := .spawn ⟨0, 0, "c", "", 0, 0, 0⟩

/-- The first request is admitted; the second is rejected and decrements after the zeroing, which takes the
counter to `2^32 - 1`; so the next window has room for two. -/
def crossingRun : List Action :=
  oneRequest :: List.replicate 9 (.step 0 {}) ++ oneRequest :: List.replicate 9 (.step 1 {}) ++
    .env (.zero ⟨.user, 0⟩) :: List.replicate 2 (.step 1 {}) ++ oneRequest :: List.replicate 9 (.step 2 {}) ++
    oneRequest :: List.replicate 9 (.step 3 {})

/-- The steps of that run, each with fewer than `2^31` requests in play. -/
def crossing : Option MeteredState :=
  Steps.runWhen (metered onePerMinute).next (fun _ _ s' => decide (MeteredState.inPlay s' ⟨.user, 0⟩ < 2 ^ 31))
    unmetered crossingRun

theorem rate_limited_per_window_crossing : ∃ s : MeteredState,
    Steps.ReachWhen (metered onePerMinute).next MeteredInitial
      (fun _ _ s' => MeteredState.inPlay s' ⟨.user, 0⟩ < 2 ^ 31) s ∧
    s.admittedIn ⟨.user, 0⟩ 1 = 2 ∧ s.crossings ⟨.user, 0⟩ 1 = 1 ∧
    s.admittedIn ⟨.user, 0⟩ 1 ≤ 1 + s.crossings ⟨.user, 0⟩ 1 := by
  have hcounts : crossing.map (fun s => (s.admittedIn ⟨.user, 0⟩ 1, s.crossings ⟨.user, 0⟩ 1)) = some (2, 1) := by
    decide +kernel
  obtain ⟨s, hrun, heq⟩ := Option.map_eq_some_iff.1 hcounts
  obtain ⟨hadmitted, hcrossings⟩ := Prod.mk.inj heq
  have hr : Steps.ReachWhen (metered onePerMinute).next MeteredInitial
      (fun _ _ s' => MeteredState.inPlay s' ⟨.user, 0⟩ < 2 ^ 31) s :=
    .of_runWhen (fun _ _ s' h => of_decide_eq_true h) crossingRun (.init unmetered_initial) hrun
  exact ⟨s, hr, hadmitted, hcrossings, (rate_limited_per_window onePerMinute ⟨.user, 0⟩ (by decide) hr).1 1⟩

end Chproxy.Scope
