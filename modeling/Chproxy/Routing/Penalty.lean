/-
`Penalize` and the expirations it schedules (`internal/topology/node.go`), for any number of calls at once: a
call loads the penalty and tests it, then adds to it and schedules the function that takes the same amount
off again. Every call that is past the test when another adds may still add, so the maximum can be
exceeded, by one addition for each call under way.
-/
import Chproxy.Lib.Pool
import Chproxy.Routing.Live

namespace Chproxy.Routing.Penalty

open Pool

/-! ## Calls -/

/-- The options that `Penalize` reads. -/
structure NodeOpts where
  penaltySize : UInt32
  penaltyMaxSize : UInt32
  deriving DecidableEq, Repr

def defaultNodeOpts : NodeOpts := ⟨NodeState.defaultPenaltySize, NodeState.defaultMaxSize⟩

/-- A call of `Penalize` together with the function it schedules. -/
inductive Call
  | loading
  | adding
  | scheduled
  | expired
  | rejected
  deriving DecidableEq, Repr

/-- The call has not returned. -/
def Call.running : Call → Bool
  | .loading => true
  | .adding => true
  | .scheduled => false
  | .expired => false
  | .rejected => false

/-- The load and the test, the addition with `time.AfterFunc`, and the scheduled function, which runs at any
time after it. Nothing else changes the penalty of a node. -/
def penalize (opts : NodeOpts) : Program NodeState Call Unit Unit (Bool × UInt32) where
  spawn _ := .loading
  step n c _ :=
    match c with
    | .loading => some (n, if n.penalty ≥ opts.penaltyMaxSize then .rejected else .adding)
    | .adding => some ({ n with penalty := n.penalty + opts.penaltySize }, .scheduled)
    | .scheduled => some ({ n with penalty := n.penalty + ~~~(opts.penaltySize - 1) }, .expired)
    | .expired => none
    | .rejected => none
  env n e := some { n with active := e.1, connections := e.2 }

abbrev State := St NodeState Call

abbrev Action := Act Unit Unit (Bool × UInt32)

/-- A new node. -/
structure Initial (s : State) : Prop where
  penalty : s.shared.penalty = 0
  threads : s.threads = []

namespace State

/-- The calls that overlap. -/
def running (s : State) : Nat := s.threads.countP Call.running

/-- The calls past the test. -/
def pending (s : State) : Nat := s.threads.countP (· == .adding)

/-- The expirations that have still to run. -/
def outstanding (s : State) : Nat := s.threads.countP (· == .scheduled)

theorem pending_le_running (s : State) : s.pending ≤ s.running := by
  apply List.countP_mono_left
  rintro c - hc
  rw [beq_iff_eq] at hc
  subst hc
  rfl

end State

/-! ## What a step can do -/

/-- Adding `^uint32(b - 1)` is subtracting `b`. -/
theorem add_not_sub_one (a b : UInt32) : a + ~~~(b - 1) = a - b := by
  rw [UInt32.not_eq_neg_sub, UInt32.neg_sub]
  grind

variable {opts : NodeOpts} {n n' : NodeState} {c c' : Call}

theorem step_cases (h : (penalize opts).step n c () = some (n', c')) :
    (c = .loading ∧ c' = .rejected ∧ n' = n) ∨
    (c = .loading ∧ c' = .adding ∧ n' = n ∧ n.penalty < opts.penaltyMaxSize) ∨
    (c = .adding ∧ c' = .scheduled ∧ n'.penalty = n.penalty + opts.penaltySize) ∨
    (c = .scheduled ∧ c' = .expired ∧ n'.penalty = n.penalty - opts.penaltySize) := by
  cases c with
  | loading =>
    dsimp only [penalize] at h
    split at h
    · cases h
      exact .inl ⟨rfl, rfl, rfl⟩
    · rename_i hmax
      cases h
      exact .inr (.inl ⟨rfl, rfl, rfl, UInt32.not_le.1 hmax⟩)
  | adding =>
    cases h
    exact .inr (.inr (.inl ⟨rfl, rfl, rfl⟩))
  | scheduled =>
    cases h
    exact .inr (.inr (.inr ⟨rfl, rfl, add_not_sub_one ..⟩))
  | expired => cases h
  | rejected => cases h

/-! ## The invariant -/

/-- Each expiration still to run has its addition on the node, and each call past the test is charged as if it
had added already: at most `k` of them passed while the penalty was below the maximum. -/
structure Accounted (opts : NodeOpts) (k : Nat) (s : State) : Prop where
  penalty : s.shared.penalty.toNat = opts.penaltySize.toNat * s.outstanding
  bound : s.shared.penalty.toNat + opts.penaltySize.toNat * s.pending ≤
    opts.penaltyMaxSize.toNat + k * opts.penaltySize.toNat - 1

section Steps

variable {k : Nat} {s s' : State} {a : Action}

theorem initial_accounted (h : Initial s) : Accounted opts k s := by
  constructor
  · rw [h.penalty, State.outstanding, h.threads]
    rfl
  · rw [h.penalty, State.pending, h.threads]
    exact Nat.zero_le _

/-- The counts after the step of one call. -/
theorem counts_set {i : Nat} (hi : s.threads[i]? = some c) (n' : NodeState) (c' : Call) :
    State.pending ⟨n', s.threads.set i c'⟩ + (c == .adding).toNat = s.pending + (c' == .adding).toNat ∧
    State.outstanding ⟨n', s.threads.set i c'⟩ + (c == .scheduled).toNat =
      s.outstanding + (c' == .scheduled).toNat :=
  ⟨Program.countP_set _ c' hi, Program.countP_set _ c' hi⟩

/-- An expiration takes off what its call added, which is still there. -/
theorem Accounted.toNat_sub (h : Accounted opts k s) {i : Nat} (hi : s.threads[i]? = some .scheduled) :
    (s.shared.penalty - opts.penaltySize).toNat + opts.penaltySize.toNat = s.shared.penalty.toNat := by
  have hpos : 0 < s.outstanding := List.countP_pos_iff.2 ⟨_, List.mem_of_getElem? hi, rfl⟩
  have hle : opts.penaltySize.toNat ≤ s.shared.penalty.toNat := by
    rw [h.penalty]
    exact Nat.le_mul_of_pos_right _ hpos
  rw [UInt32.toNat_sub_of_le _ _ (UInt32.le_iff_toNat_le.2 hle), Nat.sub_add_cancel hle]

/-- A call past the test has room to add: its addition is part of the bound. -/
theorem Accounted.toNat_add (h : Accounted opts k s)
    (hfits : opts.penaltyMaxSize.toNat + k * opts.penaltySize.toNat < 2 ^ 32) {i : Nat}
    (hi : s.threads[i]? = some .adding) :
    (s.shared.penalty + opts.penaltySize).toNat = s.shared.penalty.toNat + opts.penaltySize.toNat := by
  have hpos : 0 < s.pending := List.countP_pos_iff.2 ⟨_, List.mem_of_getElem? hi, rfl⟩
  have hle : opts.penaltySize.toNat ≤ opts.penaltySize.toNat * s.pending := Nat.le_mul_of_pos_right _ hpos
  have hbound := h.bound
  rw [UInt32.toNat_add, Nat.mod_eq_of_lt]
  omega

theorem accounted_step (hfits : opts.penaltyMaxSize.toNat + k * opts.penaltySize.toNat < 2 ^ 32)
    (h : Accounted opts k s) {i : Nat} (hi : s.threads[i]? = some c)
    (hst : (penalize opts).step s.shared c () = some (n', c'))
    (hrun : State.running ⟨n', s.threads.set i c'⟩ ≤ k) : Accounted opts k ⟨n', s.threads.set i c'⟩ := by
  obtain ⟨hpending, houtstanding⟩ := counts_set hi n' c'
  have hbound := h.bound
  rcases step_cases hst with ⟨rfl, rfl, rfl⟩ | ⟨rfl, rfl, rfl, hlt⟩ | ⟨rfl, rfl, hpen⟩ | ⟨rfl, rfl, hpen⟩
  · replace hpending : State.pending ⟨s.shared, _⟩ = s.pending := hpending
    replace houtstanding : State.outstanding ⟨s.shared, _⟩ = s.outstanding := houtstanding
    exact ⟨by rw [houtstanding, h.penalty], by rw [hpending]; exact hbound⟩
  · replace houtstanding : State.outstanding ⟨s.shared, _⟩ = s.outstanding := houtstanding
    refine ⟨by rw [houtstanding, h.penalty], ?_⟩
    -- the test: the penalty is below the maximum and no more than `k` calls are past it
    have hle := Nat.mul_le_mul_left opts.penaltySize.toNat ((State.pending_le_running _).trans hrun)
    rw [Nat.mul_comm _ k] at hle
    have hmax := UInt32.lt_iff_toNat_lt.1 hlt
    dsimp only
    omega
  · replace hpending : State.pending ⟨n', _⟩ + 1 = s.pending := hpending
    replace houtstanding : State.outstanding ⟨n', _⟩ = s.outstanding + 1 := houtstanding
    have hadd := h.toNat_add hfits hi
    rw [← hpen] at hadd
    constructor
    · rw [houtstanding, Nat.mul_succ, ← h.penalty]
      exact hadd
    · rw [← hpending, Nat.mul_succ] at hbound
      dsimp only
      omega
  · replace hpending : State.pending ⟨n', _⟩ = s.pending := hpending
    replace houtstanding : State.outstanding ⟨n', _⟩ + 1 = s.outstanding := houtstanding
    have hsub := h.toNat_sub hi
    rw [← hpen] at hsub
    constructor
    · rw [h.penalty, ← houtstanding, Nat.mul_succ] at hsub
      exact Nat.add_right_cancel hsub
    · rw [hpending]
      dsimp only
      omega

theorem accounted_next (hfits : opts.penaltyMaxSize.toNat + k * opts.penaltySize.toNat < 2 ^ 32)
    (h : Accounted opts k s) (hn : (penalize opts).next s a = some s') (hrun : State.running s' ≤ k) :
    Accounted opts k s' := by
  obtain ⟨u, -, rfl⟩ | ⟨i, u, c, n', c', -, hi, hst, rfl⟩ | ⟨e, n', -, he, rfl⟩ := Program.next_cases hn
  · -- a new call has neither passed the test nor added
    constructor
    · simpa [State.outstanding, penalize] using h.penalty
    · simpa [State.pending, penalize] using h.bound
  · exact accounted_step hfits h hi hst hrun
  · cases he
    exact ⟨h.penalty, h.bound⟩

end Steps

/-- The runs in which no more than `k` calls overlap. -/
abbrev Reached (opts : NodeOpts) (k : Nat) : State → Prop :=
  Steps.ReachWhen (penalize opts).next Initial fun _ _ s' => State.running s' ≤ k

theorem accounted_reach {k : Nat} {s : State}
    (hfits : opts.penaltyMaxSize.toNat + k * opts.penaltySize.toNat < 2 ^ 32) (h : Reached opts k s) :
    Accounted opts k s :=
  h.invariant (fun _ => initial_accounted) fun _ _ _ hi hn hrun => accounted_next hfits hi hn hrun

/-- However the calls of at most `k` overlapping callers and the expirations interleave, the penalty is what the
expirations still to run will take off: none of them wraps it below zero, no addition wraps it above
`2^32`, it stays below the maximum and one addition for each caller, and it is zero when all have run. -/
theorem penalty_eq_outstanding (opts : NodeOpts) (k : Nat)
    (hfits : opts.penaltyMaxSize.toNat + k * opts.penaltySize.toNat < 2 ^ 32) {s : State} (h : Reached opts k s) :
    s.shared.penalty.toNat = opts.penaltySize.toNat * s.outstanding ∧
    s.shared.penalty.toNat ≤ opts.penaltyMaxSize.toNat + k * opts.penaltySize.toNat - 1 ∧
    (s.outstanding = 0 → s.shared.penalty = 0) ∧
    (∀ i s', s.threads[i]? = some .scheduled → (penalize opts).next s (.step i ()) = some s' →
      s'.shared.penalty.toNat + opts.penaltySize.toNat = s.shared.penalty.toNat) ∧
    (∀ i s', s.threads[i]? = some .adding → (penalize opts).next s (.step i ()) = some s' →
      s'.shared.penalty.toNat = s.shared.penalty.toNat + opts.penaltySize.toNat) := by
  have hacc := accounted_reach hfits h
  refine ⟨hacc.penalty, (Nat.le_add_right _ _).trans hacc.bound, ?_, ?_, ?_⟩
  · intro hzero
    apply UInt32.toNat_inj.1
    rw [hacc.penalty, hzero]
    rfl
  · intro i s' hi hn
    rw [Program.next_step hi rfl] at hn
    cases hn
    dsimp only
    -- the code adds the complement of one less, which subtracts
    rw [add_not_sub_one]
    exact hacc.toNat_sub hi
  · intro i s' hi hn
    rw [Program.next_step hi rfl] at hn
    cases hn
    exact hacc.toNat_add hfits hi

/-- Two callers pass a test against a maximum of 1 before either adds 5. -/
def overtaking : List Action := [.spawn (), .spawn (), .step 0 (), .step 1 (), .step 0 (), .step 1 ()]

def newNode : State := ⟨⟨true, 0, 0⟩, []⟩

theorem newNode_initial : Initial newNode := ⟨rfl, rfl⟩

def overtaken : State := (Steps.run (penalize ⟨5, 1⟩).next newNode overtaking).getD newNode

theorem penalty_eq_outstanding_overtaken :
    Reached ⟨5, 1⟩ 2 overtaken ∧ overtaken.outstanding = 2 ∧ overtaken.shared.penalty = 10 ∧
    overtaken.shared.penalty.toNat ≤ 1 + 2 * 5 - 1 := by
  have hr : Reached ⟨5, 1⟩ 2 overtaken :=
    .of_runWhen (fun _ _ _ h => of_decide_eq_true h) overtaking (.init newNode_initial) rfl
  exact ⟨hr, by decide, by decide, (penalty_eq_outstanding ⟨5, 1⟩ 2 (by decide) hr).2.1⟩

/-! ## Calls that do not overlap -/

/-- Alone and with the default options, a call is the `NodeState.penalize` of the cluster's model. -/
theorem run_alone_penalize (n : NodeState) :
    Steps.run (penalize defaultNodeOpts).alone (n, .loading) [()] = some (n.penalize, .rejected) ∨
    Steps.run (penalize defaultNodeOpts).alone (n, .loading) [(), ()] = some (n.penalize, .scheduled) := by
  by_cases hmax : n.penalty ≥ NodeState.defaultMaxSize
  · left
    simp [Steps.run, Program.alone, penalize, defaultNodeOpts, NodeState.penalize, hmax]
  · right
    simp [Steps.run, Program.alone, penalize, defaultNodeOpts, NodeState.penalize, hmax]

theorem step_unpenalize (n : NodeState) :
    (penalize defaultNodeOpts).step n .scheduled () = some (n.unpenalize, .expired) := by
  dsimp only [penalize]
  rw [add_not_sub_one]
  rfl

end Chproxy.Routing.Penalty
