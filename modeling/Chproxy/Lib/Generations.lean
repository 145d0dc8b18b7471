/-
A supervisor and its generations of workers. A generation is stopped by closing the channel its workers
watch, waited for through a wait group, and followed by the next one, which watches a new channel.

Every worker reads the variable that holds the channel when it first runs, not when it is created, and
its timer may win against the closed channel any number of times. Still no worker of an earlier
generation is left when the next one starts, and a worker only ever watches the channel of its own.
-/
import Chproxy.Lib.Pool
import Chproxy.Lib.Steps
import Mathlib.Algebra.BigOperators.Group.List.Basic
import Mathlib.Algebra.GroupWithZero.Nat

namespace Generations

/-! ## Workers and their supervisor -/

/-- Where a worker stands: created; in the body of its loop or waiting for a channel or its timer, the
channel being the one it read when it began; returned from its loop; signed off at the group. -/
inductive Phase
  | created
  | working (sig : Nat)
  | waiting (sig : Nat)
  | returned
  | finished
  deriving DecidableEq, Repr

/-- A worker, with the number of the channel that was current when it was created. -/
structure Worker (κ : Type) where
  home : Nat
  job : κ
  phase : Phase

/-- Where the supervisor stands: between two restarts; waiting for the group, with the jobs of the next
generation; past the wait; starting the jobs that are left. -/
inductive Stage (κ : Type)
  | idle
  | draining (jobs : List κ)
  | drained (jobs : List κ)
  | starting (jobs : List κ)

/-- The current channel, which channels were closed, the counter of the group, every worker ever created,
the jobs of the current generation, and whether the program has panicked. -/
structure St (κ : Type) where
  signal : Nat
  closed : List Nat
  group : Nat
  workers : List (Worker κ)
  roster : List κ
  stage : Stage κ
  crashed : Bool

/-- The moves of a worker. -/
inductive Move
  | begin
  | work
  | tick
  | stop
  | done
  deriving DecidableEq, Repr

inductive Act (κ : Type)
  | close (jobs : List κ)
  | pass
  | move (i : Nat) (m : Move)

variable {κ : Type}

def St.init : St κ := ⟨0, [], 0, [], [], .idle, false⟩

def St.put (s : St κ) (i : Nat) (w : Worker κ) (p : Phase) : St κ :=
  { s with workers := s.workers.set i { w with phase := p } }

/-- One move of worker `i`; `eager` says which jobs begin with their work and which with waiting. -/
def St.move (eager : κ → Bool) (s : St κ) (i : Nat) (m : Move) : Option (St κ) := do
  let w ← s.workers[i]?
  match m, w.phase with
  | .begin, .created => some (s.put i w (if eager w.job then .working s.signal else .waiting s.signal))
  | .work, .working sig => some (s.put i w (.waiting sig))
  | .tick, .waiting sig => some (s.put i w (.working sig))
  | .stop, .waiting sig => if sig ∈ s.closed then some (s.put i w .returned) else none
  | .done, .returned =>
    -- the counter of a wait group must not become negative
    if s.group = 0 then some { s with crashed := true }
    else some { s.put i w .finished with group := s.group - 1 }
  | _, _ => none

/-- The supervisor closes the channel of the running generation. -/
def St.close (s : St κ) (jobs : List κ) : Option (St κ) :=
  match s.stage with
  | .idle =>
    -- a channel must not be closed twice
    if s.signal ∈ s.closed then some { s with crashed := true }
    else some { s with closed := s.signal :: s.closed, stage := .draining jobs }
  | _ => none

/-- The rest of a restart: the wait, the new channel, and the workers one by one. -/
def St.pass (s : St κ) : Option (St κ) :=
  match s.stage with
  | .idle => none
  | .draining jobs => if s.group = 0 then some { s with stage := .drained jobs } else none
  | .drained jobs => some { s with signal := s.signal + 1, roster := jobs, stage := .starting jobs }
  | .starting [] => some { s with stage := .idle }
  | .starting (job :: jobs) =>
    some { s with
      group := s.group + 1
      workers := s.workers ++ [⟨s.signal, job, .created⟩]
      stage := .starting jobs }

/-- A step of the whole; after a panic there is none. -/
def next (eager : κ → Bool) (s : St κ) (a : Act κ) : Option (St κ) :=
  if s.crashed then none
  else
    match a with
    | .close jobs => s.close jobs
    | .pass => s.pass
    | .move i m => s.move eager i m

/-! ## The order of generations -/

def Phase.unfinished : Phase → Bool
  | .finished => false
  | _ => true

@[simp] theorem Phase.unfinished_iff {p : Phase} : p.unfinished = true ↔ p ≠ .finished := by
  cases p <;> simp [unfinished]

/-- The channel a worker in its loop watches. -/
def Phase.watches : Phase → Option Nat
  | .working sig => some sig
  | .waiting sig => some sig
  | _ => none

/-- The worker has left its loop. -/
def Phase.left : Phase → Bool
  | .returned => true
  | .finished => true
  | _ => false

/-- The channel of the current generation is closed. -/
def Stage.stopped : Stage κ → Bool
  | .draining _ => true
  | .drained _ => true
  | _ => false

/-- The jobs of the current generation that have no worker yet. -/
def Stage.todo : Stage κ → List κ
  | .starting jobs => jobs
  | _ => []

/-- How a worker stands to the current generation: it belongs to an earlier one and is finished, or it
belongs to this one, watches no other channel than its own, and has left its loop only if that is closed. -/
inductive Worker.Settled (signal : Nat) (stopped : Bool) (w : Worker κ) : Prop
  | past : w.home < signal → w.phase = .finished → Settled signal stopped w
  | current : w.home = signal → (∀ sig, w.phase.watches = some sig → sig = signal) →
      (w.phase.left = true → stopped = true) → Settled signal stopped w

/-- The jobs of the workers of the current generation, in the order of their creation. -/
def St.started (s : St κ) : List κ := s.workers.filterMap fun w => if w.home = s.signal then some w.job else none

/-- The invariant of every run. -/
structure St.Ordered (s : St κ) : Prop where
  running : s.crashed = false
  group : s.group = s.workers.countP (·.phase.unfinished)
  closed : ∀ c, c ∈ s.closed ↔ c < s.signal ∨ c = s.signal ∧ s.stage.stopped = true
  settled : ∀ w ∈ s.workers, w.Settled s.signal s.stage.stopped
  drained : ∀ jobs, s.stage = .drained jobs → s.group = 0
  roster : s.started ++ s.stage.todo = s.roster

theorem St.ordered_init : (St.init : St κ).Ordered where
  running := rfl
  group := rfl
  closed := by simp [init, Stage.stopped]
  settled := by simp [init]
  drained := by simp [init]
  roster := rfl

/-! ## What a step can do -/

variable {eager : κ → Bool} {s s' : St κ}

/-- A worker's move: it changes its phase and nothing else, or it signs off, or the program panics. -/
theorem St.move_cases {i : Nat} {m : Move} (h : s.move eager i m = some s') :
    ∃ w, s.workers[i]? = some w ∧
      ((m = .begin ∧ w.phase = .created ∧
          s' = s.put i w (if eager w.job then .working s.signal else .waiting s.signal)) ∨
        (m = .work ∧ ∃ sig, w.phase = .working sig ∧ s' = s.put i w (.waiting sig)) ∨
        (m = .tick ∧ ∃ sig, w.phase = .waiting sig ∧ s' = s.put i w (.working sig)) ∨
        (m = .stop ∧ ∃ sig, w.phase = .waiting sig ∧ sig ∈ s.closed ∧ s' = s.put i w .returned) ∨
        (m = .done ∧ w.phase = .returned ∧ s.group = 0 ∧ s' = { s with crashed := true }) ∨
        (m = .done ∧ w.phase = .returned ∧ s.group ≠ 0 ∧
          s' = { s.put i w .finished with group := s.group - 1 })) := by
  simp only [move, Option.bind_eq_bind, Option.bind_eq_some_iff] at h
  obtain ⟨w, hw, h⟩ := h
  refine ⟨w, hw, ?_⟩
  split at h
  · rename_i hp
    exact .inl ⟨rfl, hp, (Option.some.inj h).symm⟩
  · rename_i sig hp
    exact .inr (.inl ⟨rfl, sig, hp, (Option.some.inj h).symm⟩)
  · rename_i sig hp
    exact .inr (.inr (.inl ⟨rfl, sig, hp, (Option.some.inj h).symm⟩))
  · rename_i sig hp
    split at h
    · rename_i hc
      exact .inr (.inr (.inr (.inl ⟨rfl, sig, hp, hc, (Option.some.inj h).symm⟩)))
    · cases h
  · rename_i hp
    split at h
    · rename_i hg
      exact .inr (.inr (.inr (.inr (.inl ⟨rfl, hp, hg, (Option.some.inj h).symm⟩))))
    · rename_i hg
      exact .inr (.inr (.inr (.inr (.inr ⟨rfl, hp, hg, (Option.some.inj h).symm⟩))))
  · cases h

theorem St.close_cases {jobs : List κ} (h : s.close jobs = some s') :
    s.stage = .idle ∧
      ((s.signal ∈ s.closed ∧ s' = { s with crashed := true }) ∨
        (s.signal ∉ s.closed ∧ s' = { s with closed := s.signal :: s.closed, stage := .draining jobs })) := by
  unfold close at h
  split at h
  · rename_i hidle
    refine ⟨hidle, ?_⟩
    split at h
    · rename_i hc
      exact .inl ⟨hc, (Option.some.inj h).symm⟩
    · rename_i hc
      exact .inr ⟨hc, (Option.some.inj h).symm⟩
  · cases h

theorem St.pass_cases (h : s.pass = some s') :
    (∃ jobs, s.stage = .draining jobs ∧ s.group = 0 ∧ s' = { s with stage := .drained jobs }) ∨
    (∃ jobs, s.stage = .drained jobs ∧
      s' = { s with signal := s.signal + 1, roster := jobs, stage := .starting jobs }) ∨
    (s.stage = .starting [] ∧ s' = { s with stage := .idle }) ∨
    (∃ job jobs, s.stage = .starting (job :: jobs) ∧
      s' = { s with
        group := s.group + 1
        workers := s.workers ++ [⟨s.signal, job, .created⟩]
        stage := .starting jobs }) := by
  unfold pass at h
  split at h
  · cases h
  · rename_i jobs hst
    split at h
    · rename_i hg
      exact .inl ⟨jobs, hst, hg, (Option.some.inj h).symm⟩
    · cases h
  · rename_i jobs hst
    exact .inr (.inl ⟨jobs, hst, (Option.some.inj h).symm⟩)
  · rename_i hst
    exact .inr (.inr (.inl ⟨hst, (Option.some.inj h).symm⟩))
  · rename_i job jobs hst
    exact .inr (.inr (.inr ⟨job, jobs, hst, (Option.some.inj h).symm⟩))

/-! ## Every step keeps the order -/

theorem Worker.Settled.stop {signal : Nat} {stopped : Bool} {w : Worker κ} (h : w.Settled signal stopped) :
    w.Settled signal true := by
  cases h with
  | past hlt hf => exact .past hlt hf
  | current heq hwatch hleft => exact .current heq hwatch fun _ => rfl

theorem St.Ordered.closeStep {jobs : List κ} (hs : s.Ordered) (h : s.close jobs = some s') : s'.Ordered := by
  obtain ⟨hidle, ⟨hc, rfl⟩ | ⟨hc, rfl⟩⟩ := St.close_cases h
  · -- between two restarts the current channel is open
    have := (hs.closed s.signal).1 hc
    simp [hidle, Stage.stopped] at this
  · refine ⟨hs.running, hs.group, fun c => ?_, fun w hw => (hs.settled w hw).stop, by simp, ?_⟩
    · rw [List.mem_cons, hs.closed c, hidle]
      simp only [Stage.stopped, Bool.false_eq_true, and_false, or_false, and_true]
      exact or_comm
    · have := hs.roster
      rw [hidle] at this
      exact this

theorem St.Ordered.all_finished (hs : s.Ordered) (hg : s.group = 0) : ∀ w ∈ s.workers, w.phase = .finished := by
  intro w hw
  have hzero := hs.group.symm.trans hg
  have := List.countP_eq_zero.1 hzero w hw
  simpa using this

theorem St.Ordered.passStep (hs : s.Ordered) (h : s.pass = some s') : s'.Ordered := by
  obtain ⟨jobs, hst, hg, rfl⟩ | ⟨jobs, hst, rfl⟩ | ⟨hst, rfl⟩ | ⟨job, jobs, hst, rfl⟩ := St.pass_cases h
  · obtain ⟨hrun, hgroup, hclosed, hsettled, hdrained, hroster⟩ := hs
    rw [hst] at hclosed hsettled hroster
    exact ⟨hrun, hgroup, hclosed, hsettled, fun _ _ => hg, hroster⟩
  · -- the group is empty: every worker there is belongs to the past of the new channel
    have hall := hs.all_finished (hs.drained jobs hst)
    have hpast : ∀ w ∈ s.workers, w.home < s.signal + 1 := fun w hw => by
      cases hs.settled w hw with
      | past hlt _ => omega
      | current heq _ _ => omega
    refine ⟨hs.running, hs.group, fun c => ?_, fun w hw => .past (hpast w hw) (hall w hw), by simp, ?_⟩
    · rw [hs.closed c, hst]
      simp only [Stage.stopped, and_true, Bool.false_eq_true, and_false, or_false]
      omega
    · have hnone : ({ s with signal := s.signal + 1, roster := jobs, stage := .starting jobs } : St κ).started = [] :=
        List.filterMap_eq_nil_iff.2 fun w hw => if_neg (Nat.ne_of_lt (hpast w hw))
      rw [hnone]
      rfl
  · obtain ⟨hrun, hgroup, hclosed, hsettled, hdrained, hroster⟩ := hs
    rw [hst] at hclosed hsettled hroster
    exact ⟨hrun, hgroup, hclosed, hsettled, by simp, hroster⟩
  · obtain ⟨hrun, hgroup, hclosed, hsettled, hdrained, hroster⟩ := hs
    rw [hst] at hclosed hsettled hroster
    refine ⟨hrun, ?_, hclosed, ?_, by simp, ?_⟩
    · simp [hgroup]
    · exact Pool.forall_mem_concat hsettled (.current rfl (by simp [Phase.watches]) (by simp [Phase.left]))
    · simpa [started, Stage.todo] using hroster

theorem St.started_put {i : Nat} {w : Worker κ} (hw : s.workers[i]? = some w) (p : Phase) :
    (s.put i w p).started = s.started := by
  have hmap := Pool.map_set_of_eq (fun w : Worker κ => if w.home = s.signal then some w.job else none)
    (b := { w with phase := p }) hw rfl
  have hid := congrArg (List.filterMap id) hmap
  rw [List.filterMap_map, List.filterMap_map] at hid
  exact hid

/-- A worker of the current generation that changes its phase, and the group with it, keeps the order. -/
theorem St.Ordered.put {i : Nat} {w : Worker κ} {p : Phase} {g : Nat} (hs : s.Ordered)
    (hw : s.workers[i]? = some w) (hunfinished : w.phase ≠ .finished)
    (hg : g + 1 = s.group + p.unfinished.toNat)
    (hwatch : ∀ sig, p.watches = some sig → sig = s.signal) (hleft : p.left = true → s.stage.stopped = true) :
    ({ s.put i w p with group := g } : St κ).Ordered := by
  -- a worker of an earlier generation has finished, so that this one is current
  have hhome : w.home = s.signal := by
    cases hs.settled w (List.mem_of_getElem? hw) with
    | past _ hf => exact absurd hf hunfinished
    | current heq _ _ => exact heq
  have hcount := Pool.Program.countP_set (·.phase.unfinished) { w with phase := p } hw
  rw [Phase.unfinished_iff.2 hunfinished, ← hs.group] at hcount
  have hgroup : g = (s.put i w p).workers.countP (·.phase.unfinished) := by
    simp only [St.put, Bool.toNat_true] at hcount ⊢
    omega
  refine ⟨hs.running, hgroup, hs.closed, Pool.forall_mem_set hs.settled (.current hhome hwatch hleft), ?_, ?_⟩
  · intro jobs hst
    have := hs.drained jobs hst
    have := hs.all_finished this w (List.mem_of_getElem? hw)
    exact absurd this hunfinished
  · exact (congrArg (· ++ s.stage.todo) (St.started_put hw p)).trans hs.roster

theorem St.Ordered.watched {i : Nat} {w : Worker κ} {sig : Nat} (hs : s.Ordered) (hw : s.workers[i]? = some w)
    (hsig : w.phase.watches = some sig) : sig = s.signal := by
  cases hs.settled w (List.mem_of_getElem? hw) with
  | past _ hf => rw [hf] at hsig; cases hsig
  | current _ hwatch _ => exact hwatch sig hsig

theorem St.Ordered.group_pos {i : Nat} {w : Worker κ} (hs : s.Ordered) (hw : s.workers[i]? = some w)
    (hunfinished : w.phase ≠ .finished) : s.group ≠ 0 :=
  fun hg => hunfinished (hs.all_finished hg w (List.mem_of_getElem? hw))

theorem St.Ordered.moveStep {i : Nat} {m : Move} (hs : s.Ordered) (h : s.move eager i m = some s') : s'.Ordered := by
  obtain ⟨w, hw, ⟨-, hp, rfl⟩ | ⟨-, sig, hp, rfl⟩ | ⟨-, sig, hp, rfl⟩ | ⟨-, sig, hp, hc, rfl⟩ | ⟨-, hp, hg, rfl⟩ |
    ⟨-, hp, hg, rfl⟩⟩ := St.move_cases h
  · have hne : w.phase ≠ .finished := by rw [hp]; simp
    split
    · exact hs.put hw hne rfl (by simp [Phase.watches]) (by simp [Phase.left])
    · exact hs.put hw hne rfl (by simp [Phase.watches]) (by simp [Phase.left])
  · have hsig := hs.watched hw (show w.phase.watches = some sig by rw [hp]; rfl)
    exact hs.put hw (by rw [hp]; simp) rfl (by simp [Phase.watches, hsig]) (by simp [Phase.left])
  · have hsig := hs.watched hw (show w.phase.watches = some sig by rw [hp]; rfl)
    exact hs.put hw (by rw [hp]; simp) rfl (by simp [Phase.watches, hsig]) (by simp [Phase.left])
  · -- the worker returned because its channel, the current one, is closed
    have hsig := hs.watched hw (show w.phase.watches = some sig by rw [hp]; rfl)
    subst hsig
    have hstopped : s.stage.stopped = true := by simpa using (hs.closed s.signal).1 hc
    exact hs.put hw (by rw [hp]; simp) rfl (by simp [Phase.watches]) fun _ => hstopped
  · exact absurd hg (hs.group_pos hw (by rw [hp]; simp))
  · have hstopped : s.stage.stopped = true := by
      cases hs.settled w (List.mem_of_getElem? hw) with
      | past _ hf => rw [hp] at hf; cases hf
      | current _ _ hleft => exact hleft (by rw [hp]; rfl)
    exact hs.put hw (by rw [hp]; simp) (Nat.sub_one_add_one hg) (by simp [Phase.watches]) fun _ => hstopped

theorem St.Ordered.step {a : Act κ} (hs : s.Ordered) (h : next eager s a = some s') : s'.Ordered := by
  unfold next at h
  rw [if_neg (by simp [hs.running])] at h
  cases a with
  | close jobs => exact hs.closeStep h
  | pass => exact hs.passStep h
  | move i m => exact hs.moveStep h

/-! ## Who runs between two restarts -/

/-- The jobs of the workers that have not signed off. -/
def St.alive (s : St κ) : List κ := s.workers.filterMap fun w => if w.phase.unfinished then some w.job else none

/-- While the channel of the current generation is open, the workers that run are those started for it. -/
theorem St.Ordered.alive_eq_started (hs : s.Ordered) (hopen : s.stage.stopped = false) : s.alive = s.started := by
  refine List.filterMap_congr fun w hw => ?_
  cases hs.settled w hw with
  | past hlt hf => rw [if_neg (Nat.ne_of_lt hlt), hf]; rfl
  | current heq _ hleft =>
    have hunfinished : w.phase ≠ .finished := fun hf => by
      rw [hopen, hf] at hleft
      cases hleft rfl
    rw [if_pos heq, if_pos (Phase.unfinished_iff.2 hunfinished)]

theorem St.Ordered.alive_eq_roster (hs : s.Ordered) (hidle : s.stage = .idle) : s.alive = s.roster := by
  rw [hs.alive_eq_started (by rw [hidle]; rfl), ← hs.roster, hidle]
  exact (List.append_nil _).symm

/-! ## A stopped generation can always come to its end -/

/-- How many moves a worker is away from signing off when its timer does not fire. -/
def Phase.rank : Phase → Nat
  | .created => 4
  | .working _ => 3
  | .waiting _ => 2
  | .returned => 1
  | .finished => 0

def St.rank (s : St κ) : Nat := (s.workers.map (·.phase.rank)).sum

theorem sum_map_set_lt {α : Type} (f : α → Nat) :
    ∀ {l : List α} {i : Nat} {a b : α}, l[i]? = some a → f b < f a → ((l.set i b).map f).sum < (l.map f).sum
  | [], i, a, b, ha, hlt => by simp at ha
  | x :: l, 0, a, b, ha, hlt => by
    simp only [List.getElem?_cons_zero, Option.some.injEq] at ha
    subst ha
    simpa using hlt
  | x :: l, i + 1, a, b, ha, hlt => by
    have ih := sum_map_set_lt f (l := l) (i := i) (by simpa using ha) hlt
    simpa using ih

theorem St.rank_put {i : Nat} {w : Worker κ} {p : Phase} (hw : s.workers[i]? = some w)
    (hlt : p.rank < w.phase.rank) : (s.put i w p).rank < s.rank :=
  sum_map_set_lt (fun w : Worker κ => w.phase.rank) hw hlt

/-- Every move but that of a timer brings the workers nearer to their end. -/
theorem St.Ordered.rank_lt {i : Nat} {m : Move} (hs : s.Ordered) (h : s.move eager i m = some s') (hm : m ≠ .tick) :
    s'.rank < s.rank := by
  obtain ⟨w, hw, ⟨-, hp, rfl⟩ | ⟨-, sig, hp, rfl⟩ | ⟨rfl, -⟩ | ⟨-, sig, hp, hc, rfl⟩ | ⟨-, hp, hg, rfl⟩ |
    ⟨-, hp, hg, rfl⟩⟩ := St.move_cases h
  · refine St.rank_put hw ?_
    rw [hp]
    split <;> simp [Phase.rank]
  · exact St.rank_put hw (by rw [hp]; simp [Phase.rank])
  · exact absurd rfl hm
  · exact St.rank_put hw (by rw [hp]; simp [Phase.rank])
  · exact absurd hg (hs.group_pos hw (by rw [hp]; simp))
  · exact St.rank_put hw (by rw [hp]; simp [Phase.rank])

variable (eager) in
/-- The supervisor never waits for a worker that cannot move. -/
theorem St.Ordered.can_move (hs : s.Ordered) (hst : s.stage.stopped = true) (hg : s.group ≠ 0) :
    ∃ i m, m ≠ .tick ∧ (s.move eager i m).isSome = true := by
  rw [hs.group, ← Nat.pos_iff_ne_zero, List.countP_pos_iff] at hg
  obtain ⟨w, hmem, hunfinished⟩ := hg
  obtain ⟨i, hi⟩ := List.mem_iff_getElem?.1 hmem
  cases hp : w.phase with
  | created => exact ⟨i, .begin, by simp, by simp [move, hi, hp]⟩
  | working sig => exact ⟨i, .work, by simp, by simp [move, hi, hp]⟩
  | waiting sig =>
    have hsig := hs.watched hi (show w.phase.watches = some sig by rw [hp]; rfl)
    have hc : sig ∈ s.closed := (hs.closed sig).2 (.inr ⟨hsig, hst⟩)
    exact ⟨i, .stop, by simp, by simp [move, hi, hp, hc]⟩
  | returned =>
    have hg := hs.group_pos hi (by rw [hp]; simp)
    exact ⟨i, .done, by simp, by simp [move, hi, hp, hg]⟩
  | finished => simp [hp] at hunfinished

/-- No move of a worker changes where the supervisor stands, or which jobs are to be done. -/
theorem St.move_frame {i : Nat} {m : Move} (h : s.move eager i m = some s') :
    s'.stage = s.stage ∧ s'.roster = s.roster := by
  obtain ⟨w, -, ⟨-, -, rfl⟩ | ⟨-, -, -, rfl⟩ | ⟨-, -, -, rfl⟩ | ⟨-, -, -, -, rfl⟩ | ⟨-, -, -, rfl⟩ | ⟨-, -, -, rfl⟩⟩ :=
    St.move_cases h
  all_goals exact ⟨rfl, rfl⟩

/-- Steps of a restart that goes on without any timer firing. -/
def Act.quiet : Act κ → Prop
  | .close _ => False
  | .pass => True
  | .move _ m => m ≠ .tick

variable (eager) in
/-- From every state in which the supervisor waits, the workers alone can bring the group to zero. -/
theorem St.Ordered.drains (hs : s.Ordered) (hst : s.stage.stopped = true) :
    ∃ s', Steps.ReachWhen (next eager) (· = s) (fun _ a _ => a.quiet) s' ∧ s'.Ordered ∧ s'.group = 0 ∧
      s'.stage = s.stage := by
  induction hn : s.rank using Nat.strong_induction_on generalizing s with
  | _ n ih =>
    by_cases hg : s.group = 0
    · exact ⟨s, .init rfl, hs, hg, rfl⟩
    · obtain ⟨i, m, hm, hsome⟩ := hs.can_move eager hst hg
      obtain ⟨s₁, h1⟩ := Option.isSome_iff_exists.1 hsome
      have hstage := (St.move_frame h1).1
      obtain ⟨s', hreach, hs', hzero, hst'⟩ :=
        ih s₁.rank (hn ▸ hs.rank_lt h1 hm) (hs.moveStep h1) (hstage ▸ hst) rfl
      refine ⟨s', .head (a := .move i m) ?_ hm hreach, hs', hzero, hst'.trans hstage⟩
      simpa [next, hs.running] using h1

variable (eager) in
/-- The new workers are started one after the other. -/
theorem St.Ordered.starts : ∀ (jobs : List κ) {s : St κ}, s.Ordered → s.stage = .starting jobs →
    ∃ s', Steps.ReachWhen (next eager) (· = s) (fun _ a _ => a.quiet) s' ∧ s'.stage = .idle
  | [], s, hs, hst => by
    refine ⟨{ s with stage := .idle }, .head (a := .pass) ?_ trivial (.init rfl), rfl⟩
    simp [next, hs.running, pass, hst]
  | job :: jobs, s, hs, hst => by
    have hpass : next eager s .pass = some { s with
        group := s.group + 1
        workers := s.workers ++ [⟨s.signal, job, .created⟩]
        stage := .starting jobs } := by
      simp [next, hs.running, pass, hst]
    obtain ⟨s', hreach, hidle⟩ := starts jobs (hs.step hpass) rfl
    exact ⟨s', .head hpass trivial hreach, hidle⟩

variable (eager) in
/-- A restart that has begun can always be finished, wherever its workers stand. -/
theorem St.Ordered.completes (hs : s.Ordered) :
    ∃ s', Steps.ReachWhen (next eager) (· = s) (fun _ a _ => a.quiet) s' ∧ s'.stage = .idle := by
  have hdrained : ∀ {s : St κ} {jobs : List κ}, s.Ordered → s.stage = .drained jobs →
      ∃ s', Steps.ReachWhen (next eager) (· = s) (fun _ a _ => a.quiet) s' ∧ s'.stage = .idle := by
    intro s jobs hs hst
    have hpass : next eager s .pass =
        some { s with signal := s.signal + 1, roster := jobs, stage := .starting jobs } := by
      simp [next, hs.running, pass, hst]
    obtain ⟨s', hreach, hidle⟩ := starts eager jobs (hs.step hpass) rfl
    exact ⟨s', .head hpass trivial hreach, hidle⟩
  cases hst : s.stage with
  | idle => exact ⟨s, .init rfl, hst⟩
  -- every worker sees the closed signal and finishes
  | draining jobs =>
    obtain ⟨s₁, hreach, hs₁, hzero, hst₁⟩ := hs.drains eager (by rw [hst]; rfl)
    have hpass : next eager s₁ .pass = some { s₁ with stage := .drained jobs } := by
      simp [next, hs₁.running, pass, hst₁.trans hst, hzero]
    obtain ⟨s', hreach', hidle⟩ := hdrained (hs₁.step hpass) rfl
    exact ⟨s', hreach.trans (.head hpass trivial hreach'), hidle⟩
  | drained jobs => exact hdrained hs hst
  | starting jobs => exact starts eager jobs hs hst

end Generations
