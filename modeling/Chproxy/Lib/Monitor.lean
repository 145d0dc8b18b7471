/-
A flag that shows whether something is well, kept by a loop of checks: a check, which its timeout ends at the
latest, a pause, and the next check. Others may lower the flag at any time, and timers may be late.
-/
import Chproxy.Lib.Steps

namespace Monitor

structure Timing where
  timeout : Nat
  interval : Nat
  slack : Nat

inductive Phase
  | checking (since : Nat)
  | pausing (due : Nat)
  | stopped
  deriving DecidableEq, Repr

structure St where
  now : Nat
  flag : Bool
  phase : Phase
  deriving DecidableEq, Repr

inductive Act
  | finish (verdict : Bool)
  | wake
  | stop
  | lower
  | pass (d : Nat)
  | idle

/-- At the time `t` the timer that ends the phase is late by no more than the slack. -/
def Phase.inTime (T : Timing) (t : Nat) : Phase → Bool
  | checking since => t ≤ since + T.timeout + T.slack
  | pausing due => t ≤ due + T.slack
  | stopped => true

variable (T : Timing)

def next (s : St) : Act → Option St
  | .finish verdict =>
    match s.phase with
    | .checking _ => some { s with flag := verdict, phase := .pausing (s.now + T.interval) }
    | _ => none
  | .wake =>
    match s.phase with
    | .pausing due => if due ≤ s.now then some { s with phase := .checking s.now } else none
    | _ => none
  | .stop =>
    match s.phase with
    | .pausing _ => some { s with phase := .stopped }
    | _ => none
  | .lower => some { s with flag := false }
  | .pass d => if s.phase.inTime T (s.now + d) then some { s with now := s.now + d } else none
  | .idle => some s

/-- The first check begins when the loop is started. -/
def Started (s : St) : Prop := s.now = 0 ∧ s.phase = .checking 0

/-- Checks that begin at the time `t` or later all find `b`, and nobody else contradicts this after `t`. -/
structure Lasting (b : Bool) (t : Nat) (s : St) (a : Act) (_ : St) : Prop where
  finish : ∀ since verdict, s.phase = .checking since → a = .finish verdict → t ≤ since → verdict = b
  lower : a = .lower → t < s.now → b = false

/-- While the flag shows something else, it was raised or lowered by a check that began before `t`, and the next
one is due. -/
structure Tracks (b : Bool) (t : Nat) (s : St) : Prop where
  begun : ∀ since, s.phase = .checking since → since ≤ s.now ∧ s.now ≤ since + T.timeout + T.slack
  paused : ∀ due, s.phase = .pausing due → due ≤ s.now + T.interval ∧ s.now ≤ due + T.slack
  checking : s.flag ≠ b → ∀ since, s.phase = .checking since →
    since ≤ t + T.timeout + T.interval + 2 * T.slack
  pausing : s.flag ≠ b → ∀ due, s.phase = .pausing due → due ≤ t + T.timeout + T.interval + T.slack

variable {T} {b : Bool} {t : Nat} {s s' : St} {a : Act}

/-- What one step does, with what it has tested. -/
inductive Moves (T : Timing) (s : St) : Act → St → Prop
  | finish {since : Nat} (verdict : Bool) : s.phase = .checking since →
      Moves T s (.finish verdict) { s with flag := verdict, phase := .pausing (s.now + T.interval) }
  | wake {due : Nat} : s.phase = .pausing due → due ≤ s.now → Moves T s .wake { s with phase := .checking s.now }
  | stop {due : Nat} : s.phase = .pausing due → Moves T s .stop { s with phase := .stopped }
  | lower : Moves T s .lower { s with flag := false }
  | pass (d : Nat) : s.phase.inTime T (s.now + d) = true → Moves T s (.pass d) { s with now := s.now + d }
  | idle : Moves T s .idle s

theorem next_moves (h : next T s a = some s') : Moves T s a s' := by
  cases a with
  | finish verdict =>
    simp only [next] at h
    split at h
    · rename_i since hphase
      cases h
      exact .finish verdict hphase
    · cases h
  | wake =>
    simp only [next] at h
    split at h
    · rename_i due hphase
      split at h
      · rename_i hdue
        cases h
        exact .wake hphase hdue
      · cases h
    · cases h
  | stop =>
    simp only [next] at h
    split at h
    · rename_i due hphase
      cases h
      exact .stop hphase
    · cases h
  | lower =>
    cases h
    exact .lower
  | pass d =>
    simp only [next] at h
    split at h
    · rename_i htime
      cases h
      exact .pass d htime
    · cases h
  | idle =>
    cases h
    exact .idle

/-- The steps that say nothing about what is checked. -/
def Act.quiet : Act → Bool
  | finish _ => false
  | lower => false
  | _ => true

theorem Tracks.step (h : Tracks T b t s) (hst : next T s a = some s') (hlast : Lasting b t s a s') :
    Tracks T b t s' := by
  cases next_moves hst with
  | finish verdict hphase =>
    rename_i since
    have hbegun := h.begun since hphase
    refine ⟨nofun, fun due hd => ?_, nofun, fun hne due hd => ?_⟩
    · cases hd
      exact ⟨Nat.le_refl _, by dsimp only; omega⟩
    · cases hd
      -- a verdict that does not last is from a check that began before `t`
      have hearly : ¬t ≤ since := fun hle => hne (hlast.finish since verdict hphase rfl hle)
      omega
  | wake hphase hdue =>
    rename_i due
    have hpaused := h.paused due hphase
    refine ⟨fun since hs => ?_, nofun, fun hne since hs => ?_, nofun⟩
    · cases hs
      dsimp only
      omega
    · cases hs
      have := h.pausing hne due hphase
      omega
  | stop hphase => exact ⟨nofun, nofun, nofun, nofun⟩
  | lower =>
    refine ⟨h.begun, h.paused, fun hne since hs => ?_, fun hne due hd => ?_⟩
    all_goals
      have hearly : ¬t < s.now := fun hlt => hne (hlast.lower rfl hlt).symm
    · have := h.begun since hs
      omega
    · have := h.paused due hd
      omega
  | pass d htime =>
    refine ⟨fun since hs => ?_, fun due hd => ?_, h.checking, h.pausing⟩
    · have hbegun := h.begun since hs
      simp only [show s.phase = .checking since from hs, Phase.inTime, decide_eq_true_eq] at htime
      dsimp only
      omega
    · have hpaused := h.paused due hd
      simp only [show s.phase = .pausing due from hd, Phase.inTime, decide_eq_true_eq] at htime
      dsimp only
      omega
  | idle => exact h

end Monitor
