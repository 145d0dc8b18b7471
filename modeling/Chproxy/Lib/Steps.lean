/-
Step systems: a partial step function on states, the states reached from an initial one through
transitions that meet a condition, and the induction rule for invariants of such runs.
-/
import Mathlib.Logic.Basic

namespace Steps

variable {σ α : Type}

/-- The state after performing `acts` from `s`, when every step is enabled. -/
def run (step : σ → α → Option σ) : σ → List α → Option σ
  | s, [] => some s
  | s, a :: as => (step s a).bind (run step · as)

/-- The states reached from an initial state through transitions that all meet `C`. -/
inductive ReachWhen (step : σ → α → Option σ) (init : σ → Prop) (C : σ → α → σ → Prop) : σ → Prop
  | init {s : σ} : init s → ReachWhen step init C s
  | step {s s' : σ} {a : α} : ReachWhen step init C s → step s a = some s' → C s a s' →
      ReachWhen step init C s'

/-- The states reached from an initial state. -/
abbrev Reach (step : σ → α → Option σ) (init : σ → Prop) : σ → Prop :=
  ReachWhen step init fun _ _ _ => True

theorem run_append {step : σ → α → Option σ} : ∀ (as bs : List α) {s s' : σ}, run step s as = some s' →
    run step s (as ++ bs) = run step s' bs
  | [], bs, s, s', h => by cases h; rfl
  | a :: as, bs, s, s', h => by
    obtain ⟨s₁, h1, h2⟩ := Option.bind_eq_some_iff.1 h
    rw [List.cons_append, run, h1, Option.bind_some, run_append as bs h2]

section Rules

variable {step : σ → α → Option σ} {init : σ → Prop} {C D : σ → α → σ → Prop}

/-- What holds initially and is kept by every transition meeting `C` holds in every state reached. -/
theorem ReachWhen.invariant {P : σ → Prop} (h0 : ∀ s, init s → P s)
    (hs : ∀ s a s', P s → step s a = some s' → C s a s' → P s') {s : σ}
    (h : ReachWhen step init C s) : P s := by
  induction h with
  | init hi => exact h0 _ hi
  | step _ hst hc ih => exact hs _ _ _ ih hst hc

theorem ReachWhen.mono (hCD : ∀ s a s', C s a s' → D s a s') {s : σ} (h : ReachWhen step init C s) :
    ReachWhen step init D s := by
  induction h with
  | init hi => exact .init hi
  | step _ hst hc ih => exact .step ih hst (hCD _ _ _ hc)

/-- A run that begins with a given transition. -/
theorem ReachWhen.head {s s₁ s' : σ} {a : α} (hst : step s a = some s₁) (hc : C s a s₁)
    (h : ReachWhen step (· = s₁) C s') : ReachWhen step (· = s) C s' := by
  induction h with
  | init hi => exact .step (.init rfl) (hi ▸ hst) (hi ▸ hc)
  | step _ hst' hc' ih => exact .step ih hst' hc'

/-- Runs one after the other. -/
theorem ReachWhen.trans {s s' : σ} (h : ReachWhen step init C s) (h' : ReachWhen step (· = s) C s') :
    ReachWhen step init C s' := by
  induction h' with
  | init hi => exact hi ▸ h
  | step _ hst hc ih => exact .step ih hst hc

/-- A run of one system that another follows step by step. -/
theorem ReachWhen.lift {τ β : Type} {step' : τ → β → Option τ} {D : τ → β → τ → Prop} {P : σ → Prop} (f : σ → τ)
    (hP : ∀ s a s', P s → step s a = some s' → C s a s' → P s')
    (hf : ∀ s a s', P s → step s a = some s' → C s a s' → ∃ b, step' (f s) b = some (f s') ∧ D (f s) b (f s'))
    {s s' : σ} (hs : P s) (h : ReachWhen step (· = s) C s') : ReachWhen step' (· = f s) D (f s') := by
  have : P s' ∧ ReachWhen step' (· = f s) D (f s') := by
    induction h with
    | init hi => subst hi; exact ⟨hs, .init rfl⟩
    | step _ hst hc ih =>
      obtain ⟨b, hb, hd⟩ := hf _ _ _ ih.1 hst hc
      exact ⟨hP _ _ _ ih.1 hst hc, .step ih.2 hb hd⟩
  exact this.2

theorem ReachWhen.reach {s : σ} (h : ReachWhen step init C s) : Reach step init s :=
  h.mono fun _ _ _ _ => trivial

/-- A condition on the transitions that is decided along a list of actions. -/
def runWhen (step : σ → α → Option σ) (C : σ → α → σ → Bool) : σ → List α → Option σ
  | s, [] => some s
  | s, a :: as => (step s a).bind fun s' => if C s a s' then runWhen step C s' as else none

theorem ReachWhen.of_runWhen_mem {B : σ → α → σ → Bool} :
    ∀ (acts : List α) {s s' : σ}, (∀ a ∈ acts, ∀ s s', B s a s' = true → C s a s') → ReachWhen step init C s →
      runWhen step B s acts = some s' → ReachWhen step init C s'
  | [], s, s', _, h, hr => by cases hr; exact h
  | a :: as, s, s', hB, h, hr => by
    obtain ⟨s₁, h1, h2⟩ := Option.bind_eq_some_iff.1 hr
    have hB' := List.forall_mem_cons.1 hB
    split at h2
    · rename_i hb
      exact of_runWhen_mem as hB'.2 (.step h h1 (hB'.1 _ _ hb)) h2
    · cases h2

theorem ReachWhen.of_runWhen {B : σ → α → σ → Bool} (hB : ∀ s a s', B s a s' = true → C s a s') (acts : List α)
    {s s' : σ} (h : ReachWhen step init C s) (hr : runWhen step B s acts = some s') : ReachWhen step init C s' :=
  .of_runWhen_mem acts (fun a _ s s' => hB s a s') h hr

/-- A run of actions that meet the condition in every state. -/
theorem ReachWhen.of_run : ∀ (acts : List α) {s s' : σ}, (∀ a ∈ acts, ∀ s s', C s a s') → ReachWhen step init C s →
    run step s acts = some s' → ReachWhen step init C s'
  | [], s, s', _, h, hr => by cases hr; exact h
  | a :: as, s, s', hC, h, hr => by
    obtain ⟨s₁, h1, h2⟩ := Option.bind_eq_some_iff.1 hr
    have hC' := List.forall_mem_cons.1 hC
    exact of_run as hC'.2 (.step h h1 (hC'.1 _ _)) h2

theorem Reach.of_run : ∀ (acts : List α) {s s' : σ}, Reach step init s → run step s acts = some s' →
    Reach step init s'
  | [], s, s', h, hr => by cases hr; exact h
  | a :: as, s, s', h, hr => by
    obtain ⟨s₁, h1, h2⟩ := Option.bind_eq_some_iff.1 hr
    exact of_run as (.step h h1 trivial) h2

end Rules

end Steps
