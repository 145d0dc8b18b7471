/-
Readers behind a readers-writer lock. A reader is a program of single reads of a shared state; between
its reads other parties may change the state, but what the lock guards only while no reader is inside.
So whatever a reader returns it also returns when all its reads see states that agree on what is guarded.
-/
import Mathlib.Logic.Basic

namespace Guarded

/-- A program of reads: each looks at the state once and decides how to go on. -/
inductive Prog (σ α : Type)
  | ret (a : α)
  | ask (next : σ → Prog σ α)

variable {σ α : Type}

/-- `p.Returns S a`: the program may return `a` when each of its reads sees some state of `S`. -/
inductive Prog.Returns (S : σ → Prop) : Prog σ α → α → Prop
  | ret (a : α) : Returns S (.ret a) a
  | ask {next : σ → Prog σ α} {x : σ} {a : α} : S x → Returns S (next x) a → Returns S (.ask next) a

theorem Prog.Returns.of_ask {S : σ → Prop} {next : σ → Prog σ α} {a : α} (h : (Prog.ask next).Returns S a) :
    ∃ x, S x ∧ (next x).Returns S a := by
  cases h with
  | ask hx h => exact ⟨_, hx, h⟩

theorem Prog.Returns.of_ret {S : σ → Prop} {a b : α} (h : (Prog.ret b : Prog σ α).Returns S a) : a = b := by
  cases h
  rfl

/-- Where a reader stands: before the lock, inside with the rest of its program, or past the lock with
its result. -/
inductive Phase (σ α : Type)
  | outside
  | inside (rest : Prog σ α)
  | left (a : α)

structure Reader (σ α : Type) where
  prog : Prog σ α
  phase : Phase σ α

def Reader.inside (t : Reader σ α) : Bool :=
  match t.phase with
  | .inside _ => true
  | _ => false

/-- One step of a reader on the number of readers inside and the state. It does not enter while a writer
holds the lock. -/
def Reader.step (writing : Bool) (readers : Nat) (x : σ) (t : Reader σ α) : Option (Nat × Reader σ α) :=
  match t.phase with
  | .outside => if writing then none else some (readers + 1, { t with phase := .inside t.prog })
  | .inside (.ask next) => some (readers, { t with phase := .inside (next x) })
  | .inside (.ret a) => some (readers - 1, { t with phase := .left a })
  | .left _ => none

/-- A reader inside has still to return only what its whole program may return on `S`. -/
def Reader.Sound (S : σ → Prop) (t : Reader σ α) : Prop :=
  ∀ rest, t.phase = .inside rest → ∀ a, rest.Returns S a → t.prog.Returns S a

variable {writing : Bool} {readers readers' : Nat} {x : σ} {t t' : Reader σ α}

/-- Everything a step of a reader can be. -/
theorem Reader.step_cases (h : t.step writing readers x = some (readers', t')) :
    (t.phase = .outside ∧ writing = false ∧ readers' = readers + 1 ∧ t' = { t with phase := .inside t.prog }) ∨
    (∃ next, t.phase = .inside (.ask next) ∧ readers' = readers ∧ t' = { t with phase := .inside (next x) }) ∨
    (∃ a, t.phase = .inside (.ret a) ∧ readers' = readers - 1 ∧ t' = { t with phase := .left a }) := by
  unfold step at h
  split at h
  · rename_i hp
    split at h
    · cases h
    · rename_i hw
      cases h
      exact .inl ⟨hp, by simpa using hw, rfl, rfl⟩
  · rename_i next hp
    cases h
    exact .inr (.inl ⟨next, hp, rfl, rfl⟩)
  · rename_i a hp
    cases h
    exact .inr (.inr ⟨a, hp, rfl, rfl⟩)
  · cases h

theorem Reader.step_prog (h : t.step writing readers x = some (readers', t')) : t'.prog = t.prog := by
  obtain ⟨-, -, -, rfl⟩ | ⟨next, -, -, rfl⟩ | ⟨a, -, -, rfl⟩ := Reader.step_cases h
  all_goals rfl

/-- A reader that moves is inside, or nobody holds the lock for writing. -/
theorem Reader.step_enabled (h : t.step writing readers x = some (readers', t')) :
    writing = false ∨ t.inside = true := by
  obtain ⟨-, hw, -, -⟩ | ⟨next, hp, -, -⟩ | ⟨a, hp, -, -⟩ := Reader.step_cases h
  · exact .inl hw
  · exact .inr (by simp [inside, hp])
  · exact .inr (by simp [inside, hp])

/-- A read that sees a state of `S` keeps the reader sound. -/
theorem Reader.Sound.step {S : σ → Prop} (hx : S x) (ht : t.Sound S)
    (h : t.step writing readers x = some (readers', t')) : t'.Sound S := by
  obtain ⟨-, -, -, rfl⟩ | ⟨next, hp, -, rfl⟩ | ⟨a, -, -, rfl⟩ := Reader.step_cases h
  · rintro rest ⟨⟩ a ha
    exact ha
  · rintro rest ⟨⟩ a ha
    exact ht _ hp a (.ask hx ha)
  · rintro rest ⟨⟩

/-- What a reader takes out of the lock is a result of its program on `S`. -/
theorem Reader.Sound.returns {S : σ → Prop} {a : α} (ht : t.Sound S) (hp : t.phase = .inside (.ret a)) :
    t.prog.Returns S a :=
  ht _ hp a (.ret a)

/-- The number of readers moves with the reader. -/
theorem Reader.step_readers (h : t.step writing readers x = some (readers', t'))
    (hpos : t.inside = true → readers ≠ 0) :
    readers' + t.inside.toNat = readers + t'.inside.toNat := by
  obtain ⟨hp, -, rfl, rfl⟩ | ⟨next, hp, rfl, rfl⟩ | ⟨a, hp, rfl, rfl⟩ := Reader.step_cases h
  · simp [inside, hp]
  · simp [inside, hp]
  · have : readers ≠ 0 := hpos (by simp [inside, hp])
    simp only [inside, hp, Bool.toNat_true, Bool.toNat_false]
    omega

end Guarded
