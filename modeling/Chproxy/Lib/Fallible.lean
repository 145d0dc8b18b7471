/-
Computations that may fail: how a sequence of them succeeds, and when one failure never comes out of
it.
-/
import Mathlib.Data.List.Forall2

namespace Fallible

variable {ε α β : Type}

theorem bind_ok {x : Except ε α} {f : α → Except ε β} {b : β} (h : (x >>= f) = .ok b) :
    ∃ a, x = .ok a ∧ f a = .ok b := by
  cases x with
  | error e => cases h
  | ok a => exact ⟨a, rfl, h⟩

theorem map_ok {x : Except ε α} {f : α → β} {b : β} (h : x.map f = .ok b) : ∃ a, x = .ok a ∧ f a = b := by
  cases x with
  | error e => cases h
  | ok a => exact ⟨a, rfl, Except.ok.inj h⟩

theorem mapM_ok {f : α → Except ε β} : ∀ {xs : List α} {ys : List β}, xs.mapM f = .ok ys →
    List.Forall₂ (fun x y => f x = .ok y) xs ys
  | [], ys, h => by
    rw [List.mapM_nil] at h
    cases h
    exact .nil
  | x :: xs, ys, h => by
    rw [List.mapM_cons] at h
    obtain ⟨y, hy, h⟩ := bind_ok h
    obtain ⟨ys', hys, h⟩ := bind_ok h
    cases h
    exact .cons hy (mapM_ok hys)

/-- A loop that may fail, makes a value of each element, and passes on a state. -/
def mapAccumM {σ : Type} (f : σ → α → Except ε (σ × β)) : σ → List α → Except ε (σ × List β)
  | s, [] => .ok (s, [])
  | s, a :: as => do
    let (s, b) ← f s a
    let (s, bs) ← mapAccumM f s as
    .ok (s, b :: bs)

/-- When the body folds its result into the state, so does the loop. -/
theorem mapAccumM_ok {σ : Type} {f : σ → α → Except ε (σ × β)} {g : σ → β → σ} {P : β → Prop}
    (hf : ∀ s a s' b, f s a = .ok (s', b) → s' = g s b ∧ P b) : ∀ {as : List α} {s s' : σ} {bs : List β},
    mapAccumM f s as = .ok (s', bs) → s' = bs.foldl g s ∧ ∀ b ∈ bs, P b
  | [], s, s', bs, h => by
    cases h
    exact ⟨rfl, fun b hb => by cases hb⟩
  | a :: as, s, s', bs, h => by
    obtain ⟨⟨s₁, b⟩, hhead, h⟩ := bind_ok h
    obtain ⟨⟨s₂, bs'⟩, htail, h⟩ := bind_ok h
    cases h
    obtain ⟨rfl, hb⟩ := hf _ _ _ _ hhead
    obtain ⟨heq, hbs⟩ := mapAccumM_ok hf htail
    exact ⟨heq, List.forall_mem_cons.2 ⟨hb, hbs⟩⟩

/-- Every value the loop makes was made of one of the elements. -/
theorem mapAccumM_mem {σ : Type} {f : σ → α → Except ε (σ × β)} : ∀ {as : List α} {s s' : σ} {bs : List β},
    mapAccumM f s as = .ok (s', bs) → ∀ b ∈ bs, ∃ a ∈ as, ∃ s₁ s₂, f s₁ a = .ok (s₂, b)
  | [], s, s', bs, h, b, hb => by
    cases h
    cases hb
  | a :: as, s, s', bs, h, b, hb => by
    obtain ⟨⟨s₁, b₁⟩, hhead, h⟩ := bind_ok h
    obtain ⟨⟨s₂, bs'⟩, htail, h⟩ := bind_ok h
    cases h
    rcases List.mem_cons.1 hb with rfl | hb
    · exact ⟨a, List.mem_cons_self, _, _, hhead⟩
    · obtain ⟨a', ha', hmade⟩ := mapAccumM_mem htail b hb
      exact ⟨a', List.mem_cons_of_mem _ ha', hmade⟩

/-- The loop makes one value of each element. -/
theorem mapAccumM_length {σ : Type} {f : σ → α → Except ε (σ × β)} : ∀ {as : List α} {s s' : σ} {bs : List β},
    mapAccumM f s as = .ok (s', bs) → bs.length = as.length
  | [], s, s', bs, h => by
    cases h
    rfl
  | a :: as, s, s', bs, h => by
    obtain ⟨⟨s₁, b⟩, _, h⟩ := bind_ok h
    obtain ⟨⟨s₂, bs'⟩, htail, h⟩ := bind_ok h
    cases h
    rw [List.length_cons, List.length_cons, mapAccumM_length htail]

/-- The computation does not fail with `e`. -/
def Avoids (e : ε) (x : Except ε α) : Prop := x ≠ .error e

variable {e : ε}

theorem avoids_ok (a : α) : Avoids e (.ok a : Except ε α) := nofun

theorem Avoids.bind {x : Except ε α} {f : α → Except ε β} (hx : Avoids e x) (hf : ∀ a, x = .ok a → Avoids e (f a)) :
    Avoids e (x >>= f) := by
  cases x with
  | error e' => exact fun h => hx (by cases h; rfl)
  | ok a => exact hf a rfl

theorem Avoids.mapM {f : α → Except ε β} : ∀ {xs : List α}, (∀ x ∈ xs, Avoids e (f x)) → Avoids e (xs.mapM f)
  | [], _ => by
    rw [List.mapM_nil]
    exact avoids_ok _
  | x :: xs, hf => by
    rw [List.mapM_cons]
    refine (hf x List.mem_cons_self).bind fun y _ => ?_
    refine (Avoids.mapM fun x hx => hf x (List.mem_cons_of_mem _ hx)).bind fun ys _ => ?_
    exact avoids_ok _

end Fallible
