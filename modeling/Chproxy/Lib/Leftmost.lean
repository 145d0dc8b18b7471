/-
The first index at which a function is least, as a scan finds it, and the first position with a property in
cyclic order.
-/
import Mathlib.Order.Basic
import Mathlib.Data.Nat.Init
import Mathlib.Tactic.Common

/-- The first index below `n` at which `f` is least. -/
structure Leftmost {β : Type} [Preorder β] (f : Nat → β) (n d : Nat) : Prop where
  lt : d < n
  least : ∀ e < n, f d ≤ f e
  first : ∀ e < d, f d < f e

namespace Leftmost

variable {β : Type} [Preorder β] {f : Nat → β} {n d : Nat}

theorem one (f : Nat → β) : Leftmost f 1 0 := by
  refine ⟨Nat.one_pos, fun e he => ?_, fun e he => absurd he (Nat.not_lt_zero e)⟩
  rw [Nat.lt_one_iff.1 he]

/-- A further value that is not smaller changes nothing. -/
theorem keep (h : Leftmost f n d) (hle : f d ≤ f n) : Leftmost f (n + 1) d := by
  refine ⟨Nat.lt_succ_of_lt h.lt, fun e he => ?_, h.first⟩
  rcases Nat.lt_succ_iff_lt_or_eq.1 he with he | rfl
  · exact h.least e he
  · exact hle

/-- A smaller one takes its place. -/
theorem replace (h : Leftmost f n d) (hlt : f n < f d) : Leftmost f (n + 1) n := by
  refine ⟨Nat.lt_succ_self n, fun e he => ?_, fun e he => lt_of_lt_of_le hlt (h.least e he)⟩
  rcases Nat.lt_succ_iff_lt_or_eq.1 he with he | rfl
  · exact le_of_lt (lt_of_lt_of_le hlt (h.least e he))
  · exact le_refl _

/-- A value below which nothing lies ends the scan. -/
theorem extend {m : Nat} (h : Leftmost f n d) (hnm : n ≤ m) (hbot : ∀ e, f d ≤ f e) : Leftmost f m d :=
  ⟨Nat.lt_of_lt_of_le h.lt hnm, fun e _ => hbot e, h.first⟩

end Leftmost

/-- The first of the positions below `n` with the property, in cyclic order from `start` on. -/
def FirstFrom (n start : Nat) (P : Nat → Prop) (k : Nat) : Prop :=
  ∃ d < n, (start + d) % n = k ∧ P k ∧ ∀ e < d, ¬P ((start + e) % n)

namespace FirstFrom

variable {n start k : Nat} {P Q : Nat → Prop}

theorem holds (h : FirstFrom n start P k) : P k := by
  obtain ⟨d, -, -, hP, -⟩ := h
  exact hP

theorem lt (h : FirstFrom n start P k) : k < n := by
  obtain ⟨d, hd, rfl, -⟩ := h
  exact Nat.mod_lt _ (Nat.zero_lt_of_lt hd)

theorem congr (h : FirstFrom n start P k) (hPQ : ∀ j < n, (P j ↔ Q j)) : FirstFrom n start Q k := by
  have hk := h.lt
  obtain ⟨d, hd, hpos, hP, hfirst⟩ := h
  have hn : 0 < n := Nat.zero_lt_of_lt hd
  exact ⟨d, hd, hpos, (hPQ k hk).1 hP, fun e he hQ => hfirst e he ((hPQ _ (Nat.mod_lt _ hn)).2 hQ)⟩

end FirstFrom

/-- Every position is met. -/
theorem exists_add_mod {n j : Nat} (start : Nat) (hj : j < n) : ∃ e < n, (start + e) % n = j := by
  have hn : 0 < n := Nat.zero_lt_of_lt hj
  have hlt := Nat.mod_lt start hn
  refine ⟨(j + (n - start % n)) % n, Nat.mod_lt _ hn, ?_⟩
  calc (start + (j + (n - start % n)) % n) % n
      = (start % n + (j + (n - start % n))) % n := by rw [Nat.add_mod_mod, Nat.mod_add_mod]
    _ = (j + n) % n := by
      congr 1
      omega
    _ = j := by rw [Nat.add_mod_right, Nat.mod_eq_of_lt hj]

/-- The leftmost minimum in cyclic order is the first of the positions with a least value. -/
theorem Leftmost.firstFrom {β : Type} [Preorder β] {f : Nat → β} {n start d : Nat}
    (h : Leftmost (fun d => f ((start + d) % n)) n d) :
    FirstFrom n start (fun k => ∀ j < n, f k ≤ f j) ((start + d) % n) := by
  refine ⟨d, h.lt, rfl, fun j hj => ?_, fun e he hleast => ?_⟩
  · obtain ⟨e, he, rfl⟩ := exists_add_mod start hj
    exact h.least e he
  · exact absurd (h.first e he) (not_lt_of_ge (hleast _ (Nat.mod_lt _ (Nat.zero_lt_of_lt h.lt))))
