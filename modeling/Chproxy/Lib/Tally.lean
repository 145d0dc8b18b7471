/-
Tallies: named quantities are counted, some are taken out again later, and a machine counter follows the
difference. The counter is exact as long as no more has been taken out than was counted, which is so when
only what was counted is taken out, and no more of it.
-/
import Mathlib.Algebra.Order.BigOperators.Group.Finset
import Mathlib.Tactic

namespace Tallies

/-! ## Counters that wrap around -/

/-- The counter has the value `v` up to multiples of `2 ^ 64`. -/
def Follows (x : UInt64) (v : Int) : Prop := (x.toNat : Int) % 2 ^ 64 = v % 2 ^ 64

namespace Follows

variable {x : UInt64} {v : Int}

theorem zero : Follows 0 0 := rfl

theorem add (h : Follows x v) (k : Nat) : Follows (x + UInt64.ofNat k) (v + k) := by
  unfold Follows at h ⊢
  rw [UInt64.toNat_add, UInt64.toNat_ofNat']
  omega

theorem sub (h : Follows x v) (k : Nat) : Follows (x - UInt64.ofNat k) (v - k) := by
  unfold Follows at h ⊢
  rw [UInt64.toNat_sub, UInt64.toNat_ofNat']
  omega

theorem eq_ofNat {n : Nat} (h : Follows x n) : x = UInt64.ofNat n := by
  have hlt := x.toNat_lt
  unfold Follows at h
  apply UInt64.toNat_inj.1
  rw [UInt64.toNat_ofNat']
  omega

/-- It has not wrapped around. -/
theorem exact_iff (h : Follows x v) : (x.toNat : Int) = v ↔ 0 ≤ v ∧ v < 2 ^ 64 := by
  have hlt := x.toNat_lt
  unfold Follows at h
  omega

end Follows

/-! ## Tallies -/

/-- What was counted, at which size, and which part of it was not taken out since; and how much was taken out
altogether, counted or not. -/
structure Tally (ν : Type) where
  counted : Finset ν
  size : ν → Nat
  left : Finset ν
  taken : Nat
  takenItems : Nat

variable {ν : Type}

namespace Tally

def empty : Tally ν := ⟨∅, fun _ => 0, ∅, 0, 0⟩

def sum (t : Tally ν) : Nat := ∑ n ∈ t.counted, t.size n

/-- What is left of the quantities counted. -/
def amount (t : Tally ν) : Int := (t.sum : Int) - t.taken

/-- What is left of their number. -/
def items (t : Tally ν) : Int := (t.counted.card : Int) - t.takenItems

/-- No more was taken out than was counted. -/
structure Covers (t : Tally ν) : Prop where
  amount : t.taken ≤ t.sum
  items : t.takenItems ≤ t.counted.card

/-- Only what was counted was taken out, and `kept` less of it than was counted. -/
structure Sound (t : Tally ν) (kept : Nat) : Prop where
  sub : t.left ⊆ t.counted
  amount : ∑ n ∈ t.left, t.size n + t.taken + kept = t.sum
  items : t.left.card + t.takenItems = t.counted.card

variable {t : Tally ν} {n : ν} {k kept : Nat}

theorem covers_iff : t.Covers ↔ 0 ≤ t.amount ∧ 0 ≤ t.items := by
  unfold Tally.amount items
  constructor
  · rintro ⟨hamount, hitems⟩
    omega
  · rintro ⟨hamount, hitems⟩
    exact ⟨by omega, by omega⟩

theorem sound_empty : (empty : Tally ν).Sound 0 := ⟨by simp [empty], by simp [empty, sum], by simp [empty]⟩

theorem Sound.covers (h : t.Sound kept) : t.Covers := by
  have hamount := h.amount
  have hitems := h.items
  exact ⟨by omega, by omega⟩

/-- What there was to be counted bounds what is left. -/
theorem amount_le {existed : Finset ν} {peak : ν → Nat} (hsub : t.counted ⊆ existed)
    (hpeak : ∀ n ∈ t.counted, t.size n ≤ peak n) : t.amount ≤ ∑ n ∈ existed, peak n := by
  have hsum : t.sum ≤ ∑ n ∈ existed, peak n :=
    (Finset.sum_le_sum hpeak).trans (Finset.sum_le_sum_of_subset hsub)
  unfold amount
  omega

theorem items_le {existed : Finset ν} (hsub : t.counted ⊆ existed) : t.items ≤ existed.card := by
  have hcard := Finset.card_le_card hsub
  unfold items
  omega

/-! ## Counting and taking out -/

variable [DecidableEq ν]

def count (t : Tally ν) (n : ν) (k : Nat) : Tally ν :=
  { t with counted := insert n t.counted, size := Function.update t.size n k, left := insert n t.left }

def take (t : Tally ν) (n : ν) (k : Nat) : Tally ν :=
  { t with left := t.left.erase n, taken := t.taken + k, takenItems := t.takenItems + 1 }

/-- What holds of the file counted and of those of a set with their sizes holds with the file added. -/
theorem forall_insert_count {P : ν → Nat → Prop} {s : Finset ν} (hnew : P n k) (hold : ∀ m ∈ s, P m (t.size m)) :
    ∀ m ∈ insert n s, P m ((t.count n k).size m) := by
  intro m hm
  by_cases hne : m = n
  · subst hne
    simpa [count] using hnew
  · simpa [count, Function.update_of_ne hne] using hold m (Finset.mem_of_mem_insert_of_ne hm hne)

theorem sum_update {s : Finset ν} (hn : n ∉ s) (f : ν → Nat) :
    ∑ m ∈ s, Function.update f n k m = ∑ m ∈ s, f m := by
  refine Finset.sum_congr rfl fun m hm => Function.update_of_ne ?_ ..
  rintro rfl
  exact hn hm

theorem sum_count (hn : n ∉ t.counted) : (t.count n k).sum = t.sum + k := by
  unfold sum count
  dsimp only
  rw [Finset.sum_insert hn, Function.update_self, sum_update hn, Nat.add_comm]

theorem amount_count (hn : n ∉ t.counted) : (t.count n k).amount = t.amount + k := by
  unfold amount
  rw [sum_count hn]
  simp only [count]
  omega

theorem items_count (hn : n ∉ t.counted) : (t.count n k).items = t.items + 1 := by
  unfold items
  simp only [count, Finset.card_insert_of_notMem hn]
  omega

theorem amount_take : (t.take n k).amount = t.amount - k := by
  simp only [amount, sum, take]
  omega

theorem items_take : (t.take n k).items = t.items - 1 := by
  simp only [items, take]
  omega

theorem Sound.count (h : t.Sound kept) (hn : n ∉ t.counted) : (t.count n k).Sound kept := by
  have hleft : n ∉ t.left := fun hmem => hn (h.sub hmem)
  have hamount := h.amount
  have hitems := h.items
  refine ⟨Finset.insert_subset_insert n h.sub, ?_, ?_⟩
  · rw [sum_count hn]
    simp only [Tally.count]
    rw [Finset.sum_insert hleft, Function.update_self, sum_update hleft]
    omega
  · simp only [Tally.count, Finset.card_insert_of_notMem hleft, Finset.card_insert_of_notMem hn]
    omega

/-- What was counted can be taken out, if it is no more than was counted. -/
theorem Sound.take (h : t.Sound kept) (hn : n ∈ t.left) (hk : k ≤ t.size n) :
    (t.take n k).Sound (kept + (t.size n - k)) := by
  have hsum := Finset.add_sum_erase t.left t.size hn
  have hcard := Finset.card_erase_add_one hn
  have hamount := h.amount
  have hitems := h.items
  refine ⟨(Finset.erase_subset ..).trans h.sub, ?_, ?_⟩
  · simp only [Tally.take, sum] at hamount ⊢
    omega
  · simp only [Tally.take]
    omega

end Tally

end Tallies
