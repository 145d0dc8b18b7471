/-
Decimal text of integers as bytes, with an optional sign on reading; reading is the inverse of
writing.
-/
import Mathlib.Data.Nat.Digits.Defs

namespace Decimal

def ofChars (cs : List Char) : List UInt8 := cs.map fun c => UInt8.ofNat c.toNat

def toChars (bs : List UInt8) : List Char := bs.map fun b => Char.ofNat b.toNat

def ofNat (n : Nat) : List UInt8 := ofChars (Nat.toDigits 10 n)

/-- `%d`. -/
def ofInt : Int → List UInt8
  | .ofNat n => ofNat n
  | .negSucc n => 45 :: ofNat (n + 1)

/-- A non-empty string of digits. -/
def toNat? (bs : List UInt8) : Option Nat :=
  if bs ≠ [] ∧ (toChars bs).all Char.isDigit = true then some (Nat.ofDigitChars 10 (toChars bs) 0) else none

/-- Digits after an optional sign. -/
def toInt? : List UInt8 → Option Int
  | 45 :: bs => (toNat? bs).map fun n => -(n : Int)
  | 43 :: bs => (toNat? bs).map fun n => (n : Int)
  | bs => (toNat? bs).map fun n => (n : Int)

theorem isDigit_bounds {c : Char} (h : c.isDigit = true) : 48 ≤ c.toNat ∧ c.toNat ≤ 57 := by
  simp only [Char.isDigit, Bool.and_eq_true, decide_eq_true_eq] at h
  exact ⟨UInt32.le_iff_toNat_le.1 h.1, UInt32.le_iff_toNat_le.1 h.2⟩

theorem toNat_ofNat_digit {c : Char} (h : c.isDigit = true) : (UInt8.ofNat c.toNat).toNat = c.toNat := by
  have hc := isDigit_bounds h
  rw [UInt8.toNat_ofNat']
  exact Nat.mod_eq_of_lt (by omega)

theorem toChars_ofChars : ∀ {cs : List Char}, (∀ c ∈ cs, c.isDigit = true) → toChars (ofChars cs) = cs
  | [], _ => rfl
  | c :: cs, h => by
    have hcode := toNat_ofNat_digit (h c List.mem_cons_self)
    have ih := toChars_ofChars fun x hx => h x (List.mem_cons_of_mem _ hx)
    simp only [toChars, ofChars, List.map_cons, List.map_map] at ih ⊢
    rw [ih, hcode, Char.ofNat_toNat]

theorem digits_isDigit (n : Nat) : ∀ c ∈ Nat.toDigits 10 n, c.isDigit = true :=
  fun _ hc => Nat.isDigit_of_mem_toDigits (by omega) (by omega) hc

theorem toNat?_ofNat (n : Nat) : toNat? (ofNat n) = some n := by
  have hne : ofNat n ≠ [] := by simp [ofNat, ofChars]
  have hchars := toChars_ofChars (digits_isDigit n)
  rw [toNat?, ofNat, hchars, if_pos ⟨by simpa [ofNat] using hne, List.all_eq_true.2 (digits_isDigit n)⟩,
    Nat.ofDigitChars_ten_toDigits]

/-- Only digits are written for a natural number. -/
theorem mem_ofNat {n : Nat} {b : UInt8} (h : b ∈ ofNat n) : 48 ≤ b ∧ b ≤ 57 := by
  obtain ⟨c, hc, rfl⟩ := List.mem_map.1 h
  have hdigit := digits_isDigit n c hc
  have hbounds := isDigit_bounds hdigit
  rw [UInt8.le_iff_toNat_le, UInt8.le_iff_toNat_le, toNat_ofNat_digit hdigit]
  exact hbounds

theorem mem_ofInt {n : Int} {b : UInt8} (h : b ∈ ofInt n) : b = 45 ∨ (48 ≤ b ∧ b ≤ 57) := by
  cases n with
  | ofNat n => exact .inr (mem_ofNat h)
  | negSucc n =>
    rcases List.mem_cons.1 h with hb | hb
    · exact .inl hb
    · exact .inr (mem_ofNat hb)

theorem isDigit_ofNat_iff (b : UInt8) : (Char.ofNat b.toNat).isDigit = true ↔ 48 ≤ b ∧ b ≤ 57 := by
  have hb := b.toNat_lt
  have hcode : (Char.ofNat b.toNat).toNat = b.toNat := by
    rw [Char.ofNat, dif_pos (.inl (by omega))]
    rfl
  simp only [UInt8.le_iff_toNat_le]
  constructor
  · intro h
    have := isDigit_bounds h
    rw [hcode] at this
    exact this
  · intro h
    rw [Char.isDigit, Bool.and_eq_true, decide_eq_true_eq, decide_eq_true_eq, ge_iff_le, UInt32.le_iff_toNat_le,
      UInt32.le_iff_toNat_le]
    change 48 ≤ (Char.ofNat b.toNat).toNat ∧ (Char.ofNat b.toNat).toNat ≤ 57
    rw [hcode]
    exact h

/-- The texts that are read as natural numbers. -/
theorem toNat?_isSome_iff {bs : List UInt8} : (toNat? bs).isSome ↔ bs ≠ [] ∧ ∀ b ∈ bs, 48 ≤ b ∧ b ≤ 57 := by
  have hall : (toChars bs).all Char.isDigit = true ↔ ∀ b ∈ bs, 48 ≤ b ∧ b ≤ 57 := by
    simp only [toChars, List.all_map, List.all_eq_true, Function.comp_apply, isDigit_ofNat_iff]
  unfold toNat?
  split
  · rename_i h
    exact iff_of_true rfl ⟨h.1, hall.1 h.2⟩
  · rename_i h
    exact iff_of_false (by simp) fun hbs => h ⟨hbs.1, hall.2 hbs.2⟩

/-- A text of digits has no sign. -/
theorem toInt?_of_toNat? {bs : List UInt8} {n : Nat} (h : toNat? bs = some n) : toInt? bs = some (n : Int) := by
  have hdigits := (toNat?_isSome_iff.1 (by rw [h]; rfl)).2
  unfold toInt?
  split
  · exact absurd (hdigits 45 List.mem_cons_self) (by decide)
  · exact absurd (hdigits 43 List.mem_cons_self) (by decide)
  · rw [h]; rfl

theorem toInt?_ofNat (n : Nat) : toInt? (ofNat n) = some (n : Int) := toInt?_of_toNat? (toNat?_ofNat n)

theorem toInt?_ofInt : ∀ n : Int, toInt? (ofInt n) = some n
  | .ofNat n => toInt?_ofNat n
  | .negSucc n => by
    rw [ofInt, toInt?, toNat?_ofNat]
    rfl

theorem ofInt_injective : Function.Injective ofInt := by
  intro m n h
  have hread := toInt?_ofInt m
  rw [h, toInt?_ofInt] at hread
  exact (Option.some.inj hread).symm

end Decimal
