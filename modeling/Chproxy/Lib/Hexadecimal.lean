/-
Natural numbers in upper-case hexadecimal, padded with zeros to a width: reading the digits gives the
number back, so two numbers are never written alike.
-/
import Mathlib.Data.Nat.Digits.Defs

namespace Hexadecimal

/-- `%0wX`. -/
def upper (width n : Nat) : List Char :=
  let digits := (Nat.toDigits 16 n).map Char.toUpper
  List.replicate (width - digits.length) '0' ++ digits

/-- The value of an upper-case digit. -/
def digitValue (c : Char) : Nat := if c.toNat < 65 then c.toNat - 48 else c.toNat - 55

/-- The number that digits denote after a number read so far. -/
def value (n : Nat) (cs : List Char) : Nat := cs.foldl (fun v c => 16 * v + digitValue c) n

theorem value_append (n : Nat) (cs ds : List Char) : value n (cs ++ ds) = value (value n cs) ds :=
  List.foldl_append

theorem digitValue_digitChar : ∀ d < 16, digitValue d.digitChar.toUpper = d := by decide

theorem value_toDigits (n : Nat) : value 0 ((Nat.toDigits 16 n).map Char.toUpper) = n := by
  induction n using Nat.strong_induction_on with
  | _ n ih =>
    rw [Nat.toDigits_eq_if (by omega)]
    split
    · rename_i hlt
      rw [List.map_singleton]
      exact (Nat.zero_add _).trans (digitValue_digitChar n hlt)
    · rename_i hge
      rw [List.map_append, value_append, ih (n / 16) (by omega), List.map_singleton]
      show 16 * (n / 16) + digitValue (n % 16).digitChar.toUpper = n
      rw [digitValue_digitChar _ (Nat.mod_lt _ (by omega))]
      exact Nat.div_add_mod n 16

theorem value_zeros (k : Nat) : value 0 (List.replicate k '0') = 0 := by
  induction k with
  | zero => rfl
  | succ k ih =>
    rw [List.replicate_succ', value_append, ih]
    rfl

theorem value_upper (width n : Nat) : value 0 (upper width n) = n := by
  unfold upper
  rw [value_append, value_zeros, value_toDigits]

theorem upper_injective (width : Nat) : Function.Injective (upper width) := by
  intro m n h
  rw [← value_upper width m, h, value_upper]

end Hexadecimal
