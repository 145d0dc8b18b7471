/-
Little-endian numbers of a fixed number of bytes.
-/
import Mathlib.Algebra.Order.Group.Nat
import Mathlib.Tactic.Ring

namespace LittleEndian

/-- The lowest `k` bytes of `n`, the lowest first. -/
def encode : Nat → Nat → List UInt8
  | 0, _ => []
  | k + 1, n => UInt8.ofNat n :: encode k (n / 256)

def decode : List UInt8 → Nat
  | [] => 0
  | b :: bs => b.toNat + 256 * decode bs

@[simp] theorem length_encode : ∀ k n, (encode k n).length = k
  | 0, _ => rfl
  | k + 1, n => by rw [encode, List.length_cons, length_encode k]

theorem decode_lt : ∀ bs : List UInt8, decode bs < 256 ^ bs.length
  | [] => by simp [decode]
  | b :: bs => by
    have hb := b.toNat_lt
    have ih := decode_lt bs
    rw [decode, List.length_cons, Nat.pow_succ]
    omega

theorem decode_encode : ∀ {k n : Nat}, n < 256 ^ k → decode (encode k n) = n
  | 0, n, h => by
    rw [Nat.pow_zero] at h
    rw [encode, decode]
    omega
  | k + 1, n, h => by
    have hdiv : n / 256 < 256 ^ k := by rw [Nat.div_lt_iff_lt_mul (by omega), ← Nat.pow_succ]; exact h
    have hbyte : (UInt8.ofNat n).toNat = n % 256 := rfl
    rw [encode, decode, decode_encode hdiv, hbyte]
    omega

end LittleEndian
