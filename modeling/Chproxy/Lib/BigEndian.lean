/-
Big-endian numbers of a fixed number of bytes.
-/
import Mathlib.Algebra.Order.Group.Nat
import Mathlib.Tactic.Ring

namespace BigEndian

/-- The lowest `k` bytes of `n`, the highest first. -/
def encode : Nat → Nat → List UInt8
  | 0, _ => []
  | k + 1, n => UInt8.ofNat (n / 256 ^ k) :: encode k n

def decodeFrom (acc : Nat) : List UInt8 → Nat
  | [] => acc
  | b :: bs => decodeFrom (acc * 256 + b.toNat) bs

def decode (bs : List UInt8) : Nat := decodeFrom 0 bs

@[simp] theorem length_encode : ∀ k n, (encode k n).length = k
  | 0, _ => rfl
  | k + 1, n => by rw [encode, List.length_cons, length_encode k n]

theorem decodeFrom_encode : ∀ (k n acc : Nat), decodeFrom acc (encode k n) = acc * 256 ^ k + n % 256 ^ k
  | 0, n, acc => by simp [encode, decodeFrom, Nat.mod_one]
  | k + 1, n, acc => by
    have hbyte : (UInt8.ofNat (n / 256 ^ k)).toNat = n / 256 ^ k % 256 := rfl
    rw [encode, decodeFrom, decodeFrom_encode k n, hbyte, Nat.pow_succ, Nat.mod_mul]
    ring

theorem decode_encode {k n : Nat} (h : n < 256 ^ k) : decode (encode k n) = n := by
  rw [decode, decodeFrom_encode, Nat.mod_eq_of_lt h, Nat.zero_mul, Nat.zero_add]

theorem decodeFrom_eq : ∀ (bs : List UInt8) (acc : Nat), decodeFrom acc bs = acc * 256 ^ bs.length + decode bs
  | [], acc => by simp [decodeFrom, decode]
  | b :: bs, acc => by
    rw [decode, decodeFrom, decodeFrom, decodeFrom_eq bs, decodeFrom_eq bs (0 * 256 + b.toNat), List.length_cons]
    ring

theorem decode_cons (b : UInt8) (bs : List UInt8) : decode (b :: bs) = b.toNat * 256 ^ bs.length + decode bs := by
  rw [decode, decodeFrom, decodeFrom_eq, Nat.zero_mul, Nat.zero_add]

theorem decode_lt : ∀ bs : List UInt8, decode bs < 256 ^ bs.length
  | [] => by simp [decode, decodeFrom]
  | b :: bs => by
    have hb : b.toNat + 1 ≤ 256 := b.toNat_lt
    calc decode (b :: bs) = b.toNat * 256 ^ bs.length + decode bs := decode_cons b bs
      _ < (b.toNat + 1) * 256 ^ bs.length := by
        rw [Nat.add_mul, Nat.one_mul]
        exact Nat.add_lt_add_left (decode_lt bs) _
      _ ≤ 256 * 256 ^ bs.length := Nat.mul_le_mul_right _ hb
      _ = 256 ^ (b :: bs).length := by rw [List.length_cons, Nat.pow_succ, Nat.mul_comm]

/-- Only the lowest `k` bytes are encoded. -/
theorem encode_mod : ∀ {j k : Nat} (n : Nat), j ≤ k → encode j (n % 256 ^ k) = encode j n
  | 0, _, _, _ => rfl
  | j + 1, k, n, hjk => by
    obtain ⟨d, rfl⟩ := Nat.exists_eq_add_of_lt hjk
    have hhead : UInt8.ofNat (n % 256 ^ (j + d + 1) / 256 ^ j) = UInt8.ofNat (n / 256 ^ j) := by
      rw [← UInt8.toNat_inj]
      show n % 256 ^ (j + d + 1) / 256 ^ j % 256 = n / 256 ^ j % 256
      rw [Nat.add_assoc, Nat.pow_add, Nat.mod_mul_right_div_self, Nat.pow_succ, Nat.mod_mul_left_mod]
    rw [encode, encode, hhead, encode_mod n (by omega)]

theorem encode_decode : ∀ bs : List UInt8, encode bs.length (decode bs) = bs
  | [] => rfl
  | b :: bs => by
    have hlt := decode_lt bs
    have hpos : 0 < 256 ^ bs.length := Nat.pow_pos (by omega)
    have hdiv : (b.toNat * 256 ^ bs.length + decode bs) / 256 ^ bs.length = b.toNat := by
      rw [Nat.mul_comm, Nat.mul_add_div hpos, Nat.div_eq_of_lt hlt, Nat.add_zero]
    have hmod : (b.toNat * 256 ^ bs.length + decode bs) % 256 ^ bs.length = decode bs :=
      Nat.mul_add_mod_of_lt hlt
    rw [decode_cons, List.length_cons, encode, hdiv, ← encode_mod _ (le_refl bs.length), hmod, encode_decode bs]
    simp

end BigEndian
