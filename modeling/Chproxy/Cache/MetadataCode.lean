/-
The metadata at the beginning of a Redis value as a code (`cache/redis_cache.go`): what `decodeMetadata` does
on bytes that no `encodeMetadata` wrote, and that the two are inverse to each other.
-/
import Chproxy.Cache.Metadata
import Chproxy.Lib.Fallible

namespace Chproxy.Cache

open Utils

/-! ## One string -/

/-- The length that stands before the string at `i`. -/
def lengthAt (b : Bytes) (i : Nat) : Nat := BigEndian.decode ((b.drop i).take 4)

theorem lengthAt_lt {b : Bytes} {i : Nat} (h : i + 4 ≤ b.length) : lengthAt b i < 2 ^ 32 := by
  have hlen : ((b.drop i).take 4).length = 4 := List.length_take_of_le (by rw [List.length_drop]; omega)
  have hlt := BigEndian.decode_lt ((b.drop i).take 4)
  rw [hlen] at hlt
  exact hlt

section

variable {b : Bytes} {i : Nat}

theorem decodeString_short (h : b.length < i + 4) : decodeString (b.drop i) = .error .corruption := by
  rw [decodeString, if_pos (by rw [List.length_drop]; omega)]

/-- `decodeString` once it has read the length. -/
theorem decodeString_drop (h : i + 4 ≤ b.length) :
    decodeString (b.drop i) =
      if b.length - i < (4 + lengthAt b i) % 2 ^ 32 then .error .corruption
      else if (4 + lengthAt b i) % 2 ^ 32 < 4 then .error .outOfRange
      else .ok (((b.drop i).take ((4 + lengthAt b i) % 2 ^ 32)).drop 4, (4 + lengthAt b i) % 2 ^ 32) := by
  have hlen : (b.drop i).length = b.length - i := List.length_drop
  unfold decodeString
  rw [if_neg (by omega), hlen]
  rfl

/-- `4 + n` overflows to less than 4, and `bytes[4 : 4+n]` ends before it starts. -/
theorem decodeString_overflow (h : i + 4 ≤ b.length) (hn : 2 ^ 32 - 4 ≤ lengthAt b i) :
    decodeString (b.drop i) = .error .outOfRange := by
  have hlt := lengthAt_lt h
  have hstop : (4 + lengthAt b i) % 2 ^ 32 < 4 := by omega
  rw [decodeString_drop h, if_neg (by omega), if_pos hstop]

theorem decodeString_cut (h : i + 4 ≤ b.length) (hn : lengthAt b i < 2 ^ 32 - 4)
    (hcut : b.length < i + 4 + lengthAt b i) : decodeString (b.drop i) = .error .corruption := by
  rw [decodeString_drop h, Nat.mod_eq_of_lt (by omega), if_pos (by omega)]

theorem decodeString_whole (hn : lengthAt b i < 2 ^ 32 - 4) (hwhole : i + 4 + lengthAt b i ≤ b.length) :
    decodeString (b.drop i) = .ok ((b.take (i + 4 + lengthAt b i)).drop (i + 4), 4 + lengthAt b i) := by
  have hslice : ((b.drop i).take (4 + lengthAt b i)).drop 4 = (b.take (i + 4 + lengthAt b i)).drop (i + 4) := by
    rw [List.take_drop, List.drop_drop, Nat.add_assoc]
  rw [decodeString_drop (by omega), Nat.mod_eq_of_lt (by omega), if_neg (by omega), if_neg (by omega), hslice]

end

/-! ## Corrupted metadata -/

/-- No length that is read is so large that the sum with its own four bytes overflows a `uint32`. -/
def LengthsFit (b : Bytes) : Prop :=
  12 ≤ b.length → lengthAt b 8 < 2 ^ 32 - 4 ∧
    (16 + lengthAt b 8 ≤ b.length → lengthAt b (12 + lengthAt b 8) < 2 ^ 32 - 4)

instance (b : Bytes) : Decidable (LengthsFit b) := inferInstanceAs (Decidable (_ → _))

/-- A `RedisCacheCorruptionError`, or metadata whose strings are the slices of `b` after their lengths and
an offset within `b`. -/
def Orderly (b : Bytes) : Except DecodeError (ContentMetadata × Nat) → Prop
  | .error e => e = .corruption
  | .ok (m, offset) => 16 ≤ offset ∧ offset ≤ b.length ∧ m.type = (b.take (12 + lengthAt b 8)).drop 12 ∧
      m.encoding = (b.take offset).drop (16 + lengthAt b 8)

section

variable {b : Bytes}

/-- When the first string is whole, the second one decides. -/
theorem decodeMetadata_whole (hn : lengthAt b 8 < 2 ^ 32 - 4) (hwhole : 12 + lengthAt b 8 ≤ b.length) :
    decodeMetadata b = (decodeString (b.drop (12 + lengthAt b 8))).map fun res =>
      (⟨Int.bmod (BigEndian.decode (b.take 8)) (2 ^ 64), (b.take (12 + lengthAt b 8)).drop 12, res.1⟩,
        12 + lengthAt b 8 + res.2) := by
  have hoffset : 8 + (4 + lengthAt b 8) = 12 + lengthAt b 8 := by omega
  unfold decodeMetadata
  rw [if_neg (by omega), decodeString_whole hn hwhole]
  simp only [bind, Except.bind, hoffset]
  cases decodeString (b.drop (12 + lengthAt b 8)) <;> rfl

theorem decodeMetadata_eq_error (h : 8 ≤ b.length) {e : DecodeError} (he : decodeString (b.drop 8) = .error e) :
    decodeMetadata b = .error e := by
  unfold decodeMetadata
  rw [if_neg (by omega), he]
  rfl

end

/-- `decodeMetadata` returns a corruption error or metadata within the bytes exactly when no length it reads
is one of the last four `uint32` values; otherwise a slice expression is out of range. -/
theorem decodeMetadata_orderly_iff (b : Bytes) : Orderly b (decodeMetadata b) ↔ LengthsFit b := by
  by_cases h8 : b.length < 8
  · rw [decodeMetadata, if_pos h8]
    exact iff_of_true rfl fun h => by omega
  by_cases h12 : b.length < 12
  · rw [decodeMetadata_eq_error (by omega) (decodeString_short (by omega))]
    exact iff_of_true rfl fun h => by omega
  -- from here on the first length is read
  by_cases hn : 2 ^ 32 - 4 ≤ lengthAt b 8
  · rw [decodeMetadata_eq_error (by omega) (decodeString_overflow (by omega) hn)]
    refine iff_of_false nofun fun h => ?_
    have := (h (by omega)).1
    omega
  by_cases hcut : b.length < 12 + lengthAt b 8
  · rw [decodeMetadata_eq_error (by omega) (decodeString_cut (by omega) (by omega) (by omega))]
    exact iff_of_true rfl fun _ => ⟨by omega, fun _ => by omega⟩
  rw [decodeMetadata_whole (by omega) (by omega)]
  by_cases h16 : b.length < 16 + lengthAt b 8
  · rw [decodeString_short (by omega)]
    exact iff_of_true rfl fun _ => ⟨by omega, fun _ => by omega⟩
  -- and here the second one
  by_cases hn' : 2 ^ 32 - 4 ≤ lengthAt b (12 + lengthAt b 8)
  · rw [decodeString_overflow (by omega) hn']
    refine iff_of_false nofun fun h => ?_
    have := (h (by omega)).2 (by omega)
    omega
  refine iff_of_true ?_ fun _ => ⟨by omega, fun _ => by omega⟩
  by_cases hcut' : b.length < 16 + lengthAt b 8 + lengthAt b (12 + lengthAt b 8)
  · rw [decodeString_cut (by omega) (by omega) (by omega)]
    rfl
  · rw [decodeString_whole (by omega) (by omega)]
    refine ⟨?_, ?_, rfl, ?_⟩
    · omega
    · omega
    · have hstart : 12 + lengthAt b 8 + 4 = 16 + lengthAt b 8 := by omega
      show (b.take (12 + lengthAt b 8 + 4 + lengthAt b (12 + lengthAt b 8))).drop (12 + lengthAt b 8 + 4) = _
      rw [Nat.add_assoc (12 + lengthAt b 8), hstart]

/-- A length of `2^32 - 4`, that is four bytes `ff ff ff fc`, before an empty string. -/
def overflowing : Bytes := List.replicate 8 0 ++ [255, 255, 255, 252]

theorem overflowing_panics : decodeMetadata overflowing = .error .outOfRange ∧
    ¬Orderly overflowing (decodeMetadata overflowing) := by
  have h : decodeMetadata overflowing = .error .outOfRange := by decide
  refine ⟨h, ?_⟩
  rw [h]
  exact nofun

/-! ## The code -/

theorem decodeString_eq_ok {b s : Bytes} {i n : Nat} (h : decodeString (b.drop i) = .ok (s, n)) :
    lengthAt b i < 2 ^ 32 - 4 ∧ i + 4 + lengthAt b i ≤ b.length ∧
      s = (b.take (i + 4 + lengthAt b i)).drop (i + 4) ∧ n = 4 + lengthAt b i := by
  by_cases h4 : b.length < i + 4
  · rw [decodeString_short h4] at h
    cases h
  by_cases hn : 2 ^ 32 - 4 ≤ lengthAt b i
  · rw [decodeString_overflow (by omega) hn] at h
    cases h
  by_cases hcut : b.length < i + 4 + lengthAt b i
  · rw [decodeString_cut (by omega) (by omega) hcut] at h
    cases h
  · rw [decodeString_whole (by omega) (by omega)] at h
    cases h
    exact ⟨by omega, by omega, rfl, rfl⟩

/-- What was decoded as a string is the encoding of that string. -/
theorem encodeString_of_decodeString {b s : Bytes} {i n : Nat} (h : decodeString (b.drop i) = .ok (s, n)) :
    i + n ≤ b.length ∧ b.take (i + n) = b.take i ++ encodeString s := by
  obtain ⟨hn, hwhole, rfl, rfl⟩ := decodeString_eq_ok h
  have hlen : ((b.take (i + 4 + lengthAt b i)).drop (i + 4)).length = lengthAt b i := by
    rw [List.length_drop, List.length_take_of_le hwhole]
    omega
  have htake : ((b.drop i).take 4).length = 4 := List.length_take_of_le (by rw [List.length_drop]; omega)
  have hbytes : BigEndian.encode 4 (lengthAt b i) = (b.drop i).take 4 := by
    have := BigEndian.encode_decode ((b.drop i).take 4)
    rwa [htake] at this
  refine ⟨by omega, ?_⟩
  calc b.take (i + (4 + lengthAt b i)) = b.take (i + 4 + lengthAt b i) := by rw [Nat.add_assoc]
    _ = b.take (i + 4) ++ (b.take (i + 4 + lengthAt b i)).drop (i + 4) := by
      have hsplit := (List.take_append_drop (i + 4) (b.take (i + 4 + lengthAt b i))).symm
      rwa [List.take_take, Nat.min_eq_left (by omega)] at hsplit
    _ = b.take i ++ ((b.drop i).take 4 ++ (b.take (i + 4 + lengthAt b i)).drop (i + 4)) := by
      rw [List.take_add, List.append_assoc]
    _ = b.take i ++ encodeString ((b.take (i + 4 + lengthAt b i)).drop (i + 4)) := by
      rw [encodeString, lengthPrefixed, hlen, hbytes]

/-- The eight bytes of a length that was read as a signed number are those of that number. -/
theorem encode_bmod {bs : Bytes} (h : bs.length = 8) :
    BigEndian.encode 8 (Int.bmod (BigEndian.decode bs) (2 ^ 64) % 2 ^ 64).toNat = bs := by
  have hlt := BigEndian.decode_lt bs
  have henc := BigEndian.encode_decode bs
  rw [h] at hlt henc
  have hres : (Int.bmod (BigEndian.decode bs) (2 ^ 64) % 2 ^ 64).toNat = BigEndian.decode bs := by
    rw [show (2 ^ 64 : Int) = ((2 ^ 64 : Nat) : Int) from rfl, Int.bmod_emod]
    omega
  rw [hres, henc]

/-- What a successful `decodeMetadata` consists of. -/
theorem decodeMetadata_eq_ok {b : Bytes} {m : ContentMetadata} {offset : Nat}
    (h : decodeMetadata b = .ok (m, offset)) :
    8 ≤ b.length ∧ m.length = Int.bmod (BigEndian.decode (b.take 8)) (2 ^ 64) ∧
      ∃ sizeCType sizeCEncoding, decodeString (b.drop 8) = .ok (m.type, sizeCType) ∧
        decodeString (b.drop (8 + sizeCType)) = .ok (m.encoding, sizeCEncoding) ∧
        offset = 8 + sizeCType + sizeCEncoding := by
  unfold decodeMetadata at h
  split at h
  · cases h
  rename_i h8
  obtain ⟨⟨cType, sizeCType⟩, htype, h⟩ := Fallible.bind_ok h
  obtain ⟨⟨cEncoding, sizeCEncoding⟩, hencoding, h⟩ := Fallible.bind_ok h
  obtain ⟨rfl, rfl⟩ := Prod.mk.inj (Except.ok.inj h)
  refine ⟨by omega, ?_, sizeCType, sizeCEncoding, htype, hencoding, rfl⟩
  simp

theorem encodeMetadata_of_decodeMetadata {b : Bytes} {m : ContentMetadata} {offset : Nat}
    (h : decodeMetadata b = .ok (m, offset)) : offset ≤ b.length ∧ encodeMetadata m = b.take offset := by
  obtain ⟨h8, hlength, sizeCType, sizeCEncoding, htype, hencoding, rfl⟩ := decodeMetadata_eq_ok h
  obtain ⟨-, htake⟩ := encodeString_of_decodeString htype
  obtain ⟨hle, htake'⟩ := encodeString_of_decodeString hencoding
  have hnum : BigEndian.encode 8 (m.length % 2 ^ 64).toNat = b.take 8 := by
    rw [hlength]
    exact encode_bmod (List.length_take_of_le h8)
  refine ⟨hle, ?_⟩
  rw [encodeMetadata, hnum, htake', htake]

/-- Whatever is decoded can be encoded. -/
theorem encodable_of_decodeMetadata {b : Bytes} {m : ContentMetadata} {offset : Nat}
    (h : decodeMetadata b = .ok (m, offset)) : m.Encodable := by
  obtain ⟨-, hlength, sizeCType, sizeCEncoding, htype, hencoding, -⟩ := decodeMetadata_eq_ok h
  obtain ⟨hn, hwhole, htype, -⟩ := decodeString_eq_ok htype
  obtain ⟨hn', hwhole', hencoding, -⟩ := decodeString_eq_ok hencoding
  have hge := @Int.le_bmod (BigEndian.decode (b.take 8)) (2 ^ 64) (by decide)
  have hlt := @Int.bmod_lt (BigEndian.decode (b.take 8)) (2 ^ 64) (by decide)
  refine ⟨?_, ?_, by omega, by omega⟩
  · rw [htype, List.length_drop, List.length_take_of_le hwhole]
    omega
  · rw [hencoding, List.length_drop, List.length_take_of_le hwhole']
    omega

/-- The metadata are a faithful self-delimiting code: what was encoded is read back, with the number of bytes
it takes, whatever follows; whatever is read is the encoding of what it is read as; and no encoding is a
proper beginning of another. -/
theorem metadata_self_delimiting :
    (∀ (m : ContentMetadata) (rest : Bytes), m.Encodable →
      decodeMetadata (encodeMetadata m ++ rest) = .ok (m, (encodeMetadata m).length)) ∧
    (∀ (b : Bytes) (m : ContentMetadata) (offset : Nat), decodeMetadata b = .ok (m, offset) →
      offset ≤ b.length ∧ encodeMetadata m = b.take offset) ∧
    ∀ m m' : ContentMetadata, m.Encodable → m'.Encodable → encodeMetadata m <+: encodeMetadata m' →
      encodeMetadata m = encodeMetadata m' := by
  refine ⟨fun m rest hm => decodeMetadata_encodeMetadata hm rest,
    fun b m offset h => encodeMetadata_of_decodeMetadata h, fun m m' hm hm' hle => ?_⟩
  obtain ⟨rest, hrest⟩ := hle
  have hdecode := decodeMetadata_encodeMetadata hm' []
  rw [List.append_nil, ← hrest, decodeMetadata_encodeMetadata hm rest] at hdecode
  obtain ⟨rfl, -⟩ := Prod.mk.inj (Except.ok.inj hdecode)
  rfl

/-- A negative length, which no `Put` of the proxy writes, comes back as it was. -/
theorem metadata_self_delimiting_negative :
    decodeMetadata (encodeMetadata ⟨-1, bytes "text/plain", []⟩ ++ bytes "rest") =
      .ok (⟨-1, bytes "text/plain", []⟩, (encodeMetadata ⟨-1, bytes "text/plain", []⟩).length) :=
  metadata_self_delimiting.1 _ _ ⟨by decide, by decide, by decide, by decide⟩

end Chproxy.Cache
