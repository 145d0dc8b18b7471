/-
The metadata of a cached response and its two encodings: the header of a cache file
(`cache/filesystem_cache.go`) and the beginning of a Redis value (`cache/redis_cache.go`).
-/
import Chproxy.Lib.BigEndian
import Chproxy.Lib.Decimal
import Chproxy.Utils.QueryText

namespace Chproxy.Cache

open Utils

/-- `ContentMetadata`. -/
structure ContentMetadata where
  length : Int
  type : Bytes
  encoding : Bytes
  deriving DecidableEq, Repr

/-- A string after its length, which is a `uint32`. -/
def lengthPrefixed (s : Bytes) : Bytes := BigEndian.encode 4 s.length ++ s

theorem length_lengthPrefixed (s : Bytes) : (lengthPrefixed s).length = 4 + s.length := by
  simp [lengthPrefixed]

theorem decode_take_lengthPrefixed {s : Bytes} (hs : s.length < 2 ^ 32) (rest : Bytes) :
    BigEndian.decode ((lengthPrefixed s ++ rest).take 4) = s.length := by
  rw [lengthPrefixed, List.append_assoc, List.take_left' (BigEndian.length_encode _ _)]
  exact BigEndian.decode_encode (by simpa using hs)

theorem drop_lengthPrefixed (s rest : Bytes) : (lengthPrefixed s ++ rest).drop 4 = s ++ rest := by
  rw [lengthPrefixed, List.append_assoc, List.drop_left' (BigEndian.length_encode _ _)]

/-! ## The header of a file -/

inductive HeaderField
  | type
  | encoding
  | length
  deriving DecidableEq, Repr

/-- Why a header cannot be read: the field, and the part of it that is cut off. -/
inductive HeaderError
  | cannotReadLength (field : HeaderField)
  | cannotReadValue (field : HeaderField) (n : Nat)
  deriving DecidableEq, Repr

/-- What `writeHeader` writes. -/
def writeHeader (s : Bytes) : Bytes := lengthPrefixed s

/-- `readHeader` on what is left of a file: the string and what is left after it. -/
def readHeader (field : HeaderField) (b : Bytes) : Except HeaderError (Bytes × Bytes) :=
  if b.length < 4 then .error (.cannotReadLength field)
  else
    let n := BigEndian.decode (b.take 4)
    if (b.drop 4).length < n then .error (.cannotReadValue field n)
    else .ok ((b.drop 4).take n, (b.drop 4).drop n)

/-- `strconv.Atoi`, which gives an `int`. -/
def atoi (s : Bytes) : Option Int :=
  (Decimal.toInt? s).filter fun n => decide (-9223372036854775808 ≤ n ∧ n ≤ 9223372036854775807)

/-- `decodeHeader`: the metadata and what is left of the file. A length that is not a number counts
as 0. -/
def decodeHeader (b : Bytes) : Except HeaderError (ContentMetadata × Bytes) := do
  let (contentType, b) ← readHeader .type b
  let (contentEncoding, b) ← readHeader .encoding b
  let (contentLengthStr, b) ← readHeader .length b
  return (⟨(atoi contentLengthStr).getD 0, contentType, contentEncoding⟩, b)

/-- The writes of `Put` before the payload. -/
def fileHeader (m : ContentMetadata) : List Bytes :=
  [writeHeader m.type, writeHeader m.encoding, writeHeader (Decimal.ofInt m.length)]

theorem readHeader_writeHeader (field : HeaderField) {s : Bytes} (hs : s.length < 2 ^ 32) (rest : Bytes) :
    readHeader field (writeHeader s ++ rest) = .ok (s, rest) := by
  have hlen : ¬(writeHeader s ++ rest).length < 4 := by
    rw [writeHeader, List.length_append, length_lengthPrefixed]; omega
  unfold readHeader
  rw [if_neg hlen, writeHeader, decode_take_lengthPrefixed hs, drop_lengthPrefixed]
  simp

/-- Metadata that either back end can store: the strings with their lengths stay below the range of
`uint32`, and the length is an `int64`. -/
structure ContentMetadata.Storable (m : ContentMetadata) : Prop where
  type_lt : 4 + m.type.length < 2 ^ 32
  encoding_lt : 4 + m.encoding.length < 2 ^ 32
  length_ge : 0 ≤ m.length
  length_lt : m.length < 2 ^ 63

/-- Metadata that the header of a file can hold: the lengths of the strings are `uint32`, and the length is
any `int64`. -/
structure ContentMetadata.Writable (m : ContentMetadata) : Prop where
  type_lt : m.type.length < 2 ^ 32
  encoding_lt : m.encoding.length < 2 ^ 32
  length_ge : -2 ^ 63 ≤ m.length
  length_lt : m.length < 2 ^ 63

theorem ContentMetadata.Storable.writable {m : ContentMetadata} (hm : m.Storable) : m.Writable :=
  ⟨by have := hm.type_lt; omega, by have := hm.encoding_lt; omega, by have := hm.length_ge; omega, hm.length_lt⟩

theorem length_ofNat_le {n : Nat} (h : n ≤ 2 ^ 63) : (Decimal.ofNat n).length ≤ 19 := by
  have hlen : (Decimal.ofNat n).length = (Nat.toDigits 10 n).length := by simp [Decimal.ofNat, Decimal.ofChars]
  rw [hlen, Nat.length_toDigits_le_iff (by omega) (by omega)]
  omega

/-- The text of an `int64` has at most 20 characters. -/
theorem length_ofInt_lt {n : Int} (h0 : -2 ^ 63 ≤ n) (h1 : n < 2 ^ 63) : (Decimal.ofInt n).length < 2 ^ 32 := by
  cases n with
  | ofNat n =>
    have := length_ofNat_le (n := n) (by rw [Int.ofNat_eq_natCast] at h1; omega)
    rw [Decimal.ofInt]
    omega
  | negSucc n =>
    have := length_ofNat_le (n := n + 1) (by omega)
    rw [Decimal.ofInt, List.length_cons]
    omega

theorem decodeHeader_fileHeader {m : ContentMetadata} (hm : m.Writable) (rest : Bytes) :
    decodeHeader ((fileHeader m).flatten ++ rest) = .ok (m, rest) := by
  have hdec := length_ofInt_lt hm.length_ge hm.length_lt
  have hatoi : atoi (Decimal.ofInt m.length) = some m.length := by
    rw [atoi, Decimal.toInt?_ofInt, Option.filter_some, if_pos]
    exact decide_eq_true ⟨by have := hm.length_ge; omega, by have := hm.length_lt; omega⟩
  simp only [fileHeader, List.flatten_cons, List.flatten_nil, List.append_nil, List.append_assoc]
  simp only [decodeHeader, readHeader_writeHeader _ hm.type_lt, readHeader_writeHeader _ hm.encoding_lt,
    readHeader_writeHeader _ hdec, hatoi, bind, Except.bind, pure, Except.pure, Option.getD_some]

/-- A field that is cut off is found to be so, and one that is whole is read, whatever is missing after it. -/
theorem readHeader_take (field : HeaderField) {s : Bytes} (hs : s.length < 2 ^ 32) (rest : Bytes) (n : Nat) :
    (n < 4 + s.length ∧ ∃ e, readHeader field ((writeHeader s ++ rest).take n) = .error e) ∨
    (4 + s.length ≤ n ∧
      readHeader field ((writeHeader s ++ rest).take n) = .ok (s, rest.take (n - (4 + s.length)))) := by
  by_cases hcut : n < 4 + s.length
  · refine .inl ⟨hcut, ?_⟩
    have hlen : ((writeHeader s ++ rest).take n).length ≤ n := List.length_take_le _ _
    unfold readHeader
    by_cases h4 : ((writeHeader s ++ rest).take n).length < 4
    · exact ⟨_, if_pos h4⟩
    · have hdec : BigEndian.decode (((writeHeader s ++ rest).take n).take 4) = s.length := by
        rw [List.take_take, Nat.min_eq_left (by omega)]
        exact decode_take_lengthPrefixed hs rest
      rw [if_neg h4]
      simp only [hdec]
      exact ⟨_, if_pos (by rw [List.length_drop]; omega)⟩
  · have hwhole : (writeHeader s ++ rest).take n = writeHeader s ++ rest.take (n - (4 + s.length)) := by
      rw [List.take_append, writeHeader, length_lengthPrefixed, List.take_of_length_le]
      rw [length_lengthPrefixed]
      omega
    exact .inr ⟨by omega, by rw [hwhole, readHeader_writeHeader field hs]⟩

/-- No proper beginning of a header is decoded. -/
theorem decodeHeader_take {m : ContentMetadata} (hm : m.Writable) {n : Nat} (hn : n < (fileHeader m).flatten.length) :
    ∃ e, decodeHeader ((fileHeader m).flatten.take n) = .error e := by
  have hdec := length_ofInt_lt hm.length_ge hm.length_lt
  simp only [fileHeader, List.flatten_cons, List.flatten_nil, List.append_nil] at hn ⊢
  simp only [List.length_append, writeHeader, length_lengthPrefixed] at hn
  simp only [decodeHeader, bind, Except.bind]
  rcases readHeader_take .type hm.type_lt (writeHeader m.encoding ++ writeHeader (Decimal.ofInt m.length)) n with
    ⟨-, e, he⟩ | ⟨h1, hok⟩
  · exact ⟨e, by rw [he]⟩
  rw [hok]
  dsimp only
  rcases readHeader_take .encoding hm.encoding_lt (writeHeader (Decimal.ofInt m.length)) (n - (4 + m.type.length)) with
    ⟨-, e, he⟩ | ⟨h2, hok⟩
  · exact ⟨e, by rw [he]⟩
  rw [hok]
  dsimp only
  rcases readHeader_take .length hdec [] (n - (4 + m.type.length) - (4 + m.encoding.length)) with
    ⟨-, e, he⟩ | ⟨h3, -⟩
  · rw [List.append_nil] at he
    exact ⟨e, by rw [he]⟩
  · omega

/-! ## The beginning of a Redis value -/

/-- `RedisCacheCorruptionError`, and the panic of a slice whose end is before its start. -/
inductive DecodeError
  | corruption
  | outOfRange
  deriving DecidableEq, Repr

def encodeString (s : Bytes) : Bytes := lengthPrefixed s

/-- `decodeString`: the string and the number of bytes it takes, which is computed as a `uint32`. -/
def decodeString (b : Bytes) : Except DecodeError (Bytes × Nat) :=
  if b.length < 4 then .error .corruption
  else
    let n := BigEndian.decode (b.take 4)
    let stop := (4 + n) % 2 ^ 32
    if b.length < stop then .error .corruption
    else if stop < 4 then .error .outOfRange
    else .ok ((b.take stop).drop 4, stop)

def encodeMetadata (m : ContentMetadata) : Bytes :=
  BigEndian.encode 8 (m.length % 2 ^ 64).toNat ++ encodeString m.type ++ encodeString m.encoding

/-- `decodeMetadata`: the metadata and the offset after it. -/
def decodeMetadata (b : Bytes) : Except DecodeError (ContentMetadata × Nat) :=
  if b.length < 8 then .error .corruption
  else do
    let cLength := BigEndian.decode (b.take 8)
    let (cType, sizeCType) ← decodeString (b.drop 8)
    let (cEncoding, sizeCEncoding) ← decodeString (b.drop (8 + sizeCType))
    return (⟨Int.bmod cLength (2 ^ 64), cType, cEncoding⟩, 8 + sizeCType + sizeCEncoding)

theorem decodeString_encodeString {s : Bytes} (hs : 4 + s.length < 2 ^ 32) (rest : Bytes) :
    decodeString (encodeString s ++ rest) = .ok (s, 4 + s.length) := by
  have hlen : (encodeString s ++ rest).length = 4 + s.length + rest.length := by
    rw [List.length_append, encodeString, length_lengthPrefixed]
  have hdec : BigEndian.decode ((encodeString s ++ rest).take 4) = s.length :=
    decode_take_lengthPrefixed (by omega) rest
  have htake : ((encodeString s ++ rest).take (4 + s.length)).drop 4 = s := by
    rw [encodeString, List.take_left' (length_lengthPrefixed s), lengthPrefixed,
      List.drop_left' (BigEndian.length_encode _ _)]
  unfold decodeString
  rw [if_neg (by omega)]
  simp only [hdec, Nat.mod_eq_of_lt hs]
  rw [if_neg (by omega), if_neg (by omega), htake]

theorem length_encodeMetadata (m : ContentMetadata) :
    (encodeMetadata m).length = 8 + (4 + m.type.length) + (4 + m.encoding.length) := by
  simp only [encodeMetadata, encodeString, List.length_append, BigEndian.length_encode, length_lengthPrefixed]

/-- Metadata of which the encoding can be read back: the strings with their lengths stay below the range of
`uint32`, and the length is any `int64`. -/
structure ContentMetadata.Encodable (m : ContentMetadata) : Prop where
  type_lt : 4 + m.type.length < 2 ^ 32
  encoding_lt : 4 + m.encoding.length < 2 ^ 32
  length_ge : -2 ^ 63 ≤ m.length
  length_lt : m.length < 2 ^ 63

theorem ContentMetadata.Storable.encodable {m : ContentMetadata} (hm : m.Storable) : m.Encodable :=
  ⟨hm.type_lt, hm.encoding_lt, by have := hm.length_ge; omega, hm.length_lt⟩

theorem decodeMetadata_encodeMetadata {m : ContentMetadata} (hm : m.Encodable) (rest : Bytes) :
    decodeMetadata (encodeMetadata m ++ rest) = .ok (m, (encodeMetadata m).length) := by
  have h0 := hm.length_ge
  have h1 := hm.length_lt
  have hlen : (encodeMetadata m ++ rest).length = (encodeMetadata m).length + rest.length := List.length_append
  have hnum : BigEndian.decode ((encodeMetadata m ++ rest).take 8) = (m.length % 2 ^ 64).toNat := by
    rw [encodeMetadata, List.append_assoc, List.append_assoc, List.take_left' (BigEndian.length_encode _ _)]
    exact BigEndian.decode_encode (by omega)
  have htype : (encodeMetadata m ++ rest).drop 8 = encodeString m.type ++ (encodeString m.encoding ++ rest) := by
    rw [encodeMetadata, List.append_assoc, List.append_assoc, List.drop_left' (BigEndian.length_encode _ _)]
  have hencoding : (encodeMetadata m ++ rest).drop (8 + (4 + m.type.length)) = encodeString m.encoding ++ rest := by
    rw [← List.drop_drop, htype]
    exact List.drop_left' (length_lengthPrefixed _)
  -- the eight bytes are the length modulo `2^64`, of which the signed residue is the length itself
  have hmod : Int.bmod ((m.length % 2 ^ 64).toNat : Int) (2 ^ 64) = m.length := by
    rw [Int.toNat_of_nonneg (Int.emod_nonneg _ (by omega)), show (2 ^ 64 : Int) = ((2 ^ 64 : Nat) : Int) from rfl,
      Int.emod_bmod, Int.bmod_eq_of_le] <;> omega
  rw [length_encodeMetadata] at hlen
  unfold decodeMetadata
  rw [if_neg (by omega)]
  simp only [hnum, htype, decodeString_encodeString hm.type_lt, hencoding, decodeString_encodeString hm.encoding_lt,
    hmod, length_encodeMetadata, bind, Except.bind, pure, Except.pure]

/-- A string that is cut off is found to be so. -/
theorem decodeString_take {s : Bytes} (hs : 4 + s.length < 2 ^ 32) (rest : Bytes) {n : Nat} (hn : n < 4 + s.length) :
    decodeString ((encodeString s ++ rest).take n) = .error .corruption := by
  have hlen : ((encodeString s ++ rest).take n).length ≤ n := List.length_take_le _ _
  unfold decodeString
  split
  · rfl
  · have hdec : BigEndian.decode (((encodeString s ++ rest).take n).take 4) = s.length := by
      rw [List.take_take, Nat.min_eq_left (by omega)]
      exact decode_take_lengthPrefixed (by omega) rest
    simp only [hdec, Nat.mod_eq_of_lt hs]
    rw [if_pos (by omega)]

theorem decodeMetadata_take {m : ContentMetadata} (hm : m.Encodable) {n : Nat} (hn : n < (encodeMetadata m).length) :
    decodeMetadata ((encodeMetadata m).take n) = .error .corruption := by
  have hlen : ((encodeMetadata m).take n).length = n := List.length_take_of_le (by omega)
  have htype : ((encodeMetadata m).take n).drop 8 = (encodeString m.type ++ encodeString m.encoding).take (n - 8) := by
    rw [List.drop_take, encodeMetadata, List.append_assoc, List.drop_left' (BigEndian.length_encode _ _)]
  rw [length_encodeMetadata] at hn
  unfold decodeMetadata
  split
  · rfl
  · simp only [htype]
    by_cases hcut : n - 8 < 4 + m.type.length
    · rw [decodeString_take hm.type_lt _ hcut]
      rfl
    · -- the type is whole, so the encoding is cut off
      have hwhole : (encodeString m.type ++ encodeString m.encoding).take (n - 8) =
          encodeString m.type ++ (encodeString m.encoding).take (n - 8 - (4 + m.type.length)) := by
        rw [List.take_append, encodeString, length_lengthPrefixed, List.take_of_length_le]
        rw [length_lengthPrefixed]
        omega
      have hencoding : ((encodeMetadata m).take n).drop (8 + (4 + m.type.length)) =
          (encodeString m.encoding ++ []).take (n - 8 - (4 + m.type.length)) := by
        rw [← List.drop_drop, htype, hwhole, List.append_nil]
        exact List.drop_left' (length_lengthPrefixed _)
      rw [hwhole, decodeString_encodeString hm.type_lt]
      simp only [bind, Except.bind, hencoding]
      rw [decodeString_take hm.encoding_lt _ (by omega)]

end Chproxy.Cache
