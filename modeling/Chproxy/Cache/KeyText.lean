/-
`Key.String` (`cache/key.go`): the text of a key determines its fields, and the name made of its digest is
one that the cleaner (`cache/filesystem_cache.go`) takes for a cache file.
-/
import Chproxy.Cache.Backends
import Chproxy.Lib.Format

namespace Chproxy.Cache

open Utils

/-! ## The text of a key -/

/-- `cache.Key`, over arbitrary Go strings and any integers. -/
structure RawKey where
  query : Bytes
  acceptEncoding : Bytes
  defaultFormat : Bytes
  database : Bytes
  compress : Bytes
  enableHTTPCompression : Bytes
  cacheNamespace : Bytes
  maxResultRows : Bytes
  extremes : Bytes
  resultOverflowMode : Bytes
  userParamsHash : Int
  version : Int
  queryParamsHash : Int
  userCredentialHash : Int
  deriving DecidableEq, Repr

/-- The format of `Key.String`, cut behind its separators. -/
def keyFormat : Bytes :=
  ["V%d; ", "Query=%q; ", "AcceptEncoding=%q; ", "DefaultFormat=%q; ", "Database=%q; ", "Compress=%q; ",
    "EnableHTTPCompression=%q; ", "Namespace=%q; ", "MaxResultRows=%q; ", "Extremes=%q; ", "ResultOverflowMode=%q; ",
    "UserParams=%d; ", "QueryParams=%d; ", "UserCredentialHash=%d"].flatMap bytes

namespace RawKey

/-- The arguments of `fmt.Sprintf` in `Key.String`. -/
def args (k : RawKey) : List Format.Arg :=
  [.int k.version, .str k.query, .str k.acceptEncoding, .str k.defaultFormat, .str k.database, .str k.compress,
    .str k.enableHTTPCompression, .str k.cacheNamespace, .str k.maxResultRows, .str k.extremes,
    .str k.resultOverflowMode, .int k.userParamsHash, .int k.queryParamsHash, .int k.userCredentialHash]

/-- What `Key.String` hashes. Every verb has its argument, so the default is not used. -/
def text (q : Format.Quoting) (k : RawKey) : Bytes := (Format.sprintf q keyFormat k.args).getD []

theorem args_injective : Function.Injective args := by
  intro k₁ k₂ h
  cases k₁
  cases k₂
  simp only [args, List.cons.injEq, Format.Arg.int.injEq, Format.Arg.str.injEq] at h
  simp only [mk.injEq]
  tauto

theorem sprintf_args (q : Format.Quoting) (k : RawKey) : Format.sprintf q keyFormat k.args = some (k.text q) := by
  have hverbs : (Format.pieces keyFormat).verbs.map Prod.fst =
      [.d, .q, .q, .q, .q, .q, .q, .q, .q, .q, .q, .d, .d, .d] := by decide +kernel
  have hsome : (Format.sprintf q keyFormat k.args).isSome := Format.sprintf_isSome q hverbs
  obtain ⟨t, ht⟩ := Option.isSome_iff_exists.1 hsome
  rw [text, ht]
  rfl

/-- A number is followed by a semicolon, or it is the last one. -/
theorem keyFormat_separating : Format.Separating (Format.pieces keyFormat).verbs = true := by
  decide +kernel

theorem text_injective (q : Format.Quoting) : Function.Injective (text q) := by
  intro k₁ k₂ h
  have h₁ := sprintf_args q k₁
  rw [h] at h₁
  exact args_injective (Format.sprintf_injective keyFormat_separating h₁ (sprintf_args q k₂))

end RawKey

/-! ## The name of a cache file -/

/-- `sha256.Sum256`. -/
structure Digest where
  sum : Bytes → Bytes
  length_sum : ∀ s, (sum s).length = 32

/-- A digit of `hex.EncodeToString`. -/
def hexDigit (n : Nat) : Char := "0123456789abcdef".toList.getD n '0'

def encodeToString (bs : Bytes) : String :=
  String.ofList (bs.flatMap fun b => [hexDigit (b.toNat / 16), hexDigit (b.toNat % 16)])

/-- `^[0-9a-f]{32}$`. -/
def cachefileRegexp (name : String) : Bool :=
  name.length == 32 && name.toList.all fun c => c.isDigit || (97 ≤ c.toNat && c.toNat ≤ 102)

/-- `Key.String`. -/
def RawKey.string (q : Format.Quoting) (sha256 : Digest) (k : RawKey) : String :=
  encodeToString ((sha256.sum (k.text q)).take 16)

theorem hexDigit_lower {n : Nat} (h : n < 16) :
    ((hexDigit n).isDigit || (97 ≤ (hexDigit n).toNat && (hexDigit n).toNat ≤ 102)) = true := by
  have hall : ∀ i : Fin 16, ((hexDigit i).isDigit || (97 ≤ (hexDigit i).toNat && (hexDigit i).toNat ≤ 102)) = true := by
    decide
  exact hall ⟨n, h⟩

/-- Two digits for every byte. -/
theorem cachefileRegexp_encodeToString {bs : Bytes} (h : bs.length = 16) :
    cachefileRegexp (encodeToString bs) = true := by
  simp only [cachefileRegexp, encodeToString, Bool.and_eq_true, beq_iff_eq]
  constructor
  · simp [List.length_flatMap, List.map_const', h]
  · rw [String.toList_ofList, List.all_eq_true]
    intro c hc
    obtain ⟨b, -, hc⟩ := List.mem_flatMap.1 hc
    have hb := b.toNat_lt
    simp only [List.mem_cons, List.not_mem_nil, or_false] at hc
    rcases hc with rfl | rfl
    · exact hexDigit_lower (by omega)
    · exact hexDigit_lower (by omega)

theorem RawKey.length_digest (q : Format.Quoting) (sha256 : Digest) (k : RawKey) :
    ((sha256.sum (k.text q)).take 16).length = 16 := by
  rw [List.length_take, sha256.length_sum]
  rfl

/-- The formatted texts of two keys are equal only if the keys are, field by field, and the name of a key
is one of a cache file. -/
theorem key_text_injective (q : Format.Quoting) (sha256 : Digest) (k₁ k₂ : RawKey) :
    (k₁.text q = k₂.text q → k₁ = k₂) ∧ cachefileRegexp (k₁.string q sha256) = true := by
  constructor
  · intro h
    exact RawKey.text_injective q h
  · exact cachefileRegexp_encodeToString (k₁.length_digest q sha256)

/-- A key of a database and `compress`. -/
def databaseKey (database compress : String) : RawKey :=
  ⟨bytes "SELECT 1", [], [], bytes database, bytes compress, [], [], [], [], [], 0, 5, 0, 0⟩

/-- SHA-256 on the text of one such key, the only one that is hashed here. -/
def databaseDigest : Digest where
  sum s :=
    if s = (databaseKey "a" "b").text Format.plainQuoting then
      [0xb5, 0x80, 0x95, 0x23, 0xac, 0xcc, 0x70, 0x00, 0xc8, 0x76, 0x64, 0xd2, 0x22, 0x1d, 0x10, 0x57,
        0x89, 0xfe, 0x99, 0x7d, 0xd5, 0x1c, 0x6f, 0x71, 0x5c, 0xe0, 0x61, 0x5f, 0x09, 0x85, 0xa6, 0x07]
    else List.replicate 32 0
  length_sum s := by split <;> rfl

/-- A database that reads like the field after it. -/
theorem key_text_injective_database :
    (databaseKey "a\"; Compress=\"b" "").text Format.plainQuoting ≠ (databaseKey "a" "b").text Format.plainQuoting ∧
    (databaseKey "a" "b").string Format.plainQuoting databaseDigest = "b5809523accc7000c87664d2221d1057" ∧
    cachefileRegexp "b5809523accc7000c87664d2221d1057" = true := by
  have hname :
      (databaseKey "a" "b").string Format.plainQuoting databaseDigest = "b5809523accc7000c87664d2221d1057" := by
    unfold RawKey.string databaseDigest
    dsimp only
    rw [if_pos rfl]
    decide
  refine ⟨fun h => ?_, hname, ?_⟩
  · have hkeys := (key_text_injective Format.plainQuoting databaseDigest _ _).1 h
    exact absurd hkeys (by decide)
  · rw [← hname]
    exact (key_text_injective _ _ (databaseKey "a" "b") (databaseKey "a" "b")).2

/-- The name of a key in the caches. -/
def RawKey.keyString (q : Format.Quoting) (sha256 : Digest) (k : RawKey) : KeyString where
  text := k.string q sha256
  length_eq := by
    have h := cachefileRegexp_encodeToString (k.length_digest q sha256)
    simp only [cachefileRegexp, Bool.and_eq_true, beq_iff_eq] at h
    exact h.1
  hex := by
    have h := cachefileRegexp_encodeToString (k.length_digest q sha256)
    simp only [cachefileRegexp, Bool.and_eq_true, beq_iff_eq] at h
    exact h.2

end Chproxy.Cache
