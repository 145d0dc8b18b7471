/-
The texts that `calcCredentialHash` and `calcMapHash` (`utils.go`) write into the hash, over arbitrary Go
strings: what they determine, and where two different inputs have one text.
-/
import Chproxy.Lib.Utf8
import Chproxy.Utils.QueryText

namespace Chproxy.Utils

theorem bytes_eq_encode (s : String) : bytes s = Utf8.encode s.toList := rfl

theorem bytes_append (s t : String) : bytes (s ++ t) = bytes s ++ bytes t := by
  simp [bytes]

theorem bytes_injective : Function.Injective bytes :=
  fun _ _ h => String.toList_inj.1 (Utf8.encode_injective h)

/-! ## Credentials -/

/-- What `calcCredentialHash` writes into the hash. -/
def credentialText (user pwd : Bytes) : Bytes := user ++ pwd

theorem calcCredentialHash_eq (user pwd : String) :
    calcCredentialHash user pwd = fnv32a (credentialText (bytes user) (bytes pwd)) := by
  rw [calcCredentialHash, hash, bytes_append, credentialText]

/-- The second name is longer than the first one, by a text with which the first password begins and
after which it is the second password. -/
def Shifted (user₁ pwd₁ user₂ pwd₂ : Bytes) : Prop := ∃ w, w ≠ [] ∧ user₂ = user₁ ++ w ∧ pwd₁ = w ++ pwd₂

section Credentials

variable {user₁ pwd₁ user₂ pwd₂ : Bytes}

theorem Shifted.text_eq (h : Shifted user₁ pwd₁ user₂ pwd₂) :
    credentialText user₁ pwd₁ = credentialText user₂ pwd₂ := by
  obtain ⟨w, -, rfl, rfl⟩ := h
  simp [credentialText]

theorem Shifted.user_ne (h : Shifted user₁ pwd₁ user₂ pwd₂) : user₁ ≠ user₂ := by
  obtain ⟨w, hw, rfl, -⟩ := h
  intro heq
  exact hw (by simpa using heq)

/-- Two pairs of credentials with one text are the same, or one is shifted against the other. -/
theorem credentialText_eq_cases (h : credentialText user₁ pwd₁ = credentialText user₂ pwd₂) :
    (user₁ = user₂ ∧ pwd₁ = pwd₂) ∨ Shifted user₁ pwd₁ user₂ pwd₂ ∨ Shifted user₂ pwd₂ user₁ pwd₁ := by
  rcases List.append_eq_append_iff.1 h with ⟨w, hu, hp⟩ | ⟨w, hu, hp⟩
  · by_cases hw : w = []
    · subst hw
      exact .inl ⟨by simpa using hu.symm, by simpa using hp⟩
    · exact .inr (.inl ⟨w, hw, hu, hp⟩)
  · by_cases hw : w = []
    · subst hw
      exact .inl ⟨by simpa using hu, by simpa using hp.symm⟩
    · exact .inr (.inr ⟨w, hw, hu, hp⟩)

theorem credentialText_separates_iff :
    (credentialText user₁ pwd₁ = credentialText user₂ pwd₂ → user₁ = user₂ ∧ pwd₁ = pwd₂) ↔
      ¬Shifted user₁ pwd₁ user₂ pwd₂ ∧ ¬Shifted user₂ pwd₂ user₁ pwd₁ := by
  constructor
  · intro hsep
    constructor
    · intro h
      exact h.user_ne (hsep h.text_eq).1
    · intro h
      exact h.user_ne (hsep h.text_eq.symm).1.symm
  · rintro ⟨h₁, h₂⟩ htext
    rcases credentialText_eq_cases htext with heq | h | h
    · exact heq
    · exact absurd h h₁
    · exact absurd h h₂

end Credentials

/-! ## Maps -/

/-- A `map[string]string` of arbitrary Go strings. -/
abbrev ByteMap := AList fun _ : Bytes => Bytes

def ByteMap.get (m : ByteMap) (k : Bytes) : Bytes := (m.lookup k).getD []

/-- What `calcMapHash` writes into the hash: `%s=%s&` for every key. `keys` are the keys in the order in
which the loop over the map meets them; `sort.Strings` compares bytes. -/
def mapText (keys : List Bytes) (m : ByteMap) : Bytes :=
  (keys.insertionSort (· ≤ ·)).flatMap fun k => k ++ 61 :: (m.get k ++ [38])

/-- `calcMapHash`, with the order of iteration. -/
def calcMapHashIn (keys : List Bytes) (m : ByteMap) : UInt32 :=
  if m.keys.length = 0 then 0 else fnv32a (mapText keys m)

/-- No name holds `=` and no value holds `&`. -/
def PlainBytes (m : ByteMap) : Prop := ∀ k v, m.lookup k = some v → 61 ∉ k ∧ 38 ∉ v

/-- There is at most one entry, and neither its name nor its value holds `=`. -/
def LoneBytes (m : ByteMap) : Prop := m.keys.length ≤ 1 ∧ ∀ k v, m.lookup k = some v → 61 ∉ k ∧ 61 ∉ v

section Maps

variable {m m₁ m₂ : ByteMap} {keys keys₁ keys₂ : List Bytes}

/-- The pairs in the order in which they are written. -/
def writtenPairs (keys : List Bytes) (m : ByteMap) : List (Bytes × Bytes) :=
  (keys.insertionSort (· ≤ ·)).map fun k => (k, m.get k)

theorem mapText_eq_pairsText (keys : List Bytes) (m : ByteMap) :
    mapText keys m = Tables.pairsText 61 38 (writtenPairs keys m) := by
  rw [mapText, Tables.pairsText, writtenPairs, List.flatMap_map]

theorem mem_writtenPairs (hkeys : keys.Perm m.keys) {k v : Bytes} :
    (k, v) ∈ writtenPairs keys m ↔ m.lookup k = some v := by
  refine Tables.mem_map_lookup (fun k => ?_) []
  rw [List.mem_insertionSort, hkeys.mem_iff, AList.mem_keys]

/-- The text does not depend on the order of iteration. -/
theorem mapText_perm (h : keys₁.Perm keys₂) : mapText keys₁ m = mapText keys₂ m := by
  rw [mapText, Tables.insertionSort_eq_of_perm _ h, mapText]

theorem plain_writtenPairs (hkeys : keys.Perm m.keys) (hplain : PlainBytes m) :
    Tables.Plain 61 38 (writtenPairs keys m) := by
  rintro ⟨k, v⟩ hkv
  exact hplain k v ((mem_writtenPairs hkeys).1 hkv)

/-- The text of a plain map determines the map. -/
theorem lookup_eq_of_mapText (h₁ : keys₁.Perm m₁.keys) (h₂ : keys₂.Perm m₂.keys) (hplain₁ : PlainBytes m₁)
    (hplain₂ : PlainBytes m₂) (htext : mapText keys₁ m₁ = mapText keys₂ m₂) (k : Bytes) :
    m₁.lookup k = m₂.lookup k := by
  rw [mapText_eq_pairsText, mapText_eq_pairsText] at htext
  have hpairs := Tables.pairsText_injective (plain_writtenPairs h₁ hplain₁) (plain_writtenPairs h₂ hplain₂) htext
  ext v
  rw [← mem_writtenPairs h₁, ← mem_writtenPairs h₂, hpairs]

/-- Nor does it depend on how the map is stored. -/
theorem mapText_congr (h₁ : keys₁.Perm m₁.keys) (h₂ : keys₂.Perm m₂.keys)
    (hlookup : ∀ k, m₁.lookup k = m₂.lookup k) : mapText keys₁ m₁ = mapText keys₂ m₂ := by
  have hkeys : keys₁.Perm keys₂ := by
    refine h₁.trans (((List.perm_ext_iff_of_nodup m₁.keys_nodup m₂.keys_nodup).2 fun k => ?_).trans h₂.symm)
    rw [← AList.mem_keys, ← AList.mem_keys, ← AList.lookup_isSome, ← AList.lookup_isSome, hlookup]
  have hget : ∀ k, m₁.get k = m₂.get k := fun k => by rw [ByteMap.get, hlookup, ByteMap.get]
  rw [mapText_perm hkeys, mapText, mapText]
  simp only [hget]

theorem writtenPairs_insert_empty (k v : Bytes) : writtenPairs [k] ((∅ : ByteMap).insert k v) = [(k, v)] := by
  change [(k, ByteMap.get ((∅ : ByteMap).insert k v) k)] = [(k, v)]
  rw [ByteMap.get, AList.lookup_insert, Option.getD_some]

theorem lone_writtenPairs (hkeys : keys.Perm m.keys) : Tables.Lone 61 (writtenPairs keys m) ↔ LoneBytes m := by
  have hlen : (writtenPairs keys m).length = m.keys.length := by
    rw [writtenPairs, List.length_map, List.length_insertionSort, hkeys.length_eq]
  rw [Tables.Lone, LoneBytes, hlen]
  constructor
  · rintro ⟨hone, hfree⟩
    exact ⟨hone, fun k v hkv => hfree (k, v) ((mem_writtenPairs hkeys).2 hkv)⟩
  · rintro ⟨hone, hfree⟩
    exact ⟨hone, fun p hp => hfree p.1 p.2 ((mem_writtenPairs hkeys).1 hp)⟩

/-- The only map that is written as `m` is, is `m` itself: this is so for the lone entries without `=`. Any
other text has two `=`, and the name of a single entry may end before the one and before the other. -/
theorem mapText_unique_iff (hkeys : keys.Perm m.keys) :
    (∀ (m' : ByteMap) keys', keys'.Perm m'.keys → mapText keys m = mapText keys' m' →
      ∀ k, m.lookup k = m'.lookup k) ↔ LoneBytes m := by
  have hne : (38 : UInt8) ≠ 61 := by decide
  rw [← lone_writtenPairs hkeys]
  constructor
  · intro hunique
    -- with a second `=` the text can be split in two ways, and both are maps
    by_contra hlone
    obtain ⟨k₁, v₁, k₂, v₂, hk, htext₁, htext₂⟩ := Tables.exists_readings hne hlone
    have hread : ∀ k v, Tables.pairsText 61 38 [(k, v)] = Tables.pairsText 61 38 (writtenPairs keys m) →
        ∀ j, m.lookup j = ((∅ : ByteMap).insert k v).lookup j := by
      intro k v htext
      refine hunique ((∅ : ByteMap).insert k v) [k] (.refl _) ?_
      rw [mapText_eq_pairsText, mapText_eq_pairsText, writtenPairs_insert_empty, htext]
    have hfound := (hread k₂ v₂ htext₂ k₁).symm.trans (hread k₁ v₁ htext₁ k₁)
    rw [AList.lookup_insert, AList.lookup_insert_ne hk, AList.lookup_empty] at hfound
    cases hfound
  · intro hlone m' keys' hkeys' htext k
    rw [mapText_eq_pairsText, mapText_eq_pairsText] at htext
    ext v
    rw [← mem_writtenPairs hkeys, ← mem_writtenPairs hkeys', hlone.unique hne htext]

end Maps

/-! ## Maps of texts -/

/-- The bytes of a map of texts. -/
def StringMap.encode (m : StringMap) : ByteMap where
  entries := m.entries.map fun e => ⟨bytes e.1, bytes e.2⟩
  nodupKeys := by
    have h : (m.entries.map fun e => (⟨bytes e.1, bytes e.2⟩ : (_ : Bytes) × Bytes)).map Sigma.fst =
        m.keys.map bytes := by
      simp [AList.keys, List.keys]
    rw [List.NodupKeys, List.keys, h]
    exact m.keys_nodup.map bytes_injective

theorem keys_encode (m : StringMap) : m.encode.keys = m.keys.map bytes := by
  simp [StringMap.encode, AList.keys, List.keys]

theorem lookup_encode (m : StringMap) (k : String) : m.encode.lookup (bytes k) = (m.lookup k).map bytes := by
  ext v
  rw [← Option.mem_def, AList.mem_lookup_iff, Option.map_eq_some_iff]
  simp only [StringMap.encode, List.mem_map]
  constructor
  · rintro ⟨⟨k', v'⟩, hmem, heq⟩
    simp only [Sigma.mk.injEq, heq_eq_eq] at heq
    obtain rfl := bytes_injective heq.1
    exact ⟨v', AList.mem_lookup_iff.2 hmem, heq.2⟩
  · rintro ⟨v', hv', rfl⟩
    exact ⟨⟨k, v'⟩, AList.mem_lookup_iff.1 hv', rfl⟩

theorem bytes_foldl_pairs : ∀ (ps : List (String × String)) (s : String),
    bytes (ps.foldl (fun s p => s ++ (p.1 ++ "=" ++ p.2 ++ "&")) s) =
      bytes s ++ ps.flatMap fun p => bytes p.1 ++ 61 :: (bytes p.2 ++ [38])
  | [], s => by simp
  | p :: ps, s => by
    rw [List.foldl_cons, bytes_foldl_pairs ps]
    have heq : bytes "=" = [61] := by decide
    have hamp : bytes "&" = [38] := by decide
    simp [bytes_append, heq, hamp]

theorem bytes_le_iff (s t : String) : s ≤ t ↔ bytes s ≤ bytes t := by
  rw [← not_lt, ← List.not_lt, String.lt_iff_toList_lt, bytes_eq_encode, bytes_eq_encode, Utf8.encode_lt_iff]

/-- Texts and their bytes are written in one order. -/
theorem bytes_mapString (m : StringMap) : bytes (mapString m) = mapText m.encode.keys m.encode := by
  rw [mapString, bytes_foldl_pairs, mapText, keys_encode,
    ← List.map_insertionSort (· ≤ ·) (· ≤ ·) bytes m.keys fun s _ t _ => bytes_le_iff s t]
  have hnil : bytes "" = [] := by decide
  rw [hnil, List.nil_append, sortedPairs, List.flatMap_map, List.flatMap_map]
  refine List.flatMap_congr fun k hk => ?_
  have hget : m.encode.get (bytes k) = bytes (m.get k) := by
    rw [ByteMap.get, lookup_encode, StringMap.get]
    cases m.lookup k with
    | none => rfl
    | some v => rfl
  rw [hget]

theorem calcMapHash_eq (m : StringMap) {keys : List Bytes} (hkeys : keys.Perm m.encode.keys) :
    calcMapHash m = calcMapHashIn keys m.encode := by
  have hlen : m.encode.keys.length = m.keys.length := by rw [keys_encode, List.length_map]
  rw [calcMapHash, calcMapHashIn, hlen, hash, bytes_mapString, mapText_perm hkeys]

end Chproxy.Utils
