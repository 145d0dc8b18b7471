/-
What keeps two users of one cache apart, and two sets of parameters (`newCacheKey` in `proxy.go`): the
texts behind the hashes of the key, of which FNV-1a is assumed to tell different ones apart.
-/
import Chproxy.Cache.KeyText
import Chproxy.Proxy.CacheKey
import Chproxy.Routing.GetUser
import Chproxy.Utils.HashedText

namespace Chproxy.Proxy

open Utils Routing

/-! ## Users -/

/-- The cache of the user is not shared with all users. -/
def Scope.Private (s : Scope) : Prop := ∀ cache, s.user.cache = some cache → cache.sharedWithAllUsers = false

/-- What is hashed of the cluster user of a scope. -/
def Scope.credentialText (s : Scope) : Bytes :=
  Utils.credentialText (bytes s.clusterUser.name) (bytes s.clusterUser.password)

/-- The credentials of the first scope are those of the second one, cut elsewhere. -/
def Scope.ShiftedAgainst (s₁ s₂ : Scope) : Prop :=
  Shifted (bytes s₁.clusterUser.name) (bytes s₁.clusterUser.password) (bytes s₂.clusterUser.name)
    (bytes s₂.clusterUser.password)

section Users

variable {s s₁ s₂ : Scope} {o o₁ o₂ : Values} {q q₁ q₂ : Bytes} {r r₁ r₂ : Request}

theorem newCacheKey_userCredentialHash (h : s.Private) :
    (newCacheKey s o q r).userCredentialHash = fnv32a s.credentialText := by
  rw [Scope.credentialText, ← calcCredentialHash_eq]
  unfold newCacheKey newKey
  dsimp only
  split
  · rename_i cache hcache
    rw [h cache hcache]
    rfl
  · rfl

theorem credentials_eq_of_key (h₁ : s₁.Private) (h₂ : s₂.Private)
    (hhash : fnv32a s₁.credentialText = fnv32a s₂.credentialText → s₁.credentialText = s₂.credentialText)
    (hs₁ : ¬s₁.ShiftedAgainst s₂) (hs₂ : ¬s₂.ShiftedAgainst s₁)
    (hkey : newCacheKey s₁ o₁ q₁ r₁ = newCacheKey s₂ o₂ q₂ r₂) :
    s₁.clusterUser.name = s₂.clusterUser.name ∧ s₁.clusterUser.password = s₂.clusterUser.password := by
  have hcred := congrArg Key.userCredentialHash hkey
  rw [newCacheKey_userCredentialHash h₁, newCacheKey_userCredentialHash h₂] at hcred
  obtain ⟨hname, hpassword⟩ := credentialText_separates_iff.2 ⟨hs₁, hs₂⟩ (hhash hcred)
  exact ⟨bytes_injective hname, bytes_injective hpassword⟩

/-- Nothing else in the key depends on the cluster user. -/
theorem key_eq_of_shifted (huser : s₁.user = s₂.user) (h : s₁.ShiftedAgainst s₂) :
    newCacheKey s₁ o q r = newCacheKey s₂ o q r := by
  have hcred : calcCredentialHash s₁.clusterUser.name s₁.clusterUser.password =
      calcCredentialHash s₂.clusterUser.name s₂.clusterUser.password := by
    rw [calcCredentialHash_eq, calcCredentialHash_eq, h.text_eq]
  simp only [newCacheKey, huser, hcred]

end Users

/-- The hashed texts of two pairs of credentials tell them apart exactly when neither is the other one
with the name and the password cut elsewhere. Then two users with caches of their own never share a key,
short of a collision of the hash; otherwise the two share the key of every request. -/
theorem credentials_separated_iff (user₁ pwd₁ user₂ pwd₂ : Bytes) (s₁ s₂ : Scope) :
    ((credentialText user₁ pwd₁ = credentialText user₂ pwd₂ → user₁ = user₂ ∧ pwd₁ = pwd₂) ↔
      ¬Shifted user₁ pwd₁ user₂ pwd₂ ∧ ¬Shifted user₂ pwd₂ user₁ pwd₁) ∧
    (s₁.Private → s₂.Private →
      (fnv32a s₁.credentialText = fnv32a s₂.credentialText → s₁.credentialText = s₂.credentialText) →
      ¬s₁.ShiftedAgainst s₂ → ¬s₂.ShiftedAgainst s₁ →
      ∀ (o₁ o₂ : Values) (q₁ q₂ : Bytes) (r₁ r₂ : Request), newCacheKey s₁ o₁ q₁ r₁ = newCacheKey s₂ o₂ q₂ r₂ →
        s₁.clusterUser.name = s₂.clusterUser.name ∧ s₁.clusterUser.password = s₂.clusterUser.password) ∧
    (s₁.user = s₂.user → s₁.ShiftedAgainst s₂ →
      ∀ (o : Values) (q : Bytes) (r : Request), newCacheKey s₁ o q r = newCacheKey s₂ o q r) := by
  refine ⟨credentialText_separates_iff, ?_, ?_⟩
  · intro h₁ h₂ hhash hs₁ hs₂ o₁ o₂ q₁ q₂ r₁ r₂ hkey
    exact credentials_eq_of_key h₁ h₂ hhash hs₁ hs₂ hkey
  · intro huser h o q r
    exact key_eq_of_shifted huser h

/-- A scope of the user of `plainScope`, with other credentials. -/
def credentialScope (name password : String) : Scope :=
  { plainScope "c" with clusterUser := { (plainScope "c").clusterUser with name := name, password := password } }

theorem credentials_separated_pair :
    newCacheKey (credentialScope "a" "x") ∅ (bytes "SELECT 1") (selectOne "s") ≠
      newCacheKey (credentialScope "b" "x") ∅ (bytes "SELECT 1") (selectOne "s") := by
  have hprivate : ∀ name, (credentialScope name "x").Private := by
    intro name cache hcache
    cases hcache
    rfl
  have hshift : ∀ {c d : UInt8}, c ≠ d → ¬Shifted [c] [120] [d] [120] := by
    rintro c d hcd ⟨w, -, hname, -⟩
    exact hcd (List.cons.inj hname).1.symm
  intro hkey
  have hsep := (credentials_separated_iff [] [] [] [] (credentialScope "a" "x") (credentialScope "b" "x")).2.1
    (hprivate _) (hprivate _) (fun h => absurd h (by decide)) (hshift (by decide)) (hshift (by decide)) _ _ _ _ _ _ hkey
  exact absurd hsep.1 (by decide)

/-- The wildcarded user `analyst_*` with a cache that is not shared. -/
def cachedAnalystConfig : Config :=
  { analystConfig with
    caches := [⟨"file_system", "disk", 1, 0, ⟨"dir", 1⟩, ⟨"", "", [], 0, 0, "", "", false⟩, 1, false⟩]
    users := analystConfig.users.map fun u => { u with cache := "disk" } }

def cachedAnalystLoader : Loader :=
  let out := (newReverseProxy ⟨2, 2⟩).applyConfig calmWorld 0 cachedAnalystConfig
  ⟨out.rp, out.next, [] ++ cacheIds out.closed⟩

theorem cachedAnalystLoader_reach : Steps.ReachWhen Loader.load Loader.Initial ValidLoad cachedAnalystLoader :=
  .step (s := ⟨newReverseProxy ⟨2, 2⟩, 0, []⟩) (a := (calmWorld, cachedAnalystConfig))
    (.init ⟨⟨⟨2, 2⟩, rfl⟩, rfl, rfl⟩) rfl
    { config := rfl
      clusters := List.forall_mem_singleton.2 rfl
      replicas := List.forall_mem_singleton.2 nofun
      clusterUsers := List.forall_mem_singleton.2 (List.forall_mem_singleton.2 rfl)
      users := List.forall_mem_singleton.2 rfl
      caches := List.forall_mem_singleton.2 rfl
      paramGroups := nofun
      connectionPool := rfl }

/-- Whom the running proxy takes a client for. -/
def findAnalyst (name password : String) : Except Failure Lookup :=
  cachedAnalystLoader.rp.getUser (userValues cachedAnalystLoader.rp.users) name password

/-- Two clients of the wildcarded user `analyst_*`, whose cache is not shared: `analyst_7` with the
password `1mine` and `analyst_71` with the password `mine`. What one asks for is served to the other. -/
theorem analysts_share_keys :
    Steps.ReachWhen Loader.load Loader.Initial ValidLoad cachedAnalystLoader ∧
    ∃ u c cu₁ cu₂,
      findAnalyst "analyst_7" "1mine" = .ok ⟨true, some u, some c, some cu₁⟩ ∧
      findAnalyst "analyst_71" "mine" = .ok ⟨true, some u, some c, some cu₂⟩ ∧
      u.isWildcarded = true ∧ u.cache.map (·.sharedWithAllUsers) = some false ∧
      cu₁.Carries "analyst_7" "1mine" ∧ cu₂.Carries "analyst_71" "mine" ∧
      credentialText (bytes cu₁.name) (bytes cu₁.password) = credentialText (bytes cu₂.name) (bytes cu₂.password) ∧
      ∀ s₁ s₂ : Scope, s₁.user = u → s₂.user = u → s₁.clusterUser = cu₁ → s₂.clusterUser = cu₂ →
        ∀ o q r, newCacheKey s₁ o q r = newCacheKey s₂ o q r := by
  refine ⟨cachedAnalystLoader_reach, _, _, _, _, rfl, rfl, rfl, rfl, ⟨rfl, rfl⟩, ⟨rfl, rfl⟩, by decide, ?_⟩
  rintro s₁ s₂ hu₁ hu₂ hcu₁ hcu₂ o q r
  refine key_eq_of_shifted (hu₁.trans hu₂.symm) ⟨bytes "1", by decide, ?_, ?_⟩
  · rw [hcu₁, hcu₂]
    decide
  · rw [hcu₁, hcu₂]
    decide

/-! ## Parameters -/

/-- What is hashed of the `param_*` arguments. -/
def paramsText (o : Values) : Bytes := mapText (queryParams o).encode.keys (queryParams o).encode

theorem params_eq_of_text {o₁ o₂ : Values} (h₁ : PlainBytes (queryParams o₁).encode)
    (h₂ : PlainBytes (queryParams o₂).encode) (htext : paramsText o₁ = paramsText o₂) (k : String) :
    (queryParams o₁).lookup k = (queryParams o₂).lookup k := by
  have hlookup := lookup_eq_of_mapText (.refl _) (.refl _) h₁ h₂ htext (bytes k)
  rw [lookup_encode, lookup_encode] at hlookup
  exact Option.map_injective bytes_injective hlookup

/-- What is written into the hash for a map does not depend on the order of iteration. A map is the only
one with its text exactly when it has at most one entry, without `=`. Maps without `=` in a name and without
`&` in a value are told apart from each other, and so are the keys of requests with such arguments, short
of a collision of the hash. -/
theorem map_texts_separated_iff {m₁ : ByteMap} {keys₁ : List Bytes} (h₁ : keys₁.Perm m₁.keys) :
    (∀ keys, keys.Perm m₁.keys → mapText keys m₁ = mapText keys₁ m₁) ∧
    ((∀ (m₂ : ByteMap) keys₂, keys₂.Perm m₂.keys → mapText keys₁ m₁ = mapText keys₂ m₂ →
      ∀ k, m₁.lookup k = m₂.lookup k) ↔ LoneBytes m₁) ∧
    (∀ (m₂ : ByteMap) keys₂, keys₂.Perm m₂.keys → PlainBytes m₁ → PlainBytes m₂ →
      (mapText keys₁ m₁ = mapText keys₂ m₂ ↔ ∀ k, m₁.lookup k = m₂.lookup k)) ∧
    ∀ o₁ o₂ : Values, PlainBytes (queryParams o₁).encode → PlainBytes (queryParams o₂).encode →
      (calcQueryParamsHash o₁ = calcQueryParamsHash o₂ → paramsText o₁ = paramsText o₂) →
      ∀ (s₁ s₂ : Scope) (q₁ q₂ : Bytes) (r₁ r₂ : Request), newCacheKey s₁ o₁ q₁ r₁ = newCacheKey s₂ o₂ q₂ r₂ →
        ∀ k, (queryParams o₁).lookup k = (queryParams o₂).lookup k := by
  refine ⟨fun keys hkeys => mapText_perm (hkeys.trans h₁.symm), mapText_unique_iff h₁, ?_, ?_⟩
  · intro m₂ keys₂ h₂ hplain₁ hplain₂
    constructor
    · exact lookup_eq_of_mapText h₁ h₂ hplain₁ hplain₂
    · exact mapText_congr h₁ h₂
  · intro o₁ o₂ hplain₁ hplain₂ hhash s₁ s₂ q₁ q₂ r₁ r₂ hkey
    exact params_eq_of_text hplain₁ hplain₂ (hhash (congrArg Key.queryParamsHash hkey))

/-- The map of `param_a` alone. -/
def paramA (value : String) : ByteMap := (∅ : ByteMap).insert (bytes "param_a") (bytes value)

theorem paramA_lone {value : String} (h : 61 ∉ bytes value) : LoneBytes (paramA value) := by
  refine ⟨by simp [paramA], fun k v hkv => ?_⟩
  rcases Tables.lookup_insert_cases hkv with ⟨rfl, rfl⟩ | hempty
  · exact ⟨by decide, h⟩
  · rw [AList.lookup_empty] at hempty
    cases hempty

theorem map_texts_separated_paramA :
    mapText [bytes "param_a"] (paramA "1") ≠ mapText [bytes "param_a"] (paramA "2") := by
  have hkeys : ∀ value, [bytes "param_a"].Perm (paramA value).keys := fun _ => .refl _
  intro htext
  have hlookup := (map_texts_separated_iff (hkeys "1")).2.1.2 (paramA_lone (by decide)) _ _ (hkeys "2") htext
  exact absurd (hlookup (bytes "param_a")) (by decide)

/-- `param_a=1&param_b=2` as one parameter and as two: one text, one key of the cache, whatever is asked;
and one key for two groups of parameters. -/
theorem other_params_same_keys :
    let o₁ := Values.set ∅ "param_a" "1&param_b=2"
    let o₂ := (Values.set ∅ "param_a" "1").set "param_b" "2"
    mapText (queryParams o₁).encode.keys (queryParams o₁).encode =
      mapText (queryParams o₂).encode.keys (queryParams o₂).encode ∧
    (queryParams o₁).encode.lookup (bytes "param_b") = none ∧
    (queryParams o₂).encode.lookup (bytes "param_b") = some (bytes "2") ∧
    (∀ s q r, newCacheKey s o₁ q r = newCacheKey s o₂ q r) ∧
    (newParamsRegistry [⟨"a", "1&b=2"⟩]).map (·.key) = (newParamsRegistry [⟨"a", "1"⟩, ⟨"b", "2"⟩]).map (·.key) := by
  intro o₁ o₂
  have hhash : calcQueryParamsHash o₁ = calcQueryParamsHash o₂ := by decide
  refine ⟨by decide, by decide, by decide, fun s q r => ?_, by decide⟩
  unfold newCacheKey
  rw [hhash]
  rfl

/-! ## Keys as they are stored -/

/-- A key with the bytes of its texts. -/
def Key.raw (k : Key) : Cache.RawKey where
  query := k.query
  acceptEncoding := bytes k.acceptEncoding
  defaultFormat := bytes k.defaultFormat
  database := bytes k.database
  compress := bytes k.compress
  enableHTTPCompression := bytes k.enableHTTPCompression
  cacheNamespace := bytes k.cacheNamespace
  maxResultRows := bytes k.maxResultRows
  extremes := bytes k.extremes
  resultOverflowMode := bytes k.resultOverflowMode
  userParamsHash := k.userParamsHash.toNat
  version := k.version
  queryParamsHash := k.queryParamsHash.toNat
  userCredentialHash := k.userCredentialHash.toNat

theorem Key.raw_injective : Function.Injective Key.raw := by
  intro k₁ k₂ h
  cases k₁
  cases k₂
  simp only [Key.raw, Cache.RawKey.mk.injEq, bytes_injective.eq_iff, Nat.cast_inj, UInt32.toNat_inj] at h
  simp only [Key.mk.injEq]
  tauto

/-- Two requests whose keys have one text have one key. -/
theorem Key.eq_of_text (quoting : Format.Quoting) {k₁ k₂ : Key} (h : k₁.raw.text quoting = k₂.raw.text quoting) :
    k₁ = k₂ :=
  Key.raw_injective (Cache.RawKey.text_injective quoting h)

end Chproxy.Proxy
