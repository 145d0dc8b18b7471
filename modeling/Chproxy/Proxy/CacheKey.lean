/-
Cache keys (`cache/key.go`, `newCacheKey` in `proxy.go`) against what is sent to ClickHouse: which
parts of the decorated request the key determines, and which it leaves open.
-/
import Chproxy.Proxy.Decorate
import Mathlib.Tactic

namespace Chproxy.Proxy

open Utils Routing

/-! ## Keys -/

/-- `cache.Key`. -/
structure Key where
  query : Bytes
  acceptEncoding : String
  defaultFormat : String
  database : String
  compress : String
  enableHTTPCompression : String
  cacheNamespace : String
  maxResultRows : String
  extremes : String
  resultOverflowMode : String
  userParamsHash : UInt32
  version : Int
  queryParamsHash : UInt32
  userCredentialHash : UInt32
  deriving DecidableEq, Repr

def version : Int := 5

def newKey (query : Bytes) (originParams : Values) (acceptEncoding : String)
    (userParamsHash queryParamsHash userCredentialHash : UInt32) : Key where
  query := query
  acceptEncoding := acceptEncoding
  defaultFormat := originParams.get "default_format"
  database := originParams.get "database"
  compress := originParams.get "compress"
  enableHTTPCompression := originParams.get "enable_http_compression"
  cacheNamespace := originParams.get "cache_namespace"
  extremes := originParams.get "extremes"
  maxResultRows := originParams.get "max_result_rows"
  resultOverflowMode := originParams.get "result_overflow_mode"
  userParamsHash := userParamsHash
  version := version
  queryParamsHash := queryParamsHash
  userCredentialHash := userCredentialHash

/-- The `param_*` arguments, as `calcQueryParamsHash` collects them. -/
def queryParams (origParams : Values) : StringMap :=
  origParams.keys.foldl (fun m p => if isQueryParam p then m.insert p (origParams.get p) else m) ∅

def calcQueryParamsHash (origParams : Values) : UInt32 := calcMapHash (queryParams origParams)

def newCacheKey (s : Scope) (origParams : Values) (q : Bytes) (req : Request) : Key :=
  let userParamsHash := match s.user.params with
    | none => 0
    | some registry => registry.key
  let credHash := match s.user.cache with
    | some cache => if cache.sharedWithAllUsers then 0 else calcCredentialHash s.clusterUser.name s.clusterUser.password
    | none => calcCredentialHash s.clusterUser.name s.clusterUser.password
  newKey (skipLeadingComments q) origParams (sortHeader (req.header.get "Accept-Encoding")) userParamsHash
    (calcQueryParamsHash origParams) credHash

/-- The request goes to the cache, with the query `q`. -/
def Cacheable (codec : Codec) (s : Scope) (req : Request) (q : Bytes) : Prop :=
  shouldRespondFromCache codec s (decorateRequest s req).2 (decorateRequest s req).1 = some (q, true)

instance (codec : Codec) (s : Scope) (req : Request) (q : Bytes) : Decidable (Cacheable codec s req q) :=
  inferInstanceAs (Decidable (_ = _))

/-- The key under which the handler looks the request up. -/
def keyOf (s : Scope) (req : Request) (q : Bytes) : Key :=
  newCacheKey s (decorateRequest s req).2 q (decorateRequest s req).1

/-! ## What the key records -/

theorem newCacheKey_userParamsHash (s : Scope) (origParams : Values) (q : Bytes) (req : Request) :
    (newCacheKey s origParams q req).userParamsHash = calcMapHash (userParams s) := by
  unfold newCacheKey userParams
  cases s.user.params with
  | none => rfl
  | some registry => exact registry.key_eq

/-- The query arguments that have a field of their own in the key and are sent to ClickHouse. -/
def keyArgs : List String :=
  ["database", "default_format", "compress", "enable_http_compression", "max_result_rows", "extremes",
    "result_overflow_mode"]

theorem get_eq_of_key {s₁ s₂ : Scope} {o₁ o₂ : Values} {q₁ q₂ : Bytes} {r₁ r₂ : Request}
    (h : newCacheKey s₁ o₁ q₁ r₁ = newCacheKey s₂ o₂ q₂ r₂) {k : String} (hk : k ∈ keyArgs) :
    o₁.get k = o₂.get k := by
  simp only [newCacheKey, newKey, Key.mk.injEq] at h
  obtain ⟨-, -, hformat, hdatabase, hcompress, hhttp, -, hrows, hextremes, hmode, -⟩ := h
  simp only [keyArgs, List.mem_cons, List.not_mem_nil, or_false] at hk
  rcases hk with rfl | rfl | rfl | rfl | rfl | rfl | rfl <;> assumption

theorem lookup_queryParams (origParams : Values) (k : String) :
    (queryParams origParams).lookup k =
      if k ∈ origParams.keys ∧ isQueryParam k = true then some (origParams.get k) else none := by
  unfold queryParams
  rw [Tables.lookup_foldl_insert (fun p => isQueryParam p = true) (fun p => origParams.get p) k origParams.keys ∅]
  simp

/-! ## What is sent for a parameter -/

/-- What the client itself gives for a parameter that is forwarded. -/
def given (req : Request) (k : String) : Option String :=
  if k ∈ req.query.keys ∧ isQueryParam k = true then some (req.query.get k)
  else if k ∈ allowedParams ∧ 0 < (req.query.get k).length then some (req.query.get k)
  else none

/-- The parameters of the user's group that are sent: a ping is forwarded without them. -/
def sentUserParams (s : Scope) (req : Request) : StringMap :=
  if req.requestURI = pingEndpoint then ∅ else userParams s

/-- What reaches ClickHouse for a parameter: the client's value, else that of the group. -/
def asked (s : Scope) (req : Request) (k : String) : Option String :=
  (given req k).or ((sentUserParams s req).lookup k)

section Cacheable

variable {codec : Codec} {s : Scope} {req : Request} {q : Bytes}

theorem decorateRequest_snd_of_cacheable (h : Cacheable codec s req q) : (decorateRequest s req).2 = req.query := by
  by_cases hping : req.requestURI = pingEndpoint
  · simp [decorateRequest, hping]
  · have hmp := not_multipart_of_cacheable hping h
    simp only [decorateRequest, hping, dif_neg, not_false_eq_true, decorateParams, decoratePostRequest]
    split
    · rename_i hp
      rw [if_neg fun h => hmp ⟨hp, h⟩]
    · rfl

theorem lookup_query_of_cacheable (h : Cacheable codec s req q) {k : String} (hid : k ≠ "query_id")
    (htimeout : k ≠ "session_timeout") :
    (decorateRequest s req).1.query.lookup k = (asked s req k).map fun v => [v] := by
  by_cases hping : req.requestURI = pingEndpoint
  · -- a ping is forwarded as it came, and its URI has no query
    have hnil := req.ping_query hping
    simp [decorateRequest, hping, asked, given, sentUserParams, hnil, Values.get]
  · rw [lookup_decorateRequest hping (not_multipart_of_cacheable hping h) hid htimeout, asked, given,
      sentUserParams, if_neg hping]
    split
    · rfl
    · split <;> rfl

theorem getFullQuery_of_cacheable (h : Cacheable codec s req q) :
    getFullQuery codec (decorateRequest s req).1 = some q := by
  unfold Cacheable shouldRespondFromCache at h
  split at h
  · cases h
  · dsimp only at h
    split at h
    · cases h
    · obtain ⟨q', hq', heq⟩ := Option.map_eq_some_iff.1 h
      rw [hq', (Prod.mk.inj heq).1]

end Cacheable

/-! ## Two requests with one key -/

/-- The parameters that may differ between requests with one key: the query is compared as a whole, the
others do not change the answer. -/
def uncompared : List String := ["query", "decompress", "query_id", "session_timeout", "log_comment"]

/-- Two requests put the same question to ClickHouse: to the same cluster, with the same value (or
absence) of every parameter outside `uncompared`, and the same query up to leading comments. -/
structure SameQuestion (codec : Codec) (s₁ : Scope) (r₁ : Request) (s₂ : Scope) (r₂ : Request) : Prop where
  cluster : s₁.cluster.name = s₂.cluster.name
  params : ∀ k, k ∉ uncompared →
    (decorateRequest s₁ r₁).1.query.lookup k = (decorateRequest s₂ r₂).1.query.lookup k
  query : (getFullQuery codec (decorateRequest s₁ r₁).1).map skipLeadingComments =
    (getFullQuery codec (decorateRequest s₂ r₂).1).map skipLeadingComments

/-- What the key does not record, or records only through a text that two maps may share: the cluster
of the user, the session, the `param_*` arguments and the user's parameters. -/
structure AgreeBeyondKey (s₁ : Scope) (r₁ : Request) (s₂ : Scope) (r₂ : Request) : Prop where
  cluster : s₁.cluster.name = s₂.cluster.name
  session : asked s₁ r₁ "session_id" = asked s₂ r₂ "session_id"
  queryParams : ∀ k, isQueryParam k = true → asked s₁ r₁ k = asked s₂ r₂ k
  userParams : ∀ k, k ∉ uncompared → k ≠ "session_id" → isQueryParam k = false →
    (k ∈ keyArgs → r₁.query.get k = "") →
    (sentUserParams s₁ r₁).lookup k = (sentUserParams s₂ r₂).lookup k

/-- Equal hashes of the two maps come from equal texts. -/
def NoCollision (m m' : StringMap) : Prop := calcMapHash m = calcMapHash m' → mapString m = mapString m'

/-- Every name and value can be told apart in the hashed texts, whose hashes do not collide. -/
structure Separable (s₁ : Scope) (r₁ : Request) (s₂ : Scope) (r₂ : Request) : Prop where
  ping : r₁.requestURI = pingEndpoint ↔ r₂.requestURI = pingEndpoint
  userParams : PlainMap (userParams s₁) ∧ PlainMap (userParams s₂) ∧ NoCollision (userParams s₁) (userParams s₂)
  queryParams : PlainMap (queryParams r₁.query) ∧ PlainMap (queryParams r₂.query) ∧
    NoCollision (queryParams r₁.query) (queryParams r₂.query)

section Pair

variable {codec : Codec} {s₁ s₂ : Scope} {r₁ r₂ d₁ d₂ : Request} {q₁ q₂ : Bytes}

/-- Every forwarded argument but the session has its field in the key, or is not compared. -/
theorem mem_keyArgs {k : String} (hk : k ∈ allowedParams) (hu : k ∉ uncompared) (hs : k ≠ "session_id") :
    k ∈ keyArgs := by
  simp only [allowedParams, uncompared, keyArgs, List.mem_cons, List.not_mem_nil, or_false, not_or] at hk hu ⊢
  tauto

theorem given_eq_some {req : Request} {k : String} (hk : k ∈ keyArgs) (hne : req.query.get k ≠ "")
    (hp : isQueryParam k = false) : given req k = some (req.query.get k) := by
  have hal : k ∈ allowedParams := by
    simp only [allowedParams, keyArgs, List.mem_cons, List.not_mem_nil, or_false] at hk ⊢
    tauto
  have hpos : 0 < (req.query.get k).length :=
    Nat.pos_of_ne_zero fun h0 => hne (String.length_eq_zero_iff.1 h0)
  simp [given, hp, hal, hpos]

/-- Outside the session and the `param_*` arguments, the client's part is in the key. -/
theorem given_eq_of_key (hkey : newCacheKey s₁ r₁.query q₁ d₁ = newCacheKey s₂ r₂.query q₂ d₂) {k : String}
    (hu : k ∉ uncompared) (hs : k ≠ "session_id") (hp : isQueryParam k = false) :
    given r₁ k = given r₂ k := by
  unfold given
  simp only [hp, Bool.false_eq_true, and_false, if_false]
  by_cases hk : k ∈ allowedParams
  · rw [get_eq_of_key hkey (mem_keyArgs hk hu hs)]
  · simp [hk]

theorem given_eq_none {req : Request} {k : String} (hu : k ∉ uncompared) (hs : k ≠ "session_id")
    (hp : isQueryParam k = false) (hk : k ∈ keyArgs → req.query.get k = "") : given req k = none := by
  unfold given
  simp only [hp, Bool.false_eq_true, and_false, if_false]
  by_cases ha : k ∈ allowedParams
  · simp [hk (mem_keyArgs ha hu hs)]
  · simp [ha]

/-- Where the hashed texts can be read back, only the cluster and the session are left open. -/
theorem agreeBeyondKey_of_separable (hkey : newCacheKey s₁ r₁.query q₁ d₁ = newCacheKey s₂ r₂.query q₂ d₂)
    (hsep : Separable s₁ r₁ s₂ r₂) (hcluster : s₁.cluster.name = s₂.cluster.name)
    (hsession : asked s₁ r₁ "session_id" = asked s₂ r₂ "session_id") : AgreeBeyondKey s₁ r₁ s₂ r₂ := by
  have huser : ∀ k, (userParams s₁).lookup k = (userParams s₂).lookup k := by
    have hhash := congrArg Key.userParamsHash hkey
    rw [newCacheKey_userParamsHash, newCacheKey_userParamsHash] at hhash
    obtain ⟨hp₁, hp₂, hinj⟩ := hsep.userParams
    exact lookup_eq_of_mapString hp₁ hp₂ (hinj hhash)
  have hquery : ∀ k, (queryParams r₁.query).lookup k = (queryParams r₂.query).lookup k := by
    obtain ⟨hp₁, hp₂, hinj⟩ := hsep.queryParams
    exact lookup_eq_of_mapString hp₁ hp₂ (hinj (congrArg Key.queryParamsHash hkey))
  have hsent : ∀ k, (sentUserParams s₁ r₁).lookup k = (sentUserParams s₂ r₂).lookup k := by
    intro k
    by_cases hping : r₁.requestURI = pingEndpoint
    · rw [sentUserParams, if_pos hping, sentUserParams, if_pos (hsep.ping.1 hping)]
    · rw [sentUserParams, if_neg hping, sentUserParams, if_neg (mt hsep.ping.2 hping), huser]
  refine ⟨hcluster, hsession, fun k hk => ?_, fun k _ _ _ _ => hsent k⟩
  -- a `param_*` argument is forwarded by its name alone, and the key hashes all of them
  have hgiven : ∀ r : Request, given r k = (queryParams r.query).lookup k := by
    intro r
    rw [lookup_queryParams, given]
    have hk' : k ∉ allowedParams := by
      intro hmem
      simp only [allowedParams, List.mem_cons, List.not_mem_nil, or_false] at hmem
      rcases hmem with rfl | rfl | rfl | rfl | rfl | rfl | rfl | rfl | rfl | rfl | rfl | rfl <;>
        exact absurd hk (by decide)
    simp [hk']
  rw [asked, asked, hgiven, hgiven, hquery, hsent]

theorem notMem_uncompared_of_isQueryParam {k : String} (hk : isQueryParam k = true) : k ∉ uncompared := by
  intro hmem
  simp only [uncompared, List.mem_cons, List.not_mem_nil, or_false] at hmem
  rcases hmem with rfl | rfl | rfl | rfl | rfl <;> exact absurd hk (by decide)

/-- The compared parameters that are sent are those asked for. -/
theorem lookup_eq_iff_asked (hq₁ : Cacheable codec s₁ r₁ q₁) (hq₂ : Cacheable codec s₂ r₂ q₂) {k : String}
    (hk : k ∉ uncompared) :
    (decorateRequest s₁ r₁).1.query.lookup k = (decorateRequest s₂ r₂).1.query.lookup k ↔
      asked s₁ r₁ k = asked s₂ r₂ k := by
  have hid : k ≠ "query_id" := fun h => hk (h ▸ by decide)
  have htimeout : k ≠ "session_timeout" := fun h => hk (h ▸ by decide)
  rw [lookup_query_of_cacheable hq₁ hid htimeout, lookup_query_of_cacheable hq₂ hid htimeout]
  exact (Option.map_injective fun _ _ h => List.singleton_injective h).eq_iff

theorem agreeBeyondKey_of_sameQuestion (hq₁ : Cacheable codec s₁ r₁ q₁) (hq₂ : Cacheable codec s₂ r₂ q₂)
    (hkey : newCacheKey s₁ r₁.query q₁ d₁ = newCacheKey s₂ r₂.query q₂ d₂)
    (h : SameQuestion codec s₁ r₁ s₂ r₂) : AgreeBeyondKey s₁ r₁ s₂ r₂ := by
  have hasked : ∀ k, k ∉ uncompared → asked s₁ r₁ k = asked s₂ r₂ k :=
    fun k hk => (lookup_eq_iff_asked hq₁ hq₂ hk).1 (h.params k hk)
  refine ⟨h.cluster, hasked _ (by decide), fun k hk => hasked k (notMem_uncompared_of_isQueryParam hk),
    fun k hu hs hp hk => ?_⟩
  -- neither client gives the parameter, so what is asked is what the group has
  have hg₁ := given_eq_none hu hs hp hk
  have hg₂ := (given_eq_of_key hkey hu hs hp).symm.trans hg₁
  simpa [asked, hg₁, hg₂] using hasked k hu

/-- Outside the session and the `param_*` arguments, equal groups and one key ask for the same. -/
theorem asked_eq_of_key (hkey : newCacheKey s₁ r₁.query q₁ d₁ = newCacheKey s₂ r₂.query q₂ d₂)
    (h : AgreeBeyondKey s₁ r₁ s₂ r₂) {k : String} (hu : k ∉ uncompared) (hs : k ≠ "session_id")
    (hp : isQueryParam k = false) : asked s₁ r₁ k = asked s₂ r₂ k := by
  have hgiven := given_eq_of_key hkey hu hs hp
  by_cases hk : k ∈ keyArgs → r₁.query.get k = ""
  · rw [asked, asked, hgiven, h.userParams k hu hs hp hk]
  · -- the client gives the parameter, so the group is not consulted
    obtain ⟨hmem, hne⟩ := Classical.not_imp.1 hk
    rw [asked, asked, ← hgiven, given_eq_some hmem hne hp]
    rfl

theorem sameQuestion_of_agreeBeyondKey (hq₁ : Cacheable codec s₁ r₁ q₁) (hq₂ : Cacheable codec s₂ r₂ q₂)
    (hkey : newCacheKey s₁ r₁.query q₁ d₁ = newCacheKey s₂ r₂.query q₂ d₂)
    (h : AgreeBeyondKey s₁ r₁ s₂ r₂) : SameQuestion codec s₁ r₁ s₂ r₂ := by
  refine ⟨h.cluster, fun k hu => (lookup_eq_iff_asked hq₁ hq₂ hu).2 ?_, ?_⟩
  · by_cases hs : k = "session_id"
    · rw [hs]
      exact h.session
    · cases hp : isQueryParam k with
      | true => exact h.queryParams k hp
      | false => exact asked_eq_of_key hkey h hu hs hp
  · rw [getFullQuery_of_cacheable hq₁, getFullQuery_of_cacheable hq₂]
    exact congrArg some (congrArg Key.query hkey)

/-- Two cacheable requests with one key put the same question to ClickHouse exactly when they agree on
what the key leaves open. When moreover no name of a hashed parameter holds `=` and no value `&`, and
the hashes of these texts do not collide, that is the cluster and the session alone. -/
theorem same_question_iff (hq₁ : Cacheable codec s₁ r₁ q₁) (hq₂ : Cacheable codec s₂ r₂ q₂)
    (hkey : keyOf s₁ r₁ q₁ = keyOf s₂ r₂ q₂) :
    (SameQuestion codec s₁ r₁ s₂ r₂ ↔ AgreeBeyondKey s₁ r₁ s₂ r₂) ∧
    (Separable s₁ r₁ s₂ r₂ →
      (SameQuestion codec s₁ r₁ s₂ r₂ ↔
        s₁.cluster.name = s₂.cluster.name ∧ asked s₁ r₁ "session_id" = asked s₂ r₂ "session_id")) := by
  rw [keyOf, keyOf, decorateRequest_snd_of_cacheable hq₁, decorateRequest_snd_of_cacheable hq₂] at hkey
  have hmain : SameQuestion codec s₁ r₁ s₂ r₂ ↔ AgreeBeyondKey s₁ r₁ s₂ r₂ :=
    ⟨agreeBeyondKey_of_sameQuestion hq₁ hq₂ hkey, sameQuestion_of_agreeBeyondKey hq₁ hq₂ hkey⟩
  refine ⟨hmain, fun hsep => hmain.trans ⟨fun h => ⟨h.cluster, h.session⟩, ?_⟩⟩
  rintro ⟨hcluster, hsession⟩
  exact agreeBeyondKey_of_separable hkey hsep hcluster hsession

end Pair

/-! ## What the key leaves open, on two requests -/

/-- A user of `cluster` with a cache of its own and no parameters; the cluster user is `default` with
an empty password, on every cluster. -/
def plainScope (cluster : String) : Scope where
  id := 1
  host := ⟨"http", "n", ⟨0, 0, "/ping", "Ok.\n", "", ""⟩, cluster, "default"⟩
  cluster := ⟨cluster, [], ∅, "", "", ⟨0, 0, "/ping", "Ok.\n", "", ""⟩, 0⟩
  user :=
    { name := "u", password := "", toCluster := cluster, toUser := "default", maxConcurrentQueries := 0
      maxExecutionTime := 0, reqPerMin := 0, queueCh := none, maxQueueTime := 0, limiter := none
      reqPacketSizeTokensBurst := 0, reqPacketSizeTokensRate := 0, allowedNetworks := [], denyHTTP := false
      denyHTTPS := false, allowCORS := false, isWildcarded := false
      cache := some ⟨0, "cache", .fileSystem "dir" 1 1 0, 0, 0, 1, false⟩, params := none }
  clusterUser := ⟨"default", "", 0, 0, 0, none, 0, none, 0, 0, [], false⟩
  sessionTimeout := 60
  remoteAddr := ""
  localAddr := ""

/-- `GET /?…` with a query, a session and `more` arguments. -/
def getQuery (uri query session : String) (more : Values) : Request where
  method := .get
  requestURI := "/?" ++ uri
  scheme := ""
  host := ""
  query := (more.set "query" query).set "session_id" session
  header := ∅
  basicAuth := none
  body := .nil
  ping_query := fun h => by
    have := congrArg (fun s => s.toList.take 2) h
    simp [pingEndpoint] at this

def selectOne (session : String) : Request :=
  getQuery ("query=SELECT%201&session_id=" ++ session) "SELECT 1" session ∅

/-- No decompressor is needed. -/
def noCodec : Codec := ⟨fun _ => none, fun _ => none⟩

/-- Without `param_*` arguments nothing is hashed. -/
theorem queryParams_eq_empty {v : Values} (h : v.keys.all (!isQueryParam ·) = true) : queryParams v = ∅ := by
  simp only [List.all_eq_true, Bool.not_eq_true'] at h
  unfold queryParams
  generalize v.keys = ks at h ⊢
  induction ks with
  | nil => rfl
  | cons k ks ih =>
    rw [List.foldl_cons, h k List.mem_cons_self]
    exact ih fun k hk => h k (List.mem_cons_of_mem _ hk)

theorem getQuery_separable {s₁ s₂ : Scope} (hs₁ : userParams s₁ = ∅) (hs₂ : userParams s₂ = ∅)
    {uri₁ q₁ a₁ uri₂ q₂ a₂ : String} {more₁ more₂ : Values}
    (h₁ : (getQuery uri₁ q₁ a₁ more₁).query.keys.all (!isQueryParam ·) = true)
    (h₂ : (getQuery uri₂ q₂ a₂ more₂).query.keys.all (!isQueryParam ·) = true) :
    Separable s₁ (getQuery uri₁ q₁ a₁ more₁) s₂ (getQuery uri₂ q₂ a₂ more₂) := by
  have hempty : PlainMap ∅ := fun k v h => by simp at h
  have hping : ∀ uri q a more, (getQuery uri q a more).requestURI ≠ pingEndpoint := by
    intro uri q a more h
    have := congrArg (fun s => s.toList.take 2) h
    simp [getQuery, pingEndpoint] at this
  refine ⟨iff_of_false (hping _ _ _ _) (hping _ _ _ _), ?_, ?_⟩
  · rw [hs₁, hs₂]
    exact ⟨hempty, hempty, fun _ => rfl⟩
  · rw [queryParams_eq_empty h₁, queryParams_eq_empty h₂]
    exact ⟨hempty, hempty, fun _ => rfl⟩

/-- The same question under a leading comment, with a query id of its own. -/
def commentedOne : Request :=
  getQuery "query=/*%20again%20*/%20SELECT%201&query_id=7&session_id=a" "/* again */ SELECT 1" "a"
    (Values.set ∅ "query_id" "7")

/-- Another user of the cluster and the cache of `plainScope`. -/
def otherScope : Scope :=
  { plainScope "c" with id := 2, user := { (plainScope "c").user with name := "v", password := "w" } }

theorem same_question_iff_comment :
    Cacheable noCodec (plainScope "c") (selectOne "a") (bytes "SELECT 1") ∧
    Cacheable noCodec otherScope commentedOne (bytes "/* again */ SELECT 1") ∧
    (plainScope "c").user.name ≠ otherScope.user.name ∧
    (selectOne "a").query.get "query_id" ≠ commentedOne.query.get "query_id" ∧
    keyOf (plainScope "c") (selectOne "a") (bytes "SELECT 1") =
      keyOf otherScope commentedOne (bytes "/* again */ SELECT 1") ∧
    SameQuestion noCodec (plainScope "c") (selectOne "a") otherScope commentedOne := by
  have hc₁ : Cacheable noCodec (plainScope "c") (selectOne "a") (bytes "SELECT 1") := by decide
  have hc₂ : Cacheable noCodec otherScope commentedOne (bytes "/* again */ SELECT 1") := by decide
  have hkey : keyOf (plainScope "c") (selectOne "a") (bytes "SELECT 1") =
      keyOf otherScope commentedOne (bytes "/* again */ SELECT 1") := by decide
  have hsep : Separable (plainScope "c") (selectOne "a") otherScope commentedOne :=
    getQuery_separable rfl rfl (by decide) (by decide)
  exact ⟨hc₁, hc₂, by decide, by decide, hkey, ((same_question_iff hc₁ hc₂ hkey).2 hsep).2 ⟨rfl, by decide⟩⟩

/-- Two users of one cache with the same ClickHouse credentials and one key, no hash colliding: on
different clusters, or in different sessions of one cluster, they do not put the same question. -/
theorem same_key_other_question :
    (plainScope "c").user.cache = (plainScope "d").user.cache ∧
    (plainScope "c").clusterUser = (plainScope "d").clusterUser ∧
    Cacheable noCodec (plainScope "c") (selectOne "a") (bytes "SELECT 1") ∧
    Cacheable noCodec (plainScope "d") (selectOne "a") (bytes "SELECT 1") ∧
    Cacheable noCodec (plainScope "c") (selectOne "b") (bytes "SELECT 1") ∧
    keyOf (plainScope "c") (selectOne "a") (bytes "SELECT 1") =
      keyOf (plainScope "d") (selectOne "a") (bytes "SELECT 1") ∧
    keyOf (plainScope "c") (selectOne "a") (bytes "SELECT 1") =
      keyOf (plainScope "c") (selectOne "b") (bytes "SELECT 1") ∧
    Separable (plainScope "c") (selectOne "a") (plainScope "d") (selectOne "a") ∧
    Separable (plainScope "c") (selectOne "a") (plainScope "c") (selectOne "b") ∧
    ¬SameQuestion noCodec (plainScope "c") (selectOne "a") (plainScope "d") (selectOne "a") ∧
    ¬SameQuestion noCodec (plainScope "c") (selectOne "a") (plainScope "c") (selectOne "b") := by
  refine ⟨rfl, rfl, by decide, by decide, by decide, by decide, by decide,
    getQuery_separable rfl rfl (by decide) (by decide), getQuery_separable rfl rfl (by decide) (by decide),
    fun h => ?_, fun h => ?_⟩
  · exact absurd h.cluster (by decide)
  · exact absurd (h.params "session_id" (by decide)) (by decide)

end Chproxy.Proxy
