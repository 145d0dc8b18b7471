/-
Requests and their preparation for ClickHouse: `decorateRequest` (`scope.go`), `getFullQuery`
(`utils.go`) and `shouldRespondFromCache` (`proxy.go`). The query string of a URL is kept parsed, as
`url.Values`; `Encode` and `ParseQuery` of `net/url` are taken to be inverse.
-/
import Chproxy.Routing.Objects
import Chproxy.Utils.QueryText

namespace Chproxy.Proxy

open Utils Routing

/-! ## Values, headers, requests -/

/-- `url.Values` and `http.Header` (the names of the latter in canonical form). -/
abbrev Values := Map (List String)

namespace Values

/-- The first value of a key, or the empty string. -/
def get (v : Values) (k : String) : String := ((v.lookup k).bind List.head?).getD ""

def set (v : Values) (k x : String) : Values := v.insert k [x]

def del (v : Values) (k : String) : Values := v.erase k

end Values

inductive Method
  | get
  | post
  | other
  deriving DecidableEq, Repr

/-- A request body: absent, or a stream that ends, or one that fails. -/
inductive Body
  | nil
  | data (bs : Bytes)
  | broken
  deriving DecidableEq, Repr

def pingEndpoint : String := "/ping"

/-- `http.Request`. `query` is that of the URL, `basicAuth` the decoded `Authorization` header. The
URL comes from the request line, so a bare `/ping` has no query. -/
structure Request where
  method : Method
  requestURI : String
  scheme : String
  host : String
  query : Values
  header : Values
  basicAuth : Option (String × String)
  body : Body
  ping_query : requestURI = pingEndpoint → query = ∅

/-- The part of `scope` that preparing a request reads. -/
structure Scope where
  id : UInt64
  host : Node
  cluster : Cluster
  user : User
  clusterUser : ClusterUser
  sessionTimeout : Int64
  remoteAddr : String
  localAddr : String

/-- `scopeID.String`: at least eight upper-case hexadecimal digits. -/
def scopeIDString (id : UInt64) : String :=
  let digits := (Nat.toDigits 16 id.toNat).map Char.toUpper
  String.ofList (List.replicate (8 - digits.length) '0' ++ digits)

/-! ## `decorateRequest` -/

def allowedParams : List String :=
  ["query", "database", "default_format", "compress", "decompress", "enable_http_compression",
    "max_result_rows", "extremes", "result_overflow_mode", "session_id", "session_timeout", "log_comment"]

/-- `strings.HasPrefix(param, "param_")`. -/
def isQueryParam (param : String) : Bool := "param_".toList.isPrefixOf param.toList

/-- `externalDataParams.MatchString`. -/
def isExternalDataParam (key : String) : Bool :=
  ["_types", "_structure", "_format"].any fun s => s.toList.isSuffixOf key.toList

/-- `strings.Contains(ct, "multipart/form-data")`. -/
def isMultipart (req : Request) : Bool :=
  (req.header.get "Content-Type").toList.tails.any fun t => "multipart/form-data".toList.isPrefixOf t

/-- The parameters of the user's group. -/
def setUserParams (s : Scope) (params : Values) : Values :=
  match s.user.params with
  | none => params
  | some registry => registry.params.foldl (fun ps p => ps.set p.key p.value) params

def keepAllowedParams (origParams params : Values) : Values :=
  allowedParams.foldl (fun ps p => if 0 < (origParams.get p).length then ps.set p (origParams.get p) else ps) params

def keepQueryParams (origParams params : Values) : Values :=
  origParams.keys.foldl (fun ps p => if isQueryParam p then ps.set p (origParams.get p) else ps) params

/-- `decoratePostRequest`: the two maps afterwards, the original parameters first. -/
def decoratePostRequest (req : Request) (origParams params : Values) : Values × Values :=
  if isMultipart req then
    -- a request with external data is never answered from the cache
    (origParams.set "no_cache" "1",
      origParams.keys.foldl (fun ps k => if isExternalDataParam k then ps.set k (origParams.get k) else ps) params)
  else (origParams, params)

/-- `User-Agent`, extended for `system.query_log`. -/
def userAgent (s : Scope) (ua : String) : String :=
  "RemoteAddr: " ++ s.remoteAddr ++ "; LocalAddr: " ++ s.localAddr ++ "; CHProxy-User: " ++ s.user.name ++
    "; CHProxy-ClusterUser: " ++ s.clusterUser.name ++ "; " ++ ua

/-- The parameters sent and the original ones as the rest of the handler sees them. -/
def decorateParams (s : Scope) (req : Request) : Values × Values :=
  let origParams := req.query
  let params := keepQueryParams origParams (keepAllowedParams origParams (setUserParams s ∅))
  let (origParams, params) :=
    if req.method = .post then decoratePostRequest req origParams params else (origParams, params)
  ((params.set "query_id" (scopeIDString s.id)).set "session_timeout" (toString s.sessionTimeout.toInt), origParams)

def decorateRequest (s : Scope) (req : Request) : Request × Values :=
  if hping : req.requestURI = pingEndpoint then
    -- a ping goes on as it came, to the host that was chosen
    ({ req with scheme := s.host.scheme, host := s.host.host }, req.query)
  else
    let (params, origParams) := decorateParams s req
    ({ req with
        query := params
        basicAuth := some (s.clusterUser.name, s.clusterUser.password)
        header := ((req.header.del "X-Clickhouse-User").del "X-Clickhouse-Key").set "User-Agent"
          (userAgent s (req.header.get "User-Agent"))
        scheme := s.host.scheme
        host := s.host.host
        ping_query := fun h => absurd h hping }, origParams)

/-! ## The query -/

/-- The two decompressors; `none` is an error. -/
structure Codec where
  gunzip : Bytes → Option Bytes
  chDecompress : Bytes → Option Bytes

def decompress (codec : Codec) (req : Request) (data : Bytes) : Option Bytes :=
  if req.header.get "Content-Encoding" = "gzip" then codec.gunzip data
  else if req.query.get "decompress" = "1" then codec.chDecompress data
  else some data

def getFullQueryFromBody (codec : Codec) (req : Request) : Option Bytes :=
  match req.body with
  | .nil => some []
  | .broken => none
  | .data data => decompress codec req data

/-- `none` when the body cannot be read or decompressed. -/
def getFullQuery (codec : Codec) (req : Request) : Option Bytes := do
  let query := bytes (req.query.get "query")
  let body ← getFullQueryFromBody codec req
  some (query ++ (if query.length ≠ 0 ∧ body.length ≠ 0 then [10] else []) ++ body)

/-- `none` when the query cannot be read; otherwise the query and whether to go to the cache. -/
def shouldRespondFromCache (codec : Codec) (s : Scope) (origParams : Values) (req : Request) :
    Option (Bytes × Bool) :=
  if s.user.cache.isNone then some ([], false)
  else
    let noCache := origParams.get "no_cache"
    if noCache = "1" ∨ noCache = "true" then some ([], false)
    else (getFullQuery codec req).map fun q => (q, canCacheQuery q)

/-! ## What is sent -/

/-- The parameters of a user's group, as one map. -/
def userParams (s : Scope) : StringMap :=
  match s.user.params with
  | none => ∅
  | some registry => paramsMap registry.params

theorem lookup_setUserParams (s : Scope) (k : String) :
    (setUserParams s ∅).lookup k = ((userParams s).lookup k).map fun v => [v] := by
  unfold setUserParams userParams
  split
  · rfl
  · exact Tables.lookup_foldl_pairs Config.Param.key Config.Param.value (fun v => [v]) k _ ∅ ∅ rfl

theorem lookup_keepAllowedParams (origParams params : Values) (k : String) :
    (keepAllowedParams origParams params).lookup k =
      if k ∈ allowedParams ∧ 0 < (origParams.get k).length then some [origParams.get k] else params.lookup k :=
  Tables.lookup_foldl_insert (fun p => 0 < (origParams.get p).length)
    (fun p => [origParams.get p]) k allowedParams params

theorem lookup_keepQueryParams (origParams params : Values) (k : String) :
    (keepQueryParams origParams params).lookup k =
      if k ∈ origParams.keys ∧ isQueryParam k = true then some [origParams.get k] else params.lookup k :=
  Tables.lookup_foldl_insert (fun p => isQueryParam p = true) (fun p => [origParams.get p]) k origParams.keys params

/-- A request is cached only if it carries no external data. -/
theorem not_multipart_of_cacheable {codec : Codec} {s : Scope} {req : Request} {q : Bytes}
    (hping : req.requestURI ≠ pingEndpoint)
    (h : shouldRespondFromCache codec s (decorateRequest s req).2 (decorateRequest s req).1 = some (q, true)) :
    ¬(req.method = .post ∧ isMultipart req = true) := by
  rintro ⟨hpost, hmp⟩
  have horig : (decorateRequest s req).2.get "no_cache" = "1" := by
    simp [decorateRequest, decorateParams, decoratePostRequest, hping, hpost, hmp, Values.get, Values.set]
  simp [shouldRespondFromCache, horig] at h

/-- What a request that carries no external data sends for a parameter, apart from the two that the
proxy sets itself. -/
theorem lookup_decorateRequest {s : Scope} {req : Request} (hping : req.requestURI ≠ pingEndpoint)
    (hmp : ¬(req.method = .post ∧ isMultipart req = true)) {k : String} (hid : k ≠ "query_id")
    (htimeout : k ≠ "session_timeout") :
    (decorateRequest s req).1.query.lookup k =
      if k ∈ req.query.keys ∧ isQueryParam k = true then some [req.query.get k]
      else if k ∈ allowedParams ∧ 0 < (req.query.get k).length then some [req.query.get k]
      else ((userParams s).lookup k).map fun v => [v] := by
  -- without external data `decoratePostRequest` changes nothing, whatever the method
  have hpost : (if req.method = .post then decoratePostRequest req req.query
      (keepQueryParams req.query (keepAllowedParams req.query (setUserParams s ∅)))
      else (req.query, keepQueryParams req.query (keepAllowedParams req.query (setUserParams s ∅)))) =
      (req.query, keepQueryParams req.query (keepAllowedParams req.query (setUserParams s ∅))) := by
    unfold decoratePostRequest
    split
    · rename_i hp
      rw [if_neg fun h => hmp ⟨hp, h⟩]
    · rfl
  simp only [decorateRequest, hping, dif_neg, not_false_eq_true, decorateParams, hpost, Values.set]
  rw [AList.lookup_insert_ne htimeout, AList.lookup_insert_ne hid, lookup_keepQueryParams,
    lookup_keepAllowedParams, lookup_setUserParams]

end Chproxy.Proxy
