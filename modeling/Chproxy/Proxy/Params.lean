/-
Which parameters reach ClickHouse. `decorateRequest` builds the query string from five sources that write
into one map in turn; two of them run over the parsed query in the order in which Go happens to iterate
over a map, which is a parameter here. The result is the same for every order, and for every key it is
given by one rule.
-/
import Chproxy.Lib.UrlEncoding
import Chproxy.Proxy.CacheKey
import Chproxy.Utils.HashedText
import Mathlib.Data.List.Induction

namespace Chproxy.Proxy

open Utils Routing

/-! ## `Encode` -/

/-- The pairs of `url.Values`, by sorted keys, in the order of the values of a key. -/
def Values.pairs (v : Values) : List (Bytes × Bytes) :=
  (v.keys.insertionSort (· ≤ ·)).flatMap fun k => ((v.lookup k).getD []).map fun x => (bytes k, bytes x)

/-- `url.Values.Encode`. -/
def Values.encode (v : Values) : Bytes := UrlEncoding.encodePairs v.pairs

/-- The values of a name in a query string. -/
def queryValues (query : Bytes) (name : Bytes) : List Bytes :=
  (UrlEncoding.parsePairs query).filterMap fun p => if p.1 = name then some p.2 else none

theorem filterMap_pairs (v : Values) (k : String) : ∀ {ks : List String}, ks.Nodup →
    (ks.flatMap fun k => ((v.lookup k).getD []).map fun x => (bytes k, bytes x)).filterMap
        (fun p => if p.1 = bytes k then some p.2 else none) =
      if k ∈ ks then ((v.lookup k).getD []).map bytes else []
  | [], _ => rfl
  | j :: ks, hnd => by
    obtain ⟨hj, hnd⟩ := List.nodup_cons.1 hnd
    rw [List.flatMap_cons, List.filterMap_append, filterMap_pairs v k hnd, List.filterMap_map]
    by_cases hk : j = k
    · subst hk
      simp [hj]
    · have hne : bytes j ≠ bytes k := fun h => hk (bytes_injective h)
      simp [hne, Ne.symm hk]

/-- A key has in the encoded text the values it has in the map. -/
theorem queryValues_encode (v : Values) (k : String) :
    queryValues v.encode (bytes k) = ((v.lookup k).getD []).map bytes := by
  unfold queryValues Values.encode
  rw [UrlEncoding.parsePairs_encodePairs, Values.pairs,
    filterMap_pairs v k ((List.perm_insertionSort _ _).nodup_iff.2 v.keys_nodup)]
  split
  · rfl
  · rename_i hk
    rw [AList.lookup_eq_none.2 (mt (List.mem_insertionSort _).2 hk)]
    rfl

/-- The text has no other names. -/
theorem exists_lookup_of_mem_encode {v : Values} {p : Bytes × Bytes} (h : p ∈ UrlEncoding.parsePairs v.encode) :
    ∃ k, p.1 = bytes k ∧ (v.lookup k).isSome := by
  rw [Values.encode, UrlEncoding.parsePairs_encodePairs, Values.pairs] at h
  obtain ⟨k, hk, hp⟩ := List.mem_flatMap.1 h
  obtain ⟨x, _, rfl⟩ := List.mem_map.1 hp
  exact ⟨k, rfl, AList.lookup_isSome.2 ((List.mem_insertionSort _).1 hk)⟩

/-- The text depends only on what the map holds. -/
theorem Values.encode_congr {v v' : Values} (h : ∀ k, v.lookup k = v'.lookup k) : v.encode = v'.encode := by
  have hmem : ∀ k, k ∈ v.keys ↔ k ∈ v'.keys := fun k => by
    rw [← AList.mem_keys, ← AList.mem_keys, ← AList.lookup_isSome, ← AList.lookup_isSome, h k]
  have hperm : v.keys.Perm v'.keys := (List.perm_ext_iff_of_nodup v.keys_nodup v'.keys_nodup).2 hmem
  have hsorted : v.keys.insertionSort (· ≤ ·) = v'.keys.insertionSort (· ≤ ·) := by
    refine List.Perm.eq_of_pairwise (fun a b _ _ hab hba => le_antisymm hab hba) (List.pairwise_insertionSort _ _)
      (List.pairwise_insertionSort _ _) ?_
    exact (List.perm_insertionSort _ _).trans (hperm.trans (List.perm_insertionSort _ _).symm)
  unfold encode pairs
  rw [hsorted]
  simp only [h]

/-! ## `decorateRequest` in any order of iteration -/

/-- `keepQueryParams` over the keys in the given order. -/
def keepQueryParamsIn (order : List String) (origParams params : Values) : Values :=
  order.foldl (fun ps p => if isQueryParam p then ps.set p (origParams.get p) else ps) params

/-- `decoratePostRequest` over the keys in the given order. -/
def decoratePostRequestIn (order : List String) (req : Request) (origParams params : Values) : Values × Values :=
  if isMultipart req then
    (origParams.set "no_cache" "1",
      order.foldl (fun ps k => if isExternalDataParam k then ps.set k (origParams.get k) else ps) params)
  else (origParams, params)

/-- `decorateParams` with an order for each of the two loops. -/
def decorateParamsIn (order order' : List String) (s : Scope) (req : Request) : Values × Values :=
  let origParams := req.query
  let params := keepQueryParamsIn order origParams (keepAllowedParams origParams (setUserParams s ∅))
  let (origParams, params) :=
    if req.method = .post then decoratePostRequestIn order' req origParams params else (origParams, params)
  ((params.set "query_id" (scopeIDString s.id)).set "session_timeout" (toString s.sessionTimeout.toInt), origParams)

theorem ping_query_of_not_ping {req : Request} (hping : ¬ req.requestURI = pingEndpoint) (params : Values) :
    req.requestURI = pingEndpoint → params = ∅ := fun h => absurd h hping

/-- `decorateRequest` with an order for each of the two loops. -/
def decorateRequestIn (order order' : List String) (s : Scope) (req : Request) : Request × Values :=
  if hping : req.requestURI = pingEndpoint then
    ({ req with scheme := s.host.scheme, host := s.host.host }, req.query)
  else
    let (params, origParams) := decorateParamsIn order order' s req
    ({ req with
        query := params
        basicAuth := some (s.clusterUser.name, s.clusterUser.password)
        header := ((req.header.del "X-Clickhouse-User").del "X-Clickhouse-Key").set "User-Agent"
          (userAgent s (req.header.get "User-Agent"))
        scheme := s.host.scheme
        host := s.host.host
        ping_query := ping_query_of_not_ping hping params }, origParams)

theorem decorateRequestIn_keys (s : Scope) (req : Request) :
    decorateRequestIn req.query.keys req.query.keys s req = decorateRequest s req := rfl

/-! ## What is sent for a key -/

/-- The keys that the client may set in a request of this kind by naming them. -/
def clientKey (req : Request) (k : String) : Bool :=
  isQueryParam k || (req.method == .post && isMultipart req && isExternalDataParam k)

theorem clientKey_iff {req : Request} {k : String} : clientKey req k = true ↔
    isQueryParam k = true ∨ (req.method = .post ∧ isMultipart req = true ∧ isExternalDataParam k = true) := by
  simp [clientKey, and_assoc]

/-- The last value of a key in the user's group of parameters. -/
def lastUserParam (s : Scope) (k : String) : Option String :=
  (((s.user.params.map (·.params)).getD []).reverse.find? (·.key = k)).map (·.value)

/-- The rule: the proxy's own values, then the client's, then those of the user's group. -/
def sentParam (s : Scope) (req : Request) (k : String) : Option String :=
  if k = "query_id" then some (scopeIDString s.id)
  else if k = "session_timeout" then some (toString s.sessionTimeout.toInt)
  else if k ∈ req.query ∧ clientKey req k then some (req.query.get k)
  else if k ∈ allowedParams ∧ 0 < (req.query.get k).length then some (req.query.get k)
  else lastUserParam s k

theorem lookup_paramsMap (k : String) (params : List Config.Param) :
    (paramsMap params).lookup k = (params.reverse.find? (·.key = k)).map (·.value) := by
  induction params using List.reverseRecOn with
  | nil => rfl
  | append_singleton params p ih =>
    unfold paramsMap at ih ⊢
    rw [List.foldl_append, List.reverse_append]
    by_cases hk : k = p.key
    · subst hk
      simp
    · simp [AList.lookup_insert_ne hk, ih, Ne.symm hk]

theorem lookup_userParams (s : Scope) (k : String) : (userParams s).lookup k = lastUserParam s k := by
  unfold userParams lastUserParam
  cases s.user.params with
  | none => rfl
  | some registry => exact lookup_paramsMap k registry.params

section Order

variable {order order' : List String} {s : Scope} {req : Request}

theorem lookup_decoratePostRequestIn (horder : order.Perm req.query.keys) (params : Values) (k : String) :
    (decoratePostRequestIn order req req.query params).2.lookup k =
      if k ∈ req.query ∧ isMultipart req = true ∧ isExternalDataParam k = true then some [req.query.get k]
      else params.lookup k := by
  unfold decoratePostRequestIn
  by_cases hmp : isMultipart req = true
  · rw [if_pos hmp]
    refine (Tables.lookup_foldl_insert (fun k => isExternalDataParam k = true) (fun k => [req.query.get k]) k order
      params).trans ?_
    simp only [horder.mem_iff, AList.mem_keys, hmp, true_and]
  · simp [hmp]

theorem lookup_keepQueryParamsIn (horder : order.Perm req.query.keys) (params : Values) (k : String) :
    (keepQueryParamsIn order req.query params).lookup k =
      if k ∈ req.query ∧ isQueryParam k = true then some [req.query.get k] else params.lookup k := by
  refine (Tables.lookup_foldl_insert (fun p => isQueryParam p = true) (fun p => [req.query.get p]) k order
    params).trans ?_
  simp only [horder.mem_iff, AList.mem_keys]

/-- The map that is encoded holds for every key what the rule says, and nothing else. -/
theorem lookup_decorateParamsIn (horder : order.Perm req.query.keys) (horder' : order'.Perm req.query.keys)
    (k : String) : (decorateParamsIn order order' s req).1.lookup k = (sentParam s req k).map fun v => [v] := by
  let kept := keepQueryParamsIn order req.query (keepAllowedParams req.query (setUserParams s ∅))
  let posted := if req.method = .post then decoratePostRequestIn order' req req.query kept else (req.query, kept)
  have hparams : (decorateParamsIn order order' s req).1 =
      (posted.2.set "query_id" (scopeIDString s.id)).set "session_timeout" (toString s.sessionTimeout.toInt) := rfl
  have hposted : posted.2.lookup k =
      if k ∈ req.query ∧ req.method = .post ∧ isMultipart req = true ∧ isExternalDataParam k = true then
        some [req.query.get k]
      else kept.lookup k := by
    by_cases hm : req.method = .post
    · simp only [posted, hm, if_true, lookup_decoratePostRequestIn horder', true_and]
    · simp [posted, hm]
  rw [hparams]
  unfold sentParam Values.set
  by_cases htimeout : k = "session_timeout"
  · subst htimeout
    rw [AList.lookup_insert, if_neg (by decide), if_pos rfl]
    rfl
  by_cases hid : k = "query_id"
  · subst hid
    rw [AList.lookup_insert_ne (by decide), AList.lookup_insert, if_pos rfl]
    rfl
  rw [AList.lookup_insert_ne htimeout, AList.lookup_insert_ne hid, if_neg hid, if_neg htimeout, hposted,
    lookup_keepQueryParamsIn horder, lookup_keepAllowedParams, lookup_setUserParams, lookup_userParams]
  by_cases hkey : k ∈ req.query ∧ clientKey req k = true
  · -- both loops that copy a key of the client copy the same value
    obtain ⟨hmem, hclient⟩ := hkey
    rw [if_pos (show k ∈ req.query ∧ clientKey req k = true from ⟨hmem, hclient⟩)]
    rcases clientKey_iff.1 hclient with hquery | hpost
    · rw [if_pos (show k ∈ req.query ∧ isQueryParam k = true from ⟨hmem, hquery⟩)]
      split <;> rfl
    · rw [if_pos ⟨hmem, hpost⟩]
      rfl
  · rw [if_neg hkey, if_neg fun h => hkey ⟨h.1, clientKey_iff.2 (.inr h.2)⟩,
      if_neg fun h => hkey ⟨h.1, clientKey_iff.2 (.inl h.2)⟩]
    split <;> rfl

end Order

/-! ## The whitelist -/

/-- The keys whose values may come from the client, apart from the two that the proxy sets itself. -/
def Forwarded (req : Request) (k : String) : Prop :=
  k ≠ "query_id" ∧ k ≠ "session_timeout" ∧ (clientKey req k = true ∨ k ∈ allowedParams)

/-- Two requests of the same kind that differ only in parameters that are not forwarded. -/
structure SameForwarded (req req' : Request) : Prop where
  method : req.method = req'.method
  multipart : isMultipart req = isMultipart req'
  params : ∀ k, Forwarded req k → req.query.lookup k = req'.query.lookup k

theorem SameForwarded.sentParam_eq {req req' : Request} (h : SameForwarded req req') (s : Scope) (k : String) :
    sentParam s req k = sentParam s req' k := by
  have hclient : clientKey req k = clientKey req' k := by simp only [clientKey, h.method, h.multipart]
  unfold sentParam
  split
  · rfl
  rename_i hid
  split
  · rfl
  rename_i htimeout
  by_cases hforwarded : clientKey req k = true ∨ k ∈ allowedParams
  · have hlookup := h.params k ⟨hid, htimeout, hforwarded⟩
    have hmem : k ∈ req.query ↔ k ∈ req'.query := by rw [← AList.lookup_isSome, ← AList.lookup_isSome, hlookup]
    have hget : req.query.get k = req'.query.get k := by unfold Values.get; rw [hlookup]
    simp only [hclient, hmem, hget]
  · obtain ⟨hnot, hnot'⟩ := not_or.1 hforwarded
    rw [if_neg fun h => hnot h.2, if_neg fun h => hnot' h.1, if_neg fun h => hnot (hclient ▸ h.2),
      if_neg fun h => hnot' h.1]

/-- Parameter whitelisting. Whatever the orders of iteration, the query string sent has for every key the
one value the rule gives it, and no other key; requests that differ only in parameters that are not
forwarded send the same one; and the credentials are those of the cluster user. -/
theorem params_whitelisted (s : Scope) {req : Request} (hping : req.requestURI ≠ pingEndpoint)
    {order order' : List String} (horder : order.Perm req.query.keys) (horder' : order'.Perm req.query.keys) :
    let out := (decorateRequestIn order order' s req).1
    (∀ k, queryValues out.query.encode (bytes k) = ((sentParam s req k).map bytes).toList) ∧
    (∀ p ∈ UrlEncoding.parsePairs out.query.encode, ∃ k, p.1 = bytes k ∧ (sentParam s req k).isSome) ∧
    (∀ req' : Request, req'.requestURI ≠ pingEndpoint → SameForwarded req req' →
      ∀ o o' : List String, o.Perm req'.query.keys → o'.Perm req'.query.keys →
        (decorateRequestIn o o' s req').1.query.encode = out.query.encode) ∧
    out.basicAuth = some (s.clusterUser.name, s.clusterUser.password) ∧
    out.header.lookup "X-Clickhouse-User" = none ∧ out.header.lookup "X-Clickhouse-Key" = none := by
  have hquery : ∀ {r : Request} (o o' : List String), r.requestURI ≠ pingEndpoint →
      (decorateRequestIn o o' s r).1.query = (decorateParamsIn o o' s r).1 := fun o o' h => by
    simp only [decorateRequestIn, dif_neg h]
  -- the maps are ranged over in any order, which the lookup does not see
  have hlookup : ∀ k, (decorateRequestIn order order' s req).1.query.lookup k = (sentParam s req k).map fun v => [v] :=
    fun k => by rw [hquery order order' hping, lookup_decorateParamsIn horder horder']
  refine ⟨fun k => ?_, fun p hp => ?_, fun req' hping' hsame o o' ho ho' => ?_, ?_, ?_, ?_⟩
  · rw [queryValues_encode, hlookup]
    cases sentParam s req k <;> rfl
  · obtain ⟨k, hk, hsome⟩ := exists_lookup_of_mem_encode hp
    rw [hlookup, Option.isSome_map] at hsome
    exact ⟨k, hk, hsome⟩
  · refine Values.encode_congr fun k => ?_
    rw [hquery o o' hping', lookup_decorateParamsIn ho ho', hlookup, hsame.sentParam_eq]
  · simp [decorateRequestIn, dif_neg hping]
  · simp only [decorateRequestIn, dif_neg hping, Values.set, Values.del]
    rw [AList.lookup_insert_ne (by decide), AList.lookup_erase_ne (by decide), AList.lookup_erase]
  · simp only [decorateRequestIn, dif_neg hping, Values.set, Values.del]
    rw [AList.lookup_insert_ne (by decide), AList.lookup_erase]

/-- `GET /?query=SELECT 1&param_n=7&query_id=1&user=…&password=…`. -/
def selectAs (user password : String) : Request where
  method := .get
  requestURI := "/?query=SELECT%201"
  scheme := ""
  host := ""
  query := ((((Values.set ∅ "query" "SELECT 1").set "param_n" "7").set "query_id" "1").set "user" user).set
    "password" password
  header := ∅
  basicAuth := none
  body := .nil
  ping_query := fun h => absurd h (by decide)

theorem sameForwarded_selectAs (user password user' password' : String) :
    SameForwarded (selectAs user password) (selectAs user' password') := by
  refine ⟨rfl, rfl, fun k hk => ?_⟩
  have hnamed : isQueryParam k = true ∨ k ∈ allowedParams :=
    hk.2.2.imp_left fun h => (clientKey_iff.1 h).resolve_right fun hpost => by cases hpost.1
  have hpassword : k ≠ "password" := fun h => by
    subst h
    exact absurd hnamed (by decide)
  have huser : k ≠ "user" := fun h => by
    subst h
    exact absurd hnamed (by decide)
  simp only [selectAs, Values.set]
  rw [AList.lookup_insert_ne hpassword, AList.lookup_insert_ne huser, AList.lookup_insert_ne hpassword,
    AList.lookup_insert_ne huser]

/-- The client's own `query_id`, user and password are not sent. -/
theorem params_whitelisted_select :
    let out := (decorateRequestIn (selectAs "a" "x").query.keys (selectAs "a" "x").query.keys (plainScope "c")
      (selectAs "a" "x")).1
    queryValues out.query.encode (bytes "param_n") = [bytes "7"] ∧
    queryValues out.query.encode (bytes "query_id") = [bytes "00000001"] ∧
    queryValues out.query.encode (bytes "password") = [] ∧
    (decorateRequestIn (selectAs "b" "y").query.keys (selectAs "b" "y").query.keys (plainScope "c")
      (selectAs "b" "y")).1.query.encode = out.query.encode := by
  obtain ⟨hvalues, _, hsame, _⟩ := @params_whitelisted (plainScope "c") (selectAs "a" "x") (by decide) _ _
    (.refl _) (.refl _)
  refine ⟨?_, ?_, ?_, hsame (selectAs "b" "y") (by decide) (sameForwarded_selectAs ..) _ _ (.refl _) (.refl _)⟩
  · rw [hvalues]
    decide
  · rw [hvalues]
    decide
  · rw [hvalues]
    decide

end Chproxy.Proxy
