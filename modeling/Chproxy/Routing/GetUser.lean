/-
Who a request is proxied as: `getUser` of `proxy.go` with its two ways to find a user, the exact name
and the patterns of the wildcarded users. The loop over the patterns runs in the order in which Go
happens to iterate over the map of users, which is a parameter here.
-/
import Chproxy.Routing.Closed

namespace Chproxy.Routing

open Config (splitStar IsPattern)

/-! ## `getUser` -/

/-- The results `found`, `u`, `c` and `cu`; `none` stands for nil. -/
structure Lookup where
  found : Bool
  u : Option User
  c : Option Cluster
  cu : Option ClusterUser

def Lookup.notFound : Lookup := ⟨false, none, none, none⟩

def defaultUser : String := "default"

/-- The copy has neither packet size tokens nor the wildcard mark; the capacity of its queue is taken
from the queue time, as in the source. -/
def deepCopy (cu : ClusterUser) : ClusterUser where
  name := cu.name
  password := cu.password
  maxConcurrentQueries := cu.maxConcurrentQueries
  maxExecutionTime := cu.maxExecutionTime
  reqPerMin := cu.reqPerMin
  queueCh := if cu.maxQueueTime > 0 then some cu.maxQueueTime.toInt.toNat else none
  maxQueueTime := cu.maxQueueTime
  limiter := none
  reqPacketSizeTokensBurst := 0
  reqPacketSizeTokensRate := 0
  allowedNetworks := cu.allowedNetworks
  isWildcarded := false

namespace ReverseProxy

def generateWildcardedUserInformation (rp : ReverseProxy) (user : User) (name password : String) :
    Except Failure Lookup :=
  match rp.clusters.lookup user.toCluster with
  | none => .error .panic -- `c.users` of a nil cluster
  | some c =>
    match c.users.lookup user.toUser with
    | none => .ok ⟨false, none, some c, none⟩
    | some wildcardedCu =>
      .ok ⟨true, some user, some c, some { deepCopy wildcardedCu with name := name, password := password }⟩

def findWildcardedUserInformation (rp : ReverseProxy) (name password : String) : List User → Except Failure Lookup
  | [] => .ok .notFound
  | user :: users =>
    if user.isWildcarded then
      match splitStar user.name with
      | s₀ :: s₁ :: _ =>
        if s₀ = "" ∧ s₁ = "" then rp.generateWildcardedUserInformation user name password
        else if s₀ = "" then
          if s₁.toList.isSuffixOf name.toList then rp.generateWildcardedUserInformation user name password
          else rp.findWildcardedUserInformation name password users
        else if s₁ = "" then
          if s₀.toList.isPrefixOf name.toList then rp.generateWildcardedUserInformation user name password
          else rp.findWildcardedUserInformation name password users
        else rp.findWildcardedUserInformation name password users
      | _ => .error .panic -- `s[1]` is read on every path
    else rp.findWildcardedUserInformation name password users

/-- `getUser`; `order` is the order of iteration over the users. -/
def getUser (rp : ReverseProxy) (order : List User) (name password : String) : Except Failure Lookup :=
  match rp.users.lookup name with
  | some u =>
    match rp.clusters.lookup u.toCluster with
    | none => .error .panic
    | some c => .ok ⟨u.password == password, some u, some c, c.users.lookup u.toUser⟩
  | none =>
    -- the default user can't work with the wildcarded feature
    if name = "" ∨ name = defaultUser then .ok .notFound
    else if rp.hasWildcarded then rp.findWildcardedUserInformation name password order
    else .ok .notFound

end ReverseProxy

/-- The users of a map, in the order in which it stores them. -/
def userValues (users : Map User) : List User := users.entries.map (·.2)

theorem exists_lookup_of_mem_userValues {users : Map User} {u : User} (h : u ∈ userValues users) :
    ∃ name, users.lookup name = some u := by
  obtain ⟨⟨name, _⟩, hmem, rfl⟩ := List.mem_map.1 h
  exact ⟨name, AList.mem_lookup_iff.2 hmem⟩

/-! ## What a request is proxied as -/

/-- A cluster user that carries the credentials of the request. -/
def ClusterUser.Carries (cu : ClusterUser) (name password : String) : Prop := cu.name = name ∧ cu.password = password

/-- The lookup returns, and a user found is used as documented: a wildcarded one with the credentials of
the request, any other one by its password and with the configured cluster user. -/
def CredentialsKept (rp : ReverseProxy) (name password : String) (result : Except Failure Lookup) : Prop :=
  ∃ r, result = .ok r ∧
    (r.found = true → ∃ u cu, r.u = some u ∧ r.cu = some cu ∧
      (u.isWildcarded = true → cu.Carries name password) ∧
      (u.isWildcarded = false → password = u.password ∧ configured rp.clusters u.toCluster u.toUser = some cu))

section Search

variable {rp : ReverseProxy} {name password : String}

/-- The search finds nobody or comes to a wildcarded user, for whom it returns what is generated, or panics if its
name is no pattern. -/
def ReverseProxy.Searched (rp : ReverseProxy) (name password : String) (order : List User)
    (result : Except Failure Lookup) : Prop :=
  result = .ok .notFound ∨ ∃ u ∈ order, u.isWildcarded = true ∧
    (result = rp.generateWildcardedUserInformation u name password ∨ ¬IsPattern u.name ∧ result = .error .panic)

variable (rp name password) in
theorem ReverseProxy.findWildcardedUserInformation_searched : ∀ order : List User,
    rp.Searched name password order (rp.findWildcardedUserInformation name password order)
  | [] => .inl rfl
  | user :: users => by
    have ih : rp.Searched name password (user :: users) (rp.findWildcardedUserInformation name password users) :=
      (findWildcardedUserInformation_searched users).imp_right fun ⟨u, hu, h⟩ => ⟨u, List.mem_cons_of_mem _ hu, h⟩
    unfold findWildcardedUserInformation
    split
    · rename_i hwild
      split
      · repeat' split
        all_goals first | exact ih | exact .inr ⟨user, List.mem_cons_self, hwild, .inl rfl⟩
      · rename_i hsplit
        refine .inr ⟨user, List.mem_cons_self, hwild, .inr ⟨?_, rfl⟩⟩
        rintro ⟨s₀, s₁, heq, -⟩
        exact hsplit s₀ s₁ [] heq
    · exact ih

/-- The copy of the configured cluster user, with the credentials of the request. -/
theorem ReverseProxy.generateWildcardedUserInformation_copy {user : User} {c : Cluster} {cu : ClusterUser}
    (hc : rp.clusters.lookup user.toCluster = some c) (hcu : c.users.lookup user.toUser = some cu)
    (name password : String) :
    rp.generateWildcardedUserInformation user name password =
      .ok ⟨true, some user, some c, some { deepCopy cu with name := name, password := password }⟩ := by
  simp only [generateWildcardedUserInformation, hc, hcu]

theorem ReverseProxy.generateWildcardedUserInformation_kept {user : User}
    (htarget : (configured rp.clusters user.toCluster user.toUser).isSome) (hwild : user.isWildcarded = true) :
    CredentialsKept rp name password (rp.generateWildcardedUserInformation user name password) := by
  obtain ⟨cu, hcu⟩ := Option.isSome_iff_exists.1 htarget
  obtain ⟨c, hc, hcu⟩ := Option.bind_eq_some_iff.1 hcu
  refine ⟨_, generateWildcardedUserInformation_copy hc hcu name password, fun _ => ?_⟩
  refine ⟨user, _, rfl, rfl, fun _ => ⟨rfl, rfl⟩, fun hplain => ?_⟩
  rw [hwild] at hplain
  cases hplain

/-- No user found by its pattern is proxied with other credentials than those of the request. -/
theorem ReverseProxy.findWildcardedUserInformation_kept {order : List User}
    (htarget : ∀ u ∈ order, (configured rp.clusters u.toCluster u.toUser).isSome)
    (hpattern : ∀ u ∈ order, u.isWildcarded = true → IsPattern u.name) :
    CredentialsKept rp name password (rp.findWildcardedUserInformation name password order) := by
  rcases rp.findWildcardedUserInformation_searched name password order with
    hnobody | ⟨u, hu, hwild, hgen | ⟨hnot, -⟩⟩
  · exact ⟨.notFound, hnobody, nofun⟩
  · rw [hgen]
    exact generateWildcardedUserInformation_kept (htarget u hu) hwild
  · exact absurd (hpattern u hu hwild) hnot

end Search

/-- A name in the table: the user of that name, with the cluster user configured for it. -/
theorem ReverseProxy.getUser_known {rp : ReverseProxy} (hclosed : rp.tables.Closed) (order : List User)
    {name : String} (password : String) {u : User} (hu : rp.users.lookup name = some u) :
    ∃ c cu, configured rp.clusters u.toCluster u.toUser = some cu ∧
      rp.getUser order name password = .ok ⟨u.password == password, some u, some c, some cu⟩ := by
  obtain ⟨cu, hcu⟩ := Option.isSome_iff_exists.1 (hclosed.users name u hu).target
  obtain ⟨c, hc, hcu'⟩ := Option.bind_eq_some_iff.1 hcu
  refine ⟨c, cu, hcu, ?_⟩
  change rp.clusters.lookup u.toCluster = some c at hc
  simp only [getUser, hu, hc, hcu']

/-- A name that is not in the table: nobody, or a wildcarded user with the credentials of the request. -/
theorem ReverseProxy.getUser_unknown {rp : ReverseProxy} (hclosed : rp.tables.Closed) {order : List User}
    (horder : order.Perm (userValues rp.users)) {name : String} (password : String)
    (hu : rp.users.lookup name = none) : CredentialsKept rp name password (rp.getUser order name password) := by
  have hrouted : ∀ u ∈ order, ∃ name, u.Routed rp.tables.clusters rp.tables.caches name := by
    intro u hmem
    obtain ⟨name, hname⟩ := exists_lookup_of_mem_userValues (horder.mem_iff.1 hmem)
    exact ⟨name, hclosed.users name u hname⟩
  simp only [getUser, hu]
  split
  · exact ⟨.notFound, rfl, nofun⟩
  split
  · refine findWildcardedUserInformation_kept (fun u hmem => ?_) fun u hmem => ?_
    · exact (hrouted u hmem).choose_spec.target
    · exact (hrouted u hmem).choose_spec.pattern
  · exact ⟨.notFound, rfl, nofun⟩

/-- `getUser` never panics. -/
theorem ReverseProxy.getUser_returns {rp : ReverseProxy} (hclosed : rp.tables.Closed) {order : List User}
    (horder : order.Perm (userValues rp.users)) (name password : String) :
    ∃ r, rp.getUser order name password = .ok r := by
  cases hu : rp.users.lookup name with
  | some u =>
    obtain ⟨c, cu, _, hget⟩ := getUser_known hclosed order password hu
    exact ⟨_, hget⟩
  | none =>
    obtain ⟨r, hr, _⟩ := getUser_unknown hclosed horder password hu
    exact ⟨r, hr⟩

/-- A request is proxied with the credentials it may use, unless it names a wildcarded user by the text
of its pattern, with that user's password: then the configured cluster user is used, which need not have
these credentials. -/
theorem wildcarded_credentials_iff {s : Loader} (h : Steps.ReachWhen Loader.load Loader.Initial ValidLoad s)
    {order : List User} (horder : order.Perm (userValues s.rp.users)) (name password : String) :
    CredentialsKept s.rp name password (s.rp.getUser order name password) ↔
      ∀ u, s.rp.users.lookup name = some u → u.isWildcarded = true → u.password = password →
        ∀ cu, configured s.rp.clusters u.toCluster u.toUser = some cu → cu.Carries name password := by
  have hclosed := Loader.closed_reach h
  cases hu : s.rp.users.lookup name with
  -- an unknown name is served by a pattern, if at all, with a copy that carries the credentials
  | none => exact iff_of_true (ReverseProxy.getUser_unknown hclosed horder password hu) fun u h => by cases h
  | some u =>
    obtain ⟨c, cu, hcu, hget⟩ := ReverseProxy.getUser_known hclosed order password hu
    rw [hget]
    simp only [Option.some.injEq, forall_eq', hcu]
    constructor
    · rintro ⟨r, hr, hkept⟩ hwild hpass
      cases hr
      obtain ⟨u', cu', hu', hcu', hcarries, _⟩ := hkept (by simp [hpass])
      cases hu'
      cases hcu'
      exact hcarries hwild
    · intro hcond
      refine ⟨_, rfl, fun hfound => ?_⟩
      have hpass : u.password = password := by simpa using hfound
      exact ⟨u, cu, rfl, rfl, fun hwild => hcond hwild hpass, fun _ => ⟨hpass.symm, hcu⟩⟩

/-- A cluster user `web` and, mapped to it, the wildcarded user `analyst_*`. -/
def analystConfig : Config :=
  { smallConfig 2 "c" with
    clusters :=
      [{ name := "c", scheme := "http", nodes := ["n"], replicas := []
         clusterUsers := [⟨"web", "secret", 0, 0, 0, 0, 0, 0, 0, []⟩], killQueryUser := ⟨"", ""⟩
         heartBeat := ⟨5000000000, 3000000000, "/ping", "Ok.\n", "", ""⟩, retryNumber := 0 }]
    users :=
      [{ name := "analyst_*", password := "p", toCluster := "c", toUser := "web", maxConcurrentQueries := 0
         maxExecutionTime := 0, reqPerMin := 0, reqPacketSizeTokensBurst := 0, reqPacketSizeTokensRate := 0
         maxQueueSize := 0, maxQueueTime := 0, allowedNetworks := [], denyHTTP := false, denyHTTPS := false
         allowCORS := false, cache := "", params := "", isWildcarded := true }] }

def analystLoader : Loader :=
  let out := (newReverseProxy ⟨2, 2⟩).applyConfig calmWorld 0 analystConfig
  ⟨out.rp, out.next, [] ++ cacheIds out.closed⟩

theorem analystConfig_valid : analystConfig.Valid where
  config := rfl
  clusters := List.forall_mem_singleton.2 rfl
  replicas := List.forall_mem_singleton.2 nofun
  clusterUsers := List.forall_mem_singleton.2 (List.forall_mem_singleton.2 rfl)
  users := List.forall_mem_singleton.2 rfl
  caches := nofun
  paramGroups := nofun
  connectionPool := rfl

theorem analystLoader_reach : Steps.ReachWhen Loader.load Loader.Initial ValidLoad analystLoader :=
  .step (s := ⟨newReverseProxy ⟨2, 2⟩, 0, []⟩) (a := (calmWorld, analystConfig)) (.init ⟨⟨⟨2, 2⟩, rfl⟩, rfl, rfl⟩) rfl
    analystConfig_valid

theorem wildcarded_credentials_analyst :
    CredentialsKept analystLoader.rp "analyst_7" "mine"
      (analystLoader.rp.getUser (userValues analystLoader.rp.users) "analyst_7" "mine") := by
  refine (wildcarded_credentials_iff analystLoader_reach (.refl _) "analyst_7" "mine").2 fun u hu => ?_
  rw [show analystLoader.rp.users.lookup "analyst_7" = none by decide] at hu
  cases hu

/-- The name `analyst_*` itself is a user's name: with the password of that user, which the documentation
says is not used, the request is proxied as `web` with the configured password. -/
theorem pattern_name_gets_configured_credentials :
    let result := analystLoader.rp.getUser (userValues analystLoader.rp.users) "analyst_*" "p"
    Steps.ReachWhen Loader.load Loader.Initial ValidLoad analystLoader ∧
      result.toOption.map (fun r => (r.found, r.u.map (·.isWildcarded), r.cu.map fun cu => (cu.name, cu.password))) =
        some (true, some true, some ("web", "secret")) ∧
      ¬CredentialsKept analystLoader.rp "analyst_*" "p" result := by
  intro result
  have hresult : result.toOption.map
      (fun r => (r.found, r.u.map (·.isWildcarded), r.cu.map fun cu => (cu.name, cu.password))) =
        some (true, some true, some ("web", "secret")) := by decide
  refine ⟨analystLoader_reach, hresult, ?_⟩
  rintro ⟨r, hr, hkept⟩
  simp only [hr, Except.toOption, Option.map_some, Option.some.injEq, Prod.mk.injEq] at hresult
  obtain ⟨hfound, hwild, hcu⟩ := hresult
  obtain ⟨u, cu, hu, hcu', hcarries, _⟩ := hkept hfound
  simp only [hu, hcu', Option.map_some, Option.some.injEq, Prod.mk.injEq] at hwild hcu
  have hname := (hcarries hwild).1
  rw [hcu.1] at hname
  exact absurd hname (by decide)

end Chproxy.Routing
