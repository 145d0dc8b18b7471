/-
The checks a configuration passes when it is loaded (`config/config.go`): one validator for each kind
of entry, called by its `UnmarshalYAML`, and that of the whole configuration. The checks of the
listening addresses, of the networks and of unknown fields concern nothing that is modelled.
-/
import Chproxy.Config.Types
import Mathlib.Data.List.Basic

namespace Chproxy.Config

/-- The errors of the validators, each with the arguments of its message. -/
inductive ValidationError
  | clusterNameEmpty
  | nodesOrReplicasUnset (cluster : String)
  | nodesAndReplicasSet (cluster : String)
  | clusterUsersEmpty (cluster : String)
  | unknownScheme (scheme cluster : String)
  | heartbeatUnset (cluster : String)
  | replicaNameEmpty
  | replicaNodesEmpty (replica : String)
  | clusterUserNameEmpty
  | userNameEmpty
  | toUserEmpty (user : String)
  | toClusterEmpty (user : String)
  | httpAndHTTPSDenied (user : String)
  | wildcardMismatch (user : String)
  | maxQueueSizeUnset (user : String)
  | tokensRateUnset (user : String)
  | cacheNameEmpty
  | cacheNotConfigured (cache : String)
  | paramGroupNameEmpty
  | paramGroupEmpty
  | inconsistentConnectionPool
  | noUsers
  | noClusters
  deriving DecidableEq, Repr

/-- A validator: `error` or nothing. -/
abbrev Check := Except ValidationError Unit

/-! ## Clusters -/

def Cluster.validateMinimumRequirements (c : Cluster) : Check :=
  if c.nodes.length = 0 ∧ c.replicas.length = 0 then .error (.nodesOrReplicasUnset c.name)
  else if 0 < c.nodes.length ∧ 0 < c.replicas.length then .error (.nodesAndReplicasSet c.name)
  else if c.clusterUsers.length = 0 then .error (.clusterUsersEmpty c.name)
  else .ok ()

def Cluster.validate (c : Cluster) : Check :=
  if c.name.length = 0 then .error .clusterNameEmpty
  else match c.validateMinimumRequirements with
    | .error e => .error e
    | .ok () =>
      if c.scheme ≠ "http" ∧ c.scheme ≠ "https" then .error (.unknownScheme c.scheme c.name)
      else if c.heartBeat.interval = 0 ∧ c.heartBeat.timeout = 0 ∧ c.heartBeat.response = "" then
        .error (.heartbeatUnset c.name)
      else .ok ()

/-- The checks of `Replica.UnmarshalYAML`. -/
def Replica.validate (r : Replica) : Check :=
  if r.name.length = 0 then .error .replicaNameEmpty
  else if r.nodes.length = 0 then .error (.replicaNodesEmpty r.name)
  else .ok ()

/-- A queue time needs a queue size, a burst needs a rate: the same for users and cluster users. -/
def validateRateLimit (name : String) (maxQueueTime : Duration) (maxQueueSize : UInt32) (burst rate : ByteSize) :
    Check :=
  if maxQueueTime > 0 ∧ maxQueueSize = 0 then .error (.maxQueueSizeUnset name)
  else if burst > 0 ∧ rate = 0 then .error (.tokensRateUnset name)
  else .ok ()

/-- The checks of `ClusterUser.UnmarshalYAML`. -/
def ClusterUser.validate (cu : ClusterUser) : Check :=
  if cu.name.length = 0 then .error .clusterUserNameEmpty
  else validateRateLimit cu.name cu.maxQueueTime cu.maxQueueSize cu.reqPacketSizeTokensBurst cu.reqPacketSizeTokensRate

/-! ## Users -/

/-- `strings.Split(name, "*")`. -/
def splitStar (name : String) : List String := (name.toList.splitOn '*').map String.ofList

def User.validateWildcarded (u : User) : Check :=
  if u.isWildcarded then
    match splitStar u.name with
    | [s₀, s₁] => if s₀ = "" ∨ s₁ = "" then .ok () else .error (.wildcardMismatch u.name)
    | _ => .error (.wildcardMismatch u.name)
  else .ok ()

def User.validateRateLimitConfig (u : User) : Check :=
  validateRateLimit u.name u.maxQueueTime u.maxQueueSize u.reqPacketSizeTokensBurst u.reqPacketSizeTokensRate

def User.validate (u : User) : Check :=
  if u.name.length = 0 then .error .userNameEmpty
  else if u.toUser.length = 0 then .error (.toUserEmpty u.name)
  else if u.toCluster.length = 0 then .error (.toClusterEmpty u.name)
  else if u.denyHTTP ∧ u.denyHTTPS then .error (.httpAndHTTPSDenied u.name)
  else match u.validateWildcarded with
    | .error e => .error e
    | .ok () => u.validateRateLimitConfig

/-! ## Caches, parameter groups and the connection pool -/

/-- The checks of `Cache.UnmarshalYAML`; what `checkFileSystemConfig` and `checkRedisConfig` find is
not passed on. -/
def Cache.validate (c : Cache) : Check :=
  if c.name.length = 0 then .error .cacheNameEmpty
  else if c.mode = "file_system" then
    if c.fileSystem.dir.length = 0 ∨ c.fileSystem.maxSize ≤ 0 then .error (.cacheNotConfigured c.name) else .ok ()
  else if c.mode = "redis" then
    if c.redis.addresses.length = 0 then .error (.cacheNotConfigured c.name) else .ok ()
  else .error (.cacheNotConfigured c.name)

/-- The checks of `ParamGroup.UnmarshalYAML`. -/
def ParamGroup.validate (pg : ParamGroup) : Check :=
  if pg.name.length = 0 then .error .paramGroupNameEmpty
  else if pg.params.length = 0 then .error .paramGroupEmpty
  else .ok ()

/-- The check of `ConnectionPool.UnmarshalYAML`. -/
def ConnectionPool.validate (cp : ConnectionPool) : Check :=
  if cp.maxIdleConnsPerHost > cp.maxIdleConns ∨ cp.maxIdleConns < 0 then .error .inconsistentConnectionPool
  else .ok ()

end Chproxy.Config

namespace Chproxy

open Config

def Config.validate (c : Config) : Check :=
  if c.users.length = 0 then .error .noUsers
  else if c.clusters.length = 0 then .error .noClusters
  else .ok ()

/-- The configuration passed every validator. -/
structure Config.Valid (cfg : Config) : Prop where
  config : cfg.validate = .ok ()
  clusters : ∀ c ∈ cfg.clusters, c.validate = .ok ()
  replicas : ∀ c ∈ cfg.clusters, ∀ r ∈ c.replicas, r.validate = .ok ()
  clusterUsers : ∀ c ∈ cfg.clusters, ∀ cu ∈ c.clusterUsers, cu.validate = .ok ()
  users : ∀ u ∈ cfg.users, u.validate = .ok ()
  caches : ∀ c ∈ cfg.caches, c.validate = .ok ()
  paramGroups : ∀ pg ∈ cfg.paramGroups, pg.validate = .ok ()
  connectionPool : cfg.connectionPool.validate = .ok ()

/-! ## What the checks leave -/

namespace Config

theorem Cluster.validateMinimumRequirements_ok {c : Cluster} (h : c.validateMinimumRequirements = .ok ()) :
    c.clusterUsers ≠ [] ∧ (c.nodes = [] → c.replicas ≠ []) := by
  unfold validateMinimumRequirements at h
  split at h
  · cases h
  rename_i hnone
  split at h
  · cases h
  split at h
  · cases h
  rename_i husers
  refine ⟨fun he => husers (by rw [he]; rfl), fun hn hr => hnone ?_⟩
  rw [hn, hr]
  exact ⟨rfl, rfl⟩

theorem Cluster.validate_ok {c : Cluster} (h : c.validate = .ok ()) :
    c.clusterUsers ≠ [] ∧ (c.nodes = [] → c.replicas ≠ []) := by
  unfold validate at h
  split at h
  · cases h
  cases hmin : c.validateMinimumRequirements with
  | error e => simp [hmin] at h
  | ok => exact validateMinimumRequirements_ok hmin

theorem Replica.validate_ok {r : Replica} (h : r.validate = .ok ()) : r.nodes ≠ [] := by
  rintro hnodes
  unfold validate at h
  rw [hnodes, if_pos (show ([] : List String).length = 0 from rfl)] at h
  split at h <;> cases h

/-- The number of nodes of each replica; flat nodes count as one replica. -/
def Cluster.hostCounts (c : Cluster) : List Nat :=
  if 0 < c.nodes.length then [c.nodes.length] else c.replicas.map (·.nodes.length)

theorem Cluster.hostCounts_pos {c : Cluster} (hc : c.validate = .ok ()) (hr : ∀ r ∈ c.replicas, r.validate = .ok ()) :
    c.hostCounts ≠ [] ∧ 0 ∉ c.hostCounts := by
  unfold hostCounts
  split
  · rename_i hnodes
    exact ⟨List.cons_ne_nil _ _, by simpa using (Nat.ne_of_lt hnodes)⟩
  · rename_i hnodes
    have hnil : c.nodes = [] := by simpa using hnodes
    refine ⟨by simpa using (validate_ok hc).2 hnil, fun hmem => ?_⟩
    obtain ⟨r, hr', hzero⟩ := List.mem_map.1 hmem
    exact Replica.validate_ok (hr r hr') (List.length_eq_zero_iff.1 hzero)

theorem ClusterUser.validate_ok {cu : ClusterUser} (h : cu.validate = .ok ()) : cu.name ≠ "" := by
  rintro hname
  unfold validate at h
  rw [if_pos (by rw [hname]; rfl)] at h
  cases h

theorem validateRateLimit_ok {name : String} {maxQueueTime : Duration} {maxQueueSize : UInt32} {burst rate : ByteSize}
    (h : validateRateLimit name maxQueueTime maxQueueSize burst rate = .ok ()) :
    (maxQueueTime > 0 → maxQueueSize ≠ 0) ∧ (burst > 0 → rate ≠ 0) := by
  unfold validateRateLimit at h
  split at h
  · cases h
  · rename_i hqueue
    split at h
    · cases h
    · rename_i htokens
      exact ⟨fun htime hsize => hqueue ⟨htime, hsize⟩, fun hburst hrate => htokens ⟨hburst, hrate⟩⟩

theorem ClusterUser.validate_limits {cu : ClusterUser} (h : cu.validate = .ok ()) :
    (cu.maxQueueTime > 0 → cu.maxQueueSize ≠ 0) ∧
      (cu.reqPacketSizeTokensBurst > 0 → cu.reqPacketSizeTokensRate ≠ 0) := by
  unfold validate at h
  split at h
  · cases h
  · exact validateRateLimit_ok h

/-- The name of a wildcarded user has exactly one star, at its end or at its beginning. -/
def IsPattern (name : String) : Prop := ∃ s₀ s₁, splitStar name = [s₀, s₁] ∧ (s₀ = "" ∨ s₁ = "")

theorem User.validateWildcarded_ok {u : User} (h : u.validateWildcarded = .ok ()) (hw : u.isWildcarded = true) :
    IsPattern u.name := by
  unfold validateWildcarded at h
  rw [if_pos hw] at h
  split at h
  · rename_i s₀ s₁ hs
    split at h
    · exact ⟨s₀, s₁, hs, ‹_›⟩
    · cases h
  · cases h

theorem User.validate_ok {u : User} (h : u.validate = .ok ()) (hw : u.isWildcarded = true) : IsPattern u.name := by
  cases hwild : u.validateWildcarded with
  | ok => exact validateWildcarded_ok hwild hw
  | error e =>
    unfold validate at h
    simp only [hwild] at h
    repeat' split at h
    all_goals cases h

end Config

end Chproxy
