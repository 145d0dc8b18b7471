/-
The routing tables built from a configuration (`scope.go`, `proxy.go`, `async_cache.go`): clusters
with their users and nodes, caches, parameter groups and users, each by the constructor of the
source. Counters, rate limiters and activity flags start at zero and are not part of these values
(see `Chproxy.Scope.Admission`). What the constructors ask of the outside (parsing a node URL,
creating a directory, reaching Redis) is the `World`.
-/
import Chproxy.Config.Types
import Chproxy.Utils.Hash

namespace Chproxy.Routing

open Config (Duration ByteSize Networks)

/-- A Go map with string keys. -/
abbrev Map (ν : Type) := AList fun _ : String => ν

/-! ## Objects -/

/-- `clusterUser`. `queueCh` is the capacity of the queue channel, `none` for a nil channel;
`limiter` the rate and burst given to `rate.NewLimiter`, `none` for a nil limiter. -/
structure ClusterUser where
  name : String
  password : String
  maxConcurrentQueries : UInt32
  maxExecutionTime : Duration
  reqPerMin : Int32
  queueCh : Option Nat
  maxQueueTime : Duration
  limiter : Option (ByteSize × ByteSize)
  reqPacketSizeTokensBurst : ByteSize
  reqPacketSizeTokensRate : ByteSize
  allowedNetworks : Networks
  isWildcarded : Bool
  deriving DecidableEq, Repr

/-- `heartbeat.heartBeat`. -/
structure HeartBeat where
  interval : Duration
  timeout : Duration
  request : String
  response : String
  user : String
  password : String
  deriving DecidableEq, Repr

/-- `topology.Node`: the parsed address, the heartbeat and the labels. -/
structure Node where
  scheme : String
  host : String
  hb : HeartBeat
  clusterName : String
  replicaName : String
  deriving DecidableEq, Repr

structure Replica where
  name : String
  hosts : List Node
  deriving DecidableEq, Repr

structure Cluster where
  name : String
  replicas : List Replica
  users : Map ClusterUser
  killQueryUserName : String
  killQueryUserPassword : String
  heartBeat : HeartBeat
  retryNumber : Int64

/-- The two back ends, each with the settings it keeps. -/
inductive Backend
  | fileSystem (dir : String) (maxSize : ByteSize) (expire grace : Duration)
  | redis (expire : Duration)
  deriving DecidableEq, Repr

/-- `cache.AsyncCache`; `id` is its address. -/
structure AsyncCache where
  id : Nat
  name : String
  backend : Backend
  transactionDeadline : Duration
  graceTime : Duration
  maxPayloadSize : ByteSize
  sharedWithAllUsers : Bool
  deriving DecidableEq, Repr

/-- The map `newParamsRegistry` makes of a list of parameters: the last value of a key counts. -/
def paramsMap (params : List Config.Param) : Utils.StringMap :=
  params.foldl (fun m p => m.insert p.key p.value) ∅

/-- `paramsRegistry`: a non-empty list of parameters and the hash of the map it stands for. -/
structure ParamsRegistry where
  key : UInt32
  params : List Config.Param
  nonempty : params.length ≠ 0
  key_eq : key = Utils.calcMapHash (paramsMap params)
  deriving DecidableEq, Repr

structure User where
  name : String
  password : String
  toCluster : String
  toUser : String
  maxConcurrentQueries : UInt32
  maxExecutionTime : Duration
  reqPerMin : Int32
  queueCh : Option Nat
  maxQueueTime : Duration
  limiter : Option (ByteSize × ByteSize)
  reqPacketSizeTokensBurst : ByteSize
  reqPacketSizeTokensRate : ByteSize
  allowedNetworks : Networks
  denyHTTP : Bool
  denyHTTPS : Bool
  allowCORS : Bool
  isWildcarded : Bool
  cache : Option AsyncCache
  params : Option ParamsRegistry
  deriving DecidableEq, Repr

/-! ## Failures -/

/-- The errors of the constructors, each with the arguments of its message. -/
inductive BuildError
  | duplicateClusterUser (name : String)
  | cannotParseNode (node scheme err : String)
  | cannotInitReplica (name : String) (err : BuildError)
  | cannotInitReplicas (err : BuildError)
  | duplicateCluster (name : String)
  | cannotInitCluster (name : String) (err : BuildError)
  | dirEmpty
  | maxSizeNotPositive
  | expireNotPositive
  | cannotCreateDir (dir err : String)
  | redisClient (err : String)
  | unknownConfigMode
  | duplicateCache (name : String)
  | paramsEmpty
  | duplicateParamGroup (name : String)
  | cannotInitParams (name : String) (err : BuildError)
  | unknownToCluster (name : String)
  | unknownToUser (user cluster : String)
  | unknownCache (name : String)
  | unknownParams (name : String)
  | duplicateUser (name : String)
  | cannotInitUser (name : String) (err : BuildError)
  | heartbeatUserUnset (cluster : String)
  deriving DecidableEq, Repr

/-- How a call may fail: a returned error, or a panic (an index out of range, a nil dereference,
the explicit one of `NewHeartbeat`, one of go-redis). -/
inductive Failure
  | error (e : BuildError)
  | panic
  deriving DecidableEq, Repr

/-- `fmt.Errorf("…: %w", err)`. -/
def wrap {α : Type} (f : BuildError → BuildError) : Except Failure α → Except Failure α
  | .error (.error e) => .error (.error (f e))
  | r => r

/-- How a call of `clients.NewRedisClient` ends; go-redis panics on a `pool_size` below zero. -/
inductive Dialed
  | client
  | error (err : String)
  | panics
  deriving DecidableEq, Repr

/-- The functions outside chproxy that the constructors call: `url.Parse` (scheme and host, or the
error), `os.MkdirAll` (the error, if any) and `clients.NewRedisClient`. -/
structure World where
  parseURL : String → Except String (String × String)
  mkdirAll : String → Option String
  newRedisClient : Config.RedisCacheConfig → Dialed

/-! ## Clusters -/

def queueCh (maxQueueSize : UInt32) : Option Nat := if maxQueueSize > 0 then some maxQueueSize.toNat else none

def newClusterUser (cu : Config.ClusterUser) : ClusterUser where
  name := cu.name
  password := cu.password
  maxConcurrentQueries := cu.maxConcurrentQueries
  maxExecutionTime := cu.maxExecutionTime
  reqPerMin := cu.reqPerMin
  queueCh := queueCh cu.maxQueueSize
  maxQueueTime := cu.maxQueueTime
  limiter := some (cu.reqPacketSizeTokensRate, cu.reqPacketSizeTokensBurst)
  reqPacketSizeTokensBurst := cu.reqPacketSizeTokensBurst
  reqPacketSizeTokensRate := cu.reqPacketSizeTokensRate
  allowedNetworks := cu.allowedNetworks
  isWildcarded := false

def defaultEndpoint : String := "/ping"

def newHeartbeat (c : Config.HeartBeat) (defaultUser defaultPassword : String) : Except Failure HeartBeat :=
  let credentials :=
    if c.request ≠ defaultEndpoint then
      if c.user ≠ "" then (c.user, c.password) else (defaultUser, defaultPassword)
    else ("", "")
  if c.request ≠ defaultEndpoint ∧ credentials.1 = "" then .error .panic
  else .ok
    { interval := c.interval, timeout := c.timeout, request := c.request, response := c.response
      user := credentials.1, password := credentials.2 }

def newNodes (w : World) (nodes : List String) (scheme : String) (hb : HeartBeat) (clusterName replicaName : String) :
    Except Failure (List Node) :=
  nodes.mapM fun node =>
    match w.parseURL (scheme ++ "://" ++ node) with
    | .error err => .error (.error (.cannotParseNode node scheme err))
    | .ok (s, h) => .ok ⟨s, h, hb, clusterName, replicaName⟩

def newReplicas (w : World) (replicasCfg : List Config.Replica) (nodes : List String) (scheme : String)
    (hb : HeartBeat) (clusterName : String) : Except Failure (List Replica) :=
  if 0 < nodes.length then do
    -- no replicas, just flat nodes: a default replica containing all of them
    let hosts ← newNodes w nodes scheme hb clusterName "default"
    .ok [⟨"default", hosts⟩]
  else
    replicasCfg.mapM fun rCfg => do
      let hosts ← wrap (.cannotInitReplica rCfg.name) (newNodes w rCfg.nodes scheme hb clusterName rCfg.name)
      .ok ⟨rCfg.name, hosts⟩

def newClusterUsers : Map ClusterUser → List Config.ClusterUser → Except Failure (Map ClusterUser)
  | m, [] => .ok m
  | m, cu :: cus =>
    if (m.lookup cu.name).isSome then .error (.error (.duplicateClusterUser cu.name))
    else newClusterUsers (m.insert cu.name (newClusterUser cu)) cus

def newCluster (w : World) (c : Config.Cluster) : Except Failure Cluster := do
  let users ← newClusterUsers ∅ c.clusterUsers
  match c.clusterUsers with
  | [] => .error .panic -- `c.ClusterUsers[0]`, out of range
  | first :: _ =>
    let hb ← newHeartbeat c.heartBeat first.name first.password
    let replicas ← wrap .cannotInitReplicas (newReplicas w c.replicas c.nodes c.scheme hb c.name)
    .ok
      { name := c.name, replicas := replicas, users := users, killQueryUserName := c.killQueryUser.name
        killQueryUserPassword := c.killQueryUser.password, heartBeat := hb, retryNumber := c.retryNumber }

def newClusters (w : World) : Map Cluster → List Config.Cluster → Except Failure (Map Cluster)
  | m, [] => .ok m
  | m, c :: cs =>
    if (m.lookup c.name).isSome then .error (.error (.duplicateCluster c.name))
    else do
      let tmpC ← wrap (.cannotInitCluster c.name) (newCluster w c)
      newClusters w (m.insert c.name tmpC) cs

/-! ## Caches -/

def newFilesSystemCache (w : World) (cfg : Config.Cache) (graceTime : Duration) : Except Failure Backend :=
  if cfg.fileSystem.dir.length = 0 then .error (.error .dirEmpty)
  else if cfg.fileSystem.maxSize ≤ 0 then .error (.error .maxSizeNotPositive)
  else if cfg.expire ≤ 0 then .error (.error .expireNotPositive)
  else match w.mkdirAll cfg.fileSystem.dir with
    | some err => .error (.error (.cannotCreateDir cfg.fileSystem.dir err))
    | none => .ok (.fileSystem cfg.fileSystem.dir cfg.fileSystem.maxSize cfg.expire graceTime)

def newAsyncCache (w : World) (id : Nat) (cfg : Config.Cache) (maxExecutionTime : Duration) :
    Except Failure AsyncCache := do
  let graceTime := if cfg.graceTime = 0 then maxExecutionTime else cfg.graceTime
  -- a negative grace time disables the protection from the dogpile effect
  let graceTime := if graceTime < 0 then 0 else graceTime
  let backend ←
    if cfg.mode = "file_system" then newFilesSystemCache w cfg graceTime
    else if cfg.mode = "redis" then
      match w.newRedisClient cfg.redis with
      | .client => .ok (.redis cfg.expire)
      | .error err => .error (.error (.redisClient err))
      | .panics => .error .panic
    else .error (.error .unknownConfigMode)
  .ok
    { id := id, name := cfg.name, backend := backend, transactionDeadline := 2 * graceTime, graceTime := graceTime
      maxPayloadSize := cfg.maxPayloadSize, sharedWithAllUsers := cfg.sharedWithAllUsers }

/-- `initTempCaches`: the working map keeps the caches created before a failure. The caches are
allocated at the addresses from `next` on. -/
def initTempCaches (w : World) (transactionsTimeout : Duration) :
    Map AsyncCache → Nat → List Config.Cache → (Map AsyncCache × Nat) × Option Failure
  | caches, next, [] => ((caches, next), none)
  | caches, next, cc :: ccs =>
    if (caches.lookup cc.name).isSome then ((caches, next), some (.error (.duplicateCache cc.name)))
    else match newAsyncCache w next cc transactionsTimeout with
      | .error e => ((caches, next), some e)
      | .ok tmpCache => initTempCaches w transactionsTimeout (caches.insert cc.name tmpCache) (next + 1) ccs

/-! ## Parameter groups and users -/

def newParamsRegistry (params : List Config.Param) : Except Failure ParamsRegistry :=
  if h : params.length = 0 then .error (.error .paramsEmpty)
  else .ok ⟨Utils.calcMapHash (paramsMap params), params, h, rfl⟩

def paramsFromConfig : Map ParamsRegistry → List Config.ParamGroup → Except Failure (Map ParamsRegistry)
  | m, [] => .ok m
  | m, p :: ps =>
    if (m.lookup p.name).isSome then .error (.error (.duplicateParamGroup p.name))
    else do
      let registry ← wrap (.cannotInitParams p.name) (newParamsRegistry p.params)
      paramsFromConfig (m.insert p.name registry) ps

/-- What `usersProfile` holds besides the user configs; `newUser` marks cluster users in it. -/
structure UsersProfile where
  clusters : Map Cluster
  caches : Map AsyncCache
  params : Map ParamsRegistry

/-- `cu.isWildcarded = true` through the cluster map. -/
def UsersProfile.markWildcarded (up : UsersProfile) (c : Cluster) (toCluster toUser : String) (cu : ClusterUser) :
    UsersProfile :=
  { up with clusters :=
    up.clusters.insert toCluster { c with users := c.users.insert toUser { cu with isWildcarded := true } } }

def UsersProfile.cacheOf (up : UsersProfile) (u : Config.User) : Except Failure (Option AsyncCache) :=
  if 0 < u.cache.length then
    match up.caches.lookup u.cache with
    | none => .error (.error (.unknownCache u.cache))
    | some cc => .ok (some cc)
  else .ok none

def UsersProfile.paramsOf (up : UsersProfile) (u : Config.User) : Except Failure (Option ParamsRegistry) :=
  if 0 < u.params.length then
    match up.params.lookup u.params with
    | none => .error (.error (.unknownParams u.params))
    | some p => .ok (some p)
  else .ok none

def UsersProfile.newUser (up : UsersProfile) (u : Config.User) : Except Failure (UsersProfile × User) :=
  match up.clusters.lookup u.toCluster with
  | none => .error (.error (.unknownToCluster u.toCluster))
  | some c =>
    match c.users.lookup u.toUser with
    | none => .error (.error (.unknownToUser u.toUser u.toCluster))
    | some cu => do
      -- marked before the checks below; when one of them fails, the whole profile is dropped
      let up' := if u.isWildcarded then up.markWildcarded c u.toCluster u.toUser cu else up
      let cc ← up.cacheOf u
      let params ← up.paramsOf u
      .ok (up',
        { name := u.name, password := u.password, toCluster := u.toCluster, toUser := u.toUser
          maxConcurrentQueries := u.maxConcurrentQueries, maxExecutionTime := u.maxExecutionTime
          reqPerMin := u.reqPerMin, queueCh := queueCh u.maxQueueSize, maxQueueTime := u.maxQueueTime
          limiter := some (u.reqPacketSizeTokensRate, u.reqPacketSizeTokensBurst)
          reqPacketSizeTokensBurst := u.reqPacketSizeTokensBurst, reqPacketSizeTokensRate := u.reqPacketSizeTokensRate
          allowedNetworks := u.allowedNetworks, denyHTTP := u.denyHTTP, denyHTTPS := u.denyHTTPS
          allowCORS := u.allowCORS, isWildcarded := u.isWildcarded, cache := cc, params := params })

def UsersProfile.newUsers : UsersProfile → Map User → List Config.User → Except Failure (UsersProfile × Map User)
  | up, users, [] => .ok (up, users)
  | up, users, u :: us =>
    if (users.lookup u.name).isSome then .error (.error (.duplicateUser u.name))
    else do
      let (up', tmpU) ← wrap (.cannotInitUser u.name) (up.newUser u)
      newUsers up' (users.insert u.name tmpU) us

def validateNoWildcardedUserForHeartbeat (clusters : Map Cluster) : List Config.Cluster → Except Failure Unit
  | [] => .ok ()
  | cfgcl :: cfg =>
    match cfgcl.clusterUsers.head?, clusters.lookup cfgcl.name with
    | some first, some cl =>
      match cl.users.lookup first.name with
      | some cu =>
        if cu.isWildcarded ∧ cfgcl.heartBeat.request ≠ "/ping" ∧ cfgcl.heartBeat.user.length = 0 then
          .error (.error (.heartbeatUserUnset cfgcl.name))
        else validateNoWildcardedUserForHeartbeat clusters cfg
      | none => .error .panic
    -- no lookup is checked: an absent user or cluster is an index out of range or a nil dereference
    | _, _ => .error .panic

end Chproxy.Routing
