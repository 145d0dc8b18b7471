/-
The loaded configuration (`config/config.go`), as far as it is read after loading: clusters and
their users, users, caches, parameter groups and the connection pool. Durations are in nanoseconds.
-/
import Mathlib.Logic.Basic

namespace Chproxy.Config

/-- `net.IPNet`. -/
structure IPNet where
  ip : List UInt8
  mask : List UInt8
  deriving DecidableEq, Repr

abbrev Networks := List IPNet

abbrev Duration := Int64

abbrev ByteSize := UInt64

structure HeartBeat where
  interval : Duration
  timeout : Duration
  request : String
  response : String
  user : String
  password : String
  deriving DecidableEq, Repr

structure KillQueryUser where
  name : String
  password : String
  deriving DecidableEq, Repr

structure ClusterUser where
  name : String
  password : String
  maxConcurrentQueries : UInt32
  maxExecutionTime : Duration
  reqPerMin : Int32
  reqPacketSizeTokensBurst : ByteSize
  reqPacketSizeTokensRate : ByteSize
  maxQueueSize : UInt32
  maxQueueTime : Duration
  allowedNetworks : Networks
  deriving DecidableEq, Repr

structure Replica where
  name : String
  nodes : List String
  deriving DecidableEq, Repr

structure Cluster where
  name : String
  scheme : String
  nodes : List String
  replicas : List Replica
  clusterUsers : List ClusterUser
  killQueryUser : KillQueryUser
  heartBeat : HeartBeat
  retryNumber : Int64
  deriving DecidableEq, Repr

structure User where
  name : String
  password : String
  toCluster : String
  toUser : String
  maxConcurrentQueries : UInt32
  maxExecutionTime : Duration
  reqPerMin : Int32
  reqPacketSizeTokensBurst : ByteSize
  reqPacketSizeTokensRate : ByteSize
  maxQueueSize : UInt32
  maxQueueTime : Duration
  allowedNetworks : Networks
  denyHTTP : Bool
  denyHTTPS : Bool
  allowCORS : Bool
  cache : String
  params : String
  isWildcarded : Bool
  deriving DecidableEq, Repr

structure FileSystemCacheConfig where
  dir : String
  maxSize : ByteSize
  deriving DecidableEq, Repr

structure RedisCacheConfig where
  username : String
  password : String
  addresses : List String
  dbIndex : Int64
  poolSize : Int64
  certFile : String
  keyFile : String
  insecureSkipVerify : Bool
  deriving DecidableEq, Repr

structure Cache where
  mode : String
  name : String
  expire : Duration
  graceTime : Duration
  fileSystem : FileSystemCacheConfig
  redis : RedisCacheConfig
  maxPayloadSize : ByteSize
  sharedWithAllUsers : Bool
  deriving DecidableEq, Repr

structure Param where
  key : String
  value : String
  deriving DecidableEq, Repr

structure ParamGroup where
  name : String
  params : List Param
  deriving DecidableEq, Repr

structure ConnectionPool where
  maxIdleConns : Int64
  maxIdleConnsPerHost : Int64
  deriving DecidableEq, Repr

end Chproxy.Config

namespace Chproxy

/-- `config.Config`. The networks are those of `server.http`, `server.https` and `server.metrics`;
`proxyEnable` and `proxyHeader` those of `server.proxy`. -/
structure Config where
  clusters : List Config.Cluster
  users : List Config.User
  logDebug : Bool
  maxErrorReasonSize : Config.ByteSize
  caches : List Config.Cache
  paramGroups : List Config.ParamGroup
  connectionPool : Config.ConnectionPool
  allowPing : Bool
  httpNetworks : Config.Networks
  httpsNetworks : Config.Networks
  metricsNetworks : Config.Networks
  proxyEnable : Bool
  proxyHeader : String
  deriving DecidableEq, Repr

end Chproxy
