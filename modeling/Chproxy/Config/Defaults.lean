/-
Loading a configuration file after its text was unmarshalled (`LoadFile` in `config/config.go`, without
the security check): the texts of the `allowed_networks` become networks, omitted settings get their
defaults, and the write timeout of the server is computed from the longest time a response may take.
-/
import Chproxy.Config.Networks

namespace Chproxy

open Config Fallible

namespace Config

/-! ## The file -/

/-- An entry with its `allowed_networks` as written. -/
structure Restricted (α : Type) where
  entry : α
  networksOrGroups : List String

/-- A cluster, and its users with their lists. -/
structure ClusterSection where
  cluster : Cluster
  clusterUsers : List (Restricted ClusterUser)

/-- `server.http` or `server.https`. -/
structure Listener where
  listenAddr : String
  networksOrGroups : List String
  writeTimeout : Duration

inductive Scheme
  | http
  | https
  deriving DecidableEq, Repr

/-- The unmarshalled file. -/
structure File where
  http : Listener
  https : Listener
  metricsNetworksOrGroups : List String
  networkGroups : List NetworkGroups
  clusters : List ClusterSection
  users : List (Restricted User)
  logDebug : Bool
  maxErrorReasonSize : ByteSize
  caches : List Cache
  paramGroups : List ParamGroup
  connectionPool : ConnectionPool
  allowPing : Bool
  proxyEnable : Bool
  proxyHeader : String

/-- What is loaded: the configuration, and the listeners with their timeouts. -/
structure Loaded where
  config : Config
  http : Listener
  https : Listener

def File.listener (file : File) : Scheme → Listener
  | .http => file.http
  | .https => file.https

def Loaded.listener (out : Loaded) : Scheme → Listener
  | .http => out.http
  | .https => out.https

/-! ## `setDefaults` -/

def second : Duration := 1000000000

def minute : Duration := 60000000000

/-- 120 seconds. -/
def defaultExecutionTime : Duration := 120000000000

/-- A petabyte. -/
def defaultMaxPayloadSize : ByteSize := 1125899906842624

def defaultMaxErrorReasonSize : ByteSize := 1125899906842624

/-- The longer of two times, as the loops keep it. -/
def longer (maxResponseTime d : Duration) : Duration := if d > maxResponseTime then d else maxResponseTime

def ClusterUser.responseTime (cu : ClusterUser) : Duration := cu.maxExecutionTime + cu.maxQueueTime

def User.responseTime (u : User) : Duration := u.maxExecutionTime + u.maxQueueTime

def User.setDefaults (u : User) : User :=
  if u.maxExecutionTime = 0 then { u with maxExecutionTime := defaultExecutionTime } else u

def Cache.setDefaults (c : Cache) : Cache :=
  if c.maxPayloadSize ≤ 0 then { c with maxPayloadSize := defaultMaxPayloadSize } else c

section Loops

variable (net : NetParsers) (reg : NetworkReg)

def setClusterUser (t : Duration) (u : Restricted ClusterUser) : Except NetworkError (Duration × ClusterUser) := do
  let allowedNetworks ← groupToNetwork net reg u.networksOrGroups
  .ok (longer t u.entry.responseTime, { u.entry with allowedNetworks := allowedNetworks })

def setCluster (t : Duration) (c : ClusterSection) : Except NetworkError (Duration × Cluster) := do
  let (t, clusterUsers) ← mapAccumM (setClusterUser net reg) t c.clusterUsers
  .ok (t, { c.cluster with clusterUsers := clusterUsers })

def setUser (t : Duration) (u : Restricted User) : Except NetworkError (Duration × User) := do
  let allowedNetworks ← groupToNetwork net reg u.networksOrGroups
  .ok (longer t u.entry.setDefaults.responseTime, { u.entry.setDefaults with allowedNetworks := allowedNetworks })

end Loops

/-- An additional minute, so that the response body may be sent. -/
def serverMaxResponseTime (maxResponseTime : Duration) : Duration :=
  (if maxResponseTime < 0 then 0 else maxResponseTime) + minute

def Listener.setServerMaxResponseTime (l : Listener) (maxResponseTime : Duration) : Listener :=
  if 0 < l.listenAddr.length ∧ l.writeTimeout = 0 then
    { l with writeTimeout := serverMaxResponseTime maxResponseTime }
  else l

/-- `LoadFile`, from the registry of the network groups to `setDefaults`. -/
def loadFile (net : NetParsers) (file : File) : Except NetworkError Loaded := do
  let reg ← networkReg ∅ file.networkGroups
  let httpNetworks ← groupToNetwork net reg file.http.networksOrGroups
  let httpsNetworks ← groupToNetwork net reg file.https.networksOrGroups
  let metricsNetworks ← groupToNetwork net reg file.metricsNetworksOrGroups
  let (t, clusters) ← mapAccumM (setCluster net reg) 0 file.clusters
  let (t, users) ← mapAccumM (setUser net reg) t file.users
  .ok
    { config :=
        { clusters := clusters, users := users, logDebug := file.logDebug
          maxErrorReasonSize :=
            if file.maxErrorReasonSize ≤ 0 then defaultMaxErrorReasonSize else file.maxErrorReasonSize
          caches := file.caches.map Cache.setDefaults, paramGroups := file.paramGroups
          connectionPool := file.connectionPool, allowPing := file.allowPing, httpNetworks := httpNetworks
          httpsNetworks := httpsNetworks, metricsNetworks := metricsNetworks, proxyEnable := file.proxyEnable
          proxyHeader := file.proxyHeader }
      http := file.http.setServerMaxResponseTime t
      https := file.https.setServerMaxResponseTime t }

/-! ## The computed write timeout -/

end Config

/-- The times a response may take, by the settings of each cluster user and of each user. -/
def Config.responseTimes (cfg : Config) : List Duration :=
  cfg.clusters.flatMap (fun c => c.clusterUsers.map (·.responseTime)) ++ cfg.users.map (·.responseTime)

namespace Config

section Loops

variable {net : NetParsers} {reg : NetworkReg} {t t' : Duration}

theorem setClusterUser_ok {u : Restricted ClusterUser} {cu : ClusterUser}
    (h : setClusterUser net reg t u = .ok (t', cu)) : t' = longer t cu.responseTime := by
  obtain ⟨nets, _, h⟩ := bind_ok h
  cases h
  rfl

theorem setCluster_ok {c : ClusterSection} {c' : Cluster} (h : setCluster net reg t c = .ok (t', c')) :
    t' = (c'.clusterUsers.map (·.responseTime)).foldl longer t := by
  obtain ⟨⟨t₁, cus⟩, hcus, h⟩ := bind_ok h
  cases h
  have hfold := mapAccumM_ok (f := setClusterUser net reg) (g := fun t cu => longer t cu.responseTime)
    (P := fun _ => True) (fun _ _ _ _ hcu => ⟨setClusterUser_ok hcu, trivial⟩) hcus
  rw [List.foldl_map]
  exact hfold.1

theorem setDefaults_maxExecutionTime (u : User) : u.setDefaults.maxExecutionTime ≠ 0 := by
  unfold User.setDefaults
  split
  · exact (by decide : defaultExecutionTime ≠ 0)
  · assumption

theorem setUser_ok {u : Restricted User} {u' : User} (h : setUser net reg t u = .ok (t', u')) :
    t' = longer t u'.responseTime ∧ u'.maxExecutionTime ≠ 0 := by
  obtain ⟨nets, _, h⟩ := bind_ok h
  cases h
  exact ⟨rfl, setDefaults_maxExecutionTime u.entry⟩

end Loops

theorem Listener.writeTimeout_set {l : Listener} (hlisten : l.listenAddr ≠ "") (hzero : l.writeTimeout = 0)
    (t : Duration) : (l.setServerMaxResponseTime t).writeTimeout = serverMaxResponseTime t := by
  have hlength : 0 < l.listenAddr.length := by
    rw [Nat.pos_iff_ne_zero]
    simpa using hlisten
  rw [setServerMaxResponseTime, if_pos ⟨hlength, hzero⟩]

/-- What is loaded: every user has an execution time, and the omitted write timeouts are a minute above the
longest response time of the configuration. -/
theorem loadFile_ok {net : NetParsers} {file : File} {out : Loaded} (h : loadFile net file = .ok out) :
    (∀ u ∈ out.config.users, u.maxExecutionTime ≠ 0) ∧
    ∀ scheme, (file.listener scheme).listenAddr ≠ "" → (file.listener scheme).writeTimeout = 0 →
      (out.listener scheme).writeTimeout = serverMaxResponseTime (out.config.responseTimes.foldl longer 0) := by
  unfold loadFile at h
  obtain ⟨reg, _, h⟩ := bind_ok h
  obtain ⟨httpNetworks, _, h⟩ := bind_ok h
  obtain ⟨httpsNetworks, _, h⟩ := bind_ok h
  obtain ⟨metricsNetworks, _, h⟩ := bind_ok h
  obtain ⟨⟨t₁, clusters⟩, hclusters, h⟩ := bind_ok h
  obtain ⟨⟨t₂, users⟩, husers, h⟩ := bind_ok h
  cases h
  obtain ⟨ht₁, -⟩ := mapAccumM_ok (f := setCluster net reg)
    (g := fun t c => (c.clusterUsers.map ClusterUser.responseTime).foldl longer t) (P := fun _ => True)
    (fun _ _ _ _ hc => ⟨setCluster_ok hc, trivial⟩) hclusters
  obtain ⟨ht₂, hexec⟩ := mapAccumM_ok (f := setUser net reg) (g := fun t u => longer t u.responseTime)
    (P := fun u => u.maxExecutionTime ≠ 0) (fun _ _ _ _ hu => setUser_ok hu) husers
  -- the longest time is carried through the clusters first, then through the users
  have ht : t₂ = (clusters.flatMap (fun c => c.clusterUsers.map (·.responseTime)) ++
      users.map (·.responseTime)).foldl longer 0 := by
    rw [List.foldl_append, List.foldl_flatMap, List.foldl_map, ht₂, ht₁]
  refine ⟨hexec, fun scheme hlisten hzero => ?_⟩
  show _ = serverMaxResponseTime ((clusters.flatMap (fun c => c.clusterUsers.map (·.responseTime)) ++
    users.map (·.responseTime)).foldl longer 0)
  rw [← ht]
  cases scheme with
  | http => exact Listener.writeTimeout_set hlisten hzero t₂
  | https => exact Listener.writeTimeout_set hlisten hzero t₂

/-- The loops keep the longest of the times. -/
theorem foldl_longer : ∀ (ds : List Duration) (t : Duration),
    t ≤ ds.foldl longer t ∧ (∀ d ∈ ds, d ≤ ds.foldl longer t) ∧ (ds.foldl longer t = t ∨ ds.foldl longer t ∈ ds)
  | [], t => ⟨Int64.le_refl t, fun d hd => (by cases hd), .inl rfl⟩
  | d :: ds, t => by
    obtain ⟨hstart, hall, hfrom⟩ := foldl_longer ds (longer t d)
    have hlonger : t ≤ longer t d ∧ d ≤ longer t d ∧ (longer t d = t ∨ longer t d = d) := by
      unfold longer
      split
      · rename_i hgt
        exact ⟨Int64.le_of_lt hgt, Int64.le_refl d, .inr rfl⟩
      · rename_i hle
        exact ⟨Int64.le_refl t, Int64.not_lt.1 hle, .inl rfl⟩
    refine ⟨Int64.le_trans hlonger.1 hstart, List.forall_mem_cons.2 ⟨Int64.le_trans hlonger.2.1 hstart, hall⟩, ?_⟩
    rw [List.foldl_cons, List.mem_cons]
    rcases hfrom with hsame | hmem
    · rw [hsame]
      exact hlonger.2.2.imp_right .inl
    · exact .inr (.inr hmem)

/-- Times that are not negative and add up, with a minute on top, to less than `2^63`. -/
def Moderate (executionTime queueTime : Duration) : Prop :=
  0 ≤ executionTime.toInt ∧ 0 ≤ queueTime.toInt ∧
    executionTime.toInt + queueTime.toInt + minute.toInt < 9223372036854775808

theorem minute_toInt : minute.toInt = 60000000000 := by decide

theorem Moderate.toInt_add {executionTime queueTime : Duration} (h : Moderate executionTime queueTime) :
    (executionTime + queueTime).toInt = executionTime.toInt + queueTime.toInt := by
  obtain ⟨h1, h2, h3⟩ := h
  rw [minute_toInt] at h3
  rw [Int64.toInt_add, Int.bmod_eq_of_le] <;> omega

end Config

/-- All durations are non-negative, and no sum of them overflows. -/
structure Config.ModerateTimes (cfg : Config) : Prop where
  clusterUsers : ∀ c ∈ cfg.clusters, ∀ cu ∈ c.clusterUsers, Moderate cu.maxExecutionTime cu.maxQueueTime
  users : ∀ u ∈ cfg.users, Moderate u.maxExecutionTime u.maxQueueTime

/-- The two times of some cluster user or of some user add up to at least `d`. -/
def Config.Takes (cfg : Config) (d : Int) : Prop :=
  (∃ c ∈ cfg.clusters, ∃ cu ∈ c.clusterUsers, d ≤ cu.maxExecutionTime.toInt + cu.maxQueueTime.toInt) ∨
  ∃ u ∈ cfg.users, d ≤ u.maxExecutionTime.toInt + u.maxQueueTime.toInt

theorem Config.ModerateTimes.bounds {cfg : Config} (h : cfg.ModerateTimes) :
    ∀ d ∈ cfg.responseTimes, 0 ≤ d.toInt ∧ d.toInt + minute.toInt < 9223372036854775808 := by
  intro d hd
  have hsum : ∀ {e q : Duration}, Moderate e q →
      0 ≤ (e + q).toInt ∧ (e + q).toInt + minute.toInt < 9223372036854775808 := by
    intro e q hm
    rw [hm.toInt_add]
    exact ⟨Int.add_nonneg hm.1 hm.2.1, hm.2.2⟩
  rcases List.mem_append.1 hd with hd | hd
  · obtain ⟨c, hc, hd⟩ := List.mem_flatMap.1 hd
    obtain ⟨cu, hcu, rfl⟩ := List.mem_map.1 hd
    exact hsum (h.clusterUsers c hc cu hcu)
  · obtain ⟨u, hu, rfl⟩ := List.mem_map.1 hd
    exact hsum (h.users u hu)

theorem Config.ModerateTimes.takes_iff {cfg : Config} (h : cfg.ModerateTimes) {d : Int} :
    cfg.Takes d ↔ ∃ t ∈ cfg.responseTimes, d ≤ t.toInt := by
  constructor
  · rintro (⟨c, hc, cu, hcu, hd⟩ | ⟨u, hu, hd⟩)
    · refine ⟨cu.responseTime, List.mem_append_left _ (List.mem_flatMap.2 ⟨c, hc, List.mem_map_of_mem hcu⟩), ?_⟩
      rwa [ClusterUser.responseTime, (h.clusterUsers c hc cu hcu).toInt_add]
    · refine ⟨u.responseTime, List.mem_append_right _ (List.mem_map_of_mem hu), ?_⟩
      rwa [User.responseTime, (h.users u hu).toInt_add]
  · rintro ⟨t, ht, hd⟩
    rcases List.mem_append.1 ht with ht | ht
    · obtain ⟨c, hc, ht⟩ := List.mem_flatMap.1 ht
      obtain ⟨cu, hcu, rfl⟩ := List.mem_map.1 ht
      rw [ClusterUser.responseTime, (h.clusterUsers c hc cu hcu).toInt_add] at hd
      exact .inl ⟨c, hc, cu, hcu, hd⟩
    · obtain ⟨u, hu, rfl⟩ := List.mem_map.1 ht
      rw [User.responseTime, (h.users u hu).toInt_add] at hd
      exact .inr ⟨u, hu, hd⟩

section WriteTimeout

variable {net : NetParsers} {file : File} {out : Loaded} {scheme : Scheme} {d : Int}

theorem Config.ModerateTimes.serverMaxResponseTime_toInt {cfg : Config} (h : cfg.ModerateTimes) :
    (serverMaxResponseTime (cfg.responseTimes.foldl longer 0)).toInt =
      (cfg.responseTimes.foldl longer 0).toInt + minute.toInt := by
  obtain ⟨hstart, _, hfrom⟩ := foldl_longer cfg.responseTimes 0
  have hroom : (cfg.responseTimes.foldl longer 0).toInt + minute.toInt < 9223372036854775808 := by
    rcases hfrom with hzero | hmem
    · rw [hzero]
      decide
    · exact (h.bounds _ hmem).2
  have hpos : 0 ≤ (cfg.responseTimes.foldl longer 0).toInt := Int64.le_iff_toInt_le.1 hstart
  rw [minute_toInt] at hroom
  rw [serverMaxResponseTime, if_neg (Int64.not_lt.2 hstart), Int64.toInt_add, minute_toInt, Int.bmod_eq_of_le] <;> omega

variable (h : loadFile net file = .ok out) (hm : out.config.ModerateTimes)
  (hlisten : (file.listener scheme).listenAddr ≠ "") (hzero : (file.listener scheme).writeTimeout = 0)

include h hm hlisten hzero

/-- A computed write timeout covers what a user or a cluster user takes, and a minute more. -/
theorem Config.le_writeTimeout_of_takes (htakes : out.config.Takes (d - minute.toInt)) :
    d ≤ (out.listener scheme).writeTimeout.toInt := by
  obtain ⟨t, ht, hle⟩ := hm.takes_iff.1 htakes
  have hmax := Int64.le_iff_toInt_le.1 ((foldl_longer out.config.responseTimes 0).2.1 t ht)
  rw [(loadFile_ok h).2 scheme hlisten hzero, hm.serverMaxResponseTime_toInt]
  omega

/-- It covers no other time of more than a minute. -/
theorem Config.takes_of_le_writeTimeout (hd : minute.toInt < d) (hle : d ≤ (out.listener scheme).writeTimeout.toInt) :
    out.config.Takes (d - minute.toInt) := by
  rw [(loadFile_ok h).2 scheme hlisten hzero, hm.serverMaxResponseTime_toInt] at hle
  rw [hm.takes_iff]
  rcases (foldl_longer out.config.responseTimes 0).2.2 with hnone | hmem
  · rw [hnone, Int64.toInt_zero] at hle
    omega
  · exact ⟨_, hmem, by omega⟩

end WriteTimeout

end Chproxy
