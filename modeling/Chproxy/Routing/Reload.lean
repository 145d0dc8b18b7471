/-
Loading a configuration into the running process: `reverseProxy.applyConfig` (`proxy.go`) with its
failure points in order, and `applyConfig` of `main.go` around it, which may replace the global proxy
before the configuration is known to be good.
-/
import Chproxy.Routing.Objects

namespace Chproxy.Routing

open Config (Networks)

/-! ## `reverseProxy.applyConfig` -/

/-- `reverseProxy`, as far as requests and reloads read it. -/
structure ReverseProxy where
  users : Map User
  clusters : Map Cluster
  caches : Map AsyncCache
  hasWildcarded : Bool
  maxIdleConns : Int64
  maxIdleConnsPerHost : Int64
  maxErrorReasonSize : Int64

/-- A proxy without users, clusters and caches. `maxIdleConns` is set from `MaxIdleConnsPerHost`,
as in the source. -/
def newReverseProxy (cfgCp : Config.ConnectionPool) : ReverseProxy where
  users := ∅
  clusters := ∅
  caches := ∅
  hasWildcarded := false
  maxIdleConns := cfgCp.maxIdleConnsPerHost
  maxIdleConnsPerHost := cfgCp.maxIdleConnsPerHost
  maxErrorReasonSize := 0

/-- What a call of `reverseProxy.applyConfig` leaves: the proxy, the next free cache address, the
caches its deferred function closes, and the failure, if any. -/
structure Applied where
  rp : ReverseProxy
  next : Nat
  closed : Map AsyncCache
  err : Option Failure

/-- The largest `max_execution_time` of the users, at least zero. -/
def transactionsTimeout (users : List Config.User) : Config.Duration :=
  users.foldl (fun t u => if u.maxExecutionTime > t then u.maxExecutionTime else t) 0

/-- The tables built after the caches: users, and the clusters as `newUsers` marked them. -/
def buildUsers (cfg : Config) (clusters : Map Cluster) (caches : Map AsyncCache) :
    Except Failure (Map Cluster × Map User) := do
  let params ← paramsFromConfig ∅ cfg.paramGroups
  let (profile, users) ← UsersProfile.newUsers ⟨clusters, caches, params⟩ ∅ cfg.users
  validateNoWildcardedUserForHeartbeat profile.clusters cfg.clusters
  .ok (profile.clusters, users)

def ReverseProxy.applyConfig (w : World) (rp : ReverseProxy) (next : Nat) (cfg : Config) : Applied :=
  match newClusters w ∅ cfg.clusters with
  | .error e => { rp := rp, next := next, closed := ∅, err := some e }
  | .ok clusters =>
    -- assigned before the rest is known to be good
    let rp := { rp with
      maxErrorReasonSize := cfg.maxErrorReasonSize.toInt64
      hasWildcarded := rp.hasWildcarded || cfg.users.any (·.isWildcarded) }
    match initTempCaches w (transactionsTimeout cfg.users) ∅ next cfg.caches with
    | ((caches, next), some e) => { rp := rp, next := next, closed := caches, err := some e }
    | ((caches, next), none) =>
      match buildUsers cfg clusters caches with
      | .error e => { rp := rp, next := next, closed := caches, err := some e }
      | .ok (clusters, users) =>
        { rp := { rp with clusters := clusters, users := users, caches := caches }
          next := next, closed := rp.caches, err := none }

/-! ## `applyConfig` of the process -/

/-- The package variables of `main` that `applyConfig` writes; `proxy` is nil before the first
successful load. -/
structure Process where
  proxy : Option ReverseProxy
  next : Nat
  allowedNetworksHTTP : Networks
  allowedNetworksHTTPS : Networks
  allowedNetworksMetrics : Networks
  proxyHandler : Bool × String
  allowPing : Bool
  logDebug : Bool

def proxyConfigChanged (cfgCp : Config.ConnectionPool) (rp : ReverseProxy) : Bool :=
  cfgCp.maxIdleConns != rp.maxIdleConns || cfgCp.maxIdleConnsPerHost != rp.maxIdleConnsPerHost

/-- The proxy the configuration is applied to: the running one, or a new one in its place. -/
def Process.target (p : Process) (cfg : Config) : ReverseProxy :=
  match p.proxy with
  | none => newReverseProxy cfg.connectionPool
  | some rp => if proxyConfigChanged cfg.connectionPool rp then newReverseProxy cfg.connectionPool else rp

def applyConfig (w : World) (p : Process) (cfg : Config) : Process × Option Failure :=
  let out := (p.target cfg).applyConfig w p.next cfg
  -- `proxy` already points to the target, whether or not the configuration could be applied
  let p := { p with proxy := some out.rp, next := out.next }
  match out.err with
  | some e => (p, some e)
  | none =>
    ({ p with
        allowedNetworksHTTP := cfg.httpNetworks
        allowedNetworksHTTPS := cfg.httpsNetworks
        allowedNetworksMetrics := cfg.metricsNetworks
        proxyHandler := (cfg.proxyEnable, cfg.proxyHeader)
        allowPing := cfg.allowPing
        logDebug := cfg.logDebug }, none)

/-! ## What requests are routed by -/

/-- The users, clusters and caches by which requests are authenticated and routed. -/
structure Tables where
  users : Map User
  clusters : Map Cluster
  caches : Map AsyncCache

def Tables.empty : Tables := ⟨∅, ∅, ∅⟩

def ReverseProxy.tables (rp : ReverseProxy) : Tables := ⟨rp.users, rp.clusters, rp.caches⟩

/-- The tables reachable from the global proxy; a nil proxy reaches none. -/
def Process.tables (p : Process) : Tables := (p.proxy.map ReverseProxy.tables).getD Tables.empty

/-- The proxy with the two fields that `applyConfig` assigns right after the clusters are built. -/
def ReverseProxy.withSettings (rp : ReverseProxy) (cfg : Config) : ReverseProxy :=
  { rp with
    maxErrorReasonSize := cfg.maxErrorReasonSize.toInt64
    hasWildcarded := rp.hasWildcarded || cfg.users.any (·.isWildcarded) }

/-- Where a load may fail: in `newClusters`, before anything is assigned, or later. -/
theorem ReverseProxy.applyConfig_failed {w : World} {rp : ReverseProxy} {next : Nat} {cfg : Config} {e : Failure}
    (h : (rp.applyConfig w next cfg).err = some e) :
    (newClusters w ∅ cfg.clusters = .error e ∧ (rp.applyConfig w next cfg).rp = rp) ∨
    (∃ clusters, newClusters w ∅ cfg.clusters = .ok clusters ∧
      (rp.applyConfig w next cfg).rp = rp.withSettings cfg) := by
  unfold applyConfig at h ⊢
  cases hclusters : newClusters w ∅ cfg.clusters with
  | error e' =>
    simp only [hclusters, Option.some.injEq] at h
    exact .inl ⟨by rw [h], rfl⟩
  | ok clusters =>
    refine .inr ⟨clusters, rfl, ?_⟩
    rcases htmp : initTempCaches w (transactionsTimeout cfg.users) ∅ next cfg.caches with ⟨⟨caches, next'⟩, _ | e'⟩
    · cases hbuild : buildUsers cfg clusters caches with
      | error e' => simp only [hbuild, withSettings]
      | ok tables => simp [hclusters, htmp, hbuild] at h
    · rfl

/-- A failed `reverseProxy.applyConfig` leaves the tables of that proxy alone. -/
theorem ReverseProxy.applyConfig_tables {w : World} {rp : ReverseProxy} {next : Nat} {cfg : Config} {e : Failure}
    (h : (rp.applyConfig w next cfg).err = some e) : (rp.applyConfig w next cfg).rp.tables = rp.tables := by
  rcases applyConfig_failed h with ⟨_, hrp⟩ | ⟨_, _, hrp⟩
  · rw [hrp]
  · rw [hrp]; rfl

theorem applyConfig_fst_proxy (w : World) (p : Process) (cfg : Config) :
    (applyConfig w p cfg).1.proxy = some ((p.target cfg).applyConfig w p.next cfg).rp := by
  unfold applyConfig
  dsimp only
  split <;> rfl

theorem applyConfig_snd (w : World) (p : Process) (cfg : Config) :
    (applyConfig w p cfg).2 = ((p.target cfg).applyConfig w p.next cfg).err := by
  unfold applyConfig
  dsimp only
  split <;> simp_all

theorem proxyConfigChanged_iff {cfgCp : Config.ConnectionPool} {rp : ReverseProxy} :
    proxyConfigChanged cfgCp rp = true ↔
      ¬(cfgCp.maxIdleConns = rp.maxIdleConns ∧ cfgCp.maxIdleConnsPerHost = rp.maxIdleConnsPerHost) := by
  rw [not_and_or]
  simp [proxyConfigChanged]

/-- After a failed load the process routes by the tables of the proxy it was applied to. -/
theorem applyConfig_failed_tables {w : World} {p : Process} {cfg : Config} {e : Failure}
    (h : (applyConfig w p cfg).2 = some e) : (applyConfig w p cfg).1.tables = (p.target cfg).tables := by
  rw [applyConfig_snd] at h
  rw [Process.tables, applyConfig_fst_proxy]
  exact ReverseProxy.applyConfig_tables h

/-- A failed load keeps the running tables exactly when the running proxy was not replaced first: its
stored connection-pool settings are those of the new configuration, or there was nothing to lose. -/
theorem failed_reload_keeps_tables_iff {w : World} {p : Process} {cfg : Config} {e : BuildError}
    (h : (applyConfig w p cfg).2 = some (.error e)) :
    (applyConfig w p cfg).1.tables = p.tables ↔
      (∀ rp, p.proxy = some rp →
        (cfg.connectionPool.maxIdleConns = rp.maxIdleConns ∧
          cfg.connectionPool.maxIdleConnsPerHost = rp.maxIdleConnsPerHost) ∨ rp.tables = Tables.empty) := by
  rw [applyConfig_failed_tables h]
  cases hp : p.proxy with
  | none => simp [Process.target, Process.tables, hp]; rfl
  | some rp =>
    simp only [Process.target, Process.tables, hp, Option.map_some, Option.getD_some, Option.some.injEq,
      forall_eq']
    by_cases hc : proxyConfigChanged cfg.connectionPool rp = true
    · -- the proxy was replaced: its tables are the empty ones of a new proxy
      have hne := proxyConfigChanged_iff.1 hc
      simp only [hc, if_true, hne, false_or]
      exact eq_comm
    · rw [if_neg hc]
      exact iff_of_true rfl (.inl (not_not.1 (mt proxyConfigChanged_iff.2 hc)))

/-- Every node URL parses, every directory can be made and Redis answers. -/
def calmWorld : World := ⟨fun s => .ok ("http", s), fun _ => none, fun _ => .client⟩

/-- One cluster and one user, with a `connection_pool` section that leaves out `max_idle_conns_per_host`. -/
def smallConfig (maxIdleConns : Int64) (toCluster : String) : Config where
  clusters :=
    [{ name := "c", scheme := "http", nodes := ["n"], replicas := []
       clusterUsers := [⟨"default", "", 0, 0, 0, 0, 0, 0, 0, []⟩]
       killQueryUser := ⟨"", ""⟩, heartBeat := ⟨5000000000, 3000000000, "/ping", "Ok.\n", "", ""⟩, retryNumber := 0 }]
  users :=
    [{ name := "u", password := "p", toCluster := toCluster, toUser := "default", maxConcurrentQueries := 0
       maxExecutionTime := 0, reqPerMin := 0, reqPacketSizeTokensBurst := 0, reqPacketSizeTokensRate := 0
       maxQueueSize := 0, maxQueueTime := 0, allowedNetworks := [], denyHTTP := false, denyHTTPS := false
       allowCORS := false, cache := "", params := "", isWildcarded := false }]
  logDebug := false
  maxErrorReasonSize := 0
  caches := []
  paramGroups := []
  connectionPool := ⟨maxIdleConns, 2⟩
  allowPing := false
  httpNetworks := []
  httpsNetworks := []
  metricsNetworks := []
  proxyEnable := false
  proxyHeader := ""

/-- The process as it starts. -/
def started : Process := ⟨none, 0, [], [], [], (false, ""), false, false⟩

/-- The process running the configuration of a known cluster. -/
def running (maxIdleConns : Int64) : Process := (applyConfig calmWorld started (smallConfig maxIdleConns "c")).1

theorem failed_reload_keeps_tables_equal_pool :
    (applyConfig calmWorld (running 2) (smallConfig 2 "x")).2 =
      some (.error (.cannotInitUser "u" (.unknownToCluster "x"))) ∧
    (applyConfig calmWorld (running 2) (smallConfig 2 "x")).1.tables = (running 2).tables := by
  have herr : (applyConfig calmWorld (running 2) (smallConfig 2 "x")).2 =
      some (.error (.cannotInitUser "u" (.unknownToCluster "x"))) := by decide
  have hpool : (running 2).proxy.map (fun rp => (rp.maxIdleConns, rp.maxIdleConnsPerHost)) = some (2, 2) := by
    decide
  refine ⟨herr, (failed_reload_keeps_tables_iff herr).2 fun rp hrp => .inl ?_⟩
  simp only [hrp, Option.map_some, Option.some.injEq, Prod.mk.injEq] at hpool
  exact ⟨hpool.1.symm, hpool.2.symm⟩

/-- With a pool of 100 connections, 2 per host, as a `connection_pool` section without numbers gives it: the
running process knows its user; a reload whose only change is a misspelt `to_cluster` returns an error, and
the user is gone. `connection_pool` did not change, but the proxy was replaced, since what it keeps is
`max_idle_conns_per_host` twice. -/
theorem failed_reload_loses_tables :
    (applyConfig calmWorld started (smallConfig 100 "c")).2 = none ∧
    (applyConfig calmWorld (running 100) (smallConfig 100 "x")).2 =
      some (.error (.cannotInitUser "u" (.unknownToCluster "x"))) ∧
    ((running 100).tables.users.lookup "u").isSome = true ∧
    (applyConfig calmWorld (running 100) (smallConfig 100 "x")).1.tables.users.lookup "u" = none ∧
    (applyConfig calmWorld (running 100) (smallConfig 100 "x")).1.tables ≠ (running 100).tables := by
  have hbefore : ((running 100).tables.users.lookup "u").isSome = true := by decide
  have hafter : (applyConfig calmWorld (running 100) (smallConfig 100 "x")).1.tables.users.lookup "u" = none := by
    decide
  refine ⟨by decide, by decide, hbefore, hafter, fun heq => ?_⟩
  rw [heq] at hafter
  simp [hafter] at hbefore

/-! ## What a failed load has already written -/

theorem ReverseProxy.withSettings_eq_iff {rp : ReverseProxy} {cfg : Config} :
    rp.withSettings cfg = rp ↔ cfg.maxErrorReasonSize.toInt64 = rp.maxErrorReasonSize ∧
      ((∃ u ∈ cfg.users, u.isWildcarded = true) → rp.hasWildcarded = true) := by
  obtain ⟨users, clusters, caches, hasWildcarded, maxIdleConns, maxIdleConnsPerHost, maxErrorReasonSize⟩ := rp
  simp only [withSettings, ReverseProxy.mk.injEq, true_and]
  rw [and_comm, ← List.any_eq_true (p := fun u : Config.User => u.isWildcarded)]
  refine and_congr_right fun _ => ?_
  cases hasWildcarded <;> simp

/-- A failed `reverseProxy.applyConfig` leaves the whole proxy as it was exactly when it failed on the
clusters, or when the two fields assigned after them have their values already. -/
theorem failed_apply_keeps_proxy_iff {w : World} {rp : ReverseProxy} {next : Nat} {cfg : Config} {e : BuildError}
    (h : (rp.applyConfig w next cfg).err = some (.error e)) :
    (rp.applyConfig w next cfg).rp = rp ↔
      (∃ e', newClusters w ∅ cfg.clusters = .error e') ∨
      (cfg.maxErrorReasonSize.toInt64 = rp.maxErrorReasonSize ∧
        ((∃ u ∈ cfg.users, u.isWildcarded = true) → rp.hasWildcarded = true)) := by
  rcases ReverseProxy.applyConfig_failed h with ⟨hclusters, hrp⟩ | ⟨clusters, hclusters, hrp⟩
  · exact iff_of_true hrp (.inl ⟨_, hclusters⟩)
  · rw [hrp, ReverseProxy.withSettings_eq_iff, hclusters]
    simp

/-- The proxy that runs `smallConfig`. -/
def smallProxy : ReverseProxy := ((newReverseProxy ⟨2, 2⟩).applyConfig calmWorld 0 (smallConfig 2 "c")).rp

theorem failed_apply_keeps_proxy_same_settings :
    (smallProxy.applyConfig calmWorld 0 (smallConfig 2 "x")).err =
      some (.error (.cannotInitUser "u" (.unknownToCluster "x"))) ∧
    (smallProxy.applyConfig calmWorld 0 (smallConfig 2 "x")).rp = smallProxy := by
  have herr : (smallProxy.applyConfig calmWorld 0 (smallConfig 2 "x")).err =
      some (.error (.cannotInitUser "u" (.unknownToCluster "x"))) := by decide
  refine ⟨herr, (failed_apply_keeps_proxy_iff herr).2 (.inr ⟨by decide, ?_⟩)⟩
  rintro ⟨u, hu, hwild⟩
  cases List.mem_singleton.1 hu
  cases hwild

/-- A reload that sets `max_error_reason_size` to 10 and misspells `to_cluster` returns an error, and
the running proxy goes on with the new size. -/
theorem failed_apply_changes_proxy :
    let cfg := { smallConfig 2 "x" with maxErrorReasonSize := 10 }
    (smallProxy.applyConfig calmWorld 0 cfg).err = some (.error (.cannotInitUser "u" (.unknownToCluster "x"))) ∧
    smallProxy.maxErrorReasonSize = 0 ∧
    (smallProxy.applyConfig calmWorld 0 cfg).rp.maxErrorReasonSize = 10 ∧
    (smallProxy.applyConfig calmWorld 0 cfg).rp ≠ smallProxy := by
  intro cfg
  have hbefore : smallProxy.maxErrorReasonSize = 0 := by decide
  have hafter : (smallProxy.applyConfig calmWorld 0 cfg).rp.maxErrorReasonSize = 10 := by decide
  refine ⟨by decide, hbefore, hafter, fun heq => ?_⟩
  rw [heq, hbefore] at hafter
  cases hafter

end Chproxy.Routing
