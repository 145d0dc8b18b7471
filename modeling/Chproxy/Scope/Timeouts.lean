/-
How long a request may take: `getTimeoutWithErrMsg` and `maxQueueTime` (`scope.go`), which combine the
settings of a user and of the cluster user it is mapped to, against the write timeout that loading the
configuration computed from the two separately.
-/
import Chproxy.Config.Defaults
import Chproxy.Routing.GetUser
import Chproxy.Routing.Origin

namespace Chproxy.Scope

open Config (Duration NetParsers File Loaded Scheme loadFile minute second minute_toInt)
open Routing (User ClusterUser ReverseProxy World configured deepCopy)

/-! ## The times of a scope -/

/-- The errors of an exceeded timeout. -/
inductive TimeoutMsg
  | user (name : String) (timeout : Duration)
  | clusterUser (name : String) (timeout : Duration)
  deriving DecidableEq, Repr

def getTimeoutWithErrMsg (u : User) (cu : ClusterUser) : Duration × Option TimeoutMsg :=
  let own := if u.maxExecutionTime > 0 then (u.maxExecutionTime, some (.user u.name u.maxExecutionTime)) else (0, none)
  if own.1 = 0 ∨ (cu.maxExecutionTime > 0 ∧ cu.maxExecutionTime < own.1) then
    (cu.maxExecutionTime, some (.clusterUser cu.name cu.maxExecutionTime))
  else own

/-- 10 seconds when neither sets a queue time. -/
def maxQueueTime (u : User) (cu : ClusterUser) : Duration :=
  let d := if u.maxQueueTime ≤ 0 ∨ (cu.maxQueueTime > 0 ∧ cu.maxQueueTime < u.maxQueueTime) then cu.maxQueueTime
    else u.maxQueueTime
  if d ≤ 0 then 10 * second else d

/-- How long `incQueued` may wait: not at all without a queue. -/
def maxWait (u : User) (cu : ClusterUser) : Duration :=
  if u.queueCh = none ∧ cu.queueCh = none then 0 else maxQueueTime u cu

/-- A user of the proxy, with the cluster user it is mapped to or the copy of it that a wildcarded user
gets. -/
def Serves (rp : ReverseProxy) (u : User) (cu : ClusterUser) : Prop :=
  (∃ name, rp.users.lookup name = some u) ∧
  ∃ cu₀, configured rp.clusters u.toCluster u.toUser = some cu₀ ∧
    (cu = cu₀ ∨ ∃ name password, cu = { deepCopy cu₀ with name := name, password := password })

section Times

variable {u : User} {cu : ClusterUser}

/-- The execution time of a user that has one: its own, or the shorter one of the cluster user. -/
theorem getTimeoutWithErrMsg_toInt (hu : 0 < u.maxExecutionTime.toInt) :
    (getTimeoutWithErrMsg u cu).1.toInt =
      if 0 < cu.maxExecutionTime.toInt ∧ cu.maxExecutionTime.toInt < u.maxExecutionTime.toInt then
        cu.maxExecutionTime.toInt
      else u.maxExecutionTime.toInt := by
  have hpos : u.maxExecutionTime > 0 := Int64.lt_iff_toInt_lt.2 hu
  have hne : u.maxExecutionTime ≠ 0 := by
    intro heq
    rw [heq] at hu
    exact absurd hu (by decide)
  unfold getTimeoutWithErrMsg
  simp only [hpos, if_true, hne, false_or, gt_iff_lt, Int64.lt_iff_toInt_lt, Int64.toInt_zero]
  split <;> simp_all

theorem maxQueueTime_toInt :
    (maxQueueTime u cu).toInt =
      if u.maxQueueTime.toInt ≤ 0 then if cu.maxQueueTime.toInt ≤ 0 then 10000000000 else cu.maxQueueTime.toInt
      else if 0 < cu.maxQueueTime.toInt ∧ cu.maxQueueTime.toInt < u.maxQueueTime.toInt then cu.maxQueueTime.toInt
      else u.maxQueueTime.toInt := by
  have hten : (10 * second : Duration).toInt = 10000000000 := by decide
  unfold maxQueueTime
  simp only [gt_iff_lt, Int64.lt_iff_toInt_lt, Int64.le_iff_toInt_le, Int64.toInt_zero]
  by_cases hu : u.maxQueueTime.toInt ≤ 0
  · simp only [hu, true_or, if_true]
    split <;> simp [hten]
  · simp only [hu, false_or, if_false]
    by_cases hcu : 0 < cu.maxQueueTime.toInt ∧ cu.maxQueueTime.toInt < u.maxQueueTime.toInt
    · rw [if_pos hcu, if_pos hcu, if_neg (by omega)]
    · rw [if_neg hcu, if_neg hcu, if_neg hu]

/-- When the wait and the execution time are not crossed, one of the two accounts for the time of a request,
but for less than a minute (the default wait is 10 seconds). -/
theorem total_le_of_own (hpos : 0 < u.maxExecutionTime.toInt) (huq : 0 ≤ u.maxQueueTime.toInt)
    (hcq : 0 ≤ cu.maxQueueTime.toInt)
    (hown : (u.queueCh = none ∧ cu.queueCh = none) ∨ 0 < u.maxQueueTime.toInt ∨ cu.maxQueueTime.toInt = 0 ∨
      (0 < cu.maxExecutionTime.toInt ∧ cu.maxExecutionTime.toInt ≤ u.maxExecutionTime.toInt)) :
    (maxWait u cu).toInt + (getTimeoutWithErrMsg u cu).1.toInt - minute.toInt ≤
        u.maxExecutionTime.toInt + u.maxQueueTime.toInt ∨
      (maxWait u cu).toInt + (getTimeoutWithErrMsg u cu).1.toInt - minute.toInt ≤
        cu.maxExecutionTime.toInt + cu.maxQueueTime.toInt := by
  rw [getTimeoutWithErrMsg_toInt hpos, minute_toInt]
  by_cases hqueue : u.queueCh = none ∧ cu.queueCh = none
  · left
    rw [maxWait, if_pos hqueue, Int64.toInt_zero]
    split <;> omega
  rw [maxWait, if_neg hqueue, maxQueueTime_toInt]
  by_cases hq : 0 < u.maxQueueTime.toInt
  · left
    rw [if_neg (by omega)]
    split <;> split <;> omega
  rw [if_pos (by omega)]
  -- the user sets no queue time, so that the wait is that of the cluster user or the default
  rcases hown with hnone | hset | hdefault | hexec
  · exact absurd hnone hqueue
  · exact absurd hset hq
  · left
    rw [if_pos (by omega)]
    split <;> omega
  · right
    split <;> split <;> omega

/-- Otherwise the request may wait as long as the cluster user lets it and run as long as the user does. -/
theorem total_eq_of_crossed (hpos : 0 < u.maxExecutionTime.toInt) (huq : 0 ≤ u.maxQueueTime.toInt)
    (hcq : 0 ≤ cu.maxQueueTime.toInt)
    (hown : ¬ ((u.queueCh = none ∧ cu.queueCh = none) ∨ 0 < u.maxQueueTime.toInt ∨ cu.maxQueueTime.toInt = 0 ∨
      (0 < cu.maxExecutionTime.toInt ∧ cu.maxExecutionTime.toInt ≤ u.maxExecutionTime.toInt))) :
    (maxWait u cu).toInt + (getTimeoutWithErrMsg u cu).1.toInt =
      u.maxExecutionTime.toInt + cu.maxQueueTime.toInt := by
  simp only [not_or] at hown
  obtain ⟨hqueue, hq, hset, hexec⟩ := hown
  rw [getTimeoutWithErrMsg_toInt hpos, maxWait, if_neg hqueue, maxQueueTime_toInt, if_pos (by omega), if_neg (by omega),
    if_neg (by omega), Int.add_comm]

end Times

/-! ## Against the write timeout -/

/-- The times of a served pair, as the configuration has them. -/
theorem Serves.times {w : World} {rp : ReverseProxy} {next : Nat} {cfg : Config} {u : User} {cu : ClusterUser}
    (h : (rp.applyConfig w next cfg).err = none) (hs : Serves (rp.applyConfig w next cfg).rp u cu) :
    (∃ x ∈ cfg.users, u.maxExecutionTime = x.maxExecutionTime ∧ u.maxQueueTime = x.maxQueueTime) ∧
    ∃ c ∈ cfg.clusters, ∃ x ∈ c.clusterUsers,
      cu.maxExecutionTime = x.maxExecutionTime ∧ cu.maxQueueTime = x.maxQueueTime := by
  obtain ⟨⟨name, hu⟩, cu₀, hcu₀, hcu⟩ := hs
  obtain ⟨husers, hsourced⟩ := ReverseProxy.applyConfig_origin h
  obtain ⟨x, hx, hmade⟩ := husers name u hu
  obtain ⟨c, hc, y, hy, hmade'⟩ := hsourced _ _ cu₀ hcu₀
  have hexec : cu.maxExecutionTime = cu₀.maxExecutionTime ∧ cu.maxQueueTime = cu₀.maxQueueTime := by
    rcases hcu with rfl | ⟨name, password, rfl⟩
    · exact ⟨rfl, rfl⟩
    · exact ⟨rfl, rfl⟩
  refine ⟨⟨x, hx, hmade.maxExecutionTime, hmade.maxQueueTime⟩, c, hc, y, hy, ?_⟩
  rw [hexec.1, hexec.2, hmade']
  exact ⟨rfl, rfl⟩

/-- After loading a file without a write timeout and applying it, for every user and the cluster user it is
mapped to: the computed write timeout covers the longest wait and the execution of a request, unless the
wait is that of the cluster user, the execution time that of the user, and no user or cluster user of the
configuration takes as long as the two together, but for a minute. -/
theorem write_timeout_covers_iff {net : NetParsers} {file : File} {out : Loaded} (h : loadFile net file = .ok out)
    (hm : out.config.ModerateTimes) {scheme : Scheme} (hlisten : (file.listener scheme).listenAddr ≠ "")
    (hzero : (file.listener scheme).writeTimeout = 0) {w : World} {rp : ReverseProxy} {next : Nat}
    (happly : (rp.applyConfig w next out.config).err = none) {u : User} {cu : ClusterUser}
    (hs : Serves (rp.applyConfig w next out.config).rp u cu) :
    (maxWait u cu).toInt + (getTimeoutWithErrMsg u cu).1.toInt ≤ (out.listener scheme).writeTimeout.toInt ↔
      (u.queueCh = none ∧ cu.queueCh = none) ∨ 0 < u.maxQueueTime ∨ cu.maxQueueTime = 0 ∨
      (0 < cu.maxExecutionTime ∧ cu.maxExecutionTime ≤ u.maxExecutionTime) ∨
      out.config.Takes (u.maxExecutionTime.toInt + cu.maxQueueTime.toInt - minute.toInt) := by
  obtain ⟨⟨x, hx, hue, huq⟩, c, hc, y, hy, hce, hcq⟩ := Serves.times happly hs
  have hmx := hm.users x hx
  have hmy := hm.clusterUsers c hc y hy
  rw [← hue, ← huq] at hmx
  rw [← hce, ← hcq] at hmy
  obtain ⟨hue0, huq0, _⟩ := hmx
  obtain ⟨hce0, hcq0, _⟩ := hmy
  have hpos : 0 < u.maxExecutionTime.toInt := by
    have hne := (Config.loadFile_ok h).1 x hx
    rw [← hue] at hne
    refine lt_of_le_of_ne hue0 fun heq => hne (Int64.toInt_inj.1 ?_)
    rw [← heq, Int64.toInt_zero]
  have hcqzero : cu.maxQueueTime = 0 ↔ cu.maxQueueTime.toInt = 0 := by rw [← Int64.toInt_inj, Int64.toInt_zero]
  rw [hcqzero, Int64.lt_iff_toInt_lt, Int64.lt_iff_toInt_lt, Int64.le_iff_toInt_le, Int64.toInt_zero]
  by_cases hown : (u.queueCh = none ∧ cu.queueCh = none) ∨ 0 < u.maxQueueTime.toInt ∨ cu.maxQueueTime.toInt = 0 ∨
      (0 < cu.maxExecutionTime.toInt ∧ cu.maxExecutionTime.toInt ≤ u.maxExecutionTime.toInt)
  · refine iff_of_true ?_ (hown.imp_right fun ho => ho.imp_right fun ho => ho.imp_right .inl)
    -- what the user takes, and what the cluster user takes, is covered
    rcases total_le_of_own hpos huq0 hcq0 hown with hle | hle
    · exact Config.le_writeTimeout_of_takes h hm hlisten hzero (.inr ⟨x, hx, by rwa [← hue, ← huq]⟩)
    · exact Config.le_writeTimeout_of_takes h hm hlisten hzero (.inl ⟨c, hc, y, hy, by rwa [← hce, ← hcq]⟩)
  · rw [total_eq_of_crossed hpos huq0 hcq0 hown]
    simp only [not_or] at hown
    obtain ⟨hqueue, hq, hset, hexec⟩ := hown
    simp only [hqueue, hq, hset, hexec, false_or]
    constructor
    · intro hle
      by_cases hlong : minute.toInt < u.maxExecutionTime.toInt + cu.maxQueueTime.toInt
      · exact Config.takes_of_le_writeTimeout h hm hlisten hzero hlong hle
      · exact .inr ⟨x, hx, by rw [← hue, ← huq]; omega⟩
    · exact Config.le_writeTimeout_of_takes h hm hlisten hzero

/-- A user without times of its own, mapped to a cluster user with a queue. -/
def queueFile (queueTime : Duration) : File where
  http := ⟨":9090", [], 0⟩
  https := ⟨"", [], 0⟩
  metricsNetworksOrGroups := []
  networkGroups := []
  clusters :=
    [⟨{ name := "c", scheme := "http", nodes := ["n"], replicas := [], clusterUsers := [], killQueryUser := ⟨"", ""⟩
        heartBeat := ⟨5000000000, 3000000000, "/ping", "Ok.\n", "", ""⟩, retryNumber := 0 },
      [⟨⟨"default", "", 4, 0, 0, 0, 0, 10, queueTime, []⟩, []⟩]⟩]
  users :=
    [⟨{ name := "u", password := "p", toCluster := "c", toUser := "default", maxConcurrentQueries := 0
        maxExecutionTime := 0, reqPerMin := 0, reqPacketSizeTokensBurst := 0, reqPacketSizeTokensRate := 0
        maxQueueSize := 0, maxQueueTime := 0, allowedNetworks := [], denyHTTP := false, denyHTTPS := false
        allowCORS := false, cache := "", params := "", isWildcarded := false }, []⟩]
  logDebug := false
  maxErrorReasonSize := 0
  caches := []
  paramGroups := []
  connectionPool := ⟨100, 2⟩
  allowPing := false
  proxyEnable := false
  proxyHeader := ""

/-- A new proxy after the loaded configuration was applied to it. -/
def proxyOf (out : Loaded) : Routing.Applied :=
  (Routing.newReverseProxy out.config.connectionPool).applyConfig Routing.calmWorld 0 out.config

/-- The objects that serve the user `u` of the file: its cluster user waits, and its execution time is the
default one. -/
theorem queueFile_serves {out : Loaded} {t : Duration}
    (hu : ((proxyOf out).rp.users.lookup "u").map
      (fun u => (u.toCluster, u.toUser, u.maxExecutionTime, u.maxQueueTime)) =
      some ("c", "default", 120000000000, 0))
    (hcu : (configured (proxyOf out).rp.clusters "c" "default").map
      (fun cu => (cu.maxExecutionTime, cu.maxQueueTime, cu.queueCh)) = some (0, t, some 10)) :
    ∃ u cu, Serves (proxyOf out).rp u cu ∧ u.maxExecutionTime = 120000000000 ∧ u.maxQueueTime = 0 ∧
      cu.maxExecutionTime = 0 ∧ cu.maxQueueTime = t ∧ cu.queueCh = some 10 := by
  obtain ⟨u, hlookup, hu⟩ := Option.map_eq_some_iff.1 hu
  obtain ⟨cu, hconfigured, hcu⟩ := Option.map_eq_some_iff.1 hcu
  simp only [Prod.mk.injEq] at hu hcu
  refine ⟨u, cu, ⟨⟨"u", hlookup⟩, cu, ?_, .inl rfl⟩, hu.2.2.1, hu.2.2.2, hcu⟩
  rw [hu.1, hu.2.1]
  exact hconfigured

theorem write_timeout_covers_short_queue :
    ∃ out u cu, loadFile Config.sampleNet (queueFile 30000000000) = .ok out ∧ Serves (proxyOf out).rp u cu ∧
      (maxWait u cu).toInt + (getTimeoutWithErrMsg u cu).1.toInt ≤ (out.listener .http).writeTimeout.toInt := by
  obtain ⟨out, hout⟩ : ∃ out, loadFile Config.sampleNet (queueFile 30000000000) = .ok out := ⟨_, rfl⟩
  have hm : out.config.ModerateTimes := by
    cases hout
    exact ⟨List.forall_mem_singleton.2 (List.forall_mem_singleton.2 ⟨by decide, by decide, by decide⟩),
      List.forall_mem_singleton.2 ⟨by decide, by decide, by decide⟩⟩
  obtain ⟨u, cu, hs, hue, _, _, hcq, _⟩ := @queueFile_serves out 30000000000
    (by cases hout; decide) (by cases hout; decide)
  have happly : (proxyOf out).err = none := by cases hout; decide
  refine ⟨out, u, cu, hout, hs, ?_⟩
  refine (@write_timeout_covers_iff _ _ _ hout hm .http (by decide) rfl _ _ _ happly _ _ hs).2 ?_
  refine .inr (.inr (.inr (.inr (.inr ?_))))
  cases hout
  exact ⟨_, List.mem_singleton.2 rfl, by rw [hue, hcq]; decide⟩

/-- The cluster user lets requests wait for 90 seconds, the user has the default execution time of two
minutes: a request may take 210 seconds, and its response is cut off after 180. -/
theorem write_timeout_misses_queue :
    ∃ out u cu, loadFile Config.sampleNet (queueFile 90000000000) = .ok out ∧ (proxyOf out).err = none ∧
      Serves (proxyOf out).rp u cu ∧ (maxWait u cu).toInt = 90000000000 ∧
      (getTimeoutWithErrMsg u cu).1.toInt = 120000000000 ∧ (out.listener .http).writeTimeout.toInt = 180000000000 := by
  obtain ⟨out, hout⟩ : ∃ out, loadFile Config.sampleNet (queueFile 90000000000) = .ok out := ⟨_, rfl⟩
  obtain ⟨u, cu, hs, hue, huq, hce, hcq, hqueue⟩ := @queueFile_serves out 90000000000
    (by cases hout; decide) (by cases hout; decide)
  refine ⟨out, u, cu, hout, by cases hout; decide, hs, ?_, ?_, by cases hout; decide⟩
  · rw [maxWait, if_neg (by simp [hqueue]), maxQueueTime_toInt, huq, hcq]
    decide
  · rw [getTimeoutWithErrMsg_toInt (by rw [hue]; decide), hue, hce]
    decide

end Chproxy.Scope
