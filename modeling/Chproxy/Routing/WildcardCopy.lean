/-
The copy of a cluster user that a request of a wildcarded user is admitted with (`scope.go`: `deepCopy`;
`proxy.go`: `generateWildcardedUserInformation`), against the configuration the cluster user was made of.
The copy has no packet size tokens, and the capacity of its queue is the queue time in nanoseconds.
-/
import Chproxy.Routing.GetUser
import Chproxy.Routing.Origin
import Chproxy.Scope.Admission

namespace Chproxy.Routing

/-! ## Limits of the configuration -/

/-- The limits of the cluster user are those of the configuration. The queue is enabled iff it has a size,
and a limiter is asked only where there is a burst. -/
structure ClusterUser.Keeps (cu : ClusterUser) (cfg : Config.ClusterUser) : Prop where
  maxConcurrentQueries : cu.maxConcurrentQueries = cfg.maxConcurrentQueries
  maxExecutionTime : cu.maxExecutionTime = cfg.maxExecutionTime
  maxQueueTime : cu.maxQueueTime = cfg.maxQueueTime
  reqPerMin : cu.reqPerMin = cfg.reqPerMin
  queueEnabled : cu.queueCh.isSome = true ↔ cfg.maxQueueSize > 0
  queueCapacity : ∀ n, cu.queueCh = some n → n = cfg.maxQueueSize.toNat
  burst : cu.reqPacketSizeTokensBurst = cfg.reqPacketSizeTokensBurst
  rate : cu.reqPacketSizeTokensRate = cfg.reqPacketSizeTokensRate
  limiter : cfg.reqPacketSizeTokensBurst > 0 →
    cu.limiter = some (cfg.reqPacketSizeTokensRate, cfg.reqPacketSizeTokensBurst)
  allowedNetworks : cu.allowedNetworks = cfg.allowedNetworks

theorem eq_queueCh_iff {ch : Option Nat} {size : UInt32} :
    ch = queueCh size ↔ (ch.isSome = true ↔ size > 0) ∧ ∀ n, ch = some n → n = size.toNat := by
  unfold queueCh
  by_cases hsize : size > 0
  · simp only [hsize, if_true, iff_true]
    constructor
    · rintro rfl
      exact ⟨rfl, fun n hn => (Option.some.inj hn).symm⟩
    · rintro ⟨hsome, hcap⟩
      obtain ⟨n, hn⟩ := Option.isSome_iff_exists.1 hsome
      rw [hn, hcap n hn]
  · simp only [hsize, if_false, iff_false, Bool.not_eq_true, Option.isSome_eq_false_iff, Option.isNone_iff_eq_none]
    constructor
    · rintro rfl
      exact ⟨rfl, fun n hn => by cases hn⟩
    · exact And.left

/-- The constructor keeps them, and the mark of a wildcarded user does not matter. -/
theorem ClusterUser.MadeOf.keeps {cu : ClusterUser} {cfg : Config.ClusterUser} (h : cu.MadeOf cfg) : cu.Keeps cfg := by
  rw [h]
  exact
    { maxConcurrentQueries := rfl, maxExecutionTime := rfl, maxQueueTime := rfl, reqPerMin := rfl
      queueEnabled := (eq_queueCh_iff.1 rfl).1, queueCapacity := (eq_queueCh_iff.1 rfl).2
      burst := rfl, rate := rfl, limiter := fun _ => rfl, allowedNetworks := rfl }

/-! ## The copy -/

/-- The queue time in nanoseconds is the queue size, and there are no packet size tokens. -/
structure Copyable (cfg : Config.ClusterUser) : Prop where
  queue : cfg.maxQueueSize > 0 → cfg.maxQueueTime.toInt = cfg.maxQueueSize.toNat
  rate : cfg.reqPacketSizeTokensRate = 0

section Copy

variable {cu : ClusterUser} {cfg : Config.ClusterUser}

/-- The capacity is right where the queue time says so: a validated queue time has a queue size. -/
theorem deepCopy_queueCh_iff (h : cu.MadeOf cfg) (hvalid : cfg.validate = .ok ()) :
    (deepCopy cu).queueCh = queueCh cfg.maxQueueSize ↔
      (cfg.maxQueueSize > 0 → cfg.maxQueueTime.toInt = cfg.maxQueueSize.toNat) := by
  -- the copy makes its channel of the queue time, in nanoseconds
  have hch : (deepCopy cu).queueCh = if cfg.maxQueueTime > 0 then some cfg.maxQueueTime.toInt.toNat else none := by
    rw [h]
    rfl
  have htime : cfg.maxQueueTime > 0 ↔ 0 < cfg.maxQueueTime.toInt := Int64.lt_iff_toInt_lt
  rw [hch, queueCh]
  by_cases hsize : cfg.maxQueueSize > 0
  · have hpos : 0 < cfg.maxQueueSize.toNat := UInt32.lt_iff_toNat_lt.1 hsize
    simp only [hsize, if_true, forall_const]
    split
    · rename_i hqueue
      rw [htime] at hqueue
      rw [Option.some.injEq]
      omega
    · rename_i hqueue
      rw [htime] at hqueue
      refine iff_of_false (by simp) ?_
      omega
  · -- a queue time without a queue size is not valid
    have hnoqueue : ¬cfg.maxQueueTime > 0 := fun hqueue =>
      hsize (UInt32.pos_iff_ne_zero.2 ((Config.ClusterUser.validate_limits hvalid).1 hqueue))
    rw [if_neg hsize, if_neg hnoqueue]
    exact iff_of_true rfl fun hpos => absurd hpos hsize

theorem deepCopy_keeps_iff (h : cu.MadeOf cfg) (hvalid : cfg.validate = .ok ()) (name password : String) :
    ({ deepCopy cu with name := name, password := password } : ClusterUser).Keeps cfg ↔ Copyable cfg := by
  have hqueue := deepCopy_queueCh_iff h hvalid
  constructor
  · intro hkeeps
    exact ⟨hqueue.1 (eq_queueCh_iff.2 ⟨hkeeps.queueEnabled, hkeeps.queueCapacity⟩), hkeeps.rate.symm⟩
  · intro hcopy
    obtain ⟨henabled, hcapacity⟩ := eq_queueCh_iff.1 (hqueue.2 hcopy.queue)
    have hmade := h.keeps
    -- a validated configuration without a rate has no burst
    have hburst : ¬cfg.reqPacketSizeTokensBurst > 0 := fun hpos =>
      (Config.ClusterUser.validate_limits hvalid).2 hpos hcopy.rate
    exact
      { maxConcurrentQueries := hmade.maxConcurrentQueries, maxExecutionTime := hmade.maxExecutionTime
        maxQueueTime := hmade.maxQueueTime, reqPerMin := hmade.reqPerMin, queueEnabled := henabled
        queueCapacity := hcapacity, burst := (UInt64.not_lt.1 hburst |> UInt64.le_zero_iff.1).symm
        rate := hcopy.rate.symm, limiter := fun hpos => absurd hpos hburst
        allowedNetworks := hmade.allowedNetworks }

/-- What a wildcarded request is admitted with, and when its limits are those of the configuration. -/
theorem wildcard_copy_keeps_iff {rp : ReverseProxy} {user : User} {c : Cluster}
    (hc : rp.clusters.lookup user.toCluster = some c) (hcu : c.users.lookup user.toUser = some cu) (h : cu.MadeOf cfg)
    (hvalid : cfg.validate = .ok ()) (name password : String) :
    ∃ copy, rp.generateWildcardedUserInformation user name password = .ok ⟨true, some user, some c, some copy⟩ ∧
      copy.Carries name password ∧ (copy.Keeps cfg ↔ Copyable cfg) :=
  ⟨_, ReverseProxy.generateWildcardedUserInformation_copy hc hcu name password, ⟨rfl, rfl⟩,
    deepCopy_keeps_iff h hvalid name password⟩

end Copy

/-- The wildcarded user `analyst_*` is mapped to this cluster user `web`. -/
def webConfig (web : Config.ClusterUser) : Config :=
  { analystConfig with
    clusters :=
      [{ name := "c", scheme := "http", nodes := ["n"], replicas := [], clusterUsers := [web]
         killQueryUser := ⟨"", ""⟩, heartBeat := ⟨5000000000, 3000000000, "/ping", "Ok.\n", "", ""⟩
         retryNumber := 0 }] }

def webLoader (web : Config.ClusterUser) : Loader :=
  let out := (newReverseProxy ⟨2, 2⟩).applyConfig calmWorld 0 (webConfig web)
  ⟨out.rp, out.next, [] ++ cacheIds out.closed⟩

theorem webLoader_reach {web : Config.ClusterUser} (hc : ∀ c ∈ (webConfig web).clusters, c.validate = .ok ())
    (hcu : web.validate = .ok ()) : Steps.ReachWhen Loader.load Loader.Initial ValidLoad (webLoader web) :=
  .step (s := ⟨newReverseProxy ⟨2, 2⟩, 0, []⟩) (a := (calmWorld, webConfig web))
    (.init ⟨⟨⟨2, 2⟩, rfl⟩, rfl, rfl⟩) rfl
    { config := rfl
      clusters := hc
      replicas := List.forall_mem_singleton.2 nofun
      clusterUsers := List.forall_mem_singleton.2 (List.forall_mem_singleton.2 hcu)
      users := analystConfig_valid.users
      caches := nofun
      paramGroups := nofun
      connectionPool := rfl }

/-- Four queries at a time for two minutes each, sixty a minute, from 10.0.0.0/8, and 5000 in a queue in which they
wait for 5 µs. -/
def patientWeb : Config.ClusterUser :=
  ⟨"web", "secret", 4, 120000000000, 60, 0, 0, 5000, 5000, [⟨[10, 0, 0, 0], [255, 0, 0, 0]⟩]⟩

/-- The copy for `analyst_7` has every limit of its cluster user. -/
theorem wildcard_copy_keeps_analyst :
    Steps.ReachWhen Loader.load Loader.Initial ValidLoad (webLoader patientWeb) ∧
    ∃ user c copy, (webLoader patientWeb).rp.users.lookup "analyst_*" = some user ∧
      (webLoader patientWeb).rp.generateWildcardedUserInformation user "analyst_7" "mine" =
        .ok ⟨true, some user, some c, some copy⟩ ∧
      copy.Carries "analyst_7" "mine" ∧ copy.Keeps patientWeb := by
  obtain ⟨user, huser⟩ : ∃ user, (webLoader patientWeb).rp.users.lookup "analyst_*" = some user := ⟨_, rfl⟩
  obtain ⟨c, hc⟩ : ∃ c, (webLoader patientWeb).rp.clusters.lookup user.toCluster = some c := by
    cases huser
    exact ⟨_, rfl⟩
  obtain ⟨cu, hcu, hmade⟩ : ∃ cu, c.users.lookup user.toUser = some cu ∧ cu.MadeOf patientWeb := by
    cases huser
    cases hc
    exact ⟨_, rfl, rfl⟩
  obtain ⟨copy, hgen, hcarries, hkeeps⟩ := wildcard_copy_keeps_iff hc hcu hmade rfl "analyst_7" "mine"
  exact ⟨webLoader_reach (List.forall_mem_singleton.2 rfl) rfl, user, c, copy, huser, hgen, hcarries,
    hkeeps.2 ⟨fun _ => by decide, rfl⟩⟩

/-- The cluster user `web` lets 100 requests wait for this time, and spends at most 1000 tokens. -/
def limitedWeb (maxQueueTime : Config.Duration) : Config.ClusterUser :=
  ⟨"web", "secret", 0, 0, 0, 1000, 10, 100, maxQueueTime, []⟩

def limitedLoader (maxQueueTime : Config.Duration) : Loader := webLoader (limitedWeb maxQueueTime)

/-- What the copy for `analyst_7` has of its queue, its burst and its limiter. -/
def analystCopy (s : Loader) : Option (Option Nat × Config.ByteSize × Option (Config.ByteSize × Config.ByteSize)) :=
  (s.rp.getUser (userValues s.rp.users) "analyst_7" "mine").toOption.bind fun r =>
    r.cu.map fun copy => (copy.queueCh, copy.reqPacketSizeTokensBurst, copy.limiter)

/-- With a queue time of ten seconds, ten thousand million requests may wait and not 100; without one, none
may. Neither copy has a limiter. -/
theorem copy_changes_queue :
    (Steps.ReachWhen Loader.load Loader.Initial ValidLoad (limitedLoader 10000000000) ∧
      analystCopy (limitedLoader 10000000000) = some (some 10000000000, 0, none)) ∧
    (Steps.ReachWhen Loader.load Loader.Initial ValidLoad (limitedLoader 0) ∧
      analystCopy (limitedLoader 0) = some (none, 0, none)) ∧
    ∀ maxQueueTime, (newClusterUser (limitedWeb maxQueueTime)).queueCh = some 100 ∧
      (newClusterUser (limitedWeb maxQueueTime)).limiter = some (10, 1000) :=
  ⟨⟨webLoader_reach (List.forall_mem_singleton.2 rfl) rfl, by decide⟩,
    ⟨webLoader_reach (List.forall_mem_singleton.2 rfl) rfl, by decide⟩, fun _ => ⟨rfl, rfl⟩⟩

/-! ## Running proxies -/

/-- Every cluster user of a running proxy was made of a validated configuration. -/
theorem Loader.madeOf_reach {s : Loader} (h : Steps.ReachWhen Loader.load Loader.Initial ValidLoad s) :
    ∀ toCluster toUser cu, configured s.rp.clusters toCluster toUser = some cu →
      ∃ cfg : Config.ClusterUser, cfg.validate = .ok () ∧ cu.MadeOf cfg := by
  refine h.invariant (P := fun s => ∀ toCluster toUser cu, configured s.rp.clusters toCluster toUser = some cu →
      ∃ cfg : Config.ClusterUser, cfg.validate = .ok () ∧ cu.MadeOf cfg)
    (fun s hs => ?_) fun s call s' hs hst hvalid => ?_
  · obtain ⟨⟨cfgCp, hrp⟩, _, _⟩ := hs
    rw [hrp]
    intro toCluster toUser cu hcu
    simp [configured, newReverseProxy] at hcu
  · cases hst
    intro toCluster toUser cu hcu
    cases herr : (s.rp.applyConfig call.1 s.next call.2).err with
    | some e =>
      -- a load that fails leaves the clusters of the last one
      have hclusters : (s.rp.applyConfig call.1 s.next call.2).rp.clusters = s.rp.clusters :=
        congrArg Tables.clusters (ReverseProxy.applyConfig_tables herr)
      exact hs toCluster toUser cu (hclusters ▸ hcu)
    | none =>
      obtain ⟨c, hc, cfg, hcfg, hmade⟩ := (ReverseProxy.applyConfig_origin herr).2 toCluster toUser cu hcu
      exact ⟨cfg, hvalid.clusterUsers c hc cfg hcfg, hmade⟩

/-- The limits that admission reads. -/
def ClusterUser.limits (cu : ClusterUser) : Scope.Limits where
  name := cu.name
  maxConcurrentQueries := cu.maxConcurrentQueries
  reqPerMin := cu.reqPerMin
  reqPacketSizeTokensBurst := cu.reqPacketSizeTokensBurst
  queueCh := cu.queueCh

/-- In a running proxy, a request of a wildcarded user is admitted with a copy of a validated cluster user.
No size of its packet is too large for the copy, and the copy keeps the limits only if there are none for
packets and the queue is as long as its time. -/
theorem Loader.wildcarded_admission {s : Loader} (h : Steps.ReachWhen Loader.load Loader.Initial ValidLoad s)
    {key : String} {user : User} (hu : s.rp.users.lookup key = some user) (name password : String) :
    ∃ c copy, s.rp.generateWildcardedUserInformation user name password = .ok ⟨true, some user, some c, some copy⟩ ∧
      (∀ side tokens n, copy.limits.checkPacketSize side tokens n = (tokens, none)) ∧
      ∃ cfg : Config.ClusterUser, cfg.validate = .ok () ∧ (copy.Keeps cfg ↔ Copyable cfg) := by
  obtain ⟨cu, hcu⟩ := Option.isSome_iff_exists.1 ((Loader.closed_reach h).users key user hu).target
  obtain ⟨cfg, hvalid, hmade⟩ := Loader.madeOf_reach h _ _ _ hcu
  obtain ⟨c, hc, hcu⟩ := Option.bind_eq_some_iff.1 hcu
  exact ⟨c, _, ReverseProxy.generateWildcardedUserInformation_copy hc hcu name password, fun side tokens n => rfl, cfg,
    hvalid, deepCopy_keeps_iff hmade hvalid name password⟩

end Chproxy.Routing
