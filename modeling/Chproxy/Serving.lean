/-
From the file to the scope of a request without a panic: what passes the checks of the unmarshaller is still
valid when `LoadFile` has set its defaults, `applyConfig` does not panic on it unless go-redis does, and up to the
scope that `getScope` returns no request makes `serveHTTP` panic, except one whose connection has an address that
is none.
-/
import Chproxy.Gate
import Chproxy.Routing.Balance

namespace Chproxy.Config

open Fallible (bind_ok mapAccumM_mem mapAccumM_length)

/-! ## What is loaded is valid -/

def ClusterSection.unmarshalled (c : ClusterSection) : Cluster :=
  { c.cluster with clusterUsers := c.clusterUsers.map (·.entry) }

/-- The configuration as the validators of the unmarshaller see it, before networks and defaults are set. -/
def File.unmarshalled (file : File) : Config where
  clusters := file.clusters.map ClusterSection.unmarshalled
  users := file.users.map (·.entry)
  logDebug := file.logDebug
  maxErrorReasonSize := file.maxErrorReasonSize
  caches := file.caches
  paramGroups := file.paramGroups
  connectionPool := file.connectionPool
  allowPing := file.allowPing
  httpNetworks := []
  httpsNetworks := []
  metricsNetworks := []
  proxyEnable := file.proxyEnable
  proxyHeader := file.proxyHeader

section Loading

variable {net : NetParsers} {reg : NetworkReg} {t t' : Duration}

/-- Of its users, the checks of a cluster read only whether there are any. -/
theorem Cluster.validate_clusterUsers (c : Cluster) {cus cus' : List ClusterUser} (h : cus.length = cus'.length) :
    { c with clusterUsers := cus }.validate = { c with clusterUsers := cus' }.validate := by
  simp only [validate, validateMinimumRequirements, h]

theorem User.setDefaults_validate (u : User) (nets : Networks) :
    { u.setDefaults with allowedNetworks := nets }.validate = u.validate := by
  unfold setDefaults
  split <;> rfl

theorem Cache.setDefaults_validate (c : Cache) : c.setDefaults.validate = c.validate := by
  unfold setDefaults
  split <;> rfl

/-- A cluster that is loaded: its settings and those of its users are the ones the validators saw. -/
structure ClusterSection.Becomes (c : ClusterSection) (c' : Cluster) : Prop where
  validate : c'.validate = c.unmarshalled.validate
  replicas : c'.replicas = c.unmarshalled.replicas
  hostCounts : c'.hostCounts = c.unmarshalled.hostCounts
  clusterUsers : ∀ cu' ∈ c'.clusterUsers, ∃ cu ∈ c.unmarshalled.clusterUsers, cu'.validate = cu.validate

theorem setCluster_becomes {c : ClusterSection} {c' : Cluster} (h : setCluster net reg t c = .ok (t', c')) :
    c.Becomes c' := by
  obtain ⟨⟨t₁, cus⟩, hcus, h⟩ := bind_ok h
  cases h
  refine ⟨Cluster.validate_clusterUsers c.cluster ?_, rfl, rfl, fun cu' hcu' => ?_⟩
  · rw [mapAccumM_length hcus, List.length_map]
  · obtain ⟨cu, hcu, t₂, t₃, hset⟩ := mapAccumM_mem hcus cu' hcu'
    obtain ⟨nets, _, hset⟩ := bind_ok hset
    cases hset
    exact ⟨cu.entry, List.mem_map_of_mem hcu, rfl⟩

theorem setUser_validate {u : Restricted User} {u' : User} (h : setUser net reg t u = .ok (t', u')) :
    u'.validate = u.entry.validate := by
  obtain ⟨nets, _, h⟩ := bind_ok h
  cases h
  exact u.entry.setDefaults_validate nets

end Loading

/-- The defaults of a cache leave its back end alone. -/
theorem Cache.setDefaults_redis (c : Cache) : c.setDefaults.mode = c.mode ∧ c.setDefaults.redis = c.redis := by
  unfold setDefaults
  split <;> exact ⟨rfl, rfl⟩

/-- The caches are those of the file, with their defaults. -/
theorem loadFile_caches {net : NetParsers} {file : File} {out : Loaded} (h : loadFile net file = .ok out) :
    out.config.caches = file.caches.map Cache.setDefaults := by
  unfold loadFile at h
  obtain ⟨reg, _, h⟩ := bind_ok h
  obtain ⟨httpNetworks, _, h⟩ := bind_ok h
  obtain ⟨httpsNetworks, _, h⟩ := bind_ok h
  obtain ⟨metricsNetworks, _, h⟩ := bind_ok h
  obtain ⟨⟨t₁, clusters⟩, _, h⟩ := bind_ok h
  obtain ⟨⟨t₂, users⟩, _, h⟩ := bind_ok h
  cases h
  rfl

/-- What `LoadFile` returns has passed every validator, as the file has, with the same numbers of hosts. -/
theorem loadFile_valid {net : NetParsers} {file : File} {out : Loaded} (h : loadFile net file = .ok out)
    (hfile : file.unmarshalled.Valid) :
    out.config.Valid ∧
      ∀ c' ∈ out.config.clusters, ∃ c ∈ file.unmarshalled.clusters, c'.hostCounts = c.hostCounts := by
  unfold loadFile at h
  obtain ⟨reg, _, h⟩ := bind_ok h
  obtain ⟨httpNetworks, _, h⟩ := bind_ok h
  obtain ⟨httpsNetworks, _, h⟩ := bind_ok h
  obtain ⟨metricsNetworks, _, h⟩ := bind_ok h
  obtain ⟨⟨t₁, clusters⟩, hclusters, h⟩ := bind_ok h
  obtain ⟨⟨t₂, users⟩, husers, h⟩ := bind_ok h
  cases h
  have hcluster : ∀ c' ∈ clusters, ∃ c ∈ file.clusters, c.Becomes c' := by
    intro c' hc'
    obtain ⟨c, hc, _, _, hset⟩ := mapAccumM_mem hclusters c' hc'
    exact ⟨c, hc, setCluster_becomes hset⟩
  have hmem : ∀ {c : ClusterSection}, c ∈ file.clusters → c.unmarshalled ∈ file.unmarshalled.clusters :=
    fun hc => List.mem_map_of_mem hc
  refine ⟨⟨?_, fun c' hc' => ?_, fun c' hc' r hr => ?_, fun c' hc' cu' hcu' => ?_, fun u' hu' => ?_, fun c' hc' => ?_,
    hfile.paramGroups, hfile.connectionPool⟩, fun c' hc' => ?_⟩
  · -- as many users and clusters as the file has
    have hcounts := hfile.config
    simp only [Config.validate, File.unmarshalled, List.length_map] at hcounts ⊢
    rw [mapAccumM_length husers, mapAccumM_length hclusters]
    exact hcounts
  · obtain ⟨c, hc, hbecomes⟩ := hcluster c' hc'
    rw [hbecomes.validate]
    exact hfile.clusters _ (hmem hc)
  · obtain ⟨c, hc, hbecomes⟩ := hcluster c' hc'
    rw [hbecomes.replicas] at hr
    exact hfile.replicas _ (hmem hc) r hr
  · obtain ⟨c, hc, hbecomes⟩ := hcluster c' hc'
    obtain ⟨cu, hcu, hvalidate⟩ := hbecomes.clusterUsers cu' hcu'
    rw [hvalidate]
    exact hfile.clusterUsers _ (hmem hc) cu hcu
  · obtain ⟨u, hu, _, _, hset⟩ := mapAccumM_mem husers u' hu'
    rw [setUser_validate hset]
    exact hfile.users _ (List.mem_map_of_mem hu)
  · obtain ⟨c, hc, rfl⟩ := List.mem_map.1 hc'
    rw [c.setDefaults_validate]
    exact hfile.caches c hc
  · obtain ⟨c, hc, hbecomes⟩ := hcluster c' hc'
    exact ⟨c.unmarshalled, hmem hc, hbecomes.hostCounts⟩

end Chproxy.Config

namespace Chproxy.Gate

open Config (NetParsers Networks Source Loaded)
open Proxy (Request)
open Routing (ReverseProxy Process World User Lookup CountsFit userValues)
open ProxyHandler (getRemoteAddr addressOf isValidAddr)

/-! ## The tables of the process -/

/-- The file passed the validators, and no number of replicas or of hosts in it is a multiple of `2 ^ 32`. -/
def Fitting (src : Source) : Prop :=
  src.file.unmarshalled.Valid ∧ ∀ c ∈ src.file.unmarshalled.clusters, CountsFit c.hostCounts

/-- Reloads of such files, whether or not they can be loaded and applied. -/
def FittingFile (_ : Served) (call : World × Source) (_ : Served) : Prop := Fitting call.2

/-- What `NewRedisClient` does not panic on in the file, it does not panic on when the file is loaded. -/
theorem dials_load {net : NetParsers} {src : Source} {out : Loaded} {w : World} (h : w.Dials src.file.unmarshalled)
    (hload : src.load net = .ok out) : w.Dials out.config := by
  intro cc hcc hredis
  rw [Config.loadFile_caches (Config.Source.load_ok hload).1] at hcc
  obtain ⟨c, hc, rfl⟩ := List.mem_map.1 hcc
  rw [c.setDefaults_redis.1] at hredis
  rw [c.setDefaults_redis.2]
  exact h c hc hredis

theorem Fitting.load {net : NetParsers} {src : Source} {out : Loaded} (h : Fitting src)
    (hload : src.load net = .ok out) :
    out.config.Valid ∧ ∀ c ∈ out.config.clusters, CountsFit c.hostCounts := by
  obtain ⟨hvalid, hcounts⟩ := Config.loadFile_valid (Config.Source.load_ok hload).1 h.1
  refine ⟨hvalid, fun c' hc' => ?_⟩
  obtain ⟨c, hc, heq⟩ := hcounts c' hc'
  rw [heq]
  exact h.2 c hc

/-- Tables that are closed under reference, with counts that fit. -/
structure Usable (rp : ReverseProxy) : Prop where
  closed : rp.tables.Closed
  fit : ∀ name c, rp.clusters.lookup name = some c → CountsFit c.hostCounts

theorem usable_new (cfgCp : Config.ConnectionPool) : Usable (Routing.newReverseProxy cfgCp) :=
  ⟨Routing.Tables.empty_closed, fun name c hc => by simp [Routing.newReverseProxy] at hc⟩

theorem usable_target {p : Process} (h : ∀ rp, p.proxy = some rp → Usable rp) (cfg : Config) :
    Usable (p.target cfg) := by
  unfold Process.target
  split
  · exact usable_new _
  · rename_i rp hrp
    split
    · exact usable_new _
    · exact h rp hrp

/-- The process after an `applyConfig`, successful or not, has a proxy whose tables are usable. -/
theorem applyConfig_usable (w : World) {p : Process} (h : ∀ rp, p.proxy = some rp → Usable rp) {cfg : Config}
    (hvalid : cfg.Valid) (hcounts : ∀ c ∈ cfg.clusters, CountsFit c.hostCounts) :
    ∃ rp, (Routing.applyConfig w p cfg).1.proxy = some rp ∧ Usable rp := by
  obtain ⟨hclosed, hfit⟩ := usable_target h cfg
  exact ⟨_, Routing.applyConfig_fst_proxy w p cfg, ReverseProxy.applyConfig_closed hclosed hvalid,
    ReverseProxy.applyConfig_hostCounts hvalid hcounts hfit⟩

/-- Every proxy of the process is usable, and there is one once a file is in force. -/
structure Served.Ready (s : Served) : Prop where
  usable : ∀ rp, s.process.proxy = some rp → Usable rp
  proxy : s.inForce ≠ none → s.process.proxy ≠ none

theorem Served.ready_reach {net : NetParsers} {s : Served}
    (h : Steps.ReachWhen (Served.reload net) Served.Initial FittingFile s) : s.Ready := by
  refine h.invariant (P := Served.Ready) (fun s hs => ?_) fun s call s' hs hst hfits => ?_
  · refine ⟨fun rp hrp => ?_, fun hne => absurd hs.2 hne⟩
    rw [hs.1] at hrp
    cases hrp
  · unfold Served.reload at hst
    cases hload : call.2.load net with
    | error e =>
      rw [hload] at hst
      cases hst
      exact hs
    | ok out =>
      rw [hload] at hst
      obtain ⟨hvalid, hcounts⟩ := hfits.load hload
      obtain ⟨rp, hrp, husable⟩ := applyConfig_usable call.1 hs.usable hvalid hcounts
      -- the proxy is in place before it is known whether the configuration can be applied
      have hready : ∀ inForce, Served.Ready ⟨(Routing.applyConfig call.1 s.process out.config).1, inForce⟩ := by
        refine fun inForce => ⟨fun rp' hrp' => ?_, fun _ hnone => ?_⟩
        · cases hrp.symm.trans hrp'
          exact husable
        · cases hrp.symm.trans hnone
      dsimp only at hst
      split at hst
      · cases hst
      all_goals
        rename_i happly
        cases hst
        rw [happly] at hready
        exact hready _

/-! ## No request makes the gate panic -/

section Requests

variable {env : Env} {rp : ReverseProxy} {order : List User}

/-- The address that `GetRemoteAddr` takes is one, if that of the connection is. -/
theorem addressOf_getRemoteAddr {net : NetParsers} {enable : Bool} {header : String} {r : ProxyHandler.Incoming}
    (h : addressOf net (getRemoteAddr net enable header r) = none) : addressOf net r.remoteAddr = none := by
  -- what passes `isValidAddr` has an address
  have hvalid : ∀ addr, isValidAddr net addr = true → addressOf net addr ≠ none := by
    intro addr hvalid hnone
    unfold isValidAddr at hvalid
    unfold addressOf at hnone
    split at hvalid
    · cases hvalid
    · cases hsplit : net.splitHostPort addr with
      | none =>
        rw [hsplit] at hvalid hnone
        change net.parseAddr addr = none at hnone
        simp [hnone] at hvalid
      | some ip =>
        rw [hsplit] at hvalid hnone
        change net.parseAddr ip = none at hnone
        simp [hnone] at hvalid
  unfold getRemoteAddr at h
  dsimp only at h
  by_cases henable : enable = true
  · rw [if_pos henable] at h
    by_cases haddr : isValidAddr net (if header ≠ "" then r.header header else ProxyHandler.parseDefaultProxyHeaders r)
    · rw [if_pos haddr] at h
      exact absurd h (hvalid _ haddr)
    · rwa [if_neg haddr] at h
  · rwa [if_neg henable] at h

theorem within_panics {nets : Networks} {addr : List Char} {e : Refusal} {next : Outcome}
    (h : within env nets addr e next = .panics) : addressOf env.net addr = none ∨ next = .panics := by
  unfold within at h
  split at h
  · rename_i hnone
    by_cases hnets : nets.length = 0
    · rw [Networks.contains, if_pos hnets] at hnone
      cases hnone
    · rw [ProxyHandler.contains_eq_addressOf env.net hnets] at hnone
      exact .inl (Option.map_eq_none_iff.1 hnone)
  · cases h
  · exact .inr h

/-- Who is found comes with a cluster of the tables and a cluster user. -/
def Complete (rp : ReverseProxy) (x : Lookup) : Prop :=
  x.found = true → ∃ u c cu key, x = ⟨true, some u, some c, some cu⟩ ∧ rp.clusters.lookup key = some c

theorem complete_notFound (rp : ReverseProxy) : Complete rp .notFound := by
  intro hfound
  cases hfound

theorem findWildcarded_complete (name password : String) {order : List User}
    (hrouted : ∀ u ∈ order, ∃ key, u.Routed rp.clusters rp.caches key) :
    ∃ x, rp.findWildcardedUserInformation name password order = .ok x ∧ Complete rp x := by
  rcases rp.findWildcardedUserInformation_searched name password order with
    hnobody | ⟨u, hu, hwild, hgen | ⟨hnot, -⟩⟩
  · exact ⟨.notFound, hnobody, complete_notFound rp⟩
  · obtain ⟨key, huser⟩ := hrouted u hu
    obtain ⟨cu, hcu⟩ := Option.isSome_iff_exists.1 huser.target
    obtain ⟨c, hc, hcu⟩ := Option.bind_eq_some_iff.1 hcu
    rw [hgen]
    exact ⟨_, ReverseProxy.generateWildcardedUserInformation_copy hc hcu name password,
      fun _ => ⟨u, c, _, _, rfl, hc⟩⟩
  · obtain ⟨key, huser⟩ := hrouted u hu
    exact absurd (huser.pattern hwild) hnot

theorem getUser_complete (hclosed : rp.tables.Closed) (horder : order.Perm (userValues rp.users))
    (name password : String) : ∃ x, rp.getUser order name password = .ok x ∧ Complete rp x := by
  cases hu : rp.users.lookup name with
  | some u =>
    obtain ⟨cu, hcu⟩ := Option.isSome_iff_exists.1 (hclosed.users name u hu).target
    obtain ⟨c, hc, hcu⟩ := Option.bind_eq_some_iff.1 hcu
    change rp.clusters.lookup u.toCluster = some c at hc
    refine ⟨⟨u.password == password, some u, some c, some cu⟩, ?_, fun hfound => ⟨u, c, cu, _, ?_, hc⟩⟩
    · simp only [ReverseProxy.getUser, hu, hc, hcu]
    · rw [show (u.password == password) = true from hfound]
  | none =>
    simp only [ReverseProxy.getUser, hu]
    split
    · exact ⟨.notFound, rfl, complete_notFound rp⟩
    split
    · refine findWildcarded_complete name password fun u hmem => ?_
      obtain ⟨key, hkey⟩ := Routing.exists_lookup_of_mem_userValues (horder.mem_iff.1 hmem)
      exact ⟨key, hclosed.users key u hkey⟩
    · exact ⟨.notFound, rfl, complete_notFound rp⟩

theorem getScope_panics (hclosed : rp.tables.Closed) (horder : order.Perm (userValues rp.users)) {tls : Bool}
    {remoteAddr : List Char} {req : Request} (h : getScope env rp order tls remoteAddr req = .panics) :
    addressOf env.net remoteAddr = none := by
  obtain ⟨x, hx, hcomplete⟩ := getUser_complete hclosed horder (getAuth req).1 (getAuth req).2
  unfold getScope at h
  dsimp only at h
  rw [hx] at h
  dsimp only at h
  by_cases hfound : x.found = true
  · obtain ⟨u, c, cu, key, rfl, -⟩ := hcomplete hfound
    dsimp only at h
    split at h
    · cases h
    split at h
    · cases h
    split at h
    · cases h
    -- only a check of networks can panic, and only on an address that does not parse
    rcases within_panics h with hnone | h
    · exact hnone
    rcases within_panics h with hnone | h
    · exact hnone
    split at h
    · cases h
    · cases h
  · rw [if_pos (by simpa using hfound)] at h
    cases h

theorem serveHTTP_panics {p : Process} {r : Arrival} (hrp : p.proxy = some rp) (hclosed : rp.tables.Closed)
    (horder : order.Perm (userValues rp.users)) (h : serveHTTP env p order r = .panics) :
    addressOf env.net r.remoteAddr = none := by
  unfold serveHTTP at h
  split at h
  · cases h
  split at h
  · cases h
  split at h
  · cases h
  split at h
  · -- the metrics are limited by the address of the connection itself
    rcases within_panics h with hnone | h
    · exact hnone
    · cases h
  split at h
  · split at h
    · cases h
    · rcases within_panics h with hnone | h
      · exact addressOf_getRemoteAddr hnone
      · rw [hrp] at h
        exact addressOf_getRemoteAddr (getScope_panics hclosed horder h)
  · cases h

end Requests

/-- After any sequence of reloads of files that passed the validators, with numbers of replicas and hosts
that fit, whether or not each could be loaded and applied: no further such file makes `applyConfig` panic, unless
`NewRedisClient` does on a Redis cache of it. Once a file is in force, up to the scope that `getScope` returns a
request makes `serveHTTP` panic only if the address of its connection is none, whatever its headers are; and in
the cluster of that scope a host can be chosen. -/
theorem serving_never_panics {env : Env} {s : Served}
    (h : Steps.ReachWhen (Served.reload env.net) Served.Initial FittingFile s) :
    (∀ (src : Source) (out : Loaded) (w : World), src.file.unmarshalled.Valid → w.Dials src.file.unmarshalled →
      src.load env.net = .ok out → (Routing.applyConfig w s.process out.config).2 ≠ some .panic) ∧
    (s.inForce ≠ none → ∀ order, order.Perm (userValues s.process.tables.users) → ∀ r,
      (serveHTTP env s.process order r = .panics → addressOf env.net r.remoteAddr = none) ∧
      ∀ a, serveHTTP env s.process order r = .admitted a → a.cluster.Selectable) := by
  have hready := Served.ready_reach h
  refine ⟨fun src out w hvalid hdials hload => ?_, fun hforce order horder r => ?_⟩
  · rw [Routing.applyConfig_snd]
    have hvalid' := (Config.loadFile_valid (Config.Source.load_ok hload).1 hvalid).1
    exact mt (ReverseProxy.applyConfig_panic_iff w _ _ hvalid').1 (dials_load hdials hload).not_redisPanics
  · obtain ⟨rp, hrp⟩ := Option.ne_none_iff_exists'.1 (hready.proxy hforce)
    obtain ⟨hclosed, hfit⟩ := hready.usable rp hrp
    -- the tables of the process are those of its proxy
    have horder' : order.Perm (userValues rp.users) := by
      rwa [Process.tables, hrp] at horder
    refine ⟨serveHTTP_panics hrp hclosed horder', fun a hadmitted => ?_⟩
    obtain ⟨rp', hrp', hpassed, -⟩ := serveHTTP_admitted hadmitted
    cases hrp.symm.trans hrp'
    obtain ⟨x, hx, hfound, -, hxc, -⟩ := hpassed.found
    obtain ⟨x', hx', hcomplete⟩ := getUser_complete hclosed horder' (getAuth r.request).1 (getAuth r.request).2
    cases hx.symm.trans hx'
    obtain ⟨u, c, cu, key, rfl, hkey⟩ := hcomplete hfound
    cases hxc
    exact a.cluster.selectable_iff.2 (hfit key _ hkey)

theorem httpsSource_fitting : Fitting httpsSource := by
  refine ⟨⟨rfl, by decide, by decide, by decide, by decide, by decide, by decide, rfl⟩, List.forall_mem_singleton.2 ?_⟩
  exact ⟨by decide, List.forall_mem_singleton.2 (by decide)⟩

theorem serving_never_panics_https :
    ∃ s, Steps.ReachWhen (Served.reload plainEnv.net) Served.Initial FittingFile s ∧ s.inForce = some httpsSource ∧
      addressOf plainEnv.net httpsArrival.remoteAddr ≠ none ∧
      serveHTTP plainEnv s.process (userValues s.process.tables.users) httpsArrival ≠ .panics := by
  obtain ⟨s, hs, hsrc⟩ : ∃ s,
      Served.reload plainEnv.net ⟨Routing.started, none⟩ (Routing.calmWorld, httpsSource) = some s ∧
      s.inForce = some httpsSource := ⟨_, rfl, rfl⟩
  have hreach : Steps.ReachWhen (Served.reload plainEnv.net) Served.Initial FittingFile s :=
    .step (.init ⟨rfl, rfl⟩) hs httpsSource_fitting
  have haddr : addressOf plainEnv.net httpsArrival.remoteAddr ≠ none := by decide
  refine ⟨s, hreach, hsrc, haddr, fun hpanics => haddr ?_⟩
  exact (((serving_never_panics hreach).2 (by rw [hsrc]; nofun) _ (.refl _) httpsArrival).1 hpanics)

end Chproxy.Gate
