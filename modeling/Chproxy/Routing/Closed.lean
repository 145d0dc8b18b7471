/-
The routing tables are closed under reference. What the constructors of clusters and users leave,
for configurations that passed the validators: every user names an existing cluster and a user of it,
every cluster has replicas and every replica hosts. Loading such a configuration panics only where go-redis
does, on a cache that the validators have let through.
-/
import Chproxy.Config.Validate
import Chproxy.Lib.Tables
import Chproxy.Routing.Ownership

namespace Chproxy.Routing

open Fallible

/-! ## Definitions -/

/-- `clusters[toCluster].users[toUser]`. -/
def configured (clusters : Map Cluster) (toCluster toUser : String) : Option ClusterUser :=
  (clusters.lookup toCluster).bind (·.users.lookup toUser)

/-- The number of hosts of each replica. -/
def Cluster.hostCounts (c : Cluster) : List Nat := c.replicas.map (·.hosts.length)

/-- At least one replica, and at least one host in each. -/
def Cluster.Populated (c : Cluster) : Prop := c.hostCounts ≠ [] ∧ 0 ∉ c.hostCounts

/-- A user under its own name, whose cluster, cluster user and cache exist and whose name, if it is
wildcarded, is a pattern. -/
structure User.Routed (clusters : Map Cluster) (caches : Map AsyncCache) (name : String) (u : User) : Prop where
  name_eq : u.name = name
  target : (configured clusters u.toCluster u.toUser).isSome
  pattern : u.isWildcarded = true → Config.IsPattern u.name
  cache : ∀ c, u.cache = some c → ∃ key, caches.lookup key = some c

structure Tables.Closed (t : Tables) : Prop where
  users : ∀ name u, t.users.lookup name = some u → u.Routed t.clusters t.caches name
  clusters : ∀ name c, t.clusters.lookup name = some c → c.Populated

theorem Tables.empty_closed : Tables.empty.Closed :=
  ⟨fun _ _ h => by simp [Tables.empty] at h, fun _ _ h => by simp [Tables.empty] at h⟩

theorem wrap_ok {α : Type} {f : BuildError → BuildError} {x : Except Failure α} {a : α} (h : wrap f x = .ok a) :
    x = .ok a := by
  rcases x with (e | _) | b
  · cases h
  · cases h
  · exact h

theorem avoids_wrap {α : Type} {f : BuildError → BuildError} {x : Except Failure α} (h : Avoids .panic x) :
    Avoids .panic (wrap f x) := by
  rcases x with (e | _) | b
  · exact nofun
  · exact absurd rfl h
  · exact nofun

/-! ## Clusters -/

theorem newNodes_length {w : World} {nodes : List String} {scheme clusterName replicaName : String} {hb : HeartBeat}
    {hosts : List Node} (h : newNodes w nodes scheme hb clusterName replicaName = .ok hosts) :
    hosts.length = nodes.length :=
  (mapM_ok h).length_eq.symm

theorem newReplicas_hostCounts {w : World} {replicas : List Config.Replica} {nodes : List String}
    {scheme clusterName : String} {hb : HeartBeat} {rs : List Replica}
    (h : newReplicas w replicas nodes scheme hb clusterName = .ok rs) :
    rs.map (·.hosts.length) = if 0 < nodes.length then [nodes.length] else replicas.map (·.nodes.length) := by
  unfold newReplicas at h
  split at h
  · rename_i hnodes
    obtain ⟨hosts, hhosts, h⟩ := bind_ok h
    cases h
    simp [newNodes_length hhosts, hnodes]
  · rename_i hnodes
    rw [if_neg hnodes]
    refine List.forall₂_eq_eq_eq ▸ ?_
    rw [List.forall₂_map_left_iff, List.forall₂_map_right_iff]
    refine ((mapM_ok h).imp fun rCfg r hr => ?_).flip
    obtain ⟨hosts, hhosts, hr⟩ := bind_ok hr
    cases hr
    exact newNodes_length (wrap_ok hhosts)

/-- The users of a cluster after the loop: those that were there, and all those of the list. -/
theorem newClusterUsers_lookup : ∀ {cus : List Config.ClusterUser} {m m' : Map ClusterUser},
    newClusterUsers m cus = .ok m' →
      (∀ name, (m.lookup name).isSome → (m'.lookup name).isSome) ∧ ∀ cu ∈ cus, (m'.lookup cu.name).isSome
  | [], m, m', h => by
    cases h
    exact ⟨fun _ h => h, nofun⟩
  | cu :: cus, m, m', h => by
    unfold newClusterUsers at h
    split at h
    · cases h
    obtain ⟨hkeep, hall⟩ := newClusterUsers_lookup h
    have hcu : (m'.lookup cu.name).isSome := hkeep _ (by simp)
    refine ⟨fun name hname => ?_, fun x hx => ?_⟩
    · by_cases heq : name = cu.name
      · rwa [heq]
      · exact hkeep name (by rwa [AList.lookup_insert_ne heq])
    · rcases List.mem_cons.1 hx with rfl | hx
      · exact hcu
      · exact hall x hx

theorem newCluster_ok {w : World} {cfg : Config.Cluster} {c : Cluster} (h : newCluster w cfg = .ok c) :
    c.hostCounts = cfg.hostCounts ∧ ∀ cu ∈ cfg.clusterUsers, (c.users.lookup cu.name).isSome := by
  unfold newCluster at h
  obtain ⟨users, husers, h⟩ := bind_ok h
  split at h
  · cases h
  obtain ⟨hb, _, h⟩ := bind_ok h
  obtain ⟨replicas, hreplicas, h⟩ := bind_ok h
  cases h
  exact ⟨newReplicas_hostCounts (wrap_ok hreplicas), (newClusterUsers_lookup husers).2⟩

/-- The clusters after the loop: those that were there, and one for each of the list. -/
theorem newClusters_lookup {w : World} : ∀ {cs : List Config.Cluster} {m m' : Map Cluster},
    newClusters w m cs = .ok m' →
      (∀ name c, m.lookup name = some c → m'.lookup name = some c) ∧
      (∀ cfg ∈ cs, ∃ c, newCluster w cfg = .ok c ∧ m'.lookup cfg.name = some c) ∧
      ∀ name c, m'.lookup name = some c → m.lookup name = some c ∨ ∃ cfg ∈ cs, newCluster w cfg = .ok c
  | [], m, m', h => by
    cases h
    exact ⟨fun _ _ h => h, nofun, fun _ _ h => .inl h⟩
  | cfg :: cs, m, m', h => by
    unfold newClusters at h
    split at h
    · cases h
    rename_i habsent
    have hnone : m.lookup cfg.name = none := by simpa using habsent
    obtain ⟨c, hc, h⟩ := bind_ok h
    replace hc := wrap_ok hc
    obtain ⟨hkeep, hall, honly⟩ := newClusters_lookup h
    refine ⟨fun name x hx => hkeep name x ?_, fun x hx => ?_, fun name x hx => ?_⟩
    · -- the name is new, so that what was in the table is kept
      rwa [AList.lookup_insert_ne (by rintro rfl; simp [hnone] at hx)]
    · rcases List.mem_cons.1 hx with rfl | hx
      · exact ⟨c, hc, hkeep _ _ (AList.lookup_insert _)⟩
      · exact hall x hx
    · rcases honly name x hx with hold | ⟨y, hy, hnew⟩
      · rcases Tables.lookup_insert_cases hold with ⟨-, rfl⟩ | hold
        · exact .inr ⟨cfg, List.mem_cons_self, hc⟩
        · exact .inl hold
      · exact .inr ⟨y, List.mem_cons_of_mem _ hy, hnew⟩

/-- The host counts of the clusters built are those of the configuration. -/
theorem newClusters_hostCounts {w : World} {cs : List Config.Cluster} {m : Map Cluster} {P : List Nat → Prop}
    (h : newClusters w ∅ cs = .ok m) (hP : ∀ cfg ∈ cs, P cfg.hostCounts) {name : String} {c : Cluster}
    (hc : m.lookup name = some c) : P c.hostCounts := by
  rcases (newClusters_lookup h).2.2 name c hc with hold | ⟨cfg, hcfg, hnew⟩
  · simp at hold
  · rw [(newCluster_ok hnew).1]
    exact hP cfg hcfg

theorem newClusters_configured {w : World} {cs : List Config.Cluster} {m : Map Cluster}
    (h : newClusters w ∅ cs = .ok m) {cfg : Config.Cluster} (hcfg : cfg ∈ cs) {cu : Config.ClusterUser}
    (hcu : cu ∈ cfg.clusterUsers) : (configured m cfg.name cu.name).isSome := by
  obtain ⟨c, hnew, hlookup⟩ := (newClusters_lookup h).2.1 cfg hcfg
  unfold configured
  rw [hlookup]
  exact (newCluster_ok hnew).2 cu hcu

/-! ## Users -/

/-- What `newUser` may do to the clusters: mark users of theirs. -/
structure Marked (m m' : Map Cluster) : Prop where
  users : ∀ toCluster toUser, (configured m toCluster toUser).isSome → (configured m' toCluster toUser).isSome
  replicas : ∀ name c', m'.lookup name = some c' → ∃ c, m.lookup name = some c ∧ c'.replicas = c.replicas

theorem Marked.refl (m : Map Cluster) : Marked m m := ⟨fun _ _ h => h, fun _ c h => ⟨c, h, rfl⟩⟩

theorem Marked.trans {m m' m'' : Map Cluster} (h : Marked m m') (h' : Marked m' m'') : Marked m m'' := by
  refine ⟨fun c u hcu => h'.users c u (h.users c u hcu), fun name c'' hc'' => ?_⟩
  obtain ⟨c', hc', heq'⟩ := h'.replicas name c'' hc''
  obtain ⟨c, hc, heq⟩ := h.replicas name c' hc'
  exact ⟨c, hc, heq'.trans heq⟩

theorem UsersProfile.marked_markWildcarded (up : UsersProfile) {c : Cluster} {toCluster toUser : String}
    {cu : ClusterUser} (hc : up.clusters.lookup toCluster = some c) :
    Marked up.clusters (up.markWildcarded c toCluster toUser cu).clusters := by
  refine ⟨fun cluster user h => ?_, fun name c' h => ?_⟩
  · unfold configured markWildcarded at *
    by_cases heq : cluster = toCluster
    · subst heq
      rw [hc] at h
      rw [AList.lookup_insert]
      by_cases hu : user = toUser
      · subst hu; simp
      · simpa [AList.lookup_insert_ne hu] using h
    · rwa [AList.lookup_insert_ne heq]
  · unfold markWildcarded at h
    rcases Tables.lookup_insert_cases h with ⟨rfl, rfl⟩ | hold
    · exact ⟨c, hc, rfl⟩
    · exact ⟨c', hold, rfl⟩

theorem User.Routed.mono {m m' : Map Cluster} {caches : Map AsyncCache} {name : String} {u : User}
    (h : u.Routed m caches name) (hm : Marked m m') : u.Routed m' caches name :=
  ⟨h.name_eq, hm.users _ _ h.target, h.pattern, h.cache⟩

theorem UsersProfile.cacheOf_ok {up : UsersProfile} {u : Config.User} {cc : Option AsyncCache}
    (h : up.cacheOf u = .ok cc) : ∀ c, cc = some c → ∃ key, up.caches.lookup key = some c := by
  rintro c rfl
  unfold cacheOf at h
  split at h
  · split at h
    · cases h
    · rename_i c' hc
      cases h
      exact ⟨u.cache, hc⟩
  · cases h

/-- What a successful `newUser` did, as far as it is used below. -/
structure UsersProfile.Makes (up up' : UsersProfile) (cfg : Config.User) (u : User) : Prop where
  clusters : ∃ c cu, up.clusters.lookup cfg.toCluster = some c ∧ c.users.lookup cfg.toUser = some cu ∧
    up' = if cfg.isWildcarded then up.markWildcarded c cfg.toCluster cfg.toUser cu else up
  name : u.name = cfg.name
  toCluster : u.toCluster = cfg.toCluster
  toUser : u.toUser = cfg.toUser
  isWildcarded : u.isWildcarded = cfg.isWildcarded
  maxExecutionTime : u.maxExecutionTime = cfg.maxExecutionTime
  maxQueueTime : u.maxQueueTime = cfg.maxQueueTime
  cache : up.cacheOf cfg = .ok u.cache

theorem UsersProfile.newUser_makes {up up' : UsersProfile} {cfg : Config.User} {u : User}
    (h : up.newUser cfg = .ok (up', u)) : up.Makes up' cfg u := by
  unfold newUser at h
  split at h
  · cases h
  rename_i c hc
  split at h
  · cases h
  rename_i cu hcu
  obtain ⟨cc, hcc, h⟩ := bind_ok h
  obtain ⟨params, _, h⟩ := bind_ok h
  cases h
  exact ⟨⟨c, cu, hc, hcu, rfl⟩, rfl, rfl, rfl, rfl, rfl, rfl, hcc⟩

theorem UsersProfile.newUser_ok {up up' : UsersProfile} {cfg : Config.User} {u : User}
    (h : up.newUser cfg = .ok (up', u)) (hvalid : cfg.validate = .ok ()) :
    Marked up.clusters up'.clusters ∧ up'.caches = up.caches ∧ u.Routed up'.clusters up.caches cfg.name := by
  have hmakes := newUser_makes h
  obtain ⟨c, cu, hc, hcu, rfl⟩ := hmakes.clusters
  have htarget : (configured up.clusters u.toCluster u.toUser).isSome := by
    rw [hmakes.toCluster, hmakes.toUser]
    simp [configured, hc, hcu]
  have hmarked : Marked up.clusters
      (if cfg.isWildcarded then up.markWildcarded c cfg.toCluster cfg.toUser cu else up).clusters := by
    split
    · exact up.marked_markWildcarded hc
    · exact .refl _
  refine ⟨hmarked, by split <;> rfl, hmakes.name, hmarked.users _ _ htarget, ?_, cacheOf_ok hmakes.cache⟩
  rw [hmakes.isWildcarded, hmakes.name]
  exact Config.User.validate_ok hvalid

/-- The loop over the users keeps what every user that it makes keeps. -/
theorem UsersProfile.newUsers_invariant {P : UsersProfile → Map User → Prop} : ∀ {cfg : List Config.User}
    {up up' : UsersProfile} {users users' : Map User}, newUsers up users cfg = .ok (up', users') →
    (∀ x ∈ cfg, ∀ {up up' users u}, P up users → up.newUser x = .ok (up', u) → P up' (users.insert x.name u)) →
      P up users → P up' users'
  | [], up, up', users, users', h, _, hp => by
    cases h
    exact hp
  | x :: cfg, up, up', users, users', h, hkeeps, hp => by
    unfold newUsers at h
    split at h
    · cases h
    obtain ⟨⟨up₁, u⟩, hnew, h⟩ := bind_ok h
    exact newUsers_invariant h (fun y hy => hkeeps y (List.mem_cons_of_mem _ hy))
      (hkeeps x List.mem_cons_self hp (wrap_ok hnew))

/-- Every user of the table was made of one of the list. -/
theorem UsersProfile.newUsers_made {cfg : List Config.User} {up up' : UsersProfile} {users : Map User}
    (h : newUsers up ∅ cfg = .ok (up', users)) {name : String} {u : User} (hu : users.lookup name = some u) :
    ∃ x ∈ cfg, ∃ up₁ up₂, newUser up₁ x = .ok (up₂, u) := by
  refine newUsers_invariant (P := fun _ users => ∀ name u, users.lookup name = some u →
    ∃ x ∈ cfg, ∃ up₁ up₂, newUser up₁ x = .ok (up₂, u)) h (fun x hx up up' users u hp hnew name v hv => ?_)
    (fun _ _ hnone => by simp at hnone) name u hu
  rcases Tables.lookup_insert_cases hv with ⟨-, rfl⟩ | hv
  · exact ⟨x, hx, up, up', hnew⟩
  · exact hp name v hv

theorem UsersProfile.newUsers_ok {cfg : List Config.User} {up up' : UsersProfile} {users : Map User}
    (h : newUsers up ∅ cfg = .ok (up', users)) (hvalid : ∀ u ∈ cfg, u.validate = .ok ()) :
    Marked up.clusters up'.clusters ∧
    ∀ name u, users.lookup name = some u → u.Routed up'.clusters up.caches name := by
  have hend := newUsers_invariant (P := fun up₁ users => (Marked up.clusters up₁.clusters ∧ up₁.caches = up.caches) ∧
    ∀ name u, users.lookup name = some u → u.Routed up₁.clusters up.caches name) h
    (fun x hx up₁ up₂ users u hp hnew => ?_) ⟨⟨.refl _, rfl⟩, fun _ _ hnone => by simp at hnone⟩
  · exact ⟨hend.1.1, hend.2⟩
  · obtain ⟨⟨hbefore, hsame⟩, hold⟩ := hp
    obtain ⟨hmarked, hcaches, hrouted⟩ := newUser_ok hnew (hvalid x hx)
    rw [hsame] at hcaches hrouted
    refine ⟨⟨hbefore.trans hmarked, hcaches⟩, fun name v hv => ?_⟩
    rcases Tables.lookup_insert_cases hv with ⟨rfl, rfl⟩ | hv
    · exact hrouted
    · exact (hold name v hv).mono hmarked

/-! ## No panic -/

theorem avoids_newHeartbeat (c : Config.HeartBeat) {defaultUser : String} (password : String)
    (hdefault : defaultUser ≠ "") : Avoids .panic (newHeartbeat c defaultUser password) := by
  unfold newHeartbeat
  by_cases hrequest : c.request = defaultEndpoint
  · simp only [hrequest, ne_eq, not_true_eq_false, if_false, false_and]
    exact avoids_ok _
  · -- the user sent is that of the heartbeat, or the default one when that is empty
    by_cases huser : c.user = ""
    · simp only [hrequest, huser, hdefault, ne_eq, not_false_eq_true, not_true_eq_false, if_true, if_false, and_false]
      exact avoids_ok _
    · simp only [hrequest, huser, ne_eq, not_false_eq_true, if_true, and_false, if_false]
      exact avoids_ok _

theorem avoids_newNodes (w : World) (nodes : List String) (scheme : String) (hb : HeartBeat)
    (clusterName replicaName : String) : Avoids .panic (newNodes w nodes scheme hb clusterName replicaName) := by
  refine Avoids.mapM fun node _ => ?_
  split <;> exact nofun

theorem avoids_newReplicas (w : World) (replicas : List Config.Replica) (nodes : List String) (scheme : String)
    (hb : HeartBeat) (clusterName : String) :
    Avoids .panic (newReplicas w replicas nodes scheme hb clusterName) := by
  unfold newReplicas
  split
  · exact (avoids_newNodes _ _ _ _ _ _).bind fun _ _ => avoids_ok _
  · exact Avoids.mapM fun r _ => (avoids_wrap (avoids_newNodes _ _ _ _ _ _)).bind fun _ _ => avoids_ok _

theorem avoids_newClusterUsers : ∀ (m : Map ClusterUser) (cus : List Config.ClusterUser),
    Avoids .panic (newClusterUsers m cus)
  | m, [] => avoids_ok _
  | m, cu :: cus => by
    unfold newClusterUsers
    split
    · exact nofun
    · exact avoids_newClusterUsers _ cus

theorem avoids_newCluster (w : World) {c : Config.Cluster} (hc : c.validate = .ok ())
    (hcus : ∀ cu ∈ c.clusterUsers, cu.validate = .ok ()) : Avoids .panic (newCluster w c) := by
  unfold newCluster
  refine (avoids_newClusterUsers _ _).bind fun users _ => ?_
  split
  · rename_i hnil
    exact absurd hnil (Config.Cluster.validate_ok hc).1
  · rename_i first rest hcons
    have hfirst : first.name ≠ "" := Config.ClusterUser.validate_ok (hcus first (hcons ▸ List.mem_cons_self))
    refine (avoids_newHeartbeat _ _ hfirst).bind fun hb _ => ?_
    exact (avoids_wrap (avoids_newReplicas _ _ _ _ _ _)).bind fun _ _ => avoids_ok _

theorem avoids_newClusters (w : World) : ∀ (m : Map Cluster) (cs : List Config.Cluster),
    (∀ c ∈ cs, c.validate = .ok ()) → (∀ c ∈ cs, ∀ cu ∈ c.clusterUsers, cu.validate = .ok ()) →
    Avoids .panic (newClusters w m cs)
  | m, [], _, _ => avoids_ok _
  | m, c :: cs, hcs, hcus => by
    unfold newClusters
    split
    · exact nofun
    · refine (avoids_wrap (avoids_newCluster w (hcs c List.mem_cons_self) (hcus c List.mem_cons_self))).bind
        fun tmpC _ => ?_
      exact avoids_newClusters w _ cs (fun x hx => hcs x (List.mem_cons_of_mem _ hx))
        fun x hx => hcus x (List.mem_cons_of_mem _ hx)

/-- Of the constructors of caches only the Redis client panics. -/
theorem newAsyncCache_panic_iff {w : World} {id : Nat} {cfg : Config.Cache} {t : Config.Duration} :
    newAsyncCache w id cfg t = .error .panic ↔ cfg.mode = "redis" ∧ w.newRedisClient cfg.redis = .panics := by
  unfold newAsyncCache newFilesSystemCache
  dsimp only
  constructor
  · intro h
    repeat' split at h
    all_goals first | exact ⟨‹_›, ‹_›⟩ | cases h
  · rintro ⟨hmode, hpanics⟩
    simp only [hmode, hpanics]
    rfl

/-- The address of a cache has no part in its creation. -/
theorem newAsyncCache_at (w : World) (id id' : Nat) (cfg : Config.Cache) (t : Config.Duration) :
    newAsyncCache w id' cfg t = (newAsyncCache w id cfg t).map fun c => { c with id := id' } := by
  unfold newAsyncCache
  dsimp only
  split
  · cases newFilesSystemCache w cfg _ <;> rfl
  split
  · cases w.newRedisClient cfg.redis <;> rfl
  · rfl

/-- The caches before `cc` are created, under names of their own, and on `cc` `NewRedisClient` panics. -/
structure World.PanicsAt (w : World) (t : Config.Duration) (made : List Config.Cache) (cc : Config.Cache) : Prop where
  created : ∀ c ∈ made, ∃ x, newAsyncCache w 0 c t = .ok x
  names : ((made ++ [cc]).map Config.Cache.name).Nodup
  redis : cc.mode = "redis"
  panics : w.newRedisClient cc.redis = .panics

/-- The loop over the caches panics exactly when it comes to one on which `NewRedisClient` does. -/
theorem initTempCaches_panic_iff {w : World} {t : Config.Duration} : ∀ {ccs : List Config.Cache}
    {caches : Map AsyncCache} {next : Nat}, (initTempCaches w t caches next ccs).2 = some .panic ↔
      ∃ made cc rest, ccs = made ++ cc :: rest ∧ w.PanicsAt t made cc ∧
        ∀ c ∈ made ++ [cc], caches.lookup c.name = none
  | [], caches, next => by simp [initTempCaches]
  | cc :: ccs, caches, next => by
    unfold initTempCaches
    by_cases hdup : (caches.lookup cc.name).isSome
    · -- a duplicate is an error, and no cache that is reached has a name that is taken
      refine iff_of_false (by simp [hdup]) ?_
      rintro ⟨made, cc', rest, heq, -, hfree⟩
      have hfirst : cc ∈ made ++ [cc'] := by
        rcases List.cons_eq_append_iff.1 heq with ⟨rfl, hcons⟩ | ⟨made', rfl, -⟩
        · cases hcons
          exact List.mem_singleton_self cc
        · exact List.mem_append_left _ List.mem_cons_self
      simp [hfree cc hfirst] at hdup
    rw [if_neg hdup]
    have hfree : caches.lookup cc.name = none := by simpa using hdup
    cases hnew : newAsyncCache w next cc t with
    | error e =>
      constructor
      · rintro ⟨⟩
        obtain ⟨hredis, hpanics⟩ := newAsyncCache_panic_iff.1 hnew
        exact ⟨[], cc, ccs, rfl, ⟨by simp, by simp, hredis, hpanics⟩, by simpa using hfree⟩
      · rintro ⟨made, cc', rest, heq, hat, -⟩
        rcases List.cons_eq_append_iff.1 heq with ⟨rfl, hcons⟩ | ⟨made', rfl, -⟩
        · cases hcons
          rw [newAsyncCache_panic_iff.2 ⟨hat.redis, hat.panics⟩] at hnew
          cases hnew
          rfl
        · obtain ⟨x, hx⟩ := hat.created cc List.mem_cons_self
          rw [newAsyncCache_at w 0, hx] at hnew
          cases hnew
    | ok c =>
      -- the rest of the loop finds the name of this cache taken as well
      have hlookup : ∀ name, (caches.insert cc.name c).lookup name = none ↔
          cc.name ≠ name ∧ caches.lookup name = none := by
        intro name
        by_cases hname : name = cc.name
        · simp [hname]
        · simp [AList.lookup_insert_ne hname, Ne.symm hname]
      have hmade : ∃ x, newAsyncCache w 0 cc t = .ok x := ⟨_, by rw [newAsyncCache_at w next, hnew]; rfl⟩
      refine initTempCaches_panic_iff.trans ⟨?_, ?_⟩
      · rintro ⟨made, cc', rest, rfl, hat, hfrees⟩
        have hfrees : ∀ x ∈ made ++ [cc'], cc.name ≠ x.name ∧ caches.lookup x.name = none :=
          fun x hx => (hlookup x.name).1 (hfrees x hx)
        refine ⟨cc :: made, cc', rest, rfl, ⟨List.forall_mem_cons.2 ⟨hmade, hat.created⟩, ?_, hat.redis, hat.panics⟩,
          List.forall_mem_cons.2 ⟨hfree, fun x hx => (hfrees x hx).2⟩⟩
        refine List.nodup_cons.2 ⟨fun hmem => ?_, hat.names⟩
        obtain ⟨x, hx, hname⟩ := List.mem_map.1 hmem
        exact (hfrees x hx).1 hname.symm
      · rintro ⟨made, cc', rest, heq, hat, hfrees⟩
        rcases List.cons_eq_append_iff.1 heq with ⟨rfl, hcons⟩ | ⟨made, rfl, rfl⟩
        · cases hcons
          rw [newAsyncCache_panic_iff.2 ⟨hat.redis, hat.panics⟩] at hnew
          cases hnew
        have hnames := List.nodup_cons.1 hat.names
        refine ⟨made, cc', rest, rfl, ⟨(List.forall_mem_cons.1 hat.created).2, hnames.2, hat.redis, hat.panics⟩,
          fun x hx => (hlookup x.name).2 ⟨fun hname => hnames.1 (hname ▸ List.mem_map_of_mem hx), ?_⟩⟩
        exact hfrees x (List.mem_cons_of_mem _ hx)

theorem avoids_paramsFromConfig : ∀ (m : Map ParamsRegistry) (ps : List Config.ParamGroup),
    Avoids .panic (paramsFromConfig m ps)
  | m, [] => avoids_ok _
  | m, p :: ps => by
    unfold paramsFromConfig
    split
    · exact nofun
    · refine (avoids_wrap ?_).bind fun _ _ => avoids_paramsFromConfig _ ps
      unfold newParamsRegistry
      split <;> exact nofun

theorem UsersProfile.avoids_newUser (up : UsersProfile) (u : Config.User) : Avoids .panic (up.newUser u) := by
  unfold newUser
  split
  · exact nofun
  split
  · exact nofun
  refine Avoids.bind ?_ fun cc _ => Avoids.bind ?_ fun params _ => avoids_ok _
  · unfold cacheOf
    repeat' split
    all_goals exact nofun
  · unfold paramsOf
    repeat' split
    all_goals exact nofun

theorem UsersProfile.avoids_newUsers : ∀ (up : UsersProfile) (users : Map User) (us : List Config.User),
    Avoids .panic (newUsers up users us)
  | up, users, [] => avoids_ok _
  | up, users, u :: us => by
    unfold newUsers
    split
    · exact nofun
    · exact (avoids_wrap (up.avoids_newUser u)).bind fun (up', tmpU) _ => avoids_newUsers up' _ us

theorem avoids_validateNoWildcardedUserForHeartbeat {clusters : Map Cluster} : ∀ {cfg : List Config.Cluster},
    (∀ c ∈ cfg, c.clusterUsers ≠ []) →
    (∀ c ∈ cfg, ∀ cu ∈ c.clusterUsers, (configured clusters c.name cu.name).isSome) →
    Avoids .panic (validateNoWildcardedUserForHeartbeat clusters cfg)
  | [], _, _ => avoids_ok _
  | cfgcl :: cfg, hne, hcus => by
    obtain ⟨first, rest, hfirst⟩ := List.exists_cons_of_ne_nil (hne cfgcl List.mem_cons_self)
    have hcu := hcus cfgcl List.mem_cons_self first (hfirst ▸ List.mem_cons_self)
    have ih := avoids_validateNoWildcardedUserForHeartbeat (fun c hc => hne c (List.mem_cons_of_mem _ hc))
      fun c hc => hcus c (List.mem_cons_of_mem _ hc)
    unfold configured at hcu
    obtain ⟨cu, hcu⟩ := Option.isSome_iff_exists.1 hcu
    obtain ⟨cl, hcl, hcu⟩ := Option.bind_eq_some_iff.1 hcu
    unfold validateNoWildcardedUserForHeartbeat
    simp only [hfirst, List.head?_cons, hcl, hcu]
    split
    · exact nofun
    · exact ih

/-! ## Loading -/

/-- Where the tables come from when a configuration was loaded. -/
theorem ReverseProxy.applyConfig_loaded {w : World} {rp : ReverseProxy} {next : Nat} {cfg : Config}
    (h : (rp.applyConfig w next cfg).err = none) :
    ∃ clusters, newClusters w ∅ cfg.clusters = .ok clusters ∧
      buildUsers cfg clusters (rp.applyConfig w next cfg).rp.caches =
        .ok ((rp.applyConfig w next cfg).rp.clusters, (rp.applyConfig w next cfg).rp.users) := by
  unfold applyConfig at h ⊢
  cases hclusters : newClusters w ∅ cfg.clusters with
  | error e => simp [hclusters] at h
  | ok clusters =>
    refine ⟨clusters, rfl, ?_⟩
    rcases htmp : initTempCaches w (transactionsTimeout cfg.users) ∅ next cfg.caches with ⟨⟨caches, next'⟩, _ | e⟩
    · cases hbuild : buildUsers cfg clusters caches with
      | error e => simp [hclusters, htmp, hbuild] at h
      | ok tables => simp [hbuild]
    · simp [hclusters, htmp] at h

theorem buildUsers_ok {cfg : Config} {clusters clusters' : Map Cluster} {caches : Map AsyncCache} {users : Map User}
    (h : buildUsers cfg clusters caches = .ok (clusters', users)) (hvalid : cfg.Valid) :
    Marked clusters clusters' ∧ ∀ name u, users.lookup name = some u → u.Routed clusters' caches name := by
  unfold buildUsers at h
  obtain ⟨params, _, h⟩ := bind_ok h
  obtain ⟨⟨profile, users⟩, hnew, h⟩ := bind_ok h
  obtain ⟨_, _, h⟩ := bind_ok h
  cases h
  exact UsersProfile.newUsers_ok hnew hvalid.users

theorem avoids_buildUsers {w : World} {cfg : Config} {clusters : Map Cluster} (caches : Map AsyncCache)
    (h : newClusters w ∅ cfg.clusters = .ok clusters) (hvalid : cfg.Valid) :
    Avoids .panic (buildUsers cfg clusters caches) := by
  unfold buildUsers
  refine (avoids_paramsFromConfig _ _).bind fun params _ => ?_
  refine (UsersProfile.avoids_newUsers _ _ _).bind fun (profile, users) hnew => ?_
  refine Avoids.bind ?_ fun _ _ => avoids_ok _
  have hmarked := (UsersProfile.newUsers_ok hnew hvalid.users).1
  refine avoids_validateNoWildcardedUserForHeartbeat
    (fun c hc => (Config.Cluster.validate_ok (hvalid.clusters c hc)).1) fun c hc cu hcu => ?_
  exact hmarked.users _ _ (newClusters_configured h hc hcu)

/-- The clusters of the configuration are built, and the loop over its caches comes to one on which
`NewRedisClient` panics. -/
def RedisPanics (w : World) (cfg : Config) : Prop :=
  (∃ clusters, newClusters w ∅ cfg.clusters = .ok clusters) ∧
    ∃ made cc rest, cfg.caches = made ++ cc :: rest ∧ w.PanicsAt (transactionsTimeout cfg.users) made cc

/-- `NewRedisClient` panics on no Redis cache of the configuration. -/
def World.Dials (w : World) (cfg : Config) : Prop :=
  ∀ cc ∈ cfg.caches, cc.mode = "redis" → w.newRedisClient cc.redis ≠ .panics

theorem World.Dials.not_redisPanics {w : World} {cfg : Config} (h : w.Dials cfg) : ¬RedisPanics w cfg := by
  rintro ⟨-, made, cc, rest, heq, hat⟩
  exact h cc (by simp [heq]) hat.redis hat.panics

/-- A configuration that passed the validators makes `applyConfig` panic exactly where go-redis does. -/
theorem ReverseProxy.applyConfig_panic_iff (w : World) (rp : ReverseProxy) (next : Nat) {cfg : Config}
    (hvalid : cfg.Valid) : (rp.applyConfig w next cfg).err = some .panic ↔ RedisPanics w cfg := by
  have hclusters := avoids_newClusters w ∅ cfg.clusters hvalid.clusters hvalid.clusterUsers
  have hcaches : (initTempCaches w (transactionsTimeout cfg.users) ∅ next cfg.caches).2 = some .panic ↔
      ∃ made cc rest, cfg.caches = made ++ cc :: rest ∧ w.PanicsAt (transactionsTimeout cfg.users) made cc := by
    simp [initTempCaches_panic_iff]
  unfold applyConfig RedisPanics
  rw [← hcaches]
  cases hnew : newClusters w ∅ cfg.clusters with
  | error e =>
    refine iff_of_false (fun h => ?_) (by simp)
    cases h
    exact hclusters hnew
  | ok clusters =>
    rcases htmp : initTempCaches w (transactionsTimeout cfg.users) ∅ next cfg.caches with ⟨⟨caches, next'⟩, _ | e⟩
    · -- the users come after the caches, and panic on nothing that is valid
      have hbuild := avoids_buildUsers caches hnew hvalid
      refine iff_of_false ?_ (by simp)
      cases hres : buildUsers cfg clusters caches with
      | error e =>
        rintro h
        simp only [hres, Option.some.injEq] at h
        exact hbuild (h ▸ hres)
      | ok tables => simp [hres]
    · simp

/-- A load keeps what holds of the host counts of every cluster, old and new. -/
theorem ReverseProxy.applyConfig_hostCounts {w : World} {rp : ReverseProxy} {next : Nat} {cfg : Config}
    {P : List Nat → Prop} (hvalid : cfg.Valid) (hnew : ∀ c ∈ cfg.clusters, P c.hostCounts)
    (hold : ∀ name c, rp.clusters.lookup name = some c → P c.hostCounts) :
    ∀ name c, (rp.applyConfig w next cfg).rp.clusters.lookup name = some c → P c.hostCounts := by
  intro name c hc
  cases herr : (rp.applyConfig w next cfg).err with
  | some e =>
    have hsame : (rp.applyConfig w next cfg).rp.clusters = rp.clusters :=
      congrArg Tables.clusters (applyConfig_tables herr)
    rw [hsame] at hc
    exact hold name c hc
  | none =>
    obtain ⟨clusters, hclusters, hbuild⟩ := applyConfig_loaded herr
    obtain ⟨c₀, hc₀, heq⟩ := (buildUsers_ok hbuild hvalid).1.replicas name c hc
    have hcounts : c.hostCounts = c₀.hostCounts := by rw [Cluster.hostCounts, heq]; rfl
    rw [hcounts]
    exact newClusters_hostCounts hclusters hnew hc₀

theorem ReverseProxy.applyConfig_closed {w : World} {rp : ReverseProxy} {next : Nat} {cfg : Config}
    (hclosed : rp.tables.Closed) (hvalid : cfg.Valid) : (rp.applyConfig w next cfg).rp.tables.Closed := by
  refine ⟨?_, applyConfig_hostCounts (P := fun counts => counts ≠ [] ∧ 0 ∉ counts) hvalid
    (fun c hc => Config.Cluster.hostCounts_pos (hvalid.clusters c hc) (hvalid.replicas c hc)) hclosed.clusters⟩
  cases herr : (rp.applyConfig w next cfg).err with
  | some e =>
    rw [applyConfig_tables herr]
    exact hclosed.users
  | none =>
    obtain ⟨clusters, _, hbuild⟩ := applyConfig_loaded herr
    exact (buildUsers_ok hbuild hvalid).2

/-- Calls of `applyConfig` on configurations that passed the validators. -/
def ValidLoad (_ : Loader) (call : World × Config) (_ : Loader) : Prop := call.2.Valid

theorem Loader.closed_reach {s : Loader} (h : Steps.ReachWhen Loader.load Loader.Initial ValidLoad s) :
    s.rp.tables.Closed := by
  refine h.invariant (P := fun s => s.rp.tables.Closed) (fun s hs => ?_) fun s call s' hs hst hvalid => ?_
  · obtain ⟨⟨cfgCp, hrp⟩, _, _⟩ := hs
    rw [hrp]
    exact Tables.empty_closed
  · cases hst
    exact ReverseProxy.applyConfig_closed hs hvalid

end Chproxy.Routing
