/-
Where the objects of the routing tables come from: every user of the table was made of a user of the
configuration, and every cluster user of one of its cluster users, which `newUser` may have marked.
-/
import Chproxy.Routing.Closed

namespace Chproxy.Routing

open Fallible

/-! ## Users -/

/-- What a user has from the configuration, as far as it is used below. -/
structure User.MadeOf (u : User) (cfg : Config.User) : Prop where
  isWildcarded : u.isWildcarded = cfg.isWildcarded
  maxExecutionTime : u.maxExecutionTime = cfg.maxExecutionTime
  maxQueueTime : u.maxQueueTime = cfg.maxQueueTime

theorem UsersProfile.newUser_madeOf {up up' : UsersProfile} {cfg : Config.User} {u : User}
    (h : up.newUser cfg = .ok (up', u)) : u.MadeOf cfg := by
  have hmakes := newUser_makes h
  exact ⟨hmakes.isWildcarded, hmakes.maxExecutionTime, hmakes.maxQueueTime⟩

/-! ## Cluster users -/

/-- Made of a cluster user of the configuration, and marked or not. -/
def ClusterUser.MadeOf (cu : ClusterUser) (cfg : Config.ClusterUser) : Prop :=
  cu = { newClusterUser cfg with isWildcarded := cu.isWildcarded }

/-- Every user of these clusters was made of a cluster user of the configuration. -/
def Sourced (cs : List Config.Cluster) (m : Map Cluster) : Prop :=
  ∀ toCluster toUser cu, configured m toCluster toUser = some cu → ∃ c ∈ cs, ∃ cfg ∈ c.clusterUsers, cu.MadeOf cfg

theorem newClusterUsers_origin : ∀ {cus : List Config.ClusterUser} {m m' : Map ClusterUser},
    newClusterUsers m cus = .ok m' → ∀ {name : String} {cu : ClusterUser}, m'.lookup name = some cu →
      m.lookup name = some cu ∨ ∃ cfg ∈ cus, cu = newClusterUser cfg
  | [], m, m', h, name, cu, hcu => by
    cases h
    exact .inl hcu
  | cfg :: cus, m, m', h, name, cu, hcu => by
    unfold newClusterUsers at h
    split at h
    · cases h
    rcases newClusterUsers_origin h hcu with hold | ⟨y, hy, heq⟩
    · rcases Tables.lookup_insert_cases hold with ⟨-, rfl⟩ | hold
      · exact .inr ⟨cfg, List.mem_cons_self, rfl⟩
      · exact .inl hold
    · exact .inr ⟨y, List.mem_cons_of_mem _ hy, heq⟩

theorem newCluster_origin {w : World} {cfg : Config.Cluster} {c : Cluster} (h : newCluster w cfg = .ok c)
    {name : String} {cu : ClusterUser} (hcu : c.users.lookup name = some cu) :
    ∃ x ∈ cfg.clusterUsers, cu.MadeOf x := by
  unfold newCluster at h
  obtain ⟨users, husers, h⟩ := bind_ok h
  split at h
  · cases h
  obtain ⟨hb, _, h⟩ := bind_ok h
  obtain ⟨replicas, _, h⟩ := bind_ok h
  cases h
  rcases newClusterUsers_origin husers hcu with hold | ⟨x, hx, rfl⟩
  · simp at hold
  · exact ⟨x, hx, rfl⟩

theorem newClusters_sourced {w : World} {cs : List Config.Cluster} {m : Map Cluster}
    (h : newClusters w ∅ cs = .ok m) : Sourced cs m := by
  intro toCluster toUser cu hcu
  obtain ⟨c, hc, hcu⟩ := Option.bind_eq_some_iff.1 hcu
  rcases (newClusters_lookup h).2.2 toCluster c hc with hold | ⟨cfg, hcfg, hnew⟩
  · simp at hold
  · obtain ⟨x, hx, hmade⟩ := newCluster_origin hnew hcu
    exact ⟨cfg, hcfg, x, hx, hmade⟩

/-- A mark changes nothing but itself. -/
theorem UsersProfile.sourced_markWildcarded {cs : List Config.Cluster} {up : UsersProfile}
    (h : Sourced cs up.clusters) {c : Cluster} {toCluster toUser : String} {cu : ClusterUser}
    (hc : up.clusters.lookup toCluster = some c) (hcu : c.users.lookup toUser = some cu) :
    Sourced cs (up.markWildcarded c toCluster toUser cu).clusters := by
  have hold : ∃ x ∈ cs, ∃ cfg ∈ x.clusterUsers, cu.MadeOf cfg :=
    h toCluster toUser cu (Option.bind_eq_some_iff.2 ⟨c, hc, hcu⟩)
  intro cluster user cu' hcu'
  obtain ⟨c', hc', hcu'⟩ := Option.bind_eq_some_iff.1 hcu'
  unfold markWildcarded at hc'
  rcases Tables.lookup_insert_cases hc' with ⟨rfl, rfl⟩ | hc'
  · rcases Tables.lookup_insert_cases hcu' with ⟨-, rfl⟩ | hcu'
    · obtain ⟨x, hx, cfg, hcfg, hmade⟩ := hold
      refine ⟨x, hx, cfg, hcfg, ?_⟩
      unfold ClusterUser.MadeOf at hmade ⊢
      rw [hmade]
    · exact h cluster user cu' (Option.bind_eq_some_iff.2 ⟨c, hc, hcu'⟩)
  · exact h cluster user cu' (Option.bind_eq_some_iff.2 ⟨c', hc', hcu'⟩)

theorem UsersProfile.newUser_sourced {cs : List Config.Cluster} {up up' : UsersProfile} {cfg : Config.User} {u : User}
    (h : up.newUser cfg = .ok (up', u)) (hs : Sourced cs up.clusters) : Sourced cs up'.clusters := by
  obtain ⟨c, cu, hc, hcu, rfl⟩ := (newUser_makes h).clusters
  split
  · exact sourced_markWildcarded hs hc hcu
  · exact hs

theorem UsersProfile.newUsers_sourced {cs : List Config.Cluster} {cfg : List Config.User} {up up' : UsersProfile}
    {users users' : Map User} (h : newUsers up users cfg = .ok (up', users')) (hs : Sourced cs up.clusters) :
    Sourced cs up'.clusters :=
  newUsers_invariant (P := fun up _ => Sourced cs up.clusters) h (fun _ _ _ _ _ _ hs hnew => newUser_sourced hnew hs) hs

/-! ## Loaded tables -/

theorem buildUsers_origin {cfg : Config} {clusters clusters' : Map Cluster} {caches : Map AsyncCache}
    {users : Map User} (h : buildUsers cfg clusters caches = .ok (clusters', users)) :
    (∀ name u, users.lookup name = some u → ∃ x ∈ cfg.users, ∃ up up', UsersProfile.newUser up x = .ok (up', u)) ∧
    (Sourced cfg.clusters clusters → Sourced cfg.clusters clusters') := by
  unfold buildUsers at h
  obtain ⟨params, _, h⟩ := bind_ok h
  obtain ⟨⟨profile, users⟩, hnew, h⟩ := bind_ok h
  obtain ⟨_, _, h⟩ := bind_ok h
  cases h
  exact ⟨fun name u hu => UsersProfile.newUsers_made hnew hu, UsersProfile.newUsers_sourced hnew⟩

section Loaded

variable {w : World} {rp : ReverseProxy} {next : Nat} {cfg : Config} (h : (rp.applyConfig w next cfg).err = none)

include h

/-- After a successful load, every user in the tables was made of one of the configuration. -/
theorem ReverseProxy.applyConfig_made {name : String} {u : User}
    (hu : (rp.applyConfig w next cfg).rp.users.lookup name = some u) :
    ∃ x ∈ cfg.users, ∃ up up', UsersProfile.newUser up x = .ok (up', u) := by
  obtain ⟨clusters, -, hbuild⟩ := applyConfig_loaded h
  exact (buildUsers_origin hbuild).1 name u hu

/-- The users and the cluster users in the tables are then those of the configuration. -/
theorem ReverseProxy.applyConfig_origin :
    (∀ name u, (rp.applyConfig w next cfg).rp.users.lookup name = some u → ∃ x ∈ cfg.users, u.MadeOf x) ∧
    Sourced cfg.clusters (rp.applyConfig w next cfg).rp.clusters := by
  obtain ⟨clusters, hclusters, hbuild⟩ := applyConfig_loaded h
  refine ⟨fun name u hu => ?_, (buildUsers_origin hbuild).2 (newClusters_sourced hclusters)⟩
  obtain ⟨x, hx, up, up', hnew⟩ := applyConfig_made h hu
  exact ⟨x, hx, UsersProfile.newUser_madeOf hnew⟩

end Loaded

end Chproxy.Routing
