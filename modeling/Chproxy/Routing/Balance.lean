/-
Choosing a replica and a host (`scope.go`): the least loaded one in round-robin order, or the one a
session sticks to. Loads and activity are read from counters that other requests change at any time, so
what each read returns is a parameter. The number of candidates is kept in 32 bits.
-/
import Chproxy.Routing.GetUser

namespace Chproxy.Routing

/-! ## The two ways to choose -/

section Choose

variable {α : Type}

/-- The values of the loop variable of `for i := uint32(1); i < n; i++`. -/
def loopIndices (n : UInt32) : List UInt32 := (List.range' 1 (n.toNat - 1)).map UInt32.ofNat

/-- The scan for the least loaded candidate; `reqs` is the load of `r`, the best one so far. -/
def scanLeastLoaded (xs : List α) (n idx : UInt32) (load : UInt32 → α → UInt32) (active : UInt32 → α → Bool) :
    List UInt32 → α → UInt32 → Except Failure α
  | [], r, _ => .ok r
  | i :: is, r, reqs =>
    match xs[((idx + i) % n).toNat]? with
    | none => .error .panic
    | some tmp =>
      if active i tmp then
        if load i tmp = 0 then .ok tmp
        else if load i tmp < reqs then scanLeastLoaded xs n idx load active is tmp (load i tmp)
        else scanLeastLoaded xs n idx load active is r reqs
      else scanLeastLoaded xs n idx load active is r reqs

/-- What all four functions begin with. `idx` is what the round-robin counter returns; `scan` goes on from
the candidate it selects. -/
def startAt (xs : List α) (idx : UInt32) (scan : UInt32 → UInt32 → α → Except Failure α) : Except Failure α :=
  let n := UInt32.ofNat xs.length
  if n = 1 then
    match xs[0]? with
    | none => .error .panic
    | some r => .ok r
  else if n = 0 then .error .panic -- `idx %= n`
  else
    match xs[(idx % n).toNat]? with
    | none => .error .panic
    | some r => scan n (idx % n) r

/-- The common text of `cluster.getReplica` and `replica.getHost`; `load i` and `active i` are what the
candidate of the `i`-th check shows. -/
def leastLoaded (xs : List α) (idx : UInt32) (load : UInt32 → α → UInt32) (active : UInt32 → α → Bool) :
    Except Failure α :=
  startAt xs idx fun n idx r =>
    -- least priority to an inactive candidate
    let reqs := if active 0 r then load 0 r else 0xffffffff
    if reqs = 0 then .ok r else scanLeastLoaded xs n idx load active (loopIndices n) r reqs

/-- The attempts of a session on the one candidate its hash selects. -/
def scanSticky (xs : List α) (n sessionHash : UInt32) (active : UInt32 → α → Bool) :
    List UInt32 → α → Except Failure α
  | [], r => .ok r
  | i :: is, r =>
    match xs[(sessionHash % n).toNat]? with
    | none => .error .panic
    | some tmp => if active i tmp then .ok tmp else scanSticky xs n sessionHash active is r

/-- The common text of `cluster.getReplicaSticky` and `replica.getHostSticky`. -/
def sticky (xs : List α) (idx sessionHash : UInt32) (active : UInt32 → α → Bool) : Except Failure α :=
  startAt xs idx fun n _ r => scanSticky xs n sessionHash active (loopIndices n) r

/-! ## When they panic -/

/-- A remainder by the truncated length, when that is not zero, is an index. -/
theorem getElem?_mod {xs : List α} (hn : UInt32.ofNat xs.length ≠ 0) (i : UInt32) :
    ∃ x ∈ xs, xs[(i % UInt32.ofNat xs.length).toNat]? = some x := by
  have hpos : 0 < (UInt32.ofNat xs.length).toNat := Nat.pos_of_ne_zero fun h => hn (UInt32.toNat_inj.1 h)
  have hlt : (i % UInt32.ofNat xs.length).toNat < xs.length := by
    calc (i % UInt32.ofNat xs.length).toNat = i.toNat % (UInt32.ofNat xs.length).toNat := UInt32.toNat_mod ..
      _ < (UInt32.ofNat xs.length).toNat := Nat.mod_lt _ hpos
      _ ≤ xs.length := by rw [UInt32.toNat_ofNat']; exact Nat.mod_le _ _
  exact ⟨xs[(i % UInt32.ofNat xs.length).toNat], List.getElem_mem hlt, List.getElem?_eq_getElem hlt⟩

theorem ofNat_eq_zero_iff (k : Nat) : UInt32.ofNat k = 0 ↔ 2 ^ 32 ∣ k := by
  rw [← UInt32.toNat_inj, UInt32.toNat_ofNat', Nat.dvd_iff_mod_eq_zero]
  rfl

theorem scanLeastLoaded_mem {xs : List α} {idx : UInt32} {load : UInt32 → α → UInt32} {active : UInt32 → α → Bool}
    (hn : UInt32.ofNat xs.length ≠ 0) : ∀ (is : List UInt32) {r : α} (reqs : UInt32), r ∈ xs →
      ∃ x ∈ xs, scanLeastLoaded xs (UInt32.ofNat xs.length) idx load active is r reqs = .ok x
  | [], r, reqs, hr => ⟨r, hr, rfl⟩
  | i :: is, r, reqs, hr => by
    obtain ⟨tmp, htmp, hget⟩ := getElem?_mod hn (idx + i)
    unfold scanLeastLoaded
    rw [hget]
    dsimp only
    split
    · split
      · exact ⟨tmp, htmp, rfl⟩
      split
      · exact scanLeastLoaded_mem hn is _ htmp
      · exact scanLeastLoaded_mem hn is _ hr
    · exact scanLeastLoaded_mem hn is _ hr

theorem scanSticky_mem {xs : List α} {sessionHash : UInt32} {active : UInt32 → α → Bool}
    (hn : UInt32.ofNat xs.length ≠ 0) : ∀ (is : List UInt32) {r : α}, r ∈ xs →
      ∃ x ∈ xs, scanSticky xs (UInt32.ofNat xs.length) sessionHash active is r = .ok x
  | [], r, hr => ⟨r, hr, rfl⟩
  | i :: is, r, hr => by
    obtain ⟨tmp, htmp, hget⟩ := getElem?_mod hn sessionHash
    unfold scanSticky
    rw [hget]
    dsimp only
    split
    · exact ⟨tmp, htmp, rfl⟩
    · exact scanSticky_mem hn is hr

/-- A candidate is chosen whenever the length does not vanish in 32 bits. -/
theorem startAt_mem {xs : List α} (hn : ¬2 ^ 32 ∣ xs.length) (idx : UInt32)
    {scan : UInt32 → UInt32 → α → Except Failure α}
    (hscan : ∀ i, ∀ r ∈ xs, ∃ x ∈ xs, scan (UInt32.ofNat xs.length) i r = .ok x) :
    ∃ x ∈ xs, startAt xs idx scan = .ok x := by
  have hn0 : UInt32.ofNat xs.length ≠ 0 := mt (ofNat_eq_zero_iff _).1 hn
  unfold startAt
  dsimp only
  split
  · rename_i hone
    cases xs with
    | nil => exact absurd ⟨0, rfl⟩ hn
    | cons x xs => exact ⟨x, List.mem_cons_self, rfl⟩
  · obtain ⟨r, hr, hget⟩ := getElem?_mod hn0 idx
    rw [hget]
    exact hscan _ r hr

theorem startAt_panic {xs : List α} (hn : 2 ^ 32 ∣ xs.length) (idx : UInt32)
    (scan : UInt32 → UInt32 → α → Except Failure α) : startAt xs idx scan = .error .panic := by
  have hn0 : UInt32.ofNat xs.length = 0 := (ofNat_eq_zero_iff _).2 hn
  simp [startAt, hn0]

theorem leastLoaded_mem {xs : List α} (hn : ¬2 ^ 32 ∣ xs.length) (idx : UInt32) (load : UInt32 → α → UInt32)
    (active : UInt32 → α → Bool) : ∃ x ∈ xs, leastLoaded xs idx load active = .ok x := by
  refine startAt_mem hn idx fun i r hr => ?_
  by_cases hfree : (if active 0 r then load 0 r else 0xffffffff) = 0
  · exact ⟨r, hr, if_pos hfree⟩
  · simp only [if_neg hfree]
    exact scanLeastLoaded_mem (mt (ofNat_eq_zero_iff _).1 hn) _ _ hr

theorem leastLoaded_panic {xs : List α} (hn : 2 ^ 32 ∣ xs.length) (idx : UInt32) (load : UInt32 → α → UInt32)
    (active : UInt32 → α → Bool) : leastLoaded xs idx load active = .error .panic :=
  startAt_panic hn idx _

theorem sticky_mem {xs : List α} (hn : ¬2 ^ 32 ∣ xs.length) (idx sessionHash : UInt32)
    (active : UInt32 → α → Bool) : ∃ x ∈ xs, sticky xs idx sessionHash active = .ok x :=
  startAt_mem hn idx fun _ _ hr => scanSticky_mem (mt (ofNat_eq_zero_iff _).1 hn) _ hr

end Choose

/-! ## Replicas and hosts -/

/-- The sum of the loads of the hosts; `load j` is that of the `j`-th. -/
def Replica.load (r : Replica) (load : Nat → UInt32) : UInt32 :=
  (List.range r.hosts.length).foldl (fun reqs j => reqs + load j) 0

/-- At least one host is active. -/
def Replica.isActive (r : Replica) (active : Nat → Bool) : Bool := (List.range r.hosts.length).any active

def Cluster.getReplica (c : Cluster) (idx : UInt32) (load : UInt32 → Nat → UInt32) (active : UInt32 → Nat → Bool) :
    Except Failure Replica :=
  leastLoaded c.replicas idx (fun i r => r.load (load i)) fun i r => r.isActive (active i)

def Cluster.getReplicaSticky (c : Cluster) (idx : UInt32) (sessionId : String) (active : UInt32 → Nat → Bool) :
    Except Failure Replica :=
  sticky c.replicas idx (Utils.hash sessionId) fun i r => r.isActive (active i)

def Replica.getHost (r : Replica) (idx : UInt32) (load : UInt32 → UInt32) (active : UInt32 → Bool) :
    Except Failure Node :=
  leastLoaded r.hosts idx (fun i _ => load i) fun i _ => active i

def Replica.getHostSticky (r : Replica) (idx : UInt32) (sessionId : String) (active : UInt32 → Bool) :
    Except Failure Node :=
  sticky r.hosts idx (Utils.hash sessionId) fun i _ => active i

/-- `cluster.getHost`: a replica, then a host of it, each with the counters it reads. -/
def Cluster.getHost (c : Cluster) (idx : UInt32) (load : UInt32 → Nat → UInt32) (active : UInt32 → Nat → Bool)
    (hostIdx : UInt32) (hostLoad : UInt32 → UInt32) (hostActive : UInt32 → Bool) : Except Failure Node := do
  let r ← c.getReplica idx load active
  r.getHost hostIdx hostLoad hostActive

def Cluster.getHostSticky (c : Cluster) (idx : UInt32) (sessionId : String) (active : UInt32 → Nat → Bool)
    (hostIdx : UInt32) (hostActive : UInt32 → Bool) : Except Failure Node := do
  let r ← c.getReplicaSticky idx sessionId active
  r.getHostSticky hostIdx sessionId hostActive

/-- No choice of a replica or of a host panics, whatever the counters show. -/
structure Cluster.Selectable (c : Cluster) : Prop where
  getReplica : ∀ idx load active, c.getReplica idx load active ≠ .error .panic
  getReplicaSticky : ∀ idx sessionId active, c.getReplicaSticky idx sessionId active ≠ .error .panic
  replicaGetHost : ∀ r ∈ c.replicas, ∀ idx load active, r.getHost idx load active ≠ .error .panic
  replicaGetHostSticky : ∀ r ∈ c.replicas, ∀ idx sessionId active, r.getHostSticky idx sessionId active ≠ .error .panic
  getHost : ∀ idx load active hostIdx hostLoad hostActive,
    c.getHost idx load active hostIdx hostLoad hostActive ≠ .error .panic
  getHostSticky : ∀ idx sessionId active hostIdx hostActive,
    c.getHostSticky idx sessionId active hostIdx hostActive ≠ .error .panic

/-- None of the counts is a multiple of `2 ^ 32`: neither the number of replicas nor that of the hosts of
one of them. -/
def CountsFit (hostCounts : List Nat) : Prop := ¬2 ^ 32 ∣ hostCounts.length ∧ ∀ n ∈ hostCounts, ¬2 ^ 32 ∣ n

theorem ne_panic_of_mem {α : Type} {xs : List α} {r : Except Failure α} (h : ∃ x ∈ xs, r = .ok x) :
    r ≠ .error .panic := by
  obtain ⟨x, _, hr⟩ := h
  rw [hr]
  exact nofun

/-- A replica and then a host of it can be chosen exactly when the counts fit. -/
theorem Cluster.selectable_iff (c : Cluster) : c.Selectable ↔ CountsFit c.hostCounts := by
  unfold CountsFit hostCounts
  rw [List.length_map, List.forall_mem_map]
  constructor
  · -- a count that is a multiple of `2 ^ 32` is 0 as a `uint32`, and the remainder by it panics
    intro h
    refine ⟨fun hdvd => ?_, fun r hr hdvd => ?_⟩
    · exact h.getReplica 0 (fun _ _ => 0) (fun _ _ => true) (leastLoaded_panic hdvd _ _ _)
    · exact h.replicaGetHost r hr 0 (fun _ => 0) (fun _ => true) (leastLoaded_panic hdvd _ _ _)
  · rintro ⟨hreplicas, hhosts⟩
    refine ⟨fun idx load active => ne_panic_of_mem (leastLoaded_mem hreplicas ..),
      fun idx sessionId active => ne_panic_of_mem (sticky_mem hreplicas ..),
      fun r hr idx load active => ne_panic_of_mem (leastLoaded_mem (hhosts r hr) ..),
      fun r hr idx sessionId active => ne_panic_of_mem (sticky_mem (hhosts r hr) ..), ?_, ?_⟩
    · intro idx load active hostIdx hostLoad hostActive
      obtain ⟨r, hr, hget⟩ :=
        leastLoaded_mem hreplicas idx (fun i r => r.load (load i)) fun i r => r.isActive (active i)
      rw [getHost, getReplica, hget]
      show r.getHost hostIdx hostLoad hostActive ≠ .error .panic
      exact ne_panic_of_mem (leastLoaded_mem (hhosts r hr) ..)
    · intro idx sessionId active hostIdx hostActive
      obtain ⟨r, hr, hget⟩ := sticky_mem hreplicas idx (Utils.hash sessionId) fun i r => r.isActive (active i)
      rw [getHostSticky, getReplicaSticky, hget]
      show r.getHostSticky hostIdx sessionId hostActive ≠ .error .panic
      exact ne_panic_of_mem (sticky_mem (hhosts r hr) ..)

/-! ## The tables of a running proxy -/

/-- The next load, of `cfg`, does not panic, and neither does a lookup before it; every user names an existing
cluster and a user of it; every cluster has replicas with hosts, and one can be chosen. -/
structure Loader.Sound (s : Loader) (w : World) (cfg : Config) : Prop where
  applyConfig : (s.rp.applyConfig w s.next cfg).err ≠ some .panic
  getUser : ∀ order, order.Perm (userValues s.rp.users) → ∀ name password,
    s.rp.getUser order name password ≠ .error .panic
  users : ∀ name u, s.rp.users.lookup name = some u → (configured s.rp.clusters u.toCluster u.toUser).isSome
  replicas : ∀ name c, s.rp.clusters.lookup name = some c → c.replicas ≠ [] ∧ ∀ r ∈ c.replicas, r.hosts ≠ []
  selectable : ∀ name c, s.rp.clusters.lookup name = some c → c.Selectable

theorem Cluster.Populated.hosts {c : Cluster} (h : c.Populated) : c.replicas ≠ [] ∧ ∀ r ∈ c.replicas, r.hosts ≠ [] := by
  unfold Populated hostCounts at h
  refine ⟨fun hnil => h.1 (by rw [hnil]; rfl), fun r hr hnil => h.2 (List.mem_map.2 ⟨r, hr, by rw [hnil]; rfl⟩)⟩

/-- Lists as a process can hold them: fewer than `2 ^ 32` replicas, and hosts in each. -/
def Sized (hostCounts : List Nat) : Prop := hostCounts.length < 2 ^ 32 ∧ ∀ n ∈ hostCounts, n < 2 ^ 32

theorem Cluster.Populated.countsFit {c : Cluster} (h : c.Populated) (hs : Sized c.hostCounts) :
    CountsFit c.hostCounts := by
  have hlength : 0 < c.hostCounts.length := List.length_pos_iff.2 h.1
  refine ⟨Nat.not_dvd_of_pos_of_lt hlength hs.1, fun n hn => Nat.not_dvd_of_pos_of_lt ?_ (hs.2 n hn)⟩
  exact Nat.pos_of_ne_zero fun h0 => h.2 (h0 ▸ hn)

/-- Loads of valid configurations of such lists. -/
def SizedLoad (_ : Loader) (call : World × Config) (_ : Loader) : Prop :=
  call.2.Valid ∧ ∀ c ∈ call.2.clusters, Sized c.hostCounts

theorem Loader.sized_reach {s : Loader} (h : Steps.ReachWhen Loader.load Loader.Initial SizedLoad s) :
    ∀ name c, s.rp.clusters.lookup name = some c → Sized c.hostCounts := by
  refine h.invariant (P := fun s => ∀ name c, s.rp.clusters.lookup name = some c → Sized c.hostCounts)
    (fun s hs => ?_) fun s call s' hs hst hsized => ?_
  · obtain ⟨⟨cfgCp, hrp⟩, _, _⟩ := hs
    rw [hrp]
    exact fun name c hc => by simp [newReverseProxy] at hc
  · cases hst
    exact ReverseProxy.applyConfig_hostCounts hsized.1 hsized.2 hs

/-- In every state reached by loads of valid configurations, successful or failing, the routing tables are closed
under reference and no lookup or choice on them panics; and the next valid configuration can be applied without
a panic exactly when `NewRedisClient` does not panic on a cache that the call comes to create. -/
theorem routing_sound_iff {s : Loader} (h : Steps.ReachWhen Loader.load Loader.Initial SizedLoad s) (w : World)
    {cfg : Config} (hvalid : cfg.Valid) : s.Sound w cfg ↔ ¬RedisPanics w cfg := by
  have hclosed := Loader.closed_reach (h.mono fun _ _ _ hload => hload.1)
  have hpanic := s.rp.applyConfig_panic_iff w s.next hvalid
  refine ⟨fun hs => mt hpanic.2 hs.applyConfig, fun hredis => ⟨mt hpanic.1 hredis, fun order horder name password => ?_,
    fun name u hu => (hclosed.users name u hu).target, fun name c hc => (hclosed.clusters name c hc).hosts,
    fun name c hc => ?_⟩⟩
  · obtain ⟨r, hr⟩ := s.rp.getUser_returns hclosed horder name password
    rw [hr]
    exact nofun
  · exact c.selectable_iff.2 ((hclosed.clusters name c hc).countsFit (Loader.sized_reach h name c hc))

/-! ## A negative pool size -/

/-- Everything goes well but for a negative `pool_size`, on which go-redis panics. -/
def pooledWorld : World :=
  { calmWorld with newRedisClient := fun cfg => if cfg.poolSize < 0 then .panics else .client }

/-- The small configuration with a Redis cache. -/
def pooledConfig (poolSize : Int64) : Config :=
  { smallConfig 2 "c" with
    caches :=
      [{ mode := "redis", name := "responses", expire := 10000000000, graceTime := 0, fileSystem := ⟨"", 0⟩
         redis := ⟨"", "", ["localhost:6379"], 0, poolSize, "", "", false⟩
         maxPayloadSize := 1000000, sharedWithAllUsers := false }] }

theorem pooledConfig_valid (poolSize : Int64) : (pooledConfig poolSize).Valid where
  config := rfl
  clusters := List.forall_mem_singleton.2 rfl
  replicas := List.forall_mem_singleton.2 nofun
  clusterUsers := List.forall_mem_singleton.2 (List.forall_mem_singleton.2 rfl)
  users := List.forall_mem_singleton.2 rfl
  caches := List.forall_mem_singleton.2 (by simp [Config.Cache.validate])
  paramGroups := nofun
  connectionPool := rfl

theorem analystLoader_sized : Steps.ReachWhen Loader.load Loader.Initial SizedLoad analystLoader := by
  refine .step (s := ⟨newReverseProxy ⟨2, 2⟩, 0, []⟩) (a := (calmWorld, analystConfig))
    (.init ⟨⟨⟨2, 2⟩, rfl⟩, rfl, rfl⟩) rfl ⟨analystConfig_valid, List.forall_mem_singleton.2 ?_⟩
  exact ⟨by decide, List.forall_mem_singleton.2 (by decide)⟩

/-- The running analysts, and a reload that adds a Redis cache with ten connections. -/
theorem routing_sound_pool :
    (pooledConfig 10).Valid ∧ analystLoader.Sound pooledWorld (pooledConfig 10) ∧
      (analystLoader.rp.applyConfig pooledWorld analystLoader.next (pooledConfig 10)).err = none := by
  refine ⟨pooledConfig_valid 10, (routing_sound_iff analystLoader_sized pooledWorld (pooledConfig_valid 10)).2 ?_, rfl⟩
  refine World.Dials.not_redisPanics (List.forall_mem_singleton.2 fun _ => ?_)
  decide

/-- A valid configuration whose Redis cache has `pool_size: -1` makes `applyConfig` panic, at the start of the
process as well as in a reload. -/
theorem negative_pool_panics :
    (pooledConfig (-1)).Valid ∧
    ((newReverseProxy ⟨2, 2⟩).applyConfig pooledWorld 0 (pooledConfig (-1))).err = some .panic ∧
      Steps.ReachWhen Loader.load Loader.Initial SizedLoad analystLoader ∧
      (analystLoader.rp.applyConfig pooledWorld analystLoader.next (pooledConfig (-1))).err = some .panic ∧
      ¬analystLoader.Sound pooledWorld (pooledConfig (-1)) := by
  have hpanic :
      (analystLoader.rp.applyConfig pooledWorld analystLoader.next (pooledConfig (-1))).err = some .panic := by
    decide
  exact ⟨pooledConfig_valid (-1), by decide, analystLoader_sized, hpanic, fun hs => hs.applyConfig hpanic⟩

end Chproxy.Routing
