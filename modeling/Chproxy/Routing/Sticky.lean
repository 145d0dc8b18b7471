/-
Sticky routing (`getHostSticky` in `scope.go`): which host a session gets while the activity of the hosts does not
change. The scans try the one candidate that the session selects again and again and then fall back to the
round-robin counters, which other requests move.
-/
import Chproxy.Routing.Live

namespace Chproxy.Routing

/-! ## One scan -/

section Scan

variable {α : Type} {xs : List α} {sessionHash : UInt32} {active : α → Bool} {x : α}

theorem one_lt_toNat {n : UInt32} (hzero : n ≠ 0) (hone : n ≠ 1) : 1 < n.toNat := by
  have h0 : n.toNat ≠ 0 := fun h => hzero (UInt32.toNat_inj.1 h)
  have h1 : n.toNat ≠ 1 := fun h => hone (UInt32.toNat_inj.1 h)
  omega

theorem mod_one (i : UInt32) : (i % 1).toNat = 0 := by
  rw [UInt32.toNat_mod]
  exact Nat.mod_one _

theorem loopIndices_ne_nil {n : UInt32} (hzero : n ≠ 0) (hone : n ≠ 1) : loopIndices n ≠ [] := by
  have hlt := one_lt_toNat hzero hone
  intro h
  have hlen := congrArg List.length h
  simp only [loopIndices, List.length_map, List.length_range', List.length_nil] at hlen
  omega

/-- The scan looks at the same candidate in every round. -/
theorem scanSticky_stay {n : UInt32} (hx : xs[(sessionHash % n).toNat]? = some x) (hactive : active x = true) {r : α} :
    ∀ {is : List UInt32}, is ≠ [] → scanSticky xs n sessionHash (fun _ => active) is r = .ok x
  | [], h => absurd rfl h
  | i :: is, _ => by
    rw [scanSticky, hx]
    simp only
    rw [if_pos hactive]

theorem scanSticky_leave {n : UInt32} (hx : xs[(sessionHash % n).toNat]? = some x)
    (hactive : active x = false) {r : α} :
    ∀ is : List UInt32, scanSticky xs n sessionHash (fun _ => active) is r = .ok r
  | [] => rfl
  | i :: is => by
    rw [scanSticky, hx]
    simp only
    rw [if_neg (by rw [hactive]; exact Bool.false_ne_true)]
    exact scanSticky_leave hx hactive is

/-- The candidate of the session is chosen when it is active, and when there is no other. -/
theorem sticky_stay (hzero : UInt32.ofNat xs.length ≠ 0)
    (hx : xs[(sessionHash % UInt32.ofNat xs.length).toNat]? = some x)
    (h : active x = true ∨ UInt32.ofNat xs.length = 1) (idx : UInt32) :
    sticky xs idx sessionHash (fun _ => active) = .ok x := by
  unfold sticky startAt
  dsimp only
  by_cases hone : UInt32.ofNat xs.length = 1
  · rw [if_pos hone]
    rw [hone, mod_one] at hx
    rw [hx]
  · obtain ⟨r, -, hr⟩ := getElem?_mod hzero idx
    rw [if_neg hone, if_neg hzero, hr]
    exact scanSticky_stay hx (h.resolve_right hone) (loopIndices_ne_nil hzero hone)

/-- Otherwise the counter chooses. -/
theorem sticky_leave (hzero : UInt32.ofNat xs.length ≠ 0) (hone : UInt32.ofNat xs.length ≠ 1)
    (hx : xs[(sessionHash % UInt32.ofNat xs.length).toNat]? = some x) (h : active x = false) {idx : UInt32} {r : α}
    (hr : xs[(idx % UInt32.ofNat xs.length).toNat]? = some r) :
    sticky xs idx sessionHash (fun _ => active) = .ok r := by
  unfold sticky startAt
  dsimp only
  rw [if_neg hone, if_neg hzero, hr]
  exact scanSticky_leave hx h _

/-- The counter chooses the first and the second candidate in turn. -/
theorem one_mod {n : UInt32} (hzero : n ≠ 0) (hone : n ≠ 1) :
    ((0 : UInt32) % n).toNat = 0 ∧ ((1 : UInt32) % n).toNat = 1 := by
  rw [UInt32.toNat_mod, UInt32.toNat_mod]
  exact ⟨Nat.zero_mod _, Nat.mod_eq_of_lt (one_lt_toNat hzero hone)⟩

end Scan

/-! ## Reading from one state -/

section Place

variable {α : Type}

theorem scanSticky_fst (xs : List α) (n sessionHash : UInt32) (active : α × Nat → Bool) :
    ∀ (is : List UInt32) (r : α × Nat),
      (scanSticky xs.zipIdx n sessionHash (fun _ => active) is r).map Prod.fst =
        scanSticky xs n sessionHash (fun _ x => active (x, (sessionHash % n).toNat)) is r.1
  | [], r => rfl
  | i :: is, r => by
    rw [scanSticky, scanSticky, List.getElem?_zipIdx]
    cases xs[(sessionHash % n).toNat]? with
    | none => rfl
    | some x =>
      simp only [Option.map_some, Nat.zero_add]
      split
      · rfl
      · exact scanSticky_fst xs n sessionHash active is r

/-- Candidates with their places are chosen as the candidates are. -/
theorem sticky_fst (xs : List α) (idx sessionHash : UInt32) (active : α × Nat → Bool) :
    (sticky xs.zipIdx idx sessionHash fun _ => active).map Prod.fst =
      sticky xs idx sessionHash fun _ x => active (x, (sessionHash % UInt32.ofNat xs.length).toNat) := by
  exact startAt_fst xs idx fun _ r => scanSticky_fst xs _ sessionHash active _ r

variable {xs : List α} {sessionHash : UInt32} {active : α × Nat → Bool}

/-- The candidates with their places, at the place that a session selects. -/
theorem getElem?_zipIdx_mod (hzero : UInt32.ofNat xs.length ≠ 0) (i : UInt32) :
    ∃ x, xs[(i % UInt32.ofNat xs.length).toNat]? = some x ∧
      xs.zipIdx[(i % UInt32.ofNat xs.zipIdx.length).toNat]? = some (x, (i % UInt32.ofNat xs.length).toNat) := by
  obtain ⟨x, -, hx⟩ := getElem?_mod hzero i
  refine ⟨x, hx, ?_⟩
  rw [List.length_zipIdx, List.getElem?_zipIdx, hx, Nat.zero_add]
  rfl

/-- What `sticky_stay` says of candidates with their places. -/
theorem sticky_zipIdx_stay {x : α × Nat} (hzero : UInt32.ofNat xs.length ≠ 0)
    (hx : xs.zipIdx[(sessionHash % UInt32.ofNat xs.zipIdx.length).toNat]? = some x)
    (h : active x = true ∨ UInt32.ofNat xs.length = 1) (idx : UInt32) :
    sticky xs.zipIdx idx sessionHash (fun _ => active) = .ok x := by
  have hlen : xs.zipIdx.length = xs.length := List.length_zipIdx
  rw [← hlen] at hzero h
  exact sticky_stay hzero hx h idx

theorem sticky_ne_ok_of_zero (hzero : UInt32.ofNat xs.length = 0) (idx : UInt32) (x : α × Nat) :
    sticky xs.zipIdx idx sessionHash (fun _ => active) ≠ .ok x := by
  intro h
  have hdvd : 2 ^ 32 ∣ xs.zipIdx.length := by
    rw [List.length_zipIdx]
    exact (ofNat_eq_zero_iff _).1 hzero
  rw [sticky, startAt_panic hdvd] at h
  cases h

/-- A choice that falls back to the counter is not stable. -/
theorem sticky_unstable {x : α × Nat} (hzero : UInt32.ofNat xs.length ≠ 0) (hone : UInt32.ofNat xs.length ≠ 1)
    (hx : xs.zipIdx[(sessionHash % UInt32.ofNat xs.zipIdx.length).toNat]? = some x) (h : active x = false) :
    ∃ y z, sticky xs.zipIdx 0 sessionHash (fun _ => active) = .ok y ∧
      sticky xs.zipIdx 1 sessionHash (fun _ => active) = .ok z ∧ y.2 ≠ z.2 := by
  have hlen : xs.zipIdx.length = xs.length := List.length_zipIdx
  obtain ⟨y, -, hy⟩ := getElem?_zipIdx_mod hzero 0
  obtain ⟨z, -, hz⟩ := getElem?_zipIdx_mod hzero 1
  rw [← hlen] at hzero hone
  refine ⟨_, _, sticky_leave hzero hone hx h hy, sticky_leave hzero hone hx h hz, ?_⟩
  rw [hlen] at hzero hone
  simp only [(one_mod hzero hone).1, (one_mod hzero hone).2]
  exact Nat.zero_ne_one

/-- A choice that never changes is that of the session. -/
theorem sticky_stable {k : Nat}
    (hstable : ∀ idx, ∃ x, sticky xs.zipIdx idx sessionHash (fun _ => active) = .ok x ∧ x.2 = k) :
    ∃ x, UInt32.ofNat xs.length ≠ 0 ∧ k = (sessionHash % UInt32.ofNat xs.length).toNat ∧ xs[k]? = some x ∧
      (∀ idx, sticky xs.zipIdx idx sessionHash (fun _ => active) = .ok (x, k)) ∧
      (active (x, k) = true ∨ UInt32.ofNat xs.length = 1) := by
  have hzero : UInt32.ofNat xs.length ≠ 0 := fun hzero => by
    obtain ⟨x, hx, -⟩ := hstable 0
    exact sticky_ne_ok_of_zero hzero _ x hx
  obtain ⟨x, hx, hzip⟩ := getElem?_zipIdx_mod hzero sessionHash
  by_cases hstay : active (x, (sessionHash % UInt32.ofNat xs.length).toNat) = true ∨ UInt32.ofNat xs.length = 1
  · have hchosen := sticky_zipIdx_stay hzero hzip hstay
    obtain ⟨y, hy, rfl⟩ := hstable 0
    rw [hchosen] at hy
    cases hy
    exact ⟨x, hzero, rfl, hx, hchosen, hstay⟩
  · -- the counter would choose, and not the same candidate twice
    rw [not_or] at hstay
    obtain ⟨y, z, hy, hz, hne⟩ := sticky_unstable hzero hstay.2 hzip (Bool.eq_false_iff.2 hstay.1)
    obtain ⟨y', hy', hyk⟩ := hstable 0
    obtain ⟨z', hz', hzk⟩ := hstable 1
    rw [hy] at hy'
    rw [hz] at hz'
    cases hy'
    cases hz'
    exact absurd (hyk.trans hzk.symm) hne

end Place

/-- The host of a session is one that `Cluster.getHostSticky` returns, with what one state shows. -/
theorem Live.getHostSticky_balance {s : Live} {c : Cluster} {sessionId : String} {h : HostId}
    (hh : (s.getHostSticky c sessionId).2 = .ok h) :
    ∃ r node, c.replicas[h.replica]? = some r ∧ r.hosts[h.host]? = some node ∧
      c.getHostSticky (s.nextReplicaIdx + 1) sessionId
        (fun _ j => (s.node ⟨(Utils.hash sessionId % UInt32.ofNat c.replicas.length).toNat, j⟩).active)
        (s.nextHostIdx h.replica + 1)
        (fun _ => (s.node ⟨h.replica, (Utils.hash sessionId % UInt32.ofNat r.hosts.length).toNat⟩).active) =
          .ok node := by
  rw [s.getHostSticky_snd c sessionId] at hh
  obtain ⟨r, hr, hh⟩ := Fallible.bind_ok hh
  obtain ⟨x, hx, rfl⟩ := Fallible.map_ok hh
  have hr : sticky c.replicas.zipIdx _ _ (fun _ => s.isActive) = .ok r := hr
  -- the model with positions chooses what the model without them does
  have hreplica := sticky_fst c.replicas (s.nextReplicaIdx + 1) (Utils.hash sessionId) s.isActive
  have hhost := sticky_fst r.1.hosts (s.nextHostIdx r.2 + 1) (Utils.hash sessionId) fun x => (s.node ⟨r.2, x.2⟩).active
  rw [hr] at hreplica
  rw [hx] at hhost
  have hchosen : c.getReplicaSticky (s.nextReplicaIdx + 1) sessionId
      (fun _ j => (s.node ⟨(Utils.hash sessionId % UInt32.ofNat c.replicas.length).toNat, j⟩).active) = .ok r.1 :=
    hreplica.symm
  refine ⟨r.1, x.1, List.mem_zipIdx_iff_getElem?.1 (mem_of_sticky hr),
    List.mem_zipIdx_iff_getElem?.1 (mem_of_sticky hx), ?_⟩
  rw [Cluster.getHostSticky, hchosen]
  exact hhost.symm

/-! ## Other requests -/

/-- What other requests do to a cluster, apart from changing which hosts are active. -/
inductive Call
  | getHost
  | getHostSticky (sessionId : String)
  | incrementConnections (h : HostId)
  | decrementConnections (h : HostId)
  | penalize (h : HostId)
  | unpenalize (h : HostId)

namespace Live

def call (c : Cluster) (s : Live) : Call → Live
  | .getHost => (s.getHost c).1
  | .getHostSticky sessionId => (s.getHostSticky c sessionId).1
  | .incrementConnections h => s.update h .incrementConnections
  | .decrementConnections h => s.update h .decrementConnections
  | .penalize h => s.update h .penalize
  | .unpenalize h => s.update h .unpenalize

/-- Which hosts are active. -/
def flags (s : Live) (h : HostId) : Bool := (s.node h).active

theorem flags_update (s : Live) (h : HostId) {f : NodeState → NodeState} (hf : ∀ n, (f n).active = n.active) :
    (s.update h f).flags = s.flags := by
  funext h'
  unfold flags
  by_cases heq : h' = h
  · rw [heq, node_update_self]
    exact hf _
  · rw [node_update_of_ne s heq]

theorem flags_getHost (s : Live) (c : Cluster) : (s.getHost c).1.flags = s.flags := by
  unfold getHost
  split <;> rename_i hr <;> cases congrArg Prod.fst hr <;> rfl

theorem flags_getHostSticky (s : Live) (c : Cluster) (sessionId : String) :
    (s.getHostSticky c sessionId).1.flags = s.flags := by
  unfold getHostSticky
  split <;> rename_i hr <;> cases congrArg Prod.fst hr <;> rfl

theorem flags_call (c : Cluster) (s : Live) (a : Call) : (s.call c a).flags = s.flags := by
  cases a with
  | getHost => exact s.flags_getHost c
  | getHostSticky sessionId => exact s.flags_getHostSticky c sessionId
  | incrementConnections h => exact s.flags_update h fun _ => rfl
  | decrementConnections h => exact s.flags_update h fun _ => rfl
  | penalize h => exact s.flags_update h NodeState.active_penalize
  | unpenalize h => exact s.flags_update h fun _ => rfl

theorem flags_calls (c : Cluster) : ∀ (calls : List Call) (s : Live), (calls.foldl (call c) s).flags = s.flags
  | [], _ => rfl
  | a :: calls, s => by rw [List.foldl_cons, flags_calls c calls, flags_call]

end Live

/-! ## Stable and available -/

/-- A session gets the same host from every state with these hosts active, whatever other requests do in between,
and an active one if there is any. -/
def StickyRouting (c : Cluster) (sessionId : String) (flags : HostId → Bool) : Prop :=
  ∃ h, (∀ s : Live, s.flags = flags → ∀ calls : List Call,
      ((calls.foldl (Live.call c) s).getHostSticky c sessionId).2 = .ok h) ∧
    ((∃ h', c.HasHost h' ∧ flags h' = true) → flags h = true)

/-- The host that a session selects, with the counts in 32 bits. -/
def Cluster.stickyHost (c : Cluster) (sessionId : String) : Option HostId :=
  let n := UInt32.ofNat c.replicas.length
  if n = 0 then none
  else
    c.replicas[(Utils.hash sessionId % n).toNat]?.bind fun r =>
      let m := UInt32.ofNat r.hosts.length
      if m = 0 then none else some ⟨(Utils.hash sessionId % n).toNat, (Utils.hash sessionId % m).toNat⟩

/-- There is one replica and it has one host, again in 32 bits. -/
def Cluster.Single (c : Cluster) : Prop :=
  UInt32.ofNat c.replicas.length = 1 ∧ ∀ r, c.replicas[0]? = some r → UInt32.ofNat r.hosts.length = 1

/-! ## What the choice depends on -/

/-- `r.isActive()`, from the active hosts alone. -/
def replicaActive (flags : HostId → Bool) (r : Replica × Nat) : Bool := r.1.isActive fun j => flags ⟨r.2, j⟩

/-- The choice for a session, from the active hosts and the counters alone. -/
def chooseSticky (c : Cluster) (sessionId : String) (flags : HostId → Bool) (idx : UInt32) (hostIdx : Nat → UInt32) :
    Except Failure HostId := do
  let r ← sticky c.replicas.zipIdx idx (Utils.hash sessionId) fun _ => replicaActive flags
  let h ← sticky r.1.hosts.zipIdx (hostIdx r.2) (Utils.hash sessionId) fun _ h => flags ⟨r.2, h.2⟩
  .ok ⟨r.2, h.2⟩

theorem Live.getHostSticky_eq (s : Live) (c : Cluster) (sessionId : String) :
    (s.getHostSticky c sessionId).2 =
      chooseSticky c sessionId s.flags (s.nextReplicaIdx + 1) fun k => s.nextHostIdx k + 1 := by
  rw [s.getHostSticky_snd c sessionId]
  refine congrArg (sticky c.replicas.zipIdx _ _ _ >>= ·) (funext fun r => ?_)
  simp only [replicaGetHostSticky, flags]
  cases sticky r.1.hosts.zipIdx _ _ _ <;> rfl

theorem stickyRouting_iff (c : Cluster) (sessionId : String) (flags : HostId → Bool) :
    StickyRouting c sessionId flags ↔
      ∃ h, (∀ idx hostIdx, chooseSticky c sessionId flags idx hostIdx = .ok h) ∧
        ((∃ h', c.HasHost h' ∧ flags h' = true) → flags h = true) := by
  refine exists_congr fun h => and_congr_left fun _ => ⟨fun hstable idx hostIdx => ?_, fun hstable s hs calls => ?_⟩
  · -- the state in which the counters are about to take these values
    let s : Live := ⟨idx - 1, fun k => hostIdx k - 1, fun h => ⟨flags h, 0, 0⟩⟩
    have hchosen := hstable s rfl []
    rw [List.foldl_nil, s.getHostSticky_eq] at hchosen
    simp only [s, UInt32.sub_add_cancel] at hchosen
    exact hchosen
  · rw [Live.getHostSticky_eq, Live.flags_calls, hs]
    exact hstable _ _

section Choose

variable {c : Cluster} {sessionId : String} {flags : HostId → Bool}

theorem chooseSticky_replica {idx : UInt32} {hostIdx : Nat → UInt32} {h : HostId} {r : Replica × Nat}
    (hr : sticky c.replicas.zipIdx idx (Utils.hash sessionId) (fun _ => replicaActive flags) = .ok r)
    (hh : chooseSticky c sessionId flags idx hostIdx = .ok h) :
    ∃ x, sticky r.1.hosts.zipIdx (hostIdx r.2) (Utils.hash sessionId) (fun _ h => flags ⟨r.2, h.2⟩) = .ok x ∧
      h = ⟨r.2, x.2⟩ := by
  obtain ⟨r', hr', hh⟩ := Fallible.bind_ok hh
  rw [hr] at hr'
  cases hr'
  obtain ⟨x, hx, hh⟩ := Fallible.bind_ok hh
  exact ⟨x, hx, (Except.ok.inj hh).symm⟩

theorem replicaActive_iff {r : Replica × Nat} :
    replicaActive flags r = true ↔ ∃ j < r.1.hosts.length, flags ⟨r.2, j⟩ = true := by
  simp [replicaActive, Replica.isActive, List.any_eq_true]

theorem stickyHost_of {r : Replica} (hzero : UInt32.ofNat c.replicas.length ≠ 0)
    (hr : c.replicas[(Utils.hash sessionId % UInt32.ofNat c.replicas.length).toNat]? = some r)
    (hhosts : UInt32.ofNat r.hosts.length ≠ 0) :
    c.stickyHost sessionId = some ⟨(Utils.hash sessionId % UInt32.ofNat c.replicas.length).toNat,
      (Utils.hash sessionId % UInt32.ofNat r.hosts.length).toNat⟩ := by
  simp only [Cluster.stickyHost, if_neg hzero, hr, Option.bind_some, if_neg hhosts]

theorem stickyHost_eq_some {h : HostId} (hh : c.stickyHost sessionId = some h) :
    ∃ r, UInt32.ofNat c.replicas.length ≠ 0 ∧ UInt32.ofNat r.hosts.length ≠ 0 ∧
      c.replicas[(Utils.hash sessionId % UInt32.ofNat c.replicas.length).toNat]? = some r ∧
      h = ⟨(Utils.hash sessionId % UInt32.ofNat c.replicas.length).toNat,
        (Utils.hash sessionId % UInt32.ofNat r.hosts.length).toNat⟩ := by
  unfold Cluster.stickyHost at hh
  simp only at hh
  split at hh
  · cases hh
  rename_i hzero
  obtain ⟨r, hr, hh⟩ := Option.bind_eq_some_iff.1 hh
  split at hh
  · cases hh
  rename_i hhosts
  cases hh
  exact ⟨r, hzero, hhosts, hr, rfl⟩

/-- When the host of the session is active, or there is no other, it is chosen. -/
theorem chooseSticky_stickyHost {h : HostId} (hh : c.stickyHost sessionId = some h)
    (hstay : flags h = true ∨ c.Single) (idx : UInt32) (hostIdx : Nat → UInt32) :
    chooseSticky c sessionId flags idx hostIdx = .ok h := by
  obtain ⟨r, hzero, hhosts, hr, rfl⟩ := stickyHost_eq_some hh
  obtain ⟨r', hr', hzip⟩ := getElem?_zipIdx_mod hzero (Utils.hash sessionId)
  obtain rfl := Option.some.inj (hr.symm.trans hr')
  obtain ⟨node, hnode, hzip'⟩ := getElem?_zipIdx_mod hhosts (Utils.hash sessionId)
  have hlt := (List.getElem?_eq_some_iff.1 hnode).1
  have hfirst : UInt32.ofNat c.replicas.length = 1 → c.replicas[0]? = some r := fun hone => by
    rwa [hone, mod_one] at hr
  generalize (Utils.hash sessionId % UInt32.ofNat c.replicas.length).toNat = k at hstay hzip
  generalize (Utils.hash sessionId % UInt32.ofNat r.hosts.length).toNat = j at hstay hzip' hlt
  -- the replica of the session stays, as it has an active host or is the only one
  have hreplica : replicaActive flags (r, k) = true ∨ UInt32.ofNat c.replicas.length = 1 :=
    hstay.imp (fun ha => replicaActive_iff.2 ⟨j, hlt, ha⟩) And.left
  have hhost : flags ⟨k, j⟩ = true ∨ UInt32.ofNat r.hosts.length = 1 :=
    hstay.imp_right fun hsingle => hsingle.2 r (hfirst hsingle.1)
  unfold chooseSticky
  rw [sticky_zipIdx_stay hzero hzip hreplica idx]
  show (sticky r.hosts.zipIdx _ _ _ >>= _) = _
  rw [sticky_zipIdx_stay hhosts hzip' hhost _]
  rfl

/-- A choice that never changes is that of the session, and the host is active or there is no other, unless some
other host is active. -/
theorem stickyHost_of_stable {h : HostId}
    (hstable : ∀ idx hostIdx, chooseSticky c sessionId flags idx hostIdx = .ok h) :
    c.stickyHost sessionId = some h ∧ (c.Single ∨ ∃ h', c.HasHost h' ∧ flags h' = true) := by
  have hreplica : ∀ idx, ∃ r,
      sticky c.replicas.zipIdx idx (Utils.hash sessionId) (fun _ => replicaActive flags) = .ok r ∧
      r.2 = h.replica := fun idx => by
    obtain ⟨r, hr, hh⟩ := Fallible.bind_ok (hstable idx fun _ => 0)
    obtain ⟨x, -, hh⟩ := Fallible.bind_ok hh
    exact ⟨r, hr, by rw [← Except.ok.inj hh]⟩
  obtain ⟨r, hzero, hk, hr, hchosen, hreason⟩ := sticky_stable hreplica
  -- within the replica the choice of the host has the same form
  have hhost : ∀ idx, ∃ x, sticky r.hosts.zipIdx idx (Utils.hash sessionId)
      (fun _ x => flags ⟨h.replica, x.2⟩) = .ok x ∧ x.2 = h.host := fun idx => by
    obtain ⟨x, hx, hh⟩ := chooseSticky_replica (hchosen 0) (hstable 0 fun _ => idx)
    exact ⟨x, hx, by rw [hh]⟩
  obtain ⟨node, hhosts, hj, hnode, -, hreason'⟩ := sticky_stable hhost
  refine ⟨?_, ?_⟩
  · rw [hk] at hr
    rw [stickyHost_of hzero hr hhosts, ← hk, ← hj]
  · have hmem : (r, h.replica) ∈ c.replicas.zipIdx := List.mem_zipIdx_iff_getElem?.2 hr
    -- without an active host the choice does not depend on the index only if there is one candidate
    rcases hreason with ha | hone
    · obtain ⟨j, hlt, ha⟩ := replicaActive_iff.1 ha
      exact .inr ⟨⟨h.replica, j⟩, ⟨_, hmem, rfl, hlt⟩, ha⟩
    rcases hreason' with ha | hone'
    · exact .inr ⟨h, ⟨_, hmem, rfl, (List.getElem?_eq_some_iff.1 hnode).1⟩, ha⟩
    · refine .inl ⟨hone, fun r' hr' => ?_⟩
      rw [hk, hone, mod_one, hr'] at hr
      cases hr
      exact hone'

end Choose

/-- Sticky routing is stable and available exactly when the host that the session selects is active, or there is no
other host and it is not active either. -/
theorem sticky_routing_iff (c : Cluster) (sessionId : String) (flags : HostId → Bool) :
    StickyRouting c sessionId flags ↔
      ∃ h, c.stickyHost sessionId = some h ∧
        (flags h = true ∨ c.Single ∧ ∀ h', c.HasHost h' → flags h' = false) := by
  rw [stickyRouting_iff]
  constructor
  · rintro ⟨h, hstable, havailable⟩
    obtain ⟨hh, hreason⟩ := stickyHost_of_stable hstable
    refine ⟨h, hh, ?_⟩
    by_cases hactive : ∃ h', c.HasHost h' ∧ flags h' = true
    · exact .inl (havailable hactive)
    · have hnone : ∀ h', c.HasHost h' → flags h' = false := fun h' hh' =>
        Bool.eq_false_iff.2 fun ha => hactive ⟨h', hh', ha⟩
      exact .inr ⟨hreason.resolve_right hactive, hnone⟩
  · rintro ⟨h, hh, hstay⟩
    refine ⟨h, chooseSticky_stickyHost hh (hstay.imp_right And.left), fun hactive => ?_⟩
    rcases hstay with ha | ⟨-, hnone⟩
    · exact ha
    · obtain ⟨h', hmem, ha⟩ := hactive
      rw [hnone h' hmem] at ha
      cases ha

/-- The second host is active and has three connections. -/
def pairLive : Live := ⟨0, fun _ => 0, fun h => if h.host = 1 then ⟨true, 3, 0⟩ else ⟨false, 0, 0⟩⟩

/-- The session selects the first of two hosts, which is not active. It gets the second one, and the next time the
first one. -/
theorem sticky_alternates :
    (pairLive.getHostSticky pairCluster "a").2 = .ok ⟨0, 1⟩ ∧
    ((pairLive.call pairCluster (.getHostSticky "a")).getHostSticky pairCluster "a").2 = .ok ⟨0, 0⟩ ∧
    pairLive.flags ⟨0, 0⟩ = false ∧ pairLive.flags ⟨0, 1⟩ = true ∧ ¬StickyRouting pairCluster "a" pairLive.flags := by
  have hfirst : (pairLive.getHostSticky pairCluster "a").2 = .ok ⟨0, 1⟩ := by rfl
  have hsecond :
      ((pairLive.call pairCluster (.getHostSticky "a")).getHostSticky pairCluster "a").2 = .ok ⟨0, 0⟩ := by rfl
  refine ⟨hfirst, hsecond, rfl, rfl, ?_⟩
  rintro ⟨h, hstable, -⟩
  have hone := hstable pairLive rfl []
  have htwo := hstable pairLive rfl [.getHostSticky "a"]
  rw [List.foldl_nil, hfirst] at hone
  rw [List.foldl_cons, List.foldl_nil, hsecond, ← hone] at htwo
  cases htwo

end Chproxy.Routing
