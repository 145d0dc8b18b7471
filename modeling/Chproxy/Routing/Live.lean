/-
A cluster while it serves requests (`scope.go`, `internal/topology/node.go`): the round-robin counters and, for
each node, whether it is active and its load. What `Routing.Balance` takes as read by each check is here read
from one state, and the choice is the least loaded candidate in round-robin order.
-/
import Chproxy.Lib.Leftmost
import Chproxy.Routing.Balance
import Mathlib.Algebra.Order.BigOperators.Group.List
import Mathlib.Algebra.Order.Ring.Nat

namespace Chproxy.Routing

/-! ## Nodes -/

/-- A `*topology.Node`: the place at which the cluster keeps it. -/
structure HostId where
  replica : Nat
  host : Nat
  deriving DecidableEq, Repr

/-- What changes in a `topology.Node`. -/
structure NodeState where
  active : Bool
  connections : UInt32
  penalty : UInt32
  deriving DecidableEq, Repr

namespace NodeState

def defaultPenaltySize : UInt32 := 5

def defaultMaxSize : UInt32 := 300

def setIsActive (n : NodeState) (active : Bool) : NodeState := { n with active := active }

def penalize (n : NodeState) : NodeState :=
  if n.penalty ≥ defaultMaxSize then n else { n with penalty := n.penalty + defaultPenaltySize }

/-- What `time.AfterFunc` does once the penalty is over. -/
def unpenalize (n : NodeState) : NodeState := { n with penalty := n.penalty - defaultPenaltySize }

def currentLoad (n : NodeState) : UInt32 := n.connections + n.penalty

def incrementConnections (n : NodeState) : NodeState := { n with connections := n.connections + 1 }

def decrementConnections (n : NodeState) : NodeState := { n with connections := n.connections - 1 }

theorem active_incrementConnections (n : NodeState) : n.incrementConnections.active = n.active := rfl

theorem active_decrementConnections (n : NodeState) : n.decrementConnections.active = n.active := rfl

@[simp] theorem active_penalize (n : NodeState) : n.penalize.active = n.active := by
  unfold penalize
  split <;> rfl

end NodeState

/-- What changes in a `cluster`: its counter, those of the replicas and the nodes. -/
structure Live where
  nextReplicaIdx : UInt32
  nextHostIdx : Nat → UInt32
  node : HostId → NodeState

namespace Live

/-- A change of one node. -/
def update (s : Live) (h : HostId) (f : NodeState → NodeState) : Live :=
  { s with node := Function.update s.node h (f (s.node h)) }

@[simp] theorem node_update_self (s : Live) (h : HostId) (f : NodeState → NodeState) :
    (s.update h f).node h = f (s.node h) := Function.update_self ..

@[simp] theorem node_update_of_ne (s : Live) {h h' : HostId} (hne : h' ≠ h) (f : NodeState → NodeState) :
    (s.update h f).node h' = s.node h' := Function.update_of_ne hne ..

variable (s : Live) (c : Cluster)

/-- `r.load()` and `r.isActive()`, for a replica and its place. -/
def load (r : Replica × Nat) : UInt32 := r.1.load fun j => (s.node ⟨r.2, j⟩).currentLoad

def isActive (r : Replica × Nat) : Bool := r.1.isActive fun j => (s.node ⟨r.2, j⟩).active

/-! ## `getReplica` and `getHost` -/

def getReplica : Live × Except Failure (Replica × Nat) :=
  let idx := s.nextReplicaIdx + 1
  ({ s with nextReplicaIdx := idx }, leastLoaded c.replicas.zipIdx idx (fun _ r => s.load r) fun _ r => s.isActive r)

def getReplicaSticky (sessionId : String) : Live × Except Failure (Replica × Nat) :=
  let idx := s.nextReplicaIdx + 1
  ({ s with nextReplicaIdx := idx }, sticky c.replicas.zipIdx idx (Utils.hash sessionId) fun _ r => s.isActive r)

/-- `atomic.AddUint32(&r.nextHostIdx, 1)`. -/
def addHostIdx (k : Nat) : Live := { s with nextHostIdx := Function.update s.nextHostIdx k (s.nextHostIdx k + 1) }

/-- `replica.getHost`. -/
def replicaGetHost (r : Replica × Nat) : Live × Except Failure HostId :=
  let idx := s.nextHostIdx r.2 + 1
  (s.addHostIdx r.2, (leastLoaded r.1.hosts.zipIdx idx (fun _ h => (s.node ⟨r.2, h.2⟩).currentLoad)
    fun _ h => (s.node ⟨r.2, h.2⟩).active).map fun h => ⟨r.2, h.2⟩)

/-- `replica.getHostSticky`. -/
def replicaGetHostSticky (r : Replica × Nat) (sessionId : String) : Live × Except Failure HostId :=
  let idx := s.nextHostIdx r.2 + 1
  (s.addHostIdx r.2, (sticky r.1.hosts.zipIdx idx (Utils.hash sessionId)
    fun _ h => (s.node ⟨r.2, h.2⟩).active).map fun h => ⟨r.2, h.2⟩)

def getHost : Live × Except Failure HostId :=
  match s.getReplica c with
  | (s, .error e) => (s, .error e)
  | (s, .ok r) => s.replicaGetHost r

def getHostSticky (sessionId : String) : Live × Except Failure HostId :=
  match s.getReplicaSticky c sessionId with
  | (s, .error e) => (s, .error e)
  | (s, .ok r) => s.replicaGetHostSticky r sessionId

end Live

/-- A host of a cluster and its place. -/
structure Target where
  id : HostId
  node : Node

/-- What a call of `getHost` reads while other requests are at work: the two counters and, at each check, what the
hosts of the candidate show. -/
structure Reads where
  idx : UInt32
  load : UInt32 → Nat → UInt32
  active : UInt32 → Nat → Bool
  hostIdx : UInt32
  hostLoad : UInt32 → UInt32
  hostActive : UInt32 → Bool

/-- `cluster.getHost` with what it reads; `Cluster.getHost`, with the place of the host. -/
def Cluster.getHostReading (c : Cluster) (rd : Reads) : Except Failure Target := do
  let r ← leastLoaded c.replicas.zipIdx rd.idx (fun i r => r.1.load (rd.load i)) fun i r => r.1.isActive (rd.active i)
  let h ← leastLoaded r.1.hosts.zipIdx rd.hostIdx (fun i _ => rd.hostLoad i) fun i _ => rd.hostActive i
  .ok ⟨⟨r.2, h.2⟩, h.1⟩

/-! ## The least loaded candidate -/

section Least

variable {α : Type} (xs : List α) (load : α → UInt32) (active : α → Bool)

/-- What the scan compares: least priority to an inactive candidate. -/
def rank (k : Nat) : Nat :=
  match xs[k]? with
  | none => 4294967295
  | some x => if active x then (load x).toNat else 4294967295

variable {xs load active}

theorem rank_active {k : Nat} {x : α} (hx : xs[k]? = some x) (ha : active x = true) :
    rank xs load active k = (load x).toNat := by
  simp only [rank, hx, if_pos ha]

theorem rank_inactive {k : Nat} {x : α} (hx : xs[k]? = some x) (ha : active x = false) :
    rank xs load active k = 4294967295 := by
  simp only [rank, hx, ha, Bool.false_eq_true, if_false]

/-- What the first candidate is compared with. -/
theorem toNat_first {k : Nat} {x : α} (hx : xs[k]? = some x) :
    (if active x = true then load x else 0xffffffff).toNat = rank xs load active k := by
  cases ha : active x with
  | false => rw [rank_inactive hx ha]; rfl
  | true => rw [rank_active hx ha]; rfl

theorem rank_le (k : Nat) : rank xs load active k ≤ 4294967295 := by
  unfold rank
  split
  · exact Nat.le_refl _
  · rename_i x _
    split
    · exact Nat.le_of_lt_succ (load x).toNat_lt
    · exact Nat.le_refl _

/-- The candidate of a check, when the sum does not leave 32 bits. -/
theorem toNat_add_mod {idx : UInt32} {n i : Nat} (hn : n < 2 ^ 31) (hidx : idx.toNat < n) (hi : i < n) :
    ((idx + UInt32.ofNat i) % UInt32.ofNat n).toNat = (idx.toNat + i) % n := by
  have hsize : 2 ^ 31 < UInt32.size := by decide
  rw [UInt32.toNat_mod, UInt32.toNat_add, UInt32.toNat_ofNat_of_lt' (by omega), UInt32.toNat_ofNat_of_lt' (by omega),
    Nat.mod_eq_of_lt (a := idx.toNat + i) (by omega)]

/-- The scan from the `i`-th check on, with the best of the checks before it, none of which was free. -/
theorem scanLeastLoaded_leftmost {idx : UInt32} (hn : xs.length < 2 ^ 31) (hidx : idx.toNat < xs.length) :
    ∀ (m : Nat) {i d : Nat} {r : α} {reqs : UInt32}, i + m = xs.length →
      Leftmost (fun d => rank xs load active ((idx.toNat + d) % xs.length)) i d →
      xs[(idx.toNat + d) % xs.length]? = some r → reqs.toNat = rank xs load active ((idx.toNat + d) % xs.length) →
      reqs ≠ 0 →
      ∃ d' x, xs[(idx.toNat + d') % xs.length]? = some x ∧
        Leftmost (fun d => rank xs load active ((idx.toNat + d) % xs.length)) xs.length d' ∧
        scanLeastLoaded xs (UInt32.ofNat xs.length) idx (fun _ => load) (fun _ => active)
          ((List.range' i m).map UInt32.ofNat) r reqs = .ok x
  | 0, i, d, r, reqs, him, hd, hr, hreqs, hne => by
    rw [Nat.add_zero] at him
    exact ⟨d, r, hr, him ▸ hd, rfl⟩
  | m + 1, i, d, r, reqs, him, hd, hr, hreqs, hne => by
    have hi : i < xs.length := by omega
    have hpos : (idx.toNat + i) % xs.length < xs.length := Nat.mod_lt _ (by omega)
    obtain ⟨x, hx⟩ : ∃ x, xs[(idx.toNat + i) % xs.length]? = some x := ⟨_, List.getElem?_eq_getElem hpos⟩
    have hnext : i + 1 + m = xs.length := by omega
    rw [List.range'_succ, List.map_cons, scanLeastLoaded, toNat_add_mod hn hidx hi, hx]
    simp only
    cases ha : active x with
    | false =>
      rw [if_neg (by simp)]
      refine scanLeastLoaded_leftmost hn hidx m hnext (hd.keep ?_) hr hreqs hne
      -- an inactive candidate ranks last
      simp only [rank_inactive hx ha]
      exact rank_le _
    | true =>
      have hrank : rank xs load active ((idx.toNat + i) % xs.length) = (load x).toNat := rank_active hx ha
      rw [if_pos rfl]
      by_cases hzero : load x = 0
      · rw [if_pos hzero]
        have hfree : rank xs load active ((idx.toNat + i) % xs.length) = 0 := by rw [hrank, hzero]; rfl
        have hpos : 0 < reqs.toNat := Nat.pos_of_ne_zero fun h => hne (UInt32.toNat_inj.1 h)
        -- a free candidate ends the scan, and no later one ranks below it
        have hbest := hd.replace (by rw [hfree, ← hreqs]; exact hpos)
        exact ⟨i, x, hx, hbest.extend hi fun e => by rw [hfree]; exact Nat.zero_le _, rfl⟩
      · rw [if_neg hzero]
        by_cases hlt : load x < reqs
        · rw [if_pos hlt]
          refine scanLeastLoaded_leftmost hn hidx m hnext (hd.replace ?_) hx hrank.symm hzero
          rw [hrank, ← hreqs]
          exact UInt32.lt_iff_toNat_lt.1 hlt
        · rw [if_neg hlt]
          refine scanLeastLoaded_leftmost hn hidx m hnext (hd.keep ?_) hr hreqs hne
          rw [hrank, ← hreqs]
          exact Nat.le_of_not_lt fun h => hlt (UInt32.lt_iff_toNat_lt.2 h)

/-- The candidate chosen has the lowest rank, and is the first with it from the index on. -/
theorem leastLoaded_leftmost (load : α → UInt32) (active : α → Bool) (hpos : 0 < xs.length) (hn : xs.length < 2 ^ 31)
    (idx : UInt32) :
    ∃ d x, xs[(idx.toNat + d) % xs.length]? = some x ∧
      Leftmost (fun d => rank xs load active ((idx.toNat + d) % xs.length)) xs.length d ∧
      leastLoaded xs idx (fun _ => load) (fun _ => active) = .ok x := by
  have hlength : (UInt32.ofNat xs.length).toNat = xs.length :=
    UInt32.toNat_ofNat_of_lt' (Nat.lt_trans hn (by decide))
  unfold leastLoaded startAt
  dsimp only
  by_cases hone : UInt32.ofNat xs.length = 1
  · have hlen : xs.length = 1 := by rw [← hlength, hone]; rfl
    rw [if_pos hone, hlen]
    obtain ⟨x, rfl⟩ := List.length_eq_one_iff.1 hlen
    refine ⟨0, x, by rw [Nat.mod_one]; rfl, Leftmost.one _, rfl⟩
  · have hzero : UInt32.ofNat xs.length ≠ 0 := fun h => by
      rw [h] at hlength
      exact absurd hlength (by rw [UInt32.toNat_zero]; omega)
    have hstart : (idx % UInt32.ofNat xs.length).toNat = idx.toNat % xs.length := by rw [UInt32.toNat_mod, hlength]
    have hlt : (idx % UInt32.ofNat xs.length).toNat < xs.length := by
      rw [hstart]
      exact Nat.mod_lt _ hpos
    have hshift : ∀ d, (idx.toNat + d) % xs.length = ((idx % UInt32.ofNat xs.length).toNat + d) % xs.length :=
      fun d => by rw [hstart, Nat.mod_add_mod]
    obtain ⟨r, hr⟩ : ∃ r, xs[(idx % UInt32.ofNat xs.length).toNat]? = some r := ⟨_, List.getElem?_eq_getElem hlt⟩
    rw [if_neg hone, if_neg hzero, hr]
    simp only [hshift]
    -- from here on the index is the reduced one
    generalize idx % UInt32.ofNat xs.length = idx at hlt hr
    have hfirst : (idx.toNat + 0) % xs.length = idx.toNat := Nat.mod_eq_of_lt hlt
    have hrank : (if active r = true then load r else 0xffffffff).toNat = rank xs load active idx.toNat :=
      toNat_first hr
    have hseed := Leftmost.one fun d => rank xs load active ((idx.toNat + d) % xs.length)
    by_cases hfree : (if active r = true then load r else 0xffffffff) = 0
    · rw [if_pos hfree]
      refine ⟨0, r, by rw [hfirst, hr], hseed.extend hpos fun e => ?_, rfl⟩
      rw [hfirst, ← hrank, hfree]
      exact Nat.zero_le _
    · rw [if_neg hfree, loopIndices, hlength]
      exact scanLeastLoaded_leftmost hn hlt (xs.length - 1) (by omega) hseed (by rw [hfirst, hr])
        (by rw [hfirst, hrank]) hfree

/-- An active candidate whose load is minimal among the active ones. -/
def LeastActive (xs : List α) (load : α → Nat) (active : α → Bool) (k : Nat) : Prop :=
  ∃ x, xs[k]? = some x ∧ active x = true ∧ ∀ y ∈ xs, active y = true → load x ≤ load y

/-- When some candidate is active, the lowest rank is that of an active one with minimal load. -/
theorem rank_least_iff (hload : ∀ x ∈ xs, (load x).toNat < 4294967295) (hactive : ∃ x ∈ xs, active x = true) {k : Nat}
    (hk : k < xs.length) :
    (∀ j < xs.length, rank xs load active k ≤ rank xs load active j) ↔
      LeastActive xs (fun x => (load x).toNat) active k := by
  have hget : xs[k]? = some xs[k] := List.getElem?_eq_getElem hk
  constructor
  · intro h
    obtain ⟨y, hy, hya⟩ := hactive
    obtain ⟨j, hj, rfl⟩ := List.getElem_of_mem hy
    have hle := h j hj
    rw [rank_active (List.getElem?_eq_getElem hj) hya] at hle
    -- an inactive candidate ranks above every load that is counted
    have hka : active xs[k] = true := by
      cases ha : active xs[k] with
      | true => rfl
      | false =>
        rw [rank_inactive hget ha] at hle
        exact absurd (hload _ hy) (by omega)
    refine ⟨_, hget, hka, fun z hz hza => ?_⟩
    obtain ⟨i, hi, rfl⟩ := List.getElem_of_mem hz
    have hle := h i hi
    rwa [rank_active hget hka, rank_active (List.getElem?_eq_getElem hi) hza] at hle
  · rintro ⟨x, hx, hxa, hmin⟩ j hj
    have hjget := List.getElem?_eq_getElem hj
    rw [rank_active hx hxa]
    cases ha : active xs[j] with
    | true =>
      rw [rank_active hjget ha]
      exact hmin _ (List.getElem_mem hj) ha
    | false =>
      rw [rank_inactive hjget ha]
      exact Nat.le_of_lt (hload x (List.mem_of_getElem? hx))

/-- The first, in cyclic order from the index on, of the active candidates with minimal load. -/
theorem leastLoaded_firstFrom (hn : xs.length < 2 ^ 31) (idx : UInt32)
    (hload : ∀ x ∈ xs, (load x).toNat < 4294967295) (hactive : ∃ x ∈ xs, active x = true) :
    ∃ k x, xs[k]? = some x ∧ leastLoaded xs idx (fun _ => load) (fun _ => active) = .ok x ∧
      FirstFrom xs.length idx.toNat (LeastActive xs (fun x => (load x).toNat) active) k := by
  have hpos : 0 < xs.length := by
    obtain ⟨x, hx, -⟩ := hactive
    exact List.length_pos_of_mem hx
  obtain ⟨d, x, hx, hleft, hchosen⟩ := leastLoaded_leftmost load active hpos hn idx
  exact ⟨_, x, hx, hchosen, hleft.firstFrom.congr fun j hj => rank_least_iff hload hactive hj⟩

end Least

/-! ## Reading from one state -/

section Place

variable {α : Type}

/-- The place of the candidate that the `i`-th check looks at. -/
def place (xs : List α) (idx i : UInt32) : Nat :=
  ((idx % UInt32.ofNat xs.length + i) % UInt32.ofNat xs.length).toNat

/-- Candidates with their places are chosen as the candidates are, when the scans choose them so. -/
theorem startAt_fst (xs : List α) (idx : UInt32) {scan : UInt32 → UInt32 → α × Nat → Except Failure (α × Nat)}
    {scan' : UInt32 → UInt32 → α → Except Failure α}
    (h : ∀ idx r, (scan (UInt32.ofNat xs.length) idx r).map Prod.fst = scan' (UInt32.ofNat xs.length) idx r.1) :
    (startAt xs.zipIdx idx scan).map Prod.fst = startAt xs idx scan' := by
  unfold startAt
  simp only [List.length_zipIdx, List.getElem?_zipIdx]
  split
  · cases xs[0]? <;> rfl
  split
  · rfl
  cases xs[(idx % UInt32.ofNat xs.length).toNat]? with
  | none => rfl
  | some r => exact h _ _

theorem scanLeastLoaded_fst (xs : List α) (n idx : UInt32) (load : UInt32 → α → UInt32) (active : UInt32 → α → Bool) :
    ∀ (is : List UInt32) (r : α × Nat) (reqs : UInt32),
      (scanLeastLoaded xs.zipIdx n idx (fun i x => load i x.1) (fun i x => active i x.1) is r reqs).map Prod.fst =
        scanLeastLoaded xs n idx load active is r.1 reqs
  | [], r, reqs => rfl
  | i :: is, r, reqs => by
    rw [scanLeastLoaded, scanLeastLoaded, List.getElem?_zipIdx]
    cases xs[((idx + i) % n).toNat]? with
    | none => rfl
    | some x =>
      simp only [Option.map_some]
      split
      · split
        · rfl
        split
        · exact scanLeastLoaded_fst xs n idx load active is _ _
        · exact scanLeastLoaded_fst xs n idx load active is _ _
      · exact scanLeastLoaded_fst xs n idx load active is _ _

theorem leastLoaded_fst (xs : List α) (idx : UInt32) (load : UInt32 → α → UInt32) (active : UInt32 → α → Bool) :
    (leastLoaded xs.zipIdx idx (fun i x => load i x.1) fun i x => active i x.1).map Prod.fst =
      leastLoaded xs idx load active := by
  refine startAt_fst xs idx fun idx r => ?_
  dsimp only
  generalize (if active 0 r.1 = true then load 0 r.1 else 0xffffffff) = reqs
  by_cases hfree : reqs = 0
  · rw [if_pos hfree, if_pos hfree]
    rfl
  · rw [if_neg hfree, if_neg hfree]
    exact scanLeastLoaded_fst xs _ _ load active _ _ _

/-- What a check reads at its place can be told from the number of the check. -/
theorem scanLeastLoaded_place (xs : List α) (n idx : UInt32) (load : α × Nat → UInt32) (active : α × Nat → Bool) :
    ∀ (is : List UInt32) (r : α × Nat) (reqs : UInt32),
      scanLeastLoaded xs.zipIdx n idx (fun _ => load) (fun _ => active) is r reqs =
        scanLeastLoaded xs.zipIdx n idx (fun i x => load (x.1, ((idx + i) % n).toNat))
          (fun i x => active (x.1, ((idx + i) % n).toNat)) is r reqs
  | [], r, reqs => rfl
  | i :: is, r, reqs => by
    rw [scanLeastLoaded, scanLeastLoaded, List.getElem?_zipIdx]
    cases xs[((idx + i) % n).toNat]? with
    | none => rfl
    | some x => simp only [Option.map_some, Nat.zero_add, scanLeastLoaded_place xs n idx load active is]

theorem mod_add_zero_mod (i n : UInt32) : (i % n + 0) % n = i % n := by
  rw [UInt32.add_zero]
  refine UInt32.toNat_inj.1 ?_
  rw [UInt32.toNat_mod, UInt32.toNat_mod]
  exact Nat.mod_mod _ _

theorem leastLoaded_place (xs : List α) (idx : UInt32) (load : α × Nat → UInt32) (active : α × Nat → Bool) :
    leastLoaded xs.zipIdx idx (fun _ => load) (fun _ => active) =
      leastLoaded xs.zipIdx idx (fun i x => load (x.1, place xs idx i)) fun i x => active (x.1, place xs idx i) := by
  unfold leastLoaded startAt place
  simp only [List.length_zipIdx, List.getElem?_zipIdx, mod_add_zero_mod]
  split
  · rfl
  split
  · rfl
  cases xs[(idx % UInt32.ofNat xs.length).toNat]? with
  | none => rfl
  | some r => simp only [Option.map_some, Nat.zero_add, scanLeastLoaded_place xs _ _ load active]

theorem mem_of_sticky {xs : List α} {idx sessionHash : UInt32} {active : UInt32 → α → Bool} {x : α}
    (h : sticky xs idx sessionHash active = .ok x) : x ∈ xs := by
  by_cases hn : 2 ^ 32 ∣ xs.length
  · rw [show sticky xs idx sessionHash active = .error .panic from startAt_panic hn idx _] at h
    cases h
  · obtain ⟨y, hy, hchosen⟩ := sticky_mem hn idx sessionHash active
    rw [h] at hchosen
    cases hchosen
    exact hy

end Place

namespace Live

variable (s : Live) (c : Cluster)

/-- The counter of the replicas has no part in the choice of a host. -/
theorem getHost_snd : (s.getHost c).2 = (s.getReplica c).2 >>= fun r => (s.replicaGetHost r).2 := by
  unfold getHost
  cases hr : (s.getReplica c).2 with
  | error e => rw [show s.getReplica c = (_, .error e) from Prod.ext rfl hr]; rfl
  | ok r => rw [show s.getReplica c = (_, .ok r) from Prod.ext rfl hr]; rfl

theorem getHostSticky_snd (sessionId : String) :
    (s.getHostSticky c sessionId).2 =
      (s.getReplicaSticky c sessionId).2 >>= fun r => (s.replicaGetHostSticky r sessionId).2 := by
  unfold getHostSticky
  cases hr : (s.getReplicaSticky c sessionId).2 with
  | error e => rw [show s.getReplicaSticky c sessionId = (_, .error e) from Prod.ext rfl hr]; rfl
  | ok r => rw [show s.getReplicaSticky c sessionId = (_, .ok r) from Prod.ext rfl hr]; rfl

/-- What a call of `getHost` reads in one state. -/
def reads (r : Replica × Nat) : Reads where
  idx := s.nextReplicaIdx + 1
  load i j := (s.node ⟨place c.replicas (s.nextReplicaIdx + 1) i, j⟩).currentLoad
  active i j := (s.node ⟨place c.replicas (s.nextReplicaIdx + 1) i, j⟩).active
  hostIdx := s.nextHostIdx r.2 + 1
  hostLoad i := (s.node ⟨r.2, place r.1.hosts (s.nextHostIdx r.2 + 1) i⟩).currentLoad
  hostActive i := (s.node ⟨r.2, place r.1.hosts (s.nextHostIdx r.2 + 1) i⟩).active

/-- One state is one of the readings: what it shows does not change between the checks. -/
theorem getHost_reads {r : Replica × Nat} (hr : (s.getReplica c).2 = .ok r) :
    (s.getHost c).2 = (c.getHostReading (s.reads c r)).map Target.id := by
  have hreplica : leastLoaded c.replicas.zipIdx (s.reads c r).idx (fun i x => x.1.load ((s.reads c r).load i))
      (fun i x => x.1.isActive ((s.reads c r).active i)) = .ok r := by
    rw [← hr]
    exact (leastLoaded_place c.replicas (s.nextReplicaIdx + 1) s.load s.isActive).symm
  have hhost : leastLoaded r.1.hosts.zipIdx (s.reads c r).hostIdx (fun i _ => (s.reads c r).hostLoad i)
      (fun i _ => (s.reads c r).hostActive i) = _ :=
    (leastLoaded_place r.1.hosts (s.nextHostIdx r.2 + 1) (fun h => (s.node ⟨r.2, h.2⟩).currentLoad)
      fun h => (s.node ⟨r.2, h.2⟩).active).symm
  rw [s.getHost_snd c, hr, Cluster.getHostReading, hreplica]
  show (leastLoaded r.1.hosts.zipIdx _ _ _).map _ = Except.map _ (leastLoaded r.1.hosts.zipIdx _ _ _ >>= _)
  rw [hhost]
  cases leastLoaded r.1.hosts.zipIdx (s.nextHostIdx r.2 + 1) (fun _ h => (s.node ⟨r.2, h.2⟩).currentLoad)
    fun _ h => (s.node ⟨r.2, h.2⟩).active <;> rfl

end Live

/-- The host is the one that `Cluster.getHost` returns when it reads the same. -/
theorem Cluster.getHostReading_node (c : Cluster) (rd : Reads) :
    (c.getHostReading rd).map Target.node =
      c.getHost rd.idx rd.load rd.active rd.hostIdx rd.hostLoad rd.hostActive := by
  have hreplica := leastLoaded_fst c.replicas rd.idx (fun i r => r.load (rd.load i)) fun i r => r.isActive (rd.active i)
  unfold getHostReading getHost getReplica
  rw [← hreplica]
  cases leastLoaded c.replicas.zipIdx rd.idx (fun i r => r.1.load (rd.load i)) fun i r =>
    r.1.isActive (rd.active i) with
  | error e => rfl
  | ok r =>
    have hhost := leastLoaded_fst r.1.hosts rd.hostIdx (fun i _ => rd.hostLoad i) fun i _ => rd.hostActive i
    show Except.map Target.node (_ >>= fun h : Node × Nat => .ok ⟨⟨r.2, h.2⟩, h.1⟩) =
      r.1.getHost rd.hostIdx rd.hostLoad rd.hostActive
    rw [Replica.getHost, ← hhost]
    cases leastLoaded r.1.hosts.zipIdx rd.hostIdx (fun i _ => rd.hostLoad i) fun i _ => rd.hostActive i <;> rfl

namespace Live

variable (s : Live) (c : Cluster)

/-! ## Least loaded, in round-robin order -/

/-- The load of a replica as a number. -/
def total (r : Replica × Nat) : Nat :=
  ((List.range r.1.hosts.length).map fun j => (s.node ⟨r.2, j⟩).currentLoad.toNat).sum

theorem toNat_foldl_add (f : Nat → UInt32) : ∀ (js : List Nat) (reqs : UInt32),
    reqs.toNat + (js.map fun j => (f j).toNat).sum < 2 ^ 32 →
      (js.foldl (fun reqs j => reqs + f j) reqs).toNat = reqs.toNat + (js.map fun j => (f j).toNat).sum
  | [], reqs, _ => rfl
  | j :: js, reqs, h => by
    rw [List.map_cons, List.sum_cons] at h ⊢
    have hadd : (reqs + f j).toNat = reqs.toNat + (f j).toNat := by
      rw [UInt32.toNat_add]
      exact Nat.mod_eq_of_lt (by omega)
    rw [List.foldl_cons, toNat_foldl_add f js _ (by rw [hadd]; omega), hadd]
    omega

theorem toNat_load {r : Replica × Nat} (h : s.total r < 2 ^ 32) : (s.load r).toNat = s.total r := by
  unfold load Replica.load
  rw [toNat_foldl_add _ _ 0 (by rw [UInt32.toNat_zero, Nat.zero_add]; exact h), UInt32.toNat_zero, Nat.zero_add]
  rfl

theorem currentLoad_le_total {r : Replica × Nat} {j : Nat} (hj : j < r.1.hosts.length) :
    (s.node ⟨r.2, j⟩).currentLoad.toNat ≤ s.total r :=
  List.single_le_sum (fun _ _ => Nat.zero_le _) _ (List.mem_map_of_mem (List.mem_range.2 hj))

theorem isActive_iff {r : Replica × Nat} :
    s.isActive r = true ↔ ∃ j < r.1.hosts.length, (s.node ⟨r.2, j⟩).active = true := by
  simp [isActive, Replica.isActive, List.any_eq_true]

/-- The loads are below `2 ^ 32 - 1`, and the sums do not leave 32 bits. -/
def Measured : Prop := ∀ r ∈ c.replicas.zipIdx, s.total r < 2 ^ 32 - 1

/-- The first of the active replicas with minimal load. -/
def FirstReplica (k : Nat) : Prop :=
  FirstFrom c.replicas.length (s.nextReplicaIdx + 1).toNat (LeastActive c.replicas.zipIdx s.total s.isActive) k

/-- The first of the active hosts of a replica with minimal load. -/
def FirstHost (r : Replica × Nat) (j : Nat) : Prop :=
  FirstFrom r.1.hosts.length (s.nextHostIdx r.2 + 1).toNat
    (LeastActive r.1.hosts.zipIdx (fun h => (s.node ⟨r.2, h.2⟩).currentLoad.toNat)
      fun h => (s.node ⟨r.2, h.2⟩).active) j

end Live

/-- Every replica has hosts, and there are fewer than `2 ^ 31` of each. -/
structure Cluster.Sized (c : Cluster) : Prop where
  replicas : 0 < c.replicas.length ∧ c.replicas.length < 2 ^ 31
  hosts : ∀ r ∈ c.replicas, 0 < r.hosts.length ∧ r.hosts.length < 2 ^ 31

/-- A host of the cluster. -/
def Cluster.HasHost (c : Cluster) (h : HostId) : Prop :=
  ∃ r ∈ c.replicas.zipIdx, h.replica = r.2 ∧ h.host < r.1.hosts.length

/-- All of them. -/
def Cluster.hostIds (c : Cluster) : List HostId :=
  c.replicas.zipIdx.flatMap fun r => (List.range r.1.hosts.length).map fun j => ⟨r.2, j⟩

theorem Cluster.mem_hostIds {c : Cluster} {h : HostId} : h ∈ c.hostIds ↔ c.HasHost h := by
  unfold hostIds HasHost
  rw [List.mem_flatMap]
  refine exists_congr fun r => and_congr_right fun _ => ?_
  rw [List.mem_map]
  constructor
  · rintro ⟨j, hj, rfl⟩
    exact ⟨rfl, List.mem_range.1 hj⟩
  · rintro ⟨hreplica, hhost⟩
    exact ⟨h.host, List.mem_range.2 hhost, by rw [← hreplica]⟩

namespace Live

variable {s : Live} {c : Cluster}

theorem getReplica_first (hc : c.Sized) (hs : s.Measured c) (hactive : ∃ r ∈ c.replicas.zipIdx, s.isActive r = true) :
    ∃ r ∈ c.replicas.zipIdx, (s.getReplica c).2 = .ok r ∧ s.FirstReplica c r.2 := by
  have hload : ∀ r ∈ c.replicas.zipIdx, (s.load r).toNat = s.total r := fun r hr =>
    s.toNat_load (Nat.lt_of_lt_of_le (hs r hr) (by decide))
  have hn : c.replicas.zipIdx.length < 2 ^ 31 := by rw [List.length_zipIdx]; exact hc.replicas.2
  obtain ⟨k, r, hr, hchosen, hfirst⟩ := leastLoaded_firstFrom hn (s.nextReplicaIdx + 1)
    (fun r hr => by rw [hload r hr]; exact hs r hr) hactive
  have hmem := List.mem_of_getElem? hr
  rw [List.getElem?_zipIdx, Option.map_eq_some_iff] at hr
  obtain ⟨r, -, rfl⟩ := hr
  rw [List.length_zipIdx] at hfirst
  refine ⟨_, hmem, hchosen, ?_⟩
  rw [Nat.zero_add]
  refine hfirst.congr fun j _ => exists_congr fun x => and_congr_right fun hx => and_congr_right fun _ => ?_
  refine forall₃_congr fun y hy _ => ?_
  show (s.load x).toNat ≤ (s.load y).toNat ↔ _
  rw [hload x (List.mem_of_getElem? hx), hload y hy]

theorem replicaGetHost_first (hc : c.Sized) (hs : s.Measured c) {r : Replica × Nat} (hr : r ∈ c.replicas.zipIdx)
    (hactive : ∃ j < r.1.hosts.length, (s.node ⟨r.2, j⟩).active = true) :
    ∃ j < r.1.hosts.length, (s.replicaGetHost r).2 = .ok ⟨r.2, j⟩ ∧ s.FirstHost r j := by
  have hn : r.1.hosts.zipIdx.length < 2 ^ 31 := by
    rw [List.length_zipIdx]
    exact (hc.hosts r.1 (List.mem_of_getElem? (List.mem_zipIdx_iff_getElem?.1 hr))).2
  have hload : ∀ h ∈ r.1.hosts.zipIdx, (s.node ⟨r.2, h.2⟩).currentLoad.toNat < 4294967295 := fun h hh => by
    have hlt := (List.getElem?_eq_some_iff.1 (List.mem_zipIdx_iff_getElem?.1 hh)).1
    exact Nat.lt_of_le_of_lt (s.currentLoad_le_total hlt) (hs r hr)
  have hsome : ∃ h ∈ r.1.hosts.zipIdx, (s.node ⟨r.2, h.2⟩).active = true := by
    obtain ⟨j, hj, ha⟩ := hactive
    exact ⟨(r.1.hosts[j], j), List.mem_zipIdx_iff_getElem?.2 (List.getElem?_eq_getElem hj), ha⟩
  obtain ⟨j, h, hh, hchosen, hfirst⟩ := leastLoaded_firstFrom hn (s.nextHostIdx r.2 + 1) hload hsome
  rw [List.getElem?_zipIdx, Option.map_eq_some_iff] at hh
  obtain ⟨node, hnode, rfl⟩ := hh
  rw [List.length_zipIdx] at hfirst
  refine ⟨j, hfirst.lt, ?_, hfirst⟩
  simp only [replicaGetHost, hchosen, Nat.zero_add]
  rfl

theorem getHost_mem (hc : c.Sized) (s : Live) : ∃ h, c.HasHost h ∧ (s.getHost c).2 = .ok h := by
  -- a length that fits is no multiple of `2 ^ 32`, so that no remainder panics
  have hdvd : ∀ k, 0 < k ∧ k < 2 ^ 31 → ¬2 ^ 32 ∣ k := fun k hk h => by
    have hle := Nat.le_of_dvd hk.1 h
    omega
  have hreplicas : ¬2 ^ 32 ∣ c.replicas.zipIdx.length := by
    rw [List.length_zipIdx]
    exact hdvd _ hc.replicas
  obtain ⟨r, hr, hchosen⟩ :=
    leastLoaded_mem hreplicas (s.nextReplicaIdx + 1) (fun _ r => s.load r) fun _ r => s.isActive r
  have hhosts : ¬2 ^ 32 ∣ r.1.hosts.zipIdx.length := by
    rw [List.length_zipIdx]
    exact hdvd _ (hc.hosts r.1 (List.mem_of_getElem? (List.mem_zipIdx_iff_getElem?.1 hr)))
  obtain ⟨h, hh, hhost⟩ := leastLoaded_mem hhosts (s.nextHostIdx r.2 + 1)
    (fun _ h => (s.node ⟨r.2, h.2⟩).currentLoad) fun _ h => (s.node ⟨r.2, h.2⟩).active
  refine ⟨⟨r.2, h.2⟩, ⟨r, hr, rfl, (List.getElem?_eq_some_iff.1 (List.mem_zipIdx_iff_getElem?.1 hh)).1⟩, ?_⟩
  rw [s.getHost_snd c]
  simp only [getReplica, hchosen]
  show (s.replicaGetHost r).2 = _
  simp only [replicaGetHost, hhost]
  rfl

/-- A host of the cluster is chosen, and an active one if there is any. -/
theorem getHost_available (hc : c.Sized) (hs : s.Measured c) :
    ∃ h, c.HasHost h ∧ (s.getHost c).2 = .ok h ∧
      ((∃ h', c.HasHost h' ∧ (s.node h').active = true) → (s.node h).active = true) := by
  by_cases hactive : ∃ h', c.HasHost h' ∧ (s.node h').active = true
  · obtain ⟨h', ⟨r', hr', hreplica, hlt⟩, ha⟩ := hactive
    have hr'a : s.isActive r' = true := s.isActive_iff.2 ⟨h'.host, hlt, by rw [← hreplica]; exact ha⟩
    obtain ⟨r, hr, hchosen, hfirst⟩ := getReplica_first hc hs ⟨r', hr', hr'a⟩
    obtain ⟨x, hx, hxa, -⟩ := hfirst.holds
    -- the replica at the position found is the one returned
    have hxr : x = r := by
      rw [List.mem_zipIdx_iff_getElem?] at hr
      rw [List.getElem?_zipIdx, hr] at hx
      exact (Option.some.inj hx).symm.trans (Prod.ext rfl (Nat.zero_add _))
    obtain ⟨j, hj, hhost, hfirst⟩ := replicaGetHost_first hc hs hr (s.isActive_iff.1 (hxr ▸ hxa))
    refine ⟨⟨r.2, j⟩, ⟨r, hr, rfl, hj⟩, ?_, fun _ => ?_⟩
    · rw [s.getHost_snd c, hchosen]
      exact hhost
    · obtain ⟨y, hy, hya, -⟩ := hfirst.holds
      rw [List.getElem?_zipIdx, Option.map_eq_some_iff] at hy
      obtain ⟨node, -, rfl⟩ := hy
      rw [← Nat.zero_add j]
      exact hya
  · obtain ⟨h, hmem, hchosen⟩ := getHost_mem hc s
    exact ⟨h, hmem, hchosen, fun h => absurd h hactive⟩

end Live

/-- The choice is the first, from the incremented counter on and around, of the active candidates with minimal load:
among the replicas, among the hosts of a replica, and for both together a host that is active if any is. -/
theorem least_loaded_round_robin (c : Cluster) (s : Live) (hc : c.Sized) (hs : s.Measured c) :
    ((∃ r ∈ c.replicas.zipIdx, s.isActive r = true) →
      ∃ r ∈ c.replicas.zipIdx, (s.getReplica c).2 = .ok r ∧ s.FirstReplica c r.2) ∧
    (∀ r ∈ c.replicas.zipIdx, (∃ j < r.1.hosts.length, (s.node ⟨r.2, j⟩).active = true) →
      ∃ j < r.1.hosts.length, (s.replicaGetHost r).2 = .ok ⟨r.2, j⟩ ∧ s.FirstHost r j) ∧
    ∃ h, c.HasHost h ∧ (s.getHost c).2 = .ok h ∧
      ((∃ h', c.HasHost h' ∧ (s.node h').active = true) → (s.node h).active = true) :=
  ⟨Live.getReplica_first hc hs, fun _ hr => Live.replicaGetHost_first hc hs hr, Live.getHost_available hc hs⟩

/-- A replica with two hosts. -/
def pairReplica : Replica :=
  let hb : HeartBeat := ⟨5000000000, 3000000000, "/ping", "Ok.\n", "", ""⟩
  ⟨"default", [⟨"http", "a:8123", hb, "c", "default"⟩, ⟨"http", "b:8123", hb, "c", "default"⟩]⟩

/-- A cluster that has no other. -/
def pairCluster : Cluster :=
  { name := "c", replicas := [pairReplica], users := ∅, killQueryUserName := "", killQueryUserPassword := "",
    heartBeat := ⟨5000000000, 3000000000, "/ping", "Ok.\n", "", ""⟩, retryNumber := 1 }

/-- Three replicas of two hosts. -/
def tripleCluster : Cluster := { pairCluster with replicas := [pairReplica, pairReplica, pairReplica] }

/-- The second and the third replica tie, and so do the hosts of the third one. -/
def tiedLive : Live where
  nextReplicaIdx := 1
  nextHostIdx := fun _ => 0
  node := fun h =>
    match h.replica, h.host with
    | 0, _ => ⟨true, 3, 0⟩
    | 1, 0 => ⟨false, 4, 0⟩
    | 1, _ => ⟨true, 0, 0⟩
    | _, _ => ⟨true, 2, 0⟩

/-- The counters decide, for the third replica and its second host. -/
theorem least_loaded_round_robin_tie :
    (tiedLive.getReplica tripleCluster).2 = .ok (pairReplica, 2) ∧ tiedLive.FirstReplica tripleCluster 2 ∧
    (tiedLive.replicaGetHost (pairReplica, 2)).2 = .ok ⟨2, 1⟩ ∧ tiedLive.FirstHost (pairReplica, 2) 1 ∧
    (tiedLive.getHost tripleCluster).2 = .ok ⟨2, 1⟩ ∧ (tiedLive.node ⟨2, 1⟩).active = true := by
  obtain ⟨hreplica, hhost, h, -, hchosen, hactive⟩ := least_loaded_round_robin tripleCluster tiedLive
    ⟨by decide, by decide⟩ (by unfold Live.Measured; decide)
  obtain ⟨r, -, hr, hfirst⟩ := hreplica ⟨(pairReplica, 2), by decide, by decide⟩
  cases (show Except.ok (pairReplica, 2) = Except.ok r from hr)
  obtain ⟨j, -, hj, hfirstHost⟩ := hhost (pairReplica, 2) (by decide) ⟨0, by decide, rfl⟩
  cases (show Except.ok (HostId.mk 2 1) = Except.ok (HostId.mk 2 j) from hj)
  cases (show Except.ok (HostId.mk 2 1) = Except.ok h from hchosen)
  exact ⟨hr, hfirst, hj, hfirstHost, hchosen, hactive ⟨⟨2, 0⟩, ⟨(pairReplica, 2), by decide, rfl, by decide⟩, rfl⟩⟩

end Chproxy.Routing
