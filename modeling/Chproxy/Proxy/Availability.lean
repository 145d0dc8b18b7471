/-
When a retry is sure to help (`executeWithRetry` in `proxy.go`, `getHost` in `scope.go`): as long as one of the
active hosts of the cluster answers, a request without a session gets through to a host that does, if there are as
many retries as active hosts that fail. Meanwhile other requests may find hosts that fail, and change the loads; only
the host that has just been chosen must not be found failing until it has been asked whether it is active.
-/
import Chproxy.Proxy.Failover

namespace Chproxy.Routing

/-! ## The hosts that may fail -/

/-- The number of active hosts that are not among the good ones. -/
def Live.suspects (s : Live) (c : Cluster) (good : HostId → Bool) : Nat :=
  c.hostIds.countP fun h => s.flags h && !good h

/-- One suspect fewer, once an active one is not active any more and nothing else has become active. -/
theorem Live.suspects_lt {s s' : Live} {c : Cluster} {good : HostId → Bool} {h : HostId} (hmem : c.HasHost h)
    (hactive : s.flags h = true) (hbad : good h = false) (hflags : ∀ h', s'.flags h' = true → s.flags h' = true)
    (hinactive : s'.flags h = false) : s'.suspects c good < s.suspects c good := by
  have hle : ∀ l : List HostId, l.countP (fun h => s'.flags h && !good h) ≤ l.countP fun h => s.flags h && !good h := by
    intro l
    refine List.countP_mono_left fun h' _ hh' => ?_
    rw [Bool.and_eq_true] at hh' ⊢
    exact ⟨hflags h' hh'.1, hh'.2⟩
  obtain ⟨before, after, hids⟩ := List.append_of_mem (Cluster.mem_hostIds.2 hmem)
  have hbefore := hle before
  have hafter := hle after
  unfold suspects
  rw [hids, List.countP_append, List.countP_append, List.countP_cons_of_neg (by simp [hinactive]),
    List.countP_cons_of_pos (by simp [hactive, hbad])]
  omega

end Chproxy.Routing

namespace Chproxy.Proxy.Failover

open Utils Routing

/-! ## The next host -/

/-- What a call of `getHost` reads is the cluster in one state, in which the hosts are active as given. -/
def ReadsFrom (c : Cluster) (flags : HostId → Bool) (rd : Reads) : Prop :=
  ∃ (live : Live) (r : Replica × Nat),
    live.flags = flags ∧ live.Measured c ∧ (live.getReplica c).2 = .ok r ∧ rd = live.reads c r

/-- While a host is active, an active one is chosen. -/
theorem ReadsFrom.chooses {c : Cluster} {flags : HostId → Bool} {rd : Reads} (hc : c.Sized) (h : ReadsFrom c flags rd)
    {g : HostId} (hg : c.HasHost g) (hactive : flags g = true) :
    ∃ nextHost, c.getHostReading rd = .ok nextHost ∧ c.HasHost nextHost.id ∧ flags nextHost.id = true := by
  obtain ⟨live, r, rfl, hmeasured, hr, rfl⟩ := h
  obtain ⟨h, hmem, hchosen, havailable⟩ := Live.getHost_available hc hmeasured
  rw [live.getHost_reads c hr] at hchosen
  cases hread : c.getHostReading (live.reads c r) with
  | error e =>
    rw [hread] at hchosen
    cases hchosen
  | ok nextHost =>
    rw [hread] at hchosen
    cases hchosen
    exact ⟨nextHost, rfl, hmem, havailable ⟨g, hg, hactive⟩⟩

/-! ## Rounds at hosts of which some answer -/

/-- Others make no host active, and no good one inactive. -/
structure Turn.Spares (good : HostId → Bool) (t : Turn) : Prop where
  calm : t.Calm
  serving : ∀ s h, good h = true → s.flags h = true → (t.serving s).flags h = true
  penalizing : ∀ s h, good h = true → s.flags h = true → (t.penalizing s).flags h = true
  choosing : ∀ s h, good h = true → s.flags h = true → (t.choosing s).flags h = true

/-- The cluster when `getHost` is called after a failure. -/
def beforeChoice (t : Turn) (live : Live) (h : HostId) : Live :=
  (t.penalizing ((t.serving live).update h .penalize)).update h (·.setIsActive false)

/-- `getHost` reads the cluster as it is, and the host that it chooses is still as it was when it is asked. -/
structure Chosen (c : Cluster) (t : Turn) (live : Live) (h : HostId) : Prop where
  reads : ReadsFrom c (beforeChoice t live h).flags t.reads
  kept : ∀ nextHost, c.getHostReading t.reads = .ok nextHost → (beforeChoice t live h).flags nextHost.id = true →
    (afterFailure t live h).flags nextHost.id = true

section Rounds

variable {c : Cluster} {maxRetry : Int} {body : Bytes} {good : HostId → Bool} {s : State} {t : Turn} {g : HostId}

/-- A good host stays active when another one has failed. -/
theorem Turn.Spares.beforeChoice (ht : t.Spares good) {live : Live} {h : HostId} (hgood : good g = true) (hne : g ≠ h)
    (hactive : live.flags g = true) : (beforeChoice t live h).flags g = true := by
  have hserved := ht.serving live g hgood hactive
  rw [← Live.flags_update _ h NodeState.active_penalize] at hserved
  have hpenalized := ht.penalizing _ g hgood hserved
  rw [Failover.beforeChoice, Live.flags, Live.node_update_of_ne _ hne]
  exact hpenalized

/-- The loop before a round: an active host has the request, a good one is active, and there is a retry for
each of the others. -/
structure Hopeful (c : Cluster) (maxRetry : Int) (good : HostId → Bool) (g : HostId) (s : State) : Prop where
  target : c.HasHost s.target.id ∧ s.live.flags s.target.id = true
  hope : s.live.flags g = true
  retries : (s.live.suspects c good : Int) ≤ maxRetry - s.numRetry

/-- The last attempt of a call was answered, or the request was given up meanwhile. -/
def GetsThrough (out : Execution) : Prop :=
  ∃ a, out.sent.getLast? = some a ∧ ¬Failed a.attempt a.ctxErr ∧ out.ending = .returned a.ctxErr ∧
    (a.ctxErr = none → out.writers.code = a.attempt.status)

/-- The first attempt is not the last one. -/
theorem GetsThrough.cons {out : Execution} (h : GetsThrough out) (a : Sent) (p : List HostId) :
    GetsThrough { out with sent := a :: out.sent, penalized := p } := by
  obtain ⟨b, hb, hrest⟩ := h
  refine ⟨b, ?_, hrest⟩
  rw [List.getLast?_cons, hb]
  rfl

/-- The round after a failure finds another host, which is active, and has a retry left for it. -/
theorem Hopeful.next (hc : c.Sized) (h : Hopeful c maxRetry good g s) (hg : c.HasHost g) (hgood : good g = true)
    (ht : t.Spares good) (hbad : good s.target.id = false)
    (hreads : Chosen c t s.live s.target.id) :
    s.numRetry < maxRetry ∧
    ∃ nextHost, c.getHostReading t.reads = .ok nextHost ∧ (afterFailure t s.live s.target.id).flags nextHost.id = true ∧
      ∀ s' : State, s'.live.flags = (afterFailure t s.live s.target.id).flags → s'.target = nextHost →
        s'.numRetry = s.numRetry + 1 → Hopeful c maxRetry good g s' := by
  have hne : g ≠ s.target.id := by
    rintro rfl
    rw [hgood] at hbad
    cases hbad
  -- the good host is another one, and stays active through the failure
  have hbefore := ht.beforeChoice hgood hne h.hope
  have hactive : (afterFailure t s.live s.target.id).flags g = true := ht.choosing _ g hgood hbefore
  obtain ⟨hflags, hinactive⟩ := flags_afterFailure ht.calm s.live s.target.id
  obtain ⟨nextHost, hnext, hmem, hchosen⟩ := hreads.reads.chooses hc hg hbefore
  have hflag := hreads.kept nextHost hnext hchosen
  have hretries := h.retries
  -- each failure makes one of the suspects inactive
  have hfewer := Live.suspects_lt h.target.1 h.target.2 hbad hflags hinactive
  refine ⟨by omega, nextHost, hnext, hflag, fun s' hs' htarget hnum => ⟨?_, ?_, ?_⟩⟩
  · rw [htarget, hs']
    exact ⟨hmem, hflag⟩
  · rw [hs']
    exact hactive
  · have hsame : s'.live.suspects c good = (afterFailure t s.live s.target.id).suspects c good := by
      unfold Live.suspects
      rw [hs']
    rw [hsame, hnum]
    omega

end Rounds

end Chproxy.Proxy.Failover
