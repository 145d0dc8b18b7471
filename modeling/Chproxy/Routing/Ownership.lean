/-
Who closes a cache: over any sequence of loads on one `reverseProxy`, each failing at any point or
succeeding. Every cache that was ever created is either in the tables or was closed, exactly once.
-/
import Chproxy.Routing.Reload
import Chproxy.Lib.Fallible
import Chproxy.Lib.Steps
import Mathlib.Data.List.Perm.Basic

namespace Chproxy.Routing

/-! ## Loads on one proxy -/

/-- A proxy between two loads: the next free cache address and the addresses closed so far. -/
structure Loader where
  rp : ReverseProxy
  next : Nat
  closed : List Nat

/-- The addresses of the caches of a map. -/
def cacheIds (caches : Map AsyncCache) : List Nat := caches.entries.map (·.2.id)

/-- One call of `reverseProxy.applyConfig`, in a world that answers as it likes. -/
def Loader.load (s : Loader) (call : World × Config) : Option Loader :=
  let out := s.rp.applyConfig call.1 s.next call.2
  some { rp := out.rp, next := out.next, closed := s.closed ++ cacheIds out.closed }

def Loader.Initial (s : Loader) : Prop :=
  (∃ cfgCp, s.rp = newReverseProxy cfgCp) ∧ s.next = 0 ∧ s.closed = []

/-! ## What a load creates and closes -/

theorem cacheIds_insert {caches : Map AsyncCache} {name : String} (h : caches.lookup name = none) (c : AsyncCache) :
    cacheIds (caches.insert name c) = c.id :: cacheIds caches := by
  have hnot : name ∉ caches := fun hmem => by simp [AList.lookup_eq_none.1 h] at hmem
  simp only [cacheIds, AList.entries_insert_of_notMem hnot, List.map_cons]

theorem newAsyncCache_id {w : World} {id : Nat} {cfg : Config.Cache} {t : Config.Duration} {c : AsyncCache}
    (h : newAsyncCache w id cfg t = .ok c) : c.id = id := by
  unfold newAsyncCache at h
  dsimp only at h
  repeat' split at h
  all_goals
    obtain ⟨backend, _, h⟩ := Fallible.bind_ok h
    cases h
    rfl

/-- The working map holds the caches created so far, whether or not the loop came to its end. -/
theorem initTempCaches_ids (w : World) (t : Config.Duration) : ∀ (ccs : List Config.Cache) (caches : Map AsyncCache)
    (next : Nat), ∃ n, (initTempCaches w t caches next ccs).1.2 = next + n ∧
      (cacheIds (initTempCaches w t caches next ccs).1.1).Perm (cacheIds caches ++ List.range' next n)
  | [], caches, next => ⟨0, rfl, by simp [initTempCaches]⟩
  | cc :: ccs, caches, next => by
    unfold initTempCaches
    split
    · exact ⟨0, rfl, by simp⟩
    · rename_i habsent
      cases hnew : newAsyncCache w next cc t with
      | error e => exact ⟨0, rfl, by simp⟩
      | ok c =>
        obtain ⟨n, hn, hperm⟩ := initTempCaches_ids w t ccs (caches.insert cc.name c) (next + 1)
        have hnone : caches.lookup cc.name = none := by simpa using habsent
        rw [cacheIds_insert hnone, newAsyncCache_id hnew] at hperm
        refine ⟨n + 1, by rw [hn]; omega, hperm.trans ?_⟩
        rw [List.range'_succ]
        exact List.perm_middle.symm

/-- How a call of `applyConfig` ends: it fails before there are caches, or it fails and closes those it
created, or it puts them in the tables and closes those that were there. -/
theorem ReverseProxy.applyConfig_caches (w : World) (rp : ReverseProxy) (next : Nat) (cfg : Config) :
    let out := rp.applyConfig w next cfg
    let tmp := (initTempCaches w (transactionsTimeout cfg.users) ∅ next cfg.caches).1
    (out.err.isSome ∧ out.rp.caches = rp.caches ∧ out.next = next ∧ out.closed = ∅) ∨
    (out.err.isSome ∧ out.rp.caches = rp.caches ∧ out.next = tmp.2 ∧ out.closed = tmp.1) ∨
    (out.err = none ∧ out.rp.caches = tmp.1 ∧ out.next = tmp.2 ∧ out.closed = rp.caches) := by
  unfold applyConfig
  cases newClusters w ∅ cfg.clusters with
  | error e => exact .inl ⟨rfl, rfl, rfl, rfl⟩
  | ok clusters =>
    rcases initTempCaches w (transactionsTimeout cfg.users) ∅ next cfg.caches with ⟨⟨caches, next'⟩, _ | e⟩
    · cases hbuild : buildUsers cfg clusters caches with
      | error e => exact .inr (.inl (by simp [hbuild]))
      | ok tables => exact .inr (.inr (by simp [hbuild]))
    · exact .inr (.inl ⟨rfl, rfl, rfl, rfl⟩)

/-- The same by addresses: the caches created lie from `next` on, and every cache that was in the tables
or was created is either in the tables now or closed now. -/
theorem ReverseProxy.applyConfig_ids (w : World) (rp : ReverseProxy) (next : Nat) (cfg : Config) :
    let out := rp.applyConfig w next cfg
    ∃ n, out.next = next + n ∧
      (out.err.isSome → (cacheIds out.closed).Perm (List.range' next n) ∧ out.rp.caches = rp.caches) ∧
      (out.err = none → out.closed = rp.caches ∧ (cacheIds out.rp.caches).Perm (List.range' next n)) := by
  dsimp only
  obtain ⟨n, hn, hperm⟩ := initTempCaches_ids w (transactionsTimeout cfg.users) cfg.caches ∅ next
  replace hperm : (cacheIds _).Perm (List.range' next n) := hperm
  rcases rp.applyConfig_caches w next cfg with ⟨herr, hrp, hnext, hclosed⟩ | ⟨herr, hrp, hnext, hclosed⟩ |
    ⟨herr, hrp, hnext, hclosed⟩
  · refine ⟨0, hnext, fun _ => ⟨by rw [hclosed]; exact .refl _, hrp⟩, fun hnone => ?_⟩
    simp [hnone] at herr
  · refine ⟨n, hnext.trans hn, fun _ => ⟨by rw [hclosed]; exact hperm, hrp⟩, fun hnone => ?_⟩
    simp [hnone] at herr
  · refine ⟨n, hnext.trans hn, fun hsome => ?_, fun _ => ⟨hclosed, by rw [hrp]; exact hperm⟩⟩
    simp [herr] at hsome

/-! ## Whole runs -/

/-- Every address given out is exactly once among the closed caches and those of the tables. -/
def Loader.Owned (s : Loader) : Prop := (s.closed ++ cacheIds s.rp.caches).Perm (List.range s.next)

theorem Loader.Owned.load {s s' : Loader} {call : World × Config} (hs : s.Owned) (h : s.load call = some s') :
    s'.Owned := by
  cases h
  obtain ⟨n, hnext, hfailed, hloaded⟩ := s.rp.applyConfig_ids call.1 s.next call.2
  unfold Owned at hs ⊢
  dsimp only
  rw [hnext, List.range_add, ← List.range'_eq_map_range]
  cases herr : (s.rp.applyConfig call.1 s.next call.2).err with
  | some e =>
    obtain ⟨hclosed, hrp⟩ := hfailed (by simp [herr])
    rw [hrp]
    refine List.Perm.trans ?_ (hs.append hclosed)
    rw [List.append_assoc, List.append_assoc]
    exact List.perm_append_comm.append_left _
  | none =>
    obtain ⟨hclosed, hrp⟩ := hloaded herr
    rw [hclosed]
    exact hs.append hrp

theorem Loader.owned_reach {s : Loader} (h : Steps.Reach Loader.load Loader.Initial s) : s.Owned := by
  refine h.invariant (fun s hs => ?_) fun s call s' hs hst _ => hs.load hst
  obtain ⟨⟨cfgCp, hrp⟩, hnext, hclosed⟩ := hs
  unfold Owned
  rw [hrp, hnext, hclosed]
  exact .refl _

/-- Cache ownership: over all loads no cache is closed twice; a failed load closes every cache it
created, a successful one every cache it displaced; and no cache of the tables was ever closed. -/
theorem cache_ownership {s : Loader} (h : Steps.Reach Loader.load Loader.Initial s) (w : World) (cfg : Config) :
    let out := s.rp.applyConfig w s.next cfg
    (s.closed ++ cacheIds out.closed).Nodup ∧
      (out.err.isSome → ∀ id, s.next ≤ id → id < out.next → id ∈ cacheIds out.closed) ∧
      (out.err = none → ∀ id ∈ cacheIds s.rp.caches, id ∈ cacheIds out.closed) ∧
      ∀ id ∈ cacheIds out.rp.caches, id ∉ s.closed ++ cacheIds out.closed := by
  intro out
  obtain ⟨n, hnext, hfailed, hloaded⟩ := s.rp.applyConfig_ids w s.next cfg
  have hafter : (s.closed ++ cacheIds out.closed ++ cacheIds out.rp.caches).Nodup :=
    (@Loader.Owned.load s _ (w, cfg) (Loader.owned_reach h) rfl).nodup_iff.2 List.nodup_range
  obtain ⟨hclosed, _, hdisjoint⟩ := List.nodup_append.1 hafter
  refine ⟨hclosed, fun herr id hge hlt => ?_, fun herr id hid => ?_, fun id hid hold => hdisjoint id hold id hid rfl⟩
  · rw [(hfailed herr).1.mem_iff, List.mem_range'_1]
    exact ⟨hge, hnext ▸ hlt⟩
  · rwa [(hloaded herr).1]

/-- The small configuration with one cache in the file system. -/
def cachedConfig (toCluster : String) : Config :=
  { smallConfig 2 toCluster with
    caches :=
      [{ mode := "file_system", name := "responses", expire := 10000000000, graceTime := 0
         fileSystem := ⟨"/cache", 1000000⟩, redis := ⟨"", "", [], 0, 0, "", "", false⟩
         maxPayloadSize := 1000000, sharedWithAllUsers := false }] }

/-- A new proxy after its first load. -/
def cachedLoader : Loader :=
  let out := (newReverseProxy ⟨2, 2⟩).applyConfig calmWorld 0 (cachedConfig "c")
  ⟨out.rp, out.next, [] ++ cacheIds out.closed⟩

/-- A reload with a misspelt `to_cluster` creates a second cache and closes it; the first one stays. -/
theorem cache_ownership_failed_reload :
    let out := cachedLoader.rp.applyConfig calmWorld cachedLoader.next (cachedConfig "x")
    out.err.isSome ∧ 1 ∈ cacheIds out.closed ∧ 0 ∈ cacheIds out.rp.caches ∧
      0 ∉ cachedLoader.closed ++ cacheIds out.closed := by
  have hreach : Steps.Reach Loader.load Loader.Initial cachedLoader :=
    .step (s := ⟨newReverseProxy ⟨2, 2⟩, 0, []⟩) (a := (calmWorld, cachedConfig "c"))
      (.init ⟨⟨⟨2, 2⟩, rfl⟩, rfl, rfl⟩) rfl trivial
  obtain ⟨_, hfailed, _, hopen⟩ := cache_ownership hreach calmWorld (cachedConfig "x")
  exact ⟨by decide, hfailed (by decide) 1 (by decide) (by decide), by decide, hopen 0 (by decide)⟩

end Chproxy.Routing
