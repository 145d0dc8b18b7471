/-
When the global proxy is replaced: runs of successful `applyConfig` calls of `main.go`, with the
connection pool settings that the current proxy was created from kept beside the process. The proxy
does not keep them: it stores `max_idle_conns_per_host` in the place of `max_idle_conns`.
-/
import Chproxy.Config.Validate
import Chproxy.Lib.Steps
import Chproxy.Routing.Reload

namespace Chproxy.Routing

/-! ## The process with the origin of its proxy -/

/-- A running proxy is dropped for a new one when this configuration is applied. -/
def Process.replaces (p : Process) (cfg : Config) : Bool :=
  p.proxy.any fun rp => proxyConfigChanged cfg.connectionPool rp

/-- The process, and the `connection_pool` of the configuration its proxy was created from. -/
structure Service where
  process : Process
  origin : Option Config.ConnectionPool

/-- One successful call of `applyConfig`, in a world that answers as it likes. -/
def Service.reload (s : Service) (call : World × Config) : Option Service :=
  match applyConfig call.1 s.process call.2 with
  | (_, some _) => none
  | (p, none) =>
    some { process := p
           origin := if s.process.proxy.isNone || s.process.replaces call.2 then some call.2.connectionPool
             else s.origin }

def Service.Initial (s : Service) : Prop := s.process.proxy = none ∧ s.origin = none

theorem Service.reload_eq_some {s s' : Service} {call : World × Config} (h : s.reload call = some s') :
    s' = ⟨(applyConfig call.1 s.process call.2).1,
      if s.process.proxy.isNone || s.process.replaces call.2 then some call.2.connectionPool else s.origin⟩ := by
  unfold reload at h
  split at h
  · cases h
  · rename_i p happly
    rw [happly]
    exact (Option.some.inj h).symm

/-! ## What a proxy keeps of its pool -/

/-- What `newReverseProxy` keeps of a connection pool, and no load changes. -/
def ReverseProxy.CreatedFrom (rp : ReverseProxy) (cfgCp : Config.ConnectionPool) : Prop :=
  rp.maxIdleConns = cfgCp.maxIdleConnsPerHost ∧ rp.maxIdleConnsPerHost = cfgCp.maxIdleConnsPerHost

theorem newReverseProxy_createdFrom (cfgCp : Config.ConnectionPool) :
    (newReverseProxy cfgCp).CreatedFrom cfgCp := ⟨rfl, rfl⟩

theorem ReverseProxy.applyConfig_createdFrom (w : World) {rp : ReverseProxy} (next : Nat) (cfg : Config)
    {cfgCp : Config.ConnectionPool} (h : rp.CreatedFrom cfgCp) :
    (rp.applyConfig w next cfg).rp.CreatedFrom cfgCp := by
  unfold applyConfig
  dsimp only
  repeat' split
  all_goals exact h

/-- The proxy of the process keeps what `newReverseProxy` made of its origin. -/
def Service.Traced (s : Service) : Prop :=
  ∀ rp, s.process.proxy = some rp → ∃ cfgCp, s.origin = some cfgCp ∧ rp.CreatedFrom cfgCp

theorem Service.traced_reload {s s' : Service} {call : World × Config} (hs : s.Traced)
    (h : s.reload call = some s') : s'.Traced := by
  rw [reload_eq_some h]
  intro rp' hrp'
  rw [applyConfig_fst_proxy] at hrp'
  cases hrp'
  -- the target is a new proxy of this pool, or the running one with its origin
  cases hproxy : s.process.proxy with
  | none =>
    refine ⟨call.2.connectionPool, rfl, ReverseProxy.applyConfig_createdFrom _ _ _ ?_⟩
    rw [Process.target, hproxy]
    exact newReverseProxy_createdFrom _
  | some rp =>
    simp only [Process.replaces, Process.target, hproxy, Option.isNone_some, Option.any_some, Bool.false_or]
    split
    · exact ⟨_, rfl, ReverseProxy.applyConfig_createdFrom _ _ _ (newReverseProxy_createdFrom _)⟩
    · obtain ⟨cfgCp, horigin, hcreated⟩ := hs rp hproxy
      exact ⟨cfgCp, horigin, ReverseProxy.applyConfig_createdFrom _ _ _ hcreated⟩

theorem Service.traced_reach {s : Service} (h : Steps.Reach Service.reload Service.Initial s) : s.Traced := by
  refine h.invariant (P := Service.Traced) (fun s hs => ?_) fun s call s' hs hst _ => traced_reload hs hst
  intro rp hrp
  rw [hs.1] at hrp
  cases hrp

theorem Service.origin_eq_none {s : Service} (h : Steps.Reach Service.reload Service.Initial s)
    (hproxy : s.process.proxy = none) : s.origin = none := by
  cases h with
  | init hi => exact hi.2
  | step _ hst _ =>
    rw [reload_eq_some hst, applyConfig_fst_proxy] at hproxy
    cases hproxy

/-- The settings a proxy was created from pass for changed exactly when they are two different numbers. -/
theorem ReverseProxy.CreatedFrom.changed_iff {rp : ReverseProxy} {cfgCp : Config.ConnectionPool}
    (h : rp.CreatedFrom cfgCp) :
    proxyConfigChanged cfgCp rp = true ↔ cfgCp.maxIdleConns ≠ cfgCp.maxIdleConnsPerHost := by
  rw [proxyConfigChanged_iff, h.1, h.2]
  simp

/-! ## A reload with the same pool -/

/-- After any sequence of successful loads, the next one replaces the proxy only for other settings than
those the proxy was created from, unless the two numbers of the unchanged settings differ. For a new
proxy and its own settings this is `proxyConfigChanged` being false. -/
theorem unchanged_pool_keeps_proxy_iff {s : Service} (h : Steps.Reach Service.reload Service.Initial s)
    (cfg : Config) :
    ((s.process.replaces cfg = true → s.origin ≠ some cfg.connectionPool) ↔
      (s.origin = some cfg.connectionPool →
        cfg.connectionPool.maxIdleConns = cfg.connectionPool.maxIdleConnsPerHost)) ∧
    ∀ cfgCp, proxyConfigChanged cfgCp (newReverseProxy cfgCp) = false ↔
      cfgCp.maxIdleConns = cfgCp.maxIdleConnsPerHost := by
  refine ⟨?_, fun cfgCp => ?_⟩
  · cases hproxy : s.process.proxy with
    | none =>
      -- the first load: nothing is replaced, and there is no origin
      rw [Process.replaces, hproxy]
      refine iff_of_true (fun hreplaced => by cases hreplaced) fun horigin => ?_
      rw [Service.origin_eq_none h hproxy] at horigin
      cases horigin
    | some rp =>
      obtain ⟨cfgCp, horigin, hcreated⟩ := Service.traced_reach h rp hproxy
      simp only [Process.replaces, hproxy, Option.any_some, horigin, ne_eq, Option.some.injEq]
      by_cases hsame : cfgCp = cfg.connectionPool
      · subst hsame
        rw [hcreated.changed_iff]
        simp
      · simp [hsame]
  · rw [Bool.eq_false_iff, ne_eq, (newReverseProxy_createdFrom cfgCp).changed_iff, not_ne_iff]

/-- The service after loading `smallConfig` once. -/
def serviceOf (maxIdleConns : Int64) : Service := ⟨running maxIdleConns, some ⟨maxIdleConns, 2⟩⟩

theorem unchanged_pool_keeps_proxy_equal :
    (serviceOf 2).origin = some (smallConfig 2 "c").connectionPool ∧
    (serviceOf 2).process.replaces (smallConfig 2 "c") = false := by
  have hreach : Steps.Reach Service.reload Service.Initial (serviceOf 2) :=
    .step (s := ⟨started, none⟩) (a := (calmWorld, smallConfig 2 "c")) (.init ⟨rfl, rfl⟩) rfl trivial
  refine ⟨rfl, Bool.eq_false_iff.2 fun hreplaced => ?_⟩
  exact (unchanged_pool_keeps_proxy_iff hreach (smallConfig 2 "c")).1.2 (fun _ => rfl) hreplaced rfl

/-- The pool of a `connection_pool` section without numbers, 100 connections and 2 per host, loaded twice
without a change: the settings are valid, both loads succeed, and the second one replaces the proxy. -/
theorem unchanged_pool_replaces_proxy :
    Config.ConnectionPool.validate ⟨100, 2⟩ = .ok () ∧
    Steps.run Service.reload ⟨started, none⟩ [(calmWorld, smallConfig 100 "c")] = some (serviceOf 100) ∧
    ((serviceOf 100).reload (calmWorld, smallConfig 100 "c")).isSome = true ∧
    (serviceOf 100).origin = some (smallConfig 100 "c").connectionPool ∧
    (serviceOf 100).process.replaces (smallConfig 100 "c") = true ∧
    proxyConfigChanged ⟨100, 2⟩ (newReverseProxy ⟨100, 2⟩) = true :=
  ⟨rfl, rfl, rfl, rfl, by decide, by decide⟩

end Chproxy.Routing
