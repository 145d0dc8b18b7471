/-
What becomes of a proxy that `applyConfig` of `main.go` replaces. The variable `proxy` is assigned before
the configuration is applied to it, and nobody calls `applyConfig` of the old proxy again: its
`reloadSignal` stays open, its goroutines run as long as the process, its caches are never closed. With two
different numbers in `connection_pool`, as a section without numbers has them, this is what every reload does.
-/
import Chproxy.Routing.Goroutines
import Chproxy.Routing.Replacement

namespace Chproxy.Routing

/-! ## The proxies of a process -/

/-- Every `reverseProxy` that was ever made, the one in the variable `proxy` last; the configuration of the
call of `applyConfig` that has assigned `proxy` and not yet begun to load; and the number of calls. -/
structure Fleet where
  proxies : List LiveProxy
  applying : Option Config
  calls : Nat

inductive FleetEvent
  | apply (cfg : Config)
  | load (w : World) (order : List Goroutine)
  | proceed (i : Nat)
  | move (i k : Nat) (m : Generations.Move)
  | read (i readers : Nat)

/-- A new proxy is made when there is none or when the settings of its pool pass for changed. -/
def Fleet.renews (f : Fleet) (cfg : Config) : Bool :=
  f.proxies.getLast?.all fun p => proxyConfigChanged cfg.connectionPool p.loader.rp

/-- No call of `applyConfig` is in progress: reloads come one after the other. -/
def Fleet.quiet (f : Fleet) : Bool := f.applying.isNone && f.proxies.getLast?.all (·.loading.isNone)

def Fleet.update (f : Fleet) (i : Nat) (step : LiveProxy → Option LiveProxy) : Option Fleet := do
  let p ← f.proxies[i]?
  let p' ← step p
  some { f with proxies := f.proxies.set i p' }

/-- What the process does. Requests may hold the read lock of any proxy, also of a replaced one. -/
def Fleet.perform (f : Fleet) : FleetEvent → Option Fleet
  | .apply cfg =>
    if f.quiet then
      -- a changed connection pool replaces the proxy; the old one is not stopped
      some { proxies := if f.renews cfg then f.proxies ++ [newLiveProxy cfg.connectionPool] else f.proxies
             applying := some cfg
             calls := f.calls + 1 }
    else none
  | .load w order => do
    let cfg ← f.applying
    let f' ← f.update (f.proxies.length - 1) (·.next (.load w cfg order))
    some { f' with applying := none }
  | .proceed i => f.update i (·.next .proceed)
  | .move i k m => f.update i (·.next (.move k m))
  | .read i readers => f.update i fun p => some { p with readers := readers }

/-- A step of the process; a panic of one proxy is the end of all. -/
def Fleet.next (f : Fleet) (e : FleetEvent) : Option Fleet := if f.proxies.any (·.dead) then none else f.perform e

def Fleet.init : Fleet := ⟨[], none, 0⟩

/-- Every configuration applied meets `V`. -/
def AppliesOnly (V : Config → Prop) (_ : Fleet) (e : FleetEvent) (_ : Fleet) : Prop := ∀ cfg, e = .apply cfg → V cfg

/-- The two numbers of the pool differ, as in a `connection_pool` section that leaves them out. -/
def PoolDiffers (cfg : Config) : Prop := cfg.connectionPool.maxIdleConns ≠ cfg.connectionPool.maxIdleConnsPerHost

instance : DecidablePred PoolDiffers := fun cfg =>
  inferInstanceAs (Decidable (cfg.connectionPool.maxIdleConns ≠ cfg.connectionPool.maxIdleConnsPerHost))

/-- One call of `applyConfig` with the pool of such a section, to its end; `i` is the place of its proxy. -/
def defaultReload (i : Nat) : List FleetEvent :=
  [.apply (smallConfig 100 "c"), .load calmWorld [.heartbeat "c" 0 0, .clusterUser "c" "default", .user "u"]] ++
    List.replicate 11 (.proceed i)

def appliesDiffering (_ : Fleet) (e : FleetEvent) (_ : Fleet) : Bool :=
  match e with
  | .apply cfg => decide (PoolDiffers cfg)
  | _ => true

theorem Fleet.reach_of_runWhen {f f' : Fleet} {es : List FleetEvent}
    (h : Steps.runWhen Fleet.next appliesDiffering f es = some f') :
    Steps.ReachWhen Fleet.next (· = f) (AppliesOnly PoolDiffers) f' := by
  refine Steps.ReachWhen.of_runWhen (fun _ e _ he => ?_) es (.init rfl) h
  rintro cfg rfl
  exact of_decide_eq_true he

/-! ## What holds of every proxy -/

/-- What every proxy of the process keeps; `current` for the one in the variable. -/
structure LiveProxy.Kept (V : World × Config → Prop) (current : Bool) (p : LiveProxy) : Prop where
  services : p.services.Ordered
  follows : p.Follows V
  pool : p.loader.rp.maxIdleConns = p.loader.rp.maxIdleConnsPerHost
  done : current = false → p.loading = none

theorem newLiveProxy_kept (V : World × Config → Prop) (cfgCp : Config.ConnectionPool) (current : Bool) :
    (newLiveProxy cfgCp).Kept V current :=
  ⟨Generations.St.ordered_init, newLiveProxy_follows V cfgCp, rfl, fun _ => rfl⟩

section Kept

variable {V : World × Config → Prop} {p p' : LiveProxy} {e : Event} {current : Bool}

theorem LiveProxy.Moves.pool (hm : p.Moves e p')
    (h : p.loader.rp.maxIdleConns = p.loader.rp.maxIdleConnsPerHost) :
    p'.loader.rp.maxIdleConns = p'.loader.rp.maxIdleConnsPerHost := by
  cases hm with
  | @fails w cfg order err hnone herr l hl =>
    cases hl
    rcases ReverseProxy.applyConfig_failed herr with ⟨-, hrp⟩ | ⟨-, -, hrp⟩
    · dsimp only; rw [hrp]; exact h
    · dsimp only; rw [hrp]; exact h
  | _ => exact h

/-- A proxy that is not the current one only has its goroutines moved. -/
theorem LiveProxy.Moves.done (hm : p.Moves e p') (hload : ∀ w cfg order, e ≠ .load w cfg order)
    (hdone : p.loading = none) : p'.loading = none ∧ p'.loader = p.loader := by
  cases hm with
  | works hmove => exact ⟨hdone, rfl⟩
  | @panics w cfg order => exact absurd rfl (hload w cfg order)
  | @fails w cfg order => exact absurd rfl (hload w cfg order)
  | @begins w cfg order => exact absurd rfl (hload w cfg order)
  | restarts hl => rw [hdone] at hl; cases hl
  | locks hl => rw [hdone] at hl; cases hl
  | clusters hl => rw [hdone] at hl; cases hl
  | users hl => rw [hdone] at hl; cases hl
  | caches hl => rw [hdone] at hl; cases hl
  | unlocks hl => rw [hdone] at hl; cases hl

theorem LiveProxy.Kept.step (hp : p.Kept V current) (hm : p.Moves e p') (he : e.Loads V)
    (hload : current = false → ∀ w cfg order, e ≠ .load w cfg order) : p'.Kept V current :=
  ⟨services_step hp.services hm, hp.follows.step hp.services hm he, hm.pool hp.pool,
    fun hc => (hm.done (hload hc) (hp.done hc)).1⟩

end Kept

/-! ## What holds of the process -/

section Runs

variable {V : Config → Prop} {f f' : Fleet} {e : FleetEvent}

/-- Every proxy is kept, and what is being applied meets `V`. -/
structure Fleet.Inv (V : Config → Prop) (f : Fleet) : Prop where
  kept : ∀ (i : Nat) (p : LiveProxy), f.proxies[i]? = some p →
    p.Kept (fun call => V call.2) (decide (i + 1 = f.proxies.length))
  applying : ∀ cfg, f.applying = some cfg → V cfg

theorem Fleet.update_cases {i : Nat} {step : LiveProxy → Option LiveProxy} (h : f.update i step = some f') :
    ∃ p p', f.proxies[i]? = some p ∧ step p = some p' ∧ f' = { f with proxies := f.proxies.set i p' } := by
  simp only [update, Option.bind_eq_bind, Option.bind_eq_some_iff, Option.some.injEq] at h
  obtain ⟨p, hp, p', hp', rfl⟩ := h
  exact ⟨p, p', hp, hp', rfl⟩

/-- What a step can be: a call of `applyConfig` begins, or one proxy moves; a proxy that is loaded is the
last. -/
inductive Fleet.Moves (f : Fleet) : FleetEvent → Fleet → Prop
  | applies {cfg : Config} : f.quiet = true →
      Moves f (.apply cfg)
        { proxies := if f.renews cfg then f.proxies ++ [newLiveProxy cfg.connectionPool] else f.proxies
          applying := some cfg
          calls := f.calls + 1 }
  | loads {cfg : Config} {w : World} {order : List Goroutine} {p p' : LiveProxy} : f.applying = some cfg →
      f.proxies[f.proxies.length - 1]? = some p → p.Moves (.load w cfg order) p' →
      Moves f (.load w order) { f with proxies := f.proxies.set (f.proxies.length - 1) p', applying := none }
  | moves {e : FleetEvent} {i : Nat} {p p' : LiveProxy} {e' : Event} : f.proxies[i]? = some p → p.Moves e' p' →
      (∀ w cfg order, e' ≠ .load w cfg order) → (∀ cfg, e ≠ .apply cfg) →
      Moves f e { f with proxies := f.proxies.set i p' }
  | reads {i readers : Nat} {p : LiveProxy} : f.proxies[i]? = some p →
      Moves f (.read i readers) { f with proxies := f.proxies.set i { p with readers := readers } }

theorem Fleet.next_moves (hn : f.next e = some f') : f.Moves e f' := by
  have h : f.perform e = some f' := by
    unfold next at hn
    split at hn
    · cases hn
    · exact hn
  cases e with
  | apply cfg =>
    simp only [perform] at h
    split at h
    · rename_i hquiet
      cases h
      exact .applies hquiet
    · cases h
  | load w order =>
    simp only [perform, Option.bind_eq_bind, Option.bind_eq_some_iff, Option.some.injEq] at h
    obtain ⟨cfg, hcfg, f₁, h1, rfl⟩ := h
    obtain ⟨p, p', hp, hp', rfl⟩ := update_cases h1
    exact .loads hcfg hp (LiveProxy.next_moves hp')
  | proceed i =>
    obtain ⟨p, p', hp, hp', rfl⟩ := update_cases h
    exact .moves hp (LiveProxy.next_moves hp') (by simp) (by simp)
  | move i k m =>
    obtain ⟨p, p', hp, hp', rfl⟩ := update_cases h
    exact .moves hp (LiveProxy.next_moves hp') (by simp) (by simp)
  | read i readers =>
    obtain ⟨p, p', hp, hp', rfl⟩ := update_cases h
    cases hp'
    exact .reads hp

/-- One proxy is put in the place of its predecessor. -/
theorem Fleet.Inv.set {i : Nat} {p : LiveProxy} {applying : Option Config} (hf : f.Inv V)
    (hp : p.Kept (fun call => V call.2) (decide (i + 1 = f.proxies.length)))
    (happlying : ∀ cfg, applying = some cfg → V cfg) :
    ({ f with proxies := f.proxies.set i p, applying := applying } : Fleet).Inv V := by
  refine ⟨fun j q hq => ?_, happlying⟩
  dsimp only at hq ⊢
  rw [List.length_set]
  by_cases hij : i = j
  · subst hij
    rw [List.getElem?_set_self'] at hq
    obtain ⟨_, -, rfl⟩ := Option.map_eq_some_iff.1 hq
    exact hp
  · rw [List.getElem?_set_ne hij] at hq
    exact hf.kept j q hq

/-- While no call is in progress no proxy is being loaded. -/
theorem Fleet.Inv.loading_eq_none (hf : f.Inv V) (hquiet : f.quiet = true) {i : Nat} {p : LiveProxy}
    (hp : f.proxies[i]? = some p) : p.loading = none := by
  by_cases hlast : i + 1 = f.proxies.length
  · simp only [quiet, Bool.and_eq_true] at hquiet
    rw [List.getLast?_eq_getElem?, ← hlast, Nat.add_sub_cancel, hp] at hquiet
    simpa using hquiet.2
  · exact (hf.kept i p hp).done (by simp [hlast])

theorem Fleet.Inv.step (hf : f.Inv V) (hm : f.Moves e f') (he : AppliesOnly V f e f') : f'.Inv V := by
  cases hm with
  | @applies cfg hquiet =>
    refine ⟨fun i p hp => ?_, fun c hc => ?_⟩
    · dsimp only at hp ⊢
      split at hp
      · rcases Nat.lt_or_ge i f.proxies.length with hlt | hge
        · -- the old proxies, also the one that was in the variable, are done
          rw [List.getElem?_append_left hlt] at hp
          have hkept := hf.kept i p hp
          exact ⟨hkept.services, hkept.follows, hkept.pool, fun _ => hf.loading_eq_none hquiet hp⟩
        · rw [List.getElem?_append_right hge, List.getElem?_singleton] at hp
          split at hp
          · cases hp
            exact newLiveProxy_kept _ _ _
          · cases hp
      · rename_i hrenews
        rw [if_neg hrenews]
        exact hf.kept i p hp
    · cases hc
      exact he cfg rfl
  | @loads cfg w order p p' hcfg hp hm =>
    have hlen : f.proxies.length - 1 + 1 = f.proxies.length :=
      Nat.sub_one_add_one (by rintro h0; rw [List.eq_nil_of_length_eq_zero h0] at hp; cases hp)
    refine hf.set ((hf.kept _ p hp).step hm (hf.applying cfg hcfg) fun hc => ?_) (by simp)
    simp [hlen] at hc
  | @moves _ i p p' e' hp hm hload _ =>
    refine hf.set ((hf.kept i p hp).step hm ?_ fun _ => hload) hf.applying
    cases e' with
    | load w cfg order => exact absurd rfl (hload w cfg order)
    | proceed => trivial
    | move k m => trivial
  | @reads i readers p hp =>
    have hkept := hf.kept i p hp
    exact hf.set ⟨hkept.services, hkept.follows.read readers, hkept.pool, hkept.done⟩ hf.applying

theorem Fleet.inv_reach (h : Steps.ReachWhen Fleet.next (· = Fleet.init) (AppliesOnly V) f) : f.Inv V := by
  refine h.invariant (P := Fleet.Inv V) (fun s hs => ?_) fun s e s' hs hst he => hs.step (next_moves hst) he
  subst hs
  exact ⟨fun i p hp => by simp [init] at hp, fun cfg hcfg => by simp [init] at hcfg⟩

/-! ## Replaced proxies -/

/-- A replaced proxy keeps its fields. -/
theorem Fleet.Moves.replaced (hf : f.Inv V) (hm : f.Moves e f') {i : Nat} {p : LiveProxy}
    (hp : f.proxies[i]? = some p) (hi : i + 1 < f.proxies.length) :
    i + 1 < f'.proxies.length ∧ ∃ p', f'.proxies[i]? = some p' ∧ p'.loader = p.loader := by
  have hdone := (hf.kept i p hp).done (by simp; omega)
  -- one proxy changes at a time
  have hset : ∀ {j : Nat} {q q' : LiveProxy}, f.proxies[j]? = some q → (j = i → q'.loader = q.loader) →
      ∃ p', (f.proxies.set j q')[i]? = some p' ∧ p'.loader = p.loader := by
    intro j q q' hq hsame
    by_cases hij : j = i
    · subst hij
      rw [hp] at hq
      cases hq
      exact ⟨q', by rw [List.getElem?_set_self', hp]; rfl, hsame rfl⟩
    · exact ⟨p, by rw [List.getElem?_set_ne hij, hp], rfl⟩
  cases hm with
  | @applies cfg hquiet =>
    dsimp only
    split
    · refine ⟨by rw [List.length_append]; omega, p, ?_, rfl⟩
      rw [List.getElem?_append_left (by omega), hp]
    · exact ⟨hi, p, hp, rfl⟩
  -- only the last proxy of the list is loaded
  | @loads cfg w order q q' hcfg hq hm => exact ⟨by rw [List.length_set]; exact hi, hset hq fun hj => by omega⟩
  | @moves _ j q q' e' hq hm hload _ =>
    refine ⟨by rw [List.length_set]; exact hi, hset hq fun hj => ?_⟩
    subst hj
    rw [hp] at hq
    cases hq
    exact (hm.done hload hdone).2
  | @reads j readers q hq => exact ⟨by rw [List.length_set]; exact hi, hset hq fun _ => rfl⟩

theorem Fleet.replaced_reach (h : Steps.ReachWhen Fleet.next (· = Fleet.init) (AppliesOnly V) f)
    (h' : Steps.ReachWhen Fleet.next (· = f) (AppliesOnly V) f') {i : Nat} {p : LiveProxy}
    (hp : f.proxies[i]? = some p) (hi : i + 1 < f.proxies.length) :
    i + 1 < f'.proxies.length ∧ ∃ p', f'.proxies[i]? = some p' ∧ p'.loader = p.loader := by
  refine (h'.invariant (P := fun f' => f'.Inv V ∧ i + 1 < f'.proxies.length ∧
    ∃ p', f'.proxies[i]? = some p' ∧ p'.loader = p.loader) (fun x hx => ?_) fun x e y hx hst he => ?_).2
  · subst hx
    exact ⟨Fleet.inv_reach h, hi, p, hp, rfl⟩
  · obtain ⟨hinv, hlen, q, hq, hloader⟩ := hx
    have hm := Fleet.next_moves hst
    obtain ⟨hlen', q', hq', hloader'⟩ := hm.replaced hinv hq hlen
    exact ⟨hinv.step hm he, hlen', q', hq', hloader'.trans hloader⟩

/-- From the moment a proxy has been replaced, in every later state of the process: its tables are there,
none of its caches has been closed since, its `reloadSignal` is open, and for every node, user and cluster
user of its tables one goroutine runs. -/
theorem replaced_goroutines_run_forever (h : Steps.ReachWhen Fleet.next (· = Fleet.init) (AppliesOnly V) f)
    (h' : Steps.ReachWhen Fleet.next (· = f) (AppliesOnly V) f') {i : Nat} {p : LiveProxy}
    (hp : f.proxies[i]? = some p) (hi : i + 1 < f.proxies.length) :
    ∃ p', f'.proxies[i]? = some p' ∧ p'.loader = p.loader ∧ p'.services.signal ∉ p'.services.closed ∧
      ∀ g, p'.services.alive.count g =
        if g ∈ restartWithNewConfig p.loader.rp.clusters p.loader.rp.users then 1 else 0 := by
  obtain ⟨hi', p', hp', hloader⟩ := Fleet.replaced_reach h h' hp hi
  have hkept := (Fleet.inv_reach (h.trans h')).kept i p' hp'
  have hdone := hkept.done (by simp; omega)
  refine ⟨p', hp', hloader, fun hc => ?_, hloader ▸ hkept.follows.alive_count hkept.services hdone⟩
  simpa [(hkept.follows.idle hdone).2.1, Generations.Stage.stopped] using (hkept.services.closed _).1 hc

theorem replaced_goroutines_run_forever_default :
    ∃ f f' p p', Steps.ReachWhen Fleet.next (· = Fleet.init) (AppliesOnly PoolDiffers) f ∧
      Steps.ReachWhen Fleet.next (· = f) (AppliesOnly PoolDiffers) f' ∧ f.proxies[0]? = some p ∧
      f.proxies.length = 2 ∧ f'.proxies[0]? = some p' ∧ p'.services.signal ∉ p'.services.closed ∧
      p'.services.alive.count (.heartbeat "c" 0 0) = 1 := by
  -- replaced by the second call, looked at after the third
  have hrun : (Steps.runWhen Fleet.next appliesDiffering .init (defaultReload 0 ++ defaultReload 1)).bind (fun f =>
      (f.proxies[0]?).bind fun p => (Steps.runWhen Fleet.next appliesDiffering f (defaultReload 2)).map fun _ =>
        (f.proxies.length, decide (.heartbeat "c" 0 0 ∈
          restartWithNewConfig p.loader.rp.clusters p.loader.rp.users))) = some (2, true) := by decide
  obtain ⟨f, hf, hrun⟩ := Option.bind_eq_some_iff.1 hrun
  obtain ⟨p, hp, hrun⟩ := Option.bind_eq_some_iff.1 hrun
  obtain ⟨f', hf', heq⟩ := Option.map_eq_some_iff.1 hrun
  obtain ⟨hlen, hmem⟩ := Prod.mk.inj heq
  have hreach := Fleet.reach_of_runWhen hf
  have hreach' := Fleet.reach_of_runWhen hf'
  obtain ⟨p', hp', -, hopen, halive⟩ := replaced_goroutines_run_forever hreach hreach' hp (by omega)
  refine ⟨f, f', p, p', hreach, hreach', hp, hlen, hp', hopen, ?_⟩
  rw [halive, if_pos (of_decide_eq_true hmem)]

/-! ## Every reload with two different numbers -/

theorem Fleet.Inv.renews (hf : f.Inv V) {cfg : Config}
    (hdiffer : PoolDiffers cfg) : f.renews cfg = true := by
  unfold Fleet.renews
  cases hlast : f.proxies.getLast? with
  | none => rfl
  | some p =>
    rw [List.getLast?_eq_getElem?] at hlast
    have hpool := (hf.kept _ p hlast).pool
    simp only [Option.all_some, proxyConfigChanged_iff, not_and]
    intro h1 h2
    exact hdiffer (h1.trans (hpool.trans h2.symm))

theorem Fleet.length_eq_calls (h : Steps.ReachWhen Fleet.next (· = Fleet.init) (AppliesOnly PoolDiffers) f) :
    f.proxies.length = f.calls := by
  refine (h.invariant (P := fun f => f.Inv PoolDiffers ∧ f.proxies.length = f.calls) (fun x hx => ?_)
    fun x e y hx hst he => ?_).2
  · subst hx
    exact ⟨Fleet.inv_reach (.init rfl), rfl⟩
  · have hm := Fleet.next_moves hst
    refine ⟨hx.1.step hm he, ?_⟩
    cases hm with
    | @applies cfg hquiet =>
      rw [if_pos (hx.1.renews (he cfg rfl)), List.length_append, hx.2]
      rfl
    | loads => rw [List.length_set]; exact hx.2
    | moves => rw [List.length_set]; exact hx.2
    | reads => rw [List.length_set]; exact hx.2

/-- When the two numbers of `connection_pool` differ in every configuration applied, each call of
`applyConfig` has made a proxy of its own; and while no call is in progress, for each of these proxies there
runs one goroutine for every node, user and cluster user of its tables, and no other. -/
theorem reloads_accumulate_goroutines
    (h : Steps.ReachWhen Fleet.next (· = Fleet.init) (AppliesOnly PoolDiffers) f) :
    f.proxies.length = f.calls ∧
    (f.quiet = true → ∀ p ∈ f.proxies, ∀ g, p.services.alive.count g =
      if g ∈ restartWithNewConfig p.loader.rp.clusters p.loader.rp.users then 1 else 0) := by
  refine ⟨Fleet.length_eq_calls h, fun hquiet p hp => ?_⟩
  obtain ⟨i, hi⟩ := List.mem_iff_getElem?.1 hp
  have hinv := Fleet.inv_reach h
  have hkept := hinv.kept i p hi
  exact hkept.follows.alive_count hkept.services (hinv.loading_eq_none hquiet hi)

theorem reloads_accumulate_goroutines_default :
    ∃ f, Steps.ReachWhen Fleet.next (· = Fleet.init) (AppliesOnly PoolDiffers) f ∧ f.calls = 2 ∧
      f.proxies.length = 2 ∧ ∀ p ∈ f.proxies, p.services.alive.count (.heartbeat "c" 0 0) = 1 := by
  have hrun : (Steps.runWhen Fleet.next appliesDiffering .init (defaultReload 0 ++ defaultReload 1)).map
      (fun f => (f.quiet, f.calls, f.proxies.all fun p => decide (.heartbeat "c" 0 0 ∈
        restartWithNewConfig p.loader.rp.clusters p.loader.rp.users))) = some (true, 2, true) := by decide
  obtain ⟨f, hf, heq⟩ := Option.map_eq_some_iff.1 hrun
  simp only [Prod.mk.injEq, List.all_eq_true, decide_eq_true_eq] at heq
  have hreach := Fleet.reach_of_runWhen hf
  obtain ⟨hlen, hall⟩ := reloads_accumulate_goroutines hreach
  refine ⟨f, hreach, heq.2.1, hlen.trans heq.2.1, fun p hp => ?_⟩
  rw [hall heq.1 p hp, if_pos (heq.2.2 p hp)]

end Runs

end Chproxy.Routing
