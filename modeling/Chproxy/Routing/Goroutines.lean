/-
A reload as it happens beside everything else: `applyConfig` of `proxy.go` from the point where the new
tables are ready. It closes `reloadSignal`, waits for the service goroutines of the running
configuration (one `StartHeartbeat` per node, one `rateLimiter.run` per user and cluster user), starts
those of the new one, takes the lock and assigns the tables one by one. The goroutines move at any time
in between, and so do the readers of the lock.
-/
import Chproxy.Lib.Generations
import Chproxy.Routing.Ownership

namespace Chproxy.Routing

/-! ## The service goroutines of a configuration -/

/-- A service goroutine, by the object it works on. -/
inductive Goroutine
  | heartbeat (cluster : String) (replica host : Nat)
  | clusterUser (cluster name : String)
  | user (name : String)
  deriving DecidableEq, Repr

/-- `StartHeartbeat` begins with a heartbeat, `rateLimiter.run` with waiting. -/
def Goroutine.eager : Goroutine → Bool
  | .heartbeat .. => true
  | _ => false

def Cluster.goroutines (name : String) (c : Cluster) : List Goroutine :=
  c.replicas.zipIdx.flatMap (fun r => (List.range r.1.hosts.length).map (.heartbeat name r.2)) ++
    c.users.keys.map (.clusterUser name)

/-- The goroutines that are started, in one of the orders in which Go may iterate over the maps. -/
def restartWithNewConfig (clusters : Map Cluster) (users : Map User) : List Goroutine :=
  clusters.entries.flatMap (fun c => c.2.goroutines c.1) ++ users.keys.map .user

theorem Cluster.mem_goroutines {name : String} {c : Cluster} {g : Goroutine} :
    g ∈ c.goroutines name ↔
      (∃ i j r, c.replicas[i]? = some r ∧ j < r.hosts.length ∧ g = .heartbeat name i j) ∨
      (∃ cu, cu ∈ c.users ∧ g = .clusterUser name cu) := by
  simp only [goroutines, List.mem_append, List.mem_flatMap, List.mem_map, List.mem_range, AList.mem_keys]
  refine or_congr ⟨?_, ?_⟩ ⟨?_, ?_⟩
  · rintro ⟨⟨r, i⟩, hr, j, hj, rfl⟩
    exact ⟨i, j, r, List.mem_zipIdx_iff_getElem?.1 hr, hj, rfl⟩
  · rintro ⟨i, j, r, hr, hj, rfl⟩
    exact ⟨(r, i), List.mem_zipIdx_iff_getElem?.2 hr, j, hj, rfl⟩
  · rintro ⟨cu, hcu, rfl⟩
    exact ⟨cu, hcu, rfl⟩
  · rintro ⟨cu, hcu, rfl⟩
    exact ⟨cu, hcu, rfl⟩

theorem Cluster.nodup_goroutines (name : String) (c : Cluster) : (c.goroutines name).Nodup := by
  unfold goroutines
  refine List.nodup_append'.2 ⟨List.nodup_flatMap.2 ⟨fun r _ => ?_, ?_⟩, ?_, ?_⟩
  · exact List.nodup_range.map fun i j h => by cases h; rfl
  · have hidx : (c.replicas.zipIdx.map Prod.snd).Nodup := List.nodup_zipIdx_map_snd _
    refine (List.pairwise_map.1 hidx).imp fun hne g h1 h2 => hne ?_
    obtain ⟨i, -, rfl⟩ := List.mem_map.1 h1
    obtain ⟨j, -, heq⟩ := List.mem_map.1 h2
    exact (Goroutine.heartbeat.inj heq).2.1.symm
  · exact c.users.keys_nodup.map fun i j h => by cases h; rfl
  · intro g h1 h2
    obtain ⟨r, -, h1⟩ := List.mem_flatMap.1 h1
    obtain ⟨i, -, rfl⟩ := List.mem_map.1 h1
    obtain ⟨cu, -, heq⟩ := List.mem_map.1 h2
    cases heq

/-- The cluster whose object a goroutine works on. -/
def Goroutine.cluster : Goroutine → Option String
  | .heartbeat cluster _ _ => some cluster
  | .clusterUser cluster _ => some cluster
  | .user _ => none

theorem Cluster.goroutine_cluster {name : String} {c : Cluster} {g : Goroutine} (h : g ∈ c.goroutines name) :
    g.cluster = some name := by
  rcases mem_goroutines.1 h with ⟨i, j, r, -, -, rfl⟩ | ⟨cu, -, rfl⟩
  · rfl
  · rfl

/-- One goroutine for every node, every cluster user and every user, and no other. -/
theorem mem_restartWithNewConfig {clusters : Map Cluster} {users : Map User} {g : Goroutine} :
    g ∈ restartWithNewConfig clusters users ↔
      (∃ name c, clusters.lookup name = some c ∧ g ∈ c.goroutines name) ∨ ∃ name, name ∈ users ∧ g = .user name := by
  simp only [restartWithNewConfig, List.mem_append, List.mem_flatMap, List.mem_map, AList.mem_keys]
  refine or_congr ⟨?_, ?_⟩ ⟨?_, ?_⟩
  · rintro ⟨⟨name, c⟩, hc, hg⟩
    exact ⟨name, c, AList.mem_lookup_iff.2 hc, hg⟩
  · rintro ⟨name, c, hc, hg⟩
    exact ⟨⟨name, c⟩, AList.mem_lookup_iff.1 hc, hg⟩
  · rintro ⟨name, hname, rfl⟩
    exact ⟨name, hname, rfl⟩
  · rintro ⟨name, hname, rfl⟩
    exact ⟨name, hname, rfl⟩

theorem nodup_restartWithNewConfig (clusters : Map Cluster) (users : Map User) :
    (restartWithNewConfig clusters users).Nodup := by
  unfold restartWithNewConfig
  refine List.nodup_append'.2 ⟨List.nodup_flatMap.2 ⟨fun c _ => c.2.nodup_goroutines c.1, ?_⟩, ?_, ?_⟩
  · refine (List.nodupKeys_iff_pairwise.1 clusters.nodupKeys).imp fun hne g h1 h2 => hne ?_
    exact Option.some.inj ((Cluster.goroutine_cluster h1).symm.trans (Cluster.goroutine_cluster h2))
  · exact users.keys_nodup.map fun i j h => by cases h; rfl
  · intro g h1 h2
    obtain ⟨c, -, h1⟩ := List.mem_flatMap.1 h1
    obtain ⟨name, -, rfl⟩ := List.mem_map.1 h2
    cases Cluster.goroutine_cluster h1

/-! ## A proxy with its goroutines -/

/-- The statements of `applyConfig` that are still to come when the new tables are ready. -/
inductive Statement
  | restart
  | clusters
  | users
  | caches
  | unlock
  deriving DecidableEq, Repr

/-- A call of `applyConfig` that will succeed: what it leaves in the end, and where it stands. -/
structure Loading where
  call : World × Config
  out : Applied
  pos : Statement

/-- A `reverseProxy` with its goroutines: the fields, the cache addresses given out and those closed; the
call of `applyConfig` in progress, if any (`configLock` admits one); the number of readers that hold
`lock`; the goroutines with `reloadSignal` and `reloadWG`; the calls of `applyConfig` that have returned,
successful or not, in their order; and whether one has panicked. -/
structure LiveProxy where
  loader : Loader
  loading : Option Loading
  readers : Nat
  services : Generations.St Goroutine
  returned : List (World × Config)
  panicked : Bool

/-- A goroutine or a call of `applyConfig` has panicked: the process is gone. -/
def LiveProxy.dead (h : LiveProxy) : Bool := h.services.crashed || h.panicked

/-- The lock is held for writing from the assignment of the clusters to the unlocking. -/
def LiveProxy.writing (h : LiveProxy) : Bool := h.loading.any fun l => l.pos != .restart

/-- The beginning of a call of `applyConfig`. One that returns an error leaves only the two settings; one that
will succeed has assigned them when it closes `reloadSignal`. `order` is the order in which it will start the
goroutines. -/
def LiveProxy.load (h : LiveProxy) (w : World) (cfg : Config) (order : List Goroutine) : Option LiveProxy :=
  if h.loading.isSome then none
  else
    let out := h.loader.rp.applyConfig w h.loader.next cfg
    match out.err with
    | some .panic => some { h with panicked := true }
    -- it returns before the goroutines are stopped
    | some (.error _) =>
      (h.loader.load (w, cfg)).map fun l => { h with loader := l, returned := h.returned ++ [(w, cfg)] }
    | none =>
      if order.Perm (restartWithNewConfig out.rp.clusters out.rp.users) then
        (h.services.close order).map fun services =>
          { h with
            loader := { h.loader with rp := h.loader.rp.withSettings cfg, next := out.next }
            loading := some ⟨(w, cfg), out, .restart⟩
            services := services }
      else none

/-- The next statement of the call in progress. -/
def LiveProxy.proceed (h : LiveProxy) : Option LiveProxy :=
  match h.loading with
  | none => none
  | some ⟨call, out, .restart⟩ =>
    match h.services.stage with
    | .idle =>
      if h.readers = 0 then some { h with loading := some ⟨call, out, .clusters⟩ } else none -- `rp.lock.Lock()`
    | _ => h.services.pass.map fun services => { h with services := services }
  | some ⟨call, out, .clusters⟩ =>
    some { h with
      loader := { h.loader with rp := { h.loader.rp with clusters := out.rp.clusters } }
      loading := some ⟨call, out, .users⟩ }
  | some ⟨call, out, .users⟩ =>
    some { h with
      loader := { h.loader with rp := { h.loader.rp with users := out.rp.users } }
      loading := some ⟨call, out, .caches⟩ }
  | some ⟨call, out, .caches⟩ =>
    some { h with
      loader := { h.loader with rp := { h.loader.rp with caches := out.rp.caches } }
      loading := some ⟨call, out, .unlock⟩ }
  | some ⟨call, out, .unlock⟩ =>
    some { h with
      loader := { h.loader with closed := h.loader.closed ++ cacheIds out.closed }
      loading := none
      returned := h.returned ++ [call] }

inductive Event
  | load (w : World) (cfg : Config) (order : List Goroutine)
  | proceed
  | move (i : Nat) (m : Generations.Move)

/-- What happens to a proxy apart from its readers; a panic ends it. -/
def LiveProxy.next (h : LiveProxy) (e : Event) : Option LiveProxy :=
  if h.dead then none
  else
    match e with
    | .load w cfg order => h.load w cfg order
    | .proceed => h.proceed
    | .move i m => (h.services.move Goroutine.eager i m).map fun services => { h with services := services }

def newLiveProxy (cfgCp : Config.ConnectionPool) : LiveProxy :=
  ⟨⟨newReverseProxy cfgCp, 0, []⟩, none, 0, .init, [], false⟩

/-! ## What an event can do -/

/-- Each way an event changes a proxy. -/
inductive LiveProxy.Moves (h : LiveProxy) : Event → LiveProxy → Prop
  | panics {w : World} {cfg : Config} {order : List Goroutine} : h.loading = none →
      (h.loader.rp.applyConfig w h.loader.next cfg).err = some .panic →
      Moves h (.load w cfg order) { h with panicked := true }
  | fails {w : World} {cfg : Config} {order : List Goroutine} {e : BuildError} : h.loading = none →
      (h.loader.rp.applyConfig w h.loader.next cfg).err = some (.error e) →
      ∀ l, h.loader.load (w, cfg) = some l →
        Moves h (.load w cfg order) { h with loader := l, returned := h.returned ++ [(w, cfg)] }
  | begins {w : World} {cfg : Config} {order : List Goroutine} {services : Generations.St Goroutine} :
      h.loading = none → h.panicked = false → (h.loader.rp.applyConfig w h.loader.next cfg).err = none →
      order.Perm (restartWithNewConfig (h.loader.rp.applyConfig w h.loader.next cfg).rp.clusters
        (h.loader.rp.applyConfig w h.loader.next cfg).rp.users) →
      h.services.close order = some services →
      Moves h (.load w cfg order)
        { h with
          loader := { h.loader with
            rp := h.loader.rp.withSettings cfg, next := (h.loader.rp.applyConfig w h.loader.next cfg).next }
          loading := some ⟨(w, cfg), h.loader.rp.applyConfig w h.loader.next cfg, .restart⟩
          services := services }
  | restarts {call : World × Config} {out : Applied} {services : Generations.St Goroutine} :
      h.loading = some ⟨call, out, .restart⟩ → h.services.pass = some services →
      Moves h .proceed { h with services := services }
  | locks {call : World × Config} {out : Applied} : h.loading = some ⟨call, out, .restart⟩ →
      h.services.stage = .idle → h.readers = 0 →
      Moves h .proceed { h with loading := some ⟨call, out, .clusters⟩ }
  | clusters {call : World × Config} {out : Applied} : h.loading = some ⟨call, out, .clusters⟩ →
      Moves h .proceed { h with
        loader := { h.loader with rp := { h.loader.rp with clusters := out.rp.clusters } }
        loading := some ⟨call, out, .users⟩ }
  | users {call : World × Config} {out : Applied} : h.loading = some ⟨call, out, .users⟩ →
      Moves h .proceed { h with
        loader := { h.loader with rp := { h.loader.rp with users := out.rp.users } }
        loading := some ⟨call, out, .caches⟩ }
  | caches {call : World × Config} {out : Applied} : h.loading = some ⟨call, out, .caches⟩ →
      Moves h .proceed { h with
        loader := { h.loader with rp := { h.loader.rp with caches := out.rp.caches } }
        loading := some ⟨call, out, .unlock⟩ }
  | unlocks {call : World × Config} {out : Applied} : h.loading = some ⟨call, out, .unlock⟩ →
      Moves h .proceed { h with
        loader := { h.loader with closed := h.loader.closed ++ cacheIds out.closed }
        loading := none
        returned := h.returned ++ [call] }
  | works {i : Nat} {m : Generations.Move} {services : Generations.St Goroutine} :
      h.services.move Goroutine.eager i m = some services → Moves h (.move i m) { h with services := services }

theorem LiveProxy.load_moves {h h' : LiveProxy} {w : World} {cfg : Config} {order : List Goroutine}
    (halive : h.panicked = false) (hn : h.load w cfg order = some h') : h.Moves (.load w cfg order) h' := by
  unfold load at hn
  split at hn
  · cases hn
  rename_i hidle
  have hnone : h.loading = none := by simpa using hidle
  dsimp only at hn
  split at hn
  · rename_i herr
    cases hn
    exact .panics hnone herr
  · rename_i e herr
    obtain ⟨l, hl, rfl⟩ := Option.map_eq_some_iff.1 hn
    exact .fails hnone herr l hl
  · rename_i herr
    split at hn
    · rename_i hperm
      obtain ⟨services, hclose, rfl⟩ := Option.map_eq_some_iff.1 hn
      exact .begins hnone halive herr hperm hclose
    · cases hn

theorem LiveProxy.proceed_moves {h h' : LiveProxy} (hn : h.proceed = some h') : h.Moves .proceed h' := by
  unfold proceed at hn
  split at hn
  · cases hn
  · rename_i call out hl
    split at hn
    · rename_i hidle
      split at hn
      · rename_i hreaders
        cases hn
        exact .locks hl hidle hreaders
      · cases hn
    · obtain ⟨services, hpass, rfl⟩ := Option.map_eq_some_iff.1 hn
      exact .restarts hl hpass
  · rename_i call out hl
    cases hn
    exact .clusters hl
  · rename_i call out hl
    cases hn
    exact .users hl
  · rename_i call out hl
    cases hn
    exact .caches hl
  · rename_i call out hl
    cases hn
    exact .unlocks hl

theorem LiveProxy.next_moves {h h' : LiveProxy} {e : Event} (hn : h.next e = some h') : h.Moves e h' := by
  unfold next at hn
  split at hn
  · cases hn
  rename_i hlives
  cases e with
  | load w cfg order => exact load_moves (by simp_all [dead]) hn
  | proceed => exact proceed_moves hn
  | move i m =>
    obtain ⟨services, hmove, rfl⟩ := Option.map_eq_some_iff.1 hn
    exact .works hmove

/-! ## What holds at every moment of a reload -/

/-- The proxy when the assignments before `pos` are made, from the proxy with its settings to the one
the call leaves. -/
def Statement.assigned (pos : Statement) (base target : ReverseProxy) : ReverseProxy :=
  match pos with
  | .restart => base
  | .clusters => base
  | .users => { base with clusters := target.clusters }
  | .caches => { base with clusters := target.clusters, users := target.users }
  | .unlock => { base with clusters := target.clusters, users := target.users, caches := target.caches }

/-- The goroutines of the tables of a proxy. -/
def ReverseProxy.services (rp : ReverseProxy) : List Goroutine := restartWithNewConfig rp.clusters rp.users

/-- The goroutines while `old` is given up for `new`: those of the one up to the wait, then those of the
other. -/
def Handover (old new : ReverseProxy) (s : Generations.St Goroutine) : Prop :=
  match s.stage with
  | .draining jobs => s.roster.Perm old.services ∧ jobs.Perm new.services
  | .drained jobs => s.roster.Perm old.services ∧ jobs.Perm new.services
  | .starting _ => s.roster.Perm new.services
  | .idle => s.roster.Perm new.services

/-- The loader after `calls`, made one after the other on a new proxy and all meeting `V`. -/
structure Loader.After (V : World × Config → Prop) (calls : List (World × Config)) (l : Loader) : Prop where
  run : ∃ l₀, Loader.Initial l₀ ∧ Steps.run Loader.load l₀ calls = some l
  meets : ∀ call ∈ calls, V call

theorem Loader.After.next {V : World × Config → Prop} {calls : List (World × Config)} {l l' : Loader}
    (h : l.After V calls) {call : World × Config} (hl : l.load call = some l') (hV : V call) :
    l'.After V (calls ++ [call]) := by
  obtain ⟨l₀, hinit, hrun⟩ := h.run
  refine ⟨⟨l₀, hinit, ?_⟩, ?_⟩
  · rw [Steps.run_append _ _ hrun, Steps.run, hl]
    rfl
  · intro c hc
    rcases List.mem_append.1 hc with hc | hc
    · exact h.meets c hc
    · exact List.mem_singleton.1 hc ▸ hV

theorem Loader.After.reach {V : World × Config → Prop} {calls : List (World × Config)} {l : Loader}
    (h : l.After V calls) : Steps.ReachWhen Loader.load Loader.Initial (fun _ call _ => V call) l := by
  obtain ⟨l₀, hinit, hrun⟩ := h.run
  exact Steps.ReachWhen.of_run calls (fun call hcall _ _ => h.meets call hcall) (.init hinit) hrun

/-- A proxy between two loads has the fields that the loads so far leave, one after the other, and the
goroutines of its tables; during a load it is on the way from such a proxy to the next. `V` is what every
call meets. -/
inductive LiveProxy.Follows (V : World × Config → Prop) (h : LiveProxy) : Prop
  | between : h.loading = none → h.loader.After V h.returned →
      h.services.stage = .idle → h.services.roster.Perm h.loader.rp.services → Follows V h
  | during (l : Loader) (w : World) (cfg : Config) (pos : Statement) :
      l.After V h.returned → V (w, cfg) → h.panicked = false →
      (l.rp.applyConfig w l.next cfg).err = none →
      h.loading = some ⟨(w, cfg), l.rp.applyConfig w l.next cfg, pos⟩ →
      h.loader = ⟨pos.assigned (l.rp.withSettings cfg) (l.rp.applyConfig w l.next cfg).rp,
        (l.rp.applyConfig w l.next cfg).next, l.closed⟩ →
      Handover l.rp (l.rp.applyConfig w l.next cfg).rp h.services →
      (pos ≠ .restart → h.services.stage = .idle) → Follows V h

/-- A call that succeeds leaves the proxy with its settings and the new tables. -/
theorem ReverseProxy.applyConfig_assigned {w : World} {rp : ReverseProxy} {next : Nat} {cfg : Config}
    (h : (rp.applyConfig w next cfg).err = none) :
    Statement.unlock.assigned (rp.withSettings cfg) (rp.applyConfig w next cfg).rp =
      (rp.applyConfig w next cfg).rp := by
  unfold applyConfig at h ⊢
  cases hclusters : newClusters w ∅ cfg.clusters with
  | error e => simp [hclusters] at h
  | ok clusters =>
    rcases htmp : initTempCaches w (transactionsTimeout cfg.users) ∅ next cfg.caches with ⟨⟨caches, next'⟩, _ | e⟩
    · cases hbuild : buildUsers cfg clusters caches with
      | error e => simp [hclusters, htmp, hbuild] at h
      | ok tables => simp [hbuild, Statement.assigned, withSettings]
    · simp [hclusters, htmp] at h

theorem ReverseProxy.services_eq {rp rp' : ReverseProxy} (h : rp'.tables = rp.tables) : rp'.services = rp.services := by
  have husers : rp'.users = rp.users := congrArg Tables.users h
  have hclusters : rp'.clusters = rp.clusters := congrArg Tables.clusters h
  rw [services, services, husers, hclusters]

theorem Handover.pass {old new : ReverseProxy} {s s' : Generations.St Goroutine} (hs : Handover old new s)
    (h : s.pass = some s') : Handover old new s' := by
  unfold Handover at hs ⊢
  obtain ⟨jobs, hst, -, rfl⟩ | ⟨jobs, hst, rfl⟩ | ⟨hst, rfl⟩ | ⟨job, jobs, hst, rfl⟩ := Generations.St.pass_cases h
  · simpa only [hst] using hs
  · simp only [hst] at hs
    exact hs.2
  · simpa only [hst] using hs
  · simpa only [hst] using hs

theorem Handover.move {old new : ReverseProxy} {s s' : Generations.St Goroutine} (hs : Handover old new s)
    (hframe : s'.stage = s.stage ∧ s'.roster = s.roster) : Handover old new s' := by
  unfold Handover at hs ⊢
  rw [hframe.1, hframe.2]
  exact hs

theorem Handover.idle {old new : ReverseProxy} {s : Generations.St Goroutine} (hs : Handover old new s)
    (hidle : s.stage = .idle) : s.roster.Perm new.services := by
  unfold Handover at hs
  simpa only [hidle] using hs

def Event.Loads (V : World × Config → Prop) : Event → Prop
  | .load w cfg _ => V (w, cfg)
  | _ => True

theorem LiveProxy.services_step {h h' : LiveProxy} {e : Event} (hs : h.services.Ordered) (hm : h.Moves e h') :
    h'.services.Ordered := by
  cases hm with
  | begins _ _ _ _ hclose => exact hs.closeStep hclose
  | restarts _ hpass => exact hs.passStep hpass
  | works hmove => exact hs.moveStep hmove
  | _ => exact hs

section Following

variable {V : World × Config → Prop} {h h' : LiveProxy} {e : Event}

/-- A call in progress is the one `Follows` speaks of. -/
theorem LiveProxy.Follows.loading {call : World × Config} {out : Applied} {pos : Statement} (hf : h.Follows V)
    (hl : h.loading = some ⟨call, out, pos⟩) :
    ∃ (l : Loader) (w : World) (cfg : Config), l.After V h.returned ∧ call = (w, cfg) ∧ V (w, cfg) ∧
      h.panicked = false ∧ out = l.rp.applyConfig w l.next cfg ∧ out.err = none ∧
      h.loader = ⟨pos.assigned (l.rp.withSettings cfg) out.rp, out.next, l.closed⟩ ∧
      Handover l.rp out.rp h.services ∧ (pos ≠ .restart → h.services.stage = .idle) := by
  cases hf with
  | between hnone _ _ _ => rw [hnone] at hl; cases hl
  | during l w cfg pos' hafter hV halive herr hloading hloader hhand hidle =>
    rw [hloading] at hl
    cases hl
    exact ⟨l, w, cfg, hafter, rfl, hV, halive, rfl, herr, hloader, hhand, hidle⟩

theorem LiveProxy.Follows.idle (hf : h.Follows V) (hnone : h.loading = none) :
    h.loader.After V h.returned ∧ h.services.stage = .idle ∧ h.services.roster.Perm h.loader.rp.services := by
  cases hf with
  | between _ hafter hidle hroster => exact ⟨hafter, hidle, hroster⟩
  | during l w cfg pos' hafter hV halive herr hloading hloader hhand hidle => rw [hnone] at hloading; cases hloading

theorem LiveProxy.Follows.step (hs : h.services.Ordered) (hf : h.Follows V) (hm : h.Moves e h') (he : e.Loads V) :
    h'.Follows V := by
  cases hm with
  | @panics w cfg order hnone herr =>
    obtain ⟨hafter, hidle, hroster⟩ := hf.idle hnone
    exact .between hnone hafter hidle hroster
  | @fails w cfg order err hnone herr l hl =>
    obtain ⟨hafter, hidle, hroster⟩ := hf.idle hnone
    refine .between hnone (hafter.next hl he) hidle ?_
    cases hl
    -- a load that fails has changed no table
    rw [ReverseProxy.services_eq (ReverseProxy.applyConfig_tables herr)]
    exact hroster
  | @begins w cfg order services hnone halive herr hperm hclose =>
    obtain ⟨hafter, hidle, hroster⟩ := hf.idle hnone
    refine .during h.loader w cfg .restart hafter he halive herr rfl rfl ?_ (absurd rfl)
    -- the channel of the goroutines was open, so that closing it does not panic
    have hrunning := (hs.closeStep hclose).running
    obtain ⟨-, ⟨-, rfl⟩ | ⟨-, rfl⟩⟩ := Generations.St.close_cases hclose
    · cases hrunning
    · exact ⟨hroster, hperm⟩
  | @restarts call out services hl hpass =>
    obtain ⟨l, w, cfg, hafter, rfl, hV, halive, rfl, herr, hloader, hhand, hidle⟩ := hf.loading hl
    exact .during l w cfg .restart hafter hV halive herr hl hloader (hhand.pass hpass) (absurd rfl)
  | @locks call out hl hidle hreaders =>
    obtain ⟨l, w, cfg, hafter, rfl, hV, halive, rfl, herr, hloader, hhand, -⟩ := hf.loading hl
    exact .during l w cfg .clusters hafter hV halive herr rfl hloader hhand fun _ => hidle
  | @clusters call out hl =>
    obtain ⟨l, w, cfg, hafter, rfl, hV, halive, rfl, herr, hloader, hhand, hidle⟩ := hf.loading hl
    refine .during l w cfg .users hafter hV halive herr rfl ?_ hhand fun _ => hidle (by decide)
    rw [hloader]
    rfl
  | @users call out hl =>
    obtain ⟨l, w, cfg, hafter, rfl, hV, halive, rfl, herr, hloader, hhand, hidle⟩ := hf.loading hl
    refine .during l w cfg .caches hafter hV halive herr rfl ?_ hhand fun _ => hidle (by decide)
    rw [hloader]
    rfl
  | @caches call out hl =>
    obtain ⟨l, w, cfg, hafter, rfl, hV, halive, rfl, herr, hloader, hhand, hidle⟩ := hf.loading hl
    refine .during l w cfg .unlock hafter hV halive herr rfl ?_ hhand fun _ => hidle (by decide)
    rw [hloader]
    rfl
  | @unlocks call out hl =>
    obtain ⟨l, w, cfg, hafter, rfl, hV, halive, rfl, herr, hloader, hhand, hidle⟩ := hf.loading hl
    have hstage := hidle (by decide)
    -- the last assignment makes the tables those of the whole load
    have hload : l.load (w, cfg) = some _ := rfl
    refine .between rfl (hafter.next (hload.trans ?_) hV) hstage ?_
    · simp only [hloader, ReverseProxy.applyConfig_assigned herr]
    · dsimp only
      rw [hloader, ReverseProxy.applyConfig_assigned herr]
      exact hhand.idle hstage
  | @works i m services hmove =>
    have hframe := Generations.St.move_frame hmove
    cases hf with
    | between hnone hafter hidle hroster =>
      exact .between hnone hafter (hframe.1.trans hidle) (by rw [hframe.2]; exact hroster)
    | during l w cfg pos hafter hV halive herr hl hloader hhand hidle =>
      exact .during l w cfg pos hafter hV halive herr hl hloader (hhand.move hframe)
        fun hpos => hframe.1.trans (hidle hpos)

/-- Readers come and go without a trace. -/
theorem LiveProxy.Follows.read (hf : h.Follows V) (readers : Nat) :
    ({ h with readers := readers } : LiveProxy).Follows V := by
  cases hf with
  | between hnone hafter hidle hroster => exact .between hnone hafter hidle hroster
  | during l w cfg pos hafter hV halive herr hl hloader hhand hidle =>
    exact .during l w cfg pos hafter hV halive herr hl hloader hhand hidle

/-- Between two loads one goroutine runs for every node, user and cluster user of the tables. -/
theorem LiveProxy.Follows.alive_count (hf : h.Follows V) (hs : h.services.Ordered) (hnone : h.loading = none)
    (g : Goroutine) : h.services.alive.count g =
      if g ∈ restartWithNewConfig h.loader.rp.clusters h.loader.rp.users then 1 else 0 := by
  obtain ⟨-, hidle, hroster⟩ := hf.idle hnone
  rw [hs.alive_eq_roster hidle, hroster.count_eq]
  exact List.Nodup.count (nodup_restartWithNewConfig _ _)

theorem newLiveProxy_follows (V : World × Config → Prop) (cfgCp : Config.ConnectionPool) :
    (newLiveProxy cfgCp).Follows V :=
  .between rfl ⟨⟨_, ⟨⟨cfgCp, rfl⟩, rfl, rfl⟩, rfl⟩, List.forall_mem_nil _⟩ rfl (.refl _)

end Following

end Chproxy.Routing
