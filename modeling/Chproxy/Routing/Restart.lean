/-
What a reload does to the service goroutines, in every interleaving of `applyConfig` with the goroutines
and with the lookups of requests: outside a load there runs exactly one goroutine for every node, user
and cluster user of the tables; at no time do goroutines of two configurations run together; and a load
that has begun is never stuck behind them or behind the readers of its lock.
-/
import Chproxy.Routing.Linear

namespace Chproxy.Routing

open Guarded (Prog Reader)

variable {V : World × Config → Prop} {s s' : Pool.St LiveProxy UserLookup}

/-! ## One goroutine for each object -/

/-- The configuration passed the validators, and `NewRedisClient` panics on no Redis cache of it. -/
def SafeCall (call : World × Config) : Prop := call.2.Valid ∧ call.1.Dials call.2

theorem LiveProxy.Moves.panicked {h h' : LiveProxy} {e : Event} (hm : h.Moves e h') (he : e.Loads SafeCall) :
    h'.panicked = h.panicked := by
  cases hm with
  | panics hnone herr =>
    obtain ⟨hvalid, hdials⟩ := he
    exact absurd ((ReverseProxy.applyConfig_panic_iff _ _ _ hvalid).1 herr) hdials.not_redisPanics
  | _ => rfl

/-- What may happen while a load completes: its own statements, moves of the goroutines whose timers do not
fire, and steps of the lookups that are there. -/
def Completing (_ : Pool.St LiveProxy UserLookup) (a : Pool.Act UserCall Unit Event)
    (_ : Pool.St LiveProxy UserLookup) : Prop :=
  match a with
  | .spawn _ => False
  | .step _ _ => True
  | .env (.load ..) => False
  | .env .proceed => True
  | .env (.move _ m) => m ≠ .tick

theorem LiveProxy.proceed_restart {h : LiveProxy} {call : World × Config} {out : Applied}
    (hl : h.loading = some ⟨call, out, .restart⟩)
    {services : Generations.St Goroutine} (hpass : h.services.pass = some services) :
    h.proceed = some { h with services := services } := by
  unfold proceed
  rw [hl]
  dsimp only
  cases hst : h.services.stage with
  | idle => simp [Generations.St.pass, hst] at hpass
  | _ => simp [hpass]

/-- The restart of the goroutines inside a load. -/
theorem LiveProxy.restart_reach {h : LiveProxy} {call : World × Config} {out : Applied}
    (hl : h.loading = some ⟨call, out, .restart⟩) (hlives : h.dead = false)
    {services : Generations.St Goroutine} (threads : List UserLookup)
    (hr : Steps.ReachWhen (Generations.next Goroutine.eager) (· = h.services) (fun _ a _ => a.quiet) services) :
    Steps.ReachWhen lookups.next (· = ⟨h, threads⟩) Completing ⟨{ h with services := services }, threads⟩ := by
  refine Steps.ReachWhen.lift (P := fun _ => True) (fun g => (⟨{ h with services := g }, threads⟩ : Pool.St _ _))
    (fun _ _ _ _ _ _ => trivial) (fun g a g' _ hst hq => ?_) trivial hr
  unfold Generations.next at hst
  split at hst
  · cases hst
  rename_i hrunning
  have hlives : ({ h with services := g } : LiveProxy).dead = false := by simp_all [LiveProxy.dead]
  -- a pass is a statement of the load, a move one of a goroutine
  cases a with
  | close jobs => exact hq.elim
  | pass =>
    refine ⟨.env .proceed, Pool.Program.next_env ?_, trivial⟩
    simp only [lookups, LiveProxy.next, hlives]
    exact LiveProxy.proceed_restart (h := { h with services := g }) hl hst
  | move i m =>
    refine ⟨.env (.move i m), Pool.Program.next_env ?_, hq⟩
    simp [lookups, LiveProxy.next, hlives, hst]

/-- A lookup inside the lock comes out of it by its own steps. -/
theorem lookup_leaves {h : LiveProxy} (hlives : h.dead = false) (rest : Prog ReverseProxy (Except Failure Lookup)) :
    ∀ {threads : List UserLookup} {n : Nat} {t : UserLookup}, threads[n]? = some t → t.reader.phase = .inside rest →
      ∃ a, Steps.ReachWhen lookups.next (· = ⟨h, threads⟩) Completing
        ⟨{ h with readers := h.readers - 1 },
          threads.set n { t with reader := { t.reader with phase := .left a } }⟩ := by
  -- the lookup reads the tables a bounded number of times and then unlocks
  induction rest with
  | ret a =>
    intro threads n t ht hp
    refine ⟨a, .head (a := .step n ()) (Pool.Program.next_step ht ?_) trivial (.init rfl)⟩
    simp [lookups, hlives, UserLookup.step, Reader.step, hp]
  | ask next ih =>
    intro threads n t ht hp
    have hset : (threads.set n { t with reader := { t.reader with phase := .inside (next h.loader.rp) } })[n]? =
        some { t with reader := { t.reader with phase := .inside (next h.loader.rp) } } := by
      rw [List.getElem?_set_self', ht]
      rfl
    obtain ⟨a, ha⟩ := ih h.loader.rp hset rfl
    rw [List.set_set] at ha
    refine ⟨a, .head (a := .step n ()) (Pool.Program.next_step ht ?_) trivial ha⟩
    simp [lookups, hlives, UserLookup.step, Reader.step, hp]

theorem LookupsInv.completing (hs : LookupsInv V s) (h : Steps.ReachWhen lookups.next (· = s) Completing s') :
    LookupsInv V s' := by
  refine h.invariant (P := LookupsInv V) (fun x hx => ?_) fun s a s' hs hst hc => hs.next hst ?_
  · subst hx
    exact hs
  · rintro e rfl
    cases e with
    | load w cfg order => exact hc.elim
    | proceed => trivial
    | move i m => trivial

/-- A process in which a load is in progress is alive. -/
theorem LookupsInv.lives (hs : LookupsInv V s) {l : Loading} (hl : s.shared.loading = some l) :
    s.shared.dead = false := by
  obtain ⟨-, -, -, -, -, -, halive, -⟩ := hs.follows.loading hl
  rw [LiveProxy.dead, hs.services.running, halive]
  rfl

theorem LookupsInv.proceeds (hs : LookupsInv V s) {h : LiveProxy} (hp : s.shared.proceed = some h) :
    lookups.next s (.env .proceed) = some ⟨h, s.threads⟩ := by
  refine Pool.Program.next_env ?_
  cases hl : s.shared.loading with
  | none => simp [LiveProxy.proceed, hl] at hp
  | some l => simpa [lookups, LiveProxy.next, hs.lives hl] using hp

/-- All lookups inside the lock can come out. -/
theorem LookupsInv.readers_leave (hs : LookupsInv V s) (hlives : s.shared.dead = false) :
    ∃ threads, Steps.ReachWhen lookups.next (· = s) Completing ⟨{ s.shared with readers := 0 }, threads⟩ := by
  induction hn : s.shared.readers generalizing s with
  | zero => exact ⟨s.threads, .init (by rw [← hn])⟩
  | succ n ih =>
    have hpos : 0 < s.threads.countP (·.reader.inside) := by rw [← hs.readers, hn]; exact Nat.succ_pos n
    obtain ⟨t, ht, hin⟩ := List.countP_pos_iff.1 hpos
    obtain ⟨k, hk⟩ := List.mem_iff_getElem?.1 ht
    obtain ⟨rest, hrest⟩ : ∃ rest, t.reader.phase = .inside rest := by
      cases hp : t.reader.phase with
      | inside rest => exact ⟨rest, rfl⟩
      | _ => simp [Reader.inside, hp] at hin
    obtain ⟨a, ha⟩ := lookup_leaves hlives rest hk hrest
    obtain ⟨threads, hthreads⟩ := ih (hs.completing ha) hlives (by rw [hn]; rfl)
    exact ⟨threads, ha.trans hthreads⟩

/-- The load in progress can come to its end, leaving `out`. -/
def CompletesTo (out : Applied) (s : Pool.St LiveProxy UserLookup) : Prop :=
  ∃ s', Steps.ReachWhen lookups.next (· = s) Completing s' ∧ s'.shared.loading = none ∧ s'.shared.loader.rp = out.rp

theorem LookupsInv.completesTo_of_proceed {out : Applied} {h : LiveProxy} (hs : LookupsInv V s)
    (hp : s.shared.proceed = some h) (hnext : LookupsInv V ⟨h, s.threads⟩ → CompletesTo out ⟨h, s.threads⟩) :
    CompletesTo out s := by
  have hstep := hs.proceeds hp
  obtain ⟨s', hreach, hdone⟩ := hnext (hs.completing (.head hstep trivial (.init rfl)))
  exact ⟨s', .head hstep trivial hreach, hdone⟩

/-- The statements under the lock follow each other without waiting. -/
theorem LookupsInv.assigns {call : World × Config} {out : Applied} : ∀ (pos : Statement) {s}, LookupsInv V s →
    s.shared.loading = some ⟨call, out, pos⟩ → pos ≠ .restart → CompletesTo out s := by
  have hunlock : ∀ {s}, LookupsInv V s → s.shared.loading = some ⟨call, out, .unlock⟩ → CompletesTo out s := by
    intro s hs hl
    obtain ⟨l, w, cfg, -, -, -, -, rfl, herr, hloader, -, -⟩ := hs.follows.loading hl
    refine hs.completesTo_of_proceed (by rw [LiveProxy.proceed, hl]) fun _ => ⟨_, .init rfl, rfl, ?_⟩
    dsimp only
    rw [hloader, ReverseProxy.applyConfig_assigned herr]
  have hcaches : ∀ {s}, LookupsInv V s → s.shared.loading = some ⟨call, out, .caches⟩ → CompletesTo out s :=
    fun hs hl => hs.completesTo_of_proceed (by rw [LiveProxy.proceed, hl]) fun hs' => hunlock hs' rfl
  have husers : ∀ {s}, LookupsInv V s → s.shared.loading = some ⟨call, out, .users⟩ → CompletesTo out s :=
    fun hs hl => hs.completesTo_of_proceed (by rw [LiveProxy.proceed, hl]) fun hs' => hcaches hs' rfl
  -- the assignments that are left, from the last one back
  intro pos s hs hl hpos
  cases pos with
  | restart => exact absurd rfl hpos
  | clusters => exact hs.completesTo_of_proceed (by rw [LiveProxy.proceed, hl]) fun hs' => husers hs' rfl
  | users => exact husers hs hl
  | caches => exact hcaches hs hl
  | unlock => exact hunlock hs hl

/-- A load that has begun can always be completed: by its own statements, by the goroutines and by the
lookups that are there, whatever their state. -/
theorem load_completes (h : Steps.ReachWhen lookups.next LookupsInitial (LoadsOnly V) s) {call : World × Config}
    {out : Applied} {pos : Statement} (hl : s.shared.loading = some ⟨call, out, pos⟩) :
    ∃ s', Steps.ReachWhen lookups.next (· = s) Completing s' ∧ s'.shared.loading = none ∧
      s'.shared.loader.rp = out.rp := by
  have hs := lookupsInv_reach h
  by_cases hpos : pos = .restart
  · subst hpos
    -- the goroutines first, then the readers, then the lock
    obtain ⟨services, hservices, hidle⟩ := hs.services.completes Goroutine.eager
    have hrestart := LiveProxy.restart_reach hl (hs.lives hl) s.threads hservices
    have hlives : ({ s.shared with services := services } : LiveProxy).dead = false := (hs.completing hrestart).lives hl
    obtain ⟨threads, hleave⟩ := (hs.completing hrestart).readers_leave hlives
    have hready := hrestart.trans hleave
    have hlock := (hs.completing hready).proceeds (h := { s.shared with
      services := services, readers := 0, loading := some ⟨call, out, .clusters⟩ })
        (by simp [LiveProxy.proceed, hl, hidle])
    obtain ⟨s', hreach, hdone⟩ :=
      LookupsInv.assigns .clusters (hs.completing (.step hready hlock trivial)) rfl (by decide)
    exact ⟨s', (Steps.ReachWhen.step hready hlock trivial).trans hreach, hdone⟩
  · exact LookupsInv.assigns pos hs hl hpos

theorem load_completes_analyst :
    ∃ s call out s', Steps.ReachWhen lookups.next LookupsInitial (LoadsOnly ValidCall) s ∧
      s.shared.loading = some ⟨call, out, .restart⟩ ∧ Steps.ReachWhen lookups.next (· = s) Completing s' ∧
      s'.shared.loading = none ∧ s'.shared.loader.rp = out.rp := by
  have hbegun : (analystRun []).bind (fun s => s.shared.loading.map (·.pos)) = some .restart := by decide
  obtain ⟨s, hs, hpos⟩ := Option.bind_eq_some_iff.1 hbegun
  obtain ⟨⟨call, out, pos⟩, hl, hrestart⟩ := Option.map_eq_some_iff.1 hpos
  cases hrestart
  have hvalid := analystRun_reach (V := ValidCall) analystConfig_valid hs
  obtain ⟨s', hreach, hdone⟩ := load_completes hvalid hl
  exact ⟨s, call, out, s', hvalid, hl, hreach, hdone⟩

end Chproxy.Routing
