/-
Requests that look up their user while configurations are loaded: `getUser` of `proxy.go` as the single
reads it makes of the proxy under the read lock, in any interleaving with the assignments of
`applyConfig`. Every lookup answers as if it were made at one moment, on tables that one load left.

`hasWildcarded` is read under the lock but written without it; it is set before tables with a wildcarded
user are assigned and never reset, so a lookup does not miss such a user of the tables it reads.
-/
import Chproxy.Lib.Guarded
import Chproxy.Routing.Credentials
import Chproxy.Routing.Goroutines

namespace Chproxy.Routing

open Guarded (Prog Reader)

/-! ## `getUser` read by read -/

/-- A call of `getUser`, with the order in which it would iterate over a map of users. -/
structure UserCall where
  name : String
  password : String
  iter : Map User → List User
  iter_perm : ∀ users, (iter users).Perm (userValues users)

/-- `getUser` after `rp.lock.RLock()`, one field of the proxy at a time. -/
def UserCall.prog (c : UserCall) : Prog ReverseProxy (Except Failure Lookup) :=
  .ask fun rp => -- `rp.users[name]`
    match rp.users.lookup c.name with
    | some u =>
      .ask fun rp => -- `rp.clusters[u.toCluster]`
        match rp.clusters.lookup u.toCluster with
        | none => .ret (.error .panic)
        | some cluster => .ret (.ok ⟨u.password == c.password, some u, some cluster, cluster.users.lookup u.toUser⟩)
    | none =>
      if c.name = "" ∨ c.name = defaultUser then .ret (.ok .notFound)
      else
        .ask fun rp => -- `rp.hasWildcarded`
          if rp.hasWildcarded then
            .ask fun rp => -- `range rp.users`
              .ask fun rp' => -- `rp.clusters`, when a pattern matches
                .ret (rp'.findWildcardedUserInformation c.name c.password (c.iter rp.users))
          else .ret (.ok .notFound)

/-- Proxies with the users and clusters of `rp`, and with the flag when there are wildcarded users. -/
def ReverseProxy.Like (rp x : ReverseProxy) : Prop := x.users = rp.users ∧ x.clusters = rp.clusters ∧ x.Flagged

theorem ReverseProxy.findWildcardedUserInformation_none {rp : ReverseProxy} {name password : String} {order : List User}
    (h : ∀ u ∈ order, u.isWildcarded = false) :
    rp.findWildcardedUserInformation name password order = .ok .notFound := by
  rcases rp.findWildcardedUserInformation_searched name password order with hnobody | ⟨u, hu, hwild, -⟩
  · exact hnobody
  · rw [h u hu] at hwild
    cases hwild

/-- The search reads nothing of the proxy but its clusters. -/
theorem ReverseProxy.findWildcardedUserInformation_congr {rp rp' : ReverseProxy} (h : rp'.clusters = rp.clusters)
    (name password : String) : ∀ order : List User,
      rp'.findWildcardedUserInformation name password order = rp.findWildcardedUserInformation name password order
  | [] => rfl
  | u :: order => by
    have hgen : ∀ user, rp'.generateWildcardedUserInformation user name password =
        rp.generateWildcardedUserInformation user name password := fun user => by
      simp only [generateWildcardedUserInformation, h]
    unfold findWildcardedUserInformation
    simp only [hgen, findWildcardedUserInformation_congr h name password order]

/-- Whatever the reads see among the proxies like `rp`, the program returns what `getUser` does on `rp`. -/
theorem UserCall.returns_getUser {rp : ReverseProxy} (c : UserCall) {a : Except Failure Lookup} (hflagged : rp.Flagged)
    (h : c.prog.Returns rp.Like a) : a = rp.getUser (c.iter rp.users) c.name c.password := by
  unfold prog at h
  unfold ReverseProxy.getUser
  obtain ⟨x, ⟨husers, -, -⟩, h⟩ := h.of_ask
  rw [husers] at h
  cases hu : rp.users.lookup c.name with
  | some u =>
    rw [hu] at h
    obtain ⟨x, ⟨-, hclusters, -⟩, h⟩ := h.of_ask
    dsimp only at h ⊢
    rw [hclusters] at h
    cases hc : rp.clusters.lookup u.toCluster with
    | none => rw [hc] at h; exact h.of_ret
    | some cluster => rw [hc] at h; exact h.of_ret
  | none =>
    rw [hu] at h
    dsimp only at h ⊢
    split at h
    · rename_i hdefault
      rw [if_pos hdefault]
      exact h.of_ret
    · rename_i hdefault
      rw [if_neg hdefault]
      -- without wildcarded users the search finds nobody, so the flag makes no difference
      have hsearch : ∀ y : ReverseProxy, y.users = rp.users → y.Flagged → ¬y.hasWildcarded = true →
          rp.findWildcardedUserInformation c.name c.password (c.iter rp.users) = .ok .notFound :=
        fun y hy hflag hfalse => ReverseProxy.findWildcardedUserInformation_none fun u hu => by
          obtain ⟨name, hname⟩ := exists_lookup_of_mem_userValues ((c.iter_perm _).mem_iff.1 hu)
          exact Bool.eq_false_iff.2 fun hwild => hfalse (hflag name u (hy ▸ hname) hwild)
      obtain ⟨x, ⟨husers, -, hflag⟩, h⟩ := h.of_ask
      split at h
      · obtain ⟨y, ⟨husers, -, -⟩, h⟩ := h.of_ask
        obtain ⟨z, ⟨-, hclusters, -⟩, h⟩ := h.of_ask
        rw [h.of_ret, husers, ReverseProxy.findWildcardedUserInformation_congr hclusters]
        split
        · rfl
        · rename_i hfalse
          exact hsearch rp rfl hflagged hfalse
      · rename_i hfalse
        rw [h.of_ret]
        split
        · exact (hsearch x husers hflag hfalse).symm
        · rfl

/-! ## Lookups beside loads -/

/-- A lookup of a request. -/
structure UserLookup where
  call : UserCall
  reader : Reader ReverseProxy (Except Failure Lookup)

def UserLookup.step (h : LiveProxy) (t : UserLookup) : Option (LiveProxy × UserLookup) :=
  (t.reader.step h.writing h.readers h.loader.rp).map fun r =>
    ({ h with readers := r.1 }, { t with reader := r.2 })

/-- Any number of lookups, beside loads and service goroutines. -/
def lookups : Pool.Program LiveProxy UserLookup UserCall Unit Event where
  spawn call := ⟨call, call.prog, .outside⟩
  step h t _ := if h.dead then none else t.step h
  env := LiveProxy.next

def LookupsInitial (s : Pool.St LiveProxy UserLookup) : Prop :=
  (∃ cfgCp, s.shared = newLiveProxy cfgCp) ∧ s.threads = []

/-- Every call of `applyConfig` meets `V`. -/
def LoadsOnly (V : World × Config → Prop) (_ : Pool.St LiveProxy UserLookup) (a : Pool.Act UserCall Unit Event)
    (_ : Pool.St LiveProxy UserLookup) : Prop :=
  ∀ e, a = .env e → e.Loads V

/-! ## The flag -/

theorem ReverseProxy.withSettings_flagged {rp : ReverseProxy} (h : rp.Flagged) (cfg : Config) :
    (rp.withSettings cfg).Flagged := by
  intro name u hu hwild
  rw [withSettings, h name u hu hwild]
  rfl

/-- Also while a load is on its way the flag is set where it is needed: it is assigned before the users. -/
theorem LiveProxy.Follows.flagged {V : World × Config → Prop} {h : LiveProxy} (hf : h.Follows V) :
    h.loader.rp.Flagged := by
  cases hf with
  | between _ hafter _ _ => exact Loader.flagged_reach hafter.reach.reach
  | during l w cfg pos hafter hV halive herr hl hloader hhand hidle =>
    have hflagged := Loader.flagged_reach hafter.reach.reach
    have hold := ReverseProxy.withSettings_flagged hflagged cfg
    have hnew := ReverseProxy.applyConfig_flagged w l.next cfg hflagged
    rw [← ReverseProxy.applyConfig_assigned herr] at hnew
    rw [hloader]
    cases pos with
    | restart => exact hold
    | clusters => exact hold
    | users => exact hold
    | caches => exact hnew
    | unlock => exact hnew

/-! ## What a lookup sees -/

/-- The invariant of every run: of the proxy, of the number of readers, and of every lookup inside the
lock, which sees only proxies like the present one. -/
structure LookupsInv (V : World × Config → Prop) (s : Pool.St LiveProxy UserLookup) : Prop where
  services : s.shared.services.Ordered
  follows : s.shared.Follows V
  readers : s.shared.readers = s.threads.countP (·.reader.inside)
  exclusive : s.shared.writing = true → s.shared.readers = 0
  program : ∀ t ∈ s.threads, t.reader.prog = t.call.prog
  sound : ∀ t ∈ s.threads, t.reader.Sound s.shared.loader.rp.Like

section Invariant

variable {V : World × Config → Prop} {s s' : Pool.St LiveProxy UserLookup}

theorem LookupsInv.readers_ne_zero (hs : LookupsInv V s) {t : UserLookup} (ht : t ∈ s.threads)
    (hin : t.reader.inside = true) : s.shared.readers ≠ 0 := by
  rw [hs.readers]
  exact (List.countP_pos_iff.2 ⟨t, ht, hin⟩).ne'

/-- Without readers there is nobody whose view could change. -/
theorem LookupsInv.sound_of_no_readers (hs : LookupsInv V s) (hzero : s.shared.readers = 0)
    (S : ReverseProxy → Prop) : ∀ t ∈ s.threads, t.reader.Sound S := by
  intro t ht rest hrest
  refine absurd hzero (hs.readers_ne_zero ht ?_)
  simp [Reader.inside, hrest]

/-- Tables change only under the write lock, which is taken only when nobody reads. -/
theorem LiveProxy.Moves.guarded {h h' : LiveProxy} {e : Event} (hm : h.Moves e h') :
    h'.readers = h.readers ∧ (h'.writing = true → h.writing = true ∨ h.readers = 0) ∧
      (h.writing = true ∨ h'.loader.rp.users = h.loader.rp.users ∧ h'.loader.rp.clusters = h.loader.rp.clusters) := by
  cases hm with
  | panics hnone herr => exact ⟨rfl, .inl, .inr ⟨rfl, rfl⟩⟩
  | fails hnone herr l hl =>
    cases hl
    have htables := ReverseProxy.applyConfig_tables herr
    exact ⟨rfl, .inl, .inr ⟨congrArg Tables.users htables, congrArg Tables.clusters htables⟩⟩
  | begins hnone halive herr hperm hclose => exact ⟨rfl, by simp [writing], .inr ⟨rfl, rfl⟩⟩
  | restarts hl hpass => exact ⟨rfl, .inl, .inr ⟨rfl, rfl⟩⟩
  | locks hl hidle hreaders => exact ⟨rfl, fun _ => .inr hreaders, .inr ⟨rfl, rfl⟩⟩
  | clusters hl => exact ⟨rfl, by simp [writing, hl], by simp [writing, hl]⟩
  | users hl => exact ⟨rfl, by simp [writing, hl], by simp [writing, hl]⟩
  | caches hl => exact ⟨rfl, by simp [writing, hl], by simp [writing, hl]⟩
  | unlocks hl => exact ⟨rfl, by simp [writing], by simp [writing, hl]⟩
  | works hmove => exact ⟨rfl, .inl, .inr ⟨rfl, rfl⟩⟩

theorem LookupsInv.env {h : LiveProxy} {e : Event} (hs : LookupsInv V s) (hm : s.shared.Moves e h) (he : e.Loads V) :
    LookupsInv V ⟨h, s.threads⟩ := by
  obtain ⟨hreaders, hwriting, htables⟩ := hm.guarded
  refine ⟨LiveProxy.services_step hs.services hm, hs.follows.step hs.services hm he, hreaders.trans hs.readers,
    fun hw => hreaders.trans ((hwriting hw).elim hs.exclusive id), hs.program, ?_⟩
  rcases htables with hw | ⟨husers, hclusters⟩
  · exact hs.sound_of_no_readers (hs.exclusive hw) _
  · have hlike : h.loader.rp.Like = s.shared.loader.rp.Like := by
      funext x
      rw [ReverseProxy.Like, ReverseProxy.Like, husers, hclusters]
    rw [hlike]
    exact hs.sound

theorem LookupsInv.lookup {n : Nat} {t t' : UserLookup} {h : LiveProxy} (hs : LookupsInv V s)
    (ht : s.threads[n]? = some t) (hst : t.step s.shared = some (h, t')) : LookupsInv V ⟨h, s.threads.set n t'⟩ := by
  have hmem := List.mem_of_getElem? ht
  obtain ⟨⟨readers, reader⟩, hstep, heq⟩ := Option.map_eq_some_iff.1 hst
  cases heq
  have hcount := Pool.Program.countP_set (·.reader.inside) { t with reader := reader } ht
  have hmove := Reader.step_readers hstep (hs.readers_ne_zero hmem)
  have hlike : s.shared.loader.rp.Like s.shared.loader.rp := ⟨rfl, rfl, hs.follows.flagged⟩
  refine ⟨hs.services, hs.follows.read readers, ?_, ?_, ?_, ?_⟩
  · have := hs.readers
    dsimp only at hcount ⊢
    omega
  · intro hw
    rcases Reader.step_enabled hstep with hw' | hin
    · exact absurd (hw'.symm.trans hw) (by decide)
    · exact absurd (hs.exclusive hw) (hs.readers_ne_zero hmem hin)
  · exact Pool.forall_mem_set hs.program ((Reader.step_prog hstep).trans (hs.program t hmem))
  · exact Pool.forall_mem_set hs.sound ((hs.sound t hmem).step hlike hstep)

theorem LookupsInv.next {a : Pool.Act UserCall Unit Event} (hs : LookupsInv V s) (hn : lookups.next s a = some s')
    (ha : LoadsOnly V s a s') : LookupsInv V s' := by
  obtain ⟨call, -, rfl⟩ | ⟨n, _, t, h, t', -, ht, hst, rfl⟩ | ⟨e, h, rfl, he, rfl⟩ := Pool.Program.next_cases hn
  · refine ⟨hs.services, hs.follows, ?_, hs.exclusive, ?_, ?_⟩
    · simp [hs.readers, lookups, Reader.inside]
    · exact Pool.forall_mem_concat hs.program rfl
    · exact Pool.forall_mem_concat hs.sound fun rest hrest => by cases hrest
  · refine hs.lookup ht ?_
    simp only [lookups] at hst
    split at hst
    · cases hst
    · exact hst
  · exact hs.env (LiveProxy.next_moves he) (ha e rfl)

theorem lookupsInv_reach (h : Steps.ReachWhen lookups.next LookupsInitial (LoadsOnly V) s) : LookupsInv V s := by
  refine h.invariant (P := LookupsInv V) (fun s hs => ?_) fun s a s' hs hst ha => hs.next hst ha
  obtain ⟨⟨cfgCp, hshared⟩, hthreads⟩ := hs
  obtain ⟨shared, threads⟩ := s
  subst hshared hthreads
  exact ⟨Generations.St.ordered_init, newLiveProxy_follows V cfgCp, rfl, fun _ => rfl, by simp, by simp⟩

/-! ## Lookups are atomic -/

/-- A lookup that is about to leave the lock: nobody writes, no table is half assigned, and the answer is
that of `getUser` on the proxy as it is. -/
theorem LookupsInv.answer (hs : LookupsInv V s) {t : UserLookup} (ht : t ∈ s.threads) {a : Except Failure Lookup}
    (ha : t.reader.phase = .inside (.ret a)) :
    (∃ l : Loader, l.After V s.shared.returned ∧ l.rp.tables = s.shared.loader.rp.tables) ∧
    a = s.shared.loader.rp.getUser (t.call.iter s.shared.loader.rp.users) t.call.name t.call.password := by
  have hne := hs.readers_ne_zero ht (by simp [Reader.inside, ha])
  have hwriting : s.shared.writing = false := by
    rw [← Bool.not_eq_true]
    exact mt hs.exclusive hne
  have hreturns := (hs.sound t ht).returns ha
  rw [hs.program t ht] at hreturns
  refine ⟨?_, t.call.returns_getUser hs.follows.flagged hreturns⟩
  cases hs.follows with
  | between _ hafter _ _ => exact ⟨_, hafter, rfl⟩
  | during l w cfg pos hafter hV halive herr hl hloader hhand hidle =>
    have hpos : pos = .restart := by simpa [LiveProxy.writing, hl] using hwriting
    subst hpos
    exact ⟨l, hafter, by rw [hloader]; rfl⟩

end Invariant

/-- The configuration passed the validators. -/
def ValidCall (call : World × Config) : Prop := call.2.Valid

/-- Whatever loads of validated configurations and other lookups go on beside it, a lookup leaves the lock
with the answer `getUser` gives on the proxy as it is at that moment, whose tables are those that the loads
which have returned by then, and no other, leave one after the other; and it never panics. -/
theorem getUser_linearizable {s : Pool.St LiveProxy UserLookup}
    (h : Steps.ReachWhen lookups.next LookupsInitial (LoadsOnly ValidCall) s) {t : UserLookup}
    (ht : t ∈ s.threads) {a : Except Failure Lookup} (ha : t.reader.phase = .inside (.ret a)) :
    (∃ l : Loader, l.After ValidCall s.shared.returned ∧ l.rp.tables = s.shared.loader.rp.tables) ∧
    ∃ r, a = .ok r ∧
      s.shared.loader.rp.getUser (t.call.iter s.shared.loader.rp.users) t.call.name t.call.password = .ok r := by
  obtain ⟨⟨l, hl, htables⟩, hanswer⟩ := (lookupsInv_reach h).answer ht ha
  have hclosed : s.shared.loader.rp.tables.Closed := htables ▸ Loader.closed_reach hl.reach
  obtain ⟨r, hr⟩ := ReverseProxy.getUser_returns hclosed (t.call.iter_perm _) t.call.name t.call.password
  exact ⟨⟨l, hl, htables⟩, r, hanswer.trans hr, hr⟩

def analystServices : List Goroutine := [.heartbeat "c" 0 0, .clusterUser "c" "web", .user "analyst_*"]

def loadsNothing (_ : Pool.St LiveProxy UserLookup) (a : Pool.Act UserCall Unit Event)
    (_ : Pool.St LiveProxy UserLookup) : Bool :=
  match a with
  | .env (.load ..) => false
  | _ => true

/-- A new proxy that has begun to load the analysts, after some more steps. -/
def analystRun (acts : List (Pool.Act UserCall Unit Event)) : Option (Pool.St LiveProxy UserLookup) :=
  (lookups.next ⟨newLiveProxy ⟨2, 2⟩, []⟩ (.env (.load calmWorld analystConfig analystServices))).bind
    (Steps.runWhen lookups.next loadsNothing · acts)

theorem analystRun_reach {V : World × Config → Prop} (hV : V (calmWorld, analystConfig))
    {acts : List (Pool.Act UserCall Unit Event)} {s : Pool.St LiveProxy UserLookup} (h : analystRun acts = some s) :
    Steps.ReachWhen lookups.next LookupsInitial (LoadsOnly V) s := by
  obtain ⟨s₁, h1, h2⟩ := Option.bind_eq_some_iff.1 h
  refine Steps.ReachWhen.of_runWhen (fun _ a _ ha => ?_) acts (.step (.init ⟨⟨_, rfl⟩, rfl⟩) h1 ?_) h2
  · rintro e rfl
    cases e with
    | load w cfg order => cases ha
    | proceed => trivial
    | move i m => trivial
  · rintro e ⟨⟩
    exact hV

def analystCall : UserCall := ⟨"analyst_7", "mine", userValues, fun _ => .refl _⟩

/-- What a lookup that is about to return has found. -/
def UserLookup.found (t : UserLookup) : Option Bool :=
  match t.reader.phase with
  | .inside (.ret (.ok r)) => some r.found
  | _ => none

/-- An analyst is looked up when the load is done, and found. -/
theorem getUser_linearizable_analyst :
    ∃ s t r, Steps.ReachWhen lookups.next LookupsInitial (LoadsOnly ValidCall) s ∧ t ∈ s.threads ∧
      t.reader.phase = .inside (.ret (.ok r)) ∧ r.found = true ∧
      s.shared.loader.rp.getUser (t.call.iter s.shared.loader.rp.users) t.call.name t.call.password = .ok r := by
  have hfound : (analystRun (List.replicate 11 (.env .proceed) ++ [.spawn analystCall] ++
      List.replicate 5 (.step 0 ()))).bind (fun s => s.threads.head?.bind UserLookup.found) = some true := by decide
  obtain ⟨s, hs, hfound⟩ := Option.bind_eq_some_iff.1 hfound
  obtain ⟨t, ht, hfound⟩ := Option.bind_eq_some_iff.1 hfound
  have hmem := List.mem_of_mem_head? ht
  unfold UserLookup.found at hfound
  split at hfound
  · rename_i r hp
    have hreach := analystRun_reach (V := ValidCall) analystConfig_valid hs
    obtain ⟨-, r', hr', hget⟩ := getUser_linearizable hreach hmem hp
    cases hr'
    exact ⟨s, t, r, hreach, hmem, hp, Option.some.inj hfound, hget⟩
  · cases hfound

end Chproxy.Routing
