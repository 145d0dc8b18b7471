/-
Requests on a file system cache with the ages of its files (`cache/filesystem_cache.go`,
`cache/async_cache.go`): `Get` still serves a response for the grace time after it has expired, and the
request that is served so does not refresh it. The model is that of the concurrent requests with a `Get`
that looks at ages and a `Put` that sets them.
-/
import Chproxy.Cache.FileSystem
import Chproxy.Proxy.Herd

namespace Chproxy.Proxy

open Utils Cache

/-! ## The grace time -/

/-- `Get` finds no file that has expired and whose grace time is over. -/
def hidden (expire grace age : Int) : Bool := decide (age > expire ∧ age > expire + grace)

/-- `fileSystemCache.Get` of a stored response, when the two times together are a `time.Duration`. -/
theorem get_eq_hidden {f : FileSystemCache} {key : String} {m : ContentMetadata} {payload : Bytes} (hm : m.Storable)
    (hfile : f.files key = some (FileSystemCache.encoded m payload))
    (hsum : (f.expire + f.grace).toInt = f.expire.toInt + f.grace.toInt) (age : Int64) :
    f.get key age =
      if hidden f.expire.toInt f.grace.toInt age.toInt then .error .missing
      else .ok ⟨m, payload, (f.expire - age).toInt⟩ := by
  have hage : (age > f.expire ∧ age > f.expire + f.grace) ↔
      hidden f.expire.toInt f.grace.toInt age.toInt = true := by
    rw [hidden, decide_eq_true_eq, ← hsum, gt_iff_lt, gt_iff_lt, Int64.lt_iff_toInt_lt, Int64.lt_iff_toInt_lt]
  unfold FileSystemCache.get
  rw [hfile]
  simp only [FileSystemCache.encoded, decodeHeader_fileHeader hm.writable, hage]

/-! ## Steps -/

/-- The cache with the times its files were modified at. `busy` is how many requests of a key are being
proxied; nothing reads it but what is noted of a request. -/
structure TimedShared where
  base : Shared
  modTime : String → Int
  busy : String → Int

/-- A request, and what is noted of it when it looks into the cache on its arrival: whether the response
there had expired, and whether another request of its key was being proxied. -/
structure TimedClient where
  client : Client
  stale : Bool := false
  attended : Bool := false

namespace TimedShared

variable (h : TimedShared)

def age (k : String) : Int := h.base.now - h.modTime k

/-- The cache as `Get` sees it. -/
def visible (expire grace : Int) : Shared :=
  { h.base with cached := fun k => if hidden expire grace (h.age k) then none else h.base.cached k }

/-- The response of the key is there and has expired. -/
def stale (expire : Int) (k : String) : Bool := (h.base.cached k).isSome && decide (h.age k > expire)

/-- A step of a request; a file is written at the time of its `Put`. -/
def after (t : Client) (base : Shared) (t' : Client) : TimedShared where
  base := base
  modTime :=
    match t.pc with
    | .calls (.put _ _ :: _) => Function.update h.modTime t.key h.base.now
    | _ => h.modTime
  busy := Function.update h.busy t.key (h.busy t.key + t'.pc.busy.toNat - t.pc.busy.toNat)

end TimedShared

/-- The request with what is noted of its arrival, which is its first `Get`. -/
def TimedClient.note (t : TimedClient) (expire : Int) (h : TimedShared) : TimedClient :=
  match t.client.pc with
  | .get => { t with stale := h.stale expire t.client.key, attended := decide (0 < h.busy t.client.key) }
  | _ => t

def timedStep (expire grace : Int) (h : TimedShared) (t : TimedClient) (c : Choice) :
    Option (TimedShared × TimedClient) :=
  match c with
  | .get _ =>
    (step grace (h.visible expire grace) t.client (.get (expire - h.age t.client.key))).map fun res =>
      (h, { t.note expire h with client := res.2 })
  | c => (step grace h.base t.client c).map fun res => (h.after t.client res.1 res.2, { t with client := res.2 })

/-- Besides the passing of time and the cleaning of the registry, files may be removed at any time. -/
def timedProgram (expire grace : Int) : Pool.Program TimedShared TimedClient Arrival Choice Event where
  spawn a := { client := { key := a.key, settings := a.settings, srw := a.srw } }
  step := timedStep expire grace
  env h e := (environment h.base e).map fun base => { h with base }

abbrev TimedState := Pool.St TimedShared TimedClient

/-- No request yet and no transaction; the cache may hold files of any age. -/
def TimedInitial (s : TimedState) : Prop :=
  s.threads = [] ∧ (∀ k, s.shared.base.registry.pendingEntries k = none) ∧ ∀ k, s.shared.busy k = 0

/-- The clock has advanced since a wait began when the wait is first measured, and temporary files can be
created. -/
def Standing (s : TimedState) : Action → Prop
  | .step n c => (∀ err, c ≠ .noTmp err) ∧
      ∀ t ∈ s.threads[n]?, ∀ startTime, t.client.pc = .check startTime → startTime < s.shared.base.now
  | _ => True

/-- The actions of one request, and the passing of time. -/
def OwnAction (n : Nat) : Action → Prop
  | .step m _ => m = n
  | .env (.tick _) => True
  | _ => False

/-- Left to itself, the request ends as one that was proxied. -/
def EndsProxied (expire grace : Int) (s : TimedState) (n : Nat) : Prop :=
  ∃ s' t, Steps.ReachWhen (timedProgram expire grace).next (· = s) (fun s a _ => Standing s a ∧ OwnAction n a) s' ∧
    s'.threads[n]? = some t ∧ t.client.pc = .done .proxied

/-- A request that finds an expired response on its arrival is itself proxied, unless another request of
its key was being proxied at that moment: it has no other answer, and it comes to this one. -/
def StaleAttended (expire grace : Int) (s : TimedState) : Prop :=
  ∀ n t, s.threads[n]? = some t → t.stale = true →
    t.attended = true ∨ ((∀ answer, t.client.pc = .done answer → answer = .proxied) ∧ EndsProxied expire grace s n)

theorem StaleAttended.proxied {expire grace : Int} {s : TimedState} {n : Nat} {t : TimedClient}
    (h : StaleAttended expire grace s) (ht : s.threads[n]? = some t) (hstale : t.stale = true)
    (halone : t.attended = false) :
    (∀ answer, t.client.pc = .done answer → answer = .proxied) ∧ EndsProxied expire grace s n := by
  rcases h n t ht hstale with hattended | hproxied
  · rw [halone] at hattended
    cases hattended
  · exact hproxied

/-! ## What is counted -/

/-- Every step of a request: a look into the cache as `Get` sees it, or a step on the cache itself. -/
theorem timedStep_cases {expire grace : Int} {h h' : TimedShared} {t t' : TimedClient} {c : Choice}
    (hs : timedStep expire grace h t c = some (h', t')) :
    (∃ ttl base client, c = .get ttl ∧
      Move grace (h.visible expire grace) t.client (.get (expire - h.age t.client.key)) base client ∧ h' = h ∧
      t' = { t.note expire h with client }) ∨
    (∃ base client, (∀ ttl, c ≠ .get ttl) ∧ Move grace h.base t.client c base client ∧
      h' = h.after t.client base client ∧ t' = { t with client }) := by
  unfold timedStep at hs
  split at hs
  · obtain ⟨⟨base, client⟩, hst, heq⟩ := Option.map_eq_some_iff.1 hs
    cases heq
    exact .inl ⟨_, base, client, rfl, step_cases hst, rfl, rfl⟩
  · rename_i c hget
    obtain ⟨⟨base, client⟩, hst, heq⟩ := Option.map_eq_some_iff.1 hs
    cases heq
    exact .inr ⟨base, client, fun ttl => hget ttl, step_cases hst, rfl, rfl⟩

/-- The key of a request that is being proxied. -/
def TimedClient.proxying (t : TimedClient) : Option String := if t.client.pc.busy then some t.client.key else none

theorem serveCached_idle {t : Client} {h : Shared} {ttl : Int} {miss : Pc} (hmiss : miss.busy = false) :
    (t.serveCached h ttl miss).pc.busy = false := by
  unfold Client.serveCached
  split
  · rfl
  · exact hmiss

theorem transfer_timedStep {expire grace : Int} {h h' : TimedShared} {t t' : TimedClient} {c : Choice}
    (hs : timedStep expire grace h t c = some (h', t')) : Pool.Transfer h.busy h'.busy t.proxying t'.proxying := by
  obtain ⟨ttl, base, client, -, hm, rfl, rfl⟩ | ⟨base, client, -, hm, rfl, rfl⟩ := timedStep_cases hs
  · -- a look into the cache begins and ends outside of the execution
    have hidle : t.client.pc.busy = false ∧ client.pc.busy = false := by
      cases hm with
      | get hpc => exact ⟨by rw [hpc]; rfl, serveCached_idle rfl⟩
      | getAgain hpc => exact ⟨by rw [hpc]; rfl, serveCached_idle rfl⟩
    exact .keep rfl (by simp only [TimedClient.proxying, hidle, Bool.false_eq_true, if_false])
  · show Pool.Transfer h.busy
      (Function.update h.busy t.client.key (h.busy t.client.key + client.pc.busy.toNat - t.client.pc.busy.toNat)) _ _
    unfold TimedClient.proxying
    dsimp only
    rw [hm.key]
    cases t.client.pc.busy <;> cases client.pc.busy
    · exact .keep (by simp) rfl
    · exact .take_update _ (by simp)
    · exact .give_update _ (by simp)
    · exact .keep (by simp) rfl

/-- `busy` counts the requests of a key that are being proxied. -/
theorem busy_counted {expire grace : Int} {s : TimedState}
    (h : Steps.Reach (timedProgram expire grace).next TimedInitial s) (k : String) :
    s.shared.busy k = (s.threads.countP (fun t => decide (t.proxying = some k)) : Int) := by
  refine h.invariant (P := fun s : TimedState =>
    ∀ k, s.shared.busy k = (s.threads.countP (fun t => decide (t.proxying = some k)) : Int)) ?_ ?_ k
  · rintro s ⟨hthreads, -, hbusy⟩ k
    rw [hbusy, hthreads]
    rfl
  · intro s a s' hs hn _ k
    refine Pool.Program.transfer_next (f := TimedShared.busy) (W := fun _ => True) (fun i => rfl)
      (fun _ _ _ _ _ _ hst => transfer_timedStep hst) ?_ (fun _ _ => trivial) hn hs k
    intro h e h' he
    obtain ⟨base, -, rfl⟩ := Option.map_eq_some_iff.1 he
    rfl

/-- What is noted of an arrival: another request of the key is being proxied. -/
theorem attended_iff {expire grace : Int} {s : TimedState}
    (h : Steps.Reach (timedProgram expire grace).next TimedInitial s) {t : TimedClient} (hpc : t.client.pc = .get) :
    (t.note expire s.shared).attended = true ↔
      ∃ x ∈ s.threads, x.client.key = t.client.key ∧ x.client.pc.busy = true := by
  have hnote : (t.note expire s.shared).attended = decide (0 < s.shared.busy t.client.key) := by
    simp [TimedClient.note, hpc]
  rw [hnote, decide_eq_true_eq, busy_counted h, Int.natCast_pos, List.countP_pos_iff]
  refine exists_congr fun x => and_congr_right fun _ => ?_
  unfold TimedClient.proxying
  cases x.client.pc.busy <;> simp

/-! ## Without a grace time -/

/-- On the way to be proxied, being proxied, or answered so. -/
@[simp] def Pc.onWay : Pc → Bool
  | .enter | .check _ | .newTmp | .create | .proxy | .calls _ | .done .proxied => true
  | _ => false

theorem hidden_zero {expire age : Int} (h : age > expire) : hidden expire 0 age = true := by
  simp [hidden, h]

/-- Without a grace time a request that finds an expired response goes on to be proxied. -/
theorem onWay_step {expire : Int} {h h' : TimedShared} {t t' : TimedClient} {c : Choice}
    (hs : timedStep expire 0 h t c = some (h', t')) (htmp : ∀ err, c ≠ .noTmp err)
    (hclock : ∀ startTime, t.client.pc = .check startTime → startTime < h.base.now)
    (ht : t.stale = true → t.client.pc.onWay = true) : t'.stale = true → t'.client.pc.onWay = true := by
  obtain ⟨ttl, base, client, -, hm, rfl, rfl⟩ | ⟨base, client, hget, hm, rfl, rfl⟩ := timedStep_cases hs
  · cases hm with
    | get hpc =>
      -- the response has expired, so `Get` does not see it
      intro hstale
      simp only [TimedClient.note, hpc, TimedShared.stale, Bool.and_eq_true, decide_eq_true_eq] at hstale
      have hmiss : (h'.visible expire 0).cached t.client.key = none := by
        simp [TimedShared.visible, hidden_zero hstale.2]
      simp [Client.serveCached, hmiss]
    | getAgain hpc =>
      intro hstale
      have hsame : t.note expire h' = t := by simp [TimedClient.note, hpc]
      rw [hsame] at hstale
      have := ht hstale
      simp [hpc] at this
  · intro hstale
    have hway := ht hstale
    cases hm with
    | get hpc => exact absurd rfl (hget _)
    | getAgain hpc => exact absurd rfl (hget _)
    | check hpc =>
      have := hclock _ hpc
      simp only [Client.pc_goto]
      rw [if_pos (by omega)]
      rfl
    | status hpc => simp [hpc] at hway
    | noTmp hpc => exact absurd rfl (htmp _)
    | execute hpc hex =>
      obtain ⟨served, -, rfl⟩ := Option.map_eq_some_iff.1 hex
      rfl
    | _ => rfl

theorem onWay_next {expire : Int} {s s' : TimedState} {a : Action}
    (hs : ∀ t ∈ s.threads, t.stale = true → t.client.pc.onWay = true)
    (hn : (timedProgram expire 0).next s a = some s') (hstanding : Standing s a) :
    ∀ t ∈ s'.threads, t.stale = true → t.client.pc.onWay = true := by
  refine (Pool.Program.shared_next (I := fun _ => True) (W := fun _ t => t.stale = true → t.client.pc.onWay = true)
    (fun i h => by cases h) (fun n c t h' t' ha ht hst => ?_)
    (fun e h' _ _ => ⟨trivial, fun _ _ h => h⟩) trivial hs hn).2
  subst ha
  exact ⟨trivial, onWay_step hst hstanding.1 (hstanding.2 t ht) (hs t (List.mem_of_getElem? ht)), fun _ _ h => h⟩

/-! ## The end of a request on its way -/

section

variable {expire grace : Int} {s : TimedState} {n : Nat} {t : TimedClient}

theorem EndsProxied.tick {d : Nat} (h : EndsProxied expire grace
    ⟨{ s.shared with base := { s.shared.base with now := s.shared.base.now + d } }, s.threads⟩ n) :
    EndsProxied expire grace s n := by
  obtain ⟨s', x, hreach, hx, hdone⟩ := h
  exact ⟨s', x, .head (a := .env (.tick d)) rfl ⟨trivial, trivial⟩ hreach, hx, hdone⟩

/-- One step of the request. -/
theorem EndsProxied.step {h' : TimedShared} {t' : TimedClient} {c : Choice} (ht : s.threads[n]? = some t)
    (hst : timedStep expire grace s.shared t c = some (h', t')) (htmp : ∀ err, c ≠ .noTmp err)
    (hclock : ∀ startTime, t.client.pc = .check startTime → startTime < s.shared.base.now)
    (h : ∀ s', s'.threads[n]? = some t' → EndsProxied expire grace s' n) : EndsProxied expire grace s n := by
  obtain ⟨s', x, hreach, hx, hdone⟩ :=
    h ⟨h', s.threads.set n t'⟩ (List.getElem?_set_self (List.getElem?_eq_some_iff.1 ht).1)
  have hn : (timedProgram expire grace).next s (.step n c) = some ⟨h', s.threads.set n t'⟩ := by
    simp [Pool.Program.next, ht, timedProgram, hst]
  refine ⟨s', x, .head hn ⟨⟨htmp, fun y hy startTime hpc => ?_⟩, rfl⟩ hreach, hx, hdone⟩
  cases (Option.mem_def.1 hy).symm.trans ht
  exact hclock startTime hpc

/-- A step that only leads elsewhere, or to the next call on the cache. -/
theorem EndsProxied.go {base : Shared} {pc : Pc} (ht : s.threads[n]? = some t)
    (hm : Move grace s.shared.base t.client .go base (t.client.goto pc))
    (hclock : ∀ startTime, t.client.pc = .check startTime → startTime < s.shared.base.now)
    (h : ∀ s' t', s'.threads[n]? = some t' → t'.client.pc = pc → EndsProxied expire grace s' n) :
    EndsProxied expire grace s n := by
  have htimed : timedStep expire grace s.shared t .go =
      some (s.shared.after t.client base (t.client.goto pc), { t with client := t.client.goto pc }) := by
    simp [timedStep, hm.step_eq]
  exact .step ht htimed (fun err h => by cases h) hclock fun s' ht' => h s' _ ht' rfl

theorem endsProxied_calls {left : List CacheCall} (ht : s.threads[n]? = some t) (hpc : t.client.pc = .calls left) :
    EndsProxied expire grace s n := by
  induction left generalizing s t with
  | nil =>
    exact .go ht (.finish hpc) (by simp [hpc]) fun s' t' ht' hpc' => ⟨s', t', .init rfl, ht', hpc'⟩
  | cons call left ih => exact .go ht (.perform hpc) (by simp [hpc]) fun s' t' ht' hpc' => ih ht' hpc'

theorem endsProxied_proxy (ht : s.threads[n]? = some t) (hpc : t.client.pc = .proxy) :
    EndsProxied expire grace s n := by
  obtain ⟨rounds, client, hex⟩ : ∃ rounds client, t.client.execute rounds [] {} = some client :=
    ⟨[⟨.failed, some .canceled, false, []⟩], _, rfl⟩
  have htimed : timedStep expire grace s.shared t (.execute rounds [] {}) =
      some (s.shared.after t.client s.shared.base client, { t with client }) := by
    simp [timedStep, (Move.execute hpc hex).step_eq]
  obtain ⟨served, -, rfl⟩ := Option.map_eq_some_iff.1 hex
  exact .step ht htimed (fun err h => by cases h) (by simp [hpc]) fun s' ht' => endsProxied_calls ht' rfl

theorem endsProxied_newTmp (ht : s.threads[n]? = some t) (hpc : t.client.pc = .newTmp) : EndsProxied expire grace s n :=
  .go ht (.newTmp hpc) (by simp [hpc]) fun _ _ ht hpc =>
    .go ht (.create hpc) (by simp [hpc]) fun _ _ ht hpc => endsProxied_proxy ht hpc

/-- The wait ends without an answer once its grace time is over. -/
theorem endsProxied_check {startTime : Int} (hgrace : 0 ≤ grace) (ht : s.threads[n]? = some t)
    (hpc : t.client.pc = .check startTime) : EndsProxied expire grace s n := by
  obtain ⟨d, hd⟩ : ∃ d : Nat, s.shared.base.now + d - startTime > grace :=
    ⟨(startTime + grace - s.shared.base.now).toNat + 1, by omega⟩
  refine .tick (d := d) (.go ht (.check hpc) (fun st hst => ?_) fun s' t' ht' hpc' => endsProxied_newTmp ht' ?_)
  · cases hpc.symm.trans hst
    show startTime < s.shared.base.now + d
    omega
  · rw [hpc', if_pos hd]

/-- A request on its way, by itself, ends as one that was proxied. -/
theorem endsProxied_of_onWay (hgrace : 0 ≤ grace) (ht : s.threads[n]? = some t) (hway : t.client.pc.onWay = true) :
    EndsProxied expire grace s n := by
  cases hpc : t.client.pc with
  | enter => exact .go ht (.enter hpc) (by simp [hpc]) fun _ _ ht hpc => endsProxied_check hgrace ht hpc
  | check startTime => exact endsProxied_check hgrace ht hpc
  | newTmp => exact endsProxied_newTmp ht hpc
  | create => exact .go ht (.create hpc) (by simp [hpc]) fun _ _ ht hpc => endsProxied_proxy ht hpc
  | proxy => exact endsProxied_proxy ht hpc
  | calls left => exact endsProxied_calls ht hpc
  | done answer =>
    cases answer with
    | proxied => exact ⟨s, t, .init rfl, ht, hpc⟩
    | _ => rw [hpc] at hway; cases hway
  | _ => rw [hpc] at hway; cases hway

end

/-! ## With one -/

/-- A cache with a response at the end of its grace time. -/
def expired (expire grace : Int) : TimedState where
  shared :=
    ⟨⟨⟨fun _ => none, 2 * grace, 500000000⟩, fun _ => some (bytes "ok", ⟨2, [], []⟩), expire + grace, fun _ => none⟩,
    fun _ => 0, fun _ => 0⟩
  threads := []

/-- A request by itself is answered with the expired response as long as the grace time lasts. -/
theorem expired_hit {expire grace : Int} (hgrace : 0 < grace) :
    ∃ s t, Steps.ReachWhen (timedProgram expire grace).next TimedInitial (fun s a _ => Standing s a) s ∧
      s.threads = [t] ∧ t.stale = true ∧ t.attended = false ∧ t.client.pc = .done .hit := by
  let h := (expired expire grace).shared
  let t : TimedClient := { client := { key := arrival.key, settings := arrival.settings, srw := arrival.srw } }
  have hcached : (h.visible expire grace).cached arrival.key = some (bytes "ok", ⟨2, [], []⟩) := by
    simp [TimedShared.visible, h, expired, TimedShared.age, hidden]
  have hst : timedStep expire grace h t (.get 0) = some (h, { t.note expire h with
      client := t.client.serveCached (h.visible expire grace) (expire - h.age arrival.key) .enter }) := rfl
  have hspawn : Steps.ReachWhen (timedProgram expire grace).next TimedInitial (fun s a _ => Standing s a) ⟨h, [t]⟩ :=
    .step (a := .spawn arrival) (.init (s := expired expire grace) ⟨rfl, fun _ => rfl, fun _ => rfl⟩) rfl trivial
  refine ⟨_, _, hspawn.step (a := .step 0 (.get 0)) (by simp [Pool.Program.next, timedProgram, hst]; rfl) ?_,
    rfl, ?_, ?_, ?_⟩
  · exact ⟨fun err h => (by cases h), fun x hx startTime hpc => by cases hx; cases hpc⟩
  · simp [TimedClient.note, t, TimedShared.stale, h, expired, TimedShared.age, hgrace]
  · simp [TimedClient.note, t, h, expired]
  · simp [Client.serveCached, t, hcached]

/-- No unattended stale hits: on a file system cache, in every run of requests in which the clock advances
while a request waits and temporary files can be created, every request that finds an expired response on
its arrival is itself proxied, unless another request of its key is being proxied at that moment, exactly
when the cache has no grace time. -/
theorem stale_hits_attended_iff {expire grace : Int} (hgrace : 0 ≤ grace) :
    (∀ s, Steps.ReachWhen (timedProgram expire grace).next TimedInitial (fun s a _ => Standing s a) s →
      StaleAttended expire grace s) ↔ grace = 0 := by
  constructor
  · intro hall
    by_contra hne
    obtain ⟨s, t, hreach, hthreads, hstale, hattended, hdone⟩ := @expired_hit expire grace (by omega)
    obtain ⟨hproxied, -⟩ := (hall s hreach).proxied (n := 0) (by rw [hthreads]; rfl) hstale hattended
    cases hproxied _ hdone
  · rintro rfl s hs n t ht hstale
    have hway := hs.invariant (P := fun s : TimedState => ∀ t ∈ s.threads, t.stale = true → t.client.pc.onWay = true)
      (fun s h t ht => by rw [h.1] at ht; cases ht) (fun _ _ _ hs hn hstanding => onWay_next hs hn hstanding) t
      (List.mem_of_getElem? ht) hstale
    refine .inr ⟨fun answer hdone => ?_, endsProxied_of_onWay le_rfl ht hway⟩
    rw [hdone] at hway
    cases answer with
    | proxied => rfl
    | _ => cases hway

/-! ## A request after the expiry -/

/-- The standing condition, decided. -/
def standing (s : TimedState) : Action → Bool
  | .step _ (.noTmp _) => false
  | .step n _ => s.threads[n]?.all fun t =>
      match t.client.pc with
      | .check startTime => decide (startTime < s.shared.base.now)
      | _ => true
  | _ => true

theorem standing_of_decided {s : TimedState} {a : Action} (h : standing s a = true) : Standing s a := by
  cases a with
  | step n c =>
    refine ⟨?_, fun t ht startTime hpc => ?_⟩
    · rintro err rfl
      cases h
    · unfold standing at h
      split at h
      · cases h
      · rename_i heq
        cases heq
        rw [Option.mem_def.1 ht] at h
        simpa [hpc] using h
      · rename_i hne
        exact absurd rfl (hne n c)
  | _ => trivial

def noFiles : TimedState := ⟨⟨quiet.shared, fun _ => 0, fun _ => 0⟩, []⟩

theorem noFiles_initial : TimedInitial noFiles := ⟨rfl, fun _ => rfl, fun _ => rfl⟩

/-- A request finds nothing and waits for one unit of time. -/
def waits : List Action := [.spawn arrival, .step 0 (.get 0), .step 0 .go, .env (.tick 1), .step 0 .go]

/-- It is proxied and its response stored; after twelve more units of time another request arrives. -/
def askedAgain : List Action :=
  [.step 0 .go, .step 0 .go, .step 0 (.execute [⟨.response okay, none, true, []⟩] [] {}), .step 0 .go, .step 0 .go,
    .step 0 .go, .env (.tick 12), .spawn arrival, .step 1 (.get 0)]

theorem stale_hits_attended_off : ∃ s t,
    Steps.ReachWhen (timedProgram 10 0).next TimedInitial (fun s a _ => Standing s a) s ∧ s.threads[1]? = some t ∧
    t.stale = true ∧ t.attended = false ∧ EndsProxied 10 0 s 1 := by
  obtain ⟨s, t, hrun, ht, hstale, hattended⟩ : ∃ s t,
      Steps.runWhen (timedProgram 10 0).next (fun s a _ => standing s a) noFiles (waits ++ askedAgain) = some s ∧
      s.threads[1]? = some t ∧ t.stale = true ∧ t.attended = false := ⟨_, _, rfl, rfl, rfl, rfl⟩
  have hreach : Steps.ReachWhen (timedProgram 10 0).next TimedInitial (fun s a _ => Standing s a) s :=
    .of_runWhen (fun _ _ _ h => standing_of_decided h) _ (.init noFiles_initial) hrun
  have hsound := (stale_hits_attended_iff (by decide)).2 rfl s hreach
  exact ⟨s, t, hreach, ht, hstale, hattended, (hsound.proxied ht hstale hattended).2⟩

/-- The second request is by itself, finds the response expired, and is answered with it: nobody refreshes
it. -/
theorem expired_response_served : ∃ s first second,
    Steps.ReachWhen (timedProgram 10 5).next TimedInitial (fun s a _ => Standing s a) s ∧
    s.threads = [first, second] ∧ first.client.pc = .done .proxied ∧ second.client.pc = .done .hit ∧
    second.stale = true ∧ ¬ StaleAttended 10 5 s := by
  obtain ⟨s, first, second, hrun, hthreads, hfirst, hhit, hstale, hattended⟩ : ∃ s first second,
      Steps.runWhen (timedProgram 10 5).next (fun s a _ => standing s a) noFiles
        (waits ++ .step 0 .go :: askedAgain) = some s ∧
      s.threads = [first, second] ∧ first.client.pc = .done .proxied ∧ second.client.pc = .done .hit ∧
      second.stale = true ∧ second.attended = false := ⟨_, _, _, rfl, rfl, rfl, rfl, rfl, rfl⟩
  refine ⟨s, first, second, .of_runWhen (fun _ _ _ h => standing_of_decided h) _ (.init noFiles_initial) hrun,
    hthreads, hfirst, hhit, hstale, fun h => ?_⟩
  obtain ⟨hproxied, -⟩ := h.proxied (n := 1) (by rw [hthreads]; rfl) hstale hattended
  cases hproxied _ hhit

end Chproxy.Proxy
