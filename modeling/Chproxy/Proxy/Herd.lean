/-
The protection from the thundering herd (`AwaitForConcurrentTransaction`, `serveFromCache`): how many of
the requests with one key are proxied while no wait and no deadline elapses and every execution succeeds.
`Status` and `Create` are two critical sections, so the protection rests on what happens between them.
-/
import Chproxy.Proxy.Disconnect

namespace Chproxy.Proxy

open Utils Cache

/-! ## The requests of one key -/

/-- About to call `Status`. -/
@[simp] def Pc.checking : Pc → Bool
  | .status _ => true
  | _ => false

/-- Past the wait without a transaction found, and not yet past `Create`. -/
@[simp] def Pc.passed : Pc → Bool
  | .newTmp | .create => true
  | _ => false

/-- Between `Create` and the end of what is done on the cache. -/
@[simp] def Pc.busy : Pc → Bool
  | .proxy | .calls _ => true
  | _ => false

/-- Proxied to ClickHouse, now or before. -/
@[simp] def Pc.proxied : Pc → Bool
  | .proxy | .calls _ | .done .proxied => true
  | _ => false

section

variable (s : State) (k : String)

def State.passed : Nat := s.threads.countP fun t => decide (t.key = k) && t.pc.passed

def State.busy : Nat := s.threads.countP fun t => decide (t.key = k) && t.pc.busy

def State.proxied : Nat := s.threads.countP fun t => decide (t.key = k) && t.pc.proxied

end

/-! ## Calm runs -/

/-- The execution succeeds: its response is put and the transaction completed. -/
def Succeeds (t : Client) (rounds : List Round) (timeoutText : Bytes) (io : TmpIO) : Bool :=
  match serveMiss t.settings rounds timeoutText io t.srw with
  | some ⟨[.put _ _, .complete], _⟩ => true
  | _ => false

/-- The wait has not lasted longer than the grace time, and executions and `Put` succeed. -/
def calmChoice (graceTime : Int) (h : Shared) (t : Client) (c : Choice) : Bool :=
  match t.pc, c with
  | .check startTime, _ => decide (h.now - startTime ≤ graceTime)
  | _, .execute rounds timeoutText io => Succeeds t rounds timeoutText io
  | _, .putError _ => false
  | _, _ => true

/-- No record of the registry is cleaned and no cached response expires. -/
def CalmEvent (h : Shared) : Event → Prop
  | .tick _ => True
  | .clean currentTime => ∀ k e, h.registry.pendingEntries k = some e → currentTime ≤ e.deadline
  | .evict _ => False

def CalmAction (graceTime : Int) (s : State) : Action → Prop
  | .spawn _ => True
  | .step n c => ∀ t ∈ s.threads[n]?, calmChoice graceTime s.shared t c = true
  | .env e => CalmEvent s.shared e

/-- A request that finds no transaction is the only one of its key that did and has not created its own. -/
def AloneChoice (s : State) (t : Client) : Prop :=
  t.pc.checking = true → s.shared.registry.pendingEntries t.key = none →
    ∀ t' ∈ s.threads, t'.key = t.key → t'.pc.passed = false

def AloneAction (s : State) : Action → Prop
  | .step n _ => ∀ t ∈ s.threads[n]?, AloneChoice s t
  | _ => True

/-! ## The transaction of a key -/

/-- What the record of a key says about its requests. -/
inductive Phase (h : Shared) (k : String) (passed proxied : Nat) : Prop
  | idle : h.registry.pendingEntries k = none → passed ≤ 1 → proxied = 0 → Phase h k passed proxied
  | running (e : PendingEntry) : h.registry.pendingEntries k = some e → e.state = .created → passed = 0 → proxied = 1 →
      Phase h k passed proxied
  | finished (e : PendingEntry) : h.registry.pendingEntries k = some e → e.state = .completed → h.cached k ≠ none →
      passed = 0 → proxied ≤ 1 → Phase h k passed proxied

/-- What a request may be about to do: look again only for a response that is there, and complete only
after its `Put`. -/
structure Client.Fits (h : Shared) (t : Client) : Prop where
  again : t.pc = .getAgain → ∃ e, h.registry.pendingEntries t.key = some e ∧ e.state = .completed
  calls : ∀ left, t.pc = .calls left →
    (∃ data metadata, left = [.put data metadata, .complete]) ∨ (left = [.complete] ∧ h.cached t.key ≠ none) ∨ left = []

/-- Completed transactions stay completed and cached responses stay in the cache. -/
structure Shared.Later (h h' : Shared) : Prop where
  completed : ∀ k e, h.registry.pendingEntries k = some e → e.state = .completed →
    ∃ e', h'.registry.pendingEntries k = some e' ∧ e'.state = .completed
  cached : ∀ k, h.cached k ≠ none → h'.cached k ≠ none

theorem Shared.Later.refl (h : Shared) : h.Later h := ⟨fun _ e he hs => ⟨e, he, hs⟩, fun _ hc => hc⟩

theorem Client.Fits.later {h h' : Shared} {t : Client} (hf : t.Fits h) (hl : h.Later h') : t.Fits h' where
  again hpc := by
    obtain ⟨e, he, hs⟩ := hf.again hpc
    exact hl.completed _ e he hs
  calls left hpc := by
    rcases hf.calls left hpc with hput | ⟨hleft, hc⟩ | hleft
    · exact .inl hput
    · exact .inr (.inl ⟨hleft, hl.cached _ hc⟩)
    · exact .inr (.inr hleft)

/-- What a step of a calm run does to the transaction of its key and to the counts of its requests. -/
inductive Effect (alone : Prop) (h : Shared) (t : Client) (h' : Shared) (t' : Client) : Prop
  | wait : h' = h → (t'.pc.passed = true → t.pc.passed = true) → t'.pc.proxied = t.pc.proxied → Effect alone h t h' t'
  | pass : h' = h → h.registry.pendingEntries t.key = none → alone → t.pc.passed = false →
      t'.pc.proxied = t.pc.proxied → Effect alone h t h' t'
  | create : h' = { h with registry := h.registry.create h.now t.key } → t.pc.passed = true → t'.pc.passed = false →
      t.pc.proxied = false → t'.pc.proxied = true → Effect alone h t h' t'
  | put (data : Bytes) (metadata : ContentMetadata) : h' = h.perform t.key t.ended (.put data metadata) →
      t'.pc.passed = t.pc.passed → t'.pc.proxied = t.pc.proxied → Effect alone h t h' t'
  | complete : h' = h.perform t.key t.ended .complete → h.cached t.key ≠ none → t'.pc.passed = t.pc.passed →
      t'.pc.proxied = true → t.pc.proxied = true → Effect alone h t h' t'

theorem Phase.status_absent {h : Shared} {k : String} {passed proxied : Nat} (hp : Phase h k passed proxied)
    (hs : (h.registry.status k).state = .absent) : h.registry.pendingEntries k = none := by
  unfold InMemoryTransactionRegistry.status at hs
  cases hp with
  | idle hnone => exact hnone
  | running e he hstate => rw [he] at hs; simp [hstate] at hs
  | finished e he hstate => rw [he] at hs; simp [hstate] at hs

theorem Phase.cached_of_completed {h : Shared} {k : String} {passed proxied : Nat} (hp : Phase h k passed proxied)
    {e : PendingEntry} (he : h.registry.pendingEntries k = some e) (hs : e.state = .completed) : h.cached k ≠ none := by
  cases hp with
  | idle hnone => rw [hnone] at he; cases he
  | running e' he' hstate => cases he.symm.trans he'; rw [hs] at hstate; cases hstate
  | finished _ _ _ hc => exact hc

theorem status_completed {i : InMemoryTransactionRegistry} {k : String} (hs : (i.status k).state = .completed) :
    ∃ e, i.pendingEntries k = some e ∧ e.state = .completed := by
  unfold InMemoryTransactionRegistry.status at hs
  split at hs
  · rename_i e he; exact ⟨e, he, hs⟩
  · cases hs

/-! ## One step -/

section

variable {h h' : Shared} {t t' : Client} {alone : Prop}

/-- A step that changes nothing shared and does not lead to the cache. -/
theorem wait_calm (h1 : t'.pc.passed = true → t.pc.passed = true) (h2 : t'.pc.proxied = t.pc.proxied)
    (h3 : t'.pc ≠ .getAgain) (h4 : ∀ left, t'.pc ≠ .calls left) : Effect alone h t h t' ∧ t'.Fits h :=
  ⟨.wait rfl h1 h2, fun hpc => absurd hpc h3, fun left hpc => absurd hpc (h4 left)⟩

theorem onStatus_calm {startTime : Int} {passed proxied : Nat} (hp : Phase h t.key passed proxied)
    (hpc : t.pc = .status startTime) (halone : h.registry.pendingEntries t.key = none → alone) :
    Effect alone h t h (t.onStatus h startTime) ∧ (t.onStatus h startTime).Fits h := by
  unfold Client.onStatus
  split
  · exact wait_calm (by simp) (by simp [hpc]) (by simp) (by simp)
  · rename_i hstatus
    refine ⟨.wait rfl (by simp) (by simp [hpc]), fun _ => ?_, fun left hl => by cases hl⟩
    exact status_completed (congrArg TransactionStatus.state hstatus)
  · exact wait_calm (by simp) (by simp [hpc]) (by simp) (by simp)
  · rename_i hstatus
    have hnone := hp.status_absent (by rw [hstatus])
    refine ⟨.pass rfl hnone (halone hnone) (by simp [hpc]) (by simp [hpc]), ?_, ?_⟩ <;> simp

theorem serveCached_calm {ttl : Int} {miss : Pc} (h1 : t.pc.proxied = false)
    (h2 : h.cached t.key = none → miss.passed = false ∧ miss.proxied = false ∧ miss ≠ .getAgain) :
    Effect alone h t h (t.serveCached h ttl miss) ∧ (t.serveCached h ttl miss).Fits h := by
  unfold Client.serveCached
  split
  · exact wait_calm (by simp) (by rw [h1]; rfl) (by simp) (by simp)
  · rename_i hmiss
    obtain ⟨hp, hq, ha⟩ := h2 hmiss
    refine wait_calm (fun h => by rw [Client.pc_goto, hp] at h; cases h) (by rw [Client.pc_goto, hq, h1]) ha ?_
    rintro left rfl
    cases hq

/-- The call that comes next, once the response has been captured. -/
theorem perform_calm {call : CacheCall} {left : List CacheCall} (hf : t.Fits h) (hpc : t.pc = .calls (call :: left)) :
    Effect alone h t (h.perform t.key t.ended call) (t.goto (.calls left)) ∧
      (t.goto (.calls left)).Fits (h.perform t.key t.ended call) := by
  rcases hf.calls _ hpc with ⟨data, metadata, hcalls⟩ | ⟨hcalls, hc⟩ | hcalls
  · cases hcalls
    refine ⟨.put data metadata rfl (by simp [hpc]) (by simp [hpc]), ⟨by simp, fun left hl => ?_⟩⟩
    cases hl
    exact .inr (.inl ⟨rfl, by simp [Shared.perform]⟩)
  · cases hcalls
    refine ⟨.complete rfl hc (by simp [hpc]) (by simp) (by simp [hpc]), ⟨by simp, fun left hl => ?_⟩⟩
    cases hl
    exact .inr (.inr rfl)
  · cases hcalls

theorem execute_calm {rounds : List Round} {timeoutText : Bytes} {io : TmpIO} (hpc : t.pc = .proxy)
    (hs : Succeeds t rounds timeoutText io = true) (hex : t.execute rounds timeoutText io = some t') :
    Effect alone h t h t' ∧ t'.Fits h := by
  obtain ⟨served, hserved, rfl⟩ := Option.map_eq_some_iff.1 hex
  unfold Succeeds at hs
  split at hs
  · rename_i data metadata srw heq
    cases hserved.symm.trans heq
    refine ⟨.wait rfl (by simp) (by simp [hpc]), ⟨by simp, fun left hl => ?_⟩⟩
    cases hl
    exact .inl ⟨data, metadata, rfl⟩
  · cases hs

/-- What a step of a calm run does, and that the request then still fits. -/
theorem move_calm {graceTime : Int} {c : Choice} {passed proxied : Nat} (hp : Phase h t.key passed proxied)
    (hf : t.Fits h) (hcalm : calmChoice graceTime h t c = true)
    (halone : ∀ startTime, t.pc = .status startTime → h.registry.pendingEntries t.key = none → alone)
    (hm : Move graceTime h t c h' t') : Effect alone h t h' t' ∧ t'.Fits h' := by
  cases hm with
  | get hpc => exact serveCached_calm (by simp [hpc]) (by simp)
  | enter hpc => exact wait_calm (by simp) (by simp [hpc]) (by simp) (by simp)
  | check hpc =>
    -- the grace time has not elapsed, so the wait goes on
    simp only [calmChoice, hpc, decide_eq_true_eq] at hcalm
    rw [if_neg (by omega)]
    exact wait_calm (by simp) (by simp [hpc]) (by simp) (by simp)
  | status hpc => exact onStatus_calm hp hpc (halone _ hpc)
  | getAgain hpc =>
    -- the transaction is completed, so the response is in the cache
    obtain ⟨e, he, hs⟩ := hf.again hpc
    exact serveCached_calm (by simp [hpc]) fun hmiss => absurd hmiss (hp.cached_of_completed he hs)
  | newTmp hpc => exact wait_calm (by simp [hpc]) (by simp [hpc]) (by simp) (by simp)
  | noTmp hpc => exact wait_calm (by simp) (by simp [hpc]) (by simp) (by simp)
  | create hpc =>
    refine ⟨.create rfl (by simp [hpc]) (by simp) (by simp [hpc]) (by simp), ?_, ?_⟩ <;> simp
  | execute hpc hex =>
    simp only [calmChoice, hpc] at hcalm
    exact execute_calm hpc hcalm hex
  | putError hpc => simp [calmChoice, hpc] at hcalm
  | perform hpc => exact perform_calm hf hpc
  | finish hpc => exact wait_calm (by simp) (by simp [hpc]) (by simp) (by simp)

theorem Effect.later (he : Effect alone h t h' t') : h.Later h' := by
  cases he with
  | wait hh => subst hh; exact .refl h'
  | pass hh => subst hh; exact .refl h'
  | create hh =>
    subst hh
    -- an entry that is there is not created anew
    refine ⟨fun k e hk hs => ⟨e, ?_, hs⟩, fun k hc => hc⟩
    by_cases hkey : k = t.key
    · subst hkey
      rw [InMemoryTransactionRegistry.create_of_some hk]
      exact hk
    · rw [InMemoryTransactionRegistry.create_of_ne hkey]
      exact hk
  | put data metadata hh =>
    subst hh
    refine ⟨fun k e hk hs => ⟨e, hk, hs⟩, fun k hc => ?_⟩
    by_cases hkey : k = t.key
    · simp [Shared.perform, hkey]
    · simpa [Shared.perform, hkey] using hc
  | complete hh =>
    subst hh
    refine ⟨fun k e hk hs => ?_, fun k hc => hc⟩
    by_cases hkey : k = t.key
    · subst hkey
      exact ⟨_, InMemoryTransactionRegistry.insert_self _, rfl⟩
    · exact ⟨e, (InMemoryTransactionRegistry.insert_of_ne _ hkey).trans hk, hs⟩

/-- The effect on the phase of the key of the request, where `p` and `q` are the counts before the step
and `p'` and `q'` those after it. -/
theorem Effect.phase {p q p' q' : Nat} (he : Effect (p = 0) h t h' t') (hp : Phase h t.key p q)
    (hq : t.pc.proxied.toNat ≤ q) (hp' : p' + t.pc.passed.toNat = p + t'.pc.passed.toNat)
    (hq' : q' + t.pc.proxied.toNat = q + t'.pc.proxied.toNat) : Phase h' t.key p' q' := by
  cases he with
  | wait hh h1 h2 =>
    subst hh
    rw [h2] at hq'
    have hle : t'.pc.passed.toNat ≤ t.pc.passed.toNat := by
      cases hx : t'.pc.passed with
      | false => simp
      | true => rw [h1 hx]
    cases hp with
    | idle h1 h2 h3 => exact .idle h1 (by omega) (by omega)
    | running e h1 h2 h3 h4 => exact .running e h1 h2 (by omega) (by omega)
    | finished e h1 h2 h3 h4 h5 => exact .finished e h1 h2 h3 (by omega) (by omega)
  | pass hh hnone halone h1 h2 =>
    subst hh
    rw [h1] at hp'
    rw [h2] at hq'
    have := Bool.toNat_le t'.pc.passed
    simp only [Bool.toNat_false] at hp'
    cases hp with
    | idle h1 h2 h3 => exact .idle h1 (by omega) (by omega)
    | running e h1 => rw [hnone] at h1; cases h1
    | finished e h1 => rw [hnone] at h1; cases h1
  | create hh h1 h2 h3 h4 =>
    subst hh
    simp only [h1, h2, h3, h4, Bool.toNat_true, Bool.toNat_false] at hp' hq'
    -- the request was counted among those past the wait, which leaves only the idle phase
    cases hp with
    | idle hnone h2 h3 => exact .running _ (InMemoryTransactionRegistry.create_of_none hnone) rfl (by omega) (by omega)
    | running e h1 h2 h3 h4 => omega
    | finished e h1 h2 h3 h4 h5 => omega
  | put data metadata hh h1 h2 =>
    subst hh
    rw [h1] at hp'
    rw [h2] at hq'
    cases hp with
    | idle h1 h2 h3 => exact .idle h1 (by omega) (by omega)
    | running e h1 h2 h3 h4 => exact .running e h1 h2 (by omega) (by omega)
    | finished e h1 h2 h3 h4 h5 => exact .finished e h1 h2 (by simp [Shared.perform]) (by omega) (by omega)
  | complete hh hc h1 h2 h3 =>
    subst hh
    rw [h1] at hp'
    rw [h2, h3] at hq'
    rw [h3, Bool.toNat_true] at hq
    -- the request itself is among the proxied ones, so the phase is not idle
    have hcounts : p = 0 ∧ q ≤ 1 := by
      cases hp with
      | idle _ _ h3 => omega
      | running _ _ _ h3 h4 => omega
      | finished _ _ _ _ h4 h5 => omega
    exact .finished _ (InMemoryTransactionRegistry.insert_self _) rfl hc (by omega) (by omega)

end

/-! ## Whole runs -/

/-- The invariant of calm runs in which every request that finds no transaction is alone. -/
structure Protected (s : State) : Prop where
  phase : ∀ k, Phase s.shared k (s.passed k) (s.proxied k)
  fits : ∀ t ∈ s.threads, t.Fits s.shared

theorem Phase.congr {h h' : Shared} {k : String} {p q : Nat} (hp : Phase h k p q)
    (h1 : h'.registry.pendingEntries k = h.registry.pendingEntries k) (h2 : h'.cached k = h.cached k) :
    Phase h' k p q := by
  cases hp with
  | idle h3 h4 h5 => exact .idle (h1.trans h3) h4 h5
  | running e h3 h4 h5 h6 => exact .running e (h1.trans h3) h4 h5 h6
  | finished e h3 h4 h5 h6 h7 => exact .finished e (h1.trans h3) h4 (by rwa [h2]) h6 h7

theorem Effect.frame {alone : Prop} {h h' : Shared} {t t' : Client} (he : Effect alone h t h' t') {k : String}
    (hk : k ≠ t.key) :
    h'.registry.pendingEntries k = h.registry.pendingEntries k ∧ h'.cached k = h.cached k := by
  cases he with
  | wait hh => subst hh; exact ⟨rfl, rfl⟩
  | pass hh => subst hh; exact ⟨rfl, rfl⟩
  | create hh => subst hh; exact ⟨InMemoryTransactionRegistry.create_of_ne hk, rfl⟩
  | put data metadata hh => subst hh; exact ⟨rfl, by simp [Shared.perform, hk]⟩
  | complete hh => subst hh; exact ⟨InMemoryTransactionRegistry.insert_of_ne _ hk, rfl⟩

theorem Move.key {graceTime : Int} {h h' : Shared} {t t' : Client} {c : Choice} (hm : Move graceTime h t c h' t') :
    t'.key = t.key := by
  cases hm with
  | get _ => unfold Client.serveCached; split <;> rfl
  | getAgain _ => unfold Client.serveCached; split <;> rfl
  | status _ => unfold Client.onStatus; split <;> rfl
  | execute _ hex => obtain ⟨served, -, rfl⟩ := Option.map_eq_some_iff.1 hex; rfl
  | _ => rfl

theorem protected_step {graceTime : Int} {s : State} {n : Nat} {c : Choice} {t t' : Client} {h' : Shared}
    (hp : Protected s) (ht : s.threads[n]? = some t) (hcalm : calmChoice graceTime s.shared t c = true)
    (halone : AloneChoice s t) (hm : Move graceTime s.shared t c h' t') :
    Protected ⟨h', s.threads.set n t'⟩ := by
  have hmem := List.mem_of_getElem? ht
  -- a request that finds no entry is the only one of its key
  have halone' : ∀ startTime, t.pc = .status startTime → s.shared.registry.pendingEntries t.key = none →
      s.passed t.key = 0 := by
    intro startTime hpc hnone
    have hothers := halone (by simp [hpc]) hnone
    refine List.countP_eq_zero.2 fun x hx => ?_
    by_cases hk : x.key = t.key
    · rw [hothers x hx hk, Bool.and_false]
      simp
    · simp [hk]
  obtain ⟨he, hf⟩ := move_calm (hp.phase t.key) (hp.fits t hmem) hcalm halone' hm
  -- both counts change by what the pc of this request counts
  have hcount : ∀ (f : Pc → Bool) (k : String),
      (s.threads.set n t').countP (fun t => decide (t.key = k) && f t.pc) + (decide (t.key = k) && f t.pc).toNat =
        s.threads.countP (fun t => decide (t.key = k) && f t.pc) + (decide (t.key = k) && f t'.pc).toNat := by
    intro f k
    have := Pool.Program.countP_set (fun t : Client => decide (t.key = k) && f t.pc) t' ht
    rwa [hm.key] at this
  constructor
  · -- the counts of other keys and their record stay as they are
    intro k
    have h1 := hcount Pc.passed k
    have h2 := hcount Pc.proxied k
    by_cases hk : k = t.key
    · subst hk
      simp only [decide_true, Bool.true_and] at h1 h2
      have hq : t.pc.proxied.toNat ≤ s.proxied t.key := by
        cases hx : t.pc.proxied with
        | false => simp
        | true => exact List.countP_pos_iff.2 ⟨t, hmem, by simpa using hx⟩
      exact he.phase (hp.phase t.key) hq h1 h2
    · obtain ⟨hr, hc⟩ := he.frame hk
      simp only [show decide (t.key = k) = false by simpa using Ne.symm hk, Bool.false_and, Bool.toNat_false,
        Nat.add_zero] at h1 h2
      have := (hp.phase k).congr hr hc
      rwa [State.passed, State.proxied, ← h1, ← h2] at this
  · exact Pool.forall_mem_set (fun x hx => (hp.fits x hx).later he.later) hf

theorem protected_environment {s : State} {e : Event} {h' : Shared} (hp : Protected s) (hcalm : CalmEvent s.shared e)
    (he : environment s.shared e = some h') : Protected ⟨h', s.threads⟩ := by
  have hkeep : (∀ k, h'.registry.pendingEntries k = s.shared.registry.pendingEntries k) ∧
      h'.cached = s.shared.cached := by
    cases e with
    | tick d => cases he; exact ⟨fun _ => rfl, rfl⟩
    | evict k => cases hcalm
    | clean currentTime =>
      simp only [environment] at he
      split at he
      · cases he
        exact ⟨fun k => InMemoryTransactionRegistry.clean_of_le (hcalm k), rfl⟩
      · cases he
  obtain ⟨hr, hc⟩ := hkeep
  refine ⟨fun k => (hp.phase k).congr (hr k) (by rw [hc]), fun t ht => (hp.fits t ht).later ⟨fun k e hk hs => ?_, ?_⟩⟩
  · exact ⟨e, (hr k).trans hk, hs⟩
  · intro k hk; rwa [hc]

theorem protected_next {graceTime : Int} {s s' : State} {a : Action} (hp : Protected s)
    (hn : (program graceTime).next s a = some s') (hcalm : CalmAction graceTime s a) (halone : AloneAction s a) :
    Protected s' := by
  obtain ⟨i, -, rfl⟩ | ⟨n, c, t, h', t', rfl, ht, hst, rfl⟩ | ⟨e, h', rfl, he, rfl⟩ := Pool.Program.next_cases hn
  · refine ⟨fun k => ?_, Pool.forall_mem_concat hp.fits ⟨by simp [program], by simp [program]⟩⟩
    simpa [State.passed, State.proxied, program] using hp.phase k
  · exact protected_step hp ht (hcalm t ht) (halone t ht) (step_cases hst)
  · exact protected_environment hp hcalm he

theorem protected_initial {s : State} (hs : Initial s) : Protected s := by
  obtain ⟨hthreads, hregistry⟩ := hs
  refine ⟨fun k => .idle (hregistry k) ?_ ?_, fun t ht => ?_⟩
  · simp [State.passed, hthreads]
  · simp [State.proxied, hthreads]
  · rw [hthreads] at ht; cases ht

/-- Protection from the thundering herd: in every run in which no wait and no deadline elapses, no cached
response expires and every execution succeeds, and in which a request finds no transaction for its key
only while no other request has found none and not yet created its own, a single request of a key is
ever proxied. -/
theorem single_request_proxied {graceTime : Int} {s : State}
    (h : Steps.ReachWhen (program graceTime).next Initial
      (fun s a _ => CalmAction graceTime s a ∧ AloneAction s a) s) (k : String) :
    s.busy k ≤ 1 ∧ s.proxied k ≤ 1 := by
  have hp : Protected s := h.invariant (fun _ => protected_initial) fun _ _ _ hp hn hc => protected_next hp hn hc.1 hc.2
  have hproxied : s.proxied k ≤ 1 := by
    cases hp.phase k with
    | idle _ _ h3 => omega
    | running _ _ _ _ h4 => omega
    | finished _ _ _ _ _ h5 => exact h5
  refine ⟨Nat.le_trans (List.countP_mono_left fun t _ ht => ?_) hproxied, hproxied⟩
  cases hpc : t.pc <;> simp_all

/-! ## Two requests with one key -/

instance (s : State) (t : Client) : Decidable (AloneChoice s t) := inferInstanceAs (Decidable (_ → _))

/-- The condition of a calm run on the actions of the requests, and none on the environment that is still. -/
def calmStep (graceTime : Int) (s : State) : Action → Bool
  | .spawn _ => true
  | .step n c => decide (∀ t ∈ s.threads[n]?, calmChoice graceTime s.shared t c = true)
  | .env _ => false

theorem calmAction_of_calmStep {graceTime : Int} {s : State} {a : Action} (h : calmStep graceTime s a = true) :
    CalmAction graceTime s a := by
  cases a with
  | spawn _ => trivial
  | step n c => exact (of_decide_eq_true h : ∀ t ∈ s.threads[n]?, calmChoice graceTime s.shared t c = true)
  | env e => cases h

instance (s : State) : (a : Action) → Decidable (AloneAction s a)
  | .step _ _ => Option.decidableForallMem _
  | .spawn _ | .env _ => instDecidableTrue

/-- The second request waits for the first and is served from the cache. -/
def oneAfterTheOther : List Action :=
  firstExecutes ⟨.response okay, none, true, []⟩ ++
    [.step 0 .go, .step 0 .go, .step 1 .go, .step 1 .go, .step 1 (.get 0)]

def bothAnswered : State := (Steps.run (program 5).next quiet oneAfterTheOther).getD quiet

theorem single_request_proxied_two :
    bothAnswered.threads.map Client.pc = [.done .proxied, .done .hit] ∧
    bothAnswered.busy "key" ≤ 1 ∧ bothAnswered.proxied "key" ≤ 1 := by
  have hreach : Steps.ReachWhen (program 5).next Initial
      (fun s a _ => CalmAction 5 s a ∧ AloneAction s a) bothAnswered :=
    .of_runWhen (B := fun s a _ => calmStep 5 s a && decide (AloneAction s a))
      (fun _ _ _ h => by
        rw [Bool.and_eq_true] at h
        exact ⟨calmAction_of_calmStep h.1, of_decide_eq_true h.2⟩)
      oneAfterTheOther (.init quiet_initial) rfl
  exact ⟨by decide, single_request_proxied hreach "key"⟩

/-- Both requests find no transaction before either creates one, and both are executed. -/
def bothFindNone : List Action :=
  [.spawn arrival, .spawn arrival, .step 0 (.get 0), .step 1 (.get 0), .step 0 .go, .step 1 .go, .step 0 .go,
    .step 1 .go,
    .step 0 .go, .step 1 .go, .step 0 .go, .step 1 .go, .step 0 .go, .step 1 .go,
    .step 0 (.execute [⟨.response okay, none, true, []⟩] [] {}),
    .step 1 (.execute [⟨.response okay, none, true, []⟩] [] {})]

def herd : State := (Steps.run (program 5).next quiet bothFindNone).getD quiet

/-- In a calm run two requests with one key are between `Create` and `Complete`, both with a response
of ClickHouse to put. -/
theorem two_requests_proxied :
    Steps.ReachWhen (program 5).next Initial (fun s a _ => CalmAction 5 s a) herd ∧
    herd.threads.map Client.key = ["key", "key"] ∧ herd.busy "key" = 2 ∧
    ∀ t ∈ herd.threads, t.pc = .calls [.put (bytes "ok") ⟨2, bytes "text/plain", []⟩, .complete] :=
  ⟨.of_runWhen (fun _ _ _ h => calmAction_of_calmStep h) bothFindNone (.init quiet_initial) rfl,
    by decide, by decide, by decide⟩

end Chproxy.Proxy
