/-
How long a request waits for another one (`AwaitForConcurrentTransaction`, `cache/async_cache.go`). Between two
looks at the registry a request sleeps; here each request also counts its looks and keeps the time of the last.

In every run, whatever fails and however the requests interleave, a request looks at most once for every
interval of the grace time and once more; and no request ever needs a step of another to come to its end.
-/
import Chproxy.Proxy.Provenance

namespace Chproxy.Proxy

open Utils Cache Pool

/-! ## Requests that sleep -/

/-- The sleep between two looks: 100 milliseconds, or the grace time if that is shorter. -/
def pollInterval (graceTime : Int) : Int := if 100000000 > graceTime then graceTime else 100000000

/-- A request, how often it has called `Status`, and when it last looked at the clock in the loop. -/
structure Waiter where
  client : Client
  polls : Nat := 0
  last : Option Int := none

namespace Waiter

/-- `time.Sleep` lasts at least as long as it is told. -/
def rested (graceTime now : Int) (w : Waiter) : Bool :=
  match w.client.pc, w.last with
  | .check _, some t => decide (t + pollInterval graceTime ≤ now)
  | _, _ => true

def note (now : Int) (w : Waiter) (t : Client) : Waiter :=
  match w.client.pc with
  | .check _ => ⟨t, w.polls, some now⟩
  | .status _ => ⟨t, w.polls + 1, w.last⟩
  | _ => ⟨t, w.polls, w.last⟩

end Waiter

def waiting (graceTime : Int) : Program Shared Waiter Arrival (Choice ⊕ Fault) Event where
  spawn a := { client := (faulty graceTime).spawn a }
  step h w c :=
    if w.rested graceTime h.now then ((faulty graceTime).step h w.client c).map fun x => (x.1, w.note h.now x.2)
    else none
  env := environment

abbrev WaitingState := St Shared Waiter

def WaitingInitial (s : WaitingState) : Prop := s.threads = []

/-! ## Looks and intervals -/

/-- Past the loop. -/
@[simp] def Pc.past : Pc → Bool
  | .get | .enter | .check _ | .status _ => false
  | _ => true

/-- Every look but the first came an interval after the one before, and none of them after the grace time. -/
def Waiter.Paced (graceTime now : Int) (w : Waiter) : Prop :=
  match w.client.pc with
  | .get | .enter => w.polls = 0 ∧ w.last = none
  | .check startTime => startTime ≤ now ∧ (w.last = none → w.polls = 0) ∧
    ∀ t, w.last = some t → t ≤ now ∧ t - startTime ≤ graceTime ∧
      w.polls * pollInterval graceTime ≤ t - startTime + pollInterval graceTime
  | .status startTime => startTime ≤ now ∧
    ∃ t, w.last = some t ∧ t ≤ now ∧ t - startTime ≤ graceTime ∧ w.polls * pollInterval graceTime ≤ t - startTime
  | _ => w.polls * pollInterval graceTime ≤ graceTime + pollInterval graceTime

variable {graceTime now now' : Int} {h h' : Shared} {t t' : Client} {w w' : Waiter}

theorem pollInterval_bounds (hg : 0 ≤ graceTime) : 0 ≤ pollInterval graceTime ∧ pollInterval graceTime ≤ graceTime := by
  unfold pollInterval
  split
  · exact ⟨hg, le_rfl⟩
  · exact ⟨by decide, by omega⟩

theorem pollInterval_pos (hg : 0 < graceTime) : 0 < pollInterval graceTime := by
  unfold pollInterval
  split
  · exact hg
  · decide

theorem Waiter.paced_of_past (hpast : w.client.pc.past = true) :
    w.Paced graceTime now ↔ w.polls * pollInterval graceTime ≤ graceTime + pollInterval graceTime := by
  unfold Waiter.Paced
  cases hpc : w.client.pc <;> simp [hpc] at hpast ⊢

theorem Waiter.Paced.mono (hw : w.Paced graceTime now) (hle : now ≤ now') : w.Paced graceTime now' := by
  unfold Waiter.Paced at hw ⊢
  cases hpc : w.client.pc with
  | check startTime =>
    rw [hpc] at hw
    obtain ⟨hstart, hnone, hlast⟩ := hw
    exact ⟨hstart.trans hle, hnone, fun t ht => ⟨(hlast t ht).1.trans hle, (hlast t ht).2⟩⟩
  | status startTime =>
    rw [hpc] at hw
    obtain ⟨hstart, t, ht, htnow, hrest⟩ := hw
    exact ⟨hstart.trans hle, t, ht, htnow.trans hle, hrest⟩
  | _ => simpa only [hpc] using hw

/-- A look at the clock within the grace time leads to a look at the registry. -/
theorem Waiter.Paced.check (hg : 0 ≤ graceTime) (hw : w.Paced graceTime now) {startTime : Int}
    (hpc : w.client.pc = .check startTime) (hrested : w.rested graceTime now = true) {pc : Pc}
    (hnext : pc = if now - startTime > graceTime then .newTmp else .status startTime) :
    (w.note now (w.client.goto pc)).Paced graceTime now := by
  have hd := pollInterval_bounds hg
  simp only [Waiter.Paced, hpc] at hw
  obtain ⟨hstart, hnone, hlast⟩ := hw
  have hnote : w.note now (w.client.goto pc) = ⟨w.client.goto pc, w.polls, some now⟩ := by simp [Waiter.note, hpc]
  -- what the looks so far have cost
  have hpolls : w.polls * pollInterval graceTime ≤ now - startTime ∧
      w.polls * pollInterval graceTime ≤ graceTime + pollInterval graceTime := by
    cases hl : w.last with
    | none =>
      rw [hnone hl]
      simp only [Nat.cast_zero, zero_mul]
      omega
    | some t =>
      obtain ⟨htnow, htgrace, hcost⟩ := hlast t hl
      have hsleep : t + pollInterval graceTime ≤ now := by simpa [Waiter.rested, hpc, hl] using hrested
      omega
  rw [hnote]
  split at hnext
  · subst hnext
    exact hpolls.2
  · subst hnext
    refine ⟨hstart, now, rfl, le_rfl, by omega, hpolls.1⟩

/-- A look at the registry is counted. -/
theorem Waiter.Paced.status (hw : w.Paced graceTime now) {startTime : Int} (hpc : w.client.pc = .status startTime)
    (ht' : t'.pc = .check startTime ∨ t'.pc.past = true) : (w.note now t').Paced graceTime now := by
  simp only [Waiter.Paced, hpc] at hw
  obtain ⟨hstart, t, ht, htnow, htgrace, hcost⟩ := hw
  have hnote : w.note now t' = ⟨t', w.polls + 1, w.last⟩ := by simp [Waiter.note, hpc]
  -- this poll was made at `t`, and is paid for by the interval that follows it
  have hcost' : ((w.polls + 1 : Nat) : Int) * pollInterval graceTime ≤ t - startTime + pollInterval graceTime := by
    push_cast
    rw [add_mul, one_mul]
    omega
  rw [hnote]
  rcases ht' with hcheck | hpast
  · simp only [Waiter.Paced, hcheck]
    refine ⟨hstart, fun hl => ?_, fun u hu => ?_⟩
    · rw [ht] at hl
      cases hl
    · rw [ht] at hu
      cases hu
      exact ⟨htnow, htgrace, hcost'⟩
  · rw [Waiter.paced_of_past hpast]
    show ((w.polls + 1 : Nat) : Int) * pollInterval graceTime ≤ _
    omega

/-! ## Steps -/

theorem Client.pc_onStatus (t : Client) (h : Shared) (startTime : Int) :
    (t.onStatus h startTime).pc = .check startTime ∨ (t.onStatus h startTime).pc.past = true := by
  unfold Client.onStatus
  split
  · exact .inl rfl
  · exact .inr rfl
  · exact .inr rfl
  · exact .inr rfl

theorem Client.pc_serveCached (t : Client) (h : Shared) (ttl : Int) (miss : Pc) :
    (t.serveCached h ttl miss).pc = .done .hit ∨ (t.serveCached h ttl miss).pc = miss := by
  unfold Client.serveCached
  split
  · exact .inl rfl
  · exact .inr rfl

theorem Shared.now_perform (k : String) (ended : Option CtxErr) (call : CacheCall) :
    (h.perform k ended call).now = h.now := by
  cases call <;> rfl

/-- No step of a request takes time. -/
theorem step_now {c : Choice ⊕ Fault} (hst : (faulty graceTime).step h t c = some (h', t')) : h'.now = h.now := by
  cases c with
  | inl c =>
    cases step_cases hst with
    | perform hpc => exact Shared.now_perform ..
    | _ => rfl
  | inr f =>
    obtain ⟨_, -, heq⟩ := Option.map_eq_some_iff.1 hst
    cases heq
    rfl

theorem Waiter.note_of_past (hpast : w.client.pc.past = true) (t : Client) : w.note now t = ⟨t, w.polls, w.last⟩ := by
  unfold Waiter.note
  cases hpc : w.client.pc <;> simp [hpc] at hpast ⊢

theorem Waiter.Paced.past (hw : w.Paced graceTime now) (hpast : w.client.pc.past = true) (ht' : t'.pc.past = true) :
    (w.note now t').Paced graceTime now := by
  rw [Waiter.note_of_past hpast, Waiter.paced_of_past ht']
  exact (Waiter.paced_of_past hpast).1 hw

theorem Waiter.Paced.move (hg : 0 ≤ graceTime) (hw : w.Paced graceTime h.now)
    (hrested : w.rested graceTime h.now = true) {c : Choice} (hm : Move graceTime h w.client c h' t') :
    (w.note h.now t').Paced graceTime h.now := by
  have hpast : ∀ {pc : Pc}, w.client.pc = pc → pc.past = true → w.client.pc.past = true := fun hpc hp => hpc ▸ hp
  cases hm with
  | get hpc =>
    simp only [Waiter.Paced, hpc] at hw
    have hnote : ∀ u, w.note h.now u = ⟨u, w.polls, w.last⟩ := by simp [Waiter.note, hpc]
    rw [hnote]
    rcases Client.pc_serveCached w.client h _ .enter with hhit | henter
    · rw [Waiter.paced_of_past (by rw [hhit]; rfl), hw.1]
      have := pollInterval_bounds hg
      simp only [Nat.cast_zero, zero_mul]
      omega
    · simp only [Waiter.Paced, henter]
      exact hw
  | enter hpc =>
    simp only [Waiter.Paced, hpc] at hw
    simp only [Waiter.note, hpc, Waiter.Paced, Client.pc_goto, hw.2]
    exact ⟨le_rfl, fun _ => hw.1, by simp⟩
  | check hpc => exact hw.check hg hpc hrested rfl
  | status hpc => exact hw.status hpc (Client.pc_onStatus ..)
  | getAgain hpc =>
    -- past the wait: no further poll
    refine hw.past (hpast hpc rfl) ?_
    rcases Client.pc_serveCached w.client h _ .newTmp with hhit | hmiss
    · rw [hhit]
      rfl
    · rw [hmiss]
      rfl
  | execute hpc hex =>
    obtain ⟨served, -, rfl⟩ := Option.map_eq_some_iff.1 hex
    exact hw.past (hpast hpc rfl) rfl
  | newTmp hpc => exact hw.past (hpast hpc rfl) rfl
  | noTmp hpc => exact hw.past (hpast hpc rfl) rfl
  | create hpc => exact hw.past (hpast hpc rfl) rfl
  | putError hpc => exact hw.past (hpast hpc rfl) rfl
  | perform hpc => exact hw.past (hpast hpc rfl) rfl
  | finish hpc => exact hw.past (hpast hpc rfl) rfl

theorem Waiter.Paced.onError (hw : w.Paced graceTime now) {f : Fault} (he : w.client.onError f = some t') :
    (w.note now t').Paced graceTime now := by
  have hpast : ∀ {pc : Pc}, w.client.pc = pc → pc.past = true → w.client.pc.past = true := fun hpc hp => hpc ▸ hp
  cases f with
  | get =>
    simp only [Client.onError] at he
    split at he <;> cases he <;> rename_i hpc
    · simp only [Waiter.Paced, hpc] at hw
      simp only [Waiter.note, hpc, Waiter.Paced, Client.pc_goto]
      exact hw
    · exact hw.past (hpast hpc rfl) rfl
  | status =>
    simp only [Client.onError] at he
    split at he <;> cases he
    rename_i hpc
    exact hw.status hpc (.inr rfl)
  | create | resolve =>
    simp only [Client.onError] at he
    split at he <;> cases he <;> rename_i hpc
    all_goals exact hw.past (hpast hpc rfl) rfl

theorem environment_now {e : Event} (he : environment h e = some h') : h.now ≤ h'.now := by
  cases e with
  | tick d =>
    cases he
    show h.now ≤ h.now + d
    omega
  | clean currentTime =>
    dsimp only [environment] at he
    split at he
    · cases he
      exact le_rfl
    · cases he
  | evict k =>
    cases he
    exact le_rfl

theorem waiting_step {c : Choice ⊕ Fault} (hst : (waiting graceTime).step h w c = some (h', w')) :
    w.rested graceTime h.now = true ∧
      ∃ t', (faulty graceTime).step h w.client c = some (h', t') ∧ w' = w.note h.now t' := by
  dsimp only [waiting] at hst
  split at hst
  · rename_i hrested
    obtain ⟨⟨h₁, t'⟩, hstep, heq⟩ := Option.map_eq_some_iff.1 hst
    cases heq
    exact ⟨hrested, t', hstep, rfl⟩
  · cases hst

theorem paced_reach (hg : 0 ≤ graceTime) {s : WaitingState}
    (hs : Steps.Reach (waiting graceTime).next WaitingInitial s) : ∀ w ∈ s.threads, w.Paced graceTime s.shared.now := by
  refine hs.invariant (P := fun s : WaitingState => ∀ w ∈ s.threads, w.Paced graceTime s.shared.now) (fun s h0 => ?_)
    fun s a s' hw hn _ => ?_
  · rw [h0]
    simp
  · obtain ⟨i, -, rfl⟩ | ⟨n, c, w, h', w', -, hget, hst, rfl⟩ | ⟨e, h', -, he, rfl⟩ := Program.next_cases hn
    · exact forall_mem_concat hw ⟨rfl, rfl⟩
    · obtain ⟨hrested, t', hstep, rfl⟩ := waiting_step hst
      have hpaced := hw w (List.mem_of_getElem? hget)
      rw [show (St.shared ⟨h', s.threads.set n (w.note s.shared.now t')⟩).now = s.shared.now from step_now hstep]
      refine forall_mem_set hw ?_
      cases c with
      | inl c => exact hpaced.move hg hrested (step_cases hstep)
      | inr f =>
        obtain ⟨_, herr, heq⟩ := Option.map_eq_some_iff.1 hstep
        cases heq
        exact hpaced.onError herr
    · exact fun w hmem => (hw w hmem).mono (environment_now he)

theorem Waiter.Paced.cost (hg : 0 ≤ graceTime) (hw : w.Paced graceTime now) :
    w.polls * pollInterval graceTime ≤ graceTime + pollInterval graceTime := by
  have hd := pollInterval_bounds hg
  have hnone : w.polls = 0 → w.polls * pollInterval graceTime ≤ graceTime + pollInterval graceTime := by
    intro h0
    rw [h0, Nat.cast_zero, zero_mul]
    omega
  unfold Waiter.Paced at hw
  cases hpc : w.client.pc with
  | get => rw [hpc] at hw; exact hnone hw.1
  | enter => rw [hpc] at hw; exact hnone hw.1
  | check startTime =>
    rw [hpc] at hw
    -- the last poll was made within the grace time, and one interval comes after it
    cases hl : w.last with
    | none => exact hnone (hw.2.1 hl)
    | some t =>
      have := hw.2.2 t hl
      omega
  | status startTime =>
    rw [hpc] at hw
    obtain ⟨-, t, -, -, hgrace, hcost⟩ := hw
    omega
  | _ => simpa only [hpc] using hw

/-- A request calls `Status` at most once for each interval that fits into the grace time, and once more. -/
theorem polls_bounded (hg : 0 < graceTime) {s : WaitingState}
    (hs : Steps.Reach (waiting graceTime).next WaitingInitial s) {w : Waiter} (hw : w ∈ s.threads) :
    (w.polls : Int) ≤ graceTime / pollInterval graceTime + 1 := by
  have hcost := (paced_reach hg.le hs w hw).cost hg.le
  have hfits : ((w.polls : Int) - 1) * pollInterval graceTime ≤ graceTime := by
    rw [sub_mul, one_mul]
    omega
  have := (Int.le_ediv_iff_mul_le (pollInterval_pos hg)).2 hfits
  omega

/-- One request is being executed, a second has looked for it once. -/
def secondWaits : List FaultyAction :=
  [.spawn arrival, .spawn arrival, .step 0 (.inl (.get 0)), .step 0 (.inl .go), .step 0 (.inl .go), .step 0 (.inl .go),
    .step 0 (.inl .go), .step 0 (.inl .go), .step 1 (.inl (.get 0)), .step 1 (.inl .go), .step 1 (.inl .go),
    .step 1 (.inl .go)]

theorem secondWaits_run : ∃ s : WaitingState, Steps.Reach (waiting 5).next WaitingInitial s ∧
    s.threads.map (fun w => (w.client.pc, w.polls)) = [(.proxy, 1), (.check 0, 1)] := by
  have hrun : (Steps.run (waiting 5).next ⟨quiet.shared, []⟩ secondWaits).map
      (fun s => s.threads.map fun w => (w.client.pc, w.polls)) = some [(.proxy, 1), (.check 0, 1)] := by decide
  obtain ⟨s, hs, hpcs⟩ := Option.map_eq_some_iff.1 hrun
  have hinit : WaitingInitial ⟨quiet.shared, []⟩ := rfl
  exact ⟨s, Steps.Reach.of_run secondWaits (.init hinit) hs, hpcs⟩

theorem polls_bounded_second : ∃ s : WaitingState, Steps.Reach (waiting 5).next WaitingInitial s ∧
    ∃ w ∈ s.threads, w.client.pc = .check 0 ∧ (w.polls : Int) ≤ 5 / pollInterval 5 + 1 := by
  obtain ⟨s, hs, hpcs⟩ := secondWaits_run
  obtain ⟨w, hw, heq⟩ := List.mem_map.1
    (show (Pc.check 0, 1) ∈ s.threads.map fun w => (w.client.pc, w.polls) by simp [hpcs])
  exact ⟨s, hs, w, hw, (Prod.mk.inj heq).1, polls_bounded (by decide) hs hw⟩

/-! ## No request waits for another -/

/-- Steps of one request on which nothing fails, and the passing of time. -/
def Alone (n : Nat) (_ : WaitingState) (a : FaultyAction) (_ : WaitingState) : Prop :=
  match a with
  | .step m (.inl .go) => m = n
  | .step m (.inl (.get _)) => m = n
  | .step m (.inl (.execute ..)) => m = n
  | .env (.tick _) => True
  | _ => False

/-- The request can come to its end by itself, in at most this time. -/
def Finishes (graceTime : Int) (n : Nat) (within : Int) (s : WaitingState) : Prop :=
  ∃ s' w answer, Steps.ReachWhen (waiting graceTime).next (· = s) (Alone n) s' ∧ s'.threads[n]? = some w ∧
    w.client.pc = .done answer ∧ s'.shared.now ≤ s.shared.now + within

@[simp] theorem Waiter.client_note (w : Waiter) (t : Client) : (w.note now t).client = t := by
  unfold Waiter.note
  split <;> rfl

section Alone

variable {n : Nat} {s : WaitingState} {within : Int}

theorem Finishes.step {c : Choice} (hn : s.threads[n]? = some w) (hrested : w.rested graceTime s.shared.now = true)
    (hst : Proxy.step graceTime s.shared w.client c = some (h', t')) (hc : ∀ s s', Alone n s (.step n (.inl c)) s')
    (hrest : Finishes graceTime n within ⟨h', s.threads.set n (w.note s.shared.now t')⟩) :
    Finishes graceTime n within s := by
  have hnext : (waiting graceTime).next s (.step n (.inl c)) =
      some ⟨h', s.threads.set n (w.note s.shared.now t')⟩ := by
    apply Program.next_step hn
    simp [waiting, faulty, hrested, hst]
  have hnow : h'.now = s.shared.now :=
    step_now (show (faulty graceTime).step s.shared w.client (.inl c) = some (h', t') from hst)
  obtain ⟨s', w', answer, hreach, hget, hdone, hwithin⟩ := hrest
  refine ⟨s', w', answer, .head hnext (hc _ _) hreach, hget, hdone, ?_⟩
  rw [← hnow]
  exact hwithin

theorem finishes_done {answer : Answer} (hn : s.threads[n]? = some w) (hpc : w.client.pc = .done answer)
    (hwithin : 0 ≤ within) : Finishes graceTime n within s :=
  ⟨s, w, answer, .init rfl, hn, hpc, by omega⟩

theorem Waiter.rested_of_pc (hpc : ∀ startTime, w.client.pc ≠ .check startTime) : w.rested graceTime now = true := by
  unfold Waiter.rested
  split
  · rename_i startTime t h1 h2
    exact absurd h1 (hpc startTime)
  · rfl

/-- A step outside the loop, and what comes after it. -/
theorem Finishes.of_step {c : Choice} (hn : s.threads[n]? = some w) (hpc : ∀ startTime, w.client.pc ≠ .check startTime)
    (hm : Move graceTime s.shared w.client c h' t') (hc : ∀ s s', Alone n s (.step n (.inl c)) s')
    (hrest : ∀ s₁ : WaitingState, s₁.shared = h' → s₁.threads[n]? = some (w.note s.shared.now t') →
      Finishes graceTime n within s₁) : Finishes graceTime n within s := by
  refine .step hn (Waiter.rested_of_pc hpc) hm.step_eq hc (hrest _ rfl ?_)
  rw [List.getElem?_set_self', hn]
  rfl

variable (hwithin : 0 ≤ within)

include hwithin

theorem finishes_calls : ∀ (left : List CacheCall) {s : WaitingState} {w : Waiter}, s.threads[n]? = some w →
    w.client.pc = .calls left → Finishes graceTime n within s
  | [], s, w, hn, hpc => by
    refine .of_step hn (by simp [hpc]) (.finish hpc) (fun _ _ => rfl) fun s₁ _ hn₁ => ?_
    have hdone : (w.note s.shared.now (w.client.goto (.done .proxied))).client.pc = .done .proxied := by simp
    exact finishes_done hn₁ hdone hwithin
  | call :: left, s, w, hn, hpc => by
    refine .of_step hn (by simp [hpc]) (.perform hpc) (fun _ _ => rfl) fun s₁ _ hn₁ => ?_
    exact finishes_calls left hn₁ (by simp)

/-- The execution ends, at the latest when the client leaves. -/
theorem finishes_proxy (hn : s.threads[n]? = some w) (hpc : w.client.pc = .proxy) : Finishes graceTime n within s := by
  obtain ⟨t', hex, left, hleft⟩ : ∃ t', w.client.execute [⟨.failed, some .canceled, true, []⟩] [] {} = some t' ∧
      ∃ left, t'.pc = .calls left := ⟨_, rfl, _, rfl⟩
  refine .of_step hn (by simp [hpc]) (.execute hpc hex) (fun _ _ => rfl) fun s₁ _ hn₁ => ?_
  exact finishes_calls hwithin left hn₁ (by simpa using hleft)

theorem finishes_create (hn : s.threads[n]? = some w) (hpc : w.client.pc = .create) :
    Finishes graceTime n within s := by
  refine .of_step hn (by simp [hpc]) (.create hpc) (fun _ _ => rfl) fun s₁ _ hn₁ => ?_
  exact finishes_proxy hwithin hn₁ (by simp)

theorem finishes_newTmp (hn : s.threads[n]? = some w) (hpc : w.client.pc = .newTmp) :
    Finishes graceTime n within s := by
  refine .of_step hn (by simp [hpc]) (.newTmp hpc) (fun _ _ => rfl) fun s₁ _ hn₁ => ?_
  exact finishes_create hwithin hn₁ (by simp)

theorem finishes_getAgain (hn : s.threads[n]? = some w) (hpc : w.client.pc = .getAgain) :
    Finishes graceTime n within s := by
  have hm : Move graceTime s.shared w.client (.get 0) s.shared (w.client.serveCached s.shared 0 .newTmp) :=
    .getAgain hpc
  refine .of_step hn (by simp [hpc]) hm (fun _ _ => rfl) fun s₁ _ hn₁ => ?_
  rcases Client.pc_serveCached w.client s.shared 0 .newTmp with hhit | hmiss
  · exact finishes_done hn₁ (by simpa using hhit) hwithin
  · exact finishes_newTmp hwithin hn₁ (by simpa using hmiss)

omit hwithin

/-- Whoever holds the transaction: when the grace time has passed, the request goes on by itself. -/
theorem finishes_check (hg : 0 ≤ graceTime) (hw : w.Paced graceTime s.shared.now) {startTime : Int}
    (hn : s.threads[n]? = some w) (hpc : w.client.pc = .check startTime) : Finishes graceTime n (graceTime + 1) s := by
  have hd := pollInterval_bounds hg
  simp only [Waiter.Paced, hpc] at hw
  obtain ⟨hstart, -, hlast⟩ := hw
  -- the clock alone moves, by the grace time and one nanosecond
  let later : Shared := { s.shared with now := s.shared.now + (graceTime + 1).toNat }
  have hlater : later.now = s.shared.now + (graceTime + 1) := by
    show s.shared.now + ((graceTime + 1).toNat : Int) = _
    omega
  have htick : (waiting graceTime).next s (.env (.tick (graceTime + 1).toNat)) = some ⟨later, s.threads⟩ := rfl
  have hrested : w.rested graceTime later.now = true := by
    cases hl : w.last with
    | none => simp [Waiter.rested, hpc, hl]
    | some t =>
      have := (hlast t hl).1
      simp only [Waiter.rested, hpc, hl, decide_eq_true_eq]
      omega
  -- the request finds the grace time over and goes on as if nobody held the transaction
  have hmove : Move graceTime later w.client .go later (w.client.goto .newTmp) := by
    have hcheck : Move graceTime later w.client .go later
        (w.client.goto (if later.now - startTime > graceTime then .newTmp else .status startTime)) := .check hpc
    rwa [if_pos (by omega)] at hcheck
  have hgo : Finishes graceTime n 0 ⟨later, s.threads⟩ := by
    have hpc' : (w.note later.now (w.client.goto .newTmp)).client.pc = .newTmp := by simp
    refine .step hn hrested hmove.step_eq (fun _ _ => rfl) (finishes_newTmp le_rfl ?_ hpc')
    show (s.threads.set n _)[n]? = some _
    rw [List.getElem?_set_self', hn]
    rfl
  obtain ⟨s', w', answer, hreach, hget, hdone, hnow⟩ := hgo
  refine ⟨s', w', answer, .head htick trivial hreach, hget, hdone, ?_⟩
  rw [show (St.shared ⟨later, s.threads⟩).now = s.shared.now + (graceTime + 1) from hlater] at hnow
  omega

theorem finishes_status (hg : 0 ≤ graceTime) (hw : w.Paced graceTime s.shared.now) {startTime : Int}
    (hn : s.threads[n]? = some w) (hpc : w.client.pc = .status startTime) : Finishes graceTime n (graceTime + 1) s := by
  refine .of_step hn (by simp [hpc]) (.status hpc) (fun _ _ => rfl) fun s₁ hs₁ hn₁ => ?_
  have hpaced := hw.status hpc (Client.pc_onStatus w.client s.shared startTime)
  have hwithin : 0 ≤ graceTime + 1 := by omega
  generalize hu : w.note s.shared.now (w.client.onStatus s.shared startTime) = u at hn₁ hpaced
  have hclient : u.client = w.client.onStatus s.shared startTime := by rw [← hu, Waiter.client_note]
  unfold Client.onStatus at hclient
  split at hclient
  · exact finishes_check hg (hs₁ ▸ hpaced) hn₁ (by rw [hclient]; rfl)
  · exact finishes_getAgain hwithin hn₁ (by rw [hclient]; rfl)
  · exact finishes_done hn₁ (by rw [hclient]) hwithin
  · exact finishes_newTmp hwithin hn₁ (by rw [hclient]; rfl)

theorem finishes_enter (hg : 0 ≤ graceTime) (hw : w.Paced graceTime s.shared.now) (hn : s.threads[n]? = some w)
    (hpc : w.client.pc = .enter) : Finishes graceTime n (graceTime + 1) s := by
  have hm : Move graceTime s.shared w.client .go s.shared (w.client.goto (.check s.shared.now)) := .enter hpc
  refine .of_step hn (by simp [hpc]) hm (fun _ _ => rfl) fun s₁ hs₁ hn₁ => ?_
  have hpaced := hw.move hg (Waiter.rested_of_pc (by simp [hpc])) hm
  generalize hu : w.note s.shared.now (w.client.goto (.check s.shared.now)) = u at hn₁ hpaced
  exact finishes_check hg (hs₁ ▸ hpaced) hn₁ (by rw [← hu, Waiter.client_note]; rfl)

end Alone

/-- No request waits for a step of another: from every state that is reached, each request can come to its end by
its own steps, without a failure, in the time of its own execution and at most the grace time and a nanosecond. -/
theorem waiter_completes (hg : 0 ≤ graceTime) {s : WaitingState}
    (hs : Steps.Reach (waiting graceTime).next WaitingInitial s) {n : Nat} {w : Waiter} (hn : s.threads[n]? = some w) :
    ∃ s' w' answer, Steps.ReachWhen (waiting graceTime).next (· = s) (Alone n) s' ∧ s'.threads[n]? = some w' ∧
      w'.client.pc = .done answer ∧ s'.shared.now ≤ s.shared.now + (graceTime + 1) := by
  have hw := paced_reach hg hs w (List.mem_of_getElem? hn)
  have hwithin : 0 ≤ graceTime + 1 := by omega
  cases hpc : w.client.pc with
  | get =>
    have hm : Move graceTime s.shared w.client (.get 0) s.shared (w.client.serveCached s.shared 0 .enter) := .get hpc
    refine Finishes.of_step hn (by simp [hpc]) hm (fun _ _ => rfl) fun s₁ hs₁ hn₁ => ?_
    have hpaced := hw.move hg (Waiter.rested_of_pc (by simp [hpc])) hm
    generalize hu : w.note s.shared.now (w.client.serveCached s.shared 0 .enter) = u at hn₁ hpaced
    have hclient : u.client = w.client.serveCached s.shared 0 .enter := by rw [← hu, Waiter.client_note]
    rcases Client.pc_serveCached w.client s.shared 0 .enter with hhit | hmiss
    · exact finishes_done hn₁ (by rw [hclient, hhit]) hwithin
    · exact finishes_enter hg (hs₁ ▸ hpaced) hn₁ (by rw [hclient, hmiss])
  | enter => exact finishes_enter hg hw hn hpc
  | check startTime => exact finishes_check hg hw hn hpc
  | status startTime => exact finishes_status hg hw hn hpc
  | getAgain => exact finishes_getAgain hwithin hn hpc
  | newTmp => exact finishes_newTmp hwithin hn hpc
  | create => exact finishes_create hwithin hn hpc
  | proxy => exact finishes_proxy hwithin hn hpc
  | calls left => exact finishes_calls hwithin left hn hpc
  | done answer => exact finishes_done hn hpc hwithin

theorem waiter_completes_second : ∃ s s' : WaitingState, Steps.Reach (waiting 5).next WaitingInitial s ∧
    s.threads.map (fun w => (w.client.pc, w.polls)) = [(.proxy, 1), (.check 0, 1)] ∧
    Steps.ReachWhen (waiting 5).next (· = s) (Alone 1) s' ∧
    ∃ w answer, s'.threads[1]? = some w ∧ w.client.pc = .done answer := by
  obtain ⟨s, hs, hpcs⟩ := secondWaits_run
  have hlen : s.threads.length = 2 := by simpa using congrArg List.length hpcs
  obtain ⟨s', w', answer, hreach, hget, hdone, -⟩ :=
    waiter_completes (by decide) hs (List.getElem?_eq_getElem (show 1 < s.threads.length by omega))
  exact ⟨s, s', hs, hpcs, hreach, w', answer, hget, hdone⟩

end Chproxy.Proxy
