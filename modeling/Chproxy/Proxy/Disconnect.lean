/-
A client that closes its connection, and the others that wait for its query: when `completeTransaction`
fails the transaction of an execution that ended with `context.Canceled`, and who is answered with it.
-/
import Chproxy.Proxy.Concurrent

namespace Chproxy.Proxy

open Utils Cache

/-! ## When a canceled execution fails its transaction -/

/-- The statuses for which `completeTransaction` completes whatever the reason. -/
def Completing (status : Int) : Prop := status < 300 ∨ recoverable status = true

instance (status : Int) : Decidable (Completing status) := inferInstanceAs (Decidable (_ ∨ _))

theorem errReason_ne_nil (st : Settings) (io : TmpIO) (t : Tmp) : errReason st io t ≠ [] := by
  unfold errReason
  split
  · decide
  · simp [failedTransactionPrefix, show bytes " " ≠ [] by decide]

theorem completeTransaction_eq_fail {status : Int} {reason reason' : Bytes} :
    completeTransaction status reason = .fail reason' ↔ ¬Completing status ∧ reason ≠ [] ∧ reason' = reason := by
  unfold completeTransaction Completing
  split
  · rename_i h; simp; grind
  · rename_i h
    split
    · simp_all
    · simp only [CacheCall.fail.injEq]; grind

/-- A canceled response fails its transaction unless the temporary file fails or its status completes. -/
theorem fail_mem_serveCaptured {st : Settings} {io : TmpIO} {srw : Srw} {t : Tmp} :
    (∀ reason, CacheCall.fail reason ∉ (serveCaptured st io srw t true).calls) ↔
      io.lengthErr ≠ none ∨ io.readerErr ≠ none ∨ Completing t.code := by
  unfold serveCaptured
  split
  · rename_i h; simp [h]
  · rename_i h; simp [h]
  · rename_i h1 h2
    simp only [or_true, if_true, List.mem_singleton, h1, h2, ne_eq, not_true_eq_false, false_or]
    constructor
    · intro h
      by_contra hc
      exact h _ (completeTransaction_eq_fail.2 ⟨hc, errReason_ne_nil st io t, rfl⟩).symm
    · intro hc reason h
      exact (completeTransaction_eq_fail.1 h.symm).1 hc

/-- The status captured when the client left lets the transaction be completed, or the temporary file
fails and the transaction is left alone. -/
def Harmless (io : TmpIO) (r : Round) : Prop :=
  io.lengthErr ≠ none ∨ io.readerErr ≠ none ∨ Completing r.attempt.status

theorem fail_not_mem_iff {st : Settings} {rounds : List Round} {timeoutText : Bytes} {io : TmpIO} {srw : Srw}
    {served : Served} {r : Round} (h : serveMiss st rounds timeoutText io srw = some served)
    (hr : lastRound st.retryNumber st.sessionId 0 rounds = some r) (hctx : r.ctxErr = some .canceled) :
    (∀ reason, CacheCall.fail reason ∉ served.calls) ↔ Harmless io r := by
  obtain ⟨r', srw', t, hr', rfl, hcode⟩ := serveMiss_last h
  cases hr.symm.trans hr'
  rw [hctx, if_neg (by simp)] at hcode
  rw [hctx, Harmless, ← hcode]
  exact fail_mem_serveCaptured

/-! ## Runs -/

/-- Every execution that ends with `context.Canceled` is harmless. -/
def HarmlessChoice (t : Client) : Choice → Prop
  | .execute rounds _ io => ∀ r ∈ lastRound t.settings.retryNumber t.settings.sessionId 0 rounds,
      r.ctxErr = some .canceled → Harmless io r
  | _ => True

def HarmlessAction (s : State) : Action → Prop
  | .step n c => ∀ t ∈ s.threads[n]?, HarmlessChoice t c
  | _ => True

instance (io : TmpIO) (r : Round) : Decidable (Harmless io r) := inferInstanceAs (Decidable (_ ∨ _))

instance (t : Client) : (c : Choice) → Decidable (HarmlessChoice t c)
  | .execute _ _ _ => Option.decidableForallMem _
  | .go | .get _ | .noTmp _ | .putError _ => instDecidableTrue

instance (s : State) : (a : Action) → Decidable (HarmlessAction s a)
  | .step _ _ => Option.decidableForallMem _
  | .spawn _ | .env _ => instDecidableTrue

/-- No transaction was failed by an execution that was canceled. -/
def Shared.Spared (h : Shared) : Prop :=
  ∀ k e, h.registry.pendingEntries k = some e → e.state = .failed → h.cause k ≠ some .canceled

/-- A request that will not fail its transaction when canceled, and was not failed by one that was. -/
structure Client.Spared (t : Client) : Prop where
  calls : t.ended = some .canceled → ∀ left, t.pc = .calls left → ∀ reason, CacheCall.fail reason ∉ left
  answer : ∀ reason cause, t.pc = .done (.concurrentFailed reason cause) → cause ≠ some .canceled

theorem Client.Spared.of_pc {t : Client} (h1 : ∀ left, t.pc ≠ .calls left)
    (h2 : ∀ reason cause, t.pc ≠ .done (.concurrentFailed reason cause)) : t.Spared :=
  ⟨fun _ left h => absurd h (h1 left), fun reason cause h => absurd h (h2 reason cause)⟩

theorem Client.Spared.goto_calls {t : Client} {call : CacheCall} {left : List CacheCall} (h : t.Spared)
    (hpc : t.pc = .calls (call :: left)) : (t.goto (.calls left)).Spared := by
  refine ⟨fun hended left' hleft reason hmem => ?_, fun _ _ h => by cases h⟩
  cases hleft
  exact h.calls hended _ hpc reason (List.mem_cons_of_mem _ hmem)

theorem Client.spared_serveCached (t : Client) (h : Shared) (ttl : Int) {miss : Pc}
    (hmiss : miss = .enter ∨ miss = .newTmp) : (t.serveCached h ttl miss).Spared := by
  apply Client.Spared.of_pc <;> unfold serveCached <;> split <;> rcases hmiss with rfl | rfl <;> simp

theorem Client.spared_onStatus {t : Client} {h : Shared} (hs : h.Spared) (startTime : Int) :
    (t.onStatus h startTime).Spared := by
  unfold onStatus
  split
  · exact .of_pc (by simp) (by simp)
  · exact .of_pc (by simp) (by simp)
  · rename_i reason hstatus
    refine ⟨fun _ left hpc => (nomatch hpc), fun reason' cause hpc => ?_⟩
    cases hpc
    unfold InMemoryTransactionRegistry.status at hstatus
    split at hstatus
    · rename_i e he
      exact hs _ e he (congrArg TransactionStatus.state hstatus)
    · cases hstatus
  · exact .of_pc (by simp) (by simp)

theorem Client.spared_execute {t t' : Client} {rounds : List Round} {timeoutText : Bytes} {io : TmpIO}
    (hc : HarmlessChoice t (.execute rounds timeoutText io)) (h : t.execute rounds timeoutText io = some t') :
    t'.Spared := by
  obtain ⟨served, hserved, rfl⟩ := Option.map_eq_some_iff.1 h
  refine ⟨fun hended left hleft => ?_, fun _ _ h => by cases h⟩
  cases hleft
  obtain ⟨e, he, hctx⟩ := Option.bind_eq_some_iff.1 hended
  have hlast := execution_last he
  exact (fail_not_mem_iff hserved hlast hctx).2 (hc e.last hlast hctx)

/-- The record of a key and its cause are written together. -/
theorem Shared.spared_update {h : Shared} {k : String} {ended : Option CtxErr} {entry : PendingEntry} (hs : h.Spared)
    (hentry : entry.state = .failed → ended ≠ some .canceled) :
    Shared.Spared { h with registry := h.registry.insert k entry, cause := Function.update h.cause k ended } := by
  intro j e he hfailed
  by_cases hj : j = k
  · subst hj
    simp only [InMemoryTransactionRegistry.insert_self, Option.some.injEq] at he
    subst he
    simpa using hentry hfailed
  · simp only [InMemoryTransactionRegistry.insert_of_ne _ hj] at he
    simpa [hj] using hs j e he hfailed

theorem Shared.spared_perform {h : Shared} {k : String} {ended : Option CtxErr} {call : CacheCall} (hs : h.Spared)
    (hcall : ended = some .canceled → ∀ reason, call ≠ .fail reason) : (h.perform k ended call).Spared := by
  cases call with
  | put data metadata => exact hs
  | complete => exact spared_update hs fun hfailed => (nomatch hfailed)
  | fail reason => exact spared_update hs fun _ hended => hcall hended reason rfl

/-- One step of a request. -/
theorem spared_step {graceTime : Int} {h h' : Shared} {t t' : Client} {c : Choice} (hs : h.Spared) (ht : t.Spared)
    (hc : HarmlessChoice t c) (hm : Move graceTime h t c h' t') : h'.Spared ∧ t'.Spared := by
  cases hm with
  | get _ => exact ⟨hs, t.spared_serveCached h _ (.inl rfl)⟩
  | enter _ => exact ⟨hs, .of_pc (by simp) (by simp)⟩
  | check _ => exact ⟨hs, by split <;> exact .of_pc (by simp) (by simp)⟩
  | status _ => exact ⟨hs, Client.spared_onStatus hs _⟩
  | getAgain _ => exact ⟨hs, t.spared_serveCached h _ (.inr rfl)⟩
  | newTmp _ => exact ⟨hs, .of_pc (by simp) (by simp)⟩
  | noTmp _ => exact ⟨hs, .of_pc (by simp) (by simp)⟩
  | create _ =>
    -- `Create` keeps a record that exists, also a failed one
    refine ⟨fun k e he hfailed => ?_, .of_pc (by simp) (by simp)⟩
    by_cases hk : k = t.key
    · subst hk
      cases hp : h.registry.pendingEntries t.key with
      | none =>
        simp only [InMemoryTransactionRegistry.create_of_none hp, Option.some.injEq] at he
        subst he
        cases hfailed
      | some e' =>
        simp only [InMemoryTransactionRegistry.create_of_some hp] at he
        exact hs _ e he hfailed
    · simp only [InMemoryTransactionRegistry.create_of_ne hk] at he
      exact hs k e he hfailed
  | execute _ hex => exact ⟨hs, Client.spared_execute hc hex⟩
  | putError hpc => exact ⟨hs, ht.goto_calls hpc⟩
  | perform hpc =>
    refine ⟨Shared.spared_perform hs fun hended reason hcall => ?_, ht.goto_calls hpc⟩
    exact ht.calls hended _ hpc reason (hcall ▸ List.mem_cons_self)
  | finish _ => exact ⟨hs, .of_pc (by simp) (by simp)⟩

theorem spared_environment {h h' : Shared} {e : Event} (hs : h.Spared) (he : environment h e = some h') :
    h'.Spared := by
  cases e with
  | tick d => cases he; exact hs
  | evict k => cases he; exact hs
  | clean currentTime =>
    simp only [environment] at he
    split at he
    · cases he
      intro k e hk
      exact hs k e (Option.filter_eq_some_iff.1 hk).1
    · cases he

theorem spared_next {graceTime : Int} {s s' : State} {a : Action}
    (h : s.shared.Spared ∧ ∀ t ∈ s.threads, t.Spared) (hn : (program graceTime).next s a = some s')
    (hc : HarmlessAction s a) : s'.shared.Spared ∧ ∀ t ∈ s'.threads, t.Spared := by
  refine Pool.Program.shared_next (I := Shared.Spared) (W := fun _ t => t.Spared) (fun _ => ?_) ?_ ?_ h.1 h.2 hn
  · exact .of_pc (by simp [program]) (by simp [program])
  · rintro n c t h' t' rfl hget hst
    obtain ⟨hs', ht'⟩ := spared_step h.1 (h.2 t (List.mem_of_getElem? hget)) (hc t hget) (step_cases hst)
    exact ⟨hs', ht', fun _ _ hx => hx⟩
  · exact fun e h' _ he => ⟨spared_environment h.1 he, fun _ _ hx => hx⟩

/-- A disconnect of one client and the others. For every execution that ends with `context.Canceled`, its
transaction is not failed exactly when the disconnect is harmless; and in every run whose canceled
executions are all harmless, no transaction is in the failed state because of one and no request is
answered with its failure. -/
theorem disconnect_spares_others_iff (graceTime : Int) :
    (∀ (st : Settings) (rounds : List Round) (timeoutText : Bytes) (io : TmpIO) (srw : Srw) (served : Served)
      (r : Round),
      serveMiss st rounds timeoutText io srw = some served →
      lastRound st.retryNumber st.sessionId 0 rounds = some r → r.ctxErr = some .canceled →
      ((∀ reason, CacheCall.fail reason ∉ served.calls) ↔
        io.lengthErr ≠ none ∨ io.readerErr ≠ none ∨ r.attempt.status < 300 ∨ recoverable r.attempt.status = true)) ∧
    (∀ s, Steps.ReachWhen (program graceTime).next Initial (fun s a _ => HarmlessAction s a) s →
      (∀ k e, s.shared.registry.pendingEntries k = some e → e.state = .failed → s.shared.cause k ≠ some .canceled) ∧
      ∀ t ∈ s.threads, ∀ reason cause, t.pc = .done (.concurrentFailed reason cause) → cause ≠ some .canceled) := by
  refine ⟨fun st rounds timeoutText io srw served r h hr hctx => fail_not_mem_iff h hr hctx, fun s hreach => ?_⟩
  have hinv := hreach.invariant (P := fun s : State => s.shared.Spared ∧ ∀ t ∈ s.threads, t.Spared) ?_
    (fun s a s' h hn hc => spared_next h hn hc)
  · exact ⟨hinv.1, fun t ht => (hinv.2 t ht).answer⟩
  · rintro s ⟨hthreads, hregistry⟩
    refine ⟨fun k e he => ?_, fun t ht => ?_⟩
    · rw [hregistry] at he; cases he
    · rw [hthreads] at ht; cases ht

/-! ## Two requests with one key -/

def quiet : State where
  shared := ⟨⟨fun _ => none, 10, 1⟩, fun _ => none, 0, fun _ => none⟩
  threads := []

theorem quiet_initial : Initial quiet := ⟨rfl, fun _ => rfl⟩

def arrival : Arrival := ⟨"key", smallSettings, freshSrw⟩

/-- The first request creates the transaction, the second waits for it, and the first executes `round`. -/
def firstExecutes (round : Round) : List Action :=
  [.spawn arrival, .spawn arrival, .step 0 (.get 0), .step 0 .go, .step 0 .go, .step 0 .go, .step 0 .go, .step 0 .go,
    .step 1 (.get 0), .step 1 .go, .step 1 .go, .step 1 .go, .step 0 (.execute [round] [] {}), .step 0 .go,
    .step 1 .go, .step 1 .go]

def afterDisconnect (a : Attempt) : State :=
  (Steps.run (program 5).next quiet (firstExecutes ⟨a, some .canceled, true, []⟩)).getD quiet

/-- The first client leaves while a 200 is being sent: the second looks into the cache. -/
theorem disconnect_spares_others_after_headers :
    (∃ t ∈ (afterDisconnect (.response okay)).threads, t.ended = some .canceled) ∧
    (∃ t ∈ (afterDisconnect (.response okay)).threads, t.pc = .getAgain) ∧
    ∀ t ∈ (afterDisconnect (.response okay)).threads, ∀ reason cause, t.pc = .done (.concurrentFailed reason cause) →
      cause ≠ some .canceled := by
  have hreach : Steps.ReachWhen (program 5).next Initial (fun s a _ => HarmlessAction s a)
      (afterDisconnect (.response okay)) :=
    .of_runWhen (fun _ _ _ h => of_decide_eq_true h) (firstExecutes ⟨.response okay, some .canceled, true, []⟩)
      (.init quiet_initial) rfl
  exact ⟨by decide, by decide, ((disconnect_spares_others_iff 5).2 _ hreach).2⟩

/-- The first client leaves before the headers arrive: the second is answered with 500. -/
theorem disconnect_fails_other :
    Steps.Reach (program 5).next Initial (afterDisconnect .failed) ∧
    ∃ t ∈ (afterDisconnect .failed).threads,
      t.pc = .done (.concurrentFailed (bytes "[concurrent query failed] ") (some .canceled)) ∧
      t.srw.conn.finish.status = 500 :=
  ⟨.of_run (firstExecutes ⟨.failed, some .canceled, true, []⟩) (.init quiet_initial) rfl, by decide⟩

end Chproxy.Proxy
