/-
Where the answers of `serveFromCache` come from. The requests of `Concurrent` run on a cache and a registry on
which every operation may fail at any time: `serveFromCache` logs the error and goes on. A `Put` that fails may
leave the entry as it was, no entry, or an entry that is cut short.

Whatever fails, and however the requests interleave, a client is never answered with anything but what a client
with the same key was answered, or with what the cache held at the start.
-/
import Chproxy.Proxy.Disconnect
import Chproxy.Proxy.HitMiss

namespace Chproxy.Proxy

open Utils Cache Pool

/-! ## Failures -/

/-- The operations that fail: `Get`, `Status`, `Create`, and `Complete` or `Fail`. -/
inductive Fault
  | get
  | status
  | create
  | resolve
  deriving DecidableEq, Repr

/-- Where a request goes on after an operation has failed. -/
def Client.onError (t : Client) : Fault → Option Client
  | .get =>
    match t.pc with
    | .get => some (t.goto .enter)
    | .getAgain => some (t.goto .newTmp)
    | _ => none
  | .status =>
    match t.pc with
    | .status _ => some (t.goto .newTmp)
    | _ => none
  | .create =>
    match t.pc with
    | .create => some (t.goto .proxy)
    | _ => none
  | .resolve =>
    match t.pc with
    | .calls (.complete :: left) => some (t.goto (.calls left))
    | .calls (.fail _ :: left) => some (t.goto (.calls left))
    | _ => none

def faulty (graceTime : Int) : Program Shared Client Arrival (Choice ⊕ Fault) Event where
  spawn a := { key := a.key, settings := a.settings, srw := a.srw }
  step h t c :=
    match c with
    | .inl c => step graceTime h t c
    | .inr f => (t.onError f).map (h, ·)
  env := environment

abbrev FaultyAction := Act Arrival (Choice ⊕ Fault) Event

/-- What a failed `Put` leaves: nothing, the entry that was there, or a part of the new one. -/
def ProperChoice (h : Shared) (t : Client) : Choice ⊕ Fault → Prop
  | .inl (.putError stored) => ∀ data metadata left, t.pc = .calls (.put data metadata :: left) →
      stored = none ∨ stored = h.cached t.key ∨ ∃ part, part <+: data ∧ stored = some (part, metadata)
  | _ => True

def Proper (s : State) (a : FaultyAction) (_ : State) : Prop :=
  match a with
  | .spawn a => a.srw.Fresh
  | .step n c => ∀ t, s.threads[n]? = some t → ProperChoice s.shared t c
  | .env _ => True

/-- The entry is not longer than it says, and says an `int64`. -/
def Sized (data : Bytes) (metadata : ContentMetadata) : Prop :=
  ∃ n : Nat, metadata.length = n ∧ data.length ≤ n ∧ n < 2 ^ 63

/-- The cache holds `before`, the registry nothing. -/
structure Started (before : String → Option (Bytes × ContentMetadata)) (s : State) : Prop where
  threads : s.threads = []
  registry : ∀ k, s.shared.registry.pendingEntries k = none
  cached : s.shared.cached = before
  sized : ∀ k data metadata, before k = some (data, metadata) → Sized data metadata

/-! ## Where something comes from -/

/-- What the client of a request has received. -/
def Client.seen (t : Client) : Seen := t.srw.conn.finish

/-- Not answered yet. -/
@[simp] def Pc.early : Pc → Bool
  | .calls _ | .done _ => false
  | _ => true

/-- Answered by its own execution. -/
@[simp] def Pc.executed : Pc → Bool
  | .calls _ | .done .proxied => true
  | _ => false

/-- The execution ended on a live context with these data in the temporary file, which are the bodies of its
attempts, and the client was sent the data, or an error when the temporary file could not be read again. -/
structure Client.Delivered (t : Client) (data : Bytes) : Prop where
  executed : t.pc.executed = true
  execution : ∃ e, t.execution = some e ∧ e.last.ctxErr = none ∧ e.last.attempt.status = 200 ∧ e.tmp.file = data ∧
    data = e.made.flatMap Attempt.copied
  seen : (t.seen.status = 200 ∧ t.seen.body = data) ∨ t.seen.status = 500

/-- The execution ended with a status that fails the transaction, for this reason. -/
structure Client.FailedWith (t : Client) (reason : Bytes) : Prop where
  executed : t.pc.executed = true
  execution : ∃ e, t.execution = some e ∧ reason = errReason t.settings e.io e.tmp ∧ ¬Completing e.tmp.code ∧
    e.tmp.code = if e.last.ctxErr = some .deadlineExceeded then 504 else e.last.attempt.status

/-- An entry comes from the cache at the start, or it is (a part of) what a client with the key was sent. -/
def Traced (before : String → Option (Bytes × ContentMetadata)) (threads : List Client) (k : String) (data : Bytes)
    (metadata : ContentMetadata) : Prop :=
  before k = some (data, metadata) ∨
  ∃ t ∈ threads, t.key = k ∧ ∃ whole, data <+: whole ∧ metadata.length = whole.length ∧ t.Delivered whole

def FailedBy (threads : List Client) (k : String) (reason : Bytes) : Prop :=
  ∃ t ∈ threads, t.key = k ∧ t.FailedWith reason

/-! ## What an execution leaves to be done -/

/-- What is put is what the client was sent. -/
theorem serveMiss_put {st : Settings} {rounds : List Round} {timeoutText : Bytes} {io : TmpIO} {srw : Srw}
    {served : Served} (h : serveMiss st rounds timeoutText io srw = some served) (hfresh : srw.Fresh) {data : Bytes}
    {metadata : ContentMetadata} (hput : CacheCall.put data metadata ∈ served.calls) :
    (∃ e, execution st rounds timeoutText io srw = some e ∧ e.last.ctxErr = none ∧ e.last.attempt.status = 200 ∧
      e.tmp.file = data ∧ data = e.made.flatMap Attempt.copied) ∧
    metadata.length = data.length ∧ data.length < 2 ^ 63 ∧
    ((served.srw.conn.finish.status = 200 ∧ served.srw.conn.finish.body = data) ∨
      served.srw.conn.finish.status = 500) := by
  obtain ⟨e, srw', he, -, hsound, rfl, hquiet⟩ := serveMiss_execution h
  obtain ⟨hlength, hreader, h200, hcanceled, hfits, rfl, rfl⟩ := put_mem_serveCaptured.1 hput
  have hctx : e.last.ctxErr = none := by simpa using hcanceled
  have hstatus : e.last.attempt.status = 200 := by
    have hcode := hsound.code
    rw [if_neg (by rw [hctx]; simp), h200] at hcode
    exact hcode.symm
  -- 200 was captured, so nothing has been sent to the client itself
  have hquiet : srw'.Quiet := by
    apply hquiet hfresh.toQuiet
    intro _ h502
    rw [hstatus] at h502
    cases h502
  have hsize : e.tmp.file.length < 2 ^ 63 := by
    have := st.maxPayloadSize.toInt64.toInt_lt
    omega
  refine ⟨⟨e, he, hctx, hstatus, rfl, hsound.file (by rw [hctx]; simp)⟩, rfl, hsize, ?_⟩
  have hserved : (serveCaptured st io srw' e.tmp e.last.ctxErr.isSome).srw =
      srw'.resetAndRespond e.tmp io.expiration .miss io := by
    have hmeta : ¬ e.tmp.metadata.length > st.maxPayloadSize.toInt64.toInt := Int.not_lt.2 hfits
    simp [serveCaptured, hlength, hreader, h200, hmeta, hctx]
  rw [hserved]
  -- the file is read once more for the client: if it cannot be rewound, the answer is an error
  cases hreset : io.resetErr with
  | some err =>
    right
    simp only [Srw.resetAndRespond, hreset]
    exact status_respondWith hquiet err
  | none =>
    left
    obtain ⟨h, hok, hfinish, -⟩ := respond_okay hquiet hsize e.tmp.contentType e.tmp.contentEncoding io.expiration .miss
    simp only [Srw.resetAndRespond, hreset, Srw.respondOr500, h200, Tmp.metadata]
    rw [hok, if_pos rfl, hfinish]
    exact ⟨rfl, rfl⟩

theorem serveMiss_fail {st : Settings} {rounds : List Round} {timeoutText : Bytes} {io : TmpIO} {srw : Srw}
    {served : Served} (h : serveMiss st rounds timeoutText io srw = some served) {reason : Bytes}
    (hfail : CacheCall.fail reason ∈ served.calls) :
    ∃ e, execution st rounds timeoutText io srw = some e ∧ reason = errReason st e.io e.tmp ∧ ¬Completing e.tmp.code ∧
      e.tmp.code = if e.last.ctxErr = some .deadlineExceeded then 504 else e.last.attempt.status := by
  obtain ⟨e, srw', he, rfl, hsound, rfl, -⟩ := serveMiss_execution h
  unfold serveCaptured at hfail
  split at hfail
  · cases hfail
  · cases hfail
  · split at hfail
    · obtain ⟨hnot, -, hreason⟩ := completeTransaction_eq_fail.1 (List.mem_singleton.1 hfail).symm
      exact ⟨e, he, hreason, hnot, hsound.code⟩
    · split at hfail
      · simp at hfail
      · simp at hfail

/-! ## What is sent -/

/-- A hit sends the entry, under the length that the entry says. -/
theorem hit_sends {srw : Srw} (hfresh : srw.Fresh) {data : Bytes} {metadata : ContentMetadata}
    (hsized : Sized data metadata) (ttl : Int) {seen : Seen}
    (hseen : seen = (srw.respondWithData data metadata ttl .hit 200).1.conn.finish) :
    seen.status = 200 ∧ seen.body = data ∧ seen.header.values "Content-Length" = [Decimal.ofInt metadata.length] := by
  obtain ⟨n, hn, hle, hlt⟩ := hsized
  let h := respondHeader srw.conn.header metadata ttl .hit
  let rw' := (srw.setHeader h).writeHeader 200
  have hquiet : rw'.Quiet := hfresh.toQuiet.respond h 200
  have hvalues : h.values "Content-Length" = [Decimal.ofInt metadata.length] := respondHeader_contentLength ..
  -- the length of the metadata is declared, and bounds what can be written
  have hdeclared : declaredLength (rw'.conn.header.get "Content-Length") = some n := by
    show declaredLength ((h.values "Content-Length").headD []) = some n
    rw [hvalues, hn]
    exact declaredLength_ofNat hlt
  have hsent : rw'.conn.sentHeader = h := Conn.sentHeader_of_declared hdeclared
  have hfinish : seen = ⟨200, h, data⟩ := by
    rw [hseen]
    unfold Srw.respondWithData
    by_cases hd : data = []
    · simp only [hd, if_true]
      show rw'.conn.finish = _
      rw [Conn.finish_of_none hquiet.wire, hquiet.body, hsent]
    · simp only [hd, if_false]
      have hlimit : ∀ m, declaredLength (rw'.conn.header.get "Content-Length") = some m → data.length ≤ m := by
        intro m hm
        rw [hdeclared] at hm
        cases hm
        exact hle
      have hwrite := Srw.finish_write hquiet hd rfl hlimit
      rw [hsent] at hwrite
      exact hwrite
  rw [hfinish]
  exact ⟨rfl, rfl, hvalues⟩

/-- `respondWith` sends the text as it is. -/
theorem error_sends {srw : Srw} (hfresh : srw.Fresh) (err : Bytes) {seen : Seen}
    (hseen : seen = (srw.respondWith err 500).conn.finish) : seen.status = 500 ∧ seen.body = err ++ [10] := by
  have hquiet : (srw.writeHeader 500).Quiet := hfresh.toQuiet.respond srw.conn.header 500
  have hlimit : ∀ n, declaredLength ((srw.writeHeader 500).conn.header.get "Content-Length") = some n →
      (err ++ [10]).length ≤ n := by
    intro n hn
    have hnone : (srw.writeHeader 500).conn.header.get "Content-Length" = [] := by
      show (srw.conn.header.values "Content-Length").headD [] = []
      rw [hfresh.contentLength]
      rfl
    rw [hnone] at hn
    cases hn
  have hwrite := Srw.finish_write hquiet (b := err ++ [10]) (by simp) rfl hlimit
  rw [hseen, Srw.respondWith, hwrite]
  exact ⟨rfl, rfl⟩

/-! ## The invariant -/

/-- What a request may be about to put or to report, and what it may have been answered. -/
structure Client.Sound (before : String → Option (Bytes × ContentMetadata)) (threads : List Client) (t : Client) :
    Prop where
  fresh : t.pc.early = true → t.srw.Fresh
  put : ∀ left data metadata, t.pc = .calls left → CacheCall.put data metadata ∈ left →
    metadata.length = data.length ∧ data.length < 2 ^ 63 ∧ t.Delivered data
  fail : ∀ left reason, t.pc = .calls left → CacheCall.fail reason ∈ left → t.FailedWith reason
  hit : t.pc = .done .hit → ∃ data metadata, t.seen.status = 200 ∧ t.seen.body = data ∧
    t.seen.header.values "Content-Length" = [Decimal.ofInt metadata.length] ∧ Traced before threads t.key data metadata
  failure : ∀ reason cause, t.pc = .done (.concurrentFailed reason cause) →
    t.seen.status = 500 ∧ t.seen.body = reason ++ [10] ∧ FailedBy threads t.key reason

structure Shared.Sound (before : String → Option (Bytes × ContentMetadata)) (threads : List Client) (h : Shared) :
    Prop where
  cached : ∀ k data metadata, h.cached k = some (data, metadata) →
    Sized data metadata ∧ Traced before threads k data metadata
  failed : ∀ k e, h.registry.pendingEntries k = some e → e.state = .failed → FailedBy threads k e.failedReason

variable {before : String → Option (Bytes × ContentMetadata)} {threads threads' : List Client} {t t' : Client}
  {h h' : Shared}

/-- Before it is answered a request has nothing to show but its writer. -/
theorem Client.Sound.of_early (hearly : t.pc.early = true) (hfresh : t.srw.Fresh) : t.Sound before threads where
  fresh _ := hfresh
  put left data metadata hpc := by rw [hpc] at hearly; cases hearly
  fail left reason hpc := by rw [hpc] at hearly; cases hearly
  hit hpc := by rw [hpc] at hearly; cases hearly
  failure reason cause hpc := by rw [hpc] at hearly; cases hearly

/-- The request has gone on after its execution. -/
structure Client.Later (t t' : Client) : Prop where
  key : t'.key = t.key
  settings : t'.settings = t.settings
  srw : t'.srw = t.srw
  execution : t'.execution = t.execution
  executed : t'.pc.executed = true

theorem Client.Delivered.later {data : Bytes} (h : t.Delivered data) (hl : t.Later t') : t'.Delivered data where
  executed := hl.executed
  execution := by
    rw [hl.execution]
    exact h.execution
  seen := by
    unfold Client.seen
    rw [hl.srw]
    exact h.seen

theorem Client.FailedWith.later {reason : Bytes} (h : t.FailedWith reason) (hl : t.Later t') :
    t'.FailedWith reason where
  executed := hl.executed
  execution := by
    rw [hl.settings, hl.execution]
    exact h.execution

/-- Every request that was executed is still there. -/
def Keeps (threads threads' : List Client) : Prop :=
  ∀ t ∈ threads, t.pc.executed = true → ∃ t' ∈ threads', t' = t ∨ t.Later t'

theorem Traced.mono (hk : Keeps threads threads') {k : String} {data : Bytes} {metadata : ContentMetadata}
    (h : Traced before threads k data metadata) : Traced before threads' k data metadata := by
  rcases h with h | ⟨t, ht, hkey, whole, hpart, hlength, hd⟩
  · exact .inl h
  · obtain ⟨t', ht', rfl | hl⟩ := hk t ht hd.executed
    · exact .inr ⟨t', ht', hkey, whole, hpart, hlength, hd⟩
    · exact .inr ⟨t', ht', hl.key.trans hkey, whole, hpart, hlength, hd.later hl⟩

theorem FailedBy.mono (hk : Keeps threads threads') {k : String} {reason : Bytes} (h : FailedBy threads k reason) :
    FailedBy threads' k reason := by
  obtain ⟨t, ht, hkey, hf⟩ := h
  obtain ⟨t', ht', rfl | hl⟩ := hk t ht hf.executed
  · exact ⟨t', ht', hkey, hf⟩
  · exact ⟨t', ht', hl.key.trans hkey, hf.later hl⟩

theorem Client.Sound.mono (hk : Keeps threads threads') (h : t.Sound before threads) : t.Sound before threads' where
  fresh := h.fresh
  put := h.put
  fail := h.fail
  hit hpc := by
    obtain ⟨data, metadata, hstatus, hbody, hlength, htraced⟩ := h.hit hpc
    exact ⟨data, metadata, hstatus, hbody, hlength, htraced.mono hk⟩
  failure reason cause hpc := by
    obtain ⟨hstatus, hbody, hfailed⟩ := h.failure reason cause hpc
    exact ⟨hstatus, hbody, hfailed.mono hk⟩

theorem Shared.Sound.mono (hk : Keeps threads threads') (hs : h.Sound before threads) : h.Sound before threads' where
  cached k data metadata hc := ⟨(hs.cached k data metadata hc).1, (hs.cached k data metadata hc).2.mono hk⟩
  failed k e he hf := (hs.failed k e he hf).mono hk

/-! ## Steps of a request -/

theorem Client.Sound.serveCached (hs : h.Sound before threads) (ht : t.Sound before threads)
    (hearly : t.pc.early = true) (ttl : Int) {miss : Pc} (hmiss : miss.early = true) :
    (t.serveCached h ttl miss).Sound before threads := by
  have hfresh := ht.fresh hearly
  unfold Client.serveCached
  split
  · rename_i data metadata hc
    obtain ⟨hsized, htraced⟩ := hs.cached _ _ _ hc
    refine ⟨by simp, by simp, by simp, fun _ => ⟨data, metadata, ?_⟩, by simp⟩
    obtain ⟨hstatus, hbody, hlength⟩ := hit_sends hfresh hsized ttl rfl
    exact ⟨hstatus, hbody, hlength, htraced⟩
  · exact .of_early hmiss hfresh

theorem Client.Sound.onStatus (hs : h.Sound before threads) (ht : t.Sound before threads)
    (hearly : t.pc.early = true) (startTime : Int) : (t.onStatus h startTime).Sound before threads := by
  have hfresh := ht.fresh hearly
  unfold Client.onStatus
  split
  · exact .of_early rfl hfresh
  · exact .of_early rfl hfresh
  · rename_i reason hstatus
    refine ⟨by simp, by simp, by simp, by simp, ?_⟩
    rintro reason' cause hpc
    cases hpc
    -- the reason of another request is sent to this client
    obtain ⟨h500, hbody⟩ := error_sends hfresh reason rfl
    refine ⟨h500, hbody, ?_⟩
    unfold InMemoryTransactionRegistry.status at hstatus
    split at hstatus
    · rename_i e he
      have hreason : e.failedReason = reason := congrArg TransactionStatus.failReason hstatus
      rw [← hreason]
      exact hs.failed _ e he (congrArg TransactionStatus.state hstatus)
    · cases hstatus
  · exact .of_early rfl hfresh

theorem Client.Sound.execute (ht : t.Sound before threads) (hearly : t.pc.early = true) {rounds : List Round}
    {timeoutText : Bytes} {io : TmpIO} (hex : t.execute rounds timeoutText io = some t') : t'.Sound before threads := by
  obtain ⟨served, hserved, rfl⟩ := Option.map_eq_some_iff.1 hex
  refine ⟨by simp, ?_, ?_, by simp, by simp⟩
  · rintro left data metadata hpc hput
    cases hpc
    obtain ⟨hexecution, hlength, hsize, hseen⟩ := serveMiss_put hserved (ht.fresh hearly) hput
    exact ⟨hlength, hsize, rfl, hexecution, hseen⟩
  · rintro left reason hpc hfail
    cases hpc
    exact ⟨rfl, serveMiss_fail hserved hfail⟩

/-- The steps after the execution change nothing but what is left to do. -/
theorem Client.Sound.goto_calls (ht : t.Sound before threads) {call : CacheCall} {left : List CacheCall}
    (hpc : t.pc = .calls (call :: left)) : (t.goto (.calls left)).Sound before threads := by
  have hlater : t.Later (t.goto (.calls left)) := ⟨rfl, rfl, rfl, rfl, rfl⟩
  refine ⟨by simp, ?_, ?_, by simp, by simp⟩
  · rintro left' data metadata hpc' hput
    cases hpc'
    obtain ⟨hlength, hsize, hd⟩ := ht.put _ data metadata hpc (List.mem_cons_of_mem _ hput)
    exact ⟨hlength, hsize, hd.later hlater⟩
  · rintro left' reason hpc' hfail
    cases hpc'
    exact (ht.fail _ reason hpc (List.mem_cons_of_mem _ hfail)).later hlater

/-- A new entry for a key. -/
theorem Shared.Sound.store (hs : h.Sound before threads) {k : String} {stored : Option (Bytes × ContentMetadata)}
    (hstored : ∀ data metadata, stored = some (data, metadata) →
      Sized data metadata ∧ Traced before threads k data metadata) :
    Shared.Sound before threads { h with cached := Function.update h.cached k stored } where
  cached j data metadata hc := by
    by_cases hj : j = k
    · subst hj
      exact hstored data metadata (by simpa using hc)
    · exact hs.cached j data metadata (by simpa [hj] using hc)
  failed := hs.failed

/-- A new record for a key. -/
theorem Shared.Sound.record (hs : h.Sound before threads) {k : String} {entry : PendingEntry}
    (hentry : entry.state = .failed → FailedBy threads k entry.failedReason)
    (cause : String → Option CtxErr) :
    Shared.Sound before threads { h with registry := h.registry.insert k entry, cause := cause } where
  cached := hs.cached
  failed j e he hf := by
    by_cases hj : j = k
    · subst hj
      simp only [InMemoryTransactionRegistry.insert_self, Option.some.injEq] at he
      subst he
      exact hentry hf
    · simp only [InMemoryTransactionRegistry.insert_of_ne _ hj] at he
      exact hs.failed j e he hf

theorem Shared.Sound.create (hs : h.Sound before threads) (k : String) :
    Shared.Sound before threads { h with registry := h.registry.create h.now k } := by
  unfold InMemoryTransactionRegistry.create
  split
  · exact hs
  · exact hs.record (by simp) h.cause

theorem Client.Sound.put_stored (ht : t.Sound before threads) (hmem : t ∈ threads) {data part : Bytes}
    {metadata : ContentMetadata} {left : List CacheCall} (hpc : t.pc = .calls (.put data metadata :: left))
    (hpart : part <+: data) : Sized part metadata ∧ Traced before threads t.key part metadata := by
  obtain ⟨hlength, hsize, hd⟩ := ht.put _ data metadata hpc List.mem_cons_self
  exact ⟨⟨data.length, hlength, hpart.length_le, hsize⟩, .inr ⟨t, hmem, rfl, data, hpart, hlength, hd⟩⟩

theorem Shared.Sound.perform (hs : h.Sound before threads) (ht : t.Sound before threads) (hmem : t ∈ threads)
    {call : CacheCall} {left : List CacheCall} (hpc : t.pc = .calls (call :: left)) :
    (h.perform t.key t.ended call).Sound before threads := by
  cases call with
  | put data metadata =>
    apply hs.store
    rintro data' metadata' ⟨⟩
    exact ht.put_stored hmem hpc (List.prefix_refl data)
  | complete => exact hs.record (by simp) _
  | fail reason => exact hs.record (fun _ => ⟨t, hmem, rfl, ht.fail _ reason hpc List.mem_cons_self⟩) _

theorem Move.sound {graceTime : Int} {c : Choice} (hm : Move graceTime h t c h' t') (hmem : t ∈ threads)
    (hs : h.Sound before threads) (ht : t.Sound before threads) (hproper : ProperChoice h t (.inl c)) :
    h'.Sound before threads ∧ t'.Sound before threads := by
  have hearly : ∀ {pc : Pc}, t.pc = pc → pc.early = true → t.pc.early = true := fun hpc he => hpc ▸ he
  cases hm with
  | get hpc => exact ⟨hs, ht.serveCached hs (hearly hpc rfl) _ rfl⟩
  | enter hpc => exact ⟨hs, .of_early rfl (ht.fresh (hearly hpc rfl))⟩
  | check hpc =>
    refine ⟨hs, .of_early ?_ (ht.fresh (hearly hpc rfl))⟩
    rw [Client.pc_goto]
    split <;> rfl
  | status hpc => exact ⟨hs, ht.onStatus hs (hearly hpc rfl) _⟩
  | getAgain hpc => exact ⟨hs, ht.serveCached hs (hearly hpc rfl) _ rfl⟩
  | newTmp hpc => exact ⟨hs, .of_early rfl (ht.fresh (hearly hpc rfl))⟩
  | noTmp hpc => exact ⟨hs, ⟨by simp, by simp, by simp, by simp, by simp⟩⟩
  | create hpc => exact ⟨hs.create _, .of_early rfl (ht.fresh (hearly hpc rfl))⟩
  | execute hpc hex => exact ⟨hs, ht.execute (hearly hpc rfl) hex⟩
  | putError hpc =>
    refine ⟨hs.store ?_, ht.goto_calls hpc⟩
    intro data' metadata' hstored
    -- a `Put` that fails leaves nothing, what was there, or a part of what it was given
    rcases hproper _ _ _ hpc with hnone | hold | ⟨part, hpart, hnew⟩
    · rw [hnone] at hstored
      cases hstored
    · exact hs.cached _ _ _ (hold.symm.trans hstored)
    · rw [hnew] at hstored
      cases hstored
      exact ht.put_stored hmem hpc hpart
  | perform hpc => exact ⟨hs.perform ht hmem hpc, ht.goto_calls hpc⟩
  | finish hpc => exact ⟨hs, ⟨by simp, by simp, by simp, by simp, by simp⟩⟩

theorem onError_cases {f : Fault} (he : t.onError f = some t') :
    (∃ pc, t.pc.early = true ∧ pc.early = true ∧ t' = t.goto pc) ∨
    ∃ call left, t.pc = .calls (call :: left) ∧ t' = t.goto (.calls left) := by
  cases f with
  | get | status | create =>
    left
    simp only [Client.onError] at he
    split at he <;> cases he <;> rename_i hpc
    all_goals exact ⟨_, by rw [hpc]; rfl, rfl, rfl⟩
  | resolve =>
    right
    simp only [Client.onError] at he
    split at he <;> cases he <;> rename_i hpc
    all_goals exact ⟨_, _, hpc, rfl⟩

theorem Client.Sound.onError (ht : t.Sound before threads) {f : Fault} (he : t.onError f = some t') :
    t'.Sound before threads := by
  obtain ⟨pc, hearly, hpc, rfl⟩ | ⟨call, left, hpc, rfl⟩ := onError_cases he
  · exact .of_early hpc (ht.fresh hearly)
  · exact ht.goto_calls hpc

/-- A request that was executed only goes on. -/
theorem Move.later {graceTime : Int} {c : Choice} (hm : Move graceTime h t c h' t') (hx : t.pc.executed = true) :
    t.Later t' := by
  cases hm with
  | putError hpc => exact ⟨rfl, rfl, rfl, rfl, rfl⟩
  | perform hpc => exact ⟨rfl, rfl, rfl, rfl, rfl⟩
  | finish hpc => exact ⟨rfl, rfl, rfl, rfl, rfl⟩
  | _ hpc => rw [hpc] at hx; cases hx

theorem later_onError {f : Fault} (he : t.onError f = some t') (hx : t.pc.executed = true) : t.Later t' := by
  obtain ⟨pc, hearly, -, -⟩ | ⟨call, left, -, rfl⟩ := onError_cases he
  · cases hpc : t.pc <;> simp [hpc] at hearly hx
  · exact ⟨rfl, rfl, rfl, rfl, rfl⟩

/-! ## Runs -/

structure Inv (before : String → Option (Bytes × ContentMetadata)) (s : State) : Prop where
  shared : s.shared.Sound before s.threads
  clients : ∀ t ∈ s.threads, t.Sound before s.threads

theorem Inv.clientStep {graceTime : Int} {s : State} {c : Choice ⊕ Fault} {n : Nat} (hinv : Inv before s)
    (hn : s.threads[n]? = some t) (hst : (faulty graceTime).step s.shared t c = some (h', t'))
    (hproper : ProperChoice s.shared t c) : Inv before ⟨h', s.threads.set n t'⟩ := by
  have hmem := List.mem_of_getElem? hn
  have ht := hinv.clients t hmem
  obtain ⟨hshared, ht', hlater⟩ : h'.Sound before s.threads ∧ t'.Sound before s.threads ∧
      (t.pc.executed = true → t.Later t') := by
    cases c with
    | inl c =>
      have hm := step_cases hst
      obtain ⟨hs', ht'⟩ := hm.sound hmem hinv.shared ht hproper
      exact ⟨hs', ht', hm.later⟩
    | inr f =>
      obtain ⟨t'', he, heq⟩ := Option.map_eq_some_iff.1 hst
      cases heq
      exact ⟨hinv.shared, ht.onError he, later_onError he⟩
  -- the clients that what is cached was traced to are still there
  have hkeeps : Keeps s.threads (s.threads.set n t') := by
    intro u hu hx
    by_cases hut : u = t
    · subst hut
      exact ⟨t', mem_set_self hn, .inr (hlater hx)⟩
    · exact ⟨u, mem_set_of_ne hu hn hut, .inl rfl⟩
  exact ⟨hshared.mono hkeeps, forall_mem_set (fun u hu => (hinv.clients u hu).mono hkeeps) (ht'.mono hkeeps)⟩

theorem Shared.Sound.environment (hs : h.Sound before threads) {e : Event} (he : environment h e = some h') :
    h'.Sound before threads := by
  cases e with
  | tick d =>
    cases he
    exact ⟨hs.cached, hs.failed⟩
  | clean currentTime =>
    dsimp only [Proxy.environment] at he
    split at he
    · cases he
      refine ⟨hs.cached, fun k e he hf => ?_⟩
      exact hs.failed k e (Option.filter_eq_some_iff.1 he).1 hf
    · cases he
  | evict k =>
    cases he
    exact hs.store (by simp)

theorem Inv.next {graceTime : Int} {s s' : State} {a : FaultyAction} (hinv : Inv before s)
    (hn : (faulty graceTime).next s a = some s') (hproper : Proper s a s') : Inv before s' := by
  obtain ⟨i, rfl, rfl⟩ | ⟨n, c, t, h', t', rfl, ht, hst, rfl⟩ | ⟨e, h', rfl, he, rfl⟩ := Program.next_cases hn
  · have hkeeps : Keeps s.threads (s.threads ++ [(faulty graceTime).spawn i]) :=
      fun u hu _ => ⟨u, List.mem_append_left _ hu, .inl rfl⟩
    exact ⟨hinv.shared.mono hkeeps,
      forall_mem_concat (fun u hu => (hinv.clients u hu).mono hkeeps) (.of_early rfl hproper)⟩
  · exact hinv.clientStep ht hst (hproper t ht)
  · exact ⟨hinv.shared.environment he, hinv.clients⟩

theorem inv_reach {graceTime : Int} {s : State}
    (h : Steps.ReachWhen (faulty graceTime).next (Started before) Proper s) :
    Inv before s := by
  refine h.invariant (fun s hs => ⟨⟨fun k data metadata hc => ?_, fun k e he => ?_⟩, ?_⟩)
    fun s a s' hinv hn hproper => hinv.next hn hproper
  · rw [hs.cached] at hc
    exact ⟨hs.sized k data metadata hc, .inl hc⟩
  · rw [hs.registry k] at he
    cases he
  · rw [hs.threads]
    simp

end Chproxy.Proxy
