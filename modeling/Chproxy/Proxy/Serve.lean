/-
The part of `serveFromCache` (`proxy.go`) after a miss: `proxyRequest` into the temporary file, and what
is then done with the cache and the transaction: which responses are stored, and how the transaction is
resolved.
-/
import Chproxy.Proxy.Retry

namespace Chproxy.Proxy

open Utils Cache

/-! ## `proxyRequest` -/

/-- The settings read while a request is proxied on the cached path. -/
structure Settings where
  retryNumber : Int
  sessionId : String
  maxErrorReasonSize : Int64
  maxPayloadSize : UInt64

/-- `respondWith(rw, err, status)` on the writer in use. -/
def Writers.respondWith (w : Writers) (err : Bytes) (status : Int) : Writers :=
  ((w.writeHeader status).write (err ++ [10])).1

theorem Writers.respondWith_tmp {w : Writers} {t : Tmp} (ht : w.tmp = some t) (err : Bytes) (status : Int) :
    w.respondWith err status = ⟨w.srw, some ({ t with statusCode := status }.write w.header (err ++ [10]))⟩ := by
  simp [respondWith, writeHeader, write, header, ht]

/-- `proxyRequest`: the writers afterwards, and whether `killQuery` marked the scope as canceled.
`timeoutText` is the error sent at the deadline. -/
def proxyRequest (st : Settings) (rounds : List Round) (timeoutText : Bytes) (w : Writers) :
    Option (Writers × Bool) :=
  (executeWithRetry st.retryNumber st.sessionId 0 rounds w).map fun out =>
    match out.err with
    | none => (out.writers, false)
    | some .canceled => ({ out.writers with srw := out.writers.srw.setStatusCode 499 }, true)
    | some .deadlineExceeded =>
      let w := out.writers.respondWith timeoutText 504
      ({ w with srw := w.srw.setStatusCode 504 }, true)

/-! ## After the response -/

/-- The calls on the cache and its transaction registry. -/
inductive CacheCall
  | put (data : Bytes) (metadata : ContentMetadata)
  | complete
  | fail (reason : Bytes)
  deriving DecidableEq, Repr

def failedTransactionPrefix : Bytes := bytes "[concurrent query failed]"

/-- `clickhouseRecoverableStatusCodes`. -/
def recoverable (statusCode : Int) : Bool := statusCode == 503 || statusCode == 408

def completeTransaction (statusCode : Int) (failReason : Bytes) : CacheCall :=
  if statusCode < 300 ∨ failReason = [] then .complete
  else if recoverable statusCode then .complete
  else .fail failReason

/-- How the operations on the temporary file and the connection fail, if they do: the length, the reader
and the reset with the error sent, the reading of the error text, and the text sent when the response
cannot be sent. `expiration` is what `Put` returns. -/
structure TmpIO where
  lengthErr : Option Bytes := none
  readerErr : Option Bytes := none
  reasonErr : Bool := false
  resetErr : Option Bytes := none
  sendErr : Bytes := []
  expiration : Int := 0

/-- What `serveFromCache` has done on return: the calls on the cache, in order, and the response. -/
structure Served where
  calls : List CacheCall
  srw : Srw

/-- `RespondWithData`, with an error sent when it fails. -/
def Srw.respondOr500 (srw : Srw) (t : Tmp) (ttl : Int) (cacheHit : XCache) (io : TmpIO) : Srw :=
  let res := srw.respondWithData t.file t.metadata ttl cacheHit t.code
  if res.2 then res.1 else res.1.respondWith io.sendErr 500

def Srw.resetAndRespond (srw : Srw) (t : Tmp) (ttl : Int) (cacheHit : XCache) (io : TmpIO) : Srw :=
  match io.resetErr with
  | some err => srw.respondWith err 500
  | none => srw.respondOr500 t ttl cacheHit io

/-- The reason recorded for a response that is not cached. -/
def errReason (st : Settings) (io : TmpIO) (t : Tmp) : Bytes :=
  if t.metadata.length > st.maxErrorReasonSize.toInt then bytes "unknown error reason"
  else failedTransactionPrefix ++ bytes " " ++ (if io.reasonErr then [] else t.file)

/-- `serveFromCache` after `proxyRequest`. -/
def serveCaptured (st : Settings) (io : TmpIO) (srw : Srw) (t : Tmp) (canceled : Bool) : Served :=
  match io.lengthErr, io.readerErr with
  | some err, _ => ⟨[], srw.respondWith err 500⟩
  | none, some err => ⟨[], srw.respondWith err 500⟩
  | none, none =>
    if t.code ≠ 200 ∨ canceled = true then
      -- not cached; the status written back to the temporary writer is not read again
      ⟨[completeTransaction t.code (errReason st io t)], srw.resetAndRespond t 0 .miss io⟩
    -- the bound is compared as an `int64`
    else if t.metadata.length > st.maxPayloadSize.toInt64.toInt then
      ⟨[completeTransaction t.code []], srw.respondOr500 t 0 .na io⟩
    else
      ⟨[.put t.file t.metadata, completeTransaction t.code []], srw.resetAndRespond t io.expiration .miss io⟩

/-- `serveFromCache` from `NewTmpFileResponseWriter` on, without the creation of the transaction. -/
def serveMiss (st : Settings) (rounds : List Round) (timeoutText : Bytes) (io : TmpIO) (srw : Srw) : Option Served :=
  (proxyRequest st rounds timeoutText ⟨srw, some {}⟩).map fun res =>
    serveCaptured st io res.1.srw (res.1.tmp.getD {}) res.2

/-! ## The end of the loop -/

/-- The round at which the loop of `executeWithRetry` ends. -/
def lastRound (maxRetry : Int) (sessionId : String) : Int → List Round → Option Round
  | _, [] => none
  | numRetry, r :: rounds =>
    if r.ctxErr = none ∧ r.attempt.status = statusBadGateway ∧ numRetry < maxRetry ∧ r.nextActive = true ∧
        sessionId = "" then
      lastRound maxRetry sessionId (numRetry + 1) rounds
    else some r

theorem Srw.statusCode_respondWith (rw : Srw) (err : Bytes) {status : Int} (h : status ≠ 0) :
    (rw.respondWith err status).statusCode = status := by
  simp [respondWith, write, writeHeader, code, h]

theorem Srw.code_respondWith (rw : Srw) (err : Bytes) {status : Int} (h : status ≠ 0) :
    (rw.respondWith err status).code = status := by
  rw [code, statusCode_respondWith rw err h, if_neg h]

theorem Srw.Quiet.setStatusCode {rw : Srw} (hq : rw.Quiet) (code : Int) : (rw.setStatusCode code).Quiet :=
  ⟨hq.wire, hq.written, hq.body, hq.wroteHeader⟩

namespace Writers

theorem isSome_tmp_copyChunks : ∀ (cs : List Bytes) (w : Writers), (w.copyChunks cs).tmp.isSome = w.tmp.isSome
  | [], _ => rfl
  | c :: cs, w => by
    have hwrite : (w.write c).1.tmp.isSome = w.tmp.isSome := by
      cases ht : w.tmp <;> simp [write, ht]
    rw [copyChunks]
    split
    · rw [isSome_tmp_copyChunks cs, hwrite]
    · exact hwrite

theorem isSome_tmp_serve (w : Writers) (a : Attempt) : (w.serve a).tmp.isSome = w.tmp.isSome := by
  rw [serve, isSome_tmp_copyChunks]
  cases ht : w.tmp <;> simp [start, writeHeader, setHeader, ht]

/-- On the cached path an attempt sends nothing. -/
theorem quiet_serve {w : Writers} (ht : w.tmp.isSome = true) (hq : w.srw.Quiet) (a : Attempt) :
    (w.serve a).srw.Quiet := by
  obtain ⟨t, ht⟩ := Option.isSome_iff_exists.1 ht
  rw [serve_tmp ht]
  exact ⟨hq.wire, hq.written, hq.body, hq.wroteHeader⟩

end Writers

/-- How the loop ends in the round `r`, on either writer. -/
structure Round.Ends (r : Round) (w : Writers) (out : Executed) : Prop where
  err : out.err = r.ctxErr
  code : out.writers.code = r.attempt.status
  tmp : out.writers.tmp.isSome = w.tmp.isSome
  statusCode : r.ctxErr = none → out.writers.srw.statusCode = r.attempt.status
  quiet : w.tmp.isSome = true → w.srw.Quiet → (r.ctxErr = none → r.attempt.status ≠ statusBadGateway) →
    out.writers.srw.Quiet

theorem Writers.statusCode_sync_serve (w : Writers) (a : Attempt) : (w.serve a).sync.srw.statusCode = a.status := by
  rw [← Writers.code_serve (w := w) a.status_ne_zero]
  rfl

/-- The last round failed: an error is sent, past the temporary file. -/
theorem Round.ends_unreachable {r : Round} (hctx : r.ctxErr = none) (hbad : r.attempt.status = statusBadGateway)
    (w : Writers) :
    let w' := (w.serve r.attempt).sync
    r.Ends w ⟨{ w' with srw := w'.srw.respondWith r.cannotReach w'.srw.code }, [r.attempt], none⟩ := by
  intro w'
  have hne := r.attempt.status_ne_zero
  have hcode : w'.srw.code = r.attempt.status := by
    rw [Srw.code, Writers.statusCode_sync_serve, if_neg hne]
  rw [hcode]
  refine ⟨hctx.symm, ?_, Writers.isSome_tmp_serve w r.attempt, fun _ => Srw.statusCode_respondWith _ _ hne,
    fun _ _ hother => absurd hbad (hother hctx)⟩
  cases ht : (w.serve r.attempt).tmp with
  | some t => simpa [Writers.code, w', Writers.sync, ht] using Writers.code_serve (w := w) hne
  | none =>
    simp only [Writers.code, w', Writers.sync, ht]
    exact Srw.code_respondWith _ _ hne

/-- The loop ends in its last round, and the writer in use then has the status of that attempt. -/
theorem executeWithRetry_ends {maxRetry : Int} {sessionId : String} {numRetry : Int} {rounds : List Round}
    {w : Writers} {out : Executed} (h : executeWithRetry maxRetry sessionId numRetry rounds w = some out) :
    ∃ r, lastRound maxRetry sessionId numRetry rounds = some r ∧ r.Ends w out := by
  -- every attempt overwrites the status, so that of the last one stays
  induction rounds generalizing numRetry w out with
  | nil => cases h
  | cons r rounds ih =>
    have htmp := Writers.isSome_tmp_serve w r.attempt
    have hquiet : w.tmp.isSome = true → w.srw.Quiet → (w.serve r.attempt).srw.Quiet :=
      fun ht hq => Writers.quiet_serve ht hq r.attempt
    have hserve := Writers.code_serve (w := w) r.attempt.status_ne_zero
    have hsync : (w.serve r.attempt).sync.code = r.attempt.status := Writers.code_attempt r.attempt.status_ne_zero
    simp only [executeWithRetry, hsync] at h
    cases hctx : r.ctxErr with
    | some e =>
      rw [hctx] at h
      cases h
      refine ⟨r, by simp [lastRound, hctx], hctx.symm, hserve, htmp, fun hnone => ?_, fun ht hq _ => hquiet ht hq⟩
      rw [hctx] at hnone
      cases hnone
    | none =>
      simp only [hctx] at h
      by_cases hretry : r.attempt.status = statusBadGateway ∧ numRetry < maxRetry ∧ r.nextActive = true ∧ sessionId = ""
      · rw [if_pos hretry.1, if_pos hretry.2] at h
        obtain ⟨out', hout', rfl⟩ := Option.map_eq_some_iff.1 h
        obtain ⟨r', hr', hends⟩ := ih hout'
        refine ⟨r', by rw [lastRound, if_pos ⟨hctx, hretry⟩, hr'], hends.err, hends.code, hends.tmp.trans htmp,
          hends.statusCode, fun ht hq => hends.quiet (htmp.trans ht) ((hquiet ht hq).setStatusCode _)⟩
      · refine ⟨r, by rw [lastRound, if_neg (fun hr => hretry hr.2)], ?_⟩
        split at h
        · rename_i hbad
          rw [if_neg (fun hr => hretry ⟨hbad, hr⟩)] at h
          cases h
          exact Round.ends_unreachable hctx hbad w
        · cases h
          exact ⟨hctx.symm, hsync, htmp, fun _ => w.statusCode_sync_serve r.attempt,
            fun ht hq _ => (hquiet ht hq).setStatusCode _⟩

/-- The temporary file collects the bodies of all attempts. -/
theorem executeWithRetry_file {maxRetry : Int} {sessionId : String} {numRetry : Int} {rounds : List Round}
    {w : Writers} {t : Tmp} {out : Executed} (h : executeWithRetry maxRetry sessionId numRetry rounds w = some out)
    (ht : w.tmp = some t) : ∃ t', out.writers.tmp = some t' ∧ t'.file = t.file ++ out.made.flatMap Attempt.copied := by
  induction rounds generalizing numRetry w t out with
  | nil => cases h
  | cons r rounds ih =>
    obtain ⟨t₁, ht₁, hfile₁⟩ : ∃ t₁, (w.serve r.attempt).tmp = some t₁ ∧ t₁.file = t.file ++ r.attempt.copied := by
      rw [Writers.serve_tmp ht]
      exact ⟨_, rfl, Tmp.file_writeAll ..⟩
    -- where the loop stops, this attempt is the last that was captured
    have hlast : ∃ t', some t₁ = some t' ∧ t'.file = t.file ++ [r.attempt].flatMap Attempt.copied :=
      ⟨t₁, rfl, by rw [hfile₁, List.flatMap_singleton]⟩
    rw [← ht₁] at hlast
    unfold executeWithRetry at h
    dsimp only at h
    split at h
    · cases h
      exact hlast
    · split at h
      · split at h
        · -- the file is not truncated for the next attempt: it is appended to what is there
          obtain ⟨out', hout', rfl⟩ := Option.map_eq_some_iff.1 h
          obtain ⟨t', ht', hfile⟩ := ih hout' ht₁
          exact ⟨t', ht', by rw [hfile, hfile₁, List.flatMap_cons, List.append_assoc]⟩
        · cases h
          exact hlast
      · cases h
        exact hlast

/-! ## Executions -/

/-- What remains of an execution: the attempts, the round at which the loop ended, the temporary file, and how the
operations on it went. -/
structure Execution where
  made : List Attempt
  last : Round
  tmp : Tmp
  io : TmpIO

/-- The execution that `serveMiss` goes on from. -/
def execution (st : Settings) (rounds : List Round) (timeoutText : Bytes) (io : TmpIO) (srw : Srw) :
    Option Execution := do
  let out ← executeWithRetry st.retryNumber st.sessionId 0 rounds ⟨srw, some {}⟩
  let last ← lastRound st.retryNumber st.sessionId 0 rounds
  let res ← proxyRequest st rounds timeoutText ⟨srw, some {}⟩
  some ⟨out.made, last, res.1.tmp.getD {}, io⟩

/-- How an execution looks afterwards. At the deadline the temporary file is sent an error, too. -/
structure Execution.Sound (e : Execution) : Prop where
  code : e.tmp.code = if e.last.ctxErr = some .deadlineExceeded then 504 else e.last.attempt.status
  file : e.last.ctxErr ≠ some .deadlineExceeded → e.tmp.file = e.made.flatMap Attempt.copied

theorem execution_last {st : Settings} {rounds : List Round} {timeoutText : Bytes} {io : TmpIO} {srw : Srw}
    {e : Execution} (h : execution st rounds timeoutText io srw = some e) :
    lastRound st.retryNumber st.sessionId 0 rounds = some e.last := by
  simp only [execution, Option.bind_eq_bind, Option.bind_eq_some_iff, Option.some.injEq] at h
  obtain ⟨out, -, last, hlast, res, -, rfl⟩ := h
  exact hlast

/-- What `serveFromCache` does after a miss depends on the round at which the loop ends, and on the temporary
file. -/
theorem serveMiss_execution {st : Settings} {rounds : List Round} {timeoutText : Bytes} {io : TmpIO} {srw : Srw}
    {served : Served} (h : serveMiss st rounds timeoutText io srw = some served) :
    ∃ e srw', execution st rounds timeoutText io srw = some e ∧ e.io = io ∧ e.Sound ∧
      served = serveCaptured st io srw' e.tmp e.last.ctxErr.isSome ∧
      (srw.Quiet → (e.last.ctxErr = none → e.last.attempt.status ≠ statusBadGateway) → srw'.Quiet) := by
  simp only [serveMiss, proxyRequest, Option.map_map, Option.map_eq_some_iff] at h
  obtain ⟨out, hout, rfl⟩ := h
  obtain ⟨r, hr, hends⟩ := executeWithRetry_ends hout
  obtain ⟨t, ht, hfile⟩ := executeWithRetry_file hout rfl
  have hcode : t.code = r.attempt.status := by simpa [Writers.code, ht] using hends.code
  simp only [execution, proxyRequest, hout, hr, Option.bind_eq_bind, Option.bind_some, Option.map_some, hends.err,
    Function.comp_apply]
  cases hctx : r.ctxErr with
  | none =>
    refine ⟨_, out.writers.srw, rfl, rfl, ⟨?_, fun _ => ?_⟩, by simp [ht, hctx], fun hq hother => ?_⟩
    · simpa [ht, hctx] using hcode
    · simpa [ht] using hfile
    · exact hends.quiet rfl hq hother
  | some err =>
    have hquiet : srw.Quiet → out.writers.srw.Quiet := by
      intro hq
      apply hends.quiet rfl hq
      intro hnone
      rw [hctx] at hnone
      cases hnone
    cases err with
    | canceled =>
      refine ⟨_, out.writers.srw.setStatusCode 499, rfl, rfl, ⟨?_, fun _ => ?_⟩, by simp [ht, hctx],
        fun hq _ => (hquiet hq).setStatusCode 499⟩
      · simpa [ht, hctx] using hcode
      · simpa [ht] using hfile
    -- the text of the timeout is appended to the file, which is then not the copied bodies
    | deadlineExceeded =>
      refine ⟨_, out.writers.srw.setStatusCode 504, rfl, rfl, ⟨?_, fun hnot => absurd hctx hnot⟩,
        by rw [Writers.respondWith_tmp ht, hctx]; rfl, fun hq _ => (hquiet hq).setStatusCode 504⟩
      rw [Writers.respondWith_tmp ht]
      simp [hctx, Tmp.code, Tmp.statusCode_write]

theorem serveMiss_last {st : Settings} {rounds : List Round} {timeoutText : Bytes} {io : TmpIO} {srw : Srw}
    {served : Served} (h : serveMiss st rounds timeoutText io srw = some served) :
    ∃ r srw' t, lastRound st.retryNumber st.sessionId 0 rounds = some r ∧
      served = serveCaptured st io srw' t r.ctxErr.isSome ∧
      t.code = if r.ctxErr = some .deadlineExceeded then 504 else r.attempt.status := by
  obtain ⟨e, srw', he, -, hsound, hserved, -⟩ := serveMiss_execution h
  exact ⟨e.last, srw', e.tmp, execution_last he, hserved, hsound.code⟩

/-! ## A single attempt -/

/-- What the temporary file holds after one attempt. -/
def captured (srw : Srw) (a : Attempt) : Tmp :=
  ({ statusCode := a.status : Tmp }).writeAll (srw.conn.header.copyFrom a.header) a.chunks

theorem captured_file (srw : Srw) (a : Attempt) : (captured srw a).file = a.copied := by
  rw [captured, Tmp.file_writeAll]; rfl

theorem captured_code (srw : Srw) (a : Attempt) : (captured srw a).code = a.status := by
  rw [captured, Tmp.code, Tmp.statusCode_writeAll, if_neg a.status_ne_zero]

/-- `proxyRequest` without retries: the file holds the attempt unless the deadline was exceeded, and the
scope is canceled exactly when the context is. -/
theorem proxyRequest_single {st : Settings} (h0 : st.retryNumber = 0) (r : Round) (timeoutText : Bytes) (srw : Srw) :
    ∃ w t, proxyRequest st [r] timeoutText ⟨srw, some {}⟩ = some (w, r.ctxErr.isSome) ∧ w.tmp = some t ∧
      (r.ctxErr ≠ some .deadlineExceeded → t = captured srw r.attempt) := by
  have hserve := Writers.serve_tmp (w := ⟨srw, some {}⟩) rfl r.attempt
  have hcode := Writers.code_attempt (w := ⟨srw, some {}⟩) r.attempt.status_ne_zero
  rw [Writers.attempt] at hcode
  simp only [proxyRequest, executeWithRetry, hcode, h0]
  cases hctx : r.ctxErr with
  | none =>
    by_cases h502 : r.attempt.status = statusBadGateway
    · simp only [h502, if_true, Int.lt_irrefl, false_and, if_false]
      exact ⟨_, captured srw r.attempt, rfl, by rw [hserve]; rfl, fun _ => rfl⟩
    · simp only [h502, if_false]
      exact ⟨_, captured srw r.attempt, rfl, by rw [hserve]; rfl, fun _ => rfl⟩
  | some e =>
    cases e with
    | canceled => exact ⟨_, captured srw r.attempt, rfl, by rw [hserve]; rfl, fun _ => rfl⟩
    | deadlineExceeded =>
      -- the text of the timeout is appended to what was captured
      let h := srw.conn.header.copyFrom r.attempt.header
      exact ⟨_, ({ captured srw r.attempt with statusCode := 504 }).write h (timeoutText ++ [10]), rfl,
        by rw [hserve]; rfl, fun h => absurd rfl h⟩

@[simp] theorem completeTransaction_nil (status : Int) : completeTransaction status [] = .complete := by
  simp [completeTransaction]

theorem put_ne_completeTransaction {status : Int} {reason data : Bytes} {metadata : ContentMetadata} :
    CacheCall.put data metadata ≠ completeTransaction status reason := by
  unfold completeTransaction
  split
  · simp
  · split <;> simp

/-- What is put: the file, when it holds a 200 that was not canceled and is not too large. -/
theorem put_mem_serveCaptured {st : Settings} {io : TmpIO} {srw : Srw} {t : Tmp} {canceled : Bool} {data : Bytes}
    {metadata : ContentMetadata} :
    CacheCall.put data metadata ∈ (serveCaptured st io srw t canceled).calls ↔
      io.lengthErr = none ∧ io.readerErr = none ∧ t.code = 200 ∧ canceled = false ∧
      (t.file.length : Int) ≤ st.maxPayloadSize.toInt64.toInt ∧ data = t.file ∧ metadata = t.metadata := by
  have hlen : t.metadata.length = (t.file.length : Int) := rfl
  unfold serveCaptured
  split
  · rename_i h; simp [h]
  · rename_i h; simp [h]
  · rename_i h1 h2
    by_cases h : t.code ≠ 200 ∨ canceled = true
    · rw [if_pos h]
      refine iff_of_false (by simp [put_ne_completeTransaction]) ?_
      rintro ⟨-, -, h3, h4, -⟩
      simp [h3, h4] at h
    · rw [if_neg h]
      simp only [not_or, not_not, Bool.not_eq_true] at h
      by_cases hfits : (t.file.length : Int) ≤ st.maxPayloadSize.toInt64.toInt
      · simp [hlen, h, h1, h2, hfits, Int.not_lt.mpr hfits]
      · simp [hlen, h, h1, h2, hfits, Int.not_le.mp hfits]

/-- Without retries, for every behaviour of the upstream: only complete, successful and uncanceled
responses are put into the cache exactly when no 200 on a live context that fits the cache is cut short. -/
theorem put_only_complete_iff {st : Settings} (h0 : st.retryNumber = 0) (r : Round) (timeoutText : Bytes) (io : TmpIO)
    (srw : Srw) :
    ∃ served, serveMiss st [r] timeoutText io srw = some served ∧
      ((∀ data metadata, CacheCall.put data metadata ∈ served.calls →
          ∃ resp, r.attempt = .response resp ∧ resp.status = 200 ∧ r.ctxErr = none ∧ data = resp.body) ↔
        (∀ resp, r.attempt = .response resp → resp.status = 200 → r.ctxErr = none →
          (resp.copied.length : Int) ≤ st.maxPayloadSize.toInt64.toInt → io.lengthErr = none → io.readerErr = none →
          resp.copied = resp.body)) := by
  obtain ⟨w, t, hproxy, htmp, hcaptured⟩ := proxyRequest_single h0 r timeoutText srw
  refine ⟨_, by rw [serveMiss, hproxy]; rfl, ?_⟩
  simp only [htmp, Option.getD_some, put_mem_serveCaptured]
  constructor
  · intro hput resp hresp hstatus hctx hfits hl hr
    have ht := hcaptured (by simp [hctx])
    have hcode : t.code = 200 := by rw [ht, captured_code, hresp]; exact hstatus
    have hfile : t.file = resp.copied := by rw [ht, captured_file, hresp]; rfl
    obtain ⟨resp', hresp', -, -, hdata⟩ := hput t.file t.metadata
      ⟨hl, hr, hcode, by simp [hctx], by rw [hfile]; exact hfits, rfl, rfl⟩
    rw [hresp] at hresp'
    cases hresp'
    exact hfile.symm.trans hdata
  · rintro hcomplete data metadata ⟨hl, hr, hcode, hctx, hfits, rfl, -⟩
    have hctx' : r.ctxErr = none := by simpa using hctx
    have ht := hcaptured (by simp [hctx'])
    rw [ht, captured_code] at hcode
    rw [ht, captured_file] at hfits ⊢
    -- an attempt that failed was answered with 502, and nothing is put
    cases hattempt : r.attempt with
    | failed => rw [hattempt] at hcode; exact absurd hcode (by decide)
    | response resp =>
      rw [hattempt] at hcode hfits
      exact ⟨resp, rfl, hcode, hctx', hcomplete resp hattempt hcode hctx' hfits hl hr⟩

def smallSettings : Settings := ⟨0, "", 1024, 1024⟩

def freshSrw : Srw := { conn := { header := ∅ } }

/-- A 200 that arrives whole is put as it is. -/
theorem put_only_complete_okay : ∃ served,
    serveMiss smallSettings [⟨.response okay, none, true, []⟩] [] {} freshSrw = some served ∧
      CacheCall.put (bytes "ok") ⟨2, bytes "text/plain", []⟩ ∈ served.calls ∧
      ∀ data metadata, CacheCall.put data metadata ∈ served.calls → data = okay.body := by
  obtain ⟨served, hserved, hiff⟩ :=
    @put_only_complete_iff smallSettings rfl ⟨.response okay, none, true, []⟩ [] {} freshSrw
  refine ⟨served, hserved, ?_, fun data metadata hput => ?_⟩
  · cases hserved
    decide
  · obtain ⟨resp, hresp, -, -, hdata⟩ := hiff.2 (fun resp hresp _ _ _ _ _ => by cases hresp; rfl) data metadata hput
    cases hresp
    exact hdata

/-- A 200 whose connection breaks after two of its four bytes. -/
def brokenOff : Response :=
  { okay with body := bytes "okay", cut := by decide }

/-- The half of the body that arrived is put, with its own length, and the transaction is completed. -/
theorem broken_off_is_put : ∃ served,
    serveMiss smallSettings [⟨.response brokenOff, none, true, []⟩] [] {} freshSrw = some served ∧
      served.calls = [.put (bytes "ok") ⟨2, bytes "text/plain", []⟩, .complete] ∧
      brokenOff.status = 200 ∧ brokenOff.body = bytes "okay" ∧ bytes "ok" ≠ brokenOff.body :=
  ⟨_, rfl, by decide, rfl, rfl, by decide⟩

/-! ## Resolving the transaction -/

/-- The calls that resolve the transaction. -/
def CacheCall.resolves : CacheCall → Bool
  | .put .. => false
  | .complete => true
  | .fail _ => true

@[simp] theorem completeTransaction_resolves (status : Int) (reason : Bytes) :
    (completeTransaction status reason).resolves = true := by
  unfold completeTransaction
  repeat' split
  all_goals rfl

/-- Once the captured response can be read, the transaction is resolved once, whatever then happens. -/
theorem countP_resolves_serveCaptured (st : Settings) (io : TmpIO) (srw : Srw) (t : Tmp) (canceled : Bool) :
    (serveCaptured st io srw t canceled).calls.countP CacheCall.resolves =
      if io.lengthErr = none ∧ io.readerErr = none then 1 else 0 := by
  unfold serveCaptured
  split
  · rename_i hlength
    rw [if_neg (by simp [hlength])]
    rfl
  · rename_i hlength hreader
    rw [if_neg (by simp [hreader])]
    rfl
  · rename_i hlength hreader
    rw [if_pos (show io.lengthErr = none ∧ io.readerErr = none from ⟨hlength, hreader⟩)]
    by_cases hskip : t.code ≠ 200 ∨ canceled = true
    · rw [if_pos hskip]
      simp
    · rw [if_neg hskip]
      split
      · rw [completeTransaction_nil]; rfl
      · rw [completeTransaction_nil]; rfl

/-- On every return path after `Create`, `Complete` or `Fail` has been called exactly once, unless the length
or the reader of the temporary file could not be had. -/
theorem transaction_resolved_iff {st : Settings} {rounds : List Round} {timeoutText : Bytes} {io : TmpIO} {srw : Srw}
    {served : Served} (h : serveMiss st rounds timeoutText io srw = some served) :
    served.calls.countP CacheCall.resolves = 1 ↔ io.lengthErr = none ∧ io.readerErr = none := by
  obtain ⟨r, srw', t, _, rfl, _⟩ := serveMiss_last h
  rw [countP_resolves_serveCaptured]
  split <;> simp_all

theorem transaction_resolved_okay : ∃ served,
    serveMiss smallSettings [⟨.response okay, none, true, []⟩] [] {} freshSrw = some served ∧
      served.calls.countP CacheCall.resolves = 1 := by
  obtain ⟨served, hserved⟩ : ∃ served,
      serveMiss smallSettings [⟨.response okay, none, true, []⟩] [] {} freshSrw = some served := ⟨_, rfl⟩
  exact ⟨served, hserved, (transaction_resolved_iff hserved).2 ⟨rfl, rfl⟩⟩

/-- The response is complete, but the last buffered bytes do not fit on the disk of the temporary file: the
client is sent an error, and neither `Complete` nor `Fail` is called. -/
theorem transaction_left_open : ∃ served,
    serveMiss smallSettings [⟨.response okay, none, true, []⟩] []
      { lengthErr := some (bytes "no space left on device") }
      freshSrw = some served ∧ served.calls = [] ∧ served.srw.statusCode = 500 :=
  ⟨_, rfl, rfl, by decide⟩

end Chproxy.Proxy
