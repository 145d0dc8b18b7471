/-
The status under which `ServeHTTP` (`proxy.go`) counts a request that was proxied, directly or by
`serveFromCache`. `proxyRequest` ends with a status of its own: 499 for a client that went away, 504 for a
timeout. On the cached path the status is set once more when the captured response is sent on, and then it
is the one that was captured.
-/
import Chproxy.Proxy.Serve

namespace Chproxy.Proxy

open Utils Cache

/-! ## The end of `proxyRequest` -/

/-- The status that `proxyRequest` ends with. -/
def Round.ended (r : Round) : Int :=
  match r.ctxErr with
  | none => r.attempt.status
  | some .canceled => 499
  | some .deadlineExceeded => 504

/-- The status in the temporary file then: that of a timeout is written there too. -/
def Round.captured (r : Round) : Int := if r.ctxErr = some .deadlineExceeded then 504 else r.attempt.status

theorem Round.captured_ne_zero (r : Round) : r.captured ≠ 0 := by
  unfold captured
  split
  · decide
  · exact r.attempt.status_ne_zero

/-- They differ for a client that went away, unless ClickHouse itself answered 499. -/
theorem Round.captured_eq_ended_iff (r : Round) :
    r.captured = r.ended ↔ (r.ctxErr = some .canceled → r.attempt.status = 499) := by
  unfold captured ended
  cases r.ctxErr with
  | none => simp
  | some e => cases e <;> simp

theorem Writers.code_tmp_respondWith {w : Writers} {t : Tmp} {err : Bytes} {status : Int} (h : status ≠ 0)
    (ht : (w.respondWith err status).tmp = some t) : t.code = status := by
  cases hw : w.tmp with
  | none => simp [respondWith, writeHeader, write, hw] at ht
  | some t' =>
    rw [respondWith_tmp hw] at ht
    cases ht
    rw [Tmp.code, Tmp.statusCode_write, if_neg h]

/-- What `proxyRequest` leaves behind when the round `r` is its last one. -/
structure Round.Leaves (r : Round) (w w' : Writers) (canceled : Bool) : Prop where
  statusCode : w'.srw.statusCode = r.ended
  canceled : canceled = r.ctxErr.isSome
  tmp : w'.tmp.isSome = w.tmp.isSome
  code : ∀ t, w'.tmp = some t → t.code = r.captured
  quiet : w.tmp.isSome = true → w.srw.Quiet → r.ctxErr ≠ none → w'.srw.Quiet

theorem proxyRequest_ends {st : Settings} {rounds : List Round} {timeoutText : Bytes} {w w' : Writers} {canceled : Bool}
    (h : proxyRequest st rounds timeoutText w = some (w', canceled)) :
    ∃ r, lastRound st.retryNumber st.sessionId 0 rounds = some r ∧ r.Leaves w w' canceled := by
  obtain ⟨out, hout, heq⟩ := Option.map_eq_some_iff.1 h
  obtain ⟨r, hr, hends⟩ := executeWithRetry_ends hout
  have hcode : ∀ t, out.writers.tmp = some t → t.code = r.attempt.status := fun t ht => by
    simpa [Writers.code, ht] using hends.code
  have hquiet : w.tmp.isSome = true → w.srw.Quiet → r.ctxErr ≠ none → out.writers.srw.Quiet :=
    fun ht hq hne => hends.quiet ht hq fun hnone => absurd hnone hne
  refine ⟨r, hr, ?_⟩
  rw [hends.err] at heq
  -- `proxyRequest` writes a status of its own only where the context ended
  cases hctx : r.ctxErr with
  | none =>
    rw [hctx] at heq
    cases heq
    refine ⟨?_, by rw [hctx]; rfl, hends.tmp, fun t ht => ?_, hquiet⟩
    · rw [hends.statusCode hctx, Round.ended, hctx]
    · rw [hcode t ht, Round.captured, hctx, if_neg (by simp)]
  | some e =>
    rw [hctx] at heq
    cases e with
    | canceled =>
      cases heq
      refine ⟨?_, by rw [hctx]; rfl, hends.tmp, fun t ht => ?_, fun ht hq hne => (hquiet ht hq hne).setStatusCode 499⟩
      · rw [Round.ended, hctx]
        rfl
      · rw [hcode t ht, Round.captured, hctx, if_neg (by simp)]
    | deadlineExceeded =>
      cases heq
      refine ⟨?_, by rw [hctx]; rfl, ?_, fun t ht => ?_, fun hsome hq hne => ?_⟩
      · rw [Round.ended, hctx]
        rfl
      · rw [← hends.tmp]
        cases ht : out.writers.tmp <;> simp [Writers.respondWith, Writers.writeHeader, Writers.write, ht]
      · rw [Round.captured, if_pos hctx]
        exact Writers.code_tmp_respondWith (by decide) ht
      · obtain ⟨t, ht⟩ := Option.isSome_iff_exists.1 (hends.tmp.trans hsome)
        rw [Writers.respondWith_tmp ht]
        exact (hquiet hsome hq hne).setStatusCode 504

/-! ## Sending on what was captured -/

/-- The writer at the end, and whether the response that was proxied is the one sent on. -/
structure Finished where
  srw : Srw
  sent : Bool

namespace Srw

variable (srw : Srw) (lost : Bool) (t : Tmp) (ttl : Int) (cacheHit : XCache) (io : TmpIO)

/-- `RespondWithData`, with an error sent when it fails. A connection that is lost takes no data. -/
def respondOver : Finished :=
  let res := srw.respondWithData t.file t.metadata ttl cacheHit t.code
  if res.2 = true ∧ (lost = true → t.file = []) then ⟨res.1, true⟩ else ⟨res.1.respondWith io.sendErr 500, false⟩

def resetAndRespondOver : Finished :=
  match io.resetErr with
  | some err => ⟨srw.respondWith err 500, false⟩
  | none => srw.respondOver lost t ttl cacheHit io

theorem respondOver_connected : (srw.respondOver false t ttl cacheHit io).srw = srw.respondOr500 t ttl cacheHit io := by
  simp only [respondOver, respondOr500, Bool.false_eq_true, false_implies, and_true]
  split <;> rfl

theorem resetAndRespondOver_connected :
    (srw.resetAndRespondOver false t ttl cacheHit io).srw = srw.resetAndRespond t ttl cacheHit io := by
  unfold resetAndRespondOver resetAndRespond
  cases io.resetErr with
  | some err => rfl
  | none => exact respondOver_connected ..

end Srw

/-- `serveFromCache` after `proxyRequest`, on a connection that may be lost. -/
def respondCaptured (st : Settings) (io : TmpIO) (lost : Bool) (srw : Srw) (t : Tmp) (canceled : Bool) : Finished :=
  match io.lengthErr, io.readerErr with
  | some err, _ => ⟨srw.respondWith err 500, false⟩
  | none, some err => ⟨srw.respondWith err 500, false⟩
  | none, none =>
    if t.code ≠ 200 ∨ canceled = true then srw.resetAndRespondOver lost t 0 .miss io
    else if t.metadata.length > st.maxPayloadSize.toInt64.toInt then srw.respondOver lost t 0 .na io
    else srw.resetAndRespondOver lost t io.expiration .miss io

/-- On a connection that is not lost this is what `serveCaptured` answers. -/
theorem respondCaptured_connected (st : Settings) (io : TmpIO) (srw : Srw) (t : Tmp) (canceled : Bool) :
    (respondCaptured st io false srw t canceled).srw = (serveCaptured st io srw t canceled).srw := by
  unfold respondCaptured serveCaptured
  cases io.lengthErr with
  | some err => rfl
  | none =>
    cases io.readerErr with
    | some err => rfl
    | none =>
      dsimp only
      by_cases hskip : t.code ≠ 200 ∨ canceled = true
      · rw [if_pos hskip, if_pos hskip]
        exact Srw.resetAndRespondOver_connected ..
      rw [if_neg hskip, if_neg hskip]
      by_cases hlarge : t.metadata.length > st.maxPayloadSize.toInt64.toInt
      · rw [if_pos hlarge, if_pos hlarge]
        exact Srw.respondOver_connected ..
      · rw [if_neg hlarge, if_neg hlarge]
        exact Srw.resetAndRespondOver_connected ..

/-- The status kept is that of the response sent on, or that of an error. -/
def Finished.Keeps (a : Finished) (code : Int) : Prop := a.srw.statusCode = if a.sent then code else 500

theorem Srw.statusCode_respondWithData (srw : Srw) (data : Bytes) (metadata : ContentMetadata) (ttl : Int)
    (cacheHit : XCache) {status : Int} (h : status ≠ 0) :
    (srw.respondWithData data metadata ttl cacheHit status).1.statusCode = status := by
  unfold respondWithData
  dsimp only
  split
  · rfl
  · simp [write, code, writeHeader, h]

section Keeps

variable {srw : Srw} {lost : Bool} {t : Tmp} {io : TmpIO}

theorem Srw.keeps_respondOver (ht : t.code ≠ 0) (ttl : Int) (cacheHit : XCache) :
    (srw.respondOver lost t ttl cacheHit io).Keeps t.code := by
  unfold respondOver
  dsimp only
  split
  · exact statusCode_respondWithData _ _ _ _ _ ht
  · exact statusCode_respondWith _ _ (by decide)

theorem Srw.keeps_resetAndRespondOver (ht : t.code ≠ 0) (ttl : Int) (cacheHit : XCache) :
    (srw.resetAndRespondOver lost t ttl cacheHit io).Keeps t.code := by
  unfold resetAndRespondOver
  split
  · exact statusCode_respondWith _ _ (by decide)
  · exact keeps_respondOver ht ttl cacheHit

theorem keeps_respondCaptured (ht : t.code ≠ 0) (st : Settings) (canceled : Bool) :
    (respondCaptured st io lost srw t canceled).Keeps t.code := by
  unfold respondCaptured
  split
  · exact Srw.statusCode_respondWith _ _ (by decide)
  · exact Srw.statusCode_respondWith _ _ (by decide)
  · split
    · exact Srw.keeps_resetAndRespondOver ht ..
    · split
      · exact Srw.keeps_respondOver ht ..
      · exact Srw.keeps_resetAndRespondOver ht ..

end Keeps

/-! ## When it is sent on -/

/-- What decides whether a `Write` succeeds. -/
theorem Conn.write_ok_iff (c : Conn) (b : Bytes) : (c.write b).2 = true ↔ b.length = 0 ∨
    bodyAllowed (c.writeHeader 200).status = true ∧
      (c.writeHeader 200).limit.any (· < (c.writeHeader 200).written + b.length) = false := by
  unfold write
  dsimp only
  by_cases hb : b.length = 0
  · rw [if_pos hb]
    exact iff_of_true rfl (.inl hb)
  rw [if_neg hb, or_iff_right hb]
  by_cases hallowed : bodyAllowed (c.writeHeader 200).status = false
  · rw [if_pos hallowed]
    exact iff_of_false (by simp) fun h => absurd (hallowed.symm.trans h.1) (by simp)
  rw [if_neg hallowed, and_iff_right (by simpa using hallowed)]
  split
  · rename_i hlimit
    exact iff_of_false (by simp) fun h => absurd (hlimit.symm.trans h) (by simp)
  · rename_i hlimit
    exact iff_of_true rfl (by simpa using hlimit)

/-- A length that is declared leaves room for just the data. -/
theorem declaredLength_leaves_iff (written n : Nat) :
    (declaredLength (Decimal.ofInt n)).any (· < written + n) = false ↔ (n < 2 ^ 63 → written = 0) := by
  by_cases hn : n < 2 ^ 63
  · rw [declaredLength_ofNat hn]
    simp only [hn, true_imp_iff, Option.any_some, decide_eq_false_iff_not]
    omega
  · have hnone : declaredLength (Decimal.ofInt n) = none := by
      cases h : declaredLength (Decimal.ofInt n) with
      | none => rfl
      | some m =>
        simp only [declaredLength, Decimal.toInt?_ofInt] at h
        split at h
        · omega
        · cases h
    rw [hnone]
    exact iff_of_true rfl fun h => absurd h hn

/-- The connection takes the captured response: there is nothing to be sent, or it is not lost, its status allows a
body, which is the captured one unless another has been sent, and so does the length that is declared. -/
def Srw.Takes (srw : Srw) (lost : Bool) (t : Tmp) : Prop :=
  t.file = [] ∨ lost = false ∧
    match srw.conn.wire with
    | some (status, _) =>
      bodyAllowed status = true ∧ srw.conn.limit.any (· < srw.conn.written + t.file.length) = false
    | none =>
      bodyAllowed (if srw.wroteHeader then 200 else t.code) = true ∧
        (t.file.length < 2 ^ 63 → srw.conn.written = 0)

/-- This is what makes `RespondWithData` succeed, whatever the response says of the cache. -/
theorem Srw.respondWithData_ok_iff (srw : Srw) (lost : Bool) (t : Tmp) (ttl : Int) (cacheHit : XCache) :
    (srw.respondWithData t.file t.metadata ttl cacheHit t.code).2 = true ∧ (lost = true → t.file = []) ↔
      srw.Takes lost t := by
  unfold respondWithData Takes
  by_cases hfile : t.file = []
  · simp [hfile]
  have hlen : t.file.length ≠ 0 := fun h => hfile (List.length_eq_zero_iff.1 h)
  have hlost : (lost = true → t.file = []) ↔ lost = false := by simp [hfile]
  have hcode : t.code ≠ 0 := by
    unfold Tmp.code
    split <;> [decide; assumption]
  have hcl : (respondHeader srw.conn.header t.metadata ttl cacheHit).get "Content-Length" =
      Decimal.ofInt (t.file.length : Int) := congrArg (List.headD · []) (respondHeader_contentLength ..)
  rw [hlost, and_comm, or_iff_right hfile, if_neg hfile]
  refine and_congr_right fun _ => ?_
  unfold write
  dsimp only
  rw [Conn.write_ok_iff, or_iff_right hlen]
  -- after the header is sent its length is fixed; before, it is the one declared here
  cases hw : srw.conn.wire with
  | some x =>
    cases hwrote : srw.wroteHeader <;> simp [setHeader, writeHeader, hwrote, Conn.writeHeader, Conn.status, hw]
  | none =>
    rw [← declaredLength_leaves_iff, ← hcl]
    cases hwrote : srw.wroteHeader <;>
      simp [setHeader, writeHeader, hwrote, code, hcode, Conn.writeHeader, Conn.status, hw]

/-- A quiet one does if it is not lost, or if there is nothing to be sent. -/
theorem Srw.Quiet.takes_iff {srw : Srw} (hq : srw.Quiet) {t : Tmp} (hbody : t.file ≠ [] → bodyAllowed t.code = true)
    (lost : Bool) : srw.Takes lost t ↔ (lost = true → t.file = []) := by
  unfold Takes
  by_cases hfile : t.file = []
  · simp [hfile]
  · simp [hfile, hq.wire, hq.written, hq.wroteHeader, hbody hfile]

/-- The captured response can be sent on: its file can be read, from the beginning unless it has not been
read yet, and the connection takes it. -/
structure Sendable (st : Settings) (io : TmpIO) (lost : Bool) (srw : Srw) (t : Tmp) (canceled : Bool) : Prop where
  length : io.lengthErr = none
  reader : io.readerErr = none
  offset : io.resetErr = none ∨
    t.code = 200 ∧ canceled = false ∧ t.metadata.length > st.maxPayloadSize.toInt64.toInt
  takes : srw.Takes lost t

section Sending

variable {srw : Srw} {lost : Bool} {t : Tmp} {io : TmpIO}

theorem Srw.sent_respondOver_iff (ttl : Int) (cacheHit : XCache) :
    (srw.respondOver lost t ttl cacheHit io).sent = true ↔ srw.Takes lost t := by
  rw [← respondWithData_ok_iff srw lost t ttl cacheHit]
  unfold respondOver
  dsimp only
  split
  · rename_i h
    exact iff_of_true rfl h
  · rename_i h
    exact iff_of_false (by simp) h

theorem Srw.sent_resetAndRespondOver_iff (ttl : Int) (cacheHit : XCache) :
    (srw.resetAndRespondOver lost t ttl cacheHit io).sent = true ↔ io.resetErr = none ∧ srw.Takes lost t := by
  unfold resetAndRespondOver
  cases io.resetErr with
  | some err => simp
  | none => simpa using sent_respondOver_iff ttl cacheHit

theorem sent_respondCaptured_iff (st : Settings) (canceled : Bool) :
    (respondCaptured st io lost srw t canceled).sent = true ↔ Sendable st io lost srw t canceled := by
  unfold respondCaptured
  split
  · rename_i hlength
    exact iff_of_false (by simp) fun h => by rw [h.length] at hlength; cases hlength
  · rename_i hreader
    exact iff_of_false (by simp) fun h => by rw [h.reader] at hreader; cases hreader
  · rename_i hlength hreader
    split
    · rename_i hskip
      rw [Srw.sent_resetAndRespondOver_iff]
      constructor
      · rintro ⟨hreset, htakes⟩
        exact ⟨hlength, hreader, .inl hreset, htakes⟩
      · intro h
        refine ⟨h.offset.resolve_right fun hlarge => ?_, h.takes⟩
        -- the size is looked at only for a success that was not canceled
        rcases hskip with hcode | hcanceled
        · exact hcode hlarge.1
        · exact absurd (hcanceled.symm.trans hlarge.2.1) (by simp)
    · rename_i hskip
      obtain ⟨hcode, hcanceled⟩ := not_or.1 hskip
      split
      · rename_i hlarge
        rw [Srw.sent_respondOver_iff]
        constructor
        · intro htakes
          exact ⟨hlength, hreader, .inr ⟨not_not.1 hcode, by simpa using hcanceled, hlarge⟩, htakes⟩
        · exact Sendable.takes
      · rename_i hlarge
        rw [Srw.sent_resetAndRespondOver_iff]
        constructor
        · rintro ⟨hreset, htakes⟩
          exact ⟨hlength, hreader, .inl hreset, htakes⟩
        · intro h
          exact ⟨h.offset.resolve_right fun hlarge' => hlarge hlarge'.2.2, h.takes⟩

/-- For a client that went away and after a timeout nothing has been sent yet, so that only a file that cannot
be read and a connection that is lost stand in the way. -/
theorem Round.Leaves.sendable_iff {r : Round} {w w' : Writers} {canceled : Bool} (h : r.Leaves w w' canceled)
    (htmp : w.tmp.isSome = true) (hq : w.srw.Quiet) (hctx : r.ctxErr ≠ none)
    (hbody : t.file ≠ [] → bodyAllowed t.code = true) (st : Settings) :
    Sendable st io lost w'.srw t canceled ↔
      io.lengthErr = none ∧ io.readerErr = none ∧ io.resetErr = none ∧ (lost = true → t.file = []) := by
  have htakes := (h.quiet htmp hq hctx).takes_iff hbody lost
  have hcanceled : canceled ≠ false := by
    rw [h.canceled]
    simpa [Option.isSome_iff_ne_none] using hctx
  constructor
  · intro hsend
    exact ⟨hsend.length, hsend.reader, hsend.offset.resolve_right fun hlarge => hcanceled hlarge.2.1,
      htakes.1 hsend.takes⟩
  · rintro ⟨hlength, hreader, hreset, hlost⟩
    exact ⟨hlength, hreader, .inl hreset, htakes.2 hlost⟩

end Sending

/-! ## `ServeHTTP` -/

/-- The two ways in which `ServeHTTP` proxies a request. -/
inductive Way
  | direct
  | cached
  deriving DecidableEq, Repr

/-- The writer `proxyRequest` is given besides the `statResponseWriter`. -/
def Way.tmp : Way → Option Tmp
  | direct => none
  | cached => some {}

/-- A request that is proxied, up to the point where `ServeHTTP` reads the status. -/
def serveHTTP (way : Way) (st : Settings) (rounds : List Round) (timeoutText : Bytes) (io : TmpIO) (lost : Bool)
    (srw : Srw) :
    Option Finished :=
  (proxyRequest st rounds timeoutText ⟨srw, way.tmp⟩).map fun res =>
    match res.1.tmp with
    | none => ⟨res.1.srw, true⟩
    | some t => respondCaptured st io lost res.1.srw t res.2

/-- `srw.statusCode == http.StatusOK`, for which `requestSuccess` is incremented. -/
def requestSuccess (srw : Srw) : Bool := srw.statusCode == 200

/-- One round more than there are retries is enough. -/
theorem executeWithRetry_isSome {maxRetry : Int} {sessionId : String} :
    ∀ {rounds : List Round} {numRetry : Int} (w : Writers),
    rounds ≠ [] → maxRetry < numRetry + rounds.length →
    (executeWithRetry maxRetry sessionId numRetry rounds w).isSome = true
  | [], _, _, hne, _ => absurd rfl hne
  | r :: rounds, numRetry, w, _, hlt => by
    rw [List.length_cons] at hlt
    unfold executeWithRetry
    dsimp only
    split
    · rfl
    · split
      · split
        · rename_i hretry
          have hne : rounds ≠ [] := by
            rintro rfl
            have := hretry.1
            simp only [List.length_nil] at hlt
            omega
          rw [Option.isSome_map]
          exact executeWithRetry_isSome _ hne (by omega)
        · rfl
      · rfl

theorem serveHTTP_isSome (way : Way) {st : Settings} {rounds : List Round} (hne : rounds ≠ [])
    (h : st.retryNumber < rounds.length) (timeoutText : Bytes) (io : TmpIO) (lost : Bool) (srw : Srw) :
    (serveHTTP way st rounds timeoutText io lost srw).isSome = true := by
  rw [serveHTTP, proxyRequest, Option.isSome_map, Option.isSome_map]
  exact executeWithRetry_isSome _ hne (by omega)

/-- On either way, after any rounds: the status that is counted is the one `proxyRequest` ended with exactly
when it is the direct way, or the captured response can be sent on and is not that of a client that went
away, or it cannot and that status is the one of the error sent instead. A request whose client went away is
counted as a success exactly when a 200 was captured for it and can be sent on. -/
theorem final_status_iff {way : Way} {st : Settings} {rounds : List Round} {timeoutText : Bytes} {io : TmpIO}
    {lost : Bool} {srw : Srw} {a : Finished} (h : serveHTTP way st rounds timeoutText io lost srw = some a) :
    ∃ w canceled r, proxyRequest st rounds timeoutText ⟨srw, way.tmp⟩ = some (w, canceled) ∧
      lastRound st.retryNumber st.sessionId 0 rounds = some r ∧ w.srw.statusCode = r.ended ∧
      (a.srw.statusCode = w.srw.statusCode ↔ ∀ t, w.tmp = some t →
        (Sendable st io lost w.srw t canceled → r.ctxErr = some .canceled → r.attempt.status = 499) ∧
        (¬Sendable st io lost w.srw t canceled → r.ended = 500)) ∧
      (way = .direct → w.tmp = none) ∧
      (r.ctxErr = some .canceled → (requestSuccess a.srw = true ↔
        ∃ t, w.tmp = some t ∧ r.attempt.status = 200 ∧ Sendable st io lost w.srw t canceled)) := by
  obtain ⟨⟨w, canceled⟩, hproxy, ha⟩ := Option.map_eq_some_iff.1 h
  obtain ⟨r, hr, hleaves⟩ := proxyRequest_ends hproxy
  refine ⟨w, canceled, r, hproxy, hr, hleaves.statusCode, ?_⟩
  have htmp := hleaves.tmp
  have hended : r.ctxErr = some .canceled → r.ended = 499 := fun hctx => by rw [Round.ended, hctx]
  cases ht : w.tmp with
  | none =>
    simp only [ht] at ha
    subst ha
    -- nothing was captured, so that the status of `proxyRequest` stays
    refine ⟨iff_of_true rfl fun t hsome => ?_, fun _ => rfl, fun hctx => ?_⟩
    · cases hsome
    · rw [requestSuccess, hleaves.statusCode, hended hctx]
      refine iff_of_false (by decide) ?_
      rintro ⟨t, hsome, _⟩
      cases hsome
  | some t =>
    have hcode := hleaves.code t ht
    simp only [ht] at ha
    -- a captured response: what was sent on decides, not what was logged before
    have hsent : a.sent = true ↔ Sendable st io lost w.srw t canceled := ha ▸ sent_respondCaptured_iff st canceled
    have hkeeps : a.srw.statusCode = if a.sent then r.captured else 500 := by
      rw [← ha, ← hcode]
      exact keeps_respondCaptured (hcode ▸ r.captured_ne_zero) st canceled
    simp only [Option.some.injEq, forall_eq', exists_eq_left', ← hsent]
    refine ⟨?_, fun hway => ?_, fun hctx => ?_⟩
    · rw [hleaves.statusCode, hkeeps]
      cases a.sent with
      | true => simpa using r.captured_eq_ended_iff
      | false => simpa using eq_comm
    · rw [ht, hway] at htmp
      cases htmp
    · have hstatus : r.captured = r.attempt.status := by simp [Round.captured, hctx]
      rw [requestSuccess, hkeeps, hstatus]
      cases a.sent with
      | true => simp
      | false => simp

/-- A timeout is counted as 504 on the cached way. -/
theorem final_status_timeout : ∃ a,
    serveHTTP .cached smallSettings [⟨.response okay, some .deadlineExceeded, true, []⟩] (bytes "timeout")
      {} false freshSrw =
      some a ∧ a.srw.statusCode = 504 := by
  obtain ⟨a, ha⟩ := Option.isSome_iff_exists.1 (@serveHTTP_isSome .cached smallSettings
    [⟨.response okay, some .deadlineExceeded, true, []⟩] (by simp) (by decide) (bytes "timeout") {} false freshSrw)
  obtain ⟨w, canceled, r, hproxy, hr, hstatus, hiff, _⟩ := final_status_iff ha
  cases hr
  have hsendable : ∀ t, w.tmp = some t → Sendable smallSettings {} false w.srw t canceled := by
    cases hproxy
    intro t ht
    cases ht
    exact ⟨rfl, rfl, .inl rfl, .inr ⟨rfl, by decide, fun _ => rfl⟩⟩
  refine ⟨a, ha, (hiff.2 fun t ht => ⟨fun _ hctx => ?_, fun hnot => ?_⟩).trans hstatus⟩
  · cases hctx
  · exact absurd (hsendable t ht) hnot

/-- The client goes away when a 200 has begun to arrive. On the direct way this is counted as 499; on the
cached way as 200, among the successes. Where the client goes away before ClickHouse has answered, it is
counted as 502. -/
theorem canceled_counted_as_success :
    let gone (a : Attempt) : List Round := [⟨a, some .canceled, true, []⟩]
    let status (way : Way) (a : Attempt) : Option (Int × Bool) :=
      (serveHTTP way smallSettings (gone a) [] {} false freshSrw).map fun out =>
        (out.srw.statusCode, requestSuccess out.srw)
    (∀ a,
      ((proxyRequest smallSettings (gone a) [] ⟨freshSrw, some {}⟩).map fun res => res.1.srw.statusCode) = some 499) ∧
      status .direct (.response okay) = some (499, false) ∧ status .cached (.response okay) = some (200, true) ∧
      status .direct .failed = some (499, false) ∧ status .cached .failed = some (502, false) := by
  intro gone status
  exact ⟨fun a => rfl, by decide, by decide, by decide, by decide⟩

end Chproxy.Proxy
