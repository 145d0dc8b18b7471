/-
`executeWithRetry` (`proxy.go`) over the attempts that `httputil.ReverseProxy` makes, on either writer, and
what the temporary file of the cached path holds after them.
-/
import Chproxy.Proxy.Writer

namespace Chproxy.Proxy

open Utils Routing Cache

/-! ## Attempts -/

/-- A response of ClickHouse as `ReverseProxy` passes it on: `chunks` is what is read of `body` before
its end or before the copy breaks. A status without body has none, and the transport reads no more than
the declared length. -/
structure Response where
  status : Int
  header : Header
  body : Bytes
  chunks : List Bytes
  status_ge : 100 ≤ status
  cut : chunks.flatten <+: body
  chunks_nonempty : ∀ c ∈ chunks, c ≠ []
  allowed : chunks ≠ [] → bodyAllowed status = true
  declared : ∀ n, declaredLength (header.get "Content-Length") = some n → chunks.flatten.length ≤ n

/-- The part of the body that is copied. -/
def Response.copied (r : Response) : Bytes := r.chunks.flatten

/-- One call of `ReverseProxy.ServeHTTP`: no connection, or a response. -/
inductive Attempt
  | failed
  | response (r : Response)

def statusBadGateway : Int := 502

namespace Attempt

def status : Attempt → Int
  | failed => statusBadGateway
  | response r => r.status

def header : Attempt → Header
  | failed => ∅
  | response r => r.header

def chunks : Attempt → List Bytes
  | failed => []
  | response r => r.chunks

def copied (a : Attempt) : Bytes := a.chunks.flatten

end Attempt

/-! ## The writer in use -/

/-- The writers of a request: the `statResponseWriter`, and on the cached path the writer around it. -/
structure Writers where
  srw : Srw
  tmp : Option Tmp

namespace Writers

def header (w : Writers) : Header := w.srw.conn.header

def setHeader (w : Writers) (h : Header) : Writers := { w with srw := w.srw.setHeader h }

/-- `rw.WriteHeader`. -/
def writeHeader (w : Writers) (code : Int) : Writers :=
  match w.tmp with
  | some t => { w with tmp := some { t with statusCode := code } }
  | none => { w with srw := w.srw.writeHeader code }

/-- `rw.Write`, and whether it succeeded. -/
def write (w : Writers) (b : Bytes) : Writers × Bool :=
  match w.tmp with
  | some t => ({ w with tmp := some (t.write w.header b) }, true)
  | none => ({ w with srw := (w.srw.write b).1 }, (w.srw.write b).2)

/-- `rw.StatusCode()`. -/
def code (w : Writers) : Int :=
  match w.tmp with
  | some t => t.code
  | none => w.srw.code

/-- The copy of a body, which stops at a failed `Write`. -/
def copyChunks : Writers → List Bytes → Writers
  | w, [] => w
  | w, c :: cs => if (w.write c).2 then copyChunks (w.write c).1 cs else (w.write c).1

/-- The start of a response: its headers are added, its status is passed on. -/
def start (w : Writers) (a : Attempt) : Writers := (w.setHeader (w.header.copyFrom a.header)).writeHeader a.status

/-- `ReverseProxy.ServeHTTP` on the writer. -/
def serve (w : Writers) (a : Attempt) : Writers := (w.start a).copyChunks a.chunks

/-- `srw.SetStatusCode(rw.StatusCode())`. -/
def sync (w : Writers) : Writers := { w with srw := w.srw.setStatusCode w.code }

end Writers

/-! ## `executeWithRetry` -/

/-- What ends a context. -/
inductive CtxErr
  | canceled
  | deadlineExceeded
  deriving DecidableEq, Repr

/-- One round of the loop: the attempt, the state of the context after it, and, after a 502, whether
the host that `getHost` returns is active and the text of the error sent when there is no retry. -/
structure Round where
  attempt : Attempt
  ctxErr : Option CtxErr
  nextActive : Bool
  cannotReach : Bytes

/-- The writers after `executeWithRetry`, the attempts made and the error returned. -/
structure Executed where
  writers : Writers
  made : List Attempt
  err : Option CtxErr

/-- The loop, with `rounds` as many rounds as it needs; `none` when they do not suffice. -/
def executeWithRetry (maxRetry : Int) (sessionId : String) : Int → List Round → Writers → Option Executed
  | _, [], _ => none
  | numRetry, r :: rounds, w =>
    let w := w.serve r.attempt
    match r.ctxErr with
    | some e => some ⟨w, [r.attempt], some e⟩ -- the status of the attempt is not passed on
    | none =>
      let w := w.sync
      if w.code = statusBadGateway then
        -- the next round goes on with the writers as this attempt left them
        if numRetry < maxRetry ∧ r.nextActive = true ∧ sessionId = "" then
          (executeWithRetry maxRetry sessionId (numRetry + 1) rounds w).map fun out =>
            { out with made := r.attempt :: out.made }
        else some ⟨{ w with srw := w.srw.respondWith r.cannotReach w.srw.code }, [r.attempt], none⟩
      else some ⟨w, [r.attempt], none⟩

/-! ## One attempt -/

namespace Writers

variable {w : Writers}

/-- What one round that is not the end leaves behind. -/
def attempt (w : Writers) (a : Attempt) : Writers := (w.serve a).sync

theorem code_write (w : Writers) (b : Bytes) : (w.write b).1.code = w.code := by
  cases ht : w.tmp with
  | some t =>
    simp only [write, code, ht, Tmp.write, Tmp.code, Tmp.captureHeaders]
    split <;> rfl
  | none =>
    have hne : w.srw.code ≠ 0 := by unfold Srw.code; split <;> simp_all
    simp only [write, code, ht, Srw.write]
    rw [Srw.code, if_neg hne]

theorem code_copyChunks : ∀ (cs : List Bytes) (w : Writers), (w.copyChunks cs).code = w.code
  | [], _ => rfl
  | c :: cs, w => by
    rw [copyChunks]
    split
    · rw [code_copyChunks cs, code_write]
    · exact code_write w c

theorem code_serve {a : Attempt} (ha : a.status ≠ 0) : (w.serve a).code = a.status := by
  rw [serve, code_copyChunks]
  cases ht : w.tmp <;> simp [start, code, writeHeader, setHeader, ht, Srw.code, Tmp.code, Srw.writeHeader, ha]

theorem code_attempt {a : Attempt} (ha : a.status ≠ 0) : (w.attempt a).code = a.status := by
  have h := code_serve (w := w) ha
  cases ht : (w.serve a).tmp with
  | some t => simpa [attempt, sync, code, ht] using h
  | none => simp [attempt, sync, code, ht, Srw.setStatusCode, Srw.code] at h ⊢; grind

end Writers

theorem Attempt.status_ne_zero : ∀ a : Attempt, a.status ≠ 0
  | .failed => by decide
  | .response r => by have := r.status_ge; simp only [Attempt.status]; omega

theorem Attempt.chunks_eq_nil {a : Attempt} : a.copied = [] ↔ a.chunks = [] := by
  cases a with
  | failed => simp [copied, chunks]
  | response r =>
    refine ⟨fun h => List.eq_nil_iff_forall_not_mem.2 fun c hc => ?_, fun h => by simp [copied, h]⟩
    exact r.chunks_nonempty c hc (List.flatten_eq_nil_iff.1 h c hc)

/-! ## The whole loop -/

section Loop

variable {maxRetry : Int} {sessionId : String} {rounds : List Round} {numRetry : Int} {w : Writers} {out : Executed}

end Loop

/-! ## The cached path -/

namespace Tmp

/-- The chunks of one copy. -/
def writeAll (t : Tmp) (h : Header) (cs : List Bytes) : Tmp := cs.foldl (fun t c => t.write h c) t

theorem file_write (t : Tmp) (h : Header) (b : Bytes) : (t.write h b).file = t.file ++ b := by
  simp only [write, captureHeaders]
  split <;> rfl

theorem statusCode_write (t : Tmp) (h : Header) (b : Bytes) : (t.write h b).statusCode = t.statusCode := by
  simp only [write, captureHeaders]
  split <;> rfl

theorem captured_write {t : Tmp} (ht : t.headersCaptured = true) (h : Header) (b : Bytes) :
    (t.write h b).headersCaptured = true ∧ (t.write h b).contentType = t.contentType ∧
    (t.write h b).contentEncoding = t.contentEncoding := by
  simp [write, captureHeaders, ht]

theorem file_writeAll (h : Header) : ∀ (cs : List Bytes) (t : Tmp), (t.writeAll h cs).file = t.file ++ cs.flatten
  | [], t => by simp [writeAll]
  | c :: cs, t => by
    rw [writeAll, List.foldl_cons, ← writeAll, file_writeAll h cs, file_write]
    simp

theorem statusCode_writeAll (h : Header) : ∀ (cs : List Bytes) (t : Tmp), (t.writeAll h cs).statusCode = t.statusCode
  | [], _ => rfl
  | c :: cs, t => by rw [writeAll, List.foldl_cons, ← writeAll, statusCode_writeAll h cs, statusCode_write]

theorem captured_writeAll (h : Header) : ∀ (cs : List Bytes) {t : Tmp}, t.headersCaptured = true →
    (t.writeAll h cs).contentType = t.contentType ∧ (t.writeAll h cs).contentEncoding = t.contentEncoding
  | [], _, _ => ⟨rfl, rfl⟩
  | c :: cs, t, ht => by
    obtain ⟨h1, h2, h3⟩ := captured_write ht h c
    obtain ⟨h4, h5⟩ := captured_writeAll h cs h1
    rw [writeAll, List.foldl_cons, ← writeAll, h4, h5]
    exact ⟨h2, h3⟩

/-- The first chunk captures the headers as they are then. -/
theorem capture_writeAll {t : Tmp} (ht : t.headersCaptured = false) (h : Header) {cs : List Bytes} (hcs : cs ≠ []) :
    (t.writeAll h cs).contentType = h.get "Content-Type" ∧
    (t.writeAll h cs).contentEncoding = h.get "Content-Encoding" := by
  cases cs with
  | nil => exact absurd rfl hcs
  | cons c cs =>
    have hfirst : (t.write h c).headersCaptured = true ∧ (t.write h c).contentType = h.get "Content-Type" ∧
        (t.write h c).contentEncoding = h.get "Content-Encoding" := by
      simp [write, captureHeaders, ht]
    obtain ⟨h1, h2⟩ := captured_writeAll h cs hfirst.1
    rw [writeAll, List.foldl_cons, ← writeAll, h1, h2]
    exact hfirst.2

end Tmp

namespace Writers

theorem copyChunks_tmp : ∀ (cs : List Bytes) {w : Writers} {t : Tmp}, w.tmp = some t →
    w.copyChunks cs = { w with tmp := some (t.writeAll w.header cs) }
  | [], w, t, ht => by rw [copyChunks, Tmp.writeAll, List.foldl_nil, ← ht]
  | c :: cs, w, t, ht => by
    have hwrite : w.write c = ({ w with tmp := some (t.write w.header c) }, true) := by simp [write, ht]
    rw [copyChunks, hwrite, if_pos rfl, copyChunks_tmp cs rfl]
    rfl

/-- An attempt on the cached path: the header map collects, the file takes the status and the body. -/
theorem serve_tmp {w : Writers} {t : Tmp} (ht : w.tmp = some t) (a : Attempt) :
    w.serve a =
      ⟨w.srw.setHeader (w.header.copyFrom a.header),
        some ({ t with statusCode := a.status }.writeAll (w.header.copyFrom a.header) a.chunks)⟩ := by
  have hstart : w.start a = ⟨w.srw.setHeader (w.header.copyFrom a.header), some { t with statusCode := a.status }⟩ := by
    simp [start, writeHeader, setHeader, ht]
  rw [serve, hstart, copyChunks_tmp a.chunks rfl]
  rfl

theorem attempt_tmp {w : Writers} {t : Tmp} (ht : w.tmp = some t) (a : Attempt) :
    w.attempt a =
      ⟨(w.srw.setHeader (w.header.copyFrom a.header)).setStatusCode a.status,
        some ({ t with statusCode := a.status }.writeAll (w.header.copyFrom a.header) a.chunks)⟩ := by
  rw [attempt, sync, code_serve a.status_ne_zero, serve_tmp ht]

end Writers

/-! ## Short responses -/

/-- A response with a short body and no headers but its type. -/
def shortResponse (status : Int) (text type : String) (h1 : 100 ≤ status) (h2 : bytes text ≠ [])
    (h3 : bodyAllowed status = true) : Response where
  status := status
  header := Header.set ∅ "Content-Type" (bytes type)
  body := bytes text
  chunks := [bytes text]
  status_ge := h1
  cut := by simp
  chunks_nonempty := by simpa using h2
  allowed := fun _ => h3
  declared := fun n h => by
    rw [Header.get_set_of_ne _ _ (by decide), show Header.get ∅ "Content-Length" = [] from rfl] at h
    simp [declaredLength, Decimal.toInt?, Decimal.toNat?] at h

def okay : Response := shortResponse 200 "ok" "text/plain" (by decide) (by decide) (by decide)

def badGateway : Response := shortResponse 502 "bad" "text/html" (by decide) (by decide) (by decide)

end Chproxy.Proxy
