/-
The status the client receives. The `statResponseWriter` (`io.go`) keeps a status until the first `Write`;
the writer of `net/http` below it sends 200 when the handler returns without a status, sends a status from
100 to 199 other than 101 at once and still waits for the final one, and panics on a status that has not
three digits.
-/
import Chproxy.Proxy.Writer

namespace Chproxy.Proxy

open Utils

/-! ## The response of `net/http` -/

/-- `http.response`, as far as the status is concerned. -/
structure HttpResponse where
  wroteHeader : Bool := false
  status : Int := 0
  informational : List Int := []
  deriving DecidableEq, Repr

namespace HttpResponse

/-- `WriteHeader`; `none` is a panic. -/
def writeHeader (w : HttpResponse) (code : Int) : Option HttpResponse :=
  if w.wroteHeader then some w
  else if code < 100 ∨ 999 < code then none
  else if code ≤ 199 ∧ code ≠ 101 then some { w with informational := w.informational ++ [code] }
  else some { w with wroteHeader := true, status := code }

/-- `Write` sends 200 when there is no status yet, and so does the return of the handler. -/
def withStatus (w : HttpResponse) : HttpResponse :=
  if w.wroteHeader then w else { w with wroteHeader := true, status := 200 }

end HttpResponse

/-! ## Calls on a `statResponseWriter` -/

inductive WriterCall
  | writeHeader (statusCode : Int)
  | setStatusCode (code : Int)
  | write (b : Bytes)
  deriving DecidableEq, Repr

/-- `statResponseWriter` over it; a zero `statusCode` is unset. -/
structure StatWriter where
  inner : HttpResponse := {}
  statusCode : Int := 0
  wroteHeader : Bool := false
  deriving DecidableEq, Repr

namespace StatWriter

/-- `StatusCode()`. -/
def code (rw : StatWriter) : Int := if rw.statusCode = 0 then 200 else rw.statusCode

def write (rw : StatWriter) : Option StatWriter :=
  (if rw.wroteHeader then some rw.inner else rw.inner.writeHeader rw.code).map fun inner =>
    { inner := inner.withStatus, statusCode := rw.code, wroteHeader := true }

def call (rw : StatWriter) : WriterCall → Option StatWriter
  | .writeHeader statusCode => some { rw with statusCode := statusCode }
  | .setStatusCode code => some { rw with statusCode := code }
  | .write _ => rw.write

/-- The calls of a handler, up to a panic. -/
def run : StatWriter → List WriterCall → Option StatWriter
  | rw, [] => some rw
  | rw, c :: cs => (rw.call c).bind (run · cs)

/-- The status the client receives when the handler has made its calls; none when it panicked, for then the
connection is closed. -/
def received (rw : StatWriter) (calls : List WriterCall) : Option Int :=
  (rw.run calls).map fun rw => rw.inner.withStatus.status

end StatWriter

/-! ## The status set -/

def WriterCall.isWrite : WriterCall → Bool
  | .write _ => true
  | _ => false

/-- The last status set before the first `Write`. -/
def lastSet : List WriterCall → Option Int
  | [] => none
  | .writeHeader c :: cs => some ((lastSet cs).getD c)
  | .setStatusCode c :: cs => some ((lastSet cs).getD c)
  | .write _ :: _ => none

/-- What the first `Write` makes of the status kept. -/
def sentStatus (statusCode : Int) : Option Int :=
  let code := if statusCode = 0 then 200 else statusCode
  if code < 100 ∨ 999 < code then none else if code ≤ 199 ∧ code ≠ 101 then some 200 else some code

namespace StatWriter

/-- Once the header is written, the status stays. -/
theorem received_of_wroteHeader : ∀ (calls : List WriterCall) {rw : StatWriter}, rw.wroteHeader = true →
    rw.inner.wroteHeader = true → rw.received calls = some rw.inner.status
  | [], rw, _, hinner => by simp [received, run, HttpResponse.withStatus, hinner]
  | c :: cs, rw, hrw, hinner => by
    have hcall : ∃ statusCode, rw.call c = some { rw with statusCode := statusCode } := by
      cases c with
      | writeHeader statusCode => exact ⟨statusCode, rfl⟩
      | setStatusCode code => exact ⟨code, rfl⟩
      | write b =>
        refine ⟨rw.code, ?_⟩
        simp [call, write, hrw, HttpResponse.withStatus, hinner]
    obtain ⟨statusCode, hcall⟩ := hcall
    have ih := @received_of_wroteHeader cs { rw with statusCode := statusCode } hrw hinner
    rw [received, run, hcall]
    exact ih

theorem received_write (statusCode : Int) (b : Bytes) (calls : List WriterCall) :
    received { statusCode := statusCode } (.write b :: calls) = sentStatus statusCode := by
  let rw₀ : StatWriter := { statusCode := statusCode }
  have hcall : rw₀.call (.write b) = (HttpResponse.writeHeader {} rw₀.code).map fun inner =>
      { inner := inner.withStatus, statusCode := rw₀.code, wroteHeader := true } := rfl
  show (((rw₀.call (.write b)).bind (run · calls)).map fun rw => rw.inner.withStatus.status) =
    if rw₀.code < 100 ∨ 999 < rw₀.code then none
    else if rw₀.code ≤ 199 ∧ rw₀.code ≠ 101 then some 200 else some rw₀.code
  rw [hcall, HttpResponse.writeHeader, if_neg Bool.false_ne_true]
  by_cases hpanic : rw₀.code < 100 ∨ 999 < rw₀.code
  · rw [if_pos hpanic, if_pos hpanic]
    rfl
  rw [if_neg hpanic, if_neg hpanic]
  by_cases hinfo : rw₀.code ≤ 199 ∧ rw₀.code ≠ 101
  · rw [if_pos hinfo, if_pos hinfo]
    exact received_of_wroteHeader calls rfl rfl
  · rw [if_neg hinfo, if_neg hinfo]
    exact received_of_wroteHeader calls rfl rfl

/-- The status received is decided at the first `Write`; without one it is 200. -/
theorem received_eq : ∀ (calls : List WriterCall) (statusCode : Int),
    received { statusCode := statusCode } calls =
      if calls.any WriterCall.isWrite then sentStatus ((lastSet calls).getD statusCode) else some 200
  | [], statusCode => rfl
  | .writeHeader c :: calls, statusCode => (received_eq calls c).trans (by simp [WriterCall.isWrite, lastSet])
  | .setStatusCode c :: calls, statusCode => (received_eq calls c).trans (by simp [WriterCall.isWrite, lastSet])
  | .write b :: calls, statusCode => by simp [received_write, WriterCall.isWrite, lastSet]

end StatWriter

/-- A status that is sent as it is set: 101, or one from 200 to 999. -/
def FinalStatus (code : Int) : Prop := code = 101 ∨ (200 ≤ code ∧ code ≤ 999)

theorem sentStatus_eq_iff (code : Int) : sentStatus code = some code ↔ FinalStatus code := by
  unfold sentStatus FinalStatus
  by_cases hzero : code = 0
  · subst hzero
    decide
  simp only [if_neg hzero]
  constructor
  · intro h
    split at h
    · cases h
    split at h
    · have heq := Option.some.inj h
      omega
    · omega
  · intro h
    rw [if_neg (by omega), if_neg (by omega)]

/-- The client receives the status set last before the first `Write` exactly when there is a `Write` and
that status is a final one, or when there is no `Write` and that status is 200. -/
theorem status_received_iff (calls : List WriterCall) :
    StatWriter.received {} calls = some ((lastSet calls).getD 200) ↔
      ∀ code, lastSet calls = some code →
        if calls.any WriterCall.isWrite then FinalStatus code else code = 200 := by
  rw [StatWriter.received_eq calls 0]
  cases hset : lastSet calls with
  | none =>
    refine iff_of_true ?_ nofun
    split <;> rfl
  | some code =>
    simp only [Option.getD_some, Option.some.injEq, forall_eq']
    split
    · exact sentStatus_eq_iff code
    · rw [Option.some.injEq, eq_comm]

/-- A response of status 500 with an empty body: the reverse proxy sets the status and writes nothing, and
the client receives 200. -/
theorem empty_body_status_lost :
    lastSet [.writeHeader 500] = some 500 ∧ StatWriter.received {} [.writeHeader 500] = some 200 ∧
      StatWriter.received {} [.writeHeader 500] ≠ some ((lastSet [.writeHeader 500]).getD 200) := by decide

/-! ## The status of the whole response -/

namespace Srw

/-- The same calls on the writer with its headers and body, for which every status is a final one. -/
def call (rw : Srw) : WriterCall → Srw
  | .writeHeader statusCode => rw.writeHeader statusCode
  | .setStatusCode code => rw.setStatusCode code
  | .write b => (rw.write b).1

theorem status_of_wroteHeader : ∀ (calls : List WriterCall) {rw : Srw} {status : Int} {h : Header},
    rw.wroteHeader = true → rw.conn.wire = some (status, h) → (calls.foldl call rw).conn.finish.status = status
  | [], rw, status, h, _, hwire => by rw [List.foldl_nil, Conn.finish_of_wire hwire]
  | c :: cs, rw, status, h, hrw, hwire => by
    refine status_of_wroteHeader cs (h := h) ?_ ?_
    · cases c <;> first | exact hrw | rfl
    · cases c with
      | writeHeader statusCode => exact hwire
      | setStatusCode code => exact hwire
      | write b =>
        show ((if rw.wroteHeader then rw.conn else rw.conn.writeHeader rw.code).write b).1.wire = _
        rw [if_pos hrw]
        exact Conn.wire_write hwire b

theorem status_calls : ∀ (calls : List WriterCall) {rw : Srw}, rw.wroteHeader = false → rw.conn.wire = none →
    (calls.foldl call rw).conn.finish.status =
      if calls.any WriterCall.isWrite then ({ rw with statusCode := (lastSet calls).getD rw.statusCode } : Srw).code
      else 200
  | [], rw, _, hwire => by rw [List.foldl_nil, Conn.finish_of_none hwire]; rfl
  | .writeHeader c :: calls, rw, hrw, hwire =>
    (@status_calls calls (rw.writeHeader c) hrw hwire).trans (by simp [WriterCall.isWrite, lastSet, writeHeader])
  | .setStatusCode c :: calls, rw, hrw, hwire =>
    (@status_calls calls (rw.setStatusCode c) hrw hwire).trans
      (by simp [WriterCall.isWrite, lastSet, setStatusCode])
  | .write b :: calls, rw, hrw, hwire => by
    have hsent : (rw.conn.writeHeader rw.code).wire = some (rw.code, rw.conn.sentHeader) := by
      simp [Conn.writeHeader, hwire]
    have hwire' : (rw.call (.write b)).conn.wire = some (rw.code, rw.conn.sentHeader) := by
      show ((if rw.wroteHeader then rw.conn else rw.conn.writeHeader rw.code).write b).1.wire = _
      rw [hrw, if_neg Bool.false_ne_true]
      exact Conn.wire_write hsent b
    rw [List.foldl_cons, status_of_wroteHeader calls rfl hwire']
    simp [WriterCall.isWrite, lastSet]

end Srw

/-- For the statuses of a final response the two models of the writer agree. -/
theorem received_eq_finish (header : Header) {calls : List WriterCall}
    (h : ∀ code, lastSet calls = some code → 200 ≤ code ∧ code ≤ 999) :
    StatWriter.received {} calls = some (calls.foldl Srw.call { conn := { header := header } }).conn.finish.status := by
  rw [StatWriter.received_eq calls 0, Srw.status_calls calls rfl rfl]
  split
  · cases hset : lastSet calls with
    | none => rfl
    | some code =>
      obtain ⟨hlo, hhi⟩ := h code hset
      have hzero : code ≠ 0 := by omega
      show sentStatus code = some (if code = 0 then 200 else code)
      rw [(sentStatus_eq_iff code).2 (.inr ⟨hlo, hhi⟩), if_neg hzero]
  · rfl

end Chproxy.Proxy
