/-
The traces that failed attempts leave in the response of a retry (`executeWithRetry`, `proxy.go`): the same
writer is used for all attempts, so what the client receives, and on the cached path what is stored, is the
last attempt only under a condition on those before it.
-/
import Chproxy.Proxy.Retry

namespace Chproxy.Proxy

open Utils Routing Cache

/-! ## Copying to the client -/

namespace Conn

/-- `copyChunks` on the connection. -/
def copy : Conn → List Bytes → Conn
  | c, [] => c
  | c, b :: bs => if (c.write b).2 then copy (c.write b).1 bs else (c.write b).1

end Conn

namespace Writers

/-- Nothing has been sent to the client, and there is no writer in between. -/
structure Quiet (w : Writers) : Prop where
  tmp : w.tmp = none
  srw : w.srw.Quiet

/-- The status has been sent to the client. -/
def Sent (w : Writers) (status : Int) : Prop := w.tmp = none ∧ ∃ h, w.srw.conn.wire = some (status, h)

variable {w : Writers} {a : Attempt}

theorem start_eq (ht : w.tmp = none) (a : Attempt) :
    w.start a = ⟨(w.srw.setHeader (w.header.copyFrom a.header)).writeHeader a.status, none⟩ := by
  simp [start, writeHeader, setHeader, ht]

theorem Quiet.start (hq : w.Quiet) (a : Attempt) : (w.start a).Quiet := by
  rw [start_eq hq.tmp]
  exact ⟨rfl, hq.srw.respond _ _⟩

end Writers

/-! ## The response seen and the response made -/

/-- What the client sees is the response, as far as it was copied: status, `Content-Type` and
`Content-Encoding` with all their values, and body. -/
structure Seen.Shows (seen : Seen) (r : Response) : Prop where
  status : seen.status = r.status
  contentType : seen.header.values "Content-Type" = r.header.values "Content-Type"
  contentEncoding : seen.header.values "Content-Encoding" = r.header.values "Content-Encoding"
  body : seen.body = r.copied

/-- What the temporary file holds is the response, as far as it was copied. It keeps the first value of each
header. -/
structure Tmp.Holds (t : Tmp) (r : Response) : Prop where
  status : t.code = r.status
  contentType : t.contentType = r.header.get "Content-Type"
  contentEncoding : t.contentEncoding = r.header.get "Content-Encoding"
  body : t.file = r.copied

/-- The writers as `executeWithRetry` receives them: nothing sent, nothing captured, and no header of
the response set yet. -/
structure Writers.Fresh (w : Writers) : Prop where
  srw : w.srw.Quiet
  header : ∀ k ∈ ["Content-Type", "Content-Encoding", "Content-Length"], w.header.values k = []
  tmp : w.tmp = none ∨ w.tmp = some {}

/-- The response is delivered: directly, or, on the cached path, held in the file and delivered from
there by `RespondWithData`. -/
def Writers.Delivers (w : Writers) (r : Response) : Prop :=
  match w.tmp with
  | none => w.srw.conn.finish.Shows r
  | some t => t.Holds r ∧
    ∀ ttl cacheHit, ((w.srw.respondWithData t.file t.metadata ttl cacheHit t.code).1.conn.finish).Shows r

section Traces

variable {w : Writers} {earlier : List Attempt} {last : Response}

section Cached

variable {w₁ : Writers} {t : Tmp}

/-- The file after the last attempt. -/
def Tmp.after (t : Tmp) (h : Header) (last : Response) : Tmp :=
  { t with statusCode := last.status }.writeAll (h.copyFrom last.header) last.chunks

end Cached

end Traces

/-! ## Two attempts -/

end Chproxy.Proxy
