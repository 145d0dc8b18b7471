/-
The writers a response passes through: the writer of `net/http` with its header map, the
`statResponseWriter` (`io.go`) around it, and the `TmpFileResponseWriter` of the cached path. Header
values and bodies are bytes.

Of `net/http` it is assumed: the first `WriteHeader` sends the status and the header map as it is then;
a `Write` before it, or the return of the handler without it, sends 200; a `Write` fails when the status
has no body or when it exceeds the `Content-Length` sent; later header changes are not sent.
-/
import Chproxy.Cache.Metadata
import Chproxy.Routing.Objects
import Mathlib.Tactic

namespace Chproxy.Proxy

open Utils Routing Cache

/-! ## Headers -/

/-- `http.Header`, with canonical names. -/
abbrev Header := Map (List Bytes)

namespace Header

variable (h : Header) (k : String) (v : Bytes)

def values : List Bytes := (h.lookup k).getD []

def get : Bytes := (h.values k).headD []

def set : Header := h.insert k [v]

def add : Header := h.insert k (h.values k ++ [v])

def del : Header := h.erase k

@[simp] theorem values_set_self : (h.set k v).values k = [v] := by simp [values, set]

theorem values_set_of_ne {k j : String} (hj : j ≠ k) : (h.set k v).values j = h.values j := by
  simp [values, set, AList.lookup_insert_ne hj]

@[simp] theorem values_add_self : (h.add k v).values k = h.values k ++ [v] := by simp [values, add]

theorem values_add_of_ne {k j : String} (hj : j ≠ k) : (h.add k v).values j = h.values j := by
  simp [values, add, AList.lookup_insert_ne hj]

/-- `copyHeader` of `httputil`: every value is added. -/
def copyFrom (dst src : Header) : Header :=
  src.entries.foldl (fun d kv => kv.2.foldl (fun d v => d.add kv.1 v) d) dst

theorem values_foldl_add (j : String) : ∀ (vs : List Bytes) (d : Header),
    (vs.foldl (fun d v => d.add k v) d).values j = if j = k then d.values j ++ vs else d.values j
  | [], d => by simp
  | v :: vs, d => by
    rw [List.foldl_cons, values_foldl_add j vs]
    by_cases hj : j = k
    · subst hj; simp
    · simp [hj, values_add_of_ne d v hj]

theorem values_foldl_entries (j : String) : ∀ (es : List ((_ : String) × List Bytes)) (d : Header),
    es.NodupKeys → (es.foldl (fun d kv => kv.2.foldl (fun d v => d.add kv.1 v) d) d).values j =
      d.values j ++ (es.dlookup j).getD []
  | [], d, _ => by simp
  | ⟨k, vs⟩ :: es, d, hnd => by
    have hnd' := List.nodupKeys_cons.1 hnd
    rw [List.foldl_cons, values_foldl_entries j es _ hnd'.2, values_foldl_add]
    by_cases hj : j = k
    · subst hj
      have hnone : es.dlookup j = none := List.dlookup_eq_none.2 hnd'.1
      simp [hnone]
    · simp [hj, List.dlookup_cons_ne es ⟨k, vs⟩ hj]

theorem values_copyFrom (dst src : Header) (j : String) :
    (dst.copyFrom src).values j = dst.values j ++ src.values j :=
  values_foldl_entries j src.entries dst src.nodupKeys

end Header

/-! ## The writer of `net/http` -/

/-- A declared length: `strconv.ParseInt` of the first `Content-Length`, when not negative. -/
def declaredLength (cl : Bytes) : Option Nat :=
  match Decimal.toInt? cl with
  | some n => if 0 ≤ n ∧ n < 2 ^ 63 then some n.toNat else none
  | none => none

/-- `bodyAllowedForStatus`. -/
def bodyAllowed (status : Int) : Bool :=
  !(decide (100 ≤ status) && decide (status ≤ 199)) && status != 204 && status != 304

/-- The connection to the client: the live header map, what `WriteHeader` sent and the body. -/
structure Conn where
  header : Header
  wire : Option (Int × Header) := none
  limit : Option Nat := none
  written : Nat := 0
  body : Bytes := []

/-- What the client has received when the handler is done. -/
structure Seen where
  status : Int
  header : Header
  body : Bytes

namespace Conn

/-- The headers as they are sent: a `Content-Length` that is no length is removed. -/
def sentHeader (c : Conn) : Header :=
  let cl := c.header.get "Content-Length"
  if cl ≠ [] ∧ declaredLength cl = none then c.header.del "Content-Length" else c.header

def writeHeader (c : Conn) (code : Int) : Conn :=
  match c.wire with
  | some _ => c
  | none =>
    { c with
      header := c.sentHeader
      wire := some (code, c.sentHeader)
      limit := declaredLength (c.header.get "Content-Length") }

/-- The status sent, 200 by default. -/
def status (c : Conn) : Int := (c.wire.map Prod.fst).getD 200

/-- `Write`, and whether it succeeded. -/
def write (c : Conn) (b : Bytes) : Conn × Bool :=
  let c := c.writeHeader 200
  if b.length = 0 then (c, true)
  else if bodyAllowed c.status = false then (c, false)
  else
    let c := { c with written := c.written + b.length }
    if c.limit.any (· < c.written) then (c, false) else ({ c with body := c.body ++ b }, true)

def finish (c : Conn) : Seen :=
  let c := c.writeHeader 200
  ⟨c.status, (c.wire.map Prod.snd).getD c.header, c.body⟩

theorem sentHeader_of_declared {c : Conn} {n : Nat} (h : declaredLength (c.header.get "Content-Length") = some n) :
    c.sentHeader = c.header := by
  simp [sentHeader, h]

theorem writeHeader_of_wire {c : Conn} {x : Int × Header} (h : c.wire = some x) (code : Int) :
    c.writeHeader code = c := by
  simp [writeHeader, h]

theorem wire_write {c : Conn} {x : Int × Header} (h : c.wire = some x) (b : Bytes) : (c.write b).1.wire = some x := by
  simp only [write, writeHeader_of_wire h]
  repeat' split
  all_goals exact h

theorem finish_of_wire {c : Conn} {status : Int} {h : Header} (hw : c.wire = some (status, h)) :
    c.finish = ⟨status, h, c.body⟩ := by
  simp [finish, writeHeader, Conn.status, hw]

theorem finish_of_none {c : Conn} (hw : c.wire = none) : c.finish = ⟨200, c.sentHeader, c.body⟩ := by
  simp [finish, writeHeader, Conn.status, hw]

end Conn

/-! ## `statResponseWriter` -/

/-- `statResponseWriter`; a zero `statusCode` is unset. -/
structure Srw where
  conn : Conn
  statusCode : Int := 0
  wroteHeader : Bool := false

namespace Srw

/-- Changes through `Header()`. -/
def setHeader (rw : Srw) (h : Header) : Srw := { rw with conn := { rw.conn with header := h } }

def setStatusCode (rw : Srw) (code : Int) : Srw := { rw with statusCode := code }

/-- `StatusCode()`. -/
def code (rw : Srw) : Int := if rw.statusCode = 0 then 200 else rw.statusCode

/-- The status is kept, to have the opportunity to change it further on. -/
def writeHeader (rw : Srw) (statusCode : Int) : Srw := { rw with statusCode := statusCode }

def write (rw : Srw) (b : Bytes) : Srw × Bool :=
  let conn := if rw.wroteHeader then rw.conn else rw.conn.writeHeader rw.code
  let res := conn.write b
  ({ conn := res.1, statusCode := rw.code, wroteHeader := true }, res.2)

/-- `respondWith`: the status, then the text of the error and a line feed. -/
def respondWith (rw : Srw) (err : Bytes) (status : Int) : Srw := ((rw.writeHeader status).write (err ++ [10])).1

end Srw

/-! ## `TmpFileResponseWriter` -/

/-- The own fields of `TmpFileResponseWriter`; `file` is the buffered and the flushed part together. -/
structure Tmp where
  contentType : Bytes := []
  contentEncoding : Bytes := []
  headersCaptured : Bool := false
  statusCode : Int := 0
  file : Bytes := []

namespace Tmp

/-- `StatusCode()`. -/
def code (rw : Tmp) : Int := if rw.statusCode = 0 then 200 else rw.statusCode

/-- `captureHeaders`, from the header map of the wrapped writer. -/
def captureHeaders (rw : Tmp) (h : Header) : Tmp :=
  if rw.headersCaptured then rw
  else
    { rw with
      headersCaptured := true, contentType := h.get "Content-Type", contentEncoding := h.get "Content-Encoding" }

def write (rw : Tmp) (h : Header) (b : Bytes) : Tmp :=
  let rw := rw.captureHeaders h
  { rw with file := rw.file ++ b }

end Tmp

/-- The metadata `serveFromCache` makes of what was captured. -/
def Tmp.metadata (rw : Tmp) : ContentMetadata := ⟨rw.file.length, rw.contentType, rw.contentEncoding⟩

/-! ## `RespondWithData` -/

/-- `X-Cache`. -/
inductive XCache
  | hit
  | miss
  | na
  deriving DecidableEq, Repr

def XCache.text : XCache → Bytes
  | .hit => bytes "HIT"
  | .miss => bytes "MISS"
  | .na => bytes "N/A"

/-- `h.Set` unless the value is empty. -/
def Header.setNonempty (h : Header) (k : String) (v : Bytes) : Header := if 0 < v.length then h.set k v else h

/-- The headers `RespondWithData` sets; `ttl` in nanoseconds. -/
def respondHeader (h : Header) (metadata : ContentMetadata) (ttl : Int) (cacheHit : XCache) : Header :=
  let h := (h.setNonempty "Content-Type" metadata.type).setNonempty "Content-Encoding" metadata.encoding
  let h := h.set "Content-Length" (Decimal.ofInt metadata.length)
  let h := if 0 < ttl then h.set "Cache-Control" (bytes "max-age=" ++ Decimal.ofInt (ttl / 1000000000)) else h
  h.set "X-Cache" cacheHit.text

/-- `RespondWithData`, and whether the copy succeeded. The data goes out in chunks that `Write` joins
again, so it is written as one, unless there is none. -/
def Srw.respondWithData (rw : Srw) (data : Bytes) (metadata : ContentMetadata) (ttl : Int) (cacheHit : XCache)
    (statusCode : Int) : Srw × Bool :=
  let rw := (rw.setHeader (respondHeader rw.conn.header metadata ttl cacheHit)).writeHeader statusCode
  if data = [] then (rw, true) else rw.write data

/-! ## What `RespondWithData` sends -/

theorem Header.get_set_of_ne (h : Header) {k j : String} (v : Bytes) (hj : j ≠ k) : (h.set k v).get j = h.get j := by
  simp only [Header.get, Header.values_set_of_ne h v hj]

theorem Header.values_setNonempty_self (h : Header) (k : String) (v : Bytes) :
    (h.setNonempty k v).values k = if v = [] then h.values k else [v] := by
  cases v with
  | nil => rfl
  | cons b v => simp [setNonempty]

theorem Header.values_setNonempty_of_ne (h : Header) {k j : String} (v : Bytes) (hj : j ≠ k) :
    (h.setNonempty k v).values j = h.values j := by
  unfold setNonempty
  split
  · exact Header.values_set_of_ne h v hj
  · rfl

section RespondHeader

variable (h : Header) (metadata : ContentMetadata) (ttl : Int) (cacheHit : XCache)

theorem values_respondHeader_tail (h : Header) {k : String} (h1 : k ≠ "Cache-Control") (h2 : k ≠ "X-Cache") :
    ((if 0 < ttl then h.set "Cache-Control" (bytes "max-age=" ++ Decimal.ofInt (ttl / 1000000000)) else h).set
      "X-Cache" cacheHit.text).values k = h.values k := by
  rw [Header.values_set_of_ne _ _ h2]
  split
  · exact Header.values_set_of_ne _ _ h1
  · rfl

theorem respondHeader_contentLength :
    (respondHeader h metadata ttl cacheHit).values "Content-Length" = [Decimal.ofInt metadata.length] := by
  unfold respondHeader
  dsimp only
  rw [values_respondHeader_tail _ _ _ (by decide) (by decide), Header.values_set_self]

theorem respondHeader_contentType : (respondHeader h metadata ttl cacheHit).values "Content-Type" =
    if metadata.type = [] then h.values "Content-Type" else [metadata.type] := by
  unfold respondHeader
  dsimp only
  rw [values_respondHeader_tail _ _ _ (by decide) (by decide), Header.values_set_of_ne _ _ (by decide),
    Header.values_setNonempty_of_ne _ _ (by decide), Header.values_setNonempty_self]

theorem respondHeader_contentEncoding : (respondHeader h metadata ttl cacheHit).values "Content-Encoding" =
    if metadata.encoding = [] then h.values "Content-Encoding" else [metadata.encoding] := by
  unfold respondHeader
  dsimp only
  rw [values_respondHeader_tail _ _ _ (by decide) (by decide), Header.values_set_of_ne _ _ (by decide),
    Header.values_setNonempty_self, Header.values_setNonempty_of_ne _ _ (by decide)]

end RespondHeader

theorem declaredLength_ofNat {n : Nat} (h : n < 2 ^ 63) : declaredLength (Decimal.ofInt n) = some n := by
  rw [declaredLength, Decimal.toInt?_ofInt]
  simp only
  rw [if_pos ⟨by omega, by omega⟩]
  simp

theorem declaredLength_ofInt {n m : Nat} (h : declaredLength (Decimal.ofInt n) = some m) : m = n := by
  simp only [declaredLength, Decimal.toInt?_ofInt] at h
  split at h
  · simpa using h.symm
  · cases h

/-- Nothing has been sent to the client. -/
structure Srw.Quiet (rw : Srw) : Prop where
  wire : rw.conn.wire = none
  written : rw.conn.written = 0
  body : rw.conn.body = []
  wroteHeader : rw.wroteHeader = false

theorem Srw.Quiet.respond {rw : Srw} (hq : rw.Quiet) (h : Header) (status : Int) :
    ((rw.setHeader h).writeHeader status).Quiet :=
  ⟨hq.wire, hq.written, hq.body, hq.wroteHeader⟩

/-- The first `Write` on a quiet writer sends the status kept so far. -/
theorem Srw.write_quiet {rw : Srw} (hq : rw.Quiet) {b : Bytes} (hb : b ≠ []) (hallowed : bodyAllowed rw.code = true)
    (hlimit : ∀ n, declaredLength (rw.conn.header.get "Content-Length") = some n → b.length ≤ n) :
    rw.write b =
      ({ conn := { rw.conn.writeHeader rw.code with written := b.length, body := b }, statusCode := rw.code,
         wroteHeader := true }, true) := by
  obtain ⟨hwire, hwritten, hbody, hwrote⟩ := hq
  have hlen : b.length ≠ 0 := fun h => hb (List.length_eq_zero_iff.1 h)
  have hfits : (declaredLength (rw.conn.header.get "Content-Length")).any (· < b.length) = false := by
    cases hd : declaredLength (rw.conn.header.get "Content-Length") with
    | none => rfl
    | some n => have := hlimit n hd; simpa using this
  simp [Srw.write, hwrote, Conn.write, Conn.writeHeader, Conn.status, hwire, hlen, hallowed, hwritten, hfits, hbody]

theorem Srw.finish_write {rw : Srw} (hq : rw.Quiet) {b : Bytes} (hb : b ≠ []) (hallowed : bodyAllowed rw.code = true)
    (hlimit : ∀ n, declaredLength (rw.conn.header.get "Content-Length") = some n → b.length ≤ n) :
    (rw.write b).1.conn.finish = ⟨rw.code, rw.conn.sentHeader, b⟩ := by
  rw [Srw.write_quiet hq hb hallowed hlimit]
  exact Conn.finish_of_wire (by simp [Conn.writeHeader, hq.wire])

/-- `RespondWithData` on a quiet writer, with the metadata of the data: the copy succeeds and the data
arrives whole with the status, except that without data the status stays 200. -/
theorem Srw.respondWithData_quiet {rw : Srw} (hq : rw.Quiet) {data : Bytes} {status : Int} (hstatus : status ≠ 0)
    (hbody : data ≠ [] → bodyAllowed status = true) (type encoding : Bytes) (ttl : Int) (cacheHit : XCache) :
    (rw.respondWithData data ⟨data.length, type, encoding⟩ ttl cacheHit status).2 = true ∧
    (rw.respondWithData data ⟨data.length, type, encoding⟩ ttl cacheHit status).1.conn.finish =
      ⟨if data = [] then 200 else status,
        (rw.setHeader (respondHeader rw.conn.header ⟨data.length, type, encoding⟩ ttl cacheHit)).conn.sentHeader,
          data⟩ := by
  let rw' := (rw.setHeader (respondHeader rw.conn.header ⟨data.length, type, encoding⟩ ttl cacheHit)).writeHeader status
  have hq' : rw'.Quiet := hq.respond _ _
  have hcode : rw'.code = status := by simp [rw', Srw.code, Srw.writeHeader, hstatus]
  unfold respondWithData
  by_cases hd : data = []
  · simp only [hd, if_true]
    -- nothing is written, so that the server sends its default status
    refine ⟨trivial, ?_⟩
    subst hd
    rw [Conn.finish_of_none hq'.wire, hq'.body]
    rfl
  · -- the declared length is that of the data
    have hlimit : ∀ n, declaredLength (rw'.conn.header.get "Content-Length") = some n → data.length ≤ n := by
      intro n hn
      have hcl : rw'.conn.header.get "Content-Length" = Decimal.ofInt (data.length : Int) := by
        rw [Header.get]
        exact congrArg (List.headD · []) (respondHeader_contentLength ..)
      rw [hcl] at hn
      exact (declaredLength_ofInt hn).ge
    have hallowed : bodyAllowed rw'.code = true := by rw [hcode]; exact hbody hd
    simp only [hd, if_false]
    constructor
    · exact congrArg Prod.snd (Srw.write_quiet hq' hd hallowed hlimit)
    · have := Srw.finish_write hq' hd hallowed hlimit
      rw [hcode] at this
      exact this

end Chproxy.Proxy
