/-
The body of a request on its way through the handler (`ServeHTTP`, `proxyRequest`, `executeWithRetry` in `proxy.go`
and what reads it in `utils.go`). It is read for the size of the packet, for the key of the cache and for the
attempts, and again for each text that quotes the query; each time `req.Body` is replaced by another reader, and the
last kind of reading leaves the beginning only. ClickHouse nevertheless gets, at every attempt, what the client sent.
-/
import Chproxy.Proxy.CacheKey
import Chproxy.Proxy.QuerySnippet
import Chproxy.Proxy.Retry

namespace Chproxy.Proxy.RequestBody

open Utils Routing

/-! ## Readers -/

/-- What `req.Body` can be: the connection, which may break off after some bytes; bytes in memory, as an
`io.NopCloser`; a `statReadCloser`; a `cachedReadCloser` with what it has kept. -/
inductive BodyReader
  | conn (left : Bytes) (breaks : Bool)
  | buffer (left : Bytes)
  | stat (inner : BodyReader)
  | cached (inner : BodyReader) (b : Bytes)

namespace BodyReader

/-- `io.ReadAll`, and `io.Copy` to the end: what is read, whether an error ended it, and the reader afterwards. -/
def readAll : BodyReader → Bytes × Bool × BodyReader
  | conn left breaks => (left, breaks, conn [] breaks)
  | buffer left => (left, false, buffer [])
  | stat inner =>
    let (data, broken, inner) := inner.readAll
    (data, broken, stat inner)
  | cached inner b =>
    let (data, broken, inner) := inner.readAll
    (data, broken, cached inner (CachedReadCloser.keep b data))

/-- `req.Body.(*cachedReadCloser)`, or a new one around the body. -/
def wrapped : BodyReader → BodyReader
  | cached inner b => cached inner b
  | r => cached r []

/-- `crc.String()`. -/
def kept : BodyReader → Bytes
  | cached _ b => b
  | _ => []

end BodyReader

/-- A request as the handler has it; the body of `msg` is not used. -/
structure Req where
  msg : Request
  body : BodyReader

/-! ## Reading the query -/

/-- What the decompressors return: the bytes, and whether there was no error. -/
structure Decompressors where
  gunzip : Bytes → Bytes × Bool
  chDecompress : Bytes → Bytes × Bool

/-- Without the bytes that precede an error. -/
def whole (res : Bytes × Bool) : Option Bytes := if res.2 then some res.1 else none

def Decompressors.codec (d : Decompressors) : Codec :=
  ⟨fun data => whole (d.gunzip data), fun data => whole (d.chDecompress data)⟩

section Queries

variable (d : Decompressors)

def getFullQueryFromBody (req : Req) : Option Bytes × Req :=
  let (data, broken, rest) := req.body.readAll
  if broken then (none, { req with body := rest })
  else (decompress d.codec req.msg data, { req with body := .buffer data })

/-- The two parts of a query, on lines of their own. -/
def joinQuery (query body : Bytes) : Bytes := query ++ (if query.length ≠ 0 ∧ body.length ≠ 0 then [10] else []) ++ body

def getFullQuery (req : Req) : Option Bytes × Req :=
  let (body, req) := getFullQueryFromBody d req
  (body.map (joinQuery (bytes (req.msg.query.get "query"))), req)

/-- What `u.decompress` gives of data that may be cut off. -/
def salvage (res : Bytes × Bool) (data : Bytes) : Bytes :=
  if res.2 then res.1
  -- better partially decompressed data than none, and compressed data than none
  else if 0 < res.1.length then res.1
  else data

def salvageQuery (msg : Request) (data : Bytes) : Bytes :=
  if msg.header.get "Content-Encoding" = "gzip" then salvage (d.gunzip data) data
  else if msg.query.get "decompress" = "1" then salvage (d.chDecompress data) data
  else data

def getQuerySnippetFromBody (req : Req) : Bytes × Req :=
  let crc := req.body.wrapped.readAll.2.2
  -- of a long body only the beginning is left to be read
  (salvageQuery d req.msg crc.kept, { req with body := .buffer crc.kept })

def getQuerySnippet (req : Req) : Bytes × Req :=
  let (body, req) := getQuerySnippetFromBody d req
  (joinQuery (bytes (req.msg.query.get "query")) body, req)

def shouldRespondFromCache (s : Scope) (origParams : Values) (req : Req) : Option (Bytes × Bool) × Req :=
  if s.user.cache.isNone then (some ([], false), req)
  else
    let noCache := origParams.get "no_cache"
    if noCache = "1" ∨ noCache = "true" then (some ([], false), req)
    else
      let (q, req) := getFullQuery d req
      (q.map fun q => (q, canCacheQuery q), req)

/-! ## Attempts -/

/-- A round, and what its attempt leaves of the body. -/
structure Turn where
  round : Round
  unread : BodyReader

/-- What the attempts could read, the queries quoted meanwhile, the error returned and the request. -/
structure Tried where
  sent : List Bytes
  quoted : List Bytes
  err : Option CtxErr
  req : Req

/-- The loop of `executeWithRetry`, with as many rounds as it needs; `none` when they do not suffice. -/
def attempts (maxRetry : Int) (sessionId : String) (body : Bytes) : Int → List Turn → Req → Option Tried
  | _, [], _ => none
  | numRetry, t :: turns, req =>
    let sent := req.body.readAll.1
    let req := { req with body := t.unread }
    -- restore req.Body after it's consumed by 'rp'
    let req := { req with body := .buffer body }
    match t.round.ctxErr with
    | some e => some ⟨[sent], [], some e, req⟩
    | none =>
      if t.round.attempt.status = statusBadGateway then
        if numRetry < maxRetry ∧ t.round.nextActive = true ∧ sessionId = "" then
          (attempts maxRetry sessionId body (numRetry + 1) turns req).map fun out =>
            { out with sent := sent :: out.sent }
        else
          let (q, req) := getQuerySnippet d req
          some ⟨[sent], [q], none, req⟩
      else some ⟨[sent], [], none, req⟩

/-- What a call of `proxyRequest` sends and quotes, whether it panics, and the request of the caller. -/
structure Proxied where
  sent : List Bytes
  quoted : List Bytes
  panics : Bool
  req : Req

/-- `proxyRequest` and the beginning of `executeWithRetry`. They work on a copy of the request (`WithContext`), so
what they put into its `Body` is not seen by the caller; the reader that the body was read from is. -/
def proxyRequest (s : Scope) (sessionId : String) (turns : List Turn) (req : Req) : Option Proxied :=
  let req := { req with body := req.body.wrapped }
  let (body, broken, rest) := req.body.readAll
  -- the error of `readAndRestoreRequestBody` is none of a context
  if broken then some ⟨[], [], true, { req with body := rest }⟩
  else (attempts d s.cluster.retryNumber.toInt sessionId body 0 turns { req with body := .buffer body }).map fun out =>
    match out.err with
    | none => ⟨out.sent, out.quoted, false, { req with body := rest }⟩
    | some _ => ⟨out.sent, out.quoted ++ [(getQuerySnippet d out.req).1], false, { req with body := rest }⟩

end Queries

/-! ## `serveFromCache` -/

/-- The operations of `serveFromCache` after a miss that fail: on the transaction (`create`, `resolve`), on the
temporary file (`length`, `reader`, `reset`), on the cache and on the connection. -/
structure Faults where
  create : Bool := false
  length : Bool := false
  reader : Bool := false
  put : Bool := false
  resolve : Bool := false
  reset : Bool := false
  send : Bool := false

/-- What is done with a response: it is not cached for its status or since the request was canceled, or for its
size, or it is cached. -/
inductive Storing
  | refused
  | tooLarge
  | cached

/-- How `serveFromCache` goes: it answers from the cache or with the failure of a concurrent query, it gets no
temporary file, or it proxies the request. -/
inductive CacheCourse
  | answered
  | noTmp
  | proxied (storing : Storing) (faults : Faults)

/-- A text that quotes the query, if the operation has failed. -/
def quoteIf (failed : Bool) (q : Bytes) : List Bytes := if failed then [q] else []

/-- The queries quoted by `serveFromCache` and `completeTransaction` after `proxyRequest`. -/
def quotedAfter (q : Bytes) (faults : Faults) (storing : Storing) : List Bytes :=
  if faults.length || faults.reader then [q]
  else match storing with
    | .refused => quoteIf faults.resolve q ++ quoteIf (faults.reset || faults.send) q
    | .tooLarge => quoteIf faults.resolve q ++ quoteIf faults.send q
    | .cached => quoteIf faults.put q ++ quoteIf faults.resolve q ++ quoteIf (faults.reset || faults.send) q

/-! ## `ServeHTTP` -/

/-- What the rest of the handler decides: the scope that `getScope` finds or the status it refuses with, whether
`incQueued` admits the request, how `serveFromCache` goes, and how the attempts do. -/
structure Course where
  scope : Except Int Scope
  sessionId : String
  admitted : Bool
  caching : CacheCourse
  turns : List Turn

inductive Outcome
  | refused (status : Int)
  | served
  | panicked
  deriving DecidableEq, Repr

/-- What the attempts of a request could read, every query that is quoted, by its beginning or in full, and how the
request ends. -/
structure Handled where
  sent : List Bytes
  quoted : List Bytes
  full : List Bytes
  outcome : Outcome

/-- An error that quotes the query. -/
def refuse (d : Decompressors) (req : Req) (status : Int) : Handled :=
  ⟨[], [(getQuerySnippet d req).1], [], .refused status⟩

/-- `proxyRequest` and the line of the log at the end, with the queries quoted in full before and after the call. -/
def serveProxied (d : Decompressors) (course : Course) (s : Scope) (req : Req) (before after : List Bytes) :
    Option Handled :=
  (proxyRequest d s course.sessionId course.turns req).map fun out =>
    if out.panics then ⟨out.sent, out.quoted, before, .panicked⟩
    else ⟨out.sent, out.quoted ++ [(getQuerySnippet d out.req).1], before ++ after, .served⟩

/-- From the statistics on, for a request that has been admitted. -/
def serveAdmitted (d : Decompressors) (course : Course) (s : Scope) (req : Req) : Option Handled :=
  let req := { req with body := .stat req.body }
  let (msg, origParams) := decorateRequest s req.msg
  match shouldRespondFromCache d s origParams ⟨msg, .cached req.body []⟩ with
  | (none, _) => some ⟨[], [], [], .refused 400⟩
  | (some (q, cacheable), req) =>
    if cacheable then
      -- every branch but a panic ends with the line of the log, which quotes the beginning
      match course.caching with
      | .answered => some ⟨[], [(getQuerySnippet d req).1], [], .served⟩
      | .noTmp => some ⟨[], [(getQuerySnippet d req).1], [q], .served⟩
      | .proxied storing faults =>
        serveProxied d course s req (quoteIf faults.create q) (quotedAfter q faults storing)
    else serveProxied d course s req [] []

def serveHTTP (d : Decompressors) (course : Course) (req : Req) : Option Handled :=
  match course.scope with
  | .error status => some (refuse d req status)
  | .ok s =>
    match getFullQuery d req with
    | (none, req) => some (refuse d req 400)
    | (some _, req) => if course.admitted then serveAdmitted d course s req else some (refuse d req 429)

/-! ## What a reader holds -/

namespace BodyReader

/-- These bytes can be read, to the end. -/
structure Holds (r : BodyReader) (data : Bytes) : Prop where
  read : r.readAll.1 = data
  ends : r.readAll.2.1 = false

/-- A body that nothing has been kept of yet. -/
def Untold (r : BodyReader) : Prop := r.kept = []

/-- What a quotation of the query keeps of the body. -/
def Shows (r : BodyReader) (data : Bytes) : Prop := r.wrapped.readAll.2.2.kept = snippet data

variable {r : BodyReader} {data : Bytes}

theorem holds_buffer (data : Bytes) : (buffer data).Holds data := ⟨rfl, rfl⟩

theorem Holds.stat (h : r.Holds data) : (stat r).Holds data := ⟨h.read, h.ends⟩

theorem Holds.cached (h : r.Holds data) (b : Bytes) : (cached r b).Holds data := ⟨h.read, h.ends⟩

theorem Holds.wrapped (h : r.Holds data) : r.wrapped.Holds data := by
  cases r with
  | cached inner b => exact h
  | _ => exact h.cached []

theorem keep_nil (data : Bytes) : CachedReadCloser.keep [] data = snippet data := keep_snippet [] data

/-- The wrapper of a body of which nothing has been kept. -/
theorem wrapped_eq (h : r.Untold) : ∃ inner, r.wrapped = BodyReader.cached inner [] := by
  cases r with
  | cached inner b => exact ⟨inner, by rw [show b = [] from h]; rfl⟩
  | _ => exact ⟨_, rfl⟩

/-- Reading such a body through its wrapper keeps its beginning. -/
theorem Holds.kept (h : r.Holds data) (hr : r.Untold) :
    ∃ inner, r.wrapped.readAll.2.2 = BodyReader.cached inner (snippet data) := by
  obtain ⟨inner, hinner⟩ := wrapped_eq hr
  have hread := h.wrapped.read
  rw [hinner] at hread ⊢
  refine ⟨inner.readAll.2.2, ?_⟩
  rw [← keep_nil, ← hread]
  rfl

theorem Holds.shows (h : r.Holds data) (hr : r.Untold) : r.Shows data := by
  obtain ⟨inner, hinner⟩ := h.kept hr
  rw [Shows, hinner]
  rfl

/-- A body that has been read has nothing left. -/
theorem read_again (r : BodyReader) : r.readAll.2.2.readAll.1 = [] := by
  induction r with
  | conn left breaks => rfl
  | buffer left => rfl
  | stat inner ih => exact ih
  | cached inner b ih => exact ih

/-- A body that was read through its wrapper shows the same as before. -/
theorem Holds.shows_rest (h : r.Holds data) (hr : r.Untold) : r.wrapped.readAll.2.2.Shows data := by
  have hempty := read_again r.wrapped
  obtain ⟨inner, hinner⟩ := h.kept hr
  rw [hinner] at hempty ⊢
  have hkeep : CachedReadCloser.keep (snippet data) inner.readAll.1 = snippet data := by
    rw [show inner.readAll.1 = [] from hempty, keep_snippet, List.append_nil]
  exact hkeep

end BodyReader

/-! ## Reading the query leaves the body as it was -/

section Queries

variable {d : Decompressors} {req : Req} {data : Bytes}

/-- The query that is read is that of the request with this body, which can then be read again. -/
theorem getFullQuery_holds (h : req.body.Holds data) :
    getFullQuery d req =
      (Proxy.getFullQuery d.codec { req.msg with body := .data data }, { req with body := .buffer data }) := by
  have hbody : getFullQueryFromBody d req = (decompress d.codec req.msg data, { req with body := .buffer data }) := by
    unfold getFullQueryFromBody
    simp only [h.read, h.ends, Bool.false_eq_true, if_false]
  unfold getFullQuery Proxy.getFullQuery
  rw [hbody,
    show Proxy.getFullQueryFromBody d.codec { req.msg with body := .data data } = decompress d.codec req.msg data
    from rfl]
  cases decompress d.codec req.msg data with
  | none => rfl
  | some body => rfl

/-- What is quoted of a query with this body. -/
def quotation (d : Decompressors) (msg : Request) (data : Bytes) : Bytes :=
  joinQuery (bytes (msg.query.get "query")) (salvageQuery d msg (snippet data))

theorem getQuerySnippet_shows (h : req.body.Shows data) : (getQuerySnippet d req).1 = quotation d req.msg data := by
  unfold getQuerySnippet getQuerySnippetFromBody quotation
  rw [← show req.body.wrapped.readAll.2.2.kept = snippet data from h]

/-- The whole query with this body. -/
def fullQuery (d : Decompressors) (msg : Request) (data : Bytes) : Option Bytes :=
  Proxy.getFullQuery d.codec { msg with body := .data data }

/-- Deciding about the cache leaves the body as it was; a query that may be cached is the whole one. -/
structure Decided (d : Decompressors) (req : Req) (data : Bytes) (res : Option (Bytes × Bool) × Req) : Prop where
  msg : res.2.msg = req.msg
  holds : res.2.body.Holds data
  untold : res.2.body.Untold
  query : ∀ q, res.1 = some (q, true) → fullQuery d req.msg data = some q

theorem shouldRespondFromCache_decided (s : Scope) (origParams : Values) (h : req.body.Holds data)
    (hr : req.body.Untold) : Decided d req data (shouldRespondFromCache d s origParams req) := by
  unfold shouldRespondFromCache
  split
  · exact ⟨rfl, h, hr, fun q hq => by cases hq⟩
  · dsimp only
    split
    · exact ⟨rfl, h, hr, fun q hq => by cases hq⟩
    · rw [getFullQuery_holds h]
      refine ⟨rfl, BodyReader.holds_buffer data, rfl, fun q hq => ?_⟩
      obtain ⟨q', hq', heq⟩ := Option.map_eq_some_iff.1 hq
      rw [← (Prod.mk.inj heq).1]
      exact hq'

end Queries

/-! ## What ClickHouse gets, and what is quoted -/

/-- Whoever is sent a body is sent this one, and quoted is the query with this one. -/
structure Faithful (d : Decompressors) (msg : Request) (data : Bytes) (sent quoted : List Bytes) : Prop where
  sent : ∀ b ∈ sent, b = data
  quoted : ∀ q ∈ quoted, q = quotation d msg data

/-- Every query quoted in full is the whole one with this body. -/
def Whole (d : Decompressors) (msg : Request) (data : Bytes) (full : List Bytes) : Prop :=
  ∀ q ∈ full, fullQuery d msg data = some q

section Handling

variable {d : Decompressors} {req : Req} {data : Bytes}

/-- Every round has the whole body to send, and enough rounds end the loop. -/
theorem attempts_faithful (maxRetry : Int) (sessionId : String) : ∀ (turns : List Turn) (numRetry : Int) {req : Req},
    req.body.Holds data → (maxRetry - numRetry).toNat < turns.length →
      ∃ out, attempts d maxRetry sessionId data numRetry turns req = some out ∧
        Faithful d req.msg data out.sent out.quoted ∧
        (out.err ≠ none → out.req = { req with body := .buffer data })
  | [], _, _, _, hlen => absurd hlen (Nat.not_lt_zero _)
  | t :: turns, numRetry, req, h, hlen => by
    have hone : ∀ b ∈ [req.body.readAll.1], b = data := List.forall_mem_singleton.2 h.read
    rw [attempts]
    dsimp only
    cases hctx : t.round.ctxErr with
    | some e => exact ⟨_, rfl, ⟨hone, by simp⟩, fun _ => rfl⟩
    | none =>
      dsimp only
      by_cases hbad : t.round.attempt.status = statusBadGateway
      · rw [if_pos hbad]
        by_cases hretry : numRetry < maxRetry ∧ t.round.nextActive = true ∧ sessionId = ""
        · -- the next attempt has the body again, from the bytes that were read before the loop
          rw [if_pos hretry]
          have hlen' : (maxRetry - (numRetry + 1)).toNat < turns.length := by
            have hlt := hretry.1
            rw [List.length_cons] at hlen
            omega
          have hnext : BodyReader.Holds (Req.mk req.msg (.buffer data)).body data := BodyReader.holds_buffer data
          obtain ⟨out, hout, hfaithful, hreq⟩ := attempts_faithful maxRetry sessionId turns (numRetry + 1) hnext hlen'
          rw [hout]
          exact ⟨_, rfl, ⟨List.forall_mem_cons.2 ⟨h.read, hfaithful.sent⟩, hfaithful.quoted⟩, hreq⟩
        · rw [if_neg hretry]
          -- only where no retry follows is the query quoted, after the body was put back
          have hshows : BodyReader.Shows (Req.mk req.msg (.buffer data)).body data :=
            (BodyReader.holds_buffer data).shows rfl
          exact ⟨_, rfl, ⟨hone, List.forall_mem_singleton.2 (getQuerySnippet_shows hshows)⟩,
            fun herr => absurd rfl herr⟩
      · rw [if_neg hbad]
        exact ⟨_, rfl, ⟨hone, by simp⟩, fun herr => absurd rfl herr⟩

/-- The attempts are those of `Proxy.Retry`, which has the loop as the writers see it. -/
theorem attempts_executeWithRetry {maxRetry : Int} {sessionId : String} {body : Bytes} :
    ∀ {turns : List Turn} {numRetry : Int} {req : Req} {out : Tried} (w : Writers),
      attempts d maxRetry sessionId body numRetry turns req = some out →
      ∃ executed, Proxy.executeWithRetry maxRetry sessionId numRetry (turns.map Turn.round) w = some executed ∧
        executed.made.length = out.sent.length ∧ executed.err = out.err
  | [], _, _, _, _, h => by cases h
  | t :: turns, numRetry, req, out, w, h => by
    -- the loop of `Proxy.Retry` looks at the status that the writers took
    have hcode : ((w.serve t.round.attempt).sync).code = t.round.attempt.status :=
      Writers.code_attempt t.round.attempt.status_ne_zero
    rw [attempts] at h
    rw [List.map_cons, Proxy.executeWithRetry]
    dsimp only at h ⊢
    cases hctx : t.round.ctxErr with
    | some e =>
      rw [hctx] at h
      cases h
      exact ⟨_, rfl, rfl, rfl⟩
    | none =>
      rw [hctx] at h
      dsimp only at h ⊢
      rw [hcode]
      by_cases hbad : t.round.attempt.status = statusBadGateway
      · rw [if_pos hbad] at h ⊢
        by_cases hretry : numRetry < maxRetry ∧ t.round.nextActive = true ∧ sessionId = ""
        · rw [if_pos hretry] at h ⊢
          obtain ⟨out', hout', rfl⟩ := Option.map_eq_some_iff.1 h
          obtain ⟨executed, hexecuted, hmade, herr⟩ := attempts_executeWithRetry (w.serve t.round.attempt).sync hout'
          rw [hexecuted]
          exact ⟨_, rfl, congrArg Nat.succ hmade, herr⟩
        · rw [if_neg hretry] at h ⊢
          cases h
          exact ⟨_, rfl, rfl, rfl⟩
      · rw [if_neg hbad] at h ⊢
        cases h
        exact ⟨_, rfl, rfl, rfl⟩

theorem proxyRequest_faithful (s : Scope) (sessionId : String) {turns : List Turn} (h : req.body.Holds data)
    (hr : req.body.Untold) (hlen : (max s.cluster.retryNumber.toInt 0).toNat < turns.length) :
    ∃ out, proxyRequest d s sessionId turns req = some out ∧ out.panics = false ∧
      Faithful d req.msg data out.sent out.quoted ∧ out.req.msg = req.msg ∧ out.req.body.Shows data := by
  have hwrapped := h.wrapped
  have hrest := h.shows_rest hr
  have hbuffer : BodyReader.Holds (Req.mk req.msg (.buffer data)).body data := BodyReader.holds_buffer data
  obtain ⟨out, hout, hfaithful, hreq⟩ :=
    attempts_faithful (d := d) s.cluster.retryNumber.toInt sessionId turns 0 hbuffer
    (by omega)
  unfold proxyRequest
  simp only [hwrapped.read, hwrapped.ends, Bool.false_eq_true, if_false, hout, Option.map_some]
  cases herr : out.err with
  | none => exact ⟨_, rfl, rfl, hfaithful, rfl, hrest⟩
  | some e =>
    -- the error of the context quotes the query of the body that was put back
    have hshows : out.req.body.Shows data := by
      rw [hreq (by rw [herr]; exact Option.some_ne_none e)]
      exact hbuffer.shows rfl
    have hmsg : out.req.msg = req.msg := by rw [hreq (by rw [herr]; exact Option.some_ne_none e)]
    refine ⟨_, rfl, rfl, ⟨hfaithful.sent, ?_⟩, rfl, hrest⟩
    rw [List.forall_mem_append, List.forall_mem_singleton]
    exact ⟨hfaithful.quoted, by rw [getQuerySnippet_shows hshows, hmsg]⟩

theorem Whole.append {msg : Request} {full full' : List Bytes} (h : Whole d msg data full)
    (h' : Whole d msg data full') :
    Whole d msg data (full ++ full') := List.forall_mem_append.2 ⟨h, h'⟩

theorem whole_quoteIf {msg : Request} {q : Bytes} (hq : fullQuery d msg data = some q) (failed : Bool) :
    Whole d msg data (quoteIf failed q) := by
  unfold quoteIf
  split
  · exact List.forall_mem_singleton.2 hq
  · exact List.forall_mem_nil _

theorem whole_quotedAfter {msg : Request} {q : Bytes} (hq : fullQuery d msg data = some q) (faults : Faults)
    (storing : Storing) : Whole d msg data (quotedAfter q faults storing) := by
  unfold quotedAfter
  split
  · exact List.forall_mem_singleton.2 hq
  · cases storing with
    | refused => exact (whole_quoteIf hq _).append (whole_quoteIf hq _)
    | tooLarge => exact (whole_quoteIf hq _).append (whole_quoteIf hq _)
    | cached => exact ((whole_quoteIf hq _).append (whole_quoteIf hq _)).append (whole_quoteIf hq _)

/-- A request with this body that is proxied. -/
theorem serveProxied_faithful {course : Course} {s : Scope} (h : req.body.Holds data) (hr : req.body.Untold)
    (hlen : (max s.cluster.retryNumber.toInt 0).toNat < course.turns.length) {before after : List Bytes}
    (hbefore : Whole d req.msg data before) (hafter : Whole d req.msg data after) :
    ∃ out, serveProxied d course s req before after = some out ∧ out.outcome ≠ .panicked ∧
      Faithful d req.msg data out.sent out.quoted ∧ Whole d req.msg data out.full := by
  obtain ⟨out, hout, hpanics, hfaithful, hmsg, hshows⟩ := proxyRequest_faithful (d := d) s course.sessionId h hr hlen
  unfold serveProxied
  rw [hout, Option.map_some, if_neg (by rw [hpanics]; exact Bool.false_ne_true)]
  refine ⟨_, rfl, nofun, ⟨hfaithful.sent, ?_⟩, hbefore.append hafter⟩
  rw [List.forall_mem_append, List.forall_mem_singleton]
  exact ⟨hfaithful.quoted, by rw [getQuerySnippet_shows hshows, hmsg]⟩

/-- A request with this body that has been admitted. -/
theorem serveAdmitted_faithful {course : Course} {s : Scope} (h : req.body.Holds data)
    (hlen : (max s.cluster.retryNumber.toInt 0).toNat < course.turns.length) :
    ∃ out, serveAdmitted d course s req = some out ∧ out.outcome ≠ .panicked ∧
      Faithful d (decorateRequest s req.msg).1 data out.sent out.quoted ∧
      Whole d (decorateRequest s req.msg).1 data out.full := by
  have hbody : BodyReader.Holds (Req.mk (decorateRequest s req.msg).1 (.cached (.stat req.body) [])).body data :=
    h.stat.cached []
  -- the body is read for the decision, and restored unless that failed
  have hdecided := shouldRespondFromCache_decided (d := d) s (decorateRequest s req.msg).2 hbody rfl
  unfold serveAdmitted
  dsimp only
  generalize shouldRespondFromCache d s (decorateRequest s req.msg).2
    ⟨(decorateRequest s req.msg).1, .cached (.stat req.body) []⟩ = res at hdecided
  obtain ⟨decision, req'⟩ := res
  obtain ⟨hmsg, hholds, huntold, hquery⟩ := hdecided
  dsimp only at hmsg hholds huntold hquery ⊢
  rw [← hmsg] at hquery ⊢
  have hnone : Whole d req'.msg data [] := List.forall_mem_nil _
  have hsnippet : Faithful d req'.msg data [] [(getQuerySnippet d req').1] :=
    ⟨List.forall_mem_nil _, List.forall_mem_singleton.2 (getQuerySnippet_shows (hholds.shows huntold))⟩
  cases decision with
  | none => exact ⟨_, rfl, nofun, ⟨List.forall_mem_nil _, List.forall_mem_nil _⟩, hnone⟩
  | some decision =>
    -- `getFullQuery` gave `q` only where the request may be served from the cache
    obtain ⟨q, cacheable⟩ := decision
    dsimp only
    split
    · rename_i hcacheable
      have hq := hquery q (by rw [hcacheable])
      split
      · exact ⟨_, rfl, nofun, hsnippet, hnone⟩
      · exact ⟨_, rfl, nofun, hsnippet, List.forall_mem_singleton.2 hq⟩
      · exact serveProxied_faithful hholds huntold hlen (whole_quoteIf hq _) (whole_quotedAfter hq _ _)
    · exact serveProxied_faithful hholds huntold hlen hnone hnone

theorem refuse_faithful (h : req.body.Shows data) (status : Int) :
    Faithful d req.msg data (refuse d req status).sent (refuse d req status).quoted :=
  ⟨by simp [refuse], List.forall_mem_singleton.2 (getQuerySnippet_shows h)⟩

/-- The requests that a query may be quoted from: the client's, and what it became for ClickHouse. -/
def Course.requests (course : Course) (msg : Request) : List Request :=
  match course.scope with
  | .error _ => [msg]
  | .ok s => [msg, (decorateRequest s msg).1]

/-- There are as many rounds as the loop may need. -/
def Course.Long (course : Course) : Prop :=
  ∀ s, course.scope = .ok s → (max s.cluster.retryNumber.toInt 0).toNat < course.turns.length

/-- A request whose body can be read. -/
theorem serveHTTP_faithful {course : Course} (msg : Request) (hlong : course.Long) :
    ∃ out, serveHTTP d course ⟨msg, .conn data false⟩ = some out ∧ out.outcome ≠ .panicked ∧
      ∃ m ∈ course.requests msg, Faithful d m data out.sent out.quoted ∧ Whole d m data out.full := by
  have hholds : BodyReader.Holds (Req.mk msg (.conn data false)).body data := ⟨rfl, rfl⟩
  have hbuffer : BodyReader.Holds (Req.mk msg (.buffer data)).body data := BodyReader.holds_buffer data
  unfold serveHTTP Course.requests
  cases hscope : course.scope with
  | error status =>
    exact ⟨_, rfl, nofun, msg, List.mem_cons_self, refuse_faithful (hholds.shows rfl) status, List.forall_mem_nil _⟩
  | ok s =>
    rw [getFullQuery_holds hholds]
    cases Proxy.getFullQuery d.codec { msg with body := .data data } with
    | none =>
      exact ⟨_, rfl, nofun, msg, List.mem_cons_self, refuse_faithful (hbuffer.shows rfl) 400, List.forall_mem_nil _⟩
    | some q =>
      dsimp only
      split
      · obtain ⟨out, hout, hpanic, hfaithful⟩ := serveAdmitted_faithful (d := d) hbuffer (hlong s hscope)
        exact ⟨out, hout, hpanic, _, List.mem_cons_of_mem _ List.mem_cons_self, hfaithful⟩
      · exact ⟨_, rfl, nofun, msg, List.mem_cons_self, refuse_faithful (hbuffer.shows rfl) 429, List.forall_mem_nil _⟩

end Handling

/-- However a request is handled, ClickHouse can read at every attempt exactly what the client has sent; when the
body of the client breaks off there is no attempt, and the request is refused. -/
theorem attempts_get_client_body (d : Decompressors) {course : Course} (hlong : course.Long) (msg : Request)
    (left : Bytes) (breaks : Bool) :
    ∃ out, serveHTTP d course ⟨msg, .conn left breaks⟩ = some out ∧ out.outcome ≠ .panicked ∧
      (∀ b ∈ out.sent, b = left) ∧
      (breaks = true → out.sent = [] ∧ ∃ status, out.outcome = .refused status) := by
  cases breaks with
  | false =>
    obtain ⟨out, hout, hpanic, m, -, hfaithful, -⟩ := serveHTTP_faithful (d := d) msg hlong
    exact ⟨out, hout, hpanic, hfaithful.sent, fun h => by cases h⟩
  | true =>
    unfold serveHTTP
    cases course.scope with
    | error status => exact ⟨_, rfl, nofun, by simp [refuse], fun _ => ⟨rfl, status, rfl⟩⟩
    | ok s => exact ⟨_, rfl, nofun, by simp [refuse], fun _ => ⟨rfl, 400, rfl⟩⟩

/-- A request with one retry, whose first attempt fails after ten bytes. -/
def twoAttempts (second : Attempt) : Course where
  scope := .ok { plainScope "c" with cluster := { (plainScope "c").cluster with retryNumber := 1 } }
  sessionId := ""
  admitted := true
  caching := .proxied .cached {}
  turns := [⟨⟨.failed, none, true, []⟩, .buffer (List.replicate 1990 73)⟩, ⟨⟨second, none, true, []⟩, .buffer []⟩]

theorem twoAttempts_long (second : Attempt) : (twoAttempts second).Long := by
  intro s h
  cases h
  exact (by decide : 1 < 2)

/-- Nothing is compressed. -/
def plainBodies : Decompressors := ⟨fun data => (data, true), fun data => (data, true)⟩

/-- The client sends 2000 bytes, and both hosts can read them. -/
def longSelect : Req := ⟨selectOne "a", .conn (List.replicate 2000 73) false⟩

theorem attempts_get_client_body_retry :
    ∃ out, serveHTTP plainBodies (twoAttempts (.response okay)) longSelect = some out ∧ out.sent.length = 2 ∧
      ∀ b ∈ out.sent, b = List.replicate 2000 73 := by
  have hlength : (serveHTTP plainBodies (twoAttempts (.response okay)) longSelect).map (fun out => out.sent.length) =
      some 2 := by
    decide +kernel
  obtain ⟨out, hout, -, hsent, -⟩ :=
    attempts_get_client_body plainBodies (twoAttempts_long (.response okay)) (selectOne "a")
    (List.replicate 2000 73) false
  rw [show serveHTTP plainBodies _ longSelect = some out from hout] at hlength
  exact ⟨out, hout, Option.some.inj hlength, hsent⟩

end Chproxy.Proxy.RequestBody
