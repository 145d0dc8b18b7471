/-
What two clients are sent for one response: the first one by `serveFromCache` on a miss, from the header
map that the upstream filled and from the temporary file, the later one on a hit, from what the cache kept.

Of `net/http` it is assumed that `http.Transport` refuses a response whose headers take more than 10 MiB.
A type that the server guesses where none is set depends on the data and on the headers compared here.
-/
import Chproxy.Cache.Redis
import Chproxy.Proxy.Serve

namespace Chproxy.Proxy

open Utils Cache

/-! ## The temporary file

`TmpFileResponseWriter` writes through a `bufio.Writer` into a file that is later read, twice, through the
same handle. -/

/-- What has reached the file, what waits in the buffer, and the offset of the handle. -/
structure TmpFile where
  file : Bytes := []
  buffered : Bytes := []
  offset : Nat := 0

namespace TmpFile

/-- `Write` through the handle. -/
def writeFile (t : TmpFile) (b : Bytes) : TmpFile :=
  { t with file := writeAt t.file t.offset b, offset := t.offset + b.length }

/-- `bw.Write`, at which the first `n` of the bytes that wait go on to the file. -/
def write (t : TmpFile) (n : Nat) (b : Bytes) : TmpFile :=
  { t.writeFile ((t.buffered ++ b).take n) with buffered := (t.buffered ++ b).drop n }

/-- `GetFile`, which flushes. -/
def getFile (t : TmpFile) : TmpFile :=
  if t.buffered = [] then t else { t.writeFile t.buffered with buffered := [] }

def resetFileOffset (t : TmpFile) : TmpFile := { t.getFile with offset := 0 }

/-- `GetCapturedContentLength`: the end of the file, after which the offset is reset. -/
def getCapturedContentLength (t : TmpFile) : TmpFile × Nat := (t.getFile.resetFileOffset, t.getFile.file.length)

/-- What a reader of the handle still gets. -/
def left (t : TmpFile) : Bytes := t.file.drop t.offset

/-- Reading `n` bytes. -/
def advance (t : TmpFile) (n : Nat) : TmpFile := { t with offset := t.offset + n }

/-- The writes of a response one after another. -/
def writeAll (t : TmpFile) (ws : List (Nat × Bytes)) : TmpFile := ws.foldl (fun t w => t.write w.1 w.2) t

/-- The handle stands at the end of a file that, with the buffer, holds `data`. -/
structure Holds (t : TmpFile) (data : Bytes) : Prop where
  offset : t.offset = t.file.length
  contents : t.file ++ t.buffered = data

theorem Holds.writeFile {t : TmpFile} {data : Bytes} (h : t.Holds data) (b : Bytes) :
    (t.writeFile b).file = t.file ++ b ∧ (t.writeFile b).offset = (t.file ++ b).length := by
  unfold TmpFile.writeFile
  rw [h.offset, writeAt_end, List.length_append]
  exact ⟨rfl, rfl⟩

theorem Holds.write {t : TmpFile} {data : Bytes} (h : t.Holds data) (n : Nat) (b : Bytes) :
    (t.write n b).Holds (data ++ b) := by
  obtain ⟨hfile, hoffset⟩ := h.writeFile ((t.buffered ++ b).take n)
  constructor
  · show (t.writeFile _).offset = (t.writeFile _).file.length
    rw [hfile, hoffset]
  · show (t.writeFile _).file ++ (t.buffered ++ b).drop n = data ++ b
    rw [hfile, List.append_assoc, List.take_append_drop, ← List.append_assoc, h.contents]

theorem Holds.writeAll : ∀ (ws : List (Nat × Bytes)) {t : TmpFile} {data : Bytes}, t.Holds data →
    (t.writeAll ws).Holds (data ++ (ws.map Prod.snd).flatten)
  | [], t, data, h => by simpa [TmpFile.writeAll] using h
  | w :: ws, t, data, h => by
    have := Holds.writeAll ws (h.write w.1 w.2)
    rwa [List.append_assoc] at this

theorem Holds.getFile {t : TmpFile} {data : Bytes} (h : t.Holds data) :
    t.getFile.file = data ∧ t.getFile.buffered = [] := by
  have hcontents := h.contents
  unfold TmpFile.getFile
  split
  · rename_i hempty
    rw [hempty, List.append_nil] at hcontents
    exact ⟨hcontents, hempty⟩
  · exact ⟨(h.writeFile t.buffered).1.trans hcontents, rfl⟩

theorem file_resetFileOffset {t : TmpFile} (h : t.buffered = []) : t.resetFileOffset = { t with offset := 0 } := by
  rw [resetFileOffset, getFile, if_pos h]

/-- However the buffer was emptied: the length is that of the whole response, the reader that `Put` gets
delivers all of it, and so does, wherever `Put` left the handle, the reader after the reset. -/
theorem reads_twice (ws : List (Nat × Bytes)) (h : Header) (n : Nat) {t : TmpFile} {length : Nat}
    (ht : (TmpFile.writeAll {} ws).getCapturedContentLength = (t, length)) :
    length = (Tmp.writeAll {} h (ws.map Prod.snd)).file.length ∧
    t.left = (Tmp.writeAll {} h (ws.map Prod.snd)).file ∧
    (t.advance n).resetFileOffset.left = (Tmp.writeAll {} h (ws.map Prod.snd)).file := by
  have hfile : (Tmp.writeAll {} h (ws.map Prod.snd)).file = (ws.map Prod.snd).flatten := by
    rw [Tmp.file_writeAll, List.nil_append]
  have hstart : ({} : TmpFile).Holds [] := ⟨rfl, rfl⟩
  obtain ⟨hdata, hempty⟩ := (hstart.writeAll ws).getFile
  rw [getCapturedContentLength, file_resetFileOffset hempty] at ht
  cases ht
  rw [hfile]
  refine ⟨by rw [hdata, List.nil_append], ?_, ?_⟩
  · rw [left, List.drop_zero, hdata, List.nil_append]
  · rw [file_resetFileOffset (by exact hempty), left, List.drop_zero]
    exact hdata.trans (List.nil_append _)

end TmpFile

/-! ## The two answers -/

/-- The writer of a request that was not answered yet; of the headers compared none is set. -/
structure Srw.Fresh (rw : Srw) : Prop extends rw.Quiet where
  contentType : rw.conn.header.values "Content-Type" = []
  contentEncoding : rw.conn.header.values "Content-Encoding" = []
  contentLength : rw.conn.header.values "Content-Length" = []

/-- `serveFromCache` after a hit. -/
def serveHit (srw : Srw) (metadata : ContentMetadata) (data : Bytes) (ttl : Int) : Srw :=
  (srw.respondWithData data metadata ttl .hit 200).1

/-- What a client can see that is served from a cache into which a `Put` of the data went: the file system
cache, or Redis, where the data of `Get` are read with buffers of any sizes and the length of a value is an
`int64`. -/
inductive FromCache (key : String) (metadata : ContentMetadata) (data : Bytes) (srw : Srw) : Seen → Prop
  | fileSystem (f : FileSystemCache) (chunks : List Bytes) (hchunks : chunks.flatten = data) (age : Int64)
      (cached : CachedData Bytes) (hget : (f.put key metadata chunks).get key age = .ok cached) :
      FromCache key metadata data srw (serveHit srw cached.metadata cached.data cached.ttl).conn.finish
  | redis (db : RedisDB) (chunks : List Bytes) (hchunks : chunks.flatten = data) (hne : ∀ c ∈ chunks, c ≠ [])
      (hsize : (redisValue metadata data).length < 2 ^ 63) (random fuel : Nat) (hfuel : data.length + 1 < fuel)
      (ttl : Int) (cached : CachedData RedisData)
      (hget : redisGet (redisPut db key metadata chunks random).1 fuel key ttl = some (.ok cached))
      (sizes : List Nat) (hsizes : ∀ n ∈ sizes, 0 < n) (sent : Bytes) (e : Reader.End RedisCacheError)
      (hread : cached.data.reading (redisPut db key metadata chunks random).1 key sizes = (sent, some e)) :
      FromCache key metadata data srw (serveHit srw cached.metadata sent cached.ttl).conn.finish

/-- The same answer: status, `Content-Type`, `Content-Encoding`, `Content-Length` and body. -/
structure Seen.SameAnswer (a b : Seen) : Prop where
  status : a.status = b.status
  contentType : a.header.values "Content-Type" = b.header.values "Content-Type"
  contentEncoding : a.header.values "Content-Encoding" = b.header.values "Content-Encoding"
  contentLength : a.header.values "Content-Length" = b.header.values "Content-Length"
  body : a.body = b.body

/-- What the limit of `http.Transport` gives for each header. -/
def Response.HeadersLimited (r : Response) : Prop := ∀ k, ∀ v ∈ r.header.values k, v.length ≤ 10 * 1024 * 1024

/-- The cache keeps the header: it is absent, or there is a body, at whose beginning the header is
captured, and its first value is not empty. -/
def Response.Kept (r : Response) (k : String) : Prop := r.header.values k = [] ∨ (r.body ≠ [] ∧ r.header.get k ≠ [])

/-! ## What is captured -/

/-- The part of a header that is captured with the body. -/
def Response.capture (r : Response) (k : String) : Bytes := if r.body = [] then [] else r.header.get k

/-- The metadata of a response that arrived whole. -/
def Response.metadata (r : Response) : ContentMetadata :=
  ⟨r.body.length, r.capture "Content-Type", r.capture "Content-Encoding"⟩

/-- The writer after the attempt: its header map has taken the headers of the response. -/
def Srw.passedOn (srw : Srw) (r : Response) : Srw :=
  (srw.setHeader (srw.conn.header.copyFrom r.header)).setStatusCode r.status

theorem Srw.Fresh.passedOn {srw : Srw} (h : srw.Fresh) (r : Response) : (srw.passedOn r).Quiet :=
  ⟨h.wire, h.written, h.body, h.wroteHeader⟩

theorem values_copyFrom_fresh {h : Header} {k : String} (hk : h.values k = []) (g : Header) :
    (h.copyFrom g).values k = g.values k := by
  rw [Header.values_copyFrom, hk, List.nil_append]

theorem captured_metadata {srw : Srw} (hfresh : srw.Fresh) {r : Response} (hcopied : r.copied = r.body) :
    (captured srw (.response r)).metadata = r.metadata := by
  have hfile : (captured srw (.response r)).file = r.body := (captured_file srw _).trans hcopied
  have hchunks : r.body = [] ↔ r.chunks = [] := by
    rw [← hcopied]
    exact Attempt.chunks_eq_nil (a := .response r)
  have hget : ∀ {k}, srw.conn.header.values k = [] → (srw.conn.header.copyFrom r.header).get k = r.header.get k :=
    fun hk => by rw [Header.get, values_copyFrom_fresh hk, Header.get]
  rw [Tmp.metadata, hfile, Response.metadata]
  by_cases hb : r.body = []
  · simp only [captured, Attempt.chunks, hchunks.1 hb, Response.capture, if_pos hb]
    rfl
  · obtain ⟨htype, hencoding⟩ := Tmp.capture_writeAll (t := { statusCode := r.status }) rfl
      (srw.conn.header.copyFrom r.header) (mt hchunks.2 hb)
    simp only [Response.capture, if_neg hb, ← hget hfresh.contentType, ← hget hfresh.contentEncoding]
    rw [← htype, ← hencoding]
    rfl

theorem capture_length {r : Response} (h : r.HeadersLimited) (k : String) :
    (r.capture k).length ≤ 10 * 1024 * 1024 := by
  unfold Response.capture
  split
  · simp
  · rw [Header.get]
    cases hv : r.header.values k with
    | nil => simp
    | cons v vs => exact h k v (by simp [hv])

theorem metadata_storable {r : Response} (h : r.HeadersLimited) (hlength : r.body.length < 2 ^ 63) :
    r.metadata.Storable := by
  have htype := capture_length h "Content-Type"
  have hencoding := capture_length h "Content-Encoding"
  unfold Response.metadata
  exact ⟨by simp only; omega, by simp only; omega, by simp only; omega, by simp only; omega⟩

/-! ## The answers -/

/-- What `RespondWithData` sends with status 200 on a quiet writer. -/
theorem respond_okay {rw : Srw} (hq : rw.Quiet) {data : Bytes} (hdata : data.length < 2 ^ 63) (type encoding : Bytes)
    (ttl : Int) (cacheHit : XCache) :
    ∃ h, (rw.respondWithData data ⟨data.length, type, encoding⟩ ttl cacheHit 200).2 = true ∧
      (rw.respondWithData data ⟨data.length, type, encoding⟩ ttl cacheHit 200).1.conn.finish = ⟨200, h, data⟩ ∧
      h.values "Content-Type" = (if type = [] then rw.conn.header.values "Content-Type" else [type]) ∧
      h.values "Content-Encoding" = (if encoding = [] then rw.conn.header.values "Content-Encoding" else [encoding]) ∧
      h.values "Content-Length" = [Decimal.ofInt data.length] := by
  obtain ⟨hok, hfinish⟩ := @Srw.respondWithData_quiet rw hq data 200 (by decide) (fun _ => by decide) type encoding
    ttl cacheHit
  let h := respondHeader rw.conn.header ⟨data.length, type, encoding⟩ ttl cacheHit
  have hlength : h.values "Content-Length" = [Decimal.ofInt data.length] := respondHeader_contentLength ..
  have hsent : (rw.setHeader h).conn.sentHeader = h := by
    refine Conn.sentHeader_of_declared (n := data.length) ?_
    show declaredLength ((h.values "Content-Length").headD []) = some data.length
    rw [hlength]
    exact declaredLength_ofNat hdata
  rw [hsent, ite_self] at hfinish
  exact ⟨h, hok, hfinish, respondHeader_contentType .., respondHeader_contentEncoding .., hlength⟩

/-- A 500 with the text of an error. -/
theorem status_respondWith {rw : Srw} (hq : rw.Quiet) (err : Bytes) :
    (rw.respondWith err 500).conn.finish.status = 500 := by
  have hwire : (rw.conn.writeHeader 500).wire = some (500, rw.conn.sentHeader) := by simp [Conn.writeHeader, hq.wire]
  have hconn : (rw.respondWith err 500).conn = ((rw.conn.writeHeader 500).write (err ++ [10])).1 := by
    simp [Srw.respondWith, Srw.write, Srw.writeHeader, Srw.code, hq.wroteHeader]
  rw [hconn, Conn.finish_of_wire (Conn.wire_write hwire _)]

/-- A client that is served from the cache is served the metadata and the data put, by either back end. -/
theorem FromCache.served {key : String} {srw : Srw} {hit : Seen} {data : Bytes} {metadata : ContentMetadata}
    (hm : metadata.Storable) (hlength : metadata.length = data.length) (h : FromCache key metadata data srw hit) :
    ∃ ttl, hit = (serveHit srw metadata data ttl).conn.finish := by
  cases h with
  | fileSystem f chunks hchunks age cached hget =>
    have hfile : (f.put key metadata chunks).files key = some (FileSystemCache.encoded metadata data) := by
      simp [FileSystemCache.put, FileSystemCache.writeAllAt_writes, hchunks]
    -- an entry within the grace time is served as well
    rw [FileSystemCache.get, hfile] at hget
    simp only [FileSystemCache.encoded, decodeHeader_fileHeader hm.writable] at hget
    split at hget
    · cases hget
    · cases hget
      exact ⟨_, rfl⟩
  | redis db chunks hchunks hne hsize random fuel hfuel ttl cached hget sizes hsizes sent e hread =>
    obtain ⟨db', hput, hvalue, -⟩ := @redisPut_eq db key metadata chunks random hne
    rw [hput] at hget hread
    rw [hchunks] at hvalue
    by_cases hfits : (encodeMetadata metadata).length ≤ nbBytesToFetch.toNat + 1
    · obtain ⟨reader, hget', bound, hdelivers⟩ := redisGet_eq hm hvalue hlength hsize hfits hfuel ttl
      rw [hget] at hget'
      cases hget'
      rcases hdelivers sizes hsizes with ⟨-, hnone, -⟩ | hall
      · rw [hread] at hnone
        cases hnone
      · rw [hread] at hall
        cases hall
        exact ⟨_, rfl⟩
    · rw [redisGet_large hm hvalue (by omega)] at hget
      cases hget

/-! ## Hit and miss -/

/-- The list sent on a miss and the list sent on a hit are the same exactly when the header is kept. -/
theorem kept_iff (r : Response) (k : String) :
    ((if r.capture k = [] then r.header.values k else [r.capture k]) =
      if r.capture k = [] then [] else [r.capture k]) ↔ r.Kept k := by
  unfold Response.capture Response.Kept
  by_cases hb : r.body = []
  · simp [hb]
  · simp only [if_neg hb]
    by_cases hv : r.header.get k = []
    · simp [hv]
    · simp [hv, hb]

theorem proxyRequest_live {st : Settings} {a : Attempt} (ha : a.status ≠ statusBadGateway) (nextActive : Bool)
    (cannotReach timeoutText : Bytes) (srw : Srw) :
    proxyRequest st [⟨a, none, nextActive, cannotReach⟩] timeoutText ⟨srw, some {}⟩ =
      some (⟨(srw.setHeader (srw.conn.header.copyFrom a.header)).setStatusCode a.status, some (captured srw a)⟩,
        false) := by
  have hattempt := Writers.attempt_tmp (w := ⟨srw, some {}⟩) rfl a
  have hcode := Writers.code_attempt (w := ⟨srw, some {}⟩) a.status_ne_zero
  rw [Writers.attempt] at hattempt hcode
  simp only [proxyRequest, executeWithRetry, hcode, if_neg ha, Option.map_some]
  rw [hattempt]
  rfl

/-- A 200 that arrives whole and fits the cache is put. -/
theorem serveMiss_okay {st : Settings} {r : Response} {io : TmpIO} {srw : Srw} (h200 : r.status = 200)
    (hcopied : r.copied = r.body) (hfits : (r.body.length : Int) ≤ st.maxPayloadSize.toInt64.toInt)
    (hlength : io.lengthErr = none) (hreader : io.readerErr = none) (hfresh : srw.Fresh) (nextActive : Bool)
    (cannotReach timeoutText : Bytes) :
    serveMiss st [⟨.response r, none, nextActive, cannotReach⟩] timeoutText io srw =
      some ⟨[.put r.body r.metadata, .complete],
        (srw.passedOn r).resetAndRespond (captured srw (.response r)) io.expiration .miss io⟩ := by
  have hfile : (captured srw (.response r)).file = r.body := (captured_file srw _).trans hcopied
  have hcode : (captured srw (.response r)).code = 200 := (captured_code srw _).trans h200
  have hlen : r.metadata.length = r.body.length := rfl
  have hstatus : (Attempt.response r).status ≠ statusBadGateway := by
    rw [Attempt.status, h200]
    decide
  rw [serveMiss, proxyRequest_live hstatus, Option.map_some]
  simp only [Option.getD_some, serveCaptured, hlength, hreader, hcode, captured_metadata hfresh hcopied, hfile,
    completeTransaction_nil]
  rw [if_neg (by simp), if_neg (by omega)]
  rfl

/-- The first client gets the headers as the upstream sent them, unless they were captured. -/
theorem miss_seen {r : Response} {io : TmpIO} {srw : Srw} (h200 : r.status = 200) (hcopied : r.copied = r.body)
    (hdata : r.body.length < 2 ^ 63) (hreset : io.resetErr = none) (hfresh : srw.Fresh) :
    ∃ h, ((srw.passedOn r).resetAndRespond (captured srw (.response r)) io.expiration .miss io).conn.finish =
        ⟨200, h, r.body⟩ ∧
      h.values "Content-Type" =
        (if r.capture "Content-Type" = [] then r.header.values "Content-Type" else [r.capture "Content-Type"]) ∧
      h.values "Content-Encoding" =
        (if r.capture "Content-Encoding" = [] then r.header.values "Content-Encoding"
        else [r.capture "Content-Encoding"]) ∧
      h.values "Content-Length" = [Decimal.ofInt r.body.length] := by
  have hfile : (captured srw (.response r)).file = r.body := (captured_file srw _).trans hcopied
  have hcode : (captured srw (.response r)).code = 200 := (captured_code srw _).trans h200
  obtain ⟨h, hok, hfinish, htype, hencoding, hlength⟩ := respond_okay (hfresh.passedOn r) hdata
    (r.capture "Content-Type") (r.capture "Content-Encoding") io.expiration .miss
  have hheader : (srw.passedOn r).conn.header = srw.conn.header.copyFrom r.header := rfl
  rw [hheader, values_copyFrom_fresh hfresh.contentType] at htype
  rw [hheader, values_copyFrom_fresh hfresh.contentEncoding] at hencoding
  refine ⟨h, ?_, htype, hencoding, hlength⟩
  simp only [Srw.resetAndRespond, hreset, Srw.respondOr500, captured_metadata hfresh hcopied, hfile, hcode]
  rw [Response.metadata, hok, if_pos rfl, hfinish]

/-- A later client gets the headers that were captured. -/
theorem hit_seen {r : Response} {srw : Srw} (hdata : r.body.length < 2 ^ 63) (hfresh : srw.Fresh) (ttl : Int) :
    ∃ h, (serveHit srw r.metadata r.body ttl).conn.finish = ⟨200, h, r.body⟩ ∧
      h.values "Content-Type" = (if r.capture "Content-Type" = [] then [] else [r.capture "Content-Type"]) ∧
      h.values "Content-Encoding" =
        (if r.capture "Content-Encoding" = [] then [] else [r.capture "Content-Encoding"]) ∧
      h.values "Content-Length" = [Decimal.ofInt r.body.length] := by
  obtain ⟨h, -, hfinish, htype, hencoding, hlength⟩ := respond_okay hfresh.toQuiet hdata (r.capture "Content-Type")
    (r.capture "Content-Encoding") ttl .hit
  rw [hfresh.contentType] at htype
  rw [hfresh.contentEncoding] at hencoding
  exact ⟨h, hfinish, htype, hencoding, hlength⟩

/-- Some client can be served from the cache after the `Put`. -/
theorem fromCache_exists {m : ContentMetadata} (hm : m.Storable) (key : String) (data : Bytes) (srw : Srw) :
    ∃ hit, FromCache key m data srw hit := by
  have hfile : (FileSystemCache.put ⟨fun _ => none, 0, 0⟩ key m [data]).files key =
      some (FileSystemCache.encoded m data) := by
    simp [FileSystemCache.put, FileSystemCache.writeAllAt_writes]
  exact ⟨_, .fileSystem _ [data] (by simp) 0 _ (FileSystemCache.get_encoded hm hfile (Int64.le_refl 0))⟩

/-- A 200 of the upstream, with any headers and any body, that is copied in full in one attempt and fits
the cache is put into it. A client that is then served from the cache, whichever back end it is, gets the
answer that the first client got exactly when the temporary file could be read again and the cache keeps
both content headers. -/
theorem hit_equals_miss_iff {st : Settings} {r : Response} {io : TmpIO} {srw srw' : Srw} (h200 : r.status = 200)
    (hcopied : r.copied = r.body) (hfits : (r.body.length : Int) ≤ st.maxPayloadSize.toInt64.toInt)
    (hlength : io.lengthErr = none) (hreader : io.readerErr = none) (hlimited : r.HeadersLimited)
    (hfresh : srw.Fresh) (hfresh' : srw'.Fresh) (nextActive : Bool) (cannotReach timeoutText : Bytes) (key : String) :
    ∃ served metadata,
      serveMiss st [⟨.response r, none, nextActive, cannotReach⟩] timeoutText io srw = some served ∧
      served.calls = [.put r.body metadata, .complete] ∧
      (∃ hit, FromCache key metadata r.body srw' hit) ∧
      ∀ hit, FromCache key metadata r.body srw' hit →
        (served.srw.conn.finish.SameAnswer hit ↔
          io.resetErr = none ∧ r.Kept "Content-Type" ∧ r.Kept "Content-Encoding") := by
  have hdata : r.body.length < 2 ^ 63 := by have := st.maxPayloadSize.toInt64.toInt_lt; omega
  have hm := metadata_storable hlimited hdata
  refine ⟨_, r.metadata, serveMiss_okay h200 hcopied hfits hlength hreader hfresh nextActive cannotReach timeoutText,
    rfl, fromCache_exists hm key r.body srw', fun hit hhit => ?_⟩
  obtain ⟨ttl, rfl⟩ := hhit.served hm rfl
  obtain ⟨h', hfinish', htype', hencoding', hlength'⟩ := hit_seen hdata hfresh' ttl
  rw [hfinish']
  cases hreset : io.resetErr with
  | some err =>
    -- the first client gets the error, the response is in the cache
    refine iff_of_false (fun h => ?_) (by simp)
    have hstatus := h.status
    simp only [Srw.resetAndRespond, hreset] at hstatus
    rw [status_respondWith (hfresh.passedOn r)] at hstatus
    cases hstatus
  | none =>
    obtain ⟨h, hfinish, htype, hencoding, hlength⟩ := miss_seen h200 hcopied hdata hreset hfresh
    rw [hfinish, ← kept_iff, ← kept_iff, ← htype, ← hencoding, ← htype', ← hencoding']
    constructor
    · exact fun h => ⟨rfl, h.contentType, h.contentEncoding⟩
    · exact fun ⟨_, h1, h2⟩ => ⟨rfl, h1, h2, hlength.trans hlength'.symm, rfl⟩

theorem freshSrw_fresh : freshSrw.Fresh := ⟨⟨rfl, rfl, rfl, rfl⟩, rfl, rfl, rfl⟩

theorem okay_limited : okay.HeadersLimited := by
  intro k v hv
  by_cases hk : k = "Content-Type"
  · subst hk
    have : v = bytes "text/plain" := by simpa [okay, shortResponse] using hv
    subst this
    decide
  · have hnone : okay.header.values k = [] := (Header.values_set_of_ne ∅ (bytes "text/plain") hk).trans rfl
    simp [hnone] at hv

/-- A short text is answered alike from the upstream and from the cache. -/
theorem hit_equals_miss_okay : ∃ served metadata hit,
    serveMiss smallSettings [⟨.response okay, none, true, []⟩] [] {} freshSrw = some served ∧
    served.calls = [.put (bytes "ok") metadata, .complete] ∧
    FromCache "key" metadata (bytes "ok") freshSrw hit ∧ served.srw.conn.finish.SameAnswer hit := by
  obtain ⟨served, metadata, hserved, hcalls, ⟨hit, hhit⟩, hiff⟩ :=
    @hit_equals_miss_iff smallSettings okay {} freshSrw freshSrw rfl rfl (by decide) rfl rfl okay_limited freshSrw_fresh
      freshSrw_fresh true [] [] "key"
  have hkept : okay.Kept "Content-Type" ∧ okay.Kept "Content-Encoding" := ⟨.inr ⟨by decide, by decide⟩, .inl rfl⟩
  exact ⟨served, metadata, hit, hserved, hcalls, hhit, (hiff hit hhit).2 ⟨rfl, hkept⟩⟩

/-- The answer to a query without rows: its type, and no body. -/
def noRows : Response where
  status := 200
  header := Header.set ∅ "Content-Type" (bytes "text/tab-separated-values")
  body := []
  chunks := []
  status_ge := okay.status_ge
  cut := by simp
  chunks_nonempty := by simp
  allowed := by simp
  declared := by simp

/-- The first client is told the type of the empty result, the later one is not. -/
theorem empty_result_loses_type : ∃ served hit,
    serveMiss smallSettings [⟨.response noRows, none, true, []⟩] [] {} freshSrw = some served ∧
    served.calls = [.put noRows.body ⟨0, [], []⟩, .complete] ∧
    FromCache "key" ⟨0, [], []⟩ noRows.body freshSrw hit ∧
    served.srw.conn.finish.header.values "Content-Type" = [bytes "text/tab-separated-values"] ∧
    hit.header.values "Content-Type" = [] ∧ ¬served.srw.conn.finish.SameAnswer hit := by
  obtain ⟨hit, hhit⟩ :=
    fromCache_exists (m := ⟨0, [], []⟩) ⟨by decide, by decide, by decide, by decide⟩ "key" [] freshSrw
  obtain ⟨ttl, rfl⟩ := hhit.served ⟨by decide, by decide, by decide, by decide⟩ rfl
  obtain ⟨h', hfinish', htype', -⟩ := @hit_seen noRows freshSrw (by decide) freshSrw_fresh ttl
  have hnone : (serveHit freshSrw ⟨0, [], []⟩ [] ttl).conn.finish.header.values "Content-Type" = [] := by
    refine (congrArg (fun s => s.header.values "Content-Type") hfinish').trans (htype'.trans (if_pos (by decide)))
  have htype : ∃ served, serveMiss smallSettings [⟨.response noRows, none, true, []⟩] [] {} freshSrw = some served ∧
      served.calls = [.put noRows.body ⟨0, [], []⟩, .complete] ∧
      served.srw.conn.finish.header.values "Content-Type" = [bytes "text/tab-separated-values"] :=
    ⟨_, rfl, by decide, by decide⟩
  obtain ⟨served, hserved, hcalls, hvalues⟩ := htype
  refine ⟨served, _, hserved, hcalls, hhit, hvalues, hnone, fun h => ?_⟩
  have := h.contentType
  rw [hvalues, hnone] at this
  cases this

end Chproxy.Proxy
