/-
`redisCache.Get` and `Put` and the `redisStreamReader` (`cache/redis_cache.go`) over a Redis database of
byte strings with SET, APPEND, RENAME and GETRANGE, whose end is inclusive. No command fails.
-/
import Chproxy.Cache.FileSystem

namespace Chproxy.Cache

open Utils

/-! ## Redis -/

abbrev RedisDB := String → Option Bytes

namespace RedisDB

variable (db : RedisDB) (key : String)

def set (value : Bytes) : RedisDB := Function.update db key (some value)

def del : RedisDB := Function.update db key none

/-- APPEND, and the length it answers. -/
def append (b : Bytes) : RedisDB × Nat :=
  let value := (db key).getD [] ++ b
  (db.set key value, value.length)

/-- RENAME; an error, without effect, when there is no `key`. -/
def rename (newkey : String) : RedisDB :=
  match db key with
  | some value => (db.del key).set newkey value
  | none => db

def getRange (start stop : Nat) : Bytes := (((db key).getD []).take (stop + 1)).drop start

end RedisDB

/-! ## `Put` -/

/-- The error of a short APPEND. -/
structure ShortWrite where
  written : Nat
  expected : Nat
  deriving DecidableEq, Repr

/-- The loop of `Put` over what successive calls of `Read` return; after them it returns `io.EOF` and no
bytes. -/
def appendAll (tmp : String) (expected : Nat) : RedisDB → List Bytes → RedisDB × Option ShortWrite
  | db, [] => (db, none)
  | db, b :: bs =>
    if b.length = 0 then (db, none)
    else
      let (db, written) := db.append tmp b
      if written ≠ expected + b.length then (db.del tmp, some ⟨written, expected + b.length⟩)
      else appendAll tmp (expected + b.length) db bs

/-- `stringKeyTmp`. -/
def tmpKey (key : String) (random : Nat) : String := "\x7b" ++ key ++ "\x7d" ++ toString random ++ "_tmp"

/-- `Put`, with the random number drawn. -/
def redisPut (db : RedisDB) (key : String) (m : ContentMetadata) (chunks : List Bytes) (random : Nat) :
    RedisDB × Option ShortWrite :=
  let tmp := tmpKey key random
  match appendAll tmp (encodeMetadata m).length (db.set tmp (encodeMetadata m)) chunks with
  | (db, some e) => (db, some e)
  | (db, none) => (db.rename tmp key, none)

/-! ## `redisStreamReader` -/

structure RedisStreamReader where
  isRedisEOF : Bool
  redisOffset : Nat
  buffer : Bytes
  bufferOffset : Nat
  expectedPayloadSize : Int
  readPayloadSize : Int

/-- `RedisCacheError`: the sizes read and expected. -/
structure RedisCacheError where
  readPayloadSize : Int
  expectedPayloadSize : Int
  deriving DecidableEq, Repr

def bufferSize : Nat := 2 * 1024 * 1024

def newRedisStreamReader (offset : Nat) (payloadSize : Int) : RedisStreamReader where
  isRedisEOF := false
  redisOffset := offset
  buffer := List.replicate bufferSize 0
  bufferOffset := bufferSize
  expectedPayloadSize := payloadSize
  readPayloadSize := 0

namespace RedisStreamReader

variable (db : RedisDB) (key : String)

def readRangeFromRedis (r : RedisStreamReader) (bufSize : Nat) : RedisStreamReader :=
  -- GETRANGE includes its upper bound, so one byte more than the buffer holds may come back
  let newBuf := db.getRange key r.redisOffset (r.redisOffset + bufSize)
  { r with
    redisOffset := r.redisOffset + newBuf.length
    isRedisEOF := r.isRedisEOF || decide (newBuf.length = 0) || decide (newBuf.length < bufSize)
    bufferOffset := 0
    buffer := newBuf }

/-- What is copied from the buffer; `bufSize` is its size before it was refilled. -/
def copyOut (r : RedisStreamReader) (bufSize n : Nat) : RedisStreamReader × Bytes :=
  if r.bufferOffset < bufSize then
    let b := (r.buffer.drop r.bufferOffset).take n
    ({ r with bufferOffset := r.bufferOffset + b.length, readPayloadSize := r.readPayloadSize + b.length }, b)
  else (r, [])

/-- `Read` into a buffer of size `n`. -/
def read : Reader.Read RedisStreamReader UInt8 RedisCacheError := fun r n =>
  let bufSize := r.buffer.length
  if r.bufferOffset ≥ bufSize ∧ r.isRedisEOF = true then
    if r.readPayloadSize ≠ r.expectedPayloadSize then
      (r, [], some (.error ⟨r.readPayloadSize, r.expectedPayloadSize⟩))
    else (r, [], some .eof)
  else
    let r := if r.bufferOffset ≥ bufSize then r.readRangeFromRedis db key bufSize else r
    ((r.copyOut bufSize n).1, (r.copyOut bufSize n).2, none)

end RedisStreamReader

/-! ## `Get` -/

/-- The readers in `CachedData.Data`: the bytes fetched at once, the stream, and the temporary file. -/
inductive RedisData
  | bytes (left : Bytes)
  | stream (r : RedisStreamReader)
  | file (left : Bytes)

def RedisData.reading (db : RedisDB) (key : String) :
    RedisData → List Nat → Bytes × Option (Reader.End RedisCacheError)
  | .bytes left => Reader.readAll Reader.slice left
  | .stream r => Reader.readAll (RedisStreamReader.read db key) r
  | .file left => Reader.readAll Reader.slice left

def nbBytesToFetch : Int := 100 * 1024

/-- `minTTLForRedisStreamingReader`, in nanoseconds. -/
def minTTLForRedisStreamingReader : Int := 15 * 1000000000

/-- `io.Copy` into the temporary file, with buffers of 32 KiB and at most `fuel` reads. -/
def copyToFile (db : RedisDB) (key : String) (r : RedisStreamReader) (fuel : Nat) :
    Option (Except RedisCacheError Bytes) :=
  match Reader.readAll (RedisStreamReader.read db key) r (List.replicate fuel (32 * 1024)) with
  | (b, some .eof) => some (.ok b)
  | (_, some (.error e)) => some (.error e)
  | (_, none) => none

/-- `readResultsAboveLimit`; `none` when `fuel` does not suffice for the copy. -/
def readResultsAboveLimit (db : RedisDB) (fuel offset : Nat) (key : String) (m : ContentMetadata) (ttl : Int) :
    Option (Except GetError (CachedData RedisData)) :=
  let r := newRedisStreamReader offset m.length
  if ttl ≤ minTTLForRedisStreamingReader then
    (copyToFile db key r fuel).map fun
      | .ok b => .ok ⟨m, .file b, ttl⟩
      | .error e => .error (.copy e.readPayloadSize e.expectedPayloadSize)
  else some (.ok ⟨m, .stream r, ttl⟩)

/-- `(int64(offset) + metadata.Length) < nbBytesToFetch`, where the sum of a damaged length may wrap. -/
def InFirstFetch (offset : Nat) (length : Int) : Prop := Int.bmod ((offset : Int) + length) (2 ^ 64) < nbBytesToFetch

instance (offset : Nat) (length : Int) : Decidable (InFirstFetch offset length) :=
  inferInstanceAs (Decidable (_ < _))

/-- The length of a value that was stored does not wrap. -/
theorem inFirstFetch_iff {offset : Nat} {length : Int} (h0 : 0 ≤ length) (h1 : offset + length < 2 ^ 63) :
    InFirstFetch offset length ↔ (offset : Int) + length < nbBytesToFetch := by
  rw [InFirstFetch, Int.bmod_eq_of_le (by omega) (by omega)]

/-- `Get`, with the answer of TTL; `none` when `fuel` does not suffice. -/
def redisGet (db : RedisDB) (fuel : Nat) (key : String) (ttl : Int) :
    Option (Except GetError (CachedData RedisData)) :=
  -- small payloads are answered from the first fetch alone
  let b := db.getRange key 0 nbBytesToFetch.toNat
  if b.length = 0 then some (.error .missing)
  else
    match decodeMetadata b with
    | .error e => some (.error (.metadata e))
    | .ok (m, offset) =>
      if InFirstFetch offset m.length then some (.ok ⟨m, .bytes (b.drop offset), ttl⟩)
      else readResultsAboveLimit db fuel offset key m ttl

/-! ## What the stream delivers -/

namespace RedisStreamReader

variable {db : RedisDB} {key : String} {v : Bytes} {size expected : Int}

/-- What is still to be delivered of the value: the rest of the buffer and what was not fetched. -/
def left (v : Bytes) (r : RedisStreamReader) : Bytes := r.buffer.drop r.bufferOffset ++ v.drop r.redisOffset

/-- The invariant of the stream over a value that stays as it is: `size` bytes of it in all, of which the
metadata promise `expected`. -/
structure Streams (v : Bytes) (size expected : Int) (r : RedisStreamReader) : Prop where
  fetched : r.isRedisEOF = true → v.drop r.redisOffset = []
  refillable : r.isRedisEOF = false → 0 < r.buffer.length
  counted : r.readPayloadSize + (r.left v).length = size
  expects : r.expectedPayloadSize = expected

/-- How the stream ends: all was read, and now its size is compared. -/
def ending (size expected : Int) : Reader.End RedisCacheError :=
  if size ≠ expected then .error ⟨size, expected⟩ else .eof

/-- Reads that remain at most: each returns something, except one that learns that there is no more. -/
def reads (v : Bytes) (r : RedisStreamReader) : Nat := (r.left v).length + (!r.isRedisEOF).toNat

theorem getRange_eq (hv : db key = some v) (start size : Nat) :
    db.getRange key start (start + size) = (v.drop start).take (size + 1) := by
  rw [RedisDB.getRange, hv, Option.getD_some, List.drop_take]
  congr 1
  omega

theorem refill_buffer (hv : db key = some v) (r : RedisStreamReader) (bufSize : Nat) :
    (r.readRangeFromRedis db key bufSize).buffer = (v.drop r.redisOffset).take (bufSize + 1) :=
  getRange_eq hv _ _

/-- A refill of an exhausted buffer loses nothing. -/
theorem left_refill (hv : db key = some v) {r : RedisStreamReader} (hr : r.buffer.length ≤ r.bufferOffset)
    (bufSize : Nat) : (r.readRangeFromRedis db key bufSize).left v = r.left v := by
  have hbuf := refill_buffer hv r bufSize
  have hoff : (r.readRangeFromRedis db key bufSize).redisOffset =
      r.redisOffset + (r.readRangeFromRedis db key bufSize).buffer.length := rfl
  rw [left, hoff, ← List.drop_drop, hbuf, left, List.drop_eq_nil_of_le hr]
  exact Reader.take_append_drop_length _ _

/-- A fetch that comes back short of the old size of the buffer has reached the end of the value. -/
theorem streams_refill (hv : db key = some v) {r : RedisStreamReader} (hs : r.Streams v size expected)
    (hr : r.buffer.length ≤ r.bufferOffset) (heof : r.isRedisEOF = false) :
    (r.readRangeFromRedis db key r.buffer.length).Streams v size expected := by
  have hpos := hs.refillable heof
  have hbuf := refill_buffer hv r r.buffer.length
  refine ⟨fun h => ?_, fun h => ?_, ?_, hs.expects⟩
  · have hshort : ((v.drop r.redisOffset).take (r.buffer.length + 1)).length < r.buffer.length := by
      simp only [readRangeFromRedis, heof, getRange_eq hv, Bool.false_or, Bool.or_eq_true, decide_eq_true_eq] at h
      omega
    rw [List.length_take] at hshort
    show v.drop (r.redisOffset + (r.readRangeFromRedis db key r.buffer.length).buffer.length) = []
    rw [hbuf, List.length_take, List.drop_eq_nil_iff]
    rw [List.length_drop] at hshort ⊢
    omega
  · simp only [readRangeFromRedis, heof, Bool.false_or, Bool.or_eq_false_iff, decide_eq_false_iff_not] at h
    exact Nat.pos_of_ne_zero h.1
  · rw [left_refill hv hr]
    exact hs.counted

theorem left_copyOut {r : RedisStreamReader} {bufSize : Nat} (h : r.bufferOffset < bufSize) (n : Nat) :
    r.left v = (r.copyOut bufSize n).2 ++ (r.copyOut bufSize n).1.left v := by
  rw [copyOut, if_pos h, left, left]
  simp only
  rw [← List.drop_drop, ← List.append_assoc, Reader.take_append_drop_length]

theorem streams_copyOut {r : RedisStreamReader} (hs : r.Streams v size expected) {bufSize : Nat}
    (h : r.bufferOffset < bufSize) (n : Nat) : (r.copyOut bufSize n).1.Streams v size expected := by
  have hleft := congrArg List.length (left_copyOut (v := v) h n)
  have hread : (r.copyOut bufSize n).1.readPayloadSize = r.readPayloadSize + (r.copyOut bufSize n).2.length := by
    rw [copyOut, if_pos h]
  have hexp : (r.copyOut bufSize n).1.expectedPayloadSize = r.expectedPayloadSize := by rw [copyOut, if_pos h]
  refine ⟨?_, ?_, ?_, hexp.trans hs.expects⟩
  · rw [copyOut, if_pos h]; exact hs.fetched
  · rw [copyOut, if_pos h]; exact hs.refillable
  · rw [hread, ← hs.counted, hleft, List.length_append]
    push_cast
    ring

theorem reads_copyOut {r : RedisStreamReader} {bufSize : Nat} (h : r.bufferOffset < bufSize) (n : Nat) :
    (r.copyOut bufSize n).1.reads v + min n (r.buffer.drop r.bufferOffset).length = r.reads v := by
  have hleft := congrArg List.length (left_copyOut (v := v) h n)
  have heof : (r.copyOut bufSize n).1.isRedisEOF = r.isRedisEOF := by rw [copyOut, if_pos h]
  have hlen : (r.copyOut bufSize n).2.length = min n (r.buffer.drop r.bufferOffset).length := by
    rw [copyOut, if_pos h, List.length_take]
  rw [List.length_append, hlen] at hleft
  rw [reads, reads, heof]
  omega

theorem reads_refill_le (hv : db key = some v) {r : RedisStreamReader} (hr : r.buffer.length ≤ r.bufferOffset)
    (heof : r.isRedisEOF = false) (bufSize : Nat) : (r.readRangeFromRedis db key bufSize).reads v ≤ r.reads v := by
  rw [reads, reads, left_refill hv hr, heof]
  exact Nat.add_le_add_left (Bool.toNat_le _) _

/-- A refill that fetches nothing has learned that there is no more. -/
theorem reads_refill_lt (hv : db key = some v) {r : RedisStreamReader} (hr : r.buffer.length ≤ r.bufferOffset)
    (heof : r.isRedisEOF = false) {bufSize : Nat} (hzero : (r.readRangeFromRedis db key bufSize).buffer.length = 0) :
    (r.readRangeFromRedis db key bufSize).reads v < r.reads v := by
  have hend : (r.readRangeFromRedis db key bufSize).isRedisEOF = true := by
    simp only [readRangeFromRedis] at hzero ⊢
    simp [hzero]
  rw [reads, reads, left_refill hv hr, heof, hend]
  simp

/-- `Read` makes progress. -/
theorem read_progress (hv : db key = some v) :
    Reader.ProgressTo (read db key) (Streams v size expected) (left v) (reads v) (ending size expected) := by
  refine ⟨fun r n hs hn => ?_⟩
  by_cases hend : r.bufferOffset ≥ r.buffer.length ∧ r.isRedisEOF = true
  · -- both the buffer and the value are consumed
    have hleft : r.left v = [] := by rw [left, List.drop_eq_nil_of_le hend.1, hs.fetched hend.2, List.nil_append]
    have hsize : r.readPayloadSize = size := by simpa [hleft] using hs.counted
    refine .inr ⟨r, ?_, hleft⟩
    simp only [read, if_pos hend, hsize, hs.expects, ending]
    split <;> rfl
  · left
    simp only [read, if_neg hend]
    by_cases hempty : r.bufferOffset ≥ r.buffer.length
    · -- the buffer is refilled first; either it has bytes to copy, or the end is now known
      have heof : r.isRedisEOF = false := by simpa [hempty] using hend
      rw [if_pos hempty]
      have hs' := streams_refill hv hs hempty heof
      have hlt : (r.readRangeFromRedis db key r.buffer.length).bufferOffset < r.buffer.length := hs.refillable heof
      refine ⟨_, _, rfl, streams_copyOut hs' hlt n, ?_, ?_⟩
      · rw [← left_copyOut hlt, left_refill hv hempty]
      · have hcopy := reads_copyOut (v := v) hlt n
        have hle := reads_refill_le hv hempty heof r.buffer.length
        simp only [show (r.readRangeFromRedis db key r.buffer.length).bufferOffset = 0 from rfl,
          List.drop_zero] at hcopy
        by_cases hzero : (r.readRangeFromRedis db key r.buffer.length).buffer.length = 0
        · have := reads_refill_lt hv hempty heof hzero
          omega
        · omega
    · rw [if_neg hempty]
      have hlt : r.bufferOffset < r.buffer.length := by omega
      have hcopy := reads_copyOut (v := v) hlt n
      rw [List.length_drop] at hcopy
      exact ⟨_, _, rfl, streams_copyOut hs hlt n, left_copyOut hlt n, by omega⟩

theorem left_new (v : Bytes) (offset : Nat) (payloadSize : Int) :
    (newRedisStreamReader offset payloadSize).left v = v.drop offset := by
  simp [left, newRedisStreamReader]

theorem streams_new (v : Bytes) (offset : Nat) (payloadSize : Int) :
    (newRedisStreamReader offset payloadSize).Streams v (v.drop offset).length payloadSize := by
  refine ⟨fun h => (nomatch h), fun _ => ?_, ?_, rfl⟩
  · simp only [newRedisStreamReader, List.length_replicate]
    decide
  · rw [left_new]
    simp [newRedisStreamReader]

end RedisStreamReader

/-! ## What `Put` stores and `Get` returns -/

theorem RedisDB.append_of_some {db : RedisDB} {key : String} {value : Bytes} (h : db key = some value) (b : Bytes) :
    db.append key b = (db.set key (value ++ b), value.length + b.length) := by
  simp [append, h]

theorem appendAll_eq {tmp : String} : ∀ {chunks : List Bytes} {db : RedisDB} {value : Bytes}, db tmp = some value →
    (∀ c ∈ chunks, c ≠ []) → appendAll tmp value.length db chunks = (db.set tmp (value ++ chunks.flatten), none)
  | [], db, value, h, _ => by
    simp [appendAll, RedisDB.set, ← h]
  | c :: cs, db, value, h, hne => by
    have hc : c.length ≠ 0 := by simpa using hne c List.mem_cons_self
    have hset : (db.set tmp (value ++ c)) tmp = some (value ++ c) := by simp [RedisDB.set]
    have ih := appendAll_eq hset fun x hx => hne x (List.mem_cons_of_mem _ hx)
    rw [List.length_append] at ih
    simp only [appendAll, if_neg hc, RedisDB.append_of_some h, ne_eq, not_true_eq_false, if_false, ih]
    simp [RedisDB.set]

/-- The value of a key after `Put`. -/
def redisValue (m : ContentMetadata) (payload : Bytes) : Bytes := encodeMetadata m ++ payload

/-- `Put` stores the value under its key, removes the temporary key and touches no other. -/
theorem redisPut_eq {db : RedisDB} {key : String} {m : ContentMetadata} {chunks : List Bytes} {random : Nat}
    (hne : ∀ c ∈ chunks, c ≠ []) :
    ∃ db', redisPut db key m chunks random = (db', none) ∧ db' key = some (redisValue m chunks.flatten) ∧
      ∀ k, k ≠ key → k ≠ tmpKey key random → db' k = db k := by
  have hset : (db.set (tmpKey key random) (encodeMetadata m)) (tmpKey key random) = some (encodeMetadata m) := by
    simp [RedisDB.set]
  rw [redisPut, appendAll_eq hset hne]
  refine ⟨_, rfl, ?_, fun k h1 h2 => ?_⟩
  · simp [RedisDB.rename, RedisDB.set, redisValue]
  · simp [RedisDB.rename, RedisDB.set, RedisDB.del, h1, h2]

section

variable {db : RedisDB} {key : String} {m : ContentMetadata} {payload v : Bytes}

/-- The copy into the temporary file reads the value to its end. -/
theorem copyToFile_eq (hdb : db key = some v) (offset : Nat) (payloadSize : Int) {fuel : Nat}
    (hfuel : (v.drop offset).length + 1 < fuel) :
    copyToFile db key (newRedisStreamReader offset payloadSize) fuel =
      if ((v.drop offset).length : Int) ≠ payloadSize then some (.error ⟨(v.drop offset).length, payloadSize⟩)
      else some (.ok (v.drop offset)) := by
  have hpos : ∀ n ∈ List.replicate fuel (32 * 1024), 0 < n := fun n hn => by
    rw [List.eq_of_mem_replicate hn]
    decide
  have hleft := RedisStreamReader.left_new v offset payloadSize
  have henough : (newRedisStreamReader offset payloadSize).reads v < (List.replicate fuel (32 * 1024)).length := by
    rw [List.length_replicate, RedisStreamReader.reads, hleft]
    exact Nat.lt_of_le_of_lt (Nat.add_le_add_left (Bool.toNat_le _) _) hfuel
  have hcopy := (RedisStreamReader.read_progress hdb).readAll_eq
    (RedisStreamReader.streams_new v offset payloadSize) hpos henough
  rw [copyToFile, hcopy, hleft, RedisStreamReader.ending]
  by_cases hsize : ((v.drop offset).length : Int) ≠ payloadSize
  · rw [if_pos hsize, if_pos hsize]
  · rw [if_neg hsize, if_neg hsize]

theorem stream_endsWith (hdb : db key = some v) (offset : Nat) (payloadSize : Int) :
    Reader.EndsWith ((RedisData.stream (newRedisStreamReader offset payloadSize)).reading db key) (v.drop offset)
      (RedisStreamReader.ending (v.drop offset).length payloadSize) := by
  have h := (RedisStreamReader.read_progress hdb).endsWith (RedisStreamReader.streams_new v offset payloadSize)
  rwa [RedisStreamReader.left_new] at h

/-- What is fetched range by range: the rest of the value, when it has the size that the metadata say. -/
theorem readResultsAboveLimit_ok (hdb : db key = some v) {offset : Nat}
    (hsize : ((v.drop offset).length : Int) = m.length) {fuel : Nat} (hfuel : (v.drop offset).length + 1 < fuel)
    (ttl : Int) :
    ∃ data, readResultsAboveLimit db fuel offset key m ttl = some (.ok ⟨m, data, ttl⟩) ∧
      Reader.Delivers (data.reading db key) (v.drop offset) := by
  unfold readResultsAboveLimit
  by_cases httl : ttl ≤ minTTLForRedisStreamingReader
  · refine ⟨.file (v.drop offset), ?_, Reader.slice_delivers _⟩
    simp only [if_pos httl, copyToFile_eq hdb offset m.length hfuel, hsize, ne_eq, not_true_eq_false, if_false,
      Option.map_some]
  · refine ⟨.stream _, by rw [if_neg httl], ?_⟩
    have h := stream_endsWith hdb offset m.length
    rwa [RedisStreamReader.ending, if_neg (not_not.2 hsize)] at h

theorem readResultsAboveLimit_eq (hdb : db key = some (redisValue m payload)) (hlen : m.length = payload.length)
    {fuel : Nat} (hfuel : payload.length + 1 < fuel) (ttl : Int) :
    ∃ data, readResultsAboveLimit db fuel (encodeMetadata m).length key m ttl = some (.ok ⟨m, data, ttl⟩) ∧
      Reader.Delivers (data.reading db key) payload := by
  have hdrop : (redisValue m payload).drop (encodeMetadata m).length = payload := List.drop_left
  have hsize : (((redisValue m payload).drop (encodeMetadata m).length).length : Int) = m.length := by rw [hdrop, hlen]
  have h := readResultsAboveLimit_ok hdb hsize (by rwa [hdrop]) ttl
  rwa [hdrop] at h

/-- `Get` of a key whose value was put whole: the first range holds the metadata, one byte included that
GETRANGE answers in excess. -/
theorem redisGet_eq (hm : m.Storable) (hdb : db key = some (redisValue m payload)) (hlen : m.length = payload.length)
    (hsize : (redisValue m payload).length < 2 ^ 63) (hfits : (encodeMetadata m).length ≤ nbBytesToFetch.toNat + 1)
    {fuel : Nat} (hfuel : payload.length + 1 < fuel) (ttl : Int) :
    ∃ data, redisGet db fuel key ttl = some (.ok ⟨m, data, ttl⟩) ∧ Reader.Delivers (data.reading db key) payload := by
  have hb : db.getRange key 0 nbBytesToFetch.toNat =
      encodeMetadata m ++ payload.take (nbBytesToFetch.toNat + 1 - (encodeMetadata m).length) := by
    rw [RedisDB.getRange, hdb, Option.getD_some, List.drop_zero, redisValue, List.take_append,
      List.take_of_length_le (by omega)]
  have hne : (db.getRange key 0 nbBytesToFetch.toNat).length ≠ 0 := by
    rw [hb, List.length_append, length_encodeMetadata]
    omega
  unfold redisGet
  simp only [if_neg hne]
  rw [hb, decodeMetadata_encodeMetadata hm.encodable]
  rw [redisValue, List.length_append] at hsize
  -- all of the payload came with the first range, or it is streamed
  by_cases hsmall : InFirstFetch (encodeMetadata m).length m.length
  · have hsum := (inFirstFetch_iff hm.length_ge (by omega)).1 hsmall
    refine ⟨.bytes payload, ?_, Reader.slice_delivers payload⟩
    simp only [if_pos hsmall]
    rw [List.drop_left, List.take_of_length_le (by omega)]
  · simp only [if_neg hsmall]
    exact readResultsAboveLimit_eq hdb hlen hfuel ttl

/-- Metadata that the first range does not hold are not decoded. -/
theorem redisGet_large (hm : m.Storable) (hdb : db key = some (redisValue m payload))
    (hlarge : nbBytesToFetch.toNat + 1 < (encodeMetadata m).length) (fuel : Nat) (ttl : Int) :
    redisGet db fuel key ttl = some (.error (.metadata .corruption)) := by
  have hb : db.getRange key 0 nbBytesToFetch.toNat = (encodeMetadata m).take (nbBytesToFetch.toNat + 1) := by
    rw [RedisDB.getRange, hdb, Option.getD_some, List.drop_zero, redisValue, List.take_append_of_le_length (by omega)]
  have hne : (db.getRange key 0 nbBytesToFetch.toNat).length ≠ 0 := by
    rw [hb, List.length_take_of_le (by omega)]
    omega
  unfold redisGet
  simp only [if_neg hne]
  rw [hb, decodeMetadata_take hm.encodable hlarge]

theorem redisGet_missing (hdb : db key = none) (fuel : Nat) (ttl : Int) :
    redisGet db fuel key ttl = some (.error .missing) := by
  simp [redisGet, RedisDB.getRange, hdb]

end

end Chproxy.Cache
