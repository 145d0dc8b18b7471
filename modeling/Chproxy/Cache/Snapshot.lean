/-
One `redisCache.Get` and the reads of its data (`cache/redis_cache.go`) while other requests put values
under the key and the key expires. A large value is fetched range by range as it is read, by `Get` itself
into a file when the TTL is short, and by the client otherwise; of the end only the number of bytes is
checked. Commands of Redis are atomic, a `Put` is its RENAME, and no command of the `Get` fails.
-/
import Chproxy.Cache.Redis
import Chproxy.Cache.TornReads

namespace Chproxy.Cache

open Utils

/-! ## The beginning of `Get` -/

/-- `Get` up to the copy of a large value: the metadata and the reader. -/
def getStart (db : RedisDB) (key : String) : Except GetError (ContentMetadata × RedisData) :=
  let b := db.getRange key 0 nbBytesToFetch.toNat
  if b.length = 0 then .error .missing
  else
    match decodeMetadata b with
    | .error e => .error (.metadata e)
    | .ok (m, offset) =>
      if InFirstFetch offset m.length then .ok (m, .bytes (b.drop offset))
      else .ok (m, .stream (newRedisStreamReader offset m.length))

/-- `Get` with a TTL that is long enough is its beginning. -/
theorem redisGet_eq_getStart (db : RedisDB) (fuel : Nat) (key : String) {ttl : Int}
    (httl : minTTLForRedisStreamingReader < ttl) :
    redisGet db fuel key ttl = some ((getStart db key).map fun res => ⟨res.1, res.2, ttl⟩) := by
  unfold redisGet getStart
  dsimp only
  by_cases hempty : (db.getRange key 0 nbBytesToFetch.toNat).length = 0
  · rw [if_pos hempty, if_pos hempty]
    rfl
  · rw [if_neg hempty, if_neg hempty]
    cases decodeMetadata (db.getRange key 0 nbBytesToFetch.toNat) with
    | error e => rfl
    | ok res =>
      dsimp only
      split
      · rfl
      · rw [readResultsAboveLimit, if_neg (by omega)]
        rfl

namespace Content

/-- What a complete `Put` leaves under the key. -/
def value (c : Content) : Bytes := redisValue c.metadata c.payload

def offset (c : Content) : Nat := (encodeMetadata c.metadata).length

theorem drop_value (c : Content) : c.value.drop c.offset = c.payload := List.drop_left

theorem length_value (c : Content) : c.value.length = c.offset + c.payload.length := List.length_append

end Content

/-- What `Get` begins with when the key has a value: all of the payload, or a stream over it. -/
theorem getStart_eq {db : RedisDB} {key : String} {c : Content} (hdb : db key = some c.value) :
    getStart db key =
      if nbBytesToFetch.toNat + 1 < c.offset then .error (.metadata .corruption)
      else if (c.offset : Int) + c.payload.length < nbBytesToFetch then .ok (c.metadata, .bytes c.payload)
      else .ok (c.metadata, .stream (newRedisStreamReader c.offset c.payload.length)) := by
  have hlen : c.metadata.length = c.payload.length := c.length_eq
  have hoffset : (encodeMetadata c.metadata).length = c.offset := rfl
  have hpos : c.offset ≠ 0 := by rw [Content.offset, length_encodeMetadata]; omega
  have hrange : db.getRange key 0 nbBytesToFetch.toNat = c.value.take (nbBytesToFetch.toNat + 1) := by
    rw [RedisDB.getRange, hdb, Option.getD_some, List.drop_zero]
  have hne : (c.value.take (nbBytesToFetch.toNat + 1)).length ≠ 0 := by
    rw [List.length_take, c.length_value]
    omega
  unfold getStart
  simp only [hrange, if_neg hne]
  by_cases hlarge : nbBytesToFetch.toNat + 1 < c.offset
  · -- the metadata do not fit into the first range
    have hb : c.value.take (nbBytesToFetch.toNat + 1) = (encodeMetadata c.metadata).take (nbBytesToFetch.toNat + 1) :=
      List.take_append_of_le_length (Nat.le_of_lt hlarge)
    rw [hb, decodeMetadata_take c.storable.encodable hlarge, if_pos hlarge]
  · have hb : c.value.take (nbBytesToFetch.toNat + 1) =
        encodeMetadata c.metadata ++ c.payload.take (nbBytesToFetch.toNat + 1 - c.offset) := by
      rw [Content.value, redisValue, List.take_append, List.take_of_length_le (Nat.not_lt.1 hlarge)]
      rfl
    rw [hb, decodeMetadata_encodeMetadata c.storable.encodable, if_neg hlarge]
    have hsize : c.offset + c.payload.length < 2 ^ 63 := c.size_lt
    have hfirst : InFirstFetch c.offset c.payload.length ↔ (c.offset : Int) + c.payload.length < nbBytesToFetch :=
      inFirstFetch_iff (by omega) (by omega)
    simp only [hlen, hoffset, hfirst]
    by_cases hsmall : (c.offset : Int) + c.payload.length < nbBytesToFetch
    · rw [if_pos hsmall, if_pos hsmall, List.take_of_length_le (by omega), ← hoffset, List.drop_left]
    · rw [if_neg hsmall, if_neg hsmall]

theorem getStart_none {db : RedisDB} {key : String} (hdb : db key = none) : getStart db key = .error .missing := by
  simp [getStart, RedisDB.getRange, hdb]

/-! ## Steps -/

/-- A read of the data. -/
def RedisData.read (db : RedisDB) (key : String) : Reader.Read RedisData UInt8 RedisCacheError
  | .bytes left, n => let res := Reader.slice left n; (.bytes res.1, res.2)
  | .file left, n => let res := Reader.slice left n; (.file res.1, res.2)
  | .stream r, n => let res := RedisStreamReader.read db key r n; (.stream res.1, res.2)

inductive GetPhase
  | start
  | reading (m : ContentMetadata) (data : RedisData) (delivered : Bytes)
  | ended (m : ContentMetadata) (delivered : Bytes)
  | failed

/-- The value under the key, by the `Put` that left it there, all the `Put`s so far, and one `Get`.
`source` is the value that the `Get` began with. -/
structure GetState where
  current : Option Content
  puts : List Content
  phase : GetPhase
  source : Option Content

inductive GetAction
  | expire
  | put (c : Content)
  | get
  | read (n : Nat)

namespace GetState

def db (s : GetState) : RedisDB := fun _ => s.current.map Content.value

/-- No value yet, and the `Get` is still to come. -/
def Initial (s : GetState) : Prop := s.current = none ∧ s.phase = .start

/-- What follows a read. -/
def afterRead (m : ContentMetadata) (delivered : Bytes) :
    RedisData × Bytes × Option (Reader.End RedisCacheError) → GetPhase
  | (data, b, none) => .reading m data (delivered ++ b)
  | (_, b, some .eof) => .ended m (delivered ++ b)
  | (_, _, some (.error _)) => .failed

def step (key : String) (s : GetState) : GetAction → Option GetState
  | .expire => some { s with current := none }
  | .put c => some { s with current := some c, puts := c :: s.puts }
  | .get =>
    match s.phase, getStart s.db key with
    -- the first range is read at once, the rest as the reader asks for it
    | .start, .ok (m, data) => some { s with phase := .reading m data [], source := s.current }
    | .start, .error _ => some { s with phase := .failed }
    | _, _ => none
  | .read n =>
    match s.phase with
    | .reading m data delivered =>
      if n = 0 then none else some { s with phase := afterRead m delivered (data.read s.db key n) }
    | _ => none

theorem step_put (key : String) (s : GetState) (c : Content) :
    s.step key (.put c) = some { s with current := some c, puts := c :: s.puts } := rfl

theorem step_get {key : String} {s : GetState} (hphase : s.phase = .start) {m : ContentMetadata} {data : RedisData}
    (hget : getStart s.db key = .ok (m, data)) :
    s.step key .get = some { s with phase := .reading m data [], source := s.current } := by
  simp [step, hphase, hget]

theorem step_read {key : String} {s : GetState} {m : ContentMetadata} {data : RedisData} {delivered : Bytes}
    (hphase : s.phase = .reading m data delivered) {n : Nat} (hn : n ≠ 0)
    {res : RedisData × Bytes × Option (Reader.End RedisCacheError)} (hread : data.read s.db key n = res) :
    s.step key (.read n) = some { s with phase := afterRead m delivered res } := by
  simp [step, hphase, hn, hread]

/-- A `Put` that completes while the stream has not fetched all of the value that it began with leaves a
shorter value. -/
def Shorter (s : GetState) : GetAction → Prop
  | .put c => ∀ a ∈ s.source, ∀ m r delivered, s.phase = .reading m (.stream r) delivered →
      r.redisOffset < a.value.length → c.value.length < a.value.length
  | _ => True

end GetState

/-! ## One read of a stream -/

namespace RedisStreamReader

variable {db : RedisDB} {key : String} {r : RedisStreamReader}

/-- What is in the buffer and not yet copied. -/
def rest (r : RedisStreamReader) : Bytes := r.buffer.drop r.bufferOffset

theorem copyOut_rest (r : RedisStreamReader) (bufSize n : Nat) :
    r.rest = (r.copyOut bufSize n).2 ++ (r.copyOut bufSize n).1.rest ∧
    (r.copyOut bufSize n).1.redisOffset = r.redisOffset ∧
    (r.copyOut bufSize n).1.expectedPayloadSize = r.expectedPayloadSize ∧
    (r.copyOut bufSize n).1.readPayloadSize = r.readPayloadSize + (r.copyOut bufSize n).2.length := by
  unfold copyOut
  split
  · refine ⟨?_, rfl, rfl, rfl⟩
    rw [rest, rest]
    dsimp only
    rw [← List.drop_drop, Reader.take_append_drop_length]
  · exact ⟨rfl, rfl, rfl, by simp⟩

/-- A read ends when everything fetched is copied and the last fetch came back short, and then the number
of bytes decides; or it copies from the buffer, which it may have filled with the range at its offset. -/
theorem read_cases {r' : RedisStreamReader} {n : Nat} {b : Bytes} {e : Option (Reader.End RedisCacheError)}
    (h : read db key r n = (r', b, e)) :
    (e = some .eof ∧ b = [] ∧ r.rest = [] ∧ r.readPayloadSize = r.expectedPayloadSize) ∨
    (∃ err, e = some (.error err)) ∨
    (e = none ∧ r'.expectedPayloadSize = r.expectedPayloadSize ∧ r'.readPayloadSize = r.readPayloadSize + b.length ∧
      ((r'.redisOffset = r.redisOffset ∧ r.rest = b ++ r'.rest) ∨
        (r.rest = [] ∧ ∃ size, db.getRange key r.redisOffset (r.redisOffset + size) = b ++ r'.rest ∧
          r'.redisOffset = r.redisOffset + (b ++ r'.rest).length))) := by
  unfold read at h
  dsimp only at h
  split at h
  · rename_i hend
    split at h
    · cases h
      exact .inr (.inl ⟨_, rfl⟩)
    · rename_i hsize
      cases h
      exact .inl ⟨rfl, rfl, List.drop_eq_nil_of_le hend.1, not_not.1 hsize⟩
  · refine .inr (.inr ?_)
    cases h
    -- the buffer is filled again only when all of it was copied
    by_cases hempty : r.bufferOffset ≥ r.buffer.length
    · simp only [if_pos hempty]
      obtain ⟨hrest, hoff, hexp, hread⟩ :=
        (r.readRangeFromRedis db key r.buffer.length).copyOut_rest r.buffer.length n
      have hfetched : (r.readRangeFromRedis db key r.buffer.length).rest =
          db.getRange key r.redisOffset (r.redisOffset + r.buffer.length) := rfl
      rw [hfetched] at hrest
      exact ⟨trivial, hexp, hread, .inr ⟨List.drop_eq_nil_of_le hempty, _, hrest, hrest ▸ hoff⟩⟩
    · simp only [if_neg hempty]
      obtain ⟨hrest, hoff, hexp, hread⟩ := r.copyOut_rest r.buffer.length n
      exact ⟨trivial, hexp, hread, .inl ⟨hoff, hrest⟩⟩

end RedisStreamReader

/-! ## The invariant -/

/-- A stream over the value `a`. What was delivered and fetched is counted. It is a beginning of the
payload of `a`; or the stream has passed the end of `a`; or it will not get there, since only shorter
values come. -/
structure Streaming (s : GetState) (a : Content) (r : RedisStreamReader) (delivered : Bytes) : Prop where
  put : a ∈ s.puts
  expected : r.expectedPayloadSize = a.payload.length
  size : r.readPayloadSize = delivered.length
  counted : a.offset + delivered.length + r.rest.length = r.redisOffset
  bytes : delivered ++ r.rest ++ a.value.drop r.redisOffset = a.payload ∨ a.value.length < r.redisOffset ∨
    (r.redisOffset < a.value.length ∧ ∀ c ∈ s.current, c.value.length < a.value.length)
  current : r.redisOffset < a.value.length → ∀ c ∈ s.current, c = a ∨ c.value.length < a.value.length

/-- What the `Get` has so far. -/
def GetState.Consistent (s : GetState) : GetPhase → Prop
  | .start | .failed => True
  | .reading m (.stream r) delivered => ∃ a, s.source = some a ∧ m = a.metadata ∧ Streaming s a r delivered
  | .reading m (.bytes left) delivered => ∃ c ∈ s.puts, m = c.metadata ∧ delivered ++ left = c.payload
  | .reading _ (.file _) _ => False
  | .ended m delivered => ∃ c ∈ s.puts, m = c.metadata ∧ delivered = c.payload

structure GetState.Sound (s : GetState) : Prop where
  current : ∀ c ∈ s.current, c ∈ s.puts
  phase : s.Consistent s.phase

/-- At the end only a stream that delivered the payload has the right number of bytes. -/
theorem streaming_eof {s : GetState} {a : Content} {r : RedisStreamReader} {delivered : Bytes}
    (h : Streaming s a r delivered) (hrest : r.rest = []) (hsize : r.readPayloadSize = r.expectedPayloadSize) :
    delivered = a.payload := by
  have hlen : delivered.length = a.payload.length := by have := h.expected; have := h.size; omega
  have hcounted := h.counted
  rw [hrest, List.length_nil] at hcounted
  have hvalue := a.length_value
  -- a stream that passed the end of `a`, or stopped before it, has another number of bytes
  rcases h.bytes with hbytes | hover | ⟨hshort, -⟩
  · rw [hrest, List.append_nil, List.drop_eq_nil_of_le (by omega), List.append_nil] at hbytes
    exact hbytes
  · omega
  · omega

/-- What a range brings: the next bytes of `a`, bytes past its end, or an offset still before it. -/
theorem streaming_refill {s : GetState} {a : Content} {r : RedisStreamReader} {delivered : Bytes}
    (h : Streaming s a r delivered) (hrest : r.rest = []) (key : String) (size : Nat) {got : Bytes}
    (hgot : s.db.getRange key r.redisOffset (r.redisOffset + size) = got) :
    delivered ++ got ++ a.value.drop (r.redisOffset + got.length) = a.payload ∨
    a.value.length < r.redisOffset + got.length ∨
    (r.redisOffset + got.length < a.value.length ∧ ∀ c ∈ s.current, c.value.length < a.value.length) := by
  have hvalue := a.length_value
  have hcounted := h.counted
  rw [hrest, List.length_nil] at hcounted
  have hbytes := h.bytes
  rw [hrest, List.append_nil] at hbytes
  -- an expired key has the empty range, which moves nothing
  cases hcurrent : s.current with
  | none =>
    have hnil : got = [] := by rw [← hgot]; simp [RedisDB.getRange, GetState.db, hcurrent]
    subst hnil
    simpa [hcurrent] using hbytes
  | some c =>
    have hdb : s.db key = some c.value := by simp [GetState.db, hcurrent]
    rw [RedisStreamReader.getRange_eq hdb] at hgot
    have hlen : got.length ≤ c.value.length - r.redisOffset := by
      rw [← hgot, List.length_take, List.length_drop]
      omega
    rcases Nat.lt_or_ge r.redisOffset a.value.length with hlt | hge
    · -- the value under the key is `a`, or it ends before `a` does
      rcases h.current hlt c (by simp [hcurrent]) with rfl | hshort
      · rcases hbytes with hbytes | hover | ⟨-, hshort⟩
        · left
          rw [← hgot, ← List.drop_drop, List.append_assoc, Reader.take_append_drop_length]
          exact hbytes
        · omega
        · exact absurd (hshort c (by simp [hcurrent])) (Nat.lt_irrefl _)
      · refine .inr (.inr ⟨by omega, fun d hd => ?_⟩)
        cases hd
        exact hshort
    · -- all of `a` was fetched
      rcases Nat.eq_zero_or_pos got.length with hzero | hpos
      · rw [List.length_eq_zero_iff.1 hzero]
        rcases hbytes with hbytes | hover | ⟨hshort, -⟩
        · exact .inl (by simpa using hbytes)
        · exact .inr (.inl (by simpa using hover))
        · omega
      · exact .inr (.inl (by omega))

theorem streaming_read {s : GetState} {a : Content} {r r' : RedisStreamReader} {delivered b : Bytes} {key : String}
    {n : Nat} (h : Streaming s a r delivered) (hread : RedisStreamReader.read s.db key r n = (r', b, none)) :
    Streaming s a r' (delivered ++ b) := by
  rcases RedisStreamReader.read_cases hread with ⟨hnone, -⟩ | ⟨err, hnone⟩ | ⟨-, hexp, hsize, hcopy⟩
  · cases hnone
  · cases hnone
  · have hsize' : r'.readPayloadSize = (delivered ++ b).length := by
      rw [hsize, h.size, List.length_append]
      push_cast
      rfl
    have hcounted := h.counted
    -- from the buffer, or from a new range at the offset
    rcases hcopy with ⟨hoff, hrest⟩ | ⟨hrest, size, hgot, hoff⟩
    · have hbytes := h.bytes
      have hcurrent := h.current
      rw [hrest, List.length_append] at hcounted
      rw [hrest, ← List.append_assoc] at hbytes
      refine ⟨h.put, hexp.trans h.expected, hsize', ?_, hoff ▸ hbytes, hoff ▸ hcurrent⟩
      rw [hoff, List.length_append]
      omega
    · have hbytes := streaming_refill h hrest key size hgot
      rw [hrest, List.length_nil] at hcounted
      refine ⟨h.put, hexp.trans h.expected, hsize', ?_, ?_, fun hlt c hc => h.current (by omega) c hc⟩
      · rw [hoff, List.length_append, List.length_append]
        omega
      · rw [← List.append_assoc delivered b] at hbytes
        exact hoff ▸ hbytes

/-! ## Whole runs -/

/-- A change of the value under the key, while a stream is on its way to a shorter one. -/
theorem GetState.Consistent.mono {s s' : GetState} {p : GetPhase} (h : s.Consistent p) (hsource : s'.source = s.source)
    (hputs : ∀ c ∈ s.puts, c ∈ s'.puts)
    (hcurrent : ∀ a ∈ s.source, ∀ m r delivered, p = .reading m (.stream r) delivered →
      r.redisOffset < a.value.length → ∀ c ∈ s'.current, c ∈ s.current ∨ c.value.length < a.value.length) :
    s'.Consistent p := by
  cases p with
  | start => trivial
  | failed => trivial
  | ended m delivered =>
    obtain ⟨c, hc, h⟩ := h
    exact ⟨c, hputs c hc, h⟩
  | reading m data delivered =>
    cases data with
    | file left => exact h
    | bytes left =>
      obtain ⟨c, hc, h⟩ := h
      exact ⟨c, hputs c hc, h⟩
    | stream r =>
      obtain ⟨a, ha, hm, hs⟩ := h
      -- only a stream looks at the key again
      have hnew := hcurrent a ha m r delivered rfl
      refine ⟨a, hsource.trans ha, hm, hputs a hs.put, hs.expected, hs.size, hs.counted, ?_, fun hlt c hc => ?_⟩
      · rcases hs.bytes with hbytes | hover | ⟨hlt, hshort⟩
        · exact .inl hbytes
        · exact .inr (.inl hover)
        · exact .inr (.inr ⟨hlt, fun c hc => (hnew hlt c hc).elim (hshort c) id⟩)
      · exact (hnew hlt c hc).elim (hs.current hlt c) .inr

theorem GetState.Sound.withPhase {s : GetState} (hs : s.Sound) {p : GetPhase} (h : s.Consistent p) :
    { s with phase := p }.Sound :=
  ⟨hs.current, h.mono rfl (fun _ hc => hc) fun _ _ _ _ _ _ _ _ hc => .inl hc⟩

section

variable {key : String} {s s' : GetState}

theorem sound_get (hs : s.Sound) (hst : s.step key .get = some s') : s'.Sound := by
  simp only [GetState.step] at hst
  split at hst
  · rename_i m data hphase hget
    cases hst
    refine ⟨hs.current, ?_⟩
    cases hcurrent : s.current with
    | none =>
      rw [getStart_none (by simp [GetState.db, hcurrent])] at hget
      cases hget
    | some c =>
      have hc : c ∈ s.puts := hs.current c hcurrent
      have hdb : s.db key = some c.value := by simp [GetState.db, hcurrent]
      rw [getStart_eq hdb] at hget
      split at hget
      · cases hget
      · split at hget
        · cases hget
          exact ⟨c, hc, rfl, rfl⟩
        · cases hget
          -- the stream begins right after the metadata, with nothing in its buffer
          refine ⟨c, rfl, rfl, hc, rfl, rfl, ?_, .inl ?_, fun _ d hd => .inl ?_⟩
          · simp [RedisStreamReader.rest, newRedisStreamReader]
          · simp only [RedisStreamReader.rest, newRedisStreamReader]
            rw [List.drop_eq_nil_of_le (by simp), List.nil_append, List.nil_append, c.drop_value]
          · exact (Option.some.inj hd).symm
  · cases hst
    exact ⟨hs.current, trivial⟩
  · cases hst

theorem sound_read (hs : s.Sound) {n : Nat} (hst : s.step key (.read n) = some s') : s'.Sound := by
  simp only [GetState.step] at hst
  split at hst
  · rename_i m data delivered hphase
    split at hst
    · cases hst
    · rename_i hn
      cases hst
      have hcons := hs.phase
      rw [hphase] at hcons
      refine hs.withPhase ?_
      cases data with
      | file left => exact hcons.elim
      | bytes left =>
        obtain ⟨c, hc, hm, hbytes⟩ := hcons
        cases left with
        | nil => exact ⟨c, hc, hm, by simpa using hbytes⟩
        | cons x xs =>
          refine ⟨c, hc, hm, ?_⟩
          show delivered ++ (x :: xs).take n ++ (x :: xs).drop n = c.payload
          rw [List.append_assoc, List.take_append_drop, hbytes]
      | stream r =>
        obtain ⟨a, ha, hm, hstream⟩ := hcons
        rcases hread : RedisStreamReader.read s.db key r n with ⟨r', b, e⟩
        simp only [RedisData.read, hread]
        cases e with
        | none => exact ⟨a, ha, hm, streaming_read hstream hread⟩
        | some e =>
          -- the end of the stream, or an error and then nothing is said
          rcases RedisStreamReader.read_cases hread with ⟨he, rfl, hrest, hsize⟩ | ⟨err, he⟩ | ⟨he, -⟩
          · cases he
            refine ⟨a, hstream.put, hm, ?_⟩
            rw [List.append_nil]
            exact streaming_eof hstream hrest hsize
          · cases he
            trivial
          · cases he
  · cases hst

theorem sound_step {a : GetAction} (hs : s.Sound) (hst : s.step key a = some s') (hshort : s.Shorter a) : s'.Sound := by
  cases a with
  | expire =>
    cases hst
    refine ⟨fun c hc => ?_, hs.phase.mono rfl (fun _ hc => hc) fun _ _ _ _ _ _ _ c hc => ?_⟩
    · cases hc
    · cases hc
  | put c =>
    cases hst
    refine ⟨fun d hd => ?_, hs.phase.mono rfl (fun _ hd => List.mem_cons_of_mem _ hd) ?_⟩
    · cases hd
      exact List.mem_cons_self
    · intro a ha m r delivered hphase hlt d hd
      cases hd
      exact .inr (hshort a ha m r delivered hphase hlt)
  | get => exact sound_get hs hst
  | read n => exact sound_read hs hst

theorem sound_initial (h : s.Initial) : s.Sound := by
  obtain ⟨hcurrent, hphase⟩ := h
  refine ⟨fun c hc => ?_, ?_⟩
  · rw [hcurrent] at hc
    cases hc
  · rw [hphase]
    trivial

end

/-! ## A value of two ranges -/

namespace RedisStreamReader

/-- A read into a large buffer copies a whole range. -/
theorem read_range {db : RedisDB} {key : String} {r : RedisStreamReader} {size : Nat} (hsize : r.buffer.length = size)
    (hempty : size ≤ r.bufferOffset) (heof : r.isRedisEOF = false) (hpos : 0 < size) {got : Bytes}
    (hgot : db.getRange key r.redisOffset (r.redisOffset + size) = got) {n : Nat} (hn : got.length ≤ n) :
    read db key r n =
      (⟨decide (got.length < size), r.redisOffset + got.length, got, got.length, r.expectedPayloadSize,
        r.readPayloadSize + got.length⟩, got, none) := by
  subst hsize
  have hend : (false || decide (got.length = 0) || decide (got.length < r.buffer.length)) =
      decide (got.length < r.buffer.length) := by
    by_cases hzero : got.length = 0
    · simp [hzero, hpos]
    · simp [hzero]
  unfold read
  dsimp only
  rw [if_neg (by simp [heof]), if_pos hempty]
  simp only [copyOut, readRangeFromRedis, hgot, if_pos hpos, List.drop_zero, List.take_of_length_le hn, heof, hend,
    Nat.zero_add]

theorem read_eof {db : RedisDB} {key : String} {r : RedisStreamReader} (hempty : r.buffer.length ≤ r.bufferOffset)
    (heof : r.isRedisEOF = true) (hsize : r.readPayloadSize = r.expectedPayloadSize) (n : Nat) :
    read db key r n = (r, [], some .eof) := by
  simp [read, hempty, heof, hsize]

end RedisStreamReader

section

variable (a b : Content)

/-- The stream over `a` after its first range. -/
def firstRange : RedisStreamReader :=
  ⟨false, a.offset + (bufferSize + 1), a.payload.take (bufferSize + 1), bufferSize + 1, a.payload.length,
    (bufferSize + 1 : Nat)⟩

/-- And after what is left comes from `b`. -/
def secondRange : RedisStreamReader :=
  ⟨true, a.offset + (bufferSize + 1) + (a.payload.length - (bufferSize + 1)), b.payload.drop (bufferSize + 1),
    a.payload.length - (bufferSize + 1), a.payload.length,
    (bufferSize + 1 : Nat) + (a.payload.length - (bufferSize + 1) : Nat)⟩

variable {a b} (key : String) (hlen : b.payload.length = a.payload.length) (hlarge : bufferSize + 1 < a.payload.length)
  (hsmall : a.payload.length ≤ 2 * bufferSize + 1)
include hlarge

theorem read_firstRange :
    RedisStreamReader.read (fun _ => some a.value) key (newRedisStreamReader a.offset a.payload.length)
      (bufferSize + 1) =
      (firstRange a, a.payload.take (bufferSize + 1), none) := by
  have hnew : (newRedisStreamReader a.offset a.payload.length).buffer.length = bufferSize := List.length_replicate
  have hgot : RedisDB.getRange (fun _ => some a.value) key a.offset (a.offset + bufferSize) =
      a.payload.take (bufferSize + 1) := by
    rw [RedisStreamReader.getRange_eq (v := a.value) rfl, a.drop_value]
  have hgotLen : (a.payload.take (bufferSize + 1)).length = bufferSize + 1 := List.length_take_of_le hlarge.le
  have hread := RedisStreamReader.read_range (n := bufferSize + 1) hnew le_rfl rfl (by decide) hgot hgotLen.le
  rw [hgotLen, decide_eq_false (by omega)] at hread
  rw [hread, firstRange, newRedisStreamReader, Int.zero_add]

include hlen

theorem read_secondRange_eof (db : RedisDB) (n : Nat) :
    RedisStreamReader.read db key (secondRange a b) n = (secondRange a b, [], some .eof) := by
  refine RedisStreamReader.read_eof ?_ rfl ?_ n
  · show (b.payload.drop (bufferSize + 1)).length ≤ a.payload.length - (bufferSize + 1)
    rw [List.length_drop, hlen]
  · simp only [secondRange]
    omega

include hsmall

/-- The second range comes from `b`, and it is short. -/
theorem read_secondRange (hoffset : b.offset = a.offset) :
    RedisStreamReader.read (fun _ => some b.value) key (firstRange a) a.payload.length =
      (secondRange a b, b.payload.drop (bufferSize + 1), none) := by
  have hbuffer : (firstRange a).buffer.length = bufferSize + 1 := List.length_take_of_le hlarge.le
  have hgot : RedisDB.getRange (fun _ => some b.value) key (firstRange a).redisOffset
      ((firstRange a).redisOffset + (bufferSize + 1)) = b.payload.drop (bufferSize + 1) := by
    rw [firstRange, RedisStreamReader.getRange_eq (v := b.value) rfl, ← hoffset, ← List.drop_drop, b.drop_value,
      List.take_of_length_le (by rw [List.length_drop]; omega)]
  have hgotLen : (b.payload.drop (bufferSize + 1)).length = a.payload.length - (bufferSize + 1) := by
    rw [List.length_drop, hlen]
  have hread := RedisStreamReader.read_range (n := a.payload.length) hbuffer le_rfl rfl (by omega) hgot (by omega)
  rw [hgotLen, decide_eq_true (by omega)] at hread
  exact hread

/-! The same three reads in a run, beside whatever else happens in it. -/

variable {C : GetState → GetAction → Prop} (hgetC : ∀ s, C s .get) (hreadC : ∀ s n, C s (.read n)) {s : GetState}
  (h : Steps.ReachWhen (GetState.step key) GetState.Initial (fun s a _ => C s a) s)

omit hsmall hlen in
include hgetC hreadC h in
theorem reach_firstRange (hfits : a.offset ≤ nbBytesToFetch.toNat + 1) (hcurrent : s.current = some a)
    (hphase : s.phase = .start) :
    Steps.ReachWhen (GetState.step key) GetState.Initial (fun s a _ => C s a)
      { s with
        phase := .reading a.metadata (.stream (firstRange a)) (a.payload.take (bufferSize + 1)),
        source := some a } := by
  obtain ⟨current, puts, phase, source⟩ := s
  cases hcurrent
  cases hphase
  have hget : getStart (fun _ => some a.value) key =
      .ok (a.metadata, .stream (newRedisStreamReader a.offset a.payload.length)) := by
    have hfetch : nbBytesToFetch < bufferSize := by decide
    rw [getStart_eq (c := a) rfl, if_neg (by omega), if_neg (by omega)]
  have hread : (RedisData.stream (newRedisStreamReader a.offset a.payload.length)).read (fun _ => some a.value) key
      (bufferSize + 1) = (.stream (firstRange a), a.payload.take (bufferSize + 1), none) := by
    rw [RedisData.read, read_firstRange key hlarge]
  have hreading := h.step (GetState.step_get rfl hget) (hgetC _)
  exact hreading.step (GetState.step_read (s := ⟨some a, puts, .reading a.metadata _ [], some a⟩) rfl (by omega) hread)
    (hreadC _ _)

include hreadC h in
theorem reach_secondRange (hoffset : b.offset = a.offset) (hcurrent : s.current = some b)
    (hphase : s.phase = .reading a.metadata (.stream (firstRange a)) (a.payload.take (bufferSize + 1))) :
    Steps.ReachWhen (GetState.step key) GetState.Initial (fun s a _ => C s a)
      { s with
        phase := .reading a.metadata (.stream (secondRange a b))
          (a.payload.take (bufferSize + 1) ++ b.payload.drop (bufferSize + 1)) } := by
  obtain ⟨current, puts, phase, source⟩ := s
  cases hcurrent
  have hread : (RedisData.stream (firstRange a)).read (fun _ => some b.value) key a.payload.length =
      (.stream (secondRange a b), b.payload.drop (bufferSize + 1), none) := by
    rw [RedisData.read, read_secondRange key hlen hlarge hsmall hoffset]
  exact h.step (GetState.step_read hphase (by omega) hread) (hreadC _ _)

omit hsmall in
include hreadC h in
theorem reach_ended {delivered : Bytes} (hphase : s.phase = .reading a.metadata (.stream (secondRange a b)) delivered) :
    Steps.ReachWhen (GetState.step key) GetState.Initial (fun s a _ => C s a)
      { s with phase := .ended a.metadata delivered } := by
  have hread : (RedisData.stream (secondRange a b)).read s.db key 1 = (.stream (secondRange a b), [], some .eof) := by
    rw [RedisData.read, read_secondRange_eof key hlen hlarge]
  have hend := h.step (GetState.step_read hphase (n := 1) (by omega) hread) (hreadC _ _)
  simpa only [GetState.afterRead, List.append_nil] using hend

end

/-- A payload of equal bytes. -/
def filled (n : Nat) (x : UInt8) (h : 16 + n < 2 ^ 63) : Content where
  metadata := ⟨n, [], []⟩
  chunks := [List.replicate n x]
  length_eq := by simp
  storable := ⟨by simp, by simp, by simp, by simp only; omega⟩
  size_lt := by rw [length_encodeMetadata, List.flatten_singleton, List.length_replicate]; exact h

theorem payload_filled {n : Nat} {x : UInt8} (h : 16 + n < 2 ^ 63) : (filled n x h).payload = List.replicate n x := by
  simp [filled, Content.payload]

/-- Values of 3 MiB are fetched in two ranges. -/
def threeMiB (x : UInt8) : Content := filled (3 * 1024 * 1024) x (by omega)

theorem length_threeMiB (x : UInt8) : (threeMiB x).payload.length = 3 * 1024 * 1024 := by
  rw [threeMiB, payload_filled, List.length_replicate]

theorem offset_threeMiB (x : UInt8) : (threeMiB x).offset = 16 := by
  rw [Content.offset, length_encodeMetadata]
  rfl

/-! ## Snapshots -/

/-- A read from Redis is a snapshot when only shorter values replace the value being streamed: in every run
of a `Get` and its reads with other calls of `Put` and with expirations of the key, in which every `Put`
that completes before the stream has fetched all of its value leaves a shorter one, a reader that ends with
`io.EOF` has delivered the payload of one single `Put`, with its metadata. -/
theorem streamed_read_is_snapshot {key : String} {s : GetState}
    (h : Steps.ReachWhen (GetState.step key) GetState.Initial (fun s a _ => s.Shorter a) s) {m : ContentMetadata}
    {data : Bytes} (hend : s.phase = .ended m data) : ∃ c ∈ s.puts, c.metadata = m ∧ c.payload = data := by
  have hs : s.Sound := h.invariant (fun _ => sound_initial) fun _ _ _ hs hst hshort => sound_step hs hst hshort
  have hphase := hs.phase
  rw [hend] at hphase
  obtain ⟨c, hc, hm, hdata⟩ := hphase
  exact ⟨c, hc, hm.symm, hdata.symm⟩

/-- The state of a process that has put the first value. -/
theorem reach_put {key : String} {C : GetState → GetAction → Prop} {c : Content}
    (hC : C ⟨none, [], .start, none⟩ (.put c)) :
    Steps.ReachWhen (GetState.step key) GetState.Initial (fun s a _ => C s a) ⟨some c, [c], .start, none⟩ :=
  .step (a := .put c) (.init (s := ⟨none, [], .start, none⟩) ⟨rfl, rfl⟩) rfl hC

/-- A value is streamed in two ranges. Once the second is fetched the value expires and another one is put; the
reader ends with the first. -/
theorem reach_replacedAfter (key : String) {a b : Content} (hlarge : bufferSize + 1 < a.payload.length)
    (hsmall : a.payload.length ≤ 2 * bufferSize + 1) (hoffset : a.offset ≤ nbBytesToFetch.toNat + 1) :
    Steps.ReachWhen (GetState.step key) GetState.Initial (fun s a _ => s.Shorter a)
      ⟨some b, [b, a], .ended a.metadata a.payload, some a⟩ := by
  have hfirst := reach_firstRange key hlarge (C := GetState.Shorter) (fun _ => trivial) (fun _ _ => trivial)
    (reach_put fun a ha => by cases ha) hoffset rfl rfl
  have hsecond := reach_secondRange key rfl hlarge hsmall (fun _ _ => trivial) hfirst rfl rfl rfl
  have hexpired := hsecond.step (a := GetAction.expire) rfl trivial
  have hput := hexpired.step (GetState.step_put _ _ b) fun a ha m r delivered hphase hlt => by
    -- all of the value is fetched
    cases ha
    cases hphase
    rw [Content.length_value] at hlt
    simp only [secondRange] at hlt
    omega
  have hend := reach_ended key rfl hlarge (fun _ _ => trivial) hput rfl
  rwa [List.take_append_drop] at hend

/-- A value is put between the two ranges of another one of the same length. -/
theorem reach_replacedBetween (key : String) {a b : Content} (hlen : b.payload.length = a.payload.length)
    (hlarge : bufferSize + 1 < a.payload.length) (hsmall : a.payload.length ≤ 2 * bufferSize + 1)
    (hfits : a.offset ≤ nbBytesToFetch.toNat + 1) (hoffset : b.offset = a.offset) :
    Steps.Reach (GetState.step key) GetState.Initial
      ⟨some b, [b, a], .ended a.metadata (a.payload.take (bufferSize + 1) ++ b.payload.drop (bufferSize + 1)),
        some a⟩ := by
  have hfirst := reach_firstRange key hlarge (C := fun _ _ => True) (fun _ => trivial) (fun _ _ => trivial)
    (reach_put trivial) hfits rfl rfl
  have hput := hfirst.step (GetState.step_put _ _ b) trivial
  have hsecond := reach_secondRange key hlen hlarge hsmall (fun _ _ => trivial) hput hoffset rfl rfl
  exact reach_ended key hlen hlarge (fun _ _ => trivial) hsecond rfl

theorem threeMiB_large (x : UInt8) : bufferSize + 1 < (threeMiB x).payload.length := by
  rw [length_threeMiB]
  decide

theorem threeMiB_small (x : UInt8) : (threeMiB x).payload.length ≤ 2 * bufferSize + 1 := by
  rw [length_threeMiB]
  decide

theorem threeMiB_fits (x : UInt8) : (threeMiB x).offset ≤ nbBytesToFetch.toNat + 1 := by
  rw [offset_threeMiB]
  decide

/-- A value of 3 MiB is streamed while it expires and another one of the same length is put. -/
theorem streamed_read_two_ranges :
    Steps.ReachWhen (GetState.step "key") GetState.Initial (fun s a _ => s.Shorter a)
      ⟨some (threeMiB 2), [threeMiB 2, threeMiB 1], .ended (threeMiB 1).metadata (threeMiB 1).payload,
        some (threeMiB 1)⟩ ∧
    bufferSize + 1 < (threeMiB 1).payload.length ∧
    ∃ c ∈ [threeMiB 2, threeMiB 1], c.metadata = (threeMiB 1).metadata ∧ c.payload = (threeMiB 1).payload := by
  have hreach := reach_replacedAfter "key" (b := threeMiB 2) (threeMiB_large 1) (threeMiB_small 1) (threeMiB_fits 1)
  exact ⟨hreach, threeMiB_large 1, streamed_read_is_snapshot hreach rfl⟩

/-- Two results of 3 MiB for one key, the second put between the two ranges of the first: what is read is
neither of them, and the reader reports no error. -/
theorem mixed_read_ends : ∃ s m data, Steps.Reach (GetState.step "key") GetState.Initial s ∧
    s.phase = .ended m data ∧ s.puts.length = 2 ∧ ¬∃ c ∈ s.puts, c.metadata = m ∧ c.payload = data := by
  have heq : (threeMiB 2).payload.length = (threeMiB 1).payload.length := by rw [length_threeMiB, length_threeMiB]
  have hreach := reach_replacedBetween "key" heq (threeMiB_large 1) (threeMiB_small 1) (threeMiB_fits 1)
    (by rw [offset_threeMiB, offset_threeMiB])
  refine ⟨_, _, _, hreach, rfl, rfl, ?_⟩
  rintro ⟨c, hc, -, hdata⟩
  have hsize : bufferSize = 2 * 1024 * 1024 := rfl
  have hpayload : ∀ x, (threeMiB x).payload = List.replicate (3 * 1024 * 1024) x := fun x => payload_filled _
  rw [hpayload, hpayload, List.take_replicate, List.drop_replicate] at hdata
  -- the first byte is not from the second value, the last one not from the first
  have hone : (1 : UInt8) ∈ c.payload := by
    rw [hdata, List.mem_append, List.mem_replicate]
    exact .inl ⟨by omega, rfl⟩
  have htwo : (2 : UInt8) ∈ c.payload := by
    rw [hdata, List.mem_append, List.mem_replicate, List.mem_replicate]
    exact .inr ⟨by omega, rfl⟩
  rcases List.mem_cons.1 hc with rfl | hc
  · rw [hpayload] at hone
    exact absurd (List.eq_of_mem_replicate hone) (by decide)
  · rw [List.mem_singleton.1 hc, hpayload] at htwo
    exact absurd (List.eq_of_mem_replicate htwo) (by decide)

end Chproxy.Cache
