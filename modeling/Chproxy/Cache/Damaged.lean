/-
`redisCache.Get` on values that no `Put` stored (`cache/redis_cache.go`): metadata that can be decoded, and
after them more or fewer bytes than they say. The stream compares the sizes at its end, the read of a small
value does not.
-/
import Chproxy.Cache.MetadataCode
import Chproxy.Cache.Redis

namespace Chproxy.Cache

open Utils

/-! ## What a reader of the value is told -/

section

variable (db : RedisDB) (fuel : Nat) (key : String) (ttl : Int)

/-- `Get` succeeds, and so does reading its data to the end, which are `p`. -/
def ReadsAs (p : Bytes) : Prop :=
  ∃ cached, redisGet db fuel key ttl = some (.ok cached) ∧ Reader.Delivers (cached.data.reading db key) p

/-- `Get` reports an error, or the reading of its data ends with one. -/
def ReportsError : Prop :=
  (∃ e, redisGet db fuel key ttl = some (.error e)) ∨
  ∃ cached p e, redisGet db fuel key ttl = some (.ok cached) ∧
    Reader.EndsWith (cached.data.reading db key) p (.error e)

/-- Of a value with the metadata `m` before `offset`, exactly the one of the promised size is read, and then
as it is. -/
structure DetectsDamage (v : Bytes) (m : ContentMetadata) (offset : Nat) : Prop where
  whole : (v.length : Int) - offset = m.length → ReadsAs db fuel key ttl (v.drop offset)
  damaged : (v.length : Int) - offset ≠ m.length → ReportsError db fuel key ttl

end

section

variable {db : RedisDB} {fuel : Nat} {key : String} {ttl : Int}

theorem ReadsAs.not_reportsError {p : Bytes} (h : ReadsAs db fuel key ttl p) : ¬ReportsError db fuel key ttl := by
  obtain ⟨cached, hget, hdelivers⟩ := h
  rintro (⟨e, herror⟩ | ⟨cached', p', e, hget', hends⟩)
  · rw [hget] at herror
    cases herror
  · rw [hget] at hget'
    cases hget'
    have hend := ((Reader.delivers_iff.1 hdelivers).unique hends).2
    cases hend

theorem ReadsAs.unique {p p' : Bytes} (h : ReadsAs db fuel key ttl p) (h' : ReadsAs db fuel key ttl p') : p = p' := by
  obtain ⟨cached, hget, hdelivers⟩ := h
  obtain ⟨cached', hget', hdelivers'⟩ := h'
  rw [hget] at hget'
  cases hget'
  exact ((Reader.delivers_iff.1 hdelivers).unique (Reader.delivers_iff.1 hdelivers')).1

end

/-! ## The metadata in the first range -/

section

variable {db : RedisDB} {key : String} {v : Bytes} {m : ContentMetadata} {offset : Nat}

theorem getRange_first (hdb : db key = some v) :
    db.getRange key 0 nbBytesToFetch.toNat = v.take (nbBytesToFetch.toNat + 1) := by
  rw [RedisDB.getRange, hdb, Option.getD_some, List.drop_zero]

/-- What `decodeMetadata` finds in the first range of a value of which it can decode the whole. -/
theorem decodeMetadata_first (hdecode : decodeMetadata v = .ok (m, offset)) :
    decodeMetadata (v.take (nbBytesToFetch.toNat + 1)) =
      if offset ≤ nbBytesToFetch.toNat + 1 then .ok (m, offset) else .error .corruption := by
  obtain ⟨hle, hencode⟩ := encodeMetadata_of_decodeMetadata hdecode
  have hlen : (encodeMetadata m).length = offset := by rw [hencode, List.length_take_of_le hle]
  have hm := encodable_of_decodeMetadata hdecode
  by_cases hfits : offset ≤ nbBytesToFetch.toNat + 1
  · have hsplit : v.take (nbBytesToFetch.toNat + 1) =
        encodeMetadata m ++ (v.take (nbBytesToFetch.toNat + 1)).drop offset := by
      have h := (List.take_append_drop offset (v.take (nbBytesToFetch.toNat + 1))).symm
      rwa [List.take_take, Nat.min_eq_left hfits, ← hencode] at h
    rw [if_pos hfits, hsplit, decodeMetadata_encodeMetadata hm, hlen]
  · have hcut : v.take (nbBytesToFetch.toNat + 1) = (encodeMetadata m).take (nbBytesToFetch.toNat + 1) := by
      rw [hencode, List.take_take, Nat.min_eq_left (by omega)]
    rw [if_neg hfits, hcut, decodeMetadata_take hm (by omega)]

/-- `Get` of such a value. -/
theorem redisGet_of_decode (hdb : db key = some v) (hdecode : decodeMetadata v = .ok (m, offset)) (fuel : Nat)
    (ttl : Int) :
    redisGet db fuel key ttl =
      if offset ≤ nbBytesToFetch.toNat + 1 then
        if InFirstFetch offset m.length then
          some (.ok ⟨m, .bytes ((v.take (nbBytesToFetch.toNat + 1)).drop offset), ttl⟩)
        else readResultsAboveLimit db fuel offset key m ttl
      else some (.error (.metadata .corruption)) := by
  obtain ⟨hle, hencode⟩ := encodeMetadata_of_decodeMetadata hdecode
  have hlen : (encodeMetadata m).length = offset := by rw [hencode, List.length_take_of_le hle]
  rw [length_encodeMetadata] at hlen
  have hne : (v.take (nbBytesToFetch.toNat + 1)).length ≠ 0 := by
    rw [List.length_take]
    omega
  unfold redisGet
  simp only [getRange_first hdb, if_neg hne, decodeMetadata_first hdecode]
  by_cases hfits : offset ≤ nbBytesToFetch.toNat + 1
  · simp only [if_pos hfits]
  · simp only [if_neg hfits]

end

/-! ## The two paths -/

/-- The condition under which damage is detected. The stream detects it always; the read of a small value
never does, so that there the value has to be whole; and metadata that the first range cuts off are an error,
even those of a whole value. -/
def DamageShows (v : Bytes) (m : ContentMetadata) (offset : Nat) : Prop :=
  if offset ≤ nbBytesToFetch.toNat + 1 then
    ¬InFirstFetch offset m.length ∨ ((v.length : Int) - offset = m.length ∧ (v.length : Int) < nbBytesToFetch)
  else (v.length : Int) - offset ≠ m.length

section

variable {db : RedisDB} {fuel : Nat} {key : String} {ttl : Int} {v : Bytes} {m : ContentMetadata} {offset : Nat}
  (hdb : db key = some v) (hdecode : decodeMetadata v = .ok (m, offset))
include hdb hdecode

/-- The streaming path, into a file or as it is read. -/
theorem detectsDamage_stream (hfuel : v.length + 1 < fuel) (hfits : offset ≤ nbBytesToFetch.toNat + 1)
    (hlarge : ¬InFirstFetch offset m.length) : DetectsDamage db fuel key ttl v m offset := by
  have hle := (encodeMetadata_of_decodeMetadata hdecode).1
  have hget := redisGet_of_decode hdb hdecode fuel ttl
  rw [if_pos hfits, if_neg hlarge] at hget
  have hdrop : (v.drop offset).length = v.length - offset := List.length_drop
  constructor
  · intro hsize
    have hsize' : ((v.drop offset).length : Int) = m.length := by omega
    have hfuel' : (v.drop offset).length + 1 < fuel := by omega
    obtain ⟨data, hres, hdelivers⟩ := readResultsAboveLimit_ok hdb hsize' hfuel' ttl
    exact ⟨_, hget.trans hres, hdelivers⟩
  · intro hsize
    have hne : ((v.drop offset).length : Int) ≠ m.length := by omega
    unfold readResultsAboveLimit at hget
    by_cases httl : ttl ≤ minTTLForRedisStreamingReader
    · -- the copy into the file finds the size wrong
      simp only [if_pos httl, copyToFile_eq hdb offset m.length (show _ < fuel by omega), if_pos hne,
        Option.map_some] at hget
      exact .inl ⟨_, hget⟩
    · -- the reader is told at the end
      rw [if_neg httl] at hget
      have hends := stream_endsWith hdb offset m.length
      rw [RedisStreamReader.ending, if_pos hne] at hends
      exact .inr ⟨_, _, _, hget, hends⟩

/-- The path of a small value returns what the first range holds. -/
theorem readsAs_small (hfits : offset ≤ nbBytesToFetch.toNat + 1) (hsmall : InFirstFetch offset m.length)
    (fuel : Nat) (ttl : Int) : ReadsAs db fuel key ttl ((v.take (nbBytesToFetch.toNat + 1)).drop offset) := by
  have hget := redisGet_of_decode hdb hdecode fuel ttl
  rw [if_pos hfits, if_pos hsmall] at hget
  exact ⟨_, hget, Reader.slice_delivers _⟩

theorem detectsDamage_small (hfits : offset ≤ nbBytesToFetch.toNat + 1) (hsmall : InFirstFetch offset m.length) :
    DetectsDamage db fuel key ttl v m offset ↔
      (v.length : Int) - offset = m.length ∧ (v.length : Int) < nbBytesToFetch := by
  have hreads := readsAs_small hdb hdecode hfits hsmall fuel ttl
  have hle := (encodeMetadata_of_decodeMetadata hdecode).1
  constructor
  · intro h
    have hsize : (v.length : Int) - offset = m.length := by
      by_contra hne
      exact hreads.not_reportsError (h.damaged hne)
    refine ⟨hsize, ?_⟩
    -- all of the value was in the first range, so its length is within `int64` and the sum did not wrap
    have hall := congrArg List.length ((h.whole hsize).unique hreads)
    rw [List.length_drop, List.length_drop, List.length_take] at hall
    have hfetch : nbBytesToFetch = 102400 := rfl
    have hsum := (inFirstFetch_iff (by omega) (by omega)).1 hsmall
    omega
  · rintro ⟨hsize, hlt⟩
    refine ⟨fun _ => ?_, fun hne => absurd hsize hne⟩
    rwa [List.take_of_length_le (by omega)] at hreads

theorem detectsDamage_cut (hcut : ¬offset ≤ nbBytesToFetch.toNat + 1) :
    DetectsDamage db fuel key ttl v m offset ↔ (v.length : Int) - offset ≠ m.length := by
  have hget := redisGet_of_decode hdb hdecode fuel ttl
  rw [if_neg hcut] at hget
  constructor
  · intro h hsize
    obtain ⟨cached, hok, -⟩ := h.whole hsize
    rw [hget] at hok
    cases hok
  · intro hne
    exact ⟨fun hsize => absurd hsize hne, fun _ => .inl ⟨_, hget⟩⟩

end

/-- For every value that decodes to metadata and an offset: `Get` and reading its data to the end, by either
path, succeed with the value from the offset on exactly when the rest has the size in the metadata, and an
error is reported otherwise, if and only if the metadata send the read to the stream, or the value is small
and whole (or the metadata do not fit into the first range, and the value is damaged). `fuel` bounds the
copy into the temporary file. -/
theorem damage_detected_iff {db : RedisDB} {fuel : Nat} {key : String} {v : Bytes} {m : ContentMetadata}
    {offset : Nat} (hdb : db key = some v) (hdecode : decodeMetadata v = .ok (m, offset))
    (hfuel : v.length + 1 < fuel) (ttl : Int) :
    DetectsDamage db fuel key ttl v m offset ↔ DamageShows v m offset := by
  unfold DamageShows
  by_cases hfits : offset ≤ nbBytesToFetch.toNat + 1
  · rw [if_pos hfits]
    by_cases hsmall : InFirstFetch offset m.length
    · rw [detectsDamage_small hdb hdecode hfits hsmall]
      exact ⟨.inr, fun h => h.resolve_left (not_not.2 hsmall)⟩
    · exact iff_of_true (detectsDamage_stream hdb hdecode hfuel hfits hsmall) (.inl hsmall)
  · rw [if_neg hfits]
    exact detectsDamage_cut hdb hdecode hfits

/-- A value that promises five bytes and has three. -/
def shortened : Bytes := encodeMetadata ⟨5, [], []⟩ ++ bytes "abc"

def shortenedDB : RedisDB := fun _ => some shortened

theorem shortened_decodes : decodeMetadata shortened = .ok (⟨5, [], []⟩, 16) :=
  decodeMetadata_encodeMetadata ⟨by decide, by decide, by decide, by decide⟩ (bytes "abc")

/-- Three bytes after metadata that promise 200000 are found out. -/
theorem damage_detected_streamed :
    DetectsDamage (fun _ => some (encodeMetadata ⟨200000, [], []⟩ ++ bytes "abc")) 100 "key" 60
      (encodeMetadata ⟨200000, [], []⟩ ++ bytes "abc") ⟨200000, [], []⟩ 16 :=
  (damage_detected_iff rfl
    (decodeMetadata_encodeMetadata (m := ⟨200000, [], []⟩) ⟨by decide, by decide, by decide, by decide⟩ (bytes "abc"))
    (by decide) 60).2 (by rw [DamageShows, if_pos (by decide)]; exact .inl (by decide))

/-- The shortened value is served as if it were whole. -/
theorem shortened_served : decodeMetadata shortened = .ok (⟨5, [], []⟩, 16) ∧
    (shortened.length : Int) - 16 ≠ 5 ∧ ReadsAs shortenedDB 100 "key" 60 (bytes "abc") ∧
    ¬DetectsDamage shortenedDB 100 "key" 60 shortened ⟨5, [], []⟩ 16 := by
  have hsmall : InFirstFetch 16 (5 : Int) := by decide
  have hdb : shortenedDB "key" = some shortened := rfl
  have hreads := readsAs_small hdb shortened_decodes (by decide) hsmall 100 60
  have hbytes : (shortened.take (nbBytesToFetch.toNat + 1)).drop 16 = bytes "abc" := by decide
  have hsize : (shortened.length : Int) - 16 ≠ 5 := by decide
  rw [hbytes] at hreads
  exact ⟨shortened_decodes, hsize, hreads, fun h => hreads.not_reportsError (h.damaged hsize)⟩

end Chproxy.Cache
