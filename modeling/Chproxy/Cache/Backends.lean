/-
The two back ends of the cache as one map: after any sequence of calls, `Get` of the file system cache and
`Get` of the Redis cache return what was put last.
-/
import Chproxy.Cache.Redis

namespace Chproxy.Cache

open Utils

/-! ## Calls -/

/-- A value of `Key.String()`: 16 bytes in hexadecimal. -/
structure KeyString where
  text : String
  length_eq : text.length = 32
  hex : text.toList.all (fun c => c.isDigit || (97 ≤ c.toNat && c.toNat ≤ 102)) = true

theorem KeyString.ext {k j : KeyString} (h : k.text = j.text) : k = j := by
  cases k; cases j; cases h; rfl

instance : DecidableEq KeyString := fun _ _ => decidable_of_iff _ ⟨KeyString.ext, congrArg KeyString.text⟩

/-- A call of `Put`: its reader delivers `chunks`, none of them empty, and then `io.EOF`; the length in the
metadata is that of the payload; the metadata are encoded in at most 100 KiB, and with the payload they have
a length in `int64`. `random` is what the Redis cache draws for its temporary key. -/
structure PutCall where
  key : KeyString
  metadata : ContentMetadata
  chunks : List Bytes
  random : Nat
  chunks_ne : ∀ c ∈ chunks, c ≠ []
  length_eq : metadata.length = chunks.flatten.length
  length_lt : (encodeMetadata metadata).length + chunks.flatten.length < 2 ^ 63
  encoded_le : (encodeMetadata metadata).length ≤ 100 * 1024

def PutCall.payload (p : PutCall) : Bytes := p.chunks.flatten

/-- A call on a cache. A `Get` comes with the age of the file and with the answer of Redis to TTL. -/
inductive Call
  | put (p : PutCall)
  | get (key : KeyString) (age : Int64) (ttl : Int)

/-- What a `Get` gives: an error, or the metadata and what is read for every sequence of buffer sizes. -/
abbrev Answer := Except GetError (ContentMetadata × (List Nat → Bytes × Option (Reader.End RedisCacheError)))

theorem PutCall.storable (p : PutCall) : p.metadata.Storable := by
  have h1 := p.encoded_le
  have h2 := p.length_eq
  have h3 := p.length_lt
  rw [length_encodeMetadata] at h1
  exact ⟨by omega, by omega, by omega, by omega⟩

/-! ## The map -/

abbrev CacheMap := KeyString → Option (ContentMetadata × Bytes)

def CacheMap.put (m : CacheMap) (p : PutCall) : CacheMap := Function.update m p.key (some (p.metadata, p.payload))

def CacheMap.answers : CacheMap → List Call → List (Option (ContentMetadata × Bytes))
  | _, [] => []
  | m, .put p :: calls => answers (m.put p) calls
  | m, .get k _ _ :: calls => m k :: answers m calls

/-- The answer of a back end is that of the map. -/
def Matches (a : Option Answer) : Option (ContentMetadata × Bytes) → Prop
  | none => a = some (.error .missing)
  | some (m, payload) => ∃ reading, a = some (.ok (m, reading)) ∧ Reader.Delivers reading payload

/-! ## Back ends -/

/-- A back end; the answer is `none` where a loop of it was not given enough rounds. -/
structure Backend (σ : Type) where
  put : σ → PutCall → σ
  get : σ → KeyString → Int64 → Int → Option Answer

def Backend.answers {σ : Type} (b : Backend σ) : σ → List Call → List (Option Answer)
  | _, [] => []
  | s, .put p :: calls => answers b (b.put s p) calls
  | s, .get k age ttl :: calls => b.get s k age ttl :: answers b s calls

def fileSystem : Backend FileSystemCache where
  put f p := f.put p.key.text p.metadata p.chunks
  get f k age _ := some ((f.get k.text age).map fun d => (d.metadata, Reader.readAll Reader.slice d.data))

def redis (fuel : Nat) : Backend RedisDB where
  put db p := (redisPut db p.key.text p.metadata p.chunks p.random).1
  get db k _ ttl := (redisGet db fuel k.text ttl).map (·.map fun d => (d.metadata, d.data.reading db k.text))

/-- A back end refines the map through `R`, on the calls that meet `C`. -/
structure Refines {σ : Type} (b : Backend σ) (R : σ → CacheMap → Prop) (C : Call → Prop) : Prop where
  put : ∀ {s m} p, R s m → C (.put p) → R (b.put s p) (m.put p)
  get : ∀ {s m} k age ttl, R s m → C (.get k age ttl) → Matches (b.get s k age ttl) (m k)

theorem Refines.answers {σ : Type} {b : Backend σ} {R : σ → CacheMap → Prop} {C : Call → Prop} (h : Refines b R C)
    {calls : List Call} {s : σ} {m : CacheMap} (hr : R s m) (hc : ∀ c ∈ calls, C c) :
    List.Forall₂ Matches (b.answers s calls) (m.answers calls) := by
  induction calls generalizing s m with
  | nil => exact .nil
  | cons c calls ih =>
    have hcalls : ∀ c ∈ calls, C c := fun c hm => hc c (List.mem_cons_of_mem _ hm)
    have hhead := hc c List.mem_cons_self
    cases c with
    | put p => exact ih (h.put p hr hhead) hcalls
    | get k age ttl => exact .cons (h.get k age ttl hr hhead) (ih hr hcalls)

/-! ## The file system cache -/

/-- Every file is what its last `Put` wrote. -/
def FileSystemCache.Holds (expire : Int64) (f : FileSystemCache) (m : CacheMap) : Prop :=
  f.expire = expire ∧ ∀ k : KeyString,
    (m k = none ∧ f.files k.text = none) ∨
    ∃ p : PutCall, m k = some (p.metadata, p.payload) ∧
      f.files k.text = some (FileSystemCache.encoded p.metadata p.payload)

def InTime (expire : Int64) : Call → Prop
  | .put _ => True
  | .get _ age _ => age ≤ expire

theorem fileSystem_refines (expire : Int64) :
    Refines fileSystem (FileSystemCache.Holds expire) (InTime expire) where
  put {f m} p hr _ := by
    refine ⟨hr.1, fun k => ?_⟩
    by_cases hk : k = p.key
    · subst hk
      refine .inr ⟨p, by simp [CacheMap.put], ?_⟩
      simp [fileSystem, FileSystemCache.put, FileSystemCache.writeAllAt_writes, PutCall.payload]
    · have htext : k.text ≠ p.key.text := fun h => hk (KeyString.ext h)
      simpa [CacheMap.put, fileSystem, FileSystemCache.put, hk, htext] using hr.2 k
  get {f m} k age ttl hr hc := by
    rcases hr.2 k with ⟨hm, hf⟩ | ⟨p, hm, hf⟩
    · rw [hm]
      simp [Matches, fileSystem, FileSystemCache.get, hf, Except.map]
    · rw [hm]
      refine ⟨Reader.readAll Reader.slice p.payload, ?_, Reader.slice_delivers _⟩
      have hage : age ≤ f.expire := hr.1 ▸ hc
      simp only [fileSystem, FileSystemCache.get_encoded p.storable hf hage, Except.map]

/-! ## The Redis cache -/

theorem KeyString.ne_tmpKey (k : KeyString) (key : String) (random : Nat) : k.text ≠ tmpKey key random := by
  intro h
  have hmem : Char.ofNat 123 ∈ k.text.toList := by
    rw [h]
    simp [tmpKey]
  have := List.all_eq_true.1 k.hex _ hmem
  revert this
  decide

/-- Every value is what its last `Put` stored. -/
def RedisDB.Holds (fuel : Nat) (db : RedisDB) (m : CacheMap) : Prop :=
  ∀ k : KeyString,
    (m k = none ∧ db k.text = none) ∨
    ∃ p : PutCall, m k = some (p.metadata, p.payload) ∧ p.payload.length + 1 < fuel ∧
      db k.text = some (redisValue p.metadata p.payload)

def EnoughFuel (fuel : Nat) : Call → Prop
  | .put p => p.payload.length + 1 < fuel
  | .get _ _ _ => True

theorem redis_refines (fuel : Nat) : Refines (redis fuel) (RedisDB.Holds fuel) (EnoughFuel fuel) where
  put {db m} p hr hc := by
    intro k
    obtain ⟨db', hput, hkey, hother⟩ := @redisPut_eq db p.key.text p.metadata p.chunks p.random p.chunks_ne
    by_cases hk : k = p.key
    · subst hk
      exact .inr ⟨p, by simp [CacheMap.put], hc, by simp only [redis, hput, hkey]; rfl⟩
    · -- the temporary key is none of the keys of entries
      have htext : k.text ≠ p.key.text := fun h => hk (KeyString.ext h)
      have hdb : ((redis fuel).put db p) k.text = db k.text := by
        simp only [redis, hput]
        exact hother _ htext (k.ne_tmpKey _ _)
      rw [hdb]
      simpa [CacheMap.put, hk] using hr k
  get {db m} k age ttl hr _ := by
    rcases hr k with ⟨hm, hdb⟩ | ⟨p, hm, hfuel, hdb⟩
    · rw [hm]
      simp [Matches, redis, redisGet_missing hdb, Except.map]
    · rw [hm]
      have hsize : (redisValue p.metadata p.payload).length < 2 ^ 63 := by
        rw [redisValue, List.length_append]
        exact p.length_lt
      obtain ⟨data, hget, hdelivers⟩ := redisGet_eq p.storable hdb p.length_eq hsize
        (by have := p.encoded_le; unfold nbBytesToFetch; omega) hfuel ttl
      exact ⟨data.reading db k.text, by simp only [redis, hget, Option.map_some, Except.map], hdelivers⟩

/-! ## Both -/

/-- Both back ends implement the same map: for every sequence of calls in which every `Get` comes within
`expire` of the last `Put` of its key, every `Get` of either returns `ErrMissing` for a key that was never
put, and otherwise the metadata of the last `Put` and a reader that delivers exactly its payload, whatever
positive buffer sizes are used. `fuel` bounds the reads of the copy into the temporary file. -/
theorem backends_implement_map (expire grace : Int64) (fuel : Nat) (calls : List Call)
    (hage : ∀ k age ttl, Call.get k age ttl ∈ calls → age ≤ expire)
    (hfuel : ∀ p, Call.put p ∈ calls → p.payload.length + 1 < fuel) :
    List.Forall₂ Matches (fileSystem.answers ⟨fun _ => none, expire, grace⟩ calls)
      (CacheMap.answers (fun _ => none) calls) ∧
    List.Forall₂ Matches ((redis fuel).answers (fun _ => none) calls) (CacheMap.answers (fun _ => none) calls) := by
  refine ⟨(fileSystem_refines expire).answers ⟨rfl, fun _ => .inl ⟨rfl, rfl⟩⟩ fun c hc => ?_,
    (redis_refines fuel).answers (fun _ => .inl ⟨rfl, rfl⟩) fun c hc => ?_⟩
  · cases c with
    | put p => trivial
    | get k age ttl => exact hage k age ttl hc
  · cases c with
    | put p => exact hfuel p hc
    | get k age ttl => trivial

def someKey : KeyString := ⟨"0123456789abcdef0123456789abcdef", by decide, by decide⟩

/-- A response of four bytes, read from its source in two pieces. -/
def putOkay : PutCall where
  key := someKey
  metadata := ⟨4, bytes "text/plain", []⟩
  chunks := [bytes "ok", bytes "ay"]
  random := 7
  chunks_ne := by decide
  length_eq := by decide
  length_lt := by decide
  encoded_le := by decide

theorem backends_implement_map_okay :
    List.Forall₂ Matches ((redis 10).answers (fun _ => none) [.get someKey 0 0, .put putOkay, .get someKey 1 20])
      [none, some (⟨4, bytes "text/plain", []⟩, bytes "okay")] :=
  (backends_implement_map 60 5 10 [.get someKey 0 0, .put putOkay, .get someKey 1 20]
    (fun k age ttl h => by simp at h; rcases h with ⟨-, rfl, -⟩ | ⟨-, rfl, -⟩ <;> decide)
    (fun p h => by simp at h; subst h; decide)).2

end Chproxy.Cache
