/-
`fileSystemCache.Put` when an operation on the file fails (`cache/filesystem_cache.go`), and the `Get` that
follows. `Put` truncates the file of the key before it writes, and on an error it leaves behind what it has
written.
-/
import Chproxy.Cache.FileSystem

namespace Chproxy.Cache

open Utils

/-! ## `Put` with failures -/

/-- What the operations of one `Put` do. `create` is whether `os.Create` succeeds; `write i` is how many bytes
the `i`-th `Write` takes when it stops early, with an error, and `none` when it takes all; `read j` is whether
the source is read without an error after `j` chunks. -/
structure PutFaults where
  create : Bool
  write : Nat → Option Nat
  read : Nat → Bool

/-- The errors of `Put`. An error for the length names `Content-Encoding`, as that for the encoding does. -/
inductive PutError
  | cannotCreateFile
  | cannotWriteContentType
  | cannotWriteContentEncoding
  | cannotWriteResults
  deriving DecidableEq, Repr

namespace PutFaults

/-- What a `Write` that stops early has written: not all of it. -/
def stopped (b : Bytes) (k : Nat) : Bytes := b.dropLast.take k

/-- `io.Copy` of the payload: what arrives in the file, and whether there was no error. The first three
writes are those of the header. -/
def copy (io : PutFaults) : Nat → List Bytes → Bytes × Bool
  | j, [] => ([], io.read j)
  | j, c :: cs =>
    if io.read j then
      match io.write (3 + j) with
      | some k => (stopped c k, false)
      | none => (c ++ (copy io (j + 1) cs).1, (copy io (j + 1) cs).2)
    else ([], false)

end PutFaults

namespace FileSystemCache

/-- The cache with the file of the key as given. -/
def store (f : FileSystemCache) (key : String) (file : Bytes) : FileSystemCache :=
  { f with files := Function.update f.files key (some file) }

/-- `Put`, with the expiration it returns. -/
def putWith (f : FileSystemCache) (io : PutFaults) (key : String) (m : ContentMetadata) (chunks : List Bytes) :
    FileSystemCache × Except PutError Int64 :=
  let type := writeHeader m.type
  let encoding := writeHeader m.encoding
  let length := writeHeader (Decimal.ofInt m.length)
  if io.create then
    match io.write 0 with
    | some k => (f.store key (PutFaults.stopped type k), .error .cannotWriteContentType)
    | none =>
      match io.write 1 with
      | some k => (f.store key (type ++ PutFaults.stopped encoding k), .error .cannotWriteContentEncoding)
      | none =>
        match io.write 2 with
        -- the source reports the length under the text of the encoding
        | some k => (f.store key (type ++ encoding ++ PutFaults.stopped length k), .error .cannotWriteContentEncoding)
        | none =>
          let copied := io.copy 0 chunks
          (f.store key (type ++ encoding ++ length ++ copied.1),
            if copied.2 then .ok f.expire else .error .cannotWriteResults)
  else (f, .error .cannotCreateFile)

/-! ## What it leaves -/

section

variable {f : FileSystemCache} {io : PutFaults} {key : String} {m : ContentMetadata} {chunks : List Bytes}

theorem header_flatten (m : ContentMetadata) : (fileHeader m).flatten =
    writeHeader m.type ++ writeHeader m.encoding ++ writeHeader (Decimal.ofInt m.length) := by
  simp [fileHeader]

/-- Without a failure it is `put`. -/
theorem putWith_ok (hcreate : io.create = true) (hwrite : ∀ i, io.write i = none) (hread : ∀ j, io.read j = true) :
    f.putWith io key m chunks = (f.put key m chunks, .ok f.expire) := by
  have hcopy : ∀ (cs : List Bytes) (j : Nat), io.copy j cs = (cs.flatten, true) := by
    intro cs
    induction cs with
    | nil => intro j; simp [PutFaults.copy, hread]
    | cons c cs ih => intro j; simp [PutFaults.copy, hread, hwrite, ih]
  simp only [putWith, hcreate, hwrite, hcopy, put, writeAllAt_writes, encoded, header_flatten, if_true, store]

end

/-- An entry, as `Get` decodes it. -/
def Stored (f : FileSystemCache) (key : String) (m : ContentMetadata) (data : Bytes) : Prop :=
  ∃ file, f.files key = some file ∧ decodeHeader file = .ok (m, data)

/-- A file so old that `Get` does not look into it. -/
def Expired (f : FileSystemCache) (age : Int64) : Prop := age > f.expire ∧ age > f.expire + f.grace

theorem get_eq_ok {f : FileSystemCache} {key : String} {age : Int64} {d : CachedData Bytes} :
    f.get key age = .ok d ↔ ¬f.Expired age ∧ f.Stored key d.metadata d.data ∧ d.ttl = (f.expire - age).toInt := by
  obtain ⟨m, data, ttl⟩ := d
  unfold get Expired Stored
  cases hfile : f.files key with
  | none => simp
  | some file =>
    by_cases hage : age > f.expire ∧ age > f.expire + f.grace
    · simp [hage]
    · simp only [if_neg hage]
      cases hdecode : decodeHeader file with
      | error e => simp [hdecode]
      | ok res =>
        obtain ⟨m', data'⟩ := res
        simp only [Except.ok.injEq, CachedData.mk.injEq, Option.some.injEq, exists_eq_left', hdecode, Prod.mk.injEq]
        tauto

/-- After a `Put` that turned `f` into `f'`, `Get` misses or returns the entry that was stored before, which is
complete. -/
def Spares (f f' : FileSystemCache) (key : String) (age : Int64) : Prop :=
  ∀ d, f'.get key age = .ok d → f.Stored key d.metadata d.data ∧ d.metadata.length ≤ d.data.length

theorem spares_iff {f f' : FileSystemCache} {key : String} {age : Int64} (hexpire : f'.Expired age ↔ f.Expired age) :
    f.Spares f' key age ↔ f.Expired age ∨
      ∀ m data, f'.Stored key m data → f.Stored key m data ∧ m.length ≤ data.length := by
  constructor
  · intro h
    by_cases hage : f.Expired age
    · exact .inl hage
    · exact .inr fun m data hstored =>
        h ⟨m, data, (f'.expire - age).toInt⟩ (get_eq_ok.2 ⟨mt hexpire.1 hage, hstored, rfl⟩)
  · rintro (hage | h) d hd
    · exact absurd (hexpire.2 hage) (get_eq_ok.1 hd).1
    · exact h _ _ (get_eq_ok.1 hd).2.1

theorem stored_store {f : FileSystemCache} {key : String} {file : Bytes} {m : ContentMetadata} {data : Bytes} :
    (f.store key file).Stored key m data ↔ decodeHeader file = .ok (m, data) := by
  simp [Stored, store]

theorem spares_store {f : FileSystemCache} {key : String} {file : Bytes} {age : Int64} :
    f.Spares (f.store key file) key age ↔ f.Expired age ∨
      ∀ m data, decodeHeader file = .ok (m, data) → f.Stored key m data ∧ m.length ≤ data.length := by
  have hexpire : (f.store key file).Expired age ↔ f.Expired age := Iff.rfl
  rw [spares_iff hexpire]
  simp only [stored_store]

/-! ## The entries that survive -/

end FileSystemCache

/-- Whether a write of the header fails. -/
def PutFaults.headerFails (io : PutFaults) : Bool := (io.write 0).isSome || (io.write 1).isSome || (io.write 2).isSome

namespace FileSystemCache

/-- When a failed `Put` does no harm. Either `os.Create` failed, and the entry it would have replaced is
complete; or a write of the header failed; or the copy of the payload did, and what it left is the entry that
was there, and complete. An expired file is not served in any case. -/
def Harmless (f : FileSystemCache) (io : PutFaults) (key : String) (m : ContentMetadata) (chunks : List Bytes)
    (age : Int64) : Prop :=
  f.Expired age ∨
    if io.create then
      io.headerFails = true ∨ (f.Stored key m (io.copy 0 chunks).1 ∧ m.length ≤ (io.copy 0 chunks).1.length)
    else ∀ m data, f.Stored key m data → m.length ≤ data.length

section

variable {f : FileSystemCache} {io : PutFaults} {key : String} {m : ContentMetadata} {chunks : List Bytes} {age : Int64}

/-- A write that stops early leaves a proper beginning. -/
theorem stopped_eq_take {b : Bytes} (hb : b ≠ []) (a c : Bytes) (k : Nat) :
    ∃ n < (a ++ b ++ c).length, a ++ PutFaults.stopped b k = (a ++ b ++ c).take n := by
  have hpos := List.length_pos_iff.2 hb
  refine ⟨a.length + min k (b.length - 1), by simp only [List.length_append]; omega, ?_⟩
  rw [List.append_assoc, List.take_length_add_append, PutFaults.stopped, List.dropLast_eq_take, List.take_take,
    List.take_append_of_le_length (by omega)]

theorem writeHeader_ne_nil (s : Bytes) : writeHeader s ≠ [] := by
  intro h
  have hlen := length_lengthPrefixed s
  rw [← writeHeader, h, List.length_nil] at hlen
  omega

/-- When a write of the header fails, what is left is a proper beginning of the header. -/
theorem putWith_headerFails (f : FileSystemCache) (key : String) (m : ContentMetadata) (chunks : List Bytes)
    (hcreate : io.create = true) (hfails : io.headerFails = true) :
    ∃ n < (fileHeader m).flatten.length, ∃ e,
      f.putWith io key m chunks = (f.store key ((fileHeader m).flatten.take n), .error e) := by
  rw [header_flatten]
  simp only [putWith, hcreate, if_true]
  -- the first of the three writes that fails decides where the header is cut
  cases h0 : io.write 0 with
  | some k =>
    obtain ⟨n, hn, htake⟩ := stopped_eq_take (writeHeader_ne_nil m.type) []
      (writeHeader m.encoding ++ writeHeader (Decimal.ofInt m.length)) k
    rw [List.nil_append, List.nil_append, ← List.append_assoc] at htake
    rw [List.nil_append, ← List.append_assoc] at hn
    exact ⟨n, hn, _, by rw [← htake]⟩
  | none =>
    cases h1 : io.write 1 with
    | some k =>
      obtain ⟨n, hn, htake⟩ := stopped_eq_take (writeHeader_ne_nil m.encoding) (writeHeader m.type)
        (writeHeader (Decimal.ofInt m.length)) k
      exact ⟨n, hn, _, by rw [← htake]⟩
    | none =>
      cases h2 : io.write 2 with
      | some k =>
        obtain ⟨n, hn, htake⟩ := stopped_eq_take (writeHeader_ne_nil (Decimal.ofInt m.length))
          (writeHeader m.type ++ writeHeader m.encoding) [] k
        rw [List.append_nil] at hn htake
        exact ⟨n, hn, _, by rw [← htake]⟩
      | none => simp [PutFaults.headerFails, h0, h1, h2] at hfails

theorem putWith_copies (hcreate : io.create = true) (hfails : io.headerFails = false) :
    (f.putWith io key m chunks).1 = f.store key ((fileHeader m).flatten ++ (io.copy 0 chunks).1) := by
  simp only [PutFaults.headerFails, Bool.or_eq_false_iff, Option.isSome_eq_false_iff,
    Option.isNone_iff_eq_none] at hfails
  simp only [putWith, hcreate, hfails.1.1, hfails.1.2, hfails.2, if_true, header_flatten]

end

/-- A `Put` that returns an error leaves nothing that `Get` would serve, except the complete entry that was
there before, exactly when it is harmless. -/
theorem failed_put_spares_iff {f : FileSystemCache} {io : PutFaults} {key : String} {m : ContentMetadata}
    {chunks : List Bytes} {e : PutError} (hm : m.Writable) (_ : (f.putWith io key m chunks).2 = .error e)
    (age : Int64) : f.Spares (f.putWith io key m chunks).1 key age ↔ f.Harmless io key m chunks age := by
  unfold Harmless
  cases hcreate : io.create with
  | false =>
    have hput : f.putWith io key m chunks = (f, .error .cannotCreateFile) := by simp [putWith, hcreate]
    rw [hput, spares_iff Iff.rfl, if_neg (by decide)]
    exact or_congr_right ⟨fun h m data hstored => (h m data hstored).2,
      fun h m data hstored => ⟨hstored, h m data hstored⟩⟩
  | true =>
    simp only [if_true]
    cases hfails : io.headerFails with
    | true =>
      -- a header that is cut decodes to an error, so that nothing is served
      obtain ⟨n, hn, e', hput⟩ := putWith_headerFails f key m chunks hcreate hfails
      obtain ⟨e'', hdecode⟩ := decodeHeader_take hm hn
      rw [hput, spares_store]
      refine iff_of_true (.inr fun m' data hdecode' => ?_) (.inr (.inl rfl))
      rw [hdecode] at hdecode'
      cases hdecode'
    | false =>
      -- the header is whole: a part of the payload is served under the length of all of it
      rw [putWith_copies hcreate hfails, spares_store]
      simp only [decodeHeader_fileHeader hm, Bool.false_eq_true, false_or]
      refine or_congr_right ⟨fun h => h _ _ rfl, ?_⟩
      rintro ⟨hstored, hlen⟩ m' data heq
      cases heq
      exact ⟨hstored, hlen⟩

/-- Two chunks, of which the second cannot be written. -/
def secondChunkFails : PutFaults := ⟨true, fun i => if i = 4 then some 0 else none, fun _ => true⟩

def emptyCache : FileSystemCache := ⟨fun _ => none, 60, 5⟩

/-- A header that cannot be written leaves nothing to be served. -/
theorem failed_put_spares_header :
    emptyCache.Spares (emptyCache.putWith ⟨true, fun i => if i = 1 then some 2 else none, fun _ => true⟩ "key"
      ⟨4, bytes "text/plain", []⟩ [bytes "ok", bytes "ay"]).1 "key" 0 :=
  (failed_put_spares_iff (e := .cannotWriteContentEncoding) ⟨by decide, by decide, by decide, by decide⟩ rfl 0).2
    (.inr (.inl rfl))

/-- `Put` fails at the second chunk, and `Get` serves the first one as a response of four bytes. -/
theorem failed_put_serves_half :
    (emptyCache.putWith secondChunkFails "key" ⟨4, bytes "text/plain", []⟩ [bytes "ok", bytes "ay"]).2 =
      .error .cannotWriteResults ∧
    (emptyCache.putWith secondChunkFails "key" ⟨4, bytes "text/plain", []⟩ [bytes "ok", bytes "ay"]).1.get "key" 0 =
      .ok ⟨⟨4, bytes "text/plain", []⟩, bytes "ok", 60⟩ ∧
    ¬emptyCache.Spares
      (emptyCache.putWith secondChunkFails "key" ⟨4, bytes "text/plain", []⟩ [bytes "ok", bytes "ay"]).1 "key" 0 := by
  have hm : ContentMetadata.Writable ⟨4, bytes "text/plain", []⟩ := ⟨by decide, by decide, by decide, by decide⟩
  have hput := @putWith_copies emptyCache secondChunkFails "key" ⟨4, bytes "text/plain", []⟩
    [bytes "ok", bytes "ay"] rfl rfl
  have hcopied : (secondChunkFails.copy 0 [bytes "ok", bytes "ay"]).1 = bytes "ok" := by decide
  have hget : (emptyCache.putWith secondChunkFails "key" ⟨4, bytes "text/plain", []⟩
      [bytes "ok", bytes "ay"]).1.get "key" 0 = .ok ⟨⟨4, bytes "text/plain", []⟩, bytes "ok", 60⟩ := by
    rw [hput, hcopied, get_eq_ok, stored_store, decodeHeader_fileHeader hm]
    exact ⟨by simp [Expired, store, emptyCache], rfl, rfl⟩
  refine ⟨rfl, hget, fun h => ?_⟩
  obtain ⟨-, hlen⟩ := h _ hget
  exact absurd hlen (by decide)

end FileSystemCache

end Chproxy.Cache
