/-
`fileSystemCache.Get` and `Put` (`cache/filesystem_cache.go`). A file is its bytes; a writer has an offset
of its own and writes there, whatever the file has become.
-/
import Chproxy.Cache.Metadata
import Chproxy.Lib.Reader
import Mathlib.Logic.Function.Basic

namespace Chproxy.Cache

open Utils

/-! ## Files -/

/-- `write` at an offset; a gap after the end of the file is filled with zeros. -/
def writeAt (file : Bytes) (offset : Nat) (b : Bytes) : Bytes :=
  file.take offset ++ List.replicate (offset - file.length) 0 ++ b ++ file.drop (offset + b.length)

theorem writeAt_end (file b : Bytes) : writeAt file file.length b = file ++ b := by
  simp [writeAt, List.drop_eq_nil_of_le]

/-- Writes one after another through one handle. -/
def writeAllAt (file : Bytes) (offset : Nat) : List Bytes → Bytes
  | [] => file
  | b :: bs => writeAllAt (writeAt file offset b) (offset + b.length) bs

theorem writeAllAt_end : ∀ (bs : List Bytes) (file : Bytes), writeAllAt file file.length bs = file ++ bs.flatten
  | [], file => by simp [writeAllAt]
  | b :: bs, file => by
    have ih := writeAllAt_end bs (file ++ b)
    rw [List.length_append] at ih
    rw [writeAllAt, writeAt_end, ih, List.flatten_cons, List.append_assoc]

/-! ## The cache -/

/-- The errors of `Get`: `ErrMissing`, a header or metadata that cannot be decoded, and a stream that
cannot be copied. -/
inductive GetError
  | missing
  | header (e : HeaderError)
  | metadata (e : DecodeError)
  | copy (read expected : Int)
  deriving DecidableEq, Repr

/-- `CachedData`, with the reader in it. -/
structure CachedData (δ : Type) where
  metadata : ContentMetadata
  data : δ
  ttl : Int

/-- A cache directory, by `Key.String()`, with `expire` and `grace` in nanoseconds. -/
structure FileSystemCache where
  files : String → Option Bytes
  expire : Int64
  grace : Int64

namespace FileSystemCache

/-- `Get` of a file of the age given; the reader is the file after its header. -/
def get (f : FileSystemCache) (key : String) (age : Int64) : Except GetError (CachedData Bytes) :=
  match f.files key with
  | none => .error .missing
  | some file =>
    if age > f.expire ∧ age > f.expire + f.grace then .error .missing
    else
      match decodeHeader file with
      | .error e => .error (.header e)
      | .ok (metadata, data) => .ok ⟨metadata, data, (f.expire - age).toInt⟩

/-- What `Put` writes, one `Write` after another; `chunks` is how `io.Copy` gets the payload. -/
def writes (m : ContentMetadata) (chunks : List Bytes) : List Bytes := fileHeader m ++ chunks

/-- `Put`, by itself: `os.Create` leaves an empty file. -/
def put (f : FileSystemCache) (key : String) (m : ContentMetadata) (chunks : List Bytes) : FileSystemCache :=
  { f with files := Function.update f.files key (some (writeAllAt [] 0 (writes m chunks))) }

/-- The file after `Put`. -/
def encoded (m : ContentMetadata) (payload : Bytes) : Bytes := (fileHeader m).flatten ++ payload

theorem writeAllAt_writes (m : ContentMetadata) (chunks : List Bytes) :
    writeAllAt [] 0 (writes m chunks) = encoded m chunks.flatten := by
  rw [show (0 : Nat) = ([] : Bytes).length from rfl, writeAllAt_end, writes, List.flatten_append, List.nil_append]
  rfl

/-- `Get` of a file that is there and has not expired. -/
theorem get_encoded {f : FileSystemCache} {key : String} {m : ContentMetadata} {payload : Bytes} (hm : m.Storable)
    (hfile : f.files key = some (encoded m payload)) {age : Int64} (hage : age ≤ f.expire) :
    f.get key age = .ok ⟨m, payload, (f.expire - age).toInt⟩ := by
  unfold get
  rw [hfile]
  simp only [encoded, decodeHeader_fileHeader hm.writable]
  rw [if_neg fun h => Int64.not_lt.2 hage h.1]

end FileSystemCache

end Chproxy.Cache
