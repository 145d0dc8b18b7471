/-
Reading one block of a ClickHouse compressed stream (`chdecompressor/decompressor.go`): a checksum, the
compression type, the two sizes and the body. The stream is its bytes, and `io.ReadFull` takes them or reports
that there are too few. LZ4 and ZSTD are parameters.
-/
import Chproxy.Lib.LittleEndian
import Chproxy.Lib.Reader
import Chproxy.Utils.QueryText

namespace Chproxy.Chdecompressor

open Utils

/-! ## `Reader` -/

inductive ReadFullError
  | eof
  | unexpectedEOF
  deriving DecidableEq, Repr

/-- The error of `io.ReadFull` for `n` bytes. -/
def readFullError (src : Bytes) (n : Nat) : Option ReadFullError :=
  if n ≤ src.length then none else if src.length = 0 then some .eof else some .unexpectedEOF

/-- The decompressors. `lz4 block dst` is what `lz4.UncompressBlock` leaves in its destination, which keeps its
length, and its error; `zstd block` is what `DecodeAll` returns. -/
structure Codecs (ε : Type) where
  lz4 : Bytes → Bytes → Bytes × Option ε
  zstd : Bytes → Bytes × Option ε
  lz4_length : ∀ block dst, (lz4 block dst).1.length = dst.length

/-- The errors of `readNextBlock` other than `io.EOF`, with the error each wraps. -/
inductive BlockError (ε : Type)
  | cannotReadChecksum (err : ReadFullError)
  | cannotReadCompressionType (err : ReadFullError)
  | cannotReadCompressedSize (err : ReadFullError)
  | cannotReadDecompressedSize (err : ReadFullError)
  | cannotReadCompressedBlock (err : ReadFullError)
  | cannotDecompressLz4 (err : ε)
  | cannotDecompressZstd (err : ε)
  | unknownCompressionType (compressionType : UInt8)
  deriving DecidableEq, Repr

def noneType : UInt8 := 0x02

def lz4Type : UInt8 := 0x82

def zstdType : UInt8 := 0x90

structure Reader where
  src : Bytes
  data : Bytes
  scratch : Bytes

def newReader (src : Bytes) : Reader := ⟨src, [], List.replicate 16 0⟩

/-- How a call of `readNextBlock` leaves the reader, the size of the body for which it asked, if it came to
that, and its error. -/
structure Block (ε : Type) where
  reader : Reader
  body : Option Nat
  err : Option (Reader.End (BlockError ε))

namespace Reader

variable {ε : Type}

/-- `io.ReadFull(r.src, r.scratch[:k])`. -/
def fill (r : Reader) (k : Nat) : Reader × Option ReadFullError :=
  ({ r with src := r.src.drop k, scratch := r.src.take k ++ r.scratch.drop (r.src.take k).length },
    readFullError r.src k)

def readUint32 (r : Reader) : Reader × Except ReadFullError UInt32 :=
  match r.fill 4 with
  | (r, some err) => (r, .error err)
  | (r, none) => (r, .ok (UInt32.ofNat (LittleEndian.decode (r.scratch.take 4))))

def decompressBlock (c : Codecs ε) (r : Reader) (block : Bytes) (compressionType : UInt8) (decompressedSize : UInt32) :
    Reader × Option (BlockError ε) :=
  let data := List.replicate decompressedSize.toNat 0
  if compressionType = noneType then ({ r with data := block }, none)
  else if compressionType = lz4Type then
    ({ r with data := (c.lz4 block data).1 }, (c.lz4 block data).2.map .cannotDecompressLz4)
  else if compressionType = zstdType then
    ({ r with data := (c.zstd block).1 }, (c.zstd block).2.map .cannotDecompressZstd)
  else ({ r with data := data }, some (.unknownCompressionType compressionType))

/-- The end of `readNextBlock`, from the body on. -/
def readBody (c : Codecs ε) (r : Reader) (compressionType : UInt8) (compressedSize decompressedSize : UInt32) :
    Block ε :=
  let block := r.src.take compressedSize.toNat
  let r' := { r with src := r.src.drop compressedSize.toNat }
  match readFullError r.src compressedSize.toNat with
  | some err => ⟨r', some compressedSize.toNat, some (.error (.cannotReadCompressedBlock err))⟩
  | none =>
    let res := r'.decompressBlock c block compressionType decompressedSize
    ⟨res.1, some compressedSize.toNat, res.2.map .error⟩

def readNextBlock (c : Codecs ε) (r : Reader) : Block ε :=
  match r.fill 16 with
  | (r, some .eof) => ⟨r, none, some .eof⟩
  | (r, some err) => ⟨r, none, some (.error (.cannotReadChecksum err))⟩
  | (r, none) =>
    match r.fill 1 with
    | (r, some err) => ⟨r, none, some (.error (.cannotReadCompressionType err))⟩
    | (r, none) =>
      let compressionType := r.scratch.headD 0
      match r.readUint32 with
      | (r, .error err) => ⟨r, none, some (.error (.cannotReadCompressedSize err))⟩
      | (r, .ok compressedSize) =>
        let compressedSize := compressedSize - 9 -- minus header length
        match r.readUint32 with
        | (r, .error err) => ⟨r, none, some (.error (.cannotReadDecompressedSize err))⟩
        | (r, .ok decompressedSize) => r.readBody c compressionType compressedSize decompressedSize

/-! ## Fields -/

section

variable {r : Reader} {a rest : Bytes} {k : Nat}

/-- A field that is there. -/
theorem fill_append (hsrc : r.src = a ++ rest) (ha : a.length = k) :
    r.fill k = (⟨rest, r.data, a ++ r.scratch.drop k⟩, none) := by
  have htake : r.src.take k = a := by rw [hsrc, List.take_left' ha]
  have hdrop : r.src.drop k = rest := by rw [hsrc, List.drop_left' ha]
  have herr : readFullError r.src k = none := by
    rw [readFullError, if_pos]
    rw [hsrc, List.length_append]
    omega
  rw [fill, htake, hdrop, herr, ha]

/-- A field that is cut off. -/
theorem fill_short (h : r.src.length < k) :
    ∃ r', r.fill k = (r', some (if r.src.length = 0 then .eof else .unexpectedEOF)) := by
  have herr : readFullError r.src k = some (if r.src.length = 0 then .eof else .unexpectedEOF) := by
    rw [readFullError, if_neg (by omega)]
    split <;> rfl
  exact ⟨_, by rw [fill, herr]⟩

theorem readUint32_append (hsrc : r.src = a ++ rest) (ha : a.length = 4) :
    r.readUint32 = (⟨rest, r.data, a ++ r.scratch.drop 4⟩, .ok (UInt32.ofNat (LittleEndian.decode a))) := by
  rw [readUint32, fill_append hsrc ha]
  simp only
  rw [List.take_left' ha]

theorem readUint32_short (h : r.src.length < 4) :
    ∃ r', r.readUint32 = (r', .error (if r.src.length = 0 then .eof else .unexpectedEOF)) := by
  obtain ⟨r', hfill⟩ := fill_short h
  exact ⟨r', by rw [readUint32, hfill]⟩

end

/-! ## The header -/

theorem exists_append {src : Bytes} {n : Nat} (h : n ≤ src.length) : ∃ a rest, src = a ++ rest ∧ a.length = n :=
  ⟨src.take n, src.drop n, (List.take_append_drop n src).symm, List.length_take_of_le h⟩

/-- The checksum and the type of a stream that is long enough for them, and the bytes that follow. -/
theorem exists_checksum_type {src : Bytes} (h : 17 ≤ src.length) :
    ∃ checksum type rest, src = checksum ++ (type ++ rest) ∧ checksum.length = 16 ∧ type.length = 1 ∧
      src.length = 17 + rest.length := by
  obtain ⟨checksum, src, rfl, hchecksum⟩ := exists_append (n := 16) (by omega : 16 ≤ src.length)
  rw [List.length_append] at h
  obtain ⟨type, rest, rfl, htype⟩ := exists_append (n := 1) (by omega : 1 ≤ src.length)
  refine ⟨checksum, type, rest, rfl, hchecksum, htype, ?_⟩
  rw [List.length_append, List.length_append]
  omega

/-- The scratch buffer after a header: the two sizes went over the checksum and the type. -/
def scratchAfter (checksum : Bytes) (compressionType : UInt8) (compressed decompressed : Bytes)
    (scratch : Bytes) : Bytes :=
  decompressed ++ (compressed ++ ([compressionType] ++ (checksum ++ scratch.drop 16).drop 1).drop 4).drop 4

/-- A whole header: the body is asked for, whatever the compressed size is. -/
theorem readNextBlock_header (c : Codecs ε) {r : Reader} {checksum compressed decompressed rest : Bytes}
    {compressionType : UInt8}
    (hsrc : r.src = checksum ++ ([compressionType] ++ (compressed ++ (decompressed ++ rest))))
    (hchecksum : checksum.length = 16) (hcompressed : compressed.length = 4) (hdecompressed : decompressed.length = 4) :
    r.readNextBlock c =
      readBody c ⟨rest, r.data, scratchAfter checksum compressionType compressed decompressed r.scratch⟩ compressionType
        (UInt32.ofNat (LittleEndian.decode compressed) - 9) (UInt32.ofNat (LittleEndian.decode decompressed)) := by
  unfold readNextBlock
  rw [fill_append hsrc hchecksum]
  simp only
  rw [fill_append (a := [compressionType]) (k := 1) rfl rfl]
  simp only
  rw [readUint32_append rfl hcompressed]
  simp only
  rw [readUint32_append rfl hdecompressed]
  rfl

theorem readBody_body (c : Codecs ε) (r : Reader) (compressionType : UInt8) (compressedSize decompressedSize : UInt32) :
    (r.readBody c compressionType compressedSize decompressedSize).body = some compressedSize.toNat := by
  unfold readBody
  dsimp only
  split <;> rfl

/-- The error for a stream that ends within a header, by the field in which it ends. -/
def cutError (src : Bytes) : Reader.End (BlockError ε) :=
  let err : ReadFullError := if src.length ∈ [16, 17, 21] then .eof else .unexpectedEOF
  if src.length = 0 then .eof
  else if src.length < 16 then .error (.cannotReadChecksum err)
  else if src.length < 17 then .error (.cannotReadCompressionType err)
  else if src.length < 21 then .error (.cannotReadCompressedSize err)
  else .error (.cannotReadDecompressedSize err)

theorem err_of_checksum (c : Codecs ε) {r : Reader} (h : r.src.length < 16) :
    (r.readNextBlock c).body = none ∧ (r.readNextBlock c).err = some (cutError r.src) := by
  obtain ⟨r', hfill⟩ := fill_short h
  unfold readNextBlock cutError
  rw [hfill]
  by_cases h0 : r.src.length = 0
  · simp [h0]
  · have hmem : r.src.length ∉ [16, 17, 21] := by simp; omega
    simp [h0, h, hmem]

theorem err_of_type (c : Codecs ε) {r : Reader} (h : r.src.length = 16) :
    (r.readNextBlock c).body = none ∧ (r.readNextBlock c).err = some (cutError r.src) := by
  have hfirst := fill_append (r := r) (a := r.src) (List.append_nil _).symm h
  obtain ⟨r', hfill⟩ := fill_short (r := ⟨[], r.data, r.src ++ r.scratch.drop 16⟩) (k := 1) (by simp)
  unfold readNextBlock cutError
  rw [hfirst]
  simp only
  rw [hfill]
  simp [h]

/-- The stream ends within the compressed size, of which `rest` is there. -/
theorem err_of_compressedSize (c : Codecs ε) {r : Reader} {checksum type rest : Bytes}
    (hsrc : r.src = checksum ++ (type ++ rest)) (hchecksum : checksum.length = 16) (htype : type.length = 1)
    (hrest : rest.length < 4) :
    (r.readNextBlock c).body = none ∧ (r.readNextBlock c).err = some (cutError r.src) := by
  have hlen : r.src.length = 17 + rest.length := by
    rw [hsrc, List.length_append, List.length_append]
    omega
  -- the error is a plain EOF where the stream ends between two fields
  have hmem : r.src.length ∈ [16, 17, 21] ↔ rest.length = 0 := by
    simp only [List.mem_cons, List.not_mem_nil, or_false]
    omega
  obtain ⟨r', hread⟩ := readUint32_short (r := ⟨rest, r.data, type ++ (checksum ++ r.scratch.drop 16).drop 1⟩) hrest
  unfold readNextBlock cutError
  rw [fill_append hsrc hchecksum]
  simp only
  rw [fill_append (k := 1) rfl htype]
  simp only
  rw [hread]
  refine ⟨rfl, ?_⟩
  simp only [hmem, if_neg (show ¬r.src.length = 0 by omega), if_neg (show ¬r.src.length < 16 by omega),
    if_neg (show ¬r.src.length < 17 by omega), if_pos (show r.src.length < 21 by omega)]

/-- The stream ends within the decompressed size, of which `rest` is there. -/
theorem err_of_decompressedSize (c : Codecs ε) {r : Reader} {checksum type compressed rest : Bytes}
    (hsrc : r.src = checksum ++ (type ++ (compressed ++ rest))) (hchecksum : checksum.length = 16)
    (htype : type.length = 1) (hcompressed : compressed.length = 4) (hrest : rest.length < 4) :
    (r.readNextBlock c).body = none ∧ (r.readNextBlock c).err = some (cutError r.src) := by
  have hlen : r.src.length = 21 + rest.length := by
    rw [hsrc, List.length_append, List.length_append, List.length_append]
    omega
  -- the error is a plain EOF where the stream ends between two fields
  have hmem : r.src.length ∈ [16, 17, 21] ↔ rest.length = 0 := by
    simp only [List.mem_cons, List.not_mem_nil, or_false]
    omega
  obtain ⟨r', hread⟩ := readUint32_short
    (r := ⟨rest, r.data, compressed ++ (type ++ (checksum ++ r.scratch.drop 16).drop 1).drop 4⟩) hrest
  unfold readNextBlock cutError
  rw [fill_append hsrc hchecksum]
  simp only
  rw [fill_append (k := 1) rfl htype]
  simp only
  rw [readUint32_append rfl hcompressed]
  simp only
  rw [hread]
  refine ⟨rfl, ?_⟩
  simp only [hmem, if_neg (show ¬r.src.length = 0 by omega), if_neg (show ¬r.src.length < 16 by omega),
    if_neg (show ¬r.src.length < 17 by omega), if_neg (show ¬r.src.length < 21 by omega)]

/-- A stream that ends before the body: none is asked for. -/
theorem readNextBlock_cut (c : Codecs ε) {r : Reader} (h : r.src.length < 25) :
    (r.readNextBlock c).body = none ∧ (r.readNextBlock c).err = some (cutError r.src) := by
  by_cases h16 : r.src.length < 16
  · exact err_of_checksum c h16
  by_cases h17 : r.src.length < 17
  · exact err_of_type c (by omega)
  obtain ⟨checksum, type, rest, hsrc, hchecksum, htype, hlen⟩ := exists_checksum_type (show 17 ≤ r.src.length by omega)
  by_cases h21 : r.src.length < 21
  · exact err_of_compressedSize c hsrc hchecksum htype (by omega)
  obtain ⟨compressed, rest, rfl, hcompressed⟩ := exists_append (n := 4) (by omega : 4 ≤ rest.length)
  rw [List.length_append] at hlen
  exact err_of_decompressedSize c hsrc hchecksum htype hcompressed (by omega)

end Reader

/-! ## The sizes -/

/-- The compressed size that a stream declares. -/
def declaredSize (src : Bytes) : Nat := LittleEndian.decode ((src.drop 17).take 4)

/-- The body asked for is the declared size less the header, as an integer, and a size that is smaller than the
header is an error, for which no body is asked for. -/
structure ExactSizes {ε : Type} (src : Bytes) (b : Block ε) : Prop where
  asked : ∀ n, b.body = some n → (n : Int) = declaredSize src - 9
  asks : 25 ≤ src.length → 9 ≤ declaredSize src → b.body = some (declaredSize src - 9)
  refused : 21 ≤ src.length → declaredSize src < 9 → b.body = none ∧ ∃ e, b.err = some (.error e)

theorem toNat_sub_nine {n : Nat} (h : n < 2 ^ 32) :
    (UInt32.ofNat n - 9).toNat = if 9 ≤ n then n - 9 else n + 4294967287 := by
  rw [UInt32.toNat_sub, UInt32.toNat_ofNat']
  show (2 ^ 32 - 9 + n % 2 ^ 32) % 2 ^ 32 = _
  split <;> omega

theorem body_of_header {ε : Type} (c : Codecs ε) {r : Reader} (h : 25 ≤ r.src.length) :
    (r.readNextBlock c).body = some (UInt32.ofNat (declaredSize r.src) - 9).toNat := by
  obtain ⟨checksum, type, src, hsrc, hchecksum, htype, hlen⟩ :=
    Reader.exists_checksum_type (show 17 ≤ r.src.length by omega)
  obtain ⟨compressed, src, rfl, hcompressed⟩ := Reader.exists_append (n := 4) (by omega : 4 ≤ src.length)
  rw [List.length_append] at hlen
  obtain ⟨decompressed, rest, rfl, hdecompressed⟩ := Reader.exists_append (n := 4) (by omega : 4 ≤ src.length)
  obtain ⟨b, rfl⟩ := List.length_eq_one_iff.1 htype
  have hdeclared : declaredSize r.src = LittleEndian.decode compressed := by
    rw [declaredSize, hsrc, ← List.append_assoc, List.drop_left' (by rw [List.length_append, hchecksum]; rfl),
      List.take_left' hcompressed]
  rw [Reader.readNextBlock_header c hsrc hchecksum hcompressed hdecompressed, Reader.readBody_body, hdeclared]

/-- The sizes are exact on a stream exactly when it ends before the body or declares at least the nine bytes of
the header. Where it ends after the compressed size, the subtraction may still wrap, but no body is asked for. -/
theorem sizes_exact_iff {ε : Type} (c : Codecs ε) (r : Reader) :
    ExactSizes r.src (r.readNextBlock c) ↔ (25 ≤ r.src.length → 9 ≤ declaredSize r.src) := by
  have hlt : 21 ≤ r.src.length → declaredSize r.src < 2 ^ 32 := fun h => by
    have hdecode := LittleEndian.decode_lt ((r.src.drop 17).take 4)
    rwa [List.length_take_of_le (by rw [List.length_drop]; omega)] at hdecode
  by_cases h : 25 ≤ r.src.length
  · have hbody := body_of_header c h
    rw [toNat_sub_nine (hlt (by omega))] at hbody
    by_cases hnine : 9 ≤ declaredSize r.src
    · rw [if_pos hnine] at hbody
      refine iff_of_true ⟨fun n hn => ?_, fun _ _ => hbody, fun _ _ => by omega⟩ fun _ => hnine
      rw [hbody] at hn
      cases hn
      omega
    · -- the subtraction wraps, and the buffer is allocated all the same
      refine iff_of_false (fun hexact => ?_) fun hcond => hnine (hcond h)
      have hnone := (hexact.refused (by omega) (by omega)).1
      rw [hbody] at hnone
      cases hnone
  · -- the header is cut: no size is read, or none is used
    obtain ⟨hbody, herr⟩ := Reader.readNextBlock_cut c (r := r) (by omega)
    refine iff_of_true ⟨fun n hn => ?_, fun h25 => absurd h25 h, fun h21 _ => ⟨hbody, ?_⟩⟩ fun h25 => absurd h25 h
    · rw [hbody] at hn
      cases hn
    · rw [herr]
      simp only [Reader.cutError]
      rw [if_neg (by omega), if_neg (by omega), if_neg (by omega), if_neg (by omega)]
      exact ⟨_, rfl⟩

/-- Decompressors that know no block. -/
def noCodecs : Codecs String := ⟨fun _ dst => (dst, some "lz4"), fun _ => ([], some "zstd"), fun _ _ => rfl⟩

/-- A header that declares no bytes at all, not even its own. -/
def zeroSize : Bytes := List.replicate 16 0 ++ [noneType] ++ [0, 0, 0, 0] ++ [1, 0, 0, 0]

/-- The subtraction wraps, and almost 4 GiB are asked for. -/
theorem zero_size_wraps :
    ((newReader zeroSize).readNextBlock noCodecs).body = some 4294967287 ∧
    ¬ExactSizes zeroSize ((newReader zeroSize).readNextBlock noCodecs) := by
  have hbody : ((newReader zeroSize).readNextBlock noCodecs).body = some 4294967287 :=
    body_of_header noCodecs (r := newReader zeroSize) (by decide)
  refine ⟨hbody, fun h => ?_⟩
  have hasked := h.asked _ hbody
  exact absurd hasked (by decide)

end Chproxy.Chdecompressor
