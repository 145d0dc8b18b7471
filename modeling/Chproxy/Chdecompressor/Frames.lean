/-
`chdecompressor.Reader` over a sequence of frames (`chdecompressor/decompressor.go`): reading it with buffers of
any sizes yields the payloads one after another, and a frame that is cut off is told apart from the end.
-/
import Chproxy.Chdecompressor.Block

namespace Chproxy.Chdecompressor

open Utils

variable {ε : Type}

/-! ## `Read` -/

/-- `Read` into a buffer of size `n`. -/
def Reader.read (c : Codecs ε) : Reader.Read Reader UInt8 (BlockError ε) := fun r n =>
  -- exhaust remaining data from previous Read()
  if r.data.length = 0 then
    let b := r.readNextBlock c
    match b.err with
    | some e => (b.reader, [], some e)
    | none => ({ b.reader with data := b.reader.data.drop n }, b.reader.data.take n, none)
  else ({ r with data := r.data.drop n }, r.data.take n, none)

/-! ## Frames -/

inductive Compression
  | none
  | lz4
  | zstd
  deriving DecidableEq, Repr

def Compression.byte : Compression → UInt8
  | none => noneType
  | lz4 => lz4Type
  | zstd => zstdType

/-- The body decompresses to the payload. -/
def Compression.Yields (c : Codecs ε) (body payload : Bytes) : Compression → Prop
  | none => body = payload
  | lz4 => c.lz4 body (List.replicate payload.length 0) = (payload, .none)
  | zstd => c.zstd body = (payload, .none)

/-- A well-formed frame for the decompressors given. -/
structure Frame (c : Codecs ε) where
  checksum : Bytes
  compression : Compression
  body : Bytes
  payload : Bytes
  checksum_length : checksum.length = 16
  body_lt : body.length + 9 < 2 ^ 32
  payload_lt : payload.length < 2 ^ 32
  yields : compression.Yields c body payload

namespace Frame

variable {c : Codecs ε}

def header (f : Frame c) : Bytes :=
  f.checksum ++ ([f.compression.byte] ++ (LittleEndian.encode 4 (f.body.length + 9) ++
    LittleEndian.encode 4 f.payload.length))

/-- The bytes of a frame. -/
def bytes (f : Frame c) : Bytes := f.header ++ f.body

theorem length_header (f : Frame c) : f.header.length = 25 := by
  simp only [header, List.length_append, f.checksum_length, List.length_singleton, LittleEndian.length_encode]

theorem toNat_bodySize (f : Frame c) : (UInt32.ofNat (f.body.length + 9) - 9).toNat = f.body.length := by
  rw [toNat_sub_nine f.body_lt, if_pos (by omega)]
  omega

/-- The body of a frame is decompressed. -/
theorem decompressBlock_eq (f : Frame c) (r : Reader) :
    r.decompressBlock c f.body f.compression.byte (UInt32.ofNat f.payload.length) =
      ({ r with data := f.payload }, none) := by
  have hyields := f.yields
  unfold Reader.decompressBlock
  rw [UInt32.toNat_ofNat_of_lt' f.payload_lt]
  cases hc : f.compression with
  | none =>
    rw [hc] at hyields
    rw [show f.body = f.payload from hyields]
    rfl
  | lz4 =>
    rw [hc] at hyields
    simp only [show c.lz4 f.body _ = _ from hyields]
    rfl
  | zstd =>
    rw [hc] at hyields
    simp only [show c.zstd f.body = _ from hyields]
    rfl

/-- The header of a frame leads to its body, of which some may be missing. -/
theorem readNextBlock_header (f : Frame c) {r : Reader} {rest : Bytes} (hsrc : r.src = f.header ++ rest) :
    ∃ scratch, r.readNextBlock c = Reader.readBody c ⟨rest, r.data, scratch⟩ f.compression.byte
      (UInt32.ofNat (f.body.length + 9) - 9) (UInt32.ofNat f.payload.length) := by
  simp only [header, List.append_assoc] at hsrc
  have h := Reader.readNextBlock_header c hsrc f.checksum_length (LittleEndian.length_encode _ _)
    (LittleEndian.length_encode _ _)
  rw [LittleEndian.decode_encode f.body_lt, LittleEndian.decode_encode f.payload_lt] at h
  exact ⟨_, h⟩

/-- A whole frame is read. -/
theorem readNextBlock_bytes (f : Frame c) {r : Reader} {rest : Bytes} (hsrc : r.src = f.bytes ++ rest) :
    ∃ scratch body, r.readNextBlock c = ⟨⟨rest, f.payload, scratch⟩, body, none⟩ := by
  rw [bytes, List.append_assoc] at hsrc
  obtain ⟨scratch, h⟩ := f.readNextBlock_header hsrc
  refine ⟨scratch, some f.body.length, ?_⟩
  have herr : readFullError (f.body ++ rest) f.body.length = none := by
    rw [readFullError, if_pos (by rw [List.length_append]; omega)]
  rw [h, Reader.readBody]
  simp only [f.toNat_bodySize, herr, List.take_left, List.drop_left, f.decompressBlock_eq]
  rfl

/-- A frame that ends within its header. -/
theorem readNextBlock_of_short (c : Codecs ε) {part : Bytes} (hpos : 0 < part.length) (hlt : part.length < 25) :
    ∃ e, ∀ r : Reader, r.src = part → (r.readNextBlock c).err = some (.error e) := by
  obtain ⟨e, he⟩ : ∃ e, Reader.cutError (ε := ε) part = .error e := by
    unfold Reader.cutError
    dsimp only
    rw [if_neg (by omega)]
    repeat' split
    all_goals exact ⟨_, rfl⟩
  refine ⟨e, fun r hr => ?_⟩
  rw [(Reader.readNextBlock_cut c (by rw [hr]; exact hlt)).2, hr, he]

/-- A frame that ends within its body. -/
theorem readNextBlock_of_body (f : Frame c) {rest : Bytes} (hlt : rest.length < f.body.length) :
    ∃ e, ∀ r : Reader, r.src = f.header ++ rest → (r.readNextBlock c).err = some (.error e) := by
  obtain ⟨err, herr⟩ : ∃ err, readFullError rest f.body.length = some err := by
    unfold readFullError
    rw [if_neg (by omega)]
    split
    all_goals exact ⟨_, rfl⟩
  refine ⟨.cannotReadCompressedBlock err, fun r hr => ?_⟩
  obtain ⟨scratch, h⟩ := f.readNextBlock_header hr
  rw [h, Reader.readBody]
  simp only [f.toNat_bodySize, herr]

/-- A frame that is cut off is an error, and one that says more than `io.EOF`. -/
theorem readNextBlock_cut (f : Frame c) {part : Bytes} (hpart : part <+: f.bytes) (hne : part ≠ [])
    (hcut : part ≠ f.bytes) :
    ∃ e, ∀ r : Reader, r.src = part → (r.readNextBlock c).err = some (.error e) := by
  by_cases hlt : part.length < 25
  · exact readNextBlock_of_short c (List.length_pos_iff.2 hne) hlt
  obtain ⟨rest, rfl⟩ : f.header <+: part :=
    List.prefix_of_prefix_length_le (List.prefix_append _ _) hpart (by rw [f.length_header]; omega)
  refine f.readNextBlock_of_body (Nat.lt_of_le_of_ne ?_ fun hlen => hcut ?_)
  · have hle := hpart.length_le
    simp only [bytes, List.length_append] at hle
    omega
  · exact hpart.eq_of_length (by rw [bytes, List.length_append, List.length_append, hlen])

end Frame

/-! ## Sequences of frames -/

section

variable {c : Codecs ε}

def stream (frames : List (Frame c)) : Bytes := frames.flatMap Frame.bytes

def payloads (frames : List (Frame c)) : Bytes := frames.flatMap Frame.payload

/-- What is left to be read: the rest of a payload and then whole frames, before a tail. Each frame takes one more
read than its payload has bytes, for it may be empty. -/
def Left (tail : Bytes) (r : Reader) (p : Bytes) (k : Nat) : Prop :=
  ∃ frames : List (Frame c), r.src = stream frames ++ tail ∧ p = r.data ++ payloads frames ∧
    k = r.data.length + (frames.map fun f => f.payload.length + 1).sum

/-- A read takes a part of the payload at hand. -/
theorem left_take {tail src data scratch : Bytes} {frames : List (Frame c)} (hsrc : src = stream frames ++ tail)
    (n : Nat) :
    Left (c := c) tail ⟨src, data.drop n, scratch⟩ (data.drop n ++ payloads frames)
      ((data.drop n).length + (frames.map fun f => f.payload.length + 1).sum) :=
  ⟨frames, hsrc, rfl, rfl⟩

/-- Reading goes through the frames and ends as the tail says. -/
theorem course_of_tail {tail : Bytes} {e : Reader.End (BlockError ε)}
    (htail : ∀ r : Reader, r.src = tail → (r.readNextBlock c).err = some e) :
    Reader.Course (Reader.read c) (Left (c := c) tail) e := by
  refine ⟨fun r p k n hleft hn => ?_⟩
  obtain ⟨frames, hsrc, rfl, rfl⟩ := hleft
  -- a new block is read only when the data of the last one was handed out
  by_cases hdata : r.data.length = 0
  · have hnil := List.length_eq_zero_iff.1 hdata
    cases frames with
    | nil =>
      refine .inr ⟨(r.readNextBlock c).reader, ?_, by rw [hnil]; rfl⟩
      have herr := htail r (by rw [hsrc]; rfl)
      simp only [Reader.read, if_pos hdata, herr]
    | cons f fs =>
      have hnext : r.src = f.bytes ++ (stream fs ++ tail) := by
        rw [hsrc, stream, List.flatMap_cons, List.append_assoc]
        rfl
      obtain ⟨scratch, body, hnext⟩ := f.readNextBlock_bytes hnext
      refine .inl ⟨⟨stream fs ++ tail, f.payload.drop n, scratch⟩, f.payload.take n, _, _, ?_, left_take rfl n, ?_, ?_⟩
      · simp only [Reader.read, if_pos hdata, hnext]
      · rw [hnil, payloads, List.flatMap_cons, List.nil_append, ← List.append_assoc, List.take_append_drop]
        rfl
      · rw [List.length_drop, List.map_cons, List.sum_cons]
        omega
  · refine .inl ⟨⟨r.src, r.data.drop n, r.scratch⟩, r.data.take n, _, _, ?_, left_take hsrc n, ?_, ?_⟩
    · simp only [Reader.read, if_neg hdata]
    · rw [← List.append_assoc, List.take_append_drop]
    · rw [List.length_drop]
      omega

theorem left_newReader (frames : List (Frame c)) (tail : Bytes) :
    Left (c := c) tail (newReader (stream frames ++ tail)) (payloads frames)
      (frames.map fun f => f.payload.length + 1).sum :=
  ⟨frames, rfl, rfl, (Nat.zero_add _).symm⟩

theorem readNextBlock_nil (c : Codecs ε) {r : Reader} (h : r.src = []) : (r.readNextBlock c).err = some .eof := by
  rw [(Reader.readNextBlock_cut c (by rw [h]; decide)).2, h]
  rfl

/-- Frames are read as their payloads, whatever the sizes of the buffers are; then comes `io.EOF`, or another error
if a further frame is cut off. -/
theorem frames_read (frames : List (Frame c)) :
    Reader.Delivers (Reader.readAll (Reader.read c) (newReader (stream frames))) (payloads frames) ∧
    ∀ (f : Frame c) (part : Bytes), part <+: f.bytes → part ≠ [] → part ≠ f.bytes →
      ∃ e, Reader.EndsWith (Reader.readAll (Reader.read c) (newReader (stream frames ++ part))) (payloads frames)
        (.error e) := by
  constructor
  · have hend := (course_of_tail fun _ => readNextBlock_nil c).endsWith (left_newReader frames [])
    rwa [List.append_nil] at hend
  · intro f part hpart hne hcut
    obtain ⟨e, he⟩ := f.readNextBlock_cut hpart hne hcut
    exact ⟨e, (course_of_tail he).endsWith (left_newReader frames part)⟩

end

/-- An uncompressed frame with two bytes. -/
def plainFrame : Frame noCodecs where
  checksum := List.replicate 16 0
  compression := .none
  body := [104, 105]
  payload := [104, 105]
  checksum_length := rfl
  body_lt := by decide
  payload_lt := by decide
  yields := rfl

/-- A frame and the header of another one. -/
theorem frames_read_cut :
    ∃ e, Reader.EndsWith (Reader.readAll (Reader.read noCodecs) (newReader (stream [plainFrame] ++ plainFrame.header)))
      [104, 105] (.error e) :=
  (frames_read [plainFrame]).2 plainFrame plainFrame.header (List.prefix_append _ _) (by decide) (by decide)

end Chproxy.Chdecompressor
