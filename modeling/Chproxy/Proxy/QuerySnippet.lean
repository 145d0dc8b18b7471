/-
`cachedReadCloser` (`io.go`): a reader that keeps the beginning of what is read through it, for the query that
is written to the log. What it keeps can be computed from the bytes read alone, so it does not depend
on how they came.
-/
import Chproxy.Lib.Reader
import Chproxy.Utils.QueryText

namespace Chproxy.Proxy

open Utils (Bytes bytes)

variable {σ ε : Type}

/-- `b` is what is kept of the data read from the wrapped reader. -/
structure CachedReadCloser (σ : Type) where
  readCloser : σ
  b : Bytes

namespace CachedReadCloser

/-- The part of `Read` under the lock; `p` is what the wrapped reader has returned. -/
def keep (b p : Bytes) : Bytes :=
  if b.length < 1024 then
    let b := b ++ p
    if b.length ≥ 1024 then b.take 1024 ++ bytes "..." else b
  else b

def read (inner : Reader.Read σ UInt8 ε) : Reader.Read (CachedReadCloser σ) UInt8 ε := fun crc n =>
  let (s, p, err) := inner crc.readCloser n
  (⟨s, keep crc.b p⟩, p, err)

/-- `String`. -/
def string (crc : CachedReadCloser σ) : Bytes := crc.b

/-- `&cachedReadCloser{ReadCloser: r}`. -/
def wrap (r : σ) : CachedReadCloser σ := ⟨r, []⟩

end CachedReadCloser

/-! ## What is kept -/

/-- All of a short text, and the first 1024 bytes of a long one with three dots. -/
def snippet (t : Bytes) : Bytes := if t.length < 1024 then t else t.take 1024 ++ bytes "..."

theorem snippet_append {t : Bytes} (h : 1024 ≤ t.length) (p : Bytes) : snippet (t ++ p) = snippet t := by
  have hlong : ¬(t ++ p).length < 1024 := by
    rw [List.length_append]
    omega
  rw [snippet, snippet, if_neg hlong, if_neg (Nat.not_lt.2 h), List.take_append_of_le_length h]

theorem le_length_snippet {t : Bytes} (h : 1024 ≤ t.length) : 1024 ≤ (snippet t).length := by
  rw [snippet, if_neg (Nat.not_lt.2 h), List.length_append, List.length_take, Nat.min_eq_left h]
  exact Nat.le_add_right _ _

/-- A read takes the snippet of the bytes before it to the snippet of the bytes with it. -/
theorem keep_snippet (t p : Bytes) : CachedReadCloser.keep (snippet t) p = snippet (t ++ p) := by
  rcases Nat.lt_or_ge t.length 1024 with ht | ht
  · have hshort : snippet t = t := if_pos ht
    rw [hshort, CachedReadCloser.keep, if_pos ht, snippet]
    by_cases hp : (t ++ p).length < 1024
    · rw [if_pos hp]
      exact if_neg (Nat.not_le.2 hp)
    · rw [if_neg hp]
      exact if_pos (Nat.not_lt.1 hp)
  · rw [CachedReadCloser.keep, if_neg (Nat.not_lt.2 (le_length_snippet ht)), snippet_append ht]

/-- After `t` has been read, reads return what the wrapped reader returns and keep the snippet. -/
theorem reads_cachedReadCloser (inner : Reader.Read σ UInt8 ε) : ∀ (ns : List Nat) (s : σ) (t : Bytes),
    Reader.reads (CachedReadCloser.read inner) ⟨s, snippet t⟩ ns =
      (⟨(Reader.reads inner s ns).1, snippet (t ++ Reader.content (Reader.reads inner s ns).2)⟩,
        (Reader.reads inner s ns).2)
  | [], s, t => by simp [Reader.reads, Reader.content]
  | n :: ns, s, t => by
    have hread : CachedReadCloser.read inner ⟨s, snippet t⟩ n =
        (⟨(inner s n).1, snippet (t ++ (inner s n).2.1)⟩, (inner s n).2) := by
      rw [← keep_snippet]
      rfl
    rw [Reader.reads, hread]
    dsimp only
    rw [reads_cachedReadCloser inner ns, List.append_assoc]
    rfl

/-- Reading through a `cachedReadCloser`, with buffers of any sizes and from any reader, however it cuts the
stream: the caller is given what the wrapped reader returns. When `t` bytes of the stream have been read,
`String` is these bytes if they are fewer than 1024 and otherwise the first 1024 with three dots, and
then no later read changes it. -/
theorem string_cachedReadCloser (inner : Reader.Read σ UInt8 ε) (r : σ) (ns ms : List Nat) :
    let through := Reader.reads (CachedReadCloser.read inner) (.wrap r)
    let stream := Reader.content (Reader.reads inner r (ns ++ ms)).2
    let t := (Reader.content (through ns).2).length
    (through ns).2 = (Reader.reads inner r ns).2 ∧
    Reader.content (through ns).2 = stream.take t ∧
    (through ns).1.string = (if t < 1024 then stream.take t else stream.take 1024 ++ bytes "...") ∧
    (1024 ≤ t → (through (ns ++ ms)).1.string = (through ns).1.string) := by
  intro through stream t
  -- reading through the wrapper is reading, with the beginning kept beside it
  have hthrough : ∀ ks, through ks =
      (⟨(Reader.reads inner r ks).1, snippet (Reader.content (Reader.reads inner r ks).2)⟩,
        (Reader.reads inner r ks).2) := fun ks => reads_cachedReadCloser inner ks r []
  have ht : t = (Reader.content (Reader.reads inner r ns).2).length := by
    dsimp only [t]
    rw [hthrough]
  have hstream : stream = _ := Reader.content_reads_append inner r ns ms
  have htake : stream.take t = Reader.content (Reader.reads inner r ns).2 := by
    rw [hstream, ht, List.take_left]
  refine ⟨by rw [hthrough], by rw [htake, hthrough], ?_, ?_⟩
  · rw [hthrough, htake, ht]
    by_cases hshort : (Reader.content (Reader.reads inner r ns).2).length < 1024
    · rw [if_pos hshort]
      exact if_pos hshort
    · rw [if_neg hshort, hstream, List.take_append_of_le_length (Nat.not_lt.1 hshort)]
      exact if_neg hshort
  · intro hlong
    rw [hthrough, hthrough]
    change snippet stream = snippet _
    rw [hstream]
    exact snippet_append (ht ▸ hlong) _

end Chproxy.Proxy
