/-
The canonical form of `Accept-Encoding` (`sortHeader` in `utils.go`) in the cache key. A header is a Go string and may
hold any bytes, so `sortHeader` is modelled here on bytes; on the bytes of a text it is `Utils.sortHeader`.
-/
import Chproxy.Lib.Utf8
import Chproxy.Proxy.CacheKey
import Chproxy.Utils.HashedText

namespace Chproxy.Utils

/-! ## Headers as bytes -/

/-- The runes of `unicode.IsSpace`. -/
def spaces : List Char :=
  [9, 10, 11, 12, 13, 32, 0x85, 0xA0, 0x1680, 0x2000, 0x2001, 0x2002, 0x2003, 0x2004, 0x2005, 0x2006, 0x2007, 0x2008,
    0x2009, 0x200A, 0x2028, 0x2029, 0x202F, 0x205F, 0x3000].map Char.ofNat

namespace Raw

/-- `strings.TrimSpace`: a rune of white space is decoded at an end of the string where its encoding stands
there, and bytes that encode nothing are not white space. -/
def trimSpace (s : Bytes) : Bytes := Fields.trim (spaces.map String.utf8EncodeChar) s

/-- What `sortHeader` sorts. -/
def headerTokens (header : Bytes) : List Bytes := (header.splitOn 44).map trimSpace

def sortHeader (header : Bytes) : Bytes := [44].intercalate ((headerTokens header).insertionSort (· ≤ ·))

theorem trims_trimSpace : Fields.Trims trimSpace where
  mem := Fields.mem_of_mem_trim
  idem := Fields.trim_trim fun h => by
    obtain ⟨c, -, hc⟩ := List.mem_map.1 h
    exact String.utf8EncodeChar_ne_nil hc

theorem sortHeader_eq_iff (h₁ h₂ : Bytes) :
    sortHeader h₁ = sortHeader h₂ ↔
      (headerTokens h₁ : Multiset Bytes) = (headerTokens h₂ : Multiset Bytes) :=
  Fields.canonical_eq_iff (· ≤ ·) trims_trimSpace h₁ h₂

theorem sortHeader_sortHeader (h : Bytes) : sortHeader (sortHeader h) = sortHeader h :=
  Fields.canonical_canonical (· ≤ ·) trims_trimSpace h

end Raw

/-! ## Headers as texts -/

theorem isSpace_iff (c : Char) : isSpace c = true ↔ c ∈ spaces := by
  have hinj : Function.Injective Char.toNat := fun _ _ h => Char.toNat_inj.1 h
  have hcodes : spaces.map Char.toNat =
      [9, 10, 11, 12, 13, 32, 0x85, 0xA0, 0x1680, 0x2000, 0x2001, 0x2002, 0x2003, 0x2004, 0x2005, 0x2006, 0x2007,
        0x2008, 0x2009, 0x200A, 0x2028, 0x2029, 0x202F, 0x205F, 0x3000] := by decide
  rw [← List.mem_map_of_injective hinj, hcodes, isSpace]
  generalize c.toNat = n
  simp only [Bool.or_eq_true, Bool.and_eq_true, decide_eq_true_eq, List.mem_cons, List.not_mem_nil, or_false]
  omega

theorem trimSpace_encode (s : List Char) : Raw.trimSpace (Utf8.encode s) = Utf8.encode (trimSpace s) :=
  Fields.trim_flatMap Utf8.prefixFree_encodeChar Utf8.prefixFree_reverse_encodeChar isSpace_iff s

theorem headerTokens_bytes (header : String) :
    Raw.headerTokens (bytes header) =
      ((header.toList.splitOn ',').map fun v => String.ofList (trimSpace v)).map bytes := by
  have hsplit : (bytes header).splitOn 44 = (header.toList.splitOn ',').map Utf8.encode :=
    Utf8.splitOn_encode (a := ',') rfl header.toList
  rw [Raw.headerTokens, hsplit, List.map_map, List.map_map]
  apply List.map_congr_left
  intro v _
  rw [Function.comp_apply, trimSpace_encode, Function.comp_apply, bytes, String.toList_ofList]
  rfl

theorem bytes_foldl_append : ∀ (l : List String) (s : String),
    bytes (l.foldl (· ++ ·) s) = bytes s ++ l.flatMap bytes
  | [], s => (List.append_nil _).symm
  | a :: l, s => by
    rw [List.foldl_cons, bytes_foldl_append l, bytes_append, List.append_assoc]
    rfl

/-- On the bytes of a text, the two agree. -/
theorem bytes_sortHeader (header : String) : bytes (sortHeader header) = Raw.sortHeader (bytes header) := by
  rw [Raw.sortHeader, headerTokens_bytes,
    ← List.map_insertionSort (· ≤ ·) (· ≤ ·) bytes _ fun a _ b _ => bytes_le_iff a b, sortHeader, bytes_foldl_append,
    Fields.flatMap_intersperse]
  rfl

theorem sortHeader_eq_iff_headerTokens (h₁ h₂ : String) :
    sortHeader h₁ = sortHeader h₂ ↔
      (Raw.headerTokens (bytes h₁) : Multiset Bytes) = (Raw.headerTokens (bytes h₂) : Multiset Bytes) := by
  rw [← bytes_injective.eq_iff, bytes_sortHeader, bytes_sortHeader]
  exact Raw.sortHeader_eq_iff _ _

end Chproxy.Utils

namespace Chproxy.Proxy

open Utils Routing

/-! ## In the cache key -/

/-- The items that a request accepts, as they stand in its header. -/
def acceptedEncodings (req : Request) : List Bytes := Raw.headerTokens (bytes (req.header.get "Accept-Encoding"))

/-- `sortHeader` gives two headers the same form exactly when their items are the same up to order, and a form is its
own. So requests whose items are the same have the same key if they have the rest of it in common, and
requests whose items differ never have the same key. -/
theorem sortHeader_canonical (h₁ h₂ : Bytes) :
    (Raw.sortHeader h₁ = Raw.sortHeader h₂ ↔
      (Raw.headerTokens h₁ : Multiset Bytes) = (Raw.headerTokens h₂ : Multiset Bytes)) ∧
    Raw.sortHeader (Raw.sortHeader h₁) = Raw.sortHeader h₁ ∧
    (∀ (s : Scope) (o : Values) (q : Bytes) (r₁ r₂ : Request),
      (acceptedEncodings r₁ : Multiset Bytes) = (acceptedEncodings r₂ : Multiset Bytes) →
      newCacheKey s o q r₁ = newCacheKey s o q r₂) ∧
    (∀ (s₁ s₂ : Scope) (o₁ o₂ : Values) (q₁ q₂ : Bytes) (r₁ r₂ : Request),
      newCacheKey s₁ o₁ q₁ r₁ = newCacheKey s₂ o₂ q₂ r₂ →
      (acceptedEncodings r₁ : Multiset Bytes) = (acceptedEncodings r₂ : Multiset Bytes)) := by
  refine ⟨Raw.sortHeader_eq_iff h₁ h₂, Raw.sortHeader_sortHeader h₁, ?_, ?_⟩
  · intro s o q r₁ r₂ h
    have hsort := (sortHeader_eq_iff_headerTokens _ _).2 h
    rw [newCacheKey, newCacheKey, hsort]
  · intro s₁ s₂ o₁ o₂ q₁ q₂ r₁ r₂ h
    exact (sortHeader_eq_iff_headerTokens _ _).1 (congrArg Key.acceptEncoding h)

end Chproxy.Proxy
