/-
The UTF-8 encoding keeps the lexicographic order of texts: sorting byte strings sorts the texts they
encode, and different texts have different bytes. An encoded text can be read from either side, and can be
cut at a separator of one byte.
-/
import Chproxy.Lib.Fields
import Mathlib.Data.List.Lex
import Mathlib.Data.String.Basic

namespace Utf8

/-- The bytes of a text. -/
def encode (s : List Char) : List UInt8 := s.flatMap String.utf8EncodeChar

theorem ofNat_lt_ofNat {a b : Nat} (ha : a < 256) (hb : b < 256) : UInt8.ofNat a < UInt8.ofNat b ↔ a < b := by
  rw [UInt8.lt_iff_toNat_lt, UInt8.toNat_ofNat', UInt8.toNat_ofNat', Nat.mod_eq_of_lt ha, Nat.mod_eq_of_lt hb]

theorem ofNat_eq_ofNat {a b : Nat} (ha : a < 256) (hb : b < 256) : UInt8.ofNat a = UInt8.ofNat b ↔ a = b := by
  rw [← UInt8.toNat_inj, UInt8.toNat_ofNat', UInt8.toNat_ofNat', Nat.mod_eq_of_lt ha, Nat.mod_eq_of_lt hb]

theorem val_lt (c : Char) : c.val.toNat < 0x110000 := by
  have := c.valid
  simp only [UInt32.isValidChar, Nat.isValidChar] at this
  omega

/-- The first byte that differs decides, and there is one in the shorter of the two encodings. -/
theorem encodeChar_lt {c d : Char} (h : c < d) (r r' : List UInt8) :
    String.utf8EncodeChar c ++ r < String.utf8EncodeChar d ++ r' := by
  have hlt : c.val.toNat < d.val.toNat := UInt32.lt_iff_toNat_lt.1 h
  have hd := val_lt d
  unfold String.utf8EncodeChar
  generalize c.val.toNat = v at hlt
  generalize d.val.toNat = w at hlt hd
  have hv₁ : v / 64 / 64 = v / 4096 := Nat.div_div_eq_div_mul ..
  have hv₂ : v / 4096 / 64 = v / 262144 := Nat.div_div_eq_div_mul ..
  have hw₁ : w / 64 / 64 = w / 4096 := Nat.div_div_eq_div_mul ..
  have hw₂ : w / 4096 / 64 = w / 262144 := Nat.div_div_eq_div_mul ..
  have hv₃ : v / 262144 % 8 = v / 262144 := Nat.mod_eq_of_lt (by omega)
  have hw₃ : w / 262144 % 8 = w / 262144 := Nat.mod_eq_of_lt (by omega)
  dsimp only
  rw [hv₃, hw₃]
  split_ifs <;> simp (disch := omega) only [List.cons_append, List.nil_append, List.cons_lt_cons_iff, ofNat_lt_ofNat,
    ofNat_eq_ofNat] <;> omega

theorem encode_cons (c : Char) (s : List Char) : encode (c :: s) = String.utf8EncodeChar c ++ encode s := rfl

theorem encode_lt : ∀ {s t : List Char}, s < t → encode s < encode t
  | [], [], h => absurd h (List.lt_irrefl _)
  | [], d :: t, _ => by
    rw [encode_cons]
    obtain ⟨b, bs, hb⟩ := List.exists_cons_of_ne_nil (String.utf8EncodeChar_ne_nil (c := d))
    rw [hb]
    exact List.nil_lt_cons ..
  | c :: s, [], h => absurd h (List.not_lt_nil _)
  | c :: s, d :: t, h => by
    rw [encode_cons, encode_cons]
    rcases List.cons_lt_cons_iff.1 h with hcd | ⟨rfl, hst⟩
    · exact encodeChar_lt hcd _ _
    · exact List.append_left_lt (encode_lt hst)

theorem encode_lt_iff {s t : List Char} : encode s < encode t ↔ s < t := by
  constructor
  · intro h
    rcases lt_trichotomy s t with hst | rfl | hts
    · exact hst
    · exact absurd h (List.lt_irrefl _)
    · exact absurd (encode_lt hts) (List.lt_asymm h)
  · exact encode_lt

theorem encode_injective : Function.Injective encode := by
  intro s t h
  rcases lt_trichotomy s t with hst | hst | hts
  · exact absurd (h ▸ encode_lt hst) (List.lt_irrefl _)
  · exact hst
  · exact absurd (h ▸ encode_lt hts) (List.lt_irrefl _)

/-! ## Reading from either side -/

/-- The first encoding in a text is determined. -/
theorem eq_of_encodeChar_append {c d : Char} {r r' : List UInt8}
    (h : String.utf8EncodeChar c ++ r = String.utf8EncodeChar d ++ r') : c = d := by
  rcases lt_trichotomy c d with hcd | rfl | hdc
  · exact absurd (h ▸ encodeChar_lt hcd r r') (List.lt_irrefl _)
  · rfl
  · exact absurd (h ▸ encodeChar_lt hdc r' r) (List.lt_irrefl _)

/-- The bytes of an encoding after its first. -/
def Continuation (b : UInt8) : Prop := 128 ≤ b.toNat ∧ b.toNat < 192

theorem toNat_ofNat {n : Nat} (h : n < 256) : (UInt8.ofNat n).toNat = n := by
  rw [UInt8.toNat_ofNat', Nat.mod_eq_of_lt h]

theorem continuation_ofNat (v : Nat) : Continuation (UInt8.ofNat (v % 64 + 128)) := by
  unfold Continuation
  rw [toNat_ofNat (by omega)]
  omega

theorem encodeChar_eq_cons (c : Char) :
    ∃ b bs, String.utf8EncodeChar c = b :: bs ∧ ¬Continuation b ∧ ∀ x ∈ bs, Continuation x := by
  have hc := val_lt c
  have hfirst : ∀ n, n < 128 ∨ 192 ≤ n ∧ n < 256 → ¬Continuation (UInt8.ofNat n) := by
    intro n hn
    unfold Continuation
    rw [toNat_ofNat (by omega)]
    omega
  unfold String.utf8EncodeChar
  generalize c.val.toNat = v at hc
  dsimp only
  split_ifs
  · exact ⟨_, _, rfl, hfirst _ (by omega), List.forall_mem_nil _⟩
  all_goals
    refine ⟨_, _, rfl, hfirst _ (by omega), ?_⟩
    simp only [List.forall_mem_cons, continuation_ofNat, List.not_mem_nil, false_implies, implies_true, and_self]

/-- The last encoding in a text is determined: one that ended another would begin with a byte that only
continues an encoding. -/
theorem eq_of_append_encodeChar {c d : Char} {r r' : List UInt8}
    (h : r ++ String.utf8EncodeChar c = r' ++ String.utf8EncodeChar d) : c = d := by
  have hends : ∀ (c d : Char) (a : List UInt8), String.utf8EncodeChar c = a ++ String.utf8EncodeChar d → c = d := by
    intro c d a ha
    cases a with
    | nil => exact eq_of_encodeChar_append (congrArg (· ++ []) ha)
    | cons x a =>
      obtain ⟨b, bs, hc, -, hbs⟩ := encodeChar_eq_cons c
      obtain ⟨b', bs', hd, hb', -⟩ := encodeChar_eq_cons d
      rw [hc, hd, List.cons_append, List.cons.injEq] at ha
      exact absurd (hbs b' (ha.2 ▸ List.mem_append_right _ List.mem_cons_self)) hb'
  rcases List.append_eq_append_iff.1 h with ⟨a, -, ha⟩ | ⟨a, -, ha⟩
  · exact hends c d a ha
  · exact (hends d c a ha).symm

theorem prefixFree_encodeChar : Fields.PrefixFree String.utf8EncodeChar where
  ne_nil _ := String.utf8EncodeChar_ne_nil
  unique := eq_of_encodeChar_append

theorem prefixFree_reverse_encodeChar : Fields.PrefixFree (List.reverse ∘ String.utf8EncodeChar) where
  ne_nil _ h := String.utf8EncodeChar_ne_nil (List.reverse_eq_nil_iff.1 h)
  unique {c d r r'} h := by
    have hrev := congrArg List.reverse h
    rw [List.reverse_append, List.reverse_append] at hrev
    simp only [Function.comp_apply, List.reverse_reverse] at hrev
    exact eq_of_append_encodeChar hrev

/-! ## Separators -/

section Separator

variable {a : Char} {b : UInt8} (hab : String.utf8EncodeChar a = [b])

include hab

theorem mem_encode_iff (s : List Char) : b ∈ encode s ↔ a ∈ s := by
  rw [encode, List.mem_flatMap]
  constructor
  · rintro ⟨c, hc, hb⟩
    obtain ⟨x, bs, hx, -, hbs⟩ := encodeChar_eq_cons c
    obtain ⟨y, ys, hy, hfirst, -⟩ := encodeChar_eq_cons a
    rw [hab, List.cons.injEq] at hy
    rw [hx, List.mem_cons] at hb
    rcases hb with rfl | hb
    · have heq : String.utf8EncodeChar a ++ bs = String.utf8EncodeChar c ++ [] := by
        rw [hab, hx, List.append_nil, List.singleton_append]
      exact eq_of_encodeChar_append heq ▸ hc
    · exact absurd (hbs b hb) (hy.1 ▸ hfirst)
  · intro ha
    exact ⟨a, ha, by rw [hab]; exact List.mem_singleton_self b⟩

theorem encode_intercalate : ∀ ls : List (List Char),
    encode ([a].intercalate ls) = [b].intercalate (ls.map encode)
  | [] => rfl
  | [l] => by
    rw [List.map_singleton, List.intercalate_singleton, List.intercalate_singleton]
  | l :: l' :: ls => by
    have ih := encode_intercalate (l' :: ls)
    rw [List.map_cons] at ih
    rw [List.map_cons, List.map_cons, List.intercalate_cons_cons, List.intercalate_cons_cons, ← ih, encode, encode,
      List.flatMap_append, List.flatMap_append, List.flatMap_singleton, hab]
    rfl

/-- Cutting the encoded text is encoding the pieces. -/
theorem splitOn_encode (s : List Char) : (encode s).splitOn b = (s.splitOn a).map encode := by
  have hplain : ∀ l ∈ (s.splitOn a).map encode, b ∉ l := by
    intro l hl
    obtain ⟨piece, hpiece, rfl⟩ := List.mem_map.1 hl
    rw [mem_encode_iff hab]
    exact Fields.notMem_of_mem_splitOn hpiece
  have hne : (s.splitOn a).map encode ≠ [] := fun h => List.splitOn_ne_nil a s (List.map_eq_nil_iff.1 h)
  rw [← List.splitOn_intercalate b hplain hne, ← encode_intercalate hab, List.intercalate_splitOn]

end Separator

end Utf8
