/-
Texts of fields: cut at a separator, each field trimmed, the fields sorted and joined again. Such a text stands
for the multiset of its trimmed fields, and the joined text can be read back into the sorted fields.

What is trimmed off are words, so that the same rules hold of texts and of their encodings.
-/
import Chproxy.Lib.Tables
import Mathlib.Data.Multiset.Basic

namespace Fields

variable {α β : Type}

/-! ## Trimming -/

section Trimming

variable [DecidableEq α]

/-- Takes words off the front of a text as long as there are any, at most `k` of them. -/
def stripLeft (words : List (List α)) : Nat → List α → List α
  | 0, s => s
  | k + 1, s =>
    match words.find? (·.isPrefixOf s) with
    | none => s
    | some w => stripLeft words k (s.drop w.length)

def stripRight (words : List (List α)) (k : Nat) (s : List α) : List α :=
  (stripLeft (words.map List.reverse) k s.reverse).reverse

def trim (words : List (List α)) (s : List α) : List α :=
  let t := stripLeft words s.length s
  stripRight words t.length t

/-- No word stands at the front. -/
def Stripped (words : List (List α)) (s : List α) : Prop := ∀ w ∈ words, ¬w <+: s

variable {words : List (List α)}

theorem stripLeft_suffix : ∀ (k : Nat) (s : List α), stripLeft words k s <:+ s
  | 0, s => List.suffix_refl s
  | k + 1, s => by
    rw [stripLeft]
    split
    · exact List.suffix_refl s
    · exact (stripLeft_suffix k _).trans (List.drop_suffix _ _)

theorem stripLeft_of_stripped {s : List α} (h : Stripped words s) : ∀ k, stripLeft words k s = s
  | 0 => rfl
  | k + 1 => by
    have hfind : words.find? (·.isPrefixOf s) = none := by
      rw [List.find?_eq_none]
      intro w hw
      rw [List.isPrefixOf_iff_prefix]
      exact h w hw
    rw [stripLeft, hfind]

theorem stripped_stripLeft (hwords : [] ∉ words) : ∀ (k : Nat) (s : List α), s.length ≤ k →
    Stripped words (stripLeft words k s)
  | 0, s, hk => by
    intro w hw hle
    rw [stripLeft, List.length_eq_zero_iff.1 (Nat.le_zero.1 hk), List.prefix_nil] at hle
    exact hwords (hle ▸ hw)
  | k + 1, s, hk => by
    rw [stripLeft]
    split
    · rename_i hf
      intro w hw hle
      rw [List.find?_eq_none] at hf
      exact hf w hw (List.isPrefixOf_iff_prefix.2 hle)
    · rename_i w hf
      have hpos : 0 < w.length := by
        apply List.length_pos_of_ne_nil
        rintro rfl
        exact hwords (List.mem_of_find?_eq_some hf)
      apply stripped_stripLeft hwords
      rw [List.length_drop]
      omega

theorem stripRight_begins (k : Nat) (s : List α) : stripRight words k s <+: s := by
  rw [stripRight, ← List.reverse_suffix, List.reverse_reverse]
  exact stripLeft_suffix k s.reverse

theorem mem_of_mem_trim {a : α} {s : List α} (h : a ∈ trim words s) : a ∈ s :=
  (stripLeft_suffix _ _).mem ((stripRight_begins _ _).mem h)

/-- A trimmed text has no word at its front, since it begins as the text before the second pass did, and
none at its end. -/
theorem trim_trim (hwords : [] ∉ words) (s : List α) : trim words (trim words s) = trim words s := by
  have hback : [] ∉ words.map List.reverse := by
    rintro h
    obtain ⟨w, hw, hnil⟩ := List.mem_map.1 h
    exact hwords (List.reverse_eq_nil_iff.1 hnil ▸ hw)
  have hleft : Stripped words (trim words s) := fun w hw hle =>
    stripped_stripLeft hwords s.length s (Nat.le_refl _) w hw (hle.trans (stripRight_begins _ _))
  have hright : Stripped (words.map List.reverse) (trim words s).reverse := by
    rw [trim, stripRight, List.reverse_reverse]
    exact stripped_stripLeft hback _ _ (Nat.le_of_eq List.length_reverse)
  rw [trim, stripLeft_of_stripped hleft, stripRight, stripLeft_of_stripped hright, List.reverse_reverse]

end Trimming

/-! ### Encoded texts -/

/-- A code of letters by words that are not empty, of which a text holds at most one at its front. -/
structure PrefixFree (f : β → List α) : Prop where
  ne_nil : ∀ c, f c ≠ []
  unique : ∀ {c d : β} {r r' : List α}, f c ++ r = f d ++ r' → c = d

theorem PrefixFree.length_le {f : β → List α} (hf : PrefixFree f) (cs : List β) :
    cs.length ≤ (cs.flatMap f).length := by
  induction cs with
  | nil => exact Nat.le_refl _
  | cons c cs ih =>
    have hpos := List.length_pos_of_ne_nil (hf.ne_nil c)
    rw [List.flatMap_cons, List.length_append, List.length_cons]
    omega

section Encoded

variable [DecidableEq α] {f : β → List α} {S : List β} {p : β → Bool}

/-- Taking encoded letters off an encoded text is dropping the letters. -/
theorem stripLeft_flatMap (hf : PrefixFree f) (hp : ∀ c, p c = true ↔ c ∈ S) : ∀ (k : Nat) (cs : List β),
    cs.length ≤ k → stripLeft (S.map f) k (cs.flatMap f) = (cs.dropWhile p).flatMap f
  | k, [], _ => by
    apply stripLeft_of_stripped
    intro w hw hle
    obtain ⟨c, -, rfl⟩ := List.mem_map.1 hw
    exact hf.ne_nil c (List.prefix_nil.1 hle)
  | k + 1, c :: cs, hk => by
    by_cases hc : p c = true
    · -- the code word at the front can be only that of the first symbol
      have hfind : (S.map f).find? (·.isPrefixOf ((c :: cs).flatMap f)) = some (f c) := by
        rcases hw : (S.map f).find? (·.isPrefixOf ((c :: cs).flatMap f)) with _ | w
        · rw [List.find?_eq_none] at hw
          exact absurd (List.isPrefixOf_iff_prefix.2 (List.prefix_append _ _))
            (hw _ (List.mem_map_of_mem ((hp c).1 hc)))
        · have hle := List.find?_some (p := fun w : List α => w.isPrefixOf ((c :: cs).flatMap f)) hw
          obtain ⟨d, -, rfl⟩ := List.mem_map.1 (List.mem_of_find?_eq_some hw)
          obtain ⟨r, hr⟩ := List.isPrefixOf_iff_prefix.1 hle
          rw [hw, hf.unique (hr.trans List.flatMap_cons)]
      rw [stripLeft, hfind, List.dropWhile_cons_of_pos hc]
      dsimp only
      rw [List.flatMap_cons, List.drop_left]
      exact stripLeft_flatMap hf hp k cs (Nat.le_of_succ_le_succ hk)
    · rw [List.dropWhile_cons_of_neg hc]
      apply stripLeft_of_stripped
      rintro w hw ⟨r, hr⟩
      obtain ⟨d, hd, rfl⟩ := List.mem_map.1 hw
      exact hc ((hp c).2 (hf.unique (hr.trans List.flatMap_cons) ▸ hd))

/-- Trimming an encoded text is trimming the text, for a code that can be read from either side. -/
theorem trim_flatMap (hf : PrefixFree f) (hb : PrefixFree (List.reverse ∘ f)) (hp : ∀ c, p c = true ↔ c ∈ S)
    (cs : List β) :
    trim (S.map f) (cs.flatMap f) = ((cs.dropWhile p).reverse.dropWhile p).reverse.flatMap f := by
  have hlen : (cs.dropWhile p).reverse.length ≤ ((cs.dropWhile p).flatMap f).length := by
    rw [List.length_reverse]
    exact hf.length_le _
  have hcode : List.reverse ∘ (List.reverse ∘ f) = f := funext fun c => List.reverse_reverse _
  rw [trim, stripLeft_flatMap hf hp _ cs (hf.length_le cs), stripRight, List.reverse_flatMap, List.map_map,
    stripLeft_flatMap hb hp _ _ hlen, List.reverse_flatMap, hcode]

end Encoded

/-! ## Canonical forms -/

theorem notMem_of_mem_splitOn [DecidableEq α] {sep : α} {s l : List α} (h : l ∈ s.splitOn sep) : sep ∉ l := by
  by_cases hs : sep ∈ s
  · obtain ⟨front, rest, rfl, hfront⟩ := List.eq_append_cons_of_mem hs
    rw [List.splitOn_append_cons_self_of_not_mem hfront, List.mem_cons] at h
    rcases h with rfl | h
    · exact hfront
    · exact notMem_of_mem_splitOn h
  · rw [List.splitOn_eq_singleton hs, List.mem_singleton] at h
    exact h ▸ hs
termination_by s.length
decreasing_by
  subst_vars
  simp only [List.length_append, List.length_cons]
  omega

/-- Joining texts and then encoding them is joining the encodings. -/
theorem flatMap_intersperse (f : β → List α) (sep : β) : ∀ l : List β,
    (l.intersperse sep).flatMap f = (f sep).intercalate (l.map f)
  | [] => rfl
  | [a] => by
    rw [List.intersperse_singleton, List.flatMap_singleton, List.map_singleton, List.intercalate_singleton]
  | a :: b :: l => by
    have ih := flatMap_intersperse f sep (b :: l)
    rw [List.map_cons] at ih
    rw [List.intersperse_cons_cons, List.flatMap_cons, List.flatMap_cons, ih, List.map_cons, List.map_cons,
      List.intercalate_cons_cons, List.append_assoc]

section Canonical

variable [DecidableEq α] (sep : α) (trim : List α → List α) (r : List α → List α → Prop) [DecidableRel r]

/-- The trimmed fields of a text. -/
def tokens (s : List α) : List (List α) := (s.splitOn sep).map trim

/-- The trimmed fields of a text, sorted and joined. -/
def canonical (s : List α) : List α := [sep].intercalate ((tokens sep trim s).insertionSort r)

/-- Trimming takes nothing in and leaves nothing to trim. -/
structure Trims (trim : List α → List α) : Prop where
  mem : ∀ {a : α} {s : List α}, a ∈ trim s → a ∈ s
  idem : ∀ s, trim (trim s) = trim s

variable {sep trim}

/-- The canonical form can be read back: its fields are the sorted fields of the text. -/
theorem tokens_canonical (h : Trims trim) (s : List α) :
    tokens sep trim (canonical sep trim r s) = (tokens sep trim s).insertionSort r := by
  have hmem : ∀ l ∈ (tokens sep trim s).insertionSort r, ∃ piece ∈ s.splitOn sep, trim piece = l :=
    fun l hl => List.mem_map.1 ((List.mem_insertionSort _).1 hl)
  have hplain : ∀ l ∈ (tokens sep trim s).insertionSort r, sep ∉ l := by
    intro l hl hsep
    obtain ⟨piece, hpiece, rfl⟩ := hmem l hl
    exact notMem_of_mem_splitOn hpiece (h.mem hsep)
  have hne : (tokens sep trim s).insertionSort r ≠ [] := by
    intro hnil
    have hlen := List.length_insertionSort r (tokens sep trim s)
    rw [hnil, tokens, List.length_map] at hlen
    exact List.splitOn_ne_nil sep s (List.length_eq_zero_iff.1 hlen.symm)
  rw [tokens, canonical, List.splitOn_intercalate sep hplain hne]
  nth_rewrite 2 [← List.map_id ((tokens sep trim s).insertionSort r)]
  apply List.map_congr_left
  intro l hl
  obtain ⟨piece, -, rfl⟩ := hmem l hl
  exact h.idem piece

variable [Std.Total r] [IsTrans (List α) r] [Std.Antisymm r]

theorem canonical_eq_iff (h : Trims trim) (s t : List α) :
    canonical sep trim r s = canonical sep trim r t ↔
      (tokens sep trim s : Multiset (List α)) = (tokens sep trim t : Multiset (List α)) := by
  rw [Multiset.coe_eq_coe]
  constructor
  · intro heq
    have htokens := congrArg (tokens sep trim) heq
    rw [tokens_canonical r h, tokens_canonical r h] at htokens
    have hsorted := (List.perm_insertionSort r (tokens sep trim s)).symm
    rw [htokens] at hsorted
    exact hsorted.trans (List.perm_insertionSort _ _)
  · intro hperm
    rw [canonical, canonical, Tables.insertionSort_eq_of_perm r hperm]

theorem canonical_canonical (h : Trims trim) (s : List α) :
    canonical sep trim r (canonical sep trim r s) = canonical sep trim r s := by
  rw [canonical_eq_iff r h, tokens_canonical r h, Multiset.coe_eq_coe]
  exact List.perm_insertionSort _ _

end Canonical

end Fields
