/-
Leading comments of a query (`skipLeadingComments` and `canCacheQuery` in `utils.go`) against the grammar of SQL
comments. The scan takes the star that opens a block comment for one that may close it, so `/*/` is a whole
comment to it; apart from that it follows the grammar.
-/
import Chproxy.Utils.QueryText
import Mathlib.Data.List.Infix

namespace Chproxy.Utils

/-! ## The grammar -/

def IsWhitespace (b : UInt8) : Prop := b = 9 ∨ b = 10 ∨ b = 11 ∨ b = 12 ∨ b = 13 ∨ b = 32

inductive Comment
  | whitespace (b : UInt8)
  | line (text : Bytes)
  | block (text : Bytes)

namespace Comment

/-- A line comment ends with the first LF and a block comment with the first `*/` after its opening. -/
def WellFormed : Comment → Prop
  | whitespace b => IsWhitespace b
  | line text => 10 ∉ text
  | block text => ¬[42, 47] <:+: text

def bytes : Comment → Bytes
  | whitespace b => [b]
  | line text => 45 :: 45 :: (text ++ [10])
  | block text => 47 :: 42 :: (text ++ [42, 47])

theorem line_append (text q : Bytes) : (line text).bytes ++ q = 45 :: 45 :: (text ++ 10 :: q) := by simp [bytes]

theorem block_append (text q : Bytes) : (block text).bytes ++ q = 47 :: 42 :: (text ++ 42 :: 47 :: q) := by simp [bytes]

end Comment

/-- A sequence of comments. -/
inductive IsComments : Bytes → Prop
  | nil : IsComments []
  | append {c : Comment} {p : Bytes} : c.WellFormed → IsComments p → IsComments (c.bytes ++ p)

/-- The longest sequence of comments with which `q` begins. -/
structure Longest (p q : Bytes) : Prop where
  isPrefix : p <+: q
  isComments : IsComments p
  longest : ∀ p', p' <+: q → IsComments p' → p'.length ≤ p.length

/-- A comment without an end. -/
def Unterminated (u : Bytes) : Prop :=
  (∃ text, u = 45 :: 45 :: text ∧ 10 ∉ text) ∨ ∃ text, u = 47 :: 42 :: text ∧ ¬[42, 47] <:+: text

/-- What the grammar leaves of a query. -/
def Remainder (q r : Bytes) : Prop :=
  ∃ p u, q = p ++ u ∧ Longest p q ∧ (Unterminated u ∧ r = [] ∨ ¬Unterminated u ∧ r = u)

/-- The text starts with a statement that can be cached, in any case. -/
def StartsStatement (r : Bytes) : Prop := ∃ s ∈ cachableStatements, ∃ w rest, r = w ++ rest ∧ w.map toUpper = s

/-- The comments are skipped by the grammar, and what it leaves decides on caching. -/
structure FollowsGrammar (q : Bytes) : Prop where
  skips : Remainder q (skipLeadingComments q)
  caches : ∀ r, Remainder q r → (canCacheQuery q = true ↔ StartsStatement r)

/-! ## The first end of a comment -/

theorem afterByte_append {b : UInt8} {p : Bytes} (h : b ∉ p) (q : Bytes) : afterByte b (p ++ b :: q) = some q := by
  induction p with
  | nil => simp [afterByte]
  | cons x p ih =>
    rw [List.mem_cons, not_or] at h
    rw [List.cons_append, afterByte, if_neg (Ne.symm h.1)]
    exact ih h.2

theorem afterByte_eq_none {b : UInt8} {q : Bytes} (h : b ∉ q) : afterByte b q = none := by
  induction q with
  | nil => rfl
  | cons x q ih =>
    rw [List.mem_cons, not_or] at h
    rw [afterByte, if_neg (Ne.symm h.1)]
    exact ih h.2

/-- A word that occurs in a text occurs there for a first time. -/
theorem exists_first_infix {w q : Bytes} (hw : w ≠ []) (h : w <:+: q) : ∃ p r, q = p ++ (w ++ r) ∧ ¬w <:+: p := by
  induction q with
  | nil => exact absurd (List.infix_nil.1 h) hw
  | cons x q ih =>
    by_cases hhere : w <+: x :: q
    · obtain ⟨r, hr⟩ := hhere
      exact ⟨[], r, hr.symm, fun hnil => hw (List.infix_nil.1 hnil)⟩
    · obtain ⟨p, r, rfl, hp⟩ := ih ((List.infix_cons_iff.1 h).resolve_left hhere)
      refine ⟨x :: p, r, rfl, fun hcontains => ?_⟩
      rcases List.infix_cons_iff.1 hcontains with hstart | hlater
      · exact hhere (hstart.trans (List.prefix_append (x :: p) (w ++ r)))
      · exact hp hlater

/-- The first `*/` ends the search. -/
theorem afterBlockComment_append {text : Bytes} (htext : ¬[42, 47] <:+: text) (q : Bytes) {fuel : Nat}
    (hfuel : text.length < fuel) : afterBlockComment fuel (text ++ 42 :: 47 :: q) = some q := by
  induction fuel generalizing text with
  | zero => omega
  | succ fuel ih =>
    by_cases hstar : 42 ∈ text
    · -- the star found is part of the text, and what follows it is not a slash
      obtain ⟨p, text', rfl, hp⟩ := List.eq_append_cons_of_mem hstar
      have hcontains : ¬[42, 47] <:+: text' := fun h => htext (h.trans ⟨p ++ [42], [], by simp⟩)
      have hlen : text'.length < fuel := by
        simp only [List.length_append, List.length_cons] at hfuel
        omega
      have hbyte : afterByte 42 ((p ++ 42 :: text') ++ 42 :: 47 :: q) = some (text' ++ 42 :: 47 :: q) := by
        rw [List.append_assoc, List.cons_append, afterByte_append hp]
      rw [afterBlockComment, hbyte]
      cases text' with
      | nil => exact ih hcontains hlen
      | cons x text' =>
        have hx : x ≠ 47 := fun hx => htext ⟨p, text', by rw [hx]; simp⟩
        simp only [List.cons_append, if_neg hx]
        exact ih hcontains hlen
    · rw [afterBlockComment, afterByte_append hstar]
      simp

theorem afterBlockComment_eq_none {q : Bytes} (h : ¬[42, 47] <:+: q) (fuel : Nat) :
    afterBlockComment fuel q = none := by
  induction fuel generalizing q with
  | zero => rfl
  | succ fuel ih =>
    by_cases hstar : 42 ∈ q
    · obtain ⟨p, r, rfl, hp⟩ := List.eq_append_cons_of_mem hstar
      rw [afterBlockComment, afterByte_append hp]
      cases r with
      | nil => rfl
      | cons x r =>
        have hx : x ≠ 47 := fun hx => h ⟨p, r, by rw [hx]; simp⟩
        simp only [if_neg hx]
        exact ih fun hcontains => h (hcontains.trans ⟨p ++ [42], [], by simp⟩)
    · rw [afterBlockComment, afterByte_eq_none hstar]

theorem length_of_afterByte {b : UInt8} {q r : Bytes} (h : afterByte b q = some r) : r.length < q.length := by
  by_cases hb : b ∈ q
  · obtain ⟨p, r', rfl, hp⟩ := List.eq_append_cons_of_mem hb
    rw [afterByte_append hp] at h
    cases h
    simp only [List.length_append, List.length_cons]
    omega
  · rw [afterByte_eq_none hb] at h
    cases h

theorem length_of_afterBlockComment {fuel : Nat} {q r : Bytes} (h : afterBlockComment fuel q = some r) :
    r.length < q.length := by
  -- each star that no slash follows is passed over
  induction fuel generalizing q with
  | zero => cases h
  | succ fuel ih =>
    rw [afterBlockComment] at h
    cases hbyte : afterByte 42 q with
    | none =>
      rw [hbyte] at h
      cases h
    | some q' =>
      have hlt := length_of_afterByte hbyte
      rw [hbyte] at h
      cases q' with
      | nil => cases h
      | cons x q' =>
        simp only at h
        split at h
        · cases h
          exact Nat.lt_trans (Nat.lt_succ_self _) hlt
        · exact Nat.lt_trans (ih h) hlt

/-! ## The scan -/

/-- Once there is fuel for every byte, more makes no difference. -/
theorem skipLeadingCommentsLoop_fuel {fuel fuel' : Nat} {q : Bytes} (h : q.length ≤ fuel) (h' : q.length ≤ fuel') :
    skipLeadingCommentsLoop fuel q = skipLeadingCommentsLoop fuel' q := by
  induction fuel generalizing fuel' q with
  | zero =>
    rw [List.length_eq_zero_iff.1 (Nat.le_zero.1 h)]
    cases fuel' <;> rfl
  | succ fuel ih =>
    cases q with
    | nil => cases fuel' <;> rfl
    | cons x q =>
      cases fuel' with
      | zero => cases h'
      | succ fuel' =>
        rw [List.length_cons] at h h'
        -- each branch goes on with a shorter query, for which both fuels are still enough
        have hrec : ∀ r : Bytes, r.length < (x :: q).length →
            skipLeadingCommentsLoop fuel r = skipLeadingCommentsLoop fuel' r := fun r hr => by
          rw [List.length_cons] at hr
          exact ih (by omega) (by omega)
        rw [skipLeadingCommentsLoop, skipLeadingCommentsLoop, hrec q (Nat.lt_succ_self _)]
        cases hline : afterByte 10 (x :: q) with
        | none =>
          cases hblock : afterBlockComment (x :: q).length (x :: q) with
          | none => rfl
          | some r => simp only [hrec r (length_of_afterBlockComment hblock)]
        | some r =>
          cases hblock : afterBlockComment (x :: q).length (x :: q) with
          | none => simp only [hrec r (length_of_afterByte hline)]
          | some r' => simp only [hrec r (length_of_afterByte hline), hrec r' (length_of_afterBlockComment hblock)]

theorem skip_whitespace {b : UInt8} (h : IsWhitespace b) (q : Bytes) :
    skipLeadingComments (b :: q) = skipLeadingComments q := by
  unfold IsWhitespace at h
  rw [skipLeadingComments, List.length_cons, skipLeadingCommentsLoop, if_pos h]
  rfl

/-- The scan goes on behind the end of a comment, or is over when there is none. -/
theorem skip_found {fuel : Nat} {found : Option Bytes} : (∀ r, found = some r → r.length ≤ fuel) →
    (match found with
      | none => []
      | some r => skipLeadingCommentsLoop fuel r) = (found.map skipLeadingComments).getD [] := by
  intro h
  cases found with
  | none => rfl
  | some r => exact skipLeadingCommentsLoop_fuel (h r rfl) (Nat.le_refl _)

/-- A line is skipped up to what follows its end, if it has one. -/
theorem skip_line (q : Bytes) :
    skipLeadingComments (45 :: 45 :: q) = ((afterByte 10 q).map skipLeadingComments).getD [] := by
  have hbyte : afterByte 10 (45 :: 45 :: q) = afterByte 10 q := rfl
  rw [skipLeadingComments, List.length_cons, skipLeadingCommentsLoop, if_neg (by decide), if_pos rfl,
    if_neg (by simp), hbyte]
  refine skip_found fun r hr => ?_
  have hlen := length_of_afterByte hr
  rw [List.length_cons]
  omega

/-- The end of a block comment is searched from its first star on. -/
theorem skip_block (q : Bytes) :
    skipLeadingComments (47 :: 42 :: q) =
      ((afterBlockComment (47 :: 42 :: q).length (47 :: 42 :: q)).map skipLeadingComments).getD [] := by
  rw [skipLeadingComments, List.length_cons, skipLeadingCommentsLoop, if_neg (by decide), if_neg (by decide),
    if_pos rfl, if_neg (by simp), ← List.length_cons]
  exact skip_found fun r hr => Nat.le_of_lt_succ (length_of_afterBlockComment hr)

/-- No comment starts here. -/
def Bare (q : Bytes) : Prop := (∀ b, q.head? = some b → ¬IsWhitespace b) ∧ ¬[45, 45] <+: q ∧ ¬[47, 42] <+: q

theorem skip_bare {q : Bytes} (h : Bare q) : skipLeadingComments q = q := by
  obtain ⟨hwhite, hline, hblock⟩ := h
  cases q with
  | nil => rfl
  | cons x q =>
    have hx := hwhite x rfl
    unfold IsWhitespace at hx
    rw [skipLeadingComments, List.length_cons, skipLeadingCommentsLoop, if_neg hx]
    by_cases h45 : x = 45
    · rw [if_pos h45, if_pos]
      intro hhead
      obtain ⟨q', rfl⟩ := List.head?_eq_some_iff.1 hhead
      exact hline ⟨q', by rw [h45]; rfl⟩
    · rw [if_neg h45]
      by_cases h47 : x = 47
      · rw [if_pos h47, if_pos]
        intro hhead
        obtain ⟨q', rfl⟩ := List.head?_eq_some_iff.1 hhead
        exact hblock ⟨q', by rw [h47]; rfl⟩
      · rw [if_neg h47]

/-- The search for the end of a block comment, when its text does not begin with a slash. -/
theorem infix_of_opening {text : Bytes} (hslash : text.head? ≠ some 47) (h : [42, 47] <:+: 47 :: 42 :: text) :
    [42, 47] <:+: text := by
  rcases List.infix_cons_iff.1 h with hhere | h
  · simp at hhere
  rcases List.infix_cons_iff.1 h with hhere | h
  · obtain ⟨r, hr⟩ := hhere
    rw [List.cons_append, List.cons_append, List.nil_append] at hr
    refine absurd ?_ hslash
    rw [← (List.cons.inj hr).2]
    rfl
  · exact h

/-- The comments that the scan takes as the grammar does. -/
def Comment.Slashed : Comment → Prop
  | block text => text.head? = some 47
  | _ => False

theorem skip_comment {c : Comment} (hc : c.WellFormed) (hslash : ¬c.Slashed) (q : Bytes) :
    skipLeadingComments (c.bytes ++ q) = skipLeadingComments q := by
  cases c with
  | whitespace b => exact skip_whitespace hc q
  | line text =>
    rw [Comment.line_append, skip_line, afterByte_append hc]
    rfl
  | block text =>
    have hopening : ¬[42, 47] <:+: 47 :: 42 :: text := fun h => hc (infix_of_opening hslash h)
    have hsearch : afterBlockComment (47 :: 42 :: (text ++ 42 :: 47 :: q)).length
        (47 :: 42 :: (text ++ 42 :: 47 :: q)) = some q := afterBlockComment_append hopening q (by simp)
    rw [Comment.block_append, skip_block, hsearch]
    rfl

/-- The opening of a block comment and a slash are a whole comment to the scan. -/
theorem skip_slashed (q : Bytes) : skipLeadingComments (47 :: 42 :: 47 :: q) = skipLeadingComments q := by
  rw [skip_block]
  rfl

theorem skip_unterminated {u : Bytes} (h : Unterminated u) (hslash : ¬[47, 42, 47] <+: u) :
    skipLeadingComments u = [] := by
  rcases h with ⟨text, rfl, htext⟩ | ⟨text, rfl, htext⟩
  · rw [skip_line, afterByte_eq_none htext]
    rfl
  · have hhead : text.head? ≠ some 47 := fun hhead => by
      obtain ⟨text', rfl⟩ := List.head?_eq_some_iff.1 hhead
      exact hslash ⟨text', rfl⟩
    rw [skip_block, afterBlockComment_eq_none fun h => htext (infix_of_opening hhead h)]
    rfl

/-! ## Reading by the grammar -/

/-- Each text begins with no comment, with one that has no end, or with one. -/
theorem bare_or_comment (q : Bytes) :
    Bare q ∨ Unterminated q ∨ ∃ c : Comment, c.WellFormed ∧ ∃ r, q = c.bytes ++ r := by
  by_cases hwhite : ∃ b, q.head? = some b ∧ IsWhitespace b
  · obtain ⟨b, hb, hwhite⟩ := hwhite
    obtain ⟨r, rfl⟩ := List.head?_eq_some_iff.1 hb
    exact .inr (.inr ⟨.whitespace b, hwhite, r, rfl⟩)
  by_cases hline : [45, 45] <+: q
  · obtain ⟨q, rfl⟩ := hline
    by_cases hend : 10 ∈ q
    · obtain ⟨text, r, rfl, htext⟩ := List.eq_append_cons_of_mem hend
      exact .inr (.inr ⟨.line text, htext, r, (Comment.line_append text r).symm⟩)
    · exact .inr (.inl (.inl ⟨q, rfl, hend⟩))
  by_cases hblock : [47, 42] <+: q
  · obtain ⟨q, rfl⟩ := hblock
    by_cases hend : [42, 47] <:+: q
    · obtain ⟨text, r, rfl, htext⟩ := exists_first_infix (by simp) hend
      exact .inr (.inr ⟨.block text, htext, r, (Comment.block_append text r).symm⟩)
    · exact .inr (.inl (.inr ⟨q, rfl, hend⟩))
  · exact .inl ⟨fun b hb hb' => hwhite ⟨b, hb, hb'⟩, hline, hblock⟩

theorem Comment.not_bare {c : Comment} (hc : c.WellFormed) (r : Bytes) : ¬Bare (c.bytes ++ r) := by
  rintro ⟨hwhite, hline, hblock⟩
  cases c with
  | whitespace b => exact hwhite b rfl hc
  | line text => exact hline ⟨text ++ [10] ++ r, rfl⟩
  | block text => exact hblock ⟨text ++ [42, 47] ++ r, rfl⟩

/-- What follows the comment with which a text begins. -/
def afterComment : Bytes → Option Bytes
  | 45 :: 45 :: q => afterByte 10 q
  | 47 :: 42 :: q => afterBlockComment q.length q
  | _ :: q => some q
  | [] => none

theorem Comment.afterComment_bytes {c : Comment} (hc : c.WellFormed) (r : Bytes) :
    afterComment (c.bytes ++ r) = some r := by
  cases c with
  | whitespace b => rcases hc with rfl | rfl | rfl | rfl | rfl | rfl <;> rfl
  | line text =>
    rw [Comment.line_append]
    exact afterByte_append hc r
  | block text =>
    rw [Comment.block_append]
    exact afterBlockComment_append hc r (by simp)

/-- A text begins with one comment at most. -/
theorem Comment.rest_unique {c c' : Comment} (hc : c.WellFormed) (hc' : c'.WellFormed) {r r' : Bytes}
    (h : c.bytes ++ r = c'.bytes ++ r') : r = r' := by
  have hrest := Comment.afterComment_bytes hc r
  rw [h, Comment.afterComment_bytes hc' r'] at hrest
  exact (Option.some.inj hrest).symm

theorem afterComment_unterminated {u : Bytes} (h : Unterminated u) : afterComment u = none := by
  rcases h with ⟨text, rfl, htext⟩ | ⟨text, rfl, htext⟩
  · exact afterByte_eq_none htext
  · exact afterBlockComment_eq_none htext _

theorem Comment.not_unterminated {c : Comment} (hc : c.WellFormed) (r : Bytes) : ¬Unterminated (c.bytes ++ r) := by
  intro h
  have hrest := Comment.afterComment_bytes hc r
  rw [afterComment_unterminated h] at hrest
  cases hrest

theorem Comment.bytes_ne_nil (c : Comment) : c.bytes ≠ [] := by
  cases c <;> simp [bytes]

/-! ## Sequences of comments -/

/-- After the comments there is none. -/
def Ended (u : Bytes) : Prop := Bare u ∨ Unterminated u

theorem exists_comments (q : Bytes) : ∃ p u, q = p ++ u ∧ IsComments p ∧ Ended u := by
  induction hn : q.length using Nat.strong_induction_on generalizing q with
  | _ n ih =>
    rcases bare_or_comment q with hbare | hopen | ⟨c, hc, r, rfl⟩
    · exact ⟨[], q, rfl, .nil, .inl hbare⟩
    · exact ⟨[], q, rfl, .nil, .inr hopen⟩
    · have hpos := List.length_pos_iff.2 c.bytes_ne_nil
      rw [List.length_append] at hn
      obtain ⟨p, u, rfl, hp, hu⟩ := ih r.length (by omega) r rfl
      exact ⟨c.bytes ++ p, u, by rw [List.append_assoc], IsComments.append hc hp, hu⟩

theorem Comment.not_ended {c : Comment} (hc : c.WellFormed) (r : Bytes) : ¬Ended (c.bytes ++ r) := by
  rintro (hbare | hopen)
  · exact Comment.not_bare hc r hbare
  · exact Comment.not_unterminated hc r hopen

/-- No other sequence of comments goes further than one after which there is none. -/
theorem isComments_append_of_ended {p p' u u' : Bytes} (hp : IsComments p) (hu : Ended u) (hp' : IsComments p')
    (h : p ++ u = p' ++ u') : ∃ s, IsComments s ∧ p = p' ++ s ∧ u' = s ++ u := by
  induction hp' generalizing p with
  | nil => exact ⟨p, hp, rfl, by rw [h]; rfl⟩
  | append hc' _ ih =>
    cases hp with
    | nil =>
      refine absurd hu ?_
      rw [show u = _ from h, List.append_assoc]
      exact Comment.not_ended hc' _
    | append hc hp =>
      rw [List.append_assoc, List.append_assoc] at h
      have hrest := Comment.rest_unique hc hc' h
      rw [hrest] at h
      obtain ⟨s, hs, rfl, rfl⟩ := ih hp hrest
      refine ⟨s, hs, ?_, rfl⟩
      rw [List.append_cancel_right h, List.append_assoc]

/-- The sequence after which there is no comment is the longest. -/
theorem longest_of_ended {p u : Bytes} (hp : IsComments p) (hu : Ended u) : Longest p (p ++ u) := by
  refine ⟨List.prefix_append _ _, hp, fun p' hprefix hp' => ?_⟩
  obtain ⟨u', hu'⟩ := hprefix
  obtain ⟨s, -, rfl, -⟩ := isComments_append_of_ended hp hu hp' hu'.symm
  rw [List.length_append]
  omega

theorem Longest.unique {p p' q : Bytes} (h : Longest p q) (h' : Longest p' q) : p = p' := by
  have hlen := Nat.le_antisymm (h'.longest p h.isPrefix h.isComments) (h.longest p' h'.isPrefix h'.isComments)
  exact (List.prefix_of_prefix_length_le h.isPrefix h'.isPrefix (Nat.le_of_eq hlen)).eq_of_length hlen

theorem Remainder.unique {q r r' : Bytes} (h : Remainder q r) (h' : Remainder q r') : r = r' := by
  obtain ⟨p, u, rfl, hlong, hr⟩ := h
  obtain ⟨p', u', hq, hlong', hr'⟩ := h'
  obtain rfl := hlong.unique hlong'
  obtain rfl := List.append_cancel_left hq
  rcases hr with ⟨hu, rfl⟩ | ⟨hu, rfl⟩ <;> rcases hr' with ⟨hu', rfl⟩ | ⟨hu', rfl⟩
  · rfl
  · exact absurd hu hu'
  · exact absurd hu' hu
  · rfl

/-! ## Caching -/

theorem canCacheQuery_iff (q : Bytes) : canCacheQuery q = true ↔ StartsStatement (skipLeadingComments q) := by
  unfold canCacheQuery StartsStatement
  generalize skipLeadingComments q = r
  rw [List.any_eq_true]
  refine exists_congr fun s => and_congr_right fun _ => ?_
  constructor
  · intro h
    split at h
    · cases h
    rename_i hlen
    refine ⟨r.take s.length, r.drop s.length, (List.take_append_drop _ _).symm, ?_⟩
    have hstart := List.isPrefixOf_iff_prefix.1 h
    refine (hstart.eq_of_length ?_).symm
    rw [List.length_map, List.length_take]
    omega
  · rintro ⟨w, rest, rfl, rfl⟩
    rw [if_neg (by simp), List.length_map, List.take_left]
    exact List.isPrefixOf_iff_prefix.2 (List.prefix_refl _)

/-! ## The scan and the grammar -/

/-- The opening of a block comment and a slash. -/
def slashed : Bytes := [47, 42, 47]

/-- The grammar comes to a block comment with a slash after its opening, with `p` before it and `t` behind the
slash. -/
structure MeetsSlashed (q p t : Bytes) : Prop where
  here : q = p ++ (slashed ++ t)
  isComments : IsComments p

/-- It comes to none. -/
def Plain (q : Bytes) : Prop := ∀ p t, ¬MeetsSlashed q p t

theorem Comment.slashed_append {c : Comment} (h : c.Slashed) : ∃ t, c.bytes = slashed ++ t := by
  cases c with
  | whitespace b => cases h
  | line text => cases h
  | block text =>
    obtain ⟨text, rfl⟩ := List.head?_eq_some_iff.1 h
    exact ⟨text ++ [42, 47], rfl⟩

/-- The scan goes over the comments before the first of these. -/
theorem skip_append {p u : Bytes} (hp : IsComments p)
    (hfirst : ∀ p' t, MeetsSlashed (p ++ u) p' t → p.length ≤ p'.length) :
    skipLeadingComments (p ++ u) = skipLeadingComments u := by
  induction hp with
  | nil => rfl
  | @append c p hc hp ih =>
    have hslash : ¬c.Slashed := fun hslash => by
      obtain ⟨t, ht⟩ := Comment.slashed_append hslash
      have hle := hfirst [] (t ++ (p ++ u)) ⟨by rw [ht]; simp, .nil⟩
      have hpos := List.length_pos_iff.2 c.bytes_ne_nil
      rw [List.length_append, List.length_nil] at hle
      omega
    rw [List.append_assoc, skip_comment hc hslash]
    refine ih fun p' t hmeets => ?_
    have hle := hfirst (c.bytes ++ p') t ⟨by rw [List.append_assoc, hmeets.here, List.append_assoc],
      IsComments.append hc hmeets.isComments⟩
    rw [List.length_append, List.length_append] at hle
    omega

/-- Without such comments the scan leaves what the grammar leaves. -/
theorem remainder_of_plain {q : Bytes} (h : Plain q) : Remainder q (skipLeadingComments q) := by
  obtain ⟨p, u, rfl, hp, hu⟩ := exists_comments q
  rw [skip_append hp fun p' t hmeets => absurd hmeets (h p' t)]
  refine ⟨p, u, rfl, longest_of_ended hp hu, ?_⟩
  by_cases hopen : Unterminated u
  · refine .inl ⟨hopen, skip_unterminated hopen ?_⟩
    rintro ⟨t, rfl⟩
    exact h p t ⟨rfl, hp⟩
  · exact .inr ⟨hopen, skip_bare (hu.resolve_right hopen)⟩

theorem skip_whitespaces {w : Bytes} (hw : ∀ b ∈ w, IsWhitespace b) (q : Bytes) :
    skipLeadingComments (w ++ q) = skipLeadingComments q := by
  induction w with
  | nil => rfl
  | cons b w ih =>
    rw [List.cons_append, skip_whitespace (hw b List.mem_cons_self)]
    exact ih fun b' hb' => hw b' (List.mem_cons_of_mem b hb')

/-- The opening, the slash and white space after them are no comments: the comment is still open. -/
theorem not_isComments_slashed {w : Bytes} (hw : ∀ b ∈ w, IsWhitespace b) : ¬IsComments (slashed ++ w) := by
  have hopen : Unterminated (slashed ++ w) := by
    refine .inr ⟨47 :: w, rfl, fun hcontains => ?_⟩
    rcases List.mem_cons.1 (hcontains.subset List.mem_cons_self) with hstar | hstar
    · exact absurd hstar (by decide)
    · exact absurd (hw 42 hstar) (by unfold IsWhitespace; decide)
  intro h
  generalize slashed ++ w = q at h hopen
  cases h with
  | nil => rcases hopen with ⟨text, h, -⟩ | ⟨text, h, -⟩ <;> cases h
  | append hc hp => exact Comment.not_unterminated hc _ hopen

/-- The scan stops at the text behind the slash, where the grammar is still within the comment. -/
theorem not_remainder_of_slashed {q p w t : Bytes} (hmeets : MeetsSlashed q p (w ++ t))
    (hfirst : ∀ p' t', MeetsSlashed q p' t' → p.length ≤ p'.length) (hw : ∀ b ∈ w, IsWhitespace b) (ht : Bare t)
    (hne : t ≠ []) : ¬Remainder q (skipLeadingComments q) := by
  obtain ⟨rfl, hp⟩ := hmeets
  have hskip : skipLeadingComments (p ++ (slashed ++ (w ++ t))) = t := by
    rw [skip_append hp hfirst]
    exact (skip_slashed _).trans ((skip_whitespaces hw t).trans (skip_bare ht))
  rw [hskip]
  rintro ⟨p', u, hq, hlong, ⟨-, rfl⟩ | ⟨-, rfl⟩⟩
  · exact hne rfl
  · -- then the opening, the slash and the white space would be comments
    have hall : p ++ (slashed ++ w) ++ t = p' ++ t := by
      rw [← hq]
      simp
    have hp' := List.append_cancel_right hall
    obtain ⟨s, hs, hsplit, -⟩ := isComments_append_of_ended hlong.isComments (.inl ht) hp hq.symm
    rw [← hp'] at hsplit
    exact not_isComments_slashed hw (List.append_cancel_left hsplit ▸ hs)

/-- Comments are skipped by the grammar as long as no block comment to which it comes has a slash right after its
opening. If one has, and the next thing behind the slash is a text, they are not. -/
theorem comments_follow_grammar (q : Bytes) :
    (Plain q → FollowsGrammar q) ∧
    ∀ p w t, MeetsSlashed q p (w ++ t) → (∀ p' t', MeetsSlashed q p' t' → p.length ≤ p'.length) →
      (∀ b ∈ w, IsWhitespace b) → Bare t → t ≠ [] → ¬FollowsGrammar q := by
  constructor
  · intro h
    have hskips := remainder_of_plain h
    refine ⟨hskips, fun r hr => ?_⟩
    rw [hr.unique hskips]
    exact canCacheQuery_iff q
  · intro p w t hmeets hfirst hw ht hne h
    exact not_remainder_of_slashed hmeets hfirst hw ht hne h.skips

/-- A text in which a slash never follows an opening. -/
theorem plain_of_absent {q : Bytes} (h : ¬slashed <:+: q) : Plain q :=
  fun p t hmeets => h ⟨p, t, by rw [hmeets.here, List.append_assoc]⟩

theorem comments_follow_grammar_select : FollowsGrammar (bytes "/* a */ -- b\nselect 1") :=
  (comments_follow_grammar _).1 (plain_of_absent (by decide))

/-- A text that begins with a letter. -/
theorem bare_of_letter {b : UInt8} (hb : 65 ≤ b) (q : Bytes) : Bare (b :: q) := by
  refine ⟨fun b' hb' => ?_, fun h => ?_, fun h => ?_⟩
  · cases hb'
    rintro (rfl | rfl | rfl | rfl | rfl | rfl) <;> exact absurd hb (by decide)
  · obtain ⟨t, ht⟩ := h
    exact absurd ((List.cons.inj ht).1 ▸ hb) (by decide)
  · obtain ⟨t, ht⟩ := h
    exact absurd ((List.cons.inj ht).1 ▸ hb) (by decide)

/-- An `INSERT` behind a comment. -/
def insertQuery : Bytes := bytes "/*/SELECT*/INSERT"

/-- It is taken for a `SELECT`, and may be answered from the cache. -/
theorem insert_cached :
    canCacheQuery insertQuery = true ∧ Remainder insertQuery (bytes "INSERT") ∧ ¬FollowsGrammar insertQuery := by
  refine ⟨by decide, ?_, fun h => ?_⟩
  · have hcomments : IsComments (bytes "/*/SELECT*/") :=
      IsComments.append (c := .block (bytes "/SELECT")) (by unfold Comment.WellFormed; decide) .nil
    have hended : Ended (bytes "INSERT") := .inl (bare_of_letter (by decide) _)
    refine ⟨bytes "/*/SELECT*/", bytes "INSERT", rfl, longest_of_ended hcomments hended, .inr ⟨?_, rfl⟩⟩
    rintro (⟨text, h, -⟩ | ⟨text, h, -⟩)
    · exact absurd (List.cons.inj h).1 (by decide)
    · exact absurd (List.cons.inj h).1 (by decide)
  · exact not_remainder_of_slashed (p := []) (w := []) (t := bytes "SELECT*/INSERT") ⟨rfl, .nil⟩
      (fun _ _ _ => Nat.zero_le _) (by simp) (bare_of_letter (by decide) _) (by decide) h.skips

end Chproxy.Utils
