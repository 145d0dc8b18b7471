/-
Query strings of URLs as bytes: a list of names and values is written as `name=value` pairs joined by
`&`, every byte of a name or a value that is not a letter, a digit or one of `-_.~` being escaped, and
read back from it.
-/
import Mathlib.Data.List.Basic

namespace UrlEncoding

/-! ## Escaping -/

/-- Letters, digits and `-_.~` stand for themselves. -/
def unreserved (b : UInt8) : Bool :=
  (65 ≤ b && b ≤ 90) || (97 ≤ b && b ≤ 122) || (48 ≤ b && b ≤ 57) || b == 45 || b == 95 || b == 46 || b == 126

def hexDigit (n : Nat) : UInt8 := UInt8.ofNat (if n < 10 then 48 + n else 55 + n)

/-- The value of a hexadecimal digit of either case. -/
def unhex? (b : UInt8) : Option Nat :=
  if 48 ≤ b ∧ b ≤ 57 then some (b.toNat - 48)
  else if 97 ≤ b ∧ b ≤ 102 then some (b.toNat - 87)
  else if 65 ≤ b ∧ b ≤ 70 then some (b.toNat - 55)
  else none

/-- A blank becomes `+`, any other byte that is not unreserved `%` and two digits. -/
def escapeByte (b : UInt8) : List UInt8 :=
  if unreserved b then [b]
  else if b = 32 then [43]
  else [37, hexDigit (b.toNat / 16), hexDigit (b.toNat % 16)]

def escape (bs : List UInt8) : List UInt8 := bs.flatMap escapeByte

/-- `none` when a `%` is not followed by two digits. -/
def unescape : List UInt8 → Option (List UInt8)
  | [] => some []
  | b :: bs =>
    if b = 37 then
      match bs with
      | x :: y :: bs =>
        match unhex? x, unhex? y with
        | some hi, some lo => (unescape bs).map (UInt8.ofNat (hi * 16 + lo) :: ·)
        | _, _ => none
      | _ => none
    else if b = 43 then (unescape bs).map (32 :: ·)
    else (unescape bs).map (b :: ·)

theorem unhex?_hexDigit {n : Nat} (h : n < 16) : unhex? (hexDigit n) = some n := by
  have hall : ∀ n : Fin 16, unhex? (hexDigit n) = some n.val := by decide
  exact hall ⟨n, h⟩

theorem unescape_cons_of_ne {b : UInt8} (h : b ≠ 37) : ∀ bs : List UInt8,
    unescape (b :: bs) = (unescape bs).map ((if b = 43 then 32 else b) :: ·)
  | [] => by by_cases hb : b = 43 <;> simp [unescape, h, hb]
  | [x] => by by_cases hb : b = 43 <;> simp [unescape, h, hb]
  | x :: y :: bs => by by_cases hb : b = 43 <;> simp [unescape, h, hb]

theorem unescape_escapeByte (b : UInt8) (bs : List UInt8) :
    unescape (escapeByte b ++ bs) = (unescape bs).map (b :: ·) := by
  unfold escapeByte
  split
  · rename_i hb
    have h37 : b ≠ 37 := by rintro rfl; exact absurd hb (by decide)
    have h43 : b ≠ 43 := by rintro rfl; exact absurd hb (by decide)
    rw [List.singleton_append, unescape_cons_of_ne h37, if_neg h43]
  split
  · rename_i hb
    rw [List.singleton_append, unescape_cons_of_ne (by decide), hb]
    rfl
  · -- three bytes, the last two of which are the digits of `b`
    have hlt : b.toNat < 256 := b.toNat_lt
    have hvalue : UInt8.ofNat (b.toNat / 16 * 16 + b.toNat % 16) = b := by
      rw [Nat.div_add_mod']
      exact UInt8.ofNat_toNat
    show unescape (37 :: hexDigit (b.toNat / 16) :: hexDigit (b.toNat % 16) :: bs) = _
    rw [unescape, if_pos rfl]
    simp only [unhex?_hexDigit (show b.toNat / 16 < 16 by omega), unhex?_hexDigit (show b.toNat % 16 < 16 by omega),
      hvalue]

/-- What was escaped is read back. -/
theorem unescape_escape : ∀ bs : List UInt8, unescape (escape bs) = some bs
  | [] => rfl
  | b :: bs => by
    rw [escape, List.flatMap_cons, unescape_escapeByte]
    show (unescape (escape bs)).map (b :: ·) = _
    rw [unescape_escape bs, Option.map_some]

/-- The separators of a query string. -/
def isSeparator (b : UInt8) : Bool := b == 38 || b == 59 || b == 61

theorem not_isSeparator_of_mem_escape {bs : List UInt8} {c : UInt8} (h : c ∈ escape bs) : isSeparator c = false := by
  obtain ⟨b, _, hc⟩ := List.mem_flatMap.1 h
  have hdigit : ∀ n : Nat, n < 16 → isSeparator (hexDigit n) = false := fun n hn => by
    have hall : ∀ n : Fin 16, isSeparator (hexDigit n) = false := by decide
    exact hall ⟨n, hn⟩
  unfold escapeByte at hc
  split at hc
  · rename_i hb
    rw [List.mem_singleton] at hc
    subst hc
    rw [Bool.eq_false_iff]
    intro hsep
    simp only [isSeparator, Bool.or_eq_true, beq_iff_eq] at hsep
    rcases hsep with (rfl | rfl) | rfl <;> exact absurd hb (by decide)
  split at hc
  · rw [List.mem_singleton.1 hc]
    rfl
  · have hlt : b.toNat < 256 := b.toNat_lt
    simp only [List.mem_cons, List.not_mem_nil, or_false] at hc
    rcases hc with rfl | rfl | rfl
    · rfl
    · exact hdigit _ (by omega)
    · exact hdigit _ (by omega)

/-! ## Pairs -/

def encodePair (p : List UInt8 × List UInt8) : List UInt8 := escape p.1 ++ 61 :: escape p.2

/-- `name=value&name=value`. -/
def encodePairs (ps : List (List UInt8 × List UInt8)) : List UInt8 := [38].intercalate (ps.map encodePair)

/-- One part of a query string; one that is empty, holds a semicolon or cannot be unescaped is dropped. -/
def parsePair (part : List UInt8) : Option (List UInt8 × List UInt8) :=
  if 59 ∈ part ∨ part = [] then none
  else
    let name := part.takeWhile (· != 61)
    match unescape name, unescape (part.drop (name.length + 1)) with
    | some k, some v => some (k, v)
    | _, _ => none

/-- The pairs of a query string, in order. -/
def parsePairs (query : List UInt8) : List (List UInt8 × List UInt8) := (query.splitOn 38).filterMap parsePair

theorem takeWhile_escape (bs rest : List UInt8) :
    (escape bs ++ 61 :: rest).takeWhile (· != 61) = escape bs := by
  rw [List.takeWhile_append_of_pos]
  · simp
  · intro c hc
    have hsep := not_isSeparator_of_mem_escape hc
    simp only [isSeparator, Bool.or_eq_false_iff] at hsep
    simp [bne, hsep.2]

theorem mem_encodePair {p : List UInt8 × List UInt8} {c : UInt8} (h : c ∈ encodePair p) :
    c = 61 ∨ isSeparator c = false := by
  rcases List.mem_append.1 h with h | h
  · exact .inr (not_isSeparator_of_mem_escape h)
  rcases List.mem_cons.1 h with h | h
  · exact .inl h
  · exact .inr (not_isSeparator_of_mem_escape h)

theorem parsePair_encodePair (p : List UInt8 × List UInt8) : parsePair (encodePair p) = some p := by
  have hplain : ¬(59 ∈ encodePair p ∨ encodePair p = []) := by
    rintro (hmem | hnil)
    · exact absurd (mem_encodePair hmem) (by decide)
    · simp [encodePair] at hnil
  have hdrop : (encodePair p).drop ((escape p.1).length + 1) = escape p.2 := by
    rw [encodePair, List.drop_append, List.drop_of_length_le (by omega)]
    simp
  unfold parsePair
  rw [if_neg hplain]
  dsimp only
  rw [encodePair, takeWhile_escape, ← encodePair, hdrop, unescape_escape, unescape_escape]

/-- The pairs written are read back. -/
theorem parsePairs_encodePairs (ps : List (List UInt8 × List UInt8)) : parsePairs (encodePairs ps) = ps := by
  unfold parsePairs encodePairs
  cases ps with
  | nil => rfl
  | cons p ps =>
    rw [List.splitOn_intercalate 38 ?_ (by simp)]
    · rw [List.filterMap_map]
      have hparse : parsePair ∘ encodePair = some := funext parsePair_encodePair
      rw [hparse, List.filterMap_some]
    · intro l hl
      obtain ⟨q, _, rfl⟩ := List.mem_map.1 hl
      exact fun hmem => absurd (mem_encodePair hmem) (by decide)

end UrlEncoding
