/-
Texts formatted with the verbs `%d` and `%q`. A quoted literal ends at its own closing quote and a number
before the first byte that belongs to none, so a format that puts such a byte behind every number is
injective in its arguments.
-/
import Chproxy.Lib.Decimal
import Chproxy.Lib.Tables

namespace Format

/-! ## Quoted literals -/

/-- The inside of a quoted literal: a double quote stands only behind a backslash, and a backslash only
before the byte that it escapes. -/
inductive Escaped : List UInt8 → Prop
  | nil : Escaped []
  | plain {b : UInt8} {s : List UInt8} : b ≠ 34 → b ≠ 92 → Escaped s → Escaped (b :: s)
  | escape {b : UInt8} {s : List UInt8} : Escaped s → Escaped (92 :: b :: s)

/-- The closing quote is the first one that is not escaped. -/
theorem Escaped.cut {s s' r r' : List UInt8} (h : Escaped s) (h' : Escaped s') (heq : s ++ 34 :: r = s' ++ 34 :: r') :
    s = s' ∧ r = r' := by
  -- the escapes are read off from the left, so that both texts take the same step
  induction h generalizing s' with
  | nil =>
    cases h' with
    | nil => exact ⟨rfl, (List.cons.inj heq).2⟩
    | plain hquote _ _ => exact absurd (List.cons.inj heq).1.symm hquote
    | escape _ => exact absurd (List.cons.inj heq).1 (by decide)
  | plain hquote hslash _ ih =>
    cases h' with
    | nil => exact absurd (List.cons.inj heq).1 hquote
    | plain _ _ hs' =>
      obtain ⟨hb, htail⟩ := List.cons.inj heq
      obtain ⟨rfl, rfl⟩ := ih hs' htail
      exact ⟨by rw [hb], rfl⟩
    | escape _ => exact absurd (List.cons.inj heq).1 hslash
  | escape _ ih =>
    cases h' with
    | nil => exact absurd (List.cons.inj heq).1 (by decide)
    | plain _ hslash _ => exact absurd (List.cons.inj heq).1.symm hslash
    | escape hs' =>
      obtain ⟨hb, htail⟩ := List.cons.inj (List.cons.inj heq).2
      obtain ⟨rfl, rfl⟩ := ih hs' htail
      exact ⟨by rw [hb], rfl⟩

/-- A way of quoting: different texts have different literals, properly escaped. -/
structure Quoting where
  inner : List UInt8 → List UInt8
  escaped : ∀ s, Escaped (inner s)
  injective : Function.Injective inner

def Quoting.quote (q : Quoting) (s : List UInt8) : List UInt8 := 34 :: (q.inner s ++ [34])

theorem Quoting.cut (q : Quoting) {s s' r r' : List UInt8} (h : q.quote s ++ r = q.quote s' ++ r') :
    s = s' ∧ r = r' := by
  simp only [quote, List.cons_append, List.append_assoc, List.nil_append, List.cons.injEq, true_and] at h
  obtain ⟨hinner, htail⟩ := (q.escaped s).cut (q.escaped s') h
  exact ⟨q.injective hinner, htail⟩

/-- A backslash before every quote and every backslash. -/
def slashes : List UInt8 → List UInt8
  | [] => []
  | b :: s => if b = 34 ∨ b = 92 then 92 :: b :: slashes s else b :: slashes s

theorem escaped_slashes : ∀ s, Escaped (slashes s)
  | [] => .nil
  | b :: s => by
    unfold slashes
    split
    · exact .escape (escaped_slashes s)
    · rename_i h
      exact .plain (fun hb => h (.inl hb)) (fun hb => h (.inr hb)) (escaped_slashes s)

theorem slashes_injective : Function.Injective slashes := by
  intro s
  induction s with
  | nil =>
    rintro (_ | ⟨b, s'⟩) h
    · rfl
    · unfold slashes at h
      split at h <;> cases h
  | cons a s ih =>
    rintro (_ | ⟨b, s'⟩) h
    · unfold slashes at h
      split at h <;> cases h
    · unfold slashes at h
      -- a backslash in front is that of an escape in both texts, or in neither
      split at h <;> split at h
      · obtain ⟨rfl, htail⟩ := List.cons.inj (List.cons.inj h).2
        rw [ih htail]
      · rename_i hb
        exact absurd (.inr (List.cons.inj h).1.symm) hb
      · rename_i ha _
        exact absurd (.inr (List.cons.inj h).1) ha
      · obtain ⟨rfl, htail⟩ := List.cons.inj h
        rw [ih htail]

/-- The least that quoting has to do. -/
def plainQuoting : Quoting := ⟨slashes, escaped_slashes, slashes_injective⟩

/-! ## Formats -/

inductive Verb
  | d
  | q
  deriving DecidableEq, Repr

inductive Arg
  | int (n : Int)
  | str (s : List UInt8)
  deriving DecidableEq, Repr

/-- A format, cut at its verbs: the text before the first one, and every verb with the text after it. -/
structure Pieces where
  lead : List UInt8
  verbs : List (Verb × List UInt8)
  deriving DecidableEq, Repr

def Pieces.byte (b : UInt8) : Pieces → Pieces
  | ⟨lead, verbs⟩ => ⟨b :: lead, verbs⟩

def Pieces.verb (v : Verb) : Pieces → Pieces
  | ⟨lead, verbs⟩ => ⟨[], (v, lead) :: verbs⟩

def pieces : List UInt8 → Pieces
  | [] => ⟨[], []⟩
  | 37 :: 100 :: s => (pieces s).verb .d
  | 37 :: 113 :: s => (pieces s).verb .q
  | b :: s => (pieces s).byte b

section

variable (q : Quoting)

/-- What stands for a verb, if the argument is of its kind. -/
def Verb.print : Verb → Arg → Option (List UInt8)
  | .d, .int n => some (Decimal.ofInt n)
  | .q, .str s => some (q.quote s)
  | _, _ => none

def printVerbs : List (Verb × List UInt8) → List Arg → Option (List UInt8)
  | [], [] => some []
  | (v, text) :: vs, a :: as => do
    let printed ← v.print q a
    let rest ← printVerbs vs as
    some (printed ++ (text ++ rest))
  | _, _ => none

/-- `fmt.Sprintf`, when there is an argument of its kind for every verb. -/
def sprintf (format : List UInt8) (args : List Arg) : Option (List UInt8) :=
  (printVerbs q (pieces format).verbs args).map ((pieces format).lead ++ ·)

/-- The verb an argument is for. -/
def Arg.verb : Arg → Verb
  | int _ => .d
  | str _ => .q

theorem printVerbs_isSome : ∀ {vs : List (Verb × List UInt8)} {as : List Arg}, vs.map Prod.fst = as.map Arg.verb →
    (printVerbs q vs as).isSome
  | [], [], _ => rfl
  | [], _ :: _, h => by cases h
  | _ :: _, [], h => by cases h
  | (v, text) :: vs, a :: as, h => by
    obtain ⟨rfl, htail⟩ := List.cons.inj h
    obtain ⟨rest, hrest⟩ := Option.isSome_iff_exists.1 (printVerbs_isSome htail)
    cases a <;> simp [printVerbs, Arg.verb, Verb.print, hrest]

theorem sprintf_isSome {format : List UInt8} {as : List Arg}
    (h : (pieces format).verbs.map Prod.fst = as.map Arg.verb) : (sprintf q format as).isSome := by
  rw [sprintf, Option.isSome_map]
  exact printVerbs_isSome q h

end

/-! ## Reading the arguments back -/

/-- No number has this byte. -/
def EndsNumber (b : UInt8) : Prop := b ≠ 45 ∧ ¬(48 ≤ b ∧ b ≤ 57)

instance (b : UInt8) : Decidable (EndsNumber b) := inferInstanceAs (Decidable (_ ∧ _))

/-- Every number but a last one is followed by a byte that ends it. -/
def Separating : List (Verb × List UInt8) → Bool
  | [] => true
  | [_] => true
  | (v, text) :: vs => (v == .q || text.head?.any fun b => EndsNumber b) && Separating vs

theorem EndsNumber.notMem_ofInt {b : UInt8} (h : EndsNumber b) (n : Int) : b ∉ Decimal.ofInt n := by
  intro hb
  rcases Decimal.mem_ofInt hb with rfl | hdigit
  · exact h.1 rfl
  · exact h.2 hdigit

variable {q : Quoting}

theorem printVerbs_cons {v : Verb} {text t : List UInt8} {vs : List (Verb × List UInt8)} {as : List Arg}
    (h : printVerbs q ((v, text) :: vs) as = some t) :
    ∃ a rest printed printedRest, as = a :: rest ∧ v.print q a = some printed ∧
      printVerbs q vs rest = some printedRest ∧ t = printed ++ (text ++ printedRest) := by
  cases as with
  | nil => cases h
  | cons a rest =>
    simp only [printVerbs, Option.bind_eq_bind, Option.bind_eq_some_iff] at h
    obtain ⟨printed, hprinted, printedRest, hrest, ht⟩ := h
    exact ⟨a, rest, printed, printedRest, rfl, hprinted, hrest, (Option.some.inj ht).symm⟩

theorem Verb.print_eq_some {v : Verb} {a : Arg} {p : List UInt8} (h : v.print q a = some p) :
    (v = .d ∧ ∃ n, a = .int n ∧ p = Decimal.ofInt n) ∨ (v = .q ∧ ∃ s, a = .str s ∧ p = q.quote s) := by
  unfold Verb.print at h
  split at h
  · exact .inl ⟨rfl, _, rfl, (Option.some.inj h).symm⟩
  · exact .inr ⟨rfl, _, rfl, (Option.some.inj h).symm⟩
  · cases h

/-- A verb followed by what ends it can be cut off. -/
theorem Verb.print_cut {v : Verb} {a a' : Arg} {p p' text r r' : List UInt8} (hp : v.print q a = some p)
    (hp' : v.print q a' = some p') (hend : v = .q ∨ ∃ b ∈ text.head?, EndsNumber b)
    (heq : p ++ (text ++ r) = p' ++ (text ++ r')) : a = a' ∧ r = r' := by
  rcases Verb.print_eq_some hp with ⟨rfl, n, rfl, rfl⟩ | ⟨rfl, s, rfl, rfl⟩
  · obtain ⟨-, n', rfl, rfl⟩ | ⟨hq, -⟩ := Verb.print_eq_some hp'
    · obtain hq | ⟨b, hb, hends⟩ := hend
      · cases hq
      obtain ⟨text, rfl⟩ := List.head?_eq_some_iff.1 hb
      obtain ⟨hn, htail⟩ := Tables.cut_unique (hends.notMem_ofInt n) (hends.notMem_ofInt n') heq
      rw [Decimal.ofInt_injective hn, List.append_cancel_left htail]
      exact ⟨rfl, rfl⟩
    · cases hq
  · obtain ⟨hd, -⟩ | ⟨-, s', rfl, rfl⟩ := Verb.print_eq_some hp'
    · cases hd
    · obtain ⟨rfl, htail⟩ := q.cut heq
      exact ⟨rfl, List.append_cancel_left htail⟩

theorem Verb.print_injective {v : Verb} {a a' : Arg} {p : List UInt8} (hp : v.print q a = some p)
    (hp' : v.print q a' = some p) : a = a' := by
  rcases Verb.print_eq_some hp with ⟨rfl, n, rfl, rfl⟩ | ⟨rfl, s, rfl, rfl⟩
  · obtain ⟨-, n', rfl, hn⟩ | ⟨hq, -⟩ := Verb.print_eq_some hp'
    · rw [Decimal.ofInt_injective hn]
    · cases hq
  · obtain ⟨hd, -⟩ | ⟨-, s', rfl, hs⟩ := Verb.print_eq_some hp'
    · cases hd
    · rw [(q.cut (congrArg (· ++ []) hs)).1]

theorem printVerbs_injective : ∀ {vs : List (Verb × List UInt8)} {as as' : List Arg} {t : List UInt8},
    Separating vs = true → printVerbs q vs as = some t → printVerbs q vs as' = some t → as = as'
  | [], [], [], _, _, _, _ => rfl
  | [], _ :: _, _, _, _, h, _ => by cases h
  | [], [], _ :: _, _, _, _, h' => by cases h'
  | (v, text) :: vs, as, as', t, hsep, h, h' => by
    obtain ⟨a, rest, p, r, rfl, hp, hr, rfl⟩ := printVerbs_cons h
    obtain ⟨a', rest', p', r', rfl, hp', hr', heq⟩ := printVerbs_cons h'
    cases vs with
    | nil =>
      -- the last verb: the text behind it is the same
      cases rest with
      | cons _ _ => cases hr
      | nil =>
        cases rest' with
        | cons _ _ => cases hr'
        | nil =>
          cases hr
          cases hr'
          have hpp : p = p' := List.append_cancel_right heq
          rw [Verb.print_injective hp (hpp ▸ hp')]
    | cons w vs =>
      simp only [Separating, Bool.and_eq_true, Bool.or_eq_true, beq_iff_eq, Option.any_eq_true,
        decide_eq_true_eq] at hsep
      obtain ⟨rfl, rfl⟩ := Verb.print_cut hp hp' hsep.1 heq
      rw [printVerbs_injective hsep.2 hr hr']

/-- A text formatted with separated numbers determines the arguments. -/
theorem sprintf_injective {format t : List UInt8} (hsep : Separating (pieces format).verbs = true) {as as' : List Arg}
    (h : sprintf q format as = some t) (h' : sprintf q format as' = some t) : as = as' := by
  obtain ⟨r, hr, rfl⟩ := Option.map_eq_some_iff.1 h
  obtain ⟨r', hr', heq⟩ := Option.map_eq_some_iff.1 h'
  rw [List.append_cancel_left heq] at hr'
  exact printVerbs_injective hsep hr hr'

end Format
