/-
Environment variables in the configuration (`findAndReplacePlaceholders` in `config/config.go`): the loop
over the matches of the original text, which replaces in the text as it has become, against the
substitution of the matches at once.
-/
import Chproxy.Lib.Substitute
import Chproxy.Lib.Tables
import Chproxy.Utils.QueryText

namespace Chproxy.Config

open Substitute (Piece)
open Utils (Bytes bytes)

/-! ## `envVarRegex` -/

def isNameStart (b : UInt8) : Bool := (97 ≤ b && b ≤ 122) || (65 ≤ b && b ≤ 90) || b == 95

def isNameByte (b : UInt8) : Bool := isNameStart b || (48 ≤ b && b ≤ 57)

/-- A text that `[a-zA-Z_][a-zA-Z0-9_]*` matches. -/
structure EnvName where
  text : Bytes
  start : text.head?.any isNameStart = true
  rest : text.all isNameByte = true
  deriving DecidableEq, Repr

/-- `match[0]` of a name. -/
def EnvName.placeholder (x : EnvName) : Bytes := 36 :: 123 :: (x.text ++ [125])

/-- The name, if a match begins here. -/
def envVarAt : Bytes → Option EnvName
  | 36 :: 123 :: s =>
    if h : (s.takeWhile isNameByte).head?.any isNameStart = true ∧ (s.dropWhile isNameByte).head? = some 125 then
      some ⟨s.takeWhile isNameByte, h.1, List.all_takeWhile⟩
    else none
  | _ => none

/-- The text as matches and the bytes between them; the first `skip` bytes belong to a match. -/
def splitFrom : Nat → Bytes → List (Piece UInt8 EnvName)
  | _, [] => []
  | skip + 1, _ :: s => splitFrom skip s
  | 0, b :: s =>
    match envVarAt (b :: s) with
    | some x => .ref x :: splitFrom (x.placeholder.length - 1) s
    | none => .lit b :: splitFrom 0 s

def splitMatches (content : Bytes) : List (Piece UInt8 EnvName) := splitFrom 0 content

/-- The names of the matches, in their order. -/
def findAllSubmatch (content : Bytes) : List EnvName := Substitute.refs (splitMatches content)

/-! ## `findAndReplacePlaceholders` -/

section Loop

variable (getenv : Bytes → Bytes)

/-- The loop over the names of the matches. -/
def replacePlaceholders (names : List EnvName) (content : Bytes) : Bytes :=
  names.foldl (fun content x =>
    let envVar := getenv x.text
    if envVar ≠ [] then Substitute.replaceAll x.placeholder envVar content else content) content

def findAndReplacePlaceholders (content : Bytes) : Bytes := replacePlaceholders getenv (findAllSubmatch content) content

/-- What stands for a match when all are substituted at once. -/
def substituted (x : EnvName) : Bytes := if getenv x.text ≠ [] then getenv x.text else x.placeholder

/-- Every match of the original text replaced by its value, and left as it is without one. -/
def substituteOnce (content : Bytes) : Bytes :=
  (splitMatches content).flatMap fun
    | .lit b => [b]
    | .ref x => substituted getenv x

/-- The matches of some names replaced at once, and the others left as they are. -/
def substituteAmong (names : List EnvName) (content : Bytes) : Bytes :=
  (splitMatches content).flatMap fun
    | .lit b => [b]
    | .ref x => if x ∈ names then substituted getenv x else x.placeholder

end Loop

/-! ## Placeholders in a text -/

theorem mark_notMem (x : EnvName) : 36 ∉ (123 :: (x.text ++ [125]) : Bytes) := by
  have hname : 36 ∉ x.text := fun hmem => absurd (List.all_eq_true.1 x.rest 36 hmem) (by decide)
  simp [hname]

theorem close_notMem (x : EnvName) : 125 ∉ x.text :=
  fun hmem => absurd (List.all_eq_true.1 x.rest 125 hmem) (by decide)

/-- Placeholders begin with `$`, hold it once, and end with the first `}`. -/
theorem placeholder_marked : Substitute.Marked 36 EnvName.placeholder where
  cons x := ⟨_, rfl, mark_notMem x⟩
  cut {x y r r'} h := by
    simp only [EnvName.placeholder, List.cons_append, List.append_assoc, List.nil_append, List.cons.injEq,
      true_and] at h
    obtain ⟨htext, -⟩ := Tables.cut_unique (close_notMem x) (close_notMem y) h
    cases x
    cases y
    cases htext
    rfl

theorem placeholder_of_envVarAt {s : Bytes} {x : EnvName} (h : envVarAt s = some x) : x.placeholder <+: s := by
  unfold envVarAt at h
  split at h
  · rename_i s
    split at h
    · rename_i hmatch
      cases h
      obtain ⟨r, hr⟩ := List.head?_eq_some_iff.1 hmatch.2
      refine ⟨r, ?_⟩
      conv_rhs => rw [← List.takeWhile_append_dropWhile (p := isNameByte) (l := s), hr]
      simp [EnvName.placeholder]
    · cases h
  · cases h

theorem render_splitFrom : ∀ (skip : Nat) (s : Bytes),
    Substitute.render EnvName.placeholder (splitFrom skip s) = s.drop skip
  | 0, [] => rfl
  | _ + 1, [] => rfl
  | skip + 1, _ :: s => render_splitFrom skip s
  | 0, b :: s => by
    rw [splitFrom]
    split
    · rename_i x hx
      obtain ⟨r, hr⟩ := placeholder_of_envVarAt hx
      rw [Substitute.render, render_splitFrom, List.drop_zero, ← hr]
      congr 1
      have hs : s = (x.placeholder ++ r).drop 1 := by rw [hr]; rfl
      have hlen : 1 + (x.placeholder.length - 1) = x.placeholder.length := by
        simp only [EnvName.placeholder, List.length_cons]
        omega
      rw [hs, List.drop_drop, hlen, List.drop_left]
    · rw [Substitute.render, render_splitFrom]
      rfl

/-- The pieces make up the text. -/
theorem render_splitMatches (content : Bytes) :
    Substitute.render EnvName.placeholder (splitMatches content) = content :=
  render_splitFrom 0 content

theorem envVarAt_append (x : EnvName) (r : Bytes) : envVarAt (x.placeholder ++ r) = some x := by
  have hname : ∀ b ∈ x.text, isNameByte b = true := List.all_eq_true.1 x.rest
  have htake : (x.text ++ 125 :: r).takeWhile isNameByte = x.text := by
    rw [List.takeWhile_append_of_pos hname, List.takeWhile_cons_of_neg (by decide), List.append_nil]
  have hdrop : (x.text ++ 125 :: r).dropWhile isNameByte = 125 :: r := by
    rw [List.dropWhile_append_of_pos hname, List.dropWhile_cons_of_neg (by decide)]
  have htext : x.placeholder ++ r = 36 :: 123 :: (x.text ++ 125 :: r) := by simp [EnvName.placeholder]
  rw [htext, envVarAt, dif_pos ⟨htake.symm ▸ x.start, by rw [hdrop]; rfl⟩]
  simp only [htake]

/-- No placeholder begins within another one. -/
theorem length_placeholder_le {x y : EnvName} {b : UInt8} {u r r' : Bytes}
    (h : b :: u ++ (x.placeholder ++ r) = y.placeholder ++ r') : y.placeholder.length ≤ (b :: u).length := by
  by_contra hlt
  -- the mark of `x` would stand in the rest of `y`
  have hget : (y.placeholder ++ r')[u.length + 1]? = some 36 := by
    rw [← h]
    simp [EnvName.placeholder]
  rw [List.getElem?_append_left (by simpa using hlt)] at hget
  exact mark_notMem y (List.mem_of_getElem? hget)

theorem mem_refs_splitFrom {x : EnvName} : ∀ (skip : Nat) (u r : Bytes), skip ≤ u.length →
    x ∈ Substitute.refs (splitFrom skip (u ++ (x.placeholder ++ r)))
  | 0, [], r, _ => by
    have hat : envVarAt (36 :: (123 :: (x.text ++ [125]) ++ r)) = some x := envVarAt_append x r
    rw [List.nil_append]
    change x ∈ Substitute.refs (splitFrom 0 (36 :: (123 :: (x.text ++ [125]) ++ r)))
    rw [splitFrom, hat]
    exact List.mem_cons_self
  | skip + 1, b :: u, r, hskip => mem_refs_splitFrom skip u r (Nat.le_of_succ_le_succ hskip)
  | 0, b :: u, r, _ => by
    rw [List.cons_append, splitFrom]
    split
    · rename_i y hy
      obtain ⟨r', hr'⟩ := placeholder_of_envVarAt hy
      have hlen := length_placeholder_le (b := b) (u := u) hr'.symm
      rw [List.length_cons] at hlen
      exact List.mem_cons_of_mem _ (mem_refs_splitFrom _ u r (by omega))
    · exact mem_refs_splitFrom 0 u r (Nat.zero_le _)

/-- The matches are the placeholders that stand in the text. -/
theorem mem_findAllSubmatch_iff {x : EnvName} {content : Bytes} :
    x ∈ findAllSubmatch content ↔ x.placeholder <:+: content := by
  constructor
  · intro hx
    obtain ⟨p, q, hpq⟩ := List.append_of_mem (Substitute.mem_refs.1 hx)
    have hrender := render_splitMatches content
    rw [hpq, Substitute.render_append, Substitute.render] at hrender
    exact ⟨_, _, (List.append_assoc ..).trans hrender⟩
  · rintro ⟨u, r, rfl⟩
    rw [List.append_assoc]
    exact mem_refs_splitFrom 0 u r (Nat.zero_le _)

/-- In the original text a placeholder stands only as a match. -/
theorem not_stray_splitFrom (x : EnvName) :
    ∀ (skip : Nat) (s : Bytes), ¬Substitute.Stray EnvName.placeholder x (splitFrom skip s)
  | 0, [] => id
  | _ + 1, [] => id
  | skip + 1, _ :: s => not_stray_splitFrom x skip s
  | 0, b :: s => by
    rw [splitFrom]
    split
    · exact not_stray_splitFrom x _ s
    · rename_i hnone
      rintro (hpre | hstray)
      · rw [render_splitFrom, List.drop_zero] at hpre
        obtain ⟨r, hr⟩ := hpre
        rw [← hr, envVarAt_append] at hnone
        cases hnone
      · exact not_stray_splitFrom x 0 s hstray

/-! ## The loop -/

section Results

variable (getenv : Bytes → Bytes)

/-- The value that a match is replaced by. -/
def envValue (x : EnvName) : Option Bytes := if getenv x.text ≠ [] then some (getenv x.text) else none

theorem replacePlaceholders_eq_loop (names : List EnvName) (content : Bytes) :
    replacePlaceholders getenv names content =
      Substitute.loop EnvName.placeholder (envValue getenv) names content := by
  unfold replacePlaceholders Substitute.loop
  refine congrArg (fun f => names.foldl f content) ?_
  funext content x
  unfold envValue
  by_cases hx : getenv x.text = []
  · simp [hx]
  · simp [hx]

/-- The text of the matches and bytes when the matches of some names have been substituted. -/
def partly (names : List EnvName) (content : Bytes) : List (Piece UInt8 EnvName) :=
  Substitute.fill (Substitute.among names (envValue getenv)) (splitMatches content)

theorem substituteAmong_eq_render (names : List EnvName) (content : Bytes) :
    substituteAmong getenv names content = Substitute.render EnvName.placeholder (partly getenv names content) := by
  unfold substituteAmong partly
  generalize splitMatches content = p
  induction p with
  | nil => rfl
  | cons a p ih =>
    rw [List.flatMap_cons, ih]
    cases a with
    | lit b => rfl
    | ref x =>
      by_cases hmem : x ∈ names
      · by_cases hx : getenv x.text = []
        · simp [Substitute.fill, Substitute.render, Substitute.among, envValue, substituted, hx]
        · simp [Substitute.fill, Substitute.among, envValue, substituted, hx, hmem]
      · simp [Substitute.fill, Substitute.render, Substitute.among, hmem]

theorem substituteAmong_all (content : Bytes) :
    substituteAmong getenv (findAllSubmatch content) content = substituteOnce getenv content := by
  unfold substituteAmong substituteOnce
  refine List.flatMap_congr fun piece hpiece => ?_
  cases piece with
  | lit b => rfl
  | ref x => exact if_pos (Substitute.mem_refs.2 hpiece)

theorem envValue_eq_some {x : EnvName} {v : Bytes} :
    envValue getenv x = some v ↔ getenv x.text ≠ [] ∧ getenv x.text = v := by
  unfold envValue
  split
  · rename_i h
    simp [h]
  · rename_i h
    simp [h]

/-- No replacement of the loop meets a placeholder that a value brought or completed, a variable apart whose
value is its own placeholder: where the replacement of a match begins, the placeholder stands nowhere but at
matches of the original text. -/
def Undisturbed (content : Bytes) : Prop :=
  ∀ k : Fin (findAllSubmatch content).length,
    let x := (findAllSubmatch content).get k
    getenv x.text ≠ [] → getenv x.text ≠ x.placeholder →
      ¬Substitute.Stray EnvName.placeholder x (partly getenv ((findAllSubmatch content).take k) content)

instance (content : Bytes) : Decidable (Undisturbed getenv content) := inferInstanceAs (Decidable (∀ _ : Fin _, _))

theorem replacePlaceholders_eq_iff (content : Bytes) :
    (∀ k, replacePlaceholders getenv ((findAllSubmatch content).take k) content =
      substituteAmong getenv ((findAllSubmatch content).take k) content) ↔ Undisturbed getenv content := by
  have hiff := placeholder_marked.loop_eq_iff (envValue getenv) (splitMatches content) (findAllSubmatch content)
  rw [render_splitMatches] at hiff
  simp only [← replacePlaceholders_eq_loop] at hiff
  simp only [substituteAmong_eq_render]
  refine hiff.trans ?_
  constructor
  · intro h k x hset hne
    exact h k x _ (List.getElem?_eq_getElem k.isLt) ((envValue_eq_some getenv).2 ⟨hset, rfl⟩) hne
  · intro h k x v hx hv hne
    obtain ⟨hset, rfl⟩ := (envValue_eq_some getenv).1 hv
    obtain ⟨hk, rfl⟩ := List.getElem?_eq_some_iff.1 hx
    exact h ⟨k, hk⟩ hset hne

end Results

/-- After every replacement of the loop the text is the original one with the matches so far substituted at
once, exactly when no replacement meets a placeholder that a value brought or completed; and then all matches
are substituted once and at the same time. -/
theorem placeholders_substituted_iff (getenv : Bytes → Bytes) (content : Bytes) :
    ((∀ k, replacePlaceholders getenv ((findAllSubmatch content).take k) content =
      substituteAmong getenv ((findAllSubmatch content).take k) content) ↔ Undisturbed getenv content) ∧
    (Undisturbed getenv content → findAndReplacePlaceholders getenv content = substituteOnce getenv content) := by
  refine ⟨replacePlaceholders_eq_iff getenv content, fun h => ?_⟩
  have hall := (replacePlaceholders_eq_iff getenv content).2 h (findAllSubmatch content).length
  rwa [List.take_length, substituteAmong_all] at hall

/-- The environment in which `A` is `a`, `B` is `b` and nothing else is set. -/
def twoVariables (a b : String) (name : Bytes) : Bytes :=
  if name = bytes "A" then bytes a else if name = bytes "B" then bytes b else []

/-- A `$` in a value does no harm, nor does the placeholder that has been replaced already. -/
theorem placeholders_substituted_password :
    findAndReplacePlaceholders (twoVariables "se$cret" "") (bytes "password: $\x7bA\x7d, $\x7bB\x7d") =
      bytes "password: se$cret, $\x7bB\x7d" ∧
    findAndReplacePlaceholders (twoVariables "y$\x7bA\x7dz" "") (bytes "$\x7bA\x7d") = bytes "y$\x7bA\x7dz" ∧
    findAndReplacePlaceholders (twoVariables "a" "$\x7bA\x7d") (bytes "$\x7bA\x7d$\x7bB\x7d") =
      bytes "a$\x7bA\x7d" :=
  ⟨((placeholders_substituted_iff _ _).2 (by decide)).trans (by decide),
    ((placeholders_substituted_iff _ _).2 (by decide)).trans (by decide),
    ((placeholders_substituted_iff _ _).2 (by decide)).trans (by decide)⟩

/-- With `A` set to `${B}`, the value of `A` is itself scanned when `B` comes later, and only then. -/
theorem value_is_scanned :
    findAndReplacePlaceholders (twoVariables "$\x7bB\x7d" "x") (bytes "$\x7bA\x7d$\x7bB\x7d") = bytes "xx" ∧
    substituteOnce (twoVariables "$\x7bB\x7d" "x") (bytes "$\x7bA\x7d$\x7bB\x7d") = bytes "$\x7bB\x7dx" ∧
    findAndReplacePlaceholders (twoVariables "$\x7bB\x7d" "x") (bytes "$\x7bB\x7d$\x7bA\x7d") = bytes "x$\x7bB\x7d" ∧
    findAndReplacePlaceholders (twoVariables "B" "x") (bytes "$\x7b$\x7bA\x7d\x7d, $\x7bB\x7d") = bytes "x, x" ∧
    substituteOnce (twoVariables "B" "x") (bytes "$\x7b$\x7bA\x7d\x7d, $\x7bB\x7d") = bytes "$\x7bB\x7d, x" := by
  refine ⟨?_, ?_, ?_, ?_, ?_⟩ <;> decide

end Chproxy.Config
