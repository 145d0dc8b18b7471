/-
Replacing names in a text by values: all names at once, or one name after the other, each in the text as
it has become. The second way gives at every step the text of the first one exactly when no step meets a name
that a value brought or completed.
-/
import Mathlib.Data.List.Infix

namespace Substitute

variable {α ν : Type}

/-! ## One name -/

section Replace

variable [DecidableEq α] {old new : List α}

/-- Replace the occurrences of `old` from left to right; the first `skip` elements belong to an occurrence
that has been replaced. -/
def replaceFrom (old new : List α) : Nat → List α → List α
  | _, [] => []
  | skip + 1, _ :: s => replaceFrom old new skip s
  | 0, a :: s =>
    if old.isPrefixOf (a :: s) then new ++ replaceFrom old new (old.length - 1) s else a :: replaceFrom old new 0 s

def replaceAll (old new s : List α) : List α := replaceFrom old new 0 s

theorem replaceFrom_eq_drop : ∀ (skip : Nat) (s : List α), replaceFrom old new skip s = replaceAll old new (s.drop skip)
  | 0, _ => rfl
  | _ + 1, [] => rfl
  | skip + 1, _ :: s => replaceFrom_eq_drop skip s

theorem replaceAll_append (hold : old ≠ []) (s : List α) :
    replaceAll old new (old ++ s) = new ++ replaceAll old new s := by
  obtain ⟨a, old', rfl⟩ := List.exists_cons_of_ne_nil hold
  have hpre : (a :: old').isPrefixOf (a :: (old' ++ s)) = true := List.isPrefixOf_iff_prefix.2 (List.prefix_append ..)
  rw [replaceAll, List.cons_append, replaceFrom, if_pos hpre, replaceFrom_eq_drop, List.length_cons, Nat.add_sub_cancel,
    List.drop_left]

theorem replaceAll_cons {a : α} {s : List α} (h : ¬old <+: a :: s) :
    replaceAll old new (a :: s) = a :: replaceAll old new s := by
  rw [replaceAll, replaceFrom, if_neg fun hpre => h (List.isPrefixOf_iff_prefix.1 hpre), replaceAll]

/-- What the scan meets: an occurrence, or an element where none begins. -/
theorem scan_induction {P : List α → Prop} (hold : old ≠ []) (nil : P []) (found : ∀ s, P s → P (old ++ s))
    (passed : ∀ a s, ¬old <+: a :: s → P s → P (a :: s)) : ∀ s, P s := by
  intro s
  induction hn : s.length using Nat.strong_induction_on generalizing s with
  | _ n ih =>
    cases s with
    | nil => exact nil
    | cons a s =>
      by_cases hpre : old <+: a :: s
      · obtain ⟨rest, hrest⟩ := hpre
        have hpos : 0 < old.length := List.length_pos_iff.2 hold
        have hlen : old.length + rest.length = n := by rw [← List.length_append, hrest, hn]
        rw [← hrest]
        exact found rest (ih rest.length (by omega) rest rfl)
      · rw [List.length_cons] at hn
        exact passed a s hpre (ih s.length (by omega) s rfl)

theorem replaceAll_self (hold : old ≠ []) (s : List α) : replaceAll old old s = s := by
  refine scan_induction hold (P := fun s => replaceAll old old s = s) rfl ?_ ?_ s
  · intro s ih
    rw [replaceAll_append hold, ih]
  · intro a s hpre ih
    rw [replaceAll_cons hpre, ih]

end Replace

/-! ## Texts with names -/

inductive Piece (α ν : Type)
  | lit (a : α)
  | ref (x : ν)
  deriving DecidableEq, Repr

section Pieces

variable (tok : ν → List α)

/-- The text, with `tok x` for the name `x`. -/
def render : List (Piece α ν) → List α
  | [] => []
  | .lit a :: p => a :: render p
  | .ref x :: p => tok x ++ render p

/-- Give the names with a value their value. -/
def fill (value : ν → Option (List α)) : List (Piece α ν) → List (Piece α ν)
  | [] => []
  | .lit a :: p => .lit a :: fill value p
  | .ref x :: p =>
    match value x with
    | some v => v.map .lit ++ fill value p
    | none => .ref x :: fill value p

/-- The names in a text, from left to right. -/
def refs : List (Piece α ν) → List ν
  | [] => []
  | .lit _ :: p => refs p
  | .ref x :: p => x :: refs p

/-- One name after the other, in the text as it has become. -/
def loop [DecidableEq α] (value : ν → Option (List α)) (names : List ν) (s : List α) : List α :=
  names.foldl (fun s x => match value x with | some v => replaceAll (tok x) v s | none => s) s

@[simp] theorem render_append : ∀ p q : List (Piece α ν), render tok (p ++ q) = render tok p ++ render tok q
  | [], q => rfl
  | .lit a :: p, q => by simp [render, render_append p q]
  | .ref x :: p, q => by simp [render, render_append p q]

@[simp] theorem render_lits : ∀ v : List α, render tok (v.map .lit) = v
  | [] => rfl
  | a :: v => by simp [render, render_lits v]

@[simp] theorem fill_append (value : ν → Option (List α)) :
    ∀ p q : List (Piece α ν), fill value (p ++ q) = fill value p ++ fill value q
  | [], q => rfl
  | .lit a :: p, q => by simp [fill, fill_append value p q]
  | .ref x :: p, q => by
    simp only [List.cons_append, fill, fill_append value p q]
    split <;> simp

@[simp] theorem fill_lits (value : ν → Option (List α)) : ∀ v : List α, fill value (v.map .lit) = v.map (.lit (ν := ν))
  | [] => rfl
  | a :: v => by simp [fill, fill_lits value v]

/-- Values given first are not filled again. -/
theorem fill_fill (f g : ν → Option (List α)) :
    ∀ p : List (Piece α ν), fill g (fill f p) = fill (fun x => (f x).or (g x)) p
  | [] => rfl
  | .lit a :: p => by simp [fill, fill_fill f g p]
  | .ref x :: p => by
    have ih := fill_fill f g p
    cases hf : f x with
    | some v => simp [fill, hf, ih]
    | none =>
      cases hg : g x <;> simp [fill, hf, hg, ih]

theorem fill_congr {f g : ν → Option (List α)} :
    ∀ {p : List (Piece α ν)}, (∀ x, .ref x ∈ p → f x = g x) → fill f p = fill g p
  | [], _ => rfl
  | .lit a :: p, h => by simp [fill, fill_congr (p := p) fun x hx => h x (List.mem_cons_of_mem _ hx)]
  | .ref x :: p, h => by
    simp [fill, h x List.mem_cons_self, fill_congr (p := p) fun x hx => h x (List.mem_cons_of_mem _ hx)]

/-- The name begins at a literal: it is not one of the names of the text. -/
def Stray (x : ν) : List (Piece α ν) → Prop
  | [] => False
  | .lit a :: p => tok x <+: a :: render tok p ∨ Stray x p
  | .ref _ :: p => Stray x p

def decidableStray [DecidableEq α] (x : ν) : ∀ p : List (Piece α ν), Decidable (Stray tok x p)
  | [] => inferInstanceAs (Decidable False)
  | .lit a :: p =>
    have := decidableStray x p
    inferInstanceAs (Decidable (tok x <+: a :: render tok p ∨ Stray tok x p))
  | .ref _ :: p => decidableStray x p

instance [DecidableEq α] (x : ν) (p : List (Piece α ν)) : Decidable (Stray tok x p) := decidableStray tok x p

theorem fill_eq_self {value : ν → Option (List α)} :
    ∀ {p : List (Piece α ν)}, (∀ x, value x = none) → fill value p = p
  | [], _ => rfl
  | .lit a :: p, h => by rw [fill, fill_eq_self h]
  | .ref x :: p, h => by simp [fill, h x, fill_eq_self h]

theorem mem_refs {x : ν} : ∀ {p : List (Piece α ν)}, x ∈ refs p ↔ .ref x ∈ p
  | [] => by simp [refs]
  | .lit a :: p => by simp [refs, mem_refs (p := p)]
  | .ref y :: p => by simp [refs, mem_refs (p := p)]

/-- The values of the names in a list. -/
def among [DecidableEq ν] (done : List ν) (value : ν → Option (List α)) (x : ν) : Option (List α) :=
  if x ∈ done then value x else none

/-- The value of one name. -/
def only [DecidableEq ν] (x : ν) (v : List α) (y : ν) : Option (List α) := if y = x then some v else none

/-- The values of some names, and then that of one more. -/
theorem fill_among [DecidableEq ν] (done : List ν) (value : ν → Option (List α)) {x : ν} {v : List α}
    (hv : value x = some v) (p : List (Piece α ν)) :
    fill (only x v) (fill (among done value) p) = fill (among (done ++ [x]) value) p := by
  rw [fill_fill]
  refine fill_congr fun y _ => ?_
  unfold among only
  by_cases hyx : y = x
  · subst hyx
    by_cases hd : y ∈ done <;> simp [hd, hv]
  · by_cases hd : y ∈ done <;> simp [hd, hyx]

theorem among_none [DecidableEq ν] (done : List ν) {value : ν → Option (List α)} {x : ν} (hv : value x = none) :
    among (done ++ [x]) value = among done value := by
  funext y
  unfold among
  by_cases hyx : y = x
  · subst hyx
    simp [hv]
  · simp [hyx]

/-- A name that is its own value is filled in without a trace. -/
theorem render_fill_self [DecidableEq ν] (x : ν) :
    ∀ p : List (Piece α ν), render tok (fill (only x (tok x)) p) = render tok p
  | [] => rfl
  | .lit a :: p => by rw [fill, render, render, render_fill_self x p]
  | .ref y :: p => by
    by_cases hyx : y = x
    · subst hyx
      simp [fill, only, render, render_fill_self y p]
    · simp [fill, only, render, hyx, render_fill_self x p]

end Pieces

/-- Every name begins with a mark that it does not hold again, and no name begins another one, so names
cannot overlap. -/
structure Marked (mark : α) (tok : ν → List α) : Prop where
  cons : ∀ x, ∃ body, tok x = mark :: body ∧ mark ∉ body
  cut : ∀ {x y : ν} {r r' : List α}, tok x ++ r = tok y ++ r' → x = y

section Marked

variable {mark : α} {tok : ν → List α} (hm : Marked mark tok)
include hm

theorem Marked.ne_nil (x : ν) : tok x ≠ [] := by
  obtain ⟨body, htok, -⟩ := hm.cons x
  rw [htok]
  exact List.cons_ne_nil _ _

/-- Elements other than the mark are spelled by literals. -/
theorem Marked.eq_lits : ∀ {t : List α} {p : List (Piece α ν)}, mark ∉ t → t <+: render tok p →
    ∃ q, p = t.map .lit ++ q
  | [], p, _, _ => ⟨p, rfl⟩
  | a :: t, [], _, h => absurd (List.prefix_nil.1 h) (List.cons_ne_nil _ _)
  | a :: t, .lit b :: p, hmark, h => by
    obtain ⟨rfl, htail⟩ := List.cons_prefix_cons.1 h
    obtain ⟨q, rfl⟩ := Marked.eq_lits (fun hmem => hmark (List.mem_cons_of_mem _ hmem)) htail
    exact ⟨q, rfl⟩
  | a :: t, .ref x :: p, hmark, h => by
    obtain ⟨body, htok, -⟩ := hm.cons x
    rw [render, htok] at h
    obtain ⟨rfl, -⟩ := List.cons_prefix_cons.1 h
    exact absurd List.mem_cons_self hmark

/-- A name that begins at a literal is spelled by literals. -/
theorem Marked.stray_lits {x : ν} {p : List (Piece α ν)} {a : α} (h : tok x <+: a :: render tok p) :
    ∃ q, .lit a :: p = (tok x).map .lit ++ q := by
  obtain ⟨body, htok, hmark⟩ := hm.cons x
  rw [htok] at h ⊢
  obtain ⟨rfl, hbody⟩ := List.cons_prefix_cons.1 h
  obtain ⟨q, rfl⟩ := hm.eq_lits hmark hbody
  exact ⟨q, rfl⟩

variable [DecidableEq α]

/-- Elements other than the mark are passed. -/
theorem Marked.replaceAll_pass (x : ν) (v : List α) : ∀ {t : List α} (s : List α), mark ∉ t →
    replaceAll (tok x) v (t ++ s) = t ++ replaceAll (tok x) v s
  | [], s, _ => rfl
  | a :: t, s, hmark => by
    have hpre : ¬tok x <+: a :: (t ++ s) := by
      obtain ⟨body, htok, -⟩ := hm.cons x
      rw [htok]
      intro h
      obtain ⟨rfl, -⟩ := List.cons_prefix_cons.1 h
      exact hmark List.mem_cons_self
    rw [List.cons_append, replaceAll_cons hpre, Marked.replaceAll_pass x v s fun hmem =>
      hmark (List.mem_cons_of_mem _ hmem), List.cons_append]

theorem Marked.replaceAll_other {x y : ν} (hxy : x ≠ y) (v s : List α) :
    replaceAll (tok x) v (tok y ++ s) = tok y ++ replaceAll (tok x) v s := by
  obtain ⟨body, htok, hmark⟩ := hm.cons y
  have hpre : ¬tok x <+: tok y ++ s := by
    rintro ⟨r, hr⟩
    exact hxy (hm.cut hr)
  rw [htok, List.cons_append] at hpre ⊢
  rw [replaceAll_cons hpre, hm.replaceAll_pass x v s hmark, List.cons_append]

variable [DecidableEq ν]

/-- What replacing everywhere and filling in the names have in common. -/
theorem Marked.scan_cases (x : ν) (v : List α) (piece : Piece α ν) (p : List (Piece α ν)) :
    (∃ q, piece :: p = (tok x).map .lit ++ q) ∨
    (¬Stray tok x (piece :: p) ↔ ¬Stray tok x p) ∧ ∃ t,
      replaceAll (tok x) v (render tok (piece :: p)) = t ++ replaceAll (tok x) v (render tok p) ∧
      render tok (fill (only x v) (piece :: p)) = t ++ render tok (fill (only x v) p) := by
  cases piece with
  | lit a =>
    by_cases hpre : tok x <+: a :: render tok p
    · exact .inl (hm.stray_lits hpre)
    · refine .inr ⟨by rw [Stray, or_iff_right hpre], [a], ?_, rfl⟩
      rw [render, replaceAll_cons hpre, List.singleton_append]
  | ref y =>
    refine .inr ⟨Iff.rfl, ?_⟩
    by_cases hyx : y = x
    · subst hyx
      exact ⟨v, by rw [render, replaceAll_append (hm.ne_nil y)], by simp [fill, only]⟩
    · exact ⟨tok y, by rw [render, hm.replaceAll_other (Ne.symm hyx)], by simp [fill, only, hyx, render]⟩

/-- The two sides of a stray name: it is replaced, and it is not filled in. -/
theorem Marked.scan_stray (x : ν) (v : List α) (q : List (Piece α ν)) :
    replaceAll (tok x) v (render tok ((tok x).map .lit ++ q)) = v ++ replaceAll (tok x) v (render tok q) ∧
    render tok (fill (only x v) ((tok x).map .lit ++ q)) = tok x ++ render tok (fill (only x v) q) := by
  constructor
  · rw [render_append, render_lits, replaceAll_append (hm.ne_nil x)]
  · rw [fill_append, fill_lits, render_append, render_lits]

/-- Every stray name that is replaced changes the length alike. -/
theorem Marked.exists_length (x : ν) (v : List α) (p : List (Piece α ν)) : ∃ d,
    (replaceAll (tok x) v (render tok p)).length + d * (tok x).length =
      (render tok (fill (only x v) p)).length + d * v.length := by
  induction hn : p.length using Nat.strong_induction_on generalizing p with
  | _ n ih =>
    cases p with
    | nil => exact ⟨0, by simp [render, fill, replaceAll, replaceFrom]⟩
    | cons piece p =>
      rcases hm.scan_cases x v piece p with ⟨q, hq⟩ | ⟨-, t, hl, hr⟩
      · -- a stray name counts once more
        have hlen := congrArg List.length hq
        have hpos : 0 < (tok x).length := List.length_pos_iff.2 (hm.ne_nil x)
        rw [List.length_append, List.length_map] at hlen
        obtain ⟨d, hd⟩ := ih q.length (by omega) q rfl
        obtain ⟨hl, hr⟩ := hm.scan_stray x v q
        refine ⟨d + 1, ?_⟩
        rw [hq, hl, hr, List.length_append, List.length_append, Nat.succ_mul, Nat.succ_mul]
        omega
      · rw [List.length_cons] at hn
        obtain ⟨d, hd⟩ := ih p.length (by omega) p rfl
        refine ⟨d, ?_⟩
        rw [hl, hr, List.length_append, List.length_append]
        omega

/-- Replacing a name everywhere is filling it in exactly when it stands nowhere else. -/
theorem Marked.replaceAll_render_iff {x : ν} {v : List α} (hne : v ≠ tok x) : ∀ {p : List (Piece α ν)},
    replaceAll (tok x) v (render tok p) = render tok (fill (only x v) p) ↔ ¬Stray tok x p
  | [] => by simp [Stray, render, fill, replaceAll, replaceFrom]
  | piece :: p => by
    rcases hm.scan_cases x v piece p with ⟨q, hq⟩ | ⟨hstray, t, hl, hr⟩
    · obtain ⟨hl, hr⟩ := hm.scan_stray x v q
      have hmeets : Stray tok x (piece :: p) := by
        obtain ⟨body, htok, -⟩ := hm.cons x
        rw [hq, htok, List.map_cons, List.cons_append]
        refine .inl ⟨render tok q, ?_⟩
        rw [render_append, render_lits, htok, List.cons_append]
      refine iff_of_false (fun heq => hne ?_) (not_not.2 hmeets)
      -- both sides have the same length only if name and value have
      rw [hq, hl, hr] at heq
      have hlen := congrArg List.length heq
      rw [List.length_append, List.length_append] at hlen
      obtain ⟨d, hd⟩ := hm.exists_length x v q
      have hmul : (d + 1) * v.length = (d + 1) * (tok x).length := by
        rw [Nat.succ_mul, Nat.succ_mul]
        omega
      exact (List.append_inj heq (Nat.eq_of_mul_eq_mul_left (Nat.succ_pos d) hmul)).1
    · rw [hl, hr, List.append_cancel_left_eq, hstray]
      exact Marked.replaceAll_render_iff hne

variable {value : ν → Option (List α)} {p : List (Piece α ν)}

/-- One step of the loop. -/
theorem Marked.replaceAll_among_iff (done : List ν) {x : ν} {v : List α} (hv : value x = some v) :
    replaceAll (tok x) v (render tok (fill (among done value) p)) =
      render tok (fill (among (done ++ [x]) value) p) ↔
        (v ≠ tok x → ¬Stray tok x (fill (among done value) p)) := by
  rw [← fill_among done value hv p]
  by_cases hne : v = tok x
  · rw [hne, replaceAll_self (hm.ne_nil x), render_fill_self]
    exact iff_of_true rfl fun h => absurd rfl h
  · rw [hm.replaceAll_render_iff hne]
    exact ⟨fun h _ => h, fun h => h hne⟩

/-- Replacing the names one after the other is at every step filling in those so far at once, exactly when no
step meets a name, other than by replacing it by itself, that is not one of the text. -/
theorem Marked.loop_eq_iff (value : ν → Option (List α)) (p : List (Piece α ν)) (names : List ν) :
    (∀ k, loop tok value (names.take k) (render tok p) = render tok (fill (among (names.take k) value) p)) ↔
      ∀ k x v, names[k]? = some x → value x = some v → v ≠ tok x →
        ¬Stray tok x (fill (among (names.take k) value) p) := by
  have hsucc : ∀ {k x}, names[k]? = some x → names.take (k + 1) = names.take k ++ [x] := by
    intro k x hx
    rw [List.take_add_one, hx]
    rfl
  have hloop : ∀ {k x} (s : List α), names[k]? = some x → loop tok value (names.take (k + 1)) s =
      match value x with
      | some v => replaceAll (tok x) v (loop tok value (names.take k) s)
      | none => loop tok value (names.take k) s := by
    intro k x s hx
    rw [hsucc hx, loop, List.foldl_append]
    rfl
  constructor
  · -- at every name the loop is one replacement, which is right only without strays
    intro heq k x v hx hv
    have hstep := heq (k + 1)
    rw [hloop _ hx, hv, heq k, hsucc hx] at hstep
    exact (hm.replaceAll_among_iff (names.take k) hv).1 hstep
  · intro hfree k
    induction k with
    | zero =>
      have hnil : fill (among [] value) p = p := fill_eq_self fun x => rfl
      rw [List.take_zero, hnil]
      rfl
    | succ k ih =>
      -- past the last name nothing more is replaced
      cases hx : names[k]? with
      | none =>
        have hlen : names.length ≤ k := List.getElem?_eq_none_iff.1 hx
        rw [List.take_of_length_le hlen] at ih
        rwa [List.take_of_length_le (by omega)]
      | some x =>
        rw [hloop _ hx, ih, hsucc hx]
        cases hv : value x with
        | none => rw [among_none _ hv]
        | some v => exact (hm.replaceAll_among_iff (names.take k) hv).2 (hfree k x v hx hv)

end Marked

end Substitute
