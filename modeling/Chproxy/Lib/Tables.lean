/-
Finite maps as association lists without duplicate keys: what a map holds after a loop of
insertions, and the text `k=v&k=v&…` of a list of pairs, which can be read back when no name holds
the first separator and no value the second. Which texts are those of one list of pairs only is decided
by how often the first separator stands in them.
-/
import Mathlib.Data.List.AList
import Mathlib.Data.List.Sort

namespace Tables

variable {κ ν ω α : Type}

section Loops

variable [DecidableEq κ]

/-- An entry found after an insertion is the one inserted, or it was there before. -/
theorem lookup_insert_cases {m : AList fun _ : κ => ν} {k j : κ} {v x : ν} (h : (m.insert k v).lookup j = some x) :
    (j = k ∧ x = v) ∨ m.lookup j = some x := by
  by_cases hj : j = k
  · subst hj
    rw [AList.lookup_insert] at h
    exact .inl ⟨rfl, (Option.some.inj h).symm⟩
  · rw [AList.lookup_insert_ne hj] at h
    exact .inr h

/-- A loop over keys that sets some of them to a value of the key alone. -/
theorem lookup_foldl_insert (c : κ → Prop) [DecidablePred c] (v : κ → ν) (k : κ) :
    ∀ (ks : List κ) (m : AList fun _ : κ => ν),
      (ks.foldl (fun m k => if c k then m.insert k (v k) else m) m).lookup k =
        if k ∈ ks ∧ c k then some (v k) else m.lookup k
  | [], m => by simp
  | x :: ks, m => by
    rw [List.foldl_cons, lookup_foldl_insert c v k ks]
    by_cases hx : k = x
    · subst hx
      by_cases hc : c k <;> simp [hc]
    · by_cases hc : c x <;> simp [hc, hx, AList.lookup_insert_ne hx]

/-- A loop over pairs, with the values passed through `f`. -/
theorem lookup_foldl_pairs {β : Type} (key : β → κ) (val : β → ν) (f : ν → ω) (k : κ) :
    ∀ (ps : List β) (m : AList fun _ : κ => ν) (m' : AList fun _ : κ => ω),
      m'.lookup k = (m.lookup k).map f →
      (ps.foldl (fun m p => m.insert (key p) (f (val p))) m').lookup k =
        ((ps.foldl (fun m p => m.insert (key p) (val p)) m).lookup k).map f
  | [], m, m', h => h
  | p :: ps, m, m', h => by
    refine lookup_foldl_pairs key val f k ps _ _ ?_
    by_cases hk : k = key p
    · subst hk; simp
    · rw [AList.lookup_insert_ne hk, AList.lookup_insert_ne hk, h]

/-- A map as the list of its pairs: `ks` are its keys in any order. -/
theorem mem_map_lookup {m : AList fun _ : κ => ν} {ks : List κ} (hks : ∀ k, k ∈ ks ↔ k ∈ m) (d : ν) {k : κ} {v : ν} :
    (k, v) ∈ ks.map (fun k => (k, (m.lookup k).getD d)) ↔ m.lookup k = some v := by
  simp only [List.mem_map, Prod.mk.injEq]
  constructor
  · rintro ⟨k, hk, rfl, rfl⟩
    obtain ⟨v, hv⟩ := Option.isSome_iff_exists.1 (AList.lookup_isSome.2 ((hks k).1 hk))
    simp [hv]
  · intro h
    exact ⟨k, (hks k).2 (AList.lookup_isSome.1 (by simp [h])), rfl, by simp [h]⟩

end Loops

/-- The result of sorting does not depend on the order before. -/
theorem insertionSort_eq_of_perm (r : κ → κ → Prop) [DecidableRel r] [Std.Total r] [IsTrans κ r] [Std.Antisymm r]
    {l l' : List κ} (h : l.Perm l') : l.insertionSort r = l'.insertionSort r := by
  refine List.Perm.eq_of_pairwise (fun a b _ _ => Std.Antisymm.antisymm a b) (List.pairwise_insertionSort r l)
    (List.pairwise_insertionSort r l') ?_
  exact (List.perm_insertionSort r l).trans (h.trans (List.perm_insertionSort r l').symm)

/-! ## Pairs as text -/

/-- The text of a list of pairs: every name ends with `eq`, every value with `amp`. -/
def pairsText (eq amp : α) (ps : List (List α × List α)) : List α :=
  ps.flatMap fun p => p.1 ++ eq :: (p.2 ++ [amp])

/-- No name holds `eq` and no value holds `amp`. -/
def Plain (eq amp : α) (ps : List (List α × List α)) : Prop := ∀ p ∈ ps, eq ∉ p.1 ∧ amp ∉ p.2

theorem cut_unique {a : α} : ∀ {l l' r r' : List α}, a ∉ l → a ∉ l' → l ++ a :: r = l' ++ a :: r' → l = l' ∧ r = r'
  | [], [], r, r', _, _, h => ⟨rfl, by simpa using h⟩
  | [], x :: l', r, r', _, h', h => by
    simp only [List.nil_append, List.cons_append, List.cons.injEq] at h
    simp [h.1] at h'
  | x :: l, [], r, r', hl, _, h => by
    simp only [List.nil_append, List.cons_append, List.cons.injEq] at h
    simp [h.1] at hl
  | x :: l, y :: l', r, r', hl, hl', h => by
    simp only [List.mem_cons, not_or] at hl hl'
    simp only [List.cons_append, List.cons.injEq] at h
    obtain ⟨rfl, rfl⟩ := cut_unique hl.2 hl'.2 h.2
    exact ⟨by rw [h.1], rfl⟩

theorem pairsText_injective {eq amp : α} : ∀ {ps qs : List (List α × List α)}, Plain eq amp ps → Plain eq amp qs →
    pairsText eq amp ps = pairsText eq amp qs → ps = qs
  | [], [], _, _, _ => rfl
  | [], q :: qs, _, _, h => by simp [pairsText] at h
  | p :: ps, [], _, _, h => by simp [pairsText] at h
  | p :: ps, q :: qs, hp, hq, h => by
    have hp0 := hp p List.mem_cons_self
    have hq0 := hq q List.mem_cons_self
    simp only [pairsText, List.flatMap_cons, List.append_assoc, List.cons_append, List.nil_append] at h
    obtain ⟨hname, hrest⟩ := cut_unique hp0.1 hq0.1 h
    obtain ⟨hval, htail⟩ := cut_unique hp0.2 hq0.2 hrest
    have := pairsText_injective (fun x hx => hp x (List.mem_cons_of_mem _ hx))
      (fun x hx => hq x (List.mem_cons_of_mem _ hx)) htail
    rw [this, Prod.ext hname hval]

/-! ## Texts with one reading -/

theorem exists_pairsText_eq_append (eq amp : α) {ps : List (List α × List α)} (hps : ps ≠ []) :
    ∃ t, pairsText eq amp ps = t ++ [amp] := by
  obtain ⟨qs, q, rfl⟩ := (List.eq_nil_or_concat ps).resolve_left hps
  refine ⟨pairsText eq amp qs ++ (q.1 ++ eq :: q.2), ?_⟩
  simp [pairsText]

section Readings

variable [DecidableEq α] {eq amp : α} {ps qs : List (List α × List α)}

/-- At most one pair, and `eq` neither in its name nor in its value. -/
def Lone (eq : α) (ps : List (List α × List α)) : Prop := ps.length ≤ 1 ∧ ∀ p ∈ ps, eq ∉ p.1 ∧ eq ∉ p.2

theorem count_pairsText_cons (hne : amp ≠ eq) (p : List α × List α) (ps : List (List α × List α)) :
    (pairsText eq amp (p :: ps)).count eq = p.1.count eq + p.2.count eq + 1 + (pairsText eq amp ps).count eq := by
  simp only [pairsText, List.flatMap_cons, List.count_append, List.count_cons_self, List.count_cons_of_ne hne,
    List.count_nil]
  omega

theorem length_le_count_pairsText (hne : amp ≠ eq) : ∀ ps : List (List α × List α),
    ps.length ≤ (pairsText eq amp ps).count eq
  | [] => Nat.le_refl 0
  | p :: ps => by
    have ih := length_le_count_pairsText hne ps
    rw [count_pairsText_cons hne, List.length_cons]
    omega

omit [DecidableEq α] in
theorem Lone.tail_eq_nil {p : List α × List α} (h : Lone eq (p :: ps)) : ps = [] :=
  List.length_eq_zero_iff.1 (by simpa using h.1)

theorem lone_iff (hne : amp ≠ eq) : Lone eq ps ↔ (pairsText eq amp ps).count eq ≤ 1 := by
  cases ps with
  | nil => exact ⟨fun _ => Nat.zero_le 1, fun _ => ⟨Nat.zero_le 1, List.forall_mem_nil _⟩⟩
  | cons p ps =>
    have hlen := length_le_count_pairsText hne ps
    have hcount := count_pairsText_cons hne p ps
    constructor
    · intro hlone
      obtain rfl : ps = [] := hlone.tail_eq_nil
      obtain ⟨hname, hval⟩ := hlone.2 p List.mem_cons_self
      rw [hcount, List.count_eq_zero.2 hname, List.count_eq_zero.2 hval]
      exact Nat.le_refl 1
    · intro h
      obtain rfl : ps = [] := List.length_eq_zero_iff.1 (by omega)
      refine ⟨Nat.le_refl 1, fun q hq => ?_⟩
      obtain rfl := List.mem_singleton.1 hq
      exact ⟨List.count_eq_zero.1 (by omega), List.count_eq_zero.1 (by omega)⟩

/-- The text of a lone pair is the text of no other list of pairs. -/
theorem Lone.unique (hne : amp ≠ eq) (hp : Lone eq ps) (h : pairsText eq amp ps = pairsText eq amp qs) : ps = qs := by
  have hq : Lone eq qs := (lone_iff hne).2 (h ▸ (lone_iff hne).1 hp)
  cases ps with
  | nil =>
    cases qs with
    | nil => rfl
    | cons q qs => simp [pairsText] at h
  | cons p ps =>
    obtain rfl : ps = [] := hp.tail_eq_nil
    cases qs with
    | nil => simp [pairsText] at h
    | cons q qs =>
      obtain rfl : qs = [] := hq.tail_eq_nil
      simp only [pairsText, List.flatMap_cons, List.flatMap_nil, List.append_nil] at h
      obtain ⟨hname, hval⟩ := cut_unique (hp.2 p List.mem_cons_self).1 (hq.2 q List.mem_cons_self).1 h
      rw [Prod.ext hname (List.append_cancel_right hval)]

/-- Any other text is that of one pair in two ways: its name may end before the first `eq` and before
the second one. -/
theorem exists_readings (hne : amp ≠ eq) (h : ¬Lone eq ps) : ∃ k₁ v₁ k₂ v₂, k₁ ≠ k₂ ∧
    pairsText eq amp [(k₁, v₁)] = pairsText eq amp ps ∧ pairsText eq amp [(k₂, v₂)] = pairsText eq amp ps := by
  have hcount : 2 ≤ (pairsText eq amp ps).count eq := by
    have := mt (lone_iff hne).2 h
    omega
  have hps : ps ≠ [] := by
    rintro rfl
    exact absurd hcount (by simp [pairsText])
  obtain ⟨t, ht⟩ := exists_pairsText_eq_append eq amp hps
  rw [ht, List.count_append, List.count_cons_of_ne hne, List.count_nil] at hcount
  obtain ⟨a, b, rfl, ha⟩ := List.eq_append_cons_of_mem (List.count_pos_iff.1 (by omega : 0 < t.count eq))
  rw [List.count_append, List.count_cons_self, List.count_eq_zero.2 ha] at hcount
  -- two separators: the key ends at the first or at the second
  obtain ⟨c, d, rfl⟩ := List.append_of_mem (List.count_pos_iff.1 (by omega : 0 < b.count eq))
  refine ⟨a, c ++ eq :: d, a ++ eq :: c, d, ?_, ?_, ?_⟩
  · intro heq
    simpa using congrArg List.length heq
  · rw [ht]
    simp [pairsText]
  · rw [ht]
    simp [pairsText]

end Readings

end Tables
