/-
Readers: a state that a read with a buffer of some size turns into the next state, the elements read and,
at the end, the reason why there are no more. Reading may take any sequence of positive sizes and may
return nothing without being at the end.
-/
import Mathlib.Data.List.Basic

namespace Reader

variable {σ α ε : Type}

/-- Why a read ends the reading. -/
inductive End (ε : Type)
  | eof
  | error (e : ε)
  deriving DecidableEq, Repr

abbrev Read (σ α ε : Type) := σ → Nat → σ × List α × Option (End ε)

/-- Everything read with buffers of the sizes given, and how the reading ended if it did. -/
def readAll (read : Read σ α ε) : σ → List Nat → List α × Option (End ε)
  | _, [] => ([], none)
  | s, n :: ns =>
    match read s n with
    | (s', b, none) =>
      let res := readAll read s' ns
      (b ++ res.1, res.2)
    | (_, b, some e) => (b, some e)

/-- What successive reads return, those after the end included, and the state they leave. -/
def reads (read : Read σ α ε) : σ → List Nat → σ × List (List α × Option (End ε))
  | s, [] => (s, [])
  | s, n :: ns =>
    let r := read s n
    let rest := reads read r.1 ns
    (rest.1, r.2 :: rest.2)

/-- The elements that reads returned. -/
def content (rs : List (List α × Option (End ε))) : List α := rs.flatMap Prod.fst

theorem content_reads_append (read : Read σ α ε) : ∀ (s : σ) (ns ms : List Nat),
    content (reads read s (ns ++ ms)).2 =
      content (reads read s ns).2 ++ content (reads read (reads read s ns).1 ms).2
  | _, [], _ => rfl
  | s, n :: ns, ms => by
    have ih := content_reads_append read (read s n).1 ns ms
    simp only [content, List.cons_append, reads, List.flatMap_cons, List.append_assoc] at ih ⊢
    rw [ih]

/-- Whatever positive sizes are read, a beginning of `p` is read, and after enough reads all of it and
the end. -/
def Delivers (reading : List Nat → List α × Option (End ε)) (p : List α) : Prop :=
  ∃ bound, ∀ ns : List Nat, (∀ n ∈ ns, 0 < n) →
    (ns.length < bound ∧ (reading ns).2 = none ∧ (reading ns).1 <+: p) ∨ reading ns = (p, some .eof)

/-- The same with any end: a beginning of `p` is read, and after enough reads all of it and then `e`. -/
def EndsWith (reading : List Nat → List α × Option (End ε)) (p : List α) (e : End ε) : Prop :=
  ∃ bound, ∀ ns : List Nat, (∀ n ∈ ns, 0 < n) →
    (ns.length < bound ∧ (reading ns).2 = none ∧ (reading ns).1 <+: p) ∨ reading ns = (p, some e)

theorem delivers_iff {reading : List Nat → List α × Option (End ε)} {p : List α} :
    Delivers reading p ↔ EndsWith reading p .eof := Iff.rfl

/-- There is one way in which a reading ends. -/
theorem EndsWith.unique {reading : List Nat → List α × Option (End ε)} {p p' : List α} {e e' : End ε}
    (h : EndsWith reading p e) (h' : EndsWith reading p' e') : p = p' ∧ e = e' := by
  obtain ⟨bound, h⟩ := h
  obtain ⟨bound', h'⟩ := h'
  have hpos : ∀ n ∈ List.replicate (max bound bound') 1, 0 < n := fun n hn => by
    rw [List.eq_of_mem_replicate hn]
    exact Nat.one_pos
  rcases h _ hpos with ⟨hlt, -⟩ | hall
  · rw [List.length_replicate] at hlt
    omega
  rcases h' _ hpos with ⟨hlt, -⟩ | hall'
  · rw [List.length_replicate] at hlt
    omega
  rw [hall] at hall'
  simpa using hall'

/-- A way to the end `e`: `I s p k` says that in state `s` there is `p` left to be read, in at most `k` reads.
A read returns the next elements of what is left, or nothing is left and it ends. -/
structure Course (read : Read σ α ε) (I : σ → List α → Nat → Prop) (e : End ε) : Prop where
  step : ∀ s p k n, I s p k → 0 < n →
    (∃ s' b p' k', read s n = (s', b, none) ∧ I s' p' k' ∧ p = b ++ p' ∧ k' < k) ∨
    (∃ s', read s n = (s', [], some e) ∧ p = [])

section

variable {read : Read σ α ε} {I : σ → List α → Nat → Prop} {e : End ε}

theorem Course.readAll_cases (h : Course read I e) {s : σ} {p : List α} {k : Nat} (hs : I s p k) {ns : List Nat}
    (hns : ∀ n ∈ ns, 0 < n) :
    (ns.length ≤ k ∧ (readAll read s ns).2 = none ∧ (readAll read s ns).1 <+: p) ∨
      readAll read s ns = (p, some e) := by
  induction ns generalizing s p k with
  | nil => exact .inl ⟨by simp, rfl, by simp [readAll]⟩
  | cons n ns ih =>
    rcases h.step s p k n hs (hns n List.mem_cons_self) with ⟨s', b, p', k', hread, hs', rfl, hlt⟩ | ⟨s', hread, rfl⟩
    · rcases ih hs' fun m hm => hns m (List.mem_cons_of_mem _ hm) with ⟨hlen, hend, hle⟩ | hall
      · refine .inl ⟨by simp only [List.length_cons]; omega, ?_, ?_⟩
        · simp only [readAll, hread, hend]
        · simp only [readAll, hread]
          exact (List.prefix_append_right_inj b).2 hle
      · right
        simp only [readAll, hread, hall]
    · right
      simp only [readAll, hread]

theorem Course.endsWith (h : Course read I e) {s : σ} {p : List α} {k : Nat} (hs : I s p k) :
    EndsWith (readAll read s) p e :=
  ⟨k + 1, fun _ hns => (h.readAll_cases hs hns).imp_left fun ⟨hlen, hrest⟩ => ⟨Nat.lt_succ_of_le hlen, hrest⟩⟩

/-- More reads than the bound end the reading. -/
theorem Course.readAll_eq (h : Course read I e) {s : σ} {p : List α} {k : Nat} (hs : I s p k) {ns : List Nat}
    (hns : ∀ n ∈ ns, 0 < n) (hlt : k < ns.length) : readAll read s ns = (p, some e) := by
  rcases h.readAll_cases hs hns with ⟨hle, -⟩ | h
  · omega
  · exact h

end

/-- The course of a reader in which what is left (`R`) and the measure (`M`) can be computed from the state. -/
structure ProgressTo (read : Read σ α ε) (I : σ → Prop) (R : σ → List α) (M : σ → Nat) (e : End ε) : Prop where
  step : ∀ s n, I s → 0 < n →
    (∃ s' b, read s n = (s', b, none) ∧ I s' ∧ R s = b ++ R s' ∧ M s' < M s) ∨
    (∃ s', read s n = (s', [], some e) ∧ R s = [])

/-- Progress towards the end of the data. -/
abbrev Progress (read : Read σ α ε) (I : σ → Prop) (R : σ → List α) (M : σ → Nat) : Prop :=
  ProgressTo read I R M .eof

section

variable {read : Read σ α ε} {I : σ → Prop} {R : σ → List α} {M : σ → Nat} {e : End ε}

theorem ProgressTo.course (h : ProgressTo read I R M e) :
    Course read (fun s p k => I s ∧ p = R s ∧ k = M s) e := by
  refine ⟨fun s p k n hs hn => ?_⟩
  obtain ⟨hI, rfl, rfl⟩ := hs
  rcases h.step s n hI hn with ⟨s', b, hread, hI', hrest, hlt⟩ | hend
  · exact .inl ⟨s', b, R s', M s', hread, ⟨hI', rfl, rfl⟩, hrest, hlt⟩
  · exact .inr hend

theorem ProgressTo.endsWith (h : ProgressTo read I R M e) {s : σ} (hs : I s) : EndsWith (readAll read s) (R s) e :=
  h.course.endsWith ⟨hs, rfl, rfl⟩

theorem ProgressTo.delivers (h : Progress read I R M) {s : σ} (hs : I s) : Delivers (readAll read s) (R s) :=
  delivers_iff.2 (h.endsWith hs)

theorem ProgressTo.readAll_eq (h : ProgressTo read I R M e) {s : σ} (hs : I s) {ns : List Nat}
    (hns : ∀ n ∈ ns, 0 < n) (hlt : M s < ns.length) : readAll read s ns = (R s, some e) :=
  h.course.readAll_eq ⟨hs, rfl, rfl⟩ hns hlt

end

/-- What was read and what follows it. -/
theorem take_append_drop_length (l : List α) (n : Nat) : l.take n ++ l.drop (l.take n).length = l := by
  rw [List.length_take]
  rcases Nat.le_total n l.length with h | h
  · rw [Nat.min_eq_left h, List.take_append_drop]
  · rw [Nat.min_eq_right h, List.drop_length, List.append_nil, List.take_of_length_le h]

/-- Reading from memory or from a file that does not change; the state is what is left. -/
def slice : Read (List α) α ε
  | [], _ => ([], [], some .eof)
  | a :: as, n => ((a :: as).drop n, (a :: as).take n, none)

theorem slice_progress : Progress (slice : Read (List α) α ε) (fun _ => True) id List.length := by
  refine ⟨fun s n _ hn => ?_⟩
  cases s with
  | nil => exact .inr ⟨[], rfl, rfl⟩
  | cons a as =>
    refine .inl ⟨_, _, rfl, trivial, (List.take_append_drop n (a :: as)).symm, ?_⟩
    rw [List.length_drop, List.length_cons]
    omega

theorem slice_delivers (p : List α) : Delivers (readAll (slice : Read (List α) α ε) p) p :=
  slice_progress.delivers trivial

end Reader
