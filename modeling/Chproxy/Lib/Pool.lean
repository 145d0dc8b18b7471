/-
Pools of threads over shared data: any number of threads, spawned at any time, each advancing by
atomic steps on the shared data, in any interleaving with each other and with the environment.

The ledger rule is the one used most: when every step of a thread changes a shared quantity by
exactly the change of what that thread holds of it, the quantity always equals the number of threads
holding it.
-/
import Chproxy.Lib.Steps
import Mathlib.Algebra.Group.Basic
import Mathlib.Data.Nat.Cast.Defs
import Mathlib.Logic.Function.Basic

namespace Pool

/-- A pool: the shared data and the threads spawned so far. -/
structure St (η τ : Type) where
  shared : η
  threads : List τ

/-- The program every thread runs: how a thread starts, one atomic step of it, and what the
environment may do to the shared data. -/
structure Program (η τ ι χ ε : Type) where
  spawn : ι → τ
  step : η → τ → χ → Option (η × τ)
  env : η → ε → Option η

inductive Act (ι χ ε : Type)
  | spawn (i : ι)
  | step (n : Nat) (c : χ)
  | env (e : ε)

/-- How a shared table moves when one thread goes from holding `o` to holding `o'`: both keep what
they have, or the thread takes one unit of an entry, or it gives one back. -/
inductive Transfer {κ V : Type} [Add V] [One V] (f f' : κ → V) (o o' : Option κ) : Prop
  | keep : f' = f → o' = o → Transfer f f' o o'
  | take (k : κ) : f' k = f k + 1 → (∀ j, j ≠ k → f' j = f j) → o = none → o' = some k → Transfer f f' o o'
  | give (k : κ) : f' k + 1 = f k → (∀ j, j ≠ k → f' j = f j) → o = some k → o' = none → Transfer f f' o o'

theorem Transfer.take_update {κ V : Type} [DecidableEq κ] [Add V] [One V] (f : κ → V) {k : κ} {v : V}
    (hv : v = f k + 1) : Transfer f (Function.update f k v) none (some k) :=
  .take k (by rw [Function.update_self, hv]) (fun _ hj => Function.update_of_ne hj ..) rfl rfl

theorem Transfer.give_update {κ V : Type} [DecidableEq κ] [Add V] [One V] (f : κ → V) {k : κ} {v : V}
    (hv : v + 1 = f k) : Transfer f (Function.update f k v) (some k) none :=
  .give k (by rw [Function.update_self, hv]) (fun _ hj => Function.update_of_ne hj ..) rfl rfl

theorem Transfer.balance {κ V : Type} [DecidableEq κ] [AddMonoidWithOne V] {f f' : κ → V} {o o' : Option κ}
    (h : Transfer f f' o o') (k : κ) :
    f' k + ((decide (o = some k)).toNat : V) = f k + ((decide (o' = some k)).toNat : V) := by
  cases h with
  | keep hf ho => rw [hf, ho]
  | take j hj hne ho ho' =>
    subst ho ho'
    by_cases hk : j = k
    · subst hk; simp [hj]
    · simp [hne k (Ne.symm hk), hk]
  | give j hj hne ho ho' =>
    subst ho ho'
    by_cases hk : j = k
    · subst hk; simp [hj]
    · simp [hne k (Ne.symm hk), hk]

theorem forall_mem_concat {α : Type} {P : α → Prop} {l : List α} {a : α} (hl : ∀ x ∈ l, P x) (ha : P a) :
    ∀ x ∈ l ++ [a], P x :=
  List.forall_mem_append.2 ⟨hl, List.forall_mem_singleton.2 ha⟩

theorem forall_mem_set {α : Type} {P : α → Prop} {l : List α} {n : Nat} {a : α} (hl : ∀ x ∈ l, P x) (ha : P a) :
    ∀ x ∈ l.set n a, P x := by
  intro x hx
  rcases List.mem_or_eq_of_mem_set hx with hx | rfl
  · exact hl x hx
  · exact ha

/-- Who is in the pool after one thread has moved. -/
theorem mem_set_cases {α : Type} {l : List α} {n : Nat} {x a : α} (h : x ∈ l.set n a) :
    x = a ∨ ∃ i, i ≠ n ∧ l[i]? = some x := by
  obtain ⟨i, hi⟩ := List.mem_iff_getElem?.1 h
  by_cases hn : n = i
  · subst hn
    rw [List.getElem?_set_self'] at hi
    obtain ⟨_, -, rfl⟩ := Option.map_eq_some_iff.1 hi
    exact .inl rfl
  · rw [List.getElem?_set_ne hn] at hi
    exact .inr ⟨i, Ne.symm hn, hi⟩

/-- A thread that did not move is still in the pool. -/
theorem mem_set_of_ne {α : Type} {l : List α} {n : Nat} {x a b : α} (hx : x ∈ l) (hn : l[n]? = some b) (hne : x ≠ b) :
    x ∈ l.set n a := by
  obtain ⟨i, hi⟩ := List.mem_iff_getElem?.1 hx
  have hni : n ≠ i := by
    rintro rfl
    rw [hn] at hi
    exact hne (Option.some.inj hi).symm
  apply List.mem_of_getElem? (i := i)
  rw [List.getElem?_set_ne hni, hi]

theorem mem_set_self {α : Type} {l : List α} {n : Nat} {a b : α} (hn : l[n]? = some b) : a ∈ l.set n a := by
  apply List.mem_of_getElem? (i := n)
  rw [List.getElem?_set_self', hn]
  rfl

/-- What the moved thread keeps, the list of all threads keeps. -/
theorem map_set_of_eq {α β : Type} (f : α → β) {l : List α} {n : Nat} {a b : α} (ha : l[n]? = some a) (hf : f b = f a) :
    (l.set n b).map f = l.map f := by
  refine List.ext_getElem? fun i => ?_
  rw [List.getElem?_map, List.getElem?_map]
  by_cases hi : n = i
  · subst hi
    simp [List.getElem?_set_self', ha, hf]
  · rw [List.getElem?_set_ne hi]

/-- No two threads bear the same label. -/
def Labelled {α β : Type} (f : α → Option β) (l : List α) : Prop :=
  ∀ (i j : Nat) (x y : α) (b : β), l[i]? = some x → l[j]? = some y → f x = some b → f y = some b → i = j

theorem labelled_concat {α β : Type} {f : α → Option β} {l : List α} {a : α} (hl : Labelled f l)
    (ha : ∀ b, f a = some b → ∀ x ∈ l, f x ≠ some b) : Labelled f (l ++ [a]) := by
  have hcases : ∀ {i : Nat} {x : α}, (l ++ [a])[i]? = some x → l[i]? = some x ∨ i = l.length ∧ x = a := by
    intro i x hi
    rw [List.getElem?_append] at hi
    split at hi
    · exact .inl hi
    · obtain ⟨hlt, rfl⟩ := List.getElem?_eq_some_iff.1 hi
      rw [List.length_singleton] at hlt
      exact .inr ⟨by omega, by simp⟩
  intro i j x y b hi hj hx hy
  rcases hcases hi with hx' | ⟨rfl, rfl⟩ <;> rcases hcases hj with hy' | ⟨rfl, rfl⟩
  · exact hl i j x y b hx' hy' hx hy
  · exact (ha b hy x (List.mem_of_getElem? hx') hx).elim
  · exact (ha b hx y (List.mem_of_getElem? hy') hy).elim
  · rfl

/-- A thread keeps its label, or takes one that nobody bears. -/
theorem labelled_set {α β : Type} {f : α → Option β} {l : List α} {n : Nat} {a a' : α} (hl : Labelled f l)
    (hn : l[n]? = some a) (ha : f a' = f a ∨ ∀ b, f a' = some b → ∀ x ∈ l, f x ≠ some b) :
    Labelled f (l.set n a') := by
  have hself : (l.set n a')[n]? = some a' := by rw [List.getElem?_set_self', hn]; rfl
  -- an index other than the moved thread's that bears the label the moved thread has now
  have hother : ∀ {i : Nat} {x : α} {b : β}, n ≠ i → l[i]? = some x → f x = some b → f a' = some b → False := by
    intro i x b hne hi hx hb
    rcases ha with heq | hfresh
    · exact hne (hl n i a x b hn hi (heq ▸ hb) hx)
    · exact hfresh b hb x (List.mem_of_getElem? hi) hx
  intro i j x y b hi hj hx hy
  by_cases hni : n = i
  · subst hni
    rw [hself] at hi
    cases hi
    by_contra hne
    rw [List.getElem?_set_ne hne] at hj
    exact hother hne hj hy hx
  · rw [List.getElem?_set_ne hni] at hi
    by_cases hnj : n = j
    · subst hnj
      rw [hself] at hj
      cases hj
      exact (hother hni hi hx hy).elim
    · rw [List.getElem?_set_ne hnj] at hj
      exact hl i j x y b hi hj hx hy

variable {η τ ι χ ε : Type}

namespace Program

variable (P : Program η τ ι χ ε)

def next (s : St η τ) : Act ι χ ε → Option (St η τ)
  | .spawn i => some { s with threads := s.threads ++ [P.spawn i] }
  | .step n c => do
    let t ← s.threads[n]?
    let (h, t') ← P.step s.shared t c
    some ⟨h, s.threads.set n t'⟩
  | .env e => do
    let h ← P.env s.shared e
    some { s with shared := h }

variable {P} {s s' : St η τ} {a : Act ι χ ε}

/-- Everything a transition of the pool can be. -/
theorem next_cases (h : P.next s a = some s') :
    (∃ i, a = .spawn i ∧ s' = ⟨s.shared, s.threads ++ [P.spawn i]⟩) ∨
    (∃ n c t h' t', a = .step n c ∧ s.threads[n]? = some t ∧ P.step s.shared t c = some (h', t') ∧
      s' = ⟨h', s.threads.set n t'⟩) ∨
    (∃ e h', a = .env e ∧ P.env s.shared e = some h' ∧ s' = ⟨h', s.threads⟩) := by
  cases a with
  | spawn i => exact .inl ⟨i, rfl, by simpa [next] using h.symm⟩
  | step n c =>
    simp only [next, Option.bind_eq_bind, Option.bind_eq_some_iff, Option.some.injEq] at h
    obtain ⟨t, ht, ⟨h', t'⟩, hst, rfl⟩ := h
    exact .inr (.inl ⟨n, c, t, h', t', rfl, ht, hst, rfl⟩)
  | env e =>
    simp only [next, Option.bind_eq_bind, Option.bind_eq_some_iff, Option.some.injEq] at h
    obtain ⟨h', he, rfl⟩ := h
    exact .inr (.inr ⟨e, h', rfl, he, rfl⟩)

/-! ## One thread alone -/

theorem next_step {h' : η} {t t' : τ} {n : Nat} {c : χ} (ht : s.threads[n]? = some t)
    (hst : P.step s.shared t c = some (h', t')) : P.next s (.step n c) = some ⟨h', s.threads.set n t'⟩ := by
  simp only [next, ht, hst, Option.bind_eq_bind, Option.bind_some]

theorem next_env {h' : η} {e : ε} (he : P.env s.shared e = some h') :
    P.next s (.env e) = some ⟨h', s.threads⟩ := by
  simp only [next, he, Option.bind_eq_bind, Option.bind_some]

variable (P) in
/-- The steps of a thread that no other interferes with. -/
def alone (x : η × τ) (c : χ) : Option (η × τ) := P.step x.1 x.2 c

theorem run_alone : ∀ (cs : List χ) {l : List τ} {n : Nat} {h h' : η} {t t' : τ}, l[n]? = some t →
    Steps.run P.alone (h, t) cs = some (h', t') →
    Steps.run P.next ⟨h, l⟩ (cs.map (.step n)) = some ⟨h', l.set n t'⟩
  | [], l, n, h, h', t, t', ht, hr => by
    cases hr
    obtain ⟨hn, rfl⟩ := List.getElem?_eq_some_iff.1 ht
    rw [List.set_getElem_self]
    rfl
  | c :: cs, l, n, h, h', t, t', ht, hr => by
    obtain ⟨⟨h₁, t₁⟩, h1, h2⟩ := Option.bind_eq_some_iff.1 hr
    have ht₁ : (l.set n t₁)[n]? = some t₁ := by rw [List.getElem?_set_self', ht]; rfl
    have ih := run_alone cs ht₁ h2
    rw [List.set_set] at ih
    rw [List.map_cons, Steps.run, next_step ht h1, Option.bind_some, ih]

/-! ## Counting threads -/

theorem countP_set (p : τ → Bool) :
    ∀ {l : List τ} {n : Nat} {t : τ} (t' : τ), l[n]? = some t →
      (l.set n t').countP p + (p t).toNat = l.countP p + (p t').toNat
  | [], n, t, t', h => by simp at h
  | x :: l, 0, t, t', h => by
    simp only [List.getElem?_cons_zero, Option.some.injEq] at h
    subst h
    simp only [List.set_cons_zero, List.countP_cons]
    cases p x <;> cases p t' <;> simp
  | x :: l, n + 1, t, t', h => by
    have := countP_set p (l := l) (n := n) t' (by simpa using h)
    simp only [List.set_cons_succ, List.countP_cons]
    omega

/-- The ledger rule for one transition. -/
theorem ledger_next {R : Type} [AddMonoidWithOne R] [IsRightCancelAdd R] {f : η → R} {p : τ → Bool}
    {W : τ → Prop} (hspawn : ∀ i, p (P.spawn i) = false)
    (hstep : ∀ h t c h' t', W t → P.step h t c = some (h', t') →
      f h' + ((p t).toNat : R) = f h + ((p t').toNat : R))
    (henv : ∀ h e h', P.env h e = some h' → f h' = f h)
    (hW : ∀ t ∈ s.threads, W t) (hn : P.next s a = some s')
    (hf : f s.shared = (s.threads.countP p : R)) : f s'.shared = (s'.threads.countP p : R) := by
  obtain ⟨i, -, rfl⟩ | ⟨n, c, t, h', t', -, ht, hst, rfl⟩ | ⟨e, h', -, he, rfl⟩ := next_cases hn
  · simp [hf, hspawn]
  · have hc := hstep _ _ _ _ _ (hW t (List.mem_of_getElem? ht)) hst
    have hcount := congrArg (Nat.cast : Nat → R) (countP_set p t' ht)
    push_cast at hcount
    rw [hf, ← hcount] at hc
    exact add_right_cancel hc
  · simpa [henv _ _ _ he] using hf

/-- Everything held of a shared table is counted in it. -/
theorem transfer_next {κ V : Type} [DecidableEq κ] [AddMonoidWithOne V] [IsRightCancelAdd V] {f : η → κ → V}
    {o : τ → Option κ} {W : τ → Prop} (hspawn : ∀ i, o (P.spawn i) = none)
    (hstep : ∀ h t c h' t', W t → P.step h t c = some (h', t') → Transfer (f h) (f h') (o t) (o t'))
    (henv : ∀ h e h', P.env h e = some h' → f h' = f h)
    (hW : ∀ t ∈ s.threads, W t) (hn : P.next s a = some s')
    (hf : ∀ k, f s.shared k = (s.threads.countP (fun t => decide (o t = some k)) : V)) (k : κ) :
    f s'.shared k = (s'.threads.countP (fun t => decide (o t = some k)) : V) :=
  ledger_next (f := fun h => f h k) (fun i => by simp [hspawn])
    (fun h t c h' t' hw hst => (hstep h t c h' t' hw hst).balance k)
    (fun h e h' he => congrFun (henv h e h' he) k) hW hn (hf k)

/-! ## Tickets -/

/-- The holders of a counter, each with the value the counter returned to it: at most `k` of them
drew a value of at most `k`. -/
def Tickets (p : τ → Bool) (v : τ → Nat) (l : List τ) : Prop :=
  ∀ k, l.countP (fun t => p t && decide (v t ≤ k)) ≤ k

/-- Drawing the number of holders plus one, and giving up a holding, keep `Tickets`. -/
theorem tickets_set {p : τ → Bool} {v : τ → Nat} {l : List τ} {n : Nat} {t t' : τ} (ht : l[n]? = some t)
    (hstep : (p t' = true → p t = true ∧ v t' = v t) ∨ (p t = false ∧ v t' = l.countP p + 1))
    (hl : Tickets p v l) : Tickets p v (l.set n t') := by
  intro k
  have hset := countP_set (fun t => p t && decide (v t ≤ k)) t' ht
  have hk := hl k
  rcases hstep with hkeep | ⟨hpt, hv⟩
  · -- the thread counts after the step only where it counted before
    have hle : (p t' && decide (v t' ≤ k)).toNat ≤ (p t && decide (v t ≤ k)).toNat := by
      cases hp : p t' with
      | false => simp
      | true => obtain ⟨h1, h2⟩ := hkeep hp; simp [h1, h2]
    omega
  · by_cases hvk : v t' ≤ k
    · calc (l.set n t').countP (fun t => p t && decide (v t ≤ k))
          ≤ (l.set n t').countP p :=
            List.countP_mono_left fun x _ hx => by simp only [Bool.and_eq_true] at hx; exact hx.1
        _ ≤ l.countP p + 1 := by have := countP_set p t' ht; have := Bool.toNat_le (p t'); omega
        _ ≤ k := by omega
    · simp only [hvk, decide_false, Bool.and_false, hpt, Bool.false_and, Bool.toNat_false] at hset
      omega

/-! ## Ranks -/

/-- What each thread is counted for in two ways, all of them are. -/
theorem countP_eq_add {p q r : τ → Bool} {l : List τ} (h : ∀ t ∈ l, (p t).toNat = (q t).toNat + (r t).toNat) :
    l.countP p = l.countP q + l.countP r := by
  induction l with
  | nil => rfl
  | cons t l ih =>
    have ht := h t List.mem_cons_self
    have hl := ih fun x hx => h x (List.mem_cons_of_mem t hx)
    have hone : ∀ b : Bool, (if b = true then 1 else 0) = b.toNat := fun b => by cases b <;> rfl
    simp only [List.countP_cons, hone]
    omega

theorem countP_or_le (p q : τ → Bool) (l : List τ) : l.countP (fun t => p t || q t) ≤ l.countP p + l.countP q := by
  induction l with
  | nil => simp
  | cons t l ih =>
    simp only [List.countP_cons]
    cases p t <;> cases q t <;> simp <;> omega

/-- The draws so far, each of a value not above its rank: `k` of them came before any that drew more
than `k`. -/
def Ranked (p : τ → Bool) (v : τ → Nat) (l : List τ) : Prop :=
  ∀ k, 0 < l.countP (fun t => p t && decide (k < v t)) →
    l.countP (fun t => p t && decide (k < v t)) + k ≤ l.countP p

/-- A draw of at most the number of draws keeps `Ranked`; so does a step that leaves the draw alone. -/
theorem ranked_set {p : τ → Bool} {v : τ → Nat} {l : List τ} {n : Nat} {t t' : τ} (ht : l[n]? = some t)
    (hstep : (p t' = p t ∧ (p t = true → v t' = v t)) ∨
      (p t = false ∧ p t' = true ∧ v t' ≤ l.countP p + 1))
    (hl : Ranked p v l) : Ranked p v (l.set n t') := by
  intro k hpos
  have hset := countP_set p t' ht
  have habove := countP_set (fun t => p t && decide (k < v t)) t' ht
  have hk := hl k
  rcases hstep with ⟨hp, hv⟩ | ⟨hp, hp', hv⟩
  · -- no draw: both counts stay
    have hsame : (p t' && decide (k < v t')) = (p t && decide (k < v t)) := by
      cases h : p t with
      | false => simp [hp, h]
      | true => simp [hp, h, hv h]
    rw [hp] at hset
    rw [hsame] at habove
    omega
  · simp only [hp, hp', Bool.false_and, Bool.true_and, Bool.toNat_false, Bool.toNat_true] at hset habove
    -- a draw of at most the new count, so that the rank above `k` is free
    by_cases hkv : k < v t'
    · simp only [hkv, decide_true, Bool.toNat_true] at habove
      omega
    · simp only [hkv, decide_false, Bool.toNat_false] at habove
      omega

/-- What a thread starts with and keeps by its own steps, every thread keeps. -/
theorem local_next {W : τ → Prop} (hspawn : ∀ i, W (P.spawn i))
    (hstep : ∀ h t c h' t', W t → P.step h t c = some (h', t') → W t')
    (hW : ∀ t ∈ s.threads, W t) (hn : P.next s a = some s') : ∀ t ∈ s'.threads, W t := by
  obtain ⟨i, -, rfl⟩ | ⟨n, c, t, h', t', -, ht, hst, rfl⟩ | ⟨e, h', -, -, rfl⟩ := next_cases hn
  · exact forall_mem_concat hW (hspawn i)
  · exact forall_mem_set hW (hstep _ _ _ _ _ (hW t (List.mem_of_getElem? ht)) hst)
  · exact hW

/-- An invariant of the shared data together with one of every thread, which may speak of the shared data
when the steps of the others keep it. -/
theorem shared_next {I : η → Prop} {W : η → τ → Prop} (hspawn : ∀ i, W s.shared (P.spawn i))
    (hstep : ∀ n c t h' t', a = .step n c → s.threads[n]? = some t → P.step s.shared t c = some (h', t') →
      I h' ∧ W h' t' ∧ ∀ x ∈ s.threads, W s.shared x → W h' x)
    (henv : ∀ e h', a = .env e → P.env s.shared e = some h' → I h' ∧ ∀ x ∈ s.threads, W s.shared x → W h' x)
    (hI : I s.shared) (hW : ∀ t ∈ s.threads, W s.shared t) (hn : P.next s a = some s') :
    I s'.shared ∧ ∀ t ∈ s'.threads, W s'.shared t := by
  obtain ⟨i, -, rfl⟩ | ⟨n, c, t, h', t', rfl, ht, hst, rfl⟩ | ⟨e, h', rfl, he, rfl⟩ := next_cases hn
  · exact ⟨hI, forall_mem_concat hW (hspawn i)⟩
  · obtain ⟨hI', ht', hothers⟩ := hstep n c t h' t' rfl ht hst
    exact ⟨hI', forall_mem_set (fun x hx => hothers x hx (hW x hx)) ht'⟩
  · obtain ⟨hI', hothers⟩ := henv e h' rfl he
    exact ⟨hI', fun x hx => hothers x hx (hW x hx)⟩

end Program

end Pool
