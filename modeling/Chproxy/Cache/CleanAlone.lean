/-
`fileSystemCache.clean` and `walkDir` (`cache/filesystem_cache.go`, `cache/utils.go`) as functions, for a clean
during which nothing else changes the directory: the expiry pass, the rounds of eviction and the stats stored at the
end. The directory holds whatever it holds, files of the cache or not.

`removedSize` and `removedItems` are only logged and are left out.
-/
import Chproxy.Cache.KeyText
import Chproxy.Lib.Tally

namespace Chproxy.Cache.Clean

open Tallies (Follows)

/-! ## Directories -/

/-- `os.FileInfo`; times are in nanoseconds. -/
structure FileInfo where
  name : String
  isDir : Bool
  size : Nat
  modTime : Int
  deriving DecidableEq, Repr

/-- The entries that `walkDir` does not skip. -/
def FileInfo.isCacheFile (fi : FileInfo) : Bool := !fi.isDir && cachefileRegexp fi.name

@[ext]
structure Directory where
  entries : List FileInfo
  nodup : (entries.map FileInfo.name).Nodup

namespace Directory

/-- The entries for which `keep` holds. -/
def restrict (d : Directory) (keep : FileInfo → Bool) : Directory :=
  ⟨d.entries.filter keep, d.nodup.sublist (List.filter_sublist.map _)⟩

def remove (d : Directory) (name : String) : Directory := d.restrict fun fi => fi.name != name

/-- The cache files. -/
def files (d : Directory) : List FileInfo := d.entries.filter FileInfo.isCacheFile

def bytes (d : Directory) : Nat := (d.files.map FileInfo.size).sum

def items (d : Directory) : Nat := d.files.length

variable {d : Directory} {x y : FileInfo}

theorem mem_entries (h : x ∈ d.files) : x ∈ d.entries := (List.mem_filter.1 h).1

/-- No other entry has the name of `y`. -/
theorem eq_of_name (hx : x ∈ d.entries) (hy : y ∈ d.entries) (h : x.name = y.name) : x = y :=
  List.inj_on_of_nodup_map d.nodup hx hy h

theorem nodup_files (d : Directory) : (d.files.map FileInfo.name).Nodup :=
  d.nodup.sublist (List.filter_sublist.map _)

theorem files_restrict (d : Directory) (keep : FileInfo → Bool) : (d.restrict keep).files = d.files.filter keep := by
  change (d.entries.filter keep).filter _ = (d.entries.filter _).filter keep
  rw [List.filter_filter, List.filter_filter]
  apply List.filter_congr
  intro fi _
  exact Bool.and_comm _ _

end Directory

/-! ## The source -/

/-- `time.Duration` of the time from `u` to `t`: `Time.Sub`, which saturates. -/
def timeSub (t u : Int) : Int64 :=
  if t - u > Int64.maxValue.toInt then .maxValue
  else if t - u < Int64.minValue.toInt then .minValue
  else .ofInt (t - u)

structure Settings where
  maxSize : UInt64
  expire : Int64
  grace : Int64

/-- The file is old enough to be removed by the expiry pass at the time `now`. -/
def Settings.expired (st : Settings) (now : Int) (fi : FileInfo) : Bool :=
  decide (timeSub now fi.modTime > st.expire + st.grace)

/-- Whatever the code does not decide. Walks are numbered from 0, the expiry pass; `listing k entries` is what the calls
of `Readdir` in walk `k` return for a directory with these entries, and `fails k` says that the walk ends
with an error. `percent k excessSize totalSize` is the value of
`int32(float64(excessSize) / float64(totalSize) * 100)` in the round after `k` others. -/
structure Environment where
  currentTime : Int
  listing : Nat → List FileInfo → List (List FileInfo)
  fails : Nat → Bool
  removable : Nat → String → Bool
  draw : Nat → String → Fin 100
  percent : Nat → UInt64 → UInt64 → Int

/-- The variables of `clean`. -/
structure State where
  dir : Directory
  totalSize : UInt64
  totalItems : UInt64

structure Stats where
  size : UInt64
  items : UInt64
  deriving DecidableEq, Repr

/-- How `clean` ends: with the stats stored, after so many rounds, or in an error. -/
inductive Outcome
  | stored (loopsCount : Nat) (dir : Directory) (stats : Stats)
  | failed (dir : Directory)
  | outOfFuel

section Source

variable (st : Settings) (env : Environment)

/-- `os.Remove` in walk `k`. -/
def osRemove (k : Nat) (d : Directory) (name : String) : Option Directory :=
  if name ∈ d.entries.map FileInfo.name ∧ env.removable k name = true then some (d.remove name) else none

/-- The loop over the batches of entries. -/
def walkDir (f : State → FileInfo → State) (batches : List (List FileInfo)) (s : State) : State :=
  batches.foldl (fun s fis =>
    fis.foldl (fun s fi =>
      if fi.isDir then s
      else if !cachefileRegexp fi.name then s
      else f s fi) s) s

/-- The function of the expiry pass. -/
def countFile (s : State) (fi : FileInfo) : State :=
  let fs := UInt64.ofNat fi.size
  let counted := { s with totalSize := s.totalSize + fs, totalItems := s.totalItems + 1 }
  if st.expired env.currentTime fi then
    match osRemove env 0 s.dir fi.name with
    | some dir => { s with dir := dir }
    | none => counted
  else counted

/-- The function of round `k` of the eviction. -/
def evictFile (k : Nat) (p : Int) (s : State) (fi : FileInfo) : State :=
  if (env.draw k fi.name : Int) > p then s
  else
    let fs := UInt64.ofNat fi.size
    match osRemove env (k + 1) s.dir fi.name with
    | none => s
    | some dir => ⟨dir, s.totalSize - fs, s.totalItems - 1⟩

def expiryPass (d : Directory) : State := walkDir (countFile st env) (env.listing 0 d.entries) ⟨d, 0, 0⟩

def evictionRound (k : Nat) (s : State) : State :=
  let excessSize := s.totalSize - st.maxSize
  let p := env.percent k excessSize s.totalSize + 10
  walkDir (evictFile env k p) (env.listing (k + 1) s.dir.entries) s

def evictionLoop : Nat → Nat → State → Outcome
  | 0, _, _ => .outOfFuel
  | fuel + 1, loopsCount, s =>
    if s.totalSize > st.maxSize ∧ loopsCount < 3 then
      let s := evictionRound st env loopsCount s
      if env.fails (loopsCount + 1) then .failed s.dir else evictionLoop fuel (loopsCount + 1) s
    else .stored loopsCount s.dir ⟨s.totalSize, s.totalItems⟩

def clean (fuel : Nat) (d : Directory) : Outcome :=
  let s := expiryPass st env d
  if env.fails 0 then .failed s.dir else evictionLoop st env fuel 0 s

end Source

/-- No walk fails, and each visits every entry once. -/
structure Environment.Undisturbed (env : Environment) : Prop where
  listed : ∀ k entries, (env.listing k entries).flatten.Perm entries
  walks : ∀ k, env.fails k = false

/-! ## One walk -/

/-- Without the cache files for which `g` holds. -/
def Directory.without (d : Directory) (g : FileInfo → Bool) : Directory :=
  d.restrict fun fi => !(fi.isCacheFile && g fi)

/-- Without those of the files `l`. -/
def Directory.sweep (d : Directory) (l : List FileInfo) (g : FileInfo → Bool) : Directory :=
  d.restrict fun fi => !(decide (fi ∈ l) && g fi)

section Sweep

variable {d : Directory} {g : FileInfo → Bool} {fi : FileInfo} {l : List FileInfo}

theorem sweep_nil : d.sweep [] g = d := by
  ext1
  exact List.filter_eq_self.2 fun _ _ => rfl

theorem sweep_cons_of_pos (hfi : fi ∈ d.entries) (hg : g fi = true) :
    d.sweep (fi :: l) g = (d.remove fi.name).sweep l g := by
  ext1
  change d.entries.filter _ = (d.entries.filter _).filter _
  rw [List.filter_filter]
  apply List.filter_congr
  intro x hx
  by_cases hname : x.name = fi.name
  · obtain rfl := Directory.eq_of_name hx hfi hname
    simp [hg]
  · have hne : x ≠ fi := fun heq => hname (heq ▸ rfl)
    simp [hne, hname]

theorem sweep_cons_of_neg (hg : g fi = false) : d.sweep (fi :: l) g = d.sweep l g := by
  ext1
  apply List.filter_congr
  intro x _
  by_cases hx : x = fi
  · simp [hx, hg]
  · simp [hx]

theorem sweep_files (h : l.Perm d.files) : d.sweep l g = d.without g := by
  ext1
  apply List.filter_congr
  intro x hx
  have hmem : x ∈ l ↔ x.isCacheFile = true := by
    rw [h.mem_iff, Directory.files, List.mem_filter]
    exact and_iff_right hx
  rw [Bool.eq_iff_iff]
  simp [hmem]

end Sweep

theorem walkDir_eq (f : State → FileInfo → State) (batches : List (List FileInfo)) (s : State) :
    walkDir f batches s = (batches.flatten.filter FileInfo.isCacheFile).foldl f s := by
  have hvisit : ∀ (fis : List FileInfo) (s : State), (fis.foldl (fun s fi =>
      if fi.isDir then s else if !cachefileRegexp fi.name then s else f s fi) s) =
        (fis.filter FileInfo.isCacheFile).foldl f s := by
    intro fis
    induction fis with
    | nil => exact fun _ => rfl
    | cons fi fis ih =>
      intro s
      rw [List.foldl_cons, ih]
      cases hdir : fi.isDir with
      | true => simp [FileInfo.isCacheFile, hdir]
      | false =>
        cases hname : cachefileRegexp fi.name with
        | true => simp [FileInfo.isCacheFile, hdir, hname]
        | false => simp [FileInfo.isCacheFile, hdir, hname]
  unfold walkDir
  -- the batches come one after the other, so that only their concatenation matters
  induction batches generalizing s with
  | nil => rfl
  | cons fis batches ih =>
    rw [List.foldl_cons, ih, hvisit, List.flatten_cons, List.filter_append, List.foldl_append]

/-- What the function of a walk does with a file that is there: it removes the file exactly when `g` holds, and the
totals move by `a` and `b`. -/
structure Sweeps (f : State → FileInfo → State) (g : FileInfo → Bool) (a b : FileInfo → Int) : Prop where
  dir : ∀ {s fi}, fi ∈ s.dir.entries → (f s fi).dir = if g fi then s.dir.remove fi.name else s.dir
  size : ∀ {s fi v}, fi ∈ s.dir.entries → Follows s.totalSize v → Follows (f s fi).totalSize (v + a fi)
  items : ∀ {s fi v}, fi ∈ s.dir.entries → Follows s.totalItems v → Follows (f s fi).totalItems (v + b fi)

section Walk

variable {f : State → FileInfo → State} {g : FileInfo → Bool} {a b : FileInfo → Int}

/-- A file that has not been visited is still there. -/
theorem Sweeps.mem_entries (h : Sweeps f g a b) {s : State} {fi x : FileInfo} (hfi : fi ∈ s.dir.entries)
    (hx : x ∈ s.dir.entries) (hne : x.name ≠ fi.name) : x ∈ (f s fi).dir.entries := by
  rw [h.dir hfi]
  split
  · exact List.mem_filter.2 ⟨hx, bne_iff_ne.2 hne⟩
  · exact hx

theorem Sweeps.foldl (h : Sweeps f g a b) : ∀ (l : List FileInfo) (s : State) (v w : Int),
    (l.map FileInfo.name).Nodup → (∀ fi ∈ l, fi ∈ s.dir.entries) → Follows s.totalSize v → Follows s.totalItems w →
    (l.foldl f s).dir = s.dir.sweep l g ∧ Follows (l.foldl f s).totalSize (v + (l.map a).sum) ∧
      Follows (l.foldl f s).totalItems (w + (l.map b).sum)
  | [], s, v, w, _, _, hv, hw => by
    refine ⟨sweep_nil.symm, ?_, ?_⟩
    · simpa using hv
    · simpa using hw
  | fi :: l, s, v, w, hnodup, hmem, hv, hw => by
    rw [List.map_cons, List.nodup_cons] at hnodup
    have hfi := hmem fi List.mem_cons_self
    -- what comes later in the walk has another name, and is not removed here
    have hrest : ∀ x ∈ l, x ∈ (f s fi).dir.entries := by
      intro x hx
      apply h.mem_entries hfi (hmem x (List.mem_cons_of_mem _ hx))
      intro hname
      exact hnodup.1 (hname ▸ List.mem_map_of_mem hx)
    obtain ⟨hdir, hsize, hitems⟩ := Sweeps.foldl h l (f s fi) _ _ hnodup.2 hrest (h.size hfi hv) (h.items hfi hw)
    rw [List.foldl_cons, List.map_cons, List.map_cons, List.sum_cons, List.sum_cons, ← add_assoc, ← add_assoc]
    refine ⟨?_, hsize, hitems⟩
    rw [hdir, h.dir hfi]
    split
    · rename_i hg
      exact (sweep_cons_of_pos hfi hg).symm
    · rename_i hg
      exact (sweep_cons_of_neg (Bool.eq_false_iff.2 hg)).symm

/-- A whole walk, in any order. -/
theorem Sweeps.walkDir (h : Sweeps f g a b) {batches : List (List FileInfo)} {s : State} {v w : Int}
    (hbatches : batches.flatten.Perm s.dir.entries) (hv : Follows s.totalSize v) (hw : Follows s.totalItems w) :
    (walkDir f batches s).dir = s.dir.without g ∧
      Follows (walkDir f batches s).totalSize (v + (s.dir.files.map a).sum) ∧
      Follows (walkDir f batches s).totalItems (w + (s.dir.files.map b).sum) := by
  have hfiles : (batches.flatten.filter FileInfo.isCacheFile).Perm s.dir.files := hbatches.filter _
  have hnodup : ((batches.flatten.filter FileInfo.isCacheFile).map FileInfo.name).Nodup :=
    (hfiles.map _).nodup_iff.2 s.dir.nodup_files
  have hmem : ∀ fi ∈ batches.flatten.filter FileInfo.isCacheFile, fi ∈ s.dir.entries :=
    fun fi hfi => Directory.mem_entries (hfiles.mem_iff.1 hfi)
  obtain ⟨hdir, hsize, hitems⟩ := h.foldl _ s v w hnodup hmem hv hw
  rw [walkDir_eq, hdir, sweep_files hfiles, ← (hfiles.map a).sum_eq, ← (hfiles.map b).sum_eq]
  exact ⟨rfl, hsize, hitems⟩

end Walk

/-! ## The totals -/

/-- The totals are those of the directory. -/
structure Exact (s : State) : Prop where
  size : Follows s.totalSize s.dir.bytes
  items : Follows s.totalItems s.dir.items

theorem files_without (d : Directory) (g : FileInfo → Bool) : (d.without g).files = d.files.filter fun fi => !g fi := by
  rw [Directory.without, Directory.files_restrict]
  apply List.filter_congr
  intro fi hfi
  rw [(List.mem_filter.1 hfi).2, Bool.true_and]

theorem items_eq (d : Directory) : d.items = (d.files.map fun _ => 1).sum := by
  rw [List.map_const', List.sum_replicate, smul_eq_mul, mul_one]
  rfl

/-- Adding up a measure of the files that are kept. -/
theorem sum_kept (g : FileInfo → Bool) (m : FileInfo → Nat) : ∀ l : List FileInfo,
    (l.map fun fi => if g fi then 0 else (m fi : Int)).sum = (((l.filter fun fi => !g fi).map m).sum : Nat)
  | [] => rfl
  | fi :: l => by
    have ih := sum_kept g m l
    cases hg : g fi with
    | true => simp [hg, ih]
    | false => simp [hg, ih]

/-- Subtracting the measure of the others leaves the same. -/
theorem sum_sub_others (g : FileInfo → Bool) (m : FileInfo → Nat) (l : List FileInfo) :
    ((l.map m).sum : Nat) + (l.map fun fi => if g fi then -(m fi : Int) else 0).sum =
      (((l.filter fun fi => !g fi).map m).sum : Nat) := by
  rw [← sum_kept, Nat.cast_list_sum, List.map_map, ← List.sum_map_add]
  congr 1
  apply List.map_congr_left
  intro fi _
  cases g fi <;> simp

theorem osRemove_of_mem {env : Environment} {k : Nat} {d : Directory} {fi : FileInfo} (h : fi ∈ d.entries) :
    osRemove env k d fi.name = if env.removable k fi.name then some (d.remove fi.name) else none := by
  have hname : fi.name ∈ d.entries.map FileInfo.name := List.mem_map_of_mem h
  simp [osRemove, hname]

section Undisturbed

variable (st : Settings) (env : Environment)

/-- What the expiry pass removes. -/
def outdated (fi : FileInfo) : Bool :=
  st.expired env.currentTime fi && env.removable 0 fi.name

/-- What round `k` removes. -/
def drawn (k : Nat) (p : Int) (fi : FileInfo) : Bool :=
  decide ((env.draw k fi.name : Int) ≤ p) && env.removable (k + 1) fi.name

theorem countFile_of_mem {s : State} {fi : FileInfo} (hfi : fi ∈ s.dir.entries) : countFile st env s fi =
    if outdated st env fi then { s with dir := s.dir.remove fi.name }
    else { s with totalSize := s.totalSize + .ofNat fi.size, totalItems := s.totalItems + 1 } := by
  unfold countFile outdated
  rw [osRemove_of_mem hfi]
  cases st.expired env.currentTime fi <;> cases env.removable 0 fi.name <;> rfl

theorem sweeps_countFile : Sweeps (countFile st env) (outdated st env)
    (fun fi => if outdated st env fi then 0 else fi.size) (fun fi => if outdated st env fi then 0 else 1) := by
  constructor
  · intro s fi hfi
    rw [countFile_of_mem st env hfi]
    split <;> rfl
  · intro s fi v hfi hv
    rw [countFile_of_mem st env hfi]
    split
    · rwa [add_zero]
    · exact hv.add fi.size
  · intro s fi v hfi hv
    rw [countFile_of_mem st env hfi]
    split
    · rwa [add_zero]
    · exact hv.add 1

theorem evictFile_of_mem (k : Nat) (p : Int) {s : State} {fi : FileInfo} (hfi : fi ∈ s.dir.entries) :
    evictFile env k p s fi =
      if drawn env k p fi then ⟨s.dir.remove fi.name, s.totalSize - .ofNat fi.size, s.totalItems - 1⟩ else s := by
  unfold evictFile drawn
  rw [osRemove_of_mem hfi]
  by_cases hdraw : (env.draw k fi.name : Int) > p
  · rw [if_pos hdraw, decide_eq_false (not_le.2 hdraw)]
    rfl
  · rw [if_neg hdraw, decide_eq_true (not_lt.1 hdraw)]
    cases env.removable (k + 1) fi.name <;> rfl

theorem sweeps_evictFile (k : Nat) (p : Int) : Sweeps (evictFile env k p) (drawn env k p)
    (fun fi => if drawn env k p fi then -(fi.size : Int) else 0) (fun fi => if drawn env k p fi then -1 else 0) := by
  constructor
  · intro s fi hfi
    rw [evictFile_of_mem env k p hfi]
    split <;> rfl
  · intro s fi v hfi hv
    rw [evictFile_of_mem env k p hfi]
    split
    · exact hv.sub fi.size
    · rwa [add_zero]
  · intro s fi v hfi hv
    rw [evictFile_of_mem env k p hfi]
    split
    · exact hv.sub 1
    · rwa [add_zero]

variable {env} (h : env.Undisturbed)

include h

/-- The expiry pass leaves what is not outdated, with its totals. -/
theorem expiryPass_spec (d : Directory) :
    (expiryPass st env d).dir = d.without (outdated st env) ∧ Exact (expiryPass st env d) := by
  obtain ⟨hdir, hsize, hitems⟩ :=
    (sweeps_countFile st env).walkDir (s := ⟨d, 0, 0⟩) (h.listed 0 d.entries) .zero .zero
  rw [zero_add, sum_kept] at hsize
  rw [zero_add] at hitems
  refine ⟨hdir, ?_, ?_⟩
  · rw [expiryPass, hdir, Directory.bytes, files_without]
    exact hsize
  · rw [expiryPass, hdir, items_eq, files_without, ← sum_kept]
    exact hitems

/-- A round of eviction leaves what it did not draw, with its totals. -/
theorem evictionRound_spec (k : Nat) {s : State} (hs : Exact s) :
    (∃ g, (evictionRound st env k s).dir = s.dir.without g) ∧ Exact (evictionRound st env k s) := by
  obtain ⟨hdir, hsize, hitems⟩ :=
    (sweeps_evictFile env k (env.percent k (s.totalSize - st.maxSize) s.totalSize + 10)).walkDir
      (h.listed (k + 1) s.dir.entries) hs.size hs.items
  rw [Directory.bytes, sum_sub_others] at hsize
  refine ⟨⟨_, hdir⟩, ?_, ?_⟩
  · rw [evictionRound, hdir, Directory.bytes, files_without]
    exact hsize
  · rw [items_eq] at hitems
    rw [evictionRound, hdir, items_eq, files_without, ← sum_sub_others]
    exact hitems

end Undisturbed

/-! ## The loop -/

/-- `d'` is `d` without some of its cache files. -/
structure Left (d d' : Directory) : Prop where
  sublist : d'.entries.Sublist d.entries
  others : ∀ fi ∈ d.entries, fi.isCacheFile = false → fi ∈ d'.entries

theorem Left.refl (d : Directory) : Left d d := ⟨List.Sublist.refl _, fun _ hfi _ => hfi⟩

theorem Left.trans {d d' d'' : Directory} (h : Left d d') (h' : Left d' d'') : Left d d'' :=
  ⟨h'.sublist.trans h.sublist, fun fi hfi hother => h'.others fi (h.others fi hfi hother) hother⟩

theorem Left.without (d : Directory) (g : FileInfo → Bool) : Left d (d.without g) := by
  constructor
  · exact List.filter_sublist
  · intro fi hfi hother
    exact List.mem_filter.2 ⟨hfi, by rw [hother]; rfl⟩

theorem Left.files {d d' : Directory} (h : Left d d') : d'.files.Sublist d.files := h.sublist.filter _

theorem Left.bytes_le {d d' : Directory} (h : Left d d') : d'.bytes ≤ d.bytes :=
  (h.files.map _).sum_le_sum fun _ _ => Nat.zero_le _

theorem Left.items_le {d d' : Directory} (h : Left d d') : d'.items ≤ d.items := h.files.length_le

/-- The stats are those of the directory. -/
structure Stats.Exact (stats : Stats) (d : Directory) : Prop where
  size : Follows stats.size d.bytes
  items : Follows stats.items d.items

section Loop

variable (st : Settings) (env : Environment) {s : State} {k : Nat}

theorem evictionLoop_stop (hstop : ¬(s.totalSize > st.maxSize ∧ k < 3)) {fuel : Nat} (hfuel : 0 < fuel) :
    evictionLoop st env fuel k s = .stored k s.dir ⟨s.totalSize, s.totalItems⟩ := by
  obtain ⟨fuel, rfl⟩ := Nat.exists_eq_succ_of_ne_zero hfuel.ne'
  exact if_neg hstop

variable {env}

theorem evictionLoop_go (h : env.Undisturbed) (hgo : s.totalSize > st.maxSize ∧ k < 3) {fuel : Nat} (hfuel : 0 < fuel) :
    evictionLoop st env fuel k s = evictionLoop st env (fuel - 1) (k + 1) (evictionRound st env k s) := by
  obtain ⟨fuel, rfl⟩ := Nat.exists_eq_succ_of_ne_zero hfuel.ne'
  rw [evictionLoop, if_pos hgo, h.walks]
  rfl

/-- With `m` rounds left there are at most `m` more, and each leaves exact totals. -/
theorem evictionLoop_spec (h : env.Undisturbed) : ∀ (m k : Nat) (s : State), k + m = 3 → Exact s →
    ∃ n d' stats, (∀ fuel, m < fuel → evictionLoop st env fuel k s = .stored n d' stats) ∧ n ≤ 3 ∧ Left s.dir d' ∧
      stats.Exact d' := by
  intro m
  induction m with
  | zero =>
    intro k s hm hs
    have hstop : ¬(s.totalSize > st.maxSize ∧ k < 3) := fun hgo => absurd hgo.2 (by omega)
    exact ⟨k, s.dir, ⟨s.totalSize, s.totalItems⟩, fun fuel => evictionLoop_stop st env hstop, by omega, .refl _,
      hs.size, hs.items⟩
  | succ m ih =>
    intro k s hm hs
    -- each round is exact if the one before was
    by_cases hgo : s.totalSize > st.maxSize ∧ k < 3
    · obtain ⟨⟨g, hdir⟩, hround⟩ := evictionRound_spec st h k hs
      obtain ⟨n, d', stats, hloop, hn, hleft, hstats⟩ := ih (k + 1) _ (by omega) hround
      rw [hdir] at hleft
      refine ⟨n, d', stats, ?_, hn, (Left.without _ g).trans hleft, hstats⟩
      intro fuel hfuel
      rw [evictionLoop_go st h hgo (by omega)]
      exact hloop _ (by omega)
    · exact ⟨k, s.dir, ⟨s.totalSize, s.totalItems⟩, fun fuel hfuel => evictionLoop_stop st env hgo (by omega), by omega,
        .refl _, hs.size, hs.items⟩

end Loop

/-! ## The whole clean -/

/-- A clean that nothing disturbs, with files and settings of any kind, whatever is drawn, whatever the percentages are
and whichever files cannot be removed: it ends after at most three rounds of eviction, and the stats stored are
the size and the number of the cache files that remain, as `uint64` and, if the files fit into one, as
numbers. What is in the directory afterwards was there before; a cache file that was expired is still there
only if its removal failed, and everything else than a cache file still is. The expiry pass removes exactly the
cache files that are expired and can be removed, and where it leaves no more than the maximum nothing else is
removed. -/
theorem clean_undisturbed (st : Settings) (env : Environment) (h : env.Undisturbed) (d : Directory) :
    ∃ rounds d' stats, (∀ fuel, 4 ≤ fuel → clean st env fuel d = .stored rounds d' stats) ∧ rounds ≤ 3 ∧
      (stats.size = .ofNat d'.bytes ∧ stats.items = .ofNat d'.items) ∧
      (d.bytes < 2 ^ 64 → stats.size.toNat = d'.bytes) ∧ (d.items < 2 ^ 64 → stats.items.toNat = d'.items) ∧
      d'.entries.Sublist d.entries ∧
      (∀ fi ∈ d'.entries, fi.isCacheFile = true → st.expired env.currentTime fi = true →
        env.removable 0 fi.name = false) ∧
      (∀ fi ∈ d.entries, fi.isCacheFile = false → fi ∈ d'.entries) ∧
      (expiryPass st env d).dir = d.without (outdated st env) ∧
      ((expiryPass st env d).dir.bytes ≤ st.maxSize.toNat → rounds = 0 ∧ d' = (expiryPass st env d).dir) := by
  obtain ⟨hdir, hexpiry⟩ := expiryPass_spec st h d
  obtain ⟨n, d', stats, hloop, hn, hleft, hstats⟩ := evictionLoop_spec st h 3 0 _ rfl hexpiry
  -- the expiry pass and the rounds together
  have hall : Left d d' := (hdir ▸ Left.without d (outdated st env)).trans hleft
  have hclean : ∀ fuel, clean st env fuel d = evictionLoop st env fuel 0 (expiryPass st env d) := by
    intro fuel
    rw [clean, h.walks]
    rfl
  refine ⟨n, d', stats, fun fuel hfuel => (hclean fuel).trans (hloop fuel hfuel), hn,
    ⟨hstats.size.eq_ofNat, hstats.items.eq_ofNat⟩, ?_, ?_, hall.sublist, ?_, hall.others, hdir, ?_⟩
  · intro hfits
    have hlt := hall.bytes_le.trans_lt hfits
    exact_mod_cast hstats.size.exact_iff.2 ⟨by omega, by omega⟩
  · intro hfits
    have hlt := hall.items_le.trans_lt hfits
    exact_mod_cast hstats.items.exact_iff.2 ⟨by omega, by omega⟩
  · intro fi hfi hfile hexpired
    have hkept := hleft.sublist.mem hfi
    rw [hdir] at hkept
    have hnot := (List.mem_filter.1 hkept).2
    simpa [hfile, outdated, hexpired] using hnot
  · intro hle
    -- the total is the number of bytes left, so that the loop stops at once
    have hstop : ¬((expiryPass st env d).totalSize > st.maxSize ∧ 0 < 3) := by
      rintro ⟨hgt, -⟩
      have hmax := st.maxSize.toNat_lt
      have htotal := hexpiry.size.exact_iff.2 ⟨by omega, by omega⟩
      have hlt := UInt64.lt_iff_toNat_lt.1 hgt
      omega
    have hend := (evictionLoop_stop st env hstop (Nat.zero_lt_succ 3)).symm.trans (hloop 4 (Nat.lt_succ_self 3))
    cases hend
    exact ⟨rfl, rfl⟩

/-- A file that expired, one that did not, and a directory that is older than both. -/
def threeEntries : Directory where
  entries := [⟨String.ofList (List.replicate 32 'a'), false, 10, 0⟩, ⟨"lost+found", true, 4096, -1000⟩,
    ⟨String.ofList (List.replicate 32 'b'), false, 20, -100⟩]
  nodup := by decide

/-- All entries come at once and every file can be removed; the first round draws 50 for each. -/
def calm : Environment where
  currentTime := 0
  listing _ entries := [entries]
  fails _ := false
  removable _ _ := true
  draw k _ := if k = 0 then 50 else 7
  percent _ _ _ := 0

theorem calm_undisturbed : calm.Undisturbed :=
  ⟨fun _ entries => by rw [calm, List.flatten_singleton], fun _ => rfl⟩

/-- With a maximum of five bytes the other file goes in the second round. -/
theorem clean_undisturbed_three_entries :
    calm.Undisturbed ∧ ∃ d' stats, clean ⟨5, 60, 30⟩ calm 4 threeEntries = .stored 2 d' stats ∧
      d'.entries.map FileInfo.name = ["lost+found"] ∧ stats = ⟨0, 0⟩ ∧ stats.items = .ofNat d'.items := by
  obtain ⟨rounds, d', stats, hclean, -, hexact, -⟩ :=
    clean_undisturbed ⟨5, 60, 30⟩ calm calm_undisturbed threeEntries
  have hrun : clean ⟨5, 60, 30⟩ calm 4 threeEntries = .stored 2 _ ⟨0, 0⟩ := rfl
  have heq := hrun.symm.trans (hclean 4 le_rfl)
  cases heq
  exact ⟨calm_undisturbed, _, _, hrun, by decide, rfl, hexact.2⟩

/-! ## Ages -/

theorem toInt_timeSub (t u : Int) :
    (timeSub t u).toInt = max Int64.minValue.toInt (min (t - u) Int64.maxValue.toInt) := by
  have hmin : Int64.minValue.toInt = -2 ^ 63 := Int64.toInt_minValue
  have hmax : Int64.maxValue.toInt = 2 ^ 63 - 1 := Int64.toInt_maxValue
  unfold timeSub
  split
  · omega
  · split
    · omega
    · rw [Int64.toInt_ofInt_of_le (by omega) (by omega)]
      omega

/-- When the deadline is a time that a `time.Duration` can exceed, files are expired exactly when they are older. -/
theorem expired_iff {st : Settings} (hmin : Int64.minValue.toInt ≤ st.expire.toInt + st.grace.toInt)
    (hmax : st.expire.toInt + st.grace.toInt < Int64.maxValue.toInt) (now : Int) (fi : FileInfo) :
    st.expired now fi = true ↔ st.expire.toInt + st.grace.toInt < now - fi.modTime := by
  have hsum : (st.expire + st.grace).toInt = st.expire.toInt + st.grace.toInt := by
    rw [Int64.toInt_add]
    apply Int.bmod_eq_of_le
    · exact hmin
    · exact hmax.trans (by decide)
  rw [Settings.expired, decide_eq_true_eq, gt_iff_lt, Int64.lt_iff_toInt_lt, hsum, toInt_timeSub]
  omega

end Chproxy.Cache.Clean
