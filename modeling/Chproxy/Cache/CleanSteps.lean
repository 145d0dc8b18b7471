/-
The two models of `clean` agree: what the function `Clean.clean` computes is what a run of the steps of `Cleaner`
arrives at, without a step of a `Put`. Of the environment it takes that `Readdir` returns at most 1024 entries at
a time and that the percentage depends on the sizes only.
-/
import Chproxy.Cache.CleanAlone
import Chproxy.Cache.Cleaner

namespace Chproxy.Cache.Clean

/-- The settings of the steps. -/
def Settings.steps (st : Settings) (percent : UInt64 → UInt64 → Int) : Cleaner.Settings :=
  ⟨st.maxSize, (st.expire + st.grace).toInt, 0, percent⟩

/-- A file as `Readdir` reports it at the time `now`. -/
def FileInfo.at (fi : FileInfo) (now : Int) : Cleaner.FileInfo String :=
  ⟨fi.name, fi.size, (timeSub now fi.modTime).toInt⟩

/-- The state of the steps has the cache files and the totals of the state of the function. -/
structure Represents (c : Cleaner.State String) (s : State) : Prop where
  names : c.dir.names = (s.dir.files.map FileInfo.name).toFinset
  size : ∀ fi ∈ s.dir.files, c.dir.size fi.name = fi.size
  totalSize : c.totalSize = s.totalSize
  totalItems : c.totalItems = s.totalItems

theorem Represents.mem_names {c : Cleaner.State String} {s : State} (h : Represents c s) {fi : FileInfo}
    (hfi : fi ∈ s.dir.files) : fi.name ∈ c.dir.names := by
  rw [h.names, List.mem_toFinset]
  exact List.mem_map_of_mem hfi

/-- Removing a file keeps the representation of the directory. -/
theorem Represents.remove {c : Cleaner.State String} {s : State} (h : Represents c s) (name : String) :
    (c.dir.remove name).names = ((s.dir.remove name).files.map FileInfo.name).toFinset ∧
      ∀ fi ∈ (s.dir.remove name).files, (c.dir.remove name).size fi.name = fi.size := by
  rw [Directory.remove, Directory.files_restrict]
  constructor
  · ext n
    change n ∈ c.dir.names.erase name ↔ _
    rw [Finset.mem_erase, h.names]
    simp only [List.mem_toFinset, List.mem_map, List.mem_filter, bne_iff_ne]
    constructor
    · rintro ⟨hne, fi, hfi, rfl⟩
      exact ⟨fi, ⟨hfi, hne⟩, rfl⟩
    · rintro ⟨fi, ⟨hfi, hne⟩, rfl⟩
      exact ⟨hne, fi, hfi, rfl⟩
  · intro fi hfi
    exact h.size fi (List.mem_filter.1 hfi).1

/-! ## One visit -/

/-- The action `act`, which is none of a `Put`, does in phase `phase` what the function `f` of a walk does. -/
structure Visits (st : Cleaner.Settings) (now : Int) (phase : Cleaner.Phase) (f : State → FileInfo → State)
    (act : FileInfo → Cleaner.Action String) : Prop where
  isPut : ∀ fi, (act fi).isPut = false
  visit : ∀ {c : Cleaner.State String} {s : State} {fi : FileInfo} {rest : List (Cleaner.FileInfo String)},
    Represents c s → c.phase = phase → c.batch = fi.at now :: rest → fi ∈ s.dir.files →
    ∃ c', Cleaner.step st c (act fi) = some c' ∧ Represents c' (f s fi) ∧ c'.phase = phase ∧ c'.batch = rest ∧
      c'.todo = c.todo

section Visits

variable (st : Settings) (env : Environment) (percent : UInt64 → UInt64 → Int)

theorem age_at_iff (fi : FileInfo) :
    (fi.at env.currentTime).age > (st.steps percent).expire + (st.steps percent).grace ↔
      st.expired env.currentTime fi = true := by
  rw [Settings.expired, decide_eq_true_eq, gt_iff_lt, gt_iff_lt, Int64.lt_iff_toInt_lt]
  change (st.expire + st.grace).toInt + 0 < _ ↔ _
  rw [add_zero]
  rfl

theorem visits_countFile : Visits (st.steps percent) env.currentTime .counting (countFile st env)
    fun fi => .visit (env.removable 0 fi.name) 0 := by
  refine ⟨fun _ => rfl, ?_⟩
  intro c s fi rest h hphase hbatch hfi
  have hstep : Cleaner.step (st.steps percent) c (.visit (env.removable 0 fi.name) 0) =
      some { c.countFile (st.steps percent) (fi.at env.currentTime) (env.removable 0 fi.name) with batch := rest } := by
    simp only [Cleaner.step, hphase, hbatch]
  have hif : ((fi.at env.currentTime).age > (st.steps percent).expire + (st.steps percent).grace ∧
      env.removable 0 fi.name = true ∧ (fi.at env.currentTime).name ∈ c.dir.names) ↔ outdated st env fi = true := by
    rw [age_at_iff, outdated, Bool.and_eq_true]
    exact and_congr_right fun _ => and_iff_left (h.mem_names hfi)
  refine ⟨_, hstep, ?_⟩
  rw [countFile_of_mem st env (Directory.mem_entries hfi)]
  unfold Cleaner.State.countFile
  by_cases hout : outdated st env fi = true
  · rw [if_pos (hif.2 hout), if_pos hout]
    exact ⟨⟨(h.remove fi.name).1, (h.remove fi.name).2, h.totalSize, h.totalItems⟩, hphase, rfl, rfl⟩
  · rw [if_neg (mt hif.1 hout), if_neg hout]
    refine ⟨⟨h.names, h.size, ?_, ?_⟩, hphase, rfl, rfl⟩
    · exact congrArg (· + UInt64.ofNat fi.size) h.totalSize
    · exact congrArg (· + 1) h.totalItems

theorem victim_at {c : Cleaner.State String} {fi : FileInfo} (hname : fi.name ∈ c.dir.names) (k : Nat) (p : Int) :
    c.victim p (fi.at env.currentTime) (env.removable (k + 1) fi.name) (env.draw k fi.name) =
      if drawn env k p fi then some (fi.at env.currentTime) else none := by
  have hmem : (fi.at env.currentTime).name ∈ c.dir.names := hname
  unfold Cleaner.State.victim drawn
  by_cases hdraw : (env.draw k fi.name : Int) > p
  · rw [if_pos hdraw, decide_eq_false (not_le.2 hdraw)]
    rfl
  · rw [if_neg hdraw, decide_eq_true (not_lt.1 hdraw), Bool.true_and]
    simp only [hmem, and_true]

theorem visits_evictFile (k : Nat) (p : Int) : Visits (st.steps percent) env.currentTime (.evicting k p)
    (evictFile env k p) fun fi => .visit (env.removable (k + 1) fi.name) (env.draw k fi.name) := by
  refine ⟨fun _ => rfl, ?_⟩
  intro c s fi rest h hphase hbatch hfi
  have hvictim := victim_at env (h.mem_names hfi) k p
  rw [evictFile_of_mem env k p (Directory.mem_entries hfi)]
  by_cases hdrawn : drawn env k p fi = true
  · rw [if_pos hdrawn] at hvictim ⊢
    have hstep : Cleaner.step (st.steps percent) c (.visit (env.removable (k + 1) fi.name) (env.draw k fi.name)) =
        some { c.evict (fi.at env.currentTime) with batch := rest } := by
      simp only [Cleaner.step, hphase, hbatch, hvictim, (env.draw k fi.name).isLt, if_true]
    refine ⟨_, hstep, ⟨(h.remove fi.name).1, (h.remove fi.name).2, ?_, ?_⟩, hphase, rfl, rfl⟩
    · exact congrArg (· - UInt64.ofNat fi.size) h.totalSize
    · exact congrArg (· - 1) h.totalItems
  · rw [if_neg hdrawn] at hvictim ⊢
    have hstep : Cleaner.step (st.steps percent) c (.visit (env.removable (k + 1) fi.name) (env.draw k fi.name)) =
        some { c with batch := rest } := by
      simp only [Cleaner.step, hphase, hbatch, hvictim, (env.draw k fi.name).isLt, if_true]
    exact ⟨_, hstep, ⟨h.names, h.size, h.totalSize, h.totalItems⟩, hphase, rfl, rfl⟩

end Visits

/-! ## One walk -/

section Walk

variable {st : Cleaner.Settings} {now : Int} {init : Cleaner.State String → Prop} {phase : Cleaner.Phase}
  {f : State → FileInfo → State} {act : FileInfo → Cleaner.Action String} {g : FileInfo → Bool} {a b : FileInfo → Int}

/-- The runs without a `Put`. -/
abbrev Alone (st : Cleaner.Settings) (init : Cleaner.State String → Prop) : Cleaner.State String → Prop :=
  Steps.ReachWhen (Cleaner.step st) init fun _ a _ => a.isPut = false

theorem Sweeps.mem_files (h : Sweeps f g a b) {s : State} {fi x : FileInfo} (hfi : fi ∈ s.dir.files)
    (hx : x ∈ s.dir.files) (hne : x.name ≠ fi.name) : x ∈ (f s fi).dir.files := by
  rw [Directory.files, List.mem_filter] at hfi hx ⊢
  exact ⟨h.mem_entries hfi.1 hx.1 hne, hx.2⟩

/-- The visits to the files of a batch; a file that is not among them stays. -/
theorem Visits.batch (hv : Visits st now phase f act) (hsw : Sweeps f g a b) :
    ∀ (l : List FileInfo) (c : Cleaner.State String) (s : State), Alone st init c → Represents c s → c.phase = phase →
      c.batch = l.map (·.at now) → (l.map FileInfo.name).Nodup → (∀ fi ∈ l, fi ∈ s.dir.files) →
      ∃ c', Alone st init c' ∧ Represents c' (l.foldl f s) ∧ c'.phase = phase ∧ c'.batch = [] ∧ c'.todo = c.todo ∧
        ∀ x ∈ s.dir.files, x.name ∉ l.map FileInfo.name → x ∈ (l.foldl f s).dir.files
  | [], c, s, hr, h, hphase, hbatch, _, _ => ⟨c, hr, h, hphase, hbatch, rfl, fun _ hx _ => hx⟩
  | fi :: l, c, s, hr, h, hphase, hbatch, hnodup, hfiles => by
    rw [List.map_cons, List.nodup_cons] at hnodup
    have hfi := hfiles fi List.mem_cons_self
    have hkeep : ∀ x ∈ s.dir.files, x.name ≠ fi.name → x ∈ (f s fi).dir.files :=
      fun x hx hne => hsw.mem_files hfi hx hne
    obtain ⟨c₁, hst, h₁, hphase₁, hbatch₁, htodo₁⟩ := hv.visit h hphase hbatch hfi
    obtain ⟨c', hr', h', hphase', hbatch', htodo', hkeep'⟩ :=
      Visits.batch hv hsw l c₁ (f s fi) (.step hr hst (hv.isPut fi)) h₁ hphase₁ hbatch₁ hnodup.2
        fun x hx => hkeep x (hfiles x (List.mem_cons_of_mem _ hx)) fun heq => hnodup.1 (heq ▸ List.mem_map_of_mem hx)
    refine ⟨c', hr', h', hphase', hbatch', htodo'.trans htodo₁, ?_⟩
    intro x hx hnot
    rw [List.map_cons, List.mem_cons, not_or] at hnot
    exact hkeep' x (hkeep x hx hnot.1) hnot.2

/-- The names and ages that a `readdir` of the files `l` brings. -/
def listed (now : Int) (l : List FileInfo) : List (String × Int) := l.map fun fi => (fi.name, (fi.at now).age)

theorem listed_names (now : Int) (l : List FileInfo) : (listed now l).map Prod.fst = l.map FileInfo.name := by
  rw [listed, List.map_map]
  rfl

theorem step_readdir (st : Cleaner.Settings) (now : Int) {c : Cleaner.State String} {s : State} (h : Represents c s)
    (hwalking : c.phase.walking = true) (hbatch : c.batch = []) {l : List FileInfo} (hne : l ≠ [])
    (hlen : l.length ≤ 1024) (hnodup : (l.map FileInfo.name).Nodup) (htodo : ∀ fi ∈ l, fi.name ∈ c.todo)
    (hfiles : ∀ fi ∈ l, fi ∈ s.dir.files) :
    Cleaner.step st c (.readdir (listed now l)) =
      some { c with todo := c.todo \ (l.map FileInfo.name).toFinset, batch := l.map (·.at now) } := by
  -- every file of the batch is still there, so that none is dropped
  have hgiven : (listed now l).filterMap (fun e =>
      if e.1 ∈ c.dir.names then some (⟨e.1, c.dir.size e.1, e.2⟩ : Cleaner.FileInfo String) else none) =
        l.map (·.at now) := by
    rw [listed, List.filterMap_map, ← List.filterMap_eq_map]
    apply List.filterMap_congr
    intro fi hfi
    rw [Function.comp_apply, if_pos (h.mem_names (hfiles fi hfi)), h.size fi (hfiles fi hfi)]
    rfl
  have hgo : c.phase.walking = true ∧ c.batch = [] ∧ listed now l ≠ [] ∧ (listed now l).length ≤ 1024 ∧
      ((listed now l).map Prod.fst).Nodup ∧ ∀ e ∈ listed now l, e.1 ∈ c.todo := by
    refine ⟨hwalking, hbatch, mt List.map_eq_nil_iff.1 hne, ?_, ?_, ?_⟩
    · rwa [listed, List.length_map]
    · rwa [listed_names]
    · intro e he
      obtain ⟨fi, hfi, rfl⟩ := List.mem_map.1 he
      exact htodo fi hfi
  refine (if_pos hgo).trans ?_
  rw [Cleaner.State.readdir, listed_names, hgiven]

/-- A walk through all the cache files. -/
theorem Visits.walk (hv : Visits st now phase f act) (hsw : Sweeps f g a b)
    (hwalking : phase.walking = true) : ∀ (batches : List (List FileInfo)) (c : Cleaner.State String) (s : State),
      Alone st init c → Represents c s → c.phase = phase → c.batch = [] →
      c.todo = ((batches.flatten.filter FileInfo.isCacheFile).map FileInfo.name).toFinset →
      ((batches.flatten.filter FileInfo.isCacheFile).map FileInfo.name).Nodup →
      (∀ fi ∈ batches.flatten.filter FileInfo.isCacheFile, fi ∈ s.dir.files) → (∀ fis ∈ batches, fis.length ≤ 1024) →
      ∃ c', Alone st init c' ∧ Represents c' (walkDir f batches s) ∧ c'.phase = phase ∧ c'.batch = [] ∧ c'.todo = ∅
  | [], c, s, hr, h, hphase, hbatch, htodo, _, _, _ => ⟨c, hr, h, hphase, hbatch, htodo⟩
  | fis :: batches, c, s, hr, h, hphase, hbatch, htodo, hnodup, hfiles, hlen => by
    rw [walkDir_eq, List.flatten_cons, List.filter_append, List.foldl_append, ← walkDir_eq]
    rw [List.flatten_cons, List.filter_append] at htodo hnodup hfiles
    rw [List.map_append] at htodo hnodup
    have hlens : ∀ fis ∈ batches, fis.length ≤ 1024 := fun x hx => hlen x (List.mem_cons_of_mem _ hx)
    have hlen' : (fis.filter FileInfo.isCacheFile).length ≤ 1024 :=
      (List.length_filter_le _ _).trans (hlen fis List.mem_cons_self)
    generalize fis.filter FileInfo.isCacheFile = l at htodo hnodup hfiles hlen'
    obtain ⟨hnodup₁, hnodup₂, hdisjoint⟩ := List.nodup_append'.1 hnodup
    have hfiles₁ : ∀ fi ∈ l, fi ∈ s.dir.files := fun fi hfi => hfiles fi (List.mem_append_left _ hfi)
    have hfiles₂ : ∀ fi ∈ batches.flatten.filter FileInfo.isCacheFile, fi ∈ s.dir.files :=
      fun fi hfi => hfiles fi (List.mem_append_right _ hfi)
    by_cases hl : l = []
    · -- a batch without a cache file is passed over
      subst hl
      exact Visits.walk hv hsw hwalking batches c s hr h hphase hbatch htodo hnodup₂ hfiles₂ hlens
    · have hread := step_readdir st now h (hphase ▸ hwalking) hbatch hl hlen' hnodup₁
        (fun fi hfi => by
          rw [htodo, List.mem_toFinset]
          exact List.mem_append_left _ (List.mem_map_of_mem hfi)) hfiles₁
      obtain ⟨c₂, hr₂, h₂, hphase₂, hbatch₂, htodo₂, hkeep⟩ :=
        Visits.batch hv hsw l _ s (.step hr hread rfl) ⟨h.names, h.size, h.totalSize, h.totalItems⟩ hphase rfl
          hnodup₁ hfiles₁
      refine Visits.walk hv hsw hwalking batches c₂ _ hr₂ h₂ hphase₂ hbatch₂ ?_ hnodup₂ ?_ hlens
      · rw [htodo₂]
        dsimp only
        rw [htodo, List.toFinset_append, Finset.union_sdiff_cancel_left]
        rwa [List.disjoint_toFinset_iff_disjoint]
      · intro fi hfi
        exact hkeep fi (hfiles₂ fi hfi) fun hmem => hdisjoint hmem (List.mem_map_of_mem hfi)

/-- A walk that the stream makes through the whole directory. -/
theorem Visits.walkDir (hv : Visits st now phase f act) (hsw : Sweeps f g a b)
    (hwalking : phase.walking = true) {batches : List (List FileInfo)} {c : Cleaner.State String} {s : State}
    (hbatches : batches.flatten.Perm s.dir.entries) (hlen : ∀ fis ∈ batches, fis.length ≤ 1024)
    (hr : Alone st init c) (h : Represents c s) (hphase : c.phase = phase) (hbatch : c.batch = [])
    (htodo : c.todo = c.dir.names) :
    ∃ c', Alone st init c' ∧ Represents c' (walkDir f batches s) ∧ c'.phase = phase ∧ c'.batch = [] ∧ c'.todo = ∅ := by
  have hfiles : (batches.flatten.filter FileInfo.isCacheFile).Perm s.dir.files := hbatches.filter _
  refine Visits.walk hv hsw hwalking batches c s hr h hphase hbatch ?_ ?_ ?_ hlen
  · rw [htodo, h.names, List.toFinset_eq_of_perm _ _ (hfiles.map FileInfo.name)]
  · exact (hfiles.map _).nodup_iff.2 s.dir.nodup_files
  · exact fun fi hfi => hfiles.mem_iff.1 hfi

end Walk

/-! ## The loop -/

/-- What the steps take of the environment. -/
structure Environment.Stepwise (env : Environment) (percent : UInt64 → UInt64 → Int) :
    Prop extends env.Undisturbed where
  batches : ∀ k entries, ∀ fis ∈ env.listing k entries, fis.length ≤ 1024
  percent_eq : ∀ k, env.percent k = percent

section Loop

variable (st : Settings) {env : Environment} {percent : UInt64 → UInt64 → Int} {init : Cleaner.State String → Prop}

theorem evictionLoop_steps (h : env.Stepwise percent) :
    ∀ (fuel k : Nat) {c : Cleaner.State String} {s : State} {n : Nat}
    {d' : Directory} {stats : Stats}, Represents c s → Alone (st.steps percent) init (c.nextLoop (st.steps percent) k) →
      evictionLoop st env fuel k s = .stored n d' stats →
      ∃ c', Alone (st.steps percent) init c' ∧ c'.phase = .stored stats.size stats.items ∧
        Represents c' ⟨d', stats.size, stats.items⟩
  | 0, k, c, s, n, d', stats, _, _, hloop => by cases hloop
  | fuel + 1, k, c, s, n, d', stats, hrep, hr, hloop => by
    by_cases hgo : s.totalSize > st.maxSize ∧ k < 3
    · rw [evictionLoop_go st h.toUndisturbed hgo (Nat.zero_lt_succ fuel)] at hloop
      have hgo' : c.totalSize > (st.steps percent).maxSize ∧ k < 3 := hrep.totalSize ▸ hgo
      -- both loops go on alike, since they have the same total
      have hnext : c.nextLoop (st.steps percent) k =
          { c with
            phase := .evicting k (env.percent k (s.totalSize - st.maxSize) s.totalSize + 10)
            todo := c.dir.names
            batch := [] } := by
        rw [Cleaner.State.nextLoop, if_pos hgo', hrep.totalSize, h.percent_eq]
        rfl
      rw [hnext] at hr
      obtain ⟨c₂, hr₂, hrep₂, hphase₂, hbatch₂, htodo₂⟩ :=
        (visits_evictFile st env percent k _).walkDir (sweeps_evictFile env k _) rfl
          (h.listed (k + 1) s.dir.entries) (h.batches (k + 1) s.dir.entries) hr
          ⟨hrep.names, hrep.size, hrep.totalSize, hrep.totalItems⟩ rfl rfl rfl
      -- the directory is read to its end, and the next round begins
      have heof : Cleaner.step (st.steps percent) c₂ .eof = some (c₂.nextLoop (st.steps percent) (k + 1)) := by
        simp only [Cleaner.step, hbatch₂, htodo₂, hphase₂, and_self, if_true]
      exact evictionLoop_steps h fuel (k + 1) hrep₂ (.step hr₂ heof rfl) hloop
    · rw [evictionLoop_stop st env hgo (Nat.zero_lt_succ fuel)] at hloop
      have hstop : ¬(c.totalSize > (st.steps percent).maxSize ∧ k < 3) := hrep.totalSize ▸ hgo
      cases hloop
      refine ⟨_, hr, ?_, ?_⟩
      · rw [Cleaner.State.nextLoop, if_neg hstop, hrep.totalSize, hrep.totalItems]
      · rw [Cleaner.State.nextLoop, if_neg hstop]
        exact ⟨hrep.names, hrep.size, hrep.totalSize, hrep.totalItems⟩

end Loop

/-! ## The whole clean -/

/-- The cache files of a directory, for the steps. -/
def Directory.steps (d : Directory) : Cleaner.Dir String where
  names := (d.files.map FileInfo.name).toFinset
  size name := ((d.files.find? fun fi => fi.name == name).map FileInfo.size).getD 0

theorem represents_start (d : Directory) : Represents (Cleaner.start d.steps) ⟨d, 0, 0⟩ := by
  refine ⟨rfl, ?_, rfl, rfl⟩
  intro fi hfi
  have hfind : (d.files.find? fun x => x.name == fi.name) = some fi := by
    rcases hf : d.files.find? fun x => x.name == fi.name with _ | x
    · rw [List.find?_eq_none] at hf
      exact absurd (beq_self_eq_true fi.name) (hf fi hfi)
    · have hname : x.name = fi.name := beq_iff_eq.1 (List.find?_some (p := fun x : FileInfo => x.name == fi.name) hf)
      have hx := Directory.mem_entries (List.mem_of_find?_eq_some hf)
      rw [hf, Directory.eq_of_name hx (Directory.mem_entries hfi) hname]
  change ((d.files.find? _).map FileInfo.size).getD 0 = fi.size
  rw [hfind]
  rfl

/-- What an undisturbed clean computes is what a run of the steps without a `Put` arrives at: it stores the same stats,
and leaves the same cache files. -/
theorem clean_steps (st : Settings) {env : Environment} {percent : UInt64 → UInt64 → Int} (h : env.Stepwise percent)
    {fuel n : Nat} {d d' : Directory} {stats : Stats} (hclean : clean st env fuel d = .stored n d' stats) :
    ∃ c, Alone (st.steps percent) (· = Cleaner.start d.steps) c ∧ c.phase = .stored stats.size stats.items ∧
      c.dir.names = (d'.files.map FileInfo.name).toFinset := by
  have hloop : evictionLoop st env fuel 0 (expiryPass st env d) = .stored n d' stats := by
    rw [clean, h.walks] at hclean
    exact hclean
  have hinit : Alone (st.steps percent) (· = Cleaner.start d.steps) (Cleaner.start d.steps) := .init rfl
  obtain ⟨c, hr, hrep, hphase, hbatch, htodo⟩ :=
    (visits_countFile st env percent).walkDir (sweeps_countFile st env) rfl (h.listed 0 d.entries)
      (h.batches 0 d.entries) hinit (represents_start d) rfl rfl rfl
  have heof : Cleaner.step (st.steps percent) c .eof = some (c.nextLoop (st.steps percent) 0) := by
    simp only [Cleaner.step, hbatch, htodo, hphase, and_self, if_true]
  obtain ⟨c', hr', hphase', hrep'⟩ := evictionLoop_steps st h fuel 0 hrep (.step hr heof rfl) hloop
  exact ⟨c', hr', hphase', hrep'.names⟩

end Chproxy.Cache.Clean
