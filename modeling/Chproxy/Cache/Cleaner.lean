/-
`fileSystemCache.clean` with `walkDir` (`cache/filesystem_cache.go`, `cache/utils.go`) as steps: one for each
batch of entries read, each file visited and each end of a walk, with the steps of `Put` in between. The
first walk adds up the sizes it finds, the walks after it subtract the sizes they find then; the totals are
right as long as these walks remove no more than was added up.

Of a directory stream it is assumed that it gives every entry that was there when it was opened once, and
an entry made after that or not.
-/
import Chproxy.Cache.FileSystem
import Chproxy.Lib.Steps
import Chproxy.Lib.Tally

namespace Chproxy.Cache.Cleaner

open Tallies (Follows Tally)
open Utils (Bytes)

/-! ## Files -/

/-- The cache files of the directory with their sizes; `walkDir` skips everything else in it. -/
structure Dir (ν : Type) where
  names : Finset ν
  size : ν → Nat

/-- `os.FileInfo`, with the time since the file was modified. -/
structure FileInfo (ν : Type) where
  name : ν
  size : Nat
  age : Int
  deriving DecidableEq, Repr

/-- `percent` is `int32(float64(excessSize) / float64(totalSize) * 100)`. -/
structure Settings where
  maxSize : UInt64
  expire : Int
  grace : Int
  percent : UInt64 → UInt64 → Int

/-! ## States -/

/-- Where `clean` is: in its first walk, in a walk that evicts, or at its end, with the stats stored or, after
an error, without. -/
inductive Phase
  | counting
  | evicting (loopsCount : Nat) (p : Int)
  | stored (size items : UInt64)
  | failed
  deriving DecidableEq, Repr

/-- The history of a clean, which no step reads: the files that have existed since it began, the largest
size of each, and what was added to the totals and subtracted again. -/
structure Past (ν : Type) where
  existed : Finset ν
  peak : ν → Nat
  tally : Tally ν

/-- `todo` are the entries that the directory stream has still to give, `batch` those it gave last that have
not been visited. -/
structure State (ν : Type) where
  dir : Dir ν
  phase : Phase
  todo : Finset ν
  batch : List (FileInfo ν)
  totalSize : UInt64
  totalItems : UInt64
  removedSize : UInt64
  removedItems : UInt64
  past : Past ν

/-- `create` and `grow` are steps of a `Put`; `listed` says whether a walk under way gives the new entry. Of
the others `readdir` has the next entries with their ages, and `visit` the result of `os.Remove` and the draw. -/
inductive Action (ν : Type)
  | create (n : ν) (listed : Bool)
  | grow (n : ν) (k : Nat)
  | readdir (entries : List (ν × Int))
  | visit (removable : Bool) (draw : Nat)
  | eof
  | walkFails

variable {ν : Type} [DecidableEq ν]

namespace Dir

/-- `os.Create`: a file that is there is truncated. -/
def create (d : Dir ν) (n : ν) : Dir ν := ⟨insert n d.names, Function.update d.size n 0⟩

def grow (d : Dir ν) (n : ν) (k : Nat) : Dir ν := { d with size := Function.update d.size n (d.size n + k) }

def remove (d : Dir ν) (n : ν) : Dir ν := { d with names := d.names.erase n }

end Dir

/-- The file has the size `k`. -/
def Past.see (h : Past ν) (n : ν) (k : Nat) : Past ν :=
  { h with existed := insert n h.existed, peak := Function.update h.peak n (max (h.peak n) k) }

namespace State

variable (s : State ν) (st : Settings)

/-- `os.Create`; `listed` is for a file that was not there. -/
def create (n : ν) (listed : Bool) : State ν :=
  { s with
    dir := s.dir.create n
    todo := if listed = true ∧ n ∉ s.dir.names then insert n s.todo else s.todo
    past := s.past.see n 0 }

def grow (n : ν) (k : Nat) : State ν := { s with dir := s.dir.grow n k, past := s.past.see n (s.dir.size n + k) }

/-- `Readdir`: entries whose file is gone are left out. -/
def readdir (entries : List (ν × Int)) : State ν :=
  { s with
    todo := s.todo \ (entries.map Prod.fst).toFinset
    batch := entries.filterMap fun e => if e.1 ∈ s.dir.names then some ⟨e.1, s.dir.size e.1, e.2⟩ else none }

/-- The removal of a file by the first walk. -/
def expire (fi : FileInfo ν) : State ν :=
  { s with
    dir := s.dir.remove fi.name
    removedSize := s.removedSize + .ofNat fi.size
    removedItems := s.removedItems + .ofNat 1 }

def count (fi : FileInfo ν) : State ν :=
  { s with
    totalSize := s.totalSize + .ofNat fi.size
    totalItems := s.totalItems + .ofNat 1
    past := { s.past with tally := s.past.tally.count fi.name fi.size } }

/-- The function of the first walk. -/
def countFile (fi : FileInfo ν) (removable : Bool) : State ν :=
  if fi.age > st.expire + st.grace ∧ removable = true ∧ fi.name ∈ s.dir.names then s.expire fi else s.count fi

/-- The file that the function of an evicting walk removes, if it does. -/
def victim (p : Int) (fi : FileInfo ν) (removable : Bool) (draw : Nat) : Option (FileInfo ν) :=
  if (draw : Int) > p then none
  else if removable = true ∧ fi.name ∈ s.dir.names then some fi
  else none

/-- The removal of a file by an evicting walk. -/
def evict (fi : FileInfo ν) : State ν :=
  { s with
    dir := s.dir.remove fi.name
    removedSize := s.removedSize + .ofNat fi.size
    removedItems := s.removedItems + .ofNat 1
    totalSize := s.totalSize - .ofNat fi.size
    totalItems := s.totalItems - .ofNat 1
    past := { s.past with tally := s.past.tally.take fi.name fi.size } }

/-- The head of the loop: another walk, or the end. -/
def nextLoop (loopsCount : Nat) : State ν :=
  if s.totalSize > st.maxSize ∧ loopsCount < 3 then
    { s with
      phase := .evicting loopsCount (st.percent (s.totalSize - st.maxSize) s.totalSize + 10)
      todo := s.dir.names
      batch := [] }
  else { s with phase := .stored s.totalSize s.totalItems }

end State

def Phase.walking : Phase → Bool
  | .counting => true
  | .evicting .. => true
  | .stored .. => false
  | .failed => false

/-- One step of `clean` or of a `Put`. -/
def step (st : Settings) (s : State ν) : Action ν → Option (State ν)
  | .create n listed => some (s.create n listed)
  | .grow n k => if n ∈ s.dir.names then some (s.grow n k) else none
  | .readdir entries =>
    if s.phase.walking = true ∧ s.batch = [] ∧ entries ≠ [] ∧ entries.length ≤ 1024 ∧
        (entries.map Prod.fst).Nodup ∧ ∀ e ∈ entries, e.1 ∈ s.todo then
      some (s.readdir entries)
    else none
  -- the function of the walk on the next file of the batch
  | .visit removable draw =>
    match s.phase, s.batch with
    | .counting, fi :: rest => some { s.countFile st fi removable with batch := rest }
    | .evicting _ p, fi :: rest =>
      if draw < 100 then
        match s.victim p fi removable draw with
        | some fi => some { s.evict fi with batch := rest }
        | none => some { s with batch := rest }
      else none
    | _, _ => none
  -- the walk is over when the listing is
  | .eof =>
    if s.batch = [] ∧ s.todo = ∅ then
      match s.phase with
      | .counting => some (s.nextLoop st 0)
      | .evicting loopsCount _ => some (s.nextLoop st (loopsCount + 1))
      | _ => none
    else none
  | .walkFails => if s.phase.walking = true then some { s with phase := .failed } else none

/-- The beginning of a clean. -/
structure Initial (s : State ν) : Prop where
  phase : s.phase = .counting
  todo : s.todo = s.dir.names
  batch : s.batch = []
  totalSize : s.totalSize = 0
  totalItems : s.totalItems = 0
  existed : s.past.existed = s.dir.names
  peak : ∀ n, s.past.peak n = if n ∈ s.dir.names then s.dir.size n else 0
  tally : s.past.tally = .empty

/-! ## The steps of `Put` -/

/-- `os.Create`, and a step for each `Write`. -/
def putActions (n : ν) (listed : Bool) (writes : List Bytes) : List (Action ν) :=
  .create n listed :: writes.map fun b => .grow n b.length

theorem run_grow (st : Settings) {n : ν} : ∀ (bs : List Bytes) {s : State ν}, n ∈ s.dir.names →
    ∃ s', Steps.run (step st) s (bs.map fun b => .grow n b.length) = some s' ∧
      s'.dir.size n = s.dir.size n + bs.flatten.length
  | [], s, _ => ⟨s, rfl, rfl⟩
  | b :: bs, s, hn => by
    have hstep : step st s (.grow n b.length) = some (s.grow n b.length) := if_pos hn
    have hsize : (s.grow n b.length).dir.size n = s.dir.size n + b.length := Function.update_self ..
    obtain ⟨s', hrun, hsize'⟩ := run_grow st bs (s := s.grow n b.length) hn
    refine ⟨s', ?_, ?_⟩
    · rw [List.map_cons, Steps.run, hstep]
      exact hrun
    · rw [hsize', hsize, List.flatten_cons, List.length_append, Nat.add_assoc]

/-- Undisturbed, they leave a file of the length of the one that `Put` writes. -/
theorem run_putActions (st : Settings) (s : State ν) (n : ν) (listed : Bool) (m : ContentMetadata)
    (chunks : List Bytes) :
    ∃ s', Steps.run (step st) s (putActions n listed (FileSystemCache.writes m chunks)) = some s' ∧
      s'.dir.size n = (FileSystemCache.encoded m chunks.flatten).length := by
  have hzero : (s.create n listed).dir.size n = 0 := Function.update_self ..
  obtain ⟨s', hrun, hsize⟩ :=
    run_grow st (FileSystemCache.writes m chunks) (s := s.create n listed) (Finset.mem_insert_self ..)
  refine ⟨s', hrun, ?_⟩
  rw [hsize, hzero, Nat.zero_add, FileSystemCache.writes, List.flatten_append]
  rfl

/-! ## What a step can do -/

/-- The effect of each kind of step. -/
inductive Move (st : Settings) (s : State ν) : Action ν → State ν → Prop
  | create (n : ν) (listed : Bool) : Move st s (.create n listed) (s.create n listed)
  | grow {n : ν} (k : Nat) (hn : n ∈ s.dir.names) : Move st s (.grow n k) (s.grow n k)
  | readdir {entries : List (ν × Int)} (hbatch : s.batch = []) (hnodup : (entries.map Prod.fst).Nodup)
      (htodo : ∀ e ∈ entries, e.1 ∈ s.todo) : Move st s (.readdir entries) (s.readdir entries)
  | expire {fi : FileInfo ν} {rest : List (FileInfo ν)} (removable : Bool) (draw : Nat) (hphase : s.phase = .counting)
      (hbatch : s.batch = fi :: rest) :
      Move st s (.visit removable draw) { s.expire fi with batch := rest }
  | count {fi : FileInfo ν} {rest : List (FileInfo ν)} (removable : Bool) (draw : Nat) (hphase : s.phase = .counting)
      (hbatch : s.batch = fi :: rest) :
      Move st s (.visit removable draw) { s.count fi with batch := rest }
  | evict {fi : FileInfo ν} {rest : List (FileInfo ν)} {loopsCount : Nat} {p : Int} {removable : Bool} {draw : Nat}
      (hphase : s.phase = .evicting loopsCount p) (hbatch : s.batch = fi :: rest)
      (hvictim : s.victim p fi removable draw = some fi) :
      Move st s (.visit removable draw) { s.evict fi with batch := rest }
  | skip {fi : FileInfo ν} {rest : List (FileInfo ν)} {loopsCount : Nat} {p : Int} {removable : Bool} {draw : Nat}
      (hphase : s.phase = .evicting loopsCount p) (hbatch : s.batch = fi :: rest) :
      Move st s (.visit removable draw) { s with batch := rest }
  | eof (loopsCount : Nat) (hbatch : s.batch = []) (htodo : s.todo = ∅) (hwalking : s.phase.walking = true) :
      Move st s .eof (s.nextLoop st loopsCount)
  | walkFails : Move st s .walkFails { s with phase := .failed }

theorem victim_eq_some {s : State ν} {p : Int} {fi fi' : FileInfo ν} {removable : Bool} {draw : Nat}
    (h : s.victim p fi removable draw = some fi') : fi' = fi ∧ fi.name ∈ s.dir.names := by
  unfold State.victim at h
  split at h
  · cases h
  · split at h
    · rename_i hremovable
      exact ⟨(Option.some.inj h).symm, hremovable.2⟩
    · cases h

theorem step_cases {st : Settings} {s s' : State ν} {a : Action ν} (h : step st s a = some s') : Move st s a s' := by
  cases a with
  | create n listed =>
    cases h
    exact .create n listed
  | grow n k =>
    dsimp only [step] at h
    split at h
    · rename_i hn
      cases h
      exact .grow k hn
    · cases h
  | readdir entries =>
    dsimp only [step] at h
    split at h
    · rename_i hread
      cases h
      exact .readdir hread.2.1 hread.2.2.2.2.1 hread.2.2.2.2.2
    · cases h
  | visit removable draw =>
    dsimp only [step] at h
    split at h
    · rename_i fi rest hphase hbatch
      cases h
      unfold State.countFile
      split
      · exact .expire removable draw hphase hbatch
      · exact .count removable draw hphase hbatch
    · rename_i loopsCount p fi rest hphase hbatch
      split at h
      · split at h
        · rename_i fi' hvictim
          obtain ⟨rfl, -⟩ := victim_eq_some hvictim
          cases h
          exact .evict hphase hbatch hvictim
        · cases h
          exact .skip hphase hbatch
      · cases h
    · cases h
  | eof =>
    dsimp only [step] at h
    split at h
    · rename_i hend
      split at h
      · rename_i hphase
        cases h
        exact .eof 0 hend.1 hend.2 (by rw [hphase]; rfl)
      · rename_i loopsCount p hphase
        cases h
        exact .eof (loopsCount + 1) hend.1 hend.2 (by rw [hphase]; rfl)
      · cases h
    · cases h
  | walkFails =>
    dsimp only [step] at h
    split at h
    · cases h
      exact .walkFails
    · cases h

/-! ## Invariants -/

/-- Whatever is in the directory, in the batch or in the tally has existed, at no more than its largest size. -/
structure Recorded (s : State ν) : Prop where
  files : ∀ n ∈ s.dir.names, n ∈ s.past.existed ∧ s.dir.size n ≤ s.past.peak n
  batch : ∀ fi ∈ s.batch, fi.name ∈ s.past.existed ∧ fi.size ≤ s.past.peak fi.name
  counted : ∀ n ∈ s.past.tally.counted, n ∈ s.past.existed ∧ s.past.tally.size n ≤ s.past.peak n

/-- In the first walk a file that was counted is still there, and is not given again. -/
structure Fresh (s : State ν) : Prop where
  nodup : (s.batch.map (·.name)).Nodup
  batch : ∀ fi ∈ s.batch, fi.name ∈ s.dir.names ∧ fi.name ∉ s.todo ∧ fi.name ∉ s.past.tally.counted
  counted : ∀ n ∈ s.past.tally.counted, n ∈ s.dir.names ∧ n ∉ s.todo

/-- The totals follow the tally, in whatever order the steps come. -/
structure Inv (s : State ν) : Prop where
  recorded : Recorded s
  fresh : s.phase = .counting → Fresh s
  size : Follows s.totalSize s.past.tally.amount
  items : Follows s.totalItems s.past.tally.items
  stored : ∀ size items, s.phase = .stored size items → size = s.totalSize ∧ items = s.totalItems

theorem Past.peak_le_see (h : Past ν) (n : ν) (k : Nat) (m : ν) : h.peak m ≤ (h.see n k).peak m := by
  by_cases hm : m = n
  · subst hm
    simp [see]
  · simp [see, Function.update_of_ne hm]

theorem Past.le_peak_see (h : Past ν) (n : ν) (k : Nat) : k ≤ (h.see n k).peak n := by
  simp [see]

section Steps

variable {st : Settings} {s : State ν}

/-- A file that is seen to have a size keeps the record, if the other files stay as they are. -/
theorem Recorded.see (h : Recorded s) {n : ν} {k : Nat} {dir : Dir ν} (todo : Finset ν) (hk : dir.size n = k)
    (hnames : ∀ m ∈ dir.names, m ≠ n → m ∈ s.dir.names) (hsize : ∀ m ≠ n, dir.size m = s.dir.size m) :
    Recorded { s with dir := dir, todo := todo, past := s.past.see n k } where
  files m hm := by
    by_cases hmn : m = n
    · subst hmn
      exact ⟨Finset.mem_insert_self .., hk ▸ s.past.le_peak_see m k⟩
    · obtain ⟨hexisted, hpeak⟩ := h.files m (hnames m hm hmn)
      exact ⟨Finset.mem_insert_of_mem hexisted, (hsize m hmn).le.trans (hpeak.trans (s.past.peak_le_see n k m))⟩
  batch fi hfi := by
    obtain ⟨hexisted, hpeak⟩ := h.batch fi hfi
    exact ⟨Finset.mem_insert_of_mem hexisted, hpeak.trans (s.past.peak_le_see n k _)⟩
  counted m hm := by
    obtain ⟨hexisted, hpeak⟩ := h.counted m hm
    exact ⟨Finset.mem_insert_of_mem hexisted, hpeak.trans (s.past.peak_le_see n k m)⟩

theorem Inv.create (h : Inv s) (n : ν) (listed : Bool) : Inv (s.create n listed) where
  recorded := by
    refine h.recorded.see _ (Function.update_self ..) (fun m hm hne => ?_) fun m hne => Function.update_of_ne hne ..
    exact Finset.mem_of_mem_insert_of_ne hm hne
  fresh hphase := by
    have hfresh := h.fresh hphase
    -- a file that is there already is not given anew
    have htodo : ∀ m ∈ s.dir.names, m ∉ s.todo →
        m ∉ if listed = true ∧ n ∉ s.dir.names then insert n s.todo else s.todo := by
      intro m hm hnot
      split
      · rename_i hnew
        rw [Finset.mem_insert, not_or]
        exact ⟨fun heq => hnew.2 (heq ▸ hm), hnot⟩
      · exact hnot
    refine ⟨hfresh.nodup, fun fi hfi => ?_, fun m hm => ?_⟩
    · obtain ⟨hname, hnot, hcounted⟩ := hfresh.batch fi hfi
      exact ⟨Finset.mem_insert_of_mem hname, htodo _ hname hnot, hcounted⟩
    · obtain ⟨hname, hnot⟩ := hfresh.counted m hm
      exact ⟨Finset.mem_insert_of_mem hname, htodo m hname hnot⟩
  size := h.size
  items := h.items
  stored := h.stored

theorem Inv.grow (h : Inv s) {n : ν} (k : Nat) : Inv (s.grow n k) where
  recorded :=
    h.recorded.see s.todo (Function.update_self ..) (fun _ hm _ => hm) fun _ hne => Function.update_of_ne hne ..
  fresh hphase := ⟨(h.fresh hphase).nodup, (h.fresh hphase).batch, (h.fresh hphase).counted⟩
  size := h.size
  items := h.items
  stored := h.stored

theorem names_readdir (s : State ν) : ∀ entries : List (ν × Int),
    (s.readdir entries).batch.map (·.name) = (entries.filter fun e => e.1 ∈ s.dir.names).map Prod.fst
  | [] => rfl
  | e :: entries => by
    have ih := names_readdir s entries
    simp only [State.readdir] at ih ⊢
    by_cases he : e.1 ∈ s.dir.names
    · simp [he, ih]
    · simp [he, ih]

theorem mem_batch_readdir {entries : List (ν × Int)} {fi : FileInfo ν} (h : fi ∈ (s.readdir entries).batch) :
    (∃ e ∈ entries, e.1 = fi.name) ∧ fi.name ∈ s.dir.names ∧ fi.size = s.dir.size fi.name := by
  obtain ⟨e, he, hfi⟩ := List.mem_filterMap.1 h
  split at hfi
  · rename_i hname
    cases hfi
    exact ⟨⟨e, he, rfl⟩, hname, rfl⟩
  · cases hfi

theorem Inv.readdir (h : Inv s) {entries : List (ν × Int)} (hnodup : (entries.map Prod.fst).Nodup)
    (htodo : ∀ e ∈ entries, e.1 ∈ s.todo) : Inv (s.readdir entries) where
  recorded := by
    refine ⟨h.recorded.files, fun fi hfi => ?_, h.recorded.counted⟩
    obtain ⟨_, hname, hsize⟩ := mem_batch_readdir hfi
    rw [hsize]
    exact h.recorded.files _ hname
  fresh hphase := by
    have hfresh := h.fresh hphase
    refine ⟨?_, fun fi hfi => ?_, fun m hm => ?_⟩
    · rw [names_readdir]
      exact hnodup.sublist (List.filter_sublist.map _)
    · obtain ⟨⟨e, he, hname⟩, hfile, _⟩ := mem_batch_readdir hfi
      refine ⟨hfile, fun hmem => ?_, fun hcounted => ?_⟩
      · refine (Finset.mem_sdiff.1 hmem).2 (List.mem_toFinset.2 ?_)
        exact hname ▸ List.mem_map_of_mem he
      · exact (hfresh.counted _ hcounted).2 (hname ▸ htodo e he)
    · obtain ⟨hname, hnot⟩ := hfresh.counted m hm
      exact ⟨hname, fun hmem => hnot (Finset.mem_sdiff.1 hmem).1⟩
  size := h.size
  items := h.items
  stored := h.stored

section Batch

omit [DecidableEq ν]

variable {fi fi' : FileInfo ν} {rest : List (FileInfo ν)}

theorem head_mem (hbatch : s.batch = fi :: rest) : fi ∈ s.batch := hbatch ▸ List.mem_cons_self

theorem mem_of_rest (hbatch : s.batch = fi :: rest) (h : fi' ∈ rest) : fi' ∈ s.batch :=
  hbatch ▸ List.mem_cons_of_mem fi h

theorem Recorded.batch_rest (h : Recorded s) (hbatch : s.batch = fi :: rest) :
    ∀ fi' ∈ rest, fi'.name ∈ s.past.existed ∧ fi'.size ≤ s.past.peak fi'.name :=
  fun fi' hfi' => h.batch fi' (mem_of_rest hbatch hfi')

/-- The rest of a batch has other names than its first file. -/
theorem Fresh.ne_head (h : Fresh s) (hbatch : s.batch = fi :: rest) :
    ∀ fi' ∈ rest, fi'.name ≠ fi.name := by
  have hnodup := h.nodup
  rw [hbatch, List.map_cons, List.nodup_cons] at hnodup
  exact fun fi' hfi' heq => hnodup.1 (heq ▸ List.mem_map_of_mem hfi')

theorem Fresh.nodup_rest (h : Fresh s) (hbatch : s.batch = fi :: rest) : (rest.map (·.name)).Nodup := by
  have hnodup := h.nodup
  rw [hbatch, List.map_cons, List.nodup_cons] at hnodup
  exact hnodup.2

end Batch

section Visit

variable {fi : FileInfo ν} {rest : List (FileInfo ν)}

theorem Inv.expire (h : Inv s) (hphase : s.phase = .counting) (hbatch : s.batch = fi :: rest) :
    Inv { s.expire fi with batch := rest } where
  recorded :=
    ⟨fun n hn => h.recorded.files n (Finset.mem_of_mem_erase hn), h.recorded.batch_rest hbatch, h.recorded.counted⟩
  fresh _ := by
    have hfresh := h.fresh hphase
    refine ⟨hfresh.nodup_rest hbatch, fun fi' hfi' => ?_, fun n hn => ?_⟩
    · obtain ⟨hname, hnot, hcounted⟩ := hfresh.batch fi' (mem_of_rest hbatch hfi')
      exact ⟨Finset.mem_erase.2 ⟨hfresh.ne_head hbatch fi' hfi', hname⟩, hnot, hcounted⟩
    · obtain ⟨hname, hnot⟩ := hfresh.counted n hn
      refine ⟨Finset.mem_erase.2 ⟨?_, hname⟩, hnot⟩
      rintro rfl
      exact (hfresh.batch fi (head_mem hbatch)).2.2 hn
  size := h.size
  items := h.items
  stored := h.stored

theorem Inv.count (h : Inv s) (hphase : s.phase = .counting) (hbatch : s.batch = fi :: rest) :
    Inv { s.count fi with batch := rest } := by
  have hfresh := h.fresh hphase
  obtain ⟨hname, hnot, hcounted⟩ := hfresh.batch fi (head_mem hbatch)
  refine ⟨⟨h.recorded.files, h.recorded.batch_rest hbatch, ?_⟩, fun _ => ⟨hfresh.nodup_rest hbatch, fun fi' hfi' => ?_,
    fun n hn => ?_⟩, ?_, ?_, fun size items hstored => ?_⟩
  · exact Tally.forall_insert_count (P := fun n k => n ∈ s.past.existed ∧ k ≤ s.past.peak n)
      (h.recorded.batch fi (head_mem hbatch)) h.recorded.counted
  · -- no two files of a batch have one name
    obtain ⟨hname', hnot', hcounted'⟩ := hfresh.batch fi' (mem_of_rest hbatch hfi')
    refine ⟨hname', hnot', fun hmem => ?_⟩
    rcases Finset.mem_insert.1 hmem with heq | hmem
    · exact hfresh.ne_head hbatch fi' hfi' heq
    · exact hcounted' hmem
  · rcases Finset.mem_insert.1 hn with rfl | hn
    · exact ⟨hname, hnot⟩
    · exact hfresh.counted n hn
  · have hsize := h.size.add fi.size
    rwa [← Tally.amount_count hcounted] at hsize
  · have hitems := h.items.add 1
    rwa [Nat.cast_one, ← Tally.items_count (k := fi.size) hcounted] at hitems
  · exact absurd (hphase.symm.trans hstored) (by simp)

/-- After the first walk only the record matters. -/
theorem Inv.evict (h : Inv s) {loopsCount : Nat} {p : Int} (hphase : s.phase = .evicting loopsCount p)
    (hbatch : s.batch = fi :: rest) : Inv { s.evict fi with batch := rest } where
  recorded :=
    ⟨fun n hn => h.recorded.files n (Finset.mem_of_mem_erase hn), h.recorded.batch_rest hbatch, h.recorded.counted⟩
  fresh hcounting := by
    change s.phase = .counting at hcounting
    rw [hphase] at hcounting
    cases hcounting
  size := by
    have hsize := h.size.sub fi.size
    rwa [← Tally.amount_take (n := fi.name)] at hsize
  items := by
    have hitems := h.items.sub 1
    rwa [Nat.cast_one, ← Tally.items_take (n := fi.name) (k := fi.size)] at hitems
  stored size items hstored := by
    change s.phase = .stored size items at hstored
    rw [hphase] at hstored
    cases hstored

omit [DecidableEq ν] in
theorem Inv.skip (h : Inv s) {loopsCount : Nat} {p : Int} (hphase : s.phase = .evicting loopsCount p)
    (hbatch : s.batch = fi :: rest) : Inv { s with batch := rest } where
  recorded := ⟨h.recorded.files, h.recorded.batch_rest hbatch, h.recorded.counted⟩
  fresh hcounting := by
    rw [hphase] at hcounting
    cases hcounting
  size := h.size
  items := h.items
  stored := h.stored

end Visit

omit [DecidableEq ν] in
theorem Inv.nextLoop (h : Inv s) (loopsCount : Nat) : Inv (s.nextLoop st loopsCount) := by
  unfold State.nextLoop
  split
  · exact ⟨⟨h.recorded.files, fun fi hfi => (by cases hfi), h.recorded.counted⟩,
      fun hphase => (by cases hphase), h.size,
      h.items, fun size items hphase => (by cases hphase)⟩
  · refine ⟨⟨h.recorded.files, h.recorded.batch, h.recorded.counted⟩, fun hphase => (by cases hphase), h.size, h.items,
      fun size items hphase => ?_⟩
    cases hphase
    exact ⟨rfl, rfl⟩

theorem Inv.step {s' : State ν} {a : Action ν} (h : Inv s) (hmove : Move st s a s') : Inv s' := by
  cases hmove with
  | create n listed => exact h.create n listed
  | grow k hn => exact h.grow k
  | readdir hbatch hnodup htodo => exact h.readdir hnodup htodo
  | expire removable draw hphase hbatch => exact h.expire hphase hbatch
  | count removable draw hphase hbatch => exact h.count hphase hbatch
  | evict hphase hbatch hvictim => exact h.evict hphase hbatch
  | skip hphase hbatch => exact h.skip hphase hbatch
  | eof loopsCount hbatch htodo hwalking => exact h.nextLoop loopsCount
  | walkFails =>
    exact ⟨⟨h.recorded.files, h.recorded.batch, h.recorded.counted⟩, fun hphase => (by cases hphase), h.size, h.items,
      fun size items hphase => (by cases hphase)⟩

theorem Initial.inv (h : Initial s) : Inv s := by
  have hcounted : s.past.tally.counted = ∅ := by rw [h.tally]; rfl
  refine ⟨⟨fun n hn => ?_, fun fi hfi => ?_, fun n hn => ?_⟩, fun _ => ⟨?_, fun fi hfi => ?_, fun n hn => ?_⟩, ?_, ?_,
    fun size items hphase => ?_⟩
  · rw [h.existed, h.peak n, if_pos hn]
    exact ⟨hn, le_rfl⟩
  · rw [h.batch] at hfi
    cases hfi
  · rw [hcounted] at hn
    cases hn
  · rw [h.batch]
    exact List.nodup_nil
  · rw [h.batch] at hfi
    cases hfi
  · rw [hcounted] at hn
    cases hn
  · rw [h.totalSize, h.tally]
    exact .zero
  · rw [h.totalItems, h.tally]
    exact .zero
  · rw [h.phase] at hphase
    cases hphase

theorem inv_reach (h : Steps.Reach (step st) Initial s) : Inv s :=
  h.invariant (fun _ hinit => hinit.inv) fun _ _ _ hinv hst _ => hinv.step (step_cases hst)

end Steps

/-! ## Totals -/

/-- The bytes of the files that have existed during the clean. -/
def Past.bytes (h : Past ν) : Nat := ∑ n ∈ h.existed, h.peak n

/-- They and their number fit into a `uint64`. -/
structure Past.Fits (h : Past ν) : Prop where
  bytes : h.bytes < 2 ^ 64
  items : h.existed.card < 2 ^ 64

/-- The totals are what was added to them less what was subtracted. -/
def NoWrap (s : State ν) : Prop :=
  (s.totalSize.toNat : Int) = s.past.tally.amount ∧ (s.totalItems.toNat : Int) = s.past.tally.items

/-- The totals and the stats stored are at most those of the files that have existed during the clean. -/
structure Bounded (s : State ν) : Prop where
  size : s.totalSize.toNat ≤ s.past.bytes
  items : s.totalItems.toNat ≤ s.past.existed.card
  stored : ∀ size items, s.phase = .stored size items →
    size.toNat ≤ s.past.bytes ∧ items.toNat ≤ s.past.existed.card

/-- The file that a step of an evicting walk removes. -/
def evicted (s : State ν) : Action ν → Option (FileInfo ν)
  | .visit removable draw =>
    match s.phase, s.batch with
    | .evicting _ p, fi :: _ => s.victim p fi removable draw
    | _, _ => none
  | _ => none

/-- What an evicting walk removes was counted, and has not grown since. -/
def Harmless (s : State ν) (a : Action ν) (_ : State ν) : Prop :=
  ∀ fi, evicted s a = some fi → fi.name ∈ s.past.tally.left ∧ fi.size ≤ s.past.tally.size fi.name

instance (s : State ν) (a : Action ν) (s' : State ν) : Decidable (Harmless s a s') :=
  inferInstanceAs (Decidable (∀ fi ∈ evicted s a, fi.name ∈ s.past.tally.left ∧ fi.size ≤ s.past.tally.size fi.name))

section Totals

variable {st : Settings} {s s' : State ν} {a : Action ν}

omit [DecidableEq ν] in
theorem tally_nextLoop (st : Settings) (s : State ν) (loopsCount : Nat) :
    (s.nextLoop st loopsCount).past.tally = s.past.tally := by
  unfold State.nextLoop
  split <;> rfl

theorem evicted_visit {fi : FileInfo ν} {rest : List (FileInfo ν)} {loopsCount : Nat} {p : Int} {removable : Bool}
    {draw : Nat} (hphase : s.phase = .evicting loopsCount p) (hbatch : s.batch = fi :: rest) :
    evicted s (.visit removable draw) = s.victim p fi removable draw := by
  simp only [evicted, hphase, hbatch]

theorem sound_step (hinv : Inv s) (h : ∃ kept, s.past.tally.Sound kept) (hmove : Move st s a s')
    (hharmless : Harmless s a s') : ∃ kept, s'.past.tally.Sound kept := by
  obtain ⟨kept, hsound⟩ := h
  cases hmove with
  | create n listed => exact ⟨kept, hsound⟩
  | grow k hn => exact ⟨kept, hsound⟩
  | readdir hbatch hnodup htodo => exact ⟨kept, hsound⟩
  | expire removable draw hphase hbatch => exact ⟨kept, hsound⟩
  | count removable draw hphase hbatch =>
    exact ⟨kept, hsound.count ((hinv.fresh hphase).batch _ (head_mem hbatch)).2.2⟩
  | evict hphase hbatch hvictim =>
    obtain ⟨hleft, hsize⟩ := hharmless _ ((evicted_visit hphase hbatch).trans hvictim)
    exact ⟨_, hsound.take hleft hsize⟩
  | skip hphase hbatch => exact ⟨kept, hsound⟩
  | eof loopsCount hbatch htodo hwalking =>
    rw [tally_nextLoop]
    exact ⟨kept, hsound⟩
  | walkFails => exact ⟨kept, hsound⟩

theorem Initial.sound (h : Initial s) : s.past.tally.Sound 0 := by
  rw [h.tally]
  exact Tally.sound_empty

/-- As long as every eviction is harmless, the tally is sound. -/
theorem sound_reach (h : Steps.ReachWhen (step st) Initial Harmless s) : ∃ kept, s.past.tally.Sound kept := by
  have hboth : Inv s ∧ ∃ kept, s.past.tally.Sound kept :=
    h.invariant (P := fun s => Inv s ∧ ∃ kept, s.past.tally.Sound kept) (fun s hinit => ⟨hinit.inv, 0, hinit.sound⟩)
      fun s a s' hs hst hharmless =>
        ⟨hs.1.step (step_cases hst), sound_step hs.1 hs.2 (step_cases hst) hharmless⟩
  exact hboth.2

omit [DecidableEq ν] in
theorem Inv.amount_le (h : Inv s) : s.past.tally.amount ≤ s.past.bytes :=
  Tally.amount_le (fun n hn => (h.recorded.counted n hn).1) fun n hn => (h.recorded.counted n hn).2

omit [DecidableEq ν] in
theorem Inv.items_le (h : Inv s) : s.past.tally.items ≤ s.past.existed.card :=
  Tally.items_le fun n hn => (h.recorded.counted n hn).1

omit [DecidableEq ν] in
theorem Inv.noWrap_iff (h : Inv s) (hfits : s.past.Fits) : NoWrap s ↔ s.past.tally.Covers := by
  have hamount := h.amount_le
  have hitems := h.items_le
  have hbytes := hfits.bytes
  have hcard := hfits.items
  rw [NoWrap, h.size.exact_iff, h.items.exact_iff, Tally.covers_iff]
  omega

omit [DecidableEq ν] in
/-- The totals have not wrapped around, and are bounded by the files that existed, exactly when no more has been
evicted than was counted. -/
theorem Inv.totals_iff (hinv : Inv s) (hfits : s.past.Fits) : NoWrap s ∧ Bounded s ↔ s.past.tally.Covers := by
  rw [← hinv.noWrap_iff hfits]
  constructor
  · exact And.left
  · intro hnowrap
    have hsize : s.totalSize.toNat ≤ s.past.bytes := Int.ofNat_le.1 (hnowrap.1.le.trans hinv.amount_le)
    have hcount : s.totalItems.toNat ≤ s.past.existed.card := Int.ofNat_le.1 (hnowrap.2.le.trans hinv.items_le)
    refine ⟨hnowrap, hsize, hcount, fun size items hstored => ?_⟩
    obtain ⟨rfl, rfl⟩ := hinv.stored size items hstored
    exact ⟨hsize, hcount⟩

/-- However steps of `Put` come in between, whatever is drawn and whichever files cannot be removed: as long as
every file that an evicting walk removes was counted and has not grown since, the totals do not wrap around, and
they and the stats stored are bounded by the files that existed. -/
theorem clean_totals_bounded (h : Steps.ReachWhen (step st) Initial Harmless s) (hfits : s.past.Fits) :
    NoWrap s ∧ Bounded s := by
  obtain ⟨kept, hsound⟩ := sound_reach h
  exact ((inv_reach h.reach).totals_iff hfits).2 hsound.covers

end Totals

/-! ## Two files -/

/-- At most 15 bytes are kept. -/
def fifteen : Settings := ⟨15, 60, 30, fun excess total => (100 * excess.toNat / total.toNat : Nat)⟩

def twoFiles : Dir String := ⟨{"a", "b"}, fun _ => 10⟩

/-- The beginning of a clean of this directory. -/
def start (d : Dir String) : State String where
  dir := d
  phase := .counting
  todo := d.names
  batch := []
  totalSize := 0
  totalItems := 0
  removedSize := 0
  removedItems := 0
  past := ⟨d.names, fun n => if n ∈ d.names then d.size n else 0, .empty⟩

theorem start_initial (d : Dir String) : Initial (start d) :=
  ⟨rfl, rfl, rfl, rfl, rfl, rfl, fun _ => rfl, rfl⟩

/-- The first walk, over two files of ten bytes. -/
def countBoth : List (Action String) := [.readdir [("a", 0), ("b", 0)], .visit true 0, .visit true 0, .eof]

/-- After the first walk one file is put and another one is written again, shorter than it was. The evicting walk
passes the first and removes the second, whose new size is subtracted. -/
def putsBetween : List (Action String) :=
  countBoth ++ [.create "c" true, .grow "c" 5, .create "a" false, .grow "a" 6,
    .readdir [("b", 0), ("c", 0), ("a", 0)], .visit true 70, .visit true 70, .visit true 7, .eof]

/-- What is stored is the size of what was counted and not removed; the file put is not in it. -/
theorem clean_totals_with_puts : ∃ s,
    Steps.runWhen (step fifteen) (fun s a s' => decide (Harmless s a s')) (start twoFiles) putsBetween = some s ∧
    s.phase = .stored 14 1 ∧ s.dir.names = {"b", "c"} ∧ NoWrap s ∧ Bounded s := by
  obtain ⟨s, hs⟩ : ∃ s, Steps.runWhen (step fifteen) (fun s a s' => decide (Harmless s a s')) (start twoFiles)
      putsBetween = some s := ⟨_, rfl⟩
  have hreach : Steps.ReachWhen (step fifteen) Initial Harmless s :=
    .of_runWhen (fun _ _ _ h => of_decide_eq_true h) putsBetween (.init (start_initial twoFiles)) hs
  have hfits : s.past.Fits := by
    cases hs
    exact ⟨by decide, by decide⟩
  refine ⟨s, hs, ?_, ?_, clean_totals_bounded hreach hfits⟩
  · cases hs
    decide
  · cases hs
    decide

/-- A file of thirty bytes is put when the first walk is over, and is then evicted: the total of twenty bytes
wraps around, the next walk removes every file, and the stats stored are those of 18446744073709551615 files. -/
theorem late_file_empties_cache :
    Initial (start twoFiles) ∧ ∃ s s' : State String,
      Steps.run (step fifteen) (start twoFiles)
        (countBoth ++ [.create "c" true, .grow "c" 30, .readdir [("c", 0), ("a", 0), ("b", 0)], .visit true 7,
          .visit true 70, .visit true 70, .eof]) = some s ∧
      s.totalSize = 18446744073709551606 ∧ s.dir.names = {"a", "b"} ∧ ¬NoWrap s ∧
      Steps.run (step fifteen) s [.readdir [("a", 0), ("b", 0)], .visit true 99, .visit true 99, .eof, .eof] = some s' ∧
      s'.phase = .stored 18446744073709551586 18446744073709551615 ∧ s'.dir.names = ∅ ∧ ¬Bounded s' := by
  refine ⟨start_initial twoFiles, _, _, rfl, by decide, by decide, fun h => ?_, rfl, by decide, by decide, fun h => ?_⟩
  · exact absurd h.1 (by decide)
  · exact absurd h.items (by decide)

/-! ## A clean by itself -/

def Action.isPut : Action ν → Bool
  | .create .. => true
  | .grow .. => true
  | _ => false

/-- What is left in the tally are files of the directory at their sizes, and, when the first walk is over, all
of them. -/
structure Exact (s : State ν) : Prop where
  sound : s.past.tally.Sound 0
  left : ∀ n ∈ s.past.tally.left, n ∈ s.dir.names ∧ s.past.tally.size n = s.dir.size n
  batch : ∀ fi ∈ s.batch, fi.size = s.dir.size fi.name
  pending : s.phase = .counting →
    ∀ n ∈ s.dir.names, n ∈ s.past.tally.left ∨ n ∈ s.todo ∨ ∃ fi ∈ s.batch, fi.name = n
  all : s.phase ≠ .counting → s.phase ≠ .failed → ∀ n ∈ s.dir.names, n ∈ s.past.tally.left

section Alone

variable {st : Settings} {s s' : State ν} {a : Action ν} {fi : FileInfo ν} {rest : List (FileInfo ν)}

theorem Initial.exact (h : Initial s) : Exact s := by
  refine ⟨h.sound, fun n hn => ?_, fun fi hfi => ?_, fun _ n hn => ?_, fun hphase => absurd h.phase hphase⟩
  · rw [h.tally] at hn
    cases hn
  · rw [h.batch] at hfi
    cases hfi
  · rw [h.todo]
    exact .inr (.inl hn)

theorem Exact.readdir (h : Exact s) {entries : List (ν × Int)} (hbatch : s.batch = []) : Exact (s.readdir entries) where
  sound := h.sound
  left := h.left
  batch fi hfi := (mem_batch_readdir hfi).2.2
  pending hphase n hn := by
    rcases h.pending hphase n hn with hleft | htodo | ⟨fi, hfi, _⟩
    · exact .inl hleft
    · by_cases hentry : n ∈ entries.map Prod.fst
      · obtain ⟨e, he, rfl⟩ := List.mem_map.1 hentry
        refine .inr (.inr ⟨⟨e.1, s.dir.size e.1, e.2⟩, List.mem_filterMap.2 ⟨e, he, if_pos hn⟩, rfl⟩)
      · exact .inr (.inl (Finset.mem_sdiff.2 ⟨htodo, fun hmem => hentry (List.mem_toFinset.1 hmem)⟩))
    · rw [hbatch] at hfi
      cases hfi
  all := h.all

theorem Exact.expire (h : Exact s) (hinv : Inv s) (hphase : s.phase = .counting) (hbatch : s.batch = fi :: rest) :
    Exact { s.expire fi with batch := rest } where
  sound := h.sound
  left n hn := by
    obtain ⟨hname, hsize⟩ := h.left n hn
    refine ⟨Finset.mem_erase.2 ⟨?_, hname⟩, hsize⟩
    rintro rfl
    exact ((hinv.fresh hphase).batch fi (head_mem hbatch)).2.2 (h.sound.sub hn)
  batch fi' hfi' := h.batch fi' (mem_of_rest hbatch hfi')
  pending _ n hn := by
    obtain ⟨hne, hname⟩ := Finset.mem_erase.1 hn
    rcases h.pending hphase n hname with hleft | htodo | ⟨fi', hfi', rfl⟩
    · exact .inl hleft
    · exact .inr (.inl htodo)
    · rw [hbatch] at hfi'
      exact .inr (.inr ⟨fi', (List.mem_cons.1 hfi').resolve_left fun heq => hne (heq ▸ rfl), rfl⟩)
  all hnot := absurd hphase hnot

theorem Exact.count (h : Exact s) (hinv : Inv s) (hphase : s.phase = .counting) (hbatch : s.batch = fi :: rest) :
    Exact { s.count fi with batch := rest } := by
  obtain ⟨hname, _, hcounted⟩ := (hinv.fresh hphase).batch fi (head_mem hbatch)
  refine ⟨h.sound.count hcounted, fun n hn => ?_, fun fi' hfi' => ?_, fun _ n hn => ?_, fun hnot => absurd hphase hnot⟩
  · exact Tally.forall_insert_count (P := fun n k => n ∈ s.dir.names ∧ k = s.dir.size n)
      ⟨hname, h.batch fi (head_mem hbatch)⟩ h.left n hn
  · exact h.batch fi' (mem_of_rest hbatch hfi')
  · rcases h.pending hphase n hn with hleft | htodo | ⟨fi', hfi', rfl⟩
    · exact .inl (Finset.mem_insert_of_mem hleft)
    · exact .inr (.inl htodo)
    · rw [hbatch] at hfi'
      rcases List.mem_cons.1 hfi' with rfl | hfi'
      · exact .inl (Finset.mem_insert_self ..)
      · exact .inr (.inr ⟨fi', hfi', rfl⟩)

theorem Exact.evict (h : Exact s) {loopsCount : Nat} {p : Int} (hphase : s.phase = .evicting loopsCount p)
    (hbatch : s.batch = fi :: rest) (hname : fi.name ∈ s.dir.names) : Exact { s.evict fi with batch := rest } := by
  have hleft := h.all (by rw [hphase]; simp) (by rw [hphase]; simp) fi.name hname
  have hsize : fi.size = s.past.tally.size fi.name :=
    (h.batch fi (head_mem hbatch)).trans (h.left _ hleft).2.symm
  refine ⟨?_, fun n hn => ?_, fun fi' hfi' => ?_, fun hcounting => ?_, fun _ _ n hn => ?_⟩
  · have hsound := h.sound.take hleft hsize.le
    rwa [show 0 + (s.past.tally.size fi.name - fi.size) = 0 by omega] at hsound
  · obtain ⟨hne, hn⟩ := Finset.mem_erase.1 hn
    exact ⟨Finset.mem_erase.2 ⟨hne, (h.left n hn).1⟩, (h.left n hn).2⟩
  · exact h.batch fi' (mem_of_rest hbatch hfi')
  · change s.phase = .counting at hcounting
    rw [hphase] at hcounting
    cases hcounting
  · obtain ⟨hne, hn⟩ := Finset.mem_erase.1 hn
    exact Finset.mem_erase.2 ⟨hne, h.all (by rw [hphase]; simp) (by rw [hphase]; simp) n hn⟩

omit [DecidableEq ν] in
/-- At the end of the first walk nothing is pending. -/
theorem Exact.all_of_end (h : Exact s) (hbatch : s.batch = []) (htodo : s.todo = ∅)
    (hwalking : s.phase.walking = true) : ∀ n ∈ s.dir.names, n ∈ s.past.tally.left := by
  intro n hn
  cases hphase : s.phase with
  | counting =>
    rcases h.pending hphase n hn with hleft | hmem | ⟨fi, hfi, _⟩
    · exact hleft
    · rw [htodo] at hmem
      cases hmem
    · rw [hbatch] at hfi
      cases hfi
  | evicting loopsCount p => exact h.all (by rw [hphase]; simp) (by rw [hphase]; simp) n hn
  | stored size items => exact h.all (by rw [hphase]; simp) (by rw [hphase]; simp) n hn
  | failed =>
    rw [hphase] at hwalking
    cases hwalking

omit [DecidableEq ν] in
theorem Exact.nextLoop (h : Exact s) (hall : ∀ n ∈ s.dir.names, n ∈ s.past.tally.left) (loopsCount : Nat) :
    Exact (s.nextLoop st loopsCount) := by
  unfold State.nextLoop
  split
  · exact ⟨h.sound, h.left, fun fi hfi => (by cases hfi), fun hphase => (by cases hphase), fun _ _ => hall⟩
  · exact ⟨h.sound, h.left, h.batch, fun hphase => (by cases hphase), fun _ _ => hall⟩

theorem Exact.step (h : Exact s) (hinv : Inv s) (hmove : Move st s a s') (hput : a.isPut = false) : Exact s' := by
  cases hmove with
  | create n listed => cases hput
  | grow k hn => cases hput
  | readdir hbatch hnodup htodo => exact h.readdir hbatch
  | expire removable draw hphase hbatch => exact h.expire hinv hphase hbatch
  | count removable draw hphase hbatch => exact h.count hinv hphase hbatch
  | evict hphase hbatch hvictim => exact h.evict hphase hbatch (victim_eq_some hvictim).2
  | skip hphase hbatch =>
    exact ⟨h.sound, h.left, fun fi' hfi' => h.batch fi' (mem_of_rest hbatch hfi'),
      fun hcounting => absurd (hphase.symm.trans hcounting) (by simp), h.all⟩
  | eof loopsCount hbatch htodo hwalking => exact h.nextLoop (h.all_of_end hbatch htodo hwalking) loopsCount
  | walkFails =>
    exact ⟨h.sound, h.left, h.batch, fun hphase => (by cases hphase), fun _ hfailed => absurd rfl hfailed⟩

theorem exact_reach (h : Steps.ReachWhen (Cleaner.step st) Initial (fun _ a _ => a.isPut = false) s) :
    Inv s ∧ Exact s :=
  h.invariant (P := fun s => Inv s ∧ Exact s) (fun _ hinit => ⟨hinit.inv, hinit.exact⟩) fun _ _ _ hs hst hput =>
    ⟨hs.1.step (step_cases hst), hs.2.step hs.1 (step_cases hst) hput⟩

/-- Without a `Put` in between the stats stored are the size and the number of the files in the directory. -/
theorem stored_exact (h : Steps.ReachWhen (Cleaner.step st) Initial (fun _ a _ => a.isPut = false) s)
    (hfits : s.past.Fits)
    {size items : UInt64} (hstored : s.phase = .stored size items) :
    size.toNat = ∑ n ∈ s.dir.names, s.dir.size n ∧ items.toNat = s.dir.names.card := by
  obtain ⟨hinv, hexact⟩ := exact_reach h
  obtain ⟨rfl, rfl⟩ := hinv.stored size items hstored
  have hleft : s.past.tally.left = s.dir.names :=
    Finset.Subset.antisymm (fun n hn => (hexact.left n hn).1)
      (hexact.all (by rw [hstored]; simp) (by rw [hstored]; simp))
  have hsum : ∑ n ∈ s.past.tally.left, s.past.tally.size n = ∑ n ∈ s.dir.names, s.dir.size n := by
    rw [← hleft]
    exact Finset.sum_congr rfl fun n hn => (hexact.left n hn).2
  have hamount := hexact.sound.amount
  have hitems := hexact.sound.items
  obtain ⟨hsize, hcount⟩ := (hinv.noWrap_iff hfits).2 hexact.sound.covers
  rw [← hsum, ← hleft]
  unfold Tally.amount at hsize
  unfold Tally.items at hcount
  omega

end Alone

end Chproxy.Cache.Cleaner
