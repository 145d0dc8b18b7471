/-
`fileSystemCache.Put` and `Get` of one key side by side (`cache/filesystem_cache.go`): `Put` truncates the
file under its final name and writes header and payload into it, `Get` opens the file, decodes the header
and leaves the rest to be read. Every file operation is one step, and no operation fails.
-/
import Chproxy.Cache.FileSystem
import Chproxy.Lib.Pool

namespace Chproxy.Cache

open Utils

/-! ## Steps -/

/-- What one `Put` is called with: the length in the metadata is the size of the payload, and all that is
stored has a size in `int64`. -/
structure Content where
  metadata : ContentMetadata
  chunks : List Bytes
  length_eq : metadata.length = chunks.flatten.length
  storable : metadata.Storable
  size_lt : (encodeMetadata metadata).length + chunks.flatten.length < 2 ^ 63

namespace Content

def payload (c : Content) : Bytes := c.chunks.flatten

def file (c : Content) : Bytes := FileSystemCache.encoded c.metadata c.payload

end Content

/-- A call of `Put` or `Get` and how far it is. `received` is a `CachedData` that was read to its end. -/
inductive Access
  | create (c : Content)
  | writing (c : Content) (offset : Nat) (left : List Bytes)
  | stored (c : Content)
  | opening
  | decoding
  | reading (m : ContentMetadata) (offset : Nat) (data : Bytes)
  | received (m : ContentMetadata) (data : Bytes)
  | failed (e : GetError)

namespace Access

@[simp] def isWriting : Access → Bool
  | writing _ _ _ => true
  | _ => false

/-- Has the file open. -/
@[simp] def isActive : Access → Bool
  | writing _ _ _ | decoding | reading _ _ _ => true
  | _ => false

end Access

/-- The file of the key, and every `Put` that has returned. -/
structure Disk where
  file : Option Bytes
  returned : List Content

inductive Caller
  | put (c : Content)
  | get

/-- One step; `n` is the size of the buffer of a read. -/
def accessStep (d : Disk) (t : Access) (n : Nat) : Option (Disk × Access) :=
  match t with
  -- `os.Create` truncates the file under its final name
  | .create c => some ({ d with file := some [] }, .writing c 0 (FileSystemCache.writes c.metadata c.chunks))
  | .writing c offset (b :: left) =>
    some ({ d with file := some (writeAt (d.file.getD []) offset b) }, .writing c (offset + b.length) left)
  | .writing c _ [] => some ({ d with returned := c :: d.returned }, .stored c)
  | .opening => some (d, match d.file with
    | none => .failed .missing
    | some _ => .decoding)
  -- the header is decoded, and the payload read later, from the file as it is by then
  | .decoding => some (d, match decodeHeader (d.file.getD []) with
    | .error e => .failed (.header e)
    | .ok (m, rest) => .reading m ((d.file.getD []).length - rest.length) [])
  | .reading m offset data =>
    let b := ((d.file.getD []).drop offset).take n
    if n = 0 then none
    else if b = [] then some (d, .received m data)
    else some (d, .reading m (offset + b.length) (data ++ b))
  | .stored _ | .received _ _ | .failed _ => none

def fileProgram : Pool.Program Disk Access Caller Nat Empty where
  spawn
    | .put c => .create c
    | .get => .opening
  step := accessStep
  env _ e := nomatch e

abbrev FileState := Pool.St Disk Access

abbrev FileAction := Pool.Act Caller Nat Empty

/-- No file and no call yet. -/
def NoFile (s : FileState) : Prop := s.threads = [] ∧ s.shared.file = none

/-! ## Separate accesses -/

/-- A `Put` creates the file only while no other call has it open, and a `Get` opens it only while none
writes it. -/
def SeparateAccess (s : FileState) : Access → Prop
  | .create _ => ∀ t ∈ s.threads, t.isActive = false
  | .opening => ∀ t ∈ s.threads, t.isWriting = false
  | _ => True

def SeparateAction (s : FileState) : FileAction → Prop
  | .step n _ => ∀ t ∈ s.threads[n]?, SeparateAccess s t
  | _ => True

/-- What a call knows of the file. -/
def Access.Fits (d : Disk) : Access → Prop
  | .writing c offset left => ∃ f, d.file = some f ∧ f.length = offset ∧ f ++ left.flatten = c.file
  | .decoding => ∃ c ∈ d.returned, d.file = some c.file
  | .reading m offset data => ∃ c ∈ d.returned, d.file = some c.file ∧ c.metadata = m ∧
      data ++ c.file.drop offset = c.payload
  | .received m data => ∃ c ∈ d.returned, c.metadata = m ∧ c.payload = data
  | _ => True

/-- The invariant of runs with separate accesses. -/
structure Intact (s : FileState) : Prop where
  fits : ∀ t ∈ s.threads, t.Fits s.shared
  alone : ∀ (i j : Nat) (t t' : Access), s.threads[i]? = some t → s.threads[j]? = some t' →
    t.isWriting = true → t'.isActive = true → i = j
  settled : (∀ t ∈ s.threads, t.isWriting = false) →
    s.shared.file = none ∨ ∃ c ∈ s.shared.returned, s.shared.file = some c.file

/-- Calls that do not have the file open do not depend on it. -/
theorem Access.Fits.of_inactive {d d' : Disk} {t : Access} (ht : t.isActive = false) (h : t.Fits d)
    (hret : ∀ c ∈ d.returned, c ∈ d'.returned) : t.Fits d' := by
  cases t with
  | received m data =>
    obtain ⟨c, hc, hm, hp⟩ := h
    exact ⟨c, hret c hc, hm, hp⟩
  | writing => simp at ht
  | decoding => simp at ht
  | reading => simp at ht
  | _ => trivial

theorem Access.Fits.of_returned {d d' : Disk} {t : Access} (h : t.Fits d) (hfile : d'.file = d.file)
    (hret : ∀ c ∈ d.returned, c ∈ d'.returned) : t.Fits d' := by
  cases t with
  | writing c offset left =>
    obtain ⟨f, hf, h⟩ := h
    exact ⟨f, hfile.trans hf, h⟩
  | decoding =>
    obtain ⟨c, hc, hf⟩ := h
    exact ⟨c, hret c hc, hfile.trans hf⟩
  | reading m offset data =>
    obtain ⟨c, hc, hf, h⟩ := h
    exact ⟨c, hret c hc, hfile.trans hf, h⟩
  | received m data => exact Access.Fits.of_inactive rfl h hret
  | _ => trivial

/-- What one step does: create the file, write at the end of what was written, return from `Put`, or look
at the file. -/
inductive AccessMove (d : Disk) : Access → Disk → Access → Prop
  | create (c : Content) :
      AccessMove d (.create c) { d with file := some [] } (.writing c 0 (FileSystemCache.writes c.metadata c.chunks))
  | write (c : Content) (offset : Nat) (b : Bytes) (left : List Bytes) :
      AccessMove d (.writing c offset (b :: left)) { d with file := some (writeAt (d.file.getD []) offset b) }
        (.writing c (offset + b.length) left)
  | stored (c : Content) (offset : Nat) :
      AccessMove d (.writing c offset []) { d with returned := c :: d.returned } (.stored c)
  | opened {f : Bytes} (hf : d.file = some f) : AccessMove d .opening d .decoding
  | missing (hf : d.file = none) : AccessMove d .opening d (.failed .missing)
  | header {m : ContentMetadata} {rest : Bytes} (hd : decodeHeader (d.file.getD []) = .ok (m, rest)) :
      AccessMove d .decoding d (.reading m ((d.file.getD []).length - rest.length) [])
  | noHeader {e : HeaderError} : AccessMove d .decoding d (.failed (.header e))
  | eof {m : ContentMetadata} {offset : Nat} {data : Bytes} (hend : (d.file.getD []).drop offset = []) :
      AccessMove d (.reading m offset data) d (.received m data)
  | read (m : ContentMetadata) (offset : Nat) (data : Bytes) (n : Nat) :
      AccessMove d (.reading m offset data) d
        (.reading m (offset + (((d.file.getD []).drop offset).take n).length)
          (data ++ ((d.file.getD []).drop offset).take n))

theorem accessStep_cases {d d' : Disk} {t t' : Access} {n : Nat} (h : accessStep d t n = some (d', t')) :
    AccessMove d t d' t' := by
  cases t with
  | create c => cases h; exact .create c
  | writing c offset left =>
    cases left with
    | nil => cases h; exact .stored c offset
    | cons b left => cases h; exact .write c offset b left
  | opening =>
    simp only [accessStep] at h
    split at h <;> cases h
    · exact .missing ‹_›
    · exact .opened ‹_›
  | decoding =>
    simp only [accessStep] at h
    split at h <;> cases h
    · exact .noHeader
    · exact .header ‹_›
  | reading m offset data =>
    simp only [accessStep] at h
    split at h
    · cases h
    · rename_i hn
      split at h
      · rename_i hb
        cases h
        exact .eof ((List.take_eq_nil_iff.1 hb).resolve_left hn)
      · cases h
        exact .read m offset data n
  | stored c => cases h
  | received m data => cases h
  | failed e => cases h

/-! ## One step -/

section

variable {s : FileState} {n : Nat} {t t' : Access} {d' : Disk}

theorem decodeHeader_file (c : Content) : decodeHeader c.file = .ok (c.metadata, c.payload) :=
  decodeHeader_fileHeader c.storable.writable c.payload

theorem drop_file (c : Content) : c.file.drop (c.file.length - c.payload.length) = c.payload := by
  rw [Content.file, FileSystemCache.encoded, List.length_append, Nat.add_sub_cancel, List.drop_left]

/-- The call that makes the step still fits. -/
theorem fits_move (hs : Intact s) (ht : t.Fits s.shared) (hsep : SeparateAccess s t)
    (hm : AccessMove s.shared t d' t') : t'.Fits d' := by
  cases hm with
  | create c => exact ⟨[], rfl, rfl, by rw [List.nil_append, FileSystemCache.writes, List.flatten_append]; rfl⟩
  | write c offset b left =>
    obtain ⟨f, hf, rfl, hfile⟩ := ht
    refine ⟨f ++ b, by simp only [hf, Option.getD_some, writeAt_end], List.length_append, ?_⟩
    rw [← hfile, List.flatten_cons, List.append_assoc]
  | stored c offset => trivial
  | opened hf =>
    -- nobody writes, so the file is that of a `Put` that has returned
    rcases hs.settled hsep with hnone | hc
    · rw [hnone] at hf; cases hf
    · exact hc
  | missing hf => trivial
  | header hd =>
    obtain ⟨c, hc, hf⟩ := ht
    rw [hf, Option.getD_some, decodeHeader_file] at hd
    cases hd
    exact ⟨c, hc, hf, rfl, by rw [hf, Option.getD_some, List.nil_append, drop_file]⟩
  | noHeader => trivial
  | eof hend =>
    obtain ⟨c, hc, hf, hmeta, hdata⟩ := ht
    rw [hf, Option.getD_some] at hend
    rw [hend, List.append_nil] at hdata
    exact ⟨c, hc, hmeta, hdata.symm⟩
  | read m offset data n =>
    obtain ⟨c, hc, hf, hmeta, hdata⟩ := ht
    refine ⟨c, hc, hf, hmeta, ?_⟩
    rw [hf, Option.getD_some, ← List.drop_drop, List.append_assoc, Reader.take_append_drop_length, hdata]

/-- The other calls still fit: who changes the file is alone with it. -/
theorem fits_others (hs : Intact s) (ht : s.threads[n]? = some t) (hsep : SeparateAccess s t)
    (hm : AccessMove s.shared t d' t') {i : Nat} {x : Access} (hi : i ≠ n) (hx : s.threads[i]? = some x) :
    x.Fits d' := by
  have hfits := hs.fits x (List.mem_of_getElem? hx)
  cases hm with
  | create c => exact hfits.of_inactive (hsep x (List.mem_of_getElem? hx)) fun _ hc => hc
  | write c offset b left =>
    refine hfits.of_inactive ?_ fun _ hc => hc
    by_contra hactive
    exact hi (hs.alone n i _ x ht hx rfl (by simpa using hactive)).symm
  | stored c offset => exact hfits.of_returned rfl fun _ hc => List.mem_cons_of_mem _ hc
  -- a `Get` changes nothing
  | _ => exact hfits

theorem isActive_of_isWriting {t : Access} (h : t.isWriting = true) : t.isActive = true := by
  cases t <;> simp_all

/-- A step that opens nothing leaves the writer alone. -/
theorem alone_of_le (hs : Intact s) (ht : s.threads[n]? = some t) (h1 : t'.isWriting = true → t.isWriting = true)
    (h2 : t'.isActive = true → t.isActive = true) (i j : Nat) (x y : Access) (hx : (s.threads.set n t')[i]? = some x)
    (hy : (s.threads.set n t')[j]? = some y) (hw : x.isWriting = true) (ha : y.isActive = true) : i = j := by
  have hback : ∀ {m : Nat} {z : Access}, (s.threads.set n t')[m]? = some z →
      ∃ z', s.threads[m]? = some z' ∧ (z.isWriting = true → z'.isWriting = true) ∧
        (z.isActive = true → z'.isActive = true) := by
    intro m z hz
    by_cases hm : n = m
    · subst hm
      rw [List.getElem?_set_self', ht] at hz
      cases hz
      exact ⟨t, ht, h1, h2⟩
    · rw [List.getElem?_set_ne hm] at hz
      exact ⟨z, hz, id, id⟩
  obtain ⟨x', hx', hxw, -⟩ := hback hx
  obtain ⟨y', hy', -, hya⟩ := hback hy
  exact hs.alone i j x' y' hx' hy' (hxw hw) (hya ha)

theorem alone_move (hs : Intact s) (ht : s.threads[n]? = some t) (hsep : SeparateAccess s t)
    (hm : AccessMove s.shared t d' t') (i j : Nat) (x y : Access) (hx : (s.threads.set n t')[i]? = some x)
    (hy : (s.threads.set n t')[j]? = some y) (hw : x.isWriting = true) (ha : y.isActive = true) : i = j := by
  have hother : ∀ {m : Nat} {z : Access}, m ≠ n → (s.threads.set n t')[m]? = some z → z ∈ s.threads := by
    intro m z hm hz
    rw [List.getElem?_set_ne (Ne.symm hm)] at hz
    exact List.mem_of_getElem? hz
  cases hm with
  | create c =>
    -- nobody else has the file open
    by_cases hi : i = n
    · by_cases hj : j = n
      · rw [hi, hj]
      · exact absurd ha (Bool.eq_false_iff.1 (hsep y (hother hj hy)))
    · exact absurd (isActive_of_isWriting hw) (Bool.eq_false_iff.1 (hsep x (hother hi hx)))
  | opened hf =>
    by_cases hi : i = n
    · subst hi
      rw [List.getElem?_set_self', ht] at hx
      cases hx
      cases hw
    · exact absurd hw (Bool.eq_false_iff.1 (hsep x (hother hi hx)))
  | _ => exact alone_of_le hs ht (by simp) (by simp) i j x y hx hy hw ha

theorem settled_move (hs : Intact s) (ht : s.threads[n]? = some t) (hm : AccessMove s.shared t d' t')
    (hnone : ∀ x ∈ s.threads.set n t', x.isWriting = false) :
    d'.file = none ∨ ∃ c ∈ d'.returned, d'.file = some c.file := by
  have hmem : t' ∈ s.threads.set n t' := List.mem_set (List.getElem?_eq_some_iff.1 ht).1 t'
  -- before the step nobody wrote either, unless it was the step of the writer itself
  have hbefore : t.isWriting = false → ∀ x ∈ s.threads, x.isWriting = false := by
    intro htw x hx
    obtain ⟨i, hi⟩ := List.mem_iff_getElem?.1 hx
    by_cases hin : n = i
    · subst hin
      rw [ht] at hi
      cases hi
      exact htw
    · exact hnone x (List.mem_of_getElem? ((List.getElem?_set_ne hin).trans hi))
  cases hm with
  | create c => exact absurd (hnone _ hmem) (by simp)
  | write => exact absurd (hnone _ hmem) (by simp)
  | stored c offset =>
    -- everything is written, so the file is what this `Put` was called with
    obtain ⟨f, hf, -, hfile⟩ := hs.fits _ (List.mem_of_getElem? ht)
    rw [List.flatten_nil, List.append_nil] at hfile
    exact .inr ⟨c, List.mem_cons_self, hfile ▸ hf⟩
  | _ => exact hs.settled (hbefore rfl)

theorem intact_step (hs : Intact s) (ht : s.threads[n]? = some t) (hsep : SeparateAccess s t)
    (hm : AccessMove s.shared t d' t') : Intact ⟨d', s.threads.set n t'⟩ where
  fits x hx := by
    rcases Pool.mem_set_cases hx with rfl | ⟨i, hi, hxi⟩
    · exact fits_move hs (hs.fits t (List.mem_of_getElem? ht)) hsep hm
    · exact fits_others hs ht hsep hm hi hxi
  alone := alone_move hs ht hsep hm
  settled := settled_move hs ht hm

end

/-! ## Whole runs -/

theorem intact_next {s s' : FileState} {a : FileAction} (hs : Intact s) (hn : fileProgram.next s a = some s')
    (hsep : SeparateAction s a) : Intact s' := by
  obtain ⟨i, -, rfl⟩ | ⟨n, c, t, d', t', rfl, ht, hst, rfl⟩ | ⟨e, -⟩ := Pool.Program.next_cases hn
  · have hspawn : (fileProgram.spawn i).isActive = false ∧ (fileProgram.spawn i).Fits s.shared := by
      cases i <;> exact ⟨rfl, trivial⟩
    -- a new access has touched nothing yet
    have hold : ∀ {m : Nat} {x : Access}, (s.threads ++ [fileProgram.spawn i])[m]? = some x → x.isActive = true →
        s.threads[m]? = some x := by
      intro m x hx ha
      rcases Nat.lt_or_ge m s.threads.length with hm | hm
      · rwa [List.getElem?_append_left hm] at hx
      · rw [List.getElem?_append_right hm, List.getElem?_singleton] at hx
        split at hx
        · cases hx; rw [hspawn.1] at ha; cases ha
        · cases hx
    refine ⟨Pool.forall_mem_concat hs.fits hspawn.2, fun i j t t' h1 h2 hw ha => ?_,
      fun hnone => hs.settled fun t ht => ?_⟩
    · exact hs.alone i j t t' (hold h1 (isActive_of_isWriting hw)) (hold h2 ha) hw ha
    · exact hnone t (List.mem_append_left _ ht)
  · exact intact_step hs ht (hsep t ht) (accessStep_cases hst)
  · exact e.elim

theorem intact_noFile {s : FileState} (hs : NoFile s) : Intact s := by
  obtain ⟨hthreads, hfile⟩ := hs
  refine ⟨fun t ht => ?_, fun i j t t' h => ?_, fun _ => .inl hfile⟩
  · rw [hthreads] at ht; cases ht
  · rw [hthreads] at h; cases h

/-- No torn reads when accesses are separate: in every run in which a `Put` creates the file only while no
other call has it open and a `Get` opens it only while no `Put` writes it, every `Get` that is read to the
end gives the metadata and the whole payload of one single `Put`, of the length its metadata say. -/
theorem reads_are_whole {s : FileState}
    (h : Steps.ReachWhen fileProgram.next NoFile (fun s a _ => SeparateAction s a) s) {m : ContentMetadata}
    {data : Bytes} (ht : Access.received m data ∈ s.threads) :
    (data.length : Int) = m.length ∧ ∃ c ∈ s.shared.returned, c.metadata = m ∧ c.payload = data := by
  have hs : Intact s := h.invariant (fun _ => intact_noFile) fun _ _ _ hs hn hsep => intact_next hs hn hsep
  obtain ⟨c, hc, rfl, rfl⟩ := hs.fits _ ht
  exact ⟨c.length_eq.symm, c, hc, rfl, rfl⟩

/-! ## One `Put` and one `Get` -/

instance (s : FileState) : (t : Access) → Decidable (SeparateAccess s t)
  | .create _ | .opening => List.decidableBAll _ _
  | .writing _ _ _ | .stored _ | .decoding | .reading _ _ _ | .received _ _ | .failed _ => instDecidableTrue

instance (s : FileState) : (a : FileAction) → Decidable (SeparateAction s a)
  | .step _ _ => Option.decidableForallMem _
  | .spawn _ | .env _ => instDecidableTrue

def twoBytes : Content where
  metadata := ⟨2, [], []⟩
  chunks := [bytes "ok"]
  length_eq := by decide
  storable := ⟨by decide, by decide, by decide, by decide⟩
  size_lt := by decide

def noFile : FileState := ⟨⟨none, []⟩, []⟩

theorem noFile_noFile : NoFile noFile := ⟨rfl, rfl⟩

/-- The `Get` comes after `steps` steps of the `Put`, and is read with a large buffer. -/
def getAfter (steps : Nat) : List FileAction :=
  .spawn (.put twoBytes) :: List.replicate steps (.step 0 0) ++
    [.spawn .get, .step 1 0, .step 1 0, .step 1 10, .step 1 10]

def readAfterPut : FileState := (Steps.run fileProgram.next noFile (getAfter 6)).getD noFile

set_option maxRecDepth 4000 in
theorem reads_are_whole_after_put :
    Access.received ⟨2, [], []⟩ (bytes "ok") ∈ readAfterPut.threads ∧
    ∃ c ∈ readAfterPut.shared.returned, c.metadata = ⟨2, [], []⟩ ∧ c.payload = bytes "ok" := by
  have hreach : Steps.ReachWhen fileProgram.next NoFile (fun s a _ => SeparateAction s a) readAfterPut :=
    .of_runWhen (fun _ _ _ h => of_decide_eq_true h) (getAfter 6) (.init noFile_noFile) rfl
  have hmem : Access.received ⟨2, [], []⟩ (bytes "ok") ∈ readAfterPut.threads :=
    List.mem_of_getElem? (i := 1) rfl
  exact ⟨hmem, (reads_are_whole hreach hmem).2⟩

/-- The `Get` comes when the header is written and the payload is not. -/
def halfWritten : List FileAction := (getAfter 4).dropLast

def readDuringPut : FileState := (Steps.run fileProgram.next noFile halfWritten).getD noFile

set_option maxRecDepth 4000 in
/-- It returns the metadata of a response of two bytes and no bytes, while no `Put` has returned. -/
theorem torn_read :
    Steps.Reach fileProgram.next NoFile readDuringPut ∧
    readDuringPut.threads[1]? = some (.received ⟨2, [], []⟩ []) ∧ readDuringPut.shared.returned = [] ∧
    (([] : Bytes).length : Int) ≠ 2 ∧ twoBytes.payload ≠ [] :=
  ⟨.of_run halfWritten (.init noFile_noFile) rfl, rfl, rfl, by decide, by decide⟩

end Chproxy.Cache
