/-
Entries that are written in place (`cache/filesystem_cache.go`). `Put` creates the file of its key, or truncates the
one that is there, and writes into it; `Get` opens the file, and what is sent to the client is read from there. Both
take time, and when a `Put` overlaps another call for the same key, what is read or left may be anything.

As long as none does, the requests do what those of `Provenance` do, for which every operation is one step.
-/
import Chproxy.Proxy.Provenance

namespace Chproxy.Proxy

open Utils Cache Pool

/-! ## Files -/

abbrev Entry := Option (Bytes × ContentMetadata)

/-- What a request does with the file of its key. A reader has the entry it found and the time to live that `Get`
returned, and remembers how many calls of `Put` had begun and whether one was under way when it opened the file. -/
inductive Access
  | none
  | reading (found : Entry) (ttl : Int) (begun : Nat) (busy : Bool)
  | writing

structure Visitor where
  client : Client
  access : Access := .none

/-- The cache and, for each key, the number of calls of `Put` under way and of those begun; it is spoiled while calls
that have overlapped are under way. -/
structure Files where
  shared : Shared
  writers : String → Nat
  begun : String → Nat
  spoiled : String → Bool

/-- A step that is neither a `Get` nor a `Put`, or in which `Get` fails; and the two ends of a `Get` and of a `Put`,
with what is read or left if calls overlap. -/
inductive Touch
  | single (c : Choice ⊕ Fault)
  | openFile (ttl : Int)
  | sendFile (torn : Entry)
  | createFile
  | closeFile (c : Choice) (torn : Entry)

/-- At a `Get` or at a `Put`. -/
def Pc.touches : Pc → Bool
  | .get | .getAgain | .calls (.put _ _ :: _) => true
  | _ => false

/-- `serveFromCache` after a `Get`. -/
def Client.receive (t : Client) (found : Entry) (ttl : Int) : Client :=
  match found with
  | some (data, metadata) => { t with srw := (t.srw.respondWithData data metadata ttl .hit 200).1, pc := .done .hit }
  | none => t.goto (if t.pc = .get then .enter else .newTmp)

def Files.create (fs : Files) (k : String) : Files where
  shared := fs.shared
  writers := Function.update fs.writers k (fs.writers k + 1)
  begun := Function.update fs.begun k (fs.begun k + 1)
  spoiled := Function.update fs.spoiled k (fs.spoiled k || decide (0 < fs.writers k))

/-- The end of a `Put` that has brought the cache to `h`. -/
def Files.close (fs : Files) (k : String) (h : Shared) (torn : Entry) : Files where
  shared := if fs.spoiled k then { h with cached := Function.update h.cached k torn } else h
  writers := Function.update fs.writers k (fs.writers k - 1)
  begun := fs.begun
  spoiled := Function.update fs.spoiled k (fs.spoiled k && decide (1 < fs.writers k))

def visit (graceTime : Int) (fs : Files) (v : Visitor) (c : Touch) : Option (Files × Visitor) :=
  let k := v.client.key
  match v.access, c with
  | .none, .single c =>
    if v.client.pc.touches = true ∧ c.isLeft = true then none
    else ((faulty graceTime).step fs.shared v.client c).map fun x => ({ fs with shared := x.1 }, ⟨x.2, .none⟩)
  | .none, .openFile ttl =>
    if v.client.pc = .get ∨ v.client.pc = .getAgain then
      some (fs, ⟨v.client, .reading (fs.shared.cached k) ttl (fs.begun k) (decide (0 < fs.writers k))⟩)
    else none
  | .reading found ttl begun busy, .sendFile torn =>
    some (fs, ⟨v.client.receive (if busy = false ∧ fs.begun k = begun then found else torn) ttl, .none⟩)
  | .none, .createFile =>
    match v.client.pc with
    | .calls (.put _ _ :: _) => some (fs.create k, ⟨v.client, .writing⟩)
    | _ => none
  -- `putError none` is also for a file that was removed while it was written
  | .writing, .closeFile c torn =>
    (step graceTime fs.shared v.client c).map fun x => (fs.close k x.1 torn, ⟨x.2, .none⟩)
  | _, _ => none

abbrev FilesState := St Files Visitor

def Access.isReading : Access → Bool
  | .reading .. => true
  | _ => false

/-- No `Put` overlaps another `Put` or a `Get` of its key, and a failed one leaves what it may leave. -/
def SeparateTouch (s : FilesState) (v : Visitor) : Touch → Prop
  | .single c => ProperChoice s.shared.shared v.client c
  | .openFile _ => s.shared.writers v.client.key = 0
  | .sendFile _ => True
  | .createFile => s.shared.writers v.client.key = 0 ∧
      ∀ u ∈ s.threads, u.client.key = v.client.key → u.access.isReading = false
  | .closeFile c _ => ProperChoice s.shared.shared v.client (.inl c)

/-- The request as it will be when what it is reading is sent. -/
def Visitor.settled (v : Visitor) : Client :=
  match v.access with
  | .reading found ttl _ _ => v.client.receive found ttl
  | _ => v.client

/-- No `Put` has begun since the file was opened. -/
def Visitor.Undisturbed (fs : Files) (v : Visitor) : Prop :=
  ∀ found ttl begun busy, v.access = .reading found ttl begun busy →
    busy = false ∧ fs.begun v.client.key = begun ∧ v.client.pc.early = true

structure Calm (s : FilesState) : Prop where
  spoiled : ∀ k, s.shared.spoiled k = false
  readers : ∀ v ∈ s.threads, v.Undisturbed s.shared

variable {graceTime : Int} {fs fs' : Files} {v v' : Visitor} {c : Touch}

theorem Visitor.Undisturbed.of_access (h : v.access.isReading = false) : v.Undisturbed fs := by
  intro found ttl begun busy hreading
  rw [hreading] at h
  cases h

/-- Every step of a visitor. -/
inductive Visit (graceTime : Int) (fs : Files) (v : Visitor) : Touch → Files → Visitor → Prop
  | single {c : Choice ⊕ Fault} {h' : Shared} {t' : Client} : v.access = .none →
      (faulty graceTime).step fs.shared v.client c = some (h', t') →
      Visit graceTime fs v (.single c) { fs with shared := h' } ⟨t', .none⟩
  | openFile {ttl : Int} : v.access = .none → v.client.pc = .get ∨ v.client.pc = .getAgain →
      Visit graceTime fs v (.openFile ttl) fs ⟨v.client,
        .reading (fs.shared.cached v.client.key) ttl (fs.begun v.client.key) (decide (0 < fs.writers v.client.key))⟩
  | sendFile {found torn : Entry} {ttl : Int} {begun : Nat} {busy : Bool} : v.access = .reading found ttl begun busy →
      Visit graceTime fs v (.sendFile torn) fs
        ⟨v.client.receive (if busy = false ∧ fs.begun v.client.key = begun then found else torn) ttl, .none⟩
  | createFile : v.access = .none → Visit graceTime fs v .createFile (fs.create v.client.key) ⟨v.client, .writing⟩
  | closeFile {c : Choice} {torn : Entry} {h' : Shared} {t' : Client} : v.access = .writing →
      step graceTime fs.shared v.client c = some (h', t') →
      Visit graceTime fs v (.closeFile c torn) (fs.close v.client.key h' torn) ⟨t', .none⟩

section Steps

variable {s : FilesState} {n : Nat}

/-- Calls that are kept apart leave nothing spoiled and no reader disturbed. -/
theorem Calm.visit (hs : Calm s) (hm : Visit graceTime s.shared v c fs' v') (hc : SeparateTouch s v c) :
    Calm ⟨fs', s.threads.set n v'⟩ := by
  cases hm with
  | single => exact ⟨hs.spoiled, forall_mem_set hs.readers (.of_access rfl)⟩
  | openFile _ hpc =>
    refine ⟨hs.spoiled, forall_mem_set hs.readers ?_⟩
    rintro found ttl begun busy ⟨⟩
    have hidle : s.shared.writers v.client.key = 0 := hc
    refine ⟨by simp [hidle], rfl, ?_⟩
    show v.client.pc.early = true
    rcases hpc with hpc | hpc <;> rw [hpc] <;> rfl
  | sendFile => exact ⟨hs.spoiled, forall_mem_set hs.readers (.of_access rfl)⟩
  | createFile =>
    obtain ⟨hidle, hreaders⟩ := hc
    refine ⟨fun k => ?_, forall_mem_set (fun u hu => ?_) (.of_access rfl)⟩
    · by_cases hk : k = v.client.key
      · simp [Files.create, hk, hidle, hs.spoiled]
      · simp [Files.create, hk, hs.spoiled]
    · -- whoever is reading has another key
      intro found ttl begun busy hreading
      obtain ⟨hbusy, hbegun, hearly⟩ := hs.readers u hu found ttl begun busy hreading
      have hkey : u.client.key ≠ v.client.key := by
        intro hkey
        have hnot := hreaders u hu hkey
        rw [hreading] at hnot
        cases hnot
      exact ⟨hbusy, by simpa [Files.create, hkey] using hbegun, hearly⟩
  | closeFile =>
    refine ⟨fun k => ?_, forall_mem_set hs.readers (.of_access rfl)⟩
    by_cases hk : k = v.client.key
    · simp [Files.close, hk, hs.spoiled]
    · simp [Files.close, hk, hs.spoiled]

end Steps

variable {before : String → Entry}

end Chproxy.Proxy
