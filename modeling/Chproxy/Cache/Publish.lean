/-
Any number of `redisCache.Put` calls on one key side by side (`cache/redis_cache.go`): each collects its
value under a temporary key and renames it to the key. The commands of Redis are atomic, any key may expire
between two of them, and a command may fail. The client repeats a command whose answer it did not get, so
a command that fails in the end may still have been applied, even more than once; it is not applied later.
-/
import Chproxy.Cache.Redis
import Chproxy.Lib.Pool

namespace Chproxy.Cache

open Utils

/-! ## Readers -/

inductive ReadErr
  | eof
  | other
  deriving DecidableEq, Repr

/-- A call of `Put`: the metadata, the random number drawn and what each call of `Read` returns. -/
structure PutJob where
  metadata : ContentMetadata
  random : Nat
  read : Nat → Bytes × Option ReadErr

namespace PutJob

variable (p : PutJob)

/-- The bytes of the first `n` reads. -/
def before : Nat → Bytes
  | 0 => []
  | n + 1 => before n ++ (p.read n).1

/-- The first read that reports the end of the reader. -/
def EofAt (j : Nat) : Prop := (∀ k < j, (p.read k).2 ≠ some .eof) ∧ (p.read j).2 = some .eof

/-- All the bytes that the reader produces up to its end. -/
def UpToEof (x : Bytes) : Prop := ∃ j, p.EofAt j ∧ x = p.before (j + 1)

/-- The first `n` reads return bytes and no error other than the end. -/
def Passed (n : Nat) : Prop := ∀ k < n, (p.read k).1 ≠ [] ∧ (p.read k).2 ≠ some .other

/-- The empty read at which the loop of `Put` stops is at the end of the reader: the end is reported by the
read before it, by it, or by a later one with nothing read in between. -/
def Whole : Prop :=
  ∀ n, p.Passed n → (p.read n).1 = [] → ∃ j, p.EofAt j ∧ n ≤ j + 1 ∧ ∀ k, n ≤ k → k ≤ j → (p.read k).1 = []

variable {p}

theorem Passed.succ {n : Nat} (h : p.Passed n) (h1 : (p.read n).1 ≠ []) (h2 : (p.read n).2 ≠ some .other) :
    p.Passed (n + 1) := by
  intro k hk
  rcases Nat.lt_succ_iff_lt_or_eq.1 hk with hk | rfl
  · exact h k hk
  · exact ⟨h1, h2⟩

/-- What is read between two points. -/
theorem before_add (n : Nat) : ∀ d, ∃ x, p.before (n + d) = p.before n ++ x ∧
    (x = [] ↔ ∀ k, n ≤ k → k < n + d → (p.read k).1 = [])
  | 0 => ⟨[], by simp, by simp; omega⟩
  | d + 1 => by
    obtain ⟨x, hx, hnil⟩ := before_add n d
    refine ⟨x ++ (p.read (n + d)).1, by rw [← Nat.add_assoc, before, hx, List.append_assoc], ?_⟩
    rw [List.append_eq_nil_iff, hnil]
    constructor
    · rintro ⟨h1, h2⟩ k hk hlt
      rcases Nat.lt_succ_iff_lt_or_eq.1 hlt with hlt | rfl
      · exact h1 k hk hlt
      · exact h2
    · intro h
      exact ⟨fun k hk hlt => h k hk (by omega), h (n + d) (by omega) (by omega)⟩

/-- What `Put` takes for the whole payload is the whole payload exactly for the readers described. -/
theorem whole_iff : p.Whole ↔ ∀ n, p.Passed n → (p.read n).1 = [] → p.UpToEof (p.before n) := by
  refine forall_congr' fun n => imp_congr_right fun hpassed => imp_congr_right fun hempty => ?_
  constructor
  · rintro ⟨j, heof, hle, hnone⟩
    obtain ⟨x, hx, hnil⟩ := before_add (p := p) n (j + 1 - n)
    rw [Nat.add_sub_cancel' hle] at hx hnil
    rw [hnil.2 fun k h1 h2 => hnone k h1 (by omega), List.append_nil] at hx
    exact ⟨j, heof, hx.symm⟩
  · rintro ⟨j, heof, hx⟩
    rcases Nat.lt_or_ge (j + 1) n with hlt | hle
    · -- bytes were read after the end
      obtain ⟨y, hy, hnil⟩ := before_add (p := p) (j + 1) (n - (j + 1))
      rw [Nat.add_sub_cancel' hlt.le] at hy hnil
      rw [hx] at hy
      exact absurd (hnil.1 (by simpa using hy) (j + 1) le_rfl hlt) (hpassed (j + 1) hlt).1
    · obtain ⟨y, hy, hnil⟩ := before_add (p := p) n (j + 1 - n)
      rw [Nat.add_sub_cancel' hle] at hy hnil
      rw [← hx] at hy
      exact ⟨j, heof, hle, fun k h1 h2 => hnil.1 (by simpa using hy) k h1 (by omega)⟩

end PutJob

/-! ## Steps -/

/-- Where a `Put` is: before its SET, before a read with `k` reads made, before the APPEND of what the
`k`-th read returned, in `clean`, before its RENAME, or at its end. `expected` is
`totalByteWrittenExpected`. -/
inductive PutPc
  | set
  | loop (k expected : Nat)
  | append (k expected : Nat) (b : Bytes)
  | clean
  | rename
  | returned (ok : Bool)
  deriving DecidableEq

structure PutThread where
  job : PutJob
  pc : PutPc

/-- The commands of `Put`, on its temporary key. -/
inductive Command
  | set (value : Bytes)
  | append (b : Bytes)
  | del
  | rename
  deriving DecidableEq

/-- A command applied; the number is the answer of APPEND. -/
def Command.exec (key tmp : String) (db : RedisDB) : Command → RedisDB × Nat
  | set value => (db.set tmp value, 0)
  | append b => db.append tmp b
  | del => (db.del tmp, 0)
  | rename => (db.rename tmp key, 0)

/-- How a command goes: it is applied and answered, it is applied but the answer is lost and the client
sends it again, or it fails. -/
inductive Reply
  | ok
  | lost
  | failed
  deriving DecidableEq

namespace PutThread

variable (t : PutThread)

/-- The command sent next. -/
def command : Option Command :=
  match t.pc with
  | .set => some (.set (encodeMetadata t.job.metadata))
  | .append _ _ b => some (.append b)
  | .clean => some .del
  | .rename => some .rename
  | .loop _ _ | .returned _ => none

/-- What follows a command that was answered. -/
def answered (answer : Nat) : PutPc :=
  match t.pc with
  | .set => .loop 0 (encodeMetadata t.job.metadata).length
  -- the check for `io.EOF` here is made on the error of APPEND, which is nil
  | .append k expected b => if answer ≠ expected + b.length then .clean else .loop (k + 1) (expected + b.length)
  | .clean => .returned false
  | .rename => .returned true
  | pc => pc

/-- What follows a command that failed; the error of RENAME is not looked at. -/
def refused : PutPc :=
  match t.pc with
  | .set => .returned false
  | .append _ _ _ => .clean
  | .clean => .returned false
  | .rename => .returned true
  | pc => pc

/-- What follows a read: an empty one ends the loop, whatever its error is. -/
def afterRead (k expected : Nat) : PutPc :=
  if (t.job.read k).1.length = 0 then .rename
  else if (t.job.read k).2 = some .other then .returned false
  else .append k expected (t.job.read k).1

end PutThread

/-- One step of a `Put`. -/
def putStep (key : String) (db : RedisDB) (t : PutThread) (r : Reply) : Option (RedisDB × PutThread) :=
  match t.pc, t.command with
  | .loop k expected, _ => some (db, { t with pc := t.afterRead k expected })
  | _, some c =>
    let res := c.exec key (tmpKey key t.job.random) db
    match r with
    | .ok => some (res.1, { t with pc := t.answered res.2 })
    | .lost => some (res.1, t)
    | .failed => some (db, { t with pc := t.refused })
  | _, none => none

/-- The program of the callers of `Put`; the environment lets keys expire. -/
def putProgram (key : String) : Pool.Program RedisDB PutThread PutJob Reply String where
  spawn p := ⟨p, .set⟩
  step := putStep key
  env db k := some (db.del k)

abbrev PutState := Pool.St RedisDB PutThread

abbrev PutAction := Pool.Act PutJob Reply String

/-- The calls made so far. -/
def jobs (s : PutState) : List PutJob := s.threads.map PutThread.job

/-- Nothing under the key and no call yet. -/
def Unpublished (key : String) (s : PutState) : Prop := s.threads = [] ∧ s.shared key = none

/-- The value under the key is absent, or the metadata of one `Put` and everything up to the end of its
reader. -/
def PublishedWhole (key : String) (s : PutState) : Prop :=
  s.shared key = none ∨ ∃ p ∈ jobs s, ∃ x, p.UpToEof x ∧ s.shared key = some (redisValue p.metadata x)

/-- What may happen: calls of `A`, each with a random number of its own, and no APPEND that is applied
without an answer after its temporary key has expired. -/
def Admitted (key : String) (A : PutJob → Prop) (s : PutState) : PutAction → Prop
  | .spawn p => A p ∧ p.random ∉ (jobs s).map PutJob.random
  | .step n .lost => ∀ t ∈ s.threads[n]?, ∀ b, t.command = some (.append b) →
      s.shared (tmpKey key t.job.random) ≠ none
  | _ => True

/-! ## Keys -/

theorem tmpKey_ne (key : String) (random : Nat) : tmpKey key random ≠ key := by
  intro h
  have hlen := congrArg String.length h
  have hbrace : "\x7d".length = 1 := by decide
  simp only [tmpKey, String.length_append] at hlen
  omega

theorem tmpKey_injective {key : String} {a b : Nat} (h : tmpKey key a = tmpKey key b) : a = b := by
  have hlist := congrArg String.toList h
  simp only [tmpKey, String.toList_append] at hlist
  have hdigits := List.append_cancel_left (List.append_cancel_right hlist)
  have hnum := congrArg (fun ds => Nat.ofDigitChars 10 ds 0) hdigits
  simpa [Nat.toString_eq_ofList_toDigits] using hnum

/-! ## One step -/

section

variable {key : String} {db db' : RedisDB} {t t' : PutThread} {r : Reply}

/-- What a step does: a read, or a command in one of three ways. -/
inductive PutMove (key : String) (db : RedisDB) (t : PutThread) : Reply → RedisDB → PutThread → Prop
  | read {k expected : Nat} (hpc : t.pc = .loop k expected) (r : Reply) :
      PutMove key db t r db { t with pc := t.afterRead k expected }
  | answered {c : Command} (hc : t.command = some c) :
      PutMove key db t .ok (c.exec key (tmpKey key t.job.random) db).1
        { t with pc := t.answered (c.exec key (tmpKey key t.job.random) db).2 }
  | lost {c : Command} (hc : t.command = some c) :
      PutMove key db t .lost (c.exec key (tmpKey key t.job.random) db).1 t
  | refused {c : Command} (hc : t.command = some c) : PutMove key db t .failed db { t with pc := t.refused }

theorem putStep_cases (h : putStep key db t r = some (db', t')) : PutMove key db t r db' t' := by
  unfold putStep at h
  split at h
  · cases h
    exact .read ‹_› r
  · rename_i c hc hloop
    cases r <;> cases h
    · exact .answered hc
    · exact .lost hc
    · exact .refused hc
  · cases h

/-- A command touches only the temporary key and, if it is RENAME, the key. -/
theorem exec_other (c : Command) (tmp : String) {j : String} (h1 : j ≠ tmp) (h2 : j = key → c ≠ .rename) :
    (c.exec key tmp db).1 j = db j := by
  cases c with
  | set value => exact Function.update_of_ne h1 ..
  | append b => exact Function.update_of_ne h1 ..
  | del => exact Function.update_of_ne h1 ..
  | rename =>
    have hj : j ≠ key := fun h => h2 h rfl
    cases htmp : db tmp with
    | none => simp [Command.exec, RedisDB.rename, htmp]
    | some v => simp [Command.exec, RedisDB.rename, htmp, RedisDB.set, RedisDB.del, hj, h1]

/-- RENAME moves the value of the temporary key, if there is one. -/
theorem exec_rename (tmp : String) (hne : tmp ≠ key) :
    (∃ v, db tmp = some v ∧ (Command.rename.exec key tmp db).1 key = some v ∧
      (Command.rename.exec key tmp db).1 tmp = none) ∨
    (db tmp = none ∧ (Command.rename.exec key tmp db).1 = db) := by
  cases htmp : db tmp with
  | none => exact .inr ⟨rfl, by simp [Command.exec, RedisDB.rename, htmp]⟩
  | some v =>
    refine .inl ⟨v, rfl, ?_, ?_⟩
    · simp [Command.exec, RedisDB.rename, htmp, RedisDB.set]
    · simp [Command.exec, RedisDB.rename, htmp, RedisDB.set, RedisDB.del, hne]

theorem job_move (h : PutMove key db t r db' t') : t'.job = t.job := by
  cases h <;> rfl

/-- A step of a `Put` leaves the other keys, and the key itself unless it renames. -/
theorem other_move (h : PutMove key db t r db' t') {j : String} (h1 : j ≠ tmpKey key t.job.random)
    (h2 : j = key → t.pc ≠ .rename) : db' j = db j := by
  have hexec : ∀ {c}, t.command = some c → (c.exec key (tmpKey key t.job.random) db).1 j = db j := by
    intro c hc
    refine exec_other c _ h1 fun hj => ?_
    rintro rfl
    have := h2 hj
    unfold PutThread.command at hc
    split at hc <;> simp_all
  cases h with
  | read | refused => rfl
  | answered hc => exact hexec hc
  | lost hc => exact hexec hc

/-! ## What a `Put` knows of its temporary key -/

/-- The value after the first `k` reads. -/
def PutJob.value (p : PutJob) (k : Nat) : Bytes := redisValue p.metadata (p.before k)

/-- Between two commands the temporary key has the value collected so far or has expired. Before an APPEND
it may have grown, by APPENDs whose answers were lost. -/
def PutPc.Fits (key : String) (db : RedisDB) (p : PutJob) : PutPc → Prop
  | .loop k expected => p.Passed k ∧ expected = (p.value k).length ∧
      ∀ v, db (tmpKey key p.random) = some v → v = p.value k
  | .append k expected b => p.Passed (k + 1) ∧ b = (p.read k).1 ∧ expected = (p.value k).length ∧
      ∀ v, db (tmpKey key p.random) = some v → expected ≤ v.length ∧ (v.length = expected → v = p.value k)
  | .rename => ∃ k, p.Passed k ∧ (p.read k).1 = [] ∧ ∀ v, db (tmpKey key p.random) = some v → v = p.value k
  | _ => True

/-- A `Put` does not mind that its temporary key expires. -/
theorem PutPc.Fits.mono {p : PutJob} {pc : PutPc} (h : pc.Fits key db p)
    (htmp : ∀ v, db' (tmpKey key p.random) = some v → db (tmpKey key p.random) = some v) : pc.Fits key db' p := by
  cases pc with
  | loop k expected => exact ⟨h.1, h.2.1, fun v hv => h.2.2 v (htmp v hv)⟩
  | append k expected b => exact ⟨h.1, h.2.1, h.2.2.1, fun v hv => h.2.2.2 v (htmp v hv)⟩
  | rename =>
    obtain ⟨k, h1, h2, h3⟩ := h
    exact ⟨k, h1, h2, fun v hv => h3 v (htmp v hv)⟩
  | _ => trivial

theorem PutJob.value_succ (p : PutJob) (k : Nat) : p.value (k + 1) = p.value k ++ (p.read k).1 := by
  rw [value, value, redisValue, redisValue, PutJob.before, List.append_assoc]

theorem PutJob.length_value_pos (p : PutJob) (k : Nat) : 0 < (p.value k).length := by
  rw [value, redisValue, List.length_append, length_encodeMetadata]
  omega

theorem fits_read {p : PutJob} {k expected : Nat} (h : (PutPc.loop k expected).Fits key db p) :
    (PutThread.afterRead ⟨p, .loop k expected⟩ k expected).Fits key db p := by
  obtain ⟨hpassed, hexp, hv⟩ := h
  unfold PutThread.afterRead
  dsimp only
  split
  · rename_i hempty
    exact ⟨k, hpassed, List.length_eq_zero_iff.1 hempty, hv⟩
  · rename_i hne
    split
    · trivial
    · rename_i herr
      refine ⟨hpassed.succ (mt List.length_eq_zero_iff.2 hne) herr, rfl, hexp, fun v hdb => ?_⟩
      rw [hv v hdb]
      exact ⟨hexp.le, fun _ => rfl⟩

/-- An APPEND that answers the length expected has made the value longer by what was read: on a value of
the right length it extends it, and on none the answer is too small. -/
theorem fits_append {p : PutJob} {k expected : Nat} {b : Bytes} (h : (PutPc.append k expected b).Fits key db p) :
    (PutThread.answered ⟨p, .append k expected b⟩ (db.append (tmpKey key p.random) b).2).Fits key
      (db.append (tmpKey key p.random) b).1 p := by
  obtain ⟨hpassed, rfl, hexp, hv⟩ := h
  have hpos := p.length_value_pos k
  simp only [PutThread.answered]
  split
  · trivial
  · rename_i hlen
    rw [not_not] at hlen
    refine ⟨hpassed, by rw [hexp, p.value_succ, List.length_append], fun v hdb => ?_⟩
    -- appending to a key that is gone starts over, and the length shows it
    cases htmp : db (tmpKey key p.random) with
    | none =>
      simp only [RedisDB.append, htmp, Option.getD_none, List.nil_append] at hlen
      omega
    | some w =>
      rw [RedisDB.append_of_some htmp] at hlen hdb
      simp only [RedisDB.set, Function.update_self, Option.some.injEq] at hlen hdb
      rw [← hdb, (hv w htmp).2 (by omega), p.value_succ]

theorem fits_answered {p : PutJob} {pc : PutPc} {c : Command} (hc : PutThread.command ⟨p, pc⟩ = some c)
    (h : pc.Fits key db p) :
    (PutThread.answered ⟨p, pc⟩ (c.exec key (tmpKey key p.random) db).2).Fits key
      (c.exec key (tmpKey key p.random) db).1 p := by
  cases pc with
  | set =>
    cases hc
    refine ⟨fun k hk => (nomatch hk), by simp [PutJob.value, redisValue, PutJob.before], fun v hv => ?_⟩
    simp only [Command.exec, RedisDB.set, Function.update_self, Option.some.injEq] at hv
    rw [← hv, PutJob.value, redisValue, PutJob.before, List.append_nil]
  | append k expected b =>
    cases hc
    exact fits_append h
  | clean => trivial
  | rename => trivial
  | loop => cases hc
  | returned => cases hc

theorem fits_refused {p : PutJob} {pc : PutPc} {c : Command} (hc : PutThread.command ⟨p, pc⟩ = some c) :
    (PutThread.refused ⟨p, pc⟩).Fits key db p := by
  cases pc with
  | loop => cases hc
  | returned => cases hc
  | _ => trivial

/-- A command whose answer is lost: an APPEND then finds a value that is long enough already. -/
theorem fits_lost {p : PutJob} {pc : PutPc} {c : Command} (hc : PutThread.command ⟨p, pc⟩ = some c)
    (h : pc.Fits key db p) (hadm : ∀ b, c = .append b → db (tmpKey key p.random) ≠ none) :
    pc.Fits key (c.exec key (tmpKey key p.random) db).1 p := by
  cases pc with
  | set => trivial
  | append k expected b =>
    cases hc
    -- the append took place although its reply was lost, so that the length is over what is expected
    obtain ⟨w, hw⟩ := Option.ne_none_iff_exists'.1 (hadm b rfl)
    obtain ⟨hpassed, rfl, hexp, hv⟩ := h
    have hpos : 0 < (p.read k).1.length := List.length_pos_of_ne_nil (hpassed k (Nat.lt_succ_self k)).1
    have hle := (hv w hw).1
    refine ⟨hpassed, rfl, hexp, fun v hdb => ?_⟩
    simp only [Command.exec, RedisDB.append_of_some hw, RedisDB.set, Function.update_self, Option.some.injEq] at hdb
    have hlen := congrArg List.length hdb
    rw [List.length_append] at hlen
    exact ⟨by omega, by omega⟩
  | clean => trivial
  | rename =>
    cases hc
    rcases exec_rename (tmpKey key p.random) (tmpKey_ne key _) with ⟨v, -, -, hnone⟩ | ⟨-, hsame⟩
    · exact h.mono fun v hv => by rw [hnone] at hv; cases hv
    · rw [hsame]; exact h
  | loop => cases hc
  | returned => cases hc

theorem fits_putMove (h : PutMove key db t r db' t') (hfits : t.pc.Fits key db t.job)
    (hadm : r = .lost → ∀ b, t.command = some (.append b) → db (tmpKey key t.job.random) ≠ none) :
    t'.pc.Fits key db' t'.job := by
  cases h with
  | read hpc =>
    obtain ⟨p, pc⟩ := t
    subst hpc
    exact fits_read hfits
  | answered hc => exact fits_answered hc hfits
  | lost hc => exact fits_lost hc hfits fun b hb => hadm rfl b (hb ▸ hc)
  | refused hc => exact fits_refused hc

/-- What a step may put under the key: the value of a `Put` that has read until nothing came. -/
theorem published_move (h : PutMove key db t r db' t') (hfits : t.pc.Fits key db t.job) :
    db' key = db key ∨ ∃ k, t.job.Passed k ∧ (t.job.read k).1 = [] ∧ db' key = some (t.job.value k) := by
  -- only the rename writes under the key
  by_cases hpc : t.pc = .rename
  · rw [hpc] at hfits
    obtain ⟨k, hpassed, hempty, hv⟩ := hfits
    have hcommand : t.command = some .rename := by simp [PutThread.command, hpc]
    have hexec : ∀ {c}, t.command = some c → (c.exec key (tmpKey key t.job.random) db).1 key = db key ∨
        ∃ k, t.job.Passed k ∧ (t.job.read k).1 = [] ∧
          (c.exec key (tmpKey key t.job.random) db).1 key = some (t.job.value k) := by
      intro c hc
      rw [hcommand] at hc
      cases hc
      rcases exec_rename (tmpKey key t.job.random) (tmpKey_ne key _) with ⟨v, htmp, hkey, -⟩ | ⟨-, hsame⟩
      · exact .inr ⟨k, hpassed, hempty, by rw [hkey, hv v htmp]⟩
      · rw [hsame]; exact .inl rfl
    cases h with
    | read | refused => exact .inl rfl
    | answered hc => exact hexec hc
    | lost hc => exact hexec hc
  · exact .inl (other_move h (tmpKey_ne key _).symm fun _ => hpc)

end

/-! ## Whole runs -/

/-- The invariant of all runs. -/
structure Publishing (key : String) (A : PutJob → Prop) (s : PutState) : Prop where
  admitted : ∀ p ∈ jobs s, A p
  distinct : ((jobs s).map PutJob.random).Nodup
  fits : ∀ t ∈ s.threads, t.pc.Fits key s.shared t.job
  published : ∀ v, s.shared key = some v → ∃ p ∈ jobs s, ∃ k, p.Passed k ∧ (p.read k).1 = [] ∧ v = p.value k

section

variable {key : String} {A : PutJob → Prop} {s s' : PutState}

/-- Two calls have different temporary keys. -/
theorem random_ne (hs : Publishing key A s) {i n : Nat} {x t : PutThread} (hi : i ≠ n) (hx : s.threads[i]? = some x)
    (ht : s.threads[n]? = some t) : tmpKey key x.job.random ≠ tmpKey key t.job.random := by
  intro h
  have hrandom : ((jobs s).map PutJob.random)[i]? = ((jobs s).map PutJob.random)[n]? := by
    simp [jobs, hx, ht, tmpKey_injective h]
  have hlt : i < ((jobs s).map PutJob.random).length := by
    have := (List.getElem?_eq_some_iff.1 hx).1
    simpa [jobs] using this
  exact hi ((List.getElem?_inj hlt hs.distinct).1 hrandom)

theorem publishing_step (hs : Publishing key A s) {n : Nat} {r : Reply} {t t' : PutThread} {db' : RedisDB}
    (ht : s.threads[n]? = some t) (hm : PutMove key s.shared t r db' t')
    (hadm : r = .lost → ∀ b, t.command = some (.append b) → s.shared (tmpKey key t.job.random) ≠ none) :
    Publishing key A ⟨db', s.threads.set n t'⟩ := by
  have hjobs : jobs (⟨db', s.threads.set n t'⟩ : PutState) = jobs s := Pool.map_set_of_eq _ ht (job_move hm)
  have hfits := hs.fits t (List.mem_of_getElem? ht)
  refine ⟨hjobs ▸ hs.admitted, hjobs ▸ hs.distinct, fun x hx => ?_, fun v hv => ?_⟩
  · rcases Pool.mem_set_cases hx with rfl | ⟨i, hi, hxi⟩
    · exact fits_putMove hm hfits hadm
    · -- another call keeps its temporary key
      have hne := random_ne hs hi hxi ht
      have hsame := other_move hm hne fun h => absurd h (tmpKey_ne key _)
      exact (hs.fits x (List.mem_of_getElem? hxi)).mono fun v hv => hsame ▸ hv
  · rw [hjobs]
    rcases published_move hm hfits with hsame | ⟨k, hpassed, hempty, hkey⟩
    · exact hs.published v (hsame ▸ hv)
    · have hmem : t.job ∈ jobs s := List.mem_map_of_mem (List.mem_of_getElem? ht)
      exact ⟨t.job, hmem, k, hpassed, hempty, Option.some.inj (hv.symm.trans hkey)⟩

theorem publishing_next {a : PutAction} (hs : Publishing key A s) (hn : (putProgram key).next s a = some s')
    (hadm : Admitted key A s a) : Publishing key A s' := by
  obtain ⟨p, rfl, rfl⟩ | ⟨n, r, t, db', t', rfl, ht, hst, rfl⟩ | ⟨k, db', rfl, he, rfl⟩ := Pool.Program.next_cases hn
  · have hjobs : jobs (⟨s.shared, s.threads ++ [⟨p, .set⟩]⟩ : PutState) = jobs s ++ [p] := by simp [jobs]
    refine ⟨?_, ?_, Pool.forall_mem_concat hs.fits trivial, fun v hv => ?_⟩
    · intro q hq
      exact Pool.forall_mem_concat hs.admitted hadm.1 q (hjobs ▸ hq)
    · show ((jobs (⟨s.shared, s.threads ++ [⟨p, .set⟩]⟩ : PutState)).map PutJob.random).Nodup
      rw [hjobs, List.map_append, List.map_singleton]
      exact List.nodup_append_comm.1 (List.nodup_cons.2 ⟨hadm.2, hs.distinct⟩)
    · obtain ⟨q, hq, h⟩ := hs.published v hv
      exact ⟨q, hjobs ▸ List.mem_append_left _ hq, h⟩
  · refine publishing_step hs ht (putStep_cases hst) fun hr b hb => ?_
    subst hr
    exact hadm t ht b hb
  · -- a key expires
    cases he
    have hdel : ∀ j v, (s.shared.del k) j = some v → s.shared j = some v := by
      intro j v hv
      by_cases hj : j = k
      · subst hj; simp [RedisDB.del] at hv
      · rwa [RedisDB.del, Function.update_of_ne hj] at hv
    exact ⟨hs.admitted, hs.distinct, fun t ht => (hs.fits t ht).mono fun v hv => hdel _ v hv,
      fun v hv => hs.published v (hdel key v hv)⟩

theorem publishing_initial (h : Unpublished key s) : Publishing key A s := by
  obtain ⟨hthreads, hkey⟩ := h
  have hjobs : jobs s = [] := by simp [jobs, hthreads]
  refine ⟨by simp [hjobs], by simp [hjobs], by simp [hthreads], fun v hv => ?_⟩
  rw [hkey] at hv
  cases hv

end

/-! ## A call by itself -/

section

variable {key : String} {A : PutJob → Prop} {p : PutJob}

/-- The states in which one call is alone. -/
abbrev ReachAlone (key : String) (A : PutJob → Prop) (p : PutJob) (db : RedisDB) (pc : PutPc) : Prop :=
  Steps.ReachWhen (putProgram key).next (Unpublished key) (fun s a _ => Admitted key A s a) ⟨db, [⟨p, pc⟩]⟩

theorem ReachAlone.answered {db db' : RedisDB} {pc pc' : PutPc} (h : ReachAlone key A p db pc)
    (hst : putStep key db ⟨p, pc⟩ .ok = some (db', ⟨p, pc'⟩)) : ReachAlone key A p db' pc' :=
  Steps.ReachWhen.step (a := .step 0 .ok) h (by simp [Pool.Program.next, putProgram, hst]) trivial

/-- When no command fails, the loop goes on as long as bytes are read. -/
theorem reachAlone_loop (key : String) (hA : A p) : ∀ {k : Nat}, p.Passed k →
    ∃ db, ReachAlone key A p db (.loop k (p.value k).length) ∧ db (tmpKey key p.random) = some (p.value k)
  | 0, _ => by
    have hspawn : ReachAlone key A p (fun _ => none) .set :=
      Steps.ReachWhen.step (a := .spawn p) (.init (s := ⟨fun _ => none, []⟩) ⟨rfl, rfl⟩) rfl ⟨hA, by simp [jobs]⟩
    have hvalue : p.value 0 = encodeMetadata p.metadata := List.append_nil _
    exact ⟨_, hspawn.answered (by rw [hvalue]; rfl), by simp [Command.exec, RedisDB.set, hvalue]⟩
  | k + 1, hpassed => by
    obtain ⟨db, hreach, hdb⟩ := reachAlone_loop key hA fun i hi => hpassed i (Nat.lt_succ_of_lt hi)
    obtain ⟨hne, herr⟩ := hpassed k (Nat.lt_succ_self k)
    have hread : ReachAlone key A p db (.append k (p.value k).length (p.read k).1) :=
      hreach.answered (by simp [putStep, PutThread.afterRead, hne, herr])
    have hlen : (p.value (k + 1)).length = (p.value k).length + (p.read k).1.length := by
      rw [p.value_succ, List.length_append]
    refine ⟨db.set (tmpKey key p.random) (p.value k ++ (p.read k).1), hread.answered ?_, ?_⟩
    · simp [putStep, PutThread.command, Command.exec, RedisDB.append_of_some hdb, PutThread.answered, hlen]
    · simp [RedisDB.set, p.value_succ]

/-- What was read until nothing came is published. -/
theorem reach_published (key : String) (hA : A p) {k : Nat} (hpassed : p.Passed k) (hempty : (p.read k).1 = []) :
    ∃ db, ReachAlone key A p db (.returned true) ∧ db key = some (p.value k) := by
  obtain ⟨db, hreach, hdb⟩ := reachAlone_loop key hA hpassed
  have hread : ReachAlone key A p db .rename := hreach.answered (by simp [putStep, PutThread.afterRead, hempty])
  refine ⟨_, hread.answered rfl, ?_⟩
  simp [Command.exec, RedisDB.rename, hdb, RedisDB.set]

end

/-- What it means that the value of a call by itself is whole. -/
theorem publishedWhole_alone {key : String} {s : PutState} {p : PutJob} {v : Bytes} (hjobs : jobs s = [p])
    (hkey : s.shared key = some v) : PublishedWhole key s ↔ ∃ x, p.UpToEof x ∧ v = redisValue p.metadata x := by
  simp [PublishedWhole, hjobs, hkey]

/-- Redis entries are published whole: for every set of calls of `Put`, in every run of such calls on one
key with random numbers of their own, whatever commands fail and whatever keys expire, the value under the
key is absent or the metadata of one call followed by everything up to the end of its reader, exactly when
the reader of every call is at its end at the empty read where `Put` stops. Of the commands that are
repeated without an answer, an APPEND has to find its temporary key. -/
theorem published_whole_iff (key : String) (A : PutJob → Prop) :
    (∀ s, Steps.ReachWhen (putProgram key).next (Unpublished key) (fun s a _ => Admitted key A s a) s →
      PublishedWhole key s) ↔ ∀ p, A p → p.Whole := by
  constructor
  · intro hwhole p hA
    rw [PutJob.whole_iff]
    intro k hpassed hempty
    obtain ⟨db, hreach, hdb⟩ := reach_published key hA hpassed hempty
    obtain ⟨x, hx, hvalue⟩ := (publishedWhole_alone rfl hdb).1 (hwhole _ hreach)
    have hsame : p.before k = x := List.append_cancel_left hvalue
    exact hsame ▸ hx
  · intro hwhole s hs
    have hinv : Publishing key A s :=
      hs.invariant (fun _ => publishing_initial) fun _ _ _ hs hn hadm => publishing_next hs hn hadm
    cases hkey : s.shared key with
    | none => exact .inl hkey
    | some v =>
      obtain ⟨p, hp, k, hpassed, hempty, rfl⟩ := hinv.published v hkey
      exact .inr ⟨p, hp, _, PutJob.whole_iff.1 (hwhole p (hinv.admitted p hp)) k hpassed hempty, hkey⟩

/-- A reader whose second read fails once without a byte. -/
def failingOnce : PutJob where
  metadata := ⟨4, [], []⟩
  random := 7
  read
    | 0 => (bytes "ok", none)
    | 1 => ([], some .other)
    | 2 => (bytes "ay", none)
    | _ => ([], some .eof)

/-- The half that was read before the error is published, although nothing went wrong in Redis. -/
theorem failed_read_is_published : ∃ s,
    Steps.Reach (putProgram "key").next (Unpublished "key") s ∧ jobs s = [failingOnce] ∧
    s.shared "key" = some (redisValue ⟨4, [], []⟩ (bytes "ok")) ∧ failingOnce.UpToEof (bytes "okay") ∧
    ¬PublishedWhole "key" s := by
  have hpassed : failingOnce.Passed 1 := fun k hk => by
    obtain rfl : k = 0 := by omega
    decide
  obtain ⟨db, hreach, hdb⟩ := @reach_published (fun _ => True) failingOnce "key" trivial 1 hpassed rfl
  have hvalue : failingOnce.value 1 = redisValue ⟨4, [], []⟩ (bytes "ok") := by decide
  -- every reader that ends at EOF has all four bytes
  have heof : ∀ x, failingOnce.UpToEof x → x = bytes "okay" := by
    rintro x ⟨j, ⟨hbefore, hj⟩, rfl⟩
    match j with
    | 0 => cases hj
    | 1 => cases hj
    | 2 => cases hj
    | 3 => decide
    | j + 4 => exact absurd rfl (hbefore 3 (by omega))
  have hwhole : failingOnce.UpToEof (bytes "okay") :=
    ⟨3, ⟨fun k hk => by match k, hk with
      | 0, _ | 1, _ | 2, _ => decide, rfl⟩, by decide⟩
  refine ⟨_, hreach.reach, rfl, hvalue ▸ hdb, hwhole, ?_⟩
  rw [publishedWhole_alone rfl hdb]
  rintro ⟨x, hx, hsame⟩
  rw [heof x hx] at hsame
  exact absurd hsame (by decide)

/-- A payload as long as its encoded metadata. -/
def sixteen : PutJob where
  metadata := ⟨16, [], []⟩
  random := 7
  read
    | 0 => (List.replicate 16 7, none)
    | _ => ([], some .eof)

def repeatedActs : List PutAction :=
  [.spawn sixteen, .step 0 .ok, .step 0 .ok, .env (tmpKey "key" 7), .step 0 .lost, .step 0 .ok, .step 0 .ok,
    .step 0 .ok]

/-- Why an APPEND has to find its temporary key: after the key has expired, an APPEND that is repeated for
want of an answer can reach the length expected, and then the payload is published twice and without
metadata. -/
theorem repeated_append_is_published : ∃ s,
    Steps.Reach (putProgram "key").next (Unpublished "key") s ∧ (∀ p ∈ jobs s, p.Whole) ∧
    s.shared "key" = some (List.replicate 32 7) ∧ ¬PublishedWhole "key" s := by
  obtain ⟨s, hrun, hjobs, hkey⟩ : ∃ s, Steps.run (putProgram "key").next ⟨fun _ => none, []⟩ repeatedActs = some s ∧
      jobs s = [sixteen] ∧ s.shared "key" = some (List.replicate 32 7) := by
    exact ⟨_, rfl, rfl, by decide⟩
  have heof : sixteen.EofAt 1 := ⟨fun k hk => by obtain rfl : k = 0 := (by omega); decide, rfl⟩
  refine ⟨s, .of_run repeatedActs (.init ⟨rfl, rfl⟩) hrun, fun p hp => ?_, hkey, ?_⟩
  · have hp : p = sixteen := by simpa [hjobs] using hp
    subst hp
    intro n hpassed hempty
    match n with
    | 0 => cases hempty
    | 1 => exact ⟨1, heof, by omega, fun k h1 h2 => by obtain rfl : k = 1 := (by omega); rfl⟩
    | n + 2 => exact absurd rfl (hpassed 1 (by omega)).1
  · rw [publishedWhole_alone hjobs hkey]
    -- the first byte of the metadata is zero
    rintro ⟨x, -, hsame⟩
    have hhead := congrArg List.head? hsame
    simp [redisValue, encodeMetadata, sixteen, BigEndian.encode] at hhead

end Chproxy.Cache
