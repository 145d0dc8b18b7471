/-
Durations (`config/types.go`): `StringToDuration` and `Duration.String`. Parsing is exact as long as the
product with the unit fits into `int64`, and reads back whatever is printed.
-/
import Chproxy.Config.Types
import Chproxy.Lib.Format
import Chproxy.Utils.QueryText

namespace Chproxy.Config

open Utils (Bytes bytes)

/-! ## Units -/

inductive TimeUnit
  | w
  | d
  | h
  | m
  | s
  | ms
  | us
  | ns
  deriving DecidableEq, Repr

namespace TimeUnit

def all : List TimeUnit := [w, d, h, m, s, ms, us, ns]

/-- As in `durationRE`; the micro sign is U+00B5. -/
def text : TimeUnit → Bytes
  | w => bytes "w"
  | d => bytes "d"
  | h => bytes "h"
  | m => bytes "m"
  | s => bytes "s"
  | ms => bytes "ms"
  | us => bytes "µs"
  | ns => bytes "ns"

/-- The length of the unit. -/
def nanoseconds : TimeUnit → Duration
  | w => 3600000000000 * 24 * 7
  | d => 3600000000000 * 24
  | h => 3600000000000
  | m => 60000000000
  | s => 1000000000
  | ms => 1000000
  | us => 1000
  | ns => 1

def ofText (unit : Bytes) : Option TimeUnit := all.find? fun u => u.text == unit

end TimeUnit

/-! ## `StringToDuration` -/

inductive DurationError
  | notValid (s : Bytes)
  | tooLong (digits : Bytes)
  | invalidUnit (unit : Bytes)
  deriving DecidableEq, Repr

/-- The text of the error. -/
def DurationError.text (q : Format.Quoting) : DurationError → Option Bytes
  | notValid s => Format.sprintf q (bytes "not a valid duration string: %q") [.str s]
  | tooLong digits => Format.sprintf q (bytes "duration too long: %q") [.str digits]
  | invalidUnit unit => Format.sprintf q (bytes "invalid time unit in duration string: %q") [.str unit]

def isDigit (b : UInt8) : Bool := 48 ≤ b && b ≤ 57

/-- The submatches of `^([0-9]+)(w|d|h|m|s|ms|µs|ns)$`. -/
def durationRE (s : Bytes) : Option (Bytes × Bytes) :=
  let digits := s.takeWhile isDigit
  let unit := s.dropWhile isDigit
  if digits ≠ [] ∧ unit ∈ TimeUnit.all.map TimeUnit.text then some (digits, unit) else none

/-- `strconv.Atoi` with an `int` of 64 bits. -/
def atoi (s : Bytes) : Option Int64 :=
  match Decimal.toInt? s with
  | some n => if -2 ^ 63 ≤ n ∧ n < 2 ^ 63 then some (Int64.ofInt n) else none
  | none => none

def parseDurationParts (s : Bytes) : Except DurationError (Int64 × Bytes) :=
  match durationRE s with
  | none => .error (.notValid s)
  | some (digits, unit) =>
    match atoi digits with
    | none => .error (.tooLong digits)
    | some n => .ok (n, unit)

def calculateDuration (n : Int64) (unit : Bytes) : Except DurationError Duration :=
  match TimeUnit.ofText unit with
  | some u => .ok (n * u.nanoseconds)
  | none => .error (.invalidUnit unit)

def stringToDuration (durationStr : Bytes) : Except DurationError Duration := do
  let (n, unit) ← parseDurationParts durationStr
  calculateDuration n unit

/-! ## `Duration.String` -/

/-- The unit of the first case of the switch that holds. -/
def Duration.unit (t : Duration) : TimeUnit :=
  if t % TimeUnit.w.nanoseconds = 0 then .w
  else if t % TimeUnit.d.nanoseconds = 0 then .d
  else if t % TimeUnit.h.nanoseconds = 0 then .h
  else if t % TimeUnit.m.nanoseconds = 0 then .m
  else if t % TimeUnit.s.nanoseconds = 0 then .s
  else if t % TimeUnit.ms.nanoseconds = 0 then .ms
  else if t % TimeUnit.us.nanoseconds = 0 then .us
  else .ns

/-- `%d%v`. -/
def Duration.string (t : Duration) : Bytes :=
  let unit := Duration.unit t
  Decimal.ofInt (t / unit.nanoseconds).toInt ++ unit.text

/-! ## What is accepted -/

/-- The text has the digits of `n` and the unit `u`. -/
def Reads (s : Bytes) (n : Nat) (u : TimeUnit) : Prop := ∃ digits, Decimal.toNat? digits = some n ∧ s = digits ++ u.text

/-- The value of `n` units. -/
def TimeUnit.times (u : TimeUnit) (n : Nat) : Int := n * u.nanoseconds.toInt

namespace TimeUnit

variable (u : TimeUnit)

theorem mem_all : u ∈ all := by
  cases u <;> decide

theorem ofText_text : ofText u.text = some u := by
  cases u <;> decide

theorem text_ne_nil_not_digit : ∃ b bs, u.text = b :: bs ∧ isDigit b = false := by
  cases u <;> exact ⟨_, _, rfl, by decide⟩

theorem nanoseconds_pos : 0 < u.nanoseconds.toInt := by
  cases u <;> decide

end TimeUnit

theorem isDigit_of_toNat? {digits : Bytes} {n : Nat} (h : Decimal.toNat? digits = some n) :
    digits ≠ [] ∧ ∀ b ∈ digits, isDigit b = true := by
  obtain ⟨hne, hdigits⟩ := Decimal.toNat?_isSome_iff.1 (by rw [h]; rfl)
  refine ⟨hne, fun b hb => ?_⟩
  simpa [isDigit] using hdigits b hb

/-- The digits end where the unit begins. -/
theorem durationRE_append {digits : Bytes} {n : Nat} (h : Decimal.toNat? digits = some n) (u : TimeUnit) :
    durationRE (digits ++ u.text) = some (digits, u.text) := by
  obtain ⟨hne, hdigits⟩ := isDigit_of_toNat? h
  obtain ⟨b, bs, htext, hb⟩ := u.text_ne_nil_not_digit
  have htake : (digits ++ u.text).takeWhile isDigit = digits := by
    rw [List.takeWhile_append_of_pos hdigits, htext, List.takeWhile_cons_of_neg (by simp [hb]), List.append_nil]
  have hdrop : (digits ++ u.text).dropWhile isDigit = u.text := by
    rw [List.dropWhile_append_of_pos hdigits, htext, List.dropWhile_cons_of_neg (by simp [hb])]
  simp only [durationRE, htake, hdrop]
  exact if_pos ⟨hne, List.mem_map_of_mem u.mem_all⟩

theorem reads_of_durationRE {s digits unit : Bytes} (h : durationRE s = some (digits, unit)) :
    ∃ n u, Decimal.toNat? digits = some n ∧ unit = TimeUnit.text u ∧ s = digits ++ unit := by
  simp only [durationRE] at h
  split at h
  · rename_i hmatch
    cases h
    obtain ⟨hne, hunit⟩ := hmatch
    obtain ⟨u, -, hu⟩ := List.mem_map.1 hunit
    have hdigits : ∀ b ∈ s.takeWhile isDigit, 48 ≤ b ∧ b ≤ 57 := by
      intro b hb
      simpa [isDigit] using List.all_eq_true.1 List.all_takeWhile b hb
    obtain ⟨n, hn⟩ := Option.isSome_iff_exists.1 (Decimal.toNat?_isSome_iff.2 ⟨hne, hdigits⟩)
    exact ⟨n, u, hn, hu.symm, List.takeWhile_append_dropWhile.symm⟩
  · cases h

theorem atoi_of_toNat? {digits : Bytes} {n : Nat} (h : Decimal.toNat? digits = some n) :
    atoi digits = if n < 2 ^ 63 then some (Int64.ofInt n) else none := by
  rw [atoi, Decimal.toInt?_of_toNat? h]
  dsimp only
  by_cases hn : n < 2 ^ 63
  · rw [if_pos hn, if_pos ⟨by omega, by exact_mod_cast hn⟩]
  · rw [if_neg hn, if_neg fun hrange => hn (by exact_mod_cast hrange.2)]

/-- A text with digits and a unit: only the digits are checked against the range. -/
theorem stringToDuration_append {digits : Bytes} {n : Nat} (h : Decimal.toNat? digits = some n) (u : TimeUnit) :
    stringToDuration (digits ++ u.text) =
      if n < 2 ^ 63 then .ok (Int64.ofInt n * u.nanoseconds) else .error (.tooLong digits) := by
  simp only [stringToDuration, parseDurationParts, durationRE_append h, atoi_of_toNat? h]
  by_cases hn : n < 2 ^ 63
  · simp only [if_pos hn]
    change calculateDuration (Int64.ofInt n) u.text = _
    rw [calculateDuration, u.ofText_text]
  · simp only [if_neg hn]
    rfl

theorem stringToDuration_ok {s : Bytes} {d : Duration} (h : stringToDuration s = .ok d) : ∃ n u, Reads s n u := by
  cases hre : durationRE s with
  | none =>
    simp only [stringToDuration, parseDurationParts, hre] at h
    cases h
  | some parts =>
    obtain ⟨digits, unit⟩ := parts
    obtain ⟨n, u, hn, rfl, rfl⟩ := reads_of_durationRE hre
    exact ⟨n, u, digits, hn, rfl⟩

/-- The product is exact as long as it fits. -/
theorem toInt_mul_nanoseconds {n : Nat} (hn : n < 2 ^ 63) (u : TimeUnit) (h : u.times n < 2 ^ 63) :
    (Int64.ofInt n * u.nanoseconds).toInt = u.times n := by
  have hpos := u.nanoseconds_pos
  have hnonneg : 0 ≤ u.times n := Int.mul_nonneg (by omega) hpos.le
  rw [Int64.toInt_mul, Int64.toInt_ofInt_of_le (by omega) (by exact_mod_cast hn)]
  change (u.times n).bmod (2 ^ 64) = u.times n
  exact Int.bmod_eq_of_le (by omega) (by omega)

theorem lt_of_times_lt {n : Nat} {u : TimeUnit} (h : u.times n < 2 ^ 63) : n < 2 ^ 63 := by
  have hpos := u.nanoseconds_pos
  have hle : (n : Int) ≤ u.times n := le_mul_of_one_le_right (by omega) (by omega)
  omega

/-- What is to be expected of a text with the digits of `n` and the unit `u`: the exact value, or the
error that it is too long if there is none. -/
structure Exact (s : Bytes) (n : Nat) (u : TimeUnit) : Prop where
  value : ∀ d, stringToDuration s = .ok d → d.toInt = u.times n
  rejected : ¬u.times n < 2 ^ 63 → ∃ digits, stringToDuration s = .error (.tooLong digits)

theorem Reads.value_of_fits {s : Bytes} {n : Nat} {u : TimeUnit} (h : Reads s n u) (hfits : u.times n < 2 ^ 63)
    {d : Duration} (hd : stringToDuration s = .ok d) : d.toInt = u.times n := by
  obtain ⟨digits, hn, rfl⟩ := h
  have hlt := lt_of_times_lt hfits
  rw [stringToDuration_append hn, if_pos hlt] at hd
  rw [← Except.ok.inj hd]
  exact toInt_mul_nanoseconds hlt u hfits

theorem Reads.exact_iff {s : Bytes} {n : Nat} {u : TimeUnit} (h : Reads s n u) :
    Exact s n u ↔ u.times n < 2 ^ 63 ∨ 2 ^ 63 ≤ n := by
  obtain ⟨digits, hn, rfl⟩ := h
  have hparse := stringToDuration_append hn u
  constructor
  · rintro ⟨hvalue, -⟩
    by_cases hlt : n < 2 ^ 63
    · left
      rw [if_pos hlt] at hparse
      rw [← hvalue _ hparse]
      exact Int64.toInt_lt _
    · exact .inr (by omega)
  · rintro (hfits | hlong)
    · exact ⟨fun d hd => Reads.value_of_fits ⟨digits, hn, rfl⟩ hfits hd, fun hover => absurd hfits hover⟩
    · rw [if_neg (by omega)] at hparse
      refine ⟨fun d hd => ?_, fun _ => ⟨digits, hparse⟩⟩
      rw [hparse] at hd
      cases hd

/-- What is accepted has digits and a unit. Such a text is parsed exactly, or rejected as it should be,
exactly when its value fits into `int64`, or its digits alone do not. -/
theorem duration_exact_iff (s : Bytes) :
    (∀ d, stringToDuration s = .ok d → ∃ n u, Reads s n u) ∧
    ∀ n u, Reads s n u → (Exact s n u ↔ u.times n < 2 ^ 63 ∨ 2 ^ 63 ≤ n) := by
  constructor
  · intro d hd
    exact stringToDuration_ok hd
  · intro n u hreads
    exact hreads.exact_iff

theorem duration_exact_five_days : Exact (bytes "5d") 5 .d ∧ stringToDuration (bytes "5d") = .ok 432000000000000 :=
  ⟨((duration_exact_iff _).2 _ _ ⟨bytes "5", by decide, by decide⟩).2 (.inl (by decide)), by decide⟩

/-- 15251 weeks are more than 2^63 ns, and the duration is negative; 30501 weeks are more than 2^64 ns,
and become a little more than three days. -/
theorem weeks_wrap_around :
    Reads (bytes "15251w") 15251 .w ∧ stringToDuration (bytes "15251w") = .ok (-9222939273709551616) ∧
    ¬Exact (bytes "15251w") 15251 .w ∧
    Reads (bytes "30501w") 30501 .w ∧ stringToDuration (bytes "30501w") = .ok 260726290448384 ∧
    ¬Exact (bytes "30501w") 30501 .w := by
  have hnegative : stringToDuration (bytes "15251w") = .ok (-9222939273709551616) := by decide
  have hsmall : stringToDuration (bytes "30501w") = .ok 260726290448384 := by decide
  refine ⟨⟨bytes "15251", by decide, by decide⟩, hnegative, fun h => ?_, ⟨bytes "30501", by decide, by decide⟩,
    hsmall, fun h => ?_⟩
  · exact absurd (h.value _ hnegative) (by decide)
  · exact absurd (h.value _ hsmall) (by decide)

/-! ## Printing and parsing -/

/-- The unit chosen divides the duration; a nanosecond divides every one. -/
theorem Duration.mod_unit (t : Duration) : t % (Duration.unit t).nanoseconds = 0 := by
  unfold Duration.unit
  split_ifs
  all_goals first | assumption | skip
  rw [← Int64.toInt_inj, Int64.toInt_mod]
  exact Int.tmod_one _

/-- A duration is what it prints, times the unit. -/
theorem Duration.times_unit {t : Duration} (ht : 0 ≤ t) :
    ∃ n : Nat, (t / (Duration.unit t).nanoseconds).toInt = n ∧ (Duration.unit t).times n = t.toInt := by
  have hnonneg : 0 ≤ t.toInt := Int64.le_iff_toInt_le.1 ht
  have hpos := (Duration.unit t).nanoseconds_pos
  have hmod : t.toInt.tmod (Duration.unit t).nanoseconds.toInt = 0 := by
    rw [← Int64.toInt_mod, Duration.mod_unit]
    rfl
  have hdiv : (t / (Duration.unit t).nanoseconds).toInt = t.toInt.tdiv (Duration.unit t).nanoseconds.toInt := by
    refine Int64.toInt_div_of_ne_left _ _ fun hmin => ?_
    rw [hmin] at hnonneg
    exact absurd hnonneg (by decide)
  refine ⟨(t.toInt.tdiv (Duration.unit t).nanoseconds.toInt).toNat, ?_, ?_⟩
  · rw [hdiv, Int.toNat_of_nonneg (Int.tdiv_nonneg hnonneg hpos.le)]
  · rw [TimeUnit.times, Int.toNat_of_nonneg (Int.tdiv_nonneg hnonneg hpos.le)]
    exact Int.tdiv_mul_cancel (Int.dvd_of_tmod_eq_zero hmod)

theorem stringToDuration_string {t : Duration} (ht : 0 ≤ t) : stringToDuration (Duration.string t) = .ok t := by
  obtain ⟨n, hn, htimes⟩ := Duration.times_unit ht
  have hfits : (Duration.unit t).times n < 2 ^ 63 := htimes ▸ Int64.toInt_lt t
  have hlt := lt_of_times_lt hfits
  have hdigits : Decimal.toNat? (Decimal.ofInt (n : Int)) = some n := Decimal.toNat?_ofNat n
  rw [Duration.string, hn, stringToDuration_append hdigits, if_pos hlt]
  refine congrArg Except.ok (Int64.toInt_inj.1 ?_)
  rw [toInt_mul_nanoseconds hlt _ hfits, htimes]

/-- Every duration that is not negative is read back as printed; and what is parsed without overflow
stays the same when it is printed and parsed again. -/
theorem duration_round_trip :
    (∀ d : Duration, 0 ≤ d → stringToDuration (Duration.string d) = .ok d) ∧
    (∀ s n u d, Reads s n u → u.times n < 2 ^ 63 → stringToDuration s = .ok d →
      stringToDuration (Duration.string d) = .ok d) := by
  constructor
  · intro d hd
    exact stringToDuration_string hd
  · intro s n u d hreads hfits hd
    refine stringToDuration_string (Int64.le_iff_toInt_le.2 ?_)
    rw [hreads.value_of_fits hfits hd]
    exact Int.mul_nonneg (by omega) u.nanoseconds_pos.le

theorem duration_round_trip_ninety_minutes :
    Duration.string 5400000000000 = bytes "90m" ∧
    stringToDuration (Duration.string 5400000000000) = .ok 5400000000000 :=
  ⟨by decide, duration_round_trip.1 5400000000000 (by decide)⟩

end Chproxy.Config
