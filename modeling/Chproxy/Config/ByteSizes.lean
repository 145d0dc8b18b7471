/-
Sizes in bytes (`config/types.go`): `ByteSize.UnmarshalYAML` and `parseStringParts`. The size is computed in
binary64, cut to a whole number of bytes, and refused when more than a millionth of it was lost; that is
meant for sizes that do not fit into 64 bits, and refuses small sizes with a fraction, too.
-/
import Chproxy.Config.Durations
import Chproxy.Lib.Binary64
import Chproxy.ProxyHandler

namespace Chproxy.Config

open Utils (Bytes bytes isSpace trimSpace)
open Binary64 (Value ofRat ofRat_of_lt nearest nearest_zero nearest_close abs_le_nearest abs_nearest_le
  nearest_of_representable ofRat_cases Representable representable_nearest representable_natCast)

/-! ## The text -/

inductive SizeUnit
  | none
  | k
  | m
  | g
  | t
  | p
  deriving DecidableEq, Repr

namespace SizeUnit

def ofChar : Char → Option SizeUnit
  | 'K' => some k
  | 'M' => some m
  | 'G' => some g
  | 'T' => some t
  | 'P' => some p
  | _ => Option.none

/-- As in `byteSizeRegexp`. -/
def text : SizeUnit → List Char
  | none => []
  | k => ['K']
  | m => ['M']
  | g => ['G']
  | t => ['T']
  | p => ['P']

/-- The unit is `1 << exponent`. -/
def exponent : SizeUnit → Nat
  | none => 0
  | k => 10
  | m => 20
  | g => 30
  | t => 40
  | p => 50

end SizeUnit

/-- The submatches: the digits before and after the point, and the unit. -/
structure SizeParts where
  whole : List Char
  fraction : List Char
  unit : SizeUnit
  deriving DecidableEq, Repr

/-- `\s`. -/
def isBlank (c : Char) : Bool := c.toNat ∈ [9, 10, 12, 13, 32]

/-- `(?:\.\d+)?` -/
def takeFraction (s : List Char) : List Char × List Char :=
  match s with
  | '.' :: rest => if rest.takeWhile Char.isDigit = [] then ([], s) else rest.span Char.isDigit
  | _ => ([], s)

/-- `([KMGTP]?)` -/
def takeUnit (s : List Char) : SizeUnit × List Char :=
  match s with
  | c :: rest =>
    match SizeUnit.ofChar c with
    | some unit => (unit, rest)
    | none => (.none, s)
  | [] => (.none, s)

/-- `^(\d+(?:\.\d+)?)\s*([KMGTP]?)B?$` -/
def byteSizeRegexp (s : List Char) : Option SizeParts :=
  let (whole, rest) := s.span Char.isDigit
  let (fraction, rest) := takeFraction rest
  let (unit, rest) := takeUnit (rest.dropWhile isBlank)
  if whole ≠ [] ∧ (rest = [] ∨ rest = ['B']) then some ⟨whole, fraction, unit⟩ else none

/-- The number written. -/
def SizeParts.number (parts : SizeParts) : ℚ :=
  Nat.ofDigitChars 10 (parts.whole ++ parts.fraction) 0 / 10 ^ parts.fraction.length

/-- The number of bytes written. -/
def SizeParts.size (parts : SizeParts) : ℚ := parts.number * 2 ^ parts.unit.exponent

/-! ## `UnmarshalYAML` -/

/-- What the language and its library leave open here: the upper case of letters outside ASCII, and what
becomes of a value that does not fit into `uint64`. -/
structure Runtime where
  toUpper : Char → Char
  convert : Value → UInt64
  toUpper_ascii : ∀ c : Char, c.toNat < 128 → toUpper c = c.toUpper

/-- `strings.ToUpper`. -/
def Runtime.upper (rt : Runtime) (s : List Char) : List Char := s.map rt.toUpper

/-- `ByteSize(value)`. -/
def Runtime.byteSize (rt : Runtime) (value : Value) : ByteSize :=
  match value with
  | .finite q => if 0 ≤ q ∧ q < 2 ^ 64 then UInt64.ofNat ⌊q⌋₊ else rt.convert value
  | _ => rt.convert value

inductive SizeError
  | cannotParse (s : List Char)
  | outOfRange (s digits : List Char)
  | notPositive (s : List Char)
  | tooBig (s : List Char)
  deriving DecidableEq, Repr

/-- The text of the error. -/
def SizeError.text (q : Format.Quoting) : SizeError → Option Bytes
  | cannotParse s =>
    Format.sprintf q (bytes ("cannot parse byte size %q: it must be positive float followed by optional units. " ++
      "For example, 1.5Gb, 3T")) [.str (bytes (String.ofList s))]
  | outOfRange s digits =>
    Format.sprintf q (bytes ("cannot parse byte size %q: it must be positive float followed by optional units. " ++
      "For example, 1.5Gb, 3T; err: strconv.ParseFloat: parsing %q: value out of range"))
      [.str (bytes (String.ofList s)), .str (bytes (String.ofList digits))]
  | notPositive s => Format.sprintf q (bytes "byte size %q must be positive") [.str (bytes (String.ofList s))]
  | tooBig s => Format.sprintf q (bytes "byte size %q is too big") [.str (bytes (String.ofList s))]

/-- The text that was matched for the number. -/
def SizeParts.digits (parts : SizeParts) : List Char :=
  if parts.fraction = [] then parts.whole else parts.whole ++ '.' :: parts.fraction

def parseStringParts (rt : Runtime) (s : List Char) : Except SizeError (ℚ × SizeUnit) :=
  let s := rt.upper s
  match byteSizeRegexp (trimSpace s) with
  | none => .error (.cannotParse s)
  | some parts =>
    match ofRat parts.number with
    | .finite value => .ok (value, parts.unit)
    | _ => .error (.outOfRange s parts.digits) -- infinities come with an error

def unmarshalByteSize (rt : Runtime) (s : List Char) : Except SizeError ByteSize := do
  let s := rt.upper s
  let (value, unit) ← parseStringParts rt s
  if value ≤ 0 then .error (.notPositive s)
  else
    let value := (Value.finite value).mul (.finite (2 ^ unit.exponent))
    let bs := rt.byteSize value
    -- check for overflow
    let e := ((ofRat bs.toNat).sub value).abs.div value
    if e.gt (ofRat (1 / 10 ^ 6)) then .error (.tooBig s) else .ok bs

/-! ## What is accepted -/

/-- The text that the regular expression is matched with. -/
def Runtime.matched (rt : Runtime) (s : List Char) : List Char := trimSpace (rt.upper (rt.upper s))

/-- The share of the size that was lost, as the code computes it. -/
def lostShare (bs : ByteSize) (value : Value) : Value := ((ofRat bs.toNat).sub value).abs.div value

section Accepted

variable {rt : Runtime} {s : List Char} {bs : ByteSize}

theorem unmarshalByteSize_ok (h : unmarshalByteSize rt s = .ok bs) :
    ∃ parts v, byteSizeRegexp (rt.matched s) = some parts ∧ ofRat parts.number = .finite v ∧ 0 < v ∧
      bs = rt.byteSize (ofRat (v * 2 ^ parts.unit.exponent)) ∧
      (lostShare bs (ofRat (v * 2 ^ parts.unit.exponent))).gt (ofRat (1 / 10 ^ 6)) = false := by
  obtain ⟨⟨v, unit⟩, hparse, h⟩ := Fallible.bind_ok h
  unfold parseStringParts at hparse
  dsimp only at hparse
  split at hparse
  · cases hparse
  rename_i parts hmatch
  split at hparse
  · rename_i value hnumber
    cases hparse
    dsimp only at h
    split at h
    · cases h
    rename_i hpos
    split at h
    · cases h
    rename_i hgt
    cases h
    exact ⟨parts, v, hmatch, hnumber, not_le.1 hpos, rfl, Bool.eq_false_iff.2 hgt⟩
  · cases hparse

theorem ofRat_finite {q v : ℚ} (h : ofRat q = .finite v) : v = nearest q := by
  rcases ofRat_cases q with hq | hq
  · exact (Value.finite.inj (hq.symm.trans h)).symm
  · cases hq.symm.trans h

/-- The threshold is a millionth, up to rounding. -/
theorem nearest_millionth : nearest (1 / 10 ^ 6) ≤ 1 / 10 ^ 6 + 1 / 10 ^ 20 := by
  have hclose := (abs_le.1 (nearest_close (1 / 10 ^ 6))).2
  norm_num at hclose ⊢
  linarith

variable {w : ℚ}

theorem ofRat_of_le {q : ℚ} (h : |q| ≤ 2 ^ 110) : ofRat q = .finite (nearest q) :=
  ofRat_of_lt (h.trans_lt (pow_lt_pow_right₀ (by norm_num) (by norm_num)))

theorem ofRat_byteSize (bs : ByteSize) :
    ofRat bs.toNat = .finite (nearest bs.toNat) ∧ |nearest (bs.toNat : ℚ)| ≤ 2 ^ 66 := by
  have hb : |(bs.toNat : ℚ)| ≤ 2 ^ 64 := by
    rw [abs_of_nonneg (Nat.cast_nonneg _)]
    exact_mod_cast bs.toNat_lt.le
  have hnear := abs_nearest_le (bs.toNat : ℚ)
  refine ⟨ofRat_of_le (hb.trans (by norm_num)), ?_⟩
  generalize |(bs.toNat : ℚ)| = b at hb hnear
  linarith

/-- Nothing overflows for sizes of at least one byte and at most `2 ^ 100`. -/
theorem lostShare_finite (hw : 1 ≤ w) (hlimit : w ≤ 2 ^ 100) :
    lostShare bs (.finite w) = .finite (nearest (|nearest (nearest bs.toNat - w)| / w)) := by
  obtain ⟨hfb, hbound⟩ := ofRat_byteSize bs
  have hx : |nearest bs.toNat - w| ≤ 2 ^ 102 := by
    have htri := abs_sub (nearest (bs.toNat : ℚ)) w
    rw [abs_of_pos (a := w) (by linarith)] at htri
    linarith
  have hdl := abs_nearest_le (nearest bs.toNat - w)
  have hquot : |nearest (nearest bs.toNat - w)| / w ≤ |nearest (nearest bs.toNat - w)| := div_le_self (abs_nonneg _) hw
  have hquot0 : 0 ≤ |nearest (nearest bs.toNat - w)| / w := by positivity
  -- each operation stays below the bound under which nothing overflows
  unfold lostShare
  rw [hfb]
  simp only [Value.sub]
  rw [ofRat_of_le (by linarith)]
  simp only [Value.abs, Value.div]
  rw [if_neg (by linarith), ofRat_of_le (by rw [abs_of_nonneg hquot0]; linarith)]

theorem gt_millionth {q : ℚ} : (Value.finite q).gt (ofRat (1 / 10 ^ 6)) = false ↔ q ≤ nearest (1 / 10 ^ 6) := by
  rw [ofRat_of_le (by rw [abs_of_pos (by norm_num)]; norm_num)]
  simp [Value.gt]

/-- A size below one byte is lost as a whole. -/
theorem one_le_of_accepted (hw : 0 < w) (hrep : Representable w)
    (h : (lostShare (rt.byteSize (.finite w)) (.finite w)).gt (ofRat (1 / 10 ^ 6)) = false) : 1 ≤ w := by
  by_contra hlt
  rw [not_le] at hlt
  have hbyte : rt.byteSize (.finite w) = 0 := by
    have hfits : w < 2 ^ 64 := hlt.trans (by norm_num)
    rw [Runtime.byteSize, if_pos ⟨hw.le, hfits⟩, Nat.floor_eq_zero.2 hlt]
    rfl
  have hone : nearest 1 = 1 := nearest_of_representable ⟨1, 0, by norm_num, by norm_num, by norm_num⟩
  -- the whole size is lost: the share is 1
  have hshare : lostShare 0 (.finite w) = .finite 1 := by
    have habs : |-w| = w := by rw [abs_neg, abs_of_pos hw]
    have hzero : ofRat ((0 : ByteSize).toNat : ℚ) = .finite 0 := by
      rw [(ofRat_byteSize 0).1]
      exact congrArg Value.finite nearest_zero
    unfold lostShare
    rw [hzero]
    simp only [Value.sub]
    rw [zero_sub, ofRat_of_le (by rw [habs]; linarith), nearest_of_representable hrep.neg]
    simp only [Value.abs, Value.div]
    rw [if_neg hw.ne', habs, div_self hw.ne', ofRat_of_le (by norm_num), hone]
  rw [hbyte, hshare, gt_millionth] at h
  have hmill := nearest_millionth
  linarith

/-- A share of a quarter is too much. -/
theorem not_accepted {x : ℚ} (hx : 1 / 4 ≤ x) : (ofRat x).gt (ofRat (1 / 10 ^ 6)) = true := by
  have hmill := nearest_millionth
  rcases ofRat_cases x with hfin | hinf
  · rw [hfin, ← Bool.not_eq_false, gt_millionth, not_le]
    have hle := abs_le.1 (nearest_close x)
    rw [abs_of_pos (by linarith : 0 < x)] at hle
    linarith
  · rw [hinf, ofRat_of_le (q := 1 / 10 ^ 6) (by rw [abs_of_pos (by norm_num)]; norm_num)]
    simp only [Value.gt, Bool.not_eq_true', decide_eq_false_iff_not, not_lt]
    linarith

/-- Sizes far beyond 64 bits are found to be too big, as long as they are finite. -/
theorem le_of_accepted (h : (lostShare bs (.finite w)).gt (ofRat (1 / 10 ^ 6)) = false) : w ≤ 2 ^ 100 := by
  by_contra hgt
  rw [not_le] at hgt
  have hpos : 0 < w := lt_trans (by norm_num) hgt
  obtain ⟨hfb, hbound⟩ := ofRat_byteSize bs
  rw [← Bool.not_eq_true] at h
  refine h ?_
  unfold lostShare
  rw [hfb]
  simp only [Value.sub]
  -- the difference is about the size itself, and so is its share
  rcases ofRat_cases (nearest bs.toNat - w) with hfin | hinf
  · rw [hfin]
    simp only [Value.abs, Value.div]
    rw [if_neg hpos.ne']
    refine not_accepted ?_
    rw [div_le_div_iff₀ (by norm_num) hpos]
    have hkept := abs_le_nearest (nearest bs.toNat - w)
    have hfar : w - 2 ^ 66 ≤ |nearest bs.toNat - w| := by
      have hupper := (abs_le.1 hbound).2
      have hneg := neg_le_abs (nearest bs.toNat - w)
      linarith
    linarith
  · rw [hinf, ofRat_of_le (q := 1 / 10 ^ 6) (by rw [abs_of_pos (by norm_num)]; norm_num)]
    simp [Value.abs, Value.div, Value.gt, hpos.le]

/-- What is left of a larger one is within little more than a millionth of it. -/
theorem abs_sub_le_of_accepted (hw : 1 ≤ w)
    (h : (lostShare bs (.finite w)).gt (ofRat (1 / 10 ^ 6)) = false) :
    |(bs.toNat : ℚ) - w| ≤ 11 / 10 ^ 7 * w := by
  rw [lostShare_finite hw (le_of_accepted h), gt_millionth] at h
  have hmill := nearest_millionth
  have hpos : 0 < w := by linarith
  have hb0 : (0 : ℚ) ≤ bs.toNat := Nat.cast_nonneg _
  have hfb := abs_le.1 (nearest_close (bs.toNat : ℚ))
  rw [abs_of_nonneg hb0] at hfb
  have hkept := abs_le_nearest (nearest bs.toNat - w)
  -- three roundings lie between the share and the threshold
  have hquot : |nearest (nearest bs.toNat - w)| / w ≤ 101 / 10 ^ 8 := by
    have hx0 : 0 ≤ |nearest (nearest bs.toNat - w)| / w := by positivity
    have hclose := (abs_le.1 (nearest_close (|nearest (nearest bs.toNat - w)| / w))).1
    rw [abs_of_nonneg hx0] at hclose
    linarith
  rw [div_le_iff₀ hpos] at hquot
  have hy : |nearest bs.toNat - w| ≤ 102 / 10 ^ 8 * w := by linarith
  have hylt := abs_le.1 hy
  rw [abs_le]
  constructor <;> linarith

end Accepted

theorem SizeUnit.two_pow_exponent (u : SizeUnit) : (1 : ℚ) ≤ 2 ^ u.exponent ∧ (2 : ℚ) ^ u.exponent ≤ 2 ^ 50 := by
  refine ⟨one_le_pow₀ (by norm_num), pow_le_pow_right₀ (by norm_num) ?_⟩
  cases u <;> decide

theorem SizeParts.number_nonneg (parts : SizeParts) : 0 ≤ parts.number := by
  unfold number
  positivity

/-! ## Whole numbers -/

/-- A character that upper-casing keeps. -/
def Upper (c : Char) : Prop := c.toNat < 128 ∧ c.toUpper = c

theorem Runtime.upper_of_upper (rt : Runtime) {s : List Char} (h : ∀ c ∈ s, Upper c) : rt.upper s = s := by
  have hkept : ∀ c ∈ s, rt.toUpper c = id c := fun c hc => (rt.toUpper_ascii c (h c hc).1).trans (h c hc).2
  rw [upper, List.map_congr_left hkept, List.map_id]

/-- What is tested of each of the 128 characters holds of them. -/
theorem ascii_of_all {P : Char → Bool} (h : ∀ n : Fin 128, P (Char.ofNat n) = true) {c : Char} (hc : c.toNat < 128) :
    P c = true := by
  have hn := h ⟨c.toNat, hc⟩
  rwa [Char.ofNat_toNat] at hn

theorem digit_plain {c : Char} (h : c.isDigit = true) : Upper c ∧ isSpace c = false := by
  have hcode := Decimal.isDigit_bounds h
  have hall := ascii_of_all (P := fun c => !c.isDigit || decide (c.toUpper = c ∧ isSpace c = false)) (by decide)
    (show c.toNat < 128 by omega)
  simp only [h, Bool.not_true, Bool.false_or, decide_eq_true_eq] at hall
  exact ⟨⟨by omega, hall.1⟩, hall.2⟩

theorem blank_plain {c : Char} (h : isBlank c = true) :
    Upper c ∧ isSpace c = true ∧ c.isDigit = false ∧ c ≠ '.' := by
  have hcode : c.toNat < 128 := by
    simp only [isBlank, List.mem_cons, List.not_mem_nil, or_false, decide_eq_true_eq] at h
    omega
  have hall := ascii_of_all (P := fun c => !isBlank c ||
    decide (c.toUpper = c ∧ isSpace c = true ∧ c.isDigit = false ∧ c ≠ '.')) (by decide) hcode
  simp only [h, Bool.not_true, Bool.false_or, decide_eq_true_eq] at hall
  exact ⟨⟨hcode, hall.1⟩, hall.2⟩

/-- The letters after a number, in upper case. -/
def SizeUnit.Letters (u : SizeUnit) (letters : List Char) : Prop := letters = u.text ∨ letters = u.text ++ ['B']

section Letters

variable {u : SizeUnit} {letters : List Char} (h : u.Letters letters)

include h

theorem SizeUnit.Letters.plain : ∀ c ∈ letters, Upper c ∧ isSpace c = false ∧ isBlank c = false ∧
    c.isDigit = false ∧ c ≠ '.' := by
  -- tested along the list: a decision over all characters would enumerate them
  have hall : ['K', 'M', 'G', 'T', 'P', 'B'].all (fun c => decide ((c.toNat < 128 ∧ c.toUpper = c) ∧ isSpace c = false ∧
      isBlank c = false ∧ c.isDigit = false ∧ c ≠ '.')) = true := by decide
  have hsub : letters ⊆ ['K', 'M', 'G', 'T', 'P', 'B'] := by
    rcases h with rfl | rfl <;> cases u <;> simp [SizeUnit.text]
  intro c hc
  have hc' := List.all_eq_true.1 hall c (hsub hc)
  rwa [decide_eq_true_iff] at hc'

theorem SizeUnit.Letters.takeUnit_eq : ∃ rest, takeUnit letters = (u, rest) ∧ (rest = [] ∨ rest = ['B']) := by
  rcases h with rfl | rfl
  · exact ⟨[], by cases u <;> rfl, .inl rfl⟩
  · exact ⟨['B'], by cases u <;> rfl, .inr rfl⟩

end Letters

theorem byteSizeRegexp_whole {digits gap letters : List Char} {u : SizeUnit} (hne : digits ≠ [])
    (hdigits : ∀ c ∈ digits, c.isDigit = true) (hgap : ∀ c ∈ gap, isBlank c = true) (hletters : u.Letters letters) :
    byteSizeRegexp (digits ++ (gap ++ letters)) = some ⟨digits, [], u⟩ := by
  have hafter : ∀ c ∈ gap ++ letters, c.isDigit = false ∧ c ≠ '.' := by
    intro c hc
    rcases List.mem_append.1 hc with hc | hc
    · exact (blank_plain (hgap c hc)).2.2
    · exact (hletters.plain c hc).2.2.2
  have hspan : (digits ++ (gap ++ letters)).span Char.isDigit = (digits, gap ++ letters) := by
    rw [List.span_eq_takeWhile_dropWhile, List.takeWhile_append_of_pos hdigits, List.dropWhile_append_of_pos hdigits]
    cases hrest : gap ++ letters with
    | nil => simp
    | cons c rest =>
      have hc := (hafter c (by rw [hrest]; exact List.mem_cons_self)).1
      simp [hc]
  -- what follows the digits is no point, so that there is no fraction
  have hfraction : takeFraction (gap ++ letters) = ([], gap ++ letters) := by
    cases hrest : gap ++ letters with
    | nil => rfl
    | cons c rest =>
      have hc := (hafter c (by rw [hrest]; exact List.mem_cons_self)).2
      unfold takeFraction
      split
      · rename_i heq
        exact absurd (List.cons.inj heq).1 hc
      · rfl
  have hblanks : (gap ++ letters).dropWhile isBlank = letters := by
    rw [List.dropWhile_append_of_pos hgap]
    cases hrest : letters with
    | nil => rfl
    | cons c rest =>
      have hc := (hletters.plain c (by rw [hrest]; exact List.mem_cons_self)).2.2.1
      simp [hc]
  obtain ⟨rest, htake, hrest⟩ := hletters.takeUnit_eq
  simp only [byteSizeRegexp, hspan, hfraction, hblanks, htake]
  exact if_pos ⟨hne, hrest⟩

/-- The text has the digits of `n` and the unit `u` with or without a `B`, in capitals or not, with blanks around
and between them. -/
structure Written (rt : Runtime) (n : Nat) (u : SizeUnit) (s : List Char) where
  lead : List Char
  gap : List Char
  letters : List Char
  trail : List Char
  text : s = lead ++ (Nat.toDigits 10 n ++ (gap ++ (letters ++ trail)))
  blanks : ∀ c ∈ lead ++ gap ++ trail, isBlank c = true
  unit : u.Letters (rt.upper letters)

section Written

variable {rt : Runtime} {n : Nat} {u : SizeUnit} {s : List Char}

/-- Blanks may be left between the number and the unit. -/
theorem Written.matched (h : Written rt n u s) : ∃ gap letters, (∀ c ∈ gap, isBlank c = true) ∧ u.Letters letters ∧
    rt.matched s = Nat.toDigits 10 n ++ (gap ++ letters) := by
  obtain ⟨lead, gap, letters, trail, rfl, hblanks, hunit⟩ := h
  have hlead : ∀ c ∈ lead, isBlank c = true := fun c hc => hblanks c (by simp [hc])
  have hgap : ∀ c ∈ gap, isBlank c = true := fun c hc => hblanks c (by simp [hc])
  have htrail : ∀ c ∈ trail, isBlank c = true := fun c hc => hblanks c (by simp [hc])
  have hdigits : ∀ c ∈ Nat.toDigits 10 n, c.isDigit = true := Decimal.digits_isDigit n
  have hupper : ∀ {l : List Char}, (∀ c ∈ l, isBlank c = true) → rt.upper l = l :=
    fun hl => rt.upper_of_upper fun c hc => (blank_plain (hl c hc)).1
  have hupperDigits : rt.upper (Nat.toDigits 10 n) = Nat.toDigits 10 n :=
    rt.upper_of_upper fun c hc => (digit_plain (hdigits c hc)).1
  have htwice : rt.upper (rt.upper letters) = rt.upper letters := rt.upper_of_upper fun c hc => (hunit.plain c hc).1
  -- the text is in capitals twice over: digits and blanks have none
  have htext : rt.upper (rt.upper (lead ++ (Nat.toDigits 10 n ++ (gap ++ (letters ++ trail))))) =
      lead ++ (Nat.toDigits 10 n ++ (gap ++ (rt.upper letters ++ trail))) := by
    have happend : ∀ a b : List Char, rt.upper (a ++ b) = rt.upper a ++ rt.upper b := fun a b => List.map_append
    simp only [happend, hupper hlead, hupper hgap, hupper htrail, hupperDigits, htwice]
  have htrim : trimSpace (lead ++ (Nat.toDigits 10 n ++ (gap ++ (rt.upper letters ++ trail)))) =
      Nat.toDigits 10 n ++ ProxyHandler.trimRight (gap ++ (rt.upper letters ++ trail)) :=
    ProxyHandler.trimSpace_append (fun c hc => (blank_plain (hlead c hc)).2.1) (by simp)
      (fun c hc => (digit_plain (hdigits c hc)).2) _
  rw [Runtime.matched, htext, htrim]
  rcases List.eq_nil_or_concat (rt.upper letters) with hnil | ⟨init, d, hlast⟩
  · -- no unit: the blanks are at the end
    refine ⟨[], [], by simp, by rwa [hnil] at hunit, ?_⟩
    rw [hnil, List.nil_append, ProxyHandler.trimRight_blank]
    · rfl
    · intro c hc
      rcases List.mem_append.1 hc with hc | hc
      · exact (blank_plain (hgap c hc)).2.1
      · exact (blank_plain (htrail c hc)).2.1
  · refine ⟨gap, rt.upper letters, hgap, hunit, ?_⟩
    have hd : isSpace d = false := (hunit.plain d (by rw [hlast]; simp)).2.1
    have hsplit : gap ++ (rt.upper letters ++ trail) = (gap ++ init) ++ d :: trail := by
      rw [hlast]
      simp
    rw [hsplit, ProxyHandler.trimRight_append hd,
      ProxyHandler.trimRight_blank fun c hc => (blank_plain (htrail c hc)).2.1,
      hlast]
    simp

theorem number_whole (n : Nat) (u : SizeUnit) : SizeParts.number ⟨Nat.toDigits 10 n, [], u⟩ = n := by
  simp [SizeParts.number, Nat.ofDigitChars_ten_toDigits]

/-- Nothing is rounded or lost of a whole number of at most 53 digits, scaled by the unit. -/
theorem lostShare_whole {bytes : Nat} (hexact : Representable bytes) (hpos : 0 < bytes) (hfit : bytes < 2 ^ 64) :
    (lostShare (UInt64.ofNat bytes) (.finite bytes)).gt (ofRat (1 / 10 ^ 6)) = false := by
  have htoNat : (UInt64.ofNat bytes).toNat = bytes := by
    rw [UInt64.toNat_ofNat']
    exact Nat.mod_eq_of_lt hfit
  have hzero : ofRat 0 = .finite 0 := by
    rw [ofRat_of_le (by norm_num), nearest_zero]
  have hne : (bytes : ℚ) ≠ 0 := Nat.cast_ne_zero.2 hpos.ne'
  have hshare : lostShare (UInt64.ofNat bytes) (.finite bytes) = .finite 0 := by
    unfold lostShare
    rw [(ofRat_byteSize _).1, htoNat, nearest_of_representable hexact]
    simp only [Value.sub, sub_self, hzero, Value.abs, abs_zero, Value.div, if_neg hne, zero_div]
  -- a share of zero is below the threshold as it is rounded
  rw [hshare, gt_millionth]
  have hmill := (abs_le.1 (nearest_close (1 / 10 ^ 6))).1
  rw [abs_of_pos (by norm_num)] at hmill
  linarith

theorem unmarshalByteSize_whole (hpos : 0 < n) (hn : n < 2 ^ 53) (hfit : n * 2 ^ u.exponent < 2 ^ 64)
    (h : Written rt n u s) : unmarshalByteSize rt s = .ok (UInt64.ofNat (n * 2 ^ u.exponent)) := by
  obtain ⟨gap, letters, hgap, hletters, hmatched⟩ := h.matched
  have hmatch : byteSizeRegexp (trimSpace (rt.upper (rt.upper s))) = some ⟨Nat.toDigits 10 n, [], u⟩ := by
    change byteSizeRegexp (rt.matched s) = _
    rw [hmatched, byteSizeRegexp_whole (by simp) (Decimal.digits_isDigit n) hgap hletters]
  have hnumber : SizeParts.number ⟨Nat.toDigits 10 n, [], u⟩ = n := number_whole n u
  have hrep := representable_natCast hn
  have hscaled : Representable ((n * 2 ^ u.exponent : Nat) : ℚ) := by
    push_cast
    exact hrep.mul_pow u.exponent
  have hsmall : ((n * 2 ^ u.exponent : Nat) : ℚ) < 2 ^ 64 := by exact_mod_cast hfit
  have hparse : parseStringParts rt (rt.upper s) = .ok ((n : ℚ), u) := by
    have hof : ofRat (n : ℚ) = .finite n := by
      have hn' : (n : ℚ) < 2 ^ 53 := by exact_mod_cast hn
      rw [ofRat_of_le (by rw [abs_of_nonneg (Nat.cast_nonneg n)]; linarith), nearest_of_representable hrep]
    simp only [parseStringParts, hmatch, hnumber, hof]
  -- the unit is a power of two, so that the product is not rounded
  have hvalue : (Value.finite n).mul (.finite (2 ^ u.exponent)) = .finite (n * 2 ^ u.exponent : Nat) := by
    have hcast : (n : ℚ) * 2 ^ u.exponent = ((n * 2 ^ u.exponent : Nat) : ℚ) := by push_cast; rfl
    simp only [Value.mul, hcast]
    rw [ofRat_of_le (by rw [abs_of_nonneg (Nat.cast_nonneg _)]; linarith), nearest_of_representable hscaled]
  have hbyte : rt.byteSize (.finite (n * 2 ^ u.exponent : Nat)) = UInt64.ofNat (n * 2 ^ u.exponent) := by
    rw [Runtime.byteSize, if_pos ⟨Nat.cast_nonneg _, hsmall⟩, Nat.floor_natCast]
  have hlost := lostShare_whole hscaled (Nat.mul_pos hpos (by positivity)) hfit
  unfold lostShare at hlost
  have hpositive : ¬(n : ℚ) ≤ 0 := not_le.2 (Nat.cast_pos.2 hpos)
  unfold unmarshalByteSize
  dsimp only
  rw [hparse]
  change (if (n : ℚ) ≤ 0 then _ else _) = _
  rw [if_neg hpositive, hvalue, hbyte, hlost]
  rfl

end Written

/-- A positive whole number below `2 ^ 53` with a unit is read exactly, however it is written, if its bytes fit into
64 bits. -/
theorem byteSize_exact {rt : Runtime} {n : Nat} {u : SizeUnit} {s : List Char} (hpos : 0 < n) (hn : n < 2 ^ 53)
    (hfit : n * 2 ^ u.exponent < 2 ^ 64) (h : Written rt n u s) :
    ∃ bs, unmarshalByteSize rt s = .ok bs ∧ bs.toNat = n * 2 ^ u.exponent := by
  refine ⟨_, unmarshalByteSize_whole hpos hn hfit h, ?_⟩
  rw [UInt64.toNat_ofNat']
  exact Nat.mod_eq_of_lt hfit

/-- Neither upper-casing nor the conversion is asked for anything unusual. -/
def plainRuntime : Runtime := ⟨Char.toUpper, fun _ => 9223372036854775808, fun _ _ => rfl⟩

def sixteenKilobytes : Written plainRuntime 16 .k " 16 kB\n".toList where
  lead := [' ']
  gap := [' ']
  letters := ['k', 'B']
  trail := ['\n']
  text := by decide
  blanks := List.all_eq_true.1 (by decide)
  unit := .inr (by decide)

theorem byteSize_exact_sixteen :
    ∃ bs, unmarshalByteSize plainRuntime " 16 kB\n".toList = .ok bs ∧ bs.toNat = 16384 :=
  byteSize_exact (by decide) (by decide) (by decide) sixteenKilobytes

/-! ## Any number -/

/-- A size that is accepted is within two millionths of the one that is written, unless this has hundreds
of digits: then its value in binary64 is infinite, and nothing is found to be lost. -/
theorem byteSize_close {rt : Runtime} {s : List Char} {bs : ByteSize} (h : unmarshalByteSize rt s = .ok bs) :
    ∃ parts, byteSizeRegexp (rt.matched s) = some parts ∧
      (2 ^ 1021 ≤ parts.size ∨ |(bs.toNat : ℚ) - parts.size| ≤ 2 / 10 ^ 6 * parts.size) := by
  obtain ⟨parts, v, hmatch, hnumber, hpos, hbs, hlost⟩ := unmarshalByteSize_ok h
  refine ⟨parts, hmatch, ?_⟩
  obtain ⟨hk1, hk50⟩ := parts.unit.two_pow_exponent
  have hnear := ofRat_finite hnumber
  -- the number is rounded once, and then scaled exactly
  have hscaled : |v * 2 ^ parts.unit.exponent - parts.size| ≤ parts.size / 10 ^ 15 + 2 / 10 ^ 15 := by
    have hclose := nearest_close parts.number
    rw [← hnear, abs_of_nonneg parts.number_nonneg] at hclose
    have hmul := mul_le_mul_of_nonneg_right hclose (zero_le_one.trans hk1)
    rw [SizeParts.size, ← sub_mul, abs_mul, abs_of_pos (a := (2 : ℚ) ^ parts.unit.exponent) (by linarith)]
    linarith
  have hV : Representable (v * 2 ^ parts.unit.exponent) := by
    rw [hnear]
    exact (representable_nearest _).mul_pow _
  have hVpos : 0 < v * 2 ^ parts.unit.exponent := by positivity
  have hS0 : 0 ≤ parts.size := mul_nonneg parts.number_nonneg (zero_le_one.trans hk1)
  have hle := abs_le.1 hscaled
  rcases ofRat_cases (v * 2 ^ parts.unit.exponent) with hfin | hinf
  · right
    rw [nearest_of_representable hV] at hfin
    rw [hfin] at hbs hlost
    have hone : 1 ≤ v * 2 ^ parts.unit.exponent := one_le_of_accepted hVpos hV (by rwa [← hbs])
    have hshare := abs_le.1 (abs_sub_le_of_accepted hone hlost)
    rw [abs_le]
    constructor <;> linarith
  · left
    by_contra hlt
    rw [not_le] at hlt
    have hfar : |v * 2 ^ parts.unit.exponent| < 2 ^ 1022 := by
      rw [abs_of_pos hVpos, pow_succ]
      have hone : (1 : ℚ) ≤ 2 ^ 1021 := one_le_pow₀ (by norm_num)
      generalize (2 : ℚ) ^ 1021 = limit at hlt hone ⊢
      linarith
    cases (ofRat_of_lt hfar).symm.trans hinf

theorem byteSize_close_sixteen :
    ∃ bs parts, unmarshalByteSize plainRuntime " 16 kB\n".toList = .ok bs ∧
      byteSizeRegexp (plainRuntime.matched " 16 kB\n".toList) = some parts ∧
      (2 ^ 1021 ≤ parts.size ∨ |(bs.toNat : ℚ) - parts.size| ≤ 2 / 10 ^ 6 * parts.size) := by
  have hok := unmarshalByteSize_whole (by decide) (by decide) (by decide) sixteenKilobytes
  obtain ⟨parts, hmatch, hclose⟩ := byteSize_close hok
  exact ⟨_, parts, hok, hmatch, hclose⟩

/-- A size whose number is in the range of binary64, and which exceeds this range when it is multiplied by its unit,
is accepted, as whatever the conversion of an infinity gives: the share that is lost is not a number, and so not
too large. -/
theorem infinite_byteSize_accepted {rt : Runtime} {s : List Char} {parts : SizeParts} {v : ℚ}
    (hmatch : byteSizeRegexp (rt.matched s) = some parts) (hnumber : ofRat parts.number = .finite v)
    (hsize : (Value.finite v).mul (.finite (2 ^ parts.unit.exponent)) = .inf false) :
    unmarshalByteSize rt s = .ok (rt.convert (.inf false)) := by
  -- only a positive number overflows to the positive infinity
  have hpos : 0 < v := by
    by_contra hle
    rcases (not_lt.1 hle).eq_or_lt with rfl | hneg
    · rw [Value.mul, zero_mul, ofRat_of_le (by norm_num)] at hsize
      cases hsize
    · have hprod : v * 2 ^ parts.unit.exponent < 0 := mul_neg_of_neg_of_pos hneg (by positivity)
      rcases ofRat_cases (v * 2 ^ parts.unit.exponent) with hfin | hinf
      · cases hfin.symm.trans hsize
      · simp [Value.mul, hinf, hprod] at hsize
  have hparse : parseStringParts rt (rt.upper s) = .ok (v, parts.unit) := by
    have hmatch' : byteSizeRegexp (trimSpace (rt.upper (rt.upper s))) = some parts := hmatch
    simp only [parseStringParts, hmatch', hnumber]
  unfold unmarshalByteSize
  dsimp only
  rw [hparse]
  change (if v ≤ 0 then _ else _) = _
  have hbyte : rt.byteSize (.inf false) = rt.convert (.inf false) := rfl
  -- infinity by infinity is not a number, and nothing compares as greater
  rw [if_neg (not_le.2 hpos), hsize, hbyte, (ofRat_byteSize _).1]
  rfl

/-- The product exceeds the range from `2 ^ 1025` on. -/
theorem mul_eq_inf {parts : SizeParts} (hsize : 2 ^ 1025 ≤ parts.size) :
    (Value.finite (nearest parts.number)).mul (.finite (2 ^ parts.unit.exponent)) = .inf false := by
  obtain ⟨hk1, hk50⟩ := parts.unit.two_pow_exponent
  -- a number below one stays small with every unit
  have hone : 1 ≤ parts.number := by
    by_contra hlt
    have hle : parts.size ≤ 2 ^ 50 := by
      rw [SizeParts.size]
      exact (mul_le_of_le_one_left (by linarith) (not_le.1 hlt).le).trans hk50
    exact absurd (hsize.trans hle) (not_le.2 (pow_lt_pow_right₀ (by norm_num) (by norm_num)))
  have hhalf : parts.number / 2 ≤ nearest parts.number := by
    have hclose := (abs_le.1 (nearest_close parts.number)).1
    rw [abs_of_nonneg parts.number_nonneg] at hclose
    linarith
  have hlarge : 2 ^ 1024 ≤ nearest parts.number * 2 ^ parts.unit.exponent := by
    have hmul := mul_le_mul_of_nonneg_right hhalf (by linarith : (0 : ℚ) ≤ 2 ^ parts.unit.exponent)
    have hdouble : (2 : ℚ) ^ 1024 * 2 ≤ parts.number * 2 ^ parts.unit.exponent := by
      rw [← pow_succ]
      exact hsize
    generalize (2 : ℚ) ^ 1024 = limit at hdouble ⊢
    linarith
  have hpos : 0 < nearest parts.number * 2 ^ parts.unit.exponent := lt_of_lt_of_le (by positivity) hlarge
  have hrep := (representable_nearest parts.number).mul_pow parts.unit.exponent
  rw [Value.mul, ofRat, nearest_of_representable hrep, if_neg (by rw [abs_of_pos hpos]; exact not_lt.2 hlarge)]
  simp [hpos.le]

/-- A one with 300 zeros. -/
def hugeNumber : Nat := 10 ^ 150 * 10 ^ 150

def hugeSize : Written plainRuntime hugeNumber .p (Nat.toDigits 10 hugeNumber ++ ['P']) where
  lead := []
  gap := []
  letters := ['P']
  trail := []
  text := by simp
  blanks := by simp
  unit := .inl (by decide)

theorem infinite_byteSize_accepted_huge :
    unmarshalByteSize plainRuntime (Nat.toDigits 10 hugeNumber ++ ['P']) = .ok 9223372036854775808 := by
  obtain ⟨gap, letters, hgap, hletters, hmatched⟩ := hugeSize.matched
  have hmatch := byteSizeRegexp_whole (by simp) (Decimal.digits_isDigit hugeNumber) hgap hletters
  rw [← hmatched] at hmatch
  have hnumber : SizeParts.number ⟨Nat.toDigits 10 hugeNumber, [], .p⟩ = hugeNumber := number_whole hugeNumber .p
  refine infinite_byteSize_accepted hmatch (ofRat_of_lt ?_) (mul_eq_inf ?_)
  · rw [hnumber, abs_of_nonneg (Nat.cast_nonneg _)]
    exact_mod_cast (by decide +kernel : hugeNumber < 2 ^ 1022)
  · rw [SizeParts.size, hnumber]
    exact_mod_cast (by decide +kernel : 2 ^ 1025 ≤ hugeNumber * 2 ^ 50)

end Chproxy.Config
