import Mathlib.Data.List.DropRight
import Pinger.Lib.Numeral

/-! # Calendar dates

The date and the time of day of a time that is counted in nanoseconds from the zero time, which is
the first of January of year 1, and the layouts of `Format` made of the full date, the time of day
and a fraction whose last zeros are dropped. A date of eight digits determines the day, and with the
time of day it determines the millisecond. -/

namespace Calendar

structure Date where
  year : Int
  month : Nat
  day : Nat
  deriving DecidableEq, Repr

def isLeap (year : Int) : Bool := year % 4 = 0 && (year % 100 ≠ 0 || year % 400 = 0)

/-- The days of a common year before the month, which counts from 0. -/
def daysBefore : Nat → Nat
  | 0 => 0
  | 1 => 31
  | 2 => 59
  | 3 => 90
  | 4 => 120
  | 5 => 151
  | 6 => 181
  | 7 => 212
  | 8 => 243
  | 9 => 273
  | 10 => 304
  | 11 => 334
  | _ => 365

/-- The month and the day of a day of a common year. The first guess, that every month has 31 days,
is at most one month too low. -/
def monthDay (yday : Nat) : Nat × Nat :=
  let guess := yday / 31
  let month := if daysBefore (guess + 1) ≤ yday then guess + 1 else guess
  (month + 1, yday - daysBefore month + 1)

/-- The year of a day, and the day of the year. The last cycle of a century and the last year of a
cycle of four are a day longer, so their quotients are cut back. -/
def yearDay (days : Int) : Int × Nat :=
  let d := (days % 146097).toNat
  let century := d / 36524 - d / 36524 / 4
  let d := d - 36524 * century
  let four := d / 1461
  let d := d - 1461 * four
  let one := d / 365 - d / 365 / 4
  (400 * (days / 146097) + 100 * century + 4 * four + one + 1, d - 365 * one)

/-- The date of the day this many days after the zero time. -/
def ofDays (days : Int) : Date :=
  let (year, yday) := yearDay days
  if isLeap year ∧ yday = 59 then ⟨year, 2, 29⟩
  else
    let (month, day) := monthDay (if isLeap year ∧ 59 < yday then yday - 1 else yday)
    ⟨year, month, day⟩

def nanosPerDay : Int := 86400000000000

def date (t : Int) : Date := ofDays (t / nanosPerDay)

/-- `t.Day()`. -/
def day (t : Int) : Nat := (date t).day

/-- The seconds since midnight. -/
def daySecond (t : Int) : Nat := (t / 1000000000 % 86400).toNat

def millisecond (t : Int) : Nat := (t / 1000000 % 1000).toNat

example : date (719162 * nanosPerDay) = ⟨1970, 1, 1⟩ := by decide

example : date (735657 * nanosPerDay) = ⟨2015, 3, 1⟩ ∧
    date (736022 * nanosPerDay) = ⟨2016, 2, 29⟩ := by
  decide

/-! ## Days of the month -/

/-- The quotient that is cut back: all but the last of four parts have `n` days, and the last one
may have one more. -/
theorem cut_quotient {d n : Nat} (h : d ≤ 4 * n) (hn : 0 < n) :
    d / n - d / n / 4 ≤ 3 ∧ d - n * (d / n - d / n / 4) ≤ n ∧
      (d - n * (d / n - d / n / 4) = n → d = 4 * n) := by
  have hle : n * (d / n) ≤ d := Nat.mul_div_le d n
  have hlt : d < n * (d / n + 1) := Nat.lt_mul_div_succ d hn
  have hq : d / n ≤ 4 := Nat.div_le_of_le_mul (Nat.mul_comm 4 n ▸ h)
  generalize d / n = q at *
  obtain rfl | hq : q = 4 ∨ q < 4 := by omega
  · omega
  · rw [Nat.div_eq_of_lt hq, Nat.sub_zero]
    rw [Nat.mul_add, Nat.mul_one] at hlt
    omega

/-- The parts of the quotient of a day, as `yearDay` cuts them. -/
theorem yearDay_cases (days : Int) : ∃ century four one yday : Nat,
    yearDay days = (400 * (days / 146097) + 100 * century + 4 * four + one + 1, yday) ∧
      yday ≤ 365 ∧ (yday = 365 → one = 3 ∧ (four = 24 → century = 3)) ∧ four ≤ 24 := by
  refine ⟨_, _, _, _, rfl, ?_⟩
  have hd : (days % 146097).toNat ≤ 4 * 36524 := by omega
  generalize (days % 146097).toNat = d at *
  obtain ⟨-, hle, hcentury⟩ := cut_quotient hd (by decide)
  have hthree : d = 4 * 36524 → d / 36524 - d / 36524 / 4 = 3 := by rintro rfl; rfl
  generalize d / 36524 - d / 36524 / 4 = century at *
  generalize d - 36524 * century = d₁ at *
  have hfour : d₁ / 1461 ≤ 24 := by omega
  obtain ⟨-, hle', hone⟩ :=
    cut_quotient (show d₁ - 1461 * (d₁ / 1461) ≤ 4 * 365 by omega) (by decide)
  generalize hd₂ : d₁ - 1461 * (d₁ / 1461) = d₂ at *
  refine ⟨hle', fun h => ?_, hfour⟩
  obtain rfl := hone h
  exact ⟨rfl, fun h => hthree (hcentury (by omega))⟩

theorem yearDay_lt (days : Int) : (yearDay days).2 < 366 := by
  obtain ⟨_, _, _, yday, heq, hle, -, -⟩ := yearDay_cases days
  rw [heq]
  exact Nat.lt_succ_of_le hle

/-- A year of 366 days is a leap year: it ends a cycle of four, and it ends a century only when that
is the last one of its cycle. -/
theorem isLeap_of_yearDay (h : (yearDay days).2 = 365) : isLeap (yearDay days).1 := by
  obtain ⟨century, four, one, yday, heq, -, hlast, hfour⟩ := yearDay_cases days
  rw [heq] at h ⊢
  obtain ⟨rfl, hcentury⟩ := hlast h
  simp only [isLeap, Bool.and_eq_true, Bool.or_eq_true, decide_eq_true_eq]
  omega

theorem monthDay_bounds : ∀ yday < 365,
    (monthDay yday).1 ≤ 12 ∧ 1 ≤ (monthDay yday).2 ∧ (monthDay yday).2 ≤ 31 := by
  decide +kernel

theorem ofDays_bounds (days : Int) : (ofDays days).month ≤ 12 ∧ (ofDays days).day ≤ 31 := by
  simp only [ofDays]
  split
  next => exact ⟨by simp, by simp⟩
  next hleap =>
    have hlt := yearDay_lt days
    have hbound : (if isLeap (yearDay days).1 ∧ 59 < (yearDay days).2 then (yearDay days).2 - 1
        else (yearDay days).2) < 365 := by
      split
      · omega
      next hno =>
        have hne : (yearDay days).2 ≠ 365 := fun h => hno ⟨isLeap_of_yearDay h, by omega⟩
        omega
    exact ⟨(monthDay_bounds _ hbound).1, (monthDay_bounds _ hbound).2.2⟩

/-! ## Layouts -/

/-- The parts of a layout. -/
inductive Std
  | longYear
  | zeroMonth
  | zeroDay
  | hour
  | zeroMinute
  | zeroSecond
  /-- `.999` -/
  | fracSecond
  | text (c : Char)
  deriving DecidableEq, Repr

/-- A numeral of at least this many digits. -/
def pad (width n : Nat) : GoString :=
  List.replicate (width - (GoString.formatUint n).length) '0' ++ GoString.formatUint n

def formatYear (year : Int) : GoString :=
  if year < 0 then '-' :: pad 4 year.natAbs else pad 4 year.natAbs

/-- The fraction of the second without its last zeros, or nothing. -/
def formatFraction (millisecond : Nat) : GoString :=
  let digits := (pad 3 millisecond).rdropWhile (· = '0')
  if digits = [] then [] else '.' :: digits

def Std.format (t : Int) : Std → GoString
  | .longYear => formatYear (date t).year
  | .zeroMonth => pad 2 (date t).month
  | .zeroDay => pad 2 (date t).day
  | .hour => pad 2 (daySecond t / 3600)
  | .zeroMinute => pad 2 (daySecond t / 60 % 60)
  | .zeroSecond => pad 2 (daySecond t % 60)
  | .fracSecond => formatFraction (millisecond t)
  | .text c => [c]

def format (layout : List Std) (t : Int) : GoString := layout.flatMap (Std.format t)

/-- `20060102` -/
def dateLayout : List Std := [.longYear, .zeroMonth, .zeroDay]

/-- `150405.999` -/
def clockLayout : List Std := [.hour, .zeroMinute, .zeroSecond, .fracSecond]

/-- `2006-01-02 15:04:05.999` -/
def stampLayout : List Std :=
  [.longYear, .text '-', .zeroMonth, .text '-', .zeroDay, .text ' ', .hour, .text ':', .zeroMinute,
    .text ':', .zeroSecond, .fracSecond]

example : format stampLayout (735657 * nanosPerDay + 3723040000000) =
    GoString.lit "2015-03-01 01:02:03.04" := by decide +kernel

/-! ## What a layout writes -/

theorem ofDigitChars_pad (width n : Nat) : Nat.ofDigitChars 10 (pad width n) 0 = n := by
  rw [pad, Nat.ofDigitChars_append, Nat.ofDigitChars_replicate_zero, Nat.mul_zero]
  exact Nat.ofDigitChars_ten_toDigits

theorem pad_injective (h : pad width n = pad width m) : n = m := by
  rw [← ofDigitChars_pad width n, h, ofDigitChars_pad]

theorem length_pad (width n : Nat) :
    (pad width n).length = max width (GoString.formatUint n).length := by
  rw [pad, List.length_append, List.length_replicate]
  omega

theorem length_pad_eq_iff (h : 0 < width) : (pad width n).length = width ↔ n < 10 ^ width := by
  rw [length_pad, ← Nat.length_toDigits_le_iff (by decide) h, GoString.formatUint]
  omega

theorem isDigit_of_mem_pad (h : c ∈ pad width n) : GoString.isDigit c := by
  rcases List.mem_append.mp h with h | h
  · rw [List.eq_of_mem_replicate h]
    decide
  · exact (GoString.denotes_formatUint n).2.1 c h

/-- A layout writes digits, signs, points and its own texts. -/
theorem mem_format (h : c ∈ format layout t) :
    GoString.isDigit c ∨ c = '-' ∨ c = '.' ∨ Std.text c ∈ layout := by
  obtain ⟨part, hpart, hc⟩ := List.mem_flatMap.mp h
  cases part with
  | longYear =>
    simp only [Std.format, formatYear] at hc
    split at hc
    · rcases List.mem_cons.mp hc with rfl | hc
      · exact .inr (.inl rfl)
      · exact .inl (isDigit_of_mem_pad hc)
    · exact .inl (isDigit_of_mem_pad hc)
  | fracSecond =>
    simp only [Std.format, formatFraction] at hc
    split at hc
    · cases hc
    · rcases List.mem_cons.mp hc with rfl | hc
      · exact .inr (.inr (.inl rfl))
      · exact .inl (isDigit_of_mem_pad ((List.rdropWhile_prefix _ _).mem hc))
  | text c' =>
    obtain rfl : c = c' := by simpa [Std.format] using hc
    exact .inr (.inr (.inr hpart))
  | zeroMonth | zeroDay | hour | zeroMinute | zeroSecond => exact .inl (isDigit_of_mem_pad hc)

theorem format_append (layout layout' : List Std) (t : Int) :
    format (layout ++ layout') t = format layout t ++ format layout' t := List.flatMap_append

theorem format_dateLayout (t : Int) : format dateLayout t =
    formatYear (date t).year ++ (pad 2 (date t).month ++ pad 2 (date t).day) := by
  simp [format, dateLayout, Std.format]

/-- The month and the day take two digits each. -/
theorem length_monthDay (t : Int) :
    (pad 2 (date t).month).length = 2 ∧ (pad 2 (date t).day).length = 2 := by
  obtain ⟨hmonth, hday⟩ := ofDays_bounds (t / nanosPerDay)
  rw [length_pad_eq_iff (by decide), length_pad_eq_iff (by decide), date]
  omega

theorem length_formatYear_eq_four : (formatYear year).length = 4 ↔ 0 ≤ year ∧ year ≤ 9999 := by
  unfold formatYear
  split
  next hneg =>
    rw [List.length_cons, length_pad]
    omega
  next hpos =>
    rw [length_pad_eq_iff (by decide)]
    omega

/-- The date has eight digits in the years from 0 to 9999. -/
theorem length_format_date (t : Int) :
    (format dateLayout t).length = 8 ↔ 0 ≤ (date t).year ∧ (date t).year ≤ 9999 := by
  obtain ⟨hmonth, hday⟩ := length_monthDay t
  rw [← length_formatYear_eq_four, format_dateLayout, List.length_append, List.length_append, hmonth,
    hday]
  omega

theorem four_le_length_formatYear (year : Int) : 4 ≤ (formatYear year).length := by
  unfold formatYear
  split
  · rw [List.length_cons, length_pad]
    omega
  · rw [length_pad]
    omega

theorem eight_le_length_format_date (t : Int) : 8 ≤ (format dateLayout t).length := by
  obtain ⟨hmonth, hday⟩ := length_monthDay t
  have := four_le_length_formatYear (date t).year
  rw [format_dateLayout, List.length_append, List.length_append, hmonth, hday]
  omega

theorem point_not_mem_format_date (t : Int) : '.' ∉ format dateLayout t := by
  have hpad : ∀ width n, '.' ∉ pad width n :=
    fun width n h => absurd (isDigit_of_mem_pad h) (by decide)
  have hyear : ∀ year, '.' ∉ formatYear year := by
    intro year
    unfold formatYear
    split
    · rw [List.mem_cons, not_or]
      exact ⟨by decide, hpad _ _⟩
    · exact hpad _ _
  rw [format_dateLayout, List.mem_append, List.mem_append, not_or, not_or]
  exact ⟨hyear _, hpad _ _, hpad _ _⟩

theorem formatYear_injective (h : formatYear year = formatYear year') : year = year' := by
  have hsign : ∀ n m, '-' :: pad 4 n ≠ pad 4 m := by
    intro n m h
    have := isDigit_of_mem_pad (h ▸ List.mem_cons_self)
    exact absurd this (by decide)
  unfold formatYear at h
  split at h <;> split at h
  · have := pad_injective (List.cons.inj h).2
    omega
  · exact absurd h (hsign _ _)
  · exact absurd h.symm (hsign _ _)
  · have := pad_injective h
    omega

/-- The written date determines the date. -/
theorem date_eq_of_format (h : format dateLayout t = format dateLayout t') : date t = date t' := by
  obtain ⟨hmonth, hday⟩ := length_monthDay t
  obtain ⟨hmonth', hday'⟩ := length_monthDay t'
  rw [format_dateLayout, format_dateLayout] at h
  obtain ⟨hyear, h⟩ := List.append_inj' h (by simp only [List.length_append]; omega)
  obtain ⟨hm, hd⟩ := List.append_inj h (hmonth.trans hmonth'.symm)
  have hyear := formatYear_injective hyear
  have hm := pad_injective hm
  have hd := pad_injective hd
  rcases hdate : date t with ⟨year, month, day⟩
  rcases hdate' : date t' with ⟨year', month', day'⟩
  simp_all

/-! ## The day of a date -/

/-- The parts of a day's number are those of its year, and the day of the year. -/
theorem yearDay_parts (days : Int) : ∃ century four one yday : Nat,
    yearDay days = (400 * (days / 146097) + 100 * century + 4 * four + one + 1, yday) ∧
      century ≤ 3 ∧ four ≤ 24 ∧ one ≤ 3 ∧
      days = 146097 * (days / 146097) + 36524 * century + 1461 * four + 365 * one + yday := by
  refine ⟨_, _, _, _, rfl, ?_⟩
  have hd : (days % 146097).toNat ≤ 4 * 36524 := by omega
  have hdays : days = 146097 * (days / 146097) + (days % 146097).toNat := by omega
  generalize (days % 146097).toNat = d at *
  obtain ⟨hcentury, hle, -⟩ := cut_quotient hd (by decide)
  have hcut : 36524 * (d / 36524 - d / 36524 / 4) ≤ d := by omega
  generalize d / 36524 - d / 36524 / 4 = century at *
  generalize hd₁ : d - 36524 * century = d₁ at *
  obtain ⟨hone, -, -⟩ :=
    cut_quotient (show d₁ - 1461 * (d₁ / 1461) ≤ 4 * 365 by omega) (by decide)
  have hcut' : 1461 * (d₁ / 1461) ≤ d₁ := by omega
  have hfour : d₁ / 1461 ≤ 24 := by omega
  generalize d₁ / 1461 = four at *
  generalize hd₂ : d₁ - 1461 * four = d₂ at *
  have hcut'' : 365 * (d₂ / 365 - d₂ / 365 / 4) ≤ d₂ := by omega
  generalize d₂ / 365 - d₂ / 365 / 4 = one at *
  exact ⟨hcentury, hfour, hone, by omega⟩

theorem yearDay_injective (h : yearDay days = yearDay days') : days = days' := by
  obtain ⟨century, four, one, yday, heq, hc, hf, ho, hdays⟩ := yearDay_parts days
  obtain ⟨century', four', one', yday', heq', hc', hf', ho', hdays'⟩ := yearDay_parts days'
  rw [heq, heq', Prod.mk.injEq] at h
  obtain ⟨hyear, rfl⟩ := h
  generalize days / 146097 = q at *
  generalize days' / 146097 = q' at *
  obtain rfl : q = q' := by omega
  obtain rfl : century = century' := by omega
  obtain rfl : four = four' := by omega
  omega

theorem monthDay_back : ∀ yday < 365, daysBefore ((monthDay yday).1 - 1) + (monthDay yday).2 =
    yday + 1 ∧ monthDay yday ≠ (2, 29) := by
  decide +kernel

/-- The 29th of February, or a day of a common year. -/
theorem ofDays_cases (days : Int) :
    (isLeap (yearDay days).1 ∧ (yearDay days).2 = 59 ∧ ofDays days = ⟨(yearDay days).1, 2, 29⟩) ∨
      ∃ yday < 365, ofDays days = ⟨(yearDay days).1, (monthDay yday).1, (monthDay yday).2⟩ ∧
        (yearDay days).2 = if isLeap (yearDay days).1 ∧ 59 ≤ yday then yday + 1 else yday := by
  simp only [ofDays]
  split
  next hleap => exact .inl ⟨hleap.1, hleap.2, rfl⟩
  next hleap =>
    have hlt := yearDay_lt days
    refine .inr ⟨_, ?_, rfl, ?_⟩
    · split
      · omega
      next hno =>
        have hne : (yearDay days).2 ≠ 365 := fun h => hno ⟨isLeap_of_yearDay h, by omega⟩
        omega
    · by_cases hyear : isLeap (yearDay days).1
      · simp only [hyear, true_and] at hleap ⊢
        split <;> split <;> omega
      · simp [hyear]

/-- The date determines the day. -/
theorem ofDays_injective (h : ofDays days = ofDays days') : days = days' := by
  apply yearDay_injective
  rcases ofDays_cases days with ⟨hleap, hyday, heq⟩ | ⟨m, hm, heq, hyday⟩ <;>
    rcases ofDays_cases days' with ⟨hleap', hyday', heq'⟩ | ⟨m', hm', heq', hyday'⟩ <;>
    rw [heq, heq', Date.mk.injEq] at h
  · exact Prod.ext h.1 (hyday.trans hyday'.symm)
  · exact absurd (Prod.ext h.2.1.symm h.2.2.symm) (monthDay_back m' hm').2
  · exact absurd (Prod.ext h.2.1 h.2.2) (monthDay_back m hm).2
  · obtain ⟨hyear, hmonth, hday⟩ := h
    have hback := (monthDay_back m hm).1
    have hback' := (monthDay_back m' hm').1
    rw [hmonth, hday] at hback
    obtain rfl : m = m' := by omega
    exact Prod.ext hyear (by rw [hyday, hyday', hyear])

/-- The first nanosecond of the year 10000. -/
def fiveDigitYears : Int := 3652059 * nanosPerDay

theorem date_year (h₀ : 0 ≤ t) (h : t < fiveDigitYears) :
    0 ≤ (date t).year ∧ (date t).year ≤ 9999 := by
  have hyear : (date t).year = (yearDay (t / nanosPerDay)).1 := by
    rcases ofDays_cases (t / nanosPerDay) with ⟨-, -, heq⟩ | ⟨_, -, heq, -⟩ <;> rw [date, heq]
  have hdays : 0 ≤ t / nanosPerDay ∧ t / nanosPerDay < 3652059 :=
    ⟨Int.ediv_nonneg h₀ (by decide), Int.ediv_lt_of_lt_mul (by decide) h⟩
  obtain ⟨century, four, one, yday, heq, hc, hf, ho, hsum⟩ := yearDay_parts (t / nanosPerDay)
  rw [hyear, heq]
  generalize t / nanosPerDay = days at *
  omega

/-! ## Times of a millisecond -/

theorem length_clock (t : Int) :
    (pad 2 (daySecond t / 3600)).length = 2 ∧ (pad 2 (daySecond t / 60 % 60)).length = 2 ∧
      (pad 2 (daySecond t % 60)).length = 2 := by
  have hlt : daySecond t < 86400 := by
    rw [daySecond]
    omega
  rw [length_pad_eq_iff (by decide), length_pad_eq_iff (by decide), length_pad_eq_iff (by decide)]
  omega

/-- The fraction without its point. -/
theorem formatFraction_erase (n : Nat) :
    (formatFraction n).erase '.' = (pad 3 n).rdropWhile (· = '0') := by
  unfold formatFraction
  dsimp only
  split
  next h => rw [h]; rfl
  next => exact List.erase_cons_head ..

theorem rdropWhile_zeros (l : GoString) : l = l.rdropWhile (· = '0') ++
    List.replicate (l.length - (l.rdropWhile (· = '0')).length) '0' := by
  have happ := List.rdropWhile_append_rtakeWhile (p := fun c : Char => decide (c = '0')) (l := l)
  have hzeros := List.eq_replicate_of_mem (a := '0') (l := l.rtakeWhile (· = '0'))
    fun c hc => by simpa using List.mem_rtakeWhile_imp hc
  have hlen := congrArg List.length happ
  rw [List.length_append] at hlen
  rw [show l.length - (l.rdropWhile (· = '0')).length = (l.rtakeWhile (· = '0')).length by omega,
    ← hzeros, happ]

/-- Zeros that are dropped are known from the length. -/
theorem rdropWhile_zeros_injective {l l' : GoString} (hlen : l.length = l'.length)
    (h : l.rdropWhile (· = '0') = l'.rdropWhile (· = '0')) : l = l' := by
  rw [rdropWhile_zeros l, rdropWhile_zeros l', h, hlen]

theorem length_pad_millisecond (t : Int) : (pad 3 (millisecond t)).length = 3 := by
  rw [length_pad_eq_iff (by decide), millisecond]
  omega

/-- The time of day without its point. -/
theorem format_clock_erase (t : Int) : (format clockLayout t).erase '.' =
    pad 2 (daySecond t / 3600) ++ (pad 2 (daySecond t / 60 % 60) ++ (pad 2 (daySecond t % 60) ++
      (pad 3 (millisecond t)).rdropWhile (· = '0'))) := by
  have hpad : ∀ width n, '.' ∉ pad width n :=
    fun width n h => absurd (isDigit_of_mem_pad h) (by decide)
  have hformat : format clockLayout t = pad 2 (daySecond t / 3600) ++
      (pad 2 (daySecond t / 60 % 60) ++
        (pad 2 (daySecond t % 60) ++ formatFraction (millisecond t))) := by
    simp [format, clockLayout, Std.format]
  rw [hformat, List.erase_append_right _ (hpad _ _), List.erase_append_right _ (hpad _ _),
    List.erase_append_right _ (hpad _ _), formatFraction_erase]

/-- The date and the time of day determine the time up to its millisecond. -/
theorem millisecond_determined (hdate : date t = date t')
    (hclock : (format clockLayout t).erase '.' = (format clockLayout t').erase '.') :
    t / 1000000 = t' / 1000000 := by
  have hdays := ofDays_injective hdate
  obtain ⟨hhour, hminute, hsecond⟩ := length_clock t
  obtain ⟨hhour', hminute', hsecond'⟩ := length_clock t'
  rw [format_clock_erase, format_clock_erase] at hclock
  obtain ⟨hh, hclock⟩ := List.append_inj hclock (hhour.trans hhour'.symm)
  obtain ⟨hm, hclock⟩ := List.append_inj hclock (hminute.trans hminute'.symm)
  obtain ⟨hs, hfrac⟩ := List.append_inj hclock (hsecond.trans hsecond'.symm)
  have hms := pad_injective (rdropWhile_zeros_injective
    ((length_pad_millisecond t).trans (length_pad_millisecond t').symm) hfrac)
  have hh := pad_injective hh
  have hm := pad_injective hm
  have hs := pad_injective hs
  simp only [daySecond, millisecond, nanosPerDay] at hh hm hs hms hdays
  omega

end Calendar
