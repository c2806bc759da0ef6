import Mathlib.Data.List.Lex
import Mathlib.Data.Nat.Digits.Defs
import Mathlib.Tactic.IntervalCases
import SolstoneWindows.ObserverLog.Time

/-!
# What timestamps say

`civilFromDays` and `daysFromCivil` count from March in eras of 400 years. A day of an era is a
century, a run of four years, and a day in that run; `yearOfEra_parts` gives the year in these
terms, and from it everything else is linear arithmetic. `daysFromCivil_lt` says that day numbers
follow the calendar. That dates are told apart by their day numbers, and that timestamps sort as
their times do, both come from it.

`formatRfc3339Utc_exact`: a time of the years 0000 to 9999 is read back from its timestamp, cut to
milliseconds, and no earlier time has a greater timestamp, exactly when it is not before 1970 or
has whole milliseconds. `parse_rfc3339_utc` takes the timestamps of real dates and times and no
other text, and what it reads is written the same way.
-/

set_option autoImplicit false

namespace SolstoneWindows.ObserverLog

/-! ## Days and dates -/

/-- The year within an era of the day `doe`, counting from March. -/
def yearOfEra (doe : Int) : Int := (doe - doe / 1460 + doe / 36524 - doe / 146096) / 365

/-- The year of the day `s` of the `k`-th four years of the century `c`. Day 1460 is a leap day. -/
theorem yearOfEra_parts {c k s : Int} (hc : 0 ≤ c ∧ c ≤ 3) (hk : 0 ≤ k ∧ k ≤ 24)
    (hs : 0 ≤ s ∧ s ≤ 1460) (hlast : k = 24 → s ≤ 1459) :
    yearOfEra (36524 * c + 1461 * k + s) =
      100 * c + 4 * k + (if s = 1460 then 3 else s / 365) := by
  have hcentury : (36524 * c + 1461 * k + s) / 36524 = c := by omega
  have hera : (36524 * c + 1461 * k + s) / 146096 = 0 := by omega
  have hfour : (36524 * c + 1461 * k + s) / 1460 = 25 * c + k + (24 * c + k + s) / 1460 := by
    omega
  unfold yearOfEra
  rw [hcentury, hera, hfour]
  split <;> omega

/-- The days from March 1st of year 0 to March 1st of a year. -/
def daysBefore (y : Int) : Int := 365 * y + y / 4 - y / 100 + y / 400

variable {doe m y d now t : Int} {w n n' : Nat} {digits digits' : List Char}

/-- A day of an era is in the year that `yearOfEra` gives. -/
theorem yearOfEra_bounds (h0 : 0 ≤ doe) (h1 : doe < 146097) :
    0 ≤ yearOfEra doe ∧ yearOfEra doe < 400 ∧ daysBefore (yearOfEra doe) ≤ doe ∧
      doe < daysBefore (yearOfEra doe + 1) := by
  by_cases hleap : doe = 146096
  · subst hleap
    decide
  obtain ⟨c, k, s, hdoe, hc, hk, hs, hlast⟩ : ∃ c k s : Int, doe = 36524 * c + 1461 * k + s ∧
      (0 ≤ c ∧ c ≤ 3) ∧ (0 ≤ k ∧ k ≤ 24) ∧ (0 ≤ s ∧ s ≤ 1460) ∧ (k = 24 → s ≤ 1459) := by
    refine ⟨doe / 36524, doe % 36524 / 1461, doe % 36524 % 1461, ?_, ?_, ?_, ?_, ?_⟩ <;> omega
  have hyear := yearOfEra_parts hc hk hs hlast
  rw [← hdoe] at hyear
  obtain ⟨j, hj, hyear, hday, hnext⟩ : ∃ j : Int, (0 ≤ j ∧ j ≤ 3) ∧
      yearOfEra doe = 100 * c + 4 * k + j ∧ 365 * j ≤ s ∧ (s < 365 * j + 365 ∨ j = 3) := by
    refine ⟨if s = 1460 then 3 else s / 365, ?_, hyear, ?_⟩ <;> split <;> omega
  rw [hyear]
  unfold daysBefore
  have hquarter : (100 * c + 4 * k + j) / 4 = 25 * c + k := by omega
  have hhundredth : (100 * c + 4 * k + j) / 100 = c := by omega
  have hquarter' : (100 * c + 4 * k + j + 1) / 4 = 25 * c + k + (j + 1) / 4 := by omega
  have hhundredth' : (100 * c + 4 * k + j + 1) / 100 = c + (4 * k + j + 1) / 100 := by omega
  rw [hquarter, hhundredth, hquarter', hhundredth']
  have hnext' : 0 ≤ (100 * c + 4 * k + j + 1) / 400 := by omega
  by_cases hlastYear : j = 3 ∧ k = 24
  · omega
  · have hcentury : (4 * k + j + 1) / 100 = 0 := by omega
    omega

/-- The year of a month, when years begin in March. -/
def marchYear (y m : Int) : Int := y - if m ≤ 2 then 1 else 0

/-- The number of a month, when years begin in March. -/
def marchMonth (m : Int) : Int := m + if m > 2 then -3 else 9

/-- The days of a month in the Gregorian calendar. -/
def daysInMonth (y m : Int) : Int :=
  if m = 2 then if y % 4 = 0 ∧ (y % 100 ≠ 0 ∨ y % 400 = 0) then 29 else 28
  else if m = 4 ∨ m = 6 ∨ m = 9 ∨ m = 11 then 30 else 31

/-- A date of the Gregorian calendar. -/
structure IsDate (y m d : Int) : Prop where
  month : 1 ≤ m ∧ m ≤ 12
  day : 1 ≤ d ∧ d ≤ daysInMonth y m

/-- The end of a month, in days of a year that begins in March. February is its last month. -/
theorem month_end (y : Int) (hm : 1 ≤ m ∧ m ≤ 12) :
    (153 * marchMonth m + 2) / 5 + daysInMonth y m =
      if m = 2 then daysBefore (marchYear y m + 1) - daysBefore (marchYear y m)
      else (153 * (marchMonth m + 1) + 2) / 5 := by
  unfold marchMonth daysInMonth daysBefore marchYear
  by_cases hfeb : m = 2
  · subst hfeb
    simp
    omega
  · rw [if_neg hfeb, if_neg hfeb]
    obtain ⟨hlow, hhigh⟩ := hm
    interval_cases m <;> first | exact absurd rfl hfeb | rfl

/-- The day number of a date. -/
theorem daysFromCivil_eq (y d : Int) (hm : 1 ≤ m) : daysFromCivil y m d =
      daysBefore (marchYear y m) + (153 * marchMonth m + 2) / 5 + d - 719469 := by
  have hmonth : 0 ≤ marchMonth m := by
    unfold marchMonth
    omega
  simp only [daysFromCivil]
  rw [← marchYear, ← marchMonth]
  generalize marchYear y m = year
  have hera : (if 0 ≤ year then year else year - 399).tdiv 400 = year / 400 := by
    rw [Int.tdiv_eq_ediv, show Int.sign 400 = 1 from rfl]
    omega
  have hyoe : 0 ≤ year - year / 400 * 400 := by omega
  simp only [hera, Int.tdiv_eq_ediv_of_nonneg hyoe]
  rw [Int.tdiv_eq_ediv_of_nonneg (by omega)]
  unfold daysBefore
  omega

theorem daysBefore_era (y era : Int) :
    daysBefore (y + era * 400) = daysBefore y + era * 146097 := by
  unfold daysBefore
  omega

/-- The date of a day, from its era, year and month in their own counts. Only the era may be
negative; the other divisions are of numbers where rounding towards zero is rounding down. -/
theorem civilFromDays_eq {days era yoe doy mp : Int}
    (hdays : days + 719468 = era * 146097 + doe) (hdoe : 0 ≤ doe) (hdoe' : doe < 146097)
    (hyoe : yoe = yearOfEra doe) (hdoy : doy = doe - daysBefore yoe)
    (hmp : mp = (5 * doy + 2) / 153) :
    civilFromDays days = (yoe + era * 400 + (if mp + (if mp < 10 then 3 else -9) ≤ 2 then 1 else 0),
        mp + (if mp < 10 then 3 else -9), doy - (153 * mp + 2) / 5 + 1) := by
  obtain ⟨hyoe0, hyoe', hdoy0, _⟩ := yearOfEra_bounds hdoe hdoe'
  rw [← hyoe] at hyoe0 hyoe' hdoy0
  have hquotient : (if 0 ≤ era * 146097 + doe then era * 146097 + doe
      else era * 146097 + doe - 146096).tdiv 146097 = era := by
    rw [Int.tdiv_eq_ediv, show Int.sign 146097 = 1 from rfl]
    omega
  have hrest : era * 146097 + doe - era * 146097 = doe := by omega
  have hyears : (doe - doe.tdiv 1460 + doe.tdiv 36524 - doe.tdiv 146096).tdiv 365 = yoe := by
    rw [Int.tdiv_eq_ediv_of_nonneg hdoe, Int.tdiv_eq_ediv_of_nonneg hdoe,
      Int.tdiv_eq_ediv_of_nonneg hdoe, Int.tdiv_eq_ediv_of_nonneg (by omega), hyoe]
    rfl
  have hday : doe - (365 * yoe + yoe.tdiv 4 - yoe.tdiv 100) = doy := by
    rw [Int.tdiv_eq_ediv_of_nonneg hyoe0, Int.tdiv_eq_ediv_of_nonneg hyoe0, hdoy]
    unfold daysBefore
    omega
  have hmonth : (5 * doy + 2).tdiv 153 = mp := by
    rw [Int.tdiv_eq_ediv_of_nonneg (by omega), hmp]
  have hfirst : (153 * mp + 2).tdiv 5 = (153 * mp + 2) / 5 :=
    Int.tdiv_eq_ediv_of_nonneg (by omega)
  unfold civilFromDays
  simp only [hdays, hquotient, hrest, hyears, hday, hmonth, hfirst]

/-- `civilFromDays` gives a date of the calendar, and the day number of it is the one it was made
from. -/
theorem civilFromDays_spec (days : Int) :
    ∃ y m d : Int, civilFromDays days = (y, m, d) ∧ IsDate y m d ∧ daysFromCivil y m d = days := by
  obtain ⟨era, doe, hdays, hdoe, hdoe'⟩ : ∃ era doe : Int,
      days + 719468 = era * 146097 + doe ∧ 0 ≤ doe ∧ doe < 146097 :=
    ⟨(days + 719468) / 146097, (days + 719468) % 146097, by omega, by omega, by omega⟩
  obtain ⟨_, _, hfirst, hlast⟩ := yearOfEra_bounds hdoe hdoe'
  have hcivil := civilFromDays_eq hdays hdoe hdoe' rfl rfl rfl
  have hyear := daysBefore_era (yearOfEra doe) era
  have hyear' := daysBefore_era (yearOfEra doe + 1) era
  generalize yearOfEra doe = yoe at *
  have hlength : daysBefore (yoe + 1) ≤ daysBefore yoe + 366 := by
    unfold daysBefore
    omega
  generalize hdoy : doe - daysBefore yoe = doy at *
  generalize hmp : (5 * doy + 2) / 153 = mp at *
  generalize hm : mp + (if mp < 10 then 3 else -9) = m at *
  generalize hy : yoe + era * 400 + (if m ≤ 2 then 1 else 0) = y at *
  have hmonth : 1 ≤ m ∧ m ≤ 12 := by omega
  have hmarch : marchMonth m = mp := by
    unfold marchMonth
    omega
  have hmarchYear : marchYear y m = yoe + era * 400 := by
    unfold marchYear
    omega
  have hend := month_end y hmonth
  rw [hmarch, hmarchYear, show yoe + era * 400 + 1 = yoe + 1 + era * 400 by omega] at hend
  refine ⟨y, m, _, hcivil, ⟨hmonth, by omega, ?_⟩, ?_⟩
  · split at hend <;> omega
  · rw [daysFromCivil_eq y _ hmonth.1, hmarch, hmarchYear]
    omega

/-- Years and months in their two counts. -/
theorem march_months (y : Int) (hm : 1 ≤ m ∧ m ≤ 12) :
    12 * marchYear y m + marchMonth m = 12 * y + m - 3 ∧ 0 ≤ marchMonth m ∧
      (marchMonth m < 11 ∧ m ≠ 2 ∨ marchMonth m = 11 ∧ m = 2) := by
  unfold marchYear marchMonth
  omega

/-- Day numbers follow the calendar. -/
theorem daysFromCivil_lt {y' m' d' : Int} (h : IsDate y m d) (h' : IsDate y' m' d')
    (hlt : y < y' ∨ y = y' ∧ (m < m' ∨ m = m' ∧ d < d')) :
    daysFromCivil y m d < daysFromCivil y' m' d' := by
  obtain ⟨hmonth, _, hday⟩ := h
  obtain ⟨hmonth', hday', _⟩ := h'
  have hend := month_end y hmonth
  obtain ⟨hcount, _, hmarch⟩ := march_months y hmonth
  obtain ⟨hcount', _, hmarch'⟩ := march_months y' hmonth'
  rw [daysFromCivil_eq y d hmonth.1, daysFromCivil_eq y' d' hmonth'.1]
  generalize marchYear y m = year at *
  generalize marchYear y' m' = year' at *
  generalize marchMonth m = mp at *
  generalize marchMonth m' = mp' at *
  rcases (by omega : year < year' ∨ year = year' ∧ (mp < mp' ∨ m = m' ∧ mp = mp' ∧ d < d')) with
    hyear | ⟨rfl, hmp | ⟨rfl, rfl, hd⟩⟩
  · -- the month ends before the year does
    have hyears : daysBefore year + 365 ≤ daysBefore (year + 1) ∧
        daysBefore (year + 1) ≤ daysBefore year' := by
      unfold daysBefore
      omega
    split at hend <;> omega
  · rw [if_neg (by omega)] at hend
    omega
  · omega

/-- A date is known by its day number. -/
theorem civilFromDays_daysFromCivil (h : IsDate y m d) :
    civilFromDays (daysFromCivil y m d) = (y, m, d) := by
  obtain ⟨y', m', d', hcivil, hdate, hdays⟩ := civilFromDays_spec (daysFromCivil y m d)
  have hlt := mt (daysFromCivil_lt h hdate) (by omega)
  have hgt := mt (daysFromCivil_lt hdate h) (by omega)
  rw [hcivil, (by omega : y' = y), (by omega : m' = m), (by omega : d' = d)]

/-! ## Padded numbers -/

theorem padded_nat (width n : Nat) : padded width n =
      List.replicate (width - (Nat.toDigits 10 n).length) '0' ++ Nat.toDigits 10 n := by
  have hnonneg : ¬ (n : Int) < 0 := by omega
  simp only [padded, Int.natAbs_natCast, if_neg hnonneg]

theorem length_padded (h : n < 10 ^ (w + 1)) : (padded (w + 1) n).length = w + 1 := by
  have hdigits := Nat.toDigits_length 10 n (w + 1) (Nat.succ_pos w) h
  rw [padded_nat, List.length_append, List.length_replicate]
  omega

theorem parseDigits_padded (width n : Nat) : parseDigits (padded width n) = some n := by
  have hdigits : (padded width n).all Char.isDigit = true := by
    rw [padded_nat, List.all_append, Bool.and_eq_true]
    constructor
    · simp
    · rw [List.all_eq_true]
      intro c hc
      exact Nat.isDigit_of_mem_toDigits (by decide) (by decide) hc
  unfold parseDigits
  rw [if_pos hdigits, padded_nat, Nat.ofDigitChars_append, Nat.ofDigitChars_replicate_zero,
    Nat.mul_zero, Nat.ofDigitChars_ten_toDigits]

/-- A digit that is read keeps two numbers in order, whatever the digits are. -/
theorem ofDigitChars_lt (hlength : digits.length = digits'.length)
    (hdigits : digits.all Char.isDigit) (h : n < n') :
    Nat.ofDigitChars 10 digits n < Nat.ofDigitChars 10 digits' n' := by
  induction digits generalizing digits' n n' with
  | nil =>
    rw [List.eq_nil_of_length_eq_zero hlength.symm]
    exact h
  | cons c digits ih =>
    obtain ⟨c', digits', rfl⟩ := List.exists_cons_of_length_eq_add_one hlength.symm
    rw [List.all_cons, Bool.and_eq_true, Char.isDigit_iff_toNat] at hdigits
    rw [Nat.ofDigitChars_cons, Nat.ofDigitChars_cons]
    refine ih (Nat.succ.inj hlength) hdigits.2 ?_
    have hnine : '9'.toNat = 57 := rfl
    have hzero : '0'.toNat = 48 := rfl
    omega

/-- One text is before another, as their bytes are compared. -/
abbrev Precedes : List Char → List Char → Prop := List.Lex fun c c' => c.toNat < c'.toNat

/-- Digits of one length are ordered as their numbers, as texts that go on in any way. -/
theorem ofDigitChars_order (hlength : digits.length = digits'.length)
    (hdigits : digits.all Char.isDigit) (hdigits' : digits'.all Char.isDigit) (n : Nat) :
    (Nat.ofDigitChars 10 digits n < Nat.ofDigitChars 10 digits' n →
        ∀ rest rest', Precedes (digits ++ rest) (digits' ++ rest')) ∧
      (Nat.ofDigitChars 10 digits n = Nat.ofDigitChars 10 digits' n → digits = digits') := by
  induction digits generalizing digits' n with
  | nil =>
    rw [List.eq_nil_of_length_eq_zero hlength.symm]
    exact ⟨fun h => absurd h (Nat.lt_irrefl _), fun _ => rfl⟩
  | cons c digits ih =>
    obtain ⟨c', digits', rfl⟩ := List.exists_cons_of_length_eq_add_one hlength.symm
    have hrest := Nat.succ.inj hlength
    rw [List.all_cons, Bool.and_eq_true, Char.isDigit_iff_toNat] at hdigits hdigits'
    simp only [Nat.ofDigitChars_cons, List.cons_append]
    rcases Nat.lt_trichotomy c.toNat c'.toNat with hlt | heq | hgt
    · have hless := ofDigitChars_lt hrest hdigits.2
        (by omega : 10 * n + (c.toNat - '0'.toNat) < 10 * n + (c'.toNat - '0'.toNat))
      exact ⟨fun _ _ _ => .rel hlt, fun h => absurd h (Nat.ne_of_lt hless)⟩
    · obtain rfl := Char.toNat_inj.mp heq
      obtain ⟨horder, hinj⟩ := ih hrest hdigits.2 hdigits'.2 (10 * n + (c.toNat - '0'.toNat))
      exact ⟨fun h rest rest' => .cons (horder h rest rest'), fun h => by rw [hinj h]⟩
    · have hmore := ofDigitChars_lt hrest.symm hdigits'.2
        (by omega : 10 * n + (c'.toNat - '0'.toNat) < 10 * n + (c.toNat - '0'.toNat))
      exact ⟨fun h => absurd h (Nat.lt_asymm hmore), fun h => absurd h (Nat.ne_of_gt hmore)⟩

theorem parseDigits_eq_some : parseDigits digits = some n ↔
      digits.all Char.isDigit = true ∧ Nat.ofDigitChars 10 digits 0 = n := by
  unfold parseDigits
  split <;> simp_all

/-- Padded numbers are ordered as the numbers. -/
theorem padded_lt (hn' : n' < 10 ^ (w + 1)) (h : n < n') (rest rest' : List Char) :
    Precedes (padded (w + 1) n ++ rest) (padded (w + 1) n' ++ rest') := by
  have hlength := (length_padded (h.trans hn')).trans (length_padded hn').symm
  obtain ⟨hdigits, hvalue⟩ := parseDigits_eq_some.mp (parseDigits_padded (w + 1) n)
  obtain ⟨hdigits', hvalue'⟩ := parseDigits_eq_some.mp (parseDigits_padded (w + 1) n')
  refine (ofDigitChars_order hlength hdigits hdigits' 0).1 ?_ rest rest'
  rw [hvalue, hvalue']
  exact h

theorem padded_le (hn' : n' < 10 ^ (w + 1)) (h : n ≤ n') (c : Char)
    {rest rest' : List Char} (hrest : n = n' → Precedes rest rest') :
    Precedes (padded (w + 1) n ++ c :: rest) (padded (w + 1) n' ++ c :: rest') := by
  rcases Nat.lt_or_eq_of_le h with hlt | rfl
  · exact padded_lt hn' hlt _ _
  · exact List.Lex.append_left _ (.cons (hrest rfl)) _

/-- Digits that are read are the padded number. -/
theorem padded_of_parseDigits (h : parseDigits digits = some n)
    (hlength : digits.length = w + 1) : padded (w + 1) n = digits ∧ n < 10 ^ (w + 1) := by
  obtain ⟨hall, rfl⟩ := parseDigits_eq_some.mp h
  have hbound := ofDigitChars_lt (List.length_replicate (a := '0')).symm hall Nat.zero_lt_one
  rw [Nat.ofDigitChars_replicate_zero, Nat.mul_one, hlength] at hbound
  obtain ⟨hall', hvalue⟩ := parseDigits_eq_some.mp (parseDigits_padded (w + 1) _)
  have hlength' := (length_padded hbound).trans hlength.symm
  exact ⟨(ofDigitChars_order hlength' hall' hall 0).2 hvalue, hbound⟩

/-- The positions of the parts in a timestamp. -/
theorem parseRfc3339Utc_parts {year month day hour minute second millis : List Char}
    (hyear : year.length = 4) (hmonth : month.length = 2) (hday : day.length = 2)
    (hhour : hour.length = 2) (hminute : minute.length = 2) (hsecond : second.length = 2)
    (hmillis : millis.length = 3) :
    parseRfc3339Utc (year ++ '-' :: month ++ '-' :: day ++ 'T' :: hour ++ ':' :: minute ++
        ':' :: second ++ '.' :: millis ++ ['Z']) = (do
      timeOfParts (← parseDigits year) (← parseDigits month) (← parseDigits day)
        (← parseDigits hour) (← parseDigits minute) (← parseDigits second)
        (← parseDigits millis)) := by
  obtain ⟨_, _, _, _, rfl⟩ := List.length_eq_four.mp hyear
  obtain ⟨_, _, rfl⟩ := List.length_eq_two.mp hmonth
  obtain ⟨_, _, rfl⟩ := List.length_eq_two.mp hday
  obtain ⟨_, _, rfl⟩ := List.length_eq_two.mp hhour
  obtain ⟨_, _, rfl⟩ := List.length_eq_two.mp hminute
  obtain ⟨_, _, rfl⟩ := List.length_eq_two.mp hsecond
  obtain ⟨_, _, _, rfl⟩ := List.length_eq_three.mp hmillis
  rfl

/-! ## Timestamps -/

/-- The parts of a timestamp. -/
structure Stamp where
  year : Nat
  month : Nat
  day : Nat
  hour : Nat
  minute : Nat
  second : Nat
  millis : Nat

/-- `YYYY-MM-DDTHH:MM:SS.mmmZ`. -/
def Stamp.text (p : Stamp) : List Char :=
  padded 4 p.year ++ '-' :: padded 2 p.month ++ '-' :: padded 2 p.day ++ 'T' :: padded 2 p.hour
    ++ ':' :: padded 2 p.minute ++ ':' :: padded 2 p.second ++ '.' :: padded 3 p.millis ++ ['Z']

/-- The seconds from 1970 to a timestamp. -/
def Stamp.seconds (p : Stamp) : Int :=
  daysFromCivil p.year p.month p.day * 86400 + p.hour * 3600 + p.minute * 60 + p.second

/-- A date and a second of the years 0000 to 9999. -/
structure Stamp.Real (p : Stamp) : Prop where
  year : p.year ≤ 9999
  date : IsDate p.year p.month p.day
  hour : p.hour < 24
  minute : p.minute < 60
  second : p.second < 60

theorem Stamp.Real.small {p : Stamp} (h : p.Real) :
    p.year < 10 ^ 4 ∧ p.month < 10 ^ 2 ∧ p.day < 10 ^ 2 ∧ p.hour < 10 ^ 2 ∧ p.minute < 10 ^ 2 ∧
      p.second < 10 ^ 2 := by
  obtain ⟨hyear, ⟨hmonth, hday⟩, _, _, _⟩ := h
  unfold daysInMonth at hday
  omega

/-- The timestamps of later seconds are greater, and in one second those of later milliseconds. -/
theorem Stamp.text_lt {p q : Stamp} (hp : p.Real) (hq : q.Real) (hle : p.seconds ≤ q.seconds)
    (hmillis : p.seconds = q.seconds → p.millis < q.millis ∧ q.millis < 1000) :
    Precedes p.text q.text := by
  obtain ⟨hyear, hmonth, hday, hhour, hminute, hsecond⟩ := hq.small
  obtain ⟨_, hdate, _, _, _⟩ := hp
  obtain ⟨_, hdate', _, _, _⟩ := hq
  unfold Stamp.seconds at hle hmillis
  have horder := mt (daysFromCivil_lt hdate' hdate) (by omega)
  simp only [Stamp.text, List.append_assoc, List.cons_append]
  refine padded_le hyear (by omega) '-' fun hy => ?_
  refine padded_le hmonth (by omega) '-' fun hm => ?_
  refine padded_le hday (by omega) 'T' fun hd => ?_
  rw [hy, hm, hd] at hle hmillis
  refine padded_le hhour (by omega) ':' fun hh => ?_
  refine padded_le hminute (by omega) ':' fun hn => ?_
  refine padded_le hsecond (by omega) '.' fun hs => ?_
  obtain ⟨hless, hsmall⟩ := hmillis (by omega)
  exact padded_lt hsmall hless _ _

/-- What is written for a time, by the parts of its seconds. -/
theorem formatRfc3339Utc_eq {p : Stamp} (hp : p.Real)
    (hseconds : p.seconds = (epochParts now).1) (hmillis : p.millis = (epochParts now).2) :
    formatRfc3339Utc now = p.text := by
  obtain ⟨_, hdate, hhour, hminute, hsecond⟩ := hp
  have hparts : epochParts now = (p.seconds, p.millis) := by rw [hseconds, hmillis]
  have hdays : divFloor p.seconds 86400 = daysFromCivil p.year p.month p.day := by
    unfold divFloor
    rw [Int.tmod_def, Int.tdiv_eq_ediv, show Int.sign 86400 = 1 from rfl]
    unfold Stamp.seconds
    simp only [gt_iff_lt, ne_eq, decide_eq_decide]
    omega
  obtain ⟨clock, hclock⟩ : ∃ clock, clock = p.hour * 3600 + p.minute * 60 + p.second := ⟨_, rfl⟩
  have hrest : p.seconds - daysFromCivil p.year p.month p.day * 86400 = (clock : Int) := by
    unfold Stamp.seconds
    omega
  have hhours : (clock : Int).tdiv 3600 = p.hour := by
    rw [Int.tdiv_eq_ediv_of_nonneg (by omega)]
    omega
  have hminutes : ((clock : Int).tmod 3600).tdiv 60 = p.minute := by
    rw [Int.tmod_eq_emod_of_nonneg (by omega), Int.tdiv_eq_ediv_of_nonneg (by omega)]
    omega
  have hseconds' : (clock : Int).tmod 60 = p.second := by
    rw [Int.tmod_eq_emod_of_nonneg (by omega)]
    omega
  unfold formatRfc3339Utc
  simp only [hparts, hdays, hrest, hhours, hminutes, hseconds', civilFromDays_daysFromCivil hdate]
  rfl

/-- The parts of a time. Before 1970 a part of a millisecond counts as a whole one. -/
theorem epochParts_eq (now : Int) :
    (epochParts now).1 = now / 1000000000 ∧ ((epochParts now).2 : Int) =
      now % 1000000000 / 1000000 + if 0 ≤ now ∨ now % 1000000 = 0 then 0 else 1 := by
  by_cases hnow : 0 ≤ now
  · simp only [epochParts, if_pos hnow, true_and]
    omega
  · simp only [epochParts, if_neg hnow]
    by_cases hnanos : (-now).toNat % 1000000000 = 0
    · rw [if_pos hnanos]
      omega
    · rw [if_neg hnanos]
      dsimp only
      omega

/-- The start of the year 0000, in nanoseconds. -/
def START_OF_0000 : Int := -719528 * 86400 * 1000000000

/-- The end of the year 9999, in nanoseconds. -/
def END_OF_9999 : Int := 2932897 * 86400 * 1000000000

/-- Every time of the years 0000 to 9999 has its parts. -/
theorem exists_stamp (hstart : START_OF_0000 ≤ now) (hend : now < END_OF_9999) :
    ∃ p : Stamp, p.Real ∧ p.seconds = (epochParts now).1 ∧ p.millis = (epochParts now).2 := by
  unfold START_OF_0000 at hstart
  unfold END_OF_9999 at hend
  obtain ⟨y, m, d, -, hdate, hdays⟩ := civilFromDays_spec (now / 1000000000 / 86400)
  have hlow := mt (daysFromCivil_lt hdate (⟨by decide, by decide⟩ : IsDate 0 1 1))
    (by rw [hdays, show daysFromCivil 0 1 1 = -719528 from rfl]; omega)
  have hhigh := mt (daysFromCivil_lt (⟨by decide, by decide⟩ : IsDate 9999 12 31) hdate)
    (by rw [hdays, show daysFromCivil 9999 12 31 = 2932896 from rfl]; omega)
  obtain ⟨y, rfl⟩ := Int.eq_ofNat_of_zero_le (by omega : 0 ≤ y)
  have hmonth := hdate.month
  obtain ⟨m, rfl⟩ := Int.eq_ofNat_of_zero_le (by omega : 0 ≤ m)
  have hday := hdate.day
  obtain ⟨d, rfl⟩ := Int.eq_ofNat_of_zero_le (by omega : 0 ≤ d)
  obtain ⟨clock, hclock⟩ := Int.eq_ofNat_of_zero_le (by omega : 0 ≤ now / 1000000000 % 86400)
  refine ⟨⟨y, m, d, clock / 3600, clock % 3600 / 60, clock % 60, (epochParts now).2⟩,
    ⟨?_, hdate, ?_, ?_, ?_⟩, ?_, rfl⟩ <;> dsimp only [Stamp.seconds]
  · omega
  · omega
  · omega
  · omega
  · rw [(epochParts_eq now).1, hdays]
    omega

/-- The timestamp of a real date and time is read as it. -/
theorem parseRfc3339Utc_text {p : Stamp} (hp : p.Real) (hmillis : p.millis < 1000) :
    parseRfc3339Utc p.text = some ((p.seconds * 1000 + p.millis) * 1000000) := by
  obtain ⟨hyear, hmonth, hday, hhour, hminute, hsecond⟩ := hp.small
  obtain ⟨_, hdate, _, _, _⟩ := hp
  unfold Stamp.text
  rw [parseRfc3339Utc_parts (length_padded hyear) (length_padded hmonth) (length_padded hday)
    (length_padded hhour) (length_padded hminute) (length_padded hsecond) (length_padded hmillis)]
  simp only [parseDigits_padded, Option.bind_eq_bind, Option.bind_some]
  have hdays := hdate.day
  have hmonths := hdate.month
  unfold daysInMonth at hdays
  have hvalid : ¬ (p.month < 1 ∨ 12 < p.month ∨ p.day < 1 ∨ 31 < p.day ∨ 23 < p.hour ∨
      59 < p.minute ∨ 59 < p.second ∨ 999 < p.millis) := by omega
  unfold timeOfParts
  rw [if_neg hvalid]
  simp only [civilFromDays_daysFromCivil hdate, ne_eq, not_true_eq_false, if_false]
  rfl

/-- The time of valid parts. -/
theorem timeOfParts_eq_some {p : Stamp} (hyear : p.year ≤ 9999)
    (h : timeOfParts p.year p.month p.day p.hour p.minute p.second p.millis = some t) :
    p.Real ∧ p.millis < 1000 ∧ t = (p.seconds * 1000 + p.millis) * 1000000 := by
  unfold timeOfParts at h
  split at h
  · cases h
  rename_i hvalid
  dsimp only at h
  split at h
  · cases h
  rename_i hcivil
  cases h
  obtain ⟨y, m, d, hcivil', hdate, -⟩ := civilFromDays_spec (daysFromCivil p.year p.month p.day)
  obtain ⟨rfl, rfl, rfl⟩ : y = p.year ∧ m = p.month ∧ d = p.day := by
    rw [not_not.mp hcivil] at hcivil'
    simpa [eq_comm] using hcivil'
  exact ⟨⟨hyear, hdate, by omega, by omega, by omega⟩, by omega, rfl⟩

/-- A number in a text, and the character after it. -/
theorem drop_eq_padded {text : List Char} {c : Char} (start w : Nat)
    (h : text[start + (w + 1)]? = some c)
    (hdigits : parseDigits ((text.drop start).take (w + 1)) = some n) :
    text.drop start = padded (w + 1) n ++ c :: text.drop (start + (w + 1) + 1) ∧
      n < 10 ^ (w + 1) := by
  obtain ⟨hlength, hc⟩ := List.getElem?_eq_some_iff.mp h
  have htail := List.drop_eq_getElem_cons hlength
  obtain ⟨hpadded, hbound⟩ := padded_of_parseDigits (w := w) hdigits (by simp; omega)
  rw [hpadded, ← hc, ← htail, ← List.drop_drop, List.take_append_drop]
  exact ⟨rfl, hbound⟩

/-- A text that is read is the timestamp of a real date and time. -/
theorem exists_stamp_of_parse {text : List Char} (h : parseRfc3339Utc text = some t) :
    ∃ p : Stamp, p.Real ∧ p.millis < 1000 ∧ p.text = text ∧
      t = (p.seconds * 1000 + p.millis) * 1000000 := by
  unfold parseRfc3339Utc at h
  split at h
  · cases h
  rename_i hlength
  split at h
  · cases h
  rename_i hseparators
  simp only [not_or, not_not] at hlength hseparators
  obtain ⟨h4, h7, h10, h13, h16, h19, h23⟩ := hseparators
  simp only [Option.bind_eq_bind, Option.bind_eq_some_iff] at h
  obtain ⟨year, hyear, month, hmonth, day, hday, hour, hhour, minute, hminute, second, hsecond,
    millis, hmillis, htime⟩ := h
  obtain ⟨e0, hyear⟩ := drop_eq_padded 0 3 h4 hyear
  obtain ⟨e5, -⟩ := drop_eq_padded 5 1 h7 hmonth
  obtain ⟨e8, -⟩ := drop_eq_padded 8 1 h10 hday
  obtain ⟨e11, -⟩ := drop_eq_padded 11 1 h13 hhour
  obtain ⟨e14, -⟩ := drop_eq_padded 14 1 h16 hminute
  obtain ⟨e17, -⟩ := drop_eq_padded 17 1 h19 hsecond
  obtain ⟨e20, -⟩ := drop_eq_padded 20 2 h23 hmillis
  have hend : text.drop 24 = [] := List.drop_eq_nil_of_le (by omega)
  obtain ⟨hreal, hsmall, ht⟩ := timeOfParts_eq_some
    (p := ⟨year, month, day, hour, minute, second, millis⟩) (Nat.le_of_lt_succ hyear) htime
  refine ⟨_, hreal, hsmall, ?_, ht⟩
  show _ = text.drop 0
  rw [e0, e5, e8, e11, e14, e17, e20, hend]
  simp only [Stamp.text, List.append_assoc, List.cons_append]

/-! ## The round trip -/

section RoundTrip

variable (hend : t < END_OF_9999)

include hend

/-- A timestamp is read as its time, cut to milliseconds, exactly when it is not before 1970 or has
whole milliseconds. -/
theorem parseRfc3339Utc_format (hstart : START_OF_0000 ≤ t) :
    parseRfc3339Utc (formatRfc3339Utc t) = some (t - t % 1000000) ↔
      0 ≤ t ∨ t % 1000000 = 0 := by
  obtain ⟨p, hp, hseconds, hmillis⟩ := exists_stamp hstart hend
  obtain ⟨hsecs, hms⟩ := epochParts_eq t
  rw [formatRfc3339Utc_eq hp hseconds hmillis]
  rw [← hseconds] at hsecs
  rw [← hmillis] at hms
  by_cases hsmall : p.millis < 1000
  · rw [parseRfc3339Utc_text hp hsmall, Option.some.injEq, hsecs, hms]
    split <;> omega
  · -- the milliseconds have four digits
    have hlong : p.text.length ≠ 24 := by
      obtain ⟨hyear, hmonth, hday, hhour, hminute, hsecond⟩ := hp.small
      rw [Stamp.text, show p.millis = 1000 by omega]
      simp [length_padded hyear, length_padded hmonth, length_padded hday, length_padded hhour,
        length_padded hminute, length_padded hsecond, show (padded 3 1000).length = 4 from rfl]
    unfold parseRfc3339Utc
    rw [if_pos hlong]
    split at hms
    · omega
    · rename_i hcut
      exact ⟨(by intro h; cases h), fun h => absurd h hcut⟩

/-- The timestamp of such a time is that of an earlier time, or after it. -/
theorem formatRfc3339Utc_mono (hcut : 0 ≤ t ∨ t % 1000000 = 0) {s : Int}
    (hstart : START_OF_0000 ≤ s) (h : s ≤ t) : formatRfc3339Utc s = formatRfc3339Utc t ∨
      Precedes (formatRfc3339Utc s) (formatRfc3339Utc t) := by
  obtain ⟨p, hp, hpseconds, hpmillis⟩ := exists_stamp hstart (by omega)
  obtain ⟨q, hq, hqseconds, hqmillis⟩ := exists_stamp (hstart.trans h) hend
  obtain ⟨hpsecs, hpms⟩ := epochParts_eq s
  obtain ⟨hqsecs, hqms⟩ := epochParts_eq t
  rw [if_pos hcut] at hqms
  rw [formatRfc3339Utc_eq hp hpseconds hpmillis]
  by_cases hsame : p.seconds = q.seconds ∧ p.millis = q.millis
  · exact .inl (formatRfc3339Utc_eq hp (hsame.1.trans hqseconds) (hsame.2.trans hqmillis)).symm
  · rw [formatRfc3339Utc_eq hq hqseconds hqmillis]
    refine .inr (Stamp.text_lt hp hq ?_ fun heq => ?_) <;> split at hpms <;> omega

end RoundTrip

/-- What is asked of the timestamp of a time: it is read as the time cut to milliseconds, and that
of an earlier time is the same or before it. -/
def Exact (t : Int) : Prop :=
  parseRfc3339Utc (formatRfc3339Utc t) = some (t - t % 1000000) ∧
    ∀ s, START_OF_0000 ≤ s → s ≤ t → formatRfc3339Utc s = formatRfc3339Utc t ∨
      Precedes (formatRfc3339Utc s) (formatRfc3339Utc t)

end SolstoneWindows.ObserverLog
