-- The proleptic Gregorian calendar: dates and times, the microsecond that each
-- one is, and the way back.
import Mathlib.Data.List.Lex
import Mathlib.Tactic.IntervalCases

namespace image_gen.calendar

/-! ## Days -/

def IsLeap (year : Nat) : Prop := year % 4 = 0 ∧ (year % 100 ≠ 0 ∨ year % 400 = 0)

instance (year : Nat) : Decidable (IsLeap year) := by unfold IsLeap; infer_instance

/-- The extra day. -/
def leapDay (year : Nat) : Nat := if IsLeap year then 1 else 0

def daysInMonth (year month : Nat) : Nat :=
  [31, 28, 31, 30, 31, 30, 31, 31, 30, 31, 30, 31].getD (month - 1) 0 +
    if month = 2 then leapDay year else 0

/-- The days of the year before the first of the month. Month 13 is the next
year's first. -/
def daysBeforeMonth (year month : Nat) : Nat :=
  [0, 31, 59, 90, 120, 151, 181, 212, 243, 273, 304, 334, 365].getD (month - 1) 0 +
    if 2 < month then leapDay year else 0

def daysBeforeYear (year : Nat) : Nat :=
  (year - 1) * 365 + (year - 1) / 4 - (year - 1) / 100 + (year - 1) / 400

theorem leapDay_cases (year : Nat) :
    leapDay year = 1 ∧ year % 4 = 0 ∧ (year % 100 ≠ 0 ∨ year % 400 = 0) ∨
      leapDay year = 0 ∧ (year % 4 ≠ 0 ∨ year % 100 = 0 ∧ year % 400 ≠ 0) := by
  unfold leapDay
  by_cases h : IsLeap year
  · rw [if_pos h]
    exact .inl ⟨rfl, h⟩
  · rw [if_neg h]
    unfold IsLeap at h
    omega

/-- The first day is day 1 of year 1. -/
def ordinal (year month day : Nat) : Nat :=
  daysBeforeYear year + daysBeforeMonth year month + day

theorem daysBeforeMonth_succ (year : Nat) {month : Nat} (h : 1 ≤ month) (h' : month ≤ 12) :
    daysBeforeMonth year month + daysInMonth year month = daysBeforeMonth year (month + 1) := by
  unfold daysBeforeMonth daysInMonth
  interval_cases month <;> simp <;> omega

theorem daysInMonth_le (year : Nat) {month : Nat} (h : 1 ≤ month) (h' : month ≤ 12) :
    daysInMonth year month ≤ 31 := by
  have hleap := leapDay_cases year
  unfold daysInMonth
  interval_cases month <;> simp
  omega

theorem daysBeforeMonth_mono (year : Nat) {month month' : Nat} (hmonth : 1 ≤ month)
    (h : month ≤ month') (h' : month' ≤ 13) :
    daysBeforeMonth year month ≤ daysBeforeMonth year month' := by
  induction month', h using Nat.le_induction with
  | base => exact le_rfl
  | succ m hm ih =>
    have hstep := daysBeforeMonth_succ year (by omega : 1 ≤ m) (by omega)
    have hbelow := ih (by omega)
    omega

theorem daysBeforeMonth_next (year : Nat) : daysBeforeMonth year 13 = 365 + leapDay year := by
  simp [daysBeforeMonth]

theorem daysBeforeYear_succ {year : Nat} (h : 1 ≤ year) :
    daysBeforeYear (year + 1) = daysBeforeYear year + daysBeforeMonth year 13 := by
  obtain ⟨y, rfl⟩ : ∃ y, year = y + 1 := ⟨year - 1, by omega⟩
  -- Each quotient grows by one at a multiple, and a multiple of 400 is one of 100 and of 4.
  have h4 : (y + 1) % 4 = 0 ∧ (y + 1) / 4 = y / 4 + 1 ∨
      (y + 1) % 4 ≠ 0 ∧ (y + 1) / 4 = y / 4 := by omega
  have h100 : (y + 1) % 100 = 0 ∧ (y + 1) % 4 = 0 ∧ (y + 1) / 100 = y / 100 + 1 ∨
      (y + 1) % 100 ≠ 0 ∧ (y + 1) / 100 = y / 100 := by omega
  have h400 : (y + 1) % 400 = 0 ∧ (y + 1) % 100 = 0 ∧ (y + 1) / 400 = y / 400 + 1 ∨
      (y + 1) % 400 ≠ 0 ∧ (y + 1) / 400 = y / 400 := by omega
  have hless : y / 100 ≤ y / 4 := by omega
  have hleap := leapDay_cases (y + 1)
  rw [daysBeforeMonth_next]
  simp only [daysBeforeYear, Nat.add_sub_cancel]
  generalize (y + 1) / 4 = q4, (y + 1) / 100 = q100, (y + 1) / 400 = q400,
    y / 4 = p4, y / 100 = p100, y / 400 = p400, (y + 1) % 4 = r4, (y + 1) % 100 = r100,
    (y + 1) % 400 = r400 at *
  omega

theorem daysBeforeYear_mono {year year' : Nat} (hyear : 1 ≤ year) (h : year ≤ year') :
    daysBeforeYear year ≤ daysBeforeYear year' := by
  induction year', h using Nat.le_induction with
  | base => exact le_rfl
  | succ y hy ih =>
    rw [daysBeforeYear_succ (by omega)]
    omega

theorem ordinal_lt_of_month {year month month' day day' : Nat} (hmonth : 1 ≤ month)
    (h : month < month') (hmonth' : month' ≤ 13) (hday : day ≤ daysInMonth year month)
    (hday' : 1 ≤ day') : ordinal year month day < ordinal year month' day' := by
  have hnext := daysBeforeMonth_succ year hmonth (by omega)
  have hmono := daysBeforeMonth_mono year (by omega) (by omega : month + 1 ≤ month') hmonth'
  unfold ordinal
  omega

theorem ordinal_lt_of_year {year year' month month' day day' : Nat} (hyear : 1 ≤ year)
    (h : year < year') (hmonth : 1 ≤ month) (hmonth' : month ≤ 12)
    (hday : day ≤ daysInMonth year month) (hday' : 1 ≤ day') :
    ordinal year month day < ordinal year' month' day' := by
  have hthis : daysBeforeMonth year month + day ≤ daysBeforeMonth year 13 := by
    have hnext := daysBeforeMonth_succ year hmonth hmonth'
    have hmono := daysBeforeMonth_mono year (by omega) (by omega : month + 1 ≤ 13) le_rfl
    omega
  have hyears := daysBeforeYear_succ hyear
  have hmono := daysBeforeYear_mono (by omega) (by omega : year + 1 ≤ year')
  unfold ordinal
  omega

/-! ## The date of a day -/

/-- The month that day `n` of the year is in, both counted from the first. The
guess is at most one too high. -/
def monthOf (year n : Nat) : Nat :=
  let month := (n + 50) / 32
  if n < daysBeforeMonth year month then month - 1 else month

/-- `_ord2ymd`, of the day numbered from 0: the cycles of 400, 100, 4 and 1
years, and then the month. -/
def ymdOf (n : Nat) : Nat × Nat × Nat :=
  let n400 := n / 146097
  let r400 := n % 146097
  let n100 := r400 / 36524
  let r100 := r400 % 36524
  let n4 := r100 / 1461
  let r4 := r100 % 1461
  let n1 := r4 / 365
  let r1 := r4 % 365
  let year := n400 * 400 + 1 + n100 * 100 + n4 * 4 + n1
  if n1 = 4 ∨ n100 = 4 then (year - 1, 12, 31)
  else (year, monthOf year r1, r1 - daysBeforeMonth year (monthOf year r1) + 1)

theorem monthOf_spec (year : Nat) {n : Nat} (h : n < 365 + leapDay year) :
    1 ≤ monthOf year n ∧ monthOf year n ≤ 12 ∧ daysBeforeMonth year (monthOf year n) ≤ n ∧
      n < daysBeforeMonth year (monthOf year n + 1) := by
  have hleap := leapDay_cases year
  simp only [monthOf]
  obtain ⟨guess, hguess⟩ : ∃ guess, guess = (n + 50) / 32 := ⟨_, rfl⟩
  rw [← hguess]
  have hlow : 1 ≤ guess := by omega
  have hhigh : guess ≤ 12 := by omega
  have hn : 32 * guess ≤ n + 50 ∧ n + 50 < 32 * guess + 32 := by omega
  have hbefore : n < daysBeforeMonth year guess → 2 ≤ guess ∧
      daysBeforeMonth year (guess - 1) ≤ n := by
    clear hguess
    unfold daysBeforeMonth
    interval_cases guess <;> simp <;> omega
  have hafter : n < daysBeforeMonth year (guess + 1) := by
    clear hguess hbefore
    unfold daysBeforeMonth
    interval_cases guess <;> simp <;> omega
  split
  · rename_i h'
    have hprev := hbefore h'
    rw [Nat.sub_add_cancel hlow]
    exact ⟨by omega, by omega, hprev.2, h'⟩
  · exact ⟨hlow, hhigh, by omega, hafter⟩

/-- A year by its place in the cycles of 400, 100 and 4 years. -/
theorem daysBeforeYear_cycles (a : Nat) {b c d : Nat} (hb : b ≤ 3) (hc : c ≤ 24) (hd : d ≤ 3) :
    daysBeforeYear (a * 400 + 1 + b * 100 + c * 4 + d) =
      a * 146097 + b * 36524 + c * 1461 + d * 365 := by
  have hbefore : a * 400 + 1 + b * 100 + c * 4 + d - 1 = a * 400 + b * 100 + c * 4 + d := by omega
  have h4 : (a * 400 + b * 100 + c * 4 + d) / 4 = a * 100 + b * 25 + c := by omega
  have h100 : (a * 400 + b * 100 + c * 4 + d) / 100 = a * 4 + b := by omega
  have h400 : (a * 400 + b * 100 + c * 4 + d) / 400 = a := by omega
  rw [daysBeforeYear, hbefore, h4, h100, h400]
  omega

/-- Day 366 of a leap year: the fifth year of four, or the fifth century. -/
theorem daysBeforeYear_last (a : Nat) {b c : Nat} (hb : b ≤ 3) (hc : c ≤ 24)
    (h : c = 24 → b = 3) :
    daysBeforeYear (a * 400 + 1 + b * 100 + c * 4 + 3) + 365 =
        a * 146097 + b * 36524 + c * 1461 + 1460 ∧
      leapDay (a * 400 + 1 + b * 100 + c * 4 + 3) = 1 := by
  have hyear := daysBeforeYear_cycles a hb hc (le_refl 3)
  have hleap := leapDay_cases (a * 400 + 1 + b * 100 + c * 4 + 3)
  omega

theorem ordinal_last {year : Nat} (h : leapDay year = 1) :
    ordinal year 12 31 = daysBeforeYear year + 366 := by
  simp [ordinal, daysBeforeMonth, h]

theorem ordinal_ymdOf (n : Nat) :
    ordinal (ymdOf n).1 (ymdOf n).2.1 (ymdOf n).2.2 = n + 1 := by
  simp only [ymdOf]
  have ha := Nat.div_add_mod n 146097
  have hra := Nat.mod_lt n (by omega : 0 < 146097)
  generalize n / 146097 = a, n % 146097 = ra at *
  have hb := Nat.div_add_mod ra 36524
  have hrb := Nat.mod_lt ra (by omega : 0 < 36524)
  generalize ra / 36524 = b, ra % 36524 = rb at *
  have hc := Nat.div_add_mod rb 1461
  have hrc := Nat.mod_lt rb (by omega : 0 < 1461)
  generalize rb / 1461 = c, rb % 1461 = rc at *
  have hd := Nat.div_add_mod rc 365
  have hrd := Nat.mod_lt rc (by omega : 0 < 365)
  generalize rc / 365 = d, rc % 365 = rd at *
  by_cases hlast : d = 4 ∨ b = 4
  · rw [if_pos hlast]
    rcases hlast with rfl | rfl
    · have hlast := daysBeforeYear_last a (by omega : b ≤ 3) (by omega : c ≤ 24) (by omega)
      have hyear : a * 400 + 1 + b * 100 + c * 4 + 4 - 1 = a * 400 + 1 + b * 100 + c * 4 + 3 := by
        omega
      rw [hyear, ordinal_last hlast.2]
      omega
    · have hlast := daysBeforeYear_last a (le_refl 3) (le_refl 24) (fun _ => rfl)
      have hyear : a * 400 + 1 + 4 * 100 + c * 4 + d - 1 = a * 400 + 1 + 3 * 100 + 24 * 4 + 3 := by
        omega
      rw [hyear, ordinal_last hlast.2]
      omega
  · rw [if_neg hlast]
    have hyear := daysBeforeYear_cycles a (by omega : b ≤ 3) (by omega : c ≤ 24) (by omega : d ≤ 3)
    have hmonth := monthOf_spec (a * 400 + 1 + b * 100 + c * 4 + d)
      (by omega : rd < 365 + leapDay (a * 400 + 1 + b * 100 + c * 4 + d))
    simp only [ordinal]
    omega

/-- The answer is a date of the calendar. -/
theorem ymdOf_valid (n : Nat) :
    1 ≤ (ymdOf n).1 ∧ 1 ≤ (ymdOf n).2.1 ∧ (ymdOf n).2.1 ≤ 12 ∧ 1 ≤ (ymdOf n).2.2 ∧
      (ymdOf n).2.2 ≤ daysInMonth (ymdOf n).1 (ymdOf n).2.1 := by
  simp only [ymdOf]
  split
  · refine ⟨by omega, by simp, le_rfl, by simp, ?_⟩
    simp [daysInMonth]
  · rename_i hlast
    obtain ⟨year, hyear⟩ : ∃ year, year = n / 146097 * 400 + 1 + n % 146097 / 36524 * 100 +
      n % 146097 % 36524 / 1461 * 4 + n % 146097 % 36524 % 1461 / 365 := ⟨_, rfl⟩
    dsimp only
    rw [← hyear]
    have hrest : n % 146097 % 36524 % 1461 % 365 < 365 + leapDay year := by omega
    have hmonth := monthOf_spec year hrest
    have hnext := daysBeforeMonth_succ year hmonth.1 hmonth.2.1
    exact ⟨by omega, hmonth.1, hmonth.2.1, by omega, by omega⟩

/-- A year after the last one begins too late. -/
theorem ymdOf_year_le {n : Nat} (h : n < daysBeforeYear 10000) : (ymdOf n).1 ≤ 9999 := by
  by_contra hlate
  have hmono := daysBeforeYear_mono (by omega) (by omega : 10000 ≤ (ymdOf n).1)
  have hn := ordinal_ymdOf n
  have hday := (ymdOf_valid n).2.2.2.1
  unfold ordinal at hn
  omega

/-! ## Dates and times -/

/-- A `datetime` in UTC. -/
structure DateTime where
  year : Nat
  month : Nat
  day : Nat
  hour : Nat
  minute : Nat
  second : Nat
  microsecond : Nat
  year_range : 1 ≤ year ∧ year ≤ 9999
  month_range : 1 ≤ month ∧ month ≤ 12
  day_range : 1 ≤ day ∧ day ≤ daysInMonth year month
  hour_lt : hour < 24
  minute_lt : minute < 60
  second_lt : second < 60
  microsecond_lt : microsecond < 1000000

namespace DateTime

/-- The microseconds of a day. -/
def ofTime (hour minute second microsecond : Nat) : Nat :=
  ((hour * 60 + minute) * 60 + second) * 1000000 + microsecond

/-- The instant, in microseconds. -/
def micros (d : DateTime) : Nat :=
  ordinal d.year d.month d.day * 86400000000 + ofTime d.hour d.minute d.second d.microsecond

/-- `<` compares field by field. -/
def fields (d : DateTime) : List Nat :=
  [d.year, d.month, d.day, d.hour, d.minute, d.second, d.microsecond]

theorem eq_of_fields {d e : DateTime} (h : d.fields = e.fields) : d = e := by
  cases d
  cases e
  simpa [fields] using h

theorem ofTime_lt (d : DateTime) :
    ofTime d.hour d.minute d.second d.microsecond < 86400000000 := by
  have hhour := d.hour_lt
  have hminute := d.minute_lt
  have hsecond := d.second_lt
  have hmicro := d.microsecond_lt
  unfold ofTime
  omega

theorem micros_lt_of_fields {d e : DateTime} (h : d.fields < e.fields) : d.micros < e.micros := by
  have htime := d.ofTime_lt
  have hmonth := d.month_range
  have hmonth' := e.month_range
  have hday := d.day_range
  have hday' := e.day_range
  have hdate : ordinal d.year d.month d.day < ordinal e.year e.month e.day →
      d.micros < e.micros := by
    unfold micros
    omega
  simp only [fields, List.cons_lt_cons_iff, List.not_lt_nil, and_false, or_false] at h
  rcases h with h | ⟨hyear, h | ⟨hsame, h | ⟨hfirst, h⟩⟩⟩
  · exact hdate (ordinal_lt_of_year d.year_range.1 h hmonth.1 hmonth.2 hday.2 hday'.1)
  · rw [hyear] at hday hdate
    exact hdate (ordinal_lt_of_month hmonth.1 h (by omega) hday.2 hday'.1)
  · apply hdate
    rw [hyear, hsame]
    unfold ordinal
    omega
  · have hminute := d.minute_lt
    have hsecond := d.second_lt
    have hmicro := d.microsecond_lt
    unfold micros
    rw [hyear, hsame, hfirst]
    unfold ofTime
    omega

/-- The order of the fields is the order of the instants. -/
theorem fields_lt_iff (d e : DateTime) : d.fields < e.fields ↔ d.micros < e.micros := by
  refine ⟨micros_lt_of_fields, fun h => ?_⟩
  rcases lt_trichotomy d.fields e.fields with hlt | heq | hgt
  · exact hlt
  · rw [eq_of_fields heq] at h
    omega
  · have := micros_lt_of_fields hgt
    omega

/-- The days from year 1 to year 9999. -/
theorem daysBeforeYear_max : daysBeforeYear 10000 = 3652059 := by decide

/-- The date and time of an instant in these years. -/
def ofMicros (n : Nat) (hfirst : 86400000000 ≤ n) (hlast : n < 3652060 * 86400000000) :
    DateTime where
  year := (ymdOf (n / 86400000000 - 1)).1
  month := (ymdOf (n / 86400000000 - 1)).2.1
  day := (ymdOf (n / 86400000000 - 1)).2.2
  hour := n / 3600000000 % 24
  minute := n / 60000000 % 60
  second := n / 1000000 % 60
  microsecond := n % 1000000
  year_range := by
    refine ⟨(ymdOf_valid _).1, ymdOf_year_le ?_⟩
    rw [daysBeforeYear_max]
    omega
  month_range := ⟨(ymdOf_valid _).2.1, (ymdOf_valid _).2.2.1⟩
  day_range := (ymdOf_valid _).2.2.2
  hour_lt := Nat.mod_lt _ (by omega)
  minute_lt := Nat.mod_lt _ (by omega)
  second_lt := Nat.mod_lt _ (by omega)
  microsecond_lt := Nat.mod_lt _ (by omega)

theorem micros_ofMicros (n : Nat) (hfirst : 86400000000 ≤ n)
    (hlast : n < 3652060 * 86400000000) : (ofMicros n hfirst hlast).micros = n := by
  have hday : ordinal (ofMicros n hfirst hlast).year (ofMicros n hfirst hlast).month
      (ofMicros n hfirst hlast).day = n / 86400000000 - 1 + 1 := ordinal_ymdOf _
  unfold micros
  rw [hday]
  simp only [ofTime, ofMicros]
  omega

/-- `d - timedelta(seconds=seconds)`. It is an `OverflowError` outside the
years. -/
def minusSeconds (d : DateTime) (seconds : Int) : Option DateTime :=
  let n := ((d.micros : Int) - seconds * 1000000).toNat
  if h : 86400000000 ≤ n ∧ n < 3652060 * 86400000000 then some (ofMicros n h.1 h.2) else none

theorem micros_minusSeconds {d c : DateTime} {seconds : Int} (h : d.minusSeconds seconds = some c) :
    (c.micros : Int) = d.micros - seconds * 1000000 := by
  simp only [minusSeconds] at h
  split at h
  · rename_i hrange
    rw [← Option.some.inj h, micros_ofMicros]
    omega
  · cases h

end DateTime

end image_gen.calendar
