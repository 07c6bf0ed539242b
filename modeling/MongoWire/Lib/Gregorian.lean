import Mathlib

/-!
# The Gregorian calendar

Dates of the proleptic Gregorian calendar and the number of days from
1970-01-01 to each of them, counted year by year and month by month. Every day
number has one date.
-/

namespace MongoWire.Lib.Gregorian

/-! ## Years and months -/

def IsLeap (year : Int) : Prop := 4 ∣ year ∧ (100 ∣ year → 400 ∣ year)

instance : DecidablePred IsLeap := fun _ => inferInstanceAs (Decidable (_ ∧ _))

def yearLength (year : Int) : Int := if IsLeap year then 366 else 365

def monthLength (year month : Int) : Int :=
  if month = 2 then if IsLeap year then 29 else 28
  else if month = 4 ∨ month = 6 ∨ month = 9 ∨ month = 11 then 30
  else 31

/-- The day number of the first of January. -/
noncomputable def yearStart (year : Int) : Int :=
  ∑ y ∈ Finset.Ico 1970 year, yearLength y - ∑ y ∈ Finset.Ico year 1970, yearLength y

/-- The days of a year before its `month`. -/
noncomputable def monthStart (year month : Int) : Int := ∑ m ∈ Finset.Ico 1 month, monthLength year m

structure Date where
  year : Int
  month : Int
  day : Int
  one_le_month : 1 ≤ month
  month_le : month ≤ 12
  one_le_day : 1 ≤ day
  day_le : day ≤ monthLength year month

namespace Date

/-- The days from 1970-01-01. -/
noncomputable def dayNumber (date : Date) : Int :=
  yearStart date.year + monthStart date.year date.month + (date.day - 1)

end Date

/-! ## Counting one year or month more -/

theorem sum_Ico_add_one (f : Int → Int) {a b : Int} (h : a ≤ b) :
    ∑ i ∈ Finset.Ico a (b + 1), f i = ∑ i ∈ Finset.Ico a b, f i + f b := by
  have hsplit : Finset.Ico a (b + 1) = insert b (Finset.Ico a b) := by
    ext i
    simp only [Finset.mem_Ico, Finset.mem_insert]
    omega
  rw [hsplit, Finset.sum_insert (by simp), add_comm]

theorem sum_Ico_eq_add (f : Int → Int) {a b : Int} (h : a < b) :
    ∑ i ∈ Finset.Ico a b, f i = f a + ∑ i ∈ Finset.Ico (a + 1) b, f i := by
  have hsplit : Finset.Ico a b = insert a (Finset.Ico (a + 1) b) := by
    ext i
    simp only [Finset.mem_Ico, Finset.mem_insert]
    omega
  rw [hsplit, Finset.sum_insert (by simp)]

theorem yearStart_epoch : yearStart 1970 = 0 := by simp [yearStart]

theorem yearStart_add_one (year : Int) : yearStart (year + 1) = yearStart year + yearLength year := by
  unfold yearStart
  rcases lt_or_ge year 1970 with h | h
  · rw [sum_Ico_eq_add _ h, Finset.Ico_eq_empty (a := (1970 : Int)) (b := year) (by omega),
      Finset.Ico_eq_empty (a := (1970 : Int)) (b := year + 1) (by omega)]
    ring
  · rw [sum_Ico_add_one _ h, Finset.Ico_eq_empty (a := year) (by omega),
      Finset.Ico_eq_empty (a := year + 1) (by omega)]
    ring

theorem monthStart_one (year : Int) : monthStart year 1 = 0 := by simp [monthStart]

theorem monthStart_add_one (year : Int) {month : Int} (h : 1 ≤ month) :
    monthStart year (month + 1) = monthStart year month + monthLength year month :=
  sum_Ico_add_one _ h

/-! ## The counts in closed form -/

def leapDay (year : Int) : Int := if IsLeap year then 1 else 0

theorem leapDay_cases (year : Int) : leapDay year = 0 ∨ leapDay year = 1 ∧ year % 4 = 0 := by
  unfold leapDay
  by_cases h : IsLeap year
  · rw [if_pos h]
    exact .inr ⟨rfl, Int.emod_eq_zero_of_dvd h.1⟩
  · rw [if_neg h]
    exact .inl rfl

theorem monthLength_two (year : Int) : monthLength year 2 = 28 + leapDay year := by
  unfold monthLength leapDay
  rw [if_pos rfl]
  split <;> rfl

theorem yearLength_eq (year : Int) : yearLength year = 365 + leapDay year := by
  unfold yearLength leapDay
  split <;> rfl

theorem leapDay_eq (year : Int) :
    leapDay year = (year / 4 - year / 100 + year / 400) -
      ((year - 1) / 4 - (year - 1) / 100 + (year - 1) / 400) := by
  unfold leapDay
  by_cases h : IsLeap year
  · rw [if_pos h]
    obtain ⟨h4, h100⟩ := h
    omega
  · rw [if_neg h]
    unfold IsLeap at h
    omega

theorem yearStart_eq (year : Int) :
    yearStart year =
      365 * (year - 1970) + ((year - 1) / 4 - (year - 1) / 100 + (year - 1) / 400) - 477 := by
  induction year using Int.inductionOn' (b := 1970) with
  | zero => exact yearStart_epoch
  | succ k _ ih =>
    rw [yearStart_add_one, ih, yearLength_eq, leapDay_eq, add_sub_cancel_right]
    ring
  | pred k _ ih =>
    have hnext := yearStart_add_one (k - 1)
    rw [sub_add_cancel, ih, yearLength_eq, leapDay_eq] at hnext
    linarith

theorem monthStart_eq (year : Int) {month : Int} (h1 : 1 ≤ month) (h12 : month ≤ 12) :
    monthStart year month =
      if month ≤ 2 then 31 * (month - 1) else 59 + leapDay year + (153 * (month - 3) + 2) / 5 := by
  induction month, h1 using Int.leInduction with
  | base => exact monthStart_one year
  | succ m hm ih =>
    rw [monthStart_add_one year hm, ih (by omega)]
    unfold monthLength leapDay
    have hle : m ≤ 11 := by omega
    by_cases hleap : IsLeap year
    · simp only [if_pos hleap]
      interval_cases m <;> rfl
    · simp only [if_neg hleap]
      interval_cases m <;> rfl

/-! ## One date for each day -/

theorem monthLength_nonneg (year month : Int) : 0 ≤ monthLength year month := by
  unfold monthLength
  split
  · split <;> omega
  · split <;> omega

theorem monthStart_le (year : Int) {m n : Int} (h : m ≤ n) :
    monthStart year m ≤ monthStart year n :=
  Finset.sum_le_sum_of_subset_of_nonneg (Finset.Ico_subset_Ico_right h)
    fun _ _ _ => monthLength_nonneg _ _

theorem monthStart_thirteen (year : Int) : monthStart year 13 = yearLength year := by
  have hlast := monthStart_add_one year (show (1 : Int) ≤ 12 by omega)
  have hdecember : monthLength year 12 = 31 := rfl
  rw [show (12 : Int) + 1 = 13 from rfl, monthStart_eq year (by omega) le_rfl, if_neg (by omega), hdecember] at hlast
  rw [yearLength_eq]
  omega

theorem yearStart_monotone : Monotone yearStart := by
  apply monotone_int_of_le_succ
  intro year
  have hleap := leapDay_cases year
  rw [yearStart_add_one, yearLength_eq]
  omega

namespace Date

theorem lt_monthStart_add_one (date : Date) :
    monthStart date.year date.month + (date.day - 1) < monthStart date.year (date.month + 1) := by
  have hday := date.day_le
  rw [monthStart_add_one _ date.one_le_month]
  omega

theorem yearStart_le (date : Date) : yearStart date.year ≤ date.dayNumber := by
  have hmonth := monthStart_le date.year date.one_le_month
  have hday := date.one_le_day
  rw [monthStart_one] at hmonth
  unfold dayNumber
  omega

theorem lt_yearStart_add_one (date : Date) : date.dayNumber < yearStart (date.year + 1) := by
  have hday := date.lt_monthStart_add_one
  have hle := date.month_le
  have hmonth := monthStart_le date.year (show date.month + 1 ≤ 13 by omega)
  rw [monthStart_thirteen] at hmonth
  rw [yearStart_add_one]
  unfold dayNumber
  omega

theorem year_le_of_dayNumber_le {d e : Date} (h : d.dayNumber ≤ e.dayNumber) : d.year ≤ e.year := by
  by_contra hlt
  have hstart := yearStart_monotone (show e.year + 1 ≤ d.year by omega)
  have hd := d.yearStart_le
  have he := e.lt_yearStart_add_one
  omega

theorem dayNumber_injective {d e : Date} (h : d.dayNumber = e.dayNumber) : d = e := by
  have hyear : d.year = e.year :=
    le_antisymm (year_le_of_dayNumber_le h.le) (year_le_of_dayNumber_le h.ge)
  have hd := d.lt_monthStart_add_one
  have he := e.lt_monthStart_add_one
  have hd1 := d.one_le_day
  have he1 := e.one_le_day
  unfold dayNumber at h
  rw [hyear] at hd h
  have hmonth : d.month = e.month := by
    rcases lt_trichotomy d.month e.month with hlt | heq | hgt
    · have := monthStart_le e.year (show d.month + 1 ≤ e.month by omega)
      omega
    · exact heq
    · have := monthStart_le e.year (show e.month + 1 ≤ d.month by omega)
      omega
  have hday : d.day = e.day := by
    rw [hmonth] at h
    omega
  cases d
  cases e
  cases hyear
  cases hmonth
  cases hday
  rfl

end Date

end MongoWire.Lib.Gregorian
