import MongoWire.Lib.IntType
import MongoWire.Lib.Gregorian

/-!
# Dates in logs

`format_datetime` and `civil_from_days` of `wirebson/src/encode.rs`, with every
`i64` operation checked for overflow. Divisions by a positive constant cannot
overflow: `/` truncates, and `div_euclid` and `rem_euclid` are the `/` and `%`
of `Int`.
-/

open MongoWire.Lib MongoWire.Lib.Outcome MongoWire.Lib.IntType

namespace MongoWire.Datetime

variable {ε : Type}

/-! ## The source -/

def civilFromDays (days : Int) : Outcome ε (Int × Int × Int) := do
  let z ← i64.add days 719468
  let shifted ← (if z ≥ 0 then .ok z else i64.sub z 146096 : Outcome ε Int)
  let era := shifted.tdiv 146097
  let doe ← i64.sub z (← i64.mul era 146097)
  let yoe := (← i64.sub (← i64.add (← i64.sub doe (doe.tdiv 1460)) (doe.tdiv 36524))
    (doe.tdiv 146096)).tdiv 365
  let y ← i64.add yoe (← i64.mul era 400)
  let doy ← i64.sub doe (← i64.sub (← i64.add (← i64.mul 365 yoe) (yoe.tdiv 4)) (yoe.tdiv 100))
  let mp := (← i64.add (← i64.mul 5 doy) 2).tdiv 153
  let d ← i64.add (← i64.sub doy ((← i64.add (← i64.mul 153 mp) 2).tdiv 5)) 1
  let m ← (if mp < 10 then i64.add mp 3 else i64.sub mp 9 : Outcome ε Int)
  let year ← (if m ≤ 2 then i64.add y 1 else .ok y : Outcome ε Int)
  return (year, m, d)

/-- What `format_datetime` computes before it writes the text. -/
structure Parts where
  year : Int
  month : Int
  day : Int
  hh : Int
  mm : Int
  ss : Int
  millis : Int
  deriving DecidableEq

def datetimeParts (ms : Int64) : Outcome ε Parts := do
  let secs := ms.toInt / 1000
  let millis := ms.toInt % 1000
  let days := secs / 86400
  let sod := secs % 86400
  let (year, month, day) ← civilFromDays days
  return {
    year, month, day, millis
    hh := sod.tdiv 3600
    mm := (sod.tdiv 60).tmod 60
    ss := sod.tmod 60 }

/-- `{n:0width}`: the sign counts towards the width. -/
def zeroPadded (width : Nat) (n : Int) : String :=
  let digits := toString n.natAbs
  let sign := if n < 0 then "-" else ""
  sign ++ .ofList (.replicate (width - sign.length - digits.length) '0') ++ digits

def formatParts (p : Parts) : String :=
  zeroPadded 4 p.year ++ "-" ++ zeroPadded 2 p.month ++ "-" ++ zeroPadded 2 p.day ++ "T" ++
    zeroPadded 2 p.hh ++ ":" ++ zeroPadded 2 p.mm ++ ":" ++ zeroPadded 2 p.ss ++
    (if p.millis = 0 then "Z" else "." ++ zeroPadded 3 p.millis ++ "Z")

def formatDatetime (ms : Int64) : Outcome ε String := do
  return formatParts (← datetimeParts ms)

/-! ## Years that start in March -/

/-- The days from the first of March of the year 0. -/
def marchStart (year : Int) : Int := 365 * year + year / 4 - year / 100 + year / 400

theorem exists_between (f : Nat → Int) (n : Nat) {x : Int} (h0 : f 0 ≤ x) (hn : x < f n) :
    ∃ k < n, f k ≤ x ∧ x < f (k + 1) := by
  induction n with
  | zero => omega
  | succ n ih =>
    by_cases hlt : x < f n
    · obtain ⟨k, hk, hbetween⟩ := ih hlt
      exact ⟨k, by omega, hbetween⟩
    · exact ⟨n, by omega, by omega, hn⟩

theorem exists_marchYear {doe : Int} (h0 : 0 ≤ doe) (hlt : doe < 146097) :
    ∃ yoe, 0 ≤ yoe ∧ yoe ≤ 399 ∧ marchStart yoe ≤ doe ∧ doe < marchStart (yoe + 1) := by
  obtain ⟨k, hk, hle, hgt⟩ := exists_between (fun k => marchStart k) 400
    (show marchStart (0 : Nat) ≤ doe from h0) (show doe < marchStart (400 : Nat) from hlt)
  exact ⟨k, by omega, by omega, hle, by exact_mod_cast hgt⟩

theorem marchStart_add_one (year : Int) :
    marchStart (year + 1) = marchStart year + 365 + Gregorian.leapDay (year + 1) := by
  unfold marchStart
  rw [Gregorian.leapDay_eq, add_sub_cancel_right]
  ring

theorem marchStart_add_era (yoe era : Int) :
    marchStart (yoe + era * 400) = marchStart yoe + era * 146097 := by
  unfold marchStart
  omega

theorem marchStart_of_lt {yoe : Int} (h0 : 0 ≤ yoe) (h399 : yoe ≤ 399) :
    marchStart yoe = 365 * yoe + yoe / 4 - yoe / 100 := by
  unfold marchStart
  omega

theorem century_eq {doe yoe : Int} (h0 : 0 ≤ yoe) (h399 : yoe ≤ 399)
    (hle : marchStart yoe ≤ doe) (hlt : doe < marchStart (yoe + 1)) :
    doe / 36524 - doe / 146096 = yoe / 100 := by
  unfold marchStart at hle hlt
  obtain ⟨c, hc⟩ : ∃ c, c = yoe / 100 := ⟨_, rfl⟩
  have hc0 : 0 ≤ c := by omega
  have hc3 : c ≤ 3 := by omega
  have hlo : 36524 * c ≤ doe := by omega
  have hhi : doe < 36524 * (c + 1) + (c + 1) / 4 := by
    by_cases hlast : yoe + 1 = 100 * (c + 1)
    · omega
    · have : (yoe + 1) / 100 = c := by omega
      have : (yoe + 1) / 400 = 0 := by omega
      omega
  interval_cases c <;> omega

theorem yearOfEra_eq {doe yoe : Int} (h0 : 0 ≤ yoe) (h399 : yoe ≤ 399)
    (hle : marchStart yoe ≤ doe) (hlt : doe < marchStart (yoe + 1)) :
    (doe - doe / 1460 + doe / 36524 - doe / 146096) / 365 = yoe := by
  -- The estimate of the source finds the year. Its `doe / 1460` is one too many only after the
  -- first day of a year, and it is on the last day of a year of 366.
  have hcentury := century_eq h0 h399 hle hlt
  have hstart := marchStart_of_lt h0 h399
  have hleap := Gregorian.leapDay_cases (yoe + 1)
  rw [marchStart_add_one] at hlt
  obtain ⟨doy, hdoy⟩ : ∃ doy, doe = marchStart yoe + doy := ⟨doe - marchStart yoe, by omega⟩
  -- what is left over after the four-year groups
  obtain ⟨e, he⟩ : ∃ e, e = 365 * (yoe % 4) + yoe / 4 - yoe / 100 + doy := ⟨_, rfl⟩
  have hquot : doe / 1460 = yoe / 4 + e / 1460 := by omega
  have hestimate : doe - doe / 1460 + doe / 36524 - doe / 146096 = 365 * yoe + doy - e / 1460 := by
    omega
  have hlow : 0 ≤ doy - e / 1460 := by omega
  have hhigh : doy - e / 1460 ≤ 364 := by
    rcases hleap with hleap | ⟨hleap, h4⟩
    · omega
    · omega
  omega

/-! ## The date of a day -/

theorem yearStart_march (y : Int) :
    Gregorian.yearStart y + 59 + Gregorian.leapDay y = marchStart y - 719468 := by
  have h := marchStart_add_one (y - 1)
  rw [sub_add_cancel] at h
  rw [Gregorian.yearStart_eq]
  unfold marchStart at h ⊢
  omega

theorem yearStart_january (y : Int) : Gregorian.yearStart (y + 1) = marchStart y + 306 - 719468 := by
  rw [Gregorian.yearStart_eq]
  unfold marchStart
  omega

theorem exists_date {y doy mp : Int} (h0 : 0 ≤ doy) (hlt : marchStart y + doy < marchStart (y + 1))
    (hmp : mp = (5 * doy + 2) / 153) :
    ∃ date : Gregorian.Date,
      date.month = (if mp < 10 then mp + 3 else mp - 9) ∧
      date.day = doy - (153 * mp + 2) / 5 + 1 ∧
      date.year = (if date.month ≤ 2 then y + 1 else y) ∧
      date.dayNumber = marchStart y + doy - 719468 := by
  have hleap := Gregorian.leapDay_cases (y + 1)
  rw [marchStart_add_one] at hlt
  have hmp0 : 0 ≤ mp := by omega
  have hmp11 : mp ≤ 11 := by omega
  by_cases h10 : mp < 10
  · -- March to December
    have hday : doy - (153 * mp + 2) / 5 + 1 ≤ Gregorian.monthLength y (mp + 3) := by
      unfold Gregorian.monthLength
      rw [if_neg (by omega)]
      split
      · interval_cases mp <;> omega
      · interval_cases mp <;> omega
    refine ⟨⟨y, mp + 3, doy - (153 * mp + 2) / 5 + 1, by omega, by omega, by omega, hday⟩,
      (if_pos h10).symm, rfl, (if_neg (by dsimp only; omega)).symm, ?_⟩
    have hyear := yearStart_march y
    have hmonth := Gregorian.monthStart_eq y (show 1 ≤ mp + 3 by omega) (by omega)
    rw [if_neg (by omega), add_sub_cancel_right] at hmonth
    unfold Gregorian.Date.dayNumber
    dsimp only
    omega
  · -- January and February belong to the next year
    have hday : doy - (153 * mp + 2) / 5 + 1 ≤ Gregorian.monthLength (y + 1) (mp - 9) := by
      rcases (show mp = 10 ∨ mp = 11 by omega) with rfl | rfl
      · show _ ≤ (31 : Int)
        omega
      · show _ ≤ Gregorian.monthLength (y + 1) 2
        rw [Gregorian.monthLength_two]
        omega
    refine ⟨⟨y + 1, mp - 9, doy - (153 * mp + 2) / 5 + 1, by omega, by omega, by omega, hday⟩,
      (if_neg h10).symm, rfl, (if_pos (by dsimp only; omega)).symm, ?_⟩
    have hyear := yearStart_january y
    have hmonth := Gregorian.monthStart_eq (y + 1) (show 1 ≤ mp - 9 by omega) (by omega)
    rw [if_pos (by omega)] at hmonth
    unfold Gregorian.Date.dayNumber
    dsimp only
    omega

theorem era_eq (z : Int) : (if z ≥ 0 then z else z - 146096).tdiv 146097 = z / 146097 := by
  split
  · rename_i h
    exact Int.tdiv_eq_ediv_of_nonneg h
  · rename_i h
    have hneg : z - 146096 = -(146096 - z) := by omega
    rw [hneg, Int.neg_tdiv, Int.tdiv_eq_ediv_of_nonneg (by omega)]
    omega

theorem small_holds {n : Int} (hlo : -1000000000000000 ≤ n) (hhi : n ≤ 1000000000000000) :
    i64.Holds n :=
  (holds_i64 n).mpr ⟨by omega, by omega⟩

/-! ## No overflow

Each line of `civil_from_days`, with what is left to do after it. -/

section Lines

variable {α : Type} {doe yoe doy mp : Int}

theorem shift_eq_ok {z : Int} (hlo : -900000000000000 ≤ z) (hhi : z ≤ 900000000000000) :
    (if z ≥ 0 then .ok z else i64.sub z 146096 : Outcome ε Int) =
      .ok (if z ≥ 0 then z else z - 146096) := by
  split
  · rfl
  · exact sub_of_holds (small_holds (by omega) (by omega))

theorem yearOfEra_bind (h0 : 0 ≤ doe) (hlt : doe < 146097) (next : Int → Outcome ε α) :
    (do
      let a ← i64.sub doe (doe.tdiv 1460)
      let b ← i64.add a (doe.tdiv 36524)
      let c ← i64.sub b (doe.tdiv 146096)
      next c) = next (doe - doe / 1460 + doe / 36524 - doe / 146096) := by
  simp only [Int.tdiv_eq_ediv_of_nonneg h0]
  rw [sub_of_holds (small_holds (by omega) (by omega)), ok_bind,
    add_of_holds (small_holds (by omega) (by omega)), ok_bind,
    sub_of_holds (small_holds (by omega) (by omega)), ok_bind]

theorem dayOfYear_bind (hdoe : 0 ≤ doe) (hlt : doe < 146097) (h0 : 0 ≤ yoe) (h399 : yoe ≤ 399)
    (next : Int → Outcome ε α) :
    (do
      let a ← i64.mul 365 yoe
      let b ← i64.add a (yoe.tdiv 4)
      let c ← i64.sub b (yoe.tdiv 100)
      let doy ← i64.sub doe c
      next doy) = next (doe - (365 * yoe + yoe / 4 - yoe / 100)) := by
  simp only [Int.tdiv_eq_ediv_of_nonneg h0]
  rw [mul_of_holds (small_holds (by omega) (by omega)), ok_bind,
    add_of_holds (small_holds (by omega) (by omega)), ok_bind,
    sub_of_holds (small_holds (by omega) (by omega)), ok_bind,
    sub_of_holds (small_holds (by omega) (by omega)), ok_bind]

theorem monthOfYear_bind (h0 : 0 ≤ doy) (hlt : doy < 146097) (next : Int → Outcome ε α) :
    (do
      let a ← i64.mul 5 doy
      let b ← i64.add a 2
      next b) = next (5 * doy + 2) := by
  rw [mul_of_holds (small_holds (by omega) (by omega)), ok_bind,
    add_of_holds (small_holds (by omega) (by omega)), ok_bind]

theorem dayOfMonth_bind (h0 : 0 ≤ doy) (hlt : doy < 146097) (hmp : 0 ≤ mp) (hmp' : mp ≤ doy)
    (next : Int → Outcome ε α) :
    (do
      let a ← i64.mul 153 mp
      let b ← i64.add a 2
      let c ← i64.sub doy (b.tdiv 5)
      let d ← i64.add c 1
      next d) = next (doy - (153 * mp + 2) / 5 + 1) := by
  rw [mul_of_holds (small_holds (by omega) (by omega)), ok_bind,
    add_of_holds (small_holds (by omega) (by omega)), ok_bind,
    Int.tdiv_eq_ediv_of_nonneg (by omega),
    sub_of_holds (small_holds (by omega) (by omega)), ok_bind,
    add_of_holds (small_holds (by omega) (by omega)), ok_bind]

theorem month_eq_ok (h0 : 0 ≤ mp) (hlt : mp < 146097) :
    (if mp < 10 then i64.add mp 3 else i64.sub mp 9 : Outcome ε Int) =
      .ok (if mp < 10 then mp + 3 else mp - 9) := by
  split
  · exact add_of_holds (small_holds (by omega) (by omega))
  · exact sub_of_holds (small_holds (by omega) (by omega))

theorem year_eq_ok {y month : Int} (hlo : -900000000000 ≤ y) (hhi : y ≤ 900000000000) :
    (if month ≤ 2 then i64.add y 1 else .ok y : Outcome ε Int) =
      .ok (if month ≤ 2 then y + 1 else y) := by
  split
  · exact add_of_holds (small_holds (by omega) (by omega))
  · rfl

end Lines

theorem civilFromDays_of_parts {days era doe yoe doy mp month year : Int}
    (hlo : -106751991168 ≤ days) (hhi : days ≤ 106751991167)
    (hera : era = (days + 719468) / 146097) (hdoe : doe = days + 719468 - era * 146097)
    (h0 : 0 ≤ yoe) (h399 : yoe ≤ 399)
    (hyoe : (doe - doe / 1460 + doe / 36524 - doe / 146096) / 365 = yoe)
    (hdoy : doy = doe - (365 * yoe + yoe / 4 - yoe / 100)) (hdoy0 : 0 ≤ doy)
    (hmp : mp = (5 * doy + 2) / 153) (hmonth : month = if mp < 10 then mp + 3 else mp - 9)
    (hyear : year = if month ≤ 2 then yoe + era * 400 + 1 else yoe + era * 400) :
    (civilFromDays days : Outcome ε _) = .ok (year, month, doy - (153 * mp + 2) / 5 + 1) := by
  have hdoe0 : 0 ≤ doe := by omega
  have hdoe_lt : doe < 146097 := by omega
  have hdoy_lt : doy < 146097 := by omega
  have hmp0 : 0 ≤ mp := by omega
  have hmp_le : mp ≤ doy := by omega
  unfold civilFromDays
  rw [add_of_holds (small_holds (by omega) (by omega)), ok_bind, shift_eq_ok (by omega) (by omega),
    ok_bind]
  dsimp only
  rw [era_eq, ← hera, mul_of_holds (small_holds (by omega) (by omega)), ok_bind,
    sub_of_holds (small_holds (by omega) (by omega)), ok_bind, ← hdoe, yearOfEra_bind hdoe0 hdoe_lt,
    Int.tdiv_eq_ediv_of_nonneg (by omega), hyoe, mul_of_holds (small_holds (by omega) (by omega)),
    ok_bind, add_of_holds (small_holds (by omega) (by omega)), ok_bind,
    dayOfYear_bind hdoe0 hdoe_lt h0 h399, ← hdoy, monthOfYear_bind hdoy0 hdoy_lt,
    Int.tdiv_eq_ediv_of_nonneg (by omega), ← hmp, dayOfMonth_bind hdoy0 hdoy_lt hmp0 hmp_le,
    month_eq_ok hmp0 (by omega), ok_bind, ← hmonth, year_eq_ok (by omega) (by omega), ok_bind,
    ← hyear, pure_eq]

/-- In the range of the days of an `i64` of milliseconds, the date comes out and nothing
overflows. -/
theorem civilFromDays_eq_ok {days : Int} (hlo : -106751991168 ≤ days) (hhi : days ≤ 106751991167) :
    ∃ date : Gregorian.Date,
      (civilFromDays days : Outcome ε _) = .ok (date.year, date.month, date.day) ∧
        date.dayNumber = days := by
  obtain ⟨era, hera⟩ : ∃ era, era = (days + 719468) / 146097 := ⟨_, rfl⟩
  obtain ⟨doe, hdoe⟩ : ∃ doe, doe = days + 719468 - era * 146097 := ⟨_, rfl⟩
  obtain ⟨yoe, h0, h399, hle, hlt⟩ := exists_marchYear (show 0 ≤ doe by omega) (by omega)
  have hyoe := yearOfEra_eq h0 h399 hle hlt
  have hstart := marchStart_of_lt h0 h399
  obtain ⟨doy, hdoy⟩ : ∃ doy, doy = doe - (365 * yoe + yoe / 4 - yoe / 100) := ⟨_, rfl⟩
  have hfirst := marchStart_add_era yoe era
  have hnext := marchStart_add_era (yoe + 1) era
  obtain ⟨date, hmonth, hday, hyear, hnumber⟩ := exists_date (y := yoe + era * 400)
    (show 0 ≤ doy by omega) (by rw [add_right_comm, hnext]; omega) rfl
  refine ⟨date, ?_, by omega⟩
  rw [hday]
  exact civilFromDays_of_parts hlo hhi hera hdoe h0 h399 hyoe hdoy (by omega) rfl hmonth hyear

/-! ## Every timestamp -/

/-- The text of a timestamp is made of the one date of its day and of the hour, minute, second
and millisecond that are left of it. -/
theorem datetime_correct (ms : Int64) :
    ∃ (date : Gregorian.Date) (p : Parts),
      (civilFromDays (ms.toInt / 86400000) : Outcome ε _) = .ok (date.year, date.month, date.day) ∧
      date.dayNumber = ms.toInt / 86400000 ∧
      (∀ other : Gregorian.Date, other.dayNumber = ms.toInt / 86400000 → other = date) ∧
      (datetimeParts ms : Outcome ε _) = .ok p ∧
      (formatDatetime ms : Outcome ε _) = .ok (formatParts p) ∧
      (p.year, p.month, p.day) = (date.year, date.month, date.day) ∧
      (0 ≤ p.hh ∧ p.hh < 24) ∧ (0 ≤ p.mm ∧ p.mm < 60) ∧ (0 ≤ p.ss ∧ p.ss < 60) ∧
      (0 ≤ p.millis ∧ p.millis < 1000) ∧
      p.hh * 3600000 + p.mm * 60000 + p.ss * 1000 + p.millis = ms.toInt % 86400000 := by
  obtain ⟨hlo, hhi⟩ := (holds_i64 _).mp (holds_toInt ms)
  have hdays : ms.toInt / 1000 / 86400 = ms.toInt / 86400000 := by omega
  obtain ⟨date, hdate, hnumber⟩ := @civilFromDays_eq_ok ε _
    (show -106751991168 ≤ ms.toInt / 86400000 by omega) (by omega)
  obtain ⟨sod, hsod⟩ : ∃ sod, sod = ms.toInt / 1000 % 86400 := ⟨_, rfl⟩
  have hparts : (datetimeParts ms : Outcome ε _) = .ok
      ⟨date.year, date.month, date.day, sod / 3600, sod / 60 % 60, sod % 60, ms.toInt % 1000⟩ := by
    unfold datetimeParts
    dsimp only
    rw [hdays, hdate, ok_bind, ← hsod, Int.tdiv_eq_ediv_of_nonneg (by omega),
      Int.tdiv_eq_ediv_of_nonneg (by omega), Int.tmod_eq_emod_of_nonneg (by omega),
      Int.tmod_eq_emod_of_nonneg (by omega), pure_eq]
  refine ⟨date, _, hdate, hnumber, fun other h => Gregorian.Date.dayNumber_injective ?_, hparts, ?_,
    rfl, ?_⟩
  · rw [h, hnumber]
  · unfold formatDatetime
    rw [hparts, ok_bind, pure_eq]
  · dsimp only
    omega

example : (formatDatetime 1627378542123 : Outcome Unit _) = .ok "2021-07-27T09:35:42.123Z" ∧
    (formatDatetime (-62135596800000) : Outcome Unit _) = .ok "0001-01-01T00:00:00Z" := by
  decide +kernel

end MongoWire.Datetime
