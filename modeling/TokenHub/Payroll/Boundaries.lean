import Mathlib.Data.Int.ConditionallyCompleteOrder
import TokenHub.Rent.Dates
import TokenHub.Payroll.Schedule

set_option autoImplicit false

namespace TokenHub.Payroll

open Ledger Rent Insurance Lib.Checks Lib.Search

section Months

theorem monthLengths_pos {year length : ℤ} (h : length ∈ monthLengths year) :
    28 ≤ length ∧ length ≤ 31 := by
  simp only [monthLengths, List.mem_cons, List.not_mem_nil, or_false] at h
  split_ifs at h <;> omega

theorem daysInMonth_bounds (year month : ℤ) :
    28 ≤ daysInMonth year month ∧ daysInMonth year month ≤ 31 := by
  unfold daysInMonth
  cases h : (monthLengths year)[(month - 1).toNat]? with
  | none => simp
  | some length => exact monthLengths_pos (List.mem_of_getElem? h)

/-- The first day of the month with a number, counted from the year 0. -/
def monthStart (number : ℤ) : ℤ := toOrdinal ⟨number / 12, number % 12 + 1, 1⟩

def monthLength (number : ℤ) : ℤ := daysInMonth (number / 12) (number % 12 + 1)

theorem daysBeforeYear_succ (year : ℤ) :
    daysBeforeYear (year + 1) = daysBeforeYear year + (monthLengths year).sum := by
  have hsum : (monthLengths year).sum = if isLeapYear year then 366 else 365 := by
    unfold monthLengths
    split_ifs <;> rfl
  rw [hsum]
  simp only [daysBeforeYear, isLeapYear, decide_eq_true_eq]
  split_ifs <;> omega

theorem monthStart_succ (number : ℤ) :
    monthStart (number + 1) = monthStart number + monthLength number := by
  have hlow := Int.emod_nonneg number (by decide : (12 : ℤ) ≠ 0)
  have hhigh := Int.emod_lt_of_pos number (by decide : (0 : ℤ) < 12)
  obtain ⟨k, hk⟩ : ∃ k : ℕ, number % 12 = k := ⟨(number % 12).toNat, by omega⟩
  have hk12 : k < 12 := by omega
  simp only [monthStart, monthLength, daysInMonth, toOrdinal, hk]
  rw [show ((k : ℤ) + 1 - 1).toNat = k by omega]
  by_cases hlast : k = 11
  · rw [show (number + 1) / 12 = number / 12 + 1 by omega,
      show ((number + 1) % 12 + 1 - 1).toNat = 0 by omega, daysBeforeYear_succ, hlast]
    simp only [List.take_zero, List.sum_nil, monthLengths, List.getElem?_cons_succ,
      List.getElem?_cons_zero, Option.getD_some, List.take_succ_cons, List.sum_cons]
    omega
  · have hlen : k < (monthLengths (number / 12)).length := by
      simp only [monthLengths, List.length_cons, List.length_nil]
      omega
    rw [show (number + 1) / 12 = number / 12 by omega,
      show ((number + 1) % 12 + 1 - 1).toNat = k + 1 by omega, List.getElem?_eq_getElem hlen,
      Option.getD_some, List.take_add_one, List.getElem?_eq_getElem hlen, Option.toList_some,
      List.sum_append, List.sum_singleton]
    omega

theorem monthStart_mono : StrictMono monthStart := by
  apply strictMono_int_of_lt_succ
  intro number
  rw [monthStart_succ, monthLength]
  have hlen := daysInMonth_bounds (number / 12) (number % 12 + 1)
  omega

theorem monthAndDay_le (lengths : List ℤ) (month : ℤ) {n : ℤ} (hn : n ≤ lengths.sum) :
    lengths = [] ∨ ∃ k : ℕ, (monthAndDay lengths month n).1 = month + k ∧
      ∃ length, lengths[k]? = some length ∧ (monthAndDay lengths month n).2 ≤ length := by
  induction lengths generalizing month n with
  | nil => exact .inl rfl
  | cons length lengths ih =>
    refine .inr ?_
    rw [monthAndDay]
    by_cases hle : n ≤ length
    · rw [if_pos hle]
      exact ⟨0, by simp, length, rfl, hle⟩
    · rw [if_neg hle]
      rw [List.sum_cons] at hn
      rcases ih (month + 1) (n := n - length) (by omega) with rfl | ⟨k, hk, hday⟩
      · simp only [List.sum_nil] at hn
        omega
      · refine ⟨k + 1, by rw [hk]; push_cast; omega, ?_⟩
        simpa using hday

theorem fromOrdinal_le (n : ℤ) : (fromOrdinal n).month ≤ 12 ∧
    (fromOrdinal n).day ≤ daysInMonth (fromOrdinal n).year (fromOrdinal n).month := by
  simp only [fromOrdinal]
  have hlt := Int.emod_lt_of_pos ((n - 1) % 146097 % 36524 % 1461) (by decide : (0 : ℤ) < 365)
  generalize (n - 1) % 146097 % 36524 % 1461 % 365 = r at hlt
  split_ifs
  · exact ⟨by norm_num, by simp [daysInMonth, monthLengths]⟩
  · generalize (n - 1) / 146097 * 400 + (n - 1) % 146097 / 36524 * 100 +
      (n - 1) % 146097 % 36524 / 1461 * 4 + (n - 1) % 146097 % 36524 % 1461 / 365 + 1 = year
    have hsum : r + 1 ≤ (monthLengths year).sum := by
      simp only [monthLengths, List.sum_cons, List.sum_nil]
      split_ifs <;> omega
    rcases monthAndDay_le (monthLengths year) 1 hsum with hnil | ⟨k, hk, length, hlen, hle⟩
    · simp [monthLengths] at hnil
    · have hk12 := (List.getElem?_eq_some_iff.1 hlen).1
      simp only [monthLengths, List.length_cons, List.length_nil] at hk12
      refine ⟨by simp only [hk]; omega, ?_⟩
      rw [daysInMonth, hk, show (1 + (k : ℤ) - 1).toNat = k by omega, hlen]
      exact hle

def monthNumber (n : ℤ) : ℤ := (fromOrdinal n).year * 12 + ((fromOrdinal n).month - 1)

theorem monthStart_monthNumber (n : ℤ) :
    monthStart (monthNumber n) + (fromOrdinal n).day - 1 = n ∧
      (fromOrdinal n).day ≤ monthLength (monthNumber n) := by
  obtain ⟨hmonth, hday⟩ := fromOrdinal_pos n
  obtain ⟨hmonth', hday'⟩ := fromOrdinal_le n
  have hyear : monthNumber n / 12 = (fromOrdinal n).year := by
    unfold monthNumber
    omega
  have hindex : monthNumber n % 12 + 1 = (fromOrdinal n).month := by
    unfold monthNumber
    omega
  have hself := toOrdinal_fromOrdinal n
  simp only [toOrdinal] at hself
  refine ⟨?_, by rw [monthLength, hyear, hindex]; exact hday'⟩
  simp only [monthStart, toOrdinal, hyear, hindex]
  omega

end Months

section Recurrence

variable (anchor : ℤ)

/-- A month's boundary is the day of the anchor in it, or else the first day of the next month. -/
theorem rolledForward_eq (months : ℤ) : rolledForward anchor months =
    min (monthStart (monthNumber anchor + months) + (fromOrdinal anchor).day - 1)
      (monthStart (monthNumber anchor + months + 1)) := by
  rw [monthStart_succ]
  simp only [rolledForward]
  change (if _ ≤ monthLength (monthNumber anchor + months) then _ else _) = _
  split_ifs with hfits
  · rw [min_eq_left (by omega)]
    simp only [monthStart, toOrdinal, monthNumber]
    omega
  · rw [min_eq_right (by omega), ← monthStart_succ]
    simp only [monthStart, monthNumber]
    congr 2
    · omega
    · omega

theorem rolledForward_bounds (months : ℤ) :
    monthStart (monthNumber anchor + months) ≤ rolledForward anchor months ∧
      rolledForward anchor months ≤ monthStart (monthNumber anchor + months + 1) := by
  obtain ⟨-, hday⟩ := fromOrdinal_pos anchor
  have hlen := daysInMonth_bounds ((monthNumber anchor + months) / 12)
    ((monthNumber anchor + months) % 12 + 1)
  rw [rolledForward_eq, monthStart_succ, monthLength]
  omega

theorem rolledForward_succ (months : ℤ) :
    rolledForward anchor months + 28 ≤ rolledForward anchor (months + 1) := by
  obtain ⟨hself, hday⟩ := monthStart_monthNumber anchor
  have hlen := daysInMonth_bounds ((monthNumber anchor + months) / 12)
    ((monthNumber anchor + months) % 12 + 1)
  have hlen' := daysInMonth_bounds ((monthNumber anchor + months + 1) / 12)
    ((monthNumber anchor + months + 1) % 12 + 1)
  rw [rolledForward_eq, rolledForward_eq, ← add_assoc, monthStart_succ (_ + 1), monthStart_succ,
    monthLength, monthLength]
  omega

theorem recurrenceDay_succ (unit : CadenceUnit) (index : ℕ) :
    recurrenceDay anchor unit index + 7 ≤ recurrenceDay anchor unit (index + 1) := by
  cases unit with
  | week =>
    simp only [recurrenceDay]
    omega
  | month =>
    simp only [recurrenceDay]
    have hsucc := rolledForward_succ anchor index
    push_cast
    omega

theorem recurrenceDay_add (unit : CadenceUnit) (index steps : ℕ) :
    recurrenceDay anchor unit index + 7 * steps ≤ recurrenceDay anchor unit (index + steps) := by
  induction steps with
  | zero => simp
  | succ steps ih =>
    have hsucc := recurrenceDay_succ anchor unit (index + steps)
    rw [← add_assoc]
    push_cast
    omega

end Recurrence

section Estimate

variable {anchor localDay : ℤ} {cadence : PayCadence} {n : ℕ}

theorem estimate_before {units : ℤ} {step : ℕ} (hpos : 0 < step)
    (hn : n < (units / step - 1).toNat) : ((step * n : ℕ) : ℤ) + 2 ≤ units := by
  have hstep : (0 : ℤ) < step := by exact_mod_cast hpos
  have hdiv := Int.mul_ediv_add_emod units step
  have hmod := Int.emod_nonneg units hstep.ne'
  have hle : (step : ℤ) * (n + 2) ≤ step * (units / step) :=
    Int.mul_le_mul_of_nonneg_left (by omega) hstep.le
  rw [Int.mul_add] at hle
  push_cast
  omega

theorem estimate_after (units : ℤ) {step : ℕ} (hpos : 0 < step) :
    units + 1 ≤ ((step * ((units / step - 1).toNat + 2) : ℕ) : ℤ) := by
  have hstep : (0 : ℤ) < step := by exact_mod_cast hpos
  have hdiv := Int.mul_ediv_add_emod units step
  have hmod := Int.emod_lt_of_pos units hstep
  have hle : (step : ℤ) * (units / step + 1) ≤ step * ((units / step - 1).toNat + 2) :=
    Int.mul_le_mul_of_nonneg_left (by omega) hstep.le
  rw [Int.mul_add] at hle
  push_cast
  omega

/-- Every payday before the estimate lies at least two days before the day. -/
theorem indexEstimate_before (hn : n < indexEstimate anchor cadence localDay) :
    recurrenceDay anchor cadence.unit (cadence.step * n) + 2 ≤ localDay := by
  unfold indexEstimate at hn
  cases hunit : cadence.unit with
  | week =>
    simp only [hunit] at hn
    have hle := estimate_before cadence.step_pos hn
    simp only [recurrenceDay]
    omega
  | month =>
    simp only [hunit] at hn
    have hle := estimate_before cadence.step_pos hn
    obtain ⟨-, hto⟩ := rolledForward_bounds anchor ((cadence.step * n : ℕ) : ℤ)
    obtain ⟨hself, -⟩ := monthStart_monthNumber localDay
    obtain ⟨-, hday⟩ := fromOrdinal_pos localDay
    have hmono : monthStart (monthNumber anchor + ((cadence.step * n : ℕ) : ℤ) + 1) ≤
        monthStart (monthNumber localDay - 1) := by
      apply monthStart_mono.monotone
      unfold monthNumber
      omega
    have hsucc := monthStart_succ (monthNumber localDay - 1)
    have hlen := daysInMonth_bounds ((monthNumber localDay - 1) / 12)
      ((monthNumber localDay - 1) % 12 + 1)
    rw [Int.sub_add_cancel, monthLength] at hsucc
    simp only [recurrenceDay]
    omega

/-- The payday two after the estimate lies behind the day. -/
theorem indexEstimate_after (anchor localDay : ℤ) (cadence : PayCadence) : localDay + 1 ≤
    recurrenceDay anchor cadence.unit
      (cadence.step * (indexEstimate anchor cadence localDay + 2)) := by
  unfold indexEstimate
  cases hunit : cadence.unit with
  | week =>
    have hle := estimate_after ((localDay - anchor) / 7) cadence.step_pos
    simp only [recurrenceDay]
    omega
  | month =>
    simp only [recurrenceDay]
    generalize hmonths : ((fromOrdinal localDay).year - (fromOrdinal anchor).year) * 12 +
      ((fromOrdinal localDay).month - (fromOrdinal anchor).month) = months
    have hle := estimate_after months cadence.step_pos
    generalize cadence.step * ((months / cadence.step - 1).toNat + 2) = index at hle ⊢
    obtain ⟨hfrom, -⟩ := rolledForward_bounds anchor index
    obtain ⟨hself, hday⟩ := monthStart_monthNumber localDay
    have hmono : monthStart (monthNumber localDay + 1) ≤ monthStart (monthNumber anchor + index) := by
      apply monthStart_mono.monotone
      unfold monthNumber
      omega
    rw [monthStart_succ] at hmono
    omega

end Estimate

section Search

variable (zone : PaydayZone) (anchor : ℤ) (cadence : PayCadence)

theorem scheduleBoundary_strictMono : StrictMono (scheduleBoundary zone anchor cadence) := by
  apply strictMono_nat_of_lt_succ
  intro n
  apply zone.startOfDate_lt
  have hadd := recurrenceDay_add anchor cadence.unit (cadence.step * n) cadence.step
  have hpos := cadence.step_pos
  rw [Nat.mul_succ]
  omega

/-- The search finds the least boundary after an instant, and looks at no more than three. -/
theorem firstIndexAfterWithin_spec (steps : ℕ) (hsteps : 3 ≤ steps) (instant : Instant) :
    ∃ n, firstIndexAfterWithin zone anchor cadence steps instant = .ok n ∧
      LeastAfter (scheduleBoundary zone anchor cadence) instant n := by
  generalize hlocal : zone.localDate instant = localDay
  have hlast : instant < scheduleBoundary zone anchor cadence
      (indexEstimate anchor cadence localDay + 2) := by
    by_contra hle
    have hdate := zone.le_localDate _ _ (not_lt.1 hle)
    have hafter := indexEstimate_after anchor localDay cadence
    omega
  have hbefore : ∀ m < indexEstimate anchor cadence localDay,
      scheduleBoundary zone anchor cadence m ≤ instant := by
    intro m hm
    apply zone.startOfDate_le
    rw [hlocal]
    exact indexEstimate_before hm
  have hfuel : indexEstimate anchor cadence localDay + 2 <
      indexEstimate anchor cadence localDay + steps := by omega
  obtain ⟨n, hfind, -, -, hleast⟩ := exists_leastAfter hbefore hlast hfuel
  refine ⟨n, ?_, hleast⟩
  rw [firstIndexAfterWithin, hlocal, hfind]
  rfl

theorem firstBoundaryAfter_eq {instant : Instant} {n : ℕ}
    (hleast : LeastAfter (scheduleBoundary zone anchor cadence) instant n) :
    firstBoundaryAfter zone anchor cadence instant =
      .ok (scheduleBoundary zone anchor cadence n) := by
  obtain ⟨m, hm, hleast'⟩ :=
    firstIndexAfterWithin_spec zone anchor cadence maxBoundarySteps (by decide) instant
  rw [firstBoundaryAfter, firstIndexAfter, hm, hleast.unique hleast']
  rfl

/-- A class that keeps UTC, its days numbered as `date.toordinal` numbers them. -/
def utcPaydays : PaydayZone where
  localDate t := t / 86400000000 + 719163
  startOfDate d := (d - 719163) * 86400000000
  startOfDate_localDate := by
    intro d
    simp
  le_localDate t d h := by
    have hle := Int.le_ediv_of_mul_le (by decide) h
    omega
  startOfDate_le t d h := by
    apply Int.mul_le_of_le_ediv (by decide)
    omega
  startOfDate_lt d d' h := Int.mul_lt_mul_of_pos_right (by omega) (by decide)

example : firstBoundaryAfter utcPaydays (toOrdinal ⟨2026, 1, 31⟩) (payCadence .monthly)
    (utcPaydays.startOfDate (toOrdinal ⟨2026, 3, 1⟩)) =
      .ok (utcPaydays.startOfDate (toOrdinal ⟨2026, 3, 31⟩)) := by decide +kernel

end Search

end TokenHub.Payroll
