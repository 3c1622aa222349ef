import TokenHub.Rent.Configuration
import TokenHub.Time.ClassDays

set_option autoImplicit false

namespace TokenHub.Rent

open Ledger Lib.Checks Lib.WallClock
open Payroll (monthStart monthLength monthNumber monthStart_mono monthStart_succ
  monthStart_monthNumber)
open Time (midnight startOfDate monthNumber_bounds)

/-- How far apart the due dates of a schedule lie. A month cadence may have a due day of its
own. -/
inductive Cadence
  | days (n : ℤ)
  | months (n : ℤ) (dueDay : Option ℤ)
deriving DecidableEq, Repr

def RentSettings.cadence? (settings : RentSettings) : Option Cadence :=
  match normalized settings.frequencyType "monthly" with
  | "daily" => some (.days 1)
  | "weekly" => some (.days 7)
  | "monthly" =>
    let dueDay := settings.dueDayOfMonth.getD 0
    if dueDay = 0 then some (.months 1 none)
    else if 0 < dueDay then some (.months 1 (some dueDay)) else none
  | "custom" =>
    let value := settings.customFrequencyValue.getD 0
    if 0 < value then
      match normalized settings.customFrequencyUnit "days" with
      | "days" => some (.days value)
      | "weeks" => some (.days (7 * value))
      | "months" => some (.months value none)
      | _ => none
    else none
  | _ => none

def dueDates (settings : RentSettings) (first : ℤ) : ℕ → Except Raise ℤ
  | 0 => .ok first
  | k + 1 => do
    let due ← dueDates settings first k
    advanceDueDate settings due

/-- The boundary of a rent period: the start of its due date. -/
def rentBoundary (Z : Zone) (settings : RentSettings) (first : ℤ) (k : ℕ) : Except Raise Instant :=
  (dueDates settings first k).map (startOfDate Z)

/-- The due date `k` periods after the first, reckoned from the first. -/
def Cadence.dueOn (first : ℤ) (k : ℕ) : Cadence → ℤ
  | .days n => first + n * k
  | .months n dueDay =>
    if k = 0 then first
    else
      let month := monthNumber first + n * k
      monthStart month + min (dueDay.getD (fromOrdinal first).day) (monthLength month) - 1

section Steps

def Cadence.next (due : ℤ) : Cadence → ℤ
  | .days n => due + n
  | .months n dueDay =>
    let month := monthNumber due + n
    monthStart month + min (dueDay.getD (fromOrdinal due).day) (monthLength month) - 1

theorem monthLength_pos (month : ℤ) : 1 ≤ monthLength month := by
  have := (Payroll.daysInMonth_bounds (month / 12) (month % 12 + 1)).1
  rw [monthLength]
  omega

theorem toOrdinal_of_month (month date : ℤ) :
    toOrdinal ⟨month / 12, month % 12 + 1, date⟩ = monthStart month + date - 1 := by
  simp only [toOrdinal, monthStart]
  omega

/-- The next-date function takes one step of the cadence. -/
theorem advanceDueDate_eq {settings : RentSettings} {c : Cadence}
    (hc : settings.cadence? = some c) (due : ℤ) : advanceDueDate settings due = .ok (c.next due) := by
  have hday := (fromOrdinal_pos due).2
  have hclamp : ∀ d, 1 ≤ d → clampDayOfMonth ((monthNumber due + 1) / 12)
      ((monthNumber due + 1) % 12 + 1) d =
        .ok (monthStart (monthNumber due + 1) +
          min d (monthLength (monthNumber due + 1)) - 1) := by
    intro d hd
    have hlen := monthLength_pos (monthNumber due + 1)
    rw [clampDayOfMonth, ← toOrdinal_of_month, require_bind_eq_ok]
    rw [monthLength] at hlen
    exact ⟨le_min hd hlen, rfl⟩
  unfold RentSettings.cadence? at hc
  unfold advanceDueDate
  split at hc
  · next h =>
    try simp only [h]
    obtain rfl := Option.some.inj hc
    rfl
  · next h =>
    try simp only [h]
    obtain rfl := Option.some.inj hc
    rfl
  · next h =>
    simp only [h, monthsAfter]
    dsimp only at hc
    cases hdue : settings.dueDayOfMonth with
    | none =>
      rw [hdue] at hc
      obtain rfl := Option.some.inj hc
      exact hclamp _ hday
    | some d =>
      rw [hdue, Option.getD_some] at hc
      dsimp only
      split_ifs at hc with hzero hpos
      · obtain rfl := Option.some.inj hc
        rw [if_pos hzero]
        exact hclamp _ hday
      · obtain rfl := Option.some.inj hc
        rw [if_neg hzero]
        exact hclamp _ (by omega)
  · next h =>
    simp only [h]
    dsimp only at hc
    split_ifs at hc with hpos
    rw [require_of hpos, ok_bind]
    split at hc
    · next hunit =>
      try simp only [hunit]
      obtain rfl := Option.some.inj hc
      rfl
    · next hunit =>
      try simp only [hunit]
      obtain rfl := Option.some.inj hc
      rfl
    · next hunit =>
      simp only [hunit, monthsAfter, toOrdinal_of_month]
      obtain rfl := Option.some.inj hc
      rfl
    · cases hc
  · cases hc

theorem dueDates_eq {settings : RentSettings} {c : Cadence} (hc : settings.cadence? = some c)
    (first : ℤ) (k : ℕ) : dueDates settings first k = .ok ((c.next ·)^[k] first) := by
  induction k with
  | zero => rfl
  | succ k ih =>
    rw [dueDates, ih, ok_bind, advanceDueDate_eq hc, Function.iterate_succ_apply']

end Steps

section Months

theorem monthNumber_eq {n month : ℤ} (hstart : monthStart month ≤ n)
    (hend : n < monthStart (month + 1)) : monthNumber n = month := by
  obtain ⟨hstart', hend'⟩ := monthNumber_bounds n
  have hup := monthStart_mono.lt_iff_lt.1 (hstart.trans_lt hend')
  have hdown := monthStart_mono.lt_iff_lt.1 (hstart'.trans_lt hend)
  omega

theorem fromOrdinal_of_month {month d : ℤ} (hpos : 1 ≤ d) (hlen : d ≤ monthLength month) :
    monthNumber (monthStart month + d - 1) = month ∧
      (fromOrdinal (monthStart month + d - 1)).day = d := by
  have hsucc := monthStart_succ month
  have hmonth : monthNumber (monthStart month + d - 1) = month :=
    monthNumber_eq (by omega) (by omega)
  have hday := (monthStart_monthNumber (monthStart month + d - 1)).1
  rw [hmonth] at hday
  exact ⟨hmonth, by omega⟩

theorem monthLength_periodic (month q : ℤ) : monthLength (month + 4800 * q) = monthLength month := by
  have hyear : (month + 4800 * q) / 12 = month / 12 + 400 * q := by omega
  have hmonth : (month + 4800 * q) % 12 = month % 12 := by omega
  have hleap : isLeapYear (month / 12 + 400 * q) = isLeapYear (month / 12) := by
    simp only [isLeapYear, decide_eq_decide]
    omega
  rw [monthLength, monthLength, hyear, hmonth, daysInMonth, daysInMonth, monthLengths,
    monthLengths, hleap]

variable {n first : ℤ} {dueDay : Option ℤ} {k : ℕ}

/-- Where a step by months leads: the month is that many months on, and the day is the due day,
clamped to the month. -/
theorem next_months (due : ℤ) (hdue : ∀ d ∈ dueDay, 1 ≤ d) :
    monthNumber ((Cadence.months n dueDay).next due) = monthNumber due + n ∧
      (fromOrdinal ((Cadence.months n dueDay).next due)).day =
        min (dueDay.getD (fromOrdinal due).day) (monthLength (monthNumber due + n)) := by
  apply fromOrdinal_of_month
  · apply le_min _ (monthLength_pos _)
    cases dueDay with
    | none => exact (fromOrdinal_pos due).2
    | some d => exact hdue d rfl
  · exact min_le_right _ _

theorem monthNumber_iterate (hdue : ∀ d ∈ dueDay, 1 ≤ d) (k : ℕ) :
    monthNumber (((Cadence.months n dueDay).next ·)^[k] first) = monthNumber first + n * k := by
  induction k with
  | zero => simp
  | succ k ih =>
    rw [Function.iterate_succ_apply', (next_months _ hdue).1, ih]
    push_cast
    rw [Int.mul_add, mul_one, add_assoc]

theorem ordinal_eq (date : ℤ) : date = monthStart (monthNumber date) + (fromOrdinal date).day - 1 :=
  (monthStart_monthNumber date).1.symm

/-- A due day of its own is kept: a month that is too short does not move it for the next one. -/
theorem iterate_dueDay {d : ℤ} (hd : 1 ≤ d) (k : ℕ) :
    ((Cadence.months n (some d)).next ·)^[k] first =
      (Cadence.months n (some d)).dueOn first k := by
  have hdue : ∀ d' ∈ some d, 1 ≤ d' := fun d' h ↦ by
    rw [← Option.some.inj h]
    exact hd
  cases k with
  | zero => rfl
  | succ k =>
    rw [Function.iterate_succ_apply', Cadence.next, Cadence.dueOn, if_neg (Nat.succ_ne_zero k)]
    dsimp only
    rw [monthNumber_iterate hdue, Option.getD_some, Option.getD_some]
    push_cast
    rw [Int.mul_add, mul_one, add_assoc]

/-- Without a due day of its own, the day of month only ever goes down. -/
theorem day_iterate_antitone {i j : ℕ} (hij : i ≤ j) :
    (fromOrdinal (((Cadence.months n none).next ·)^[j] first)).day ≤
      (fromOrdinal (((Cadence.months n none).next ·)^[i] first)).day := by
  induction hij with
  | refl => exact le_rfl
  | @step j _ ih =>
    rw [Function.iterate_succ_apply', (next_months _ (by simp)).2]
    exact (min_le_left _ _).trans ih

/-- The day of the first due date is in every month that the cadence leads to. -/
def EveryMonthHas (first n : ℤ) : Prop :=
  ∀ k : ℕ, (fromOrdinal first).day ≤ monthLength (monthNumber first + n * k)

theorem iterate_keeps_day (h : EveryMonthHas first n) (k : ℕ) :
    (fromOrdinal (((Cadence.months n none).next ·)^[k] first)).day = (fromOrdinal first).day := by
  induction k with
  | zero => rfl
  | succ k ih =>
    rw [Function.iterate_succ_apply', (next_months _ (by simp)).2, monthNumber_iterate (by simp),
      Option.getD_none, ih]
    have hmonth := h (k + 1)
    push_cast at hmonth
    rw [Int.mul_add, mul_one, ← add_assoc] at hmonth
    exact min_eq_left hmonth

theorem dueOn_months_day (hk : k ≠ 0) : (Cadence.months n none).dueOn first k =
    monthStart (monthNumber first + n * k) +
      min (fromOrdinal first).day (monthLength (monthNumber first + n * k)) - 1 := by
  rw [Cadence.dueOn, if_neg hk]
  rfl

/-- The due dates by months are those reckoned from the first exactly where its day is in every
month that they lead to. -/
theorem iterate_months_iff : (∀ k, ((Cadence.months n none).next ·)^[k] first =
    (Cadence.months n none).dueOn first k) ↔ EveryMonthHas first n := by
  constructor
  · intro h j
    by_contra hshort
    rw [not_le] at hshort
    -- The month of the first due date comes again, long after the short month.
    have hlater : j ≤ 4800 * (j + 1) := by omega
    have hday : (fromOrdinal (((Cadence.months n none).next ·)^[4800 * (j + 1)] first)).day ≤
        (fromOrdinal (((Cadence.months n none).next ·)^[j] first)).day :=
      day_iterate_antitone hlater
    have hj := (monthStart_monthNumber (((Cadence.months n none).next ·)^[j] first)).2
    rw [monthNumber_iterate (by simp)] at hj
    have hmonth : monthNumber first + n * (4800 * (j + 1) : ℕ) =
        monthNumber first + 4800 * (n * (j + 1)) := by
      push_cast
      rw [← mul_assoc, mul_comm n 4800, mul_assoc]
    have hfirst := (monthStart_monthNumber first).2
    have hpos := (fromOrdinal_pos first).2
    rw [h, dueOn_months_day (by omega), hmonth, monthLength_periodic, min_eq_left hfirst,
      (fromOrdinal_of_month hpos (by rwa [monthLength_periodic])).2] at hday
    omega
  · intro h k
    by_cases hk : k = 0
    · rw [hk]
      rfl
    · rw [ordinal_eq (((Cadence.months n none).next ·)^[k] first), iterate_keeps_day h,
        monthNumber_iterate (by simp), dueOn_months_day hk, min_eq_left (h k)]

end Months

section Boundaries

/-- The zones of the library: the clock is never a day or more ahead or behind. -/
structure ScheduleZone extends Zone where
  bounded : ∀ t, |(toZone.settingAt t).offset| < Time.day

variable {Z : Zone} {settings : RentSettings} {c : Cadence} {first : ℤ}

/-- How far ahead the clock is that the midnight of a date is read with. -/
def midnightOffset (Z : Zone) (date : ℤ) : ℤ := midnight date - startOfDate Z date

/-- Between the midnight of a date and the next, the clock is put forward by a day or more. -/
def SkipsDay (Z : Zone) (date : ℤ) : Prop :=
  midnightOffset Z date + Time.day ≤ midnightOffset Z (date + 1)

def Cadence.Forward : Cadence → Prop
  | .days n => 1 ≤ n
  | .months n dueDay => 1 ≤ n ∧ ∀ d ∈ dueDay, 1 ≤ d

theorem cadence_forward (hc : settings.cadence? = some c) : c.Forward := by
  unfold RentSettings.cadence? at hc
  split at hc
  · obtain rfl := Option.some.inj hc
    exact le_rfl
  · obtain rfl := Option.some.inj hc
    exact (by decide : (1 : ℤ) ≤ 7)
  · dsimp only at hc
    split_ifs at hc with hzero hpos
    · obtain rfl := Option.some.inj hc
      exact ⟨le_rfl, by simp⟩
    · obtain rfl := Option.some.inj hc
      refine ⟨le_rfl, fun d hd ↦ ?_⟩
      rw [← Option.some.inj hd]
      exact hpos
  · dsimp only at hc
    split_ifs at hc with hpos
    split at hc
    · obtain rfl := Option.some.inj hc
      exact hpos
    · obtain rfl := Option.some.inj hc
      rw [Cadence.Forward]
      omega
    · obtain rfl := Option.some.inj hc
      exact ⟨hpos, by simp⟩
    · cases hc
  · cases hc

theorem dueOn_months_bounds {n : ℤ} {dueDay : Option ℤ} (hdue : ∀ d ∈ dueDay, 1 ≤ d) (k : ℕ) :
    monthStart (monthNumber first + n * k) ≤ (Cadence.months n dueDay).dueOn first k ∧
      (Cadence.months n dueDay).dueOn first k < monthStart (monthNumber first + n * k + 1) := by
  by_cases hk : k = 0
  · subst hk
    simpa [Cadence.dueOn] using monthNumber_bounds first
  · rw [Cadence.dueOn, if_neg hk]
    dsimp only
    have hsucc := monthStart_succ (monthNumber first + n * k)
    have hlen := monthLength_pos (monthNumber first + n * k)
    have hpos : 1 ≤ dueDay.getD (fromOrdinal first).day := by
      cases dueDay with
      | none => exact (fromOrdinal_pos first).2
      | some d => exact hdue d rfl
    omega

/-- The due dates that are reckoned from the first get later and later. -/
theorem dueOn_lt_succ (hc : c.Forward) (first : ℤ) (k : ℕ) :
    c.dueOn first k < c.dueOn first (k + 1) := by
  cases c with
  | days n =>
    rw [Cadence.Forward] at hc
    simp only [Cadence.dueOn]
    push_cast
    rw [Int.mul_add, mul_one]
    omega
  | months n dueDay =>
    obtain ⟨hn, hdue⟩ := hc
    have hlow : (Cadence.months n dueDay).dueOn first k <
        monthStart (monthNumber first + n * k + 1) := (dueOn_months_bounds hdue k).2
    have hhigh : monthStart (monthNumber first + n * (k + 1 : ℕ)) ≤
        (Cadence.months n dueDay).dueOn first (k + 1) := (dueOn_months_bounds hdue (k + 1)).1
    have hmonth : monthNumber first + n * k + 1 ≤ monthNumber first + n * (k + 1 : ℕ) := by
      push_cast
      rw [Int.mul_add, mul_one]
      omega
    exact hlow.trans_le ((monthStart_mono.monotone hmonth).trans hhigh)

theorem midnightOffset_lt (Z : ScheduleZone) (date : ℤ) : |midnightOffset Z.toZone date| < Time.day := by
  rcases Z.localize_offset (midnight date) with h | ⟨t, h⟩
  · rw [midnightOffset, startOfDate, h, sub_self]
    decide
  · have hoffset : midnightOffset Z.toZone date = (Z.settingAt t).offset := by
      rw [midnightOffset, startOfDate, h]
      omega
    rw [hoffset]
    exact Z.bounded t

theorem start_lt_iff {m m' s s' n : ℤ} (h : m' - m = n) : s < s' ↔ ¬ m - s + n ≤ m' - s' := by
  omega

theorem start_lt {m m' s s' n : ℤ} (h : 2 * n ≤ m' - m) (hs : -n < m - s) (hs' : m' - s' < n) :
    s < s' := by
  omega

/-- Later dates start later, but for two in a row of which the clock skips the first. -/
theorem startOfDate_lt_iff (Z : ScheduleZone) {date other : ℤ} (hlt : date < other) :
    startOfDate Z.toZone date < startOfDate Z.toZone other ↔
      (other = date + 1 → ¬ SkipsDay Z.toZone date) := by
  have hdate := abs_lt.1 (midnightOffset_lt Z date)
  have hother := abs_lt.1 (midnightOffset_lt Z other)
  have hmidnights : midnight other - midnight date = (other - date) * Time.day := by
    rw [midnight, midnight, ← Int.sub_mul]
    congr 1
    omega
  by_cases hnext : other = date + 1
  · rw [hnext] at hmidnights ⊢
    rw [add_sub_cancel_left, one_mul] at hmidnights
    simp only [forall_const]
    exact start_lt_iff hmidnights
  · have htwo : 2 * Time.day ≤ (other - date) * Time.day := by
      apply Int.mul_le_mul_of_nonneg_right _ (by decide)
      omega
    simp only [hnext, false_imp_iff, iff_true]
    exact start_lt (hmidnights ▸ htwo) hdate.1 hother.2

/-- The due dates are those reckoned from the first, and their boundaries get later and later. -/
structure DueDatesHold (Z : Zone) (settings : RentSettings) (c : Cadence) (first : ℤ) : Prop where
  direct : ∀ k, dueDates settings first k = .ok (c.dueOn first k) ∧
    rentBoundary Z settings first k = .ok (startOfDate Z (c.dueOn first k))
  increasing : ∀ k a b, rentBoundary Z settings first k = .ok a →
    rentBoundary Z settings first (k + 1) = .ok b → a < b

/-- When the day of the first due date does not get lost. -/
def Cadence.KeepsDay (first : ℤ) : Cadence → Prop
  | .months n none => EveryMonthHas first n
  | _ => True

theorem iterate_iff (hc : c.Forward) : (∀ k, (c.next ·)^[k] first = c.dueOn first k) ↔
    c.KeepsDay first := by
  match c with
  | .days n =>
    simp only [Cadence.KeepsDay, iff_true]
    intro k
    induction k with
    | zero => simp [Cadence.dueOn]
    | succ k ih =>
      rw [Function.iterate_succ_apply', ih]
      simp only [Cadence.next, Cadence.dueOn]
      push_cast
      rw [Int.mul_add, mul_one, add_assoc]
  | .months n none => exact iterate_months_iff
  | .months n (some d) =>
    simp only [Cadence.KeepsDay, iff_true]
    exact fun k ↦ iterate_dueDay (hc.2 d rfl) k

/-- Rent due dates do not drift, and their boundaries get later and later, exactly where the day of
the first due date is in every month that the cadence leads to, unless the cadence counts days or
has a due day of its own, and where the class clock skips no due date that another follows on the
next day. -/
theorem rent_due_days_iff (Z : ScheduleZone) (settings : RentSettings) (c : Cadence) (first : ℤ)
    (hc : settings.cadence? = some c) : DueDatesHold Z.toZone settings c first ↔
      c.KeepsDay first ∧ ∀ k, c.dueOn first (k + 1) = c.dueOn first k + 1 →
        ¬ SkipsDay Z.toZone (c.dueOn first k) := by
  have hforward := cadence_forward hc
  rw [← iterate_iff hforward]
  constructor
  · intro h
    have hiterate : ∀ k, (c.next ·)^[k] first = c.dueOn first k := by
      intro k
      have hdirect := (h.direct k).1
      rw [dueDates_eq hc, Except.ok.injEq] at hdirect
      exact hdirect
    refine ⟨hiterate, fun k ↦ ?_⟩
    have hlt := h.increasing k _ _ (h.direct k).2 (h.direct (k + 1)).2
    exact (startOfDate_lt_iff Z (dueOn_lt_succ hforward first k)).1 hlt
  · rintro ⟨hiterate, hskips⟩
    have hdirect : ∀ k, rentBoundary Z.toZone settings first k =
        .ok (startOfDate Z.toZone (c.dueOn first k)) := by
      intro k
      rw [rentBoundary, dueDates_eq hc, hiterate]
      rfl
    refine ⟨fun k ↦ ⟨by rw [dueDates_eq hc, hiterate], hdirect k⟩, fun k a b ha hb ↦ ?_⟩
    rw [hdirect, Except.ok.injEq] at ha hb
    rw [← ha, ← hb]
    exact (startOfDate_lt_iff Z (dueOn_lt_succ hforward first k)).2 (hskips k)

/-- Rent that is due every month, counted from its first due date. -/
def monthlyRent : RentSettings :=
  { RentSettings.default with customFrequencyUnit := some "months", customFrequencyValue := some 1,
                              frequencyType := some "custom" }

def utc : ScheduleZone where
  first := ⟨0, true⟩
  changes := []
  ordered := .nil
  bounded := fun _ ↦ (by decide : |(0 : ℤ)| < Time.day)

theorem not_skipsDay_utc (date : ℤ) : ¬ SkipsDay utc.toZone date := by
  have hlocal : ∀ m, utc.toZone.localize m = m := by
    intro m
    rcases Zone.localize_offset utc.toZone m with h | ⟨t, h⟩
    · exact h
    · rw [h]
      exact sub_zero m
  simp [SkipsDay, midnightOffset, startOfDate, hlocal, Time.day]

theorem rent_due_days_iff_weekly : DueDatesHold utc.toZone
    { monthlyRent with frequencyType := some "weekly" } (.days 7) (toOrdinal ⟨2026, 1, 31⟩) :=
  (rent_due_days_iff utc _ _ _ (by decide)).2 ⟨trivial, fun _ _ ↦ not_skipsDay_utc _⟩

/-- Due every month from January 31 on, rent is due on March 28. -/
theorem rent_due_day_drifts :
    let first := toOrdinal ⟨2026, 1, 31⟩
    monthlyRent.cadence? = some (.months 1 none) ∧
      dueDates monthlyRent first 1 = .ok (toOrdinal ⟨2026, 2, 28⟩) ∧
      dueDates monthlyRent first 2 = .ok (toOrdinal ⟨2026, 3, 28⟩) ∧
      (Cadence.months 1 none).dueOn first 2 = toOrdinal ⟨2026, 3, 31⟩ ∧
      ¬ DueDatesHold utc.toZone monthlyRent (.months 1 none) first := by
  have htwo : dueDates monthlyRent (toOrdinal ⟨2026, 1, 31⟩) 2 = .ok (toOrdinal ⟨2026, 3, 28⟩) := by
    rfl
  have hdirect : (Cadence.months 1 none).dueOn (toOrdinal ⟨2026, 1, 31⟩) 2 =
      toOrdinal ⟨2026, 3, 31⟩ := by decide
  refine ⟨by decide, rfl, htwo, hdirect, fun h ↦ ?_⟩
  have := (h.direct 2).1
  rw [htwo, hdirect] at this
  exact absurd (Except.ok.inj this) (by decide)

end Boundaries

end TokenHub.Rent
