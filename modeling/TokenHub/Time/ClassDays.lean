import TokenHub.Lib.WallClock
import TokenHub.Payroll.Boundaries

set_option autoImplicit false

namespace TokenHub.Time

open Lib.WallClock Lib.Checks
open Rent (Instant ClassZone CivilDate toOrdinal fromOrdinal normalized)
open Payroll (monthStart monthNumber monthStart_mono monthStart_monthNumber)

def day : ℤ := 86400000000

/-- The zone of a class: no change of its clock is of more than a day. -/
structure ClassTimezone extends Zone where
  small : ∀ u ∈ toZone.turns, |u.after.offset - u.before.offset| ≤ day

/-- `astimezone(tz).date()`, as a day number. Day 719163 is the epoch's. -/
def localDate (Z : Zone) (t : Instant) : ℤ := Z.label day t + 719163

/-- `datetime.combine(date, time.min)`. -/
def midnight (date : ℤ) : ℤ := (date - 719163) * day

/-- `tz.localize(datetime.combine(date, time.min))`. -/
def startOfDate (Z : Zone) (date : ℤ) : Instant := Z.localize (midnight date)

structure Boundaries where
  boundaryStartUtc : Instant
  boundaryEndUtc : Instant
deriving DecidableEq, Repr

def Boundaries.Holds (b : Boundaries) (t : Instant) : Prop :=
  b.boundaryStartUtc ≤ t ∧ t < b.boundaryEndUtc

/-- `_evaluation_day_boundaries`: both ends are localized independently. -/
def evaluationDayBoundaries (Z : Zone) (evaluationDate : Option ℤ) (reference : Instant) :
    Boundaries :=
  let date := evaluationDate.getD (localDate Z reference)
  ⟨startOfDate Z date, startOfDate Z (date + 1)⟩

inductive Period
  | day
  | week
  | month
deriving DecidableEq, Repr

def Period.ofText (period : Option String) : Option Period :=
  let text := normalized period ""
  if text = "day" then some .day
  else if text = "week" then some .week
  else if text = "month" then some .month
  else none

def Period.days : Period → ℤ → ℤ × ℤ
  | .day, date => (date, date + 1)
  | .week, date => (date - (date + 6) % 7, date - (date + 6) % 7 + 7)
  | .month, date =>
    let d := fromOrdinal date
    (toOrdinal ⟨d.year, d.month, 1⟩,
      if d.month = 12 then toOrdinal ⟨d.year + 1, 1, 1⟩ else toOrdinal ⟨d.year, d.month + 1, 1⟩)

inductive TemporalResolutionError
  | temporalResolutionError (message : String)
deriving DecidableEq, Repr

def evaluationPeriodBoundaries (Z : Zone) (period : Option String) (reference : Instant) :
    Except TemporalResolutionError Boundaries := do
  let p ← demand (Period.ofText period)
    (.temporalResolutionError "period must be one of: day, week, month")
  let (startDay, endDay) := p.days (localDate Z reference)
  return ⟨startOfDate Z startDay, startOfDate Z endDay⟩

def beforeCurrentClassDay (Z : Zone) (instant reference : Instant) : Bool :=
  instant < (evaluationDayBoundaries Z none reference).boundaryStartUtc

section Periods

structure Blocks (days : ℤ → ℤ × ℤ) : Prop where
  holds : ∀ date, (days date).1 ≤ date ∧ date < (days date).2
  same : ∀ date other, (days date).1 ≤ other → other < (days date).2 → days other = days date

variable {days : ℤ → ℤ × ℤ}

theorem Blocks.next (h : Blocks days) (date : ℤ) : (days (days date).2).1 = (days date).2 := by
  obtain ⟨hstart, hend⟩ := h.holds date
  obtain ⟨hstart', hend'⟩ := h.holds (days date).2
  by_contra hne
  have hlast := h.same date ((days date).2 - 1) (by omega) (by omega)
  have hlast' := h.same (days date).2 ((days date).2 - 1) (by omega) (by omega)
  rw [← hlast', hlast] at hend'
  omega

theorem Blocks.mono (h : Blocks days) {date other : ℤ} (hle : date ≤ other) :
    (days date).1 ≤ (days other).1 := by
  obtain ⟨hstart, hend⟩ := h.holds date
  obtain ⟨hstart', hend'⟩ := h.holds other
  by_contra hlt
  have hfirst := h.same other (days date).1 (by omega) (by omega)
  have hself := h.same date (days date).1 le_rfl (by omega)
  rw [← hself, hfirst] at hlt
  exact hlt le_rfl

theorem month_days (date : ℤ) : Period.month.days date =
    (monthStart (monthNumber date), monthStart (monthNumber date + 1)) := by
  obtain ⟨hle, -⟩ := Payroll.fromOrdinal_le date
  have hpos := (Rent.fromOrdinal_pos date).1
  simp only [Period.days, monthStart, monthNumber]
  generalize fromOrdinal date = d at *
  have hyear : (d.year * 12 + (d.month - 1)) / 12 = d.year := by omega
  have hmonth : (d.year * 12 + (d.month - 1)) % 12 + 1 = d.month := by omega
  rw [hyear, hmonth]
  split_ifs with hlast
  · rw [show (d.year * 12 + (d.month - 1) + 1) / 12 = d.year + 1 by omega,
      show (d.year * 12 + (d.month - 1) + 1) % 12 + 1 = 1 by omega]
  · rw [show (d.year * 12 + (d.month - 1) + 1) / 12 = d.year by omega,
      show (d.year * 12 + (d.month - 1) + 1) % 12 + 1 = d.month + 1 by omega]

theorem monthNumber_bounds (date : ℤ) :
    monthStart (monthNumber date) ≤ date ∧ date < monthStart (monthNumber date + 1) := by
  obtain ⟨hday, hlength⟩ := monthStart_monthNumber date
  have hpos := (Rent.fromOrdinal_pos date).2
  have hnext := Payroll.monthStart_succ (monthNumber date)
  exact ⟨by omega, by omega⟩

theorem Period.blocks (p : Period) : Blocks p.days := by
  cases p with
  | day =>
    refine ⟨fun date ↦ ⟨le_rfl, by simp [Period.days]⟩, fun date other hle hlt ↦ ?_⟩
    simp only [Period.days] at hle hlt ⊢
    obtain rfl : other = date := by omega
    rfl
  | week =>
    refine ⟨fun date ↦ ⟨by simp only [Period.days]; omega, by simp only [Period.days]; omega⟩, ?_⟩
    intro date other hle hlt
    simp only [Period.days] at hle hlt ⊢
    have hsame : other - (other + 6) % 7 = date - (date + 6) % 7 := by omega
    rw [hsame]
  | month =>
    refine ⟨fun date ↦ ?_, fun date other hle hlt ↦ ?_⟩
    · rw [month_days]
      exact monthNumber_bounds date
    · rw [month_days] at hle hlt ⊢
      rw [month_days]
      obtain ⟨hstart, hend⟩ := monthNumber_bounds other
      have hup := monthStart_mono.lt_iff_lt.1 (hle.trans_lt hend)
      have hdown := monthStart_mono.lt_iff_lt.1 (hstart.trans_lt hlt)
      have hsame : monthNumber other = monthNumber date := by omega
      rw [hsame]

end Periods

section Days

variable {Z : Zone}

/-- Every midnight from a date on is passed once. -/
def MidnightsPassFrom (Z : Zone) (first : ℤ) : Prop :=
  ∀ date, first ≤ date → Z.PassesOnce (midnight date)

def MidnightsPass (Z : Zone) : Prop := ∀ date, Z.PassesOnce (midnight date)

theorem MidnightsPass.onward (h : MidnightsPass Z) (first : ℤ) : MidnightsPassFrom Z first :=
  fun date _ ↦ h date

theorem day_pos : 0 < day := by decide

theorem le_localDate_iff_wall {date : ℤ} {t : Instant} :
    date ≤ localDate Z t ↔ midnight date ≤ Z.wall t := by
  rw [midnight, ← Zone.le_label_iff day_pos, localDate]
  omega

theorem evaluationDayBoundaries_none (t : Instant) : evaluationDayBoundaries Z none t =
    ⟨startOfDate Z (localDate Z t), startOfDate Z (localDate Z t + 1)⟩ := rfl

section Onward

variable {first date : ℤ} {t : Instant} {days : ℤ → ℤ × ℤ}

/-- The class-local date has come exactly from the start of the date on. -/
theorem MidnightsPassFrom.le_localDate_iff (h : MidnightsPassFrom Z first)
    (hfirst : first ≤ date) : date ≤ localDate Z t ↔ startOfDate Z date ≤ t := by
  rw [le_localDate_iff_wall, startOfDate]
  exact (h date hfirst).le_wall_iff t

theorem MidnightsPassFrom.startOfDate_mono (h : MidnightsPassFrom Z first)
    (hfirst : first ≤ date) {other : ℤ} (hle : date ≤ other) :
    startOfDate Z date ≤ startOfDate Z other :=
  (h.le_localDate_iff hfirst).1
    (hle.trans ((h.le_localDate_iff (hfirst.trans hle)).2 le_rfl))

theorem MidnightsPassFrom.holds (h : MidnightsPassFrom Z first) (hb : Blocks days)
    (hfirst : first ≤ (days (localDate Z t)).1) : startOfDate Z (days (localDate Z t)).1 ≤ t ∧
      t < startOfDate Z (days (localDate Z t)).2 := by
  obtain ⟨hstart, hend⟩ := hb.holds (localDate Z t)
  have hlater : first ≤ (days (localDate Z t)).2 := (hfirst.trans hstart).trans hend.le
  exact ⟨(h.le_localDate_iff hfirst).1 hstart,
    not_le.1 fun hle ↦ not_le.2 hend ((h.le_localDate_iff hlater).2 hle)⟩

theorem MidnightsPassFrom.holds_day (h : MidnightsPassFrom Z first)
    (hfirst : first ≤ localDate Z t) :
    startOfDate Z (localDate Z t) ≤ t ∧ t < startOfDate Z (localDate Z t + 1) := by
  have hfirst' : first ≤ (Period.day.days (localDate Z t)).1 := hfirst
  have hday := h.holds Period.day.blocks hfirst'
  rwa [Period.days] at hday

/-- The period in which another one ends begins there. -/
theorem MidnightsPassFrom.next (h : MidnightsPassFrom Z first) (hb : Blocks days)
    (hfirst : first ≤ (days date).1) :
    startOfDate Z (days (localDate Z (startOfDate Z (days date).2))).1 =
      startOfDate Z (days date).2 := by
  obtain ⟨hstart, hend⟩ := hb.holds date
  have hlater : first ≤ (days date).2 := (hfirst.trans hstart).trans hend.le
  have hle := hb.mono ((h.le_localDate_iff hlater).2 (le_refl (startOfDate Z (days date).2)))
  rw [hb.next] at hle
  apply le_antisymm (h.holds hb (hlater.trans hle)).1
  exact h.startOfDate_mono hlater hle

theorem MidnightsPassFrom.startOfDate_localDate (h : MidnightsPassFrom Z first)
    (hfirst : first ≤ date) :
    startOfDate Z (localDate Z (startOfDate Z date)) = startOfDate Z date := by
  have hle : date ≤ localDate Z (startOfDate Z date) := (h.le_localDate_iff hfirst).2 le_rfl
  apply le_antisymm
  · exact (h.le_localDate_iff (hfirst.trans hle)).1 le_rfl
  · exact h.startOfDate_mono hfirst hle

end Onward

/-- A zone whose midnights pass once is a class zone for the rent schedule. -/
def classZone (Z : Zone) (h : MidnightsPass Z) : ClassZone where
  localDate := localDate Z
  startOfDate := startOfDate Z
  startOfDate_localDate := fun date ↦ (h.onward date).startOfDate_localDate le_rfl

theorem MidnightsPass.beforeCurrentClassDay_iff (h : MidnightsPass Z) {t reference : Instant} :
    beforeCurrentClassDay Z t reference = true ↔ localDate Z t < localDate Z reference := by
  rw [beforeCurrentClassDay, decide_eq_true_eq, ← not_le, ← not_le]
  exact not_congr ((h.onward _).le_localDate_iff le_rfl).symm

/-- Every instant lies in its class day, week and month, each of these begins where the one before
it ends, and the class day is a matter of the class-local date. -/
structure ClassDays (Z : Zone) : Prop where
  day : ∀ t, (evaluationDayBoundaries Z none t).Holds t
  period : ∀ text t b, evaluationPeriodBoundaries Z text t = .ok b → b.Holds t
  adjacent : ∀ text t b t' b', evaluationPeriodBoundaries Z text t = .ok b →
    evaluationPeriodBoundaries Z text t' = .ok b' → t' = b.boundaryEndUtc →
      b'.boundaryStartUtc = b.boundaryEndUtc
  dates : ∀ t t', evaluationDayBoundaries Z none t = evaluationDayBoundaries Z none t' ↔
    localDate Z t = localDate Z t'

theorem evaluationPeriodBoundaries_ok {text : Option String} {t : Instant} {b : Boundaries} :
    evaluationPeriodBoundaries Z text t = .ok b ↔ ∃ p, Period.ofText text = some p ∧
      b = ⟨startOfDate Z (p.days (localDate Z t)).1, startOfDate Z (p.days (localDate Z t)).2⟩ := by
  rw [evaluationPeriodBoundaries, demand_bind_eq_ok]
  simp only [pure_eq_ok, eq_comm (a := b)]

theorem MidnightsPass.classDays (h : MidnightsPass Z) : ClassDays Z where
  day := fun t ↦ (h.onward _).holds_day le_rfl
  period := by
    intro text t b hb
    obtain ⟨p, -, rfl⟩ := evaluationPeriodBoundaries_ok.1 hb
    exact (h.onward _).holds p.blocks le_rfl
  adjacent := by
    intro text t b t' b' hb hb' ht'
    obtain ⟨p, hp, rfl⟩ := evaluationPeriodBoundaries_ok.1 hb
    obtain ⟨p', hp', rfl⟩ := evaluationPeriodBoundaries_ok.1 hb'
    obtain rfl : p = p' := Option.some.inj (hp.symm.trans hp')
    rw [ht']
    exact (h.onward _).next p.blocks le_rfl
  dates := by
    have hlt : ∀ t t', localDate Z t < localDate Z t' →
        evaluationDayBoundaries Z none t ≠ evaluationDayBoundaries Z none t' := by
      intro t t' hlt heq
      rw [evaluationDayBoundaries_none, evaluationDayBoundaries_none, Boundaries.mk.injEq] at heq
      have hle := (h.onward _).startOfDate_mono le_rfl (Int.add_one_le_iff.2 hlt)
      have hday := (h.onward _).holds_day (le_refl (localDate Z t))
      rw [← heq.1] at hle
      exact absurd (hle.trans hday.1) (not_le.2 hday.2)
    intro t t'
    constructor
    · intro heq
      rcases lt_trichotomy (localDate Z t) (localDate Z t') with h' | h' | h'
      · exact absurd heq (hlt t t' h')
      · exact h'
      · exact absurd heq.symm (hlt t' t h')
    · intro heq
      rw [evaluationDayBoundaries_none, evaluationDayBoundaries_none, heq]

/-- The class days are right exactly where every midnight is passed once. -/
theorem class_days_iff_midnights_pass (Z : ClassTimezone) :
    ClassDays Z.toZone ↔ ∀ date, Z.PassesOnce (midnight date) := by
  constructor
  · intro h date
    apply Zone.passesOnce_of_labels day_pos Z.small
    intro t
    have hday := h.day t
    simp only [evaluationDayBoundaries, Option.getD_none, Boundaries.Holds, startOfDate, midnight,
      localDate] at hday
    rw [show Z.label day t + 719163 - 719163 = Z.label day t by omega,
      show Z.label day t + 719163 + 1 - 719163 = Z.label day t + 1 by omega] at hday
    exact hday
  · exact fun h ↦ MidnightsPass.classDays h

/-- The Azores in 2026: an hour ahead of their standard time from March 29 on, and back from one
o'clock to midnight on October 25. -/
def azores : ClassTimezone where
  first := ⟨-3600000000, true⟩
  changes := [⟨20541 * 86400000000 + 3600000000, ⟨0, false⟩⟩,
    ⟨20751 * 86400000000 + 3600000000, ⟨-3600000000, true⟩⟩]
  ordered := by decide
  small := by decide

/-- Half past midnight on October 25 comes before the start of its class day. -/
theorem instant_before_its_class_day :
    let t := 20751 * 86400000000 + 1800000000
    localDate azores.toZone t = toOrdinal ⟨2026, 10, 25⟩ ∧
      evaluationDayBoundaries azores.toZone none t =
        ⟨20751 * 86400000000 + 3600000000, 20752 * 86400000000 + 3600000000⟩ ∧
      ¬ (evaluationDayBoundaries azores.toZone none t).Holds t ∧ ¬ ClassDays azores.toZone := by
  have hbounds : evaluationDayBoundaries azores.toZone none (20751 * 86400000000 + 1800000000) =
      ⟨20751 * 86400000000 + 3600000000, 20752 * 86400000000 + 3600000000⟩ := by decide +kernel
  have hnot : ¬ (evaluationDayBoundaries azores.toZone none
      (20751 * 86400000000 + 1800000000)).Holds (20751 * 86400000000 + 1800000000) := by
    rw [hbounds, Boundaries.Holds]
    decide
  exact ⟨by decide +kernel, hbounds, hnot, fun h ↦ hnot (h.day _)⟩

end Days

end TokenHub.Time
