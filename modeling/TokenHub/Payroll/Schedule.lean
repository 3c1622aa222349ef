import TokenHub.Insurance.Coverage
import TokenHub.Lib.Search

set_option autoImplicit false

namespace TokenHub.Payroll

open Ledger Rent Insurance Lib.Checks Lib.Search

/-- The civil time of a class, whose offset from UTC is always less than a day. A class-local
midnight that a clock change repeats is the later of its two instants. -/
structure PaydayZone extends ClassZone where
  le_localDate : ∀ t d, startOfDate d ≤ t → d ≤ localDate t
  startOfDate_le : ∀ t d, d + 2 ≤ localDate t → startOfDate d ≤ t
  startOfDate_lt : ∀ d d', d + 2 ≤ d' → startOfDate d < startOfDate d'

inductive CadenceUnit
  | week
  | month
deriving DecidableEq, Repr

/-- `PayCadence`: payday `n` is `step * n` units after the anchor. -/
structure PayCadence where
  unit : CadenceUnit
  step : ℕ
  step_pos : 0 < step

inductive PayScheduleType
  | weekly
  | biweekly
  | monthly
deriving DecidableEq, Repr

def payCadence : PayScheduleType → PayCadence
  | .weekly => ⟨.week, 1, by decide⟩
  | .biweekly => ⟨.week, 2, by decide⟩
  | .monthly => ⟨.month, 1, by decide⟩

/-- `anchored_recurrence_boundary`, an overflowing month rolled forward. -/
def recurrenceDay (anchor : ℤ) : CadenceUnit → ℕ → ℤ
  | .week, index => anchor + 7 * index
  | .month, index => rolledForward anchor index

section Boundaries

variable (zone : PaydayZone) (anchor : ℤ) (cadence : PayCadence)

def scheduleBoundary (n : ℕ) : Instant :=
  zone.startOfDate (recurrenceDay anchor cadence.unit (cadence.step * n))

def indexEstimate (localDay : ℤ) : ℕ :=
  match cadence.unit with
  | .month =>
    let (day, start) := (fromOrdinal localDay, fromOrdinal anchor)
    let months := (day.year - start.year) * 12 + (day.month - start.month)
    (months / cadence.step - 1).toNat
  | .week =>
    let weeks := (localDay - anchor) / 7
    (weeks / cadence.step - 1).toNat

def maxBoundarySteps : ℕ := 10000

def firstIndexAfterWithin (steps : ℕ) (instant : Instant) : Except Raise ℕ :=
  demand (firstAfter (scheduleBoundary zone anchor cadence) instant steps
      (indexEstimate anchor cadence (zone.localDate instant)))
    (.valueError "No payroll boundary found")

def firstIndexAfter (instant : Instant) : Except Raise ℕ :=
  firstIndexAfterWithin zone anchor cadence maxBoundarySteps instant

def firstBoundaryAfter (instant : Instant) : Except Raise Instant := do
  let n ← firstIndexAfter zone anchor cadence instant
  return scheduleBoundary zone anchor cadence n

end Boundaries

structure PayrollSettings where
  firstPayDate : Instant
  payScheduleType : PayScheduleType

def PayrollSettings.anchor (zone : PaydayZone) (setting : PayrollSettings) : ℤ :=
  zone.localDate setting.firstPayDate

def PayrollSettings.boundary (zone : PaydayZone) (setting : PayrollSettings) (n : ℕ) : Instant :=
  scheduleBoundary zone (setting.anchor zone) (payCadence setting.payScheduleType) n

def deriveNextPayrollDate (zone : PaydayZone) (setting : PayrollSettings)
    (lastSystemOccurrence : Option Instant) : Except Raise Instant :=
  match lastSystemOccurrence with
  | none => return setting.boundary zone 0
  | some last =>
    firstBoundaryAfter zone (setting.anchor zone) (payCadence setting.payScheduleType) last

section Events

inductive PayrollEventType
  | payroll
  | manualCredit
  | reversal
  | correction
deriving DecidableEq, Repr

inductive RunMechanism
  | teacher
  | system
deriving DecidableEq, Repr

structure PayrollEvent where
  id : ℕ
  classId : String
  targetSeatId : ℕ
  payrollEventType : PayrollEventType
  mechanism : RunMechanism
  recordedAt : Instant
  payrollCycleId : Option ℕ
  scheduledOccurrence : Option Instant
deriving DecidableEq, Repr

/-- The key of a run: `auto-payroll:` with the occurrence, or `manual-payroll:` with a token. -/
inductive RunKey
  | auto (scheduledOccurrence : Instant)
  | manual (token : String)
deriving DecidableEq, Repr

structure PayrollCycleCompletion where
  classId : String
  idempotencyKey : RunKey
  payrollCycleId : ℕ
deriving DecidableEq, Repr

structure PayrollState where
  events : List PayrollEvent
  completions : List PayrollCycleCompletion

def SystemPayroll (classId : String) (e : PayrollEvent) : Prop :=
  e.classId = classId ∧ e.payrollEventType = .payroll ∧ e.mechanism = .system

instance (classId : String) : DecidablePred (SystemPayroll classId) := fun _ ↦ by
  unfold SystemPayroll; infer_instance

/-- The later of two events in the order of `recorded_at` and `id`. -/
def laterRecorded (best : Option PayrollEvent) (e : PayrollEvent) : Option PayrollEvent :=
  match best with
  | none => some e
  | some b =>
    if b.recordedAt < e.recordedAt ∨ (b.recordedAt = e.recordedAt ∧ b.id < e.id) then some e
    else some b

def lastSystemPayrollOccurrence (S : PayrollState) (classId : String) (asOf : Instant) :
    Option Instant :=
  ((S.events.filter (fun e ↦ SystemPayroll classId e ∧ e.recordedAt ≤ asOf)).foldl
    laterRecorded none).map (fun e ↦ e.scheduledOccurrence.getD e.recordedAt)

def nextPayrollDate (zone : PaydayZone) (setting : PayrollSettings) (S : PayrollState)
    (classId : String) (asOf : Instant) : Except Raise Instant :=
  deriveNextPayrollDate zone setting (lastSystemPayrollOccurrence S classId asOf)

end Events

end TokenHub.Payroll
