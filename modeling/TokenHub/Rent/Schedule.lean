import TokenHub.Rent.Payment

set_option autoImplicit false

namespace TokenHub.Rent

open Ledger Lib.Checks Lib.Digits

section Calendar

def clampDayOfMonth (year month day : ℤ) : Except Raise ℤ := do
  let clamped := min day (daysInMonth year month)
  require (1 ≤ clamped) (.valueError "day is out of range for month")
  return toOrdinal ⟨year, month, clamped⟩

/-- `anchored_recurrence_boundary` by months, an overflowing day clamped. -/
def monthsAfter (date months : ℤ) : CivilDate :=
  let anchor := fromOrdinal date
  let total := anchor.year * 12 + (anchor.month - 1) + months
  let (year, month) := (total / 12, total % 12 + 1)
  ⟨year, month, min anchor.day (daysInMonth year month)⟩

end Calendar

section Text

def lowerChar (c : Char) : Char := if c.toNat = 0x212A then 'k' else c.toLower

def normalized (s : Option String) (default : String) : String :=
  let text := (if s.getD "" = "" then default else s.getD "").toList
  String.ofList
    ((((text.dropWhile isSpace).reverse.dropWhile isSpace).reverse).map lowerChar)

end Text

/-- The civil time of a class. A class-local midnight that a clock change skips or repeats is
one instant all the same, and reading that instant's date leads back to it. -/
structure ClassZone where
  localDate : Instant → ℤ
  startOfDate : ℤ → Instant
  startOfDate_localDate : ∀ d, startOfDate (localDate (startOfDate d)) = startOfDate d

theorem dayStart_steady (d : ℤ) :
    d * 86400000000 / 86400000000 * 86400000000 = d * 86400000000 := by
  rw [Int.mul_ediv_cancel d (by decide)]

def advanceDueDate (settings : RentSettings) (due : ℤ) : Except Raise ℤ :=
  match normalized settings.frequencyType "monthly" with
  | "daily" => .ok (due + 1)
  | "weekly" => .ok (due + 7)
  | "monthly" =>
    let next := monthsAfter due 1
    let anchorDay := match settings.dueDayOfMonth with
      | none => (fromOrdinal due).day
      | some d => if d = 0 then (fromOrdinal due).day else d
    clampDayOfMonth next.year next.month anchorDay
  | "custom" => do
    let value := settings.customFrequencyValue.getD 0
    require (0 < value)
      (.valueError "custom frequency requires a positive custom_frequency_value")
    match normalized settings.customFrequencyUnit "days" with
    | "days" => return due + value
    | "weeks" => return due + 7 * value
    | "months" => return toOrdinal (monthsAfter due value)
    | _ => .error (.valueError "unsupported custom_frequency_unit")
  | _ => .error (.valueError "unsupported frequency_type")

def firstDueLocalDate (zone : ClassZone) (settings : RentSettings) (now : Instant) :
    Except Raise ℤ :=
  match settings.firstRentDueDate with
  | some first => .ok (zone.localDate first)
  | none =>
    let today := zone.localDate now
    let dueDay := settings.dueDayOfMonth.getD 0
    if normalized settings.frequencyType "monthly" = "monthly" ∧ dueDay ≠ 0 then
      clampDayOfMonth (fromOrdinal today).year (fromOrdinal today).month dueDay
    else .ok today

structure ResolvedCycleSchedule where
  cycleBoundaryAt : Instant
  nextAssessmentAt : Instant
  graceBoundaryAt : Option Instant

/-- `resolve_cycle_schedule`: every boundary is the start of a class-local date. -/
def resolveCycleSchedule (zone : ClassZone) (settings : RentSettings) (due : ℤ) :
    Except Raise ResolvedCycleSchedule := do
  let next ← advanceDueDate settings due
  return { cycleBoundaryAt := zone.startOfDate due
           nextAssessmentAt := zone.startOfDate next
           graceBoundaryAt := match settings.gracePeriodDays with
             | none => none
             | some days => if days < 0 then none else some (zone.startOfDate (due + days)) }

section Cycles

variable (S : RentState)

def getBillCyclesForInternalRef (internalRef : String) : List BillCycle :=
  (S.billCycles.filter (·.internalRef = internalRef)).insertionSort
    (fun a b ↦ a.cycleNumber ≤ b.cycleNumber)

def getLatestBillCycle (internalRef : String) : Option BillCycle :=
  (getBillCyclesForInternalRef S internalRef).getLast?

/-- `get_bill_preview_days` of a rent policy version, zero where none resolves. -/
def billPreviewDays (policyUuid : Option String) (classId : String) : ℤ :=
  match (rentPolicy S policyUuid).filter (·.classId = classId) with
  | none => 0
  | some r => if r.billPreviewEnabled then max 0 (r.billPreviewDays.getD 0) else 0

/-- `_start_of_class_day_before`: through the middle of the target day. -/
def startOfClassDayBefore (zone : ClassZone) (t : Instant) (days : ℤ) : Instant :=
  let dayStart := zone.startOfDate (zone.localDate t)
  zone.startOfDate (zone.localDate (dayStart + (12 * 3600 - days * 24 * 3600) * 1000000))

/-- `get_assessment_point`: when the successor of a cycle is due. -/
def getAssessmentPoint (zone : ClassZone) (c : BillCycle) (next : Instant) : Instant :=
  let days := billPreviewDays S c.policyUuid c.classId
  if days ≤ 0 then next else startOfClassDayBefore zone next days

inductive SuccessionEligibility
  | empty
  | due (latest : BillCycle) (nextAssessmentAt : Instant)
  | notDue (latest : BillCycle)
  | terminal (latest : BillCycle)
deriving DecidableEq, Repr

def getSuccessionEligibility (zone : ClassZone) (classId internalRef : String) (now : Instant) :
    SuccessionEligibility :=
  match ((getBillCyclesForInternalRef S internalRef).filter (·.classId = classId)).getLast? with
  | none => .empty
  | some latest =>
    match latest.nextAssessmentAt with
    | none => .terminal latest
    | some next =>
      if now < getAssessmentPoint S zone latest next then .notDue latest else .due latest next

def currentAmong (now : Instant) : List BillCycle → Except Raise (Option BillCycle)
  | [] => return none
  | c :: cs =>
    match c.nextAssessmentAt with
    | none => currentAmong now cs
    | some next => do
      require (c.cycleBoundaryAt < next)
        (.domainError "TemporalResolutionError" "end_boundary must be after start_boundary")
      if c.cycleBoundaryAt ≤ now ∧ now < next then return some c else currentAmong now cs

/-- `get_current_bill_cycle`: the period that contains the instant, unless the lineage has
terminated by then. -/
def getCurrentBillCycle (classId internalRef : String) (now : Instant) :
    Except Raise (Option BillCycle) :=
  let cycles := (getBillCyclesForInternalRef S internalRef).filter (·.classId = classId)
  let terminal := (cycles.filter (·.nextAssessmentAt = none)).getLast?
  if terminal.any (fun c ↦ decide (c.cycleBoundaryAt ≤ now)) then return none
  else currentAmong now cycles

/-- The row of the rent feature in force at an instant. -/
def laterEffective (best : Option ClassFeature) (r : ClassFeature) : Option ClassFeature :=
  match best with
  | none => some r
  | some b => if b.effectiveAt < r.effectiveAt then some r else some b

def featureAt (classId : String) (t : Instant) : Option ClassFeature :=
  (S.features.filter (fun r ↦ r.classId = classId ∧ r.effectiveAt ≤ t)).foldl laterEffective none

def isRentEnabled (classId : String) (now : Instant) : Bool :=
  (featureAt S classId now).any (·.economicVersionId.isSome)

def rentDisabledForPeriod (classId : String) (boundary now : Instant) : Bool :=
  decide (now ≤ boundary) && (featureAt S classId boundary).any (·.economicVersionId.isNone)

end Cycles

end TokenHub.Rent
