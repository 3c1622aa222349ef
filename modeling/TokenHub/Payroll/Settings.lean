import TokenHub.Lib.Ordered
import TokenHub.Payroll.ScheduleRuns

set_option autoImplicit false

namespace TokenHub.Payroll

open Ledger Rent Insurance Lib.Checks Lib.Runs Lib.Ordered

/-- A row of `payroll_settings`. The rate is in units of the last decimal of its column. -/
structure PayrollSetting extends PayrollSettings where
  policyUuid : ℕ
  classId : String
  payRate : ℤ
  effectiveDate : Instant
  createdAt : Instant
  overtimeThreshold : Option ℚ
  overtimeThresholdUnit : Option String
  maxTimePerDay : Option ℚ
  maxTimePerDayUnit : Option String

section Reads

variable (settings : List PayrollSetting) (classId : String)

def NewestFirst (a b : PayrollSetting) : Prop :=
  b.effectiveDate < a.effectiveDate ∨
    a.effectiveDate = b.effectiveDate ∧ b.createdAt ≤ a.createdAt

instance : DecidableRel NewestFirst := fun _ _ ↦ by unfold NewestFirst; infer_instance

/-- The order of `order_by(effective_date.asc(), created_at.asc())`. -/
def OldestFirst (a b : PayrollSetting) : Prop :=
  a.effectiveDate < b.effectiveDate ∨
    a.effectiveDate = b.effectiveDate ∧ a.createdAt ≤ b.createdAt

instance : DecidableRel OldestFirst := fun _ _ ↦ by unfold OldestFirst; infer_instance

def payrollSettingEffectiveAt (instant : Instant) : Option PayrollSetting :=
  firstBy NewestFirst (settings.filter (fun r ↦ r.classId = classId ∧ r.effectiveDate ≤ instant))

def firstPayrollSetting : Option PayrollSetting :=
  firstBy OldestFirst (settings.filter (·.classId = classId))

def payrollSettingGoverningWork (closedAt : Instant) : Option PayrollSetting :=
  (payrollSettingEffectiveAt settings classId closedAt).or (firstPayrollSetting settings classId)

end Reads

structure SettingsTables where
  settings : List PayrollSetting
  payroll : PayrollState

section Boundary

variable (zone : PaydayZone) (T : SettingsTables) (classId : String)

/-- `next_payroll_date`, by the setting in force at `asOf`. -/
def nextPayrollDateAt (asOf : Instant) : Except Raise (Option Instant) :=
  match payrollSettingEffectiveAt T.settings classId asOf with
  | none => .ok none
  | some setting =>
    (nextPayrollDate zone setting.toPayrollSettings T.payroll classId asOf).map some

def nextPayrollBoundaryAfter (instant : Instant) : Except Raise (Option Instant) := do
  let boundary ← nextPayrollDateAt zone T classId instant
  if boundary.all (fun b ↦ instant < b) then return boundary
  else
    match payrollSettingEffectiveAt T.settings classId instant with
    | none => return none
    | some setting =>
      let next ← firstBoundaryAfter zone (setting.anchor zone) (payCadence setting.payScheduleType)
        instant
      return some next

/-- `effective_date_for_new_setting`. A class with a setting in force has a next boundary. -/
def effectiveDateForNewSetting (recordedAt : Instant) : Except Raise Instant := do
  if (payrollSettingEffectiveAt T.settings classId recordedAt).isNone then return recordedAt
  else
    let boundary ← nextPayrollBoundaryAfter zone T classId recordedAt
    demand boundary (.runtimeError "no payroll boundary")

end Boundary

section Save

/-- `settings_data`: a field that is not submitted is absent, one submitted empty is `some none`. -/
structure SettingsData where
  payRate : Option (Option ℤ)
  overtimeThreshold : Option (Option ℚ)
  overtimeThresholdUnit : Option (Option String)
  maxTimePerDay : Option (Option ℚ)
  maxTimePerDayUnit : Option (Option String)
  payScheduleType : Option (Option String)
  firstPayDate : Option (Option Instant)
  /-- The keys that name no setting field. -/
  unknown : List String

def PayScheduleType.value : PayScheduleType → String
  | .weekly => "weekly"
  | .biweekly => "biweekly"
  | .monthly => "monthly"

def PayScheduleType.ofString (s : String) : Option PayScheduleType :=
  if s = "weekly" then some .weekly
  else if s = "biweekly" then some .biweekly
  else if s = "monthly" then some .monthly
  else none

def PayrollSetting.data (row : PayrollSetting) : SettingsData where
  payRate := some (some row.payRate)
  overtimeThreshold := some row.overtimeThreshold
  overtimeThresholdUnit := some row.overtimeThresholdUnit
  maxTimePerDay := some row.maxTimePerDay
  maxTimePerDayUnit := some row.maxTimePerDayUnit
  payScheduleType := some (some row.payScheduleType.value)
  firstPayDate := some (some row.firstPayDate)
  unknown := []

def SettingsData.empty : SettingsData := ⟨none, none, none, none, none, none, none, []⟩

def SettingsData.update (data submitted : SettingsData) : SettingsData where
  payRate := submitted.payRate.or data.payRate
  overtimeThreshold := submitted.overtimeThreshold.or data.overtimeThreshold
  overtimeThresholdUnit := submitted.overtimeThresholdUnit.or data.overtimeThresholdUnit
  maxTimePerDay := submitted.maxTimePerDay.or data.maxTimePerDay
  maxTimePerDayUnit := submitted.maxTimePerDayUnit.or data.maxTimePerDayUnit
  payScheduleType := submitted.payScheduleType.or data.payScheduleType
  firstPayDate := submitted.firstPayDate.or data.firstPayDate
  unknown := data.unknown ++ submitted.unknown

def namesText (names : List String) : String :=
  "[" ++ ", ".intercalate ((names.dedup.insertionSort (· ≤ ·)).map (fun n ↦ "'" ++ n ++ "'")) ++ "]"

variable (zone : PaydayZone) (T : SettingsTables) (classId : String)

def appendPayrollSetting (settingsData : SettingsData) (effectiveDate createdAt : Instant) :
    Except Raise (PayrollSetting × SettingsTables) := do
  require (settingsData.unknown = [])
    (.valueError ("Unknown payroll settings field(s): " ++ namesText settingsData.unknown ++
      ". Legal columns are PayrollSettings.SETTING_FIELDS (DOM-POL-001A §V.F)."))
  let firstPayDate ← demand settingsData.firstPayDate.join
    (.valueError "A payroll setting needs a first pay date: it anchors the schedule.")
  let payScheduleType ← demand (settingsData.payScheduleType.join.bind PayScheduleType.ofString)
    (.valueError "A payroll schedule is weekly, biweekly or monthly.")
  require (¬ effectiveDate < createdAt)
    (.valueError "A payroll setting cannot take effect before it was recorded.")
  let payRate ← demand settingsData.payRate.join (.integrityError "pay_rate")
  require (∀ r ∈ T.settings, ¬ (r.classId = classId ∧ r.effectiveDate = effectiveDate ∧
      r.createdAt = createdAt))
    (.integrityError "uq_payroll_settings_class_effective_created")
  let row : PayrollSetting := {
    policyUuid := T.settings.length + 1
    classId := classId
    payRate := payRate
    effectiveDate := effectiveDate
    createdAt := createdAt
    overtimeThreshold := settingsData.overtimeThreshold.join
    overtimeThresholdUnit := settingsData.overtimeThresholdUnit.join
    maxTimePerDay := settingsData.maxTimePerDay.join
    maxTimePerDayUnit := settingsData.maxTimePerDayUnit.join
    payScheduleType := payScheduleType
    firstPayDate := firstPayDate }
  return (row, { T with settings := T.settings ++ [row] })

def savePayrollSetting (settingsData : SettingsData) (recordedAt : Instant) :
    Except Raise (PayrollSetting × SettingsTables) := do
  require (classId ≠ "") (.valueError "payroll_settings reads require class_id.")
  let effectiveDate ← effectiveDateForNewSetting zone T classId recordedAt
  let predecessor := payrollSettingEffectiveAt T.settings classId effectiveDate
  let data := (predecessor.map (·.data)).getD .empty
  appendPayrollSetting T classId (data.update settingsData) effectiveDate recordedAt

end Save

section System

/-- A save, or a run of the automatic payroll on one class. -/
inductive SettingsAction
  | save (classId : String) (settingsData : SettingsData)
  | systemRun (classId : String) (seats : List ℕ)

variable (zones : String → PaydayZone) (now : Instant) (T : SettingsTables)

def settingsStep : SettingsAction → SettingsTables
  | .save classId settingsData =>
    match savePayrollSetting (zones classId) T classId settingsData now with
    | .ok (_, T') => T'
    | .error _ => T
  | .systemRun classId seats =>
    match payrollSettingEffectiveAt T.settings classId now with
    | none => T
    | some setting =>
      { T with
        payroll := runAutomaticPayroll now T.payroll (zones classId) setting.toPayrollSettings
          classId seats }

/-- The tables and the clock, which no command turns back. -/
structure SettingsSystem where
  clock : Instant
  tables : SettingsTables

structure TimedSettingsAction where
  wait : ℕ
  action : SettingsAction

def settingsSystemStep (s : SettingsSystem) (a : TimedSettingsAction) : SettingsSystem where
  clock := s.clock + a.wait
  tables := settingsStep zones (s.clock + a.wait) s.tables a.action

def settingsAfter (clock : Instant) (payroll : PayrollState) (as : List TimedSettingsAction) :
    SettingsSystem :=
  run (settingsSystemStep zones) ⟨clock, ⟨[], payroll⟩⟩ as

end System

end TokenHub.Payroll
