import TokenHub.Rent.Schedule

set_option autoImplicit false

namespace TokenHub.Rent

open Ledger Lib.Checks

section Policies

def RentSettings.default : RentSettings where
  id := 0
  policyUuid := ""
  classId := ""
  availabilityState := .inUse
  rentConfiguredAt := 0
  rentAmount := some 5000
  frequencyType := some "monthly"
  customFrequencyValue := none
  customFrequencyUnit := none
  firstRentDueDate := none
  dueDayOfMonth := some 1
  gracePeriodDays := some 3
  latePenaltyAmount := some 1000
  latePenaltyType := some "once"
  latePenaltyFrequencyDays := none
  billPreviewEnabled := false
  billPreviewDays := some 7
  allowIncrementalPayment := false
  satisfactionBenefits := []

/-- `supersede_rent_settings`. The updates go on top of the policy in force, under a new id that
the table's unique constraint holds to be new, and the policy in force is retired. -/
def supersedeRentSettings (S : RentState) (now : Instant) (classId policyUuid : String)
    (updates : RentSettings → RentSettings) : Except Raise (RentSettings × RentState) := do
  let current := getRentSettings S classId
  require (policyUuid ≠ "" ∧ ∀ r ∈ S.rentSettings, r.policyUuid ≠ policyUuid)
    (.integrityError "ix_rent_settings_policy_uuid")
  let successor : RentSettings :=
    { updates (current.getD .default) with
      id := S.rentSettings.length + 1, policyUuid := policyUuid, classId := classId,
      availabilityState := .inUse, rentConfiguredAt := now }
  let retired := S.rentSettings.map (fun r ↦
    if current.any (·.id = r.id) then { r with availabilityState := .retired } else r)
  return (successor, { S with rentSettings := retired ++ [successor] })

end Policies

section Features

inductive FeatureOutcome
  | success
  | refused (errorCode : String)
deriving DecidableEq, Repr

/-- `execute_enable_feature` for the rent of a class. -/
def enableRent (S : RentState) (now : Instant) (classId economicVersionId : String)
    (effectiveAt : Instant) : FeatureOutcome × RentState :=
  if isRentEnabled S classId now then (.refused "FEATURE_ALREADY_ENABLED", S)
  else if effectiveAt < now then (.refused "INVALID_TEMPORAL_ORDER", S)
  else if S.features.any (fun r ↦ r.classId = classId ∧ r.effectiveAt = effectiveAt) then
    (.success, S)
  else
    (.success, { S with features := S.features ++
      [{ classId := classId, effectiveAt := effectiveAt,
         economicVersionId := some economicVersionId }] })

/-- `_withdraw_untouched_advance_rent`: what was assessed ahead for a period that the disablement
prevents, unless something was paid or waived on it. -/
def withdrawUntouchedAdvanceRent (now : Instant) (classId : String) (effectiveAt : Instant)
    (S : RentState) : Except Raise (ℕ × RentState) :=
  tally (fun S cycle ↦
    tally (fun S a ↦
      if getSatisfactionEvents S a.correlationId ≠ [] then return (0, S)
      else do
        let (_, S') ← withdrawAssessment S now
          { classId := classId, correlationId := a.correlationId,
            referenceTimeUtc := some effectiveAt }
        return (1, S')) S
      (S.assessmentEvents.filter (fun e ↦ e.billCycleId = some cycle.id ∧
        e.eventType = .assessment ∧ e.obligationType = .rent))) S
    (S.billCycles.filter (fun c ↦ c.classId = classId ∧ c.internalRef = "rent:" ++ classId ∧
      c.nextAssessmentAt.isSome ∧ effectiveAt ≤ c.cycleBoundaryAt))

/-- `execute_disable_feature` for the rent of a class. A row of the same instant that enables it
breaks the table's primary key. -/
def disableRent (S : RentState) (now : Instant) (classId : String) (effectiveAt : Instant) :
    Except Raise (FeatureOutcome × RentState) := do
  if isRentEnabled S classId now = false then return (.refused "FEATURE_NOT_ENABLED", S)
  else if effectiveAt < now then return (.refused "INVALID_TEMPORAL_ORDER", S)
  else if S.features.any (fun r ↦ r.classId = classId ∧ r.effectiveAt = effectiveAt ∧
      r.economicVersionId = none) then
    return (.success, S)
  else
    require (∀ r ∈ S.features, ¬ (r.classId = classId ∧ r.effectiveAt = effectiveAt))
      (.integrityError "pk_class_features")
    let disabled : ClassFeature :=
      { classId := classId, effectiveAt := effectiveAt, economicVersionId := none }
    let (_, S') ← withdrawUntouchedAdvanceRent now classId effectiveAt
      { S with features := S.features ++ [disabled] }
    return (.success, S')

end Features

end TokenHub.Rent
