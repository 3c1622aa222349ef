import TokenHub.Economy.EvolutionRuns

set_option autoImplicit false

namespace TokenHub.Economy

open Ledger Lib.Checks

structure FeatureResult where
  success : Bool
  correlationId : String
  classId : Option String := none
  feature : Option String := none
  effectiveAt : Option Instant := none
  errorCode : Option String := none
  errorMessage : Option String := none
deriving DecidableEq, Repr

structure FeatureRequest where
  context : Option CanonicalContext
  classId : String
  feature : String
  effectiveAt : EffectiveAt := .omitted
  correlationId : Option String := none
  idempotencyKey : Option String := none
deriving DecidableEq, Repr

def FeatureRequest.effective (q : FeatureRequest) (now : Instant) : Instant :=
  q.effectiveAt.resolve now

def refuseFeature (code message : String) : FeatureResult :=
  { success := false, correlationId := "", errorCode := some code, errorMessage := some message }

def featureDone (q : FeatureRequest) (effectiveAt : Instant) (correlationId : String) :
    FeatureResult :=
  { success := true, correlationId := correlationId, classId := some q.classId,
    feature := some q.feature, effectiveAt := some effectiveAt }

def cwiDependentFeatures : List String := ["insurance", "rent", "store"]

/-- The weekly hours that `resolve_base` reads. -/
def expectedWeeklyHours (S : EconomyState) (classId : String) (now : Instant) : FieldValue :=
  match economicEngineEffectiveAt S classId now with
  | none => .null
  | some e => e.fields .expectedWeeklyHours

section Enable

variable (S : EconomyState) (now : Instant) (economicVersionId : String) (q : FeatureRequest)

/-- The read-only phase of `execute_enable_feature`. `readiness` is what `resolve_base` finds
missing, at the class's pay rate, with the given weekly hours. -/
def verifyEnable (readiness : FieldValue → Option String) : Except FeatureResult Instant := do
  checkTeacherScope S q.context q.classId "Only teachers can enable features" refuseFeature
  require (isFeatureEnabled S q.classId now q.feature = false)
    (refuseFeature "FEATURE_ALREADY_ENABLED" ("Feature '" ++ q.feature ++
      "' is already enabled for class " ++ q.classId ++ ". Disable first before re-enabling."))
  require (q.feature ∈ ClassFeature.featureNames)
    (refuseFeature "INVALID_FEATURE" (invalidFeature q.feature))
  require ((getEconomicEngineByVersion S q.classId economicVersionId).isSome = true)
    (refuseFeature "ENGINE_VERSION_NOT_FOUND" ("Economic engine version " ++ economicVersionId ++
      " not found for class " ++ q.classId))
  require (q.feature ∈ cwiDependentFeatures →
      readiness (expectedWeeklyHours S q.classId now) = none)
    (refuseFeature "ECONOMIC_ENGINE_NOT_READY"
      ((readiness (expectedWeeklyHours S q.classId now)).getD ""))
  resolveEffectiveAt now q.effectiveAt refuseFeature

def enableFeature (traceId : String) (readiness : FieldValue → Option String) :
    Except Raise (FeatureResult × EconomyState) :=
  match verifyEnable S now economicVersionId q readiness with
  | .error result => .ok (result, S)
  | .ok effectiveAt =>
    if (featureRowAt S q.classId effectiveAt q.feature).isSome then
      .ok (featureDone q effectiveAt (firstText q.idempotencyKey q.correlationId
        ("enable_feature_idempotent_" ++ q.classId ++ "_" ++ q.feature)), S)
    else do
      let S' ← insertFeature S
        { classId := q.classId, feature := q.feature, effectiveAt := effectiveAt,
          economicVersionId := some economicVersionId, deletedAt := none, createdAt := now }
      return (featureDone q effectiveAt
        (firstText q.correlationId q.idempotencyKey ("enable_feature_" ++ traceId)), S')

end Enable

section Disable

variable (S : EconomyState) (now : Instant) (q : FeatureRequest)

/-- The read-only phase of `execute_disable_feature`. -/
def verifyDisable : Except FeatureResult Instant := do
  checkTeacherScope S q.context q.classId "Only teachers can disable features" refuseFeature
  require (q.feature ∈ ClassFeature.featureNames)
    (refuseFeature "INVALID_FEATURE" (invalidFeature q.feature))
  require (isFeatureEnabled S q.classId now q.feature = true)
    (refuseFeature "FEATURE_NOT_ENABLED" ("Feature '" ++ q.feature ++
      "' is not currently enabled for class " ++ q.classId))
  resolveEffectiveAt now q.effectiveAt refuseFeature

/-- `execute_disable_feature`. `rentWithdrawal` is what withdrawing the advance rent, which writes
other tables, raises. -/
def disableFeature (traceId : String) (rentWithdrawal : Except Raise Unit) :
    Except Raise (FeatureResult × EconomyState) :=
  match verifyDisable S now q with
  | .error result => .ok (result, S)
  | .ok effectiveAt =>
    if (featureRowAt S q.classId effectiveAt q.feature).any (·.deletedAt.isSome) then
      .ok (featureDone q effectiveAt (firstText q.idempotencyKey q.correlationId
        ("disable_feature_idempotent_" ++ q.classId ++ "_" ++ q.feature)), S)
    else do
      let S' ← insertFeature S
        { classId := q.classId, feature := q.feature, effectiveAt := effectiveAt,
          economicVersionId := none, deletedAt := some now, createdAt := now }
      let () ← if q.feature = "rent" then rentWithdrawal else .ok ()
      return (featureDone q effectiveAt
        (firstText q.correlationId q.idempotencyKey ("disable_feature_" ++ traceId)), S')

end Disable

inductive FeatureAction
  | enable (now : Instant) (traceId : String) (readiness : FieldValue → Option String)
      (economicVersionId : String) (q : FeatureRequest)
  | disable (now : Instant) (traceId : String) (rentWithdrawal : Except Raise Unit)
      (q : FeatureRequest)
  | evolve (c : EvolveCall)

def FeatureAction.isEvolve : FeatureAction → Bool
  | .evolve _ => true
  | _ => false

def featureStep (S : EconomyState) : FeatureAction → EconomyState
  | .enable now traceId readiness economicVersionId q =>
    committed S (enableFeature S now economicVersionId q traceId readiness)
  | .disable now traceId rentWithdrawal q =>
    committed S (disableFeature S now q traceId rentWithdrawal)
  | .evolve c => evolveStep S c

end TokenHub.Economy
