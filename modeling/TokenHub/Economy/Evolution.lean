import Mathlib.Data.Rat.Floor
import TokenHub.Economy.Rows
import TokenHub.Lib.Checks

set_option autoImplicit false

namespace TokenHub.Economy

open Ledger Lib.Checks

section Validation

def validPolicyModes : List String := ["tight", "default", "comfortable"]

def validCalcTypes : List String := ["simple", "compound"]

def validCompoundFreqs : List String := ["never", "daily", "weekly", "monthly"]

def validAccrualFreqs : List String := ["daily", "weekly", "monthly"]

def validPayoutFreqs : List String := ["weekly", "monthly"]

def toFloat : FieldValue → Option ℚ
  | .number q => some q
  | .flag b => some (if b then 1 else 0)
  | _ => none

/-- A value out of a closed list, or unset where that is allowed. -/
def isOneOf (choices : List String) : FieldValue → Bool
  | .text s => s ∈ choices
  | _ => false

/-- `_validate_engine_field`: the complaint about a value, if there is one. -/
def validateEngineField (fieldName : String) (value : FieldValue) : Option String :=
  match fieldName with
  | "economy_policy_mode" =>
    if isOneOf validPolicyModes value then none
    else some "economy_policy_mode must be one of ('tight', 'default', 'comfortable')"
  | "expected_weekly_hours" =>
    match toFloat value with
    | none => some "expected_weekly_hours must be numeric"
    | some v => if v ≤ 0 then some "expected_weekly_hours must be > 0" else none
  | "interest_rate" =>
    match toFloat value with
    | none => some "interest_rate must be numeric"
    | some v => if v < 0 ∨ 1 < v then some "interest_rate must be between 0 and 1.0" else none
  | "interest_calculation_type" =>
    if value = .null ∨ isOneOf validCalcTypes value then none
    else some "interest_calculation_type must be one of ('simple', 'compound')"
  | "compound_frequency" =>
    if value = .null ∨ isOneOf validCompoundFreqs value then none
    else some "compound_frequency must be one of ('never', 'daily', 'weekly', 'monthly')"
  | "interest_accrual_frequency" =>
    if value = .null ∨ isOneOf validAccrualFreqs value then none
    else some "interest_accrual_frequency must be one of ('daily', 'weekly', 'monthly')"
  | "interest_payout_frequency" =>
    if value = .null ∨ isOneOf validPayoutFreqs value then none
    else some "interest_payout_frequency must be one of ('weekly', 'monthly')"
  | "flat_overdraft_fee" =>
    if value = .null then none
    else
      match toFloat value with
      | none => some "flat_overdraft_fee must be numeric"
      | some v => if v < 0 then some "flat_overdraft_fee must be >= 0" else none
  | "progressive_overdraft_fee" =>
    match value with
    | .null => none
    | .tiers tier₁ tier₂ tier₃ =>
      if tier₁ < 0 ∨ tier₂ < 0 ∨ tier₃ < 0 then
        some "progressive_overdraft_fee tiers must be >= 0"
      else none
    | _ => some "progressive_overdraft_fee must contain tier_1, tier_2, and tier_3"
  | "overdraft_protection_enabled" =>
    match value with
    | .null => none
    | .flag _ => none
    | _ => some "overdraft_protection_enabled must be boolean or unset"
  | _ => some ("'" ++ fieldName ++ "' is not a valid EconomicEngine field for FEAT-CLASS-005")

def validateBankingSchedule (fields : EngineField → FieldValue) : Except String Unit := do
  require (fields .interestCalculationType = .text "compound" →
      isOneOf ["daily", "weekly", "monthly"] (fields .compoundFrequency) = true)
    "Compound interest requires a daily, weekly, or monthly cadence"
  require (fields .interestCalculationType = .text "simple" →
      fields .compoundFrequency = .null ∨ fields .compoundFrequency = .text "never")
    "Simple interest cannot have a compounding cadence"

end Validation

/-- An `effective_at` argument: absent, no timestamp with an offset, or an instant. -/
inductive EffectiveAt
  | omitted
  | malformed
  | instant (t : Instant)
deriving DecidableEq, Repr

structure EvolutionRequest where
  context : Option CanonicalContext
  classId : String
  updates : List (String × FieldValue)
  featureList : List String
  effectiveAt : EffectiveAt := .omitted
  correlationId : Option String := none
  idempotencyKey : Option String := none
deriving DecidableEq, Repr

structure EvolutionResult where
  success : Bool
  correlationId : String
  classId : Option String := none
  newEngineId : Option String := none
  newPolicyMode : Option FieldValue := none
  updatesApplied : List (String × FieldValue) := []
  featuresUpdated : List String := []
  effectiveAt : Option Instant := none
  errorCode : Option String := none
  errorMessage : Option String := none
deriving DecidableEq, Repr

def EvolutionRequest.named (q : EvolutionRequest) (f : EngineField) : Option FieldValue :=
  q.updates.lookup f.name

/-- The first of two optional texts that is not empty, as `or` reads them. -/
def firstText (a b : Option String) (default : String) : String :=
  ((a.filter (· ≠ "")).or (b.filter (· ≠ ""))).getD default

def refuseEvolution (code message : String) : EvolutionResult :=
  { success := false, correlationId := "", errorCode := some code, errorMessage := some message }

/-- The checks of a teacher's command on a class, which three commands share. -/
def checkTeacherScope {ε : Type} (S : EconomyState) (context : Option CanonicalContext)
    (classId unauthorized : String) (refuse : String → String → ε) : Except ε Unit := do
  let ctx ← demand (context.filter (fun c ↦ c.seatId ≠ 0 ∧ c.classId ≠ ""))
    (refuse "INVALID_CONTEXT" "Missing canonical context (class_id, seat_id)")
  require (classId = ctx.classId) (refuse "CLASS_SCOPE_MISMATCH"
    ("Class ID in context (" ++ ctx.classId ++ ") does not match provided class_id (" ++ classId ++
      ")"))
  require (ctx.actorRole = "teacher") (refuse "UNAUTHORIZED" unauthorized)
  require (S.seatClass ctx.seatId = some classId)
    (refuse "SEAT_NOT_FOUND" "Teacher seat not found or not in class scope")
  require (classId ∈ S.classes) (refuse "CLASS_NOT_FOUND" ("Class " ++ classId ++ " not found"))

def resolveEffectiveAt {ε : Type} (now : Instant) (effectiveAt : EffectiveAt)
    (refuse : String → String → ε) : Except ε Instant :=
  match effectiveAt with
  | .omitted => .ok now
  | .malformed =>
    .error (refuse "INVALID_EFFECTIVE_AT" "effective_at must be a valid ISO 8601 datetime string")
  | .instant t =>
    if t < now then .error (refuse "INVALID_TEMPORAL_ORDER" "effective_at cannot be in the past")
    else .ok t

def checkUpdates : List (String × FieldValue) → Except EvolutionResult Unit
  | [] => .ok ()
  | (fieldName, value) :: rest =>
    match validateEngineField fieldName value with
    | some complaint =>
      .error (refuseEvolution
        (if fieldName = "economy_policy_mode" then "INVALID_POLICY_MODE" else "INVALID_UPDATES")
        complaint)
    | none => checkUpdates rest

def invalidFeature (feature : String) : String :=
  "Feature '" ++ feature ++ "' is not valid. Must be one of: " ++
    ", ".intercalate ClassFeature.featureNames

def checkFeatures (S : EconomyState) (now : Instant) (classId : String) :
    List String → Except EvolutionResult Unit
  | [] => .ok ()
  | feature :: rest => do
    require (feature ∈ ClassFeature.featureNames)
      (refuseEvolution "INVALID_FEATURE" (invalidFeature feature))
    require (isFeatureEnabled S classId now feature = true)
      (refuseEvolution "FEATURE_NOT_ENABLED"
        ("Feature '" ++ feature ++ "' is not currently enabled for class " ++ classId))
    checkFeatures S now classId rest

/-- The read-only phase. An error is the result that the call returns at once. -/
def verifyEvolution (S : EconomyState) (now : Instant) (q : EvolutionRequest) :
    Except EvolutionResult Instant := do
  checkTeacherScope S q.context q.classId "Only teachers can transition economic policy"
    refuseEvolution
  require (q.updates ≠ []) (refuseEvolution "INVALID_UPDATES"
    "updates must be a non-empty dict of EconomicEngine field → value")
  checkUpdates q.updates
  require (q.featureList ≠ [])
    (refuseEvolution "INVALID_FEATURE_LIST" "feature_list must be a non-empty list")
  checkFeatures S now q.classId q.featureList
  resolveEffectiveAt now q.effectiveAt refuseEvolution

section Writes

/-- What a numeric column of some scale holds of a number that is not negative: ties go up. -/
def toScale (scale : ℕ) (q : ℚ) : ℚ := ⌊q * 10 ^ scale + 1 / 2⌋ / 10 ^ scale

/-- What the column of a field holds of a value. -/
def EngineField.stored : EngineField → FieldValue → FieldValue
  | .interestRate, .number q => .number (toScale 6 q)
  | .flatOverdraftFee, .number q => .number (toScale 2 q)
  | _, value => value

def EconomicEngine.stored (e : EconomicEngine) : EconomicEngine :=
  { e with fields := fun f ↦ f.stored (e.fields f) }

/-- A value that a column of numbers below `bound` takes. A boolean is no number to it. -/
def fitsColumn (bound : Option ℚ) : FieldValue → Bool
  | .null => true
  | .number q => bound.all (q < ·)
  | _ => false

/-- The column types of `economic_engine`, and the check constraints that compare fields or times;
the others restate what the validator admits of one field. -/
def insertEngine (S : EconomyState) (e : EconomicEngine) : Except Raise EconomyState := do
  require (fitsColumn none (e.stored.fields .expectedWeeklyHours) = true ∧
    fitsColumn (some 100) (e.stored.fields .interestRate) = true ∧
      fitsColumn (some 10000000000) (e.stored.fields .flatOverdraftFee) = true) .dataError
  require (∀ e' ∈ S.engines, e'.economicVersionId ≠ e.economicVersionId)
    (.integrityError "economic_engine_pkey")
  require (e.createdAt ≤ e.effectiveAt) (.integrityError "ck_economic_engine_not_retroactive")
  require (e.fields .flatOverdraftFee = .null ∨ e.fields .progressiveOverdraftFee = .null)
    (.integrityError "ck_economic_engine_overdraft_fee_exclusive")
  return { S with engines := S.engines ++ [e.stored] }

def insertFeature (S : EconomyState) (r : ClassFeature) : Except Raise EconomyState := do
  require (featureRowAt S r.classId r.effectiveAt r.feature = none)
    (.integrityError "pk_class_features")
  return { S with features := S.features ++ [r] }

def linkFeatures (now effectiveAt : Instant) (classId economicVersionId : String) :
    EconomyState → List String → Except Raise EconomyState
  | S, [] => .ok S
  | S, feature :: rest => do
    let S' ← insertFeature S
      { classId := classId, feature := feature, effectiveAt := effectiveAt,
        economicVersionId := some economicVersionId, deletedAt := none, createdAt := now }
    linkFeatures now effectiveAt classId economicVersionId S' rest

end Writes

def missingFeatures (S : EconomyState) (classId : String) (effectiveAt : Instant)
    (featureList : List String) : List String :=
  featureList.filter (fun f ↦ featureRowAt S classId effectiveAt f = none)

/-- The result of a call whose features all have their rows already. -/
def repeatedEvolution (S : EconomyState) (q : EvolutionRequest) (effectiveAt : Instant) :
    EvolutionResult :=
  let persisted := q.featureList.head?.bind fun f ↦
    (featureRowAt S q.classId effectiveAt f).bind fun r ↦
      r.economicVersionId.bind (getEconomicEngineByVersion S q.classId)
  { success := true,
    correlationId := firstText q.idempotencyKey none ("engine_evolution_idempotent_" ++ q.classId),
    classId := some q.classId, newEngineId := persisted.map (·.economicVersionId),
    newPolicyMode := (persisted.map (·.fields .economyPolicyMode)).or
      (q.named .economyPolicyMode),
    updatesApplied := q.updates, featuresUpdated := q.featureList.mergeSort,
    effectiveAt := some effectiveAt }

/-- The version that a call records: what it names, and the rest carried from the version that
will be in force at its effective instant. -/
def evolvedEngine (q : EvolutionRequest) (now effectiveAt : Instant) (versionId : String)
    (current : EconomicEngine) : EconomicEngine where
  economicVersionId := versionId
  classId := q.classId
  previousVersionId := some current.economicVersionId
  createdAt := now
  effectiveAt := effectiveAt
  fields := fun f ↦ (q.named f).getD (current.fields f)

/-- `evolve_economic_engine`. `versionId` and `traceId` are the random identities that the call
draws. -/
def evolveEconomicEngine (S : EconomyState) (now : Instant) (versionId traceId : String)
    (q : EvolutionRequest) : Except Raise (EvolutionResult × EconomyState) :=
  match verifyEvolution S now q with
  | .error result => .ok (result, S)
  | .ok effectiveAt =>
    if missingFeatures S q.classId effectiveAt q.featureList = [] then
      .ok (repeatedEvolution S q effectiveAt, S)
    else
      match economicEngineEffectiveAt S q.classId effectiveAt with
      | none => .ok (refuseEvolution "NO_CURRENT_ENGINE"
          ("No economic engine version found for class " ++ q.classId), S)
      | some current =>
        let correlationId :=
          firstText q.correlationId q.idempotencyKey ("engine_evolution_" ++ traceId)
        let e := evolvedEngine q now effectiveAt versionId current
        let schedule :=
          if (q.named .interestCalculationType).isSome ∨ (q.named .compoundFrequency).isSome then
            validateBankingSchedule e.fields
          else .ok ()
        match schedule with
        | .error complaint => .ok ({ refuseEvolution "INVALID_UPDATES" complaint with
            correlationId := correlationId }, S)
        | .ok () => do
          let S₁ ← insertEngine S e
          let S₂ ← linkFeatures now effectiveAt q.classId versionId S₁
            (missingFeatures S q.classId effectiveAt q.featureList)
          return ({ success := true, correlationId := correlationId, classId := some q.classId,
                    newEngineId := some versionId,
                    newPolicyMode := some (e.fields .economyPolicyMode),
                    updatesApplied := q.updates, featuresUpdated := q.featureList.mergeSort,
                    effectiveAt := some effectiveAt }, S₂)

end TokenHub.Economy
