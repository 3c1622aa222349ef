import Mathlib.Data.Rat.Defs
import Mathlib.Data.Prod.Lex
import Mathlib.Data.String.Basic
import Mathlib.Order.Lex
import TokenHub.Ledger.Rows
import TokenHub.Lib.Timeline

set_option autoImplicit false

namespace TokenHub.Economy

open Lib.Timeline

abbrev Instant := ℤ

/-- The fields of `_CARRY_FORWARD_FIELDS`. -/
inductive EngineField
  | economyPolicyMode
  | expectedWeeklyHours
  | interestRate
  | interestCalculationType
  | compoundFrequency
  | interestAccrualFrequency
  | interestPayoutFrequency
  | flatOverdraftFee
  | progressiveOverdraftFee
  | overdraftProtectionEnabled
deriving DecidableEq, Repr

def EngineField.name : EngineField → String
  | .economyPolicyMode => "economy_policy_mode"
  | .expectedWeeklyHours => "expected_weekly_hours"
  | .interestRate => "interest_rate"
  | .interestCalculationType => "interest_calculation_type"
  | .compoundFrequency => "compound_frequency"
  | .interestAccrualFrequency => "interest_accrual_frequency"
  | .interestPayoutFrequency => "interest_payout_frequency"
  | .flatOverdraftFee => "flat_overdraft_fee"
  | .progressiveOverdraftFee => "progressive_overdraft_fee"
  | .overdraftProtectionEnabled => "overdraft_protection_enabled"

/-- A value of an update or of a stored field. A text is one that `float` does not read; `other` is
any further value that no column takes. -/
inductive FieldValue
  | null
  | text (s : String)
  | number (q : ℚ)
  | flag (b : Bool)
  | tiers (tier₁ tier₂ tier₃ : ℚ)
  | other
deriving DecidableEq, Repr

structure EconomicEngine where
  economicVersionId : String
  classId : String
  previousVersionId : Option String
  createdAt : Instant
  effectiveAt : Instant
  fields : EngineField → FieldValue

/-- The columns of `_engine_newest_first`. -/
def EconomicEngine.rank (e : EconomicEngine) : ℤ ×ₗ ℤ ×ₗ String :=
  toLex (e.effectiveAt, toLex (e.createdAt, e.economicVersionId))

/-- One row of `class_features`; without an economic version it is a disablement. -/
structure ClassFeature where
  classId : String
  feature : String
  effectiveAt : Instant
  economicVersionId : Option String
  deletedAt : Option Instant
  createdAt : Instant
deriving DecidableEq, Repr

def ClassFeature.featureNames : List String :=
  ["payroll", "insurance", "banking", "rent", "hall_pass", "store"]

structure EconomyState where
  /-- The classes that exist. -/
  classes : List String
  /-- The class of a seat. -/
  seatClass : ℕ → Option String
  engines : List EconomicEngine
  features : List ClassFeature

structure CanonicalContext where
  classId : String
  seatId : ℕ
  actorRole : String
deriving DecidableEq, Repr

section Queries

variable (S : EconomyState) (classId : String) (t : Instant)

def economicEngineEffectiveAt : Option EconomicEngine :=
  if classId = "" then none
  else inForce EconomicEngine.rank (·.effectiveAt) t (S.engines.filter (·.classId = classId))

def getEconomicEngineByVersion (economicVersionId : String) : Option EconomicEngine :=
  S.engines.find? (fun e ↦ e.economicVersionId = economicVersionId ∧ e.classId = classId)

def latestFeature (feature : String) : Option ClassFeature :=
  inForce (·.effectiveAt) (·.effectiveAt) t
    (S.features.filter (fun r ↦ r.classId = classId ∧ r.feature = feature))

def getClassFeature (feature : String) : Option ClassFeature :=
  (latestFeature S classId t feature).filter (·.economicVersionId.isSome)

def isFeatureEnabled (feature : String) : Bool :=
  (getClassFeature S classId t feature).isSome

/-- `get_class_features`, as the names that it reports. The table's check constraint closes the
vocabulary of features. -/
def getClassFeatures : List String :=
  ClassFeature.featureNames.filter (isFeatureEnabled S classId t)

def featureRowAt (feature : String) : Option ClassFeature :=
  S.features.find? (fun r ↦ r.classId = classId ∧ r.feature = feature ∧ r.effectiveAt = t)

end Queries

end TokenHub.Economy
