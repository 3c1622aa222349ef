import TokenHub.Lib.Magnitude
import TokenHub.Rent.Reconcile

set_option autoImplicit false

namespace TokenHub.Insurance

open Ledger Rent Lib.Decimals

inductive InsuranceType
  | transaction
  | productivity
  | nonMonetary
deriving DecidableEq, Repr

inductive ChargeFrequency
  | weekly
  | monthly
deriving DecidableEq, Repr

inductive NonpaymentMode
  | accumulate
  | cancelAfterXDays
deriving DecidableEq, Repr

/-- One row of `insurance_policies`: an immutable version but for its availability. Amounts are
held in cents, percentages and multiples in hundredths, weekly equivalents in thousandths. A
nonpayment mode outside the vocabulary reads as none. -/
structure InsurancePolicy where
  policyUuid : String
  classId : String
  insuranceType : InsuranceType
  premium : ℕ
  chargeFrequency : ChargeFrequency
  reimbursementPercentage : Option ℕ
  payoutMultiple : Option ℕ
  claimsPerWeekEquivalent : Option ℕ
  claimWindowDays : Option ℕ
  claimableDatesPerWeekEquivalent : Option ℕ
  waitingPeriodDays : Option ℕ
  billPreviewDays : Option ℤ
  nonpaymentMode : Option NonpaymentMode
  cancelAfterDays : Option ℤ
  tierGroupId : Option String
  supersedesPolicyUuid : Option String
  availabilityState : AvailabilityState
  createdAt : Instant
  /-- `ck_insurance_policies_reimbursement_range`. -/
  reimbursement_range : ∀ r ∈ reimbursementPercentage, r ≤ 10000
  /-- `ck_insurance_policies_type_subset`. -/
  type_subset : match insuranceType with
    | .transaction => reimbursementPercentage.isSome ∧ payoutMultiple.isSome ∧
        claimsPerWeekEquivalent.isSome ∧ claimWindowDays.isSome ∧
        claimableDatesPerWeekEquivalent = none
    | .productivity => reimbursementPercentage.isSome ∧ payoutMultiple.isSome ∧
        claimableDatesPerWeekEquivalent.isSome ∧ claimsPerWeekEquivalent = none ∧
        claimWindowDays = none
    | .nonMonetary => claimsPerWeekEquivalent.isSome ∧ waitingPeriodDays.isSome ∧
        reimbursementPercentage = none ∧ payoutMultiple = none ∧ claimWindowDays = none ∧
        claimableDatesPerWeekEquivalent = none
deriving DecidableEq, Repr

/-- One row of `entitlement_events` of the type `INSURANCE`, with the keys of its payload that
are read back. The random entitlement id is a fresh number here. -/
structure CoverageEvent where
  classId : String
  targetSeatId : ℕ
  actorSeatId : ℕ
  entitlementId : ℕ
  acquisitionType : AcquisitionType
  eventType : EntitlementEventType
  correlationId : String
  policyUuid : String
  continuesEntitlementId : Option ℕ := none
  timestamp : Instant
deriving DecidableEq, Repr

/-- One entry of `claimed_dates` as submitted: what its texts read as, where they read. -/
structure ClaimedDateEntry where
  date : Option ℤ
  hours : Option Decimal
  explanation : String
deriving DecidableEq, Repr

/-- The submitted facts of a claim, `claim_basis`. -/
structure ClaimSubject where
  transactionId : Option ℕ := none
  claimedDates : List ClaimedDateEntry := []
  additionalInformation : Option String := none
deriving DecidableEq, Repr

inductive ClaimStatus
  | submitted
  | approved
  | rejected
deriving DecidableEq, Repr

structure InsuranceClaim where
  claimId : ℕ
  classId : String
  entitlementId : ℕ
  targetSeatId : ℕ
  actorSeatId : ℕ
  status : ClaimStatus := .submitted
  correlationId : String
  claimBasis : ClaimSubject
  submittedAt : Instant
  decidedAt : Option Instant := none
  decidedBySeatId : Option ℕ := none
  decisionNote : Option String := none
  filingWindowOverrideReason : Option String := none
  resultAmount : Option ℤ := none
  payrollEventId : Option ℕ := none
  ledgerTransactionId : Option ℕ := none
deriving DecidableEq, Repr

/-- One row of `insurance_claim_productivity_dates`. Hours are held in hundredths. -/
structure ProductivityDate where
  claimId : ℕ
  entitlementId : ℕ
  classId : String
  claimDate : ℤ
  studentClaimedHours : ℕ
  studentExplanation : String
  teacherApprovedHours : Option Magnitude := none
  adjustmentNote : Option String := none
  recognizedPayout : Option ℤ := none
deriving DecidableEq, Repr

/-- One row of `payroll_events` of the type `manual_credit`. -/
structure PayrollEvent where
  id : ℕ
  classId : String
  targetSeatId : ℕ
  idempotencyKey : String
  policyUuid : String
  amount : ℤ
  insuranceClaimId : ℕ
  ledgerTransactionId : ℕ
deriving DecidableEq, Repr

/-- The tables that the insurance commands read and write, beside those of the obligations. -/
structure InsuranceState extends RentState where
  policies : List InsurancePolicy
  coverageEvents : List CoverageEvent
  claims : List InsuranceClaim
  claimDates : List ProductivityDate
  payrollEvents : List PayrollEvent

def premiumColumn (policies : List InsurancePolicy) (policyUuid classId : String) : Option ℤ :=
  (policies.find? (fun p ↦ p.policyUuid = policyUuid ∧ p.classId = classId)).map (·.premium)

def InsuranceState.empty (seatClass : ℕ → Option String) : InsuranceState where
  toRentState := .empty seatClass (premiumColumn [])
  policies := []
  coverageEvents := []
  claims := []
  claimDates := []
  payrollEvents := []

/-- The civil time of a class whose timestamps can be moved by calendar days, the local time of
day kept. -/
structure CoverageZone extends ClassZone where
  shiftDays : Instant → ℤ → Instant
  le_localDate : ∀ t d, startOfDate d ≤ t → d ≤ localDate t

end TokenHub.Insurance
