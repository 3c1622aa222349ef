import TokenHub.Insurance.Filing

set_option autoImplicit false

namespace TokenHub.Insurance

open Ledger Rent Lib.Decimals Lib.Checks

structure DateAdjustment where
  hours : Option Magnitude
  note : String := ""
deriving DecidableEq, Repr

structure ResolveRequest where
  classId : String
  claimId : ℕ
  approved : Bool
  teacherSeatId : ℕ
  overrideReason : Option String := none
  filingWindowOverrideReason : String := ""
  dateAdjustments : ℤ → Option DateAdjustment := fun _ ↦ none
  idempotencyKey : String

def getClaim (S : InsuranceState) (classId : String) (claimId : ℕ) : Option InsuranceClaim :=
  S.claims.find? (fun c ↦ c.claimId = claimId ∧ c.classId = classId)

structure ClaimDecision where
  approved : Bool
  decidedBySeatId : ℕ
  decidedAt : Instant
  decisionNote : Option String := none
  filingWindowOverrideReason : String := ""
  resultAmount : Option ℤ := none
  payrollEventId : Option ℕ := none
  ledgerTransactionId : Option ℕ := none

def ClaimDecision.record (d : ClaimDecision) (c : InsuranceClaim) : InsuranceClaim :=
  { c with
    status := if d.approved then .approved else .rejected
    decidedBySeatId := some d.decidedBySeatId
    decidedAt := some d.decidedAt
    decisionNote := d.decisionNote
    filingWindowOverrideReason := if d.filingWindowOverrideReason = "" then
      c.filingWindowOverrideReason else some d.filingWindowOverrideReason
    resultAmount := if d.approved then d.resultAmount else c.resultAmount
    payrollEventId := if d.approved then d.payrollEventId else c.payrollEventId
    ledgerTransactionId := if d.approved then d.ledgerTransactionId else c.ledgerTransactionId }

def decideClaim (S : InsuranceState) (classId : String) (claimId : ℕ) (d : ClaimDecision) :
    Except Raise InsuranceState := do
  let claim ← demand (getClaim S classId claimId)
    (.domainError "ClaimNotFound" "Claim not found in the class")
  require (claim.status = .submitted)
    (.domainError "ClaimAlreadyDecided" "decisions are immutable")
  return { S with claims := S.claims.map (fun c ↦
    if c.claimId = claimId ∧ c.classId = classId then d.record c else c) }

section Pricing

/-- `_quantize_currency` of a percentage of an amount in cents. -/
def percentOf (cents percentHundredths : ℕ) : ℤ :=
  Decimal.divHalfEven (cents * percentHundredths) 10000

def defaultPayRatePerMinute : Magnitude := ⟨25, -2⟩

def payRatePerSecond (setting : Option PayrollSetting) : Magnitude :=
  match setting with
  | none => defaultPayRatePerMinute.div ⟨60, 0⟩
  | some s =>
    if s.payRate.coefficient = 0 then defaultPayRatePerMinute.div ⟨60, 0⟩
    else s.payRate.div ⟨60, 0⟩

def hourlyPayRate (setting : Option PayrollSetting) : Magnitude :=
  (payRatePerSecond setting).mul ⟨3600, 0⟩

def grossPayout (hours hourlyRate : Magnitude) (percentHundredths : ℕ) : Except Raise ℤ := do
  let cents ← demand
    ((((hours.mul hourlyRate).mul (.ofHundredths percentHundredths)).div ⟨100, 0⟩).toHundredths)
    .decimalInvalidOperation
  return cents

end Pricing

structure Adjudication where
  claimDate : ℤ
  approvedHours : Magnitude
  note : String
  recognizedPayout : ℤ

section Productivity

def adjustedHours (r : ProductivityDate) (adjustment : Option DateAdjustment) :
    Except String (Magnitude × String) := do
  let claimed := Magnitude.ofHundredths r.studentClaimedHours
  let hours := (adjustment.bind (·.hours)).getD claimed
  let note := (adjustment.map (·.note)).getD ""
  require (hours.le claimed) "ADJUSTMENT_EXCEEDS_CLAIM"
  require (claimed.le hours ∨ strip note ≠ "") "ADJUSTMENT_NOTE_REQUIRED"
  return (hours, note)

variable (adjustments : ℤ → Option DateAdjustment) (hourlyRate : Magnitude) (percent : ℕ)

/-- The dates of a claim valued one after another, each within what the earlier ones left. An
inner error is a refusal. -/
def adjudicateDates : ℤ → List ProductivityDate → Except Raise (Except String (List Adjudication))
  | _, [] => return .ok []
  | remaining, r :: rs =>
    match adjustedHours r (adjustments r.claimDate) with
    | .error code => return .error code
    | .ok (hours, note) => do
      let gross ← grossPayout hours hourlyRate percent
      let recognized := max 0 (min gross remaining)
      match ← adjudicateDates (remaining - recognized) rs with
      | .error code => return .error code
      | .ok as => return .ok (⟨r.claimDate, hours, note, recognized⟩ :: as)

def Adjudication.record (as : List Adjudication) (claimId : ℕ) (classId : String)
    (r : ProductivityDate) : ProductivityDate :=
  match as.find? (fun a ↦ a.claimDate = r.claimDate ∧ r.claimId = claimId ∧
      r.classId = classId) with
  | none => r
  | some a => { r with teacherApprovedHours := some a.approvedHours,
                       adjustmentNote := some a.note,
                       recognizedPayout := some a.recognizedPayout }

end Productivity

section Credit

variable (sha256 : String → String) (env : ClaimSurroundings) (feat : FeatContext)

structure ManualCredit where
  classId : String
  targetSeatId : ℕ
  actorSeatId : ℕ
  idempotencyKey : String
  policyUuid : String
  amount : ℤ
  insuranceClaimId : ℕ

def ManualCredit.effect (q : ManualCredit) : Effect where
  seatId := q.targetSeatId
  classId := q.classId
  targetSeatId := q.targetSeatId
  actorSeatId := q.actorSeatId
  mechanism := "system"
  amount := some (.ofCents q.amount)
  accountType := "checking"
  type := some "manual_payment"

/-- `_record_payroll_event_impl` of a `manual_credit`: the event and its Ledger credit. A known
key replays its event. -/
def recordManualCredit (S : InsuranceState) (q : ManualCredit) :
    Except Raise (ℕ × InsuranceState) :=
  match S.payrollEvents.find? (fun e ↦ e.classId = q.classId ∧
      e.targetSeatId = q.targetSeatId ∧ e.idempotencyKey = q.idempotencyKey) with
  | some e => return (e.id, S)
  | none => do
    require (∃ s ∈ S.seats, s.id = q.targetSeatId ∧ s.classId = q.classId ∧ s.claimedAt.isSome)
      (.valueError "A payroll event target seat must be claimed.")
    let (rows, L) ← createPendingTransaction sha256 feat S.ledger (some q.idempotencyKey) none
      q.effect
    let row ← demand rows.head? (.runtimeError "the credit has no row")
    let event : PayrollEvent :=
      { id := S.payrollEvents.length + 1, classId := q.classId, targetSeatId := q.targetSeatId,
        idempotencyKey := q.idempotencyKey, policyUuid := q.policyUuid, amount := q.amount,
        insuranceClaimId := q.insuranceClaimId, ledgerTransactionId := row.id }
    return (event.id, { S with ledger := L, payrollEvents := S.payrollEvents ++ [event] })

def approvalOf (q : ResolveRequest) (resultAmount : ℤ) (payrollEventId : Option ℕ)
    (ledgerTransactionId : Option ℕ) (overrideReason : String) : ClaimDecision where
  approved := true
  decidedBySeatId := q.teacherSeatId
  decidedAt := feat.canonicalNowUtc
  decisionNote := q.overrideReason
  filingWindowOverrideReason := overrideReason
  resultAmount := some resultAmount
  payrollEventId := payrollEventId
  ledgerTransactionId := ledgerTransactionId

/-- The money of a productivity approval: one manual credit, where there is anything to pay. -/
def payProductivityClaim (S : InsuranceState) (q : ResolveRequest) (claim : InsuranceClaim)
    (total : ℤ) : Except Raise (Option ℕ × InsuranceState) :=
  if 0 < total then do
    let setting ← demand (env.payrollSetting q.classId)
      (.valueError "No payroll settings to post MANUAL_CREDIT under")
    let (eventId, S') ← recordManualCredit sha256 feat S
      { classId := q.classId, targetSeatId := claim.targetSeatId, actorSeatId := q.teacherSeatId,
        idempotencyKey := q.idempotencyKey, policyUuid := setting.policyUuid, amount := total,
        insuranceClaimId := claim.claimId }
    return (some eventId, S')
  else return (none, S)

/-- `_approve_productivity_claim`. An inner error is a refusal. -/
def approveProductivityClaim (S : InsuranceState) (q : ResolveRequest) (claim : InsuranceClaim)
    (policy : InsurancePolicy) : Except Raise (Except String (ClaimResult × InsuranceState)) :=
  match policy.reimbursementPercentage with
  | none => return .error "CLAIM_TYPE_UNSUPPORTED"
  | some percent =>
    let rows := listProductivityDates S q.classId claim.claimId
    if ¬ productivityDatesComplete claim rows then return .error "INVALID_CLAIM_BASIS"
    else do
      let period ← periodForClaim S claim
      let remaining := maximumPolicyPayout policy -
        sumRecognizedPayout S q.classId claim.entitlementId period.startUtc period.endUtc
      if remaining ≤ 0 then return .error "CLAIM_ALLOWANCE_EXHAUSTED"
      else
        match ← adjudicateDates q.dateAdjustments (hourlyPayRate (env.payrollSetting q.classId))
            percent remaining rows with
        | .error code => return .error code
        | .ok as =>
          let total := (as.map (·.recognizedPayout)).sum
          -- The money comes first: where it fails, nothing of the approval is recorded.
          match payProductivityClaim sha256 env feat S q claim total with
          | .error _ => return .error "PAYROLL_COMPENSATION_FAILED"
          | .ok (eventId, S₁) =>
            let claimDates := S₁.claimDates.map (Adjudication.record as claim.claimId q.classId)
            let S₂ ← decideClaim { S₁ with claimDates := claimDates } q.classId claim.claimId
              (approvalOf feat q total eventId none "")
            return .ok ({ success := true, claimId := some claim.claimId,
                          decision := some .approved, amount := some total }, S₂)

end Credit

section Resolution

variable (sha256 : String → String) (zone : CoverageZone) (env : ClaimSurroundings)
  (feat : FeatContext)

def reimbursementEffect (q : ResolveRequest) (claim : InsuranceClaim) (source : Transaction)
    (amount : ℤ) : Effect where
  seatId := claim.targetSeatId
  classId := q.classId
  targetSeatId := claim.targetSeatId
  actorSeatId := q.teacherSeatId
  mechanism := "system"
  amount := some (.ofCents amount)
  accountType := "checking"
  type := some "insurance_reimbursement"
  originalTransactionId := some source.id

/-- What a transaction claim is paid: its share of the loss, within what the period of its filing
has left. An inner error is a refusal. -/
def transactionPayout (S : InsuranceState) (q : ResolveRequest) (claim : InsuranceClaim)
    (policy : InsurancePolicy) :
    Except Raise (Except String (Transaction × ℤ)) :=
  match claim.claimBasis.transactionId with
  | none => return .error "INVALID_CLAIM_SUBJECT"
  | some transactionId =>
    match (S.ledger.transactions.find? (·.id = transactionId)).filter (·.classId = q.classId) with
    | none => return .error "INVALID_CLAIM_SUBJECT"
    | some source =>
      match policy.insuranceType, policy.reimbursementPercentage with
      | .transaction, some percent =>
        if transactionClaimProblem env S (some source) q.classId claim.targetSeatId ≠ none then
          return .error "INELIGIBLE_TRANSACTION"
        else if (∃ days ∈ policy.claimWindowDays,
              filingDeadlineEnd zone.toClassZone source.timestamp days ≤ claim.submittedAt) ∧
            strip q.filingWindowOverrideReason = "" then
          return .error "FILING_WINDOW_OVERRIDE_REQUIRED"
        else if percentOf source.amountCents.natAbs percent ≤ 0 then
          return .error "INVALID_CLAIM_SUBJECT"
        else do
          let period ← periodForClaim S claim
          let remaining := maximumPolicyPayout policy -
            sumApprovedPayouts S q.classId claim.entitlementId period.startUtc period.endUtc
          if remaining ≤ 0 then return .error "CLAIM_ALLOWANCE_EXHAUSTED"
          else return .ok (source, min (percentOf source.amountCents.natAbs percent) remaining)
      | _, _ => return .error "CLAIM_TYPE_UNSUPPORTED"

/-- The approval of a claim on a transaction: one credit, and the decision that names it. -/
def approveTransactionClaim (S : InsuranceState) (q : ResolveRequest) (claim : InsuranceClaim)
    (policy : InsurancePolicy) : Except Raise (Except String (ClaimResult × InsuranceState)) := do
  match ← transactionPayout zone env S q claim policy with
  | .error code => return .error code
  | .ok (source, amount) => do
    let ((rows, _), L) ← createIdempotentTransaction sha256 feat S.ledger S.ledger.reservations
      q.idempotencyKey (reimbursementEffect q claim source amount)
    let row ← demand rows.head? (.runtimeError "the credit has no row")
    let S' ← decideClaim { S with ledger := L } q.classId claim.claimId
      (approvalOf feat q amount none (some row.id) q.filingWindowOverrideReason)
    return .ok ({ success := true, claimId := some claim.claimId, decision := some .approved,
                  amount := some amount }, S')

def rejectClaim (S : InsuranceState) (q : ResolveRequest) (claim : InsuranceClaim) :
    Except Raise (Except String (ClaimResult × InsuranceState)) := do
  let S' ← decideClaim S q.classId claim.claimId
    { approved := false, decidedBySeatId := q.teacherSeatId, decidedAt := feat.canonicalNowUtc,
      decisionNote := q.overrideReason }
  return .ok ({ success := true, claimId := some claim.claimId, decision := some .rejected }, S')

def decideSubmitted (S : InsuranceState) (q : ResolveRequest) (claim : InsuranceClaim) :
    Except Raise (Except String (ClaimResult × InsuranceState)) :=
  match resolveClaimPolicy S q.classId claim.targetSeatId claim.entitlementId with
  | .error _ => return .error "POLICY_UNRESOLVABLE"
  | .ok policy =>
    if S.ledger.seatClass claim.targetSeatId = none then return .error "STUDENT_SEAT_NOT_FOUND"
    else if q.approved = false then rejectClaim feat S q claim
    else if policy.insuranceType = .productivity then
      approveProductivityClaim sha256 env feat S q claim policy
    else approveTransactionClaim sha256 zone env feat S q claim policy

/-- `_resolve_insurance_claim_impl`. A refusal or an exception leaves every table as it was. -/
def resolveInsuranceClaim (S : InsuranceState) (q : ResolveRequest) :
    ClaimResult × InsuranceState :=
  if S.ledger.seatClass q.teacherSeatId ≠ some q.classId then (.refused "UNAUTHORIZED", S)
  else
    match getClaim S q.classId q.claimId with
    | none => (.refused "CLAIM_NOT_FOUND", S)
    | some claim =>
      if claim.status ≠ .submitted then (.refused "ALREADY_DECIDED", S)
      else
        match decideSubmitted sha256 zone env feat S q claim with
        | .error _ => (.refused "INTERNAL_ERROR", S)
        | .ok (.error code) => (.refused code, S)
        | .ok (.ok result) => result

end Resolution

/-- The command key under which a teacher's review approves a claim. -/
def adminApprovalKey (claimId : ℕ) : String := "admin-insurance-approve:" ++ numberText claimId

end TokenHub.Insurance
