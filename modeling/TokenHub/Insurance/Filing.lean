import TokenHub.Insurance.Commands

set_option autoImplicit false

namespace TokenHub.Insurance

open Ledger Rent Lib.Decimals Lib.Checks

/-- A payroll setting, of which only the rate per minute prices a claim. -/
structure PayrollSetting where
  policyUuid : String
  payRate : Magnitude
deriving DecidableEq, Repr

/-- What the claim commands ask of other domains, beside what every command does. -/
structure ClaimSurroundings extends Surroundings where
  /-- The correlations of collective-goal contributions, by class. -/
  goalCorrelations : List (String × String)
  /-- `require_ready_base` of a class succeeds. -/
  baseReady : String → Bool
  /-- `current_daily_limit_seconds`. -/
  dailyLimitSeconds : String → Option ℕ
  /-- `calculate_worked_attendance_seconds_for_date`. -/
  workedSeconds : ℕ → String → ℤ → ℕ
  /-- `current_payroll_setting`. -/
  payrollSetting : String → Option PayrollSetting

structure ClaimResult where
  success : Bool := false
  claimId : Option ℕ := none
  decision : Option ClaimStatus := none
  amount : Option ℤ := none
  errorCode : Option String := none
deriving DecidableEq, Repr

def ClaimResult.refused (code : String) : ClaimResult := { errorCode := some code }

def strip (s : String) : String :=
  String.ofList (((s.toList.dropWhile isSpace).reverse.dropWhile isSpace).reverse)

section Eligibility

def disallowedTransactionTypes : List String :=
  ["insurance_reimbursement", "insurance_premium", "overdraft_fee", "interest", "payroll",
    "void_item_removed"]

def transferTypes : List String := ["withdrawal", "deposit", "transfer"]

def obligationTypes : List String := ["rent", "property_tax"]

def normalizedType (t : Transaction) : String :=
  match t.type with
  | none => ""
  | some type => String.ofList (type.value.toList.map Char.toLower)

variable (env : ClaimSurroundings) (S : InsuranceState)

/-- A compensating row of a transaction: one marked so, or a reversal. -/
def compensates (t u : Transaction) : Prop :=
  u.classId = t.classId ∧ u.seatId = t.seatId ∧ u.accountType = t.accountType ∧
    u.originalTransactionId = some t.id ∧
    (u.compensationSubtype.isSome ∨ u.type = some .legacyReversal)

instance (t u : Transaction) : Decidable (compensates t u) := by
  unfold compensates; infer_instance

/-- The item grants that share a transaction's correlation. -/
def correlatedGrants (classId correlationId : String) : List EntitlementEvent :=
  if correlationId = "" then []
  else S.entitlementEvents.filter (fun e ↦ e.classId = classId ∧
    e.correlationId = some correlationId ∧ e.eventType = .granted)

def entitlementHasEvent (classId : String) (entitlementId : ℕ)
    (types : List EntitlementEventType) : Bool :=
  S.entitlementEvents.any (fun e ↦ e.classId = classId ∧ e.entitlementId = entitlementId ∧
    e.eventType ∈ types)

def itemProblem (classId : String) (e : EntitlementEvent) : Option String :=
  if entitlementHasEvent S classId e.entitlementId [.revoked, .expired] then
    some "ITEM_REVOKED_OR_EXPIRED"
  else if entitlementHasEvent S classId e.entitlementId [.consumed] ||
      decide (e.entitlementType = .hallPass ∧ e.entitlementId ∈ env.usedHallPasses) then none
  else some "ITEM_NOT_YET_USED"

local instance correlation_lawful : LawfulBEq (String × String) := inferInstance

/-- `evaluate_transaction_claim_basis`: why a transaction may not back a claim, if so. -/
def transactionClaimProblem (transaction : Option Transaction) (classId : String)
    (coveredSeatId : ℕ) : Option String :=
  match transaction with
  | none => some "TRANSACTION_NOT_FOUND"
  | some t =>
    if t.classId ≠ classId then some "TRANSACTION_WRONG_CLASS"
    else if t.seatId ≠ coveredSeatId then some "TRANSACTION_WRONG_SEAT"
    else if S.ledger.transactions.any (fun u ↦ compensates t u) then
      some "TRANSACTION_ALREADY_COMPENSATED"
    else if 0 ≤ t.amountCents then some "TRANSACTION_NOT_A_LOSS"
    else if normalizedType t ∈ transferTypes then some "TRANSFER_NOT_INSURABLE"
    else if normalizedType t ∈ obligationTypes then some "OBLIGATION_NOT_INSURABLE"
    else if normalizedType t ∈ disallowedTransactionTypes then some "DISALLOWED_CATEGORY"
    else if (classId, t.correlationId) ∈ env.goalCorrelations then some "GOAL_NOT_INSURABLE"
    else (correlatedGrants S classId t.correlationId).findSome? (itemProblem env S classId)

end Eligibility

section History

variable (S : InsuranceState) (classId : String) (entitlementId : ℕ)

/-- `list_claims_for_entitlement`. Its readers count, add up or look for any. -/
def listClaims : List InsuranceClaim :=
  S.claims.filter (fun c ↦ c.classId = classId ∧ c.entitlementId = entitlementId)

def FiledIn (submittedFrom submittedBefore : Instant) (c : InsuranceClaim) : Prop :=
  submittedFrom ≤ c.submittedAt ∧ c.submittedAt < submittedBefore

instance (a b : Instant) : DecidablePred (FiledIn a b) := fun _ ↦ by
  unfold FiledIn; infer_instance

def sumApprovedPayouts (submittedFrom submittedBefore : Instant) : ℤ :=
  (((listClaims S classId entitlementId).filter (fun c ↦
    FiledIn submittedFrom submittedBefore c ∧ c.status = .approved)).map
      (fun c ↦ c.resultAmount.getD 0)).sum

/-- `sum_recognized_payout_for_entitlement`: over the dates of the claims filed in a period. -/
def sumRecognizedPayout (submittedFrom submittedBefore : Instant) : ℤ :=
  ((S.claimDates.filter (fun r ↦ r.classId = classId ∧ r.entitlementId = entitlementId ∧
    ∃ c ∈ S.claims, c.claimId = r.claimId ∧ FiledIn submittedFrom submittedBefore c)).map
      (fun r ↦ r.recognizedPayout.getD 0)).sum

def countProductivityDateFilings (submittedFrom submittedBefore : Instant) : ℕ :=
  (((listClaims S classId entitlementId).filter (FiledIn submittedFrom submittedBefore)).map
    (fun c ↦ c.claimBasis.claimedDates.length)).sum

def listProductivityDates (claimId : ℕ) : List ProductivityDate :=
  (S.claimDates.filter (fun r ↦ r.claimId = claimId ∧ r.classId = classId)).insertionSort
    (fun a b ↦ a.claimDate ≤ b.claimDate)

end History

section Terms

def claimPolicyError (message : String) : Raise :=
  .domainError "InsuranceClaimPolicyError" message

def resolveClaimGrant (S : InsuranceState) (classId : String) (seatId entitlementId : ℕ) :
    Option CoverageEvent :=
  S.coverageEvents.find? (fun e ↦ e.entitlementId = entitlementId ∧ e.classId = classId ∧
    e.targetSeatId = seatId ∧ e.eventType = .granted)

def resolveClaimPolicy (S : InsuranceState) (classId : String) (seatId entitlementId : ℕ) :
    Except Raise InsurancePolicy := do
  let grant ← demand (resolveClaimGrant S classId seatId entitlementId)
    (claimPolicyError "No INSURANCE grant for the entitlement")
  require (grant.policyUuid ≠ "") (claimPolicyError "Entitlement carries no policy_uuid reference")
  demand (getInsuranceDefinition S grant.policyUuid classId)
    (claimPolicyError "Insurance policy not found in the class")

def ceilThousandths (n : ℕ) : ℕ := (n + 999) / 1000

def weeklyClaimAllowance (p : InsurancePolicy) : ℕ :=
  ceilThousandths (p.claimsPerWeekEquivalent.getD 0)

def weeklyDateAllowance (p : InsurancePolicy) : ℕ :=
  ceilThousandths (p.claimableDatesPerWeekEquivalent.getD 0)

def maximumPolicyPayout (p : InsurancePolicy) : ℤ :=
  Decimal.divHalfEven (p.premium * p.payoutMultiple.getD 0) 100

variable (zone : ClassZone)

/-- `_filing_week_bounds`: the class-local week, from a Monday, that holds an instant. -/
def filingWeekBounds (t : Instant) : Instant × Instant :=
  let monday := zone.localDate t - (zone.localDate t - 1) % 7
  (zone.startOfDate monday, zone.startOfDate (monday + 7))

/-- No clock change repeats the first hour of the Monday that ends the week of an instant. Day 1 is
a Monday. -/
def WeekCloses (t : Instant) : Prop :=
  ∀ now, now < (filingWeekBounds zone t).2 →
    (zone.localDate now - 1) / 7 ≤ (zone.localDate t - 1) / 7

def filingDeadlineEnd (transactionAt : Instant) (claimWindowDays : ℕ) : Instant :=
  zone.startOfDate (zone.localDate transactionAt + claimWindowDays + 1)

/-- `waiting_period_days`: none for coverage carried over a policy edit. -/
def waitingPeriodDays (p : InsurancePolicy) (grant : CoverageEvent) : ℕ :=
  if grant.continuesEntitlementId.isSome then 0 else p.waitingPeriodDays.getD 0

def coverageEffectiveStart (coverageStart : Instant) (waitingDays : ℕ) : Instant :=
  zone.startOfDate (zone.localDate coverageStart + waitingDays)

def coveredFrom (p : InsurancePolicy) (grant : CoverageEvent) : Instant :=
  max grant.timestamp (coverageEffectiveStart zone grant.timestamp (waitingPeriodDays p grant))

end Terms

/-- `_period_for_claim`: the coverage period that holds the claim's filing. -/
def periodForClaim (S : InsuranceState) (claim : InsuranceClaim) : Except Raise CoveragePeriod := do
  match ← getCoveragePeriod S claim.classId claim.entitlementId claim.submittedAt with
  | some period => return period
  | none => .error (claimPolicyError "Claim was not filed inside a coverage period")

structure ClaimRequest where
  classId : String
  seatId : ℕ
  entitlementId : ℕ
  claimSubject : ClaimSubject
  replayKey : String

structure ParsedDate where
  claimDate : ℤ
  hours : ℕ
  explanation : String
  explained : explanation ≠ ""

section Parsing

def claimedHours (d : Decimal) : Option ℕ :=
  (Magnitude.ofDecimal d).bind fun m ↦
    if m.coefficient = 0 ∨ ¬ m.le (.ofHundredths 999999) then none
    else m.toHundredths.filter (fun h ↦ m.le (.ofHundredths h) ∧ (Magnitude.ofHundredths h).le m)

def parseClaimedDate (coverageStart today : ℤ) (seen : List ℤ) (e : ClaimedDateEntry) :
    Except String ParsedDate := do
  let date ← demand e.date "INVALID_CLAIM_BASIS"
  require (date ∉ seen) "INVALID_CLAIM_BASIS"
  require (coverageStart ≤ date ∧ date ≤ today) "PRODUCTIVITY_DATE_NOT_ELIGIBLE"
  let hours ← demand (e.hours.bind claimedHours) "INVALID_CLAIM_BASIS"
  if h : strip e.explanation ≠ "" then return ⟨date, hours, strip e.explanation, h⟩
  else .error "INVALID_CLAIM_BASIS"

def parseClaimedDates (coverageStart today : ℤ) :
    List ℤ → List ClaimedDateEntry → Except String (List ParsedDate)
  | _, [] => return []
  | seen, e :: es => do
    let d ← parseClaimedDate coverageStart today seen e
    let ds ← parseClaimedDates coverageStart today (d.claimDate :: seen) es
    return d :: ds

def entryMatches (r : ProductivityDate) (e : ClaimedDateEntry) : Prop :=
  e.date = some r.claimDate ∧ strip e.explanation = r.studentExplanation ∧
    ∃ m ∈ e.hours.bind Magnitude.ofDecimal,
      m.le (.ofHundredths r.studentClaimedHours) ∧ (Magnitude.ofHundredths r.studentClaimedHours).le m

instance (r : ProductivityDate) (e : ClaimedDateEntry) : Decidable (entryMatches r e) := by
  unfold entryMatches; infer_instance

def productivityDatesComplete (claim : InsuranceClaim) (rows : List ProductivityDate) : Prop :=
  let entries := claim.claimBasis.claimedDates
  entries ≠ [] ∧ (∀ e ∈ entries, e.date.isSome ∧ strip e.explanation ≠ "" ∧
      ∃ m ∈ e.hours.bind Magnitude.ofDecimal, m.coefficient ≠ 0) ∧
    (entries.map (·.date)).Nodup ∧ rows.length = entries.length ∧
    ∀ r ∈ rows, ∃ e ∈ entries, entryMatches r e

instance (claim : InsuranceClaim) (rows : List ProductivityDate) :
    Decidable (productivityDatesComplete claim rows) := by
  unfold productivityDatesComplete; infer_instance

end Parsing

section Submission

variable (zone : CoverageZone) (env : ClaimSurroundings) (now : Instant) (S : InsuranceState)

def enforceTransactionSubmission (q : ClaimRequest) (policy : InsurancePolicy)
    (grant : CoverageEvent) (period : CoveragePeriod) : Except String Unit := do
  let transactionId ← demand q.claimSubject.transactionId "INVALID_CLAIM_SUBJECT"
  let source := S.ledger.transactions.find? (·.id = transactionId)
  require (transactionClaimProblem env S source q.classId q.seatId = none) "INELIGIBLE_TRANSACTION"
  require (∀ t ∈ source, coveredFrom zone.toClassZone policy grant ≤ t.timestamp)
    "TRANSACTION_OUTSIDE_COVERAGE"
  let (weekStart, weekEnd) := filingWeekBounds zone.toClassZone now
  let consumed := ((listClaims S q.classId q.entitlementId).filter (fun c ↦
    c.targetSeatId = q.seatId ∧ FiledIn weekStart weekEnd c ∧
      c.correlationId ≠ q.replayKey)).length
  require (consumed < weeklyClaimAllowance policy) "CLAIM_LIMIT_EXCEEDED"
  require (0 < maximumPolicyPayout policy -
    sumApprovedPayouts S q.classId q.entitlementId period.startUtc period.endUtc)
    "CLAIM_ALLOWANCE_EXHAUSTED"

/-- `_enforce_productivity_daily_capacity`. -/
def withinDailyCapacity (q : ClaimRequest) (d : ParsedDate) : Prop :=
  ∀ limit ∈ env.dailyLimitSeconds q.classId,
    36 * d.hours ≤ limit - env.workedSeconds q.seatId q.classId d.claimDate

instance (q : ClaimRequest) : DecidablePred (withinDailyCapacity env q) := fun _ ↦ by
  unfold withinDailyCapacity; infer_instance

def enforceProductivitySubmission (q : ClaimRequest) (policy : InsurancePolicy)
    (dates : List ParsedDate) (period : CoveragePeriod) : Except String Unit := do
  require (env.baseReady q.classId = true) "ECONOMIC_ENGINE_NOT_READY"
  let (weekStart, weekEnd) := filingWeekBounds zone.toClassZone now
  require (countProductivityDateFilings S q.classId q.entitlementId weekStart weekEnd +
    dates.length ≤ weeklyDateAllowance policy) "CLAIM_ALLOWANCE_EXHAUSTED"
  require (0 < maximumPolicyPayout policy -
    sumRecognizedPayout S q.classId q.entitlementId period.startUtc period.endUtc)
    "CLAIM_ALLOWANCE_EXHAUSTED"
  require (∀ d ∈ dates, withinDailyCapacity env q d) "PRODUCTIVITY_DAILY_LIMIT_EXCEEDED"

/-- The gates of a fresh submission by the type of its policy, with the dates it asserts. -/
def enforceSubmission (q : ClaimRequest) (policy : InsurancePolicy) (grant : CoverageEvent)
    (period : CoveragePeriod) : Except String (List ParsedDate) := do
  require (waitingPeriodDays policy grant = 0 ∨ coverageEffectiveStart zone.toClassZone
    grant.timestamp (waitingPeriodDays policy grant) ≤ now) "WAITING_PERIOD_NOT_ELAPSED"
  match policy.insuranceType with
  | .transaction =>
    enforceTransactionSubmission zone env now S q policy grant period
    return []
  | .productivity =>
    require (q.claimSubject.claimedDates ≠ []) "INVALID_CLAIM_BASIS"
    let dates ← parseClaimedDates
      (zone.localDate (coveredFrom zone.toClassZone policy grant)) (zone.localDate now) []
      q.claimSubject.claimedDates
    enforceProductivitySubmission zone env now S q policy dates period
    return dates.insertionSort (fun a b ↦ a.claimDate ≤ b.claimDate)
  | .nonMonetary => return []

def newClaim (q : ClaimRequest) : InsuranceClaim where
  claimId := S.claims.length + 1
  classId := q.classId
  entitlementId := q.entitlementId
  targetSeatId := q.seatId
  actorSeatId := q.seatId
  correlationId := q.replayKey
  claimBasis := q.claimSubject
  submittedAt := now

def newDate (claim : InsuranceClaim) (d : ParsedDate) : ProductivityDate where
  claimId := claim.claimId
  entitlementId := claim.entitlementId
  classId := claim.classId
  claimDate := d.claimDate
  studentClaimedHours := d.hours
  studentExplanation := d.explanation

/-- A date that a pending or approved claim of the entitlement already asserts. -/
def DateTaken (classId : String) (entitlementId : ℕ) (date : ℤ) : Prop :=
  ∃ r ∈ S.claimDates, r.classId = classId ∧ r.entitlementId = entitlementId ∧
    r.claimDate = date ∧ ∃ c ∈ S.claims, c.claimId = r.claimId ∧ c.classId = classId ∧
      c.status ≠ .rejected

instance (classId : String) (entitlementId : ℕ) (date : ℤ) :
    Decidable (DateTaken S classId entitlementId date) := by unfold DateTaken; infer_instance

/-- `create_claim` and `add_productivity_claim_dates`, in one savepoint. -/
def createClaim (q : ClaimRequest) (dates : List ParsedDate) : Except String InsuranceState := do
  require (∀ c ∈ S.claims, c.correlationId ≠ q.replayKey) "IDEMPOTENCY_CONFLICT"
  require ((resolveClaimGrant S q.classId q.seatId q.entitlementId).isSome ∧
    getTerminalEvent S q.classId q.entitlementId = none) "ENTITLEMENT_INVALID"
  require (∀ d ∈ dates, ¬ DateTaken S q.classId q.entitlementId d.claimDate)
    "PRODUCTIVITY_DATE_NOT_ELIGIBLE"
  let claim := newClaim now S q
  return { S with claims := S.claims ++ [claim],
                  claimDates := S.claimDates ++ dates.map (newDate claim) }

/-- The outcome of a submission that an earlier claim already answers. -/
def replaySubmission (q : ClaimRequest) (policy : InsurancePolicy) (prior : InsuranceClaim) :
    ClaimResult :=
  if prior.claimBasis ≠ q.claimSubject then .refused "IDEMPOTENCY_CONFLICT"
  else if policy.insuranceType = .productivity ∧ ¬ productivityDatesComplete prior
      (listProductivityDates S q.classId prior.claimId) then .refused "INVALID_CLAIM_BASIS"
  else { success := true, claimId := some prior.claimId }

def usabilityCode : UsabilityReason → String
  | .terminated _ => "ENTITLEMENT_TERMINAL"
  | .premiumUnpaid _ => "COVERAGE_GATED"
  | .noCoveragePeriod => "NO_COVERAGE_PERIOD"
  | .notGranted => "NO_COVERAGE_PERIOD"

/-- A fresh submission, once the entitlement is found usable. -/
def fileClaim (q : ClaimRequest) (policy : InsurancePolicy) (grant : CoverageEvent)
    (period : CoveragePeriod) : Except String InsuranceState := do
  -- Pending and approved claims reserve the transaction.
  require (∀ prior ∈ listClaims S q.classId q.entitlementId, prior.targetSeatId = q.seatId →
    q.claimSubject.transactionId.isSome → prior.status ≠ .rejected →
      prior.claimBasis.transactionId ≠ q.claimSubject.transactionId) "DUPLICATE_CLAIM_SUBJECT"
  let dates ← enforceSubmission zone env now S q policy grant period
  createClaim now S q dates

/-- `_submit_insurance_claim_impl`. An exception is a failed submission like any other. -/
def submitInsuranceClaim (q : ClaimRequest) : ClaimResult × InsuranceState :=
  if S.ledger.seatClass q.seatId ≠ some q.classId then (.refused "INVALID_CONTEXT", S)
  else
    match resolveClaimGrant S q.classId q.seatId q.entitlementId with
    | none => (.refused "ENTITLEMENT_NOT_FOUND", S)
    | some grant =>
      match resolveClaimPolicy S q.classId q.seatId q.entitlementId with
      | .error _ => (.refused "POLICY_UNRESOLVABLE", S)
      | .ok policy =>
        match evaluateInsuranceUsability S q.classId q.entitlementId now with
        | .error _ => (.refused "INTERNAL_ERROR", S)
        | .ok (.error reason) => (.refused (usabilityCode reason), S)
        | .ok (.ok period) =>
          match (listClaims S q.classId q.entitlementId).find? (fun c ↦
              c.targetSeatId = q.seatId ∧ c.correlationId = q.replayKey) with
          | some prior => (replaySubmission S q policy prior, S)
          | none =>
            match fileClaim zone env now S q policy grant period with
            | .error code => (.refused code, S)
            | .ok S' => ({ success := true, claimId := some (newClaim now S q).claimId }, S')

end Submission

end TokenHub.Insurance
