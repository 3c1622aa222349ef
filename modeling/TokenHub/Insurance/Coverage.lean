import TokenHub.Insurance.Rows

set_option autoImplicit false

namespace TokenHub.Insurance

open Ledger Rent Lib.Checks

section Calendar

/-- The date `months` after an anchor, an overflowing day rolled forward to the next month. -/
def rolledForward (anchor months : ℤ) : ℤ :=
  let date := fromOrdinal anchor
  let total := date.year * 12 + (date.month - 1) + months
  let (year, month) := (total / 12, total % 12 + 1)
  if date.day ≤ daysInMonth year month then toOrdinal ⟨year, month, date.day⟩
  else
    let next := year * 12 + (month - 1) + 1
    toOrdinal ⟨next / 12, next % 12 + 1, 1⟩

/-- `anchored_recurrence_boundary`. -/
def recurrenceDate (anchor : ℤ) (frequency : ChargeFrequency) (index : ℕ) : ℤ :=
  match frequency with
  | .weekly => anchor + 7 * index
  | .monthly => rolledForward anchor index

example : fromOrdinal (recurrenceDate (toOrdinal ⟨2026, 1, 31⟩) .monthly 1) = ⟨2026, 3, 1⟩ := by
  decide

def coverageBoundary (zone : ClassZone) (anchor : ℤ) (frequency : ChargeFrequency) (index : ℕ) :
    Instant :=
  zone.startOfDate (recurrenceDate anchor frequency index)

/-- `minimum_period_duration`, in calendar days. -/
def minimumCalendarDays : ChargeFrequency → ℤ
  | .weekly => 7
  | .monthly => 28

end Calendar

section Policies

variable (S : InsuranceState)

def getInsuranceDefinition (policyUuid classId : String) : Option InsurancePolicy :=
  S.policies.find? (fun p ↦ p.policyUuid = policyUuid ∧ p.classId = classId)

def newerCreated (best : Option InsurancePolicy) (p : InsurancePolicy) : Option InsurancePolicy :=
  match best with
  | none => some p
  | some b =>
    if b.createdAt < p.createdAt ∨ (b.createdAt = p.createdAt ∧ b.policyUuid < p.policyUuid) then
      some p
    else some b

/-- The newest version that names `policyUuid` as the one it replaces. -/
def directSuccessor (classId policyUuid : String) : Option InsurancePolicy :=
  (S.policies.filter (fun p ↦ p.classId = classId ∧
    p.supersedesPolicyUuid = some policyUuid)).foldl newerCreated none

/-- The walk of `get_latest_successor`; it visits no version twice. -/
def followSuccessors (classId : String) :
    ℕ → List String → String → Option InsurancePolicy → Option InsurancePolicy
  | 0, _, _, latest => latest
  | left + 1, seen, current, latest =>
    match directSuccessor S classId current with
    | none => latest
    | some p =>
      if p.policyUuid ∈ seen then latest
      else followSuccessors classId left (p.policyUuid :: seen) p.policyUuid (some p)

def getLatestSuccessor (policyUuid classId : String) : Option InsurancePolicy :=
  followSuccessors S classId (S.policies.length + 1) [policyUuid] policyUuid none

/-- `insurance_recurring_terms_violation` finds nothing. -/
def LawfulTerms (frequency : ChargeFrequency) (billPreviewDays : Option ℤ)
    (mode : Option NonpaymentMode) (cancelAfterDays : Option ℤ) : Prop :=
  (∃ days ∈ billPreviewDays, 0 < days ∧ days < minimumCalendarDays frequency) ∧
    match mode with
    | none => False
    | some .cancelAfterXDays => ∃ days ∈ cancelAfterDays, 0 < days
    | some .accumulate => cancelAfterDays = none

instance (f : ChargeFrequency) (b : Option ℤ) (m : Option NonpaymentMode) (c : Option ℤ) :
    Decidable (LawfulTerms f b m c) :=
  match m with
  | none => isFalse (fun h ↦ h.2)
  | some .cancelAfterXDays => by unfold LawfulTerms; infer_instance
  | some .accumulate => by unfold LawfulTerms; infer_instance

/-- The recurring terms frozen on one policy version; only lawful ones can be built. -/
structure InsuranceRecurringTerms where
  policyUuid : String
  premium : ℤ
  chargeFrequency : ChargeFrequency
  billPreviewDays : Option ℤ
  nonpaymentMode : Option NonpaymentMode
  cancelAfterDays : Option ℤ
  lawful : LawfulTerms chargeFrequency billPreviewDays nonpaymentMode cancelAfterDays

def InsurancePolicy.recurringTerms (p : InsurancePolicy) : Option InsuranceRecurringTerms :=
  if h : LawfulTerms p.chargeFrequency p.billPreviewDays p.nonpaymentMode p.cancelAfterDays then
    some { policyUuid := p.policyUuid, premium := p.premium, chargeFrequency := p.chargeFrequency,
           billPreviewDays := p.billPreviewDays, nonpaymentMode := p.nonpaymentMode,
           cancelAfterDays := p.cancelAfterDays, lawful := h }
  else none

def getInsuranceRecurringTerms (policyUuid : Option String) (classId : String) :
    Except Raise InsuranceRecurringTerms := do
  let policy ← demand (policyUuid.bind (getInsuranceDefinition S · classId))
    (.domainError "PolicyReferenceNotFound" "no insurance policy version in the class")
  demand policy.recurringTerms (.valueError ("insurance policy " ++ policy.policyUuid))

/-- `get_bill_preview_days` of the version that a cycle froze: a rent row first, then an
insurance version, zero where neither resolves. -/
def coveragePreviewDays (policyUuid : Option String) (classId : String) : ℤ :=
  match (rentPolicy S.toRentState policyUuid).filter (·.classId = classId) with
  | some _ => billPreviewDays S.toRentState policyUuid classId
  | none =>
    match policyUuid with
    | none => 0
    | some u =>
      if u = "" then 0
      else ((getInsuranceDefinition S u classId).map
        (fun p ↦ max 0 (p.billPreviewDays.getD 0))).getD 0

end Policies

def premiumLineageRef (entitlementId : ℕ) : String := "insurance:" ++ numberText entitlementId

section Lineage

variable (S : InsuranceState) (zone : ClassZone) (classId : String) (now : Instant)

/-- `get_succession_eligibility` of a premium lineage. -/
def getCoverageEligibility (internalRef : String) : SuccessionEligibility :=
  match ((getBillCyclesForInternalRef S.toRentState internalRef).filter
      (·.classId = classId)).getLast? with
  | none => .empty
  | some latest =>
    match latest.nextAssessmentAt with
    | none => .terminal latest
    | some next =>
      let days := coveragePreviewDays S latest.policyUuid latest.classId
      let point := if days ≤ 0 then next else startOfClassDayBefore zone next days
      if now < point then .notDue latest else .due latest next

def getTerminationInstant (internalRef : String) : Option Instant :=
  (((getBillCyclesForInternalRef S.toRentState internalRef).filter
    (fun c ↦ c.classId = classId ∧ c.nextAssessmentAt = none)).getLast?).map (·.cycleBoundaryAt)

def getInsuranceGrant (entitlementId : ℕ) : Option CoverageEvent :=
  S.coverageEvents.find? (fun e ↦ e.classId = classId ∧ e.entitlementId = entitlementId ∧
    e.eventType = .granted)

def getTerminalEvent (entitlementId : ℕ) : Option CoverageEvent :=
  S.coverageEvents.find? (fun e ↦ e.classId = classId ∧ e.entitlementId = entitlementId ∧
    (e.eventType = .expired ∨ e.eventType = .revoked))

def getFirstCoverageCycle (entitlementId : ℕ) : Option BillCycle :=
  S.billCycles.find? (fun c ↦ c.classId = classId ∧
    c.internalRef = premiumLineageRef entitlementId ∧ c.cycleNumber = 1)

def getCadenceAnchor (entitlementId : ℕ) : Option ℤ :=
  (getFirstCoverageCycle S classId entitlementId).map (fun c ↦ zone.localDate c.cycleBoundaryAt)

end Lineage

section AsOf

variable (S : RentState)

def satisfactionsAsOf (asOf : Instant) (correlationId : String) : List ObligationAssessment :=
  (getSatisfactionEvents S correlationId).filter (fun e ↦ e.timestamp ≤ asOf)

/-- `get_obligation_state` with `as_of`: its status by the facts recorded at or before then. -/
def getObligationStatusAsOf (asOf : Instant) (correlationId : String) :
    Option ObligationStatusCode :=
  (getAssessmentForCorrelation S correlationId).map fun a ↦
    let events := satisfactionsAsOf S asOf correlationId
    let satisfied := (events.map (paymentEventMagnitude S)).sum
    if (getWithdrawalEvent S correlationId).any (fun e ↦ decide (e.timestamp ≤ asOf)) then
      .withdrawn
    else if events.any (·.eventType = .waived) ∨ resolveAssessmentAmount S a ≤ satisfied then
      .satisfied
    else .outstanding

/-- Whether one assessment keeps a lineage's required obligations from being satisfied. -/
def unmetAt (now : Instant) (a : ObligationAssessment) : Bool :=
  match getObligationStatusAsOf S now a.correlationId with
  | some .outstanding =>
    decide ((getAssessmentForCorrelation S a.correlationId).any
      (fun b ↦ decide (resolveAssessmentDueAt S b ≤ now)))
  | _ => false

def lineageAssessments (classId internalRef : String) : List ObligationAssessment :=
  let cycles := S.billCycles.filter (fun c ↦ c.classId = classId ∧ c.internalRef = internalRef)
  S.assessmentEvents.filter (fun e ↦ e.classId = classId ∧ e.eventType = .assessment ∧
    ∃ c ∈ cycles, e.billCycleId = some c.id)

def areRequiredObligationsSatisfied (classId internalRef : String) (now : Instant) : Bool :=
  (lineageAssessments S classId internalRef).all (fun a ↦ !unmetAt S now a)

end AsOf

section Usability

structure CoveragePeriod where
  billCycleId : ℕ
  cycleNumber : ℕ
  startUtc : Instant
  endUtc : Instant
deriving DecidableEq, Repr

def coveragePeriodOf (c : BillCycle) : Option CoveragePeriod :=
  c.nextAssessmentAt.map (fun next ↦ ⟨c.id, c.cycleNumber, c.cycleBoundaryAt, next⟩)

def getCoveragePeriod (S : InsuranceState) (classId : String) (entitlementId : ℕ)
    (now : Instant) : Except Raise (Option CoveragePeriod) := do
  let cycle ← getCurrentBillCycle S.toRentState classId (premiumLineageRef entitlementId) now
  return cycle.bind coveragePeriodOf

inductive UsabilityReason
  | notGranted
  | terminated (event : CoverageEvent)
  | noCoveragePeriod
  | premiumUnpaid (period : CoveragePeriod)
deriving DecidableEq, Repr

/-- `evaluate_insurance_usability`: the period in force, or why there is none to use. -/
def evaluateInsuranceUsability (S : InsuranceState) (classId : String) (entitlementId : ℕ)
    (now : Instant) : Except Raise (Except UsabilityReason CoveragePeriod) :=
  match (getInsuranceGrant S classId entitlementId).filter (fun g ↦ g.timestamp ≤ now) with
  | none => return .error .notGranted
  | some _ =>
    match (getTerminalEvent S classId entitlementId).filter (fun e ↦ e.timestamp ≤ now) with
    | some event => return .error (.terminated event)
    | none => do
      match ← getCoveragePeriod S classId entitlementId now with
      | none => return .error .noCoveragePeriod
      | some period =>
        if areRequiredObligationsSatisfied S.toRentState classId
            (premiumLineageRef entitlementId) now then
          return .ok period
        else return .error (.premiumUnpaid period)

end Usability

end TokenHub.Insurance
