import TokenHub.Ledger.Funding
import TokenHub.Lib.Runs
import TokenHub.Insurance.Decision
import TokenHub.Ledger.Elsewhere
import TokenHub.Rent.Lifecycle
import TokenHub.Insurance.Lineage

set_option autoImplicit false

namespace TokenHub.Insurance

open Ledger Rent Lib.Checks Lib.Json Lib.Runs

def claimsFeat : String := "FEAT-STOR-003"

/-- One atomic command on the insurance of the classes, with what its surroundings answer, or
other activity on the tables that it shares. -/
inductive InsuranceAction
  | purchase (env : Surroundings) (correlationId : String) (q : PurchaseRequest)
  | renew (env : Surroundings) (correlationId : String) (passes : ℕ) (classId : String)
      (entitlementId : ℕ)
  | payPremium (env : Surroundings) (correlationId : String) (q : PremiumPaymentRequest)
  | cancel (classId : String) (seatId : ℕ) (policyUuid : String)
  | expire (env : Surroundings) (cycle : BillCycle) (entitlementId : ℕ)
  | createPolicy (policy : InsurancePolicy)
  | setAvailability (policyUuid classId : String) (availabilityState : AvailabilityState)
  | submit (env : ClaimSurroundings) (q : ClaimRequest)
  | resolve (env : ClaimSurroundings) (correlationId : String) (q : ResolveRequest)
  | settle (seatId : ℕ) (classId : String)
  | post (feat : FeatContext) (id : CommandIdentity) (effects : List Effect) (intent : Value)
  | enroll (seats : List Seat)
  | store (events : List EntitlementEvent)

section Steps

variable (sha256 : String → String) (zones : String → CoverageZone) (now : Instant)
  (S : InsuranceState)

/-- Other activity on the Ledger, under any feature code but that of the claims. -/
def postElsewhere (feat : FeatContext) (id : CommandIdentity) (effects : List Effect)
    (intent : Value) : InsuranceState :=
  if feat.activeFeat = claimsFeat ∨ id.featCode = claimsFeat then S
  else { S with ledger := committed S.ledger (createReservedEffects sha256
    { feat with canonicalNowUtc := now } S.ledger S.ledger.reservations id
    (effects.map Effect.withoutRecovery) intent) }

def kept (r : Except Raise InsuranceState) : InsuranceState :=
  match r with
  | .ok S' => S'
  | .error _ => S

/-- One command at an instant; a raised exception rolls it back. -/
def insuranceStep : InsuranceAction → InsuranceState
  | .purchase env correlationId q =>
    committed S (purchaseInsurance sha256 (zones q.classId) env
      ⟨"FEAT-OBL-004", correlationId, now⟩ S q)
  | .renew env correlationId passes classId entitlementId =>
    committed S (renewInsuranceCoverage sha256 (zones classId) env
      ⟨"FEAT-STOR-007", correlationId, now⟩ passes S classId entitlementId)
  | .payPremium env correlationId q =>
    committed S (payInsurancePremium sha256 env ⟨"FEAT-OBL-003", correlationId, now⟩ S q)
  | .cancel classId seatId policyUuid =>
    committed S (cancelInsurance now S classId seatId policyUuid)
  | .expire env cycle entitlementId => kept S (expireEndedCoverage env now S cycle entitlementId)
  | .createPolicy policy => kept S (createInsuranceDefinition S policy)
  | .setAvailability policyUuid classId availabilityState =>
    kept S (setAvailability S policyUuid classId availabilityState)
  | .submit env q => (submitInsuranceClaim (zones q.classId) env now S q).2
  | .resolve env correlationId q =>
    (resolveInsuranceClaim sha256 (zones q.classId) env ⟨claimsFeat, correlationId, now⟩ S
      { q with idempotencyKey := adminApprovalKey q.claimId }).2
  | .settle seatId classId =>
    { S with ledger := perform sha256 S.ledger (.settle seatId classId) }
  | .post feat id effects intent => postElsewhere sha256 now S feat id effects intent
  | .enroll seats => { S with seats := seats }
  | .store events => { S with entitlementEvents := S.entitlementEvents ++ events }

end Steps

/-- The tables and the clock of the classes, which no command turns back. -/
structure InsuranceSystem where
  clock : Instant
  tables : InsuranceState

structure TimedAction where
  wait : ℕ
  action : InsuranceAction

def systemStep (sha256 : String → String) (zones : String → CoverageZone) (s : InsuranceSystem)
    (a : TimedAction) : InsuranceSystem where
  clock := s.clock + a.wait
  tables := insuranceStep sha256 zones (s.clock + a.wait) s.tables a.action

def InsuranceSystem.start (clock : Instant) (seatClass : ℕ → Option String) : InsuranceSystem where
  clock := clock
  tables := .empty seatClass

end TokenHub.Insurance

namespace TokenHub.Insurance

open Ledger Rent Lib.Checks Lib.Tiling

def InsurancePolicy.terms (p : InsurancePolicy) : InsurancePolicy :=
  { p with availabilityState := .inUse }

def InsurancePolicy.Lawful (p : InsurancePolicy) : Prop :=
  LawfulTerms p.chargeFrequency p.billPreviewDays p.nonpaymentMode p.cancelAfterDays

section Facts

variable (S : InsuranceState)

def Granted (g : CoverageEvent) : Prop := g ∈ S.coverageEvents ∧ g.eventType = .granted

/-- How a grant came to be: by a purchase, or from a lineage that ended at its instant. -/
inductive GrantOrigin (g : CoverageEvent) : Prop
  | purchased (key : String) : g.correlationId = "insurance-purchase:" ++ key →
      g.continuesEntitlementId = none → GrantOrigin g
  | continued (entitlementId : ℕ) (closing : BillCycle) :
      g.correlationId = continuationCorrelationId entitlementId →
      g.continuesEntitlementId = some entitlementId →
      closing ∈ lineage S.toRentState entitlementId → closing.nextAssessmentAt = none →
      closing.classId = g.classId → closing.cycleBoundaryAt = g.timestamp → GrantOrigin g

def PolicyOf (g : CoverageEvent) (p : InsurancePolicy) : Prop :=
  getInsuranceDefinition S g.policyUuid g.classId = some p ∧ p.Lawful

variable (zones : String → CoverageZone)

/-- The end of a grant's period of some number, on the cadence of its version. -/
def periodEnd (g : CoverageEvent) (p : InsurancePolicy) (number : ℕ) : Instant :=
  coverageBoundary (zones g.classId).toClassZone ((zones g.classId).localDate g.timestamp)
    p.chargeFrequency number

structure Scheduled (g : CoverageEvent) (p : InsurancePolicy) (periods : List BillCycle)
    (closing : Option BillCycle) (stop : Instant) : Prop
    extends Lineage S.toRentState g periods closing stop where
  policy : PolicyOf S g p
  cadence : ∀ c ∈ periods, c.nextAssessmentAt = some (periodEnd zones g p c.cycleNumber)

end Facts

structure PremiumFor (g : CoverageEvent) (c : BillCycle) (a : ObligationAssessment) : Prop where
  isAssessment : a.IsAssessment
  billCycleId : a.billCycleId = some c.id
  obligationType : a.obligationType = .insurancePremium
  classId : a.classId = g.classId
  seatId : a.seatId = g.targetSeatId
  internalRef : a.internalRef = premiumLineageRef g.entitlementId
  policyUuid : a.policyUuid = some g.policyUuid
  named : a.correlationId = premiumCorrelationId g.entitlementId c.cycleNumber ∨
    (c.cycleNumber = 1 ∧ a.correlationId = g.correlationId ∧
      ∃ key, g.correlationId = "insurance-purchase:" ++ key)

def SystemPayment (L : LedgerState) (e : ObligationAssessment) : Prop :=
  e.eventType = .payment ∧
    ∃ t ∈ L.transactions, e.ledgerTransactionId = some t.id ∧ t.mechanism = .system

instance (L : LedgerState) : DecidablePred (SystemPayment L) := fun _ ↦ by
  unfold SystemPayment; infer_instance

section Invariant

variable (sha256 : String → String) (zones : String → CoverageZone) (bounded : Prop)

/-- What every reachable state satisfies. Under `bounded` no lineage ends after its last period. -/
structure CoverageInvariant (S : InsuranceState) : Prop where
  ledger : LedgerSound sha256 S.ledger
  premiums : S.premiums = premiumColumn S.policies
  rentless : S.rentSettings = []
  grantsUnique : ∀ g g', Granted S g → Granted S g' → g.entitlementId = g'.entitlementId → g = g'
  origins : ∀ g, Granted S g → GrantOrigin S g
  continuedOnce : ∀ g g' n, Granted S g → Granted S g' → g.continuesEntitlementId = some n →
    g'.continuesEntitlementId = some n → g = g'
  cycleIds : ∀ i c, S.billCycles[i]? = some c → c.id = i + 1
  owners : ∀ c ∈ S.billCycles, ∃ g, Granted S g ∧ c ∈ lineage S.toRentState g.entitlementId
  lineages : ∀ g, Granted S g → ∃ p periods closing stop,
    Scheduled S zones g p periods closing stop ∧
      (bounded → ∀ c ∈ closing, c.cycleBoundaryAt ≤ stop)
  premiumOf : ∀ g, Granted S g → ∀ c ∈ lineage S.toRentState g.entitlementId,
    c.nextAssessmentAt.isSome → ∃ a ∈ S.assessmentEvents, PremiumFor g c a
  assessments : ∀ a ∈ S.assessmentEvents, a.IsAssessment → ∃ g c, Granted S g ∧
    c ∈ lineage S.toRentState g.entitlementId ∧ c.nextAssessmentAt.isSome ∧ PremiumFor g c a
  assessedOnce : (S.assessmentEvents.filter (·.IsAssessment)).Pairwise
    (fun a b ↦ a.correlationId ≠ b.correlationId ∧ a.billCycleId ≠ b.billCycleId)
  satisfied : ∀ e ∈ S.assessmentEvents, ∃ a ∈ S.assessmentEvents,
    a.IsAssessment ∧ a.correlationId = e.correlationId
  payments : ∀ e ∈ S.assessmentEvents, e.eventType = .payment →
    ∃ t ∈ S.ledger.transactions, e.ledgerTransactionId = some t.id
  automatic : (S.assessmentEvents.filter (SystemPayment S.ledger)).Pairwise
    (fun e f ↦ e.correlationId ≠ f.correlationId)
  successions : ∀ r ∈ S.successions, ∃ g c, Granted S g ∧
    c ∈ lineage S.toRentState g.entitlementId ∧ c.nextAssessmentAt.isSome ∧
      r.idempotencyKey = successionCommandIdentity g.entitlementId c.cycleNumber

structure CoverageKept (S S' : InsuranceState) : Prop where
  ledger : LedgerGrows sha256 S.ledger S'.ledger
  events : S.assessmentEvents <+: S'.assessmentEvents
  cycles : S.billCycles <+: S'.billCycles
  coverage : S.coverageEvents <+: S'.coverageEvents
  policies : ∀ u c p, getInsuranceDefinition S u c = some p →
    ∃ p', getInsuranceDefinition S' u c = some p' ∧ p'.terms = p.terms

end Invariant

end TokenHub.Insurance
