import TokenHub.Insurance.Decision
import TokenHub.Ledger.Penalty
import TokenHub.Ledger.Provenance
import TokenHub.Store.Reversal

set_option autoImplicit false

namespace TokenHub.Insurance

open Ledger Rent Lib.Decimals Lib.Checks Lib.Json

/-- The tables, with the kind of write that each Ledger row comes from. -/
structure LossState extends InsuranceState where
  entries : List Entry

def LossState.empty (seatClass : ℕ → Option String) : LossState where
  toInsuranceState := .empty seatClass
  entries := []

def obligationFeats : List String :=
  ["FEAT-OBL-001", "FEAT-OBL-003", "FEAT-OBL-004", "FEAT-STOR-007"]

section Writers

inductive IncomeKind
  | payroll
  | manualCredit
  | interest
deriving DecidableEq, Repr

structure Income where
  kind : IncomeKind
  classId : String
  seatId : ℕ
  actorSeatId : ℕ
  mechanism : LedgerMechanism
  amount : Decimal

def Income.effect (q : Income) : Effect where
  seatId := q.seatId
  classId := q.classId
  targetSeatId := q.seatId
  actorSeatId := q.actorSeatId
  mechanism := q.mechanism.value
  amount := some q.amount
  accountType := if q.kind = .interest then "savings" else "checking"
  type := some (match q.kind with
    | .payroll => "payroll"
    | .manualCredit => "manual_payment"
    | .interest => "Interest")

structure ReconstructedPrincipal where
  original : Transaction
  cents : ℤ
  intent : String
  exact : Bool

structure ReconstructedSettlement where
  classId : String
  seatId : ℕ
  actorSeatId : ℕ
  mechanism : String
  transfer : ℤ
  principals : List ReconstructedPrincipal
  material : Value

def ReconstructedSettlement.effect (q : ReconstructedSettlement) (p : ReconstructedPrincipal) :
    Effect where
  seatId := q.seatId
  classId := q.classId
  targetSeatId := q.seatId
  actorSeatId := q.actorSeatId
  mechanism := q.mechanism
  amount := some (.ofCents (-p.cents))
  accountType := p.original.accountType.value
  type := some (if p.exact then "REVERSAL" else "payroll_correction")
  originalTransactionId := if p.exact then some p.original.id else none
  correlationId := if p.exact then some p.original.correlationId else none
  compensationOriginLocator := some (ledgerOriginLocator p.original.id)
  compensationAmountCents := p.cents
  correctionIntentLocator := some p.intent

def ReconstructedPrincipal.origin (p : ReconstructedPrincipal) : Origin :=
  if p.exact then .reversal else .recovery

def ReconstructedSettlement.plan (q : ReconstructedSettlement) : IntendedLedgerPlan where
  seatId := q.seatId
  classId := q.classId
  debitAmount := 0
  transactionType := "payroll_correction"
  actorSeatId := q.actorSeatId
  targetSeatId := q.seatId
  mechanism := q.mechanism

variable (sha256 : String → String)

def ReconstructedSettlement.effects (q : ReconstructedSettlement) (feat : FeatContext)
    (key : String) : List Effect :=
  fundingEffects sha256 q.plan feat.activeFeat key q.transfer ++ q.principals.map q.effect

def ReconstructedSettlement.origins (q : ReconstructedSettlement) (feat : FeatContext)
    (key : String) : List Origin :=
  List.replicate (fundingEffects sha256 q.plan feat.activeFeat key q.transfer).length .transferLeg ++
    q.principals.map (·.origin)

def applyReconstructedRecovery (feat : FeatContext) (L : LedgerState)
    (q : ReconstructedSettlement) (key : String) : Except Raise LedgerState := do
  require (∀ p ∈ q.principals, p.original ∈ L.transactions ∧ 0 < p.original.amountCents)
    (.runtimeError "INTEGRITY_FAILURE")
  let (_, L') ← createReservedEffects sha256 feat L L.reservations
    ⟨q.classId, feat.activeFeat, key⟩ (q.effects sha256 feat key) q.material
  return L'

end Writers

/-- One command that writes the Ledger, or the other tables in any way that pays nothing. What a
command checks before it posts is left open, and so is when a preview was taken. -/
inductive LossAction
  | settle (seatId : ℕ) (classId : String)
  | purchase (m : Store.PurchaseMoment) (call : Store.PurchaseCall) (debit : ℤ)
  | fine (q : PenaltyRequest) (seatId : ℕ)
  | transfer (feat : FeatContext) (key : String) (q : TransferRequest)
  | rent (env : Surroundings) (feat : FeatContext) (q : RentPaymentRequest)
  | premium (env : Surroundings) (feat : FeatContext) (q : PremiumCharge) (key : String)
  | income (feat : FeatContext) (key : String) (q : Income)
  | payout (feat : FeatContext) (q : ResolveRequest) (claim : InsuranceClaim)
      (source : Transaction) (amount : ℤ)
  | recover (feat : FeatContext) (previewed : LedgerState) (proof : CreditCompensationProof)
      (kind : RecoveryKind) (intent : String) (directive : BankingDirective) (actorSeatId : ℕ)
      (mechanism : String) (allocation : Option AllocationProof) (key : String)
  | reconstruct (feat : FeatContext) (q : ReconstructedSettlement) (key : String)
  | reverse (feat : FeatContext) (q : ReversalRequest)
  | removalNote (feat : FeatContext) (key : String) (t : Transaction) (actorSeatId : ℕ)
  | elsewhere (tables : InsuranceState) (events : List ObligationAssessment)

variable (sha256 : String → String)

/-- The state after a write of the Ledger: its new rows are entered under their origins. -/
def LossState.wrote (S : LossState) (L : LedgerState) (origins : ℕ → List Origin) : LossState :=
  let rows := L.transactions.drop S.ledger.transactions.length
  { S with
    ledger := L
    entries := S.entries ++ entriesOf rows (origins rows.length) }

def requireElsewhere (feat : FeatContext) : Except Raise Unit :=
  require (feat.activeFeat ∉ obligationFeats) (.runtimeError "obligation feature")

def requireObligation (feat : FeatContext) : Except Raise Unit :=
  require (feat.activeFeat ∈ obligationFeats) (.runtimeError "not an obligation feature")

def LossAction.perform (S : LossState) : LossAction → Except Raise LossState
  | .settle seatId classId =>
    return { S with ledger := Ledger.perform sha256 S.ledger (.settle seatId classId) }
  | .purchase m call debit => do
    let (applied, L) ← postCharge sha256 (Store.storePurchaseFeat call m.now) S.ledger
      (Store.purchasePlan call debit) m.bankingDirective (Store.ledgerIdempotencyKey call)
    return S.wrote L (chargeOrigins applied.principal .purchase)
  | .fine q seatId => do
    let (applied, L) ← postCharge sha256 q.context S.ledger (penaltyPlan q seatId) q.directive
      (q.key sha256 seatId)
    return S.wrote L (chargeOrigins applied.principal .fine)
  | .transfer feat key q => do
    requireElsewhere feat
    let (_, L) ← executeAccountTransfer sha256 feat key S.ledger q
    return S.wrote L (fun n ↦ List.replicate n .transferLeg)
  | .rent env feat q => do
    requireObligation feat
    let (_, R) ← payRent sha256 env feat S.toRentState q
    return { S.wrote R.ledger (debitOrigins .obligationPayment) with
      assessmentEvents := R.assessmentEvents
      entitlementEvents := R.entitlementEvents }
  | .premium env feat q key => do
    requireObligation feat
    let (_, S') ← settleInsurancePremium sha256 env feat S.toInsuranceState q key
    return { S.wrote S'.ledger (debitOrigins .obligationPayment) with
      assessmentEvents := S'.assessmentEvents }
  | .income feat key q => do
    requireElsewhere feat
    let (_, L) ← createPendingTransaction sha256 feat S.ledger (some key) none q.effect
    return S.wrote L (fun _ ↦ [.income])
  | .payout feat q claim source amount => do
    requireElsewhere feat
    let (_, L) ← createIdempotentTransaction sha256 feat S.ledger S.ledger.reservations
      q.idempotencyKey (reimbursementEffect q claim source amount)
    return S.wrote L (fun _ ↦ [.claimPayout])
  | .recover feat previewed proof kind intent directive actorSeatId mechanism allocation key => do
    requireElsewhere feat
    -- an exact reversal is the business of `reverse_transaction`
    require (kind ≠ .exactReversal) (.runtimeError "not a recovery")
    let plan ← resolveCreditRecovery previewed proof kind intent directive actorSeatId mechanism
      allocation none
    let (applied, L) ← applyCreditRecovery sha256 feat S.ledger plan key
    return S.wrote L (chargeOrigins applied.principal .recovery)
  | .reconstruct feat q key => do
    requireElsewhere feat
    let L ← applyReconstructedRecovery sha256 feat S.ledger q key
    return S.wrote L (fun _ ↦ q.origins sha256 feat key)
  | .reverse feat q => do
    requireElsewhere feat
    require (q.transaction ∈ S.ledger.transactions) (.runtimeError "no such transaction")
    let (principal, L) ← reverseTransaction sha256 feat S.ledger q
    return S.wrote L (chargeOrigins principal .reversal)
  | .removalNote feat key t actorSeatId => do
    requireElsewhere feat
    let (_, L) ← createPendingTransaction sha256 feat S.ledger (some key) none
      (Store.itemRemovalEffect t actorSeatId)
    return S.wrote L (fun _ ↦ [.removalNote])
  | .elsewhere tables events => do
    require (∀ o ∈ events, o.ledgerTransactionId = none) (.runtimeError "not a payment")
    return { S with toInsuranceState := { tables with
      ledger := S.ledger
      assessmentEvents := S.assessmentEvents ++ events } }

/-- One command; a raised exception rolls its transaction back. -/
def lossStep (S : LossState) (a : LossAction) : LossState :=
  match a.perform sha256 S with
  | .ok S' => S'
  | .error _ => S

/-- A debit of the seat in the class that no obligation event names, that is neither a transfer
leg nor a reversal nor a recovery, and that no row compensates. -/
structure RealLoss (S : LossState) (t : Transaction) (classId : String) (seatId : ℕ) : Prop where
  debit : t.amountCents < 0
  classId : t.classId = classId
  seatId : t.seatId = seatId
  unobliged : ∀ o ∈ S.assessmentEvents, o.ledgerTransactionId ≠ some t.id
  origin : ∃ e ∈ S.entries, e.row = t ∧ e.origin ∉ [.transferLeg, .recovery, .reversal]
  uncompensated : ∀ u ∈ S.ledger.transactions, u.originalTransactionId ≠ some t.id

/-- The types that the lists of the eligibility law leave out, and the payouts that its
compensation check does. -/
def ClearOfGaps (L : LedgerState) (t : Transaction) : Prop :=
  t.type ∉ [some .rentPayment, some .payrollCorrection, some .legacyReversal] ∧
    ∀ u ∈ L.transactions, u.type = some .insuranceReimbursement →
      u.originalTransactionId ≠ some t.id

end TokenHub.Insurance
