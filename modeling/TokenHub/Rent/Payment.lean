import TokenHub.Ledger.Recovery
import TokenHub.Rent.Perks

set_option autoImplicit false

namespace TokenHub.Rent

open Ledger Lib.Decimals Lib.Checks Lib.Json

structure RentPaymentResult where
  success : Bool := false
  correlationId : Option String := none
  transactionId : Option ℕ := none
  amountPaid : ℤ := 0
  remainingAfter : ℤ := 0
  fullyPaid : Bool := false
  passesAwarded : ℕ := 0
  alreadySatisfied : Bool := false
  errorCode : Option String := none
  errorMessage : Option String := none
deriving DecidableEq, Repr

structure RentPaymentRequest where
  classId : String
  seatId : ℕ
  correlationId : String
  idempotencyKey : String
  paymentAmount : Option Decimal := none

/-- Whether a nonnegative finite amount is more than `n`. -/
def exceeds (coefficient : ℕ) (exponent : ℤ) (n : ℕ) : Prop :=
  n * 10 ^ (-exponent).toNat < coefficient * 10 ^ exponent.toNat

instance (c : ℕ) (e : ℤ) (n : ℕ) : Decidable (exceeds c e n) := by unfold exceeds; infer_instance

def requestedAmountProblem : Decimal → Option String
  | .finite negative coefficient exponent =>
    if negative ∨ coefficient = 0 then some "Payment amount must be positive"
    else if exceeds coefficient exponent 1000000 then some "Enter a valid payment amount."
    else
      match Decimal.quantizeFinite negative coefficient exponent with
      | none => some "Enter a valid payment amount."
      | some q =>
        if exponent < -2 ∧ q.units * 10 ^ (-2 - exponent).toNat ≠ coefficient then
          some "Payment amount must be in whole cents."
        else none
  | _ => some "Enter a valid payment amount."

def cents (amount : Decimal) : ℤ := (quantizeCurrency (some amount)).value

def refuse (q : RentPaymentRequest) (code message : String) : RentPaymentResult :=
  { correlationId := some q.correlationId, errorCode := some code, errorMessage := some message }

/-- The success of a command that found nothing left to pay. -/
def nothingOwed (q : RentPaymentRequest) : RentPaymentResult :=
  { success := true, correlationId := some q.correlationId, alreadySatisfied := true,
    fullyPaid := true }

/-- The read-only checks of `pay_rent`. An error is the result that the call returns at once. -/
def verifyRentPayment (S : RentState) (q : RentPaymentRequest) :
    Except RentPaymentResult (ObligationAssessment × ObligationState) := do
  match q.paymentAmount.bind requestedAmountProblem with
  | some problem => .error (refuse q "INVALID_AMOUNT" problem)
  | none =>
    let a ← demand (getAssessmentForCorrelation S q.correlationId)
      (refuse q "NO_ASSESSMENT" ("No rent assessment for correlation " ++ q.correlationId))
    let state ← demand (getObligationState S q.correlationId)
      (refuse q "NO_ASSESSMENT" ("No rent assessment for correlation " ++ q.correlationId))
    require (a.obligationType = .rent ∨ a.obligationType = .lateFee) (refuse q "NOT_RENT_DOMAIN"
      ("Obligation " ++ q.correlationId ++ " is not a rent-domain obligation"))
    require (a.classId = q.classId ∧ a.seatId = q.seatId)
      (refuse q "SCOPE_MISMATCH" "Assessment does not belong to this seat/class")
    require (state.isWithdrawn = false) (refuse q "WITHDRAWN"
      "This bill was withdrawn before its period began and is not owed")
    require (state.isWaived = false) (nothingOwed q)
    require (S.ledger.seatClass q.seatId = some q.classId)
      (refuse q "NO_SEAT" "Seat not found in class scope")
    return (a, state)

def rentLedgerKey (idempotencyKey : String) : String :=
  "rent-payment:" ++ idempotencyKey ++ ":principal"

def RentPaymentRequest.ledgerIdentity (q : RentPaymentRequest) (feat : FeatContext) :
    CommandIdentity :=
  ⟨q.classId, feat.activeFeat, rentLedgerKey q.idempotencyKey⟩

def RentPaymentRequest.canonicalIntent (q : RentPaymentRequest) : Value :=
  .arr [.str "RENT_PAYMENT", .str q.correlationId,
    match q.paymentAmount with
    | none => .null
    | some d => text (quantizeCurrency (some d)).toText]

/-- The outcome of a command that its own Ledger row already answers. -/
def replayedRentPayment (S : RentState) (q : RentPaymentRequest) (a : ObligationAssessment)
    (priorDebit : Transaction) : Except Raise RentPaymentResult := do
  let assessed := resolveAssessmentAmount S a
  let priorPayment ← demand (getPaymentEventByLedger S priorDebit.id)
    (.runtimeError "FATAL: Rent payment debit has no PAYMENT satisfaction event")
  let paid := getPaidMagnitudeThroughEvent S q.correlationId priorPayment
  let fullyPaid : Bool := assessed ≤ paid
  require (¬ (q.paymentAmount = none ∧ fullyPaid = false))
    (.valueError "Replay fingerprint mismatch for full rent payment intent.")
  return { success := true, correlationId := some q.correlationId, alreadySatisfied := fullyPaid,
           transactionId := some priorDebit.id, amountPaid := |priorDebit.amountCents|,
           remainingAfter := max 0 (assessed - paid), fullyPaid := fullyPaid }

def laterConfigured (best : Option RentSettings) (r : RentSettings) : Option RentSettings :=
  match best with
  | none => some r
  | some b =>
    if b.rentConfiguredAt < r.rentConfiguredAt ∨
        (b.rentConfiguredAt = r.rentConfiguredAt ∧ b.id < r.id) then some r else some b

/-- `get_rent_settings`: the newest `IN_USE` row. -/
def getRentSettings (S : RentState) (classId : String) : Option RentSettings :=
  (S.rentSettings.filter (fun r ↦ r.classId = classId ∧ r.availabilityState = .inUse)).foldl
    laterConfigured none

structure AuthorizedPayment where
  settings : RentSettings
  assessedAmount : ℤ
  paidBefore : ℤ
  thisPayment : ℤ

/-- What a fresh command pays, under the policy that the assessment froze. -/
def authorizeRentPayment (S : RentState) (q : RentPaymentRequest) (a : ObligationAssessment) :
    Except RentPaymentResult AuthorizedPayment := do
  let settings ← demand ((rentPolicy S a.policyUuid).or (getRentSettings S q.classId))
    (refuse q "NO_SETTINGS" "Rent settings not found")
  let assessed := resolveAssessmentAmount S a
  require (0 < assessed) (refuse q "ZERO_AMOUNT" "Assessed rent amount resolves to zero")
  let paidBefore := getPaidMagnitude S q.correlationId
  let remainingBefore := assessed - paidBefore
  require (0 < remainingBefore) (nothingOwed q)
  match q.paymentAmount with
  | none => return ⟨settings, assessed, paidBefore, remainingBefore⟩
  | some d =>
    require (0 < cents d) (refuse q "INVALID_AMOUNT" "Payment amount must be positive")
    if remainingBefore ≤ cents d then return ⟨settings, assessed, paidBefore, remainingBefore⟩
    else
      require (settings.allowIncrementalPayment = true) (refuse q "PARTIAL_NOT_ALLOWED"
        "Partial rent payments are not enabled for this class")
      return ⟨settings, assessed, paidBefore, cents d⟩

def rentPlan (q : RentPaymentRequest) (targetSeatId : ℕ) (amount : ℤ) : IntendedLedgerPlan where
  seatId := q.seatId
  classId := q.classId
  debitAmount := amount
  transactionType := "rent_payment"
  actorSeatId := q.seatId
  targetSeatId := targetSeatId
  mechanism := "self"
  canonicalIntent := q.canonicalIntent

section Commands

variable (sha256 : String → String) (env : Surroundings) (feat : FeatContext)

/-- The writes of a fresh payment: the debit, the `PAYMENT` that names it, and the perks where it
completes a rent whose period has begun. -/
def postRentPayment (S : RentState) (q : RentPaymentRequest) (a : ObligationAssessment)
    (state : ObligationState) (p : AuthorizedPayment) :
    Except Raise (RentPaymentResult × RentState) := do
  let authority ← env.teacherSeat q.classId
  let intended ← buildIntendedLedgerPlan (rentPlan q authority p.thisPayment)
  let resolved ← resolveIntendedLedgerPlan S.ledger intended (env.bankingDirective q.classId)
  if resolved.checkingAfter < 0 then
    return (refuse q "INSUFFICIENT_FUNDS"
      "Checking, with any overdraft-protection transfer, does not cover this payment", S)
  else
    let (applied, L) ←
      applyResolvedLedgerPlan sha256 feat S.ledger resolved (rentLedgerKey q.idempotencyKey)
    let debit ← demand applied.principal (.runtimeError "the plan has no principal")
    let (_, S₁) ← satisfyObligation { S with ledger := L } feat.canonicalNowUtc
      { correlationId := q.correlationId, classId := q.classId, seatId := q.seatId,
        method := .payment, ledgerTransactionId := some debit.id }
    let paid := p.paidBefore + p.thisPayment
    let fullyPaid : Bool := p.assessedAmount ≤ paid
    let newlyFullyPaid : Bool :=
      fullyPaid && decide (p.paidBefore < p.assessedAmount) && applied.created = some true
    let (passes, S₂) ←
      if newlyFullyPaid ∧ a.obligationType = .rent ∧ state.dueAt ≤ feat.canonicalNowUtc then
        awardSatisfactionPerks env feat.canonicalNowUtc S₁ p.settings q.classId q.seatId
          q.correlationId
      else pure (0, S₁)
    return ({ success := true, correlationId := some q.correlationId,
              transactionId := some debit.id, amountPaid := p.thisPayment,
              remainingAfter := max 0 (p.assessedAmount - paid), fullyPaid := fullyPaid,
              passesAwarded := passes }, S₂)

/-- `pay_rent`. A replay resolves from the command's own Ledger row before anything is computed
anew. -/
def payRent (S : RentState) (q : RentPaymentRequest) :
    Except Raise (RentPaymentResult × RentState) := do
  require (q.classId ≠ "" ∧ q.seatId ≠ 0 ∧ q.correlationId ≠ "")
    (.valueError "pay_rent requires class_id, seat_id, and correlation_id")
  require (q.idempotencyKey ≠ "") (.valueError "pay_rent requires a command idempotency_key")
  match verifyRentPayment S q with
  | .error result => return (result, S)
  | .ok (a, state) =>
    let prior ← replayReservedCharge sha256 S.ledger (q.ledgerIdentity feat) q.seatId q.seatId
      .rentPayment q.canonicalIntent
    match prior with
    | some debit =>
      let result ← replayedRentPayment S q a debit
      return (result, S)
    | none =>
      match authorizeRentPayment S q a with
      | .error result => return (result, S)
      | .ok p => postRentPayment sha256 env feat S q a state p

end Commands

end TokenHub.Rent
