import TokenHub.Rent.Payment

set_option autoImplicit false

namespace TokenHub.Rent

open Ledger Lib.Decimals Lib.Checks

structure RentBillPaymentResult where
  success : Bool := false
  rentCorrelationId : String
  amountPaid : ℤ := 0
  remainingAfter : ℤ := 0
  fullyPaid : Bool := false
  passesAwarded : ℕ := 0
  perObligation : List RentPaymentResult := []
  errorCode : Option String := none
  errorMessage : Option String := none
deriving DecidableEq, Repr

structure RentBillRequest where
  classId : String
  seatId : ℕ
  rentCorrelationId : String
  idempotencyKey : String
  paymentAmount : Option Decimal := none

/-- `_bill_obligations_in_order`: the rent principal, then its late fees oldest first. -/
def billObligationsInOrder (S : RentState) (rentCorrelationId : String) :
    List ObligationAssessment :=
  (getAssessmentForCorrelation S rentCorrelationId).toList ++
    (getObligationsArisingFrom S rentCorrelationId).filter (·.obligationType = .lateFee)

def remainingAmount (S : RentState) (correlationId : String) : ℤ :=
  ((getObligationState S correlationId).map (·.remainingAmount)).getD 0

def groupRemaining (S : RentState) (obligations : List ObligationAssessment) : ℤ :=
  (obligations.map (fun ob ↦ remainingAmount S ob.correlationId)).sum

def billRefusal (q : RentBillRequest) (code message : String) : RentBillPaymentResult :=
  { rentCorrelationId := q.rentCorrelationId, errorCode := some code,
    errorMessage := some message }

variable (sha256 : String → String)

def billSliceCommandKey (idempotencyKey correlationId : String) : String :=
  "billpay:" ++
    String.ofList ((sha256 (idempotencyKey ++ ":" ++ correlationId)).toList.take 24)

def RentBillRequest.slice (q : RentBillRequest) (correlationId : String) (amount : ℤ) :
    RentPaymentRequest where
  classId := q.classId
  seatId := q.seatId
  correlationId := correlationId
  idempotencyKey := billSliceCommandKey sha256 q.idempotencyKey correlationId
  paymentAmount := some (.ofCents amount)

variable (env : Surroundings) (feat : FeatContext)

def billSliceAlreadyPosted (S : RentState) (q : RentBillRequest) (correlationId : String) : Bool :=
  S.ledger.reservations.any
    (·.identity = (q.slice sha256 correlationId 0).ledgerIdentity feat)

/-- The slices of a bill, rent first: each takes what is left of the budget, and one that is not
paid ends the sequence. The remaining amounts are those read before the first slice. -/
def paySlices (q : RentBillRequest) : RentState → ℤ → List (ObligationAssessment × ℤ) →
    Except Raise (List RentPaymentResult × RentState)
  | S, _, [] => return ([], S)
  | S, budget, (ob, remaining) :: rest =>
    if budget ≤ 0 then return ([], S)
    else if remaining ≤ 0 then paySlices q S budget rest
    else do
      let (sub, S') ←
        payRent sha256 env feat S (q.slice sha256 ob.correlationId (min remaining budget))
      if sub.success then
        let (subs, S'') ← paySlices q S' (budget - sub.amountPaid) rest
        return (sub :: subs, S'')
      else return ([sub], S')

/-- What the loop's results amount to. The remaining balance is read anew. -/
def billResult (S : RentState) (q : RentBillRequest) (obligations : List ObligationAssessment)
    (results : List RentPaymentResult) : RentBillPaymentResult :=
  match results.find? (·.success = false) with
  | some sub =>
    { rentCorrelationId := q.rentCorrelationId, perObligation := results,
      errorCode := sub.errorCode, errorMessage := sub.errorMessage }
  | none =>
    { success := true, rentCorrelationId := q.rentCorrelationId,
      amountPaid := (results.map (·.amountPaid)).sum,
      remainingAfter := groupRemaining S obligations,
      fullyPaid := groupRemaining S obligations ≤ 0,
      passesAwarded := (results.map (·.passesAwarded)).sum, perObligation := results }

/-- What the command may spend: the requested amount, or no more than is owed. -/
def billBudget (q : RentBillRequest) (owed : ℤ) : ℤ :=
  match q.paymentAmount with
  | none => owed
  | some d => min (cents d) owed

/-- The affordability screen of a command that has posted no slice yet. -/
def billFunded (S : RentState) (q : RentBillRequest) (obligations : List ObligationAssessment)
    (budget : ℤ) : Except Raise Bool := do
  if obligations.any (fun ob ↦ billSliceAlreadyPosted sha256 feat S q ob.correlationId) then
    return true
  else
    let authority ← env.teacherSeat q.classId
    let intended ← buildIntendedLedgerPlan
      { seatId := q.seatId, classId := q.classId, debitAmount := budget,
        transactionType := "rent_payment", targetSeatId := authority, actorSeatId := q.seatId,
        mechanism := "self" }
    let funding ← resolveIntendedLedgerPlan S.ledger intended (env.bankingDirective q.classId)
    return decide (0 ≤ funding.checkingAfter)

def payRentBill (S : RentState) (q : RentBillRequest) :
    Except Raise (RentBillPaymentResult × RentState) := do
  match q.paymentAmount.bind requestedAmountProblem with
  | some problem => return (billRefusal q "INVALID_AMOUNT" problem, S)
  | none =>
    let obligations := billObligationsInOrder S q.rentCorrelationId
    let owed := groupRemaining S obligations
    if obligations = [] then
      return (billRefusal q "NO_ASSESSMENT"
        ("No rent bill for correlation " ++ q.rentCorrelationId), S)
    else if owed ≤ 0 then
      return ({ success := true, rentCorrelationId := q.rentCorrelationId, fullyPaid := true }, S)
    else if S.ledger.seatClass q.seatId ≠ some q.classId then
      return (billRefusal q "NO_SEAT" "Seat not found in class scope", S)
    else
      let funded ← billFunded sha256 env feat S q obligations (billBudget q owed)
      if funded then
        let (results, S') ← paySlices sha256 env feat q S (billBudget q owed)
          (obligations.map (fun ob ↦ (ob, remainingAmount S ob.correlationId)))
        return (billResult S' q obligations results, S')
      else
        return (billRefusal q "INSUFFICIENT_FUNDS"
          "Checking, with any overdraft-protection transfer, does not cover this payment", S)

end TokenHub.Rent
