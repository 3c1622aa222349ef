import TokenHub.Ledger.Settlement

set_option autoImplicit false

namespace TokenHub.Ledger

open Lib.Decimals Lib.Checks Lib.Json

structure BankingDirective where
  classId : String
  versionLocator : Option String
  protectionEnabled : Bool
deriving DecidableEq, Repr

structure IntendedLedgerPlan where
  seatId : ℕ
  classId : String
  debitAmount : ℤ
  transactionType : String
  actorSeatId : ℕ
  targetSeatId : ℕ
  mechanism : String
  sourceAccount : AccountType := .checking
  compensationOriginLocator : Option String := none
  correctionIntentLocator : Option String := none
  originalTransactionId : Option ℕ := none
  correlationId : Option String := none
  canonicalIntent : Value := .null
  compensationSubtype : Option String := none

/-- `build_intended_ledger_plan`: the debit is quantized and must not be negative. -/
def buildIntendedLedgerPlan (plan : IntendedLedgerPlan) : Except Raise IntendedLedgerPlan := do
  let amount := (quantizeCurrency (some (.ofCents plan.debitAmount))).value
  require (0 ≤ amount)
    (.valueError "Charge plans require a nonnegative canonical-account debit.")
  return { plan with debitAmount := amount }

inductive PlanOutcome
  | accept
  | transform
deriving DecidableEq, Repr

structure ResolvedLedgerPlan where
  outcome : PlanOutcome
  intendedPlan : IntendedLedgerPlan
  shortfall : ℤ
  recoveryTransferAmount : ℤ
  checkingBefore : ℤ
  savingsBefore : ℤ
  checkingAfter : ℤ
  savingsAfter : ℤ
  directiveIdentity : Option BankingDirective

def getAvailableBalances (L : LedgerState) (seatId : ℕ) (classId : String) :
    Except Raise (ℤ × ℤ) := do
  require (classId ≠ "" ∧ seatId ≠ 0)
    (.valueError "FATAL: Balance lookup requires class_id and seat_id.")
  return (getAvailableBalance L ⟨classId, seatId, .checking⟩,
    getAvailableBalance L ⟨classId, seatId, .savings⟩)

/-- What overdraft protection moves from savings: the whole shortfall or nothing. -/
def protectionTransfer (protectionEnabled : Bool) (principal checking savings : ℤ) : ℤ :=
  let shortfall := if principal = 0 then 0 else max (principal - checking) 0
  if 0 < shortfall ∧ protectionEnabled ∧ shortfall ≤ savings then shortfall else 0

/-- `resolve_intended_ledger_plan` with the fee authority `NONE`. -/
def resolveIntendedLedgerPlan (L : LedgerState) (plan : IntendedLedgerPlan)
    (directive : BankingDirective) : Except Raise ResolvedLedgerPlan := do
  require (directive.classId = plan.classId)
    (.valueError "Invalid funding directive scope or fee authority.")
  let (checking, savings) ← getAvailableBalances L plan.seatId plan.classId
  let principal := plan.debitAmount
  match plan.sourceAccount with
  | .savings =>
    return { outcome := .accept, intendedPlan := plan, shortfall := 0,
             recoveryTransferAmount := 0, checkingBefore := checking, savingsBefore := savings,
             checkingAfter := checking, savingsAfter := savings - principal,
             directiveIdentity := none }
  | .checking =>
    let transfer := protectionTransfer directive.protectionEnabled principal checking savings
    return { outcome := if transfer = 0 then .accept else .transform, intendedPlan := plan,
             shortfall := if principal = 0 then 0 else max (principal - checking) 0,
             recoveryTransferAmount := transfer, checkingBefore := checking,
             savingsBefore := savings, checkingAfter := checking + transfer - principal,
             savingsAfter := savings - transfer, directiveIdentity := some directive }

section Effects

variable (sha256 : String → String)

/-- `build_transfer_effect_pair` from savings to checking, under the funding correlation. -/
def fundingEffects (p : IntendedLedgerPlan) (activeFeat idempotencyKey : String)
    (transfer : ℤ) : List Effect :=
  let leg (account type : String) (cents : ℤ) : Effect :=
    { seatId := p.seatId, classId := p.classId, targetSeatId := p.seatId,
      actorSeatId := p.actorSeatId, mechanism := p.mechanism,
      amount := some (.ofCents cents), accountType := account, type := some type,
      correlationId := some (fundingCorrelation sha256 p.classId activeFeat idempotencyKey) }
  if transfer = 0 then []
  else [leg "savings" "Withdrawal" (-transfer), leg "checking" "Deposit" transfer]

def principalEffect (p : IntendedLedgerPlan) : Effect where
  seatId := p.seatId
  classId := p.classId
  targetSeatId := p.targetSeatId
  actorSeatId := p.actorSeatId
  mechanism := p.mechanism
  amount := some (.ofCents (-p.debitAmount))
  accountType := p.sourceAccount.value
  type := some p.transactionType
  originalTransactionId := p.originalTransactionId
  compensationSubtype := p.compensationSubtype
  correlationId := p.correlationId
  compensationOriginLocator := p.compensationOriginLocator
  compensationAmountCents :=
    if p.compensationOriginLocator.getD "" = "" then 0 else p.debitAmount
  correctionIntentLocator := p.correctionIntentLocator

def planEffects (resolved : ResolvedLedgerPlan) (activeFeat idempotencyKey : String) :
    List Effect :=
  fundingEffects sha256 resolved.intendedPlan activeFeat idempotencyKey
      resolved.recoveryTransferAmount ++
    (if resolved.intendedPlan.debitAmount = 0 then []
      else [principalEffect resolved.intendedPlan])

end Effects

/-- What an applied plan reports. `created` is absent where the plan had no effect. -/
structure AppliedPlan where
  effects : List Transaction
  created : Option Bool
  principal : Option Transaction
deriving DecidableEq, Repr

/-- The balance check of a plan whose command has no reservation yet. -/
def recheckBalances (L : LedgerState) (resolved : ResolvedLedgerPlan) : Except Raise Unit := do
  let p := resolved.intendedPlan
  require (L.seatClass p.seatId = some p.classId) (.valueError "Invalid scoped seat.")
  let (checking, savings) ← getAvailableBalances L p.seatId p.classId
  require (checking = resolved.checkingBefore ∧ savings = resolved.savingsBefore)
    (.valueError "PREVIEW_CHANGED")

def checkFreshCommand (L : LedgerState) (resolved : ResolvedLedgerPlan) (id : CommandIdentity) :
    Except Raise Unit :=
  match L.reservations.find? (·.identity = id) with
  | some _ => .ok ()
  | none => recheckBalances L resolved

/-- `apply_resolved_ledger_plan`: one reservation owns the principal and its funding legs. -/
def applyResolvedLedgerPlan (sha256 : String → String) (feat : FeatContext) (L : LedgerState)
    (resolved : ResolvedLedgerPlan) (idempotencyKey : String) :
    Except Raise (AppliedPlan × LedgerState) := do
  let p := resolved.intendedPlan
  let effects := planEffects sha256 resolved feat.activeFeat idempotencyKey
  if effects = [] then return (⟨[], none, none⟩, L)
  else
    let id : CommandIdentity := ⟨p.classId, feat.activeFeat, idempotencyKey⟩
    checkFreshCommand L resolved id
    let ((rows, created), L') ←
      createReservedEffects sha256 feat L L.reservations id effects p.canonicalIntent
    if p.debitAmount = 0 then return (⟨rows, some created, none⟩, L')
    else
      let principal ← demand rows[effects.length - 1]?
        (.runtimeError "list index out of range")
      return (⟨rows, some created, some principal⟩, L')

end TokenHub.Ledger
