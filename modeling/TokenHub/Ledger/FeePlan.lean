import TokenHub.Ledger.Funding
import TokenHub.Lib.Magnitude

set_option autoImplicit false

namespace TokenHub.Ledger

open Lib.Decimals Lib.Checks Lib.Json

inductive FeeAuthority
  | none
  | failedAgreement
  | explicitFee
deriving DecidableEq, Repr

def FeeAuthority.ofString (s : String) : Option FeeAuthority :=
  if s = "NONE" then some .none
  else if s = "FAILED_AGREEMENT" then some .failedAgreement
  else if s = "EXPLICIT_FEE" then some .explicitFee
  else Option.none

structure FeeDirective extends BankingDirective where
  flatFee : Option Decimal
  progressiveFee : Option (List (String × Value))
  cwi : Option Decimal
  feePeriodStart : Option ℤ

structure IntendedFeePlan extends IntendedLedgerPlan where
  feeActorSeatId : Option ℕ := none

def buildIntendedFeePlan (plan : IntendedFeePlan) : Except Raise IntendedFeePlan := do
  let intended ← buildIntendedLedgerPlan plan.toIntendedLedgerPlan
  return { plan with toIntendedLedgerPlan := intended }

structure ResolvedFeePlan extends ResolvedLedgerPlan where
  overdraftFeeAmount : ℤ
  feeActorSeatId : Option ℕ
  feeIdentity : Option FeeDirective

section FeeAmount

/-- The overdraft fees of the seat since the directive's period began. -/
def overdraftFeeCount (L : LedgerState) (plan : IntendedLedgerPlan) (start : ℤ) : ℕ :=
  (L.transactions.filter fun t ↦ t.classId = plan.classId ∧ t.seatId = plan.seatId ∧
    t.type = some .overdraftFee ∧ start ≤ t.timestamp).length

def feeTier (count : ℕ) : String :=
  if count = 0 then "tier_1" else if count = 1 then "tier_2" else "tier_3"

/-- What `percentage` reads is `Decimal(str(raw).strip().rstrip("%"))`, and nothing where reading
it or taking its hundredth is an invalid operation. A key of the schedule that is written twice
counts as it is written last. -/
def progressiveFeeAmount (percentage : Value → Option Decimal) (L : LedgerState)
    (plan : IntendedLedgerPlan) (directive : FeeDirective) (schedule : List (String × Value)) :
    Except Raise ℤ := do
  let unavailable := Raise.valueError "Unavailable banking fee directive."
  let invalid := Raise.valueError "Invalid banking fee directive."
  let cwi ← demand directive.cwi unavailable
  let start ← demand directive.feePeriodStart unavailable
  let base ← demand (Magnitude.ofDecimal cwi) invalid
  let raw := (schedule.reverse.lookup (feeTier (overdraftFeeCount L plan start))).getD .null
  let percent ← demand (percentage raw) unavailable
  let rate ← demand (Magnitude.ofDecimal percent) invalid
  let fee := base.mul (rate.div ⟨100, 0⟩)
  return (quantizeCurrency (some (.finite false fee.coefficient fee.exponent))).value

def feeAmount (percentage : Value → Option Decimal) (L : LedgerState) (plan : IntendedLedgerPlan)
    (directive : FeeDirective) : Except Raise ℤ := do
  match directive.flatFee with
  | some flat =>
    let _ ← demand (Magnitude.ofDecimal flat) (.valueError "Invalid banking fee directive.")
    return (quantizeCurrency (some flat)).value
  | none =>
    let schedule ← demand directive.progressiveFee
      (.valueError "Unavailable banking fee directive.")
    if schedule = [] then return 0
    else progressiveFeeAmount percentage L plan directive schedule

/-- The fee that the authority asks for, before the funding of the whole debit is settled. -/
def authorizedFee (percentage : Value → Option Decimal) (L : LedgerState)
    (plan : IntendedLedgerPlan) (directive : FeeDirective) (authority : FeeAuthority)
    (forceOverdraftFee : Bool) (checking savings : ℤ) : Except Raise ℤ :=
  let shortfall := max (plan.debitAmount - checking) 0
  match authority with
  | .none => .ok 0
  | .explicitFee =>
    if forceOverdraftFee ∨ checking < 0 then feeAmount percentage L plan directive else .ok 0
  | .failedAgreement =>
    if 0 < shortfall ∧ ¬ (directive.protectionEnabled ∧ shortfall ≤ savings) then
      feeAmount percentage L plan directive
    else .ok 0

end FeeAmount

/-- `resolve_intended_ledger_plan` under every fee authority. -/
def resolveIntendedFeePlan (percentage : Value → Option Decimal) (L : LedgerState)
    (plan : IntendedFeePlan) (directive : FeeDirective) (feeAuthority : String)
    (forceOverdraftFee : Bool) : Except Raise ResolvedFeePlan := do
  let invalid := Raise.valueError "Invalid funding directive scope or fee authority."
  require (directive.classId = plan.classId) invalid
  let authority ← demand (FeeAuthority.ofString feeAuthority) invalid
  let (checking, savings) ← getAvailableBalances L plan.seatId plan.classId
  let principal := plan.debitAmount
  match plan.sourceAccount with
  | .savings =>
    require (authority = .none)
      (.valueError "Savings recovery cannot create a checking fee.")
    return { outcome := .accept, intendedPlan := plan.toIntendedLedgerPlan, shortfall := 0,
             recoveryTransferAmount := 0, checkingBefore := checking, savingsBefore := savings,
             checkingAfter := checking, savingsAfter := savings - principal,
             directiveIdentity := none, overdraftFeeAmount := 0,
             feeActorSeatId := plan.feeActorSeatId, feeIdentity := none }
  | .checking =>
    let fee ← authorizedFee percentage L plan.toIntendedLedgerPlan directive authority
      forceOverdraftFee checking savings
    let total := principal + fee
    let transfer := protectionTransfer directive.protectionEnabled total checking savings
    return { outcome := if transfer = 0 ∧ fee = 0 then .accept else .transform,
             intendedPlan := plan.toIntendedLedgerPlan,
             shortfall := if total = 0 then 0 else max (total - checking) 0,
             recoveryTransferAmount := transfer, checkingBefore := checking,
             savingsBefore := savings, checkingAfter := checking + transfer - total,
             savingsAfter := savings - transfer,
             directiveIdentity := some directive.toBankingDirective,
             overdraftFeeAmount := fee, feeActorSeatId := plan.feeActorSeatId,
             feeIdentity := if authority = .none then none else some directive }

section Apply

variable (sha256 : String → String)

def feeEffect (p : IntendedLedgerPlan) (feeActorSeatId : ℕ) (fee : ℤ) : Effect where
  seatId := p.seatId
  classId := p.classId
  targetSeatId := p.seatId
  actorSeatId := feeActorSeatId
  mechanism := "system"
  amount := some (.ofCents (-fee))
  accountType := "checking"
  type := some "overdraft_fee"
  correlationId := p.correlationId

/-- The fee of a plan comes last, under the actor that its authority resolved. -/
def feeEffects (resolved : ResolvedFeePlan) : Except Raise (List Effect) := do
  if resolved.overdraftFeeAmount = 0 then return []
  else
    let actor ← demand resolved.feeActorSeatId
      (.valueError "A fee requires its resolved authority actor.")
    return [feeEffect resolved.intendedPlan actor resolved.overdraftFeeAmount]

structure AppliedFeePlan extends AppliedPlan where
  reason : PlanOutcome
  ledgerTransactionId : Option ℕ
deriving DecidableEq, Repr

def rowAt (rows : List Transaction) (index : ℕ) (amount : ℤ) :
    Except Raise (Option Transaction) := do
  if amount = 0 then return none
  else
    let t ← demand rows[index]? (.runtimeError "list index out of range")
    return some t

/-- `apply_resolved_ledger_plan`: one reservation owns the funding legs, the principal and the
fee. -/
def applyResolvedFeePlan (feat : FeatContext) (L : LedgerState) (resolved : ResolvedFeePlan)
    (idempotencyKey : String) : Except Raise (AppliedFeePlan × LedgerState) := do
  let p := resolved.intendedPlan
  let charged := planEffects sha256 resolved.toResolvedLedgerPlan feat.activeFeat idempotencyKey
  let fees ← feeEffects resolved
  let effects := charged ++ fees
  if effects = [] then return (⟨⟨[], none, none⟩, resolved.outcome, none⟩, L)
  else
    let id : CommandIdentity := ⟨p.classId, feat.activeFeat, idempotencyKey⟩
    checkFreshCommand L resolved.toResolvedLedgerPlan id
    let ((rows, created), L') ←
      createReservedEffects sha256 feat L L.reservations id effects p.canonicalIntent
    let principal ← rowAt rows (charged.length - 1) p.debitAmount
    let fee ← rowAt rows charged.length resolved.overdraftFeeAmount
    return (⟨⟨rows, some created, principal⟩, resolved.outcome, fee.map (·.id)⟩, L')

end Apply

end TokenHub.Ledger
