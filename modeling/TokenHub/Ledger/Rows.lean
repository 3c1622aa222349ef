import Mathlib.Tactic.Common
import TokenHub.Lib.Decimals

set_option autoImplicit false

namespace TokenHub.Ledger

open Lib.Decimals

inductive AccountType
  | checking
  | savings
deriving DecidableEq, Repr

def AccountType.value : AccountType → String
  | .checking => "checking"
  | .savings => "savings"

def AccountType.ofString (s : String) : Option AccountType :=
  if s = "checking" then some .checking else if s = "savings" then some .savings else none

inductive LedgerMechanism
  | self
  | teacher
  | system
deriving DecidableEq, Repr

def LedgerMechanism.value : LedgerMechanism → String
  | .self => "self"
  | .teacher => "teacher"
  | .system => "system"

def LedgerMechanism.ofString (s : String) : Option LedgerMechanism :=
  if s = "self" then some .self
  else if s = "teacher" then some .teacher
  else if s = "system" then some .system
  else none

/-- The closed vocabulary of `ck_ledger_transaction_type_closed_vocabulary`; the legacy casings
are members of their own. -/
inductive TransactionType
  | interest
  | legacyInterest
  | reversal
  | legacyReversal
  | withdrawal
  | legacyWithdrawal
  | deposit
  | legacyDeposit
  | internalTransfer
  | insuranceReimbursement
  | insurancePremium
  | purchase
  | refund
  | overdraftFee
  | payroll
  | payrollCorrection
  | manualPayment
  | penalty
  | issueReversal
  | issueCompensation
  | rentPayment
  | voidItemRemoved
deriving DecidableEq, Repr

def TransactionType.value : TransactionType → String
  | .interest => "interest"
  | .legacyInterest => "Interest"
  | .reversal => "reversal"
  | .legacyReversal => "REVERSAL"
  | .withdrawal => "withdrawal"
  | .legacyWithdrawal => "Withdrawal"
  | .deposit => "deposit"
  | .legacyDeposit => "Deposit"
  | .internalTransfer => "internal_transfer"
  | .insuranceReimbursement => "insurance_reimbursement"
  | .insurancePremium => "insurance_premium"
  | .purchase => "purchase"
  | .refund => "refund"
  | .overdraftFee => "overdraft_fee"
  | .payroll => "payroll"
  | .payrollCorrection => "payroll_correction"
  | .manualPayment => "manual_payment"
  | .penalty => "penalty"
  | .issueReversal => "issue_reversal"
  | .issueCompensation => "issue_compensation"
  | .rentPayment => "rent_payment"
  | .voidItemRemoved => "void_item_removed"

def TransactionType.all : List TransactionType :=
  [.interest, .legacyInterest, .reversal, .legacyReversal, .withdrawal, .legacyWithdrawal,
    .deposit, .legacyDeposit, .internalTransfer, .insuranceReimbursement, .insurancePremium,
    .purchase, .refund, .overdraftFee, .payroll, .payrollCorrection, .manualPayment, .penalty,
    .issueReversal, .issueCompensation, .rentPayment, .voidItemRemoved]

def TransactionType.ofString (s : String) : Option TransactionType :=
  TransactionType.all.find? (fun t ↦ t.value = s)

@[simp] theorem AccountType.ofString_value (a : AccountType) : ofString a.value = some a := by
  cases a <;> decide

@[simp] theorem LedgerMechanism.ofString_value (m : LedgerMechanism) :
    ofString m.value = some m := by
  cases m <;> decide

@[simp] theorem TransactionType.ofString_value (t : TransactionType) :
    ofString t.value = some t := by
  cases t <;> decide

theorem AccountType.value_of_ofString {s : String} {a : AccountType} (h : ofString s = some a) :
    a.value = s := by
  unfold ofString at h
  split_ifs at h with h₁ h₂ <;> simp_all [AccountType.value, eq_comm]

/-- A raised exception, with its text, or the constraint that refused the statement. -/
inductive Raise
  | valueError (message : String)
  | runtimeError (message : String)
  | decimalInvalidOperation
  | integrityError (constraint : String)
  | dataError
  | domainError (exception message : String)
deriving DecidableEq, Repr

/-- What the active FEAT context and the temporal resolver supply to a Ledger write. -/
structure FeatContext where
  activeFeat : String
  correlationId : String
  canonicalNowUtc : ℤ
deriving DecidableEq, Repr

/-- The keyword arguments of one Ledger effect, as a caller states them. -/
structure Effect where
  seatId : ℕ
  classId : String
  targetSeatId : ℕ
  actorSeatId : ℕ
  mechanism : String
  amount : Option Decimal
  accountType : String
  type : Option String
  originalTransactionId : Option ℕ := none
  policyId : Option ℕ := none
  compensationSubtype : Option String := none
  correlationId : Option String := none
  compensationOriginLocator : Option String := none
  compensationAmountCents : ℤ := 0
  correctionIntentLocator : Option String := none
deriving DecidableEq, Repr

/-- One row of `ledger_transaction`. The amount is a `Numeric(12, 2)`, so it is held in cents and
`amount` and `amount_cents` are the same number. -/
structure Transaction where
  id : ℕ
  classId : String
  seatId : ℕ
  targetSeatId : ℕ
  actorSeatId : ℕ
  mechanism : LedgerMechanism
  amountCents : ℤ
  accountType : AccountType
  type : Option TransactionType
  correlationId : String
  featCode : String
  idempotencyKey : Option String
  originalTransactionId : Option ℕ
  policyId : Option ℕ
  compensationSubtype : Option String
  compensationOriginLocator : Option String
  compensationAmountCents : ℤ
  correctionIntentLocator : Option String
  timestamp : ℤ
  postingSequence : Option ℕ
  commandReservationId : Option ℕ
deriving DecidableEq, Repr

structure Scope where
  classId : String
  seatId : ℕ
  accountType : AccountType
deriving DecidableEq, Repr

def Transaction.scope (t : Transaction) : Scope := ⟨t.classId, t.seatId, t.accountType⟩

/-- One row of `ledger_balance_snapshot`; its scope is its key. -/
structure LedgerBalanceSnapshot where
  postedBalanceCents : ℤ
  reconciledThroughPostingSequence : Option ℕ
deriving DecidableEq, Repr

structure LedgerCommandReservation where
  id : ℕ
  classId : String
  featCode : String
  idempotencyKey : String
  replayFingerprint : String
  fingerprintVersion : ℕ
deriving DecidableEq, Repr

structure LedgerState where
  /-- The class of each seat row. -/
  seatClass : ℕ → Option String
  transactions : List Transaction
  snapshots : Scope → Option LedgerBalanceSnapshot
  reservations : List LedgerCommandReservation

def LedgerState.empty (seatClass : ℕ → Option String) : LedgerState where
  seatClass := seatClass
  transactions := []
  snapshots := fun _ ↦ none
  reservations := []

def inInt32 (n : ℤ) : Bool := decide (-2147483648 ≤ n ∧ n ≤ 2147483647)

end TokenHub.Ledger
