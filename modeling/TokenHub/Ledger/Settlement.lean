import TokenHub.Lib.SequencedLog
import TokenHub.Ledger.Command
import Mathlib.Logic.Function.Basic

set_option autoImplicit false

namespace TokenHub.Ledger

open Lib.Decimals Lib.Checks Lib.SequencedLog

inductive TransactionStatus
  | pending
  | posted
deriving DecidableEq, Repr

/-- `Transaction.posting_state`: the row's sequence against the cursor of its exact scope. -/
def postingState (snapshots : Scope → Option LedgerBalanceSnapshot) (t : Transaction) :
    TransactionStatus :=
  match t.postingSequence, (snapshots t.scope).bind (·.reconciledThroughPostingSequence) with
  | some n, some c => if n ≤ c then .posted else .pending
  | _, _ => .pending

/-- The row lies at or before a boundary of the posting order. -/
def admittedThrough (boundary : ℕ) (t : Transaction) : Prop :=
  ∃ n ∈ t.postingSequence, n ≤ boundary

instance (boundary : ℕ) (t : Transaction) : Decidable (admittedThrough boundary t) := by
  unfold admittedThrough; infer_instance

def postedHistoryCents (transactions : List Transaction) (scope : Scope) :
    Option ℕ → ℤ
  | none => 0
  | some boundary =>
    sumOver (·.amountCents) (fun t ↦ t.scope = scope ∧ admittedThrough boundary t) transactions

section Settle

def pendingRows (L : LedgerState) (seatId : ℕ) (classId : String) : List Transaction :=
  L.transactions.filter (fun t ↦ t.classId = classId ∧ t.seatId = seatId ∧
    postingState L.snapshots t = .pending)

def advanceCursor (cursor : Option ℕ) : List Transaction → Except Raise (Option ℕ)
  | [] => .ok cursor
  | t :: ts => do
    let n ← demand t.postingSequence
      (.valueError "Missing immutable Ledger creation sequence; historical admission is unprovable.")
    advanceCursor (some (max (cursor.getD 0) n)) ts

/-- The snapshot of one account, created where it is missing, rebuilt through its new cursor. -/
def settleAccount (L : LedgerState) (pending : List Transaction) (scope : Scope) :
    Except Raise LedgerState := do
  let snapshot := (L.snapshots scope).getD ⟨0, none⟩
  let cursor ← advanceCursor snapshot.reconciledThroughPostingSequence
    (pending.filter (·.accountType = scope.accountType))
  let posted := postedHistoryCents L.transactions scope cursor
  require (inInt32 posted) .dataError
  return { L with snapshots := Function.update L.snapshots scope (some ⟨posted, cursor⟩) }

def settleAccounts (pending : List Transaction) (seatId : ℕ) (classId : String) :
    LedgerState → List AccountType → Except Raise LedgerState
  | L, [] => .ok L
  | L, a :: as => do
    let L' ← settleAccount L pending ⟨classId, seatId, a⟩
    settleAccounts pending seatId classId L' as

def settleBalances (L : LedgerState) (seatId : ℕ) (classId : String) :
    Except Raise LedgerState := do
  require (L.seatClass seatId = some classId)
    (.valueError "settle_balances requires a seat bound to the provided class_id")
  let pending := pendingRows L seatId classId
  let accounts := [AccountType.checking, .savings].filter
    (fun a ↦ pending.any (·.accountType = a))
  if pending = [] then return L else settleAccounts pending seatId classId L accounts

end Settle

section Balance

def postedRowsCents (L : LedgerState) (scope : Scope) : ℤ :=
  sumOver (·.amountCents) (fun t ↦ t.scope = scope ∧ postingState L.snapshots t = .posted)
    L.transactions

def pendingRowsCents (L : LedgerState) (scope : Scope) : ℤ :=
  sumOver (·.amountCents) (fun t ↦ t.scope = scope ∧ postingState L.snapshots t = .pending)
    L.transactions

def scopeCents (L : LedgerState) (scope : Scope) : ℤ :=
  sumOver (·.amountCents) (fun t ↦ t.scope = scope) L.transactions

/-- `_available_balance_expression`, in cents: the snapshot where there is one, else the posted
rows, and the pending rows on top. -/
def availableBalanceExpression (L : LedgerState) (scope : Scope) : ℤ :=
  (match L.snapshots scope with
    | some s => s.postedBalanceCents
    | none => postedRowsCents L scope) + pendingRowsCents L scope

def getAvailableBalance (L : LedgerState) (scope : Scope) : ℤ :=
  (quantizeCurrency (some (.ofCents (availableBalanceExpression L scope)))).value

def getPostedBalance (L : LedgerState) (scope : Scope) : ℤ :=
  (quantizeCurrency (some (.ofCents (match L.snapshots scope with
    | some s => s.postedBalanceCents
    | none => postedRowsCents L scope)))).value

def getPendingBalanceDelta (L : LedgerState) (scope : Scope) : ℤ :=
  (quantizeCurrency (some (.ofCents (pendingRowsCents L scope)))).value

inductive ProofOutcome
  | pass
  | fail
  | unavailable
deriving DecidableEq, Repr

structure LedgerProofResult where
  outcome : ProofOutcome
  reconstructedCents : Option ℤ := none
  boundary : Option ℤ := none
  complete : Bool := true
  code : Option String := none
deriving DecidableEq, Repr

def LedgerProofResult.unavailable (code : String) : LedgerProofResult where
  outcome := .unavailable
  complete := false
  code := some code

def balanceScope (classId : String) (seatId : ℕ) (accountType : String) : Option Scope :=
  if classId = "" ∨ seatId = 0 then none
  else (AccountType.ofString accountType).map (⟨classId, seatId, ·⟩)

def reconstructPostedBalance (L : LedgerState) (classId : String) (seatId : ℕ)
    (accountType : String) (throughPostingSequence : Option ℤ) : LedgerProofResult :=
  match balanceScope classId seatId accountType with
  | none => .unavailable "invalid_scope"
  | some scope =>
    match throughPostingSequence with
    | none => .unavailable "missing_posting_boundary"
    | some boundary =>
      if boundary < 0 then .unavailable "invalid_posting_boundary"
      else if ∃ t ∈ L.transactions, t.scope = scope ∧ t.postingSequence = none then
        .unavailable "incomplete_posting_history"
      else
        { outcome := .pass
          reconstructedCents :=
            some (postedHistoryCents L.transactions scope (some boundary.toNat))
          boundary := some boundary }

def reconstructAvailableBalance (L : LedgerState) (classId : String) (seatId : ℕ)
    (accountType : String) (throughPostingSequence : Option ℤ) : LedgerProofResult :=
  let posted := reconstructPostedBalance L classId seatId accountType throughPostingSequence
  match posted.outcome, balanceScope classId seatId accountType with
  | .pass, some scope => { posted with reconstructedCents := some (scopeCents L scope) }
  | _, _ => posted

def verifyPostedBalance (L : LedgerState) (classId : String) (seatId : ℕ)
    (accountType : String) (throughPostingSequence : Option ℤ) : LedgerProofResult :=
  match balanceScope classId seatId accountType with
  | none => .unavailable "invalid_scope"
  | some scope =>
    let reconstructed :=
      reconstructPostedBalance L classId seatId accountType throughPostingSequence
    if reconstructed.outcome ≠ .pass then reconstructed
    else match L.snapshots scope with
      | none => { LedgerProofResult.unavailable "missing_snapshot" with
          boundary := reconstructed.boundary }
      | some snapshot =>
        if (snapshot.reconciledThroughPostingSequence.map (fun n ↦ (n : ℤ))) ≠
            reconstructed.boundary then
          { LedgerProofResult.unavailable "snapshot_boundary_mismatch" with
            boundary := reconstructed.boundary }
        else if some snapshot.postedBalanceCents ≠ reconstructed.reconstructedCents then
          { reconstructed with outcome := .fail, code := some "posted_balance_mismatch" }
        else reconstructed

def verifyAvailableBalance (L : LedgerState) (classId : String) (seatId : ℕ)
    (accountType : String) (throughPostingSequence : Option ℤ) : LedgerProofResult :=
  match balanceScope classId seatId accountType with
  | none => .unavailable "invalid_scope"
  | some scope =>
    let reconstructed :=
      reconstructAvailableBalance L classId seatId accountType throughPostingSequence
    if reconstructed.outcome ≠ .pass then reconstructed
    else if some (getAvailableBalance L scope) ≠ reconstructed.reconstructedCents then
      { reconstructed with outcome := .fail, code := some "available_balance_mismatch" }
    else reconstructed

end Balance

end TokenHub.Ledger
