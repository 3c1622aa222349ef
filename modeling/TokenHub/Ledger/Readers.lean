import TokenHub.Lib.Sql
import TokenHub.Ledger.Settlement

set_option autoImplicit false

namespace TokenHub.Ledger

open Lib.Decimals Lib.Checks Lib.Sql

/-- A row of `ledger_transaction` as its columns are declared: a historical row may have no class,
no account or no posting sequence. -/
structure LedgerRow where
  id : ℕ
  classId : Option String
  seatId : ℕ
  accountType : Option String
  amountCents : ℤ
  postingSequence : Option ℤ
deriving DecidableEq, Repr

/-- A row of `ledger_balance_snapshot`. Its class is a row of `classes`, its account one of the
two. -/
structure SnapshotRow where
  classId : String
  seatId : ℕ
  accountType : AccountType
  postedBalanceCents : ℤ
  reconciledThroughPostingSequence : Option ℤ
  classId_ne_empty : classId ≠ ""
deriving DecidableEq, Repr

def SnapshotRow.scope (s : SnapshotRow) : Scope := ⟨s.classId, s.seatId, s.accountType⟩

/-- The two tables, with the widths of their integer columns and their unique keys. -/
structure LedgerTables where
  rows : List LedgerRow
  snapshots : List SnapshotRow
  idsUnique : (rows.map (·.id)).Nodup
  idsFit : ∀ r ∈ rows, r.id < 2147483648
  amountsFit : ∀ r ∈ rows, inInt32 r.amountCents = true
  postedFit : ∀ s ∈ snapshots, inInt32 s.postedBalanceCents = true
  scopesUnique : (snapshots.map (·.scope)).Nodup

section Classification

variable (T : LedgerTables)

/-- The comparison that `filter_by` makes with the columns of a row. -/
def SnapshotRow.coversRow (s : SnapshotRow) (row : LedgerRow) : Prop :=
  row.classId = some s.classId ∧ row.seatId = s.seatId ∧ row.accountType = some s.accountType.value

instance (s : SnapshotRow) (row : LedgerRow) : Decidable (s.coversRow row) := by
  unfold SnapshotRow.coversRow; infer_instance

def LedgerTables.postingState (row : LedgerRow) : TransactionStatus :=
  match row.postingSequence with
  | none => .pending
  | some n =>
    let cursor := (T.snapshots.find? (fun s ↦ s.coversRow row)).bind
      (·.reconciledThroughPostingSequence)
    if cursor.any (fun c ↦ n ≤ c) then .posted else .pending

def LedgerTables.postingStateExpression (row : LedgerRow) : TransactionStatus :=
  let reconciled := T.snapshots.any (fun s ↦ holds <|
    and (and (and (and (eq (some s.classId) row.classId) (eq (some s.seatId) (some row.seatId)))
      (eq (some s.accountType.value) row.accountType)) (isNotNull row.postingSequence))
      (le row.postingSequence s.reconciledThroughPostingSequence))
  if reconciled then .posted else .pending

abbrev PostingScope := String × ℕ × String

def postingScopeOf (row : LedgerRow) : Option PostingScope :=
  match row.classId, row.accountType with
  | some classId, some accountType =>
    if classId = "" ∨ accountType = "" then none else some (classId, row.seatId, accountType)
  | _, _ => none

def SnapshotRow.postingScope (s : SnapshotRow) : PostingScope :=
  (s.classId, s.seatId, s.accountType.value)

/-- `resolve_reconciliation_cursors`: the cursor at each scope, null where none was found. -/
def LedgerTables.resolveReconciliationCursors (scopes : List (Option PostingScope)) :
    PostingScope → Option ℤ :=
  let wanted := (scopes.filterMap id).dedup
  let found := T.snapshots.filter (fun s ↦ holds <|
    and (and (isIn (some s.classId) (wanted.map (·.1))) (isIn (some s.seatId) (wanted.map (·.2.1))))
      (isIn (some s.postingScope) wanted))
  found.foldl (fun cursors s ↦
    Function.update cursors s.postingScope s.reconciledThroughPostingSequence) (fun _ ↦ none)

def classifyPostingState (postingSequence cursor : Option ℤ) : TransactionStatus :=
  match postingSequence, cursor with
  | some n, some c => if n ≤ c then .posted else .pending
  | _, _ => .pending

def LedgerTables.projectPostingStates (rows : List LedgerRow) : List TransactionStatus :=
  let cursors := T.resolveReconciliationCursors (rows.map postingScopeOf)
  rows.map (fun row ↦ classifyPostingState row.postingSequence ((postingScopeOf row).bind cursors))

end Classification

section Balances

variable (T : LedgerTables) (seatId : ℕ) (classId : String) (accountType : String)

def requireBalanceScope : Except Raise Unit := do
  require (classId ≠ "" ∧ seatId ≠ 0)
    (.valueError "FATAL: Balance lookup requires class_id and seat_id.")
  require (accountType ≠ "") (.valueError "FATAL: Balance lookup requires account_type.")
  require (accountType = "checking" ∨ accountType = "savings")
    (.valueError ("FATAL: Unsupported account_type: " ++ accountType ++ "."))

def LedgerTables.snapshot : Option SnapshotRow :=
  T.snapshots.find? (fun s ↦ s.seatId = seatId ∧ s.classId = classId ∧
    s.accountType.value = accountType)

/-- The sum over the rows of one account in one state, null where there are none. -/
def LedgerTables.sumAmounts (status : TransactionStatus) : Option ℤ :=
  Lib.Sql.sum ((T.rows.filter (fun row ↦
    holds (and (and (eq (some row.seatId) (some seatId)) (eq row.classId (some classId)))
      (eq row.accountType (some accountType))) ∧
    T.postingStateExpression row = status)).map (·.amountCents))

def quantizedCents (cents : ℤ) : ℤ := (quantizeCurrency (some (.ofCents cents))).value

def LedgerTables.getPostedBalance : Except Raise ℤ := do
  requireBalanceScope seatId classId accountType
  match T.snapshot seatId classId accountType with
  | some cache => return quantizedCents cache.postedBalanceCents
  | none => return quantizedCents ((T.sumAmounts seatId classId accountType .posted).getD 0)

def LedgerTables.getPendingBalanceDelta : ℤ :=
  quantizedCents ((T.sumAmounts seatId classId accountType .pending).getD 0)

def LedgerTables.availableBalanceExpression : ℤ :=
  let snapshotCents := (T.snapshot seatId classId accountType).map (·.postedBalanceCents)
  let postedSum := (T.sumAmounts seatId classId accountType .posted).getD 0
  let pendingSum := (T.sumAmounts seatId classId accountType .pending).getD 0
  snapshotCents.getD postedSum + pendingSum

def LedgerTables.getAvailableBalance : Except Raise ℤ := do
  requireBalanceScope seatId classId accountType
  return quantizedCents (T.availableBalanceExpression seatId classId accountType)

def LedgerTables.getAvailableBalances : Except Raise (ℤ × ℤ) := do
  requireBalanceScope seatId classId "checking"
  return (quantizedCents (T.availableBalanceExpression seatId classId "checking"),
    quantizedCents (T.availableBalanceExpression seatId classId "savings"))

end Balances

section Batch

variable (T : LedgerTables) (pairs : List (String × ℕ))

structure BatchEntry where
  checkingCents : ℤ
  savingsCents : ℤ
deriving DecidableEq, Repr

structure BatchRecord where
  classId : Option String
  seatId : ℕ
  accountType : Option String
  postedCents : ℤ
  pendingCents : ℤ

def normalizedPairs : List (String × ℕ) := (pairs.filter (fun p ↦ p.1 ≠ "" ∧ p.2 ≠ 0)).dedup

abbrev PendingGroup := (Option String × ℕ × Option String) × ℤ

def LedgerTables.pendingSums : List PendingGroup :=
  let wanted := normalizedPairs pairs
  groupSums (fun row : LedgerRow ↦ (row.classId, row.seatId, row.accountType)) (·.amountCents)
    (T.rows.filter (fun row ↦
      holds (and (and (isIn row.classId (wanted.map (·.1))) (isIn (some row.seatId) (wanted.map (·.2))))
        (isIn (row.classId.map (fun c ↦ (c, row.seatId))) wanted)) ∧
      T.postingStateExpression row = .pending))

def SnapshotRow.matchesGroup (s : SnapshotRow) (g : PendingGroup) : Truth :=
  and (and (eq (some s.classId) g.1.1) (eq (some s.seatId) (some g.1.2.1)))
    (eq (some s.accountType.value) g.1.2.2)

def LedgerTables.withSnapshot : List BatchRecord :=
  let wanted := normalizedPairs pairs
  ((leftJoin SnapshotRow.matchesGroup T.snapshots (T.pendingSums pairs)).filter (fun r ↦
    holds (and (and (isIn (some r.1.classId) (wanted.map (·.1)))
      (isIn (some r.1.seatId) (wanted.map (·.2)))) (isIn (some (r.1.classId, r.1.seatId)) wanted)))).map
    (fun r ↦ {
      classId := some r.1.classId
      seatId := r.1.seatId
      accountType := some r.1.accountType.value
      postedCents := r.1.postedBalanceCents
      pendingCents := (r.2.map (·.2)).getD 0 })

def LedgerTables.pendingOnly : List BatchRecord :=
  ((T.pendingSums pairs).filter (fun g ↦
    ¬ T.snapshots.any (fun s ↦ holds (s.matchesGroup g)))).map (fun g ↦ {
      classId := g.1.1
      seatId := g.1.2.1
      accountType := g.1.2.2
      postedCents := 0
      pendingCents := g.2 })

/-- One record put into the dictionary. Other accounts than the two are passed over. -/
def BatchRecord.assign (r : BatchRecord) (balances : String × ℕ → BatchEntry) :
    String × ℕ → BatchEntry :=
  let key := (r.classId.getD "None", r.seatId)
  let totalCents := r.postedCents + r.pendingCents
  if r.accountType = some "checking" then
    Function.update balances key { balances key with checkingCents := totalCents }
  else if r.accountType = some "savings" then
    Function.update balances key { balances key with savingsCents := totalCents }
  else balances

def LedgerTables.getBatchBalancesByClassSeat : String × ℕ → BatchEntry :=
  if normalizedPairs pairs = [] then fun _ ↦ ⟨0, 0⟩
  else (T.withSnapshot pairs ++ T.pendingOnly pairs).foldl (fun balances r ↦ r.assign balances)
    (fun _ ↦ ⟨0, 0⟩)

end Batch

end TokenHub.Ledger
