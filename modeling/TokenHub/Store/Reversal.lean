import TokenHub.Store.Purchase

set_option autoImplicit false

namespace TokenHub.Store

open Ledger Attendance Lib.Checks Lib.Decimals Lib.Digits
open Rent (Instant AcquisitionType EntitlementEventType)

section Eligibility

variable (S : StoreState)

/-- `_REVERSIBLE_ENTITLEMENT_TYPES`. -/
def EntitlementType.isReversible (type : EntitlementType) : Bool :=
  decide (type = .delayedUse ∨ type = .collectiveGoal ∨ type = .hallPass)

/-- `resolve_purchase_resolution_eligibility`: the grants that a reversal may end, or the reason
why there may be none. -/
def resolvePurchaseEligibility (obligationRelated : Bool) (t : Transaction) :
    Except String (List EntitlementEvent) := do
  require (t.type = some .purchase)
    "Only a Store purchase can be reversed or refunded from an issue."
  require (getExactReversal S.ledger t = none) "This transaction has already been reversed."
  require (obligationRelated = false)
    "An obligation-related transaction cannot be reversed or refunded."
  require (t.correlationId ≠ "") "This purchase has no traceable item grant."
  let grants := (S.purchaseGrants t.classId t.seatId t.correlationId).insertionSort
    (fun a b ↦ a.timestamp ≤ b.timestamp)
  require (grants ≠ []) "This purchase has no traceable item grant."
  require (∀ g ∈ grants, g.entitlementType ≠ .insurance)
    "Insurance coverage cannot be reversed or refunded."
  require (∀ g ∈ grants, g.entitlementType.isReversible = true)
    "This kind of item cannot be reversed or refunded. Use a manual credit instead."
  let waiting := grants.filter (fun g ↦ S.hasPendingAction t.classId g.entitlementId)
  require (∀ g ∈ waiting, g.entitlementType ≠ .hallPass)
    ("A hall-pass request for this pass is still waiting. Reject it on the Hall " ++
      "Passes page first; approving it would use the pass.")
  require (waiting = [])
    ("A redemption request for this item is still waiting. Return it first; accepting " ++
      "or denying it would use or remove the item.")
  require (∀ g ∈ grants, S.ended t.classId g.entitlementId = false)
    ("A used, expired or removed item cannot be reversed or refunded. Use a manual credit " ++
      "instead.")
  return grants

/-- `lock_and_resolve_purchase_eligibility`, where `refuse` raises the reason. -/
def lockAndResolveEligibility (refuse : String → Raise) (obligationRelated : Bool)
    (t : Transaction) : Except Raise (List EntitlementEvent) := do
  if t.seatId ≠ 0 ∧ t.classId ≠ "" then lockHallPassHolder S t.seatId t.classId
  (resolvePurchaseEligibility S obligationRelated t).mapError refuse

end Eligibility

section Keys

def voidRefundKey (id : ℕ) : String :=
  "txn:void:transaction:" ++ String.ofList (natText id) ++ ":refund"

def itemRemovalKey (id : ℕ) : String :=
  "txn:void:purchase:" ++ String.ofList (natText id) ++ ":item-removal"

inductive IssueAction
  | reverseTransaction
  | refundTransaction
deriving DecidableEq, Repr

def IssueAction.keyPart : IssueAction → String
  | .reverseTransaction => "reverse-transaction"
  | .refundTransaction => "refund-transaction"

def IssueAction.outcome : IssueAction → String
  | .reverseTransaction => "issue_reversal"
  | .refundTransaction => "issue_refund"

def issueKey (action : IssueAction) (issueId id : ℕ) : String :=
  "txn:issue:" ++ action.keyPart ++ ":" ++ String.ofList (natText issueId) ++ ":" ++
    String.ofList (natText id)

end Keys

section Commands

variable (eventIds : ℕ → ℕ) (sha256 : String → String) (S : StoreState) (now : Instant)

def itemRemovalEffect (t : Transaction) (actorSeatId : ℕ) : Effect where
  seatId := t.seatId
  classId := t.classId
  targetSeatId := t.seatId
  actorSeatId := actorSeatId
  mechanism := t.mechanism.value
  amount := some (.ofCents 0)
  accountType := t.accountType.value
  type := some "void_item_removed"

def revokeReversedPurchase (feat : FeatContext) (t : Transaction)
    (grants : List EntitlementEvent) (actorSeatId : ℕ) : Except Raise StoreState := do
  let _ ← demand (grants.head?.bind (fun g ↦ S.newestVersion t.classId (g.productId.getD "")))
    (.valueError "Purchase item record was not found. This transaction cannot be voided.")
  let S' ← endEach (fun S q ↦ revokeEntitlement eventIds S now q) S
    (grants.map (fun g ↦ g.ending actorSeatId g.correlationId))
  let (_, L) ← createPendingTransaction sha256 feat S'.ledger (some (itemRemovalKey t.id)) none
    (itemRemovalEffect t actorSeatId)
  return { S' with ledger := L }

def voidPurchase (feat : FeatContext) (obligationRelated : Bool) (t : Transaction)
    (actorSeatId : ℕ) : Except Raise StoreState := do
  require (t.classId ≠ "") (.valueError
    "Transaction is missing class scope (class_id) and cannot be voided safely.")
  let grants ← lockAndResolveEligibility S (.domainError "PurchaseNotReversible")
    obligationRelated t
  revokeReversedPurchase eventIds sha256 S now feat t grants actorSeatId

/-- The arguments of `execute_void_transaction`, with what it looks up for a credit. -/
structure VoidCall where
  transactionId : ℕ
  correlationId : String
  actorSeatId : ℕ
  obligationRelated : Bool
  bankingDirective : BankingDirective
  creationEvidence : CreationEvidence

def executeVoidTransaction (call : VoidCall) : Except Raise (Option Transaction × StoreState) := do
  let t ← demand (S.ledger.transactions.find? (·.id = call.transactionId))
    (.domainError "NotFound" "")
  let feat : FeatContext := ⟨"FEAT-LED-002", call.correlationId, now⟩
  require (t.type ≠ some .legacyReversal ∧ t.type ≠ some .voidItemRemoved)
    (.domainError "TransactionNotReversible"
      "This entry is part of a reversal and can't be reversed.")
  require (call.obligationRelated = false)
    (.domainError "ObligationTransactionNotVoidable" "")
  let S' ← if t.type = some .purchase then
      voidPurchase eventIds sha256 S now feat call.obligationRelated t call.actorSeatId
    else pure S
  let (row, L) ← reverseTransaction sha256 feat S'.ledger {
    transaction := t
    idempotencyKey := voidRefundKey t.id
    actorSeatId := some call.actorSeatId
    bankingDirective := if 0 < t.amountCents then some call.bankingDirective else none
    creationEvidence := call.creationEvidence }
  return (row, { S' with ledger := L })

/-- The arguments of the reversing branch of `resolve_issue`. -/
structure IssueCall where
  ctx : ClassContext
  correlationId : String
  issueId : ℕ
  transactionId : ℕ
  submitterSeatId : Option ℕ
  action : IssueAction
  obligationRelated : Bool

def resolveIssue (call : IssueCall) : Except Raise (Option Transaction × StoreState) := do
  let t ← demand ((S.ledger.transactions.find? (·.id = call.transactionId)).filter
      (fun t ↦ t.classId = call.ctx.classId ∧ call.submitterSeatId = some t.seatId))
    (.domainError "Refused" "The related transaction could not be resolved for this issue.")
  let feat : FeatContext := ⟨"FEAT-SUP-001", call.correlationId, now⟩
  let grants ← lockAndResolveEligibility S (.domainError "Refused") call.obligationRelated t
  let (row, L) ← reverseTransaction sha256 feat S.ledger {
    transaction := t
    compensationType := call.action.outcome
    idempotencyKey := issueKey call.action call.issueId t.id
    actorSeatId := some call.ctx.seatId
    creationEvidence := ⟨[], fun _ ↦ false⟩ }
  match call.action with
  | .refundTransaction => return (row, { S with ledger := L })
  | .reverseTransaction =>
    let S' ← revokeReversedPurchase eventIds sha256 { S with ledger := L } now feat t grants
      call.ctx.seatId
    return (row, S')

end Commands

end TokenHub.Store

namespace TokenHub.Store

open Ledger Attendance Lib.Checks
open Rent (Instant AcquisitionType EntitlementEventType)

section Progress

variable (S : StoreState) (classId : String)

def countClassSize : ℕ :=
  ((S.seats.filter (fun s ↦ s.classId = classId ∧ s.claimedAt.isSome ∧
    s.role = "student")).map (·.id)).dedup.length

/-- Whether an event withdraws the buy-in of a lineage. A redemption does not. -/
def EntitlementTables.isWithdrawn (T : EntitlementTables) (classId : String)
    (entitlementId : ℕ) : Bool :=
  T.entitlementEvents.any (fun e ↦ e.classId = classId ∧ e.entitlementId = entitlementId ∧
    (e.eventType = .expired ∨ e.eventType = .revoked))

def countGoalParticipants (lineage : String) : ℕ :=
  (((S.purchaseRows classId lineage .granted).filter (fun g ↦
    ¬ S.isWithdrawn classId g.entitlementId)).map (·.targetSeatId)).dedup.length

def resolveGoalTarget (item : StoreProduct) (classSize : ℕ) : ℤ :=
  if item.collectiveGoalType = some .wholeClass then classSize
  else item.collectiveGoalTarget.getD 0

def isGoalMet (participantCount : ℕ) (target : ℤ) : Bool :=
  decide (0 < target ∧ target ≤ participantCount)

def StoreState.goalMet (product : StoreProduct) : Bool :=
  isGoalMet (countGoalParticipants S product.classId product.productLineageUuid)
    (resolveGoalTarget product (countClassSize S product.classId))

end Progress

section Expiry

variable (eventIds : ℕ → ℕ) (sha256 : String → String) (S : StoreState) (now : Instant)

def openGoalEntitlements (classId lineage : String) : List EntitlementEvent :=
  ((S.purchaseRows classId lineage .granted).insertionSort EntitlementEvent.Sooner).filter
    (fun g ↦ (S.terminalEvent classId g.entitlementId).isNone)

def findCoveringTransaction (grant : EntitlementEvent) : Option Transaction :=
  match grant.correlationId.filter (· ≠ "") with
  | none => none
  | some correlationId => S.ledger.transactions.find? (fun t ↦
      t.correlationId = correlationId ∧ t.classId = grant.classId ∧
      t.seatId = grant.targetSeatId ∧ t.type = some .purchase ∧
      getExactReversal S.ledger t = none)

structure GoalExpiryResult where
  entitlementsExpired : ℕ
  purchasesRefunded : ℕ
  unresolvedCorrelations : List String
deriving DecidableEq, Repr

structure GoalExpiryCall where
  product : StoreProduct
  actorSeatId : ℕ
  correlationId : String
  bankingDirective : BankingDirective
  creationEvidence : CreationEvidence

/-- One purchase of the goal: refunded and expired, or left for review. -/
def expirePurchase (call : GoalExpiryCall) (grants : List EntitlementEvent) (S : StoreState)
    (result : GoalExpiryResult) (correlationId : String) :
    Except Raise (GoalExpiryResult × StoreState) :=
  match grants.head?.bind (findCoveringTransaction S) with
  | none => .ok ({ result with unresolvedCorrelations := result.unresolvedCorrelations ++
      [if correlationId = "" then "<missing>" else correlationId] }, S)
  | some t => do
    let (_, L) ← reverseTransaction sha256 ⟨"FEAT-STOR-002", call.correlationId, now⟩ S.ledger {
      transaction := t
      idempotencyKey := "goal-expiry-refund:" ++ call.product.classId ++ ":" ++ correlationId
      actorSeatId := some call.actorSeatId
      bankingDirective := if 0 < t.amountCents then some call.bankingDirective else none
      creationEvidence := call.creationEvidence
      mechanism := "system" }
    let S' ← endEach (fun S q ↦ expireEntitlement eventIds S now q) { S with ledger := L }
      (grants.map (fun g ↦ { g.ending call.actorSeatId (some correlationId) with
        classId := call.product.classId }))
    return ({ result with
      entitlementsExpired := result.entitlementsExpired + grants.length
      purchasesRefunded := result.purchasesRefunded + 1 }, S')

def expirePurchases (call : GoalExpiryCall) (grants : List EntitlementEvent) :
    StoreState → GoalExpiryResult → List String → Except Raise (GoalExpiryResult × StoreState)
  | S, result, [] => return (result, S)
  | S, result, correlationId :: rest => do
    let (result', S') ← expirePurchase eventIds sha256 now call
      (grants.filter (fun g ↦ g.correlationId.getD "" = correlationId)) S result correlationId
    expirePurchases call grants S' result' rest

def StoreState.retire (policyUuid : String) : StoreState :=
  { S with storeProducts := S.storeProducts.map (fun p ↦
      if p.policyUuid = policyUuid then { p with availabilityState := .retired } else p) }

/-- `expire_lapsed_collective_goal`: one refund for each purchase, in the order of the first
grants. -/
def expireLapsedCollectiveGoal (call : GoalExpiryCall) :
    Except Raise (GoalExpiryResult × StoreState) := do
  let grants := openGoalEntitlements S call.product.classId call.product.productLineageUuid
  let (result, S') ← expirePurchases eventIds sha256 now call grants S ⟨0, 0, []⟩
    (grants.map (·.correlationId.getD "")).eraseDups
  return (result, if result.unresolvedCorrelations = [] then S'.retire call.product.policyUuid
    else S')

/-- The order of `order_by(class_id.asc(), product_lineage_uuid.asc())`. -/
def StoreProduct.SweptBefore (a b : StoreProduct) : Prop :=
  a.classId < b.classId ∨ a.classId = b.classId ∧ a.productLineageUuid ≤ b.productLineageUuid

instance : DecidableRel StoreProduct.SweptBefore := fun a b ↦ by
  unfold StoreProduct.SweptBefore; infer_instance

def StoreProduct.hasLapsed (p : StoreProduct) (now : Instant) : Bool :=
  decide (p.itemType = .collective ∧ p.availabilityState = .inUse) &&
    p.collectiveGoalExpiresAt.any (fun deadline ↦ ¬ now < deadline)

def lapsedGoals : List StoreProduct :=
  (S.storeProducts.filter (·.hasLapsed now)).insertionSort StoreProduct.SweptBefore

structure SweepInputs where
  teacherSeat : String → Option ℕ
  correlationId : String
  bankingDirective : BankingDirective
  creationEvidence : CreationEvidence

def sweepGoal (inputs : SweepInputs) (S : StoreState) (product : StoreProduct) :
    Except Raise (GoalExpiryResult × StoreState) := do
  if S.goalMet product then return (⟨0, 0, []⟩, S)
  else
    let actor ← demand (inputs.teacherSeat product.classId) (.valueError
      ("FATAL: Expected exactly one canonical teacher seat for class_id=" ++ product.classId))
    expireLapsedCollectiveGoal eventIds sha256 S now
      ⟨product, actor, inputs.correlationId, inputs.bankingDirective, inputs.creationEvidence⟩

/-- `run_collective_goal_expiry_job`: a goal that fails is rolled back alone. -/
def runCollectiveGoalExpiryJob (inputs : SweepInputs) : StoreState :=
  (lapsedGoals S now).foldl
    (fun S product ↦ committed S (sweepGoal eventIds sha256 now inputs S product)) S

end Expiry

end TokenHub.Store
