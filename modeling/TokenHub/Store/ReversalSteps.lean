import TokenHub.Store.PurchaseSteps
import TokenHub.Ledger.ReversalSteps

set_option autoImplicit false

namespace TokenHub.Store

open Ledger Attendance Lib.Checks Relation
open Rent (Instant AcquisitionType EntitlementEventType)

variable {eventIds : ℕ → ℕ} {sha256 : String → String} {S S' : StoreState} {t : Transaction}
  {grants : List EntitlementEvent} {now : Instant}

section Eligibility

/-- What a reversal has found out about the purchase and its units. -/
structure Eligible (S : StoreState) (t : Transaction) (grants : List EntitlementEvent) : Prop where
  type : t.type = some .purchase
  notReversed : getExactReversal S.ledger t = none
  correlated : t.correlationId ≠ ""
  grants_eq : grants = (S.purchaseGrants t.classId t.seatId t.correlationId).insertionSort
    (fun a b ↦ a.timestamp ≤ b.timestamp)
  nonempty : grants ≠ []
  reversible : ∀ g ∈ grants, g.entitlementType.isReversible = true
  notWaiting : ∀ g ∈ grants, S.hasPendingAction t.classId g.entitlementId = false
  notEnded : ∀ g ∈ grants, S.ended t.classId g.entitlementId = false

theorem resolvePurchaseEligibility_ok {obligationRelated : Bool}
    (h : resolvePurchaseEligibility S obligationRelated t = .ok grants) : Eligible S t grants := by
  simp only [resolvePurchaseEligibility, require_bind_eq_ok, pure_eq_ok] at h
  obtain ⟨htype, hnone, -, hcorr, hne, -, hkinds, -, hwaiting, hopen, rfl⟩ := h
  refine ⟨htype, hnone, hcorr, rfl, hne, hkinds, fun g hg ↦ ?_, hopen⟩
  rw [List.filter_eq_nil_iff] at hwaiting
  simpa using hwaiting g hg

theorem lockAndResolveEligibility_ok {refuse : String → Raise} {obligationRelated : Bool}
    (h : lockAndResolveEligibility S refuse obligationRelated t = .ok grants) :
    Eligible S t grants := by
  unfold lockAndResolveEligibility at h
  split_ifs at h
  · rw [unit_bind_eq_ok] at h
    exact resolvePurchaseEligibility_ok (mapError_eq_ok.1 h.2)
  · exact resolvePurchaseEligibility_ok (mapError_eq_ok.1 h)

theorem Eligible.mem (h : Eligible S t grants) {g : EntitlementEvent} (hg : g ∈ grants) :
    g ∈ S.grantedRows ∧ g.classId = t.classId ∧ g.targetSeatId = t.seatId ∧
      g.correlationId = some t.correlationId ∧ g.acquisitionType = .purchase := by
  rw [h.grants_eq, List.mem_insertionSort, EntitlementTables.purchaseGrants, List.mem_filter,
    decide_eq_true_eq] at hg
  obtain ⟨hmem, hclass, hseat, hcorr, htype, hacquired⟩ := hg
  exact ⟨List.mem_filter.2 ⟨hmem, by simpa using htype⟩, hclass, hseat, hcorr, hacquired⟩

theorem Eligible.endable (h : Eligible S t grants) {g : EntitlementEvent} (hg : g ∈ grants)
    (actor : ℕ) (correlationId : Option String) :
    Endable S (g.ending actor correlationId) g where
  mem := (h.mem hg).1
  copies := .ending _ _
  notWaiting := fun _ ↦ by
    rw [(h.mem hg).2.1]
    exact h.notWaiting g hg

end Eligibility

section Commands

variable {feat : FeatContext} {actor : ℕ}

/-- The items go first, then the row that records it. -/
theorem revokeReversedPurchase_ok
    (h : revokeReversedPurchase eventIds sha256 S now feat t grants actor = .ok S') :
    ∃ S₁ rows L, endEach (fun S q ↦ revokeEntitlement eventIds S now q) S
        (grants.map (fun g ↦ g.ending actor g.correlationId)) = .ok S₁ ∧
      createPendingTransaction sha256 feat S₁.ledger (some (itemRemovalKey t.id)) none
        (itemRemovalEffect t actor) = .ok (rows, L) ∧ S' = { S₁ with ledger := L } := by
  simp only [revokeReversedPurchase, bind_eq_ok, Prod.exists, pure_eq_ok] at h
  obtain ⟨-, -, S₁, hend, rows, L, hrow, rfl⟩ := h
  exact ⟨S₁, rows, L, hend, hrow, rfl⟩

theorem revokeReversedPurchase_moves
    (hgrants : ∀ g ∈ grants, Endable S (g.ending actor g.correlationId) g)
    (h : revokeReversedPurchase eventIds sha256 S now feat t grants actor = .ok S') :
    Moves S S' := by
  obtain ⟨S₁, rows, L, hend, -, rfl⟩ := revokeReversedPurchase_ok h
  show Moves S S₁
  refine revokeEach_moves (fun q hq ↦ ?_) hend
  obtain ⟨g, hg, rfl⟩ := List.mem_map.1 hq
  exact ⟨g, hgrants g hg⟩

theorem voidPurchase_ok {obligationRelated : Bool}
    (h : voidPurchase eventIds sha256 S now feat obligationRelated t actor = .ok S') :
    ∃ grants, Eligible S t grants ∧
      revokeReversedPurchase eventIds sha256 S now feat t grants actor = .ok S' := by
  rw [voidPurchase, require_bind_eq_ok, bind_eq_ok] at h
  obtain ⟨-, grants, helig, h⟩ := h
  exact ⟨grants, lockAndResolveEligibility_ok helig, h⟩

/-- The row that a void names, the request with which it reverses it, and, for a purchase, the
units that it takes back first. -/
theorem executeVoidTransaction_ok {call : VoidCall} {row : Option Transaction}
    (h : executeVoidTransaction eventIds sha256 S now call = .ok (row, S')) :
    ∃ t, S.ledger.transactions.find? (·.id = call.transactionId) = some t ∧
      ∃ S₁ L q, reverseTransaction sha256 ⟨"FEAT-LED-002", call.correlationId, now⟩ S₁.ledger q =
          .ok (row, L) ∧
        S' = { S₁ with ledger := L } ∧ q.transaction = t ∧
        q.idempotencyKey = voidRefundKey t.id ∧ q.compensationType = "refund" ∧
        (t.type ≠ some .purchase ∧ S₁ = S ∨ ∃ grants, Eligible S t grants ∧
          revokeReversedPurchase eventIds sha256 S now ⟨"FEAT-LED-002", call.correlationId, now⟩ t
            grants call.actorSeatId = .ok S₁) := by
  simp only [executeVoidTransaction, demand_bind_eq_ok] at h
  obtain ⟨t, ht, h⟩ := h
  rw [require_bind_eq_ok, require_bind_eq_ok] at h
  obtain ⟨-, -, h⟩ := h
  by_cases hpurchase : t.type = some .purchase
  · rw [if_pos hpurchase] at h
    simp only [bind_eq_ok, Prod.exists, pure_eq_ok, Prod.mk.injEq] at h
    obtain ⟨S₁, hvoid, r, L, hrev, rfl, rfl⟩ := h
    obtain ⟨grants, helig, hrevoke⟩ := voidPurchase_ok hvoid
    exact ⟨t, ht, S₁, L, _, hrev, rfl, rfl, rfl, rfl, .inr ⟨grants, helig, hrevoke⟩⟩
  · rw [if_neg hpurchase] at h
    simp only [bind_eq_ok, Prod.exists, pure_eq_ok, Prod.mk.injEq] at h
    obtain ⟨S₁, rfl, r, L, hrev, rfl, rfl⟩ := h
    exact ⟨t, ht, S, L, _, hrev, rfl, rfl, rfl, rfl, .inl ⟨hpurchase, rfl⟩⟩

theorem executeVoidTransaction_moves {call : VoidCall} {row : Option Transaction}
    (h : executeVoidTransaction eventIds sha256 S now call = .ok (row, S')) : Moves S S' := by
  obtain ⟨t, -, S₁, L, q, -, rfl, -, -, -, ⟨-, rfl⟩ | ⟨grants, helig, hrevoke⟩⟩ :=
    executeVoidTransaction_ok h
  · exact .refl
  · show Moves S S₁
    exact revokeReversedPurchase_moves (fun g hg ↦ helig.endable hg _ _) hrevoke

/-- An issue reverses the purchase first; only a refund leaves its units. -/
theorem resolveIssue_ok {call : IssueCall} {row : Option Transaction}
    (h : resolveIssue eventIds sha256 S now call = .ok (row, S')) :
    ∃ t, S.ledger.transactions.find? (·.id = call.transactionId) = some t ∧
      ∃ grants, Eligible S t grants ∧ ∃ L q,
        reverseTransaction sha256 ⟨"FEAT-SUP-001", call.correlationId, now⟩ S.ledger q =
          .ok (row, L) ∧
        q.transaction = t ∧ q.idempotencyKey = issueKey call.action call.issueId t.id ∧
        q.compensationType = call.action.outcome ∧
        (call.action = .refundTransaction ∧ S' = { S with ledger := L } ∨
          call.action = .reverseTransaction ∧
            revokeReversedPurchase eventIds sha256 { S with ledger := L } now
              ⟨"FEAT-SUP-001", call.correlationId, now⟩ t grants call.ctx.seatId = .ok S') := by
  simp only [resolveIssue, demand_bind_eq_ok, Option.filter_eq_some_iff] at h
  obtain ⟨t, ⟨ht, -⟩, h⟩ := h
  simp only [bind_eq_ok, Prod.exists] at h
  obtain ⟨grants, helig, r, L, hrev, h⟩ := h
  have helig' := lockAndResolveEligibility_ok helig
  cases haction : call.action with
  | refundTransaction =>
    simp only [haction, pure_eq_ok, Prod.mk.injEq] at h hrev
    obtain ⟨rfl, rfl⟩ := h
    exact ⟨t, ht, grants, helig', L, _, hrev, rfl, rfl, rfl, .inl ⟨rfl, rfl⟩⟩
  | reverseTransaction =>
    simp only [haction, bind_eq_ok, pure_eq_ok, Prod.mk.injEq] at h hrev
    obtain ⟨S₁, hrevoke, rfl, rfl⟩ := h
    exact ⟨t, ht, grants, helig', L, _, hrev, rfl, rfl, rfl, .inr ⟨rfl, hrevoke⟩⟩

theorem resolveIssue_moves {call : IssueCall} {row : Option Transaction}
    (h : resolveIssue eventIds sha256 S now call = .ok (row, S')) : Moves S S' := by
  obtain ⟨t, -, grants, helig, L, q, -, -, -, -, ⟨-, rfl⟩ | ⟨-, hrevoke⟩⟩ := resolveIssue_ok h
  · exact .refl
  · refine revokeReversedPurchase_moves (S := { S with ledger := L }) (fun g hg ↦ ?_) hrevoke
    have hg' := helig.endable hg call.ctx.seatId g.correlationId
    exact ⟨hg'.mem, hg'.copies, hg'.notWaiting⟩

end Commands

end TokenHub.Store

namespace TokenHub.Store

open Ledger Attendance Lib.Checks Relation
open Rent (Instant AcquisitionType EntitlementEventType)

variable {eventIds : ℕ → ℕ} {sha256 : String → String} {S S' : StoreState}
  {grants : List EntitlementEvent} {now : Instant} {call : GoalExpiryCall}
  {result result' : GoalExpiryResult} {correlationId : String}

def buyIns (grants : List EntitlementEvent) (correlationId : String) : List EntitlementEvent :=
  grants.filter (fun g ↦ g.correlationId.getD "" = correlationId)

/-- The row that the expiry of a purchase's buy-ins refunds. -/
def coveringPurchase (S : StoreState) (grants : List EntitlementEvent) (correlationId : String) :
    Option Transaction :=
  (buyIns grants correlationId).head?.bind (findCoveringTransaction S)

section Covering

/-- No row covers a purchase later that did not cover it before, if only others are added. -/
theorem findCoveringTransaction_before {g : EntitlementEvent}
    (hadds : Adds (fun u ↦ u.type ≠ some .purchase) S.ledger S'.ledger)
    (h : (findCoveringTransaction S' g).isSome) : (findCoveringTransaction S g).isSome := by
  unfold findCoveringTransaction at h ⊢
  split at h
  · cases h
  · rw [List.find?_isSome] at h ⊢
    obtain ⟨t, ht, hcovers⟩ := h
    simp only [decide_eq_true_eq] at hcovers ⊢
    obtain ⟨hcorr, hclass, hseat, htype, hnone⟩ := hcovers
    refine ⟨t, (hadds.mem ht).resolve_right (fun hne ↦ hne htype), hcorr, hclass, hseat, htype, ?_⟩
    rw [getExactReversal, List.find?_eq_none] at hnone ⊢
    exact fun u hu ↦ hnone u (hadds.subset hu)

theorem coveringPurchase_before
    (hadds : Adds (fun u ↦ u.type ≠ some .purchase) S.ledger S'.ledger)
    (h : (coveringPurchase S' grants correlationId).isSome) :
    (coveringPurchase S grants correlationId).isSome := by
  unfold coveringPurchase at h ⊢
  cases hhead : (buyIns grants correlationId).head? with
  | none =>
    rw [hhead] at h
    cases h
  | some g =>
    rw [hhead] at h
    exact findCoveringTransaction_before hadds h

theorem isReversalRow.not_purchase {u : Transaction} (h : isReversalRow u) :
    u.type ≠ some .purchase := by
  rcases h with h | h | h <;> simp [h]

end Covering

section Expiry

def GoalExpiryCall.ending (call : GoalExpiryCall) (correlationId : String)
    (g : EntitlementEvent) : EndingRequest :=
  { g.ending call.actorSeatId (some correlationId) with classId := call.product.classId }

/-- A purchase of the goal is left for review, or it is refunded and then its buy-ins expire. -/
theorem expirePurchase_ok
    (h : expirePurchase eventIds sha256 now call (buyIns grants correlationId) S result
      correlationId = .ok (result', S')) :
    (coveringPurchase S grants correlationId = none ∧ S' = S ∧
        result'.unresolvedCorrelations ≠ []) ∨
      ∃ t row L q, coveringPurchase S grants correlationId = some t ∧
        reverseTransaction sha256 ⟨"FEAT-STOR-002", call.correlationId, now⟩ S.ledger q =
          .ok (row, L) ∧
        q.transaction = t ∧ q.compensationType = "refund" ∧
        q.idempotencyKey = "goal-expiry-refund:" ++ call.product.classId ++ ":" ++ correlationId ∧
        endEach (fun S q ↦ expireEntitlement eventIds S now q) { S with ledger := L }
          ((buyIns grants correlationId).map (call.ending correlationId)) = .ok S' ∧
        result'.unresolvedCorrelations = result.unresolvedCorrelations := by
  unfold expirePurchase at h
  split at h
  · next hnone =>
    cases h
    exact .inl ⟨hnone, rfl, by simp⟩
  · next t ht =>
    simp only [bind_eq_ok, Prod.exists, pure_eq_ok, Prod.mk.injEq] at h
    obtain ⟨row, L, hrev, S₁, hend, rfl, rfl⟩ := h
    exact .inr ⟨t, row, L, _, ht, hrev, rfl, rfl, rfl, hend, rfl⟩

theorem expirePurchase_frame
    (h : expirePurchase eventIds sha256 now call (buyIns grants correlationId) S result
      correlationId = .ok (result', S')) :
    Adds isReversalRow S.ledger S'.ledger ∧ S'.pendingActions = S.pendingActions ∧
      ∀ g ∈ S.grantedRows, g ∈ S'.grantedRows := by
  rcases expirePurchase_ok h with ⟨-, rfl, -⟩ | ⟨t, row, L, q, -, hrev, -, -, -, hend, -⟩
  · exact ⟨.refl _, rfl, fun g hg ↦ hg⟩
  · obtain ⟨hadded, -⟩ := expireEach_adds hend
    have hgranted := fun g (hg : g ∈ S.grantedRows) ↦ hadded.granted (g := g) hg
    obtain ⟨rows, rfl, -⟩ := hadded
    exact ⟨reverseTransaction_adds hrev, rfl, hgranted⟩

theorem expirePurchase_moves
    (hgrants : ∀ g ∈ grants, g ∈ S.grantedRows ∧ g.classId = call.product.classId)
    (hfree : (coveringPurchase S grants correlationId).isSome →
      ∀ g ∈ buyIns grants correlationId, S.hasPendingAction g.classId g.entitlementId = false)
    (h : expirePurchase eventIds sha256 now call (buyIns grants correlationId) S result
      correlationId = .ok (result', S')) : Moves S S' := by
  rcases expirePurchase_ok h with ⟨-, rfl, -⟩ | ⟨t, row, L, q, ht, -, -, -, -, hend, -⟩
  · exact .refl
  · refine expireEach_moves (S := { S with ledger := L }) (fun q hq ↦ ?_) hend
    obtain ⟨g, hg, rfl⟩ := List.mem_map.1 hq
    obtain ⟨hmem, hclass⟩ := hgrants g (List.mem_filter.1 hg).1
    exact ⟨g, hmem, ⟨rfl, hclass.symm, rfl, rfl, rfl, rfl⟩,
      fun _ ↦ hfree (by rw [ht]; rfl) g hg⟩

theorem expirePurchases_moves {correlations : List String}
    (hgrants : ∀ g ∈ grants, g ∈ S.grantedRows ∧ g.classId = call.product.classId)
    (hfree : ∀ c, (coveringPurchase S grants c).isSome → ∀ g ∈ buyIns grants c,
      S.hasPendingAction g.classId g.entitlementId = false)
    (h : expirePurchases eventIds sha256 now call grants S result correlations =
      .ok (result', S')) : Moves S S' := by
  induction correlations generalizing S result with
  | nil =>
    rw [expirePurchases, pure_eq_ok, Prod.mk.injEq] at h
    rw [h.2]
  | cons c correlations ih =>
    rw [expirePurchases, bind_eq_ok, Prod.exists] at h
    obtain ⟨result₁, S₁, hone, h⟩ := h
    obtain ⟨hadds, hpending, hgranted⟩ := expirePurchase_frame hone
    refine (expirePurchase_moves hgrants (hfree c) hone).trans (ih (fun g hg ↦ ?_) ?_ h)
    · exact ⟨hgranted g (hgrants g hg).1, (hgrants g hg).2⟩
    · intro c' hcovered g hg
      rw [EntitlementTables.hasPendingAction, hpending]
      exact hfree c' (coveringPurchase_before (hadds.mono (fun u ↦ isReversalRow.not_purchase))
        hcovered) g hg

theorem openGoalEntitlements_mem {classId lineage : String} {g : EntitlementEvent}
    (h : g ∈ openGoalEntitlements S classId lineage) :
    g ∈ S.grantedRows ∧ g.classId = classId ∧ g.productId = some lineage ∧
      g.acquisitionType = .purchase := by
  obtain ⟨hmem, -⟩ := List.mem_filter.1 h
  rw [List.mem_insertionSort, EntitlementTables.purchaseRows, List.mem_filter,
    decide_eq_true_eq] at hmem
  obtain ⟨hrow, hclass, hproduct, htype, hacquired⟩ := hmem
  exact ⟨List.mem_filter.2 ⟨hrow, by simpa using htype⟩, hclass, hproduct, hacquired⟩

theorem expireLapsedCollectiveGoal_ok
    (h : expireLapsedCollectiveGoal eventIds sha256 S now call = .ok (result, S')) :
    ∃ S₁, expirePurchases eventIds sha256 now call
        (openGoalEntitlements S call.product.classId call.product.productLineageUuid) S ⟨0, 0, []⟩
        ((openGoalEntitlements S call.product.classId call.product.productLineageUuid).map
          (·.correlationId.getD "")).eraseDups = .ok (result, S₁) ∧
      S' = if result.unresolvedCorrelations = [] then S₁.retire call.product.policyUuid else S₁ := by
  simp only [expireLapsedCollectiveGoal, bind_eq_ok, Prod.exists, pure_eq_ok, Prod.mk.injEq] at h
  obtain ⟨result', S₁, hexpired, rfl, rfl⟩ := h
  exact ⟨S₁, hexpired, rfl⟩

/-- No buy-in whose purchase would be refunded has a request waiting. -/
def NoneWaiting (S : StoreState) (call : GoalExpiryCall) : Prop :=
  let grants := openGoalEntitlements S call.product.classId call.product.productLineageUuid
  ∀ g ∈ grants, (coveringPurchase S grants (g.correlationId.getD "")).isSome →
    S.hasPendingAction g.classId g.entitlementId = false

instance (S : StoreState) (call : GoalExpiryCall) : Decidable (NoneWaiting S call) := by
  unfold NoneWaiting; infer_instance

theorem expireLapsedCollectiveGoal_moves (hfree : NoneWaiting S call)
    (h : expireLapsedCollectiveGoal eventIds sha256 S now call = .ok (result, S')) :
    Moves S S' := by
  obtain ⟨S₁, hexpired, rfl⟩ := expireLapsedCollectiveGoal_ok h
  have hmoves : Moves S S₁ := by
    refine expirePurchases_moves (fun g hg ↦ ?_) (fun c hcovered g hg ↦ ?_) hexpired
    · obtain ⟨hmem, hclass, -⟩ := openGoalEntitlements_mem hg
      exact ⟨hmem, hclass⟩
    · obtain ⟨hmem, hcorr⟩ := List.mem_filter.1 hg
      rw [decide_eq_true_eq] at hcorr
      exact hfree g hmem (by rw [hcorr]; exact hcovered)
  split_ifs
  · exact hmoves
  · exact hmoves

end Expiry

end TokenHub.Store
