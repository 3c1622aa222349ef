import TokenHub.Store.PurchaseSteps
import TokenHub.Ledger.ChargeReplay

set_option autoImplicit false

namespace TokenHub.Store

open Ledger Attendance Lib.Checks
open Rent (Instant AcquisitionType EntitlementEventType)

variable {eventIds : ℕ → ℕ} {sha256 : String → String} {S S' : StoreState} {m : PurchaseMoment}
  {call : PurchaseCall} {config : StorePolicyConfig}

def StoreState.quotedDebit (S : StoreState) (now : Instant) (call : PurchaseCall) : Option ℤ :=
  (S.resolveStoreItem now call.policyUuid).bind (fun config ↦ config.price.bind (fun price ↦
    (config.calculateDebit price call.quantity).toOption.map (·.1)))

def PurchaseCall.identity (call : PurchaseCall) : CommandIdentity :=
  ⟨call.ctx.classId, "FEAT-STOR-001", ledgerIdempotencyKey call⟩

section Funding

structure Funded (sha256 : String → String) (S : StoreState) (m : PurchaseMoment)
    (call : PurchaseCall) (debit : ℤ) (resolved : ResolvedLedgerPlan)
    (transfers : List Transaction) (row : Transaction) (r : LedgerCommandReservation)
    (L : LedgerState) : Prop where
  posted : ChargePosted sha256 (storePurchaseFeat call m.now) S.ledger resolved
    (ledgerIdempotencyKey call) transfers row r L
  resolvedOn : ResolvedOn S.ledger (purchasePlan call debit) m.bankingDirective.protectionEnabled
    resolved
  positive : 0 < debit
  covered : 0 ≤ resolved.checkingAfter
  correlationId : row.correlationId = call.correlationId

theorem fundPurchase_ok (hs : LedgerSound sha256 S.ledger) {debit : ℤ} {L : LedgerState}
    (hnew : S.ledger.reservations.find? (·.identity = call.identity) = none)
    (hne : debit ≠ 0) (hsmall : |debit| < 10 ^ 28)
    (h : fundPurchase sha256 S m call debit = .ok L) :
    ∃ resolved transfers row r, Funded sha256 S m call debit resolved transfers row r L := by
  simp only [fundPurchase, bind_eq_ok, raising_eq_ok, Prod.exists] at h
  obtain ⟨intended, hbuild, resolved, hresolve, u, hfunds, applied, L₁, happly, h⟩ := h
  rw [require_eq_ok] at hfunds
  rw [pure_eq_ok] at h
  subst h
  have hintended : intended = purchasePlan call debit ∧ 0 ≤ debit := by
    simp only [buildIntendedLedgerPlan, require_bind_eq_ok, pure_eq_ok, purchasePlan,
      quantizeCurrency_ofCents hsmall] at hbuild
    exact ⟨hbuild.2.symm, hbuild.1⟩
  obtain ⟨rfl, hnonneg⟩ := hintended
  have hpos : 0 < debit := by omega
  have hon := resolveIntendedLedgerPlan_ok hs.balance rfl hresolve
  have hplan := hon.plan_eq
  obtain ⟨transfers, row, r, hposted, hcreated, hprincipal⟩ := applyResolvedLedgerPlan_posts hs
    (by rw [hplan]; exact hnew) (by rw [hplan]; exact hne) (by rw [hplan]; rfl) happly
  refine ⟨resolved, transfers, row, r, hposted, hon, hpos, by omega, ?_⟩
  -- the debit states no correlation, so its row takes that of the command
  rcases applyResolvedLedgerPlan_ok happly with ⟨-, hnone, -⟩ | ⟨created, hsome, hc⟩
  · rw [hcreated] at hnone
    cases hnone
  · rw [hcreated, Option.some.injEq] at hsome
    subst hsome
    have hrows : applied.effects = transfers ++ [row] := by
      rcases createReservedEffects_ok hc with ⟨habsurd, -⟩ | ⟨-, -, f, -, hi, -⟩
      · cases habsurd
      · have htx := hposted.transactions
        rw [hi.state] at htx
        exact List.append_cancel_left htx
    have hcorr := createReservedEffects_correlationId hc
    rw [hrows, planEffects, if_neg (by rw [hplan]; exact hne)] at hcorr
    obtain ⟨cs, ds, hsplit, hlegs, hlast⟩ := forall₂_append_inv hcorr
    obtain _ | ⟨hlast, hnil⟩ := hlast
    cases hnil
    obtain ⟨-, hrow⟩ := List.append_inj' hsplit rfl
    rw [List.singleton_inj] at hrow
    rw [hrow, hlast, Effect.correlationUnder, principalEffect, hplan]
    rfl

variable {debit : ℤ} {resolved : ResolvedLedgerPlan} {transfers : List Transaction}
  {row : Transaction} {r : LedgerCommandReservation} {L : LedgerState}

theorem Funded.balances (h : Funded sha256 S m call debit resolved transfers row r L)
    (hs : LedgerSound sha256 S.ledger) (hsmall : |debit| < 10 ^ 28) :
    let checking : Scope := ⟨call.ctx.classId, call.ctx.seatId, .checking⟩
    let savings : Scope := ⟨call.ctx.classId, call.ctx.seatId, .savings⟩
    getAvailableBalance L checking = getAvailableBalance S.ledger checking +
        resolved.recoveryTransferAmount - debit ∧
      getAvailableBalance L savings = getAvailableBalance S.ledger savings -
        resolved.recoveryTransferAmount ∧
      0 ≤ getAvailableBalance L checking ∧
      (resolved.recoveryTransferAmount ≠ 0 → m.bankingDirective.protectionEnabled = true) := by
  have hplan := h.resolvedOn.plan_eq
  have htransfer := h.resolvedOn.abs_transfer_lt hs.balance
  obtain ⟨hchecking, hsavings⟩ := h.posted.scopeCents_eq (by rw [hplan]; rfl)
    (by rw [hplan]; exact hsmall) htransfer
  rw [hplan] at hchecking hsavings
  have hafter := h.resolvedOn.checkingAfter
  have hcovered := h.covered
  simp only [purchasePlan] at hchecking hsavings hafter
  simp only [h.posted.grows.sound.balance.getAvailableBalance, hs.balance.getAvailableBalance]
  refine ⟨hchecking, hsavings, by omega, fun hmoved ↦ ?_⟩
  by_contra hoff
  apply hmoved
  rw [h.resolvedOn.transfer, protectionTransfer]
  exact if_neg (fun hmove ↦ hoff hmove.2.1)

theorem Funded.purchases (h : Funded sha256 S m call debit resolved transfers row r L)
    (hsmall : |debit| < 10 ^ 28) :
    L.transactions.filter (·.type = some .purchase) =
        S.ledger.transactions.filter (·.type = some .purchase) ++ [row] ∧
      row.amountCents = -debit ∧
      row.scope = ⟨call.ctx.classId, call.ctx.seatId, .checking⟩ := by
  have hplan := h.resolvedOn.plan_eq
  have htype : row.type = some .purchase := by
    have hparsed := h.posted.debitOf.type
    rw [principalEffect, hplan] at hparsed
    exact (Option.some.inj hparsed).symm
  have hlegs : transfers.filter (·.type = some .purchase) = [] := by
    rw [List.filter_eq_nil_iff]
    intro t ht
    rcases funding_type h.posted.transfersOf ht with hleg | hleg <;> simp [hleg]
  refine ⟨?_, ?_, ?_⟩
  · rw [h.posted.transactions, List.filter_append, List.filter_append, hlegs]
    simp [htype]
  · rw [h.posted.debit_amount (by rw [hplan]; exact hsmall), hplan]
    rfl
  · have hscope := h.posted.debitOf.scope_eq .checking (by rw [principalEffect, hplan]; rfl)
    rw [hscope, principalEffect, hplan]
    rfl

end Funding

section Granting

theorem foldl_record_adds {β : Type} {P : EntitlementEvent → Prop} {rows : β → EntitlementEvent}
    {bs : List β} (h : ∀ b ∈ bs, ∀ n, P { rows b with eventId := n }) :
    EventsAdded P S (bs.foldl (fun S b ↦ S.record eventIds (rows b)) S) := by
  induction bs generalizing S with
  | nil => exact .refl S
  | cons b bs ih =>
    exact (EventsAdded.record (h b (by simp) _)).trans (ih (fun b' hb' ↦ h b' (by simp [hb'])))

theorem queueAcknowledgements_frame {units : List ℕ}
    (h : queueAcknowledgements m call S units = .ok S') :
    ∃ pending uuids, S' = { S with pendingActions := pending, uuids := uuids } := by
  induction units generalizing S with
  | nil =>
    rw [queueAcknowledgements, pure_eq_ok] at h
    exact ⟨_, _, h.symm⟩
  | cons i units ih =>
    rw [queueAcknowledgements, bind_eq_ok] at h
    obtain ⟨S₁, hins, h⟩ := h
    obtain ⟨pending, uuids, rfl⟩ := ih h
    rw [insertPending_ok hins]
    exact ⟨_, _, rfl⟩

theorem purchaseGrants_eq (T : EntitlementTables) (classId : String) (seatId : ℕ)
    (correlationId : String) : T.purchaseGrants classId seatId correlationId =
      T.grantedRows.filter (fun e ↦ e.classId = classId ∧ e.targetSeatId = seatId ∧
        e.correlationId = some correlationId ∧ e.acquisitionType = .purchase) := by
  rw [EntitlementTables.purchaseGrants, EntitlementTables.grantedRows, List.filter_filter]
  refine List.filter_congr (fun e _ ↦ ?_)
  rw [Bool.eq_iff_iff]
  simp only [Bool.and_eq_true, decide_eq_true_eq]
  tauto

/-- What the last two phases write: the units, and for an immediate item their ends and
reminders. -/
structure Granted (eventIds : ℕ → ℕ) (S : StoreState) (m : PurchaseMoment) (call : PurchaseCall)
    (config : StorePolicyConfig) (units : List ℕ) (S' : StoreState) : Prop where
  units_eq : units = (List.range call.quantity.toNat).map (S.uuids + ·)
  state : ∃ rest pending uuids, S' = { S with
      entitlementEvents := S.entitlementEvents ++ (unitRows eventIds S
        (purchaseRow m call config .granted) call.quantity.toNat ++ rest)
      pendingActions := pending
      uuids := uuids } ∧
    ∀ e ∈ rest, ∃ i n, e = { purchaseRow m call config .consumed with
      entitlementId := i, eventId := n }

theorem grantPurchase_ok {units : List ℕ}
    (h : grantPurchase eventIds m call config S = .ok (units, S')) :
    Granted eventIds S m call config units S' := by
  simp only [grantPurchase, recordGrants_eq] at h
  split_ifs at h
  · simp only [bind_eq_ok, pure_eq_ok, Prod.mk.injEq] at h
    obtain ⟨S₁, hqueue, rfl, rfl⟩ := h
    obtain ⟨pending, uuids, rfl⟩ := queueAcknowledgements_frame hqueue
    refine ⟨rfl, ?_⟩
    have hconsumed : EventsAdded (fun e ↦ ∃ i n, e = { purchaseRow m call config .consumed with
        entitlementId := i, eventId := n }) _ (consumeAtSale eventIds m call config { S with
          entitlementEvents := S.entitlementEvents ++ unitRows eventIds S
            (purchaseRow m call config .granted) call.quantity.toNat
          uuids := S.uuids + call.quantity.toNat }
          ((List.range call.quantity.toNat).map (S.uuids + ·))) :=
      foldl_record_adds (fun i _ n ↦ ⟨i, n, rfl⟩)
    obtain ⟨rest, hstate, hrest⟩ := hconsumed
    refine ⟨rest, pending, uuids, ?_, hrest⟩
    rw [hstate]
    simp only [List.append_assoc]
  · rw [pure_eq_ok, Prod.mk.injEq] at h
    obtain ⟨rfl, rfl⟩ := h
    exact ⟨rfl, [], S.pendingActions, S.uuids + call.quantity.toNat, by simp, by simp⟩

variable {units : List ℕ}

theorem Granted.grantedRows (h : Granted eventIds S m call config units S') :
    S'.grantedRows = S.grantedRows ++ unitRows eventIds S (purchaseRow m call config .granted)
      call.quantity.toNat := by
  obtain ⟨rest, pending, uuids, rfl, hrest⟩ := h.state
  have hunits : (unitRows eventIds S (purchaseRow m call config .granted)
      call.quantity.toNat).filter (·.eventType = .granted) =
      unitRows eventIds S (purchaseRow m call config .granted) call.quantity.toNat := by
    rw [List.filter_eq_self]
    intro e he
    obtain ⟨k, -, rfl⟩ := mem_unitRows he
    rfl
  have hnone : rest.filter (·.eventType = .granted) = [] := by
    rw [List.filter_eq_nil_iff]
    intro e he
    obtain ⟨i, n, rfl⟩ := hrest e he
    simp [purchaseRow]
  simp only [EntitlementTables.grantedRows, List.filter_append, hunits, hnone, List.append_nil]

theorem unitRows_ids {row : EntitlementEvent} (n : ℕ) :
    (unitRows eventIds S row n).map (·.entitlementId) = (List.range n).map (S.uuids + ·) := by
  simp [unitRows, List.map_map, Function.comp_def]

theorem Granted.ended (h : Granted eventIds S m call config units S') {classId : String} {i : ℕ}
    (hended : S.ended classId i = true) : S'.ended classId i = true := by
  obtain ⟨rest, pending, uuids, rfl, -⟩ := h.state
  rw [ended_iff] at hended ⊢
  refine hended.imp_left (fun ⟨e, he, hclass, hid⟩ ↦ ⟨e, ?_, hclass, hid⟩)
  exact List.mem_filter.2 ⟨List.mem_append_left _ (List.mem_filter.1 he).1, (List.mem_filter.1 he).2⟩

/-- The seat holds at most the new units on top of what it held. -/
theorem Granted.holding_le (h : Granted eventIds S m call config units S') (lineage : String) :
    S'.activeHoldingQuantity call.ctx.classId call.ctx.seatId lineage ≤
      S.activeHoldingQuantity call.ctx.classId call.ctx.seatId lineage + call.quantity.toNat := by
  have hheld : ∀ T : EntitlementTables, T.heldGrants call.ctx.classId call.ctx.seatId lineage =
      T.grantedRows.filter (fun e ↦ e.classId = call.ctx.classId ∧
        e.targetSeatId = call.ctx.seatId ∧ e.productId = some lineage ∧
        ¬ T.ended call.ctx.classId e.entitlementId) := by
    intro T
    rw [EntitlementTables.heldGrants, EntitlementTables.grantedRows, List.filter_filter]
    refine List.filter_congr (fun e _ ↦ ?_)
    rw [Bool.eq_iff_iff]
    simp only [Bool.and_eq_true, decide_eq_true_eq]
    tauto
  rw [EntitlementTables.activeHoldingQuantity, EntitlementTables.activeHoldingQuantity, hheld,
    hheld, h.grantedRows, List.filter_append, List.length_append]
  refine Nat.add_le_add ?_ ?_
  · refine (List.monotone_filter_right _ (fun e he ↦ ?_)).length_le
    simp only [decide_eq_true_eq] at he ⊢
    exact ⟨he.1, he.2.1, he.2.2.1, fun hended ↦ he.2.2.2 (h.ended hended)⟩
  · refine (List.length_filter_le _ _).trans ?_
    simp [unitRows]

end Granting

end TokenHub.Store
