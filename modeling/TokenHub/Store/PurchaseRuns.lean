import TokenHub.Store.PurchaseCharge

set_option autoImplicit false

namespace TokenHub.Store

open Ledger Attendance Lib.Checks Lib.Runs
open Rent (Instant AcquisitionType EntitlementEventType)

variable {eventIds : ℕ → ℕ} {sha256 : String → String} {S S' : StoreState} {m : PurchaseMoment}
  {call : PurchaseCall} {result : PurchaseResult}

abbrev PurchaseStep := PurchaseMoment × PurchaseCall

def purchaseStep (eventIds : ℕ → ℕ) (sha256 : String → String) (S : StoreState)
    (a : PurchaseStep) : StoreState :=
  committed S (executeStorePurchase eventIds sha256 S a.1 a.2)

/-- The call is quoted a price that a charge can be made of, and a call under a new key runs under
a correlation that is new to its seat. -/
def ChargedAlone (S : StoreState) (a : PurchaseStep) : Prop :=
  (S.quotedDebit a.1.now a.2).all (fun debit ↦ debit ≠ 0 ∧ |debit| < 10 ^ 28) = true ∧
    (S.ledger.reservations.find? (·.identity = a.2.identity) = none →
      S.purchaseGrants a.2.ctx.classId a.2.ctx.seatId a.2.correlationId = [])

instance (S : StoreState) (a : PurchaseStep) : Decidable (ChargedAlone S a) := by
  unfold ChargedAlone; infer_instance

section Sales

structure Sold (eventIds : ℕ → ℕ) (sha256 : String → String) (S : StoreState)
    (m : PurchaseMoment) (call : PurchaseCall) (config : StorePolicyConfig) (debit : ℤ)
    (resolved : ResolvedLedgerPlan) (transfers : List Transaction) (row : Transaction)
    (r : LedgerCommandReservation) (L : LedgerState) (result : PurchaseResult)
    (S' : StoreState) : Prop where
  validated : ∃ price, Validated sha256 S m call config price
  quoted : S.quotedDebit m.now call = some debit
  small : |debit| < 10 ^ 28
  funded : Funded sha256 S m call debit resolved transfers row r L
  granted : Granted eventIds { S with ledger := L } m call config result.entitlementIds S'
  result_eq : result = {
    success := true
    correlationId := call.correlationId
    quantityGranted := call.quantity
    entitlementIds := result.entitlementIds
    productId := some config.productId }
  alone : S.purchaseGrants call.ctx.classId call.ctx.seatId call.correlationId = []

theorem Validated.fresh {config : StorePolicyConfig} {price : ℤ}
    (h : Validated sha256 S m call config price) (hkey : call.key.isSome) :
    S.ledger.reservations.find? (·.identity = call.identity) = none := by
  obtain ⟨key, hsome⟩ := Option.isSome_iff_exists.1 hkey
  have hreplay := h.noReplay
  unfold replayPurchase at hreplay
  simp only [hsome, bind_eq_ok] at hreplay
  obtain ⟨prior, hprior, hreplay⟩ := hreplay
  cases prior with
  | some principal =>
    simp only [unit_bind_eq_ok, pure_eq_ok] at hreplay
    exact absurd hreplay.2 (by simp)
  | none =>
    have hid : call.identity = ⟨call.ctx.classId, "FEAT-STOR-001", key⟩ := by
      rw [PurchaseCall.identity, ledgerIdempotencyKey, hsome]
      rfl
    rw [hid]
    exact replayReservedCharge_none hprior

theorem Purchased.sold (hs : LedgerSound sha256 S.ledger) (hkey : call.key.isSome)
    (hmeets : ChargedAlone S (m, call)) {config : StorePolicyConfig} {price debit : ℤ}
    {L : LedgerState}
    (h : Purchased eventIds sha256 S m call config price debit L result S') :
    ∃ resolved transfers row r, Sold eventIds sha256 S m call config debit resolved transfers row
      r L result S' := by
  have hvalid := validatePurchase_ok h.validated
  obtain ⟨discounted, hdebit⟩ := h.priced
  have hquoted : S.quotedDebit m.now call = some debit := by
    rw [StoreState.quotedDebit, hvalid.resolved, Option.bind_some, hvalid.priced,
      Option.bind_some, hdebit]
    rfl
  obtain ⟨hcharge, halone⟩ := hmeets
  rw [hquoted, Option.all_some, decide_eq_true_eq] at hcharge
  have hfresh := hvalid.fresh hkey
  obtain ⟨resolved, transfers, row, r, hfunded⟩ :=
    fundPurchase_ok hs hfresh hcharge.1 hcharge.2 h.funded
  exact ⟨resolved, transfers, row, r, ⟨price, hvalid⟩, hquoted, hcharge.2, hfunded,
    grantPurchase_ok h.granted, h.result_eq, halone hfresh⟩

variable {config : StorePolicyConfig} {debit : ℤ} {resolved : ResolvedLedgerPlan}
  {transfers : List Transaction} {row : Transaction} {r : LedgerCommandReservation}
  {L : LedgerState}

theorem Sold.ledger (h : Sold eventIds sha256 S m call config debit resolved transfers row r L
    result S') : S'.ledger = L ∧ S'.seats = S.seats := by
  obtain ⟨rest, pending, uuids, rfl, -⟩ := h.granted.state
  exact ⟨rfl, rfl⟩

theorem Sold.grantedRows (h : Sold eventIds sha256 S m call config debit resolved transfers row r L
    result S') : S'.grantedRows = S.grantedRows ++ unitRows eventIds { S with ledger := L }
      (purchaseRow m call config .granted) call.quantity.toNat :=
  h.granted.grantedRows

theorem Sold.purchaseGrants (h : Sold eventIds sha256 S m call config debit resolved transfers row
    r L result S') : S'.purchaseGrants call.ctx.classId call.ctx.seatId call.correlationId =
      unitRows eventIds { S with ledger := L } (purchaseRow m call config .granted)
        call.quantity.toNat := by
  have halone := h.alone
  rw [purchaseGrants_eq] at halone
  rw [purchaseGrants_eq, h.grantedRows, List.filter_append, halone, List.nil_append,
    List.filter_eq_self]
  intro e he
  obtain ⟨k, -, rfl⟩ := mem_unitRows he
  simp [purchaseRow]

theorem Sold.purchaseGrants_other (h : Sold eventIds sha256 S m call config debit resolved
    transfers row r L result S') {classId : String} {seatId : ℕ} {correlationId : String}
    (hsome : S.purchaseGrants classId seatId correlationId ≠ []) :
    S'.purchaseGrants classId seatId correlationId =
      S.purchaseGrants classId seatId correlationId := by
  rw [purchaseGrants_eq, purchaseGrants_eq, h.grantedRows, List.filter_append]
  refine List.append_right_eq_self.2 ?_
  rw [List.filter_eq_nil_iff]
  intro e he hmatch
  obtain ⟨k, -, rfl⟩ := mem_unitRows he
  simp only [purchaseRow, decide_eq_true_eq, Option.some.injEq] at hmatch
  obtain ⟨rfl, rfl, rfl, -⟩ := hmatch
  exact hsome h.alone

theorem Sold.quantity_pos (h : Sold eventIds sha256 S m call config debit resolved transfers row
    r L result S') : 0 < call.quantity := by
  obtain ⟨price, hvalid⟩ := h.validated
  exact hvalid.admitted.quantity

theorem resolveStoreItem_some {now : Instant} {policyUuid : String}
    (h : S.resolveStoreItem now policyUuid = some config) :
    ∃ product ∈ S.storeProducts, config = product.config now ∧ product.policyUuid = policyUuid := by
  rw [StoreState.resolveStoreItem, Option.map_eq_some_iff] at h
  obtain ⟨product, hfound, rfl⟩ := h
  exact ⟨product, List.mem_of_find?_eq_some hfound, rfl, by simpa using List.find?_some hfound⟩

theorem Sold.replays (h : Sold eventIds sha256 S m call config debit resolved transfers row r L
    result S') (hs : LedgerSound sha256 S.ledger) (hkey : call.key.isSome) :
    replayPurchase sha256 S' call = .ok (some result) := by
  obtain ⟨key, hsome⟩ := Option.isSome_iff_exists.1 hkey
  have hplan := h.funded.resolvedOn.plan_eq
  have htransfer := h.funded.resolvedOn.abs_transfer_lt hs.balance
  have hcharge : replayReservedCharge sha256 S'.ledger ⟨call.ctx.classId, "FEAT-STOR-001", key⟩
      call.ctx.seatId call.ctx.seatId .purchase (canonicalIntent call) = .ok (some row) := by
    have hother : TransactionType.purchase ≠ .legacyWithdrawal ∧
        TransactionType.purchase ≠ .legacyDeposit := by decide
    have hreplays := h.funded.posted.replays (.refl h.funded.posted.grows.sound) hother
      (by rw [hplan]; rfl) (by rw [hplan]; rfl) (by rw [hplan]; exact h.funded.positive)
      (by rw [hplan]; exact h.small) htransfer
    rw [hplan, ledgerIdempotencyKey, hsome] at hreplays
    rw [h.ledger.1]
    exact hreplays
  have hgrants : S'.purchaseGrants call.ctx.classId call.ctx.seatId row.correlationId =
      unitRows eventIds { S with ledger := L } (purchaseRow m call config .granted)
        call.quantity.toNat := by
    rw [h.funded.correlationId]
    exact h.purchaseGrants
  obtain ⟨price, hvalid⟩ := h.validated
  obtain ⟨product, -, rfl, hpolicy⟩ := resolveStoreItem_some hvalid.resolved
  have hlength : (unitRows eventIds { S with ledger := L }
      (purchaseRow m call (product.config m.now) .granted) call.quantity.toNat).length =
      call.quantity.toNat := by simp [unitRows]
  have hpos := h.quantity_pos
  have hhead : ∀ g, (unitRows eventIds { S with ledger := L }
      (purchaseRow m call (product.config m.now) .granted) call.quantity.toNat).head? = some g →
      g.productId = some (product.config m.now).productId := by
    intro g hg
    obtain ⟨k, -, rfl⟩ := mem_unitRows (List.mem_of_head? hg)
    rfl
  unfold replayPurchase
  simp only [hsome, hcharge, ok_bind, hgrants]
  rw [require_of, ok_bind]
  · rw [h.result_eq, pure_eq_ok, Option.some.injEq, unitRows_ids, hlength, h.funded.correlationId,
      Int.toNat_of_nonneg hpos.le, ← h.granted.units_eq]
    cases hunits : (unitRows eventIds { S with ledger := L }
        (purchaseRow m call (product.config m.now) .granted) call.quantity.toNat).head? with
    | none =>
      rw [List.head?_eq_none_iff] at hunits
      rw [hunits] at hlength
      simp only [List.length_nil] at hlength
      omega
    | some g =>
      rw [Option.bind_some, hhead g hunits]
  · refine ⟨fun hnil ↦ ?_, fun g hg ↦ ?_⟩
    · rw [hnil] at hlength
      simp only [List.length_nil] at hlength
      omega
    · obtain ⟨k, -, rfl⟩ := mem_unitRows hg
      exact congrArg some hpolicy

theorem Sold.grows (h : Sold eventIds sha256 S m call config debit resolved transfers row r L
    result S') : LedgerGrows sha256 S.ledger S'.ledger := by
  rw [h.ledger.1]
  exact h.funded.posted.ledgerGrows

theorem Sold.keeps_replay (h : Sold eventIds sha256 S m call config debit resolved transfers row r
    L result S') {call₀ : PurchaseCall} {result₀ : PurchaseResult}
    (hreplay : replayPurchase sha256 S call₀ = .ok (some result₀)) :
    replayPurchase sha256 S' call₀ = .ok (some result₀) := by
  unfold replayPurchase at hreplay ⊢
  split at hreplay
  · cases hreplay
  · next key hkey =>
    rw [bind_eq_ok] at hreplay
    obtain ⟨prior, hprior, hreplay⟩ := hreplay
    cases prior with
    | none =>
      rw [pure_eq_ok] at hreplay
      cases hreplay
    | some principal =>
      simp only [require_bind_eq_ok] at hreplay
      obtain ⟨⟨hne, hpolicy⟩, hreplay⟩ := hreplay
      have hsame := h.purchaseGrants_other hne
      rw [replayReservedCharge_grows h.grows hprior, ok_bind]
      simp only [hsame]
      rw [require_of ⟨hne, hpolicy⟩, ok_bind]
      exact hreplay

end Sales

section Calls

structure SameCall (call call' : PurchaseCall) : Prop where
  ctx : call'.ctx = call.ctx
  policyUuid : call'.policyUuid = call.policyUuid
  quantity : call'.quantity = call.quantity
  idempotencyKey : call'.idempotencyKey = call.idempotencyKey

theorem SameCall.replayPurchase_eq {call' : PurchaseCall} (h : SameCall call call') :
    replayPurchase sha256 S call' = replayPurchase sha256 S call := by
  simp only [replayPurchase, PurchaseCall.key, canonicalIntent, h.ctx, h.policyUuid, h.quantity,
    h.idempotencyKey]

/-- A call whose key replays returns the earlier result, and writes nothing. -/
theorem executeStorePurchase_replay (hadmitted : Admitted S call)
    (hreplay : replayPurchase sha256 S call = .ok (some result)) :
    executeStorePurchase eventIds sha256 S m call = .ok (result, S) := by
  obtain ⟨seat, hseat⟩ := Option.isSome_iff_exists.1 hadmitted.seat
  have hvalidate : validatePurchase sha256 S m call = .error (.returned result) := by
    rw [validatePurchase, require_of hadmitted.context, ok_bind, hseat, demand_some, ok_bind,
      require_of hadmitted.quantity, ok_bind, hreplay]
    rfl
  have hstop : purchase eventIds sha256 S m call = .error (.returned result) := by
    rw [purchase, hvalidate]
    rfl
  rw [executeStorePurchase, hstop]

end Calls

section Runs

theorem replayPurchase_reserved (h : replayPurchase sha256 S call = .ok (some result)) :
    ∃ r ∈ S.ledger.reservations, r.identity = call.identity := by
  unfold replayPurchase at h
  split at h
  · cases h
  · next key hkey =>
    rw [bind_eq_ok] at h
    obtain ⟨prior, hprior, h⟩ := h
    cases prior with
    | none =>
      rw [pure_eq_ok] at h
      cases h
    | some principal =>
      obtain ⟨r, hr, -, -⟩ := replayReservedCharge_some hprior
      refine ⟨r, List.mem_of_find?_eq_some hr, ?_⟩
      rw [PurchaseCall.identity, ledgerIdempotencyKey, hkey]
      simpa using List.find?_some hr

theorem purchaseStep_cases (eventIds : ℕ → ℕ) (hs : LedgerSound sha256 S.ledger) (hkey : call.key.isSome)
    (hmeets : ChargedAlone S (m, call)) :
    purchaseStep eventIds sha256 S (m, call) = S ∨
      ∃ config debit resolved transfers row r L result,
        executeStorePurchase eventIds sha256 S m call =
          .ok (result, purchaseStep eventIds sha256 S (m, call)) ∧
        Sold eventIds sha256 S m call config debit resolved transfers row r L result
          (purchaseStep eventIds sha256 S (m, call)) := by
  cases hrun : executeStorePurchase eventIds sha256 S m call with
  | error e =>
    left
    rw [purchaseStep, hrun]
    rfl
  | ok out =>
    obtain ⟨result, S'⟩ := out
    have hstep : purchaseStep eventIds sha256 S (m, call) = S' := by
      rw [purchaseStep, hrun]
      rfl
    rw [hstep]
    rcases executeStorePurchase_ok hrun with ⟨rfl, -⟩ | ⟨config, price, debit, L, hbought⟩
    · exact .inl rfl
    · obtain ⟨resolved, transfers, row, r, hsold⟩ := hbought.sold hs hkey hmeets
      exact .inr ⟨config, debit, resolved, transfers, row, r, L, result, rfl, hsold⟩

theorem purchaseStep_keeps (eventIds : ℕ → ℕ) (hs : LedgerSound sha256 S.ledger) (hkey : call.key.isSome)
    (hmeets : ChargedAlone S (m, call)) :
    LedgerSound sha256 (purchaseStep eventIds sha256 S (m, call)).ledger ∧
      (purchaseStep eventIds sha256 S (m, call)).seats = S.seats := by
  rcases purchaseStep_cases eventIds hs hkey hmeets with
    hsame | ⟨config, debit, resolved, transfers, row, r, L, result, -, hsold⟩
  · rw [hsame]
    exact ⟨hs, rfl⟩
  · exact ⟨hsold.grows.sound, hsold.ledger.2⟩

variable {steps : List PurchaseStep}

theorem run_keeps (hs : LedgerSound sha256 S.ledger) (hkeys : ∀ a ∈ steps, a.2.key.isSome)
    (hmeets : AllAlong ChargedAlone (purchaseStep eventIds sha256) S steps) :
    LedgerSound sha256 (run (purchaseStep eventIds sha256) S steps).ledger ∧
      (run (purchaseStep eventIds sha256) S steps).seats = S.seats := by
  induction steps generalizing S with
  | nil => exact ⟨hs, rfl⟩
  | cons a steps ih =>
    obtain ⟨hmeet, hmeets⟩ := hmeets
    obtain ⟨hs', hseats⟩ := purchaseStep_keeps eventIds hs (hkeys a (by simp)) hmeet
    obtain ⟨hrun, hrest⟩ := ih hs' (fun b hb ↦ hkeys b (by simp [hb])) hmeets
    exact ⟨hrun, hrest.trans hseats⟩

theorem run_keeps_replay (hs : LedgerSound sha256 S.ledger)
    (hkeys : ∀ a ∈ steps, a.2.key.isSome)
    (hmeets : AllAlong ChargedAlone (purchaseStep eventIds sha256) S steps)
    (hreplay : replayPurchase sha256 S call = .ok (some result)) :
    replayPurchase sha256 (run (purchaseStep eventIds sha256) S steps) call =
      .ok (some result) := by
  induction steps generalizing S with
  | nil => exact hreplay
  | cons a steps ih =>
    obtain ⟨hmeet, hmeets⟩ := hmeets
    obtain ⟨hs', -⟩ := purchaseStep_keeps eventIds hs (hkeys a (by simp)) hmeet
    refine ih hs' (fun b hb ↦ hkeys b (by simp [hb])) hmeets ?_
    rcases purchaseStep_cases eventIds hs (hkeys a (by simp)) hmeet with
      hsame | ⟨config, debit, resolved, transfers, row, r, L, result', -, hsold⟩
    · rw [hsame]
      exact hreplay
    · exact hsold.keeps_replay hreplay

def SucceededBefore (eventIds : ℕ → ℕ) (sha256 : String → String) (S : StoreState)
    (steps : List PurchaseStep) (id : CommandIdentity) : Prop :=
  ∃ before m call after result S', steps = before ++ (m, call) :: after ∧ call.identity = id ∧
    executeStorePurchase eventIds sha256 (run (purchaseStep eventIds sha256) S before) m call =
      .ok (result, S') ∧ result.success = true

theorem reservation_of_run (hs : LedgerSound sha256 S.ledger)
    (hkeys : ∀ a ∈ steps, a.2.key.isSome)
    (hmeets : AllAlong ChargedAlone (purchaseStep eventIds sha256) S steps) :
    ∀ r ∈ (run (purchaseStep eventIds sha256) S steps).ledger.reservations,
      r ∈ S.ledger.reservations ∨ SucceededBefore eventIds sha256 S steps r.identity := by
  induction steps using List.reverseRecOn with
  | nil => exact fun r hr ↦ .inl hr
  | append_singleton steps a ih =>
    obtain ⟨hmeets, hmeet, -⟩ := hmeets.append
    have hkeys' : ∀ b ∈ steps, b.2.key.isSome := fun b hb ↦ hkeys b (by simp [hb])
    intro r hr
    rw [run_append, run_cons, run_nil] at hr
    have hearlier : r ∈ (run (purchaseStep eventIds sha256) S steps).ledger.reservations →
        r ∈ S.ledger.reservations ∨
          SucceededBefore eventIds sha256 S (steps ++ [a]) r.identity := by
      intro hold
      refine (ih hkeys' hmeets r hold).imp_right ?_
      rintro ⟨before, m, call, after, result, S', rfl, hcall⟩
      exact ⟨before, m, call, after ++ [a], result, S', by simp, hcall⟩
    rcases purchaseStep_cases eventIds (run_keeps hs hkeys' hmeets).1 (hkeys a (by simp)) hmeet with
      hsame | ⟨config, debit, resolved, transfers, row, r', L, result, hcall, hsold⟩
    · rw [hsame] at hr
      exact hearlier hr
    · rw [hsold.ledger.1, hsold.funded.posted.reservations, List.mem_append,
        List.mem_singleton] at hr
      rcases hr with hold | rfl
      · exact hearlier hold
      · refine .inr ⟨steps, a.1, a.2, [], result, _, rfl, ?_, hcall, ?_⟩
        · have hplan := hsold.funded.resolvedOn.plan_eq
          rw [hsold.funded.posted.owns.identity, chargeCall, CommandCall.identity, hplan]
          rfl
        · rw [hsold.result_eq]

end Runs

section Main

/-- What a first successful purchase leaves: its units, its price, and the limits kept. -/
structure Bought (S : StoreState) (m : PurchaseMoment) (call : PurchaseCall)
    (result : PurchaseResult) (S' : StoreState) : Prop where
  granted : ∃ units, S'.grantedRows = S.grantedRows ++ units ∧
    (units.length : ℤ) = call.quantity ∧ units.map (·.entitlementId) = result.entitlementIds ∧
    ∀ g ∈ units, g.acquisitionType = .purchase ∧ g.correlationId = some result.correlationId ∧
      g.classId = call.ctx.classId ∧ g.targetSeatId = call.ctx.seatId
  debited : ∃ debit row, S.quotedDebit m.now call = some debit ∧
    S'.ledger.transactions.filter (·.type = some .purchase) =
      S.ledger.transactions.filter (·.type = some .purchase) ++ [row] ∧
    row.amountCents = -debit ∧ row.scope = ⟨call.ctx.classId, call.ctx.seatId, .checking⟩ ∧
    ∃ transfer,
      getAvailableBalance S'.ledger ⟨call.ctx.classId, call.ctx.seatId, .checking⟩ =
        getAvailableBalance S.ledger ⟨call.ctx.classId, call.ctx.seatId, .checking⟩ + transfer -
          debit ∧
      getAvailableBalance S'.ledger ⟨call.ctx.classId, call.ctx.seatId, .savings⟩ =
        getAvailableBalance S.ledger ⟨call.ctx.classId, call.ctx.seatId, .savings⟩ - transfer ∧
      0 ≤ getAvailableBalance S'.ledger ⟨call.ctx.classId, call.ctx.seatId, .checking⟩ ∧
      (transfer ≠ 0 → m.bankingDirective.protectionEnabled = true)
  held : ∀ config limit, S.resolveStoreItem m.now call.policyUuid = some config →
    effectiveHoldingLimit config.entitlementType config.holdingLimit = some limit →
    (S'.activeHoldingQuantity call.ctx.classId call.ctx.seatId config.productId : ℤ) ≤ limit

variable {config : StorePolicyConfig} {debit : ℤ} {resolved : ResolvedLedgerPlan}
  {transfers : List Transaction} {row : Transaction} {r : LedgerCommandReservation}
  {L : LedgerState}

theorem Sold.held (h : Sold eventIds sha256 S m call config debit resolved transfers row r L
    result S') {limit : ℤ}
    (hlimit : effectiveHoldingLimit config.entitlementType config.holdingLimit = some limit) :
    (S'.activeHoldingQuantity call.ctx.classId call.ctx.seatId config.productId : ℤ) ≤ limit := by
  obtain ⟨price, hvalid⟩ := h.validated
  obtain ⟨product, -, rfl, -⟩ := resolveStoreItem_some hvalid.resolved
  have hwithin := hvalid.held
  have hlineage : (some (product.config m.now).productId).filter (· ≠ "") =
      some (product.config m.now).productId := by
    simp [StoreProduct.config, product.lineage_ne_empty]
  simp only [EntitlementTables.exceededHoldingLimit, hlimit, hlineage] at hwithin
  split_ifs at hwithin with hexceeds
  have hle : S'.activeHoldingQuantity call.ctx.classId call.ctx.seatId
      (product.config m.now).productId ≤ S.activeHoldingQuantity call.ctx.classId call.ctx.seatId
        (product.config m.now).productId + call.quantity.toNat := h.granted.holding_le _
  have hpos := h.quantity_pos
  omega

theorem Sold.bought (h : Sold eventIds sha256 S m call config debit resolved transfers row r L
    result S') (hs : LedgerSound sha256 S.ledger) : Bought S m call result S' := by
  have hpos := h.quantity_pos
  obtain ⟨hrows, hamount, hscope⟩ := h.funded.purchases h.small
  obtain ⟨hchecking, hsavings, hcovered, hmoved⟩ := h.funded.balances hs h.small
  have hcorr : result.correlationId = call.correlationId := by rw [h.result_eq]
  refine ⟨⟨_, h.grantedRows, ?_, ?_, ?_⟩, ⟨debit, row, h.quoted, ?_, hamount, hscope,
    resolved.recoveryTransferAmount, ?_⟩, ?_⟩
  · rw [unitRows, List.length_map, List.length_range, Int.toNat_of_nonneg hpos.le]
  · rw [unitRows_ids, ← h.granted.units_eq]
  · intro g hg
    obtain ⟨k, -, rfl⟩ := mem_unitRows hg
    exact ⟨rfl, congrArg some hcorr.symm, rfl, rfl⟩
  · rw [h.ledger.1]
    exact hrows
  · rw [h.ledger.1]
    exact ⟨hchecking, hsavings, hcovered, hmoved⟩
  · intro config' limit hresolved hlimit
    obtain ⟨price, hvalid⟩ := h.validated
    obtain rfl : config = config' := Option.some.inj (hvalid.resolved.symm.trans hresolved)
    exact h.held hlimit

/-- In a run of purchases under keys, each priced and under a correlation of its own, a refused
call writes nothing, the first success under a key is one purchase, and every later call with the
same key and arguments returns the same result and writes nothing. -/
theorem store_purchase_exactly_once (eventIds : ℕ → ℕ) (sha256 : String → String)
    (S₀ : StoreState) (hs : LedgerSound sha256 S₀.ledger) (steps : List PurchaseStep)
    (hkeys : ∀ a ∈ steps, a.2.key.isSome)
    (hmeets : AllAlong ChargedAlone (purchaseStep eventIds sha256) S₀ steps) :
    ∀ before m call after result S', steps = before ++ (m, call) :: after →
      let S := run (purchaseStep eventIds sha256) S₀ before
      executeStorePurchase eventIds sha256 S m call = .ok (result, S') →
      (result.success = false → S' = S) ∧
      (result.success = true → (∀ r ∈ S₀.ledger.reservations, r.identity ≠ call.identity) →
        ¬ SucceededBefore eventIds sha256 S₀ before call.identity →
        Bought S m call result S') ∧
      (result.success = true → ∀ mid m' call' rest, after = mid ++ (m', call') :: rest →
        SameCall call call' →
        executeStorePurchase eventIds sha256 (run (purchaseStep eventIds sha256) S' mid) m' call' =
          .ok (result, run (purchaseStep eventIds sha256) S' mid)) := by
  rintro before m call after result S' rfl S hcall
  obtain ⟨hbefore, hmeet, hafter⟩ := hmeets.append
  have hkey : call.key.isSome := hkeys (m, call) (by simp)
  obtain ⟨hsound, -⟩ := run_keeps hs (fun a ha ↦ hkeys a (by simp [ha])) hbefore
  have hstep : purchaseStep eventIds sha256 S (m, call) = S' := by
    rw [purchaseStep, hcall]
    rfl
  have houtcome : (S' = S ∧ NotMade sha256 S call result) ∨
      ∃ config debit resolved transfers row r L,
        Sold eventIds sha256 S m call config debit resolved transfers row r L result S' := by
    refine (executeStorePurchase_ok hcall).imp_right ?_
    rintro ⟨config, price, debit, L, hbought⟩
    obtain ⟨resolved, transfers, row, r, hsold⟩ := hbought.sold hsound hkey hmeet
    exact ⟨config, debit, resolved, transfers, row, r, L, hsold⟩
  refine ⟨fun hfailed ↦ ?_, fun hsuccess hstart hfirst ↦ ?_, fun hsuccess ↦ ?_⟩
  · rcases houtcome with ⟨hsame, -⟩ | ⟨config, debit, resolved, transfers, row, r, L, hsold⟩
    · exact hsame
    · rw [hsold.result_eq] at hfailed
      cases hfailed
  · rcases houtcome with ⟨-, hnot⟩ | ⟨config, debit, resolved, transfers, row, r, L, hsold⟩
    · -- a replay needs a reservation, which only an earlier success can have made
      rcases hnot with hfailed | ⟨-, hreplay⟩
      · rw [hfailed] at hsuccess
        cases hsuccess
      · obtain ⟨r, hr, hid⟩ := replayPurchase_reserved hreplay
        rcases reservation_of_run hs (fun a ha ↦ hkeys a (by simp [ha])) hbefore r hr with
          hold | hearlier
        · exact absurd hid (hstart r hold)
        · rw [hid] at hearlier
          exact absurd hearlier hfirst
    · exact hsold.bought hsound
  · rintro mid m' call' rest rfl hsame
    have hreplay : replayPurchase sha256 S' call = .ok (some result) ∧ Admitted S call := by
      rcases houtcome with ⟨rfl, hfailed | ⟨hadmitted, hreplay⟩⟩ |
        ⟨config, debit, resolved, transfers, row, r, L, hsold⟩
      · rw [hfailed] at hsuccess
        cases hsuccess
      · exact ⟨hreplay, hadmitted⟩
      · obtain ⟨price, hvalid⟩ := hsold.validated
        exact ⟨hsold.replays hsound hkey, hvalid.admitted⟩
    obtain ⟨hreplay, hadmitted⟩ := hreplay
    rw [hstep] at hafter
    obtain ⟨hmid, -⟩ := hafter.append
    obtain ⟨hsound', hseats⟩ := purchaseStep_keeps eventIds hsound hkey hmeet
    rw [hstep] at hsound' hseats
    have hkeysMid : ∀ a ∈ mid, a.2.key.isSome := fun a ha ↦ hkeys a (by simp [ha])
    obtain ⟨-, hseatsMid⟩ := run_keeps hsound' hkeysMid hmid
    refine executeStorePurchase_replay ⟨?_, ?_, ?_⟩ ?_
    · rw [hsame.ctx]
      exact hadmitted.context
    · have hlookup := hadmitted.seat
      rw [hsame.ctx]
      simpa only [AttendanceTables.seat, hseatsMid, hseats] using hlookup
    · rw [hsame.quantity]
      exact hadmitted.quantity
    · rw [hsame.replayPurchase_eq]
      exact run_keeps_replay hsound' hkeysMid hmid hreplay

def repeatedPurchase : List PurchaseStep :=
  [(sampleMoment, samplePurchase 2 (some "k") "corr_1"),
    (sampleMoment, samplePurchase 2 (some "k") "corr_2")]

theorem store_purchase_exactly_once_repeated :
    let S := sampleStore (sampleProduct 1000 .delayed none)
    let S' := purchaseStep id id S (sampleMoment, samplePurchase 2 (some "k") "corr_1")
    ∀ result, executeStorePurchase id id S sampleMoment (samplePurchase 2 (some "k") "corr_1") =
        .ok (result, S') → result.success = true →
      executeStorePurchase id id S' sampleMoment (samplePurchase 2 (some "k") "corr_2") =
        .ok (result, S') := by
  intro S S' result hcall hsuccess
  have hlaw := store_purchase_exactly_once id id S sampleLedger_sound repeatedPurchase
    (by decide) (by decide +kernel) [] _ _ _ result S' rfl
  simp only [run_nil] at hlaw
  have hlater := (hlaw hcall).2.2 hsuccess [] _ _ [] rfl ⟨rfl, rfl, rfl, rfl⟩
  simpa only [run_nil] using hlater

/-- A free purchase repeated under its key is made again. -/
theorem free_purchase_repeats :
    let S := sampleStore (sampleProduct 0 .delayed none)
    let S' := purchaseStep id id S (sampleMoment, samplePurchase 2 (some "k") "corr_1")
    (executeStorePurchase id id S sampleMoment
        (samplePurchase 2 (some "k") "corr_1")).toOption.map (·.1.entitlementIds) = some [0, 1] ∧
      (executeStorePurchase id id S' sampleMoment
        (samplePurchase 2 (some "k") "corr_2")).toOption.map (·.1.entitlementIds) = some [2, 3] ∧
      S'.grantedRows.length = 2 ∧
      (purchaseStep id id S' (sampleMoment, samplePurchase 2 (some "k")
        "corr_2")).grantedRows.length = 4 := by
  decide +kernel

end Main

end TokenHub.Store
