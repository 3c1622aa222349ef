import TokenHub.Store.RequestSteps

set_option autoImplicit false

namespace TokenHub.Store

open Ledger Attendance Lib.Checks Lib.Runs Relation
open Rent (Instant AcquisitionType EntitlementEventType)

variable {eventIds : ℕ → ℕ} {sha256 : String → String} {S S' : StoreState} {m : PurchaseMoment}
  {call : PurchaseCall} {config : StorePolicyConfig} {row : EntitlementEvent}

theorem raising_eq_ok {α : Type} {x : Except Raise α} {a : α} : raising x = .ok a ↔ x = .ok a :=
  mapError_eq_ok

section Units

def unitRows (eventIds : ℕ → ℕ) (S : StoreState) (row : EntitlementEvent) (n : ℕ) :
    List EntitlementEvent :=
  (List.range n).map (fun k ↦ { row with
    eventId := eventIds (S.entitlementEvents.length + k)
    entitlementId := S.uuids + k })

theorem recordGrants_eq (n : ℕ) : S.recordGrants eventIds row n = { S with
    entitlementEvents := S.entitlementEvents ++ unitRows eventIds S row n
    uuids := S.uuids + n } := by
  induction n generalizing S with
  | zero => simp [StoreState.recordGrants, unitRows]
  | succ n ih =>
    have hrows : unitRows eventIds S row (n + 1) =
        { row with eventId := eventIds S.entitlementEvents.length, entitlementId := S.uuids } ::
          unitRows eventIds (S.recordGrant eventIds row) row n := by
      simp only [unitRows, List.range_succ_eq_map, List.map_cons, List.map_map,
        StoreState.recordGrant, StoreState.record, List.length_append, List.length_singleton]
      refine congrArg₂ _ rfl (List.map_congr_left (fun k _ ↦ ?_))
      simp only [Function.comp_apply, Nat.succ_eq_add_one, Nat.add_comm k 1, Nat.add_assoc]
    rw [StoreState.recordGrants, ih, hrows]
    simp [StoreState.recordGrant, StoreState.record, Nat.add_assoc, Nat.add_comm 1 n]

theorem mem_unitRows {n : ℕ} {e : EntitlementEvent} (h : e ∈ unitRows eventIds S row n) :
    ∃ k < n, e = { row with
      eventId := eventIds (S.entitlementEvents.length + k)
      entitlementId := S.uuids + k } := by
  obtain ⟨k, hk, rfl⟩ := List.mem_map.1 h
  exact ⟨k, List.mem_range.1 hk, rfl⟩

/-- No event, log or request names an identifier that has not been drawn. -/
theorem LineageInvariant.unborn {L : LineageState} (h : LineageInvariant L) {i : ℕ}
    (hi : L.uuids ≤ i) (classId : String) :
    L.ended classId i = false ∧ L.hasPendingAction classId i = false := by
  have hgrant : ∀ g ∈ L.grantedRows, g.entitlementId ≠ i := by
    intro g hg
    have := h.fresh_granted hg
    omega
  rw [ended_false_iff, hasPendingAction_false_iff]
  refine ⟨⟨fun e he _ ↦ ?_, fun l hl _ hid ↦ ?_⟩, fun p hp _ ↦ ?_⟩
  · have := h.fresh e (List.mem_filter.1 he).1
    omega
  · obtain ⟨g, hg, hgid, -⟩ := h.usesOf l hl i hid
    exact hgrant g hg hgid
  · obtain ⟨g, hg, hgid, -⟩ := h.waitingOf p hp
    exact fun heq ↦ hgrant g hg (hgid.trans heq)

theorem ended_recordGrants (hrow : row.eventType = .granted) {classId : String} {i n : ℕ}
    (h : S.ended classId i = false) : (S.recordGrants eventIds row n).ended classId i = false := by
  induction n generalizing S with
  | zero => exact h
  | succ n ih =>
    refine ih (S := S.recordGrant eventIds row) ?_
    show (S.toEntitlementTables.addEvent _).ended classId i = false
    rw [← Bool.not_eq_true, ended_addEvent, h]
    rintro (habsurd | ⟨hterminal, -⟩)
    · cases habsurd
    · simp [EntitlementEvent.isTerminal, hrow] at hterminal

end Units

section Sale

theorem consumeAtSale_moves {units : List ℕ} (grants : ℕ → EntitlementEvent)
    (hheld : ∀ i ∈ units, Held S.toEntitlementTables (grants i))
    (hends : ∀ i ∈ units, ∀ n, Ends (grants i)
      { purchaseRow m call config .consumed with entitlementId := i, eventId := n })
    (hdistinct : (units.map (fun i ↦ (grants i).entitlementId)).Nodup) :
    Moves S (consumeAtSale eventIds m call config S units) :=
  foldl_record_moves grants hheld hends hdistinct

theorem queueAcknowledgements_moves {units : List ℕ}
    (h : queueAcknowledgements m call S units = .ok S') : Moves S S' := by
  induction units generalizing S with
  | nil =>
    rw [queueAcknowledgements, pure_eq_ok] at h
    rw [h]
  | cons i units ih =>
    rw [queueAcknowledgements, bind_eq_ok] at h
    obtain ⟨S₁, hins, h⟩ := h
    refine .trans ?_ (ih h)
    rw [insertPending_ok hins]
    exact .single (.acknowledge (L := S.lineages) _ rfl rfl rfl)

theorem grantPurchase_moves (hi : LineageInvariant S.lineages) {units : List ℕ}
    (h : grantPurchase eventIds m call config S = .ok (units, S')) : Moves S S' := by
  have hgrants : Moves S (S.recordGrants eventIds (purchaseRow m call config .granted)
      call.quantity.toNat) := recordGrants_moves rfl _
  simp only [grantPurchase] at h
  split_ifs at h with himmediate
  · simp only [bind_eq_ok, pure_eq_ok, Prod.mk.injEq] at h
    obtain ⟨S₁, hqueue, rfl, rfl⟩ := h
    refine hgrants.trans (.trans ?_ (queueAcknowledgements_moves hqueue))
    -- each unit is its own lineage, so none has ended and none is waited on
    refine consumeAtSale_moves (fun i ↦ { purchaseRow m call config .granted with
        eventId := eventIds (S.entitlementEvents.length + (i - S.uuids)), entitlementId := i })
      (fun i hmem ↦ ?_) (fun i _ n ↦ ⟨rfl, rfl, rfl, rfl, rfl, rfl, rfl⟩) ?_
    · obtain ⟨k, hk, rfl⟩ := List.mem_map.1 hmem
      obtain ⟨hopen, hfree⟩ := hi.unborn (Nat.le_add_right S.uuids k) call.ctx.classId
      refine ⟨?_, ended_recordGrants rfl hopen, ?_⟩
      · rw [recordGrants_eq]
        refine List.mem_filter.2 ⟨List.mem_append_right _ (List.mem_map.2 ⟨k, hk, ?_⟩), rfl⟩
        simp
      · rw [recordGrants_eq]
        exact hfree
    · simp only [List.map_id']
      exact (List.nodup_range).map (fun a b hab ↦ by simpa using hab)
  · rw [pure_eq_ok, Prod.mk.injEq] at h
    rw [← h.2]
    exact hgrants

end Sale

section Command

structure Purchased (eventIds : ℕ → ℕ) (sha256 : String → String) (S : StoreState)
    (m : PurchaseMoment) (call : PurchaseCall) (config : StorePolicyConfig) (price debit : ℤ)
    (L : LedgerState) (result : PurchaseResult) (S' : StoreState) : Prop where
  validated : validatePurchase sha256 S m call = .ok (config, price)
  priced : ∃ discounted, config.calculateDebit price call.quantity = .ok (debit, discounted)
  funded : fundPurchase sha256 S m call debit = .ok L
  granted : grantPurchase eventIds m call config { S with ledger := L } =
    .ok (result.entitlementIds, S')
  result_eq : result = {
    success := true
    correlationId := call.correlationId
    quantityGranted := call.quantity
    entitlementIds := result.entitlementIds
    productId := some config.productId }

theorem purchase_ok {result : PurchaseResult}
    (h : purchase eventIds sha256 S m call = .ok (result, S')) :
    ∃ config price debit L, Purchased eventIds sha256 S m call config price debit L result S' := by
  simp only [purchase, bind_eq_ok, raising_eq_ok, Prod.exists, pure_eq_ok, Prod.mk.injEq] at h
  obtain ⟨config, price, hvalid, debit, discounted, hdebit, L, hfund, units, S₁, hgrant, rfl, rfl⟩ := h
  exact ⟨config, price, debit, L, hvalid, ⟨discounted, hdebit⟩, hfund, hgrant, rfl⟩

structure Admitted (S : StoreState) (call : PurchaseCall) : Prop where
  context : call.ctx.classId ≠ "" ∧ call.ctx.seatId ≠ 0
  seat : (S.seat call.ctx.seatId call.ctx.classId).isSome
  quantity : 0 < call.quantity

/-- How a call ends that makes no purchase: it is refused, or it was made before. -/
def NotMade (sha256 : String → String) (S : StoreState) (call : PurchaseCall)
    (result : PurchaseResult) : Prop :=
  result.success = false ∨ Admitted S call ∧ replayPurchase sha256 S call = .ok (some result)

structure Validated (sha256 : String → String) (S : StoreState) (m : PurchaseMoment)
    (call : PurchaseCall) (config : StorePolicyConfig) (price : ℤ) : Prop where
  admitted : Admitted S call
  noReplay : replayPurchase sha256 S call = .ok none
  resolved : S.resolveStoreItem m.now call.policyUuid = some config
  configClass : config.classId = call.ctx.classId
  priced : config.price = some price
  typed : config.entitlementType ≠ .insurance
  held : S.exceededHoldingLimit call.ctx.classId call.ctx.seatId (some config.productId)
    config.entitlementType config.holdingLimit call.quantity = none

theorem validatePurchase_ok {price : ℤ}
    (h : validatePurchase sha256 S m call = .ok (config, price)) :
    Validated sha256 S m call config price := by
  simp only [validatePurchase, require_bind_eq_ok, demand_bind_eq_ok] at h
  obtain ⟨hcontext, seat, hseat, hquantity, h⟩ := h
  have hadmitted : Admitted S call := ⟨hcontext, by simp [hseat], hquantity⟩
  rw [bind_eq_ok] at h
  obtain ⟨replay, hreplay, h⟩ := h
  cases replay with
  | some result => cases h
  | none =>
    simp only [bind_eq_ok, demand_eq_ok, pure_eq_ok, Prod.mk.injEq] at h
    obtain ⟨c, hresolved, p, hpolicy, u, hholding, rfl, rfl⟩ := h
    simp only [checkPolicy, require_bind_eq_ok, demand_bind_eq_ok, pure_eq_ok] at hpolicy
    obtain ⟨hscope, -, -, -, p, hprice, htype, -, -, -, rfl⟩ := hpolicy
    refine ⟨hadmitted, raising_eq_ok.1 hreplay, hresolved, hscope, hprice, htype, ?_⟩
    unfold checkHolding at hholding
    split at hholding
    · cases hholding
    · assumption

theorem validatePurchase_stops : Rejects (fun stop ↦ ∀ result, stop = .returned result →
    NotMade sha256 S call result) (validatePurchase sha256 S m call) := by
  have hrefused : ∀ correlationId code message (result : PurchaseResult),
      refused correlationId code message = .returned result →
        NotMade sha256 S call result := by
    rintro correlationId code message result h
    rw [refused, PurchaseStop.returned.injEq] at h
    rw [← h]
    exact .inl rfl
  unfold validatePurchase
  refine .bind_ok (.require (hrefused _ _ _)) fun _ hcontext ↦
    .bind_ok (.demand (hrefused _ _ _)) fun seat hseat ↦
    .bind_ok (.require (hrefused _ _ _)) fun _ hquantity ↦ .bind_ok ?_ fun replay hreplay ↦ ?_
  · intro stop hstop result hresult
    cases hr : replayPurchase sha256 S call with
    | error e =>
      rw [hr] at hstop
      cases hstop
      cases hresult
    | ok r =>
      rw [hr] at hstop
      cases hstop
  · cases replay with
    | some result =>
      refine .error fun r hr ↦ ?_
      cases hr
      have hfound := demand_eq_ok.1 hseat
      exact .inr ⟨⟨require_eq_ok.1 hcontext, by simp [hfound], require_eq_ok.1 hquantity⟩,
        raising_eq_ok.1 hreplay⟩
    | none =>
      refine .bind (.demand (hrefused _ _ _)) fun c ↦ .bind ?_ fun _ ↦ .bind ?_ fun _ ↦ .ok _
      · unfold checkPolicy
        refine .bind (.require (hrefused _ _ _)) fun _ ↦ .bind (.require (hrefused _ _ _)) fun _ ↦
          .bind (.require (hrefused _ _ _)) fun _ ↦ .bind (.require (hrefused _ _ _)) fun _ ↦
          .bind (.demand (hrefused _ _ _)) fun _ ↦ .bind (.require (hrefused _ _ _)) fun _ ↦
          .bind (.require (hrefused _ _ _)) fun _ ↦ .bind (.require (hrefused _ _ _)) fun _ ↦
          .bind (.require (hrefused _ _ _)) fun _ ↦ .ok _
      · unfold checkHolding
        split
        · unfold holdingRefusal
          split_ifs
          · exact .error (hrefused _ _ _)
          · exact .error (hrefused _ _ _)
        · exact .ok _

theorem raising_stops {α : Type} {P : PurchaseResult → Prop} (x : Except Raise α) :
    Rejects (fun stop ↦ ∀ result, stop = .returned result → P result) (raising x) := by
  intro stop hstop result hresult
  cases x with
  | error e =>
    cases hstop
    cases hresult
  | ok a => cases hstop

theorem purchase_stops : Rejects (fun stop ↦ ∀ result, stop = .returned result →
    NotMade sha256 S call result) (purchase eventIds sha256 S m call) := by
  unfold purchase
  refine .bind validatePurchase_stops fun _ ↦ .bind (raising_stops _) fun _ ↦
    .bind ?_ fun _ ↦ .bind (raising_stops _) fun _ ↦ .ok _
  unfold fundPurchase
  refine .bind (raising_stops _) fun _ ↦ .bind (raising_stops _) fun _ ↦
    .bind (.require ?_) fun _ ↦ .bind (raising_stops _) fun _ ↦ .ok _
  intro result hresult
  rw [refused, PurchaseStop.returned.injEq] at hresult
  rw [← hresult]
  exact .inl rfl

theorem executeStorePurchase_ok {result : PurchaseResult}
    (h : executeStorePurchase eventIds sha256 S m call = .ok (result, S')) :
    (S' = S ∧ NotMade sha256 S call result) ∨
      ∃ config price debit L,
        Purchased eventIds sha256 S m call config price debit L result S' := by
  unfold executeStorePurchase at h
  split at h
  · next done hdone =>
    cases h
    exact .inr (purchase_ok hdone)
  · next r hstop =>
    cases h
    exact .inl ⟨rfl, purchase_stops _ hstop _ rfl⟩
  · cases h

theorem executeStorePurchase_moves (hi : LineageInvariant S.lineages) {result : PurchaseResult}
    (h : executeStorePurchase eventIds sha256 S m call = .ok (result, S')) : Moves S S' := by
  rcases executeStorePurchase_ok h with ⟨rfl, -⟩ | ⟨config, price, debit, L, hbought⟩
  · exact .refl
  · exact grantPurchase_moves (S := { S with ledger := L }) hi hbought.granted

end Command

section Samples

def sampleProduct (price : ℤ) (itemType : ItemType) (inventoryTotal : Option ℤ) : StoreProduct where
  policyUuid := "p"
  productLineageUuid := "l"
  classId := "c"
  name := "n"
  price := some price
  itemType := itemType
  inventoryTotal := inventoryTotal
  holdingLimit := none
  directPurchaseAllowed := true
  availableWithOverdueObligations := false
  activationAt := none
  bulkDiscountEnabled := false
  bulkDiscountQuantity := none
  bulkDiscountPercentage := none
  collectiveGoalType := some .fixed
  collectiveGoalTarget := some 5
  collectiveGoalExpiresAt := some 100
  availabilityState := .inUse
  createdAt := 0
  lineage_ne_empty := by decide

def sampleCredit : Effect where
  seatId := 1
  classId := "c"
  targetSeatId := 1
  actorSeatId := 2
  mechanism := "teacher"
  amount := some (.ofCents 10000)
  accountType := "checking"
  type := some "manual_payment"

def sampleLedger : LedgerState :=
  (run (recoveryStep id) (.empty fun _ ↦ some "c")
    [.create ⟨"FEAT-LED-001", "corr_0", 0⟩ none sampleCredit]).ledger

theorem sampleLedger_sound : LedgerSound id sampleLedger :=
  ((RecoveryInvariant.empty _).run _).ledger

/-- A student with a hundred dollars, a teacher, and one product. -/
def sampleStore (product : StoreProduct) : StoreState where
  seats := [⟨1, "c", "student", some 0, some 7⟩, ⟨2, "c", "teacher", some 0, some 8⟩]
  sessions := []
  entitlementEvents := []
  pendingActions := []
  hallPassLogs := []
  hallPassSettings := []
  ledger := sampleLedger
  storeProducts := [product]
  uuids := 0

def sampleMoment : PurchaseMoment := ⟨10, none, ⟨"c", none, false⟩⟩

def samplePurchase (quantity : ℤ) (key : Option String) (correlationId : String) : PurchaseCall :=
  ⟨⟨"c", 1⟩, "p", quantity, correlationId, key⟩

end Samples

end TokenHub.Store
