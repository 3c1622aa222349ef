import TokenHub.Store.LineageRuns
import TokenHub.Store.PurchaseCharge

set_option autoImplicit false

namespace TokenHub.Store

open Ledger Attendance Lib.Checks Lib.Runs
open Rent (Instant AcquisitionType EntitlementEventType)

variable {env : StoreEnv} {S S' : StoreState} {a : StoreStep} {classId lineage : String}

def StoreAction.movesStock : StoreAction → Bool
  | .purchase _ _ => true
  | .voidTransaction _ => true
  | .resolveIssue _ => true
  | _ => false

/-- The purchase whose units a command takes back. A refund leaves them. -/
def StoreAction.reversedPurchase (S : StoreState) : StoreAction → Option Transaction
  | .voidTransaction call =>
    (S.ledger.transactions.find? (·.id = call.transactionId)).filter (·.type = some .purchase)
  | .resolveIssue call =>
    if call.action = .reverseTransaction then
      (S.ledger.transactions.find? (·.id = call.transactionId)).filter (·.type = some .purchase)
    else none
  | _ => none

/-- The policy of a purchase that passes every guard: its validation, its price, its funding. -/
def admittedPolicy (sha256 : String → String) (S : StoreState) (m : PurchaseMoment)
    (call : PurchaseCall) : Option StorePolicyConfig :=
  (validatePurchase sha256 S m call).toOption.bind (fun (config, price) ↦
    (config.calculateDebit price call.quantity).toOption.bind (fun (debit, _) ↦
      (fundPurchase sha256 S m call debit).toOption.map (fun _ ↦ config)))

/-- A purchase of the lineage that passes the guards asks for no more than is left, and any
purchase that passes them runs under a correlation that is new to its seat. -/
def AsksInStock (env : StoreEnv) (classId lineage : String) (total : ℤ) (S : StoreState) :
    StoreStep → Prop
  | (_, .purchase m call) => (admittedPolicy env.sha256 S m call).all (fun config ↦
      (call.ctx.classId = classId → config.productId = lineage →
        S.unitsSold classId lineage + call.quantity ≤ total) ∧
      S.purchaseGrants call.ctx.classId call.ctx.seatId call.correlationId = []) = true
  | _ => True

instance (total : ℤ) (S : StoreState) (a : StoreStep) :
    Decidable (AsksInStock env classId lineage total S a) := by
  unfold AsksInStock
  split <;> infer_instance

section Tally

def EntitlementEvent.isPurchaseRow (classId lineage : String) (eventType : EntitlementEventType)
    (e : EntitlementEvent) : Bool :=
  decide (e.classId = classId ∧ e.productId = some lineage ∧ e.eventType = eventType ∧
    e.acquisitionType = .purchase)

theorem length_purchaseRows_append {T : EntitlementTables} {rows : List EntitlementEvent}
    (eventType : EntitlementEventType) :
    (({ T with entitlementEvents := T.entitlementEvents ++ rows } :
      EntitlementTables).purchaseRows classId lineage eventType).length =
      (T.purchaseRows classId lineage eventType).length +
        (rows.filter (·.isPurchaseRow classId lineage eventType)).length := by
  rw [EntitlementTables.purchaseRows, EntitlementTables.purchaseRows, List.filter_append,
    List.length_append]
  rfl

theorem length_filter_of_all {rows : List EntitlementEvent} {p : EntitlementEvent → Bool}
    {b : Bool} (h : ∀ e ∈ rows, p e = b) :
    (rows.filter p).length = if b then rows.length else 0 := by
  cases b with
  | true => rw [List.filter_eq_self.2 h, if_pos rfl]
  | false =>
    rw [List.filter_eq_nil_iff.2 (fun e he ↦ by simp [h e he])]
    rfl

def ofLineage (classId lineage : String) (call : PurchaseCall) (config : StorePolicyConfig) : Bool :=
  decide (call.ctx.classId = classId ∧ config.productId = lineage)

theorem Granted.unitsSold {eventIds : ℕ → ℕ} {m : PurchaseMoment} {call : PurchaseCall}
    {config : StorePolicyConfig} {units : List ℕ}
    (h : Granted eventIds S m call config units S') (classId lineage : String) :
    (S'.purchaseRows classId lineage .granted).length =
        (S.purchaseRows classId lineage .granted).length +
          (if ofLineage classId lineage call config then call.quantity.toNat else 0) ∧
      (S'.purchaseRows classId lineage .revoked).length =
        (S.purchaseRows classId lineage .revoked).length := by
  obtain ⟨rest, pending, uuids, rfl, hrest⟩ := h.state
  have hunits : ∀ e ∈ unitRows eventIds S (purchaseRow m call config .granted)
      call.quantity.toNat, e.isPurchaseRow classId lineage .granted =
        ofLineage classId lineage call config := by
    intro e he
    obtain ⟨k, -, rfl⟩ := mem_unitRows he
    simp [EntitlementEvent.isPurchaseRow, purchaseRow, ofLineage]
  have hunits' : ∀ e ∈ unitRows eventIds S (purchaseRow m call config .granted)
      call.quantity.toNat, e.isPurchaseRow classId lineage .revoked = false := by
    intro e he
    obtain ⟨k, -, rfl⟩ := mem_unitRows he
    simp [EntitlementEvent.isPurchaseRow, purchaseRow]
  have hconsumed : ∀ eventType, eventType ≠ .consumed →
      ∀ e ∈ rest, e.isPurchaseRow classId lineage eventType = false := by
    intro eventType hne e he
    obtain ⟨i, n, rfl⟩ := hrest e he
    simp [EntitlementEvent.isPurchaseRow, purchaseRow, hne.symm]
  refine ⟨(length_purchaseRows_append _).trans ?_, (length_purchaseRows_append _).trans ?_⟩
  · rw [List.filter_append, List.length_append, length_filter_of_all hunits,
      length_filter_of_all (hconsumed .granted (by decide))]
    simp [unitRows]
  · rw [List.filter_append, List.length_append, length_filter_of_all hunits',
      length_filter_of_all (hconsumed .revoked (by decide))]
    simp

/-- The units that a purchase's correlation bears, of one lineage. -/
def EntitlementTables.unitsOf (T : EntitlementTables) (lineage : String) (t : Transaction) : ℕ :=
  ((T.purchaseGrants t.classId t.seatId t.correlationId).filter
    (·.productId = some lineage)).length

theorem length_filter_forall₂ {α β : Type} {R : α → β → Prop} {p : α → Bool} {q : β → Bool}
    {as : List α} {bs : List β} (h : List.Forall₂ R as bs) (hpq : ∀ a b, R a b → p a = q b) :
    (as.filter p).length = (bs.filter q).length := by
  induction h with
  | nil => rfl
  | cons hab _ ih =>
    rw [List.filter_cons, List.filter_cons, hpq _ _ hab]
    split_ifs
    · rw [List.length_cons, List.length_cons, ih]
    · exact ih

theorem revokeReversedPurchase_unitsSold {eventIds : ℕ → ℕ} {sha256 : String → String}
    {now : Instant} {feat : FeatContext} {t : Transaction} {grants : List EntitlementEvent}
    {actor : ℕ} {L : LedgerState} (helig : Eligible S t grants)
    (h : revokeReversedPurchase eventIds sha256 { S with ledger := L } now feat t grants actor =
      .ok S') (classId lineage : String) :
    (S'.purchaseRows classId lineage .granted).length =
        (S.purchaseRows classId lineage .granted).length ∧
      (S'.purchaseRows classId lineage .revoked).length =
        (S.purchaseRows classId lineage .revoked).length +
          (if t.classId = classId then S.unitsOf lineage t else 0) ∧
      S'.storeProducts = S.storeProducts ∧ S'.grantedRows = S.grantedRows := by
  obtain ⟨S₁, rows, L', hend, -, rfl⟩ := revokeReversedPurchase_ok h
  obtain ⟨revoked, rfl, hrevoked⟩ := revokeEach_rows hend
  rw [List.forall₂_map_left_iff] at hrevoked
  have hkinds : ∀ eventType, eventType ≠ .revoked →
      ∀ e ∈ revoked, e.isPurchaseRow classId lineage eventType = false := by
    intro eventType hne e he
    obtain ⟨g, -, hrow⟩ := forall₂_exists_left hrevoked he
    rw [hrow]
    simp [EntitlementEvent.isPurchaseRow, EndingRequest.row, hne.symm]
  have hcount : (revoked.filter (·.isPurchaseRow classId lineage .revoked)).length =
      if t.classId = classId then S.unitsOf lineage t else 0 := by
    have hpairs := length_filter_forall₂ (p := fun g : EntitlementEvent ↦
      decide (g.classId = classId ∧ g.productId = some lineage ∧ g.acquisitionType = .purchase))
      (q := (·.isPurchaseRow classId lineage .revoked)) hrevoked (fun g e hrow ↦ by
        rw [hrow]
        simp [EntitlementEvent.isPurchaseRow, EndingRequest.row, EntitlementEvent.ending])
    rw [← hpairs]
    have hperm : grants.Perm (S.purchaseGrants t.classId t.seatId t.correlationId) := by
      rw [helig.grants_eq]
      exact List.perm_insertionSort _ _
    split_ifs with hclass
    · rw [EntitlementTables.unitsOf, ← (hperm.filter _).length_eq]
      refine congrArg List.length (List.filter_congr (fun g hg ↦ ?_))
      obtain ⟨-, hgclass, -, -, hacquired⟩ := helig.mem hg
      simp [hgclass, hclass, hacquired]
    · rw [List.length_eq_zero_iff, List.filter_eq_nil_iff]
      intro g hg hmatch
      obtain ⟨-, hgclass, -⟩ := helig.mem hg
      rw [decide_eq_true_eq] at hmatch
      exact hclass (hgclass.symm.trans hmatch.1)
  refine ⟨(length_purchaseRows_append _).trans ?_, (length_purchaseRows_append _).trans ?_, rfl, ?_⟩
  · rw [length_filter_of_all (hkinds .granted (by decide))]
    simp
  · rw [hcount]
  · have hnone : revoked.filter (·.eventType = .granted) = [] := by
      rw [List.filter_eq_nil_iff]
      intro e he
      obtain ⟨g, -, hrow⟩ := forall₂_exists_left hrevoked he
      rw [hrow]
      simp [EndingRequest.row]
    show (S.entitlementEvents ++ revoked).filter _ = S.entitlementEvents.filter _
    rw [List.filter_append, hnone, List.append_nil]

/-- An eligible purchase's units and the revoked ones are granted ones, each its own. -/
theorem LineageInvariant.unitsOf_le (h : LineageInvariant S.lineages) {t : Transaction}
    {grants : List EntitlementEvent} (helig : Eligible S t grants) (lineage : String) :
    (S.purchaseRows t.classId lineage .revoked).length + S.unitsOf lineage t ≤
      (S.purchaseRows t.classId lineage .granted).length := by
  have hrevoked : ∀ e ∈ S.purchaseRows t.classId lineage .revoked, e ∈ S.terminalRows ∧
      e.classId = t.classId ∧ e.productId = some lineage ∧ e.acquisitionType = .purchase := by
    intro e he
    rw [EntitlementTables.purchaseRows, List.mem_filter, decide_eq_true_eq] at he
    obtain ⟨hmem, hclass, hproduct, htype, hacquired⟩ := he
    exact ⟨List.mem_filter.2 ⟨hmem, isTerminal_iff.2 (by rw [htype]; decide)⟩, hclass, hproduct,
      hacquired⟩
  have hunits : ∀ g ∈ (S.purchaseGrants t.classId t.seatId t.correlationId).filter
      (·.productId = some lineage), g ∈ grants ∧ g.productId = some lineage := by
    intro g hg
    obtain ⟨hmem, hproduct⟩ := List.mem_filter.1 hg
    refine ⟨?_, by simpa using hproduct⟩
    rw [helig.grants_eq, List.mem_insertionSort]
    exact hmem
  have hsubset : ((S.purchaseRows t.classId lineage .revoked).map (·.entitlementId) ++
      ((S.purchaseGrants t.classId t.seatId t.correlationId).filter
        (·.productId = some lineage)).map (·.entitlementId)) ⊆
      (S.purchaseRows t.classId lineage .granted).map (·.entitlementId) := by
    intro i hi
    have hgranted : ∀ g ∈ S.grantedRows, g.classId = t.classId → g.productId = some lineage →
        g.acquisitionType = .purchase →
        g.entitlementId ∈ (S.purchaseRows t.classId lineage .granted).map (·.entitlementId) := by
      intro g hg hclass hproduct hacquired
      obtain ⟨hmem, htype⟩ := List.mem_filter.1 hg
      rw [decide_eq_true_eq] at htype
      refine List.mem_map_of_mem (List.mem_filter.2 ⟨hmem, ?_⟩)
      exact decide_eq_true ⟨hclass, hproduct, htype, hacquired⟩
    rcases List.mem_append.1 hi with hi | hi
    · obtain ⟨e, he, rfl⟩ := List.mem_map.1 hi
      obtain ⟨hterminal, hclass, hproduct, hacquired⟩ := hrevoked e he
      obtain ⟨g, hg, hends⟩ := h.endsOf e hterminal
      rw [hends.entitlementId]
      exact hgranted g hg (hends.classId.symm.trans hclass) (hends.productId.symm.trans hproduct)
        (hends.acquisitionType.symm.trans hacquired)
    · obtain ⟨g, hg, rfl⟩ := List.mem_map.1 hi
      obtain ⟨hmem, hproduct⟩ := hunits g hg
      obtain ⟨hrow, hclass, -, -, hacquired⟩ := helig.mem hmem
      exact hgranted g hrow hclass hproduct hacquired
  have hnodup : ((S.purchaseRows t.classId lineage .revoked).map (·.entitlementId) ++
      ((S.purchaseGrants t.classId t.seatId t.correlationId).filter
        (·.productId = some lineage)).map (·.entitlementId)).Nodup := by
    refine List.nodup_append.2 ⟨?_, ?_, ?_⟩
    · refine h.endsUnique.sublist (List.Sublist.map _ ?_)
      show List.Sublist (S.entitlementEvents.filter _) (S.entitlementEvents.filter _)
      refine List.monotone_filter_right _ (fun e he ↦ ?_)
      rw [decide_eq_true_eq] at he
      exact isTerminal_iff.2 (by rw [he.2.2.1]; decide)
    · refine h.grantsUnique.sublist (List.Sublist.map _ (List.filter_sublist.trans ?_))
      show List.Sublist (S.entitlementEvents.filter _) (S.entitlementEvents.filter _)
      refine List.monotone_filter_right _ (fun e he ↦ ?_)
      simp only [decide_eq_true_eq] at he ⊢
      exact he.2.2.2.1
    · intro i hi j hj heq
      subst heq
      obtain ⟨e, he, rfl⟩ := List.mem_map.1 hi
      obtain ⟨g, hg, hsame⟩ := List.mem_map.1 hj
      obtain ⟨hmem, -⟩ := hunits g hg
      obtain ⟨hterminal, hclass, -⟩ := hrevoked e he
      have hopen := helig.notEnded g hmem
      rw [hsame, ended_false_iff] at hopen
      exact hopen.1 e hterminal hclass rfl
  have hle := (List.subperm_of_subset hnodup hsubset).length_le
  rwa [List.length_append, List.length_map, List.length_map, List.length_map] at hle

end Tally

section Steps

inductive StockEffect (env : StoreEnv) (S : StoreState) (a : StoreStep) (S' : StoreState) : Prop
  | kept (hnamed : a.2.reversedPurchase S = none)
      (hrows : S'.entitlementEvents = S.entitlementEvents)
      (hproducts : S'.storeProducts = S.storeProducts)
  | sold (m : PurchaseMoment) (call : PurchaseCall) (config : StorePolicyConfig) (L : LedgerState)
      (units : List ℕ) (hcall : a.2 = .purchase m call)
      (hadmitted : admittedPolicy env.sha256 S m call = some config) (hpos : 0 < call.quantity)
      (hgranted : Granted env.eventIds { S with ledger := L } m call config units S')
  | returned (t : Transaction) (grants : List EntitlementEvent) (feat : FeatContext) (actor : ℕ)
      (L L' : LedgerState) (S₁ : StoreState) (hnamed : a.2.reversedPurchase S = some t)
      (heligible : Eligible S t grants)
      (hrevoked : revokeReversedPurchase env.eventIds env.sha256 { S with ledger := L } a.1 feat t
        grants actor = .ok S₁) (hstate : S' = { S₁ with ledger := L' })

theorem Purchased.admitted {eventIds : ℕ → ℕ} {sha256 : String → String} {m : PurchaseMoment}
    {call : PurchaseCall} {config : StorePolicyConfig} {price debit : ℤ} {L : LedgerState}
    {result : PurchaseResult}
    (h : Purchased eventIds sha256 S m call config price debit L result S') :
    admittedPolicy sha256 S m call = some config := by
  obtain ⟨discounted, hpriced⟩ := h.priced
  simp [admittedPolicy, h.validated, hpriced, h.funded, Except.toOption]

theorem perform_stock (hstock : a.2.movesStock = true) (h : perform env S a = .ok S') :
    StockEffect env S a S' := by
  obtain ⟨now, action⟩ := a
  cases action with
  | purchase m call =>
    obtain ⟨⟨result, S₁⟩, hbought, rfl⟩ := map_eq_ok.1 h
    rcases executeStorePurchase_ok hbought with ⟨rfl, -⟩ | ⟨config, price, debit, L, hbought⟩
    · exact .kept rfl rfl rfl
    · exact .sold m call config L _ rfl hbought.admitted
        (validatePurchase_ok hbought.validated).admitted.quantity (grantPurchase_ok hbought.granted)
  | voidTransaction call =>
    obtain ⟨⟨row, S₁⟩, hvoided, rfl⟩ := map_eq_ok.1 h
    obtain ⟨t, hnamed, S₂, L, q, -, rfl, -, -, -, hcase⟩ := executeVoidTransaction_ok hvoided
    rcases hcase with ⟨htype, rfl⟩ | ⟨grants, helig, hrevoke⟩
    · exact .kept (by simp [StoreAction.reversedPurchase, hnamed, htype]) rfl rfl
    · exact .returned t grants _ _ S.ledger L S₂
        (by simp [StoreAction.reversedPurchase, hnamed, helig.type]) helig hrevoke rfl
  | resolveIssue call =>
    obtain ⟨⟨row, S₁⟩, hresolved, rfl⟩ := map_eq_ok.1 h
    obtain ⟨t, hnamed, grants, helig, L, q, -, -, -, -, hcase⟩ := resolveIssue_ok hresolved
    rcases hcase with ⟨haction, rfl⟩ | ⟨haction, hrevoke⟩
    · exact .kept (by simp [StoreAction.reversedPurchase, haction]) rfl rfl
    · exact .returned t grants _ _ L S₁.ledger S₁
        (by simp [StoreAction.reversedPurchase, haction, hnamed, helig.type]) helig hrevoke rfl
  | _ => cases hstock

variable {total : ℤ} {m : PurchaseMoment} {call : PurchaseCall} {config : StorePolicyConfig}

theorem AsksInStock.sold (h : AsksInStock env classId lineage total S a)
    (hcall : a.2 = .purchase m call) (hadmitted : admittedPolicy env.sha256 S m call = some config) :
    (call.ctx.classId = classId → config.productId = lineage →
        S.unitsSold classId lineage + call.quantity ≤ total) ∧
      S.purchaseGrants call.ctx.classId call.ctx.seatId call.correlationId = [] := by
  obtain ⟨now, action⟩ := a
  obtain rfl : action = .purchase m call := hcall
  have hasks := h
  rw [AsksInStock, hadmitted, Option.all_some, decide_eq_true_eq] at hasks
  exact hasks

theorem Granted.purchaseGrants {eventIds : ℕ → ℕ} {units : List ℕ}
    (h : Granted eventIds S m call config units S') (classId : String) (seatId : ℕ)
    (correlationId : String) :
    S'.purchaseGrants classId seatId correlationId =
      S.purchaseGrants classId seatId correlationId ++
        if call.ctx.classId = classId ∧ call.ctx.seatId = seatId ∧
          call.correlationId = correlationId then
          unitRows eventIds S (purchaseRow m call config .granted) call.quantity.toNat
        else [] := by
  rw [purchaseGrants_eq, purchaseGrants_eq, h.grantedRows, List.filter_append]
  congr 1
  split_ifs with hsame
  · obtain ⟨rfl, rfl, rfl⟩ := hsame
    refine List.filter_eq_self.2 (fun e he ↦ ?_)
    obtain ⟨k, -, rfl⟩ := mem_unitRows he
    simp [purchaseRow]
  · refine List.filter_eq_nil_iff.2 (fun e he ↦ ?_)
    obtain ⟨k, -, rfl⟩ := mem_unitRows he
    simpa [purchaseRow] using hsame

/-- What it did to the two counts behind the units sold, and to the products. -/
theorem StockEffect.counts (h : StockEffect env S a S') (classId lineage : String) :
    S'.storeProducts = S.storeProducts ∧
      (S.purchaseRows classId lineage .revoked).length ≤
        (S'.purchaseRows classId lineage .revoked).length ∧
      ((S'.purchaseRows classId lineage .granted).length =
          (S.purchaseRows classId lineage .granted).length ∨
        ∃ m call config, a.2 = .purchase m call ∧
          admittedPolicy env.sha256 S m call = some config ∧ 0 < call.quantity ∧
          call.ctx.classId = classId ∧ config.productId = lineage ∧
          (S'.purchaseRows classId lineage .granted).length =
            (S.purchaseRows classId lineage .granted).length + call.quantity.toNat) := by
  cases h with
  | kept _ hrows hproducts =>
    refine ⟨hproducts, ?_, .inl ?_⟩
    · rw [EntitlementTables.purchaseRows, EntitlementTables.purchaseRows, hrows]
    · rw [EntitlementTables.purchaseRows, EntitlementTables.purchaseRows, hrows]
  | sold m call config L units hcall hadmitted hpos hgranted =>
    obtain ⟨hgrants, hrevoked⟩ := hgranted.unitsSold classId lineage
    refine ⟨?_, hrevoked.ge, ?_⟩
    · obtain ⟨rest, pending, uuids, rfl, -⟩ := hgranted.state
      rfl
    · by_cases hof : ofLineage classId lineage call config = true
      · rw [if_pos hof] at hgrants
        obtain ⟨hclass, hlineage⟩ := of_decide_eq_true hof
        exact .inr ⟨m, call, config, hcall, hadmitted, hpos, hclass, hlineage, hgrants⟩
      · rw [if_neg hof] at hgrants
        exact .inl hgrants
  | returned t grants feat actor L L' S₁ _ heligible hrevoked hstate =>
    obtain ⟨hgrants, hends, hproducts, -⟩ := revokeReversedPurchase_unitsSold
      heligible hrevoked classId lineage
    rw [hstate]
    exact ⟨hproducts, by rw [hends]; exact Nat.le_add_right _ _, .inl hgrants⟩

theorem StockEffect.unitsSold_le (h : StockEffect env S a S')
    (hmeets : AsksInStock env classId lineage total S a)
    (hle : (S.unitsSold classId lineage : ℤ) ≤ total) :
    (S'.unitsSold classId lineage : ℤ) ≤ total := by
  obtain ⟨-, hrevoked, hgranted⟩ := h.counts classId lineage
  simp only [EntitlementTables.unitsSold] at hle ⊢
  rcases hgranted with hgranted | ⟨m, call, config, hcall, hadmitted, hpos, hclass, hlineage, hgranted⟩
  · omega
  · have hasks := (hmeets.sold hcall hadmitted).1 hclass hlineage
    simp only [EntitlementTables.unitsSold] at hasks
    omega

theorem StockEffect.purchaseGrants (h : StockEffect env S a S')
    (hmeets : AsksInStock env classId lineage total S a) {cls correlationId : String} {seatId : ℕ}
    (hmade : S.purchaseGrants cls seatId correlationId ≠ []) :
    S'.purchaseGrants cls seatId correlationId = S.purchaseGrants cls seatId correlationId := by
  cases h with
  | kept _ hrows _ => rw [EntitlementTables.purchaseGrants, EntitlementTables.purchaseGrants, hrows]
  | sold m call config L units hcall hadmitted hpos hgranted =>
    refine (hgranted.purchaseGrants cls seatId correlationId).trans ?_
    rw [if_neg, List.append_nil]
    rintro ⟨rfl, rfl, rfl⟩
    exact hmade (hmeets.sold hcall hadmitted).2
  | returned t grants feat actor L L' S₁ _ heligible hrevoked hstate =>
    obtain ⟨-, -, -, hgranted⟩ := revokeReversedPurchase_unitsSold
      heligible hrevoked classId lineage
    rw [hstate, purchaseGrants_eq, purchaseGrants_eq]
    exact congrArg _ hgranted

/-- What a purchase took, its reversal gives back. -/
theorem StockEffect.returns (h : StockEffect env S a S') (hi : LineageInvariant S.lineages)
    {t : Transaction} (hnamed : a.2.reversedPurchase S = some t) (lineage : String) :
    S'.unitsSold t.classId lineage + S.unitsOf lineage t = S.unitsSold t.classId lineage := by
  cases h with
  | kept hnone => rw [hnone] at hnamed; cases hnamed
  | sold m call config L units hcall =>
    rw [hcall] at hnamed
    cases hnamed
  | returned t' grants feat actor L L' S₁ hnamed' heligible hrevoked hstate =>
    obtain rfl : t' = t := Option.some.inj (hnamed'.symm.trans hnamed)
    obtain ⟨hgrants, hends, -, -⟩ := revokeReversedPurchase_unitsSold
      heligible hrevoked t'.classId lineage
    rw [if_pos rfl] at hends
    have hle := hi.unitsOf_le heligible lineage
    have hunits : ({ S with ledger := L } : StoreState).unitsOf lineage t' = S.unitsOf lineage t' := rfl
    rw [hstate]
    simp only [EntitlementTables.unitsSold] at hends hgrants ⊢
    omega

end Steps

section Runs

/-- What a run of purchases and reversals keeps of a lineage. -/
structure Stocked (S₀ : StoreState) (classId lineage : String) (total : ℤ) (S : StoreState) :
    Prop where
  lineages : LineageInvariant S.lineages
  sold_le : (S.unitsSold classId lineage : ℤ) ≤ total
  storeProducts : S.storeProducts = S₀.storeProducts

variable {S₀ : StoreState} {total : ℤ}

theorem storeStep_stock (env : StoreEnv) (S : StoreState) (hstock : a.2.movesStock = true) :
    storeStep env S a = S ∨ StockEffect env S a (storeStep env S a) := by
  unfold storeStep
  split
  · next S' h => exact .inr (perform_stock hstock h)
  · exact .inl rfl

theorem endsNoWaitingItem_of_movesStock (hstock : a.2.movesStock = true) :
    EndsNoWaitingItem S a.2 := by
  obtain ⟨now, action⟩ := a
  cases action with
  | purchase m call => trivial
  | voidTransaction call => trivial
  | resolveIssue call => trivial
  | _ => cases hstock

theorem Stocked.step (h : Stocked S₀ classId lineage total S)
    (hmeets : AsksInStock env classId lineage total S a) (hstock : a.2.movesStock = true) :
    Stocked S₀ classId lineage total (storeStep env S a) := by
  have hi := h.lineages.effected
    (storeStep_effected h.lineages (endsNoWaitingItem_of_movesStock hstock) :
      Effected env S a _)
  rcases storeStep_stock env S hstock with hsame | heffect
  · rw [hsame]
    exact h
  · refine ⟨hi.1, heffect.unitsSold_le hmeets h.sold_le, ?_⟩
    exact (heffect.counts classId lineage).1.trans h.storeProducts

variable {steps : List StoreStep}

theorem Stocked.run (h : Stocked S₀ classId lineage total S)
    (hmeets : AllAlong (AsksInStock env classId lineage total) (storeStep env) S steps)
    (hstock : ∀ a ∈ steps, a.2.movesStock = true) :
    Stocked S₀ classId lineage total (run (storeStep env) S steps) :=
  (hmeets.and_forall hstock).invariant h (fun _ _ h hmeet ↦ h.step hmeet.1 hmeet.2)

theorem run_keeps_purchaseGrants {cls correlationId : String} {seatId : ℕ}
    (hmeets : AllAlong (AsksInStock env classId lineage total) (storeStep env) S steps)
    (hstock : ∀ a ∈ steps, a.2.movesStock = true)
    (hmade : S.purchaseGrants cls seatId correlationId ≠ []) :
    (run (storeStep env) S steps).purchaseGrants cls seatId correlationId =
      S.purchaseGrants cls seatId correlationId := by
  induction steps generalizing S with
  | nil => rfl
  | cons a steps ih =>
    obtain ⟨hmeet, hmeets⟩ := hmeets
    have hstep : (storeStep env S a).purchaseGrants cls seatId correlationId =
        S.purchaseGrants cls seatId correlationId := by
      rcases storeStep_stock env S (hstock a (by simp)) with hsame | heffect
      · rw [hsame]
      · exact heffect.purchaseGrants hmeet hmade
    have hrest := ih hmeets (fun b hb ↦ hstock b (by simp [hb])) (by rw [hstep]; exact hmade)
    exact hrest.trans hstep

theorem replayPurchase_grants {sha256 : String → String} {call : PurchaseCall}
    {result : PurchaseResult} (h : replayPurchase sha256 S call = .ok (some result)) :
    S.purchaseGrants call.ctx.classId call.ctx.seatId result.correlationId ≠ [] := by
  unfold replayPurchase at h
  split at h
  · cases h
  · rw [bind_eq_ok] at h
    obtain ⟨prior, -, h⟩ := h
    cases prior with
    | none =>
      rw [pure_eq_ok] at h
      cases h
    | some principal =>
      rw [require_bind_eq_ok] at h
      obtain ⟨⟨hgrants, -⟩, h⟩ := h
      rw [pure_eq_ok, Option.some.injEq] at h
      rw [← h]
      exact hgrants

theorem executeStorePurchase_units {m : PurchaseMoment} {call : PurchaseCall}
    {result : PurchaseResult}
    (h : executeStorePurchase env.eventIds env.sha256 S m call = .ok (result, S'))
    (hsuccess : result.success = true) (hcorrelated : result.correlationId = call.correlationId)
    (hnew : S.purchaseGrants call.ctx.classId call.ctx.seatId call.correlationId = []) :
    0 < result.quantityGranted ∧
      (S'.purchaseGrants call.ctx.classId call.ctx.seatId call.correlationId).length =
        result.quantityGranted ∧
      ∀ g ∈ S'.purchaseGrants call.ctx.classId call.ctx.seatId call.correlationId,
        g.productId = result.productId := by
  rcases executeStorePurchase_ok h with ⟨-, hfailed | ⟨-, hreplay⟩⟩ |
    ⟨config, price, debit, L, hbought⟩
  · rw [hfailed] at hsuccess
    cases hsuccess
  · -- a replay names grants, and there are none
    have hgrants := replayPurchase_grants hreplay
    rw [hcorrelated] at hgrants
    exact absurd hnew hgrants
  · have hpos := (validatePurchase_ok hbought.validated).admitted.quantity
    have hgranted := (grantPurchase_ok hbought.granted).purchaseGrants
      call.ctx.classId call.ctx.seatId call.correlationId
    have hnone : ({ S with ledger := L } : StoreState).purchaseGrants call.ctx.classId
      call.ctx.seatId call.correlationId = [] := hnew
    rw [if_pos ⟨rfl, rfl, rfl⟩, hnone, List.nil_append] at hgranted
    rw [hgranted, hbought.result_eq]
    refine ⟨hpos, ?_, fun g hg ↦ ?_⟩
    · rw [unitRows, List.length_map, List.length_range, Int.toNat_of_nonneg hpos.le]
    · obtain ⟨k, -, rfl⟩ := mem_unitRows hg
      rfl

end Runs

section Main

/-- In a run of purchases and reversals in which no accepted purchase asks for more than is left, a
lineage is never oversold, and a reversal takes back the units that its purchase granted. -/
theorem stock_never_oversold (env : StoreEnv) (S₀ : StoreState) (classId lineage : String)
    (total : ℤ) (hi : LineageInvariant S₀.lineages)
    (hversions : ∀ p ∈ S₀.storeProducts, p.classId = classId → p.productLineageUuid = lineage →
      p.inventoryTotal = some total)
    (hstart : (S₀.unitsSold classId lineage : ℤ) ≤ total) (steps : List StoreStep)
    (hstock : ∀ a ∈ steps, a.2.movesStock = true)
    (hmeets : AllAlong (AsksInStock env classId lineage total) (storeStep env) S₀ steps) :
    let S := run (storeStep env) S₀ steps
    (S.unitsSold classId lineage : ℤ) ≤ total ∧
    (∀ p ∈ S.storeProducts, p.classId = classId → p.productLineageUuid = lineage →
      (S.unitsSold classId lineage : ℤ) = total → S.stockRemaining p = some 0) ∧
    ∀ before now m call after result S', steps = before ++ (now, .purchase m call) :: after →
      let B := run (storeStep env) S₀ before
      executeStorePurchase env.eventIds env.sha256 B m call = .ok (result, S') →
      result.success = true → result.correlationId = call.correlationId →
      B.purchaseGrants call.ctx.classId call.ctx.seatId call.correlationId = [] →
      ∀ reversal t R, reversal.2.reversedPurchase S = some t → perform env S reversal = .ok R →
        t.classId = call.ctx.classId → t.seatId = call.ctx.seatId →
        t.correlationId = call.correlationId →
        ∀ l, (R.unitsSold call.ctx.classId l : ℤ) +
            (if result.productId = some l then result.quantityGranted else 0) =
          S.unitsSold call.ctx.classId l := by
  intro S
  have hrun := Stocked.run ⟨hi, hstart, rfl⟩ hmeets hstock
  refine ⟨hrun.sold_le, fun p hp hclass hlineage hsold ↦ ?_, ?_⟩
  · rw [hrun.storeProducts] at hp
    rw [StoreState.stockRemaining, hversions p hp hclass hlineage, hclass, hlineage,
      Option.map_some, hsold]
    simp
  · rintro before now m call after result S' rfl B hcall hsuccess hcorrelated hnew reversal t R hnamed
      hreversed hclass hseat hcorr l
    obtain ⟨hpos, hlength, hproduct⟩ :=
      executeStorePurchase_units hcall hsuccess hcorrelated hnew
    obtain ⟨-, -, hafter⟩ := hmeets.append
    have hstep : storeStep env B (now, .purchase m call) = S' := by
      simp [storeStep, perform, hcall, Except.map]
    have hkept : S.purchaseGrants call.ctx.classId call.ctx.seatId call.correlationId =
        S'.purchaseGrants call.ctx.classId call.ctx.seatId call.correlationId := by
      rw [hstep] at hafter
      have hS : S = run (storeStep env) S' after := by
        show run (storeStep env) S₀ (before ++ _ :: after) = _
        rw [run_append, run_cons, hstep]
      rw [hS]
      refine run_keeps_purchaseGrants hafter (fun b hb ↦ hstock b (by simp [hb])) (fun hnil ↦ ?_)
      rw [hnil, List.length_nil] at hlength
      omega
    have hmoves : reversal.2.movesStock = true := by
      obtain ⟨t₀, action⟩ := reversal
      cases action with
      | voidTransaction call => rfl
      | resolveIssue call => rfl
      | _ => cases hnamed
    have hreturned := (perform_stock hmoves hreversed).returns hrun.lineages hnamed l
    have hunits : (S.unitsOf l t : ℤ) =
        if result.productId = some l then result.quantityGranted else 0 := by
      rw [EntitlementTables.unitsOf, hclass, hseat, hcorr, hkept, ← hlength]
      by_cases hl : result.productId = some l
      · rw [if_pos hl, List.filter_eq_self.2]
        intro g hg
        simp [hproduct g hg, hl]
      · rw [if_neg hl, List.filter_eq_nil_iff.2]
        · rfl
        · intro g hg
          simp [hproduct g hg, hl]
    rw [← hunits, ← hclass]
    exact_mod_cast hreturned

/-- The one unit of a product bought, its purchase voided, and the unit bought again. -/
def resoldUnit : List StoreStep :=
  [(10, .purchase sampleMoment (samplePurchase 1 (some "k") "corr_1")),
    (12, .voidTransaction ⟨2, "corr_2", 2, false, ⟨"c", none, false⟩, ⟨[], fun _ ↦ false⟩⟩),
    (14, .purchase sampleMoment (samplePurchase 1 (some "m") "corr_3"))]

theorem stock_never_oversold_resold :
    ((run (storeStep sampleEnv) (sampleStore (sampleProduct 1000 .delayed (some 1)))
      resoldUnit).unitsSold "c" "l" : ℤ) ≤ 1 :=
  (stock_never_oversold sampleEnv (sampleStore (sampleProduct 1000 .delayed (some 1))) "c" "l" 1
    (.empty rfl rfl rfl) (by decide) (by decide) resoldUnit (by decide) (by decide +kernel)).1

/-- One unit in stock, and two sold. -/
theorem stock_oversold :
    (run (storeStep sampleEnv) (sampleStore (sampleProduct 1000 .delayed (some 1)))
      [(10, .purchase sampleMoment (samplePurchase 1 (some "k") "corr_1")),
        (14, .purchase sampleMoment (samplePurchase 1 (some "m") "corr_3"))]).unitsSold "c" "l" = 2 := by
  decide +kernel

end Main

end TokenHub.Store
