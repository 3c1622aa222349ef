import TokenHub.Insurance.RenewalMoves

set_option autoImplicit false

namespace TokenHub.Insurance

open Ledger Rent Lib.Checks Lib.Tiling

variable {sha256 : String → String} {zones : String → CoverageZone} {bounded : Prop}
  {env : Surroundings} {feat : FeatContext} {S S' : InsuranceState} {now : Instant}
  {res : CoverageResult}

section Purchase

variable {q : PurchaseRequest} {policy : InsurancePolicy} {terms : InsuranceRecurringTerms}

theorem checkPurchase_ok (hok : checkPurchase env S q = .ok (.ok (policy, terms))) :
    getInsuranceDefinition S q.policyUuid q.classId = some policy ∧
      policy.recurringTerms = some terms := by
  unfold checkPurchase at hok
  split at hok
  · cases hok
  · next p hp =>
    split_ifs at hok
    · cases hok
    · cases hok
    · cases hok
    · rw [bind_eq_ok] at hok
      obtain ⟨grouped, -, hok⟩ := hok
      split_ifs at hok
      · cases hok
      · rw [bind_eq_ok] at hok
        obtain ⟨affordable, -, hok⟩ := hok
        split_ifs at hok
        · cases hok
        · split at hok
          · cases hok
          · next t ht =>
            rw [pure_eq_ok, Except.ok.injEq, Prod.mk.injEq] at hok
            obtain ⟨rfl, rfl⟩ := hok
            exact ⟨hp, ht⟩

theorem recurringTerms_eq_some (h : policy.recurringTerms = some terms) :
    policy.Lawful ∧ terms.chargeFrequency = policy.chargeFrequency := by
  unfold InsurancePolicy.recurringTerms at h
  split_ifs at h with hlawful
  rw [Option.some.injEq] at h
  rw [← h]
  exact ⟨hlawful, rfl⟩

def purchaseGrant (S : InsuranceState) (now : Instant) (q : PurchaseRequest) : CoverageEvent where
  classId := q.classId
  targetSeatId := q.seatId
  actorSeatId := q.seatId
  entitlementId := freshEntitlementId S
  acquisitionType := .purchase
  eventType := .granted
  correlationId := q.correlationId
  policyUuid := q.policyUuid
  timestamp := now

def purchasePremium (S : InsuranceState) (now : Instant) (q : PurchaseRequest) :
    ObligationAssessment where
  id := S.assessmentEvents.length + 1
  seatId := q.seatId
  classId := q.classId
  internalRef := premiumLineageRef (freshEntitlementId S)
  correlationId := q.correlationId
  eventType := .assessment
  obligationType := .insurancePremium
  policyUuid := some q.policyUuid
  timestamp := now
  billCycleId := some (S.billCycles.length + 1)

def withPurchase (zones : String → CoverageZone) (S : InsuranceState) (now : Instant)
    (q : PurchaseRequest) (policy : InsurancePolicy) (r : ObligationCommandReservation) :
    InsuranceState :=
  { S with
    coverageEvents := S.coverageEvents ++ [purchaseGrant S now q]
    billCycles := S.billCycles ++ [openedCycle S.toRentState
      (periodTerms zones (purchaseGrant S now q) policy 1 now)]
    successions := S.successions ++ [r]
    assessmentEvents := S.assessmentEvents ++ [purchasePremium S now q] }

theorem purchasePremium_for (S : InsuranceState) :
    PremiumFor (purchaseGrant S now q) (openedCycle S.toRentState
      (periodTerms zones (purchaseGrant S now q) policy 1 now)) (purchasePremium S now q) :=
  ⟨rfl, rfl, rfl, rfl, rfl, rfl, rfl, .inr ⟨rfl, rfl, q.idempotencyKey, rfl⟩⟩

theorem recordPurchase_ok (h : CoverageInvariant sha256 zones bounded S)
    (hprior : priorGrant S q.classId q.seatId q.correlationId = none)
    (hterms : policy.recurringTerms = some terms)
    (hok : recordPurchase sha256 (zones q.classId) env feat S q policy terms = .ok (res, S')) :
    ∃ r debit, feat.canonicalNowUtc <
        periodEnd zones (purchaseGrant S feat.canonicalNowUtc q) policy 1 ∧
      r.idempotencyKey = successionCommandIdentity (freshEntitlementId S) 1 ∧
      settleInsurancePremium sha256 env feat (withPurchase zones S feat.canonicalNowUtc q policy r)
        (q.charge policy.premium) ("insurance-premium:" ++ q.idempotencyKey ++ ":cycle1") =
          .ok (debit, S') := by
  have hfresh := freshEntitlementId_fresh S
  have hnil := h.lineage_eq_nil hfresh
  have hempty : ∀ S₁ : InsuranceState, S₁.billCycles = S.billCycles → ∀ zone classId now,
      getCoverageEligibility S₁ zone classId now (premiumLineageRef (freshEntitlementId S)) =
        .empty := fun S₁ hS₁ zone classId now ↦ getCoverageEligibility_empty (by
    rw [lineage, hS₁, ← lineage, hnil])
  have hend : periodEnd zones (purchaseGrant S feat.canonicalNowUtc q) policy 1 =
      coverageBoundary (zones q.classId).toClassZone
        ((zones q.classId).localDate feat.canonicalNowUtc) terms.chargeFrequency 1 := by
    rw [(recurringTerms_eq_some hterms).2]
    rfl
  obtain ⟨hnew, -⟩ := h.period_fresh (e := freshEntitlementId S) (n := 1) (by simp [hnil])
  simp only [recordPurchase, grantInsuranceEntitlement, hprior, bind_eq_ok, Prod.exists,
    require_eq_ok, pure_eq_ok, Prod.mk.injEq] at hok
  obtain ⟨n, S₁, ⟨-, -, rfl, rfl⟩, c, S₂, hschedule, created, R, hassess, debit, S₃, hsettle, -,
    rfl⟩ := hok
  obtain ⟨number, r, hnumber, hlt, rfl, hkey, rfl⟩ := scheduleCoverageCycle_ok hnew hschedule
  obtain rfl : 1 = number := by simpa [hempty, nextCycleNumber] using hnumber
  obtain rfl : R = _ := by
    refine assessObligation_ok ?_ hassess
    intro e he hass href
    obtain ⟨g, c, hg, -, -, hfor⟩ := h.assessments e he hass
    exact absurd (premiumLineageRef_injective (hfor.internalRef.symm.trans href)) (hfresh g hg.1)
  refine ⟨r, debit, by rw [hend]; exact hlt, hkey, ?_⟩
  rw [withPurchase, openedCycle, periodTerms, hend]
  exact hsettle

theorem purchase_fresh (h : CoverageInvariant sha256 zones bounded S)
    (hprior : priorGrant S q.classId q.seatId q.correlationId = none) {key : String}
    {charge : PremiumCharge} {debit : Transaction} {L : LedgerState} {a : ObligationAssessment}
    {r : ObligationCommandReservation} (hcharge : charge = q.charge policy.premium)
    (hp : PremiumSettled sha256 feat (withPurchase zones S now q policy r) charge key debit L a S') :
    ∀ b ∈ S.assessmentEvents, b.correlationId ≠ q.correlationId := by
  subst hcharge
  intro b hb hcorr
  obtain ⟨a₀, ha₀, hass₀, hcorr₀⟩ := h.satisfied b hb
  have hfound : getAssessmentForCorrelation S.toRentState q.correlationId = some a := by
    have hsome : (getAssessmentForCorrelation S.toRentState q.correlationId).isSome := by
      rw [getAssessmentForCorrelation, List.find?_isSome]
      exact ⟨a₀, ha₀, decide_eq_true ⟨hcorr₀.trans hcorr, hass₀⟩⟩
    obtain ⟨a', ha'⟩ := Option.isSome_iff_exists.1 hsome
    have hlater := hp.assessment
    rw [getAssessmentForCorrelation] at ha' hlater
    rw [withPurchase, List.find?_append, PurchaseRequest.charge, ha', Option.some_or] at hlater
    rw [getAssessmentForCorrelation, ha', hlater]
  obtain ⟨ha, hacorr, hass⟩ := getAssessmentForCorrelation_spec hfound
  obtain ⟨g, c, hg, -, -, hfor⟩ := h.assessments a ha hass
  rcases hfor.named with hname | ⟨-, hname, -⟩
  · exact purchase_ne_premium q.idempotencyKey _ _ (hacorr.symm.trans hname)
  · rw [priorGrant, List.find?_eq_none] at hprior
    refine hprior g hg.1 (decide_eq_true ⟨?_, ?_, hg.2, hname.symm.trans hacorr⟩)
    · exact hfor.classId.symm.trans hp.classId
    · exact hfor.seatId.symm.trans hp.seatId

theorem purchaseInsurance_moves (h : CoverageInvariant sha256 zones bounded S)
    (hfeat : feat.activeFeat ≠ claimsFeat)
    (hok : purchaseInsurance sha256 (zones q.classId) env feat S q = .ok (res, S')) :
    CoverageMoves sha256 zones bounded feat.canonicalNowUtc S S' := by
  simp only [purchaseInsurance, require_bind_eq_ok] at hok
  obtain ⟨-, -, hok⟩ := hok
  split_ifs at hok
  · rw [pure_eq_ok, Prod.mk.injEq] at hok
    rw [← hok.2]
  · rw [pure_eq_ok, Prod.mk.injEq] at hok
    rw [← hok.2]
  · split at hok
    · rw [pure_eq_ok, Prod.mk.injEq] at hok
      rw [← hok.2]
    · next hprior =>
      rw [bind_eq_ok] at hok
      obtain ⟨checked, hcheck, hok⟩ := hok
      split at hok
      · rw [pure_eq_ok, Prod.mk.injEq] at hok
        rw [← hok.2]
      · next policy terms =>
        obtain ⟨hdefinition, hterms⟩ := checkPurchase_ok hcheck
        obtain ⟨r, debit, hlt, hkey, hsettle⟩ := recordPurchase_ok h hprior hterms hok
        obtain ⟨L, a, hp⟩ := settleInsurancePremium_ok
          (S := withPurchase zones S feat.canonicalNowUtc q policy r) h.ledger hfeat hsettle
        have hfresh := purchase_fresh h hprior rfl hp
        have hmove : CoverageMove sha256 zones bounded feat.canonicalNowUtc S
            (withPurchase zones S feat.canonicalNowUtc q policy r) :=
          .begin rfl (freshEntitlementId_fresh S) (.purchased q.idempotencyKey rfl rfl)
            (fun _ _ _ hn ↦ by cases hn)
            ⟨hdefinition, (recurringTerms_eq_some hterms).1⟩ rfl
            ⟨rfl, rfl, rfl, rfl, rfl, rfl, hlt, purchasePremium_for S, hfresh, rfl, hkey⟩
        refine .head hmove (hp.moves (fun _ f hf hsat ↦ ?_))
        rcases List.mem_append.1 hf with hold | hnew
        · exact hfresh f hold
        · obtain rfl := List.mem_singleton.1 hnew
          simp [ObligationAssessment.IsSatisfaction, purchasePremium] at hsat

end Purchase

section Payment

theorem payInsurancePremium_moves (h : CoverageInvariant sha256 zones bounded S)
    (hfeat : feat.activeFeat ≠ claimsFeat) {q : PremiumPaymentRequest}
    (hok : payInsurancePremium sha256 env feat S q = .ok (res, S')) :
    CoverageMoves sha256 zones bounded feat.canonicalNowUtc S S' := by
  simp only [payInsurancePremium, require_bind_eq_ok] at hok
  obtain ⟨-, hok⟩ := hok
  split_ifs at hok
  · rw [pure_eq_ok, Prod.mk.injEq] at hok
    rw [← hok.2]
  · rw [bind_eq_ok] at hok
    obtain ⟨prior, hprior, hok⟩ := hok
    cases prior with
    | some principal =>
      simp only [bind_eq_ok, pure_eq_ok, Prod.mk.injEq] at hok
      obtain ⟨-, -, -, rfl⟩ := hok
      exact .refl
    | none =>
      simp only at hok
      split at hok
      · rw [pure_eq_ok, Prod.mk.injEq] at hok
        rw [← hok.2]
      · split_ifs at hok
        · rw [pure_eq_ok, Prod.mk.injEq] at hok
          rw [← hok.2]
        · rw [bind_eq_ok] at hok
          obtain ⟨affordable, -, hok⟩ := hok
          split_ifs at hok
          · rw [pure_eq_ok, Prod.mk.injEq] at hok
            rw [← hok.2]
          · simp only [bind_eq_ok, Prod.exists, pure_eq_ok, Prod.mk.injEq] at hok
            obtain ⟨debit, S₁, hsettle, -, rfl⟩ := hok
            obtain ⟨L, a, hp⟩ := settleInsurancePremium_ok h.ledger hfeat hsettle
            refine hp.moves (fun hsystem ↦ ?_)
            rw [hp.mechanism (replayReservedCharge_none hprior)] at hsystem
            cases hsystem

end Payment

section Ending

theorem getActiveInsuranceGrant_spec {seatId : ℕ} {classId policyUuid : String}
    {g : CoverageEvent} (h : getActiveInsuranceGrant S seatId classId policyUuid = some g) :
    Granted S g ∧ g.classId = classId := by
  have hmem := List.mem_of_find?_eq_some h
  obtain ⟨hmem, hfields⟩ := List.mem_filter.1 hmem
  simp only [Bool.and_eq_true, decide_eq_true_eq] at hfields
  exact ⟨⟨hmem, hfields.1.2.2⟩, hfields.1.2.1⟩

theorem cancelInsurance_moves (h : CoverageInvariant sha256 zones bounded S) {seatId : ℕ}
    {classId policyUuid : String}
    (hok : cancelInsurance now S classId seatId policyUuid = .ok (res, S')) :
    CoverageMoves sha256 zones bounded now S S' := by
  simp only [cancelInsurance] at hok
  split at hok
  · next ref next hactive hnext =>
    obtain ⟨g, hg, rfl⟩ := Option.map_eq_some_iff.1 hactive
    obtain ⟨hgranted, rfl⟩ := getActiveInsuranceGrant_spec hg
    obtain ⟨p, periods, closing, stop, hs, -⟩ := h.lineages g hgranted
    simp only [hg, Option.map_some, Option.bind_some] at hnext
    cases closing with
    | some c =>
      rw [getLatestBillCycle, hs.getBillCyclesForInternalRef, hs.getLast_closed,
        Option.bind_some, hs.closes c rfl] at hnext
      cases hnext
    | none =>
      simp only [bind_eq_ok, Prod.exists, pure_eq_ok, Prod.mk.injEq] at hok
      obtain ⟨t, S₁, hterminate, -, rfl⟩ := hok
      obtain ⟨instant, es, rfl, hat, hes, rfl⟩ := terminateBillCycle_ok hs rfl rfl hterminate
      refine .single (.close hgranted hs ?_ hes)
      rcases hat with hat | ⟨-, rfl | ⟨c, hc, hholds, rfl⟩⟩
      · cases hat
      · exact .atEnd
      · exact .afterCurrent hc hholds
  · split at hok
    · rw [pure_eq_ok, Prod.mk.injEq] at hok
      rw [← hok.2]
    · rw [pure_eq_ok, Prod.mk.injEq] at hok
      rw [← hok.2]

theorem expireEndedCoverage_moves {cycle : BillCycle} {entitlementId : ℕ}
    (hok : expireEndedCoverage env now S cycle entitlementId = .ok S') :
    CoverageMoves sha256 zones bounded now S S' := by
  unfold expireEndedCoverage at hok
  split_ifs at hok
  · split at hok
    · rw [bind_eq_ok] at hok
      obtain ⟨actor, -, hok⟩ := hok
      exact (expireCoverage_moves hok).1
    · rw [pure_eq_ok] at hok
      rw [hok]
  · rw [pure_eq_ok] at hok
    rw [hok]

end Ending

section Policies

variable {policy : InsurancePolicy}

theorem createInsuranceDefinition_moves (hok : createInsuranceDefinition S policy = .ok S') :
    CoverageMoves sha256 zones bounded now S S' := by
  simp only [createInsuranceDefinition, require_bind_eq_ok, pure_eq_ok] at hok
  rw [← hok.2]
  refine .single (.policies (fun u c p hp ↦ ⟨p, ?_, rfl⟩))
  unfold getInsuranceDefinition at hp ⊢
  rw [List.find?_append, hp, Option.some_or]

theorem setAvailability_moves {policyUuid classId : String} {state : AvailabilityState}
    (hok : setAvailability S policyUuid classId state = .ok S') :
    CoverageMoves sha256 zones bounded now S S' := by
  simp only [setAvailability, require_bind_eq_ok, pure_eq_ok] at hok
  rw [← hok.2]
  let update : InsurancePolicy → InsurancePolicy := fun p ↦
    if p.policyUuid = policyUuid ∧ p.classId = classId then
      { p with availabilityState := state } else p
  have hkeep : ∀ p, (update p).policyUuid = p.policyUuid ∧ (update p).classId = p.classId ∧
      (update p).terms = p.terms := by
    intro p
    simp only [update]
    split_ifs <;> exact ⟨rfl, rfl, rfl⟩
  refine .single (.policies (fun u c p hp ↦ ⟨update p, ?_, (hkeep p).2.2⟩))
  have hpred : ((fun p : InsurancePolicy ↦ decide (p.policyUuid = u ∧ p.classId = c)) ∘ update) =
      fun p ↦ decide (p.policyUuid = u ∧ p.classId = c) := by
    funext p
    simp [hkeep p]
  unfold getInsuranceDefinition at hp ⊢
  rw [List.find?_map, hpred, hp]
  rfl

end Policies

end TokenHub.Insurance
