import TokenHub.Insurance.PremiumPayments

set_option autoImplicit false

namespace TokenHub.Insurance

open Ledger Rent Lib.Checks

variable {sha256 : String → String} {zones : String → CoverageZone} {bounded : Prop}
  {env : Surroundings} {feat : FeatContext} {S S' : InsuranceState} {now : Instant}

section Outstanding

theorem paymentEventMagnitude_nonneg (R : RentState) (e : ObligationAssessment) :
    0 ≤ paymentEventMagnitude R e := by
  unfold paymentEventMagnitude rowMagnitude
  split_ifs
  · cases e.ledgerTransactionId with
    | none => exact le_rfl
    | some i =>
      cases hfind : R.ledger.transactions.find? (·.id = i) with
      | none => simp [hfind]
      | some t =>
        simp only [hfind, Option.map_some, Option.getD_some]
        exact abs_nonneg _
  · exact le_rfl

theorem getPaidMagnitude_of_unpaid {R : RentState} {correlationId : String}
    (hnone : ∀ e ∈ R.assessmentEvents, e.eventType = .payment →
      e.correlationId ≠ correlationId) : getPaidMagnitude R correlationId = 0 := by
  apply List.sum_eq_zero
  intro x hx
  obtain ⟨e, he, rfl⟩ := List.mem_map.1 hx
  obtain ⟨hmem, hfields⟩ := List.mem_filter.1 he
  have hcorr := (of_decide_eq_true hfields).1
  rw [paymentEventMagnitude, if_neg (fun htype ↦ hnone e hmem htype hcorr)]

theorem PremiumsPaid.outstanding (h : PremiumsPaid sha256 S) {correlationId : String}
    {s : ObligationState} (hs : getObligationState S.toRentState correlationId = some s)
    (hout : s.status = .outstanding) : s.correlationId = correlationId ∧
      ∃ a, getAssessmentForCorrelation S.toRentState correlationId = some a ∧
        s.remainingAmount = resolveAssessmentAmount S.toRentState a ∧
        ∀ e ∈ S.assessmentEvents, e.eventType = .payment → e.correlationId ≠ correlationId := by
  obtain ⟨a, ha, rfl⟩ := Option.map_eq_some_iff.1 hs
  refine ⟨rfl, a, ha, ?_⟩
  have hunpaid : ∀ e ∈ S.assessmentEvents, e.eventType = .payment →
      e.correlationId ≠ correlationId := by
    intro e he htype hcorr
    obtain ⟨a', ha', t, hid, ht⟩ := h.paid e he htype
    rw [hcorr, ha, Option.some.injEq] at ha'
    subst ha'
    have hmagnitude : paymentEventMagnitude S.toRentState e =
        resolveAssessmentAmount S.toRentState a := by
      have hpos := ht.positive
      rw [paymentEventMagnitude, if_pos htype, hid, rowMagnitude_eq h.ledger ht.mem, ht.whole,
        abs_neg, abs_of_pos hpos]
    have hle : resolveAssessmentAmount S.toRentState a ≤
        getPaidMagnitude S.toRentState correlationId := by
      rw [← hmagnitude]
      apply List.single_le_sum
      · intro x hx
        obtain ⟨f, -, rfl⟩ := List.mem_map.1 hx
        exact paymentEventMagnitude_nonneg _ f
      · exact List.mem_map.2 ⟨e, List.mem_filter.2 ⟨he, decide_eq_true ⟨hcorr, .inl htype⟩⟩, rfl⟩
    simp only at hout
    split_ifs at hout with hwithdrawn hsatisfied
    exact hsatisfied (.inr hle)
  refine ⟨?_, hunpaid⟩
  simp only at hout ⊢
  rw [if_pos hout, getPaidMagnitude_of_unpaid hunpaid, sub_zero]

end Outstanding

section Besides

theorem LeavesPremiums.of_events (hs : LedgerSound sha256 S.ledger)
    (hledger : S'.ledger = S.ledger) (hrent : S'.rentSettings = S.rentSettings)
    (hpremiums : S'.premiums = S.premiums) (es : List ObligationAssessment)
    (hes : S'.assessmentEvents = S.assessmentEvents ++ es)
    (hnone : ∀ e ∈ es, e.eventType ≠ .payment) : LeavesPremiums sha256 S S' where
  ledger := by rw [hledger]; exact .refl hs
  reservations := fun r hr _ ↦ hledger ▸ hr
  events := ⟨es, hes, hnone⟩
  rent := hrent
  premiums := fun p c v hv ↦ by rw [hpremiums]; exact hv

theorem LeavesPremiums.of_rent (hs : LedgerSound sha256 S.ledger)
    (hledger : S'.ledger = S.ledger) (hrent : S'.rentSettings = S.rentSettings)
    (hpremiums : S'.premiums = S.premiums)
    (hes : S'.assessmentEvents = S.assessmentEvents) : LeavesPremiums sha256 S S' :=
  .of_events hs hledger hrent hpremiums [] (by rw [hes, List.append_nil]) (by simp)

theorem LeavesPremiums.of_ledger {L : LedgerState} (hL : LedgerGrows sha256 S.ledger L)
    (hother : ∀ r ∈ L.reservations, r.featCode ∈ premiumFeats → r ∈ S.ledger.reservations)
    (hR : S'.toRentState = { S.toRentState with ledger := L }) : LeavesPremiums sha256 S S' where
  ledger := by rw [hR]; exact hL
  reservations := by rw [hR]; exact hother
  events := ⟨[], by rw [hR, List.append_nil], by simp⟩
  rent := by rw [hR]
  premiums := fun p c v hv ↦ by rw [hR]; exact hv

theorem scheduleCoverageCycle_leaves (hs : LedgerSound sha256 S.ledger) {zone : ClassZone}
    {q : ScheduleNextBillCycleRequest} {c : BillCycle}
    (hok : scheduleCoverageCycle sha256 zone S q = .ok (c, S')) : LeavesPremiums sha256 S S' := by
  simp only [scheduleCoverageCycle, require_bind_eq_ok] at hok
  obtain ⟨-, -, -, hok⟩ := hok
  split at hok
  · simp only [bind_eq_ok, pure_eq_ok, Prod.mk.injEq] at hok
    obtain ⟨-, -, _, -, -, rfl⟩ := hok
    exact .refl hs
  · rw [require_bind_eq_ok, bind_eq_ok] at hok
    obtain ⟨-, number, -, hok⟩ := hok
    rw [require_bind_eq_ok, pure_eq_ok, Prod.mk.injEq] at hok
    obtain ⟨-, -, rfl⟩ := hok
    exact .of_rent hs rfl rfl rfl rfl

theorem assessObligation_leaves (hs : LedgerSound sha256 S.ledger) {q : AssessmentRequest}
    {created : Bool} {R : RentState}
    (hok : assessObligation S.toRentState now q = .ok (created, R)) :
    LeavesPremiums sha256 S { S with toRentState := R } := by
  simp only [assessObligation, require_bind_eq_ok] at hok
  obtain ⟨-, -, -, hok⟩ := hok
  split_ifs at hok <;> rw [pure_eq_ok, Prod.mk.injEq] at hok <;> obtain ⟨-, rfl⟩ := hok
  · exact .refl hs
  · refine .of_events hs rfl rfl rfl _ rfl ?_
    intro e he
    rw [List.mem_singleton.1 he]
    simp

theorem grantInsuranceEntitlement_leaves (hs : LedgerSound sha256 S.ledger) {q : GrantRequest}
    {n : ℕ} (hok : grantInsuranceEntitlement S q = .ok (n, S')) : LeavesPremiums sha256 S S' := by
  simp only [grantInsuranceEntitlement, require_bind_eq_ok] at hok
  obtain ⟨-, hok⟩ := hok
  split at hok <;> rw [pure_eq_ok, Prod.mk.injEq] at hok <;> obtain ⟨-, rfl⟩ := hok
  · exact .refl hs
  · exact .of_rent hs rfl rfl rfl rfl

theorem expireCoverage_leaves (hs : LedgerSound sha256 S.ledger) {grant : CoverageEvent}
    {actorSeatId : ℕ} {correlationId : String} {effectiveAt : Instant}
    (hok : expireCoverage S grant actorSeatId correlationId effectiveAt = .ok S') :
    LeavesPremiums sha256 S S' := by
  unfold expireCoverage at hok
  split at hok
  · rw [require_bind_eq_ok, pure_eq_ok] at hok
    rw [← hok.2]
    exact .refl hs
  · rw [pure_eq_ok] at hok
    rw [← hok]
    exact .of_rent hs rfl rfl rfl rfl

theorem terminateBillCycle_leaves (hs : LedgerSound sha256 S.ledger)
    {q : TerminateBillCycleRequest} {c : BillCycle}
    (hok : terminateBillCycle S now q = .ok (c, S')) : LeavesPremiums sha256 S S' := by
  simp only [terminateBillCycle, demand_bind_eq_ok, require_bind_eq_ok] at hok
  obtain ⟨latest, -, -, hok⟩ := hok
  split_ifs at hok
  · rw [pure_eq_ok, Prod.mk.injEq] at hok
    rw [← hok.2]
    exact .refl hs
  · simp only [bind_eq_ok, pure_eq_ok, Prod.mk.injEq] at hok
    obtain ⟨stop, -, instant, -, R, hwithdraw, -, rfl⟩ := hok
    obtain ⟨es, rfl, hes⟩ := withdrawUntouched_ok hwithdraw
    refine .of_events hs rfl rfl rfl es rfl ?_
    intro e he htype
    rw [(hes e he).1] at htype
    cases htype

end Besides

section Renewal

variable {zone : CoverageZone}

/-- An automatic payment, made or not, keeps what is said of the payments. -/
theorem attemptAutopay_keeps (h : PremiumsPaid sha256 S)
    (hfeat : feat.activeFeat = "FEAT-STOR-007") {classId : String}
    {seatId entitlementId cycleNumber : ℕ} {paid : Bool}
    (hok : attemptAutopay sha256 env feat S classId seatId entitlementId cycleNumber
      (premiumCorrelationId entitlementId cycleNumber) = .ok (paid, S')) :
    PremiumsPaid sha256 S' := by
  unfold attemptAutopay at hok
  split at hok
  · rw [pure_eq_ok, Prod.mk.injEq] at hok
    rwa [← hok.2]
  · next s hs =>
    split_ifs at hok with houtstanding hremaining
    · rw [pure_eq_ok, Prod.mk.injEq] at hok
      rwa [← hok.2]
    · rw [pure_eq_ok, Prod.mk.injEq] at hok
      rwa [← hok.2]
    · simp only [bind_eq_ok] at hok
      obtain ⟨actorSeatId, -, affordable, -, hok⟩ := hok
      split_ifs at hok
      · rw [pure_eq_ok, Prod.mk.injEq] at hok
        rwa [← hok.2]
      · simp only [bind_eq_ok, Prod.exists, pure_eq_ok, Prod.mk.injEq] at hok
        obtain ⟨debit, S₁, hsettle, -, rfl⟩ := hok
        obtain ⟨-, a, ha, hamount, hunpaid⟩ := h.outstanding hs (not_not.1 houtstanding)
        have hnames : NamesPremium feat.activeFeat (autopayKey entitlementId cycleNumber)
            (premiumCorrelationId entitlementId cycleNumber) :=
          .inr (.inr ⟨hfeat, entitlementId, cycleNumber, rfl, rfl⟩)
        have hnew := h.key_new hnames (by rw [hfeat]; decide) hunpaid classId
        obtain ⟨resolved, transfers, r, L, a', hp⟩ := settleInsurancePremium_posts h hnew hsettle
        have hsame : a = a' := Option.some.inj (ha.symm.trans hp.assessment)
        exact h.post hp (hsame ▸ hamount) hunpaid hnames

theorem openPeriod_keeps (h : PremiumsPaid sha256 S) (hfeat : feat.activeFeat = "FEAT-STOR-007")
    {t : CycleTerms} {paid : Bool}
    (hok : openPeriod sha256 zone env feat S t = .ok (paid, S')) : PremiumsPaid sha256 S' := by
  simp only [openPeriod, bind_eq_ok, Prod.exists] at hok
  obtain ⟨c, S₁, hschedule, created, R, hassess, hpay⟩ := hok
  have h₁ := h.beside (scheduleCoverageCycle_leaves h.ledger hschedule)
  have h₂ := h₁.beside (assessObligation_leaves h₁.ledger hassess)
  exact attemptAutopay_keeps h₂ hfeat hpay

theorem stopRenewal_keeps (h : PremiumsPaid sha256 S) {classId : String} {entitlementId : ℕ}
    {boundary : Instant}
    (hok : stopRenewal feat S classId entitlementId = .ok (boundary, S')) :
    PremiumsPaid sha256 S' := by
  simp only [stopRenewal, bind_eq_ok, Prod.exists, pure_eq_ok, Prod.mk.injEq] at hok
  obtain ⟨t, S₁, hterminate, -, rfl⟩ := hok
  exact h.beside (terminateBillCycle_leaves h.ledger hterminate)

theorem terminateForNonpayment_keeps (h : PremiumsPaid sha256 S) {s : RenewalSubject}
    {deadline : Instant}
    (hok : terminateForNonpayment env feat S s deadline = .ok S') : PremiumsPaid sha256 S' := by
  simp only [terminateForNonpayment, bind_eq_ok, Prod.exists, pure_eq_ok] at hok
  obtain ⟨actor, -, S₁, hexpire, t, S₂, hterminate, rfl⟩ := hok
  have h₁ := h.beside (expireCoverage_leaves h.ledger hexpire)
  exact h₁.beside (terminateBillCycle_leaves h₁.ledger hterminate)

theorem continueUnderSuccessor_keeps (h : PremiumsPaid sha256 S)
    (hfeat : feat.activeFeat = "FEAT-STOR-007") {s : RenewalSubject}
    {successor : InsurancePolicy} {boundary : Instant} {newId : ℕ} {paid : Bool}
    (hok : continueUnderSuccessor sha256 zone env feat S s successor boundary =
      .ok ((newId, paid), S')) : PremiumsPaid sha256 S' := by
  simp only [continueUnderSuccessor, bind_eq_ok, Prod.exists, pure_eq_ok, Prod.mk.injEq] at hok
  obtain ⟨actor, -, newId', S₁, hgrant, terms, -, paid', S₂, hopen, -, rfl⟩ := hok
  exact openPeriod_keeps (h.beside (grantInsuranceEntitlement_leaves h.ledger hgrant)) hfeat hopen

theorem renewalPass_keeps (h : PremiumsPaid sha256 S) (hfeat : feat.activeFeat = "FEAT-STOR-007")
    {s : RenewalSubject} {outcome : RenewalOutcome}
    (hok : renewalPass sha256 zone env feat S s = .ok (outcome, S')) : PremiumsPaid sha256 S' := by
  simp only [renewalPass] at hok
  split at hok
  · rw [pure_eq_ok, Prod.mk.injEq] at hok
    rwa [← hok.2]
  · rw [pure_eq_ok, Prod.mk.injEq] at hok
    rwa [← hok.2]
  · rw [bind_eq_ok] at hok
    obtain ⟨terms, -, hok⟩ := hok
    split at hok
    · simp only [bind_eq_ok, pure_eq_ok, Prod.mk.injEq] at hok
      obtain ⟨S₁, hterminate, -, rfl⟩ := hok
      exact terminateForNonpayment_keeps h hterminate
    · rw [pure_eq_ok, Prod.mk.injEq] at hok
      rwa [← hok.2]
  · rw [bind_eq_ok] at hok
    obtain ⟨terms, -, hok⟩ := hok
    split at hok
    · simp only [bind_eq_ok, pure_eq_ok, Prod.mk.injEq] at hok
      obtain ⟨S₁, hterminate, -, rfl⟩ := hok
      exact terminateForNonpayment_keeps h hterminate
    · split at hok
      · simp only [bind_eq_ok, Prod.exists, pure_eq_ok, Prod.mk.injEq] at hok
        obtain ⟨boundary, S₁, hstop, newId, paid, S₂, hcontinue, -, rfl⟩ := hok
        exact continueUnderSuccessor_keeps (stopRenewal_keeps h hstop) hfeat hcontinue
      · split_ifs at hok
        · simp only [bind_eq_ok, Prod.exists, pure_eq_ok, Prod.mk.injEq] at hok
          obtain ⟨paid, S₁, hopen, -, rfl⟩ := hok
          exact openPeriod_keeps h hfeat hopen
        · simp only [bind_eq_ok, Prod.exists, pure_eq_ok, Prod.mk.injEq] at hok
          obtain ⟨boundary, S₁, hstop, -, rfl⟩ := hok
          exact stopRenewal_keeps h hstop

theorem renewalLoop_keeps (hfeat : feat.activeFeat = "FEAT-STOR-007") {passes : ℕ}
    (h : PremiumsPaid sha256 S) {s : RenewalSubject} {outcomes : List RenewalOutcome}
    (hok : renewalLoop sha256 zone env feat passes S s = .ok (outcomes, S')) :
    PremiumsPaid sha256 S' := by
  induction passes generalizing S s outcomes with
  | zero => cases hok
  | succ left ih =>
    rw [renewalLoop, bind_eq_ok] at hok
    obtain ⟨⟨outcome, S₁⟩, hpass, hok⟩ := hok
    have h₁ := renewalPass_keeps h hfeat hpass
    cases outcome with
    | renewed number paid =>
      simp only [bind_eq_ok, Prod.exists, pure_eq_ok, Prod.mk.injEq] at hok
      obtain ⟨later, S₂, hloop, -, rfl⟩ := hok
      exact ih h₁ hloop
    | continuedAs boundary newId paid =>
      simp only at hok
      split at hok
      · rw [pure_eq_ok, Prod.mk.injEq] at hok
        rwa [← hok.2]
      · simp only [bind_eq_ok, Prod.exists, pure_eq_ok, Prod.mk.injEq] at hok
        obtain ⟨later, S₂, hloop, -, rfl⟩ := hok
        exact ih h₁ hloop
    | _ =>
      rw [pure_eq_ok, Prod.mk.injEq] at hok
      rwa [← hok.2]

theorem renewInsuranceCoverage_keeps (h : PremiumsPaid sha256 S)
    (hfeat : feat.activeFeat = "FEAT-STOR-007") {passes : ℕ} {classId : String}
    {entitlementId : ℕ} {outcomes : List RenewalOutcome}
    (hok : renewInsuranceCoverage sha256 zone env feat passes S classId entitlementId =
      .ok (outcomes, S')) : PremiumsPaid sha256 S' := by
  unfold renewInsuranceCoverage at hok
  split at hok
  · rw [pure_eq_ok, Prod.mk.injEq] at hok
    rwa [← hok.2]
  · exact renewalLoop_keeps hfeat h hok

end Renewal

section Purchase

variable {q : PurchaseRequest} {policy : InsurancePolicy} {res : CoverageResult}

/-- The first premium of a coverage is paid under a key of its own. -/
theorem purchaseInsurance_keeps (h : PremiumsPaid sha256 S)
    (hc : CoverageInvariant sha256 zones bounded S) (hfeat : feat.activeFeat = "FEAT-OBL-004")
    (hok : purchaseInsurance sha256 (zones q.classId) env feat S q = .ok (res, S')) :
    PremiumsPaid sha256 S' := by
  simp only [purchaseInsurance, require_bind_eq_ok] at hok
  obtain ⟨huuid, -, hok⟩ := hok
  split_ifs at hok
  · rw [pure_eq_ok, Prod.mk.injEq] at hok
    rwa [← hok.2]
  · rw [pure_eq_ok, Prod.mk.injEq] at hok
    rwa [← hok.2]
  · split at hok
    · rw [pure_eq_ok, Prod.mk.injEq] at hok
      rwa [← hok.2]
    · next hprior =>
      rw [bind_eq_ok] at hok
      obtain ⟨checked, hcheck, hok⟩ := hok
      split at hok
      · rw [pure_eq_ok, Prod.mk.injEq] at hok
        rwa [← hok.2]
      · next policy terms =>
        obtain ⟨hdefinition, hterms⟩ := checkPurchase_ok hcheck
        obtain ⟨r, debit, -, -, hsettle⟩ := recordPurchase_ok hc hprior hterms hok
        obtain ⟨L, a, hsettled⟩ := settleInsurancePremium_ok
          (S := withPurchase zones S feat.canonicalNowUtc q policy r) hc.ledger
          (by rw [hfeat]; simp [claimsFeat]) hsettle
        have hfresh := purchase_fresh hc hprior rfl hsettled
        have hbefore : PremiumsPaid sha256 (withPurchase zones S feat.canonicalNowUtc q policy r) :=
          h.beside (.of_events h.ledger rfl rfl rfl [purchasePremium S feat.canonicalNowUtc q]
            rfl (fun e he ↦ by rw [List.mem_singleton.1 he]; simp [purchasePremium]))
        have hunpaid : ∀ e ∈ (withPurchase zones S feat.canonicalNowUtc q policy r).assessmentEvents,
            e.eventType = .payment → e.correlationId ≠ q.correlationId := by
          intro e he htype
          rcases List.mem_append.1 he with hold | hnew
          · exact hfresh e hold
          · rw [List.mem_singleton.1 hnew] at htype
            cases htype
        have hnames : NamesPremium feat.activeFeat
            ("insurance-premium:" ++ q.idempotencyKey ++ ":cycle1") q.correlationId :=
          .inr (.inl ⟨hfeat, q.idempotencyKey, rfl, rfl⟩)
        have hnew := hbefore.key_new hnames (by rw [hfeat]; decide) hunpaid q.classId
        obtain ⟨resolved, transfers, r', L', a', hp⟩ :=
          settleInsurancePremium_posts hbefore hnew hsettle
        refine hbefore.post hp ?_ hunpaid hnames
        -- The only assessment under the correlation is the one just recorded.
        have hfirst : getAssessmentForCorrelation
            (withPurchase zones S feat.canonicalNowUtc q policy r).toRentState q.correlationId =
              some (purchasePremium S feat.canonicalNowUtc q) := by
          have hnone : S.assessmentEvents.find? (fun e ↦ e.correlationId = q.correlationId ∧
              e.eventType = .assessment) = none := by
            rw [List.find?_eq_none]
            exact fun e he hfields ↦ hfresh e he (of_decide_eq_true hfields).1
          rw [getAssessmentForCorrelation, withPurchase, List.find?_append, hnone, Option.none_or]
          simp [purchasePremium]
        obtain rfl := Option.some.inj (hfirst.symm.trans hp.assessment)
        have hpremium : S.premiums q.policyUuid q.classId = some (policy.premium : ℤ) := by
          rw [hc.premiums, premiumColumn, ← getInsuranceDefinition, hdefinition]
          rfl
        simp only [resolveAssessmentAmount, purchasePremium, withPurchase, if_neg huuid, hpremium,
          Option.getD_some, PurchaseRequest.charge]

end Purchase

section Payment

variable {q : PremiumPaymentRequest} {res : CoverageResult}

theorem paymentTarget_state {R : RentState} {s : ObligationState}
    (h : paymentTarget R q = some s) :
    ∃ correlationId, getObligationState R correlationId = some s := by
  unfold paymentTarget at h
  split at h
  · have hmem : ∀ (ss : List ObligationState) (best : Option ObligationState),
        ss.foldl earlierDue best = some s → best = some s ∨ s ∈ ss := by
      intro ss
      induction ss with
      | nil => exact fun best hbest ↦ .inl hbest
      | cons x xs ih =>
        intro best hfold
        rcases ih _ hfold with hfirst | hlater
        · unfold earlierDue at hfirst
          split at hfirst
          · rw [Option.some.inj hfirst]
            exact .inr (List.mem_cons_self ..)
          · split_ifs at hfirst
            · rw [Option.some.inj hfirst]
              exact .inr (List.mem_cons_self ..)
            · exact .inl hfirst
        · exact .inr (List.mem_cons_of_mem x hlater)
    rcases hmem _ _ h with hnone | hs
    · cases hnone
    · obtain ⟨a, -, ha⟩ := List.mem_filterMap.1 (List.mem_of_mem_filter hs)
      exact ⟨_, ha⟩
  · next c _ =>
    split_ifs at h
    exact ⟨c, h⟩

theorem payInsurancePremium_keeps (h : PremiumsPaid sha256 S)
    (hfeat : feat.activeFeat = "FEAT-OBL-003")
    (hok : payInsurancePremium sha256 env feat S q = .ok (res, S')) : PremiumsPaid sha256 S' := by
  simp only [payInsurancePremium, require_bind_eq_ok] at hok
  obtain ⟨-, hok⟩ := hok
  split_ifs at hok
  · rw [pure_eq_ok, Prod.mk.injEq] at hok
    rwa [← hok.2]
  · rw [bind_eq_ok] at hok
    obtain ⟨prior, hprior, hok⟩ := hok
    cases prior with
    | some principal =>
      simp only [bind_eq_ok, pure_eq_ok, Prod.mk.injEq] at hok
      obtain ⟨-, -, -, rfl⟩ := hok
      exact h
    | none =>
      simp only at hok
      split at hok
      · rw [pure_eq_ok, Prod.mk.injEq] at hok
        rwa [← hok.2]
      · next s htarget =>
        split_ifs at hok with houtstanding
        · rw [pure_eq_ok, Prod.mk.injEq] at hok
          rwa [← hok.2]
        · rw [bind_eq_ok] at hok
          obtain ⟨affordable, -, hok⟩ := hok
          split_ifs at hok
          · rw [pure_eq_ok, Prod.mk.injEq] at hok
            rwa [← hok.2]
          · simp only [bind_eq_ok, Prod.exists, pure_eq_ok, Prod.mk.injEq] at hok
            obtain ⟨debit, S₁, hsettle, -, rfl⟩ := hok
            obtain ⟨c, hc⟩ := paymentTarget_state (Option.mem_filter_iff.1 htarget).1
            obtain ⟨rfl, a, ha, hamount, hunpaid⟩ := h.outstanding hc (not_not.1 houtstanding)
            obtain ⟨resolved, transfers, r, L, a', hp⟩ :=
              settleInsurancePremium_posts h (replayReservedCharge_none hprior) hsettle
            have hsame : a = a' := Option.some.inj (ha.symm.trans hp.assessment)
            exact h.post hp (hsame ▸ hamount) hunpaid (.inl ⟨hfeat, q.idempotencyKey, rfl⟩)

end Payment

end TokenHub.Insurance
