import TokenHub.Rent.Invariant

set_option autoImplicit false

namespace TokenHub.Rent

open Ledger Lib.Decimals Lib.Checks Lib.SequencedLog

variable {sha256 : String → String} {env : Surroundings} {feat : FeatContext} {S S' : RentState}

section Awards

/-- The perks that an award appends: units of the benefit list, under one correlation. -/
structure Awarded (classId correlationId : String) (benefits : List BenefitGrant)
    (grants : List EntitlementEvent) : Prop where
  perks : ∀ e ∈ grants, e.IsPerkGrant ∧ e.correlationId = some correlationId ∧
    e.classId = classId
  units : (grants.map (fun e ↦ (e.entitlementType, e.productId))).Sublist
    (configuredUnits benefits)

theorem Awarded.nil (classId correlationId : String) (benefits : List BenefitGrant) :
    Awarded classId correlationId benefits [] :=
  ⟨by simp, List.nil_sublist _⟩

variable {now : Instant} {classId correlationId : String} {seatId n : ℕ}

theorem perkEvents_awarded (S : RentState) (now : Instant) (seatId actorSeatId : ℕ)
    (g : BenefitGrant) : Awarded classId correlationId [g]
      (perkEvents S now classId seatId actorSeatId correlationId g) where
  perks := by
    intro e he
    obtain ⟨i, -, rfl⟩ := List.mem_map.1 he
    exact ⟨⟨rfl, rfl⟩, rfl, rfl⟩
  units := by
    have hunits : (perkEvents S now classId seatId actorSeatId correlationId g).map
        (fun e ↦ (e.entitlementType, e.productId)) =
          List.replicate g.quantity (g.entitlementType, g.productLineageUuid) := by
      simp [perkEvents, List.map_const', Function.comp_def]
    rw [hunits, configuredUnits, List.flatMap_singleton]

theorem awardGrant_awarded (env : Surroundings) (now : Instant) (classId : String)
    (seatId actorSeatId : ℕ) (correlationId : String) (S : RentState) (g : BenefitGrant) :
    ∃ grants, (awardGrant env now classId seatId actorSeatId correlationId S g).2 =
        { S with entitlementEvents := S.entitlementEvents ++ grants } ∧
      Awarded classId correlationId [g] grants := by
  simp only [awardGrant]
  split_ifs with hdeleted hwithin
  · exact ⟨[], by simp, .nil ..⟩
  · exact ⟨_, rfl, perkEvents_awarded S now seatId actorSeatId g⟩
  · exact ⟨[], by simp, .nil ..⟩

theorem awardGrants_awarded (env : Surroundings) (now : Instant) (classId : String)
    (seatId actorSeatId : ℕ) (correlationId : String) (S : RentState)
    (benefits : List BenefitGrant) :
    ∃ grants, (awardGrants env now classId seatId actorSeatId correlationId S benefits).2 =
        { S with entitlementEvents := S.entitlementEvents ++ grants } ∧
      Awarded classId correlationId benefits grants := by
  induction benefits generalizing S with
  | nil => exact ⟨[], by simp [awardGrants], .nil ..⟩
  | cons g gs ih =>
    obtain ⟨grants, hS, hg⟩ := awardGrant_awarded env now classId seatId actorSeatId
      correlationId S g
    obtain ⟨grants', hS', hgs⟩ := ih { S with entitlementEvents := S.entitlementEvents ++ grants }
    refine ⟨grants ++ grants', ?_, ?_, ?_⟩
    · simp only [awardGrants, hS, hS', List.append_assoc]
    · intro e he
      exact (List.mem_append.1 he).elim (hg.perks e) (hgs.perks e)
    · have hunits := hg.units.append hgs.units
      rwa [← List.map_append, configuredUnits, configuredUnits, ← List.flatMap_append,
        List.singleton_append] at hunits

theorem awardSatisfactionPerks_awarded {settings : RentSettings}
    (h : awardSatisfactionPerks env now S settings classId seatId correlationId = .ok (n, S')) :
    ∃ grants, S' = { S with entitlementEvents := S.entitlementEvents ++ grants } ∧
      Awarded classId correlationId settings.satisfactionBenefits grants := by
  unfold awardSatisfactionPerks at h
  split_ifs at h with hnone
  · rw [pure_eq_ok, Prod.mk.injEq] at h
    exact ⟨[], by simp [← h.2], .nil ..⟩
  · simp only [bind_eq_ok, pure_eq_ok] at h
    obtain ⟨actorSeatId, -, h⟩ := h
    obtain ⟨grants, hS, hawarded⟩ := awardGrants_awarded env now classId seatId actorSeatId
      correlationId S settings.satisfactionBenefits
    rw [h] at hS
    exact ⟨grants, hS, hawarded⟩

end Awards

section Authorization

variable {q : RentPaymentRequest} {a : ObligationAssessment} {state : ObligationState}
  {p : AuthorizedPayment}

structure Verified (S : RentState) (q : RentPaymentRequest) (a : ObligationAssessment)
    (state : ObligationState) : Prop where
  lawful : q.paymentAmount.bind requestedAmountProblem = none
  assessment : getAssessmentForCorrelation S q.correlationId = some a
  stateOf : getObligationState S q.correlationId = some state
  rentDomain : a.obligationType = .rent ∨ a.obligationType = .lateFee
  classId : a.classId = q.classId
  seatId : a.seatId = q.seatId
  notWithdrawn : getWithdrawalEvent S q.correlationId = none
  notWaived : ∀ e ∈ getSatisfactionEvents S q.correlationId, e.eventType ≠ .waived
  seat : S.ledger.seatClass q.seatId = some q.classId

theorem verifyRentPayment_ok (h : verifyRentPayment S q = .ok (a, state)) :
    Verified S q a state := by
  unfold verifyRentPayment at h
  split at h
  · cases h
  · next hlawful =>
    simp only [demand_bind_eq_ok, require_bind_eq_ok, pure_eq_ok, Prod.mk.injEq] at h
    obtain ⟨b, hb, st, hst, hdomain, ⟨hclass, hseat⟩, hwithdrawn, hwaived, hin, rfl, rfl⟩ := h
    have hstate := hst
    simp only [getObligationState, hb, Option.map_some, Option.some.injEq] at hstate
    rw [← hstate] at hwithdrawn hwaived
    refine ⟨hlawful, hb, hst, hdomain, hclass, hseat, ?_, ?_, hin⟩
    · exact Option.not_isSome_iff_eq_none.1 (by simpa using hwithdrawn)
    · simpa using hwaived

structure Authorized (S : RentState) (q : RentPaymentRequest) (a : ObligationAssessment)
    (p : AuthorizedPayment) : Prop where
  settings : (rentPolicy S a.policyUuid).or (getRentSettings S q.classId) = some p.settings
  assessed : p.assessedAmount = resolveAssessmentAmount S a
  paidBefore : p.paidBefore = getPaidMagnitude S q.correlationId
  positive : 0 < p.thisPayment
  atMost : p.thisPayment ≤ p.assessedAmount - p.paidBefore
  requested : p.thisPayment = match q.paymentAmount with
    | none => p.assessedAmount - p.paidBefore
    | some d => min (cents d) (p.assessedAmount - p.paidBefore)
  incremental : p.thisPayment < p.assessedAmount - p.paidBefore →
    p.settings.allowIncrementalPayment = true

theorem authorizeRentPayment_ok (h : authorizeRentPayment S q a = .ok p) :
    Authorized S q a p := by
  unfold authorizeRentPayment at h
  simp only [demand_bind_eq_ok, require_bind_eq_ok] at h
  obtain ⟨settings, hsettings, hassessed, hremaining, h⟩ := h
  split at h
  · next hnone =>
    rw [pure_eq_ok] at h
    subst h
    exact ⟨hsettings, rfl, rfl, hremaining, le_rfl, by rw [hnone], by simp⟩
  · next d hd =>
    rw [require_bind_eq_ok] at h
    obtain ⟨hpos, h⟩ := h
    split_ifs at h with hle
    · rw [pure_eq_ok] at h
      subst h
      exact ⟨hsettings, rfl, rfl, hremaining, le_rfl, by rw [hd]; exact (min_eq_right hle).symm,
        by simp⟩
    · rw [require_bind_eq_ok, pure_eq_ok] at h
      obtain ⟨hallowed, rfl⟩ := h
      exact ⟨hsettings, rfl, rfl, hpos, (not_le.1 hle).le,
        by rw [hd]; exact (min_eq_left (not_le.1 hle).le).symm, fun _ ↦ hallowed⟩

end Authorization

section Posting

variable {q : RentPaymentRequest} {a : ObligationAssessment} {state : ObligationState}
  {p : AuthorizedPayment} {L : LedgerState} {debit : Transaction}

def paymentEvent (S : RentState) (now : Instant) (q : RentPaymentRequest)
    (a : ObligationAssessment) (debit : Transaction) : ObligationAssessment where
  id := S.assessmentEvents.length + 1
  seatId := q.seatId
  classId := q.classId
  internalRef := a.internalRef
  correlationId := q.correlationId
  eventType := .payment
  obligationType := a.obligationType
  timestamp := now
  billCycleId := a.billCycleId
  ledgerTransactionId := some debit.id

theorem getAssessmentForCorrelation_spec {correlationId : String}
    (h : getAssessmentForCorrelation S correlationId = some a) :
    a ∈ S.assessmentEvents ∧ a.correlationId = correlationId ∧ a.IsAssessment := by
  have hfound := List.find?_some h
  simp only [decide_eq_true_eq] at hfound
  exact ⟨List.mem_of_find?_eq_some h, hfound⟩

theorem getWithdrawalEvent_none {correlationId : String}
    (h : getWithdrawalEvent S correlationId = none) :
    ∀ f ∈ S.assessmentEvents, f.eventType = .withdrawn → f.correlationId ≠ correlationId := by
  intro f hf hw hcorr
  have hnone := List.find?_eq_none.1 h f hf
  simp only [decide_eq_true_eq, not_and] at hnone
  exact hnone hcorr hw

theorem RentInvariant.found (h : RentInvariant sha256 S) {a : ObligationAssessment}
    (ha : a ∈ S.assessmentEvents) (hass : a.IsAssessment) :
    getAssessmentForCorrelation S a.correlationId = some a := by
  have hsome : (getAssessmentForCorrelation S a.correlationId).isSome := by
    rw [getAssessmentForCorrelation, List.find?_isSome]
    exact ⟨a, ha, decide_eq_true ⟨rfl, hass⟩⟩
  obtain ⟨b, hb⟩ := Option.isSome_iff_exists.1 hsome
  obtain ⟨hmem, hcorr, hbss⟩ := getAssessmentForCorrelation_spec hb
  rw [hb, h.assessedOnce b hmem a ha hbss hass hcorr]

theorem RentInvariant.payment_fresh (h : RentInvariant sha256 S)
    (hnew : ∀ t ∈ S.ledger.transactions, t.id ≠ debit.id) :
    ∀ e ∈ S.assessmentEvents, e.eventType = .payment → e.ledgerTransactionId ≠ some debit.id := by
  intro e he hp hid
  obtain ⟨t, ht, hid'⟩ := h.payments e he hp
  rw [hid', Option.some.injEq] at hid
  exact hnew t ht hid

theorem satisfyObligation_pays (h : RentInvariant sha256 S) (hv : Verified S q a state)
    (hnew : ∀ t ∈ S.ledger.transactions, t.id ≠ debit.id) {now : Instant}
    {e : ObligationAssessment}
    (hok : satisfyObligation { S with ledger := L } now
      { correlationId := q.correlationId, classId := q.classId, seatId := q.seatId,
        method := .payment, ledgerTransactionId := some debit.id } = .ok (e, S')) :
    S' = addEvent { S with ledger := L } (paymentEvent S now q a debit) := by
  have hnone : getPaymentEventByLedger { S with ledger := L } debit.id = none := by
    rw [getPaymentEventByLedger, List.find?_eq_none]
    intro e he
    have hne := h.payment_fresh hnew e he
    simp only [decide_eq_true_eq, not_and]
    intro hid hp
    exact hne hp hid
  have hfound : getAssessmentForCorrelation { S with ledger := L } q.correlationId = some a :=
    hv.assessment
  rw [satisfyObligation, demand_bind_eq_ok] at hok
  obtain ⟨b, hb, hok⟩ := hok
  obtain rfl : b = a := Option.some.inj (hb.symm.trans hfound)
  simp only [require_bind_eq_ok, existingSatisfaction, Option.bind_some, hnone, pure_eq_ok,
    Prod.mk.injEq] at hok
  exact hok.2.2.2.2.2.symm

/-- What a fresh payment leaves: its charge, the `PAYMENT` that names its debit, and perks only
where it completes a rent whose period has begun. -/
structure RentPosted (sha256 : String → String) (env : Surroundings) (feat : FeatContext)
    (S : RentState) (q : RentPaymentRequest) (a : ObligationAssessment) (state : ObligationState)
    (p : AuthorizedPayment) (resolved : ResolvedLedgerPlan) (transfers : List Transaction)
    (debit : Transaction) (r : LedgerCommandReservation) (L : LedgerState)
    (grants : List EntitlementEvent) (S' : RentState) : Prop where
  small : |p.thisPayment| < 10 ^ 28
  resolvedOn : ResolvedOn S.ledger (rentPlan q resolved.intendedPlan.targetSeatId p.thisPayment)
    (env.bankingDirective q.classId).protectionEnabled resolved
  covered : 0 ≤ resolved.checkingAfter
  charge : ChargePosted sha256 feat S.ledger resolved (rentLedgerKey q.idempotencyKey) transfers
    debit r L
  awarded : Awarded q.classId q.correlationId p.settings.satisfactionBenefits grants
  completes : grants ≠ [] → p.assessedAmount ≤ p.paidBefore + p.thisPayment ∧
    p.paidBefore < p.assessedAmount ∧ a.obligationType = .rent ∧
      state.dueAt ≤ feat.canonicalNowUtc
  state : S' = { addEvent { S with ledger := L } (paymentEvent S feat.canonicalNowUtc q a debit)
    with entitlementEvents := S.entitlementEvents ++ grants }

/-- A fresh payment that returns either is refused for its funds, and leaves the state alone, or
is posted. -/
theorem postRentPayment_ok (h : RentInvariant sha256 S) (hv : Verified S q a state)
    (hnew : S.ledger.reservations.find? (·.identity = q.ledgerIdentity feat) = none)
    {res : RentPaymentResult}
    (hok : postRentPayment sha256 env feat S q a state p = .ok (res, S')) :
    (res.success = false ∧ S' = S) ∨
      ∃ resolved transfers debit r L grants,
        RentPosted sha256 env feat S q a state p resolved transfers debit r L grants S' ∧
          res.success = true ∧ res.amountPaid = p.thisPayment ∧
            res.transactionId = some debit.id := by
  rw [postRentPayment, bind_eq_ok] at hok
  obtain ⟨authority, -, hok⟩ := hok
  rw [bind_eq_ok] at hok
  obtain ⟨intended, hbuild, hok⟩ := hok
  rw [bind_eq_ok] at hok
  obtain ⟨resolved, hresolve, hok⟩ := hok
  split_ifs at hok with hcovered
  · rw [pure_eq_ok, Prod.mk.injEq] at hok
    exact .inl ⟨by rw [← hok.1]; rfl, hok.2.symm⟩
  · rw [bind_eq_ok] at hok
    obtain ⟨⟨applied, L⟩, happly, hok⟩ := hok
    rw [demand_bind_eq_ok] at hok
    obtain ⟨debit, hdebit, hok⟩ := hok
    obtain ⟨hcreated, hsmall, hr, transfers, r, hposted⟩ :=
      charge_posts h.ledger rfl rfl hnew hbuild hresolve happly hdebit
    have hrow := hposted.grows.new_row hposted.transactions
      (List.mem_append_right transfers (List.mem_singleton_self debit))
    have hcovered' : 0 ≤ resolved.checkingAfter := not_lt.1 hcovered
    have hrplan : ResolvedOn S.ledger
        (rentPlan q resolved.intendedPlan.targetSeatId p.thisPayment)
          (env.bankingDirective q.classId).protectionEnabled resolved := by
      rw [hr.plan_eq]
      exact hr
    rw [bind_eq_ok] at hok
    obtain ⟨⟨e, S₁⟩, hpay, hok⟩ := hok
    obtain rfl := satisfyObligation_pays h hv hrow hpay
    simp only at hok
    refine .inr ⟨resolved, transfers, debit, r, L, ?_⟩
    split_ifs at hok with hperks
    · rw [bind_eq_ok] at hok
      obtain ⟨⟨n, S₂⟩, haward, hok⟩ := hok
      rw [pure_eq_ok, Prod.mk.injEq] at hok
      obtain ⟨rfl, rfl⟩ := hok
      obtain ⟨grants, hS, hawarded⟩ := awardSatisfactionPerks_awarded haward
      simp only [Bool.and_eq_true, decide_eq_true_eq] at hperks
      exact ⟨grants, ⟨hsmall, hrplan, hcovered', hposted, hawarded,
        fun _ ↦ ⟨hperks.1.1.1, hperks.1.1.2, hperks.2⟩, hS⟩, rfl, rfl, rfl⟩
    · rw [pure_bind, pure_eq_ok, Prod.mk.injEq] at hok
      obtain ⟨rfl, rfl⟩ := hok
      exact ⟨[], ⟨hsmall, hrplan, hcovered', hposted, .nil .., by simp, by simp [addEvent]⟩,
        rfl, rfl, rfl⟩

end Posting

end TokenHub.Rent
