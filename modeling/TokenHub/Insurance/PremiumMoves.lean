import TokenHub.Insurance.Lifecycle
import TokenHub.Rent.Posting

set_option autoImplicit false

namespace TokenHub.Insurance

open Ledger Rent Lib.Checks Lib.Tiling

variable {sha256 : String → String} {zones : String → CoverageZone} {bounded : Prop}
  {env : Surroundings} {feat : FeatContext} {S S' : InsuranceState} {now : Instant}

section Moves

variable (sha256) (zones) (bounded) (now)

abbrev CoverageMoves : InsuranceState → InsuranceState → Prop :=
  Relation.ReflTransGen (CoverageMove sha256 zones bounded now)

/-- What the writes of a coverage command leave: the invariant again, all that was recorded, and
the claims with their effects as they were. -/
structure CoverageProgress (S S' : InsuranceState) : Prop where
  invariant : CoverageInvariant sha256 zones bounded S'
  kept : CoverageKept sha256 S S'
  elsewhere : GrowsElsewhere sha256 claimsFeat S.ledger S'.ledger
  claims : S'.claims = S.claims
  claimDates : S'.claimDates = S.claimDates
  payrollEvents : S'.payrollEvents = S.payrollEvents

variable {sha256} {zones} {bounded} {now}

theorem CoverageInvariant.moves (h : CoverageInvariant sha256 zones bounded S)
    (hm : CoverageMoves sha256 zones bounded now S S') :
    CoverageProgress sha256 zones bounded S S' := by
  induction hm with
  | refl => exact ⟨h, .refl h, .refl h.ledger, rfl, rfl, rfl⟩
  | @tail S₁ S₂ _ hlast ih =>
    obtain ⟨hinv, hx⟩ := ih.invariant.move hlast
    have hsame : GrowsElsewhere sha256 claimsFeat S₁.ledger S₂.ledger ∧ S₂.claims = S₁.claims ∧
        S₂.claimDates = S₁.claimDates ∧ S₂.payrollEvents = S₁.payrollEvents := by
      cases hlast with
      | ledger hL => exact ⟨hL, rfl, rfl, rfl⟩
      | _ => exact ⟨.refl ih.invariant.ledger, rfl, rfl, rfl⟩
    obtain ⟨hL, hc, hd, he⟩ := hsame
    exact ⟨hinv, ih.kept.trans hx, ih.elsewhere.trans hL, hc.trans ih.claims,
      hd.trans ih.claimDates, he.trans ih.payrollEvents⟩

end Moves

section Settlement

variable {q : PremiumCharge} {key : String} {debit : Transaction}

def premiumPayment (S : RentState) (now : Instant) (q : PremiumCharge)
    (a : ObligationAssessment) (debit : Transaction) : ObligationAssessment where
  id := S.assessmentEvents.length + 1
  seatId := q.seatId
  classId := q.classId
  internalRef := a.internalRef
  correlationId := q.correlationId
  eventType := .payment
  obligationType := a.obligationType
  timestamp := now
  billCycleId := a.billCycleId
  ledgerTransactionId := some debit.id

/-- What an accepted premium payment leaves: its debit, and the `PAYMENT` that names it. -/
structure PremiumSettled (sha256 : String → String) (feat : FeatContext) (S : InsuranceState)
    (q : PremiumCharge) (key : String) (debit : Transaction) (L : LedgerState)
    (a : ObligationAssessment) (S' : InsuranceState) : Prop where
  grows : GrowsElsewhere sha256 claimsFeat S.ledger L
  row : debit ∈ L.transactions
  assessment : getAssessmentForCorrelation S.toRentState q.correlationId = some a
  classId : a.classId = q.classId
  seatId : a.seatId = q.seatId
  notWithdrawn : getWithdrawalEvent S.toRentState q.correlationId = none
  mechanism : S.ledger.reservations.find? (·.identity = ⟨q.classId, feat.activeFeat, key⟩) = none →
    debit.mechanism = q.mechanism
  state : (S' = { S with ledger := L } ∧
      ∃ e ∈ S.assessmentEvents, e.eventType = .payment ∧
        e.ledgerTransactionId = some debit.id) ∨
    S' = { S with
      ledger := L
      assessmentEvents := S.assessmentEvents ++
        [premiumPayment S.toRentState feat.canonicalNowUtc q a debit] }

theorem resolvePremiumFunding_ok {L : LedgerState} {resolved : ResolvedLedgerPlan}
    (hok : resolvePremiumFunding env L q = .ok resolved) : ∃ authority intended,
      buildIntendedLedgerPlan (q.plan authority) = .ok intended ∧
        resolveIntendedLedgerPlan L intended (env.bankingDirective q.classId) = .ok resolved := by
  simp only [resolvePremiumFunding, bind_eq_ok] at hok
  obtain ⟨authority, -, intended, hbuild, hresolve⟩ := hok
  exact ⟨authority, intended, hbuild, hresolve⟩

theorem settleInsurancePremium_ok (hs : LedgerSound sha256 S.ledger)
    (hfeat : feat.activeFeat ≠ claimsFeat)
    (hok : settleInsurancePremium sha256 env feat S q key = .ok (debit, S')) :
    ∃ L a, PremiumSettled sha256 feat S q key debit L a S' := by
  simp only [settleInsurancePremium, require_bind_eq_ok] at hok
  obtain ⟨-, hok⟩ := hok
  rw [bind_eq_ok] at hok
  obtain ⟨resolved, hfunding, hok⟩ := hok
  rw [require_bind_eq_ok] at hok
  obtain ⟨-, hok⟩ := hok
  simp only [bind_eq_ok, Prod.exists, demand_eq_ok, pure_eq_ok, Prod.mk.injEq] at hok
  obtain ⟨applied, L, happly, principal, hprincipal, e, R, hsatisfy, rfl, rfl⟩ := hok
  obtain ⟨authority, intended, hbuild, hresolve⟩ := resolvePremiumFunding_ok hfunding
  have hintended : intended.compensationOriginLocator = none ∧ intended.sourceAccount = .checking ∧
      intended.classId = q.classId := by
    simp only [buildIntendedLedgerPlan, require_bind_eq_ok, pure_eq_ok] at hbuild
    obtain ⟨-, rfl⟩ := hbuild
    exact ⟨rfl, rfl, rfl⟩
  have hplan := (resolveIntendedLedgerPlan_ok hs.balance hintended.2.1 hresolve).plan_eq
  obtain ⟨hgrows, hrow⟩ := GrowsElsewhere.charge hs hfeat (by rw [hplan]; exact hintended.1) happly
  have hmechanism : S.ledger.reservations.find?
      (·.identity = ⟨q.classId, feat.activeFeat, key⟩) = none →
        principal.mechanism = q.mechanism := by
    intro hnew
    obtain ⟨-, -, hon, transfers, r, hposted⟩ := charge_posts hs rfl rfl hnew hbuild hresolve happly
      hprincipal
    have hm := hposted.debitOf.mechanism
    rw [hon.plan_eq, principalEffect, PremiumCharge.plan, LedgerMechanism.ofString_value,
      Option.some.injEq] at hm
    exact hm.symm
  rw [satisfyObligation, demand_bind_eq_ok] at hsatisfy
  obtain ⟨a, hfound, hsatisfy⟩ := hsatisfy
  simp only [require_bind_eq_ok] at hsatisfy
  obtain ⟨⟨hclass, hseat⟩, hopen, -, -, hsatisfy⟩ := hsatisfy
  refine ⟨L, a, hgrows, hrow _ hprincipal, hfound, hclass, hseat, hopen, hmechanism, ?_⟩
  split at hsatisfy
  · next e' hexisting =>
    rw [pure_eq_ok, Prod.mk.injEq] at hsatisfy
    obtain ⟨rfl, rfl⟩ := hsatisfy
    refine .inl ⟨rfl, e', List.mem_of_find?_eq_some hexisting, ?_⟩
    have hfields : e'.ledgerTransactionId = some principal.id ∧ e'.eventType = .payment := by
      simpa using List.find?_some hexisting
    exact ⟨hfields.2, hfields.1⟩
  · rw [pure_eq_ok, Prod.mk.injEq] at hsatisfy
    rw [← hsatisfy.2]
    exact .inr rfl

theorem PremiumSettled.moves {L : LedgerState} {a : ObligationAssessment}
    (hp : PremiumSettled sha256 feat S q key debit L a S')
    (honce : debit.mechanism = .system → ∀ f ∈ S.assessmentEvents, f.IsSatisfaction →
      f.correlationId ≠ q.correlationId) :
    CoverageMoves sha256 zones bounded feat.canonicalNowUtc S S' := by
  obtain ⟨ha, hcorr, hass⟩ := getAssessmentForCorrelation_spec hp.assessment
  have hledger : CoverageMove sha256 zones bounded feat.canonicalNowUtc S { S with ledger := L } :=
    .ledger hp.grows
  rcases hp.state with ⟨rfl, -⟩ | rfl
  · exact .single hledger
  · exact (Relation.ReflTransGen.single hledger).tail
      (.pay (S := { S with ledger := L }) ha hass hcorr rfl rfl hp.row rfl honce)

end Settlement

section Periods

variable {zone : CoverageZone}

/-- A succession under a new identity appends the cycle that the lineage admits next. -/
theorem scheduleCoverageCycle_ok {q : ScheduleNextBillCycleRequest} {c : BillCycle}
    (hnew : ∀ r ∈ S.successions, r.idempotencyKey ≠ q.idempotencyKey)
    (hok : scheduleCoverageCycle sha256 zone.toClassZone S q = .ok (c, S')) :
    ∃ number r, nextCycleNumber q.internalRef q.referenceTimeUtc (getCoverageEligibility S
        zone.toClassZone q.classId q.referenceTimeUtc q.internalRef) = .ok number ∧
      q.cycleBoundaryAt < q.nextAssessmentAt ∧ c = successor S.toRentState q number ∧
      r.idempotencyKey = q.idempotencyKey ∧
      S' = { S with billCycles := S.billCycles ++ [c], successions := S.successions ++ [r] } := by
  simp only [scheduleCoverageCycle, require_bind_eq_ok] at hok
  obtain ⟨-, -, -, hok⟩ := hok
  split at hok
  · next r hr =>
    have hkey : r.classId = q.classId ∧ r.idempotencyKey = q.idempotencyKey := by
      simpa using List.find?_some hr
    exact absurd hkey.2 (hnew r (List.mem_of_find?_eq_some hr))
  · rw [require_bind_eq_ok, bind_eq_ok] at hok
    obtain ⟨hlt, number, hnumber, hok⟩ := hok
    rw [require_bind_eq_ok, pure_eq_ok, Prod.mk.injEq] at hok
    obtain ⟨-, rfl, rfl⟩ := hok
    exact ⟨number, _, hnumber, hlt, rfl, rfl, rfl⟩

theorem assessObligation_ok {R R' : RentState} {q : AssessmentRequest} {created : Bool}
    (hfresh : ∀ e ∈ R.assessmentEvents, e.IsAssessment → e.internalRef = q.internalRef →
      e.correlationId ≠ q.correlationId)
    (hok : assessObligation R now q = .ok (created, R')) :
    R' = addEvent R
      { id := R.assessmentEvents.length + 1, seatId := q.seatId, classId := q.classId,
        internalRef := q.internalRef, correlationId := q.correlationId,
        sourceCorrelationId := q.sourceCorrelationId, eventType := .assessment,
        obligationType := q.obligationType, policyUuid := q.policyUuid, timestamp := now,
        billCycleId := q.billCycleId } := by
  simp only [assessObligation, require_bind_eq_ok] at hok
  obtain ⟨-, -, -, hok⟩ := hok
  split_ifs at hok with hseen
  · simp only [checkIdempotencyAssessment, List.any_eq_true, decide_eq_true_eq] at hseen
    obtain ⟨e, he, href, hcorr, hass⟩ := hseen
    exact absurd hcorr (hfresh e he hass href)
  · rw [pure_eq_ok, Prod.mk.injEq] at hok
    exact hok.2.symm

def openedCycle (S : RentState) (t : CycleTerms) : BillCycle where
  id := S.billCycles.length + 1
  classId := t.classId
  internalRef := premiumLineageRef t.entitlementId
  cycleNumber := t.cycleNumber
  policyUuid := t.policyUuid
  cycleBoundaryAt := t.startAt
  nextAssessmentAt := some t.endAt
  graceBoundaryAt := none

def openedPremium (S : RentState) (now : Instant) (t : CycleTerms) : ObligationAssessment where
  id := S.assessmentEvents.length + 1
  seatId := t.seatId
  classId := t.classId
  internalRef := premiumLineageRef t.entitlementId
  correlationId := premiumCorrelationId t.entitlementId t.cycleNumber
  eventType := .assessment
  obligationType := .insurancePremium
  policyUuid := t.policyUuid
  timestamp := now
  billCycleId := some (S.billCycles.length + 1)

/-- The tables once a period and its premium are recorded, before its automatic payment. -/
def withPeriod (S : InsuranceState) (now : Instant) (t : CycleTerms)
    (r : ObligationCommandReservation) : InsuranceState :=
  { S with
    billCycles := S.billCycles ++ [openedCycle S.toRentState t]
    successions := S.successions ++ [r]
    assessmentEvents := S.assessmentEvents ++ [openedPremium S.toRentState now t] }

theorem openPeriod_ok {t : CycleTerms} {paid : Bool}
    (hnew : ∀ r ∈ S.successions,
      r.idempotencyKey ≠ successionCommandIdentity t.entitlementId t.cycleNumber)
    (hnumber : nextCycleNumber (premiumLineageRef t.entitlementId) feat.canonicalNowUtc
      (getCoverageEligibility S zone.toClassZone t.classId feat.canonicalNowUtc
        (premiumLineageRef t.entitlementId)) = .ok t.cycleNumber)
    (hfresh : ∀ e ∈ S.assessmentEvents,
      e.correlationId ≠ premiumCorrelationId t.entitlementId t.cycleNumber)
    (hok : openPeriod sha256 zone env feat S t = .ok (paid, S')) :
    t.startAt < t.endAt ∧ ∃ r,
      r.idempotencyKey = successionCommandIdentity t.entitlementId t.cycleNumber ∧
      attemptAutopay sha256 env feat (withPeriod S feat.canonicalNowUtc t r) t.classId t.seatId
        t.entitlementId t.cycleNumber (premiumCorrelationId t.entitlementId t.cycleNumber) =
          .ok (paid, S') := by
  simp only [openPeriod, bind_eq_ok, Prod.exists] at hok
  obtain ⟨c, S₁, hschedule, created, R, hassess, hpay⟩ := hok
  obtain ⟨number, r, hnext, hlt, rfl, hkey, rfl⟩ := scheduleCoverageCycle_ok hnew hschedule
  obtain rfl : t.cycleNumber = number := Except.ok.inj (hnumber.symm.trans hnext)
  obtain rfl : R = _ := by
    refine assessObligation_ok ?_ hassess
    exact fun e he _ _ ↦ hfresh e he
  exact ⟨hlt, r, hkey, hpay⟩

/-- An automatic payment of a premium that nothing has touched makes the writes of a payment. -/
theorem attemptAutopay_moves (h : CoverageInvariant sha256 zones bounded S)
    (hfeat : feat.activeFeat ≠ claimsFeat) {classId correlationId : String}
    {seatId entitlementId cycleNumber : ℕ} {paid : Bool}
    (hnone : ∀ f ∈ S.assessmentEvents, f.IsSatisfaction → f.correlationId ≠ correlationId)
    (hok : attemptAutopay sha256 env feat S classId seatId entitlementId cycleNumber
      correlationId = .ok (paid, S')) :
    CoverageMoves sha256 zones bounded feat.canonicalNowUtc S S' := by
  unfold attemptAutopay at hok
  split at hok
  · rw [pure_eq_ok, Prod.mk.injEq] at hok
    rw [← hok.2]
  · split_ifs at hok with houtstanding hremaining
    · rw [pure_eq_ok, Prod.mk.injEq] at hok
      rw [← hok.2]
    · rw [pure_eq_ok, Prod.mk.injEq] at hok
      rw [← hok.2]
    · simp only [bind_eq_ok] at hok
      obtain ⟨actorSeatId, -, affordable, -, hok⟩ := hok
      split_ifs at hok
      · rw [pure_eq_ok, Prod.mk.injEq] at hok
        rw [← hok.2]
      · simp only [bind_eq_ok, Prod.exists, pure_eq_ok, Prod.mk.injEq] at hok
        obtain ⟨debit, S₁, hsettle, -, rfl⟩ := hok
        obtain ⟨L, a, hp⟩ := settleInsurancePremium_ok h.ledger hfeat hsettle
        exact hp.moves (fun _ ↦ hnone)

end Periods

end TokenHub.Insurance
