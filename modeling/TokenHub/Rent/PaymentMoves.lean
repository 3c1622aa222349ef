import TokenHub.Rent.Bill
import TokenHub.Rent.Lifecycle
import TokenHub.Rent.Posting

set_option autoImplicit false

namespace TokenHub.Rent

open Ledger Lib.Decimals Lib.Checks Lib.SequencedLog

variable {sha256 : String → String} {zones : String → ClassZone} {env : Surroundings}
  {feat : FeatContext} {S S' : RentState}

section Payment

variable {q : RentPaymentRequest} {a : ObligationAssessment} {state : ObligationState}
  {p : AuthorizedPayment} {resolved : ResolvedLedgerPlan} {transfers : List Transaction}
  {debit : Transaction} {r : LedgerCommandReservation} {L : LedgerState}
  {grants : List EntitlementEvent}

theorem RentPosted.debit_amount
    (hp : RentPosted sha256 env feat S q a state p resolved transfers debit r L grants S') :
    debit.amountCents = -p.thisPayment := by
  rw [hp.charge.debitOf.amount, hp.resolvedOn.plan_eq]
  exact quantizeCurrency_ofCents (by rw [abs_neg]; exact hp.small)

theorem Verified.dueAt (hv : Verified S q a state) :
    state.dueAt = resolveAssessmentDueAt S a := by
  have hstate := hv.stateOf
  simp only [getObligationState, hv.assessment, Option.map_some, Option.some.injEq] at hstate
  rw [← hstate]

theorem Authorized.policy (h : RentInvariant sha256 S) (ha : a ∈ S.assessmentEvents)
    (hass : a.IsAssessment) (hauth : Authorized S q a p) :
    rentPolicy S a.policyUuid = some p.settings := by
  obtain ⟨r, hr, -⟩ := h.policy ha hass
  have hsettings := hauth.settings
  rw [hr, Option.some_or] at hsettings
  rw [hr, hsettings]

theorem RentInvariant.grantedUnits_eq_nil_of_unpaid (h : RentInvariant sha256 S)
    (ha : a ∈ S.assessmentEvents) (hass : a.IsAssessment)
    (hlt : getPaidMagnitude S a.correlationId < resolveAssessmentAmount S a) :
    grantedUnits S a.correlationId = [] := by
  rw [grantedUnits, List.map_eq_nil_iff, List.filter_eq_nil_iff]
  intro e he
  simp only [decide_eq_true_eq, not_and]
  intro hgrant hcorr
  obtain ⟨b, hb, hbss, -, hcorr', -, hle⟩ := h.perks e he hgrant
  rw [hcorr', Option.some.injEq] at hcorr
  obtain rfl : b = a := h.assessedOnce b hb a ha hbss hass hcorr
  exact absurd hle (not_le.2 hlt)

/-- A posted payment is a write of the Ledger, then of the `PAYMENT`, then of its perks. -/
theorem RentPosted.moves (h : RentInvariant sha256 S) (hv : Verified S q a state)
    (hauth : Authorized S q a p)
    (hp : RentPosted sha256 env feat S q a state p resolved transfers debit r L grants S') :
    Moves sha256 zones feat.canonicalNowUtc S S' := by
  obtain ⟨ha, hcorr, hass⟩ := getAssessmentForCorrelation_spec hv.assessment
  have hledger : Move sha256 zones feat.canonicalNowUtc S { S with ledger := L } :=
    .ledger hp.charge.ledgerGrows
  obtain ⟨h₁, hx₁⟩ := h.move hledger
  have hpaid₁ : getPaidMagnitude { S with ledger := L } a.correlationId = p.paidBefore := by
    rw [hx₁.paid h [] (List.append_nil _).symm, sumOver_nil, add_zero, hcorr, hauth.paidBefore]
  have hdebit : debit ∈ L.transactions := by
    rw [hp.charge.transactions]
    simp
  have hmag : |debit.amountCents| = p.thisPayment := by
    rw [hp.debit_amount, abs_neg, abs_of_pos hauth.positive]
  have hadmits : Admits { S with ledger := L } (paymentEvent S feat.canonicalNowUtc q a debit) := by
    refine .pay ha hass hcorr rfl hdebit rfl ?_ ?_ ?_
    · exact h.payment_fresh (hp.charge.grows.new_row hp.charge.transactions
        (List.mem_append_right transfers (List.mem_singleton_self debit)))
    · exact getWithdrawalEvent_none hv.notWithdrawn
    · have hamount : resolveAssessmentAmount { S with ledger := L } a = p.assessedAmount :=
        hauth.assessed.symm
      have hle := hauth.atMost
      rw [hpaid₁, hmag, hamount]
      omega
  have hevent : Move sha256 zones feat.canonicalNowUtc { S with ledger := L }
      (addEvent { S with ledger := L } (paymentEvent S feat.canonicalNowUtc q a debit)) :=
    .event rfl hadmits
  have htwo := (Relation.ReflTransGen.single hledger).tail hevent
  by_cases hgrants : grants = []
  · rw [hp.state, hgrants, List.append_nil]
    exact htwo
  · obtain ⟨hfull, hunpaid, hrent, hdue⟩ := hp.completes hgrants
    have hpolicy : rentPolicy S a.policyUuid = some p.settings := hauth.policy h ha hass
    rw [hp.state]
    refine htwo.tail (.grant (mem_addEvent.2 (.inl ha)) hass hrent hpolicy ?_ ?_ ?_ ?_
      hp.awarded.units)
    · have hamount : resolveAssessmentAmount (addEvent { S with ledger := L }
          (paymentEvent S feat.canonicalNowUtc q a debit)) a = p.assessedAmount :=
        hauth.assessed.symm
      have hevmag : paymentEventMagnitude (addEvent { S with ledger := L }
          (paymentEvent S feat.canonicalNowUtc q a debit))
            (paymentEvent S feat.canonicalNowUtc q a debit) = p.thisPayment := by
        rw [← hmag]
        exact rowMagnitude_eq h₁.ledger hdebit
      rw [getPaidMagnitude_addEvent h₁, if_pos ⟨hcorr.symm, .inl rfl⟩, hpaid₁, hevmag, hamount]
      exact hfull
    · refine h.grantedUnits_eq_nil_of_unpaid ha hass ?_
      rw [hcorr, ← hauth.paidBefore, ← hauth.assessed]
      exact hunpaid
    · rw [hv.dueAt] at hdue
      exact hdue
    · intro e he
      rw [hcorr, hv.classId]
      exact hp.awarded.perks e he

theorem payRent_moves (h : RentInvariant sha256 S) {res : RentPaymentResult}
    (hok : payRent sha256 env feat S q = .ok (res, S')) :
    Moves sha256 zones feat.canonicalNowUtc S S' := by
  rw [payRent, require_bind_eq_ok, require_bind_eq_ok] at hok
  obtain ⟨-, -, hok⟩ := hok
  split at hok
  · rw [pure_eq_ok, Prod.mk.injEq] at hok
    rw [← hok.2]
  · next a state hverify =>
    rw [bind_eq_ok] at hok
    obtain ⟨prior, hprior, hok⟩ := hok
    cases prior with
    | some debit =>
      simp only [bind_eq_ok, pure_eq_ok, Prod.mk.injEq] at hok
      obtain ⟨-, -, -, rfl⟩ := hok
      exact .refl
    | none =>
      simp only at hok
      split at hok
      · rw [pure_eq_ok, Prod.mk.injEq] at hok
        rw [← hok.2]
      · next p hauth =>
        have hv := verifyRentPayment_ok hverify
        rcases postRentPayment_ok h hv (replayReservedCharge_none hprior) hok with
          ⟨-, rfl⟩ | ⟨resolved, transfers, debit, r, L, grants, hp, -⟩
        · exact .refl
        · exact hp.moves h hv (authorizeRentPayment_ok hauth)

end Payment

section Bill

variable {q : RentBillRequest}

theorem paySlices_moves (h : RentInvariant sha256 S) {budget : ℤ}
    {slices : List (ObligationAssessment × ℤ)} {results : List RentPaymentResult}
    (hok : paySlices sha256 env feat q S budget slices = .ok (results, S')) :
    Moves sha256 zones feat.canonicalNowUtc S S' := by
  induction slices generalizing S budget results with
  | nil =>
    rw [paySlices, pure_eq_ok, Prod.mk.injEq] at hok
    rw [← hok.2]
  | cons slice rest ih =>
    obtain ⟨ob, remaining⟩ := slice
    rw [paySlices] at hok
    split_ifs at hok with hspent hsettled
    · rw [pure_eq_ok, Prod.mk.injEq] at hok
      rw [← hok.2]
    · exact ih h hok
    · rw [bind_eq_ok] at hok
      obtain ⟨⟨sub, S₁⟩, hpay, hok⟩ := hok
      have hmoves : Moves sha256 zones feat.canonicalNowUtc S S₁ := payRent_moves h hpay
      simp only at hok
      split_ifs at hok with hsub
      · rw [bind_eq_ok] at hok
        obtain ⟨⟨subs, S₂⟩, hrest, hok⟩ := hok
        rw [pure_eq_ok, Prod.mk.injEq] at hok
        obtain rfl := hok.2
        exact hmoves.trans (ih (h.moves hmoves).invariant hrest)
      · rw [pure_eq_ok, Prod.mk.injEq] at hok
        rw [← hok.2]
        exact hmoves

theorem payRentBill_moves (h : RentInvariant sha256 S) {res : RentBillPaymentResult}
    (hok : payRentBill sha256 env feat S q = .ok (res, S')) :
    Moves sha256 zones feat.canonicalNowUtc S S' := by
  unfold payRentBill at hok
  split at hok
  · rw [pure_eq_ok, Prod.mk.injEq] at hok
    rw [← hok.2]
  · simp only at hok
    split_ifs at hok with hnone howed hseat
    · rw [pure_eq_ok, Prod.mk.injEq] at hok
      rw [← hok.2]
    · rw [pure_eq_ok, Prod.mk.injEq] at hok
      rw [← hok.2]
    · rw [pure_eq_ok, Prod.mk.injEq] at hok
      rw [← hok.2]
    · rw [bind_eq_ok] at hok
      obtain ⟨funded, -, hok⟩ := hok
      split_ifs at hok with hfunded
      · rw [bind_eq_ok] at hok
        obtain ⟨⟨results, S₁⟩, hslices, hok⟩ := hok
        rw [pure_eq_ok, Prod.mk.injEq] at hok
        rw [← hok.2]
        exact paySlices_moves h hslices
      · rw [pure_eq_ok, Prod.mk.injEq] at hok
        rw [← hok.2]

end Bill

section Waiver

theorem waive_moves {now stamp : Instant} {q : SatisfyObligationRequest}
    (hmethod : q.method = .waived) {e : ObligationAssessment}
    (hok : satisfyObligation S stamp q = .ok (e, S')) :
    Moves sha256 zones now S S' := by
  rw [satisfyObligation, demand_bind_eq_ok] at hok
  obtain ⟨a, hfound, hok⟩ := hok
  simp only [require_bind_eq_ok] at hok
  obtain ⟨-, hopen, -, -, hok⟩ := hok
  split at hok
  · rw [pure_eq_ok, Prod.mk.injEq] at hok
    rw [← hok.2]
  · rw [pure_eq_ok, Prod.mk.injEq] at hok
    obtain ⟨ha, hcorr, hass⟩ := getAssessmentForCorrelation_spec hfound
    rw [← hok.2]
    exact .single (.event rfl
      (.waive ha hass hcorr (by simp [hmethod]) (getWithdrawalEvent_none hopen)))

theorem withdrawAssessment_moves {now stamp : Instant} {q : WithdrawAssessmentRequest}
    {e : ObligationAssessment} (hok : withdrawAssessment S stamp q = .ok (e, S')) :
    Moves sha256 zones now S S' := by
  rw [withdrawAssessment, demand_bind_eq_ok] at hok
  obtain ⟨a, hfound, hok⟩ := hok
  obtain ⟨ha, hcorr, hass⟩ := getAssessmentForCorrelation_spec (Option.mem_filter_iff.1 hfound).1
  split at hok
  · rw [pure_eq_ok, Prod.mk.injEq] at hok
    rw [← hok.2]
  · simp only [demand_bind_eq_ok, require_bind_eq_ok, pure_eq_ok, Prod.mk.injEq] at hok
    obtain ⟨cycle, -, -, hnone, -, hS⟩ := hok
    rw [← hS]
    refine .single (.event rfl (.withdraw ha hass rfl rfl ?_))
    intro f hf hs hcorr'
    have hmem : f ∈ getSatisfactionEvents S q.correlationId :=
      List.mem_filter.2 ⟨hf, decide_eq_true ⟨hcorr'.trans hcorr, hs⟩⟩
    rw [hnone] at hmem
    cases hmem

end Waiver

end TokenHub.Rent
