import TokenHub.Insurance.PremiumWrites

set_option autoImplicit false

namespace TokenHub.Insurance

open Ledger Rent Lib.Checks Lib.Json

variable {sha256 : String → String} {zones : String → CoverageZone} {bounded : Prop}
  {env : Surroundings} {feat : FeatContext} {S S' : InsuranceState} {now : Instant}
  {res : CoverageResult}

section Target

def Outstanding (R : RentState) (a : ObligationAssessment) : Prop :=
  a ∈ R.assessmentEvents ∧ a.IsAssessment ∧
    ∃ s, getObligationState R a.correlationId = some s ∧ s.status = .outstanding

/-- The default target of a coverage is its outstanding premium that was due first. -/
structure EarliestTarget (S : InsuranceState) (g : CoverageEvent) : Prop where
  found : ∀ s, getDefaultPaymentTarget S.toRentState g.classId
      (premiumLineageRef g.entitlementId) = some s →
    ∃ c ∈ lineage S.toRentState g.entitlementId, ∃ a, PremiumFor g c a ∧
      Outstanding S.toRentState a ∧ s.correlationId = a.correlationId ∧
      s.dueAt = c.cycleBoundaryAt ∧
      ∀ c' ∈ lineage S.toRentState g.entitlementId, ∀ a', PremiumFor g c' a' →
        Outstanding S.toRentState a' → c.cycleBoundaryAt ≤ c'.cycleBoundaryAt
  missing : getDefaultPaymentTarget S.toRentState g.classId
      (premiumLineageRef g.entitlementId) = none →
    ∀ c ∈ lineage S.toRentState g.entitlementId, ∀ a, PremiumFor g c a →
      ¬ Outstanding S.toRentState a

/-- The fold keeps the earliest of the states that it meets. -/
theorem foldl_earlierDue (ss : List ObligationState) (best : Option ObligationState) :
    (∀ s, ss.foldl earlierDue best = some s → (best = some s ∨ s ∈ ss) ∧
      (∀ b ∈ best, s.dueAt ≤ b.dueAt) ∧ ∀ x ∈ ss, s.dueAt ≤ x.dueAt) ∧
      (ss.foldl earlierDue best = none → best = none ∧ ss = []) := by
  induction ss generalizing best with
  | nil =>
    refine ⟨fun s hs ↦ ⟨.inl hs, ?_, by simp⟩, fun hnone ↦ ⟨hnone, rfl⟩⟩
    intro b hb
    rw [Option.some.inj (hs.symm.trans hb)]
  | cons x xs ih =>
    obtain ⟨hsome, hnone⟩ := ih (earlierDue best x)
    have hnext : ∃ n, earlierDue best x = some n ∧ (n = x ∨ best = some n) ∧
        n.dueAt ≤ x.dueAt ∧ ∀ b ∈ best, n.dueAt ≤ b.dueAt := by
      cases best with
      | none => exact ⟨x, rfl, .inl rfl, le_rfl, by simp⟩
      | some b =>
        by_cases hlt : x.dueAt < b.dueAt ∨ (x.dueAt = b.dueAt ∧ x.correlationId < b.correlationId)
        · refine ⟨x, by rw [earlierDue, if_pos hlt], .inl rfl, le_rfl, ?_⟩
          intro b' hb'
          obtain rfl := Option.some.inj hb'
          rcases hlt with hlt | ⟨heq, -⟩
          · exact hlt.le
          · exact heq.le
        · refine ⟨b, by rw [earlierDue, if_neg hlt], .inr rfl, ?_, ?_⟩
          · push Not at hlt
            exact hlt.1
          · intro b' hb'
            rw [Option.some.inj hb']
    obtain ⟨n, hn, horigin, hx, hbest⟩ := hnext
    refine ⟨fun s hs ↦ ?_, fun hnil ↦ ?_⟩
    · obtain ⟨hmem, hle, hall⟩ := hsome s hs
      have hsn := hle n hn
      refine ⟨?_, fun b hb ↦ hsn.trans (hbest b hb), ?_⟩
      · rcases hmem with hmem | hmem
        · obtain rfl := Option.some.inj (hn.symm.trans hmem)
          rcases horigin with rfl | horigin
          · exact .inr (List.mem_cons_self ..)
          · exact .inl horigin
        · exact .inr (List.mem_cons_of_mem x hmem)
      · intro y hy
        rcases List.mem_cons.1 hy with rfl | hy
        · exact hsn.trans hx
        · exact hall y hy
    · have habsurd := (hnone hnil).1
      rw [hn] at habsurd
      cases habsurd

theorem CoverageInvariant.assessment_unique (h : CoverageInvariant sha256 zones bounded S)
    {a b : ObligationAssessment} (ha : a ∈ S.assessmentEvents) (hb : b ∈ S.assessmentEvents)
    (haa : a.IsAssessment) (hbb : b.IsAssessment) (hcorr : a.correlationId = b.correlationId) :
    a = b := by
  have hsymm : Std.Symm (fun a b : ObligationAssessment ↦
      a.correlationId ≠ b.correlationId ∧ a.billCycleId ≠ b.billCycleId) :=
    ⟨fun _ _ hne ↦ ⟨hne.1.symm, hne.2.symm⟩⟩
  by_contra hne
  exact (h.assessedOnce.forall (List.mem_filter.2 ⟨ha, decide_eq_true haa⟩)
    (List.mem_filter.2 ⟨hb, decide_eq_true hbb⟩) hne).1 hcorr

theorem CoverageInvariant.assessment_found (h : CoverageInvariant sha256 zones bounded S)
    {a : ObligationAssessment} (ha : a ∈ S.assessmentEvents) (haa : a.IsAssessment) :
    getAssessmentForCorrelation S.toRentState a.correlationId = some a := by
  have hsome : (getAssessmentForCorrelation S.toRentState a.correlationId).isSome := by
    rw [getAssessmentForCorrelation, List.find?_isSome]
    exact ⟨a, ha, decide_eq_true ⟨rfl, haa⟩⟩
  obtain ⟨b, hb⟩ := Option.isSome_iff_exists.1 hsome
  obtain ⟨hmem, hcorr, hbb⟩ := getAssessmentForCorrelation_spec hb
  rw [hb, h.assessment_unique hmem ha hbb haa hcorr]

/-- The outstanding states that the default target is chosen from. -/
theorem CoverageInvariant.mem_candidates (h : CoverageInvariant sha256 zones bounded S)
    {g : CoverageEvent} (hg : Granted S g) (s : ObligationState) :
    s ∈ ((S.assessmentEvents.filter (fun e ↦ e.classId = g.classId ∧
        e.internalRef = premiumLineageRef g.entitlementId ∧ e.eventType = .assessment)).filterMap
          (fun e ↦ getObligationState S.toRentState e.correlationId)).filter
            (·.status = .outstanding) ↔
      ∃ c ∈ lineage S.toRentState g.entitlementId, ∃ a, PremiumFor g c a ∧
        Outstanding S.toRentState a ∧
          getObligationState S.toRentState a.correlationId = some s := by
  rw [List.mem_filter, List.mem_filterMap]
  constructor
  · rintro ⟨⟨a, ha, hs⟩, hout⟩
    obtain ⟨hmem, hfields⟩ := List.mem_filter.1 ha
    obtain ⟨-, href, hass⟩ := of_decide_eq_true hfields
    obtain ⟨g', c, hg', hc, -, hfor⟩ := h.assessments a hmem hass
    obtain rfl : g' = g := h.grantsUnique g' g hg' hg
      (premiumLineageRef_injective (hfor.internalRef.symm.trans href))
    exact ⟨c, hc, a, hfor, ⟨hmem, hass, s, hs, of_decide_eq_true hout⟩, hs⟩
  · rintro ⟨c, -, a, hfor, ⟨hmem, hass, s', hs', hout⟩, hs⟩
    obtain rfl := Option.some.inj (hs'.symm.trans hs)
    exact ⟨⟨a, List.mem_filter.2 ⟨hmem, decide_eq_true ⟨hfor.classId, hfor.internalRef, hass⟩⟩,
      hs⟩, decide_eq_true hout⟩

theorem CoverageInvariant.dueAt_of (h : CoverageInvariant sha256 zones bounded S)
    {g : CoverageEvent} {c : BillCycle} {a : ObligationAssessment} {s : ObligationState}
    (hc : c ∈ lineage S.toRentState g.entitlementId) (hfor : PremiumFor g c a)
    (hout : Outstanding S.toRentState a)
    (hs : getObligationState S.toRentState a.correlationId = some s) :
    s.correlationId = a.correlationId ∧ s.dueAt = c.cycleBoundaryAt := by
  rw [getObligationState, h.assessment_found hout.1 hout.2.1, Option.map_some,
    Option.some.injEq] at hs
  rw [← hs]
  exact ⟨rfl, h.dueAt (List.mem_of_mem_filter hc) hfor⟩

theorem CoverageInvariant.earliestTarget (h : CoverageInvariant sha256 zones bounded S)
    {g : CoverageEvent} (hg : Granted S g) : EarliestTarget S g := by
  constructor
  · intro s htarget
    obtain ⟨hmem, -, hall⟩ := (foldl_earlierDue _ none).1 s htarget
    obtain ⟨c, hc, a, hfor, hout, hs⟩ :=
      (h.mem_candidates hg s).1 (hmem.resolve_left (by simp))
    obtain ⟨hcorr, hdue⟩ := h.dueAt_of hc hfor hout hs
    refine ⟨c, hc, a, hfor, hout, hcorr, hdue, ?_⟩
    intro c' hc' a' hfor' hout'
    obtain ⟨s', hs', -⟩ := hout'.2.2
    have hle := hall s' ((h.mem_candidates hg s').2 ⟨c', hc', a', hfor', hout', hs'⟩)
    rwa [hdue, (h.dueAt_of hc' hfor' hout' hs').2] at hle
  · intro hnone c hc a hfor hout
    have hnil := ((foldl_earlierDue _ none).2 hnone).2
    obtain ⟨s, hs, -⟩ := hout.2.2
    have hmem := (h.mem_candidates hg s).2 ⟨c, hc, a, hfor, hout, hs⟩
    rw [hnil] at hmem
    cases hmem

end Target

section Refusals

theorem attemptAutopay_refused {classId correlationId : String}
    {seatId entitlementId cycleNumber : ℕ}
    (hok : attemptAutopay sha256 env feat S classId seatId entitlementId cycleNumber
      correlationId = .ok (false, S')) : S' = S := by
  unfold attemptAutopay at hok
  split at hok
  · rw [pure_eq_ok, Prod.mk.injEq] at hok
    exact hok.2.symm
  · split_ifs at hok
    · rw [pure_eq_ok, Prod.mk.injEq] at hok
      exact hok.2.symm
    · rw [pure_eq_ok, Prod.mk.injEq] at hok
      exact hok.2.symm
    · simp only [bind_eq_ok] at hok
      obtain ⟨actorSeatId, -, affordable, -, hok⟩ := hok
      split_ifs at hok
      · rw [pure_eq_ok, Prod.mk.injEq] at hok
        exact hok.2.symm
      · simp only [bind_eq_ok, Prod.exists, pure_eq_ok, Prod.mk.injEq] at hok
        obtain ⟨debit, S₁, -, habsurd, -⟩ := hok
        cases habsurd

theorem purchaseInsurance_refused {zone : CoverageZone} {q : PurchaseRequest}
    (hok : purchaseInsurance sha256 zone env feat S q = .ok (res, S'))
    (hres : res.success = false) : S' = S := by
  simp only [purchaseInsurance, require_bind_eq_ok] at hok
  obtain ⟨-, -, hok⟩ := hok
  split_ifs at hok
  · rw [pure_eq_ok, Prod.mk.injEq] at hok
    exact hok.2.symm
  · rw [pure_eq_ok, Prod.mk.injEq] at hok
    exact hok.2.symm
  · split at hok
    · rw [pure_eq_ok, Prod.mk.injEq] at hok
      exact hok.2.symm
    · rw [bind_eq_ok] at hok
      obtain ⟨checked, -, hok⟩ := hok
      split at hok
      · rw [pure_eq_ok, Prod.mk.injEq] at hok
        exact hok.2.symm
      · simp only [recordPurchase, bind_eq_ok, Prod.exists, pure_eq_ok, Prod.mk.injEq] at hok
        obtain ⟨_, _, -, _, _, -, _, _, -, _, _, -, rfl, -⟩ := hok
        cases hres

end Refusals

section Payment

variable {q : PremiumPaymentRequest}

/-- The answer that a state holds to a payment command that was accepted. -/
structure PaymentAnswered (sha256 : String → String) (S : InsuranceState)
    (q : PremiumPaymentRequest) (res : CoverageResult) : Prop where
  keyed : q.idempotencyKey ≠ ""
  seat : S.ledger.seatClass q.seatId = some q.classId
  evidence : ∃ principal, replayReservedCharge sha256 S.ledger
      ⟨q.classId, "FEAT-OBL-003", q.ledgerKey⟩ q.seatId q.seatId .insurancePremium
        q.canonicalIntent = .ok (some principal) ∧
    replayedPremiumPayment S.toRentState q principal = .ok { res with replayed := true }

theorem getPaymentEventByLedger_append {R R' : RentState} {es : List ObligationAssessment}
    {rowId : ℕ} {e : ObligationAssessment} (hes : R'.assessmentEvents = R.assessmentEvents ++ es)
    (h : getPaymentEventByLedger R rowId = some e) : getPaymentEventByLedger R' rowId = some e := by
  rw [getPaymentEventByLedger] at h ⊢
  rw [hes, List.find?_append, h, Option.some_or]

theorem PaymentAnswered.kept (h : PaymentAnswered sha256 S q res) (hx : CoverageKept sha256 S S') :
    PaymentAnswered sha256 S' q res := by
  obtain ⟨principal, hreplay, hresult⟩ := h.evidence
  obtain ⟨es, hes⟩ := hx.events
  refine ⟨h.keyed, ?_, principal, replayReservedCharge_grows hx.ledger hreplay, ?_⟩
  · rw [hx.ledger.seatClass]
    exact h.seat
  · simp only [replayedPremiumPayment, demand_bind_eq_ok, require_bind_eq_ok] at hresult ⊢
    obtain ⟨payment, hpayment, a, ha, hscope, hresult⟩ := hresult
    exact ⟨payment, getPaymentEventByLedger_append hes.symm hpayment, a,
      getAssessmentForCorrelation_append hes.symm ha, hscope, hresult⟩

/-- A retry of an answered command returns the answer, and writes nothing. -/
theorem PaymentAnswered.retry (h : PaymentAnswered sha256 S q res)
    (hfeat : feat.activeFeat = "FEAT-OBL-003") :
    payInsurancePremium sha256 env feat S q = .ok ({ res with replayed := true }, S) := by
  obtain ⟨principal, hreplay, hresult⟩ := h.evidence
  simp only [payInsurancePremium, require_of h.keyed, ok_bind, hfeat, h.seat, ne_eq,
    not_true_eq_false, if_false, hreplay, hresult]
  rfl

theorem getObligationState_spec {R : RentState} {correlationId : String} {s : ObligationState}
    (h : getObligationState R correlationId = some s) : s.correlationId = correlationId ∧
      ∃ a, getAssessmentForCorrelation R correlationId = some a ∧ s.seatId = a.seatId := by
  obtain ⟨a, ha, rfl⟩ := Option.map_eq_some_iff.1 h
  exact ⟨rfl, a, ha, rfl⟩

theorem CoverageInvariant.target_assessment (h : CoverageInvariant sha256 zones bounded S)
    {s : ObligationState} (htarget : paymentTarget S.toRentState q = some s) :
    ∃ a, getAssessmentForCorrelation S.toRentState s.correlationId = some a ∧
      getObligationState S.toRentState s.correlationId = some s ∧
      s.seatId = a.seatId ∧ a.classId = q.classId ∧
      a.internalRef = premiumLineageRef q.entitlementId := by
  unfold paymentTarget at htarget
  split at htarget
  · obtain ⟨hmem, -⟩ := (foldl_earlierDue _ none).1 s htarget
    obtain ⟨e, he, hs⟩ := List.mem_filterMap.1
      (List.mem_of_mem_filter (hmem.resolve_left (by simp)))
    obtain ⟨hmem, hfields⟩ := List.mem_filter.1 he
    obtain ⟨hclass, href, hass⟩ := of_decide_eq_true hfields
    obtain ⟨hcorr, a, ha, hseat⟩ := getObligationState_spec hs
    obtain rfl : e = a := Option.some.inj ((h.assessment_found hmem hass).symm.trans ha)
    rw [hcorr]
    exact ⟨e, ha, hs, hseat, hclass, href⟩
  · next c _ =>
    split_ifs at htarget with hany
    obtain ⟨a, ha, hlineage⟩ := (Option.any_eq_true ..).1 hany
    obtain ⟨hcorr, b, hb, hseat⟩ := getObligationState_spec htarget
    obtain rfl : a = b := Option.some.inj (ha.symm.trans hb)
    obtain ⟨href, hclass⟩ := of_decide_eq_true hlineage
    rw [hcorr]
    exact ⟨a, ha, htarget, hseat, hclass, href⟩

def PremiumPaymentRequest.charge (q : PremiumPaymentRequest) (s : ObligationState) :
    PremiumCharge where
  classId := q.classId
  seatId := q.seatId
  correlationId := s.correlationId
  amount := s.remainingAmount
  actorSeatId := q.seatId
  canonicalIntent := q.canonicalIntent

/-- How a payment command ends: it is refused, it answers an accepted one, or it posts. -/
theorem payInsurancePremium_cases
    (hok : payInsurancePremium sha256 env feat S q = .ok (res, S')) :
    (res.success = false ∧ S' = S) ∨
    (∃ principal, S.ledger.seatClass q.seatId = some q.classId ∧ q.idempotencyKey ≠ "" ∧
      replayReservedCharge sha256 S.ledger ⟨q.classId, feat.activeFeat, q.ledgerKey⟩ q.seatId
        q.seatId .insurancePremium q.canonicalIntent = .ok (some principal) ∧
      replayedPremiumPayment S.toRentState q principal = .ok res ∧ S' = S) ∨
    ∃ s debit, S.ledger.seatClass q.seatId = some q.classId ∧ q.idempotencyKey ≠ "" ∧
      S.ledger.reservations.find? (·.identity = ⟨q.classId, feat.activeFeat, q.ledgerKey⟩) = none ∧
      paymentTarget S.toRentState q = some s ∧ s.seatId = q.seatId ∧ s.status = .outstanding ∧
      settleInsurancePremium sha256 env feat S (q.charge s) q.ledgerKey = .ok (debit, S') ∧
      res = { success := true, correlationId := some s.correlationId,
              transactionId := some debit.id, amount := s.remainingAmount } := by
  simp only [payInsurancePremium, require_bind_eq_ok] at hok
  obtain ⟨hkey, hok⟩ := hok
  split_ifs at hok with hseat
  · rw [pure_eq_ok, Prod.mk.injEq] at hok
    exact .inl ⟨by rw [← hok.1]; rfl, hok.2.symm⟩
  · rw [bind_eq_ok] at hok
    obtain ⟨prior, hprior, hok⟩ := hok
    cases prior with
    | some principal =>
      simp only [bind_eq_ok, pure_eq_ok, Prod.mk.injEq] at hok
      obtain ⟨result, hresult, rfl, rfl⟩ := hok
      exact .inr (.inl ⟨principal, not_not.1 hseat, hkey, hprior, hresult, rfl⟩)
    | none =>
      simp only at hok
      split at hok
      · rw [pure_eq_ok, Prod.mk.injEq] at hok
        exact .inl ⟨by rw [← hok.1]; rfl, hok.2.symm⟩
      · next s htarget =>
        obtain ⟨htarget, hown⟩ := Option.mem_filter_iff.1 htarget
        split_ifs at hok with houtstanding
        · rw [pure_eq_ok, Prod.mk.injEq] at hok
          exact .inl ⟨by rw [← hok.1]; rfl, hok.2.symm⟩
        · rw [bind_eq_ok] at hok
          obtain ⟨affordable, -, hok⟩ := hok
          split_ifs at hok
          · rw [pure_eq_ok, Prod.mk.injEq] at hok
            exact .inl ⟨by rw [← hok.1]; rfl, hok.2.symm⟩
          · simp only [bind_eq_ok, Prod.exists, pure_eq_ok, Prod.mk.injEq] at hok
            obtain ⟨debit, S₁, hsettle, rfl, rfl⟩ := hok
            exact .inr (.inr ⟨s, debit, not_not.1 hseat, hkey, replayReservedCharge_none hprior,
              htarget, of_decide_eq_true hown, not_not.1 houtstanding, hsettle, rfl⟩)

theorem payInsurancePremium_answered (h : PremiumsPaid sha256 S)
    (hc : CoverageInvariant sha256 zones bounded S) (hfeat : feat.activeFeat = "FEAT-OBL-003")
    (hok : payInsurancePremium sha256 env feat S q = .ok (res, S')) (hres : res.success = true) :
    PaymentAnswered sha256 S' q res := by
  rcases payInsurancePremium_cases hok with ⟨hrefused, -⟩ |
    ⟨principal, hseat, hkey, hreplay, hresult, rfl⟩ |
    ⟨s, debit, hseat, hkey, hnew, htarget, hown, hout, hsettle, rfl⟩
  · rw [hres] at hrefused
    cases hrefused
  · rw [hfeat] at hreplay
    refine ⟨hkey, hseat, principal, hreplay, ?_⟩
    have hflag := hresult
    simp only [replayedPremiumPayment, demand_bind_eq_ok, require_bind_eq_ok, pure_eq_ok] at hflag
    obtain ⟨_, -, _, -, -, rfl⟩ := hflag
    exact hresult
  · obtain ⟨a₀, hfound, hstate, hseatOf, hclass, href⟩ := hc.target_assessment htarget
    obtain ⟨-, a₁, ha₁, hamount, -⟩ := h.outstanding hstate hout
    obtain ⟨resolved, transfers, r, L, a, hp⟩ := settleInsurancePremium_posts h hnew hsettle
    obtain rfl : a₀ = a := Option.some.inj (hfound.symm.trans hp.assessment)
    obtain ⟨authority, enabled, hon⟩ := hp.resolvedOn
    have hplan := hon.plan_eq
    have hdebit := hp.debit_of h.ledger
    have hsmall := hp.small
    have hpositive := hp.positive
    have hother : TransactionType.insurancePremium ≠ .legacyWithdrawal ∧
        TransactionType.insurancePremium ≠ .legacyDeposit := by decide
    have hreplay := hp.posted.replays (.refl hp.posted.grows.sound) hother
      (by rw [hplan]; rfl) (by rw [hplan]; rfl) (by rw [hplan]; exact hpositive)
      (by rw [hplan]; exact hsmall) (hon.abs_transfer_lt h.ledger.balance)
    rw [hplan, hfeat] at hreplay
    obtain ⟨payment, hpayment, hcorr⟩ : ∃ payment,
        getPaymentEventByLedger S'.toRentState debit.id = some payment ∧
          payment.correlationId = s.correlationId := by
      have hnone : S.assessmentEvents.find? (fun e ↦ e.ledgerTransactionId = some debit.id ∧
          e.eventType = .payment) = none := by
        rw [List.find?_eq_none]
        intro e he hfields
        obtain ⟨hid, htype⟩ := of_decide_eq_true hfields
        obtain ⟨_, _, t, ht, hold⟩ := h.paid e he htype
        rw [hid, Option.some.injEq] at ht
        exact hp.posted.grows.new_row hp.posted.transactions (by simp) t hold.mem ht.symm
      refine ⟨premiumPayment S.toRentState feat.canonicalNowUtc (q.charge s) a₀ debit, ?_, rfl⟩
      rw [hp.state, getPaymentEventByLedger, List.find?_append, hnone, Option.none_or]
      simp [premiumPayment]
    have hassessed : getAssessmentForCorrelation S'.toRentState s.correlationId = some a₀ := by
      rw [hp.state]
      exact getAssessmentForCorrelation_append rfl hfound
    refine ⟨hkey, ?_, debit, ?_, ?_⟩
    · rw [hp.state]
      exact hp.posted.seatClass ▸ hseat
    · rw [hp.state]
      exact hreplay
    · have hcents : |debit.amountCents| = s.remainingAmount := by
        rw [hdebit.whole, abs_neg]
        exact abs_of_pos hpositive
      simp only [replayedPremiumPayment, hpayment, demand_some, ok_bind, hcorr, hassessed]
      rw [require_of ⟨hclass, hseatOf.symm.trans hown, href⟩, ok_bind, hcents]
      rfl

end Payment

section Purchase

variable {q : PurchaseRequest}

theorem scheduleCoverageCycle_coverage {zone : ClassZone} {c : ScheduleNextBillCycleRequest}
    {cycle : BillCycle} (hok : scheduleCoverageCycle sha256 zone S c = .ok (cycle, S')) :
    S'.coverageEvents = S.coverageEvents := by
  simp only [scheduleCoverageCycle, require_bind_eq_ok] at hok
  obtain ⟨-, -, -, hok⟩ := hok
  split at hok
  · simp only [bind_eq_ok, pure_eq_ok, Prod.mk.injEq] at hok
    obtain ⟨-, -, _, -, -, rfl⟩ := hok
    rfl
  · rw [require_bind_eq_ok, bind_eq_ok] at hok
    obtain ⟨-, number, -, hok⟩ := hok
    rw [require_bind_eq_ok, pure_eq_ok, Prod.mk.injEq] at hok
    rw [← hok.2.2]

theorem settleInsurancePremium_coverage {c : PremiumCharge} {key : String} {debit : Transaction}
    (hok : settleInsurancePremium sha256 env feat S c key = .ok (debit, S')) :
    S'.coverageEvents = S.coverageEvents := by
  simp only [settleInsurancePremium, bind_eq_ok, Prod.exists, pure_eq_ok, Prod.mk.injEq] at hok
  obtain ⟨_, -, _, -, _, -, _, _, -, _, -, _, _, -, -, rfl⟩ := hok
  rfl

theorem purchaseInsurance_retry {zone : CoverageZone} {e : CoverageEvent}
    (hpolicy : q.policyUuid ≠ "") (hkey : q.idempotencyKey ≠ "")
    (hcontext : ¬ (q.classId = "" ∨ q.seatId = 0))
    (hseat : S.ledger.seatClass q.seatId = some q.classId)
    (hprior : priorGrant S q.classId q.seatId q.correlationId = some e) :
    purchaseInsurance sha256 zone env feat S q = .ok (
      { success := true, replayed := true, correlationId := some q.correlationId,
        entitlementId := some e.entitlementId }, S) := by
  simp only [purchaseInsurance, require_of hpolicy, require_of hkey, ok_bind, if_neg hcontext,
    hseat, ne_eq, not_true_eq_false, if_false, hprior]
  rfl

theorem purchaseInsurance_answered {zone : CoverageZone}
    (hok : purchaseInsurance sha256 zone env feat S q = .ok (res, S'))
    (hres : res.success = true)
    (hseats : S'.ledger.seatClass = S.ledger.seatClass) :
    q.policyUuid ≠ "" ∧ q.idempotencyKey ≠ "" ∧ ¬ (q.classId = "" ∨ q.seatId = 0) ∧
      S'.ledger.seatClass q.seatId = some q.classId ∧
      ∃ e, priorGrant S' q.classId q.seatId q.correlationId = some e ∧
        res.entitlementId = some e.entitlementId := by
  simp only [purchaseInsurance, require_bind_eq_ok] at hok
  obtain ⟨hpolicy, hkey, hok⟩ := hok
  split_ifs at hok with hcontext hseat
  · rw [pure_eq_ok, Prod.mk.injEq] at hok
    rw [← hok.1] at hres
    cases hres
  · rw [pure_eq_ok, Prod.mk.injEq] at hok
    rw [← hok.1] at hres
    cases hres
  · refine ⟨hpolicy, hkey, hcontext, by rw [hseats]; exact not_not.1 hseat, ?_⟩
    split at hok
    · next e he =>
      rw [pure_eq_ok, Prod.mk.injEq] at hok
      obtain ⟨rfl, rfl⟩ := hok
      exact ⟨e, he, rfl⟩
    · next hprior =>
      rw [bind_eq_ok] at hok
      obtain ⟨checked, -, hok⟩ := hok
      split at hok
      · rw [pure_eq_ok, Prod.mk.injEq] at hok
        rw [← hok.1] at hres
        cases hres
      · simp only [recordPurchase, grantInsuranceEntitlement, hprior, bind_eq_ok, Prod.exists,
          require_eq_ok, pure_eq_ok, Prod.mk.injEq] at hok
        obtain ⟨n, S₁, ⟨_, -, rfl, rfl⟩, c, S₂, hschedule, created, R, -, debit, S₃, hsettle,
          rfl, rfl⟩ := hok
        have hscheduled := scheduleCoverageCycle_coverage hschedule
        have hevents := (settleInsurancePremium_coverage hsettle).trans hscheduled
        rw [priorGrant, hevents, List.find?_append]
        rw [priorGrant] at hprior
        rw [hprior, Option.none_or]
        exact ⟨purchaseGrant S feat.canonicalNowUtc q, by simp [purchaseGrant], rfl⟩

end Purchase

end TokenHub.Insurance
