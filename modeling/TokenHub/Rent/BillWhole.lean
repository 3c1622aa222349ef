import TokenHub.Rent.BillRuns
import TokenHub.Rent.LifecycleRuns
import TokenHub.Rent.Reconcile

set_option autoImplicit false

namespace TokenHub.Rent

open Ledger Lib.Decimals Lib.Checks Lib.Json Lib.Runs Lib.SequencedLog

section Statement

def debitedCents (S S' : RentState) : ℤ :=
  (((S'.ledger.transactions.drop S.ledger.transactions.length).filter
    (isPrincipal .rentPayment)).map (|·.amountCents|)).sum

/-- What results report that name rows of an earlier state. -/
def replayedCents (S : RentState) (results : List RentPaymentResult) : ℤ :=
  ((results.filter (fun r ↦ S.ledger.transactions.any (fun t ↦ r.transactionId = some t.id))).map
    (·.amountPaid)).sum

structure PaidWhole (S : RentState) (q : RentBillRequest) (res : RentBillPaymentResult)
    (S' : RentState) : Prop where
  refused : res.success = false → S'.ledger.transactions = S.ledger.transactions ∧
    S'.ledger.reservations = S.ledger.reservations ∧
      S'.assessmentEvents = S.assessmentEvents ∧ S'.entitlementEvents = S.entitlementEvents
  debited : res.success = true →
    debitedCents S S' + replayedCents S res.perObligation = res.amountPaid
  within : res.success = true → ∀ a ∈ S.assessmentEvents, a.IsAssessment →
    getPaidMagnitude S' a.correlationId - getPaidMagnitude S a.correlationId ≤
      remainingAmount S a.correlationId
  rentFirst : res.success = true → ∀ fee ∈ getObligationsArisingFrom S q.rentCorrelationId,
    getPaidMagnitude S fee.correlationId < getPaidMagnitude S' fee.correlationId →
      remainingAmount S' q.rentCorrelationId = 0

variable (sha256 : String → String) (env : Surroundings) (feat : FeatContext) (S : RentState)
  (q : RentBillRequest)

/-- The slices that a bill command sets out to pay: none where it is refused before the first. -/
def billSlices : List BillSlice :=
  let obligations := billObligationsInOrder S q.rentCorrelationId
  let budget := billBudget q (groupRemaining S obligations)
  if q.paymentAmount.bind requestedAmountProblem = none ∧
      S.ledger.seatClass q.seatId = some q.classId ∧
      (obligations.any (fun ob ↦ billSliceAlreadyPosted sha256 feat S q ob.correlationId) ∨
        affordable env S q.classId q.seatId (cents (.ofCents budget))) then
    q.split sha256 feat S budget
      (obligations.map (fun ob ↦ (ob, remainingAmount S ob.correlationId)))
  else []

/-- No slice is declined where the slices before it have newly taken `spent` or more. -/
def NoneDeclined : ℤ → List BillSlice → Prop
  | _, [] => True
  | spent, s :: rest => ¬ Declined env S q spent s ∧ NoneDeclined (spent + s.fresh) rest

/-- Where a slice is declined, none before it was newly posted. -/
def StopsClean : ℤ → List BillSlice → Prop
  | _, [] => True
  | spent, s :: rest =>
    if Declined env S q spent s then spent = 0 else StopsClean (spent + s.fresh) rest

/-- The condition on the state and the request under which a bill is paid whole: a declined slice
comes before any that is newly posted, and where the rent's slice is a replay that leaves
something of the rent, no late fee is newly paid after it. -/
structure SettlesWhole : Prop where
  stopsClean : StopsClean env S q 0 (billSlices sha256 env feat S q)
  rentFirst : NoneDeclined env S q 0 (billSlices sha256 env feat S q) →
    ∀ s ∈ billSlices sha256 env feat S q, s.obligation.correlationId = q.rentCorrelationId →
      s.prior ≠ none → ∀ t ∈ billSlices sha256 env feat S q, t.prior ≠ none

end Statement

variable {sha256 : String → String} {env : Surroundings} {feat : FeatContext}
  {S S' : RentState} {q : RentBillRequest} {slices posted : List BillSlice} {spent : ℤ}
  {results : List RentPaymentResult}

section Settlement

theorem Settled.noneDeclined_iff (h : Settled env q S spent slices results posted) :
    NoneDeclined env S q spent slices ↔ results.find? (·.success = false) = none := by
  induction h with
  | nil => simp [NoneDeclined]
  | declined hdec hfail => simp [NoneDeclined, hdec, hfail]
  | replayed hnot hprior hsuccess _ _ ih =>
    simp only [NoneDeclined, hnot, not_false_eq_true, true_and, BillSlice.fresh, hprior,
      reduceCtorEq, if_false, add_zero, ih]
    simp [hsuccess]
  | posted hnot hprior _ hsuccess _ _ _ ih =>
    simp only [NoneDeclined, hnot, not_false_eq_true, true_and, BillSlice.fresh, hprior, if_true,
      ih]
    simp [hsuccess]

theorem Settled.stopsClean_iff (h : Settled env q S spent slices results posted)
    (hspent : 0 ≤ spent) : StopsClean env S q spent slices ↔
      NoneDeclined env S q spent slices ∨ (spent = 0 ∧ posted = []) := by
  induction h with
  | nil => simp [NoneDeclined, StopsClean]
  | declined hdec _ => simp [NoneDeclined, StopsClean, hdec]
  | replayed hnot hprior _ _ _ ih =>
    simp only [NoneDeclined, StopsClean, hnot, not_false_eq_true, true_and, BillSlice.fresh,
      hprior, reduceCtorEq, if_false, add_zero]
    exact ih hspent
  | posted hnot hprior hamount _ _ _ _ ih =>
    simp only [NoneDeclined, StopsClean, hnot, not_false_eq_true, true_and, BillSlice.fresh,
      hprior, if_true, if_false, reduceCtorEq, and_false, or_false]
    rw [ih (by omega)]
    exact or_iff_left (fun hc ↦ by omega)

/-- Where none is declined, the slices newly posted are those not posted before. -/
theorem Settled.posted_eq (h : Settled env q S spent slices results posted)
    (hnone : NoneDeclined env S q spent slices) : posted = slices.filter (·.prior = none) := by
  induction h with
  | nil => rfl
  | declined hdec _ => exact absurd hdec hnone.1
  | replayed _ hprior _ _ _ ih =>
    have hrest := hnone.2
    rw [BillSlice.fresh, hprior, if_neg (by simp), add_zero] at hrest
    rw [ih hrest]
    simp [hprior]
  | posted _ hprior _ _ _ _ _ ih =>
    have hrest := hnone.2
    rw [BillSlice.fresh, if_pos hprior] at hrest
    rw [ih hrest]
    simp [hprior]

theorem Settled.mem_slices (h : Settled env q S spent slices results posted) :
    ∀ s ∈ posted, s ∈ slices ∧ s.prior = none := by
  induction h with
  | nil => simp
  | declined => simp
  | replayed _ _ _ _ _ ih =>
    intro s hs
    exact ⟨List.mem_cons_of_mem _ (ih s hs).1, (ih s hs).2⟩
  | posted _ hprior _ _ _ _ _ ih =>
    intro s hs
    rcases List.mem_cons.1 hs with rfl | hs
    · exact ⟨List.mem_cons_self .., hprior⟩
    · exact ⟨List.mem_cons_of_mem _ (ih s hs).1, (ih s hs).2⟩

/-- Where none is declined, the results report what was newly taken and what was replayed. -/
theorem Settled.total (h : Settled env q S spent slices results posted)
    (hnone : NoneDeclined env S q spent slices) :
    takenBy posted + replayedCents S results = (results.map (·.amountPaid)).sum := by
  induction h with
  | nil => rfl
  | declined hdec _ => exact absurd hdec hnone.1
  | @replayed spent s rest posted res results _ hprior _ hrow _ ih =>
    have hrest := hnone.2
    rw [BillSlice.fresh, hprior, if_neg (by simp), add_zero] at hrest
    have hin : S.ledger.transactions.any (fun t ↦ res.transactionId = some t.id) = true := by
      obtain ⟨t, ht, hid⟩ := hrow
      exact List.any_eq_true.2 ⟨t, ht, decide_eq_true hid⟩
    have hreplayed : replayedCents S (res :: results) =
        res.amountPaid + replayedCents S results := by
      simp [replayedCents, hin]
    rw [hreplayed, List.map_cons, List.sum_cons, ← ih hrest]
    omega
  | @posted spent s rest posted res results _ hprior _ _ hpaid hrow _ ih =>
    have hrest := hnone.2
    rw [BillSlice.fresh, if_pos hprior] at hrest
    have hout : S.ledger.transactions.any (fun t ↦ res.transactionId = some t.id) = false := by
      rw [List.any_eq_false]
      intro t ht
      simpa using hrow t ht
    have hfresh : replayedCents S (res :: results) = replayedCents S results := by
      simp [replayedCents, hout]
    have htaken : takenBy (s :: posted) = s.amount + takenBy posted := by simp [takenBy]
    rw [hfresh, htaken, List.map_cons, List.sum_cons, ← ih hrest, hpaid]
    omega

end Settlement

section Split

variable {budget : ℤ} {obligations : List (ObligationAssessment × ℤ)} {s t : BillSlice}

theorem mem_split (hs : s ∈ q.split sha256 feat S budget obligations) :
    (s.obligation, s.remaining) ∈ obligations ∧ 0 < s.amount ∧ s.amount ≤ s.remaining ∧
      s.prior = priorDebit S
        ((q.slice sha256 s.obligation.correlationId s.amount).ledgerIdentity feat) := by
  induction obligations generalizing budget with
  | nil => cases hs
  | cons x rest ih =>
    obtain ⟨ob, remaining⟩ := x
    rw [RentBillRequest.split] at hs
    split_ifs at hs with hspent hsettled
    · cases hs
    · obtain ⟨hmem, hrest⟩ := ih hs
      exact ⟨List.mem_cons_of_mem _ hmem, hrest⟩
    · rcases List.mem_cons.1 hs with rfl | hs
      · exact ⟨List.mem_cons_self .., lt_min (not_le.1 hsettled) (not_le.1 hspent),
          min_le_left _ _, rfl⟩
      · obtain ⟨hmem, hrest⟩ := ih hs
        exact ⟨List.mem_cons_of_mem _ hmem, hrest⟩

/-- A command's slices for one obligation have one prior debit. -/
theorem prior_eq_of_mem_split (hs : s ∈ q.split sha256 feat S budget obligations)
    (ht : t ∈ q.split sha256 feat S budget obligations)
    (hcorr : s.obligation.correlationId = t.obligation.correlationId) : s.prior = t.prior := by
  rw [(mem_split hs).2.2.2, (mem_split ht).2.2.2, hcorr]
  rfl

/-- Where the split goes past its first obligation, that one is left nothing, or is covered, or
was posted before. -/
theorem split_past_head {ob : ObligationAssessment} {remaining : ℤ}
    (ht : t ∈ q.split sha256 feat S budget ((ob, remaining) :: obligations))
    (hne : t.obligation ≠ ob) :
    remaining ≤ 0 ∨ ∃ s ∈ q.split sha256 feat S budget ((ob, remaining) :: obligations),
      s.obligation = ob ∧ s.remaining = remaining ∧ (s.prior = none → s.amount = remaining) := by
  rw [RentBillRequest.split] at ht ⊢
  split_ifs at ht ⊢ with hspent hsettled
  · cases ht
  · exact .inl hsettled
  · refine .inr ⟨_, List.mem_cons_self .., rfl, rfl, fun hnone ↦ ?_⟩
    rcases List.mem_cons.1 ht with rfl | ht
    · exact absurd rfl hne
    · simp only at hnone
      rw [hnone, Option.getD_none] at ht
      by_contra hshort
      have hall : budget - min remaining budget ≤ 0 := by
        rcases min_choice remaining budget with hmin | hmin
        · exact absurd hmin hshort
        · omega
      cases obligations with
      | nil => cases ht
      | cons y rest =>
        rw [RentBillRequest.split, if_pos hall] at ht
        cases ht

end Split

section Obligations

variable {a : ObligationAssessment}

theorem mem_arisingFrom {source : String} :
    a ∈ getObligationsArisingFrom S source ↔ source ≠ "" ∧ a ∈ S.assessmentEvents ∧
      a.sourceCorrelationId = some source ∧ a.IsAssessment := by
  unfold getObligationsArisingFrom
  split_ifs with hsource
  · simp [hsource]
  · rw [List.mem_insertionSort, List.mem_filter, decide_eq_true_eq]
    exact ⟨fun h ↦ ⟨hsource, h⟩, fun h ↦ h.2⟩

theorem mem_billObligations {correlationId : String}
    (ha : a ∈ billObligationsInOrder S correlationId) :
    a ∈ S.assessmentEvents ∧ a.IsAssessment := by
  rcases List.mem_append.1 ha with ha | ha
  · obtain ⟨hmem, -, hass⟩ := getAssessmentForCorrelation_spec (Option.mem_toList.1 ha)
    exact ⟨hmem, hass⟩
  · obtain ⟨-, hmem, -, hass⟩ := mem_arisingFrom.1 (List.mem_of_mem_filter ha)
    exact ⟨hmem, hass⟩

theorem RentInvariant.arising_ne (h : RentInvariant sha256 S) {source : String}
    (ha : a ∈ getObligationsArisingFrom S source) : a.correlationId ≠ source := by
  obtain ⟨-, hmem, hsource, hass⟩ := mem_arisingFrom.1 ha
  obtain ⟨c, -, hfor⟩ := h.assessments a hmem hass
  intro hcorr
  rcases hfor.named with ⟨-, -, hnone, -⟩ | ⟨-, -, hsome, n, hlate⟩
  · rw [hnone] at hsource
    cases hsource
  · rw [hsource, Option.some.injEq] at hsome
    rw [hcorr, hsome] at hlate
    exact rentCorrelation_ne_lateCorrelation _ _ _ _ _ hlate

theorem RentInvariant.events_nodup (h : RentInvariant sha256 S) : S.assessmentEvents.Nodup := by
  rw [List.nodup_iff_injective_getElem]
  intro i j hij
  have hi := h.eventIds i.1 _ (List.getElem?_eq_getElem i.2)
  have hj := h.eventIds j.1 _ (List.getElem?_eq_getElem j.2)
  simp only at hij
  rw [hij, hj] at hi
  exact Fin.ext (by omega)

theorem RentInvariant.billObligations_distinct (h : RentInvariant sha256 S)
    (correlationId : String) : (billObligationsInOrder S correlationId).Pairwise
      (fun a b ↦ a.correlationId ≠ b.correlationId) := by
  unfold billObligationsInOrder
  rw [List.pairwise_append]
  refine ⟨?_, ?_, ?_⟩
  · cases getAssessmentForCorrelation S correlationId with
    | none => exact .nil
    | some a => exact List.pairwise_singleton _ _
  · have hnodup : (getObligationsArisingFrom S correlationId).Nodup := by
      unfold getObligationsArisingFrom
      split_ifs
      · exact List.nodup_nil
      · exact (List.perm_insertionSort _ _).nodup_iff.2 (h.events_nodup.filter _)
    refine (hnodup.filter _).imp_of_mem ?_
    intro a b ha hb hne hcorr
    obtain ⟨-, hamem, -, hass⟩ := mem_arisingFrom.1 (List.mem_of_mem_filter ha)
    obtain ⟨-, hbmem, -, hbss⟩ := mem_arisingFrom.1 (List.mem_of_mem_filter hb)
    exact hne (h.assessedOnce a hamem b hbmem hass hbss hcorr)
  · intro a ha b hb hcorr
    obtain ⟨-, hacorr, -⟩ := getAssessmentForCorrelation_spec (Option.mem_toList.1 ha)
    exact h.arising_ne (List.mem_of_mem_filter hb) (hcorr.symm.trans hacorr)

end Obligations

section Paid

variable {S₀ : RentState} {s : BillSlice}

theorem Posts.paid (h : RentInvariant sha256 S₀) (hp : Posts sha256 env feat q S₀ posted S)
    (hs : s ∈ posted) : getPaidMagnitude S s.obligation.correlationId =
      getPaidMagnitude S₀ s.obligation.correlationId + s.amount := by
  induction hp with
  | nil => cases hs
  | @snoc posted last debit S S' hposts hob hass hamount hapart hslice ih =>
    obtain ⟨hinv, -⟩ := hposts.progress h
    obtain ⟨hinv', hx⟩ := hslice.progress hinv
    obtain ⟨e, he, htype, hcorr, hrow⟩ := hslice.event
    rw [hx.paid hinv [e] he, sumOver_cons, sumOver_nil, add_zero, hcorr]
    rcases List.mem_append.1 hs with hs | hs
    · rw [if_neg (fun hc ↦ hapart s hs hc.1.symm), add_zero]
      exact ih hs
    · obtain rfl := List.mem_singleton.1 hs
      obtain ⟨transfers, htx, -, -, hdebit⟩ := hslice.rows hamount
      have hmem : debit ∈ S'.ledger.transactions := by
        rw [htx]
        simp
      rw [if_pos ⟨rfl, .inl htype⟩, hposts.paid_untouched h hapart, paymentEventMagnitude,
        if_pos htype, hrow, rowMagnitude_eq hinv'.ledger hmem, hdebit]

end Paid

section Whole

variable {res : RentBillPaymentResult}

theorem billBudget_nonpos {owed : ℤ} (howed : owed ≤ 0) : billBudget q owed ≤ 0 := by
  unfold billBudget
  split
  · exact howed
  · exact (min_le_right _ _).trans howed

theorem split_of_nonpos {budget : ℤ} (hbudget : budget ≤ 0)
    (obligations : List (ObligationAssessment × ℤ)) :
    q.split sha256 feat S budget obligations = [] := by
  cases obligations with
  | nil => rfl
  | cons x rest => rw [RentBillRequest.split, if_pos hbudget]

theorem billFunded_ok (h : RentInvariant sha256 S) {obligations : List ObligationAssessment}
    {budget : ℤ} {funded : Bool}
    (hok : billFunded sha256 env feat S q obligations budget = .ok funded) :
    funded = true ↔
      obligations.any (fun ob ↦ billSliceAlreadyPosted sha256 feat S q ob.correlationId) ∨
        affordable env S q.classId q.seatId (cents (.ofCents budget)) := by
  unfold billFunded at hok
  split_ifs at hok with hposted
  · rw [pure_eq_ok] at hok
    simp [← hok, hposted]
  · simp only [bind_eq_ok, pure_eq_ok] at hok
    obtain ⟨authority, -, intended, hbuild, funding, hresolve, rfl⟩ := hok
    have haffordable : affordable env S q.classId q.seatId (cents (.ofCents budget)) ↔ _ :=
      affordable_iff h
        { seatId := q.seatId, classId := q.classId, debitAmount := budget,
          transactionType := "rent_payment", targetSeatId := authority, actorSeatId := q.seatId,
          mechanism := "self" } rfl hbuild hresolve
    rw [haffordable, decide_eq_true_eq]
    simp [hposted]

/-- What comparing the slices of a bill with the reservations that it leaves digests. -/
def billPayloads (sha256 : String → String) (env : Surroundings) (feat : FeatContext)
    (S : RentState) (q : RentBillRequest) (S' : RentState) : Set String :=
  {payload | ∃ s ∈ billSlices sha256 env feat S q, payload ∈ slicePayloads sha256 q S'.ledger s}

/-- A bill that returns either leaves the state alone, with nothing set out to be paid, or ends
as its slices do. -/
theorem payRentBill_settled (h : RentInvariant sha256 S)
    (hok : payRentBill sha256 env feat S q = .ok (res, S'))
    (hsha : Set.InjOn sha256 (billPayloads sha256 env feat S q S')) :
    (S' = S ∧ billSlices sha256 env feat S q = [] ∧ res.perObligation = [] ∧
      res.amountPaid = 0) ∨
    ∃ budget, billSlices sha256 env feat S q = q.split sha256 feat S budget
        ((billObligationsInOrder S q.rentCorrelationId).map
          (fun ob ↦ (ob, remainingAmount S ob.correlationId))) ∧
      ∃ results posted, Settled env q S 0 (billSlices sha256 env feat S q) results posted ∧
        Posts sha256 env feat q S posted S' ∧
          res = billResult S' q (billObligationsInOrder S q.rentCorrelationId) results := by
  unfold payRentBill at hok
  split at hok
  · next problem hproblem =>
    rw [pure_eq_ok, Prod.mk.injEq] at hok
    refine .inl ⟨hok.2.symm, ?_, by rw [← hok.1]; rfl, by rw [← hok.1]; rfl⟩
    simp only [billSlices, hproblem, reduceCtorEq, false_and, if_false]
  · next hlawful =>
    simp only at hok
    split_ifs at hok with hnone howed hseat
    · rw [pure_eq_ok, Prod.mk.injEq] at hok
      refine .inl ⟨hok.2.symm, ?_, by rw [← hok.1]; rfl, by rw [← hok.1]; rfl⟩
      simp only [billSlices, hnone, List.map_nil, RentBillRequest.split, ite_self]
    · rw [pure_eq_ok, Prod.mk.injEq] at hok
      refine .inl ⟨hok.2.symm, ?_, by rw [← hok.1], by rw [← hok.1]⟩
      simp only [billSlices, split_of_nonpos (billBudget_nonpos howed), ite_self]
    · rw [pure_eq_ok, Prod.mk.injEq] at hok
      refine .inl ⟨hok.2.symm, ?_, by rw [← hok.1]; rfl, by rw [← hok.1]; rfl⟩
      simp only [billSlices, hseat, false_and, and_false, if_false]
    · rw [bind_eq_ok] at hok
      obtain ⟨funded, hfunded, hok⟩ := hok
      have hiff := billFunded_ok h hfunded
      split_ifs at hok with hpaid
      · rw [bind_eq_ok] at hok
        obtain ⟨⟨results, S₁⟩, hslices, hok⟩ := hok
        rw [pure_eq_ok, Prod.mk.injEq] at hok
        obtain ⟨rfl, rfl⟩ := hok
        have hsplit : billSlices sha256 env feat S q = q.split sha256 feat S
            (billBudget q (groupRemaining S (billObligationsInOrder S q.rentCorrelationId)))
              ((billObligationsInOrder S q.rentCorrelationId).map
                (fun ob ↦ (ob, remainingAmount S ob.correlationId))) := by
          unfold billSlices
          exact if_pos ⟨hlawful, not_not.1 hseat, hiff.1 hpaid⟩
        have hP : ∀ s ∈ [] ++ billSlices sha256 env feat S q,
            slicePayloads sha256 q S₁.ledger s ⊆ billPayloads sha256 env feat S q S₁ :=
          fun s hs payload hpayload ↦ ⟨s, hs, hpayload⟩
        obtain ⟨posted, hsettled, hposts⟩ := paySlices_settled hsha h (not_not.1 hseat)
          (by
            intro x hx
            obtain ⟨ob, hob, rfl⟩ := List.mem_map.1 hx
            exact ⟨(mem_billObligations hob).1, (mem_billObligations hob).2, rfl⟩)
          (by
            rw [List.pairwise_map]
            exact h.billObligations_distinct q.rentCorrelationId) .nil (by simp) (hsplit ▸ hP)
          hslices
        refine .inr ⟨_, hsplit, results, posted, ?_, hposts, rfl⟩
        rw [hsplit]
        exact hsettled
      · rw [pure_eq_ok, Prod.mk.injEq] at hok
        refine .inl ⟨hok.2.symm, ?_, by rw [← hok.1]; rfl, by rw [← hok.1]; rfl⟩
        unfold billSlices
        exact if_neg (fun hc ↦ hpaid (hiff.2 hc.2.2))

theorem billResult_success (obligations : List ObligationAssessment) :
    (billResult S' q obligations results).success = true ↔
      results.find? (·.success = false) = none := by
  unfold billResult
  cases results.find? (·.success = false) with
  | none => simp
  | some sub => simp

theorem billResult_perObligation (obligations : List ObligationAssessment) :
    (billResult S' q obligations results).perObligation = results := by
  unfold billResult
  split <;> rfl

theorem billResult_amountPaid (obligations : List ObligationAssessment)
    (hsuccess : (billResult S' q obligations results).success = true) :
    (billResult S' q obligations results).amountPaid = (results.map (·.amountPaid)).sum := by
  rw [billResult_success] at hsuccess
  unfold billResult
  rw [hsuccess]

theorem remainingAmount_nonneg (h : RentInvariant sha256 S) (correlationId : String) :
    0 ≤ remainingAmount S correlationId := by
  cases hfound : getAssessmentForCorrelation S correlationId with
  | none => simp [remainingAmount, getObligationState, hfound]
  | some a =>
    obtain ⟨ha, rfl, hass⟩ := getAssessmentForCorrelation_spec hfound
    rw [remainingAmount_eq h ha hass]
    by_cases hwithdrawn : (getWithdrawalEvent S a.correlationId).isSome
    · rw [if_pos hwithdrawn]
    · rw [if_neg hwithdrawn]
      by_cases hsettled : (getSatisfactionEvents S a.correlationId).any (·.eventType = .waived) ∨
          resolveAssessmentAmount S a ≤ getPaidMagnitude S a.correlationId
      · rw [if_pos hsettled]
      · rw [if_neg hsettled]
        push Not at hsettled
        omega

theorem Posts.debitedCents (hp : Posts sha256 env feat q S posted S') :
    debitedCents S S' = takenBy posted := by
  obtain ⟨ts, hts, hsum⟩ := hp.debited
  rw [Rent.debitedCents, hts, List.drop_left, hsum]

/-- An obligation of which more was paid is one that a slice newly paid. -/
theorem Posts.exists_posted (h : RentInvariant sha256 S)
    (hp : Posts sha256 env feat q S posted S') {correlationId : String}
    (hlt : getPaidMagnitude S correlationId < getPaidMagnitude S' correlationId) :
    ∃ s ∈ posted, s.obligation.correlationId = correlationId := by
  by_contra hnone
  push Not at hnone
  rw [hp.paid_untouched h hnone] at hlt
  exact lt_irrefl _ hlt

/-- An obligation that a slice covers is left nothing. -/
theorem Posts.covered (h : RentInvariant sha256 S) (hp : Posts sha256 env feat q S posted S')
    {s : BillSlice} (hs : s ∈ posted) (hob : s.obligation ∈ S.assessmentEvents)
    (hass : s.obligation.IsAssessment)
    (hremaining : s.amount = remainingAmount S s.obligation.correlationId) :
    remainingAmount S' s.obligation.correlationId = 0 := by
  obtain ⟨hinv, hx⟩ := hp.progress h
  have hpos : 0 < remainingAmount S s.obligation.correlationId := by
    rw [← hremaining]
    exact hp.amount_pos s hs
  obtain ⟨-, -, hleft⟩ := remainingAmount_pos h hob hass hpos
  rw [remainingAmount_eq hinv (hx.mem_events hob) hass, hp.paid h hs, hx.amount h hob hass,
    hremaining, hleft]
  by_cases hwithdrawn : (getWithdrawalEvent S' s.obligation.correlationId).isSome
  · rw [if_pos hwithdrawn]
  · rw [if_neg hwithdrawn, if_pos (.inr (by omega))]

theorem Posts.no_assessment (hp : Posts sha256 env feat q S posted S') {correlationId : String}
    (hnone : getAssessmentForCorrelation S correlationId = none) :
    remainingAmount S' correlationId = 0 := by
  obtain ⟨es, hes, hall⟩ := hp.events
  have hlater : es.find? (fun e ↦ e.correlationId = correlationId ∧
      e.eventType = .assessment) = none := by
    rw [List.find?_eq_none]
    intro e he
    obtain ⟨s, -, htype, -⟩ := forall₂_exists_left hall he
    simp [htype]
  have hfound : getAssessmentForCorrelation S' correlationId = none := by
    rw [getAssessmentForCorrelation, hes, List.find?_append, hlater, Option.or_none]
    exact hnone
  simp [remainingAmount, getObligationState, hfound]

variable {budget : ℤ}

/-- Where a late fee is newly paid, the rent is covered unless its slice is a replay. -/
theorem Posts.rent_covered (h : RentInvariant sha256 S)
    (hp : Posts sha256 env feat q S posted S')
    (hsettled : Settled env q S 0 (billSlices sha256 env feat S q) results posted)
    (hnone : NoneDeclined env S q 0 (billSlices sha256 env feat S q))
    (hsplit : billSlices sha256 env feat S q = q.split sha256 feat S budget
      ((billObligationsInOrder S q.rentCorrelationId).map
        (fun ob ↦ (ob, remainingAmount S ob.correlationId))))
    {t : BillSlice} (ht : t ∈ posted) (hne : t.obligation.correlationId ≠ q.rentCorrelationId)
    (hfresh : ∀ s ∈ billSlices sha256 env feat S q,
      s.obligation.correlationId = q.rentCorrelationId → s.prior = none) :
    remainingAmount S' q.rentCorrelationId = 0 := by
  cases hrent : getAssessmentForCorrelation S q.rentCorrelationId with
  | none => exact hp.no_assessment hrent
  | some rent =>
    obtain ⟨hmem, hcorr, hass⟩ := getAssessmentForCorrelation_spec hrent
    have hother : t.obligation ≠ rent := fun heq ↦ hne (heq ▸ hcorr)
    have htmem := (hsettled.mem_slices t ht).1
    have hslices := hsplit
    rw [billObligationsInOrder, hrent, Option.toList_some, List.singleton_append,
      List.map_cons] at hslices
    rw [hslices] at htmem
    rcases split_past_head htmem hother with hnothing | ⟨s, hs, hob, hremaining, hall⟩
    · have hapart : ∀ s ∈ posted, s.obligation.correlationId ≠ rent.correlationId := by
        intro s hs hsame
        have hslice := (hsettled.mem_slices s hs).1
        rw [hsplit] at hslice
        obtain ⟨hsmem, hpos, hle, -⟩ := mem_split hslice
        obtain ⟨ob, -, hpair⟩ := List.mem_map.1 hsmem
        obtain ⟨rfl, hleft⟩ := Prod.mk.inj hpair
        rw [hsame] at hleft
        omega
      rw [← hcorr, hp.remaining h hmem hass hapart]
      exact le_antisymm hnothing (remainingAmount_nonneg h _)
    · rw [← hslices] at hs
      have hprior := hfresh s hs (by rw [hob, hcorr])
      have hposted : s ∈ posted := by
        rw [hsettled.posted_eq hnone]
        exact List.mem_filter.2 ⟨hs, decide_eq_true hprior⟩
      rw [← hcorr, ← hob]
      refine hp.covered h hposted (hob ▸ hmem) (hob ▸ hass) ?_
      rw [hall hprior, hob]

/-- Slices that were set out to be paid end whole just where they meet the condition. -/
theorem Posts.whole_iff (h : RentInvariant sha256 S) (hp : Posts sha256 env feat q S posted S')
    (hsettled : Settled env q S 0 (billSlices sha256 env feat S q) results posted)
    (hsplit : billSlices sha256 env feat S q = q.split sha256 feat S budget
      ((billObligationsInOrder S q.rentCorrelationId).map
        (fun ob ↦ (ob, remainingAmount S ob.correlationId)))) :
    PaidWhole S q (billResult S' q (billObligationsInOrder S q.rentCorrelationId) results) S' ↔
      SettlesWhole sha256 env feat S q := by
  have hsuccess : (billResult S' q (billObligationsInOrder S q.rentCorrelationId)
      results).success = true ↔ NoneDeclined env S q 0 (billSlices sha256 env feat S q) := by
    rw [billResult_success, hsettled.noneDeclined_iff]
  have hmem : ∀ s ∈ billSlices sha256 env feat S q,
      s.obligation ∈ billObligationsInOrder S q.rentCorrelationId ∧
        s.remaining = remainingAmount S s.obligation.correlationId ∧ 0 < s.amount ∧
          s.amount ≤ s.remaining := by
    intro s hs
    rw [hsplit] at hs
    obtain ⟨hsmem, hpos, hle, -⟩ := mem_split hs
    obtain ⟨ob, hob, hpair⟩ := List.mem_map.1 hsmem
    obtain ⟨rfl, hleft⟩ := Prod.mk.inj hpair
    exact ⟨hob, hleft.symm, hpos, hle⟩
  constructor
  · intro hwhole
    refine ⟨(hsettled.stopsClean_iff le_rfl).2 ?_, ?_⟩
    · by_cases hnone : NoneDeclined env S q 0 (billSlices sha256 env feat S q)
      · exact .inl hnone
      · refine .inr ⟨rfl, ?_⟩
        have hfail := Bool.eq_false_iff.2 (fun hs ↦ hnone (hsuccess.1 hs))
        obtain ⟨htx, -⟩ := hwhole.refused hfail
        have htaken : takenBy posted = 0 := by
          rw [← hp.debitedCents, Rent.debitedCents, htx, List.drop_length]
          rfl
        cases posted with
        | nil => rfl
        | cons s rest =>
          have hs := hp.amount_pos s (List.mem_cons_self ..)
          have hrest := takenBy_nonneg (fun s hs ↦ hp.amount_pos s (List.mem_cons_of_mem _ hs) :
            ∀ s ∈ rest, 0 < s.amount)
          simp only [takenBy, List.map_cons, List.sum_cons] at htaken hrest
          omega
    · intro hnone s hs hrent hprior t ht htnone
      have htposted : t ∈ posted := by
        rw [hsettled.posted_eq hnone]
        exact List.mem_filter.2 ⟨ht, decide_eq_true htnone⟩
      have hne : ∀ u ∈ posted, u.obligation.correlationId ≠ q.rentCorrelationId := by
        intro u hu hsame
        have hslice := hsettled.mem_slices u hu
        rw [hsplit] at hslice hs
        have heq := prior_eq_of_mem_split hs hslice.1 (hrent.trans hsame.symm)
        exact hprior (heq.trans hslice.2)
      obtain ⟨htob, -, htpos, -⟩ := hmem t ht
      have harising : t.obligation ∈ getObligationsArisingFrom S q.rentCorrelationId := by
        rcases List.mem_append.1 htob with hrow | hrow
        · obtain ⟨-, hcorr, -⟩ := getAssessmentForCorrelation_spec (Option.mem_toList.1 hrow)
          exact absurd hcorr (hne t htposted)
        · exact List.mem_of_mem_filter hrow
      have hpaid := hp.paid h htposted
      have hzero := hwhole.rentFirst (hsuccess.2 hnone) t.obligation harising (by omega)
      obtain ⟨hsob, hsleft, hspos, hsle⟩ := hmem s hs
      obtain ⟨hsmem, hsass⟩ := mem_billObligations hsob
      rw [← hrent, hp.remaining h hsmem hsass (fun u hu ↦ hrent ▸ hne u hu)] at hzero
      omega
  · intro hcondition
    refine ⟨fun hfail ↦ ?_, fun hs ↦ ?_, fun _ a ha hass ↦ ?_, fun hs fee hfee hlt ↦ ?_⟩
    · have hnone : ¬ NoneDeclined env S q 0 (billSlices sha256 env feat S q) := by
        intro hnone
        rw [hsuccess.2 hnone] at hfail
        cases hfail
      rcases (hsettled.stopsClean_iff le_rfl).1 hcondition.stopsClean with hnone' | ⟨-, rfl⟩
      · exact absurd hnone' hnone
      · rw [hp.eq_of_nil]
        exact ⟨rfl, rfl, rfl, rfl⟩
    · rw [hp.debitedCents, billResult_perObligation, billResult_amountPaid _ hs]
      exact hsettled.total (hsuccess.1 hs)
    · by_cases hapart : ∀ s ∈ posted, s.obligation.correlationId ≠ a.correlationId
      · rw [hp.paid_untouched h hapart, sub_self]
        exact remainingAmount_nonneg h _
      · push Not at hapart
        obtain ⟨s, hs, hcorr⟩ := hapart
        obtain ⟨-, hleft, -, hle⟩ := hmem s (hsettled.mem_slices s hs).1
        rw [← hcorr, hp.paid h hs]
        omega
    · have hnone := hsuccess.1 hs
      obtain ⟨t, ht, hcorr⟩ := hp.exists_posted h hlt
      have htslice := hsettled.mem_slices t ht
      refine hp.rent_covered h hsettled hnone hsplit ht (hcorr ▸ h.arising_ne hfee) ?_
      intro s hs hrent
      by_contra hprior
      exact hcondition.rentFirst hnone s hs hrent hprior t htslice.1 htslice.2

/-- A bill ends whole just where the slices that it sets out to pay do. -/
theorem paidWhole_iff (h : RentInvariant sha256 S)
    (hok : payRentBill sha256 env feat S q = .ok (res, S'))
    (hsha : Set.InjOn sha256 (billPayloads sha256 env feat S q S')) :
    PaidWhole S q res S' ↔ SettlesWhole sha256 env feat S q := by
  rcases payRentBill_settled h hok hsha with
    ⟨rfl, hslices, hper, hpaid⟩ | ⟨budget, hsplit, results, posted, hsettled, hposts, rfl⟩
  · constructor
    · intro
      exact ⟨by rw [hslices]; trivial, by rw [hslices]; simp⟩
    · intro
      refine ⟨fun _ ↦ ⟨rfl, rfl, rfl, rfl⟩, fun _ ↦ ?_, fun _ a _ _ ↦ ?_, fun _ _ _ hlt ↦ ?_⟩
      · simp [Rent.debitedCents, replayedCents, hper, hpaid]
      · rw [sub_self]
        exact remainingAmount_nonneg h _
      · exact absurd hlt (lt_irrefl _)
  · exact hposts.whole_iff h hsettled hsplit

end Whole

section Runs

/-- In every reachable state, a bill that returns is paid whole or not at all just where its
slices meet the condition, unless the digest collides on what the slices are compared by. -/
theorem bill_paid_whole (sha256 : String → String) (zones : String → ClassZone)
    (seatClass : ℕ → Option String) (premiums : String → String → Option ℤ)
    (as : List RentAction) (env : Surroundings) (feat : FeatContext) (q : RentBillRequest) :
    let S := run (rentStep sha256 zones) (.empty seatClass premiums) as
    ∀ res S', payRentBill sha256 env feat S q = .ok (res, S') →
      Set.InjOn sha256 (billPayloads sha256 env feat S q S') →
      (PaidWhole S q res S' ↔ SettlesWhole sha256 env feat S q) := by
  intro S res S' hok hsha
  exact paidWhole_iff (reachable_invariant sha256 zones seatClass premiums as) hok hsha

/-- A class where a rent of 50.00 went unpaid until its late fee of 10.00, and partial payments are
not allowed. The student has 100.00. -/
def lateBill : List RentAction :=
  assessedAhead (fun r ↦ { r with gracePeriodDays := some 3 }) ++
    [.reconcile sampleSurroundings (day 15) { classId := "c" },
     .post ⟨"FEAT-LED-001", "corr_1", day 15⟩ ⟨"c", "FEAT-LED-001", "deposit"⟩
       [{ seatId := 1, classId := "c", targetSeatId := 1, actorSeatId := 1, mechanism := "self",
          amount := some (.ofCents 10000), accountType := "checking", type := some "Deposit" }]
       .null,
     .settle 1 "c"]

def lateBillStart : RentState :=
  .empty (fun i ↦ if i = 1 ∨ i = 9 then some "c" else none) (fun _ _ ↦ none)

def lateBillPayment : RentBillRequest where
  classId := "c"
  seatId := 1
  rentCorrelationId := "rent:c:1:cycle:1"
  idempotencyKey := "k"
  paymentAmount := some (.ofCents 5500)

def lateBillOutcome : Except Raise (RentBillPaymentResult × RentState) :=
  payRentBill id sampleSurroundings ⟨"FEAT-RENT-001", "corr_2", day 15⟩
    (run (rentStep id fun _ ↦ utcZone) lateBillStart lateBill) lateBillPayment

theorem lateBillOutcome_ok : ∃ res S', lateBillOutcome = .ok (res, S') ∧ res.success = false ∧
    S'.ledger.transactions.map (·.amountCents) = [10000, -5000] := by
  have hcents : lateBillOutcome.toOption.map (fun out ↦ (out.1.success,
      out.2.ledger.transactions.map (·.amountCents))) = some (false, [10000, -5000]) := by
    decide +kernel
  cases hok : lateBillOutcome with
  | error e =>
    rw [hok] at hcents
    cases hcents
  | ok out =>
    rw [hok] at hcents
    simp only [Except.toOption, Option.map_some, Option.some.injEq, Prod.mk.injEq] at hcents
    exact ⟨out.1, out.2, rfl, hcents⟩

/-- The rent is debited, the slice of the late fee is declined, and the debit stays under the
failure. -/
theorem late_bill_paid_in_part : ∃ res S', lateBillOutcome = .ok (res, S') ∧
    res.success = false ∧ ¬ PaidWhole (run (rentStep id fun _ ↦ utcZone) lateBillStart lateBill)
      lateBillPayment res S' := by
  obtain ⟨res, S', hok, hfail, hcents⟩ := lateBillOutcome_ok
  have hbefore : (run (rentStep id fun _ ↦ utcZone) lateBillStart
      lateBill).ledger.transactions.map (·.amountCents) = [10000] := by
    decide +kernel
  refine ⟨res, S', hok, hfail, fun hwhole ↦ ?_⟩
  rw [(hwhole.refused hfail).1, hbefore] at hcents
  cases hcents

theorem bill_paid_whole_late : ∃ res S', lateBillOutcome = .ok (res, S') ∧
    (PaidWhole (run (rentStep id fun _ ↦ utcZone) lateBillStart lateBill) lateBillPayment res S' ↔
      SettlesWhole id sampleSurroundings ⟨"FEAT-RENT-001", "corr_2", day 15⟩
        (run (rentStep id fun _ ↦ utcZone) lateBillStart lateBill) lateBillPayment) := by
  obtain ⟨res, S', hok, -, -⟩ := lateBillOutcome_ok
  exact ⟨res, S', hok, bill_paid_whole id (fun _ ↦ utcZone) _ _ lateBill sampleSurroundings _
    lateBillPayment res S' hok Function.injective_id.injOn⟩

end Runs

end TokenHub.Rent
