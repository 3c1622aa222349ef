import TokenHub.Rent.PaymentMoves

set_option autoImplicit false

namespace TokenHub.Rent

open Ledger Lib.Decimals Lib.Checks Lib.Json Lib.SequencedLog

/-- One slice of a bill: what is asked for an obligation, and what the debit that the slice's key
already owns took from the seat. -/
structure BillSlice where
  obligation : ObligationAssessment
  remaining : ℤ
  amount : ℤ
  prior : Option ℤ
deriving DecidableEq, Repr

section Split

variable (sha256 : String → String) (env : Surroundings) (feat : FeatContext) (S : RentState)

def priorDebit (id : CommandIdentity) : Option ℤ :=
  (S.ledger.reservations.find? (·.identity = id)).map fun r ↦
    (((reservedRows S.ledger r.id).filter (isPrincipal .rentPayment)).map (|·.amountCents|)).sum

/-- How a bill divides a budget over the remaining amounts, in settlement order. A slice that was
posted before counts for what it took then. -/
def RentBillRequest.split (q : RentBillRequest) :
    ℤ → List (ObligationAssessment × ℤ) → List BillSlice
  | _, [] => []
  | budget, (ob, remaining) :: rest =>
    if budget ≤ 0 then []
    else if remaining ≤ 0 then q.split budget rest
    else
      let amount := min remaining budget
      let prior := priorDebit S ((q.slice sha256 ob.correlationId amount).ledgerIdentity feat)
      ⟨ob, remaining, amount, prior⟩ :: q.split (budget - prior.getD amount) rest

/-- Whether checking covers an amount, with what overdraft protection moves to it from savings. -/
def affordable (classId : String) (seatId : ℕ) (total : ℤ) : Prop :=
  let checking := getAvailableBalance S.ledger ⟨classId, seatId, .checking⟩
  let savings := getAvailableBalance S.ledger ⟨classId, seatId, .savings⟩
  total ≤ checking +
    protectionTransfer (env.bankingDirective classId).protectionEnabled total checking savings

instance (classId : String) (seatId : ℕ) (total : ℤ) :
    Decidable (affordable env S classId seatId total) := by unfold affordable; infer_instance

/-- Whether the frozen policy of an obligation takes less than what remains. -/
def partialAllowed (ob : ObligationAssessment) : Bool :=
  (rentPolicy S ob.policyUuid).any (·.allowIncrementalPayment)

/-- Whether a slice is declined, where the slices before it have newly taken `spent`. -/
def Declined (q : RentBillRequest) (spent : ℤ) (s : BillSlice) : Prop :=
  100000000 < s.amount ∨ ¬ (s.obligation.classId = q.classId ∧ s.obligation.seatId = q.seatId) ∨
    (s.prior = none ∧ ((s.amount < s.remaining ∧ partialAllowed S s.obligation = false) ∨
      ¬ affordable env S q.classId q.seatId (spent + s.amount)))

instance (q : RentBillRequest) (spent : ℤ) (s : BillSlice) :
    Decidable (Declined env S q spent s) := by unfold Declined; infer_instance

def BillSlice.fresh (s : BillSlice) : ℤ := if s.prior = none then s.amount else 0

end Split

section Slice

variable {sha256 : String → String} {env : Surroundings} {feat : FeatContext} {S S' : RentState}
  {q : RentBillRequest} {ob : ObligationAssessment} {remaining amount : ℤ}

theorem cents_ofCents {n : ℤ} (h : |n| < 10 ^ 28) : cents (.ofCents n) = n :=
  quantizeCurrency_ofCents h

theorem requestedAmountProblem_ofCents {n : ℤ} (hpos : 0 < n) :
    requestedAmountProblem (.ofCents n) = none ↔ n ≤ 100000000 := by
  have hneg : decide (n < 0) = false := by simp [hpos.le]
  have hne : n.natAbs ≠ 0 := by omega
  simp only [Decimal.ofCents, Decimal.ofHundredths, Hundredths.ofCents, requestedAmountProblem,
    hneg, hne, exceeds]
  by_cases hle : n ≤ 100000000
  · have hbound : n.natAbs ≤ 100000000 := by omega
    have hsmall : n.natAbs < 10 ^ Decimal.contextPrecision :=
      hbound.trans_lt (by decide)
    simp [hle, hbound, Decimal.quantizeFinite_hundredths hsmall]
  · have hbound : 100000000 < n.natAbs := by omega
    simp [hle, hbound]

theorem remainingAmount_eq (h : RentInvariant sha256 S) (hob : ob ∈ S.assessmentEvents)
    (hass : ob.IsAssessment) :
    remainingAmount S ob.correlationId =
      if (getWithdrawalEvent S ob.correlationId).isSome then 0
      else if (getSatisfactionEvents S ob.correlationId).any (·.eventType = .waived) ∨
          resolveAssessmentAmount S ob ≤ getPaidMagnitude S ob.correlationId then 0
      else resolveAssessmentAmount S ob - getPaidMagnitude S ob.correlationId := by
  simp only [remainingAmount, getObligationState, h.found hob hass, Option.map_some,
    Option.getD_some]
  by_cases hwithdrawn : (getWithdrawalEvent S ob.correlationId).isSome
  · simp [hwithdrawn]
  · by_cases hsettled : (getSatisfactionEvents S ob.correlationId).any (·.eventType = .waived) ∨
        resolveAssessmentAmount S ob ≤ getPaidMagnitude S ob.correlationId
    · simp only [hwithdrawn, hsettled, if_true, Bool.false_eq_true, if_false, reduceCtorEq]
    · simp only [hwithdrawn, hsettled, Bool.false_eq_true, if_false, if_true]

theorem remainingAmount_pos (h : RentInvariant sha256 S) (hob : ob ∈ S.assessmentEvents)
    (hass : ob.IsAssessment) (hpos : 0 < remainingAmount S ob.correlationId) :
    getWithdrawalEvent S ob.correlationId = none ∧
      (getSatisfactionEvents S ob.correlationId).any (·.eventType = .waived) = false ∧
        remainingAmount S ob.correlationId =
          resolveAssessmentAmount S ob - getPaidMagnitude S ob.correlationId := by
  rw [remainingAmount_eq h hob hass] at hpos ⊢
  by_cases hwithdrawn : (getWithdrawalEvent S ob.correlationId).isSome
  · rw [if_pos hwithdrawn] at hpos
    exact absurd hpos (lt_irrefl 0)
  · rw [if_neg hwithdrawn] at hpos
    by_cases hsettled : (getSatisfactionEvents S ob.correlationId).any (·.eventType = .waived) ∨
        resolveAssessmentAmount S ob ≤ getPaidMagnitude S ob.correlationId
    · rw [if_pos hsettled] at hpos
      exact absurd hpos (lt_irrefl 0)
    · rw [if_neg hwithdrawn, if_neg hsettled]
      push Not at hsettled
      exact ⟨Option.not_isSome_iff_eq_none.1 hwithdrawn, Bool.eq_false_iff.2 hsettled.1, rfl⟩

end Slice

section Verification

variable {sha256 : String → String} {S : RentState} {q : RentPaymentRequest}
  {a : ObligationAssessment}

theorem verifyRentPayment_of (hlawful : q.paymentAmount.bind requestedAmountProblem = none)
    (hfound : getAssessmentForCorrelation S q.correlationId = some a)
    (hdomain : a.obligationType = .rent ∨ a.obligationType = .lateFee)
    (hscope : a.classId = q.classId ∧ a.seatId = q.seatId)
    (hopen : getWithdrawalEvent S q.correlationId = none)
    (hwaived : (getSatisfactionEvents S q.correlationId).any (·.eventType = .waived) = false)
    (hseat : S.ledger.seatClass q.seatId = some q.classId) :
    ∃ st, verifyRentPayment S q = .ok (a, st) := by
  unfold verifyRentPayment
  rw [hlawful]
  simp only [hfound, getObligationState, demand_some, ok_bind, Option.map_some, hopen, hwaived]
  rw [require_of hdomain, require_of hscope, require_of (by rfl), require_of trivial,
    require_of hseat]
  exact ⟨_, rfl⟩

theorem verifyRentPayment_of_scope (hlawful : q.paymentAmount.bind requestedAmountProblem = none)
    (hfound : getAssessmentForCorrelation S q.correlationId = some a)
    (hdomain : a.obligationType = .rent ∨ a.obligationType = .lateFee)
    (hscope : ¬ (a.classId = q.classId ∧ a.seatId = q.seatId)) :
    ∃ r : RentPaymentResult, verifyRentPayment S q = .error r ∧ r.success = false := by
  unfold verifyRentPayment
  rw [hlawful]
  simp only [hfound, getObligationState, demand_some, ok_bind, Option.map_some]
  rw [require_of hdomain, require_of_not hscope]
  exact ⟨_, rfl, rfl⟩

theorem verifyRentPayment_of_problem {problem : String}
    (hproblem : q.paymentAmount.bind requestedAmountProblem = some problem) :
    ∃ r : RentPaymentResult, verifyRentPayment S q = .error r ∧ r.success = false := by
  unfold verifyRentPayment
  rw [hproblem]
  exact ⟨_, rfl, rfl⟩

end Verification

section Outcome

variable {sha256 : String → String} {env : Surroundings} {feat : FeatContext} {S S' : RentState}
  {q : RentBillRequest} {ob : ObligationAssessment} {remaining amount : ℤ}

theorem RentInvariant.rentDomain (h : RentInvariant sha256 S) (hob : ob ∈ S.assessmentEvents)
    (hass : ob.IsAssessment) : ob.obligationType = .rent ∨ ob.obligationType = .lateFee := by
  obtain ⟨c, -, hfor⟩ := h.assessments ob hob hass
  exact hfor.named.imp (·.1) (·.1)

/-- The checks that a slice meets before anything is read of its command. -/
theorem verify_slice (h : RentInvariant sha256 S) (hob : ob ∈ S.assessmentEvents)
    (hass : ob.IsAssessment) (hpos : 0 < remainingAmount S ob.correlationId)
    (hseat : S.ledger.seatClass q.seatId = some q.classId) (hamount : 0 < amount) :
    (amount ≤ 100000000 ∧ (ob.classId = q.classId ∧ ob.seatId = q.seatId) ∧
      ∃ st, verifyRentPayment S (q.slice sha256 ob.correlationId amount) = .ok (ob, st)) ∨
    (¬ (amount ≤ 100000000 ∧ (ob.classId = q.classId ∧ ob.seatId = q.seatId)) ∧
      ∃ r : RentPaymentResult,
        verifyRentPayment S (q.slice sha256 ob.correlationId amount) = .error r ∧
          r.success = false) := by
  obtain ⟨hopen, hwaived, -⟩ := remainingAmount_pos h hob hass hpos
  have hfound := h.found hob hass
  have hdomain := h.rentDomain hob hass
  have hlawful := requestedAmountProblem_ofCents hamount
  by_cases hle : amount ≤ 100000000
  · have hnone : (q.slice sha256 ob.correlationId amount).paymentAmount.bind
        requestedAmountProblem = none := hlawful.2 hle
    by_cases hscope : ob.classId = q.classId ∧ ob.seatId = q.seatId
    · exact .inl ⟨hle, hscope, verifyRentPayment_of hnone hfound hdomain hscope hopen hwaived hseat⟩
    · exact .inr ⟨fun hc ↦ hscope hc.2, verifyRentPayment_of_scope hnone hfound hdomain hscope⟩
  · obtain ⟨problem, hproblem⟩ := Option.ne_none_iff_exists'.1 (fun hnone ↦ hle (hlawful.1 hnone))
    have hsome : (q.slice sha256 ob.correlationId amount).paymentAmount.bind
        requestedAmountProblem = some problem := hproblem
    exact .inr ⟨fun hc ↦ hle hc.1, verifyRentPayment_of_problem hsome⟩

/-- A slice is authorized for its amount unless it takes less than what is left and the frozen
policy does not allow that. -/
theorem authorize_slice (h : RentInvariant sha256 S) (hob : ob ∈ S.assessmentEvents)
    (hass : ob.IsAssessment) (hpos : 0 < remainingAmount S ob.correlationId)
    (hamount : 0 < amount) (hle : amount ≤ remainingAmount S ob.correlationId)
    (hbound : amount ≤ 100000000) :
    (¬ (amount < remainingAmount S ob.correlationId ∧ partialAllowed S ob = false) ∧
      ∃ p, authorizeRentPayment S (q.slice sha256 ob.correlationId amount) ob = .ok p ∧
        p.thisPayment = amount) ∨
    ((amount < remainingAmount S ob.correlationId ∧ partialAllowed S ob = false) ∧
      ∃ r : RentPaymentResult,
        authorizeRentPayment S (q.slice sha256 ob.correlationId amount) ob = .error r ∧
          r.success = false) := by
  obtain ⟨-, -, hremaining⟩ := remainingAmount_pos h hob hass hpos
  obtain ⟨settings, hsettings, -⟩ := h.policy hob hass
  have hpaid : 0 ≤ getPaidMagnitude S ob.correlationId := by
    rw [getPaidMagnitude_eq]
    exact sumOver_nonneg (fun e _ _ ↦ magnitude_nonneg S e)
  have hcents : cents (.ofCents amount) = amount :=
    cents_ofCents (by rw [abs_of_pos hamount]; omega)
  rw [hremaining] at hpos hle ⊢
  unfold authorizeRentPayment
  simp only [hsettings, Option.some_or, demand_some, ok_bind]
  rw [require_of (by omega : 0 < resolveAssessmentAmount S ob)]
  have hleft : 0 < resolveAssessmentAmount S ob -
      getPaidMagnitude S (q.slice sha256 ob.correlationId amount).correlationId := hpos
  rw [ok_bind, require_of hleft, ok_bind]
  simp only [RentBillRequest.slice, hcents]
  rw [require_of hamount, ok_bind]
  have hless : partialAllowed S ob = settings.allowIncrementalPayment := by
    simp [partialAllowed, hsettings]
  by_cases hall : resolveAssessmentAmount S ob - getPaidMagnitude S ob.correlationId ≤ amount
  · rw [if_pos hall]
    exact .inl ⟨fun hc ↦ absurd hc.1 (not_lt.2 hall), _, rfl, le_antisymm hall hle⟩
  · rw [if_neg hall]
    by_cases hallowed : settings.allowIncrementalPayment = true
    · rw [require_of hallowed]
      have hnot : partialAllowed S ob ≠ false := by
        rw [hless, hallowed]
        decide
      exact .inl ⟨fun hc ↦ hnot hc.2, _, rfl, rfl⟩
    · rw [require_of_not hallowed]
      exact .inr ⟨⟨not_le.1 hall, by rw [hless]; exact Bool.eq_false_iff.2 hallowed⟩, _, rfl, rfl⟩

/-- A plan covers its debit just where its seat can afford what is left of it in the context. -/
theorem affordable_iff (h : RentInvariant sha256 S) (plan : IntendedLedgerPlan)
    {intended : IntendedLedgerPlan} {resolved : ResolvedLedgerPlan}
    (hsource : plan.sourceAccount = .checking)
    (hbuild : buildIntendedLedgerPlan plan = .ok intended)
    (hresolve : resolveIntendedLedgerPlan S.ledger intended (env.bankingDirective plan.classId) =
      .ok resolved) :
    affordable env S plan.classId plan.seatId (cents (.ofCents plan.debitAmount)) ↔
      0 ≤ resolved.checkingAfter := by
  simp only [buildIntendedLedgerPlan, require_bind_eq_ok, pure_eq_ok] at hbuild
  obtain ⟨-, rfl⟩ := hbuild
  have hr := resolveIntendedLedgerPlan_ok h.ledger.balance (by exact hsource) hresolve
  rw [affordable, hr.checkingAfter, hr.transfer, h.ledger.balance.getAvailableBalance,
    h.ledger.balance.getAvailableBalance, sub_nonneg]
  rfl

theorem postRentPayment_affordable (h : RentInvariant sha256 S) {q : RentPaymentRequest}
    {a : ObligationAssessment} {state : ObligationState} {p : AuthorizedPayment}
    (hsmall : |p.thisPayment| < 10 ^ 28) {res : RentPaymentResult}
    (hok : postRentPayment sha256 env feat S q a state p = .ok (res, S')) :
    res.success = true ↔ affordable env S q.classId q.seatId p.thisPayment := by
  rw [postRentPayment, bind_eq_ok] at hok
  obtain ⟨authority, -, hok⟩ := hok
  rw [bind_eq_ok] at hok
  obtain ⟨intended, hbuild, hok⟩ := hok
  rw [bind_eq_ok] at hok
  obtain ⟨resolved, hresolve, hok⟩ := hok
  have haffordable : affordable env S q.classId q.seatId (cents (.ofCents p.thisPayment)) ↔ _ :=
    affordable_iff h (rentPlan q authority p.thisPayment) rfl hbuild hresolve
  rw [cents_ofCents hsmall] at haffordable
  rw [haffordable]
  split_ifs at hok with hcovered
  · rw [pure_eq_ok, Prod.mk.injEq] at hok
    rw [← hok.1]
    simp [refuse, hcovered]
  · have hsuccess : res.success = true := by
      rw [bind_eq_ok] at hok
      obtain ⟨_, -, hok⟩ := hok
      rw [demand_bind_eq_ok] at hok
      obtain ⟨_, -, hok⟩ := hok
      rw [bind_eq_ok] at hok
      obtain ⟨_, -, hok⟩ := hok
      simp only at hok
      split_ifs at hok
      all_goals
        rw [bind_eq_ok] at hok
        obtain ⟨_, -, hok⟩ := hok
        rw [pure_eq_ok, Prod.mk.injEq] at hok
        rw [← hok.1]
    simp [hsuccess, not_lt.1 hcovered]

theorem priorDebit_eq_none {id : CommandIdentity} :
    priorDebit S id = none ↔ S.ledger.reservations.find? (·.identity = id) = none := by
  rw [priorDebit, Option.map_eq_none_iff]

theorem priorDebit_of_replay {id : CommandIdentity} {seatId actorSeatId : ℕ} {intent : Value}
    {debit : Transaction} (h : replayReservedCharge sha256 S.ledger id seatId actorSeatId
      .rentPayment intent = .ok (some debit)) : priorDebit S id = some |debit.amountCents| := by
  obtain ⟨r, hr, hfilter, -⟩ := replayReservedCharge_some h
  simp [priorDebit, hr, hfilter]

variable (sha256 env feat) in
def SlicePosted (q : RentBillRequest) (S : RentState) (s : BillSlice) (debit : Transaction)
    (S' : RentState) : Prop :=
  ∃ state p resolved transfers r L grants,
    Verified S (q.slice sha256 s.obligation.correlationId s.amount) s.obligation state ∧
    Authorized S (q.slice sha256 s.obligation.correlationId s.amount) s.obligation p ∧
    p.thisPayment = s.amount ∧
    RentPosted sha256 env feat S (q.slice sha256 s.obligation.correlationId s.amount) s.obligation
      state p resolved transfers debit r L grants S'

variable (sha256 env feat) in
inductive SliceOutcome (q : RentBillRequest) (S : RentState) (s : BillSlice) :
    RentPaymentResult → RentState → Prop
  | declined {res : RentPaymentResult} : Declined env S q 0 s → res.success = false →
      SliceOutcome q S s res S
  | replayed {res : RentPaymentResult} {debit : Transaction} : ¬ Declined env S q 0 s →
      replayReservedCharge sha256 S.ledger
        ((q.slice sha256 s.obligation.correlationId s.amount).ledgerIdentity feat) q.seatId
          q.seatId .rentPayment
            (q.slice sha256 s.obligation.correlationId s.amount).canonicalIntent =
              .ok (some debit) →
      res.success = true → res.amountPaid = |debit.amountCents| →
      res.transactionId = some debit.id → SliceOutcome q S s res S
  | posted {res : RentPaymentResult} {debit : Transaction} {S' : RentState} :
      ¬ Declined env S q 0 s → s.prior = none → SlicePosted sha256 env feat q S s debit S' →
      res.success = true → res.amountPaid = s.amount → res.transactionId = some debit.id →
      SliceOutcome q S s res S'

theorem payRent_slice (h : RentInvariant sha256 S) {s : BillSlice}
    (hob : s.obligation ∈ S.assessmentEvents) (hass : s.obligation.IsAssessment)
    (hremaining : s.remaining = remainingAmount S s.obligation.correlationId)
    (hprior : s.prior =
      priorDebit S ((q.slice sha256 s.obligation.correlationId s.amount).ledgerIdentity feat))
    (hseat : S.ledger.seatClass q.seatId = some q.classId) (hamount : 0 < s.amount)
    (hle : s.amount ≤ s.remaining) {res : RentPaymentResult}
    (hok : payRent sha256 env feat S (q.slice sha256 s.obligation.correlationId s.amount) =
      .ok (res, S')) : SliceOutcome sha256 env feat q S s res S' := by
  rw [hremaining] at hle
  have hpos := hamount.trans_le hle
  rw [payRent, require_bind_eq_ok, require_bind_eq_ok] at hok
  obtain ⟨-, -, hok⟩ := hok
  rcases verify_slice h hob hass hpos hseat hamount with
    ⟨hbound, hscope, state, hverify⟩ | ⟨hunlawful, r, hverify, hr⟩
  · rw [hverify] at hok
    simp only [bind_eq_ok] at hok
    obtain ⟨prior, hreplay, hok⟩ := hok
    cases prior with
    | some debit =>
      simp only [bind_eq_ok, pure_eq_ok, Prod.mk.injEq] at hok
      obtain ⟨result, hresult, rfl, rfl⟩ := hok
      simp only [replayedRentPayment, demand_bind_eq_ok, require_bind_eq_ok, pure_eq_ok]
        at hresult
      obtain ⟨-, -, -, rfl⟩ := hresult
      refine .replayed (fun hdeclined ↦ ?_) hreplay rfl rfl rfl
      rcases hdeclined with hlarge | hother | ⟨hnone, -⟩
      · omega
      · exact hother hscope
      · rw [hprior, priorDebit_of_replay hreplay] at hnone
        cases hnone
    | none =>
      have hfresh := replayReservedCharge_none hreplay
      have hnone : s.prior = none := by rw [hprior, priorDebit_eq_none, hfresh]
      have hsmall : |s.amount| < 10 ^ 28 := by
        rw [abs_of_pos hamount]
        omega
      rcases authorize_slice h hob hass hpos hamount hle hbound with
        ⟨hallowed, p, hauth, hp⟩ | ⟨hless, r, hauth, hr⟩
      · rw [hauth] at hok
        have haffordable := postRentPayment_affordable h (by rwa [hp]) hok
        rcases postRentPayment_ok h (verifyRentPayment_ok hverify) hfresh hok with
          ⟨hfail, rfl⟩ | ⟨resolved, transfers, debit, r, L, grants, hposted, hsuccess, hpaid, hid⟩
        · refine .declined (.inr (.inr ⟨hnone, .inr fun hfunds ↦ ?_⟩)) hfail
          rw [zero_add, ← hp] at hfunds
          rw [haffordable.2 hfunds] at hfail
          cases hfail
        · refine .posted (fun hdeclined ↦ ?_) hnone ⟨state, p, resolved, transfers, r, L, grants,
            verifyRentPayment_ok hverify, authorizeRentPayment_ok hauth, hp, hposted⟩ hsuccess
              (hpaid.trans hp) hid
          rcases hdeclined with hlarge | hother | ⟨-, hshort | hfunds⟩
          · omega
          · exact hother hscope
          · exact hallowed (hremaining ▸ hshort)
          · rw [zero_add, ← hp] at hfunds
            exact hfunds (haffordable.1 hsuccess)
      · rw [hauth] at hok
        simp only [pure_eq_ok, Prod.mk.injEq] at hok
        obtain ⟨rfl, rfl⟩ := hok
        exact .declined (.inr (.inr ⟨hnone, .inl (hremaining ▸ hless)⟩)) hr
  · rw [hverify] at hok
    simp only [pure_eq_ok, Prod.mk.injEq] at hok
    obtain ⟨rfl, rfl⟩ := hok
    refine .declined ?_ hr
    rcases not_and_or.1 hunlawful with hlarge | hother
    · exact .inl (not_le.1 hlarge)
    · exact .inr (.inl hother)

end Outcome

end TokenHub.Rent
