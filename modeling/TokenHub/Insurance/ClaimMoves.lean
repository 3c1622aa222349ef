import TokenHub.Insurance.PremiumMoves

set_option autoImplicit false

namespace TokenHub.Insurance

open Ledger Rent Lib.Decimals Lib.Checks

variable {sha256 : String → String} {zone : CoverageZone} {env : ClaimSurroundings}
  {feat : FeatContext} {now : Instant} {S S' : InsuranceState}

section Submission

variable {q : ClaimRequest}

structure Filed (zone : CoverageZone) (env : ClaimSurroundings) (now : Instant) (S : InsuranceState)
    (q : ClaimRequest) (grant : CoverageEvent) (policy : InsurancePolicy) (period : CoveragePeriod)
    (dates : List ParsedDate) (S' : InsuranceState) : Prop where
  ofGrant : resolveClaimGrant S q.classId q.seatId q.entitlementId = some grant
  ofPolicy : resolveClaimPolicy S q.classId q.seatId q.entitlementId = .ok policy
  usable : evaluateInsuranceUsability S q.classId q.entitlementId now = .ok (.ok period)
  unreserved : ∀ prior ∈ listClaims S q.classId q.entitlementId, prior.targetSeatId = q.seatId →
    q.claimSubject.transactionId.isSome → prior.status ≠ .rejected →
      prior.claimBasis.transactionId ≠ q.claimSubject.transactionId
  enforced : enforceSubmission zone env now S q policy grant period = .ok dates
  fresh : ∀ c ∈ S.claims, c.correlationId ≠ q.replayKey
  datesFree : ∀ d ∈ dates, ¬ DateTaken S q.classId q.entitlementId d.claimDate
  state : S' = { S with
    claims := S.claims ++ [newClaim now S q]
    claimDates := S.claimDates ++ dates.map (newDate (newClaim now S q)) }

theorem submitInsuranceClaim_ok (hS : (submitInsuranceClaim zone env now S q).2 = S') :
    S' = S ∨ ∃ grant policy period dates, Filed zone env now S q grant policy period dates S' := by
  unfold submitInsuranceClaim at hS
  split_ifs at hS
  · exact .inl hS.symm
  · split at hS
    · exact .inl hS.symm
    · next grant hgrant =>
      split at hS
      · exact .inl hS.symm
      · next policy hpolicy =>
        split at hS
        · exact .inl hS.symm
        · exact .inl hS.symm
        · next period husable =>
          split at hS
          · exact .inl hS.symm
          · split at hS
            · exact .inl hS.symm
            · next S₁ hfile =>
              subst hS
              rw [fileClaim, require_bind_eq_ok, bind_eq_ok] at hfile
              obtain ⟨hunreserved, dates, henforced, hfile⟩ := hfile
              simp only [createClaim, require_bind_eq_ok, pure_eq_ok] at hfile
              obtain ⟨hfresh, -, hfree, rfl⟩ := hfile
              exact .inr ⟨grant, policy, period, dates, hgrant, hpolicy, husable, hunreserved,
                henforced, hfresh, hfree, rfl⟩

end Submission

section Resolution

variable {q : ResolveRequest} {claim : InsuranceClaim}

def withDecision (S : InsuranceState) (classId : String) (claimId : ℕ) (d : ClaimDecision) :
    InsuranceState :=
  { S with claims := S.claims.map (fun c ↦
    if c.claimId = claimId ∧ c.classId = classId then d.record c else c) }

def withAdjudications (S : InsuranceState) (classId : String) (claimId : ℕ)
    (as : List Adjudication) : InsuranceState :=
  { S with claimDates := S.claimDates.map (Adjudication.record as claimId classId) }

theorem decideClaim_ok {classId : String} {claimId : ℕ} {d : ClaimDecision}
    (hok : decideClaim S classId claimId d = .ok S') : S' = withDecision S classId claimId d := by
  simp only [decideClaim, demand_bind_eq_ok, require_bind_eq_ok, pure_eq_ok] at hok
  obtain ⟨-, -, -, rfl⟩ := hok
  rfl

/-- What the approval of a claim on a transaction rests on, and its credit. -/
structure Reimbursed (sha256 : String → String) (zone : CoverageZone) (env : ClaimSurroundings)
    (feat : FeatContext) (S : InsuranceState) (q : ResolveRequest) (claim : InsuranceClaim)
    (policy : InsurancePolicy) (percent : ℕ) (source : Transaction) (period : CoveragePeriod)
    (amount : ℤ) (row : Transaction) (L : LedgerState) : Prop where
  insuranceType : policy.insuranceType = .transaction
  pricedAt : policy.reimbursementPercentage = some percent
  subject : claim.claimBasis.transactionId = some source.id
  ofSource : source ∈ S.ledger.transactions
  inPeriod : periodForClaim S claim = .ok period
  amount_eq : amount = min (percentOf source.amountCents.natAbs percent)
    (maximumPolicyPayout policy -
      sumApprovedPayouts S q.classId claim.entitlementId period.startUtc period.endUtc)
  positive : 0 < amount
  credit : ∃ rows created, createIdempotentTransaction sha256 feat S.ledger S.ledger.reservations
    q.idempotencyKey (reimbursementEffect q claim source amount) = .ok ((rows, created), L) ∧
      rows.head? = some row

/-- What the approval of a productivity claim rests on, and its manual credit, if it has one. -/
structure Compensated (sha256 : String → String) (env : ClaimSurroundings) (feat : FeatContext)
    (S : InsuranceState) (q : ResolveRequest) (claim : InsuranceClaim) (policy : InsurancePolicy)
    (percent : ℕ) (period : CoveragePeriod) (as : List Adjudication) (total : ℤ)
    (eventId : Option ℕ) (S₁ : InsuranceState) : Prop where
  insuranceType : policy.insuranceType = .productivity
  complete : productivityDatesComplete claim (listProductivityDates S q.classId claim.claimId)
  inPeriod : periodForClaim S claim = .ok period
  remaining : 0 < maximumPolicyPayout policy -
    sumRecognizedPayout S q.classId claim.entitlementId period.startUtc period.endUtc
  adjudicated : adjudicateDates q.dateAdjustments (hourlyPayRate (env.payrollSetting q.classId))
    percent (maximumPolicyPayout policy -
      sumRecognizedPayout S q.classId claim.entitlementId period.startUtc period.endUtc)
    (listProductivityDates S q.classId claim.claimId) = .ok (.ok as)
  total_eq : total = (as.map (·.recognizedPayout)).sum
  paid : payProductivityClaim sha256 env feat S q claim total = .ok (eventId, S₁)

inductive Decided (sha256 : String → String) (zone : CoverageZone) (env : ClaimSurroundings)
    (feat : FeatContext) (S : InsuranceState) (q : ResolveRequest) (claim : InsuranceClaim) :
    InsuranceState → Prop
  | rejected {d : ClaimDecision} : d.approved = false →
      Decided sha256 zone env feat S q claim (withDecision S q.classId claim.claimId d)
  | reimbursed {policy : InsurancePolicy} {percent : ℕ} {source row : Transaction}
      {period : CoveragePeriod} {amount : ℤ} {L : LedgerState} :
      resolveClaimPolicy S q.classId claim.targetSeatId claim.entitlementId = .ok policy →
      Reimbursed sha256 zone env feat S q claim policy percent source period amount row L →
      Decided sha256 zone env feat S q claim (withDecision { S with ledger := L } q.classId
        claim.claimId (approvalOf feat q amount none (some row.id) q.filingWindowOverrideReason))
  | compensated {policy : InsurancePolicy} {percent : ℕ} {period : CoveragePeriod}
      {as : List Adjudication} {total : ℤ} {eventId : Option ℕ} {S₁ : InsuranceState} :
      resolveClaimPolicy S q.classId claim.targetSeatId claim.entitlementId = .ok policy →
      Compensated sha256 env feat S q claim policy percent period as total eventId S₁ →
      Decided sha256 zone env feat S q claim (withDecision
        (withAdjudications S₁ q.classId claim.claimId as) q.classId claim.claimId
        (approvalOf feat q total eventId none ""))

theorem getClaim_spec {classId : String} {claimId : ℕ} (h : getClaim S classId claimId = some claim) :
    claim ∈ S.claims ∧ claim.claimId = claimId ∧ claim.classId = classId := by
  have hfields : claim.claimId = claimId ∧ claim.classId = classId := by
    simpa using List.find?_some h
  exact ⟨List.mem_of_find?_eq_some h, hfields⟩

theorem transactionPayout_ok {policy : InsurancePolicy} {source : Transaction} {amount : ℤ}
    (hok : transactionPayout zone env S q claim policy = .ok (.ok (source, amount))) :
    ∃ percent period, policy.insuranceType = .transaction ∧
      policy.reimbursementPercentage = some percent ∧
      claim.claimBasis.transactionId = some source.id ∧ source ∈ S.ledger.transactions ∧
      periodForClaim S claim = .ok period ∧
      amount = min (percentOf source.amountCents.natAbs percent)
        (maximumPolicyPayout policy -
          sumApprovedPayouts S q.classId claim.entitlementId period.startUtc period.endUtc) ∧
      0 < amount := by
  unfold transactionPayout at hok
  split at hok
  · cases hok
  · next transactionId hid =>
    split at hok
    · cases hok
    · next source' hsource =>
      have hfind := (Option.mem_filter_iff.1 hsource).1
      have hmem := List.mem_of_find?_eq_some hfind
      have hsid : source'.id = transactionId := by simpa using List.find?_some hfind
      split at hok
      · next percent htype hpercent =>
        split_ifs at hok with hproblem hwindow hzero
        · cases hok
        · cases hok
        · cases hok
        · rw [bind_eq_ok] at hok
          obtain ⟨period, hperiod, hok⟩ := hok
          simp only at hok
          split_ifs at hok with hspent
          · cases hok
          · rw [pure_eq_ok, Except.ok.injEq, Prod.mk.injEq] at hok
            obtain ⟨rfl, rfl⟩ := hok
            refine ⟨percent, period, htype, hpercent, by rw [hid, hsid], hmem, hperiod, rfl, ?_⟩
            exact lt_min (not_le.1 hzero) (not_le.1 hspent)
      · cases hok

theorem approveTransactionClaim_ok {policy : InsurancePolicy} {res : ClaimResult}
    (hpolicy : resolveClaimPolicy S q.classId claim.targetSeatId claim.entitlementId = .ok policy)
    (hok : approveTransactionClaim sha256 zone env feat S q claim policy = .ok (.ok (res, S'))) :
    Decided sha256 zone env feat S q claim S' := by
  simp only [approveTransactionClaim, bind_eq_ok] at hok
  obtain ⟨payout, hpayout, hok⟩ := hok
  split at hok
  · cases hok
  · next source amount =>
    simp only [bind_eq_ok, Prod.exists, demand_eq_ok, pure_eq_ok, Except.ok.injEq,
      Prod.mk.injEq] at hok
    obtain ⟨rows, created, L, hcredit, row, hrow, S₁, hdecide, -, rfl⟩ := hok
    obtain ⟨percent, period, htype, hpercent, hsubject, hsource, hperiod, hamount, hpositive⟩ :=
      transactionPayout_ok hpayout
    rw [decideClaim_ok hdecide]
    exact .reimbursed hpolicy ⟨htype, hpercent, hsubject, hsource, hperiod, hamount, hpositive,
      rows, created, hcredit, hrow⟩

theorem approveProductivityClaim_ok {policy : InsurancePolicy} {res : ClaimResult}
    (hpolicy : resolveClaimPolicy S q.classId claim.targetSeatId claim.entitlementId = .ok policy)
    (htype : policy.insuranceType = .productivity)
    (hok : approveProductivityClaim sha256 env feat S q claim policy = .ok (.ok (res, S'))) :
    Decided sha256 zone env feat S q claim S' := by
  unfold approveProductivityClaim at hok
  split at hok
  · cases hok
  · simp only at hok
    split_ifs at hok with hcomplete
    · rw [bind_eq_ok] at hok
      obtain ⟨period, hperiod, hok⟩ := hok
      split_ifs at hok with hspent
      · cases hok
      · rw [bind_eq_ok] at hok
        obtain ⟨adjudicated, hadjudicated, hok⟩ := hok
        split at hok
        · cases hok
        · split at hok
          · cases hok
          · next eventId S₁ hpaid =>
            simp only [bind_eq_ok, pure_eq_ok, Except.ok.injEq, Prod.mk.injEq] at hok
            obtain ⟨S₂, hdecide, -, rfl⟩ := hok
            rw [decideClaim_ok hdecide]
            exact .compensated hpolicy ⟨htype, hcomplete, hperiod, not_le.1 hspent, hadjudicated,
              rfl, hpaid⟩
    · cases hok

theorem decideSubmitted_ok {res : ClaimResult}
    (hok : decideSubmitted sha256 zone env feat S q claim = .ok (.ok (res, S'))) :
    Decided sha256 zone env feat S q claim S' := by
  unfold decideSubmitted at hok
  split at hok
  · cases hok
  · next policy hpolicy =>
    split_ifs at hok with hseat happroved htype
    · cases hok
    · simp only [rejectClaim, bind_eq_ok, pure_eq_ok, Except.ok.injEq, Prod.mk.injEq] at hok
      obtain ⟨S₁, hdecide, -, rfl⟩ := hok
      rw [decideClaim_ok hdecide]
      exact .rejected rfl
    · exact approveProductivityClaim_ok hpolicy htype hok
    · exact approveTransactionClaim_ok hpolicy hok

/-- A review leaves the tables as they were, or decides a submitted claim. -/
theorem resolveInsuranceClaim_ok
    (hS : (resolveInsuranceClaim sha256 zone env feat S q).2 = S') :
    S' = S ∨ ∃ claim, claim ∈ S.claims ∧ claim.claimId = q.claimId ∧ claim.classId = q.classId ∧
      claim.status = .submitted ∧ Decided sha256 zone env feat S q claim S' := by
  unfold resolveInsuranceClaim at hS
  split_ifs at hS
  · exact .inl hS.symm
  · split at hS
    · exact .inl hS.symm
    · next claim hclaim =>
      obtain ⟨hmem, hid, hclass⟩ := getClaim_spec hclaim
      split_ifs at hS with hstatus
      · exact .inl hS.symm
      · split at hS
        · exact .inl hS.symm
        · exact .inl hS.symm
        · next result hdecide =>
          obtain ⟨res, S₁⟩ := result
          subst hS
          exact .inr ⟨claim, hmem, hid, hclass, not_not.1 hstatus, decideSubmitted_ok hdecide⟩

end Resolution

end TokenHub.Insurance
