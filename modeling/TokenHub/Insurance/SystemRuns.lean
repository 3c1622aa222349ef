import TokenHub.Insurance.CommandMoves
import TokenHub.Insurance.EffectSteps

set_option autoImplicit false

namespace TokenHub.Insurance

open Ledger Rent Lib.Checks Lib.Runs

variable {sha256 : String → String} {zones : String → CoverageZone} {bounded : Prop}
  {now : Instant} {S S' S'' : InsuranceState}

section Invariant

variable (sha256) (zones) (bounded)

structure SystemSound (S : InsuranceState) : Prop where
  coverage : CoverageInvariant sha256 zones bounded S
  claims : ClaimInvariant zones S
  effects : EffectsSound S

def InTime (now : Instant) (S : InsuranceState) : InsuranceAction → Prop
  | .renew env correlationId passes classId entitlementId =>
    RenewalInTime sha256 (zones classId) env ⟨"FEAT-STOR-007", correlationId, now⟩ passes S classId
      entitlementId
  | _ => True

instance (now : Instant) (S : InsuranceState) :
    ∀ a, Decidable (InTime sha256 zones now S a)
  | .renew _ _ _ _ _ => inferInstanceAs (Decidable (RenewalInTime _ _ _ _ _ _ _ _))
  | .purchase _ _ _ | .payPremium _ _ _ | .cancel _ _ _ | .expire _ _ _ | .createPolicy _
  | .setAvailability _ _ _ | .submit _ _ | .resolve _ _ _ | .settle _ _ | .post _ _ _ _
  | .enroll _ | .store _ => isTrue trivial

structure SystemKept (S S' : InsuranceState) : Prop where
  sound : SystemSound sha256 zones bounded S'
  coverage : CoverageKept sha256 S S'
  claims : ClaimsKept S S'

end Invariant

section Commands

/-- Whatever is no command on a claim makes coverage moves. -/
theorem insuranceStep_moves (h : CoverageInvariant sha256 zones bounded S) {a : InsuranceAction}
    (hmeet : bounded → InTime sha256 zones now S a) :
    (∃ env q, a = .submit env q) ∨ (∃ env correlationId q, a = .resolve env correlationId q) ∨
      CoverageMoves sha256 zones bounded now S (insuranceStep sha256 zones now S a) := by
  cases a with
  | submit env q => exact .inl ⟨env, q, rfl⟩
  | resolve env correlationId q => exact .inr (.inl ⟨env, correlationId, q, rfl⟩)
  | purchase env correlationId q =>
    refine .inr (.inr (committed_relates .refl (fun res S' hok ↦ ?_)))
    exact purchaseInsurance_moves h (by simp [claimsFeat]) hok
  | renew env correlationId passes classId entitlementId =>
    refine .inr (.inr (committed_relates .refl (fun res S' hok ↦ ?_)))
    exact renewInsuranceCoverage_moves h (by simp [claimsFeat]) hmeet hok
  | payPremium env correlationId q =>
    refine .inr (.inr (committed_relates .refl (fun res S' hok ↦ ?_)))
    exact payInsurancePremium_moves h (by simp [claimsFeat]) hok
  | cancel classId seatId policyUuid =>
    refine .inr (.inr (committed_relates .refl (fun res S' hok ↦ ?_)))
    exact cancelInsurance_moves h hok
  | expire env cycle entitlementId =>
    refine .inr (.inr ?_)
    simp only [insuranceStep, kept]
    split
    · next S' hok => exact expireEndedCoverage_moves hok
    · exact .refl
  | createPolicy policy =>
    refine .inr (.inr ?_)
    simp only [insuranceStep, kept]
    split
    · next S' hok => exact createInsuranceDefinition_moves hok
    · exact .refl
  | setAvailability policyUuid classId availabilityState =>
    refine .inr (.inr ?_)
    simp only [insuranceStep, kept]
    split
    · next S' hok => exact setAvailability_moves hok
    · exact .refl
  | settle seatId classId =>
    exact .inr (.inr (.single (.ledger (.settle h.ledger seatId classId))))
  | post feat id effects intent =>
    refine .inr (.inr ?_)
    simp only [insuranceStep, postElsewhere]
    split_ifs with helse
    · exact .refl
    · refine .single (.ledger ?_)
      push Not at helse
      refine committed_relates (.refl h.ledger) (fun out L hok ↦ ?_)
      have hfeat : ({ feat with canonicalNowUtc := now } : FeatContext).activeFeat ≠ claimsFeat :=
        helse.1
      refine .reserved h.ledger hfeat helse.2 (fun e he ↦ ?_) hok
      obtain ⟨e', -, rfl⟩ := List.mem_map.1 he
      rfl
  | enroll seats => exact .inr (.inr (.single .outside))
  | store events => exact .inr (.inr (.single .outside))

theorem SystemKept.refl (h : SystemSound sha256 zones bounded S) :
    SystemKept sha256 zones bounded S S :=
  ⟨h, .refl h.coverage, .of_extended (List.prefix_refl _)⟩

theorem SystemSound.moves (h : SystemSound sha256 zones bounded S)
    (hm : CoverageMoves sha256 zones bounded now S S') : SystemKept sha256 zones bounded S S' := by
  have hp := h.coverage.moves hm
  have hsame : S.claims <+: S'.claims := hp.claims ▸ List.prefix_refl _
  refine ⟨⟨hp.invariant, ?_, ?_⟩, hp.kept, .of_extended hsame⟩
  · exact h.claims.frame h.coverage hp.invariant hp.kept hp.claims hp.claimDates
  · refine h.effects.frame hp.elsewhere hsame (fun c hc hnew ↦ ?_) hp.payrollEvents
    rw [hp.claims] at hc
    exact absurd hc hnew

theorem CoverageInvariant.beside (h : CoverageInvariant sha256 zones bounded S)
    (hL : LedgerGrows sha256 S.ledger S'.ledger) (hR : S'.toRentState =
      { S.toRentState with ledger := S'.ledger }) (hpolicies : S'.policies = S.policies)
    (hcoverage : S'.coverageEvents = S.coverageEvents) :
    CoverageInvariant sha256 zones bounded S' ∧ CoverageKept sha256 S S' := by
  have hevents : S'.assessmentEvents = S.assessmentEvents := by rw [hR]
  have hcycles : S'.billCycles = S.billCycles := by rw [hR]
  have hx : CoverageKept sha256 S S' :=
    { ledger := hL
      events := hevents ▸ List.prefix_refl _
      cycles := hcycles ▸ List.prefix_refl _
      coverage := hcoverage ▸ List.prefix_refl _
      policies := fun u c p hp ↦ by
        refine ⟨p, ?_, rfl⟩
        rw [getInsuranceDefinition, hpolicies]
        exact hp }
  refine ⟨h.elsewhere hx ?_ ?_ hcycles hcoverage ?_ hevents, hx⟩
  · rw [hR, hpolicies]
    exact h.premiums
  · rw [hR]
  · rw [hR]

theorem SystemSound.submit (h : SystemSound sha256 zones bounded S) (env : ClaimSurroundings)
    (q : ClaimRequest) :
    SystemKept sha256 zones bounded S (submitInsuranceClaim (zones q.classId) env now S q).2 := by
  generalize hS' : (submitInsuranceClaim (zones q.classId) env now S q).2 = S'
  rcases submitInsuranceClaim_ok hS' with rfl | ⟨grant, policy, period, dates, hf⟩
  · exact .refl h
  · have hledger : S'.ledger = S.ledger := by rw [hf.state]
    have hgrow : GrowsElsewhere sha256 claimsFeat S.ledger S'.ledger := by
      rw [hledger]
      exact .refl h.coverage.ledger
    have hsub : S.claims <+: S'.claims := by
      rw [hf.state]
      exact List.prefix_append _ _
    obtain ⟨hcov, hx⟩ := h.coverage.beside hgrow.toLedgerGrows (by rw [hf.state])
      (by rw [hf.state]) (by rw [hf.state])
    refine ⟨⟨hcov, h.claims.file h.coverage hf, h.effects.frame hgrow hsub ?_ ?_⟩, hx,
      .of_extended hsub⟩
    · intro c hc hnew
      rw [hf.state] at hc
      rcases List.mem_append.1 hc with hold | hc
      · exact absurd hold hnew
      · rw [List.mem_singleton.1 hc]
        simp [newClaim]
    · rw [hf.state]

/-- The tables that a decision leaves, beside those of the claims. -/
theorem Decided.frame {zone : CoverageZone} {env : ClaimSurroundings} {feat : FeatContext}
    {q : ResolveRequest} {claim : InsuranceClaim}
    (hdec : Decided sha256 zone env feat S q claim S') :
    S'.toRentState = { S.toRentState with ledger := S'.ledger } ∧ S'.policies = S.policies ∧
      S'.coverageEvents = S.coverageEvents := by
  cases hdec with
  | rejected _ => exact ⟨rfl, rfl, rfl⟩
  | reimbursed _ _ => exact ⟨rfl, rfl, rfl⟩
  | compensated _ hcomp =>
    obtain ⟨L, events, rfl⟩ := payProductivityClaim_state hcomp.paid
    exact ⟨rfl, rfl, rfl⟩

theorem SystemSound.resolve (h : SystemSound sha256 zones bounded S) (env : ClaimSurroundings)
    {feat : FeatContext} (hfeat : feat.activeFeat = claimsFeat) (q : ResolveRequest)
    (hkey : q.idempotencyKey = adminApprovalKey q.claimId) :
    SystemKept sha256 zones bounded S
      (resolveInsuranceClaim sha256 (zones q.classId) env feat S q).2 := by
  generalize hS' : (resolveInsuranceClaim sha256 (zones q.classId) env feat S q).2 = S'
  rcases resolveInsuranceClaim_ok hS' with rfl | ⟨claim, hmem, hid, hclass, hst, hdec⟩
  · exact .refl h
  · have hkey : q.idempotencyKey = adminApprovalKey claim.claimId := by rw [hkey, hid]
    obtain ⟨heffects, hL⟩ :=
      h.effects.resolve h.claims h.coverage.ledger hmem hclass hst hfeat hkey hdec
    obtain ⟨hR, hpolicies, hcoverage⟩ := hdec.frame
    obtain ⟨hcov, hx⟩ := h.coverage.beside hL hR hpolicies hcoverage
    obtain ⟨d, as, hd⟩ := hdec.decisionOn hclass
    exact ⟨⟨hcov, h.claims.resolve h.coverage hmem hclass hst hdec, heffects⟩, hx,
      hd.claimsKept h.claims hmem hst⟩

theorem SystemSound.step (h : SystemSound sha256 zones bounded S) (now : Instant)
    (a : InsuranceAction) (hmeet : bounded → InTime sha256 zones now S a) :
    SystemKept sha256 zones bounded S (insuranceStep sha256 zones now S a) := by
  rcases insuranceStep_moves h.coverage hmeet with ⟨env, q, rfl⟩ | ⟨env, corr, q, rfl⟩ | hm
  · exact h.submit env q
  · exact h.resolve env rfl _ rfl
  · exact h.moves hm

end Commands

section Runs

theorem SameFiling.trans {c c' c'' : InsuranceClaim} (h : SameFiling c c')
    (h' : SameFiling c' c'') : SameFiling c c'' :=
  ⟨h'.claimId.trans h.claimId, h'.classId.trans h.classId,
    h'.entitlementId.trans h.entitlementId, h'.targetSeatId.trans h.targetSeatId,
    h'.correlationId.trans h.correlationId, h'.claimBasis.trans h.claimBasis,
    h'.submittedAt.trans h.submittedAt⟩

theorem ClaimsKept.trans (h : ClaimsKept S S') (h' : ClaimsKept S' S'') : ClaimsKept S S'' := by
  intro i c hc
  obtain ⟨c', hc', hsame, hkept⟩ := h i c hc
  obtain ⟨c'', hc'', hsame', hkept'⟩ := h' i c' hc'
  refine ⟨c'', hc'', hsame.trans hsame', fun hst ↦ ?_⟩
  obtain rfl := hkept hst
  exact hkept' hst

theorem SystemKept.trans (h : SystemKept sha256 zones bounded S S')
    (h' : SystemKept sha256 zones bounded S' S'') : SystemKept sha256 zones bounded S S'' :=
  ⟨h'.sound, h.coverage.trans h'.coverage, h.claims.trans h'.claims⟩

def RunMeets (sha256 : String → String) (zones : String → CoverageZone)
    (P : Instant → InsuranceState → InsuranceAction → Prop) : InsuranceSystem → List TimedAction → Prop
  | _, [] => True
  | s, a :: as => P (s.clock + a.wait) s.tables a.action ∧
    RunMeets sha256 zones P (systemStep sha256 zones s a) as

def RunMeets.decide {P : Instant → InsuranceState → InsuranceAction → Prop}
    [∀ now S a, Decidable (P now S a)] : ∀ s as, Decidable (RunMeets sha256 zones P s as)
  | _, [] => isTrue trivial
  | s, a :: as =>
    have : Decidable (RunMeets sha256 zones P (systemStep sha256 zones s a) as) :=
      RunMeets.decide _ as
    inferInstanceAs (Decidable (P _ _ _ ∧ _))

instance {P : Instant → InsuranceState → InsuranceAction → Prop}
    [∀ now S a, Decidable (P now S a)] (s : InsuranceSystem) (as : List TimedAction) :
    Decidable (RunMeets sha256 zones P s as) := RunMeets.decide s as

theorem SystemSound.run {s : InsuranceSystem} (h : SystemSound sha256 zones bounded s.tables)
    {as : List TimedAction}
    (hmeet : bounded → RunMeets sha256 zones (InTime sha256 zones) s as) :
    SystemKept sha256 zones bounded s.tables (run (systemStep sha256 zones) s as).tables := by
  induction as generalizing s with
  | nil => exact .refl h
  | cons a as ih =>
    have hstep := h.step (s.clock + a.wait) a.action (fun hb ↦ (hmeet hb).1)
    have hrest := ih (s := systemStep sha256 zones s a) hstep.sound (fun hb ↦ (hmeet hb).2)
    exact hstep.trans hrest

theorem SystemSound.start (seatClass : ℕ → Option String) :
    SystemSound sha256 zones bounded (.empty seatClass) where
  coverage :=
    { ledger := .empty seatClass
      premiums := rfl
      rentless := rfl
      grantsUnique := by simp [Granted, InsuranceState.empty]
      origins := by simp [Granted, InsuranceState.empty]
      continuedOnce := by simp [Granted, InsuranceState.empty]
      cycleIds := by simp [InsuranceState.empty, RentState.empty]
      owners := by simp [InsuranceState.empty, RentState.empty]
      lineages := by simp [Granted, InsuranceState.empty]
      premiumOf := by simp [Granted, InsuranceState.empty]
      assessments := by simp [InsuranceState.empty, RentState.empty]
      assessedOnce := by simp [InsuranceState.empty, RentState.empty]
      satisfied := by simp [InsuranceState.empty, RentState.empty]
      payments := by simp [InsuranceState.empty, RentState.empty]
      automatic := by simp [InsuranceState.empty, RentState.empty]
      successions := by simp [InsuranceState.empty, RentState.empty] }
  claims :=
    { claimIds := by simp [InsuranceState.empty]
      filed := by simp [InsuranceState.empty]
      dated := by simp [InsuranceState.empty]
      transactionsOnce := .nil
      datesOnce := .nil
      asserts := by simp [InsuranceState.empty]
      undecided := by simp [InsuranceState.empty]
      unrecognized := by simp [InsuranceState.empty]
      payouts := by simp [Granted, InsuranceState.empty]
      recognized := by simp [Granted, InsuranceState.empty]
      weeklyClaims := by simp [Granted, InsuranceState.empty]
      weeklyDates := by simp [Granted, InsuranceState.empty] }
  effects :=
    { paidRows := by simp [InsuranceState.empty, RentState.empty, LedgerState.empty]
      rowsOnce := .nil
      paid := by simp [InsuranceState.empty]
      within := by simp [InsuranceState.empty, RentState.empty, LedgerState.empty]
      reserved := by simp [InsuranceState.empty, RentState.empty, LedgerState.empty]
      manualCredits := by simp [InsuranceState.empty]
      manualOnce := .nil }

end Runs

end TokenHub.Insurance
