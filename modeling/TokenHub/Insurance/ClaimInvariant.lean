import TokenHub.Lib.SequencedLog
import TokenHub.Insurance.ClaimMoves

set_option autoImplicit false

namespace TokenHub.Insurance

open Ledger Rent Lib.Decimals Lib.Checks Lib.SequencedLog Lib.Tiling

structure FiledUnder (g : CoverageEvent) (c : InsuranceClaim) : Prop where
  entitlementId : c.entitlementId = g.entitlementId
  classId : c.classId = g.classId
  targetSeatId : c.targetSeatId = g.targetSeatId

section Facts

variable (S : InsuranceState)

def Live (r : ProductivityDate) : Prop :=
  ∃ c ∈ S.claims, c.claimId = r.claimId ∧ c.status ≠ .rejected

instance : DecidablePred (Live S) := fun _ ↦ by unfold Live; infer_instance

structure DateOf (c : InsuranceClaim) (r : ProductivityDate) : Prop where
  claimId : r.claimId = c.claimId
  classId : r.classId = c.classId
  entitlementId : r.entitlementId = c.entitlementId

end Facts

section Invariant

variable (zones : String → CoverageZone)

structure ClaimInvariant (S : InsuranceState) : Prop where
  claimIds : ∀ i c, S.claims[i]? = some c → c.claimId = i + 1
  filed : ∀ c ∈ S.claims, ∃ g, Granted S g ∧ FiledUnder g c ∧
    ∃ b ∈ lineage S.toRentState g.entitlementId, b.nextAssessmentAt.isSome ∧
      Holds startOf stopOf c.submittedAt b
  dated : ∀ r ∈ S.claimDates, ∃ c ∈ S.claims, DateOf c r ∧ ∃ g p, FiledUnder g c ∧
    Granted S g ∧ PolicyOf S g p ∧ p.insuranceType = .productivity
  transactionsOnce : S.claims.Pairwise (fun c c' ↦ c.classId = c'.classId →
    c.entitlementId = c'.entitlementId →
    c.claimBasis.transactionId = c'.claimBasis.transactionId →
    c.claimBasis.transactionId.isSome → ¬ (c.status ≠ .rejected ∧ c'.status ≠ .rejected))
  datesOnce : S.claimDates.Pairwise (fun r r' ↦ r.classId = r'.classId →
    r.entitlementId = r'.entitlementId → r.claimDate = r'.claimDate → ¬ (Live S r ∧ Live S r'))
  asserts : ∀ c ∈ S.claims, ∀ g p, Granted S g → FiledUnder g c → PolicyOf S g p →
    p.insuranceType = .productivity → c.claimBasis.claimedDates ≠ []
  undecided : ∀ c ∈ S.claims, c.status ≠ .approved →
    c.resultAmount = none ∧ c.ledgerTransactionId = none ∧ c.payrollEventId = none
  unrecognized : ∀ c ∈ S.claims, c.status ≠ .approved → ∀ r ∈ S.claimDates,
    r.claimId = c.claimId → r.recognizedPayout = none
  payouts : ∀ g p, Granted S g → PolicyOf S g p →
    ∀ b ∈ lineage S.toRentState g.entitlementId, b.nextAssessmentAt.isSome →
      sumApprovedPayouts S g.classId g.entitlementId (startOf b) (stopOf b) ≤
        maximumPolicyPayout p
  recognized : ∀ g p, Granted S g → PolicyOf S g p → p.insuranceType = .productivity →
    ∀ a b, sumRecognizedPayout S g.classId g.entitlementId a b =
      sumApprovedPayouts S g.classId g.entitlementId a b
  weeklyClaims : ∀ g p, Granted S g → PolicyOf S g p → p.insuranceType = .transaction →
    ∀ t, WeekCloses (zones g.classId).toClassZone t →
      ((listClaims S g.classId g.entitlementId).filter (FiledIn
      (filingWeekBounds (zones g.classId).toClassZone t).1
      (filingWeekBounds (zones g.classId).toClassZone t).2)).length ≤ weeklyClaimAllowance p
  weeklyDates : ∀ g p, Granted S g → PolicyOf S g p → p.insuranceType = .productivity →
    ∀ t, WeekCloses (zones g.classId).toClassZone t →
      countProductivityDateFilings S g.classId g.entitlementId
      (filingWeekBounds (zones g.classId).toClassZone t).1
      (filingWeekBounds (zones g.classId).toClassZone t).2 ≤ weeklyDateAllowance p

end Invariant

variable {sha256 : String → String} {zones : String → CoverageZone} {bounded : Prop}
  {S S' : InsuranceState} {g : CoverageEvent} {p : InsurancePolicy}

section Sums

variable {classId : String} {entitlementId : ℕ} {a b : Instant}

theorem sumApprovedPayouts_eq (S : InsuranceState) :
    sumApprovedPayouts S classId entitlementId a b = sumOver (fun c ↦ c.resultAmount.getD 0)
      (fun c ↦ (FiledIn a b c ∧ c.status = .approved) ∧
        c.classId = classId ∧ c.entitlementId = entitlementId) S.claims := by
  unfold sumApprovedPayouts listClaims sumOver
  rw [List.filter_filter]
  simp only [Bool.decide_and]

theorem listClaims_eq_nil (h : ∀ c ∈ S.claims, c.entitlementId ≠ entitlementId) :
    listClaims S classId entitlementId = [] := by
  rw [listClaims, List.filter_eq_nil_iff]
  intro c hc
  simp [h c hc]

end Sums

section Frame

theorem PolicyOf.unique {p' : InsurancePolicy} (h : PolicyOf S g p) (h' : PolicyOf S g p') :
    p = p' := Option.some.inj (h.1.symm.trans h'.1)

theorem PolicyOf.before (h : CoverageInvariant sha256 zones bounded S)
    (hx : CoverageKept sha256 S S') (hg : Granted S g) (hp : PolicyOf S' g p) :
    ∃ p₀, PolicyOf S g p₀ ∧ p.terms = p₀.terms := by
  obtain ⟨p₀, periods, closing, stop, hs, -⟩ := h.lineages g hg
  obtain ⟨p₁, hp₁, ht⟩ := hx.policyOf hs.policy
  exact ⟨p₀, hs.policy, by rw [hp.unique hp₁, ht]⟩

theorem maximumPolicyPayout_terms {p₀ : InsurancePolicy} (ht : p.terms = p₀.terms) :
    p.insuranceType = p₀.insuranceType ∧ maximumPolicyPayout p = maximumPolicyPayout p₀ ∧
      weeklyClaimAllowance p = weeklyClaimAllowance p₀ ∧
      weeklyDateAllowance p = weeklyDateAllowance p₀ := by
  have htype : p.insuranceType = p₀.insuranceType := (congrArg InsurancePolicy.insuranceType ht :)
  have hpremium : p.premium = p₀.premium := (congrArg InsurancePolicy.premium ht :)
  have hmultiple : p.payoutMultiple = p₀.payoutMultiple :=
    (congrArg InsurancePolicy.payoutMultiple ht :)
  have hclaims : p.claimsPerWeekEquivalent = p₀.claimsPerWeekEquivalent :=
    (congrArg InsurancePolicy.claimsPerWeekEquivalent ht :)
  have hdates : p.claimableDatesPerWeekEquivalent = p₀.claimableDatesPerWeekEquivalent :=
    (congrArg InsurancePolicy.claimableDatesPerWeekEquivalent ht :)
  refine ⟨htype, ?_, ?_, ?_⟩
  · rw [maximumPolicyPayout, maximumPolicyPayout, hpremium, hmultiple]
  · rw [weeklyClaimAllowance, weeklyClaimAllowance, hclaims]
  · rw [weeklyDateAllowance, weeklyDateAllowance, hdates]

theorem CoverageInvariant.period_unique (h : CoverageInvariant sha256 zones bounded S)
    (hg : Granted S g) {b b' : BillCycle} {t : Instant}
    (hb : b ∈ lineage S.toRentState g.entitlementId) (hlive : b.nextAssessmentAt.isSome)
    (hb' : b' ∈ lineage S.toRentState g.entitlementId) (hlive' : b'.nextAssessmentAt.isSome)
    (ht : Holds startOf stopOf t b) (ht' : Holds startOf stopOf t b') : b = b' := by
  obtain ⟨p, periods, closing, stop, hs, -⟩ := h.lineages g hg
  have hmem : ∀ c ∈ lineage S.toRentState g.entitlementId, c.nextAssessmentAt.isSome →
      c ∈ periods := by
    intro c hc hsome
    rw [hs.split, List.mem_append] at hc
    refine hc.resolve_right (fun hc ↦ ?_)
    rw [hs.closes c (by simpa using hc)] at hsome
    cases hsome
  exact hs.tiles.holds_unique (hmem b hb hlive) (hmem b' hb' hlive') ht ht'

theorem Live.congr (hclaims : S'.claims = S.claims) (r : ProductivityDate) :
    Live S' r ↔ Live S r := by
  unfold Live
  rw [hclaims]

/-- A new grant has no claims yet. -/
theorem ClaimInvariant.granted_before (hc : ClaimInvariant zones S)
    (h' : CoverageInvariant sha256 zones bounded S') (hx : CoverageKept sha256 S S')
    (hg : Granted S' g) : Granted S g ∨ ∀ c ∈ S.claims, c.entitlementId ≠ g.entitlementId := by
  by_cases hsome : ∀ c ∈ S.claims, c.entitlementId ≠ g.entitlementId
  · exact .inr hsome
  · push Not at hsome
    obtain ⟨c, hcm, heq⟩ := hsome
    obtain ⟨g₀, hg₀, hunder, -⟩ := hc.filed c hcm
    have hsame := h'.grantsUnique g g₀ hg (hx.granted hg₀) (heq.symm.trans hunder.entitlementId)
    exact .inl (hsame ▸ hg₀)

theorem ClaimInvariant.unfiled_period (hc : ClaimInvariant zones S)
    (h : CoverageInvariant sha256 zones bounded S) (h' : CoverageInvariant sha256 zones bounded S')
    (hx : CoverageKept sha256 S S') (hg : Granted S g) {b : BillCycle}
    (hb : b ∈ lineage S'.toRentState g.entitlementId) (hlive : b.nextAssessmentAt.isSome)
    (hnew : b ∉ lineage S.toRentState g.entitlementId) :
    sumApprovedPayouts S g.classId g.entitlementId (startOf b) (stopOf b) = 0 := by
  rw [sumApprovedPayouts_eq, sumOver, List.filter_eq_nil_iff.2, List.map_nil, List.sum_nil]
  intro c hcm
  simp only [decide_eq_true_eq, not_and]
  rintro ⟨hin, -⟩ - hent
  obtain ⟨g₀, hg₀, hunder, b₀, hb₀, hlive₀, hholds⟩ := hc.filed c hcm
  obtain rfl := h.grantsUnique g g₀ hg hg₀ (hent.symm.trans hunder.entitlementId)
  have hsame := h'.period_unique (hx.granted hg) (lineage_subset hx.cycles hb₀) hlive₀ hb hlive
    hholds hin
  exact hnew (hsame ▸ hb₀)

theorem ClaimInvariant.unrecognized_grant (hc : ClaimInvariant zones S) {entitlementId : ℕ}
    (hnone : ∀ c ∈ S.claims, c.entitlementId ≠ entitlementId) (classId : String)
    (a b : Instant) : sumRecognizedPayout S classId entitlementId a b = 0 := by
  rw [sumRecognizedPayout, List.filter_eq_nil_iff.2]
  · rfl
  · intro r hr
    simp only [decide_eq_true_eq, not_and]
    intro _ hent
    obtain ⟨c, hcm, hdate, -⟩ := hc.dated r hr
    exact absurd (hdate.entitlementId.symm.trans hent) (hnone c hcm)

/-- A command that leaves the claims alone keeps their invariant: a period that it opens holds no
filing. -/
theorem ClaimInvariant.frame (hc : ClaimInvariant zones S)
    (h : CoverageInvariant sha256 zones bounded S) (h' : CoverageInvariant sha256 zones bounded S')
    (hx : CoverageKept sha256 S S') (hclaims : S'.claims = S.claims)
    (hdates : S'.claimDates = S.claimDates) : ClaimInvariant zones S' := by
  have hbefore : ∀ g, Granted S' g → Granted S g ∨
      ∀ c ∈ S.claims, c.entitlementId ≠ g.entitlementId := fun _ ↦ hc.granted_before h' hx
  have hlist : ∀ classId n, listClaims S' classId n = listClaims S classId n := by
    intro classId n
    rw [listClaims, listClaims, hclaims]
  have hsum : ∀ classId n a b,
      sumApprovedPayouts S' classId n a b = sumApprovedPayouts S classId n a b := by
    intro classId n a b
    rw [sumApprovedPayouts_eq, sumApprovedPayouts_eq, hclaims]
  have hrecognized : ∀ classId n a b,
      sumRecognizedPayout S' classId n a b = sumRecognizedPayout S classId n a b := by
    intro classId n a b
    rw [sumRecognizedPayout, sumRecognizedPayout, hdates, hclaims]
  exact
    { claimIds := by
        rw [hclaims]
        exact hc.claimIds
      filed := by
        intro c hcm
        rw [hclaims] at hcm
        obtain ⟨g, hg, hunder, b, hb, hrest⟩ := hc.filed c hcm
        exact ⟨g, hx.granted hg, hunder, b, lineage_subset hx.cycles hb, hrest⟩
      dated := by
        intro r hr
        rw [hdates] at hr
        obtain ⟨c, hcm, hdate, g, p, hunder, hg, hp, htype⟩ := hc.dated r hr
        obtain ⟨p', hp', ht⟩ := hx.policyOf hp
        refine ⟨c, by rw [hclaims]; exact hcm, hdate, g, p', hunder, hx.granted hg, hp', ?_⟩
        rw [(maximumPolicyPayout_terms ht).1, htype]
      transactionsOnce := by
        rw [hclaims]
        exact hc.transactionsOnce
      datesOnce := by
        rw [hdates]
        simp only [Live.congr hclaims]
        exact hc.datesOnce
      asserts := by
        intro c hcm g p hg hunder hp htype
        rw [hclaims] at hcm
        rcases hbefore g hg with hold | hnone
        · obtain ⟨p₀, hp₀, ht⟩ := PolicyOf.before h hx hold hp
          rw [(maximumPolicyPayout_terms ht).1] at htype
          exact hc.asserts c hcm g p₀ hold hunder hp₀ htype
        · exact absurd hunder.entitlementId (hnone c hcm)
      undecided := by
        rw [hclaims]
        exact hc.undecided
      unrecognized := by
        rw [hclaims, hdates]
        exact hc.unrecognized
      payouts := by
        intro g p hg hp b hb hlive
        rw [hsum]
        rcases hbefore g hg with hold | hnone
        · obtain ⟨p₀, hp₀, ht⟩ := PolicyOf.before h hx hold hp
          rw [(maximumPolicyPayout_terms ht).2.1]
          by_cases hmem : b ∈ lineage S.toRentState g.entitlementId
          · exact hc.payouts g p₀ hold hp₀ b hmem hlive
          · rw [hc.unfiled_period h h' hx hold hb hlive hmem]
            exact Int.natCast_nonneg _
        · rw [sumApprovedPayouts, listClaims_eq_nil hnone]
          exact Int.natCast_nonneg _
      recognized := by
        intro g p hg hp htype a b
        rw [hsum, hrecognized]
        rcases hbefore g hg with hold | hnone
        · obtain ⟨p₀, hp₀, ht⟩ := PolicyOf.before h hx hold hp
          rw [(maximumPolicyPayout_terms ht).1] at htype
          exact hc.recognized g p₀ hold hp₀ htype a b
        · rw [hc.unrecognized_grant hnone, sumApprovedPayouts, listClaims_eq_nil hnone]
          rfl
      weeklyClaims := by
        intro g p hg hp htype t hcloses
        rw [hlist]
        rcases hbefore g hg with hold | hnone
        · obtain ⟨p₀, hp₀, ht⟩ := PolicyOf.before h hx hold hp
          rw [(maximumPolicyPayout_terms ht).1] at htype
          rw [(maximumPolicyPayout_terms ht).2.2.1]
          exact hc.weeklyClaims g p₀ hold hp₀ htype t hcloses
        · rw [listClaims_eq_nil hnone]
          exact Nat.zero_le _
      weeklyDates := by
        intro g p hg hp htype t hcloses
        rw [countProductivityDateFilings, hlist]
        rcases hbefore g hg with hold | hnone
        · obtain ⟨p₀, hp₀, ht⟩ := PolicyOf.before h hx hold hp
          rw [(maximumPolicyPayout_terms ht).1] at htype
          rw [(maximumPolicyPayout_terms ht).2.2.2]
          exact hc.weeklyDates g p₀ hold hp₀ htype t hcloses
        · rw [listClaims_eq_nil hnone]
          exact Nat.zero_le _ }

end Frame

end TokenHub.Insurance
