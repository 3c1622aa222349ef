import TokenHub.Insurance.ClaimInvariant

set_option autoImplicit false

namespace TokenHub.Insurance

open Ledger Rent Lib.Decimals Lib.Checks Lib.SequencedLog Lib.Tiling

variable {sha256 : String → String} {zones : String → CoverageZone} {bounded : Prop}
  {S S' : InsuranceState} {g : CoverageEvent} {p : InsurancePolicy} {now t : Instant}

section Weeks

variable (zone : CoverageZone)

theorem filingWeekBounds_eq (hcloses : WeekCloses zone.toClassZone t)
    (hlo : (filingWeekBounds zone.toClassZone t).1 ≤ now)
    (hhi : now < (filingWeekBounds zone.toClassZone t).2) :
    filingWeekBounds zone.toClassZone now = filingWeekBounds zone.toClassZone t := by
  have hto := hcloses now hhi
  have hfrom := zone.le_localDate now _ hlo
  have hmonday : zone.localDate now - (zone.localDate now - 1) % 7 =
      zone.localDate t - (zone.localDate t - 1) % 7 := by omega
  simp only [filingWeekBounds, hmonday]

end Weeks

section Parsing

variable {today first : ℤ}

theorem parseClaimedDate_ok {seen : List ℤ} {e : ClaimedDateEntry} {d : ParsedDate}
    (h : parseClaimedDate first today seen e = .ok d) : d.claimDate ∉ seen := by
  simp only [parseClaimedDate, demand_bind_eq_ok, require_bind_eq_ok] at h
  obtain ⟨date, -, hseen, -, hours, -, h⟩ := h
  split_ifs at h
  rw [pure_eq_ok] at h
  subst h
  exact hseen

theorem parseClaimedDates_ok {seen : List ℤ} {es : List ClaimedDateEntry} {ds : List ParsedDate}
    (h : parseClaimedDates first today seen es = .ok ds) : ds.length = es.length ∧
      ds.Pairwise (fun d e ↦ d.claimDate ≠ e.claimDate) ∧ ∀ d ∈ ds, d.claimDate ∉ seen := by
  induction es generalizing seen ds with
  | nil =>
    rw [parseClaimedDates, pure_eq_ok] at h
    subst h
    simp
  | cons e es ih =>
    simp only [parseClaimedDates, bind_eq_ok, pure_eq_ok] at h
    obtain ⟨d, hd, ds', hds, rfl⟩ := h
    obtain ⟨hlen, hnodup, hseen⟩ := ih hds
    have hfirst := parseClaimedDate_ok hd
    refine ⟨by simp [hlen], ?_, ?_⟩
    · rw [List.pairwise_cons]
      refine ⟨fun d' hd' heq ↦ ?_, hnodup⟩
      exact hseen d' hd' (heq ▸ List.mem_cons_self)
    · intro d' hd'
      rcases List.mem_cons.1 hd' with rfl | hd'
      · exact hfirst
      · exact fun hmem ↦ hseen d' hd' (List.mem_cons_of_mem _ hmem)

end Parsing

section Periods

theorem CoverageInvariant.coveragePeriod (h : CoverageInvariant sha256 zones bounded S)
    (hg : Granted S g) {period : CoveragePeriod}
    (hok : getCoveragePeriod S g.classId g.entitlementId t = .ok (some period)) :
    ∃ b ∈ lineage S.toRentState g.entitlementId, b.nextAssessmentAt.isSome ∧
      Holds startOf stopOf t b ∧ period = ⟨b.id, b.cycleNumber, startOf b, stopOf b⟩ := by
  obtain ⟨p, periods, closing, stop, hs, -⟩ := h.lineages g hg
  simp only [getCoveragePeriod, hs.getCurrentBillCycle t, ok_bind, pure_eq_ok] at hok
  split_ifs at hok with hover
  · cases hok
  · cases hfind : periods.find? (Holds startOf stopOf t) with
    | none =>
      rw [hfind] at hok
      cases hok
    | some b =>
      have hb := List.mem_of_find?_eq_some hfind
      have hholds : Holds startOf stopOf t b := by simpa using List.find?_some hfind
      have hends := (hs.ends hb).1
      rw [hfind, Option.bind_some, coveragePeriodOf, hends, Option.map_some,
        Option.some.injEq] at hok
      refine ⟨b, hs.mem_periods hb, ?_, hholds, hok.symm⟩
      rw [hends]
      rfl

theorem evaluateInsuranceUsability_ok {classId : String} {entitlementId : ℕ}
    {period : CoveragePeriod}
    (h : evaluateInsuranceUsability S classId entitlementId t = .ok (.ok period)) :
    getCoveragePeriod S classId entitlementId t = .ok (some period) ∧
      areRequiredObligationsSatisfied S.toRentState classId (premiumLineageRef entitlementId) t =
        true := by
  unfold evaluateInsuranceUsability at h
  split at h
  · cases h
  · split at h
    · cases h
    · rw [bind_eq_ok] at h
      obtain ⟨found, hfound, h⟩ := h
      split at h
      · cases h
      · next period' =>
        split_ifs at h with hsatisfied
        · rw [pure_eq_ok, Except.ok.injEq] at h
          subst h
          exact ⟨hfound, hsatisfied⟩
        · cases h

end Periods

section Filings

variable {env : ClaimSurroundings} {q : ClaimRequest} {grant : CoverageEvent}
  {policy : InsurancePolicy} {period : CoveragePeriod} {dates : List ParsedDate}

theorem resolveClaimGrant_spec {classId : String} {seatId entitlementId : ℕ}
    (h : resolveClaimGrant S classId seatId entitlementId = some grant) : Granted S grant ∧
      grant.entitlementId = entitlementId ∧ grant.classId = classId ∧
        grant.targetSeatId = seatId := by
  have hmem := List.mem_of_find?_eq_some h
  have hfields : grant.entitlementId = entitlementId ∧ grant.classId = classId ∧
      grant.targetSeatId = seatId ∧ grant.eventType = .granted := by simpa using List.find?_some h
  obtain ⟨hent, hclass, hseat, htype⟩ := hfields
  exact ⟨⟨hmem, htype⟩, hent, hclass, hseat⟩

theorem CoverageInvariant.claimPolicy (h : CoverageInvariant sha256 zones bounded S)
    {classId : String} {seatId entitlementId : ℕ}
    (hok : resolveClaimPolicy S classId seatId entitlementId = .ok policy) : ∃ g, Granted S g ∧
      PolicyOf S g policy ∧ g.entitlementId = entitlementId ∧ g.classId = classId ∧
        g.targetSeatId = seatId := by
  simp only [resolveClaimPolicy, demand_bind_eq_ok, require_bind_eq_ok, demand_eq_ok] at hok
  obtain ⟨g, hgrant, -, hpolicy⟩ := hok
  obtain ⟨hg, hent, hclass, hseat⟩ := resolveClaimGrant_spec hgrant
  obtain ⟨p, periods, closing, stop, hs, -⟩ := h.lineages g hg
  rw [← hclass] at hpolicy
  have hsame : p = policy := Option.some.inj (hs.policy.1.symm.trans hpolicy)
  exact ⟨g, hg, hsame ▸ hs.policy, hent, hclass, hseat⟩

theorem enforceTransactionSubmission_ok {zone : CoverageZone}
    (hok : enforceTransactionSubmission zone env now S q policy grant period = .ok ()) :
    ((listClaims S q.classId q.entitlementId).filter (fun c ↦ c.targetSeatId = q.seatId ∧
      FiledIn (filingWeekBounds zone.toClassZone now).1
        (filingWeekBounds zone.toClassZone now).2 c ∧ c.correlationId ≠ q.replayKey)).length <
      weeklyClaimAllowance policy := by
  simp only [enforceTransactionSubmission, demand_bind_eq_ok, require_bind_eq_ok] at hok
  obtain ⟨-, -, -, -, hweek, -⟩ := hok
  exact hweek

theorem enforceProductivitySubmission_ok {zone : CoverageZone}
    (hok : enforceProductivitySubmission zone env now S q policy dates period = .ok ()) :
    countProductivityDateFilings S q.classId q.entitlementId
      (filingWeekBounds zone.toClassZone now).1 (filingWeekBounds zone.toClassZone now).2 +
        dates.length ≤ weeklyDateAllowance policy := by
  simp only [enforceProductivitySubmission, require_bind_eq_ok] at hok
  exact hok.2.1

theorem enforceSubmission_ok {zone : CoverageZone}
    (hok : enforceSubmission zone env now S q policy grant period = .ok dates) :
    dates.Pairwise (fun d e ↦ d.claimDate ≠ e.claimDate) ∧
      (policy.insuranceType ≠ .productivity → dates = []) ∧
      (policy.insuranceType = .transaction →
        ((listClaims S q.classId q.entitlementId).filter (fun c ↦ c.targetSeatId = q.seatId ∧
          FiledIn (filingWeekBounds zone.toClassZone now).1
            (filingWeekBounds zone.toClassZone now).2 c ∧ c.correlationId ≠ q.replayKey)).length <
          weeklyClaimAllowance policy) ∧
      (policy.insuranceType = .productivity →
        countProductivityDateFilings S q.classId q.entitlementId
          (filingWeekBounds zone.toClassZone now).1 (filingWeekBounds zone.toClassZone now).2 +
            q.claimSubject.claimedDates.length ≤ weeklyDateAllowance policy ∧
          q.claimSubject.claimedDates ≠ []) := by
  simp only [enforceSubmission, require_bind_eq_ok] at hok
  obtain ⟨-, hok⟩ := hok
  split at hok
  · next htype =>
    rw [unit_bind_eq_ok, pure_eq_ok] at hok
    obtain ⟨hchecks, rfl⟩ := hok
    have hweek := enforceTransactionSubmission_ok hchecks
    refine ⟨.nil, fun _ ↦ rfl, fun _ ↦ hweek, fun hne ↦ ?_⟩
    rw [htype] at hne
    cases hne
  · next htype =>
    rw [require_bind_eq_ok, bind_eq_ok] at hok
    obtain ⟨hasserts, ds, hds, hok⟩ := hok
    rw [unit_bind_eq_ok, pure_eq_ok] at hok
    obtain ⟨hchecks, rfl⟩ := hok
    obtain ⟨hlen, hnodup, -⟩ := parseClaimedDates_ok hds
    have hweek := enforceProductivitySubmission_ok hchecks
    refine ⟨?_, fun hne ↦ absurd htype hne, fun hne ↦ ?_, fun _ ↦ ⟨hlen ▸ hweek, hasserts⟩⟩
    · exact (List.perm_insertionSort _ ds).symm.pairwise hnodup (fun hne ↦ hne.symm)
    · rw [htype] at hne
      cases hne
  · next htype =>
    rw [pure_eq_ok] at hok
    subst hok
    refine ⟨.nil, fun _ ↦ rfl, fun hne ↦ ?_, fun hne ↦ ?_⟩
    · rw [htype] at hne
      cases hne
    · rw [htype] at hne
      cases hne

end Filings

section Preservation

theorem ClaimInvariant.claimId_le (hc : ClaimInvariant zones S) {c : InsuranceClaim}
    (hcm : c ∈ S.claims) : c.claimId ≤ S.claims.length := by
  obtain ⟨i, hi, rfl⟩ := List.getElem_of_mem hcm
  have hid := hc.claimIds i _ (List.getElem?_eq_getElem hi)
  omega

theorem ClaimInvariant.claim_unique (hc : ClaimInvariant zones S) {c c' : InsuranceClaim}
    (hcm : c ∈ S.claims) (hcm' : c' ∈ S.claims) (heq : c.claimId = c'.claimId) : c = c' := by
  obtain ⟨i, hi, rfl⟩ := List.getElem_of_mem hcm
  obtain ⟨j, hj, rfl⟩ := List.getElem_of_mem hcm'
  have hi' := hc.claimIds i _ (List.getElem?_eq_getElem hi)
  have hj' := hc.claimIds j _ (List.getElem?_eq_getElem hj)
  obtain rfl : i = j := by omega
  rfl

theorem ClaimInvariant.targetSeat (hc : ClaimInvariant zones S)
    (h : CoverageInvariant sha256 zones bounded S) (hg : Granted S g) {c : InsuranceClaim}
    (hcm : c ∈ S.claims) (hent : c.entitlementId = g.entitlementId) : FiledUnder g c := by
  obtain ⟨g', hg', hunder, -⟩ := hc.filed c hcm
  obtain rfl := h.grantsUnique g g' hg hg' (hent.symm.trans hunder.entitlementId)
  exact hunder

variable {env : ClaimSurroundings} {q : ClaimRequest} {grant : CoverageEvent}
  {policy : InsurancePolicy} {period : CoveragePeriod} {dates : List ParsedDate}

def withClaim (S : InsuranceState) (c : InsuranceClaim) (dates : List ParsedDate) :
    InsuranceState :=
  { S with claims := S.claims ++ [c], claimDates := S.claimDates ++ dates.map (newDate c) }

variable {c : InsuranceClaim}

theorem listClaims_withClaim (classId : String) (entitlementId : ℕ) :
    listClaims (withClaim S c dates) classId entitlementId = listClaims S classId entitlementId ++
      if c.classId = classId ∧ c.entitlementId = entitlementId then [c] else [] := by
  rw [listClaims, withClaim, List.filter_append, ← listClaims]
  by_cases hmine : c.classId = classId ∧ c.entitlementId = entitlementId
  · simp [hmine]
  · rw [if_neg hmine, List.filter_cons_of_neg (by simpa using hmine), List.filter_nil]

theorem sumApprovedPayouts_withClaim (hstatus : c.status = .submitted) (classId : String)
    (entitlementId : ℕ) (a b : Instant) :
    sumApprovedPayouts (withClaim S c dates) classId entitlementId a b =
      sumApprovedPayouts S classId entitlementId a b := by
  rw [sumApprovedPayouts_eq, sumApprovedPayouts_eq, withClaim, sumOver_snoc, if_neg, add_zero]
  rintro ⟨⟨-, happroved⟩, -⟩
  rw [hstatus] at happroved
  cases happroved

/-- Rows of no recognized payout do not count, and old rows do not belong to the new claim. -/
theorem sumRecognizedPayout_withClaim (hold : ∀ r ∈ S.claimDates, r.claimId ≠ c.claimId)
    (classId : String) (entitlementId : ℕ) (a b : Instant) :
    sumRecognizedPayout (withClaim S c dates) classId entitlementId a b =
      sumRecognizedPayout S classId entitlementId a b := by
  have hnew : ∀ r ∈ dates.map (newDate c), r.recognizedPayout.getD 0 = 0 := by
    intro r hr
    obtain ⟨d, -, rfl⟩ := List.mem_map.1 hr
    rfl
  unfold sumRecognizedPayout withClaim
  rw [List.filter_append, List.map_append, List.sum_append]
  rw [List.sum_eq_zero (l := ((dates.map (newDate c)).filter _).map _), add_zero]
  · rw [List.filter_congr]
    intro r hr
    simp only [decide_eq_decide, List.mem_append, List.mem_singleton]
    refine and_congr_right (fun _ ↦ and_congr_right (fun _ ↦ ⟨?_, ?_⟩))
    · rintro ⟨d, hd | rfl, heq, hin⟩
      · exact ⟨d, hd, heq, hin⟩
      · exact absurd heq.symm (hold r hr)
    · rintro ⟨d, hd, hrest⟩
      exact ⟨d, .inl hd, hrest⟩
  · intro x hx
    obtain ⟨r, hr, rfl⟩ := List.mem_map.1 hx
    exact hnew r (List.mem_of_mem_filter hr)

/-- What a filing adds: a submitted claim of a grant, under a policy, with its dates. -/
structure ClaimAdded (zones : String → CoverageZone) (S : InsuranceState) (g : CoverageEvent)
    (p : InsurancePolicy) (c : InsuranceClaim) (dates : List ParsedDate) : Prop where
  granted : Granted S g
  policy : PolicyOf S g p
  under : FiledUnder g c
  claimId : c.claimId = S.claims.length + 1
  status : c.status = .submitted
  undecided : c.resultAmount = none ∧ c.ledgerTransactionId = none ∧ c.payrollEventId = none
  period : ∃ b ∈ lineage S.toRentState g.entitlementId, b.nextAssessmentAt.isSome ∧
    Holds startOf stopOf c.submittedAt b
  unreserved : ∀ d ∈ S.claims, FiledUnder g d → c.claimBasis.transactionId.isSome →
    d.status ≠ .rejected → d.claimBasis.transactionId ≠ c.claimBasis.transactionId
  distinct : dates.Pairwise (fun d e ↦ d.claimDate ≠ e.claimDate)
  free : ∀ d ∈ dates, ¬ DateTaken S g.classId g.entitlementId d.claimDate
  dated : dates ≠ [] → p.insuranceType = .productivity
  asserts : p.insuranceType = .productivity → c.claimBasis.claimedDates ≠ []
  weekClaims : p.insuranceType = .transaction → ∀ t, WeekCloses (zones g.classId).toClassZone t →
    FiledIn (filingWeekBounds (zones g.classId).toClassZone t).1
      (filingWeekBounds (zones g.classId).toClassZone t).2 c →
    ((listClaims S g.classId g.entitlementId).filter (FiledIn
      (filingWeekBounds (zones g.classId).toClassZone t).1
      (filingWeekBounds (zones g.classId).toClassZone t).2)).length < weeklyClaimAllowance p
  weekDates : p.insuranceType = .productivity → ∀ t, WeekCloses (zones g.classId).toClassZone t →
    FiledIn (filingWeekBounds (zones g.classId).toClassZone t).1
      (filingWeekBounds (zones g.classId).toClassZone t).2 c →
    countProductivityDateFilings S g.classId g.entitlementId
      (filingWeekBounds (zones g.classId).toClassZone t).1
      (filingWeekBounds (zones g.classId).toClassZone t).2 + c.claimBasis.claimedDates.length ≤
        weeklyDateAllowance p

/-- The claims that the weekly check counts, of the seat and under other keys, are all those of the
entitlement in the week. -/
theorem ClaimInvariant.weekClaims_eq (hc : ClaimInvariant zones S)
    (h : CoverageInvariant sha256 zones bounded S) (hg : Granted S g) {key : String}
    (hfresh : ∀ c ∈ S.claims, c.correlationId ≠ key) (a b : Instant) :
    (listClaims S g.classId g.entitlementId).filter (fun c ↦ c.targetSeatId = g.targetSeatId ∧
      FiledIn a b c ∧ c.correlationId ≠ key) =
        (listClaims S g.classId g.entitlementId).filter (FiledIn a b) := by
  refine List.filter_congr (fun d hd ↦ ?_)
  obtain ⟨hd, hmine⟩ := List.mem_filter.1 hd
  have hseat := (hc.targetSeat h hg hd (of_decide_eq_true hmine).2).targetSeatId
  simp [hseat, hfresh d hd]

theorem Filed.added (hc : ClaimInvariant zones S) (h : CoverageInvariant sha256 zones bounded S)
    (hf : Filed (zones q.classId) env now S q grant policy period dates S') :
    ClaimAdded zones S grant policy (newClaim now S q) dates := by
  obtain ⟨hgrant, hpolicy, husable, hunreserved, henforced, hfresh, hfree, -⟩ := hf
  obtain ⟨hg, hent, hclass, hseat⟩ := resolveClaimGrant_spec hgrant
  obtain ⟨g, hg', hp, hent', hclass', -⟩ := h.claimPolicy hpolicy
  obtain rfl := h.grantsUnique grant g hg hg' (hent.trans hent'.symm)
  obtain ⟨hdistinct, hnone, hweekClaims, hweekDates⟩ := enforceSubmission_ok henforced
  have hperiod := (evaluateInsuranceUsability_ok husable).1
  rw [← hclass, ← hent] at hperiod hunreserved hfree hweekClaims hweekDates
  obtain ⟨b, hb, hlive, hholds, -⟩ := h.coveragePeriod hg hperiod
  have hweek : ∀ t, WeekCloses (zones grant.classId).toClassZone t →
      FiledIn (filingWeekBounds (zones grant.classId).toClassZone t).1
        (filingWeekBounds (zones grant.classId).toClassZone t).2 (newClaim now S q) →
      filingWeekBounds (zones grant.classId).toClassZone now =
        filingWeekBounds (zones grant.classId).toClassZone t :=
    fun t hcloses hin ↦ filingWeekBounds_eq _ hcloses hin.1 hin.2
  refine ⟨hg, hp, ⟨hent.symm, hclass.symm, hseat.symm⟩, rfl, rfl, ⟨rfl, rfl, rfl⟩,
    ⟨b, hb, hlive, hholds⟩, ?_, hdistinct, hfree, ?_, fun htype ↦ (hweekDates htype).2, ?_, ?_⟩
  · intro d hd hunder hsome hst
    refine hunreserved d ?_ (hunder.targetSeatId.trans hseat) hsome hst
    simp [listClaims, hd, hunder.classId, hunder.entitlementId]
  · intro hdates
    by_contra htype
    exact hdates (hnone htype)
  · intro htype t hcloses hin
    have hlt := hweekClaims htype
    rwa [← hseat, hc.weekClaims_eq h hg hfresh, hweek t hcloses hin] at hlt
  · intro htype t hcloses hin
    have hle := (hweekDates htype).1
    rwa [hweek t hcloses hin] at hle

theorem ClaimAdded.claimId_ne (ha : ClaimAdded zones S g p c dates) (hc : ClaimInvariant zones S)
    {d : InsuranceClaim} (hd : d ∈ S.claims) : d.claimId ≠ c.claimId := by
  have hle := hc.claimId_le hd
  have hid := ha.claimId
  omega

/-- The rows of dates are all of earlier claims. -/
theorem ClaimAdded.dates_ne (ha : ClaimAdded zones S g p c dates) (hc : ClaimInvariant zones S)
    {r : ProductivityDate} (hr : r ∈ S.claimDates) : r.claimId ≠ c.claimId := by
  obtain ⟨d, hd, hdate, -⟩ := hc.dated r hr
  rw [hdate.claimId]
  exact ha.claimId_ne hc hd

theorem ClaimAdded.live (ha : ClaimAdded zones S g p c dates) (hc : ClaimInvariant zones S)
    {r : ProductivityDate} (hr : r ∈ S.claimDates) (hlive : Live (withClaim S c dates) r) : Live S r := by
  obtain ⟨d, hd, heq, hst⟩ := hlive
  rcases List.mem_append.1 hd with hd | hd
  · exact ⟨d, hd, heq, hst⟩
  · obtain rfl := List.mem_singleton.1 hd
    exact absurd heq.symm (ha.dates_ne hc hr)

/-- The policy of any grant that the claim is filed under is that of its own. -/
theorem ClaimAdded.same (ha : ClaimAdded zones S g p c dates)
    (h : CoverageInvariant sha256 zones bounded S) {g' : CoverageEvent} {p' : InsurancePolicy}
    (hg : Granted S g') (hp : PolicyOf S g' p') (hent : c.entitlementId = g'.entitlementId) :
    g' = g ∧ p' = p := by
  obtain rfl := h.grantsUnique g g' ha.granted hg (ha.under.entitlementId.symm.trans hent)
  exact ⟨rfl, hp.unique ha.policy⟩

theorem ClaimAdded.transactionsOnce (ha : ClaimAdded zones S g p c dates) (hc : ClaimInvariant zones S)
    (h : CoverageInvariant sha256 zones bounded S) :
    (S.claims ++ [c]).Pairwise (fun c c' ↦ c.classId = c'.classId →
      c.entitlementId = c'.entitlementId →
      c.claimBasis.transactionId = c'.claimBasis.transactionId →
      c.claimBasis.transactionId.isSome → ¬ (c.status ≠ .rejected ∧ c'.status ≠ .rejected)) := by
  refine List.pairwise_append.2 ⟨hc.transactionsOnce, List.pairwise_singleton _ _, ?_⟩
  intro d hd c' hc' _ hent htransaction hsome hboth
  obtain rfl := List.mem_singleton.1 hc'
  have hunder := hc.targetSeat h ha.granted hd (hent.trans ha.under.entitlementId)
  exact ha.unreserved d hd hunder (htransaction ▸ hsome) hboth.1 htransaction

theorem ClaimAdded.datesOnce (ha : ClaimAdded zones S g p c dates) (hc : ClaimInvariant zones S) :
    (S.claimDates ++ dates.map (newDate c)).Pairwise (fun r r' ↦ r.classId = r'.classId →
      r.entitlementId = r'.entitlementId → r.claimDate = r'.claimDate →
      ¬ (Live (withClaim S c dates) r ∧ Live (withClaim S c dates) r')) := by
  refine List.pairwise_append.2 ⟨?_, ?_, ?_⟩
  · refine hc.datesOnce.imp_of_mem (fun {r r'} hr hr' hpair hclass hent hdate hboth ↦ ?_)
    exact hpair hclass hent hdate ⟨ha.live hc hr hboth.1, ha.live hc hr' hboth.2⟩
  · rw [List.pairwise_map]
    exact ha.distinct.imp (fun hne _ _ heq _ ↦ hne heq)
  · intro r hr r' hr' hclass hent hdate hboth
    obtain ⟨d, hd, rfl⟩ := List.mem_map.1 hr'
    obtain ⟨e, he, heid, hst⟩ := ha.live hc hr hboth.1
    obtain ⟨e', he', hof, -⟩ := hc.dated r hr
    obtain rfl := hc.claim_unique he he' (heid.trans hof.claimId)
    have hclass : r.classId = g.classId := hclass.trans ha.under.classId
    have hent : r.entitlementId = g.entitlementId := hent.trans ha.under.entitlementId
    exact ha.free d hd ⟨r, hr, hclass, hent, hdate, e, he, heid, hof.classId.symm.trans hclass,
      hst⟩

theorem ClaimAdded.dated_new (ha : ClaimAdded zones S g p c dates)
    (hc : ClaimInvariant zones S) {r : ProductivityDate}
    (hr : r ∈ S.claimDates ++ dates.map (newDate c)) : ∃ d ∈ S.claims ++ [c], DateOf d r ∧
      ∃ g p, FiledUnder g d ∧ Granted S g ∧ PolicyOf S g p ∧ p.insuranceType = .productivity := by
  rcases List.mem_append.1 hr with hr | hr
  · obtain ⟨d, hd, hrest⟩ := hc.dated r hr
    exact ⟨d, List.mem_append_left _ hd, hrest⟩
  · obtain ⟨d, hd, rfl⟩ := List.mem_map.1 hr
    have htype := ha.dated (List.ne_nil_of_mem hd)
    exact ⟨c, by simp, ⟨rfl, rfl, rfl⟩, g, p, ha.under, ha.granted, ha.policy, htype⟩

theorem ClaimAdded.unrecognized (ha : ClaimAdded zones S g p c dates) (hc : ClaimInvariant zones S)
    {d : InsuranceClaim} (hd : d ∈ S.claims ++ [c]) (hst : d.status ≠ .approved) {r : ProductivityDate}
    (hr : r ∈ S.claimDates ++ dates.map (newDate c)) (hid : r.claimId = d.claimId) :
    r.recognizedPayout = none := by
  rcases List.mem_append.1 hr with hold | hr
  · rcases List.mem_append.1 hd with hd | hd
    · exact hc.unrecognized d hd hst r hold hid
    · obtain rfl := List.mem_singleton.1 hd
      exact absurd hid (ha.dates_ne hc hold)
  · obtain ⟨e, -, rfl⟩ := List.mem_map.1 hr
    rfl

theorem ClaimAdded.weeklyClaims (ha : ClaimAdded zones S g p c dates)
    (hc : ClaimInvariant zones S) (h : CoverageInvariant sha256 zones bounded S)
    {g' : CoverageEvent} {p' : InsurancePolicy} (hg : Granted S g') (hp : PolicyOf S g' p')
    (htype : p'.insuranceType = .transaction)
    (hcloses : WeekCloses (zones g'.classId).toClassZone t) :
    ((listClaims (withClaim S c dates) g'.classId g'.entitlementId).filter (FiledIn
      (filingWeekBounds (zones g'.classId).toClassZone t).1
      (filingWeekBounds (zones g'.classId).toClassZone t).2)).length ≤ weeklyClaimAllowance p' := by
  have hbefore := hc.weeklyClaims g' p' hg hp htype t hcloses
  rw [listClaims_withClaim, List.filter_append, List.length_append]
  by_cases hmine : c.classId = g'.classId ∧ c.entitlementId = g'.entitlementId
  · obtain ⟨rfl, rfl⟩ := ha.same h hg hp hmine.2
    rw [if_pos hmine, List.filter_singleton]
    by_cases hin : FiledIn (filingWeekBounds (zones g'.classId).toClassZone t).1
        (filingWeekBounds (zones g'.classId).toClassZone t).2 c
    · have hlt := ha.weekClaims htype t hcloses hin
      simp only [hin, decide_true, cond_true, List.length_singleton]
      omega
    · simpa [hin] using hbefore
  · simpa [hmine] using hbefore

theorem ClaimAdded.weeklyDates (ha : ClaimAdded zones S g p c dates)
    (hc : ClaimInvariant zones S) (h : CoverageInvariant sha256 zones bounded S)
    {g' : CoverageEvent} {p' : InsurancePolicy} (hg : Granted S g') (hp : PolicyOf S g' p')
    (htype : p'.insuranceType = .productivity)
    (hcloses : WeekCloses (zones g'.classId).toClassZone t) :
    countProductivityDateFilings (withClaim S c dates) g'.classId g'.entitlementId
      (filingWeekBounds (zones g'.classId).toClassZone t).1
      (filingWeekBounds (zones g'.classId).toClassZone t).2 ≤ weeklyDateAllowance p' := by
  have hbefore := hc.weeklyDates g' p' hg hp htype t hcloses
  rw [countProductivityDateFilings] at hbefore ⊢
  rw [listClaims_withClaim, List.filter_append, List.map_append, List.sum_append]
  by_cases hmine : c.classId = g'.classId ∧ c.entitlementId = g'.entitlementId
  · obtain ⟨rfl, rfl⟩ := ha.same h hg hp hmine.2
    rw [if_pos hmine, List.filter_singleton]
    by_cases hin : FiledIn (filingWeekBounds (zones g'.classId).toClassZone t).1
        (filingWeekBounds (zones g'.classId).toClassZone t).2 c
    · have hle := ha.weekDates htype t hcloses hin
      rw [countProductivityDateFilings] at hle
      simpa [hin] using hle
    · simpa [hin] using hbefore
  · simpa [hmine] using hbefore

theorem ClaimAdded.invariant (ha : ClaimAdded zones S g p c dates) (hc : ClaimInvariant zones S)
    (h : CoverageInvariant sha256 zones bounded S) :
    ClaimInvariant zones (withClaim S c dates) where
  claimIds i d hd := by
    rcases getElem?_append_singleton hd with hd | ⟨rfl, rfl⟩
    · exact hc.claimIds i d hd
    · exact ha.claimId
  filed d hd := by
    rcases List.mem_append.1 hd with hd | hd
    · exact hc.filed d hd
    · obtain rfl := List.mem_singleton.1 hd
      exact ⟨g, ha.granted, ha.under, ha.period⟩
  dated r hr := ha.dated_new hc hr
  transactionsOnce := ha.transactionsOnce hc h
  datesOnce := ha.datesOnce hc
  asserts d hd g' p' hg hunder hp htype := by
    rcases List.mem_append.1 hd with hd | hd
    · exact hc.asserts d hd g' p' hg hunder hp htype
    · obtain rfl := List.mem_singleton.1 hd
      obtain ⟨rfl, rfl⟩ := ha.same h hg hp hunder.entitlementId
      exact ha.asserts htype
  undecided d hd hst := by
    rcases List.mem_append.1 hd with hd | hd
    · exact hc.undecided d hd hst
    · obtain rfl := List.mem_singleton.1 hd
      exact ha.undecided
  unrecognized d hd hst r hr hid := ha.unrecognized hc hd hst hr hid
  payouts g' p' hg hp b hb hlive := by
    rw [sumApprovedPayouts_withClaim ha.status]
    exact hc.payouts g' p' hg hp b hb hlive
  recognized g' p' hg hp htype a b := by
    rw [sumApprovedPayouts_withClaim ha.status,
      sumRecognizedPayout_withClaim (fun r hr ↦ ha.dates_ne hc hr)]
    exact hc.recognized g' p' hg hp htype a b
  weeklyClaims g' p' hg hp htype t hcloses := ha.weeklyClaims hc h hg hp htype hcloses
  weeklyDates g' p' hg hp htype t hcloses := ha.weeklyDates hc h hg hp htype hcloses

theorem ClaimInvariant.file (hc : ClaimInvariant zones S)
    (h : CoverageInvariant sha256 zones bounded S)
    (hf : Filed (zones q.classId) env now S q grant policy period dates S') :
    ClaimInvariant zones S' := by
  obtain rfl : S' = withClaim S (newClaim now S q) dates := hf.state
  exact (hf.added hc h).invariant hc h

end Preservation

end TokenHub.Insurance
