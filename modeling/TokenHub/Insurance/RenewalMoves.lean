import TokenHub.Insurance.PremiumMoves

set_option autoImplicit false

namespace TokenHub.Insurance

open Ledger Rent Lib.Checks Lib.Tiling

variable {sha256 : String → String} {zones : String → CoverageZone} {bounded : Prop}
  {env : Surroundings} {feat : FeatContext} {S S' : InsuranceState} {now : Instant}
  {g : CoverageEvent} {p : InsurancePolicy} {periods : List BillCycle} {stop : Instant}

section Termination

def Withdraws (R : RentState) (now : Instant) (e : ObligationAssessment) : Prop :=
  e.eventType = .withdrawn ∧ e.timestamp = now ∧
    ∃ a ∈ R.assessmentEvents, a.IsAssessment ∧ a.correlationId = e.correlationId

theorem withdrawAssessment_ok {q : WithdrawAssessmentRequest} {R R' : RentState}
    {e : ObligationAssessment} (hok : withdrawAssessment R now q = .ok (e, R')) :
    R' = R ∨ (R' = addEvent R e ∧ Withdraws R now e) := by
  rw [withdrawAssessment, demand_bind_eq_ok] at hok
  obtain ⟨b, hfound, hok⟩ := hok
  obtain ⟨hb, hcorr, hbss⟩ := getAssessmentForCorrelation_spec (Option.mem_filter_iff.1 hfound).1
  split at hok
  · rw [pure_eq_ok, Prod.mk.injEq] at hok
    exact .inl hok.2.symm
  · simp only [demand_bind_eq_ok, require_bind_eq_ok, pure_eq_ok, Prod.mk.injEq] at hok
    obtain ⟨cycle, -, -, -, rfl, rfl⟩ := hok
    exact .inr ⟨rfl, rfl, rfl, b, hb, hbss, rfl⟩

theorem withdrawUntouched_ok {reference : Option Instant} {classId : String} {R R' : RentState}
    {as : List ObligationAssessment}
    (hok : withdrawUntouched now reference classId R as = .ok R') :
    ∃ es, R' = { R with assessmentEvents := R.assessmentEvents ++ es } ∧
      ∀ e ∈ es, Withdraws R now e := by
  induction as generalizing R with
  | nil =>
    rw [withdrawUntouched, pure_eq_ok] at hok
    exact ⟨[], by rw [← hok, List.append_nil], by simp⟩
  | cons a as ih =>
    rw [withdrawUntouched] at hok
    split_ifs at hok
    · exact ih hok
    · rw [bind_eq_ok] at hok
      obtain ⟨⟨e, R₁⟩, hwithdraw, hrest⟩ := hok
      obtain ⟨es, hes, hall⟩ := ih hrest
      rcases withdrawAssessment_ok hwithdraw with rfl | ⟨rfl, he⟩
      · exact ⟨es, hes, hall⟩
      · refine ⟨e :: es, by rw [hes]; simp [addEvent], ?_⟩
        intro e' he'
        rcases List.mem_cons.1 he' with rfl | he'
        · exact he
        · obtain ⟨htype, hat, c, hc, hcss, hcc⟩ := hall e' he'
          refine ⟨htype, hat, c, ?_, hcss, hcc⟩
          rcases mem_addEvent.1 hc with hc | rfl
          · exact hc
          · rw [ObligationAssessment.IsAssessment, he.1] at hcss
            cases hcss

/-- An open lineage gets its terminal row, at the instant that is asked for or at the one that
its renewal stops at. -/
theorem terminateBillCycle_ok {q : TerminateBillCycleRequest} {t : BillCycle}
    (hs : Scheduled S zones g p periods none stop) (hclass : q.classId = g.classId)
    (href : q.internalRef = premiumLineageRef g.entitlementId)
    (hok : terminateBillCycle S now q = .ok (t, S')) :
    ∃ instant es, t = closingRow S g periods instant ∧
      (q.terminationAt = some instant ∨ (q.terminationAt = none ∧ (instant = stop ∨
        ∃ c ∈ periods, Holds startOf stopOf (q.referenceTimeUtc.getD now) c ∧
          instant = stopOf c))) ∧
      (∀ e ∈ es, Withdraws S.toRentState now e) ∧
      S' = { S with
        assessmentEvents := S.assessmentEvents ++ es
        billCycles := S.billCycles ++ [t] } := by
  obtain ⟨l, hl, hlast, hnext, hnumber⟩ := hs.getLast_open
  have howned := hs.owned l (hs.mem_periods hl)
  have hlref : l.internalRef = premiumLineageRef g.entitlementId := by
    simpa using (List.mem_filter.1 (hs.mem_periods hl)).2
  have hlatest : getLatestBillCycle S.toRentState q.internalRef = some l := by
    rw [href, getLatestBillCycle, hs.getBillCyclesForInternalRef, hlast]
  obtain ⟨x, hx, hstops⟩ := hs.getStopRenewalInstant (q.referenceTimeUtc.getD now)
  rw [terminateBillCycle, hlatest] at hok
  simp only [demand_some, ok_bind, require_bind_eq_ok] at hok
  obtain ⟨-, hok⟩ := hok
  rw [if_neg (by rw [hnext]; simp)] at hok
  simp only [hclass, href, hx, ok_bind, bind_eq_ok, demand_eq_ok, pure_eq_ok,
    Prod.mk.injEq] at hok
  obtain ⟨instant, hinstant, R, hwithdraw, rfl, rfl⟩ := hok
  obtain ⟨es, rfl, hes⟩ := withdrawUntouched_ok hwithdraw
  refine ⟨instant, es, ?_, ?_, hes, rfl⟩
  · simp [terminalCycle, closingRow, howned, hlref, hnumber]
  · cases hat : q.terminationAt with
    | some y =>
      rw [hat, Option.some_or] at hinstant
      exact .inl hinstant
    | none =>
      rw [hat, Option.none_or, Option.some.injEq] at hinstant
      exact .inr ⟨rfl, hinstant ▸ hstops⟩

end Termination

section Freshness

theorem CoverageInvariant.period_fresh (h : CoverageInvariant sha256 zones bounded S) {e n : ℕ}
    (hnone : ∀ c ∈ lineage S.toRentState e, c.cycleNumber ≠ n) :
    (∀ r ∈ S.successions, r.idempotencyKey ≠ successionCommandIdentity e n) ∧
      ∀ b ∈ S.assessmentEvents, b.correlationId ≠ premiumCorrelationId e n := by
  constructor
  · intro r hr hkey
    obtain ⟨g, c, -, hc, -, hname⟩ := h.successions r hr
    obtain ⟨rfl, rfl⟩ := successionCommandIdentity_inj (hname.symm.trans hkey)
    exact hnone c hc rfl
  · intro b hb hcorr
    obtain ⟨a, ha, hass, hab⟩ := h.satisfied b hb
    obtain ⟨g, c, -, hc, -, hfor⟩ := h.assessments a ha hass
    rcases hfor.named with hname | ⟨-, hname, key, hkey⟩
    · obtain ⟨rfl, rfl⟩ := premiumCorrelationId_inj (hname.symm.trans (hab.trans hcorr))
      exact hnone c hc rfl
    · exact purchase_ne_premium key e n (hkey.symm.trans (hname.symm.trans (hab.trans hcorr)))

theorem lineage_numbers {closing : Option BillCycle}
    (h : Lineage S.toRentState g periods closing stop) {c : BillCycle}
    (hc : c ∈ lineage S.toRentState g.entitlementId) :
    c.cycleNumber ≤ periods.length + closing.toList.length := by
  obtain ⟨i, hi⟩ := List.mem_iff_getElem?.1 hc
  have hnumber := h.numbered i c hi
  have hlt := (List.getElem?_eq_some_iff.1 hi).1
  rw [h.split, List.length_append] at hlt
  omega

theorem foldr_max_ge {l : List ℕ} {n : ℕ} (hn : n ∈ l) : n ≤ l.foldr max 0 := by
  induction l with
  | nil => cases hn
  | cons a l ih =>
    rw [List.foldr_cons]
    rcases List.mem_cons.1 hn with rfl | hn
    · exact le_max_left _ _
    · exact (ih hn).trans (le_max_right _ _)

theorem freshEntitlementId_fresh (S : InsuranceState) :
    ∀ e ∈ S.coverageEvents, e.entitlementId ≠ freshEntitlementId S := by
  intro e he heq
  have hle : e.entitlementId ≤ (S.coverageEvents.map (·.entitlementId)).foldr max 0 :=
    foldr_max_ge (List.mem_map_of_mem he)
  rw [freshEntitlementId] at heq
  omega

end Freshness

section Subjects

structure SubjectOf (zones : String → CoverageZone) (S : InsuranceState) (s : RenewalSubject) :
    Prop where
  granted : Granted S s.grant
  classId : s.classId = s.grant.classId
  entitlementId : s.entitlementId = s.grant.entitlementId
  anchor : s.anchor = (zones s.grant.classId).localDate s.grant.timestamp

variable {s : RenewalSubject}

theorem getInsuranceGrant_spec {classId : String} {entitlementId : ℕ}
    (h : getInsuranceGrant S classId entitlementId = some g) :
    Granted S g ∧ g.classId = classId ∧ g.entitlementId = entitlementId := by
  have hfields : g.classId = classId ∧ g.entitlementId = entitlementId ∧
      g.eventType = .granted := by simpa using List.find?_some h
  exact ⟨⟨List.mem_of_find?_eq_some h, hfields.2.2⟩, hfields.1, hfields.2.1⟩

theorem renewalSubject_ok (h : CoverageInvariant sha256 zones bounded S) {classId : String}
    {entitlementId : ℕ}
    (hok : renewalSubject (zones classId).toClassZone S classId entitlementId = .ok s) :
    SubjectOf zones S s ∧ s.classId = classId ∧ s.entitlementId = entitlementId := by
  simp only [renewalSubject, demand_bind_eq_ok, require_bind_eq_ok, pure_eq_ok] at hok
  obtain ⟨grant, hgrant, -, anchor, hanchor, -, rfl⟩ := hok
  obtain ⟨hg, rfl, rfl⟩ := getInsuranceGrant_spec hgrant
  obtain ⟨p, periods, closing, stop, hs, -⟩ := h.lineages grant hg
  rw [hs.getCadenceAnchor, Option.some.injEq] at hanchor
  exact ⟨⟨hg, rfl, rfl, hanchor.symm⟩, rfl, rfl⟩

theorem SubjectOf.kept (h : SubjectOf zones S s) (hx : CoverageKept sha256 S S') :
    SubjectOf zones S' s := ⟨hx.granted h.granted, h.classId, h.entitlementId, h.anchor⟩

theorem Scheduled.getCoverageEligibility_open (hs : Scheduled S zones g p periods none stop)
    (zone : ClassZone) (now : Instant) :
    ∃ l ∈ periods, getLatestBillCycle S.toRentState (premiumLineageRef g.entitlementId) = some l ∧
      l.nextAssessmentAt = some stop ∧ l.cycleNumber = periods.length ∧
      (getCoverageEligibility S zone g.classId now (premiumLineageRef g.entitlementId) =
          .due l stop ∨
        getCoverageEligibility S zone g.classId now (premiumLineageRef g.entitlementId) =
          .notDue l) := by
  obtain ⟨l, hl, hlast, hnext, hnumber⟩ := hs.getLast_open
  refine ⟨l, hl, by rw [getLatestBillCycle, hs.getBillCyclesForInternalRef, hlast], hnext,
    hnumber, ?_⟩
  unfold getCoverageEligibility
  simp only [hs.filter_class, hlast, hnext]
  split_ifs
  · exact .inr rfl
  · exact .inl rfl
  · exact .inr rfl
  · exact .inl rfl

end Subjects

section Nonpayment

theorem Scheduled.terms {closing : Option BillCycle}
    (hs : Scheduled S zones g p periods closing stop) {l : BillCycle} (hl : l ∈ periods)
    {terms : InsuranceRecurringTerms}
    (hok : getInsuranceRecurringTerms S l.policyUuid g.classId = .ok terms) :
    terms.chargeFrequency = p.chargeFrequency ∧ terms.nonpaymentMode = p.nonpaymentMode ∧
      terms.cancelAfterDays = p.cancelAfterDays := by
  rw [(hs.owned l (hs.mem_periods hl)).2] at hok
  simp only [getInsuranceRecurringTerms, Option.bind_some, hs.policy.1, demand_some, ok_bind,
    demand_eq_ok] at hok
  have hlawful : LawfulTerms p.chargeFrequency p.billPreviewDays p.nonpaymentMode
      p.cancelAfterDays := hs.policy.2
  rw [InsurancePolicy.recurringTerms, dif_pos hlawful, Option.some.injEq] at hok
  rw [← hok]
  exact ⟨rfl, rfl, rfl⟩

theorem firstLapse_ok {zone : CoverageZone} {R : RentState} {days : ℤ} {deadline : Instant}
    {as : List ObligationAssessment} (h : firstLapse zone R days now as = some deadline) :
    ∃ a ∈ as, deadline = zone.shiftDays (resolveAssessmentDueAt R a) days ∧
      getObligationStatusAsOf R deadline a.correlationId = some .outstanding ∧
      deadline ≤ now := by
  induction as with
  | nil => cases h
  | cons a as ih =>
    simp only [firstLapse] at h
    split_ifs at h with hearly hunpaid hpast
    · rw [Option.some.injEq] at h
      subst h
      exact ⟨a, List.mem_cons_self, rfl, hunpaid, hpast⟩
    · obtain ⟨b, hb, hlapse⟩ := ih h
      exact ⟨b, List.mem_cons_of_mem _ hb, hlapse⟩

theorem CoverageInvariant.dueAt (h : CoverageInvariant sha256 zones bounded S) {c : BillCycle}
    {a : ObligationAssessment} (hc : c ∈ S.billCycles) (hfor : PremiumFor g c a) :
    resolveAssessmentDueAt S.toRentState a = c.cycleBoundaryAt := by
  rw [resolveAssessmentDueAt, hfor.billCycleId, billCycle_of_ids h.cycleIds hc]
  rfl

theorem CoverageInvariant.lineagePremium (h : CoverageInvariant sha256 zones bounded S)
    {closing : Option BillCycle} (hg : Granted S g)
    (hs : Lineage S.toRentState g periods closing stop) {a : ObligationAssessment}
    (ha : a ∈ lineagePremiums S.toRentState g.classId (premiumLineageRef g.entitlementId)) :
    a ∈ S.assessmentEvents ∧ ∃ c ∈ periods, PremiumFor g c a := by
  rw [lineagePremiums, List.mem_flatMap] at ha
  obtain ⟨d, -, ha⟩ := ha
  obtain ⟨hmem, hfields⟩ := List.mem_filter.1 ha
  simp only [decide_eq_true_eq] at hfields
  obtain ⟨-, -, href, hass, -⟩ := hfields
  obtain ⟨g', c, hg', hc, hlive, hfor⟩ := h.assessments a hmem hass
  obtain rfl : g' = g := h.grantsUnique g' g hg' hg
    (premiumLineageRef_injective (hfor.internalRef.symm.trans href))
  refine ⟨hmem, c, ?_, hfor⟩
  rw [hs.split, List.mem_append] at hc
  refine hc.resolve_right (fun hc ↦ ?_)
  rw [hs.closes c (by simpa using hc)] at hlive
  cases hlive

/-- A deadline that a pass finds is that of a premium of the lineage, unpaid by then. -/
theorem CoverageInvariant.lapsed (h : CoverageInvariant sha256 zones bounded S)
    {s : RenewalSubject} (hsub : SubjectOf zones S s) {closing : Option BillCycle}
    (hs : Scheduled S zones s.grant p periods closing stop) {l : BillCycle} (hl : l ∈ periods)
    {terms : InsuranceRecurringTerms}
    (hterms : getInsuranceRecurringTerms S l.policyUuid s.classId = .ok terms) {d : Instant}
    (hd : renewalPass.lapsed (zones s.classId) feat S s terms = some d)
    (hbound : bounded → d ≤ stop) :
    Stops zones bounded feat.canonicalNowUtc S s.grant periods stop d := by
  rw [hsub.classId] at hterms hd
  obtain ⟨-, hmode, hdays⟩ := hs.terms hl hterms
  have hlawful := terms.lawful.2
  unfold renewalPass.lapsed at hd
  split_ifs at hd with hcancel
  rw [hcancel] at hlawful
  obtain ⟨days, hsome, -⟩ := hlawful
  rw [Option.mem_def] at hsome
  rw [hsome, Option.getD_some, findNonpaymentDeadline, hsub.classId, hsub.entitlementId] at hd
  obtain ⟨a, ha, rfl, hunpaid, hpast⟩ := firstLapse_ok hd
  obtain ⟨hmem, c, hc, hfor⟩ := h.lineagePremium hsub.granted hs.toLineage ha
  have hdue := h.dueAt (List.mem_of_mem_filter (hs.mem_periods hc)) hfor
  rw [hdue] at hunpaid hpast hbound ⊢
  exact .lapsed hs.policy (hmode ▸ hcancel) (hdays ▸ hsome) hc hmem hfor hunpaid hpast hbound

end Nonpayment

section Passes

def periodTerms (zones : String → CoverageZone) (g : CoverageEvent) (p : InsurancePolicy)
    (number : ℕ) (startAt : Instant) : CycleTerms where
  classId := g.classId
  seatId := g.targetSeatId
  entitlementId := g.entitlementId
  cycleNumber := number
  policyUuid := some g.policyUuid
  startAt := startAt
  endAt := periodEnd zones g p number

theorem periodTerms_premium {number : ℕ} {startAt : Instant} :
    PremiumFor g (openedCycle S.toRentState (periodTerms zones g p number startAt))
      (openedPremium S.toRentState now (periodTerms zones g p number startAt)) :=
  ⟨rfl, rfl, rfl, rfl, rfl, rfl, rfl, .inl rfl⟩

theorem periodTerms_opens {number : ℕ} {startAt : Instant} {r : ObligationCommandReservation}
    (hlt : startAt < periodEnd zones g p number)
    (hfresh : ∀ b ∈ S.assessmentEvents,
      b.correlationId ≠ premiumCorrelationId g.entitlementId number)
    (hkey : r.idempotencyKey = successionCommandIdentity g.entitlementId number) :
    Opens zones now S g p number
      (openedCycle S.toRentState (periodTerms zones g p number startAt)) r
      (openedPremium S.toRentState now (periodTerms zones g p number startAt)) where
  id := rfl
  classId := rfl
  internalRef := rfl
  cycleNumber := rfl
  policyUuid := rfl
  ends := rfl
  begins_lt := hlt
  premium := periodTerms_premium
  fresh := hfresh
  timestamp := rfl
  identity := hkey

/-- No event has touched a premium under a correlation that no assessment carried. -/
theorem CoverageInvariant.untouched (h : CoverageInvariant sha256 zones bounded S)
    {t : CycleTerms} {r : ObligationCommandReservation}
    (hfresh : ∀ b ∈ S.assessmentEvents,
      b.correlationId ≠ premiumCorrelationId t.entitlementId t.cycleNumber) :
    ∀ f ∈ (withPeriod S now t r).assessmentEvents, f.IsSatisfaction →
      f.correlationId ≠ premiumCorrelationId t.entitlementId t.cycleNumber := by
  intro f hf hsat
  rcases List.mem_append.1 hf with hold | hnew
  · obtain ⟨a, ha, -, hcorr⟩ := h.satisfied f hold
    rw [← hcorr]
    exact hfresh a ha
  · obtain rfl := List.mem_singleton.1 hnew
    simp [ObligationAssessment.IsSatisfaction, openedPremium] at hsat

theorem openPeriod_next_moves (h : CoverageInvariant sha256 zones bounded S)
    (hfeat : feat.activeFeat ≠ claimsFeat) (hg : Granted S g)
    (hs : Scheduled S zones g p periods none stop) {l : BillCycle}
    (hdue : getCoverageEligibility S (zones g.classId).toClassZone g.classId feat.canonicalNowUtc
      (premiumLineageRef g.entitlementId) = .due l stop) (hnumber : l.cycleNumber = periods.length)
    {paid : Bool}
    (hok : openPeriod sha256 (zones g.classId) env feat S
      (periodTerms zones g p (periods.length + 1) stop) = .ok (paid, S')) :
    CoverageMoves sha256 zones bounded feat.canonicalNowUtc S S' := by
  obtain ⟨hnew, hfresh⟩ := h.period_fresh (e := g.entitlementId) (n := periods.length + 1)
    (fun c hc ↦ by
      have hle := lineage_numbers hs.toLineage hc
      rw [Option.toList_none, List.length_nil] at hle
      omega)
  have hnext : nextCycleNumber (premiumLineageRef g.entitlementId) feat.canonicalNowUtc
      (getCoverageEligibility S (zones g.classId).toClassZone g.classId feat.canonicalNowUtc
        (premiumLineageRef g.entitlementId)) = .ok (periods.length + 1) := by
    rw [hdue, nextCycleNumber, hnumber]
  obtain ⟨hlt, r, hkey, hpay⟩ := openPeriod_ok (S := S)
    (t := periodTerms zones g p (periods.length + 1) stop) hnew hnext hfresh hok
  have hmove : CoverageMove sha256 zones bounded feat.canonicalNowUtc S
      (withPeriod S feat.canonicalNowUtc (periodTerms zones g p (periods.length + 1) stop) r) :=
    .succeed hg hs rfl (periodTerms_opens hlt hfresh hkey)
  refine .head hmove (attemptAutopay_moves (h.move hmove).1 hfeat ?_ hpay)
  exact h.untouched hfresh

theorem stopRenewal_moves (hg : Granted S g) (hs : Scheduled S zones g p periods none stop)
    {boundary : Instant}
    (hok : stopRenewal feat S g.classId g.entitlementId = .ok (boundary, S')) :
    CoverageMove sha256 zones bounded feat.canonicalNowUtc S S' ∧
      closingRow S g periods boundary ∈ S'.billCycles ∧ S'.coverageEvents = S.coverageEvents := by
  simp only [stopRenewal, bind_eq_ok, Prod.exists, pure_eq_ok, Prod.mk.injEq] at hok
  obtain ⟨t, S₁, hterminate, rfl, rfl⟩ := hok
  obtain ⟨instant, es, rfl, hat, hes, rfl⟩ := terminateBillCycle_ok hs rfl rfl hterminate
  refine ⟨.close hg hs ?_ hes, by simp [closingRow], rfl⟩
  rcases hat with hat | ⟨-, rfl | ⟨c, hc, hholds, rfl⟩⟩
  · cases hat
  · exact .atEnd
  · exact .afterCurrent hc hholds

theorem expireCoverage_moves {actorSeatId : ℕ} {correlationId : String} {effectiveAt : Instant}
    (hok : expireCoverage S g actorSeatId correlationId effectiveAt = .ok S') :
    CoverageMoves sha256 zones bounded now S S' ∧ S'.toRentState = S.toRentState := by
  unfold expireCoverage at hok
  split at hok
  · rw [require_bind_eq_ok, pure_eq_ok] at hok
    rw [hok.2]
    exact ⟨.refl, rfl⟩
  · rw [pure_eq_ok] at hok
    rw [← hok]
    exact ⟨.single (.expire (by simp)), rfl⟩

theorem Stops.kept (hx : CoverageKept sha256 S S') (hsame : S'.toRentState = S.toRentState)
    {d : Instant} (h : Stops zones bounded now S g periods stop d) :
    Stops zones bounded now S' g periods stop d := by
  cases h with
  | atEnd => exact .atEnd
  | afterCurrent hc hholds => exact .afterCurrent hc hholds
  | @lapsed p c a days hpol hmode hdays hc ha hfor hunpaid hpast hle =>
    obtain ⟨p', hp', ht⟩ := hx.policyOf hpol
    have hmode' : p'.nonpaymentMode = p.nonpaymentMode :=
      (congrArg InsurancePolicy.nonpaymentMode ht :)
    have hdays' : p'.cancelAfterDays = p.cancelAfterDays :=
      (congrArg InsurancePolicy.cancelAfterDays ht :)
    refine .lapsed hp' (hmode'.trans hmode) (hdays'.trans hdays) hc ?_ hfor ?_ hpast hle
    · rw [hsame]
      exact ha
    · rw [hsame]
      exact hunpaid

theorem terminateForNonpayment_moves {s : RenewalSubject} (hsub : SubjectOf zones S s)
    (h : CoverageInvariant sha256 zones bounded S)
    (hs : Scheduled S zones s.grant p periods none stop) {d : Instant}
    (hstops : Stops zones bounded feat.canonicalNowUtc S s.grant periods stop d)
    (hok : terminateForNonpayment env feat S s d = .ok S') :
    CoverageMoves sha256 zones bounded feat.canonicalNowUtc S S' := by
  simp only [terminateForNonpayment, bind_eq_ok, Prod.exists, pure_eq_ok] at hok
  obtain ⟨actor, -, S₁, hexpire, t, S₂, hterminate, rfl⟩ := hok
  rw [hsub.classId, hsub.entitlementId] at hterminate
  obtain ⟨hmoves, hsame⟩ := expireCoverage_moves hexpire
  have hkept := (h.moves hmoves).kept
  obtain ⟨p', hs', -⟩ := hs.kept hkept (by rw [hsame])
  obtain ⟨instant, es, rfl, hat, hes, rfl⟩ := terminateBillCycle_ok hs' rfl rfl hterminate
  have hd : d = instant := by
    rcases hat with hat | ⟨hat, -⟩
    · exact Option.some.inj hat
    · cases hat
  subst hd
  exact hmoves.tail
    (.close (hkept.granted hsub.granted) hs' (hstops.kept hkept hsame) hes)

theorem getCoverageEligibility_empty {zone : ClassZone} {classId : String} {n : ℕ}
    (hnil : lineage S.toRentState n = []) :
    getCoverageEligibility S zone classId now (premiumLineageRef n) = .empty := by
  have hcycles : getBillCyclesForInternalRef S.toRentState (premiumLineageRef n) = [] := by
    rw [getBillCyclesForInternalRef, ← lineage, hnil]
    rfl
  unfold getCoverageEligibility
  rw [hcycles]
  rfl

theorem openPeriod_first_moves (h : CoverageInvariant sha256 zones bounded S)
    (hfeat : feat.activeFeat ≠ claimsFeat) (hgranted : g.eventType = .granted)
    (hfresh : ∀ e ∈ S.coverageEvents, e.entitlementId ≠ g.entitlementId)
    (horigin : GrantOrigin S g)
    (hfirst : ∀ e n, Granted S e → g.continuesEntitlementId = some n →
      e.continuesEntitlementId ≠ some n)
    (hpolicy : PolicyOf S g p) {paid : Bool}
    (hok : openPeriod sha256 (zones g.classId) env feat
      { S with coverageEvents := S.coverageEvents ++ [g] }
      (periodTerms zones g p 1 g.timestamp) = .ok (paid, S')) :
    CoverageMoves sha256 zones bounded feat.canonicalNowUtc S S' := by
  have hnil := h.lineage_eq_nil hfresh
  obtain ⟨hnew, hunused⟩ := h.period_fresh (e := g.entitlementId) (n := 1) (by simp [hnil])
  have hnext : nextCycleNumber (premiumLineageRef g.entitlementId) feat.canonicalNowUtc
      (getCoverageEligibility { S with coverageEvents := S.coverageEvents ++ [g] }
        (zones g.classId).toClassZone g.classId feat.canonicalNowUtc
        (premiumLineageRef g.entitlementId)) = .ok 1 := by
    rw [getCoverageEligibility_empty (S := { S with coverageEvents := S.coverageEvents ++ [g] })
      hnil, nextCycleNumber]
  obtain ⟨hlt, r, hkey, hpay⟩ := openPeriod_ok
    (S := { S with coverageEvents := S.coverageEvents ++ [g] })
    (t := periodTerms zones g p 1 g.timestamp) hnew hnext hunused hok
  have hmove : CoverageMove sha256 zones bounded feat.canonicalNowUtc S
      (withPeriod { S with coverageEvents := S.coverageEvents ++ [g] } feat.canonicalNowUtc
        (periodTerms zones g p 1 g.timestamp) r) :=
    .begin hgranted hfresh horigin hfirst hpolicy rfl (periodTerms_opens hlt hunused hkey)
  refine .head hmove (attemptAutopay_moves (h.move hmove).1 hfeat ?_ hpay)
  exact h.untouched hunused

/-- A coverage that has ended goes on under the version that replaced its own. -/
theorem continueUnderSuccessor_moves (h : CoverageInvariant sha256 zones bounded S)
    (hfeat : feat.activeFeat ≠ claimsFeat) {s : RenewalSubject} {c : BillCycle}
    (hmem : c ∈ lineage S.toRentState s.entitlementId) (hterminal : c.nextAssessmentAt = none)
    (hclass : c.classId = s.classId)
    (hfirst : ∀ e, Granted S e → e.correlationId ≠ continuationCorrelationId s.entitlementId)
    {successor : InsurancePolicy} {newId : ℕ} {paid : Bool}
    (hok : continueUnderSuccessor sha256 (zones s.classId) env feat S s successor
      c.cycleBoundaryAt = .ok ((newId, paid), S')) :
    CoverageMoves sha256 zones bounded feat.canonicalNowUtc S S' := by
  simp only [continueUnderSuccessor, bind_eq_ok, Prod.exists, pure_eq_ok, Prod.mk.injEq] at hok
  obtain ⟨actor, -, newId', S₁, hgrant, terms, hterms, paid', S₂, hopen, ⟨rfl, rfl⟩, rfl⟩ := hok
  simp only [grantInsuranceEntitlement, require_bind_eq_ok] at hgrant
  obtain ⟨-, hgrant⟩ := hgrant
  split at hgrant
  · next e he =>
    have hfields : e.classId = s.classId ∧ e.targetSeatId = s.grant.targetSeatId ∧
        e.eventType = .granted ∧ e.correlationId = continuationCorrelationId s.entitlementId := by
      simpa using List.find?_some he
    exact absurd hfields.2.2.2 (hfirst e ⟨List.mem_of_find?_eq_some he, hfields.2.2.1⟩)
  · rw [pure_eq_ok, Prod.mk.injEq] at hgrant
    obtain ⟨rfl, rfl⟩ := hgrant
    simp only [getInsuranceRecurringTerms, Option.bind_some, demand_bind_eq_ok,
      demand_eq_ok] at hterms
    obtain ⟨p, hp, hterms⟩ := hterms
    unfold InsurancePolicy.recurringTerms at hterms
    split_ifs at hterms with hlawful
    rw [Option.some.injEq] at hterms
    subst hterms
    let g : CoverageEvent :=
      { classId := s.classId, targetSeatId := s.grant.targetSeatId, actorSeatId := actor,
        entitlementId := freshEntitlementId S, acquisitionType := .purchase,
        eventType := .granted, correlationId := continuationCorrelationId s.entitlementId,
        policyUuid := successor.policyUuid, continuesEntitlementId := some s.entitlementId,
        timestamp := c.cycleBoundaryAt }
    have hpolicy : PolicyOf S g p := ⟨hp, hlawful⟩
    refine openPeriod_first_moves h hfeat rfl (freshEntitlementId_fresh S)
      (.continued s.entitlementId c rfl rfl hmem hterminal hclass rfl) ?_ hpolicy hopen
    intro e n he hn hen
    obtain rfl := Option.some.inj hn
    cases h.origins e he with
    | purchased _ _ hnone =>
      rw [hnone] at hen
      cases hen
    | continued m _ hcorr hm =>
      rw [hm, Option.some.injEq] at hen
      exact hfirst e he (hen ▸ hcorr)

theorem CoverageInvariant.not_continued (h : CoverageInvariant sha256 zones bounded S)
    (hs : Lineage S.toRentState g periods none stop) :
    ∀ e, Granted S e → e.correlationId ≠ continuationCorrelationId g.entitlementId := by
  intro e he hcorr
  cases h.origins e he with
  | purchased key hkey => exact purchase_ne_continuation key g.entitlementId (hkey.symm.trans hcorr)
  | continued n c hn _ hc hnext =>
    obtain rfl := continuationCorrelationId_injective (hn.symm.trans hcorr)
    rw [hs.split, Option.toList_none, List.append_nil] at hc
    rw [(hs.ends hc).1] at hnext
    cases hnext

theorem Scheduled.nextTerms {s : RenewalSubject} (hsub : SubjectOf zones S s)
    (hs : Scheduled S zones s.grant p periods none stop) {l : BillCycle} (hl : l ∈ periods)
    (hnext : l.nextAssessmentAt = some stop) (hnumber : l.cycleNumber = periods.length)
    {terms : InsuranceRecurringTerms}
    (hterms : getInsuranceRecurringTerms S l.policyUuid s.classId = .ok terms) :
    CycleTerms.mk s.classId s.grant.targetSeatId s.entitlementId (l.cycleNumber + 1) l.policyUuid
        (coverageBoundary (zones s.classId).toClassZone s.anchor terms.chargeFrequency
          (l.cycleNumber + 1 - 1))
        (coverageBoundary (zones s.classId).toClassZone s.anchor terms.chargeFrequency
          (l.cycleNumber + 1)) =
      periodTerms zones s.grant p (periods.length + 1) stop := by
  rw [hsub.classId] at hterms
  have hfrequency := (hs.terms hl hterms).1
  have hstop := hs.cadence l hl
  rw [hnext, Option.some.injEq, hnumber, periodEnd] at hstop
  rw [periodTerms, periodEnd, hsub.classId, hsub.entitlementId, hsub.anchor, hfrequency, hnumber,
    Nat.add_sub_cancel, ← hstop, (hs.owned l (hs.mem_periods hl)).2]

/-- The nonpayment deadline that a pass finds, if any, is not after the end of the latest
scheduled period. -/
def LapsesInTime (zone : CoverageZone) (feat : FeatContext) (S : InsuranceState)
    (s : RenewalSubject) : Prop :=
  ∀ latest ∈ getLatestBillCycle S.toRentState (premiumLineageRef s.entitlementId),
    ∀ next ∈ latest.nextAssessmentAt,
      ∀ terms ∈ (getInsuranceRecurringTerms S latest.policyUuid s.classId).toOption,
        ∀ deadline ∈ renewalPass.lapsed zone feat S s terms, deadline ≤ next

instance (zone : CoverageZone) (feat : FeatContext) (S : InsuranceState) (s : RenewalSubject) :
    Decidable (LapsesInTime zone feat S s) := by unfold LapsesInTime; infer_instance

theorem renewalPass_moves (h : CoverageInvariant sha256 zones bounded S)
    (hfeat : feat.activeFeat ≠ claimsFeat) {s : RenewalSubject} (hsub : SubjectOf zones S s)
    (hlapse : bounded → LapsesInTime (zones s.classId) feat S s)
    {outcome : RenewalOutcome}
    (hok : renewalPass sha256 (zones s.classId) env feat S s = .ok (outcome, S')) :
    CoverageMoves sha256 zones bounded feat.canonicalNowUtc S S' := by
  obtain ⟨p, periods, closing, stop, hs, -⟩ := h.lineages s.grant hsub.granted
  cases closing with
  | some c =>
    have helig : getCoverageEligibility S (zones s.classId).toClassZone s.classId
        feat.canonicalNowUtc (premiumLineageRef s.entitlementId) = .terminal c := by
      rw [hsub.classId, hsub.entitlementId]
      exact hs.getCoverageEligibility_closed
    simp only [renewalPass, helig, pure_eq_ok, Prod.mk.injEq] at hok
    rw [← hok.2]
  | none =>
    obtain ⟨l, hl, hlatest, hnext, hnumber, helig⟩ :=
      hs.getCoverageEligibility_open (zones s.classId).toClassZone feat.canonicalNowUtc
    rw [← hsub.classId, ← hsub.entitlementId] at helig
    rw [← hsub.entitlementId] at hlatest
    -- Whether or not the succession is due, a deadline that was reached ends the coverage.
    have hends : ∀ terms d, getInsuranceRecurringTerms S l.policyUuid s.classId = .ok terms →
        renewalPass.lapsed (zones s.classId) feat S s terms = some d →
        terminateForNonpayment env feat S s d = .ok S' →
        CoverageMoves sha256 zones bounded feat.canonicalNowUtc S S' := by
      intro terms d hterms hd hterminate
      refine terminateForNonpayment_moves hsub h hs
        (h.lapsed hsub hs hl hterms hd (fun hb ↦ ?_)) hterminate
      exact hlapse hb l hlatest stop hnext terms (by rw [hterms]; rfl) d hd
    rcases helig with helig | helig <;> simp only [renewalPass, helig, bind_eq_ok] at hok <;>
      obtain ⟨terms, hterms, hok⟩ := hok
    · split at hok
      · next d hd =>
        simp only [bind_eq_ok, pure_eq_ok, Prod.mk.injEq] at hok
        obtain ⟨S₁, hterminate, -, rfl⟩ := hok
        exact hends terms d hterms hd hterminate
      · split at hok
        · next successor hsuccessor =>
          simp only [bind_eq_ok, Prod.exists, pure_eq_ok, Prod.mk.injEq] at hok
          obtain ⟨boundary, S₁, hstop, newId, paid, S₂, hcontinue, -, rfl⟩ := hok
          rw [hsub.classId, hsub.entitlementId] at hstop
          obtain ⟨hclose, hmem, hsame⟩ := stopRenewal_moves hsub.granted hs hstop
          refine .head hclose (continueUnderSuccessor_moves (h.move hclose).1 hfeat
            (c := closingRow S s.grant periods boundary) ?_ rfl hsub.classId.symm ?_ hcontinue)
          · rw [hsub.entitlementId]
            exact List.mem_filter.2 ⟨hmem, decide_eq_true rfl⟩
          · rintro e ⟨he, hgranted⟩
            rw [hsame] at he
            rw [hsub.entitlementId]
            exact h.not_continued hs.toLineage e ⟨he, hgranted⟩
        · split_ifs at hok
          · simp only [bind_eq_ok, Prod.exists, pure_eq_ok, Prod.mk.injEq] at hok
            obtain ⟨paid, S₁, hopen, -, rfl⟩ := hok
            rw [hs.nextTerms hsub hl hnext hnumber hterms, hsub.classId] at hopen
            rw [hsub.classId, hsub.entitlementId] at helig
            exact openPeriod_next_moves h hfeat hsub.granted hs helig hnumber hopen
          · simp only [bind_eq_ok, Prod.exists, pure_eq_ok, Prod.mk.injEq] at hok
            obtain ⟨boundary, S₁, hstop, -, rfl⟩ := hok
            rw [hsub.classId, hsub.entitlementId] at hstop
            exact .single (stopRenewal_moves hsub.granted hs hstop).1
    · split at hok
      · next d hd =>
        simp only [bind_eq_ok, pure_eq_ok, Prod.mk.injEq] at hok
        obtain ⟨S₁, hterminate, -, rfl⟩ := hok
        exact hends terms d hterms hd hterminate
      · rw [pure_eq_ok, Prod.mk.injEq] at hok
        rw [← hok.2]

end Passes

section Runs

/-- The states and subjects that the passes of a run begin with satisfy `P`. -/
def PassesMeet (sha256 : String → String) (zone : CoverageZone) (env : Surroundings)
    (feat : FeatContext) (P : InsuranceState → RenewalSubject → Prop) :
    ℕ → InsuranceState → RenewalSubject → Prop
  | 0, _, _ => True
  | left + 1, S, s => P S s ∧
    match renewalPass sha256 zone env feat S s with
    | .ok (.renewed _ _, S') => PassesMeet sha256 zone env feat P left S' s
    | .ok (.continuedAs _ newId _, S') =>
      match renewalSubject zone.toClassZone S' s.classId newId with
      | .ok s' => PassesMeet sha256 zone env feat P left S' s'
      | .error _ => True
    | _ => True

def PassesMeet.decide {sha256 : String → String} {zone : CoverageZone} {env : Surroundings}
    {feat : FeatContext} {P : InsuranceState → RenewalSubject → Prop} [∀ S s, Decidable (P S s)] :
    ∀ left S s, Decidable (PassesMeet sha256 zone env feat P left S s)
  | 0, _, _ => isTrue trivial
  | left + 1, S, s =>
    have : Decidable (match renewalPass sha256 zone env feat S s with
        | .ok (.renewed _ _, S') => PassesMeet sha256 zone env feat P left S' s
        | .ok (.continuedAs _ newId _, S') =>
          match renewalSubject zone.toClassZone S' s.classId newId with
          | .ok s' => PassesMeet sha256 zone env feat P left S' s'
          | .error _ => True
        | _ => True) :=
      match renewalPass sha256 zone env feat S s with
      | .ok (.renewed _ _, S') => PassesMeet.decide left S' s
      | .ok (.continuedAs _ newId _, S') =>
        show Decidable (match renewalSubject zone.toClassZone S' s.classId newId with
            | .ok s' => PassesMeet sha256 zone env feat P left S' s'
            | .error _ => True) from
          match renewalSubject zone.toClassZone S' s.classId newId with
          | .ok s' => PassesMeet.decide left S' s'
          | .error _ => isTrue trivial
      | .ok (.skipped _, _) | .ok (.notDue, _) | .ok (.terminatedForNonpayment _, _)
      | .ok (.stopped _, _) | .error _ => isTrue trivial
    inferInstanceAs (Decidable (P S s ∧ _))

variable {passes : ℕ} {s : RenewalSubject} {outcomes : List RenewalOutcome}

theorem renewalLoop_moves (h : CoverageInvariant sha256 zones bounded S)
    (hfeat : feat.activeFeat ≠ claimsFeat) (hsub : SubjectOf zones S s)
    (hmeet : bounded → PassesMeet sha256 (zones s.classId) env feat
      (LapsesInTime (zones s.classId) feat) passes S s)
    (hok : renewalLoop sha256 (zones s.classId) env feat passes S s = .ok (outcomes, S')) :
    CoverageMoves sha256 zones bounded feat.canonicalNowUtc S S' := by
  induction passes generalizing S s outcomes with
  | zero => cases hok
  | succ left ih =>
    rw [renewalLoop, bind_eq_ok] at hok
    obtain ⟨⟨outcome, S₁⟩, hpass, hok⟩ := hok
    have hfirst := renewalPass_moves h hfeat hsub (fun hb ↦ (hmeet hb).1) hpass
    have h₁ := h.moves hfirst
    have hrest : bounded → _ := fun hb ↦ (hmeet hb).2
    rw [hpass] at hrest
    cases outcome with
    | renewed number paid =>
      simp only [bind_eq_ok, Prod.exists, pure_eq_ok, Prod.mk.injEq] at hok
      obtain ⟨later, S₂, hloop, -, rfl⟩ := hok
      exact hfirst.trans (ih h₁.invariant (hsub.kept h₁.kept) hrest hloop)
    | continuedAs boundary newId paid =>
      simp only at hok
      split at hok
      · rw [pure_eq_ok, Prod.mk.injEq] at hok
        rw [← hok.2]
        exact hfirst
      · next s' hsubject =>
        simp only [bind_eq_ok, Prod.exists, pure_eq_ok, Prod.mk.injEq] at hok
        obtain ⟨later, S₂, hloop, -, rfl⟩ := hok
        simp only [hsubject] at hrest
        obtain ⟨hsub', hclass, -⟩ := renewalSubject_ok h₁.invariant hsubject
        rw [← hclass] at hrest hloop
        exact hfirst.trans (ih h₁.invariant hsub' hrest hloop)
    | _ =>
      rw [pure_eq_ok, Prod.mk.injEq] at hok
      rw [← hok.2]
      exact hfirst

def RenewalInTime (sha256 : String → String) (zone : CoverageZone) (env : Surroundings)
    (feat : FeatContext) (passes : ℕ) (S : InsuranceState) (classId : String)
    (entitlementId : ℕ) : Prop :=
  ∀ s ∈ (renewalSubject zone.toClassZone S classId entitlementId).toOption,
    PassesMeet sha256 zone env feat (LapsesInTime zone feat) passes S s

instance (sha256 : String → String) (zone : CoverageZone) (env : Surroundings)
    (feat : FeatContext) (passes : ℕ) (S : InsuranceState) (classId : String)
    (entitlementId : ℕ) :
    Decidable (RenewalInTime sha256 zone env feat passes S classId entitlementId) :=
  have : ∀ s, Decidable (PassesMeet sha256 zone env feat (LapsesInTime zone feat) passes S s) :=
    fun s ↦ PassesMeet.decide passes S s
  inferInstanceAs (Decidable (∀ s ∈ Except.toOption _, _))

theorem renewInsuranceCoverage_moves (h : CoverageInvariant sha256 zones bounded S)
    (hfeat : feat.activeFeat ≠ claimsFeat) {classId : String} {entitlementId : ℕ}
    (hmeet : bounded →
      RenewalInTime sha256 (zones classId) env feat passes S classId entitlementId)
    (hok : renewInsuranceCoverage sha256 (zones classId) env feat passes S classId
      entitlementId = .ok (outcomes, S')) :
    CoverageMoves sha256 zones bounded feat.canonicalNowUtc S S' := by
  unfold renewInsuranceCoverage at hok
  split at hok
  · rw [pure_eq_ok, Prod.mk.injEq] at hok
    rw [← hok.2]
  · next s hsubject =>
    obtain ⟨hsub, hclass, -⟩ := renewalSubject_ok h hsubject
    have hmeet : bounded → _ := fun hb ↦ hmeet hb s (by rw [hsubject]; rfl)
    rw [← hclass] at hmeet hok
    exact renewalLoop_moves h hfeat hsub hmeet hok

end Runs

end TokenHub.Insurance
