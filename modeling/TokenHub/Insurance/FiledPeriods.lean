import TokenHub.Insurance.CoverageRuns

set_option autoImplicit false

namespace TokenHub.Insurance

open Ledger Rent Lib.Checks Lib.Runs Lib.Tiling

variable {sha256 : String → String} {zones : String → CoverageZone} {bounded : Prop}
  {S S' : InsuranceState} {g : CoverageEvent} {b : BillCycle} {now t : Instant}

section Terminations

def EndedBy (S : InsuranceState) (g : CoverageEvent) (t : Instant) : Prop :=
  ∃ d, getTerminationInstant S g.classId (premiumLineageRef g.entitlementId) = some d ∧ d ≤ t

/-- A nonpayment deadline that has been reached, at which the premium of a period was unpaid by
all that is recorded. -/
inductive Missed (zones : String → CoverageZone) (S : InsuranceState) (now : Instant)
    (g : CoverageEvent) (deadline : Instant) : Prop
  | intro {p : InsurancePolicy} {c : BillCycle} {a : ObligationAssessment} {days : ℤ} :
      PolicyOf S g p → p.nonpaymentMode = some .cancelAfterXDays → p.cancelAfterDays = some days →
      c ∈ lineage S.toRentState g.entitlementId → a ∈ S.assessmentEvents → PremiumFor g c a →
      deadline = (zones g.classId).shiftDays c.cycleBoundaryAt days → deadline ≤ now →
      getObligationStatusAsOf S.toRentState deadline a.correlationId = some .outstanding →
      Missed zones S now g deadline

theorem CoverageInvariant.termination_iff (h : CoverageInvariant sha256 zones bounded S)
    (hg : Granted S g) {d : Instant} :
    getTerminationInstant S g.classId (premiumLineageRef g.entitlementId) = some d ↔
      ∃ c ∈ lineage S.toRentState g.entitlementId, c.nextAssessmentAt = none ∧
        c.cycleBoundaryAt = d := by
  obtain ⟨p, periods, closing, stop, hs, -⟩ := h.lineages g hg
  rw [hs.getTerminationInstant]
  constructor
  · intro hd
    obtain ⟨c, hc, rfl⟩ := Option.map_eq_some_iff.1 hd
    exact ⟨c, hs.mem_closing hc, hs.closes c hc, rfl⟩
  · rintro ⟨c, hc, hnext, rfl⟩
    rw [hs.split, List.mem_append] at hc
    rcases hc with hc | hc
    · rw [(hs.ends hc).1] at hnext
      cases hnext
    · rw [Option.mem_toList] at hc
      rw [hc, Option.map_some]

theorem CoverageInvariant.endedBy_iff (h : CoverageInvariant sha256 zones bounded S)
    (hg : Granted S g) : EndedBy S g t ↔ ∃ c ∈ lineage S.toRentState g.entitlementId,
      c.nextAssessmentAt = none ∧ c.cycleBoundaryAt ≤ t := by
  constructor
  · rintro ⟨d, hd, hle⟩
    obtain ⟨c, hc, hnext, rfl⟩ := (h.termination_iff hg).1 hd
    exact ⟨c, hc, hnext, hle⟩
  · rintro ⟨c, hc, hnext, hle⟩
    exact ⟨_, (h.termination_iff hg).2 ⟨c, hc, hnext, rfl⟩, hle⟩

theorem CoverageKept.termination (hx : CoverageKept sha256 S S')
    (h : CoverageInvariant sha256 zones bounded S) (h' : CoverageInvariant sha256 zones bounded S')
    (hg : Granted S g) {d : Instant}
    (hd : getTerminationInstant S g.classId (premiumLineageRef g.entitlementId) = some d) :
    getTerminationInstant S' g.classId (premiumLineageRef g.entitlementId) = some d := by
  obtain ⟨c, hc, hends⟩ := (h.termination_iff hg).1 hd
  exact (h'.termination_iff (hx.granted hg)).2 ⟨c, lineage_subset hx.cycles hc, hends⟩

/-- The period that holds an instant is found in force there until the lineage is terminated at or
before it. -/
theorem CoverageInvariant.inForce_eq (h : CoverageInvariant sha256 zones bounded S)
    (hg : Granted S g) (hb : b ∈ lineage S.toRentState g.entitlementId)
    (hlive : b.nextAssessmentAt.isSome) (hholds : Holds startOf stopOf t b) :
    (¬EndedBy S g t → inForce S g t = .ok (some b)) ∧
      (EndedBy S g t → inForce S g t = .ok none) := by
  obtain ⟨p, periods, closing, stop, hs, -⟩ := h.lineages g hg
  have hperiod : b ∈ periods := by
    rw [hs.split, List.mem_append] at hb
    refine hb.resolve_right fun hb ↦ ?_
    rw [hs.closes b (by simpa using hb)] at hlive
    cases hlive
  have hiff : (∃ c ∈ closing, c.cycleBoundaryAt ≤ t) ↔ EndedBy S g t := by
    rw [EndedBy, hs.getTerminationInstant]
    constructor
    · rintro ⟨c, hc, hle⟩
      exact ⟨_, by rw [Option.mem_def.1 hc, Option.map_some], hle⟩
    · rintro ⟨d, hd, hle⟩
      obtain ⟨c, hc, rfl⟩ := Option.map_eq_some_iff.1 hd
      exact ⟨c, hc, hle⟩
  rw [inForce, hs.getCurrentBillCycle]
  constructor
  · intro hopen
    rw [if_neg (hiff.not.2 hopen), hs.tiles.find?_holds hperiod hholds]
  · intro hended
    rw [if_pos (hiff.2 hended)]

end Terminations

section Steps

/-- Only a missed nonpayment deadline ends a lineage at or before an instant that has passed and
that one of its periods holds. -/
theorem CoverageInvariant.move_missed (h : CoverageInvariant sha256 zones bounded S)
    (hm : CoverageMove sha256 zones bounded now S S') (hg : Granted S g)
    (hb : b ∈ lineage S.toRentState g.entitlementId)
    (hholds : Holds startOf stopOf t b) (hnow : t ≤ now) (hopen : ¬EndedBy S g t)
    (hended : EndedBy S' g t) : ∃ d ≤ t, Missed zones S now g d ∧
      getTerminationInstant S' g.classId (premiumLineageRef g.entitlementId) = some d := by
  obtain ⟨h', hx⟩ := h.move hm
  obtain ⟨c, hc, hnext, hle⟩ := (h'.endedBy_iff (hx.granted hg)).1 hended
  have hold : c ∉ S.billCycles := by
    intro hmem
    refine hopen ((h.endedBy_iff hg).2 ⟨c, List.mem_filter.2 ⟨hmem, ?_⟩, hnext, hle⟩)
    exact (List.mem_filter.1 hc).2
  have hmem : c ∈ S'.billCycles := List.mem_of_mem_filter hc
  cases hm with
  | ledger | pay | expire | policies | outside => exact absurd hmem hold
  | @begin g' p c' r a _ _ _ _ _ _ ho =>
    rcases List.mem_append.1 hmem with hmem | hmem
    · exact absurd hmem hold
    · rw [List.mem_singleton.1 hmem, ho.ends] at hnext
      cases hnext
  | @succeed g' p periods stop c' r a _ _ _ ho =>
    rcases List.mem_append.1 hmem with hmem | hmem
    · exact absurd hmem hold
    · rw [List.mem_singleton.1 hmem, ho.ends] at hnext
      cases hnext
  | @close g' p periods stop instant es hg' hs hstops _ =>
    rcases List.mem_append.1 hmem with hmem | hmem
    · exact absurd hmem hold
    · obtain rfl := List.mem_singleton.1 hmem
      have href := of_decide_eq_true (List.mem_filter.1 hc).2
      obtain rfl : g' = g := h.grantsUnique g' g hg' hg (premiumLineageRef_injective href)
      have hperiod : b ∈ periods := by
        rw [hs.split, Option.toList_none, List.append_nil] at hb
        exact hb
      have htermination := (h'.termination_iff (hx.granted hg)).2 ⟨_, hc, hnext, rfl⟩
      cases hstops with
      | atEnd => exact absurd (hs.tiles.holds_bounds hperiod hholds).2 (not_lt.2 hle)
      | afterCurrent _ hcurrent => exact absurd (hnow.trans_lt hcurrent.2) (not_lt.2 hle)
      | lapsed hpolicy hmode hdays hdue ha hfor hstatus hreached _ =>
        exact ⟨_, hle, .intro hpolicy hmode hdays (hs.mem_periods hdue) ha hfor rfl hreached hstatus,
          htermination⟩

/-- A lineage that a command ends so has missed its deadline at some point within the command. -/
theorem CoverageInvariant.moves_missed (h : CoverageInvariant sha256 zones bounded S)
    (hm : CoverageMoves sha256 zones bounded now S S') (hg : Granted S g)
    (hb : b ∈ lineage S.toRentState g.entitlementId)
    (hholds : Holds startOf stopOf t b) (hnow : t ≤ now) (hopen : ¬EndedBy S g t)
    (hended : EndedBy S' g t) : ∃ S₁, CoverageKept sha256 S S₁ ∧ CoverageKept sha256 S₁ S' ∧
      ∃ d ≤ t, Missed zones S₁ now g d ∧
        getTerminationInstant S' g.classId (premiumLineageRef g.entitlementId) = some d := by
  induction hm with
  | refl => exact absurd hended hopen
  | @tail S₁ S₂ hfirst hlast ih =>
    have hp := h.moves hfirst
    obtain ⟨hinv, hx⟩ := hp.invariant.move hlast
    by_cases hearly : EndedBy S₁ g t
    · obtain ⟨S₀, hx₀, hx₁, d, hle, hmissed, hd⟩ := ih hearly
      exact ⟨S₀, hx₀, hx₁.trans hx, d, hle, hmissed,
        hx.termination hp.invariant hinv (hp.kept.granted hg) hd⟩
    · obtain ⟨d, hle, hmissed, hd⟩ := hp.invariant.move_missed hlast (hp.kept.granted hg)
        (lineage_subset hp.kept.cycles hb) hholds hnow hearly hended
      exact ⟨S₁, hp.kept, hx, d, hle, hmissed, hd⟩

theorem claim_commands (now : Instant) {a : InsuranceAction}
    (h : SystemSound sha256 zones bounded S)
    (ha : (∃ env q, a = .submit env q) ∨ ∃ env correlationId q, a = .resolve env correlationId q) :
    (insuranceStep sha256 zones now S a).billCycles = S.billCycles ∧
      (insuranceStep sha256 zones now S a).coverageEvents = S.coverageEvents ∧
      ∀ c ∈ (insuranceStep sha256 zones now S a).claims,
        (∃ c₀ ∈ S.claims, SameFiling c₀ c) ∨ c.submittedAt = now ∧
          ∃ period, evaluateInsuranceUsability S c.classId c.entitlementId now =
            .ok (.ok period) := by
  rcases ha with ⟨env, q, rfl⟩ | ⟨env, corr, q, rfl⟩
  · generalize hS' : (submitInsuranceClaim (zones q.classId) env now S q).2 = S'
    have hstep : insuranceStep sha256 zones now S (.submit env q) = S' := hS'
    rw [hstep]
    rcases submitInsuranceClaim_ok hS' with rfl | ⟨grant, policy, period, dates, hf⟩
    · exact ⟨rfl, rfl, fun c hc ↦ .inl ⟨c, hc, .refl c⟩⟩
    · rw [hf.state]
      refine ⟨rfl, rfl, fun c hc ↦ ?_⟩
      rcases List.mem_append.1 hc with hc | hc
      · exact .inl ⟨c, hc, .refl c⟩
      · rw [List.mem_singleton.1 hc]
        exact .inr ⟨rfl, period, hf.usable⟩
  · generalize hS' : (resolveInsuranceClaim sha256 (zones q.classId) env ⟨claimsFeat, corr, now⟩ S
      { q with idempotencyKey := adminApprovalKey q.claimId }).2 = S'
    have hstep : insuranceStep sha256 zones now S (.resolve env corr q) = S' := hS'
    rw [hstep]
    rcases resolveInsuranceClaim_ok hS' with rfl | ⟨claim, hmem, hid, hclass, hst, hdec⟩
    · exact ⟨rfl, rfl, fun c hc ↦ .inl ⟨c, hc, .refl c⟩⟩
    · obtain ⟨d, as, hd⟩ := hdec.decisionOn hclass
      refine ⟨hd.billCycles, hd.coverageEvents, fun c hc ↦ ?_⟩
      rw [hd.claims] at hc
      obtain ⟨c₀, hc₀, rfl⟩ := List.mem_map.1 hc
      exact .inl ⟨c₀, hc₀, decidedAs_same claim d c₀⟩

end Steps

section Runs

variable {clock : Instant} {seatClass : ℕ → Option String} {as : List TimedAction}
  {c : InsuranceClaim}

def clockAfter (sha256 : String → String) (zones : String → CoverageZone) (clock : Instant)
    (seatClass : ℕ → Option String) (as : List TimedAction) : Instant :=
  (run (systemStep sha256 zones) (.start clock seatClass) as).clock

/-- Some command of the run found that a grant had missed a nonpayment deadline. -/
def LapsedIn (sha256 : String → String) (zones : String → CoverageZone) (clock : Instant)
    (seatClass : ℕ → Option String) (as : List TimedAction) (g : CoverageEvent)
    (deadline : Instant) : Prop :=
  ∃ as₁ a as₂ S, as = as₁ ++ a :: as₂ ∧
    CoverageKept sha256 (tablesAfter sha256 zones clock seatClass as₁) S ∧
    CoverageKept sha256 S (tablesAfter sha256 zones clock seatClass (as₁ ++ [a])) ∧
    Missed zones S (clockAfter sha256 zones clock seatClass as₁ + a.wait) g deadline

theorem LapsedIn.append {d : Instant} (h : LapsedIn sha256 zones clock seatClass as g d)
    (bs : List TimedAction) : LapsedIn sha256 zones clock seatClass (as ++ bs) g d := by
  obtain ⟨as₁, a, as₂, S, rfl, h⟩ := h
  exact ⟨as₁, a, as₂ ++ bs, S, by rw [List.append_assoc, List.cons_append], h⟩

/-- The lineage of a claim was terminated at or before its filing for a missed deadline only. -/
def EndsLapsed (sha256 : String → String) (zones : String → CoverageZone) (clock : Instant)
    (seatClass : ℕ → Option String) (as : List TimedAction) (g : CoverageEvent) (t : Instant) :
    Prop :=
  EndedBy (tablesAfter sha256 zones clock seatClass as) g t → ∃ d ≤ t,
    getTerminationInstant (tablesAfter sha256 zones clock seatClass as) g.classId
      (premiumLineageRef g.entitlementId) = some d ∧
    LapsedIn sha256 zones clock seatClass as g d

theorem tablesAfter_snoc (a : TimedAction) :
    tablesAfter sha256 zones clock seatClass (as ++ [a]) = insuranceStep sha256 zones
      (clockAfter sha256 zones clock seatClass as + a.wait)
      (tablesAfter sha256 zones clock seatClass as) a.action := by
  rw [tablesAfter, run_append]
  rfl

theorem clockAfter_snoc (a : TimedAction) : clockAfter sha256 zones clock seatClass (as ++ [a]) =
    clockAfter sha256 zones clock seatClass as + a.wait := by
  rw [clockAfter, run_append]
  rfl

theorem CoverageInvariant.usable_open (h : CoverageInvariant sha256 zones bounded S)
    (hg : Granted S g) {period : CoveragePeriod}
    (husable : evaluateInsuranceUsability S g.classId g.entitlementId now = .ok (.ok period)) :
    ¬EndedBy S g now := by
  intro hended
  obtain ⟨p, periods, closing, stop, hs, -⟩ := h.lineages g hg
  have hnone : getCoveragePeriod S g.classId g.entitlementId now = .ok none := by
    have hover : ∃ c ∈ closing, c.cycleBoundaryAt ≤ now := by
      obtain ⟨d, hd, hle⟩ := hended
      rw [hs.getTerminationInstant] at hd
      obtain ⟨c, hc, rfl⟩ := Option.map_eq_some_iff.1 hd
      exact ⟨c, hc, hle⟩
    rw [getCoveragePeriod, hs.getCurrentBillCycle, if_pos hover]
    rfl
  unfold evaluateInsuranceUsability at husable
  split at husable
  · cases husable
  · split at husable
    · cases husable
    · rw [hnone] at husable
      cases husable

/-- Every claim of a run was filed by then, and its lineage is terminated at or before its filing
for a missed deadline only. -/
theorem claims_filed (sha256 : String → String) (zones : String → CoverageZone) (clock : Instant)
    (seatClass : ℕ → Option String) (as : List TimedAction) :
    ∀ c ∈ (tablesAfter sha256 zones clock seatClass as).claims,
      c.submittedAt ≤ clockAfter sha256 zones clock seatClass as ∧
      ∀ g, Granted (tablesAfter sha256 zones clock seatClass as) g → FiledUnder g c →
        EndsLapsed sha256 zones clock seatClass as g c.submittedAt := by
  induction as using List.reverseRecOn with
  | nil =>
    intro c hc
    cases hc
  | append_singleton as a ih =>
    have hsound := tablesAfter_sound sha256 zones clock seatClass as
    have hkept := tablesAfter_kept sha256 zones clock seatClass as [a]
    have hsame : ∀ g g', Granted (tablesAfter sha256 zones clock seatClass (as ++ [a])) g →
        Granted (tablesAfter sha256 zones clock seatClass as) g' →
        g.entitlementId = g'.entitlementId → g = g' := fun g g' hg hg' ↦
      hkept.sound.coverage.grantsUnique g g' hg (hkept.coverage.granted hg')
    have hclock : clockAfter sha256 zones clock seatClass as ≤
        clockAfter sha256 zones clock seatClass as + a.wait :=
      le_add_of_nonneg_right (Int.natCast_nonneg a.wait)
    have hlater : ∀ g t, Granted (tablesAfter sha256 zones clock seatClass as) g →
        EndsLapsed sha256 zones clock seatClass as g t →
        EndedBy (tablesAfter sha256 zones clock seatClass as) g t →
        EndsLapsed sha256 zones clock seatClass (as ++ [a]) g t := by
      intro g t hg hlapsed hended _
      obtain ⟨d, hle, hd, hin⟩ := hlapsed hended
      exact ⟨d, hle, hkept.coverage.termination hsound.coverage hkept.sound.coverage hg hd,
        hin.append [a]⟩
    have hmoves : (∃ env q, a.action = .submit env q) ∨
        (∃ env correlationId q, a.action = .resolve env correlationId q) ∨
        CoverageMoves sha256 zones False (clockAfter sha256 zones clock seatClass as + a.wait)
          (tablesAfter sha256 zones clock seatClass as) (insuranceStep sha256 zones
            (clockAfter sha256 zones clock seatClass as + a.wait)
            (tablesAfter sha256 zones clock seatClass as) a.action) :=
      insuranceStep_moves hsound.coverage fun h ↦ h.elim
    rw [← or_assoc] at hmoves
    intro c hc
    rw [clockAfter_snoc]
    rcases hmoves with hclaim | hmoves
    · obtain ⟨hcycles, hgrants, hfiled⟩ := claim_commands
        (clockAfter sha256 zones clock seatClass as + a.wait) hsound hclaim
      rw [← tablesAfter_snoc] at hcycles hgrants hfiled
      have hended : ∀ g t, Granted (tablesAfter sha256 zones clock seatClass as) g →
          EndedBy (tablesAfter sha256 zones clock seatClass (as ++ [a])) g t →
          EndedBy (tablesAfter sha256 zones clock seatClass as) g t := by
        intro g t hg hended
        rw [hkept.sound.coverage.endedBy_iff (hkept.coverage.granted hg)] at hended
        rw [hsound.coverage.endedBy_iff hg]
        rwa [lineage, hcycles] at hended
      have hgranted : ∀ g, Granted (tablesAfter sha256 zones clock seatClass (as ++ [a])) g →
          Granted (tablesAfter sha256 zones clock seatClass as) g := by
        intro g hg
        rwa [Granted, hgrants] at hg
      rcases hfiled c hc with ⟨c₀, hc₀, hfiling⟩ | ⟨hnow, period, husable⟩
      · obtain ⟨hpast, hends⟩ := ih c₀ hc₀
        rw [hfiling.submittedAt]
        refine ⟨hpast.trans hclock, fun g hg hunder hnow ↦ ?_⟩
        have hunder₀ : FiledUnder g c₀ := ⟨hfiling.entitlementId ▸ hunder.entitlementId,
          hfiling.classId ▸ hunder.classId, hfiling.targetSeatId ▸ hunder.targetSeatId⟩
        exact hlater g _ (hgranted g hg) (hends g (hgranted g hg) hunder₀)
          (hended g _ (hgranted g hg) hnow) hnow
      · rw [hnow]
        refine ⟨le_rfl, fun g hg hunder hover ↦ ?_⟩
        rw [hunder.classId, hunder.entitlementId] at husable
        exact absurd (hended g _ (hgranted g hg) hover)
          (hsound.coverage.usable_open (hgranted g hg) husable)
    · have hp := hsound.coverage.moves hmoves
      rw [tablesAfter_snoc, hp.claims] at hc
      obtain ⟨hpast, hends⟩ := ih c hc
      refine ⟨hpast.trans hclock, fun g hg hunder hnow ↦ ?_⟩
      obtain ⟨g₀, hg₀, hunder₀, b, hb, -, hholds⟩ := hsound.claims.filed c hc
      obtain rfl : g = g₀ :=
        hsame g g₀ hg hg₀ (hunder.entitlementId.symm.trans hunder₀.entitlementId)
      by_cases hearly : EndedBy (tablesAfter sha256 zones clock seatClass as) g c.submittedAt
      · exact hlater g _ hg₀ (hends g hg₀ hunder) hearly hnow
      · rw [tablesAfter_snoc] at hnow
        obtain ⟨S₁, hx₀, hx₁, d, hle, hmissed, hd⟩ := hsound.coverage.moves_missed hmoves hg₀ hb
          hholds (hpast.trans hclock) hearly hnow
        rw [← tablesAfter_snoc] at hx₁ hd
        exact ⟨d, hle, hd, as, a, [], S₁, rfl, hx₀, hx₁, hmissed⟩

/-- Whatever follows its filing, the period that a claim is settled in is the one that it was filed
in, unless the coverage is terminated at or before its filing: then it has none, and some command
since then has found a nonpayment deadline missed that lies before the filing. -/
theorem filed_claim_keeps_period (sha256 : String → String) (zones : String → CoverageZone)
    (clock : Instant) (seatClass : ℕ → Option String) (as bs : List TimedAction)
    (hc : c ∈ (tablesAfter sha256 zones clock seatClass as).claims) :
    ∃ g b, Granted (tablesAfter sha256 zones clock seatClass as) g ∧ FiledUnder g c ∧
      b ∈ lineage (tablesAfter sha256 zones clock seatClass as).toRentState g.entitlementId ∧
      Holds startOf stopOf c.submittedAt b ∧
      ∃ c' ∈ (tablesAfter sha256 zones clock seatClass (as ++ bs)).claims, SameFiling c c' ∧
        (periodForClaim (tablesAfter sha256 zones clock seatClass (as ++ bs)) c' =
            .ok ⟨b.id, b.cycleNumber, startOf b, stopOf b⟩ ∨
          periodForClaim (tablesAfter sha256 zones clock seatClass (as ++ bs)) c' =
            .error (claimPolicyError "Claim was not filed inside a coverage period") ∧
          ∃ d ≤ c.submittedAt,
            getTerminationInstant (tablesAfter sha256 zones clock seatClass (as ++ bs)) g.classId
              (premiumLineageRef g.entitlementId) = some d ∧
            LapsedIn sha256 zones clock seatClass (as ++ bs) g d) := by
  have hsound := tablesAfter_sound sha256 zones clock seatClass as
  have hkept := tablesAfter_kept sha256 zones clock seatClass as bs
  obtain ⟨g, hg, hunder, b, hb, hlive, hholds⟩ := hsound.claims.filed c hc
  obtain ⟨c', hc', hfiling, -⟩ := hkept.claims.mem hc
  refine ⟨g, b, hg, hunder, hb, hholds, c', hc', hfiling, ?_⟩
  have hg' := hkept.coverage.granted hg
  have hunder' : FiledUnder g c' := ⟨hfiling.entitlementId.trans hunder.entitlementId,
    hfiling.classId.trans hunder.classId, hfiling.targetSeatId.trans hunder.targetSeatId⟩
  obtain ⟨hopen, hover⟩ := hkept.sound.coverage.inForce_eq hg'
    (lineage_subset hkept.coverage.cycles hb) hlive hholds
  unfold inForce at hopen hover
  obtain ⟨next, hnext⟩ := Option.isSome_iff_exists.1 hlive
  by_cases hended : EndedBy (tablesAfter sha256 zones clock seatClass (as ++ bs)) g c.submittedAt
  · right
    constructor
    · rw [periodForClaim, getCoveragePeriod, hunder'.classId, hunder'.entitlementId,
        hfiling.submittedAt, hover hended]
      rfl
    · have hlapsed := (claims_filed sha256 zones clock seatClass (as ++ bs) c' hc').2 g hg' hunder'
      rw [hfiling.submittedAt] at hlapsed
      exact hlapsed hended
  · left
    rw [periodForClaim, getCoveragePeriod, hunder'.classId, hunder'.entitlementId,
      hfiling.submittedAt, hopen hended]
    simp [coveragePeriodOf, hnext, startOf, stopOf]

/-- A premium of the second week that is paid a day after its deadline, and a loss claimed then. -/
def paidLate : List TimedAction :=
  [⟨1, .createPolicy (cancellingPolicy 3)⟩,
    ⟨1, teacherPost "deposit" 100 "manual_payment"⟩, ⟨1, buysCoverage "p1"⟩,
    ⟨6 * 86400000000, .renew sampleClaimSurroundings.toSurroundings "corr_r1" 10 "c" 1⟩,
    ⟨5 * 86400000000, teacherPost "deposit-2" 500 "manual_payment"⟩,
    ⟨1, .payPremium sampleClaimSurroundings.toSurroundings "corr_p"
      { classId := "c", seatId := 1, entitlementId := 1, idempotencyKey := "pay" }⟩,
    ⟨1, teacherPost "loss" (-300) "penalty"⟩,
    ⟨1, filesClaim 1 { transactionId := some 5 } "f1"⟩]

def renewedNextDay : List TimedAction :=
  [⟨86400000000, .renew sampleClaimSurroundings.toSurroundings "corr_r2" 10 "c" 1⟩]

/-- The next renewal ends the coverage at the deadline, before the filing. -/
theorem filed_claim_loses_period :
    ∃ c ∈ (tablesAfter (fun _ ↦ "x") (fun _ ↦ utcCoverage) (day 4) oneStudent paidLate).claims,
      ∃ g, FiledUnder g c ∧ ∃ d ≤ c.submittedAt, LapsedIn (fun _ ↦ "x") (fun _ ↦ utcCoverage)
        (day 4) oneStudent (paidLate ++ renewedNextDay) g d := by
  have hone : (tablesAfter (fun _ ↦ "x") (fun _ ↦ utcCoverage) (day 4) oneStudent
      paidLate).claims ≠ [] := by decide +kernel
  have hlost : ∀ c ∈ (tablesAfter (fun _ ↦ "x") (fun _ ↦ utcCoverage) (day 4) oneStudent
      (paidLate ++ renewedNextDay)).claims, (periodForClaim (tablesAfter (fun _ ↦ "x")
        (fun _ ↦ utcCoverage) (day 4) oneStudent (paidLate ++ renewedNextDay)) c).toOption =
          none := by decide +kernel
  obtain ⟨c, hc⟩ := List.exists_mem_of_ne_nil _ hone
  obtain ⟨g, b, -, hunder, -, -, c', hc', -, hperiod⟩ := filed_claim_keeps_period (fun _ ↦ "x")
    (fun _ ↦ utcCoverage) (day 4) oneStudent paidLate renewedNextDay hc
  refine ⟨c, hc, g, hunder, ?_⟩
  rcases hperiod with hfound | ⟨-, d, hle, -, hlapsed⟩
  · have hnone := hlost c' hc'
    rw [hfound] at hnone
    cases hnone
  · exact ⟨d, hle, hlapsed⟩

end Runs

end TokenHub.Insurance
