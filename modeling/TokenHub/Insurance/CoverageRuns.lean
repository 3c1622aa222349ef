import TokenHub.Insurance.ClaimRuns

set_option autoImplicit false

namespace TokenHub.Insurance

open Ledger Rent Lib.Checks Lib.Runs Lib.Tiling

section Periods

variable (S : InsuranceState) (g : CoverageEvent)

def cyclesAt (t : Instant) : List BillCycle :=
  (lineage S.toRentState g.entitlementId).filter (Holds startOf stopOf t)

def inForce (t : Instant) : Except Raise (Option BillCycle) :=
  getCurrentBillCycle S.toRentState g.classId (premiumLineageRef g.entitlementId) t

/-- The instant a coverage was terminated at, or else the end of its latest period. -/
def coverageEnd : Instant :=
  match getTerminationInstant S g.classId (premiumLineageRef g.entitlementId) with
  | some instant => instant
  | none => ((lineage S.toRentState g.entitlementId).getLast?.map stopOf).getD g.timestamp

def premiumsOf (c : BillCycle) : List ObligationAssessment :=
  S.assessmentEvents.filter (fun a ↦ a.IsAssessment ∧ a.obligationType = .insurancePremium ∧
    a.billCycleId = some c.id)

def automaticPayments (correlationId : String) : List ObligationAssessment :=
  S.assessmentEvents.filter (fun e ↦ SystemPayment S.ledger e ∧ e.correlationId = correlationId)

/-- The coverage `g'` takes over from `g` at the instant that ends `g`. -/
structure Continues (g g' : CoverageEvent) : Prop where
  classId : g.classId = g'.classId
  ends : getTerminationInstant S g.classId (premiumLineageRef g.entitlementId) = some g'.timestamp
  apart : ∀ t, inForce S g t = .ok none ∨ inForce S g' t = .ok none
  together : ∀ t, g.timestamp ≤ t → t < coverageEnd S g' →
    ∃ c, inForce S g t = .ok (some c) ∨ inForce S g' t = .ok (some c)

/-- The periods of every coverage tile it, each with its premium, and a continuation takes over
where the coverage before it ends. -/
structure CoverageTiled : Prop where
  held : ∀ g, Granted S g → ∀ t, g.timestamp ≤ t → t < coverageEnd S g →
    ∃ c, cyclesAt S g t = [c] ∧ inForce S g t = .ok (some c)
  beyond : ∀ g, Granted S g → ∀ t, ¬ (g.timestamp ≤ t ∧ t < coverageEnd S g) →
    inForce S g t = .ok none
  apart : ∀ g, Granted S g → ∀ t, (cyclesAt S g t).length ≤ 1
  premium : ∀ g, Granted S g → ∀ c ∈ lineage S.toRentState g.entitlementId,
    c.nextAssessmentAt.isSome → ∃ a, premiumsOf S c = [a] ∧ PremiumFor g c a
  owed : ∀ a ∈ S.assessmentEvents, a.IsAssessment → ∃ g c, Granted S g ∧
    c ∈ lineage S.toRentState g.entitlementId ∧ c.nextAssessmentAt.isSome ∧ PremiumFor g c a
  paidOnce : ∀ correlationId, (automaticPayments S correlationId).length ≤ 1
  continued : ∀ g', Granted S g' → ∀ n ∈ g'.continuesEntitlementId,
    ∃ g, Granted S g ∧ g.entitlementId = n ∧ Continues S g g'
  continuedOnce : ∀ g g' n, Granted S g → Granted S g' → g.continuesEntitlementId = some n →
    g'.continuesEntitlementId = some n → g = g'

end Periods

variable {sha256 : String → String} {zones : String → CoverageZone} {bounded : Prop}
  {S : InsuranceState} {g g' : CoverageEvent} {periods : List BillCycle}
  {closing : Option BillCycle} {stop t : Instant}

section Tiles

theorem Lineage.cyclesAt_eq (h : Lineage S.toRentState g periods closing stop) (t : Instant) :
    cyclesAt S g t = periods.filter (Holds startOf stopOf t) := by
  have hnone : closing.toList.filter (Holds startOf stopOf t) = [] := by
    rw [List.filter_eq_nil_iff]
    intro c hc
    have hc : c ∈ closing := by simpa using hc
    simp [Holds, startOf, stopOf, h.closes c hc]
  rw [cyclesAt, h.split, List.filter_append, hnone, List.append_nil]

theorem Lineage.coverageEnd_open (h : Lineage S.toRentState g periods none stop) :
    coverageEnd S g = stop := by
  obtain ⟨c, -, hlast, hnext, -⟩ := h.getLast_open
  simp only [coverageEnd, h.getTerminationInstant, hlast]
  simp [stopOf, hnext]

theorem Lineage.coverageEnd_closed {c : BillCycle}
    (h : Lineage S.toRentState g periods (some c) stop) : coverageEnd S g = c.cycleBoundaryAt := by
  rw [coverageEnd, h.getTerminationInstant]
  rfl

theorem Lineage.ended_iff (h : Lineage S.toRentState g periods closing stop) :
    (∃ c ∈ closing, c.cycleBoundaryAt ≤ t) → coverageEnd S g ≤ t := by
  rintro ⟨c, hc, hle⟩
  obtain rfl := Option.mem_def.1 hc
  rwa [h.coverageEnd_closed]

theorem Lineage.inForce_before (h : Lineage S.toRentState g periods closing stop)
    (hbound : ∀ c ∈ closing, c.cycleBoundaryAt ≤ stop) (hstart : g.timestamp ≤ t)
    (ht : t < coverageEnd S g) : ∃ c, cyclesAt S g t = [c] ∧ inForce S g t = .ok (some c) := by
  have hstop : t < stop := by
    cases closing with
    | none => rwa [h.coverageEnd_open] at ht
    | some c =>
      rw [h.coverageEnd_closed] at ht
      exact ht.trans_le (hbound c rfl)
  obtain ⟨c, hc, hholds⟩ := h.tiles.exists_holds hstart hstop
  refine ⟨c, ?_, ?_⟩
  · have hlen := h.tiles.length_filter t
    rw [if_pos ⟨hstart, hstop⟩] at hlen
    obtain ⟨d, hd⟩ := List.length_eq_one_iff.1 hlen
    have hmem : c ∈ periods.filter (Holds startOf stopOf t) :=
      List.mem_filter.2 ⟨hc, decide_eq_true hholds⟩
    rw [h.cyclesAt_eq, hd]
    rw [hd, List.mem_singleton] at hmem
    rw [hmem]
  · rw [inForce, h.getCurrentBillCycle, if_neg (fun hover ↦ absurd (h.ended_iff hover) ht.not_ge),
      h.tiles.find?_holds hc hholds]

theorem Lineage.inForce_beyond (h : Lineage S.toRentState g periods closing stop)
    (ht : ¬ (g.timestamp ≤ t ∧ t < coverageEnd S g)) : inForce S g t = .ok none := by
  rw [inForce, h.getCurrentBillCycle]
  split_ifs with hover
  · rfl
  · rw [List.find?_eq_none.2]
    intro c hc hholds
    obtain ⟨hstart, hstop⟩ := h.tiles.holds_bounds hc (of_decide_eq_true hholds)
    refine ht ⟨hstart, ?_⟩
    cases closing with
    | none => rwa [h.coverageEnd_open]
    | some c =>
      rw [h.coverageEnd_closed]
      by_contra hle
      exact hover ⟨c, rfl, le_of_not_gt hle⟩

end Tiles

section Premiums

theorem CoverageInvariant.premiumsOf_eq (h : CoverageInvariant sha256 zones bounded S)
    (hg : Granted S g) {c : BillCycle} (hc : c ∈ lineage S.toRentState g.entitlementId)
    (hlive : c.nextAssessmentAt.isSome) : ∃ a, premiumsOf S c = [a] ∧ PremiumFor g c a := by
  obtain ⟨a, ha, hfor⟩ := h.premiumOf g hg c hc hlive
  have hmem : a ∈ premiumsOf S c := List.mem_filter.2
    ⟨ha, decide_eq_true ⟨hfor.isAssessment, hfor.obligationType, hfor.billCycleId⟩⟩
  have hone : (premiumsOf S c).Pairwise (fun _ _ ↦ False) := by
    have honce := h.assessedOnce
    rw [List.pairwise_filter] at honce
    rw [premiumsOf, List.pairwise_filter]
    refine honce.imp (fun {x y} hne hx hy ↦ ?_)
    obtain ⟨hxa, -, hxc⟩ := of_decide_eq_true hx
    obtain ⟨hya, -, hyc⟩ := of_decide_eq_true hy
    exact (hne (decide_eq_true hxa) (decide_eq_true hya)).2 (hxc.trans hyc.symm)
  obtain ⟨b, hb⟩ := List.length_eq_one_iff.1
    (Nat.le_antisymm (length_le_one hone) (List.length_pos_of_mem hmem))
  rw [hb, List.mem_singleton] at hmem
  exact ⟨a, by rw [hb, hmem], hfor⟩

theorem CoverageInvariant.automaticPayments_length (h : CoverageInvariant sha256 zones bounded S)
    (correlationId : String) : (automaticPayments S correlationId).length ≤ 1 := by
  apply length_le_one
  have honce := h.automatic
  rw [List.pairwise_filter] at honce
  rw [automaticPayments, List.pairwise_filter]
  refine honce.imp (fun {x y} hne hx hy ↦ ?_)
  obtain ⟨hxs, hxc⟩ := of_decide_eq_true hx
  obtain ⟨hys, hyc⟩ := of_decide_eq_true hy
  exact hne (decide_eq_true hxs) (decide_eq_true hys) (hxc.trans hyc.symm)

end Premiums

section Continuations

theorem CoverageInvariant.continued (h : CoverageInvariant sha256 zones bounded S)
    (hg' : Granted S g') {n : ℕ} (hn : g'.continuesEntitlementId = some n) :
    ∃ g, Granted S g ∧ g.entitlementId = n ∧ g.classId = g'.classId ∧
      getTerminationInstant S g.classId (premiumLineageRef g.entitlementId) =
        some g'.timestamp := by
  cases h.origins g' hg' with
  | purchased _ _ hnone =>
    rw [hnone] at hn
    cases hn
  | continued m c _ hm hc hnext hclass hat =>
    obtain rfl : m = n := Option.some.inj (hm.symm.trans hn)
    obtain ⟨g, hg, hmem⟩ := h.owners c (List.mem_of_mem_filter hc)
    have hsame : g.entitlementId = m := by
      have href := of_decide_eq_true (List.mem_filter.1 hmem).2
      rw [of_decide_eq_true (List.mem_filter.1 hc).2] at href
      exact (premiumLineageRef_injective href).symm
    obtain ⟨p, periods, closing, stop, hs, -⟩ := h.lineages g hg
    have hclosing : c ∈ closing := by
      have hsplit := hmem
      rw [hs.split, List.mem_append] at hsplit
      rcases hsplit with hperiod | hend
      · rw [(hs.ends hperiod).1] at hnext
        cases hnext
      · simpa using hend
    refine ⟨g, hg, hsame, (hs.owned c hmem).1.symm.trans hclass, ?_⟩
    rw [hs.getTerminationInstant, Option.mem_def.1 hclosing, Option.map_some, hat]

theorem CoverageInvariant.tiled (h : CoverageInvariant sha256 zones True S) : CoverageTiled S where
  held := fun g hg t hstart ht ↦ by
    obtain ⟨p, periods, closing, stop, hs, hbound⟩ := h.lineages g hg
    exact hs.inForce_before (hbound trivial) hstart ht
  beyond := fun g hg t ht ↦ by
    obtain ⟨p, periods, closing, stop, hs, -⟩ := h.lineages g hg
    exact hs.inForce_beyond ht
  apart := fun g hg t ↦ by
    obtain ⟨p, periods, closing, stop, hs, -⟩ := h.lineages g hg
    rw [hs.cyclesAt_eq, hs.tiles.length_filter]
    split_ifs <;> simp
  premium := fun g hg c hc hlive ↦ h.premiumsOf_eq hg hc hlive
  owed := h.assessments
  paidOnce := h.automaticPayments_length
  continued := fun g' hg' n hn ↦ by
    obtain ⟨g, hg, rfl, hclass, hend⟩ := h.continued hg' hn
    obtain ⟨p, periods, closing, stop, hs, hbound⟩ := h.lineages g hg
    obtain ⟨p', periods', closing', stop', hs', hbound'⟩ := h.lineages g' hg'
    have hends : coverageEnd S g = g'.timestamp := by
      rw [coverageEnd, hend]
    refine ⟨g, hg, rfl, hclass, hend, fun t ↦ ?_, fun t hstart ht ↦ ?_⟩
    · by_cases hlate : g'.timestamp ≤ t
      · exact .inl (hs.inForce_beyond (fun hin ↦ absurd hin.2 (hends ▸ hlate).not_gt))
      · exact .inr (hs'.inForce_beyond (fun hin ↦ hlate hin.1))
    · by_cases hlate : g'.timestamp ≤ t
      · obtain ⟨c, -, hc⟩ := hs'.inForce_before (hbound' trivial) hlate ht
        exact ⟨c, .inr hc⟩
      · obtain ⟨c, -, hc⟩ := hs.inForce_before (hbound trivial) hstart
          (hends ▸ lt_of_not_ge hlate)
        exact ⟨c, .inl hc⟩
  continuedOnce := h.continuedOnce

end Continuations

section Runs

/-- In every state of a run whose renewals meet each nonpayment deadline before the scheduled
periods end, the periods tile the coverages. -/
theorem coverage_periods_tile (sha256 : String → String) (zones : String → CoverageZone)
    (clock : Instant) (seatClass : ℕ → Option String) (as : List TimedAction)
    (hmeet : RunMeets sha256 zones (InTime sha256 zones) (.start clock seatClass) as) :
    CoverageTiled (tablesAfter sha256 zones clock seatClass as) := by
  have hstart : SystemSound sha256 zones True (InsuranceSystem.start clock seatClass).tables :=
    .start seatClass
  exact (hstart.run (fun _ ↦ hmeet)).sound.coverage.tiled

/-- A weekly premium of 1.00, where the coverage ends some days after one that stays unpaid. -/
def cancellingPolicy (cancelAfterDays : ℤ) : InsurancePolicy :=
  { reimbursementPolicy "p1" with
    nonpaymentMode := some .cancelAfterXDays
    cancelAfterDays := some cancelAfterDays }

/-- A coverage bought on the fourth day with the only money of the student, renewed within its
first week and then again after some days. -/
def renewedAfter (cancelAfterDays : ℤ) (wait : ℕ) : List TimedAction :=
  [⟨1, .createPolicy (cancellingPolicy cancelAfterDays)⟩,
    ⟨1, teacherPost "deposit" 100 "manual_payment"⟩, ⟨1, buysCoverage "p1"⟩,
    ⟨6 * 86400000000, .renew sampleClaimSurroundings.toSurroundings "corr_r1" 10 "c" 1⟩,
    ⟨wait * 86400000000, .renew sampleClaimSurroundings.toSurroundings "corr_r2" 10 "c" 1⟩]

/-- A coverage that ends three days into its second week, when that is four days old. -/
theorem coverage_periods_tile_on_time :
    RunMeets (fun _ ↦ "x") (fun _ ↦ utcCoverage) (InTime (fun _ ↦ "x") (fun _ ↦ utcCoverage))
        (.start (day 4) oneStudent) (renewedAfter 3 5) ∧
      CoverageTiled
        (tablesAfter (fun _ ↦ "x") (fun _ ↦ utcCoverage) (day 4) oneStudent (renewedAfter 3 5)) := by
  have hmeet : RunMeets (fun _ ↦ "x") (fun _ ↦ utcCoverage)
      (InTime (fun _ ↦ "x") (fun _ ↦ utcCoverage)) (.start (day 4) oneStudent)
      (renewedAfter 3 5) := by decide +kernel
  exact ⟨hmeet, coverage_periods_tile _ _ _ _ _ hmeet⟩

/-- A coverage that ends ten days after its second week began, where no third week was ever
scheduled: the days between lie before its termination and in no period. -/
theorem late_termination_leaves_gap :
    ∃ g ∈ (tablesAfter (fun _ ↦ "x") (fun _ ↦ utcCoverage) (day 4) oneStudent
        (renewedAfter 10 16)).coverageEvents,
      g.eventType = .granted ∧ g.timestamp ≤ day 19 ∧
      getTerminationInstant (tablesAfter (fun _ ↦ "x") (fun _ ↦ utcCoverage) (day 4) oneStudent
        (renewedAfter 10 16)) g.classId (premiumLineageRef g.entitlementId) = some (day 21) ∧
      cyclesAt (tablesAfter (fun _ ↦ "x") (fun _ ↦ utcCoverage) (day 4) oneStudent
        (renewedAfter 10 16)) g (day 19) = [] := by
  decide +kernel

end Runs

end TokenHub.Insurance
