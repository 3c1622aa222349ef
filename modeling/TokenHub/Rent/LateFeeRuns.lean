import TokenHub.Rent.BillWhole
import TokenHub.Rent.LateFees

set_option autoImplicit false

namespace TokenHub.Rent

open Ledger Lib.Checks Lib.Runs

variable {sha256 : String → String} {zones : String → ClassZone} {zone : ClassZone}
  {env : Surroundings} {clock now : Instant} {classId : String} {S S' S'' : RentState} {n : ℕ}

section Stages

/-- A stage of a run that makes no late fee, on the same seats. -/
structure Prepares (S S' : RentState) : Prop where
  seats : S'.seats = S.seats
  fees : ∀ x k, Assessed S' (lateCorrelation x k) ↔ Assessed S (lateCorrelation x k)

theorem Prepares.refl (S : RentState) : Prepares S S := ⟨rfl, fun _ _ ↦ Iff.rfl⟩

theorem Prepares.trans (h : Prepares S S') (h' : Prepares S' S'') : Prepares S S'' :=
  ⟨h'.seats.trans h.seats, fun x k ↦ (h'.fees x k).trans (h.fees x k)⟩

theorem assessed_congr (h : S'.assessmentEvents = S.assessmentEvents) (x : String) :
    Assessed S' x ↔ Assessed S x := by
  unfold Assessed
  rw [h]

theorem Prepares.of_events (hseats : S'.seats = S.seats)
    (hevents : S'.assessmentEvents = S.assessmentEvents) : Prepares S S' :=
  ⟨hseats, fun _ _ ↦ assessed_congr hevents _⟩

theorem scheduleNextBillCycle_prepares {q : ScheduleNextBillCycleRequest} {c : BillCycle}
    (hok : scheduleNextBillCycle sha256 zone S q = .ok (c, S')) : Prepares S S' := by
  simp only [scheduleNextBillCycle, require_bind_eq_ok] at hok
  obtain ⟨-, -, -, hok⟩ := hok
  split at hok
  · simp only [require_bind_eq_ok, demand_bind_eq_ok, pure_eq_ok, Prod.mk.injEq] at hok
    obtain ⟨-, cycle, -, -, rfl⟩ := hok
    exact .refl S
  · simp only [bind_eq_ok, pure_eq_ok, Prod.mk.injEq] at hok
    obtain ⟨-, -, number, -, -, -, -, rfl⟩ := hok
    exact .of_events rfl rfl

theorem succeed_prepares {t : RunTerms} {latest : Option (BillCycle × Instant)} {c : BillCycle}
    (hok : succeed sha256 zone t S latest = .ok (some (c, S'))) : Prepares S S' := by
  unfold succeed at hok
  rw [bind_eq_ok] at hok
  obtain ⟨due, -, hok⟩ := hok
  rw [bind_eq_ok] at hok
  obtain ⟨schedule, -, hok⟩ := hok
  split_ifs at hok
  · cases hok
  · simp only [bind_eq_ok, pure_eq_ok, Option.some.injEq] at hok
    obtain ⟨⟨c', S₁⟩, hscheduled, hc⟩ := hok
    obtain ⟨rfl, rfl⟩ := Prod.mk.inj hc
    exact scheduleNextBillCycle_prepares hscheduled

theorem catchUp_prepares {t : RunTerms} {left : ℕ} {res res' : ReconcileRentResult}
    (hok : catchUp sha256 zone t left S res = .ok (res', S')) : Prepares S S' := by
  induction left generalizing S res with
  | zero =>
    unfold catchUp at hok
    split at hok <;> rw [pure_eq_ok, Prod.mk.injEq] at hok <;> rw [← hok.2] <;> exact .refl S
  | succ left ih =>
    unfold catchUp at hok
    split at hok
    · rw [bind_eq_ok] at hok
      obtain ⟨outcome, hsucceed, hok⟩ := hok
      cases outcome with
      | none =>
        rw [pure_eq_ok, Prod.mk.injEq] at hok
        rw [← hok.2]
        exact .refl S
      | some created => exact (succeed_prepares hsucceed).trans (ih hok)
    · rw [pure_eq_ok, Prod.mk.injEq] at hok
      rw [← hok.2]
      exact .refl S

theorem advanceLineage_prepares {t : RunTerms} {res res' : ReconcileRentResult}
    (hok : advanceLineage sha256 zone t S res = .ok (res', S')) : Prepares S S' := by
  unfold advanceLineage at hok
  split at hok
  · rw [bind_eq_ok] at hok
    obtain ⟨outcome, hsucceed, hok⟩ := hok
    cases outcome with
    | none =>
      rw [pure_eq_ok, Prod.mk.injEq] at hok
      rw [← hok.2]
      exact .refl S
    | some created => exact (succeed_prepares hsucceed).trans (catchUp_prepares hok)
  · exact catchUp_prepares hok

theorem assessCycle_prepares {settings : RentSettings} {cycle : BillCycle}
    (hok : assessCycle clock settings classId cycle S = .ok (n, S')) : Prepares S S' := by
  refine (tally_relates (I := fun _ ↦ True) hok trivial .refl (fun _ _ _ ↦ .trans) ?_).2
  intro seat _ S₁ m S₂ _ hstep
  simp only [bind_eq_ok, Prod.exists, pure_eq_ok, Prod.mk.injEq] at hstep
  obtain ⟨created, S₃, hassess, -, rfl⟩ := hstep
  refine ⟨trivial, ?_, fun x k ↦ ?_⟩
  · rcases assessObligation_ok hassess with ⟨-, rfl, -⟩ | ⟨-, rfl, -⟩ <;> rfl
  · rw [assessObligation_assessed hassess]
    exact or_iff_left fun heq ↦ rentCorrelation_ne_lateCorrelation _ _ _ _ _ heq.symm

theorem assessRosters_prepares {t : RunTerms} {res res' : ReconcileRentResult}
    {cycles : List BillCycle} (hok : assessRosters clock t res S cycles = .ok (res', S')) :
    Prepares S S' := by
  induction cycles generalizing S res with
  | nil =>
    rw [assessRosters, pure_eq_ok, Prod.mk.injEq] at hok
    rw [← hok.2]
    exact .refl S
  | cons cycle cycles ih =>
    simp only [assessRosters, bind_eq_ok, Prod.exists] at hok
    obtain ⟨res₁, S₁, hfirst, hrest⟩ := hok
    refine Prepares.trans ?_ (ih hrest)
    unfold assessRoster at hfirst
    split at hfirst
    · rw [pure_eq_ok, Prod.mk.injEq] at hfirst
      rw [← hfirst.2]
      exact .refl S
    · simp only [bind_eq_ok, Prod.exists, pure_eq_ok, Prod.mk.injEq] at hfirst
      obtain ⟨m, S₂, hassess, -, rfl⟩ := hfirst
      exact assessCycle_prepares hassess

theorem expireEndedPeriodPerks_prepares
    (hok : expireEndedPeriodPerks env clock classId now S = .ok (n, S')) : Prepares S S' := by
  refine (tally_relates (I := fun _ ↦ True) hok trivial .refl (fun _ _ _ ↦ .trans) ?_).2
  intro ended _ S₁ m S₂ _ hstep
  rw [bind_eq_ok] at hstep
  obtain ⟨actorSeatId, -, hstep⟩ := hstep
  refine tally_relates (I := fun _ ↦ True) hstep trivial .refl (fun _ _ _ ↦ .trans) ?_
  intro a _ S₃ j S₄ _ hstep
  rw [pure_eq_ok, expireRentPerks, Prod.mk.injEq] at hstep
  rw [← hstep.2]
  exact ⟨trivial, .of_events rfl rfl⟩

theorem grantPeriodStartPerks_prepares {cycle : BillCycle}
    (hok : grantPeriodStartPerks env clock classId cycle S = .ok (n, S')) : Prepares S S' := by
  refine (tally_relates (I := fun _ ↦ True) hok trivial .refl (fun _ _ _ ↦ .trans) ?_).2
  intro a _ S₁ m S₂ _ hstep
  refine ⟨trivial, ?_⟩
  split_ifs at hstep
  · split at hstep
    · rw [pure_eq_ok, Prod.mk.injEq] at hstep
      rw [← hstep.2]
      exact .refl S₁
    · obtain ⟨grants, rfl, -⟩ := awardSatisfactionPerks_awarded hstep
      exact .of_events rfl rfl
  · rw [pure_eq_ok, Prod.mk.injEq] at hstep
    rw [← hstep.2]
    exact .refl S₁

theorem Prepares.rentRoster (h : Prepares S S') (classId : String) :
    rentRoster S' classId = rentRoster S classId := by
  unfold Rent.rentRoster
  rw [h.seats]

/-- A run's own part comes down to its stages before the late fees, and these. -/
theorem settleRun_stages {t : RunTerms} {enabled : Bool} {res res' : ReconcileRentResult}
    (hok : settleRun zone env clock t enabled res S = .ok (res', S')) :
    ∃ S₁ res₁ res₂, Prepares S S₁ ∧ accrueLateFees zone clock t res₁ S₁
      (getBillCyclesForInternalRef S₁ (rentLineage t.classId)) = .ok (res₂, S') := by
  simp only [settleRun, bind_eq_ok, Prod.exists] at hok
  obtain ⟨current, -, res₁, S₁, hrosters, expired, S₂, hexpire, m, S₃, hgrant, res₂, S₄, hfees,
    hok⟩ := hok
  rw [pure_eq_ok, Prod.mk.injEq] at hok
  obtain ⟨-, rfl⟩ := hok
  refine ⟨S₃, _, res₂, ?_, hfees⟩
  refine ((assessRosters_prepares hrosters).trans (expireEndedPeriodPerks_prepares hexpire)).trans ?_
  cases current with
  | none =>
    simp only [currentPeriodPerks, pure_eq_ok, Prod.mk.injEq] at hgrant
    rw [← hgrant.2]
    exact .refl S₂
  | some cycle => exact grantPeriodStartPerks_prepares hgrant

end Stages

section Cycles

def CyclesDistinct (S : RentState) : Prop :=
  S.billCycles.Pairwise (fun c d ↦ c.internalRef = d.internalRef → c.cycleNumber ≠ d.cycleNumber)

theorem CyclesDistinct.unique (h : CyclesDistinct S) {c d : BillCycle} (hc : c ∈ S.billCycles)
    (hd : d ∈ S.billCycles) (href : c.internalRef = d.internalRef)
    (hnumber : c.cycleNumber = d.cycleNumber) : c = d := by
  by_contra hne
  have hsymm : Std.Symm (fun c d : BillCycle ↦
      c.internalRef = d.internalRef → c.cycleNumber ≠ d.cycleNumber) :=
    ⟨fun _ _ hcd hdc heq ↦ hcd hdc.symm heq.symm⟩
  exact h.forall hc hd hne href hnumber

/-- The latest cycle of a lineage carries its greatest number. -/
theorem le_latest {ref : String} {c l : BillCycle} (hl : getLatestBillCycle S ref = some l)
    (hc : c ∈ S.billCycles) (href : c.internalRef = ref) : c.cycleNumber ≤ l.cycleNumber := by
  have hsorted : (getBillCyclesForInternalRef S ref).Pairwise
      (fun a b ↦ a.cycleNumber ≤ b.cycleNumber) := List.pairwise_insertionSort _ _
  have hmem : c ∈ getBillCyclesForInternalRef S ref := by
    rw [getBillCyclesForInternalRef, List.mem_insertionSort, List.mem_filter]
    exact ⟨hc, decide_eq_true href⟩
  obtain ⟨init, hinit⟩ := List.getLast?_eq_some_iff.1 hl
  rw [hinit] at hsorted hmem
  rcases List.mem_append.1 hmem with hmem | hmem
  · exact (List.pairwise_append.1 hsorted).2.2 c hmem l (by simp)
  · rw [List.mem_singleton.1 hmem]

theorem CyclesDistinct.move (h : CyclesDistinct S) (hm : Move sha256 zones now S S') :
    CyclesDistinct S' := by
  cases hm with
  | @cycle c r hc _ _ _ =>
    unfold CyclesDistinct
    rw [List.pairwise_append]
    refine ⟨h, List.pairwise_singleton _ _, ?_⟩
    intro d hd e he href
    obtain rfl := List.mem_singleton.1 he
    cases hl : getLatestBillCycle S e.internalRef with
    | none =>
      rw [getLatestBillCycle, List.getLast?_eq_none_iff] at hl
      have hmem : d ∈ getBillCyclesForInternalRef S e.internalRef := by
        rw [getBillCyclesForInternalRef, List.mem_insertionSort, List.mem_filter]
        exact ⟨hd, decide_eq_true href⟩
      rw [hl] at hmem
      cases hmem
    | some l =>
      have hle := le_latest hl hd href
      have hnumber := (hc.after l hl).1
      omega
  | _ => exact h

theorem CyclesDistinct.moves (h : CyclesDistinct S) (hm : Moves sha256 zones now S S') :
    CyclesDistinct S' := by
  induction hm with
  | refl => exact h
  | tail _ hlast ih => exact ih.move hlast

end Cycles

section Reconciliation

theorem reconcileRent_stages {q : ReconcileRentRequest} {res : ReconcileRentResult}
    {settings : RentSettings} (hsettings : getRentSettings S q.classId = some settings)
    (hok : reconcileRent sha256 zone env clock S q = .ok (res, S')) :
    ∃ t : RunTerms, t.classId = q.classId ∧ t.now = q.referenceTimeUtc.getD clock ∧
      ∃ S₁ res₁ res₂, Prepares S S₁ ∧ accrueLateFees zone clock t res₁ S₁
        (getBillCyclesForInternalRef S₁ (rentLineage t.classId)) = .ok (res₂, S') := by
  rw [reconcileRent, require_bind_eq_ok, hsettings] at hok
  obtain ⟨-, hok⟩ := hok
  simp only at hok
  refine ⟨⟨q.classId, q.referenceTimeUtc.getD clock, settings,
    runIdentity q (q.referenceTimeUtc.getD clock)⟩, rfl, rfl, ?_⟩
  split_ifs at hok with henabled
  · simp only [bind_eq_ok, Prod.exists] at hok
    obtain ⟨res₀, S₀, hadvance, hsettle⟩ := hok
    obtain ⟨S₁, res₁, res₂, hstages, hfees⟩ := settleRun_stages hsettle
    exact ⟨S₁, res₁, res₂, (advanceLineage_prepares hadvance).trans hstages, hfees⟩
  · rw [pure_bind] at hok
    exact settleRun_stages hok

/-- Every cycle of a reachable state is billed on the policy that it froze. -/
theorem RentInvariant.cycleTerms (h : RentInvariant sha256 S) {cycle : BillCycle}
    (hc : cycle ∈ S.billCycles) (hclass : cycle.classId = classId) (current : RentSettings) :
    cycleTerms S classId cycle current = rentPolicy S cycle.policyUuid := by
  obtain ⟨r, hr, hrclass⟩ := h.cyclePolicies cycle hc
  obtain ⟨huuid, hne, -⟩ := rentPolicy_spec hr
  have hnone : cycle.policyUuid.getD "" ≠ "" := by
    rw [huuid]
    exact hne
  rw [Rent.cycleTerms, if_neg hnone, hr]
  simp [hrclass, hclass]

theorem RentInvariant.mem_lineage_iff (h : RentInvariant sha256 S) {c : BillCycle} :
    c ∈ getBillCyclesForInternalRef S (rentLineage classId) ↔
      c ∈ S.billCycles ∧ c.classId = classId := by
  refine ⟨mem_lineage h, fun ⟨hc, hclass⟩ ↦ ?_⟩
  rw [getBillCyclesForInternalRef, List.mem_insertionSort, List.mem_filter]
  refine ⟨hc, decide_eq_true ?_⟩
  rw [h.cycleLineages c hc, hclass]

/-- Late fees are made by a run for the rents of its class alone, on the terms that their cycles
froze. -/
theorem reconcileRent_charges (h : RentInvariant sha256 S) {q : ReconcileRentRequest}
    {res : ReconcileRentResult}
    (hok : reconcileRent sha256 (zones q.classId) env clock S q = .ok (res, S')) (x : String)
    (k : ℕ) : Assessed S' (lateCorrelation x k) ↔ Assessed S (lateCorrelation x k) ∨
      (getRentSettings S q.classId).isSome ∧ ∃ cycle ∈ S'.billCycles,
        cycle.classId = q.classId ∧ ∃ terms, rentPolicy S' cycle.policyUuid = some terms ∧
          ∃ seat ∈ rentRoster S q.classId,
            Outstanding S' (rentCorrelation q.classId seat.id cycle.cycleNumber) ∧
              1 ≤ k ∧ k ≤ latePeriods (zones q.classId) terms cycle.graceBoundaryAt
                (q.referenceTimeUtc.getD clock) ∧
                  x = rentCorrelation q.classId seat.id cycle.cycleNumber := by
  have hafter := (h.moves (reconcileRent_moves h hok)).invariant
  cases hsettings : getRentSettings S q.classId with
  | none =>
    rw [reconcileRent, require_bind_eq_ok, hsettings] at hok
    obtain ⟨-, hok⟩ := hok
    rw [pure_eq_ok, Prod.mk.injEq] at hok
    rw [← hok.2]
    simp
  | some settings =>
    obtain ⟨t, hclass, hnow, S₁, res₁, res₂, hprepares, hfees⟩ :=
      reconcileRent_stages hsettings hok
    obtain ⟨hadds, hiff⟩ := accrueLateFees_charges hfees
    have hlineage : getBillCyclesForInternalRef S₁ (rentLineage t.classId) =
        getBillCyclesForInternalRef S' (rentLineage t.classId) := by
      obtain ⟨es, rfl, -⟩ := hadds
      rfl
    rw [hiff, hprepares.fees, hlineage, hclass, hnow]
    refine or_congr_right ?_
    simp only [Option.isSome_some, true_and, hafter.mem_lineage_iff, and_assoc]
    refine exists_congr fun cycle ↦ and_congr_right fun hc ↦ and_congr_right fun hcclass ↦ ?_
    rw [← hadds.cycleTerms, hafter.cycleTerms hc hcclass]
    refine exists_congr fun terms ↦ and_congr_right fun _ ↦ ?_
    rw [← hadds.chargedFor, ChargedFor, hadds.rentRoster, hprepares.rentRoster]
    refine exists_congr fun seat ↦ and_congr_right fun _ ↦ and_congr_right fun _ ↦ ?_
    constructor
    · rintro ⟨j, hj, hle, heq⟩
      obtain ⟨rfl, rfl⟩ := lateCorrelation_inj heq
      exact ⟨hj, hle, rfl⟩
    · rintro ⟨hk, hle, rfl⟩
      exact ⟨k, hk, hle, rfl⟩

end Reconciliation

section Frames

variable {feat : FeatContext}

def KeepsAssessments (S S' : RentState) : Prop := ∀ x, Assessed S' x ↔ Assessed S x

theorem KeepsAssessments.refl (S : RentState) : KeepsAssessments S S := fun _ ↦ Iff.rfl

theorem KeepsAssessments.trans (h : KeepsAssessments S S') (h' : KeepsAssessments S' S'') :
    KeepsAssessments S S'' := fun x ↦ (h' x).trans (h x)

theorem KeepsAssessments.of_append {es : List ObligationAssessment}
    (hS : S'.assessmentEvents = S.assessmentEvents ++ es) (hes : ∀ e ∈ es, ¬ e.IsAssessment) :
    KeepsAssessments S S' := by
  intro x
  rw [assessed_append hS]
  exact or_iff_left fun ⟨e, he, hass, _⟩ ↦ hes e he hass

theorem payRent_keeps (h : RentInvariant sha256 S) {q : RentPaymentRequest}
    {res : RentPaymentResult} (hok : payRent sha256 env feat S q = .ok (res, S')) :
    KeepsAssessments S S' := by
  rw [payRent, require_bind_eq_ok, require_bind_eq_ok] at hok
  obtain ⟨-, -, hok⟩ := hok
  split at hok
  · rw [pure_eq_ok, Prod.mk.injEq] at hok
    rw [← hok.2]
    exact .refl S
  · next a state hverify =>
    rw [bind_eq_ok] at hok
    obtain ⟨prior, hprior, hok⟩ := hok
    cases prior with
    | some debit =>
      simp only [bind_eq_ok, pure_eq_ok, Prod.mk.injEq] at hok
      obtain ⟨-, -, -, rfl⟩ := hok
      exact .refl S
    | none =>
      simp only at hok
      split at hok
      · rw [pure_eq_ok, Prod.mk.injEq] at hok
        rw [← hok.2]
        exact .refl S
      · rcases postRentPayment_ok h (verifyRentPayment_ok hverify)
          (replayReservedCharge_none hprior) hok with
          ⟨-, rfl⟩ | ⟨resolved, transfers, debit, r, L, grants, hp, -⟩
        · exact .refl S'
        · rw [hp.state]
          refine KeepsAssessments.of_append rfl fun e he ↦ ?_
          obtain rfl := List.mem_singleton.1 he
          rintro ⟨⟩

theorem paySlices_keeps (h : RentInvariant sha256 S) {q : RentBillRequest} {budget : ℤ}
    {slices : List (ObligationAssessment × ℤ)} {results : List RentPaymentResult}
    (hok : paySlices sha256 env feat q S budget slices = .ok (results, S')) :
    KeepsAssessments S S' := by
  induction slices generalizing S budget results with
  | nil =>
    rw [paySlices, pure_eq_ok, Prod.mk.injEq] at hok
    rw [← hok.2]
    exact .refl S
  | cons slice rest ih =>
    obtain ⟨ob, remaining⟩ := slice
    rw [paySlices] at hok
    split_ifs at hok
    · rw [pure_eq_ok, Prod.mk.injEq] at hok
      rw [← hok.2]
      exact .refl S
    · exact ih h hok
    · rw [bind_eq_ok] at hok
      obtain ⟨⟨sub, S₁⟩, hpay, hok⟩ := hok
      have hkeeps := payRent_keeps h hpay
      have hmoves : Moves sha256 (fun _ ↦ utcZone) feat.canonicalNowUtc S S₁ := payRent_moves h hpay
      simp only at hok
      split_ifs at hok
      · rw [bind_eq_ok] at hok
        obtain ⟨⟨subs, S₂⟩, hrest, hok⟩ := hok
        rw [pure_eq_ok, Prod.mk.injEq] at hok
        obtain rfl := hok.2
        exact hkeeps.trans (ih (h.moves hmoves).invariant hrest)
      · rw [pure_eq_ok, Prod.mk.injEq] at hok
        rw [← hok.2]
        exact hkeeps

theorem payRentBill_keeps (h : RentInvariant sha256 S) {q : RentBillRequest}
    {res : RentBillPaymentResult} (hok : payRentBill sha256 env feat S q = .ok (res, S')) :
    KeepsAssessments S S' := by
  have hrefl : ∀ res', (pure (res', S) : Except Raise (RentBillPaymentResult × RentState)) =
      .ok (res, S') → KeepsAssessments S S' := by
    intro res' hsame
    rw [pure_eq_ok, Prod.mk.injEq] at hsame
    rw [← hsame.2]
    exact .refl S
  unfold payRentBill at hok
  split at hok
  · exact hrefl _ hok
  · simp only at hok
    split_ifs at hok
    · exact hrefl _ hok
    · exact hrefl _ hok
    · exact hrefl _ hok
    · rw [bind_eq_ok] at hok
      obtain ⟨funded, -, hok⟩ := hok
      split_ifs at hok
      · rw [bind_eq_ok] at hok
        obtain ⟨⟨results, S₁⟩, hslices, hok⟩ := hok
        rw [pure_eq_ok, Prod.mk.injEq] at hok
        rw [← hok.2]
        exact paySlices_keeps h hslices
      · exact hrefl _ hok

theorem satisfyObligation_keeps {q : SatisfyObligationRequest} {e : ObligationAssessment}
    (hok : satisfyObligation S now q = .ok (e, S')) : KeepsAssessments S S' := by
  rw [satisfyObligation, demand_bind_eq_ok] at hok
  obtain ⟨a, -, hok⟩ := hok
  simp only [require_bind_eq_ok] at hok
  obtain ⟨-, -, -, -, hok⟩ := hok
  split at hok
  · rw [pure_eq_ok, Prod.mk.injEq] at hok
    rw [← hok.2]
    exact .refl S
  · rw [pure_eq_ok, Prod.mk.injEq] at hok
    rw [← hok.2]
    refine KeepsAssessments.of_append rfl fun f hf ↦ ?_
    obtain rfl := List.mem_singleton.1 hf
    cases q.method <;> simp [ObligationAssessment.IsAssessment]

theorem withdrawAssessment_keeps {q : WithdrawAssessmentRequest} {e : ObligationAssessment}
    (hok : withdrawAssessment S now q = .ok (e, S')) : KeepsAssessments S S' := by
  rw [withdrawAssessment, demand_bind_eq_ok] at hok
  obtain ⟨a, -, hok⟩ := hok
  split at hok
  · rw [pure_eq_ok, Prod.mk.injEq] at hok
    rw [← hok.2]
    exact .refl S
  · simp only [demand_bind_eq_ok, require_bind_eq_ok, pure_eq_ok, Prod.mk.injEq] at hok
    obtain ⟨cycle, -, -, -, -, hS⟩ := hok
    rw [← hS]
    refine KeepsAssessments.of_append rfl fun f hf ↦ ?_
    obtain rfl := List.mem_singleton.1 hf
    rintro ⟨⟩

theorem disableRent_keeps {effectiveAt : Instant} {outcome : FeatureOutcome}
    (hok : disableRent S now classId effectiveAt = .ok (outcome, S')) : KeepsAssessments S S' := by
  unfold disableRent at hok
  split_ifs at hok
  · rw [pure_eq_ok, Prod.mk.injEq] at hok
    rw [← hok.2]
    exact .refl S
  · rw [pure_eq_ok, Prod.mk.injEq] at hok
    rw [← hok.2]
    exact .refl S
  · rw [pure_eq_ok, Prod.mk.injEq] at hok
    rw [← hok.2]
    exact .refl S
  · simp only [bind_eq_ok, Prod.exists, pure_eq_ok, Prod.mk.injEq] at hok
    obtain ⟨-, -, n, S₁, hwithdraw, -, rfl⟩ := hok
    have hkeeps : KeepsAssessments S { S with features := S.features ++
        [{ classId := classId, effectiveAt := effectiveAt, economicVersionId := none }] } :=
      assessed_congr rfl
    refine hkeeps.trans ?_
    refine (tally_relates (I := fun _ ↦ True) hwithdraw trivial .refl (fun _ _ _ ↦ .trans) ?_).2
    intro cycle _ S₂ m S₃ _ hstep
    refine tally_relates (I := fun _ ↦ True) hstep trivial .refl (fun _ _ _ ↦ .trans) ?_
    intro a _ S₄ j S₅ _ hstep
    refine ⟨trivial, ?_⟩
    split_ifs at hstep
    · rw [pure_eq_ok, Prod.mk.injEq] at hstep
      rw [← hstep.2]
      exact .refl S₄
    · simp only [bind_eq_ok, Prod.exists, pure_eq_ok, Prod.mk.injEq] at hstep
      obtain ⟨e, S₆, hone, -, rfl⟩ := hstep
      exact withdrawAssessment_keeps hone

def RentAction.IsReconcile : RentAction → Prop
  | .reconcile .. => True
  | _ => False

theorem RentInvariant.step_keeps (h : RentInvariant sha256 S) {a : RentAction}
    (ha : ¬ a.IsReconcile) : KeepsAssessments S (rentStep sha256 zones S a) := by
  cases a with
  | payRent env feat q => exact committed_relates (.refl S) fun _ _ hok ↦ payRent_keeps h hok
  | payRentBill env feat q =>
    exact committed_relates (.refl S) fun _ _ hok ↦ payRentBill_keeps h hok
  | waive stamp classId seatId correlationId =>
    exact committed_relates (.refl S) fun _ _ hok ↦ satisfyObligation_keeps hok
  | withdraw stamp q =>
    exact committed_relates (.refl S) fun _ _ hok ↦ withdrawAssessment_keeps hok
  | reconcile env clock q => exact absurd trivial ha
  | supersede stamp classId policyUuid updates =>
    refine committed_relates (.refl S) fun _ _ hok ↦ ?_
    simp only [supersedeRentSettings, require_bind_eq_ok, pure_eq_ok, Prod.mk.injEq] at hok
    obtain ⟨-, -, rfl⟩ := hok
    exact assessed_congr rfl
  | enable stamp classId economicVersionId effectiveAt =>
    simp only [rentStep, enableRent]
    split_ifs <;> exact assessed_congr rfl
  | disable stamp classId effectiveAt =>
    exact committed_relates (.refl S) fun _ _ hok ↦ disableRent_keeps hok
  | enroll seats => exact assessed_congr rfl
  | settle seatId classId => exact assessed_congr rfl
  | post feat id effects intent => exact assessed_congr rfl
  | store events => exact assessed_congr rfl

end Frames

section Delinquency

variable {a : ObligationAssessment}

theorem RentInvariant.outstanding_iff (h : RentInvariant sha256 S) (ha : a ∈ S.assessmentEvents)
    (hass : a.IsAssessment) : Outstanding S a.correlationId ↔
      (∀ e ∈ S.assessmentEvents, e.correlationId = a.correlationId →
        e.eventType ≠ .withdrawn ∧ e.eventType ≠ .waived) ∧
      getPaidMagnitude S a.correlationId < resolveAssessmentAmount S a := by
  have hwithdrawn : (getWithdrawalEvent S a.correlationId).isSome = true ↔
      ∃ e ∈ S.assessmentEvents, e.correlationId = a.correlationId ∧ e.eventType = .withdrawn := by
    simp [getWithdrawalEvent]
  have hwaived : (getSatisfactionEvents S a.correlationId).any (·.eventType = .waived) = true ↔
      ∃ e ∈ S.assessmentEvents, e.correlationId = a.correlationId ∧ e.eventType = .waived := by
    simp only [getSatisfactionEvents, List.any_eq_true, List.mem_filter, decide_eq_true_eq]
    constructor
    · rintro ⟨e, ⟨he, hcorr, -⟩, hw⟩
      exact ⟨e, he, hcorr, hw⟩
    · rintro ⟨e, he, hcorr, hw⟩
      exact ⟨e, ⟨he, hcorr, .inr hw⟩, hw⟩
  simp only [Outstanding, getObligationState, h.found ha hass, Option.map_some, Option.any_some,
    decide_eq_true_eq, hwithdrawn, hwaived]
  constructor
  · intro hstatus
    split_ifs at hstatus with hw hs
    push Not at hw hs
    exact ⟨fun e he hcorr ↦ ⟨hw e he hcorr, hs.1 e he hcorr⟩, hs.2⟩
  · rintro ⟨hnone, hlt⟩
    rw [if_neg, if_neg]
    · rintro (⟨e, he, hcorr, hw⟩ | hle)
      · exact (hnone e he hcorr).2 hw
      · exact absurd hlt (not_lt.2 hle)
    · rintro ⟨e, he, hcorr, hw⟩
      exact (hnone e he hcorr).1 hw

/-- A rent that is no longer owed is never owed again. -/
theorem Extends.outstanding (h : RentInvariant sha256 S) (h' : RentInvariant sha256 S')
    (hx : Extends sha256 S S') (ha : a ∈ S.assessmentEvents) (hass : a.IsAssessment)
    (hout : Outstanding S' a.correlationId) : Outstanding S a.correlationId := by
  rw [h'.outstanding_iff (hx.mem_events ha) hass, hx.amount h ha hass] at hout
  rw [h.outstanding_iff ha hass]
  exact ⟨fun e he ↦ hout.1 e (hx.mem_events he),
    (hx.paid_le h a.correlationId).trans_lt hout.2⟩

end Delinquency

section Runs

variable (sha256 zones) in
/-- The instant to which an action reconciles, where it is a run that the rent takes part in: one
of its class, with its seat on the roster, that completes on settings that it finds. -/
def reconciledTo (a : ObligationAssessment) (S : RentState) : RentAction → Option Instant
  | .reconcile env clock q =>
    match reconcileRent sha256 (zones q.classId) env clock S q with
    | .error _ => none
    | .ok (_, S') =>
      if q.classId = a.classId ∧ (getRentSettings S q.classId).isSome ∧
          (∃ seat ∈ rentRoster S q.classId, seat.id = a.seatId) ∧ a ∈ S'.assessmentEvents then
        some (q.referenceTimeUtc.getD clock)
      else none
  | _ => none

variable (sha256 zones) in
/-- The instants of the runs that a rent takes part in. -/
def reconciliations (a : ObligationAssessment) : RentState → List RentAction → List Instant
  | _, [] => []
  | S, x :: xs => (reconciledTo sha256 zones a S x).toList ++
      reconciliations a (rentStep sha256 zones S x) xs

/-- What the late fees rest on: the invariant of the domain, cycles told apart by their numbers,
and no late fee without its rent. -/
structure FeeInvariant (sha256 : String → String) (S : RentState) : Prop where
  invariant : RentInvariant sha256 S
  distinct : CyclesDistinct S
  arise : ∀ x k, Assessed S (lateCorrelation x k) → Assessed S x

theorem Extends.assessed (hx : Extends sha256 S S') {x : String} (h : Assessed S x) :
    Assessed S' x := by
  obtain ⟨a, ha, hass, hcorr⟩ := h
  exact ⟨a, hx.mem_events ha, hass, hcorr⟩

theorem Outstanding.isAssessed {x : String} (h : Outstanding S x) : Assessed S x := by
  obtain ⟨a, ha⟩ := h.assessed
  obtain ⟨hmem, hcorr, hass⟩ := getAssessmentForCorrelation_spec ha
  exact ⟨a, hmem, hass, hcorr⟩

theorem FeeInvariant.step (h : FeeInvariant sha256 S) (x : RentAction) :
    FeeInvariant sha256 (rentStep sha256 zones S x) := by
  have hp : Progress sha256 (x.instant.getD 0) S (rentStep sha256 zones S x) := h.invariant.step x 0
  have hmoves : Moves sha256 zones (x.instant.getD 0) S (rentStep sha256 zones S x) :=
    h.invariant.step_moves x 0
  refine ⟨hp.invariant, h.distinct.moves hmoves, ?_⟩
  intro y k hlate
  by_cases hx : x.IsReconcile
  · cases x with
    | reconcile env clock q =>
      simp only [rentStep] at hlate hp ⊢
      cases hok : reconcileRent sha256 (zones q.classId) env clock S q with
      | error e =>
        rw [hok] at hlate
        exact h.arise y k hlate
      | ok out =>
        rw [hok] at hlate hp
        obtain ⟨res, S'⟩ := out
        rcases (reconcileRent_charges h.invariant hok y k).1 hlate with hold | ⟨-, hnew⟩
        · exact hp.kept.assessed (h.arise y k hold)
        · obtain ⟨cycle, -, -, terms, -, seat, -, howed, -, -, rfl⟩ := hnew
          exact howed.isAssessed
    | _ => exact hx.elim
  · have hkeeps : KeepsAssessments S (rentStep sha256 zones S x) := h.invariant.step_keeps hx
    exact (hkeeps y).2 (h.arise y k ((hkeeps _).1 hlate))

variable {a : ObligationAssessment} {c : BillCycle} {r : RentSettings} {k : ℕ}

structure RentOf (S : RentState) (a : ObligationAssessment) (c : BillCycle) (r : RentSettings) :
    Prop where
  isAssessment : a.IsAssessment
  obligationType : a.obligationType = .rent
  billCycle : billCycle S a.billCycleId = some c
  policy : rentPolicy S a.policyUuid = some r

theorem RentInvariant.rentOf (h : RentInvariant sha256 S) (ha : a ∈ S.assessmentEvents)
    (hass : a.IsAssessment) (hrent : a.obligationType = .rent) : ∃ c r, RentOf S a c r := by
  obtain ⟨c, hc, hfor⟩ := h.assessments a ha hass
  obtain ⟨r, hr, -⟩ := h.policy ha hass
  exact ⟨c, r, hass, hrent, by rw [hfor.billCycleId, h.billCycle hc], hr⟩

theorem RentOf.assessedFor (ho : RentOf S a c r) (h : RentInvariant sha256 S)
    (ha : a ∈ S.assessmentEvents) : c ∈ S.billCycles ∧ a.AssessedFor c ∧
      a.correlationId = rentCorrelation a.classId a.seatId c.cycleNumber := by
  obtain ⟨d, hd, hfor⟩ := h.assessments a ha ho.isAssessment
  have hcd := ho.billCycle
  rw [hfor.billCycleId, h.billCycle hd, Option.some.injEq] at hcd
  subst hcd
  refine ⟨hd, hfor, ?_⟩
  rcases hfor.named with ⟨-, -, -, hcorr⟩ | ⟨hlate, -⟩
  · exact hcorr
  · rw [ho.obligationType] at hlate
    cases hlate

/-- The late fees that an action makes for a rent: those of the periods that have begun by the
instant that it reconciles to, where the rent is still owed. -/
theorem FeeInvariant.step_fees (h : FeeInvariant sha256 S) {x : RentAction}
    (ha : a ∈ (rentStep sha256 zones S x).assessmentEvents)
    (ho : RentOf (rentStep sha256 zones S x) a c r) :
    Assessed (rentStep sha256 zones S x) (lateCorrelation a.correlationId k) ↔
      Assessed S (lateCorrelation a.correlationId k) ∨
        ∃ t, reconciledTo sha256 zones a S x = some t ∧
          Outstanding (rentStep sha256 zones S x) a.correlationId ∧ 1 ≤ k ∧
            k ≤ latePeriods (zones a.classId) r c.graceBoundaryAt t := by
  have h' : FeeInvariant sha256 (rentStep sha256 zones S x) := h.step x
  by_cases hx : x.IsReconcile
  · cases x with
    | reconcile env clock q =>
      simp only [rentStep, reconciledTo] at ha ho h' ⊢
      cases hok : reconcileRent sha256 (zones q.classId) env clock S q with
      | error e => simp [committed]
      | ok out =>
        obtain ⟨res, S'⟩ := out
        rw [hok, committed_ok] at ha ho h'
        obtain ⟨hc, hfor, hcorr⟩ := ho.assessedFor h'.invariant ha
        rw [committed_ok]
        simp only [ha, and_true]
        refine (reconcileRent_charges h.invariant hok _ k).trans (or_congr_right ?_)
        constructor
        · rintro ⟨hsettings, cycle, hcycle, hclass, terms, hterms, seat, hseat, howed, hk, hle, heq⟩
          rw [hcorr] at heq
          obtain ⟨hqclass, hqseat, hnumber⟩ := rentCorrelation_inj heq
          have hlineage : cycle.internalRef = c.internalRef := by
            rw [h'.invariant.cycleLineages cycle hcycle, h'.invariant.cycleLineages c hc, hclass,
              ← hqclass, hfor.classId]
          obtain rfl := h'.distinct.unique hcycle hc hlineage hnumber.symm
          have hpolicy := ho.policy
          rw [hfor.policyUuid, hterms, Option.some.injEq] at hpolicy
          subst hpolicy
          rw [← hqclass, ← hqseat, ← hcorr] at howed
          exact ⟨_, if_pos ⟨hqclass.symm, hsettings, seat, hseat, hqseat.symm⟩, howed, hk,
            by rwa [hqclass]⟩
        · rintro ⟨t, ht, howed, hk, hle⟩
          split_ifs at ht with hpart
          obtain ⟨hqclass, hsettings, seat, hseat, hseatId⟩ := hpart
          obtain rfl := Option.some.inj ht
          have heq : a.correlationId = rentCorrelation q.classId seat.id c.cycleNumber := by
            rw [hcorr, hqclass, hseatId]
          refine ⟨hsettings, c, hc, hfor.classId.symm.trans hqclass.symm, r, ?_, seat, hseat, ?_, hk,
            ?_, heq⟩
          · rw [← hfor.policyUuid, ho.policy]
          · rwa [← heq]
          · rwa [hqclass]
    | _ => exact hx.elim
  · rw [h.invariant.step_keeps hx]
    have hnone : reconciledTo sha256 zones a S x = none := by
      cases x with
      | reconcile env clock q => exact absurd trivial hx
      | _ => rfl
    simp [hnone]

theorem RentOf.earlier (ho : RentOf S' a c r) (h : RentInvariant sha256 S)
    (h' : RentInvariant sha256 S') (hx : Extends sha256 S S') (ha : a ∈ S.assessmentEvents) :
    ∃ r₀, RentOf S a c r₀ ∧ r.terms = r₀.terms := by
  obtain ⟨c₀, r₀, ho₀⟩ := h.rentOf ha ho.isAssessment ho.obligationType
  obtain ⟨hc₀, hfor, -⟩ := ho₀.assessedFor h ha
  have hcycle := ho.billCycle
  rw [hfor.billCycleId, h'.billCycle (hx.cycles.subset hc₀), Option.some.injEq] at hcycle
  subst hcycle
  obtain ⟨r', hr', hterms⟩ := hx.policies _ r₀ ho₀.policy
  rw [ho.policy, Option.some.injEq] at hr'
  subst hr'
  exact ⟨r₀, ho₀, hterms⟩

theorem reconciledTo_mem {x : RentAction} {t : Instant}
    (h : reconciledTo sha256 zones a S x = some t) :
    a ∈ (rentStep sha256 zones S x).assessmentEvents := by
  cases x with
  | reconcile env clock q =>
    simp only [reconciledTo] at h
    cases hok : reconcileRent sha256 (zones q.classId) env clock S q with
    | error e =>
      rw [hok] at h
      cases h
    | ok out =>
      obtain ⟨res, S'⟩ := out
      rw [hok] at h
      simp only at h
      split_ifs at h with hpart
      simp only [rentStep, hok]
      exact hpart.2.2.2
  | _ => cases h

theorem FeeInvariant.run (h : FeeInvariant sha256 S) (xs : List RentAction) :
    FeeInvariant sha256 (run (rentStep sha256 zones) S xs) :=
  run_invariant h (fun _ x hS ↦ hS.step x) xs

theorem FeeInvariant.rent_mem (h : FeeInvariant sha256 S) (h' : RentInvariant sha256 S')
    (hx : Extends sha256 S S') (ha : a ∈ S'.assessmentEvents) (hass : a.IsAssessment)
    (hlate : Assessed S (lateCorrelation a.correlationId k)) : a ∈ S.assessmentEvents := by
  obtain ⟨b, hb, hbss, hcorr⟩ := h.arise _ _ hlate
  rwa [← h'.assessedOnce b (hx.mem_events hb) a ha hbss hass hcorr]

/-- Over a run, the late fees of a rent that is still owed are those of the periods that have begun
by one of its reconciliations. -/
theorem FeeInvariant.run_fees (h : FeeInvariant sha256 S) {xs : List RentAction}
    (ha : a ∈ (Lib.Runs.run (rentStep sha256 zones) S xs).assessmentEvents)
    (ho : RentOf (Lib.Runs.run (rentStep sha256 zones) S xs) a c r)
    (howed : Outstanding (Lib.Runs.run (rentStep sha256 zones) S xs) a.correlationId) :
    Assessed (Lib.Runs.run (rentStep sha256 zones) S xs) (lateCorrelation a.correlationId k) ↔
      Assessed S (lateCorrelation a.correlationId k) ∨
        ∃ t ∈ reconciliations sha256 zones a S xs, 1 ≤ k ∧
          k ≤ latePeriods (zones a.classId) r c.graceBoundaryAt t := by
  induction xs generalizing S with
  | nil => simp [reconciliations]
  | cons x xs ih =>
    have h₁ : FeeInvariant sha256 (rentStep sha256 zones S x) := h.step x
    have hx₁ : Extends sha256 S (rentStep sha256 zones S x) := (h.invariant.step x 0).kept
    have hlater : RentInvariant sha256
        (Lib.Runs.run (rentStep sha256 zones) (rentStep sha256 zones S x) xs) ∧
          Extends sha256 (rentStep sha256 zones S x)
            (Lib.Runs.run (rentStep sha256 zones) (rentStep sha256 zones S x) xs) :=
      h₁.invariant.run xs
    obtain ⟨h₂, hx₂⟩ := hlater
    rw [run_cons] at ha ho howed ⊢
    rw [ih h₁ ha ho howed]
    simp only [reconciliations, List.mem_append, Option.mem_toList]
    by_cases hmem : a ∈ (rentStep sha256 zones S x).assessmentEvents
    · obtain ⟨r₁, ho₁, hterms⟩ := ho.earlier h₁.invariant h₂ hx₂ hmem
      have howed₁ := hx₂.outstanding h₁.invariant h₂ hmem ho.isAssessment howed
      rw [h.step_fees hmem ho₁, or_assoc]
      refine or_congr_right ?_
      simp only [howed₁, true_and, ← latePeriods_terms hterms, or_and_right, exists_or]
    · have hnew : ¬ Assessed (rentStep sha256 zones S x)
          (lateCorrelation a.correlationId k) :=
        fun hlate ↦ hmem (h₁.rent_mem h₂ hx₂ ha ho.isAssessment hlate)
      have hnone : ∀ t, reconciledTo sha256 zones a S x ≠ some t :=
        fun t ht ↦ hmem (reconciledTo_mem ht)
      simp only [hnew, mt hx₁.assessed hnew, false_or, hnone]

/-- A rent that is no longer owed draws no further late fee. -/
theorem FeeInvariant.run_settled (h : FeeInvariant sha256 S) (ha : a ∈ S.assessmentEvents)
    (hass : a.IsAssessment) (hrent : a.obligationType = .rent)
    (hnot : ¬ Outstanding S a.correlationId) (xs : List RentAction) :
    Assessed (Lib.Runs.run (rentStep sha256 zones) S xs) (lateCorrelation a.correlationId k) ↔
      Assessed S (lateCorrelation a.correlationId k) := by
  induction xs generalizing S with
  | nil => exact Iff.rfl
  | cons x xs ih =>
    have h₁ : FeeInvariant sha256 (rentStep sha256 zones S x) := h.step x
    have hx₁ : Extends sha256 S (rentStep sha256 zones S x) := (h.invariant.step x 0).kept
    have ha₁ := hx₁.mem_events ha
    have hnot₁ := mt (hx₁.outstanding h.invariant h₁.invariant ha hass) hnot
    obtain ⟨c, r, ho⟩ := h₁.invariant.rentOf ha₁ hass hrent
    rw [run_cons, ih h₁ ha₁ hnot₁, h.step_fees ha₁ ho]
    simp [hnot₁]

def lateFeesOf (S : RentState) (a : ObligationAssessment) : List ObligationAssessment :=
  (getObligationsArisingFrom S a.correlationId).filter (·.obligationType = .lateFee)

theorem RentInvariant.mem_lateFeesOf (h : RentInvariant sha256 S) (ha : a ∈ S.assessmentEvents)
    (ho : RentOf S a c r) {f : ObligationAssessment} :
    f ∈ lateFeesOf S a ↔ f ∈ S.assessmentEvents ∧ f.IsAssessment ∧
      ∃ k, f.correlationId = lateCorrelation a.correlationId k := by
  obtain ⟨-, -, hcorr⟩ := ho.assessedFor h ha
  rw [lateFeesOf, List.mem_filter, mem_arisingFrom, decide_eq_true_eq]
  constructor
  · rintro ⟨⟨-, hf, hsource, hass⟩, hlate⟩
    obtain ⟨d, -, hfor⟩ := h.assessments f hf hass
    rcases hfor.named with ⟨hrent, -⟩ | ⟨-, -, hsource', k, hk⟩
    · rw [hlate] at hrent
      cases hrent
    · rw [hsource, Option.some.injEq] at hsource'
      exact ⟨hf, hass, k, by rw [hk, hsource']⟩
  · rintro ⟨hf, hass, k, hk⟩
    obtain ⟨d, -, hfor⟩ := h.assessments f hf hass
    rcases hfor.named with ⟨-, -, -, hcorr'⟩ | ⟨hlate, -, hsource, j, hj⟩
    · exact (rentCorrelation_ne_lateCorrelation _ _ _ _ _ (hcorr'.symm.trans hk)).elim
    · have heq := (lateCorrelation_inj (hj.symm.trans hk)).1
      refine ⟨⟨?_, hf, by rw [hsource, heq], hass⟩, hlate⟩
      rw [hcorr]
      intro hempty
      have hlist := congrArg String.toList hempty
      simp [rentCorrelation, seatLineage, rentLineage, String.toList_append] at hlist

theorem RentInvariant.lateFees_nodup (h : RentInvariant sha256 S) (ha : a ∈ S.assessmentEvents)
    (ho : RentOf S a c r) : ((lateFeesOf S a).map (·.correlationId)).Nodup := by
  have hnodup : (lateFeesOf S a).Nodup := by
    refine List.Nodup.filter _ ?_
    unfold getObligationsArisingFrom
    split_ifs
    · exact List.nodup_nil
    · exact (List.perm_insertionSort _ _).nodup_iff.2 (h.events_nodup.filter _)
  refine List.Nodup.map_on ?_ hnodup
  intro f hf g hg hcorr
  obtain ⟨hfm, hfass, -⟩ := (h.mem_lateFeesOf ha ho).1 hf
  obtain ⟨hgm, hgass, -⟩ := (h.mem_lateFeesOf ha ho).1 hg
  exact h.assessedOnce f hfm g hgm hfass hgass hcorr

theorem RentInvariant.lateFee_iff (h : RentInvariant sha256 S) (ha : a ∈ S.assessmentEvents)
    (ho : RentOf S a c r) {x : String} : x ∈ (lateFeesOf S a).map (·.correlationId) ↔
      ∃ k, x = lateCorrelation a.correlationId k ∧ Assessed S x := by
  rw [List.mem_map]
  constructor
  · rintro ⟨f, hf, rfl⟩
    obtain ⟨hfm, hfass, k, hk⟩ := (h.mem_lateFeesOf ha ho).1 hf
    exact ⟨k, hk, f, hfm, hfass, rfl⟩
  · rintro ⟨k, hk, f, hfm, hfass, hcorr⟩
    exact ⟨f, (h.mem_lateFeesOf ha ho).2 ⟨hfm, hfass, k, hcorr.trans hk⟩, hcorr⟩

variable (sha256 zones) in
/-- What the late fees of a rent come to after a run: one for each period that has begun by the
latest reconciliation that it took part in, none before its grace had ended, and no more once it is
settled. -/
structure LateFeesFollowTime (start : RentState) (xs : List RentAction) (a : ObligationAssessment)
    (c : BillCycle) (r : RentSettings) : Prop where
  numbered : Outstanding (Lib.Runs.run (rentStep sha256 zones) start xs) a.correlationId →
    ∀ t ∈ reconciliations sha256 zones a start xs,
      (∀ u ∈ reconciliations sha256 zones a start xs, u ≤ t) →
        ((lateFeesOf (Lib.Runs.run (rentStep sha256 zones) start xs) a).map (·.correlationId)).Perm
          ((List.range (latePeriods (zones a.classId) r c.graceBoundaryAt t)).map
            (fun k ↦ lateCorrelation a.correlationId (k + 1)))
  unreconciled : Outstanding (Lib.Runs.run (rentStep sha256 zones) start xs) a.correlationId →
    reconciliations sha256 zones a start xs = [] →
      lateFeesOf (Lib.Runs.run (rentStep sha256 zones) start xs) a = []
  once : ((lateFeesOf (Lib.Runs.run (rentStep sha256 zones) start xs) a).map
    (·.correlationId)).Nodup
  timely : ∀ x, ∀ f ∈ lateFeesOf (rentStep sha256 zones
      (Lib.Runs.run (rentStep sha256 zones) start xs) x) a,
    f ∉ (Lib.Runs.run (rentStep sha256 zones) start xs).assessmentEvents →
      ∃ t grace, reconciledTo sha256 zones a
        (Lib.Runs.run (rentStep sha256 zones) start xs) x = some t ∧
          c.graceBoundaryAt = some grace ∧ grace < t ∧
            Outstanding (Lib.Runs.run (rentStep sha256 zones) start xs) a.correlationId
  settled : ¬ Outstanding (Lib.Runs.run (rentStep sha256 zones) start xs) a.correlationId →
    ∀ ys, lateFeesOf (Lib.Runs.run (rentStep sha256 zones) start (xs ++ ys)) a =
      lateFeesOf (Lib.Runs.run (rentStep sha256 zones) start xs) a

theorem FeeInvariant.empty (seatClass : ℕ → Option String)
    (premiums : String → String → Option ℤ) :
    FeeInvariant sha256 (.empty seatClass premiums) where
  invariant := .empty seatClass premiums
  distinct := .nil
  arise := by simp [Assessed, RentState.empty]

/-- The late fees of the periods that have begun by the latest of the reconciliations. -/
theorem FeeInvariant.numbered (h : FeeInvariant sha256 S)
    (hnone : ∀ k, ¬ Assessed S (lateCorrelation a.correlationId k)) {xs : List RentAction}
    (ha : a ∈ (Lib.Runs.run (rentStep sha256 zones) S xs).assessmentEvents)
    (ho : RentOf (Lib.Runs.run (rentStep sha256 zones) S xs) a c r)
    (howed : Outstanding (Lib.Runs.run (rentStep sha256 zones) S xs) a.correlationId)
    {t : Instant} (ht : t ∈ reconciliations sha256 zones a S xs)
    (hlatest : ∀ u ∈ reconciliations sha256 zones a S xs, u ≤ t) :
    ((lateFeesOf (Lib.Runs.run (rentStep sha256 zones) S xs) a).map (·.correlationId)).Perm
      ((List.range (latePeriods (zones a.classId) r c.graceBoundaryAt t)).map
        (fun k ↦ lateCorrelation a.correlationId (k + 1))) := by
  have hrun : FeeInvariant sha256 (Lib.Runs.run (rentStep sha256 zones) S xs) := h.run xs
  have hafter := hrun.invariant
  have hnodup : ((List.range (latePeriods (zones a.classId) r c.graceBoundaryAt t)).map
      (fun k ↦ lateCorrelation a.correlationId (k + 1))).Nodup := by
    refine List.Nodup.map (fun j k hjk ↦ ?_) List.nodup_range
    have hsucc := (lateCorrelation_inj hjk).2
    omega
  rw [List.perm_ext_iff_of_nodup (hafter.lateFees_nodup ha ho) hnodup]
  intro x
  rw [hafter.lateFee_iff ha ho, List.mem_map]
  constructor
  · rintro ⟨k, rfl, hlate⟩
    rcases (h.run_fees ha ho howed).1 hlate with hold | ⟨u, hu, hk, hle⟩
    · exact absurd hold (hnone k)
    · have hmono : latePeriods (zones a.classId) r c.graceBoundaryAt u ≤
          latePeriods (zones a.classId) r c.graceBoundaryAt t :=
        latePeriods_mono r c.graceBoundaryAt (hlatest u hu)
      exact ⟨k - 1, List.mem_range.2 (by omega), by rw [Nat.sub_add_cancel hk]⟩
  · rintro ⟨k, hk, rfl⟩
    have hlt := List.mem_range.1 hk
    exact ⟨k + 1, rfl, (h.run_fees ha ho howed).2 (.inr ⟨t, ht, by omega, hlt⟩)⟩

theorem lateFeesOf_eq (h : RentInvariant sha256 S) (h' : RentInvariant sha256 S')
    (hx : Extends sha256 S S') (ha : a ∈ S.assessmentEvents) (ho : RentOf S a c r)
    (hsame : ∀ k, Assessed S' (lateCorrelation a.correlationId k) →
      Assessed S (lateCorrelation a.correlationId k)) : lateFeesOf S' a = lateFeesOf S a := by
  obtain ⟨es, hes⟩ := hx.events
  obtain ⟨-, -, hcorr⟩ := ho.assessedFor h ha
  have hnil : es.filter (fun e ↦ e.sourceCorrelationId = some a.correlationId ∧
      e.eventType = .assessment) = [] := by
    rw [List.filter_eq_nil_iff]
    intro e he
    simp only [decide_eq_true_eq, not_and]
    intro hsource hass
    have hmem : e ∈ S'.assessmentEvents := by
      rw [← hes]
      exact List.mem_append_right _ he
    obtain ⟨d, -, hfor⟩ := h'.assessments e hmem hass
    rcases hfor.named with ⟨-, -, hnone, -⟩ | ⟨-, -, hsource', k, hk⟩
    · rw [hnone] at hsource
      cases hsource
    · rw [hsource, Option.some.injEq] at hsource'
      rw [← hsource'] at hk
      obtain ⟨f, hf, hfass, hfcorr⟩ := hsame k ⟨e, hmem, hass, hk⟩
      obtain rfl := h'.assessedOnce f (hx.mem_events hf) e hmem hfass hass (hfcorr.trans hk.symm)
      have hnodup := h'.events_nodup
      rw [← hes, List.nodup_append] at hnodup
      exact hnodup.2.2 f hf f he rfl
  unfold lateFeesOf getObligationsArisingFrom
  rw [← hes, List.filter_append, hnil, List.append_nil]

/-- Over every run, the late fees of a rent are a function of the time and of its frozen terms. -/
theorem late_fees_follow_time (sha256 : String → String) (zones : String → ClassZone)
    (seatClass : ℕ → Option String) (premiums : String → String → Option ℤ)
    (xs : List RentAction) (a : ObligationAssessment)
    (ha : a ∈ (Lib.Runs.run (rentStep sha256 zones)
      (.empty seatClass premiums) xs).assessmentEvents)
    (hass : a.IsAssessment) (hrent : a.obligationType = .rent) :
    ∃ c r, RentOf (Lib.Runs.run (rentStep sha256 zones) (.empty seatClass premiums) xs) a c r ∧
      LateFeesFollowTime sha256 zones (.empty seatClass premiums) xs a c r := by
  have h₀ : FeeInvariant sha256 (.empty seatClass premiums) := .empty seatClass premiums
  have hnone : ∀ k, ¬ Assessed (.empty seatClass premiums)
      (lateCorrelation a.correlationId k) := by
    simp [Assessed, RentState.empty]
  have h : FeeInvariant sha256
      (Lib.Runs.run (rentStep sha256 zones) (.empty seatClass premiums) xs) := h₀.run xs
  obtain ⟨c, r, ho⟩ := h.invariant.rentOf ha hass hrent
  refine ⟨c, r, ho, ?_, ?_, h.invariant.lateFees_nodup ha ho, ?_, ?_⟩
  · exact fun howed t ht hlatest ↦ h₀.numbered hnone ha ho howed ht hlatest
  · intro howed hempty
    rw [List.eq_nil_iff_forall_not_mem]
    intro f hf
    obtain ⟨hfm, hfass, k, hk⟩ := (h.invariant.mem_lateFeesOf ha ho).1 hf
    have hlate := (h₀.run_fees ha ho howed).1 ⟨f, hfm, hfass, hk⟩
    rw [hempty] at hlate
    rcases hlate with hold | ⟨t, ht, -⟩
    · exact hnone k hold
    · cases ht
  · intro x f hf hnew
    have h₁ : FeeInvariant sha256 (rentStep sha256 zones
        (Lib.Runs.run (rentStep sha256 zones) (.empty seatClass premiums) xs) x) := h.step x
    have hx₁ := ((h.invariant.step x 0).kept : Extends sha256 _ (rentStep sha256 zones
      (Lib.Runs.run (rentStep sha256 zones) (.empty seatClass premiums) xs) x))
    obtain ⟨c₁, r₁, ho₁⟩ := h₁.invariant.rentOf (hx₁.mem_events ha) hass hrent
    obtain ⟨r₂, ho₂, -⟩ := ho₁.earlier h.invariant h₁.invariant hx₁ ha
    obtain rfl : c₁ = c := by
      have hcycle := ho₂.billCycle
      rw [ho.billCycle, Option.some.injEq] at hcycle
      exact hcycle.symm
    obtain ⟨hfm, hfass, k, hk⟩ := (h₁.invariant.mem_lateFeesOf (hx₁.mem_events ha) ho₁).1 hf
    rcases (h.step_fees (hx₁.mem_events ha) ho₁).1 ⟨f, hfm, hfass, hk⟩ with hold | hcharged
    · obtain ⟨g, hg, hgass, hgcorr⟩ := hold
      obtain rfl := h₁.invariant.assessedOnce g (hx₁.mem_events hg) f hfm hgass hfass
        (hgcorr.trans hk.symm)
      exact absurd hg hnew
    · obtain ⟨t, ht, howed, hone, hle⟩ := hcharged
      obtain ⟨grace, hgrace, hlt⟩ := latePeriods_pos (hone.trans hle)
      exact ⟨t, grace, ht, hgrace, hlt,
        hx₁.outstanding h.invariant h₁.invariant ha hass howed⟩
  · intro hnot ys
    rw [run_append]
    obtain ⟨h', hx⟩ : RentInvariant sha256 (Lib.Runs.run (rentStep sha256 zones)
        (Lib.Runs.run (rentStep sha256 zones) (.empty seatClass premiums) xs) ys) ∧
          Extends sha256 (Lib.Runs.run (rentStep sha256 zones) (.empty seatClass premiums) xs)
            (Lib.Runs.run (rentStep sha256 zones)
              (Lib.Runs.run (rentStep sha256 zones) (.empty seatClass premiums) xs) ys) :=
      h.invariant.run ys
    exact lateFeesOf_eq h.invariant h' hx ha ho
      fun k ↦ (h.run_settled ha hass hrent hnot ys).1

end Runs

section Samples

instance (S : RentState) (a : ObligationAssessment) (c : BillCycle) (r : RentSettings) :
    Decidable (RentOf S a c r) :=
  decidable_of_iff (a.eventType = .assessment ∧ a.obligationType = .rent ∧
    billCycle S a.billCycleId = some c ∧ rentPolicy S a.policyUuid = some r)
    ⟨fun ⟨h₁, h₂, h₃, h₄⟩ ↦ ⟨h₁, h₂, h₃, h₄⟩, fun h ↦ ⟨h.1, h.2, h.3, h.4⟩⟩

/-- A weekly rent, due on day 10, that goes unpaid until day 16: its grace ends on day 13, and a
late period begins every two days. -/
def unpaidRent : List RentAction :=
  assessedAhead (fun r ↦ { r with
      latePenaltyType := some "recurring", latePenaltyFrequencyDays := some 2 }) ++
    [.reconcile sampleSurroundings (day 16) { classId := "c" }]

theorem late_fees_follow_time_unpaid :
    ∃ a ∈ (Lib.Runs.run (rentStep id fun _ ↦ utcZone) sampleStart unpaidRent).assessmentEvents,
      a.correlationId = "rent:c:1:cycle:1" ∧
        ((lateFeesOf (Lib.Runs.run (rentStep id fun _ ↦ utcZone) sampleStart unpaidRent) a).map
          (·.correlationId)).Perm ["rent:c:1:cycle:1:late:1", "rent:c:1:cycle:1:late:2"] := by
  obtain ⟨a, ha, hass, hrent, hcorr, howed, htimes, hperiods⟩ :
      ∃ a ∈ (Lib.Runs.run (rentStep id fun _ ↦ utcZone) sampleStart unpaidRent).assessmentEvents,
        a.eventType = .assessment ∧ a.obligationType = .rent ∧
          a.correlationId = "rent:c:1:cycle:1" ∧
          Outstanding (Lib.Runs.run (rentStep id fun _ ↦ utcZone) sampleStart unpaidRent)
            a.correlationId ∧
          reconciliations id (fun _ ↦ utcZone) a sampleStart unpaidRent = [day 5, day 16] ∧
          ∀ c ∈ (Lib.Runs.run (rentStep id fun _ ↦ utcZone) sampleStart unpaidRent).billCycles,
            ∀ r ∈ (Lib.Runs.run (rentStep id fun _ ↦ utcZone) sampleStart unpaidRent).rentSettings,
              RentOf (Lib.Runs.run (rentStep id fun _ ↦ utcZone) sampleStart unpaidRent) a c r →
                latePeriods utcZone r c.graceBoundaryAt (day 16) = 2 := by
    decide +kernel
  obtain ⟨c, r, ho, hfees⟩ := late_fees_follow_time id (fun _ ↦ utcZone) _ _ unpaidRent a ha hass
    hrent
  obtain ⟨hc, -, -⟩ := ho.assessedFor (reachable_invariant id _ _ _ unpaidRent) ha
  have hperm := hfees.numbered howed (day 16) (by
    rw [sampleStart] at htimes
    rw [htimes]
    decide) (by
    rw [sampleStart] at htimes
    rw [htimes]
    decide)
  have htwo := hperiods c hc r (rentPolicy_spec ho.policy).2.2 ho
  refine ⟨a, ha, hcorr, ?_⟩
  rw [htwo, hcorr] at hperm
  exact hperm

/-- A class whose student's seat is unclaimed after the rent of day 10 was assessed. -/
def unclaimedSeat : RentState :=
  Lib.Runs.run (rentStep id fun _ ↦ utcZone) sampleStart
    (assessedAhead id ++ [.enroll [⟨1, "c", "student", none, false⟩]])

/-- A run at day 14 leaves the rent of a seat that is unclaimed by then owed, past its grace, and
without a late fee. -/
theorem unclaimed_seat_draws_no_late_fee :
    ∃ res S, reconcileRent id utcZone sampleSurroundings (day 14) unclaimedSeat
        { classId := "c" } = .ok (res, S) ∧
      ∃ a ∈ S.assessmentEvents, ∃ c ∈ S.billCycles, ∃ r ∈ S.rentSettings, RentOf S a c r ∧
        Outstanding S a.correlationId ∧
          latePeriods utcZone r c.graceBoundaryAt (day 14) = 1 ∧ lateFeesOf S a = [] := by
  have hout : (reconcileRent id utcZone sampleSurroundings (day 14) unclaimedSeat
      { classId := "c" }).toOption.any (fun out ↦ decide (∃ a ∈ out.2.assessmentEvents,
        ∃ c ∈ out.2.billCycles, ∃ r ∈ out.2.rentSettings, RentOf out.2 a c r ∧
          Outstanding out.2 a.correlationId ∧
            latePeriods utcZone r c.graceBoundaryAt (day 14) = 1 ∧
              lateFeesOf out.2 a = [])) = true := by
    decide +kernel
  cases hok : reconcileRent id utcZone sampleSurroundings (day 14) unclaimedSeat
      { classId := "c" } with
  | error e =>
    rw [hok] at hout
    cases hout
  | ok out =>
    rw [hok] at hout
    exact ⟨out.1, out.2, rfl, of_decide_eq_true hout⟩

end Samples

end TokenHub.Rent
