import TokenHub.Rent.Lifecycle
import TokenHub.Rent.Reconcile
import TokenHub.Rent.Posting

set_option autoImplicit false

namespace TokenHub.Rent

open Ledger Lib.Checks Lib.SequencedLog

variable {sha256 : String → String} {zones : String → ClassZone} {now clock : Instant}
  {S S' : RentState}

section Assessments

def assessmentEvent (S : RentState) (now : Instant) (q : AssessmentRequest) :
    ObligationAssessment where
  id := S.assessmentEvents.length + 1
  seatId := q.seatId
  classId := q.classId
  internalRef := q.internalRef
  correlationId := q.correlationId
  sourceCorrelationId := q.sourceCorrelationId
  eventType := .assessment
  obligationType := q.obligationType
  policyUuid := q.policyUuid
  timestamp := now
  billCycleId := q.billCycleId

theorem assessObligation_ok {q : AssessmentRequest} {created : Bool}
    (h : assessObligation S clock q = .ok (created, S')) :
    (created = false ∧ S' = S ∧
        checkIdempotencyAssessment S q.internalRef q.correlationId = true) ∨
      (created = true ∧ S' = addEvent S (assessmentEvent S clock q) ∧
        checkIdempotencyAssessment S q.internalRef q.correlationId = false) := by
  simp only [assessObligation, require_bind_eq_ok] at h
  obtain ⟨-, -, -, h⟩ := h
  split_ifs at h with hcheck
  · rw [pure_eq_ok, Prod.mk.injEq] at h
    exact .inl ⟨h.1.symm, h.2.symm, hcheck⟩
  · rw [pure_eq_ok, Prod.mk.injEq] at h
    exact .inr ⟨h.1.symm, h.2.symm, by simpa using hcheck⟩

namespace ObligationAssessment

variable {a b : ObligationAssessment} {c d : BillCycle}

theorem AssessedFor.internalRef_eq (ha : a.AssessedFor c) (hb : b.AssessedFor d)
    (h : a.correlationId = b.correlationId) : a.internalRef = b.internalRef := by
  rcases ha.named with ⟨-, hra, -, hca⟩ | ⟨-, hra, -, m, hca⟩ <;>
    rcases hb.named with ⟨-, hrb, -, hcb⟩ | ⟨-, hrb, -, n, hcb⟩ <;> rw [hca, hcb] at h
  · obtain ⟨hclass, hseat, -⟩ := rentCorrelation_inj h
    rw [hra, hrb, hclass, hseat]
  · exact (rentCorrelation_ne_lateCorrelation _ _ _ _ _ h).elim
  · exact (rentCorrelation_ne_lateCorrelation _ _ _ _ _ h.symm).elim
  · obtain ⟨hclass, hseat, -⟩ := rentCorrelation_inj (lateCorrelation_inj h).1
    rw [hra, hrb, hclass, hseat]

end ObligationAssessment

theorem RentInvariant.assessment_of (h : RentInvariant sha256 S) {e : ObligationAssessment}
    (he : e ∈ S.assessmentEvents) :
    ∃ a ∈ S.assessmentEvents, a.IsAssessment ∧ a.correlationId = e.correlationId := by
  by_cases hass : e.IsAssessment
  · exact ⟨e, he, hass, rfl⟩
  · exact h.satisfied e he hass

theorem RentInvariant.assessment_fresh (h : RentInvariant sha256 S) {e : ObligationAssessment}
    {c : BillCycle} (he : e.AssessedFor c)
    (hcheck : checkIdempotencyAssessment S e.internalRef e.correlationId = false) :
    ∀ a ∈ S.assessmentEvents, a.correlationId ≠ e.correlationId := by
  intro a ha hcorr
  obtain ⟨b, hb, hbss, hbcorr⟩ := h.assessment_of ha
  obtain ⟨d, -, hfor⟩ := h.assessments b hb hbss
  have hcorr' : b.correlationId = e.correlationId := hbcorr.trans hcorr
  have href := hfor.internalRef_eq he hcorr'
  have hnone := List.any_eq_false.1 hcheck b hb
  have htype : b.eventType = .assessment := hbss
  simp [href, hcorr', htype] at hnone

theorem assessObligation_moves (h : RentInvariant sha256 S) {c : BillCycle}
    (hc : c ∈ S.billCycles) {q : AssessmentRequest} {created : Bool}
    (hok : assessObligation S clock q = .ok (created, S'))
    (hfor : (assessmentEvent S clock q).AssessedFor c) : Moves sha256 zones now S S' := by
  rcases assessObligation_ok hok with ⟨-, rfl, -⟩ | ⟨-, rfl, hcheck⟩
  · exact .refl
  · exact .single (.event rfl (.assess hc hfor (h.assessment_fresh hfor hcheck)))

theorem RentInvariant.moves_keep (h : RentInvariant sha256 S) {c : BillCycle}
    (hc : c ∈ S.billCycles) (hm : Moves sha256 zones now S S') :
    (RentInvariant sha256 S' ∧ c ∈ S'.billCycles) ∧ Moves sha256 zones now S S' :=
  ⟨⟨(h.moves hm).invariant, (h.moves hm).kept.cycles.subset hc⟩, hm⟩

variable {settings : RentSettings} {cycle : BillCycle} {n : ℕ}

theorem assessCycle_moves (h : RentInvariant sha256 S) (hc : cycle ∈ S.billCycles)
    (hpolicy : cycle.policyUuid = some settings.policyUuid)
    (hok : assessCycle clock settings cycle.classId cycle S = .ok (n, S')) :
    Moves sha256 zones now S S' := by
  refine (tally_relates (I := fun S ↦ RentInvariant sha256 S ∧ cycle ∈ S.billCycles) hok ⟨h, hc⟩
    (fun _ ↦ .refl) (fun _ _ _ ↦ .trans) ?_).2
  intro seat _ S n S' hI hstep
  simp only [bind_eq_ok, Prod.exists, pure_eq_ok, Prod.mk.injEq] at hstep
  obtain ⟨created, S₁, hassess, -, rfl⟩ := hstep
  exact hI.1.moves_keep hI.2 (assessObligation_moves hI.1 hI.2 hassess
    ⟨rfl, rfl, rfl, hpolicy.symm, .inl ⟨rfl, rfl, rfl, rfl⟩⟩)

theorem assessLateFees_moves {zone : ClassZone} (h : RentInvariant sha256 S)
    (hc : cycle ∈ S.billCycles) (hpolicy : cycle.policyUuid = some settings.policyUuid)
    (hok : assessLateFees zone clock settings cycle.classId cycle now S = .ok (n, S')) :
    Moves sha256 zones now S S' := by
  unfold assessLateFees at hok
  split at hok
  · split_ifs at hok
    · rw [pure_eq_ok, Prod.mk.injEq] at hok
      rw [← hok.2]
    · refine (tally_relates (I := fun S ↦ RentInvariant sha256 S ∧ cycle ∈ S.billCycles) hok
        ⟨h, hc⟩ (fun _ ↦ .refl) (fun _ _ _ ↦ .trans) ?_).2
      intro seat _ S n S' hI hstep
      simp only at hstep
      split_ifs at hstep
      · refine tally_relates (I := fun S ↦ RentInvariant sha256 S ∧ cycle ∈ S.billCycles) hstep
          hI (fun _ ↦ .refl) (fun _ _ _ ↦ .trans) ?_
        intro k _ S n S' hI hstep
        simp only [bind_eq_ok, Prod.exists, pure_eq_ok, Prod.mk.injEq] at hstep
        obtain ⟨created, S₁, hassess, -, rfl⟩ := hstep
        exact hI.1.moves_keep hI.2 (assessObligation_moves hI.1 hI.2 hassess
          ⟨rfl, rfl, rfl, hpolicy.symm, .inr ⟨rfl, rfl, rfl, k, rfl⟩⟩)
      · rw [pure_eq_ok, Prod.mk.injEq] at hstep
        obtain ⟨-, rfl⟩ := hstep
        exact ⟨hI, .refl⟩
  · rw [pure_eq_ok, Prod.mk.injEq] at hok
    rw [← hok.2]

end Assessments

section PeriodPerks

variable {env : Surroundings} {classId : String} {cycle : BillCycle} {n : ℕ}

theorem expireRentPerks_moves (env : Surroundings) (actorSeatId : ℕ) (S : RentState)
    (correlationId : String) : Moves sha256 zones now S
      (expireRentPerks env clock actorSeatId classId S correlationId).2 := by
  refine .single (.store ?_)
  intro e he hgrant
  obtain ⟨f, -, rfl⟩ := List.mem_map.1 he
  exact absurd hgrant.2 (by simp)

theorem expireEndedPeriodPerks_moves
    (hok : expireEndedPeriodPerks env clock classId now S = .ok (n, S')) :
    Moves sha256 zones now S S' := by
  refine (tally_relates (I := fun _ ↦ True) hok trivial (fun _ ↦ .refl) (fun _ _ _ ↦ .trans) ?_).2
  intro ended _ S n S' _ hstep
  rw [bind_eq_ok] at hstep
  obtain ⟨actorSeatId, -, hstep⟩ := hstep
  refine tally_relates (I := fun _ ↦ True) hstep trivial (fun _ ↦ .refl) (fun _ _ _ ↦ .trans) ?_
  intro a _ S n S' _ hstep
  rw [pure_eq_ok] at hstep
  have hmoves : Moves sha256 zones now S
      (expireRentPerks env clock actorSeatId classId S a.correlationId).2 :=
    expireRentPerks_moves env actorSeatId S a.correlationId
  rw [hstep] at hmoves
  exact ⟨trivial, hmoves⟩

theorem RentInvariant.paid_of_satisfied (h : RentInvariant sha256 S) {a : ObligationAssessment}
    (ha : a ∈ S.assessmentEvents) (hass : a.IsAssessment)
    (hst : (getObligationState S a.correlationId).any
      (fun st ↦ decide (st.status = .satisfied ∧ st.isWaived = false)) = true) :
    resolveAssessmentAmount S a ≤ getPaidMagnitude S a.correlationId := by
  simp only [getObligationState, h.found ha hass, Option.map_some, Option.any_some,
    decide_eq_true_eq] at hst
  obtain ⟨hstatus, hwaived⟩ := hst
  split_ifs at hstatus with hwithdrawn hpaid
  exact hpaid.resolve_left (by simp [hwaived])

theorem grantPeriodStartPerks_moves (h : RentInvariant sha256 S) (hc : cycle ∈ S.billCycles)
    (hbegun : cycle.cycleBoundaryAt ≤ now)
    (hok : grantPeriodStartPerks env clock cycle.classId cycle S = .ok (n, S')) :
    Moves sha256 zones now S S' := by
  refine (tally_relates (I := fun S₁ ↦ RentInvariant sha256 S₁ ∧ cycle ∈ S₁.billCycles ∧
    S.assessmentEvents ⊆ S₁.assessmentEvents) hok ⟨h, hc, List.Subset.refl _⟩ (fun _ ↦ .refl)
      (fun _ _ _ ↦ .trans) ?_).2
  intro a ha S₁ n S₂ hI hstep
  obtain ⟨h₁, hc₁, hsub⟩ := hI
  have hkeep : Moves sha256 zones now S₁ S₂ → (RentInvariant sha256 S₂ ∧ cycle ∈ S₂.billCycles ∧
      S.assessmentEvents ⊆ S₂.assessmentEvents) ∧ Moves sha256 zones now S₁ S₂ := by
    intro hm
    obtain ⟨⟨h₂, hc₂⟩, -⟩ := h₁.moves_keep hc₁ hm
    exact ⟨⟨h₂, hc₂, fun e he ↦ (h₁.moves hm).kept.mem_events (hsub he)⟩, hm⟩
  obtain ⟨hmem, hacycle, hass, hrent⟩ : a ∈ S.assessmentEvents ∧ a.billCycleId = some cycle.id ∧
      a.IsAssessment ∧ a.obligationType = .rent := by
    simpa [rentAssessmentsOf, ObligationAssessment.IsAssessment] using ha
  have ha₁ := hsub hmem
  apply hkeep
  split_ifs at hstep with hgrant
  · obtain ⟨hsatisfied, hnone, hseat⟩ := hgrant
    split at hstep
    · rw [pure_eq_ok, Prod.mk.injEq] at hstep
      rw [← hstep.2]
    · next settings hsettings =>
      obtain ⟨grants, rfl, hawarded⟩ := awardSatisfactionPerks_awarded hstep
      have hclass : a.classId = cycle.classId := by
        obtain ⟨d, hd, hfor⟩ := h₁.assessments a ha₁ hass
        have hid : billCycle S₁ (some d.id) = billCycle S₁ (some cycle.id) := by
          rw [← hfor.billCycleId, hacycle]
        rw [h₁.billCycle hd, h₁.billCycle hc₁, Option.some.injEq] at hid
        rw [hfor.classId, hid]
      refine .single (.grant ha₁ hass hrent hsettings
        (h₁.paid_of_satisfied ha₁ hass hsatisfied) ?_ ?_ ?_ hawarded.units)
      · rw [grantedUnits, List.map_eq_nil_iff, List.filter_eq_nil_iff]
        intro e he hperk
        obtain ⟨⟨hacq, htype⟩, hcorr⟩ := of_decide_eq_true hperk
        obtain ⟨b, hb, hbss, -, hcorr', hbclass, -⟩ := h₁.perks e he ⟨hacq, htype⟩
        rw [hcorr, Option.some.injEq] at hcorr'
        obtain rfl : a = b := h₁.assessedOnce a ha₁ b hb hass hbss hcorr'
        have hfalse := List.any_eq_false.1 hnone e he
        simp [hbclass, hclass, hcorr, hacq, htype] at hfalse
      · rw [resolveAssessmentDueAt, hacycle, h₁.billCycle hc₁]
        exact hbegun
      · intro e he
        rw [hclass]
        exact hawarded.perks e he
  · rw [pure_eq_ok, Prod.mk.injEq] at hstep
    rw [← hstep.2]

end PeriodPerks

section Succession

variable {env : Surroundings} {classId : String}

theorem getBillCycles_filter (h : RentInvariant sha256 S) (classId : String) :
    (getBillCyclesForInternalRef S (rentLineage classId)).filter (·.classId = classId) =
      getBillCyclesForInternalRef S (rentLineage classId) := by
  rw [List.filter_eq_self]
  intro c hc
  rw [getBillCyclesForInternalRef, List.mem_insertionSort, List.mem_filter] at hc
  have hline := h.cycleLineages c hc.1
  rw [of_decide_eq_true hc.2] at hline
  exact decide_eq_true (rentLineage_injective hline).symm

theorem getSuccessionEligibility_eq (h : RentInvariant sha256 S) (zone : ClassZone)
    (classId : String) (now : Instant) :
    getSuccessionEligibility S zone classId (rentLineage classId) now =
      match getLatestBillCycle S (rentLineage classId) with
      | none => .empty
      | some l =>
        match l.nextAssessmentAt with
        | none => .terminal l
        | some next =>
          if now < getAssessmentPoint S zone l next then .notDue l else .due l next := by
  rw [getSuccessionEligibility, getBillCycles_filter h]
  rfl

theorem eligibility_empty (h : RentInvariant sha256 S) {zone : ClassZone} {classId : String}
    (he : getSuccessionEligibility S zone classId (rentLineage classId) now = .empty) :
    getLatestBillCycle S (rentLineage classId) = none := by
  rw [getSuccessionEligibility_eq h] at he
  split at he
  · assumption
  · split at he
    · cases he
    · split_ifs at he

theorem eligibility_due (h : RentInvariant sha256 S) {zone : ClassZone} {classId : String}
    {l : BillCycle} {next : Instant}
    (he : getSuccessionEligibility S zone classId (rentLineage classId) now = .due l next) :
    getLatestBillCycle S (rentLineage classId) = some l ∧ l.nextAssessmentAt = some next ∧
      getAssessmentPoint S zone l next ≤ now := by
  rw [getSuccessionEligibility_eq h] at he
  split at he
  · cases he
  · next l' hl =>
    split at he
    · cases he
    · next next' hnext =>
      split_ifs at he with hdue
      obtain ⟨rfl, rfl⟩ := SuccessionEligibility.due.inj he
      exact ⟨hl, hnext, not_lt.1 hdue⟩

theorem nextCycleNumber_ok {ref : String} {reference : Instant} {e : SuccessionEligibility}
    {number : ℕ} (h : nextCycleNumber ref reference e = .ok number) :
    (e = .empty ∧ number = 1) ∨ ∃ l next, e = .due l next ∧ number = l.cycleNumber + 1 := by
  cases e with
  | empty => exact .inl ⟨rfl, (Except.ok.inj h).symm⟩
  | due l next => exact .inr ⟨l, next, rfl, (Except.ok.inj h).symm⟩
  | notDue l => cases h
  | terminal l => cases h

/-- A request of a lineage's own run names the boundary that its latest cycle left. -/
structure RunRequest (zones : String → ClassZone) (S : RentState)
    (q : ScheduleNextBillCycleRequest) : Prop where
  policy : PolicyKnown S q.classId q.policyUuid
  lineage : q.internalRef = rentLineage q.classId
  ends : ∃ d, q.nextAssessmentAt = (zones q.classId).startOfDate d
  boundary : ∀ l next, getLatestBillCycle S q.internalRef = some l →
    l.nextAssessmentAt = some next →
      q.cycleBoundaryAt = (zones q.classId).startOfDate ((zones q.classId).localDate next)
  key : ∃ run, q.idempotencyKey =
    successionKey run (((getLatestBillCycle S q.internalRef).map (·.cycleNumber)).getD 0)

theorem scheduleNextBillCycle_moves (h : RentInvariant sha256 S)
    {q : ScheduleNextBillCycleRequest} (hq : RunRequest zones S q) {c : BillCycle}
    (hok : scheduleNextBillCycle sha256 (zones q.classId) S q = .ok (c, S')) :
    Moves sha256 zones now S S' := by
  simp only [scheduleNextBillCycle, require_bind_eq_ok] at hok
  obtain ⟨-, -, -, hok⟩ := hok
  split at hok
  · simp only [require_bind_eq_ok, demand_bind_eq_ok, pure_eq_ok, Prod.mk.injEq] at hok
    obtain ⟨-, cycle, -, -, rfl⟩ := hok
    exact .refl
  · rw [require_bind_eq_ok, bind_eq_ok] at hok
    obtain ⟨hlt, number, hnumber, hok⟩ := hok
    rw [require_bind_eq_ok, pure_eq_ok, Prod.mk.injEq] at hok
    obtain ⟨-, -, rfl⟩ := hok
    obtain ⟨d, hd⟩ := hq.ends
    have hends : ∃ d, some q.nextAssessmentAt = some ((zones q.classId).startOfDate d) ∧
        q.cycleBoundaryAt < (zones q.classId).startOfDate d :=
      ⟨d, by rw [hd], by rw [← hd]; exact hlt⟩
    obtain ⟨run, hkey⟩ := hq.key
    have href : (successor S q number).internalRef = q.internalRef := rfl
    rw [hq.lineage] at hnumber
    rcases nextCycleNumber_ok hnumber with ⟨he, rfl⟩ | ⟨l, next, he, rfl⟩
    · have hnone := eligibility_empty h he
      rw [← hq.lineage] at hnone
      refine .single (.cycle ⟨rfl, hq.policy, hq.lineage, hends, fun _ ↦ rfl, ?_⟩ rfl rfl
        ⟨run, ?_⟩)
      · intro l hl
        rw [href, hnone] at hl
        cases hl
      · rw [hkey, hnone]
        rfl
    · obtain ⟨hlatest, hnext, -⟩ := eligibility_due h he
      rw [← hq.lineage] at hlatest
      refine .single (.cycle ⟨rfl, hq.policy, hq.lineage, hends, ?_, ?_⟩ rfl rfl ⟨run, ?_⟩)
      · intro hnone
        rw [href, hlatest] at hnone
        cases hnone
      · intro l' hl'
        rw [href, hlatest, Option.some.injEq] at hl'
        subst hl'
        exact ⟨rfl, next, hnext, hq.boundary l next hlatest hnext⟩
      · rw [hkey, hlatest]
        rfl

theorem resolveCycleSchedule_ok {zone : ClassZone} {settings : RentSettings} {due : ℤ}
    {schedule : ResolvedCycleSchedule} (h : resolveCycleSchedule zone settings due = .ok schedule) :
    schedule.cycleBoundaryAt = zone.startOfDate due ∧
      ∃ next, advanceDueDate settings due = .ok next ∧
        schedule.nextAssessmentAt = zone.startOfDate next := by
  rw [resolveCycleSchedule, bind_eq_ok] at h
  obtain ⟨next, hnext, h⟩ := h
  rw [pure_eq_ok] at h
  subst h
  exact ⟨rfl, next, hnext, rfl⟩

variable {t : RunTerms}

/-- The latest cycle of the class's lineage, with the instant that its successor begins. -/
def IsLatest (S : RentState) (classId : String) (latest : Option (BillCycle × Instant)) : Prop :=
  getLatestBillCycle S (rentLineage classId) = latest.map (·.1) ∧
    ∀ l next, latest = some (l, next) → l.nextAssessmentAt = some next

theorem succeed_moves (h : RentInvariant sha256 S)
    (hpolicy : PolicyKnown S t.classId (some t.settings.policyUuid))
    {latest : Option (BillCycle × Instant)} (hl : IsLatest S t.classId latest) {c : BillCycle}
    (hok : succeed sha256 (zones t.classId) t S latest = .ok (some (c, S'))) :
    Moves sha256 zones now S S' := by
  unfold succeed at hok
  rw [bind_eq_ok] at hok
  obtain ⟨due, hdue, hok⟩ := hok
  rw [bind_eq_ok] at hok
  obtain ⟨schedule, hschedule, hok⟩ := hok
  split_ifs at hok with hdisabled
  · cases hok
  · obtain ⟨hboundary, next, -, hnext⟩ := resolveCycleSchedule_ok hschedule
    simp only [bind_eq_ok, pure_eq_ok, Option.some.injEq] at hok
    obtain ⟨⟨c', S₁⟩, hscheduled, hc⟩ := hok
    obtain ⟨rfl, rfl⟩ := Prod.mk.inj hc
    refine scheduleNextBillCycle_moves h ⟨hpolicy, rfl, ⟨next, hnext⟩, ?_, ⟨t.runIdentity, ?_⟩⟩
      hscheduled
    · intro l n hlatest hn
      simp only at hlatest
      rw [hl.1] at hlatest
      cases latest with
      | none => cases hlatest
      | some ln =>
        obtain ⟨l', n'⟩ := ln
        obtain rfl := Option.some.inj hlatest
        have hn' : l'.nextAssessmentAt = some n' := hl.2 l' n' rfl
        rw [hn, Option.some.injEq] at hn'
        subst hn'
        rw [hboundary, ← Except.ok.inj hdue]
    · simp only [hl.1, Option.map_map]
      rfl

theorem catchUp_moves (h : RentInvariant sha256 S)
    (hpolicy : PolicyKnown S t.classId (some t.settings.policyUuid)) {left : ℕ}
    {res res' : ReconcileRentResult}
    (hok : catchUp sha256 (zones t.classId) t left S res = .ok (res', S')) :
    Moves sha256 zones now S S' := by
  induction left generalizing S res with
  | zero =>
    unfold catchUp at hok
    split at hok <;> rw [pure_eq_ok, Prod.mk.injEq] at hok <;> rw [← hok.2]
  | succ left ih =>
    unfold catchUp at hok
    split at hok
    · next l next he =>
      rw [bind_eq_ok] at hok
      obtain ⟨outcome, hsucceed, hok⟩ := hok
      obtain ⟨hlatest, hnext, -⟩ := eligibility_due h he
      have hl : IsLatest S t.classId (some (l, next)) := ⟨hlatest, fun l' n' hln ↦ by
        obtain ⟨rfl, rfl⟩ := Prod.mk.inj (Option.some.inj hln)
        exact hnext⟩
      cases outcome with
      | none =>
        rw [pure_eq_ok, Prod.mk.injEq] at hok
        rw [← hok.2]
      | some created =>
        obtain ⟨c, S₁⟩ := created
        have hmoves : Moves sha256 zones now S S₁ := succeed_moves h hpolicy hl hsucceed
        have hp := h.moves hmoves
        exact hmoves.trans (ih hp.invariant (hp.kept.policyKnown hpolicy) hok)
    · rw [pure_eq_ok, Prod.mk.injEq] at hok
      rw [← hok.2]

theorem advanceLineage_moves (h : RentInvariant sha256 S)
    (hpolicy : PolicyKnown S t.classId (some t.settings.policyUuid))
    {res res' : ReconcileRentResult}
    (hok : advanceLineage sha256 (zones t.classId) t S res = .ok (res', S')) :
    Moves sha256 zones now S S' := by
  unfold advanceLineage at hok
  split at hok
  · next he =>
    rw [bind_eq_ok] at hok
    obtain ⟨outcome, hsucceed, hok⟩ := hok
    have hl : IsLatest S t.classId none := ⟨eligibility_empty h he, fun _ _ hln ↦ by cases hln⟩
    cases outcome with
    | none =>
      rw [pure_eq_ok, Prod.mk.injEq] at hok
      rw [← hok.2]
    | some created =>
      obtain ⟨c, S₁⟩ := created
      have hmoves : Moves sha256 zones now S S₁ := succeed_moves h hpolicy hl hsucceed
      have hp := h.moves hmoves
      exact hmoves.trans (catchUp_moves hp.invariant (hp.kept.policyKnown hpolicy) hok)
  · exact catchUp_moves h hpolicy hok

end Succession

section Run

variable {env : Surroundings} {t : RunTerms}

theorem rentPolicy_spec {u : Option String} {r : RentSettings} (h : rentPolicy S u = some r) :
    u = some r.policyUuid ∧ r.policyUuid ≠ "" ∧ r ∈ S.rentSettings := by
  unfold rentPolicy at h
  split at h
  · cases h
  · next p =>
    split_ifs at h with hempty
    have hfound : r.policyUuid = p := by simpa using List.find?_some h
    exact ⟨by rw [hfound], by rw [hfound]; exact hempty, List.mem_of_find?_eq_some h⟩

theorem cycleTerms_policyUuid (h : RentInvariant sha256 S) {cycle : BillCycle}
    (hc : cycle ∈ S.billCycles) {classId : String} {current settings : RentSettings}
    (hterms : cycleTerms S classId cycle current = some settings) :
    cycle.policyUuid = some settings.policyUuid := by
  obtain ⟨r, hr, -⟩ := h.cyclePolicies cycle hc
  obtain ⟨huuid, hne, -⟩ := rentPolicy_spec hr
  unfold cycleTerms at hterms
  rw [if_neg (by rw [huuid]; exact hne)] at hterms
  exact (rentPolicy_spec (Option.mem_filter_iff.1 hterms).1).1

theorem assessRoster_moves (h : RentInvariant sha256 S) {cycle : BillCycle}
    (hc : cycle ∈ S.billCycles) (hclass : cycle.classId = t.classId)
    {res res' : ReconcileRentResult} (hok : assessRoster clock t res S cycle = .ok (res', S')) :
    Moves sha256 zones now S S' := by
  unfold assessRoster at hok
  split at hok
  · rw [pure_eq_ok, Prod.mk.injEq] at hok
    rw [← hok.2]
  · next settings hterms =>
    simp only [bind_eq_ok, Prod.exists, pure_eq_ok, Prod.mk.injEq] at hok
    obtain ⟨n, S₁, hassess, -, rfl⟩ := hok
    rw [← hclass] at hassess
    exact assessCycle_moves h hc (cycleTerms_policyUuid h hc hterms) hassess

theorem assessRosters_moves (h : RentInvariant sha256 S) {cycles : List BillCycle}
    (hc : ∀ c ∈ cycles, c ∈ S.billCycles ∧ c.classId = t.classId)
    {res res' : ReconcileRentResult} (hok : assessRosters clock t res S cycles = .ok (res', S')) :
    Moves sha256 zones now S S' := by
  induction cycles generalizing S res with
  | nil =>
    rw [assessRosters, pure_eq_ok, Prod.mk.injEq] at hok
    rw [← hok.2]
  | cons cycle cycles ih =>
    simp only [assessRosters, bind_eq_ok, Prod.exists] at hok
    obtain ⟨res₁, S₁, hfirst, hrest⟩ := hok
    obtain ⟨hmem, hclass⟩ := hc cycle (by simp)
    have hmoves : Moves sha256 zones now S S₁ := assessRoster_moves h hmem hclass hfirst
    have hp := h.moves hmoves
    exact hmoves.trans (ih hp.invariant (fun c hmem ↦
      ⟨hp.kept.cycles.subset (hc c (by simp [hmem])).1, (hc c (by simp [hmem])).2⟩) hrest)

theorem accrueLateFees_moves {zone : ClassZone} (h : RentInvariant sha256 S)
    {cycles : List BillCycle} (hc : ∀ c ∈ cycles, c ∈ S.billCycles ∧ c.classId = t.classId)
    {res res' : ReconcileRentResult}
    (hok : accrueLateFees zone clock t res S cycles = .ok (res', S')) :
    Moves sha256 zones t.now S S' := by
  induction cycles generalizing S res with
  | nil =>
    rw [accrueLateFees, pure_eq_ok, Prod.mk.injEq] at hok
    rw [← hok.2]
  | cons cycle cycles ih =>
    obtain ⟨hmem, hclass⟩ := hc cycle (by simp)
    rw [accrueLateFees] at hok
    split at hok
    · exact ih h (fun c hmem ↦ hc c (by simp [hmem])) hok
    · next settings hterms =>
      simp only [bind_eq_ok, Prod.exists] at hok
      obtain ⟨n, S₁, hfees, hrest⟩ := hok
      rw [← hclass] at hfees
      have hmoves : Moves sha256 zones t.now S S₁ :=
        assessLateFees_moves h hmem (cycleTerms_policyUuid h hmem hterms) hfees
      have hp := h.moves hmoves
      exact hmoves.trans (ih hp.invariant (fun c hmem ↦
        ⟨hp.kept.cycles.subset (hc c (by simp [hmem])).1, (hc c (by simp [hmem])).2⟩) hrest)

theorem mem_lineage (h : RentInvariant sha256 S) {classId : String} {c : BillCycle}
    (hc : c ∈ getBillCyclesForInternalRef S (rentLineage classId)) :
    c ∈ S.billCycles ∧ c.classId = classId := by
  rw [getBillCyclesForInternalRef, List.mem_insertionSort, List.mem_filter] at hc
  have hline := h.cycleLineages c hc.1
  rw [of_decide_eq_true hc.2] at hline
  exact ⟨hc.1, (rentLineage_injective hline).symm⟩

theorem currentAmong_some {cycles : List BillCycle} {c : BillCycle}
    (h : currentAmong now cycles = .ok (some c)) : c ∈ cycles ∧ c.cycleBoundaryAt ≤ now ∧
      ∃ next, c.nextAssessmentAt = some next ∧ now < next := by
  induction cycles with
  | nil => cases h
  | cons d cycles ih =>
    unfold currentAmong at h
    split at h
    · obtain ⟨hmem, hrest⟩ := ih h
      exact ⟨List.mem_cons_of_mem _ hmem, hrest⟩
    · next next hnext =>
      rw [require_bind_eq_ok] at h
      obtain ⟨-, h⟩ := h
      split_ifs at h with hin
      · rw [pure_eq_ok, Option.some.injEq] at h
        subst h
        exact ⟨by simp, hin.1, next, hnext, hin.2⟩
      · obtain ⟨hmem, hrest⟩ := ih h
        exact ⟨List.mem_cons_of_mem _ hmem, hrest⟩

theorem getCurrentBillCycle_some (h : RentInvariant sha256 S) {classId : String} {c : BillCycle}
    (hc : getCurrentBillCycle S classId (rentLineage classId) now = .ok (some c)) :
    c ∈ getBillCyclesForInternalRef S (rentLineage classId) ∧ c.cycleBoundaryAt ≤ now ∧
      ∃ next, c.nextAssessmentAt = some next ∧ now < next := by
  unfold getCurrentBillCycle at hc
  rw [getBillCycles_filter h] at hc
  simp only at hc
  split_ifs at hc
  · cases hc
  · exact currentAmong_some hc

theorem upcomingCycle_some {classId : String} {current : Option BillCycle} {c : BillCycle}
    (hc : upcomingCycle S classId now current = some c) :
    c ∈ getBillCyclesForInternalRef S (rentLineage classId) :=
  List.mem_of_getLast? (Option.mem_filter_iff.1 hc).1

theorem settleRun_moves {zone : ClassZone} (h : RentInvariant sha256 S) {enabled : Bool}
    {res res' : ReconcileRentResult}
    (hok : settleRun zone env clock t enabled res S = .ok (res', S')) :
    Moves sha256 zones t.now S S' := by
  simp only [settleRun, bind_eq_ok, Prod.exists] at hok
  obtain ⟨current, hcurrent, res₁, S₁, hrosters, expired, S₂, hexpire, hok⟩ := hok
  have hassessed : ∀ c ∈ (if enabled = true then current.toList ++
      (upcomingCycle S t.classId t.now current).toList else []),
        c ∈ S.billCycles ∧ c.classId = t.classId := by
    intro c hc
    split_ifs at hc
    · rcases List.mem_append.1 hc with hc | hc
      · rw [Option.mem_toList] at hc
        rw [hc] at hcurrent
        exact mem_lineage h (getCurrentBillCycle_some h hcurrent).1
      · exact mem_lineage h (upcomingCycle_some (Option.mem_toList.1 hc))
    · cases hc
  have hm₁ : Moves sha256 zones t.now S S₁ := assessRosters_moves h hassessed hrosters
  have hp₁ := h.moves hm₁
  have hm₂ : Moves sha256 zones t.now S₁ S₂ := expireEndedPeriodPerks_moves hexpire
  have hp₂ := hp₁.trans (hp₁.invariant.moves hm₂)
  obtain ⟨n, S₃, hgrant, res₂, S₄, hfees, hok⟩ := hok
  have hm₃ : Moves sha256 zones t.now S₂ S₃ := by
    cases current with
    | none =>
      simp only [currentPeriodPerks, pure_eq_ok, Prod.mk.injEq] at hgrant
      rw [← hgrant.2]
    | some cycle =>
      obtain ⟨hmem, hbegun, -⟩ := getCurrentBillCycle_some h hcurrent
      obtain ⟨hcycle, hclass⟩ := mem_lineage h hmem
      rw [currentPeriodPerks, ← hclass] at hgrant
      exact grantPeriodStartPerks_moves hp₂.invariant (hp₂.kept.cycles.subset hcycle) hbegun hgrant
  have hp₃ := hp₂.trans (hp₂.invariant.moves hm₃)
  have hm₄ : Moves sha256 zones t.now S₃ S₄ :=
    accrueLateFees_moves hp₃.invariant (fun c hc ↦ mem_lineage hp₃.invariant hc) hfees
  rw [pure_eq_ok, Prod.mk.injEq] at hok
  rw [← hok.2]
  exact ((hm₁.trans hm₂).trans hm₃).trans hm₄

theorem foldl_laterConfigured {rs : List RentSettings} {best r : RentSettings}
    (h : rs.foldl laterConfigured (some best) = some r) : r ∈ best :: rs := by
  induction rs generalizing best with
  | nil =>
    obtain rfl := Option.some.inj h
    simp
  | cons s rs ih =>
    rw [List.foldl_cons, laterConfigured] at h
    split_ifs at h with hlater
    · exact List.mem_cons_of_mem _ (ih h)
    · rcases List.mem_cons.1 (ih h) with rfl | hmem
      · simp
      · exact List.mem_cons_of_mem _ (List.mem_cons_of_mem _ hmem)

theorem getRentSettings_some {classId : String} {r : RentSettings}
    (h : getRentSettings S classId = some r) :
    r ∈ S.rentSettings ∧ r.classId = classId ∧ r.availabilityState = .inUse := by
  have hmem : r ∈ S.rentSettings.filter (fun r ↦ r.classId = classId ∧
      r.availabilityState = .inUse) := by
    unfold getRentSettings at h
    cases hrs : S.rentSettings.filter (fun r ↦ r.classId = classId ∧
        r.availabilityState = .inUse) with
    | nil =>
      rw [hrs] at h
      cases h
    | cons s rs =>
      rw [hrs, List.foldl_cons] at h
      exact foldl_laterConfigured h
  simpa using hmem

/-- A run of the reconciliation makes the writes of the domain. -/
theorem reconcileRent_moves (h : RentInvariant sha256 S) {q : ReconcileRentRequest}
    {res : ReconcileRentResult}
    (hok : reconcileRent sha256 (zones q.classId) env clock S q = .ok (res, S')) :
    Moves sha256 zones (q.referenceTimeUtc.getD clock) S S' := by
  rw [reconcileRent, require_bind_eq_ok] at hok
  obtain ⟨-, hok⟩ := hok
  simp only at hok
  split at hok
  · rw [pure_eq_ok, Prod.mk.injEq] at hok
    rw [← hok.2]
  · next settings hsettings =>
    obtain ⟨hmem, hclass, -⟩ := getRentSettings_some hsettings
    have hpolicy : PolicyKnown S q.classId (some settings.policyUuid) :=
      ⟨settings, h.settings settings hmem, hclass⟩
    split_ifs at hok with henabled
    · simp only [bind_eq_ok, Prod.exists] at hok
      obtain ⟨res₁, S₁, hadvance, hsettle⟩ := hok
      have hm₁ : Moves sha256 zones (q.referenceTimeUtc.getD clock) S S₁ :=
        advanceLineage_moves h hpolicy hadvance
      exact hm₁.trans (settleRun_moves (h.moves hm₁).invariant hsettle)
    · rw [pure_bind] at hok
      exact settleRun_moves h hok

end Run

end TokenHub.Rent
