import TokenHub.Rent.LifecycleRuns

set_option autoImplicit false

namespace TokenHub.Rent

open Ledger Lib.Checks

section Periods

variable (zone : ClassZone)

/-- The late periods that have begun by an instant, by the policy that a cycle froze and the end of
its grace. -/
def latePeriods (terms : RentSettings) (graceBoundaryAt : Option Instant) (t : Instant) : ℕ :=
  match terms.latePenaltyAmount, graceBoundaryAt with
  | some penalty, some grace =>
    if penalty ≤ 0 ∨ t ≤ grace then 0 else lateFeePeriodsElapsed zone terms grace t
  | _, _ => 0

variable {zone} {graceDate frequency : ℤ} {t u : Instant}

/-- The periods that are counted are those whose midnights, and all the midnights before them, have
come. -/
theorem le_lateFeePeriodsFrom_iff {left periods n : ℕ} :
    n ≤ lateFeePeriodsFrom zone graceDate frequency t left periods ↔
      n ≤ periods ∨ n ≤ periods + left ∧
        ∀ k : ℕ, periods ≤ k → k < n → zone.startOfDate (graceDate + frequency * k) ≤ t := by
  induction left generalizing periods with
  | zero =>
    rw [lateFeePeriodsFrom, add_zero]
    exact ⟨.inl, fun h ↦ h.elim id (·.1)⟩
  | succ left ih =>
    rw [lateFeePeriodsFrom]
    split_ifs with hlt
    · refine ⟨.inl, fun h ↦ h.elim id fun ⟨_, hall⟩ ↦ ?_⟩
      by_contra hn
      exact absurd (hall periods le_rfl (by omega)) (not_le.2 hlt)
    · rw [ih]
      constructor
      · intro h
        rcases h with hn | ⟨hn, hall⟩
        · by_cases heq : n ≤ periods
          · exact .inl heq
          · refine .inr ⟨by omega, fun k hk hkn ↦ ?_⟩
            obtain rfl : k = periods := by omega
            exact not_lt.1 hlt
        · refine .inr ⟨by omega, fun k hk hkn ↦ ?_⟩
          rcases hk.eq_or_lt with rfl | hk
          · exact not_lt.1 hlt
          · exact hall k hk hkn
      · intro h
        rcases h with hn | ⟨hn, hall⟩
        · exact .inl (by omega)
        · exact .inr ⟨by omega, fun k hk hkn ↦ hall k (by omega) hkn⟩

theorem lateFeePeriodsFrom_mono (htu : t ≤ u) (left periods : ℕ) :
    lateFeePeriodsFrom zone graceDate frequency t left periods ≤
      lateFeePeriodsFrom zone graceDate frequency u left periods := by
  rw [le_lateFeePeriodsFrom_iff]
  rcases le_lateFeePeriodsFrom_iff.1
    (le_refl (lateFeePeriodsFrom zone graceDate frequency t left periods)) with hle | ⟨hle, hall⟩
  · exact .inl hle
  · exact .inr ⟨hle, fun k hk hkn ↦ (hall k hk hkn).trans htu⟩

theorem latePeriods_mono (terms : RentSettings) (grace : Option Instant) (htu : t ≤ u) :
    latePeriods zone terms grace t ≤ latePeriods zone terms grace u := by
  unfold latePeriods
  split
  · next penalty grace _ =>
    by_cases ht : penalty ≤ 0 ∨ t ≤ grace
    · rw [if_pos ht]
      exact Nat.zero_le _
    · have hu : ¬ (penalty ≤ 0 ∨ u ≤ grace) := by
        intro hu
        exact ht (hu.imp id htu.trans)
      rw [if_neg ht, if_neg hu]
      unfold lateFeePeriodsElapsed
      simp only
      have hgrace : ¬ t < grace := fun h ↦ ht (.inr h.le)
      have hgrace' : ¬ u < grace := fun h ↦ hu (.inr h.le)
      rw [if_neg hgrace, if_neg hgrace']
      split_ifs
      · exact le_rfl
      · exact le_rfl
      · exact lateFeePeriodsFrom_mono htu _ _
  · exact le_rfl

theorem latePeriods_pos {terms : RentSettings} {grace : Option Instant}
    (h : 0 < latePeriods zone terms grace t) : ∃ g, grace = some g ∧ g < t := by
  unfold latePeriods at h
  split at h
  · next penalty g _ =>
    split_ifs at h with hnone
    · exact absurd h (lt_irrefl 0)
    · exact ⟨g, rfl, not_le.1 fun hle ↦ hnone (.inr hle)⟩
  · exact absurd h (lt_irrefl 0)

theorem latePeriods_terms {r r' : RentSettings} (h : r'.terms = r.terms)
    (grace : Option Instant) (t : Instant) :
    latePeriods zone r' grace t = latePeriods zone r grace t := by
  have hamount : r'.latePenaltyAmount = r.latePenaltyAmount :=
    (congrArg RentSettings.latePenaltyAmount h :)
  have htype : r'.latePenaltyType = r.latePenaltyType :=
    (congrArg RentSettings.latePenaltyType h :)
  have hdays : r'.latePenaltyFrequencyDays = r.latePenaltyFrequencyDays :=
    (congrArg RentSettings.latePenaltyFrequencyDays h :)
  unfold latePeriods lateFeePeriodsElapsed
  rw [hamount, htype, hdays]

end Periods

section Assessed

variable {S S' : RentState} {clock : Instant}

def Assessed (S : RentState) (correlationId : String) : Prop :=
  ∃ a ∈ S.assessmentEvents, a.IsAssessment ∧ a.correlationId = correlationId

def Outstanding (S : RentState) (correlationId : String) : Prop :=
  (getObligationState S correlationId).any (·.status = .outstanding) = true

instance (S : RentState) (x : String) : Decidable (Outstanding S x) := by
  unfold Outstanding; infer_instance

theorem Outstanding.assessed {x : String} (h : Outstanding S x) :
    ∃ a, getAssessmentForCorrelation S x = some a := by
  unfold Outstanding getObligationState at h
  cases hfound : getAssessmentForCorrelation S x with
  | none =>
    rw [hfound] at h
    cases h
  | some a => exact ⟨a, rfl⟩

theorem assessed_append {es : List ObligationAssessment} {x : String}
    (hS : S'.assessmentEvents = S.assessmentEvents ++ es) :
    Assessed S' x ↔ Assessed S x ∨ ∃ e ∈ es, e.IsAssessment ∧ e.correlationId = x := by
  unfold Assessed
  rw [hS]
  simp only [List.mem_append, or_and_right, exists_or]

theorem assessObligation_assessed {q : AssessmentRequest} {created : Bool}
    (h : assessObligation S clock q = .ok (created, S')) (x : String) :
    Assessed S' x ↔ Assessed S x ∨ x = q.correlationId := by
  rcases assessObligation_ok h with ⟨-, rfl, hcheck⟩ | ⟨-, rfl, -⟩
  · refine ⟨.inl, fun hx ↦ hx.elim id fun heq ↦ ?_⟩
    obtain ⟨e, he, hmatch⟩ := List.any_eq_true.1 hcheck
    obtain ⟨-, hcorr, htype⟩ := of_decide_eq_true hmatch
    exact ⟨e, he, htype, hcorr.trans heq.symm⟩
  · have happend : (addEvent S (assessmentEvent S clock q)).assessmentEvents =
        S.assessmentEvents ++ [assessmentEvent S clock q] := rfl
    refine (assessed_append happend).trans (or_congr_right ?_)
    constructor
    · rintro ⟨e, he, -, hcorr⟩
      obtain rfl := List.mem_singleton.1 he
      exact hcorr.symm
    · intro heq
      exact ⟨_, List.mem_singleton_self _, rfl, heq.symm⟩

theorem getObligationState_append {es : List ObligationAssessment} {x : String}
    (hes : ∀ e ∈ es, e.correlationId ≠ x) :
    getObligationState { S with assessmentEvents := S.assessmentEvents ++ es } x =
      getObligationState S x := by
  have hfound : getAssessmentForCorrelation
      { S with assessmentEvents := S.assessmentEvents ++ es } x =
        getAssessmentForCorrelation S x := by
    have hnone : es.find? (fun e ↦ e.correlationId = x ∧ e.eventType = .assessment) = none := by
      rw [List.find?_eq_none]
      intro e he
      simp [hes e he]
    simp only [getAssessmentForCorrelation, List.find?_append, hnone, Option.or_none]
  have hwithdrawn : getWithdrawalEvent
      { S with assessmentEvents := S.assessmentEvents ++ es } x = getWithdrawalEvent S x := by
    have hnone : es.find? (fun e ↦ e.correlationId = x ∧ e.eventType = .withdrawn) = none := by
      rw [List.find?_eq_none]
      intro e he
      simp [hes e he]
    simp only [getWithdrawalEvent, List.find?_append, hnone, Option.or_none]
  have hsatisfied : getSatisfactionEvents
      { S with assessmentEvents := S.assessmentEvents ++ es } x = getSatisfactionEvents S x := by
    have hnil : es.filter (fun e ↦ e.correlationId = x ∧
        (e.eventType = .payment ∨ e.eventType = .waived)) = [] := by
      rw [List.filter_eq_nil_iff]
      intro e he
      simp [hes e he]
    simp only [getSatisfactionEvents, List.filter_append, hnil, List.append_nil]
  have hpaid : getPaidMagnitude { S with assessmentEvents := S.assessmentEvents ++ es } x =
      getPaidMagnitude S x := by
    rw [getPaidMagnitude, hsatisfied]
    rfl
  unfold getObligationState
  rw [hfound, hpaid, hwithdrawn, hsatisfied]
  rfl

end Assessed

section Stage

variable {zone : ClassZone} {clock now : Instant} {settings : RentSettings} {classId : String}
  {cycle : BillCycle} {n : ℕ} {S S' S'' : RentState}

def AddsFees (S S' : RentState) : Prop :=
  ∃ es, S' = { S with assessmentEvents := S.assessmentEvents ++ es } ∧
    ∀ e ∈ es, ∃ x k, e.correlationId = lateCorrelation x k

theorem AddsFees.refl (S : RentState) : AddsFees S S := ⟨[], by simp, by simp⟩

theorem AddsFees.trans (h : AddsFees S S') (h' : AddsFees S' S'') : AddsFees S S'' := by
  obtain ⟨es, rfl, hes⟩ := h
  obtain ⟨es', rfl, hes'⟩ := h'
  refine ⟨es ++ es', by simp, fun e he ↦ ?_⟩
  exact (List.mem_append.1 he).elim (hes e) (hes' e)

/-- What the rents of the classes come to is not touched by their late fees. -/
theorem AddsFees.outstanding (h : AddsFees S S') (classId : String) (seatId number : ℕ) :
    Outstanding S' (rentCorrelation classId seatId number) ↔
      Outstanding S (rentCorrelation classId seatId number) := by
  obtain ⟨es, rfl, hes⟩ := h
  unfold Outstanding
  rw [getObligationState_append]
  intro e he heq
  obtain ⟨x, k, hcorr⟩ := hes e he
  exact rentCorrelation_ne_lateCorrelation _ _ _ _ _ (heq.symm.trans hcorr)

theorem AddsFees.rentRoster (h : AddsFees S S') (classId : String) :
    rentRoster S' classId = rentRoster S classId := by
  obtain ⟨es, rfl, -⟩ := h
  rfl

theorem AddsFees.cycleTerms (h : AddsFees S S') (classId : String) (cycle : BillCycle)
    (current : RentSettings) :
    cycleTerms S' classId cycle current = cycleTerms S classId cycle current := by
  obtain ⟨es, rfl, -⟩ := h
  rfl

theorem assessObligation_addsFees {q : AssessmentRequest} {created : Bool} {x : String} {k : ℕ}
    (hq : q.correlationId = lateCorrelation x k)
    (h : assessObligation S clock q = .ok (created, S')) : AddsFees S S' := by
  rcases assessObligation_ok h with ⟨-, rfl, -⟩ | ⟨-, rfl, -⟩
  · exact .refl _
  · refine ⟨[assessmentEvent S clock q], rfl, fun e he ↦ ?_⟩
    obtain rfl := List.mem_singleton.1 he
    exact ⟨x, k, hq⟩

/-- A late fee that a run makes for a rent of a cycle: its seat is on the roster, the rent is
owed, and the period has begun. -/
def ChargedFor (zone : ClassZone) (now : Instant) (S : RentState) (classId : String)
    (cycle : BillCycle) (terms : RentSettings) (x : String) : Prop :=
  ∃ seat ∈ rentRoster S classId,
    Outstanding S (rentCorrelation classId seat.id cycle.cycleNumber) ∧
      ∃ k, 1 ≤ k ∧ k ≤ latePeriods zone terms cycle.graceBoundaryAt now ∧
        x = lateCorrelation (rentCorrelation classId seat.id cycle.cycleNumber) k

theorem AddsFees.chargedFor (h : AddsFees S S') {terms : RentSettings} {x : String} :
    ChargedFor zone now S' classId cycle terms x ↔ ChargedFor zone now S classId cycle terms x := by
  unfold ChargedFor
  rw [h.rentRoster]
  simp only [h.outstanding]

/-- One cycle's late fees are those of its delinquent rents, one for each period that has begun. -/
theorem assessLateFees_charges
    (hok : assessLateFees zone clock settings classId cycle now S = .ok (n, S')) :
    AddsFees S S' ∧ ∀ x, Assessed S' x ↔
      Assessed S x ∨ ChargedFor zone now S classId cycle settings x := by
  unfold assessLateFees at hok
  split at hok
  · next penalty grace hpenalty hgrace =>
    have hperiods : latePeriods zone settings cycle.graceBoundaryAt now =
        if penalty ≤ 0 ∨ now ≤ grace then 0 else lateFeePeriodsElapsed zone settings grace now := by
      simp only [latePeriods, hpenalty, hgrace]
    by_cases hnone : penalty ≤ 0 ∨ now ≤ grace
    · rw [if_pos hnone, pure_eq_ok, Prod.mk.injEq] at hok
      obtain ⟨-, rfl⟩ := hok
      refine ⟨.refl S, fun x ↦ ⟨.inl, fun hx ↦ hx.elim id ?_⟩⟩
      rintro ⟨seat, -, -, k, hk, hle, -⟩
      rw [hperiods, if_pos hnone] at hle
      omega
    · rw [if_neg hnone] at hok hperiods
      refine tally_adds (I := AddsFees S) (P := Assessed) (Q := fun (seat : Seat) x ↦
        Outstanding S (rentCorrelation classId seat.id cycle.cycleNumber) ∧
          ∃ k, 1 ≤ k ∧ k ≤ latePeriods zone settings cycle.graceBoundaryAt now ∧
            x = lateCorrelation (rentCorrelation classId seat.id cycle.cycleNumber) k)
        hok (.refl S) ?_
      intro seat _ S₁ m S₂ hI hstep
      simp only at hstep
      have hsame := hI.outstanding classId seat.id cycle.cycleNumber
      split_ifs at hstep with howed
      · have hfees := tally_adds (I := AddsFees S) (P := Assessed) (Q := fun (k : ℕ) x ↦
          x = lateCorrelation (rentCorrelation classId seat.id cycle.cycleNumber) k) hstep hI
            (fun k _ S₃ j S₄ hI₃ hassess ↦ by
              simp only [bind_eq_ok, Prod.exists, pure_eq_ok, Prod.mk.injEq] at hassess
              obtain ⟨created, S₅, hassess, -, rfl⟩ := hassess
              exact ⟨hI₃.trans (assessObligation_addsFees rfl hassess),
                assessObligation_assessed hassess⟩)
        refine ⟨hfees.1, fun x ↦ (hfees.2 x).trans (or_congr_right ?_)⟩
        have howed' := hsame.1 howed
        rw [hperiods]
        constructor
        · rintro ⟨k, hk, hx⟩
          obtain ⟨i, hi, rfl⟩ := List.mem_map.1 hk
          have hlt := List.mem_range.1 hi
          exact ⟨howed', i + 1, by omega, hlt, hx⟩
        · rintro ⟨-, k, hk, hle, hx⟩
          exact ⟨k, List.mem_map.2 ⟨k - 1, List.mem_range.2 (by omega), by omega⟩, hx⟩
      · rw [pure_eq_ok, Prod.mk.injEq] at hstep
        obtain ⟨-, rfl⟩ := hstep
        refine ⟨hI, fun x ↦ ⟨.inl, fun hx ↦ hx.elim id ?_⟩⟩
        rintro ⟨howed', -⟩
        exact absurd (hsame.2 howed') howed
  · next hmissing =>
    rw [pure_eq_ok, Prod.mk.injEq] at hok
    obtain ⟨-, rfl⟩ := hok
    refine ⟨.refl S, fun x ↦ ⟨.inl, fun hx ↦ hx.elim id ?_⟩⟩
    rintro ⟨seat, -, -, k, hk, hle, -⟩
    have hzero : latePeriods zone settings cycle.graceBoundaryAt now = 0 := by
      unfold latePeriods
      split
      · next penalty grace hpenalty hgrace => exact (hmissing penalty grace hpenalty hgrace).elim
      · rfl
    omega

theorem accrueLateFees_charges {t : RunTerms} {res res' : ReconcileRentResult}
    {cycles : List BillCycle}
    (hok : accrueLateFees zone clock t res S cycles = .ok (res', S')) :
    AddsFees S S' ∧ ∀ x, Assessed S' x ↔ Assessed S x ∨ ∃ cycle ∈ cycles, ∃ terms,
      cycleTerms S t.classId cycle t.settings = some terms ∧
        ChargedFor zone t.now S t.classId cycle terms x := by
  induction cycles generalizing S res with
  | nil =>
    rw [accrueLateFees, pure_eq_ok, Prod.mk.injEq] at hok
    obtain ⟨-, rfl⟩ := hok
    exact ⟨.refl S, by simp⟩
  | cons cycle cycles ih =>
    rw [accrueLateFees] at hok
    split at hok
    · next hterms =>
      obtain ⟨hadds, hiff⟩ := ih hok
      refine ⟨hadds, fun x ↦ ?_⟩
      rw [hiff]
      simp [hterms]
    · next terms hterms =>
      simp only [bind_eq_ok, Prod.exists] at hok
      obtain ⟨m, S₁, hfirst, hrest⟩ := hok
      obtain ⟨hadds, hiff⟩ := assessLateFees_charges hfirst
      obtain ⟨hadds', hiff'⟩ := ih hrest
      refine ⟨hadds.trans hadds', fun x ↦ ?_⟩
      rw [hiff', hiff, or_assoc]
      simp only [hadds.cycleTerms, hadds.chargedFor, List.exists_mem_cons_iff, hterms,
        Option.some.injEq, exists_eq_left']

end Stage

end TokenHub.Rent
