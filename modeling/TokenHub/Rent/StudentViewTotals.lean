import TokenHub.Rent.LateFeeRuns
import TokenHub.Rent.StudentView

set_option autoImplicit false

namespace TokenHub.Rent

open Ledger Lib.Checks Lib.Runs

variable {sha256 : String → String} {zones : String → ClassZone} {zone : ClassZone}
  {now : Instant} {S S' : RentState} {seatId : ℕ} {classId : String}
  {a b c : ObligationAssessment}

section Cycles

def CyclesForward (S : RentState) : Prop :=
  ∀ c ∈ S.billCycles, ∀ next, c.nextAssessmentAt = some next → c.cycleBoundaryAt < next

theorem CyclesForward.move (h : CyclesForward S) (hm : Move sha256 zones now S S') :
    CyclesForward S' := by
  cases hm with
  | @cycle c r hc _ _ _ =>
    intro d hd next hnext
    rcases List.mem_append.1 hd with hd | hd
    · exact h d hd next hnext
    · obtain rfl := List.mem_singleton.1 hd
      obtain ⟨date, hdate, hlt⟩ := hc.ends
      rw [hnext, Option.some.injEq] at hdate
      rwa [hdate]
  | _ => exact h

theorem CyclesForward.moves (h : CyclesForward S) (hm : Moves sha256 zones now S S') :
    CyclesForward S' := by
  induction hm with
  | refl => exact h
  | tail _ hlast ih => exact ih.move hlast

theorem CyclesForward.run (h : CyclesForward S) (hi : RentInvariant sha256 S)
    (xs : List RentAction) : CyclesForward (Lib.Runs.run (rentStep sha256 zones) S xs) := by
  induction xs generalizing S with
  | nil => exact h
  | cons x xs ih =>
    have hm : Moves sha256 zones (x.instant.getD 0) S (rentStep sha256 zones S x) :=
      hi.step_moves x 0
    rw [run_cons]
    exact ih (h.moves hm) (hi.moves hm).invariant

theorem currentAmong_total {cycles : List BillCycle}
    (h : ∀ c ∈ cycles, ∀ next, c.nextAssessmentAt = some next → c.cycleBoundaryAt < next) :
    ∃ o, currentAmong now cycles = .ok o := by
  induction cycles with
  | nil => exact ⟨none, rfl⟩
  | cons d cycles ih =>
    obtain ⟨o, ho⟩ := ih fun c hc ↦ h c (by simp [hc])
    unfold currentAmong
    split
    · exact ⟨o, ho⟩
    · next next hnext =>
      rw [require_of (h d (by simp) next hnext), ok_bind]
      split_ifs
      · exact ⟨some d, rfl⟩
      · exact ⟨o, ho⟩

theorem CyclesForward.getCurrentBillCycle (h : CyclesForward S) (classId ref : String)
    (now : Instant) : ∃ o, getCurrentBillCycle S classId ref now = .ok o := by
  unfold Rent.getCurrentBillCycle
  simp only
  split_ifs
  · exact ⟨none, rfl⟩
  · refine currentAmong_total fun c hc ↦ h c ?_
    have hmem := List.mem_of_mem_filter hc
    rw [getBillCyclesForInternalRef, List.mem_insertionSort] at hmem
    exact List.mem_of_mem_filter hmem

end Cycles

section Selection

theorem firstByDue_mem {due : ObligationAssessment → Instant} {as : List ObligationAssessment}
    (h : firstByDue due as = some a) : a ∈ as := by
  induction as generalizing a with
  | nil => cases h
  | cons b as ih =>
    rw [firstByDue] at h
    split at h
    · obtain rfl := Option.some.inj h
      simp
    · next d hd =>
      split_ifs at h
      · obtain rfl := Option.some.inj h
        simp
      · obtain rfl := Option.some.inj h
        exact List.mem_cons_of_mem _ (ih hd)

theorem CyclesForward.select (h : CyclesForward S) {bills : List ObligationAssessment}
    {sources : List (Option String)} :
    ∃ current, selectCurrentAssessment S classId bills sources now = .ok current ∧
      (current = none ↔ bills = []) ∧ ∀ c, current = some c → c ∈ bills := by
  unfold selectCurrentAssessment
  simp only
  split
  · next _ a hfirst =>
    have hmem := List.mem_of_mem_filter (firstByDue_mem hfirst)
    refine ⟨some a, rfl, ?_, fun c hc ↦ Option.some.inj hc ▸ hmem⟩
    exact ⟨nofun, fun hnil ↦ by simp [hnil] at hmem⟩
  · next hlast =>
    exact ⟨none, rfl, ⟨fun _ ↦ List.getLast?_eq_none_iff.1 hlast, fun _ ↦ rfl⟩, nofun⟩
  · next latest _ hlast =>
    have hmem := List.mem_of_getLast? hlast
    have hne : bills ≠ [] := List.ne_nil_of_mem hmem
    split
    · exact ⟨some latest, rfl, ⟨nofun, fun hnil ↦ absurd hnil hne⟩,
        fun c hc ↦ Option.some.inj hc ▸ hmem⟩
    · next cycle _ =>
      obtain ⟨o, ho⟩ := h.getCurrentBillCycle classId cycle.internalRef now
      rw [ho, ok_bind]
      refine ⟨_, rfl, ?_, ?_⟩
      · rw [Option.or_eq_none_iff]
        exact ⟨fun hnone ↦ absurd hnone.2 (by simp), fun hnil ↦ absurd hnil hne⟩
      · intro c hc
        rw [Option.or_eq_some_iff] at hc
        rcases hc with hfound | ⟨-, hlatest⟩
        · obtain ⟨d, -, hd⟩ := Option.bind_eq_some_iff.1 hfound
          exact List.mem_of_find?_eq_some hd
        · exact Option.some.inj hlatest ▸ hmem

end Selection

section Bills

theorem mem_assessmentsOf {type : ObligationType} : a ∈ assessmentsOf S seatId classId type ↔
    a ∈ S.assessmentEvents ∧ a.seatId = seatId ∧ a.classId = classId ∧ a.obligationType = type ∧
      a.IsAssessment := by
  rw [assessmentsOf, List.mem_insertionSort, List.mem_filter, decide_eq_true_eq]
  rfl

theorem RentInvariant.assessmentsOf_nodup (h : RentInvariant sha256 S) (type : ObligationType) :
    (assessmentsOf S seatId classId type).Nodup :=
  (List.perm_insertionSort _ _).nodup_iff.2 (h.events_nodup.filter _)

def waived (S : RentState) (correlationId : String) : Bool :=
  (getSatisfactionEvents S correlationId).any (·.eventType = .waived)

/-- A bill that is shown is owed where it is not waived and not paid in full. -/
theorem RentInvariant.shown_outstanding (h : RentInvariant sha256 S)
    (ha : a ∈ shownBills S seatId classId) : Outstanding S a.correlationId ↔
      waived S a.correlationId = false ∧
        getPaidMagnitude S a.correlationId < resolveAssessmentAmount S a := by
  obtain ⟨hmem, hopen⟩ := List.mem_filter.1 ha
  obtain ⟨hev, -, -, -, hass⟩ := mem_assessmentsOf.1 hmem
  have hopen' : getWithdrawalEvent S a.correlationId = none := of_decide_eq_true hopen
  simp only [Outstanding, getObligationState, h.found hev hass, Option.map_some, Option.any_some,
    decide_eq_true_eq, hopen', Option.isSome_none]
  rw [if_neg (by simp)]
  cases hw : (getSatisfactionEvents S a.correlationId).any (·.eventType = .waived) with
  | true => simp [waived, hw]
  | false =>
    simp only [waived, hw, true_and, Bool.false_eq_true, false_or]
    split_ifs with hle
    · exact ⟨fun hst ↦ (by cases hst), fun hlt ↦ absurd hlt (not_lt.2 hle)⟩
    · exact ⟨fun _ ↦ not_le.1 hle, fun _ ↦ rfl⟩

theorem RentInvariant.outstanding_remaining (h : RentInvariant sha256 S)
    (ha : a ∈ S.assessmentEvents) (hass : a.IsAssessment)
    (hout : Outstanding S a.correlationId) : remainingAmount S a.correlationId =
      resolveAssessmentAmount S a - getPaidMagnitude S a.correlationId ∧
        0 < remainingAmount S a.correlationId := by
  simp only [Outstanding, getObligationState, h.found ha hass, Option.map_some, Option.any_some,
    decide_eq_true_eq] at hout
  have hrem : remainingAmount S a.correlationId =
      resolveAssessmentAmount S a - getPaidMagnitude S a.correlationId := by
    simp only [remainingAmount, getObligationState, h.found ha hass, Option.map_some,
      Option.getD_some]
    rw [if_pos hout]
  refine ⟨hrem, ?_⟩
  rw [hrem]
  split_ifs at hout with hwithdrawn hsettled
  push Not at hsettled
  omega

end Bills

section Projection

def graceOver (S : RentState) (now : Instant) (a : ObligationAssessment) : Bool :=
  ((billCycle S a.billCycleId).bind (·.graceBoundaryAt)).any (fun grace ↦ decide (grace < now))

def latePenalty (S : RentState) (a : ObligationAssessment) : ℤ :=
  ((rentPolicy S a.policyUuid).bind (·.latePenaltyAmount)).getD 0

/-- What a bill's entry reads from its cycle's policy is what its assessment froze. -/
structure Projects (S : RentState) (now : Instant) (a : ObligationAssessment) (p : PeriodInfo) :
    Prop where
  correlationId : p.correlationId = a.correlationId
  amountDue : p.amountDue = resolveAssessmentAmount S a
  isWaived : p.isWaived = waived S a.correlationId
  isPaid : p.isPaid = true ↔
    resolveAssessmentAmount S a ≤ getPaidMagnitude S a.correlationId
  remaining : p.remainingAmount =
    max 0 (resolveAssessmentAmount S a - getPaidMagnitude S a.correlationId)
  balance : p.balance = resolveAssessmentAmount S a - getPaidMagnitude S a.correlationId +
    if graceOver S now a = true ∧ getPaidMagnitude S a.correlationId < resolveAssessmentAmount S a
    then latePenalty S a else 0

theorem RentInvariant.projects (h : RentInvariant sha256 S) (zone : ClassZone) (now : Instant)
    (ha : a ∈ S.assessmentEvents) (hass : a.IsAssessment) (hrent : a.obligationType = .rent) :
    Projects S now a (periodInfo S zone now a) := by
  obtain ⟨d, hd, hfor⟩ := h.assessments a ha hass
  have hcycle : Rent.billCycle S a.billCycleId = some d := by rw [hfor.billCycleId, h.billCycle hd]
  have hpolicy : rentPolicy S d.policyUuid = rentPolicy S a.policyUuid := by rw [hfor.policyUuid]
  have hamount : ((rentPolicy S a.policyUuid).bind (·.rentAmount)).getD 0 =
      resolveAssessmentAmount S a := by
    rw [resolveAssessmentAmount, hrent]
  have hpaid : max 0 (resolveAssessmentAmount S a - getPaidMagnitude S a.correlationId) ≤ 0 ↔
      resolveAssessmentAmount S a ≤ getPaidMagnitude S a.correlationId := by omega
  constructor
  · rfl
  · simp [periodInfo, buildRentPolicyProjection, hcycle, hpolicy, hamount]
  · rfl
  · simp only [periodInfo, buildRentPolicyProjection, hcycle, Option.bind_some, hpolicy, hamount,
      decide_eq_true_eq, hpaid]
  · simp only [periodInfo, buildRentPolicyProjection, hcycle, Option.bind_some, hpolicy, hamount]
  · simp only [periodInfo, buildRentPolicyProjection, hcycle, Option.bind_some, hpolicy, hamount,
      graceOver, latePenalty]
    omega

end Projection

section Totals

def remainingOver (S : RentState) (as : List ObligationAssessment) : ℤ :=
  ((as.filter (fun a ↦ Outstanding S a.correlationId)).map
    (fun a ↦ remainingAmount S a.correlationId)).sum

/-- What a seat owes: the remaining amounts of its outstanding rents and late fees. -/
def debtsOwed (S : RentState) (seatId : ℕ) (classId : String) : ℤ :=
  remainingOver S (assessmentsOf S seatId classId .rent) +
    remainingOver S (assessmentsOf S seatId classId .lateFee)

theorem RentInvariant.remainingOver_shown (h : RentInvariant sha256 S) (seatId : ℕ)
    (classId : String) : remainingOver S (assessmentsOf S seatId classId .rent) =
      remainingOver S (shownBills S seatId classId) := by
  unfold remainingOver shownBills
  rw [List.filter_filter]
  congr 2
  refine List.filter_congr fun a ha ↦ ?_
  obtain ⟨hev, -, -, -, hass⟩ := mem_assessmentsOf.1 ha
  by_cases hout : Outstanding S a.correlationId
  · have hopen : getWithdrawalEvent S a.correlationId = none := by
      have hnone := ((h.outstanding_iff hev hass).1 hout).1
      rw [getWithdrawalEvent, List.find?_eq_none]
      intro e he
      simp only [decide_eq_true_eq, not_and]
      exact fun hcorr ↦ (hnone e he hcorr).1
    simp [hout, hopen]
  · simp [hout]

theorem RentInvariant.feesDue (h : RentInvariant sha256 S) (seatId : ℕ) (classId : String)
    (now : Instant) : (buildLateFeeRows S seatId classId now).2 =
      remainingOver S (assessmentsOf S seatId classId .lateFee) := by
  have hmem : ∀ a ∈ assessmentsOf S seatId classId .lateFee,
      a ∈ S.assessmentEvents ∧ a.IsAssessment := by
    intro a ha
    obtain ⟨hev, -, -, -, hass⟩ := mem_assessmentsOf.1 ha
    exact ⟨hev, hass⟩
  simp only [buildLateFeeRows, remainingOver]
  generalize assessmentsOf S seatId classId .lateFee = as at hmem
  induction as with
  | nil => rfl
  | cons a as ih =>
    have htail := ih fun b hb ↦ hmem b (by simp [hb])
    obtain ⟨hev, hass⟩ := hmem a (by simp)
    cases hstate : getObligationState S a.correlationId with
    | none =>
      rw [getObligationState, h.found hev hass] at hstate
      cases hstate
    | some st =>
      rw [List.filterMap_cons, hstate]
      simp only [Option.map_some]
      have hrem : remainingAmount S a.correlationId = st.remainingAmount := by
        rw [remainingAmount, hstate]
        rfl
      have hout : Outstanding S a.correlationId ↔ st.status = .outstanding := by
        simp [Outstanding, hstate]
      by_cases howed : st.status = .outstanding
      · rw [List.filter_cons_of_pos (by simp [lateFeeRow, howed]),
          List.filter_cons_of_pos (by simpa using hout.2 howed), List.map_cons, List.map_cons,
          List.sum_cons, List.sum_cons, htail, hrem]
        rfl
      · have hzero : st.remainingAmount = 0 := by
          rw [getObligationState, h.found hev hass, Option.map_some, Option.some.injEq] at hstate
          subst hstate
          exact if_neg howed
        have hdrop : (a :: as).filter (fun a ↦ decide (Outstanding S a.correlationId)) =
            as.filter (fun a ↦ decide (Outstanding S a.correlationId)) :=
          List.filter_cons_of_neg (by simpa using mt hout.1 howed)
        rw [hdrop, ← htail]
        by_cases hpaid : st.status = .satisfied
        · rw [List.filter_cons_of_neg (by simp [lateFeeRow, hpaid])]
        · rw [List.filter_cons_of_pos (by simp [lateFeeRow, hpaid]), List.map_cons, List.sum_cons]
          simp [lateFeeRow, hzero]

end Totals

section Page

/-- The entry of a bill other than the one that is shown first tells what the bill is. -/
def EntryShows (S : RentState) (b : ObligationAssessment) (p : PriorObligation) : Prop :=
  if Outstanding S b.correlationId then
    p.status = .outstanding ∧ p.amount = remainingAmount S b.correlationId
  else p.status ≠ .outstanding

/-- A view that shows the canonical debts: its total, and each bill for what it is, whatever is
paid, waived or withdrawn adding nothing. -/
structure ViewShowsDebts (S : RentState) (seatId : ℕ) (classId : String)
    (v : StudentObligationView) : Prop where
  total : v.totals.totalOwed + v.lateFeesTotalDue = debtsOwed S seatId classId
  bills : ∃ c others, (c :: others).Perm (shownBills S seatId classId) ∧
    v.currentPeriod.correlationId = c.correlationId ∧
      (if Outstanding S c.correlationId then v.currentPeriod.isPaid = false ∧
        v.currentPeriod.isWaived = false ∧
          v.currentPeriod.remainingAmount = remainingAmount S c.correlationId
      else v.currentPeriod.balance = 0) ∧
        List.Forall₂ (EntryShows S) others v.priorObligations

def PageShowsDebts (S : RentState) (seatId : ℕ) (classId : String) :
    Option StudentObligationView → Prop
  | none => debtsOwed S seatId classId = 0
  | some v => ViewShowsDebts S seatId classId v

def PlainlyShown (S : RentState) (now : Instant) (seatId : ℕ) (classId : String) :
    Option ObligationAssessment → Prop
  | none => ∀ f ∈ assessmentsOf S seatId classId .lateFee, ¬ Outstanding S f.correlationId
  | some c =>
    (∀ b ∈ shownBills S seatId classId, b ≠ c → Outstanding S b.correlationId →
      getPaidMagnitude S b.correlationId = 0) ∧
    (Outstanding S c.correlationId → graceOver S now c = false ∨ latePenalty S c = 0) ∧
    (¬ Outstanding S c.correlationId →
      getPaidMagnitude S c.correlationId = resolveAssessmentAmount S c ∨
        graceOver S now c = true ∧
          getPaidMagnitude S c.correlationId < resolveAssessmentAmount S c ∧
            latePenalty S c = getPaidMagnitude S c.correlationId - resolveAssessmentAmount S c)

/-- The part of the first bill's balance that nobody owes. -/
def excess (S : RentState) (now : Instant) (c : ObligationAssessment) : ℤ :=
  (if Outstanding S c.correlationId then 0
    else resolveAssessmentAmount S c - getPaidMagnitude S c.correlationId) +
  if graceOver S now c = true ∧ getPaidMagnitude S c.correlationId < resolveAssessmentAmount S c
  then latePenalty S c else 0

theorem RentInvariant.excess_eq_zero_iff (h : RentInvariant sha256 S)
    (hc : c ∈ shownBills S seatId classId) : excess S now c = 0 ↔
      (Outstanding S c.correlationId → graceOver S now c = false ∨ latePenalty S c = 0) ∧
      (¬ Outstanding S c.correlationId →
        getPaidMagnitude S c.correlationId = resolveAssessmentAmount S c ∨
          graceOver S now c = true ∧
            getPaidMagnitude S c.correlationId < resolveAssessmentAmount S c ∧
              latePenalty S c =
                getPaidMagnitude S c.correlationId - resolveAssessmentAmount S c) := by
  unfold excess
  by_cases hout : Outstanding S c.correlationId
  · have hlt := ((h.shown_outstanding hc).1 hout).2
    simp only [hout, if_true, zero_add, hlt, and_true, true_imp_iff, not_true_eq_false,
      false_imp_iff]
    cases graceOver S now c <;> simp
  · simp only [hout, if_false, false_imp_iff, true_and, not_false_eq_true, true_imp_iff]
    by_cases hlate : graceOver S now c = true ∧
        getPaidMagnitude S c.correlationId < resolveAssessmentAmount S c
    · rw [if_pos hlate]
      obtain ⟨hgrace, hlt⟩ := hlate
      simp only [hgrace, hlt, true_and]
      omega
    · rw [if_neg hlate]
      constructor
      · intro hzero
        exact .inl (by omega)
      · rintro (heq | ⟨hgrace, hlt, -⟩)
        · omega
        · exact absurd ⟨hgrace, hlt⟩ hlate

def paidOn (S : RentState) (as : List ObligationAssessment) : ℤ :=
  ((as.filter (fun b ↦ Outstanding S b.correlationId)).map
    (fun b ↦ getPaidMagnitude S b.correlationId)).sum

theorem paidMagnitude_nonneg (S : RentState) (x : String) : 0 ≤ getPaidMagnitude S x := by
  refine List.sum_nonneg fun n hn ↦ ?_
  obtain ⟨e, -, rfl⟩ := List.mem_map.1 hn
  exact magnitude_nonneg S e

theorem paidOn_eq_zero_iff {as : List ObligationAssessment} : paidOn S as = 0 ↔
    ∀ b ∈ as, Outstanding S b.correlationId → getPaidMagnitude S b.correlationId = 0 := by
  unfold paidOn
  constructor
  · intro hzero b hb hout
    refine List.all_zero_of_le_zero_le_of_sum_eq_zero (fun n hn ↦ ?_) hzero
      (List.mem_map.2 ⟨b, List.mem_filter.2 ⟨hb, decide_eq_true hout⟩, rfl⟩)
    obtain ⟨d, -, rfl⟩ := List.mem_map.1 hn
    exact paidMagnitude_nonneg S d.correlationId
  · intro hall
    refine List.sum_eq_zero fun n hn ↦ ?_
    obtain ⟨b, hb, rfl⟩ := List.mem_map.1 hn
    obtain ⟨hmem, hout⟩ := List.mem_filter.1 hb
    exact hall b hmem (of_decide_eq_true hout)

/-- A prior bill is listed as outstanding where it is, but by its full amount. -/
theorem RentInvariant.prior_entry (h : RentInvariant sha256 S) (zone : ClassZone) (now : Instant)
    (hb : b ∈ shownBills S seatId classId) :
    ((priorObligation S zone now b).status = .outstanding ↔ Outstanding S b.correlationId) ∧
      (priorObligation S zone now b).amount = resolveAssessmentAmount S b := by
  obtain ⟨hev, -, -, hrent, hass⟩ := mem_assessmentsOf.1 (List.mem_of_mem_filter hb)
  have hp := h.projects zone now hev hass hrent
  refine ⟨?_, hp.amountDue⟩
  rw [h.shown_outstanding hb, ← hp.isWaived, ← not_le, ← hp.isPaid]
  simp only [priorObligation]
  cases (periodInfo S zone now b).isPaid <;> cases (periodInfo S zone now b).isWaived <;> simp

theorem RentInvariant.priors_total (h : RentInvariant sha256 S) (zone : ClassZone) (now : Instant)
    {others : List ObligationAssessment} (ho : ∀ b ∈ others, b ∈ shownBills S seatId classId) :
    (((others.map (priorObligation S zone now)).filter (·.status = .outstanding)).map
      (·.amount)).sum = remainingOver S others + paidOn S others := by
  induction others with
  | nil => rfl
  | cons b others ih =>
    have htail := ih fun d hd ↦ ho d (by simp [hd])
    have hb := ho b (by simp)
    obtain ⟨hstatus, hamount⟩ := h.prior_entry zone now hb
    obtain ⟨hev, -, -, -, hass⟩ := mem_assessmentsOf.1 (List.mem_of_mem_filter hb)
    unfold remainingOver paidOn at htail ⊢
    by_cases hout : Outstanding S b.correlationId
    · obtain ⟨hrem, -⟩ := h.outstanding_remaining hev hass hout
      have hlisted := hstatus.2 hout
      simp only [List.map_cons, List.filter_cons, hlisted, hout, decide_true, if_true,
        List.sum_cons, htail, hamount, hrem]
      omega
    · have hlisted := mt hstatus.1 hout
      simp only [List.map_cons, List.filter_cons, hlisted, hout, decide_false, Bool.false_eq_true,
        if_false, htail]

theorem entries_total {others : List ObligationAssessment} {ps : List PriorObligation}
    (h : List.Forall₂ (EntryShows S) others ps) :
    ((ps.filter (·.status = .outstanding)).map (·.amount)).sum = remainingOver S others := by
  induction h with
  | nil => rfl
  | @cons b p others ps hp _ ih =>
    unfold EntryShows at hp
    unfold remainingOver at ih ⊢
    split_ifs at hp with hout
    · simp only [List.filter_cons, hp.1, hout, decide_true, if_true, List.map_cons, List.sum_cons,
        hp.2, ih]
    · simp only [List.filter_cons, hp, hout, decide_false, Bool.false_eq_true, if_false, ih]

theorem remainingOver_perm {as bs : List ObligationAssessment} (h : as.Perm bs) :
    remainingOver S as = remainingOver S bs :=
  ((h.filter _).map _).sum_eq

theorem RentInvariant.shownBills_nodup (h : RentInvariant sha256 S) :
    (shownBills S seatId classId).Nodup := (h.assessmentsOf_nodup .rent).filter _

theorem RentInvariant.shownBills_perm (h : RentInvariant sha256 S)
    (hc : c ∈ shownBills S seatId classId) :
    (c :: (shownBills S seatId classId).filter (· ≠ c)).Perm (shownBills S seatId classId) := by
  have hfilter : (shownBills S seatId classId).filter (· ≠ c) =
      (shownBills S seatId classId).filter (· != c) := by
    refine List.filter_congr fun b _ ↦ ?_
    rw [Bool.eq_iff_iff]
    simp
  rw [hfilter, ← h.shownBills_nodup.erase_eq_filter]
  exact (List.perm_cons_erase hc).symm

theorem RentInvariant.balance_eq (h : RentInvariant sha256 S) (zone : ClassZone) (now : Instant)
    (hc : c ∈ shownBills S seatId classId) :
    (periodInfo S zone now c).balance = remainingOver S [c] + excess S now c := by
  obtain ⟨hev, -, -, hrent, hass⟩ := mem_assessmentsOf.1 (List.mem_of_mem_filter hc)
  rw [(h.projects zone now hev hass hrent).balance]
  unfold remainingOver excess
  by_cases hout : Outstanding S c.correlationId
  · obtain ⟨hrem, -⟩ := h.outstanding_remaining hev hass hout
    simp only [List.filter_cons, hout, decide_true, if_true, List.filter_nil, List.map_cons,
      List.map_nil, List.sum_cons, List.sum_nil, hrem]
    omega
  · simp only [List.filter_cons, hout, decide_false, Bool.false_eq_true, if_false, List.filter_nil,
      List.map_nil, List.sum_nil]
    omega

theorem remainingOver_cons (a : ObligationAssessment) (as : List ObligationAssessment) :
    remainingOver S (a :: as) = remainingOver S [a] + remainingOver S as := by
  unfold remainingOver
  rw [← List.sum_append, ← List.map_append, ← List.filter_append]
  rfl

theorem RentInvariant.total_eq (h : RentInvariant sha256 S) (zone : ClassZone) (now : Instant)
    (hc : c ∈ shownBills S seatId classId) :
    totalOwed (periodInfo S zone now c) (((shownBills S seatId classId).filter (· ≠ c)).map
        (priorObligation S zone now)) + (buildLateFeeRows S seatId classId now).2 =
      debtsOwed S seatId classId + (excess S now c +
        paidOn S ((shownBills S seatId classId).filter (· ≠ c))) := by
  have hsub : ∀ b ∈ (shownBills S seatId classId).filter (· ≠ c),
      b ∈ shownBills S seatId classId := fun b hb ↦ List.mem_of_mem_filter hb
  have hsplit := remainingOver_perm (S := S) (h.shownBills_perm hc)
  rw [remainingOver_cons] at hsplit
  rw [totalOwed, h.balance_eq zone now hc, h.priors_total zone now hsub, h.feesDue, debtsOwed,
    h.remainingOver_shown, ← hsplit]
  omega

/-- A view shows the debts where nothing is over the first bill's and nothing was paid on another
outstanding one. -/
theorem RentInvariant.viewShowsDebts_iff (h : RentInvariant sha256 S) (zone : ClassZone)
    (hc : c ∈ shownBills S seatId classId) {v : StudentObligationView}
    (hperiod : v.currentPeriod = periodInfo S zone now c)
    (hpriors : v.priorObligations = ((shownBills S seatId classId).filter (· ≠ c)).map
      (priorObligation S zone now))
    (htotal : v.totals.totalOwed = totalOwed v.currentPeriod v.priorObligations)
    (hfees : v.lateFeesTotalDue = (buildLateFeeRows S seatId classId now).2) :
    ViewShowsDebts S seatId classId v ↔ PlainlyShown S now seatId classId (some c) := by
  obtain ⟨hev, -, -, hrent, hass⟩ := mem_assessmentsOf.1 (List.mem_of_mem_filter hc)
  have hp := h.projects zone now hev hass hrent
  have htotal' := h.total_eq zone now hc
  rw [← hperiod, ← hpriors, ← htotal, ← hfees] at htotal'
  have hsub : ∀ b ∈ (shownBills S seatId classId).filter (· ≠ c),
      b ∈ shownBills S seatId classId := fun b hb ↦ List.mem_of_mem_filter hb
  have hothers : (∀ b ∈ shownBills S seatId classId, b ≠ c → Outstanding S b.correlationId →
      getPaidMagnitude S b.correlationId = 0) ↔
        paidOn S ((shownBills S seatId classId).filter (· ≠ c)) = 0 := by
    rw [paidOn_eq_zero_iff]
    simp only [List.mem_filter, decide_eq_true_eq, and_imp]
  rw [PlainlyShown, hothers, ← h.excess_eq_zero_iff hc]
  constructor
  · intro hv
    obtain ⟨d, others, hperm, hcorr, -, hentries⟩ := hv.bills
    have hd : d ∈ shownBills S seatId classId := hperm.subset (by simp)
    obtain ⟨hdev, -, -, -, hdass⟩ := mem_assessmentsOf.1 (List.mem_of_mem_filter hd)
    rw [hperiod, hp.correlationId] at hcorr
    obtain rfl := h.assessedOnce c hev d hdev hass hdass hcorr
    -- However the entries are told apart, they add up to what the other bills owe.
    have hsame := remainingOver_perm (S := S)
      ((hperm.trans (h.shownBills_perm hc).symm).cons_inv)
    have hsum := entries_total hentries
    rw [hpriors, h.priors_total zone now hsub, hsame] at hsum
    have hpaid : paidOn S ((shownBills S seatId classId).filter (· ≠ c)) = 0 := by omega
    have hall := hv.total
    omega
  · rintro ⟨hpaid, hexcess⟩
    refine ⟨by omega, c, _, h.shownBills_perm hc, by rw [hperiod, hp.correlationId], ?_, ?_⟩
    · rw [hperiod]
      split_ifs with hout
      · obtain ⟨hwaived, hlt⟩ := (h.shown_outstanding hc).1 hout
        obtain ⟨hrem, -⟩ := h.outstanding_remaining hev hass hout
        refine ⟨?_, hp.isWaived.trans hwaived, ?_⟩
        · rw [← Bool.not_eq_true, hp.isPaid]
          exact not_le.2 hlt
        · rw [hp.remaining, hrem]
          omega
      · rw [h.balance_eq zone now hc, hexcess, add_zero]
        simp [remainingOver, hout]
    · rw [hpriors, List.forall₂_map_right_iff, List.forall₂_same]
      intro b hb
      obtain ⟨hstatus, hamount⟩ := h.prior_entry zone now (hsub b hb)
      unfold EntryShows
      split_ifs with hout
      · obtain ⟨hbev, -, -, -, hbass⟩ := mem_assessmentsOf.1 (List.mem_of_mem_filter (hsub b hb))
        obtain ⟨hrem, -⟩ := h.outstanding_remaining hbev hbass hout
        have hzero := paidOn_eq_zero_iff.1 hpaid b hb hout
        rw [hamount, hrem, hzero]
        exact ⟨hstatus.2 hout, (sub_zero _).symm⟩
      · exact mt hstatus.1 hout

/-- Without a bill, the page shows the debts where no late fee is owed. -/
theorem RentInvariant.noBill_iff (h : RentInvariant sha256 S)
    (hnil : shownBills S seatId classId = []) : debtsOwed S seatId classId = 0 ↔
      ∀ f ∈ assessmentsOf S seatId classId .lateFee, ¬ Outstanding S f.correlationId := by
  have hpos : ∀ f ∈ assessmentsOf S seatId classId .lateFee, Outstanding S f.correlationId →
      0 < remainingAmount S f.correlationId := by
    intro f hf hout
    obtain ⟨hev, -, -, -, hass⟩ := mem_assessmentsOf.1 hf
    exact (h.outstanding_remaining hev hass hout).2
  rw [debtsOwed, h.remainingOver_shown, hnil]
  simp only [remainingOver, List.filter_nil, List.map_nil, List.sum_nil, zero_add]
  constructor
  · intro hzero f hf hout
    have hnonneg : ∀ n ∈ ((assessmentsOf S seatId classId .lateFee).filter
        (fun a ↦ Outstanding S a.correlationId)).map (fun a ↦ remainingAmount S a.correlationId),
          0 ≤ n := by
      intro n hn
      obtain ⟨g, hg, rfl⟩ := List.mem_map.1 hn
      obtain ⟨hmem, hgout⟩ := List.mem_filter.1 hg
      exact (hpos g hmem (of_decide_eq_true hgout)).le
    have hfzero := List.all_zero_of_le_zero_le_of_sum_eq_zero hnonneg hzero
      (List.mem_map.2 ⟨f, List.mem_filter.2 ⟨hf, decide_eq_true hout⟩, rfl⟩)
    exact absurd hfzero (hpos f hf hout).ne'
  · intro hnone
    rw [List.filter_eq_nil_iff.2 fun f hf ↦ by simpa using hnone f hf]
    rfl

/-- The rent page shows the canonical debts of a seat just where its first bill carries nothing
beyond its debt and no other outstanding bill is partly paid. -/
theorem rent_page_shows_debts_iff (sha256 : String → String) (zones : String → ClassZone)
    (seatClass : ℕ → Option String) (premiums : String → String → Option ℤ)
    (xs : List RentAction) (seatId : ℕ) (classId currentBlock : String) (now : Instant) :
    let S := run (rentStep sha256 zones) (.empty seatClass premiums) xs
    ∃ current view, selectCurrentAssessment S classId (shownBills S seatId classId)
        (((buildLateFeeRows S seatId classId now).1.filter (·.isPaid = false)).map
          (·.sourceCorrelationId)) now = .ok current ∧
      buildStudentObligationView S (zones classId) now seatId classId currentBlock = .ok view ∧
        (PageShowsDebts S seatId classId view ↔ PlainlyShown S now seatId classId current) := by
  intro S
  have h : RentInvariant sha256 S := reachable_invariant sha256 zones seatClass premiums xs
  have hstart : CyclesForward (.empty seatClass premiums) := by
    intro c hc
    cases hc
  have hforward : CyclesForward S :=
    hstart.run (.empty seatClass premiums : RentInvariant sha256 _) xs
  obtain ⟨current, hselect, hnone, hmem⟩ :
      ∃ current, selectCurrentAssessment S classId (shownBills S seatId classId)
          (((buildLateFeeRows S seatId classId now).1.filter (·.isPaid = false)).map
            (·.sourceCorrelationId)) now = .ok current ∧
        (current = none ↔ shownBills S seatId classId = []) ∧
          ∀ c, current = some c → c ∈ shownBills S seatId classId := hforward.select
  cases current with
  | none =>
    refine ⟨none, none, hselect, ?_, h.noBill_iff (hnone.1 rfl)⟩
    simp only [buildStudentObligationView, hselect, ok_bind]
    rfl
  | some c =>
    have hview : ∃ v, buildStudentObligationView S (zones classId) now seatId classId currentBlock =
        .ok (some v) ∧ v.currentPeriod = periodInfo S (zones classId) now c ∧
          v.priorObligations = ((shownBills S seatId classId).filter (· ≠ c)).map
            (priorObligation S (zones classId) now) ∧
          v.totals.totalOwed = totalOwed v.currentPeriod v.priorObligations ∧
          v.lateFeesTotalDue = (buildLateFeeRows S seatId classId now).2 := by
      simp only [buildStudentObligationView, hselect, ok_bind]
      exact ⟨_, rfl, rfl, rfl, rfl, rfl⟩
    obtain ⟨v, hbuild, hperiod, hpriors, htotal, hfees⟩ := hview
    exact ⟨some c, some v, hselect, hbuild,
      h.viewShowsDebts_iff (zones classId) (hmem c rfl) hperiod hpriors htotal hfees⟩

end Page

section Samples

def lateRent : RentState :=
  run (rentStep id fun _ ↦ utcZone) sampleStart (assessedAhead id ++
    [.reconcile sampleSurroundings (day 15) { classId := "c" }])

/-- The page shows 60.00 as owed and 10.00 as due on late fees, where 60.00 is owed in all. -/
theorem late_fee_shown_twice :
    ∃ view, buildStudentObligationView lateRent utcZone (day 15) 1 "c" "A" = .ok view ∧
      ¬ PageShowsDebts lateRent 1 "c" view := by
  have htotals : (buildStudentObligationView lateRent utcZone (day 15) 1 "c" "A").toOption.map
      (Option.map fun v ↦ (v.totals.totalOwed, v.lateFeesTotalDue)) = some (some (6000, 1000)) := by
    decide +kernel
  have hdebts : debtsOwed lateRent 1 "c" = 6000 := by decide +kernel
  cases hok : buildStudentObligationView lateRent utcZone (day 15) 1 "c" "A" with
  | error e =>
    rw [hok] at htotals
    cases htotals
  | ok view =>
    rw [hok] at htotals
    cases view with
    | none => cases htotals
    | some v =>
      simp only [Except.toOption, Option.map_some, Option.some.injEq, Prod.mk.injEq] at htotals
      refine ⟨some v, rfl, fun hshows ↦ ?_⟩
      have htotal := hshows.total
      rw [htotals.1, htotals.2, hdebts] at htotal
      cases htotal

end Samples

end TokenHub.Rent
