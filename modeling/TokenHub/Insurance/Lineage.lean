import TokenHub.Lib.Tiling
import TokenHub.Rent.Reconcile
import TokenHub.Insurance.Premiums

set_option autoImplicit false

namespace TokenHub.Insurance

open Ledger Rent Lib.Checks Lib.Digits Lib.Tiling

section Names

theorem premiumLineageRef_injective : Function.Injective premiumLineageRef := fun _ _ h ↦
  (numberText_suffix (by decide) (by decide) h).2

theorem numbered_inj {x y : String} {m n i j : ℕ} (hx : NoDigit x.toList.reverse)
    (hy : NoDigit y.toList.reverse) {tag : String} (htag : NoDigit tag.toList.reverse)
    (hne : tag ≠ "")
    (h : x ++ numberText m ++ tag ++ numberText i = y ++ numberText n ++ tag ++ numberText j) :
    m = n ∧ i = j := by
  obtain ⟨hfront, hij⟩ := numberText_suffix (noDigit_append _ htag hne)
    (noDigit_append _ htag hne) h
  exact ⟨(numberText_suffix hx hy (append_right_cancel hfront)).2, hij⟩

theorem premiumCorrelationId_inj {e e' n n' : ℕ}
    (h : premiumCorrelationId e n = premiumCorrelationId e' n') : e = e' ∧ n = n' :=
  numbered_inj (by decide) (by decide) (by decide) (by decide) h

theorem successionCommandIdentity_inj {e e' n n' : ℕ}
    (h : successionCommandIdentity e n = successionCommandIdentity e' n') : e = e' ∧ n = n' :=
  numbered_inj (by decide) (by decide) (by decide) (by decide) h

theorem continuationCorrelationId_injective : Function.Injective continuationCorrelationId :=
  fun _ _ h ↦ (numberText_suffix (by decide) (by decide) h).2

/-- Texts whose beginnings differ in a place are different. -/
theorem append_ne (x y : String) (i : ℕ) (hx : i < x.toList.length) (hy : i < y.toList.length)
    (hne : x.toList[i]? ≠ y.toList[i]?) (a b : String) : x ++ a ≠ y ++ b := by
  intro h
  have hat := congrArg (fun s : String ↦ s.toList[i]?) h
  simp only [String.toList_append] at hat
  rw [List.getElem?_append_left hx, List.getElem?_append_left hy] at hat
  exact hne hat

theorem purchase_ne_premium (key : String) (e n : ℕ) :
    "insurance-purchase:" ++ key ≠ premiumCorrelationId e n := by
  have hne := append_ne "insurance-purchase:" "insurance-premium:" 11 (by decide) (by decide)
    (by decide) key (numberText e ++ (":" ++ numberText n))
  rwa [← String.append_assoc, ← String.append_assoc] at hne

theorem purchase_ne_continuation (key : String) (e : ℕ) :
    "insurance-purchase:" ++ key ≠ continuationCorrelationId e :=
  append_ne "insurance-purchase:" "insurance-continuation:" 10 (by decide) (by decide) (by decide)
    key (numberText e)

end Names

def startOf (c : BillCycle) : Instant := c.cycleBoundaryAt

/-- The end of a period; a terminal row has no extent. -/
def stopOf (c : BillCycle) : Instant := c.nextAssessmentAt.getD c.cycleBoundaryAt

def lineage (S : RentState) (entitlementId : ℕ) : List BillCycle :=
  S.billCycles.filter (·.internalRef = premiumLineageRef entitlementId)

/-- The cycles of a grant: periods that follow one another from its instant on, and the terminal
row, where there is one. -/
structure Lineage (S : RentState) (g : CoverageEvent) (periods : List BillCycle)
    (closing : Option BillCycle) (stop : Instant) : Prop where
  split : lineage S g.entitlementId = periods ++ closing.toList
  opened : periods ≠ []
  tiles : Tiles startOf stopOf g.timestamp periods stop
  closes : ∀ c ∈ closing, c.nextAssessmentAt = none
  numbered : ∀ i c, (lineage S g.entitlementId)[i]? = some c → c.cycleNumber = i + 1
  owned : ∀ c ∈ lineage S g.entitlementId,
    c.classId = g.classId ∧ c.policyUuid = some g.policyUuid

section Reads

variable {S : RentState} {g : CoverageEvent} {periods : List BillCycle}
  {closing : Option BillCycle} {stop now t : Instant} {c : BillCycle}

theorem Lineage.mem_periods (h : Lineage S g periods closing stop) (hc : c ∈ periods) :
    c ∈ lineage S g.entitlementId := by
  rw [h.split]
  exact List.mem_append_left _ hc

theorem Lineage.mem_closing (h : Lineage S g periods closing stop) (hc : c ∈ closing) :
    c ∈ lineage S g.entitlementId := by
  rw [h.split]
  exact List.mem_append_right _ (by simpa using hc)

theorem Lineage.ends (h : Lineage S g periods closing stop) (hc : c ∈ periods) :
    c.nextAssessmentAt = some (stopOf c) ∧ c.cycleBoundaryAt < stopOf c := by
  have hlt : c.cycleBoundaryAt < stopOf c := (h.tiles.mem hc).2.1
  refine ⟨?_, hlt⟩
  cases hnext : c.nextAssessmentAt with
  | none => simp [stopOf, hnext] at hlt
  | some next => simp [stopOf, hnext]

theorem Lineage.sorted (h : Lineage S g periods closing stop) :
    (lineage S g.entitlementId).Pairwise (fun a b ↦ a.cycleNumber ≤ b.cycleNumber) := by
  rw [List.pairwise_iff_getElem]
  intro i j hi hj hij
  have hi' := h.numbered i _ (List.getElem?_eq_getElem hi)
  have hj' := h.numbered j _ (List.getElem?_eq_getElem hj)
  omega

theorem Lineage.getBillCyclesForInternalRef (h : Lineage S g periods closing stop) :
    getBillCyclesForInternalRef S (premiumLineageRef g.entitlementId) =
      lineage S g.entitlementId :=
  h.sorted.insertionSort_eq

theorem Lineage.filter_class (h : Lineage S g periods closing stop) :
    (Rent.getBillCyclesForInternalRef S (premiumLineageRef g.entitlementId)).filter
      (·.classId = g.classId) = lineage S g.entitlementId := by
  rw [h.getBillCyclesForInternalRef, List.filter_eq_self]
  intro c hc
  simpa using (h.owned c hc).1

theorem Lineage.getLast_closed (h : Lineage S g periods (some c) stop) :
    (lineage S g.entitlementId).getLast? = some c := by
  rw [h.split, Option.toList_some, List.getLast?_concat]

theorem Lineage.getLast_open (h : Lineage S g periods none stop) :
    ∃ c ∈ periods, (lineage S g.entitlementId).getLast? = some c ∧
      c.nextAssessmentAt = some stop ∧ c.cycleNumber = periods.length := by
  obtain ⟨c, hc⟩ := List.getLast?_isSome.2 h.opened |> Option.isSome_iff_exists.1
  have hmem := List.mem_of_getLast? hc
  have hsplit : lineage S g.entitlementId = periods := by
    rw [h.split, Option.toList_none, List.append_nil]
  refine ⟨c, hmem, by rw [hsplit, hc], ?_, ?_⟩
  · rw [(h.ends hmem).1, h.tiles.stop_getLast hc]
  · have hlen := List.length_pos_of_ne_nil h.opened
    have hlast : (lineage S g.entitlementId)[periods.length - 1]? = some c := by
      rw [hsplit, ← List.getLast?_eq_getElem?, hc]
    have hnumber := h.numbered _ c hlast
    omega

theorem Lineage.getCoverageEligibility_closed {S : InsuranceState} {zone : ClassZone}
    (h : Lineage S.toRentState g periods (some c) stop) :
    getCoverageEligibility S zone g.classId now (premiumLineageRef g.entitlementId) =
      .terminal c := by
  unfold getCoverageEligibility
  rw [h.filter_class, h.getLast_closed]
  simp only [h.closes c rfl]

theorem Lineage.getTerminationInstant {S : InsuranceState}
    (h : Lineage S.toRentState g periods closing stop) :
    getTerminationInstant S g.classId (premiumLineageRef g.entitlementId) =
      closing.map (·.cycleBoundaryAt) := by
  have hopen : ∀ c ∈ periods, c.nextAssessmentAt ≠ none := fun c hc ↦ by
    rw [(h.ends hc).1]
    simp
  have hfilter : (Rent.getBillCyclesForInternalRef S.toRentState
      (premiumLineageRef g.entitlementId)).filter
        (fun c ↦ c.classId = g.classId ∧ c.nextAssessmentAt = none) = closing.toList := by
    rw [h.getBillCyclesForInternalRef, h.split, List.filter_append, List.filter_eq_nil_iff.2,
      List.filter_eq_self.2, List.nil_append]
    · intro c hc
      have hc : c ∈ closing := by simpa using hc
      simp [h.closes c hc, (h.owned c (h.mem_closing hc)).1]
    · intro c hc
      simp [hopen c hc]
  unfold Insurance.getTerminationInstant
  rw [hfilter]
  cases closing <;> rfl

theorem currentAmong_eq {cs : List BillCycle}
    (h : ∀ c ∈ cs, ∀ next, c.nextAssessmentAt = some next → c.cycleBoundaryAt < next) :
    currentAmong now cs = .ok (cs.find? (Holds startOf stopOf now)) := by
  induction cs with
  | nil => rfl
  | cons c cs ih =>
    have ih := ih (fun d hd ↦ h d (List.mem_cons_of_mem _ hd))
    rw [currentAmong, List.find?_cons]
    cases hnext : c.nextAssessmentAt with
    | none =>
      have hnot : ¬ Holds startOf stopOf now c := by
        simp [Holds, startOf, stopOf, hnext]
      simp only [decide_eq_false hnot]
      exact ih
    | some next =>
      have hlt := h c List.mem_cons_self next hnext
      have hiff : Holds startOf stopOf now c ↔ c.cycleBoundaryAt ≤ now ∧ now < next := by
        simp [Holds, startOf, stopOf, hnext]
      simp only [require_of hlt, ok_bind]
      by_cases hin : c.cycleBoundaryAt ≤ now ∧ now < next
      · rw [if_pos hin, decide_eq_true (hiff.2 hin)]
        rfl
      · rw [if_neg hin, decide_eq_false (fun hh ↦ hin (hiff.1 hh))]
        exact ih

/-- The period in force at an instant: none once the lineage has ended, or else the one that
holds it. -/
theorem Lineage.getCurrentBillCycle (h : Lineage S g periods closing stop) (now : Instant) :
    getCurrentBillCycle S g.classId (premiumLineageRef g.entitlementId) now =
      .ok (if ∃ c ∈ closing, c.cycleBoundaryAt ≤ now then none
        else periods.find? (Holds startOf stopOf now)) := by
  have hopen : periods.filter (·.nextAssessmentAt = none) = [] := by
    rw [List.filter_eq_nil_iff]
    intro c hc
    simp [(h.ends hc).1]
  have hend : (closing.toList.filter (·.nextAssessmentAt = none)).getLast? = closing := by
    cases closing with
    | none => rfl
    | some c => simp [h.closes c rfl]
  have hterminal : ((lineage S g.entitlementId).filter (·.nextAssessmentAt = none)).getLast? =
      closing := by
    rw [h.split, List.filter_append, hopen, List.nil_append, hend]
  have hamong : currentAmong now (lineage S g.entitlementId) =
      .ok (periods.find? (Holds startOf stopOf now)) := by
    rw [currentAmong_eq, h.split, List.find?_append]
    · have hnone : closing.toList.find? (Holds startOf stopOf now) = none := by
        rw [List.find?_eq_none]
        intro c hc
        have hc : c ∈ closing := by simpa using hc
        simp [Holds, startOf, stopOf, h.closes c hc]
      rw [hnone, Option.or_none]
    · intro c hc next hnext
      rw [h.split, List.mem_append] at hc
      rcases hc with hc | hc
      · have hends := h.ends hc
        rw [hnext, Option.some.injEq] at hends
        exact hends.1 ▸ hends.2
      · have hc : c ∈ closing := by simpa using hc
        rw [h.closes c hc] at hnext
        cases hnext
  unfold Rent.getCurrentBillCycle
  simp only [h.filter_class, hterminal]
  by_cases hover : ∃ c ∈ closing, c.cycleBoundaryAt ≤ now
  · have hany : closing.any (fun c ↦ decide (c.cycleBoundaryAt ≤ now)) = true := by
      obtain ⟨c, rfl, hle⟩ := hover
      exact decide_eq_true hle
    rw [if_pos hany, if_pos hover]
    rfl
  · have hany : ¬ closing.any (fun c ↦ decide (c.cycleBoundaryAt ≤ now)) = true := by
      intro hany
      obtain ⟨c, hc, hle⟩ := (Option.any_eq_true _ _).1 hany
      exact hover ⟨c, hc, of_decide_eq_true hle⟩
    rw [if_neg hany, if_neg hover, hamong]

theorem Lineage.getStopRenewalInstant (h : Lineage S g periods none stop) (now : Instant) :
    ∃ x, getStopRenewalInstant S g.classId (premiumLineageRef g.entitlementId) now =
      .ok (some x) ∧ (x = stop ∨ ∃ c ∈ periods, Holds startOf stopOf now c ∧ x = stopOf c) := by
  obtain ⟨l, hl, hlast, hnext, -⟩ := h.getLast_open
  have hlatest : (getLatestBillCycle S (premiumLineageRef g.entitlementId)).filter
      (·.classId = g.classId) = some l := by
    rw [getLatestBillCycle, h.getBillCyclesForInternalRef, hlast]
    simp [(h.owned l (h.mem_periods hl)).1]
  unfold Insurance.getStopRenewalInstant
  simp only [hlatest, hnext, h.getCurrentBillCycle now, Option.mem_def, reduceCtorEq, false_and,
    exists_false, if_false, ok_bind]
  cases hfind : periods.find? (Holds startOf stopOf now) with
  | none => exact ⟨stop, rfl, .inl rfl⟩
  | some c =>
    have hc := List.mem_of_find?_eq_some hfind
    have hholds : Holds startOf stopOf now c := by simpa using List.find?_some hfind
    simp only
    split_ifs
    · exact ⟨stop, rfl, .inl rfl⟩
    · exact ⟨stopOf c, by rw [(h.ends hc).1]; rfl, .inr ⟨c, hc, hholds, rfl⟩⟩

theorem Lineage.getFirstCoverageCycle {S : InsuranceState}
    (h : Lineage S.toRentState g periods closing stop) :
    ∃ c ∈ periods, getFirstCoverageCycle S g.classId g.entitlementId = some c ∧
      c.cycleBoundaryAt = g.timestamp := by
  obtain ⟨c, cs, hperiods⟩ := List.exists_cons_of_ne_nil h.opened
  have hc : c ∈ periods := by simp [hperiods]
  have hsplit : lineage S.toRentState g.entitlementId = c :: (cs ++ closing.toList) := by
    rw [h.split, hperiods, List.cons_append]
  refine ⟨c, hc, ?_, h.tiles.start_head (by rw [hperiods, List.head?_cons])⟩
  have hnumber : c.cycleNumber = 1 := h.numbered 0 c (by rw [hsplit]; rfl)
  have hclass := (h.owned c (h.mem_periods hc)).1
  have hfind : (lineage S.toRentState g.entitlementId).find?
      (fun c ↦ c.classId = g.classId ∧ c.cycleNumber = 1) = some c := by
    rw [hsplit, List.find?_cons_of_pos]
    simp [hclass, hnumber]
  rw [lineage, List.find?_filter] at hfind
  rw [← hfind]
  unfold Insurance.getFirstCoverageCycle
  congr 1
  funext d
  simp only [Bool.decide_and, decide_eq_true_eq]
  grind

theorem Lineage.getCadenceAnchor {S : InsuranceState} {zone : ClassZone}
    (h : Lineage S.toRentState g periods closing stop) :
    getCadenceAnchor S zone g.classId g.entitlementId = some (zone.localDate g.timestamp) := by
  obtain ⟨c, -, hfirst, hstart⟩ := h.getFirstCoverageCycle
  rw [Insurance.getCadenceAnchor, hfirst, Option.map_some, hstart]

end Reads

end TokenHub.Insurance
