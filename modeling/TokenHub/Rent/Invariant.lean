import TokenHub.Ledger.Funding
import TokenHub.Lib.SequencedLog
import TokenHub.Rent.Reconcile

set_option autoImplicit false

namespace TokenHub.Rent

open Ledger Lib.SequencedLog

namespace ObligationAssessment

def IsAssessment (e : ObligationAssessment) : Prop := e.eventType = .assessment

def IsSatisfaction (e : ObligationAssessment) : Prop :=
  e.eventType = .payment ∨ e.eventType = .waived

instance : DecidablePred IsAssessment := fun e ↦ by unfold IsAssessment; infer_instance

instance : DecidablePred IsSatisfaction := fun e ↦ by unfold IsSatisfaction; infer_instance

structure AssessedFor (c : BillCycle) (a : ObligationAssessment) : Prop where
  isAssessment : a.IsAssessment
  billCycleId : a.billCycleId = some c.id
  classId : a.classId = c.classId
  policyUuid : a.policyUuid = c.policyUuid
  named : (a.obligationType = .rent ∧ a.internalRef = seatLineage a.classId a.seatId ∧
      a.sourceCorrelationId = none ∧
        a.correlationId = rentCorrelation a.classId a.seatId c.cycleNumber) ∨
    (a.obligationType = .lateFee ∧ a.internalRef = lateLineage a.classId a.seatId ∧
      a.sourceCorrelationId = some (rentCorrelation a.classId a.seatId c.cycleNumber) ∧
        ∃ n, a.correlationId =
          lateCorrelation (rentCorrelation a.classId a.seatId c.cycleNumber) n)

end ObligationAssessment

def EntitlementEvent.IsPerkGrant (e : EntitlementEvent) : Prop :=
  e.acquisitionType = .perk ∧ e.eventType = .granted

instance : DecidablePred EntitlementEvent.IsPerkGrant := fun e ↦ by
  unfold EntitlementEvent.IsPerkGrant; infer_instance

def grantedUnits (S : RentState) (correlationId : String) :
    List (EntitlementType × Option String) :=
  (S.entitlementEvents.filter (fun e ↦ e.IsPerkGrant ∧ e.correlationId = some correlationId)).map
    (fun e ↦ (e.entitlementType, e.productId))

def configuredUnits (grants : List BenefitGrant) : List (EntitlementType × Option String) :=
  grants.flatMap (fun g ↦ List.replicate g.quantity (g.entitlementType, g.productLineageUuid))

/-- The payload of a policy version, which no later write touches. -/
def RentSettings.terms (r : RentSettings) : RentSettings := { r with availabilityState := .inUse }

section Invariant

variable (sha256 : String → String)

/-- A class's policy version that a cycle may freeze. -/
def PolicyKnown (S : RentState) (classId : String) (policyUuid : Option String) : Prop :=
  ∃ r, rentPolicy S policyUuid = some r ∧ r.classId = classId

structure RentInvariant (S : RentState) : Prop where
  ledger : LedgerSound sha256 S.ledger
  settings : ∀ r ∈ S.rentSettings, rentPolicy S (some r.policyUuid) = some r
  cycleIds : ∀ i c, S.billCycles[i]? = some c → c.id = i + 1
  cyclePolicies : ∀ c ∈ S.billCycles, PolicyKnown S c.classId c.policyUuid
  cycleLineages : ∀ c ∈ S.billCycles, c.internalRef = rentLineage c.classId
  eventIds : ∀ i e, S.assessmentEvents[i]? = some e → e.id = i + 1
  assessments : ∀ a ∈ S.assessmentEvents, a.IsAssessment → ∃ c ∈ S.billCycles, a.AssessedFor c
  assessedOnce : ∀ a ∈ S.assessmentEvents, ∀ b ∈ S.assessmentEvents, a.IsAssessment →
    b.IsAssessment → a.correlationId = b.correlationId → a = b
  satisfied : ∀ e ∈ S.assessmentEvents, ¬ e.IsAssessment →
    ∃ a ∈ S.assessmentEvents, a.IsAssessment ∧ a.correlationId = e.correlationId
  payments : ∀ e ∈ S.assessmentEvents, e.eventType = .payment →
    ∃ t ∈ S.ledger.transactions, e.ledgerTransactionId = some t.id
  paymentsDistinct : (S.assessmentEvents.filter (·.eventType = .payment)).Pairwise
    (fun e f ↦ e.ledgerTransactionId ≠ f.ledgerTransactionId)
  neverBoth : ∀ e ∈ S.assessmentEvents, ∀ f ∈ S.assessmentEvents, e.eventType = .withdrawn →
    f.IsSatisfaction → e.correlationId ≠ f.correlationId
  capped : ∀ a ∈ S.assessmentEvents, a.IsAssessment →
    getPaidMagnitude S a.correlationId ≤ max 0 (resolveAssessmentAmount S a)
  perks : ∀ e ∈ S.entitlementEvents, e.IsPerkGrant → ∃ a ∈ S.assessmentEvents,
    a.IsAssessment ∧ a.obligationType = .rent ∧ e.correlationId = some a.correlationId ∧
      e.classId = a.classId ∧
      resolveAssessmentAmount S a ≤ getPaidMagnitude S a.correlationId
  perkUnits : ∀ a ∈ S.assessmentEvents, a.IsAssessment → ∀ r, rentPolicy S a.policyUuid = some r →
    (grantedUnits S a.correlationId).Sublist (configuredUnits r.satisfactionBenefits)

structure Extends (S S' : RentState) : Prop where
  ledger : LedgerGrows sha256 S.ledger S'.ledger
  events : S.assessmentEvents <+: S'.assessmentEvents
  cycles : S.billCycles <+: S'.billCycles
  entitlements : S.entitlementEvents <+: S'.entitlementEvents
  policies : ∀ u r, rentPolicy S u = some r → ∃ r', rentPolicy S' u = some r' ∧ r'.terms = r.terms
  premiums : S'.premiums = S.premiums

end Invariant

variable {sha256 : String → String} {S S' S'' : RentState}

theorem Extends.refl (h : RentInvariant sha256 S) : Extends sha256 S S where
  ledger := .refl h.ledger
  events := List.prefix_refl _
  cycles := List.prefix_refl _
  entitlements := List.prefix_refl _
  policies := fun _ r hr ↦ ⟨r, hr, rfl⟩
  premiums := rfl

theorem Extends.trans (h : Extends sha256 S S') (h' : Extends sha256 S' S'') :
    Extends sha256 S S'' where
  ledger := h.ledger.trans h'.ledger
  events := h.events.trans h'.events
  cycles := h.cycles.trans h'.cycles
  entitlements := h.entitlements.trans h'.entitlements
  policies := fun u r hr ↦ by
    obtain ⟨r', hr', ht⟩ := h.policies u r hr
    obtain ⟨r'', hr'', ht'⟩ := h'.policies u r' hr'
    exact ⟨r'', hr'', ht'.trans ht⟩
  premiums := h'.premiums.trans h.premiums

section Stability

theorem Extends.mem_events (hx : Extends sha256 S S') {e : ObligationAssessment}
    (he : e ∈ S.assessmentEvents) : e ∈ S'.assessmentEvents := hx.events.subset he

theorem rowMagnitude_eq {L : LedgerState} (h : LedgerSound sha256 L) {t : Transaction}
    (ht : t ∈ L.transactions) : rowMagnitude L (some t.id) = |t.amountCents| := by
  have hsome : (L.transactions.find? (·.id = t.id)).isSome := by
    rw [List.find?_isSome]
    exact ⟨t, ht, by simp⟩
  obtain ⟨u, hu⟩ := Option.isSome_iff_exists.1 hsome
  have hid : u.id = t.id := by simpa using List.find?_some hu
  have hut : u = t := h.credits.numbered.unique (List.mem_of_find?_eq_some hu) ht hid
  simp [rowMagnitude, hu, hut]

theorem Extends.magnitude (h : RentInvariant sha256 S) (hx : Extends sha256 S S')
    {e : ObligationAssessment} (he : e ∈ S.assessmentEvents) :
    paymentEventMagnitude S' e = paymentEventMagnitude S e := by
  unfold paymentEventMagnitude
  split_ifs with hp
  · obtain ⟨t, ht, hid⟩ := h.payments e he hp
    rw [hid, rowMagnitude_eq h.ledger ht,
      rowMagnitude_eq hx.ledger.sound (hx.ledger.rows.subset ht)]
  · rfl

theorem magnitude_nonneg (S : RentState) (e : ObligationAssessment) :
    0 ≤ paymentEventMagnitude S e := by
  unfold paymentEventMagnitude rowMagnitude
  split_ifs
  · cases e.ledgerTransactionId with
    | none => exact le_rfl
    | some i =>
      simp only
      cases S.ledger.transactions.find? (·.id = i) with
      | none => simp
      | some t => simp
  · exact le_rfl

theorem resolveAssessmentAmount_terms (hpol : ∀ u r, rentPolicy S u = some r →
    ∃ r', rentPolicy S' u = some r' ∧ r'.terms = r.terms) (hprem : S'.premiums = S.premiums)
    {a : ObligationAssessment} {r : RentSettings} (hr : rentPolicy S a.policyUuid = some r) :
    resolveAssessmentAmount S' a = resolveAssessmentAmount S a := by
  obtain ⟨r', hr', ht⟩ := hpol _ r hr
  have hrent : r'.rentAmount = r.rentAmount := (congrArg RentSettings.rentAmount ht :)
  have hlate : r'.latePenaltyAmount = r.latePenaltyAmount :=
    (congrArg RentSettings.latePenaltyAmount ht :)
  cases htype : a.obligationType <;>
    simp [resolveAssessmentAmount, htype, hr, hr', hrent, hlate, hprem]

theorem RentInvariant.policy (h : RentInvariant sha256 S) {a : ObligationAssessment}
    (ha : a ∈ S.assessmentEvents) (hass : a.IsAssessment) :
    ∃ r, rentPolicy S a.policyUuid = some r ∧ r.classId = a.classId := by
  obtain ⟨c, hc, hfor⟩ := h.assessments a ha hass
  obtain ⟨r, hr, hclass⟩ := h.cyclePolicies c hc
  exact ⟨r, by rw [hfor.policyUuid, hr], by rw [hclass, hfor.classId]⟩

theorem Extends.amount (h : RentInvariant sha256 S) (hx : Extends sha256 S S')
    {a : ObligationAssessment} (ha : a ∈ S.assessmentEvents) (hass : a.IsAssessment) :
    resolveAssessmentAmount S' a = resolveAssessmentAmount S a := by
  obtain ⟨r, hr, -⟩ := h.policy ha hass
  exact resolveAssessmentAmount_terms hx.policies hx.premiums hr

theorem getPaidMagnitude_eq (S : RentState) (correlationId : String) :
    getPaidMagnitude S correlationId = sumOver (paymentEventMagnitude S)
      (fun e ↦ e.correlationId = correlationId ∧ (e.eventType = .payment ∨ e.eventType = .waived))
      S.assessmentEvents := rfl

theorem Extends.paid (h : RentInvariant sha256 S) (hx : Extends sha256 S S')
    (es : List ObligationAssessment)
    (hes : S'.assessmentEvents = S.assessmentEvents ++ es) (correlationId : String) :
    getPaidMagnitude S' correlationId = getPaidMagnitude S correlationId +
      sumOver (paymentEventMagnitude S')
        (fun e ↦ e.correlationId = correlationId ∧ e.IsSatisfaction) es := by
  rw [getPaidMagnitude_eq, hes, sumOver_append, getPaidMagnitude_eq]
  congr 1
  unfold sumOver
  congr 1
  exact List.map_congr_left (fun e he ↦ hx.magnitude h (List.mem_of_mem_filter he))

theorem Extends.paid_le (h : RentInvariant sha256 S) (hx : Extends sha256 S S')
    (correlationId : String) :
    getPaidMagnitude S correlationId ≤ getPaidMagnitude S' correlationId := by
  obtain ⟨es, hes⟩ := hx.events
  rw [hx.paid h es hes.symm]
  have hnonneg : 0 ≤ sumOver (paymentEventMagnitude S')
      (fun e ↦ e.correlationId = correlationId ∧ e.IsSatisfaction) es :=
    sumOver_nonneg (fun e _ _ ↦ magnitude_nonneg S' e)
  omega

theorem getElem?_append_singleton {α : Type} {l : List α} {a b : α} {i : ℕ}
    (h : (l ++ [a])[i]? = some b) : l[i]? = some b ∨ (i = l.length ∧ b = a) := by
  rw [List.getElem?_append] at h
  split_ifs at h with hi
  · exact .inl h
  · rw [List.getElem?_singleton] at h
    split_ifs at h with hzero
    exact .inr ⟨by omega, (Option.some.inj h).symm⟩

theorem billCycle_of_ids (hids : ∀ i c, S.billCycles[i]? = some c → c.id = i + 1) {c : BillCycle}
    (hc : c ∈ S.billCycles) : billCycle S (some c.id) = some c := by
  have hsome : (S.billCycles.find? (·.id = c.id)).isSome := by
    rw [List.find?_isSome]
    exact ⟨c, hc, by simp⟩
  obtain ⟨d, hd⟩ := Option.isSome_iff_exists.1 hsome
  have hid : d.id = c.id := by simpa using List.find?_some hd
  obtain ⟨i, hi⟩ := List.mem_iff_getElem?.1 hc
  obtain ⟨j, hj⟩ := List.mem_iff_getElem?.1 (List.mem_of_find?_eq_some hd)
  have hij : j = i := by
    have h₁ := hids i c hi
    have h₂ := hids j d hj
    omega
  rw [hij, hi, Option.some.injEq] at hj
  rw [Rent.billCycle, Option.bind_some, hd, hj]

theorem RentInvariant.billCycle (h : RentInvariant sha256 S) {c : BillCycle}
    (hc : c ∈ S.billCycles) : billCycle S (some c.id) = some c := billCycle_of_ids h.cycleIds hc

theorem Extends.dueAt (h : RentInvariant sha256 S) (h' : RentInvariant sha256 S')
    (hx : Extends sha256 S S') {a : ObligationAssessment} (ha : a ∈ S.assessmentEvents)
    (hass : a.IsAssessment) : resolveAssessmentDueAt S' a = resolveAssessmentDueAt S a := by
  obtain ⟨c, hc, hfor⟩ := h.assessments a ha hass
  rw [resolveAssessmentDueAt, resolveAssessmentDueAt, hfor.billCycleId, h.billCycle hc,
    h'.billCycle (hx.cycles.subset hc)]

theorem Extends.policyKnown (hx : Extends sha256 S S') {classId : String} {u : Option String}
    (h : PolicyKnown S classId u) : PolicyKnown S' classId u := by
  obtain ⟨r, hr, hclass⟩ := h
  obtain ⟨r', hr', ht⟩ := hx.policies u r hr
  have hc : r'.classId = r.classId := (congrArg RentSettings.classId ht :)
  exact ⟨r', hr', hc.trans hclass⟩

theorem Extends.benefits (hx : Extends sha256 S S') {u : Option String} {r r' : RentSettings}
    (hr : rentPolicy S u = some r) (hr' : rentPolicy S' u = some r') :
    r'.satisfactionBenefits = r.satisfactionBenefits := by
  obtain ⟨r'', hr'', ht⟩ := hx.policies u r hr
  obtain rfl : r'' = r' := Option.some.inj (hr''.symm.trans hr')
  exact (congrArg RentSettings.satisfactionBenefits ht :)

end Stability

end TokenHub.Rent
