import TokenHub.Rent.Invariant

set_option autoImplicit false

namespace TokenHub.Rent

open Ledger Lib.Checks Lib.SequencedLog

variable {sha256 : String → String} {S S' S'' : RentState}

section Moves

variable (sha256) (zones : String → ClassZone) (now : Instant)

/-- The cycle that a lineage of a class admits next. It begins where the latest one ends, at a
class-local midnight, and ends at a later one. -/
structure Succeeds (S : RentState) (c : BillCycle) : Prop where
  id : c.id = S.billCycles.length + 1
  policy : PolicyKnown S c.classId c.policyUuid
  lineage : c.internalRef = rentLineage c.classId
  ends : ∃ d, c.nextAssessmentAt = some ((zones c.classId).startOfDate d) ∧
    c.cycleBoundaryAt < (zones c.classId).startOfDate d
  first : getLatestBillCycle S c.internalRef = none → c.cycleNumber = 1
  after : ∀ l, getLatestBillCycle S c.internalRef = some l → c.cycleNumber = l.cycleNumber + 1 ∧
    ∃ next, l.nextAssessmentAt = some next ∧
      c.cycleBoundaryAt = (zones c.classId).startOfDate ((zones c.classId).localDate next)

inductive Admits (S : RentState) : ObligationAssessment → Prop
  | assess {e : ObligationAssessment} {c : BillCycle} : c ∈ S.billCycles → e.AssessedFor c →
      (∀ a ∈ S.assessmentEvents, a.correlationId ≠ e.correlationId) → Admits S e
  | pay {e a : ObligationAssessment} {t : Transaction} : a ∈ S.assessmentEvents →
      a.IsAssessment → a.correlationId = e.correlationId → e.eventType = .payment →
      t ∈ S.ledger.transactions → e.ledgerTransactionId = some t.id →
      (∀ f ∈ S.assessmentEvents, f.eventType = .payment → f.ledgerTransactionId ≠ some t.id) →
      (∀ f ∈ S.assessmentEvents, f.eventType = .withdrawn → f.correlationId ≠ e.correlationId) →
      getPaidMagnitude S a.correlationId + |t.amountCents| ≤ resolveAssessmentAmount S a →
      Admits S e
  | waive {e a : ObligationAssessment} : a ∈ S.assessmentEvents → a.IsAssessment →
      a.correlationId = e.correlationId → e.eventType = .waived →
      (∀ f ∈ S.assessmentEvents, f.eventType = .withdrawn → f.correlationId ≠ e.correlationId) →
      Admits S e
  | withdraw {e a : ObligationAssessment} : a ∈ S.assessmentEvents → a.IsAssessment →
      a.correlationId = e.correlationId → e.eventType = .withdrawn →
      (∀ f ∈ S.assessmentEvents, f.IsSatisfaction → f.correlationId ≠ e.correlationId) →
      Admits S e

/-- One write of the rent domain, with what its guards establish. -/
inductive Move : RentState → RentState → Prop
  | ledger {S : RentState} {L : LedgerState} : LedgerGrows sha256 S.ledger L →
      Move S { S with ledger := L }
  | event {S : RentState} {e : ObligationAssessment} : e.id = S.assessmentEvents.length + 1 →
      Admits S e → Move S (addEvent S e)
  | grant {S : RentState} {a : ObligationAssessment} {r : RentSettings}
      {es : List EntitlementEvent} : a ∈ S.assessmentEvents → a.IsAssessment →
      a.obligationType = .rent → rentPolicy S a.policyUuid = some r →
      resolveAssessmentAmount S a ≤ getPaidMagnitude S a.correlationId →
      grantedUnits S a.correlationId = [] → resolveAssessmentDueAt S a ≤ now →
      (∀ e ∈ es, e.IsPerkGrant ∧ e.correlationId = some a.correlationId ∧
        e.classId = a.classId) →
      (es.map (fun e ↦ (e.entitlementType, e.productId))).Sublist
        (configuredUnits r.satisfactionBenefits) →
      Move S { S with entitlementEvents := S.entitlementEvents ++ es }
  | store {S : RentState} {es : List EntitlementEvent} : (∀ e ∈ es, ¬ e.IsPerkGrant) →
      Move S { S with entitlementEvents := S.entitlementEvents ++ es }
  | cycle {S : RentState} {c : BillCycle} {r : ObligationCommandReservation} :
      Succeeds zones S c → r.classId = c.classId → r.billCycleId = c.id →
      (∃ run, r.idempotencyKey = successionKey run (c.cycleNumber - 1)) →
      Move S { S with billCycles := S.billCycles ++ [c], successions := S.successions ++ [r] }
  | supersede {S : RentState} {rs : List RentSettings} :
      (∀ u r, rentPolicy S u = some r →
        ∃ r', rentPolicy { S with rentSettings := rs } u = some r' ∧ r'.terms = r.terms) →
      (∀ r ∈ rs, rentPolicy { S with rentSettings := rs } (some r.policyUuid) = some r) →
      Move S { S with rentSettings := rs }
  | configure {S : RentState} {seats : List Seat} {features : List ClassFeature} :
      Move S { S with seats := seats, features := features }

end Moves

section Preservation

variable {zones : String → ClassZone} {now : Instant}

/-- A write that records no obligation event keeps the invariant where its new cycles and perks
do. -/
theorem RentInvariant.frame (h : RentInvariant sha256 S) (hx : Extends sha256 S S')
    (hev : S'.assessmentEvents = S.assessmentEvents)
    (hset : ∀ r ∈ S'.rentSettings, rentPolicy S' (some r.policyUuid) = some r)
    (hids : ∀ i c, S'.billCycles[i]? = some c → c.id = i + 1)
    (hcycles : ∀ c ∈ S'.billCycles, c ∈ S.billCycles ∨
      (PolicyKnown S' c.classId c.policyUuid ∧ c.internalRef = rentLineage c.classId))
    (hperks : ∀ e ∈ S'.entitlementEvents, e.IsPerkGrant → e ∈ S.entitlementEvents ∨
      ∃ a ∈ S.assessmentEvents, a.IsAssessment ∧ a.obligationType = .rent ∧
        e.correlationId = some a.correlationId ∧ e.classId = a.classId ∧
        resolveAssessmentAmount S a ≤ getPaidMagnitude S a.correlationId)
    (hunits : ∀ a ∈ S.assessmentEvents, a.IsAssessment → ∀ r, rentPolicy S a.policyUuid = some r →
      (grantedUnits S' a.correlationId).Sublist (configuredUnits r.satisfactionBenefits)) :
    RentInvariant sha256 S' := by
  have hpaid : ∀ correlationId, getPaidMagnitude S' correlationId =
      getPaidMagnitude S correlationId := by
    intro correlationId
    rw [hx.paid h [] (by rw [hev, List.append_nil]), sumOver_nil, add_zero]
  refine ⟨hx.ledger.sound, hset, hids, ?_, ?_, by rw [hev]; exact h.eventIds, ?_, ?_, ?_, ?_,
    ?_, ?_, ?_, ?_, ?_⟩
  · intro c hc
    rcases hcycles c hc with hold | ⟨hnew, -⟩
    · exact hx.policyKnown (h.cyclePolicies c hold)
    · exact hnew
  · intro c hc
    exact (hcycles c hc).elim (h.cycleLineages c) (·.2)
  · intro a ha hass
    rw [hev] at ha
    obtain ⟨c, hc, hfor⟩ := h.assessments a ha hass
    exact ⟨c, hx.cycles.subset hc, hfor⟩
  · rw [hev]
    exact h.assessedOnce
  · rw [hev]
    exact h.satisfied
  · intro e he hp
    rw [hev] at he
    obtain ⟨t, ht, hid⟩ := h.payments e he hp
    exact ⟨t, hx.ledger.rows.subset ht, hid⟩
  · rw [hev]
    exact h.paymentsDistinct
  · rw [hev]
    exact h.neverBoth
  · intro a ha hass
    rw [hev] at ha
    rw [hpaid, hx.amount h ha hass]
    exact h.capped a ha hass
  · intro e he hgrant
    rw [hev]
    obtain ⟨a, ha, hass, hrent, hcorr, hclass, hle⟩ :=
      (hperks e he hgrant).elim (fun hold ↦ h.perks e hold hgrant) id
    exact ⟨a, ha, hass, hrent, hcorr, hclass, by rw [hpaid, hx.amount h ha hass]; exact hle⟩
  · intro a ha hass r' hr'
    rw [hev] at ha
    obtain ⟨r, hr, -⟩ := h.policy ha hass
    rw [hx.benefits hr hr']
    exact hunits a ha hass r hr

theorem Extends.addEvent (h : RentInvariant sha256 S) (e : ObligationAssessment) :
    Extends sha256 S (addEvent S e) :=
  { Extends.refl h with events := List.prefix_append _ _ }

theorem mem_addEvent {e f : ObligationAssessment} :
    f ∈ (addEvent S e).assessmentEvents ↔ f ∈ S.assessmentEvents ∨ f = e := by
  simp [Rent.addEvent]

theorem Admits.not_assessment {e : ObligationAssessment} (h : Admits S e)
    (hass : ¬ e.IsAssessment) :
    ∃ a ∈ S.assessmentEvents, a.IsAssessment ∧ a.correlationId = e.correlationId := by
  cases h with
  | assess _ hfor _ => exact absurd hfor.isAssessment hass
  | pay ha haa hcorr => exact ⟨_, ha, haa, hcorr⟩
  | waive ha haa hcorr => exact ⟨_, ha, haa, hcorr⟩
  | withdraw ha haa hcorr => exact ⟨_, ha, haa, hcorr⟩

theorem Admits.assessment {e : ObligationAssessment} (h : Admits S e) (hass : e.IsAssessment) :
    (∃ c ∈ S.billCycles, e.AssessedFor c) ∧
      ∀ a ∈ S.assessmentEvents, a.correlationId ≠ e.correlationId := by
  unfold ObligationAssessment.IsAssessment at hass
  cases h with
  | assess hc hfor hnew => exact ⟨⟨_, hc, hfor⟩, hnew⟩
  | pay _ _ _ ht => rw [ht] at hass; cases hass
  | waive _ _ _ ht => rw [ht] at hass; cases hass
  | withdraw _ _ _ ht => rw [ht] at hass; cases hass

theorem Admits.payment {e : ObligationAssessment} (h : Admits S e) (hp : e.eventType = .payment) :
    ∃ t ∈ S.ledger.transactions, e.ledgerTransactionId = some t.id ∧
      (∀ f ∈ S.assessmentEvents, f.eventType = .payment → f.ledgerTransactionId ≠ some t.id) ∧
      ∃ a ∈ S.assessmentEvents, a.IsAssessment ∧ a.correlationId = e.correlationId ∧
        getPaidMagnitude S a.correlationId + |t.amountCents| ≤ resolveAssessmentAmount S a := by
  cases h with
  | assess _ hfor _ =>
    have hass : e.eventType = .assessment := hfor.isAssessment
    rw [hass] at hp
    cases hp
  | pay ha haa hcorr _ ht hid hnew _ hle => exact ⟨_, ht, hid, hnew, _, ha, haa, hcorr, hle⟩
  | waive _ _ _ ht => rw [ht] at hp; cases hp
  | withdraw _ _ _ ht => rw [ht] at hp; cases hp

theorem Admits.satisfaction {e : ObligationAssessment} (h : Admits S e) (hs : e.IsSatisfaction) :
    ∀ f ∈ S.assessmentEvents, f.eventType = .withdrawn → f.correlationId ≠ e.correlationId := by
  unfold ObligationAssessment.IsSatisfaction at hs
  cases h with
  | assess _ hfor _ =>
    have hass : e.eventType = .assessment := hfor.isAssessment
    simp [hass] at hs
  | pay _ _ _ _ _ _ _ hw _ => exact hw
  | waive _ _ _ _ hw => exact hw
  | withdraw _ _ _ ht => simp [ht] at hs

theorem Admits.withdrawn {e : ObligationAssessment} (h : Admits S e)
    (hw : e.eventType = .withdrawn) :
    ∀ f ∈ S.assessmentEvents, f.IsSatisfaction → f.correlationId ≠ e.correlationId := by
  cases h with
  | assess _ hfor _ =>
    have hass : e.eventType = .assessment := hfor.isAssessment
    rw [hass] at hw
    cases hw
  | pay _ _ _ ht => rw [ht] at hw; cases hw
  | waive _ _ _ ht => rw [ht] at hw; cases hw
  | withdraw _ _ _ _ hs => exact hs

theorem getPaidMagnitude_addEvent (h : RentInvariant sha256 S) (e : ObligationAssessment)
    (correlationId : String) :
    getPaidMagnitude (addEvent S e) correlationId = getPaidMagnitude S correlationId +
      if e.correlationId = correlationId ∧ e.IsSatisfaction then
        paymentEventMagnitude (addEvent S e) e else 0 := by
  rw [(Extends.addEvent h e).paid h [e] rfl, sumOver_cons, sumOver_nil, add_zero]

/-- No recorded obligation is paid more than was assessed by an event that it admits. -/
theorem Admits.capped (h : RentInvariant sha256 S) {e a : ObligationAssessment} (he : Admits S e)
    (ha : a ∈ S.assessmentEvents) (hass : a.IsAssessment) :
    getPaidMagnitude (addEvent S e) a.correlationId ≤ max 0 (resolveAssessmentAmount S a) := by
  have hcap := h.capped a ha hass
  rw [getPaidMagnitude_addEvent h]
  split_ifs with hsat
  · obtain ⟨hcorr, hpay | hwaived⟩ := hsat
    · obtain ⟨t, ht, hid, -, b, hb, hbass, hbcorr, hle⟩ := he.payment hpay
      obtain rfl : b = a := h.assessedOnce b hb a ha hbass hass (hbcorr.trans hcorr)
      have hmag : paymentEventMagnitude (addEvent S e) e = |t.amountCents| := by
        rw [paymentEventMagnitude, if_pos hpay, hid]
        exact rowMagnitude_eq h.ledger ht
      rw [hmag]
      exact hle.trans (le_max_right _ _)
    · have hzero : paymentEventMagnitude (addEvent S e) e = 0 := by
        simp [paymentEventMagnitude, hwaived]
      rwa [hzero, add_zero]
  · rwa [add_zero]

theorem getPaidMagnitude_eq_zero {correlationId : String}
    (h : ∀ e ∈ S.assessmentEvents, e.correlationId ≠ correlationId) :
    getPaidMagnitude S correlationId = 0 := by
  have hnil : getSatisfactionEvents S correlationId = [] := by
    rw [getSatisfactionEvents, List.filter_eq_nil_iff]
    intro e he
    simp [h e he]
  simp [getPaidMagnitude, hnil]

theorem grantedUnits_eq_nil (h : RentInvariant sha256 S) {correlationId : String}
    (hnew : ∀ a ∈ S.assessmentEvents, a.correlationId ≠ correlationId) :
    grantedUnits S correlationId = [] := by
  rw [grantedUnits, List.map_eq_nil_iff, List.filter_eq_nil_iff]
  intro e he
  simp only [decide_eq_true_eq, not_and]
  intro hgrant hcorr
  obtain ⟨a, ha, -, -, hcorr', -⟩ := h.perks e he hgrant
  rw [hcorr', Option.some.injEq] at hcorr
  exact hnew a ha hcorr

/-- The invariant is kept by an event that the obligation's history admits. -/
theorem RentInvariant.addEvent (h : RentInvariant sha256 S) {e : ObligationAssessment}
    (hid : e.id = S.assessmentEvents.length + 1) (he : Admits S e) :
    RentInvariant sha256 (addEvent S e) := by
  have hx := Extends.addEvent h e
  refine ⟨h.ledger, h.settings, h.cycleIds, h.cyclePolicies, h.cycleLineages, ?_, ?_, ?_, ?_,
    ?_, ?_, ?_, ?_, ?_, ?_⟩
  · intro i f hf
    rcases getElem?_append_singleton hf with hold | ⟨rfl, rfl⟩
    · exact h.eventIds i f hold
    · exact hid
  · intro a ha hass
    rcases mem_addEvent.1 ha with ha | rfl
    · exact h.assessments a ha hass
    · exact (he.assessment hass).1
  · intro a ha b hb hass hbss hcorr
    rcases mem_addEvent.1 ha with hold | rfl <;> rcases mem_addEvent.1 hb with hold' | rfl
    · exact h.assessedOnce a hold b hold' hass hbss hcorr
    · exact absurd hcorr ((he.assessment hbss).2 a hold)
    · exact absurd hcorr.symm ((he.assessment hass).2 b hold')
    · rfl
  · intro f hf hass
    rcases mem_addEvent.1 hf with hf | rfl
    · obtain ⟨a, ha, haa, hcorr⟩ := h.satisfied f hf hass
      exact ⟨a, hx.mem_events ha, haa, hcorr⟩
    · obtain ⟨a, ha, haa, hcorr⟩ := he.not_assessment hass
      exact ⟨a, hx.mem_events ha, haa, hcorr⟩
  · intro f hf hp
    rcases mem_addEvent.1 hf with hf | rfl
    · exact h.payments f hf hp
    · obtain ⟨t, ht, hid, -⟩ := he.payment hp
      exact ⟨t, ht, hid⟩
  · have hsplit : (Rent.addEvent S e).assessmentEvents.filter (·.eventType = .payment) =
        S.assessmentEvents.filter (·.eventType = .payment) ++
          [e].filter (·.eventType = .payment) := List.filter_append ..
    rw [hsplit, List.pairwise_append]
    refine ⟨h.paymentsDistinct, List.Pairwise.filter _ (List.pairwise_singleton _ _), ?_⟩
    intro f hf g hg
    obtain ⟨hge, hgp⟩ := List.mem_filter.1 hg
    obtain rfl := List.mem_singleton.1 hge
    obtain ⟨t, -, hid, hnew, -⟩ := he.payment (of_decide_eq_true hgp)
    rw [hid]
    obtain ⟨hfm, hfp⟩ := List.mem_filter.1 hf
    exact hnew f hfm (of_decide_eq_true hfp)
  · intro f hf g hg hw hs
    rcases mem_addEvent.1 hf with hold | rfl <;> rcases mem_addEvent.1 hg with hold' | rfl
    · exact h.neverBoth f hold g hold' hw hs
    · exact he.satisfaction hs f hold hw
    · exact (he.withdrawn hw g hold' hs).symm
    · rw [ObligationAssessment.IsSatisfaction, hw] at hs
      simp at hs
  · intro a ha hass
    rcases mem_addEvent.1 ha with ha | rfl
    · exact he.capped h ha hass
    · have hzero : getPaidMagnitude (Rent.addEvent S a) a.correlationId = 0 := by
        rw [getPaidMagnitude_addEvent h, getPaidMagnitude_eq_zero (he.assessment hass).2,
          if_neg (fun hs ↦ ?_), add_zero]
        have hty : a.eventType = .assessment := hass
        simp [ObligationAssessment.IsSatisfaction, hty] at hs
      rw [hzero]
      exact le_max_left _ _
  · intro f hf hgrant
    obtain ⟨a, ha, hass, hrent, hcorr, hclass, hle⟩ := h.perks f hf hgrant
    exact ⟨a, hx.mem_events ha, hass, hrent, hcorr, hclass, hle.trans (hx.paid_le h _)⟩
  · intro a ha hass r hr
    rcases mem_addEvent.1 ha with ha | rfl
    · exact h.perkUnits a ha hass r hr
    · have hnil : grantedUnits (Rent.addEvent S a) a.correlationId = [] :=
        grantedUnits_eq_nil h (he.assessment hass).2
      rw [hnil]
      exact List.nil_sublist _

theorem grantedUnits_append {es : List EntitlementEvent}
    (h : S'.entitlementEvents = S.entitlementEvents ++ es) (correlationId : String) :
    grantedUnits S' correlationId = grantedUnits S correlationId ++
      (es.filter (fun e ↦ e.IsPerkGrant ∧ e.correlationId = some correlationId)).map
        (fun e ↦ (e.entitlementType, e.productId)) := by
  rw [grantedUnits, h, List.filter_append, List.map_append, grantedUnits]

theorem RentInvariant.move (h : RentInvariant sha256 S) (hm : Move sha256 zones now S S') :
    RentInvariant sha256 S' ∧ Extends sha256 S S' := by
  cases hm with
  | ledger hL =>
    have hx : Extends sha256 S { S with ledger := _ } := { Extends.refl h with ledger := hL }
    exact ⟨h.frame hx rfl h.settings h.cycleIds (fun _ hc ↦ .inl hc) (fun _ he _ ↦ .inl he)
      h.perkUnits, hx⟩
  | event hid he => exact ⟨h.addEvent hid he, .addEvent h _⟩
  | @grant a r es ha hass hrent hr hle hnone _ hes hunits =>
    have hx : Extends sha256 S { S with entitlementEvents := S.entitlementEvents ++ es } :=
      { Extends.refl h with entitlements := List.prefix_append _ _ }
    refine ⟨h.frame hx rfl h.settings h.cycleIds (fun _ hc ↦ .inl hc) ?_ ?_, hx⟩
    · intro e he _
      rcases List.mem_append.1 he with hold | hnew
      · exact .inl hold
      · obtain ⟨-, hcorr, hclass⟩ := hes e hnew
        exact .inr ⟨a, ha, hass, hrent, hcorr, hclass, hle⟩
    · intro b hb hbss r' hr'
      rw [grantedUnits_append rfl]
      by_cases hcorr : b.correlationId = a.correlationId
      · obtain rfl : b = a := h.assessedOnce b hb a ha hbss hass hcorr
        obtain rfl : r' = r := Option.some.inj (hr'.symm.trans hr)
        rw [hnone, List.nil_append, List.filter_eq_self.2 (fun e he ↦ ?_)]
        · exact hunits
        · simp [hes e he]
      · have hnil : es.filter (fun e ↦ e.IsPerkGrant ∧
            e.correlationId = some b.correlationId) = [] := by
          rw [List.filter_eq_nil_iff]
          intro e he
          have hne : a.correlationId ≠ b.correlationId := fun h ↦ hcorr h.symm
          simp [(hes e he).2.1, hne]
        rw [hnil, List.map_nil, List.append_nil]
        exact h.perkUnits b hb hbss r' hr'
  | @store es hes =>
    have hx : Extends sha256 S { S with entitlementEvents := S.entitlementEvents ++ es } :=
      { Extends.refl h with entitlements := List.prefix_append _ _ }
    refine ⟨h.frame hx rfl h.settings h.cycleIds (fun _ hc ↦ .inl hc) ?_ ?_, hx⟩
    · intro e he hgrant
      exact (List.mem_append.1 he).elim .inl (fun hnew ↦ absurd hgrant (hes e hnew))
    · intro b hb hbss r' hr'
      have hnil : es.filter (fun e ↦ e.IsPerkGrant ∧
          e.correlationId = some b.correlationId) = [] := by
        rw [List.filter_eq_nil_iff]
        intro e he
        simp [hes e he]
      rw [grantedUnits_append rfl, hnil, List.map_nil, List.append_nil]
      exact h.perkUnits b hb hbss r' hr'
  | @cycle c r hc _ _ _ =>
    have hx : Extends sha256 S { S with billCycles := S.billCycles ++ [c],
                                        successions := S.successions ++ [r] } :=
      { Extends.refl h with cycles := List.prefix_append _ _ }
    refine ⟨h.frame hx rfl h.settings ?_ ?_ (fun _ he _ ↦ .inl he) h.perkUnits, hx⟩
    · intro i d hd
      rcases getElem?_append_singleton hd with hold | ⟨rfl, rfl⟩
      · exact h.cycleIds i d hold
      · exact hc.id
    · intro d hd
      rcases List.mem_append.1 hd with hold | hnew
      · exact .inl hold
      · obtain rfl := List.mem_singleton.1 hnew
        exact .inr ⟨hc.policy, hc.lineage⟩
  | @supersede rs hrs hset =>
    have hx : Extends sha256 S { S with rentSettings := rs } :=
      { Extends.refl h with policies := hrs }
    exact ⟨h.frame hx rfl hset h.cycleIds (fun _ hc ↦ .inl hc) (fun _ he _ ↦ .inl he)
      h.perkUnits, hx⟩
  | @configure seats features =>
    have hx : Extends sha256 S { S with seats := seats, features := features } :=
      { Extends.refl h with }
    exact ⟨h.frame hx rfl h.settings h.cycleIds (fun _ hc ↦ .inl hc) (fun _ he _ ↦ .inl he)
      h.perkUnits, hx⟩

end Preservation

section Progress

variable (sha256) (zones : String → ClassZone) (now : Instant)

abbrev Moves : RentState → RentState → Prop := Relation.ReflTransGen (Move sha256 zones now)

/-- What the writes at an instant leave: the invariant again, all that was recorded, and no perk
of a period that has not begun. -/
structure Progress (now : Instant) (S S' : RentState) : Prop where
  invariant : RentInvariant sha256 S'
  kept : Extends sha256 S S'
  begun : ∃ es, S'.entitlementEvents = S.entitlementEvents ++ es ∧ ∀ e ∈ es, e.IsPerkGrant →
    ∃ a ∈ S'.assessmentEvents, a.IsAssessment ∧ e.correlationId = some a.correlationId ∧
      resolveAssessmentDueAt S' a ≤ now

variable {sha256 zones now}

theorem Progress.refl (h : RentInvariant sha256 S) : Progress sha256 now S S :=
  ⟨h, .refl h, [], by simp, by simp⟩

theorem Progress.trans (h : Progress sha256 now S S') (h' : Progress sha256 now S' S'') :
    Progress sha256 now S S'' := by
  obtain ⟨es, hes, hbegun⟩ := h.begun
  obtain ⟨es', hes', hbegun'⟩ := h'.begun
  refine ⟨h'.invariant, h.kept.trans h'.kept, es ++ es', by rw [hes', hes, List.append_assoc], ?_⟩
  intro e he hgrant
  rcases List.mem_append.1 he with he | he
  · obtain ⟨a, ha, hass, hcorr, hdue⟩ := hbegun e he hgrant
    exact ⟨a, h'.kept.mem_events ha, hass, hcorr,
      (h'.kept.dueAt h.invariant h'.invariant ha hass).le.trans hdue⟩
  · exact hbegun' e he hgrant

theorem RentInvariant.progress (h : RentInvariant sha256 S) (hm : Move sha256 zones now S S') :
    Progress sha256 now S S' := by
  obtain ⟨hinv, hx⟩ := h.move hm
  refine ⟨hinv, hx, ?_⟩
  cases hm with
  | @grant a r es ha hass _ _ _ _ hdue hes _ =>
    exact ⟨es, rfl, fun e he _ ↦ ⟨a, ha, hass, (hes e he).2.1, hdue⟩⟩
  | @store es hes => exact ⟨es, rfl, fun e he hgrant ↦ absurd hgrant (hes e he)⟩
  | _ => exact ⟨[], (List.append_nil _).symm, by simp⟩

theorem RentInvariant.moves (h : RentInvariant sha256 S) (hm : Moves sha256 zones now S S') :
    Progress sha256 now S S' := by
  induction hm with
  | refl => exact .refl h
  | tail _ hlast ih => exact ih.trans (ih.invariant.progress hlast)

end Progress

end TokenHub.Rent
