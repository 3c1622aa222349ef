import TokenHub.Insurance.System

set_option autoImplicit false

namespace TokenHub.Insurance

open Ledger Rent Lib.Checks Lib.Tiling

section Moves

variable (sha256 : String → String) (zones : String → CoverageZone) (bounded : Prop)
  (now : Instant)

/-- A period of a grant that is opened now, with its premium and its reservation. -/
structure Opens (S : InsuranceState) (g : CoverageEvent) (p : InsurancePolicy) (number : ℕ)
    (c : BillCycle) (r : ObligationCommandReservation) (a : ObligationAssessment) : Prop where
  id : c.id = S.billCycles.length + 1
  classId : c.classId = g.classId
  internalRef : c.internalRef = premiumLineageRef g.entitlementId
  cycleNumber : c.cycleNumber = number
  policyUuid : c.policyUuid = some g.policyUuid
  ends : c.nextAssessmentAt = some (periodEnd zones g p number)
  begins_lt : c.cycleBoundaryAt < periodEnd zones g p number
  premium : PremiumFor g c a
  fresh : ∀ b ∈ S.assessmentEvents, b.correlationId ≠ a.correlationId
  timestamp : a.timestamp = now
  identity : r.idempotencyKey = successionCommandIdentity g.entitlementId c.cycleNumber

inductive Stops (S : InsuranceState) (g : CoverageEvent) (periods : List BillCycle)
    (stop : Instant) : Instant → Prop
  | atEnd : Stops S g periods stop stop
  | afterCurrent {c : BillCycle} : c ∈ periods → Holds startOf stopOf now c →
      Stops S g periods stop (stopOf c)
  | lapsed {p : InsurancePolicy} {c : BillCycle} {a : ObligationAssessment} {days : ℤ} :
      PolicyOf S g p → p.nonpaymentMode = some .cancelAfterXDays → p.cancelAfterDays = some days →
      c ∈ periods → a ∈ S.assessmentEvents → PremiumFor g c a →
      getObligationStatusAsOf S.toRentState ((zones g.classId).shiftDays c.cycleBoundaryAt days)
        a.correlationId = some .outstanding →
      (zones g.classId).shiftDays c.cycleBoundaryAt days ≤ now →
      (bounded → (zones g.classId).shiftDays c.cycleBoundaryAt days ≤ stop) →
      Stops S g periods stop ((zones g.classId).shiftDays c.cycleBoundaryAt days)

def closingRow (S : InsuranceState) (g : CoverageEvent) (periods : List BillCycle)
    (instant : Instant) : BillCycle where
  id := S.billCycles.length + 1
  classId := g.classId
  internalRef := premiumLineageRef g.entitlementId
  cycleNumber := periods.length + 1
  policyUuid := some g.policyUuid
  cycleBoundaryAt := instant
  nextAssessmentAt := none
  graceBoundaryAt := none

inductive CoverageMove : InsuranceState → InsuranceState → Prop
  | ledger {S : InsuranceState} {L : LedgerState} : GrowsElsewhere sha256 claimsFeat S.ledger L →
      CoverageMove S { S with ledger := L }
  | pay {S : InsuranceState} {e a : ObligationAssessment} {t : Transaction} :
      a ∈ S.assessmentEvents → a.IsAssessment → a.correlationId = e.correlationId →
      e.eventType = .payment → e.timestamp = now → t ∈ S.ledger.transactions →
      e.ledgerTransactionId = some t.id →
      (t.mechanism = .system → ∀ f ∈ S.assessmentEvents, f.IsSatisfaction →
        f.correlationId ≠ e.correlationId) →
      CoverageMove S { S with assessmentEvents := S.assessmentEvents ++ [e] }
  | begin {S : InsuranceState} {g : CoverageEvent} {p : InsurancePolicy} {c : BillCycle}
      {r : ObligationCommandReservation} {a : ObligationAssessment} : g.eventType = .granted →
      (∀ e ∈ S.coverageEvents, e.entitlementId ≠ g.entitlementId) → GrantOrigin S g →
      (∀ e n, Granted S e → g.continuesEntitlementId = some n →
        e.continuesEntitlementId ≠ some n) →
      PolicyOf S g p → c.cycleBoundaryAt = g.timestamp → Opens zones now S g p 1 c r a →
      CoverageMove S { S with coverageEvents := S.coverageEvents ++ [g],
                              billCycles := S.billCycles ++ [c],
                              successions := S.successions ++ [r],
                              assessmentEvents := S.assessmentEvents ++ [a] }
  | succeed {S : InsuranceState} {g : CoverageEvent} {p : InsurancePolicy}
      {periods : List BillCycle} {stop : Instant} {c : BillCycle}
      {r : ObligationCommandReservation} {a : ObligationAssessment} : Granted S g →
      Scheduled S zones g p periods none stop → c.cycleBoundaryAt = stop →
      Opens zones now S g p (periods.length + 1) c r a →
      CoverageMove S { S with billCycles := S.billCycles ++ [c],
                              successions := S.successions ++ [r],
                              assessmentEvents := S.assessmentEvents ++ [a] }
  | close {S : InsuranceState} {g : CoverageEvent} {p : InsurancePolicy}
      {periods : List BillCycle} {stop instant : Instant} {es : List ObligationAssessment} :
      Granted S g → Scheduled S zones g p periods none stop →
      Stops zones bounded now S g periods stop instant →
      (∀ e ∈ es, e.eventType = .withdrawn ∧ e.timestamp = now ∧ ∃ a ∈ S.assessmentEvents,
        a.IsAssessment ∧ a.correlationId = e.correlationId) →
      CoverageMove S { S with
        assessmentEvents := S.assessmentEvents ++ es
        billCycles := S.billCycles ++ [closingRow S g periods instant] }
  | expire {S : InsuranceState} {e : CoverageEvent} : e.eventType ≠ .granted →
      CoverageMove S { S with coverageEvents := S.coverageEvents ++ [e] }
  | policies {S : InsuranceState} {policies : List InsurancePolicy} :
      (∀ u c p, getInsuranceDefinition S u c = some p →
        ∃ p', getInsuranceDefinition { S with policies := policies } u c = some p' ∧
          p'.terms = p.terms) →
      CoverageMove S { S with policies := policies, premiums := premiumColumn policies }
  | outside {S : InsuranceState} {seats : List Seat} {events : List EntitlementEvent} :
      CoverageMove S { S with seats := seats, entitlementEvents := events }

end Moves

variable {sha256 : String → String} {zones : String → CoverageZone} {bounded : Prop}
  {now : Instant} {S S' S'' : InsuranceState} {g : CoverageEvent} {p : InsurancePolicy}
  {periods : List BillCycle} {closing : Option BillCycle} {stop : Instant}

section Kept

theorem CoverageKept.refl (h : CoverageInvariant sha256 zones bounded S) :
    CoverageKept sha256 S S where
  ledger := .refl h.ledger
  events := List.prefix_refl _
  cycles := List.prefix_refl _
  coverage := List.prefix_refl _
  policies := fun _ _ p hp ↦ ⟨p, hp, rfl⟩

theorem CoverageKept.trans (h : CoverageKept sha256 S S') (h' : CoverageKept sha256 S' S'') :
    CoverageKept sha256 S S'' where
  ledger := h.ledger.trans h'.ledger
  events := h.events.trans h'.events
  cycles := h.cycles.trans h'.cycles
  coverage := h.coverage.trans h'.coverage
  policies := fun u c p hp ↦ by
    obtain ⟨p', hp', ht⟩ := h.policies u c p hp
    obtain ⟨p'', hp'', ht'⟩ := h'.policies u c p' hp'
    exact ⟨p'', hp'', ht'.trans ht⟩

theorem CoverageKept.granted (hx : CoverageKept sha256 S S') (hg : Granted S g) :
    Granted S' g := ⟨hx.coverage.subset hg.1, hg.2⟩

theorem lineage_subset (hx : S.billCycles <+: S'.billCycles) {n : ℕ} {c : BillCycle}
    (hc : c ∈ lineage S.toRentState n) : c ∈ lineage S'.toRentState n :=
  (hx.sublist.filter _).subset hc

theorem GrantOrigin.mono (hx : S.billCycles <+: S'.billCycles) (ho : GrantOrigin S g) :
    GrantOrigin S' g := by
  cases ho with
  | purchased key hcorr hnone => exact .purchased key hcorr hnone
  | continued e c hcorr hcont hc hnext hclass hat =>
    exact .continued e c hcorr hcont (lineage_subset hx hc) hnext hclass hat

theorem CoverageKept.policyOf (hx : CoverageKept sha256 S S') (hp : PolicyOf S g p) :
    ∃ p', PolicyOf S' g p' ∧ p'.terms = p.terms := by
  obtain ⟨p', hp', ht⟩ := hx.policies _ _ p hp.1
  refine ⟨p', ⟨hp', ?_⟩, ht⟩
  have hlawful : p'.terms.Lawful := by
    rw [ht]
    exact hp.2
  exact hlawful

theorem periodEnd_terms {p' : InsurancePolicy} (ht : p'.terms = p.terms) (n : ℕ) :
    periodEnd zones g p' n = periodEnd zones g p n := by
  have hfrequency : p'.chargeFrequency = p.chargeFrequency :=
    (congrArg InsurancePolicy.chargeFrequency ht :)
  rw [periodEnd, periodEnd, hfrequency]

theorem Scheduled.kept (hx : CoverageKept sha256 S S')
    (hsame : lineage S'.toRentState g.entitlementId = lineage S.toRentState g.entitlementId)
    (h : Scheduled S zones g p periods closing stop) :
    ∃ p', Scheduled S' zones g p' periods closing stop ∧ p'.terms = p.terms := by
  obtain ⟨p', hp', ht⟩ := hx.policyOf h.policy
  refine ⟨p', ⟨⟨?_, h.opened, h.tiles, h.closes, ?_, ?_⟩, hp', ?_⟩, ht⟩
  · rw [hsame, h.split]
  · rw [hsame]
    exact h.numbered
  · rw [hsame]
    exact h.owned
  · intro c hc
    rw [periodEnd_terms ht]
    exact h.cadence c hc

/-- The payments of the system among recorded events do not depend on later rows. -/
theorem systemPayment_congr (hL : LedgerGrows sha256 S.ledger S'.ledger) {e : ObligationAssessment}
    (hpay : e.eventType = .payment → ∃ t ∈ S.ledger.transactions,
      e.ledgerTransactionId = some t.id) :
    SystemPayment S'.ledger e ↔ SystemPayment S.ledger e := by
  constructor
  · rintro ⟨htype, t, ht, hid, hsystem⟩
    obtain ⟨u, hu, huid⟩ := hpay htype
    rw [hid, Option.some.injEq] at huid
    obtain rfl := hL.sound.credits.numbered.unique ht (hL.rows.subset hu) huid
    exact ⟨htype, t, hu, hid, hsystem⟩
  · rintro ⟨htype, t, ht, hid, hsystem⟩
    exact ⟨htype, t, hL.rows.subset ht, hid, hsystem⟩

end Kept

section Preservation

theorem CoverageInvariant.automatic_of (h : CoverageInvariant sha256 zones bounded S)
    (hL : LedgerGrows sha256 S.ledger S'.ledger) {es : List ObligationAssessment}
    (hes : S'.assessmentEvents = S.assessmentEvents ++ es)
    (hnew : ∀ e ∈ es, ¬ SystemPayment S'.ledger e) :
    (S'.assessmentEvents.filter (SystemPayment S'.ledger)).Pairwise
      (fun e f ↦ e.correlationId ≠ f.correlationId) := by
  have hnil : es.filter (SystemPayment S'.ledger) = [] := by
    rw [List.filter_eq_nil_iff]
    intro e he
    simpa using hnew e he
  rw [hes, List.filter_append, hnil, List.append_nil, List.filter_congr (fun e he ↦ ?_)]
  · exact h.automatic
  · exact decide_eq_decide.2 (systemPayment_congr hL (h.payments e he))

theorem CoverageInvariant.owned_later (h : CoverageInvariant sha256 zones bounded S)
    (hx : CoverageKept sha256 S S') {c : BillCycle} (hc : c ∈ S.billCycles) :
    ∃ g, Granted S' g ∧ c ∈ lineage S'.toRentState g.entitlementId := by
  obtain ⟨g, hg, hmem⟩ := h.owners c hc
  exact ⟨g, hx.granted hg, lineage_subset hx.cycles hmem⟩

theorem CoverageInvariant.scheduled_later (h : CoverageInvariant sha256 zones bounded S)
    (hx : CoverageKept sha256 S S') (hg : Granted S g)
    (hsame : lineage S'.toRentState g.entitlementId = lineage S.toRentState g.entitlementId) :
    ∃ p periods closing stop, Scheduled S' zones g p periods closing stop ∧
      (bounded → ∀ c ∈ closing, c.cycleBoundaryAt ≤ stop) := by
  obtain ⟨p, periods, closing, stop, hs, hbound⟩ := h.lineages g hg
  obtain ⟨p', hs', -⟩ := hs.kept hx hsame
  exact ⟨p', periods, closing, stop, hs', hbound⟩

theorem CoverageInvariant.premium_later (h : CoverageInvariant sha256 zones bounded S)
    (hx : CoverageKept sha256 S S') (hg : Granted S g) {c : BillCycle}
    (hc : c ∈ lineage S.toRentState g.entitlementId) (hlive : c.nextAssessmentAt.isSome) :
    ∃ a ∈ S'.assessmentEvents, PremiumFor g c a := by
  obtain ⟨a, ha, hfor⟩ := h.premiumOf g hg c hc hlive
  exact ⟨a, hx.events.subset ha, hfor⟩

theorem CoverageInvariant.assessed_later (h : CoverageInvariant sha256 zones bounded S)
    (hx : CoverageKept sha256 S S') {a : ObligationAssessment} (ha : a ∈ S.assessmentEvents)
    (haa : a.IsAssessment) : ∃ g c, Granted S' g ∧ c ∈ lineage S'.toRentState g.entitlementId ∧
      c.nextAssessmentAt.isSome ∧ PremiumFor g c a := by
  obtain ⟨g, c, hg, hc, hlive, hfor⟩ := h.assessments a ha haa
  exact ⟨g, c, hx.granted hg, lineage_subset hx.cycles hc, hlive, hfor⟩

theorem CoverageInvariant.satisfied_later (h : CoverageInvariant sha256 zones bounded S)
    (hx : CoverageKept sha256 S S') {e : ObligationAssessment} (he : e ∈ S.assessmentEvents) :
    ∃ a ∈ S'.assessmentEvents, a.IsAssessment ∧ a.correlationId = e.correlationId := by
  obtain ⟨a, ha, haa, hcorr⟩ := h.satisfied e he
  exact ⟨a, hx.events.subset ha, haa, hcorr⟩

theorem CoverageInvariant.paid_later (h : CoverageInvariant sha256 zones bounded S)
    (hx : CoverageKept sha256 S S') {e : ObligationAssessment} (he : e ∈ S.assessmentEvents)
    (htype : e.eventType = .payment) :
    ∃ t ∈ S'.ledger.transactions, e.ledgerTransactionId = some t.id := by
  obtain ⟨t, ht, hid⟩ := h.payments e he htype
  exact ⟨t, hx.ledger.rows.subset ht, hid⟩

theorem CoverageInvariant.succeeded_later (h : CoverageInvariant sha256 zones bounded S)
    (hx : CoverageKept sha256 S S') {r : ObligationCommandReservation}
    (hr : r ∈ S.successions) : ∃ g c, Granted S' g ∧
      c ∈ lineage S'.toRentState g.entitlementId ∧ c.nextAssessmentAt.isSome ∧
        r.idempotencyKey = successionCommandIdentity g.entitlementId c.cycleNumber := by
  obtain ⟨g, c, hg, hc, hlive, hkey⟩ := h.successions r hr
  exact ⟨g, c, hx.granted hg, lineage_subset hx.cycles hc, hlive, hkey⟩

/-- A write that makes no cycle, grant or assessment keeps the invariant. -/
theorem CoverageInvariant.frame (h : CoverageInvariant sha256 zones bounded S)
    (hx : CoverageKept sha256 S S') (hprem : S'.premiums = premiumColumn S'.policies)
    (hrent : S'.rentSettings = S.rentSettings) (hcycles : S'.billCycles = S.billCycles)
    (hgrants : ∀ g, Granted S' g → Granted S g) (hsucc : S'.successions = S.successions)
    {es : List ObligationAssessment} (hes : S'.assessmentEvents = S.assessmentEvents ++ es)
    (hass : ∀ e ∈ es, ¬ e.IsAssessment ∧ ∃ a ∈ S.assessmentEvents,
      a.IsAssessment ∧ a.correlationId = e.correlationId)
    (hpay : ∀ e ∈ es, e.eventType = .payment →
      ∃ t ∈ S'.ledger.transactions, e.ledgerTransactionId = some t.id)
    (hauto : (S'.assessmentEvents.filter (SystemPayment S'.ledger)).Pairwise
      (fun e f ↦ e.correlationId ≠ f.correlationId)) :
    CoverageInvariant sha256 zones bounded S' := by
  have hline : ∀ n, lineage S'.toRentState n = lineage S.toRentState n := fun n ↦ by
    rw [lineage, hcycles, lineage]
  have hnone : es.filter (·.IsAssessment) = [] := by
    rw [List.filter_eq_nil_iff]
    intro e he
    simpa using (hass e he).1
  exact
    { ledger := hx.ledger.sound
      premiums := hprem
      rentless := hrent.trans h.rentless
      grantsUnique := fun g g' hg hg' ↦ h.grantsUnique g g' (hgrants g hg) (hgrants g' hg')
      origins := fun g hg ↦ (h.origins g (hgrants g hg)).mono hx.cycles
      continuedOnce := fun g g' n hg hg' ↦
        h.continuedOnce g g' n (hgrants g hg) (hgrants g' hg')
      cycleIds := by
        rw [hcycles]
        exact h.cycleIds
      owners := by
        intro c hc
        rw [hcycles] at hc
        exact h.owned_later hx hc
      lineages := fun g hg ↦ h.scheduled_later hx (hgrants g hg) (hline _)
      premiumOf := by
        intro g hg c hc hlive
        rw [hline] at hc
        exact h.premium_later hx (hgrants g hg) hc hlive
      assessments := by
        intro a ha haa
        have hold : a ∈ S.assessmentEvents := by
          rw [hes, List.mem_append] at ha
          exact ha.resolve_right (fun hnew ↦ (hass a hnew).1 haa)
        exact h.assessed_later hx hold haa
      assessedOnce := by
        rw [hes, List.filter_append, hnone, List.append_nil]
        exact h.assessedOnce
      satisfied := by
        intro e he
        rw [hes, List.mem_append] at he
        rcases he with hold | hnew
        · exact h.satisfied_later hx hold
        · obtain ⟨a, ha, haa, hcorr⟩ := (hass e hnew).2
          exact ⟨a, hx.events.subset ha, haa, hcorr⟩
      payments := by
        intro e he htype
        rw [hes, List.mem_append] at he
        rcases he with hold | hnew
        · exact h.paid_later hx hold htype
        · exact hpay e hnew htype
      automatic := hauto
      successions := by
        intro r hr
        rw [hsucc] at hr
        exact h.succeeded_later hx hr }

/-- A write that adds a cycle to the lineage of one grant, old or new, keeps the invariant. -/
theorem CoverageInvariant.advance (h : CoverageInvariant sha256 zones bounded S)
    (hx : CoverageKept sha256 S S') (hprem : S'.premiums = premiumColumn S'.policies)
    (hrent : S'.rentSettings = S.rentSettings) (hg : Granted S' g)
    (hothers : ∀ g', Granted S' g' → g' = g ∨
      (Granted S g' ∧ g'.entitlementId ≠ g.entitlementId))
    (hbefore : lineage S.toRentState g.entitlementId ≠ [] → Granted S g)
    (horigin : GrantOrigin S' g)
    (hcontinued : ∀ e n, Granted S e → e.continuesEntitlementId = some n →
      g.continuesEntitlementId = some n → e = g) {c : BillCycle}
    (hcycles : S'.billCycles = S.billCycles ++ [c]) (hid : c.id = S.billCycles.length + 1)
    (href : c.internalRef = premiumLineageRef g.entitlementId)
    (hlineage : ∃ p periods closing stop, Scheduled S' zones g p periods closing stop ∧
      (bounded → ∀ c ∈ closing, c.cycleBoundaryAt ≤ stop))
    {es : List ObligationAssessment} (hes : S'.assessmentEvents = S.assessmentEvents ++ es)
    (hpremium : c.nextAssessmentAt.isSome → ∃ a ∈ es, PremiumFor g c a)
    (hass : ∀ a ∈ es, a.IsAssessment → c.nextAssessmentAt.isSome ∧ PremiumFor g c a)
    (honce : (S'.assessmentEvents.filter (·.IsAssessment)).Pairwise
      (fun a b ↦ a.correlationId ≠ b.correlationId ∧ a.billCycleId ≠ b.billCycleId))
    (hsat : ∀ e ∈ es, e.eventType ≠ .payment ∧
      ∃ a ∈ S'.assessmentEvents, a.IsAssessment ∧ a.correlationId = e.correlationId)
    (hsucc : ∀ r ∈ S'.successions, r ∈ S.successions ∨ (c.nextAssessmentAt.isSome ∧
      r.idempotencyKey = successionCommandIdentity g.entitlementId c.cycleNumber)) :
    CoverageInvariant sha256 zones bounded S' := by
  have hline : ∀ n, n ≠ g.entitlementId →
      lineage S'.toRentState n = lineage S.toRentState n := by
    intro n hn
    have hne : premiumLineageRef g.entitlementId ≠ premiumLineageRef n := fun heq ↦
      hn (premiumLineageRef_injective heq).symm
    rw [lineage, hcycles, List.filter_append, lineage]
    simp [href, hne]
  have hmine : lineage S'.toRentState g.entitlementId =
      lineage S.toRentState g.entitlementId ++ [c] := by
    rw [lineage, hcycles, List.filter_append, lineage]
    simp [href]
  have hc : c ∈ lineage S'.toRentState g.entitlementId := by
    rw [hmine]
    exact List.mem_append_right _ (List.mem_singleton_self c)
  exact
    { ledger := hx.ledger.sound
      premiums := hprem
      rentless := hrent.trans h.rentless
      grantsUnique := by
        intro g₁ g₂ h₁ h₂ heq
        rcases hothers g₁ h₁ with rfl | ⟨h₁, hne₁⟩ <;> rcases hothers g₂ h₂ with rfl | ⟨h₂, hne₂⟩
        · rfl
        · exact absurd heq.symm hne₂
        · exact absurd heq hne₁
        · exact h.grantsUnique g₁ g₂ h₁ h₂ heq
      origins := by
        intro g' hg'
        rcases hothers g' hg' with rfl | ⟨hold, -⟩
        · exact horigin
        · exact (h.origins g' hold).mono hx.cycles
      continuedOnce := by
        intro g₁ g₂ n h₁ h₂ hn₁ hn₂
        rcases hothers g₁ h₁ with rfl | ⟨h₁, -⟩ <;> rcases hothers g₂ h₂ with rfl | ⟨h₂, -⟩
        · rfl
        · exact (hcontinued g₂ n h₂ hn₂ hn₁).symm
        · exact hcontinued g₁ n h₁ hn₁ hn₂
        · exact h.continuedOnce g₁ g₂ n h₁ h₂ hn₁ hn₂
      cycleIds := by
        intro i d hd
        rw [hcycles] at hd
        rcases getElem?_append_singleton hd with hold | ⟨rfl, rfl⟩
        · exact h.cycleIds i d hold
        · exact hid
      owners := by
        intro d hd
        rw [hcycles, List.mem_append] at hd
        rcases hd with hold | hnew
        · exact h.owned_later hx hold
        · obtain rfl := List.mem_singleton.1 hnew
          exact ⟨g, hg, hc⟩
      lineages := by
        intro g' hg'
        rcases hothers g' hg' with rfl | ⟨hold, hne⟩
        · exact hlineage
        · exact h.scheduled_later hx hold (hline _ hne)
      premiumOf := by
        intro g' hg' d hd hlive
        rcases hothers g' hg' with rfl | ⟨hold, hne⟩
        · rw [hmine, List.mem_append] at hd
          rcases hd with hd | hd
          · exact h.premium_later hx (hbefore (List.ne_nil_of_mem hd)) hd hlive
          · obtain rfl := List.mem_singleton.1 hd
            obtain ⟨a, ha, hfor⟩ := hpremium hlive
            exact ⟨a, by rw [hes]; exact List.mem_append_right _ ha, hfor⟩
        · rw [hline _ hne] at hd
          exact h.premium_later hx hold hd hlive
      assessments := by
        intro a ha haa
        rw [hes, List.mem_append] at ha
        rcases ha with hold | hnew
        · exact h.assessed_later hx hold haa
        · obtain ⟨hlive, hfor⟩ := hass a hnew haa
          exact ⟨g, c, hg, hc, hlive, hfor⟩
      assessedOnce := honce
      satisfied := by
        intro e he
        rw [hes, List.mem_append] at he
        rcases he with hold | hnew
        · exact h.satisfied_later hx hold
        · exact (hsat e hnew).2
      payments := by
        intro e he htype
        rw [hes, List.mem_append] at he
        exact h.paid_later hx (he.resolve_right (fun hnew ↦ (hsat e hnew).1 htype)) htype
      automatic := h.automatic_of hx.ledger hes (fun e he hs ↦ (hsat e he).1 hs.1)
      successions := by
        intro r hr
        rcases hsucc r hr with hold | ⟨hlive, hkey⟩
        · exact h.succeeded_later hx hold
        · exact ⟨g, c, hg, hc, hlive, hkey⟩ }

theorem CoverageInvariant.lineage_eq_nil (h : CoverageInvariant sha256 zones bounded S) {n : ℕ}
    (hfresh : ∀ e ∈ S.coverageEvents, e.entitlementId ≠ n) : lineage S.toRentState n = [] := by
  rw [lineage, List.filter_eq_nil_iff]
  intro c hc
  obtain ⟨g, hg, hmem⟩ := h.owners c hc
  have href : c.internalRef = premiumLineageRef g.entitlementId := by
    simpa using (List.mem_filter.1 hmem).2
  rw [href]
  simpa using fun heq ↦ hfresh g hg.1 (premiumLineageRef_injective heq)

/-- A premium under a new correlation, of a new cycle, is assessed once. -/
theorem CoverageInvariant.assessedOnce_snoc (h : CoverageInvariant sha256 zones bounded S)
    {a : ObligationAssessment} (hfresh : ∀ b ∈ S.assessmentEvents, b.correlationId ≠ a.correlationId)
    (hcycle : a.billCycleId = some (S.billCycles.length + 1)) :
    ((S.assessmentEvents ++ [a]).filter (·.IsAssessment)).Pairwise
      (fun a b ↦ a.correlationId ≠ b.correlationId ∧ a.billCycleId ≠ b.billCycleId) := by
  rw [List.filter_append, List.pairwise_append]
  refine ⟨h.assessedOnce, List.Pairwise.filter _ (List.pairwise_singleton _ _), ?_⟩
  intro b hb a' ha'
  obtain rfl := List.mem_singleton.1 (List.mem_of_mem_filter ha')
  obtain ⟨hmem, hb⟩ := List.mem_filter.1 hb
  refine ⟨hfresh b hmem, fun heq ↦ ?_⟩
  obtain ⟨g, c, -, hc, -, hfor⟩ := h.assessments b hmem (of_decide_eq_true hb)
  obtain ⟨i, hi⟩ := List.mem_iff_getElem?.1 (List.mem_of_mem_filter hc)
  have hid := h.cycleIds i c hi
  have hlt := (List.getElem?_eq_some_iff.1 hi).1
  rw [hfor.billCycleId, hcycle, Option.some.injEq] at heq
  omega

theorem stopOf_of {c : BillCycle} {next : Instant} (h : c.nextAssessmentAt = some next) :
    stopOf c = next := by
  rw [stopOf, h, Option.getD_some]

/-- A lineage that gets a period goes on to the end of it. -/
theorem Scheduled.extend {c : BillCycle} {p' : InsurancePolicy} {next : Instant}
    (hline : lineage S'.toRentState g.entitlementId = periods ++ [c])
    (htiles : Tiles startOf stopOf g.timestamp periods stop)
    (hnumbered : ∀ i d, periods[i]? = some d → d.cycleNumber = i + 1)
    (howned : ∀ d ∈ periods, d.classId = g.classId ∧ d.policyUuid = some g.policyUuid)
    (hcadence : ∀ d ∈ periods, d.nextAssessmentAt = some (periodEnd zones g p' d.cycleNumber))
    (hpolicy : PolicyOf S' g p') (hstart : c.cycleBoundaryAt = stop)
    (hnumber : c.cycleNumber = periods.length + 1) (hclass : c.classId = g.classId)
    (hversion : c.policyUuid = some g.policyUuid)
    (hnext : c.nextAssessmentAt = some next) (hends : next = periodEnd zones g p' c.cycleNumber)
    (hlt : c.cycleBoundaryAt < next) :
    Scheduled S' zones g p' (periods ++ [c]) none next := by
  have hstop : stopOf c = next := stopOf_of hnext
  refine ⟨⟨by rw [hline]; simp, by simp, ?_, by simp, ?_, ?_⟩, hpolicy, ?_⟩
  · rw [← hstop]
    exact htiles.snoc hstart (by rw [hstop, ← hstart]; exact hlt)
  · intro i d hd
    rw [hline] at hd
    rcases getElem?_append_singleton hd with hold | ⟨rfl, rfl⟩
    · exact hnumbered i d hold
    · exact hnumber
  · intro d hd
    rw [hline, List.mem_append] at hd
    rcases hd with hold | hnew
    · exact howned d hold
    · obtain rfl := List.mem_singleton.1 hnew
      exact ⟨hclass, hversion⟩
  · intro d hd
    rcases List.mem_append.1 hd with hold | hnew
    · exact hcadence d hold
    · obtain rfl := List.mem_singleton.1 hnew
      rw [hnext, hends]

/-- An open lineage that gets its terminal row. -/
theorem Scheduled.closed {c : BillCycle} {p' : InsurancePolicy}
    (h : Scheduled S zones g p periods none stop) (hpolicy : PolicyOf S' g p')
    (ht : p'.terms = p.terms)
    (hline : lineage S'.toRentState g.entitlementId =
      lineage S.toRentState g.entitlementId ++ [c])
    (hnext : c.nextAssessmentAt = none) (hnumber : c.cycleNumber = periods.length + 1)
    (hclass : c.classId = g.classId) (hversion : c.policyUuid = some g.policyUuid) :
    Scheduled S' zones g p' periods (some c) stop := by
  have hsplit : lineage S.toRentState g.entitlementId = periods := by
    rw [h.split, Option.toList_none, List.append_nil]
  refine ⟨⟨by rw [hline, hsplit, Option.toList_some], h.opened, h.tiles, ?_, ?_, ?_⟩, hpolicy, ?_⟩
  · intro d hd
    obtain rfl := Option.mem_some.1 hd
    exact hnext
  · intro i d hd
    rw [hline] at hd
    rcases getElem?_append_singleton hd with hold | ⟨rfl, rfl⟩
    · exact h.numbered i d hold
    · rw [hnumber, hsplit]
  · intro d hd
    rw [hline, List.mem_append] at hd
    rcases hd with hold | hnew
    · exact h.owned d hold
    · obtain rfl := List.mem_singleton.1 hnew
      exact ⟨hclass, hversion⟩
  · intro d hd
    rw [periodEnd_terms ht]
    exact h.cadence d hd

theorem Stops.le_stop (h : Scheduled S zones g p periods none stop) {x : Instant}
    (hx : Stops zones bounded now S g periods stop x) (hb : bounded) : x ≤ stop := by
  cases hx with
  | atEnd => exact le_rfl
  | afterCurrent hc _ => exact (h.tiles.mem hc).2.2
  | lapsed _ _ _ _ _ _ _ _ hle => exact hle hb

theorem PremiumFor.not_payment {c : BillCycle} {a : ObligationAssessment}
    (h : PremiumFor g c a) : a.eventType ≠ .payment := by
  have hass : a.eventType = .assessment := h.isAssessment
  rw [hass]
  simp

theorem lineage_snoc {R : RentState} {n : ℕ} {c : BillCycle}
    (href : c.internalRef = premiumLineageRef n) :
    lineage { R with billCycles := R.billCycles ++ [c] } n = lineage R n ++ [c] := by
  rw [lineage, List.filter_append, ← lineage]
  simp [href]

theorem CoverageInvariant.others (h : CoverageInvariant sha256 zones bounded S)
    (hg : Granted S g) (g' : CoverageEvent) (hg' : Granted S g') :
    g' = g ∨ (Granted S g' ∧ g'.entitlementId ≠ g.entitlementId) := by
  by_cases heq : g'.entitlementId = g.entitlementId
  · exact .inl (h.grantsUnique g' g hg' hg heq)
  · exact .inr ⟨hg', heq⟩

/-- A payment of the system is recorded where nothing satisfies the correlation yet. -/
theorem CoverageInvariant.pays (h : CoverageInvariant sha256 zones bounded S)
    {e a : ObligationAssessment} {t : Transaction} (ha : a ∈ S.assessmentEvents)
    (haa : a.IsAssessment) (hcorr : a.correlationId = e.correlationId)
    (htype : e.eventType = .payment) (ht : t ∈ S.ledger.transactions)
    (hid : e.ledgerTransactionId = some t.id)
    (hsystem : t.mechanism = .system → ∀ f ∈ S.assessmentEvents, f.IsSatisfaction →
      f.correlationId ≠ e.correlationId)
    (hx : CoverageKept sha256 S { S with assessmentEvents := S.assessmentEvents ++ [e] }) :
    CoverageInvariant sha256 zones bounded
      { S with assessmentEvents := S.assessmentEvents ++ [e] } := by
  refine h.frame hx h.premiums rfl rfl (fun _ hg ↦ hg) rfl rfl ?_ ?_ ?_
  · intro f hf
    obtain rfl := List.mem_singleton.1 hf
    refine ⟨fun hass ↦ ?_, a, ha, haa, hcorr⟩
    rw [ObligationAssessment.IsAssessment, htype] at hass
    cases hass
  · intro f hf _
    obtain rfl := List.mem_singleton.1 hf
    exact ⟨t, ht, hid⟩
  · rw [List.filter_append, List.pairwise_append]
    refine ⟨h.automatic, List.Pairwise.filter _ (List.pairwise_singleton _ _), ?_⟩
    intro f hf e' he'
    obtain ⟨hmem, hsys⟩ := List.mem_filter.1 he'
    obtain rfl := List.mem_singleton.1 hmem
    obtain ⟨-, u, hu, huid, hmech⟩ := of_decide_eq_true hsys
    rw [hid, Option.some.injEq] at huid
    obtain rfl := h.ledger.credits.numbered.unique ht hu huid
    obtain ⟨hf, hfs⟩ := List.mem_filter.1 hf
    exact hsystem hmech f hf (.inl (of_decide_eq_true hfs).1)

/-- A period that opens with its premium, in the lineage of one grant, old or new. -/
theorem CoverageInvariant.opens (h : CoverageInvariant sha256 zones bounded S)
    (hx : CoverageKept sha256 S S') {n : ℕ} {c : BillCycle} {r : ObligationCommandReservation}
    {a : ObligationAssessment} (ho : Opens zones now S g p n c r a)
    (hprem : S'.premiums = premiumColumn S'.policies) (hrent : S'.rentSettings = S.rentSettings)
    (hg : Granted S' g)
    (hothers : ∀ g', Granted S' g' → g' = g ∨
      (Granted S g' ∧ g'.entitlementId ≠ g.entitlementId))
    (hbefore : lineage S.toRentState g.entitlementId ≠ [] → Granted S g)
    (horigin : GrantOrigin S' g)
    (hcontinued : ∀ e n, Granted S e → e.continuesEntitlementId = some n →
      g.continuesEntitlementId = some n → e = g)
    (hlineage : ∃ p periods closing stop, Scheduled S' zones g p periods closing stop ∧
      (bounded → ∀ c ∈ closing, c.cycleBoundaryAt ≤ stop))
    (hcycles : S'.billCycles = S.billCycles ++ [c])
    (hsucc : S'.successions = S.successions ++ [r])
    (hes : S'.assessmentEvents = S.assessmentEvents ++ [a]) :
    CoverageInvariant sha256 zones bounded S' := by
  refine h.advance hx hprem hrent hg hothers hbefore horigin hcontinued hcycles ho.id
    ho.internalRef hlineage hes (fun _ ↦ ⟨a, List.mem_singleton_self a, ho.premium⟩) ?_ ?_ ?_ ?_
  · intro b hb _
    obtain rfl := List.mem_singleton.1 hb
    exact ⟨by rw [ho.ends]; rfl, ho.premium⟩
  · rw [hes]
    exact h.assessedOnce_snoc ho.fresh (by rw [ho.premium.billCycleId, ho.id])
  · intro b hb
    obtain rfl := List.mem_singleton.1 hb
    refine ⟨ho.premium.not_payment, b, ?_, ho.premium.isAssessment, rfl⟩
    rw [hes]
    exact List.mem_append_right _ hb
  · intro r' hr'
    rw [hsucc] at hr'
    rcases List.mem_append.1 hr' with hold | hnew
    · exact .inl hold
    · obtain rfl := List.mem_singleton.1 hnew
      exact .inr ⟨by rw [ho.ends]; rfl, ho.identity⟩

theorem CoverageInvariant.begins (h : CoverageInvariant sha256 zones bounded S) {c : BillCycle}
    {r : ObligationCommandReservation} {a : ObligationAssessment} (hgranted : g.eventType = .granted)
    (hfresh : ∀ e ∈ S.coverageEvents, e.entitlementId ≠ g.entitlementId)
    (horigin : GrantOrigin S g)
    (hfirst : ∀ e n, Granted S e → g.continuesEntitlementId = some n →
      e.continuesEntitlementId ≠ some n)
    (hpolicy : PolicyOf S g p) (hstart : c.cycleBoundaryAt = g.timestamp)
    (ho : Opens zones now S g p 1 c r a)
    (hx : CoverageKept sha256 S { S with
      coverageEvents := S.coverageEvents ++ [g], billCycles := S.billCycles ++ [c],
      successions := S.successions ++ [r], assessmentEvents := S.assessmentEvents ++ [a] }) :
    CoverageInvariant sha256 zones bounded { S with
      coverageEvents := S.coverageEvents ++ [g], billCycles := S.billCycles ++ [c],
      successions := S.successions ++ [r], assessmentEvents := S.assessmentEvents ++ [a] } := by
  have hnil := h.lineage_eq_nil hfresh
  refine h.opens hx ho h.premiums rfl ⟨List.mem_append_right _ (List.mem_singleton_self g),
    hgranted⟩ ?_ (fun hne ↦ absurd hnil hne) (horigin.mono (List.prefix_append _ _))
    (fun e n he hn hg ↦ absurd hn (hfirst e n he hg)) ?_ rfl rfl rfl
  · rintro g' ⟨hmem, htype⟩
    rcases List.mem_append.1 hmem with hold | hnew
    · exact .inr ⟨⟨hold, htype⟩, hfresh g' hold⟩
    · exact .inl (List.mem_singleton.1 hnew)
  · have hline : lineage { S.toRentState with billCycles := S.billCycles ++ [c] }
        g.entitlementId = [] ++ [c] := by
      rw [lineage_snoc ho.internalRef, hnil]
    exact ⟨p, [c], none, periodEnd zones g p 1, Scheduled.extend hline (.nil _)
      (by simp) (by simp) (by simp) hpolicy hstart ho.cycleNumber ho.classId ho.policyUuid
      ho.ends (by rw [ho.cycleNumber]) ho.begins_lt, by simp⟩

theorem CoverageInvariant.succeeds (h : CoverageInvariant sha256 zones bounded S) {c : BillCycle}
    {r : ObligationCommandReservation} {a : ObligationAssessment} (hg : Granted S g)
    (hs : Scheduled S zones g p periods none stop) (hstart : c.cycleBoundaryAt = stop)
    (ho : Opens zones now S g p (periods.length + 1) c r a)
    (hx : CoverageKept sha256 S { S with
      billCycles := S.billCycles ++ [c], successions := S.successions ++ [r],
      assessmentEvents := S.assessmentEvents ++ [a] }) :
    CoverageInvariant sha256 zones bounded { S with
      billCycles := S.billCycles ++ [c], successions := S.successions ++ [r],
      assessmentEvents := S.assessmentEvents ++ [a] } := by
  have hsplit : lineage S.toRentState g.entitlementId = periods := by
    rw [hs.split, Option.toList_none, List.append_nil]
  have hline : lineage ({ S.toRentState with billCycles := S.billCycles ++ [c] } : RentState)
      g.entitlementId = periods ++ [c] := by
    rw [lineage_snoc ho.internalRef, hsplit]
  refine h.opens hx ho h.premiums rfl hg (h.others hg) (fun _ ↦ hg)
    ((h.origins g hg).mono (List.prefix_append _ _))
    (fun e n he hn hgn ↦ h.continuedOnce e g n he hg hn hgn) ?_ rfl rfl rfl
  exact ⟨p, periods ++ [c], none, periodEnd zones g p (periods.length + 1),
    Scheduled.extend hline hs.tiles (hsplit ▸ hs.numbered) (hsplit ▸ hs.owned) hs.cadence
      hs.policy hstart ho.cycleNumber ho.classId ho.policyUuid ho.ends (by rw [ho.cycleNumber])
      ho.begins_lt, by simp⟩

theorem CoverageInvariant.closes (h : CoverageInvariant sha256 zones bounded S)
    {instant : Instant} {es : List ObligationAssessment} (hg : Granted S g)
    (hs : Scheduled S zones g p periods none stop)
    (hstops : Stops zones bounded now S g periods stop instant)
    (hes : ∀ e ∈ es, e.eventType = .withdrawn ∧ e.timestamp = now ∧ ∃ a ∈ S.assessmentEvents,
      a.IsAssessment ∧ a.correlationId = e.correlationId)
    (hx : CoverageKept sha256 S { S with
      assessmentEvents := S.assessmentEvents ++ es
      billCycles := S.billCycles ++ [closingRow S g periods instant] }) :
    CoverageInvariant sha256 zones bounded { S with
      assessmentEvents := S.assessmentEvents ++ es
      billCycles := S.billCycles ++ [closingRow S g periods instant] } := by
  have hnoass : ∀ e ∈ es, ¬ e.IsAssessment := by
    intro e he hass
    rw [ObligationAssessment.IsAssessment, (hes e he).1] at hass
    cases hass
  refine h.advance hx h.premiums rfl hg (h.others hg) (fun _ ↦ hg)
    ((h.origins g hg).mono (List.prefix_append _ _))
    (fun e n he hn hgn ↦ h.continuedOnce e g n he hg hn hgn) rfl rfl rfl ?_ rfl ?_ ?_ ?_ ?_ ?_
  · refine ⟨p, periods, some (closingRow S g periods instant), stop,
      hs.closed hs.policy rfl (lineage_snoc rfl) rfl rfl rfl rfl, ?_⟩
    intro hb c hc
    obtain rfl := Option.mem_some.1 hc
    exact hstops.le_stop hs hb
  · intro hlive
    cases hlive
  · exact fun a ha haa ↦ absurd haa (hnoass a ha)
  · have hnil : es.filter (·.IsAssessment) = [] := by
      rw [List.filter_eq_nil_iff]
      intro e he
      simpa using hnoass e he
    rw [List.filter_append, hnil, List.append_nil]
    exact h.assessedOnce
  · intro e he
    obtain ⟨htype, -, a, ha, haa, hcorr⟩ := hes e he
    exact ⟨by rw [htype]; simp, a, List.mem_append_left _ ha, haa, hcorr⟩
  · exact fun r hr ↦ .inl hr

theorem CoverageInvariant.expires (h : CoverageInvariant sha256 zones bounded S)
    {e : CoverageEvent} (htype : e.eventType ≠ .granted)
    (hx : CoverageKept sha256 S { S with coverageEvents := S.coverageEvents ++ [e] }) :
    CoverageInvariant sha256 zones bounded
      { S with coverageEvents := S.coverageEvents ++ [e] } := by
  refine h.frame hx h.premiums rfl rfl ?_ rfl (List.append_nil _).symm (by simp) (by simp)
    (h.automatic_of (.refl h.ledger) (List.append_nil _).symm (by simp))
  rintro g ⟨hmem, hgranted⟩
  rcases List.mem_append.1 hmem with hold | hnew
  · exact ⟨hold, hgranted⟩
  · rw [List.mem_singleton.1 hnew] at hgranted
    exact absurd hgranted htype

/-- A write of other tables, of the Ledger or of policies that keep the terms of versions. -/
theorem CoverageInvariant.elsewhere (h : CoverageInvariant sha256 zones bounded S)
    (hx : CoverageKept sha256 S S') (hprem : S'.premiums = premiumColumn S'.policies)
    (hrent : S'.rentSettings = S.rentSettings) (hcycles : S'.billCycles = S.billCycles)
    (hgrants : S'.coverageEvents = S.coverageEvents) (hsucc : S'.successions = S.successions)
    (hes : S'.assessmentEvents = S.assessmentEvents) :
    CoverageInvariant sha256 zones bounded S' := by
  have hnil : S'.assessmentEvents = S.assessmentEvents ++ [] := by rw [hes, List.append_nil]
  refine h.frame hx hprem hrent hcycles ?_ hsucc hnil (by simp) (by simp)
    (h.automatic_of hx.ledger hnil (by simp))
  intro g hg
  rwa [Granted, hgrants] at hg

theorem CoverageMove.kept (h : CoverageInvariant sha256 zones bounded S)
    (hm : CoverageMove sha256 zones bounded now S S') : CoverageKept sha256 S S' := by
  have hrefl := CoverageKept.refl h
  cases hm with
  | ledger hL => exact { hrefl with ledger := hL.toLedgerGrows }
  | pay => exact { hrefl with events := List.prefix_append _ _ }
  | begin =>
    exact { hrefl with
      events := List.prefix_append _ _
      cycles := List.prefix_append _ _
      coverage := List.prefix_append _ _ }
  | succeed =>
    exact { hrefl with
      events := List.prefix_append _ _
      cycles := List.prefix_append _ _ }
  | close =>
    exact { hrefl with
      events := List.prefix_append _ _
      cycles := List.prefix_append _ _ }
  | expire => exact { hrefl with coverage := List.prefix_append _ _ }
  | policies hkept => exact { hrefl with policies := hkept }
  | outside => exact { hrefl with }

/-- Every move keeps the invariant and what was recorded. -/
theorem CoverageInvariant.move (h : CoverageInvariant sha256 zones bounded S)
    (hm : CoverageMove sha256 zones bounded now S S') :
    CoverageInvariant sha256 zones bounded S' ∧ CoverageKept sha256 S S' := by
  have hx := hm.kept h
  refine ⟨?_, hx⟩
  cases hm with
  | ledger => exact h.elsewhere hx h.premiums rfl rfl rfl rfl rfl
  | pay ha haa hcorr htype _ ht hid hsystem => exact h.pays ha haa hcorr htype ht hid hsystem hx
  | begin hgranted hfresh horigin hfirst hpolicy hstart ho =>
    exact h.begins hgranted hfresh horigin hfirst hpolicy hstart ho hx
  | succeed hg hs hstart ho => exact h.succeeds hg hs hstart ho hx
  | close hg hs hstops hes => exact h.closes hg hs hstops hes hx
  | expire htype => exact h.expires htype hx
  | policies => exact h.elsewhere hx rfl rfl rfl rfl rfl rfl
  | outside => exact h.elsewhere hx h.premiums rfl rfl rfl rfl rfl

end Preservation

end TokenHub.Insurance
