import TokenHub.Insurance.PremiumAnswers

set_option autoImplicit false

namespace TokenHub.Insurance

open Ledger Rent Lib.Checks Lib.Json Lib.Runs

/-- A command of the insurance, other activity on the tables that it shares, or the waiver of an
obligation. -/
inductive PremiumAction
  | command (a : InsuranceAction)
  | waive (classId : String) (seatId : ℕ) (correlationId : String)

structure TimedPremiumAction where
  wait : ℕ
  action : PremiumAction

/-- Other activity that would reserve a key of the features that pay premiums. -/
def InsuranceAction.PostsPremium : InsuranceAction → Prop
  | .post _ id _ _ => id.featCode ∈ premiumFeats
  | _ => False

instance : DecidablePred InsuranceAction.PostsPremium
  | .post _ id _ _ => inferInstanceAs (Decidable (id.featCode ∈ premiumFeats))
  | .purchase _ _ _ | .renew _ _ _ _ _ | .payPremium _ _ _ | .cancel _ _ _ | .expire _ _ _
  | .createPolicy _ | .setAvailability _ _ _ | .submit _ _ | .resolve _ _ _ | .settle _ _
  | .enroll _ | .store _ => isFalse id

section Steps

variable (sha256 : String → String) (zones : String → CoverageZone)

/-- One action at an instant. The keys of the premium payments are reserved by them alone. -/
def premiumStep (now : Instant) (S : InsuranceState) : PremiumAction → InsuranceState
  | .command a => if a.PostsPremium then S else insuranceStep sha256 zones now S a
  | .waive classId seatId correlationId =>
    { S with toRentState := committed S.toRentState (satisfyObligation S.toRentState now
        { correlationId := correlationId, classId := classId, seatId := seatId,
          method := .waived }) }

def premiumSystemStep (s : InsuranceSystem) (a : TimedPremiumAction) : InsuranceSystem where
  clock := s.clock + a.wait
  tables := premiumStep sha256 zones (s.clock + a.wait) s.tables a.action

end Steps

section Statements

variable (sha256 : String → String) (zones : String → CoverageZone)

structure PremiumsWhole (S : InsuranceState) : Prop where
  once : ∀ correlationId, (S.assessmentEvents.filter (fun e ↦
    e.eventType = .payment ∧ e.correlationId = correlationId)).length ≤ 1
  apart : ∀ e ∈ S.assessmentEvents, ∀ f ∈ S.assessmentEvents, e.eventType = .payment →
    f.eventType = .payment → e.ledgerTransactionId = f.ledgerTransactionId → e = f
  paid : ∀ e ∈ S.assessmentEvents, e.eventType = .payment →
    ∃ a, getAssessmentForCorrelation S.toRentState e.correlationId = some a ∧
      a.obligationType = .insurancePremium ∧
      ∃ t, e.ledgerTransactionId = some t.id ∧
        PremiumDebit S.ledger a (resolveAssessmentAmount S.toRentState a) t
  available : ∀ scope, getAvailableBalance S.ledger scope = scopeCents S.ledger scope
  target : ∀ g, Granted S g → EarliestTarget S g

/-- A payment that is refused, or that raises, leaves the tables as they are. -/
structure RefusalsWriteNothing (now : Instant) (S : InsuranceState) : Prop where
  payment : ∀ env correlationId q,
    (∀ res S', payInsurancePremium sha256 env ⟨"FEAT-OBL-003", correlationId, now⟩ S q =
      .ok (res, S') → res.success = false) →
    premiumStep sha256 zones now S (.command (.payPremium env correlationId q)) = S
  purchase : ∀ env correlationId q,
    (∀ res S', purchaseInsurance sha256 (zones q.classId) env
      ⟨"FEAT-OBL-004", correlationId, now⟩ S q = .ok (res, S') → res.success = false) →
    premiumStep sha256 zones now S (.command (.purchase env correlationId q)) = S
  autopay : ∀ env feat S₁ S' classId seatId entitlementId cycleNumber correlationId,
    attemptAutopay sha256 env feat S₁ classId seatId entitlementId cycleNumber correlationId =
      .ok (false, S') → S' = S₁

/-- Whatever follows an accepted command, the same command returns what it returned first, and
writes nothing. -/
structure RetriesAnswer (s : InsuranceSystem) (wait : ℕ) (later : List TimedPremiumAction) :
    Prop where
  payment : ∀ env correlationId q res S',
    payInsurancePremium sha256 env ⟨"FEAT-OBL-003", correlationId, s.clock + wait⟩ s.tables q =
      .ok (res, S') → res.success = true →
    ∀ env' correlationId' now',
      let S'' := (run (premiumSystemStep sha256 zones)
        (premiumSystemStep sha256 zones s ⟨wait, .command (.payPremium env correlationId q)⟩)
          later).tables
      payInsurancePremium sha256 env' ⟨"FEAT-OBL-003", correlationId', now'⟩ S'' q =
        .ok ({ res with replayed := true }, S'')
  purchase : ∀ env correlationId q res S',
    purchaseInsurance sha256 (zones q.classId) env
      ⟨"FEAT-OBL-004", correlationId, s.clock + wait⟩ s.tables q =
      .ok (res, S') → res.success = true →
    ∀ env' correlationId' now',
      let S'' := (run (premiumSystemStep sha256 zones)
        (premiumSystemStep sha256 zones s ⟨wait, .command (.purchase env correlationId q)⟩)
          later).tables
      purchaseInsurance sha256 (zones q.classId) env' ⟨"FEAT-OBL-004", correlationId', now'⟩ S'' q =
        .ok ({ success := true, replayed := true, correlationId := some q.correlationId,
               entitlementId := res.entitlementId }, S'')

end Statements

variable {sha256 : String → String} {zones : String → CoverageZone} {now : Instant}
  {S S' S'' : InsuranceState}

section Elsewhere

theorem createReservedEffects_reservations {feat : FeatContext} {L L' : LedgerState}
    {id : CommandIdentity} {effects : List Effect} {intent : Value} {rows : List Transaction}
    {created : Bool} (hid : id.featCode ∉ premiumFeats)
    (hok : createReservedEffects sha256 feat L L.reservations id effects intent =
      .ok ((rows, created), L')) :
    ∀ r ∈ L'.reservations, r.featCode ∈ premiumFeats → r ∈ L.reservations := by
  intro r hr hfeat
  rcases createReservedEffects_ok hok with ⟨-, rfl, -⟩ | ⟨-, -, f, -, hi, -⟩
  · exact hr
  · rw [hi.state] at hr
    rcases List.mem_append.1 hr with hold | hnew
    · exact hold
    · rw [List.mem_singleton.1 hnew] at hfeat
      exact absurd hfeat hid

theorem createIdempotentTransaction_reservations {feat : FeatContext} {L L' : LedgerState}
    {key : String} {e : Effect} {rows : List Transaction} {created : Bool}
    (hfeat : feat.activeFeat ∉ premiumFeats)
    (hok : createIdempotentTransaction sha256 feat L L.reservations key e =
      .ok ((rows, created), L')) :
    ∀ r ∈ L'.reservations, r.featCode ∈ premiumFeats → r ∈ L.reservations := by
  simp only [createIdempotentTransaction, unit_bind_eq_ok] at hok
  obtain ⟨-, -, -, hok⟩ := hok
  exact createReservedEffects_reservations hfeat hok

theorem recordManualCredit_reservations {feat : FeatContext} {m : ManualCredit} {eventId : ℕ}
    (hfeat : feat.activeFeat ∉ premiumFeats)
    (hok : recordManualCredit sha256 feat S m = .ok (eventId, S')) :
    ∀ r ∈ S'.ledger.reservations, r.featCode ∈ premiumFeats → r ∈ S.ledger.reservations := by
  unfold recordManualCredit at hok
  split at hok
  · rw [pure_eq_ok, Prod.mk.injEq] at hok
    rw [← hok.2]
    exact fun r hr _ ↦ hr
  · rw [require_bind_eq_ok] at hok
    simp only [bind_eq_ok, Prod.exists, demand_eq_ok, pure_eq_ok, Prod.mk.injEq] at hok
    obtain ⟨-, rows, L, hpending, row, -, -, rfl⟩ := hok
    simp only [createPendingTransaction, require_bind_eq_ok] at hpending
    obtain ⟨-, hpending⟩ := hpending
    split_ifs at hpending
    · simp only [bind_eq_ok, pure_eq_ok, Prod.exists, Prod.mk.injEq] at hpending
      obtain ⟨rows', created, L₁, hc, -, rfl⟩ := hpending
      exact createIdempotentTransaction_reservations hfeat hc
    · simp only [bind_eq_ok, pure_eq_ok, Prod.exists, Prod.mk.injEq] at hpending
      obtain ⟨t, L₁, hc, -, rfl⟩ := hpending
      rw [(createPendingEffect_ok hc).1.state]
      exact fun r hr _ ↦ hr

theorem Decided.reservations {zone : CoverageZone} {env : ClaimSurroundings} {feat : FeatContext}
    {q : ResolveRequest} {claim : InsuranceClaim} (hfeat : feat.activeFeat ∉ premiumFeats)
    (hdec : Decided sha256 zone env feat S q claim S') :
    ∀ r ∈ S'.ledger.reservations, r.featCode ∈ premiumFeats → r ∈ S.ledger.reservations := by
  cases hdec with
  | rejected _ => exact fun r hr _ ↦ hr
  | reimbursed _ hr =>
    obtain ⟨rows, created, hok, -⟩ := hr.credit
    exact createIdempotentTransaction_reservations hfeat hok
  | compensated _ hcomp =>
    have hpaid := hcomp.paid
    unfold payProductivityClaim at hpaid
    split_ifs at hpaid
    · simp only [bind_eq_ok, Prod.exists, pure_eq_ok, Prod.mk.injEq] at hpaid
      obtain ⟨setting, -, eventId, S₂, hrecord, -, rfl⟩ := hpaid
      have hcredit := recordManualCredit_reservations hfeat hrecord
      exact hcredit
    · rw [pure_eq_ok, Prod.mk.injEq] at hpaid
      rw [← hpaid.2]
      exact fun r hr _ ↦ hr

end Elsewhere

section Sound

variable (sha256) (zones)

structure PremiumSystemSound (S : InsuranceState) : Prop where
  system : SystemSound sha256 zones False S
  premiums : PremiumsPaid sha256 S

variable {sha256} {zones}

theorem premiumColumn_kept (hx : CoverageKept sha256 S S') {u c : String} {v : ℤ}
    (hv : premiumColumn S.policies u c = some v) : premiumColumn S'.policies u c = some v := by
  obtain ⟨p, hp, rfl⟩ := Option.map_eq_some_iff.1 hv
  obtain ⟨p', hp', ht⟩ := hx.policies u c p hp
  have hsame : p'.premium = p.premium := (congrArg InsurancePolicy.premium ht :)
  rw [getInsuranceDefinition] at hp'
  rw [premiumColumn, hp', Option.map_some, hsame]

/-- A command that changes neither the Ledger nor the obligations pays no premium. -/
theorem PremiumSystemSound.unpaid (h : PremiumSystemSound sha256 zones S)
    (hkept : SystemKept sha256 zones False S S') (hledger : S'.ledger = S.ledger)
    (hevents : S'.assessmentEvents = S.assessmentEvents) : PremiumsPaid sha256 S' := by
  refine h.premiums.beside ⟨hkept.coverage.ledger, fun r hr _ ↦ hledger ▸ hr, ⟨[], ?_, by simp⟩,
    ?_, ?_⟩
  · rw [hevents, List.append_nil]
  · rw [hkept.sound.coverage.rentless, h.system.coverage.rentless]
  · intro u c v hv
    rw [h.system.coverage.premiums] at hv
    rw [hkept.sound.coverage.premiums]
    exact premiumColumn_kept hkept.coverage hv

theorem PremiumSystemSound.cancel (h : PremiumSystemSound sha256 zones S) {now : Instant}
    {classId policyUuid : String} {seatId : ℕ} {res : CoverageResult}
    (hok : cancelInsurance now S classId seatId policyUuid = .ok (res, S')) :
    PremiumsPaid sha256 S' := by
  simp only [cancelInsurance] at hok
  split at hok
  · simp only [bind_eq_ok, Prod.exists, pure_eq_ok, Prod.mk.injEq] at hok
    obtain ⟨t, S₁, hterminate, -, rfl⟩ := hok
    exact h.premiums.beside (terminateBillCycle_leaves h.premiums.ledger hterminate)
  · split at hok
    · rw [pure_eq_ok, Prod.mk.injEq] at hok
      exact hok.2 ▸ h.premiums
    · rw [pure_eq_ok, Prod.mk.injEq] at hok
      exact hok.2 ▸ h.premiums

theorem PremiumSystemSound.expire (h : PremiumSystemSound sha256 zones S) {env : Surroundings}
    {now : Instant} {cycle : BillCycle} {entitlementId : ℕ}
    (hok : expireEndedCoverage env now S cycle entitlementId = .ok S') :
    PremiumsPaid sha256 S' := by
  unfold expireEndedCoverage at hok
  split_ifs at hok
  · split at hok
    · rw [bind_eq_ok] at hok
      obtain ⟨actor, -, hok⟩ := hok
      exact h.premiums.beside (expireCoverage_leaves h.premiums.ledger hok)
    · rw [pure_eq_ok] at hok
      exact hok ▸ h.premiums
  · rw [pure_eq_ok] at hok
    exact hok ▸ h.premiums

theorem PremiumSystemSound.resolve (h : PremiumSystemSound sha256 zones S)
    {env : ClaimSurroundings} {feat : FeatContext} (hfeat : feat.activeFeat = claimsFeat)
    {q : ResolveRequest} (hS : (resolveInsuranceClaim sha256 (zones q.classId) env feat S q).2 = S')
    (hL : LedgerGrows sha256 S.ledger S'.ledger) : PremiumsPaid sha256 S' := by
  rcases resolveInsuranceClaim_ok hS with rfl | ⟨claim, -, -, -, -, hdec⟩
  · exact h.premiums
  · refine h.premiums.beside (.of_ledger hL (hdec.reservations ?_) hdec.frame.1)
    rw [hfeat]
    simp [claimsFeat, premiumFeats]

theorem PremiumSystemSound.command (h : PremiumSystemSound sha256 zones S) (now : Instant)
    (a : InsuranceAction) (ha : ¬ a.PostsPremium) :
    PremiumsPaid sha256 (insuranceStep sha256 zones now S a) := by
  have hsound := h.premiums.ledger
  have hkept := h.system.step now a (fun hb ↦ hb.elim)
  cases a with
  | purchase env correlationId q =>
    refine committed_relates (R := fun _ S' ↦ PremiumsPaid sha256 S') h.premiums ?_
    exact fun res S' hok ↦ purchaseInsurance_keeps h.premiums h.system.coverage rfl hok
  | renew env correlationId passes classId entitlementId =>
    refine committed_relates (R := fun _ S' ↦ PremiumsPaid sha256 S') h.premiums ?_
    exact fun res S' hok ↦ renewInsuranceCoverage_keeps h.premiums rfl hok
  | payPremium env correlationId q =>
    refine committed_relates (R := fun _ S' ↦ PremiumsPaid sha256 S') h.premiums ?_
    exact fun res S' hok ↦ payInsurancePremium_keeps h.premiums rfl hok
  | cancel classId seatId policyUuid =>
    refine committed_relates (R := fun _ S' ↦ PremiumsPaid sha256 S') h.premiums ?_
    exact fun res S' hok ↦ h.cancel hok
  | expire env cycle entitlementId =>
    simp only [insuranceStep, kept]
    split
    · next S' hok => exact h.expire hok
    · exact h.premiums
  | createPolicy policy =>
    have hframe : (insuranceStep sha256 zones now S (.createPolicy policy)).ledger = S.ledger ∧
        (insuranceStep sha256 zones now S (.createPolicy policy)).assessmentEvents =
          S.assessmentEvents := by
      simp only [insuranceStep, kept]
      split
      · next S' hok =>
        simp only [createInsuranceDefinition, require_bind_eq_ok, pure_eq_ok] at hok
        rw [← hok.2]
        exact ⟨rfl, rfl⟩
      · exact ⟨rfl, rfl⟩
    exact h.unpaid hkept hframe.1 hframe.2
  | setAvailability policyUuid classId state =>
    have hframe : (insuranceStep sha256 zones now S
        (.setAvailability policyUuid classId state)).ledger = S.ledger ∧
        (insuranceStep sha256 zones now S
          (.setAvailability policyUuid classId state)).assessmentEvents = S.assessmentEvents := by
      simp only [insuranceStep, kept]
      split
      · next S' hok =>
        simp only [Insurance.setAvailability, require_bind_eq_ok, pure_eq_ok] at hok
        rw [← hok.2]
        exact ⟨rfl, rfl⟩
      · exact ⟨rfl, rfl⟩
    exact h.unpaid hkept hframe.1 hframe.2
  | submit env q =>
    rw [insuranceStep]
    generalize hS' : (submitInsuranceClaim (zones q.classId) env now S q).2 = S'
    rcases submitInsuranceClaim_ok hS' with rfl | ⟨grant, policy, period, dates, hf⟩
    · exact h.premiums
    · refine h.premiums.beside (.of_rent hsound ?_ ?_ ?_ ?_) <;> rw [hf.state]
  | resolve env correlationId q => exact h.resolve rfl rfl hkept.coverage.ledger
  | settle seatId classId =>
    refine h.premiums.beside (.of_ledger (.settle hsound seatId classId) ?_ rfl)
    intro r hr hfeat
    have hgrows : GrowsElsewhere sha256 r.featCode S.ledger
        (perform sha256 S.ledger (.settle seatId classId)) := .settle hsound seatId classId
    have hunder := hgrows.reservationsUnder
    have hmem : r ∈ S.ledger.reservations.filter (·.featCode = r.featCode) := by
      rw [← hunder]
      exact List.mem_filter.2 ⟨hr, decide_eq_true rfl⟩
    exact (List.mem_filter.1 hmem).1
  | post feat id effects intent =>
    have hledger := hkept.coverage.ledger
    simp only [insuranceStep, postElsewhere] at hledger ⊢
    split_ifs at hledger ⊢
    · exact h.premiums
    · refine h.premiums.beside (.of_ledger hledger ?_ rfl)
      refine committed_relates (R := fun L L' : LedgerState ↦ ∀ r ∈ L'.reservations,
        r.featCode ∈ premiumFeats → r ∈ L.reservations) (fun r hr _ ↦ hr) ?_
      exact fun out L hok ↦ createReservedEffects_reservations ha hok
  | enroll seats => exact h.premiums.beside (.of_rent hsound rfl rfl rfl rfl)
  | store events => exact h.premiums.beside (.of_rent hsound rfl rfl rfl rfl)

theorem PremiumSystemSound.waive (h : PremiumSystemSound sha256 zones S) (now : Instant)
    (classId : String) (seatId : ℕ) (correlationId : String) :
    premiumStep sha256 zones now S (.waive classId seatId correlationId) = S := by
  rw [premiumStep]
  cases hok : satisfyObligation S.toRentState now
    { correlationId := correlationId, classId := classId, seatId := seatId, method := .waived } with
  | error _ => rfl
  | ok out =>
    rw [satisfyObligation, demand_bind_eq_ok] at hok
    obtain ⟨a, hfound, hok⟩ := hok
    simp only [require_bind_eq_ok] at hok
    obtain ⟨-, -, hlawful, -⟩ := hok
    obtain ⟨ha, -, hass⟩ := getAssessmentForCorrelation_spec hfound
    obtain ⟨g, c, -, -, -, hfor⟩ := h.system.coverage.assessments a ha hass
    rw [hfor.obligationType] at hlawful
    exact absurd (hlawful trivial) (by simp)

theorem PremiumSystemSound.step (h : PremiumSystemSound sha256 zones S) (now : Instant)
    (a : PremiumAction) : PremiumSystemSound sha256 zones (premiumStep sha256 zones now S a) ∧
      CoverageKept sha256 S (premiumStep sha256 zones now S a) := by
  cases a with
  | command a =>
    rw [premiumStep]
    split_ifs with hposts
    · exact ⟨h, .refl h.system.coverage⟩
    · have hkept := h.system.step now a (fun hb ↦ hb.elim)
      exact ⟨⟨hkept.sound, h.command now a hposts⟩, hkept.coverage⟩
  | waive classId seatId correlationId =>
    rw [h.waive]
    exact ⟨h, .refl h.system.coverage⟩

theorem PremiumSystemSound.run {s : InsuranceSystem}
    (h : PremiumSystemSound sha256 zones s.tables) (as : List TimedPremiumAction) :
    PremiumSystemSound sha256 zones (run (premiumSystemStep sha256 zones) s as).tables ∧
      CoverageKept sha256 s.tables (run (premiumSystemStep sha256 zones) s as).tables := by
  induction as generalizing s with
  | nil => exact ⟨h, .refl h.system.coverage⟩
  | cons a as ih =>
    obtain ⟨hsound, hkept⟩ := h.step (s.clock + a.wait) a.action
    obtain ⟨hlast, hrest⟩ := ih (s := premiumSystemStep sha256 zones s a) hsound
    exact ⟨hlast, hkept.trans hrest⟩

theorem PremiumSystemSound.start (seatClass : ℕ → Option String) :
    PremiumSystemSound sha256 zones (.empty seatClass) where
  system := .start seatClass
  premiums :=
    { ledger := .empty seatClass
      once := .nil
      paid := by simp [InsuranceState.empty, RentState.empty]
      charged := by simp [InsuranceState.empty, RentState.empty, LedgerState.empty] }

end Sound

section Results

theorem PremiumSystemSound.whole (h : PremiumSystemSound sha256 zones S) : PremiumsWhole S := by
  have honce := h.premiums.once
  rw [List.pairwise_filter] at honce
  refine ⟨fun c ↦ ?_, ?_, ?_, h.premiums.ledger.balance.getAvailableBalance,
    fun g hg ↦ h.system.coverage.earliestTarget hg⟩
  · have hpair : (S.assessmentEvents.filter (fun e ↦
        e.eventType = .payment ∧ e.correlationId = c)).Pairwise (fun _ _ ↦ False) := by
      rw [List.pairwise_filter]
      refine honce.imp (fun {x y} hne hx hy ↦ ?_)
      obtain ⟨hxp, hxc⟩ := of_decide_eq_true hx
      obtain ⟨hyp, hyc⟩ := of_decide_eq_true hy
      exact (hne (decide_eq_true hxp) (decide_eq_true hyp)).1 (hxc.trans hyc.symm)
    generalize S.assessmentEvents.filter (fun e ↦
      e.eventType = .payment ∧ e.correlationId = c) = payments at hpair
    match payments, hpair with
    | [], _ => simp
    | [e], _ => simp
    | e :: f :: _, hpair => exact ((List.pairwise_cons.1 hpair).1 f (by simp)).elim
  · intro e he f hf hep hfp hid
    have hsymm : Std.Symm (fun e f : ObligationAssessment ↦
        e.correlationId ≠ f.correlationId ∧ e.ledgerTransactionId ≠ f.ledgerTransactionId) :=
      ⟨fun _ _ hne ↦ ⟨hne.1.symm, hne.2.symm⟩⟩
    by_contra hne
    exact (h.premiums.once.forall (List.mem_filter.2 ⟨he, decide_eq_true hep⟩)
      (List.mem_filter.2 ⟨hf, decide_eq_true hfp⟩) hne).2 hid
  · intro e he htype
    obtain ⟨a, ha, t, hid, ht⟩ := h.premiums.paid e he htype
    obtain ⟨hmem, -, hass⟩ := getAssessmentForCorrelation_spec ha
    obtain ⟨g, c, -, -, -, hfor⟩ := h.system.coverage.assessments a hmem hass
    exact ⟨a, ha, hfor.obligationType, t, hid, ht⟩

theorem refusals_write_nothing (now : Instant) (S : InsuranceState) :
    RefusalsWriteNothing sha256 zones now S where
  payment := by
    intro env correlationId q hrefused
    have hposts : ¬ (InsuranceAction.payPremium env correlationId q).PostsPremium := id
    rw [premiumStep, if_neg hposts, insuranceStep]
    cases hok : payInsurancePremium sha256 env ⟨"FEAT-OBL-003", correlationId, now⟩ S q with
    | error _ => rfl
    | ok out =>
      rcases payInsurancePremium_cases hok with ⟨-, hsame⟩ | ⟨_, -, -, -, -, hsame⟩ |
        ⟨s, debit, -, -, -, -, -, -, -, hres⟩
      · exact hsame
      · exact hsame
      · have habsurd := hrefused _ _ hok
        rw [hres] at habsurd
        cases habsurd
  purchase := by
    intro env correlationId q hrefused
    have hposts : ¬ (InsuranceAction.purchase env correlationId q).PostsPremium := id
    rw [premiumStep, if_neg hposts, insuranceStep]
    cases hok : purchaseInsurance sha256 (zones q.classId) env
        ⟨"FEAT-OBL-004", correlationId, now⟩ S q with
    | error _ => rfl
    | ok out => exact purchaseInsurance_refused hok (hrefused _ _ hok)
  autopay := fun _ _ _ _ _ _ _ _ _ hok ↦ attemptAutopay_refused hok

theorem PremiumSystemSound.retries {s : InsuranceSystem}
    (h : PremiumSystemSound sha256 zones s.tables) (wait : ℕ) (later : List TimedPremiumAction) :
    RetriesAnswer sha256 zones s wait later where
  payment := by
    intro env correlationId q res S' hok hres env' correlationId' now'
    have hnext : premiumSystemStep sha256 zones s ⟨wait, .command (.payPremium env correlationId q)⟩ =
        ⟨s.clock + wait, S'⟩ := by
      have hposts : ¬ (InsuranceAction.payPremium env correlationId q).PostsPremium := id
      rw [premiumSystemStep, premiumStep, if_neg hposts, insuranceStep, hok, committed_ok]
    have hsound := (h.step (s.clock + wait) (.command (.payPremium env correlationId q))).1
    have htables : premiumStep sha256 zones (s.clock + wait) s.tables
        (.command (.payPremium env correlationId q)) = S' :=
      congrArg InsuranceSystem.tables hnext
    rw [htables] at hsound
    have hanswered := payInsurancePremium_answered h.premiums h.system.coverage rfl hok hres
    have hkept := (PremiumSystemSound.run (s := ⟨s.clock + wait, S'⟩) hsound later).2
    rw [hnext]
    exact (hanswered.kept hkept).retry rfl
  purchase := by
    intro env correlationId q res S' hok hres env' correlationId' now'
    have hnext : premiumSystemStep sha256 zones s ⟨wait, .command (.purchase env correlationId q)⟩ =
        ⟨s.clock + wait, S'⟩ := by
      have hposts : ¬ (InsuranceAction.purchase env correlationId q).PostsPremium := id
      rw [premiumSystemStep, premiumStep, if_neg hposts, insuranceStep, hok, committed_ok]
    have hstep := h.step (s.clock + wait) (.command (.purchase env correlationId q))
    have htables : premiumStep sha256 zones (s.clock + wait) s.tables
        (.command (.purchase env correlationId q)) = S' :=
      congrArg InsuranceSystem.tables hnext
    rw [htables] at hstep
    obtain ⟨hpolicy, hkey, hcontext, hseat, e, he, hid⟩ :=
      purchaseInsurance_answered hok hres hstep.2.ledger.seatClass
    have hkept := (PremiumSystemSound.run (s := ⟨s.clock + wait, S'⟩) hstep.1 later).2
    obtain ⟨es, hes⟩ := hkept.coverage
    rw [hnext, hid]
    refine purchaseInsurance_retry hpolicy hkey hcontext ?_ ?_
    · rw [hkept.ledger.seatClass]
      exact hseat
    · rw [priorGrant] at he ⊢
      rw [← hes, List.find?_append, he, Option.some_or]

/-- In every run of payments, renewals, purchases, waivers and whatever else the tables go
through, a premium is paid whole, once and within what the seat has, a refused payment writes
nothing, the default target is the premium that was due first, and an accepted command is answered
the same from then on. -/
theorem premiums_are_paid_whole_once_and_covered (sha256 : String → String)
    (zones : String → CoverageZone) (clock : Instant) (seatClass : ℕ → Option String)
    (as later : List TimedPremiumAction) (wait : ℕ) :
    let s := run (premiumSystemStep sha256 zones) (.start clock seatClass) as
    PremiumsWhole s.tables ∧ RefusalsWriteNothing sha256 zones (s.clock + wait) s.tables ∧
      RetriesAnswer sha256 zones s wait later := by
  intro s
  have hstart : PremiumSystemSound sha256 zones (InsuranceSystem.start clock seatClass).tables :=
    .start seatClass
  have hsound := (hstart.run as).1
  exact ⟨hsound.whole, refusals_write_nothing _ _, hsound.retries wait later⟩

end Results

end TokenHub.Insurance
