import TokenHub.Ledger.ChargeReplay
import TokenHub.Insurance.SystemRuns

set_option autoImplicit false

namespace TokenHub.Insurance

open Ledger Rent Lib.Checks Lib.SequencedLog

def ledgerThrough (L : LedgerState) (rowId : ℕ) : LedgerState :=
  { L with transactions := L.transactions.filter (·.id ≤ rowId) }

def premiumFeats : List String := ["FEAT-OBL-003", "FEAT-OBL-004", "FEAT-STOR-007"]

def NamesPremium (featCode key correlationId : String) : Prop :=
  (featCode = "FEAT-OBL-003" ∧ ∃ k, key = "insurance-premium-payment:" ++ k) ∨
  (featCode = "FEAT-OBL-004" ∧ ∃ k, key = "insurance-premium:" ++ k ++ ":cycle1" ∧
    correlationId = "insurance-purchase:" ++ k) ∨
  (featCode = "FEAT-STOR-007" ∧ ∃ entitlementId cycleNumber,
    key = autopayKey entitlementId cycleNumber ∧
      correlationId = premiumCorrelationId entitlementId cycleNumber)

/-- A debit that pays a premium: of all of it, and within what the seat has. -/
structure PremiumDebit (L : LedgerState) (a : ObligationAssessment) (amount : ℤ)
    (t : Transaction) : Prop where
  mem : t ∈ L.transactions
  reserved : ∃ r ∈ L.reservations, t.commandReservationId = some r.id
  positive : 0 < amount
  whole : t.amountCents = -amount
  scope : t.scope = ⟨a.classId, a.seatId, .checking⟩
  covered : 0 ≤ scopeCents (ledgerThrough L t.id) ⟨a.classId, a.seatId, .checking⟩
  transferred : (∃ u ∈ L.transactions, u.commandReservationId = t.commandReservationId ∧
      u.accountType = .savings) →
    0 ≤ scopeCents (ledgerThrough L t.id) ⟨a.classId, a.seatId, .savings⟩

section Invariant

variable (sha256 : String → String)

structure PremiumsPaid (S : InsuranceState) : Prop where
  ledger : LedgerSound sha256 S.ledger
  once : (S.assessmentEvents.filter (·.eventType = .payment)).Pairwise (fun e f ↦
    e.correlationId ≠ f.correlationId ∧ e.ledgerTransactionId ≠ f.ledgerTransactionId)
  paid : ∀ e ∈ S.assessmentEvents, e.eventType = .payment →
    ∃ a, getAssessmentForCorrelation S.toRentState e.correlationId = some a ∧
      ∃ t, e.ledgerTransactionId = some t.id ∧
        PremiumDebit S.ledger a (resolveAssessmentAmount S.toRentState a) t
  charged : ∀ r ∈ S.ledger.reservations, r.featCode ∈ premiumFeats →
    ∃ e ∈ S.assessmentEvents, e.eventType = .payment ∧
      NamesPremium r.featCode r.idempotencyKey e.correlationId

structure LeavesPremiums (S S' : InsuranceState) : Prop where
  ledger : LedgerGrows sha256 S.ledger S'.ledger
  reservations : ∀ r ∈ S'.ledger.reservations, r.featCode ∈ premiumFeats →
    r ∈ S.ledger.reservations
  events : ∃ es, S'.assessmentEvents = S.assessmentEvents ++ es ∧
    ∀ e ∈ es, e.eventType ≠ .payment
  rent : S'.rentSettings = S.rentSettings
  premiums : ∀ p c v, S.premiums p c = some v → S'.premiums p c = some v

end Invariant

variable {sha256 : String → String} {zones : String → CoverageZone} {env : Surroundings}
  {feat : FeatContext} {S S' S'' : InsuranceState} {L L' : LedgerState} {a : ObligationAssessment}
  {amount : ℤ} {t : Transaction}

section Growth

theorem ledgerThrough_grows (h : LedgerGrows sha256 L L') (ht : t ∈ L.transactions) :
    (ledgerThrough L' t.id).transactions = (ledgerThrough L t.id).transactions := by
  obtain ⟨ts, hts⟩ := h.rows
  have hlater : ts.filter (·.id ≤ t.id) = [] := by
    rw [List.filter_eq_nil_iff]
    intro u hu
    have hincreasing := h.sound.credits.numbered.increasing
    rw [← hts, List.pairwise_append] at hincreasing
    have hlt := hincreasing.2.2 t ht u hu
    simp only [decide_eq_true_eq]
    omega
  rw [ledgerThrough, ledgerThrough, ← hts, List.filter_append, hlater, List.append_nil]

theorem scopeCents_through (h : LedgerGrows sha256 L L') (ht : t ∈ L.transactions)
    (scope : Scope) :
    scopeCents (ledgerThrough L' t.id) scope = scopeCents (ledgerThrough L t.id) scope := by
  rw [scopeCents, ledgerThrough_grows h ht, scopeCents]

theorem ledgerThrough_last (hs : LedgerSound sha256 L) {ts : List Transaction}
    (hlast : L.transactions = ts ++ [t]) : (ledgerThrough L t.id).transactions = L.transactions := by
  have hincreasing := hs.credits.numbered.increasing
  rw [hlast, List.pairwise_append] at hincreasing
  rw [ledgerThrough, List.filter_eq_self]
  intro u hu
  rw [hlast] at hu
  rcases List.mem_append.1 hu with hu | hu
  · exact decide_eq_true (hincreasing.2.2 u hu t (List.mem_singleton_self t)).le
  · rw [List.mem_singleton.1 hu]
    exact decide_eq_true le_rfl

theorem PremiumDebit.grows (h : PremiumDebit L a amount t) (hg : LedgerGrows sha256 L L') :
    PremiumDebit L' a amount t := by
  obtain ⟨r, hr, hid⟩ := h.reserved
  obtain ⟨hmem, hrows⟩ := hg.kept r hr
  refine ⟨hg.rows.subset h.mem, ⟨r, hmem, hid⟩, h.positive, h.whole, h.scope, ?_, ?_⟩
  · rw [scopeCents_through hg h.mem]
    exact h.covered
  · rintro ⟨u, hu, hur, hsavings⟩
    rw [scopeCents_through hg h.mem]
    refine h.transferred ⟨u, ?_, hur, hsavings⟩
    have hmem : u ∈ reservedRows L' r.id :=
      List.mem_filter.2 ⟨hu, decide_eq_true (hur.trans hid)⟩
    rw [hrows] at hmem
    exact (List.mem_filter.1 hmem).1

end Growth

section Besides

theorem LeavesPremiums.refl (h : LedgerSound sha256 S.ledger) : LeavesPremiums sha256 S S where
  ledger := .refl h
  reservations := fun _ hr _ ↦ hr
  events := ⟨[], (List.append_nil _).symm, by simp⟩
  rent := rfl
  premiums := fun _ _ _ hv ↦ hv

theorem resolveAssessmentAmount_kept (hrent : S'.rentSettings = S.rentSettings)
    (hpremiums : ∀ p c v, S.premiums p c = some v → S'.premiums p c = some v)
    (hpos : 0 < resolveAssessmentAmount S.toRentState a) :
    resolveAssessmentAmount S'.toRentState a = resolveAssessmentAmount S.toRentState a := by
  have hpolicy : ∀ p, rentPolicy S'.toRentState p = rentPolicy S.toRentState p := by
    intro p
    unfold rentPolicy
    rw [hrent]
  unfold resolveAssessmentAmount at hpos ⊢
  cases htype : a.obligationType with
  | rent => simp only [hpolicy]
  | lateFee => simp only [hpolicy]
  | other _ => rfl
  | insurancePremium =>
    simp only [htype] at hpos ⊢
    cases hp : a.policyUuid with
    | none => rfl
    | some p =>
      simp only [hp] at hpos ⊢
      by_cases hempty : p = ""
      · rw [if_pos hempty, if_pos hempty]
      · rw [if_neg hempty] at hpos
        rw [if_neg hempty, if_neg hempty]
        cases hv : S.premiums p a.classId with
        | none =>
          rw [hv] at hpos
          exact absurd hpos (lt_irrefl 0)
        | some v => rw [hpremiums p a.classId v hv]

theorem getAssessmentForCorrelation_append {R R' : RentState} {es : List ObligationAssessment}
    {correlationId : String} (hes : R'.assessmentEvents = R.assessmentEvents ++ es)
    (h : getAssessmentForCorrelation R correlationId = some a) :
    getAssessmentForCorrelation R' correlationId = some a := by
  rw [getAssessmentForCorrelation] at h ⊢
  rw [hes, List.find?_append, h, Option.some_or]

/-- Whatever pays no premium keeps what is said of the payments. -/
theorem PremiumsPaid.beside (h : PremiumsPaid sha256 S) (hx : LeavesPremiums sha256 S S') :
    PremiumsPaid sha256 S' := by
  obtain ⟨es, hes, hnone⟩ := hx.events
  have hpayments : S'.assessmentEvents.filter (·.eventType = .payment) =
      S.assessmentEvents.filter (·.eventType = .payment) := by
    rw [hes, List.filter_append, List.append_right_eq_self, List.filter_eq_nil_iff]
    exact fun e he ↦ by simpa using hnone e he
  refine ⟨hx.ledger.sound, hpayments ▸ h.once, ?_, ?_⟩
  · intro e he htype
    rw [hes] at he
    obtain ⟨a, ha, t, hid, ht⟩ := h.paid e
      ((List.mem_append.1 he).resolve_right (fun hnew ↦ hnone e hnew htype)) htype
    refine ⟨a, getAssessmentForCorrelation_append hes ha, t, hid, ?_⟩
    rw [resolveAssessmentAmount_kept hx.rent hx.premiums ht.positive]
    exact ht.grows hx.ledger
  · intro r hr hfeat
    obtain ⟨e, he, htype, hnames⟩ := h.charged r (hx.reservations r hr hfeat) hfeat
    refine ⟨e, ?_, htype, hnames⟩
    rw [hes]
    exact List.mem_append_left _ he

end Besides

section Names

theorem NamesPremium.unique {featCode key c c' : String} (h : NamesPremium featCode key c)
    (h' : NamesPremium featCode key c') (hother : featCode ≠ "FEAT-OBL-003") : c = c' := by
  rcases h with ⟨hfeat, -⟩ | ⟨hfeat, k, hk, rfl⟩ | ⟨hfeat, n, i, hk, rfl⟩
  · exact absurd hfeat hother
  · rcases h' with ⟨hfeat', -⟩ | ⟨-, k', hk', rfl⟩ | ⟨hfeat', -⟩
    · exact absurd hfeat' hother
    · have hkeys := hk.symm.trans hk'
      rw [String.append_left_inj, String.append_right_inj] at hkeys
      rw [hkeys]
    · exact absurd (hfeat.symm.trans hfeat') (by decide)
  · rcases h' with ⟨hfeat', -⟩ | ⟨hfeat', -⟩ | ⟨-, n', i', hk', rfl⟩
    · exact absurd hfeat' hother
    · exact absurd (hfeat.symm.trans hfeat') (by decide)
    · have hkeys := hk.symm.trans hk'
      rwa [autopayKey, autopayKey, String.append_left_inj] at hkeys

theorem NamesPremium.feat_mem {featCode key c : String} (h : NamesPremium featCode key c) :
    featCode ∈ premiumFeats := by
  rcases h with ⟨rfl, -⟩ | ⟨rfl, -⟩ | ⟨rfl, -⟩ <;> simp [premiumFeats]

end Names

section Settlement

variable {q : PremiumCharge} {key : String} {resolved : ResolvedLedgerPlan}
  {transfers : List Transaction} {debit : Transaction} {r : LedgerCommandReservation}

structure PremiumPosted (sha256 : String → String) (feat : FeatContext) (S : InsuranceState)
    (q : PremiumCharge) (key : String) (resolved : ResolvedLedgerPlan)
    (transfers : List Transaction) (debit : Transaction) (r : LedgerCommandReservation)
    (L : LedgerState) (a : ObligationAssessment) (S' : InsuranceState) : Prop where
  positive : 0 < q.amount
  small : |q.amount| < 10 ^ 28
  posted : ChargePosted sha256 feat S.ledger resolved key transfers debit r L
  resolvedOn : ∃ authority enabled, ResolvedOn S.ledger (q.plan authority) enabled resolved
  covered : 0 ≤ resolved.checkingAfter
  assessment : getAssessmentForCorrelation S.toRentState q.correlationId = some a
  classId : a.classId = q.classId
  seatId : a.seatId = q.seatId
  state : S' = { S with
    ledger := L
    assessmentEvents := S.assessmentEvents ++
      [premiumPayment S.toRentState feat.canonicalNowUtc q a debit] }

theorem settleInsurancePremium_posts (h : PremiumsPaid sha256 S)
    (hnew : S.ledger.reservations.find? (·.identity = ⟨q.classId, feat.activeFeat, key⟩) = none)
    (hok : settleInsurancePremium sha256 env feat S q key = .ok (debit, S')) :
    ∃ resolved transfers r L a,
      PremiumPosted sha256 feat S q key resolved transfers debit r L a S' := by
  simp only [settleInsurancePremium, require_bind_eq_ok] at hok
  obtain ⟨hpos, hok⟩ := hok
  rw [bind_eq_ok] at hok
  obtain ⟨resolved, hfunding, hok⟩ := hok
  rw [require_bind_eq_ok] at hok
  obtain ⟨hcovered, hok⟩ := hok
  simp only [bind_eq_ok, Prod.exists, demand_eq_ok, pure_eq_ok, Prod.mk.injEq] at hok
  obtain ⟨applied, L, happly, principal, hprincipal, e, R, hsatisfy, rfl, rfl⟩ := hok
  obtain ⟨authority, intended, hbuild, hresolve⟩ := resolvePremiumFunding_ok hfunding
  obtain ⟨-, hsmall, hon, transfers, r, hposted⟩ := charge_posts h.ledger rfl rfl hnew hbuild
    hresolve happly hprincipal
  have hafter : 0 ≤ resolved.checkingAfter := by
    refine hcovered.resolve_left (fun hsome ↦ ?_)
    rw [hnew] at hsome
    cases hsome
  have hfresh : getPaymentEventByLedger { S.toRentState with ledger := L } principal.id = none := by
    rw [getPaymentEventByLedger, List.find?_eq_none]
    intro f hf hfields
    obtain ⟨hid, htype⟩ := of_decide_eq_true hfields
    obtain ⟨_, _, t, ht, hdebit⟩ := h.paid f hf htype
    rw [hid, Option.some.injEq] at ht
    exact hposted.grows.new_row hposted.transactions (by simp) t hdebit.mem ht.symm
  rw [satisfyObligation, demand_bind_eq_ok] at hsatisfy
  obtain ⟨a, hfound, hsatisfy⟩ := hsatisfy
  simp only [require_bind_eq_ok, existingSatisfaction, Option.bind_some, hfresh, pure_eq_ok,
    Prod.mk.injEq] at hsatisfy
  obtain ⟨⟨hclass, hseat⟩, -, -, -, -, rfl⟩ := hsatisfy
  exact ⟨resolved, transfers, r, L, a, hpos, hsmall, hposted, ⟨authority, _, hon⟩, hafter, hfound,
    hclass, hseat, rfl⟩

theorem PremiumPosted.debit_of (h : PremiumPosted sha256 feat S q key resolved transfers debit r L
    a S') (hs : LedgerSound sha256 S.ledger) : PremiumDebit L a q.amount debit := by
  obtain ⟨authority, enabled, hon⟩ := h.resolvedOn
  have hplan : resolved.intendedPlan = q.plan authority := hon.plan_eq
  have htransfer := hon.abs_transfer_lt hs.balance
  have hlast : L.transactions = (S.ledger.transactions ++ transfers) ++ [debit] := by
    rw [h.posted.transactions, List.append_assoc]
  have hthrough : ∀ scope, scopeCents (ledgerThrough L debit.id) scope = scopeCents L scope := by
    intro scope
    rw [scopeCents, ledgerThrough_last h.posted.grows.sound hlast, scopeCents]
  obtain ⟨hchecking, hsavings⟩ := h.posted.scopeCents_eq (by rw [hplan]; rfl)
    (by rw [hplan]; exact h.small) htransfer
  have hscope := h.posted.debitOf.scope_eq .checking (by rw [hplan]; rfl)
  have hamount := h.posted.debit_amount (by rw [hplan]; exact h.small)
  rw [hplan] at hchecking hsavings hamount
  have hafter := hon.checkingAfter
  refine ⟨?_, ⟨r, h.posted.owns.mem, h.posted.debitOf.commandReservationId⟩, h.positive, hamount,
    ?_, ?_, ?_⟩
  · rw [hlast]
    exact List.mem_append_right _ (List.mem_singleton_self debit)
  · rw [hscope, h.classId, h.seatId, hplan]
    rfl
  · have hcovered := h.covered
    rw [hthrough, h.classId, h.seatId]
    simp only [PremiumCharge.plan] at hchecking hafter
    omega
  · rintro ⟨u, hu, hur, hacc⟩
    rw [hthrough, h.classId, h.seatId]
    have hmem : u ∈ transfers ++ [debit] := by
      rw [← h.posted.owns.rows_eq]
      exact List.mem_filter.2 ⟨hu, decide_eq_true
        (hur.trans h.posted.debitOf.commandReservationId)⟩
    -- A savings leg means that something was transferred, and only what there was.
    have hmoved : resolved.recoveryTransferAmount ≠ 0 := by
      intro hzero
      have hnil : transfers = [] := by
        have hlegs := h.posted.transfersOf
        rw [fundingEffects, if_pos hzero] at hlegs
        cases hlegs
        rfl
      rw [hnil, List.nil_append, List.mem_singleton] at hmem
      rw [hmem] at hacc
      have hdebit := congrArg Scope.accountType hscope
      exact absurd (hacc.symm.trans hdebit) (by simp)
    have hprotected := hon.transfer
    rw [protectionTransfer] at hprotected
    simp only [PremiumCharge.plan] at hsavings hprotected
    split_ifs at hprotected <;> omega

/-- A premium that no payment names is paid once by a settlement under a new key. -/
theorem PremiumsPaid.post (h : PremiumsPaid sha256 S)
    (hp : PremiumPosted sha256 feat S q key resolved transfers debit r L a S')
    (hwhole : q.amount = resolveAssessmentAmount S.toRentState a)
    (hunpaid : ∀ e ∈ S.assessmentEvents, e.eventType = .payment →
      e.correlationId ≠ q.correlationId)
    (hnames : NamesPremium feat.activeFeat key q.correlationId) : PremiumsPaid sha256 S' := by
  have hgrows := hp.posted.ledgerGrows
  have hdebit := hp.debit_of h.ledger
  obtain rfl := hp.state
  refine ⟨hgrows.sound, ?_, ?_, ?_⟩
  · simp only [List.filter_append]
    rw [List.pairwise_append]
    refine ⟨h.once, List.Pairwise.filter _ (List.pairwise_singleton _ _), ?_⟩
    intro e he f hf
    obtain ⟨he, htype⟩ := List.mem_filter.1 he
    obtain rfl := List.mem_singleton.1 (List.mem_of_mem_filter hf)
    have htype := of_decide_eq_true htype
    refine ⟨hunpaid e he htype, fun hid ↦ ?_⟩
    obtain ⟨_, _, t, ht, hold⟩ := h.paid e he htype
    rw [ht] at hid
    exact hp.posted.grows.new_row hp.posted.transactions (by simp) t hold.mem
      (Option.some.inj hid)
  · intro e he htype
    rcases List.mem_append.1 he with hold | hnew
    · obtain ⟨b, hb, t, hid, ht⟩ := h.paid e hold htype
      refine ⟨b, getAssessmentForCorrelation_append rfl hb, t, hid, ?_⟩
      exact ht.grows hgrows
    · obtain rfl := List.mem_singleton.1 hnew
      refine ⟨a, getAssessmentForCorrelation_append rfl hp.assessment, debit, rfl, ?_⟩
      exact hwhole ▸ hdebit
  · intro r' hr' hfeat
    have hr' : r' ∈ S.ledger.reservations ++ [r] := hp.posted.reservations ▸ hr'
    rcases List.mem_append.1 hr' with hold | hnew
    · obtain ⟨e, he, htype, hname⟩ := h.charged r' hold hfeat
      exact ⟨e, List.mem_append_left _ he, htype, hname⟩
    · obtain rfl := List.mem_singleton.1 hnew
      refine ⟨_, List.mem_append_right _ (List.mem_singleton_self _), rfl, ?_⟩
      have hidentity := hp.posted.owns.identity
      simp only [LedgerCommandReservation.identity, chargeCall, CommandCall.identity,
        CommandIdentity.mk.injEq] at hidentity
      rw [hidentity.2.1, hidentity.2.2]
      exact hnames

theorem PremiumsPaid.key_new (h : PremiumsPaid sha256 S) {featCode c : String}
    (hnames : NamesPremium featCode key c) (hother : featCode ≠ "FEAT-OBL-003")
    (hunpaid : ∀ e ∈ S.assessmentEvents, e.eventType = .payment → e.correlationId ≠ c)
    (classId : String) :
    S.ledger.reservations.find? (·.identity = ⟨classId, featCode, key⟩) = none := by
  rw [List.find?_eq_none]
  intro r hr hid
  have hid : r.identity = ⟨classId, featCode, key⟩ := of_decide_eq_true hid
  simp only [LedgerCommandReservation.identity, CommandIdentity.mk.injEq] at hid
  obtain ⟨e, he, htype, hname⟩ := h.charged r hr (hid.2.1 ▸ hnames.feat_mem)
  rw [hid.2.1, hid.2.2] at hname
  exact hunpaid e he htype (hname.unique hnames hother)

end Settlement

end TokenHub.Insurance
