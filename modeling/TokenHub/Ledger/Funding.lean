import TokenHub.Ledger.Recovery
import TokenHub.Ledger.RecoveryRuns

set_option autoImplicit false

namespace TokenHub.Ledger

open Lib.Decimals Lib.Checks Lib.Json Lib.SequencedLog

variable {sha256 : String → String} {feat : FeatContext} {L L' : LedgerState} {key : String}
  {resolved : ResolvedLedgerPlan} {transfers : List Transaction} {debit : Transaction}

/-- The reserved command that an applied plan makes. -/
def chargeCall (sha256 : String → String) (feat : FeatContext) (L : LedgerState)
    (resolved : ResolvedLedgerPlan) (key : String) : CommandCall :=
  .reserved feat L.reservations.length
    ⟨resolved.intendedPlan.classId, feat.activeFeat, key⟩
    (planEffects sha256 resolved feat.activeFeat key) resolved.intendedPlan.canonicalIntent

/-- What an accepted charge leaves: its funding legs and then its debit, under a reservation of
their own. -/
structure ChargePosted (sha256 : String → String) (feat : FeatContext) (L : LedgerState)
    (resolved : ResolvedLedgerPlan) (key : String) (transfers : List Transaction)
    (debit : Transaction) (r : LedgerCommandReservation) (L' : LedgerState) : Prop where
  grows : Grows sha256 L L'
  transactions : L'.transactions = L.transactions ++ (transfers ++ [debit])
  reservations : L'.reservations = L.reservations ++ [r]
  seatClass : L'.seatClass = L.seatClass
  owns : Owns sha256 L' (chargeCall sha256 feat L resolved key) r (transfers ++ [debit])
  transfersOf : List.Forall₂ (RowOf feat (some r)) (fundingEffects sha256 resolved.intendedPlan
    feat.activeFeat key resolved.recoveryTransferAmount) transfers
  debitOf : RowOf feat (some r) (principalEffect resolved.intendedPlan) debit

theorem mem_planEffects_recovers_nothing
    (horigin : resolved.intendedPlan.compensationOriginLocator = none) {activeFeat : String} :
    ∀ e ∈ planEffects sha256 resolved activeFeat key, e.compensationAmountCents = 0 := by
  intro e he
  rcases List.mem_append.1 he with he | he
  · exact fundingEffects_recover_nothing e he
  · split_ifs at he with hzero
    · cases he
    · obtain rfl := List.mem_singleton.1 he
      simp [principalEffect, horigin]

theorem planEffects_ne_nil (hpos : resolved.intendedPlan.debitAmount ≠ 0) (activeFeat : String) :
    planEffects sha256 resolved activeFeat key ≠ [] := by
  simp [planEffects, hpos]

/-- What a charge of a new identity does: it reserves the identity and appends its rows. -/
theorem applyResolvedLedgerPlan_fresh
    (hnew : L.reservations.find?
      (·.identity = ⟨resolved.intendedPlan.classId, feat.activeFeat, key⟩) = none)
    (hpos : resolved.intendedPlan.debitAmount ≠ 0) {applied : AppliedPlan}
    (h : applyResolvedLedgerPlan sha256 feat L resolved key = .ok (applied, L')) :
    ∃ f transfers debit,
      createReservedEffects sha256 feat L L.reservations
          ⟨resolved.intendedPlan.classId, feat.activeFeat, key⟩
          (planEffects sha256 resolved feat.activeFeat key)
          resolved.intendedPlan.canonicalIntent = .ok ((transfers ++ [debit], true), L') ∧
        Insertions { L with reservations := L.reservations ++ [newReservation L
          ⟨resolved.intendedPlan.classId, feat.activeFeat, key⟩ f] } (transfers ++ [debit]) L' ∧
        List.Forall₂ (RowOf feat (some (newReservation L
            ⟨resolved.intendedPlan.classId, feat.activeFeat, key⟩ f)))
          (fundingEffects sha256 resolved.intendedPlan feat.activeFeat key
            resolved.recoveryTransferAmount) transfers ∧
        RowOf feat (some (newReservation L
            ⟨resolved.intendedPlan.classId, feat.activeFeat, key⟩ f))
          (principalEffect resolved.intendedPlan) debit ∧
        applied.created = some true ∧ applied.principal = some debit := by
  have hne : planEffects sha256 resolved feat.activeFeat key ≠ [] := planEffects_ne_nil hpos _
  simp only [applyResolvedLedgerPlan, if_neg hne, if_neg hpos, unit_bind_eq_ok] at h
  simp only [bind_eq_ok, Prod.exists, demand_eq_ok, pure_eq_ok, Prod.mk.injEq] at h
  obtain ⟨-, rows, created, L₁, hc, principal, hprincipal, rfl, rfl⟩ := h
  rcases createReservedEffects_ok hc with ⟨-, -, r, hr, hid, -⟩ | ⟨rfl, -, f, -, hi, hrows⟩
  · rw [List.find?_eq_none] at hnew
    exact absurd hid (by simpa using hnew r (hr.elim id id))
  · rw [planEffects, if_neg hpos] at hrows
    obtain ⟨transfers, last, rfl, htransfers, hlast⟩ := forall₂_append_inv hrows
    obtain _ | ⟨hdebit, hnil⟩ := hlast
    cases hnil
    next debit =>
    refine ⟨f, transfers, debit, hc, hi, htransfers, hdebit, rfl, ?_⟩
    have hlen := htransfers.length_eq
    rw [← hprincipal, planEffects, if_neg hpos, List.length_append, hlen]
    simp

/-- A charge whose identity is new posts its rows. -/
theorem applyResolvedLedgerPlan_posts (hs : LedgerSound sha256 L)
    (hnew : L.reservations.find?
      (·.identity = ⟨resolved.intendedPlan.classId, feat.activeFeat, key⟩) = none)
    (hpos : resolved.intendedPlan.debitAmount ≠ 0)
    (horigin : resolved.intendedPlan.compensationOriginLocator = none) {applied : AppliedPlan}
    (h : applyResolvedLedgerPlan sha256 feat L resolved key = .ok (applied, L')) :
    ∃ transfers debit r, ChargePosted sha256 feat L resolved key transfers debit r L' ∧
      applied.created = some true ∧ applied.principal = some debit := by
  obtain ⟨f, transfers, debit, hc, hi, htransfers, hdebit, hcreated, hprincipal⟩ :=
    applyResolvedLedgerPlan_fresh hnew hpos h
  have hg : Grows sha256 L L' :=
    hs.reserved_without_recovery (mem_planEffects_recovers_nothing horigin) hc
  have hexec : (chargeCall sha256 feat L resolved key).exec sha256 L =
      .ok ((transfers ++ [debit], true), L') := by
    rw [chargeCall, CommandCall.exec, List.take_length]
    exact hc
  obtain ⟨r, ho⟩ := Owns.of_created hs.commands hexec
  have hr : r = newReservation L ⟨resolved.intendedPlan.classId, feat.activeFeat, key⟩ f := by
    have hmem : newReservation L ⟨resolved.intendedPlan.classId, feat.activeFeat, key⟩ f ∈
        L'.reservations := by
      rw [hi.state]
      simp
    exact hg.sound.commands.unique ho.mem hmem ho.identity
  refine ⟨transfers, debit, r, ⟨hg, ?_, ?_, ?_, ho, hr ▸ htransfers, hr ▸ hdebit⟩, hcreated,
    hprincipal⟩
  · rw [hi.state]
  · rw [hi.state, hr]
  · rw [hi.state]

theorem Grows.new_row (hg : Grows sha256 L L')
    {ts : List Transaction} (htx : L'.transactions = L.transactions ++ ts) {u : Transaction}
    (hu : u ∈ ts) : ∀ t ∈ L.transactions, t.id ≠ u.id := by
  have hincreasing := hg.sound.credits.numbered.increasing
  rw [htx, List.pairwise_append] at hincreasing
  exact fun t ht ↦ (hincreasing.2.2 t ht u hu).ne

section Growth

/-- What every Ledger command keeps: its reservations with the rows they own, and the seats. -/
structure LedgerGrows (sha256 : String → String) (L L' : LedgerState) : Prop
    extends Grows sha256 L L' where
  kept : ∀ r ∈ L.reservations, r ∈ L'.reservations ∧ reservedRows L' r.id = reservedRows L r.id
  seatClass : L'.seatClass = L.seatClass

theorem LedgerGrows.refl (h : LedgerSound sha256 L) : LedgerGrows sha256 L L :=
  { h.refl with
    kept := fun _ hr ↦ ⟨hr, rfl⟩
    seatClass := rfl }

theorem LedgerGrows.trans {L'' : LedgerState} (h : LedgerGrows sha256 L L')
    (h' : LedgerGrows sha256 L' L'') : LedgerGrows sha256 L L'' where
  sound := h'.sound
  rows := h.rows.trans h'.rows
  kept := fun r hr ↦
    have hk := h.kept r hr
    have hk' := h'.kept r hk.1
    ⟨hk'.1, hk'.2.trans hk.2⟩
  seatClass := h'.seatClass.trans h.seatClass

theorem LedgerGrows.of_created (hs : LedgerSound sha256 L) (hg : Grows sha256 L L')
    {id : CommandIdentity} {f : String} {effects : List Effect} {rows : List Transaction}
    (hi : Insertions { L with reservations := L.reservations ++ [newReservation L id f] } rows L')
    (hrows : List.Forall₂ (RowOf feat (some (newReservation L id f))) effects rows) :
    LedgerGrows sha256 L L' := by
  refine { hg with kept := fun r hr ↦ ⟨?_, ?_⟩, seatClass := by rw [hi.state] }
  · rw [hi.state]
    exact List.mem_append_left _ hr
  · refine reservedRows_append (fun t ht hid ↦ ?_) (by rw [hi.state])
    obtain ⟨e, -, hrow⟩ := forall₂_exists_left hrows ht
    have hnew := hrow.commandReservationId
    rw [hid] at hnew
    have hle := hs.commands.bounded r hr
    simp only [Option.map_some, newReservation, Option.some.injEq] at hnew
    omega

theorem LedgerGrows.reserved (hs : LedgerSound sha256 L) {id : CommandIdentity}
    {effects : List Effect} {intent : Value} {rows : List Transaction} {created : Bool}
    (h0 : ∀ e ∈ effects, e.compensationAmountCents = 0)
    (hok : createReservedEffects sha256 feat L L.reservations id effects intent =
      .ok ((rows, created), L')) : LedgerGrows sha256 L L' := by
  have hg := hs.reserved_without_recovery h0 hok
  rcases createReservedEffects_ok hok with ⟨-, rfl, -⟩ | ⟨-, -, f, -, hi, hrows⟩
  · exact .refl hs
  · exact .of_created hs hg hi hrows

theorem ChargePosted.ledgerGrows {r : LedgerCommandReservation}
    (h : ChargePosted sha256 feat L resolved key transfers debit r L') :
    LedgerGrows sha256 L L' := by
  refine { h.grows with kept := fun r' hr' ↦ ⟨?_, ?_⟩, seatClass := h.seatClass }
  · rw [h.reservations]
    exact List.mem_append_left _ hr'
  · refine reservedRows_append (fun t ht hid ↦ ?_) h.transactions
    have hmem : t ∈ reservedRows L' r.id := by
      rw [h.owns.rows_eq]
      exact ht
    have hr : t.commandReservationId = some r.id := by
      simpa using (List.mem_filter.1 hmem).2
    rw [hid, Option.some.injEq] at hr
    have hlt := (List.pairwise_append.1 (h.reservations ▸ h.grows.sound.commands.numbered)).2.2
      r' hr' r (by simp)
    omega

theorem LedgerGrows.settle (hs : LedgerSound sha256 L) (seatId : ℕ) (classId : String) :
    LedgerGrows sha256 L (perform sha256 L (.settle seatId classId)) := by
  have hg : Grows sha256 L (perform sha256 L (.settle seatId classId)) := hs.settle seatId classId
  simp only [perform] at hg ⊢
  split
  · next L' hok =>
    simp only [hok] at hg
    rw [settleBalances_frame hok] at hg ⊢
    exact { hg with kept := fun r hr ↦ ⟨hr, rfl⟩, seatClass := rfl }
  · exact .refl hs

end Growth

section Balances

theorem scopeCents_append {ts : List Transaction} (h : L'.transactions = L.transactions ++ ts)
    (scope : Scope) :
    scopeCents L' scope = scopeCents L scope + sumOver (·.amountCents) (·.scope = scope) ts := by
  rw [scopeCents, h, sumOver_append]
  rfl

theorem BalanceInvariant.abs_scopeCents_lt (h : BalanceInvariant L) (scope : Scope) :
    |scopeCents L scope| < 10 ^ 28 := h.rows.abs_sumOver_lt _

theorem RowOf.scope_eq {r : Option LedgerCommandReservation} {e : Effect} {t : Transaction}
    (h : RowOf feat r e t) (account : AccountType) (ha : e.accountType = account.value) :
    t.scope = ⟨e.classId, e.seatId, account⟩ := by
  have hacc : t.accountType = account := by
    have hsome := h.accountType
    rw [ha, AccountType.ofString_value, Option.some.injEq] at hsome
    exact hsome.symm
  rw [Transaction.scope, h.classId, h.seatId, hacc]

theorem funding_type {r : Option LedgerCommandReservation} {p : IntendedLedgerPlan}
    {amount : ℤ} (hto : List.Forall₂ (RowOf feat r)
      (fundingEffects sha256 p feat.activeFeat key amount) transfers) {t : Transaction}
    (ht : t ∈ transfers) : t.type = some .legacyWithdrawal ∨ t.type = some .legacyDeposit := by
  obtain ⟨e, he, hrow⟩ := forall₂_exists_left hto ht
  have htype := hrow.type
  unfold fundingEffects at he
  simp only at he
  split_ifs at he
  · cases he
  · rcases List.mem_cons.1 he with rfl | he
    · exact .inl (Option.some.inj htype).symm
    · rw [List.mem_singleton.1 he] at htype
      exact .inr (Option.some.inj htype).symm

theorem charge_scopeCents {r : Option LedgerCommandReservation}
    (htx : L'.transactions = L.transactions ++ (transfers ++ [debit]))
    (hto : List.Forall₂ (RowOf feat r) (fundingEffects sha256 resolved.intendedPlan
      feat.activeFeat key resolved.recoveryTransferAmount) transfers)
    (hdebitOf : RowOf feat r (principalEffect resolved.intendedPlan) debit)
    (hsource : resolved.intendedPlan.sourceAccount = .checking)
    (hdebit : |resolved.intendedPlan.debitAmount| < 10 ^ 28)
    (htransfer : |resolved.recoveryTransferAmount| < 10 ^ 28) (scope : Scope) :
    scopeCents L' scope = scopeCents L scope +
      (if scope = ⟨resolved.intendedPlan.classId, resolved.intendedPlan.seatId, .checking⟩
        then resolved.recoveryTransferAmount - resolved.intendedPlan.debitAmount else 0) -
      if scope = ⟨resolved.intendedPlan.classId, resolved.intendedPlan.seatId, .savings⟩
        then resolved.recoveryTransferAmount else 0 := by
  have hds := hdebitOf.scope_eq .checking (by simp [principalEffect, hsource])
  have hda : debit.amountCents = -resolved.intendedPlan.debitAmount := by
    rw [hdebitOf.amount]
    exact quantizeCurrency_ofCents (by simpa using hdebit)
  rw [scopeCents_append htx]
  simp only [sumOver_append, sumOver_cons, sumOver_nil, hds, hda, principalEffect]
  unfold fundingEffects at hto
  split_ifs at hto with hzero
  · cases hto
    rw [hzero]
    by_cases hscope : scope =
        ⟨resolved.intendedPlan.classId, resolved.intendedPlan.seatId, .checking⟩
    · simp [hscope]
    · simp [hscope, Ne.symm hscope]
  · obtain _ | ⟨hout, hto⟩ := hto
    obtain _ | ⟨hin, hto⟩ := hto
    cases hto
    have hos := hout.scope_eq .savings rfl
    have his := hin.scope_eq .checking rfl
    have hoa := hout.amount.trans (quantizeCurrency_ofCents (by simpa using htransfer))
    have hia := hin.amount.trans (quantizeCurrency_ofCents htransfer)
    simp only [sumOver_cons, sumOver_nil, hos, his, hoa, hia, eq_comm (b := scope)]
    split_ifs <;> omega

theorem ChargePosted.scopeCents_eq {r : LedgerCommandReservation}
    (h : ChargePosted sha256 feat L resolved key transfers debit r L')
    (hsource : resolved.intendedPlan.sourceAccount = .checking)
    (hdebit : |resolved.intendedPlan.debitAmount| < 10 ^ 28)
    (htransfer : |resolved.recoveryTransferAmount| < 10 ^ 28) :
    scopeCents L' ⟨resolved.intendedPlan.classId, resolved.intendedPlan.seatId, .checking⟩ =
        scopeCents L ⟨resolved.intendedPlan.classId, resolved.intendedPlan.seatId, .checking⟩ +
          resolved.recoveryTransferAmount - resolved.intendedPlan.debitAmount ∧
      scopeCents L' ⟨resolved.intendedPlan.classId, resolved.intendedPlan.seatId, .savings⟩ =
        scopeCents L ⟨resolved.intendedPlan.classId, resolved.intendedPlan.seatId, .savings⟩ -
          resolved.recoveryTransferAmount := by
  have hscope := charge_scopeCents h.transactions h.transfersOf h.debitOf hsource hdebit htransfer
  constructor
  · rw [hscope, if_pos rfl, if_neg (by simp)]
    omega
  · rw [hscope, if_neg (by simp), if_pos rfl]
    omega

theorem abs_quantizeCurrency_lt (d : Option Decimal) : |(quantizeCurrency d).value| < 10 ^ 28 := by
  have hzero : |(⟨false, 0⟩ : Hundredths).value| < 10 ^ 28 := by decide
  unfold quantizeCurrency
  split
  · next s c e =>
    cases hround : Decimal.quantizeFinite s c e with
    | none => exact hzero
    | some n =>
      simp only [Decimal.quantizeFinite, Option.ite_none_right_eq_some, Option.some.injEq] at hround
      obtain ⟨hlt, rfl⟩ := hround
      have habs : ∀ m : ℕ, |(⟨s, m⟩ : Hundredths).value| = m := by
        intro m
        cases s <;> simp [Hundredths.value]
      rw [Option.getD_some, habs]
      exact_mod_cast hlt
  · exact hzero

/-- An amount that does not fit the context counts as zero. -/
theorem quantizeCurrency_ofCents_of_large {n : ℤ} (h : ¬ |n| < 10 ^ 28) :
    (quantizeCurrency (some (.ofCents n))).value = 0 := by
  have hn : ¬ (Hundredths.ofCents n).units < 10 ^ Decimal.contextPrecision := by
    intro hlt
    apply h
    have : ((Hundredths.ofCents n).units : ℤ) < 10 ^ 28 := by exact_mod_cast hlt
    simpa [Hundredths.ofCents] using this
  simp only [quantizeCurrency, Decimal.ofCents, Decimal.ofHundredths, Decimal.quantizeFinite]
  simp [hn, Hundredths.value]

theorem buildIntendedLedgerPlan_ok {plan intended : IntendedLedgerPlan}
    (h : buildIntendedLedgerPlan plan = .ok intended) (hpos : intended.debitAmount ≠ 0) :
    intended = plan ∧ |plan.debitAmount| < 10 ^ 28 := by
  simp only [buildIntendedLedgerPlan, require_bind_eq_ok, pure_eq_ok] at h
  obtain ⟨-, rfl⟩ := h
  have hsmall : |plan.debitAmount| < 10 ^ 28 := by
    by_contra hlarge
    exact hpos (quantizeCurrency_ofCents_of_large hlarge)
  refine ⟨?_, hsmall⟩
  simp only [quantizeCurrency_ofCents hsmall]

structure ResolvedOn (L : LedgerState) (plan : IntendedLedgerPlan) (protectionEnabled : Bool)
    (resolved : ResolvedLedgerPlan) : Prop where
  plan_eq : resolved.intendedPlan = plan
  transfer : resolved.recoveryTransferAmount = protectionTransfer protectionEnabled
    plan.debitAmount (scopeCents L ⟨plan.classId, plan.seatId, .checking⟩)
      (scopeCents L ⟨plan.classId, plan.seatId, .savings⟩)
  checkingAfter : resolved.checkingAfter =
    scopeCents L ⟨plan.classId, plan.seatId, .checking⟩ + resolved.recoveryTransferAmount -
      plan.debitAmount

theorem resolveIntendedLedgerPlan_ok (hb : BalanceInvariant L) {plan : IntendedLedgerPlan}
    {directive : BankingDirective} (hsource : plan.sourceAccount = .checking)
    (h : resolveIntendedLedgerPlan L plan directive = .ok resolved) :
    ResolvedOn L plan directive.protectionEnabled resolved := by
  rw [resolveIntendedLedgerPlan, require_bind_eq_ok, bind_eq_ok] at h
  obtain ⟨-, ⟨checking, savings⟩, hread, h⟩ := h
  rw [getAvailableBalances, require_bind_eq_ok, pure_eq_ok, Prod.mk.injEq,
    hb.getAvailableBalance, hb.getAvailableBalance] at hread
  obtain ⟨-, rfl, rfl⟩ := hread
  simp only [hsource, pure_eq_ok] at h
  rw [← h]
  exact ⟨rfl, rfl, rfl⟩

theorem ResolvedOn.abs_transfer_lt (hb : BalanceInvariant L) {plan : IntendedLedgerPlan}
    {protectionEnabled : Bool} (h : ResolvedOn L plan protectionEnabled resolved) :
    |resolved.recoveryTransferAmount| < 10 ^ 28 := by
  have hsavings := hb.abs_scopeCents_lt ⟨plan.classId, plan.seatId, .savings⟩
  rw [abs_lt] at hsavings
  simp only [h.transfer, protectionTransfer]
  split_ifs with hzero hmoved hmoved
  · rw [abs_lt]
    omega
  · norm_num
  · rw [abs_lt]
    omega
  · norm_num

theorem charge_posts (hs : LedgerSound sha256 L) {plan intended : IntendedLedgerPlan}
    {directive : BankingDirective} {applied : AppliedPlan}
    (hsource : plan.sourceAccount = .checking) (horigin : plan.compensationOriginLocator = none)
    (hnew : L.reservations.find? (·.identity = ⟨plan.classId, feat.activeFeat, key⟩) = none)
    (hbuild : buildIntendedLedgerPlan plan = .ok intended)
    (hresolve : resolveIntendedLedgerPlan L intended directive = .ok resolved)
    (happly : applyResolvedLedgerPlan sha256 feat L resolved key = .ok (applied, L'))
    (hdebit : applied.principal = some debit) :
    applied.created = some true ∧ |plan.debitAmount| < 10 ^ 28 ∧
      ResolvedOn L plan directive.protectionEnabled resolved ∧
      ∃ transfers r, ChargePosted sha256 feat L resolved key transfers debit r L' := by
  have hintended : intended.sourceAccount = .checking ∧ intended.compensationOriginLocator = none ∧
      intended.classId = plan.classId := by
    simp only [buildIntendedLedgerPlan, require_bind_eq_ok, pure_eq_ok] at hbuild
    obtain ⟨-, rfl⟩ := hbuild
    exact ⟨hsource, horigin, rfl⟩
  have hr := resolveIntendedLedgerPlan_ok hs.balance hintended.1 hresolve
  have hpos : resolved.intendedPlan.debitAmount ≠ 0 := by
    intro hzero
    simp only [applyResolvedLedgerPlan, hzero, if_true] at happly
    split_ifs at happly
    · simp only [pure_eq_ok, Prod.mk.injEq] at happly
      rw [← happly.1] at hdebit
      cases hdebit
    · simp only [bind_eq_ok, pure_eq_ok, Prod.exists, Prod.mk.injEq] at happly
      obtain ⟨-, -, rows, created, L₁, -, rfl, -⟩ := happly
      cases hdebit
  rw [hr.plan_eq] at hpos
  obtain ⟨rfl, hsmall⟩ := buildIntendedLedgerPlan_ok hbuild hpos
  obtain ⟨transfers, d, r, hposted, hcreated, hprincipal⟩ := applyResolvedLedgerPlan_posts hs
    (by rw [hr.plan_eq]; exact hnew) (by rw [hr.plan_eq]; exact hpos)
    (by rw [hr.plan_eq]; exact horigin) happly
  obtain rfl : d = debit := Option.some.inj (hprincipal.symm.trans hdebit)
  exact ⟨hcreated, hsmall, hr, transfers, r, hposted⟩

end Balances

end TokenHub.Ledger
