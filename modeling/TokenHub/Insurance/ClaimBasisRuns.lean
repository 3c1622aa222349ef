import TokenHub.Insurance.ClaimBasis
import TokenHub.Insurance.ClaimRuns
import TokenHub.Store.PurchaseSteps

set_option autoImplicit false

namespace TokenHub.Insurance

open Ledger Rent Lib.Decimals Lib.Checks Lib.Json Lib.Runs

variable {sha256 : String → String} {feat : FeatContext} {L L' : LedgerState}
  {origins : ℕ → List Origin}

section Writers

/-- A reversing effect names a row of the Ledger: a credit, or a row of its own account. -/
def Reverses (L : LedgerState) (e : Effect) : Prop :=
  ∀ i, e.originalTransactionId = some i → e.type = some "REVERSAL" →
    ∃ t ∈ L.transactions, t.id = i ∧ (0 < t.amountCents ∨
      e.classId = t.classId ∧ e.seatId = t.seatId ∧
        AccountType.ofString e.accountType = some t.accountType)

theorem Reverses.of_none {e : Effect} (h : e.originalTransactionId = none) : Reverses L e := by
  intro i hi
  rw [h] at hi
  cases hi

/-- What a command does to the Ledger: nothing, or rows of the given origins. -/
def Writes (feat : FeatContext) (L L' : LedgerState) (origins : ℕ → List Origin) : Prop :=
  L' = L ∨ ∃ effects rows, Posted feat effects rows L L' ∧
    List.Forall₂ Effect.Suits effects (origins rows.length) ∧ ∀ e ∈ effects, Reverses L e

theorem fundingEffects_original {p : IntendedLedgerPlan} {activeFeat key : String} {transfer : ℤ} :
    ∀ e ∈ fundingEffects sha256 p activeFeat key transfer, e.originalTransactionId = none := by
  intro e he
  unfold fundingEffects at he
  simp only at he
  split_ifs at he with hzero
  · cases he
  · rcases List.mem_pair.1 he with rfl | rfl <;> rfl

variable {resolved : ResolvedLedgerPlan} {key : String} {applied : AppliedPlan} {w : Origin}

theorem charge_writes (h : Registered L)
    (hw : (principalEffect resolved.intendedPlan).Suits w)
    (hrev : Reverses L (principalEffect resolved.intendedPlan))
    (hok : applyResolvedLedgerPlan sha256 feat L resolved key = .ok (applied, L')) :
    Writes feat L L' (chargeOrigins applied.principal w) := by
  rcases h.charge hok with ⟨hsame, -⟩ | ⟨rows, hposted, hprincipal, -⟩
  · exact .inl hsame
  · obtain ⟨r, hrows⟩ := hposted.rowsOf
    refine .inr ⟨_, rows, hposted, ?_, fun e he ↦ ?_⟩
    · rw [← hrows.length_eq]
      exact planEffects_suit hprincipal hw
    · rcases List.mem_append.1 he with he | he
      · exact .of_none (fundingEffects_original e he)
      · split_ifs at he
        · cases he
        · exact List.mem_singleton.1 he ▸ hrev

theorem postCharge_writes (h : Registered L) {plan : IntendedLedgerPlan} {directive : BankingDirective}
    {k : TransactionType} (hk : k ∈ w.types) (htype : plan.transactionType = k.value)
    (horiginal : plan.originalTransactionId = none)
    (hok : postCharge sha256 feat L plan directive key = .ok (applied, L')) :
    Writes feat L L' (chargeOrigins applied.principal w) := by
  obtain ⟨resolved, htype', horiginal', happly⟩ := postCharge_ok hok
  rw [htype] at htype'
  rw [horiginal] at horiginal'
  refine charge_writes h ⟨⟨k, hk, congrArg some htype'⟩, ?_⟩ (.of_none horiginal') happly
  simp [principalEffect, horiginal']

theorem single_writes {e : Effect} {rows : List Transaction} (hposted : Posted feat [e] rows L L')
    (hsuits : e.Suits w) (hrev : Reverses L e) : Writes feat L L' (fun _ ↦ [w]) := by
  refine .inr ⟨_, rows, hposted, .cons hsuits .nil, fun e' he ↦ ?_⟩
  exact List.mem_singleton.1 he ▸ hrev

theorem pending_writes (h : Registered L) {e : Effect} {rows : List Transaction} (hsuits : e.Suits w)
    (horiginal : e.originalTransactionId = none)
    (hok : createPendingTransaction sha256 feat L (some key) none e = .ok (rows, L')) :
    Writes feat L L' (fun _ ↦ [w]) := by
  rcases h.pending hok with hsame | ⟨e', rows', he, hposted⟩
  · exact .inl hsame
  · have hsuits' : e'.Suits w ∧ e'.originalTransactionId = none := by
      rcases he with rfl | rfl
      · exact ⟨hsuits, horiginal⟩
      · exact ⟨⟨hsuits.type, hsuits.original⟩, horiginal⟩
    exact single_writes hposted hsuits'.1 (.of_none hsuits'.2)

theorem transfer_writes (h : Registered L) {q : TransferRequest} {result : TransferResult}
    (hok : executeAccountTransfer sha256 feat key L q = .ok (result, L')) :
    Writes feat L L' (fun n ↦ List.replicate n .transferLeg) := by
  rcases h.transfer hok with hsame | ⟨rows, hposted⟩
  · exact .inl hsame
  · obtain ⟨r, hrows⟩ := hposted.rowsOf
    refine .inr ⟨_, rows, hposted, ?_, fun e he ↦ ?_⟩
    · rw [← hrows.length_eq]
      refine forall₂_replicate fun e he ↦ ?_
      rcases List.mem_pair.1 he with rfl | rfl
      · exact ⟨⟨.legacyWithdrawal, by decide, rfl⟩, nofun⟩
      · exact ⟨⟨.legacyDeposit, by decide, rfl⟩, nofun⟩
    · rcases List.mem_pair.1 he with rfl | rfl <;> exact .of_none rfl

theorem payout_writes (h : Registered L) {q : ResolveRequest} {claim : InsuranceClaim}
    {source : Transaction} {amount : ℤ} {rows : List Transaction} {created : Bool}
    (hok : createIdempotentTransaction sha256 feat L L.reservations key
      (reimbursementEffect q claim source amount) = .ok ((rows, created), L')) :
    Writes feat L L' (fun _ ↦ [.claimPayout]) := by
  rcases h.idempotent hok with ⟨hsame, -⟩ | hposted
  · exact .inl hsame
  · refine single_writes hposted ⟨⟨.insuranceReimbursement, by decide, rfl⟩, fun _ ↦ .inr rfl⟩ ?_
    intro i _ htype
    simp [reimbursementEffect] at htype

/-- A plan that recovers a proved credit names it only where it reverses it whole. -/
theorem resolveCreditRecovery_plan {proof : CreditCompensationProof} {kind : RecoveryKind}
    {intent : String} {directive : BankingDirective} {actorSeatId : ℕ} {mechanism : String}
    {allocation : Option AllocationProof} {ctype : Option String} {plan : CreditRecoveryPlan}
    (hok : resolveCreditRecovery L proof kind intent directive actorSeatId mechanism allocation
      ctype = .ok plan) :
    ∃ original, proof.original = some original ∧ plan.proof = proof ∧
      proof.status ≠ .unavailable ∧
      plan.resolvedPlan.intendedPlan.transactionType =
        (if kind = .exactReversal then "REVERSAL" else "payroll_correction") ∧
      plan.resolvedPlan.intendedPlan.originalTransactionId =
        (if kind = .exactReversal then some original.id else none) := by
  simp only [resolveCreditRecovery, require_bind_eq_ok, demand_bind_eq_ok] at hok
  obtain ⟨hstatus, original, horiginal, hok⟩ := hok
  simp only [bind_eq_ok, pure_eq_ok] at hok
  obtain ⟨allocated, -, -, -, intended, hbuild, resolved, hresolve, rfl⟩ := hok
  rw [buildIntendedLedgerPlan, require_bind_eq_ok, pure_eq_ok] at hbuild
  obtain ⟨-, rfl⟩ := hbuild
  refine ⟨original, horiginal, rfl, ?_, ?_, ?_⟩
  · rcases hstatus with hs | ⟨hs, -⟩ <;> rw [hs] <;> decide
  · rw [resolveIntendedLedgerPlan_plan hresolve]
    rfl
  · rw [resolveIntendedLedgerPlan_plan hresolve]
    rfl

theorem applyCreditRecovery_applies {plan : CreditRecoveryPlan}
    (hok : applyCreditRecovery sha256 feat L plan key = .ok (applied, L')) :
    applyResolvedLedgerPlan sha256 feat L plan.resolvedPlan key = .ok (applied, L') := by
  simp only [applyCreditRecovery, demand_bind_eq_ok, unit_bind_eq_ok] at hok
  obtain ⟨o, -, -, -, -, hok⟩ := hok
  rw [bind_eq_ok] at hok
  obtain ⟨balances, -, hok⟩ := hok
  rw [unit_bind_eq_ok] at hok
  exact hok.2

theorem recover_writes (h : Registered L) {L₀ : LedgerState} {proof : CreditCompensationProof}
    {kind : RecoveryKind} {intent : String} {directive : BankingDirective} {actorSeatId : ℕ}
    {mechanism : String} {allocation : Option AllocationProof} {plan : CreditRecoveryPlan}
    (hkind : kind ≠ .exactReversal)
    (hplan : resolveCreditRecovery L₀ proof kind intent directive actorSeatId mechanism allocation
      none = .ok plan)
    (hok : applyCreditRecovery sha256 feat L plan key = .ok (applied, L')) :
    Writes feat L L' (chargeOrigins applied.principal .recovery) := by
  obtain ⟨original, -, -, -, htype, horiginal⟩ := resolveCreditRecovery_plan hplan
  rw [if_neg hkind] at htype horiginal
  refine charge_writes h ⟨⟨.payrollCorrection, by decide, congrArg some htype⟩, ?_⟩
    (.of_none horiginal) (applyCreditRecovery_applies hok)
  simp [principalEffect, horiginal]

theorem reconstruct_writes (h : Registered L) {q : ReconstructedSettlement}
    (hok : applyReconstructedRecovery sha256 feat L q key = .ok L') :
    Writes feat L L' (fun _ ↦ q.origins sha256 feat key) := by
  rw [applyReconstructedRecovery, require_bind_eq_ok] at hok
  obtain ⟨hcredits, hok⟩ := hok
  simp only [bind_eq_ok, Prod.exists, pure_eq_ok] at hok
  obtain ⟨rows, created, L₁, hc, rfl⟩ := hok
  rcases h.reserved rfl hc with ⟨hsame, -⟩ | hposted
  · exact .inl hsame
  · refine .inr ⟨_, rows, hposted, ?_, fun e he ↦ ?_⟩
    · refine List.rel_append (forall₂_replicate fundingEffects_suit) ?_
      rw [List.forall₂_map_left_iff, List.forall₂_map_right_iff, List.forall₂_same]
      intro p _
      cases hexact : p.exact
      · simp only [ReconstructedPrincipal.origin, hexact, Bool.false_eq_true, if_false]
        refine ⟨⟨.payrollCorrection, by decide, ?_⟩, ?_⟩ <;>
          simp [ReconstructedSettlement.effect, hexact, TransactionType.value]
      · simp only [ReconstructedPrincipal.origin, hexact, if_true]
        refine ⟨⟨.legacyReversal, by decide, ?_⟩, fun _ ↦ .inl rfl⟩
        simp [ReconstructedSettlement.effect, hexact, TransactionType.value]
    · rcases List.mem_append.1 he with he | he
      · exact .of_none (fundingEffects_original e he)
      · obtain ⟨p, hp, rfl⟩ := List.mem_map.1 he
        obtain ⟨hmem, hpos⟩ := hcredits p hp
        intro i hi _
        simp only [ReconstructedSettlement.effect] at hi
        split_ifs at hi
        exact ⟨p.original, hmem, Option.some.inj hi, .inl hpos⟩

theorem reverse_writes (h : Registered L) {q : ReversalRequest} {principal : Option Transaction}
    (hmem : q.transaction ∈ L.transactions)
    (hok : reverseTransaction sha256 feat L q = .ok (principal, L')) :
    Writes feat L L' (chargeOrigins principal .reversal) := by
  simp only [reverseTransaction, unit_bind_eq_ok] at hok
  obtain ⟨-, -, -, -, -, -, hok⟩ := hok
  split at hok
  · rw [require_bind_eq_ok, require_bind_eq_ok, bind_eq_ok] at hok
    obtain ⟨-, -, replayed, -, hok⟩ := hok
    rw [pure_eq_ok, Prod.mk.injEq] at hok
    exact .inl hok.2.symm
  · split_ifs at hok with hpos
    · -- a credit is recovered whole, by a plan of the present Ledger
      simp only [reverseCredit, bind_eq_ok, pure_eq_ok, Prod.exists, Prod.mk.injEq] at hok
      obtain ⟨plan, hplan, applied, L₁, happly, rfl, rfl⟩ := hok
      rw [resolveReversal, demand_bind_eq_ok] at hplan
      obtain ⟨directive, -, hplan⟩ := hplan
      obtain ⟨original, horiginal, -, hstatus, htype, hnames⟩ := resolveCreditRecovery_plan hplan
      obtain ⟨o, hfound, hproves, -⟩ := getCreditCompensationProof_spec hstatus
      have hsame : o = original :=
        Option.some.inj (hproves.source.symm.trans horiginal)
      rw [if_pos rfl] at htype hnames
      refine charge_writes h ⟨⟨.legacyReversal, by decide, congrArg some htype⟩,
        fun _ ↦ .inl rfl⟩ ?_ (applyCreditRecovery_applies happly)
      intro i hi _
      have hid : original.id = i := Option.some.inj (hnames.symm.trans hi)
      exact ⟨o, hproves.mem, by rw [hsame, hid], .inl hproves.positive⟩
    · simp only [bind_eq_ok, pure_eq_ok, Prod.exists, Prod.mk.injEq] at hok
      obtain ⟨rows, created, L₁, hc, rfl, rfl⟩ := hok
      rcases h.idempotent hc with ⟨hsame, -⟩ | hposted
      · exact .inl hsame
      · obtain ⟨r, hrows⟩ := hposted.rowsOf
        obtain _ | ⟨hrow, hnil⟩ := hrows
        cases hnil
        refine .inr ⟨_, _, hposted, .cons ⟨⟨.legacyReversal, by decide, rfl⟩, fun _ ↦ .inl rfl⟩ .nil,
          fun e he ↦ ?_⟩
        rw [List.mem_singleton.1 he]
        intro i hi _
        exact ⟨q.transaction, hmem, Option.some.inj hi, .inr ⟨rfl, rfl, AccountType.ofString_value _⟩⟩

end Writers

section Payments

variable {env : Surroundings} {S S' : RentState}

/-- The obligation events after a payment by a row: one of them names the row, the last where it
is new. -/
def Recorded (before after : List ObligationAssessment) (rowId : ℕ) : Prop :=
  (after = before ∧ ∃ o ∈ before, o.ledgerTransactionId = some rowId) ∨
    ∃ o, after = before ++ [o] ∧ o.ledgerTransactionId = some rowId

section Recorded

variable {before after : List ObligationAssessment} {rowId : ℕ} (h : Recorded before after rowId)
include h

theorem Recorded.subset : before ⊆ after := by
  rcases h with ⟨hsame, -⟩ | ⟨o, hsame, -⟩ <;> rw [hsame]
  · exact List.Subset.refl _
  · exact List.subset_append_left _ _

theorem Recorded.naming : ∃ o ∈ after, o.ledgerTransactionId = some rowId := by
  rcases h with ⟨hsame, o, ho, hid⟩ | ⟨o, hsame, hid⟩ <;> rw [hsame]
  · exact ⟨o, ho, hid⟩
  · exact ⟨o, by simp, hid⟩

theorem Recorded.of_new {o : ObligationAssessment} (ho : o ∈ after) (hnot : o ∉ before) :
    o.ledgerTransactionId = some rowId := by
  rcases h with ⟨hsame, -⟩ | ⟨o', hsame, hid⟩ <;> rw [hsame] at ho
  · exact absurd ho hnot
  · rcases List.mem_append.1 ho with ho | ho
    · exact absurd ho hnot
    · rwa [List.mem_singleton.1 ho]

end Recorded

/-- A charge toward an obligation, with the event that names its debit. -/
structure ChargeRecorded (sha256 : String → String) (feat : FeatContext) (S : RentState) (L : LedgerState)
    (events : List ObligationAssessment) (resolved : ResolvedLedgerPlan) (key : String)
    (applied : AppliedPlan) (d : Transaction) : Prop where
  applies : applyResolvedLedgerPlan sha256 feat S.ledger resolved key = .ok (applied, L)
  principal : applied.principal = some d
  suits : (principalEffect resolved.intendedPlan).Suits .obligationPayment
  recorded : Recorded S.assessmentEvents events d.id

theorem satisfyObligation_records {now : Instant} {correlationId classId : String}
    {seatId rowId : ℕ} {e : ObligationAssessment}
    (hok : satisfyObligation S now
      { correlationId := correlationId, classId := classId, seatId := seatId, method := .payment,
        ledgerTransactionId := some rowId } = .ok (e, S')) :
    S'.ledger = S.ledger ∧ Recorded S.assessmentEvents S'.assessmentEvents rowId := by
  rw [satisfyObligation, demand_bind_eq_ok] at hok
  obtain ⟨a, -, hok⟩ := hok
  simp only [require_bind_eq_ok] at hok
  obtain ⟨-, -, -, -, hok⟩ := hok
  split at hok
  · next existing hexisting =>
    rw [pure_eq_ok, Prod.mk.injEq] at hok
    obtain ⟨-, rfl⟩ := hok
    have hfields := List.find?_some hexisting
    simp only [decide_eq_true_eq] at hfields
    exact ⟨rfl, .inl ⟨rfl, existing, List.mem_of_find?_eq_some hexisting, hfields.1⟩⟩
  · rw [pure_eq_ok, Prod.mk.injEq] at hok
    obtain ⟨-, rfl⟩ := hok
    exact ⟨rfl, .inr ⟨_, rfl, rfl⟩⟩

theorem plan_suits {L : LedgerState} {plan intended : IntendedLedgerPlan}
    {directive : BankingDirective} {resolved : ResolvedLedgerPlan} {w : Origin}
    {k : TransactionType} (hk : k ∈ w.types) (htype : plan.transactionType = k.value)
    (horiginal : plan.originalTransactionId = none)
    (hbuild : buildIntendedLedgerPlan plan = .ok intended)
    (hresolve : resolveIntendedLedgerPlan L intended directive = .ok resolved) :
    (principalEffect resolved.intendedPlan).Suits w := by
  rw [buildIntendedLedgerPlan, require_bind_eq_ok, pure_eq_ok] at hbuild
  obtain ⟨-, rfl⟩ := hbuild
  rw [resolveIntendedLedgerPlan_plan hresolve]
  refine ⟨⟨k, hk, congrArg some htype⟩, fun hsome ↦ ?_⟩
  rw [principalEffect, horiginal] at hsome
  cases hsome

/-- A rent payment changes neither the Ledger nor the events, or it charges and records. -/
theorem payRent_pays {q : RentPaymentRequest} {result : RentPaymentResult}
    (hok : payRent sha256 env feat S q = .ok (result, S')) :
    (S'.ledger = S.ledger ∧ S'.assessmentEvents = S.assessmentEvents) ∨
      ∃ resolved key applied d,
        ChargeRecorded sha256 feat S S'.ledger S'.assessmentEvents resolved key applied d := by
  simp only [payRent, unit_bind_eq_ok] at hok
  obtain ⟨-, -, hok⟩ := hok
  split at hok
  · rw [pure_eq_ok, Prod.mk.injEq] at hok
    exact .inl (hok.2 ▸ ⟨rfl, rfl⟩)
  rw [bind_eq_ok] at hok
  obtain ⟨prior, -, hok⟩ := hok
  split at hok
  · rw [bind_eq_ok] at hok
    obtain ⟨replayed, -, hok⟩ := hok
    rw [pure_eq_ok, Prod.mk.injEq] at hok
    exact .inl (hok.2 ▸ ⟨rfl, rfl⟩)
  split at hok
  · rw [pure_eq_ok, Prod.mk.injEq] at hok
    exact .inl (hok.2 ▸ ⟨rfl, rfl⟩)
  next p hauthorized =>
  simp only [postRentPayment, bind_eq_ok] at hok
  obtain ⟨authority, -, intended, hbuild, resolved, hresolve, hok⟩ := hok
  split_ifs at hok with hshort
  · rw [pure_eq_ok, Prod.mk.injEq] at hok
    exact .inl (hok.2 ▸ ⟨rfl, rfl⟩)
  simp only [bind_eq_ok, Prod.exists, demand_eq_ok] at hok
  obtain ⟨applied, L₁, happly, d, hprincipal, e, S₁, hsatisfy, hok⟩ := hok
  obtain ⟨hledger, hrecorded⟩ := satisfyObligation_records hsatisfy
  -- the perks leave the Ledger and the obligations as they are
  have hsame : S'.ledger = S₁.ledger ∧ S'.assessmentEvents = S₁.assessmentEvents := by
    split_ifs at hok
    · rw [bind_eq_ok] at hok
      obtain ⟨⟨passes, S₂⟩, haward, hok⟩ := hok
      rw [pure_eq_ok, Prod.mk.injEq] at hok
      obtain ⟨grants, rfl, -⟩ := awardSatisfactionPerks_awarded haward
      exact hok.2 ▸ ⟨rfl, rfl⟩
    · rw [pure_bind, pure_eq_ok, Prod.mk.injEq] at hok
      exact hok.2 ▸ ⟨rfl, rfl⟩
  refine .inr ⟨resolved, rentLedgerKey q.idempotencyKey, applied, d, ?_, hprincipal, ?_, ?_⟩
  · rw [hsame.1, hledger]
    exact happly
  · exact plan_suits (k := .rentPayment) (by decide) rfl rfl hbuild hresolve
  · rw [hsame.2]
    exact hrecorded

theorem settleInsurancePremium_pays {S S' : InsuranceState} {q : PremiumCharge} {key : String}
    {debit : Transaction}
    (hok : settleInsurancePremium sha256 env feat S q key = .ok (debit, S')) :
    ∃ resolved applied, ChargeRecorded sha256 feat S.toRentState S'.ledger S'.assessmentEvents resolved key
      applied debit := by
  simp only [settleInsurancePremium, require_bind_eq_ok] at hok
  obtain ⟨-, hok⟩ := hok
  rw [bind_eq_ok] at hok
  obtain ⟨resolved, hfunding, hok⟩ := hok
  rw [require_bind_eq_ok] at hok
  obtain ⟨-, hok⟩ := hok
  simp only [bind_eq_ok, Prod.exists, demand_eq_ok, pure_eq_ok, Prod.mk.injEq] at hok
  obtain ⟨applied, L₁, happly, principal, hprincipal, e, R, hsatisfy, rfl, rfl⟩ := hok
  obtain ⟨hledger, hrecorded⟩ := satisfyObligation_records hsatisfy
  obtain ⟨authority, intended, hbuild, hresolve⟩ := resolvePremiumFunding_ok hfunding
  refine ⟨resolved, applied, ?_, hprincipal, ?_, hrecorded⟩
  · rw [hledger]
    exact happly
  · exact plan_suits (k := .insurancePremium) (by decide) rfl rfl hbuild hresolve

end Payments

/-- The entries are the rows, each of a type of its origin; obligation events name payments, and
every payment is named; a reversal reverses a row of its own account, or a credit. -/
structure LossInvariant (S : LossState) : Prop where
  registered : Registered S.ledger
  rows : S.entries.map Entry.row = S.ledger.transactions
  suits : ∀ e ∈ S.entries, e.Suits
  obligations : ∀ e ∈ S.entries, e.row.featCode ∈ obligationFeats →
    e.origin = .obligationPayment ∨ e.origin = .transferLeg
  paid : ∀ e ∈ S.entries, e.origin = .obligationPayment →
    ∃ o ∈ S.assessmentEvents, o.ledgerTransactionId = some e.row.id
  named : ∀ o ∈ S.assessmentEvents, ∀ i, o.ledgerTransactionId = some i →
    ∃ e ∈ S.entries, e.row.id = i ∧ (e.origin = .obligationPayment ∨ e.origin = .transferLeg)
  reversed : ∀ e ∈ S.entries, e.origin = .reversal → ∀ i, e.row.originalTransactionId = some i →
    ∃ t ∈ S.ledger.transactions, t.id = i ∧ (0 < t.amountCents ∨ compensates t e.row)

section Preservation

variable {S S' : LossState}

theorem LossInvariant.empty (seatClass : ℕ → Option String) :
    LossInvariant (.empty seatClass) where
  registered := .empty seatClass
  rows := rfl
  suits := by simp [LossState.empty]
  obligations := by simp [LossState.empty]
  paid := by simp [LossState.empty]
  named := by simp [LossState.empty, InsuranceState.empty, RentState.empty]
  reversed := by simp [LossState.empty]

theorem LossInvariant.mem_entries (h : LossInvariant S) {t : Transaction} :
    t ∈ S.ledger.transactions ↔ ∃ e ∈ S.entries, e.row = t := by
  rw [← h.rows, List.mem_map]

/-- New entries keep the invariant where each stands for its own row. -/
theorem LossInvariant.enter (h : LossInvariant S) {es : List Entry}
    (hentries : S'.entries = S.entries ++ es) (hregistered : Registered S'.ledger)
    (hrows : S'.ledger.transactions = S.ledger.transactions ++ es.map Entry.row)
    (hsuits : ∀ e ∈ es, e.Suits)
    (hobligations : ∀ e ∈ es, e.row.featCode ∈ obligationFeats →
      e.origin = .obligationPayment ∨ e.origin = .transferLeg)
    (hpaid : ∀ e ∈ es, e.origin = .obligationPayment →
      ∃ o ∈ S'.assessmentEvents, o.ledgerTransactionId = some e.row.id)
    (hkept : S.assessmentEvents ⊆ S'.assessmentEvents)
    (hnamed : ∀ o ∈ S'.assessmentEvents, o ∉ S.assessmentEvents → ∀ i,
      o.ledgerTransactionId = some i → ∃ e ∈ S'.entries, e.row.id = i ∧
        (e.origin = .obligationPayment ∨ e.origin = .transferLeg))
    (hreversed : ∀ e ∈ es, e.origin = .reversal → ∀ i, e.row.originalTransactionId = some i →
      ∃ t ∈ S.ledger.transactions, t.id = i ∧ (0 < t.amountCents ∨ compensates t e.row)) :
    LossInvariant S' where
  registered := hregistered
  rows := by rw [hentries, List.map_append, h.rows, hrows]
  suits := by
    rw [hentries]
    exact List.forall_mem_append.2 ⟨h.suits, hsuits⟩
  obligations := by
    rw [hentries]
    exact List.forall_mem_append.2 ⟨h.obligations, hobligations⟩
  paid := by
    rw [hentries]
    refine List.forall_mem_append.2 ⟨fun e he hpayment ↦ ?_, hpaid⟩
    obtain ⟨o, ho, hid⟩ := h.paid e he hpayment
    exact ⟨o, hkept ho, hid⟩
  named := by
    intro o ho i hi
    by_cases hold : o ∈ S.assessmentEvents
    · obtain ⟨e, he, hfound⟩ := h.named o hold i hi
      exact ⟨e, hentries ▸ List.mem_append_left _ he, hfound⟩
    · exact hnamed o ho hold i hi
  reversed := by
    have hold : ∀ t ∈ S.ledger.transactions, t ∈ S'.ledger.transactions := fun t ht ↦
      hrows ▸ List.mem_append_left _ ht
    rw [hentries]
    refine List.forall_mem_append.2 ⟨fun e he hr i hi ↦ ?_, fun e he hr i hi ↦ ?_⟩
    · obtain ⟨t, ht, hfound⟩ := h.reversed e he hr i hi
      exact ⟨t, hold t ht, hfound⟩
    · obtain ⟨t, ht, hfound⟩ := hreversed e he hr i hi
      exact ⟨t, hold t ht, hfound⟩

theorem LossState.wrote_self (S : LossState) (origins : ℕ → List Origin) :
    S.wrote S.ledger origins = S := by
  simp [LossState.wrote, entriesOf]

theorem Posted.drop {effects : List Effect} {rows : List Transaction}
    (h : Posted feat effects rows L L') : L'.transactions.drop L.transactions.length = rows := by
  rw [h.transactions, List.drop_left]

theorem compensates_of_reverses {e : Effect} {r : Option LedgerCommandReservation}
    {t u : Transaction} (hrow : RowOf feat r e u) (hsuits : e.Suits .reversal)
    (hi : u.originalTransactionId = some t.id)
    (haccount : e.classId = t.classId ∧ e.seatId = t.seatId ∧
      AccountType.ofString e.accountType = some t.accountType) : compensates t u := by
  obtain ⟨k, hk, htype⟩ := (hrow.suits hsuits).type
  rw [List.mem_singleton.1 hk] at htype
  obtain ⟨hclass, hseat, haccount⟩ := haccount
  refine ⟨hrow.classId.trans hclass, hrow.seatId.trans hseat, ?_, hi, .inr htype⟩
  exact Option.some.inj (hrow.accountType.symm.trans haccount)

theorem reversed_of_writes {effects : List Effect} {rows : List Transaction}
    {os : List Origin} (hposted : Posted feat effects rows L L')
    (hos : List.Forall₂ Effect.Suits effects os) (hrev : ∀ e ∈ effects, Reverses L e) :
    ∀ e ∈ entriesOf rows os, e.origin = .reversal → ∀ i, e.row.originalTransactionId = some i →
      ∃ t ∈ L.transactions, t.id = i ∧ (0 < t.amountCents ∨ compensates t e.row) := by
  intro e he hreversal i hi
  obtain ⟨r, hrows⟩ := hposted.rowsOf
  obtain ⟨effect, hmem, hrow, hsuits⟩ := mem_entriesOf hrows hos he
  rw [hreversal] at hsuits
  obtain ⟨k, hk, htype⟩ := hsuits.type
  rw [List.mem_singleton.1 hk] at htype
  obtain ⟨t, ht, hid, hcredit | haccount⟩ := hrev effect hmem i
    (hrow.originalTransactionId.symm.trans hi) htype
  · exact ⟨t, ht, hid, .inl hcredit⟩
  · exact ⟨t, ht, hid, .inr (compensates_of_reverses hrow hsuits (hid ▸ hi) haccount)⟩

theorem LossInvariant.wrote (h : LossInvariant S) (hfeat : feat.activeFeat ∉ obligationFeats)
    (hnone : ∀ n, .obligationPayment ∉ origins n) (hw : Writes feat S.ledger L' origins) :
    LossInvariant (S.wrote L' origins) := by
  rcases hw with rfl | ⟨effects, rows, hposted, hos, hrev⟩
  · rw [S.wrote_self]
    exact h
  · obtain ⟨r, hrows⟩ := hposted.rowsOf
    have hlen : rows.length = (origins rows.length).length :=
      hrows.length_eq.symm.trans hos.length_eq
    have hfrom : ∀ e ∈ entriesOf rows (origins rows.length), e.Suits ∧
        e.row.featCode = feat.activeFeat ∧ e.origin ≠ .obligationPayment := by
      intro e he
      obtain ⟨effect, -, hrow, hsuits⟩ := mem_entriesOf hrows hos he
      refine ⟨hrow.suits hsuits, hrow.featCode, fun hpayment ↦ hnone rows.length ?_⟩
      rw [← hpayment]
      exact mem_origins_of_mem he
    have hentries : (S.wrote L' origins).entries =
        S.entries ++ entriesOf rows (origins rows.length) := by
      simp only [LossState.wrote, Posted.drop hposted]
    refine h.enter hentries hposted.registered ?_ (fun e he ↦ (hfrom e he).1)
      (fun e he hin ↦ ?_) (fun e he hpayment ↦ absurd hpayment (hfrom e he).2.2)
      (List.Subset.refl _) (fun o ho hnot ↦ absurd ho hnot)
      (reversed_of_writes hposted hos hrev)
    · rw [entriesOf_rows hlen]
      exact hposted.transactions
    · rw [(hfrom e he).2.1] at hin
      exact absurd hin hfeat

theorem LossInvariant.pay (h : LossInvariant S) (hfeat : feat.activeFeat ∈ obligationFeats)
    {events : List ObligationAssessment} {grants : List EntitlementEvent}
    {resolved : ResolvedLedgerPlan} {key : String} {applied : AppliedPlan} {d : Transaction}
    (hp : ChargeRecorded sha256 feat S.toRentState L' events resolved key applied d) :
    LossInvariant { S.wrote L' (debitOrigins .obligationPayment) with
      assessmentEvents := events
      entitlementEvents := grants } := by
  rcases h.registered.charge hp.applies with ⟨rfl, hmem⟩ | ⟨rows, hposted, hprincipal, hlast⟩
  · -- the charge was accepted before, so its debit is a row of the feature
    rw [S.wrote_self]
    obtain ⟨hd, hcode⟩ := hmem d hp.principal
    obtain ⟨e, he, rfl⟩ := h.mem_entries.1 hd
    refine h.enter (List.append_nil _).symm h.registered (List.append_nil _).symm (by simp)
      (by simp) (by simp) hp.recorded.subset
      (fun o ho hnot i hi ↦ ⟨e, he, ?_, h.obligations e he ?_⟩) (by simp)
    · rw [hp.recorded.of_new ho hnot] at hi
      exact Option.some.inj hi
    · rw [hcode]
      exact hfeat
  · obtain ⟨r, hrows⟩ := hposted.rowsOf
    have hdebit := hlast d hp.principal
    have hos : List.Forall₂ Effect.Suits (planEffects sha256 resolved feat.activeFeat key)
        (debitOrigins .obligationPayment rows.length) := by
      have hsuit : List.Forall₂ Effect.Suits (planEffects sha256 resolved feat.activeFeat key)
          (chargeOrigins applied.principal .obligationPayment
            (planEffects sha256 resolved feat.activeFeat key).length) :=
        planEffects_suit hprincipal hp.suits
      rwa [chargeOrigins, if_pos (by rw [hp.principal]; rfl), hrows.length_eq] at hsuit
    have hlen : rows.length = (debitOrigins .obligationPayment rows.length).length :=
      hrows.length_eq.symm.trans hos.length_eq
    have hkinds : ∀ e ∈ entriesOf rows (debitOrigins .obligationPayment rows.length),
        e.origin = .obligationPayment ∨ e.origin = .transferLeg := fun e he ↦
      (mem_debitEntries hdebit he).elim .inr (fun hd ↦ .inl hd.2)
    have hentries : (S.wrote L' (debitOrigins .obligationPayment)).entries =
        S.entries ++ entriesOf rows (debitOrigins .obligationPayment rows.length) := by
      simp only [LossState.wrote, Posted.drop hposted]
    have hentered : d ∈ (entriesOf rows (debitOrigins .obligationPayment rows.length)).map
        Entry.row := by
      rw [entriesOf_rows hlen]
      exact List.mem_of_getLast? hdebit
    obtain ⟨last, hlastMem, hlastRow⟩ := List.mem_map.1 hentered
    refine h.enter hentries hposted.registered ?_ (fun e he ↦ ?_) (fun e he _ ↦ hkinds e he)
      (fun e he hpayment ↦ ?_) hp.recorded.subset (fun o ho hnot i hi ↦ ?_)
      (fun e he hreversal ↦ ?_)
    · rw [entriesOf_rows hlen]
      exact hposted.transactions
    · obtain ⟨effect, -, hrow, hsuits⟩ := mem_entriesOf hrows hos he
      exact hrow.suits hsuits
    · rcases mem_debitEntries hdebit he with hleg | ⟨hd, -⟩
      · exact absurd (hpayment.symm.trans hleg) (by decide)
      · rw [hd]
        exact hp.recorded.naming
    · refine ⟨last, hentries ▸ List.mem_append_right _ hlastMem, ?_, hkinds last hlastMem⟩
      rw [hp.recorded.of_new ho hnot] at hi
      rw [hlastRow]
      exact Option.some.inj hi
    · rcases hkinds e he with hkind | hkind <;> rw [hreversal] at hkind <;> cases hkind

theorem not_mem_chargeOrigins {principal : Option Transaction} {w : Origin}
    (hw : w ≠ .obligationPayment) (n : ℕ) : .obligationPayment ∉ chargeOrigins principal w n := by
  unfold chargeOrigins debitOrigins
  split_ifs
  · simp [hw.symm]
  · simp

theorem not_mem_reconstructedOrigins (q : ReconstructedSettlement) (key : String) :
    .obligationPayment ∉ q.origins sha256 feat key := by
  intro hmem
  rcases List.mem_append.1 hmem with hmem | hmem
  · cases (List.mem_replicate.1 hmem).2
  · obtain ⟨p, -, hp⟩ := List.mem_map.1 hmem
    unfold ReconstructedPrincipal.origin at hp
    split_ifs at hp

theorem Income.suits (q : Income) : q.effect.Suits .income := by
  cases hkind : q.kind
  · exact Effect.suits_of (k := .payroll) (by decide) (by simp [effect, hkind, TransactionType.value]) rfl
  · exact Effect.suits_of (k := .manualPayment) (by decide)
      (by simp [effect, hkind, TransactionType.value]) rfl
  · exact Effect.suits_of (k := .legacyInterest) (by decide)
      (by simp [effect, hkind, TransactionType.value]) rfl

theorem LossInvariant.perform (h : LossInvariant S) {a : LossAction}
    (hok : a.perform sha256 S = .ok S') : LossInvariant S' := by
  cases a with
  | settle seatId classId =>
    rw [LossAction.perform, pure_eq_ok] at hok
    subst hok
    obtain ⟨hregistered, hrows⟩ := @Registered.settle sha256 _ h.registered seatId classId
    exact { h with
      registered := hregistered
      rows := h.rows.trans hrows.symm
      reversed := fun e he hr i hi ↦ by
        obtain ⟨t, ht, hfound⟩ := h.reversed e he hr i hi
        exact ⟨t, hrows ▸ ht, hfound⟩ }
  | purchase m call debit =>
    simp only [LossAction.perform, bind_eq_ok, Prod.exists, pure_eq_ok] at hok
    obtain ⟨applied, L', hcharge, rfl⟩ := hok
    have hfeat : (Store.storePurchaseFeat call m.now).activeFeat ∉ obligationFeats :=
      show "FEAT-STOR-001" ∉ obligationFeats by decide
    exact h.wrote hfeat (not_mem_chargeOrigins (by decide))
      (postCharge_writes h.registered (k := .purchase) (by decide) rfl rfl hcharge)
  | fine q seatId =>
    simp only [LossAction.perform, bind_eq_ok, Prod.exists, pure_eq_ok] at hok
    obtain ⟨applied, L', hcharge, rfl⟩ := hok
    have hfeat : q.context.activeFeat ∉ obligationFeats :=
      show "FEAT-LED-006" ∉ obligationFeats by decide
    exact h.wrote hfeat (not_mem_chargeOrigins (by decide))
      (postCharge_writes h.registered (k := .penalty) (by decide) rfl rfl hcharge)
  | transfer feat key q =>
    rw [LossAction.perform, requireElsewhere, require_bind_eq_ok] at hok
    obtain ⟨hfeat, hok⟩ := hok
    simp only [bind_eq_ok, Prod.exists, pure_eq_ok] at hok
    obtain ⟨result, L', htransfer, rfl⟩ := hok
    exact h.wrote hfeat (by simp) (transfer_writes h.registered htransfer)
  | rent env feat q =>
    rw [LossAction.perform, requireObligation, require_bind_eq_ok] at hok
    obtain ⟨hfeat, hok⟩ := hok
    simp only [bind_eq_ok, Prod.exists, pure_eq_ok] at hok
    obtain ⟨result, R, hpay, rfl⟩ := hok
    rcases payRent_pays hpay with ⟨hledger, hevents⟩ | ⟨resolved, key, applied, d, hp⟩
    · rw [hledger, hevents, S.wrote_self]
      exact { h with }
    · exact h.pay hfeat hp
  | premium env feat q key =>
    rw [LossAction.perform, requireObligation, require_bind_eq_ok] at hok
    obtain ⟨hfeat, hok⟩ := hok
    simp only [bind_eq_ok, Prod.exists, pure_eq_ok] at hok
    obtain ⟨debit, R, hpay, rfl⟩ := hok
    obtain ⟨resolved, applied, hp⟩ := settleInsurancePremium_pays hpay
    exact h.pay hfeat hp
  | income feat key q =>
    rw [LossAction.perform, requireElsewhere, require_bind_eq_ok] at hok
    obtain ⟨hfeat, hok⟩ := hok
    simp only [bind_eq_ok, Prod.exists, pure_eq_ok] at hok
    obtain ⟨rows, L', hpending, rfl⟩ := hok
    exact h.wrote hfeat (by simp) (pending_writes h.registered q.suits rfl hpending)
  | payout feat q claim source amount =>
    rw [LossAction.perform, requireElsewhere, require_bind_eq_ok] at hok
    obtain ⟨hfeat, hok⟩ := hok
    simp only [bind_eq_ok, Prod.exists, pure_eq_ok] at hok
    obtain ⟨rows, created, L', hpending, rfl⟩ := hok
    exact h.wrote hfeat (by simp) (payout_writes h.registered hpending)
  | recover feat previewed proof kind intent directive actorSeatId mechanism allocation key =>
    rw [LossAction.perform, requireElsewhere, require_bind_eq_ok, require_bind_eq_ok] at hok
    obtain ⟨hfeat, hkind, hok⟩ := hok
    simp only [bind_eq_ok, Prod.exists, pure_eq_ok] at hok
    obtain ⟨plan, hplan, applied, L', happly, rfl⟩ := hok
    exact h.wrote hfeat (not_mem_chargeOrigins (by decide))
      (recover_writes h.registered hkind hplan happly)
  | reconstruct feat q key =>
    rw [LossAction.perform, requireElsewhere, require_bind_eq_ok] at hok
    obtain ⟨hfeat, hok⟩ := hok
    simp only [bind_eq_ok, pure_eq_ok] at hok
    obtain ⟨L', happly, rfl⟩ := hok
    exact h.wrote hfeat (fun _ ↦ not_mem_reconstructedOrigins q key)
      (reconstruct_writes h.registered happly)
  | reverse feat q =>
    rw [LossAction.perform, requireElsewhere, require_bind_eq_ok, require_bind_eq_ok] at hok
    obtain ⟨hfeat, hmem, hok⟩ := hok
    simp only [bind_eq_ok, Prod.exists, pure_eq_ok] at hok
    obtain ⟨principal, L', hreverse, rfl⟩ := hok
    exact h.wrote hfeat (not_mem_chargeOrigins (by decide))
      (reverse_writes h.registered hmem hreverse)
  | removalNote feat key t actorSeatId =>
    rw [LossAction.perform, requireElsewhere, require_bind_eq_ok] at hok
    obtain ⟨hfeat, hok⟩ := hok
    simp only [bind_eq_ok, Prod.exists, pure_eq_ok] at hok
    obtain ⟨rows, L', hpending, rfl⟩ := hok
    exact h.wrote hfeat (by simp) (pending_writes h.registered
      (Effect.suits_of (k := .voidItemRemoved) (by decide) rfl rfl) rfl hpending)
  | elsewhere tables events =>
    rw [LossAction.perform, require_bind_eq_ok, pure_eq_ok] at hok
    obtain ⟨hnone, rfl⟩ := hok
    refine h.enter (List.append_nil _).symm h.registered (List.append_nil _).symm (by simp)
      (by simp) (by simp) (List.subset_append_left _ _) (fun o ho hnot i hi ↦ ?_) (by simp)
    rw [hnone o ((List.mem_append.1 ho).resolve_left hnot)] at hi
    cases hi

theorem LossInvariant.lossStep (h : LossInvariant S) (a : LossAction) :
    LossInvariant (lossStep sha256 S a) := by
  unfold Insurance.lossStep
  split
  · next S' hok => exact h.perform hok
  · exact h

end Preservation

section Eligibility

variable {S : LossState} {env : ClaimSurroundings} {t : Transaction} {classId : String}
  {seatId : ℕ}

structure PassesLaw (L : LedgerState) (t : Transaction) (classId : String) (seatId : ℕ) :
    Prop where
  classId : t.classId = classId
  seatId : t.seatId = seatId
  uncompensated : ∀ u ∈ L.transactions, ¬ compensates t u
  debit : t.amountCents < 0
  notTransfer : normalizedType t ∉ transferTypes
  allowed : normalizedType t ∉ disallowedTransactionTypes

theorem transactionClaimProblem_none
    (h : transactionClaimProblem env S.toInsuranceState (some t) classId seatId = none) :
    PassesLaw S.ledger t classId seatId := by
  simp only [transactionClaimProblem] at h
  split_ifs at h with hclass hseat hcompensated hcredit htransfer hobligation hdisallowed
  refine ⟨not_ne_iff.1 hclass, not_ne_iff.1 hseat, fun u hu hcomp ↦ hcompensated ?_,
    not_le.1 hcredit, htransfer, hdisallowed⟩
  exact List.any_eq_true.2 ⟨u, hu, decide_eq_true hcomp⟩

theorem types_of_gap {w : Origin} (hw : w ∉ [.transferLeg, .recovery, .reversal])
    (hpayment : w ≠ .obligationPayment) : ∀ k ∈ w.types, (some k : Option TransactionType) ∉
      [some .rentPayment, some .payrollCorrection, some .legacyReversal] := by
  revert hw hpayment
  cases w <;> decide

/-- The law refuses every type of a transfer leg, of an obligation, of a recovery or of a reversal,
but for the gaps. -/
theorem types_refused : ∀ w ∈ [Origin.obligationPayment, .transferLeg, .recovery, .reversal],
    ∀ k ∈ w.types, String.ofList (k.value.toList.map Char.toLower) ∈ transferTypes ∨
      String.ofList (k.value.toList.map Char.toLower) ∈ disallowedTransactionTypes ∨
      (some k : Option TransactionType) ∈
        [some .rentPayment, some .payrollCorrection, some .legacyReversal] := by
  decide

theorem PassesLaw.other_origin {L : LedgerState} (hp : PassesLaw L t classId seatId)
    (hgap : t.type ∉ [some .rentPayment, some .payrollCorrection, some .legacyReversal])
    {w : Origin} (hsuits : (Entry.mk t w).Suits) :
    w ∉ [.obligationPayment, .transferLeg, .recovery, .reversal] := by
  intro hw
  obtain ⟨k, hk, htype⟩ := hsuits.type
  have htransfer := hp.notTransfer
  have hallowed := hp.allowed
  dsimp only at hk htype
  simp only [normalizedType, htype] at htransfer hallowed
  rw [htype] at hgap
  rcases types_refused w hw k hk with h | h | h
  · exact htransfer h
  · exact hallowed h
  · exact hgap h

/-- In a state of the invariant, an eligible transaction is a real loss exactly where no gap of
the law lets it through. -/
theorem LossInvariant.realLoss_iff (h : LossInvariant S) (ht : t ∈ S.ledger.transactions)
    (hp : PassesLaw S.ledger t classId seatId) :
    RealLoss S t classId seatId ↔ ClearOfGaps S.ledger t := by
  constructor
  · intro hloss
    obtain ⟨e, he, rfl, horigin⟩ := hloss.origin
    refine ⟨?_, fun u hu _ ↦ hloss.uncompensated u hu⟩
    obtain ⟨k, hk, htype⟩ := (h.suits e he).type
    rw [htype]
    refine types_of_gap horigin (fun hpayment ↦ ?_) k hk
    obtain ⟨o, ho, hid⟩ := h.paid e he hpayment
    exact hloss.unobliged o ho hid
  · rintro ⟨htypes, hpayouts⟩
    obtain ⟨e, he, rfl⟩ := h.mem_entries.1 ht
    have horigin : ∀ e' ∈ S.entries, e'.row.id = e.row.id →
        e'.origin ∉ [.obligationPayment, .transferLeg, .recovery, .reversal] := by
      intro e' he' hid
      have hrow := h.registered.id_inj (h.mem_entries.2 ⟨e', he', rfl⟩) ht hid
      have hsuits := h.suits e' he'
      exact hp.other_origin htypes ⟨hrow ▸ hsuits.type, hrow ▸ hsuits.original⟩
    refine ⟨hp.debit, hp.classId, hp.seatId, fun o ho hid ↦ ?_, ⟨e, he, rfl, fun hmem ↦ ?_⟩,
      fun u hu hnames ↦ ?_⟩
    · -- an event names the row of a payment
      obtain ⟨e', he', hid', hkind⟩ := h.named o ho _ hid
      have hnot := horigin e' he' hid'
      rcases hkind with hkind | hkind <;> rw [hkind] at hnot <;> simp at hnot
    · exact horigin e he rfl (List.mem_cons_of_mem _ hmem)
    · -- only reversals and payouts name an original
      obtain ⟨c, hc, rfl⟩ := h.mem_entries.1 hu
      have hsuits := h.suits c hc
      rcases hsuits.original (by rw [hnames]; rfl) with hreversal | hpayout
      · obtain ⟨t, ht', hid, hcredit | hcompensates⟩ := h.reversed c hc hreversal _ hnames
        · rw [h.registered.id_inj ht' ht hid] at hcredit
          exact absurd hp.debit (by omega)
        · rw [h.registered.id_inj ht' ht hid] at hcompensates
          exact hp.uncompensated _ hu hcompensates
      · obtain ⟨k, hk, htype⟩ := hsuits.type
        rw [hpayout] at hk
        rw [List.mem_singleton.1 hk] at htype
        exact hpayouts _ hu htype hnames

/-- In every history of the writers, a transaction that the eligibility law reports eligible is a
real, uncompensated loss exactly where it is no rent payment, payroll correction or reversal and no
claim was paid on it. -/
theorem eligible_transactions_are_losses (sha256 : String → String)
    (seatClass : ℕ → Option String) (as : List LossAction) (env : ClaimSurroundings)
    (classId : String) (seatId : ℕ) :
    let S := run (lossStep sha256) (.empty seatClass) as
    ∀ t ∈ S.ledger.transactions,
      transactionClaimProblem env S.toInsuranceState (some t) classId seatId = none →
        (RealLoss S t classId seatId ↔ ClearOfGaps S.ledger t) := by
  intro S t ht heligible
  have hS : LossInvariant S :=
    run_invariant (.empty seatClass) (fun _ a h ↦ h.lossStep a) as
  exact hS.realLoss_iff ht (transactionClaimProblem_none heligible)

/-- A student is paid a hundred dollars, and then buys for five or pays a rent of five. -/
def sampleLosses (spends : List LossAction) : LossState :=
  run (lossStep id) (.empty oneStudent)
    (.income ⟨"FEAT-PROD-004", "corr_1", day 1⟩ "pay"
      ⟨.payroll, "c", 1, 2, .teacher, .ofCents 10000⟩ :: spends)

def samplePurchased : LossState :=
  sampleLosses [.purchase Store.sampleMoment (Store.samplePurchase 1 none "corr_2") 500]

/-- The tables of a class whose student was assessed a weekly rent of five dollars. -/
def rentTables : RentState :=
  run (rentStep id fun _ ↦ utcZone) sampleStart
    (assessedAhead fun r ↦ { r with rentAmount := some 500 })

def sampleRentPaid : LossState :=
  sampleLosses
    [.elsewhere { InsuranceState.empty oneStudent with toRentState := rentTables }
      rentTables.assessmentEvents,
     .rent sampleClaimSurroundings.toSurroundings ⟨"FEAT-OBL-001", "corr_3", day 5⟩
      { classId := "c", seatId := 1, correlationId := "rent:c:1:cycle:1", idempotencyKey := "r" }]

theorem eligible_transactions_are_losses_purchase :
    (samplePurchased.ledger.transactions.filter (·.type = some .purchase)).length = 1 ∧
      ∀ t ∈ samplePurchased.ledger.transactions, t.type = some .purchase →
        RealLoss samplePurchased t "c" 1 := by
  refine ⟨by decide +kernel, fun t ht htype ↦ ?_⟩
  have heligible : ∀ u ∈ samplePurchased.ledger.transactions, u.type = some .purchase →
      transactionClaimProblem sampleClaimSurroundings samplePurchased.toInsuranceState (some u) "c"
        1 = none := by
    decide +kernel
  have hpayouts : ∀ u ∈ samplePurchased.ledger.transactions,
      u.type ≠ some .insuranceReimbursement := by
    decide +kernel
  refine (eligible_transactions_are_losses id oneStudent _ sampleClaimSurroundings "c" 1 t ht
    (heligible t ht htype)).2 ⟨by rw [htype]; decide, fun u hu hpayout ↦ ?_⟩
  exact absurd hpayout (hpayouts u hu)

/-- A rent payment is eligible, though the event of its payment names it. -/
theorem paid_rent_is_eligible :
    ∃ t ∈ sampleRentPaid.ledger.transactions, t.amountCents = -500 ∧
      t.type = some .rentPayment ∧
      transactionClaimProblem sampleClaimSurroundings sampleRentPaid.toInsuranceState (some t) "c"
        1 = none ∧
      ∃ o ∈ sampleRentPaid.assessmentEvents, o.ledgerTransactionId = some t.id := by
  decide +kernel

end Eligibility

end TokenHub.Insurance
