import TokenHub.Ledger.FeePlan
import TokenHub.Ledger.OtherActions

set_option autoImplicit false

namespace TokenHub.Ledger

open Lib.Decimals Lib.Checks Lib.Json Lib.Runs Lib.SequencedLog

variable {sha256 : String → String} {percentage : Value → Option Decimal} {feat : FeatContext}
  {L L' : LedgerState} {key : String} {plan : IntendedFeePlan} {directive : FeeDirective}
  {authority : FeeAuthority} {force : Bool} {resolved : ResolvedFeePlan}

section WithoutFee

/-- Without fee authority, the plan is the one of the funding alone. -/
theorem resolveIntendedFeePlan_none :
    resolveIntendedFeePlan percentage L plan directive "NONE" force =
      (resolveIntendedLedgerPlan L plan.toIntendedLedgerPlan
        directive.toBankingDirective).map fun r ↦
          { r with overdraftFeeAmount := 0, feeActorSeatId := plan.feeActorSeatId,
                   feeIdentity := none } := by
  have hauthority : FeeAuthority.ofString "NONE" = some .none := by decide
  unfold resolveIntendedFeePlan resolveIntendedLedgerPlan
  simp only [hauthority, demand_some, ok_bind]
  by_cases hclass : directive.classId = plan.classId
  · rw [require_of hclass]
    cases getAvailableBalances L plan.seatId plan.classId with
    | error e => rfl
    | ok balances =>
      cases hsource : plan.sourceAccount with
      | savings => rfl
      | checking =>
        simp [authorizedFee, Except.map, pure, Except.pure]
  · rw [require_of_not hclass]
    rfl

/-- A plan without a fee is applied as its funding alone is. -/
theorem applyResolvedFeePlan_without_fee (h : resolved.overdraftFeeAmount = 0) :
    (applyResolvedFeePlan sha256 feat L resolved key).map
        (fun out ↦ (out.1.toAppliedPlan, out.2)) =
      applyResolvedLedgerPlan sha256 feat L resolved.toResolvedLedgerPlan key := by
  unfold applyResolvedFeePlan applyResolvedLedgerPlan feeEffects rowAt
  simp only [h, if_true, pure, Except.pure, ok_bind, List.append_nil]
  split_ifs with hnil hzero
  · rfl
  · cases checkFreshCommand L resolved.toResolvedLedgerPlan
        ⟨resolved.intendedPlan.classId, feat.activeFeat, key⟩ with
    | error e => rfl
    | ok u =>
      simp only [ok_bind]
      cases createReservedEffects sha256 feat L L.reservations
          ⟨resolved.intendedPlan.classId, feat.activeFeat, key⟩
          (planEffects sha256 resolved.toResolvedLedgerPlan feat.activeFeat key)
          resolved.intendedPlan.canonicalIntent with
      | error e => rfl
      | ok out => rfl
  · cases checkFreshCommand L resolved.toResolvedLedgerPlan
        ⟨resolved.intendedPlan.classId, feat.activeFeat, key⟩ with
    | error e => rfl
    | ok u =>
      simp only [ok_bind]
      cases createReservedEffects sha256 feat L L.reservations
          ⟨resolved.intendedPlan.classId, feat.activeFeat, key⟩
          (planEffects sha256 resolved.toResolvedLedgerPlan feat.activeFeat key)
          resolved.intendedPlan.canonicalIntent with
      | error e => rfl
      | ok out =>
        obtain ⟨⟨rows, created⟩, L₁⟩ := out
        simp only [ok_bind]
        cases rows[(planEffects sha256 resolved.toResolvedLedgerPlan feat.activeFeat
          key).length - 1]? with
        | none => rfl
        | some t => rfl

end WithoutFee

section Amounts

theorem protectionTransfer_cases (enabled : Bool) (total checking savings : ℤ) :
    protectionTransfer enabled total checking savings = 0 ∨
      enabled = true ∧ 0 < protectionTransfer enabled total checking savings ∧
        protectionTransfer enabled total checking savings ≤ savings ∧
        protectionTransfer enabled total checking savings = total - checking := by
  unfold protectionTransfer
  by_cases hzero : total = 0
  · simp [hzero]
  · simp only [if_neg hzero]
    split_ifs with h
    · right
      obtain ⟨hpos, henabled, hle⟩ := h
      have hmax : max (total - checking) 0 = total - checking :=
        max_eq_left (le_of_lt ((lt_max_iff.1 hpos).resolve_right (lt_irrefl 0)))
      rw [hmax] at hpos hle ⊢
      exact ⟨by simpa using henabled, hpos, hle, rfl⟩
    · exact .inl rfl

theorem quantizeCurrency_nonneg {d : Decimal} {m : Magnitude} (h : Magnitude.ofDecimal d = some m) :
    0 ≤ (quantizeCurrency (some d)).value := by
  cases d with
  | infinity s => cases h
  | nan => cases h
  | finite s c e =>
    simp only [Magnitude.ofDecimal, Option.ite_none_left_eq_some, not_and, Decidable.not_not] at h
    cases hround : Decimal.quantizeFinite s c e with
    | none => simp [quantizeCurrency, hround, Hundredths.value]
    | some n =>
      simp only [quantizeCurrency, hround, Option.getD_some]
      simp only [Decimal.quantizeFinite, Option.ite_none_right_eq_some, Option.some.injEq] at hround
      obtain ⟨-, rfl⟩ := hround
      cases s with
      | false =>
        simp only [Hundredths.value, Bool.false_eq_true, if_false]
        positivity
      | true =>
        obtain rfl : c = 0 := h.1 rfl
        simp [Hundredths.value, Decimal.divHalfEven]

structure FeeBounds (fee : ℤ) : Prop where
  nonneg : 0 ≤ fee
  lt : |fee| < 10 ^ 28

theorem FeeBounds.zero : FeeBounds 0 := ⟨le_refl 0, by norm_num⟩

theorem FeeBounds.quantized {d : Decimal} {m : Magnitude} (h : Magnitude.ofDecimal d = some m) :
    FeeBounds (quantizeCurrency (some d)).value :=
  ⟨quantizeCurrency_nonneg h, abs_quantizeCurrency_lt _⟩

theorem feeAmount_bounds {p : IntendedLedgerPlan} {fee : ℤ}
    (h : feeAmount percentage L p directive = .ok fee) : FeeBounds fee := by
  unfold feeAmount at h
  split at h
  · simp only [bind_eq_ok, demand_eq_ok, pure_eq_ok] at h
    obtain ⟨m, hm, rfl⟩ := h
    exact .quantized hm
  · rw [demand_bind_eq_ok] at h
    obtain ⟨schedule, -, h⟩ := h
    split_ifs at h
    · rw [pure_eq_ok] at h
      exact h ▸ .zero
    · simp only [progressiveFeeAmount, bind_eq_ok, demand_eq_ok, pure_eq_ok] at h
      obtain ⟨-, -, -, -, base, -, -, -, rate, -, rfl⟩ := h
      apply FeeBounds.quantized
      simp [Magnitude.ofDecimal]
      rfl

structure FeeAuthorized (authority : FeeAuthority) (enabled : Bool)
    (principal checking savings fee : ℤ) : Prop extends FeeBounds fee where
  of_none : authority = .none → fee = 0
  of_failed : authority = .failedAgreement → fee ≠ 0 → principal - checking > 0 ∧
    (enabled = true → savings < principal - checking)

theorem authorizedFee_ok {p : IntendedLedgerPlan} {checking savings fee : ℤ}
    (h : authorizedFee percentage L p directive authority force checking savings = .ok fee) :
    FeeAuthorized authority directive.protectionEnabled p.debitAmount checking savings fee := by
  have hzero : ∀ a, FeeAuthorized a directive.protectionEnabled p.debitAmount checking savings 0 :=
    fun a ↦ ⟨.zero, fun _ ↦ rfl, fun _ hne ↦ absurd rfl hne⟩
  cases authority with
  | none =>
    obtain rfl : 0 = fee := by simpa [authorizedFee] using h
    exact hzero _
  | explicitFee =>
    simp only [authorizedFee] at h
    split_ifs at h
    · exact ⟨feeAmount_bounds h, nofun, nofun⟩
    · cases h
      exact hzero _
  | failedAgreement =>
    simp only [authorizedFee] at h
    split_ifs at h with hfailed
    · refine ⟨feeAmount_bounds h, nofun, fun _ _ ↦ ?_⟩
      obtain ⟨hpos, hno⟩ := hfailed
      have hmax : max (p.debitAmount - checking) 0 = p.debitAmount - checking :=
        max_eq_left (le_of_lt ((lt_max_iff.1 hpos).resolve_right (lt_irrefl 0)))
      rw [hmax] at hpos hno
      exact ⟨hpos, fun henabled ↦ not_le.1 fun hle ↦ hno ⟨henabled, hle⟩⟩
    · cases h
      exact hzero _

end Amounts

section Plans

structure FeePlanResolved (L : LedgerState) (plan : IntendedFeePlan) (authority : FeeAuthority)
    (enabled : Bool) (r : ResolvedFeePlan) : Prop where
  intended : r.intendedPlan = plan.toIntendedLedgerPlan
  read : getAvailableBalances L plan.seatId plan.classId = .ok (r.checkingBefore, r.savingsBefore)
  fee : FeeAuthorized authority enabled plan.debitAmount r.checkingBefore r.savingsBefore
    r.overdraftFeeAmount
  unfunded : plan.sourceAccount = .savings → r.overdraftFeeAmount = 0 ∧
    r.recoveryTransferAmount = 0
  transfer : r.recoveryTransferAmount = 0 ∨ enabled = true ∧ 0 < r.recoveryTransferAmount ∧
    r.recoveryTransferAmount ≤ r.savingsBefore ∧ r.recoveryTransferAmount =
      plan.debitAmount + r.overdraftFeeAmount - r.checkingBefore
  checkingAfter : r.checkingAfter = r.checkingBefore + r.recoveryTransferAmount -
    (if plan.sourceAccount = .checking then plan.debitAmount else 0) - r.overdraftFeeAmount
  savingsAfter : r.savingsAfter = r.savingsBefore - r.recoveryTransferAmount -
    if plan.sourceAccount = .savings then plan.debitAmount else 0

theorem resolveIntendedFeePlan_ok {feeAuthority : String}
    (h : resolveIntendedFeePlan percentage L plan directive feeAuthority force = .ok resolved) :
    ∃ authority, FeeAuthority.ofString feeAuthority = some authority ∧
      FeePlanResolved L plan authority directive.protectionEnabled resolved := by
  rw [resolveIntendedFeePlan, require_bind_eq_ok, demand_bind_eq_ok] at h
  obtain ⟨-, authority, hauthority, h⟩ := h
  rw [bind_eq_ok] at h
  obtain ⟨⟨checking, savings⟩, hread, h⟩ := h
  refine ⟨authority, hauthority, ?_⟩
  cases hsource : plan.sourceAccount with
  | savings =>
    simp only [hsource, require_bind_eq_ok, pure_eq_ok] at h
    obtain ⟨hnone, rfl⟩ := h
    exact {
      intended := rfl
      read := hread
      fee := ⟨.zero, fun _ ↦ rfl, fun _ hne ↦ absurd rfl hne⟩
      unfunded := fun _ ↦ ⟨rfl, rfl⟩
      transfer := .inl rfl
      checkingAfter := by simp [hsource]
      savingsAfter := by simp [hsource] }
  | checking =>
    simp only [hsource, bind_eq_ok, pure_eq_ok] at h
    obtain ⟨fee, hfee, rfl⟩ := h
    exact {
      intended := rfl
      read := hread
      fee := authorizedFee_ok hfee
      unfunded := by simp [hsource]
      transfer := protectionTransfer_cases _ _ _ _
      checkingAfter := by
        simp only [hsource, if_true]
        omega
      savingsAfter := by simp [hsource] }

structure FeePlanLaw (authority : FeeAuthority) (enabled : Bool) (r : ResolvedFeePlan) :
    Prop where
  transfer_covers : r.recoveryTransferAmount ≠ 0 → enabled = true ∧ 0 < r.recoveryTransferAmount ∧
    0 ≤ r.savingsAfter ∧ r.checkingAfter = 0
  fee_or_transfer : authority = .failedAgreement →
    r.overdraftFeeAmount = 0 ∨ r.recoveryTransferAmount = 0
  no_fee : authority = .none → r.overdraftFeeAmount = 0
  idle : r.intendedPlan.debitAmount = 0 → r.recoveryTransferAmount = 0 →
    r.overdraftFeeAmount = 0 → r.checkingAfter = r.checkingBefore ∧
      r.savingsAfter = r.savingsBefore

theorem FeePlanResolved.law {enabled : Bool}
    (h : FeePlanResolved L plan authority enabled resolved) :
    FeePlanLaw authority enabled resolved where
  transfer_covers := by
    intro hne
    obtain ⟨henabled, hpos, hle, heq⟩ := h.transfer.resolve_left hne
    have hsource : plan.sourceAccount = .checking := by
      cases hs : plan.sourceAccount with
      | checking => rfl
      | savings => exact absurd (h.unfunded hs).2 hne
    have hchecking := h.checkingAfter
    have hsavings := h.savingsAfter
    rw [hsource, if_pos rfl] at hchecking
    rw [hsource, if_neg (by decide)] at hsavings
    exact ⟨henabled, hpos, by omega, by omega⟩
  fee_or_transfer := by
    intro hauthority
    by_contra hboth
    rw [not_or] at hboth
    obtain ⟨hfee, htransfer⟩ := hboth
    obtain ⟨henabled, -, hle, heq⟩ := h.transfer.resolve_left htransfer
    obtain ⟨-, hshort⟩ := h.fee.of_failed hauthority hfee
    have hnonneg := h.fee.nonneg
    have hlt := hshort henabled
    omega
  no_fee := h.fee.of_none
  idle := by
    intro hdebit htransfer hfee
    rw [h.intended] at hdebit
    have hchecking := h.checkingAfter
    have hsavings := h.savingsAfter
    simp only [hdebit, htransfer, hfee, ite_self] at hchecking hsavings
    exact ⟨by omega, by omega⟩

end Plans

section Effects

def effectCents (scope : Scope) (e : Effect) : ℤ :=
  if e.classId = scope.classId ∧ e.seatId = scope.seatId ∧
      e.accountType = scope.accountType.value
  then (quantizeCurrency e.amount).value else 0

theorem AccountType.ofString_eq_some {s : String} {a : AccountType} :
    ofString s = some a ↔ s = a.value := by
  constructor
  · intro h
    exact (value_of_ofString h).symm
  · rintro rfl
    exact ofString_value a

theorem sumOver_rows {r : Option LedgerCommandReservation} {effects : List Effect}
    {rows : List Transaction} (h : List.Forall₂ (RowOf feat r) effects rows) (scope : Scope) :
    sumOver (·.amountCents) (·.scope = scope) rows = (effects.map (effectCents scope)).sum := by
  induction h with
  | nil => rfl
  | @cons e t es ts hrow hrows ih =>
    have hscope : t.scope = scope ↔ e.classId = scope.classId ∧ e.seatId = scope.seatId ∧
        e.accountType = scope.accountType.value := by
      rw [← AccountType.ofString_eq_some, hrow.accountType, ← hrow.classId, ← hrow.seatId,
        Option.some.injEq, Transaction.scope]
      constructor
      · rintro rfl
        exact ⟨rfl, rfl, rfl⟩
      · rintro ⟨hc, hs, ha⟩
        rw [hc, hs, ha]
    rw [sumOver_cons, List.map_cons, List.sum_cons, ih, effectCents, ← hrow.amount]
    simp only [hscope]

theorem effectCents_eq {e : Effect} {own : Scope} {n : ℤ} (hclass : e.classId = own.classId)
    (hseat : e.seatId = own.seatId) (haccount : e.accountType = own.accountType.value)
    (hamount : e.amount = some (.ofCents n)) (hn : |n| < 10 ^ 28) (scope : Scope) :
    effectCents scope e = if scope = own then n else 0 := by
  have hown : e.classId = scope.classId ∧ e.seatId = scope.seatId ∧
      e.accountType = scope.accountType.value ↔ scope = own := by
    rw [hclass, hseat, ← AccountType.ofString_eq_some, haccount, AccountType.ofString_value,
      Option.some.injEq]
    constructor
    · rintro ⟨hc, hs, ha⟩
      obtain ⟨classId, seatId, accountType⟩ := scope
      obtain ⟨classId', seatId', accountType'⟩ := own
      simp only at hc hs ha
      rw [hc, hs, ha]
    · rintro rfl
      exact ⟨rfl, rfl, rfl⟩
  simp only [effectCents, hown, hamount, quantizeCurrency_ofCents hn]

variable {enabled : Bool} {fees : List Effect}

theorem feeEffects_cents (h : FeePlanResolved L plan authority enabled resolved)
    (hfees : feeEffects resolved = .ok fees) (scope : Scope) :
    (fees.map (effectCents scope)).sum =
      if scope = ⟨plan.classId, plan.seatId, .checking⟩ then -resolved.overdraftFeeAmount
      else 0 := by
  unfold feeEffects at hfees
  split_ifs at hfees with hzero
  · rw [pure_eq_ok] at hfees
    simp [← hfees, hzero]
  · simp only [bind_eq_ok, demand_eq_ok, pure_eq_ok] at hfees
    obtain ⟨actor, -, rfl⟩ := hfees
    have hsmall : |-resolved.overdraftFeeAmount| < 10 ^ 28 := by simpa using h.fee.lt
    rw [List.map_singleton, List.sum_singleton]
    apply effectCents_eq _ _ rfl rfl hsmall
    · simp [feeEffect, h.intended]
    · simp [feeEffect, h.intended]

theorem FeePlanResolved.abs_transfer_lt
    (h : FeePlanResolved L plan authority enabled resolved) :
    |resolved.recoveryTransferAmount| < 10 ^ 28 := by
  have hread := h.read
  rw [getAvailableBalances, require_bind_eq_ok, pure_eq_ok, Prod.mk.injEq] at hread
  have hsavings : |resolved.savingsBefore| < 10 ^ 28 := by
    rw [← hread.2.2]
    exact abs_quantizeCurrency_lt _
  rw [abs_lt] at hsavings ⊢
  rcases h.transfer with hzero | ⟨-, hpos, hle, -⟩
  · rw [hzero]
    norm_num
  · exact ⟨by omega, by omega⟩

theorem fundingEffects_cents (h : FeePlanResolved L plan authority enabled resolved)
    (activeFeat : String) (scope : Scope) :
    ((fundingEffects sha256 resolved.intendedPlan activeFeat key
        resolved.recoveryTransferAmount).map (effectCents scope)).sum =
      (if scope = ⟨plan.classId, plan.seatId, .savings⟩ then -resolved.recoveryTransferAmount
        else 0) +
      if scope = ⟨plan.classId, plan.seatId, .checking⟩ then resolved.recoveryTransferAmount
        else 0 := by
  have hin := h.abs_transfer_lt
  have hout : |-resolved.recoveryTransferAmount| < 10 ^ 28 := by simpa using hin
  rw [h.intended, fundingEffects]
  by_cases hzero : resolved.recoveryTransferAmount = 0
  · simp [hzero]
  · simp only [if_neg hzero, List.map_cons, List.map_nil, List.sum_cons, List.sum_nil, add_zero]
    congr 1
    · exact effectCents_eq rfl rfl rfl rfl hout scope
    · exact effectCents_eq rfl rfl rfl rfl hin scope

theorem planEffects_cents (h : FeePlanResolved L plan authority enabled resolved)
    (hdebit : |plan.debitAmount| < 10 ^ 28) (activeFeat : String) (scope : Scope) :
    ((planEffects sha256 resolved.toResolvedLedgerPlan activeFeat key).map
        (effectCents scope)).sum =
      (if scope = ⟨plan.classId, plan.seatId, .savings⟩ then -resolved.recoveryTransferAmount
        else 0) +
      (if scope = ⟨plan.classId, plan.seatId, .checking⟩ then resolved.recoveryTransferAmount
        else 0) +
      if scope = ⟨plan.classId, plan.seatId, plan.sourceAccount⟩ then -plan.debitAmount
        else 0 := by
  have hneg : |-plan.debitAmount| < 10 ^ 28 := by simpa using hdebit
  rw [planEffects, List.map_append, List.sum_append, fundingEffects_cents h]
  congr 1
  rw [h.intended]
  by_cases hzero : plan.debitAmount = 0
  · simp [hzero]
  · rw [if_neg hzero, List.map_singleton, List.sum_singleton]
    exact effectCents_eq rfl rfl rfl rfl hneg scope

end Effects

section Runs

variable {enabled : Bool} {applied : AppliedFeePlan}

/-- The funding legs among the rows of a plan: none, or the transfer out of savings and the same
amount into checking. -/
def FundingLegs (r : ResolvedFeePlan) (legs : List Transaction) : Prop :=
  (r.recoveryTransferAmount = 0 ∧ legs = []) ∨
    ∃ out into, legs = [out, into] ∧
      out.scope = ⟨r.intendedPlan.classId, r.intendedPlan.seatId, .savings⟩ ∧
      into.scope = ⟨r.intendedPlan.classId, r.intendedPlan.seatId, .checking⟩ ∧
      out.amountCents = -r.recoveryTransferAmount ∧ into.amountCents = r.recoveryTransferAmount

def ResolvedFeePlan.Idle (r : ResolvedFeePlan) : Prop :=
  r.intendedPlan.debitAmount = 0 ∧ r.recoveryTransferAmount = 0 ∧ r.overdraftFeeAmount = 0

def CommandReserved (L : LedgerState) (id : CommandIdentity) : Prop :=
  ∃ r ∈ L.reservations, r.identity = id

/-- What an accepted plan leaves: an idle plan and a replay leave the Ledger as it is, and any
other plan posts its rows on the balances that it was resolved on. -/
structure FeePlanApplied (L : LedgerState) (feat : FeatContext) (key : String)
    (r : ResolvedFeePlan) (applied : AppliedFeePlan) (L' : LedgerState) : Prop where
  kept : applied.created ≠ some true →
    L' = L ∧ (r.Idle ∨ CommandReserved L ⟨r.intendedPlan.classId, feat.activeFeat, key⟩)
  posted : applied.created = some true →
    getAvailableBalances L r.intendedPlan.seatId r.intendedPlan.classId =
        .ok (r.checkingBefore, r.savingsBefore) ∧
      getAvailableBalances L' r.intendedPlan.seatId r.intendedPlan.classId =
        .ok (r.checkingAfter, r.savingsAfter) ∧
      ∃ legs charges, FundingLegs r legs ∧ applied.effects = legs ++ charges ∧
        L'.transactions = L.transactions ++ (legs ++ charges) ∧
        ∀ t ∈ charges, t.seatId = r.intendedPlan.seatId ∧
          t.classId = r.intendedPlan.classId ∧ t.amountCents ≤ 0

theorem FundingLegs.of_rows (h : FeePlanResolved L plan authority enabled resolved)
    {r : Option LedgerCommandReservation} {activeFeat : String} {legs : List Transaction}
    (hlegs : List.Forall₂ (RowOf feat r) (fundingEffects sha256 resolved.intendedPlan activeFeat
      key resolved.recoveryTransferAmount) legs) : FundingLegs resolved legs := by
  have hin := h.abs_transfer_lt
  have hout : |-resolved.recoveryTransferAmount| < 10 ^ 28 := by simpa using hin
  unfold fundingEffects at hlegs
  dsimp only at hlegs
  split_ifs at hlegs with hzero
  · cases hlegs
    exact .inl ⟨hzero, rfl⟩
  · obtain _ | ⟨hrowOut, hlegs⟩ := hlegs
    obtain _ | ⟨hrowIn, hlegs⟩ := hlegs
    cases hlegs
    refine .inr ⟨_, _, rfl, hrowOut.scope_eq .savings rfl, hrowIn.scope_eq .checking rfl, ?_, ?_⟩
    · exact hrowOut.amount.trans (quantizeCurrency_ofCents hout)
    · exact hrowIn.amount.trans (quantizeCurrency_ofCents hin)

theorem recheckBalances_ok {r : ResolvedLedgerPlan} (h : recheckBalances L r = .ok ()) :
    getAvailableBalances L r.intendedPlan.seatId r.intendedPlan.classId =
      .ok (r.checkingBefore, r.savingsBefore) := by
  rw [recheckBalances, require_bind_eq_ok, bind_eq_ok] at h
  obtain ⟨-, ⟨checking, savings⟩, hread, h⟩ := h
  obtain ⟨rfl, rfl⟩ := require_eq_ok.1 h
  exact hread

theorem idle_of_no_effects {fees : List Effect} (hfees : feeEffects resolved = .ok fees)
    {activeFeat : String} (hnil :
      planEffects sha256 resolved.toResolvedLedgerPlan activeFeat key ++ fees = []) :
    resolved.Idle := by
  obtain ⟨hplan, rfl⟩ := List.append_eq_nil_iff.1 hnil
  obtain ⟨hfunding, hprincipal⟩ := List.append_eq_nil_iff.1 hplan
  refine ⟨?_, ?_, ?_⟩
  · by_contra hne
    simp [hne] at hprincipal
  · by_contra hne
    simp [fundingEffects, hne] at hfunding
  · by_contra hne
    rw [feeEffects, if_neg hne, demand_bind_eq_ok] at hfees
    obtain ⟨actor, -, hfees⟩ := hfees
    cases hfees

/-- An accepted plan is idle, replays its command, or posts its effects on the balances
that it was resolved on. -/
theorem applyResolvedFeePlan_cases
    (h : applyResolvedFeePlan sha256 feat L resolved key = .ok (applied, L')) :
    ∃ fees, feeEffects resolved = .ok fees ∧
      ((applied.created ≠ some true ∧ L' = L ∧
          (resolved.Idle ∨
            CommandReserved L ⟨resolved.intendedPlan.classId, feat.activeFeat, key⟩)) ∨
        (applied.created = some true ∧ getAvailableBalances L resolved.intendedPlan.seatId
            resolved.intendedPlan.classId = .ok (resolved.checkingBefore, resolved.savingsBefore) ∧
          ∃ r rs, Insertions { L with reservations := rs } applied.effects L' ∧
            List.Forall₂ (RowOf feat (some r)) (planEffects sha256 resolved.toResolvedLedgerPlan
              feat.activeFeat key ++ fees) applied.effects)) := by
  rw [applyResolvedFeePlan, bind_eq_ok] at h
  obtain ⟨fees, hfees, h⟩ := h
  refine ⟨fees, hfees, ?_⟩
  dsimp only at h
  split_ifs at h with hnil
  · rw [pure_eq_ok, Prod.mk.injEq] at h
    obtain ⟨rfl, rfl⟩ := h
    exact .inl ⟨by simp, rfl, .inl (idle_of_no_effects hfees hnil)⟩
  · rw [unit_bind_eq_ok] at h
    simp only [bind_eq_ok, Prod.exists, pure_eq_ok, Prod.mk.injEq] at h
    obtain ⟨hfresh, rows, created, L₁, hc, principal, -, fee, -, rfl, rfl⟩ := h
    rcases createReservedEffects_ok hc with ⟨rfl, rfl, r, hr, hid, -⟩ | ⟨rfl, hnew, f, -, hi, hrows⟩
    · exact .inl ⟨by simp, rfl, .inr ⟨r, hr.elim id id, hid⟩⟩
    · refine .inr ⟨rfl, ?_, _, _, hi, hrows⟩
      have hnone : L.reservations.find?
          (·.identity = ⟨resolved.intendedPlan.classId, feat.activeFeat, key⟩) = none := by
        rw [List.find?_eq_none]
        intro r hr
        simpa using hnew r hr
      rw [checkFreshCommand, hnone] at hfresh
      exact recheckBalances_ok hfresh

/-- A command whose identity is new raises where a balance is no longer that of its preview. -/
theorem applyResolvedFeePlan_changed
    (hnew : ¬ CommandReserved L ⟨resolved.intendedPlan.classId, feat.activeFeat, key⟩)
    (hbusy : ¬ resolved.Idle)
    (hchanged : getAvailableBalances L resolved.intendedPlan.seatId
      resolved.intendedPlan.classId ≠ .ok (resolved.checkingBefore, resolved.savingsBefore)) :
    ∃ raised, applyResolvedFeePlan sha256 feat L resolved key = .error raised := by
  cases happly : applyResolvedFeePlan sha256 feat L resolved key with
  | error raised => exact ⟨raised, rfl⟩
  | ok out =>
    obtain ⟨applied, L'⟩ := out
    exfalso
    obtain ⟨fees, hfees, ⟨-, -, hidle | hreserved⟩ | ⟨-, hread, -⟩⟩ :=
      applyResolvedFeePlan_cases happly
    · exact hbusy hidle
    · exact hnew hreserved
    · exact hchanged hread

theorem BalanceInvariant.getAvailableBalances_ok (hb : BalanceInvariant L) {seatId : ℕ}
    {classId : String} {checking savings : ℤ} :
    getAvailableBalances L seatId classId = .ok (checking, savings) ↔
      (classId ≠ "" ∧ seatId ≠ 0) ∧ scopeCents L ⟨classId, seatId, .checking⟩ = checking ∧
        scopeCents L ⟨classId, seatId, .savings⟩ = savings := by
  rw [getAvailableBalances, require_bind_eq_ok, pure_eq_ok, Prod.mk.injEq, hb.getAvailableBalance,
    hb.getAvailableBalance]

theorem planEffects_charges {fees : List Effect}
    (h : FeePlanResolved L plan authority enabled resolved) (hdebit : 0 ≤ plan.debitAmount)
    (hlt : |plan.debitAmount| < 10 ^ 28) (hfees : feeEffects resolved = .ok fees) :
    ∀ e ∈ (if resolved.intendedPlan.debitAmount = 0 then []
        else [principalEffect resolved.intendedPlan]) ++ fees,
      e.seatId = plan.seatId ∧ e.classId = plan.classId ∧ (quantizeCurrency e.amount).value ≤ 0 := by
  intro e he
  rcases List.mem_append.1 he with he | he
  · split_ifs at he
    · cases he
    · obtain rfl := List.mem_singleton.1 he
      have hneg : |-plan.debitAmount| < 10 ^ 28 := by simpa using hlt
      rw [h.intended]
      refine ⟨rfl, rfl, ?_⟩
      rw [principalEffect, quantizeCurrency_ofCents hneg]
      omega
  · unfold feeEffects at hfees
    split_ifs at hfees
    · rw [pure_eq_ok] at hfees
      rw [← hfees] at he
      cases he
    · simp only [bind_eq_ok, demand_eq_ok, pure_eq_ok] at hfees
      obtain ⟨actor, -, rfl⟩ := hfees
      obtain rfl := List.mem_singleton.1 he
      have hneg : |-resolved.overdraftFeeAmount| < 10 ^ 28 := by simpa using h.fee.lt
      rw [h.intended]
      refine ⟨rfl, rfl, ?_⟩
      have hnonneg := h.fee.nonneg
      rw [feeEffect, quantizeCurrency_ofCents hneg]
      omega

theorem FeePlanResolved.apply_posts {L₀ : LedgerState}
    (h : FeePlanResolved L₀ plan authority enabled resolved) (hdebit : 0 ≤ plan.debitAmount)
    (hlt : |plan.debitAmount| < 10 ^ 28) (hb : BalanceInvariant L)
    (happly : applyResolvedFeePlan sha256 feat L resolved key = .ok (applied, L')) :
    FeePlanApplied L feat key resolved applied L' := by
  obtain ⟨fees, hfees, ⟨hcreated, rfl, hwhy⟩ | ⟨hcreated, hread, r, rs, hi, hrows⟩⟩ :=
    applyResolvedFeePlan_cases happly
  · exact ⟨fun _ ↦ ⟨rfl, hwhy⟩, fun hc ↦ absurd hc hcreated⟩
  refine ⟨fun hne ↦ absurd hcreated hne, fun _ ↦ ⟨hread, ?_, ?_⟩⟩
  · have hb₀ : BalanceInvariant { L with reservations := rs } := hb.of_eq rfl rfl
    have hb' : BalanceInvariant L' := hb₀.insertions hi
    have htx : L'.transactions = L.transactions ++ applied.effects := by rw [hi.state]
    have hsum : ∀ scope, scopeCents L' scope = scopeCents L scope +
        (((planEffects sha256 resolved.toResolvedLedgerPlan feat.activeFeat key).map
          (effectCents scope)).sum + (fees.map (effectCents scope)).sum) := by
      intro scope
      rw [scopeCents_append htx, sumOver_rows hrows, List.map_append, List.sum_append]
    rw [h.intended, hb.getAvailableBalances_ok] at hread
    rw [h.intended, hb'.getAvailableBalances_ok]
    obtain ⟨hscope, hchecking, hsavings⟩ := hread
    refine ⟨hscope, ?_, ?_⟩
    · rw [hsum, planEffects_cents h hlt, feeEffects_cents h hfees, hchecking, h.checkingAfter]
      cases plan.sourceAccount <;> simp <;> omega
    · rw [hsum, planEffects_cents h hlt, feeEffects_cents h hfees, hsavings, h.savingsAfter]
      cases plan.sourceAccount <;> simp <;> omega
  · rw [planEffects, List.append_assoc] at hrows
    obtain ⟨legs, charges, heq, hlegs, hcharges⟩ := forall₂_append_inv hrows
    refine ⟨legs, charges, .of_rows h hlegs, heq, by rw [hi.state, heq], ?_⟩
    intro t ht
    obtain ⟨e, he, hrow⟩ := forall₂_exists_left hcharges ht
    obtain ⟨hseat, hclass, hamount⟩ := planEffects_charges h hdebit hlt hfees e he
    rw [hrow.seatId, hrow.classId, hrow.amount, h.intended]
    exact ⟨hseat, hclass, hamount⟩

/-- The Ledger after any run of commands, effects without a reservation and settlements. -/
def reached (sha256 : String → String) (seatClass : ℕ → Option String)
    (actions : List OtherAction) : LedgerState :=
  run (OtherAction.perform sha256) (.empty seatClass) actions

theorem balanceInvariant_reached (seatClass : ℕ → Option String) (actions : List OtherAction) :
    BalanceInvariant (reached sha256 seatClass actions) := by
  have h : Consistent (reached sha256 seatClass actions) :=
    run_invariant (.empty seatClass) (fun _ a hc ↦ (hc.other a).consistent) actions
  exact h.balance

theorem buildIntendedFeePlan_ok {intended : IntendedFeePlan}
    (h : buildIntendedFeePlan plan = .ok intended) :
    0 ≤ intended.debitAmount ∧ |intended.debitAmount| < 10 ^ 28 := by
  simp only [buildIntendedFeePlan, buildIntendedLedgerPlan, bind_eq_ok, pure_eq_ok,
    require_eq_ok] at h
  obtain ⟨p, ⟨-, hnonneg, rfl⟩, rfl⟩ := h
  exact ⟨hnonneg, abs_quantizeCurrency_lt _⟩

/-- A plan resolved on any reachable balances, and applied at any later time. -/
theorem charge_plans_keep_their_word (sha256 : String → String)
    (percentage : Value → Option Decimal) (seatClass : ℕ → Option String)
    (earlier later : List OtherAction) (plan intended : IntendedFeePlan) (directive : FeeDirective)
    (feeAuthority : String) (force : Bool) (resolved : ResolvedFeePlan)
    (hbuild : buildIntendedFeePlan plan = .ok intended)
    (hresolve : resolveIntendedFeePlan percentage (reached sha256 seatClass earlier) intended
      directive feeAuthority force = .ok resolved) :
    let L := reached sha256 seatClass (earlier ++ later)
    (∃ authority, FeeAuthority.ofString feeAuthority = some authority ∧
      FeePlanLaw authority directive.protectionEnabled resolved) ∧
    (∀ feat key applied L', applyResolvedFeePlan sha256 feat L resolved key = .ok (applied, L') →
      FeePlanApplied L feat key resolved applied L') ∧
    ∀ feat key, ¬ CommandReserved L ⟨intended.classId, feat.activeFeat, key⟩ → ¬ resolved.Idle →
      getAvailableBalances L intended.seatId intended.classId ≠
        .ok (resolved.checkingBefore, resolved.savingsBefore) →
      ∃ raised, applyResolvedFeePlan sha256 feat L resolved key = .error raised := by
  obtain ⟨authority, hauthority, h⟩ := resolveIntendedFeePlan_ok hresolve
  obtain ⟨hdebit, hlt⟩ := buildIntendedFeePlan_ok hbuild
  refine ⟨⟨authority, hauthority, h.law⟩, ?_, ?_⟩
  · intro feat key applied L' happly
    exact h.apply_posts hdebit hlt (balanceInvariant_reached _ _) happly
  · intro feat key hnew hbusy hchanged
    rw [← h.intended] at hnew hchanged
    exact applyResolvedFeePlan_changed hnew hbusy hchanged

def sampleCharge : IntendedFeePlan where
  seatId := 1
  classId := "c"
  debitAmount := 1000
  transactionType := "purchase"
  actorSeatId := 1
  targetSeatId := 1
  mechanism := "self"
  feeActorSeatId := some 2

def sampleDirective : FeeDirective where
  classId := "c"
  versionLocator := none
  protectionEnabled := true
  flatFee := some (.ofCents 150)
  progressiveFee := none
  cwi := none
  feePeriodStart := none

theorem charge_plans_keep_their_word_failed :
    ∃ resolved applied L', resolveIntendedFeePlan (fun _ ↦ none)
        (reached id (fun _ ↦ some "c") []) sampleCharge sampleDirective "FAILED_AGREEMENT" false =
          .ok resolved ∧
      resolved.overdraftFeeAmount = 150 ∧ resolved.recoveryTransferAmount = 0 ∧
      applyResolvedFeePlan id sampleFeat (reached id (fun _ ↦ some "c") []) resolved "k" =
        .ok (applied, L') ∧
      FeePlanApplied (reached id (fun _ ↦ some "c") []) sampleFeat "k" resolved applied L' :=
  ⟨_, _, _, rfl, rfl, rfl, rfl,
    (charge_plans_keep_their_word id (fun _ ↦ none) (fun _ ↦ some "c") [] [] sampleCharge
      sampleCharge sampleDirective "FAILED_AGREEMENT" false _ rfl rfl).2.1 _ _ _ _ rfl⟩

/-- The digest of the commands below, which ask for one effect under one intent. -/
def sampleDigest (_ : String) : String := "digest"

/-- Whether a charge is new, the balances that its plan announces on `L₀`, and those that are left
once it has been applied on `L`. -/
def announcedAndLeft (L₀ L : LedgerState) (charge : IntendedFeePlan) (key : String) :
    Except Raise (Option Bool × (ℤ × ℤ) × (ℤ × ℤ)) := do
  let plan ← resolveIntendedFeePlan (fun _ ↦ none) L₀ charge sampleDirective "NONE" false
  let (applied, L') ← applyResolvedFeePlan sampleDigest sampleFeat L plan key
  let left ← getAvailableBalances L' charge.seatId charge.classId
  return (applied.created, (plan.checkingAfter, plan.savingsAfter), left)

/-- The charge of a replayed command is accepted and posts nothing, so the balances are not those
of its plan; and a plan without effects is accepted on balances that have changed. -/
theorem accepted_charge_posts_nothing :
    let L₀ := reached sampleDigest (fun _ ↦ some "c") []
    let L := reached sampleDigest (fun _ ↦ some "c") [.command (.reserved sampleFeat 0
      ⟨"c", sampleFeat.activeFeat, "k"⟩ [principalEffect sampleCharge.toIntendedLedgerPlan] .null)]
    (announcedAndLeft L₀ L₀ sampleCharge "k").toOption =
        some (some true, (-1000, 0), (-1000, 0)) ∧
      (announcedAndLeft L L sampleCharge "k").toOption =
        some (some false, (-2000, 0), (-1000, 0)) ∧
      (announcedAndLeft L₀ L { sampleCharge with debitAmount := 0 } "new").toOption =
        some (none, (0, 0), (-1000, 0)) := by
  decide +kernel

end Runs

end TokenHub.Ledger
