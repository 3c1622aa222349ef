import TokenHub.Ledger.ReversalSteps

set_option autoImplicit false

namespace TokenHub.Ledger

open Lib.Decimals Lib.Checks Lib.Json

variable {sha256 : String → String} {feat : FeatContext} {L L' L'' : LedgerState} {key : String}

section Correlations

/-- The correlation of an effect's row: its own, or else its command's. -/
def Effect.correlationUnder (feat : FeatContext) (e : Effect) : String :=
  match e.correlationId with
  | none => feat.correlationId
  | some c => if c = "" then feat.correlationId else c

theorem createPendingEffect_correlationId {r : Option LedgerCommandReservation} {e : Effect}
    {t : Transaction} (h : createPendingEffect sha256 feat L r e = .ok (t, L')) :
    t.correlationId = e.correlationUnder feat := by
  simp only [createPendingEffect, require_bind_eq_ok, demand_bind_eq_ok] at h
  obtain ⟨-, account, -, -, -, mechanism, -, type, -, h⟩ := h
  simp only [bind_eq_ok, pure_eq_ok, Prod.mk.injEq] at h
  obtain ⟨-, -, -, -, rfl, -⟩ := h
  rfl

theorem createEffects_correlationId {r : LedgerCommandReservation} {es : List Effect}
    {ts : List Transaction} (h : createEffects sha256 feat r L es = .ok (ts, L')) :
    List.Forall₂ (fun e t ↦ t.correlationId = e.correlationUnder feat) es ts := by
  induction es generalizing L ts with
  | nil =>
    simp only [createEffects, pure_eq_ok, Prod.mk.injEq] at h
    rw [← h.1]
    exact .nil
  | cons e es ih =>
    simp only [createEffects, bind_eq_ok, Prod.exists, pure_eq_ok, Prod.mk.injEq] at h
    obtain ⟨t, L₁, ht, ts', L₂, hts, rfl, rfl⟩ := h
    exact .cons (createPendingEffect_correlationId ht) (ih hts)

theorem createReservedEffects_correlationId {id : CommandIdentity} {effects : List Effect}
    {intent : Value} {rows : List Transaction}
    (h : createReservedEffects sha256 feat L L.reservations id effects intent =
      .ok ((rows, true), L')) :
    List.Forall₂ (fun e t ↦ t.correlationId = e.correlationUnder feat) effects rows := by
  simp only [createReservedEffects, require_bind_eq_ok] at h
  obtain ⟨-, h⟩ := h
  simp only [bind_eq_ok] at h
  obtain ⟨-, -, fingerprint, -, h⟩ := h
  split at h
  · simp only [bind_eq_ok, pure_eq_ok, Prod.mk.injEq] at h
    obtain ⟨rows', -, ⟨-, habsurd⟩, -⟩ := h
    cases habsurd
  · simp only [bind_eq_ok, pure_eq_ok, Prod.mk.injEq, Prod.exists] at h
    obtain ⟨rows', L₁, hc, ⟨rfl, -⟩, -⟩ := h
    exact createEffects_correlationId hc

end Correlations

section Readback

theorem LedgerMechanism.value_of_ofString {s : String} {m : LedgerMechanism}
    (h : ofString s = some m) : m.value = s := by
  unfold ofString at h
  split_ifs at h with h₁ h₂ h₃ <;> simp_all [LedgerMechanism.value, eq_comm]

theorem TransactionType.value_of_ofString {s : String} {t : TransactionType}
    (h : ofString s = some t) : t.value = s := by
  simpa using List.find?_some h

theorem parseTransactionType_value {type : Option String} {t : Option TransactionType}
    (h : parseTransactionType type = some t) : t.map (·.value) = type := by
  cases type with
  | none =>
    rw [← Option.some.inj h]
    rfl
  | some s =>
    obtain ⟨u, hu, rfl⟩ := Option.map_eq_some_iff.1 h
    exact congrArg some (TransactionType.value_of_ofString hu)

/-- A row reads back as the effect that it was written from, with its correlation filled in. -/
theorem RowOf.toEffect_eq {r : Option LedgerCommandReservation} {e : Effect} {t : Transaction}
    (h : RowOf feat r e t) {cents : ℤ} (hamount : e.amount = some (.ofCents cents))
    (hsmall : |cents| < 10 ^ 28) :
    t.toEffect = { e with correlationId := some t.correlationId } := by
  have hcents : t.amountCents = cents := by
    rw [h.amount, hamount]
    exact quantizeCurrency_ofCents hsmall
  simp only [Transaction.toEffect, h.classId, h.seatId, h.targetSeatId, h.actorSeatId, hcents,
    ← hamount, LedgerMechanism.value_of_ofString h.mechanism,
    AccountType.value_of_ofString h.accountType, parseTransactionType_value h.type,
    h.originalTransactionId, h.policyId, h.compensationSubtype, h.compensationOriginLocator,
    h.compensationAmountCents, h.correctionIntentLocator]

theorem effectFields_of_correlation (e : Effect) (c : Option String) (version : ℕ) :
    effectFields { e with correlationId := c } version = effectFields e version := rfl

theorem replayFingerprint_of_rows {effects : List Effect} {rows : List Transaction}
    {intent : Value} {fingerprint : String}
    (hrows : List.Forall₂ (fun e t ↦ t.toEffect = { e with correlationId := some t.correlationId })
      effects rows)
    (h : replayFingerprint sha256 effects fingerprintVersion intent = .ok fingerprint) :
    replayFingerprint sha256 (rows.map Transaction.toEffect) fingerprintVersion intent =
      .ok fingerprint := by
  obtain ⟨fields, hfields, rfl⟩ := replayFingerprint_ok.1 h
  refine replayFingerprint_ok.2 ⟨fields, ?_, rfl⟩
  clear h
  induction hrows generalizing fields with
  | nil => exact hfields
  | cons hrow _ ih =>
    obtain _ | ⟨hfield, hfields⟩ := hfields
    refine .cons ?_ (ih _ hfields)
    rw [hrow, effectFields_of_correlation]
    exact hfield

end Readback

section Replay

variable {resolved : ResolvedLedgerPlan} {transfers : List Transaction} {debit : Transaction}
  {r : LedgerCommandReservation}

theorem ChargePosted.debit_amount (h : ChargePosted sha256 feat L resolved key transfers debit r L')
    (hsmall : |resolved.intendedPlan.debitAmount| < 10 ^ 28) :
    debit.amountCents = -resolved.intendedPlan.debitAmount := by
  rw [h.debitOf.amount]
  exact quantizeCurrency_ofCents (by simpa using hsmall)

theorem ChargePosted.reads_back (h : ChargePosted sha256 feat L resolved key transfers debit r L')
    (hdebit : |resolved.intendedPlan.debitAmount| < 10 ^ 28)
    (htransfer : |resolved.recoveryTransferAmount| < 10 ^ 28) :
    List.Forall₂ (fun e t ↦ t.toEffect = { e with correlationId := some t.correlationId })
      (fundingEffects sha256 resolved.intendedPlan feat.activeFeat key
        resolved.recoveryTransferAmount ++ [principalEffect resolved.intendedPlan])
      (transfers ++ [debit]) := by
  have hlast : debit.toEffect = { principalEffect resolved.intendedPlan with
      correlationId := some debit.correlationId } :=
    h.debitOf.toEffect_eq rfl (by simpa using hdebit)
  have hto := h.transfersOf
  unfold fundingEffects at hto ⊢
  simp only at hto ⊢
  split_ifs at hto ⊢ with hzero
  · cases hto
    exact .cons hlast .nil
  · obtain _ | ⟨hout, hto⟩ := hto
    obtain _ | ⟨hin, hto⟩ := hto
    cases hto
    exact .cons (hout.toEffect_eq rfl (by simpa using htransfer))
      (.cons (hin.toEffect_eq rfl htransfer) (.cons hlast .nil))

theorem ChargePosted.fingerprint_rows
    (h : ChargePosted sha256 feat L resolved key transfers debit r L')
    (hpos : 0 < resolved.intendedPlan.debitAmount)
    (hdebit : |resolved.intendedPlan.debitAmount| < 10 ^ 28)
    (htransfer : |resolved.recoveryTransferAmount| < 10 ^ 28) :
    replayFingerprint sha256 ((transfers ++ [debit]).map Transaction.toEffect) fingerprintVersion
      resolved.intendedPlan.canonicalIntent = .ok r.replayFingerprint := by
  refine replayFingerprint_of_rows (h.reads_back hdebit htransfer) ?_
  have hfingerprint := h.owns.fingerprint
  simpa only [chargeCall, CommandCall.effects, CommandCall.canonicalIntent, planEffects,
    if_neg hpos.ne'] using hfingerprint

/-- A posted charge is replayed, by the debit that it wrote, for as long as its rows are kept. -/
theorem ChargePosted.replays (h : ChargePosted sha256 feat L resolved key transfers debit r L')
    (hkept : LedgerGrows sha256 L' L'') {type : TransactionType}
    (hother : type ≠ .legacyWithdrawal ∧ type ≠ .legacyDeposit)
    (htype : resolved.intendedPlan.transactionType = type.value)
    (hsource : resolved.intendedPlan.sourceAccount = .checking)
    (hpos : 0 < resolved.intendedPlan.debitAmount)
    (hdebit : |resolved.intendedPlan.debitAmount| < 10 ^ 28)
    (htransfer : |resolved.recoveryTransferAmount| < 10 ^ 28) :
    replayReservedCharge sha256 L'' ⟨resolved.intendedPlan.classId, feat.activeFeat, key⟩
      resolved.intendedPlan.seatId resolved.intendedPlan.actorSeatId type
      resolved.intendedPlan.canonicalIntent = .ok (some debit) := by
  obtain ⟨hmem, hrows⟩ := hkept.kept r h.owns.mem
  rw [h.owns.rows_eq] at hrows
  have hfind := hkept.sound.commands.find_owner hmem h.owns.identity
  have hdebitType : debit.type = some type := by
    have hparsed := h.debitOf.type
    simp only [principalEffect, htype, parseTransactionType, TransactionType.ofString_value,
      Option.map_some, Option.some.injEq] at hparsed
    exact hparsed.symm
  have hprincipal : isPrincipal type debit = true := by
    have haccount := h.debitOf.accountType
    simp only [principalEffect, hsource, AccountType.ofString_value, Option.some.injEq] at haccount
    have hamount := h.debit_amount hdebit
    rw [isPrincipal, decide_eq_true_eq]
    exact ⟨hdebitType, by omega, haccount.symm⟩
  have hfilter : (transfers ++ [debit]).filter (isPrincipal type) = [debit] := by
    have hnone : transfers.filter (isPrincipal type) = [] := by
      rw [List.filter_eq_nil_iff]
      intro t ht hp
      rw [isPrincipal, decide_eq_true_eq] at hp
      rcases funding_type h.transfersOf ht with hleg | hleg
      · exact hother.1 (Option.some.inj (hp.1.symm.trans hleg))
      · exact hother.2 (Option.some.inj (hp.1.symm.trans hleg))
    rw [List.filter_append, hnone, List.nil_append, List.filter_cons_of_pos hprincipal,
      List.filter_nil]
  have hmatches : assertReplayMatches sha256 r ((transfers ++ [debit]).map Transaction.toEffect)
      resolved.intendedPlan.canonicalIntent = .ok () := by
    rw [assertReplayMatches_ok h.owns.version]
    exact h.fingerprint_rows hpos hdebit htransfer
  have hid : (⟨resolved.intendedPlan.classId, feat.activeFeat, key⟩ : CommandIdentity) =
      (chargeCall sha256 feat L resolved key).identity := rfl
  have hseat : debit.seatId = resolved.intendedPlan.seatId ∧
      debit.actorSeatId = resolved.intendedPlan.actorSeatId :=
    ⟨h.debitOf.seatId, h.debitOf.actorSeatId⟩
  unfold replayReservedCharge
  simp only [hid, hfind, hrows, hfilter]
  rw [require_of hseat, ok_bind, hmatches]
  rfl

theorem replayReservedCharge_grows {id : CommandIdentity} {seatId actorSeatId : ℕ}
    {type : TransactionType} {intent : Value} (hg : LedgerGrows sha256 L L')
    (h : replayReservedCharge sha256 L id seatId actorSeatId type intent = .ok (some debit)) :
    replayReservedCharge sha256 L' id seatId actorSeatId type intent = .ok (some debit) := by
  obtain ⟨r, hr, -, -⟩ := replayReservedCharge_some h
  obtain ⟨hmem, hrows⟩ := hg.kept r (List.mem_of_find?_eq_some hr)
  have hid : r.identity = id := by simpa using List.find?_some hr
  unfold replayReservedCharge at h ⊢
  simp only [hr] at h
  simpa only [hg.sound.commands.find_owner hmem hid, hrows] using h

end Replay

end TokenHub.Ledger
