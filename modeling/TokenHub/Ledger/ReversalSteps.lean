import TokenHub.Ledger.Elsewhere

set_option autoImplicit false

namespace TokenHub.Ledger

open Lib.Checks Lib.Json

/-- Rows added at the end, each of which satisfies `P`. -/
def Adds (P : Transaction → Prop) (L L' : LedgerState) : Prop :=
  ∃ rows, L'.transactions = L.transactions ++ rows ∧ ∀ u ∈ rows, P u

variable {sha256 : String → String} {feat : FeatContext} {P Q : Transaction → Prop}
  {L L' L'' : LedgerState}

section Adding

theorem Adds.refl (L : LedgerState) : Adds P L L := ⟨[], by simp, by simp⟩

theorem Adds.mono (h : Adds P L L') (hPQ : ∀ u, P u → Q u) : Adds Q L L' := by
  obtain ⟨rows, hrows, hP⟩ := h
  exact ⟨rows, hrows, fun u hu ↦ hPQ u (hP u hu)⟩

theorem Adds.subset (h : Adds P L L') : L.transactions ⊆ L'.transactions := by
  obtain ⟨rows, hrows, -⟩ := h
  rw [hrows]
  exact List.subset_append_left _ _

theorem Adds.mem (h : Adds P L L') {u : Transaction} (hu : u ∈ L'.transactions) :
    u ∈ L.transactions ∨ P u := by
  obtain ⟨rows, hrows, hP⟩ := h
  rw [hrows] at hu
  exact (List.mem_append.1 hu).imp id (hP u)

theorem Adds.reserved {id : CommandIdentity} {effects : List Effect} {intent : Value}
    {rows : List Transaction} {created : Bool}
    (heffects : ∀ e ∈ effects, ∀ r t, RowOf feat r e t → P t)
    (h : createReservedEffects sha256 feat L L.reservations id effects intent =
      .ok ((rows, created), L')) : Adds P L L' := by
  rcases createReservedEffects_ok h with ⟨-, rfl, -⟩ | ⟨-, -, f, -, hi, hrows⟩
  · exact .refl L'
  · refine ⟨rows, by rw [hi.state], fun u hu ↦ ?_⟩
    obtain ⟨e, he, hrow⟩ := forall₂_exists_left hrows hu
    exact heffects e he _ u hrow

theorem Adds.idempotent {key : String} {e : Effect} {rows : List Transaction} {created : Bool}
    (heffect : ∀ r t, RowOf feat r e t → P t)
    (h : createIdempotentTransaction sha256 feat L L.reservations key e =
      .ok ((rows, created), L')) : Adds P L L' := by
  simp only [createIdempotentTransaction, unit_bind_eq_ok] at h
  refine .reserved (fun e' he ↦ ?_) h.2.2.2
  rw [List.mem_singleton.1 he]
  exact heffect

end Adding

section Reversal

def isReversalRow (u : Transaction) : Prop :=
  u.type = some .legacyReversal ∨ u.type = some .legacyWithdrawal ∨ u.type = some .legacyDeposit

theorem isReversalRow_of_effect {r : Option LedgerCommandReservation} {e : Effect}
    {u : Transaction} (hrow : RowOf feat r e u)
    (he : e.type = some "REVERSAL" ∨ e.type = some "Withdrawal" ∨ e.type = some "Deposit") :
    isReversalRow u := by
  have htype := hrow.type
  rcases he with he | he | he
  · rw [he] at htype
    exact .inl (Option.some.inj htype).symm
  · rw [he] at htype
    exact .inr (.inl (Option.some.inj htype).symm)
  · rw [he] at htype
    exact .inr (.inr (Option.some.inj htype).symm)

theorem mem_planEffects_type {resolved : ResolvedLedgerPlan} {activeFeat key : String} {e : Effect}
    (he : e ∈ planEffects sha256 resolved activeFeat key) :
    e.type = some resolved.intendedPlan.transactionType ∨ e.type = some "Withdrawal" ∨
      e.type = some "Deposit" := by
  rcases List.mem_append.1 he with he | he
  · unfold fundingEffects at he
    simp only at he
    split_ifs at he
    · cases he
    · rcases List.mem_cons.1 he with rfl | he
      · exact .inr (.inl rfl)
      · rw [List.mem_singleton.1 he]
        exact .inr (.inr rfl)
  · split_ifs at he
    · cases he
    · rw [List.mem_singleton.1 he]
      exact .inl rfl

theorem resolveIntendedLedgerPlan_plan {plan : IntendedLedgerPlan} {directive : BankingDirective}
    {resolved : ResolvedLedgerPlan}
    (h : resolveIntendedLedgerPlan L plan directive = .ok resolved) :
    resolved.intendedPlan = plan := by
  rw [resolveIntendedLedgerPlan, require_bind_eq_ok, bind_eq_ok] at h
  obtain ⟨-, ⟨checking, savings⟩, -, h⟩ := h
  cases hsource : plan.sourceAccount with
  | savings =>
    simp only [hsource, pure_eq_ok] at h
    rw [← h]
  | checking =>
    simp only [hsource, pure_eq_ok] at h
    rw [← h]

theorem reverseCredit_adds {q : ReversalRequest} {row : Option Transaction}
    (h : reverseCredit sha256 feat L q = .ok (row, L')) : Adds isReversalRow L L' := by
  simp only [reverseCredit, bind_eq_ok, pure_eq_ok, Prod.exists, Prod.mk.injEq] at h
  obtain ⟨plan, hplan, applied, L₁, happly, -, rfl⟩ := h
  rw [resolveReversal, demand_bind_eq_ok] at hplan
  obtain ⟨directive, -, hplan⟩ := hplan
  have htype : plan.resolvedPlan.intendedPlan.transactionType = "REVERSAL" := by
    simp only [resolveCreditRecovery, require_bind_eq_ok, demand_bind_eq_ok] at hplan
    obtain ⟨-, o, -, hplan⟩ := hplan
    simp only [bind_eq_ok, pure_eq_ok] at hplan
    obtain ⟨allocated, -, -, -, intended, hbuild, resolved, hresolve, hplan⟩ := hplan
    rw [← hplan, resolveIntendedLedgerPlan_plan hresolve]
    rw [buildIntendedLedgerPlan, require_bind_eq_ok, pure_eq_ok] at hbuild
    rw [← hbuild.2]
    rfl
  simp only [applyCreditRecovery, demand_bind_eq_ok, unit_bind_eq_ok] at happly
  obtain ⟨o, -, -, -, -, happly⟩ := happly
  rw [bind_eq_ok] at happly
  obtain ⟨balances, -, happly⟩ := happly
  rw [unit_bind_eq_ok] at happly
  rcases applyResolvedLedgerPlan_ok happly.2 with ⟨-, -, rfl⟩ | ⟨created, -, hcreated⟩
  · exact .refl L₁
  · refine .reserved (fun e he r t hrow ↦ isReversalRow_of_effect hrow ?_) hcreated
    rw [← htype]
    exact mem_planEffects_type he

theorem reverseTransaction_adds {q : ReversalRequest} {row : Option Transaction}
    (h : reverseTransaction sha256 feat L q = .ok (row, L')) : Adds isReversalRow L L' := by
  simp only [reverseTransaction, unit_bind_eq_ok] at h
  obtain ⟨-, -, -, -, -, -, h⟩ := h
  split at h
  · simp only [unit_bind_eq_ok] at h
    obtain ⟨-, -, h⟩ := h
    simp only [bind_eq_ok, pure_eq_ok, Prod.mk.injEq] at h
    obtain ⟨principal, -, -, rfl⟩ := h
    exact .refl L
  · split_ifs at h
    · exact reverseCredit_adds h
    · simp only [bind_eq_ok, pure_eq_ok, Prod.exists, Prod.mk.injEq] at h
      obtain ⟨rows, created, L₁, hc, -, rfl⟩ := h
      exact .idempotent (fun r t hrow ↦ isReversalRow_of_effect hrow (.inl rfl)) hc

end Reversal

end TokenHub.Ledger
