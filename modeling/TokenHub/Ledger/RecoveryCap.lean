import TokenHub.Ledger.BalanceRuns
import TokenHub.Ledger.CommandRuns
import TokenHub.Ledger.Recovery
import Mathlib.Algebra.Order.BigOperators.Group.List

set_option autoImplicit false

namespace TokenHub.Ledger

open Lib.Decimals Lib.Checks Lib.Json Lib.SequencedLog

def rowsNaming (L : LedgerState) (locator : String) : List Transaction :=
  L.transactions.filter (·.compensationOriginLocator = some locator)

def recoveredCents (L : LedgerState) (locator : String) : ℤ :=
  ((rowsNaming L locator).map (·.compensationAmountCents)).sum

theorem originLocator_ne_empty (n : ℕ) : ledgerOriginLocator n ≠ "" := by
  intro h
  have := congrArg (fun s : String ↦ s.toList.length) h
  simp [ledgerOriginLocator] at this

variable {sha256 : String → String}

structure RowsNumbered (L : LedgerState) : Prop where
  increasing : L.transactions.Pairwise (fun t u ↦ t.id < u.id)
  bounded : ∀ t ∈ L.transactions, t.id ≤ L.transactions.length

theorem RowsNumbered.unique {L : LedgerState} (h : RowsNumbered L) {t u : Transaction}
    (ht : t ∈ L.transactions) (hu : u ∈ L.transactions) (he : t.id = u.id) : t = u := by
  by_contra hne
  have hdistinct : L.transactions.Pairwise (fun t u ↦ t.id ≠ u.id) :=
    h.increasing.imp (fun hlt ↦ hlt.ne)
  have : Std.Symm (fun t u : Transaction ↦ t.id ≠ u.id) := ⟨fun _ _ hxy hyx ↦ hxy hyx.symm⟩
  exact hdistinct.forall ht hu hne he

theorem RowsNumbered.insert {L L' : LedgerState} {t : Transaction} (h : RowsNumbered L)
    (hi : Inserted L t L') : RowsNumbered L' := by
  have htx : L'.transactions = L.transactions ++ [t] := by rw [hi.state]
  refine ⟨?_, ?_⟩
  · rw [htx]
    refine List.pairwise_append.2 ⟨h.increasing, List.pairwise_singleton _ _, ?_⟩
    intro u hu v hv
    rw [List.mem_singleton.1 hv, hi.id]
    exact Nat.lt_succ_of_le (h.bounded u hu)
  · rw [htx, List.length_append, List.length_singleton]
    intro u hu
    rcases List.mem_append.1 hu with hu | hu
    · exact (h.bounded u hu).trans (Nat.le_succ _)
    · rw [List.mem_singleton.1 hu, hi.id]

/-- Row `t` recovers the credit of id `n`: a debit of the credit's own account by exactly what it
claims to recover. -/
def RecoversCredit (L : LedgerState) (t : Transaction) (n : ℕ) : Prop :=
  ∃ credit ∈ L.transactions, credit.id = n ∧ 0 < credit.amountCents ∧
    credit.seatId = credit.targetSeatId ∧ t.scope = credit.scope ∧
    t.targetSeatId = credit.targetSeatId ∧ 0 < t.compensationAmountCents ∧
    t.amountCents = -t.compensationAmountCents

theorem RecoversCredit.insert {L L' : LedgerState} {t u : Transaction} {n : ℕ}
    (h : RecoversCredit L u n) (hi : Inserted L t L') : RecoversCredit L' u n := by
  obtain ⟨credit, hc, h⟩ := h
  exact ⟨credit, by rw [hi.state]; exact List.mem_append_left _ hc, h⟩

structure CreditsCapped (L : LedgerState) : Prop where
  numbered : RowsNumbered L
  named : ∀ t ∈ L.transactions, ∀ n,
    t.compensationOriginLocator = some (ledgerOriginLocator n) → RecoversCredit L t n
  capped : ∀ credit ∈ L.transactions, 0 < credit.amountCents →
    recoveredCents L (ledgerOriginLocator credit.id) ≤ credit.amountCents
  intents : ∀ n, (rowsNaming L (ledgerOriginLocator n)).Pairwise
    (fun t u ↦ t.correctionIntentLocator ≠ u.correctionIntentLocator)

theorem CreditsCapped.empty (seatClass : ℕ → Option String) :
    CreditsCapped (.empty seatClass) where
  numbered := ⟨.nil, by simp [LedgerState.empty]⟩
  named := by simp [LedgerState.empty]
  capped := by simp [LedgerState.empty]
  intents := fun _ ↦ .nil

section Insertion

variable {L L' : LedgerState} {t : Transaction}

theorem rowsNaming_insert (hi : Inserted L t L') (locator : String) :
    rowsNaming L' locator = rowsNaming L locator ++
      if t.compensationOriginLocator = some locator then [t] else [] := by
  unfold rowsNaming
  rw [hi.state, List.filter_append]
  split_ifs with h <;> simp [h]

theorem recoveredCents_insert (hi : Inserted L t L') (locator : String) :
    recoveredCents L' locator = recoveredCents L locator +
      if t.compensationOriginLocator = some locator then t.compensationAmountCents else 0 := by
  unfold recoveredCents
  rw [rowsNaming_insert hi]
  split_ifs with h <;> simp

theorem CreditsCapped.rowsNaming_of_absent (h : CreditsCapped L) {n : ℕ}
    (hn : ∀ credit ∈ L.transactions, credit.id ≠ n) :
    rowsNaming L (ledgerOriginLocator n) = [] := by
  unfold rowsNaming
  rw [List.filter_eq_nil_iff]
  intro t ht hloc
  obtain ⟨credit, hc, hid, -⟩ := h.named t ht n (by simpa using hloc)
  exact hn credit hc hid

/-- The one step of the invariant: a new row either names no credit, or recovers one within
what is left of it. -/
theorem CreditsCapped.insert (h : CreditsCapped L) (hi : Inserted L t L')
    (ht : ∀ n, t.compensationOriginLocator = some (ledgerOriginLocator n) →
      RecoversCredit L t n ∧ ∀ credit ∈ L.transactions, credit.id = n →
        recoveredCents L (ledgerOriginLocator n) + t.compensationAmountCents ≤
          credit.amountCents) : CreditsCapped L' := by
  have htx : L'.transactions = L.transactions ++ [t] := by rw [hi.state]
  refine ⟨h.numbered.insert hi, ?_, ?_, ?_⟩
  · rw [htx]
    intro u hu n hloc
    rcases List.mem_append.1 hu with hu | hu
    · exact (h.named u hu n hloc).insert hi
    · obtain rfl := List.mem_singleton.1 hu
      exact (ht n hloc).1.insert hi
  · rw [htx]
    intro credit hc hpos
    rw [recoveredCents_insert hi]
    rcases List.mem_append.1 hc with hc | hc
    · split_ifs with hloc
      · exact (ht _ hloc).2 credit hc rfl
      · rw [add_zero]
        exact h.capped credit hc hpos
    · -- the new row's own locator is not named yet
      obtain rfl := List.mem_singleton.1 hc
      have habsent : ∀ u ∈ L.transactions, u.id ≠ credit.id := by
        intro u hu he
        have := h.numbered.bounded u hu
        rw [he, hi.id] at this
        omega
      rw [recoveredCents, h.rowsNaming_of_absent habsent, if_neg]
      · simpa using hpos.le
      · intro hloc
        obtain ⟨u, hu, hid, -⟩ := (ht _ hloc).1
        exact habsent u hu hid
  · intro n
    rw [rowsNaming_insert hi]
    split_ifs with hloc
    · refine List.pairwise_append.2 ⟨h.intents n, List.pairwise_singleton _ _, ?_⟩
      intro u hu v hv heq
      obtain rfl := List.mem_singleton.1 hv
      obtain ⟨humem, huloc⟩ := List.mem_filter.1 hu
      simp only [decide_eq_true_eq] at huloc
      obtain ⟨c, hc, hcid, -, -, hus, hut, hupos, -⟩ := h.named u humem n huloc
      obtain ⟨c', hc', hcid', -, -, hvs, hvt, hvpos, -⟩ := (ht n hloc).1
      obtain rfl := h.numbered.unique hc hc' (hcid.trans hcid'.symm)
      have hclass : u.classId = v.classId := congrArg Scope.classId (hus.trans hvs.symm)
      exact hi.intent u humem ⟨hupos, hvpos, hclass, hut.trans hvt.symm,
        huloc.trans hloc.symm, heq⟩
    · rw [List.append_nil]
      exact h.intents n

theorem Inserted.not_naming (hi : Inserted L t L') (h0 : t.compensationAmountCents = 0) (n : ℕ) :
    t.compensationOriginLocator ≠ some (ledgerOriginLocator n) := by
  intro hloc
  have := (hi.lineage h0).1
  rw [hloc, Option.getD_some] at this
  exact originLocator_ne_empty n this

/-- Rows that recover nothing name no credit and keep the invariant. -/
theorem CreditsCapped.insertions {ts : List Transaction} (h : CreditsCapped L)
    (hi : Insertions L ts L') (h0 : ∀ t ∈ ts, t.compensationAmountCents = 0) :
    CreditsCapped L' ∧
      ∀ n, rowsNaming L' (ledgerOriginLocator n) = rowsNaming L (ledgerOriginLocator n) := by
  induction hi with
  | nil => exact ⟨h, fun _ ↦ rfl⟩
  | @cons L₀ L₁ L₂ t ts hins _ ih =>
    have hnot := hins.not_naming (h0 t (by simp))
    obtain ⟨hc, hrows⟩ := ih (h.insert hins (fun n hloc ↦ absurd hloc (hnot n)))
      (fun u hu ↦ h0 u (by simp [hu]))
    refine ⟨hc, fun n ↦ ?_⟩
    rw [hrows n, rowsNaming_insert hins, if_neg (hnot n), List.append_nil]

theorem CreditsCapped.of_eq (h : CreditsCapped L) (ht : L'.transactions = L.transactions) :
    CreditsCapped L' := by
  obtain ⟨⟨hinc, hb⟩, hnamed, hcap, hint⟩ := h
  refine ⟨⟨by rw [ht]; exact hinc, by rw [ht]; exact hb⟩, ?_, ?_, ?_⟩
  · simpa only [ht, RecoversCredit] using hnamed
  · simpa only [ht, recoveredCents, rowsNaming] using hcap
  · simpa only [ht, rowsNaming] using hint

end Insertion

section Plans

variable {L L' : LedgerState}

theorem sumRecoveries_eq {original : Transaction} {target : ℕ} {confirms : Transaction → Bool}
    {intents : List String} {ts : List Transaction} {n : ℤ}
    (h : sumRecoveries original target confirms intents ts = some n) :
    n = (ts.map (·.compensationAmountCents)).sum ∧ ∀ t ∈ ts, 0 < t.compensationAmountCents := by
  induction ts generalizing intents n with
  | nil => simpa [sumRecoveries, eq_comm] using h
  | cons t ts ih =>
    simp only [sumRecoveries] at h
    split_ifs at h with hv
    obtain ⟨m, hm, rfl⟩ := Option.map_eq_some_iff.1 h
    obtain ⟨rfl, hpos⟩ := ih hm
    refine ⟨by simp, ?_⟩
    intro u hu
    rcases List.mem_cons.1 hu with rfl | hu
    · exact hv.2.2.1
    · exact hpos u hu

/-- What a proof says about the credit it was taken of. -/
structure Proves (L : LedgerState) (proof : CreditCompensationProof) (original : Transaction) :
    Prop where
  mem : original ∈ L.transactions
  source : proof.original = some original
  locator : proof.originLocator = ledgerOriginLocator original.id
  positive : 0 < original.amountCents
  seats : original.seatId = original.targetSeatId
  cents : proof.originalCents = original.amountCents
  remaining : proof.remainingCents = original.amountCents - proof.recoveredCents
  nonneg : 0 ≤ proof.remainingCents ∧ 0 ≤ proof.recoveredCents
  material : ∃ m, proof.material = some m ∧
    proof.recoveredCents = (m.identities.map (·.2.2.1)).sum

theorem Proves.mono {proof : CreditCompensationProof} {original : Transaction}
    (h : Proves L proof original) (hsub : L.transactions ⊆ L'.transactions) :
    Proves L' proof original :=
  { h with mem := hsub h.mem }

theorem findOrigin_some {classId : String} {target : ℕ} {locator : String}
    {original : Transaction} (h : findOrigin L classId target locator = some original) :
    original ∈ L.transactions ∧ locator = ledgerOriginLocator original.id ∧
      original.classId = classId ∧ original.seatId = target ∧ original.targetSeatId = target := by
  unfold findOrigin at h
  split at h
  · cases h
  · next n hn =>
    obtain ⟨hid, hc, hs, ht⟩ := by simpa using List.find?_some h
    exact ⟨List.mem_of_find?_eq_some h, by rw [hid]; exact eq_originLocator hn, hc, hs, ht⟩

/-- A proof that is not refused speaks of a positive credit of the scope, and counts the rows
that recover it. -/
theorem getCreditCompensationProof_spec {classId : String} {target : ℕ} {locator : String}
    {boundary : Option ℤ} {evidence : CreationEvidence}
    (h : (getCreditCompensationProof L classId target locator boundary evidence).status ≠
      .unavailable) :
    ∃ original, findOrigin L classId target locator = some original ∧
      Proves L (getCreditCompensationProof L classId target locator boundary evidence) original ∧
      (∀ t ∈ recoveryRows L classId target locator, 0 < t.compensationAmountCents) ∧
      (getCreditCompensationProof L classId target locator boundary evidence).recoveredCents =
        ((recoveryRows L classId target locator).map (·.compensationAmountCents)).sum ∧
      ∃ sequence,
        (getCreditCompensationProof L classId target locator boundary evidence).material =
          some ⟨locator, original.id, original.amountCents, sequence,
            (recoveryRows L classId target locator).map (·.identity)⟩ := by
  generalize hp : getCreditCompensationProof L classId target locator boundary evidence = proof
    at h
  unfold getCreditCompensationProof at hp
  simp only at hp
  split at hp
  · subst hp; exact absurd rfl h
  split at hp
  · subst hp; exact absurd rfl h
  next original ho =>
  obtain ⟨hmem, hloc, hc, hs, ht⟩ := findOrigin_some ho
  split at hp
  · next b sequence _ =>
    split at hp
    · subst hp; exact absurd rfl h
    next hpos =>
    split at hp
    · subst hp; exact absurd rfl h
    next recovered hrec =>
    split at hp
    · subst hp; exact absurd rfl h
    next hle =>
    obtain ⟨hsum, hall⟩ := sumRecoveries_eq hrec
    have hnn : 0 ≤ recovered := by
      rw [hsum]
      refine List.sum_nonneg ?_
      intro x hx
      obtain ⟨t, ht, rfl⟩ := List.mem_map.1 hx
      exact (hall t ht).le
    subst hp
    refine ⟨original, ho, ⟨hmem, rfl, hloc, by omega, hs.trans ht.symm, rfl, rfl,
      ⟨by simp only; omega, hnn⟩, _, rfl, ?_⟩, hall, hsum, sequence, rfl⟩
    rw [hsum, List.map_map]
    rfl
  · subst hp; exact absurd rfl h

structure PlanOf (L : LedgerState) (p : CreditRecoveryPlan) (original : Transaction) : Prop where
  proves : Proves L p.proof original
  bounds : 0 ≤ p.allocatedCents ∧ p.allocatedCents ≤ p.proof.remainingCents
  intended : ∃ actor mechanism compensationType, p.resolvedPlan.intendedPlan =
    recoveryIntendedPlan p.proof original p.recoveryKind p.correctionIntentLocator
      p.allocatedCents actor mechanism compensationType
  intent : p.correctionIntentLocator ≠ ""
  residual : p.recoveryKind = .residual → p.allocatedCents = p.proof.remainingCents
  exact : p.recoveryKind = .exactReversal →
    p.proof.recoveredCents = 0 ∧ p.allocatedCents = p.proof.remainingCents

theorem PlanOf.mono {p : CreditRecoveryPlan} {original : Transaction}
    (h : PlanOf L p original) (hsub : L.transactions ⊆ L'.transactions) :
    PlanOf L' p original :=
  { h with proves := h.proves.mono hsub }

theorem allocateRecovery_ok {proof : CreditCompensationProof} {original : Transaction}
    {kind : RecoveryKind} {allocation : Option AllocationProof} {allocated : ℤ}
    (hp : Proves L proof original)
    (h : allocateRecovery proof original kind allocation = .ok allocated) :
    (0 ≤ allocated ∧ allocated ≤ proof.remainingCents) ∧
      (kind = .residual → allocated = proof.remainingCents) ∧
      (kind = .exactReversal →
        proof.recoveredCents = 0 ∧ allocated = proof.remainingCents) := by
  have hnn := hp.nonneg.1
  cases kind with
  | interval =>
    simp only [allocateRecovery, demand_bind_eq_ok, require_bind_eq_ok] at h
    obtain ⟨a, -, -, b, -, hb, h⟩ := h
    refine ⟨?_, by simp, by simp⟩
    split_ifs at h with hz
    · simp only [pure_eq_ok] at h
      omega
    · simp only [require_bind_eq_ok, pure_eq_ok] at h
      omega
  | residual =>
    simp only [allocateRecovery, pure_eq_ok] at h
    subst h
    exact ⟨⟨hnn, le_refl _⟩, fun _ ↦ rfl, by simp⟩
  | exactReversal =>
    simp only [allocateRecovery, require_bind_eq_ok, pure_eq_ok] at h
    obtain ⟨hz, rfl⟩ := h
    have hc := hp.cents
    have hr := hp.remaining
    exact ⟨⟨by omega, by omega⟩, by simp, fun _ ↦ ⟨hz, by omega⟩⟩

theorem resolveCreditRecovery_ok {proof : CreditCompensationProof} {kind : RecoveryKind}
    {intent : String} {directive : BankingDirective} {actor : ℕ} {mechanism : String}
    {allocation : Option AllocationProof} {compensationType : Option String}
    {p : CreditRecoveryPlan} {original : Transaction} (hrows : RowsWellFormed L.transactions)
    (hp : Proves L proof original)
    (h : resolveCreditRecovery L proof kind intent directive actor mechanism allocation
      compensationType = .ok p) : PlanOf L p original ∧ p.proof = proof ∧ p.recoveryKind = kind := by
  simp only [resolveCreditRecovery, require_bind_eq_ok, demand_bind_eq_ok] at h
  obtain ⟨-, o, ho, h⟩ := h
  obtain rfl : original = o := by
    rw [hp.source] at ho
    exact Option.some.inj ho
  simp only [bind_eq_ok] at h
  obtain ⟨allocated, ha, u, hu, intended, hint, resolved, hres, h⟩ := h
  simp only [pure_eq_ok] at h
  subst h
  obtain ⟨hb, hr, he⟩ := allocateRecovery_ok hp ha
  have hsmall : |allocated| < 10 ^ 28 := by
    have := hrows.amounts original hp.mem
    have hle := abs_le.1 this
    have hrem := hp.remaining
    have hnn := hp.nonneg
    rw [abs_lt]
    constructor <;> omega
  have hintended : intended = recoveryIntendedPlan proof original kind intent allocated actor
      mechanism compensationType := by
    simp only [buildIntendedLedgerPlan, require_bind_eq_ok, pure_eq_ok] at hint
    rw [← hint.2]
    simp only [recoveryIntendedPlan, quantizeCurrency_ofCents hsmall]
  have hplan : resolved.intendedPlan = intended := by
    simp only [resolveIntendedLedgerPlan, require_bind_eq_ok] at hres
    obtain ⟨-, hres⟩ := hres
    simp only [bind_eq_ok] at hres
    obtain ⟨⟨checking, savings⟩, -, hres⟩ := hres
    split at hres <;> (simp only [pure_eq_ok] at hres; rw [← hres])
  have hne : intent ≠ "" := by
    have := require_eq_ok.1 hu
    exact this.1
  exact ⟨⟨hp, hb, ⟨actor, mechanism, compensationType, hplan.trans hintended⟩, hne, hr, he⟩, rfl,
    rfl⟩

end Plans

section Apply

variable {L L' : LedgerState} {feat : FeatContext} {key : String} {original : Transaction}
  {p : CreditRecoveryPlan} {applied : AppliedPlan}

theorem applyResolvedLedgerPlan_ok {resolved : ResolvedLedgerPlan}
    (h : applyResolvedLedgerPlan sha256 feat L resolved key = .ok (applied, L')) :
    (planEffects sha256 resolved feat.activeFeat key = [] ∧ applied.created = none ∧ L' = L) ∨
      ∃ created, applied.created = some created ∧
        createReservedEffects sha256 feat L L.reservations
          ⟨resolved.intendedPlan.classId, feat.activeFeat, key⟩
          (planEffects sha256 resolved feat.activeFeat key)
          resolved.intendedPlan.canonicalIntent = .ok ((applied.effects, created), L') := by
  simp only [applyResolvedLedgerPlan] at h
  split_ifs at h with hnil hzero
  · simp only [pure_eq_ok, Prod.mk.injEq] at h
    obtain ⟨rfl, rfl⟩ := h
    exact .inl ⟨hnil, rfl, rfl⟩
  all_goals
    simp only [unit_bind_eq_ok] at h
    simp only [bind_eq_ok, Prod.exists, pure_eq_ok, Prod.mk.injEq, demand_eq_ok] at h
  · obtain ⟨-, rows, created, L₁, hc, rfl, rfl⟩ := h
    exact .inr ⟨created, rfl, hc⟩
  · obtain ⟨-, rows, created, L₁, hc, principal, -, rfl, rfl⟩ := h
    exact .inr ⟨created, rfl, hc⟩

theorem Insertions.snoc_inv {ts : List Transaction} {t : Transaction}
    (h : Insertions L (ts ++ [t]) L') : ∃ L₁, Insertions L ts L₁ ∧ Inserted L₁ t L' := by
  induction ts generalizing L with
  | nil =>
    obtain _ | ⟨hi, hrest⟩ := h
    cases hrest
    exact ⟨L, .nil L, hi⟩
  | cons u ts ih =>
    obtain _ | ⟨hi, hrest⟩ := h
    obtain ⟨L₁, h₁, h₂⟩ := ih hrest
    exact ⟨L₁, .cons hi h₁, h₂⟩

theorem fundingEffects_recover_nothing {plan : IntendedLedgerPlan} {activeFeat : String}
    {transfer : ℤ} :
    ∀ e ∈ fundingEffects sha256 plan activeFeat key transfer, e.compensationAmountCents = 0 := by
  unfold fundingEffects
  split_ifs
  · simp
  · simp

theorem rows_recover_nothing {r : Option LedgerCommandReservation} {effects : List Effect}
    {rows : List Transaction} (h : List.Forall₂ (RowOf feat r) effects rows)
    (h0 : ∀ e ∈ effects, e.compensationAmountCents = 0) :
    ∀ t ∈ rows, t.compensationAmountCents = 0 := by
  intro t ht
  obtain ⟨e, he, hrow⟩ := forall₂_exists_left h ht
  rw [hrow.compensationAmountCents, h0 e he]

/-- The rows that an applied plan writes keep every credit within its amount, and recover what
the plan allocates. -/
theorem CreditsCapped.applyPlan (h : CreditsCapped L) (hp : PlanOf L p original)
    (hsmall : |p.allocatedCents| < 10 ^ 28)
    (hcap : recoveredCents L (ledgerOriginLocator original.id) + p.allocatedCents ≤
      original.amountCents)
    {r : Option LedgerCommandReservation} {rows : List Transaction} (hi : Insertions L rows L')
    (hrows : List.Forall₂ (RowOf feat r)
      (planEffects sha256 p.resolvedPlan feat.activeFeat key) rows) :
    CreditsCapped L' ∧ recoveredCents L' (ledgerOriginLocator original.id) =
      recoveredCents L (ledgerOriginLocator original.id) + p.allocatedCents := by
  obtain ⟨actor, mechanism, ctype, hplan⟩ := hp.intended
  have hloc := hp.proves.locator
  unfold planEffects at hrows
  by_cases hzero : p.allocatedCents = 0
  · have hdebit : p.resolvedPlan.intendedPlan.debitAmount = 0 := by
      rw [hplan]
      exact hzero
    rw [if_pos hdebit, List.append_nil] at hrows
    obtain ⟨hc, hsame⟩ := h.insertions hi
      (rows_recover_nothing hrows fundingEffects_recover_nothing)
    refine ⟨hc, ?_⟩
    rw [recoveredCents, hsame, hzero, add_zero]
    rfl
  · have hdebit : p.resolvedPlan.intendedPlan.debitAmount ≠ 0 := by
      rw [hplan]
      exact hzero
    rw [if_neg hdebit] at hrows
    obtain ⟨frows, prows, rfl, hf, hpr⟩ := forall₂_append_inv hrows
    obtain ⟨t, rfl, hrow⟩ : ∃ t, prows = [t] ∧ RowOf feat r _ t := by
      obtain _ | ⟨hrow, hnil⟩ := hpr
      cases hnil
      exact ⟨_, rfl, hrow⟩
    obtain ⟨L₁, hi₁, hins⟩ := hi.snoc_inv
    obtain ⟨hc₁, hsame⟩ := h.insertions hi₁
      (rows_recover_nothing hf fundingEffects_recover_nothing)
    have hsub : L.transactions ⊆ L₁.transactions := by
      rw [hi₁.state]
      exact List.subset_append_left _ _
    have horigin : t.compensationOriginLocator = some (ledgerOriginLocator original.id) := by
      rw [hrow.compensationOriginLocator, principalEffect, hplan, recoveryIntendedPlan]
      simp only [if_neg hzero, hloc]
    have hcomp : t.compensationAmountCents = p.allocatedCents := by
      rw [hrow.compensationAmountCents, principalEffect, hplan, recoveryIntendedPlan]
      simp only [if_neg hzero, hloc, Option.getD_some, if_neg (originLocator_ne_empty _)]
    have hamount : t.amountCents = -p.allocatedCents := by
      rw [hrow.amount, principalEffect, hplan, recoveryIntendedPlan]
      exact quantizeCurrency_ofCents (by rw [abs_neg]; exact hsmall)
    have hpos : 0 < p.allocatedCents := lt_of_le_of_ne hp.bounds.1 (Ne.symm hzero)
    have hscope : t.scope = original.scope ∧ t.targetSeatId = original.targetSeatId := by
      have hacc := hrow.accountType
      have hclass := hrow.classId
      have hseat := hrow.seatId
      have htarget := hrow.targetSeatId
      simp only [principalEffect, hplan, recoveryIntendedPlan, AccountType.ofString_value,
        Option.some.injEq] at hacc hclass hseat htarget
      exact ⟨by simp only [Transaction.scope, hclass, hseat, hacc], htarget⟩
    have hrec : RecoversCredit L₁ t original.id :=
      ⟨original, hsub hp.proves.mem, rfl, hp.proves.positive, hp.proves.seats, hscope.1, hscope.2,
        by omega, by omega⟩
    have hold : recoveredCents L₁ (ledgerOriginLocator original.id) =
        recoveredCents L (ledgerOriginLocator original.id) := by
      rw [recoveredCents, hsame]
      rfl
    constructor
    · refine hc₁.insert hins (fun n hn ↦ ?_)
      rw [horigin, Option.some.injEq] at hn
      obtain rfl := ledgerOriginLocator_injective hn
      refine ⟨hrec, fun credit hcredit hid ↦ ?_⟩
      obtain rfl := hc₁.numbered.unique hcredit (hsub hp.proves.mem) hid
      omega
    · rw [recoveredCents_insert hins, if_pos horigin, hold, hcomp]

theorem CreditsCapped.recoveryRows_eq (h : CreditsCapped L) (ho : original ∈ L.transactions)
    (hseats : original.seatId = original.targetSeatId) :
    recoveryRows L original.classId original.seatId (ledgerOriginLocator original.id) =
      rowsNaming L (ledgerOriginLocator original.id) := by
  unfold recoveryRows rowsNaming
  refine List.filter_congr (fun t ht ↦ decide_eq_decide.2 ?_)
  constructor
  · exact fun hall ↦ hall.2.2
  · intro hloc
    obtain ⟨credit, hc, hid, -, -, hs, hts, -⟩ := h.named t ht _ hloc
    obtain rfl := h.numbered.unique hc ho hid
    exact ⟨congrArg Scope.classId hs, hts.trans hseats.symm, hloc⟩

theorem recoveredCents_nonneg (h : CreditsCapped L) (n : ℕ) :
    0 ≤ recoveredCents L (ledgerOriginLocator n) := by
  refine List.sum_nonneg (fun x hx ↦ ?_)
  obtain ⟨t, ht, rfl⟩ := List.mem_map.1 hx
  obtain ⟨hmem, hloc⟩ := List.mem_filter.1 ht
  obtain ⟨-, -, -, -, -, -, -, hpos, -⟩ := h.named t hmem n (by simpa using hloc)
  exact hpos.le

/-- What an accepted recovery has been held to: its plan was built on the history of this very
moment, and asks for no more than is left. -/
theorem applyCreditRecovery_ok (hc : CreditsCapped L) (hp : PlanOf L p original)
    (h : applyCreditRecovery sha256 feat L p key = .ok (applied, L')) :
    p.proof.material.map (·.identities) =
        some ((rowsNaming L (ledgerOriginLocator original.id)).map (·.identity)) ∧
      p.proof.recoveredCents = recoveredCents L (ledgerOriginLocator original.id) ∧
      recoveredCents L (ledgerOriginLocator original.id) + p.allocatedCents ≤
        original.amountCents ∧
      applyResolvedLedgerPlan sha256 feat L p.resolvedPlan key = .ok (applied, L') := by
  simp only [applyCreditRecovery, demand_bind_eq_ok] at h
  obtain ⟨o, ho, h⟩ := h
  obtain rfl : original = o := by
    rw [hp.proves.source] at ho
    exact Option.some.inj ho
  simp only [unit_bind_eq_ok, require_eq_ok] at h
  obtain ⟨-, ⟨hstatus, hmat⟩, hle, h⟩ := h
  simp only [bind_eq_ok, Prod.exists] at h
  obtain ⟨checking, savings, -, -, -, h⟩ := h
  have hne : (getCreditCompensationProof L original.classId original.seatId p.proof.originLocator
      (recoveryBoundary L original p.recoveryKind) p.proof.creationEvidence).status ≠
      .unavailable := by
    rcases hstatus with hs | ⟨hs, -⟩ <;> rw [hs] <;> decide
  obtain ⟨o', ho', hfresh, -, -, sequence, hm⟩ := getCreditCompensationProof_spec hne
  obtain ⟨hmem', hloc', -⟩ := findOrigin_some ho'
  have hid : original.id = o'.id :=
    ledgerOriginLocator_injective (hp.proves.locator.symm.trans hloc')
  obtain rfl := hc.numbered.unique hp.proves.mem hmem' hid
  have hrows := hc.recoveryRows_eq hp.proves.mem hp.proves.seats
  rw [hp.proves.locator] at hm hmat hle hfresh
  rw [hrows] at hm
  have hrec : p.proof.recoveredCents = recoveredCents L (ledgerOriginLocator original.id) := by
    obtain ⟨m, hpm, hsum⟩ := hp.proves.material
    rw [hm, hpm, Option.some.injEq] at hmat
    rw [hsum, ← hmat, List.map_map]
    rfl
  refine ⟨by rw [← hmat, hm]; rfl, hrec, ?_, h⟩
  have hsame : (getCreditCompensationProof L original.classId original.seatId
      (ledgerOriginLocator original.id) (recoveryBoundary L original p.recoveryKind)
      p.proof.creationEvidence).recoveredCents = p.proof.recoveredCents := by
    obtain ⟨m, hpm, hsum⟩ := hp.proves.material
    obtain ⟨m', hpm', hsum'⟩ := hfresh.material
    rw [hsum', hsum]
    rw [hpm', hpm, Option.some.injEq] at hmat
    rw [hmat]
  have hrem := hfresh.remaining
  omega

end Apply

end TokenHub.Ledger
