import TokenHub.Ledger.RecoveryCap

set_option autoImplicit false

namespace TokenHub.Ledger

open Lib.Decimals Lib.Checks Lib.Json Lib.SequencedLog Lib.Runs

/-- The Ledger with the previews in flight: proofs and plans taken at earlier moments. -/
structure RecoveryState where
  ledger : LedgerState
  proofs : List CreditCompensationProof
  plans : List CreditRecoveryPlan

def RecoveryState.empty (seatClass : ℕ → Option String) : RecoveryState :=
  ⟨.empty seatClass, [], []⟩

inductive RecoveryAction
  | settle (seatId : ℕ) (classId : String)
  | create (feat : FeatContext) (idempotencyKey : Option String) (e : Effect)
  | reserve (feat : FeatContext) (id : CommandIdentity) (effects : List Effect)
      (canonicalIntent : Value)
  | prove (classId : String) (targetSeatId : ℕ) (originLocator : String)
      (throughPostingSequence : Option ℤ) (creationEvidence : CreationEvidence)
  | resolve (proofIndex : ℕ) (kind : RecoveryKind) (correctionIntentLocator : String)
      (directive : BankingDirective) (actorSeatId : ℕ) (mechanism : String)
      (allocation : Option AllocationProof) (compensationType : Option String)
  | apply (feat : FeatContext) (planIndex : ℕ) (idempotencyKey : String)
  | reverse (feat : FeatContext) (q : ReversalRequest)

/-- An effect of another writer: it recovers no credit. -/
def Effect.withoutRecovery (e : Effect) : Effect := { e with compensationAmountCents := 0 }

variable (sha256 : String → String)

def recoveryStep (S : RecoveryState) : RecoveryAction → RecoveryState
  | .settle seatId classId =>
    { S with ledger := perform sha256 S.ledger (.settle seatId classId) }
  | .create feat key e =>
    { S with ledger := perform sha256 S.ledger (.create feat key none e.withoutRecovery) }
  | .reserve feat id effects intent =>
    { S with ledger := committed S.ledger (createReservedEffects sha256 feat S.ledger
        S.ledger.reservations id (effects.map Effect.withoutRecovery) intent) }
  | .prove classId targetSeatId locator boundary evidence =>
    { S with proofs := S.proofs ++
        [getCreditCompensationProof S.ledger classId targetSeatId locator boundary evidence] }
  | .resolve i kind intent directive actor mechanism allocation compensationType =>
    match S.proofs[i]? with
    | none => S
    | some proof =>
      match resolveCreditRecovery S.ledger proof kind intent directive actor mechanism allocation
        compensationType with
      | .ok plan => { S with plans := S.plans ++ [plan] }
      | .error _ => S
  | .apply feat i key =>
    match S.plans[i]? with
    | none => S
    | some plan =>
      { S with ledger := committed S.ledger (applyCreditRecovery sha256 feat S.ledger plan key) }
  | .reverse feat q =>
    if q.transaction ∈ S.ledger.transactions then
      { S with ledger := committed S.ledger (reverseTransaction sha256 feat S.ledger q) }
    else S

section Payloads

/-- What the fingerprint of a recovery digests. -/
def CreditRecoveryPlan.payloads (p : CreditRecoveryPlan) (feat : FeatContext) (key : String) :
    Set String :=
  Ledger.payloads (planEffects sha256 p.resolvedPlan feat.activeFeat key)
    p.resolvedPlan.intendedPlan.canonicalIntent

def ReversalRequest.payloads (q : ReversalRequest) (L : LedgerState) (feat : FeatContext) :
    Set String :=
  if 0 < q.transaction.amountCents then
    {payload | ∃ p, resolveReversal L q = .ok p ∧
      payload ∈ p.payloads sha256 feat q.idempotencyKey}
  else Ledger.payloads [refundEffect q] .null

/-- What the reservations of an action digest. -/
def RecoveryAction.payloads (S : RecoveryState) : RecoveryAction → Set String
  | .create _ _ e => Ledger.payloads [{ e.withoutRecovery with
      amount := some (Decimal.ofHundredths (quantizeCurrency e.amount)) }] .null
  | .reserve _ _ effects intent => Ledger.payloads (effects.map Effect.withoutRecovery) intent
  | .apply feat i key => {payload | ∃ p, S.plans[i]? = some p ∧
      payload ∈ p.payloads sha256 feat key}
  | .reverse feat q => q.payloads sha256 S.ledger feat
  | _ => ∅

end Payloads

variable {sha256}

section Invariant

/-- Every reservation is the one of an accepted call, whose payloads are in `P`. -/
def ReservationsWithin (sha256 : String → String) (P : Set String) (L : LedgerState) : Prop :=
  ∀ r ∈ L.reservations, ∃ c rows, Owns sha256 L c r rows ∧ c.payloads ⊆ P

def ReservationsSound (sha256 : String → String) (L : LedgerState) : Prop :=
  ∀ r ∈ L.reservations, ∃ c rows, Owns sha256 L c r rows

structure LedgerSound (sha256 : String → String) (L : LedgerState) : Prop where
  balance : BalanceInvariant L
  credits : CreditsCapped L
  commands : CommandInvariant L
  reservations : ReservationsSound sha256 L

/-- What a command does to the Ledger: it stays sound, and rows are only added at the end. -/
structure Grows (sha256 : String → String) (L L' : LedgerState) : Prop where
  sound : LedgerSound sha256 L'
  rows : L.transactions <+: L'.transactions

variable {L L' : LedgerState} {feat : FeatContext}

theorem LedgerSound.empty (seatClass : ℕ → Option String) :
    LedgerSound sha256 (.empty seatClass) where
  balance := .empty seatClass
  credits := .empty seatClass
  commands := .empty seatClass
  reservations := by simp [ReservationsSound, LedgerState.empty]

theorem LedgerSound.refl (h : LedgerSound sha256 L) : Grows sha256 L L := ⟨h, List.prefix_refl _⟩

theorem reservationsSound_iff :
    ReservationsSound sha256 L ↔ ReservationsWithin sha256 Set.univ L := by
  simp [ReservationsSound, ReservationsWithin]

theorem ReservationsWithin.after {P : Set String} (hs : ReservationsWithin sha256 P L)
    (hc : CommandInvariant L) {c : CommandCall} (hP : c.payloads ⊆ P) :
    ReservationsWithin sha256 P (c.after sha256 L) := by
  intro r hr
  have hc' : CommandInvariant (c.after sha256 L) := hc.after c
  unfold CommandCall.after at hr hc' ⊢
  split at hr
  · next out L₁ hok =>
    rw [hok] at hc'
    simp only at hc'
    obtain ⟨rows, created⟩ := out
    have hafter : c.after sha256 L = L₁ := by rw [CommandCall.after, hok]
    rcases CommandCall.exec_cases hok with ⟨-, rfl, -⟩ | ⟨rfl, -, f, -, hi, -⟩
    · exact hs r hr
    · have hres : L₁.reservations = L.reservations ++ [newReservation L c.identity f] := by
        rw [hi.state]
      rw [hres] at hr
      rcases List.mem_append.1 hr with hr | hr
      · obtain ⟨c₀, rows₀, ho, hc₀⟩ := hs r hr
        exact ⟨c₀, rows₀, hafter ▸ ho.after hc c, hc₀⟩
      · obtain rfl := List.mem_singleton.1 hr
        obtain ⟨r', ho⟩ := Owns.of_created hc hok
        have hmem : newReservation L c.identity f ∈ L₁.reservations := by rw [hres]; simp
        obtain rfl := hc'.unique ho.mem hmem ho.identity
        exact ⟨c, rows, ho, hP⟩
  · exact hs r hr

theorem ReservationsSound.after (hs : ReservationsSound sha256 L) (hc : CommandInvariant L)
    (c : CommandCall) : ReservationsSound sha256 (c.after sha256 L) :=
  reservationsSound_iff.2 ((reservationsSound_iff.1 hs).after hc (Set.subset_univ _))

theorem ReservationsWithin.reserved {P : Set String} (hs : ReservationsWithin sha256 P L)
    (hc : CommandInvariant L) {id : CommandIdentity} {effects : List Effect} {intent : Value}
    (hP : payloads effects intent ⊆ P) {out : List Transaction × Bool}
    (hok : createReservedEffects sha256 feat L L.reservations id effects intent = .ok (out, L')) :
    ReservationsWithin sha256 P L' := by
  have hafter : (CommandCall.reserved feat L.reservations.length id effects intent).after sha256 L =
      L' := by
    rw [CommandCall.after, CommandCall.exec, List.take_length, hok]
  exact hafter ▸ hs.after hc hP

/-- A call still owns its rows where the reservations stay and no row is added to them. -/
theorem Owns.of_rows {c : CommandCall} {r : LedgerCommandReservation} {rows : List Transaction}
    (ho : Owns sha256 L c r rows) (hres : L'.reservations = L.reservations)
    {ts : List Transaction} (htx : L'.transactions = L.transactions ++ ts)
    (hnone : ∀ t ∈ ts, t.commandReservationId = none) : Owns sha256 L' c r rows where
  mem := hres ▸ ho.mem
  identity := ho.identity
  valid := ho.valid
  fingerprint := ho.fingerprint
  version := ho.version
  rows_eq := by
    rw [← ho.rows_eq]
    exact reservedRows_append (fun t ht ↦ by simp [hnone t ht]) htx
  rows_of := ho.rows_of
  nonempty := ho.nonempty

theorem ReservationsWithin.of_rows {P : Set String} (hs : ReservationsWithin sha256 P L)
    (hres : L'.reservations = L.reservations) {ts : List Transaction}
    (htx : L'.transactions = L.transactions ++ ts)
    (hnone : ∀ t ∈ ts, t.commandReservationId = none) : ReservationsWithin sha256 P L' := by
  intro r hr
  rw [hres] at hr
  obtain ⟨c, rows, ho, hP⟩ := hs r hr
  exact ⟨c, rows, ho.of_rows hres htx hnone, hP⟩

theorem ReservationsSound.of_rows (hs : ReservationsSound sha256 L)
    (hres : L'.reservations = L.reservations) {ts : List Transaction}
    (htx : L'.transactions = L.transactions ++ ts)
    (hnone : ∀ t ∈ ts, t.commandReservationId = none) : ReservationsSound sha256 L' :=
  reservationsSound_iff.2 ((reservationsSound_iff.1 hs).of_rows hres htx hnone)

theorem LedgerSound.reserved (h : LedgerSound sha256 L) {id : CommandIdentity}
    {effects : List Effect} {intent : Value} {rows : List Transaction} {created : Bool}
    (hok : createReservedEffects sha256 feat L L.reservations id effects intent =
      .ok ((rows, created), L'))
    (hcap : ∀ f, Insertions { L with reservations := L.reservations ++ [newReservation L id f] }
      rows L' → List.Forall₂ (RowOf feat (some (newReservation L id f))) effects rows →
      CreditsCapped L') : Grows sha256 L L' := by
  have hafter : (CommandCall.reserved feat L.reservations.length id effects intent).after sha256 L =
      L' := by
    rw [CommandCall.after, CommandCall.exec, List.take_length, hok]
  have hcmd : CommandInvariant L' := hafter ▸ h.commands.after _
  have hres := hafter ▸ h.reservations.after h.commands _
  rcases createReservedEffects_ok hok with ⟨-, rfl, -⟩ | ⟨-, -, f, -, hi, hrows⟩
  · exact h.refl
  · refine ⟨⟨?_, hcap f hi hrows, hcmd, hres⟩, by rw [hi.state]; exact List.prefix_append _ _⟩
    have hb : BalanceInvariant { L with
        reservations := L.reservations ++ [newReservation L id f] } := h.balance.of_eq rfl rfl
    exact hb.insertions hi

theorem LedgerSound.reserved_without_recovery (h : LedgerSound sha256 L) {id : CommandIdentity}
    {effects : List Effect} {intent : Value} {rows : List Transaction} {created : Bool}
    (h0 : ∀ e ∈ effects, e.compensationAmountCents = 0)
    (hok : createReservedEffects sha256 feat L L.reservations id effects intent =
      .ok ((rows, created), L')) : Grows sha256 L L' :=
  h.reserved hok (fun f hi hrows ↦
    have hc : CreditsCapped { L with reservations := L.reservations ++ [newReservation L id f] } :=
      h.credits.of_eq rfl
    (hc.insertions hi (rows_recover_nothing hrows h0)).1)

theorem LedgerSound.idempotent (h : LedgerSound sha256 L) {key : String} {e : Effect}
    {rows : List Transaction} {created : Bool} (h0 : e.compensationAmountCents = 0)
    (hok : createIdempotentTransaction sha256 feat L L.reservations key e =
      .ok ((rows, created), L')) : Grows sha256 L L' := by
  simp only [createIdempotentTransaction, unit_bind_eq_ok] at hok
  exact h.reserved_without_recovery (by simpa using h0) hok.2.2.2

theorem LedgerSound.pending (h : LedgerSound sha256 L) {e : Effect} {t : Transaction}
    (h0 : e.compensationAmountCents = 0)
    (hok : createPendingEffect sha256 feat L none e = .ok (t, L')) : Grows sha256 L L' := by
  obtain ⟨hi, hrow, -⟩ := createPendingEffect_ok hok
  have ht0 : t.compensationAmountCents = 0 := by rw [hrow.compensationAmountCents, h0]
  have hid : t.commandReservationId = none := hrow.commandReservationId
  have htx : L'.transactions = L.transactions ++ [t] := by rw [hi.state]
  have hres : L'.reservations = L.reservations := by rw [hi.state]
  refine ⟨⟨h.balance.insert hi, (h.credits.insertions (.cons hi (.nil _)) (by simpa using ht0)).1,
    ⟨?_, ?_, ?_, ?_⟩, h.reservations.of_rows hres htx (by simp [hid])⟩,
    by rw [htx]; exact List.prefix_append _ _⟩
  · rw [hres]; exact h.commands.numbered
  · rw [hres]; exact h.commands.bounded
  · rw [hres]; exact h.commands.distinct
  · rw [htx, hres]
    intro u hu i hui
    rcases List.mem_append.1 hu with hu | hu
    · exact h.commands.owned u hu i hui
    · rw [List.mem_singleton.1 hu, hid] at hui
      cases hui

theorem LedgerSound.create (h : LedgerSound sha256 L) {key : Option String} {e : Effect}
    (h0 : e.compensationAmountCents = 0) :
    Grows sha256 L (perform sha256 L (.create feat key none e)) := by
  simp only [perform]
  split
  · next rows L' hok =>
    simp only [createPendingTransaction, require_bind_eq_ok] at hok
    obtain ⟨-, hok⟩ := hok
    split_ifs at hok
    · simp only [bind_eq_ok, pure_eq_ok, Prod.exists, Prod.mk.injEq] at hok
      obtain ⟨rows', created, L₁, hc, -, rfl⟩ := hok
      refine h.idempotent ?_ hc
      exact h0
    · simp only [bind_eq_ok, pure_eq_ok, Prod.exists, Prod.mk.injEq] at hok
      obtain ⟨t, L₁, hc, -, rfl⟩ := hok
      exact h.pending h0 hc
  · exact h.refl

theorem LedgerSound.settle (h : LedgerSound sha256 L) (seatId : ℕ) (classId : String) :
    Grows sha256 L (perform sha256 L (.settle seatId classId)) := by
  have hbal : BalanceInvariant (perform sha256 L (.settle seatId classId)) :=
    h.balance.perform _
  have hframe : (perform sha256 L (.settle seatId classId)).transactions = L.transactions ∧
      (perform sha256 L (.settle seatId classId)).reservations = L.reservations := by
    simp only [perform]
    split
    · next hok =>
      rw [settleBalances_frame hok]
      exact ⟨rfl, rfl⟩
    · exact ⟨rfl, rfl⟩
  obtain ⟨htx, hres⟩ := hframe
  have hrows := htx.trans (List.append_nil _).symm
  refine ⟨⟨hbal, h.credits.of_eq htx, ⟨?_, ?_, ?_, ?_⟩,
    h.reservations.of_rows hres hrows (by simp)⟩, htx ▸ List.prefix_refl _⟩
  · rw [hres]; exact h.commands.numbered
  · rw [hres]; exact h.commands.bounded
  · rw [hres]; exact h.commands.distinct
  · rw [htx, hres]; exact h.commands.owned

/-- What an accepted recovery leaves: a sound Ledger, with exactly the allocated cents added to
what its credit has given back, or nothing changed by a replay. -/
theorem LedgerSound.applyRecovery (h : LedgerSound sha256 L) {p : CreditRecoveryPlan}
    {original : Transaction} {key : String} {applied : AppliedPlan} (hp : PlanOf L p original)
    (hok : applyCreditRecovery sha256 feat L p key = .ok (applied, L')) :
    Grows sha256 L L' ∧ (applied.created ≠ some false →
      recoveredCents L' (ledgerOriginLocator original.id) =
        recoveredCents L (ledgerOriginLocator original.id) + p.allocatedCents) := by
  obtain ⟨-, -, hcap, happ⟩ := applyCreditRecovery_ok h.credits hp hok
  have hsmall : |p.allocatedCents| < 10 ^ 28 := by
    have hle := abs_le.1 (h.balance.rows.amounts original hp.proves.mem)
    have hnn := recoveredCents_nonneg h.credits original.id
    have hb := hp.bounds.1
    rw [abs_lt]
    constructor <;> omega
  rcases applyResolvedLedgerPlan_ok happ with ⟨hnil, -, rfl⟩ | ⟨created, hcreated, hres⟩
  · refine ⟨h.refl, fun _ ↦ ?_⟩
    obtain ⟨actor, mechanism, ctype, hplan⟩ := hp.intended
    have hzero : p.allocatedCents = 0 := by
      by_contra hne
      have hdebit : p.resolvedPlan.intendedPlan.debitAmount ≠ 0 := by rw [hplan]; exact hne
      simp [planEffects, hdebit] at hnil
    rw [hzero, add_zero]
  · have hstep : ∀ {f}, Insertions { L with reservations := L.reservations ++
        [newReservation L ⟨p.resolvedPlan.intendedPlan.classId, feat.activeFeat, key⟩ f] }
        applied.effects L' → List.Forall₂ (RowOf feat (some (newReservation L
          ⟨p.resolvedPlan.intendedPlan.classId, feat.activeFeat, key⟩ f)))
        (planEffects sha256 p.resolvedPlan feat.activeFeat key) applied.effects → _ :=
      fun {f} hi hrows ↦
        have hc : CreditsCapped { L with reservations := L.reservations ++
            [newReservation L ⟨p.resolvedPlan.intendedPlan.classId, feat.activeFeat, key⟩ f] } :=
          h.credits.of_eq rfl
        hc.applyPlan (hp.mono (List.Subset.refl _)) hsmall hcap hi hrows
    refine ⟨h.reserved hres (fun f hi hrows ↦ (hstep hi hrows).1), fun hne ↦ ?_⟩
    rcases createReservedEffects_ok hres with ⟨rfl, -⟩ | ⟨-, -, f, -, hi, hrows⟩
    · exact absurd hcreated hne
    · exact (hstep hi hrows).2

/-- Once a credit has given back its whole amount, no later row names it. -/
theorem Grows.naming_final (h : Grows sha256 L L') {credit : Transaction}
    (hc : credit ∈ L.transactions) (hpos : 0 < credit.amountCents)
    (hfull : recoveredCents L (ledgerOriginLocator credit.id) = credit.amountCents) :
    rowsNaming L' (ledgerOriginLocator credit.id) =
      rowsNaming L (ledgerOriginLocator credit.id) := by
  obtain ⟨ts, hts⟩ := h.rows
  have hsplit : rowsNaming L' (ledgerOriginLocator credit.id) =
      rowsNaming L (ledgerOriginLocator credit.id) ++
        ts.filter (·.compensationOriginLocator = some (ledgerOriginLocator credit.id)) := by
    rw [rowsNaming, ← hts, List.filter_append]
    rfl
  have hcap := h.sound.credits.capped credit (by rw [← hts]; exact List.mem_append_left _ hc) hpos
  rw [recoveredCents, hsplit, List.map_append, List.sum_append] at hcap
  cases hrest : ts.filter (·.compensationOriginLocator = some (ledgerOriginLocator credit.id)) with
  | nil => rw [hsplit, hrest, List.append_nil]
  | cons t rest =>
    exfalso
    have hpos' : ∀ u ∈ t :: rest, 0 < u.compensationAmountCents := by
      intro u hu
      rw [← hrest] at hu
      obtain ⟨hmem, hloc⟩ := List.mem_filter.1 hu
      obtain ⟨-, -, -, -, -, -, -, hup, -⟩ := h.sound.credits.named u
        (by rw [← hts]; exact List.mem_append_right _ hmem) _ (by simpa using hloc)
      exact hup
    have hsum : 0 ≤ (rest.map (·.compensationAmountCents)).sum := by
      refine List.sum_nonneg (fun x hx ↦ ?_)
      obtain ⟨u, hu, rfl⟩ := List.mem_map.1 hx
      exact (hpos' u (by simp [hu])).le
    have ht := hpos' t (by simp)
    rw [hrest, List.map_cons, List.sum_cons] at hcap
    rw [recoveredCents] at hfull
    omega

end Invariant

section Steps

variable {L L' : LedgerState} {feat : FeatContext}

theorem LedgerSound.reverseCredit (h : LedgerSound sha256 L) {q : ReversalRequest}
    {t : Option Transaction} (hok : reverseCredit sha256 feat L q = .ok (t, L')) :
    Grows sha256 L L' ∧ ∃ (p : CreditRecoveryPlan) (original : Transaction) (applied : AppliedPlan),
      resolveReversal L q = .ok p ∧ PlanOf L p original ∧ p.recoveryKind = .exactReversal ∧
        original.id = q.transaction.id ∧
          applyCreditRecovery sha256 feat L p q.idempotencyKey = .ok (applied, L') := by
  simp only [Ledger.reverseCredit, bind_eq_ok, pure_eq_ok, Prod.exists, Prod.mk.injEq] at hok
  obtain ⟨p, hresolved, applied, L₁, happ, -, rfl⟩ := hok
  have hp := hresolved
  rw [resolveReversal, demand_bind_eq_ok] at hp
  obtain ⟨directive, -, hp⟩ := hp
  have hres := hp
  simp only [resolveCreditRecovery, require_bind_eq_ok] at hres
  have hstatus : (getCreditCompensationProof L q.transaction.classId q.transaction.seatId
      (ledgerOriginLocator q.transaction.id) (recoveryBoundary L q.transaction .exactReversal)
      q.creationEvidence).status ≠ .unavailable := by
    rcases hres.1 with hs | ⟨hs, -⟩ <;> rw [hs] <;> decide
  obtain ⟨original, ho, hproves, -⟩ := getCreditCompensationProof_spec hstatus
  obtain ⟨hplan, hproof, hkind⟩ := resolveCreditRecovery_ok h.balance.rows hproves hp
  obtain ⟨-, hloc, -⟩ := findOrigin_some ho
  exact ⟨(h.applyRecovery hplan happ).1, p, original, applied, hresolved, hplan, hkind,
    (ledgerOriginLocator_injective hloc).symm, happ⟩

theorem LedgerSound.reverse (h : LedgerSound sha256 L) {q : ReversalRequest}
    {t : Option Transaction} (hok : reverseTransaction sha256 feat L q = .ok (t, L')) :
    Grows sha256 L L' ∧
      ((∃ existing, getExactReversal L q.transaction = some existing ∧ L' = L) ∨
        (0 < q.transaction.amountCents ∧ Ledger.reverseCredit sha256 feat L q = .ok (t, L')) ∨
        q.transaction.amountCents ≤ 0) := by
  simp only [reverseTransaction, unit_bind_eq_ok, require_eq_ok] at hok
  obtain ⟨-, -, -, -, -, -, hok⟩ := hok
  split at hok
  · next existing hex =>
    simp only [unit_bind_eq_ok] at hok
    obtain ⟨-, -, hok⟩ := hok
    simp only [bind_eq_ok, pure_eq_ok, Prod.mk.injEq] at hok
    obtain ⟨principal, -, -, rfl⟩ := hok
    exact ⟨h.refl, .inl ⟨existing, hex, rfl⟩⟩
  · split_ifs at hok with hpos
    · exact ⟨(h.reverseCredit hok).1, .inr (.inl ⟨hpos, hok⟩)⟩
    · simp only [bind_eq_ok, pure_eq_ok, Prod.exists, Prod.mk.injEq] at hok
      obtain ⟨rows, created, L₁, hc, -, rfl⟩ := hok
      refine ⟨h.idempotent ?_ hc, .inr (.inr (by omega))⟩
      rfl

/-- What holds in every reachable state: the Ledger is sound, and every preview in flight speaks
of a credit of it. -/
structure RecoveryInvariant (sha256 : String → String) (S : RecoveryState) : Prop where
  ledger : LedgerSound sha256 S.ledger
  proofs : ∀ proof ∈ S.proofs, proof.status ≠ .unavailable → ∃ o, Proves S.ledger proof o
  plans : ∀ p ∈ S.plans, ∃ o, PlanOf S.ledger p o

theorem RecoveryInvariant.empty (seatClass : ℕ → Option String) :
    RecoveryInvariant sha256 (.empty seatClass) :=
  ⟨.empty seatClass, by simp [RecoveryState.empty], by simp [RecoveryState.empty]⟩

theorem RecoveryInvariant.grow {S : RecoveryState} (h : RecoveryInvariant sha256 S)
    (hg : Grows sha256 S.ledger L') : RecoveryInvariant sha256 { S with ledger := L' } := by
  have hsub : S.ledger.transactions ⊆ L'.transactions := hg.rows.subset
  refine ⟨hg.sound, fun proof hp hs ↦ ?_, fun p hp ↦ ?_⟩
  · obtain ⟨o, ho⟩ := h.proofs proof hp hs
    exact ⟨o, ho.mono hsub⟩
  · obtain ⟨o, ho⟩ := h.plans p hp
    exact ⟨o, ho.mono hsub⟩

theorem LedgerSound.grows_committed {α : Type} (h : LedgerSound sha256 L)
    {r : Except Raise (α × LedgerState)}
    (hok : ∀ a L', r = .ok (a, L') → Grows sha256 L L') : Grows sha256 L (committed L r) :=
  committed_relates h.refl hok

theorem RecoveryInvariant.step {S : RecoveryState} (h : RecoveryInvariant sha256 S)
    (a : RecoveryAction) : RecoveryInvariant sha256 (recoveryStep sha256 S a) ∧
      Grows sha256 S.ledger (recoveryStep sha256 S a).ledger := by
  have hrefl := h.ledger.refl
  cases a with
  | settle seatId classId =>
    have hg := h.ledger.settle seatId classId
    exact ⟨h.grow hg, hg⟩
  | create feat key e =>
    have hg : Grows sha256 S.ledger
        (perform sha256 S.ledger (.create feat key none e.withoutRecovery)) := h.ledger.create rfl
    exact ⟨h.grow hg, hg⟩
  | reserve feat id effects intent =>
    have h0 : ∀ f ∈ effects.map Effect.withoutRecovery, f.compensationAmountCents = 0 := by
      simp [Effect.withoutRecovery]
    have hg : Grows sha256 S.ledger (committed S.ledger (createReservedEffects sha256 feat S.ledger
        S.ledger.reservations id (effects.map Effect.withoutRecovery) intent)) :=
      h.ledger.grows_committed (fun out L' hok ↦ h.ledger.reserved_without_recovery h0 hok)
    exact ⟨h.grow hg, hg⟩
  | prove classId target locator boundary evidence =>
    refine ⟨⟨h.ledger, ?_, h.plans⟩, hrefl⟩
    intro proof hp hs
    rcases List.mem_append.1 hp with hp | hp
    · exact h.proofs proof hp hs
    · obtain rfl := List.mem_singleton.1 hp
      obtain ⟨o, -, ho, -⟩ := getCreditCompensationProof_spec hs
      exact ⟨o, ho⟩
  | resolve i kind intent directive actor mechanism allocation ctype =>
    simp only [recoveryStep]
    split
    · exact ⟨h, hrefl⟩
    · next proof hi =>
      split
      · next p hp =>
        refine ⟨⟨h.ledger, h.proofs, ?_⟩, hrefl⟩
        intro p' hp'
        rcases List.mem_append.1 hp' with hp' | hp'
        · exact h.plans p' hp'
        · obtain rfl := List.mem_singleton.1 hp'
          have hstatus : proof.status ≠ .unavailable := by
            have hres := hp
            simp only [resolveCreditRecovery, require_bind_eq_ok] at hres
            rcases hres.1 with hs | ⟨hs, -⟩ <;> rw [hs] <;> decide
          obtain ⟨o, ho⟩ := h.proofs proof (List.mem_of_getElem? hi) hstatus
          exact ⟨o, (resolveCreditRecovery_ok h.ledger.balance.rows ho hp).1⟩
      · exact ⟨h, hrefl⟩
  | apply feat i key =>
    simp only [recoveryStep]
    split
    · exact ⟨h, hrefl⟩
    · next p hi =>
      obtain ⟨o, ho⟩ := h.plans p (List.mem_of_getElem? hi)
      have hg : Grows sha256 S.ledger
          (committed S.ledger (applyCreditRecovery sha256 feat S.ledger p key)) :=
        h.ledger.grows_committed (fun applied L' hok ↦ (h.ledger.applyRecovery ho hok).1)
      exact ⟨h.grow hg, hg⟩
  | reverse feat q =>
    simp only [recoveryStep]
    split
    · have hg : Grows sha256 S.ledger
          (committed S.ledger (reverseTransaction sha256 feat S.ledger q)) :=
        h.ledger.grows_committed (fun t L' hok ↦ (h.ledger.reverse hok).1)
      exact ⟨h.grow hg, hg⟩
    · exact ⟨h, hrefl⟩

theorem RecoveryInvariant.run {S : RecoveryState} (h : RecoveryInvariant sha256 S)
    (as : List RecoveryAction) : RecoveryInvariant sha256 (run (recoveryStep sha256) S as) :=
  run_invariant h (fun _ a hI ↦ (hI.step a).1) as

/-- A credit that has given back its whole amount is named by no later row of any run. -/
theorem RecoveryInvariant.naming_final {S : RecoveryState} (h : RecoveryInvariant sha256 S)
    {credit : Transaction} (hc : credit ∈ S.ledger.transactions) (hpos : 0 < credit.amountCents)
    (hfull : recoveredCents S.ledger (ledgerOriginLocator credit.id) = credit.amountCents)
    (as : List RecoveryAction) :
    rowsNaming (Lib.Runs.run (recoveryStep sha256) S as).ledger (ledgerOriginLocator credit.id) =
      rowsNaming S.ledger (ledgerOriginLocator credit.id) := by
  have hrun := run_invariant (f := recoveryStep sha256)
    (I := fun S' ↦ RecoveryInvariant sha256 S' ∧ credit ∈ S'.ledger.transactions ∧
      rowsNaming S'.ledger (ledgerOriginLocator credit.id) =
        rowsNaming S.ledger (ledgerOriginLocator credit.id)) ⟨h, hc, rfl⟩ ?_ as
  · exact hrun.2.2
  · intro S' a ⟨hI, hc', hrows⟩
    obtain ⟨hI', hg⟩ := hI.step a
    refine ⟨hI', hg.rows.subset hc', ?_⟩
    rw [hg.naming_final hc' hpos (by rw [recoveredCents, hrows]; exact hfull), hrows]

end Steps

section Within

variable {P : Set String} {L L' : LedgerState} {feat : FeatContext}

theorem ReservationsWithin.empty (seatClass : ℕ → Option String) :
    ReservationsWithin sha256 P (.empty seatClass) := by
  simp [ReservationsWithin, LedgerState.empty]

theorem ReservationsWithin.committed {α : Type} (hs : ReservationsWithin sha256 P L)
    {r : Except Raise (α × LedgerState)}
    (hok : ∀ a L', r = .ok (a, L') → ReservationsWithin sha256 P L') :
    ReservationsWithin sha256 P (Lib.Checks.committed L r) :=
  committed_relates (R := fun _ L' ↦ ReservationsWithin sha256 P L') hs hok

theorem ReservationsWithin.idempotent (hs : ReservationsWithin sha256 P L)
    (hc : CommandInvariant L) {key : String} {e : Effect} (hP : payloads [e] .null ⊆ P)
    {out : List Transaction × Bool}
    (hok : createIdempotentTransaction sha256 feat L L.reservations key e = .ok (out, L')) :
    ReservationsWithin sha256 P L' := by
  simp only [createIdempotentTransaction, unit_bind_eq_ok] at hok
  exact hs.reserved hc hP hok.2.2.2

theorem ReservationsWithin.create (hs : ReservationsWithin sha256 P L) (hc : CommandInvariant L)
    {key : Option String} {e : Effect}
    (hP : payloads [{ e with
      amount := some (Decimal.ofHundredths (quantizeCurrency e.amount)) }] .null ⊆ P) :
    ReservationsWithin sha256 P (perform sha256 L (.create feat key none e)) := by
  simp only [perform]
  split
  · next rows L' hok =>
    simp only [createPendingTransaction, require_bind_eq_ok] at hok
    obtain ⟨-, hok⟩ := hok
    split_ifs at hok
    · simp only [bind_eq_ok, pure_eq_ok, Prod.exists, Prod.mk.injEq] at hok
      obtain ⟨rows', created, L₁, hcreate, -, rfl⟩ := hok
      exact hs.idempotent hc hP hcreate
    · simp only [bind_eq_ok, pure_eq_ok, Prod.exists, Prod.mk.injEq] at hok
      obtain ⟨t, L₁, hcreate, -, rfl⟩ := hok
      obtain ⟨hi, hrow, -⟩ := createPendingEffect_ok hcreate
      have hid : t.commandReservationId = none := hrow.commandReservationId
      have htx : L₁.transactions = L.transactions ++ [t] := by rw [hi.state]
      exact hs.of_rows (by rw [hi.state]) htx (by simp [hid])
  · exact hs

theorem ReservationsWithin.settle (hs : ReservationsWithin sha256 P L) (seatId : ℕ)
    (classId : String) : ReservationsWithin sha256 P (perform sha256 L (.settle seatId classId)) := by
  simp only [perform]
  split
  · next L' hok =>
    have hstate := settleBalances_frame hok
    have htx : L'.transactions = L.transactions ++ [] := by rw [hstate, List.append_nil]
    exact hs.of_rows (by rw [hstate]) htx (by simp)
  · exact hs

theorem ReservationsWithin.recovery (hs : ReservationsWithin sha256 P L)
    (hc : CommandInvariant L) {p : CreditRecoveryPlan} {key : String}
    (hP : p.payloads sha256 feat key ⊆ P) {applied : AppliedPlan}
    (hok : applyCreditRecovery sha256 feat L p key = .ok (applied, L')) :
    ReservationsWithin sha256 P L' := by
  simp only [applyCreditRecovery, demand_bind_eq_ok, unit_bind_eq_ok] at hok
  obtain ⟨o, -, -, -, -, hok⟩ := hok
  rw [bind_eq_ok] at hok
  obtain ⟨balances, -, hok⟩ := hok
  rw [unit_bind_eq_ok] at hok
  rcases applyResolvedLedgerPlan_ok hok.2 with ⟨-, -, rfl⟩ | ⟨created, -, hreserved⟩
  · exact hs
  · exact hs.reserved hc hP hreserved

theorem ReservationsWithin.reversal (hs : ReservationsWithin sha256 P L)
    (hc : CommandInvariant L) {q : ReversalRequest} (hP : q.payloads sha256 L feat ⊆ P)
    {t : Option Transaction} (hok : reverseTransaction sha256 feat L q = .ok (t, L')) :
    ReservationsWithin sha256 P L' := by
  simp only [reverseTransaction, unit_bind_eq_ok, require_eq_ok] at hok
  obtain ⟨-, -, -, -, -, -, hok⟩ := hok
  rw [ReversalRequest.payloads] at hP
  split at hok
  · simp only [unit_bind_eq_ok] at hok
    obtain ⟨-, -, hok⟩ := hok
    simp only [bind_eq_ok, pure_eq_ok, Prod.mk.injEq] at hok
    obtain ⟨principal, -, -, rfl⟩ := hok
    exact hs
  · split_ifs at hok hP with hpos
    · rw [reverseCredit, bind_eq_ok] at hok
      obtain ⟨p, hplan, hok⟩ := hok
      simp only [bind_eq_ok, pure_eq_ok, Prod.exists, Prod.mk.injEq] at hok
      obtain ⟨applied, L₁, happly, -, rfl⟩ := hok
      exact hs.recovery hc (fun payload hpayload ↦ hP ⟨p, hplan, hpayload⟩) happly
    · simp only [bind_eq_ok, pure_eq_ok, Prod.exists, Prod.mk.injEq] at hok
      obtain ⟨rows, created, L₁, hcreate, -, rfl⟩ := hok
      exact hs.idempotent hc hP hcreate

theorem ReservationsWithin.step {S : RecoveryState} (hs : ReservationsWithin sha256 P S.ledger)
    (hc : CommandInvariant S.ledger) {a : RecoveryAction} (hP : a.payloads sha256 S ⊆ P) :
    ReservationsWithin sha256 P (recoveryStep sha256 S a).ledger := by
  cases a with
  | settle seatId classId => exact hs.settle seatId classId
  | create feat key e => exact hs.create hc hP
  | reserve feat id effects intent => exact hs.committed fun out L' hok ↦ hs.reserved hc hP hok
  | prove => exact hs
  | resolve i =>
    simp only [recoveryStep]
    split
    · exact hs
    · split
      · exact hs
      · exact hs
  | apply feat i key =>
    simp only [recoveryStep]
    split
    · exact hs
    · next p hi =>
      have hplan : p.payloads sha256 feat key ⊆ P :=
        fun payload hpayload ↦ hP ⟨p, hi, hpayload⟩
      exact hs.committed fun applied L' hok ↦ hs.recovery hc hplan hok
  | reverse feat q =>
    simp only [recoveryStep]
    split
    · exact hs.committed fun t L' hok ↦ hs.reversal hc hP hok
    · exact hs

def payloadsAlong (sha256 : String → String) (S : RecoveryState) (as : List RecoveryAction) :
    Set String :=
  usedAlong (RecoveryAction.payloads sha256) (recoveryStep sha256) S as

theorem ReservationsWithin.run {S : RecoveryState} (hs : ReservationsWithin sha256 P S.ledger)
    (h : RecoveryInvariant sha256 S) {as : List RecoveryAction}
    (hP : payloadsAlong sha256 S as ⊆ P) :
    ReservationsWithin sha256 P (Lib.Runs.run (recoveryStep sha256) S as).ledger :=
  ((allAlong_uses_subset hP).invariant
    (I := fun S ↦ RecoveryInvariant sha256 S ∧ ReservationsWithin sha256 P S.ledger) ⟨h, hs⟩
    (fun _ a hI ha ↦ ⟨(hI.1.step a).1, hI.2.step hI.1.ledger.commands ha⟩)).2

end Within

section Results

variable {P : Set String} {feat : FeatContext} {key : String} {L' : LedgerState}

theorem CreditsCapped.rowsNaming_eq_nil {L : LedgerState} (h : CreditsCapped L) {n : ℕ}
    (h0 : recoveredCents L (ledgerOriginLocator n) = 0) :
    rowsNaming L (ledgerOriginLocator n) = [] := by
  cases hrows : rowsNaming L (ledgerOriginLocator n) with
  | nil => rfl
  | cons t ts =>
    exfalso
    have hpos : ∀ u ∈ t :: ts, 0 < u.compensationAmountCents := by
      intro u hu
      rw [← hrows] at hu
      obtain ⟨hmem, hloc⟩ := List.mem_filter.1 hu
      obtain ⟨-, -, -, -, -, -, -, hup, -⟩ := h.named u hmem n (by simpa using hloc)
      exact hup
    have hsum : 0 ≤ (ts.map (·.compensationAmountCents)).sum := by
      refine List.sum_nonneg (fun x hx ↦ ?_)
      obtain ⟨u, hu, rfl⟩ := List.mem_map.1 hx
      exact (hpos u (by simp [hu])).le
    have ht := hpos t (by simp)
    rw [recoveredCents, hrows, List.map_cons, List.sum_cons] at h0
    omega

/-- Where the digest does not collide, an exact reversal is no replay: the reservation it would
replay owns a row that already names the credit. -/
theorem LedgerSound.exact_not_replay {L : LedgerState} (h : LedgerSound sha256 L)
    (hs : ReservationsWithin sha256 P L) (hsha : Set.InjOn sha256 P) {p : CreditRecoveryPlan}
    (hP : p.payloads sha256 feat key ⊆ P) {original : Transaction} {applied : AppliedPlan}
    (hp : PlanOf L p original) (hkind : p.recoveryKind = .exactReversal)
    (hok : applyCreditRecovery sha256 feat L p key = .ok (applied, L')) :
    applied.created ≠ some false := by
  intro hfalse
  obtain ⟨-, hrec, -, happ⟩ := applyCreditRecovery_ok h.credits hp hok
  obtain ⟨hzero, halloc⟩ := hp.exact hkind
  have hnil := h.credits.rowsNaming_eq_nil (hrec.symm.trans hzero)
  have hpos : p.allocatedCents ≠ 0 := by
    have := hp.proves.positive
    have := hp.proves.remaining
    omega
  rcases applyResolvedLedgerPlan_ok happ with ⟨-, hc, -⟩ | ⟨created, hc, hres⟩
  · rw [hc] at hfalse
    cases hfalse
  rw [hc, Option.some.injEq] at hfalse
  subst hfalse
  rcases createReservedEffects_ok hres with ⟨-, -, r, hr, hid, hrep⟩ | ⟨hc, -⟩
  · have hr' : r ∈ L.reservations := hr.elim id id
    obtain ⟨c, rows, ho, hc⟩ := hs r hr'
    have hmatch := (assertReplayMatches_ok ho.version).1 (replayReserved_ok.1 hrep).1
    obtain ⟨hagree, -⟩ := (fingerprint_eq_iff hsha hc hP ho.fingerprint hmatch).1 rfl
    obtain ⟨actor, mechanism, ctype, hplan⟩ := hp.intended
    have hdebit : p.resolvedPlan.intendedPlan.debitAmount ≠ 0 := by
      rw [hplan]
      exact hpos
    have hmem : principalEffect p.resolvedPlan.intendedPlan ∈
        planEffects sha256 p.resolvedPlan feat.activeFeat key := by
      rw [planEffects, if_neg hdebit]
      simp
    obtain ⟨e, he, hea⟩ := forall₂_exists_left hagree hmem
    obtain ⟨t, ht, hrow⟩ := forall₂_exists_right ho.rows_of he
    have hloc : t.compensationOriginLocator = some (ledgerOriginLocator original.id) := by
      rw [hrow.compensationOriginLocator, hea.compensationOriginLocator, principalEffect, hplan,
        recoveryIntendedPlan]
      simp only [if_neg hpos, hp.proves.locator]
    have htmem : t ∈ L.transactions := by
      rw [← ho.rows_eq] at ht
      exact List.mem_of_mem_filter ht
    have hin : t ∈ rowsNaming L (ledgerOriginLocator original.id) :=
      List.mem_filter.2 ⟨htmem, by simpa using hloc⟩
    rw [hnil] at hin
    cases hin
  · cases hc

/-- A full recovery: an exact reversal, or a residual recovery that is not the replay of an
earlier command. -/
def CompletesRecovery (p : CreditRecoveryPlan) (applied : AppliedPlan) : Prop :=
  p.recoveryKind = .exactReversal ∨ (p.recoveryKind = .residual ∧ applied.created ≠ some false)

theorem LedgerSound.completes {L : LedgerState} (h : LedgerSound sha256 L)
    (hs : ReservationsWithin sha256 P L) (hsha : Set.InjOn sha256 P) {p : CreditRecoveryPlan}
    (hP : p.payloads sha256 feat key ⊆ P) {original : Transaction} {applied : AppliedPlan}
    (hp : PlanOf L p original)
    (hok : applyCreditRecovery sha256 feat L p key = .ok (applied, L'))
    (hfull : CompletesRecovery p applied) :
    recoveredCents L' (ledgerOriginLocator original.id) = original.amountCents := by
  obtain ⟨-, hrec, -, -⟩ := applyCreditRecovery_ok h.credits hp hok
  have hrem := hp.proves.remaining
  rcases hfull with hkind | ⟨hkind, hcreated⟩
  · obtain ⟨-, halloc⟩ := hp.exact hkind
    rw [(h.applyRecovery hp hok).2 (h.exact_not_replay hs hsha hP hp hkind hok)]
    omega
  · rw [(h.applyRecovery hp hok).2 hcreated]
    have halloc := hp.residual hkind
    omega

/-- A credit is never over-recovered. In every reachable state: the rows that name a positive
credit recover at most its amount, each debits the credit's own account by exactly what it
recovers, and no two share an intent; a plan built on another recovery history is refused and
writes nothing; an exact reversal is accepted only while nothing has been recovered; and after an
exact reversal, or a residual recovery that is no replay, no row of any later run names the
credit again, unless the digest collides on what was reserved. -/
theorem credit_never_over_recovered (sha256 : String → String)
    (seatClass : ℕ → Option String) (as : List RecoveryAction) :
    let S := run (recoveryStep sha256) (.empty seatClass) as
    let digested := payloadsAlong sha256 (.empty seatClass) as
    (∀ credit ∈ S.ledger.transactions, 0 < credit.amountCents →
      recoveredCents S.ledger (ledgerOriginLocator credit.id) ≤ credit.amountCents ∧
      (∀ t ∈ rowsNaming S.ledger (ledgerOriginLocator credit.id),
        t.amountCents = -t.compensationAmountCents ∧ t.scope = credit.scope) ∧
      (rowsNaming S.ledger (ledgerOriginLocator credit.id)).Pairwise
        (fun t u ↦ t.correctionIntentLocator ≠ u.correctionIntentLocator)) ∧
    (∀ feat i p key, S.plans[i]? = some p →
      p.proof.material.map (·.identities) ≠
        some ((rowsNaming S.ledger p.proof.originLocator).map (·.identity)) →
      (∀ out, applyCreditRecovery sha256 feat S.ledger p key ≠ .ok out) ∧
      recoveryStep sha256 S (.apply feat i key) = S) ∧
    (∀ feat, ∀ p ∈ S.plans, ∀ key applied L',
      applyCreditRecovery sha256 feat S.ledger p key = .ok (applied, L') →
      (p.recoveryKind = .exactReversal → rowsNaming S.ledger p.proof.originLocator = []) ∧
      (CompletesRecovery p applied → Set.InjOn sha256 (digested ∪ p.payloads sha256 feat key) →
        ∀ bs, rowsNaming (run (recoveryStep sha256) { S with ledger := L' } bs).ledger
          p.proof.originLocator = rowsNaming L' p.proof.originLocator)) ∧
    (∀ feat q t L', q.transaction ∈ S.ledger.transactions → 0 < q.transaction.amountCents →
      reverseTransaction sha256 feat S.ledger q = .ok (t, L') →
      (∃ existing, getExactReversal S.ledger q.transaction = some existing ∧ L' = S.ledger) ∨
      (rowsNaming S.ledger (ledgerOriginLocator q.transaction.id) = [] ∧
        (Set.InjOn sha256 (digested ∪ q.payloads sha256 S.ledger feat) → ∀ bs,
          rowsNaming (run (recoveryStep sha256) { S with ledger := L' } bs).ledger
            (ledgerOriginLocator q.transaction.id) =
            rowsNaming L' (ledgerOriginLocator q.transaction.id)))) := by
  intro S digested
  have hS : RecoveryInvariant sha256 S := (RecoveryInvariant.empty seatClass).run as
  have hcredits := hS.ledger.credits
  have hfirst : ∀ {feat p o key applied L'}, PlanOf S.ledger p o →
      applyCreditRecovery sha256 feat S.ledger p key = .ok (applied, L') →
      p.recoveryKind = .exactReversal → rowsNaming S.ledger (ledgerOriginLocator o.id) = [] := by
    intro feat p o key applied L' hp hok hkind
    obtain ⟨-, hrec, -, -⟩ := applyCreditRecovery_ok hcredits hp hok
    exact hcredits.rowsNaming_eq_nil (hrec.symm.trans (hp.exact hkind).1)
  have hfinal : ∀ {feat p o key applied L'}, PlanOf S.ledger p o →
      applyCreditRecovery sha256 feat S.ledger p key = .ok (applied, L') →
      CompletesRecovery p applied → Set.InjOn sha256 (digested ∪ p.payloads sha256 feat key) →
      ∀ bs, rowsNaming (run (recoveryStep sha256) { S with ledger := L' } bs).ledger
        (ledgerOriginLocator o.id) = rowsNaming L' (ledgerOriginLocator o.id) := by
    intro feat p o key applied L' hp hok hfull hsha bs
    have hwithin : ReservationsWithin sha256 (digested ∪ p.payloads sha256 feat key) S.ledger :=
      (ReservationsWithin.empty seatClass).run (.empty seatClass) Set.subset_union_left
    have hg := (hS.ledger.applyRecovery hp hok).1
    exact (hS.grow hg).naming_final (hg.rows.subset hp.proves.mem) hp.proves.positive
      (hS.ledger.completes hwithin hsha Set.subset_union_right hp hok hfull) bs
  refine ⟨fun credit hc hpos ↦ ⟨hcredits.capped credit hc hpos, fun t ht ↦ ?_,
    hcredits.intents credit.id⟩, fun feat i p key hi hstale ↦ ?_,
    fun feat p hp key applied L' hok ↦ ?_, fun feat q t L' hq hpos hok ↦ ?_⟩
  · obtain ⟨hmem, hloc⟩ := List.mem_filter.1 ht
    obtain ⟨credit', hc', hid, -, -, hs, -, -, hamount⟩ :=
      hcredits.named t hmem credit.id (by simpa using hloc)
    obtain rfl := hcredits.numbered.unique hc' hc hid
    exact ⟨hamount, hs⟩
  · obtain ⟨o, ho⟩ := hS.plans p (List.mem_of_getElem? hi)
    have hrefused : ∀ out, applyCreditRecovery sha256 feat S.ledger p key ≠ .ok out := by
      rintro ⟨applied, L'⟩ hok
      obtain ⟨hmat, -⟩ := applyCreditRecovery_ok hcredits ho hok
      rw [ho.proves.locator] at hstale
      exact hstale hmat
    refine ⟨hrefused, ?_⟩
    simp only [recoveryStep, hi]
    cases hr : applyCreditRecovery sha256 feat S.ledger p key with
    | ok out => exact absurd hr (hrefused out)
    | error e => rfl
  · obtain ⟨o, ho⟩ := hS.plans p hp
    rw [ho.proves.locator]
    exact ⟨hfirst ho hok, hfinal ho hok⟩
  · rcases (hS.ledger.reverse hok).2 with hrep | ⟨hcents, hcredit⟩ | hle
    · exact .inl hrep
    · obtain ⟨-, p, o, applied, hplan, hp, hkind, hid, happ⟩ := hS.ledger.reverseCredit hcredit
      have hpayloads : p.payloads sha256 feat q.idempotencyKey ⊆ q.payloads sha256 S.ledger feat := by
        rw [ReversalRequest.payloads, if_pos hcents]
        exact fun payload hpayload ↦ ⟨p, hplan, hpayload⟩
      rw [← hid]
      exact .inr ⟨hfirst hp happ hkind, fun hsha ↦ hfinal hp happ (.inl hkind)
        (hsha.mono (Set.union_subset_union_right _ hpayloads))⟩
    · omega

end Results

section Samples

def recoveryFeat : FeatContext := ⟨"FEAT-PROD-005", "corr_1", 0⟩

def payrollCredit : Effect where
  seatId := 1
  classId := "c"
  targetSeatId := 1
  actorSeatId := 1
  mechanism := "system"
  amount := some (.ofCents 200)
  accountType := "checking"
  type := some "payroll"

def proveCredit (rowPks : List ℕ) : RecoveryAction :=
  .prove "c" 1 (ledgerOriginLocator 1) (some 1) ⟨rowPks, fun _ ↦ true⟩

def resolveWith (i : ℕ) (kind : RecoveryKind) (intent : String) (cents : ℤ) : RecoveryAction :=
  .resolve i kind intent ⟨"c", none, false⟩ 1 "system" (some ⟨true, 1, some cents⟩) none

def sampleRun (as : List RecoveryAction) : RecoveryState :=
  run (recoveryStep id) (.empty fun _ ↦ some "c")
    ([.create recoveryFeat none payrollCredit, .settle 1 "c", proveCredit [1]] ++ as)

def accepts (S : RecoveryState) (i : ℕ) (key : String) : Bool :=
  S.plans[i]?.any fun p ↦ (applyCreditRecovery id recoveryFeat S.ledger p key).toBool

theorem credit_never_over_recovered_interval :
    let L := (sampleRun [resolveWith 0 .interval "I" 100, .apply recoveryFeat 0 "K"]).ledger
    recoveredCents L (ledgerOriginLocator 1) = 100 ∧
      ∀ credit ∈ L.transactions, 0 < credit.amountCents →
        recoveredCents L (ledgerOriginLocator credit.id) ≤ credit.amountCents := by
  intro L
  refine ⟨by decide +kernel, fun credit hc hpos ↦ ?_⟩
  exact ((credit_never_over_recovered id (fun _ ↦ some "c") _).1 credit hc hpos).1

/-- An exact reversal is accepted after an interval recovery of no cents; and a residual recovery
under the key and intent of an earlier interval recovery is accepted as its replay, after which
the rest of the credit can still be recovered. -/
theorem recovery_after_full_recovery :
    (let S := sampleRun [resolveWith 0 .interval "I" 0]
      let S' := run (recoveryStep id) S
        [.apply recoveryFeat 0 "K", resolveWith 0 .exactReversal "R" 0]
      accepts S 0 "K" = true ∧ accepts S' 1 "K2" = true) ∧
    (let S := sampleRun [resolveWith 0 .interval "I" 100, .apply recoveryFeat 0 "K",
        proveCredit [1, 2], resolveWith 1 .residual "I" 0]
      let S' := run (recoveryStep id) S
        [.apply recoveryFeat 1 "K", resolveWith 1 .interval "J" 100]
      accepts S 1 "K" = true ∧ accepts S' 2 "K2" = true ∧
        recoveredCents S'.ledger (ledgerOriginLocator 1) = 100 ∧
        recoveredCents (recoveryStep id S' (.apply recoveryFeat 2 "K2")).ledger
          (ledgerOriginLocator 1) = 200) := by
  decide +kernel

end Samples

end TokenHub.Ledger
