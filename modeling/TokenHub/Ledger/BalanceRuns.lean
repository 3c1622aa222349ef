import TokenHub.Ledger.Invariant

set_option autoImplicit false

namespace TokenHub.Ledger

open Lib.Decimals Lib.Checks Lib.SequencedLog Lib.Runs

/-- The two writers of the Ledger tables, each one atomic under its seat and class locks. -/
inductive LedgerAction
  | create (feat : FeatContext) (idempotencyKey : Option String)
      (reservation : Option LedgerCommandReservation) (e : Effect)
  | settle (seatId : ℕ) (classId : String)

/-- One action; a raised exception rolls its transaction back. -/
def perform (sha256 : String → String) (L : LedgerState) : LedgerAction → LedgerState
  | .create feat key reservation e =>
    match createPendingTransaction sha256 feat L key reservation e with
    | .ok (_, L') => L'
    | .error _ => L
  | .settle seatId classId =>
    match settleBalances L seatId classId with
    | .ok L' => L'
    | .error _ => L

variable {sha256 : String → String}

theorem createPendingTransaction_ok {feat : FeatContext} {L L' : LedgerState}
    {key : Option String} {reservation : Option LedgerCommandReservation} {e : Effect}
    {rows : List Transaction}
    (h : createPendingTransaction sha256 feat L key reservation e = .ok (rows, L')) :
    ∃ reservations ts, Insertions { L with reservations := reservations } ts L' := by
  simp only [createPendingTransaction, require_bind_eq_ok] at h
  obtain ⟨-, h⟩ := h
  split_ifs at h with hkey
  · simp only [createIdempotentTransaction, bind_eq_ok, pure_eq_ok, Prod.exists,
      Prod.mk.injEq] at h
    obtain ⟨rows', created, L₁, ⟨-, -, -, -, -, -, h⟩, -, rfl⟩ := h
    rcases createReservedEffects_ok h with ⟨-, rfl, -⟩ | ⟨-, -, fingerprint, -, hi, -⟩
    · exact ⟨L₁.reservations, [], .nil _⟩
    · exact ⟨_, rows', hi⟩
  · simp only [bind_eq_ok, pure_eq_ok, Prod.exists, Prod.mk.injEq] at h
    obtain ⟨t, L₁, ht, -, rfl⟩ := h
    exact ⟨L.reservations, [t], .cons (createPendingEffect_ok ht).1 (.nil _)⟩

theorem BalanceInvariant.insertions {L L' : LedgerState} {ts : List Transaction}
    (h : BalanceInvariant L) (hi : Insertions L ts L') : BalanceInvariant L' :=
  hi.invariant h (fun _ _ _ hI hins ↦ hI.insert hins)

theorem BalanceInvariant.perform {L : LedgerState} (h : BalanceInvariant L) (a : LedgerAction) :
    BalanceInvariant (perform sha256 L a) := by
  cases a with
  | create feat key reservation e =>
    simp only [Ledger.perform]
    split
    · next h' =>
      obtain ⟨reservations, ts, hi⟩ := createPendingTransaction_ok h'
      have h₀ : BalanceInvariant { L with reservations := reservations } := h.of_eq rfl rfl
      exact h₀.insertions hi
    · exact h
  | settle seatId classId =>
    simp only [Ledger.perform]
    split
    · next h' => exact (h.settleBalances h').1
    · exact h

theorem BalanceInvariant.run {L : LedgerState} (h : BalanceInvariant L)
    (as : List LedgerAction) : BalanceInvariant (run (Ledger.perform sha256) L as) :=
  run_invariant h (fun _ a hI ↦ hI.perform a) as

theorem Insertions.sequence_gt {L L' : LedgerState} {ts : List Transaction}
    (h : Insertions L ts L') : ∀ t ∈ ts, ∃ n, t.postingSequence = some n ∧
      maxPostingSequence L.transactions t.classId < n := by
  induction h with
  | nil => simp
  | cons hi _ ih =>
    intro t ht
    rcases List.mem_cons.1 ht with rfl | ht
    · exact ⟨_, hi.sequence, Nat.lt_succ_self _⟩
    · obtain ⟨n, hn, hlt⟩ := ih t ht
      refine ⟨n, hn, lt_of_le_of_lt ?_ hlt⟩
      rw [hi.state]
      exact maxPostingSequence_append_le

theorem BalanceInvariant.created_after_cursors {L : LedgerState} (h : BalanceInvariant L)
    {a : LedgerAction} {t : Transaction} (ht : t ∈ (Ledger.perform sha256 L a).transactions)
    (hnew : t ∉ L.transactions) {scope : Scope} (hscope : scope.classId = t.classId) {c : ℕ}
    (hc : getAccountPostingBoundary L scope = some c) :
    ∃ n, t.postingSequence = some n ∧ c < n := by
  obtain ⟨s, hs, hcs⟩ := Option.bind_eq_some_iff.1 hc
  obtain ⟨c', hc', hle, -⟩ := h.snapshots scope s hs
  obtain rfl : c' = c := by
    rw [hcs] at hc'
    exact (Option.some.inj hc').symm
  cases a with
  | create feat key reservation e =>
    simp only [Ledger.perform] at ht
    split at ht
    · next h' =>
      obtain ⟨reservations, ts, hi⟩ := createPendingTransaction_ok h'
      rw [hi.state] at ht
      rcases List.mem_append.1 ht with ht | ht
      · exact absurd ht hnew
      · obtain ⟨n, hn, hlt⟩ := hi.sequence_gt t ht
        rw [hscope] at hle
        exact ⟨n, hn, lt_of_le_of_lt hle hlt⟩
    · exact absurd ht hnew
  | settle seatId classId =>
    simp only [Ledger.perform] at ht
    split at ht
    · next h' =>
      rw [(h.settleBalances h').2] at ht
      exact absurd ht hnew
    · exact absurd ht hnew

theorem BalanceInvariant.settle_transactions {L : LedgerState} (h : BalanceInvariant L)
    (seatId : ℕ) (classId : String) :
    (Ledger.perform sha256 L (.settle seatId classId)).transactions = L.transactions := by
  simp only [Ledger.perform]
  split
  · next h' => exact (h.settleBalances h').2
  · rfl

theorem BalanceInvariant.settle_available {L : LedgerState} (h : BalanceInvariant L)
    (seatId : ℕ) (classId : String) (scope : Scope) :
    Ledger.getAvailableBalance (Ledger.perform sha256 L (.settle seatId classId)) scope =
      Ledger.getAvailableBalance L scope := by
  rw [(h.perform _).getAvailableBalance, h.getAvailableBalance, scopeCents, scopeCents,
    h.settle_transactions]

theorem RowsWellFormed.sequences_distinct {ts : List Transaction} (h : RowsWellFormed ts) :
    ts.Pairwise (fun t u ↦ t.classId = u.classId → t.postingSequence ≠ u.postingSequence) := by
  refine h.increasing.imp ?_
  intro t u hlt hc heq
  have := hlt hc
  simp only [Transaction.sequence, heq, lt_self_iff_false] at this

/-- The Ledger balance invariant, over every run of creations and settlements from an empty
ledger. -/
theorem ledger_balance_invariant (sha256 : String → String) (seatClass : ℕ → Option String)
    (as : List LedgerAction) :
    let L := run (Ledger.perform sha256) (.empty seatClass) as
    ((∀ t ∈ L.transactions, t.postingSequence.isSome) ∧ L.transactions.Pairwise
      (fun t u ↦ t.classId = u.classId → t.postingSequence ≠ u.postingSequence)) ∧
    (∀ a, ∀ t ∈ (Ledger.perform sha256 L a).transactions, t ∉ L.transactions →
      ∀ scope c, scope.classId = t.classId → getAccountPostingBoundary L scope = some c →
        ∃ n, t.postingSequence = some n ∧ c < n) ∧
    (∀ scope s, L.snapshots scope = some s → s.postedBalanceCents =
      postedHistoryCents L.transactions scope s.reconciledThroughPostingSequence) ∧
    (∀ scope, getPostedBalance L scope + getPendingBalanceDelta L scope = scopeCents L scope ∧
      getAvailableBalance L scope = scopeCents L scope) ∧
    (∀ seatId classId,
      (Ledger.perform sha256 L (.settle seatId classId)).transactions = L.transactions ∧
      ∀ scope, getAvailableBalance (Ledger.perform sha256 L (.settle seatId classId)) scope =
        getAvailableBalance L scope) ∧
    (∀ scope : Scope,
      (verifyPostedBalance L scope.classId scope.seatId scope.accountType.value
        ((getAccountPostingBoundary L scope).map Nat.cast)).outcome ≠ .fail ∧
      (verifyAvailableBalance L scope.classId scope.seatId scope.accountType.value
        ((getAccountPostingBoundary L scope).map Nat.cast)).outcome ≠ .fail) := by
  intro L
  have h : BalanceInvariant L := (BalanceInvariant.empty seatClass).run as
  refine ⟨⟨fun t ht ↦ ?_, h.rows.sequences_distinct⟩, ?_, ?_, ?_, ?_, ?_⟩
  · obtain ⟨n, hn⟩ := h.rows.sequenced t ht
    rw [hn]
    rfl
  · intro a t ht hnew scope c hscope hc
    exact h.created_after_cursors ht hnew hscope hc
  · intro scope s hs
    obtain ⟨c, hc, -, hp⟩ := h.snapshots scope s hs
    rw [hc, hp]
  · intro scope
    exact ⟨h.posted_add_pending scope, h.getAvailableBalance scope⟩
  · intro seatId classId
    exact ⟨h.settle_transactions seatId classId, h.settle_available seatId classId⟩
  · intro scope
    exact ⟨h.verifyPostedBalance scope, h.verifyAvailableBalance scope _⟩

end TokenHub.Ledger
