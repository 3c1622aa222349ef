import TokenHub.Lib.Runs
import TokenHub.Ledger.Settlement

set_option autoImplicit false

namespace TokenHub.Ledger

open Lib.Decimals Lib.Checks Lib.SequencedLog Lib.Runs

def Transaction.sequence (t : Transaction) : ℕ := t.postingSequence.getD 0

theorem admittedThrough_iff {b n : ℕ} {t : Transaction} (h : t.postingSequence = some n) :
    admittedThrough b t ↔ n ≤ b := by
  simp [admittedThrough, h]

section MaxSequence

variable {ts : List Transaction} {c : String}

theorem le_foldr_max {l : List ℕ} {n : ℕ} (h : n ∈ l) : n ≤ l.foldr max 0 := by
  induction l with
  | nil => simp at h
  | cons m l ih =>
    simp only [List.foldr_cons]
    rcases List.mem_cons.1 h with rfl | h
    · exact le_max_left _ _
    · exact (ih h).trans (le_max_right _ _)

theorem foldr_max_le {l : List ℕ} {b : ℕ} (h : ∀ n ∈ l, n ≤ b) : l.foldr max 0 ≤ b := by
  induction l with
  | nil => exact Nat.zero_le b
  | cons m l ih =>
    exact max_le (h m (by simp)) (ih (fun n hn ↦ h n (by simp [hn])))

theorem le_maxPostingSequence {t : Transaction} {n : ℕ} (ht : t ∈ ts) (hc : t.classId = c)
    (hn : t.postingSequence = some n) : n ≤ maxPostingSequence ts c := by
  apply le_foldr_max
  rw [List.mem_filterMap]
  exact ⟨t, by simp [ht, hc], hn⟩

theorem maxPostingSequence_append_le {us : List Transaction} :
    maxPostingSequence ts c ≤ maxPostingSequence (ts ++ us) c := by
  apply foldr_max_le
  intro n hn
  apply le_foldr_max
  rw [List.filter_append, List.filterMap_append]
  exact List.mem_append_left _ hn

end MaxSequence

/-- The rows carry a sequence, each its own within the class, and fit their columns. -/
structure RowsWellFormed (ts : List Transaction) : Prop where
  sequenced : ∀ t ∈ ts, ∃ n, t.postingSequence = some n
  increasing : Sequenced (·.classId) Transaction.sequence ts
  amounts : ∀ t ∈ ts, |t.amountCents| ≤ 2147483648
  ids : ts.length ≤ 2147483647

/-- The balance invariant: every cursor lies within the allocated order, and every snapshot holds
the history through its cursor. -/
structure BalanceInvariant (L : LedgerState) : Prop where
  rows : RowsWellFormed L.transactions
  snapshots : ∀ scope s, L.snapshots scope = some s →
    ∃ c, s.reconciledThroughPostingSequence = some c ∧
      c ≤ maxPostingSequence L.transactions scope.classId ∧
      s.postedBalanceCents = postedHistoryCents L.transactions scope (some c)

theorem BalanceInvariant.empty (seatClass : ℕ → Option String) :
    BalanceInvariant (.empty seatClass) where
  rows :=
    { sequenced := by simp [LedgerState.empty]
      increasing := List.Pairwise.nil
      amounts := by simp [LedgerState.empty]
      ids := by simp [LedgerState.empty] }
  snapshots := by simp [LedgerState.empty]

section Insertion

variable {L L' : LedgerState} {t : Transaction}

theorem RowsWellFormed.insert (h : RowsWellFormed L.transactions) (hi : Inserted L t L') :
    RowsWellFormed L'.transactions := by
  obtain ⟨hstate, hid, hseq, hfits⟩ := hi.state, hi.id, hi.sequence, hi.fits
  have happ : L'.transactions = L.transactions ++ [t] := by rw [hstate]
  rw [happ]
  refine ⟨?_, ?_, ?_, ?_⟩
  · intro u hu
    rcases List.mem_append.1 hu with hu | hu
    · exact h.sequenced u hu
    · rw [List.mem_singleton.1 hu]
      exact ⟨_, hseq⟩
  · apply h.increasing.snoc
    intro u hu hc
    obtain ⟨n, hn⟩ := h.sequenced u hu
    have := le_maxPostingSequence hu hc hn
    simp only [Transaction.sequence, hn, hseq, Option.getD_some]
    omega
  · intro u hu
    rcases List.mem_append.1 hu with hu | hu
    · exact h.amounts u hu
    · rw [List.mem_singleton.1 hu]
      have := hfits.2
      simp only [inInt32, decide_eq_true_eq] at this
      exact abs_le.2 ⟨by omega, by omega⟩
  · have := hfits.1
    simp only [List.length_append, List.length_singleton]
    omega

/-- A new row comes after every cursor of its class, so it changes no posted history. -/
theorem postedHistoryCents_insert {scope : Scope} {c : ℕ}
    (hc : c ≤ maxPostingSequence L.transactions scope.classId) (hi : Inserted L t L') :
    postedHistoryCents L'.transactions scope (some c) =
      postedHistoryCents L.transactions scope (some c) := by
  have hnot : ¬ (t.scope = scope ∧ admittedThrough c t) := by
    rintro ⟨hs, ha⟩
    rw [admittedThrough_iff hi.sequence] at ha
    have : t.classId = scope.classId := by rw [← hs]; rfl
    rw [this] at ha
    omega
  rw [hi.state]
  simp only [postedHistoryCents, sumOver_snoc, if_neg hnot, add_zero]

theorem BalanceInvariant.insert (h : BalanceInvariant L) (hi : Inserted L t L') :
    BalanceInvariant L' := by
  refine ⟨h.rows.insert hi, ?_⟩
  intro scope s hs
  have hsnap : L'.snapshots = L.snapshots := by rw [hi.state]
  rw [hsnap] at hs
  obtain ⟨c, hc, hle, hp⟩ := h.snapshots scope s hs
  refine ⟨c, hc, hle.trans ?_, ?_⟩
  · rw [hi.state]
    exact maxPostingSequence_append_le
  · rw [postedHistoryCents_insert hle hi, hp]

theorem BalanceInvariant.of_eq (h : BalanceInvariant L)
    (ht : L'.transactions = L.transactions) (hs : L'.snapshots = L.snapshots) :
    BalanceInvariant L' := by
  refine ⟨by rw [ht]; exact h.rows, ?_⟩
  rw [ht, hs]
  exact h.snapshots

end Insertion

section Settlement

variable {L L' : LedgerState} {scope : Scope}

theorem advanceCursor_ok {ts : List Transaction} {c c' : Option ℕ} {b : ℕ}
    (h : advanceCursor c ts = .ok c') (hc : ∀ n ∈ c, n ≤ b)
    (hts : ∀ t ∈ ts, ∀ n ∈ t.postingSequence, n ≤ b) :
    (∀ n ∈ c', n ≤ b) ∧ (ts ≠ [] → c'.isSome) ∧ (c.isSome → c'.isSome) := by
  induction ts generalizing c with
  | nil =>
    simp only [advanceCursor, Except.ok.injEq] at h
    subst h
    exact ⟨hc, by simp, id⟩
  | cons t ts ih =>
    simp only [advanceCursor, demand_bind_eq_ok] at h
    obtain ⟨n, hn, h⟩ := h
    have hmax : ∀ m ∈ some (max (c.getD 0) n), m ≤ b := by
      intro m hm
      rw [← Option.mem_some.1 hm]
      apply max_le
      · cases c with
        | none => exact Nat.zero_le b
        | some m => exact hc m rfl
      · exact hts t (by simp) n hn
    obtain ⟨hb, -, hs⟩ := ih h hmax (fun u hu ↦ hts u (by simp [hu]))
    exact ⟨hb, fun _ ↦ hs rfl, fun _ ↦ hs rfl⟩

theorem settleAccount_ok {pending : List Transaction}
    (h : settleAccount L pending scope = .ok L') :
    ∃ c, advanceCursor ((L.snapshots scope).getD ⟨0, none⟩).reconciledThroughPostingSequence
        (pending.filter (·.accountType = scope.accountType)) = .ok c ∧
      L' = { L with
        snapshots := Function.update L.snapshots scope
          (some ⟨postedHistoryCents L.transactions scope c, c⟩) } := by
  simp only [settleAccount, bind_eq_ok, require_eq_ok, pure_eq_ok] at h
  obtain ⟨c, hc, -, -, rfl⟩ := h
  exact ⟨c, hc, rfl⟩

theorem settleAccounts_frame {pending : List Transaction} {seatId : ℕ} {classId : String}
    {accounts : List AccountType}
    (h : settleAccounts pending seatId classId L accounts = .ok L') :
    L' = { L with snapshots := L'.snapshots } := by
  induction accounts generalizing L with
  | nil =>
    simp only [settleAccounts, Except.ok.injEq] at h
    rw [h]
  | cons a as ih =>
    simp only [settleAccounts, bind_eq_ok] at h
    obtain ⟨L₁, h₁, h₂⟩ := h
    obtain ⟨c, -, rfl⟩ := settleAccount_ok h₁
    have hrest := ih h₂
    exact hrest

theorem settleBalances_frame {seatId : ℕ} {classId : String}
    (h : settleBalances L seatId classId = .ok L') :
    L' = { L with snapshots := L'.snapshots } := by
  simp only [settleBalances, require_bind_eq_ok] at h
  obtain ⟨-, h⟩ := h
  split_ifs at h
  · simp only [pure_eq_ok] at h
    rw [h]
  · exact settleAccounts_frame h

theorem BalanceInvariant.settleAccount (h : BalanceInvariant L) {pending : List Transaction}
    (hp : ∀ t ∈ pending, t ∈ L.transactions ∧ t.classId = scope.classId)
    (hsome : ∃ t ∈ pending, t.accountType = scope.accountType)
    (hok : settleAccount L pending scope = .ok L') :
    BalanceInvariant L' ∧ L'.transactions = L.transactions := by
  obtain ⟨c, hc, rfl⟩ := settleAccount_ok hok
  have hold : ∀ n ∈ ((L.snapshots scope).getD ⟨0, none⟩).reconciledThroughPostingSequence,
      n ≤ maxPostingSequence L.transactions scope.classId := by
    intro n hn
    cases hs : L.snapshots scope with
    | none => simp [hs] at hn
    | some s =>
      obtain ⟨m, hm, hle, -⟩ := h.snapshots scope s hs
      simp only [hs, Option.getD_some, hm, Option.mem_some] at hn
      rw [← hn]
      exact hle
  obtain ⟨hle, hex, -⟩ := advanceCursor_ok hc hold (fun t ht n hn ↦
    le_maxPostingSequence (hp t (List.mem_of_mem_filter ht)).1
      (hp t (List.mem_of_mem_filter ht)).2 hn)
  have hne : pending.filter (·.accountType = scope.accountType) ≠ [] := by
    obtain ⟨t, ht, ha⟩ := hsome
    exact List.ne_nil_of_mem (List.mem_filter.2 ⟨ht, by simpa using ha⟩)
  obtain ⟨n, rfl⟩ := Option.isSome_iff_exists.1 (hex hne)
  refine ⟨⟨h.rows, ?_⟩, rfl⟩
  intro scope' s hs
  by_cases heq : scope' = scope
  · subst heq
    simp only [Function.update_self, Option.some.injEq] at hs
    subst hs
    exact ⟨n, rfl, hle n rfl, rfl⟩
  · simp only [Function.update_of_ne heq] at hs
    exact h.snapshots scope' s hs

theorem BalanceInvariant.settleAccounts {pending : List Transaction} {seatId : ℕ}
    {classId : String} {accounts : List AccountType} (h : BalanceInvariant L)
    (hp : ∀ t ∈ pending, t ∈ L.transactions ∧ t.classId = classId)
    (hsome : ∀ a ∈ accounts, ∃ t ∈ pending, t.accountType = a)
    (hok : settleAccounts pending seatId classId L accounts = .ok L') :
    BalanceInvariant L' ∧ L'.transactions = L.transactions := by
  induction accounts generalizing L with
  | nil =>
    simp only [Ledger.settleAccounts, Except.ok.injEq] at hok
    subst hok
    exact ⟨h, rfl⟩
  | cons a as ih =>
    simp only [Ledger.settleAccounts, bind_eq_ok] at hok
    obtain ⟨L₁, h₁, h₂⟩ := hok
    obtain ⟨hinv, htx⟩ := h.settleAccount hp (hsome a (by simp)) h₁
    obtain ⟨hinv', htx'⟩ := ih hinv (by rw [htx]; exact hp)
      (fun b hb ↦ hsome b (by simp [hb])) h₂
    exact ⟨hinv', htx'.trans htx⟩

theorem mem_pendingRows {seatId : ℕ} {classId : String} {t : Transaction} :
    t ∈ pendingRows L seatId classId ↔ t ∈ L.transactions ∧ t.classId = classId ∧
      t.seatId = seatId ∧ postingState L.snapshots t = .pending := by
  simp [pendingRows]

/-- A settlement moves cursors and rebuilds snapshots; it touches no row. -/
theorem BalanceInvariant.settleBalances {seatId : ℕ} {classId : String}
    (h : BalanceInvariant L) (hok : settleBalances L seatId classId = .ok L') :
    BalanceInvariant L' ∧ L'.transactions = L.transactions := by
  simp only [Ledger.settleBalances, require_bind_eq_ok] at hok
  obtain ⟨-, hok⟩ := hok
  split_ifs at hok with hnil
  · simp only [pure_eq_ok] at hok
    subst hok
    exact ⟨h, rfl⟩
  · refine h.settleAccounts (fun t ht ↦ ?_) (fun a ha ↦ ?_) hok
    · obtain ⟨hm, hc, -⟩ := mem_pendingRows.1 ht
      exact ⟨hm, hc⟩
    · simpa using (List.mem_filter.1 ha).2

end Settlement

section Balance

variable {L : LedgerState}

theorem quantizeCurrency_ofCents {n : ℤ} (h : |n| < 10 ^ 28) :
    (quantizeCurrency (some (.ofCents n))).value = n := by
  have hn : (Hundredths.ofCents n).units < 10 ^ Decimal.contextPrecision := by
    have : ((Hundredths.ofCents n).units : ℤ) < 10 ^ 28 := by
      simpa [Hundredths.ofCents] using h
    simp only [Decimal.contextPrecision]
    exact_mod_cast this
  simp only [quantizeCurrency, Decimal.ofCents, Decimal.ofHundredths,
    Decimal.quantizeFinite_hundredths hn, Option.getD_some]
  exact Hundredths.value_ofCents n

theorem postingState_pending_iff {t : Transaction} {n : ℕ} {s : LedgerBalanceSnapshot} {c : ℕ}
    (hn : t.postingSequence = some n) (hs : L.snapshots t.scope = some s)
    (hc : s.reconciledThroughPostingSequence = some c) :
    postingState L.snapshots t = .pending ↔ ¬ admittedThrough c t := by
  simp [postingState, admittedThrough, hn, hs, hc]

theorem RowsWellFormed.abs_sumOver_lt {ts : List Transaction} (h : RowsWellFormed ts)
    (p : Transaction → Prop) [DecidablePred p] :
    |sumOver (·.amountCents) p ts| < 10 ^ 28 := by
  have hle := abs_sumOver_le (p := p) (by norm_num : (0 : ℤ) ≤ 2147483648) h.amounts
  have hlen : (ts.length : ℤ) ≤ 2147483647 := by exact_mod_cast h.ids
  calc |sumOver (·.amountCents) p ts| ≤ ts.length * 2147483648 := hle
    _ ≤ 2147483647 * 2147483648 := by omega
    _ < 10 ^ 28 := by norm_num

/-- Posted plus pending is the sum of every row of the scope. -/
theorem BalanceInvariant.availableBalanceExpression (h : BalanceInvariant L) (scope : Scope) :
    availableBalanceExpression L scope = scopeCents L scope := by
  unfold Ledger.availableBalanceExpression
  cases hs : L.snapshots scope with
  | none =>
    have hsplit := sumOver_split (v := fun t : Transaction ↦ t.amountCents)
      (p := fun t ↦ t.scope = scope) (q := fun t ↦ postingState L.snapshots t = .posted)
      L.transactions
    have hpend : pendingRowsCents L scope = sumOver (·.amountCents)
        (fun t ↦ t.scope = scope ∧ ¬ postingState L.snapshots t = .posted) L.transactions := by
      apply sumOver_congr
      intro t _
      cases postingState L.snapshots t <;> simp
    rw [scopeCents, hsplit, ← hpend]
    rfl
  | some s =>
    obtain ⟨c, hc, -, hp⟩ := h.snapshots scope s hs
    have hsplit := sumOver_split (v := fun t : Transaction ↦ t.amountCents)
      (p := fun t ↦ t.scope = scope) (q := fun t ↦ admittedThrough c t) L.transactions
    have hpend : pendingRowsCents L scope = sumOver (·.amountCents)
        (fun t ↦ t.scope = scope ∧ ¬ admittedThrough c t) L.transactions := by
      apply sumOver_congr
      intro t ht
      obtain ⟨n, hn⟩ := h.rows.sequenced t ht
      constructor
      · rintro ⟨rfl, hst⟩
        exact ⟨rfl, (postingState_pending_iff hn hs hc).1 hst⟩
      · rintro ⟨rfl, hst⟩
        exact ⟨rfl, (postingState_pending_iff hn hs hc).2 hst⟩
    rw [scopeCents, hsplit, ← hpend]
    simp only [hp]
    rfl

theorem BalanceInvariant.getAvailableBalance (h : BalanceInvariant L) (scope : Scope) :
    getAvailableBalance L scope = scopeCents L scope := by
  rw [Ledger.getAvailableBalance, h.availableBalanceExpression]
  exact quantizeCurrency_ofCents (h.rows.abs_sumOver_lt _)

theorem BalanceInvariant.posted_add_pending (h : BalanceInvariant L) (scope : Scope) :
    getPostedBalance L scope + getPendingBalanceDelta L scope = scopeCents L scope := by
  have hpend : getPendingBalanceDelta L scope = pendingRowsCents L scope :=
    quantizeCurrency_ofCents (h.rows.abs_sumOver_lt _)
  rw [hpend, ← h.availableBalanceExpression, Ledger.availableBalanceExpression]
  congr 1
  apply quantizeCurrency_ofCents
  cases hs : L.snapshots scope with
  | none => exact h.rows.abs_sumOver_lt _
  | some s =>
    obtain ⟨c, -, -, hp⟩ := h.snapshots scope s hs
    simp only [hp]
    exact h.rows.abs_sumOver_lt _

/-- The boundary that verification is asked to use: `get_account_posting_boundary`. -/
def getAccountPostingBoundary (L : LedgerState) (scope : Scope) : Option ℕ :=
  (L.snapshots scope).bind (·.reconciledThroughPostingSequence)

theorem reconstructPostedBalance_cases (L : LedgerState) (scope : Scope) (boundary : Option ℕ) :
    (∃ code, reconstructPostedBalance L scope.classId scope.seatId scope.accountType.value
        (boundary.map Nat.cast) = .unavailable code) ∨
      ∃ b, boundary = some b ∧
        balanceScope scope.classId scope.seatId scope.accountType.value = some scope ∧
        reconstructPostedBalance L scope.classId scope.seatId scope.accountType.value
            (boundary.map Nat.cast) =
          { outcome := .pass
            reconstructedCents := some (postedHistoryCents L.transactions scope (some b))
            boundary := some (b : ℤ) } := by
  unfold reconstructPostedBalance
  by_cases hvalid : scope.classId = "" ∨ scope.seatId = 0
  · exact .inl ⟨_, by simp [balanceScope, hvalid]; rfl⟩
  · have hscope : balanceScope scope.classId scope.seatId scope.accountType.value = some scope := by
      simp [balanceScope, hvalid]
    rw [hscope]
    cases boundary with
    | none => exact .inl ⟨_, rfl⟩
    | some b =>
      simp only [Option.map_some]
      rw [if_neg (by omega)]
      split_ifs with hgap
      · exact .inl ⟨_, rfl⟩
      · exact .inr ⟨b, rfl, by trivial, by simp⟩

/-- At the scope's own cursor the stored balance agrees with the history. -/
theorem BalanceInvariant.verifyPostedBalance (h : BalanceInvariant L) (scope : Scope) :
    (verifyPostedBalance L scope.classId scope.seatId scope.accountType.value
      ((getAccountPostingBoundary L scope).map Nat.cast)).outcome ≠ .fail := by
  unfold Ledger.verifyPostedBalance
  rcases reconstructPostedBalance_cases L scope (getAccountPostingBoundary L scope) with
    ⟨code, hcode⟩ | ⟨b, hb, hscope, hpass⟩
  · rw [hcode]
    cases balanceScope scope.classId scope.seatId scope.accountType.value <;>
      simp [LedgerProofResult.unavailable]
  · rw [hpass, hscope]
    unfold getAccountPostingBoundary at hb
    obtain ⟨s, hs, hc⟩ := Option.bind_eq_some_iff.1 hb
    obtain ⟨c, hc', -, hp⟩ := h.snapshots scope s hs
    obtain rfl : c = b := by
      rw [hc] at hc'
      exact (Option.some.inj hc').symm
    simp [hs, hc, hp]

theorem BalanceInvariant.verifyAvailableBalance (h : BalanceInvariant L) (scope : Scope)
    (boundary : Option ℕ) :
    (verifyAvailableBalance L scope.classId scope.seatId scope.accountType.value
      (boundary.map Nat.cast)).outcome ≠ .fail := by
  unfold Ledger.verifyAvailableBalance reconstructAvailableBalance
  rcases reconstructPostedBalance_cases L scope boundary with
    ⟨code, hcode⟩ | ⟨b, hb, hscope, hpass⟩
  · rw [hcode]
    cases balanceScope scope.classId scope.seatId scope.accountType.value <;>
      simp [LedgerProofResult.unavailable]
  · rw [hpass, hscope]
    simp [h.getAvailableBalance]

end Balance

end TokenHub.Ledger
