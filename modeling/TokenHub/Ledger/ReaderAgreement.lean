import TokenHub.Ledger.Readers
import TokenHub.Ledger.Invariant
import Mathlib.Data.List.Induction

set_option autoImplicit false

namespace TokenHub.Ledger

open Lib.Decimals Lib.Checks Lib.Sql Lib.SequencedLog

variable {T : LedgerTables} {row : LedgerRow} {s s' : SnapshotRow}

section Classification

/-- The rows that a cursor covers: the meaning that every classification has. -/
def LedgerTables.Reconciled (T : LedgerTables) (row : LedgerRow) : Prop :=
  ∃ s ∈ T.snapshots, s.coversRow row ∧ ∃ n c, row.postingSequence = some n ∧
    s.reconciledThroughPostingSequence = some c ∧ n ≤ c

theorem AccountType.value_injective : Function.Injective AccountType.value := by
  intro a b h
  cases a <;> cases b <;> first | rfl | (exact absurd h (by decide))

theorem SnapshotRow.postingScope_injective (h : s.postingScope = s'.postingScope) :
    s.scope = s'.scope := by
  simp only [postingScope, Prod.mk.injEq] at h
  obtain ⟨hclass, hseat, haccount⟩ := h
  rw [scope, scope, hclass, hseat, AccountType.value_injective haccount]

theorem LedgerTables.snapshot_unique (hs : s ∈ T.snapshots) (hs' : s' ∈ T.snapshots)
    (h : s.scope = s'.scope) : s = s' :=
  List.inj_on_of_nodup_map T.scopesUnique hs hs' h

theorem SnapshotRow.coversRow.scope_eq (h : s.coversRow row) (h' : s'.coversRow row) :
    s.scope = s'.scope := by
  obtain ⟨hclass, hseat, haccount⟩ := h
  obtain ⟨hclass', hseat', haccount'⟩ := h'
  rw [hclass, Option.some.injEq] at hclass'
  rw [haccount, Option.some.injEq] at haccount'
  rw [scope, scope, hclass', ← hseat, hseat', AccountType.value_injective haccount']

theorem LedgerTables.find?_coversRow (hs : s ∈ T.snapshots) (hcovers : s.coversRow row) :
    T.snapshots.find? (fun s ↦ s.coversRow row) = some s := by
  cases hfind : T.snapshots.find? (fun s ↦ s.coversRow row) with
  | none => exact absurd hcovers (by simpa using List.find?_eq_none.1 hfind s hs)
  | some s' =>
    have hmem := List.mem_of_find?_eq_some hfind
    have hcovers' : s'.coversRow row := by simpa using List.find?_some hfind
    rw [T.snapshot_unique hmem hs (hcovers'.scope_eq hcovers)]

theorem LedgerTables.postingState_eq (T : LedgerTables) (row : LedgerRow) :
    T.postingState row = .posted ↔ T.Reconciled row := by
  unfold postingState
  constructor
  · intro h
    cases hseq : row.postingSequence with
    | none => simp [hseq] at h
    | some n =>
      simp only [hseq] at h
      split_ifs at h with hany
      obtain ⟨c, hc, hle⟩ := (Option.any_eq_true _ _).1 hany
      obtain ⟨s, hfind, hcursor⟩ := Option.bind_eq_some_iff.1 hc
      refine ⟨s, List.mem_of_find?_eq_some hfind, ?_, n, c, hseq, hcursor, by simpa using hle⟩
      simpa using List.find?_some hfind
  · rintro ⟨s, hs, hcovers, n, c, hseq, hcursor, hle⟩
    simp [hseq, T.find?_coversRow hs hcovers, hcursor, hle]

theorem LedgerTables.postingStateExpression_eq (T : LedgerTables) (row : LedgerRow) :
    T.postingStateExpression row = .posted ↔ T.Reconciled row := by
  have hany : (T.snapshots.any (fun s ↦ holds <|
      and (and (and (and (eq (some s.classId) row.classId) (eq (some s.seatId) (some row.seatId)))
        (eq (some s.accountType.value) row.accountType)) (isNotNull row.postingSequence))
        (le row.postingSequence s.reconciledThroughPostingSequence))) = true ↔ T.Reconciled row := by
    rw [List.any_eq_true]
    refine exists_congr fun s ↦ and_congr_right fun _ ↦ ?_
    simp only [holds_and, holds_eq, holds_le, holds_isNotNull, Option.some.injEq]
    constructor
    · rintro ⟨⟨⟨⟨⟨_, rfl, hclass⟩, _, rfl, hseat⟩, _, rfl, haccount⟩, -⟩, n, c, hn, hc, hle⟩
      exact ⟨⟨hclass, hseat, haccount⟩, n, c, hn, hc, hle⟩
    · rintro ⟨⟨hclass, hseat, haccount⟩, n, c, hn, hc, hle⟩
      exact ⟨⟨⟨⟨⟨_, rfl, hclass⟩, _, rfl, hseat⟩, _, rfl, haccount⟩, by simp [hn]⟩, n, c, hn, hc, hle⟩
  simp only [postingStateExpression]
  split_ifs with h
  · simp [hany.1 h]
  · have hnot : ¬ T.Reconciled row := fun hr ↦ h (hany.2 hr)
    simp [hnot]

theorem status_ext {a b : TransactionStatus} (h : a = .posted ↔ b = .posted) : a = b := by
  cases a <;> cases b <;> simp_all

theorem foldl_update_cursors {found : List SnapshotRow} {key : PostingScope} {c₀ : PostingScope → Option ℤ}
    (hunique : ∀ s ∈ found, ∀ s' ∈ found, s.postingScope = s'.postingScope → s = s') :
    (found.foldl (fun cursors s ↦
      Function.update cursors s.postingScope s.reconciledThroughPostingSequence) c₀) key =
      match found.find? (fun s ↦ s.postingScope = key) with
      | some s => s.reconciledThroughPostingSequence
      | none => c₀ key := by
  induction found using List.reverseRecOn with
  | nil => rfl
  | append_singleton found s ih =>
    rw [List.foldl_append, List.foldl_cons, List.foldl_nil, List.find?_append]
    have ih := ih (fun a ha b hb ↦ hunique a (by simp [ha]) b (by simp [hb]))
    by_cases hkey : s.postingScope = key
    · rw [hkey, Function.update_self]
      cases hfind : found.find? (fun s ↦ s.postingScope = key) with
      | none => simp [hkey]
      | some s' =>
        have hmem := List.mem_of_find?_eq_some hfind
        have hsame : s'.postingScope = key := by simpa using List.find?_some hfind
        rw [hunique s' (by simp [hmem]) s (by simp) (hsame.trans hkey.symm)]
        rfl
    · rw [Function.update_of_ne (fun h ↦ hkey h.symm), ih]
      have hlast : ([s].find? (fun s ↦ s.postingScope = key)) = none := by simp [hkey]
      rw [hlast, Option.or_none]

theorem LedgerTables.resolveReconciliationCursors_eq (T : LedgerTables)
    {scopes : List (Option PostingScope)} {key : PostingScope} (hwanted : some key ∈ scopes) :
    T.resolveReconciliationCursors scopes key =
      (T.snapshots.find? (fun s ↦ s.postingScope = key)).bind
        (·.reconciledThroughPostingSequence) := by
  have hmem : key ∈ (scopes.filterMap id).dedup := by
    rw [List.mem_dedup, List.mem_filterMap]
    exact ⟨_, hwanted, rfl⟩
  simp only [resolveReconciliationCursors]
  rw [foldl_update_cursors, List.find?_filter]
  · have hfind : ∀ s : SnapshotRow, (holds (and (and
        (isIn (some s.classId) ((scopes.filterMap id).dedup.map (·.1)))
        (isIn (some s.seatId) ((scopes.filterMap id).dedup.map (·.2.1))))
        (isIn (some s.postingScope) (scopes.filterMap id).dedup)) = true ∧
          s.postingScope = key) ↔ s.postingScope = key := by
      intro s
      rw [holds_and, holds_and, holds_isIn, holds_isIn, holds_isIn]
      refine ⟨fun h ↦ h.2, ?_⟩
      rintro rfl
      exact ⟨⟨⟨⟨_, List.mem_map_of_mem hmem, rfl⟩, ⟨_, List.mem_map_of_mem hmem, rfl⟩⟩,
        ⟨_, hmem, rfl⟩⟩, rfl⟩
    simp only [decide_eq_true_eq, hfind]
    cases T.snapshots.find? (fun s ↦ s.postingScope = key) <;> rfl
  · intro a ha b hb hab
    exact T.snapshot_unique (List.mem_filter.1 ha).1 (List.mem_filter.1 hb).1
      (SnapshotRow.postingScope_injective hab)

theorem postingScopeOf_some {key : PostingScope} (h : postingScopeOf row = some key)
    (s : SnapshotRow) : s.postingScope = key ↔ s.coversRow row := by
  unfold postingScopeOf at h
  split at h
  · next classId accountType hclass haccount =>
    split_ifs at h
    rw [← Option.some.inj h, SnapshotRow.postingScope, SnapshotRow.coversRow, hclass, haccount]
    simp only [Prod.mk.injEq, Option.some.injEq]
    tauto
  · cases h

theorem not_coversRow_of_none (h : postingScopeOf row = none) : ¬ s.coversRow row := by
  rintro ⟨hclass, -, haccount⟩
  simp only [postingScopeOf, hclass, haccount] at h
  split_ifs at h with hempty
  rcases hempty with hempty | hempty
  · exact s.classId_ne_empty hempty
  · cases hs : s.accountType <;> simp [hs, AccountType.value] at hempty

theorem LedgerTables.projectPostingStates_eq (T : LedgerTables) (rows : List LedgerRow) :
    T.projectPostingStates rows = rows.map T.postingState := by
  unfold projectPostingStates
  refine List.map_congr_left fun row hrow ↦ ?_
  cases hscope : postingScopeOf row with
  | none =>
    have hpending : ¬ T.postingState row = .posted := by
      rw [T.postingState_eq]
      rintro ⟨s, -, hcovers, -⟩
      exact not_coversRow_of_none hscope hcovers
    refine status_ext ⟨fun h ↦ ?_, fun h ↦ absurd h hpending⟩
    cases hseq : row.postingSequence <;> simp [classifyPostingState, hseq] at h
  | some key =>
    have hwanted : some key ∈ rows.map postingScopeOf := List.mem_map.2 ⟨row, hrow, hscope⟩
    have hsnapshot : T.snapshots.find? (fun s ↦ s.postingScope = key) =
        T.snapshots.find? (fun s ↦ s.coversRow row) := by
      congr 1
      funext s
      rw [decide_eq_decide]
      exact postingScopeOf_some hscope s
    rw [Option.bind_some, T.resolveReconciliationCursors_eq hwanted, hsnapshot, postingState,
      classifyPostingState.eq_def]
    cases row.postingSequence with
    | none => rfl
    | some n =>
      cases (T.snapshots.find? (fun s ↦ s.coversRow row)).bind
        (·.reconciledThroughPostingSequence) with
      | none => rfl
      | some c => simp

end Classification

section Balances

variable {scope : Scope}

def LedgerRow.isOf (row : LedgerRow) (scope : Scope) : Prop :=
  row.classId = some scope.classId ∧ row.seatId = scope.seatId ∧
    row.accountType = some scope.accountType.value

instance (row : LedgerRow) (scope : Scope) : Decidable (row.isOf scope) := by
  unfold LedgerRow.isOf; infer_instance

def LedgerTables.pendingCents (T : LedgerTables) (scope : Scope) : ℤ :=
  sumOver (·.amountCents) (fun row ↦ row.isOf scope ∧ T.postingState row = .pending) T.rows

/-- The available cents of an account: its snapshot, if there is one, and its pending rows. -/
def LedgerTables.availableCents (T : LedgerTables) (scope : Scope) : ℤ :=
  ((T.snapshots.find? (fun s ↦ s.scope = scope)).map (·.postedBalanceCents)).getD 0 +
    T.pendingCents scope

theorem LedgerTables.postingStateExpression_eq_postingState (T : LedgerTables) (row : LedgerRow) :
    T.postingStateExpression row = T.postingState row :=
  status_ext ((T.postingStateExpression_eq row).trans (T.postingState_eq row).symm)

theorem LedgerTables.snapshot_eq (T : LedgerTables) (scope : Scope) :
    T.snapshot scope.seatId scope.classId scope.accountType.value =
      T.snapshots.find? (fun s ↦ s.scope = scope) := by
  unfold snapshot
  congr 1
  funext s
  rw [decide_eq_decide]
  obtain ⟨classId, seatId, accountType⟩ := scope
  simp only [SnapshotRow.scope, Scope.mk.injEq]
  constructor
  · rintro ⟨rfl, rfl, h⟩
    exact ⟨rfl, rfl, AccountType.value_injective h⟩
  · rintro ⟨rfl, rfl, rfl⟩
    exact ⟨rfl, rfl, rfl⟩

theorem LedgerTables.sumAmounts_eq (T : LedgerTables) (scope : Scope) (status : TransactionStatus) :
    (T.sumAmounts scope.seatId scope.classId scope.accountType.value status).getD 0 =
      sumOver (·.amountCents) (fun row ↦ row.isOf scope ∧ T.postingState row = status) T.rows := by
  rw [sumAmounts, coalesce_sum, sumOver]
  congr 2
  refine List.filter_congr fun row _ ↦ ?_
  rw [decide_eq_decide, T.postingStateExpression_eq_postingState]
  refine and_congr_left fun _ ↦ ?_
  simp only [holds_and, holds_eq, Option.some.injEq, LedgerRow.isOf]
  constructor
  · rintro ⟨⟨⟨_, rfl, hseat⟩, _, hclass, rfl⟩, _, haccount, rfl⟩
    exact ⟨hclass, hseat.symm, haccount⟩
  · rintro ⟨hclass, hseat, haccount⟩
    exact ⟨⟨⟨_, rfl, hseat.symm⟩, _, hclass, rfl⟩, _, haccount, rfl⟩

theorem LedgerTables.postedCents_of_none
    (h : T.snapshots.find? (fun s ↦ s.scope = scope) = none) :
    sumOver (·.amountCents) (fun row ↦ row.isOf scope ∧ T.postingState row = .posted) T.rows = 0 := by
  have hnone : T.rows.filter (fun row ↦ row.isOf scope ∧ T.postingState row = .posted) = [] := by
    rw [List.filter_eq_nil_iff]
    intro row _ hposted
    obtain ⟨hof, hposted⟩ := of_decide_eq_true hposted
    obtain ⟨s, hs, hcovers, -⟩ := (T.postingState_eq row).1 hposted
    have hscope := List.find?_eq_none.1 h s hs
    refine absurd ?_ hscope
    obtain ⟨hclass, hseat, haccount⟩ := hcovers
    obtain ⟨hclass', hseat', haccount'⟩ := hof
    rw [hclass, Option.some.injEq] at hclass'
    rw [haccount, Option.some.injEq] at haccount'
    rw [decide_eq_true_eq, SnapshotRow.scope, hclass', ← hseat, hseat',
      AccountType.value_injective haccount']
  rw [sumOver, hnone]
  rfl

theorem LedgerTables.availableBalanceExpression_eq (T : LedgerTables) (scope : Scope) :
    T.availableBalanceExpression scope.seatId scope.classId scope.accountType.value =
      T.availableCents scope := by
  simp only [availableBalanceExpression, T.snapshot_eq, T.sumAmounts_eq, availableCents,
    pendingCents]
  cases hfind : T.snapshots.find? (fun s ↦ s.scope = scope) with
  | none => simp [T.postedCents_of_none hfind]
  | some s => rfl

/-- The identifiers and the amounts are 32 bits wide, so no sum outgrows the decimals. -/
theorem LedgerTables.abs_sumOver_lt (T : LedgerTables) (p : LedgerRow → Prop) [DecidablePred p] :
    |sumOver (·.amountCents) p T.rows| < 10 ^ 19 := by
  have hlength : T.rows.length ≤ 2147483648 := by
    have hsubset : T.rows.map (·.id) ⊆ List.range 2147483648 := by
      intro i hi
      obtain ⟨r, hr, rfl⟩ := List.mem_map.1 hi
      exact List.mem_range.2 (T.idsFit r hr)
    have hle := (List.subperm_of_subset T.idsUnique hsubset).length_le
    rwa [List.length_map, List.length_range] at hle
  have hamount : ∀ r ∈ T.rows, |r.amountCents| ≤ 2147483648 := by
    intro r hr
    have hfit := T.amountsFit r hr
    simp only [inInt32, decide_eq_true_eq] at hfit
    rw [abs_le]
    omega
  have hsum : |sumOver (·.amountCents) p T.rows| ≤ T.rows.length * 2147483648 :=
    abs_sumOver_le (by norm_num) hamount
  have hwide : (T.rows.length : ℤ) * 2147483648 ≤ 2147483648 * 2147483648 := by
    have : (T.rows.length : ℤ) ≤ 2147483648 := by exact_mod_cast hlength
    omega
  calc |sumOver (·.amountCents) p T.rows| ≤ T.rows.length * 2147483648 := hsum
    _ ≤ 2147483648 * 2147483648 := hwide
    _ < 10 ^ 19 := by norm_num

theorem quantizedCents_eq {cents : ℤ} (h : |cents| < 10 ^ 20) : quantizedCents cents = cents :=
  quantizeCurrency_ofCents (h.trans (by norm_num))

theorem LedgerTables.abs_posted_lt (T : LedgerTables) (scope : Scope) :
    |((T.snapshots.find? (fun s ↦ s.scope = scope)).map (·.postedBalanceCents)).getD 0| < 10 ^ 10 := by
  cases hfind : T.snapshots.find? (fun s ↦ s.scope = scope) with
  | none => simp
  | some s =>
    have hfit := T.postedFit s (List.mem_of_find?_eq_some hfind)
    simp only [inInt32, decide_eq_true_eq] at hfit
    rw [Option.map_some, Option.getD_some, abs_lt]
    omega

theorem requireBalanceScope_ok (hclass : scope.classId ≠ "") (hseat : scope.seatId ≠ 0) :
    requireBalanceScope scope.seatId scope.classId scope.accountType.value = .ok () := by
  unfold requireBalanceScope
  rw [require_of ⟨hclass, hseat⟩]
  cases scope.accountType <;> rfl

theorem LedgerTables.quantized_availableCents (T : LedgerTables) (scope : Scope) :
    quantizedCents (T.availableCents scope) = T.availableCents scope := by
  have hposted := T.abs_posted_lt scope
  have hpending := T.abs_sumOver_lt (fun row ↦ row.isOf scope ∧ T.postingState row = .pending)
  refine quantizedCents_eq ?_
  rw [abs_lt] at hposted hpending ⊢
  rw [availableCents, pendingCents]
  constructor <;> omega

variable (T : LedgerTables) (scope) (hclass : scope.classId ≠ "") (hseat : scope.seatId ≠ 0)

include hclass hseat

theorem LedgerTables.getAvailableBalance_eq :
    T.getAvailableBalance scope.seatId scope.classId scope.accountType.value =
      .ok (T.availableCents scope) := by
  rw [getAvailableBalance, requireBalanceScope_ok hclass hseat, T.availableBalanceExpression_eq,
    T.quantized_availableCents]
  rfl

theorem LedgerTables.getAvailableBalances_eq :
    T.getAvailableBalances scope.seatId scope.classId =
      .ok (T.availableCents ⟨scope.classId, scope.seatId, .checking⟩,
        T.availableCents ⟨scope.classId, scope.seatId, .savings⟩) := by
  have hscope : requireBalanceScope scope.seatId scope.classId "checking" = .ok () := by
    have hchecking : (Scope.mk scope.classId scope.seatId .checking).classId ≠ "" := hclass
    exact requireBalanceScope_ok hchecking hseat
  have hchecking := T.availableBalanceExpression_eq ⟨scope.classId, scope.seatId, .checking⟩
  have hsavings := T.availableBalanceExpression_eq ⟨scope.classId, scope.seatId, .savings⟩
  simp only [AccountType.value] at hchecking hsavings
  rw [getAvailableBalances, hscope, hchecking, hsavings, T.quantized_availableCents,
    T.quantized_availableCents]
  rfl

theorem LedgerTables.posted_add_pending :
    ∃ posted, T.getPostedBalance scope.seatId scope.classId scope.accountType.value = .ok posted ∧
      posted + T.getPendingBalanceDelta scope.seatId scope.classId scope.accountType.value =
        T.availableCents scope := by
  have hpending := T.abs_sumOver_lt (fun row ↦ row.isOf scope ∧ T.postingState row = .pending)
  have hposted := T.abs_posted_lt scope
  refine ⟨((T.snapshots.find? (fun s ↦ s.scope = scope)).map (·.postedBalanceCents)).getD 0, ?_, ?_⟩
  · rw [getPostedBalance, requireBalanceScope_ok hclass hseat, T.snapshot_eq]
    cases hfind : T.snapshots.find? (fun s ↦ s.scope = scope) with
    | none =>
      simp only [T.sumAmounts_eq, T.postedCents_of_none hfind]
      rfl
    | some s =>
      rw [hfind, Option.map_some, Option.getD_some] at hposted
      simp only [ok_bind, quantizedCents_eq (hposted.trans (by norm_num))]
      rfl
  · rw [getPendingBalanceDelta, T.sumAmounts_eq, quantizedCents_eq (hpending.trans (by norm_num))]
    rfl

end Balances

section Batch

variable {pairs : List (String × ℕ)} {scope : Scope}

def BatchEntry.cents (e : BatchEntry) : AccountType → ℤ
  | .checking => e.checkingCents
  | .savings => e.savingsCents

def BatchRecord.isOf (r : BatchRecord) (scope : Scope) : Prop :=
  r.classId.getD "None" = scope.classId ∧ r.seatId = scope.seatId ∧
    r.accountType = some scope.accountType.value

instance (r : BatchRecord) (scope : Scope) : Decidable (r.isOf scope) := by
  unfold BatchRecord.isOf; infer_instance

theorem BatchRecord.assign_cents (r : BatchRecord) (balances : String × ℕ → BatchEntry)
    (scope : Scope) :
    (r.assign balances (scope.classId, scope.seatId)).cents scope.accountType =
      if r.isOf scope then r.postedCents + r.pendingCents
      else (balances (scope.classId, scope.seatId)).cents scope.accountType := by
  by_cases hkey : (r.classId.getD "None", r.seatId) = (scope.classId, scope.seatId)
  · obtain ⟨hclass, hseat⟩ := Prod.mk.inj hkey
    simp only [assign, isOf, hclass, hseat, true_and]
    cases scope.accountType with
    | checking => split_ifs <;> simp_all [BatchEntry.cents, AccountType.value]
    | savings => split_ifs <;> simp_all [BatchEntry.cents, AccountType.value]
  · have hnot : ¬ r.isOf scope := fun h ↦ hkey (Prod.ext h.1 h.2.1)
    have hne : (scope.classId, scope.seatId) ≠ (r.classId.getD "None", r.seatId) :=
      fun h ↦ hkey h.symm
    simp only [assign, if_neg hnot]
    split_ifs
    · rw [Function.update_of_ne hne]
    · rw [Function.update_of_ne hne]
    · rfl

/-- Records that agree on an account leave their total there. -/
theorem foldl_assign {records : List BatchRecord} {total : ℤ} {balances : String × ℕ → BatchEntry}
    (h : ∀ r ∈ records, r.isOf scope → r.postedCents + r.pendingCents = total) :
    ((records.foldl (fun balances r ↦ r.assign balances) balances)
        (scope.classId, scope.seatId)).cents scope.accountType =
      if ∃ r ∈ records, r.isOf scope then total
      else (balances (scope.classId, scope.seatId)).cents scope.accountType := by
  induction records using List.reverseRecOn with
  | nil => simp
  | append_singleton records r ih =>
    rw [List.foldl_append, List.foldl_cons, List.foldl_nil, r.assign_cents]
    by_cases hr : r.isOf scope
    · rw [if_pos hr, if_pos ⟨r, by simp, hr⟩, h r (by simp) hr]
    · rw [if_neg hr, ih (fun r' hr' ↦ h r' (by simp [hr']))]
      have hiff : (∃ r' ∈ records ++ [r], r'.isOf scope) ↔ ∃ r' ∈ records, r'.isOf scope := by
        constructor
        · rintro ⟨r', hr', hof⟩
          rw [List.mem_append, List.mem_singleton] at hr'
          rcases hr' with hr' | rfl
          · exact ⟨r', hr', hof⟩
          · exact absurd hof hr
        · rintro ⟨r', hr', hof⟩
          exact ⟨r', by simp [hr'], hof⟩
      simp only [hiff]

def groupKey (scope : Scope) : Option String × ℕ × Option String :=
  (some scope.classId, scope.seatId, some scope.accountType.value)

variable (hmem : (scope.classId, scope.seatId) ∈ normalizedPairs pairs)

include hmem

theorem LedgerTables.pending_rows (T : LedgerTables) :
    (((T.rows.filter (fun row ↦ holds (and (and
        (isIn row.classId ((normalizedPairs pairs).map (·.1)))
        (isIn (some row.seatId) ((normalizedPairs pairs).map (·.2))))
        (isIn (row.classId.map (fun c ↦ (c, row.seatId))) (normalizedPairs pairs))) ∧
        T.postingStateExpression row = .pending)).filter (fun row ↦
          (row.classId, row.seatId, row.accountType) = groupKey scope)).map
        (·.amountCents)).sum = T.pendingCents scope := by
  rw [pendingCents, sumOver, List.filter_filter]
  congr 2
  refine List.filter_congr fun row _ ↦ ?_
  rw [Bool.eq_iff_iff, Bool.and_eq_true, decide_eq_true_eq, decide_eq_true_eq, decide_eq_true_eq,
    T.postingStateExpression_eq_postingState]
  simp only [groupKey, Prod.mk.injEq, LedgerRow.isOf, holds_and, holds_isIn]
  constructor
  · rintro ⟨hkey, -, hpending⟩
    exact ⟨hkey, hpending⟩
  · rintro ⟨⟨hclass, hseat, haccount⟩, hpending⟩
    refine ⟨⟨hclass, hseat, haccount⟩, ⟨⟨?_, ?_⟩, ?_⟩, hpending⟩
    · exact ⟨_, List.mem_map_of_mem hmem, hclass⟩
    · exact ⟨_, List.mem_map_of_mem hmem, congrArg some hseat⟩
    · exact ⟨_, hmem, by rw [hclass, hseat]; rfl⟩

theorem LedgerTables.group_cents {n : ℤ} (h : (groupKey scope, n) ∈ T.pendingSums pairs) :
    n = T.pendingCents scope := by
  rw [← T.pending_rows hmem]
  exact (mem_groupSums.1 h).2

theorem LedgerTables.no_group_cents (h : ∀ n, (groupKey scope, n) ∉ T.pendingSums pairs) :
    T.pendingCents scope = 0 := by
  rw [← T.pending_rows hmem]
  exact sum_eq_zero_of_no_group h

omit hmem in
theorem SnapshotRow.holds_matchesGroup {g : PendingGroup} :
    holds (s.matchesGroup g) = true ↔ g.1 = groupKey s.scope := by
  obtain ⟨⟨classId, seatId, accountType⟩, n⟩ := g
  simp only [matchesGroup, holds_and, holds_eq, Option.some.injEq, groupKey, scope, Prod.mk.injEq]
  constructor
  · rintro ⟨⟨⟨_, rfl, hclass⟩, _, rfl, hseat⟩, _, rfl, haccount⟩
    exact ⟨hclass, hseat, haccount⟩
  · rintro ⟨hclass, hseat, haccount⟩
    exact ⟨⟨⟨_, rfl, hclass⟩, ⟨_, rfl, hseat⟩⟩, ⟨_, rfl, haccount⟩⟩

theorem LedgerTables.withSnapshot_cents {r : BatchRecord} (hr : r ∈ T.withSnapshot pairs)
    (hof : r.isOf scope) : r.postedCents + r.pendingCents = T.availableCents scope := by
  obtain ⟨⟨s, g⟩, hjoined, rfl⟩ := List.mem_map.1 hr
  obtain ⟨hs, hg⟩ := mem_leftJoin.1 (List.mem_filter.1 hjoined).1
  obtain ⟨hclass, hseat, haccount⟩ := hof
  have hscope : s.scope = scope := by
    rw [SnapshotRow.scope]
    simp only [Option.getD_some, Option.some.injEq] at hclass hseat haccount
    rw [hclass, hseat, AccountType.value_injective haccount]
  have hfind : T.snapshots.find? (fun s ↦ s.scope = scope) = some s := by
    cases hfind : T.snapshots.find? (fun s ↦ s.scope = scope) with
    | none => exact absurd hscope (by simpa using List.find?_eq_none.1 hfind s hs)
    | some s' =>
      have hscope' : s'.scope = scope := by simpa using List.find?_some hfind
      rw [T.snapshot_unique (List.mem_of_find?_eq_some hfind) hs (hscope'.trans hscope.symm)]
  rw [availableCents, hfind, Option.map_some, Option.getD_some]
  refine congrArg (s.postedBalanceCents + ·) ?_
  cases g with
  | none =>
    refine (LedgerTables.no_group_cents hmem (fun n hn ↦ ?_)).symm
    exact hg _ hn (SnapshotRow.holds_matchesGroup.2 (by rw [hscope]))
  | some g =>
    have hkey := SnapshotRow.holds_matchesGroup.1 hg.2
    rw [hscope] at hkey
    refine LedgerTables.group_cents hmem ?_
    rw [← hkey]
    exact hg.1

theorem LedgerTables.pendingOnly_cents {r : BatchRecord} (hr : r ∈ T.pendingOnly pairs)
    (hof : r.isOf scope) : T.snapshots.find? (fun s ↦ s.scope = scope) = none ∧
      r.postedCents + r.pendingCents = T.pendingCents scope := by
  obtain ⟨g, hg, rfl⟩ := List.mem_map.1 hr
  obtain ⟨hg, halone⟩ := List.mem_filter.1 hg
  obtain ⟨hclass, hseat, haccount⟩ := hof
  have hkey : g.1 = groupKey scope := by
    have hsome : ∃ c, g.1.1 = some c := by
      obtain ⟨⟨row, hrow, hkey⟩, -⟩ := mem_groupSums.1 hg
      have hwhere := (of_decide_eq_true (List.mem_filter.1 hrow).2).1
      obtain ⟨c, -, hc⟩ := holds_isIn.1 (holds_and.1 (holds_and.1 hwhere).1).1
      exact ⟨c, by rw [← hkey]; exact hc⟩
    obtain ⟨c, hc⟩ := hsome
    simp only [hc, Option.getD_some] at hclass
    exact Prod.ext (hc.trans (congrArg some hclass)) (Prod.ext hseat haccount)
  refine ⟨?_, ?_⟩
  · rw [List.find?_eq_none]
    intro s hs hscope
    rw [decide_eq_true_eq] at hscope
    have hnone : ¬ T.snapshots.any (fun s ↦ holds (s.matchesGroup g)) = true := by
      simpa using halone
    refine hnone (List.any_eq_true.2 ⟨s, hs, ?_⟩)
    rw [SnapshotRow.holds_matchesGroup, hscope, hkey]
  · show 0 + g.2 = T.pendingCents scope
    rw [zero_add]
    refine LedgerTables.group_cents hmem ?_
    rw [← hkey]
    exact hg

theorem LedgerTables.exists_record (h : T.availableCents scope ≠ 0) :
    ∃ r ∈ T.withSnapshot pairs ++ T.pendingOnly pairs, r.isOf scope := by
  cases hfind : T.snapshots.find? (fun s ↦ s.scope = scope) with
  | some s =>
    have hs := List.mem_of_find?_eq_some hfind
    have hscope : s.scope = scope := by simpa using List.find?_some hfind
    have hjoined : ∃ g, (s, g) ∈ leftJoin SnapshotRow.matchesGroup T.snapshots (T.pendingSums pairs) := by
      by_cases hg : ∃ g ∈ T.pendingSums pairs, holds (s.matchesGroup g) = true
      · obtain ⟨g, hg, hon⟩ := hg
        exact ⟨some g, mem_leftJoin.2 ⟨hs, hg, hon⟩⟩
      · exact ⟨none, mem_leftJoin.2 ⟨hs, fun g hg' hon ↦ hg ⟨g, hg', hon⟩⟩⟩
    obtain ⟨g, hg⟩ := hjoined
    rw [← hscope] at hmem
    refine ⟨_, List.mem_append_left _ (List.mem_map_of_mem (List.mem_filter.2 ⟨hg, ?_⟩)), ?_⟩
    · rw [holds_and, holds_and, holds_isIn, holds_isIn, holds_isIn]
      exact ⟨⟨⟨_, List.mem_map_of_mem hmem, rfl⟩, ⟨_, List.mem_map_of_mem hmem, rfl⟩⟩, ⟨_, hmem, rfl⟩⟩
    · rw [← hscope]
      exact ⟨rfl, rfl, rfl⟩
  | none =>
    rw [availableCents, hfind, Option.map_none, Option.getD_none, zero_add] at h
    obtain ⟨n, hn⟩ : ∃ n, (groupKey scope, n) ∈ T.pendingSums pairs := by
      by_contra hnone
      exact h (LedgerTables.no_group_cents hmem (fun n hn ↦ hnone ⟨n, hn⟩))
    refine ⟨_, List.mem_append_right _ (List.mem_map_of_mem (List.mem_filter.2 ⟨hn, ?_⟩)),
      rfl, rfl, rfl⟩
    have hnone : ¬ T.snapshots.any (fun s ↦ holds (s.matchesGroup (groupKey scope, n))) = true := by
      rw [List.any_eq_true]
      rintro ⟨s, hs, hon⟩
      have hkey := SnapshotRow.holds_matchesGroup.1 hon
      have hscope : s.scope = scope := by
        simp only [groupKey, Prod.mk.injEq, Option.some.injEq] at hkey
        obtain ⟨hclass, hseat, haccount⟩ := hkey
        have haccount' := AccountType.value_injective haccount
        obtain ⟨classId, seatId, accountType⟩ := scope
        simp only at hclass hseat haccount'
        rw [hclass, hseat, haccount']
      exact absurd hscope (by simpa using List.find?_eq_none.1 hfind s hs)
    simpa using hnone

variable (scope) in
theorem LedgerTables.getBatchBalances_eq (T : LedgerTables) :
    (T.getBatchBalancesByClassSeat pairs (scope.classId, scope.seatId)).cents scope.accountType =
      T.availableCents scope := by
  have hne : normalizedPairs pairs ≠ [] := List.ne_nil_of_mem hmem
  have htotal : ∀ r ∈ T.withSnapshot pairs ++ T.pendingOnly pairs, r.isOf scope →
      r.postedCents + r.pendingCents = T.availableCents scope := by
    intro r hr hof
    rcases List.mem_append.1 hr with hr | hr
    · exact LedgerTables.withSnapshot_cents hmem hr hof
    · obtain ⟨hfind, hcents⟩ := LedgerTables.pendingOnly_cents hmem hr hof
      rw [hcents, availableCents, hfind, Option.map_none, Option.getD_none, zero_add]
  rw [getBatchBalancesByClassSeat, if_neg hne, foldl_assign htotal]
  split_ifs with hrecord
  · rfl
  · have hzero : T.availableCents scope = 0 := by
      by_contra hne
      exact hrecord (LedgerTables.exists_record hmem hne)
    rw [hzero]
    cases scope.accountType <;> rfl

end Batch

section Main

/-- Every reader of a balance gives the same available amount, and every classification of a row the
same state. -/
theorem balance_readers_agree (T : LedgerTables) (scope : Scope) (hclass : scope.classId ≠ "")
    (hseat : scope.seatId ≠ 0) (pairs : List (String × ℕ))
    (hpair : (scope.classId, scope.seatId) ∈ pairs) (rows : List LedgerRow) :
    (∃ available : AccountType → ℤ,
      (∀ account, (T.getBatchBalancesByClassSeat pairs (scope.classId, scope.seatId)).cents account =
        available account) ∧
      T.getAvailableBalances scope.seatId scope.classId =
        .ok (available .checking, available .savings) ∧
      ∀ account : AccountType,
        T.getAvailableBalance scope.seatId scope.classId account.value = .ok (available account) ∧
        ∃ posted, T.getPostedBalance scope.seatId scope.classId account.value = .ok posted ∧
          posted + T.getPendingBalanceDelta scope.seatId scope.classId account.value =
            available account) ∧
    T.projectPostingStates rows = rows.map T.postingState ∧
    rows.map T.postingStateExpression = rows.map T.postingState := by
  obtain ⟨classId, seatId, accountType⟩ := scope
  have hmem : (classId, seatId) ∈ normalizedPairs pairs := by
    rw [normalizedPairs, List.mem_dedup, List.mem_filter]
    exact ⟨hpair, decide_eq_true ⟨hclass, hseat⟩⟩
  refine ⟨⟨fun account ↦ T.availableCents ⟨classId, seatId, account⟩, fun account ↦ ?_, ?_,
    fun account ↦ ⟨?_, ?_⟩⟩, T.projectPostingStates_eq rows, ?_⟩
  · exact LedgerTables.getBatchBalances_eq ⟨classId, seatId, account⟩ hmem T
  · exact T.getAvailableBalances_eq ⟨classId, seatId, accountType⟩ hclass hseat
  · exact T.getAvailableBalance_eq ⟨classId, seatId, account⟩ hclass hseat
  · exact T.posted_add_pending ⟨classId, seatId, account⟩ hclass hseat
  · exact List.map_congr_left fun row _ ↦ T.postingStateExpression_eq_postingState row

/-- A settled account with a pending row, and a historical row without a sequence. -/
def settledTables : LedgerTables where
  rows := [⟨1, some "c", 1, some "checking", 500, some 1⟩,
    ⟨2, some "c", 1, some "checking", -200, some 2⟩, ⟨3, some "c", 1, some "checking", 70, none⟩]
  snapshots := [⟨"c", 1, .checking, 500, some 1, by decide⟩]
  idsUnique := by decide
  idsFit := by decide
  amountsFit := by decide
  postedFit := by decide
  scopesUnique := by decide

theorem balance_readers_agree_settled :
    settledTables.projectPostingStates settledTables.rows =
        settledTables.rows.map settledTables.postingState ∧
      ∃ posted, settledTables.getPostedBalance 1 "c" "checking" = .ok posted ∧
        settledTables.getAvailableBalance 1 "c" "checking" =
          .ok (posted + settledTables.getPendingBalanceDelta 1 "c" "checking") := by
  obtain ⟨⟨available, -, -, hall⟩, hproject, -⟩ := balance_readers_agree settledTables
    ⟨"c", 1, .checking⟩ (by decide) (by decide) [("c", 1)] (by decide) settledTables.rows
  obtain ⟨havailable, posted, hposted, hsum⟩ := hall .checking
  refine ⟨hproject, posted, hposted, ?_⟩
  rw [← hsum] at havailable
  exact havailable

end Main

end TokenHub.Ledger
