import TokenHub.Ledger.BalanceRuns

set_option autoImplicit false

namespace TokenHub.Ledger

open Lib.Decimals Lib.Checks Lib.SequencedLog Lib.Runs

section Reads

variable (L : LedgerState) (classId : String)

/-- Rows of an account before a boundary, in a posting state. -/
def Early (snapshots : Scope → Option LedgerBalanceSnapshot) (scope : Scope) (asOf : ℤ)
    (state : TransactionStatus) (t : Transaction) : Prop :=
  t.scope = scope ∧ t.timestamp < asOf ∧ postingState snapshots t = state

instance (snapshots : Scope → Option LedgerBalanceSnapshot) (scope : Scope) (asOf : ℤ)
    (state : TransactionStatus) : DecidablePred (Early snapshots scope asOf state) :=
  fun _ ↦ inferInstanceAs (Decidable (_ ∧ _ ∧ _))

def getPostedBalancesAsOf (asOf : ℤ) (accountType : AccountType) (seatId : ℕ) :
    Option Hundredths :=
  let p := Early L.snapshots ⟨classId, seatId, accountType⟩ asOf .posted
  if classId = "" ∨ ¬∃ t ∈ L.transactions, p t then none
  else some (quantizeCurrency (some (.ofCents (sumOver (·.amountCents) p L.transactions))))

structure InboundLedgerRow where
  transactionId : ℕ
  seatId : ℕ
  amountCents : ℤ
  featCode : String
  correlationId : String
  originalTransactionId : Option ℕ
  mechanism : String
  accountType : AccountType
deriving DecidableEq, Repr

def Transaction.inboundRow (t : Transaction) : InboundLedgerRow where
  transactionId := t.id
  seatId := t.seatId
  amountCents := t.amountCents
  featCode := t.featCode
  correlationId := t.correlationId
  originalTransactionId := t.originalTransactionId
  mechanism := t.mechanism.value
  accountType := t.accountType

/-- Credits to seats of a class in a window, in a posting state. -/
def Inbound (snapshots : Scope → Option LedgerBalanceSnapshot) (windowStart windowEnd : ℤ)
    (state : TransactionStatus) (t : Transaction) : Prop :=
  t.classId = classId ∧ windowStart ≤ t.timestamp ∧ t.timestamp < windowEnd ∧ 0 < t.amountCents ∧
    postingState snapshots t = state

instance (snapshots : Scope → Option LedgerBalanceSnapshot) (windowStart windowEnd : ℤ)
    (state : TransactionStatus) :
    DecidablePred (Inbound classId snapshots windowStart windowEnd state) :=
  fun _ ↦ inferInstanceAs (Decidable (_ ∧ _ ∧ _ ∧ _ ∧ _))

def getInboundLedgerRows (windowStart windowEnd : ℤ) : List InboundLedgerRow :=
  if classId = "" then []
  else (L.transactions.filter (Inbound classId L.snapshots windowStart windowEnd .posted)).map
    (·.inboundRow)

structure CycleReads where
  balances : AccountType → ℕ → Option Hundredths
  inbound : List InboundLedgerRow

def cycleReads (windowStart windowEnd : ℤ) : CycleReads where
  balances := getPostedBalancesAsOf L classId windowEnd
  inbound := getInboundLedgerRows L classId windowStart windowEnd

end Reads

section Admission

variable {L L' : LedgerState} {scope : Scope} {t : Transaction}

theorem postingState_posted_iff {snapshots : Scope → Option LedgerBalanceSnapshot} :
    postingState snapshots t = .posted ↔ ∃ n ∈ t.postingSequence,
      ∃ c ∈ (snapshots t.scope).bind (·.reconciledThroughPostingSequence), n ≤ c := by
  unfold postingState
  cases t.postingSequence with
  | none => simp
  | some n =>
    cases (snapshots t.scope).bind (·.reconciledThroughPostingSequence) with
    | none => simp
    | some c => simp

theorem postingState_congr {snapshots snapshots' : Scope → Option LedgerBalanceSnapshot}
    (h : snapshots t.scope = snapshots' t.scope) :
    postingState snapshots t = postingState snapshots' t := by
  unfold postingState
  rw [h]

theorem posted_or_pending (snapshots : Scope → Option LedgerBalanceSnapshot) (t : Transaction) :
    postingState snapshots t = .posted ∨ postingState snapshots t = .pending := by
  cases postingState snapshots t with
  | pending => exact .inr rfl
  | posted => exact .inl rfl

theorem advanceCursor_covers {c c' : Option ℕ} {ts : List Transaction}
    (h : advanceCursor c ts = .ok c') :
    (∀ n ∈ c, ∃ m ∈ c', n ≤ m) ∧
      ∀ t ∈ ts, ∃ n ∈ t.postingSequence, ∃ m ∈ c', n ≤ m := by
  induction ts generalizing c with
  | nil =>
    simp only [advanceCursor, Except.ok.injEq] at h
    subst h
    exact ⟨fun n hn ↦ ⟨n, hn, le_rfl⟩, by simp⟩
  | cons t ts ih =>
    simp only [advanceCursor, demand_bind_eq_ok] at h
    obtain ⟨n, hn, h⟩ := h
    obtain ⟨hstart, hrows⟩ := ih h
    obtain ⟨m, hm, hle⟩ := hstart _ rfl
    constructor
    · intro k hk
      refine ⟨m, hm, le_trans ?_ hle⟩
      rw [Option.mem_def.1 hk]
      exact le_max_left k n
    · intro u hu
      rcases List.mem_cons.1 hu with rfl | hu
      · exact ⟨n, hn, m, hm, (le_max_right _ n).trans hle⟩
      · exact hrows u hu

/-- The pending rows of an account are among the rows that a settlement goes over. -/
def Complete (L : LedgerState) (pending : List Transaction) (scope : Scope) : Prop :=
  ∀ t ∈ L.transactions, t.scope = scope → postingState L.snapshots t = .pending → t ∈ pending

/-- The new cursor of a settled account covers all of its rows. -/
theorem Complete.covered {pending : List Transaction} (hcomplete : Complete L pending scope)
    {c : Option ℕ}
    (h : advanceCursor ((L.snapshots scope).getD ⟨0, none⟩).reconciledThroughPostingSequence
      (pending.filter (·.accountType = scope.accountType)) = .ok c) :
    ∀ t ∈ L.transactions, t.scope = scope → ∃ n ∈ t.postingSequence, ∃ m ∈ c, n ≤ m := by
  obtain ⟨hstart, hrows⟩ := advanceCursor_covers h
  intro t ht hscope
  rcases posted_or_pending L.snapshots t with hposted | hpending
  · obtain ⟨n, hn, m, hm, hle⟩ := postingState_posted_iff.1 hposted
    rw [hscope] at hm
    obtain ⟨s, hs, hm⟩ := Option.bind_eq_some_iff.1 hm
    obtain ⟨k, hk, hle'⟩ := hstart m (by rw [hs]; exact hm)
    exact ⟨n, hn, k, hk, hle.trans hle'⟩
  · have haccount : t.accountType = scope.accountType := by rw [← hscope]; rfl
    exact hrows t (List.mem_filter.2 ⟨hcomplete t ht hscope hpending, by simpa using haccount⟩)

theorem settleAccount_posts {pending : List Transaction} (hcomplete : Complete L pending scope)
    (h : settleAccount L pending scope = .ok L') :
    ∀ t ∈ L.transactions, t.scope = scope → postingState L'.snapshots t = .posted := by
  obtain ⟨c, hc, rfl⟩ := settleAccount_ok h
  intro t ht hscope
  simp only [postingState_posted_iff, hscope, Function.update_self, Option.bind_some]
  exact hcomplete.covered hc t ht hscope

theorem settleAccount_elsewhere {pending : List Transaction} {other : Scope}
    (hne : other ≠ scope) (h : settleAccount L pending scope = .ok L') :
    L'.snapshots other = L.snapshots other := by
  obtain ⟨c, -, rfl⟩ := settleAccount_ok h
  exact Function.update_of_ne hne _ _

theorem Complete.after {pending : List Transaction} {other : Scope}
    (hcomplete : Complete L pending other) (hne : other ≠ scope)
    (h : settleAccount L pending scope = .ok L') : Complete L' pending other := by
  have hrows : L'.transactions = L.transactions := by
    obtain ⟨c, -, rfl⟩ := settleAccount_ok h
    rfl
  intro t ht hscope hpending
  rw [hrows] at ht
  refine hcomplete t ht hscope ?_
  rw [← hpending]
  apply postingState_congr
  rw [hscope, settleAccount_elsewhere hne h]

theorem settleAccounts_posts {pending : List Transaction} {seatId : ℕ} {classId : String}
    {accounts : List AccountType} (hnodup : accounts.Nodup)
    (hcomplete : ∀ a ∈ accounts, Complete L pending ⟨classId, seatId, a⟩)
    (h : settleAccounts pending seatId classId L accounts = .ok L') :
    (∀ a ∈ accounts, ∀ t ∈ L.transactions, t.scope = ⟨classId, seatId, a⟩ →
      postingState L'.snapshots t = .posted) ∧
    ∀ scope : Scope, (∀ a ∈ accounts, scope ≠ ⟨classId, seatId, a⟩) →
      L'.snapshots scope = L.snapshots scope := by
  induction accounts generalizing L with
  | nil =>
    simp only [settleAccounts, Except.ok.injEq] at h
    subst h
    exact ⟨by simp, fun _ _ ↦ rfl⟩
  | cons a as ih =>
    simp only [settleAccounts, bind_eq_ok] at h
    obtain ⟨L₁, h₁, h₂⟩ := h
    obtain ⟨hnot, hnodup⟩ := List.nodup_cons.1 hnodup
    have hrows : L₁.transactions = L.transactions := by
      obtain ⟨c, -, rfl⟩ := settleAccount_ok h₁
      rfl
    have hcomplete' : ∀ b ∈ as, Complete L₁ pending ⟨classId, seatId, b⟩ := by
      intro b hb
      apply (hcomplete b (List.mem_cons_of_mem a hb)).after _ h₁
      intro heq
      rw [Scope.mk.injEq] at heq
      exact hnot (heq.2.2 ▸ hb)
    obtain ⟨hposts, helse⟩ := ih hnodup hcomplete' h₂
    rw [hrows] at hposts
    constructor
    · intro b hb t ht hscope
      rcases List.mem_cons.1 hb with rfl | hb
      · rw [← settleAccount_posts (hcomplete b List.mem_cons_self) h₁ t ht hscope]
        apply postingState_congr
        rw [hscope]
        apply helse
        rintro b' hb' ⟨⟩
        exact hnot hb'
      · exact hposts b hb t ht hscope
    · intro scope hscope
      rw [helse scope fun b hb ↦ hscope b (List.mem_cons_of_mem a hb)]
      exact settleAccount_elsewhere (hscope a List.mem_cons_self) h₁

def pendingAccounts (pending : List Transaction) : List AccountType :=
  [AccountType.checking, .savings].filter (fun a ↦ pending.any (·.accountType = a))

theorem mem_pendingAccounts {pending : List Transaction} {a : AccountType} :
    a ∈ pendingAccounts pending ↔ ∃ t ∈ pending, t.accountType = a := by
  have hall : a ∈ [AccountType.checking, .savings] := by cases a <;> simp
  simp [pendingAccounts, hall]

theorem settleBalances_posts {seatId : ℕ} {classId : String}
    (h : settleBalances L seatId classId = .ok L') (scope : Scope) :
    (∀ t ∈ L.transactions, t.scope = scope → postingState L'.snapshots t = .posted) ∨
      L'.snapshots scope = L.snapshots scope := by
  simp only [settleBalances, require_bind_eq_ok] at h
  obtain ⟨-, h⟩ := h
  split_ifs at h with hnil
  · rw [pure_eq_ok] at h
    exact .inr (by rw [h])
  · have hcomplete : ∀ a ∈ pendingAccounts (pendingRows L seatId classId),
        Complete L (pendingRows L seatId classId) ⟨classId, seatId, a⟩ := by
      intro a _ t ht hscope hpending
      simp only [Transaction.scope, Scope.mk.injEq] at hscope
      exact mem_pendingRows.2 ⟨ht, hscope.1, hscope.2.1, hpending⟩
    have hnodup : (pendingAccounts (pendingRows L seatId classId)).Nodup :=
      List.Pairwise.filter _ (by decide)
    obtain ⟨hposts, helse⟩ := settleAccounts_posts hnodup hcomplete h
    by_cases hmem : ∃ a ∈ pendingAccounts (pendingRows L seatId classId),
        scope = ⟨classId, seatId, a⟩
    · obtain ⟨a, ha, rfl⟩ := hmem
      exact .inl (hposts a ha)
    · exact .inr (helse scope fun a ha heq ↦ hmem ⟨a, ha, heq⟩)

end Admission

section Extension

variable {sha256 : String → String} {L₀ L L' : LedgerState} {stop : ℤ}

/-- An action of an extension that starts at a boundary: its effects are stamped from then on. -/
def StampedFrom (stop : ℤ) : LedgerAction → Prop
  | .create feat .. => stop ≤ feat.canonicalNowUtc
  | .settle .. => True

instance (stop : ℤ) (a : LedgerAction) : Decidable (StampedFrom stop a) := by
  cases a <;> unfold StampedFrom <;> infer_instance

/-- Rows that a command appends: seated in their class, and stamped with the command's instant. -/
structure Appended (L : LedgerState) (now : ℤ) (ts : List Transaction) (L' : LedgerState) :
    Prop where
  transactions : L'.transactions = L.transactions ++ ts
  snapshots : L'.snapshots = L.snapshots
  seatClass : L'.seatClass = L.seatClass
  stamped : ∀ t ∈ ts, t.timestamp = now
  seated : ∀ t ∈ ts, t.classId ≠ "" ∧ L.seatClass t.seatId = some t.classId

theorem Appended.effect {feat : FeatContext} {r : Option LedgerCommandReservation} {e : Effect}
    {t : Transaction} (h : createPendingEffect sha256 feat L r e = .ok (t, L')) :
    Appended L feat.canonicalNowUtc [t] L' := by
  obtain ⟨hi, hrow, hseats⟩ := createPendingEffect_ok h
  have hclass : e.classId ≠ "" := by
    simp only [createPendingEffect, require_bind_eq_ok] at h
    exact h.1.1
  refine ⟨by rw [hi.state], by rw [hi.state], by rw [hi.state], ?_, ?_⟩
  · intro u hu
    rw [List.mem_singleton.1 hu, hrow.timestamp]
  · intro u hu
    rw [List.mem_singleton.1 hu, hrow.classId, hrow.seatId]
    exact ⟨hclass, hseats _ List.mem_cons_self⟩

theorem Appended.effects {feat : FeatContext} {r : LedgerCommandReservation} {es : List Effect}
    {ts : List Transaction} (h : createEffects sha256 feat r L es = .ok (ts, L')) :
    Appended L feat.canonicalNowUtc ts L' := by
  induction es generalizing L ts with
  | nil =>
    simp only [createEffects, pure_eq_ok, Prod.mk.injEq] at h
    obtain ⟨rfl, rfl⟩ := h
    exact ⟨by simp, rfl, rfl, by simp, by simp⟩
  | cons e es ih =>
    simp only [createEffects, bind_eq_ok, Prod.exists, pure_eq_ok, Prod.mk.injEq] at h
    obtain ⟨t, L₁, ht, ts', L₂, hts, rfl, rfl⟩ := h
    have hfirst := Appended.effect ht
    have hrest := ih hts
    refine ⟨?_, hrest.snapshots.trans hfirst.snapshots, hrest.seatClass.trans hfirst.seatClass,
      ?_, ?_⟩
    · rw [hrest.transactions, hfirst.transactions, List.append_assoc, List.singleton_append]
    · intro u hu
      rcases List.mem_cons.1 hu with rfl | hu
      · exact hfirst.stamped u List.mem_cons_self
      · exact hrest.stamped u hu
    · intro u hu
      rcases List.mem_cons.1 hu with rfl | hu
      · exact hfirst.seated u List.mem_cons_self
      · have hseated := hrest.seated u hu
        rw [hfirst.seatClass] at hseated
        exact hseated

theorem Appended.nothing (L : LedgerState) (now : ℤ) : Appended L now [] L :=
  ⟨by simp, rfl, rfl, by simp, by simp⟩

theorem Appended.command {feat : FeatContext} {key : Option String}
    {reservation : Option LedgerCommandReservation} {e : Effect} {rows : List Transaction}
    (h : createPendingTransaction sha256 feat L key reservation e = .ok (rows, L')) :
    ∃ ts, Appended L feat.canonicalNowUtc ts L' := by
  simp only [createPendingTransaction, require_bind_eq_ok] at h
  obtain ⟨-, h⟩ := h
  split_ifs at h with hkey
  · simp only [createIdempotentTransaction, bind_eq_ok, pure_eq_ok, Prod.exists,
      Prod.mk.injEq] at h
    obtain ⟨rows', created, L₁, ⟨-, -, -, -, -, -, h⟩, -, rfl⟩ := h
    simp only [createReservedEffects, require_bind_eq_ok] at h
    obtain ⟨-, h⟩ := h
    simp only [bind_eq_ok] at h
    obtain ⟨-, -, fingerprint, -, h⟩ := h
    split at h
    · simp only [bind_eq_ok, pure_eq_ok, Prod.mk.injEq] at h
      obtain ⟨-, -, -, rfl⟩ := h
      exact ⟨[], .nothing _ _⟩
    · simp only [bind_eq_ok, pure_eq_ok, Prod.mk.injEq, Prod.exists] at h
      obtain ⟨ts, L₂, hts, -, rfl⟩ := h
      have happended := Appended.effects hts
      exact ⟨ts, happended.transactions, happended.snapshots, happended.seatClass,
        happended.stamped, happended.seated⟩
  · simp only [bind_eq_ok, pure_eq_ok, Prod.exists, Prod.mk.injEq] at h
    obtain ⟨t, L₁, ht, -, rfl⟩ := h
    exact ⟨[t], .effect ht⟩

/-- An action appends rows or settles one seat. -/
theorem perform_cases (a : LedgerAction) :
    (∃ feat key reservation e ts, a = .create feat key reservation e ∧
      Appended L feat.canonicalNowUtc ts (perform sha256 L a)) ∨
    ∃ seatId classId, a = .settle seatId classId ∧
      (perform sha256 L a = L ∨ settleBalances L seatId classId = .ok (perform sha256 L a)) := by
  cases a with
  | create feat key reservation e =>
    refine .inl ⟨feat, key, reservation, e, ?_⟩
    cases h : createPendingTransaction sha256 feat L key reservation e with
    | error x => exact ⟨[], rfl, by simp only [perform, h]; exact .nothing L _⟩
    | ok out =>
      obtain ⟨ts, hts⟩ := Appended.command h
      exact ⟨ts, rfl, by simp only [perform, h]; exact hts⟩
  | settle seatId classId =>
    refine .inr ⟨seatId, classId, rfl, ?_⟩
    cases h : settleBalances L seatId classId with
    | error x => exact .inl (by simp only [perform, h])
    | ok out => exact .inr (by simp only [perform, h])

/-- A later ledger: more rows, stamped from the boundary on, and accounts that are as they were
or have all their former rows posted. -/
structure Later (stop : ℤ) (L₀ L : LedgerState) : Prop where
  rows : ∃ ts, L.transactions = L₀.transactions ++ ts ∧ ∀ t ∈ ts, stop ≤ t.timestamp
  accounts : ∀ scope : Scope, L.snapshots scope = L₀.snapshots scope ∨
    ∀ t ∈ L₀.transactions, t.scope = scope → postingState L.snapshots t = .posted

theorem Later.refl (stop : ℤ) (L : LedgerState) : Later stop L L :=
  ⟨⟨[], by simp, by simp⟩, fun _ ↦ .inl rfl⟩

theorem Later.perform (h : Later stop L₀ L) {a : LedgerAction} (ha : StampedFrom stop a) :
    Later stop L₀ (perform sha256 L a) := by
  obtain ⟨ts, hrows, hstamps⟩ := h.rows
  rcases @perform_cases sha256 L a with ⟨feat, key, reservation, e, us, rfl, hus⟩ |
    ⟨seatId, classId, rfl, hsame | hok⟩
  · refine ⟨⟨ts ++ us, ?_, ?_⟩, ?_⟩
    · rw [hus.transactions, hrows, List.append_assoc]
    · intro t ht
      rcases List.mem_append.1 ht with ht | ht
      · exact hstamps t ht
      · rw [hus.stamped t ht]
        exact ha
    · rw [hus.snapshots]
      exact h.accounts
  · rw [hsame]
    exact h
  · have hframe : (Ledger.perform sha256 L (.settle seatId classId)).transactions =
        L.transactions := by rw [settleBalances_frame hok]
    refine ⟨⟨ts, by rw [hframe, hrows], hstamps⟩, ?_⟩
    intro scope
    rcases settleBalances_posts hok scope with hposts | hsame
    · right
      intro t ht
      exact hposts t (by rw [hrows]; exact List.mem_append_left ts ht)
    · rcases h.accounts scope with hold | hold
      · exact .inl (hsame.trans hold)
      · right
        intro t ht hscope
        rw [← hold t ht hscope]
        apply postingState_congr
        rw [hscope, hsame]

theorem Later.run {as : List LedgerAction} (h : Later stop L₀ L)
    (has : ∀ a ∈ as, StampedFrom stop a) : Later stop L₀ (run (Ledger.perform sha256) L as) := by
  induction as generalizing L with
  | nil => exact h
  | cons a as ih =>
    rw [run_cons]
    apply ih
    · exact h.perform (has a List.mem_cons_self)
    · exact fun b hb ↦ has b (List.mem_cons_of_mem a hb)

end Extension

section Closed

variable {sha256 : String → String} {L₀ L L' : LedgerState} {classId : String} {start stop : ℤ}

def ReportClosed (sha256 : String → String) (L : LedgerState) (classId : String)
    (start stop : ℤ) : Prop :=
  ∀ as : List LedgerAction, (∀ a ∈ as, StampedFrom stop a) →
    cycleReads (run (perform sha256) L as) classId start stop = cycleReads L classId start stop

/-- No row that is stamped before the boundary is still to be admitted where it would show: the
pending ones of an account are none, or cancel out beside a posted one, and none is a credit of
the window. -/
structure AdmittedBefore (L : LedgerState) (classId : String) (start stop : ℤ) : Prop where
  balances : ∀ scope : Scope, scope.classId = classId →
    (∀ t ∈ L.transactions, ¬Early L.snapshots scope stop .pending t) ∨
      sumOver (·.amountCents) (Early L.snapshots scope stop .pending) L.transactions = 0 ∧
        ∃ t ∈ L.transactions, Early L.snapshots scope stop .posted t
  inbound : ∀ t ∈ L.transactions, ¬Inbound classId L.snapshots start stop .pending t

theorem sum_early (L : LedgerState) (scope : Scope) (stop : ℤ) :
    sumOver (·.amountCents) (fun t ↦ t.scope = scope ∧ t.timestamp < stop) L.transactions =
      sumOver (·.amountCents) (Early L.snapshots scope stop .posted) L.transactions +
        sumOver (·.amountCents) (Early L.snapshots scope stop .pending) L.transactions := by
  rw [sumOver_split (q := fun t ↦ postingState L.snapshots t = .posted)]
  congr 1
  · apply sumOver_congr
    intro t _
    exact and_assoc
  · apply sumOver_congr
    intro t _
    rcases posted_or_pending L.snapshots t with h | h <;> simp [Early, h]

theorem getPostedBalancesAsOf_congr {account : AccountType} {seatId : ℕ}
    (hany : (∃ t ∈ L'.transactions, Early L'.snapshots ⟨classId, seatId, account⟩ stop .posted t) ↔
      ∃ t ∈ L.transactions, Early L.snapshots ⟨classId, seatId, account⟩ stop .posted t)
    (hsum : sumOver (·.amountCents) (Early L'.snapshots ⟨classId, seatId, account⟩ stop .posted)
      L'.transactions = sumOver (·.amountCents)
        (Early L.snapshots ⟨classId, seatId, account⟩ stop .posted) L.transactions) :
    getPostedBalancesAsOf L' classId stop account seatId =
      getPostedBalancesAsOf L classId stop account seatId := by
  simp only [getPostedBalancesAsOf, hany, hsum]

theorem sumOver_none {p : Transaction → Prop} [DecidablePred p] {ts : List Transaction}
    (h : ∀ t ∈ ts, ¬p t) : sumOver (·.amountCents) p ts = 0 := by
  have hnil : ts.filter p = [] := List.filter_eq_nil_iff.2 fun t ht ↦ by simpa using h t ht
  rw [sumOver, hnil]
  rfl

/-- What an extension admits of an account: nothing that was pending, or all of it, cancelled
out. -/
theorem Later.account (h : Later stop L₀ L) (hadmitted : AdmittedBefore L₀ classId start stop)
    {scope : Scope} (hclass : scope.classId = classId) :
    (∀ t ∈ L₀.transactions,
      (Early L.snapshots scope stop .posted t ↔ Early L₀.snapshots scope stop .posted t)) ∨
    (∀ t ∈ L₀.transactions,
      (Early L.snapshots scope stop .posted t ↔ t.scope = scope ∧ t.timestamp < stop)) ∧
      sumOver (·.amountCents) (Early L₀.snapshots scope stop .pending) L₀.transactions = 0 ∧
      ∃ t ∈ L₀.transactions, Early L₀.snapshots scope stop .posted t := by
  rcases h.accounts scope with hsame | hposts
  · left
    intro t _
    refine and_congr_right fun hscope ↦ and_congr_right fun _ ↦ ?_
    rw [postingState_congr (by rw [hscope, hsame])]
  · have hall : ∀ t ∈ L₀.transactions,
        (Early L.snapshots scope stop .posted t ↔ t.scope = scope ∧ t.timestamp < stop) := by
      intro t ht
      constructor
      · exact fun he ↦ ⟨he.1, he.2.1⟩
      · exact fun ⟨hscope, hearly⟩ ↦ ⟨hscope, hearly, hposts t ht hscope⟩
    rcases hadmitted.balances scope hclass with hnone | hcancel
    · left
      intro t ht
      rw [hall t ht]
      constructor
      · intro ⟨hscope, hearly⟩
        rcases posted_or_pending L₀.snapshots t with hposted | hpending
        · exact ⟨hscope, hearly, hposted⟩
        · exact absurd ⟨hscope, hearly, hpending⟩ (hnone t ht)
      · exact fun he ↦ ⟨he.1, he.2.1⟩
    · exact .inr ⟨hall, hcancel⟩

theorem Later.balances (h : Later stop L₀ L) (hadmitted : AdmittedBefore L₀ classId start stop)
    (account : AccountType) (seatId : ℕ) :
    getPostedBalancesAsOf L classId stop account seatId =
      getPostedBalancesAsOf L₀ classId stop account seatId := by
  obtain ⟨ts, hrows, hstamps⟩ := h.rows
  let scope : Scope := ⟨classId, seatId, account⟩
  have hnew : ∀ t ∈ ts, ¬Early L.snapshots scope stop .posted t :=
    fun t ht he ↦ (hstamps t ht).not_gt he.2.1
  have hany : (∃ t ∈ L.transactions, Early L.snapshots scope stop .posted t) ↔
      ∃ t ∈ L₀.transactions, Early L.snapshots scope stop .posted t := by
    rw [hrows]
    constructor
    · intro ⟨t, ht, he⟩
      rcases List.mem_append.1 ht with ht | ht
      · exact ⟨t, ht, he⟩
      · exact absurd he (hnew t ht)
    · intro ⟨t, ht, he⟩
      exact ⟨t, List.mem_append_left ts ht, he⟩
  have hsum : sumOver (·.amountCents) (Early L.snapshots scope stop .posted) L.transactions =
      sumOver (·.amountCents) (Early L.snapshots scope stop .posted) L₀.transactions := by
    rw [hrows, sumOver_append, sumOver_none hnew, add_zero]
  apply getPostedBalancesAsOf_congr
  · rw [hany]
    rcases h.account hadmitted (show scope.classId = classId from rfl) with
      hsame | ⟨hall, -, u, hu, hposted⟩
    · exact exists_congr fun t ↦ and_congr_right fun ht ↦ hsame t ht
    · exact iff_of_true ⟨u, hu, (hall u hu).2 ⟨hposted.1, hposted.2.1⟩⟩ ⟨u, hu, hposted⟩
  · rw [hsum]
    rcases h.account hadmitted (show scope.classId = classId from rfl) with
      hsame | ⟨hall, hcancel, -⟩
    · exact sumOver_congr hsame
    · have htotal := sum_early L₀ scope stop
      rw [hcancel, add_zero] at htotal
      rw [sumOver_congr hall, htotal]

theorem Later.inbound (h : Later stop L₀ L) (hadmitted : AdmittedBefore L₀ classId start stop) :
    getInboundLedgerRows L classId start stop = getInboundLedgerRows L₀ classId start stop := by
  obtain ⟨ts, hrows, hstamps⟩ := h.rows
  have hnew : ts.filter (Inbound classId L.snapshots start stop .posted) = [] := by
    rw [List.filter_eq_nil_iff]
    intro t ht hin
    have hin := of_decide_eq_true hin
    exact (hstamps t ht).not_gt hin.2.2.1
  have hold : L₀.transactions.filter (Inbound classId L.snapshots start stop .posted) =
      L₀.transactions.filter (Inbound classId L₀.snapshots start stop .posted) := by
    apply List.filter_congr
    intro t ht
    rw [decide_eq_decide]
    refine and_congr_right fun hclass ↦ and_congr_right fun hstart ↦ and_congr_right fun hstop ↦
      and_congr_right fun hpos ↦ ?_
    have hposted : postingState L₀.snapshots t = .posted := by
      rcases posted_or_pending L₀.snapshots t with hposted | hpending
      · exact hposted
      · exact absurd ⟨hclass, hstart, hstop, hpos, hpending⟩ (hadmitted.inbound t ht)
    rw [hposted]
    rcases h.accounts t.scope with hsame | hposts
    · rw [postingState_congr hsame, hposted]
    · rw [hposts t ht rfl]
  unfold getInboundLedgerRows
  rw [hrows, List.filter_append, hnew, List.append_nil, hold]

theorem AdmittedBefore.closed (h : AdmittedBefore L classId start stop) :
    ReportClosed sha256 L classId start stop := by
  intro as has
  have hlater : Later stop L (run (perform sha256) L as) := (Later.refl stop L).run has
  unfold cycleReads
  rw [hlater.inbound h]
  congr 1
  funext account seatId
  exact hlater.balances h account seatId

end Closed

section Exact

variable {sha256 : String → String} {L L' : LedgerState} {classId : String} {start stop : ℤ}

def Seated (L : LedgerState) : Prop :=
  ∀ t ∈ L.transactions, t.classId ≠ "" ∧ L.seatClass t.seatId = some t.classId

theorem Seated.empty (seatClass : ℕ → Option String) : Seated (.empty seatClass) := by
  intro t ht
  cases ht

theorem Seated.perform (h : Seated L) (a : LedgerAction) : Seated (perform sha256 L a) := by
  rcases @perform_cases sha256 L a with ⟨feat, key, reservation, e, ts, rfl, hts⟩ |
    ⟨seatId, classId, rfl, hsame | hok⟩
  · intro t ht
    rw [hts.transactions] at ht
    rw [hts.seatClass]
    rcases List.mem_append.1 ht with ht | ht
    · exact h t ht
    · exact hts.seated t ht
  · rw [hsame]
    exact h
  · rw [settleBalances_frame hok]
    exact h

/-- The rows of every account of the class add up to an amount that its snapshot can hold. -/
def AccountsFit (L : LedgerState) (classId : String) : Prop :=
  ∀ seatId account, inInt32 (scopeCents L ⟨classId, seatId, account⟩)

theorem advanceCursor_succeeds {ts : List Transaction} (c : Option ℕ)
    (h : ∀ t ∈ ts, ∃ n, t.postingSequence = some n) : ∃ c', advanceCursor c ts = .ok c' := by
  induction ts generalizing c with
  | nil => exact ⟨c, rfl⟩
  | cons t ts ih =>
    obtain ⟨n, hn⟩ := h t List.mem_cons_self
    obtain ⟨c', hc'⟩ := ih (some (max (c.getD 0) n)) fun u hu ↦ h u (List.mem_cons_of_mem t hu)
    refine ⟨c', ?_⟩
    rw [advanceCursor, hn]
    exact hc'

theorem settleAccount_succeeds {pending : List Transaction} {scope : Scope}
    (hrows : RowsWellFormed L.transactions) (hfits : inInt32 (scopeCents L scope))
    (hpending : ∀ t ∈ pending, t ∈ L.transactions) (hcomplete : Complete L pending scope)
    (hsome : ∃ t ∈ pending, t.accountType = scope.accountType) :
    ∃ L', settleAccount L pending scope = .ok L' := by
  have hsequences : ∀ t ∈ pending.filter (·.accountType = scope.accountType),
      ∃ n, t.postingSequence = some n :=
    fun t ht ↦ hrows.sequenced t (hpending t (List.mem_of_mem_filter ht))
  obtain ⟨c, hc⟩ := advanceCursor_succeeds
    ((L.snapshots scope).getD ⟨0, none⟩).reconciledThroughPostingSequence hsequences
  obtain ⟨t, ht, haccount⟩ := hsome
  obtain ⟨-, -, m, hm, -⟩ := (advanceCursor_covers hc).2 t
    (List.mem_filter.2 ⟨ht, by simpa using haccount⟩)
  obtain rfl := Option.mem_def.1 hm
  have hposted : postedHistoryCents L.transactions scope (some m) = scopeCents L scope := by
    apply sumOver_congr
    intro u hu
    constructor
    · exact And.left
    · intro hscope
      obtain ⟨n, hn, m', hm', hle⟩ := hcomplete.covered hc u hu hscope
      obtain rfl := Option.some.inj hm'
      exact ⟨hscope, n, hn, hle⟩
  cases h : settleAccount L pending scope with
  | ok L' => exact ⟨L', rfl⟩
  | error e =>
    simp only [settleAccount, hc, ok_bind, hposted, require_of hfits] at h
    cases h

theorem settleAccounts_succeeds {pending : List Transaction} {seatId : ℕ}
    {accounts : List AccountType} (hnodup : accounts.Nodup)
    (hrows : RowsWellFormed L.transactions) (hfits : AccountsFit L classId)
    (hpending : ∀ t ∈ pending, t ∈ L.transactions)
    (hcomplete : ∀ a ∈ accounts, Complete L pending ⟨classId, seatId, a⟩)
    (hsome : ∀ a ∈ accounts, ∃ t ∈ pending, t.accountType = a) :
    ∃ L', settleAccounts pending seatId classId L accounts = .ok L' := by
  induction accounts generalizing L with
  | nil => exact ⟨L, rfl⟩
  | cons a as ih =>
    obtain ⟨hnot, hnodup⟩ := List.nodup_cons.1 hnodup
    obtain ⟨L₁, h₁⟩ := settleAccount_succeeds hrows (hfits seatId a) hpending
      (hcomplete a List.mem_cons_self) (hsome a List.mem_cons_self)
    have hsame : L₁.transactions = L.transactions := by
      obtain ⟨c, -, rfl⟩ := settleAccount_ok h₁
      rfl
    have hfits' : AccountsFit L₁ classId := by
      intro seatId account
      rw [scopeCents, hsame]
      exact hfits seatId account
    have hcomplete' : ∀ b ∈ as, Complete L₁ pending ⟨classId, seatId, b⟩ := by
      intro b hb
      apply (hcomplete b (List.mem_cons_of_mem a hb)).after _ h₁
      intro heq
      rw [Scope.mk.injEq] at heq
      exact hnot (heq.2.2 ▸ hb)
    obtain ⟨L', h'⟩ := ih hnodup (by rw [hsame]; exact hrows) hfits'
      (by rw [hsame]; exact hpending) hcomplete'
      fun b hb ↦ hsome b (List.mem_cons_of_mem a hb)
    refine ⟨L', ?_⟩
    rw [settleAccounts, h₁]
    exact h'

/-- Where balances fit, a sweep of a row's seat goes through. -/
theorem settleBalances_succeeds (hrows : RowsWellFormed L.transactions) (hseated : Seated L)
    (hfits : AccountsFit L classId) {t : Transaction} (ht : t ∈ L.transactions)
    (hclass : t.classId = classId) (hpending : postingState L.snapshots t = .pending) :
    ∃ L', settleBalances L t.seatId classId = .ok L' ∧
      ∀ u ∈ L.transactions, u.scope = t.scope → postingState L'.snapshots u = .posted := by
  have hseat : L.seatClass t.seatId = some classId := by rw [(hseated t ht).2, hclass]
  have hmem : t ∈ pendingRows L t.seatId classId := mem_pendingRows.2 ⟨ht, hclass, rfl, hpending⟩
  have hcomplete : ∀ a ∈ pendingAccounts (pendingRows L t.seatId classId),
      Complete L (pendingRows L t.seatId classId) ⟨classId, t.seatId, a⟩ := by
    intro a _ u hu hscope hupending
    simp only [Transaction.scope, Scope.mk.injEq] at hscope
    exact mem_pendingRows.2 ⟨hu, hscope.1, hscope.2.1, hupending⟩
  have hnodup : (pendingAccounts (pendingRows L t.seatId classId)).Nodup :=
    List.Pairwise.filter _ (by decide)
  obtain ⟨L', hL'⟩ := settleAccounts_succeeds hnodup hrows hfits
    (fun u hu ↦ (mem_pendingRows.1 hu).1) hcomplete fun a ha ↦ mem_pendingAccounts.1 ha
  refine ⟨L', ?_, ?_⟩
  · simp only [settleBalances, require_of hseat, ok_bind, if_neg (List.ne_nil_of_mem hmem)]
    exact hL'
  · intro u hu hscope
    refine (settleAccounts_posts hnodup hcomplete hL').1 t.accountType
      (mem_pendingAccounts.2 ⟨t, hmem, rfl⟩) u hu ?_
    rw [hscope, Transaction.scope, hclass]

/-- A sweep that posts every row of an account may leave the report as it was only where those
rows cancel out. -/
theorem ReportClosed.balances (h : ReportClosed sha256 L classId start stop)
    (hrows : RowsWellFormed L.transactions) (hseated : Seated L) (hfits : AccountsFit L classId)
    {scope : Scope} (hclass : scope.classId = classId) :
    (∀ t ∈ L.transactions, ¬Early L.snapshots scope stop .pending t) ∨
      sumOver (·.amountCents) (Early L.snapshots scope stop .pending) L.transactions = 0 ∧
        ∃ t ∈ L.transactions, Early L.snapshots scope stop .posted t := by
  by_cases hany : ∃ t ∈ L.transactions, Early L.snapshots scope stop .pending t
  swap
  · exact .inl fun t ht he ↦ hany ⟨t, ht, he⟩
  right
  obtain ⟨t, ht, hscope, hearly, hpending⟩ := hany
  have htclass : t.classId = classId := by rw [← hclass, ← hscope]; rfl
  have hname : classId ≠ "" := by
    rw [← htclass]
    exact (hseated t ht).1
  obtain ⟨L', hL', hposts⟩ := settleBalances_succeeds hrows hseated hfits ht htclass hpending
  have hframe : L'.transactions = L.transactions := by rw [settleBalances_frame hL']
  have hreads := h [.settle t.seatId classId] (by simp [StampedFrom])
  simp only [run_cons, run_nil, perform, hL'] at hreads
  have hbalance := congrFun (congrFun (congrArg CycleReads.balances hreads) scope.accountType)
    scope.seatId
  have hkey : (⟨classId, scope.seatId, scope.accountType⟩ : Scope) = scope := by rw [← hclass]
  have hall : ∀ u ∈ L.transactions, (Early L'.snapshots scope stop .posted u ↔
      u.scope = scope ∧ u.timestamp < stop) := by
    intro u hu
    constructor
    · exact fun he ↦ ⟨he.1, he.2.1⟩
    · rintro ⟨hu', hbefore⟩
      exact ⟨hu', hbefore, hposts u hu (hu'.trans hscope.symm)⟩
  have hafter : ¬(classId = "" ∨ ¬∃ u ∈ L'.transactions, Early L'.snapshots scope stop .posted u) := by
    rw [hframe]
    exact not_or.2 ⟨hname, not_not.2 ⟨t, ht, (hall t ht).2 ⟨hscope, hearly⟩⟩⟩
  simp only [cycleReads, getPostedBalancesAsOf, hkey] at hbalance
  rw [if_neg hafter] at hbalance
  split_ifs at hbalance with hbefore
  obtain ⟨-, hposted⟩ := not_or.1 hbefore
  rw [not_not] at hposted
  refine ⟨?_, hposted⟩
  have hvalue := congrArg Hundredths.value (Option.some.inj hbalance)
  rw [hframe, sumOver_congr hall, quantizeCurrency_ofCents (hrows.abs_sumOver_lt _),
    quantizeCurrency_ofCents (hrows.abs_sumOver_lt _), sum_early L scope stop] at hvalue
  omega

theorem ReportClosed.inbound (h : ReportClosed sha256 L classId start stop)
    (hrows : RowsWellFormed L.transactions) (hseated : Seated L) (hfits : AccountsFit L classId)
    {t : Transaction} (ht : t ∈ L.transactions) :
    ¬Inbound classId L.snapshots start stop .pending t := by
  intro ⟨hclass, hstart, hstop, hpos, hpending⟩
  have hname : classId ≠ "" := by
    rw [← hclass]
    exact (hseated t ht).1
  obtain ⟨L', hL', hposts⟩ := settleBalances_succeeds hrows hseated hfits ht hclass hpending
  have hframe : L'.transactions = L.transactions := by rw [settleBalances_frame hL']
  have hreads := h [.settle t.seatId classId] (by simp [StampedFrom])
  simp only [run_cons, run_nil, perform, hL'] at hreads
  have hinbound := congrArg (List.length ∘ CycleReads.inbound) hreads
  simp only [Function.comp_apply, cycleReads, getInboundLedgerRows, if_neg hname, List.length_map,
    hframe] at hinbound
  have hkept : L.transactions.filter (Inbound classId L.snapshots start stop .posted) =
      (L.transactions.filter (Inbound classId L'.snapshots start stop .posted)).filter
        (Inbound classId L.snapshots start stop .posted) := by
    rw [List.filter_filter]
    apply List.filter_congr
    intro u hu
    rw [Bool.eq_iff_iff, Bool.and_eq_true, decide_eq_true_iff, decide_eq_true_iff]
    refine ⟨fun hin ↦ ⟨hin, ?_⟩, And.left⟩
    obtain ⟨huclass, hustart, hustop, hupos, hposted⟩ := hin
    refine ⟨huclass, hustart, hustop, hupos, ?_⟩
    rcases settleBalances_posts hL' u.scope with hall | hsame
    · exact hall u hu rfl
    · rw [postingState_congr hsame, hposted]
  have hsame : L.transactions.filter (Inbound classId L.snapshots start stop .posted) =
      L.transactions.filter (Inbound classId L'.snapshots start stop .posted) := by
    rw [hkept]
    apply List.Sublist.eq_of_length List.filter_sublist
    rw [← hkept, hinbound]
  have hmem : t ∈ L.transactions.filter (Inbound classId L'.snapshots start stop .posted) :=
    List.mem_filter.2 ⟨ht, decide_eq_true ⟨hclass, hstart, hstop, hpos, hposts t ht rfl⟩⟩
  rw [← hsame, List.mem_filter, decide_eq_true_iff] at hmem
  rw [hmem.2.2.2.2.2] at hpending
  cases hpending

/-- In every ledger that is reached, a report whose earlier rows are admitted where they show is
closed; and no other is, where the class's balances fit their snapshots. -/
theorem report_closed_iff_admitted (sha256 : String → String) (seatClass : ℕ → Option String)
    (as : List LedgerAction) (classId : String) (start stop : ℤ) :
    let L := run (perform sha256) (.empty seatClass) as
    (AdmittedBefore L classId start stop → ReportClosed sha256 L classId start stop) ∧
      (AccountsFit L classId →
        (ReportClosed sha256 L classId start stop ↔ AdmittedBefore L classId start stop)) := by
  intro L
  have hi : BalanceInvariant L := (BalanceInvariant.empty seatClass).run as
  have hseated : Seated L := run_invariant (Seated.empty seatClass) (fun _ a h ↦ h.perform a) as
  refine ⟨AdmittedBefore.closed, fun hfits ↦ ⟨fun hclosed ↦ ?_, AdmittedBefore.closed⟩⟩
  constructor
  · intro scope hclass
    exact hclosed.balances hi.rows hseated hfits hclass
  · intro t ht
    exact hclosed.inbound hi.rows hseated hfits ht

def sampleCredit : LedgerAction :=
  .create ⟨"FEAT-LED-001", "corr_1", 0⟩ none none
    { seatId := 1, classId := "c", targetSeatId := 1, actorSeatId := 1, mechanism := "teacher"
      amount := some (.ofCents 500), accountType := "checking", type := some "manual_payment" }

def sampleLedger (as : List LedgerAction) : LedgerState :=
  run (perform id) (.empty fun s ↦ if s = 1 then some "c" else none) as

theorem report_closed_after_sweep :
    ReportClosed id (sampleLedger [sampleCredit, .settle 1 "c"]) "c" 0 10 := by
  have hposted : ∀ t ∈ (sampleLedger [sampleCredit, .settle 1 "c"]).transactions,
      postingState (sampleLedger [sampleCredit, .settle 1 "c"]).snapshots t = .posted := by
    decide +kernel
  refine (report_closed_iff_admitted id (fun s ↦ if s = 1 then some "c" else none)
    [sampleCredit, .settle 1 "c"] "c" 0 10).1 ⟨?_, ?_⟩
  · intro scope _
    refine .inl fun t ht he ↦ ?_
    have hboth := (hposted t ht).symm.trans he.2.2
    cases hboth
  · intro t ht hin
    have hboth := (hposted t ht).symm.trans hin.2.2.2.2
    cases hboth

/-- A credit of the window that is swept at its end joins both reads. -/
theorem late_sweep_changes_report :
    getPostedBalancesAsOf (sampleLedger [sampleCredit]) "c" 10 .checking 1 = none ∧
      getPostedBalancesAsOf (sampleLedger [sampleCredit, .settle 1 "c"]) "c" 10 .checking 1 =
        some ⟨false, 500⟩ ∧
      getInboundLedgerRows (sampleLedger [sampleCredit]) "c" 0 10 = [] ∧
      (getInboundLedgerRows (sampleLedger [sampleCredit, .settle 1 "c"]) "c" 0 10).length = 1 ∧
      ¬ReportClosed id (sampleLedger [sampleCredit]) "c" 0 10 := by
  have hbefore : getPostedBalancesAsOf (sampleLedger [sampleCredit]) "c" 10 .checking 1 = none := by
    decide +kernel
  have hafter : getPostedBalancesAsOf (sampleLedger [sampleCredit, .settle 1 "c"]) "c" 10
      .checking 1 = some ⟨false, 500⟩ := by
    decide +kernel
  refine ⟨hbefore, hafter, by decide +kernel, by decide +kernel, fun hclosed ↦ ?_⟩
  have hreads := hclosed [.settle 1 "c"] (by simp [StampedFrom])
  have hbalance := congrFun (congrFun (congrArg CycleReads.balances hreads) .checking) 1
  have hsame : getPostedBalancesAsOf (sampleLedger [sampleCredit, .settle 1 "c"]) "c" 10
      .checking 1 = getPostedBalancesAsOf (sampleLedger [sampleCredit]) "c" 10 .checking 1 :=
    hbalance
  rw [hbefore, hafter] at hsame
  cases hsame

end Exact

end TokenHub.Ledger
