import TokenHub.Ledger.ReversalSteps
import TokenHub.Ledger.TransferRuns

set_option autoImplicit false

namespace TokenHub.Ledger

open Lib.Decimals Lib.Checks Lib.Json

inductive Origin
  | purchase
  | fine
  | transferLeg
  | obligationPayment
  | income
  | claimPayout
  | recovery
  | reversal
  | removalNote
deriving DecidableEq, Repr

def Origin.types : Origin → List TransactionType
  | .purchase => [.purchase]
  | .fine => [.penalty]
  | .transferLeg => [.legacyWithdrawal, .legacyDeposit]
  | .obligationPayment => [.rentPayment, .insurancePremium]
  | .income => [.payroll, .manualPayment, .legacyInterest]
  | .claimPayout => [.insuranceReimbursement]
  | .recovery => [.payrollCorrection]
  | .reversal => [.legacyReversal]
  | .removalNote => [.voidItemRemoved]

structure Entry where
  row : Transaction
  origin : Origin
deriving DecidableEq, Repr

def entriesOf (rows : List Transaction) (origins : List Origin) : List Entry :=
  List.zipWith Entry.mk rows origins

def debitOrigins (w : Origin) (n : ℕ) : List Origin := List.replicate (n - 1) .transferLeg ++ [w]

def chargeOrigins (principal : Option Transaction) (w : Origin) (n : ℕ) : List Origin :=
  if principal.isSome then debitOrigins w n else List.replicate n .transferLeg

/-- A charge: its plan is built, funded from the accounts of its seat, and applied. -/
def postCharge (sha256 : String → String) (feat : FeatContext) (L : LedgerState)
    (plan : IntendedLedgerPlan) (directive : BankingDirective) (key : String) :
    Except Raise (AppliedPlan × LedgerState) := do
  let intended ← buildIntendedLedgerPlan plan
  let resolved ← resolveIntendedLedgerPlan L intended directive
  applyResolvedLedgerPlan sha256 feat L resolved key

variable {sha256 : String → String} {feat : FeatContext} {L L' : LedgerState} {w : Origin}
  {effects : List Effect} {rows : List Transaction} {origins : List Origin}

section Effects

/-- An effect that a write of the kind posts. Only reversals and payouts name an original. -/
structure Effect.Suits (e : Effect) (w : Origin) : Prop where
  type : ∃ k ∈ w.types, e.type = some k.value
  original : e.originalTransactionId.isSome → w = .reversal ∨ w = .claimPayout

theorem Effect.suits_of {e : Effect} {k : TransactionType} (hk : k ∈ w.types)
    (htype : e.type = some k.value) (horiginal : e.originalTransactionId = none) : e.Suits w := by
  refine ⟨⟨k, hk, htype⟩, fun hsome ↦ ?_⟩
  rw [horiginal] at hsome
  cases hsome

structure Entry.Suits (e : Entry) : Prop where
  type : ∃ k ∈ e.origin.types, e.row.type = some k
  original : e.row.originalTransactionId.isSome → e.origin = .reversal ∨ e.origin = .claimPayout

theorem RowOf.suits {r : Option LedgerCommandReservation} {e : Effect} {t : Transaction}
    (hrow : RowOf feat r e t) (h : e.Suits w) : (Entry.mk t w).Suits where
  type := by
    obtain ⟨k, hk, htype⟩ := h.type
    have hparsed := hrow.type
    rw [htype, parseTransactionType, TransactionType.ofString_value, Option.map_some,
      Option.some.injEq] at hparsed
    exact ⟨k, hk, hparsed.symm⟩
  original := by
    rw [hrow.originalTransactionId]
    exact h.original

theorem fundingEffects_suit {p : IntendedLedgerPlan} {activeFeat key : String} {transfer : ℤ} :
    ∀ e ∈ fundingEffects sha256 p activeFeat key transfer, e.Suits .transferLeg := by
  intro e he
  unfold fundingEffects at he
  simp only at he
  split_ifs at he with hzero
  · cases he
  · rcases List.mem_pair.1 he with rfl | rfl
    · exact ⟨⟨.legacyWithdrawal, by decide, rfl⟩, nofun⟩
    · exact ⟨⟨.legacyDeposit, by decide, rfl⟩, nofun⟩

theorem forall₂_replicate {α β : Type} {P : α → β → Prop} {b : β} {as : List α}
    (h : ∀ a ∈ as, P a b) : List.Forall₂ P as (List.replicate as.length b) := by
  induction as with
  | nil => exact .nil
  | cons a as ih =>
    exact .cons (h a List.mem_cons_self) (ih (fun a' ha ↦ h a' (List.mem_cons_of_mem _ ha)))

theorem planEffects_suit {resolved : ResolvedLedgerPlan} {activeFeat key : String}
    {principal : Option Transaction}
    (hp : principal.isSome ↔ resolved.intendedPlan.debitAmount ≠ 0)
    (hw : (principalEffect resolved.intendedPlan).Suits w) :
    List.Forall₂ Effect.Suits (planEffects sha256 resolved activeFeat key)
      (chargeOrigins principal w (planEffects sha256 resolved activeFeat key).length) := by
  by_cases hzero : resolved.intendedPlan.debitAmount = 0
  · have hnone : ¬ principal.isSome := fun hsome ↦ hp.1 hsome hzero
    rw [chargeOrigins, if_neg hnone, planEffects, if_pos hzero, List.append_nil]
    exact forall₂_replicate fundingEffects_suit
  · rw [chargeOrigins, if_pos (hp.2 hzero), debitOrigins, planEffects, if_neg hzero,
      List.length_append, List.length_singleton, Nat.add_sub_cancel]
    exact List.rel_append (forall₂_replicate fundingEffects_suit) (.cons hw .nil)

theorem entriesOf_rows (hlen : rows.length = origins.length) :
    (entriesOf rows origins).map Entry.row = rows := by
  induction rows generalizing origins with
  | nil => rfl
  | cons t rows ih =>
    cases origins with
    | nil => simp at hlen
    | cons w origins =>
      simp only [entriesOf, List.zipWith_cons_cons, List.map_cons, List.cons.injEq, true_and]
      exact ih (by simpa using hlen)

theorem mem_origins_of_mem {e : Entry} (he : e ∈ entriesOf rows origins) : e.origin ∈ origins := by
  induction rows generalizing origins with
  | nil => simp [entriesOf] at he
  | cons t rows ih =>
    cases origins with
    | nil => simp [entriesOf] at he
    | cons w origins =>
      rw [entriesOf, List.zipWith_cons_cons] at he
      rcases List.mem_cons.1 he with rfl | he
      · exact List.mem_cons_self
      · exact List.mem_cons_of_mem _ (ih he)

theorem mem_entriesOf {r : Option LedgerCommandReservation} {e : Entry}
    (hrows : List.Forall₂ (RowOf feat r) effects rows)
    (horigins : List.Forall₂ Effect.Suits effects origins) (he : e ∈ entriesOf rows origins) :
    ∃ effect ∈ effects, RowOf feat r effect e.row ∧ effect.Suits e.origin := by
  induction hrows generalizing origins with
  | nil => simp [entriesOf] at he
  | @cons effect t effects rows hrow _ ih =>
    obtain _ | ⟨hsuits, horigins⟩ := horigins
    rw [entriesOf, List.zipWith_cons_cons] at he
    rcases List.mem_cons.1 he with rfl | he
    · exact ⟨effect, List.mem_cons_self, hrow, hsuits⟩
    · obtain ⟨effect', hmem, hfound⟩ := ih horigins he
      exact ⟨effect', List.mem_cons_of_mem _ hmem, hfound⟩

end Effects

section Registers

/-- Rows are numbered in order, and each stands under the feature code of its reservation. -/
structure Registered (L : LedgerState) : Prop where
  commands : CommandInvariant L
  numbered : L.transactions.Pairwise (fun t u ↦ t.id < u.id)
  bounded : ∀ t ∈ L.transactions, t.id ≤ L.transactions.length
  underFeat : ∀ t ∈ L.transactions, ∀ r ∈ L.reservations,
    t.commandReservationId = some r.id → t.featCode = r.featCode

theorem Registered.empty (seatClass : ℕ → Option String) : Registered (.empty seatClass) where
  commands := .empty seatClass
  numbered := .nil
  bounded := by simp [LedgerState.empty]
  underFeat := by simp [LedgerState.empty]

theorem Registered.id_inj (h : Registered L) {t u : Transaction} (ht : t ∈ L.transactions)
    (hu : u ∈ L.transactions) (hid : t.id = u.id) : t = u := by
  have hnodup : (L.transactions.map (·.id)).Nodup :=
    List.pairwise_map.2 (h.numbered.imp fun hlt ↦ Nat.ne_of_lt hlt)
  exact List.inj_on_of_nodup_map hnodup ht hu hid

/-- Rows in the order of their numbers, none above the length of the table. -/
def Ordered (L : LedgerState) : Prop :=
  L.transactions.Pairwise (fun t u ↦ t.id < u.id) ∧
    ∀ t ∈ L.transactions, t.id ≤ L.transactions.length

theorem Ordered.insertions (h : Ordered L) (hi : Insertions L rows L') : Ordered L' := by
  refine hi.invariant (I := Ordered) h (fun L t L' hL hins ↦ ?_)
  rw [Ordered, hins.state]
  refine ⟨List.pairwise_append.2 ⟨hL.1, List.pairwise_singleton _ _, fun u hu v hv ↦ ?_⟩,
    fun u hu ↦ ?_⟩
  · rw [List.mem_singleton.1 hv, hins.id]
    exact Nat.lt_succ_of_le (hL.2 u hu)
  · rw [List.length_append, List.length_singleton]
    rcases List.mem_append.1 hu with hu | hu
    · exact Nat.le_succ_of_le (hL.2 u hu)
    · rw [List.mem_singleton.1 hu, hins.id]

/-- New rows of a command, under a reservation of its own or under none. -/
structure Posted (feat : FeatContext) (effects : List Effect) (rows : List Transaction)
    (L L' : LedgerState) : Prop where
  transactions : L'.transactions = L.transactions ++ rows
  rowsOf : ∃ r, List.Forall₂ (RowOf feat r) effects rows
  registered : Registered L'

theorem Registered.reserve (h : Registered L) {id : CommandIdentity} {f : String}
    (hid : id.featCode = feat.activeFeat) (hfresh : ∀ r ∈ L.reservations, r.identity ≠ id)
    (hi : Insertions { L with reservations := L.reservations ++ [newReservation L id f] } rows L')
    (hrows : List.Forall₂ (RowOf feat (some (newReservation L id f))) effects rows) :
    Posted feat effects rows L L' := by
  have hstate := hi.state
  have hordered : Ordered L' := .insertions (L := { L with
    reservations := L.reservations ++ [newReservation L id f] }) ⟨h.numbered, h.bounded⟩ hi
  refine ⟨by rw [hstate], ⟨_, hrows⟩, h.commands.reserve hfresh hi hrows, hordered.1, hordered.2,
    fun t ht r hr hown ↦ ?_⟩
  rw [hstate] at ht hr
  rcases List.mem_append.1 ht with ht | ht <;> rcases List.mem_append.1 hr with hr | hr
  · exact h.underFeat t ht r hr hown
  · -- a row that was there belongs to no reservation that is new
    rw [List.mem_singleton.1 hr] at hown
    have hle := h.commands.owned t ht _ (Option.mem_def.2 hown)
    simp only [newReservation] at hle
    omega
  · obtain ⟨e, -, hrow⟩ := forall₂_exists_left hrows ht
    have hid' : (newReservation L id f).id = r.id := by
      rw [hrow.commandReservationId] at hown
      simpa using hown
    have hle := h.commands.bounded r hr
    simp only [newReservation] at hid'
    omega
  · obtain ⟨e, -, hrow⟩ := forall₂_exists_left hrows ht
    rw [List.mem_singleton.1 hr, hrow.featCode, ← hid]
    rfl

theorem Registered.unreserved (h : Registered L) {e : Effect} {t : Transaction}
    (hok : createPendingEffect sha256 feat L none e = .ok (t, L')) :
    Posted feat [e] [t] L L' := by
  obtain ⟨hins, hrow, -⟩ := createPendingEffect_ok hok
  have hordered : Ordered L' :=
    .insertions (L := L) ⟨h.numbered, h.bounded⟩ (.cons hins (.nil _))
  have hnone : t.commandReservationId = none := hrow.commandReservationId
  have htx : L'.transactions = L.transactions ++ [t] := by rw [hins.state]
  have hres : L'.reservations = L.reservations := by rw [hins.state]
  refine ⟨htx, ⟨none, .cons hrow .nil⟩, ⟨?_, ?_, ?_, ?_⟩, hordered.1, hordered.2,
    fun u hu r hr hown ↦ ?_⟩
  · exact hres ▸ h.commands.numbered
  · exact hres ▸ h.commands.bounded
  · exact hres ▸ h.commands.distinct
  · intro u hu i hi
    rw [hres]
    rw [htx] at hu
    rcases List.mem_append.1 hu with hu | hu
    · exact h.commands.owned u hu i hi
    · rw [List.mem_singleton.1 hu, hnone] at hi
      cases hi
  · rw [htx] at hu
    rw [hres] at hr
    rcases List.mem_append.1 hu with hu | hu
    · exact h.underFeat u hu r hr hown
    · rw [List.mem_singleton.1 hu, hnone] at hown
      cases hown

theorem Registered.settle (h : Registered L) (seatId : ℕ) (classId : String) :
    Registered (perform sha256 L (.settle seatId classId)) ∧
      (perform sha256 L (.settle seatId classId)).transactions = L.transactions := by
  simp only [perform]
  split
  · next L' hok =>
    rw [settleBalances_frame hok]
    exact ⟨⟨⟨h.commands.numbered, h.commands.bounded, h.commands.distinct, h.commands.owned⟩,
      h.numbered, h.bounded, h.underFeat⟩, rfl⟩
  · exact ⟨h, rfl⟩

/-- What a reserved command does: it reports rows that were there, all of its feature, or posts
its own. -/
def Answers (feat : FeatContext) (effects : List Effect) (rows : List Transaction)
    (L L' : LedgerState) : Prop :=
  (L' = L ∧ ∀ t ∈ rows, t ∈ L.transactions ∧ t.featCode = feat.activeFeat) ∨
    Posted feat effects rows L L'

theorem Registered.reserved (h : Registered L) {id : CommandIdentity} {intent : Value} {created : Bool}
    (hid : id.featCode = feat.activeFeat)
    (hok : createReservedEffects sha256 feat L L.reservations id effects intent =
      .ok ((rows, created), L')) : Answers feat effects rows L L' := by
  rcases createReservedEffects_ok hok with ⟨-, rfl, r, hr, hidentity, hreplay⟩ |
    ⟨-, hfresh, f, -, hi, hrows⟩
  · refine .inl ⟨rfl, fun t ht ↦ ?_⟩
    rw [(replayReserved_ok.1 hreplay).2.2] at ht
    obtain ⟨hmem, hown⟩ := List.mem_filter.1 ht
    refine ⟨hmem, ?_⟩
    rw [h.underFeat t hmem r (hr.elim (fun h ↦ h) (fun h ↦ h)) (by simpa using hown), ← hid,
      ← hidentity]
    rfl
  · exact .inr (h.reserve hid hfresh hi hrows)

theorem Registered.idempotent (h : Registered L) {key : String} {e : Effect} {created : Bool}
    (hok : createIdempotentTransaction sha256 feat L L.reservations key e =
      .ok ((rows, created), L')) : Answers feat [e] rows L L' := by
  simp only [createIdempotentTransaction, unit_bind_eq_ok] at hok
  exact h.reserved rfl hok.2.2.2

/-- A pending effect with a key goes through its reservation, one without it does not. -/
theorem Registered.pending (h : Registered L) {key : String} {e : Effect}
    (hok : createPendingTransaction sha256 feat L (some key) none e = .ok (rows, L')) :
    L' = L ∨ ∃ e' rows', (e' = e ∨ e' = e.quantized) ∧ Posted feat [e'] rows' L L' := by
  simp only [createPendingTransaction, require_bind_eq_ok, Option.getD_some] at hok
  obtain ⟨-, hok⟩ := hok
  split_ifs at hok with hkey
  · simp only [bind_eq_ok, pure_eq_ok, Prod.exists, Prod.mk.injEq] at hok
    obtain ⟨rows', created, L₁, hc, -, rfl⟩ := hok
    rcases h.idempotent (e := e.quantized) hc with ⟨hsame, -⟩ | hposted
    · exact .inl hsame
    · exact .inr ⟨_, _, .inr rfl, hposted⟩
  · simp only [bind_eq_ok, pure_eq_ok, Prod.exists, Prod.mk.injEq] at hok
    obtain ⟨t, L₁, ht, -, rfl⟩ := hok
    exact .inr ⟨e, [t], .inl rfl, h.unreserved ht⟩

theorem Registered.transfer (h : Registered L) {key : String} {q : TransferRequest}
    {result : TransferResult}
    (hok : executeAccountTransfer sha256 feat key L q = .ok (result, L')) :
    L' = L ∨ ∃ rows, Posted feat [q.withdrawal, q.deposit] rows L L' := by
  simp only [executeAccountTransfer, require_bind_eq_ok] at hok
  obtain ⟨-, hok⟩ := hok
  simp only [bind_eq_ok, demand_eq_ok, pure_eq_ok, Prod.exists, Prod.mk.injEq] at hok
  obtain ⟨available, -, insufficient, -, -, -, withdrawal, deposit, L₁, hpair, -, rfl⟩ := hok
  simp only [createTransferPair, require_bind_eq_ok] at hpair
  obtain ⟨-, -, hpair⟩ := hpair
  rw [bind_eq_ok] at hpair
  obtain ⟨-, -, hpair⟩ := hpair
  split at hpair
  · simp only [bind_eq_ok, pure_eq_ok, Prod.mk.injEq] at hpair
    obtain ⟨-, -, -, hsame⟩ := hpair
    exact .inl hsame.symm
  · next hnone =>
    have hposted := postTransferPair_ok hpair
    refine .inr ⟨_, h.reserve rfl (fun r hr hid ↦ ?_) hposted.insertions hposted.rowsOf⟩
    rw [List.find?_eq_none] at hnone
    exact hnone r hr (decide_eq_true hid)

end Registers

section Charges

variable {resolved : ResolvedLedgerPlan} {key : String} {applied : AppliedPlan}

/-- What an applied plan does: it reports a debit that was there, of its own feature, or posts
its effects and reports the last. -/
theorem Registered.charge (h : Registered L)
    (hok : applyResolvedLedgerPlan sha256 feat L resolved key = .ok (applied, L')) :
    (L' = L ∧ ∀ d, applied.principal = some d →
        d ∈ L.transactions ∧ d.featCode = feat.activeFeat) ∨
      ∃ rows, Posted feat (planEffects sha256 resolved feat.activeFeat key) rows L L' ∧
        (applied.principal.isSome ↔ resolved.intendedPlan.debitAmount ≠ 0) ∧
        ∀ d, applied.principal = some d → rows.getLast? = some d := by
  simp only [applyResolvedLedgerPlan] at hok
  split_ifs at hok with hnil hzero
  · rw [pure_eq_ok, Prod.mk.injEq] at hok
    obtain ⟨rfl, rfl⟩ := hok
    exact .inl ⟨rfl, by simp⟩
  · simp only [unit_bind_eq_ok] at hok
    simp only [bind_eq_ok, Prod.exists, pure_eq_ok, Prod.mk.injEq] at hok
    obtain ⟨-, rows, created, L₁, hc, rfl, rfl⟩ := hok
    rcases h.reserved rfl hc with ⟨hsame, -⟩ | hposted
    · exact .inl ⟨hsame, by simp⟩
    · exact .inr ⟨rows, hposted, by simpa using hzero, by simp⟩
  · simp only [unit_bind_eq_ok] at hok
    simp only [bind_eq_ok, Prod.exists, demand_eq_ok, pure_eq_ok, Prod.mk.injEq] at hok
    obtain ⟨-, rows, created, L₁, hc, principal, hprincipal, rfl, rfl⟩ := hok
    rcases h.reserved rfl hc with ⟨hsame, hrows⟩ | hposted
    · refine .inl ⟨hsame, fun d hd ↦ ?_⟩
      rw [Option.some.injEq] at hd
      exact hd ▸ hrows _ (List.mem_of_getElem? hprincipal)
    · refine .inr ⟨rows, hposted, by simpa using hzero, fun d hd ↦ ?_⟩
      obtain ⟨r, hrowsOf⟩ := hposted.rowsOf
      rw [← hd, ← hprincipal, List.getLast?_eq_getElem?, hrowsOf.length_eq]

theorem postCharge_ok {plan : IntendedLedgerPlan} {directive : BankingDirective}
    (hok : postCharge sha256 feat L plan directive key = .ok (applied, L')) :
    ∃ resolved, resolved.intendedPlan.transactionType = plan.transactionType ∧
      resolved.intendedPlan.originalTransactionId = plan.originalTransactionId ∧
      applyResolvedLedgerPlan sha256 feat L resolved key = .ok (applied, L') := by
  simp only [postCharge, bind_eq_ok] at hok
  obtain ⟨intended, hbuild, resolved, hresolve, happly⟩ := hok
  rw [buildIntendedLedgerPlan, require_bind_eq_ok, pure_eq_ok] at hbuild
  obtain ⟨-, rfl⟩ := hbuild
  have hplan := resolveIntendedLedgerPlan_plan hresolve
  exact ⟨resolved, by rw [hplan], by rw [hplan], happly⟩

theorem mem_debitEntries {d : Transaction} {e : Entry} (hlast : rows.getLast? = some d)
    (he : e ∈ entriesOf rows (debitOrigins w rows.length)) :
    e.origin = .transferLeg ∨ e.row = d ∧ e.origin = w := by
  obtain ⟨transfers, rfl⟩ := List.getLast?_eq_some_iff.1 hlast
  simp only [debitOrigins, List.length_append, List.length_singleton, Nat.add_sub_cancel,
    entriesOf] at he
  rw [List.zipWith_append (by simp)] at he
  rcases List.mem_append.1 he with he | he
  · left
    rw [List.mem_iff_getElem] at he
    obtain ⟨i, hi, rfl⟩ := he
    simp
  · right
    simp only [List.zipWith_cons_cons, List.zipWith_nil_right, List.mem_singleton] at he
    rw [he]
    exact ⟨rfl, rfl⟩

end Charges

end TokenHub.Ledger
