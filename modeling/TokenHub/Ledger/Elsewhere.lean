import TokenHub.Ledger.Funding

set_option autoImplicit false

namespace TokenHub.Ledger

open Lib.Checks Lib.Json

variable {sha256 : String → String} {featCode key : String} {feat : FeatContext}
  {L L' L'' : LedgerState} {resolved : ResolvedLedgerPlan}

/-- Growth that leaves the rows and the reservations of one feature code as they are. -/
structure GrowsElsewhere (sha256 : String → String) (featCode : String) (L L' : LedgerState) : Prop
    extends LedgerGrows sha256 L L' where
  rowsUnder : L'.transactions.filter (·.featCode = featCode) =
    L.transactions.filter (·.featCode = featCode)
  reservationsUnder : L'.reservations.filter (·.featCode = featCode) =
    L.reservations.filter (·.featCode = featCode)

theorem GrowsElsewhere.refl (h : LedgerSound sha256 L) : GrowsElsewhere sha256 featCode L L :=
  { LedgerGrows.refl h with
    rowsUnder := rfl
    reservationsUnder := rfl }

theorem GrowsElsewhere.trans (h : GrowsElsewhere sha256 featCode L L')
    (h' : GrowsElsewhere sha256 featCode L' L'') : GrowsElsewhere sha256 featCode L L'' :=
  { h.toLedgerGrows.trans h'.toLedgerGrows with
    rowsUnder := h'.rowsUnder.trans h.rowsUnder
    reservationsUnder := h'.reservationsUnder.trans h.reservationsUnder }

theorem GrowsElsewhere.reserved (hs : LedgerSound sha256 L) {id : CommandIdentity}
    {effects : List Effect} {intent : Value} {rows : List Transaction} {created : Bool}
    (hfeat : feat.activeFeat ≠ featCode) (hid : id.featCode ≠ featCode)
    (h0 : ∀ e ∈ effects, e.compensationAmountCents = 0)
    (hok : createReservedEffects sha256 feat L L.reservations id effects intent =
      .ok ((rows, created), L')) : GrowsElsewhere sha256 featCode L L' := by
  have hg : LedgerGrows sha256 L L' := .reserved hs h0 hok
  rcases createReservedEffects_ok hok with ⟨-, rfl, -⟩ | ⟨-, -, f, -, hi, hrows⟩
  · exact .refl hs
  · have hnew : rows.filter (·.featCode = featCode) = [] := by
      rw [List.filter_eq_nil_iff]
      intro t ht
      obtain ⟨e, -, hrow⟩ := forall₂_exists_left hrows ht
      rw [hrow.featCode]
      simpa using hfeat
    refine { hg with rowsUnder := ?_, reservationsUnder := ?_ }
    · rw [hi.state]
      simp only [List.filter_append, hnew, List.append_nil]
    · rw [hi.state]
      simp [List.filter_append, newReservation, hid]

theorem GrowsElsewhere.settle (hs : LedgerSound sha256 L) (seatId : ℕ) (classId : String) :
    GrowsElsewhere sha256 featCode L (perform sha256 L (.settle seatId classId)) := by
  have hg : LedgerGrows sha256 L (perform sha256 L (.settle seatId classId)) :=
    .settle hs seatId classId
  simp only [perform] at hg ⊢
  split
  · next L' hok =>
    simp only [hok] at hg
    rw [settleBalances_frame hok] at hg ⊢
    exact { hg with rowsUnder := rfl, reservationsUnder := rfl }
  · exact .refl hs

/-- An applied charge, replayed or new, reports a row of the Ledger. -/
theorem GrowsElsewhere.charge (hs : LedgerSound sha256 L) (hfeat : feat.activeFeat ≠ featCode)
    (horigin : resolved.intendedPlan.compensationOriginLocator = none) {applied : AppliedPlan}
    (hok : applyResolvedLedgerPlan sha256 feat L resolved key = .ok (applied, L')) :
    GrowsElsewhere sha256 featCode L L' ∧
      ∀ t, applied.principal = some t → t ∈ L'.transactions := by
  simp only [applyResolvedLedgerPlan] at hok
  split_ifs at hok with hnil hzero
  · rw [pure_eq_ok, Prod.mk.injEq] at hok
    obtain ⟨rfl, rfl⟩ := hok
    exact ⟨.refl hs, by simp⟩
  · simp only [unit_bind_eq_ok] at hok
    simp only [bind_eq_ok, Prod.exists, pure_eq_ok, Prod.mk.injEq] at hok
    obtain ⟨-, rows, created, L₁, hc, rfl, rfl⟩ := hok
    exact ⟨.reserved hs hfeat hfeat (mem_planEffects_recovers_nothing horigin) hc, by simp⟩
  · simp only [unit_bind_eq_ok] at hok
    simp only [bind_eq_ok, Prod.exists, demand_eq_ok, pure_eq_ok, Prod.mk.injEq] at hok
    obtain ⟨-, rows, created, L₁, hc, principal, hprincipal, rfl, rfl⟩ := hok
    have hg : GrowsElsewhere sha256 featCode L L₁ :=
      .reserved hs hfeat hfeat (mem_planEffects_recovers_nothing horigin) hc
    refine ⟨hg, fun t ht ↦ ?_⟩
    rw [Option.some.injEq] at ht
    obtain rfl := ht
    have hmem : principal ∈ rows := List.mem_of_getElem? hprincipal
    rcases createReservedEffects_ok hc with ⟨-, rfl, r, -, -, hr⟩ | ⟨-, -, f, -, hi, -⟩
    · rw [(replayReserved_ok.1 hr).2.2] at hmem
      exact (List.mem_filter.1 hmem).1
    · rw [hi.state]
      exact List.mem_append_right _ hmem

structure RowPosted (sha256 : String → String) (feat : FeatContext) (key : String) (e : Effect)
    (L : LedgerState) (t : Transaction) (r : LedgerCommandReservation) (L' : LedgerState) : Prop
    extends LedgerGrows sha256 L L' where
  transactions : L'.transactions = L.transactions ++ [t]
  reservations : L'.reservations = L.reservations ++ [r]
  identity : r.identity = ⟨e.classId, feat.activeFeat, key⟩
  rowOf : RowOf feat (some r) e t

theorem RowPosted.idempotent (hs : LedgerSound sha256 L) {e : Effect}
    (h0 : e.compensationAmountCents = 0)
    (hfresh : ∀ r ∈ L.reservations, r.identity ≠ ⟨e.classId, feat.activeFeat, key⟩)
    {rows : List Transaction} {created : Bool}
    (hok : createIdempotentTransaction sha256 feat L L.reservations key e =
      .ok ((rows, created), L')) : ∃ t r, rows = [t] ∧ RowPosted sha256 feat key e L t r L' := by
  simp only [createIdempotentTransaction, unit_bind_eq_ok] at hok
  obtain ⟨-, -, -, hok⟩ := hok
  have hg : LedgerGrows sha256 L L' := .reserved hs (by simpa using h0) hok
  rcases createReservedEffects_ok hok with ⟨-, -, r, hr, hid, -⟩ | ⟨-, -, f, -, hi, hrows⟩
  · exact absurd hid (hfresh r (hr.elim id id))
  · obtain _ | ⟨hrow, hnil⟩ := hrows
    cases hnil
    refine ⟨_, _, rfl, { hg with
      transactions := ?_, reservations := ?_, identity := rfl, rowOf := hrow }⟩
    · rw [hi.state]
    · rw [hi.state]

def Effect.quantized (e : Effect) : Effect :=
  { e with amount := some (.ofHundredths (quantizeCurrency e.amount)) }

theorem RowPosted.pending (hs : LedgerSound sha256 L) {e : Effect} (hkey : key ≠ "")
    (h0 : e.compensationAmountCents = 0)
    (hfresh : ∀ r ∈ L.reservations, r.identity ≠ ⟨e.classId, feat.activeFeat, key⟩)
    {rows : List Transaction}
    (hok : createPendingTransaction sha256 feat L (some key) none e = .ok (rows, L')) :
    ∃ t r, rows = [t] ∧ RowPosted sha256 feat key e.quantized L t r L' := by
  simp only [createPendingTransaction, require_bind_eq_ok, Option.getD_some, hkey, ne_eq,
    not_false_eq_true, if_true] at hok
  obtain ⟨-, hok⟩ := hok
  simp only [bind_eq_ok, pure_eq_ok, Prod.exists, Prod.mk.injEq] at hok
  obtain ⟨rows', created, L₁, hc, rfl, rfl⟩ := hok
  obtain ⟨t, r, rfl, hposted⟩ := RowPosted.idempotent (e := e.quantized) hs h0 hfresh hc
  exact ⟨t, r, rfl, hposted⟩

end TokenHub.Ledger
