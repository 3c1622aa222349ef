import TokenHub.Ledger.BalanceRuns
import TokenHub.Ledger.CommandRuns

set_option autoImplicit false

namespace TokenHub.Ledger

open Lib.Decimals Lib.Checks Lib.SequencedLog Lib.Runs

variable {sha256 : String → String} {feat : FeatContext} {L L' L'' : LedgerState}
  {r : LedgerCommandReservation}

section Extension

/-- Reservations and rows are only added, rows under new reservations or none. -/
structure Extends (L L' : LedgerState) : Prop where
  reservations : L.reservations <+: L'.reservations
  transactions : ∃ ts, L'.transactions = L.transactions ++ ts ∧
    ∀ t ∈ ts, ∀ i ∈ t.commandReservationId, L.reservations.length < i
  seatClass : L'.seatClass = L.seatClass

theorem Extends.refl (L : LedgerState) : Extends L L where
  reservations := List.prefix_refl _
  transactions := ⟨[], (List.append_nil _).symm, fun _ h ↦ absurd h List.not_mem_nil⟩
  seatClass := rfl

theorem Extends.trans (h : Extends L L') (h' : Extends L' L'') : Extends L L'' where
  reservations := h.reservations.trans h'.reservations
  transactions := by
    obtain ⟨ts, htx, hnew⟩ := h.transactions
    obtain ⟨ts', htx', hnew'⟩ := h'.transactions
    refine ⟨ts ++ ts', by rw [htx', htx, List.append_assoc], ?_⟩
    intro t ht i hi
    rcases List.mem_append.1 ht with ht | ht
    · exact hnew t ht i hi
    · exact lt_of_le_of_lt h.reservations.length_le (hnew' t ht i hi)
  seatClass := h'.seatClass.trans h.seatClass

theorem Extends.of_rows (hr : L'.reservations = L.reservations) (hs : L'.seatClass = L.seatClass)
    {ts : List Transaction} (ht : L'.transactions = L.transactions ++ ts)
    (hnone : ∀ t ∈ ts, t.commandReservationId = none) : Extends L L' where
  reservations := hr ▸ List.prefix_refl _
  transactions := by
    refine ⟨ts, ht, fun t hmem i hi ↦ ?_⟩
    rw [hnone t hmem] at hi
    cases hi
  seatClass := hs

theorem Extends.of_reserved {id : CommandIdentity} {f : String} {effects : List Effect}
    {rows : List Transaction}
    (hi : Insertions { L with reservations := L.reservations ++ [newReservation L id f] } rows L')
    (hrows : List.Forall₂ (RowOf feat (some (newReservation L id f))) effects rows) :
    Extends L L' where
  reservations := by
    rw [hi.state]
    exact List.prefix_append _ _
  transactions := by
    refine ⟨rows, by rw [hi.state], fun t ht i hti ↦ ?_⟩
    obtain ⟨e, -, hrow⟩ := forall₂_exists_left hrows ht
    rw [hrow.commandReservationId] at hti
    simp only [Option.map_some, newReservation, Option.mem_some] at hti
    omega
  seatClass := by rw [hi.state]

theorem Extends.mem (h : Extends L L') (hr : r ∈ L.reservations) : r ∈ L'.reservations :=
  h.reservations.subset hr

theorem Extends.kept (h : Extends L L') (hr : r.id ≤ L.reservations.length) :
    reservedRows L' r.id = reservedRows L r.id := by
  obtain ⟨ts, htx, hnew⟩ := h.transactions
  refine reservedRows_append (fun t ht hid ↦ ?_) htx
  have hlt := hnew t ht _ (Option.mem_def.2 hid)
  omega

theorem CommandInvariant.reservedRows_new (hc : CommandInvariant L) {id : CommandIdentity}
    {f : String} {effects : List Effect} {rows : List Transaction}
    (hi : Insertions { L with reservations := L.reservations ++ [newReservation L id f] } rows L')
    (hrows : List.Forall₂ (RowOf feat (some (newReservation L id f))) effects rows) :
    reservedRows L' (newReservation L id f).id = rows := by
  have hold : L.transactions.filter
      (·.commandReservationId = some (newReservation L id f).id) = [] := by
    rw [List.filter_eq_nil_iff]
    intro t ht hid
    have hle := hc.owned t ht _ (Option.mem_def.2 (decide_eq_true_iff.1 hid))
    simp only [newReservation] at hle
    omega
  have hnew : rows.filter
      (·.commandReservationId = some (newReservation L id f).id) = rows := by
    refine List.filter_eq_self.2 fun t ht ↦ decide_eq_true ?_
    obtain ⟨e, -, hrow⟩ := forall₂_exists_left hrows ht
    exact hrow.commandReservationId
  rw [reservedRows, hi.state, List.filter_append, hold, hnew, List.nil_append]

end Extension

section Actions

/-- The ways that rows and snapshots come about besides the command under study: reserved
commands, effects without a reservation, settlements. -/
inductive OtherAction
  | command (c : CommandCall)
  | pending (feat : FeatContext) (e : Effect)
  | settle (seatId : ℕ) (classId : String)

def OtherAction.perform (sha256 : String → String) (L : LedgerState) : OtherAction → LedgerState
  | .command c => c.after sha256 L
  | .pending feat e => Ledger.perform sha256 L (.create feat none none e)
  | .settle seatId classId => Ledger.perform sha256 L (.settle seatId classId)

structure Consistent (L : LedgerState) : Prop where
  commands : CommandInvariant L
  balance : BalanceInvariant L

theorem Consistent.empty (seatClass : ℕ → Option String) : Consistent (.empty seatClass) :=
  ⟨.empty seatClass, .empty seatClass⟩

theorem Consistent.of_rows (h : Consistent L) (hb : BalanceInvariant L')
    (hr : L'.reservations = L.reservations) {ts : List Transaction}
    (htx : L'.transactions = L.transactions ++ ts)
    (hnone : ∀ t ∈ ts, t.commandReservationId = none) : Consistent L' := by
  refine ⟨⟨?_, ?_, ?_, ?_⟩, hb⟩
  · rw [hr]
    exact h.commands.numbered
  · rw [hr]
    exact h.commands.bounded
  · rw [hr]
    exact h.commands.distinct
  · rw [htx, hr]
    intro t ht i hi
    rcases List.mem_append.1 ht with ht | ht
    · exact h.commands.owned t ht i hi
    · rw [hnone t ht] at hi
      cases hi

theorem Consistent.of_reserved (h : Consistent L) {id : CommandIdentity}
    (hfresh : ∀ r ∈ L.reservations, r.identity ≠ id) {f : String} {effects : List Effect}
    {rows : List Transaction}
    (hi : Insertions { L with reservations := L.reservations ++ [newReservation L id f] } rows L')
    (hrows : List.Forall₂ (RowOf feat (some (newReservation L id f))) effects rows) :
    Consistent L' := by
  have hb : BalanceInvariant { L with reservations := L.reservations ++ [newReservation L id f] } :=
    h.balance.of_eq rfl rfl
  exact ⟨h.commands.reserve hfresh hi hrows, hb.insertions hi⟩

/-- What another action leaves: a consistent extension, whose new reservations are those of its
own command. -/
structure OtherStep (sha256 : String → String) (L : LedgerState) (a : OtherAction)
    (L' : LedgerState) : Prop extends Extends L L' where
  consistent : Consistent L'
  added : ∃ rs, L'.reservations = L.reservations ++ rs ∧ ∀ r ∈ rs, ∃ c, a = .command c ∧
    r.identity = c.identity ∧ r.fingerprintVersion = fingerprintVersion ∧
      replayFingerprint sha256 c.effects fingerprintVersion c.canonicalIntent =
        .ok r.replayFingerprint

theorem OtherStep.of_rows {a : OtherAction} (h : Consistent L) (hb : BalanceInvariant L')
    (hr : L'.reservations = L.reservations) (hs : L'.seatClass = L.seatClass)
    {ts : List Transaction} (htx : L'.transactions = L.transactions ++ ts)
    (hnone : ∀ t ∈ ts, t.commandReservationId = none) : OtherStep sha256 L a L' where
  toExtends := .of_rows hr hs htx hnone
  consistent := h.of_rows hb hr htx hnone
  added := ⟨[], by rw [hr, List.append_nil], fun _ h ↦ absurd h List.not_mem_nil⟩

theorem OtherStep.refl (h : Consistent L) (a : OtherAction) : OtherStep sha256 L a L :=
  .of_rows h h.balance rfl rfl (List.append_nil _).symm fun _ ht ↦ absurd ht List.not_mem_nil

theorem Consistent.other (h : Consistent L) (a : OtherAction) :
    OtherStep sha256 L a (a.perform sha256 L) := by
  cases a with
  | command c =>
    rw [OtherAction.perform, CommandCall.after]
    cases hexec : c.exec sha256 L with
    | error e => exact .refl h _
    | ok out =>
      obtain ⟨⟨rows, created⟩, L'⟩ := out
      dsimp only
      rcases CommandCall.exec_cases hexec with ⟨-, rfl, -⟩ | ⟨-, hfresh, f, hf, hi, hrows⟩
      · exact .refl h _
      · refine ⟨.of_reserved hi hrows, h.of_reserved hfresh hi hrows, _, by rw [hi.state], ?_⟩
        intro r hr
        rw [List.mem_singleton.1 hr]
        exact ⟨c, rfl, rfl, rfl, hf⟩
  | pending feat e =>
    have hb : BalanceInvariant (perform sha256 L (.create feat none none e)) := h.balance.perform _
    rw [OtherAction.perform]
    rw [perform] at hb ⊢
    cases hok : createPendingTransaction sha256 feat L none none e with
    | error _ => exact .refl h _
    | ok out =>
      obtain ⟨rows, L'⟩ := out
      rw [hok] at hb
      dsimp only at hb ⊢
      simp only [createPendingTransaction, require_bind_eq_ok] at hok
      obtain ⟨-, hok⟩ := hok
      rw [if_neg (by simp)] at hok
      simp only [bind_eq_ok, Prod.exists, pure_eq_ok, Prod.mk.injEq] at hok
      obtain ⟨t, L₁, hcreate, -, rfl⟩ := hok
      obtain ⟨hi, hrow, -⟩ := createPendingEffect_ok hcreate
      have hid : t.commandReservationId = none := hrow.commandReservationId
      have htx : L₁.transactions = L.transactions ++ [t] := by rw [hi.state]
      exact .of_rows h hb (by rw [hi.state]) (by rw [hi.state]) htx
        (fun u hu ↦ by rw [List.mem_singleton.1 hu, hid])
  | settle seatId classId =>
    have hb : BalanceInvariant (perform sha256 L (.settle seatId classId)) := h.balance.perform _
    rw [OtherAction.perform]
    rw [perform] at hb ⊢
    cases hok : settleBalances L seatId classId with
    | error _ => exact .refl h _
    | ok L' =>
      rw [hok] at hb
      dsimp only at hb ⊢
      have hstate := settleBalances_frame hok
      have htx : L'.transactions = L.transactions ++ [] := by rw [hstate, List.append_nil]
      exact .of_rows h hb (by rw [hstate]) (by rw [hstate]) htx
        fun _ ht ↦ absurd ht List.not_mem_nil

end Actions

end TokenHub.Ledger
