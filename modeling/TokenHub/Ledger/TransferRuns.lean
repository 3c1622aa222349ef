import TokenHub.Ledger.OtherActions
import TokenHub.Ledger.Transfer

set_option autoImplicit false

namespace TokenHub.Ledger

open Lib.Decimals Lib.Checks Lib.SequencedLog Lib.Runs

variable {sha256 : String → String} {feat : FeatContext} {key : String} {L L' : LedgerState}
  {q : TransferRequest}

section Posting

/-- What a first accepted transfer leaves: its two legs, under a reservation of their own. -/
structure TransferPosted (sha256 : String → String) (feat : FeatContext) (L : LedgerState)
    (id : CommandIdentity) (q : TransferRequest) (withdrawal deposit : Transaction)
    (L' : LedgerState) : Prop where
  insertions : Insertions { L with
    reservations := L.reservations ++
      [newReservation L id (q.fingerprint sha256 fingerprintVersion)] } [withdrawal, deposit] L'
  withdrawalOf : RowOf feat (some (newReservation L id (q.fingerprint sha256 fingerprintVersion)))
    q.withdrawal withdrawal
  depositOf : RowOf feat (some (newReservation L id (q.fingerprint sha256 fingerprintVersion)))
    q.deposit deposit

variable {id : CommandIdentity} {withdrawal deposit : Transaction}

theorem postTransferPair_ok
    (h : postTransferPair sha256 feat L id q = .ok ((withdrawal, deposit), L')) :
    TransferPosted sha256 feat L id q withdrawal deposit L' := by
  simp only [postTransferPair, bind_eq_ok, Prod.exists, pure_eq_ok, Prod.mk.injEq] at h
  obtain ⟨w, L₁, hw, d, L₂, hd, ⟨rfl, rfl⟩, rfl⟩ := h
  obtain ⟨hiw, hrow, -⟩ := createPendingEffect_ok hw
  obtain ⟨hid, hrow', -⟩ := createPendingEffect_ok hd
  exact ⟨.cons hiw (.cons hid (.nil _)), hrow, hrow'⟩

theorem TransferRequest.abs_cents_lt (q : TransferRequest) : |q.cents| < 10 ^ 28 :=
  abs_quantizeCurrency_lt _

namespace TransferPosted

variable (h : TransferPosted sha256 feat L id q withdrawal deposit L')
include h

theorem withdrawal_cents : withdrawal.amountCents = -q.cents := by
  rw [h.withdrawalOf.amount]
  exact quantizeCurrency_ofCents (by rw [abs_neg]; exact q.abs_cents_lt)

theorem deposit_cents : deposit.amountCents = q.cents := by
  rw [h.depositOf.amount]
  exact quantizeCurrency_ofCents q.abs_cents_lt

theorem transactions : L'.transactions = L.transactions ++ [withdrawal, deposit] := by
  rw [h.insertions.state]

theorem reservations : L'.reservations = L.reservations ++
    [newReservation L id (q.fingerprint sha256 fingerprintVersion)] := by
  rw [h.insertions.state]

theorem snapshots : L'.snapshots = L.snapshots := by
  rw [h.insertions.state]

theorem of_seat : ∀ t ∈ [withdrawal, deposit], t.classId = q.classId ∧ t.seatId = q.seatId := by
  intro t ht
  rcases List.mem_pair.1 ht with rfl | rfl
  · exact ⟨h.withdrawalOf.classId, h.withdrawalOf.seatId⟩
  · exact ⟨h.depositOf.classId, h.depositOf.seatId⟩

theorem rowsOf : List.Forall₂
    (RowOf feat (some (newReservation L id (q.fingerprint sha256 fingerprintVersion))))
    [q.withdrawal, q.deposit] [withdrawal, deposit] :=
  .cons h.withdrawalOf (.cons h.depositOf .nil)

theorem ledgerExtends : Extends L L' := .of_reserved h.insertions h.rowsOf

theorem scopeCents_eq {source target : AccountType} (hsource : q.fromAccount = source.value)
    (htarget : q.toAccount = target.value) (scope : Scope) :
    scopeCents L' scope = scopeCents L scope +
      ((if scope = ⟨q.classId, q.seatId, source⟩ then -q.cents else 0) +
        if scope = ⟨q.classId, q.seatId, target⟩ then q.cents else 0) := by
  have hw : withdrawal.scope = ⟨q.classId, q.seatId, source⟩ :=
    h.withdrawalOf.scope_eq source hsource
  have hd : deposit.scope = ⟨q.classId, q.seatId, target⟩ := h.depositOf.scope_eq target htarget
  rw [scopeCents_append h.transactions, sumOver_cons, sumOver_cons, sumOver_nil, add_zero,
    h.withdrawal_cents, h.deposit_cents, hw, hd]
  simp only [eq_comm (b := scope)]

end TransferPosted

theorem TransferRequest.Wellformed.accounts (h : q.Wellformed) :
    ∃ source target : AccountType, q.fromAccount = source.value ∧ q.toAccount = target.value ∧
      source ≠ target := by
  rcases h.fromAccount with hf | hf <;> rcases h.toAccount with ht | ht
  · exact absurd (hf.trans ht.symm) h.distinct
  · exact ⟨.checking, .savings, hf, ht, by decide⟩
  · exact ⟨.savings, .checking, hf, ht, by decide⟩
  · exact absurd (hf.trans ht.symm) h.distinct

theorem TransferRequest.available_eq {source : AccountType} (hsource : q.fromAccount = source.value) :
    q.available L = getAvailableBalance L ⟨q.classId, q.seatId, source⟩ := by
  rw [TransferRequest.available, hsource, AccountType.ofString_value]
  rfl

theorem TransferRequest.Covered.cents_le (h : q.Covered L) (hpos : 0 < q.cents) :
    q.cents ≤ q.available L := by
  rw [TransferRequest.Covered] at h
  rw [TransferRequest.cents] at hpos ⊢
  cases hamount : q.amount with
  | finite s c e =>
    rw [hamount] at h hpos
    cases hround : Decimal.quantizeFinite s c e with
    | none =>
      simp only [quantizeCurrency, hround, Option.getD_none] at hpos
      exact absurd hpos (by decide)
    | some n =>
      simp only [quantizeCurrency, hround, Option.getD_some] at hpos ⊢
      exact Decimal.value_le_of_not_above h hround hpos
  | infinity s =>
    rw [hamount] at hpos
    exact absurd hpos (by simp [quantizeCurrency, Hundredths.value])
  | nan =>
    rw [hamount] at hpos
    exact absurd hpos (by simp [quantizeCurrency, Hundredths.value])

end Posting

section System

structure AcceptedTransfer where
  identity : CommandIdentity
  request : TransferRequest
  result : TransferResult

structure TransferState where
  ledger : LedgerState
  accepted : List AcceptedTransfer

def TransferState.initial (seatClass : ℕ → Option String) : TransferState :=
  ⟨.empty seatClass, []⟩

inductive TransferAction
  | transfer (feat : FeatContext) (idempotencyKey : String) (request : TransferRequest)
  | other (a : OtherAction)

/-- The payloads that the reservation of an action digests. -/
def TransferAction.payloads : TransferAction → Set String
  | .transfer _ _ q => {q.payload}
  | .other (.command c) => c.payloads
  | .other _ => ∅

/-- One action under the seat lock; a raised exception rolls its transaction back. -/
def transferStep (sha256 : String → String) (S : TransferState) : TransferAction → TransferState
  | .transfer feat key q =>
    match executeAccountTransfer sha256 feat key S.ledger q with
    | .error _ => S
    | .ok (result, L') =>
      let id : CommandIdentity := ⟨q.classId, feat.activeFeat, key⟩
      if ∃ r ∈ S.ledger.reservations, r.identity = id then { S with ledger := L' }
      else ⟨L', S.accepted ++ [⟨id, q, result⟩]⟩
  | .other a => { S with ledger := a.perform sha256 S.ledger }

def ownedRows (L : LedgerState) (id : CommandIdentity) : List Transaction :=
  L.transactions.filter (fun t ↦
    ∃ r ∈ L.reservations, r.identity = id ∧ t.commandReservationId = some r.id)

/-- Each identity has one reservation, and an accepted transfer's owns its two legs and no more. -/
structure PairsUnique (S : TransferState) : Prop where
  reservations : S.ledger.reservations.Pairwise (fun r r' ↦ r.identity ≠ r'.identity)
  accepted : S.accepted.Pairwise (fun a b ↦ a.identity ≠ b.identity)
  rows : ∀ a ∈ S.accepted, (ownedRows S.ledger a.identity).map (·.id) =
    [a.result.withdrawalTransactionId, a.result.depositTransactionId]

structure TransferRequest.SameInputs (q q' : TransferRequest) : Prop where
  seatId : q.seatId = q'.seatId
  classId : q.classId = q'.classId
  fromAccount : q.fromAccount = q'.fromAccount
  toAccount : q.toAccount = q'.toAccount
  amount : q.amount.Same q'.amount

def TransferResult.SamePair (result result' : TransferResult) : Prop :=
  result.withdrawalTransactionId = result'.withdrawalTransactionId ∧
    result.depositTransactionId = result'.depositTransactionId

structure AcceptanceLaw (S : TransferState) (id : CommandIdentity) (q : TransferRequest)
    (result : TransferResult) (L' : LedgerState) : Prop where
  conserves : getAvailableBalance L' ⟨q.classId, q.seatId, .checking⟩ +
      getAvailableBalance L' ⟨q.classId, q.seatId, .savings⟩ =
    getAvailableBalance S.ledger ⟨q.classId, q.seatId, .checking⟩ +
      getAvailableBalance S.ledger ⟨q.classId, q.seatId, .savings⟩
  elsewhere : ∀ scope : Scope, ¬ (scope.classId = q.classId ∧ scope.seatId = q.seatId) →
    getAvailableBalance L' scope = getAvailableBalance S.ledger scope ∧
      L'.snapshots scope = S.ledger.snapshots scope
  rows : ∃ ts, L'.transactions = S.ledger.transactions ++ ts ∧
    ∀ t ∈ ts, t.classId = q.classId ∧ t.seatId = q.seatId
  first : (∀ a ∈ S.accepted, a.identity ≠ id) →
    0 ≤ q.available L' ∧ q.available L' = q.available S.ledger - q.cents
  later : ∀ a ∈ S.accepted, a.identity = id → L' = S.ledger ∧ result.SamePair a.result

structure TransferLaw (sha256 : String → String) (S : TransferState) (feat : FeatContext)
    (key : String) (q : TransferRequest) : Prop where
  accepted : ∀ result L', executeAccountTransfer sha256 feat key S.ledger q = .ok (result, L') →
    AcceptanceLaw S ⟨q.classId, feat.activeFeat, key⟩ q result L'
  repeated : ∀ a ∈ S.accepted, a.identity = ⟨q.classId, feat.activeFeat, key⟩ →
    a.request.SameInputs q → ∃ result,
      executeAccountTransfer sha256 feat key S.ledger q = .ok (result, S.ledger) ∧
        result.SamePair a.result
  mismatched : ∀ a ∈ S.accepted, a.identity = ⟨q.classId, feat.activeFeat, key⟩ →
    ¬ a.request.SameInputs q →
      ∀ out, executeAccountTransfer sha256 feat key S.ledger q ≠ .ok out
  refused : (∀ out, executeAccountTransfer sha256 feat key S.ledger q ≠ .ok out) →
    transferStep sha256 S (.transfer feat key q) = S

def TransferStepLaw (sha256 : String → String) (S : TransferState) (a : TransferAction) : Prop :=
  PairsUnique (transferStep sha256 S a) ∧
    ∀ feat key q, a = .transfer feat key q → TransferLaw sha256 S feat key q

/-- A repeat of the same cents is told from other amounts: it finds its own amount covered just
when it carries the amount that was accepted. -/
def RepeatsCovered (S : TransferState) (a : TransferAction) : Prop :=
  ∀ feat key q, a = .transfer feat key q →
    ∀ t ∈ S.accepted, t.identity = ⟨q.classId, feat.activeFeat, key⟩ → t.request.SameCents q →
      (q.Covered S.ledger ↔ t.request.amount.Same q.amount)

end System

section Invariant

variable {P : Set String} {S : TransferState} {r : LedgerCommandReservation}
  {a : AcceptedTransfer}

/-- The reservation of an accepted transfer, as long as nothing rewrites it. -/
structure Reserved (sha256 : String → String) (L : LedgerState) (a : AcceptedTransfer)
    (r : LedgerCommandReservation) : Prop extends a.request.Wellformed where
  mem : r ∈ L.reservations
  identity : r.identity = a.identity
  version : r.fingerprintVersion = fingerprintVersion
  fingerprint : r.replayFingerprint = a.request.fingerprint sha256 fingerprintVersion
  rows : ∃ withdrawal deposit, reservedRows L r.id = [withdrawal, deposit] ∧
    a.result.withdrawalTransactionId = withdrawal.id ∧ a.result.depositTransactionId = deposit.id
  classId : a.identity.classId = a.request.classId
  seat : L.seatClass a.request.seatId = some a.request.classId
  scope : a.request.classId ≠ "" ∧ a.request.seatId ≠ 0
  command : a.identity.idempotencyKey ≠ "" ∧ a.identity.featCode ≠ ""

/-- `P` holds the payloads of the actions taken. -/
structure TransferInvariant (sha256 : String → String) (P : Set String) (S : TransferState) : Prop
    extends Consistent S.ledger where
  distinct : S.accepted.Pairwise (fun a b ↦ a.identity ≠ b.identity)
  reserved : ∀ a ∈ S.accepted, ∃ r, Reserved sha256 S.ledger a r
  payloads : ∀ a ∈ S.accepted, a.request.payload ∈ P
  others : ∀ r ∈ S.ledger.reservations, (∃ a ∈ S.accepted, a.identity = r.identity) ∨
    (r.fingerprintVersion = fingerprintVersion ∧ ∀ q : TransferRequest, q.payload ∈ P →
      r.replayFingerprint ≠ q.fingerprint sha256 fingerprintVersion)

theorem Reserved.mono (h : Reserved sha256 L a r) (hc : CommandInvariant L)
    (he : Extends L L') : Reserved sha256 L' a r :=
  { h with
    mem := he.mem h.mem
    rows := by
      rw [he.kept (hc.bounded r h.mem)]
      exact h.rows
    seat := by
      rw [he.seatClass]
      exact h.seat }

theorem TransferInvariant.initial (seatClass : ℕ → Option String) :
    TransferInvariant sha256 P (.initial seatClass) where
  toConsistent := .empty seatClass
  distinct := .nil
  reserved := fun _ h ↦ absurd h List.not_mem_nil
  payloads := fun _ h ↦ absurd h List.not_mem_nil
  others := fun _ h ↦ absurd h List.not_mem_nil

section Resolution

theorem replayTransferPair_ok {withdrawal deposit : Transaction} :
    replayTransferPair sha256 L r q = .ok (withdrawal, deposit) ↔
      fingerprintMatchesReservation sha256 r q ∧
        reservedRows L r.id = [withdrawal, deposit] := by
  rw [replayTransferPair, require_bind_eq_ok]
  refine and_congr_right fun _ ↦ ?_
  split
  · next w d hrows =>
    rw [pure_eq_ok, hrows]
    simp
  · next hne =>
    exact ⟨fun h ↦ (by cases h), fun h ↦ absurd h (hne _ _)⟩

theorem fingerprintMatches_iff (hv : r.fingerprintVersion = fingerprintVersion) :
    fingerprintMatchesReservation sha256 r q ↔
      r.replayFingerprint = q.fingerprint sha256 fingerprintVersion := by
  rw [fingerprintMatchesReservation, hv]
  exact and_iff_right (by decide)

theorem Reserved.resolve (h : Reserved sha256 L a r) (hsha : Set.InjOn sha256 P)
    (hP : a.request.payload ∈ P) (hq : q.payload ∈ P) (hc : CommandInvariant L)
    (hid : a.identity = ⟨q.classId, feat.activeFeat, key⟩) (hw : q.Wellformed)
    {withdrawal deposit : Transaction} :
    resolveTransferPair sha256 feat key L q = .ok ((withdrawal, deposit), L') ↔
      a.request.SameCents q ∧ reservedRows L r.id = [withdrawal, deposit] ∧ L' = L := by
  rw [resolveTransferPair, hc.find_owner h.mem (h.identity.trans hid)]
  dsimp only
  rw [map_eq_ok]
  simp only [Prod.exists, replayTransferPair_ok, fingerprintMatches_iff h.version, h.fingerprint,
    transferFingerprint_inj hsha hP hq h.toWellformed hw, Prod.mk.injEq]
  constructor
  · rintro ⟨w, d, ⟨hsame, hrows⟩, ⟨rfl, rfl⟩, rfl⟩
    exact ⟨hsame, hrows, rfl⟩
  · rintro ⟨hsame, hrows, rfl⟩
    exact ⟨_, _, ⟨hsame, hrows⟩, ⟨rfl, rfl⟩, rfl⟩

variable (h : TransferInvariant sha256 P S) (hsha : Set.InjOn sha256 P) (hq : q.payload ∈ P)
include h hsha hq

/-- An accepted call repeats an accepted transfer of the same cents, or is the first of its
identity. -/
theorem TransferInvariant.transfer_cases {result : TransferResult}
    (hok : executeAccountTransfer sha256 feat key S.ledger q = .ok (result, L')) :
    q.Admitted feat key S.ledger ∧
      ((∃ a ∈ S.accepted, a.identity = ⟨q.classId, feat.activeFeat, key⟩ ∧
          a.request.SameCents q ∧ L' = S.ledger ∧ result.SamePair a.result) ∨
        ((∀ r ∈ S.ledger.reservations, r.identity ≠ ⟨q.classId, feat.activeFeat, key⟩) ∧
          ∃ withdrawal deposit, result = q.resultOf withdrawal deposit ∧
            TransferPosted sha256 feat S.ledger ⟨q.classId, feat.activeFeat, key⟩ q withdrawal
              deposit L')) := by
  obtain ⟨hadmitted, withdrawal, deposit, hresolve, rfl⟩ := executeAccountTransfer_ok.1 hok
  refine ⟨hadmitted, ?_⟩
  by_cases hnew : ∀ r ∈ S.ledger.reservations, r.identity ≠ ⟨q.classId, feat.activeFeat, key⟩
  · refine .inr ⟨hnew, withdrawal, deposit, rfl, postTransferPair_ok ?_⟩
    rw [resolveTransferPair, List.find?_eq_none.2 (by simpa using hnew)] at hresolve
    exact hresolve
  · push Not at hnew
    obtain ⟨r, hr, hid⟩ := hnew
    rcases h.others r hr with ⟨a, ha, haid⟩ | ⟨hversion, hother⟩
    · obtain ⟨r', hr'⟩ := h.reserved a ha
      obtain ⟨hsame, hrows, hL⟩ :=
        (hr'.resolve hsha (h.payloads a ha) hq h.commands (haid.trans hid)
          hadmitted.toWellformed).1 hresolve
      obtain ⟨w, d, hrows', hw, hd⟩ := hr'.rows
      rw [hrows, List.cons.injEq, List.cons.injEq] at hrows'
      obtain ⟨rfl, rfl, -⟩ := hrows'
      exact .inl ⟨a, ha, haid.trans hid, hsame, hL, hw.symm, hd.symm⟩
    · rw [resolveTransferPair, h.commands.find_owner hr hid] at hresolve
      dsimp only at hresolve
      rw [map_eq_ok] at hresolve
      obtain ⟨⟨w, d⟩, hreplay, -⟩ := hresolve
      have hmatch := (fingerprintMatches_iff hversion).1 (replayTransferPair_ok.1 hreplay).1
      exact absurd hmatch (hother q hq)

/-- A repeat of the same cents that finds its amount covered returns the pair. -/
theorem TransferInvariant.repeat_ok (ha : a ∈ S.accepted)
    (hid : a.identity = ⟨q.classId, feat.activeFeat, key⟩) (hsame : a.request.SameCents q)
    (hcovered : q.Covered S.ledger) : ∃ result,
      executeAccountTransfer sha256 feat key S.ledger q = .ok (result, S.ledger) ∧
        result.SamePair a.result := by
  obtain ⟨r, hr⟩ := h.reserved a ha
  obtain ⟨w, d, hrows, hwid, hdid⟩ := hr.rows
  have hclass : a.request.classId = q.classId := by
    rw [← hr.classId, hid]
  have hw : q.Wellformed := by
    refine ⟨?_, ?_, ?_, ?_⟩
    · rw [← hsame.fromAccount]
      exact hr.fromAccount
    · rw [← hsame.toAccount]
      exact hr.toAccount
    · rw [← hsame.fromAccount, ← hsame.toAccount]
      exact hr.distinct
    · rw [← hsame.cents]
      exact hr.positive
  have hadmitted : q.Admitted feat key S.ledger := by
    refine ⟨hw, ?_, ?_, ?_, hcovered⟩
    · rw [← hsame.seatId, ← hclass]
      exact hr.seat
    · rw [← hsame.seatId, ← hclass]
      exact hr.scope
    · have hcommand := hr.command
      rw [hid] at hcommand
      exact hcommand
  refine ⟨q.resultOf w d, executeAccountTransfer_ok.2 ⟨hadmitted, w, d, ?_, rfl⟩, hwid.symm,
    hdid.symm⟩
  exact (hr.resolve hsha (h.payloads a ha) hq h.commands hid hw).2 ⟨hsame, hrows, rfl⟩

end Resolution

section Steps

theorem TransferInvariant.other (h : TransferInvariant sha256 P S) (hsha : Set.InjOn sha256 P)
    {a : OtherAction} (hP : (TransferAction.other a).payloads ⊆ P) :
    TransferInvariant sha256 P (transferStep sha256 S (.other a)) := by
  have hstep : OtherStep sha256 S.ledger a (a.perform sha256 S.ledger) := h.toConsistent.other a
  refine ⟨hstep.consistent, h.distinct, ?_, h.payloads, ?_⟩
  · intro t ht
    obtain ⟨r, hr⟩ := h.reserved t ht
    exact ⟨r, hr.mono h.commands hstep.toExtends⟩
  · obtain ⟨rs, hrs, hadded⟩ := hstep.added
    intro r hr
    rw [transferStep, hrs] at hr
    rcases List.mem_append.1 hr with hr | hr
    · exact h.others r hr
    · obtain ⟨c, rfl, -, hversion, hf⟩ := hadded r hr
      exact .inr ⟨hversion, fun q hq ↦ transferFingerprint_ne hsha hq hP hf⟩

theorem TransferPosted.reserved {withdrawal deposit : Transaction}
    (hp : TransferPosted sha256 feat L ⟨q.classId, feat.activeFeat, key⟩ q withdrawal deposit L')
    (hc : CommandInvariant L) (hadmitted : q.Admitted feat key L) :
    Reserved sha256 L' ⟨⟨q.classId, feat.activeFeat, key⟩, q, q.resultOf withdrawal deposit⟩
      (newReservation L ⟨q.classId, feat.activeFeat, key⟩
        (q.fingerprint sha256 fingerprintVersion)) where
  toWellformed := hadmitted.toWellformed
  mem := by
    rw [hp.reservations]
    exact List.mem_append_right _ List.mem_cons_self
  identity := rfl
  version := rfl
  fingerprint := rfl
  rows := by
    exact ⟨withdrawal, deposit, hc.reservedRows_new hp.insertions hp.rowsOf, rfl, rfl⟩
  classId := rfl
  seat := by
    rw [hp.ledgerExtends.seatClass]
    exact hadmitted.seat
  scope := hadmitted.scope
  command := hadmitted.command

theorem TransferInvariant.transfer (h : TransferInvariant sha256 P S)
    (hsha : Set.InjOn sha256 P) (hq : q.payload ∈ P) (feat : FeatContext) (key : String) :
    TransferInvariant sha256 P (transferStep sha256 S (.transfer feat key q)) := by
  rw [transferStep]
  cases hexec : executeAccountTransfer sha256 feat key S.ledger q with
  | error e => exact h
  | ok out =>
    obtain ⟨result, L'⟩ := out
    dsimp only
    obtain ⟨hadmitted, hrepeat | ⟨hnew, w, d, rfl, hp⟩⟩ := h.transfer_cases hsha hq hexec
    · obtain ⟨a, ha, hid, -, rfl, -⟩ := hrepeat
      obtain ⟨r, hr⟩ := h.reserved a ha
      rw [if_pos ⟨r, hr.mem, hr.identity.trans hid⟩]
      exact h
    · rw [if_neg (by rintro ⟨r, hr, hid⟩; exact hnew r hr hid)]
      have hfresh : ∀ a ∈ S.accepted, a.identity ≠ ⟨q.classId, feat.activeFeat, key⟩ := by
        intro a ha hid
        obtain ⟨r, hr⟩ := h.reserved a ha
        exact hnew r hr.mem (hr.identity.trans hid)
      refine ⟨h.toConsistent.of_reserved hnew hp.insertions hp.rowsOf, ?_, ?_, ?_, ?_⟩
      · refine List.pairwise_append.2 ⟨h.distinct, List.pairwise_singleton _ _, ?_⟩
        intro a ha b hb
        rw [List.mem_singleton.1 hb]
        exact hfresh a ha
      · intro a ha
        rcases List.mem_append.1 ha with ha | ha
        · obtain ⟨r, hr⟩ := h.reserved a ha
          exact ⟨r, hr.mono h.commands hp.ledgerExtends⟩
        · rw [List.mem_singleton.1 ha]
          exact ⟨_, hp.reserved h.commands hadmitted⟩
      · intro a ha
        rcases List.mem_append.1 ha with ha | ha
        · exact h.payloads a ha
        · rw [List.mem_singleton.1 ha]
          exact hq
      · intro r hr
        rw [hp.reservations] at hr
        rcases List.mem_append.1 hr with hr | hr
        · refine (h.others r hr).imp_left ?_
          rintro ⟨a, ha, hid⟩
          exact ⟨a, List.mem_append_left _ ha, hid⟩
        · rw [List.mem_singleton.1 hr]
          exact .inl ⟨_, List.mem_append_right _ List.mem_cons_self, rfl⟩

theorem TransferInvariant.step (h : TransferInvariant sha256 P S) (hsha : Set.InjOn sha256 P)
    {action : TransferAction} (hP : action.payloads ⊆ P) :
    TransferInvariant sha256 P (transferStep sha256 S action) := by
  cases action with
  | transfer feat key q => exact h.transfer hsha (hP rfl) feat key
  | other a => exact h.other hsha hP

end Steps

section Laws

theorem TransferRequest.SameInputs.sameCents {q q' : TransferRequest} (hs : q.SameInputs q') :
    q.SameCents q' := by
  refine ⟨hs.seatId, hs.fromAccount, hs.toAccount, ?_⟩
  have hsame := hs.amount
  rw [TransferRequest.cents, TransferRequest.cents]
  cases hq : q.amount with
  | finite s c e =>
    cases hq' : q'.amount with
    | finite s' c' e' =>
      rw [hq, hq'] at hsame
      have hround := hsame.quantizeFinite
      simp only [quantizeCurrency]
      cases h₁ : Decimal.quantizeFinite s c e <;> cases h₂ : Decimal.quantizeFinite s' c' e' <;>
        rw [h₁, h₂] at hround <;> simp_all
    | infinity s' =>
      rw [hq, hq'] at hsame
      exact hsame.elim
    | nan =>
      rw [hq, hq'] at hsame
      exact hsame.elim
  | infinity s =>
    cases hq' : q'.amount with
    | finite s' c' e' =>
      rw [hq, hq'] at hsame
      exact hsame.elim
    | infinity s' => rfl
    | nan => rfl
  | nan =>
    rw [hq] at hsame
    exact hsame.elim

theorem TransferInvariant.accepted_unique (h : TransferInvariant sha256 P S)
    {a b : AcceptedTransfer} (ha : a ∈ S.accepted) (hb : b ∈ S.accepted)
    (hid : a.identity = b.identity) : a = b := by
  by_contra hne
  have hsymm : Std.Symm (fun a b : AcceptedTransfer ↦ a.identity ≠ b.identity) :=
    ⟨fun _ _ hne heq ↦ hne heq.symm⟩
  exact h.distinct.forall ha hb hne hid

theorem ownedRows_eq (hc : CommandInvariant L) (hr : r ∈ L.reservations) :
    ownedRows L r.identity = reservedRows L r.id := by
  apply List.filter_congr
  intro t _
  rw [decide_eq_decide]
  constructor
  · rintro ⟨r', hr', hid, ht⟩
    rw [ht, hc.unique hr' hr hid]
  · intro ht
    exact ⟨r, hr, rfl, ht⟩

theorem TransferInvariant.pairsUnique (h : TransferInvariant sha256 P S) : PairsUnique S where
  reservations := h.commands.distinct
  accepted := h.distinct
  rows := by
    intro a ha
    obtain ⟨r, hr⟩ := h.reserved a ha
    obtain ⟨w, d, hrows, hw, hd⟩ := hr.rows
    rw [← hr.identity, ownedRows_eq h.commands hr.mem, hrows, hw, hd]
    rfl

variable (h : TransferInvariant sha256 P S) (hsha : Set.InjOn sha256 P) (hq : q.payload ∈ P)
include h hsha hq

theorem TransferInvariant.acceptanceLaw {result : TransferResult}
    (hok : executeAccountTransfer sha256 feat key S.ledger q = .ok (result, L')) :
    AcceptanceLaw S ⟨q.classId, feat.activeFeat, key⟩ q result L' := by
  obtain ⟨hadmitted, hrepeat | ⟨hnew, w, d, rfl, hp⟩⟩ := h.transfer_cases hsha hq hok
  · obtain ⟨a, ha, hid, -, rfl, hpair⟩ := hrepeat
    refine ⟨rfl, fun _ _ ↦ ⟨rfl, rfl⟩, ⟨[], (List.append_nil _).symm, ?_⟩, ?_, ?_⟩
    · exact fun t ht ↦ absurd ht List.not_mem_nil
    · exact fun hfresh ↦ absurd hid (hfresh a ha)
    · intro b hb hbid
      obtain rfl := h.accepted_unique ha hb (hid.trans hbid.symm)
      exact ⟨rfl, hpair⟩
  · obtain ⟨source, target, hsource, htarget, hne⟩ := hadmitted.accounts
    have hb' := (h.toConsistent.of_reserved hnew hp.insertions hp.rowsOf).balance
    have hscope := hp.scopeCents_eq hsource htarget
    have hafter : q.available L' = q.available S.ledger - q.cents := by
      rw [q.available_eq hsource, q.available_eq hsource, hb'.getAvailableBalance,
        h.balance.getAvailableBalance, hscope, if_pos rfl, if_neg (by simp [hne]), add_zero,
        sub_eq_add_neg]
    refine ⟨?_, ?_, ⟨_, hp.transactions, hp.of_seat⟩, ?_, ?_⟩
    · simp only [hb'.getAvailableBalance, h.balance.getAvailableBalance, hscope, Scope.mk.injEq,
        true_and]
      cases source <;> cases target <;> first | exact absurd rfl hne | (simp; try omega)
    · intro scope houtside
      have hzero : ∀ account : AccountType, scope ≠ ⟨q.classId, q.seatId, account⟩ := by
        rintro account rfl
        exact houtside ⟨rfl, rfl⟩
      rw [hb'.getAvailableBalance, h.balance.getAvailableBalance, hscope, if_neg (hzero _),
        if_neg (hzero _), hp.snapshots, add_zero, add_zero]
      exact ⟨rfl, rfl⟩
    · intro _
      have hle := hadmitted.covered.cents_le hadmitted.positive
      exact ⟨by omega, hafter⟩
    · intro a ha hid
      obtain ⟨r, hr⟩ := h.reserved a ha
      exact absurd (hr.identity.trans hid) (hnew r hr.mem)

theorem TransferInvariant.transferLaw_iff :
    TransferLaw sha256 S feat key q ↔ ∀ t ∈ S.accepted,
      t.identity = ⟨q.classId, feat.activeFeat, key⟩ → t.request.SameCents q →
        (q.Covered S.ledger ↔ t.request.amount.Same q.amount) := by
  have hclass : ∀ t ∈ S.accepted, t.identity = ⟨q.classId, feat.activeFeat, key⟩ →
      t.request.classId = q.classId := by
    intro t ht hid
    obtain ⟨r, hr⟩ := h.reserved t ht
    rw [← hr.classId, hid]
  constructor
  · intro hlaw t ht hid hsame
    constructor
    · intro hcovered
      by_contra hamount
      obtain ⟨result, hok, -⟩ := h.repeat_ok hsha hq ht hid hsame hcovered
      exact hlaw.mismatched t ht hid (fun hinputs ↦ hamount hinputs.amount) _ hok
    · intro hamount
      have hinputs : t.request.SameInputs q :=
        ⟨hsame.seatId, hclass t ht hid, hsame.fromAccount, hsame.toAccount, hamount⟩
      obtain ⟨result, hok, -⟩ := hlaw.repeated t ht hid hinputs
      exact (executeAccountTransfer_ok.1 hok).1.covered
  · intro hcovered
    refine ⟨fun result L' hok ↦ h.acceptanceLaw hsha hq hok, ?_, ?_, ?_⟩
    · intro t ht hid hinputs
      have hsame := hinputs.sameCents
      exact h.repeat_ok hsha hq ht hid hsame ((hcovered t ht hid hsame).2 hinputs.amount)
    · rintro t ht hid hinputs ⟨result, L'⟩ hok
      obtain ⟨hadmitted, hrepeat | ⟨hnew, -⟩⟩ := h.transfer_cases hsha hq hok
      · obtain ⟨a, ha, haid, hsame, -⟩ := hrepeat
        obtain rfl := h.accepted_unique ha ht (haid.trans hid.symm)
        have hamount := (hcovered a ha hid hsame).1 hadmitted.covered
        exact hinputs ⟨hsame.seatId, hclass a ha hid, hsame.fromAccount, hsame.toAccount, hamount⟩
      · obtain ⟨r, hr⟩ := h.reserved t ht
        exact hnew r hr.mem (hr.identity.trans hid)
    · intro hrefused
      rw [transferStep]
      cases hexec : executeAccountTransfer sha256 feat key S.ledger q with
      | error e => rfl
      | ok out => exact absurd hexec (hrefused out)

omit hq in
theorem TransferInvariant.stepLaw_iff {action : TransferAction} (hP : action.payloads ⊆ P) :
    TransferStepLaw sha256 S action ↔ RepeatsCovered S action := by
  have hunique := (h.step hsha hP).pairsUnique
  constructor
  · rintro hlaw feat key q rfl
    exact (h.transferLaw_iff hsha (hP rfl)).1 (hlaw.2 feat key q rfl)
  · intro hcovered
    refine ⟨hunique, ?_⟩
    rintro feat key q rfl
    exact (h.transferLaw_iff hsha (hP rfl)).2 (hcovered feat key q rfl)

end Laws

end Invariant

/-- Transfers between a seat's own accounts, over every run whose payloads the digest tells apart.
Each step meets the law just when each repeat of an accepted transfer's cents finds the amount it
carries covered exactly if it carries the accepted amount. -/
theorem own_account_transfers_apply_once (sha256 : String → String)
    (seatClass : ℕ → Option String) (actions : List TransferAction)
    (hsha : Set.InjOn sha256 {payload | ∃ action ∈ actions, payload ∈ action.payloads}) :
    AllAlong (TransferStepLaw sha256) (transferStep sha256) (.initial seatClass) actions ↔
      AllAlong RepeatsCovered (transferStep sha256) (.initial seatClass) actions := by
  have hI : TransferInvariant sha256 {payload | ∃ action ∈ actions, payload ∈ action.payloads}
      (.initial seatClass) := .initial seatClass
  have hP : ∀ action ∈ actions, action.payloads ⊆
      {payload | ∃ action ∈ actions, payload ∈ action.payloads} :=
    fun action haction _ hpayload ↦ ⟨action, haction, hpayload⟩
  constructor
  · intro hlaw
    exact (hlaw.and_forall hP).of_invariant hI (fun S a h ha ↦ h.step hsha ha.2)
      (fun S a h ha ↦ (h.stepLaw_iff hsha ha.2).1 ha.1)
  · intro hcovered
    exact (hcovered.and_forall hP).of_invariant hI (fun S a h ha ↦ h.step hsha ha.2)
      (fun S a h ha ↦ (h.stepLaw_iff hsha ha.2).2 ha.1)

def sampleTransfer : TransferRequest := ⟨1, "c", .ofCents 5000, "checking", "savings"⟩

def repeatedTransfer (credit : ℤ) : List TransferAction :=
  [.other (.pending sampleFeat (checkingEffect "manual_payment" (.ofCents credit))),
    .transfer sampleFeat "k" sampleTransfer, .transfer sampleFeat "k" sampleTransfer]

def beforeRepeat (credit : ℤ) : TransferState :=
  run (transferStep id) (.initial fun _ ↦ some "c") ((repeatedTransfer credit).take 2)

theorem own_account_transfers_apply_once_covered :
    AllAlong (TransferStepLaw id) (transferStep id) (.initial fun _ ↦ some "c")
      (repeatedTransfer 10000) := by
  apply (own_account_transfers_apply_once id (fun _ ↦ some "c") (repeatedTransfer 10000)
    Function.injective_id.injOn).2
  refine ⟨?_, ?_, ?_, trivial⟩
  · rintro feat key q ⟨⟩
  · intro feat key q _ t ht
    cases ht
  · rintro feat key q ⟨⟩ t ht _ _
    have haccepted : (beforeRepeat 10000).accepted =
        [⟨⟨"c", sampleFeat.activeFeat, "k"⟩, sampleTransfer,
          ⟨2, 3, .ofCents 5000, "checking", "savings"⟩⟩] := rfl
    obtain rfl := List.mem_singleton.1 (haccepted ▸ ht)
    have hcovered : sampleTransfer.Covered (beforeRepeat 10000).ledger := rfl
    exact ⟨fun _ ↦ by decide, fun _ ↦ hcovered⟩

/-- Where the transfer took the whole balance, its repeat is refused as uncovered. -/
theorem repeated_transfer_finds_no_cover :
    ¬ AllAlong (TransferStepLaw id) (transferStep id) (.initial fun _ ↦ some "c")
      (repeatedTransfer 5000) := by
  rintro ⟨-, -, ⟨-, hlaw⟩, -⟩
  have haccepted : (beforeRepeat 5000).accepted =
      [⟨⟨"c", sampleFeat.activeFeat, "k"⟩, sampleTransfer,
        ⟨2, 3, .ofCents 5000, "checking", "savings"⟩⟩] := rfl
  have hmem := haccepted ▸ List.mem_cons_self
  obtain ⟨result, hok, -⟩ := (hlaw _ _ _ rfl).repeated _ hmem rfl ⟨rfl, rfl, rfl, rfl, by decide⟩
  have herror : executeAccountTransfer id sampleFeat "k" (beforeRepeat 5000).ledger
      sampleTransfer = .error (.domainError "InsufficientFunds" "Insufficient checking funds.") :=
    rfl
  exact absurd (herror.symm.trans hok) (by simp)

end TokenHub.Ledger
