import TokenHub.Lib.Comparison
import TokenHub.Ledger.Readers
import TokenHub.Ledger.Funding

set_option autoImplicit false

namespace TokenHub.Ledger

open Lib.Decimals Lib.Checks Lib.Json Lib.SequencedLog

structure TransferRequest where
  seatId : ℕ
  classId : String
  amount : Decimal
  fromAccount : String
  toAccount : String
deriving DecidableEq, Repr

structure TransferResult where
  withdrawalTransactionId : ℕ
  depositTransactionId : ℕ
  amount : Decimal
  fromAccount : String
  toAccount : String
deriving DecidableEq, Repr

namespace TransferRequest

def cents (q : TransferRequest) : ℤ := (quantizeCurrency (some q.amount)).value

/-- The effect whose `_command_fingerprint` a transfer is reserved under. -/
def fingerprintEffect (q : TransferRequest) : Effect where
  seatId := q.seatId
  classId := q.classId
  targetSeatId := q.seatId
  actorSeatId := q.seatId
  mechanism := "self"
  amount := some (.ofCents q.cents)
  accountType := q.fromAccount ++ "->" ++ q.toAccount
  type := some "internal_transfer"

def leg (q : TransferRequest) (accountType type : String) (cents : ℤ) : Effect where
  seatId := q.seatId
  classId := q.classId
  targetSeatId := q.seatId
  actorSeatId := q.seatId
  mechanism := "self"
  amount := some (.ofCents cents)
  accountType := accountType
  type := some type

def withdrawal (q : TransferRequest) : Effect := q.leg q.fromAccount "Withdrawal" (-q.cents)

def deposit (q : TransferRequest) : Effect := q.leg q.toAccount "Deposit" q.cents

end TransferRequest

def buildTransferEffectPair (q : TransferRequest) : Except Raise (Effect × Effect) := do
  require ((q.fromAccount = "checking" ∨ q.fromAccount = "savings") ∧
      (q.toAccount = "checking" ∨ q.toAccount = "savings"))
    (.valueError "Internal transfers require checking/savings account types.")
  require (q.fromAccount ≠ q.toAccount)
    (.valueError "Internal transfers require distinct source and destination accounts.")
  require (0 < q.cents) (.valueError "Internal transfer amount must be greater than zero.")
  return (q.withdrawal, q.deposit)

/-- `get_available_balance`, of an account named by its text. -/
def availableBalanceOf (L : LedgerState) (seatId : ℕ) (classId accountType : String) :
    Except Raise ℤ := do
  requireBalanceScope seatId classId accountType
  return (AccountType.ofString accountType).elim 0
    (fun account ↦ getAvailableBalance L ⟨classId, seatId, account⟩)

variable (sha256 : String → String)

def TransferRequest.fingerprint (q : TransferRequest) (version : ℕ) : String :=
  digest sha256 (commandRepresentation q.fingerprintEffect version)

def fingerprintMatchesReservation (r : LedgerCommandReservation) (q : TransferRequest) : Prop :=
  r.fingerprintVersion ∈ supportedFingerprintVersions ∧
    r.replayFingerprint = q.fingerprint sha256 r.fingerprintVersion

instance (r : LedgerCommandReservation) (q : TransferRequest) :
    Decidable (fingerprintMatchesReservation sha256 r q) := by
  unfold fingerprintMatchesReservation; infer_instance

def replayTransferPair (L : LedgerState) (r : LedgerCommandReservation) (q : TransferRequest) :
    Except Raise (Transaction × Transaction) := do
  require (fingerprintMatchesReservation sha256 r q)
    (.valueError "Replay fingerprint mismatch for existing transfer reservation.")
  match reservedRows L r.id with
  | [withdrawal, deposit] => return (withdrawal, deposit)
  | _ => .error (.runtimeError "Transfer reservation does not have exactly two effects.")

def postTransferPair (feat : FeatContext) (L : LedgerState) (id : CommandIdentity)
    (q : TransferRequest) : Except Raise ((Transaction × Transaction) × LedgerState) := do
  let r := newReservation L id (q.fingerprint sha256 fingerprintVersion)
  let (withdrawal, L₁) ← createPendingEffect sha256 feat
    { L with reservations := L.reservations ++ [r] } (some r) q.withdrawal
  let (deposit, L₂) ← createPendingEffect sha256 feat L₁ (some r) q.deposit
  return ((withdrawal, deposit), L₂)

def createTransferPair (feat : FeatContext) (idempotencyKey : String) (L : LedgerState)
    (q : TransferRequest) : Except Raise ((Transaction × Transaction) × LedgerState) := do
  require (q.classId ≠ "" ∧ q.seatId ≠ 0)
    (.valueError "FATAL: Internal transfer requires explicit class_id and seat_id.")
  require (idempotencyKey ≠ "" ∧ feat.activeFeat ≠ "")
    (.valueError "Internal transfers require a command idempotency reservation.")
  let _ ← buildTransferEffectPair q
  let id : CommandIdentity := ⟨q.classId, feat.activeFeat, idempotencyKey⟩
  match L.reservations.find? (·.identity = id) with
  | some r => return (← replayTransferPair sha256 L r q, L)
  | none => postTransferPair sha256 feat L id q

def executeAccountTransfer (feat : FeatContext) (idempotencyKey : String) (L : LedgerState)
    (q : TransferRequest) : Except Raise (TransferResult × LedgerState) := do
  require (L.seatClass q.seatId = some q.classId)
    (.valueError "FATAL: Transfer seat is outside the transaction class scope.")
  let available ← availableBalanceOf L q.seatId q.classId q.fromAccount
  -- The raw amount is compared here; the effects carry the quantized one.
  let insufficient ← demand (q.amount.above available) .decimalInvalidOperation
  require (insufficient = false)
    (.domainError "InsufficientFunds" ("Insufficient " ++ q.fromAccount ++ " funds."))
  let ((withdrawal, deposit), L') ← createTransferPair sha256 feat idempotencyKey L q
  return (⟨withdrawal.id, deposit.id, q.amount, q.fromAccount, q.toAccount⟩, L')

section Fingerprint

variable {sha256} {q q' : TransferRequest} {P : Set String}

def TransferRequest.payload (q : TransferRequest) : String := q.fingerprint id fingerprintVersion

structure TransferRequest.SameCents (q q' : TransferRequest) : Prop where
  seatId : q.seatId = q'.seatId
  fromAccount : q.fromAccount = q'.fromAccount
  toAccount : q.toAccount = q'.toAccount
  cents : q.cents = q'.cents

/-- What `build_transfer_effect_pair` asks of a transfer. -/
structure TransferRequest.Wellformed (q : TransferRequest) : Prop where
  fromAccount : q.fromAccount = "checking" ∨ q.fromAccount = "savings"
  toAccount : q.toAccount = "checking" ∨ q.toAccount = "savings"
  distinct : q.fromAccount ≠ q.toAccount
  positive : 0 < q.cents

theorem buildTransferEffectPair_ok {effects : Effect × Effect} :
    buildTransferEffectPair q = .ok effects ↔
      q.Wellformed ∧ effects = (q.withdrawal, q.deposit) := by
  simp only [buildTransferEffectPair, require_bind_eq_ok, pure_eq_ok]
  constructor
  · rintro ⟨⟨hf, ht⟩, hne, hpos, rfl⟩
    exact ⟨⟨hf, ht, hne, hpos⟩, rfl⟩
  · rintro ⟨⟨hf, ht, hne, hpos⟩, rfl⟩
    exact ⟨⟨hf, ht⟩, hne, hpos, rfl⟩

theorem TransferRequest.Wellformed.accounts_inj (h : q.Wellformed) (h' : q'.Wellformed)
    (heq : q.fromAccount ++ "->" ++ q.toAccount = q'.fromAccount ++ "->" ++ q'.toAccount) :
    q.fromAccount = q'.fromAccount ∧ q.toAccount = q'.toAccount := by
  rcases h.fromAccount with hf | hf <;> rcases h'.fromAccount with hf' | hf' <;>
    rcases h.toAccount with ht | ht <;> rcases h'.toAccount with ht' | ht' <;>
      rw [hf, hf', ht, ht'] at heq ⊢ <;> revert heq <;> decide

theorem ofCents_of_pos {n : ℤ} (h : 0 < n) : Decimal.ofCents n = .finite false n.natAbs (-2) := by
  simp [Decimal.ofCents, Decimal.ofHundredths, Hundredths.ofCents, h.le]

/-- Where the digest does not collide, equal fingerprints are equal transfers up to the cents. -/
theorem transferFingerprint_inj (hsha : Set.InjOn sha256 P) (hP : q.payload ∈ P)
    (hP' : q'.payload ∈ P) (h : q.Wellformed) (h' : q'.Wellformed) :
    q.fingerprint sha256 fingerprintVersion = q'.fingerprint sha256 fingerprintVersion ↔
      q.SameCents q' := by
  have hvalue : q.fingerprint sha256 fingerprintVersion =
      q'.fingerprint sha256 fingerprintVersion ↔
        commandRepresentation q.fingerprintEffect fingerprintVersion =
          commandRepresentation q'.fingerprintEffect fingerprintVersion :=
    ⟨digest_inj hsha hP hP', congrArg (digest sha256)⟩
  rw [hvalue]
  simp only [commandRepresentation, TransferRequest.fingerprintEffect, optNum, optText,
    amountIsFingerprinted, fingerprintVersion, Value.obj.injEq, List.cons.injEq, Prod.mk.injEq,
    true_and, and_true, Value.str.injEq, Value.num.injEq, Int.ofNat_inj]
  constructor
  · rintro ⟨haccounts, hseat, hamount, -⟩
    obtain ⟨hf, ht⟩ := h.accounts_inj h' haccounts
    refine ⟨hseat, hf, ht, ?_⟩
    have htext := text_injective (by simpa using hamount)
    rw [ofCents_of_pos h.positive, ofCents_of_pos h'.positive] at htext
    have habs := Decimal.toText_hundredths_injective htext
    have hpos := h.positive
    have hpos' := h'.positive
    omega
  · intro hs
    rw [hs.fromAccount, hs.toAccount, hs.seatId, hs.cents]
    simp

theorem transferFingerprint_ne (hsha : Set.InjOn sha256 P) (hq : q.payload ∈ P)
    {effects : List Effect} {intent : Value} (hP : payloads effects intent ⊆ P)
    {fingerprint : String}
    (h : replayFingerprint sha256 effects fingerprintVersion intent = .ok fingerprint) :
    fingerprint ≠ q.fingerprint sha256 fingerprintVersion := by
  obtain ⟨fields, hfields, rfl⟩ := replayFingerprint_ok.1 h
  intro heq
  have hpayload := hP (replayFingerprint_ok.2 ⟨fields, hfields, rfl⟩)
  have hvalue := digest_inj hsha hpayload hq heq
  simp [commandRepresentation] at hvalue

end Fingerprint

section Specification

variable {sha256} {feat : FeatContext} {key : String} {L L' : LedgerState} {q : TransferRequest}

def TransferRequest.available (q : TransferRequest) (L : LedgerState) : ℤ :=
  (AccountType.ofString q.fromAccount).elim 0
    (fun account ↦ getAvailableBalance L ⟨q.classId, q.seatId, account⟩)

/-- The source account holds the amount as it was asked for. -/
def TransferRequest.Covered (q : TransferRequest) (L : LedgerState) : Prop :=
  q.amount.above (q.available L) = some false

instance (q : TransferRequest) (L : LedgerState) : Decidable (q.Covered L) := by
  unfold TransferRequest.Covered; infer_instance

structure TransferRequest.Admitted (q : TransferRequest) (feat : FeatContext) (key : String)
    (L : LedgerState) : Prop extends q.Wellformed where
  seat : L.seatClass q.seatId = some q.classId
  scope : q.classId ≠ "" ∧ q.seatId ≠ 0
  command : key ≠ "" ∧ feat.activeFeat ≠ ""
  covered : q.Covered L

def TransferRequest.resultOf (q : TransferRequest) (withdrawal deposit : Transaction) :
    TransferResult :=
  ⟨withdrawal.id, deposit.id, q.amount, q.fromAccount, q.toAccount⟩

def resolveTransferPair (sha256 : String → String) (feat : FeatContext) (key : String)
    (L : LedgerState) (q : TransferRequest) :
    Except Raise ((Transaction × Transaction) × LedgerState) :=
  match L.reservations.find? (·.identity = ⟨q.classId, feat.activeFeat, key⟩) with
  | some r => (replayTransferPair sha256 L r q).map (·, L)
  | none => postTransferPair sha256 feat L ⟨q.classId, feat.activeFeat, key⟩ q

theorem createTransferPair_ok {out : (Transaction × Transaction) × LedgerState} :
    createTransferPair sha256 feat key L q = .ok out ↔
      (q.classId ≠ "" ∧ q.seatId ≠ 0) ∧ (key ≠ "" ∧ feat.activeFeat ≠ "") ∧ q.Wellformed ∧
        resolveTransferPair sha256 feat key L q = .ok out := by
  rw [createTransferPair, require_bind_eq_ok, require_bind_eq_ok, bind_eq_ok]
  simp only [buildTransferEffectPair_ok]
  have hcase : (∃ effects : Effect × Effect,
      (q.Wellformed ∧ effects = (q.withdrawal, q.deposit)) ∧
        (match L.reservations.find? (·.identity = ⟨q.classId, feat.activeFeat, key⟩) with
          | some r => do return (← replayTransferPair sha256 L r q, L)
          | none => postTransferPair sha256 feat L ⟨q.classId, feat.activeFeat, key⟩ q) =
            .ok out) ↔ q.Wellformed ∧ resolveTransferPair sha256 feat key L q = .ok out := by
    rw [resolveTransferPair]
    constructor
    · rintro ⟨-, ⟨hw, -⟩, h⟩
      refine ⟨hw, ?_⟩
      split at h
      · simp only [bind_eq_ok, pure_eq_ok] at h
        exact map_eq_ok.2 h
      · exact h
    · rintro ⟨hw, h⟩
      refine ⟨_, ⟨hw, rfl⟩, ?_⟩
      split at h
      · simp only [bind_eq_ok, pure_eq_ok]
        exact map_eq_ok.1 h
      · exact h
  exact and_congr_right fun _ ↦ and_congr_right fun _ ↦ hcase

theorem availableBalanceOf_ok {seatId : ℕ} {classId accountType : String} {n : ℤ} :
    availableBalanceOf L seatId classId accountType = .ok n ↔
      (classId ≠ "" ∧ seatId ≠ 0) ∧ (accountType = "checking" ∨ accountType = "savings") ∧
        n = (AccountType.ofString accountType).elim 0
          (fun account ↦ getAvailableBalance L ⟨classId, seatId, account⟩) := by
  rw [availableBalanceOf, unit_bind_eq_ok, pure_eq_ok, requireBalanceScope, require_bind_eq_ok,
    require_bind_eq_ok, require_eq_ok]
  constructor
  · rintro ⟨⟨hscope, -, haccount⟩, rfl⟩
    exact ⟨hscope, haccount, rfl⟩
  · rintro ⟨hscope, haccount, rfl⟩
    refine ⟨⟨hscope, ?_, haccount⟩, rfl⟩
    rcases haccount with rfl | rfl <;> decide

theorem executeAccountTransfer_ok {result : TransferResult} :
    executeAccountTransfer sha256 feat key L q = .ok (result, L') ↔
      q.Admitted feat key L ∧ ∃ withdrawal deposit,
        resolveTransferPair sha256 feat key L q = .ok ((withdrawal, deposit), L') ∧
          result = q.resultOf withdrawal deposit := by
  rw [executeAccountTransfer, require_bind_eq_ok, bind_eq_ok]
  simp only [availableBalanceOf_ok, demand_bind_eq_ok, require_bind_eq_ok]
  simp only [bind_eq_ok, createTransferPair_ok, pure_eq_ok, Prod.exists, Prod.mk.injEq]
  constructor
  · rintro ⟨hseat, available, ⟨hscope, -, rfl⟩, insufficient, hcovered, rfl, withdrawal, deposit,
      L₁, ⟨-, hcommand, hw, hresolve⟩, rfl, rfl⟩
    exact ⟨⟨hw, hseat, hscope, hcommand, hcovered⟩, withdrawal, deposit, hresolve, rfl⟩
  · rintro ⟨⟨hw, hseat, hscope, hcommand, hcovered⟩, withdrawal, deposit, hresolve, rfl⟩
    exact ⟨hseat, _, ⟨hscope, hw.fromAccount, rfl⟩, false, hcovered, rfl, withdrawal, deposit, L',
      ⟨hscope, hcommand, hw, hresolve⟩, rfl, rfl⟩

end Specification

end TokenHub.Ledger
