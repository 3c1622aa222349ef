import Mathlib.Data.Rat.Floor
import Mathlib.Data.List.Sort
import TokenHub.Ledger.Recovery
import TokenHub.Lib.Magnitude
import TokenHub.Rent.Rows

set_option autoImplicit false

namespace TokenHub.Ledger

open Lib.Decimals Lib.Checks
open Rent (Instant)

/-- A Python value as a caller may hand it in. A float or a `Decimal` is a `number`. -/
inductive PyValue
  | none
  | bool (b : Bool)
  | int (n : ℤ)
  | number (d : Decimal)
  | str (s : String)
  | list (items : List PyValue)
  | dict (fields : List (String × PyValue))

/-- The exceptions that `payroll_allocation_proof` catches. -/
inductive AllocationRaise
  | allocationIntegrityError (message : String)
  | keyError (key : String)
  | typeError
  | valueError
  | arithmeticError
deriving DecidableEq, Repr

/-- The readers of the standard library: `Decimal(value)`, `str(value)`, and
`datetime.fromisoformat`, which yields no instant for a text without an offset. -/
structure PyReaders where
  decimal : PyValue → Except AllocationRaise Decimal
  str : PyValue → String
  fromisoformat : PyValue → Except AllocationRaise (Option Instant)

section Values

/-- `value[key]`. -/
def PyValue.getItem (key : String) : PyValue → Except AllocationRaise PyValue
  | .dict fields => demand ((fields.find? (·.1 = key)).map (·.2)) (.keyError key)
  | _ => .error .typeError

def PyValue.iterate : PyValue → Except AllocationRaise (List PyValue)
  | .list items => .ok items
  | .dict fields => .ok (fields.map (.str ·.1))
  | .str s => .ok (s.toList.map (fun c ↦ .str (String.singleton c)))
  | _ => .error .typeError

/-- The integer, where `type(value) is int`. -/
def PyValue.exactInt : PyValue → Option ℤ
  | .int n => some n
  | _ => Option.none

end Values

abbrev IntervalKey := ℤ × ℤ

abbrev Allocations := List (IntervalKey × ℤ)

structure Ranked where
  remainder : ℚ
  closedAt : Instant
  key : IntervalKey
deriving DecidableEq

def Ranked.le (a b : Ranked) : Prop :=
  b.remainder < a.remainder ∨ a.remainder = b.remainder ∧
    (a.closedAt < b.closedAt ∨ a.closedAt = b.closedAt ∧
      (a.key.1 < b.key.1 ∨ a.key.1 = b.key.1 ∧ a.key.2 ≤ b.key.2))

instance : DecidableRel Ranked.le := fun a b ↦ by unfold Ranked.le; infer_instance

/-- What the loop over one share's intervals has built so far. -/
structure ShareProgress where
  allocations : Allocations
  ranked : List Ranked
  allocated : ℤ

/-- `seconds × rate ÷ 60`, half-even to the cent. -/
def shareCents (seconds : ℕ) (rate : Magnitude) : Option ℕ :=
  ((Magnitude.mul ⟨seconds, 0⟩ rate).div ⟨60, 0⟩).toHundredths

def exactQuotient (cents seconds credited : ℕ) : ℚ :=
  if seconds = 0 then 0 else cents * credited / seconds

section Allocate

variable (env : PyReaders)

def pricingInputs (seconds : PyValue) (rate : Decimal) : Option (ℕ × Magnitude) :=
  match seconds.exactInt, Magnitude.ofDecimal rate with
  | some n, some r => if 0 ≤ n then some (n.toNat, r) else Option.none
  | _, _ => Option.none

def creditedSeconds (source : PyValue) : Except AllocationRaise ℕ := do
  let credited ← source.getItem "credited_seconds"
  let n ← demand (credited.exactInt.filter (0 ≤ ·))
    (.allocationIntegrityError "Invalid credited seconds.")
  return n.toNat

def intervalKey (opening closing : PyValue) : Option IntervalKey :=
  match opening.exactInt, closing.exactInt with
  | some o, some c => if 0 < o ∧ 0 < c then some (o, c) else Option.none
  | _, _ => Option.none

def allocateSource (cents seconds : ℕ) (p : ShareProgress) (source : PyValue) :
    Except AllocationRaise ShareProgress := do
  let opening ← source.getItem "opening_event_id"
  let closing ← source.getItem "closing_event_id"
  let key ← demand (intervalKey opening closing)
    (.allocationIntegrityError "Invalid interval source identifiers.")
  require (key ∉ p.allocations.map (·.1))
    (.allocationIntegrityError "Duplicate interval membership.")
  let credited ← creditedSeconds source
  let quotient := exactQuotient cents seconds credited
  let timestamp ← source.getItem "closing_timestamp"
  let parsed ← env.fromisoformat timestamp
  let closedAt ← demand parsed
    (.allocationIntegrityError "Closing timestamp must carry UTC offset.")
  return {
    allocations := p.allocations ++ [(key, ⌊quotient⌋)]
    ranked := p.ranked ++ [⟨quotient - ⌊quotient⌋, closedAt, key⟩]
    allocated := p.allocated + ⌊quotient⌋ }

def allocateSources (cents seconds : ℕ) :
    ShareProgress → List PyValue → Except AllocationRaise ShareProgress
  | p, [] => return p
  | p, source :: sources => do
    let p' ← allocateSource env cents seconds p source
    allocateSources cents seconds p' sources

/-- A cent more for each of the first entries of the ranking, as many as the floors leave. -/
def ShareProgress.settle (p : ShareProgress) (cents : ℕ) : Allocations :=
  let first := (p.ranked.insertionSort Ranked.le).take (cents - p.allocated).toNat
  p.allocations.map (fun (key, n) ↦ (key, if key ∈ first.map (·.key) then n + 1 else n))

def allocateShare (allocations : Allocations) (share : PyValue) :
    Except AllocationRaise (Allocations × ℕ) := do
  let secondsValue ← share.getItem "seconds"
  let rateValue ← share.getItem "pay_rate_per_minute"
  let rateDecimal ← env.decimal rateValue
  let sourcesValue ← share.getItem "intervals"
  let (seconds, rate) ← demand (pricingInputs secondsValue rateDecimal)
    (.allocationIntegrityError "Invalid original pricing inputs.")
  let cents ← demand (shareCents seconds rate) .arithmeticError
  let sources ← sourcesValue.iterate
  let credited ← sources.mapM creditedSeconds
  require (credited.sum = seconds)
    (.allocationIntegrityError "Membership does not sum to its pricing share.")
  let p ← allocateSources env cents seconds ⟨allocations, [], 0⟩ sources
  return (p.settle cents, cents)

def allocateShares : Allocations → List PyValue → Except AllocationRaise (Allocations × ℕ)
  | allocations, [] => return (allocations, 0)
  | allocations, share :: shares => do
    let (allocations', cents) ← allocateShare env allocations share
    let (allocations'', expected) ← allocateShares allocations' shares
    return (allocations'', cents + expected)

def creditCents : Decimal → Except AllocationRaise ℕ
  | .finite negative coefficient exponent => do
    require (¬ (negative = true ∧ coefficient ≠ 0))
      (.allocationIntegrityError "Invalid original credit.")
    let q ← demand (Decimal.quantizeFinite negative coefficient exponent) .arithmeticError
    require (coefficient * 10 ^ (exponent + 2).toNat = q.units * 10 ^ (-2 - exponent).toNat)
      (.allocationIntegrityError "Invalid original credit.")
    return q.units
  | _ => .error (.allocationIntegrityError "Invalid original credit.")

def allocatePayrollCents (pricing originalCredit allocationVersion : PyValue) :
    Except AllocationRaise Allocations := do
  require (allocationVersion.exactInt = some 1)
    (.allocationIntegrityError "Original allocation version is unavailable.")
  let total ← env.decimal (.str (env.str originalCredit))
  let credit ← creditCents total
  let shares ← pricing.iterate
  let (allocations, expected) ← allocateShares env [] shares
  require (expected = credit)
    (.allocationIntegrityError "Original credit does not equal frozen pricing shares.")
  return allocations

end Allocate

section Proof

structure PayrollAllocationProof where
  status : CompensationStatus
  allocations : Allocations
  transaction : Option Transaction
deriving DecidableEq, Repr

def PayrollAllocationProof.unavailable : PayrollAllocationProof := ⟨.unavailable, [], Option.none⟩

/-- The keyword arguments that find the credit of a payroll event and vouch for it. -/
structure PayrollCredit where
  classId : String
  targetSeatId : ℕ
  correlationId : String
  idempotencyKey : String
  originatingActorSeatId : ℕ
  originatingMechanism : String
  throughPostingSequence : Option ℤ
  creationEvidence : CreationEvidence

inductive CreditFound
  | unavailable
  | pending (credit : Transaction)
  | posted (credit : Transaction)

variable (env : PyReaders) (L : LedgerState) (q : PayrollCredit)

/-- A row that the pricing of a payroll event may be laid over. -/
def admissibleCredit (credit : Transaction) : Prop :=
  credit.seatId = q.targetSeatId ∧ credit.actorSeatId = q.originatingActorSeatId ∧
    credit.mechanism.value = q.originatingMechanism.toLower ∧ 0 ≤ credit.amountCents ∧
    credit.accountType = .checking ∧ credit.type = some .payroll ∧
    credit.originalTransactionId = Option.none ∧
    (credit.featCode = "FEAT-PROD-003" ∨ credit.featCode = "FEAT-PROD-004") ∧
    q.creationEvidence.confirms credit = true ∧
    ∃ r ∈ L.reservations, credit.commandReservationId = some r.id ∧ r.classId = q.classId ∧
      r.featCode = credit.featCode ∧ r.idempotencyKey = q.idempotencyKey

instance (credit : Transaction) : Decidable (admissibleCredit L q credit) := by
  unfold admissibleCredit; infer_instance

def findPayrollCredit : CreditFound :=
  match L.transactions.filter (fun t ↦ t.classId = q.classId ∧ t.targetSeatId = q.targetSeatId ∧
      t.correlationId = q.correlationId ∧ t.idempotencyKey = some q.idempotencyKey) with
  | [credit] =>
    if admissibleCredit L q credit then
      match q.throughPostingSequence, credit.postingSequence with
      | some boundary, some sequence =>
        if boundary < 0 then .unavailable
        else if boundary < sequence then .pending credit
        else .posted credit
      | _, _ => .unavailable
    else .unavailable
  | _ => .unavailable

def payrollAllocationProof (pricing allocationVersion : PyValue) : PayrollAllocationProof :=
  match findPayrollCredit L q with
  | .unavailable => .unavailable
  | .pending credit => ⟨.pending, [], some credit⟩
  | .posted credit =>
    match allocatePayrollCents env pricing (.number (.ofCents credit.amountCents))
        allocationVersion with
    | .ok allocations => ⟨.verified, allocations, some credit⟩
    | .error _ => .unavailable

end Proof

end TokenHub.Ledger
