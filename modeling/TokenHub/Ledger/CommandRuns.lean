import TokenHub.Lib.Runs
import TokenHub.Ledger.Command
import Mathlib.Data.List.Induction
import Mathlib.Data.List.Pairwise
import Mathlib.Data.Set.Function

set_option autoImplicit false

namespace TokenHub.Ledger

open Lib.Decimals Lib.Checks Lib.Json Lib.Runs

/-- Two effects agree on everything a version 5 fingerprint binds. Interest amounts are left out,
every other amount is compared after rounding to cents, its sign included. -/
structure Effect.AgreesWith (e e' : Effect) : Prop where
  seatId : e.seatId = e'.seatId
  targetSeatId : e.targetSeatId = e'.targetSeatId
  actorSeatId : e.actorSeatId = e'.actorSeatId
  mechanism : e.mechanism = e'.mechanism
  amount : e.type = some "Interest" ∨ e.amount.map Decimal.quantize = e'.amount.map Decimal.quantize
  accountType : e.accountType = e'.accountType
  type : e.type = e'.type
  originalTransactionId : e.originalTransactionId = e'.originalTransactionId
  policyId : e.policyId = e'.policyId
  compensationOriginLocator : e.compensationOriginLocator = e'.compensationOriginLocator
  compensationAmountCents : e.compensationAmountCents = e'.compensationAmountCents
  correctionIntentLocator : e.correctionIntentLocator = e'.correctionIntentLocator
  compensationSubtype : e.compensationSubtype = e'.compensationSubtype

def Effect.Quantizable (e : Effect) : Prop := ∀ d ∈ e.amount, d.quantize.isSome

section Serialization

theorem optText_injective : Function.Injective optText := by
  intro a b h
  cases a <;> cases b <;> simp_all [optText]

theorem optNum_injective : Function.Injective optNum := by
  intro a b h
  cases a with
  | none => cases b <;> simp_all [optNum]
  | some m =>
    cases b with
    | none => simp [optNum] at h
    | some n =>
      simp only [optNum, Value.num.injEq] at h
      rw [Int.ofNat_inj.1 h]

theorem text_injective : Function.Injective text := by
  intro a b h
  simp only [text, Value.str.injEq] at h
  exact String.ofList_injective h

theorem quantizedAmountField_ok {e : Effect} :
    (∃ v, quantizedAmountField e fingerprintVersion = .ok v) ↔ e.Quantizable := by
  unfold quantizedAmountField Effect.Quantizable
  cases e.amount with
  | none => simp
  | some d => cases hq : d.quantize <;> simp [hq]

theorem amountIsFingerprinted_iff {type : Option String} :
    amountIsFingerprinted type fingerprintVersion = true ↔ type ≠ some "Interest" := by
  simp [amountIsFingerprinted, fingerprintVersion]

def amountValue : Option Decimal.Quantized → Value
  | none => .null
  | some q => text q.toText

theorem amountValue_injective : Function.Injective amountValue := by
  intro a b h
  cases a with
  | none => cases b <;> simp_all [amountValue, text]
  | some q =>
    cases b with
    | none => simp [amountValue, text] at h
    | some q' => rw [Decimal.Quantized.toText_injective (text_injective h)]

theorem quantizedAmountField_eq {e : Effect} {v : Value}
    (h : quantizedAmountField e fingerprintVersion = .ok v) :
    (e.type = some "Interest" ∧ v = .null) ∨
      (e.type ≠ some "Interest" ∧ ∃ q, e.amount.map Decimal.quantize = q.map some ∧
        v = amountValue q) := by
  unfold quantizedAmountField at h
  by_cases ht : e.type = some "Interest"
  · refine .inl ⟨ht, ?_⟩
    have hf : amountIsFingerprinted e.type fingerprintVersion = false := by
      rw [← Bool.not_eq_true, amountIsFingerprinted_iff, not_not]
      exact ht
    cases ha : e.amount with
    | none => simpa [ha, eq_comm] using h
    | some d => cases hq : d.quantize <;> simp_all
  · refine .inr ⟨ht, ?_⟩
    have hf := amountIsFingerprinted_iff.2 ht
    cases ha : e.amount with
    | none => exact ⟨none, by simp, by simpa [ha, eq_comm, amountValue] using h⟩
    | some d =>
      cases hq : d.quantize with
      | none => simp [ha, hq] at h
      | some q =>
        exact ⟨some q, by simp [hq], by simpa [ha, hq, hf, eq_comm, amountValue] using h⟩

theorem quantizedAmountField_inj {e e' : Effect} {v v' : Value} (ht : e.type = e'.type)
    (h : quantizedAmountField e fingerprintVersion = .ok v)
    (h' : quantizedAmountField e' fingerprintVersion = .ok v') :
    v = v' ↔ e.type = some "Interest" ∨
      e.amount.map Decimal.quantize = e'.amount.map Decimal.quantize := by
  rcases quantizedAmountField_eq h with ⟨hi, rfl⟩ | ⟨hi, q, hq, rfl⟩
  · rcases quantizedAmountField_eq h' with ⟨-, rfl⟩ | ⟨hi', -⟩
    · simp [hi]
    · exact absurd (ht ▸ hi) hi'
  · rcases quantizedAmountField_eq h' with ⟨hi', -⟩ | ⟨-, q', hq', rfl⟩
    · exact absurd (ht ▸ hi') hi
    · rw [hq, hq', amountValue_injective.eq_iff]
      have hsome : Function.Injective (Option.map (some : Decimal.Quantized → _)) :=
        Option.map_injective (fun _ _ h ↦ Option.some.inj h)
      rw [hsome.eq_iff]
      simp [hi]

theorem effectFields_ok {e : Effect} {v : Value} :
    effectFields e fingerprintVersion = .ok v ↔
      ∃ amount, quantizedAmountField e fingerprintVersion = .ok amount ∧ v =
        .obj [("account_type", .str e.accountType), ("actor_seat_id", .num e.actorSeatId),
          ("amount", amount), ("compensation_amount_cents", .num e.compensationAmountCents),
          ("compensation_origin_locator", optText e.compensationOriginLocator),
          ("compensation_subtype", optText e.compensationSubtype),
          ("correction_intent_locator", optText e.correctionIntentLocator),
          ("mechanism", .str e.mechanism),
          ("original_transaction_id", optNum e.originalTransactionId),
          ("policy_id", optNum e.policyId), ("seat_id", .num e.seatId),
          ("target_seat_id", .num e.targetSeatId), ("type", optText e.type)] := by
  unfold effectFields
  rw [if_neg (by decide)]
  simp only [bind_eq_ok, pure_eq_ok]
  constructor
  · rintro ⟨amount, ha, rfl⟩
    exact ⟨amount, ha, rfl⟩
  · rintro ⟨amount, ha, rfl⟩
    exact ⟨amount, ha, rfl⟩

theorem effectFields_inj {e e' : Effect} {v v' : Value}
    (h : effectFields e fingerprintVersion = .ok v)
    (h' : effectFields e' fingerprintVersion = .ok v') : v = v' ↔ e.AgreesWith e' := by
  obtain ⟨a, ha, rfl⟩ := effectFields_ok.1 h
  obtain ⟨a', ha', rfl⟩ := effectFields_ok.1 h'
  simp only [Value.obj.injEq, List.cons.injEq, Prod.mk.injEq, true_and, and_true,
    Value.str.injEq, Value.num.injEq, Int.ofNat_inj, optText_injective.eq_iff,
    optNum_injective.eq_iff]
  constructor
  · rintro ⟨hac, hact, ham, hcomp, horig, hsub, hint, hmech, hot, hpol, hseat, htgt, hty⟩
    exact ⟨hseat, htgt, hact, hmech, (quantizedAmountField_inj hty ha ha').1 ham, hac, hty, hot,
      hpol, horig, hcomp, hint, hsub⟩
  · intro hg
    exact ⟨hg.accountType, hg.actorSeatId, (quantizedAmountField_inj hg.type ha ha').2 hg.amount,
      hg.compensationAmountCents, hg.compensationOriginLocator, hg.compensationSubtype,
      hg.correctionIntentLocator, hg.mechanism, hg.originalTransactionId, hg.policyId, hg.seatId,
      hg.targetSeatId, hg.type⟩

theorem effectFields_quantizable {e : Effect} :
    (∃ v, effectFields e fingerprintVersion = .ok v) ↔ e.Quantizable := by
  rw [← quantizedAmountField_ok]
  constructor
  · rintro ⟨v, hv⟩
    obtain ⟨a, ha, -⟩ := effectFields_ok.1 hv
    exact ⟨a, ha⟩
  · rintro ⟨a, ha⟩
    exact ⟨_, effectFields_ok.2 ⟨a, ha, rfl⟩⟩

end Serialization

variable {sha256 : String → String}

section Fingerprint

theorem replayFingerprint_ok {effects : List Effect} {intent : Value} {fingerprint : String} :
    replayFingerprint sha256 effects fingerprintVersion intent = .ok fingerprint ↔
      ∃ fields, List.Forall₂ (fun e v ↦ effectFields e fingerprintVersion = .ok v) effects fields ∧
        fingerprint =
          digest sha256 (.obj [("effects", .arr fields), ("intent", intent)]) := by
  have hstep : replayFingerprint sha256 effects fingerprintVersion intent = (do
      let fields ← effects.mapM (effectFields · fingerprintVersion)
      return digest sha256 (.obj [("effects", .arr fields), ("intent", intent)])) := by
    unfold replayFingerprint
    split
    · next h => exact absurd h (by decide)
    · rw [require_of (by decide), ok_bind]
      rfl
  simp only [hstep, bind_eq_ok, mapM_eq_ok, pure_eq_ok]
  constructor
  · rintro ⟨fields, hf, rfl⟩
    exact ⟨fields, hf, rfl⟩
  · rintro ⟨fields, hf, rfl⟩
    exact ⟨fields, hf, rfl⟩

/-- The payload that a command's fingerprint digests: its fingerprint under the identity. -/
def payloads (effects : List Effect) (intent : Value) : Set String :=
  {payload | replayFingerprint id effects fingerprintVersion intent = .ok payload}

/-- A digest without collisions on some payloads tells their values apart. -/
theorem digest_inj {P : Set String} (hsha : Set.InjOn sha256 P) {v v' : Value}
    (hv : digest id v ∈ P) (hv' : digest id v' ∈ P) (h : digest sha256 v = digest sha256 v') :
    v = v' :=
  dumps_injective (String.ofList_injective (hsha hv hv' h))

/-- Where the digest does not collide on the two payloads, equal fingerprints are agreeing vectors
and equal intents. -/
theorem fingerprint_eq_iff {P : Set String} (hsha : Set.InjOn sha256 P) {es es' : List Effect}
    {i i' : Value} (hP : payloads es i ⊆ P) (hP' : payloads es' i' ⊆ P) {f f' : String}
    (h : replayFingerprint sha256 es fingerprintVersion i = .ok f)
    (h' : replayFingerprint sha256 es' fingerprintVersion i' = .ok f') :
    f = f' ↔ List.Forall₂ Effect.AgreesWith es es' ∧ i = i' := by
  obtain ⟨fields, hf, rfl⟩ := replayFingerprint_ok.1 h
  obtain ⟨fields', hf', rfl⟩ := replayFingerprint_ok.1 h'
  have hpayload := hP (replayFingerprint_ok.2 ⟨fields, hf, rfl⟩)
  have hpayload' := hP' (replayFingerprint_ok.2 ⟨fields', hf', rfl⟩)
  have hvalue : digest sha256 (.obj [("effects", .arr fields), ("intent", i)]) =
      digest sha256 (.obj [("effects", .arr fields'), ("intent", i')]) ↔
        fields = fields' ∧ i = i' := by
    constructor
    · intro heq
      simpa using digest_inj hsha hpayload hpayload' heq
    · rintro ⟨rfl, rfl⟩
      rfl
  have hinj : ∀ a b c d, effectFields a fingerprintVersion = .ok c →
      effectFields b fingerprintVersion = .ok d → (c = d ↔ Effect.AgreesWith a b) :=
    fun _ _ _ _ ha hb ↦ effectFields_inj ha hb
  rw [hvalue, forall₂_eq_iff hinj hf hf']

theorem fingerprint_exists {effects : List Effect} {intent : Value} :
    (∃ f, replayFingerprint sha256 effects fingerprintVersion intent = .ok f) ↔
      ∀ e ∈ effects, e.Quantizable := by
  constructor
  · rintro ⟨f, hf⟩ e he
    obtain ⟨fields, hfields, -⟩ := replayFingerprint_ok.1 hf
    obtain ⟨v, -, hv⟩ := forall₂_exists_right hfields he
    exact effectFields_quantizable.1 ⟨v, hv⟩
  · intro h
    obtain ⟨fields, hfields⟩ := exists_forall₂ (fun e he ↦ effectFields_quantizable.2 (h e he))
    exact ⟨_, replayFingerprint_ok.2 ⟨fields, hfields, rfl⟩⟩

end Fingerprint

/-- A call of one of the two entry points. Its first query saw the first `seen` reservations of
the table: fewer than all of them when a rival commits in between. -/
inductive CommandCall
  | reserved (feat : FeatContext) (seen : ℕ) (id : CommandIdentity) (effects : List Effect)
      (canonicalIntent : Value)
  | idempotent (feat : FeatContext) (seen : ℕ) (idempotencyKey : String) (e : Effect)

namespace CommandCall

def feat : CommandCall → FeatContext
  | reserved feat .. => feat
  | idempotent feat .. => feat

def seen : CommandCall → ℕ
  | reserved _ seen .. => seen
  | idempotent _ seen .. => seen

def identity : CommandCall → CommandIdentity
  | reserved _ _ id _ _ => id
  | idempotent feat _ key e => ⟨e.classId, feat.activeFeat, key⟩

def effects : CommandCall → List Effect
  | reserved _ _ _ effects _ => effects
  | idempotent _ _ _ e => [e]

def canonicalIntent : CommandCall → Value
  | reserved _ _ _ _ intent => intent
  | idempotent .. => .null

def payloads (c : CommandCall) : Set String := Ledger.payloads c.effects c.canonicalIntent

def PassesEntryChecks : CommandCall → Prop
  | reserved _ _ _ effects _ => ∀ e ∈ effects, e.Quantizable
  | idempotent _ _ _ e => e.Quantizable ∧ ∃ t ∈ e.type, t ∈ idempotentTransactionTypes

/-- The two calls state the same effect vector and the same intent. -/
def AgreesWith (c c' : CommandCall) : Prop :=
  List.Forall₂ Effect.AgreesWith c.effects c'.effects ∧ c.canonicalIntent = c'.canonicalIntent

def exec (sha256 : String → String) (L : LedgerState) :
    CommandCall → Except Raise ((List Transaction × Bool) × LedgerState)
  | reserved feat seen id effects intent =>
    createReservedEffects sha256 feat L (L.reservations.take seen) id effects intent
  | idempotent feat seen key e =>
    createIdempotentTransaction sha256 feat L (L.reservations.take seen) key e

/-- The tables after a call; a raised exception rolls back. -/
def after (sha256 : String → String) (L : LedgerState) (c : CommandCall) : LedgerState :=
  match c.exec sha256 L with
  | .ok (_, L') => L'
  | .error _ => L

end CommandCall

structure ValidIdentity (id : CommandIdentity) : Prop where
  nonempty : id.classId ≠ "" ∧ id.featCode ≠ "" ∧ id.idempotencyKey ≠ ""
  key : checkIdempotencyKey id.idempotencyKey = .ok ()

/-- Reservations are numbered in order, no identity is reserved twice, and rows belong to
reservations that exist. -/
structure CommandInvariant (L : LedgerState) : Prop where
  numbered : L.reservations.Pairwise (fun r r' ↦ r.id < r'.id)
  bounded : ∀ r ∈ L.reservations, r.id ≤ L.reservations.length
  distinct : L.reservations.Pairwise (fun r r' ↦ r.identity ≠ r'.identity)
  owned : ∀ t ∈ L.transactions, ∀ i ∈ t.commandReservationId, i ≤ L.reservations.length

theorem CommandInvariant.unique {L : LedgerState} (h : CommandInvariant L)
    {r r' : LedgerCommandReservation} (hr : r ∈ L.reservations) (hr' : r' ∈ L.reservations)
    (he : r.identity = r'.identity) : r = r' := by
  by_contra hne
  have : Std.Symm (fun r r' : LedgerCommandReservation ↦ r.identity ≠ r'.identity) :=
    ⟨fun _ _ hxy hyx ↦ hxy hyx.symm⟩
  exact h.distinct.forall hr hr' hne he

theorem CommandInvariant.empty (seatClass : ℕ → Option String) :
    CommandInvariant (.empty seatClass) where
  numbered := .nil
  bounded := by simp [LedgerState.empty]
  distinct := .nil
  owned := by simp [LedgerState.empty]

theorem CommandInvariant.reserve {L L' : LedgerState} (h : CommandInvariant L)
    {id : CommandIdentity} {fingerprint : String} {feat : FeatContext} {effects : List Effect}
    {rows : List Transaction} (hfresh : ∀ r ∈ L.reservations, r.identity ≠ id)
    (hi : Insertions { L with reservations := L.reservations ++ [newReservation L id fingerprint] }
      rows L')
    (hrows : List.Forall₂ (RowOf feat (some (newReservation L id fingerprint))) effects rows) :
    CommandInvariant L' := by
  have hres : L'.reservations = L.reservations ++ [newReservation L id fingerprint] := by
    rw [hi.state]
  have htx : L'.transactions = L.transactions ++ rows := by rw [hi.state]
  refine ⟨?_, ?_, ?_, ?_⟩
  · rw [hres]
    refine List.pairwise_append.2 ⟨h.numbered, List.pairwise_singleton _ _, ?_⟩
    intro r hr r' hr'
    rw [List.mem_singleton.1 hr']
    exact Nat.lt_succ_of_le (h.bounded r hr)
  · rw [hres, List.length_append, List.length_singleton]
    intro r hr
    rcases List.mem_append.1 hr with hr | hr
    · exact Nat.le_succ_of_le (h.bounded r hr)
    · rw [List.mem_singleton.1 hr]
      exact Nat.le_refl _
  · rw [hres]
    refine List.pairwise_append.2 ⟨h.distinct, List.pairwise_singleton _ _, ?_⟩
    intro r hr r' hr'
    rw [List.mem_singleton.1 hr']
    exact hfresh r hr
  · rw [htx, hres, List.length_append, List.length_singleton]
    intro t ht i hti
    rcases List.mem_append.1 ht with ht | ht
    · exact Nat.le_succ_of_le (h.owned t ht i hti)
    · obtain ⟨e, -, hrow⟩ := forall₂_exists_left hrows ht
      rw [hrow.commandReservationId] at hti
      simp only [Option.map_some, Option.mem_some, newReservation] at hti
      exact Nat.le_of_eq hti.symm

/-- `r` is the reservation of the accepted call `c`, and `rows` are the rows it owns. -/
structure Owns (sha256 : String → String) (L : LedgerState) (c : CommandCall)
    (r : LedgerCommandReservation) (rows : List Transaction) : Prop where
  mem : r ∈ L.reservations
  identity : r.identity = c.identity
  valid : ValidIdentity c.identity
  fingerprint : replayFingerprint sha256 c.effects fingerprintVersion c.canonicalIntent =
    .ok r.replayFingerprint
  version : r.fingerprintVersion = fingerprintVersion
  rows_eq : reservedRows L r.id = rows
  rows_of : List.Forall₂ (RowOf c.feat (some r)) c.effects rows
  nonempty : rows ≠ []

section Replay

variable {L : LedgerState} {c : CommandCall} {r : LedgerCommandReservation}
  {rows : List Transaction}

theorem assertReplayMatches_ok {effects : List Effect} {intent : Value}
    (hv : r.fingerprintVersion = fingerprintVersion) :
    assertReplayMatches sha256 r effects intent = .ok () ↔
      replayFingerprint sha256 effects fingerprintVersion intent = .ok r.replayFingerprint := by
  simp only [assertReplayMatches, hv, require_bind_eq_ok]
  simp only [bind_eq_ok, require_eq_ok]
  constructor
  · rintro ⟨-, f, hf, hr⟩
    rw [hf, hr]
  · intro h
    exact ⟨by decide, _, h, rfl⟩

theorem CommandInvariant.find_owner (h : CommandInvariant L) {id : CommandIdentity}
    (hr : r ∈ L.reservations) (hid : r.identity = id) :
    L.reservations.find? (·.identity = id) = some r := by
  cases hf : L.reservations.find? (·.identity = id) with
  | none =>
    have := List.find?_eq_none.1 hf r hr
    simp [hid] at this
  | some r' =>
    have hr' : r'.identity = id := by simpa using List.find?_some hf
    rw [h.unique (List.mem_of_find?_eq_some hf) hr (hr'.trans hid.symm)]

theorem CommandInvariant.reservationMet_owned (h : CommandInvariant L) {id : CommandIdentity}
    (hr : r ∈ L.reservations) (hid : r.identity = id) (seen : ℕ) :
    reservationMet (L.reservations.take seen) L.reservations id = some r := by
  unfold reservationMet
  split
  · next r' hf =>
    have hr' : r'.identity = id := by simpa using List.find?_some hf
    have hmem := List.mem_of_mem_take (List.mem_of_find?_eq_some hf)
    rw [h.unique hmem hr (hr'.trans hid.symm)]
  · exact h.find_owner hr hid

/-- Under an identity that is reserved, a call is a replay of the owner, whichever of the
table's reservations its first query saw. -/
theorem CommandInvariant.createReservedEffects_owned (h : CommandInvariant L)
    {feat : FeatContext} {seen : ℕ} {id : CommandIdentity} {effects : List Effect}
    {intent : Value} (hr : r ∈ L.reservations) (hid : r.identity = id) (hvalid : ValidIdentity id)
    (hv : r.fingerprintVersion = fingerprintVersion)
    {out : (List Transaction × Bool) × LedgerState} :
    createReservedEffects sha256 feat L (L.reservations.take seen) id effects intent = .ok out ↔
      effects ≠ [] ∧
        replayFingerprint sha256 effects fingerprintVersion intent = .ok r.replayFingerprint ∧
        reservedRows L r.id ≠ [] ∧ out = ((reservedRows L r.id, false), L) := by
  simp only [createReservedEffects, require_bind_eq_ok]
  simp only [unit_bind_eq_ok, h.reservationMet_owned hr hid, hvalid.key, true_and]
  simp only [bind_eq_ok, replayReserved_ok, assertReplayMatches_ok hv, pure_eq_ok]
  constructor
  · rintro ⟨⟨-, -, -, hne⟩, f, -, rows, ⟨hf, hrows, rfl⟩, rfl⟩
    exact ⟨hne, hf, hrows, rfl⟩
  · rintro ⟨hne, hf, hrows, rfl⟩
    obtain ⟨hc, hfc, hk⟩ := hvalid.nonempty
    exact ⟨⟨hc, hfc, hk, hne⟩, _, hf, _, ⟨hf, hrows, rfl⟩, rfl⟩

end Replay

section Calls

variable {L L' : LedgerState} {c c' : CommandCall} {r : LedgerCommandReservation}
  {rows : List Transaction}

theorem validIdentity_of_createReservedEffects {feat : FeatContext}
    {seen : List LedgerCommandReservation} {id : CommandIdentity} {effects : List Effect}
    {intent : Value} {out : (List Transaction × Bool) × LedgerState}
    (h : createReservedEffects sha256 feat L seen id effects intent = .ok out) :
    ValidIdentity id ∧ effects ≠ [] ∧ ∀ e ∈ effects, e.Quantizable := by
  simp only [createReservedEffects, require_bind_eq_ok] at h
  obtain ⟨⟨hc, hf, hk, hne⟩, h⟩ := h
  simp only [unit_bind_eq_ok] at h
  obtain ⟨hkey, h⟩ := h
  simp only [bind_eq_ok] at h
  obtain ⟨f, hfp, -⟩ := h
  exact ⟨⟨⟨hc, hf, hk⟩, hkey⟩, hne, fingerprint_exists.1 ⟨f, hfp⟩⟩

/-- Either entry point is `create_reserved_effects` behind its own checks. -/
theorem CommandCall.exec_ok {out : (List Transaction × Bool) × LedgerState} :
    c.exec sha256 L = .ok out ↔ c.PassesEntryChecks ∧
      createReservedEffects sha256 c.feat L (L.reservations.take c.seen) c.identity c.effects
        c.canonicalIntent = .ok out := by
  cases c with
  | reserved feat seen id effects intent =>
    refine ⟨fun h ↦ ⟨?_, h⟩, fun h ↦ h.2⟩
    exact (validIdentity_of_createReservedEffects h).2.2
  | idempotent feat seen key e =>
    simp only [exec, createIdempotentTransaction, unit_bind_eq_ok, require_eq_ok]
    constructor
    · rintro ⟨-, -, htype, h⟩
      obtain ⟨-, -, hq⟩ := validIdentity_of_createReservedEffects h
      exact ⟨⟨hq e (by simp), htype⟩, h⟩
    · rintro ⟨⟨-, htype⟩, h⟩
      obtain ⟨hvalid, -, -⟩ := validIdentity_of_createReservedEffects h
      obtain ⟨hc, hf, hk⟩ := hvalid.nonempty
      exact ⟨⟨hk, hc, hf⟩, hvalid.key, htype, h⟩

/-- Everything an accepted call does: it replays and changes nothing, or it reserves a fresh
identity and appends one row for each effect. -/
theorem CommandCall.exec_cases {created : Bool}
    (h : c.exec sha256 L = .ok ((rows, created), L')) :
    (created = false ∧ L' = L ∧ ∃ r ∈ L.reservations, r.identity = c.identity) ∨
      (created = true ∧ (∀ r ∈ L.reservations, r.identity ≠ c.identity) ∧ ∃ fingerprint,
        replayFingerprint sha256 c.effects fingerprintVersion c.canonicalIntent =
          .ok fingerprint ∧
        Insertions { L with
          reservations := L.reservations ++ [newReservation L c.identity fingerprint] } rows L' ∧
        List.Forall₂ (RowOf c.feat (some (newReservation L c.identity fingerprint)))
          c.effects rows) := by
  obtain ⟨-, h⟩ := CommandCall.exec_ok.1 h
  rcases createReservedEffects_ok h with ⟨hc, hL, r, hr, hid, -⟩ | h
  · refine .inl ⟨hc, hL, r, ?_, hid⟩
    exact hr.elim List.mem_of_mem_take id
  · exact .inr h

theorem CommandInvariant.after (h : CommandInvariant L) (c : CommandCall) :
    CommandInvariant (c.after sha256 L) := by
  unfold CommandCall.after
  split
  · next out L' hok =>
    obtain ⟨rows, created⟩ := out
    rcases CommandCall.exec_cases hok with ⟨-, rfl, -⟩ | ⟨-, hfresh, f, -, hi, hrows⟩
    · exact h
    · exact h.reserve hfresh hi hrows
  · exact h

theorem reservedRows_append {ts : List Transaction} {i : ℕ}
    (h : ∀ t ∈ ts, t.commandReservationId ≠ some i)
    (hL : L'.transactions = L.transactions ++ ts) : reservedRows L' i = reservedRows L i := by
  have hnil : ts.filter (·.commandReservationId = some i) = [] := by
    simpa [List.filter_eq_nil_iff] using h
  unfold reservedRows
  rw [hL, List.filter_append, hnil, List.append_nil]

theorem Owns.after (h : CommandInvariant L) (ho : Owns sha256 L c r rows) (c' : CommandCall) :
    Owns sha256 (c'.after sha256 L) c r rows := by
  unfold CommandCall.after
  split
  · next out L' hok =>
    obtain ⟨rows', created⟩ := out
    rcases CommandCall.exec_cases hok with ⟨-, rfl, -⟩ | ⟨-, -, f, -, hi, hrows⟩
    · exact ho
    · have hnot : ∀ t ∈ rows', t.commandReservationId ≠ some r.id := by
        intro t ht hid
        obtain ⟨e, -, hrow⟩ := forall₂_exists_left hrows ht
        rw [hrow.commandReservationId] at hid
        have hle := h.bounded r ho.mem
        simp only [Option.map_some, Option.some.injEq, newReservation] at hid
        omega
      have hkeep : reservedRows L' r.id = reservedRows L r.id :=
        reservedRows_append hnot (by rw [hi.state])
      refine ⟨?_, ho.identity, ho.valid, ho.fingerprint, ho.version, ?_, ho.rows_of, ho.nonempty⟩
      · rw [hi.state]
        exact List.mem_append_left _ ho.mem
      · rw [hkeep, ho.rows_eq]
  · exact ho

theorem Owns.of_created (h : CommandInvariant L)
    (hok : c.exec sha256 L = .ok ((rows, true), L')) : ∃ r, Owns sha256 L' c r rows := by
  obtain ⟨hvalid, hne, -⟩ :=
    validIdentity_of_createReservedEffects (CommandCall.exec_ok.1 hok).2
  rcases CommandCall.exec_cases hok with ⟨hf, -⟩ | ⟨-, -, f, hf, hi, hrows⟩
  · cases hf
  have hnew : reservedRows L' (newReservation L c.identity f).id = rows := by
    unfold reservedRows
    rw [hi.state, List.filter_append]
    have hold : L.transactions.filter
        (·.commandReservationId = some (newReservation L c.identity f).id) = [] := by
      rw [List.filter_eq_nil_iff]
      intro t ht hid
      have := h.owned t ht _ (by simpa using hid)
      simp only [newReservation] at this
      omega
    have hall : rows.filter
        (·.commandReservationId = some (newReservation L c.identity f).id) = rows := by
      rw [List.filter_eq_self]
      intro t ht
      obtain ⟨e, -, hrow⟩ := forall₂_exists_left hrows ht
      simp [hrow.commandReservationId]
    rw [hold, hall, List.nil_append]
  refine ⟨newReservation L c.identity f, ?_, rfl, hvalid, hf, rfl, hnew, hrows, ?_⟩
  · rw [hi.state]
    simp
  · intro hnil
    rw [hnil, List.forall₂_nil_right_iff] at hrows
    exact hne hrows

/-- A later call of an owned identity is accepted just when it states the same vector and
intent, and then it returns the owner's rows and changes nothing. -/
theorem Owns.exec_iff (hsha : Set.InjOn sha256 (c.payloads ∪ c'.payloads))
    (h : CommandInvariant L) (ho : Owns sha256 L c r rows) (hid : c'.identity = c.identity)
    {out : (List Transaction × Bool) × LedgerState} :
    c'.exec sha256 L = .ok out ↔
      (c'.PassesEntryChecks ∧ c.AgreesWith c') ∧ out = ((rows, false), L) := by
  have hid' : r.identity = c'.identity := ho.identity.trans hid.symm
  have hvalid : ValidIdentity c'.identity := by rw [hid]; exact ho.valid
  rw [CommandCall.exec_ok, h.createReservedEffects_owned ho.mem hid' hvalid ho.version,
    ho.rows_eq, and_assoc, and_congr_right_iff]
  intro hpass
  constructor
  · rintro ⟨-, hf, -, rfl⟩
    exact ⟨(fingerprint_eq_iff hsha Set.subset_union_left Set.subset_union_right
      ho.fingerprint hf).1 rfl, rfl⟩
  · rintro ⟨hagree, rfl⟩
    have hq : ∀ e ∈ c'.effects, e.Quantizable := by
      cases c' with
      | reserved => exact hpass
      | idempotent => simpa [CommandCall.effects] using hpass.1
    obtain ⟨f, hf⟩ := fingerprint_exists.2 hq
    have heq := (fingerprint_eq_iff hsha Set.subset_union_left Set.subset_union_right
      ho.fingerprint hf).2 hagree
    refine ⟨?_, by rw [hf, heq], ho.nonempty, rfl⟩
    intro hnil
    have hempty := hagree.1
    rw [hnil, List.forall₂_nil_right_iff] at hempty
    have hrows := ho.rows_of
    rw [hempty, List.forall₂_nil_left_iff] at hrows
    exact ho.nonempty hrows

end Calls

section Runs

variable {seatClass : ℕ → Option String}

theorem CommandInvariant.run (as : List CommandCall) :
    CommandInvariant (run (CommandCall.after sha256) (.empty seatClass) as) :=
  run_invariant (.empty seatClass) (fun _ c hI ↦ hI.after c) as

theorem Owns.run {L : LedgerState} {c : CommandCall} {r : LedgerCommandReservation}
    {rows : List Transaction} (h : CommandInvariant L) (ho : Owns sha256 L c r rows)
    (as : List CommandCall) : Owns sha256 (run (CommandCall.after sha256) L as) c r rows :=
  (run_invariant (I := fun L ↦ CommandInvariant L ∧ Owns sha256 L c r rows) ⟨h, ho⟩
    (fun _ a hI ↦ ⟨hI.1.after a, hI.2.after hI.1 a⟩) as).2

theorem reserved_by_accepted (as : List CommandCall) {r : LedgerCommandReservation}
    (hr : r ∈ (run (CommandCall.after sha256) (.empty seatClass) as).reservations) :
    ∃ before c after out, as = before ++ c :: after ∧ c.identity = r.identity ∧
      c.exec sha256 (run (CommandCall.after sha256) (.empty seatClass) before) = .ok out := by
  induction as using List.reverseRecOn with
  | nil => simp [LedgerState.empty] at hr
  | append_singleton as c ih =>
    rw [run_append, run_cons, run_nil, CommandCall.after] at hr
    split at hr
    · next out L' hok =>
      obtain ⟨rows, created⟩ := out
      rcases CommandCall.exec_cases hok with ⟨-, rfl, -⟩ | ⟨-, -, f, -, hi, -⟩
      · obtain ⟨before, c', after, out, rfl, hid, hout⟩ := ih hr
        exact ⟨before, c', after ++ [c], out, by simp, hid, hout⟩
      · rw [hi.state] at hr
        rcases List.mem_append.1 hr with hr | hr
        · obtain ⟨before, c', after, out, rfl, hid, hout⟩ := ih hr
          exact ⟨before, c', after ++ [c], out, by simp, hid, hout⟩
        · rw [List.mem_singleton.1 hr]
          exact ⟨as, c, [], _, rfl, rfl, hok⟩
    · obtain ⟨before, c', after, out, rfl, hid, hout⟩ := ih hr
      exact ⟨before, c', after ++ [c], out, by simp, hid, hout⟩

/-- Exactly-once reservations. After any calls from an empty ledger, let `first` be the first
accepted call of its identity and `later` a call of the same identity after any further calls.
Then `first` created its rows, one for each of its effects; its identity has a single
reservation, which still owns exactly those rows; and `later` returns them without creating
anything just when it passes its entry point's checks and states the same fingerprinted vector
and the same intent, raises otherwise, and changes no table in either case. -/
theorem command_reservations_exactly_once (sha256 : String → String)
    (seatClass : ℕ → Option String) (before between : List CommandCall)
    (first later : CommandCall) (hsha : Set.InjOn sha256 (first.payloads ∪ later.payloads))
    (rows : List Transaction) (created : Bool) (L₁ : LedgerState)
    (hfirst : first.exec sha256 (run (CommandCall.after sha256) (.empty seatClass) before) =
      .ok ((rows, created), L₁))
    (hearlier : ∀ pre c post, before = pre ++ c :: post → c.identity = first.identity →
      ∀ out, c.exec sha256 (run (CommandCall.after sha256) (.empty seatClass) pre) ≠ .ok out)
    (hlater : later.identity = first.identity) :
    let L := run (CommandCall.after sha256) L₁ between
    created = true ∧
    (∃ r ∈ L.reservations, r.identity = first.identity ∧
      (∀ r' ∈ L.reservations, r'.identity = first.identity → r' = r) ∧
      reservedRows L r.id = rows ∧
      List.Forall₂ (RowOf first.feat (some r)) first.effects rows) ∧
    (later.exec sha256 L = .ok ((rows, false), L) ↔
      later.PassesEntryChecks ∧ first.AgreesWith later) ∧
    (∀ out, later.exec sha256 L = .ok out → out = ((rows, false), L)) ∧
    later.after sha256 L = L := by
  intro L
  have h₀ : CommandInvariant (run (CommandCall.after sha256) (.empty seatClass) before) := .run _
  have hcreated : created = true := by
    rcases CommandCall.exec_cases hfirst with ⟨-, -, r, hr, hid⟩ | ⟨hc, -⟩
    · obtain ⟨pre, c, post, out, heq, hc, hout⟩ := reserved_by_accepted before hr
      exact absurd hout (hearlier pre c post heq (hc.trans hid) out)
    · exact hc
  subst hcreated
  have hafter : first.after sha256 (run (CommandCall.after sha256) (.empty seatClass) before) =
      L₁ := by
    rw [CommandCall.after, hfirst]
  have h₁ : CommandInvariant L₁ := hafter ▸ h₀.after first
  obtain ⟨r, ho₁⟩ := Owns.of_created h₀ hfirst
  have ho : Owns sha256 L first r rows := ho₁.run h₁ between
  have hL : CommandInvariant L := run_invariant h₁ (fun _ c hI ↦ hI.after c) between
  have hexec := fun out ↦ @Owns.exec_iff _ _ _ _ _ _ hsha hL ho hlater out
  refine ⟨rfl, ⟨r, ho.mem, ho.identity, ?_, ho.rows_eq, ho.rows_of⟩, ?_, ?_, ?_⟩
  · intro r' hr' hid
    exact hL.unique hr' ho.mem (hid.trans ho.identity.symm)
  · rw [hexec]
    simp
  · intro out hout
    exact ((hexec out).1 hout).2
  · unfold CommandCall.after
    split
    · next hok => exact congrArg Prod.snd ((hexec _).1 hok).2
    · rfl

def checkingEffect (type : String) (amount : Decimal) : Effect where
  seatId := 1
  classId := "c"
  targetSeatId := 1
  actorSeatId := 1
  mechanism := "self"
  amount := some amount
  accountType := "checking"
  type := some type

def sampleFeat : FeatContext := ⟨"FEAT-LED-001", "corr_1", 0⟩

def sampleIdentity : CommandIdentity := ⟨"c", "FEAT-LED-001", "k"⟩

def reservedCall (e : Effect) : CommandCall := .reserved sampleFeat 1 sampleIdentity [e] .null

theorem reservedCall_created (e : Effect) {rows : List Transaction} {L₁ : LedgerState}
    (h : (reservedCall e).exec sha256 (.empty seatClass) = .ok ((rows, true), L₁)) :
    CommandInvariant L₁ ∧ ∃ r, Owns sha256 L₁ (reservedCall e) r rows := by
  have hinv : CommandInvariant (.empty seatClass) := .empty seatClass
  have hafter : CommandInvariant ((reservedCall e).after sha256 (.empty seatClass)) :=
    hinv.after (reservedCall e)
  rw [CommandCall.after, h] at hafter
  exact ⟨hafter, Owns.of_created hinv h⟩

theorem command_reservations_exactly_once_refund :
    ∃ rows L₁,
      (reservedCall (checkingEffect "refund" (.ofCents 250))).exec id (.empty fun _ ↦ some "c") =
        .ok ((rows, true), L₁) ∧
      (reservedCall (checkingEffect "refund" (.ofCents 250))).exec id L₁ =
        .ok ((rows, false), L₁) := by
  obtain ⟨rows, L₁, hok⟩ : ∃ rows L₁,
      (reservedCall (checkingEffect "refund" (.ofCents 250))).exec id (.empty fun _ ↦ some "c") =
        .ok ((rows, true), L₁) := ⟨_, _, rfl⟩
  have h := command_reservations_exactly_once id (fun _ ↦ some "c") [] [] _ _
    Function.injective_id.injOn rows true L₁ hok (by simp) rfl
  refine ⟨rows, L₁, hok, h.2.2.1.2 ⟨?_, .cons ?_ .nil, rfl⟩⟩
  · intro e he d hd
    rw [List.mem_singleton.1 he] at hd
    cases hd
    rfl
  · exact ⟨rfl, rfl, rfl, rfl, .inr rfl, rfl, rfl, rfl, rfl, rfl, rfl, rfl, rfl⟩

/-- A retry can state the very vector that its identity owns and still be refused, by the entry
point for single effects; and two amounts that round to the same cents but to zeros of opposite
sign are told apart. -/
theorem agreeing_retry_refused :
    (∃ first later rows L₁,
      CommandCall.exec id (.empty fun _ ↦ some "c") first = .ok ((rows, true), L₁) ∧
      later.identity = first.identity ∧ first.AgreesWith later ∧
      ∀ out, later.exec id L₁ ≠ .ok out) ∧
    ∃ a b rows L₁, (quantizeCurrency (some a)).value = (quantizeCurrency (some b)).value ∧
      (reservedCall (checkingEffect "refund" a)).exec id (.empty fun _ ↦ some "c") =
        .ok ((rows, true), L₁) ∧
      ∀ out, (reservedCall (checkingEffect "refund" b)).exec id L₁ ≠ .ok out := by
  constructor
  · obtain ⟨rows, L₁, hok⟩ : ∃ rows L₁,
        (reservedCall (checkingEffect "Withdrawal" (.ofCents (-250)))).exec id
          (.empty fun _ ↦ some "c") = .ok ((rows, true), L₁) := ⟨_, _, rfl⟩
    refine ⟨_, .idempotent sampleFeat 1 "k" (checkingEffect "Withdrawal" (.ofCents (-250))), rows,
      L₁, hok, rfl, ⟨.cons ?_ .nil, rfl⟩, ?_⟩
    · exact ⟨rfl, rfl, rfl, rfl, .inr rfl, rfl, rfl, rfl, rfl, rfl, rfl, rfl, rfl⟩
    · intro out h
      obtain ⟨t, ht, hmem⟩ := (CommandCall.exec_ok.1 h).1.2
      cases ht
      exact absurd hmem (by decide)
  · obtain ⟨rows, L₁, hok⟩ : ∃ rows L₁,
        (reservedCall (checkingEffect "refund" (.finite false 0 (-2)))).exec id
          (.empty fun _ ↦ some "c") = .ok ((rows, true), L₁) := ⟨_, _, rfl⟩
    refine ⟨.finite false 0 (-2), .finite true 1 (-3), rows, L₁, rfl, hok, ?_⟩
    intro out h
    obtain ⟨hinv, r, ho⟩ := reservedCall_created _ hok
    have hid : (reservedCall (checkingEffect "refund" (.finite true 1 (-3)))).identity =
        (reservedCall (checkingEffect "refund" (.finite false 0 (-2)))).identity := rfl
    obtain ⟨⟨-, hagree, -⟩, -⟩ := (ho.exec_iff Function.injective_id.injOn hinv hid).1 h
    obtain ⟨hagree, -⟩ := List.forall₂_cons.1 hagree
    rcases hagree.amount with ht | ha
    · exact absurd ht (by decide)
    · exact absurd ha (by decide)

end Runs

end TokenHub.Ledger
