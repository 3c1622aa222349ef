import Mathlib.Data.Option.Basic
import Mathlib.Data.Set.Function
import TokenHub.Audit.ChainRuns
import TokenHub.Rent.Dates

set_option autoImplicit false

namespace TokenHub.Audit

open Ledger Lib.Chain Lib.Checks Lib.Decimals Lib.Json Lib.PrefixCode Lib.Runs Lib.Sha256
open Rent (isoFormat isoFormat_injOn not_bar_mem_isoFormat)

variable {signingKey : String} {S S' : AuditState} {e r : AuditEvent}

section Payloads

theorem FieldValue.HasType.cases {v : FieldValue} {type : ColumnType} (h : v.HasType type) :
    v = .null ∨
      match type with
      | .number => ∃ n, v = .num n
      | .text => ∃ s, v = .text s
      | .instant => ∃ t, Storable t ∧ v = .instant t
      | .money => ∃ q, v = .money q
      | .json => ∃ j, j ≠ Value.null ∧ v = .json j := by
  cases v with
  | null => exact .inl rfl
  | num n => cases type <;> first | exact .inr ⟨n, rfl⟩ | exact absurd h id
  | text s => cases type <;> first | exact .inr ⟨s, rfl⟩ | exact absurd h id
  | instant t => cases type <;> first | exact .inr ⟨t, h, rfl⟩ | exact absurd h id
  | money q => cases type <;> first | exact .inr ⟨q, rfl⟩ | exact absurd h id
  | json j => cases type <;> first | exact .inr ⟨j, h, rfl⟩ | exact absurd h id

theorem FieldValue.HasType.toJson_eq_null {v : FieldValue} {type : ColumnType}
    (h : v.HasType type) : v.toJson = .null ↔ v = .null := by
  cases v with
  | null => simp [FieldValue.toJson]
  | json j =>
    cases type with
    | json => exact iff_of_false h FieldValue.noConfusion
    | number => exact absurd h id
    | text => exact absurd h id
    | instant => exact absurd h id
    | money => exact absurd h id
  | num n => exact iff_of_false Value.noConfusion FieldValue.noConfusion
  | text s => exact iff_of_false Value.noConfusion FieldValue.noConfusion
  | instant t => exact iff_of_false Value.noConfusion FieldValue.noConfusion
  | money q => exact iff_of_false Value.noConfusion FieldValue.noConfusion

/-- What the canonical payload writes of a column's value determines the value. -/
theorem FieldValue.toJson_inj {v w : FieldValue} {type : ColumnType} (hv : v.HasType type)
    (hw : w.HasType type) (h : v.toJson = w.toJson) : v = w := by
  have hnull : v = .null ↔ w = .null := by rw [← hv.toJson_eq_null, ← hw.toJson_eq_null, h]
  rcases hv.cases with hv | hv
  · rw [hv, hnull.1 hv]
  rcases hw.cases with hw | hw
  · rw [hw, hnull.2 hw]
  cases type with
  | number =>
    obtain ⟨m, rfl⟩ := hv
    obtain ⟨n, rfl⟩ := hw
    rw [Value.num.inj h]
  | text =>
    obtain ⟨s, rfl⟩ := hv
    obtain ⟨t, rfl⟩ := hw
    rw [Value.str.inj h]
  | instant =>
    obtain ⟨t, ht, rfl⟩ := hv
    obtain ⟨u, hu, rfl⟩ := hw
    rw [isoFormat_injOn ht.1 hu.1 (Value.str.inj h)]
  | money =>
    obtain ⟨p, rfl⟩ := hv
    obtain ⟨q, rfl⟩ := hw
    rw [Hundredths.toText_injective (String.ofList_injective (Value.str.inj h))]
  | json =>
    obtain ⟨j, -, rfl⟩ := hv
    obtain ⟨k, -, rfl⟩ := hw
    rw [show j = k from h]

variable {tableName rowPk operation tableName' rowPk' operation' : String}
  {classId classId' : Option String} {fields fields' : List (String × FieldValue)}

theorem mem_canonicalFields {k : String} {j : Value} :
    (k, j) ∈ canonicalFields tableName rowPk operation classId fields ↔
      ((k, j) ∈ prefixFields tableName rowPk operation classId ∧ k ∉ fields.map Prod.fst) ∨
        ∃ v, (k, v) ∈ fields ∧ v.toJson = j := by
  simp only [canonicalFields, List.mem_mergeSort, List.mem_append, List.mem_filter,
    decide_eq_true_eq]
  refine or_congr Iff.rfl ⟨fun h ↦ ?_, fun ⟨v, hv, hj⟩ ↦ ?_⟩
  · obtain ⟨⟨f, v⟩, hv, heq⟩ := List.mem_map.1 h
    obtain ⟨rfl, rfl⟩ := Prod.mk.inj heq
    exact ⟨v, hv, rfl⟩
  · exact List.mem_map.2 ⟨(k, v), hv, by rw [hj]⟩

theorem mem_canonicalFields_reserved (hfields : ∀ p ∈ fields, p.1 ∉ reservedKeys) {k : String}
    {j : Value} (hk : k ∈ reservedKeys) :
    (k, j) ∈ canonicalFields tableName rowPk operation classId fields ↔
      (k, j) ∈ prefixFields tableName rowPk operation classId := by
  have hfresh : k ∉ fields.map Prod.fst := by
    intro hkey
    obtain ⟨p, hp, rfl⟩ := List.mem_map.1 hkey
    exact hfields p hp hk
  rw [mem_canonicalFields]
  constructor
  · rintro (h | ⟨v, hv, -⟩)
    · exact h.1
    · exact absurd (List.mem_map_of_mem hv) hfresh
  · exact fun h ↦ .inl ⟨h, hfresh⟩

theorem mem_canonicalFields_field {f : String} {j : Value} (hf : f ∉ reservedKeys) :
    (f, j) ∈ canonicalFields tableName rowPk operation classId fields ↔
      ∃ v, (f, v) ∈ fields ∧ v.toJson = j := by
  rw [mem_canonicalFields]
  refine or_iff_right fun h ↦ hf ?_
  exact List.mem_map_of_mem (f := Prod.fst) h.1

theorem canonicalPayload_inj (hfields : ∀ p ∈ fields, p.1 ∉ reservedKeys)
    (hfields' : ∀ p ∈ fields', p.1 ∉ reservedKeys)
    (h : canonicalPayload tableName rowPk operation classId fields =
      canonicalPayload tableName' rowPk' operation' classId' fields') :
    tableName = tableName' ∧ rowPk = rowPk' ∧ operation = operation' ∧ classId = classId' ∧
      ∀ f ∉ reservedKeys, ∀ j,
        (∃ v, (f, v) ∈ fields ∧ v.toJson = j) ↔ ∃ v, (f, v) ∈ fields' ∧ v.toJson = j := by
  have hobj := Value.obj.inj (dumps_injective (String.ofList_injective h))
  have hreserved : ∀ k ∈ reservedKeys, ∀ j,
      (k, j) ∈ prefixFields tableName rowPk operation classId →
        (k, j) ∈ prefixFields tableName' rowPk' operation' classId' := by
    intro k hk j hj
    rw [← mem_canonicalFields_reserved hfields hk, hobj,
      mem_canonicalFields_reserved hfields' hk] at hj
    exact hj
  have htable := hreserved "__table__" (by decide) (.str tableName) (by simp [prefixFields])
  have hkey := hreserved "__pk__" (by decide) (.str rowPk) (by simp [prefixFields])
  have hoperation := hreserved "__op__" (by decide) (.str operation) (by simp [prefixFields])
  have hclass := hreserved "__class_id__" (by decide) (optText classId) (by simp [prefixFields])
  simp [prefixFields] at htable hkey hoperation hclass
  refine ⟨htable, hkey, hoperation, ?_, fun f hf j ↦ ?_⟩
  · cases classId <;> cases classId' <;> simp [optText] at hclass ⊢
    exact hclass
  · rw [← mem_canonicalFields_field hf, hobj, mem_canonicalFields_field hf]

end Payloads

section Digests

theorem message_digest (e : AuditEvent) : ∃ u, e.message.toList =
    u ++ '|' :: (e.payloadDigest.toList ++ '|' :: (isoFormat e.createdAtUtc).toList) := by
  refine ⟨e.previousHash.toList ++ '|' :: (e.chainScope.toList ++ '|' ::
    (Lib.Digits.intText e.sequenceNumber ++ '|' :: (e.tableName.toList ++ '|' ::
      (e.rowPk.toList ++ '|' :: (e.operation.toList ++ '|' ::
        e.rebuildActorContextJson.toList))))), ?_⟩
  simp only [message_toList, AuditEvent.body, List.append_assoc, List.cons_append]

/-- Two messages that agree say the same payload, read from their ends. -/
theorem payloadDigest_eq (h : r.message = e.message) (hr : Plain r.payloadDigest)
    (he : Plain e.payloadDigest) : r.payloadDigest = e.payloadDigest := by
  obtain ⟨u, hu⟩ := message_digest r
  obtain ⟨v, hv⟩ := message_digest e
  rw [h, hv] at hu
  have hrev := congrArg List.reverse hu
  simp only [List.reverse_append, List.reverse_cons, List.append_assoc, List.singleton_append]
    at hrev
  obtain ⟨-, hrest⟩ := cut_inj (fun hbar ↦ not_bar_mem_isoFormat _ (List.mem_reverse.1 hbar))
    (fun hbar ↦ not_bar_mem_isoFormat _ (List.mem_reverse.1 hbar)) hrev
  obtain ⟨hdigest, -⟩ := cut_inj (fun hbar ↦ he (List.mem_reverse.1 hbar))
    (fun hbar ↦ hr (List.mem_reverse.1 hbar)) hrest
  exact String.toList_inj.1 (List.reverse_injective hdigest).symm

def EmitRequest.payload (q : EmitRequest) : String :=
  canonicalPayload q.tableName q.rowPk q.operation q.classId q.protectedFields

/-- Every event that was written carries the digest of a call's payload. -/
theorem written_payload (calls : List EmitCall) (he : e ∈ (written signingKey calls).events) :
    ∃ c ∈ calls, e.payloadDigest = sha256Hex c.request.payload := by
  induction calls using List.reverseRecOn with
  | nil => exact absurd he List.not_mem_nil
  | append_singleton calls c ih =>
    rw [written_snoc] at he
    have hold : e ∈ (written signingKey calls).events →
        ∃ c' ∈ calls ++ [c], e.payloadDigest = sha256Hex c'.request.payload := by
      intro hmem
      obtain ⟨c', hc', hdigest⟩ := ih hmem
      exact ⟨c', List.mem_append_left _ hc', hdigest⟩
    unfold emitStep at he
    cases hcall : emitAuditEvent signingKey (written signingKey calls) c.context c.request with
    | error raised =>
      rw [hcall] at he
      exact hold he
    | ok out =>
      obtain ⟨event, S'⟩ := out
      obtain ⟨head, hemitted⟩ := emitAuditEvent_ok hcall
      rw [hcall, committed_ok, hemitted.events] at he
      rcases List.mem_append.1 he with he | he
      · exact hold he
      · rw [List.mem_singleton.1 he]
        exact ⟨c, List.mem_append_right _ (List.mem_singleton_self c), hemitted.payload⟩

end Digests

section Evidence

variable {table classId : String} {row : ProtectedRow} {requiredFields : List String}
  {ev : VerifiedCreationEvidence}

theorem mem_currentValues {fields : List String} {vs : List (String × FieldValue)}
    (h : currentValues row fields = some vs) (f : String) (v : FieldValue) :
    (f, v) ∈ vs ↔ f ∈ fields ∧ row.get f = some v := by
  induction fields generalizing vs with
  | nil =>
    cases h
    simp
  | cons g fields ih =>
    simp only [currentValues, Option.bind_eq_bind, Option.bind_eq_some_iff, Option.pure_def,
      Option.some.injEq] at h
    obtain ⟨w, hw, ws, hws, rfl⟩ := h
    rw [List.mem_cons, ih hws, List.mem_cons, Prod.mk.injEq]
    constructor
    · rintro (⟨rfl, rfl⟩ | ⟨hmem, hget⟩)
      · exact ⟨.inl rfl, hw⟩
      · exact ⟨.inr hmem, hget⟩
    · rintro ⟨rfl | hmem, hget⟩
      · exact .inl ⟨rfl, Option.some.inj (hget.symm.trans hw)⟩
      · exact .inr ⟨hmem, hget⟩

/-- A stored event of a class that carries a good tag and proves what the evidence says. -/
def Proven (signingKey : String) (S : AuditState) (table : String) (row : ProtectedRow)
    (classId : String) (ev : VerifiedCreationEvidence) : Prop :=
  ∃ event ∈ S.events, event.eventHash = hmacHex signingKey event.message ∧
    linksCreation table row classId event = true ∧
    ev.protectedFields = creationProofFields table event.signatureVersion ∧
    currentValues row ev.protectedFields = some ev.protectedValues ∧
    event.payloadDigest = computePayloadDigest event.tableName event.rowPk event.operation
      event.classId ev.protectedValues

theorem verifyRowLineage_verified {pointer : ℕ} {event : AuditEvent}
    {values : List (String × FieldValue)} (hpointer : row.lineageEventId = some pointer)
    (hevent : S.events.find? (·.id = pointer) = some event)
    (hvalues : currentValues row (creationProofFields table event.signatureVersion) = some values)
    (h : (verifyRowLineage S table row).state = .verified) :
    event.payloadDigest = computePayloadDigest event.tableName event.rowPk event.operation
      event.classId values := by
  unfold verifyRowLineage at h
  simp only [hpointer, hevent, hvalues] at h
  split_ifs at h with hversion hunknown hdigest
  exact (not_not.1 hdigest).symm

theorem verifyChain_full {chainScope : String} {head : ChainHead}
    (hhead : headOf S chainScope = some head)
    (hstate : (verifyChain signingKey S chainScope (head.latestSequence + 1).toNat).state =
      .verified)
    (hcount : (verifyChain signingKey S chainScope (head.latestSequence + 1).toNat).eventCount =
      head.latestSequence) : Sealed signingKey "genesis" 0 (orderedEvents S chainScope) := by
  have hscope : ∀ limit, ∀ e ∈ (orderedEvents S chainScope).take limit,
      e.chainScope = chainScope :=
    fun limit e he ↦ (orderedEvents_scope (List.mem_of_mem_take he)).2
  simp only [verifyChain, hhead] at hstate hcount
  have hsealed := sealed_of_walkEvents (hscope _) hstate
  rw [walkEvents_of_sealed (hscope _) hsealed] at hcount
  simp only [List.length_take] at hcount
  rw [List.take_of_length_le (by omega)] at hsealed
  exact hsealed

theorem verifiedCreationEvidence_proven
    (h : verifiedCreationEvidence signingKey S table row classId requiredFields = some ev) :
    Proven signingKey S table row classId ev := by
  simp only [verifiedCreationEvidence, Option.bind_eq_bind, Option.bind_eq_some_iff,
    Option.pure_def, Option.some.injEq, Option.guard_eq_some'] at h
  obtain ⟨-, hverified, pointer, hpointer, token, htoken, event, hevent, values, hvalues, rfl⟩ := h
  simp only [verifyRecordCreationLineage, hpointer, Option.bind_some, hevent] at hverified
  split_ifs at hverified with hlinks
  split at hverified
  · cases hverified
  · next head hhead =>
    simp only [decide_eq_true_eq] at hverified
    obtain ⟨-, hstate, hcount, -, -, hrow⟩ := hverified
    have hsealed := verifyChain_full hhead hstate hcount
    have hmem := List.mem_of_find?_eq_some hevent
    have hordered : event ∈ orderedEvents S event.chainScope := by
      simp [orderedEvents, hmem]
    exact ⟨event, hmem, hsealed.2 event hordered, hlinks.1, rfl, hvalues,
      verifyRowLineage_verified hpointer hevent hvalues hrow⟩

theorem sealed_of_walkBatch {chainScope p last : String} {limit n m : ℕ} {es : List AuditEvent}
    (hscope : ∀ e ∈ es, e.chainScope = chainScope)
    (h : walkBatch signingKey chainScope limit p n es = .ok (m, last)) :
    Sealed signingKey p n es := by
  induction es generalizing p n with
  | nil => exact ⟨trivial, fun e he ↦ absurd he List.not_mem_nil⟩
  | cons e es ih =>
    rw [walkBatch] at h
    split_ifs at h with hlimit hplace hhash
    push Not at hplace
    obtain ⟨hseq, rfl⟩ := hplace
    rw [expectedHash_eq (hscope e (List.mem_cons_self ..)), not_not] at hhash
    refine sealed_cons.2 ⟨by rw [hseq]; omega, rfl, hhash.symm, ?_⟩
    have hrest := ih (fun e' he' ↦ hscope e' (List.mem_cons_of_mem _ he')) h
    exact_mod_cast hrest

theorem rowCreationEvidence_proven {event : Option AuditEvent} {latest : ℤ}
    (hevent : ∀ e ∈ event, e ∈ S.events ∧ e.eventHash = hmacHex signingKey e.message)
    (h : rowCreationEvidence table row classId event latest requiredFields = some ev) :
    Proven signingKey S table row classId ev := by
  simp only [rowCreationEvidence, Option.bind_eq_bind, Option.bind_eq_some_iff,
    Option.pure_def, Option.some.injEq, Option.guard_eq_some'] at h
  obtain ⟨pointer, -, token, -, e, he, -, hlinks, -, -, -, -, values, hvalues, -, hdigest, rfl⟩ := h
  obtain ⟨hmem, hhash⟩ := hevent e he
  exact ⟨e, hmem, hhash, hlinks.2.1, rfl, hvalues, hdigest.symm⟩

theorem creationEvidenceBatch_proven {items : List (String × ProtectedRow)} {limit i : ℕ}
    (hitem : items[i]? = some (table, row))
    (h : (creationEvidenceBatch signingKey S items classId requiredFields limit).evidence[i]? =
      some (some ev)) : Proven signingKey S table row classId ev := by
  have hnone : (items.map fun _ ↦ (none : Option VerifiedCreationEvidence))[i]? ≠
      some (some ev) := by
    rw [List.getElem?_map, hitem]
    exact fun hc ↦ by cases hc
  unfold creationEvidenceBatch at h
  simp only at h
  split_ifs at h
  · exact absurd h hnone
  · exact absurd h hnone
  · split at h
    · exact absurd h hnone
    · split_ifs at h
      · exact absurd h hnone
      · exact absurd h hnone
      · split at h
        · exact absurd h hnone
        · next walked previous hwalk =>
          split_ifs at h
          · exact absurd h hnone
          · have hscope : ∀ e ∈ (orderedEvents S ("class:" ++ classId)).take (limit + 1),
                e ∈ S.events ∧ e.chainScope = "class:" ++ classId :=
              fun e he ↦ orderedEvents_scope (List.mem_of_mem_take he)
            have hsealed := sealed_of_walkBatch (fun e he ↦ (hscope e he).2) hwalk
            rw [List.getElem?_map, hitem, Option.map_some, Option.some.injEq] at h
            refine rowCreationEvidence_proven (fun e he ↦ ?_) h
            obtain ⟨pointer, -, hfound⟩ := Option.bind_eq_some_iff.1 he
            have hmem := List.mem_reverse.1 (List.mem_of_find?_eq_some hfound)
            exact ⟨(hscope e hmem).1, hsealed.2 e hmem⟩

end Evidence

section Soundness

/-- The payloads that a proof compares: those that were emitted and those of the row as it is. -/
def payloadsInPlay (calls : List EmitCall) (S : AuditState) (table : String)
    (row : ProtectedRow) : Set String :=
  {payload | (∃ c ∈ calls, payload = c.request.payload) ∨
    ∃ event ∈ S.events, ∃ values,
      currentValues row (creationProofFields table event.signatureVersion) = some values ∧
        payload = canonicalPayload event.tableName event.rowPk event.operation event.classId values}

/-- A call is the creation of a row in its class, with the protected fields that the row has. -/
structure Creates (c : EmitCall) (table : String) (row : ProtectedRow) (classId : String)
    (ev : VerifiedCreationEvidence) : Prop where
  tableName : c.request.tableName = table
  rowPk : c.request.rowPk = intString row.id
  operation : c.request.operation = "INSERT"
  class_eq : c.request.classId = some classId
  fields : ∀ f v, (f, v) ∈ c.request.protectedFields ↔
    f ∈ ev.protectedFields ∧ row.get f = some v

variable {calls : List EmitCall} {table classId : String} {row : ProtectedRow}
  {ev : VerifiedCreationEvidence}

theorem Proven.created (hunforged : Unforged signingKey (written signingKey calls) S)
    (hsha : Set.InjOn sha256Hex (payloadsInPlay calls S table row))
    (h : Proven signingKey S table row classId ev) : ∃ c ∈ calls, Creates c table row classId ev := by
  obtain ⟨event, hmem, hhash, hlinks, hfields, hvalues, hdigest⟩ := h
  obtain ⟨e, he, hmessage⟩ := hunforged event hmem hhash
  obtain ⟨c, hc, hpayload⟩ := written_payload calls he
  have hsame : event.payloadDigest = e.payloadDigest := by
    apply payloadDigest_eq hmessage
    · rw [hdigest]
      exact plain_sha256Hex _
    · rw [hpayload]
      exact plain_sha256Hex _
  rw [hdigest, hpayload] at hsame
  have hcurrent := hsha (.inr ⟨event, hmem, ev.protectedValues, hfields ▸ hvalues, rfl⟩)
    (.inl ⟨c, hc, rfl⟩) hsame
  have hunreserved : ∀ f ∈ ev.protectedFields, f ∉ reservedKeys := by
    rw [hfields]
    exact creationProofFields_unreserved table event.signatureVersion
  obtain ⟨htable, hkey, hoperation, hclass, hsame_values⟩ := canonicalPayload_inj
    (fun p hp ↦ hunreserved p.1 ((mem_currentValues hvalues p.1 p.2).1 hp).1)
    (fun p hp ↦ (c.columns p hp).1) hcurrent
  simp only [linksCreation, decide_eq_true_eq] at hlinks
  refine ⟨c, hc, htable.symm.trans hlinks.1, hkey.symm.trans hlinks.2.1,
    hoperation.symm.trans hlinks.2.2.2.2.1, hclass.symm.trans hlinks.2.2.1, fun f v ↦ ?_⟩
  constructor
  · intro hv
    obtain ⟨hf, htype⟩ := c.columns (f, v) hv
    obtain ⟨w, hw, hjson⟩ := (hsame_values f hf v.toJson).2 ⟨v, hv, rfl⟩
    obtain ⟨hfield, hget⟩ := (mem_currentValues hvalues f w).1 hw
    have hvalue := FieldValue.toJson_inj (ProtectedRow.get_hasType hget) htype hjson
    exact ⟨hfield, hget.trans (congrArg some hvalue)⟩
  · rintro ⟨hfield, hget⟩
    have hv := (mem_currentValues hvalues f v).2 ⟨hfield, hget⟩
    obtain ⟨w, hw, hjson⟩ := (hsame_values f (hunreserved f hfield) v.toJson).1 ⟨v, hv, rfl⟩
    rw [← FieldValue.toJson_inj (c.columns (f, w) hw).2 (ProtectedRow.get_hasType hget) hjson]
    exact hw

/-- Whatever was done to the stored rows without forging a tag or a digest, evidence for a row, from
either form of the proof, is of a creation that the service was called with: of that table, that key
and that class, with the protected fields that the row has now. -/
theorem creation_evidence_genuine (signingKey : String) (calls : List EmitCall) (S : AuditState)
    (hunforged : Unforged signingKey (written signingKey calls) S) :
    (∀ table row classId requiredFields ev,
      Set.InjOn sha256Hex (payloadsInPlay calls S table row) →
      verifiedCreationEvidence signingKey S table row classId requiredFields = some ev →
        ∃ c ∈ calls, Creates c table row classId ev) ∧
    ∀ items classId requiredFields maxChainEvents maxRows batch,
      verifiedCreationEvidences signingKey S items classId requiredFields maxChainEvents maxRows =
        .ok batch →
      ∀ (i : ℕ) table row ev, items[i]? = some (table, row) →
        Set.InjOn sha256Hex (payloadsInPlay calls S table row) →
        batch.evidence[i]? = some (some ev) → ∃ c ∈ calls, Creates c table row classId ev := by
  constructor
  · intro table row classId requiredFields ev hsha h
    exact (verifiedCreationEvidence_proven h).created hunforged hsha
  · intro items classId requiredFields maxChainEvents maxRows batch hbatch i table row ev hitem
      hsha h
    unfold verifiedCreationEvidences at hbatch
    split_ifs at hbatch with hbounds hclass hrows hitems
    · cases hbatch
      rw [List.getElem?_map, hitem] at h
      cases h
    · cases hbatch
      cases h
    · cases hbatch
      exact (creationEvidenceBatch_proven hitem h).created hunforged hsha

end Soundness

section Completeness

variable {table classId : String} {row : ProtectedRow} {requiredFields : List String}
  {pointer : ℕ} {values : List (String × FieldValue)}

theorem ledger_version {signatureVersion : ℤ}
    (h : creationProofFields "ledger_transaction" signatureVersion ≠ []) :
    signatureVersion = 2 ∨ signatureVersion = 3 := by
  unfold creationProofFields at h
  rw [if_pos rfl] at h
  unfold ledgerFieldsByVersion at h
  split at h
  · exact .inl rfl
  · exact .inr rfl
  · exact absurd rfl h

theorem WellWritten.verifyChain_eq (h : WellWritten signingKey S) {chainScope : String}
    (hrows : scopeRows S chainScope ≠ []) : ∃ head, headOf S chainScope = some head ∧
      head.latestSequence = (scopeRows S chainScope).length ∧
      head.eventCount = (scopeRows S chainScope).length ∧
      verifyChain signingKey S chainScope (head.latestSequence + 1).toNat =
        { chainScope := chainScope, state := .verified,
          eventCount := (scopeRows S chainScope).length, failureType := none,
          firstBadSequence := none, lastGoodHash := some head.latestHash } := by
  have hhead := h.head chainScope
  rw [headBehind, if_neg hrows] at hhead
  refine ⟨_, hhead, rfl, rfl, ?_⟩
  have hscope : ∀ e ∈ scopeRows S chainScope, e.chainScope = chainScope :=
    fun e he ↦ by simpa using (List.mem_filter.1 he).2
  rw [verifyChain, hhead]
  dsimp only
  rw [h.orderedEvents_eq, List.take_of_length_le (by omega),
    walkEvents_of_sealed hscope (h.chained chainScope), zero_add]

/-- A row whose creation event stands as it was written has evidence. -/
theorem WellWritten.evidence (h : WellWritten signingKey S)
    (hpointer : row.lineageEventId = some pointer)
    (hevent : S.events.find? (·.id = pointer) = some e)
    (hlinks : linksCreation table row classId e = true)
    (hknown : creationProofFields table e.signatureVersion ≠ [])
    (hvalues : currentValues row (creationProofFields table e.signatureVersion) = some values)
    (hrequired : ∀ f ∈ requiredFields, f ∈ creationProofFields table e.signatureVersion)
    (hdigest : e.payloadDigest =
      computePayloadDigest e.tableName e.rowPk e.operation e.classId values) :
    verifiedCreationEvidence signingKey S table row classId requiredFields =
      some ⟨table, intString row.id, classId, pointer, e.hmacSignature, e.signatureVersion,
        creationProofFields table e.signatureVersion, values⟩ := by
  have hrow : e ∈ scopeRows S e.chainScope := by
    simp [scopeRows, List.mem_of_find?_eq_some hevent]
  obtain ⟨head, hhead, hlatest, hcount, hverify⟩ :=
    h.verifyChain_eq (List.ne_nil_of_mem hrow)
  have hlineage : (verifyRowLineage S table row).state = .verified := by
    unfold verifyRowLineage
    simp only [hpointer, hevent, hvalues]
    rw [if_neg, if_neg hknown, if_neg (not_not.2 hdigest.symm)]
    rintro ⟨rfl, htwo, hthree⟩
    exact (ledger_version hknown).elim htwo hthree
  have hproof : verifyRecordCreationLineage signingKey S table row classId requiredFields = true := by
    simp only [verifyRecordCreationLineage, hpointer, Option.bind_some, hevent]
    rw [if_pos ⟨hlinks, hrequired, by rw [hvalues]; rfl⟩, hhead]
    dsimp only
    rw [hverify]
    have hplace := (h.chained e.chainScope).1.seq_le hrow
    simp only [decide_eq_true_eq]
    exact ⟨by omega, trivial, hlatest.symm, trivial, hcount, hlineage⟩
  have htoken : row.lineageToken = some e.hmacSignature := by
    simp only [linksCreation, decide_eq_true_eq] at hlinks
    exact hlinks.2.2.2.2.2.1
  simp [verifiedCreationEvidence, hproof, hpointer, htoken, hevent, hvalues, guard]

end Completeness

section Samples

def sampleEvent : AuditEvent :=
  nextEvent "k" ⟨[], [], 0⟩ sampleFirst.context sampleFirst.request (genesisHead "class:c")

theorem sampleWritten_events : (written "k" [sampleFirst]).events = [sampleEvent] := by
  rw [written, run_cons, run_nil, emitStep, emitAuditEvent, if_neg (by decide), if_neg (by decide)]
  rfl

def sampleLinked : ProtectedRow :=
  { samplePayroll 1 with
    lineageEventId := some 1
    lineageToken := some sampleEvent.hmacSignature
    lineageVersion := some 1 }

theorem sampleLinked_values :
    currentValues sampleLinked (creationProofFields "payroll_event" sampleEvent.signatureVersion) =
      some sampleFirst.request.protectedFields := rfl

theorem sampleLinked_payloads : (payloadsInPlay [sampleFirst] (written "k" [sampleFirst])
    "payroll_event" sampleLinked).Subsingleton := by
  have hall : ∀ payload ∈ payloadsInPlay [sampleFirst] (written "k" [sampleFirst])
      "payroll_event" sampleLinked, payload = sampleFirst.request.payload := by
    rintro payload (⟨c, hc, rfl⟩ | ⟨event, hevent, values, hvalues, rfl⟩)
    · rw [List.mem_singleton.1 hc]
    · rw [sampleWritten_events, List.mem_singleton] at hevent
      subst hevent
      rw [sampleLinked_values, Option.some.injEq] at hvalues
      subst hvalues
      rfl
  intro p hp q hq
  rw [hall p hp, hall q hq]

def sampleEvidence : VerifiedCreationEvidence :=
  ⟨"payroll_event", intString 1, "c", 1, sampleEvent.hmacSignature, sampleEvent.signatureVersion,
    creationProofFields "payroll_event" sampleEvent.signatureVersion,
    sampleFirst.request.protectedFields⟩

theorem sampleLinked_evidence : verifiedCreationEvidence "k" (written "k" [sampleFirst])
    "payroll_event" sampleLinked "c" [] = some sampleEvidence := by
  apply (wellWritten "k" [sampleFirst]).evidence (e := sampleEvent) rfl
  · rw [sampleWritten_events, List.find?_cons_of_pos (by rfl)]
  · simp only [linksCreation, decide_eq_true_eq]
    exact ⟨rfl, rfl, rfl, rfl, rfl, rfl, rfl⟩
  · decide
  · exact sampleLinked_values
  · exact fun f hf ↦ absurd hf List.not_mem_nil
  · rfl

theorem creation_evidence_genuine_linked :
    ∃ c ∈ [sampleFirst], Creates c "payroll_event" sampleLinked "c" sampleEvidence :=
  (creation_evidence_genuine "k" [sampleFirst] (written "k" [sampleFirst])
    fun r hr _ ↦ ⟨r, hr, rfl⟩).1 "payroll_event" sampleLinked "c" [] sampleEvidence
      (sampleLinked_payloads.injOn sha256Hex) sampleLinked_evidence

end Samples

end TokenHub.Audit
