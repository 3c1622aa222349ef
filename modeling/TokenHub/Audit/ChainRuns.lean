import TokenHub.Audit.Verification
import TokenHub.Lib.Runs

set_option autoImplicit false

namespace TokenHub.Audit

open Ledger Lib.Chain Lib.Checks Lib.Digits Lib.PrefixCode Lib.Runs Lib.Sha256
open Rent (isoFormat)

variable {signingKey chainScope : String} {S S' : AuditState} {e r : AuditEvent}
  {es : List AuditEvent}

section Messages

/-- A text without the separator of the signed message. -/
def Plain (s : String) : Prop := '|' ∉ s.toList

instance (s : String) : Decidable (Plain s) := by unfold Plain; infer_instance

theorem plain_append {s t : String} : Plain (s ++ t) ↔ Plain s ∧ Plain t := by
  simp [Plain, not_or]

theorem plain_hmacHex (key message : String) : Plain (hmacHex key message) := by
  rw [Plain, hmacHex, String.toList_ofList]
  exact not_mem_hexText rfl

theorem plain_sha256Hex (value : String) : Plain (sha256Hex value) := by
  rw [Plain, sha256Hex, String.toList_ofList]
  exact not_mem_hexText rfl

theorem not_bar_mem_intText (n : ℤ) : '|' ∉ intText n := by
  have hdigits : ∀ k, '|' ∉ natText k := fun k h ↦ absurd (natText_isDigit h) (by decide)
  cases n with
  | ofNat k => exact hdigits k
  | negSucc k => exact fun h ↦ (List.mem_cons.1 h).elim (by decide) (hdigits _)

/-- What an event's message says after its place in the chain. -/
def AuditEvent.body (e : AuditEvent) : List Char :=
  e.tableName.toList ++ '|' :: (e.rowPk.toList ++ '|' :: (e.operation.toList ++ '|' ::
    (e.rebuildActorContextJson.toList ++ '|' :: (e.payloadDigest.toList ++ '|' ::
      (isoFormat e.createdAtUtc).toList))))

theorem message_toList (e : AuditEvent) : e.message.toList = e.previousHash.toList ++ '|' ::
    (e.chainScope.toList ++ '|' :: (intText e.sequenceNumber ++ '|' :: e.body)) := by
  have hbar : "|".toList = ['|'] := rfl
  simp only [AuditEvent.message, eventMessage, AuditEvent.body, intString,
    String.intercalate_cons_cons, String.intercalate_singleton, String.toList_append,
    String.toList_ofList, hbar, List.append_assoc, List.cons_append, List.nil_append]

/-- Two messages that agree put their events at one place of one chain. -/
theorem message_eq (h : r.message = e.message) (hr : Plain r.previousHash)
    (he : Plain e.previousHash) (hrs : Plain r.chainScope) (hes : Plain e.chainScope) :
    r.previousHash = e.previousHash ∧ r.chainScope = e.chainScope ∧
      r.sequenceNumber = e.sequenceNumber ∧ r.body = e.body := by
  have htext := congrArg String.toList h
  rw [message_toList, message_toList] at htext
  obtain ⟨hprev, htext⟩ := cut_inj hr he htext
  obtain ⟨hscope, htext⟩ := cut_inj hrs hes htext
  obtain ⟨hseq, hbody⟩ := cut_inj (not_bar_mem_intText _) (not_bar_mem_intText _) htext
  refine ⟨String.toList_inj.1 hprev, String.toList_inj.1 hscope, ?_, hbody⟩
  exact intText_delimited.injective noDigit_nil hseq

end Messages

section Walk

/-- Rows that follow one another and carry the tag of what they say. -/
def Sealed (signingKey previousHash : String) (n : ℤ) (es : List AuditEvent) : Prop :=
  Linked AuditEvent.sequenceNumber AuditEvent.previousHash AuditEvent.eventHash previousHash n es ∧
    ∀ e ∈ es, e.eventHash = hmacHex signingKey e.message

theorem sealed_cons {p : String} {n : ℤ} : Sealed signingKey p n (e :: es) ↔
    e.sequenceNumber = n + 1 ∧ e.previousHash = p ∧ e.eventHash = hmacHex signingKey e.message ∧
      Sealed signingKey e.eventHash (n + 1) es := by
  simp only [Sealed, Linked, List.forall_mem_cons]
  tauto

theorem expectedHash_eq (hscope : e.chainScope = chainScope) :
    expectedHash signingKey chainScope e.previousHash e = hmacHex signingKey e.message := by
  rw [← hscope]
  rfl

theorem walkEvents_of_sealed {p : String} {n : ℤ} (hscope : ∀ e ∈ es, e.chainScope = chainScope)
    (h : Sealed signingKey p n es) : walkEvents signingKey chainScope p n es =
      { chainScope := chainScope, state := .verified, eventCount := n + es.length,
        failureType := none, firstBadSequence := none,
        lastGoodHash := some (lastTag AuditEvent.eventHash p es) } := by
  induction es generalizing p n with
  | nil => simp [walkEvents, lastTag]
  | cons e es ih =>
    obtain ⟨hseq, rfl, hhash, hrest⟩ := sealed_cons.1 h
    have hhead := hscope e (List.mem_cons_self ..)
    rw [walkEvents, if_neg (not_not.2 hseq), if_neg (not_not.2 rfl), expectedHash_eq hhead,
      if_neg (not_not.2 hhash.symm), ih (fun e' he' ↦ hscope e' (List.mem_cons_of_mem _ he')) hrest,
      lastTag, List.length_cons]
    congr 1
    omega

theorem sealed_of_walkEvents {p : String} {n : ℤ} (hscope : ∀ e ∈ es, e.chainScope = chainScope)
    (h : (walkEvents signingKey chainScope p n es).state = .verified) :
    Sealed signingKey p n es := by
  induction es generalizing p n with
  | nil => exact ⟨trivial, fun e he ↦ absurd he List.not_mem_nil⟩
  | cons e es ih =>
    rw [walkEvents] at h
    by_cases hseq : e.sequenceNumber = n + 1
    · rw [if_neg (not_not.2 hseq)] at h
      by_cases hprev : e.previousHash = p
      · rw [if_neg (not_not.2 hprev)] at h
        subst hprev
        rw [expectedHash_eq (hscope e (List.mem_cons_self ..))] at h
        by_cases hhash : hmacHex signingKey e.message = e.eventHash
        · rw [if_neg (not_not.2 hhash)] at h
          exact sealed_cons.2 ⟨hseq, rfl, hhash.symm,
            ih (fun e' he' ↦ hscope e' (List.mem_cons_of_mem _ he')) h⟩
        · rw [if_pos hhash] at h
          cases h
      · rw [if_pos hprev] at h
        cases h
    · rw [if_pos hseq] at h
      cases h

/-- A row that a sealed chain from the genesis holds carries a plain hash. -/
theorem Sealed.plain_previousHash {n : ℤ} (h : Sealed signingKey "genesis" n es) (he : e ∈ es) :
    Plain e.previousHash := by
  rcases h.1.prev_eq he with hgenesis | ⟨f, hf, hprev⟩
  · rw [hgenesis]
    decide
  · rw [hprev, h.2 f hf]
    exact plain_hmacHex _ _

end Walk

section Emission

/-- A call of the emission. Class ids are UUIDs, and the protected fields are columns with values of
their types. -/
structure EmitCall where
  context : AuditContext
  request : EmitRequest
  plainClass : ∀ classId ∈ request.classId, Plain classId
  columns : ∀ p ∈ request.protectedFields, p.1 ∉ reservedKeys ∧ p.2.HasType (columnType p.1)

theorem ProtectedRow.get_hasType {row : ProtectedRow} {field : String} {v : FieldValue}
    (h : row.get field = some v) : v.HasType (columnType field) := by
  unfold ProtectedRow.get at h
  split_ifs at h with hid
  · cases h
    rw [hid]
    trivial
  · obtain ⟨before, after, hcolumns, -⟩ := List.lookup_eq_some_iff.1 h
    exact row.typed (field, v) (by simp [hcolumns])

theorem creationProofFields_unreserved (table : String) (signatureVersion : ℤ) :
    ∀ f ∈ creationProofFields table signatureVersion, f ∉ reservedKeys := by
  unfold creationProofFields
  split
  · unfold ledgerFieldsByVersion
    split <;> decide
  · unfold protectedFieldsByTable
    split <;> decide

def rowEmission (context : AuditContext) (table : String) (row : ProtectedRow) (operation : String)
    (signatureVersion : ℤ)
    (hclass : ∀ classId, row.get "class_id" = some (.text classId) → Plain classId) :
    EmitCall where
  context := context
  request := auditProtected table row operation (creationProofFields table signatureVersion)
    signatureVersion
  plainClass := by
    intro classId h
    apply hclass
    simp only [auditProtected] at h
    split at h
    · next s hs =>
      cases h
      exact hs
    · cases h
  columns := by
    intro p hp
    obtain ⟨f, hf, rfl⟩ := List.mem_map.1 hp
    refine ⟨creationProofFields_unreserved table signatureVersion f hf, ?_⟩
    cases hget : row.get f with
    | none => trivial
    | some v => exact ProtectedRow.get_hasType hget

def emitStep (signingKey : String) (S : AuditState) (c : EmitCall) : AuditState :=
  committed S (emitAuditEvent signingKey S c.context c.request)

def written (signingKey : String) (calls : List EmitCall) : AuditState :=
  run (emitStep signingKey) ⟨[], [], 0⟩ calls

def scopeRows (S : AuditState) (chainScope : String) : List AuditEvent :=
  S.events.filter (·.chainScope = chainScope)

def headBehind (chainScope : String) (rows : List AuditEvent) : Option ChainHead :=
  if rows = [] then none
  else some ⟨chainScope, lastTag AuditEvent.eventHash "genesis" rows, rows.length, rows.length⟩

/-- What the emission keeps: every scope's rows are a sealed chain with its head behind it. -/
structure WellWritten (signingKey : String) (S : AuditState) : Prop where
  chained : ∀ scope, Sealed signingKey "genesis" 0 (scopeRows S scope)
  head : ∀ scope, headOf S scope = headBehind scope (scopeRows S scope)
  plain : ∀ e ∈ S.events, Plain e.chainScope

theorem plain_resolveScope {classId : Option String} (h : ∀ c ∈ classId, Plain c) :
    Plain (resolveScope classId) := by
  unfold resolveScope
  split
  · next c hc =>
    rw [plain_append]
    exact ⟨by decide, h c (Option.mem_filter_iff.1 hc).1⟩
  · decide

theorem find?_setHead (heads : List ChainHead) (head : ChainHead) (scope : String) :
    (setHead heads head).find? (·.chainScope = scope) =
      if scope = head.chainScope then some head
      else heads.find? (·.chainScope = scope) := by
  induction heads with
  | nil =>
    by_cases hscope : scope = head.chainScope
    · simp [setHead, hscope]
    · simp [setHead, hscope, Ne.symm hscope]
  | cons h heads ih =>
    rw [setHead]
    by_cases hhead : h.chainScope = head.chainScope
    · rw [if_pos hhead]
      by_cases hscope : scope = head.chainScope
      · simp [hscope]
      · simp [hscope, hhead, Ne.symm hscope]
    · rw [if_neg hhead]
      by_cases hscope : h.chainScope = scope
      · rw [List.find?_cons_of_pos (by simp [hscope]), List.find?_cons_of_pos (by simp [hscope]),
          if_neg (fun hc ↦ hhead (hscope.trans hc))]
      · rw [List.find?_cons_of_neg (by simp [hscope]), List.find?_cons_of_neg (by simp [hscope]),
          ih]

theorem sealed_snoc {rows : List AuditEvent} {event : AuditEvent}
    (h : Sealed signingKey "genesis" 0 rows)
    (hseq : event.sequenceNumber = rows.length + 1)
    (hprev : event.previousHash = lastTag AuditEvent.eventHash "genesis" rows)
    (hhash : event.eventHash = hmacHex signingKey event.message) :
    Sealed signingKey "genesis" 0 (rows ++ [event]) := by
  refine ⟨linked_append.2 ⟨h.1, ?_, hprev, trivial⟩, fun e he ↦ ?_⟩
  · rw [hseq, zero_add]
  · rcases List.mem_append.1 he with he | he
    · exact h.2 e he
    · rw [List.mem_singleton.1 he]
      exact hhash

structure Emitted (signingKey : String) (S : AuditState) (q : EmitRequest) (event : AuditEvent)
    (S' : AuditState) (head : ChainHead) : Prop where
  found : (headOf S (resolveScope q.classId)).getD (genesisHead (resolveScope q.classId)) = head
  scope : event.chainScope = resolveScope q.classId
  sequence : event.sequenceNumber = head.latestSequence + 1
  previous : event.previousHash = head.latestHash
  hash : event.eventHash = hmacHex signingKey event.message
  payload : event.payloadDigest =
    computePayloadDigest q.tableName q.rowPk q.operation q.classId q.protectedFields
  events : S'.events = S.events ++ [event]
  heads : S'.heads = setHead S.heads
    ⟨head.chainScope, event.eventHash, event.sequenceNumber, head.eventCount + 1⟩

theorem emitAuditEvent_ok {ctx : AuditContext} {q : EmitRequest}
    (h : emitAuditEvent signingKey S ctx q = .ok (e, S')) :
    ∃ head, Emitted signingKey S q e S' head := by
  unfold emitAuditEvent at h
  split_ifs at h
  simp only [Except.ok.injEq, Prod.mk.injEq] at h
  obtain ⟨rfl, rfl⟩ := h
  exact ⟨_, rfl, rfl, rfl, rfl, rfl, rfl, rfl, rfl⟩

theorem scopeRows_append {event : AuditEvent} (hS : S'.events = S.events ++ [event])
    (scope : String) : scopeRows S' scope =
      if event.chainScope = scope then scopeRows S scope ++ [event] else scopeRows S scope := by
  rw [scopeRows, hS, List.filter_append]
  by_cases hscope : event.chainScope = scope
  · simp [hscope, scopeRows]
  · simp [hscope, scopeRows]

theorem WellWritten.head_getD (h : WellWritten signingKey S) (scope : String) :
    (headOf S scope).getD (genesisHead scope) =
      ⟨scope, lastTag AuditEvent.eventHash "genesis" (scopeRows S scope),
        (scopeRows S scope).length, (scopeRows S scope).length⟩ := by
  rw [h.head, headBehind]
  by_cases hempty : scopeRows S scope = []
  · rw [if_pos hempty, hempty]
    rfl
  · rw [if_neg hempty]
    rfl

theorem WellWritten.emitted {c : EmitCall} {head : ChainHead} (h : WellWritten signingKey S)
    (he : Emitted signingKey S c.request e S' head) : WellWritten signingKey S' := by
  have hfound := he.found
  rw [h.head_getD] at hfound
  subst hfound
  have hsealed : Sealed signingKey "genesis" 0
      (scopeRows S (resolveScope c.request.classId) ++ [e]) :=
    sealed_snoc (h.chained _) he.sequence he.previous he.hash
  refine ⟨fun scope ↦ ?_, fun scope ↦ ?_, fun f hf ↦ ?_⟩
  · rw [scopeRows_append he.events]
    by_cases hscope : e.chainScope = scope
    · rw [if_pos hscope, ← hscope, he.scope]
      exact hsealed
    · rw [if_neg hscope]
      exact h.chained scope
  · rw [headOf, he.heads, find?_setHead, scopeRows_append he.events, he.scope]
    by_cases hscope : scope = resolveScope c.request.classId
    · subst hscope
      rw [if_pos rfl, if_pos rfl, headBehind, if_neg (by simp), he.sequence, lastTag_snoc,
        List.length_append, List.length_singleton, Nat.cast_add, Nat.cast_one]
    · rw [if_neg hscope, if_neg (Ne.symm hscope)]
      exact h.head scope
  · rw [he.events] at hf
    rcases List.mem_append.1 hf with hf | hf
    · exact h.plain f hf
    · rw [List.mem_singleton.1 hf, he.scope]
      exact plain_resolveScope c.plainClass

theorem wellWritten (signingKey : String) (calls : List EmitCall) :
    WellWritten signingKey (written signingKey calls) := by
  apply run_invariant
  · exact ⟨fun _ ↦ ⟨trivial, fun e he ↦ absurd he List.not_mem_nil⟩, fun _ ↦ rfl,
      fun e he ↦ absurd he List.not_mem_nil⟩
  · intro S c h
    unfold emitStep
    cases hcall : emitAuditEvent signingKey S c.context c.request with
    | error e => exact h
    | ok out =>
      obtain ⟨event, S'⟩ := out
      obtain ⟨head, he⟩ := emitAuditEvent_ok hcall
      exact h.emitted he

end Emission

section Tampering

/-- No row carries the tag of a message that the service has not signed. -/
def Unforged (signingKey : String) (S S' : AuditState) : Prop :=
  ∀ r ∈ S'.events, r.eventHash = hmacHex signingKey r.message → ∃ e ∈ S.events,
    r.message = e.message

/-- A row's place in its chain, its tag and the message that the tag is of. -/
structure SignedPart where
  sequenceNumber : ℤ
  previousHash : String
  eventHash : String
  message : String
deriving DecidableEq, Repr

def AuditEvent.signedPart (e : AuditEvent) : SignedPart :=
  ⟨e.sequenceNumber, e.previousHash, e.eventHash, e.message⟩

theorem WellWritten.orderedEvents_eq (h : WellWritten signingKey S) (chainScope : String) :
    orderedEvents S chainScope = scopeRows S chainScope := by
  apply List.mergeSort_of_pairwise
  refine (h.chained chainScope).1.pairwise.imp fun hlt ↦ ?_
  exact decide_eq_true hlt.le

theorem orderedEvents_scope (he : e ∈ orderedEvents S chainScope) :
    e ∈ S.events ∧ e.chainScope = chainScope := by
  rw [orderedEvents, List.mem_mergeSort, List.mem_filter, decide_eq_true_eq] at he
  exact he

/-- Where no tag is forged, a sealed row of a scope says what a written row of the scope says. -/
theorem WellWritten.signedPart_eq (h : WellWritten signingKey S) (hunforged : Unforged signingKey S S')
    {n : ℤ} (hplain : Plain chainScope) (hes : Sealed signingKey "genesis" n es) (hr : r ∈ es)
    (hmem : r ∈ S'.events) (hscope : r.chainScope = chainScope) :
    ∃ e ∈ scopeRows S chainScope, r.signedPart = e.signedPart ∧ r.body = e.body := by
  obtain ⟨e, he, hmessage⟩ := hunforged r hmem (hes.2 r hr)
  have hchain := h.chained e.chainScope
  have hrow : e ∈ scopeRows S e.chainScope := by simp [scopeRows, he]
  obtain ⟨hprev, hsame, hseq, hbody⟩ := message_eq hmessage (hes.plain_previousHash hr)
    (hchain.plain_previousHash hrow) (hscope ▸ hplain) (h.plain e he)
  refine ⟨e, ?_, ?_, hbody⟩
  · rw [← hscope, hsame]
    exact hrow
  · rw [AuditEvent.signedPart, AuditEvent.signedPart, hseq, hprev, hmessage, hes.2 r hr,
      hchain.2 e hrow, hmessage]

theorem signedPart_links {r e : AuditEvent} (h : r.signedPart = e.signedPart) :
    r.sequenceNumber = e.sequenceNumber ∧ r.previousHash = e.previousHash ∧
      r.eventHash = e.eventHash := by
  simp only [AuditEvent.signedPart, SignedPart.mk.injEq] at h
  exact ⟨h.1, h.2.1, h.2.2.1⟩

/-- Where no tag is forged, rows of a scope are sealed where they say, one by one, what the rows
first written say. -/
theorem WellWritten.sealed_iff (h : WellWritten signingKey S) (hunforged : Unforged signingKey S S')
    (hplain : Plain chainScope) (hmem : ∀ r ∈ es, r ∈ S'.events ∧ r.chainScope = chainScope) :
    Sealed signingKey "genesis" 0 es ↔
      es.map AuditEvent.signedPart <+: (scopeRows S chainScope).map AuditEvent.signedPart := by
  have hchain := h.chained chainScope
  constructor
  · intro hes
    apply hes.1.content_extends hchain.1 (fun r e hre ↦ (signedPart_links hre).1)
    intro r hr
    obtain ⟨e, he, hre, -⟩ :=
      h.signedPart_eq hunforged hplain hes hr (hmem r hr).1 (hmem r hr).2
    exact ⟨e, he, hre⟩
  · intro hpre
    refine ⟨hchain.1.of_extended (fun r e hre ↦ signedPart_links hre) hpre, fun r hr ↦ ?_⟩
    obtain ⟨e, he, hre⟩ := List.mem_map.1 (hpre.subset (List.mem_map_of_mem hr))
    simp only [AuditEvent.signedPart, SignedPart.mk.injEq] at hre
    rw [← hre.2.2.1, ← hre.2.2.2]
    exact hchain.2 e he

theorem walkEvents_chainScope (p : String) (n : ℤ) (es : List AuditEvent) :
    (walkEvents signingKey chainScope p n es).chainScope = chainScope := by
  induction es generalizing p n with
  | nil => rfl
  | cons e es ih =>
    rw [walkEvents]
    split_ifs
    · rfl
    · rfl
    · rfl
    · exact ih _ _

theorem verifyChain_chainScope (limit : ℕ) :
    (verifyChain signingKey S chainScope limit).chainScope = chainScope := by
  unfold verifyChain
  split
  · rfl
  · exact walkEvents_chainScope _ _ _

/-- The check vouches for a scope where it verifies the first thousand rows of it. -/
theorem reports_verified_iff :
    (∃ res ∈ runFullInvariantCheck signingKey S, res.chainScope = chainScope ∧
      res.state = .verified) ↔
    (headOf S chainScope).isSome ∧
      Sealed signingKey "genesis" 0 ((orderedEvents S chainScope).take 1000) := by
  have hscope : ∀ e ∈ (orderedEvents S chainScope).take 1000, e.chainScope = chainScope :=
    fun e he ↦ (orderedEvents_scope (List.mem_of_mem_take he)).2
  constructor
  · rintro ⟨res, hres, hsame, hstate⟩
    obtain ⟨h, hh, rfl⟩ := List.mem_map.1 hres
    rw [verifyChain_chainScope] at hsame
    subst hsame
    unfold verifyChain at hstate
    split at hstate
    · cases hstate
    · next head hhead =>
      rw [hhead]
      exact ⟨rfl, sealed_of_walkEvents hscope hstate⟩
  · rintro ⟨hhead, hsealed⟩
    obtain ⟨head, hhead⟩ := Option.isSome_iff_exists.1 hhead
    have hfound : head.chainScope = chainScope := by simpa using List.find?_some hhead
    refine ⟨verifyChain signingKey S chainScope 1000, ?_, verifyChain_chainScope _, ?_⟩
    · rw [← hfound]
      exact List.mem_map.2 ⟨head, List.mem_of_find?_eq_some hhead, rfl⟩
    · rw [verifyChain, hhead]
      dsimp only
      rw [walkEvents_of_sealed hscope hsealed]

theorem Sealed.take {n : ℤ} {p : String} (h : Sealed signingKey p n es) (k : ℕ) :
    Sealed signingKey p n (es.take k) := by
  rw [← List.take_append_drop k es] at h
  exact ⟨(linked_append.1 h.1).1, fun e he ↦ h.2 e (List.mem_append_left _ he)⟩

/-- The check verifies every chain that the service writes. Of a chain then tampered with, under
the head that was left, it vouches for more than what was written just where rows were cut off the
end, changed behind the first thousand, or changed in what their tags do not cover. -/
theorem audit_check_vouches (signingKey : String) (calls : List EmitCall) :
    (∀ res ∈ runFullInvariantCheck signingKey (written signingKey calls),
      res.state = .verified) ∧
    ∀ S' chainScope, S'.heads = (written signingKey calls).heads →
      Unforged signingKey (written signingKey calls) S' →
      (((∃ res ∈ runFullInvariantCheck signingKey S', res.chainScope = chainScope ∧
            res.state = .verified) →
          orderedEvents S' chainScope = scopeRows (written signingKey calls) chainScope) ↔
        (orderedEvents S' chainScope = scopeRows (written signingKey calls) chainScope ∨
          ¬ ((orderedEvents S' chainScope).take 1000).map AuditEvent.signedPart <+:
            (scopeRows (written signingKey calls) chainScope).map AuditEvent.signedPart)) := by
  have h := wellWritten signingKey calls
  generalize written signingKey calls = S at h
  constructor
  · intro res hres
    obtain ⟨head, hhead, rfl⟩ := List.mem_map.1 hres
    have hfound : (headOf S head.chainScope).isSome := by
      rw [headOf, List.find?_isSome]
      exact ⟨head, hhead, by simp⟩
    obtain ⟨head', hhead'⟩ := Option.isSome_iff_exists.1 hfound
    have hsealed : Sealed signingKey "genesis" 0 ((orderedEvents S head.chainScope).take 1000) := by
      rw [h.orderedEvents_eq]
      exact (h.chained _).take _
    rw [verifyChain, hhead']
    dsimp only
    rw [walkEvents_of_sealed (fun e he ↦ (orderedEvents_scope (List.mem_of_mem_take he)).2) hsealed]
  · intro S' chainScope hheads hunforged
    rw [reports_verified_iff]
    have hhead : headOf S' chainScope = headBehind chainScope (scopeRows S chainScope) := by
      rw [← h.head, headOf, headOf, hheads]
    by_cases hempty : scopeRows S chainScope = []
    · rw [hhead, headBehind, if_pos hempty, hempty]
      simp only [Option.isSome_none, Bool.false_eq_true, false_and, false_imp_iff, true_iff,
        List.map_nil, List.prefix_nil, List.map_eq_nil_iff, List.take_eq_nil_iff]
      tauto
    · have hplain : Plain chainScope := by
        obtain ⟨e, he⟩ := List.exists_mem_of_ne_nil _ hempty
        rw [scopeRows, List.mem_filter, decide_eq_true_eq] at he
        rw [← he.2]
        exact h.plain e he.1
      rw [hhead, headBehind, if_neg hempty, h.sealed_iff hunforged hplain
        fun r hr ↦ orderedEvents_scope (List.mem_of_mem_take hr)]
      simp only [Option.isSome_some, true_and]
      tauto

end Tampering

section Samples

def samplePayroll (id : ℤ) : ProtectedRow where
  id := id
  columns := [("class_id", .text "c"), ("payroll_cycle_id", .null), ("actor_seat_id", .num 1),
    ("target_seat_id", .num 2), ("correlation_id", .text "run-1"), ("idempotency_key", .text "i"),
    ("policy_uuid", .null), ("mechanism", .text "TEACHER"),
    ("payroll_event_type", .text "manual_credit"), ("recorded_at", .instant 0),
    ("summary_json", .json (.obj []))]
  typed := by simp [columnType, FieldValue.HasType, Storable]
  lineageEventId := none
  lineageToken := none
  lineageVersion := none

def sampleEmission (id : ℤ) : EmitCall :=
  rowEmission ⟨false, some ("FEAT-PROD-003", "run-1"), 0⟩ "payroll_event" (samplePayroll id)
    "INSERT" 1 fun classId h ↦ by
      cases h
      decide

def sampleFirst : EmitCall := sampleEmission 1

def sampleSecond : EmitCall := sampleEmission 2

def AuditState.withHeads (S : AuditState) (heads : List ChainHead) : AuditState :=
  { S with heads := heads }

@[simp] theorem withHeads_heads (S : AuditState) (heads : List ChainHead) :
    (S.withHeads heads).heads = heads := rfl

@[simp] theorem withHeads_events (S : AuditState) (heads : List ChainHead) :
    (S.withHeads heads).events = S.events := rfl

/-- Two events were written, and the last of them is gone. -/
def sampleCut : AuditState :=
  (written "k" [sampleFirst]).withHeads (written "k" [sampleFirst, sampleSecond]).heads

theorem emitStep_events (S : AuditState) (c : EmitCall) :
    S.events <+: (emitStep signingKey S c).events := by
  unfold emitStep
  cases hcall : emitAuditEvent signingKey S c.context c.request with
  | error e => exact List.prefix_rfl
  | ok out =>
    obtain ⟨event, S'⟩ := out
    obtain ⟨head, he⟩ := emitAuditEvent_ok hcall
    rw [committed_ok, he.events]
    exact List.prefix_append _ _

theorem written_snoc (signingKey : String) (calls : List EmitCall) (c : EmitCall) :
    written signingKey (calls ++ [c]) = emitStep signingKey (written signingKey calls) c := by
  rw [written, run_append]
  rfl

theorem emitStep_scopeRows {c : EmitCall} (hkey : signingKey ≠ "")
    (hfeat : c.context.feat ≠ none) (S : AuditState) :
    ∃ e, scopeRows (emitStep signingKey S c) (resolveScope c.request.classId) =
      scopeRows S (resolveScope c.request.classId) ++ [e] := by
  unfold emitStep
  cases hcall : emitAuditEvent signingKey S c.context c.request with
  | error e =>
    rw [emitAuditEvent, if_neg hkey, if_neg (fun hc ↦ hfeat hc.2)] at hcall
    cases hcall
  | ok out =>
    obtain ⟨event, S'⟩ := out
    obtain ⟨head, he⟩ := emitAuditEvent_ok hcall
    refine ⟨event, ?_⟩
    rw [committed_ok, scopeRows_append he.events, if_pos he.scope]

theorem sampleSecond_scopeRows : ∃ e,
    scopeRows (written "k" [sampleFirst, sampleSecond]) "class:c" =
      scopeRows (written "k" [sampleFirst]) "class:c" ++ [e] := by
  have hsnoc := written_snoc "k" [sampleFirst] sampleSecond
  rw [List.singleton_append] at hsnoc
  rw [hsnoc]
  exact emitStep_scopeRows (by decide) (by decide) _

theorem sampleCut_heads : sampleCut.heads = (written "k" [sampleFirst, sampleSecond]).heads := by
  rw [sampleCut, withHeads_heads]

theorem unforged_sampleCut : Unforged "k" (written "k" [sampleFirst, sampleSecond]) sampleCut := by
  intro r hr _
  rw [sampleCut, withHeads_events] at hr
  have hsnoc := written_snoc "k" [sampleFirst] sampleSecond
  rw [List.singleton_append] at hsnoc
  rw [hsnoc]
  exact ⟨r, (emitStep_events _ _).subset hr, rfl⟩

/-- A chain whose end was cut off is verified. -/
theorem cut_chain_verified : sampleCut.heads = (written "k" [sampleFirst, sampleSecond]).heads ∧
    Unforged "k" (written "k" [sampleFirst, sampleSecond]) sampleCut ∧
    (∃ res ∈ runFullInvariantCheck "k" sampleCut, res.chainScope = "class:c" ∧
      res.state = .verified) ∧
    orderedEvents sampleCut "class:c" ≠
      scopeRows (written "k" [sampleFirst, sampleSecond]) "class:c" := by
  have hrows : orderedEvents sampleCut "class:c" =
      scopeRows (written "k" [sampleFirst]) "class:c" := by
    rw [← (wellWritten "k" [sampleFirst]).orderedEvents_eq, orderedEvents, orderedEvents, sampleCut,
      withHeads_events]
  obtain ⟨e, hsecond⟩ := sampleSecond_scopeRows
  refine ⟨sampleCut_heads, unforged_sampleCut, reports_verified_iff.2 ⟨?_, ?_⟩, ?_⟩
  · rw [headOf, sampleCut_heads, ← headOf, (wellWritten "k" _).head, headBehind, hsecond,
      if_neg (by simp), Option.isSome_some]
  · rw [hrows]
    exact ((wellWritten "k" [sampleFirst]).chained _).take _
  · rw [hrows, hsecond]
    simp

theorem audit_check_vouches_cut :
    ((∃ res ∈ runFullInvariantCheck "k" sampleCut, res.chainScope = "class:c" ∧
          res.state = .verified) →
        orderedEvents sampleCut "class:c" =
          scopeRows (written "k" [sampleFirst, sampleSecond]) "class:c") ↔
      (orderedEvents sampleCut "class:c" =
          scopeRows (written "k" [sampleFirst, sampleSecond]) "class:c" ∨
        ¬ ((orderedEvents sampleCut "class:c").take 1000).map AuditEvent.signedPart <+:
          (scopeRows (written "k" [sampleFirst, sampleSecond]) "class:c").map
            AuditEvent.signedPart) :=
  (audit_check_vouches "k" [sampleFirst, sampleSecond]).2 sampleCut "class:c" sampleCut_heads
    unforged_sampleCut

end Samples

end TokenHub.Audit
