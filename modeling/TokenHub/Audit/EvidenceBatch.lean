import TokenHub.Audit.EvidenceRuns

set_option autoImplicit false

namespace TokenHub.Audit

open Ledger Lib.Chain Lib.Checks

section Whole

structure Whole (signingKey : String) (S : AuditState) (chainScope : String) (head : ChainHead) :
    Prop where
  found : headOf S chainScope = some head
  chained : Sealed signingKey "genesis" 0 (orderedEvents S chainScope)
  latest : head.latestSequence = (orderedEvents S chainScope).length
  count : head.eventCount = (orderedEvents S chainScope).length
  hash : lastTag AuditEvent.eventHash "genesis" (orderedEvents S chainScope) = head.latestHash

variable {signingKey : String} {S : AuditState} {chainScope : String} {head : ChainHead}

theorem mem_take_orderedEvents {limit : ℕ} {e : AuditEvent}
    (he : e ∈ (orderedEvents S chainScope).take limit) : e.chainScope = chainScope :=
  (orderedEvents_scope (List.mem_of_mem_take he)).2

/-- The single proof asks of a chain that it stand whole behind its head. -/
theorem whole_iff_verified (hhead : headOf S chainScope = some head) :
    ((verifyChain signingKey S chainScope (head.latestSequence + 1).toNat).state = .verified ∧
      (verifyChain signingKey S chainScope (head.latestSequence + 1).toNat).eventCount =
        head.latestSequence ∧
      (verifyChain signingKey S chainScope (head.latestSequence + 1).toNat).lastGoodHash =
        some head.latestHash ∧
      head.eventCount =
        (verifyChain signingKey S chainScope (head.latestSequence + 1).toNat).eventCount) ↔
      Whole signingKey S chainScope head := by
  have hfull : Sealed signingKey "genesis" 0 (orderedEvents S chainScope) →
      (orderedEvents S chainScope).length ≤ (head.latestSequence + 1).toNat →
        verifyChain signingKey S chainScope (head.latestSequence + 1).toNat =
          { chainScope := chainScope, state := .verified,
            eventCount := (orderedEvents S chainScope).length, failureType := none,
            firstBadSequence := none,
            lastGoodHash := some (lastTag AuditEvent.eventHash "genesis"
              (orderedEvents S chainScope)) } := by
    intro hsealed hlen
    rw [verifyChain, hhead]
    dsimp only
    rw [List.take_of_length_le hlen,
      walkEvents_of_sealed (fun e he ↦ (orderedEvents_scope he).2) hsealed, zero_add]
  constructor
  · rintro ⟨hstate, hcount, hhash, heventCount⟩
    have hsealed := verifyChain_full hhead hstate hcount
    have hlen : (orderedEvents S chainScope).length ≤ (head.latestSequence + 1).toNat := by
      have hread := hcount
      rw [verifyChain, hhead] at hread
      dsimp only at hread
      rw [walkEvents_of_sealed (fun e he ↦ mem_take_orderedEvents he) (hsealed.take _)] at hread
      simp only [List.length_take] at hread
      omega
    rw [hfull hsealed hlen] at hcount hhash heventCount
    exact ⟨hhead, hsealed, hcount.symm, heventCount, Option.some.inj hhash⟩
  · intro h
    have hlen : (orderedEvents S chainScope).length ≤ (head.latestSequence + 1).toNat := by
      have := h.latest
      omega
    rw [hfull h.chained hlen]
    exact ⟨rfl, h.latest.symm, congrArg some h.hash, h.count⟩

end Whole

section Single

variable {signingKey : String} {S : AuditState} {table classId : String} {row : ProtectedRow}
  {requiredFields : List String} {ev : VerifiedCreationEvidence}

theorem verifyRowLineage_verified_iff {pointer : ℕ} {event : AuditEvent}
    (hpointer : row.lineageEventId = some pointer)
    (hevent : S.events.find? (·.id = pointer) = some event) :
    (verifyRowLineage S table row).state = .verified ↔
      (table = "ledger_transaction" → event.signatureVersion = 2 ∨ event.signatureVersion = 3) ∧
        creationProofFields table event.signatureVersion ≠ [] ∧
        ∃ values, currentValues row (creationProofFields table event.signatureVersion) =
            some values ∧
          computePayloadDigest event.tableName event.rowPk event.operation event.classId values =
            event.payloadDigest := by
  simp only [verifyRowLineage, hpointer, hevent]
  split_ifs with hversion hknown
  · simp only [false_iff]
    rintro ⟨hledger, -⟩
    rcases hledger hversion.1 with htwo | hthree
    · exact hversion.2.1 htwo
    · exact hversion.2.2 hthree
  · simp [hknown]
  · have hledger : table = "ledger_transaction" →
        event.signatureVersion = 2 ∨ event.signatureVersion = 3 := by
      intro htable
      by_contra hnot
      push Not at hnot
      exact hversion ⟨htable, hnot⟩
    cases hvalues : currentValues row (creationProofFields table event.signatureVersion) with
    | none => simp
    | some values =>
      dsimp only
      split_ifs with hdigest
      · simp [hdigest]
      · simp only [true_iff]
        exact ⟨hledger, hknown, values, rfl, not_not.1 hdigest⟩

/-- The evidence of one row: its chain stands whole, and the row meets the checks that a batch
makes of it. -/
theorem verifiedCreationEvidence_eq_some_iff :
    verifiedCreationEvidence signingKey S table row classId requiredFields = some ev ↔
      ∃ head, Whole signingKey S ("class:" ++ classId) head ∧
        rowCreationEvidence table row classId
          (row.lineageEventId.bind (fun pointer ↦ S.events.find? (·.id = pointer)))
          head.latestSequence requiredFields = some ev := by
  simp only [verifiedCreationEvidence, rowCreationEvidence, Option.bind_eq_bind,
    Option.bind_eq_some_iff, Option.pure_def, Option.some.injEq, Option.guard_eq_some']
  constructor
  · rintro ⟨-, hverified, pointer, hpointer, token, htoken, event, hevent, values, hvalues, rfl⟩
    simp only [verifyRecordCreationLineage, hpointer, Option.bind_some, hevent] at hverified
    split_ifs at hverified with hlinks
    cases hhead : headOf S event.chainScope with
    | none =>
      rw [hhead] at hverified
      cases hverified
    | some head =>
      simp only [hhead, decide_eq_true_eq] at hverified
      obtain ⟨hplace, hstate, hcount, hhash, heventCount, hrow⟩ := hverified
      have hscope : event.chainScope = "class:" ++ classId := by
        have h := hlinks.1
        simp only [linksCreation, decide_eq_true_eq] at h
        exact h.2.2.2.1
      obtain ⟨hledger, hknown, values', hvalues', hdigest⟩ :=
        (verifyRowLineage_verified_iff hpointer hevent).1 hrow
      obtain rfl := Option.some.inj (hvalues'.symm.trans hvalues)
      refine ⟨head, hscope ▸ (whole_iff_verified hhead).1 ⟨hstate, hcount, hhash, heventCount⟩, ?_⟩
      exact ⟨pointer, hpointer, token, htoken, event, ⟨pointer, hpointer, hevent⟩, (),
        ⟨by simpa using List.find?_some hevent, hlinks.1, hplace⟩, (), hledger, (),
        ⟨hknown, hlinks.2.1⟩, values', hvalues, (), hdigest, rfl⟩
  · rintro ⟨head, hwhole, pointer, hpointer, token, htoken, event, ⟨pointer', hpointer', hevent⟩, -,
      ⟨-, hlinks, hplace⟩, -, hledger, -, ⟨hknown, hrequired⟩, values, hvalues, -, hdigest, rfl⟩
    obtain rfl := Option.some.inj (hpointer'.symm.trans hpointer)
    have hscope : event.chainScope = "class:" ++ classId := by
      have h := hlinks
      simp only [linksCreation, decide_eq_true_eq] at h
      exact h.2.2.2.1
    refine ⟨(), ?_, pointer', hpointer, token, htoken, event, hevent, values, hvalues, rfl⟩
    simp only [verifyRecordCreationLineage, hpointer, Option.bind_some, hevent]
    rw [← hscope] at hwhole
    rw [if_pos ⟨hlinks, hrequired, by rw [hvalues]; rfl⟩, hwhole.found]
    obtain ⟨hstate, hcount, hhash, heventCount⟩ := (whole_iff_verified hwhole.found).2 hwhole
    simp only [decide_eq_true_eq]
    exact ⟨hplace, hstate, hcount, hhash, heventCount,
      (verifyRowLineage_verified_iff hpointer hevent).2 ⟨hledger, hknown, values, hvalues, hdigest⟩⟩

end Single

section Batch

variable {signingKey : String} {S : AuditState} {chainScope classId : String} {head : ChainHead}

theorem walkBatch_of_sealed {limit n : ℕ} {p : String} {es : List AuditEvent}
    (hscope : ∀ e ∈ es, e.chainScope = chainScope) (h : Sealed signingKey p n es)
    (hlimit : n + es.length ≤ limit) :
    walkBatch signingKey chainScope limit p n es =
      .ok (n + es.length, lastTag AuditEvent.eventHash p es) := by
  induction es generalizing p n with
  | nil => rfl
  | cons e es ih =>
    obtain ⟨hseq, hprev, hhash, hrest⟩ := sealed_cons.1 h
    rw [List.length_cons] at hlimit
    have hplace : ¬ (e.sequenceNumber ≠ (n + 1 : ℕ) ∨ e.previousHash ≠ p) := by
      push Not
      exact ⟨by rw [hseq]; push_cast; rfl, hprev⟩
    have hexpected : ¬ expectedHash signingKey chainScope p e ≠ e.eventHash := by
      rw [← hprev, expectedHash_eq (hscope e List.mem_cons_self)]
      exact not_not.2 hhash.symm
    rw [walkBatch, if_neg (by omega), if_neg hplace, if_neg hexpected,
      ih (fun e' he' ↦ hscope e' (List.mem_cons_of_mem e he')) (by exact_mod_cast hrest) (by omega),
      lastTag, List.length_cons]
    congr 2
    omega

theorem walkBatch_ok {limit n m : ℕ} {p last : String} {es : List AuditEvent}
    (h : walkBatch signingKey chainScope limit p n es = .ok (m, last)) :
    m = n + es.length ∧ last = lastTag AuditEvent.eventHash p es := by
  induction es generalizing p n with
  | nil =>
    rw [walkBatch, Except.ok.injEq, Prod.mk.injEq] at h
    exact ⟨h.1.symm, h.2.symm⟩
  | cons e es ih =>
    rw [walkBatch] at h
    split_ifs at h with hlimit hplace hhash
    obtain ⟨hm, hlast⟩ := ih h
    rw [List.length_cons]
    exact ⟨by omega, hlast⟩

/-- An id names one event, so the chain of a scope holds the event that an id names, or none. -/
theorem find?_orderedEvents (hids : (S.events.map (·.id)).Nodup) (pointer : ℕ) :
    (orderedEvents S chainScope).reverse.find? (·.id = pointer) =
      (S.events.find? (·.id = pointer)).filter (·.chainScope = chainScope) := by
  have hmem : ∀ {e : AuditEvent}, (orderedEvents S chainScope).reverse.find? (·.id = pointer) =
      some e → S.events.find? (·.id = pointer) = some e ∧ e.chainScope = chainScope := by
    intro e he
    obtain ⟨hstored, hscope⟩ :=
      orderedEvents_scope (List.mem_reverse.1 (List.mem_of_find?_eq_some he))
    have hid : e.id = pointer := by simpa using List.find?_some he
    refine ⟨?_, hscope⟩
    cases hfind : S.events.find? (·.id = pointer) with
    | none =>
      have hnot := List.find?_eq_none.1 hfind e hstored
      exact absurd hid (by simpa using hnot)
    | some e' =>
      have hid' : e'.id = pointer := by simpa using List.find?_some hfind
      rw [List.inj_on_of_nodup_map hids (List.mem_of_find?_eq_some hfind) hstored
        (hid'.trans hid.symm)]
  cases hchain : (orderedEvents S chainScope).reverse.find? (·.id = pointer) with
  | some e =>
    obtain ⟨hfind, hscope⟩ := hmem hchain
    rw [hfind, Option.filter_some, if_pos (decide_eq_true hscope)]
  | none =>
    cases hfind : S.events.find? (·.id = pointer) with
    | none => rfl
    | some e =>
      by_cases hscope : e.chainScope = chainScope
      · have hid : e.id = pointer := by simpa using List.find?_some hfind
        have hin : e ∈ (orderedEvents S chainScope).reverse := by
          rw [List.mem_reverse, orderedEvents, List.mem_mergeSort, List.mem_filter]
          exact ⟨List.mem_of_find?_eq_some hfind, by simpa using hscope⟩
        have hnot := List.find?_eq_none.1 hchain e hin
        exact absurd hid (by simpa using hnot)
      · rw [Option.filter_some, if_neg (by simpa using hscope)]

theorem rowCreationEvidence_filter (table : String) (row : ProtectedRow)
    (event : Option AuditEvent) (latest : ℤ) (requiredFields : List String) :
    rowCreationEvidence table row classId (event.filter (·.chainScope = "class:" ++ classId)) latest
        requiredFields =
      rowCreationEvidence table row classId event latest requiredFields := by
  cases event with
  | none => rfl
  | some e =>
    by_cases hscope : e.chainScope = "class:" ++ classId
    · rw [Option.filter_some, if_pos (decide_eq_true hscope)]
    · have hlinks : linksCreation table row classId e = false := by
        simp [linksCreation, hscope]
      rw [Option.filter_some, if_neg (by simpa using hscope)]
      simp [rowCreationEvidence, hlinks, guard]

theorem creationEvidenceBatch_whole {items : List (String × ProtectedRow)}
    {requiredFields : List String} {limit : ℕ} (hkey : signingKey ≠ "")
    (hids : (S.events.map (·.id)).Nodup) (hlimit : head.latestSequence ≤ limit)
    (hwhole : Whole signingKey S ("class:" ++ classId) head)
    (hlinked : items.all (·.2.lineageEventId.isNone) = false) :
    (creationEvidenceBatch signingKey S items classId requiredFields limit).evidence =
      items.map (fun item ↦
        verifiedCreationEvidence signingKey S item.1 item.2 classId requiredFields) := by
  have hlatest := hwhole.latest
  have hcount := hwhole.count
  have hlen : (orderedEvents S ("class:" ++ classId)).length ≤ limit := by omega
  have htake : (orderedEvents S ("class:" ++ classId)).take (limit + 1) =
      orderedEvents S ("class:" ++ classId) := List.take_of_length_le (by omega)
  have hwalk : walkBatch signingKey ("class:" ++ classId) limit "genesis" 0
      (orderedEvents S ("class:" ++ classId)) =
        .ok ((orderedEvents S ("class:" ++ classId)).length, head.latestHash) := by
    have hsealed : Sealed signingKey "genesis" ((0 : ℕ) : ℤ)
        (orderedEvents S ("class:" ++ classId)) := hwhole.chained
    rw [walkBatch_of_sealed (fun e he ↦ (orderedEvents_scope he).2) hsealed (by omega),
      hwhole.hash, Nat.zero_add]
  have hrow : ∀ item : String × ProtectedRow,
      rowCreationEvidence item.1 item.2 classId (item.2.lineageEventId.bind (fun pointer ↦
          (orderedEvents S ("class:" ++ classId)).reverse.find? (·.id = pointer)))
          head.latestSequence requiredFields =
        verifiedCreationEvidence signingKey S item.1 item.2 classId requiredFields := by
    intro item
    have hfound : item.2.lineageEventId.bind (fun pointer ↦
        (orderedEvents S ("class:" ++ classId)).reverse.find? (·.id = pointer)) =
          (item.2.lineageEventId.bind (fun pointer ↦ S.events.find? (·.id = pointer))).filter
            (·.chainScope = "class:" ++ classId) := by
      cases item.2.lineageEventId with
      | none => rfl
      | some pointer => exact find?_orderedEvents hids pointer
    rw [hfound, rowCreationEvidence_filter]
    apply Option.ext
    intro ev
    rw [verifiedCreationEvidence_eq_some_iff]
    constructor
    · exact fun h ↦ ⟨head, hwhole, h⟩
    · rintro ⟨head', hwhole', h⟩
      rwa [Option.some.inj (hwhole'.found.symm.trans hwhole.found)] at h
  unfold creationEvidenceBatch
  simp only
  rw [htake, if_neg (by rw [hlinked]; exact Bool.false_ne_true), if_neg hkey, hwhole.found]
  dsimp only
  rw [if_neg (by omega), if_neg (by omega), hwalk]
  dsimp only
  rw [if_neg (by rw [hlatest, hcount]; simp)]
  exact List.map_congr_left (fun item _ ↦ hrow item)

theorem creationEvidenceBatch_not_whole {items : List (String × ProtectedRow)}
    {requiredFields : List String} {limit : ℕ}
    (h : ∀ head, ¬ Whole signingKey S ("class:" ++ classId) head) :
    (creationEvidenceBatch signingKey S items classId requiredFields limit).evidence =
      items.map (fun _ ↦ none) := by
  unfold creationEvidenceBatch
  simp only
  split_ifs
  · rfl
  · rfl
  · split
    · rfl
    · next head hhead =>
      split_ifs with hmalformed hover
      · rfl
      · rfl
      · split
        · rfl
        · next walked previous hwalk =>
          split_ifs with hmismatch
          · rfl
          · exfalso
            push Not at hmismatch hover
            obtain ⟨hlatest, hcount, hhash⟩ := hmismatch
            have hsealed := sealed_of_walkBatch (fun e he ↦ mem_take_orderedEvents he) hwalk
            obtain ⟨hwalked, hlast⟩ := walkBatch_ok hwalk
            rw [List.length_take] at hwalked
            have hall : (orderedEvents S ("class:" ++ classId)).take (limit + 1) =
                orderedEvents S ("class:" ++ classId) := by
              apply List.take_of_length_le
              omega
            rw [hall] at hsealed hlast
            refine h head ⟨hhead, hsealed, ?_, ?_, ?_⟩
            · omega
            · omega
            · rw [← hlast, hhash]

/-- A batch within its budgets gives each request what the single proof gives it, where the
signing key is configured. -/
theorem batch_evidence_agrees (signingKey : String) (hkey : signingKey ≠ "") (S : AuditState)
    (hids : (S.events.map (·.id)).Nodup) (items : List (String × ProtectedRow)) (classId : String)
    (hclass : classId ≠ "") (requiredFields : List String) (maxChainEvents maxRows : ℤ)
    (hevents : 1 ≤ maxChainEvents ∧ maxChainEvents ≤ creationProofMaxChainEvents)
    (hrows : 1 ≤ maxRows ∧ maxRows ≤ creationProofMaxRows) (hitems : items.length ≤ maxRows)
    (hchain : ∀ head, headOf S ("class:" ++ classId) = some head →
      head.latestSequence ≤ maxChainEvents) :
    ∃ batch, verifiedCreationEvidences signingKey S items classId requiredFields maxChainEvents
        maxRows = .ok batch ∧
      batch.evidence = items.map (fun item ↦
        verifiedCreationEvidence signingKey S item.1 item.2 classId requiredFields) := by
  unfold verifiedCreationEvidences
  rw [if_neg (by omega), if_neg hclass, if_neg (by omega)]
  split_ifs with hempty
  · subst hempty
    exact ⟨_, rfl, rfl⟩
  · refine ⟨_, rfl, ?_⟩
    have hnone : (∀ item ∈ items, verifiedCreationEvidence signingKey S item.1 item.2 classId
        requiredFields = none) → items.map (fun _ ↦ none) = items.map (fun item ↦
          verifiedCreationEvidence signingKey S item.1 item.2 classId requiredFields) :=
      fun h ↦ List.map_congr_left (fun item hitem ↦ (h item hitem).symm)
    by_cases hwhole : ∃ head, Whole signingKey S ("class:" ++ classId) head
    · obtain ⟨head, hwhole⟩ := hwhole
      cases hlinked : items.all (·.2.lineageEventId.isNone) with
      | false =>
        apply creationEvidenceBatch_whole hkey hids ?_ hwhole hlinked
        rw [Int.toNat_of_nonneg (by omega)]
        exact hchain head hwhole.found
      | true =>
        have hunlinked : (creationEvidenceBatch signingKey S items classId requiredFields
            maxChainEvents.toNat).evidence = items.map (fun _ ↦ none) := by
          unfold creationEvidenceBatch
          rw [if_pos hlinked]
        rw [hunlinked]
        apply hnone
        intro item hitem
        have hpointer : item.2.lineageEventId = none := by
          simpa using List.all_eq_true.1 hlinked item hitem
        simp [verifiedCreationEvidence, verifyRecordCreationLineage, hpointer, guard]
    · push Not at hwhole
      rw [creationEvidenceBatch_not_whole hwhole]
      apply hnone
      intro item hitem
      cases hsingle : verifiedCreationEvidence signingKey S item.1 item.2 classId
          requiredFields with
      | none => rfl
      | some ev =>
        obtain ⟨head, h, -⟩ := verifiedCreationEvidence_eq_some_iff.1 hsingle
        exact absurd h (hwhole head)

end Batch

section Samples

/-- The linked row, an unlinked one and the linked row again. -/
theorem batch_evidence_agrees_repeated :
    ∃ batch, verifiedCreationEvidences "k" (written "k" [sampleFirst])
        [("payroll_event", sampleLinked), ("payroll_event", samplePayroll 2),
          ("payroll_event", sampleLinked)] "c" [] 10 10 = .ok batch ∧
      batch.evidence = [some sampleEvidence, none, some sampleEvidence] := by
  have hids : ((written "k" [sampleFirst]).events.map (·.id)).Nodup := by
    rw [sampleWritten_events]
    exact List.nodup_singleton _
  have hchain : ∀ head, headOf (written "k" [sampleFirst]) "class:c" = some head →
      head.latestSequence ≤ 10 := by
    intro head hhead
    rw [(wellWritten "k" [sampleFirst]).head, headBehind, scopeRows, sampleWritten_events] at hhead
    split_ifs at hhead
    obtain rfl := Option.some.inj hhead
    have hle := List.length_filter_le (fun e : AuditEvent ↦ decide (e.chainScope = "class:c"))
      [sampleEvent]
    rw [List.length_singleton] at hle
    dsimp only
    omega
  have hunlinked : verifiedCreationEvidence "k" (written "k" [sampleFirst]) "payroll_event"
      (samplePayroll 2) "c" [] = none := rfl
  obtain ⟨batch, hbatch, hevidence⟩ := batch_evidence_agrees "k" (by decide)
    (written "k" [sampleFirst]) hids [("payroll_event", sampleLinked),
      ("payroll_event", samplePayroll 2), ("payroll_event", sampleLinked)] "c" (by decide) [] 10 10
      (by decide) (by decide) (by decide) hchain
  refine ⟨batch, hbatch, ?_⟩
  rw [hevidence, List.map_cons, List.map_cons, List.map_cons, List.map_nil, sampleLinked_evidence,
    hunlinked]

end Samples

end TokenHub.Audit
