import TokenHub.Insurance.FilingSteps

set_option autoImplicit false

namespace TokenHub.Insurance

open Ledger Rent Lib.Decimals Lib.Checks Lib.SequencedLog Lib.Tiling

variable {sha256 : String → String} {zones : String → CoverageZone} {bounded : Prop}
  {S S' : InsuranceState} {g : CoverageEvent} {p : InsurancePolicy} {claim : InsuranceClaim}
  {d : ClaimDecision} {as : List Adjudication}

section Records

def decidedAs (claim : InsuranceClaim) (d : ClaimDecision) (c : InsuranceClaim) : InsuranceClaim :=
  if c.claimId = claim.claimId ∧ c.classId = claim.classId then d.record c else c

theorem decidedAs_self : decidedAs claim d claim = d.record claim := if_pos ⟨rfl, rfl⟩

theorem decidedAs_other {c : InsuranceClaim} (hne : c.claimId ≠ claim.claimId) :
    decidedAs claim d c = c := if_neg (fun h ↦ hne h.1)

structure SameFiling (c c' : InsuranceClaim) : Prop where
  claimId : c'.claimId = c.claimId
  classId : c'.classId = c.classId
  entitlementId : c'.entitlementId = c.entitlementId
  targetSeatId : c'.targetSeatId = c.targetSeatId
  correlationId : c'.correlationId = c.correlationId
  claimBasis : c'.claimBasis = c.claimBasis
  submittedAt : c'.submittedAt = c.submittedAt

theorem SameFiling.refl (c : InsuranceClaim) : SameFiling c c := ⟨rfl, rfl, rfl, rfl, rfl, rfl, rfl⟩

theorem decidedAs_same (claim : InsuranceClaim) (d : ClaimDecision) (c : InsuranceClaim) :
    SameFiling c (decidedAs claim d c) := by
  unfold decidedAs
  split_ifs
  · exact ⟨rfl, rfl, rfl, rfl, rfl, rfl, rfl⟩
  · exact .refl c

theorem SameFiling.filedIn {c c' : InsuranceClaim} (h : SameFiling c c') (a b : Instant) :
    FiledIn a b c' ↔ FiledIn a b c := by
  unfold FiledIn
  rw [h.submittedAt]

theorem record_same (as : List Adjudication) (r : ProductivityDate) (claimId : ℕ) (classId : String) :
    (Adjudication.record as claimId classId r).claimId = r.claimId ∧
      (Adjudication.record as claimId classId r).classId = r.classId ∧
      (Adjudication.record as claimId classId r).entitlementId = r.entitlementId ∧
      (Adjudication.record as claimId classId r).claimDate = r.claimDate := by
  unfold Adjudication.record
  split <;> exact ⟨rfl, rfl, rfl, rfl⟩

theorem record_other {r : ProductivityDate} {claimId : ℕ} {classId : String}
    (hne : r.claimId ≠ claimId) : Adjudication.record as claimId classId r = r := by
  have hnone : as.find? (fun a ↦ a.claimDate = r.claimDate ∧ r.claimId = claimId ∧
      r.classId = classId) = none := by
    rw [List.find?_eq_none]
    intro a _
    simp [hne]
  unfold Adjudication.record
  rw [hnone]

theorem record_nil (claimId : ℕ) (classId : String) :
    Adjudication.record [] claimId classId = id := rfl

theorem record_payout {r : ProductivityDate} {claimId : ℕ} {classId : String} {a : Adjudication}
    (ha : a ∈ as) (hdate : a.claimDate = r.claimDate) (hid : r.claimId = claimId)
    (hclass : r.classId = classId) (hnodup : (as.map (·.claimDate)).Nodup) :
    (Adjudication.record as claimId classId r).recognizedPayout = some a.recognizedPayout := by
  have hfind : as.find? (fun b ↦ b.claimDate = r.claimDate ∧ r.claimId = claimId ∧
      r.classId = classId) = some a := by
    cases hfound : as.find? (fun b ↦ b.claimDate = r.claimDate ∧ r.claimId = claimId ∧
        r.classId = classId) with
    | none =>
      rw [List.find?_eq_none] at hfound
      have hnot := hfound a ha
      simp [hdate, hid, hclass] at hnot
    | some b =>
      have hb := List.mem_of_find?_eq_some hfound
      have hfields : b.claimDate = r.claimDate ∧ r.claimId = claimId ∧ r.classId = classId := by
        simpa using List.find?_some hfound
      rw [List.inj_on_of_nodup_map hnodup hb ha (hfields.1.trans hdate.symm)]
  unfold Adjudication.record
  rw [hfind]

end Records

section Adjudications

/-- Each date is valued in its turn, and all of them within what the period has left. -/
theorem adjudicateDates_ok {adjustments : ℤ → Option DateAdjustment} {rate : Magnitude}
    {percent : ℕ} {remaining : ℤ} {rows : List ProductivityDate}
    (h : adjudicateDates adjustments rate percent remaining rows = .ok (.ok as)) :
    List.Forall₂ (fun r a ↦ a.claimDate = r.claimDate) rows as ∧
      (∀ a ∈ as, 0 ≤ a.recognizedPayout) ∧
      (0 ≤ remaining → (as.map (·.recognizedPayout)).sum ≤ remaining) := by
  induction rows generalizing remaining as with
  | nil =>
    rw [adjudicateDates, pure_eq_ok, Except.ok.injEq] at h
    subst h
    exact ⟨.nil, by simp, fun hle ↦ by simpa using hle⟩
  | cons r rows ih =>
    rw [adjudicateDates] at h
    split at h
    · cases h
    · simp only [bind_eq_ok] at h
      obtain ⟨gross, -, rest, hrest, h⟩ := h
      split at h
      · cases h
      · next as' =>
        rw [pure_eq_ok, Except.ok.injEq] at h
        subst h
        obtain ⟨hdates, hnonneg, hsum⟩ := ih hrest
        refine ⟨.cons rfl hdates, ?_, fun hle ↦ ?_⟩
        · intro a ha
          rcases List.mem_cons.1 ha with rfl | ha
          · exact le_max_left _ _
          · exact hnonneg a ha
        · have hle' := hsum (by omega)
          rw [List.map_cons, List.sum_cons]
          simp only
          omega

theorem sum_recorded {rows : List ProductivityDate} {claimId : ℕ} {classId : String}
    (hdates : List.Forall₂ (fun r a ↦ a.claimDate = r.claimDate) rows as)
    (hnodup : (as.map (·.claimDate)).Nodup)
    (hmine : ∀ r ∈ rows, r.claimId = claimId ∧ r.classId = classId) :
    (rows.map (fun r ↦
      (Adjudication.record as claimId classId r).recognizedPayout.getD 0)).sum =
      (as.map (·.recognizedPayout)).sum := by
  have hmap : List.Forall₂ (fun r a ↦ (Adjudication.record as claimId classId r).recognizedPayout
      = some a.recognizedPayout) rows as := by
    rw [List.forall₂_iff_get] at hdates ⊢
    refine ⟨hdates.1, fun i hi hj ↦ ?_⟩
    have hrow := hmine _ (List.get_mem rows ⟨i, hi⟩)
    exact record_payout (List.get_mem as ⟨i, hj⟩) (hdates.2 i hi hj) hrow.1 hrow.2 hnodup
  clear hdates hmine hnodup
  congr 1
  rw [← List.forall₂_eq_eq_eq, List.forall₂_map_left_iff, List.forall₂_map_right_iff]
  exact hmap.imp (fun r a heq ↦ by rw [heq]; rfl)

end Adjudications

section Totals

structure DecisionOn (S S' : InsuranceState) (claim : InsuranceClaim) (d : ClaimDecision)
    (as : List Adjudication) : Prop where
  claims : S'.claims = S.claims.map (decidedAs claim d)
  claimDates : S'.claimDates =
    S.claimDates.map (Adjudication.record as claim.claimId claim.classId)
  coverageEvents : S'.coverageEvents = S.coverageEvents
  policies : S'.policies = S.policies
  billCycles : S'.billCycles = S.billCycles

def paidBy (d : ClaimDecision) : ℤ := if d.approved then d.resultAmount.getD 0 else 0

def recognizedBy (S : InsuranceState) (claim : InsuranceClaim) (as : List Adjudication) : ℤ :=
  ((listProductivityDates S claim.classId claim.claimId).map (fun r ↦
    (Adjudication.record as claim.claimId claim.classId r).recognizedPayout.getD 0)).sum

theorem withDecision_on {q : ResolveRequest} (hclass : claim.classId = q.classId) (L : LedgerState)
    (events : List PayrollEvent) (d : ClaimDecision) :
    DecisionOn S (withDecision { S with ledger := L, payrollEvents := events } q.classId
      claim.claimId d) claim d [] where
  claims := by
    rw [withDecision, ← hclass]
    rfl
  claimDates := by rw [withDecision, record_nil, List.map_id]
  coverageEvents := rfl
  policies := rfl
  billCycles := rfl

theorem withAdjudications_on {q : ResolveRequest} (hclass : claim.classId = q.classId)
    (L : LedgerState) (events : List PayrollEvent) (as : List Adjudication) (d : ClaimDecision) :
    DecisionOn S (withDecision (withAdjudications { S with ledger := L, payrollEvents := events }
      q.classId claim.claimId as) q.classId claim.claimId d) claim d as where
  claims := by
    rw [withDecision, ← hclass]
    rfl
  claimDates := by rw [withDecision, withAdjudications, ← hclass]
  coverageEvents := rfl
  policies := rfl
  billCycles := rfl

variable {classId : String} {entitlementId : ℕ} {a b : Instant}

theorem ClaimInvariant.split (hc : ClaimInvariant zones S) (hmem : claim ∈ S.claims) :
    ∃ pre post, S.claims = pre ++ claim :: post ∧ (∀ c ∈ pre, c.claimId ≠ claim.claimId) ∧
      ∀ c ∈ post, c.claimId ≠ claim.claimId := by
  have hnodup : S.claims.Pairwise (fun c c' ↦ c.claimId ≠ c'.claimId) := by
    rw [List.pairwise_iff_getElem]
    intro i j hi hj hij
    have hi' := hc.claimIds i _ (List.getElem?_eq_getElem hi)
    have hj' := hc.claimIds j _ (List.getElem?_eq_getElem hj)
    omega
  obtain ⟨pre, post, hsplit⟩ := List.append_of_mem hmem
  rw [hsplit, List.pairwise_append, List.pairwise_cons] at hnodup
  obtain ⟨-, ⟨hpost, -⟩, hpre⟩ := hnodup
  exact ⟨pre, post, hsplit, fun c hcm ↦ hpre c hcm claim List.mem_cons_self,
    fun c hcm ↦ (hpost c hcm).symm⟩

theorem DecisionOn.sumApprovedPayouts (hd : DecisionOn S S' claim d as)
    (hc : ClaimInvariant zones S) (hmem : claim ∈ S.claims) (hst : claim.status = .submitted) :
    sumApprovedPayouts S' classId entitlementId a b =
      sumApprovedPayouts S classId entitlementId a b +
        if FiledIn a b claim ∧ claim.classId = classId ∧ claim.entitlementId = entitlementId then
          paidBy d else 0 := by
  obtain ⟨pre, post, hsplit, hpre, hpost⟩ := hc.split hmem
  rw [sumApprovedPayouts_eq, sumApprovedPayouts_eq, hd.claims, hsplit,
    sumOver_map_at (fun c hcm ↦ decidedAs_other (hpre c hcm))
      (fun c hcm ↦ decidedAs_other (hpost c hcm)), decidedAs_self]
  cases happroved : d.approved <;>
    simp [ClaimDecision.record, FiledIn, hst, paidBy, happroved, and_assoc]

theorem sumRecognizedPayout_eq (S : InsuranceState) :
    sumRecognizedPayout S classId entitlementId a b =
      sumOver (fun r ↦ r.recognizedPayout.getD 0) (fun r ↦ r.classId = classId ∧
        r.entitlementId = entitlementId ∧ ∃ c ∈ S.claims, c.claimId = r.claimId ∧ FiledIn a b c)
        S.claimDates := rfl

theorem DecisionOn.sumRecognizedPayout (hd : DecisionOn S S' claim d as)
    (hc : ClaimInvariant zones S) (hmem : claim ∈ S.claims) (hst : claim.status = .submitted) :
    sumRecognizedPayout S' classId entitlementId a b =
      sumRecognizedPayout S classId entitlementId a b +
        if FiledIn a b claim ∧ claim.classId = classId ∧ claim.entitlementId = entitlementId then
          recognizedBy S claim as else 0 := by
  have hclaim : ∀ r : ProductivityDate, (∃ c ∈ S'.claims, c.claimId = r.claimId ∧ FiledIn a b c) ↔
      ∃ c ∈ S.claims, c.claimId = r.claimId ∧ FiledIn a b c := by
    intro r
    rw [hd.claims]
    simp only [List.mem_map, exists_exists_and_eq_and, (decidedAs_same claim d _).claimId,
      (decidedAs_same claim d _).filedIn]
  have hmine : ∀ r ∈ S.claimDates, r.claimId = claim.claimId →
      r.classId = claim.classId ∧ r.entitlementId = claim.entitlementId := by
    intro r hr hid
    obtain ⟨c, hcm, hdate, -⟩ := hc.dated r hr
    obtain rfl := hc.claim_unique hcm hmem (hdate.claimId.symm.trans hid)
    exact ⟨hdate.classId, hdate.entitlementId⟩
  have hgain : sumOver (fun r : ProductivityDate ↦
      (Adjudication.record as claim.claimId claim.classId r).recognizedPayout.getD 0)
      (fun r ↦ (r.classId = classId ∧ r.entitlementId = entitlementId ∧
        ∃ c ∈ S.claims, c.claimId = r.claimId ∧ FiledIn a b c) ∧ r.claimId = claim.claimId)
      S.claimDates = if FiledIn a b claim ∧ claim.classId = classId ∧
        claim.entitlementId = entitlementId then recognizedBy S claim as else 0 := by
    split_ifs with hin
    · rw [recognizedBy, listProductivityDates, ((List.perm_insertionSort _ _).map _).sum_eq, sumOver]
      congr 2
      refine List.filter_congr (fun r hr ↦ decide_eq_decide.2 ⟨?_, ?_⟩)
      · rintro ⟨-, hid⟩
        exact ⟨hid, (hmine r hr hid).1⟩
      · rintro ⟨hid, hclass⟩
        exact ⟨⟨hclass.trans hin.2.1, (hmine r hr hid).2.trans hin.2.2, claim, hmem, hid.symm,
          hin.1⟩, hid⟩
    · rw [sumOver, List.filter_eq_nil_iff.2, List.map_nil, List.sum_nil]
      intro r hr
      simp only [decide_eq_true_eq]
      rintro ⟨⟨hclass, hent, c, hcm, hid, hfiled⟩, hid'⟩
      obtain rfl := hc.claim_unique hcm hmem (hid.trans hid')
      obtain ⟨hclass', hent'⟩ := hmine r hr hid'
      exact hin ⟨hfiled, hclass'.symm.trans hclass, hent'.symm.trans hent⟩
  rw [← hgain, sumRecognizedPayout_eq, sumRecognizedPayout_eq, hd.claimDates]
  -- Only the rows of the claim change, and they counted nothing before.
  refine sumOver_map_on (fun r _ hne ↦ record_other hne) (fun r _ ↦ ?_) (fun r hr hid ↦ ?_)
  · rw [hclaim]
    simp only [record_same]
  · rw [hc.unrecognized claim hmem (by simp [hst]) r hr hid]
    rfl

theorem DecisionOn.listClaims_length (hd : DecisionOn S S' claim d as) (a b : Instant) :
    ((listClaims S' classId entitlementId).filter (FiledIn a b)).length =
      ((listClaims S classId entitlementId).filter (FiledIn a b)).length := by
  rw [listClaims, listClaims, hd.claims, List.filter_map, List.filter_map, List.length_map]
  simp only [Function.comp_def, (decidedAs_same claim d _).classId,
    (decidedAs_same claim d _).entitlementId, (decidedAs_same claim d _).filedIn]

theorem DecisionOn.countProductivityDateFilings (hd : DecisionOn S S' claim d as) :
    countProductivityDateFilings S' classId entitlementId a b =
      countProductivityDateFilings S classId entitlementId a b := by
  unfold Insurance.countProductivityDateFilings listClaims
  rw [hd.claims, List.filter_map, List.filter_map, List.map_map]
  simp only [Function.comp_def, (decidedAs_same claim d _).classId,
    (decidedAs_same claim d _).entitlementId, (decidedAs_same claim d _).filedIn,
    (decidedAs_same claim d _).claimBasis]

end Totals

section Preservation

theorem decidedAs_live (hst : claim.status = .submitted) {c : InsuranceClaim}
    (hmine : c.claimId = claim.claimId → c = claim)
    (hlive : (decidedAs claim d c).status ≠ .rejected) : c.status ≠ .rejected := by
  by_cases hid : c.claimId = claim.claimId
  · rw [hmine hid, hst]
    simp
  · rwa [decidedAs_other hid] at hlive

theorem FiledUnder.decided (claim : InsuranceClaim) (d : ClaimDecision) {c : InsuranceClaim}
    (h : FiledUnder g c) : FiledUnder g (decidedAs claim d c) := by
  have hs := decidedAs_same claim d c
  exact ⟨hs.entitlementId.trans h.entitlementId, hs.classId.trans h.classId,
    hs.targetSeatId.trans h.targetSeatId⟩

theorem FiledUnder.of_decided {c : InsuranceClaim} (h : FiledUnder g (decidedAs claim d c)) :
    FiledUnder g c := by
  have hs := decidedAs_same claim d c
  exact ⟨hs.entitlementId.symm.trans h.entitlementId, hs.classId.symm.trans h.classId,
    hs.targetSeatId.symm.trans h.targetSeatId⟩

theorem DateOf.decided (claim : InsuranceClaim) (d : ClaimDecision) (as : List Adjudication)
    {c : InsuranceClaim} {r : ProductivityDate} (h : DateOf c r) :
    DateOf (decidedAs claim d c) (Adjudication.record as claim.claimId claim.classId r) := by
  have hs := decidedAs_same claim d c
  obtain ⟨hrid, hrclass, hrent, -⟩ := record_same as r claim.claimId claim.classId
  refine ⟨?_, ?_, ?_⟩
  · rw [hrid, hs.claimId, h.claimId]
  · rw [hrclass, hs.classId, h.classId]
  · rw [hrent, hs.entitlementId, h.entitlementId]

theorem DecisionOn.granted (hd : DecisionOn S S' claim d as) : Granted S' g ↔ Granted S g := by
  unfold Granted
  rw [hd.coverageEvents]

theorem DecisionOn.policyOf (hd : DecisionOn S S' claim d as) :
    PolicyOf S' g p ↔ PolicyOf S g p := by
  unfold PolicyOf getInsuranceDefinition
  rw [hd.policies]

theorem DecisionOn.lineage_eq (hd : DecisionOn S S' claim d as) (entitlementId : ℕ) :
    lineage S'.toRentState entitlementId = lineage S.toRentState entitlementId := by
  rw [lineage, hd.billCycles, lineage]

theorem DecisionOn.mem_claims_iff (hd : DecisionOn S S' claim d as) {c' : InsuranceClaim} :
    c' ∈ S'.claims ↔ ∃ c ∈ S.claims, decidedAs claim d c = c' := by
  rw [hd.claims, List.mem_map]

theorem DecisionOn.mem_claimDates_iff (hd : DecisionOn S S' claim d as) {r' : ProductivityDate} :
    r' ∈ S'.claimDates ↔
      ∃ r ∈ S.claimDates, Adjudication.record as claim.claimId claim.classId r = r' := by
  rw [hd.claimDates, List.mem_map]

theorem DecisionOn.live (hd : DecisionOn S S' claim d as) (hc : ClaimInvariant zones S)
    (hmem : claim ∈ S.claims) (hst : claim.status = .submitted) {r : ProductivityDate}
    (hlive : Live S' (Adjudication.record as claim.claimId claim.classId r)) : Live S r := by
  obtain ⟨c', hc', hid, hne⟩ := hlive
  obtain ⟨c, hcm, rfl⟩ := hd.mem_claims_iff.1 hc'
  rw [(decidedAs_same claim d c).claimId, (record_same as r _ _).1] at hid
  exact ⟨c, hcm, hid, decidedAs_live hst (hc.claim_unique hcm hmem) hne⟩

theorem DecisionOn.transactionsOnce (hd : DecisionOn S S' claim d as)
    (hc : ClaimInvariant zones S) (hmem : claim ∈ S.claims) (hst : claim.status = .submitted) :
    S'.claims.Pairwise (fun c c' ↦ c.classId = c'.classId →
      c.entitlementId = c'.entitlementId →
      c.claimBasis.transactionId = c'.claimBasis.transactionId →
      c.claimBasis.transactionId.isSome → ¬ (c.status ≠ .rejected ∧ c'.status ≠ .rejected)) := by
  rw [hd.claims, List.pairwise_map]
  refine hc.transactionsOnce.imp_of_mem (fun {c c'} hcm hcm' hpair hcl he ht hsome hboth ↦ ?_)
  have hs := decidedAs_same claim d c
  have hs' := decidedAs_same claim d c'
  rw [hs.classId, hs'.classId] at hcl
  rw [hs.entitlementId, hs'.entitlementId] at he
  rw [hs.claimBasis, hs'.claimBasis] at ht
  rw [hs.claimBasis] at hsome
  exact hpair hcl he ht hsome ⟨decidedAs_live hst (hc.claim_unique hcm hmem) hboth.1,
    decidedAs_live hst (hc.claim_unique hcm' hmem) hboth.2⟩

theorem DecisionOn.datesOnce (hd : DecisionOn S S' claim d as) (hc : ClaimInvariant zones S)
    (hmem : claim ∈ S.claims) (hst : claim.status = .submitted) :
    S'.claimDates.Pairwise (fun r r' ↦ r.classId = r'.classId →
      r.entitlementId = r'.entitlementId → r.claimDate = r'.claimDate →
      ¬ (Live S' r ∧ Live S' r')) := by
  rw [hd.claimDates, List.pairwise_map]
  refine hc.datesOnce.imp (fun {r r'} hpair hcl he ht hboth ↦ ?_)
  simp only [record_same] at hcl he ht
  exact hpair hcl he ht ⟨hd.live hc hmem hst hboth.1, hd.live hc hmem hst hboth.2⟩

/-- A claim that is not approved after the decision was not before it, and where the decision was
about it, it was rejected. -/
theorem decidedAs_open (hc : ClaimInvariant zones S) (hmem : claim ∈ S.claims)
    (hst : claim.status = .submitted) {c : InsuranceClaim} (hcm : c ∈ S.claims)
    (hne : (decidedAs claim d c).status ≠ .approved) : c.status ≠ .approved ∧
      (c.claimId = claim.claimId → d.approved = false) := by
  by_cases hid : c.claimId = claim.claimId
  · obtain rfl := hc.claim_unique hcm hmem hid
    rw [decidedAs_self] at hne
    refine ⟨by simp [hst], fun _ ↦ ?_⟩
    cases happroved : d.approved with
    | true => simp [ClaimDecision.record, happroved] at hne
    | false => rfl
  · rw [decidedAs_other hid] at hne
    exact ⟨hne, fun heq ↦ absurd heq hid⟩

theorem decidedAs_undecided (hc : ClaimInvariant zones S) (hmem : claim ∈ S.claims)
    (hst : claim.status = .submitted) {c : InsuranceClaim} (hcm : c ∈ S.claims)
    (hne : (decidedAs claim d c).status ≠ .approved) :
    (decidedAs claim d c).resultAmount = none ∧ (decidedAs claim d c).ledgerTransactionId = none ∧
      (decidedAs claim d c).payrollEventId = none := by
  obtain ⟨hopen, hrejects⟩ := decidedAs_open hc hmem hst hcm hne
  have hundecided := hc.undecided c hcm hopen
  by_cases hid : c.claimId = claim.claimId
  · obtain rfl := hc.claim_unique hcm hmem hid
    rw [decidedAs_self]
    simpa [ClaimDecision.record, hrejects rfl] using hundecided
  · rwa [decidedAs_other hid]

theorem record_unrecognized (hc : ClaimInvariant zones S) (hmem : claim ∈ S.claims)
    (hst : claim.status = .submitted) (hrejected : d.approved = false → as = [])
    {c : InsuranceClaim} (hcm : c ∈ S.claims) (hne : (decidedAs claim d c).status ≠ .approved)
    {r : ProductivityDate} (hr : r ∈ S.claimDates) (hid : r.claimId = c.claimId) :
    (Adjudication.record as claim.claimId claim.classId r).recognizedPayout = none := by
  obtain ⟨hopen, hrejects⟩ := decidedAs_open hc hmem hst hcm hne
  have hnone := hc.unrecognized c hcm hopen r hr hid
  by_cases hmine : c.claimId = claim.claimId
  · rwa [hrejected (hrejects hmine), record_nil, id]
  · rwa [record_other (fun heq ↦ hmine (hid.symm.trans heq))]

/-- A decision within what the period of the filing has left keeps what the claims satisfy. -/
theorem ClaimInvariant.decide (hc : ClaimInvariant zones S)
    (h : CoverageInvariant sha256 zones bounded S) (hd : DecisionOn S S' claim d as)
    (hmem : claim ∈ S.claims) (hst : claim.status = .submitted)
    (hrejected : d.approved = false → as = [])
    (hbound : ∀ g p, Granted S g → FiledUnder g claim → PolicyOf S g p →
      ∀ b ∈ lineage S.toRentState g.entitlementId, b.nextAssessmentAt.isSome →
        FiledIn (startOf b) (stopOf b) claim →
          Insurance.sumApprovedPayouts S g.classId g.entitlementId (startOf b) (stopOf b) +
            paidBy d ≤ maximumPolicyPayout p)
    (hrecognized : ∀ g p, Granted S g → FiledUnder g claim → PolicyOf S g p →
      p.insuranceType = .productivity → recognizedBy S claim as = paidBy d) :
    ClaimInvariant zones S' where
  claimIds i c' hc' := by
    rw [hd.claims, List.getElem?_map, Option.map_eq_some_iff] at hc'
    obtain ⟨c, hcm, rfl⟩ := hc'
    rw [(decidedAs_same claim d c).claimId]
    exact hc.claimIds i c hcm
  filed c' hc' := by
    obtain ⟨c, hcm, rfl⟩ := hd.mem_claims_iff.1 hc'
    obtain ⟨g, hg, hunder, b, hb, hrest⟩ := hc.filed c hcm
    refine ⟨g, hd.granted.2 hg, hunder.decided claim d, b, ?_, ?_⟩
    · rwa [hd.lineage_eq]
    · rwa [(decidedAs_same claim d c).submittedAt]
  dated r' hr' := by
    obtain ⟨r, hr, rfl⟩ := hd.mem_claimDates_iff.1 hr'
    obtain ⟨c, hcm, hdate, g, p, hunder, hg, hp, htype⟩ := hc.dated r hr
    exact ⟨decidedAs claim d c, hd.mem_claims_iff.2 ⟨c, hcm, rfl⟩, hdate.decided claim d as, g, p,
      hunder.decided claim d, hd.granted.2 hg, hd.policyOf.2 hp, htype⟩
  transactionsOnce := hd.transactionsOnce hc hmem hst
  datesOnce := hd.datesOnce hc hmem hst
  asserts c' hc' g p hg hunder hp htype := by
    obtain ⟨c, hcm, rfl⟩ := hd.mem_claims_iff.1 hc'
    rw [(decidedAs_same claim d c).claimBasis]
    exact hc.asserts c hcm g p (hd.granted.1 hg) hunder.of_decided (hd.policyOf.1 hp) htype
  undecided c' hc' hne := by
    obtain ⟨c, hcm, rfl⟩ := hd.mem_claims_iff.1 hc'
    exact decidedAs_undecided hc hmem hst hcm hne
  unrecognized c' hc' hne r' hr' hid := by
    obtain ⟨c, hcm, rfl⟩ := hd.mem_claims_iff.1 hc'
    obtain ⟨r, hr, rfl⟩ := hd.mem_claimDates_iff.1 hr'
    rw [(record_same as r _ _).1, (decidedAs_same claim d c).claimId] at hid
    exact record_unrecognized hc hmem hst hrejected hcm hne hr hid
  payouts g p hg hp b hb hl := by
    rw [hd.lineage_eq] at hb
    rw [hd.sumApprovedPayouts hc hmem hst]
    split_ifs with hin
    · have hunder := hc.targetSeat h (hd.granted.1 hg) hmem hin.2.2
      exact hbound g p (hd.granted.1 hg) hunder (hd.policyOf.1 hp) b hb hl hin.1
    · rw [add_zero]
      exact hc.payouts g p (hd.granted.1 hg) (hd.policyOf.1 hp) b hb hl
  recognized g p hg hp htype a b := by
    rw [hd.sumApprovedPayouts hc hmem hst, hd.sumRecognizedPayout hc hmem hst,
      hc.recognized g p (hd.granted.1 hg) (hd.policyOf.1 hp) htype a b]
    split_ifs with hin
    · have hunder := hc.targetSeat h (hd.granted.1 hg) hmem hin.2.2
      rw [hrecognized g p (hd.granted.1 hg) hunder (hd.policyOf.1 hp) htype]
    · rfl
  weeklyClaims g p hg hp htype t hcloses := by
    rw [hd.listClaims_length]
    exact hc.weeklyClaims g p (hd.granted.1 hg) (hd.policyOf.1 hp) htype t hcloses
  weeklyDates g p hg hp htype t hcloses := by
    rw [hd.countProductivityDateFilings]
    exact hc.weeklyDates g p (hd.granted.1 hg) (hd.policyOf.1 hp) htype t hcloses

end Preservation

section Decisions

variable {zone : CoverageZone} {env : ClaimSurroundings} {feat : FeatContext} {q : ResolveRequest}
  {policy : InsurancePolicy} {total : ℤ} {eventId : Option ℕ} {S₁ : InsuranceState}

theorem recordManualCredit_state {m : ManualCredit} {id : ℕ}
    (hok : recordManualCredit sha256 feat S m = .ok (id, S')) :
    ∃ L events, S' = { S with ledger := L, payrollEvents := events } := by
  unfold recordManualCredit at hok
  split at hok
  · rw [pure_eq_ok, Prod.mk.injEq] at hok
    exact ⟨_, _, hok.2.symm⟩
  · rw [require_bind_eq_ok] at hok
    simp only [bind_eq_ok, Prod.exists, demand_eq_ok, pure_eq_ok, Prod.mk.injEq] at hok
    obtain ⟨-, rows, L, -, row, -, -, hS⟩ := hok
    exact ⟨_, _, hS.symm⟩

theorem payProductivityClaim_state
    (hok : payProductivityClaim sha256 env feat S q claim total = .ok (eventId, S₁)) :
    ∃ L events, S₁ = { S with ledger := L, payrollEvents := events } := by
  unfold payProductivityClaim at hok
  split_ifs at hok
  · simp only [bind_eq_ok, Prod.exists, pure_eq_ok, Prod.mk.injEq] at hok
    obtain ⟨setting, -, id, S₂, hrecord, -, rfl⟩ := hok
    exact recordManualCredit_state hrecord
  · rw [pure_eq_ok, Prod.mk.injEq] at hok
    exact ⟨_, _, hok.2.symm⟩

theorem ClaimInvariant.recognizedBy_nil (hc : ClaimInvariant zones S) (hmem : claim ∈ S.claims)
    (hst : claim.status = .submitted) : recognizedBy S claim [] = 0 := by
  refine List.sum_eq_zero (fun x hx ↦ ?_)
  obtain ⟨r, hr, rfl⟩ := List.mem_map.1 hx
  have hr := List.mem_filter.1 ((List.mem_insertionSort _).1 hr)
  simp only [decide_eq_true_eq] at hr
  rw [record_nil, id, hc.unrecognized claim hmem (by simp [hst]) r hr.1 hr.2.1]
  rfl

theorem ClaimInvariant.dates_nodup (hc : ClaimInvariant zones S) (hmem : claim ∈ S.claims)
    (hst : claim.status = .submitted) :
    ((listProductivityDates S claim.classId claim.claimId).map (·.claimDate)).Nodup := by
  refine ((List.perm_insertionSort _ _).map _).nodup_iff.2 ?_
  rw [List.Nodup, List.pairwise_map, List.pairwise_filter]
  refine hc.datesOnce.imp_of_mem (fun {r r'} hr hr' hpair hmine hmine' heq ↦ ?_)
  simp only [decide_eq_true_eq] at hmine hmine'
  have hent : ∀ s ∈ S.claimDates, s.claimId = claim.claimId →
      s.entitlementId = claim.entitlementId := by
    intro s hs hid
    obtain ⟨c, hcm, hdate, -⟩ := hc.dated s hs
    obtain rfl := hc.claim_unique hcm hmem (hdate.claimId.symm.trans hid)
    exact hdate.entitlementId
  have hlive : ∀ s : ProductivityDate, s.claimId = claim.claimId → Live S s := fun s hid ↦
    ⟨claim, hmem, hid.symm, by simp [hst]⟩
  exact hpair (hmine.2.trans hmine'.2.symm)
    ((hent r hr hmine.1).trans (hent r' hr' hmine'.1).symm) heq
    ⟨hlive r hmine.1, hlive r' hmine'.1⟩

/-- The grant, the version and the period that a decision of a claim reads are the claim's. -/
theorem CoverageInvariant.reads (h : CoverageInvariant sha256 zones bounded S)
    (hpolicy : resolveClaimPolicy S claim.classId claim.targetSeatId claim.entitlementId =
      .ok policy) {period : CoveragePeriod} (hperiod : periodForClaim S claim = .ok period)
    (hg : Granted S g) (hunder : FiledUnder g claim) (hp : PolicyOf S g p) : p = policy ∧
      ∀ b ∈ lineage S.toRentState g.entitlementId, b.nextAssessmentAt.isSome →
        FiledIn (startOf b) (stopOf b) claim → period.startUtc = startOf b ∧
          period.endUtc = stopOf b := by
  obtain ⟨g', hg', hp', hent', -, -⟩ := h.claimPolicy hpolicy
  obtain rfl := h.grantsUnique g g' hg hg' (hunder.entitlementId.symm.trans hent'.symm)
  refine ⟨hp.unique hp', fun b hb hl hin ↦ ?_⟩
  simp only [periodForClaim, bind_eq_ok] at hperiod
  obtain ⟨found, hfound, hperiod⟩ := hperiod
  split at hperiod
  · next period' =>
    rw [pure_eq_ok] at hperiod
    subst hperiod
    rw [hunder.classId, hunder.entitlementId] at hfound
    obtain ⟨b', hb', hl', hholds, rfl⟩ := h.coveragePeriod hg hfound
    obtain rfl := h.period_unique hg hb hl hb' hl' hin hholds
    exact ⟨rfl, rfl⟩
  · cases hperiod

theorem ClaimInvariant.resolve (hc : ClaimInvariant zones S)
    (h : CoverageInvariant sha256 zones bounded S) (hmem : claim ∈ S.claims)
    (hclass : claim.classId = q.classId) (hst : claim.status = .submitted)
    (hdec : Decided sha256 zone env feat S q claim S') : ClaimInvariant zones S' := by
  cases hdec with
  | @rejected d hrejected =>
    have hd : DecisionOn S (withDecision S q.classId claim.claimId d) claim d [] :=
      withDecision_on hclass S.ledger S.payrollEvents d
    have hpaid : paidBy d = 0 := by simp [paidBy, hrejected]
    refine hc.decide h hd hmem hst (fun _ ↦ rfl) ?_ ?_
    · intro g p hg _ hp b hb hl _
      rw [hpaid, add_zero]
      exact hc.payouts g p hg hp b hb hl
    · intro g p _ _ _ _
      rw [hpaid, hc.recognizedBy_nil hmem hst]
  | @reimbursed policy percent source row period amount L hpolicy hr =>
    generalize happroval : approvalOf feat q amount none (some row.id)
      q.filingWindowOverrideReason = d
    have hpaid : paidBy d = amount := by
      rw [← happroval]
      rfl
    rw [← hclass] at hpolicy
    have hd : DecisionOn S (withDecision { S with ledger := L } q.classId claim.claimId d)
        claim d [] := withDecision_on hclass L S.payrollEvents d
    refine hc.decide h hd hmem hst (fun _ ↦ rfl) ?_ ?_
    · intro g p hg hunder hp b hb hl hin
      obtain ⟨rfl, hbounds⟩ := h.reads hpolicy hr.inPeriod hg hunder hp
      obtain ⟨hstart, hend⟩ := hbounds b hb hl hin
      have hle := hr.amount_eq.trans_le (min_le_right _ _)
      rw [hstart, hend, ← hclass, hunder.classId, hunder.entitlementId] at hle
      omega
    · intro g p hg hunder hp htype
      obtain ⟨rfl, -⟩ := h.reads hpolicy hr.inPeriod hg hunder hp
      rw [hr.insuranceType] at htype
      cases htype
  | @compensated policy percent period as total eventId S₁ hpolicy hcomp =>
    obtain ⟨L, events, rfl⟩ := payProductivityClaim_state hcomp.paid
    generalize happroval : approvalOf feat q total eventId none "" = d
    have happroved : d.approved = true := by
      rw [← happroval]
      rfl
    have hpaid : paidBy d = total := by
      rw [← happroval]
      rfl
    have hadjudicated := hcomp.adjudicated
    have hremaining := hcomp.remaining
    rw [← hclass] at hpolicy hadjudicated hremaining
    obtain ⟨hdates, hnonneg, hsum⟩ := adjudicateDates_ok hadjudicated
    have hd : DecisionOn S (withDecision (withAdjudications
        { S with ledger := L, payrollEvents := events } q.classId claim.claimId as)
          q.classId claim.claimId d) claim d as := withAdjudications_on hclass L events as d
    refine hc.decide h hd hmem hst (fun hne ↦ by rw [happroved] at hne; cases hne) ?_ ?_
    · intro g p hg hunder hp b hb hl hin
      obtain ⟨rfl, hbounds⟩ := h.reads hpolicy hcomp.inPeriod hg hunder hp
      obtain ⟨hstart, hend⟩ := hbounds b hb hl hin
      have hle := hsum hremaining.le
      rw [← hcomp.total_eq, hunder.classId, hunder.entitlementId,
        hc.recognized g p hg hp hcomp.insuranceType, hstart, hend] at hle
      omega
    · intro g p _ _ _ _
      have hnodup : (as.map (·.claimDate)).Nodup := by
        have hsame : as.map (·.claimDate) =
            (listProductivityDates S claim.classId claim.claimId).map (·.claimDate) := by
          rw [← List.forall₂_eq_eq_eq, List.forall₂_map_left_iff, List.forall₂_map_right_iff]
          exact hdates.flip
        rw [hsame]
        exact hc.dates_nodup hmem hst
      rw [recognizedBy, sum_recorded hdates hnodup, ← hcomp.total_eq, hpaid]
      intro r hr
      have hr := List.mem_filter.1 ((List.mem_insertionSort _).1 hr)
      simpa using hr.2

end Decisions

end TokenHub.Insurance
