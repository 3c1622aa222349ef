import TokenHub.Insurance.DecisionSteps

set_option autoImplicit false

namespace TokenHub.Insurance

open Ledger Rent Lib.Decimals Lib.Checks Lib.Digits

variable {sha256 : String → String} {zones : String → CoverageZone} {bounded : Prop}
  {S S' : InsuranceState} {claim c : InsuranceClaim}

section Amounts

/-- What a credit of so many cents posts: nothing where they do not fit the decimal context. -/
def creditCents (n : ℤ) : ℤ := (quantizeCurrency (some (.ofCents n))).value

theorem creditCents_of_small {n : ℤ} (h : |n| < 10 ^ 28) : creditCents n = n :=
  quantizeCurrency_ofCents h

theorem creditCents_bounds {n : ℤ} (h : 0 ≤ n) : 0 ≤ creditCents n ∧ creditCents n ≤ n := by
  by_cases hsmall : |n| < 10 ^ 28
  · rw [creditCents_of_small hsmall]
    exact ⟨h, le_rfl⟩
  · rw [creditCents, quantizeCurrency_ofCents_of_large hsmall]
    exact ⟨le_rfl, h⟩

theorem creditCents_quantized (n : ℤ) : (quantizeCurrency (some (.ofHundredths
    (quantizeCurrency (some (.ofCents n)))))).value = creditCents n := by
  by_cases hsmall : |n| < 10 ^ 28
  · have hunits : (Hundredths.ofCents n).units < 10 ^ Decimal.contextPrecision := by
      have : ((Hundredths.ofCents n).units : ℤ) < 10 ^ 28 := by
        simpa [Hundredths.ofCents] using hsmall
      exact_mod_cast this
    have hround : quantizeCurrency (some (.ofCents n)) = Hundredths.ofCents n := by
      simp only [quantizeCurrency, Decimal.ofCents, Decimal.ofHundredths]
      rw [Decimal.quantizeFinite_hundredths hunits]
      rfl
    rw [creditCents, hround]
    exact congrArg Hundredths.value hround
  · have hunits : ¬ (Hundredths.ofCents n).units < 10 ^ Decimal.contextPrecision := by
      intro hlt
      refine hsmall ?_
      have : ((Hundredths.ofCents n).units : ℤ) < 10 ^ 28 := by exact_mod_cast hlt
      simpa [Hundredths.ofCents] using this
    have hround : quantizeCurrency (some (.ofCents n)) = ⟨false, 0⟩ := by
      simp only [quantizeCurrency, Decimal.ofCents, Decimal.ofHundredths, Decimal.quantizeFinite]
      simp [hunits]
    rw [creditCents, hround]
    rfl

end Amounts

theorem adminApprovalKey_injective : Function.Injective adminApprovalKey := fun _ _ h ↦
  (numberText_suffix (by decide) (by decide) h).2

theorem adminApprovalKey_ne (claimId : ℕ) : adminApprovalKey claimId ≠ "" :=
  fun h ↦ absurd (String.append_eq_empty_iff.1 h).1 (by simp)

section Facts

/-- A row of the Ledger pays the result of a claim, under the key of its approval. -/
structure Pays (c : InsuranceClaim) (t : Transaction) : Prop where
  featCode : t.featCode = claimsFeat
  classId : t.classId = c.classId
  seatId : t.seatId = c.targetSeatId
  idempotencyKey : t.idempotencyKey = some (adminApprovalKey c.claimId)
  amount : ∃ n, c.resultAmount = some n ∧ 0 < n ∧ t.amountCents = creditCents n
  source : ∀ i, t.originalTransactionId = some i → c.claimBasis.transactionId = some i

/-- A claim names the row that pays it, or the manual credit that does. -/
def Names (S : InsuranceState) (c : InsuranceClaim) (t : Transaction) : Prop :=
  c.ledgerTransactionId = some t.id ∨ ∃ e ∈ S.payrollEvents, c.payrollEventId = some e.id ∧
    e.insuranceClaimId = c.claimId ∧ e.ledgerTransactionId = t.id ∧ c.resultAmount = some e.amount

/-- The money of the claims: one credit for each positive result, and none for any other claim. -/
structure EffectsSound (S : InsuranceState) : Prop where
  paidRows : ∀ t ∈ S.ledger.transactions, t.featCode = claimsFeat →
    ∃ c ∈ S.claims, c.status = .approved ∧ Pays c t
  rowsOnce : (S.ledger.transactions.filter (·.featCode = claimsFeat)).Pairwise
    (fun t t' ↦ t.idempotencyKey ≠ t'.idempotencyKey)
  paid : ∀ c ∈ S.claims, c.status = .approved → ∃ n, c.resultAmount = some n ∧ 0 ≤ n ∧
    (0 < n → ∃ t ∈ S.ledger.transactions, Pays c t ∧ Names S c t)
  within : ∀ t ∈ S.ledger.transactions, t.featCode = claimsFeat →
    ∀ i, t.originalTransactionId = some i → ∃ source ∈ S.ledger.transactions,
      source.id = i ∧ t.amountCents ≤ source.amountCents.natAbs
  reserved : ∀ r ∈ S.ledger.reservations, r.featCode = claimsFeat →
    ∃ c ∈ S.claims, c.status = .approved ∧ r.idempotencyKey = adminApprovalKey c.claimId
  manualCredits : ∀ e ∈ S.payrollEvents, ∃ c ∈ S.claims, c.status = .approved ∧
    e.insuranceClaimId = c.claimId ∧ e.idempotencyKey = adminApprovalKey c.claimId
  manualOnce : S.payrollEvents.Pairwise (fun e e' ↦ e.insuranceClaimId ≠ e'.insuranceClaimId)

def ClaimsKept (S S' : InsuranceState) : Prop :=
  ∀ (i : ℕ) c, S.claims[i]? = some c → ∃ c', S'.claims[i]? = some c' ∧ SameFiling c c' ∧
    (c.status ≠ .submitted → c' = c)

theorem ClaimsKept.mem (hk : ClaimsKept S S') (hc : c ∈ S.claims) :
    ∃ c' ∈ S'.claims, SameFiling c c' ∧ (c.status ≠ .submitted → c' = c) := by
  obtain ⟨i, hi⟩ := List.mem_iff_getElem?.1 hc
  obtain ⟨c', hi', hrest⟩ := hk i c hi
  exact ⟨c', List.mem_iff_getElem?.2 ⟨i, hi'⟩, hrest⟩

theorem ClaimsKept.decided (hk : ClaimsKept S S') (hc : c ∈ S.claims) (hst : c.status ≠ .submitted) :
    c ∈ S'.claims := by
  obtain ⟨c', hc', -, hsame⟩ := hk.mem hc
  rwa [hsame hst] at hc'

theorem ClaimsKept.of_extended (h : S.claims <+: S'.claims) : ClaimsKept S S' := by
  intro i c hc
  obtain ⟨cs, hcs⟩ := h
  refine ⟨c, ?_, .refl c, fun _ ↦ rfl⟩
  rw [← hcs, List.getElem?_append_left (List.getElem?_eq_some_iff.1 hc).1, hc]

end Facts

section Frame

/-- Rows that are added under the code of the claims are those that pay claims. -/
theorem EffectsSound.frame (he : EffectsSound S)
    (hL : GrowsElsewhere sha256 claimsFeat S.ledger S'.ledger) (hclaims : S.claims <+: S'.claims)
    (hnew : ∀ c ∈ S'.claims, c ∉ S.claims → c.status ≠ .approved)
    (hevents : S'.payrollEvents = S.payrollEvents) : EffectsSound S' := by
  have hrows : ∀ t ∈ S'.ledger.transactions, t.featCode = claimsFeat →
      t ∈ S.ledger.transactions := by
    intro t ht hfeat
    have hmem : t ∈ S'.ledger.transactions.filter (·.featCode = claimsFeat) := by
      simp [ht, hfeat]
    rw [hL.rowsUnder] at hmem
    exact (List.mem_filter.1 hmem).1
  refine ⟨?_, ?_, ?_, ?_, ?_, ?_, ?_⟩
  · intro t ht hfeat
    obtain ⟨c, hc, hrest⟩ := he.paidRows t (hrows t ht hfeat) hfeat
    exact ⟨c, hclaims.subset hc, hrest⟩
  · rw [hL.rowsUnder]
    exact he.rowsOnce
  · intro c hc happroved
    have hold : c ∈ S.claims := by
      by_contra hno
      exact hnew c hc hno happroved
    obtain ⟨n, hn, hnonneg, hpays⟩ := he.paid c hold happroved
    refine ⟨n, hn, hnonneg, fun hpos ↦ ?_⟩
    obtain ⟨t, ht, hpay, hnames⟩ := hpays hpos
    refine ⟨t, hL.rows.subset ht, hpay, ?_⟩
    unfold Names
    rwa [hevents]
  · intro t ht hfeat i hi
    obtain ⟨source, hs, hrest⟩ := he.within t (hrows t ht hfeat) hfeat i hi
    exact ⟨source, hL.rows.subset hs, hrest⟩
  · intro r hr hfeat
    have hmem : r ∈ S'.ledger.reservations.filter (·.featCode = claimsFeat) := by
      simp [hr, hfeat]
    rw [hL.reservationsUnder] at hmem
    obtain ⟨c, hc, hrest⟩ := he.reserved r (List.mem_filter.1 hmem).1 hfeat
    exact ⟨c, hclaims.subset hc, hrest⟩
  · intro e hev
    rw [hevents] at hev
    obtain ⟨c, hc, hrest⟩ := he.manualCredits e hev
    exact ⟨c, hclaims.subset hc, hrest⟩
  · rw [hevents]
    exact he.manualOnce

end Frame

section Decisions

variable {d : ClaimDecision} {as : List Adjudication} {zone : CoverageZone}
  {env : ClaimSurroundings} {feat : FeatContext} {q : ResolveRequest}

theorem DecisionOn.mem_claims (hd : DecisionOn S S' claim d as) (hc : ClaimInvariant zones S)
    (hmem : claim ∈ S.claims) {c' : InsuranceClaim} (hc' : c' ∈ S'.claims) :
    c' = d.record claim ∨ (c' ∈ S.claims ∧ c'.claimId ≠ claim.claimId) := by
  rw [hd.claims] at hc'
  obtain ⟨c, hcm, rfl⟩ := List.mem_map.1 hc'
  by_cases hid : c.claimId = claim.claimId
  · obtain rfl := hc.claim_unique hcm hmem hid
    exact .inl decidedAs_self
  · rw [decidedAs_other hid]
    exact .inr ⟨hcm, hid⟩

theorem DecisionOn.claimsKept (hd : DecisionOn S S' claim d as) (hc : ClaimInvariant zones S)
    (hmem : claim ∈ S.claims) (hst : claim.status = .submitted) : ClaimsKept S S' := by
  intro i c hi
  refine ⟨decidedAs claim d c, ?_, decidedAs_same claim d c, fun hne ↦ decidedAs_other ?_⟩
  · rw [hd.claims, List.getElem?_map, hi, Option.map_some]
  · intro hid
    rw [hc.claim_unique (List.mem_iff_getElem?.2 ⟨i, hi⟩) hmem hid] at hne
    exact hne hst

/-- What a decision posts, each only with an approval: the row that pays it, the reservation of the
row and the manual credit. -/
structure DecisionPosts (S S' : InsuranceState) (claim : InsuranceClaim) (d : ClaimDecision)
    (row : Option Transaction) (reservation : Option LedgerCommandReservation)
    (event : Option PayrollEvent) : Prop where
  transactions : S'.ledger.transactions = S.ledger.transactions ++ row.toList
  reservations : S'.ledger.reservations = S.ledger.reservations ++ reservation.toList
  payrollEvents : S'.payrollEvents = S.payrollEvents ++ event.toList
  pays : ∀ t ∈ row, d.approved = true ∧ Pays (d.record claim) t
  within : ∀ t ∈ row, ∀ i, t.originalTransactionId = some i → ∃ source ∈ S.ledger.transactions,
    source.id = i ∧ t.amountCents ≤ source.amountCents.natAbs
  reserved : ∀ r ∈ reservation, d.approved = true ∧
    r.idempotencyKey = adminApprovalKey claim.claimId
  credited : ∀ e ∈ event, d.approved = true ∧ e.insuranceClaimId = claim.claimId ∧
    e.idempotencyKey = adminApprovalKey claim.claimId
  paid : d.approved = true → ∃ n, d.resultAmount = some n ∧ 0 ≤ n ∧
    (0 < n → ∃ t ∈ row, Names S' (d.record claim) t)

theorem DecisionPosts.nothing (hL : S'.ledger = S.ledger)
    (hevents : S'.payrollEvents = S.payrollEvents)
    (hpaid : d.approved = true → d.resultAmount = some 0) :
    DecisionPosts S S' claim d none none none where
  transactions := by simp [hL]
  reservations := by simp [hL]
  payrollEvents := by simp [hevents]
  pays := by simp
  within := by simp
  reserved := by simp
  credited := by simp
  paid happroved := ⟨0, hpaid happroved, le_rfl, fun h ↦ absurd h (lt_irrefl 0)⟩

variable {row : Option Transaction} {reservation : Option LedgerCommandReservation}
  {event : Option PayrollEvent}

theorem DecisionOn.record_mem (hd : DecisionOn S S' claim d as) (hmem : claim ∈ S.claims)
    (happroved : d.approved = true) :
    d.record claim ∈ S'.claims ∧ (d.record claim).status = .approved := by
  refine ⟨?_, by simp [ClaimDecision.record, happroved]⟩
  rw [hd.claims, ← decidedAs_self]
  exact List.mem_map_of_mem hmem

theorem DecisionOn.approved_mem (hd : DecisionOn S S' claim d as) (hc : ClaimInvariant zones S)
    (hmem : claim ∈ S.claims) (hst : claim.status = .submitted) (hcm : c ∈ S.claims)
    (happroved : c.status = .approved) : c ∈ S'.claims :=
  (hd.claimsKept hc hmem hst).decided hcm (by simp [happroved])

/-- The command key of a pending claim is not that of an approved one. -/
theorem ClaimInvariant.approvalKey_ne (hc : ClaimInvariant zones S) (hmem : claim ∈ S.claims)
    (hst : claim.status = .submitted) (hcm : c ∈ S.claims) (happroved : c.status = .approved) :
    adminApprovalKey c.claimId ≠ adminApprovalKey claim.claimId := by
  intro heq
  obtain rfl := hc.claim_unique hcm hmem (adminApprovalKey_injective heq)
  rw [hst] at happroved
  cases happroved

theorem DecisionPosts.rowsOnce (hp : DecisionPosts S S' claim d row reservation event)
    (he : EffectsSound S) (hc : ClaimInvariant zones S) (hmem : claim ∈ S.claims)
    (hst : claim.status = .submitted) :
    (S'.ledger.transactions.filter (·.featCode = claimsFeat)).Pairwise
      (fun t t' ↦ t.idempotencyKey ≠ t'.idempotencyKey) := by
  rw [hp.transactions, List.filter_append]
  refine List.pairwise_append.2 ⟨he.rowsOnce, ?_, ?_⟩
  · exact List.Pairwise.filter _ (by cases row <;> simp)
  · intro t ht t' ht' heq
    obtain ⟨htm, hfeat⟩ := List.mem_filter.1 ht
    obtain ⟨c, hcm, happroved, hpays⟩ := he.paidRows t htm (of_decide_eq_true hfeat)
    obtain ⟨-, hpays'⟩ := hp.pays t' (Option.mem_toList.1 (List.mem_filter.1 ht').1)
    rw [hpays.idempotencyKey, hpays'.idempotencyKey, Option.some.injEq] at heq
    exact hc.approvalKey_ne hmem hst hcm happroved heq

theorem DecisionPosts.names (hp : DecisionPosts S S' claim d row reservation event)
    {t : Transaction} (hnames : Names S c t) : Names S' c t := by
  rcases hnames with hrow | ⟨e, hev, hrest⟩
  · exact .inl hrow
  · refine .inr ⟨e, ?_, hrest⟩
    rw [hp.payrollEvents]
    exact List.mem_append_left _ hev

theorem DecisionPosts.paid_all (hp : DecisionPosts S S' claim d row reservation event)
    (he : EffectsSound S) (hc : ClaimInvariant zones S) (hd : DecisionOn S S' claim d as)
    (hmem : claim ∈ S.claims) {c' : InsuranceClaim} (hc' : c' ∈ S'.claims)
    (happroved : c'.status = .approved) : ∃ n, c'.resultAmount = some n ∧ 0 ≤ n ∧
      (0 < n → ∃ t ∈ S'.ledger.transactions, Pays c' t ∧ Names S' c' t) := by
  rcases hd.mem_claims hc hmem hc' with rfl | ⟨hcm, -⟩
  · have hd' : d.approved = true := by
      by_contra hne
      simp [ClaimDecision.record, hne] at happroved
    obtain ⟨n, hn, hnonneg, hpos⟩ := hp.paid hd'
    refine ⟨n, by simp [ClaimDecision.record, hd', hn], hnonneg, fun hlt ↦ ?_⟩
    obtain ⟨t, ht, hnames⟩ := hpos hlt
    refine ⟨t, ?_, (hp.pays t ht).2, hnames⟩
    rw [hp.transactions]
    exact List.mem_append_right _ (Option.mem_toList.2 ht)
  · obtain ⟨n, hn, hnonneg, hpays⟩ := he.paid c' hcm happroved
    refine ⟨n, hn, hnonneg, fun hlt ↦ ?_⟩
    obtain ⟨t, ht, hpay, hnames⟩ := hpays hlt
    exact ⟨t, by rw [hp.transactions]; exact List.mem_append_left _ ht, hpay, hp.names hnames⟩

/-- A decision that posts what it pays, and nothing else, keeps the money sound. -/
theorem EffectsSound.decide (he : EffectsSound S) (hc : ClaimInvariant zones S)
    (hd : DecisionOn S S' claim d as) (hmem : claim ∈ S.claims) (hst : claim.status = .submitted)
    (hp : DecisionPosts S S' claim d row reservation event) : EffectsSound S' where
  paidRows t ht hfeat := by
    rw [hp.transactions, List.mem_append, Option.mem_toList] at ht
    rcases ht with ht | ht
    · obtain ⟨c, hcm, happroved, hpays⟩ := he.paidRows t ht hfeat
      exact ⟨c, hd.approved_mem hc hmem hst hcm happroved, happroved, hpays⟩
    · obtain ⟨happroved, hpays⟩ := hp.pays t ht
      obtain ⟨hrecord, hstatus⟩ := hd.record_mem hmem happroved
      exact ⟨_, hrecord, hstatus, hpays⟩
  rowsOnce := hp.rowsOnce he hc hmem hst
  paid c' hc' happroved := hp.paid_all he hc hd hmem hc' happroved
  within t ht hfeat i hi := by
    have hsource : ∃ source ∈ S.ledger.transactions,
        source.id = i ∧ t.amountCents ≤ source.amountCents.natAbs := by
      rw [hp.transactions, List.mem_append, Option.mem_toList] at ht
      rcases ht with ht | ht
      · exact he.within t ht hfeat i hi
      · exact hp.within t ht i hi
    obtain ⟨source, hs, hrest⟩ := hsource
    exact ⟨source, by rw [hp.transactions]; exact List.mem_append_left _ hs, hrest⟩
  reserved r hr hfeat := by
    rw [hp.reservations, List.mem_append, Option.mem_toList] at hr
    rcases hr with hr | hr
    · obtain ⟨c, hcm, happroved, hkey⟩ := he.reserved r hr hfeat
      exact ⟨c, hd.approved_mem hc hmem hst hcm happroved, happroved, hkey⟩
    · obtain ⟨happroved, hkey⟩ := hp.reserved r hr
      obtain ⟨hrecord, hstatus⟩ := hd.record_mem hmem happroved
      exact ⟨_, hrecord, hstatus, hkey⟩
  manualCredits e hev := by
    rw [hp.payrollEvents, List.mem_append, Option.mem_toList] at hev
    rcases hev with hev | hev
    · obtain ⟨c, hcm, happroved, hrest⟩ := he.manualCredits e hev
      exact ⟨c, hd.approved_mem hc hmem hst hcm happroved, happroved, hrest⟩
    · obtain ⟨happroved, hrest⟩ := hp.credited e hev
      obtain ⟨hrecord, hstatus⟩ := hd.record_mem hmem happroved
      exact ⟨_, hrecord, hstatus, hrest⟩
  manualOnce := by
    rw [hp.payrollEvents]
    refine List.pairwise_append.2 ⟨he.manualOnce, by cases event <;> simp, ?_⟩
    intro e hev e' hev' heq
    obtain ⟨c, hcm, happroved, hid, -⟩ := he.manualCredits e hev
    obtain ⟨-, hid', -⟩ := hp.credited e' (Option.mem_toList.1 hev')
    exact hc.approvalKey_ne hmem hst hcm happroved (by rw [← hid, heq, hid'])

theorem percentOf_le {cents percent : ℕ} (h : percent ≤ 10000) :
    percentOf cents percent ≤ cents :=
  Int.ofNat_le.2 (Decimal.divHalfEven_le (by decide) (Nat.mul_le_mul_left cents h))

/-- The command key of a pending claim is not taken yet. -/
theorem EffectsSound.fresh (he : EffectsSound S) (hc : ClaimInvariant zones S)
    (hmem : claim ∈ S.claims) (hst : claim.status = .submitted) (classId : String) :
    ∀ r ∈ S.ledger.reservations,
      r.identity ≠ ⟨classId, claimsFeat, adminApprovalKey claim.claimId⟩ := by
  intro r hr hid
  simp only [LedgerCommandReservation.identity, CommandIdentity.mk.injEq] at hid
  obtain ⟨c, hcm, happroved, hkey⟩ := he.reserved r hr hid.2.1
  obtain rfl := hc.claim_unique hcm hmem (adminApprovalKey_injective (hkey.symm.trans hid.2.2))
  rw [hst] at happroved
  cases happroved

theorem Decided.decisionOn (hclass : claim.classId = q.classId)
    (hdec : Decided sha256 zone env feat S q claim S') : ∃ d as, DecisionOn S S' claim d as := by
  cases hdec with
  | rejected _ => exact ⟨_, [], withDecision_on hclass S.ledger S.payrollEvents _⟩
  | reimbursed _ _ => exact ⟨_, [], withDecision_on hclass _ S.payrollEvents _⟩
  | compensated _ hcomp =>
    obtain ⟨L, events, rfl⟩ := payProductivityClaim_state hcomp.paid
    exact ⟨_, _, withAdjudications_on hclass L events _ _⟩

variable {total : ℤ} {eventId : Option ℕ} {S₁ : InsuranceState}

structure Credited (sha256 : String → String) (feat : FeatContext) (S : InsuranceState)
    (m : ManualCredit) (t : Transaction) (r : LedgerCommandReservation) (e : PayrollEvent)
    (S' : InsuranceState) : Prop where
  posted : ∃ L, RowPosted sha256 feat m.idempotencyKey m.effect.quantized S.ledger t r L ∧
    S' = { S with ledger := L, payrollEvents := S.payrollEvents ++ [e] }
  insuranceClaimId : e.insuranceClaimId = m.insuranceClaimId
  idempotencyKey : e.idempotencyKey = m.idempotencyKey
  ledgerTransactionId : e.ledgerTransactionId = t.id
  amount : e.amount = m.amount

theorem recordManualCredit_fresh (hs : LedgerSound sha256 S.ledger) {m : ManualCredit}
    (hkey : m.idempotencyKey ≠ "")
    (hfresh : ∀ r ∈ S.ledger.reservations,
      r.identity ≠ ⟨m.classId, feat.activeFeat, m.idempotencyKey⟩)
    (hnone : ∀ e ∈ S.payrollEvents, e.idempotencyKey ≠ m.idempotencyKey) {id : ℕ}
    (hok : recordManualCredit sha256 feat S m = .ok (id, S')) :
    ∃ t r e, Credited sha256 feat S m t r e S' ∧ id = e.id := by
  unfold recordManualCredit at hok
  split at hok
  · next e he =>
    have hfields : e.classId = m.classId ∧ e.targetSeatId = m.targetSeatId ∧
        e.idempotencyKey = m.idempotencyKey := by simpa using List.find?_some he
    exact absurd hfields.2.2 (hnone e (List.mem_of_find?_eq_some he))
  · rw [require_bind_eq_ok] at hok
    simp only [bind_eq_ok, Prod.exists, demand_eq_ok, pure_eq_ok, Prod.mk.injEq] at hok
    obtain ⟨-, rows, L, hpending, row, hrow, rfl, rfl⟩ := hok
    obtain ⟨t, r, rfl, hposted⟩ := RowPosted.pending hs hkey rfl hfresh hpending
    obtain rfl : t = row := Option.some.inj hrow
    exact ⟨t, r, _, ⟨⟨L, hposted, rfl⟩, rfl, rfl, rfl, rfl⟩, rfl⟩

theorem payProductivityClaim_fresh (hs : LedgerSound sha256 S.ledger)
    (hkey : q.idempotencyKey ≠ "")
    (hfresh : ∀ r ∈ S.ledger.reservations,
      r.identity ≠ ⟨q.classId, feat.activeFeat, q.idempotencyKey⟩)
    (hnone : ∀ e ∈ S.payrollEvents, e.idempotencyKey ≠ q.idempotencyKey)
    (hok : payProductivityClaim sha256 env feat S q claim total = .ok (eventId, S₁)) :
    (¬ 0 < total ∧ S₁ = S) ∨ (0 < total ∧ ∃ policyUuid t r e, eventId = some e.id ∧
      Credited sha256 feat S ⟨q.classId, claim.targetSeatId, q.teacherSeatId, q.idempotencyKey,
        policyUuid, total, claim.claimId⟩ t r e S₁) := by
  unfold payProductivityClaim at hok
  split_ifs at hok with hpos
  · simp only [bind_eq_ok, Prod.exists, pure_eq_ok, Prod.mk.injEq, demand_eq_ok] at hok
    obtain ⟨setting, -, id, S₂, hrecord, rfl, rfl⟩ := hok
    obtain ⟨t, r, e, hcredited, rfl⟩ := recordManualCredit_fresh hs hkey hfresh hnone hrecord
    exact .inr ⟨hpos, setting.policyUuid, t, r, e, rfl, hcredited⟩
  · rw [pure_eq_ok, Prod.mk.injEq] at hok
    exact .inl ⟨hpos, hok.2.symm⟩

/-- The row that an approval posts under its key pays the claim as it is recorded. -/
theorem pays_of_posted {e : Effect} {t : Transaction} {r : LedgerCommandReservation}
    {L : LedgerState} {n : ℤ}
    (hposted : RowPosted sha256 feat (adminApprovalKey claim.claimId) e S.ledger t r L)
    (hfeat : feat.activeFeat = claimsFeat) (hclass : e.classId = claim.classId)
    (hseat : e.seatId = claim.targetSeatId) (hamount : t.amountCents = creditCents n)
    (hpos : 0 < n)
    (hsource : ∀ i, e.originalTransactionId = some i → claim.claimBasis.transactionId = some i)
    (happroved : d.approved = true) (hresult : d.resultAmount = some n) :
    Pays (d.record claim) t where
  featCode := by rw [hposted.rowOf.featCode, hfeat]
  classId := hposted.rowOf.classId.trans hclass
  seatId := hposted.rowOf.seatId.trans hseat
  idempotencyKey := by
    have hid := hposted.identity
    simp only [LedgerCommandReservation.identity, CommandIdentity.mk.injEq] at hid
    rw [hposted.rowOf.idempotencyKey, Option.map_some, hid.2.2]
    rfl
  amount := ⟨n, by simp [ClaimDecision.record, happroved, hresult], hpos, hamount⟩
  source i hi := hsource i (hposted.rowOf.originalTransactionId.symm.trans hi)

theorem key_of_posted {e : Effect} {t : Transaction} {r : LedgerCommandReservation}
    {L : LedgerState} {key : String} (hposted : RowPosted sha256 feat key e S.ledger t r L) :
    r.idempotencyKey = key := by
  have hid := hposted.identity
  simp only [LedgerCommandReservation.identity, CommandIdentity.mk.injEq] at hid
  exact hid.2.2

theorem EffectsSound.reject (he : EffectsSound S) (hc : ClaimInvariant zones S)
    (hmem : claim ∈ S.claims) (hclass : claim.classId = q.classId)
    (hst : claim.status = .submitted) (hrejected : d.approved = false) :
    EffectsSound (withDecision S q.classId claim.claimId d) := by
  have hd : DecisionOn S (withDecision S q.classId claim.claimId d) claim d [] :=
    withDecision_on hclass S.ledger S.payrollEvents d
  refine he.decide hc hd hmem hst (.nothing rfl rfl (fun happroved ↦ ?_))
  rw [hrejected] at happroved
  cases happroved

theorem Reimbursed.posts {policy : InsurancePolicy} {percent : ℕ} {source t : Transaction}
    {period : CoveragePeriod} {amount : ℤ} {L : LedgerState} {r : LedgerCommandReservation}
    (hr : Reimbursed sha256 zone env feat S q claim policy percent source period amount t L)
    (hclass : claim.classId = q.classId) (hfeat : feat.activeFeat = claimsFeat)
    (hposted : RowPosted sha256 feat (adminApprovalKey claim.claimId)
      (reimbursementEffect q claim source amount) S.ledger t r L) :
    DecisionPosts S (withDecision { S with ledger := L } q.classId claim.claimId
      (approvalOf feat q amount none (some t.id) q.filingWindowOverrideReason)) claim
      (approvalOf feat q amount none (some t.id) q.filingWindowOverrideReason)
      (some t) (some r) none where
  transactions := hposted.transactions
  reservations := hposted.reservations
  payrollEvents := (List.append_nil _).symm
  pays t' ht' := by
    obtain rfl := Option.some.inj ht'
    refine ⟨rfl, pays_of_posted hposted hfeat hclass.symm rfl hposted.rowOf.amount hr.positive ?_
      rfl rfl⟩
    intro i hi
    rw [← hi]
    exact hr.subject
  within t' ht' i hi := by
    obtain rfl := Option.some.inj ht'
    have horiginal : t.originalTransactionId = some source.id := hposted.rowOf.originalTransactionId
    refine ⟨source, hr.ofSource, Option.some.inj (horiginal.symm.trans hi), ?_⟩
    have hpercent : percent ≤ 10000 := policy.reimbursement_range percent (by simp [hr.pricedAt])
    calc t.amountCents = creditCents amount := hposted.rowOf.amount
      _ ≤ amount := (creditCents_bounds hr.positive.le).2
      _ ≤ percentOf source.amountCents.natAbs percent := hr.amount_eq.trans_le (min_le_left _ _)
      _ ≤ source.amountCents.natAbs := percentOf_le hpercent
  reserved r' hr' := by
    obtain rfl := Option.some.inj hr'
    exact ⟨rfl, key_of_posted hposted⟩
  credited := by simp
  paid _ := ⟨amount, rfl, hr.positive.le, fun _ ↦ ⟨t, rfl, .inl rfl⟩⟩

theorem EffectsSound.reimburse {policy : InsurancePolicy} {percent : ℕ}
    {source row : Transaction} {period : CoveragePeriod} {amount : ℤ} {L : LedgerState}
    (he : EffectsSound S) (hc : ClaimInvariant zones S) (hs : LedgerSound sha256 S.ledger)
    (hmem : claim ∈ S.claims) (hclass : claim.classId = q.classId)
    (hst : claim.status = .submitted) (hfeat : feat.activeFeat = claimsFeat)
    (hkey : q.idempotencyKey = adminApprovalKey claim.claimId)
    (hfresh : ∀ r ∈ S.ledger.reservations,
      r.identity ≠ ⟨q.classId, feat.activeFeat, q.idempotencyKey⟩)
    (hr : Reimbursed sha256 zone env feat S q claim policy percent source period amount row L) :
    EffectsSound (withDecision { S with ledger := L } q.classId claim.claimId
      (approvalOf feat q amount none (some row.id) q.filingWindowOverrideReason)) ∧
        LedgerGrows sha256 S.ledger L := by
  obtain ⟨rows, created, hok, hhead⟩ := hr.credit
  obtain ⟨t, r, rfl, hposted⟩ := RowPosted.idempotent hs rfl hfresh hok
  obtain rfl : t = row := Option.some.inj hhead
  rw [hkey] at hposted
  have hd := withDecision_on (S := S) hclass L S.payrollEvents
    (approvalOf feat q amount none (some t.id) q.filingWindowOverrideReason)
  exact ⟨he.decide hc hd hmem hst (hr.posts hclass hfeat hposted), hposted.toLedgerGrows⟩

theorem Credited.posts {policyUuid : String} {t : Transaction} {r : LedgerCommandReservation}
    {e : PayrollEvent} (as : List Adjudication) (hclass : claim.classId = q.classId)
    (hfeat : feat.activeFeat = claimsFeat)
    (hkey : q.idempotencyKey = adminApprovalKey claim.claimId) (hpos : 0 < total)
    (hcredited : Credited sha256 feat S ⟨q.classId, claim.targetSeatId, q.teacherSeatId,
      q.idempotencyKey, policyUuid, total, claim.claimId⟩ t r e S₁) :
    DecisionPosts S (withDecision (withAdjudications S₁ q.classId claim.claimId as) q.classId
      claim.claimId (approvalOf feat q total (some e.id) none "")) claim
      (approvalOf feat q total (some e.id) none "") (some t) (some r) (some e) := by
  obtain ⟨L, hposted, rfl⟩ := hcredited.posted
  have hcents : t.amountCents = creditCents total := by
    rw [hposted.rowOf.amount]
    exact creditCents_quantized total
  have horiginal : t.originalTransactionId = none := hposted.rowOf.originalTransactionId
  dsimp only at hposted
  rw [hkey] at hposted
  refine ⟨hposted.transactions, hposted.reservations, rfl, ?_, ?_, ?_, ?_, ?_⟩
  · intro t' ht'
    obtain rfl := Option.some.inj ht'
    refine ⟨rfl, pays_of_posted hposted hfeat hclass.symm rfl hcents hpos ?_ rfl rfl⟩
    intro i hi
    cases hi
  · intro t' ht' i hi
    obtain rfl := Option.some.inj ht'
    rw [horiginal] at hi
    cases hi
  · intro r' hr'
    obtain rfl := Option.some.inj hr'
    exact ⟨rfl, key_of_posted hposted⟩
  · intro e' he'
    obtain rfl := Option.some.inj he'
    exact ⟨rfl, hcredited.insuranceClaimId, hcredited.idempotencyKey.trans hkey⟩
  · refine fun _ ↦ ⟨total, rfl, hpos.le, fun _ ↦ ⟨t, rfl, .inr ⟨e, ?_, rfl, ?_, ?_, ?_⟩⟩⟩
    · exact List.mem_append_right _ (List.mem_singleton_self e)
    · exact hcredited.insuranceClaimId
    · exact hcredited.ledgerTransactionId
    · exact congrArg some hcredited.amount.symm

theorem EffectsSound.compensate {policy : InsurancePolicy} {percent : ℕ}
    {period : CoveragePeriod} (he : EffectsSound S) (hc : ClaimInvariant zones S)
    (hs : LedgerSound sha256 S.ledger) (hmem : claim ∈ S.claims)
    (hclass : claim.classId = q.classId) (hst : claim.status = .submitted)
    (hfeat : feat.activeFeat = claimsFeat)
    (hkey : q.idempotencyKey = adminApprovalKey claim.claimId)
    (hfresh : ∀ r ∈ S.ledger.reservations,
      r.identity ≠ ⟨q.classId, feat.activeFeat, q.idempotencyKey⟩)
    (hcomp : Compensated sha256 env feat S q claim policy percent period as total eventId S₁) :
    EffectsSound (withDecision (withAdjudications S₁ q.classId claim.claimId as) q.classId
      claim.claimId (approvalOf feat q total eventId none "")) ∧
        LedgerGrows sha256 S.ledger S₁.ledger := by
  have hnone : ∀ e ∈ S.payrollEvents, e.idempotencyKey ≠ q.idempotencyKey := by
    intro e hev heq
    obtain ⟨c, hcm, happroved, -, hekey⟩ := he.manualCredits e hev
    exact hc.approvalKey_ne hmem hst hcm happroved (hekey.symm.trans (heq.trans hkey))
  rcases payProductivityClaim_fresh hs (hkey ▸ adminApprovalKey_ne _) hfresh hnone hcomp.paid with
    ⟨hzero, rfl⟩ | ⟨hpos, policyUuid, t, r, e, rfl, hcredited⟩
  · have hnonneg : 0 ≤ total := by
      rw [hcomp.total_eq]
      refine List.sum_nonneg (fun x hx ↦ ?_)
      obtain ⟨a, ha, rfl⟩ := List.mem_map.1 hx
      exact (adjudicateDates_ok hcomp.adjudicated).2.1 a ha
    obtain rfl : total = 0 := le_antisymm (not_lt.1 hzero) hnonneg
    have hd := withAdjudications_on (S := S₁) hclass S₁.ledger S₁.payrollEvents as
      (approvalOf feat q 0 eventId none "")
    exact ⟨he.decide hc hd hmem hst (.nothing rfl rfl (fun _ ↦ rfl)), .refl hs⟩
  · have hposts := hcredited.posts as hclass hfeat hkey hpos
    obtain ⟨L, hposted, rfl⟩ := hcredited.posted
    have hd := withAdjudications_on (S := S) hclass L (S.payrollEvents ++ [e]) as
      (approvalOf feat q total (some e.id) none "")
    exact ⟨he.decide hc hd hmem hst hposts, hposted.toLedgerGrows⟩

/-- A decision keeps the money of the claims sound, and the Ledger grows by at most its credit. -/
theorem EffectsSound.resolve (he : EffectsSound S) (hc : ClaimInvariant zones S)
    (hs : LedgerSound sha256 S.ledger) (hmem : claim ∈ S.claims)
    (hclass : claim.classId = q.classId) (hst : claim.status = .submitted)
    (hfeat : feat.activeFeat = claimsFeat) (hkey : q.idempotencyKey = adminApprovalKey claim.claimId)
    (hdec : Decided sha256 zone env feat S q claim S') :
    EffectsSound S' ∧ LedgerGrows sha256 S.ledger S'.ledger := by
  have hfresh : ∀ r ∈ S.ledger.reservations,
      r.identity ≠ ⟨q.classId, feat.activeFeat, q.idempotencyKey⟩ := by
    rw [hfeat, hkey]
    exact he.fresh hc hmem hst q.classId
  cases hdec with
  | rejected hrejected => exact ⟨he.reject hc hmem hclass hst hrejected, .refl hs⟩
  | reimbursed _ hr => exact he.reimburse hc hs hmem hclass hst hfeat hkey hfresh hr
  | compensated _ hcomp => exact he.compensate hc hs hmem hclass hst hfeat hkey hfresh hcomp

end Decisions

end TokenHub.Insurance
