import TokenHub.Rent.LifecycleRuns
import TokenHub.Insurance.SystemRuns

set_option autoImplicit false

namespace TokenHub.Insurance

open Ledger Rent Lib.Checks Lib.Runs Lib.SequencedLog

variable {sha256 : String → String} {zones : String → CoverageZone} {bounded : Prop}
  {S : InsuranceState}

def tablesAfter (sha256 : String → String) (zones : String → CoverageZone) (clock : Instant)
    (seatClass : ℕ → Option String) (as : List TimedAction) : InsuranceState :=
  (run (systemStep sha256 zones) (.start clock seatClass) as).tables

theorem tablesAfter_sound (sha256 : String → String) (zones : String → CoverageZone)
    (clock : Instant) (seatClass : ℕ → Option String) (as : List TimedAction) :
    SystemSound sha256 zones False (tablesAfter sha256 zones clock seatClass as) :=
  (SystemSound.run (s := .start clock seatClass) (.start seatClass) (fun h ↦ h.elim)).sound

theorem tablesAfter_kept (sha256 : String → String) (zones : String → CoverageZone)
    (clock : Instant) (seatClass : ℕ → Option String) (as bs : List TimedAction) :
    SystemKept sha256 zones False
      (tablesAfter sha256 zones clock seatClass as)
      (tablesAfter sha256 zones clock seatClass (as ++ bs)) := by
  rw [tablesAfter, tablesAfter, run_append]
  exact (tablesAfter_sound sha256 zones clock seatClass as).run (fun h ↦ h.elim)

section Samples

def utcCoverage : CoverageZone where
  toClassZone := utcZone
  shiftDays t n := t + day n
  le_localDate t d h := Int.le_ediv_of_mul_le (by decide) h

def oneStudent (seatId : ℕ) : Option String :=
  if seatId = 1 ∨ seatId = 2 then some "c" else none

def sampleClaimSurroundings : ClaimSurroundings where
  toSurroundings := { sampleSurroundings with teacherSeat := fun _ ↦ .ok 2 }
  goalCorrelations := []
  baseReady := fun _ ↦ true
  dailyLimitSeconds := fun _ ↦ none
  workedSeconds := fun _ _ _ ↦ 0
  payrollSetting := fun _ ↦ some ⟨"p", ⟨25, -2⟩⟩

/-- Full reimbursement for a weekly premium of 1.00, up to ten times that. -/
def reimbursementPolicy (policyUuid : String) : InsurancePolicy where
  policyUuid := policyUuid
  classId := "c"
  insuranceType := .transaction
  premium := 100
  chargeFrequency := .weekly
  reimbursementPercentage := some 10000
  payoutMultiple := some 1000
  claimsPerWeekEquivalent := some 1000
  claimWindowDays := some 5
  claimableDatesPerWeekEquivalent := none
  waitingPeriodDays := none
  billPreviewDays := some 1
  nonpaymentMode := some .accumulate
  cancelAfterDays := none
  tierGroupId := none
  supersedesPolicyUuid := none
  availabilityState := .inUse
  createdAt := 0
  reimbursement_range := by decide
  type_subset := by decide

def productivityPolicy : InsurancePolicy :=
  { reimbursementPolicy "p1" with
    insuranceType := .productivity
    claimsPerWeekEquivalent := none
    claimWindowDays := none
    claimableDatesPerWeekEquivalent := some 1000
    type_subset := by decide }

def servicePolicy : InsurancePolicy :=
  { reimbursementPolicy "p1" with
    insuranceType := .nonMonetary
    reimbursementPercentage := none
    payoutMultiple := none
    claimWindowDays := none
    waitingPeriodDays := some 0
    reimbursement_range := by decide
    type_subset := by decide }

/-- A teacher's posting to the student's checking account. -/
def teacherPost (key : String) (cents : ℤ) (type : String) : InsuranceAction :=
  .post ⟨"FEAT-ADM", "corr_" ++ key, 0⟩ ⟨"c", "FEAT-ADM", key⟩ [{
    seatId := 1, classId := "c", targetSeatId := 1, actorSeatId := 2, mechanism := "teacher",
    amount := some (.ofCents cents), accountType := "checking", type := some type }] .null

def buysCoverage (policyUuid : String) : InsuranceAction :=
  .purchase sampleClaimSurroundings.toSurroundings ("corr_" ++ policyUuid)
    ⟨"c", 1, policyUuid, "buy-" ++ policyUuid⟩

def filesClaim (entitlementId : ℕ) (subject : ClaimSubject) (key : String) : InsuranceAction :=
  .submit sampleClaimSurroundings ⟨"c", 1, entitlementId, subject, key⟩

def approvesClaim (claimId : ℕ) (adjustment : Option DateAdjustment) : InsuranceAction :=
  .resolve sampleClaimSurroundings ("corr_" ++ numberText claimId)
    { classId := "c", claimId := claimId, approved := true, teacherSeatId := 2,
      dateAdjustments := fun _ ↦ adjustment, idempotencyKey := "" }

def sampleTables (actions : List InsuranceAction) : InsuranceState :=
  tablesAfter (fun _ ↦ "x") (fun _ ↦ utcCoverage) (day 4) oneStudent (actions.map (⟨1, ·⟩))

end Samples

section Losses

variable (S)

/-- The rows that pay claims of an entitlement for a source transaction. -/
def reimbursements (classId : String) (entitlementId transactionId : ℕ) : List Transaction :=
  S.ledger.transactions.filter (fun t ↦ t.featCode = claimsFeat ∧ t.classId = classId ∧
    t.originalTransactionId = some transactionId ∧ ∃ c ∈ S.claims, c.classId = classId ∧
      c.entitlementId = entitlementId ∧ t.idempotencyKey = some (adminApprovalKey c.claimId))

/-- What was reimbursed for a source transaction through an entitlement, in cents. -/
def reimbursed (classId : String) (entitlementId transactionId : ℕ) : ℤ :=
  ((reimbursements S classId entitlementId transactionId).map (·.amountCents)).sum

variable {S}

theorem ClaimInvariant.live_unique (h : ClaimInvariant zones S) {c c' : InsuranceClaim}
    (hc : c ∈ S.claims) (hc' : c' ∈ S.claims) (hclass : c.classId = c'.classId)
    (hent : c.entitlementId = c'.entitlementId)
    (hsource : c.claimBasis.transactionId = c'.claimBasis.transactionId)
    (hsome : c.claimBasis.transactionId.isSome) (hlive : c.status ≠ .rejected)
    (hlive' : c'.status ≠ .rejected) : c = c' := by
  by_contra hne
  have : Std.Symm (fun c c' : InsuranceClaim ↦ c.classId = c'.classId →
      c.entitlementId = c'.entitlementId →
      c.claimBasis.transactionId = c'.claimBasis.transactionId →
      c.claimBasis.transactionId.isSome → ¬ (c.status ≠ .rejected ∧ c'.status ≠ .rejected)) :=
    ⟨fun x y hxy hcl he ht hs hboth ↦
      hxy hcl.symm he.symm ht.symm (by rw [← ht]; exact hs) hboth.symm⟩
  exact h.transactionsOnce.forall hc hc' hne hclass hent hsource hsome ⟨hlive, hlive'⟩

theorem SystemSound.reimbursement (h : SystemSound sha256 zones bounded S) {classId : String}
    {entitlementId transactionId : ℕ} {t : Transaction}
    (ht : t ∈ reimbursements S classId entitlementId transactionId) :
    t ∈ S.ledger.transactions ∧ t.featCode = claimsFeat ∧
      t.originalTransactionId = some transactionId ∧ ∃ c ∈ S.claims, Pays c t ∧
        c.status = .approved ∧ c.classId = classId ∧ c.entitlementId = entitlementId ∧
          c.claimBasis.transactionId = some transactionId := by
  obtain ⟨hmem, hfields⟩ := List.mem_filter.1 ht
  obtain ⟨hfeat, -, horiginal, c, hc, hclass, hent, hkey⟩ := of_decide_eq_true hfields
  obtain ⟨c', hc', happroved, hpays⟩ := h.effects.paidRows t hmem hfeat
  have hsame : c = c' := by
    refine h.claims.claim_unique hc hc' (adminApprovalKey_injective ?_)
    rw [hpays.idempotencyKey, Option.some.injEq] at hkey
    exact hkey.symm
  subst hsame
  exact ⟨hmem, hfeat, horiginal, c, hc, hpays, happroved, hclass, hent,
    hpays.source transactionId horiginal⟩

/-- No two rows pay an entitlement for one transaction. -/
theorem SystemSound.reimbursements_length (h : SystemSound sha256 zones bounded S)
    (classId : String) (entitlementId transactionId : ℕ) :
    (reimbursements S classId entitlementId transactionId).length ≤ 1 := by
  have hpair : (reimbursements S classId entitlementId transactionId).Pairwise
      (fun t t' ↦ t.idempotencyKey ≠ t'.idempotencyKey) := by
    have honce := h.effects.rowsOnce
    rw [List.pairwise_filter] at honce
    rw [reimbursements, List.pairwise_filter]
    refine honce.imp (fun {t t'} hne ht ht' ↦ hne ?_ ?_)
    · exact decide_eq_true (of_decide_eq_true ht).1
    · exact decide_eq_true (of_decide_eq_true ht').1
  by_contra hlong
  obtain ⟨t, t', ht⟩ : ∃ t t' ts, reimbursements S classId entitlementId transactionId =
      t :: t' :: ts := by
    match hrows : reimbursements S classId entitlementId transactionId with
    | [] => simp [hrows] at hlong
    | [_] => simp [hrows] at hlong
    | t :: t' :: ts => exact ⟨t, t', ts, rfl⟩
  obtain ⟨ts, hrows⟩ := ht
  rw [hrows, List.pairwise_cons] at hpair
  have hne := hpair.1 t' List.mem_cons_self
  obtain ⟨-, -, -, c, hc, hpays, happroved, hclass, hent, hsource⟩ :=
    h.reimbursement (hrows ▸ List.mem_cons_self)
  obtain ⟨-, -, -, c', hc', hpays', happroved', hclass', hent', hsource'⟩ :=
    h.reimbursement (t := t') (hrows ▸ List.mem_cons_of_mem _ List.mem_cons_self)
  have hsame : c = c' := by
    refine h.claims.live_unique hc hc' (hclass.trans hclass'.symm) (hent.trans hent'.symm)
      (hsource.trans hsource'.symm) ?_ ?_ ?_
    · rw [hsource]
      rfl
    · rw [happroved]
      simp
    · rw [happroved']
      simp
  rw [hpays.idempotencyKey, hpays'.idempotencyKey, hsame] at hne
  exact hne rfl

theorem SystemSound.reimbursed_le (h : SystemSound sha256 zones bounded S) (classId : String)
    (entitlementId : ℕ) {source : Transaction} (hsource : source ∈ S.ledger.transactions) :
    reimbursed S classId entitlementId source.id ≤ source.amountCents.natAbs := by
  have hlen := h.reimbursements_length classId entitlementId source.id
  unfold reimbursed
  match hrows : reimbursements S classId entitlementId source.id with
  | [] => simp
  | [t] =>
    obtain ⟨ht, hfeat, horiginal, -⟩ := h.reimbursement (hrows ▸ List.mem_singleton_self t)
    obtain ⟨source', hs', hid, hle⟩ := h.effects.within t ht hfeat source.id horiginal
    obtain rfl := h.coverage.ledger.credits.numbered.unique hs' hsource hid
    simpa using hle
  | _ :: _ :: _ => simp [hrows] at hlen

/-- In every state of every run, each transaction backs at most one pending or approved claim of
an entitlement, and what the entitlement was reimbursed for it is within its amount. -/
theorem loss_reimbursed_within_transaction (sha256 : String → String)
    (zones : String → CoverageZone) (clock : Instant) (seatClass : ℕ → Option String)
    (as : List TimedAction) :
    (∀ c ∈ (tablesAfter sha256 zones clock seatClass as).claims,
      ∀ c' ∈ (tablesAfter sha256 zones clock seatClass as).claims, c.classId = c'.classId →
        c.entitlementId = c'.entitlementId →
        c.claimBasis.transactionId = c'.claimBasis.transactionId →
        c.claimBasis.transactionId.isSome → c.status ≠ .rejected → c'.status ≠ .rejected →
          c = c') ∧
      ∀ classId entitlementId,
        ∀ source ∈ (tablesAfter sha256 zones clock seatClass as).ledger.transactions,
          reimbursed (tablesAfter sha256 zones clock seatClass as) classId entitlementId
            source.id ≤ source.amountCents.natAbs := by
  have h := tablesAfter_sound sha256 zones clock seatClass as
  refine ⟨fun c hc c' hc' hclass hent hsource hsome hlive hlive' ↦ ?_, ?_⟩
  · exact h.claims.live_unique hc hc' hclass hent hsource hsome hlive hlive'
  · exact fun classId entitlementId source hs ↦ h.reimbursed_le classId entitlementId hs

def coveredTwice : InsuranceState :=
  sampleTables [.createPolicy (reimbursementPolicy "p1"), .createPolicy (reimbursementPolicy "p2"),
    teacherPost "deposit" 1000 "manual_payment", buysCoverage "p1", buysCoverage "p2",
    teacherPost "loss" (-300) "penalty", filesClaim 1 { transactionId := some 4 } "f1",
    filesClaim 2 { transactionId := some 4 } "f2", approvesClaim 1 none, approvesClaim 2 none]

/-- A loss of 3.00 that backs two approved claims, and is reimbursed by both. -/
theorem loss_reimbursed_by_two_coverages :
    ∃ c ∈ coveredTwice.claims, ∃ c' ∈ coveredTwice.claims, c ≠ c' ∧
      c.targetSeatId = c'.targetSeatId ∧ c.claimBasis.transactionId = some 4 ∧
      c'.claimBasis.transactionId = some 4 ∧ c.status = .approved ∧ c'.status = .approved ∧
      ∃ source ∈ coveredTwice.ledger.transactions, source.id = 4 ∧
        (source.amountCents.natAbs : ℤ) < reimbursed coveredTwice "c" c.entitlementId 4 +
          reimbursed coveredTwice "c" c'.entitlementId 4 := by
  decide +kernel

end Losses

section Limits

/-- The rows under the command key of a claim's approval. -/
def creditsOf (S : InsuranceState) (c : InsuranceClaim) : List Transaction :=
  S.ledger.transactions.filter (fun t ↦ t.classId = c.classId ∧ t.featCode = claimsFeat ∧
    t.idempotencyKey = some (adminApprovalKey c.claimId))

def manualCreditsOf (S : InsuranceState) (c : InsuranceClaim) : List PayrollEvent :=
  S.payrollEvents.filter (·.insuranceClaimId = c.claimId)

def filedInWeek (zones : String → CoverageZone) (S : InsuranceState) (g : CoverageEvent)
    (t : Instant) : List InsuranceClaim :=
  (listClaims S g.classId g.entitlementId).filter (FiledIn
    (filingWeekBounds (zones g.classId).toClassZone t).1
    (filingWeekBounds (zones g.classId).toClassZone t).2)

/-- The claims of every entitlement are within the limits of its version, and each positive result
is paid once. A week is counted unless a clock change repeats the midnight that ends it. -/
structure WithinLimits (zones : String → CoverageZone) (S : InsuranceState) : Prop where
  payouts : ∀ g p, Granted S g → PolicyOf S g p →
    ∀ b ∈ lineage S.toRentState g.entitlementId, b.nextAssessmentAt.isSome →
      sumApprovedPayouts S g.classId g.entitlementId (startOf b) (stopOf b) ≤
        maximumPolicyPayout p
  weeklyClaims : ∀ g p, Granted S g → PolicyOf S g p → p.insuranceType = .transaction →
    ∀ t, WeekCloses (zones g.classId).toClassZone t →
      (filedInWeek zones S g t).length ≤ weeklyClaimAllowance p
  weeklyDates : ∀ g p, Granted S g → PolicyOf S g p → p.insuranceType = .productivity →
    ∀ t, WeekCloses (zones g.classId).toClassZone t →
      (filedInWeek zones S g t).length ≤ weeklyDateAllowance p ∧
      ((filedInWeek zones S g t).map (fun c ↦ c.claimBasis.claimedDates.length)).sum ≤
        weeklyDateAllowance p
  datesOnce : S.claimDates.Pairwise (fun r r' ↦ r.classId = r'.classId →
    r.entitlementId = r'.entitlementId → r.claimDate = r'.claimDate → ¬ (Live S r ∧ Live S r'))
  credits : ∀ c ∈ S.claims, (creditsOf S c).length =
    if c.status = .approved ∧ 0 < c.resultAmount.getD 0 then 1 else 0
  named : ∀ c ∈ S.claims, ∀ t ∈ creditsOf S c, Pays c t ∧ Names S c t
  manualCredits : ∀ c ∈ S.claims, (manualCreditsOf S c).length ≤ 1 ∧
    (c.status ≠ .approved → manualCreditsOf S c = [])

theorem length_le_sum {α : Type} {f : α → ℕ} {l : List α} (h : ∀ x ∈ l, 1 ≤ f x) :
    l.length ≤ (l.map f).sum := by
  induction l with
  | nil => simp
  | cons x l ih =>
    have hx := h x (by simp)
    have hl := ih (fun y hy ↦ h y (by simp [hy]))
    rw [List.length_cons, List.map_cons, List.sum_cons]
    omega

theorem SystemSound.credit (h : SystemSound sha256 zones bounded S) {c : InsuranceClaim}
    (hc : c ∈ S.claims) {t : Transaction} (ht : t ∈ creditsOf S c) :
    t ∈ S.ledger.transactions ∧ c.status = .approved ∧ Pays c t := by
  obtain ⟨hmem, hfields⟩ := List.mem_filter.1 ht
  obtain ⟨-, hfeat, hkey⟩ := of_decide_eq_true hfields
  obtain ⟨c', hc', happroved, hpays⟩ := h.effects.paidRows t hmem hfeat
  have hsame : c = c' := by
    refine h.claims.claim_unique hc hc' (adminApprovalKey_injective ?_)
    rw [hpays.idempotencyKey, Option.some.injEq] at hkey
    exact hkey.symm
  rw [hsame]
  exact ⟨hmem, happroved, hpays⟩

theorem SystemSound.credits_pairwise (h : SystemSound sha256 zones bounded S)
    (c : InsuranceClaim) : (creditsOf S c).Pairwise (fun _ _ ↦ False) := by
  have honce := h.effects.rowsOnce
  rw [List.pairwise_filter] at honce
  rw [creditsOf, List.pairwise_filter]
  refine honce.imp (fun {t t'} hne ht ht' ↦ hne ?_ ?_ ?_)
  · exact decide_eq_true (of_decide_eq_true ht).2.1
  · exact decide_eq_true (of_decide_eq_true ht').2.1
  · exact (of_decide_eq_true ht).2.2.trans (of_decide_eq_true ht').2.2.symm

theorem length_le_one {α : Type} {l : List α} (h : l.Pairwise (fun _ _ ↦ False)) :
    l.length ≤ 1 := by
  match l with
  | [] => simp
  | [_] => simp
  | x :: y :: l =>
    rw [List.pairwise_cons] at h
    exact (h.1 y List.mem_cons_self).elim

theorem SystemSound.credits_length (h : SystemSound sha256 zones bounded S) {c : InsuranceClaim}
    (hc : c ∈ S.claims) : (creditsOf S c).length =
      if c.status = .approved ∧ 0 < c.resultAmount.getD 0 then 1 else 0 := by
  have hle := length_le_one (h.credits_pairwise c)
  split_ifs with hpaid
  · obtain ⟨n, hn, -, hpays⟩ := h.effects.paid c hc hpaid.1
    rw [hn, Option.getD_some] at hpaid
    obtain ⟨t, ht, hpay, -⟩ := hpays hpaid.2
    have hmem : t ∈ creditsOf S c :=
      List.mem_filter.2 ⟨ht, decide_eq_true ⟨hpay.classId, hpay.featCode, hpay.idempotencyKey⟩⟩
    have hpos := List.length_pos_of_mem hmem
    omega
  · by_contra hne
    obtain ⟨t, ht⟩ := List.exists_mem_of_length_pos (Nat.pos_of_ne_zero hne)
    obtain ⟨-, happroved, hpays⟩ := h.credit hc ht
    obtain ⟨n, hn, hpos, -⟩ := hpays.amount
    exact hpaid ⟨happroved, by rw [hn]; exact hpos⟩

theorem SystemSound.withinLimits (h : SystemSound sha256 zones bounded S) :
    WithinLimits zones S where
  payouts := h.claims.payouts
  weeklyClaims := h.claims.weeklyClaims
  weeklyDates := fun g p hg hp htype t hcloses ↦ by
    have hdates : ((filedInWeek zones S g t).map
        (fun c ↦ c.claimBasis.claimedDates.length)).sum ≤ weeklyDateAllowance p :=
      h.claims.weeklyDates g p hg hp htype t hcloses
    refine ⟨(length_le_sum (fun c hc ↦ ?_)).trans hdates, hdates⟩
    obtain ⟨hmem, hfields⟩ := List.mem_filter.1 (List.mem_filter.1 hc).1
    have hent := (of_decide_eq_true hfields).2
    have hunder := h.claims.targetSeat h.coverage hg hmem hent
    exact List.length_pos_of_ne_nil (h.claims.asserts c hmem g p hg hunder hp htype)
  datesOnce := h.claims.datesOnce
  credits := fun c hc ↦ h.credits_length hc
  named := fun c hc t ht ↦ by
    obtain ⟨hmem, happroved, hpays⟩ := h.credit hc ht
    refine ⟨hpays, ?_⟩
    obtain ⟨n, hn, hpos, -⟩ := hpays.amount
    obtain ⟨n', hn', -, hnamed⟩ := h.effects.paid c hc happroved
    obtain rfl : n = n' := Option.some.inj (hn.symm.trans hn')
    obtain ⟨t', ht', hpays', hnames⟩ := hnamed hpos
    have hmem' : t' ∈ creditsOf S c := List.mem_filter.2 ⟨ht', decide_eq_true
      ⟨hpays'.classId, hpays'.featCode, hpays'.idempotencyKey⟩⟩
    obtain ⟨u, hu⟩ := List.length_eq_one_iff.1 (Nat.le_antisymm
      (length_le_one (h.credits_pairwise c)) (List.length_pos_of_mem ht))
    rw [hu, List.mem_singleton] at ht hmem'
    rw [ht, ← hmem']
    exact hnames
  manualCredits := fun c hc ↦ by
    refine ⟨length_le_one ?_, fun hne ↦ ?_⟩
    · rw [manualCreditsOf, List.pairwise_filter]
      refine h.effects.manualOnce.imp (fun {e e'} hne he he' ↦ hne ?_)
      rw [of_decide_eq_true he, of_decide_eq_true he']
    · rw [manualCreditsOf, List.filter_eq_nil_iff]
      intro e he
      obtain ⟨c', hc', happroved, hid, -⟩ := h.effects.manualCredits e he
      simp only [decide_eq_true_eq]
      intro hmine
      obtain rfl := h.claims.claim_unique hc hc' (hmine.symm.trans hid)
      exact hne happroved

/-- In every state of every run the claims are within the limits of their policies, and what was
decided stays. -/
theorem insurance_claims_within_limits (sha256 : String → String)
    (zones : String → CoverageZone) (clock : Instant) (seatClass : ℕ → Option String)
    (as : List TimedAction) : WithinLimits zones (tablesAfter sha256 zones clock seatClass as) ∧
      ∀ bs, ∀ c ∈ (tablesAfter sha256 zones clock seatClass as).claims, c.status ≠ .submitted →
        c ∈ (tablesAfter sha256 zones clock seatClass (as ++ bs)).claims :=
  ⟨(tablesAfter_sound sha256 zones clock seatClass as).withinLimits, fun bs _ hc hst ↦
    (tablesAfter_kept sha256 zones clock seatClass as bs).claims.decided hc hst⟩

/-- A student whose hours the teacher approves as none. -/
def adjustedToNothing : InsuranceState :=
  sampleTables [.createPolicy productivityPolicy, teacherPost "deposit" 1000 "manual_payment",
    buysCoverage "p1", filesClaim 1 { claimedDates := [⟨some 4, some (.ofCents 100), "ill"⟩] } "f1",
    approvesClaim 1 (some ⟨some (.ofHundredths 0), "no hours"⟩)]

/-- A student who files twice in a week for a service that is claimed once a week. -/
def servedTwice : InsuranceState :=
  sampleTables [.createPolicy servicePolicy, teacherPost "deposit" 1000 "manual_payment",
    buysCoverage "p1", filesClaim 1 { additionalInformation := some "first" } "f1",
    filesClaim 1 { additionalInformation := some "second" } "f2"]

/-- An approval of no hours pays nothing, and claims of no money are not counted by the week. -/
theorem insurance_limits_not_for_every_claim :
    (∃ c ∈ adjustedToNothing.claims, c.status = .approved ∧
      creditsOf adjustedToNothing c = [] ∧ manualCreditsOf adjustedToNothing c = []) ∧
      ∃ g ∈ servedTwice.coverageEvents, g.eventType = .granted ∧
        ∃ p ∈ getInsuranceDefinition servedTwice g.policyUuid g.classId,
          weeklyClaimAllowance p <
            (filedInWeek (fun _ ↦ utcCoverage) servedTwice g (day 4)).length := by
  decide +kernel

end Limits

end TokenHub.Insurance
