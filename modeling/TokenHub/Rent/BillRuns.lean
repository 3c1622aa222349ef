import TokenHub.Ledger.ChargeReplay
import TokenHub.Rent.BillSlices

set_option autoImplicit false

namespace TokenHub.Rent

open Ledger Lib.Decimals Lib.Checks Lib.Json Lib.SequencedLog

variable {sha256 : String → String} {env : Surroundings} {feat : FeatContext}
  {S₀ S S' : RentState} {q : RentBillRequest} {s : BillSlice} {debit : Transaction}

section Step

theorem SlicePosted.moves {zones : String → ClassZone} (h : RentInvariant sha256 S)
    (hp : SlicePosted sha256 env feat q S s debit S') :
    Moves sha256 zones feat.canonicalNowUtc S S' := by
  obtain ⟨state, p, resolved, transfers, r, L, grants, hv, hauth, -, hposted⟩ := hp
  exact hposted.moves h hv hauth

theorem SlicePosted.progress (h : RentInvariant sha256 S)
    (hp : SlicePosted sha256 env feat q S s debit S') :
    RentInvariant sha256 S' ∧ Extends sha256 S S' := by
  have hm : Moves sha256 (fun _ ↦ ⟨fun _ ↦ 0, fun _ ↦ 0, fun _ ↦ rfl⟩) feat.canonicalNowUtc S S' :=
    hp.moves h
  exact ⟨(h.moves hm).invariant, (h.moves hm).kept⟩

theorem SlicePosted.event (hp : SlicePosted sha256 env feat q S s debit S') :
    ∃ e : ObligationAssessment, S'.assessmentEvents = S.assessmentEvents ++ [e] ∧
      e.eventType = .payment ∧ e.correlationId = s.obligation.correlationId ∧
        e.ledgerTransactionId = some debit.id := by
  obtain ⟨state, p, resolved, transfers, r, L, grants, -, -, -, hposted⟩ := hp
  refine ⟨paymentEvent S feat.canonicalNowUtc
    (q.slice sha256 s.obligation.correlationId s.amount) s.obligation debit, ?_, rfl, rfl, rfl⟩
  rw [hposted.state]
  rfl

/-- The rows of a slice: savings legs that are no rent payment, and the debit of its amount. -/
theorem SlicePosted.rows (hamount : 0 < s.amount)
    (hp : SlicePosted sha256 env feat q S s debit S') :
    ∃ transfers : List Transaction,
      S'.ledger.transactions = S.ledger.transactions ++ (transfers ++ [debit]) ∧
        transfers.filter (isPrincipal .rentPayment) = [] ∧
          isPrincipal .rentPayment debit = true ∧ |debit.amountCents| = s.amount := by
  obtain ⟨state, p, resolved, transfers, r, L, grants, -, -, hpay, hposted⟩ := hp
  have hdebit := hposted.debit_amount
  rw [hpay] at hdebit
  refine ⟨transfers, ?_, ?_, ?_, ?_⟩
  · rw [hposted.state]
    exact hposted.charge.transactions
  · rw [List.filter_eq_nil_iff]
    intro t ht
    obtain ⟨e, he, hrow⟩ := forall₂_exists_left hposted.charge.transfersOf ht
    have htype := hrow.type
    unfold fundingEffects at he
    split_ifs at he with hzero
    · cases he
    · have hcases : t.type = some .legacyWithdrawal ∨ t.type = some .legacyDeposit := by
        simp only [List.mem_cons, List.not_mem_nil, or_false] at he
        rcases he with rfl | rfl
        · left
          have : parseTransactionType (some "Withdrawal") = some (some .legacyWithdrawal) := by
            decide
          simpa [this] using htype.symm
        · right
          have : parseTransactionType (some "Deposit") = some (some .legacyDeposit) := by decide
          simpa [this] using htype.symm
      rcases hcases with htype | htype <;> simp [isPrincipal, htype]
  · have hplan := hposted.resolvedOn.plan_eq
    have htype := hposted.charge.debitOf.type
    have haccount := hposted.charge.debitOf.accountType
    rw [hplan] at htype haccount
    have hrent : parseTransactionType (principalEffect (rentPlan
        (q.slice sha256 s.obligation.correlationId s.amount) resolved.intendedPlan.targetSeatId
          p.thisPayment)).type = some (some .rentPayment) := by
      have : parseTransactionType (some "rent_payment") = some (some .rentPayment) := by decide
      exact this
    have hchecking : AccountType.ofString (principalEffect (rentPlan
        (q.slice sha256 s.obligation.correlationId s.amount) resolved.intendedPlan.targetSeatId
          p.thisPayment)).accountType = some .checking := AccountType.ofString_value .checking
    rw [hrent, Option.some.injEq] at htype
    rw [hchecking, Option.some.injEq] at haccount
    simp [isPrincipal, ← htype, ← haccount, hdebit, hamount]
  · rw [hdebit, abs_neg, abs_of_pos hamount]

def reservedEffects (L : LedgerState) (r : LedgerCommandReservation) : List Effect :=
  (reservedRows L r.id).map Transaction.toEffect

theorem SlicePosted.reservation (h : RentInvariant sha256 S)
    (hp : SlicePosted sha256 env feat q S s debit S') :
    ∃ r : LedgerCommandReservation, S'.ledger.reservations = S.ledger.reservations ++ [r] ∧
      r.identity =
        (q.slice sha256 s.obligation.correlationId s.amount).ledgerIdentity feat ∧
      r.fingerprintVersion = fingerprintVersion ∧
      replayFingerprint sha256 (reservedEffects S'.ledger r) fingerprintVersion
        (q.slice sha256 s.obligation.correlationId s.amount).canonicalIntent =
          .ok r.replayFingerprint := by
  obtain ⟨state, p, resolved, transfers, r, L, grants, -, hauth, -, hposted⟩ := hp
  have howns := hposted.charge.owns
  have hplan := hposted.resolvedOn.plan_eq
  have hdebit : resolved.intendedPlan.debitAmount = p.thisPayment :=
    congrArg IntendedLedgerPlan.debitAmount hplan
  have hfingerprint := hposted.charge.fingerprint_rows (hdebit ▸ hauth.positive)
    (hdebit ▸ hposted.small) (hposted.resolvedOn.abs_transfer_lt h.ledger.balance)
  rw [congrArg IntendedLedgerPlan.canonicalIntent hplan] at hfingerprint
  have hrows : reservedRows S'.ledger r.id = transfers ++ [debit] := by
    rw [hposted.state]
    exact howns.rows_eq
  refine ⟨r, ?_, ?_, howns.version, by rw [reservedEffects, hrows]; exact hfingerprint⟩
  · rw [hposted.state]
    exact hposted.charge.reservations
  · rw [howns.identity, chargeCall, CommandCall.identity, hplan]
    rfl

theorem SlicePosted.new_debit (hp : SlicePosted sha256 env feat q S s debit S') :
    ∀ t ∈ S.ledger.transactions, t.id ≠ debit.id := by
  obtain ⟨state, p, resolved, transfers, r, L, grants, -, -, -, hposted⟩ := hp
  exact hposted.charge.grows.new_row hposted.charge.transactions
    (List.mem_append_right transfers (List.mem_singleton_self debit))

/-- What a slice moves: its amount from checking, after what protection moved there. -/
theorem SlicePosted.funds (h : RentInvariant sha256 S)
    (hp : SlicePosted sha256 env feat q S s debit S') {c v : ℤ}
    (hc : scopeCents S.ledger ⟨q.classId, q.seatId, .checking⟩ = c)
    (hv : scopeCents S.ledger ⟨q.classId, q.seatId, .savings⟩ = v) :
    0 ≤ c + protectionTransfer (env.bankingDirective q.classId).protectionEnabled s.amount c v -
        s.amount ∧
      scopeCents S'.ledger ⟨q.classId, q.seatId, .checking⟩ = c +
        protectionTransfer (env.bankingDirective q.classId).protectionEnabled s.amount c v -
          s.amount ∧
      scopeCents S'.ledger ⟨q.classId, q.seatId, .savings⟩ = v -
        protectionTransfer (env.bankingDirective q.classId).protectionEnabled s.amount c v := by
  obtain ⟨state, p, resolved, transfers, r, L, grants, -, -, hpay, hposted⟩ := hp
  have hon := hposted.resolvedOn
  have hplan := hon.plan_eq
  have hcents := hposted.charge.scopeCents_eq (by rw [hplan]; rfl)
    (by rw [hplan]; exact hposted.small) (hon.abs_transfer_lt h.ledger.balance)
  have htransfer : resolved.recoveryTransferAmount = protectionTransfer
      (env.bankingDirective q.classId).protectionEnabled s.amount c v := by
    rw [hon.transfer, ← hc, ← hv, ← hpay]
    rfl
  have hafter := hon.checkingAfter
  have hcovered := hposted.covered
  rw [hplan, htransfer] at hcents
  rw [htransfer] at hafter
  have hS : S'.ledger = L := by rw [hposted.state]; rfl
  rw [hS, ← hc, ← hv, ← hpay]
  rw [← hc, ← hv, ← hpay] at hcents hafter
  refine ⟨?_, hcents.1, hcents.2⟩
  rw [hafter] at hcovered
  exact hcovered

end Step

section Funds

/-- The balances after `spent` was taken in slices, each drawing its own shortfall from savings:
protection moved nothing, or has moved the whole of what checking lacked. -/
def Drawn (protectionEnabled : Bool) (c₀ v₀ spent c v : ℤ) : Prop :=
  (c = c₀ - spent ∧ v = v₀) ∨
    (protectionEnabled = true ∧ c₀ < spent ∧ c = 0 ∧ v = v₀ + c₀ - spent)

variable {protectionEnabled : Bool} {c₀ v₀ spent c v amount : ℤ}

theorem le_protectionTransfer_iff (hamount : 0 < amount) :
    amount ≤ c + protectionTransfer protectionEnabled amount c v ↔
      amount ≤ c ∨ (protectionEnabled = true ∧ amount - c ≤ v) := by
  have hne : amount ≠ 0 := hamount.ne'
  simp only [protectionTransfer, if_neg hne]
  by_cases hcovered : amount ≤ c
  · simp [hcovered]
  · have hmax : max (amount - c) 0 = amount - c := max_eq_left (by omega)
    rw [hmax]
    by_cases hprotected : protectionEnabled = true ∧ amount - c ≤ v
    · rw [if_pos ⟨by omega, hprotected⟩]
      simp [hprotected]
    · rw [if_neg (fun hc ↦ hprotected hc.2), add_zero]
      exact ⟨.inl, fun hc ↦ hc.elim id (absurd · hprotected)⟩

/-- Slices that add up to a total are affordable one after another just where the total is. -/
theorem Drawn.le_iff (h : Drawn protectionEnabled c₀ v₀ spent c v) (hspent : 0 ≤ spent)
    (hamount : 0 < amount) :
    amount ≤ c + protectionTransfer protectionEnabled amount c v ↔
      spent + amount ≤ c₀ + protectionTransfer protectionEnabled (spent + amount) c₀ v₀ := by
  rw [le_protectionTransfer_iff hamount, le_protectionTransfer_iff (by omega)]
  rcases h with ⟨rfl, rfl⟩ | ⟨hprotected, hlt, rfl, rfl⟩
  · have h₁ : amount ≤ c₀ - spent ↔ spent + amount ≤ c₀ := by omega
    have h₂ : amount - (c₀ - spent) ≤ v ↔ spent + amount - c₀ ≤ v := by omega
    rw [h₁, h₂]
  · simp only [hprotected, true_and]
    omega

theorem Drawn.step (h : Drawn protectionEnabled c₀ v₀ spent c v) (hamount : 0 < amount)
    (hcovered : 0 ≤ c + protectionTransfer protectionEnabled amount c v - amount) :
    Drawn protectionEnabled c₀ v₀ (spent + amount)
      (c + protectionTransfer protectionEnabled amount c v - amount)
      (v - protectionTransfer protectionEnabled amount c v) := by
  have hne : amount ≠ 0 := hamount.ne'
  simp only [protectionTransfer, if_neg hne] at hcovered ⊢
  split_ifs at hcovered ⊢ with hmoved
  · obtain ⟨hshort, hprotected, -⟩ := hmoved
    have hmax : max (amount - c) 0 = amount - c := max_eq_left (by omega)
    rw [hmax]
    rcases h with ⟨rfl, rfl⟩ | ⟨-, hlt, rfl, rfl⟩
    · exact .inr ⟨hprotected, by omega, by omega, by omega⟩
    · exact .inr ⟨hprotected, by omega, by omega, by omega⟩
  · rcases h with ⟨rfl, rfl⟩ | ⟨-, -, rfl, -⟩
    · exact .inl ⟨by omega, by omega⟩
    · omega

end Funds

section Run

inductive Posts (sha256 : String → String) (env : Surroundings) (feat : FeatContext)
    (q : RentBillRequest) (S₀ : RentState) : List BillSlice → RentState → Prop
  | nil : Posts sha256 env feat q S₀ [] S₀
  | snoc {posted : List BillSlice} {s : BillSlice} {debit : Transaction} {S S' : RentState} :
      Posts sha256 env feat q S₀ posted S → s.obligation ∈ S₀.assessmentEvents →
      s.obligation.IsAssessment → 0 < s.amount →
      (∀ s' ∈ posted, s'.obligation.correlationId ≠ s.obligation.correlationId) →
      SlicePosted sha256 env feat q S s debit S' → Posts sha256 env feat q S₀ (posted ++ [s]) S'

def takenBy (posted : List BillSlice) : ℤ := (posted.map (·.amount)).sum

variable {posted : List BillSlice}

theorem takenBy_snoc (posted : List BillSlice) (s : BillSlice) :
    takenBy (posted ++ [s]) = takenBy posted + s.amount := by
  simp [takenBy]

theorem Posts.progress (h : RentInvariant sha256 S₀)
    (hp : Posts sha256 env feat q S₀ posted S) :
    RentInvariant sha256 S ∧ Extends sha256 S₀ S := by
  induction hp with
  | nil => exact ⟨h, .refl h⟩
  | snoc _ _ _ _ _ hslice ih =>
    obtain ⟨hinv, hx⟩ := hslice.progress ih.1
    exact ⟨hinv, ih.2.trans hx⟩

theorem Posts.eq_of_nil (hp : Posts sha256 env feat q S₀ [] S) : S = S₀ := by
  generalize hposted : ([] : List BillSlice) = posted at hp
  cases hp with
  | nil => rfl
  | snoc => simp at hposted

theorem Posts.amount_pos (hp : Posts sha256 env feat q S₀ posted S) :
    ∀ s ∈ posted, 0 < s.amount := by
  induction hp with
  | nil => simp
  | snoc _ _ _ hamount _ _ ih =>
    intro s hs
    rcases List.mem_append.1 hs with hs | hs
    · exact ih s hs
    · rw [List.mem_singleton.1 hs]
      exact hamount

theorem takenBy_nonneg (hpos : ∀ s ∈ posted, 0 < s.amount) : 0 ≤ takenBy posted := by
  apply List.sum_nonneg
  intro n hn
  obtain ⟨s, hs, rfl⟩ := List.mem_map.1 hn
  exact (hpos s hs).le

theorem Posts.drawn (h : RentInvariant sha256 S₀) (hp : Posts sha256 env feat q S₀ posted S) :
    Drawn (env.bankingDirective q.classId).protectionEnabled
      (scopeCents S₀.ledger ⟨q.classId, q.seatId, .checking⟩)
      (scopeCents S₀.ledger ⟨q.classId, q.seatId, .savings⟩) (takenBy posted)
      (scopeCents S.ledger ⟨q.classId, q.seatId, .checking⟩)
      (scopeCents S.ledger ⟨q.classId, q.seatId, .savings⟩) := by
  induction hp with
  | nil => exact .inl ⟨by simp [takenBy], rfl⟩
  | snoc hposts _ _ hamount _ hslice ih =>
    obtain ⟨hcovered, hchecking, hsavings⟩ := hslice.funds (hposts.progress h).1 rfl rfl
    rw [takenBy_snoc, hchecking, hsavings]
    exact ih.step hamount hcovered

theorem Posts.events (hp : Posts sha256 env feat q S₀ posted S) :
    ∃ es : List ObligationAssessment, S.assessmentEvents = S₀.assessmentEvents ++ es ∧
      List.Forall₂ (fun s (e : ObligationAssessment) ↦ e.eventType = .payment ∧
        e.correlationId = s.obligation.correlationId) posted es := by
  induction hp with
  | nil => exact ⟨[], (List.append_nil _).symm, .nil⟩
  | snoc _ _ _ _ _ hslice ih =>
    obtain ⟨es, hes, hall⟩ := ih
    obtain ⟨e, he, htype, hcorr, -⟩ := hslice.event
    exact ⟨es ++ [e], by rw [he, hes, List.append_assoc],
      List.rel_append hall (.cons ⟨htype, hcorr⟩ .nil)⟩

theorem Posts.debited (hp : Posts sha256 env feat q S₀ posted S) :
    ∃ ts : List Transaction, S.ledger.transactions = S₀.ledger.transactions ++ ts ∧
      ((ts.filter (isPrincipal .rentPayment)).map (|·.amountCents|)).sum = takenBy posted := by
  induction hp with
  | nil => exact ⟨[], (List.append_nil _).symm, rfl⟩
  | snoc _ _ _ hamount _ hslice ih =>
    obtain ⟨ts, hts, hsum⟩ := ih
    obtain ⟨transfers, htx, hnone, hprincipal, hdebit⟩ := hslice.rows hamount
    refine ⟨ts ++ (transfers ++ [_]), by rw [htx, hts, List.append_assoc], ?_⟩
    rw [List.filter_append, List.filter_append, hnone, List.filter_singleton, hprincipal,
      List.map_append, List.sum_append, hsum, takenBy_snoc]
    simp [hdebit]

theorem reservedEffects_grows {L L' : LedgerState} (hg : LedgerGrows sha256 L L')
    {r : LedgerCommandReservation} (hr : r ∈ L.reservations) :
    reservedEffects L' r = reservedEffects L r := by
  rw [reservedEffects, (hg.kept r hr).2, reservedEffects]

theorem Posts.reserved (h : RentInvariant sha256 S₀) (hp : Posts sha256 env feat q S₀ posted S)
    (id : CommandIdentity) :
    S.ledger.reservations.find? (·.identity = id) =
        S₀.ledger.reservations.find? (·.identity = id) ∨
      ∃ s ∈ posted, ∃ r, S.ledger.reservations.find? (·.identity = id) = some r ∧
        r.fingerprintVersion = fingerprintVersion ∧
        replayFingerprint sha256 (reservedEffects S.ledger r) fingerprintVersion
          (q.slice sha256 s.obligation.correlationId s.amount).canonicalIntent =
            .ok r.replayFingerprint := by
  induction hp with
  | nil => exact .inl rfl
  | @snoc posted s debit S S' hposts _ _ _ _ hslice ih =>
    have hinv := (hposts.progress h).1
    obtain ⟨r, hr, hid, hversion, hfingerprint⟩ := hslice.reservation hinv
    have hgrows := (hslice.progress hinv).2.ledger
    rw [hr, List.find?_append]
    cases hfind : S.ledger.reservations.find? (·.identity = id) with
    | some r' =>
      rw [Option.some_or]
      refine ih.imp (fun heq ↦ hfind.symm.trans heq) ?_
      rintro ⟨s', hs', r'', hfound, hversion', hprint⟩
      have hmem := List.mem_of_find?_eq_some hfound
      exact ⟨s', List.mem_append_left _ hs', r'', hfind.symm.trans hfound, hversion',
        by rw [reservedEffects_grows hgrows hmem]; exact hprint⟩
    | none =>
      rw [Option.none_or]
      by_cases hmet : r.identity = id
      · exact .inr ⟨s, by simp, r, by simp [hmet], hversion, hfingerprint⟩
      · refine .inl ?_
        rcases ih with heq | ⟨-, -, r', hfound, -⟩
        · rw [← heq, hfind]
          simp [hmet]
        · rw [hfind] at hfound
          cases hfound

/-- What comparing a slice with the reservations of a Ledger digests. -/
def slicePayloads (sha256 : String → String) (q : RentBillRequest) (L : LedgerState)
    (s : BillSlice) : Set String :=
  {payload | ∃ r ∈ L.reservations, payload ∈ payloads (reservedEffects L r)
    (q.slice sha256 s.obligation.correlationId s.amount).canonicalIntent}

theorem slicePayloads_grows {L L' : LedgerState} (hg : LedgerGrows sha256 L L') (s : BillSlice) :
    slicePayloads sha256 q L s ⊆ slicePayloads sha256 q L' s := by
  rintro payload ⟨r, hr, hpayload⟩
  exact ⟨r, (hg.kept r hr).1, by rw [reservedEffects_grows hg hr]; exact hpayload⟩

/-- A slice's command tells its obligation apart, so no command of one slice replays another's. -/
theorem slice_intent_ne {correlationId correlationId' : String} {amount amount' : ℤ}
    (hne : correlationId ≠ correlationId') :
    (q.slice sha256 correlationId amount).canonicalIntent ≠
      (q.slice sha256 correlationId' amount').canonicalIntent := by
  intro heq
  simp only [RentPaymentRequest.canonicalIntent, RentBillRequest.slice, Value.arr.injEq,
    List.cons.injEq, Value.str.injEq] at heq
  exact hne heq.2.1

section Untouched

variable {ob : ObligationAssessment}

theorem Posts.withdrawal (hp : Posts sha256 env feat q S₀ posted S) (correlationId : String) :
    getWithdrawalEvent S correlationId = getWithdrawalEvent S₀ correlationId := by
  obtain ⟨es, hes, hall⟩ := hp.events
  have hnone : es.find? (fun e ↦ e.correlationId = correlationId ∧ e.eventType = .withdrawn) =
      none := by
    rw [List.find?_eq_none]
    intro e he
    obtain ⟨s, -, htype, -⟩ := forall₂_exists_left hall he
    simp [htype]
  rw [getWithdrawalEvent, hes, List.find?_append, hnone, Option.or_none]
  rfl

theorem Posts.satisfactions (hp : Posts sha256 env feat q S₀ posted S) {correlationId : String}
    (hapart : ∀ s ∈ posted, s.obligation.correlationId ≠ correlationId) :
    getSatisfactionEvents S correlationId = getSatisfactionEvents S₀ correlationId := by
  obtain ⟨es, hes, hall⟩ := hp.events
  have hnil : es.filter (fun e ↦ e.correlationId = correlationId ∧
      (e.eventType = .payment ∨ e.eventType = .waived)) = [] := by
    rw [List.filter_eq_nil_iff]
    intro e he
    obtain ⟨s, hs, -, hcorr⟩ := forall₂_exists_left hall he
    simp [hcorr, hapart s hs]
  rw [getSatisfactionEvents, hes, List.filter_append, hnil, List.append_nil]
  rfl

theorem Posts.paid_untouched (h : RentInvariant sha256 S₀)
    (hp : Posts sha256 env feat q S₀ posted S) {correlationId : String}
    (hapart : ∀ s ∈ posted, s.obligation.correlationId ≠ correlationId) :
    getPaidMagnitude S correlationId = getPaidMagnitude S₀ correlationId := by
  rw [getPaidMagnitude, hp.satisfactions hapart, getPaidMagnitude]
  congr 1
  refine List.map_congr_left (fun e he ↦ (hp.progress h).2.magnitude h ?_)
  exact List.mem_of_mem_filter he

theorem Posts.remaining (h : RentInvariant sha256 S₀)
    (hp : Posts sha256 env feat q S₀ posted S) (hob : ob ∈ S₀.assessmentEvents)
    (hass : ob.IsAssessment)
    (hapart : ∀ s ∈ posted, s.obligation.correlationId ≠ ob.correlationId) :
    remainingAmount S ob.correlationId = remainingAmount S₀ ob.correlationId := by
  obtain ⟨hinv, hx⟩ := hp.progress h
  rw [remainingAmount_eq h hob hass, remainingAmount_eq hinv (hx.mem_events hob) hass,
    hp.withdrawal, hp.satisfactions hapart, hp.paid_untouched h hapart, hx.amount h hob hass]

theorem Posts.partialAllowed (h : RentInvariant sha256 S₀)
    (hp : Posts sha256 env feat q S₀ posted S) (hob : ob ∈ S₀.assessmentEvents)
    (hass : ob.IsAssessment) : partialAllowed S ob = partialAllowed S₀ ob := by
  obtain ⟨r, hr, -⟩ := h.policy hob hass
  obtain ⟨r', hr', hterms⟩ := (hp.progress h).2.policies _ r hr
  have hallow : r'.allowIncrementalPayment = r.allowIncrementalPayment :=
    (congrArg RentSettings.allowIncrementalPayment hterms :)
  simp [Rent.partialAllowed, hr, hr', hallow]

theorem Posts.affordable_iff (h : RentInvariant sha256 S₀)
    (hp : Posts sha256 env feat q S₀ posted S) {amount : ℤ} (hamount : 0 < amount) :
    affordable env S q.classId q.seatId amount ↔
      affordable env S₀ q.classId q.seatId (takenBy posted + amount) := by
  have hdrawn := hp.drawn h
  have hle := hdrawn.le_iff (takenBy_nonneg hp.amount_pos) hamount
  unfold affordable
  rw [(hp.progress h).1.ledger.balance.getAvailableBalance,
    (hp.progress h).1.ledger.balance.getAvailableBalance,
    h.ledger.balance.getAvailableBalance, h.ledger.balance.getAvailableBalance]
  exact hle

theorem Posts.declined_iff (h : RentInvariant sha256 S₀)
    (hp : Posts sha256 env feat q S₀ posted S) (hob : s.obligation ∈ S₀.assessmentEvents)
    (hass : s.obligation.IsAssessment) (hamount : 0 < s.amount) :
    Declined env S q 0 s ↔ Declined env S₀ q (takenBy posted) s := by
  unfold Declined
  rw [zero_add, hp.partialAllowed h hob hass, hp.affordable_iff h hamount]

theorem Posts.priorDebit_eq (h : RentInvariant sha256 S₀)
    (hp : Posts sha256 env feat q S₀ posted S) {id : CommandIdentity}
    (hfind : S.ledger.reservations.find? (·.identity = id) =
      S₀.ledger.reservations.find? (·.identity = id)) : priorDebit S id = priorDebit S₀ id := by
  rw [priorDebit, hfind, priorDebit]
  cases hr : S₀.ledger.reservations.find? (·.identity = id) with
  | none => rfl
  | some r =>
    rw [Option.map_some, Option.map_some,
      ((hp.progress h).2.ledger.kept r (List.mem_of_find?_eq_some hr)).2]

end Untouched

/-- How the slices of a bill end, told by the state before the first of them: the results, and
the slices that are newly posted. -/
inductive Settled (env : Surroundings) (q : RentBillRequest) (S₀ : RentState) :
    ℤ → List BillSlice → List RentPaymentResult → List BillSlice → Prop
  | nil {spent : ℤ} : Settled env q S₀ spent [] [] []
  | declined {spent : ℤ} {s : BillSlice} {rest : List BillSlice} {res : RentPaymentResult} :
      Declined env S₀ q spent s → res.success = false →
      Settled env q S₀ spent (s :: rest) [res] []
  | replayed {spent : ℤ} {s : BillSlice} {rest posted : List BillSlice}
      {res : RentPaymentResult} {results : List RentPaymentResult} :
      ¬ Declined env S₀ q spent s → s.prior = some res.amountPaid → res.success = true →
      (∃ t ∈ S₀.ledger.transactions, res.transactionId = some t.id) →
      Settled env q S₀ spent rest results posted →
      Settled env q S₀ spent (s :: rest) (res :: results) posted
  | posted {spent : ℤ} {s : BillSlice} {rest posted : List BillSlice}
      {res : RentPaymentResult} {results : List RentPaymentResult} :
      ¬ Declined env S₀ q spent s → s.prior = none → 0 < s.amount → res.success = true →
      res.amountPaid = s.amount →
      (∀ t ∈ S₀.ledger.transactions, res.transactionId ≠ some t.id) →
      Settled env q S₀ (spent + s.amount) rest results posted →
      Settled env q S₀ spent (s :: rest) (res :: results) (s :: posted)

/-- The next slice of a bill ends as the state before the first slice tells. -/
theorem Posts.slice_outcome {P : Set String} (hsha : Set.InjOn sha256 P)
    (h : RentInvariant sha256 S₀) (hp : Posts sha256 env feat q S₀ posted S)
    (hP : ∀ s' ∈ s :: posted, slicePayloads sha256 q S.ledger s' ⊆ P)
    (hob : s.obligation ∈ S₀.assessmentEvents) (hass : s.obligation.IsAssessment)
    (hremaining : s.remaining = remainingAmount S₀ s.obligation.correlationId)
    (hprior : s.prior =
      priorDebit S₀ ((q.slice sha256 s.obligation.correlationId s.amount).ledgerIdentity feat))
    (hseat : S₀.ledger.seatClass q.seatId = some q.classId) (hamount : 0 < s.amount)
    (hle : s.amount ≤ s.remaining)
    (hapart : ∀ s' ∈ posted, s'.obligation.correlationId ≠ s.obligation.correlationId)
    {res : RentPaymentResult}
    (hok : payRent sha256 env feat S (q.slice sha256 s.obligation.correlationId s.amount) =
      .ok (res, S')) :
    (Declined env S₀ q (takenBy posted) s ∧ res.success = false ∧ S' = S) ∨
    (¬ Declined env S₀ q (takenBy posted) s ∧ s.prior = some res.amountPaid ∧
      res.success = true ∧ (∃ t ∈ S₀.ledger.transactions, res.transactionId = some t.id) ∧
        S' = S) ∨
    (¬ Declined env S₀ q (takenBy posted) s ∧ s.prior = none ∧ res.success = true ∧
      res.amountPaid = s.amount ∧
        (∀ t ∈ S₀.ledger.transactions, res.transactionId ≠ some t.id) ∧
          ∃ debit, SlicePosted sha256 env feat q S s debit S') := by
  obtain ⟨hinv, hx⟩ := hp.progress h
  have hseat' : S.ledger.seatClass q.seatId = some q.classId := by rw [hx.ledger.seatClass, hseat]
  have hleft : s.remaining = remainingAmount S s.obligation.correlationId := by
    rw [hp.remaining h hob hass hapart, hremaining]
  have hdeclined := hp.declined_iff h hob hass hamount
  rcases hp.reserved h ((q.slice sha256 s.obligation.correlationId s.amount).ledgerIdentity feat)
    with hfind | ⟨s', hs', r, hfind, hversion, hfingerprint⟩
  · have hpriorS : s.prior = priorDebit S
        ((q.slice sha256 s.obligation.correlationId s.amount).ledgerIdentity feat) := by
      rw [hp.priorDebit_eq h hfind, hprior]
    rcases payRent_slice hinv (hx.mem_events hob) hass hleft hpriorS hseat' hamount hle hok with
      ⟨hdec, hfail⟩ | ⟨hnot, hreplay, hsuccess, hpaid, hid⟩ | ⟨hnot, hnone, hslice, hsuccess, hpaid,
        hid⟩
    · exact .inl ⟨hdeclined.1 hdec, hfail, rfl⟩
    · obtain ⟨r, hr, hfilter, -⟩ := replayReservedCharge_some hreplay
      have hrows := (hx.ledger.kept r (List.mem_of_find?_eq_some (hfind ▸ hr))).2
      have hmem : _ ∈ reservedRows S.ledger r.id :=
        List.mem_of_mem_filter (hfilter ▸ List.mem_singleton_self _)
      rw [hrows] at hmem
      refine .inr (.inl ⟨fun hdec ↦ hnot (hdeclined.2 hdec), ?_, hsuccess,
        ⟨_, List.mem_of_mem_filter hmem, hid⟩, rfl⟩)
      rw [hpriorS, priorDebit_of_replay hreplay, hpaid]
    · refine .inr (.inr ⟨fun hdec ↦ hnot (hdeclined.2 hdec), hnone, hsuccess, hpaid, ?_, _,
        hslice⟩)
      intro t ht hsame
      rw [hid, Option.some.injEq] at hsame
      exact hslice.new_debit t (hx.ledger.rows.subset ht) hsame.symm
  · -- Another slice of this bill owns the key: only a slice declined beforehand returns.
    have hreserved : priorDebit S
        ((q.slice sha256 s.obligation.correlationId s.amount).ledgerIdentity feat) ≠ none := by
      rw [ne_eq, priorDebit_eq_none, hfind]
      simp
    rcases payRent_slice (s := ⟨s.obligation, s.remaining, s.amount, priorDebit S
        ((q.slice sha256 s.obligation.correlationId s.amount).ledgerIdentity feat)⟩)
      hinv (hx.mem_events hob) hass hleft rfl hseat' hamount hle hok with
      ⟨hdec, hfail⟩ | ⟨-, hreplay, -⟩ | ⟨-, hnone, -⟩
    · refine .inl ⟨?_, hfail, rfl⟩
      rcases hdec with hlarge | hother | ⟨hnone, -⟩
      · exact .inl hlarge
      · exact .inr (.inl hother)
      · exact absurd hnone hreserved
    · obtain ⟨r', hr', -, hmatches⟩ := replayReservedCharge_some hreplay
      obtain rfl : r = r' := Option.some.inj (hfind.symm.trans hr')
      have hr := List.mem_of_find?_eq_some hfind
      have hpayloads : ∀ s' ∈ s :: posted, payloads (reservedEffects S.ledger r)
          (q.slice sha256 s'.obligation.correlationId s'.amount).canonicalIntent ⊆ P :=
        fun s' hs' payload hpayload ↦ hP s' hs' ⟨r, hr, hpayload⟩
      have hintent := ((fingerprint_eq_iff hsha (hpayloads s' (List.mem_cons_of_mem _ hs'))
        (hpayloads s (List.mem_cons_self ..)) hfingerprint
          ((assertReplayMatches_ok hversion).1 hmatches)).1 rfl).2
      exact absurd hintent (slice_intent_ne (hapart s' hs'))
    · exact absurd hnone hreserved

theorem paySlices_grows (h : RentInvariant sha256 S) {budget : ℤ}
    {slices : List (ObligationAssessment × ℤ)} {results : List RentPaymentResult}
    (hok : paySlices sha256 env feat q S budget slices = .ok (results, S')) :
    LedgerGrows sha256 S.ledger S'.ledger := by
  have hmoves : Moves sha256 (fun _ ↦ ⟨fun _ ↦ 0, fun _ ↦ 0, fun _ ↦ rfl⟩)
    feat.canonicalNowUtc S S' := paySlices_moves h hok
  exact (h.moves hmoves).kept.ledger

/-- The slices of a bill end as the state before the first of them tells. -/
theorem paySlices_settled {P : Set String} (hsha : Set.InjOn sha256 P)
    (h : RentInvariant sha256 S₀) (hseat : S₀.ledger.seatClass q.seatId = some q.classId)
    {slices : List (ObligationAssessment × ℤ)}
    (hslices : ∀ x ∈ slices, x.1 ∈ S₀.assessmentEvents ∧ x.1.IsAssessment ∧
      x.2 = remainingAmount S₀ x.1.correlationId)
    (hdistinct : slices.Pairwise (fun x y ↦ x.1.correlationId ≠ y.1.correlationId))
    (hp : Posts sha256 env feat q S₀ posted S)
    (hapart : ∀ s ∈ posted, ∀ x ∈ slices, s.obligation.correlationId ≠ x.1.correlationId)
    {budget : ℤ} {results : List RentPaymentResult}
    (hP : ∀ s ∈ posted ++ q.split sha256 feat S₀ budget slices,
      slicePayloads sha256 q S'.ledger s ⊆ P)
    (hok : paySlices sha256 env feat q S budget slices = .ok (results, S')) :
    ∃ later, Settled env q S₀ (takenBy posted) (q.split sha256 feat S₀ budget slices) results
      later ∧ Posts sha256 env feat q S₀ (posted ++ later) S' := by
  induction slices generalizing S posted budget results with
  | nil =>
    rw [paySlices, pure_eq_ok, Prod.mk.injEq] at hok
    obtain ⟨rfl, rfl⟩ := hok
    exact ⟨[], .nil, by rwa [List.append_nil]⟩
  | cons x rest ih =>
    obtain ⟨ob, remaining⟩ := x
    obtain ⟨hob, hass, hremaining⟩ := hslices _ (List.mem_cons_self ..)
    simp only at hob hass hremaining
    have hrest := fun y hy ↦ hslices y (List.mem_cons_of_mem _ hy)
    obtain ⟨hhead, htail⟩ := List.pairwise_cons.1 hdistinct
    have hapart' := fun s hs y hy ↦ hapart s hs y (List.mem_cons_of_mem _ hy)
    have hgrows := paySlices_grows (hp.progress h).1 hok
    rw [paySlices] at hok
    rw [RentBillRequest.split] at hP ⊢
    split_ifs at hok hP ⊢ with hspent hsettled
    · rw [pure_eq_ok, Prod.mk.injEq] at hok
      obtain ⟨rfl, rfl⟩ := hok
      exact ⟨[], .nil, by rwa [List.append_nil]⟩
    · exact ih hrest htail hp hapart' hP hok
    · rw [bind_eq_ok] at hok
      obtain ⟨⟨sub, S₁⟩, hpay, hok⟩ := hok
      simp only at hok
      have hamount : 0 < min remaining budget := lt_min (not_le.1 hsettled) (not_le.1 hspent)
      have hob' : ∀ s ∈ posted, s.obligation.correlationId ≠ ob.correlationId :=
        fun s hs ↦ hapart s hs _ (List.mem_cons_self ..)
      obtain ⟨hPposted, hPslices⟩ := List.forall_mem_append.1 hP
      obtain ⟨hPslice, hPrest⟩ := List.forall_mem_cons.1 hPslices
      have hPhere : ∀ s' ∈ (⟨ob, remaining, min remaining budget, priorDebit S₀ ((q.slice sha256
          ob.correlationId (min remaining budget)).ledgerIdentity feat)⟩ : BillSlice) :: posted,
          slicePayloads sha256 q S.ledger s' ⊆ P :=
        List.forall_mem_cons.2 ⟨(slicePayloads_grows hgrows _).trans hPslice,
          fun s' hs' ↦ (slicePayloads_grows hgrows s').trans (hPposted s' hs')⟩
      rcases hp.slice_outcome hsha h hPhere
        hob hass hremaining rfl hseat hamount (min_le_left _ _) hob' hpay with
        ⟨hdec, hfail, rfl⟩ | ⟨hnot, hprior, hsuccess, hrow, rfl⟩ |
          ⟨hnot, hnone, hsuccess, hpaid, hrow, debit, hslice⟩
      · rw [if_neg (by rw [hfail]; decide), pure_eq_ok, Prod.mk.injEq] at hok
        obtain ⟨rfl, rfl⟩ := hok
        exact ⟨[], .declined hdec hfail, by rwa [List.append_nil]⟩
      · rw [if_pos hsuccess, bind_eq_ok] at hok
        obtain ⟨⟨subs, S₂⟩, hsubs, hok⟩ := hok
        rw [pure_eq_ok, Prod.mk.injEq] at hok
        obtain ⟨rfl, rfl⟩ := hok
        simp only at hprior
        rw [hprior, Option.getD_some] at hPrest
        obtain ⟨later, hlater, hposts⟩ := ih hrest htail hp hapart'
          (List.forall_mem_append.2 ⟨hPposted, hPrest⟩) hsubs
        refine ⟨later, .replayed hnot hprior hsuccess hrow ?_, hposts⟩
        rwa [hprior]
      · rw [if_pos hsuccess, bind_eq_ok] at hok
        obtain ⟨⟨subs, S₂⟩, hsubs, hok⟩ := hok
        rw [pure_eq_ok, Prod.mk.injEq] at hok
        obtain ⟨rfl, rfl⟩ := hok
        have hp' := hp.snoc hob hass hamount hob' hslice
        have hnew : ∀ s ∈ [(⟨ob, remaining, min remaining budget, priorDebit S₀ ((q.slice sha256
            ob.correlationId (min remaining budget)).ledgerIdentity feat)⟩ : BillSlice)],
            ∀ y ∈ rest, s.obligation.correlationId ≠ y.1.correlationId := by
          intro s hs y hy
          rw [List.mem_singleton.1 hs]
          exact hhead y hy
        have hapart'' := fun s hs ↦ (List.mem_append.1 hs).elim (hapart' s) (hnew s)
        have hleft : budget - (priorDebit S₀ ((q.slice sha256 ob.correlationId
            (min remaining budget)).ledgerIdentity feat)).getD (min remaining budget) =
              budget - sub.amountPaid := by
          simp only at hnone hpaid
          rw [hnone, Option.getD_none, hpaid]
        rw [hleft] at hPrest
        have hPdone := List.forall_mem_append.2 ⟨hPposted, List.forall_mem_singleton.2 hPslice⟩
        obtain ⟨later, hlater, hposts⟩ := ih hrest htail hp' hapart''
          (List.forall_mem_append.2 ⟨hPdone, hPrest⟩) hsubs
        rw [takenBy_snoc] at hlater
        refine ⟨_ :: later, .posted hnot hnone hamount hsuccess hpaid hrow ?_, by simpa using hposts⟩
        rw [hleft]
        exact hlater

end Run

end TokenHub.Rent
