import TokenHub.Ledger.Penalty

set_option autoImplicit false

namespace TokenHub.Ledger

open Lib.Decimals Lib.Digits Lib.Checks Lib.Json Lib.PrefixCode Lib.SequencedLog Lib.Runs

variable {sha256 : String → String} {repr : List Char → List Char} {L L' L'' : LedgerState}
  {q q' : PenaltyRequest} {seats : List ℕ} {rows : List Transaction}

section Keys

theorem penaltyIdempotencyKey_inj {token : String} {batch batch' : List Char} {s s' : ℕ}
    (h : penaltyIdempotencyKey token batch s = penaltyIdempotencyKey token batch' s') :
    batch = batch' ∧ s = s' := by
  have hchars := String.ofList_injective h
  rw [← List.singleton_append, ← List.singleton_append (l := natText s'), ← List.append_assoc,
    ← List.append_assoc] at hchars
  obtain ⟨hstarts, hs⟩ := natText_suffix (by simp) (by simp) hchars
  rw [List.append_left_inj, List.append_right_inj] at hstarts
  exact ⟨hstarts, hs⟩

theorem toList_penaltyIdempotencyKey (token : String) (batch : List Char) (s : ℕ) :
    (penaltyIdempotencyKey token batch s).toList =
      penaltyTokenPrefix token ++ batch ++ ':' :: natText s := String.toList_ofList

theorem token_eq_of_key {token token' : String} {batch : List Char} {s : ℕ}
    (h : isSubmissionToken token) (h' : isSubmissionToken token')
    (hstarts : penaltyTokenPrefix token <+: (penaltyIdempotencyKey token' batch s).toList) :
    token = token' := by
  have hlen : token.toList.length = token'.toList.length := by
    rw [isSubmissionToken] at h h'
    rw [h.1, h'.1]
  rw [toList_penaltyIdempotencyKey, List.append_assoc] at hstarts
  unfold penaltyTokenPrefix at hstarts
  generalize "penalty:".toList = start at hstarts
  obtain ⟨rest, hrest⟩ := hstarts
  rw [List.append_assoc, List.append_assoc, List.append_assoc, List.append_assoc,
    List.append_cancel_left_eq] at hrest
  exact String.toList_injective (List.append_inj_left hrest hlen)

theorem penaltyTokenPrefix_key (token : String) (batch : List Char) (s : ℕ) :
    penaltyTokenPrefix token <+: (penaltyIdempotencyKey token batch s).toList := by
  rw [toList_penaltyIdempotencyKey, List.append_assoc]
  exact List.prefix_append _ _

end Keys

section Batches

theorem PenaltyRequest.mem_seats {s : ℕ} : s ∈ q.seats ↔ s ∈ q.seatIds := by
  rw [PenaltyRequest.seats, List.mem_insertionSort, List.mem_dedup]

theorem PenaltyRequest.seats_nodup (q : PenaltyRequest) : q.seats.Nodup :=
  (List.perm_insertionSort _ _).nodup_iff.2 (List.nodup_dedup _)

theorem PenaltyRequest.seats_sorted (q : PenaltyRequest) : q.seats.Pairwise (· ≤ ·) :=
  List.pairwise_insertionSort _ _

/-- The two submissions fine the same seats by the same cents under the same text. -/
structure PenaltyRequest.SameBatch (q q' : PenaltyRequest) : Prop where
  seats : q.seats = q'.seats
  quantized : q.quantized = q'.quantized
  description : q.description = q'.description

theorem PenaltyRequest.SameBatch.batchIdentity (h : q.SameBatch q') :
    q.batchIdentity sha256 = q'.batchIdentity sha256 := by
  rw [PenaltyRequest.batchIdentity, PenaltyRequest.batchIdentity, PenaltyRequest.batchMaterial,
    PenaltyRequest.batchMaterial, h.seats, h.quantized, h.description]

theorem bar_not_mem_natText (n : ℕ) : '|' ∉ natText n :=
  fun h ↦ absurd (natText_isDigit h) (by decide)

theorem bar_not_mem_seats (seats : List ℕ) :
    '|' ∉ List.intercalate [','] (seats.map natText) := by
  induction seats with
  | nil => simp
  | cons s seats ih =>
    cases seats with
    | nil => simpa using bar_not_mem_natText s
    | cons s' seats =>
      rw [List.map_cons] at ih ⊢
      rw [List.map_cons, List.intercalate_cons_cons, List.mem_append, List.mem_append]
      rintro ((h | h) | h)
      · exact bar_not_mem_natText s h
      · exact absurd h (by decide)
      · exact ih h

theorem bar_not_mem_toText (n : Hundredths) : '|' ∉ n.toText := by
  have hdigit : ∀ m < 10, '|' ≠ Nat.digitChar m := by decide
  simp only [Hundredths.toText, List.mem_append, List.mem_cons, List.not_mem_nil, or_false, not_or]
  refine ⟨⟨?_, bar_not_mem_natText _⟩, by decide, hdigit _ (Nat.mod_lt _ (by omega)),
    hdigit _ (Nat.mod_lt _ (by omega))⟩
  split_ifs <;> simp

/-- The hashed text of a batch tells its cents and its description. -/
theorem PenaltyRequest.batchMaterial_inj (h : q.batchMaterial = q'.batchMaterial) :
    q.quantized = q'.quantized ∧ q.description = q'.description := by
  obtain ⟨-, hrest⟩ := cut_inj (bar_not_mem_seats _) (bar_not_mem_seats _) h
  obtain ⟨htext, hdescription⟩ := cut_inj (bar_not_mem_toText _) (bar_not_mem_toText _) hrest
  exact ⟨Hundredths.toText_injective htext, hdescription⟩

/-- No two batches of the run share a truncated digest. -/
def BatchesTold (sha256 : String → String) (q q' : PenaltyRequest) : Prop :=
  q.batchIdentity sha256 = q'.batchIdentity sha256 → q.batchMaterial = q'.batchMaterial

theorem PenaltyRequest.sameBatch_iff (htold : BatchesTold sha256 q q')
    (htoken : q.idempotencyKey = q'.idempotencyKey) (hne : q'.seats ≠ []) :
    ((∀ k ∈ q.seats.map (q.key sha256), k ∈ q'.seats.map (q'.key sha256)) ∧
        ∀ k ∈ q'.seats.map (q'.key sha256), k ∈ q.seats.map (q.key sha256)) ↔ q.SameBatch q' := by
  constructor
  · rintro ⟨hsub, hsup⟩
    have hkey : ∀ s s', q.key sha256 s = q'.key sha256 s' →
        q.batchIdentity sha256 = q'.batchIdentity sha256 ∧ s = s' := by
      intro s s' h
      rw [PenaltyRequest.key, PenaltyRequest.key, htoken] at h
      exact penaltyIdempotencyKey_inj h
    have hmem : ∀ s, s ∈ q.seats ↔ s ∈ q'.seats := by
      intro s
      constructor
      · intro hs
        obtain ⟨s', hs', heq⟩ := List.mem_map.1 (hsub _ (List.mem_map_of_mem hs))
        rw [(hkey s s' heq.symm).2]
        exact hs'
      · intro hs
        obtain ⟨s', hs', heq⟩ := List.mem_map.1 (hsup _ (List.mem_map_of_mem hs))
        rw [← (hkey s' s heq).2]
        exact hs'
    obtain ⟨s, hs⟩ := List.exists_mem_of_ne_nil _ hne
    obtain ⟨s', -, heq⟩ := List.mem_map.1 (hsup _ (List.mem_map_of_mem hs))
    obtain ⟨hquantized, hdescription⟩ := batchMaterial_inj (htold (hkey s' s heq).1)
    refine ⟨?_, hquantized, hdescription⟩
    have hperm : q.seats.Perm q'.seats := (List.perm_ext_iff_of_nodup q.seats_nodup
      q'.seats_nodup).2 hmem
    exact hperm.eq_of_pairwise (fun _ _ _ _ h h' ↦ le_antisymm h h') q.seats_sorted q'.seats_sorted
  · intro hsame
    have hkey : q.key sha256 = q'.key sha256 := by
      funext s
      rw [PenaltyRequest.key, PenaltyRequest.key, htoken, hsame.batchIdentity]
    rw [hkey, hsame.seats]
    exact ⟨fun _ h ↦ h, fun _ h ↦ h⟩

end Batches

section Posting

structure PlanFor (q : PenaltyRequest) (s : ℕ) (plan : ResolvedLedgerPlan) : Prop where
  plan_eq : plan.intendedPlan = penaltyPlan q s
  debit_lt : |q.quantized.value| < 10 ^ 28
  transfer_lt : |plan.recoveryTransferAmount| < 10 ^ 28

theorem resolvePenaltyPlan_ok (hb : BalanceInvariant L) (hpos : 0 < q.quantized.value) {s : ℕ}
    {plan : ResolvedLedgerPlan} (h : resolvePenaltyPlan L q s = .ok plan) : PlanFor q s plan := by
  rw [resolvePenaltyPlan, bind_eq_ok] at h
  obtain ⟨intended, hbuild, hresolve⟩ := h
  have hintended : intended.debitAmount ≠ 0 ∧ intended.sourceAccount = .checking := by
    have hzero := hbuild
    simp only [buildIntendedLedgerPlan, require_bind_eq_ok, pure_eq_ok] at hzero
    obtain ⟨-, rfl⟩ := hzero
    refine ⟨?_, rfl⟩
    have hsmall : |q.quantized.value| < 10 ^ 28 := abs_quantizeCurrency_lt _
    simp only [penaltyPlan, quantizeCurrency_ofCents hsmall]
    exact hpos.ne'
  obtain ⟨rfl, hsmall⟩ := buildIntendedLedgerPlan_ok hbuild hintended.1
  have hresolved := resolveIntendedLedgerPlan_ok hb hintended.2 hresolve
  exact ⟨hresolved.plan_eq, hsmall, hresolved.abs_transfer_lt hb⟩

structure PenaltyPosted (sha256 : String → String) (q : PenaltyRequest) (L : LedgerState)
    (seats : List ℕ) (rows : List Transaction) (L' : LedgerState) : Prop extends Extends L L' where
  consistent : Consistent L'
  owned : ∃ rs, L'.reservations = L.reservations ++ rs ∧
    List.Forall₂ (fun s r ↦ r.identity = ⟨q.classId, penaltyFeat, q.key sha256 s⟩) seats rs ∧
      List.Forall₂ (fun r t ↦ penaltyRow L' r = .ok t) rs rows
  debits : List.Forall₂ (fun s t ↦ t.classId = q.classId ∧ t.seatId = s ∧
    t.accountType = .checking ∧ t.amountCents = -q.quantized.value) seats rows
  totals : ∀ s ∈ seats, scopeCents L' ⟨q.classId, s, .checking⟩ +
      scopeCents L' ⟨q.classId, s, .savings⟩ =
    scopeCents L ⟨q.classId, s, .checking⟩ + scopeCents L ⟨q.classId, s, .savings⟩ -
      q.quantized.value
  elsewhere : ∀ scope : Scope, ¬ (scope.classId = q.classId ∧ scope.seatId ∈ seats) →
    scopeCents L' scope = scopeCents L scope

/-- The first seat's charge, under a key of its own. -/
theorem applyPlan_posted (hL : Consistent L) (hpos : 0 < q.quantized.value) {s : ℕ}
    {plan : ResolvedLedgerPlan} (hplan : PlanFor q s plan)
    (hfresh : ∀ r ∈ L.reservations, r.identity ≠ ⟨q.classId, penaltyFeat, q.key sha256 s⟩)
    {applied : AppliedPlan} {principal : Transaction}
    (h : applyResolvedLedgerPlan sha256 q.context L plan (q.key sha256 s) = .ok (applied, L'))
    (hprincipal : applied.principal = some principal) :
    PenaltyPosted sha256 q L [s] [principal] L' := by
  have hdebit : plan.intendedPlan.debitAmount = q.quantized.value := by rw [hplan.plan_eq]; rfl
  have hid : (⟨plan.intendedPlan.classId, q.context.activeFeat, q.key sha256 s⟩ : CommandIdentity) =
      ⟨q.classId, penaltyFeat, q.key sha256 s⟩ := by rw [hplan.plan_eq]; rfl
  obtain ⟨f, transfers, debit, -, hi, htransfers, hdebitOf, -, hsome⟩ :=
    applyResolvedLedgerPlan_fresh
      (List.find?_eq_none.2 (by rw [hid]; simpa using hfresh)) (by rw [hdebit]; exact hpos.ne') h
  obtain rfl : debit = principal := Option.some.inj (hsome.symm.trans hprincipal)
  rw [hid] at hi htransfers hdebitOf
  have hrows : List.Forall₂
      (RowOf q.context (some (newReservation L ⟨q.classId, penaltyFeat, q.key sha256 s⟩ f)))
      (fundingEffects sha256 plan.intendedPlan q.context.activeFeat (q.key sha256 s)
        plan.recoveryTransferAmount ++ [principalEffect plan.intendedPlan])
      (transfers ++ [debit]) := List.rel_append htransfers (.cons hdebitOf .nil)
  have htx : L'.transactions = L.transactions ++ (transfers ++ [debit]) := by rw [hi.state]
  have hscope := charge_scopeCents htx htransfers hdebitOf
    (by rw [hplan.plan_eq]; rfl) (by rw [hdebit]; exact hplan.debit_lt) hplan.transfer_lt
  have hclass : plan.intendedPlan.classId = q.classId := by rw [hplan.plan_eq]; rfl
  have hseat : plan.intendedPlan.seatId = s := by rw [hplan.plan_eq]; rfl
  rw [hclass, hseat, hdebit] at hscope
  refine ⟨.of_reserved hi hrows, hL.of_reserved hfresh hi hrows, ?_, ?_, ?_, ?_⟩
  · refine ⟨_, by rw [hi.state], .cons rfl .nil, .cons ?_ .nil⟩
    have htype : debit.type = some .penalty := by
      have hparsed := hdebitOf.type
      rw [principalEffect, hplan.plan_eq] at hparsed
      exact (Option.some.inj hparsed).symm
    have hnone : transfers.filter (·.type = some .penalty) = [] := by
      rw [List.filter_eq_nil_iff]
      intro t ht hpenalty
      rw [decide_eq_true_iff] at hpenalty
      rcases funding_type htransfers ht with hleg | hleg <;> rw [hleg] at hpenalty <;> cases hpenalty
    have hone : [debit].filter (·.type = some .penalty) = [debit] :=
      List.filter_eq_self.2 fun t ht ↦ by rw [List.mem_singleton.1 ht]; exact decide_eq_true htype
    rw [penaltyRow, hL.commands.reservedRows_new hi hrows, List.filter_append, hnone, hone]
    rfl
  · refine .cons ⟨?_, ?_, ?_, ?_⟩ .nil
    · rw [hdebitOf.classId, principalEffect, hclass]
    · rw [hdebitOf.seatId, principalEffect, hseat]
    · have hscope := hdebitOf.scope_eq .checking (by rw [hplan.plan_eq]; rfl)
      exact congrArg Scope.accountType hscope
    · rw [hdebitOf.amount, principalEffect, hdebit]
      exact quantizeCurrency_ofCents (by simpa using hplan.debit_lt)
  · intro s' hs'
    rw [List.mem_singleton.1 hs', hscope, hscope]
    simp
    omega
  · intro scope hscope'
    have hne : ∀ account, scope ≠ ⟨q.classId, s, account⟩ := by
      rintro account rfl
      exact hscope' ⟨rfl, List.mem_singleton_self _⟩
    rw [hscope, if_neg (hne _), if_neg (hne _), add_zero, sub_zero]

theorem penaltyRow_mono (he : Extends L L') {r : LedgerCommandReservation}
    (hr : r.id ≤ L.reservations.length) : penaltyRow L' r = penaltyRow L r := by
  rw [penaltyRow, he.kept hr, penaltyRow]

theorem PenaltyPosted.nil (hL : Consistent L) : PenaltyPosted sha256 q L [] [] L where
  toExtends := .refl L
  consistent := hL
  owned := ⟨[], (List.append_nil _).symm, .nil, .nil⟩
  debits := .nil
  totals := fun _ h ↦ absurd h List.not_mem_nil
  elsewhere := fun _ _ ↦ rfl

theorem PenaltyPosted.cons {s : ℕ} {t : Transaction} (h : PenaltyPosted sha256 q L [s] [t] L')
    (h' : PenaltyPosted sha256 q L' seats rows L'') (hs : s ∉ seats) :
    PenaltyPosted sha256 q L (s :: seats) (t :: rows) L'' := by
  obtain ⟨rs, hrs, hids, hrows⟩ := h.owned
  obtain ⟨rs', hrs', hids', hrows'⟩ := h'.owned
  obtain _ | @⟨_, r, _, _, hid, hnil⟩ := hids
  cases hnil
  obtain _ | ⟨hrow, -⟩ := hrows
  have hr : r ∈ L'.reservations := by
    rw [hrs]
    exact List.mem_append_right _ List.mem_cons_self
  obtain _ | ⟨hdebit, -⟩ := h.debits
  refine ⟨h.toExtends.trans h'.toExtends, h'.consistent, ⟨r :: rs', ?_, .cons hid hids', .cons ?_ hrows'⟩,
    .cons hdebit h'.debits, ?_, ?_⟩
  · rw [hrs', hrs, List.append_assoc, List.singleton_append]
  · rw [penaltyRow_mono h'.toExtends (h.consistent.commands.bounded r hr)]
    exact hrow
  · intro u hu
    rcases List.mem_cons.1 hu with rfl | hu
    · rw [h'.elsewhere _ (fun hin ↦ hs hin.2), h'.elsewhere _ (fun hin ↦ hs hin.2),
        h.totals u List.mem_cons_self]
    · have hne : u ∉ [s] := fun hin ↦ hs (List.mem_singleton.1 hin ▸ hu)
      rw [h'.totals u hu, h.elsewhere _ (fun hin ↦ hne hin.2), h.elsewhere _ (fun hin ↦ hne hin.2)]
  · intro scope hscope
    rw [h'.elsewhere scope (fun hin ↦ hscope ⟨hin.1, List.mem_cons_of_mem _ hin.2⟩),
      h.elsewhere scope (fun hin ↦ hscope ⟨hin.1, List.mem_cons.2 (.inl (List.mem_singleton.1 hin.2))⟩)]

/-- The whole selection is charged, each seat under its own new key. -/
theorem applyPenaltyPlans_ok (hL : Consistent L) (hpos : 0 < q.quantized.value)
    {plans : List ResolvedLedgerPlan} (hplans : List.Forall₂ (PlanFor q) seats plans)
    (hnodup : seats.Nodup)
    (hfresh : ∀ s ∈ seats, ∀ r ∈ L.reservations,
      r.identity ≠ ⟨q.classId, penaltyFeat, q.key sha256 s⟩)
    (h : applyPenaltyPlans sha256 q L plans = .ok (rows, L')) :
    PenaltyPosted sha256 q L seats rows L' := by
  induction hplans generalizing L rows with
  | nil =>
    simp only [applyPenaltyPlans, pure_eq_ok, Prod.mk.injEq] at h
    obtain ⟨rfl, rfl⟩ := h
    exact .nil hL
  | @cons s plan seats plans hplan _ ih =>
    simp only [applyPenaltyPlans, bind_eq_ok, Prod.exists, demand_eq_ok, pure_eq_ok,
      Prod.mk.injEq] at h
    obtain ⟨applied, L₁, happly, principal, hprincipal, rest, L₂, hrest, rfl, rfl⟩ := h
    rw [List.nodup_cons] at hnodup
    have hseat : plan.intendedPlan.seatId = s := by rw [hplan.plan_eq]; rfl
    rw [hseat] at happly
    have hfirst : PenaltyPosted sha256 q L [s] [principal] L₁ :=
      applyPlan_posted hL hpos hplan (hfresh s List.mem_cons_self) happly hprincipal
    refine hfirst.cons (ih hfirst.consistent hnodup.2 ?_ hrest) hnodup.1
    -- The first seat's reservation carries another key than those to come.
    intro u hu r hr hid
    obtain ⟨rs, hrs, hids, -⟩ := hfirst.owned
    rw [hrs] at hr
    rcases List.mem_append.1 hr with hr | hr
    · exact hfresh u (List.mem_cons_of_mem _ hu) r hr hid
    · obtain ⟨v, hv, hvid⟩ := forall₂_exists_left hids hr
      rw [hvid, CommandIdentity.mk.injEq] at hid
      have hkey := (penaltyIdempotencyKey_inj hid.2.2).2
      rw [List.mem_singleton.1 hv] at hkey
      exact hnodup.1 (hkey ▸ hu)

end Posting

section System

structure AppliedPenalty where
  request : PenaltyRequest
  rows : List Transaction

/-- The seats with their claims, the Ledger, and every submission applied so far. -/
structure PenaltyState where
  claims : ℕ → SeatClaim
  ledger : LedgerState
  applied : List AppliedPenalty

def PenaltyState.initial (claims : ℕ → SeatClaim) (seatClass : ℕ → Option String) : PenaltyState :=
  ⟨claims, .empty seatClass, []⟩

/-- The action reserves nothing under the penalty's own FEAT. -/
def OtherAction.Avoids (feat : String) (a : OtherAction) : Prop :=
  ∀ c, a = .command c → c.identity.featCode ≠ feat

inductive PenaltyAction
  | penalty (q : PenaltyRequest)
  | other (a : OtherAction) (havoids : a.Avoids penaltyFeat)

/-- One action under its locks; a raised exception rolls its transaction back. -/
def penaltyStep (sha256 : String → String) (repr : List Char → List Char) (S : PenaltyState) :
    PenaltyAction → PenaltyState
  | .penalty q =>
    match executeTeacherPenalty sha256 repr S.claims S.ledger q with
    | .error _ => S
    | .ok (result, L') =>
      if result.replayed then { S with ledger := L' }
      else { S with ledger := L', applied := S.applied ++ [⟨q, result.transactions⟩] }
  | .other a _ => { S with ledger := a.perform sha256 S.ledger }

def PenaltyRequest.SameToken (q q' : PenaltyRequest) : Prop :=
  q.classId = q'.classId ∧ q.idempotencyKey = q'.idempotencyKey

def seatTotal (L : LedgerState) (classId : String) (seatId : ℕ) : ℤ :=
  getAvailableBalance L ⟨classId, seatId, .checking⟩ +
    getAvailableBalance L ⟨classId, seatId, .savings⟩

/-- What an accepted submission of a token that was not used before has done. -/
structure FirstPenaltyLaw (sha256 : String → String) (repr : List Char → List Char)
    (S : PenaltyState) (q : PenaltyRequest) (result : PenaltyResult) (L' : LedgerState) :
    Prop where
  reviewed : ∃ resolved, resolvePenaltyPlans S.ledger q = .ok resolved ∧
    penaltyPreviewDigest sha256 repr q resolved = q.expectedPreviewDigest
  rows : List.Forall₂ (fun s t ↦ t.classId = q.classId ∧ t.seatId = s ∧
    t.accountType = .checking ∧ t.amountCents = -q.quantized.value) q.seats result.transactions
  fresh : result.replayed = false
  debited : ∀ s ∈ q.seatIds,
    seatTotal L' q.classId s = seatTotal S.ledger q.classId s - q.quantized.value
  elsewhere : ∀ scope : Scope, ¬ (scope.classId = q.classId ∧ scope.seatId ∈ q.seatIds) →
    getAvailableBalance L' scope = getAvailableBalance S.ledger scope

structure PenaltyLaw (sha256 : String → String) (repr : List Char → List Char) (S : PenaltyState)
    (q : PenaltyRequest) : Prop where
  first : ∀ result L', executeTeacherPenalty sha256 repr S.claims S.ledger q = .ok (result, L') →
    (∀ a ∈ S.applied, ¬ a.request.SameToken q) → FirstPenaltyLaw sha256 repr S q result L'
  stale : (∀ resolved, resolvePenaltyPlans S.ledger q = .ok resolved →
      penaltyPreviewDigest sha256 repr q resolved ≠ q.expectedPreviewDigest) →
    (penaltyStep sha256 repr S (.penalty q)) = S
  unclaimed : (∃ s ∈ q.seatIds, (S.claims s).Excluded) →
    ∀ out, executeTeacherPenalty sha256 repr S.claims S.ledger q ≠ .ok out
  used : ∀ result L', executeTeacherPenalty sha256 repr S.claims S.ledger q = .ok (result, L') →
    ∀ a ∈ S.applied, a.request.SameToken q →
      a.request.SameBatch q ∧ L' = S.ledger ∧ result = ⟨a.rows, true⟩
  repeated : ∀ a ∈ S.applied, a.request.SameToken q → (∀ s, s ∈ a.request.seatIds ↔ s ∈ q.seatIds) →
    a.request.quantized = q.quantized → a.request.reason = q.reason →
      executeTeacherPenalty sha256 repr S.claims S.ledger q = .ok (⟨a.rows, true⟩, S.ledger)
  refused : (∀ out, executeTeacherPenalty sha256 repr S.claims S.ledger q ≠ .ok out) →
    penaltyStep sha256 repr S (.penalty q) = S

def PenaltyStepLaw (sha256 : String → String) (repr : List Char → List Char) (S : PenaltyState)
    (action : PenaltyAction) : Prop :=
  (penaltyStep sha256 repr S action).applied.Pairwise (fun a b ↦ ¬ a.request.SameToken b.request) ∧
    ∀ q, action = .penalty q → PenaltyLaw sha256 repr S q

end System

section Specification

structure PenaltyRequest.Selected (q : PenaltyRequest) (claims : ℕ → SeatClaim)
    (seatClass : ℕ → Option String) : Prop where
  nonempty : q.seatIds ≠ []
  reason : ¬ isBlank q.reason
  inClass : ∀ s ∈ q.seats, seatClass s = some q.classId
  claimed : ∀ s ∈ q.seats, ¬ (claims s).Excluded
  token : isSubmissionToken q.idempotencyKey

theorem PenaltyRequest.Selected.seats_ne_nil {claims : ℕ → SeatClaim}
    {seatClass : ℕ → Option String} (h : q.Selected claims seatClass) : q.seats ≠ [] := by
  obtain ⟨s, hs⟩ := List.exists_mem_of_ne_nil _ h.nonempty
  exact List.ne_nil_of_mem (PenaltyRequest.mem_seats.2 hs)

variable {claims : ℕ → SeatClaim} {result : PenaltyResult}

theorem replayPenalty_ok {existing : List LedgerCommandReservation} :
    replayPenalty sha256 L q existing = .ok result ↔
      ((∀ r ∈ existing, r.idempotencyKey ∈ q.seats.map (q.key sha256)) ∧
        ∀ k ∈ q.seats.map (q.key sha256), k ∈ existing.map (·.idempotencyKey)) ∧
      ∃ rows, List.Forall₂ (fun r t ↦ penaltyRow L r = .ok t) existing rows ∧
        result = ⟨rows.insertionSort (·.seatId ≤ ·.seatId), true⟩ := by
  simp only [replayPenalty, require_bind_eq_ok]
  simp only [bind_eq_ok, mapM_eq_ok, pure_eq_ok, eq_comm (b := result)]

/-- A submission is accepted just when it is selected and its token's rows, or its plans, are. -/
theorem executeTeacherPenalty_ok :
    executeTeacherPenalty sha256 repr claims L q = .ok (result, L') ↔
      q.Selected claims L.seatClass ∧
        ((tokenReservations L q.classId q.idempotencyKey ≠ [] ∧ L' = L ∧
            replayPenalty sha256 L q (tokenReservations L q.classId q.idempotencyKey) =
              .ok result) ∨
          (tokenReservations L q.classId q.idempotencyKey = [] ∧ ∃ resolved rows,
            resolvePenaltyPlans L q = .ok resolved ∧
            penaltyPreviewDigest sha256 repr q resolved = q.expectedPreviewDigest ∧
            applyPenaltyPlans sha256 q L resolved = .ok (rows, L') ∧ result = ⟨rows, false⟩)) := by
  simp only [executeTeacherPenalty, lockLedgerSeats, require_bind_eq_ok]
  have hclaimed : q.seats.filter (fun s ↦ (claims s).Excluded) = [] ↔
      ∀ s ∈ q.seats, ¬ (claims s).Excluded := by
    simp [List.filter_eq_nil_iff]
  rw [hclaimed]
  constructor
  · rintro ⟨hnonempty, hreason, hclass', hclaims, htoken, h⟩
    refine ⟨⟨hnonempty, hreason, hclass', hclaims, htoken⟩, ?_⟩
    split_ifs at h with hnew
    · simp only [bind_eq_ok, pure_eq_ok, Prod.mk.injEq] at h
      obtain ⟨result', hreplay, rfl, rfl⟩ := h
      exact .inl ⟨hnew, rfl, hreplay⟩
    · rw [bind_eq_ok] at h
      simp only [require_bind_eq_ok] at h
      simp only [bind_eq_ok, Prod.exists, pure_eq_ok, Prod.mk.injEq] at h
      obtain ⟨resolved, hresolved, hdigest, rows, L₁, happly, rfl, rfl⟩ := h
      exact .inr ⟨not_not.1 hnew, resolved, rows, hresolved, hdigest, happly, rfl⟩
  · rintro ⟨⟨hnonempty, hreason, hclass', hclaims, htoken⟩, h⟩
    refine ⟨hnonempty, hreason, hclass', hclaims, htoken, ?_⟩
    rcases h with ⟨hnew, rfl, hreplay⟩ | ⟨hnew, resolved, rows, hresolved, hdigest, happly, rfl⟩
    · rw [if_pos hnew]
      simp only [bind_eq_ok, pure_eq_ok]
      exact ⟨result, hreplay, rfl⟩
    · rw [if_neg (not_not.2 hnew), bind_eq_ok]
      simp only [require_bind_eq_ok]
      simp only [bind_eq_ok, Prod.exists, pure_eq_ok]
      exact ⟨resolved, hresolved, hdigest, rows, L', happly, rfl⟩

end Specification

section Invariant

variable {S : PenaltyState} {K : PenaltyRequest → Prop} {a : AppliedPenalty}

/-- The reservations and rows of an applied submission, as long as nothing rewrites them. -/
structure PenaltyOwned (sha256 : String → String) (claims : ℕ → SeatClaim) (L : LedgerState)
    (a : AppliedPenalty) : Prop where
  selected : a.request.Selected claims L.seatClass
  reservations : List.Forall₂ (fun s r ↦ r.idempotencyKey = a.request.key sha256 s)
    a.request.seats (tokenReservations L a.request.classId a.request.idempotencyKey)
  rows : List.Forall₂ (fun r t ↦ penaltyRow L r = .ok t)
    (tokenReservations L a.request.classId a.request.idempotencyKey) a.rows
  seats : List.Forall₂ (fun s t ↦ t.seatId = s) a.request.seats a.rows

/-- What holds of the Ledger and of the submissions of `K` that were applied to it. -/
structure PenaltyInvariant (sha256 : String → String) (K : PenaltyRequest → Prop)
    (S : PenaltyState) : Prop extends Consistent S.ledger where
  distinct : S.applied.Pairwise (fun a b ↦ ¬ a.request.SameToken b.request)
  owned : ∀ a ∈ S.applied, PenaltyOwned sha256 S.claims S.ledger a
  others : ∀ r ∈ S.ledger.reservations, r.featCode = penaltyFeat →
    ∃ a ∈ S.applied, r.classId = a.request.classId ∧ ∃ s, r.idempotencyKey = a.request.key sha256 s
  known : ∀ a ∈ S.applied, K a.request

theorem PenaltyInvariant.initial (claims : ℕ → SeatClaim) (seatClass : ℕ → Option String) :
    PenaltyInvariant sha256 K (.initial claims seatClass) where
  toConsistent := .empty seatClass
  distinct := .nil
  owned := fun _ h ↦ absurd h List.not_mem_nil
  others := fun _ h ↦ absurd h List.not_mem_nil
  known := fun _ h ↦ absurd h List.not_mem_nil

theorem mem_tokenReservations {classId token : String} {r : LedgerCommandReservation} :
    r ∈ tokenReservations L classId token ↔ r ∈ L.reservations ∧ r.classId = classId ∧
      r.featCode = penaltyFeat ∧ penaltyTokenPrefix token <+: r.idempotencyKey.toList := by
  rw [tokenReservations, List.mem_filter, decide_eq_true_iff]

theorem tokenReservations_append {classId token : String} {rs : List LedgerCommandReservation}
    (h : L'.reservations = L.reservations ++ rs)
    (hother : ∀ r ∈ rs, ¬ (r.classId = classId ∧ r.featCode = penaltyFeat ∧
      penaltyTokenPrefix token <+: r.idempotencyKey.toList)) :
    tokenReservations L' classId token = tokenReservations L classId token := by
  have hnil : rs.filter (fun r ↦ r.classId = classId ∧ r.featCode = penaltyFeat ∧
      penaltyTokenPrefix token <+: r.idempotencyKey.toList) = [] := by
    rw [List.filter_eq_nil_iff]
    intro r hr
    rw [decide_eq_true_iff]
    exact hother r hr
  rw [tokenReservations, h, List.filter_append, hnil, List.append_nil, tokenReservations]

theorem PenaltyOwned.mono {claims : ℕ → SeatClaim} (h : PenaltyOwned sha256 claims L a)
    (hc : CommandInvariant L) (he : Extends L L') (hsame : tokenReservations L'
      a.request.classId a.request.idempotencyKey = tokenReservations L a.request.classId
        a.request.idempotencyKey) : PenaltyOwned sha256 claims L' a := by
  refine ⟨?_, ?_, ?_, h.seats⟩
  · rw [he.seatClass]
    exact h.selected
  · rw [hsame]
    exact h.reservations
  · rw [hsame]
    have hbounded : ∀ r ∈ tokenReservations L a.request.classId a.request.idempotencyKey,
        r.id ≤ L.reservations.length := fun r hr ↦ hc.bounded r (mem_tokenReservations.1 hr).1
    refine (List.forall₂_and_left _ _ |>.2 ⟨hbounded, h.rows⟩).imp ?_
    rintro r t ⟨hr, hrow⟩
    rw [penaltyRow_mono he hr]
    exact hrow

theorem forall₂_map_eq {α β γ : Type} {f : α → γ} {g : β → γ} {as : List α} {bs : List β}
    (h : List.Forall₂ (fun a b ↦ g b = f a) as bs) : bs.map g = as.map f := by
  induction h with
  | nil => rfl
  | cons hab _ ih => rw [List.map_cons, List.map_cons, hab, ih]

theorem PenaltyOwned.rows_sorted {claims : ℕ → SeatClaim} (ho : PenaltyOwned sha256 claims L a) :
    a.rows.Pairwise (fun t u ↦ t.seatId ≤ u.seatId) := by
  have hseats : a.rows.map (·.seatId) = a.request.seats := by
    rw [forall₂_map_eq ho.seats, List.map_id']
  have hsorted := a.request.seats_sorted
  rw [← hseats, List.pairwise_map] at hsorted
  exact hsorted

/-- Under a used token, exactly the batch that it was used for replays. -/
theorem PenaltyOwned.replay {claims : ℕ → SeatClaim} (ho : PenaltyOwned sha256 claims L a)
    (htoken : a.request.SameToken q) (htold : BatchesTold sha256 a.request q)
    (hne : q.seats ≠ []) {result : PenaltyResult} :
    replayPenalty sha256 L q (tokenReservations L q.classId q.idempotencyKey) = .ok result ↔
      a.request.SameBatch q ∧ result = ⟨a.rows, true⟩ := by
  have hreservations := ho.reservations
  have hrows := ho.rows
  rw [htoken.1, htoken.2] at hreservations hrows
  have hkeys : (tokenReservations L q.classId q.idempotencyKey).map (·.idempotencyKey) =
      a.request.seats.map (a.request.key sha256) := forall₂_map_eq hreservations
  have hmem : (∀ k ∈ (tokenReservations L q.classId q.idempotencyKey).map (·.idempotencyKey),
      k ∈ q.seats.map (q.key sha256)) ↔ ∀ r ∈ tokenReservations L q.classId q.idempotencyKey,
        r.idempotencyKey ∈ q.seats.map (q.key sha256) := List.forall_mem_map
  rw [replayPenalty_ok, ← PenaltyRequest.sameBatch_iff htold htoken.2 hne, ← hkeys, hmem]
  refine and_congr_right fun _ ↦ ?_
  constructor
  · rintro ⟨rows, hrows', rfl⟩
    have heq : rows = a.rows := Except.ok.inj
      ((mapM_eq_ok.2 hrows').symm.trans (mapM_eq_ok.2 hrows))
    rw [heq, List.Pairwise.insertionSort_eq ho.rows_sorted]
  · rintro rfl
    exact ⟨a.rows, hrows, by rw [List.Pairwise.insertionSort_eq ho.rows_sorted]⟩

variable (h : PenaltyInvariant sha256 K S)
include h

theorem PenaltyInvariant.other {action : OtherAction} (havoids : action.Avoids penaltyFeat) :
    PenaltyInvariant sha256 K (penaltyStep sha256 repr S (.other action havoids)) := by
  have hstep : OtherStep sha256 S.ledger action (action.perform sha256 S.ledger) :=
    h.toConsistent.other action
  obtain ⟨rs, hrs, hadded⟩ := hstep.added
  have hfeat : ∀ r ∈ rs, r.featCode ≠ penaltyFeat := by
    intro r hr
    obtain ⟨c, hc, hid, -⟩ := hadded r hr
    have hcode : r.featCode = c.identity.featCode := congrArg CommandIdentity.featCode hid
    rw [hcode]
    exact havoids c hc
  refine ⟨hstep.consistent, h.distinct, ?_, ?_, h.known⟩
  · intro a ha
    exact (h.owned a ha).mono h.commands hstep.toExtends
      (tokenReservations_append hrs (fun r hr hmatch ↦ hfeat r hr hmatch.2.1))
  · intro r hr hcode
    dsimp only [penaltyStep] at hr
    rw [hrs] at hr
    rcases List.mem_append.1 hr with hr | hr
    · exact h.others r hr hcode
    · exact absurd hcode (hfeat r hr)

theorem PenaltyInvariant.tokenReservations_eq_nil (htoken : isSubmissionToken q.idempotencyKey) :
    tokenReservations S.ledger q.classId q.idempotencyKey = [] ↔
      ∀ a ∈ S.applied, ¬ a.request.SameToken q := by
  constructor
  · intro hnil a ha hsame
    have howned := (h.owned a ha).reservations
    rw [hsame.1, hsame.2, hnil, List.forall₂_nil_right_iff] at howned
    exact (h.owned a ha).selected.seats_ne_nil howned
  · intro hunused
    rw [List.eq_nil_iff_forall_not_mem]
    intro r hr
    obtain ⟨hmem, hclass, hfeat, hstarts⟩ := mem_tokenReservations.1 hr
    obtain ⟨a, ha, haclass, s, hkey⟩ := h.others r hmem hfeat
    rw [hkey] at hstarts
    exact hunused a ha ⟨haclass.symm.trans hclass,
      (token_eq_of_key htoken (h.owned a ha).selected.token hstarts).symm⟩

/-- What an accepted submission does: it repeats an applied one of its token, or it is the first
of its token and charges its whole selection. -/
theorem PenaltyInvariant.penalty_cases (htold : ∀ q', K q' → BatchesTold sha256 q' q)
    {result : PenaltyResult}
    (hok : executeTeacherPenalty sha256 repr S.claims S.ledger q = .ok (result, L')) :
    q.Selected S.claims S.ledger.seatClass ∧
      ((∃ a ∈ S.applied, a.request.SameToken q ∧ a.request.SameBatch q ∧ L' = S.ledger ∧
          result = ⟨a.rows, true⟩) ∨
        ((∀ a ∈ S.applied, ¬ a.request.SameToken q) ∧ result.replayed = false ∧
          PenaltyPosted sha256 q S.ledger q.seats result.transactions L' ∧
          ∃ resolved, resolvePenaltyPlans S.ledger q = .ok resolved ∧
            penaltyPreviewDigest sha256 repr q resolved = q.expectedPreviewDigest)) := by
  obtain ⟨hselected, hcase⟩ := executeTeacherPenalty_ok.1 hok
  refine ⟨hselected, ?_⟩
  rcases hcase with ⟨hused, rfl, hreplay⟩ | ⟨hnew, resolved, rows, hresolved, hdigest, happly, rfl⟩
  · rw [Ne, h.tokenReservations_eq_nil hselected.token] at hused
    push Not at hused
    obtain ⟨a, ha, htoken⟩ := hused
    obtain ⟨hsame, hresult⟩ := ((h.owned a ha).replay htoken (htold _ (h.known a ha))
      hselected.seats_ne_nil).1 hreplay
    exact .inl ⟨a, ha, htoken, hsame, rfl, hresult⟩
  · have hunused := (h.tokenReservations_eq_nil hselected.token).1 hnew
    refine .inr ⟨hunused, rfl, ?_, resolved, hresolved, hdigest⟩
    rw [resolvePenaltyPlans, require_bind_eq_ok, mapM_eq_ok] at hresolved
    obtain ⟨hpos, hplans⟩ := hresolved
    refine applyPenaltyPlans_ok h.toConsistent hpos
      (hplans.imp fun s plan hplan ↦ resolvePenaltyPlan_ok h.balance hpos hplan) q.seats_nodup ?_
      happly
    -- A reservation under one of the keys would be one of the token's.
    intro s _ r hr hid
    have hmem : r ∈ tokenReservations S.ledger q.classId q.idempotencyKey := by
      refine mem_tokenReservations.2 ⟨hr, congrArg CommandIdentity.classId hid,
        congrArg CommandIdentity.featCode hid, ?_⟩
      have hkey : r.idempotencyKey = q.key sha256 s := congrArg CommandIdentity.idempotencyKey hid
      rw [hkey]
      exact penaltyTokenPrefix_key _ _ _
    rw [hnew] at hmem
    exact absurd hmem List.not_mem_nil

/-- The reservations of a first submission are its token's from then on. -/
theorem PenaltyInvariant.owned_new (hselected : q.Selected S.claims S.ledger.seatClass)
    (hunused : ∀ a ∈ S.applied, ¬ a.request.SameToken q)
    (hp : PenaltyPosted sha256 q S.ledger q.seats rows L') :
    PenaltyOwned sha256 S.claims L' ⟨q, rows⟩ := by
  obtain ⟨rs, hrs, hids, hrows⟩ := hp.owned
  have hnew : tokenReservations L' q.classId q.idempotencyKey = rs := by
    have hold := (h.tokenReservations_eq_nil hselected.token).2 hunused
    rw [tokenReservations] at hold ⊢
    rw [hrs, List.filter_append, hold, List.nil_append, List.filter_eq_self]
    intro r hr
    obtain ⟨s, -, hid⟩ := forall₂_exists_left hids hr
    have hkey : r.idempotencyKey = q.key sha256 s := congrArg CommandIdentity.idempotencyKey hid
    rw [decide_eq_true_iff, hkey]
    exact ⟨congrArg CommandIdentity.classId hid, congrArg CommandIdentity.featCode hid,
      penaltyTokenPrefix_key _ _ _⟩
  refine ⟨?_, ?_, ?_, hp.debits.imp fun _ _ hdebit ↦ hdebit.2.1⟩
  · rw [hp.seatClass]
    exact hselected
  · dsimp only
    rw [hnew]
    exact hids.imp fun _ _ hid ↦ congrArg CommandIdentity.idempotencyKey hid
  · dsimp only
    rw [hnew]
    exact hrows

theorem PenaltyInvariant.penalty (hq : K q) (htold : ∀ q', K q' → BatchesTold sha256 q' q) :
    PenaltyInvariant sha256 K (penaltyStep sha256 repr S (.penalty q)) := by
  rw [penaltyStep]
  cases hexec : executeTeacherPenalty sha256 repr S.claims S.ledger q with
  | error e => exact h
  | ok out =>
    obtain ⟨result, L'⟩ := out
    dsimp only
    obtain ⟨hselected, hrepeat | ⟨hunused, hfresh, hp, -⟩⟩ := h.penalty_cases htold hexec
    · obtain ⟨a, -, -, -, rfl, rfl⟩ := hrepeat
      exact h
    · rw [if_neg (by rw [hfresh]; exact Bool.false_ne_true)]
      obtain ⟨rs, hrs, hids, -⟩ := hp.owned
      refine ⟨hp.consistent, ?_, ?_, ?_, ?_⟩
      · refine List.pairwise_append.2 ⟨h.distinct, List.pairwise_singleton _ _, ?_⟩
        intro a ha b hb
        rw [List.mem_singleton.1 hb]
        exact hunused a ha
      · intro a ha
        rcases List.mem_append.1 ha with ha | ha
        · refine (h.owned a ha).mono h.commands hp.toExtends
            (tokenReservations_append hrs fun r hr hmatch ↦ ?_)
          obtain ⟨s, -, hid⟩ := forall₂_exists_left hids hr
          have hclass : r.classId = q.classId := congrArg CommandIdentity.classId hid
          have hkey : r.idempotencyKey = q.key sha256 s :=
            congrArg CommandIdentity.idempotencyKey hid
          rw [hkey] at hmatch
          exact hunused a ha ⟨hmatch.1.symm.trans hclass,
            token_eq_of_key (h.owned a ha).selected.token hselected.token hmatch.2.2⟩
        · rw [List.mem_singleton.1 ha]
          exact h.owned_new hselected hunused hp
      · intro r hr hfeat
        dsimp only at hr
        rw [hrs] at hr
        rcases List.mem_append.1 hr with hr | hr
        · obtain ⟨a, ha, hrest⟩ := h.others r hr hfeat
          exact ⟨a, List.mem_append_left _ ha, hrest⟩
        · obtain ⟨s, -, hid⟩ := forall₂_exists_left hids hr
          exact ⟨_, List.mem_append_right _ List.mem_cons_self,
            congrArg CommandIdentity.classId hid, s, congrArg CommandIdentity.idempotencyKey hid⟩
      · intro a ha
        rcases List.mem_append.1 ha with ha | ha
        · exact h.known a ha
        · rw [List.mem_singleton.1 ha]
          exact hq

theorem PenaltyInvariant.applied_unique {a b : AppliedPenalty} (ha : a ∈ S.applied)
    (hb : b ∈ S.applied) (htoken : a.request.SameToken b.request) : a = b := by
  by_contra hne
  have hsymm : Std.Symm (fun a b : AppliedPenalty ↦ ¬ a.request.SameToken b.request) :=
    ⟨fun _ _ hnot hsame ↦ hnot ⟨hsame.1.symm, hsame.2.symm⟩⟩
  exact h.distinct.forall ha hb hne htoken

omit h in
theorem seats_eq_of_mem_iff (hmem : ∀ s, s ∈ q.seatIds ↔ s ∈ q'.seatIds) : q.seats = q'.seats := by
  have hperm : q.seats.Perm q'.seats := by
    rw [List.perm_ext_iff_of_nodup q.seats_nodup q'.seats_nodup]
    intro s
    rw [PenaltyRequest.mem_seats, PenaltyRequest.mem_seats, hmem]
  exact hperm.eq_of_pairwise (fun _ _ _ _ h h' ↦ le_antisymm h h') q.seats_sorted q'.seats_sorted

theorem PenaltyInvariant.repeat_ok (htold : ∀ q', K q' → BatchesTold sha256 q' q)
    {a : AppliedPenalty} (ha : a ∈ S.applied) (htoken : a.request.SameToken q)
    (hmem : ∀ s, s ∈ a.request.seatIds ↔ s ∈ q.seatIds)
    (hquantized : a.request.quantized = q.quantized) (hreason : a.request.reason = q.reason) :
    executeTeacherPenalty sha256 repr S.claims S.ledger q =
      .ok (⟨a.rows, true⟩, S.ledger) := by
  have howned := h.owned a ha
  have hselected := howned.selected
  have hseats : a.request.seats = q.seats := seats_eq_of_mem_iff hmem
  have hsame : a.request.SameBatch q := by
    refine ⟨hseats, hquantized, ?_⟩
    rw [PenaltyRequest.description, PenaltyRequest.description, hreason]
  have hq : q.Selected S.claims S.ledger.seatClass := by
    refine ⟨?_, hreason ▸ hselected.reason, ?_, ?_, htoken.2 ▸ hselected.token⟩
    · intro hnil
      obtain ⟨s, hs⟩ := List.exists_mem_of_ne_nil _ hselected.nonempty
      have hin := (hmem s).1 hs
      rw [hnil] at hin
      cases hin
    · rw [← hseats, ← htoken.1]
      exact hselected.inClass
    · rw [← hseats]
      exact hselected.claimed
  refine executeTeacherPenalty_ok.2 ⟨hq, .inl ⟨?_, rfl, ?_⟩⟩
  · rw [Ne, h.tokenReservations_eq_nil hq.token]
    exact fun hunused ↦ hunused a ha htoken
  · exact (howned.replay htoken (htold _ (h.known a ha)) hq.seats_ne_nil).2 ⟨hsame, rfl⟩

theorem PenaltyInvariant.firstLaw (htold : ∀ q', K q' → BatchesTold sha256 q' q)
    {result : PenaltyResult}
    (hok : executeTeacherPenalty sha256 repr S.claims S.ledger q = .ok (result, L'))
    (hunused : ∀ a ∈ S.applied, ¬ a.request.SameToken q) :
    FirstPenaltyLaw sha256 repr S q result L' := by
  obtain ⟨-, ⟨a, ha, htoken, -⟩ | ⟨-, hfresh, hp, hreviewed⟩⟩ := h.penalty_cases htold hok
  · exact absurd htoken (hunused a ha)
  have hb := hp.consistent.balance
  refine ⟨hreviewed, hp.debits, hfresh, ?_, ?_⟩
  · intro s hs
    simp only [seatTotal, hb.getAvailableBalance, h.balance.getAvailableBalance]
    exact hp.totals s (PenaltyRequest.mem_seats.2 hs)
  · intro scope hscope
    rw [hb.getAvailableBalance, h.balance.getAvailableBalance]
    exact hp.elsewhere scope fun hin ↦ hscope ⟨hin.1, PenaltyRequest.mem_seats.1 hin.2⟩

theorem PenaltyInvariant.penaltyLaw (htold : ∀ q', K q' → BatchesTold sha256 q' q) :
    PenaltyLaw sha256 repr S q where
  first := fun _ _ hok hunused ↦ h.firstLaw htold hok hunused
  stale := by
    intro hstale
    rw [penaltyStep]
    cases hexec : executeTeacherPenalty sha256 repr S.claims S.ledger q with
    | error e => rfl
    | ok out =>
      obtain ⟨result, L'⟩ := out
      obtain ⟨-, ⟨a, -, -, -, rfl, rfl⟩ | ⟨-, -, -, resolved, hresolved, hdigest⟩⟩ :=
        h.penalty_cases htold hexec
      · rfl
      · exact absurd hdigest (hstale resolved hresolved)
  unclaimed := by
    rintro ⟨s, hs, hexcluded⟩ ⟨result, L'⟩ hok
    exact (h.penalty_cases htold hok).1.claimed s (PenaltyRequest.mem_seats.2 hs) hexcluded
  used := by
    intro result L' hok a ha htoken
    obtain ⟨-, ⟨b, hb, hbtoken, hsame, hL, hresult⟩ | ⟨hunused, -⟩⟩ := h.penalty_cases htold hok
    · obtain rfl := h.applied_unique ha hb
        ⟨htoken.1.trans hbtoken.1.symm, htoken.2.trans hbtoken.2.symm⟩
      exact ⟨hsame, hL, hresult⟩
    · exact absurd htoken (hunused a ha)
  repeated := fun a ha htoken hmem hquantized hreason ↦
    h.repeat_ok htold ha htoken hmem hquantized hreason
  refused := by
    intro hrefused
    rw [penaltyStep]
    cases hexec : executeTeacherPenalty sha256 repr S.claims S.ledger q with
    | error e => rfl
    | ok out => exact absurd hexec (hrefused out)

end Invariant

/-- Fines over every run of submissions among other debits, credits and settlements, as long as no
two batches of the run share a truncated digest. Within a class, a token is used for at most one
selection, amount to the cent and text of the reason. -/
theorem teacher_penalties_apply_once (sha256 : String → String) (repr : List Char → List Char)
    (claims : ℕ → SeatClaim) (seatClass : ℕ → Option String) (actions : List PenaltyAction)
    (htold : ∀ q q', .penalty q ∈ actions → .penalty q' ∈ actions → BatchesTold sha256 q q') :
    AllAlong (PenaltyStepLaw sha256 repr) (penaltyStep sha256 repr) (.initial claims seatClass)
      actions := by
  have hmem : AllAlong (fun _ a ↦ True ∧ a ∈ actions) (penaltyStep sha256 repr)
      (.initial claims seatClass) actions :=
    (AllAlong.of_forall (fun _ _ ↦ trivial) actions).and_forall fun _ h ↦ h
  have hI : PenaltyInvariant sha256 (fun q ↦ .penalty q ∈ actions) (.initial claims seatClass) :=
    .initial claims seatClass
  have hstep : ∀ (S : PenaltyState) (a : PenaltyAction),
      PenaltyInvariant sha256 (fun q ↦ .penalty q ∈ actions) S → True ∧ a ∈ actions →
        PenaltyInvariant sha256 (fun q ↦ .penalty q ∈ actions) (penaltyStep sha256 repr S a) := by
    rintro S (q | ⟨a, havoids⟩) h ⟨-, ha⟩
    · exact h.penalty ha fun q' hq' ↦ htold q' q hq' ha
    · exact h.other havoids
  refine hmem.of_invariant hI hstep fun S a h ha ↦ ⟨(hstep S a h ha).distinct, ?_⟩
  rintro q rfl
  exact h.penaltyLaw fun q' hq' ↦ htold q' q hq' ha.2

/-- A fine of five for one seat, reviewed on empty accounts. -/
def samplePenalty (classId : String) (seatId : ℕ) (digest : String) : PenaltyRequest where
  classId := classId
  seatIds := [seatId, seatId]
  amount := .ofCents 500
  reason := "late"
  actorSeatId := seatId
  expectedPreviewDigest := digest
  correlationId := "corr_1"
  idempotencyKey := "0123456789abcdef0123456789abcdef"
  directiveVersion := none
  protectionEnabled := false
  now := 0

def firstClassPenalty : PenaltyRequest := samplePenalty "c" 1 "1:5.00:Fine: late:0.00:0.00:0.00"

def secondClassPenalty : PenaltyRequest := samplePenalty "d" 2 "2:5.00:Fine: late:0.00:0.00:0.00"

def sampleClaims : ℕ → SeatClaim := fun s ↦ ⟨"student", some 0, some s⟩

def sampleSeatClass : ℕ → Option String := fun s ↦ if s = 1 then some "c" else some "d"

theorem teacher_penalties_apply_once_repeated :
    AllAlong (PenaltyStepLaw id id) (penaltyStep id id) (.initial sampleClaims sampleSeatClass)
      [.penalty firstClassPenalty, .penalty firstClassPenalty] := by
  apply teacher_penalties_apply_once id id sampleClaims sampleSeatClass
  intro q q' hq hq' _
  rw [List.mem_pair, or_self, PenaltyAction.penalty.injEq] at hq hq'
  rw [hq, hq']

/-- One token fines two selections, each in a class of its own, and one amount under two reasons
that show the same text. -/
theorem token_serves_two_fines :
    ∃ result result' L L',
      executeTeacherPenalty id id sampleClaims (.empty sampleSeatClass) firstClassPenalty =
        .ok (result, L) ∧
      executeTeacherPenalty id id sampleClaims L secondClassPenalty = .ok (result', L') ∧
      result.replayed = false ∧ result'.replayed = false ∧
      result.transactions.map (fun t ↦ (t.seatId, t.amountCents)) = [(1, -500)] ∧
      result'.transactions.map (fun t ↦ (t.seatId, t.amountCents)) = [(2, -500)] ∧
      firstClassPenalty.idempotencyKey = secondClassPenalty.idempotencyKey ∧
      firstClassPenalty.seatIds ≠ secondClassPenalty.seatIds ∧
      executeTeacherPenalty id id sampleClaims L { firstClassPenalty with reason := " late " } =
        .ok (⟨result.transactions, true⟩, L) :=
  ⟨_, _, _, _, rfl, rfl, rfl, rfl, rfl, rfl, rfl, by decide, rfl⟩

end TokenHub.Ledger
