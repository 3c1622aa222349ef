import TokenHub.Lib.Runs
import TokenHub.Rent.Configuration
import TokenHub.Rent.PaymentMoves
import TokenHub.Rent.ReconcileMoves

set_option autoImplicit false

namespace TokenHub.Rent

open Ledger Lib.Checks Lib.Json Lib.Runs

/-- One atomic command on the rent of the classes, with what its surroundings answer, or other
activity on the tables that it shares. -/
inductive RentAction
  | payRent (env : Surroundings) (feat : FeatContext) (q : RentPaymentRequest)
  | payRentBill (env : Surroundings) (feat : FeatContext) (q : RentBillRequest)
  | waive (now : Instant) (classId : String) (seatId : ℕ) (correlationId : String)
  | withdraw (now : Instant) (q : WithdrawAssessmentRequest)
  | reconcile (env : Surroundings) (clock : Instant) (q : ReconcileRentRequest)
  | supersede (now : Instant) (classId policyUuid : String) (updates : RentSettings → RentSettings)
  | enable (now : Instant) (classId economicVersionId : String) (effectiveAt : Instant)
  | disable (now : Instant) (classId : String) (effectiveAt : Instant)
  | enroll (seats : List Seat)
  | settle (seatId : ℕ) (classId : String)
  | post (feat : FeatContext) (id : CommandIdentity) (effects : List Effect) (intent : Value)
  | store (events : List EntitlementEvent)

/-- The instant that a command goes by. A reconciliation goes by the one it is asked for. -/
def RentAction.instant : RentAction → Option Instant
  | .payRent _ feat _ => some feat.canonicalNowUtc
  | .payRentBill _ feat _ => some feat.canonicalNowUtc
  | .reconcile _ clock q => some (q.referenceTimeUtc.getD clock)
  | _ => none

def rentStep (sha256 : String → String) (zones : String → ClassZone) (S : RentState) :
    RentAction → RentState
  | .payRent env feat q => committed S (payRent sha256 env feat S q)
  | .payRentBill env feat q => committed S (payRentBill sha256 env feat S q)
  | .waive now classId seatId correlationId => committed S (satisfyObligation S now
      { correlationId := correlationId, classId := classId, seatId := seatId, method := .waived })
  | .withdraw now q => committed S (withdrawAssessment S now q)
  | .reconcile env clock q => committed S (reconcileRent sha256 (zones q.classId) env clock S q)
  | .supersede now classId policyUuid updates =>
    committed S (supersedeRentSettings S now classId policyUuid updates)
  | .enable now classId economicVersionId effectiveAt =>
    (enableRent S now classId economicVersionId effectiveAt).2
  | .disable now classId effectiveAt => committed S (disableRent S now classId effectiveAt)
  | .enroll seats => { S with seats := seats }
  | .settle seatId classId =>
    { S with ledger := perform sha256 S.ledger (.settle seatId classId) }
  | .post feat id effects intent =>
    { S with ledger := committed S.ledger (createReservedEffects sha256 feat S.ledger
        S.ledger.reservations id (effects.map Effect.withoutRecovery) intent) }
  | .store events => { S with
      entitlementEvents := S.entitlementEvents ++ events.filter (fun e ↦ ¬ e.IsPerkGrant) }

variable {sha256 : String → String} {zones : String → ClassZone} {S S' : RentState}

section Steps

theorem RentInvariant.empty (seatClass : ℕ → Option String)
    (premiums : String → String → Option ℤ) :
    RentInvariant sha256 (.empty seatClass premiums) where
  ledger := .empty seatClass
  settings := by simp [RentState.empty]
  cycleIds := by simp [RentState.empty]
  cyclePolicies := by simp [RentState.empty]
  cycleLineages := by simp [RentState.empty]
  eventIds := by simp [RentState.empty]
  assessments := by simp [RentState.empty]
  assessedOnce := by simp [RentState.empty]
  satisfied := by simp [RentState.empty]
  payments := by simp [RentState.empty]
  paymentsDistinct := by simp [RentState.empty]
  neverBoth := by simp [RentState.empty]
  capped := by simp [RentState.empty]
  perks := by simp [RentState.empty]
  perkUnits := by simp [RentState.empty]

/-- A policy that is retired keeps its version and its terms. -/
theorem supersedeRentSettings_moves {now stamp : Instant} {classId policyUuid : String}
    {updates : RentSettings → RentSettings} (h : RentInvariant sha256 S) {r : RentSettings}
    (hok : supersedeRentSettings S stamp classId policyUuid updates = .ok (r, S')) :
    Moves sha256 zones now S S' := by
  simp only [supersedeRentSettings, require_bind_eq_ok, pure_eq_ok, Prod.mk.injEq] at hok
  obtain ⟨⟨hne, hnew⟩, hr, rfl⟩ := hok
  rw [hr]
  have huuid : r.policyUuid = policyUuid := by rw [← hr]
  let retire : RentSettings → RentSettings := fun r ↦
    if (getRentSettings S classId).any (·.id = r.id) then
      { r with availabilityState := .retired } else r
  have hkeep : ∀ r, (retire r).policyUuid = r.policyUuid ∧ (retire r).terms = r.terms := by
    intro r
    simp only [retire]
    split_ifs <;> exact ⟨rfl, rfl⟩
  have hpred : ∀ p, ((fun r : RentSettings ↦ decide (r.policyUuid = p)) ∘ retire) =
      fun r ↦ decide (r.policyUuid = p) := by
    intro p
    funext r
    simp [hkeep r]
  have hold : ∀ u r₀, rentPolicy S u = some r₀ →
      rentPolicy { S with rentSettings := S.rentSettings.map retire ++ [r] } u =
        some (retire r₀) := by
    intro u r₀ hr₀
    obtain ⟨rfl, hne₀, -⟩ := rentPolicy_spec hr₀
    simp only [rentPolicy, if_neg hne₀] at hr₀ ⊢
    rw [List.find?_append, List.find?_map, hpred, hr₀]
    rfl
  refine .single (.supersede (fun u r₀ hr₀ ↦ ⟨retire r₀, hold u r₀ hr₀, (hkeep r₀).2⟩) ?_)
  intro r₁ hr₁
  rcases List.mem_append.1 hr₁ with hr₁ | hr₁
  · obtain ⟨r₀, hr₀, rfl⟩ := List.mem_map.1 hr₁
    rw [(hkeep r₀).1]
    exact hold _ _ (h.settings r₀ hr₀)
  · obtain rfl := List.mem_singleton.1 hr₁
    have hnone : (S.rentSettings.map retire).find? (fun r ↦ r.policyUuid = r₁.policyUuid) =
        none := by
      rw [List.find?_eq_none]
      intro r₂ hr₂
      obtain ⟨r₀, hr₀, rfl⟩ := List.mem_map.1 hr₂
      rw [(hkeep r₀).1, huuid]
      simpa using hnew r₀ hr₀
    simp only [rentPolicy, if_neg (huuid ▸ hne)]
    rw [List.find?_append, hnone]
    simp

theorem withdrawUntouchedAdvanceRent_moves {now stamp : Instant} {classId : String}
    {effectiveAt : Instant} {n : ℕ}
    (hok : withdrawUntouchedAdvanceRent stamp classId effectiveAt S = .ok (n, S')) :
    Moves sha256 zones now S S' := by
  refine (tally_relates (I := fun _ ↦ True) hok trivial (fun _ ↦ .refl) (fun _ _ _ ↦ .trans) ?_).2
  intro cycle _ S n S' _ hstep
  refine tally_relates (I := fun _ ↦ True) hstep trivial (fun _ ↦ .refl) (fun _ _ _ ↦ .trans) ?_
  intro a _ S n S' _ hstep
  refine ⟨trivial, ?_⟩
  split_ifs at hstep with hpaid
  · rw [pure_eq_ok, Prod.mk.injEq] at hstep
    rw [← hstep.2]
  · simp only [bind_eq_ok, Prod.exists, pure_eq_ok, Prod.mk.injEq] at hstep
    obtain ⟨e, S₁, hwithdraw, -, rfl⟩ := hstep
    exact withdrawAssessment_moves hwithdraw

theorem disableRent_moves {now stamp : Instant} {classId : String} {effectiveAt : Instant}
    {outcome : FeatureOutcome} (hok : disableRent S stamp classId effectiveAt = .ok (outcome, S')) :
    Moves sha256 zones now S S' := by
  unfold disableRent at hok
  split_ifs at hok
  · rw [pure_eq_ok, Prod.mk.injEq] at hok
    rw [← hok.2]
  · rw [pure_eq_ok, Prod.mk.injEq] at hok
    rw [← hok.2]
  · rw [pure_eq_ok, Prod.mk.injEq] at hok
    rw [← hok.2]
  · simp only [bind_eq_ok, Prod.exists, pure_eq_ok, Prod.mk.injEq] at hok
    obtain ⟨-, -, n, S₁, hwithdraw, -, rfl⟩ := hok
    exact Relation.ReflTransGen.head .configure (withdrawUntouchedAdvanceRent_moves hwithdraw)

/-- Every command makes the writes of the domain, at its own instant where it has one. -/
theorem RentInvariant.step_moves (h : RentInvariant sha256 S) (a : RentAction) (now : Instant) :
    Moves sha256 zones (a.instant.getD now) S (rentStep sha256 zones S a) := by
  cases a with
  | payRent env feat q => exact committed_relates .refl (fun _ _ hok ↦ payRent_moves h hok)
  | payRentBill env feat q =>
    exact committed_relates .refl (fun _ _ hok ↦ payRentBill_moves h hok)
  | waive stamp classId seatId correlationId =>
    exact committed_relates .refl (fun _ _ hok ↦ waive_moves rfl hok)
  | withdraw stamp q =>
    exact committed_relates .refl (fun _ _ hok ↦ withdrawAssessment_moves hok)
  | reconcile env clock q =>
    exact committed_relates .refl (fun _ _ hok ↦ reconcileRent_moves h hok)
  | supersede stamp classId policyUuid updates =>
    exact committed_relates .refl (fun _ _ hok ↦ supersedeRentSettings_moves h hok)
  | enable stamp classId economicVersionId effectiveAt =>
    simp only [rentStep, enableRent]
    split_ifs
    · exact .refl
    · exact .refl
    · exact .refl
    · exact .single .configure
  | disable stamp classId effectiveAt =>
    exact committed_relates .refl (fun _ _ hok ↦ disableRent_moves hok)
  | enroll seats => exact .single .configure
  | settle seatId classId => exact .single (.ledger (.settle h.ledger seatId classId))
  | post feat id effects intent =>
    refine .single (.ledger (committed_relates (.refl h.ledger) (fun rows L' hok ↦ ?_)))
    exact .reserved h.ledger (by simp [Effect.withoutRecovery]) hok
  | store events => exact .single (.store (fun e he ↦ by simpa using (List.mem_filter.1 he).2))

theorem RentInvariant.step (h : RentInvariant sha256 S) (a : RentAction) (now : Instant) :
    Progress sha256 (a.instant.getD now) S (rentStep sha256 zones S a) :=
  h.moves (h.step_moves a now)

end Steps

section Runs

theorem RentInvariant.run (h : RentInvariant sha256 S) (as : List RentAction) :
    RentInvariant sha256 (run (rentStep sha256 zones) S as) ∧
      Extends sha256 S (run (rentStep sha256 zones) S as) := by
  induction as generalizing S with
  | nil => exact ⟨h, .refl h⟩
  | cons a as ih =>
    have hp : Progress sha256 (a.instant.getD 0) S (rentStep sha256 zones S a) := h.step a 0
    obtain ⟨hinv, hx⟩ := ih hp.invariant
    exact ⟨hinv, hp.kept.trans hx⟩

theorem reachable_invariant (sha256 : String → String) (zones : String → ClassZone)
    (seatClass : ℕ → Option String) (premiums : String → String → Option ℤ)
    (as : List RentAction) :
    RentInvariant sha256 (run (rentStep sha256 zones) (.empty seatClass premiums) as) :=
  ((RentInvariant.empty seatClass premiums).run as).1

/-- A satisfied obligation of a positive amount has a satisfaction event. -/
theorem exists_satisfaction {correlationId : String} {st : ObligationState}
    (hst : getObligationState S correlationId = some st) (hsat : st.status = .satisfied)
    (hpos : 0 < st.assessedAmount) :
    ∃ f ∈ S.assessmentEvents, f.correlationId = correlationId ∧ f.IsSatisfaction := by
  have hne : getSatisfactionEvents S correlationId ≠ [] := by
    intro hnil
    unfold getObligationState at hst
    obtain ⟨a, -, rfl⟩ := Option.map_eq_some_iff.1 hst
    simp only [getPaidMagnitude, hnil, List.map_nil, List.sum_nil, List.any_nil] at hsat hpos
    split_ifs at hsat with hwithdrawn hsettled
    rcases hsettled with hwaived | hle
    · cases hwaived
    · exact absurd hle (not_le.2 hpos)
  obtain ⟨f, hf⟩ := List.exists_mem_of_ne_nil _ hne
  obtain ⟨hmem, hcorr⟩ := List.mem_filter.1 hf
  exact ⟨f, hmem, of_decide_eq_true hcorr⟩

theorem Extends.satisfied (h : RentInvariant sha256 S) (h' : RentInvariant sha256 S')
    (hx : Extends sha256 S S') {correlationId : String} {st : ObligationState}
    (hst : getObligationState S correlationId = some st) (hsat : st.status = .satisfied)
    (hpos : 0 < st.assessedAmount) :
    ∃ st', getObligationState S' correlationId = some st' ∧ st'.status = .satisfied := by
  obtain ⟨f, hf, hfcorr, hfsat⟩ := exists_satisfaction hst hsat hpos
  unfold getObligationState at hst
  obtain ⟨a, ha, rfl⟩ := Option.map_eq_some_iff.1 hst
  obtain ⟨hmem, hcorr, hass⟩ := getAssessmentForCorrelation_spec ha
  have hfound : getAssessmentForCorrelation S' correlationId = some a := by
    rw [← hcorr]
    exact h'.found (hx.mem_events hmem) hass
  have hopen : getWithdrawalEvent S' correlationId = none := by
    rw [getWithdrawalEvent, List.find?_eq_none]
    intro w hw
    simp only [decide_eq_true_eq, not_and]
    intro hwcorr hwithdrawn
    exact h'.neverBoth w hw f (hx.mem_events hf) hwithdrawn hfsat (hwcorr.trans hfcorr.symm)
  refine ⟨_, by rw [getObligationState, hfound, Option.map_some], ?_⟩
  simp only [hopen, Option.isSome_none]
  simp only at hsat
  split_ifs at hsat with hwithdrawn hsettled
  rw [if_neg (by simp), if_pos]
  rcases hsettled with hwaived | hle
  · left
    rw [List.any_eq_true] at hwaived ⊢
    obtain ⟨e, he, hw⟩ := hwaived
    obtain ⟨hemem, hep⟩ := List.mem_filter.1 he
    exact ⟨e, List.mem_filter.2 ⟨hx.mem_events hemem, hep⟩, hw⟩
  · right
    rw [hx.amount h hmem hass]
    exact hle.trans (hx.paid_le h correlationId)

structure SettledOnce (S : RentState) : Prop where
  neverOverpaid : ∀ a ∈ S.assessmentEvents, a.IsAssessment →
    getPaidMagnitude S a.correlationId ≤ max 0 (resolveAssessmentAmount S a)
  paymentRows : ∀ e ∈ S.assessmentEvents, e.eventType = .payment →
    ∃ t ∈ S.ledger.transactions, e.ledgerTransactionId = some t.id
  paymentsDistinct : (S.assessmentEvents.filter (·.eventType = .payment)).Pairwise
    (fun e f ↦ e.ledgerTransactionId ≠ f.ledgerTransactionId)
  neverBoth : ∀ e ∈ S.assessmentEvents, ∀ f ∈ S.assessmentEvents, e.eventType = .withdrawn →
    f.IsSatisfaction → e.correlationId ≠ f.correlationId
  perksOnce : ∀ a ∈ S.assessmentEvents, a.IsAssessment → ∃ r,
    rentPolicy S a.policyUuid = some r ∧
      (grantedUnits S a.correlationId).Sublist (configuredUnits r.satisfactionBenefits)
  lateFeePerks : ∀ a ∈ S.assessmentEvents, a.IsAssessment → a.obligationType = .lateFee →
    grantedUnits S a.correlationId = []

theorem RentInvariant.settledOnce (h : RentInvariant sha256 S) : SettledOnce S where
  neverOverpaid := h.capped
  paymentRows := h.payments
  paymentsDistinct := h.paymentsDistinct
  neverBoth := h.neverBoth
  perksOnce := by
    intro a ha hass
    obtain ⟨r, hr, -⟩ := h.policy ha hass
    exact ⟨r, hr, h.perkUnits a ha hass r hr⟩
  lateFeePerks := by
    intro a ha hass hlate
    rw [grantedUnits, List.map_eq_nil_iff, List.filter_eq_nil_iff]
    intro e he hperk
    obtain ⟨hgrant, hcorr⟩ := of_decide_eq_true hperk
    obtain ⟨b, hb, hbss, hrent, hcorr', -⟩ := h.perks e he hgrant
    rw [hcorr, Option.some.injEq] at hcorr'
    obtain rfl : a = b := h.assessedOnce a ha b hb hass hbss hcorr'
    rw [hlate] at hrent
    cases hrent

/-- The perks that a command grants are those of rents whose period has begun. -/
theorem RentInvariant.perks_begun (h : RentInvariant sha256 S) (a : RentAction) :
    ∃ es, (rentStep sha256 zones S a).entitlementEvents = S.entitlementEvents ++ es ∧
      ∀ e ∈ es, e.IsPerkGrant → ∃ now, a.instant = some now ∧
        ∃ ob ∈ (rentStep sha256 zones S a).assessmentEvents, ob.IsAssessment ∧
          ob.obligationType = .rent ∧ e.correlationId = some ob.correlationId ∧
            resolveAssessmentDueAt (rentStep sha256 zones S a) ob ≤ now := by
  have hp : Progress sha256 (a.instant.getD 0) S (rentStep sha256 zones S a) := h.step a 0
  have hi := hp.invariant
  obtain ⟨es, hes, hbegun⟩ := hp.begun
  refine ⟨es, hes, fun e he hgrant ↦ ?_⟩
  have hmem : e ∈ (rentStep sha256 zones S a).entitlementEvents := by
    rw [hes]
    exact List.mem_append_right _ he
  obtain ⟨ob, hob, hass, hrent, hcorr, -, -⟩ := hi.perks e hmem hgrant
  have hdue : ∀ now, resolveAssessmentDueAt (rentStep sha256 zones S a) ob ≤
      a.instant.getD now := by
    intro now
    have hpn : Progress sha256 (a.instant.getD now) S (rentStep sha256 zones S a) := h.step a now
    obtain ⟨es', hes', hbegun'⟩ := hpn.begun
    obtain rfl : es' = es := List.append_cancel_left (hes'.symm.trans hes)
    obtain ⟨b, hb, hbss, hbcorr, hle⟩ := hbegun' e he hgrant
    rw [hcorr, Option.some.injEq] at hbcorr
    obtain rfl : ob = b := hi.assessedOnce ob hob b hb hass hbss hbcorr
    exact hle
  cases hinstant : a.instant with
  | some now =>
    have hle := hdue now
    rw [hinstant] at hle
    exact ⟨now, rfl, ob, hob, hass, hrent, hcorr, hle⟩
  | none =>
    -- A command without an instant grants no perk: it would be due at every one.
    have hle := hdue (resolveAssessmentDueAt (rentStep sha256 zones S a) ob - 1)
    rw [hinstant, Option.getD_none] at hle
    exact absurd hle (not_le.2 (sub_one_lt _))

/-- In every run of the rent commands, an obligation is settled once and never overpaid, one that
was satisfied for a positive amount stays so, and a perk comes no sooner than its period. -/
theorem obligations_settled_once (sha256 : String → String) (zones : String → ClassZone)
    (seatClass : ℕ → Option String) (premiums : String → String → Option ℤ)
    (as : List RentAction) :
    let S := run (rentStep sha256 zones) (.empty seatClass premiums) as
    SettledOnce S ∧
      (∀ bs correlationId st, getObligationState S correlationId = some st →
        st.status = .satisfied → 0 < st.assessedAmount →
          ∃ st', getObligationState (run (rentStep sha256 zones) S bs) correlationId = some st' ∧
            st'.status = .satisfied) ∧
      (∀ a, ∃ es, (rentStep sha256 zones S a).entitlementEvents = S.entitlementEvents ++ es ∧
        ∀ e ∈ es, e.IsPerkGrant → ∃ now, a.instant = some now ∧
          ∃ ob ∈ (rentStep sha256 zones S a).assessmentEvents, ob.IsAssessment ∧
            ob.obligationType = .rent ∧ e.correlationId = some ob.correlationId ∧
              resolveAssessmentDueAt (rentStep sha256 zones S a) ob ≤ now) := by
  intro S
  have h : RentInvariant sha256 S := reachable_invariant sha256 zones seatClass premiums as
  refine ⟨h.settledOnce, ?_, fun a ↦ h.perks_begun a⟩
  intro bs correlationId st hst hsat hpos
  have hlater : RentInvariant sha256 (run (rentStep sha256 zones) S bs) ∧
      Extends sha256 S (run (rentStep sha256 zones) S bs) := h.run bs
  exact hlater.2.satisfied h hlater.1 hst hsat hpos

end Runs

section Samples

def utcZone : ClassZone where
  localDate t := t / 86400000000
  startOfDate d := d * 86400000000
  startOfDate_localDate := dayStart_steady

def day (n : ℤ) : Instant := n * 86400000000

def sampleSurroundings : Surroundings where
  engine := fun _ ↦ some ⟨"v", false⟩
  teacherSeat := fun _ ↦ .ok 9
  currentVersion := fun _ _ ↦ none
  usedHallPasses := []
  pendingActions := []

/-- A class with one student and a weekly rent from day 10 on, assessed ahead of it. -/
def assessedAhead (terms : RentSettings → RentSettings) : List RentAction :=
  [.supersede (day 0) "c" "p" (fun r ↦ { terms r with
      frequencyType := some "weekly", firstRentDueDate := some (day 10) }),
   .enable (day 0) "c" "v" (day 0),
   .enroll [⟨1, "c", "student", some (day 0), false⟩],
   .reconcile sampleSurroundings (day 5) { classId := "c" }]

def sampleStart : RentState :=
  .empty (fun i ↦ if i = 1 then some "c" else none) (fun _ _ ↦ none)

/-- A rent of nothing is satisfied as soon as it is assessed, and can still be withdrawn. -/
theorem zero_rent_withdrawn :
    (getObligationState (run (rentStep id fun _ ↦ utcZone) sampleStart
      (assessedAhead fun r ↦ { r with rentAmount := some 0 })) "rent:c:1:cycle:1").map
        (·.status) = some .satisfied ∧
    (getObligationState (run (rentStep id fun _ ↦ utcZone) sampleStart
      (assessedAhead (fun r ↦ { r with rentAmount := some 0 }) ++
        [.withdraw (day 6) { classId := "c", correlationId := "rent:c:1:cycle:1" }]))
          "rent:c:1:cycle:1").map (·.status) = some .withdrawn := by
  decide +kernel

end Samples

end TokenHub.Rent
