import TokenHub.Savings.Windows

set_option autoImplicit false

namespace TokenHub.Savings

open Lib.WallClock Time
open Economy (PayoutCadence)
open Rent (Instant)

section Loop

variable {Z : Zone} {terms : SavingsTerms} {claimedAt : Option Instant}
  {rateAt : Instant → Option ℚ} {everPositive : Bool} {now after t : Instant}
  {paidKeys : List InterestSuffix} {fuel : ℕ} {history : List (Instant × ℤ)}
  {rows : List SavingsRow}

/-- A window of the zone, of an instant at which payouts had started. -/
def PayoutWindow.Of (Z : Zone) (w : PayoutWindow) : Prop :=
  ∃ c t, Started Z t ∧ w = payoutWindowContaining Z c t

theorem PayoutWindow.Of.suffix_inj (h : PayoutZone Z) {v w : PayoutWindow} (hv : v.Of Z)
    (hw : w.Of Z) (hsuffix : v.suffix = w.suffix) : v = w := by
  obtain ⟨c, t, ht, rfl⟩ := hv
  obtain ⟨c', t', ht', rfl⟩ := hw
  have hread := paidWindow_suffix h c c 0 ht
  rw [hsuffix, paidWindow_suffix h c' c 0 ht', Option.some.injEq] at hread
  exact hread.symm

theorem PayoutWindow.Of.start_lt_end (h : PayoutZone Z) {w : PayoutWindow} (hw : w.Of Z) :
    w.startUtc < w.endUtc := by
  obtain ⟨c, t, ht, rfl⟩ := hw
  obtain ⟨hstart, hend⟩ := window_holds h c ht
  exact hstart.trans_lt hend

structure PaidFrom (Z : Zone) (now start stop : Instant) (x : PayoutWindow × ℤ) : Prop where
  ofZone : x.1.Of Z
  starts : start ≤ x.1.startUtc
  ends : stop ≤ x.1.endUtc
  closed : x.1.endUtc ≤ now
  positive : 0 < x.2

theorem PaidFrom.earlier (h : PayoutZone Z) {start stop stop' : Instant}
    {x : PayoutWindow × ℤ} (hlt : start < stop) (hx : PaidFrom Z now stop stop' x) :
    PaidFrom Z now start stop x where
  ofZone := hx.ofZone
  starts := hlt.le.trans hx.starts
  ends := hx.starts.trans (hx.ofZone.start_lt_end h).le
  closed := hx.closed
  positive := hx.positive

theorem payWindows_sound (h : PayoutZone Z) (ht : Started Z t) {paid : List (PayoutWindow × ℤ)}
    (hpaid : paid = payWindows Z terms rateAt now paidKeys after fuel
      (payoutWindowContaining Z terms.cadence t) history) :
    (∀ x ∈ paid, PaidFrom Z now (payoutWindowContaining Z terms.cadence t).startUtc
      (payoutWindowContaining Z terms.cadence t).endUtc x) ∧
    paid.Pairwise fun x y ↦ x.1.endUtc ≤ y.1.startUtc := by
  induction fuel generalizing t history paid with
  | zero =>
    subst hpaid
    exact ⟨by simp [payWindows], List.Pairwise.nil⟩
  | succ fuel ih =>
    obtain ⟨hstart, hend⟩ := window_holds h terms.cadence ht
    have hnext := window_next h terms.cadence ht
    -- what is paid of the windows after this one comes after it
    have hrest : ∀ {history : List (Instant × ℤ)} {paid : List (PayoutWindow × ℤ)},
        paid = payWindows Z terms rateAt now paidKeys after fuel (payoutWindowContaining Z
          terms.cadence (payoutWindowContaining Z terms.cadence t).endUtc) history →
        (∀ x ∈ paid, (payoutWindowContaining Z terms.cadence t).endUtc ≤ x.1.startUtc ∧
          PaidFrom Z now (payoutWindowContaining Z terms.cadence t).startUtc
            (payoutWindowContaining Z terms.cadence t).endUtc x) ∧
        paid.Pairwise fun x y ↦ x.1.endUtc ≤ y.1.startUtc := by
      intro history paid hpaid
      obtain ⟨hall, hpairs⟩ := ih (ht.endUtc h terms.cadence) hpaid
      rw [hnext] at hall
      refine ⟨fun x hx ↦ ⟨(hall x hx).starts, ?_⟩, hpairs⟩
      exact (hall x hx).earlier h (hstart.trans_lt hend)
    rw [payWindows] at hpaid
    dsimp only at hpaid
    split_ifs at hpaid with hopen hkey hcents
    · subst hpaid
      exact ⟨by simp, List.Pairwise.nil⟩
    · obtain ⟨hall, hpairs⟩ := hrest hpaid
      exact ⟨fun x hx ↦ (hall x hx).2, hpairs⟩
    · obtain ⟨hall, hpairs⟩ := hrest rfl
      subst hpaid
      refine ⟨?_, List.pairwise_cons.2 ⟨fun y hy ↦ (hall y hy).1, hpairs⟩⟩
      intro x hx
      rcases List.mem_cons.1 hx with rfl | hx
      · exact ⟨⟨_, _, ht, rfl⟩, le_rfl, le_rfl, not_lt.1 hopen, hcents⟩
      · exact (hall x hx).2
    · obtain ⟨hall, hpairs⟩ := hrest hpaid
      exact ⟨fun x hx ↦ (hall x hx).2, hpairs⟩

theorem foldl_later_le {ws : List PayoutWindow} {latest : Option Instant} {s : Instant} :
    (∀ t ∈ ws.foldl (fun t w ↦ later t w.endUtc) latest, t ≤ s) ↔
      (∀ t ∈ latest, t ≤ s) ∧ ∀ w ∈ ws, w.endUtc ≤ s := by
  induction ws generalizing latest with
  | nil => simp
  | cons w ws ih =>
    have hlater : (∀ t ∈ later latest w.endUtc, t ≤ s) ↔
        (∀ t ∈ latest, t ≤ s) ∧ w.endUtc ≤ s := by
      cases latest <;> simp [later]
    rw [List.foldl_cons, ih, hlater, List.forall_mem_cons, and_assoc]

theorem foldl_max_le {ts : List Instant} {t s : Instant} :
    ts.foldl max t ≤ s ↔ t ≤ s ∧ ∀ u ∈ ts, u ≤ s := by
  induction ts generalizing t with
  | nil => simp
  | cons u ts ih =>
    rw [List.foldl_cons, ih, max_le_iff, List.forall_mem_cons, and_assoc]

theorem head_le_iff {s : Instant} (hsorted : history.Pairwise fun a b ↦ a.1 ≤ b.1) :
    (∀ u ∈ history.head?.map (·.1), u ≤ s) ↔ (history ≠ [] → ∃ e ∈ history, e.1 ≤ s) := by
  cases history with
  | nil => simp
  | cons a history =>
    rw [List.pairwise_cons] at hsorted
    simp only [List.head?_cons, Option.map_some, Option.mem_some_iff, forall_eq', ne_eq,
      reduceCtorEq, not_false_eq_true, forall_true_left]
    constructor
    · exact fun hle ↦ ⟨a, List.mem_cons_self, hle⟩
    · intro ⟨e, he, hle⟩
      rcases List.mem_cons.1 he with rfl | he
      · exact hle
      · exact (hsorted.1 e he).trans hle

theorem history_perm (rows : List SavingsRow) (c : PayoutCadence) :
    (savingsLedger Z c rows).history.Perm (rows.filterMap (·.entry Z c)) :=
  List.perm_insertionSort _ _

theorem history_sorted (rows : List SavingsRow) (c : PayoutCadence) :
    (savingsLedger Z c rows).history.Pairwise fun a b ↦ a.1 ≤ b.1 := by
  have htotal := effects_total
  have htrans := effects_trans
  exact List.pairwise_insertionSort _ _

theorem history_eq_nil (rows : List SavingsRow) (c : PayoutCadence) :
    (savingsLedger Z c rows).history = [] ↔ rows.filterMap (·.entry Z c) = [] := by
  have hperm : (savingsLedger Z c rows).history.Perm _ := history_perm rows c
  constructor
  · intro hnil
    rwa [hnil, List.nil_perm] at hperm
  · intro hnil
    rwa [hnil, List.perm_nil] at hperm

theorem accrualFloor_le {c : PayoutCadence} {s : Instant} :
    accrualFloor Z claimedAt (savingsLedger Z c rows) ≤ s ↔
      startOfDate Z windowKeyedPayoutStart ≤ s ∧
      (∀ w ∈ rows.filterMap (·.window Z c), w.endUtc ≤ s) ∧ (∀ u ∈ claimedAt, u ≤ s) ∧
      (rows.filterMap (·.entry Z c) ≠ [] → ∃ e ∈ rows.filterMap (·.entry Z c), e.1 ≤ s) := by
  have hpaid : (∀ u ∈ (savingsLedger Z c rows).paidThrough, u ≤ s) ↔
      ∀ w ∈ rows.filterMap (·.window Z c), w.endUtc ≤ s := by
    change (∀ u ∈ (rows.filterMap _).foldl _ none, u ≤ s) ↔ _
    rw [foldl_later_le]
    simp
  have hhead : (∀ u ∈ (savingsLedger Z c rows).history.head?.map (·.1), u ≤ s) ↔
      (rows.filterMap (·.entry Z c) ≠ [] → ∃ e ∈ rows.filterMap (·.entry Z c), e.1 ≤ s) := by
    rw [head_le_iff (history_sorted rows c)]
    have hperm : (savingsLedger Z c rows).history.Perm _ := history_perm rows c
    simp only [ne_eq, history_eq_nil, hperm.mem_iff]
  rw [← hpaid, ← hhead, accrualFloor, foldl_max_le, foldl_max_le, foldl_max_le]
  simp only [Option.mem_toList, Option.mem_def, and_assoc]

theorem accrualFloor_started (c : PayoutCadence) :
    Started Z (accrualFloor Z claimedAt (savingsLedger Z c rows)) := (accrualFloor_le.1 le_rfl).1

theorem window_le_floor {c : PayoutCadence} {r : SavingsRow} {w : PayoutWindow} (hr : r ∈ rows)
    (hw : r.window Z c = some w) :
    w.endUtc ≤ accrualFloor Z claimedAt (savingsLedger Z c rows) :=
  (accrualFloor_le.1 le_rfl).2.1 w (List.mem_filterMap.2 ⟨r, hr, hw⟩)

end Loop

section Runs

variable {Z : Zone} {d : Instant}

/-- The inputs of a run for a seat: its rows, interest credits among them, may have been written
by anything. -/
structure PayoutRun where
  terms : SavingsTerms
  claimedAt : Option Instant
  rateAt : Instant → Option ℚ
  everPositive : Bool
  now : Instant
  rows : List SavingsRow

def PayoutRun.payouts (Z : Zone) (r : PayoutRun) : List Payout :=
  applySavingsInterest Z r.terms r.claimedAt r.rateAt r.everPositive r.now r.rows

def Payout.EarnsOn (Z : Zone) (p : Payout) (dayEnd : Instant) : Prop :=
  dayEnd ∈ (windowDayPlan Z none p.window).map (·.1) ∧ p.accrueAfter < dayEnd

/-- Two payouts of different windows that no day earns interest for both of. -/
def Apart (Z : Zone) (p q : Payout) : Prop :=
  p.window.suffix ≠ q.window.suffix ∧ ∀ d, p.EarnsOn Z d → ¬q.EarnsOn Z d

theorem Payout.EarnsOn.between (h : PayoutZone Z) {p : Payout} (hp : p.window.Of Z)
    (hd : p.EarnsOn Z d) : max p.accrueAfter p.window.startUtc < d ∧ d ≤ p.window.endUtc := by
  obtain ⟨hday, hafter⟩ := hd
  obtain ⟨c, t, ht, hw⟩ := hp
  obtain ⟨x, hx, rfl⟩ := List.mem_map.1 hday
  rw [hw] at hx ⊢
  obtain ⟨hlow, hhigh⟩ := windowDayPlan_between h ht hx
  exact ⟨max_lt hafter hlow, hhigh⟩

/-- Payouts whose days do not begin before those of the other end. -/
theorem apart_of_le (h : PayoutZone Z) {p q : Payout} (hp : p.window.Of Z) (hq : q.window.Of Z)
    (hafter : q.accrueAfter < q.window.endUtc)
    (hle : p.window.endUtc ≤ max q.accrueAfter q.window.startUtc) : Apart Z p q := by
  refine ⟨fun hsuffix ↦ ?_, fun d hpd hqd ↦ ?_⟩
  · rw [PayoutWindow.Of.suffix_inj h hp hq hsuffix] at hle
    exact absurd (max_lt hafter (hq.start_lt_end h)) (not_lt.2 hle)
  · have hpd' := (hpd.between h hp).2
    have hqd' := (hqd.between h hq).1
    exact absurd (hpd'.trans hle) (not_le.2 hqd')

structure PayoutRun.Sound (Z : Zone) (r : PayoutRun) (paid : List Payout) : Prop where
  windows : ∀ p ∈ paid, p.window.Of Z
  closed : ∀ p ∈ paid, p.window.endUtc ≤ p.paidAt ∧ p.paidAt = r.now ∧ 0 < p.cents
  floor : ∀ p ∈ paid, p.accrueAfter < p.window.endUtc
  fresh : ∀ p ∈ paid, ∀ row ∈ r.rows, ∀ w ∈ row.window Z r.terms.cadence,
    w.endUtc ≤ p.accrueAfter
  ordered : paid.Pairwise fun p q ↦ p.window.endUtc ≤ q.window.startUtc

theorem PayoutRun.sound (h : PayoutZone Z) (r : PayoutRun) : r.Sound Z (r.payouts Z) := by
  unfold PayoutRun.payouts applySavingsInterest
  dsimp only
  split_ifs with hnone
  · exact ⟨by simp, by simp, by simp, by simp, List.Pairwise.nil⟩
  · set ledger := savingsLedger Z r.terms.cadence r.rows
    set floor := accrualFloor Z r.claimedAt ledger
    have hstarted : Started Z floor := accrualFloor_started _
    have hloop := payWindows_sound h hstarted (rfl : payWindows Z r.terms r.rateAt r.now ledger.paidKeys
      floor (localDate Z r.now - localDate Z floor).toNat
      (payoutWindowContaining Z r.terms.cadence floor) ledger.history = _)
    obtain ⟨hall, hpairs⟩ := hloop
    obtain ⟨-, hend⟩ := window_holds h r.terms.cadence hstarted
    refine ⟨?_, ?_, ?_, ?_, ?_⟩
    · intro p hp
      obtain ⟨x, hx, rfl⟩ := List.mem_map.1 hp
      exact (hall x hx).ofZone
    · intro p hp
      obtain ⟨x, hx, rfl⟩ := List.mem_map.1 hp
      exact ⟨(hall x hx).closed, rfl, (hall x hx).positive⟩
    · intro p hp
      obtain ⟨x, hx, rfl⟩ := List.mem_map.1 hp
      exact hend.trans_le (hall x hx).ends
    · intro p hp row hrow w hw
      obtain ⟨x, hx, rfl⟩ := List.mem_map.1 hp
      exact window_le_floor hrow hw
    · rw [List.pairwise_map]
      exact hpairs

/-- The payouts of a seat over runs of the job, whose terms, rates and other rows may differ. The
interest rows of earlier runs are in the ledger that a later run reads. -/
inductive PaidBy (Z : Zone) : List Payout → Prop
  | start : PaidBy Z []
  | run {paid : List Payout} (hpaid : PaidBy Z paid) (r : PayoutRun)
      (hkept : ∀ p ∈ paid, ∃ row ∈ r.rows, row.interest = some p.window.suffix) :
      PaidBy Z (paid ++ r.payouts Z)

/-- A run pays nothing for the days that a payout in its ledger earned for. -/
theorem PayoutRun.apart (h : PayoutZone Z) {r : PayoutRun} {p q : Payout} (hp : p.window.Of Z)
    (hkept : ∃ row ∈ r.rows, row.interest = some p.window.suffix) (hq : q ∈ r.payouts Z) :
    Apart Z p q := by
  have hsound := r.sound h
  obtain ⟨row, hrow, hinterest⟩ := hkept
  have hread : row.window Z r.terms.cadence = some p.window := by
    obtain ⟨c, t, ht, hw⟩ := hp
    rw [SavingsRow.window, hinterest, hw]
    exact paidWindow_suffix h c r.terms.cadence row.timestamp ht
  have hle := hsound.fresh q hq row hrow p.window hread
  exact apart_of_le h hp (hsound.windows q hq) (hsound.floor q hq) (hle.trans (le_max_left _ _))

theorem PayoutRun.payouts_apart (h : PayoutZone Z) (r : PayoutRun) :
    (r.payouts Z).Pairwise (Apart Z) := by
  have hsound := r.sound h
  refine hsound.ordered.imp_of_mem fun hp hq hle ↦ ?_
  exact apart_of_le h (hsound.windows _ hp) (hsound.windows _ hq) (hsound.floor _ hq)
    (hle.trans (le_max_right _ _))

theorem PaidBy.windows (h : PayoutZone Z) {paid : List Payout} (hpaid : PaidBy Z paid) :
    ∀ p ∈ paid, p.window.Of Z ∧ 0 < p.cents ∧ p.window.endUtc ≤ p.paidAt := by
  induction hpaid with
  | start => simp
  | run hpaid r hkept ih =>
    intro p hp
    rcases List.mem_append.1 hp with hp | hp
    · exact ih p hp
    · have hsound := r.sound h
      obtain ⟨hclosed, -, hpositive⟩ := hsound.closed p hp
      exact ⟨hsound.windows p hp, hpositive, hclosed⟩

/-- Over all runs no window is paid twice and no day earns interest twice, whatever becomes of the
cadence, the compounding, the rates and the other rows between them. -/
theorem interest_days_paid_once (h : PayoutZone Z) {paid : List Payout}
    (hpaid : PaidBy Z paid) :
    paid.Pairwise (Apart Z) ∧
      ∀ p ∈ paid, p.window.Of Z ∧ 0 < p.cents ∧ p.window.endUtc ≤ p.paidAt := by
  refine ⟨?_, hpaid.windows h⟩
  induction hpaid with
  | start => exact List.Pairwise.nil
  | run hpaid r hkept ih =>
    rw [List.pairwise_append]
    refine ⟨ih, r.payouts_apart h, fun p hp q hq ↦ ?_⟩
    exact r.apart h (hpaid.windows h p hp).1 (hkept p hp) hq

theorem no_changes_ordered : ([] : List Change).Pairwise fun c c' ↦ c.instant < c'.instant :=
  List.Pairwise.nil

def fixedClock (offset : ℤ) : Zone := ⟨⟨offset, true⟩, [], no_changes_ordered⟩

theorem payoutZone_fixedClock (offset : ℤ) : PayoutZone (fixedClock offset) := by
  have hturns : ∀ u, u ∉ (fixedClock offset).turns := fun u ↦ List.not_mem_nil
  intro date _
  exact ⟨fun u hu ↦ absurd hu (hturns u), fun u hu ↦ absurd hu (hturns u),
    fun u hu ↦ absurd hu (hturns u)⟩

def deposit (cents : ℤ) (t : Instant) : SavingsRow := ⟨cents, some t, true, t, none⟩

/-- Two weeks of a thousand dollars in savings, and then a monthly cadence. -/
def weeklyRun : PayoutRun where
  terms := ⟨.weekly, .weekly, some .week⟩
  claimedAt := none
  rateAt := fun _ ↦ some (1 / 2)
  everPositive := true
  now := 1791806400000000
  rows := [deposit 100000 1790658000000000]

def monthlyRun : PayoutRun where
  terms := ⟨.monthly, .never, none⟩
  claimedAt := none
  rateAt := fun _ ↦ some (1 / 2)
  everPositive := true
  now := 1793534400000000
  rows := deposit 100000 1790658000000000 ::
    (weeklyRun.payouts (fixedClock (-18000000000))).map Payout.row

theorem cadence_change_paid_once :
    (weeklyRun.payouts (fixedClock (-18000000000)) ++
      monthlyRun.payouts (fixedClock (-18000000000))).map (fun p ↦ (p.window.cadence, p.cents)) =
        [(.weekly, 822), (.weekly, 967), (.monthly, 2789)] ∧
    (weeklyRun.payouts (fixedClock (-18000000000)) ++
      monthlyRun.payouts (fixedClock (-18000000000))).Pairwise
        (Apart (fixedClock (-18000000000))) := by
  have hweekly : PaidBy (fixedClock (-18000000000))
      (weeklyRun.payouts (fixedClock (-18000000000))) := .run .start weeklyRun (by simp)
  have hkept : ∀ p ∈ weeklyRun.payouts (fixedClock (-18000000000)),
      ∃ row ∈ monthlyRun.rows, row.interest = some p.window.suffix :=
    fun p hp ↦ ⟨p.row, List.mem_cons_of_mem _ (List.mem_map_of_mem hp), rfl⟩
  exact ⟨by decide +kernel, (interest_days_paid_once (payoutZone_fixedClock _)
    (hweekly.run monthlyRun hkept)).1⟩

end Runs

end TokenHub.Savings
