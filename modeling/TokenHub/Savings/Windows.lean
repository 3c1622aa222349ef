import TokenHub.Savings.Payout

set_option autoImplicit false

namespace TokenHub.Savings

open Lib.WallClock Time
open Economy (PayoutCadence Compounding SavingsAccrualDay Accrual)
open Rent (Instant toOrdinal)

section Windows

/-- A zone whose midnights pass once from the first day of a payout window on: the month of the
window-keyed start begins on 2026-09-01. -/
def PayoutZone (Z : Zone) : Prop := MidnightsPassFrom Z (toOrdinal ⟨2026, 9, 1⟩)

/-- The window-keyed start has come. -/
def Started (Z : Zone) (t : Instant) : Prop := startOfDate Z windowKeyedPayoutStart ≤ t

variable {Z : Zone} {c : PayoutCadence} {s t : Instant} {marker : Option Period}
  {d : Instant × Bool} {stop : Instant} {fuel : ℕ} {date : ℤ}

theorem windowKeyedPayoutStart_le_iff (h : PayoutZone Z) :
    windowKeyedPayoutStart ≤ localDate Z t ↔ Started Z t := h.le_localDate_iff (by decide)

theorem Started.firstDay_le (h : PayoutZone Z) (ht : Started Z t) (c : PayoutCadence) :
    toOrdinal ⟨2026, 9, 1⟩ ≤ (c.period.days (localDate Z t)).1 := by
  have hmono := c.period.blocks.mono ((windowKeyedPayoutStart_le_iff h).2 ht)
  have hfirst : toOrdinal ⟨2026, 9, 1⟩ ≤ (c.period.days windowKeyedPayoutStart).1 := by
    cases c <;> decide
  exact hfirst.trans hmono

theorem Started.trans (hs : Started Z s) (hle : s ≤ t) : Started Z t := le_trans hs hle

theorem localDate_mono (h : PayoutZone Z) (ht : Started Z t) (hle : s ≤ t) :
    localDate Z s ≤ localDate Z t := by
  have hnow := (windowKeyedPayoutStart_le_iff h).2 ht
  by_cases hs : Started Z s
  · have hfirst := (hs.firstDay_le h .weekly).trans (PayoutCadence.weekly.period.blocks.holds _).1
    have hstart := (h.le_localDate_iff hfirst).1 le_rfl
    exact (h.le_localDate_iff hfirst).2 (hstart.trans hle)
  · have hearly := mt (windowKeyedPayoutStart_le_iff h).1 hs
    omega

theorem window_holds (h : PayoutZone Z) (c : PayoutCadence) (ht : Started Z t) :
    (payoutWindowContaining Z c t).startUtc ≤ t ∧ t < (payoutWindowContaining Z c t).endUtc :=
  h.holds c.period.blocks (ht.firstDay_le h c)

theorem window_next (h : PayoutZone Z) (c : PayoutCadence) (ht : Started Z t) :
    (payoutWindowContaining Z c (payoutWindowContaining Z c t).endUtc).startUtc =
      (payoutWindowContaining Z c t).endUtc := h.next c.period.blocks (ht.firstDay_le h c)

theorem Started.endUtc (h : PayoutZone Z) (ht : Started Z t) (c : PayoutCadence) :
    Started Z (payoutWindowContaining Z c t).endUtc := ht.trans (window_holds h c ht).2.le

/-- Every instant of a window leads to it. -/
theorem window_eq (h : PayoutZone Z) (ht : Started Z t)
    (hs : (payoutWindowContaining Z c t).startUtc ≤ s)
    (hs' : s < (payoutWindowContaining Z c t).endUtc) :
    payoutWindowContaining Z c s = payoutWindowContaining Z c t := by
  have hfirst := ht.firstDay_le h c
  obtain ⟨hstart, hend⟩ := c.period.blocks.holds (localDate Z t)
  have hlow := (h.le_localDate_iff hfirst).2 hs
  have hhigh : localDate Z s < (c.period.days (localDate Z t)).2 :=
    not_le.1 fun hle ↦ not_le.2 hs'
      ((h.le_localDate_iff ((hfirst.trans hstart).trans hend.le)).1 hle)
  have hsame := c.period.blocks.same _ _ hlow hhigh
  rw [payoutWindowContaining, payoutWindowContaining, hsame]

/-- A row that a window was paid with is read as having paid just that window. -/
theorem paidWindow_suffix (h : PayoutZone Z) (c c' : PayoutCadence) (s : Instant)
    (ht : Started Z t) : paidWindow Z c' s (payoutWindowContaining Z c t).suffix =
      some (payoutWindowContaining Z c t) := by
  obtain ⟨hstart, hend⟩ := window_holds h c ht
  have hfirst := ht.firstDay_le h c
  have hself : payoutWindowContaining Z c (payoutWindowContaining Z c t).startUtc =
      payoutWindowContaining Z c t := window_eq h ht le_rfl (hstart.trans_lt hend)
  cases c with
  | weekly =>
    have hkey : startOfDate Z (payoutWindowContaining Z .weekly t).keyDate =
        (payoutWindowContaining Z .weekly t).startUtc := h.startOfDate_localDate hfirst
    change some (payoutWindowContaining Z .weekly (startOfDate Z
      (payoutWindowContaining Z .weekly t).keyDate)) = _
    rw [hkey, hself]
  | monthly =>
    obtain ⟨hfirstDay, hlastDay⟩ := Period.month.blocks.holds (localDate Z t)
    have hlow := (h.le_localDate_iff hfirst).2
      (le_refl (payoutWindowContaining Z .monthly t).startUtc)
    have hhigh : localDate Z (payoutWindowContaining Z .monthly t).startUtc <
        (Period.month.days (localDate Z t)).2 :=
      not_le.1 fun hle ↦ not_le.2 (hstart.trans_lt hend)
        ((h.le_localDate_iff ((hfirst.trans hfirstDay).trans hlastDay.le)).1 hle)
    have hsame := Period.month.blocks.same _ _ hlow hhigh
    have hblock := Period.month.blocks.same (localDate Z t) (Period.month.days (localDate Z t)).1
      le_rfl (hfirstDay.trans_lt hlastDay)
    have hkey : (payoutWindowContaining Z .monthly t).keyDate =
        (Period.month.days (localDate Z t)).1 := congrArg Prod.fst hsame
    have hstartKey : startOfDate Z (Period.month.days
        (payoutWindowContaining Z .monthly t).keyDate).1 =
          (payoutWindowContaining Z .monthly t).startUtc := by
      rw [hkey, hblock]
      rfl
    change some (payoutWindowContaining Z .monthly (startOfDate Z (Period.month.days
      (payoutWindowContaining Z .monthly t).keyDate).1)) = _
    rw [hstartKey, hself]

theorem dayEnd_gt (h : PayoutZone Z) (ht : toOrdinal ⟨2026, 9, 1⟩ ≤ localDate Z t) :
    t < (evaluationDayBoundaries Z none t).boundaryEndUtc := (h.holds_day ht).2

theorem dayEnd_le (h : PayoutZone Z) (ht : toOrdinal ⟨2026, 9, 1⟩ ≤ localDate Z t)
    (hdate : toOrdinal ⟨2026, 9, 1⟩ ≤ date) (hlt : t < startOfDate Z date) :
    (evaluationDayBoundaries Z none t).boundaryEndUtc ≤ startOfDate Z date := by
  have hbefore : localDate Z t < date :=
    not_le.1 fun hle ↦ not_le.2 hlt ((h.le_localDate_iff hdate).1 hle)
  have hlater : toOrdinal ⟨2026, 9, 1⟩ ≤ localDate Z t + 1 := by omega
  exact h.startOfDate_mono hlater (Int.add_one_le_iff.2 hbefore)

theorem localDate_dayEnd (h : PayoutZone Z) (ht : toOrdinal ⟨2026, 9, 1⟩ ≤ localDate Z t) :
    toOrdinal ⟨2026, 9, 1⟩ ≤ localDate Z (evaluationDayBoundaries Z none t).boundaryEndUtc := by
  have hlater : toOrdinal ⟨2026, 9, 1⟩ ≤ localDate Z t + 1 := by omega
  exact hlater.trans ((h.le_localDate_iff hlater).2 le_rfl)

theorem dayPlan_between (h : PayoutZone Z) (ht : toOrdinal ⟨2026, 9, 1⟩ ≤ localDate Z t)
    (hdate : toOrdinal ⟨2026, 9, 1⟩ ≤ date)
    (hd : d ∈ dayPlan Z marker (startOfDate Z date) fuel t) :
    t < d.1 ∧ d.1 ≤ startOfDate Z date := by
  induction fuel generalizing t with
  | zero => cases hd
  | succ fuel ih =>
    rw [dayPlan] at hd
    split_ifs at hd with hlt
    · rcases List.mem_cons.1 hd with rfl | hd
      · exact ⟨dayEnd_gt h ht, dayEnd_le h ht hdate hlt⟩
      · obtain ⟨hlow, hhigh⟩ := ih (localDate_dayEnd h ht) hd
        exact ⟨(dayEnd_gt h ht).trans hlow, hhigh⟩
    · cases hd

theorem dayPlan_ascending (h : PayoutZone Z) (ht : toOrdinal ⟨2026, 9, 1⟩ ≤ localDate Z t)
    (hdate : toOrdinal ⟨2026, 9, 1⟩ ≤ date) :
    (dayPlan Z marker (startOfDate Z date) fuel t).Pairwise fun a b ↦ a.1 < b.1 := by
  induction fuel generalizing t with
  | zero => exact List.Pairwise.nil
  | succ fuel ih =>
    rw [dayPlan]
    split_ifs
    · refine List.pairwise_cons.2 ⟨fun b hb ↦ ?_, ih (localDate_dayEnd h ht)⟩
      exact (dayPlan_between h (localDate_dayEnd h ht) hdate hb).1
    · exact List.Pairwise.nil

/-- The first day of a window, and the day that ends it. -/
theorem Started.window_days (h : PayoutZone Z) (ht : Started Z t) (c : PayoutCadence) :
    toOrdinal ⟨2026, 9, 1⟩ ≤ localDate Z (payoutWindowContaining Z c t).startUtc ∧
      toOrdinal ⟨2026, 9, 1⟩ ≤ (c.period.days (localDate Z t)).2 := by
  have hfirst := ht.firstDay_le h c
  obtain ⟨hstart, hend⟩ := c.period.blocks.holds (localDate Z t)
  exact ⟨hfirst.trans ((h.le_localDate_iff hfirst).2 le_rfl),
    (hfirst.trans hstart).trans hend.le⟩

theorem windowDayPlan_between (h : PayoutZone Z) (ht : Started Z t)
    (hd : d ∈ windowDayPlan Z marker (payoutWindowContaining Z c t)) :
    (payoutWindowContaining Z c t).startUtc < d.1 ∧
      d.1 ≤ (payoutWindowContaining Z c t).endUtc :=
  dayPlan_between h (ht.window_days h c).1 (ht.window_days h c).2 hd

theorem windowDayPlan_ascending (h : PayoutZone Z) (ht : Started Z t) :
    ((windowDayPlan Z marker (payoutWindowContaining Z c t)).map (·.1)).Pairwise (· < ·) :=
  List.pairwise_map.2 (dayPlan_ascending h (ht.window_days h c).1 (ht.window_days h c).2)

end Windows

section Balances

variable {history history' : List (Instant × ℤ)} {cents : ℤ} {d t : Instant} {ds : List Instant}
  {entry : Instant × ℤ}

def before (t : Instant) (history : List (Instant × ℤ)) : ℤ :=
  ((history.filter (·.1 < t)).map (·.2)).sum

theorem before_perm (h : history.Perm history') : before t history = before t history' :=
  ((h.filter _).map _).sum_eq

theorem before_append : before t (history ++ history') = before t history + before t history' := by
  simp [before]

theorem before_cons : before t (entry :: history) =
    (if entry.1 < t then entry.2 else 0) + before t history := by
  unfold before
  rw [List.filter_cons]
  split_ifs with h h' h' <;> simp_all

theorem before_insort : before t (insort entry history) =
    before t history + if entry.1 < t then entry.2 else 0 := by
  rw [insort, before_perm (List.perm_orderedInsert _ _ _), before_cons, add_comm]

theorem takeWhile_before (hsorted : history.Pairwise fun a b ↦ a.1 ≤ b.1) :
    history.takeWhile (·.1 < t) = history.filter (·.1 < t) := by
  induction history with
  | nil => rfl
  | cons a history ih =>
    rw [List.pairwise_cons] at hsorted
    rw [List.takeWhile_cons, List.filter_cons]
    split_ifs with hlt
    · rw [ih hsorted.2]
    · symm
      rw [List.filter_eq_nil_iff]
      intro b hb hlt'
      have hle := hsorted.1 b hb
      exact hlt (decide_eq_true (hle.trans_lt (of_decide_eq_true hlt')))

theorem endOfDayBalances_eq (hsorted : history.Pairwise fun a b ↦ a.1 ≤ b.1)
    (hdays : ds.Pairwise (· < ·)) :
    endOfDayBalances history cents ds = ds.map fun d ↦ cents + before d history := by
  induction ds generalizing history cents with
  | nil => rfl
  | cons d ds ih =>
    rw [List.pairwise_cons] at hdays
    have hsplit := List.takeWhile_append_dropWhile (p := (·.1 < d)) (l := history)
    have hrest : (history.dropWhile (·.1 < d)).Pairwise fun a b ↦ a.1 ≤ b.1 :=
      hsorted.sublist (List.dropWhile_sublist _)
    rw [endOfDayBalances, List.map_cons, ih hrest hdays.2, takeWhile_before hsorted, ← before]
    congr 1
    refine List.map_congr_left fun d' hd' ↦ ?_
    have hall : before d' (history.takeWhile (·.1 < d)) = before d history := by
      rw [takeWhile_before hsorted, before, before, List.filter_filter]
      congr 2
      refine List.filter_congr fun a _ ↦ ?_
      have hlt := hdays.1 d' hd'
      have : a.1 < d → a.1 < d' := fun h ↦ h.trans hlt
      simpa using this
    calc cents + before d history + before d' (history.dropWhile (·.1 < d))
        = cents + (before d' (history.takeWhile (·.1 < d)) +
            before d' (history.dropWhile (·.1 < d))) := by rw [hall, add_assoc]
      _ = cents + before d' history := by rw [← before_append, hsplit]

theorem effects_total : Std.Total fun a b : Instant × ℤ ↦ a.1 ≤ b.1 := ⟨fun _ _ ↦ le_total _ _⟩

theorem effects_trans : IsTrans (Instant × ℤ) fun a b ↦ a.1 ≤ b.1 := ⟨fun _ _ _ ↦ le_trans⟩

theorem insort_sorted (h : history.Pairwise fun a b ↦ a.1 ≤ b.1) :
    (insort entry history).Pairwise fun a b ↦ a.1 ≤ b.1 := by
  have htotal := effects_total
  have htrans := effects_trans
  exact List.Pairwise.orderedInsert entry history h

end Balances

section Interest

variable {Z : Zone} {terms : SavingsTerms} {rateAt rateAt' : Instant → Option ℚ} {t : Instant}
  {history history' : List (Instant × ℤ)} {after after' : Instant}

/-- The interest of a window is a matter of the balances, the rates and the days that it reads. -/
theorem windowInterest_congr (h : PayoutZone Z) (ht : Started Z t)
    (hsorted : history.Pairwise fun a b ↦ a.1 ≤ b.1)
    (hsorted' : history'.Pairwise fun a b ↦ a.1 ≤ b.1)
    (hsame : ∀ d, (payoutWindowContaining Z terms.cadence t).startUtc < d →
      d ≤ (payoutWindowContaining Z terms.cadence t).endUtc →
        before d history = before d history' ∧ rateAt d = rateAt' d ∧ (after < d ↔ after' < d)) :
    windowInterest Z terms rateAt (payoutWindowContaining Z terms.cadence t) history after =
      windowInterest Z terms rateAt' (payoutWindowContaining Z terms.cadence t) history'
        after' := by
  have hdays : ((windowDayPlan Z terms.marker
      (payoutWindowContaining Z terms.cadence t)).map (·.1)).Pairwise (· < ·) :=
    windowDayPlan_ascending h ht
  unfold windowInterest windowDays
  dsimp only
  rw [endOfDayBalances_eq hsorted hdays, endOfDayBalances_eq hsorted' hdays, List.map_map,
    List.map_map, ← List.map_prod_left_eq_zip, ← List.map_prod_left_eq_zip, List.map_map,
    List.map_map]
  congr 4
  refine List.map_congr_left fun d hd ↦ ?_
  obtain ⟨hlow, hhigh⟩ := windowDayPlan_between h ht hd
  obtain ⟨hbalance, hrate, hafter⟩ := hsame d.1 hlow hhigh
  simp only [Function.comp_apply, hbalance, hrate, hafter]

theorem decimalStep_of_nonpositive {c : Compounding} {s : Accrual ℚ} {day : SavingsAccrualDay ℚ}
    (h : ∀ r ∈ day.annualRate, r ≤ 0) : decimalStep c s day = s.marked day.capitalizes := by
  unfold decimalStep
  cases hrate : day.annualRate with
  | none => rfl
  | some r => exact if_pos (h r hrate)

theorem decimalAccrual_of_nonpositive {days : List (SavingsAccrualDay ℚ)} {c : Compounding}
    (h : ∀ d ∈ days, ∀ r ∈ d.annualRate, r ≤ 0) : decimalAccrual c days = 0 := by
  have hkept : ∀ s : Accrual ℚ, s.accrued = 0 →
      (days.foldl (decimalStep c) s).accrued = 0 := by
    induction days with
    | nil => exact fun s hs ↦ hs
    | cons d days ih =>
      intro s hs
      rw [List.forall_mem_cons] at h
      apply ih h.2
      rw [decimalStep_of_nonpositive h.1, Accrual.accrued_marked, hs]
  exact hkept .zero rfl

end Interest

end TokenHub.Savings
