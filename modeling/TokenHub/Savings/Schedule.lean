import TokenHub.Savings.Loop

set_option autoImplicit false

namespace TokenHub.Savings

open Lib.WallClock Time
open Economy (PayoutCadence)
open Rent (Instant)

section Course

/-- The row as a run finds it: what is posted after `now` is not posted yet. -/
def SavingsRow.seenAt (now : Instant) (r : SavingsRow) : SavingsRow :=
  { r with posted := r.posted && r.postedAt.any (· ≤ now) }

/-- What becomes of a seat's savings apart from the payouts, and of the rate of its class. -/
structure SavingsCourse where
  terms : SavingsTerms
  claimedAt : Option Instant
  rate : Instant → Option ℚ
  rows : List SavingsRow

def Payout.credit (p : Payout) : PayoutWindow × ℤ := (p.window, p.cents)

/-- A run on a course, after the payouts that its ledger has rows of. Rates that take effect later
need not be saved yet. -/
structure PayoutRun.On (K : SavingsCourse) (paid : List (PayoutWindow × ℤ)) (r : PayoutRun) :
    Prop where
  terms : r.terms = K.terms
  claimedAt : r.claimedAt = K.claimedAt
  rates : ∀ t ≤ r.now, r.rateAt t = K.rate t
  positive : r.everPositive = false → ∀ t, ∀ x ∈ r.rateAt t, x ≤ 0
  rows : ∃ credits : List SavingsRow,
    credits.map (fun row ↦ (row.interest, row.amountCents)) =
      paid.map (fun x ↦ (some x.1.suffix, x.2)) ∧
    r.rows.Perm (K.rows.map (·.seenAt r.now) ++ credits)

/-- What is paid over the runs of a course, each no earlier than those before it. -/
inductive Scheduled (Z : Zone) (K : SavingsCourse) :
    List PayoutRun → List (PayoutWindow × ℤ) → Prop
  | none : Scheduled Z K [] []
  | run {rs : List PayoutRun} {paid : List (PayoutWindow × ℤ)} (hs : Scheduled Z K rs paid)
      (r : PayoutRun) (hr : r.On K paid) (hlater : ∀ r' ∈ rs, r'.now ≤ r.now) :
      Scheduled Z K (rs ++ [r]) (paid ++ (r.payouts Z).map Payout.credit)

variable (Z : Zone) (K : SavingsCourse) (now : Instant)

def SavingsCourse.ledger : SavingsLedger := savingsLedger Z K.terms.cadence K.rows

def SavingsCourse.floor : Instant := accrualFloor Z K.claimedAt (K.ledger Z)

def SavingsCourse.pay (ws : List PayoutWindow) : List (PayoutWindow × ℤ) :=
  payEach Z K.terms K.rate (K.ledger Z).paidKeys (K.floor Z) ws (K.ledger Z).history

/-- What the windows that have closed by `now` are paid, whenever that is done. -/
def SavingsCourse.dueBy : List (PayoutWindow × ℤ) :=
  if (K.ledger Z).history = [] then []
  else K.pay Z (closedFrom Z K.terms.cadence now (K.floor Z))

/-- Payments of the windows up to one of them, the others of the windows closed by `now` being
still to be gone through. -/
structure SavingsCourse.PaidUpTo (paid : List (PayoutWindow × ℤ)) (us vs : List PayoutWindow) :
    Prop where
  windows : closedFrom Z K.terms.cadence now (K.floor Z) = us ++ vs
  eq_pay : paid = K.pay Z us
  last : us = [] ∨ ∃ w ∈ paid.map (·.1), ∃ us', us = us' ++ [w]
  none : (K.ledger Z).history = [] → paid = []

end Course

section Rows

variable {Z : Zone} {c : PayoutCadence} {now d : Instant} {row : SavingsRow}
  {rows credits : List SavingsRow} {paid : List (PayoutWindow × ℤ)} {e : Instant × ℤ}

theorem window_seenAt : (row.seenAt now).window Z c = row.window Z c := rfl

theorem entry_seenAt : (row.seenAt now).entry Z c =
    (row.entry Z c).filter fun e ↦ (row.window Z c).isSome || e.1 ≤ now := by
  unfold SavingsRow.entry
  rw [window_seenAt]
  cases hw : row.window Z c with
  | some w => rfl
  | none =>
    cases hp : row.posted with
    | false => simp [SavingsRow.seenAt, hp]
    | true =>
      cases ht : row.postedAt <;> simp [SavingsRow.seenAt, hp, ht, Option.filter_some]

theorem entry_of_window {w : PayoutWindow} (hw : row.window Z c = some w) :
    row.entry Z c = some (w.endUtc, row.amountCents) := by
  rw [SavingsRow.entry, hw]

def SavingsRow.paidKey (Z : Zone) (c : PayoutCadence) (row : SavingsRow) : Option InterestSuffix :=
  if (row.window Z c).isSome = true then row.interest else none

theorem mem_entries_seenAt :
    e ∈ (rows.map (·.seenAt now)).filterMap (·.entry Z c) ↔
      ∃ row ∈ rows, row.entry Z c = some e ∧ ((row.window Z c).isSome ∨ e.1 ≤ now) := by
  simp only [List.mem_filterMap, List.mem_map, exists_exists_and_eq_and, entry_seenAt,
    Option.filter_eq_some_iff, Bool.or_eq_true, decide_eq_true_eq]

theorem before_seenAt (hd : d ≤ now) (rows : List SavingsRow) :
    before d ((rows.map (·.seenAt now)).filterMap (·.entry Z c)) =
      before d (rows.filterMap (·.entry Z c)) := by
  induction rows with
  | nil => rfl
  | cons row rows ih =>
    rw [List.map_cons, List.filterMap_cons, List.filterMap_cons, entry_seenAt]
    cases hentry : row.entry Z c with
    | none => exact ih
    | some e =>
      by_cases hseen : ((row.window Z c).isSome || decide (e.1 ≤ now)) = true
      · rw [Option.filter_some, if_pos hseen]
        dsimp only
        rw [before_cons, before_cons, ih]
      · rw [Option.filter_some, if_neg hseen]
        dsimp only
        rw [Bool.or_eq_true, not_or, decide_eq_true_eq] at hseen
        rw [before_cons, if_neg fun hlt ↦ hseen.2 (hlt.le.trans hd), zero_add, ih]

theorem credits_read (h : PayoutZone Z) (hzone : ∀ x ∈ paid, x.1.Of Z)
    (hcredits : credits.map (fun row ↦ (row.interest, row.amountCents)) =
      paid.map (fun x ↦ (some x.1.suffix, x.2))) :
    credits.filterMap (·.entry Z c) = effectsOf paid ∧
      credits.filterMap (·.window Z c) = paid.map (·.1) ∧
      credits.filterMap (·.paidKey Z c) = paid.map (·.1.suffix) := by
  induction paid generalizing credits with
  | nil =>
    rw [List.map_nil, List.map_eq_nil_iff] at hcredits
    subst hcredits
    exact ⟨rfl, rfl, rfl⟩
  | cons x paid ih =>
    cases credits with
    | nil => cases hcredits
    | cons row credits =>
      rw [List.map_cons, List.map_cons, List.cons.injEq, Prod.mk.injEq] at hcredits
      obtain ⟨⟨hinterest, hcents⟩, hrest⟩ := hcredits
      rw [List.forall_mem_cons] at hzone
      obtain ⟨c', t, ht, hx⟩ := hzone.1
      have hwindow : row.window Z c = some x.1 := by
        rw [SavingsRow.window, hinterest, hx]
        exact paidWindow_suffix h c' c row.timestamp ht
      have hentry : row.entry Z c = some (x.1.endUtc, x.2) := by
        rw [entry_of_window hwindow, hcents]
      obtain ⟨hentries, hwindows, hkeys⟩ := ih hzone.2 hrest
      refine ⟨?_, ?_, ?_⟩
      · rw [List.filterMap_cons_some hentry, hentries]
        rfl
      · rw [List.filterMap_cons_some hwindow, hwindows, List.map_cons]
      · have hkey : row.paidKey Z c = some x.1.suffix := by
          rw [SavingsRow.paidKey, hwindow, hinterest]
          rfl
        rw [List.filterMap_cons_some hkey, hkeys, List.map_cons]

end Rows

section Step

variable {Z : Zone} {K : SavingsCourse} {r : PayoutRun} {paid : List (PayoutWindow × ℤ)}
  {us vs : List PayoutWindow} {w : PayoutWindow} {now s : Instant} {x : PayoutWindow × ℤ}

theorem SavingsCourse.floor_started (Z : Zone) (K : SavingsCourse) : Started Z (K.floor Z) :=
  accrualFloor_started _

theorem SavingsCourse.PaidUpTo.closed (h : PayoutZone Z) (hp : K.PaidUpTo Z now paid us vs)
    (hw : w ∈ us ++ vs) : (∃ t, Started Z t ∧ w = payoutWindowContaining Z K.terms.cadence t) ∧
      K.floor Z < w.endUtc ∧ w.endUtc ≤ now := by
  rw [← hp.windows] at hw
  obtain ⟨hzone, -, hafter, hend⟩ := closedWindows_mem h (K.floor_started Z) hw
  exact ⟨hzone, hafter, hend⟩

theorem SavingsCourse.PaidUpTo.of_mem (h : PayoutZone Z) (hp : K.PaidUpTo Z now paid us vs)
    (hx : x ∈ paid) : x.1 ∈ us ∧ x.1.Of Z ∧ K.floor Z < x.1.endUtc := by
  rw [hp.eq_pay] at hx
  have hmem : x.1 ∈ us := payEach_mem hx
  obtain ⟨⟨t, ht, hwindow⟩, hafter, -⟩ := hp.closed h (List.mem_append_left vs hmem)
  exact ⟨hmem, ⟨_, t, ht, hwindow⟩, hafter⟩

theorem PayoutRun.On.entries (h : PayoutZone Z) (hr : r.On K paid)
    (hzone : ∀ x ∈ paid, x.1.Of Z) :
    (r.rows.filterMap (·.entry Z K.terms.cadence)).Perm
      ((K.rows.map (·.seenAt r.now)).filterMap (·.entry Z K.terms.cadence) ++
        effectsOf paid) := by
  obtain ⟨credits, hcredits, hrows⟩ := hr.rows
  obtain ⟨hentries, -, -⟩ := credits_read (c := K.terms.cadence) h hzone hcredits
  have hperm := hrows.filterMap (·.entry Z K.terms.cadence)
  rwa [List.filterMap_append, hentries] at hperm

theorem PayoutRun.On.paidKeys (h : PayoutZone Z) (hr : r.On K paid)
    (hzone : ∀ x ∈ paid, x.1.Of Z) (k : InterestSuffix) :
    k ∈ (savingsLedger Z K.terms.cadence r.rows).paidKeys ↔
      k ∈ (K.ledger Z).paidKeys ∨ k ∈ paid.map (·.1.suffix) := by
  obtain ⟨credits, hcredits, hrows⟩ := hr.rows
  obtain ⟨-, -, hkeys⟩ := credits_read (c := K.terms.cadence) h hzone hcredits
  have hperm := (hrows.filterMap (·.paidKey Z K.terms.cadence)).mem_iff (a := k)
  rwa [List.filterMap_append, hkeys, List.mem_append, List.filterMap_map] at hperm

theorem PayoutRun.On.windows (h : PayoutZone Z) (hr : r.On K paid)
    (hzone : ∀ x ∈ paid, x.1.Of Z) (w : PayoutWindow) :
    w ∈ r.rows.filterMap (·.window Z K.terms.cadence) ↔
      w ∈ K.rows.filterMap (·.window Z K.terms.cadence) ∨ w ∈ paid.map (·.1) := by
  obtain ⟨credits, hcredits, hrows⟩ := hr.rows
  obtain ⟨-, hwindows, -⟩ := credits_read (c := K.terms.cadence) h hzone hcredits
  have hperm := (hrows.filterMap (·.window Z K.terms.cadence)).mem_iff (a := w)
  rwa [List.filterMap_append, hwindows, List.mem_append, List.filterMap_map] at hperm

/-- The payments move the floor of a run to the end of the last window that was paid. -/
theorem PayoutRun.On.floor_le (h : PayoutZone Z) (hr : r.On K paid)
    (hp : K.PaidUpTo Z r.now paid us vs)
    (hne : r.rows.filterMap (·.entry Z K.terms.cadence) ≠ []) :
    accrualFloor Z r.claimedAt (savingsLedger Z K.terms.cadence r.rows) ≤ s ↔
      K.floor Z ≤ s ∧ ∀ x ∈ paid, x.1.endUtc ≤ s := by
  have hzone : ∀ x ∈ paid, x.1.Of Z := fun x hx ↦ (hp.of_mem h hx).2.1
  have hentries := hr.entries h hzone
  -- an entry that the run sees is an entry of the course or a payment
  have hread : ∀ e, e ∈ r.rows.filterMap (·.entry Z K.terms.cadence) ↔
      (∃ row ∈ K.rows, row.entry Z K.terms.cadence = some e ∧
        ((row.window Z K.terms.cadence).isSome ∨ e.1 ≤ r.now)) ∨ e ∈ effectsOf paid := by
    intro e
    rw [hentries.mem_iff, List.mem_append, mem_entries_seenAt]
  rw [accrualFloor_le, hr.claimedAt]
  simp only [hr.windows h hzone, or_imp, forall_and]
  constructor
  · rintro ⟨hstart, ⟨hwindows, hpaid⟩, hclaimed, hfirst⟩
    have hends : ∀ x ∈ paid, x.1.endUtc ≤ s := fun x hx ↦ hpaid _ (List.mem_map_of_mem hx)
    refine ⟨?_, hends⟩
    obtain ⟨e, he, hle⟩ := hfirst hne
    rcases (hread e).1 he with ⟨row, hrow, hentry, -⟩ | hpayment
    · exact accrualFloor_le.2 ⟨hstart, hwindows, hclaimed,
        fun _ ↦ ⟨e, List.mem_filterMap.2 ⟨row, hrow, hentry⟩, hle⟩⟩
    · obtain ⟨x, hx, rfl⟩ := List.mem_map.1 hpayment
      exact (hp.of_mem h hx).2.2.le.trans (hends x hx)
  · rintro ⟨hfloor, hends⟩
    obtain ⟨hstart, hwindows, hclaimed, hfirst⟩ := accrualFloor_le.1 hfloor
    refine ⟨hstart, ⟨hwindows, ?_⟩, hclaimed, fun _ ↦ ?_⟩
    · intro w hw
      obtain ⟨x, hx, rfl⟩ := List.mem_map.1 hw
      exact hends x hx
    · obtain ⟨e, he⟩ := List.exists_mem_of_ne_nil _ hne
      rcases (hread e).1 he with ⟨row, hrow, hentry, hseen⟩ | hpayment
      · have hmem : e ∈ K.rows.filterMap (·.entry Z K.terms.cadence) :=
          List.mem_filterMap.2 ⟨row, hrow, hentry⟩
        rcases hseen with hwindow | hnow
        · obtain ⟨w, hw⟩ := Option.isSome_iff_exists.1 hwindow
          rw [entry_of_window hw, Option.some.injEq] at hentry
          refine ⟨e, he, ?_⟩
          rw [← hentry]
          exact hwindows w (List.mem_filterMap.2 ⟨row, hrow, hw⟩)
        · obtain ⟨e', he', hle⟩ := hfirst (List.ne_nil_of_mem hmem)
          obtain ⟨row', hrow', hentry'⟩ := List.mem_filterMap.1 he'
          -- the first effect of all has been posted, or comes after one that has
          rcases le_or_gt e'.1 r.now with hnow' | hnow'
          · exact ⟨e', (hread e').2 (.inl ⟨row', hrow', hentry', .inr hnow'⟩), hle⟩
          · exact ⟨e, he, hnow.trans (hnow'.le.trans hle)⟩
      · obtain ⟨x, hx, rfl⟩ := List.mem_map.1 hpayment
        exact ⟨_, he, hends x hx⟩

/-- So a run goes on with the windows behind the last one that was paid. -/
theorem PayoutRun.On.resumes (h : PayoutZone Z) (hr : r.On K paid)
    (hp : K.PaidUpTo Z r.now paid us vs)
    (hne : r.rows.filterMap (·.entry Z K.terms.cadence) ≠ []) :
    closedFrom Z K.terms.cadence r.now
        (accrualFloor Z r.claimedAt (savingsLedger Z K.terms.cadence r.rows)) = vs ∧
      ∀ v ∈ vs, ∀ d, v.startUtc < d → (K.floor Z < d ↔
        accrualFloor Z r.claimedAt (savingsLedger Z K.terms.cadence r.rows) < d) := by
  have hordered : (us ++ vs).Pairwise fun v w ↦ v.endUtc ≤ w.startUtc := by
    rw [← hp.windows]
    exact closedFrom_ordered h (K.floor_started Z)
  have hfloor : ∀ s, accrualFloor Z r.claimedAt (savingsLedger Z K.terms.cadence r.rows) ≤ s ↔
      K.floor Z ≤ s ∧ ∀ x ∈ paid, x.1.endUtc ≤ s := fun s ↦ hr.floor_le h hp hne
  generalize accrualFloor Z r.claimedAt (savingsLedger Z K.terms.cadence r.rows) = floor at hfloor ⊢
  rcases hp.last with rfl | ⟨w, hw, us', rfl⟩
  · have hnil : paid = [] := hp.eq_pay
    have hsame : floor = K.floor Z := by
      apply le_antisymm
      · exact (hfloor _).2 ⟨le_rfl, by simp [hnil]⟩
      · exact ((hfloor _).1 le_rfl).1
    rw [hsame]
    exact ⟨hp.windows, fun _ _ _ _ ↦ Iff.rfl⟩
  · obtain ⟨x, hx, rfl⟩ := List.mem_map.1 hw
    have hafter := (hp.of_mem h hx).2.2
    have hlast : floor = x.1.endUtc := by
      apply le_antisymm
      · refine (hfloor _).2 ⟨hafter.le, fun y hy ↦ ?_⟩
        rcases List.mem_append.1 (hp.of_mem h hy).1 with hbefore | hself
        · rw [List.append_assoc, List.pairwise_append] at hordered
          have hle := hordered.2.2 _ hbefore x.1 (by simp)
          exact hle.trans ((hp.of_mem h hx).2.1.start_lt_end h).le
        · rw [List.mem_singleton.1 hself]
      · exact ((hfloor _).1 le_rfl).2 x hx
    rw [hlast]
    constructor
    · have hsplit := hp.windows
      rw [List.append_assoc] at hsplit
      exact (closedFrom_split h (K.floor_started Z) hsplit).symm
    · intro v hv d hd
      rw [List.pairwise_append] at hordered
      have hlt := (hordered.2.2 x.1 (by simp) v hv).trans_lt hd
      exact ⟨fun _ ↦ hlt, fun _ ↦ hafter.trans hlt⟩

theorem PayoutRun.credits_eq (r : PayoutRun) : (r.payouts Z).map Payout.credit =
    if r.everPositive = false ∨ (savingsLedger Z r.terms.cadence r.rows).history = [] then []
    else
      let ledger := savingsLedger Z r.terms.cadence r.rows
      let floor := accrualFloor Z r.claimedAt ledger
      payEach Z r.terms r.rateAt ledger.paidKeys floor
        (closedFrom Z r.terms.cadence r.now floor) ledger.history := by
  unfold PayoutRun.payouts applySavingsInterest
  dsimp only
  split_ifs
  · rfl
  · rw [payWindows_eq, List.map_map]
    exact List.map_id _

theorem before_ledger (t : Instant) (c : PayoutCadence) (rows : List SavingsRow) :
    before t (savingsLedger Z c rows).history = before t (rows.filterMap (·.entry Z c)) :=
  before_perm (history_perm rows c)

theorem PayoutRun.On.unread (h : PayoutZone Z) (hr : r.On K paid)
    (hp : K.PaidUpTo Z r.now paid us vs)
    (hnil : r.rows.filterMap (·.entry Z K.terms.cadence) = []) :
    K.dueBy Z r.now = [] ∧ paid = [] := by
  have hzone : ∀ x ∈ paid, x.1.Of Z := fun x hx ↦ (hp.of_mem h hx).2.1
  have hentries := hr.entries h hzone
  rw [hnil, List.nil_perm, List.append_eq_nil_iff] at hentries
  refine ⟨?_, List.map_eq_nil_iff.1 hentries.2⟩
  unfold SavingsCourse.dueBy
  split_ifs with hempty
  · rfl
  · -- what is posted at all is posted later, and the floor is no earlier
    have hfloor : r.now < K.floor Z := by
      by_contra hle
      obtain ⟨hstart, hwindows, hclaimed, hfirst⟩ := accrualFloor_le.1 (not_lt.1 hle)
      rw [SavingsCourse.ledger, history_eq_nil] at hempty
      obtain ⟨e, he, hnow⟩ := hfirst hempty
      obtain ⟨row, hrow, hentry⟩ := List.mem_filterMap.1 he
      have hseen := mem_entries_seenAt.2 ⟨row, hrow, hentry, .inr hnow⟩
      rw [hentries.1] at hseen
      cases hseen
    have hstarted := K.floor_started Z
    rw [closedFrom_eq h hstarted, if_pos (hfloor.trans (window_holds h _ hstarted).2)]
    rfl

/-- The windows that a run goes through are paid what they are due. -/
theorem PayoutRun.On.pays (h : PayoutZone Z) (hr : r.On K paid)
    (hp : K.PaidUpTo Z r.now paid us vs) :
    paid ++ (r.payouts Z).map Payout.credit = K.dueBy Z r.now := by
  have hzone : ∀ x ∈ paid, x.1.Of Z := fun x hx ↦ (hp.of_mem h hx).2.1
  have hordered : (us ++ vs).Pairwise fun v w ↦ v.endUtc ≤ w.startUtc := by
    rw [← hp.windows]
    exact closedFrom_ordered h (K.floor_started Z)
  have hcadence : ∀ w ∈ us ++ vs,
      ∃ t, Started Z t ∧ w = payoutWindowContaining Z K.terms.cadence t :=
    fun w hw ↦ (hp.closed h hw).1
  rw [r.credits_eq, hr.terms]
  split_ifs with hnone
  · rw [List.append_nil]
    rcases hnone with hrates | hnil
    · have hpay : ∀ ws, (∀ w ∈ ws, w ∈ us ++ vs) → K.pay Z ws = [] := by
        intro ws hws
        apply payEach_of_nonpositive h fun w hw ↦ hcadence w (hws w hw)
        intro w hw d hd x hx
        have hnow := hd.trans (hp.closed h (hws w hw)).2.2
        rw [← hr.rates d hnow] at hx
        exact hr.positive hrates d x hx
      rw [hp.eq_pay, SavingsCourse.dueBy, hp.windows, hpay us fun w hw ↦ List.mem_append_left vs hw,
        hpay _ fun w hw ↦ hw, ite_self]
    · rw [history_eq_nil] at hnil
      obtain ⟨hdue, hpaid⟩ := hr.unread h hp hnil
      rw [hdue, hpaid]
  · rw [not_or, history_eq_nil] at hnone
    dsimp only
    obtain ⟨hwindows, hafter⟩ := hr.resumes h hp hnone.2
    rw [hwindows]
    have hne : (K.ledger Z).history ≠ [] := by
      intro hempty
      have hentries := hr.entries h hzone
      rw [hp.none hempty, effectsOf, List.map_nil, List.append_nil] at hentries
      obtain ⟨e, he⟩ := List.exists_mem_of_ne_nil _ hnone.2
      obtain ⟨row, hrow, hentry, -⟩ := mem_entries_seenAt.1 (hentries.mem_iff.1 he)
      rw [SavingsCourse.ledger, history_eq_nil, List.filterMap_eq_nil_iff] at hempty
      rw [hempty row hrow] at hentry
      cases hentry
    have hrest : payEach Z K.terms r.rateAt (savingsLedger Z K.terms.cadence r.rows).paidKeys
          (accrualFloor Z r.claimedAt (savingsLedger Z K.terms.cadence r.rows)) vs
          (savingsLedger Z K.terms.cadence r.rows).history =
        payEach Z K.terms K.rate (K.ledger Z).paidKeys (K.floor Z) vs
          (joined (K.ledger Z).history paid) := by
      apply payEach_congr h (fun w hw ↦ hcadence w (List.mem_append_right us hw))
        (history_sorted _ _) (joined_sorted (history_sorted _ _))
      · intro w hw
        rw [hr.paidKeys h hzone, or_iff_left]
        intro hpaid
        obtain ⟨x, hx, hsuffix⟩ := List.mem_map.1 hpaid
        obtain ⟨hmem, hof, -⟩ := hp.of_mem h hx
        obtain ⟨t, ht, hwindow⟩ := hcadence w (List.mem_append_right us hw)
        have hsame := hof.suffix_inj h ⟨_, t, ht, hwindow⟩ hsuffix
        have hle := (List.pairwise_append.1 hordered).2.2 x.1 hmem w hw
        rw [hsame] at hle hof
        exact absurd (hof.start_lt_end h) (not_lt.2 hle)
      · intro w hw d hlow hhigh
        have hnow := hhigh.trans (hp.closed h (List.mem_append_right us hw)).2.2
        refine ⟨?_, hr.rates d hnow, (hafter w hw d hlow).symm⟩
        rw [before_ledger, before_joined, before_ledger, before_perm (hr.entries h hzone),
          before_append, before_seenAt hnow]
    rw [hrest, SavingsCourse.dueBy, if_neg hne, hp.windows, SavingsCourse.pay, payEach_append,
      ← SavingsCourse.pay, ← hp.eq_pay]

theorem SavingsCourse.paidUpTo_nil (Z : Zone) (K : SavingsCourse) (now : Instant) :
    K.PaidUpTo Z now [] [] (closedFrom Z K.terms.cadence now (K.floor Z)) :=
  ⟨rfl, rfl, .inl rfl, fun _ ↦ rfl⟩

theorem SavingsCourse.paidUpTo_dueBy (h : PayoutZone Z) (K : SavingsCourse) {later : Instant}
    (hle : now ≤ later) : ∃ us vs, K.PaidUpTo Z later (K.dueBy Z now) us vs := by
  unfold SavingsCourse.dueBy
  split_ifs with hnil
  · exact ⟨_, _, K.paidUpTo_nil Z later⟩
  · have hstop : ∃ us vs, closedFrom Z K.terms.cadence now (K.floor Z) = us ++ vs ∧
        K.pay Z (closedFrom Z K.terms.cadence now (K.floor Z)) = K.pay Z us ∧
        (us = [] ∨ ∃ w ∈ (K.pay Z us).map (·.1), ∃ us', us = us' ++ [w]) := payEach_stop _ _
    obtain ⟨us, vs, hsplit, hsame, hlast⟩ := hstop
    obtain ⟨rest, hrest⟩ := closedFrom_prefix (c := K.terms.cadence) h (K.floor_started Z) hle
    refine ⟨us, vs ++ rest, ?_, hsame, ?_, fun hempty ↦ absurd hempty hnil⟩
    · rw [← hrest, hsplit, List.append_assoc]
    · rw [hsame]
      exact hlast

end Step

section Schedules

variable {Z : Zone} {K : SavingsCourse} {r r' : PayoutRun} {rs rs' : List PayoutRun}
  {paid paid' : List (PayoutWindow × ℤ)}

theorem Scheduled.eq_nil (hs : Scheduled Z K rs paid) (hnil : rs = []) : paid = [] := by
  cases hs with
  | none => rfl
  | run => simp at hnil

theorem Scheduled.dueBy (h : PayoutZone Z) (hs : Scheduled Z K rs paid) :
    ∀ r ∈ rs.getLast?, paid = K.dueBy Z r.now := by
  induction hs with
  | none => simp
  | @run rs paid hs r hr hlater ih =>
    intro last hlast
    rw [List.getLast?_concat, Option.mem_some_iff] at hlast
    subst hlast
    cases hbefore : rs.getLast? with
    | none =>
      obtain rfl := List.getLast?_eq_none_iff.1 hbefore
      obtain rfl := hs.eq_nil rfl
      exact hr.pays h (K.paidUpTo_nil Z r.now)
    | some r' =>
      have hpaid := ih r' hbefore
      obtain ⟨us, vs, hp⟩ := K.paidUpTo_dueBy h (hlater r' (List.mem_of_getLast? hbefore))
      rw [← hpaid] at hp
      exact hr.pays h hp

/-- However often and whenever the job runs, what it has paid by its last run are the credits that
a single run then would have made: catching up loses nothing and compounds nothing twice. -/
theorem payouts_independent_of_schedule (h : PayoutZone Z)
    (hs : Scheduled Z K (rs ++ [r]) paid) (hs' : Scheduled Z K (rs' ++ [r']) paid')
    (hnow : r.now = r'.now) : paid = paid' := by
  rw [hs.dueBy h r (by simp), hs'.dueBy h r' (by simp), hnow]

/-- What is paid over a schedule are just the closed windows from the floor on, in their order, of
which no credit was there before: each with the interest on its days, on balances that hold the
credits of earlier windows from these windows' ends on, where this is positive. -/
theorem paid_iff_due (h : PayoutZone Z) (hs : Scheduled Z K (rs ++ [r]) paid)
    (hread : (K.ledger Z).history ≠ []) :
    (paid.Pairwise fun x y ↦ x.1.endUtc ≤ y.1.startUtc) ∧
    ∀ w cents, (w, cents) ∈ paid ↔
      (∃ t, K.floor Z ≤ t ∧ w = payoutWindowContaining Z K.terms.cadence t ∧
        w.endUtc ≤ r.now) ∧
      w.suffix ∉ (K.ledger Z).paidKeys ∧ 0 < cents ∧
      cents = windowInterest Z K.terms K.rate w (joined (K.ledger Z).history
        (paid.filter (·.1.endUtc ≤ w.startUtc))) (K.floor Z) := by
  have hpaid := hs.dueBy h r (by simp)
  rw [SavingsCourse.dueBy, if_neg hread] at hpaid
  subst hpaid
  have hordered : (closedFrom Z K.terms.cadence r.now (K.floor Z)).Pairwise
      fun v w ↦ v.endUtc ≤ w.startUtc := closedFrom_ordered h (K.floor_started Z)
  have hlong : ∀ w ∈ closedFrom Z K.terms.cadence r.now (K.floor Z),
      w.startUtc < w.endUtc := by
    intro w hw
    obtain ⟨s, hs, rfl, -⟩ := (mem_closedFrom h (K.floor_started Z)).1 hw
    obtain ⟨hstart, hend⟩ := window_holds h K.terms.cadence ((K.floor_started Z).trans hs)
    exact hstart.trans_lt hend
  refine ⟨List.pairwise_map.1 (hordered.sublist (payEach_sublist _ _)), fun w cents ↦ ?_⟩
  rw [← mem_closedFrom h (K.floor_started Z)]
  exact mem_payEach hlong hordered

def SavingsCourse.runAt (K : SavingsCourse) (paid : List Payout) (now : Instant) : PayoutRun where
  terms := K.terms
  claimedAt := K.claimedAt
  rateAt := K.rate
  everPositive := true
  now := now
  rows := K.rows.map (·.seenAt now) ++ paid.map Payout.row

theorem SavingsCourse.runAt_on (K : SavingsCourse) (paid : List Payout) (now : Instant) :
    (K.runAt paid now).On K (paid.map Payout.credit) where
  terms := rfl
  claimedAt := rfl
  rates := fun _ _ ↦ rfl
  positive := by
    intro hnone
    cases hnone
  rows := by
    refine ⟨paid.map Payout.row, ?_, List.Perm.refl _⟩
    rw [List.map_map, List.map_map]
    rfl

/-- A second deposit comes between the runs of a week's schedule. -/
def twoDeposits : SavingsCourse where
  terms := ⟨.weekly, .weekly, some .week⟩
  claimedAt := none
  rate := fun _ ↦ some (1 / 2)
  rows := [deposit 100000 1790658000000000, deposit 50000 1791954000000000]

def firstRun : PayoutRun := twoDeposits.runAt [] 1791201600000000

def secondRun : PayoutRun :=
  twoDeposits.runAt (firstRun.payouts (fixedClock (-18000000000))) 1792411200000000

def onlyRun : PayoutRun := twoDeposits.runAt [] 1792411200000000

theorem catching_up_pays_the_same :
    ((onlyRun.payouts (fixedClock (-18000000000))).map Payout.credit).map (·.2) =
        [822, 967, 1319] ∧
      (firstRun.payouts (fixedClock (-18000000000))).map Payout.credit ++
          (secondRun.payouts (fixedClock (-18000000000))).map Payout.credit =
        (onlyRun.payouts (fixedClock (-18000000000))).map Payout.credit := by
  have hfirst : Scheduled (fixedClock (-18000000000)) twoDeposits [firstRun]
      ((firstRun.payouts (fixedClock (-18000000000))).map Payout.credit) :=
    .run .none firstRun (twoDeposits.runAt_on [] _) (by simp)
  have honly : Scheduled (fixedClock (-18000000000)) twoDeposits ([] ++ [onlyRun])
      ((onlyRun.payouts (fixedClock (-18000000000))).map Payout.credit) :=
    .run .none onlyRun (twoDeposits.runAt_on [] _) (by simp)
  refine ⟨by decide +kernel, ?_⟩
  exact payouts_independent_of_schedule (payoutZone_fixedClock _)
    (hfirst.run secondRun (twoDeposits.runAt_on _ _) (by simp [firstRun, secondRun,
      SavingsCourse.runAt])) honly rfl

theorem second_week_due :
    let paid := (firstRun.payouts (fixedClock (-18000000000))).map Payout.credit ++
      (secondRun.payouts (fixedClock (-18000000000))).map Payout.credit
    let week := payoutWindowContaining (fixedClock (-18000000000)) .weekly 1791176400000000
    windowInterest (fixedClock (-18000000000)) twoDeposits.terms twoDeposits.rate week
      (joined (twoDeposits.ledger (fixedClock (-18000000000))).history
        (paid.filter (·.1.endUtc ≤ week.startUtc)))
      (twoDeposits.floor (fixedClock (-18000000000))) = 967 := by
  have hfirst : Scheduled (fixedClock (-18000000000)) twoDeposits [firstRun]
      ((firstRun.payouts (fixedClock (-18000000000))).map Payout.credit) :=
    .run .none firstRun (twoDeposits.runAt_on [] _) (by simp)
  have hsecond := hfirst.run secondRun (twoDeposits.runAt_on _ _) (by simp [firstRun, secondRun,
    SavingsCourse.runAt])
  have hdue := (paid_iff_due (payoutZone_fixedClock _) hsecond (by decide +kernel)).2
  exact ((hdue _ 967).1 (by decide +kernel)).2.2.2.symm

end Schedules

end TokenHub.Savings
