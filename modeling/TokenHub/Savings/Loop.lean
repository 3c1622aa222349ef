import TokenHub.Savings.Runs

set_option autoImplicit false

namespace TokenHub.Savings

open Lib.WallClock Time
open Economy (PayoutCadence creditSavingsInterest)
open Rent (Instant)

section Closed

variable (Z : Zone) (c : PayoutCadence)

def closedWindows (now : Instant) : ℕ → PayoutWindow → List PayoutWindow
  | 0, _ => []
  | fuel + 1, w =>
    if now < w.endUtc then []
    else w :: closedWindows now fuel (payoutWindowContaining Z c w.endUtc)

/-- The windows that have closed by `now`, from the one of an instant on. -/
def closedFrom (now t : Instant) : List PayoutWindow :=
  closedWindows Z c now (localDate Z now - localDate Z t).toNat (payoutWindowContaining Z c t)

variable {Z c} {now now' t : Instant} {fuel fuel' : ℕ} {w : PayoutWindow}
  {us vs : List PayoutWindow}

theorem localDate_lt_end (h : PayoutZone Z) (c : PayoutCadence) (ht : Started Z t) :
    localDate Z t < localDate Z (payoutWindowContaining Z c t).endUtc := by
  obtain ⟨-, hend⟩ := c.period.blocks.holds (localDate Z t)
  exact hend.trans_le ((h.le_localDate_iff (ht.window_days h c).2).2 le_rfl)

theorem closedWindows_fuel (h : PayoutZone Z) (ht : Started Z t)
    (hfuel : localDate Z now ≤ localDate Z t + fuel)
    (hfuel' : localDate Z now ≤ localDate Z t + fuel') :
    closedWindows Z c now fuel (payoutWindowContaining Z c t) =
      closedWindows Z c now fuel' (payoutWindowContaining Z c t) := by
  have hopen : ∀ {t}, Started Z t → localDate Z now ≤ localDate Z t →
      now < (payoutWindowContaining Z c t).endUtc := by
    intro t ht hle
    by_contra hclosed
    have hmono := localDate_mono h ((ht.endUtc h c).trans (not_lt.1 hclosed)) (not_lt.1 hclosed)
    exact absurd (localDate_lt_end h c ht) (not_lt.2 (hmono.trans hle))
  induction fuel generalizing t fuel' with
  | zero =>
    cases fuel' with
    | zero => rfl
    | succ fuel' => rw [closedWindows, closedWindows, if_pos (hopen ht (by simpa using hfuel))]
  | succ fuel ih =>
    cases fuel' with
    | zero => rw [closedWindows, closedWindows, if_pos (hopen ht (by simpa using hfuel'))]
    | succ fuel' =>
      rw [closedWindows, closedWindows]
      have hless := localDate_lt_end h c ht
      push_cast at hfuel hfuel'
      have hrest : closedWindows Z c now fuel
          (payoutWindowContaining Z c (payoutWindowContaining Z c t).endUtc) =
            closedWindows Z c now fuel'
              (payoutWindowContaining Z c (payoutWindowContaining Z c t).endUtc) :=
        ih (ht.endUtc h c) (by omega) (by omega)
      rw [hrest]

theorem closedFrom_eq (h : PayoutZone Z) (ht : Started Z t) : closedFrom Z c now t =
    if now < (payoutWindowContaining Z c t).endUtc then []
    else payoutWindowContaining Z c t ::
      closedFrom Z c now (payoutWindowContaining Z c t).endUtc := by
  have hless := localDate_lt_end h c ht
  have hmore : closedFrom Z c now t = closedWindows Z c now
      ((localDate Z now - localDate Z t).toNat + 1) (payoutWindowContaining Z c t) :=
    closedWindows_fuel h ht (by omega) (by push_cast; omega)
  have hrest : closedWindows Z c now (localDate Z now - localDate Z t).toNat
      (payoutWindowContaining Z c (payoutWindowContaining Z c t).endUtc) =
        closedFrom Z c now (payoutWindowContaining Z c t).endUtc :=
    closedWindows_fuel h (ht.endUtc h c) (by omega) (by omega)
  rw [hmore, closedWindows, hrest]

/-- Behind a window come those from its end on. -/
theorem closedFrom_split (h : PayoutZone Z) (ht : Started Z t)
    (hsplit : closedFrom Z c now t = us ++ w :: vs) : vs = closedFrom Z c now w.endUtc := by
  induction us generalizing t with
  | nil =>
    rw [closedFrom_eq h ht] at hsplit
    split_ifs at hsplit
    · cases hsplit
    · rw [List.nil_append, List.cons.injEq] at hsplit
      rw [← hsplit.2, hsplit.1]
  | cons u us ih =>
    rw [closedFrom_eq h ht] at hsplit
    split_ifs at hsplit
    · cases hsplit
    · rw [List.cons_append, List.cons.injEq] at hsplit
      exact ih (ht.endUtc h c) hsplit.2

theorem closedWindows_takeWhile (hle : now ≤ now') : closedWindows Z c now fuel w =
    (closedWindows Z c now' fuel w).takeWhile (·.endUtc ≤ now) := by
  induction fuel generalizing w with
  | zero => rfl
  | succ fuel ih =>
    rw [closedWindows, closedWindows]
    split_ifs with hopen hopen' hopen'
    · rfl
    · rw [List.takeWhile_cons_of_neg (by simpa using hopen)]
    · exact absurd (hle.trans_lt hopen') hopen
    · rw [List.takeWhile_cons_of_pos (by simpa using hopen), ih]

theorem closedFrom_prefix (h : PayoutZone Z) (ht : Started Z t) (hle : now ≤ now') :
    closedFrom Z c now t <+: closedFrom Z c now' t := by
  have hmono : localDate Z now ≤ max (localDate Z now') (localDate Z t) := by
    rcases le_total now t with hearly | hlate
    · exact (localDate_mono h ht hearly).trans (le_max_right _ _)
    · exact (localDate_mono h ((ht.trans hlate).trans hle) hle).trans (le_max_left _ _)
  have hmore : closedFrom Z c now t = closedWindows Z c now
      (localDate Z now' - localDate Z t).toNat (payoutWindowContaining Z c t) :=
    closedWindows_fuel h ht (by omega) (by omega)
  rw [hmore, closedWindows_takeWhile hle]
  exact List.takeWhile_prefix _

/-- The windows of the loop are of its cadence and closed, and none ends before the start. -/
theorem closedWindows_mem (h : PayoutZone Z) (ht : Started Z t)
    (hw : w ∈ closedWindows Z c now fuel (payoutWindowContaining Z c t)) :
    (∃ s, Started Z s ∧ w = payoutWindowContaining Z c s) ∧
      (payoutWindowContaining Z c t).startUtc ≤ w.startUtc ∧ t < w.endUtc ∧ w.endUtc ≤ now := by
  induction fuel generalizing t with
  | zero => cases hw
  | succ fuel ih =>
    obtain ⟨hlow, hhigh⟩ := window_holds h c ht
    rw [closedWindows] at hw
    split_ifs at hw with hopen
    · cases hw
    · rcases List.mem_cons.1 hw with rfl | hw
      · exact ⟨⟨t, ht, rfl⟩, le_rfl, hhigh, not_lt.1 hopen⟩
      · obtain ⟨hzone, hstart, hafter, hend⟩ := ih (ht.endUtc h c) hw
        rw [window_next h c ht] at hstart
        exact ⟨hzone, (hlow.trans hhigh.le).trans hstart, hhigh.trans hafter, hend⟩

theorem closedFrom_ordered (h : PayoutZone Z) (ht : Started Z t) :
    (closedFrom Z c now t).Pairwise fun v w ↦ v.endUtc ≤ w.startUtc := by
  unfold closedFrom
  generalize (localDate Z now - localDate Z t).toNat = fuel
  induction fuel generalizing t with
  | zero => exact List.Pairwise.nil
  | succ fuel ih =>
    rw [closedWindows]
    split_ifs
    · exact List.Pairwise.nil
    · refine List.pairwise_cons.2 ⟨fun w hw ↦ ?_, ih (ht.endUtc h c)⟩
      have hstart := (closedWindows_mem h (ht.endUtc h c) hw).2.1
      rwa [window_next h c ht] at hstart

/-- The windows of the loop are all that begin from the start on, or hold it, and have closed. -/
theorem mem_closedFrom (h : PayoutZone Z) (ht : Started Z t) : w ∈ closedFrom Z c now t ↔
    ∃ s, t ≤ s ∧ w = payoutWindowContaining Z c s ∧ w.endUtc ≤ now := by
  constructor
  · intro hw
    obtain ⟨⟨s, hs, rfl⟩, -, hafter, hend⟩ := closedWindows_mem h ht hw
    obtain ⟨hlow, hhigh⟩ := window_holds h c hs
    have hin : max t (payoutWindowContaining Z c s).startUtc <
        (payoutWindowContaining Z c s).endUtc := max_lt hafter (hlow.trans_lt hhigh)
    exact ⟨_, le_max_left _ _, (window_eq h hs (le_max_right _ _) hin).symm, hend⟩
  · rintro ⟨s, hts, rfl, hend⟩
    obtain ⟨n, hn⟩ : ∃ n : ℕ, localDate Z now ≤ localDate Z t + n :=
      ⟨(localDate Z now - localDate Z t).toNat, by omega⟩
    have hs := ht.trans hts
    have hsoon := (window_holds h c hs).2.trans_le hend
    induction n generalizing t with
    | zero =>
      have hdates := (localDate_mono h hs hts).trans_lt (localDate_lt_end h c hs)
      have hnow := localDate_mono h (hs.trans hsoon.le) hend
      push_cast at hn
      omega
    | succ n ih =>
      have hless := localDate_lt_end h c ht
      have hlow := (window_holds h c ht).1
      rw [closedFrom_eq h ht]
      rcases lt_or_ge s (payoutWindowContaining Z c t).endUtc with hin | hbehind
      · have hsame := window_eq h ht (hlow.trans hts) hin
        rw [hsame] at hend ⊢
        rw [if_neg (not_lt.2 hend)]
        exact List.mem_cons_self
      · rw [if_neg (not_lt.2 (hbehind.trans hsoon.le))]
        push_cast at hn
        exact List.mem_cons_of_mem _ (ih (ht.endUtc h c) hbehind (by omega))

end Closed

section Loop

variable (Z : Zone) (terms : SavingsTerms) (rateAt : Instant → Option ℚ)
  (paidKeys : List InterestSuffix) (accrueAfter : Instant)

def owed (w : PayoutWindow) (history : List (Instant × ℤ)) : List (PayoutWindow × ℤ) :=
  if w.suffix ∈ paidKeys ∨ windowInterest Z terms rateAt w history accrueAfter ≤ 0 then []
  else [(w, windowInterest Z terms rateAt w history accrueAfter)]

/-- The credits are part of the balance from their windows' ends on. -/
def effectsOf (paid : List (PayoutWindow × ℤ)) : List (Instant × ℤ) :=
  paid.map fun x ↦ (x.1.endUtc, x.2)

def joined (history : List (Instant × ℤ)) (paid : List (PayoutWindow × ℤ)) : List (Instant × ℤ) :=
  (effectsOf paid).foldl (fun history entry ↦ insort entry history) history

def payEach : List PayoutWindow → List (Instant × ℤ) → List (PayoutWindow × ℤ)
  | [], _ => []
  | w :: ws, history =>
    let paid := owed Z terms rateAt paidKeys accrueAfter w history
    paid ++ payEach ws (joined history paid)

variable {Z terms rateAt paidKeys accrueAfter} {rateAt' : Instant → Option ℚ}
  {paidKeys' : List InterestSuffix} {accrueAfter' now t d : Instant} {fuel : ℕ} {w : PayoutWindow}
  {us vs ws : List PayoutWindow} {history history' : List (Instant × ℤ)}
  {paid paid' : List (PayoutWindow × ℤ)} {x : PayoutWindow × ℤ}

theorem joined_append : joined history (paid ++ paid') = joined (joined history paid) paid' := by
  rw [joined, effectsOf, List.map_append, List.foldl_append]
  rfl

theorem before_joined : before d (joined history paid) =
    before d history + before d (effectsOf paid) := by
  induction paid generalizing history with
  | nil => exact (add_zero _).symm
  | cons x paid ih =>
    change before d (joined (insort (x.1.endUtc, x.2) history) paid) =
      before d history + before d ((x.1.endUtc, x.2) :: effectsOf paid)
    rw [ih, before_insort, before_cons, add_assoc]

theorem joined_sorted (hsorted : history.Pairwise fun a b ↦ a.1 ≤ b.1) :
    (joined history paid).Pairwise fun a b ↦ a.1 ≤ b.1 := by
  induction paid generalizing history with
  | nil => exact hsorted
  | cons x paid ih => exact ih (insort_sorted hsorted)

theorem payWindows_eq : payWindows Z terms rateAt now paidKeys accrueAfter fuel w history =
    payEach Z terms rateAt paidKeys accrueAfter (closedWindows Z terms.cadence now fuel w)
      history := by
  induction fuel generalizing w history with
  | zero => rfl
  | succ fuel ih =>
    rw [payWindows, closedWindows]
    dsimp only
    split_ifs with hopen hkey hcents
    · rfl
    · rw [payEach, owed, if_pos (.inl hkey), ih]
      rfl
    · rw [payEach, owed, if_neg (not_or.2 ⟨hkey, not_le.2 hcents⟩), ih]
      rfl
    · rw [payEach, owed, if_pos (.inr (not_lt.1 hcents)), ih]
      rfl

theorem payEach_append : payEach Z terms rateAt paidKeys accrueAfter (us ++ vs) history =
    payEach Z terms rateAt paidKeys accrueAfter us history ++
      payEach Z terms rateAt paidKeys accrueAfter vs
        (joined history (payEach Z terms rateAt paidKeys accrueAfter us history)) := by
  induction us generalizing history with
  | nil => rfl
  | cons u us ih =>
    rw [List.cons_append, payEach, payEach, ih, joined_append, List.append_assoc]

theorem owed_mem (hx : x ∈ owed Z terms rateAt paidKeys accrueAfter w history) :
    x = (w, windowInterest Z terms rateAt w history accrueAfter) ∧ w.suffix ∉ paidKeys ∧
      0 < windowInterest Z terms rateAt w history accrueAfter := by
  rw [owed] at hx
  split_ifs at hx with hnone
  · cases hx
  · rw [not_or, not_le] at hnone
    exact ⟨List.mem_singleton.1 hx, hnone⟩

theorem payEach_mem (hx : x ∈ payEach Z terms rateAt paidKeys accrueAfter ws history) :
    x.1 ∈ ws := by
  induction ws generalizing history with
  | nil => cases hx
  | cons w ws ih =>
    rw [payEach] at hx
    rcases List.mem_append.1 hx with hx | hx
    · rw [(owed_mem hx).1]
      exact List.mem_cons_self
    · exact List.mem_cons_of_mem _ (ih hx)

theorem payEach_sublist (ws : List PayoutWindow) (history : List (Instant × ℤ)) :
    ((payEach Z terms rateAt paidKeys accrueAfter ws history).map (·.1)).Sublist ws := by
  induction ws generalizing history with
  | nil => exact List.Sublist.refl _
  | cons w ws ih =>
    rw [payEach, List.map_append, owed]
    split_ifs
    · exact (ih _).cons w
    · exact (ih _).cons_cons w

/-- The windows that are not paid may as well be left off the end. -/
theorem payEach_stop (ws : List PayoutWindow) (history : List (Instant × ℤ)) :
    ∃ us vs, ws = us ++ vs ∧ payEach Z terms rateAt paidKeys accrueAfter ws history =
        payEach Z terms rateAt paidKeys accrueAfter us history ∧
      (us = [] ∨ ∃ w ∈ (payEach Z terms rateAt paidKeys accrueAfter us history).map (·.1),
        ∃ us', us = us' ++ [w]) := by
  induction ws using List.reverseRecOn with
  | nil => exact ⟨[], [], rfl, rfl, .inl rfl⟩
  | append_singleton ws w ih =>
    cases hpaid : payEach Z terms rateAt paidKeys accrueAfter [w]
        (joined history (payEach Z terms rateAt paidKeys accrueAfter ws history)) with
    | nil =>
      obtain ⟨us, vs, rfl, hsame, hlast⟩ := ih
      refine ⟨us, vs ++ [w], by rw [List.append_assoc], ?_, hlast⟩
      rw [payEach_append, hpaid, List.append_nil, hsame]
    | cons x paid =>
      refine ⟨ws ++ [w], [], (List.append_nil _).symm, rfl, .inr ⟨w, ?_, ws, rfl⟩⟩
      have hx : x ∈ owed Z terms rateAt paidKeys accrueAfter w
          (joined history (payEach Z terms rateAt paidKeys accrueAfter ws history)) := by
        have hmem : x ∈ x :: paid := List.mem_cons_self
        rw [← hpaid, payEach] at hmem
        simpa [payEach] using hmem
      rw [payEach_append, hpaid, List.map_append, List.mem_append, List.map_cons, (owed_mem hx).1]
      exact .inr List.mem_cons_self

/-- A window that is gone through is paid where it has not been before and its interest is
positive, on balances that hold the credits of the windows before it. -/
theorem mem_payEach (hlong : ∀ w ∈ ws, w.startUtc < w.endUtc)
    (hordered : ws.Pairwise fun v w ↦ v.endUtc ≤ w.startUtc) {cents : ℤ} :
    (w, cents) ∈ payEach Z terms rateAt paidKeys accrueAfter ws history ↔
      w ∈ ws ∧ w.suffix ∉ paidKeys ∧ 0 < cents ∧
        cents = windowInterest Z terms rateAt w
          (joined history ((payEach Z terms rateAt paidKeys accrueAfter ws history).filter
            (·.1.endUtc ≤ w.startUtc))) accrueAfter := by
  induction ws generalizing history with
  | nil => simp [payEach]
  | cons v vs ih =>
    rw [List.forall_mem_cons] at hlong
    rw [List.pairwise_cons] at hordered
    have hstarts : ∀ u ∈ vs, v.startUtc < u.startUtc ∧ u ≠ v := by
      intro u hu
      have hlt := hlong.1.trans_le (hordered.1 u hu)
      exact ⟨hlt, fun heq ↦ absurd hlt (by rw [heq]; exact lt_irrefl _)⟩
    rw [payEach]
    set own := owed Z terms rateAt paidKeys accrueAfter v history with hown
    have hself : ∀ x ∈ own, x.1 = v := by
      intro x hx
      rw [(owed_mem hx).1]
    have hrest : ∀ x ∈ payEach Z terms rateAt paidKeys accrueAfter vs (joined history own),
        x.1 ∈ vs := fun x hx ↦ payEach_mem hx
    rw [List.mem_append, List.filter_append, List.mem_cons]
    by_cases hwv : w = v
    · -- none of the credits is there before the window that comes first
      subst hwv
      have hnone : own.filter (·.1.endUtc ≤ w.startUtc) = [] := by
        refine List.filter_eq_nil_iff.2 fun x hx hle ↦ ?_
        rw [hself x hx] at hle
        exact absurd (of_decide_eq_true hle) (not_le.2 hlong.1)
      have hnone' : (payEach Z terms rateAt paidKeys accrueAfter vs (joined history own)).filter
          (·.1.endUtc ≤ w.startUtc) = [] := by
        refine List.filter_eq_nil_iff.2 fun x hx hle ↦ ?_
        have hlt := (hstarts _ (hrest x hx)).1.trans (hlong.2 _ (hrest x hx))
        exact absurd (of_decide_eq_true hle) (not_le.2 hlt)
      have hlater : (w, cents) ∉ payEach Z terms rateAt paidKeys accrueAfter vs
          (joined history own) := fun hx ↦ (hstarts w (hrest _ hx)).2 rfl
      have hfirst : (w, cents) ∈ own ↔ w.suffix ∉ paidKeys ∧ 0 < cents ∧
          cents = windowInterest Z terms rateAt w history accrueAfter := by
        constructor
        · intro hx
          obtain ⟨hx, hkey, hpositive⟩ := owed_mem hx
          rw [Prod.mk.injEq] at hx
          exact ⟨hkey, hx.2 ▸ hpositive, hx.2⟩
        · rintro ⟨hkey, hpositive, rfl⟩
          rw [hown, owed, if_neg (not_or.2 ⟨hkey, not_le.2 hpositive⟩)]
          exact List.mem_cons_self
      rw [hnone, hnone', or_iff_left hlater, hfirst, eq_self, true_or, true_and]
      rfl
    · have hnot : (w, cents) ∉ own := fun hx ↦ hwv (hself _ hx)
      rw [or_iff_right hnot, or_iff_right hwv, ih hlong.2 hordered.2]
      refine and_congr_right fun hw ↦ ?_
      have hall : own.filter (·.1.endUtc ≤ w.startUtc) = own := by
        refine List.filter_eq_self.2 fun x hx ↦ ?_
        rw [hself x hx]
        exact decide_eq_true (hordered.1 w hw)
      rw [hall, joined_append]

/-- What a window is paid is a matter of the balances, the rates and the days that it reads. -/
theorem payEach_congr (h : PayoutZone Z)
    (hzone : ∀ w ∈ ws, ∃ t, Started Z t ∧ w = payoutWindowContaining Z terms.cadence t)
    (hsorted : history.Pairwise fun a b ↦ a.1 ≤ b.1)
    (hsorted' : history'.Pairwise fun a b ↦ a.1 ≤ b.1)
    (hkeys : ∀ w ∈ ws, w.suffix ∈ paidKeys ↔ w.suffix ∈ paidKeys')
    (hsame : ∀ w ∈ ws, ∀ d, w.startUtc < d → d ≤ w.endUtc →
      before d history = before d history' ∧ rateAt d = rateAt' d ∧
        (accrueAfter < d ↔ accrueAfter' < d)) :
    payEach Z terms rateAt paidKeys accrueAfter ws history =
      payEach Z terms rateAt' paidKeys' accrueAfter' ws history' := by
  induction ws generalizing history history' with
  | nil => rfl
  | cons w ws ih =>
    rw [List.forall_mem_cons] at hzone hkeys hsame
    obtain ⟨t, ht, rfl⟩ := hzone.1
    have hinterest := windowInterest_congr h ht hsorted hsorted' hsame.1
    have howed : owed Z terms rateAt paidKeys accrueAfter
          (payoutWindowContaining Z terms.cadence t) history =
        owed Z terms rateAt' paidKeys' accrueAfter'
          (payoutWindowContaining Z terms.cadence t) history' := by
      rw [owed, owed, hinterest]
      simp only [hkeys.1]
    rw [payEach, payEach, howed,
      ih hzone.2 (joined_sorted hsorted) (joined_sorted hsorted') hkeys.2]
    intro w hw d hlow hhigh
    obtain ⟨hbalance, hrate, hafter⟩ := hsame.2 w hw d hlow hhigh
    exact ⟨by rw [before_joined, before_joined, hbalance], hrate, hafter⟩

theorem windowInterest_of_nonpositive (h : PayoutZone Z) (ht : Started Z t)
    (hrates : ∀ d, d ≤ (payoutWindowContaining Z terms.cadence t).endUtc → ∀ r ∈ rateAt d, r ≤ 0) :
    windowInterest Z terms rateAt (payoutWindowContaining Z terms.cadence t) history
      accrueAfter = 0 := by
  have hdays : decimalAccrual terms.compounding (windowDays Z terms rateAt
      (payoutWindowContaining Z terms.cadence t) history accrueAfter) = 0 := by
    apply decimalAccrual_of_nonpositive
    intro day hday
    obtain ⟨d, hd, rfl⟩ := List.mem_map.1 hday
    have hle := (windowDayPlan_between h ht (List.of_mem_zip hd).1).2
    intro r hr
    dsimp only at hr
    split_ifs at hr
    · exact hrates _ hle r hr
    · cases hr
  rw [windowInterest, hdays]
  simp [creditSavingsInterest]

theorem payEach_of_nonpositive (h : PayoutZone Z)
    (hzone : ∀ w ∈ ws, ∃ t, Started Z t ∧ w = payoutWindowContaining Z terms.cadence t)
    (hrates : ∀ w ∈ ws, ∀ d, d ≤ w.endUtc → ∀ r ∈ rateAt d, r ≤ 0) :
    payEach Z terms rateAt paidKeys accrueAfter ws history = [] := by
  induction ws generalizing history with
  | nil => rfl
  | cons w ws ih =>
    rw [List.forall_mem_cons] at hzone hrates
    obtain ⟨t, ht, rfl⟩ := hzone.1
    rw [payEach, owed, windowInterest_of_nonpositive h ht hrates.1, if_pos (.inr le_rfl),
      List.nil_append]
    exact ih hzone.2 hrates.2

end Loop

end TokenHub.Savings
