import Mathlib.Data.Int.LeastGreatest
import Mathlib.Tactic.Common
import Mathlib.Tactic.Linarith

set_option autoImplicit false

namespace TokenHub.Lib.WallClock

/-- How far a clock is ahead, and whether it then shows standard time. -/
structure Setting where
  offset : ℤ
  standard : Bool
deriving DecidableEq, Repr

structure Change where
  instant : ℤ
  setting : Setting
deriving DecidableEq, Repr

structure Turn where
  instant : ℤ
  before : Setting
  after : Setting
deriving DecidableEq, Repr

/-- The wall time that is about to be shown when the clock is changed. -/
def Turn.stop (u : Turn) : ℤ := u.instant + u.before.offset

def Turn.resume (u : Turn) : ℤ := u.instant + u.after.offset

structure Zone where
  first : Setting
  changes : List Change
  ordered : changes.Pairwise (fun c c' ↦ c.instant < c'.instant)

section Settings

def inForce : Setting → List Change → ℤ → Setting
  | s, [], _ => s
  | s, c :: cs, t => if t < c.instant then s else inForce c.setting cs t

def turnsFrom : Setting → List Change → List Turn
  | _, [] => []
  | s, c :: cs => ⟨c.instant, s, c.setting⟩ :: turnsFrom c.setting cs

variable {s : Setting} {cs : List Change} {t : ℤ}

theorem inForce_of_lt (h : ∀ c ∈ cs, t < c.instant) : inForce s cs t = s := by
  cases cs with
  | nil => rfl
  | cons c cs => rw [inForce, if_pos (h c (by simp))]

theorem inForce_mem : inForce s cs t = s ∨ ∃ c ∈ cs, inForce s cs t = c.setting := by
  induction cs generalizing s with
  | nil => exact .inl rfl
  | cons c cs ih =>
    rw [inForce]
    split_ifs
    · exact .inl rfl
    · right
      rcases @ih c.setting with h | ⟨c', hc', h⟩
      · exact ⟨c, by simp, h⟩
      · exact ⟨c', by simp [hc'], h⟩

theorem instant_of_mem_turnsFrom {u : Turn} (hu : u ∈ turnsFrom s cs) :
    ∃ c ∈ cs, c.instant = u.instant := by
  induction cs generalizing s with
  | nil => cases hu
  | cons c cs ih =>
    rcases List.mem_cons.1 hu with rfl | hu
    · exact ⟨c, by simp, rfl⟩
    · obtain ⟨c', hc', h⟩ := ih hu
      exact ⟨c', by simp [hc'], h⟩

theorem inForce_turn (hcs : cs.Pairwise (fun c c' ↦ c.instant < c'.instant)) {u : Turn}
    (hu : u ∈ turnsFrom s cs) :
    inForce s cs (u.instant - 1) = u.before ∧ inForce s cs u.instant = u.after := by
  induction cs generalizing s with
  | nil => cases hu
  | cons c cs ih =>
    obtain ⟨hc, hcs⟩ := List.pairwise_cons.1 hcs
    rcases List.mem_cons.1 hu with rfl | hu
    · rw [inForce, inForce, if_pos (by simp), if_neg (by simp)]
      exact ⟨rfl, inForce_of_lt hc⟩
    · obtain ⟨c', hc', heq⟩ := instant_of_mem_turnsFrom hu
      have hlt := hc c' hc'
      rw [inForce, inForce, if_neg (by omega), if_neg (by omega)]
      exact ih hcs hu

theorem inForce_pred : inForce s cs t = inForce s cs (t - 1) ∨
    ∃ u ∈ turnsFrom s cs, u.instant = t := by
  induction cs generalizing s with
  | nil => exact .inl rfl
  | cons c cs ih =>
    rw [inForce, inForce]
    rcases lt_trichotomy t c.instant with hlt | heq | hgt
    · rw [if_pos hlt, if_pos (by omega)]
      exact .inl rfl
    · exact .inr ⟨⟨c.instant, s, c.setting⟩, by simp [turnsFrom], heq.symm⟩
    · rw [if_neg (by omega), if_neg (by omega)]
      rcases @ih c.setting with h | ⟨u, hu, h⟩
      · exact .inl h
      · exact .inr ⟨u, by simp [turnsFrom, hu], h⟩

end Settings

namespace Zone

variable (Z : Zone)

def settingAt (t : ℤ) : Setting := inForce Z.first Z.changes t

def turns : List Turn := turnsFrom Z.first Z.changes

def wall (t : ℤ) : ℤ := t + (Z.settingAt t).offset

/-- The instants at which the clock shows `m`. -/
def showings (m : ℤ) : List ℤ :=
  ((Z.first :: Z.changes.map (·.setting)).map (m - ·.offset)).filter (Z.wall · = m)

/-- The instant that a wall time stands for: the last of its showings in standard time, or else
the last of all. A time that the clock never shows is read with the setting that the change which
skips it ends. -/
def localize (m : ℤ) : ℤ :=
  match ((Z.showings m).filter (fun t ↦ (Z.settingAt t).standard)).max? with
  | some t => t
  | none =>
    match (Z.showings m).max? with
    | some t => t
    | none =>
      match Z.turns.find? (fun u ↦ u.stop ≤ m ∧ m < u.resume) with
      | some u => m - u.before.offset
      | none => m

variable {Z} {m t : ℤ} {u : Turn}

theorem wall_turn (hu : u ∈ Z.turns) :
    Z.wall (u.instant - 1) = u.stop - 1 ∧ Z.wall u.instant = u.resume := by
  obtain ⟨hbefore, hafter⟩ := inForce_turn Z.ordered hu
  rw [wall, wall, settingAt, settingAt, hbefore, hafter, Turn.stop, Turn.resume]
  exact ⟨by omega, rfl⟩

theorem settingAt_turn (hu : u ∈ Z.turns) : Z.settingAt u.instant = u.after :=
  (inForce_turn Z.ordered hu).2

theorem wall_pred (Z : Zone) (t : ℤ) : Z.wall t = Z.wall (t - 1) + 1 ∨ ∃ u ∈ Z.turns, u.instant = t := by
  rcases @inForce_pred Z.first Z.changes t with h | h
  · left
    rw [wall, wall, settingAt, settingAt, h]
    omega
  · exact .inr h

theorem mem_showings : t ∈ Z.showings m ↔ Z.wall t = m := by
  rw [showings, List.mem_filter, decide_eq_true_eq, and_iff_right_iff_imp]
  intro h
  rw [List.mem_map]
  refine ⟨Z.settingAt t, ?_, by rw [← h, wall]; omega⟩
  rcases @inForce_mem Z.first Z.changes t with heq | ⟨c, hc, heq⟩
  · rw [settingAt, heq]
    exact List.mem_cons_self
  · rw [settingAt, heq]
    exact List.mem_cons_of_mem _ (List.mem_map_of_mem hc)

theorem exists_bound (Z : Zone) : ∃ b, ∀ t, |(Z.settingAt t).offset| ≤ b := by
  have hlist : ∀ l : List Setting, ∃ b : ℤ, ∀ s ∈ l, |s.offset| ≤ b := by
    intro l
    induction l with
    | nil => exact ⟨0, by simp⟩
    | cons s l ih =>
      obtain ⟨b, hb⟩ := ih
      refine ⟨max |s.offset| b, fun s' hs' ↦ ?_⟩
      rcases List.mem_cons.1 hs' with rfl | hs'
      · exact le_max_left _ _
      · exact (hb s' hs').trans (le_max_right _ _)
  obtain ⟨b, hb⟩ := hlist (Z.first :: Z.changes.map (·.setting))
  refine ⟨b, fun t ↦ hb _ ?_⟩
  rcases @inForce_mem Z.first Z.changes t with heq | ⟨c, hc, heq⟩
  · rw [settingAt, heq]
    exact List.mem_cons_self
  · rw [settingAt, heq]
    exact List.mem_cons_of_mem _ (List.mem_map_of_mem hc)

section Localize

theorem wall_localize (h : ∃ t, Z.wall t = m) : Z.wall (Z.localize m) = m := by
  unfold localize
  split
  · next t ht => exact mem_showings.1 (List.mem_filter.1 (List.max?_mem ht)).1
  · split
    · next t ht => exact mem_showings.1 (List.max?_mem ht)
    · next hnone =>
      obtain ⟨t, ht⟩ := h
      rw [List.max?_eq_none_iff] at hnone
      rw [← mem_showings, hnone] at ht
      cases ht

theorem le_localize_of_standard (ht : Z.wall t = m) (hstd : (Z.settingAt t).standard = true) :
    t ≤ Z.localize m ∧ (Z.settingAt (Z.localize m)).standard = true := by
  have hmem : t ∈ (Z.showings m).filter (fun t ↦ (Z.settingAt t).standard) :=
    List.mem_filter.2 ⟨mem_showings.2 ht, hstd⟩
  unfold localize
  split
  · next u hu =>
    obtain ⟨humem, hle⟩ := List.max?_eq_some_iff.1 hu
    exact ⟨hle t hmem, (List.mem_filter.1 humem).2⟩
  · next hnone =>
    rw [List.max?_eq_none_iff] at hnone
    rw [hnone] at hmem
    cases hmem

/-- Without a showing in standard time, the last showing counts. -/
theorem le_localize_of_no_standard (hno : ∀ t, Z.wall t = m → (Z.settingAt t).standard = false)
    (ht : Z.wall t = m) : t ≤ Z.localize m := by
  unfold localize
  split
  · next u hu =>
    obtain ⟨humem, -⟩ := List.max?_eq_some_iff.1 hu
    obtain ⟨hshown, hstd⟩ := List.mem_filter.1 humem
    rw [hno u (mem_showings.1 hshown)] at hstd
    cases hstd
  · split
    · next u hu => exact (List.max?_eq_some_iff.1 hu).2 t (mem_showings.2 ht)
    · next hnone =>
      rw [List.max?_eq_none_iff] at hnone
      rw [← mem_showings, hnone] at ht
      cases ht

/-- A time that is never shown is read off a change that skips it. -/
theorem localize_of_skipped (hno : ∀ t, Z.wall t ≠ m) (hu : u ∈ Z.turns) (hstop : u.stop ≤ m)
    (hresume : m < u.resume) : ∃ v ∈ Z.turns, v.stop ≤ m ∧ m < v.resume ∧
      Z.localize m = m - v.before.offset := by
  have hempty : Z.showings m = [] := by
    rw [List.eq_nil_iff_forall_not_mem]
    exact fun t ht ↦ hno t (mem_showings.1 ht)
  rw [localize, hempty]
  simp only [List.filter_nil, List.max?_nil]
  split
  · next v hv =>
    have hskips := List.find?_some hv
    rw [decide_eq_true_eq] at hskips
    exact ⟨v, List.mem_of_find?_eq_some hv, hskips.1, hskips.2, rfl⟩
  · next hnone =>
    have := List.find?_eq_none.1 hnone u hu
    simp [hstop, hresume] at this

/-- A wall time is read with a setting that the clock has had, or as it stands. -/
theorem localize_offset (Z : Zone) (m : ℤ) :
    Z.localize m = m ∨ ∃ t, Z.localize m = m - (Z.settingAt t).offset := by
  have hread : ∀ t, Z.wall t = m → t = m - (Z.settingAt t).offset := by
    intro t ht
    rw [← ht, wall]
    omega
  unfold localize
  split
  · next t ht => exact .inr ⟨t, hread t (mem_showings.1 (List.mem_filter.1 (List.max?_mem ht)).1)⟩
  · split
    · next t ht => exact .inr ⟨t, hread t (mem_showings.1 (List.max?_mem ht))⟩
    · split
      · next u hu =>
        refine .inr ⟨u.instant - 1, ?_⟩
        rw [settingAt, (inForce_turn Z.ordered (List.mem_of_find?_eq_some hu)).1]
      · exact .inl rfl

end Localize

section Passing

/-- The clock passes `m` once: no change skips over it or takes the clock back over it, and where
a change takes the clock back to it, standard time has shown it before and does not show it
again. -/
structure PassesOnce (Z : Zone) (m : ℤ) : Prop where
  not_over : ∀ u ∈ Z.turns, u.stop < m → m < u.resume → False
  not_back : ∀ u ∈ Z.turns, u.resume < m → m < u.stop → False
  set_back : ∀ u ∈ Z.turns, u.resume = m → m < u.stop → u.after.standard = false ∧
    ∃ t < u.instant, Z.wall t = m ∧ (Z.settingAt t).standard = true

theorem PassesOnce.stays (h : PassesOnce Z m) (ht : m ≤ Z.wall (t - 1)) : m ≤ Z.wall t := by
  rcases Z.wall_pred t with hrun | ⟨u, hu, rfl⟩
  · omega
  · obtain ⟨hbefore, hafter⟩ := wall_turn hu
    by_contra hlt
    exact h.not_back u hu (by omega) (by omega)

theorem exists_crossing {P : ℤ → Prop} (hstays : ∀ t, P (t - 1) → P t) (hlow : ∃ t, ¬ P t)
    (hhigh : ∃ t, P t) : ∃ c, ∀ t, P t ↔ c ≤ t := by
  have hmono : ∀ a, P a → ∀ n : ℕ, P (a + n) := by
    intro a ha n
    induction n with
    | zero => simpa using ha
    | succ n ih =>
      apply hstays
      rw [show a + (n + 1 : ℕ) - 1 = a + n by push_cast; omega]
      exact ih
  obtain ⟨low, hlow⟩ := hlow
  have hbound : ∀ z, P z → low ≤ z := by
    intro z hz
    by_contra hlt
    apply hlow
    have := hmono z hz (low - z).toNat
    rwa [show z + ((low - z).toNat : ℤ) = low by omega] at this
  obtain ⟨c, hc, hleast⟩ := Int.exists_least_of_bdd ⟨low, hbound⟩ hhigh
  refine ⟨c, fun t ↦ ⟨hleast t, fun hle ↦ ?_⟩⟩
  have := hmono c hc (t - c).toNat
  rwa [show c + ((t - c).toNat : ℤ) = t by omega] at this

/-- There is one instant from which on the clock shows `m` or later. -/
theorem PassesOnce.exists_passing (h : PassesOnce Z m) : ∃ c, ∀ t, m ≤ Z.wall t ↔ c ≤ t := by
  obtain ⟨b, hb⟩ := Z.exists_bound
  apply exists_crossing (fun t ↦ h.stays)
  · refine ⟨m - b - 1, ?_⟩
    have := (abs_le.1 (hb (m - b - 1))).2
    rw [wall]
    omega
  · refine ⟨m + b, ?_⟩
    have := (abs_le.1 (hb (m + b))).1
    rw [wall]
    omega

theorem PassesOnce.le_wall_iff (h : PassesOnce Z m) (t : ℤ) :
    m ≤ Z.wall t ↔ Z.localize m ≤ t := by
  obtain ⟨c, hc⟩ := h.exists_passing
  have hbefore : Z.wall (c - 1) < m := not_le.1 fun hle ↦ by
    have := (hc _).1 hle
    omega
  have hat : m ≤ Z.wall c := (hc c).2 le_rfl
  -- Any later showing of `m` is one that the clock was taken back to.
  have hlater : ∀ t, Z.wall t = m → c < t → ∃ u ∈ Z.turns, u.instant = t ∧ u.resume = m ∧
      m < u.stop := by
    intro t ht hlt
    have hpred : m ≤ Z.wall (t - 1) := (hc _).2 (by omega)
    rcases Z.wall_pred t with hrun | ⟨u, hu, rfl⟩
    · omega
    · obtain ⟨hstop, hresume⟩ := wall_turn hu
      exact ⟨u, hu, rfl, by omega, by omega⟩
  have hfrom : ∀ t, Z.wall t = m → c ≤ t := fun t ht ↦ (hc t).1 ht.ge
  suffices Z.localize m = c by rw [this, hc]
  rcases hat.eq_or_lt with hshown | hskipped
  · have hlocal := wall_localize ⟨c, hshown.symm⟩
    have hle := hfrom _ hlocal
    by_contra hne
    obtain ⟨u, hu, hinstant, hresume, hstop⟩ := hlater _ hlocal (by omega)
    obtain ⟨hnot, t, hlt, ht, hstd⟩ := h.set_back u hu hresume hstop
    have hlast := (le_localize_of_standard ht hstd).2
    rw [← hinstant, settingAt_turn hu, hnot] at hlast
    cases hlast
  · rcases Z.wall_pred c with hrun | ⟨u, hu, rfl⟩
    · omega
    · obtain ⟨hstop, hresume⟩ := wall_turn hu
      have hno : ∀ t, Z.wall t ≠ m := by
        intro t ht
        have hle := hfrom t ht
        rcases hle.eq_or_lt with rfl | hlt
        · omega
        · obtain ⟨v, hv, -, hback, hvstop⟩ := hlater t ht hlt
          obtain ⟨-, t', -, ht', hstd⟩ := h.set_back v hv hback hvstop
          rcases (hfrom t' ht').eq_or_lt with rfl | hlt'
          · omega
          · obtain ⟨v', hv', rfl, hback', hvstop'⟩ := hlater t' ht' hlt'
            have hnot := (h.set_back v' hv' hback' hvstop').1
            rw [settingAt_turn hv', hnot] at hstd
            cases hstd
      obtain ⟨v, hv, hvstop, hvresume, hlocal⟩ :=
        localize_of_skipped hno hu (by omega) (by omega)
      have hexact : v.stop = m := by
        by_contra hne
        exact h.not_over v hv (by omega) hvresume
      obtain ⟨hvbefore, hvafter⟩ := wall_turn hv
      have hle := (hc v.instant).1 (by omega)
      have hnot := mt (hc (v.instant - 1)).2 (by omega)
      rw [Turn.stop] at hexact
      omega

end Passing

section Periods

variable {period : ℤ}

/-- The class period that an instant shows, counted from the wall time zero. -/
def label (Z : Zone) (period t : ℤ) : ℤ := Z.wall t / period

theorem le_label_iff (hperiod : 0 < period) {n : ℤ} :
    n ≤ Z.label period t ↔ n * period ≤ Z.wall t := Int.le_ediv_iff_mul_le hperiod

/-- Where every instant lies between the ends of the period that it shows, and no change is of
more than a period, every end of a period is passed once. -/
theorem passesOnce_of_labels (hperiod : 0 < period)
    (hsmall : ∀ u ∈ Z.turns, |u.after.offset - u.before.offset| ≤ period)
    (hlabels : ∀ t, Z.localize (Z.label period t * period) ≤ t ∧
      t < Z.localize ((Z.label period t + 1) * period)) (n : ℤ) : Z.PassesOnce (n * period) := by
  have hjump : ∀ u ∈ Z.turns, u.resume ≤ u.stop + period ∧ u.stop ≤ u.resume + period := by
    intro u hu
    have h := abs_le.1 (hsmall u hu)
    rw [Turn.resume, Turn.stop]
    exact ⟨by omega, by omega⟩
  have hlabel : ∀ t k, k * period ≤ Z.wall t → Z.wall t < (k + 1) * period →
      Z.label period t = k := by
    intro t k hle hlt
    apply le_antisymm
    · by_contra h
      have := (le_label_iff hperiod).1 (not_le.1 h)
      omega
    · exact (le_label_iff hperiod).2 hle
  have hsucc : ∀ k : ℤ, (k + 1) * period = k * period + period := fun k ↦ by
    rw [Int.add_mul, one_mul]
  have hpred : (n - 1) * period = n * period - period := by rw [Int.sub_mul, one_mul]
  have hover : ∀ u ∈ Z.turns, u.stop < n * period → n * period < u.resume →
      Z.localize (n * period) = u.instant := by
    intro u hu hstop hresume
    obtain ⟨hbefore, hafter⟩ := wall_turn hu
    have hjumpu := hjump u hu
    have hfirst := (hlabels (u.instant - 1)).2
    rw [hlabel (u.instant - 1) (n - 1) (by omega) (by rw [sub_add_cancel]; omega),
      sub_add_cancel] at hfirst
    have hsecond := (hlabels u.instant).1
    rw [hlabel u.instant n (by omega) (by rw [hsucc]; omega)] at hsecond
    omega
  refine ⟨?_, ?_, ?_⟩
  · -- The end stands for the instant of the change, at which the clock shows a later time.
    intro u hu hstop hresume
    have hlocal := hover u hu hstop hresume
    obtain ⟨hbefore, hafter⟩ := wall_turn hu
    by_cases hshown : ∃ t, Z.wall t = n * period
    · have := wall_localize hshown
      rw [hlocal] at this
      omega
    · push Not at hshown
      obtain ⟨v, hv, hvstop, hvresume, hread⟩ := localize_of_skipped hshown hu hstop.le hresume
      obtain ⟨hvbefore, -⟩ := wall_turn hv
      have hoffset : v.stop = v.instant + v.before.offset := rfl
      rcases hvstop.eq_or_lt with heq | hlt
      · have hsame : v.instant = u.instant := by omega
        rw [hsame] at hvbefore
        omega
      · have := hover v hv hlt hvresume
        omega
  · intro u hu hresume hstop
    obtain ⟨hbefore, hafter⟩ := wall_turn hu
    have hjumpu := hjump u hu
    have hfirst := (hlabels (u.instant - 1)).1
    rw [hlabel (u.instant - 1) n (by omega) (by rw [hsucc]; omega)] at hfirst
    have hsecond := (hlabels u.instant).2
    rw [hlabel u.instant (n - 1) (by omega) (by rw [sub_add_cancel]; omega),
      sub_add_cancel] at hsecond
    omega
  · intro u hu hresume hstop
    obtain ⟨hbefore, hafter⟩ := wall_turn hu
    have hjumpu := hjump u hu
    have hfirst := (hlabels (u.instant - 1)).1
    rw [hlabel (u.instant - 1) n (by omega) (by rw [hsucc]; omega)] at hfirst
    have hshown : Z.wall u.instant = n * period := by omega
    have hlocal := wall_localize ⟨_, hshown⟩
    have hnot : u.after.standard = false := by
      by_contra hstd
      have := (le_localize_of_standard hshown
        (by rw [settingAt_turn hu]; exact Bool.eq_true_of_not_eq_false hstd)).1
      omega
    refine ⟨hnot, ?_⟩
    by_contra hno
    push Not at hno
    have hnone : ∀ t, Z.wall t = n * period → (Z.settingAt t).standard = false := by
      intro t ht
      by_contra hstd
      have hstd' : (Z.settingAt t).standard = true := Bool.eq_true_of_not_eq_false hstd
      obtain ⟨hle, hlast⟩ := le_localize_of_standard ht hstd'
      exact hno _ (by omega) hlocal hlast
    have := le_localize_of_no_standard hnone hshown
    omega

end Periods

end Zone

end TokenHub.Lib.WallClock
