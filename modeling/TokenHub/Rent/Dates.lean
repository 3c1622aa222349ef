import TokenHub.Rent.Schedule

set_option autoImplicit false

namespace TokenHub.Rent

open Lib.Digits

section Ordinals

theorem monthAndDay_sum (lengths : List ℤ) (month n : ℤ) :
    month ≤ (monthAndDay lengths month n).1 ∧
      (lengths.take ((monthAndDay lengths month n).1 - month).toNat).sum +
        (monthAndDay lengths month n).2 = n := by
  induction lengths generalizing month n with
  | nil => simp [monthAndDay]
  | cons length lengths ih =>
    rw [monthAndDay]
    by_cases hn : n ≤ length
    · rw [if_pos hn]
      simp
    · rw [if_neg hn]
      obtain ⟨hle, hsum⟩ := ih (month + 1) (n - length)
      generalize monthAndDay lengths (month + 1) (n - length) = p at hle hsum
      have hsteps : (p.1 - month).toNat = (p.1 - (month + 1)).toNat + 1 := by omega
      refine ⟨by omega, ?_⟩
      rw [hsteps, List.take_succ_cons, List.sum_cons]
      omega

theorem monthAndDay_pos (lengths : List ℤ) {month n : ℤ} (hn : 1 ≤ n) :
    1 ≤ (monthAndDay lengths month n).2 := by
  induction lengths generalizing month n with
  | nil => exact hn
  | cons length lengths ih =>
    rw [monthAndDay]
    by_cases hle : n ≤ length
    · rw [if_pos hle]
      exact hn
    · rw [if_neg hle]
      exact ih (by omega)

/-- The years before a year of `a` cycles of 400, `b` centuries, `c` cycles of four and `d` years. -/
theorem daysBeforeYear_eq (a b c d : ℤ) (hb : 0 ≤ b ∧ b < 4) (hc : 0 ≤ c ∧ c < 25)
    (hd : 0 ≤ d ∧ d < 4) : daysBeforeYear (a * 400 + b * 100 + c * 4 + d + 1) =
      146097 * a + 36524 * b + 1461 * c + 365 * d := by
  unfold daysBeforeYear
  omega

theorem toOrdinal_yearEnd {year : ℤ} (hleap : isLeapYear year = true) :
    toOrdinal ⟨year, 12, 31⟩ = daysBeforeYear year + 366 := by
  simp [toOrdinal, monthLengths, hleap, add_assoc]

/-- The day number of a calendar date is the one that it was read from. -/
theorem toOrdinal_fromOrdinal (n : ℤ) : toOrdinal (fromOrdinal n) = n := by
  have h400 := Int.emod_nonneg (n - 1) (by decide : (146097 : ℤ) ≠ 0)
  have h400' := Int.emod_lt_of_pos (n - 1) (by decide : (0 : ℤ) < 146097)
  have hdiv := Int.mul_ediv_add_emod (n - 1) 146097
  simp only [fromOrdinal]
  generalize (n - 1) / 146097 = n400 at *
  generalize (n - 1) % 146097 = r400 at *
  have hb := Int.mul_ediv_add_emod r400 36524
  have hb' := Int.emod_nonneg r400 (by decide : (36524 : ℤ) ≠ 0)
  have hb'' := Int.emod_lt_of_pos r400 (by decide : (0 : ℤ) < 36524)
  generalize r400 / 36524 = n100 at *
  generalize r400 % 36524 = r100 at *
  have hc := Int.mul_ediv_add_emod r100 1461
  have hc' := Int.emod_nonneg r100 (by decide : (1461 : ℤ) ≠ 0)
  have hc'' := Int.emod_lt_of_pos r100 (by decide : (0 : ℤ) < 1461)
  generalize r100 / 1461 = n4 at *
  generalize r100 % 1461 = r4 at *
  have hd := Int.mul_ediv_add_emod r4 365
  have hd' := Int.emod_nonneg r4 (by decide : (365 : ℤ) ≠ 0)
  have hd'' := Int.emod_lt_of_pos r4 (by decide : (0 : ℤ) < 365)
  generalize r4 / 365 = n1 at *
  generalize r4 % 365 = r1 at *
  split_ifs with hend
  · -- The day after 365 of a year, or after 24 leap days of a century, ends a leap year.
    have hleap : isLeapYear (n400 * 400 + n100 * 100 + n4 * 4 + n1 + 1 - 1) = true := by
      simp only [isLeapYear, decide_eq_true_eq]
      omega
    rw [toOrdinal_yearEnd hleap]
    rcases hend with hyear | hcentury
    · have hbefore := daysBeforeYear_eq n400 n100 n4 3 (by omega) (by omega) (by omega)
      rw [show n400 * 400 + n100 * 100 + n4 * 4 + n1 + 1 - 1 =
        n400 * 400 + n100 * 100 + n4 * 4 + 3 + 1 by omega, hbefore]
      omega
    · have hbefore := daysBeforeYear_eq n400 3 24 3 (by omega) (by omega) (by omega)
      rw [show n400 * 400 + n100 * 100 + n4 * 4 + n1 + 1 - 1 =
        n400 * 400 + 3 * 100 + 24 * 4 + 3 + 1 by omega, hbefore]
      omega
  · obtain ⟨hmonth, hsum⟩ := monthAndDay_sum
      (monthLengths (n400 * 400 + n100 * 100 + n4 * 4 + n1 + 1)) 1 (r1 + 1)
    simp only [toOrdinal]
    rw [daysBeforeYear_eq n400 n100 n4 n1 (by omega) (by omega) (by omega), add_assoc, hsum]
    omega

theorem fromOrdinal_injective : Function.Injective fromOrdinal :=
  Function.LeftInverse.injective toOrdinal_fromOrdinal

end Ordinals

section Texts

theorem padded_toList (width n : ℕ) : (padded width n).toList =
    List.replicate (width - (natText n).length) '0' ++ natText n := by
  rw [padded, String.toList_ofList]

theorem padded_isDigit {width n : ℕ} {c : Char} (h : c ∈ (padded width n).toList) :
    c.isDigit = true := by
  rw [padded_toList] at h
  rcases List.mem_append.1 h with h | h
  · rw [(List.mem_replicate.1 h).2]
    rfl
  · exact natText_isDigit h

theorem ofDigitChars_padded (width n : ℕ) :
    Nat.ofDigitChars 10 (padded width n).toList 0 = n := by
  rw [padded_toList]
  induction width - (natText n).length with
  | zero => exact Nat.ofDigitChars_ten_toDigits
  | succ k ih =>
    rw [List.replicate_succ, List.cons_append, Nat.ofDigitChars_cons]
    exact ih

theorem padded_cut {width m n : ℕ} {r s : List Char} (hr : NoDigit r) (hs : NoDigit s)
    (h : (padded width m).toList ++ r = (padded width n).toList ++ s) : m = n ∧ r = s := by
  obtain ⟨hmn, hrs⟩ := digits_cut (fun c hc ↦ padded_isDigit hc) (fun c hc ↦ padded_isDigit hc)
    hr hs h
  refine ⟨?_, hrs⟩
  rw [← ofDigitChars_padded width m, hmn, ofDigitChars_padded]

theorem fromOrdinal_pos (n : ℤ) : 1 ≤ (fromOrdinal n).month ∧ 1 ≤ (fromOrdinal n).day := by
  simp only [fromOrdinal]
  have hnonneg := Int.emod_nonneg ((n - 1) % 146097 % 36524 % 1461) (by decide : (365 : ℤ) ≠ 0)
  split_ifs
  · exact ⟨by norm_num, by norm_num⟩
  · exact ⟨(monthAndDay_sum _ 1 _).1, monthAndDay_pos _ (by omega)⟩

theorem fromOrdinal_year {n : ℤ} (h : 1 ≤ n) : 1 ≤ (fromOrdinal n).year := by
  have h400 := Int.emod_nonneg (n - 1) (by decide : (146097 : ℤ) ≠ 0)
  simp only [fromOrdinal]
  split_ifs
  · simp only
    omega
  · simp only
    omega

def isoFraction (micros : ℕ) : List Char :=
  (if micros = 0 then [] else '.' :: (padded 6 micros).toList) ++ "+00:00".toList

theorem noDigit_isoFraction (micros : ℕ) : NoDigit (isoFraction micros) := by
  unfold isoFraction
  split_ifs <;> exact (noDigit_cons _ _).2 rfl

theorem isoFraction_injective : Function.Injective isoFraction := by
  intro m n h
  unfold isoFraction at h
  by_cases hm : m = 0
  · by_cases hn : n = 0
    · rw [hm, hn]
    · rw [if_pos hm, if_neg hn] at h
      exact absurd (List.cons.inj h).1 (by decide)
  · by_cases hn : n = 0
    · rw [if_neg hm, if_pos hn] at h
      exact absurd (List.cons.inj h).1 (by decide)
    · rw [if_neg hm, if_neg hn] at h
      exact (padded_cut ((noDigit_cons _ _).2 rfl) ((noDigit_cons _ _).2 rfl)
        (List.cons.inj h).2).1

theorem isoFormat_toList {t : Instant} {date : CivilDate} {micros : ℕ}
    (hdate : fromOrdinal (t / 86400000000 + 719163) = date)
    (hmicros : (t % 86400000000).toNat = micros) : (isoFormat t).toList =
      (padded 4 date.year.toNat).toList ++ '-' :: ((padded 2 date.month.toNat).toList ++ '-' ::
        ((padded 2 date.day.toNat).toList ++ 'T' ::
          ((padded 2 (micros / 1000000 / 3600)).toList ++ ':' ::
            ((padded 2 (micros / 1000000 / 60 % 60)).toList ++ ':' ::
              ((padded 2 (micros / 1000000 % 60)).toList ++ isoFraction (micros % 1000000)))))) := by
  have hdash : "-".toList = ['-'] := rfl
  have hT : "T".toList = ['T'] := rfl
  have hcolon : ":".toList = [':'] := rfl
  have hfraction : (if micros % 1000000 = 0 then "" else
      "." ++ padded 6 (micros % 1000000)).toList ++ "+00:00".toList =
        isoFraction (micros % 1000000) := by
    unfold isoFraction
    split_ifs with hzero
    · rfl
    · rw [String.toList_append]
      rfl
  simp only [isoFormat, hdate, hmicros, String.toList_append, hdash, hT, hcolon, List.append_assoc,
    hfraction, List.cons_append, List.nil_append]

/-- The text of an instant, from year 1 on, determines the instant. -/
theorem isoFormat_injOn {t u : Instant} (ht : 1 ≤ t / 86400000000 + 719163)
    (hu : 1 ≤ u / 86400000000 + 719163) (h : isoFormat t = isoFormat u) : t = u := by
  have htext := congrArg String.toList h
  rw [isoFormat_toList rfl rfl, isoFormat_toList rfl rfl] at htext
  have hstop : ∀ c ∈ ['-', 'T', ':'], ∀ r, NoDigit (c :: r) := by
    intro c hc r
    rw [noDigit_cons]
    simp only [List.mem_cons, List.not_mem_nil, or_false] at hc
    rcases hc with rfl | rfl | rfl <;> rfl
  have hdash := hstop '-' (by decide)
  have hT := hstop 'T' (by decide)
  have hcolon := hstop ':' (by decide)
  obtain ⟨hyear, htext⟩ := padded_cut (hdash _) (hdash _) htext
  obtain ⟨hmonth, htext⟩ := padded_cut (hdash _) (hdash _) (List.cons.inj htext).2
  obtain ⟨hday, htext⟩ := padded_cut (hT _) (hT _) (List.cons.inj htext).2
  obtain ⟨hhour, htext⟩ := padded_cut (hcolon _) (hcolon _) (List.cons.inj htext).2
  obtain ⟨hminute, htext⟩ := padded_cut (hcolon _) (hcolon _) (List.cons.inj htext).2
  obtain ⟨hsecond, htext⟩ := padded_cut (noDigit_isoFraction _) (noDigit_isoFraction _)
    (List.cons.inj htext).2
  have hmicro := isoFraction_injective htext
  have hdate : t / 86400000000 + 719163 = u / 86400000000 + 719163 := by
    apply fromOrdinal_injective
    have hyt := fromOrdinal_year ht
    have hyu := fromOrdinal_year hu
    obtain ⟨hmt, hdt⟩ := fromOrdinal_pos (t / 86400000000 + 719163)
    obtain ⟨hmu, hdu⟩ := fromOrdinal_pos (u / 86400000000 + 719163)
    rw [CivilDate.mk.injEq]
    omega
  have hmicros : (t % 86400000000).toNat = (u % 86400000000).toNat := by
    clear hyear hmonth hday hdate
    omega
  have ht' := Int.mul_ediv_add_emod t 86400000000
  have hu' := Int.mul_ediv_add_emod u 86400000000
  have hnonneg := Int.emod_nonneg t (by decide : (86400000000 : ℤ) ≠ 0)
  have hnonneg' := Int.emod_nonneg u (by decide : (86400000000 : ℤ) ≠ 0)
  rw [← ht', ← hu', ← Int.toNat_of_nonneg hnonneg, ← Int.toNat_of_nonneg hnonneg', hmicros,
    add_right_cancel hdate]

theorem not_bar_mem_isoFormat (t : Instant) : '|' ∉ (isoFormat t).toList := by
  have hdigits : ∀ width n, '|' ∉ (padded width n).toList :=
    fun width n h ↦ absurd (padded_isDigit h) (by decide)
  have hfraction : ∀ n, '|' ∉ isoFraction n := by
    intro n
    unfold isoFraction
    split_ifs
    · decide
    · simp [hdigits]
  rw [isoFormat_toList rfl rfl]
  simp [hdigits, hfraction]

end Texts

end TokenHub.Rent
