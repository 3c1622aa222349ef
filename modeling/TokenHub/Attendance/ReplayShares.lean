import TokenHub.Attendance.HistoricalReplay

set_option autoImplicit false

namespace TokenHub.Attendance

open Rent Lib.Checks Lib.Ordered Lib.Segments
open Ledger (PyValue)

section Weights

variable {isoformat : Instant → String} {intervals : List AttendanceInterval} {s : Segment}
  {key : PairId} {segments : List Segment} {seen : List (PairId × Segment)}

theorem matching_subset {i : AttendanceInterval} (h : i ∈ matching intervals s) :
    i ∈ intervals ∧ i.openedAt ≤ s.1 ∧ s.2 ≤ i.closedAt := by
  unfold matching at h
  dsimp only at h
  split_ifs at h
  · have h := List.mem_filter.1 (List.mem_filter.1 h).1
    simpa using h
  · simpa using List.mem_filter.1 h

theorem pairOf_ok (h : pairOf intervals s = .ok key) : s.1 ≤ s.2 ∧ ∃ i ∈ intervals,
    i.pairId = some key ∧ i.openedAt ≤ s.1 ∧ s.2 ≤ i.closedAt := by
  rw [pairOf, require_bind_eq_ok] at h
  obtain ⟨hproper, h⟩ := h
  refine ⟨hproper, ?_⟩
  split at h
  · next i hmatching =>
    obtain ⟨hmem, hfrom, hto⟩ := matching_subset (hmatching ▸ List.mem_singleton.2 rfl)
    exact ⟨i, hmem, demand_eq_ok.1 h, hfrom, hto⟩
  · cases h

/-- In intervals apart from each other, a segment with a point belongs to the pair of the interval
that the point is in. -/
theorem pairId_of_point (hordered : intervals.Pairwise fun i j ↦ i.closedAt ≤ j.openedAt)
    (h : pairOf intervals s = .ok key) {i : AttendanceInterval} (hi : i ∈ intervals) {t : Instant}
    (ht : t ∈ span s) (hti : t ∈ span i.span) : i.pairId = some key := by
  obtain ⟨-, j, hj, hkey, hfrom, hto⟩ := pairOf_ok h
  by_contra hne
  have hij : i ≠ j := by
    rintro rfl
    exact hne hkey
  have hapart : i.closedAt ≤ j.openedAt ∨ j.closedAt ≤ i.openedAt := by
    rcases List.pairwise_iff_getElem.1 hordered with hpairs
    obtain ⟨m, hm, rfl⟩ := List.getElem_of_mem hi
    obtain ⟨n, hn, rfl⟩ := List.getElem_of_mem hj
    rcases lt_trichotomy m n with hlt | rfl | hgt
    · exact .inl (hpairs m n hm hn hlt)
    · exact absurd rfl hij
    · exact .inr (hpairs n m hn hm hgt)
  rcases hapart with hle | hle
  · exact absurd (hti.2.trans_le (hle.trans (hfrom.trans ht.1))) (lt_irrefl t)
  · exact absurd ((ht.2.trans_le (hto.trans hle)).trans_le hti.1) (lt_irrefl t)

def belonging (intervals : List AttendanceInterval) (key : PairId) (segments : List Segment) :
    List Segment :=
  segments.filter fun s ↦ (pairOf intervals s).toOption = some key

theorem mem_belonging : s ∈ belonging intervals key segments ↔
    s ∈ segments ∧ pairOf intervals s = .ok key := by
  rw [belonging, List.mem_filter, decide_eq_true_iff]
  cases pairOf intervals s <;> simp [Except.toOption]

/-- What the loop of `_weights` has seen: each segment under its pair, those of a pair apart. -/
structure Weighed (intervals : List AttendanceInterval) (segments : List Segment)
    (seen : List (PairId × Segment)) : Prop where
  segments : seen.map (·.2) = segments
  pairs : ∀ e ∈ seen, pairOf intervals e.2 = .ok e.1
  apart : seen.Pairwise fun e e' ↦ e.1 = e'.1 → ¬(e'.2.1 < e.2.2 ∧ e.2.1 < e'.2.2)

theorem Weighed.fold {before : List Segment} (h : Weighed intervals before seen)
    {seen' : List (PairId × Segment)} (hfold : segments.foldlM (weigh intervals) seen = .ok seen') :
    Weighed intervals (before ++ segments) seen' := by
  induction segments generalizing before seen with
  | nil =>
    rw [List.foldlM_nil, pure_eq_ok] at hfold
    rw [List.append_nil, ← hfold]
    exact h
  | cons s segments ih =>
    rw [List.foldlM_cons, bind_eq_ok] at hfold
    obtain ⟨middle, hturn, hfold⟩ := hfold
    rw [weigh, bind_eq_ok] at hturn
    obtain ⟨key, hkey, hturn⟩ := hturn
    rw [require_bind_eq_ok, pure_eq_ok] at hturn
    obtain ⟨hapart, rfl⟩ := hturn
    rw [List.append_cons]
    refine ih ⟨?_, ?_, ?_⟩ hfold
    · rw [List.map_append, h.segments]
      rfl
    · intro e he
      rcases List.mem_append.1 he with he | he
      · exact h.pairs e he
      · rw [List.mem_singleton.1 he]
        exact hkey
    · refine List.pairwise_append.2 ⟨h.apart, List.pairwise_singleton _ _, ?_⟩
      intro e he e' he' hsame
      rw [List.mem_singleton.1 he'] at hsame ⊢
      exact hapart e he hsame

theorem Weighed.segmentsOf (h : Weighed intervals segments seen) (key : PairId) :
    segmentsOf key seen = belonging intervals key segments := by
  rw [Attendance.segmentsOf, belonging, ← h.segments, List.filter_map]
  congr 1
  refine List.filter_congr fun e he ↦ ?_
  rw [Function.comp_apply, h.pairs e he]
  simp [Except.toOption]

theorem Weighed.exists_pair (h : Weighed intervals segments seen) (hs : s ∈ segments) :
    ∃ key, pairOf intervals s = .ok key := by
  rw [← h.segments] at hs
  obtain ⟨e, he, rfl⟩ := List.mem_map.1 hs
  exact ⟨e.1, h.pairs e he⟩

/-- The segments of one share are apart: those of a pair by the check of the loop, those of two
pairs because their intervals are. -/
theorem Weighed.disjoint (hordered : intervals.Pairwise fun i j ↦ i.closedAt ≤ j.openedAt)
    (h : Weighed intervals segments seen) :
    segments.Pairwise fun s u ↦ Disjoint (span s) (span u) := by
  rw [← h.segments, List.pairwise_map]
  refine h.apart.imp_of_mem fun {e e'} he he' hapart ↦ ?_
  rw [Set.disjoint_left]
  intro t ht ht'
  obtain ⟨-, i, hi, hkey, hfrom, hto⟩ := pairOf_ok (h.pairs e he)
  have hti : t ∈ span i.span := ⟨hfrom.trans ht.1, ht.2.trans_le hto⟩
  have hkey' := pairId_of_point hordered (h.pairs e' he') hi ht' hti
  refine hapart (Option.some.inj (hkey.symm.trans hkey')) ⟨?_, ?_⟩
  · exact ht'.1.trans_lt ht.2
  · exact ht.1.trans_lt ht'.2

def weightOf (key : PairId) (ws : List HistoricalPairWeight) : ℤ :=
  ((ws.filter fun w ↦ (w.openingEventId, w.closingEventId) = key).map
    (·.durationMicroseconds)).sum

theorem weights_ok {ws : List HistoricalPairWeight}
    (h : weights isoformat intervals segments = .ok ws) :
    ∃ seen, Weighed intervals segments seen ∧
      ∀ key, weightOf key ws = total (belonging intervals key segments) := by
  rw [weights, bind_eq_ok] at h
  obtain ⟨seen, hfold, h⟩ := h
  rw [pure_eq_ok] at h
  have hnil : Weighed intervals [] [] := ⟨rfl, by simp, List.Pairwise.nil⟩
  have hseen : Weighed intervals segments seen := hnil.fold hfold
  refine ⟨seen, hseen, fun key ↦ ?_⟩
  rw [← hseen.segmentsOf key, weightOf, ← h, List.filter_map, List.map_map]
  set keys := (seen.map (·.1)).dedup.insertionSort PairId.le with hkeys
  have hnodup : keys.Nodup :=
    (List.perm_insertionSort _ _).nodup_iff.2 (List.nodup_dedup _)
  have hfilter : keys.filter ((fun w : HistoricalPairWeight ↦
      decide ((w.openingEventId, w.closingEventId) = key)) ∘ fun key ↦
        ⟨key.1, key.2, closingText isoformat intervals key, total (segmentsOf key seen)⟩) =
      keys.filter (· = key) := List.filter_congr fun k _ ↦ rfl
  rw [hfilter]
  by_cases hmem : key ∈ keys
  · rw [List.filter_eq, List.count_eq_one_of_mem hnodup hmem]
    simp
  · have hnone : keys.filter (· = key) = [] :=
      List.filter_eq_nil_iff.2 fun k hk hk' ↦ hmem (of_decide_eq_true hk' ▸ hk)
    have hempty : segmentsOf key seen = [] := by
      rw [Attendance.segmentsOf, List.map_eq_nil_iff, List.filter_eq_nil_iff]
      intro e he hkey
      apply hmem
      rw [hkeys, List.mem_insertionSort, List.mem_dedup]
      exact List.mem_map.2 ⟨e, he, of_decide_eq_true hkey⟩
    rw [hnone, hempty]
    simp [total]

theorem total_append (a b : List Segment) : total (a ++ b) = total a + total b := by
  simp [total]

end Weights

section Shares

variable {isoformat : Instant → String} {intervals : List AttendanceInterval}
  {settings : List HistoricalPayrollSettingInput} {instant stop : Instant} {window : ℕ}
  {paid : Option ℤ} {legacy : Bool} {segments : List Segment} {key : PairId}

def ShareSound (intervals : List AttendanceInterval) (s : HistoricalReconstructedShare) : Prop :=
  (∃ seen, Weighed intervals s.sourceSegments seen) ∧
    ∀ key, weightOf key s.weights = total (belonging intervals key s.sourceSegments)

def sourcesOf (shares : List HistoricalReconstructedShare) : List Segment :=
  shares.flatMap (·.sourceSegments)

theorem share_ok {built : HistoricalReconstructedShare}
    (h : share isoformat intervals settings instant segments window paid legacy = .ok built) :
    built.sourceSegments = segments ∧ built.windowEventId = window ∧
      ShareSound intervals built := by
  simp only [share, bind_eq_ok, pure_eq_ok] at h
  obtain ⟨setting, -, ws, hweights, rate, -, seconds, -, rfl⟩ := h
  obtain ⟨seen, hseen, htotal⟩ := weights_ok hweights
  exact ⟨rfl, rfl, ⟨seen, hseen⟩, htotal⟩

def namedPair (source : PyValue) : Option PairId :=
  match positiveId (getOr "opening_event_id" source),
      positiveId (getOr "closing_event_id" source) with
  | some opening, some closing => some (opening, closing)
  | _, _ => none

def frozenPairs (summary : PyValue) : List PairId :=
  ((itemsOf (getOr "pricing" summary)).getD []).flatMap fun recorded ↦
    ((itemsOf (getOr "intervals" recorded)).getD []).filterMap namedPair

/-- A named source is the whole extent of an interval of the pair that has closed by `stop`. -/
def NamesInterval (intervals : List AttendanceInterval) (stop : Instant) (n : PairId × Segment) :
    Prop := ∃ i ∈ intervals, i.pairId = some n.1 ∧ n.2 = i.span ∧ i.closedAt ≤ stop

theorem frozenSource_ok {seen : List PairId} {source : PyValue} {n : PairId × Segment}
    (h : frozenSource isoformat intervals stop seen source = .ok n) :
    namedPair source = some n.1 ∧ n.1 ∉ seen ∧ NamesInterval intervals stop n := by
  simp only [frozenSource, demand_bind_eq_ok, require_bind_eq_ok] at h
  obtain ⟨opening, hopening, closing, hclosing, -, h⟩ := h
  have hnamed : namedPair source = some (opening, closing) := by
    rw [namedPair, hopening, hclosing]
  split at h
  · next i hmatches =>
    rw [require_bind_eq_ok, pure_eq_ok] at h
    obtain ⟨⟨hfresh, hstop, -⟩, rfl⟩ := h
    have hi : i ∈ intervals.filter (·.pairId = some (opening, closing)) :=
      hmatches ▸ List.mem_singleton.2 rfl
    obtain ⟨hmem, hkey⟩ := List.mem_filter.1 hi
    exact ⟨hnamed, fun hseen ↦ hfresh _ hseen rfl, i, hmem, of_decide_eq_true hkey, rfl, hstop⟩
  · cases h

theorem frozenSources_ok {seen : List PairId} {sources : List PyValue}
    {named : List (PairId × Segment)}
    (h : frozenSources isoformat intervals stop seen sources = .ok named) :
    sources.filterMap namedPair = named.map (·.1) ∧
      (seen.Nodup → (seen ++ named.map (·.1)).Nodup) ∧
      ∀ n ∈ named, NamesInterval intervals stop n := by
  induction sources generalizing seen named with
  | nil =>
    rw [frozenSources, pure_eq_ok] at h
    subst h
    simp
  | cons source sources ih =>
    simp only [frozenSources, bind_eq_ok, pure_eq_ok] at h
    obtain ⟨first, hfirst, rest, hrest, rfl⟩ := h
    obtain ⟨hpair, hfresh, hinterval⟩ := frozenSource_ok hfirst
    obtain ⟨hpairs, hnodup, hall⟩ := ih hrest
    refine ⟨?_, fun hseen ↦ ?_, ?_⟩
    · rw [List.filterMap_cons, hpair, hpairs]
      rfl
    · rw [List.map_cons, List.append_cons]
      exact hnodup (List.nodup_append.2 ⟨hseen, List.nodup_singleton _, fun a ha b hb ↦ by
        rw [List.mem_singleton.1 hb]
        rintro rfl
        exact hfresh ha⟩)
    · intro n hn
      rcases List.mem_cons.1 hn with rfl | hn
      · exact hinterval
      · exact hall n hn

structure FrozenSound (intervals : List AttendanceInterval) (stop : Instant) (pairs : List PairId)
    (p : FrozenProgress) : Prop where
  shares : ∀ s ∈ p.shares, ShareSound intervals s
  seen : p.seen = pairs
  nodup : p.seen.Nodup
  named : ∃ named : List (PairId × Segment), sourcesOf p.shares = named.map (·.2) ∧
    named.map (·.1) = p.seen ∧ ∀ n ∈ named, NamesInterval intervals stop n

theorem FrozenSound.step {pairs : List PairId} {p p' : FrozenProgress} {recorded : PyValue}
    (hp : FrozenSound intervals stop pairs p)
    (h : frozenShare isoformat intervals settings stop window p recorded = .ok p') :
    FrozenSound intervals stop (pairs ++
      ((itemsOf (getOr "intervals" recorded)).getD []).filterMap namedPair) p' := by
  simp only [frozenShare, bind_eq_ok, demand_eq_ok] at h
  obtain ⟨sources, hsources, seconds, -, policy, -, -, -, named, hnamed, h⟩ := h
  obtain ⟨hpairs, hnodup, hall⟩ := frozenSources_ok hnamed
  split at h
  · cases h
  · next first rest hsegments =>
    simp only [bind_eq_ok, pure_eq_ok] at h
    obtain ⟨built, hbuilt, -, -, rfl⟩ := h
    obtain ⟨hsource, -, hsound⟩ := share_ok hbuilt
    rw [hsources, Option.getD_some, hpairs]
    obtain ⟨earlier, hearlier, hkeys, hintervals⟩ := hp.named
    refine ⟨?_, by rw [hp.seen], hnodup hp.nodup, earlier ++ named, ?_, ?_, ?_⟩
    · intro s hs
      rcases List.mem_append.1 hs with hs | hs
      · exact hp.shares s hs
      · rw [List.mem_singleton.1 hs]
        exact hsound
    · rw [sourcesOf, List.flatMap_append, ← sourcesOf, hearlier, List.map_append, hsegments,
        ← hsource]
      simp
    · rw [List.map_append, hkeys]
    · intro n hn
      rcases List.mem_append.1 hn with hn | hn
      · exact hintervals n hn
      · exact hall n hn

theorem FrozenSound.fold {pairs : List PairId} {p p' : FrozenProgress} {recorded : List PyValue}
    (hp : FrozenSound intervals stop pairs p)
    (h : recorded.foldlM (frozenShare isoformat intervals settings stop window) p = .ok p') :
    FrozenSound intervals stop (pairs ++ recorded.flatMap fun r ↦
      ((itemsOf (getOr "intervals" r)).getD []).filterMap namedPair) p' := by
  induction recorded generalizing pairs p with
  | nil =>
    rw [List.foldlM_nil, pure_eq_ok] at h
    rw [List.flatMap_nil, List.append_nil, ← h]
    exact hp
  | cons r recorded ih =>
    rw [List.foldlM_cons, bind_eq_ok] at h
    obtain ⟨middle, hstep, h⟩ := h
    rw [List.flatMap_cons, ← List.append_assoc]
    exact ih (hp.step hstep) h

theorem frozenShares_ok {summary : PyValue} {shares : List HistoricalReconstructedShare}
    (h : frozenShares isoformat intervals settings stop window summary = .ok shares) :
    ∃ p, FrozenSound intervals stop (frozenPairs summary) p ∧ p.shares = shares := by
  simp only [frozenShares, bind_eq_ok, demand_eq_ok, pure_eq_ok] at h
  obtain ⟨recorded, hrecorded, p, hfold, -, -, rfl⟩ := h
  refine ⟨p, ?_, rfl⟩
  have hstart : FrozenSound intervals stop [] ⟨[], [], []⟩ :=
    ⟨by simp, rfl, List.nodup_nil, [], rfl, rfl, by simp⟩
  rw [frozenPairs, hrecorded]
  exact hstart.fold hfold

theorem addToGroup_perm (locator : String) (s : Segment) (groups : List (String × List Segment)) :
    ((addToGroup locator s groups).flatMap (·.2)).Perm (groups.flatMap (·.2) ++ [s]) := by
  induction groups with
  | nil => simp [addToGroup]
  | cons group groups ih =>
    rw [addToGroup]
    split_ifs
    · rw [List.flatMap_cons, List.flatMap_cons, List.append_assoc, List.append_assoc]
      exact List.Perm.append_left _ List.perm_append_comm
    · rw [List.flatMap_cons, List.flatMap_cons, List.append_assoc]
      exact ih.append_left _

/-- The segments of an event under the rule of closed sessions are those that its window closes. -/
theorem closedShares_ok {previous : Option Instant} {legacyTimes : List Instant}
    {shares : List HistoricalReconstructedShare}
    (h : closedShares isoformat intervals settings previous stop legacyTimes window = .ok shares) :
    (∀ s ∈ shares, ShareSound intervals s) ∧
      (sourcesOf shares).Perm ((intervals.filter fun i ↦ closesWithin previous stop i ∧
        ¬i.closedAt < (closedPart legacyTimes i).1).map (closedPart legacyTimes)) := by
  rw [closedShares, bind_eq_ok] at h
  obtain ⟨groups, hgroups, h⟩ := h
  have hshares := mapM_eq_ok.1 h
  have hperm : ∀ (due : List AttendanceInterval) (before : List (String × List Segment)),
      due.foldlM (fun groups i ↦ do
        let setting ← demand (settingFor settings i.closedAt) .missingOrAmbiguousSetting
        return addToGroup setting.policyLocator (closedPart legacyTimes i) groups) before =
        (.ok groups : Except ReplayRaise _) →
      (groups.flatMap (·.2)).Perm (before.flatMap (·.2) ++ due.map (closedPart legacyTimes)) := by
    intro due
    induction due with
    | nil =>
      intro before hfold
      rw [List.foldlM_nil, pure_eq_ok] at hfold
      simp [hfold]
    | cons i due ih =>
      intro before hfold
      simp only [List.foldlM_cons, bind_eq_ok, pure_eq_ok] at hfold
      obtain ⟨middle, ⟨setting, -, rfl⟩, hfold⟩ := hfold
      refine (ih _ hfold).trans ?_
      rw [List.map_cons, List.append_cons]
      exact (addToGroup_perm _ _ _).append_right _
  have hsources : sourcesOf shares = groups.flatMap (·.2) ∧
      ∀ s ∈ shares, ShareSound intervals s := by
    clear hgroups hperm h
    induction hshares with
    | nil => simp [sourcesOf]
    | cons hfirst hrest ih =>
      obtain ⟨hsource, -, hsound⟩ := share_ok hfirst
      refine ⟨?_, ?_⟩
      · rw [sourcesOf, List.flatMap_cons, List.flatMap_cons, hsource, ← ih.1]
        rfl
      · intro s hs
        rcases List.mem_cons.1 hs with rfl | hs
        · exact hsound
        · exact ih.2 s hs
  refine ⟨hsources.2, ?_⟩
  rw [hsources.1]
  exact hperm _ [] hgroups

end Shares

end TokenHub.Attendance
