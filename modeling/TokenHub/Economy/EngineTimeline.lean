import Mathlib.Data.List.Sort
import TokenHub.Economy.Rows
import TokenHub.Lib.Search

set_option autoImplicit false

namespace TokenHub.Economy

open Lib.Bisect Lib.Timeline

section Readers

variable (S : EconomyState) (classId : String)

def EconomyState.versionsOf : List EconomicEngine := S.engines.filter (·.classId = classId)

def engineNewestFirst (engines : List EconomicEngine) : List EconomicEngine :=
  engines.insertionSort (fun a b ↦ b.rank ≤ a.rank)

structure EconomicEngineTimeline where
  versions : List EconomicEngine
  starts : List Instant

def EconomicEngineTimeline.init (versions : List EconomicEngine) : EconomicEngineTimeline where
  versions := versions.reverse
  starts := versions.reverse.map (·.effectiveAt)

def EconomicEngineTimeline.at (T : EconomicEngineTimeline) (instant : Instant) :
    Option EconomicEngine :=
  match bisectRight T.starts instant with
  | 0 => none
  | index + 1 => T.versions[index]?

def economicEngineTimeline : EconomicEngineTimeline :=
  if classId = "" then .init [] else .init (engineNewestFirst (S.versionsOf classId))

/-- The order of the query of `pending_economic_engines`: it names no third column. -/
def ListedBefore (a b : EconomicEngine) : Prop :=
  a.effectiveAt < b.effectiveAt ∨ a.effectiveAt = b.effectiveAt ∧ b.createdAt ≤ a.createdAt

instance : DecidableRel ListedBefore := fun _ _ ↦ inferInstanceAs (Decidable (_ ∨ _))

structure PendingRows (asOf : Instant) (rows : List EconomicEngine) : Prop where
  perm : rows.Perm ((S.versionsOf classId).filter (asOf < ·.effectiveAt))
  ordered : rows.Pairwise ListedBefore

/-- `winners.setdefault(row.effective_at, row)`, of which only the values are held. -/
def setdefault (winners : List EconomicEngine) (row : EconomicEngine) : List EconomicEngine :=
  if winners.any (·.effectiveAt = row.effectiveAt) then winners else winners ++ [row]

def pendingEconomicEngines (rows : List EconomicEngine) : List EconomicEngine :=
  if classId = "" then [] else rows.foldl setdefault []

end Readers

section Ranks

variable {S : EconomyState} {classId : String} {a b : EconomicEngine}

def EconomyState.Identified (S : EconomyState) : Prop :=
  (S.engines.map (·.economicVersionId)).Nodup

theorem EconomyState.Identified.eq (h : S.Identified) (ha : a ∈ S.versionsOf classId)
    (hb : b ∈ S.versionsOf classId) (hid : a.economicVersionId = b.economicVersionId) : a = b :=
  List.inj_on_of_nodup_map h (List.mem_of_mem_filter ha) (List.mem_of_mem_filter hb) hid

theorem rank_le_iff : a.rank ≤ b.rank ↔ a.effectiveAt < b.effectiveAt ∨
    a.effectiveAt = b.effectiveAt ∧ (a.createdAt < b.createdAt ∨
      a.createdAt = b.createdAt ∧ a.economicVersionId ≤ b.economicVersionId) := by
  simp only [EconomicEngine.rank, Prod.Lex.le_iff, ofLex_toLex]

theorem effectiveAt_le_of_rank (h : a.rank ≤ b.rank) : a.effectiveAt ≤ b.effectiveAt := by
  rcases rank_le_iff.1 h with h | h
  · exact h.le
  · exact h.1.le

theorem EconomyState.Identified.rank_inj (h : S.Identified) (ha : a ∈ S.versionsOf classId)
    (hb : b ∈ S.versionsOf classId) (hrank : a.rank = b.rank) : a = b := by
  apply h.eq ha hb
  rw [EconomicEngine.rank, EconomicEngine.rank, toLex_inj, Prod.mk.injEq, toLex_inj,
    Prod.mk.injEq] at hrank
  exact hrank.2.2

theorem effectiveAt_eq_some_iff (h : S.Identified) (hclass : classId ≠ "") {t : Instant} :
    economicEngineEffectiveAt S classId t = some a ↔ a ∈ S.versionsOf classId ∧
      a.effectiveAt ≤ t ∧ ∀ u ∈ S.versionsOf classId, u.effectiveAt ≤ t → u.rank ≤ a.rank := by
  rw [economicEngineEffectiveAt, if_neg hclass]
  exact inForce_eq_some_iff (fun u hu w hw ↦ h.rank_inj hu hw)

end Ranks

section Timeline

variable {S : EconomyState} {classId : String}

instance : Std.Total (fun a b : EconomicEngine ↦ b.rank ≤ a.rank) :=
  ⟨fun a b ↦ le_total b.rank a.rank⟩

instance : IsTrans EconomicEngine (fun a b ↦ b.rank ≤ a.rank) :=
  ⟨fun _ _ _ hab hbc ↦ hbc.trans hab⟩

theorem reverse_newestFirst_ordered (engines : List EconomicEngine) :
    (engineNewestFirst engines).reverse.Pairwise (fun a b ↦ a.rank ≤ b.rank) :=
  List.pairwise_reverse.2 (List.pairwise_insertionSort _ engines)

theorem mem_reverse_newestFirst {engines : List EconomicEngine} {a : EconomicEngine} :
    a ∈ (engineNewestFirst engines).reverse ↔ a ∈ engines := by
  rw [List.mem_reverse, engineNewestFirst, List.mem_insertionSort]

/-- Whatever the instant, the bisection finds the version that the resolver answers. -/
theorem timeline_at (h : S.Identified) (t : Instant) :
    (economicEngineTimeline S classId).at t = economicEngineEffectiveAt S classId t := by
  by_cases hclass : classId = ""
  · rw [economicEngineTimeline, economicEngineEffectiveAt, if_pos hclass, if_pos hclass]
    rfl
  rw [economicEngineTimeline, if_neg hclass, EconomicEngineTimeline.init,
    EconomicEngineTimeline.at]
  have hmem := @mem_reverse_newestFirst (S.versionsOf classId)
  have hordered := reverse_newestFirst_ordered (S.versionsOf classId)
  generalize (engineNewestFirst (S.versionsOf classId)).reverse = versions at hmem hordered
  have hstarts : (versions.map (·.effectiveAt)).Pairwise (· ≤ ·) :=
    List.pairwise_map.2 (hordered.imp effectiveAt_le_of_rank)
  obtain ⟨hle, hsplits⟩ := bisectRight_splits hstarts t
  generalize bisectRight (versions.map (·.effectiveAt)) t = index at hle hsplits
  have hget : ∀ {i : ℕ} {v : EconomicEngine}, versions[i]? = some v →
      (versions.map (·.effectiveAt))[i]? = some v.effectiveAt := by
    intro i v hv
    rw [List.getElem?_map, hv]
    rfl
  cases index with
  | zero =>
    symm
    rw [economicEngineEffectiveAt, if_neg hclass]
    apply inForce_eq_none_iff.2
    intro v hv
    obtain ⟨i, hi⟩ := List.mem_iff_getElem?.1 (hmem.2 hv)
    exact not_le.2 (hsplits.high i _ (hget hi) (Nat.zero_le i))
  | succ index =>
    have hlt : index < versions.length := by
      rw [List.length_map] at hle
      omega
    have hsome := List.getElem?_eq_getElem hlt
    simp only
    rw [hsome, eq_comm, effectiveAt_eq_some_iff h hclass]
    refine ⟨hmem.1 (List.getElem_mem hlt), hsplits.low _ _ (hget hsome) (by omega), ?_⟩
    intro u hu hut
    obtain ⟨j, hj⟩ := List.mem_iff_getElem?.1 (hmem.2 hu)
    obtain ⟨hjlt, rfl⟩ := List.getElem?_eq_some_iff.1 hj
    have hjle : j ≤ index := by
      by_contra hgt
      exact absurd hut (not_le.2 (hsplits.high j _ (hget hj) (by omega)))
    rcases Nat.lt_or_eq_of_le hjle with hjlt' | rfl
    · exact List.pairwise_iff_getElem.1 hordered _ _ hjlt hlt hjlt'
    · exact le_rfl

end Timeline

section Pending

variable {S : EconomyState} {classId : String} {rows : List EconomicEngine}

theorem listedBefore_total (a b : EconomicEngine) : ListedBefore a b ∨ ListedBefore b a := by
  unfold ListedBefore
  lia

theorem ListedBefore.trans {a b c : EconomicEngine} (hab : ListedBefore a b)
    (hbc : ListedBefore b c) : ListedBefore a c := by
  unfold ListedBefore at *
  lia

structure FirstOfDates (rows winners : List EconomicEngine) : Prop where
  mem : ∀ e ∈ winners, e ∈ rows
  dates : winners.Pairwise (·.effectiveAt < ·.effectiveAt)
  latest : ∀ e ∈ winners, ∀ r ∈ rows, r.effectiveAt = e.effectiveAt → r.createdAt ≤ e.createdAt
  complete : ∀ r ∈ rows, ∃ e ∈ winners, e.effectiveAt = r.effectiveAt

theorem FirstOfDates.setdefault {winners : List EconomicEngine} {row : EconomicEngine}
    (h : FirstOfDates rows winners) (hrow : ∀ r ∈ rows, ListedBefore r row) :
    FirstOfDates (rows ++ [row]) (setdefault winners row) := by
  unfold Economy.setdefault
  split_ifs with hany
  · rw [List.any_eq_true] at hany
    obtain ⟨w, hw, hdate⟩ := hany
    rw [decide_eq_true_eq] at hdate
    refine ⟨fun e he ↦ List.mem_append_left _ (h.mem e he), h.dates, ?_, ?_⟩
    · intro e he r hr hre
      rcases List.mem_append.1 hr with hr | hr
      · exact h.latest e he r hr hre
      · obtain rfl := List.mem_singleton.1 hr
        have hbefore := hrow e (h.mem e he)
        unfold ListedBefore at hbefore
        lia
    · intro r hr
      rcases List.mem_append.1 hr with hr | hr
      · exact h.complete r hr
      · exact ⟨w, hw, by rw [hdate, List.mem_singleton.1 hr]⟩
  · have hnone : ∀ w ∈ winners, w.effectiveAt ≠ row.effectiveAt := by
      intro w hw hdate
      exact hany (List.any_eq_true.2 ⟨w, hw, decide_eq_true hdate⟩)
    refine ⟨?_, ?_, ?_, ?_⟩
    · intro e he
      rcases List.mem_append.1 he with he | he
      · exact List.mem_append_left _ (h.mem e he)
      · exact List.mem_append_right _ he
    · rw [List.pairwise_append]
      refine ⟨h.dates, List.pairwise_singleton _ _, ?_⟩
      intro w hw r hr
      obtain rfl := List.mem_singleton.1 hr
      have hbefore := hrow w (h.mem w hw)
      have hne := hnone w hw
      unfold ListedBefore at hbefore
      lia
    · intro e he r hr hre
      rcases List.mem_append.1 he with hwinner | hlast
      · rcases List.mem_append.1 hr with hold | hnew
        · exact h.latest e hwinner r hold hre
        · rw [List.mem_singleton.1 hnew] at hre
          exact absurd hre.symm (hnone e hwinner)
      · rw [List.mem_singleton.1 hlast] at hre ⊢
        rcases List.mem_append.1 hr with hold | hnew
        · obtain ⟨w, hw, hdate⟩ := h.complete r hold
          exact absurd (hdate.trans hre) (hnone w hw)
        · rw [List.mem_singleton.1 hnew]
    · intro r hr
      rcases List.mem_append.1 hr with hr | hr
      · obtain ⟨w, hw, hdate⟩ := h.complete r hr
        exact ⟨w, List.mem_append_left _ hw, hdate⟩
      · exact ⟨row, by simp, by rw [List.mem_singleton.1 hr]⟩

theorem firstOfDates_foldl (h : rows.Pairwise ListedBefore) :
    FirstOfDates rows (rows.foldl setdefault []) := by
  induction rows using List.reverseRecOn with
  | nil => exact ⟨by simp, List.Pairwise.nil, by simp, by simp⟩
  | append_singleton rows row ih =>
    obtain ⟨hrows, -, hrow⟩ := List.pairwise_append.1 h
    rw [List.foldl_append]
    exact (ih hrows).setdefault (fun r hr ↦ hrow r hr row (by simp))

structure LatestOfDate (S : EconomyState) (classId : String) (asOf : Instant)
    (e : EconomicEngine) : Prop where
  mem : e ∈ S.versionsOf classId
  ahead : asOf < e.effectiveAt
  latest : ∀ v ∈ S.versionsOf classId, v.effectiveAt = e.effectiveAt → v.createdAt ≤ e.createdAt

variable {asOf : Instant} {e : EconomicEngine}

theorem PendingRows.mem (h : PendingRows S classId asOf rows) :
    e ∈ rows ↔ e ∈ S.versionsOf classId ∧ asOf < e.effectiveAt := by
  rw [h.perm.mem_iff, List.mem_filter, decide_eq_true_eq]

theorem PendingRows.latestOfDate (h : PendingRows S classId asOf rows)
    (he : e ∈ rows.foldl setdefault []) : LatestOfDate S classId asOf e := by
  have hfirst := firstOfDates_foldl h.ordered
  obtain ⟨hmem, hahead⟩ := h.mem.1 (hfirst.mem e he)
  refine ⟨hmem, hahead, ?_⟩
  intro v hv hdate
  exact hfirst.latest e he v (h.mem.2 ⟨hv, by rw [hdate]; exact hahead⟩) hdate

theorem mem_setdefault_of_mem {winners : List EconomicEngine} {row : EconomicEngine}
    (h : e ∈ winners) : e ∈ setdefault winners row := by
  unfold setdefault
  split_ifs
  · exact h
  · exact List.mem_append_left _ h

theorem mem_foldl_of_mem {winners : List EconomicEngine} (h : e ∈ winners) :
    e ∈ rows.foldl setdefault winners := by
  induction rows generalizing winners with
  | nil => exact h
  | cons row rows ih => exact ih (mem_setdefault_of_mem h)

theorem mem_foldl_of_first {pre post : List EconomicEngine}
    (hpre : pre.Pairwise ListedBefore) (hdates : ∀ r ∈ pre, r.effectiveAt ≠ e.effectiveAt) :
    e ∈ (pre ++ e :: post).foldl setdefault [] := by
  rw [List.foldl_append, List.foldl_cons]
  apply mem_foldl_of_mem
  unfold setdefault
  rw [if_neg]
  · simp
  · rw [List.any_eq_true]
    intro hany
    obtain ⟨w, hw, hdate⟩ := hany
    exact hdates w ((firstOfDates_foldl hpre).mem w hw) (of_decide_eq_true hdate)

instance : Std.Total ListedBefore := ⟨listedBefore_total⟩

instance : IsTrans EconomicEngine ListedBefore := ⟨fun _ _ _ ↦ ListedBefore.trans⟩

/-- Among rows that tie in both columns, the database may answer any one first. -/
theorem LatestOfDate.exists_rows (h : LatestOfDate S classId asOf e) :
    ∃ rows, PendingRows S classId asOf rows ∧ e ∈ rows.foldl setdefault [] := by
  have hfiltered : e ∈ (S.versionsOf classId).filter (asOf < ·.effectiveAt) := by
    rw [List.mem_filter, decide_eq_true_eq]
    exact ⟨h.mem, h.ahead⟩
  obtain ⟨before, after, hsplit⟩ := List.append_of_mem hfiltered
  have hrest : ∀ v ∈ before ++ after, v ∈ S.versionsOf classId := by
    intro v hv
    apply List.mem_of_mem_filter (p := fun v ↦ asOf < v.effectiveAt)
    rw [hsplit]
    rcases List.mem_append.1 hv with hv | hv
    · exact List.mem_append_left _ hv
    · exact List.mem_append_right _ (List.mem_cons_of_mem _ hv)
  let pre := ((before ++ after).filter (fun v ↦ ¬ ListedBefore e v)).insertionSort ListedBefore
  let post := ((before ++ after).filter (fun v ↦ ListedBefore e v)).insertionSort ListedBefore
  have hpre : ∀ v ∈ pre, v ∈ before ++ after ∧ ¬ ListedBefore e v := by
    intro v hv
    simpa using List.mem_filter.1 ((List.mem_insertionSort _).1 hv)
  have hpost : ∀ v ∈ post, ListedBefore e v := by
    intro v hv
    simpa using (List.mem_filter.1 ((List.mem_insertionSort _).1 hv)).2
  have hordered : pre.Pairwise ListedBefore := List.pairwise_insertionSort _ _
  refine ⟨pre ++ e :: post, ⟨?_, ?_⟩, ?_⟩
  · have hparts : (pre ++ post).Perm (before ++ after) := by
      refine ((List.perm_insertionSort _ _).append (List.perm_insertionSort _ _)).trans ?_
      refine List.perm_append_comm.trans ?_
      simpa using List.filter_append_perm (fun v ↦ decide (ListedBefore e v)) (before ++ after)
    rw [hsplit]
    exact List.perm_middle.trans ((hparts.cons e).trans List.perm_middle.symm)
  · rw [List.pairwise_append, List.pairwise_cons]
    refine ⟨hordered, ⟨hpost, List.pairwise_insertionSort _ _⟩, ?_⟩
    intro v hv r hr
    have hve : ListedBefore v e := (listedBefore_total e v).resolve_left (hpre v hv).2
    rcases List.mem_cons.1 hr with rfl | hr
    · exact hve
    · exact hve.trans (hpost r hr)
  · apply mem_foldl_of_first hordered
    intro v hv hdate
    obtain ⟨hmem, hnot⟩ := hpre v hv
    have hlatest := h.latest v (hrest v hmem) hdate
    exact hnot (.inr ⟨hdate.symm, hlatest⟩)

theorem effectiveAt_date (hids : S.Identified) (hclass : classId ≠ "") {v : EconomicEngine}
    (hv : v ∈ S.versionsOf classId)
    (he : economicEngineEffectiveAt S classId v.effectiveAt = some e) :
    e.effectiveAt = v.effectiveAt ∧ e ∈ S.versionsOf classId ∧
      ∀ u ∈ S.versionsOf classId, u.effectiveAt = v.effectiveAt → u.createdAt ≤ e.createdAt := by
  obtain ⟨hmem, hle, hmax⟩ := (effectiveAt_eq_some_iff hids hclass).1 he
  have hdate : e.effectiveAt = v.effectiveAt :=
    le_antisymm hle (effectiveAt_le_of_rank (hmax v hv le_rfl))
  refine ⟨hdate, hmem, ?_⟩
  intro u hu hudate
  have hrank := rank_le_iff.1 (hmax u hu hudate.le)
  lia

/-- The bisection of the timeline finds what the resolver does, and the pending versions are, once
a date and soonest first, those that the resolver will answer at the future dates. -/
structure TimelineIsResolver (S : EconomyState) (classId : String) (asOf : Instant) : Prop where
  at_eq : ∀ t, (economicEngineTimeline S classId).at t = economicEngineEffectiveAt S classId t
  soonest : ∀ rows, PendingRows S classId asOf rows →
    (pendingEconomicEngines classId rows).Pairwise (·.effectiveAt < ·.effectiveAt)
  pending : ∀ rows, PendingRows S classId asOf rows → ∀ e,
    e ∈ pendingEconomicEngines classId rows ↔ ∃ v ∈ S.versionsOf classId,
      asOf < v.effectiveAt ∧ economicEngineEffectiveAt S classId v.effectiveAt = some e

/-- The readers agree exactly where no two versions share a future date and the last creation
instant of that date. -/
theorem timeline_is_resolver_iff (S : EconomyState) (hids : S.Identified) (classId : String)
    (hclass : classId ≠ "") (asOf : Instant) : TimelineIsResolver S classId asOf ↔
      ∀ a b, LatestOfDate S classId asOf a → LatestOfDate S classId asOf b →
        a.effectiveAt = b.effectiveAt → a = b := by
  have hpending : ∀ rows, pendingEconomicEngines classId rows = rows.foldl setdefault [] :=
    fun rows ↦ if_neg hclass
  constructor
  · intro h a b ha hb hdate
    have hanswer : ∀ x, LatestOfDate S classId asOf x →
        economicEngineEffectiveAt S classId x.effectiveAt = some x := by
      intro x hx
      obtain ⟨rows, hrows, hmem⟩ := hx.exists_rows
      rw [← hpending rows] at hmem
      obtain ⟨v, hv, -, hforce⟩ := (h.pending rows hrows x).1 hmem
      rwa [(effectiveAt_date hids hclass hv hforce).1]
    have hsame := hanswer a ha
    rw [hdate, hanswer b hb] at hsame
    exact (Option.some.inj hsame).symm
  · intro h
    have hwinner : ∀ w, LatestOfDate S classId asOf w →
        economicEngineEffectiveAt S classId w.effectiveAt = some w := by
      intro w hw
      cases hforce : economicEngineEffectiveAt S classId w.effectiveAt with
      | none =>
        rw [economicEngineEffectiveAt, if_neg hclass, inForce_eq_none_iff] at hforce
        exact absurd le_rfl (hforce w hw.mem)
      | some e =>
        obtain ⟨hdate, hmem, hlatest⟩ := effectiveAt_date hids hclass hw.mem hforce
        have he : LatestOfDate S classId asOf e := by
          refine ⟨hmem, by rw [hdate]; exact hw.ahead, ?_⟩
          intro v hv hvdate
          exact hlatest v hv (hvdate.trans hdate)
        rw [h e w he hw hdate]
    refine ⟨timeline_at hids, ?_, ?_⟩
    · intro rows hrows
      rw [hpending]
      exact (firstOfDates_foldl hrows.ordered).dates
    · intro rows hrows e
      rw [hpending]
      constructor
      · intro he
        have hlatest := hrows.latestOfDate he
        exact ⟨e, hlatest.mem, hlatest.ahead, hwinner e hlatest⟩
      · rintro ⟨v, hv, hahead, hforce⟩
        obtain ⟨w, hw, hdate⟩ :=
          (firstOfDates_foldl hrows.ordered).complete v (hrows.mem.2 ⟨hv, hahead⟩)
        have hanswer := hwinner w (hrows.latestOfDate hw)
        rw [hdate, hforce] at hanswer
        rwa [Option.some.inj hanswer]

def sampleVersion (economicVersionId : String) (effectiveAt : Instant) : EconomicEngine :=
  ⟨economicVersionId, "c", none, 0, effectiveAt, fun _ ↦ .null⟩

def sampleVersions (second : Instant) : EconomyState :=
  ⟨["c"], fun _ ↦ none, [sampleVersion "a" 1, sampleVersion "b" second], []⟩

theorem timeline_is_resolver_dated : TimelineIsResolver (sampleVersions 2) "c" 0 := by
  refine (timeline_is_resolver_iff (sampleVersions 2) (by unfold EconomyState.Identified; decide) "c"
    (by decide) 0).2 ?_
  intro a b ha hb hdate
  have hmem : ∀ v ∈ (sampleVersions 2).versionsOf "c",
      v = sampleVersion "a" 1 ∨ v = sampleVersion "b" 2 := by
    simp [EconomyState.versionsOf, sampleVersions]
  rcases hmem a ha.mem with rfl | rfl <;> rcases hmem b hb.mem with rfl | rfl
  · rfl
  · exact absurd hdate (by decide)
  · exact absurd hdate (by decide)
  · rfl

/-- Two versions of one date and one creation instant: the one with the lesser id is listed as the
one to come. -/
theorem tied_version_listed :
    PendingRows (sampleVersions 1) "c" 0 [sampleVersion "a" 1, sampleVersion "b" 1] ∧
      pendingEconomicEngines "c" [sampleVersion "a" 1, sampleVersion "b" 1] =
        [sampleVersion "a" 1] ∧
      (economicEngineEffectiveAt (sampleVersions 1) "c" 1).map (·.economicVersionId) = some "b" ∧
      ¬ TimelineIsResolver (sampleVersions 1) "c" 0 := by
  have hrows : PendingRows (sampleVersions 1) "c" 0
      [sampleVersion "a" 1, sampleVersion "b" 1] := by
    refine ⟨?_, ?_⟩
    · rfl
    · simp [ListedBefore, sampleVersion]
  have hlisted : pendingEconomicEngines "c" [sampleVersion "a" 1, sampleVersion "b" 1] =
      [sampleVersion "a" 1] := rfl
  have hforce : (economicEngineEffectiveAt (sampleVersions 1) "c" 1).map (·.economicVersionId) =
      some "b" := by decide +kernel
  refine ⟨hrows, hlisted, hforce, ?_⟩
  intro h
  obtain ⟨v, hv, -, heq⟩ := (h.pending _ hrows (sampleVersion "a" 1)).1 (by simp [hlisted])
  have hdate : v.effectiveAt = 1 := by
    have hmem : v = sampleVersion "a" 1 ∨ v = sampleVersion "b" 1 := by
      simpa [EconomyState.versionsOf, sampleVersions, sampleVersion] using hv
    rcases hmem with rfl | rfl <;> rfl
  rw [hdate] at heq
  rw [heq] at hforce
  exact absurd hforce (by decide)

end Pending

end TokenHub.Economy
