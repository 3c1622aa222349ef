import TokenHub.Ledger.ReconstructedSettlement

set_option autoImplicit false

namespace TokenHub.Ledger

open Lib.Decimals Lib.Digits Lib.Checks Lib.Tally
open Attendance (HashKey HistoricalReconstructedEvent HistoricalReconstructedGraph
  HistoricalReconstructedRecovery PairId PairKey ReplayContext getOr hashKey)

section Keys

variable {allocations : List (PairId × ℤ)} {k : PairId} {n : ℤ} {key : PairKey}

theorem pairKeyOf_injective : Function.Injective pairKeyOf := by
  intro k l h
  simp only [pairKeyOf, Prod.mk.injEq, HashKey.number.injEq, Nat.cast_inj] at h
  exact Prod.ext h.1 h.2

theorem allocatedTo_of_mem (hkeys : (allocations.map (·.1)).Nodup) (h : (k, n) ∈ allocations) :
    allocatedTo allocations (pairKeyOf k) = n := by
  rw [allocatedTo]
  cases hfind : allocations.find? fun e ↦ pairKeyOf e.1 = pairKeyOf k with
  | none =>
    rw [List.find?_eq_none] at hfind
    exact absurd (decide_eq_true rfl) (hfind _ h)
  | some e =>
    have hkey : e.1 = k := pairKeyOf_injective (by simpa using List.find?_some hfind)
    rw [List.inj_on_of_nodup_map hkeys (List.mem_of_find?_eq_some hfind) h hkey]
    rfl

theorem mem_of_allocatedTo (h : 0 ≤ allocatedTo allocations key) :
    ∃ e ∈ allocations, pairKeyOf e.1 = key ∧ e.2 = allocatedTo allocations key := by
  rw [allocatedTo] at h ⊢
  cases hfind : allocations.find? fun e ↦ pairKeyOf e.1 = key with
  | none =>
    rw [hfind] at h
    exact absurd h (by decide)
  | some e =>
    exact ⟨e, List.mem_of_find?_eq_some hfind, by simpa using List.find?_some hfind, rfl⟩

end Keys

section Steps

variable {amount cents : ℤ} {allocations : List (PairId × ℤ)} {p p' : OriginProgress}
  {association : HistoricalReconstructedRecovery} {summary : PyValue}
  {graph : HistoricalReconstructedGraph} {evidence : SettlementEvidence}
  {business : List SignedBusinessEvent} {o : SettledCredit} {r : HistoricalRow}
  {rows : List HistoricalRow}

/-- What a recovery can be: of one interval, of all of an untouched credit, or of the rest. -/
inductive Recovers (amount : ℤ) (allocations : List (PairId × ℤ)) (p : OriginProgress)
    (cents : ℤ) : List (PairKey × ℤ) → Prop
  | interval (key : PairKey) : p.running ≠ amount →
      cents = allocatedTo allocations key - Lib.Tally.amount key p.intervalRecovered →
      Recovers amount allocations p cents (Lib.Tally.add key cents p.intervalRecovered)
  | rest : cents = amount - p.running → Recovers amount allocations p cents p.intervalRecovered

theorem recoverByKind_ok {out : List (PairKey × ℤ)}
    (h : recoverByKind amount allocations p association summary cents = .ok out) :
    Recovers amount allocations p cents out := by
  rw [recoverByKind] at h
  split_ifs at h
  · simp only [bind_eq_ok, require_eq_ok, pure_eq_ok] at h
    obtain ⟨-, -, key, -, -, ⟨hrunning, hcents⟩, -, -, rfl⟩ := h
    exact .interval key hrunning hcents
  · rw [require_bind_eq_ok, pure_eq_ok] at h
    obtain ⟨⟨hrunning, hcents⟩, rfl⟩ := h
    exact .rest (by omega)
  · rw [require_bind_eq_ok, pure_eq_ok] at h
    obtain ⟨hcents, rfl⟩ := h
    exact .rest hcents

theorem recoverRow_ok (h : recoverRow graph evidence business o p r = .ok p') :
    ∃ cents, 0 < cents ∧ r.amountCents = -cents ∧ p'.running = p.running + cents ∧
      Recovers o.credit.amountCents o.allocations p cents p'.intervalRecovered := by
  rw [recoverRow, demand_bind_eq_ok] at h
  obtain ⟨cents, -, h⟩ := h
  dsimp only at h
  rw [require_bind_eq_ok] at h
  obtain ⟨⟨-, -, hpositive, hamount, -⟩, h⟩ := h
  split at h
  · simp only [bind_eq_ok, pure_eq_ok] at h
    obtain ⟨signed, -, -, -, recovered, hrecovered, rfl⟩ := h
    exact ⟨cents, hpositive, hamount, rfl, recoverByKind_ok hrecovered⟩
  · cases h

/-- What the recoveries of a credit keep: an interval is recovered once and whole, and until the
credit is exhausted nothing but intervals has been. -/
structure OriginSound (amount : ℤ) (allocations : List (PairId × ℤ)) (p : OriginProgress) :
    Prop where
  keys : (p.intervalRecovered.map (·.1)).Nodup
  whole : ∀ e ∈ p.intervalRecovered, 0 < e.2 ∧ e.2 = allocatedTo allocations e.1
  settled : amount ≤ p.running ∨ p.running = (p.intervalRecovered.map (·.2)).sum

theorem OriginSound.fresh (hp : OriginSound amount allocations p) {key : PairKey}
    (hpositive : 0 < cents)
    (hcents : cents = allocatedTo allocations key - Lib.Tally.amount key p.intervalRecovered) :
    key ∉ p.intervalRecovered.map (·.1) := by
  intro hmem
  obtain ⟨e, he, rfl⟩ := List.mem_map.1 hmem
  have hamount : Lib.Tally.amount e.1 p.intervalRecovered = e.2 := amount_of_mem hp.keys he
  have hwhole := (hp.whole e he).2
  omega

theorem OriginSound.step (hp : OriginSound amount allocations p) (hpositive : 0 < cents)
    (hrunning : p'.running = p.running + cents)
    (h : Recovers amount allocations p cents p'.intervalRecovered) :
    OriginSound amount allocations p' := by
  generalize hout : p'.intervalRecovered = out at h
  cases h with
  | interval key hopen hcents =>
    have hfresh := hp.fresh hpositive hcents
    rw [amount_eq_zero hfresh, sub_zero] at hcents
    rw [add_of_fresh hfresh] at hout
    refine ⟨?_, ?_, ?_⟩
    · rw [hout, ← add_of_fresh hfresh]
      exact nodup_add hp.keys
    · intro e he
      rw [hout] at he
      rcases List.mem_append.1 he with he | he
      · exact hp.whole e he
      · rw [List.mem_singleton.1 he]
        exact ⟨hpositive, hcents⟩
    · rw [hout, hrunning]
      rcases hp.settled with hfull | hsum
      · exact .inl (by omega)
      · refine .inr ?_
        rw [hsum]
        simp
  | rest hcents =>
    refine ⟨hout ▸ hp.keys, hout ▸ hp.whole, .inl ?_⟩
    omega

theorem OriginSound.fold (hp : OriginSound o.credit.amountCents o.allocations p)
    (h : rows.foldlM (recoverRow graph evidence business o) p = .ok p') :
    OriginSound o.credit.amountCents o.allocations p' ∧
      p'.running = p.running + (rows.map fun r ↦ -r.amountCents).sum ∧
      ∀ r ∈ rows, r.amountCents < 0 := by
  induction rows generalizing p with
  | nil =>
    rw [List.foldlM_nil, pure_eq_ok] at h
    subst h
    exact ⟨hp, by simp, by simp⟩
  | cons r rows ih =>
    rw [List.foldlM_cons, bind_eq_ok] at h
    obtain ⟨middle, hrow, h⟩ := h
    obtain ⟨cents, hpositive, hamount, hrunning, hrecovers⟩ := recoverRow_ok hrow
    obtain ⟨hsound, hsum, hnegative⟩ := ih (hp.step hpositive hrunning hrecovers) h
    refine ⟨hsound, ?_, ?_⟩
    · rw [hsum, hrunning, List.map_cons, List.sum_cons]
      omega
    · intro u hu
      rcases List.mem_cons.1 hu with rfl | hu
      · omega
      · exact hnegative u hu

end Steps

section Credits

variable {decimal : String → Option Decimal} {graph : HistoricalReconstructedGraph}
  {business : List SignedBusinessEvent} {records : List HistoricalRow}
  {originals originals' : List SettledCredit} {assigned assigned' : List LegacyRecovery}
  {e : HistoricalReconstructedEvent} {events : List HistoricalReconstructedEvent}
  {reversals : List Attendance.HistoricalReconstructedReversal}

structure SettledCredit.Exact (o : SettledCredit) : Prop where
  positive : 0 < o.credit.amountCents
  keys : (o.allocations.map (·.1)).Nodup
  total : (o.allocations.map (·.2)).sum = o.credit.amountCents
  unowed : ∀ e ∈ o.allocations, 0 ≤ e.2

structure CreditsSound (originals : List SettledCredit) : Prop where
  exact : ∀ o ∈ originals, o.Exact
  ids : (originals.map (·.credit.id)).Nodup

theorem bindHistoricalCredit_ok {row : HistoricalRow}
    (h : bindHistoricalCredit e records = .ok row) : row ∈ records ∧ 0 < row.amountCents := by
  unfold bindHistoricalCredit at h
  split at h
  · next found hfound =>
    simp only [bind_eq_ok, pure_eq_ok] at h
    obtain ⟨-, -, -, -, rfl⟩ := h
    have hmem : found ∈ records.filter fun r ↦ 0 < r.amountCents ∧ reachedBy e r :=
      hfound ▸ List.mem_singleton.2 rfl
    rw [List.mem_filter, decide_eq_true_iff] at hmem
    exact ⟨hmem.1, hmem.2.1⟩
  · cases h

theorem CreditsSound.step (hsound : CreditsSound originals)
    (h : settleEvent decimal graph business records originals e = .ok originals') :
    CreditsSound originals' := by
  simp only [settleEvent, bind_eq_ok, Prod.exists] at h
  obtain ⟨-, -, total, allocations, hallocated, h⟩ := h
  split_ifs at h with hzero
  · rw [require_bind_eq_ok, pure_eq_ok] at h
    exact h.2 ▸ hsound
  · simp only [bind_eq_ok, require_eq_ok, pure_eq_ok] at h
    obtain ⟨credit, hcredit, -, -, -, ⟨hfresh, hamount⟩, rfl⟩ := h
    obtain ⟨-, priced, -, -, -, hfair⟩ := allocated_fairly hallocated
    have hkeys : (allocations.map (·.1)).Nodup := by
      rw [List.Nodup, List.pairwise_map]
      exact hfair.sorted.imp fun hlt heq ↦ absurd (congrArg toLex heq) hlt.ne
    refine ⟨?_, ?_⟩
    · intro o ho
      rcases List.mem_append.1 ho with ho | ho
      · exact hsound.exact o ho
      · rw [List.mem_singleton.1 ho]
        exact ⟨(bindHistoricalCredit_ok hcredit).2, hkeys, hfair.exact.trans hamount,
          hfair.unowed⟩
    · rw [List.map_append, List.nodup_append]
      refine ⟨hsound.ids, List.nodup_singleton _, ?_⟩
      intro i hi j hj heq
      obtain ⟨o, ho, rfl⟩ := List.mem_map.1 hi
      rw [List.map_singleton, List.mem_singleton] at hj
      exact hfresh o ho (heq.trans hj)

theorem CreditsSound.fold (hsound : CreditsSound originals)
    (h : events.foldlM (settleEvent decimal graph business records) originals = .ok originals') :
    CreditsSound originals' := by
  induction events generalizing originals with
  | nil =>
    rw [List.foldlM_nil, pure_eq_ok] at h
    exact h ▸ hsound
  | cons e events ih =>
    rw [List.foldlM_cons, bind_eq_ok] at h
    obtain ⟨middle, hstep, h⟩ := h
    exact ih (hsound.step hstep) h

/-- The debits of unsigned reversals: each takes back all of one credit. -/
structure AssignedSound (records : List HistoricalRow) (originals : List SettledCredit)
    (assigned : List LegacyRecovery) : Prop where
  full : ∀ a ∈ assigned, a.debit ∈ records ∧ ∃ o ∈ originals, a.creditId = o.credit.id ∧
    a.debit.amountCents = -o.credit.amountCents
  ids : (assigned.map (·.debit.id)).Nodup

theorem AssignedSound.step (hsound : AssignedSound records originals assigned)
    {reversal : Attendance.HistoricalReconstructedReversal}
    (h : assignReversal records originals assigned reversal = .ok assigned') :
    AssignedSound records originals assigned' := by
  unfold assignReversal at h
  split at h
  · rw [Except.ok.injEq] at h
    exact h ▸ hsound
  · next o ho =>
    split at h
    · next debit hdebit =>
      rw [require_bind_eq_ok, pure_eq_ok] at h
      obtain ⟨⟨hfresh, hamount, -⟩, rfl⟩ := h
      have hmem := List.mem_singleton.2 (rfl : debit = debit)
      rw [← hdebit, List.mem_filter] at hmem
      refine ⟨?_, ?_⟩
      · intro a ha
        rcases List.mem_append.1 ha with ha | ha
        · exact hsound.full a ha
        · rw [List.mem_singleton.1 ha]
          exact ⟨hmem.1, o, List.mem_of_find?_eq_some ho, rfl, hamount⟩
      · rw [List.map_append, List.nodup_append]
        refine ⟨hsound.ids, List.nodup_singleton _, ?_⟩
        intro i hi j hj heq
        obtain ⟨a, ha, rfl⟩ := List.mem_map.1 hi
        rw [List.map_singleton, List.mem_singleton] at hj
        exact hfresh a ha (heq.trans hj)
    · cases h

theorem AssignedSound.fold (hsound : AssignedSound records originals assigned)
    (h : reversals.foldlM (assignReversal records originals) assigned = .ok assigned') :
    AssignedSound records originals assigned' := by
  induction reversals generalizing assigned with
  | nil =>
    rw [List.foldlM_nil, pure_eq_ok] at h
    exact h ▸ hsound
  | cons reversal reversals ih =>
    rw [List.foldlM_cons, bind_eq_ok] at h
    obtain ⟨middle, hstep, h⟩ := h
    exact ih (hsound.step hstep) h

end Credits

section Origins

variable {decimal : String → Option Decimal} {boundary : ℕ → String → String → Option ℤ}
  {ctx : ReplayContext} {graph : HistoricalReconstructedGraph}
  {rows records : List HistoricalRow} {observations : List HistoricalAuditCoverage}
  {evidence : SettlementEvidence} {business : List SignedBusinessEvent}
  {originals : List SettledCredit} {assigned : List LegacyRecovery} {o : SettledCredit}
  {origin : ReconstructedOrigin} {origins : List ReconstructedOrigin}

/-- The books of a credit: what its intervals have of it, what has been taken back, and what a
recovery of each interval may still take. -/
structure ReconstructedOrigin.Balanced (o : ReconstructedOrigin) : Prop where
  positive : 0 < o.originalCents
  allocated : (o.allocations.map (·.2)).sum = o.originalCents
  counted : o.recoveredCents = (o.recoveries.map fun r ↦ -r.amountCents).sum
  recovered : 0 ≤ o.recoveredCents
  remaining : o.remainingCents = o.originalCents - o.recoveredCents
  capped : 0 ≤ o.remainingCents
  once : (o.recoveredIntervals.map (·.1)).Nodup
  whole : ∀ e ∈ o.recoveredIntervals, ∃ a ∈ o.allocations, pairKeyOf a.1 = e.1 ∧ a.2 = e.2
  asked : ∀ k ∈ o.allocations.map (·.1),
    0 ≤ o.askedCents (some k) ∧ o.askedCents (some k) ≤ o.remainingCents
  exhausted : (o.allocations.map fun a ↦ o.askedCents (some a.1)).sum = o.remainingCents

theorem sum_takenBack_nonneg (h : ∀ r ∈ records, r.amountCents < 0) :
    0 ≤ (records.map fun r ↦ -r.amountCents).sum := by
  apply List.sum_nonneg
  intro n hn
  obtain ⟨r, hr, rfl⟩ := List.mem_map.1 hn
  have := h r hr
  omega

def legacyDebits (assigned : List LegacyRecovery) (o : SettledCredit) : List HistoricalRow :=
  (assigned.filter (·.creditId = o.credit.id)).map (·.debit)

theorem legacyDebits_full (hcredits : CreditsSound originals)
    (hassigned : AssignedSound records originals assigned) (ho : o ∈ originals) {r : HistoricalRow}
    (hr : r ∈ legacyDebits assigned o) : r.amountCents = -o.credit.amountCents := by
  obtain ⟨a, ha, rfl⟩ := List.mem_map.1 hr
  obtain ⟨ha, hid⟩ := List.mem_filter.1 ha
  obtain ⟨-, o', ho', hid', hamount⟩ := hassigned.full a ha
  have hsame : o'.credit.id = o.credit.id := hid'.symm.trans (of_decide_eq_true hid)
  rw [hamount, List.inj_on_of_nodup_map hcredits.ids ho' ho hsame]

/-- An unsigned reversal leaves nothing of its credit. -/
theorem originSound_start (hcredits : CreditsSound originals)
    (hassigned : AssignedSound records originals assigned) (ho : o ∈ originals) :
    OriginSound o.credit.amountCents o.allocations
      ⟨((legacyDebits assigned o).map fun r ↦ -r.amountCents).sum, [], []⟩ := by
  refine ⟨List.nodup_nil, by simp, ?_⟩
  have hfull := fun r hr ↦ legacyDebits_full hcredits hassigned ho (r := r) hr
  have hpositive := (hcredits.exact o ho).positive
  cases hlegacy : legacyDebits assigned o with
  | nil => exact .inr rfl
  | cons r rest =>
    rw [hlegacy] at hfull
    have hr := hfull r (by simp)
    have hrest : 0 ≤ (rest.map fun r ↦ -r.amountCents).sum := by
      apply sum_takenBack_nonneg
      intro u hu
      have := hfull u (by simp [hu])
      omega
    refine .inl ?_
    change o.credit.amountCents ≤ ((r :: rest).map fun r ↦ -r.amountCents).sum
    rw [List.map_cons, List.sum_cons]
    omega

def signedRecoveries (records : List HistoricalRow) (o : SettledCredit) : List HistoricalRow :=
  (records.filter (·.compensationOriginLocator = some o.credit.locator)).insertionSort bySequence

theorem settleOrigin_ok
    (h : settleOrigin graph evidence business boundary records assigned o = .ok origin) :
    ∃ p, (signedRecoveries records o).foldlM (recoverRow graph evidence business o)
        ⟨((legacyDebits assigned o).map fun r ↦ -r.amountCents).sum, [], []⟩ = .ok p ∧
      origin.original = o.credit ∧ origin.originalCents = o.credit.amountCents ∧
      origin.recoveries = legacyDebits assigned o ++ signedRecoveries records o ∧
      origin.recoveredCents = (origin.recoveries.map fun r ↦ -r.amountCents).sum ∧
      origin.recoveredCents ≤ o.credit.amountCents ∧
      origin.remainingCents = o.credit.amountCents - origin.recoveredCents ∧
      origin.allocations = o.allocations ∧ origin.recoveredIntervals = p.intervalRecovered := by
  simp only [settleOrigin, bind_eq_ok, require_eq_ok, pure_eq_ok] at h
  obtain ⟨p, hp, -, hle, rfl⟩ := h
  exact ⟨p, hp, rfl, rfl, rfl, rfl, hle, rfl, rfl, rfl⟩

theorem settleOrigin_balanced (hcredits : CreditsSound originals)
    (hassigned : AssignedSound records originals assigned) (ho : o ∈ originals)
    (h : settleOrigin graph evidence business boundary records assigned o = .ok origin) :
    origin.Balanced := by
  obtain ⟨p, hp, -, horiginal, hrecoveries, hcounted, hle, hremaining, hallocations,
    hintervals⟩ := settleOrigin_ok h
  have hexact := hcredits.exact o ho
  obtain ⟨hsound, hrunning, hnegative⟩ :=
    (originSound_start hcredits hassigned ho).fold hp
  have hrecovered : origin.recoveredCents = p.running := by
    rw [hcounted, hrecoveries, List.map_append, List.sum_append, hrunning]
  have hnonneg : 0 ≤ origin.recoveredCents := by
    rw [hcounted, hrecoveries]
    apply sum_takenBack_nonneg
    intro r hr
    rcases List.mem_append.1 hr with hr | hr
    · have := legacyDebits_full hcredits hassigned ho hr
      have := hexact.positive
      omega
    · exact hnegative r hr
  have hwhole : ∀ e ∈ origin.recoveredIntervals,
      ∃ a ∈ origin.allocations, pairKeyOf a.1 = e.1 ∧ a.2 = e.2 := by
    intro e he
    rw [hintervals] at he
    obtain ⟨hpositive, hvalue⟩ := hsound.whole e he
    obtain ⟨a, ha, hkey, hamount⟩ := mem_of_allocatedTo (hvalue ▸ hpositive.le)
    exact ⟨a, hallocations ▸ ha, hkey, hamount.trans hvalue.symm⟩
  have hasked : ∀ a ∈ origin.allocations, 0 ≤ origin.askedCents (some a.1) := by
    intro a ha
    rw [ReconstructedOrigin.askedCents]
    split_ifs
    · exact le_rfl
    · rw [hallocations] at ha ⊢
      rw [allocatedTo_of_mem hexact.keys ha, hintervals]
      by_cases hmem : pairKeyOf a.1 ∈ p.intervalRecovered.map (·.1)
      · obtain ⟨e, he, hkey⟩ := List.mem_map.1 hmem
        have hamount : amount e.1 p.intervalRecovered = e.2 := amount_of_mem hsound.keys he
        rw [← hkey, hamount, (hsound.whole e he).2, hkey, allocatedTo_of_mem hexact.keys ha,
          sub_self]
      · rw [amount_eq_zero hmem, sub_zero]
        exact hexact.unowed a ha
  have hexhausted : (origin.allocations.map fun a ↦ origin.askedCents (some a.1)).sum =
      origin.remainingCents := by
    by_cases hzero : origin.remainingCents = 0
    · have hall : ∀ a ∈ origin.allocations, origin.askedCents (some a.1) = 0 := by
        intro a _
        rw [ReconstructedOrigin.askedCents, if_pos hzero]
      rw [List.map_congr_left hall, hzero]
      simp
    · have hall : ∀ a ∈ origin.allocations, origin.askedCents (some a.1) =
          a.2 - amount (pairKeyOf a.1) p.intervalRecovered := by
        intro a ha
        rw [hallocations] at ha
        rw [ReconstructedOrigin.askedCents, if_neg hzero, hallocations, hintervals,
          allocatedTo_of_mem hexact.keys ha]
      have hopen : p.running = (p.intervalRecovered.map (·.2)).sum := by
        rcases hsound.settled with hfull | hsum
        · omega
        · exact hsum
      have hmem : ∀ e ∈ p.intervalRecovered,
          e.1 ∈ (origin.allocations.map (·.1)).map pairKeyOf := by
        intro e he
        obtain ⟨a, ha, hkey, -⟩ := hwhole e (hintervals ▸ he)
        exact List.mem_map.2 ⟨a.1, List.mem_map_of_mem ha, hkey⟩
      have hkeys := hallocations ▸ hexact.keys
      have htaken := sum_amount (hkeys.map pairKeyOf_injective) hmem
      rw [List.map_map, List.map_map] at htaken
      have hsplit : (origin.allocations.map (·.2)).sum = (origin.allocations.map fun a ↦
          a.2 - amount (pairKeyOf a.1) p.intervalRecovered).sum +
          (p.intervalRecovered.map (·.2)).sum := by
        rw [← htaken, ← List.sum_map_add]
        simp
      rw [List.map_congr_left hall, hremaining, hrecovered, hopen]
      rw [hallocations, hexact.total, ← hallocations] at hsplit
      omega
  refine ⟨horiginal ▸ hexact.positive, ?_, hcounted, hnonneg, horiginal ▸ hremaining, by omega,
    hintervals ▸ hsound.keys, hwhole, ?_, hexhausted⟩
  · rw [hallocations, hexact.total, horiginal]
  · intro k hk
    obtain ⟨a, ha, rfl⟩ := List.mem_map.1 hk
    refine ⟨hasked a ha, ?_⟩
    rw [← hexhausted]
    refine List.single_le_sum ?_ _ (List.mem_map.2 ⟨a, ha, rfl⟩)
    intro n hn
    obtain ⟨b, hb, rfl⟩ := List.mem_map.1 hn
    exact hasked b hb

/-- No row recovers a credit both as an unsigned reversal and as a signed recovery. -/
theorem settleOrigin_nodup (hcredits : CreditsSound originals)
    (hassigned : AssignedSound records originals assigned) (ho : o ∈ originals)
    (hids : (records.map (·.id)).Nodup)
    (h : settleOrigin graph evidence business boundary records assigned o = .ok origin) :
    origin.recoveries.Nodup := by
  obtain ⟨p, hp, -, -, hrecoveries, hcounted, hle, -⟩ := settleOrigin_ok h
  obtain ⟨-, -, hnegative⟩ := (originSound_start hcredits hassigned ho).fold hp
  have hlegacy : (legacyDebits assigned o).Nodup := by
    apply List.Nodup.of_map HistoricalRow.id
    rw [legacyDebits, List.map_map]
    exact hassigned.ids.sublist (List.filter_sublist.map _)
  have hsigned : (signedRecoveries records o).Nodup :=
    (List.perm_insertionSort _ _).nodup_iff.2 (hids.of_map.filter _)
  rw [hrecoveries]
  cases hfirst : legacyDebits assigned o with
  | nil => exact hsigned
  | cons r rest =>
    -- the reversal took all of the credit, so no signed recovery is left
    cases hnext : signedRecoveries records o with
    | nil =>
      rw [List.append_nil, ← hfirst]
      exact hlegacy
    | cons u others =>
      rw [hcounted, hrecoveries, hfirst, hnext, List.map_append, List.sum_append, List.map_cons,
        List.sum_cons, List.map_cons, List.sum_cons] at hle
      rw [hnext] at hnegative
      have hr := legacyDebits_full hcredits hassigned ho (r := r) (by simp [hfirst])
      have hu := hnegative u (by simp)
      have hpositive := (hcredits.exact o ho).positive
      have hrest : 0 ≤ (rest.map fun r ↦ -r.amountCents).sum := by
        apply sum_takenBack_nonneg
        intro v hv
        have := legacyDebits_full hcredits hassigned ho (r := v) (by simp [hfirst, hv])
        omega
      have hothers : 0 ≤ (others.map fun r ↦ -r.amountCents).sum :=
        sum_takenBack_nonneg fun v hv ↦ hnegative v (by simp [hv])
      omega

theorem validate_ok (h : validateHistoricalSettlement decimal boundary ctx graph rows observations
    evidence business = .ok origins) :
    ∃ originals assigned, CreditsSound originals ∧
      AssignedSound (seatRecords graph rows) originals assigned ∧
      (∀ r ∈ seatRecords graph rows,
        relevantNegative evidence originals (seatRecords graph rows) r →
          accountedFor originals assigned r) ∧
      List.Forall₂ (fun o origin ↦ settleOrigin graph evidence business boundary
        (seatRecords graph rows) assigned o = .ok origin) originals origins := by
  rw [validateHistoricalSettlement, require_bind_eq_ok] at h
  simp only [bind_eq_ok, require_eq_ok, mapM_eq_ok] at h
  obtain ⟨-, -, -, -, -, originals, hcredits, assigned, hassigned, -, haccounted, horigins⟩ := h
  have hstart : CreditsSound [] := ⟨by simp, List.nodup_nil⟩
  have hnone : AssignedSound (seatRecords graph rows) originals [] := ⟨by simp, List.nodup_nil⟩
  exact ⟨originals, assigned, hstart.fold hcredits, hnone.fold hassigned, haccounted, horigins⟩

theorem mem_seatRecords {r : HistoricalRow} : r ∈ seatRecords graph rows ↔
    r ∈ rows ∧ r.classId = graph.classId ∧ r.seatId = graph.targetSeatId ∧
      r.targetSeatId = graph.targetSeatId := by
  rw [seatRecords, List.mem_insertionSort, List.mem_filter, decide_eq_true_iff]

theorem nodup_seatRecords (h : (rows.map (·.id)).Nodup) :
    ((seatRecords graph rows).map (·.id)).Nodup := by
  rw [seatRecords, ((List.perm_insertionSort _ _).map _).nodup_iff]
  exact h.sublist (List.filter_sublist.map _)

theorem originals_settled
    (horigins : List.Forall₂ (fun o origin ↦ settleOrigin graph evidence business boundary records
      assigned o = .ok origin) originals origins) :
    origins.map (·.original) = originals.map (·.credit) := by
  induction horigins with
  | nil => rfl
  | cons hsettled _ ih =>
    obtain ⟨-, -, hcredit, -⟩ := settleOrigin_ok hsettled
    rw [List.map_cons, List.map_cons, hcredit, ih]

theorem accounted_recovered {r : HistoricalRow} (hids : (records.map (·.id)).Nodup)
    (hassigned : AssignedSound records originals assigned)
    (horigins : List.Forall₂ (fun o origin ↦ settleOrigin graph evidence business boundary records
      assigned o = .ok origin) originals origins) (hr : r ∈ records)
    (h : accountedFor originals assigned r) : ∃ origin ∈ origins, r ∈ origin.recoveries := by
  by_cases hversion : r.lineageVersion = some 3
  · obtain ⟨⟨o, ho, hlocator⟩, -⟩ := h.2 hversion
    obtain ⟨origin, horigin, hsettled⟩ := forall₂_exists_right horigins ho
    obtain ⟨-, -, -, -, hrecoveries, -⟩ := settleOrigin_ok hsettled
    refine ⟨origin, horigin, hrecoveries ▸ List.mem_append_right _ ?_⟩
    rw [signedRecoveries, List.mem_insertionSort, List.mem_filter, decide_eq_true_iff]
    exact ⟨hr, hlocator⟩
  · obtain ⟨a, ha, hid⟩ := h.1 hversion
    obtain ⟨hdebit, o, ho, hcredit, -⟩ := hassigned.full a ha
    obtain ⟨origin, horigin, hsettled⟩ := forall₂_exists_right horigins ho
    obtain ⟨-, -, -, -, hrecoveries, -⟩ := settleOrigin_ok hsettled
    refine ⟨origin, horigin, hrecoveries ▸ List.mem_append_left _ ?_⟩
    rw [← List.inj_on_of_nodup_map hids hdebit hr hid]
    exact List.mem_map.2 ⟨a, List.mem_filter.2 ⟨ha, decide_eq_true hcredit⟩, rfl⟩

theorem not_allocated_iff {k : PairId} {o : ReconstructedOrigin} :
    (∃ j ∈ some k, ∀ a ∈ o.allocations, a.1 ≠ j) ↔ k ∉ o.allocations.map (·.1) := by
  simp only [Option.mem_some_iff, exists_eq_left', List.mem_map, not_exists, not_and, ne_eq]

/-- A recovery of an interval is refused for a credit that is pending, and for nothing else. -/
theorem intervalPrincipals_ok {sha256 : String → String} {k : PairId} {locator : String}
    (hbalanced : ∀ o ∈ origins, o.Balanced)
    (hfits : ∀ o ∈ origins, (principalIntent sha256 locator o.original.locator).length ≤ 128) :
    (∃ ps, reconstructedPrincipals sha256 (some k) none locator origins = .ok ps) ↔
      ∀ o ∈ origins, k ∈ o.allocations.map (·.1) → o.pending = false := by
  simp only [reconstructedPrincipals, bind_eq_ok, mapM_eq_ok, require_eq_ok, pure_eq_ok]
  constructor
  · rintro ⟨ps, found, hfound, -⟩ o ho hk
    obtain ⟨p, -, hp⟩ := forall₂_exists_right hfound ho
    have hasked : ¬((∃ i ∈ (none : Option ℕ), o.eventId ≠ i) ∨
        ∃ j ∈ some k, ∀ a ∈ o.allocations, a.1 ≠ j) := by
      rw [not_allocated_iff, not_or]
      exact ⟨by simp, not_not.2 hk⟩
    rw [resolvePrincipal, if_neg hasked, require_bind_eq_ok] at hp
    exact hp.1
  · intro hpending
    have hall : ∀ o ∈ origins, ∃ p, resolvePrincipal sha256 (some k) none locator o = .ok p := by
      intro o ho
      rw [resolvePrincipal]
      split_ifs with hother
      · exact ⟨none, rfl⟩
      · rw [not_allocated_iff, not_or, not_not] at hother
        have hk := hother.2
        rw [require_of (hpending o ho hk), ok_bind]
        dsimp only
        rw [require_of ((hbalanced o ho).asked k hk), ok_bind]
        split_ifs
        · exact ⟨none, rfl⟩
        · rw [require_of (hfits o ho), ok_bind]
          exact ⟨_, rfl⟩
    obtain ⟨found, hfound⟩ := exists_forall₂ hall
    exact ⟨_, found, hfound, (), by simp, rfl⟩

/-- An accepted settlement keeps its books: each credit is allocated to the cent, recovered at
most once and never beyond itself, and no debit of the seat is left out. -/
theorem validated_settlement_balanced (hids : (rows.map (·.id)).Nodup)
    (h : validateHistoricalSettlement decimal boundary ctx graph rows observations evidence
      business = .ok origins) :
    (origins.map (·.original.id)).Nodup ∧
    (∀ o ∈ origins, o.Balanced ∧ o.recoveries.Nodup) ∧
    (∀ r ∈ rows, r.classId = graph.classId → r.seatId = graph.targetSeatId →
      r.targetSeatId = graph.targetSeatId → r.amountCents < 0 →
      r.type ∈ [some "payroll", some "REVERSAL", some "payroll_correction"] →
        (∃ o ∈ origins, r ∈ o.recoveries) ∨ provenUnrelatedReversal evidence
          (origins.map (·.original.locator)) (seatRecords graph rows) r) ∧
    ∀ (sha256 : String → String) (k : PairId) (locator : String),
      (∀ o ∈ origins, (principalIntent sha256 locator o.original.locator).length ≤ 128) →
      ((∃ ps, reconstructedPrincipals sha256 (some k) none locator origins = .ok ps) ↔
        ∀ o ∈ origins, k ∈ o.allocations.map (·.1) → o.pending = false) := by
  obtain ⟨originals, assigned, hcredits, hassigned, haccounted, horigins⟩ := validate_ok h
  have hrecords : ((seatRecords graph rows).map (·.id)).Nodup := nodup_seatRecords hids
  have hbalanced : ∀ o ∈ origins, o.Balanced ∧ o.recoveries.Nodup := by
    intro origin horigin
    obtain ⟨o, ho, hsettled⟩ := forall₂_exists_left horigins horigin
    exact ⟨settleOrigin_balanced hcredits hassigned ho hsettled,
      settleOrigin_nodup hcredits hassigned ho hrecords hsettled⟩
  have hsame := originals_settled horigins
  have hlocators : origins.map (·.original.locator) = originals.map (·.credit.locator) := by
    have := congrArg (List.map HistoricalRow.locator) hsame
    rwa [List.map_map, List.map_map] at this
  refine ⟨?_, hbalanced, ?_, ?_⟩
  · have hcreditIds := congrArg (List.map HistoricalRow.id) hsame
    rw [List.map_map, List.map_map] at hcreditIds
    exact (congrArg List.Nodup hcreditIds).mpr hcredits.ids
  · intro r hr hclass hseat htarget hnegative htype
    rw [List.mem_cons, List.mem_cons, List.mem_singleton] at htype
    have hr' := mem_seatRecords.2 ⟨hr, hclass, hseat, htarget⟩
    rw [hlocators]
    by_cases hunrelated : provenUnrelatedReversal evidence (originals.map (·.credit.locator))
        (seatRecords graph rows) r
    · exact .inr hunrelated
    · exact .inl (accounted_recovered hrecords hassigned horigins hr'
        (haccounted r hr' ⟨hnegative, htype, hunrelated⟩))
  · intro sha256 k locator hfits
    exact intervalPrincipals_ok (fun o ho ↦ (hbalanced o ho).1) hfits

end Origins

section Sample

/-- Two hours at half a token a minute, worked in two sessions. -/
def settledPayroll : HistoricalReconstructedEvent where
  event := { id := 20, classId := "math", targetSeatId := 1, payrollEventType := .payroll
             idempotencyKey := "run-1", recordedAt := 0, summaryJson := .none, actorSeatId := 9
             mechanism := "system", correlationId := "corr-1" }
  multiplyFirst := true
  shares := [⟨"p-1", "0.50", 7200, [⟨1, 2, "2024-01-01T10:00", 3600000000⟩,
    ⟨3, 4, "2024-01-01T12:00", 3600000000⟩], 20, none, []⟩]
  referencedEventIds := []
  candidateShares := []

def settledGraph : HistoricalReconstructedGraph where
  classId := "math"
  targetSeatId := 1
  sourceIds := []
  intervals := []
  events := [settledPayroll]
  reversals := []
  recoveries := [⟨21, 20, .str "intent-1", .int 1, .int 2, .str "INTERVAL_INVALIDATION",
    .str "ledger-effect:v1:11", "math", 1⟩]
  sourceRecords := []
  settingInputs := []

def settledCredit : HistoricalRow :=
  { id := 10, classId := "math", seatId := 1, targetSeatId := 1, actorSeatId := 9
    mechanism := "system", amount := 6000, amountCents := 6000, accountType := "checking"
    type := some "payroll", correlationId := "corr-1", idempotencyKey := some "run-1"
    originalTransactionId := none, compensationOriginLocator := none
    compensationAmountCents := none, correctionIntentLocator := none
    postingSequence := some 1, lineageVersion := some 2, lineageEventId := some 7 }

def settledDebit : HistoricalRow :=
  { settledCredit with
    id := 11, amount := -3000, amountCents := -3000, type := some "payroll_correction"
    correlationId := "corr-2", idempotencyKey := none
    compensationOriginLocator := some "ledger-credit:v1:10", compensationAmountCents := some 3000
    correctionIntentLocator := some "intent-1", postingSequence := some 2
    lineageVersion := some 3 }

def settledRate (text : String) : Option Decimal :=
  if text = "0.50" then some (.finite false 50 (-2)) else none

def settledEvidence : SettlementEvidence := ⟨fun _ ↦ true, fun _ ↦ true, fun _ ↦ true⟩

def settledBusiness : List SignedBusinessEvent :=
  [⟨"payroll_event", "20", "math", .int 1, .dict []⟩, ⟨"payroll_event", "21", "math", .int 1,
    .dict [("original_payroll_event_id", .int 20), ("correction_intent_locator", .str "intent-1"),
      ("opening_event_id", .int 1), ("closing_event_id", .int 2),
      ("ledger_result_locator", .str "ledger-effect:v1:11")]⟩]

def settledObservations : List HistoricalAuditCoverage :=
  ["10", "11"].map fun row ↦ ⟨"ledger_transaction", row, "math", "AUTHENTICATED", "VALID", []⟩

def settledOrigin : ReconstructedOrigin where
  eventId := 20
  pending := false
  original := settledCredit
  originalCents := 6000
  recoveredCents := 3000
  remainingCents := 3000
  recoveries := [settledDebit]
  allocations := [((1, 2), 3000), ((3, 4), 3000)]
  recoveredIntervals := [((.number 1, .number 2), 3000)]

theorem notVoid {text : String} (h : text.toList.map Char.toUpper ≠ "VOID".toList) :
    text.toUpper ≠ "VOID" := by
  intro heq
  apply h
  rw [← heq, String.toUpper, String.toList_map]

theorem settledCredit_money : settledCredit.money := ⟨notVoid (by decide), rfl, rfl⟩

theorem settledDebit_money : settledDebit.money := ⟨notVoid (by decide), rfl, rfl⟩

theorem settledRecord_checked {r : HistoricalRow} (hmoney : r.money)
    (hfound : settledObservations.reverse.find? (·.rowPk = rowPk r.id) =
      some ⟨"ledger_transaction", rowPk r.id, "math", "AUTHENTICATED", "VALID", []⟩)
    (hevidence : settledEvidence.confirms r = true)
    (hversion : r.lineageVersion = some 1 ∨ r.lineageVersion = some 2 ∨ r.lineageVersion = some 3) :
    checkRecord settledGraph settledEvidence settledObservations r = .ok () := by
  rw [checkRecord, demand_bind_eq_ok]
  refine ⟨_, hfound, ?_⟩
  rw [require_of ⟨rfl, rfl, by simp, by simp, by simp⟩, ok_bind, require_of fun _ ↦ rfl,
    ok_bind, require_of hversion, ok_bind, require_of fun _ ↦ hevidence, ok_bind]
  exact require_of hmoney

theorem settledCredits : settledGraph.events.foldlM (settleEvent settledRate settledGraph
    settledBusiness [settledCredit, settledDebit]) [] =
      .ok [⟨settledPayroll, settledCredit, settledOrigin.allocations⟩] := by
  have hchecked : checkCandidates settledRate settledPayroll = .ok () := rfl
  have hshares : allocateReconstructedShares settledRate settledPayroll.shares
      (arithmeticRule settledPayroll) = .ok (6000, settledOrigin.allocations) := by decide +kernel
  have hcredit : bindHistoricalCredit settledPayroll [settledCredit, settledDebit] =
      .ok settledCredit := by
    have hfound : [settledCredit, settledDebit].filter (fun r ↦ 0 < r.amountCents ∧
        reachedBy settledPayroll r) = [settledCredit] := by decide
    rw [bindHistoricalCredit, hfound]
    dsimp only
    rw [require_of ⟨rfl, rfl, rfl, rfl, rfl, rfl, .inl ⟨rfl, rfl⟩, rfl⟩, ok_bind,
      require_of settledCredit_money, ok_bind]
    rfl
  change (settleEvent settledRate settledGraph settledBusiness [settledCredit, settledDebit] []
    settledPayroll >>= fun originals ↦ List.foldlM _ originals []) = _
  rw [settleEvent, hchecked, ok_bind, hshares, ok_bind]
  dsimp only
  rw [if_neg (by decide), hcredit, ok_bind, require_of (by decide +kernel), ok_bind,
    require_of (by decide), ok_bind]
  rfl

/-- Half of the credit is taken back, and the other half is what the second session has of it. -/
theorem settlement_balanced : settledOrigin.Balanced ∧
    settledOrigin.askedCents (some (1, 2)) = 0 ∧
    settledOrigin.askedCents (some (3, 4)) = 3000 := by
  have haccepted : validateHistoricalSettlement settledRate (fun _ _ _ ↦ some 2)
      ⟨"math", some 9, some 4, "teacher"⟩ settledGraph [settledCredit, settledDebit]
      settledObservations settledEvidence settledBusiness = .ok [settledOrigin] := by
    have hrecords : seatRecords settledGraph [settledCredit, settledDebit] =
        [settledCredit, settledDebit] := by decide +kernel
    have hchecked : [settledCredit, settledDebit].mapM (checkRecord settledGraph settledEvidence
        settledObservations) = .ok [(), ()] :=
      mapM_eq_ok.2 (.cons (settledRecord_checked settledCredit_money rfl rfl (by decide))
        (.cons (settledRecord_checked settledDebit_money rfl rfl (by decide)) .nil))
    have hsettled : settleOrigin settledGraph settledEvidence settledBusiness (fun _ _ _ ↦ some 2)
        [settledCredit, settledDebit] []
        ⟨settledPayroll, settledCredit, settledOrigin.allocations⟩ = .ok settledOrigin := by
      decide +kernel
    rw [validateHistoricalSettlement, require_of (by decide), ok_bind]
    dsimp only
    rw [hrecords, require_of (by decide), ok_bind, hchecked, ok_bind, settledCredits, ok_bind]
    change (List.foldlM _ [] [] >>= _) = _
    rw [List.foldlM_nil, pure_bind, require_of (by decide +kernel), ok_bind, List.mapM_cons,
      hsettled]
    rfl
  obtain ⟨-, hbalanced, -⟩ := validated_settlement_balanced (by decide) haccepted
  exact ⟨(hbalanced settledOrigin (by simp)).1, by decide, by decide⟩

end Sample

end TokenHub.Ledger
