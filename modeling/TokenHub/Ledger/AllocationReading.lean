import TokenHub.Ledger.PayrollAllocation
import TokenHub.Lib.Apportionment

set_option autoImplicit false

namespace TokenHub.Ledger

open Lib.Decimals Lib.Checks Lib.Apportionment
open Rent (Instant)

structure PricedInterval where
  key : IntervalKey
  credited : ℕ
  closedAt : Instant
deriving DecidableEq, Repr

def PricedInterval.quota (cents seconds : ℕ) (i : PricedInterval) : ℚ :=
  exactQuotient cents seconds i.credited

def PricedInterval.Sooner (i j : PricedInterval) : Prop :=
  i.closedAt < j.closedAt ∨ i.closedAt = j.closedAt ∧
    (i.key.1 < j.key.1 ∨ i.key.1 = j.key.1 ∧ i.key.2 ≤ j.key.2)

instance : DecidableRel PricedInterval.Sooner := fun i j ↦ by
  unfold PricedInterval.Sooner; infer_instance

/-- A pricing share that may be allocated: its cents are the price of its seconds, and its
intervals make up those seconds. -/
structure PricingShare where
  seconds : ℕ
  rate : Magnitude
  cents : ℕ
  intervals : List PricedInterval
  priced : shareCents seconds rate = some cents
  covered : (intervals.map (·.credited)).sum = seconds

namespace PricingShare

def keys (s : PricingShare) : List IntervalKey := s.intervals.map (·.key)

def amount (s : PricingShare) (i : PricedInterval) : ℤ :=
  Lib.Apportionment.share (PricedInterval.quota s.cents s.seconds) PricedInterval.Sooner s.intervals
    s.cents i

def allocations (s : PricingShare) : Allocations := s.intervals.map (fun i ↦ (i.key, s.amount i))

end PricingShare

section Reading

variable (env : PyReaders)

def ReadsInterval (source : PyValue) (i : PricedInterval) : Prop :=
  (∃ opening closing, source.getItem "opening_event_id" = .ok opening ∧
    source.getItem "closing_event_id" = .ok closing ∧
    intervalKey opening closing = some i.key) ∧
  creditedSeconds source = .ok i.credited ∧
  ∃ timestamp, source.getItem "closing_timestamp" = .ok timestamp ∧
    env.fromisoformat timestamp = .ok (some i.closedAt)

def ReadsShare (share : PyValue) (s : PricingShare) : Prop :=
  ∃ seconds rateValue rate sourcesValue sources, share.getItem "seconds" = .ok seconds ∧
    share.getItem "pay_rate_per_minute" = .ok rateValue ∧ env.decimal rateValue = .ok rate ∧
    share.getItem "intervals" = .ok sourcesValue ∧
    pricingInputs seconds rate = some (s.seconds, s.rate) ∧
    sourcesValue.iterate = .ok sources ∧ List.Forall₂ (ReadsInterval env) sources s.intervals

end Reading

section Sources

variable {env : PyReaders} {cents seconds : ℕ} {p p' : ShareProgress} {source : PyValue}

def PricedInterval.ranked (cents seconds : ℕ) (i : PricedInterval) : Ranked :=
  ⟨Int.fract (i.quota cents seconds), i.closedAt, i.key⟩

def ShareProgress.extend (p : ShareProgress) (cents seconds : ℕ) (is : List PricedInterval) :
    ShareProgress where
  allocations := p.allocations ++ is.map (fun i ↦ (i.key, ⌊i.quota cents seconds⌋))
  ranked := p.ranked ++ is.map (·.ranked cents seconds)
  allocated := p.allocated + (is.map (fun i ↦ ⌊i.quota cents seconds⌋)).sum

theorem ShareProgress.extend_nil : p.extend cents seconds [] = p := by
  simp [ShareProgress.extend]

theorem ShareProgress.extend_cons (i : PricedInterval) (is : List PricedInterval) :
    (p.extend cents seconds [i]).extend cents seconds is = p.extend cents seconds (i :: is) := by
  simp [ShareProgress.extend, add_assoc]

theorem allocateSource_ok : allocateSource env cents seconds p source = .ok p' ↔
    ∃ i, ReadsInterval env source i ∧ i.key ∉ p.allocations.map (·.1) ∧
      p' = p.extend cents seconds [i] := by
  simp only [allocateSource, bind_eq_ok, demand_eq_ok, require_eq_ok, pure_eq_ok,
    ShareProgress.extend, List.map_cons, List.map_nil, List.sum_cons, List.sum_nil, add_zero]
  constructor
  · rintro ⟨opening, ho, closing, hc, key, hkey, -, hnew, credited, hcredited, timestamp, ht,
      parsed, hparsed, closedAt, rfl, rfl⟩
    exact ⟨⟨key, credited, closedAt⟩, ⟨⟨opening, closing, ho, hc, hkey⟩, hcredited, timestamp, ht,
      hparsed⟩, hnew, rfl⟩
  · rintro ⟨i, ⟨⟨opening, closing, ho, hc, hkey⟩, hcredited, timestamp, ht, hparsed⟩, hnew, rfl⟩
    exact ⟨opening, ho, closing, hc, i.key, hkey, (), hnew, i.credited, hcredited, timestamp, ht,
      some i.closedAt, hparsed, i.closedAt, rfl, rfl⟩

theorem allocateSources_ok {sources : List PyValue} :
    allocateSources env cents seconds p sources = .ok p' ↔
      ∃ is, List.Forall₂ (ReadsInterval env) sources is ∧ (is.map (·.key)).Nodup ∧
        (∀ i ∈ is, i.key ∉ p.allocations.map (·.1)) ∧ p' = p.extend cents seconds is := by
  induction sources generalizing p with
  | nil =>
    simp only [allocateSources, pure_eq_ok, List.forall₂_nil_left_iff]
    constructor
    · rintro rfl
      exact ⟨[], rfl, by simp, by simp, ShareProgress.extend_nil.symm⟩
    · rintro ⟨is, rfl, -, -, rfl⟩
      exact ShareProgress.extend_nil.symm
  | cons source sources ih =>
    simp only [allocateSources, bind_eq_ok, allocateSource_ok, ih]
    constructor
    · rintro ⟨p₁, ⟨i, hi, hnew, rfl⟩, is, his, hnodup, hfresh, rfl⟩
      refine ⟨i :: is, .cons hi his, ?_, ?_, ShareProgress.extend_cons i is⟩
      · rw [List.map_cons, List.nodup_cons]
        refine ⟨fun hmem ↦ ?_, hnodup⟩
        obtain ⟨j, hj, hkey⟩ := List.mem_map.1 hmem
        apply hfresh j hj
        simp [ShareProgress.extend, hkey]
      · intro j hj
        rcases List.mem_cons.1 hj with rfl | hj
        · exact hnew
        · intro hmem
          apply hfresh j hj
          simp only [ShareProgress.extend, List.map_append, List.mem_append]
          exact .inl hmem
    · rintro ⟨is', his', hnodup, hfresh, rfl⟩
      obtain _ | ⟨hi, his⟩ := his'
      next i is =>
      rw [List.map_cons, List.nodup_cons] at hnodup
      refine ⟨_, ⟨i, hi, hfresh i (by simp), rfl⟩, is, his, hnodup.2, fun j hj hmem ↦ ?_,
        (ShareProgress.extend_cons i is).symm⟩
      simp only [ShareProgress.extend, List.map_append, List.mem_append, List.map_cons,
        List.map_nil, List.mem_singleton] at hmem
      rcases hmem with hmem | hmem
      · exact hfresh j (by simp [hj]) hmem
      · exact hnodup.1 (List.mem_map.2 ⟨j, hj, hmem⟩)

theorem Ranked.le_iff {i j : PricedInterval} :
    (i.ranked cents seconds).le (j.ranked cents seconds) ↔
      Ahead (PricedInterval.quota cents seconds) PricedInterval.Sooner i j := Iff.rfl

/-- The extra cents go to those that the largest remainders favour. -/
theorem settle_extend {previous : Allocations} {is : List PricedInterval}
    (hnodup : (is.map (·.key)).Nodup) (hfresh : ∀ i ∈ is, i.key ∉ previous.map (·.1)) :
    (ShareProgress.extend ⟨previous, [], 0⟩ cents seconds is).settle cents = previous ++
      is.map (fun i ↦ (i.key, Lib.Apportionment.share (PricedInterval.quota cents seconds)
        PricedInterval.Sooner is cents i)) := by
  have hfirst : (((ShareProgress.extend ⟨previous, [], 0⟩ cents seconds is).ranked.insertionSort
      Ranked.le).take (cents - (ShareProgress.extend ⟨previous, [], 0⟩ cents seconds
        is).allocated).toNat).map (·.key) =
      (favoured (PricedInterval.quota cents seconds) PricedInterval.Sooner is cents).map
        (·.key) := by
    have hsort := List.map_insertionSort (r := Ahead (PricedInterval.quota cents seconds)
      PricedInterval.Sooner) (s := Ranked.le) (PricedInterval.ranked cents seconds) is
      (fun i _ j _ ↦ Ranked.le_iff.symm)
    simp only [ShareProgress.extend, List.nil_append, zero_add]
    rw [← hsort, ← List.map_take, List.map_map]
    rfl
  simp only [ShareProgress.settle, hfirst]
  simp only [ShareProgress.extend, List.map_append, List.map_map]
  congr 1
  · conv_rhs => rw [← List.map_id previous]
    refine List.map_congr_left (fun e he ↦ ?_)
    have hnot : e.1 ∉ (favoured (PricedInterval.quota cents seconds) PricedInterval.Sooner is
        cents).map (·.key) := by
      intro hmem
      obtain ⟨i, hi, hkey⟩ := List.mem_map.1 hmem
      exact hfresh i (favoured_subset hi) (List.mem_map.2 ⟨e, he, hkey.symm⟩)
    simp [hnot]
  · refine List.map_congr_left (fun i hi ↦ ?_)
    have hmem : i.key ∈ (favoured (PricedInterval.quota cents seconds) PricedInterval.Sooner is
        cents).map (·.key) ↔ i ∈ favoured (PricedInterval.quota cents seconds)
          PricedInterval.Sooner is cents := by
      constructor
      · intro h
        obtain ⟨j, hj, hkey⟩ := List.mem_map.1 h
        rwa [← List.inj_on_of_nodup_map hnodup (favoured_subset hj) hi hkey]
      · exact fun h ↦ List.mem_map_of_mem h
    simp only [Function.comp_apply, hmem, Lib.Apportionment.share, Prod.mk.injEq, true_and]
    split_ifs <;> simp

end Sources

section Shares

variable {env : PyReaders} {allocations allocations' : Allocations} {share : PyValue} {cents : ℕ}

theorem reads_credited {sources : List PyValue} {is : List PricedInterval}
    (h : List.Forall₂ (ReadsInterval env) sources is) :
    sources.mapM creditedSeconds = .ok (is.map (·.credited)) := by
  rw [mapM_eq_ok, List.forall₂_map_right_iff]
  exact h.imp (fun _ _ hread ↦ hread.2.1)

theorem allocateShare_ok :
    allocateShare env allocations share = .ok (allocations', cents) ↔
      ∃ s, ReadsShare env share s ∧ s.keys.Nodup ∧
        (∀ k ∈ s.keys, k ∉ allocations.map (·.1)) ∧
        allocations' = allocations ++ s.allocations ∧ cents = s.cents := by
  simp only [allocateShare, bind_eq_ok, demand_eq_ok, require_eq_ok, pure_eq_ok, Prod.exists,
    Prod.mk.injEq]
  constructor
  · rintro ⟨secondsValue, hseconds, rateValue, hrateValue, rateDecimal, hrate, sourcesValue,
      hsources, seconds, rate, hinputs, cents, hcents, sources, hiterate, credited, hcredited, -,
      hsum, p, hp, rfl, rfl⟩
    obtain ⟨is, his, hnodup, hfresh, rfl⟩ := allocateSources_ok.1 hp
    rw [reads_credited his, Except.ok.injEq] at hcredited
    subst hcredited
    refine ⟨⟨seconds, rate, cents, is, hcents, hsum⟩, ⟨secondsValue, rateValue, rateDecimal,
      sourcesValue, sources, hseconds, hrateValue, hrate, hsources, hinputs, hiterate, his⟩,
      hnodup, fun k hk ↦ ?_, settle_extend hnodup hfresh, rfl⟩
    obtain ⟨i, hi, rfl⟩ := List.mem_map.1 hk
    exact hfresh i hi
  · rintro ⟨s, ⟨secondsValue, rateValue, rateDecimal, sourcesValue, sources, hseconds, hrateValue,
      hrate, hsources, hinputs, hiterate, his⟩, hnodup, hfresh, rfl, rfl⟩
    have hfresh' : ∀ i ∈ s.intervals, i.key ∉ allocations.map (·.1) :=
      fun i hi ↦ hfresh _ (List.mem_map_of_mem hi)
    exact ⟨secondsValue, hseconds, rateValue, hrateValue, rateDecimal, hrate, sourcesValue,
      hsources, s.seconds, s.rate, hinputs, s.cents, s.priced, sources, hiterate, _,
      reads_credited his, (), s.covered, _, allocateSources_ok.2 ⟨_, his, hnodup, hfresh', rfl⟩,
      settle_extend hnodup hfresh', rfl⟩

theorem PricingShare.map_allocations (s : PricingShare) :
    s.allocations.map (·.1) = s.keys := by
  simp [PricingShare.allocations, PricingShare.keys]

theorem allocateShares_ok {items : List PyValue} :
    allocateShares env allocations items = .ok (allocations', cents) ↔
      ∃ ss, List.Forall₂ (ReadsShare env) items ss ∧ (ss.flatMap (·.keys)).Nodup ∧
        (∀ k ∈ ss.flatMap (·.keys), k ∉ allocations.map (·.1)) ∧
        allocations' = allocations ++ ss.flatMap (·.allocations) ∧
        cents = (ss.map (·.cents)).sum := by
  induction items generalizing allocations allocations' cents with
  | nil =>
    simp only [allocateShares, pure_eq_ok, Prod.mk.injEq, List.forall₂_nil_left_iff]
    constructor
    · rintro ⟨rfl, rfl⟩
      exact ⟨[], rfl, by simp, by simp, by simp, rfl⟩
    · rintro ⟨ss, rfl, -, -, rfl, rfl⟩
      simp
  | cons share items ih =>
    simp only [allocateShares, bind_eq_ok, Prod.exists, allocateShare_ok, ih, pure_eq_ok,
      Prod.mk.injEq]
    constructor
    · rintro ⟨a₁, c₁, ⟨s, hs, hnodup, hfresh, rfl, rfl⟩, a₂, c₂, ⟨ss, hss, hnodups, hfreshs, rfl,
        rfl⟩, rfl, rfl⟩
      simp only [List.map_append, s.map_allocations, List.mem_append, not_or] at hfreshs
      refine ⟨s :: ss, .cons hs hss, ?_, ?_, ?_, ?_⟩
      · rw [List.flatMap_cons, List.nodup_append]
        exact ⟨hnodup, hnodups, fun k hk k' hk' heq ↦ (hfreshs k' hk').2 (heq ▸ hk)⟩
      · intro k hk
        rw [List.flatMap_cons, List.mem_append] at hk
        rcases hk with hk | hk
        · exact hfresh k hk
        · exact (hfreshs k hk).1
      · rw [List.flatMap_cons, List.append_assoc]
      · rw [List.map_cons, List.sum_cons]
    · rintro ⟨ss', hss', hnodup, hfresh, rfl, rfl⟩
      obtain _ | ⟨hs, hss⟩ := hss'
      next s ss =>
      rw [List.flatMap_cons, List.nodup_append] at hnodup
      simp only [List.flatMap_cons, List.mem_append] at hfresh
      refine ⟨_, _, ⟨s, hs, hnodup.1, fun k hk ↦ hfresh k (.inl hk), rfl, rfl⟩, _, _,
        ⟨ss, hss, hnodup.2.1, fun k hk ↦ ?_, rfl, rfl⟩, ?_, ?_⟩
      · rw [List.map_append, s.map_allocations, List.mem_append, not_or]
        exact ⟨hfresh k (.inr hk), fun hmem ↦ hnodup.2.2 k hmem k hk rfl⟩
      · rw [List.flatMap_cons, List.append_assoc]
      · rw [List.map_cons, List.sum_cons]

theorem allocatePayrollCents_ok {pricing credit version : PyValue} :
    allocatePayrollCents env pricing credit version = .ok allocations ↔
      version.exactInt = some 1 ∧ ∃ total items ss, env.decimal (.str (env.str credit)) = .ok total ∧
        creditCents total = .ok (ss.map (·.cents)).sum ∧ pricing.iterate = .ok items ∧
        List.Forall₂ (ReadsShare env) items ss ∧ (ss.flatMap (·.keys)).Nodup ∧
        allocations = ss.flatMap (·.allocations) := by
  rw [allocatePayrollCents, require_bind_eq_ok]
  simp only [bind_eq_ok, require_eq_ok, Prod.exists, allocateShares_ok, pure_eq_ok]
  constructor
  · rintro ⟨hversion, total, htotal, cents, hcents, items, hitems, a, c, ⟨ss, hss, hnodup, -, rfl,
      rfl⟩, -, rfl, rfl⟩
    exact ⟨hversion, total, items, ss, htotal, hcents, hitems, hss, hnodup, rfl⟩
  · rintro ⟨hversion, total, items, ss, htotal, hcents, hitems, hss, hnodup, rfl⟩
    exact ⟨hversion, total, htotal, _, hcents, items, hitems, _, _,
      ⟨ss, hss, hnodup, by simp, rfl, rfl⟩, (), rfl, rfl⟩

end Shares

end TokenHub.Ledger
