import TokenHub.Ledger.CommandRuns
import TokenHub.Obligations.Succession

set_option autoImplicit false

namespace TokenHub.Obligations

open Ledger Lib.Checks Lib.Json Lib.Ordered Lib.Runs
open Rent (Instant ClassZone ObligationAssessment dayStart_steady instantField isoFormat_injOn)

variable {sha256 : String → String} {zones : String → ClassZone} {zone : ClassZone}
  {seen T T' : ObligationTables} {now : Moment} {ref : String} {c d : BillCycle}

section Lineages

/-- Cycles numbered from one without a gap, of one class, of which only the last is terminal. -/
structure LinearLineage (cycles : List BillCycle) : Prop where
  numbered : cycles.map (·.cycleNumber) = List.range' 1 cycles.length
  oneClass : ∀ c ∈ cycles, ∀ d ∈ cycles, c.classId = d.classId
  terminal_last : ∀ c ∈ cycles, c.nextAssessmentAt = none → c.cycleNumber = cycles.length

namespace LinearLineage

variable {cycles : List BillCycle}

theorem nil : LinearLineage [] where
  numbered := rfl
  oneClass := by simp
  terminal_last := by simp

theorem number_mem (h : LinearLineage cycles) {n : ℕ} :
    (∃ c ∈ cycles, c.cycleNumber = n) ↔ 1 ≤ n ∧ n ≤ cycles.length := by
  rw [← List.mem_map, h.numbered, List.mem_range'_1]
  omega

theorem number_le (h : LinearLineage cycles) (hc : c ∈ cycles) :
    1 ≤ c.cycleNumber ∧ c.cycleNumber ≤ cycles.length :=
  h.number_mem.1 ⟨c, hc, rfl⟩

/-- The cycle that sorts first by descending number carries the lineage's length. -/
theorem latest (h : LinearLineage cycles) (hlatest : firstBy LaterCycle cycles = some c) :
    c ∈ cycles ∧ c.cycleNumber = cycles.length := by
  have hc := mem_of_firstBy hlatest
  obtain ⟨hone, hle⟩ := h.number_le hc
  obtain ⟨d, hd, hnumber⟩ := h.number_mem.2 ⟨hone.trans hle, le_refl cycles.length⟩
  refine ⟨hc, le_antisymm hle ?_⟩
  rw [← hnumber]
  rcases firstBy_le hlatest hd with rfl | hlater
  · exact le_refl _
  · exact hlater

theorem none_terminal (h : LinearLineage cycles) (hc : c ∈ cycles)
    (hnumber : c.cycleNumber = cycles.length) (hopen : c.nextAssessmentAt ≠ none) :
    ∀ d ∈ cycles, d.nextAssessmentAt ≠ none := by
  intro d hd hterminal
  apply hopen
  have hlast := h.terminal_last d hd hterminal
  obtain ⟨i, hi, rfl⟩ := List.getElem_of_mem hc
  obtain ⟨j, hj, rfl⟩ := List.getElem_of_mem hd
  have hat (k : ℕ) (hk : k < cycles.length) : cycles[k].cycleNumber = 1 + k := by
    have hget := congrArg (fun l ↦ l[k]?) h.numbered
    simpa [hk] using hget
  rw [hat i hi] at hnumber
  rw [hat j hj] at hlast
  have hij : i = j := by omega
  subst hij
  exact hterminal

theorem concat (h : LinearLineage cycles) (hnumber : c.cycleNumber = cycles.length + 1)
    (hclass : ∀ d ∈ cycles, d.classId = c.classId)
    (hopen : ∀ d ∈ cycles, d.nextAssessmentAt ≠ none) : LinearLineage (cycles ++ [c]) where
  numbered := by
    rw [List.map_append, h.numbered, List.length_append, List.length_singleton,
      List.range'_concat, List.map_singleton, hnumber]
    congr 2
    omega
  oneClass := by
    have hall : ∀ d ∈ cycles ++ [c], d.classId = c.classId := by
      intro d hd
      rcases List.mem_append.1 hd with hd | hd
      · exact hclass d hd
      · rw [List.mem_singleton.1 hd]
    intro d hd e he
    exact (hall d hd).trans (hall e he).symm
  terminal_last := by
    intro d hd hterminal
    rcases List.mem_append.1 hd with hd | hd
    · exact absurd hterminal (hopen d hd)
    · rw [List.mem_singleton.1 hd, hnumber, List.length_append, List.length_singleton]

end LinearLineage

theorem mem_lineage : c ∈ lineage T ref ↔ c ∈ T.billCycles ∧ c.internalRef = ref := by
  simp [lineage]

theorem lineage_concat (hcycles : T'.billCycles = T.billCycles ++ [c]) : lineage T' ref =
    if c.internalRef = ref then lineage T ref ++ [c] else lineage T ref := by
  rw [lineage, lineage, hcycles, List.filter_append]
  by_cases href : c.internalRef = ref <;> simp [href]

structure Extends (T T' : ObligationTables) : Prop where
  cycles : T.billCycles <+: T'.billCycles
  reservations : T.commandReservations <+: T'.commandReservations

theorem Extends.refl (T : ObligationTables) : Extends T T := ⟨List.prefix_refl _, List.prefix_refl _⟩

theorem Extends.trans {T'' : ObligationTables} (h : Extends T T') (h' : Extends T' T'') :
    Extends T T'' :=
  ⟨h.cycles.trans h'.cycles, h.reservations.trans h'.reservations⟩

theorem Extends.lineage (h : Extends T T') (ref : String) :
    lineage T ref <+: lineage T' ref := h.cycles.filter _

theorem lineage_eq_of_free (hT : LinearLineage (lineage T ref)) (hext : Extends seen T)
    (hfree : CycleFree T ref ((lineage seen ref).length + 1)) :
    lineage T ref = lineage seen ref := by
  have hle := (hext.lineage ref).length_le
  refine ((hext.lineage ref).eq_of_length_le ?_).symm
  by_contra hlt
  obtain ⟨c, hc, hnumber⟩ := hT.number_mem (n := (lineage seen ref).length + 1) |>.2 (by omega)
  exact hfree c (mem_lineage.1 hc).1 ⟨(mem_lineage.1 hc).2, hnumber⟩

end Lineages

section Reads

/-- A succession in another class than the lineage's asks for the first cycle, which is taken. -/
def Derives (seen : ObligationTables) (classId ref : String) (number : ℕ) : Prop :=
  (number = (lineage seen ref).length + 1 ∧
    ∀ c ∈ lineage seen ref, c.classId = classId ∧ c.nextAssessmentAt ≠ none) ∨
  (number = 1 ∧ lineage seen ref ≠ [])

theorem filter_class (h : LinearLineage (lineage seen ref)) (classId : String) :
    (lineage seen ref).filter (·.classId = classId) = [] ∨
      ((lineage seen ref).filter (·.classId = classId) = lineage seen ref ∧
        ∀ c ∈ lineage seen ref, c.classId = classId) := by
  by_cases hclass : ∀ c ∈ lineage seen ref, c.classId = classId
  · exact .inr ⟨List.filter_eq_self.2 (by simpa using hclass), hclass⟩
  · push Not at hclass
    obtain ⟨c, hc, hne⟩ := hclass
    refine .inl (List.filter_eq_nil_iff.2 ?_)
    intro d hd
    rw [decide_eq_true_iff, h.oneClass d hd c hc]
    exact hne

theorem nextCycleNumber_derives (h : LinearLineage (lineage seen ref)) {classId : String}
    {reference : Instant} {number : ℕ}
    (hok : nextCycleNumber ref reference
      (getSuccessionEligibility seen zone now classId ref reference) = .ok number) :
    Derives seen classId ref number := by
  rw [getSuccessionEligibility] at hok
  rcases filter_class h classId with hnil | ⟨hself, hclass⟩
  · rw [hnil, firstBy_nil] at hok
    obtain rfl : 1 = number := by simpa [nextCycleNumber] using hok
    by_cases hempty : lineage seen ref = []
    · exact .inl (by simp [hempty])
    · exact .inr ⟨rfl, hempty⟩
  · rw [hself] at hok
    cases hlatest : firstBy LaterCycle (lineage seen ref) with
    | none =>
      rw [hlatest] at hok
      obtain rfl : 1 = number := by simpa [nextCycleNumber] using hok
      have hempty := firstBy_eq_none.1 hlatest
      exact .inl (by simp [hempty])
    | some latest =>
      obtain ⟨hmem, hlast⟩ := h.latest hlatest
      simp only [hlatest] at hok
      cases hnext : latest.nextAssessmentAt with
      | none => simp [hnext, nextCycleNumber, throw, throwThe, MonadExceptOf.throw] at hok
      | some next =>
        simp only [hnext] at hok
        split_ifs at hok with hdue
        · simp [nextCycleNumber, throw, throwThe, MonadExceptOf.throw] at hok
        · obtain rfl : latest.cycleNumber + 1 = number := by simpa [nextCycleNumber] using hok
          refine .inl ⟨by rw [hlast], ?_⟩
          intro d hd
          exact ⟨hclass d hd, h.none_terminal hmem hlast (by simp [hnext]) d hd⟩

/-- A free number that a succession derived is the next of the lineage as it stands. -/
theorem Derives.current {classId : String} {number : ℕ} (hderives : Derives seen classId ref number)
    (hseen : LinearLineage (lineage seen ref)) (hT : LinearLineage (lineage T ref))
    (hext : Extends seen T) (hfree : CycleFree T ref number) :
    number = (lineage T ref).length + 1 ∧
      ∀ c ∈ lineage T ref, c.classId = classId ∧ c.nextAssessmentAt ≠ none := by
  rcases hderives with ⟨rfl, hall⟩ | ⟨rfl, hne⟩
  · rw [lineage_eq_of_free hT hext hfree]
    exact ⟨rfl, hall⟩
  · exfalso
    obtain ⟨c, hc, hnumber⟩ :=
      hseen.number_mem (n := 1) |>.2 ⟨le_refl 1, List.length_pos_of_ne_nil hne⟩
    have hmem := (hext.lineage ref).subset hc
    exact hfree c (mem_lineage.1 hmem).1 ⟨(mem_lineage.1 hmem).2, hnumber⟩

end Reads

section Fingerprints

theorem instantField_inj {s t : Option Instant} (hs : ∀ u ∈ s, IsDatetime u)
    (ht : ∀ u ∈ t, IsDatetime u) (h : instantField s = instantField t) : s = t := by
  cases s with
  | none =>
    cases t with
    | none => rfl
    | some u => cases h
  | some v =>
    cases t with
    | none => cases h
    | some u => rw [isoFormat_injOn (hs v rfl) (ht u rfl) (Value.str.inj h)]

def SuccessionTerms.Datetimes (t : SuccessionTerms) : Prop :=
  ∀ u, u ∈ t.cycleBoundaryAt ∨ u ∈ t.nextAssessmentAt ∨ u ∈ t.graceBoundaryAt → IsDatetime u

/-- The payloads that the fingerprints of two lists of terms digest. -/
def payloads (s t : SuccessionTerms) : Set String :=
  {payload | fingerprint id s fingerprintVersion = .ok payload ∨
    fingerprint id t fingerprintVersion = .ok payload}

/-- The terms are the same, unless the digest collides on their payloads. -/
def SameTerms (sha256 : String → String) (s t : SuccessionTerms) : Prop :=
  Set.InjOn sha256 (payloads s t) → s = t

/-- Where the digest does not collide on the two payloads, equal fingerprints are equal terms. -/
theorem fingerprint_inj {s t : SuccessionTerms} (hsha : Set.InjOn sha256 (payloads s t))
    (hs : s.Datetimes) (ht : t.Datetimes)
    {f : String} (hf : fingerprint sha256 s fingerprintVersion = .ok f)
    (hf' : fingerprint sha256 t fingerprintVersion = .ok f) : s = t := by
  rw [fingerprint, require_bind_eq_ok] at hf hf'
  obtain ⟨-, hf⟩ := hf
  obtain ⟨-, hf'⟩ := hf'
  rw [pure_eq_ok] at hf hf'
  have heq := digest_inj hsha (.inl rfl) (.inr rfl) (hf.trans hf'.symm)
  simp only [Value.obj.injEq, List.cons.injEq, Prod.mk.injEq, true_and, and_true,
    Value.str.injEq, optText_injective.eq_iff] at heq
  obtain ⟨hboundary, hgrace, href, hnext, hpolicy, hversion⟩ := heq
  have hboundary := instantField_inj (fun u hu ↦ hs u (.inl hu)) (fun u hu ↦ ht u (.inl hu)) hboundary
  have hnext := instantField_inj (fun u hu ↦ hs u (.inr (.inl hu)))
    (fun u hu ↦ ht u (.inr (.inl hu))) hnext
  have hgrace := instantField_inj (fun u hu ↦ hs u (.inr (.inr hu)))
    (fun u hu ↦ ht u (.inr (.inr hu))) hgrace
  cases s
  cases t
  simp only [SuccessionTerms.mk.injEq]
  exact ⟨href, hpolicy, hversion, hboundary, hnext, hgrace⟩

variable (sha256) in
theorem fingerprint_total (t : SuccessionTerms) :
    ∃ f, fingerprint sha256 t fingerprintVersion = .ok f :=
  ⟨_, rfl⟩

end Fingerprints

section Identities

def ObligationCommandReservation.identity (r : ObligationCommandReservation) :
    String × String × String :=
  (r.classId, r.commandName, r.idempotencyKey)

/-- What `_validate_identity` lets through. -/
structure ValidIdentity (classId ref key : String) : Prop where
  scope : classId ≠ "" ∧ ref ≠ ""
  notBlank : ¬ isBlank key
  length : key.length ≤ maxIdempotencyKeyLength

structure Records (sha256 : String → String) (T : ObligationTables)
    (r : ObligationCommandReservation) (c : BillCycle) : Prop where
  cycle : billCycle T (some r.billCycleId) = some c
  ofClass : c.classId = r.classId
  isOpen : c.nextAssessmentAt ≠ none
  version : r.fingerprintVersion = fingerprintVersion
  datetimes : c.terms.Datetimes
  fingerprint : fingerprint sha256 c.terms fingerprintVersion = .ok r.replayFingerprint
  valid : ValidIdentity r.classId c.internalRef r.idempotencyKey

structure SuccessionInvariant (sha256 : String → String) (T : ObligationTables) : Prop where
  ids : ∀ c ∈ T.billCycles, c.id ≤ T.billCycles.length
  linear : ∀ ref, LinearLineage (lineage T ref)
  records : ∀ r ∈ T.commandReservations, ∃ c, Records sha256 T r c
  identities : (T.commandReservations.map (·.identity)).Nodup
  owned : (T.commandReservations.map (·.billCycleId)).Nodup

theorem billCycle_mem {i : Option ℕ} (h : billCycle T i = some c) : c ∈ T.billCycles ∧ i = some c.id := by
  rw [billCycle, Option.bind_eq_some_iff] at h
  obtain ⟨j, rfl, hfind⟩ := h
  have hid : c.id = j := by simpa using List.find?_some hfind
  exact ⟨List.mem_of_find?_eq_some hfind, by rw [hid]⟩

theorem Extends.billCycle (h : Extends T T') {i : Option ℕ} (hc : billCycle T i = some c) :
    billCycle T' i = some c := by
  obtain ⟨ds, hds⟩ := h.cycles
  rw [Obligations.billCycle, Option.bind_eq_some_iff] at hc ⊢
  obtain ⟨j, rfl, hfind⟩ := hc
  refine ⟨j, rfl, ?_⟩
  rw [← hds, List.find?_append, hfind]
  rfl

theorem Records.extends {r : ObligationCommandReservation} (h : Records sha256 T r c)
    (hext : Extends T T') : Records sha256 T' r c :=
  { h with cycle := hext.billCycle h.cycle }

variable {classId key : String} {r : ObligationCommandReservation}

theorem getObligationCommandReservation_some {command : String}
    (h : getObligationCommandReservation T classId command key = some r) :
    r ∈ T.commandReservations ∧ r.identity = (classId, command, key) := by
  rw [getObligationCommandReservation] at h
  refine ⟨List.mem_of_find?_eq_some h, ?_⟩
  simpa [ObligationCommandReservation.identity] using List.find?_some h

theorem getObligationCommandReservation_none {command : String} :
    getObligationCommandReservation T classId command key = none ↔
      ∀ r ∈ T.commandReservations, r.identity ≠ (classId, command, key) := by
  rw [getObligationCommandReservation, List.find?_eq_none]
  simp [ObligationCommandReservation.identity]

theorem SuccessionInvariant.reservation_unique (h : SuccessionInvariant sha256 T)
    {s : ObligationCommandReservation} (hr : r ∈ T.commandReservations)
    (hs : s ∈ T.commandReservations) (hrs : r.identity = s.identity) : r = s :=
  List.inj_on_of_nodup_map h.identities hr hs hrs

theorem SuccessionInvariant.getReservation (h : SuccessionInvariant sha256 T)
    (hr : r ∈ T.commandReservations) : getObligationCommandReservation T r.classId r.commandName
      r.idempotencyKey = some r := by
  cases hget : getObligationCommandReservation T r.classId r.commandName r.idempotencyKey with
  | none => exact absurd rfl (getObligationCommandReservation_none.1 hget r hr)
  | some s =>
    obtain ⟨hs, hidentity⟩ := getObligationCommandReservation_some hget
    rw [h.reservation_unique hs hr hidentity]

def Owns (T : ObligationTables) (classId key : String) (c : BillCycle) : Prop :=
  ∃ r ∈ T.commandReservations, r.identity = (classId, commandName, key) ∧
    billCycle T (some r.billCycleId) = some c

theorem Owns.extends (h : Owns T classId key c) (hext : Extends T T') : Owns T' classId key c := by
  obtain ⟨r, hr, hidentity, hc⟩ := h
  exact ⟨r, hext.reservations.subset hr, hidentity, hext.billCycle hc⟩

theorem SuccessionInvariant.owns_unique (h : SuccessionInvariant sha256 T)
    (hc : Owns T classId key c) (hd : Owns T classId key d) : c = d := by
  obtain ⟨r, hr, hrid, hc⟩ := hc
  obtain ⟨s, hs, hsid, hd⟩ := hd
  obtain rfl := h.reservation_unique hr hs (hrid.trans hsid.symm)
  exact Option.some.inj (hc.symm.trans hd)

theorem SuccessionInvariant.owner_unique (h : SuccessionInvariant sha256 T)
    {classId' key' : String} (hc : Owns T classId key c) (hc' : Owns T classId' key' c) :
    classId = classId' ∧ key = key' := by
  obtain ⟨r, hr, hrid, hc⟩ := hc
  obtain ⟨s, hs, hsid, hc'⟩ := hc'
  have hids : r.billCycleId = s.billCycleId := by
    have hr := (billCycle_mem hc).2
    have hs := (billCycle_mem hc').2
    exact Option.some.inj (hr.trans hs.symm)
  obtain rfl := List.inj_on_of_nodup_map h.owned hr hs hids
  rw [hrid] at hsid
  simpa using hsid

end Identities

section Commands

variable {q : ScheduleNextBillCycleRequest} {t : TerminateBillCycleRequest} {key : String}
  {r : ObligationCommandReservation}

theorem validateIdentity_eq_ok : validateIdentity q = .ok key ↔
    q.idempotencyKey = some key ∧ ValidIdentity q.classId q.internalRef key := by
  rw [validateIdentity, require_bind_eq_ok, demand_bind_eq_ok]
  simp only [require_bind_eq_ok, pure_eq_ok, Option.filter_eq_some_iff, decide_eq_true_iff]
  constructor
  · rintro ⟨hscope, k, ⟨hk, hblank⟩, hlength, rfl⟩
    exact ⟨hk, hscope, hblank, hlength⟩
  · rintro ⟨hk, hscope, hblank, hlength⟩
    exact ⟨hscope, key, ⟨hk, hblank⟩, hlength, rfl⟩

/-- A recorded command answers its own terms with its cycle. -/
theorem replay_same (h : Records sha256 T r c) (hterms : q.toSuccessionTerms = c.terms) :
    replay sha256 T r q = .ok c := by
  rw [replay, require_of, ok_bind, h.cycle, demand_some]
  rw [hterms, h.version]
  exact ⟨by decide, h.fingerprint⟩

theorem replay_ok (h : Records sha256 T r c) (hok : replay sha256 T r q = .ok d) :
    d = c ∧ SameTerms sha256 q.toSuccessionTerms c.terms := by
  rw [replay, require_bind_eq_ok, h.cycle, demand_some] at hok
  obtain ⟨⟨-, hprint⟩, hcycle⟩ := hok
  rw [h.version] at hprint
  refine ⟨(Except.ok.inj hcycle).symm, fun hsha ↦ ?_⟩
  exact fingerprint_inj hsha q.datetimes h.datetimes hprint h.fingerprint

structure Succeeds (sha256 : String → String) (seen T : ObligationTables)
    (q : ScheduleNextBillCycleRequest) (c : BillCycle) (T' : ObligationTables) : Prop where
  valid : ValidIdentity q.classId q.internalRef (q.idempotencyKey.getD "")
  number : Derives seen q.classId q.internalRef c.cycleNumber
  cycleFree : CycleFree T q.internalRef c.cycleNumber
  identityFree : IdentityFree T q.classId commandName (q.idempotencyKey.getD "")
  id : c.id = T.billCycles.length + 1
  ofClass : c.classId = q.classId
  terms : c.terms = q.toSuccessionTerms
  isOpen : c.nextAssessmentAt ≠ none
  cycles : T'.billCycles = T.billCycles ++ [c]
  reservation : ∃ r, r.identity = (q.classId, commandName, q.idempotencyKey.getD "") ∧
    r.fingerprintVersion = fingerprintVersion ∧ r.billCycleId = c.id ∧
    fingerprint sha256 q.toSuccessionTerms fingerprintVersion = .ok r.replayFingerprint ∧
    T'.commandReservations = T.commandReservations ++ [r]

/-- An accepted succession replays an identity that is recorded, or adds one cycle. -/
theorem scheduleNextBillCycle_ok (hseen : SuccessionInvariant sha256 seen)
    (hT : SuccessionInvariant sha256 T) (hext : Extends seen T)
    (hok : scheduleNextBillCycle sha256 zones seen T now q = .ok (c, T')) :
    (T' = T ∧ Owns T q.classId (q.idempotencyKey.getD "") c ∧
        SameTerms sha256 q.toSuccessionTerms c.terms) ∨
      Succeeds sha256 seen T q c T' := by
  rw [scheduleNextBillCycle, bind_eq_ok] at hok
  obtain ⟨reading, hread, hwrite⟩ := hok
  rw [readSuccession, bind_eq_ok] at hread
  obtain ⟨key, hkey, hread⟩ := hread
  obtain ⟨hkey, hvalid⟩ := validateIdentity_eq_ok.1 hkey
  have hgetD : q.idempotencyKey.getD "" = key := by rw [hkey, Option.getD_some]
  rw [hgetD]
  cases hget : getObligationCommandReservation seen q.classId commandName key with
  | some r =>
    simp only [hget, bind_eq_ok, pure_eq_ok] at hread
    obtain ⟨d, hd, rfl⟩ := hread
    rw [writeSuccession, pure_eq_ok, Prod.mk.injEq] at hwrite
    obtain ⟨rfl, rfl⟩ := hwrite
    obtain ⟨hr, hidentity⟩ := getObligationCommandReservation_some hget
    obtain ⟨e, he⟩ := hseen.records r hr
    obtain ⟨rfl, hterms⟩ := replay_ok he hd
    have howns : Owns seen q.classId key d := ⟨r, hr, hidentity, he.cycle⟩
    exact .inl ⟨rfl, howns.extends hext, hterms⟩
  | none =>
    simp only [hget] at hread
    rw [demand_bind_eq_ok] at hread
    obtain ⟨boundary, hboundary, hread⟩ := hread
    rw [demand_bind_eq_ok] at hread
    obtain ⟨next, hnext, hread⟩ := hread
    rw [require_bind_eq_ok] at hread
    obtain ⟨-, hread⟩ := hread
    rw [bind_eq_ok] at hread
    obtain ⟨number, hnumber, hread⟩ := hread
    obtain rfl := pure_eq_ok.1 hread
    have hderives := nextCycleNumber_derives (hseen.linear q.internalRef) hnumber
    rw [writeSuccession] at hwrite
    obtain ⟨print, hprint⟩ := fingerprint_total sha256 q.toSuccessionTerms
    rw [hprint, ok_bind] at hwrite
    by_cases hfree : CycleFree T q.internalRef number ∧ IdentityFree T q.classId commandName key
    · rw [if_pos hfree, pure_eq_ok, Prod.mk.injEq] at hwrite
      obtain ⟨rfl, rfl⟩ := hwrite
      refine .inr
        { valid := hgetD ▸ hvalid, number := hderives, cycleFree := hfree.1, identityFree := ?_,
          id := rfl, ofClass := rfl, terms := ?_, isOpen := by simp [successor], cycles := rfl,
          reservation := ⟨_, by rw [hgetD]; rfl, rfl, rfl, hprint, rfl⟩ }
      · rw [hgetD]
        exact hfree.2
      · rw [BillCycle.terms, successor, ← hboundary, ← hnext]
    · rw [if_neg hfree] at hwrite
      cases hnow : getObligationCommandReservation T q.classId commandName key with
      | none => simp [hnow, throw, throwThe, MonadExceptOf.throw] at hwrite
      | some r =>
        simp only [hnow, bind_eq_ok, pure_eq_ok, Prod.mk.injEq] at hwrite
        obtain ⟨d, hd, rfl, rfl⟩ := hwrite
        obtain ⟨hr, hidentity⟩ := getObligationCommandReservation_some hnow
        obtain ⟨e, he⟩ := hT.records r hr
        obtain ⟨rfl, hterms⟩ := replay_ok he hd
        exact .inl ⟨rfl, ⟨r, hr, hidentity, he.cycle⟩, hterms⟩

theorem withdrawAssessment_tables {correlationId : String} {reference : Option Instant}
    {a : ObligationAssessment}
    (h : withdrawAssessment T now key correlationId reference = .ok (a, T')) :
    T'.billCycles = T.billCycles ∧ T'.commandReservations = T.commandReservations := by
  rw [withdrawAssessment, demand_bind_eq_ok] at h
  obtain ⟨b, -, h⟩ := h
  cases hw : T.assessmentEvents.find? (fun e ↦ e.correlationId = correlationId ∧
      e.eventType = .withdrawn) with
  | some e =>
    simp only [hw, pure_eq_ok, Prod.mk.injEq] at h
    obtain ⟨-, rfl⟩ := h
    exact ⟨rfl, rfl⟩
  | none =>
    simp only [hw] at h
    rw [demand_bind_eq_ok] at h
    obtain ⟨cycle, -, h⟩ := h
    rw [require_bind_eq_ok] at h
    obtain ⟨-, h⟩ := h
    rw [require_bind_eq_ok] at h
    obtain ⟨-, h⟩ := h
    rw [pure_eq_ok, Prod.mk.injEq] at h
    obtain ⟨-, rfl⟩ := h
    exact ⟨rfl, rfl⟩

theorem withdrawUntouched_tables {reference : Option Instant} {as : List ObligationAssessment}
    (h : withdrawUntouched now key reference T as = .ok T') :
    T'.billCycles = T.billCycles ∧ T'.commandReservations = T.commandReservations := by
  induction as generalizing T with
  | nil =>
    obtain rfl := pure_eq_ok.1 h
    exact ⟨rfl, rfl⟩
  | cons a as ih =>
    rw [withdrawUntouched] at h
    split_ifs at h with htouched
    · exact ih h
    · simp only [bind_eq_ok, Prod.exists] at h
      obtain ⟨e, T₁, hfirst, hrest⟩ := h
      obtain ⟨hcycles, hreservations⟩ := withdrawAssessment_tables hfirst
      obtain ⟨hcycles', hreservations'⟩ := ih hrest
      exact ⟨hcycles'.trans hcycles, hreservations'.trans hreservations⟩

/-- What an accepted termination writes of an open lineage. -/
structure Terminates (seen T : ObligationTables) (t : TerminateBillCycleRequest) (c : BillCycle)
    (T' : ObligationTables) : Prop where
  ref : c.internalRef = t.internalRef
  number : c.cycleNumber = (lineage seen t.internalRef).length + 1
  opens : ∀ d ∈ lineage seen t.internalRef, d.classId = c.classId ∧ d.nextAssessmentAt ≠ none
  free : CycleFree T t.internalRef c.cycleNumber
  id : c.id = T.billCycles.length + 1
  terminal : c.nextAssessmentAt = none
  cycles : T'.billCycles = T.billCycles ++ [c]
  reservations : T'.commandReservations = T.commandReservations

/-- An accepted termination returns a terminal row that is there, or adds one. -/
theorem terminateBillCycle_ok (hseen : SuccessionInvariant sha256 seen)
    (hok : terminateBillCycle seen T now t = .ok (c, T')) :
    (T' = T ∧ c ∈ lineage seen t.internalRef ∧ c.nextAssessmentAt = none) ∨
      Terminates seen T t c T' := by
  rw [terminateBillCycle, bind_eq_ok] at hok
  obtain ⟨reading, hread, hwrite⟩ := hok
  rw [readTermination, demand_bind_eq_ok] at hread
  obtain ⟨latest, hlatest, hread⟩ := hread
  rw [require_bind_eq_ok] at hread
  obtain ⟨hclass, hread⟩ := hread
  have hlinear := hseen.linear t.internalRef
  obtain ⟨hmem, hlast⟩ := hlinear.latest hlatest
  by_cases hterminal : latest.nextAssessmentAt = none
  · rw [if_pos hterminal] at hread
    obtain rfl := pure_eq_ok.1 hread
    rw [writeTermination, pure_eq_ok, Prod.mk.injEq] at hwrite
    obtain ⟨rfl, rfl⟩ := hwrite
    exact .inl ⟨rfl, hmem, hterminal⟩
  · rw [if_neg hterminal, bind_eq_ok] at hread
    obtain ⟨instant, -, hread⟩ := hread
    obtain rfl := pure_eq_ok.1 hread
    simp only [writeTermination, bind_eq_ok] at hwrite
    obtain ⟨T₁, hwithdrawn, hwrite⟩ := hwrite
    obtain ⟨hcycles, hreservations⟩ := withdrawUntouched_tables hwithdrawn
    obtain ⟨_, hfree, hwrite⟩ := hwrite
    rw [require_eq_ok] at hfree
    rw [pure_eq_ok, Prod.mk.injEq] at hwrite
    obtain ⟨rfl, rfl⟩ := hwrite
    have href : latest.internalRef = t.internalRef := (mem_lineage.1 hmem).2
    refine .inr
      { ref := href, number := congrArg (· + 1) hlast, opens := ?_, free := ?_,
        id := by rw [terminalCycle, hcycles], terminal := rfl, cycles := by rw [hcycles],
        reservations := hreservations }
    · intro d hd
      exact ⟨hlinear.oneClass d hd latest hmem, hlinear.none_terminal hmem hlast hterminal d hd⟩
    · rw [← href]
      intro d hd
      exact hfree d (hcycles ▸ hd)

end Commands

section Steps

variable {q : ScheduleNextBillCycleRequest} {t : TerminateBillCycleRequest}

theorem linear_concat (h : ∀ ref, LinearLineage (lineage T ref))
    (hcycles : T'.billCycles = T.billCycles ++ [c])
    (hnumber : c.cycleNumber = (lineage T c.internalRef).length + 1)
    (hopen : ∀ d ∈ lineage T c.internalRef, d.classId = c.classId ∧ d.nextAssessmentAt ≠ none)
    (ref : String) : LinearLineage (lineage T' ref) := by
  rw [lineage_concat hcycles]
  split_ifs with href
  · subst href
    exact (h c.internalRef).concat hnumber (fun d hd ↦ (hopen d hd).1) (fun d hd ↦ (hopen d hd).2)
  · exact h ref

theorem Succeeds.extends (h : Succeeds sha256 seen T q c T') : Extends T T' := by
  obtain ⟨r, -, -, -, -, hreservations⟩ := h.reservation
  exact ⟨h.cycles ▸ List.prefix_append _ _, hreservations ▸ List.prefix_append _ _⟩

theorem Terminates.extends (h : Terminates seen T t c T') : Extends T T' :=
  ⟨h.cycles ▸ List.prefix_append _ _, h.reservations ▸ List.prefix_refl _⟩

theorem SuccessionInvariant.ids_concat (h : SuccessionInvariant sha256 T)
    (hcycles : T'.billCycles = T.billCycles ++ [c]) (hid : c.id = T.billCycles.length + 1) :
    ∀ d ∈ T'.billCycles, d.id ≤ T'.billCycles.length := by
  intro d hd
  rw [hcycles, List.length_append, List.length_singleton]
  rw [hcycles, List.mem_append, List.mem_singleton] at hd
  rcases hd with hd | rfl
  · have hle := h.ids d hd
    omega
  · omega

/-- A row under the next id is the one that the id finds. -/
theorem SuccessionInvariant.billCycle_concat (h : SuccessionInvariant sha256 T)
    (hcycles : T'.billCycles = T.billCycles ++ [c]) (hid : c.id = T.billCycles.length + 1) :
    billCycle T' (some c.id) = some c := by
  have hnone : T.billCycles.find? (·.id = c.id) = none := by
    rw [List.find?_eq_none]
    intro d hd heq
    have hle := h.ids d hd
    have heq : d.id = c.id := by simpa using heq
    omega
  rw [billCycle, Option.bind_some, hcycles, List.find?_append, hnone]
  simp

theorem SuccessionInvariant.succeeds (h : SuccessionInvariant sha256 T)
    (hseen : SuccessionInvariant sha256 seen) (hext : Extends seen T)
    (hs : Succeeds sha256 seen T q c T') : SuccessionInvariant sha256 T' := by
  have href : c.internalRef = q.internalRef := congrArg SuccessionTerms.internalRef hs.terms
  obtain ⟨hnumber, hopen⟩ := hs.number.current (hseen.linear _) (h.linear _) hext hs.cycleFree
  obtain ⟨r, hidentity, hversion, hcycle, hprint, hreservations⟩ := hs.reservation
  have hnew : billCycle T' (some c.id) = some c := h.billCycle_concat hs.cycles hs.id
  have hrecords : Records sha256 T' r c :=
    { cycle := by rw [hcycle, hnew]
      ofClass := hs.ofClass.trans (congrArg Prod.fst hidentity).symm
      isOpen := hs.isOpen
      version := hversion
      datetimes := hs.terms ▸ q.datetimes
      fingerprint := hs.terms ▸ hprint
      valid := by
        have hclass : r.classId = q.classId := congrArg Prod.fst hidentity
        have hkey : r.idempotencyKey = q.idempotencyKey.getD "" :=
          congrArg (fun i ↦ i.2.2) hidentity
        rw [hclass, hkey, href]
        exact hs.valid }
  exact
    { ids := h.ids_concat hs.cycles hs.id
      linear := linear_concat h.linear hs.cycles (href ▸ hnumber)
        (fun d hd ↦ by rw [hs.ofClass]; exact hopen d (href ▸ hd))
      records := by
        intro s hmem
        rw [hreservations, List.mem_append, List.mem_singleton] at hmem
        rcases hmem with hmem | rfl
        · obtain ⟨d, hd⟩ := h.records s hmem
          exact ⟨d, hd.extends hs.extends⟩
        · exact ⟨c, hrecords⟩
      identities := by
        rw [hreservations, List.map_append, List.map_singleton, List.nodup_append]
        refine ⟨h.identities, List.nodup_singleton _, ?_⟩
        intro i hi j hj
        obtain ⟨s, hmem, rfl⟩ := List.mem_map.1 hi
        rw [List.mem_singleton.1 hj, hidentity]
        exact getObligationCommandReservation_none.1 hs.identityFree s hmem
      owned := by
        rw [hreservations, List.map_append, List.map_singleton, List.nodup_append]
        refine ⟨h.owned, List.nodup_singleton _, ?_⟩
        intro i hi j hj
        obtain ⟨s, hmem, rfl⟩ := List.mem_map.1 hi
        obtain ⟨d, hd⟩ := h.records s hmem
        obtain ⟨hdmem, hdid⟩ := billCycle_mem hd.cycle
        have hle := h.ids d hdmem
        rw [List.mem_singleton.1 hj, hcycle, hs.id, Option.some.inj hdid]
        omega }

theorem SuccessionInvariant.terminates (h : SuccessionInvariant sha256 T)
    (hext : Extends seen T) (ht : Terminates seen T t c T') : SuccessionInvariant sha256 T' := by
  have hsame : lineage T t.internalRef = lineage seen t.internalRef :=
    lineage_eq_of_free (h.linear _) hext (ht.number ▸ ht.free)
  have hnumber : c.cycleNumber = (lineage T c.internalRef).length + 1 := by
    rw [ht.ref, hsame]
    exact ht.number
  exact
    { ids := h.ids_concat ht.cycles ht.id
      linear := linear_concat h.linear ht.cycles hnumber (by rw [ht.ref, hsame]; exact ht.opens)
      records := by
        intro r hr
        obtain ⟨d, hd⟩ := h.records r (ht.reservations ▸ hr)
        exact ⟨d, hd.extends ht.extends⟩
      identities := ht.reservations ▸ h.identities
      owned := ht.reservations ▸ h.owned }

theorem Command.answer_keeps (hseen : SuccessionInvariant sha256 seen) (h : SuccessionInvariant sha256 T)
    (hext : Extends seen T) {command : Command}
    (hok : command.answer sha256 zones seen T now = .ok (c, T')) :
    SuccessionInvariant sha256 T' ∧ Extends T T' := by
  cases command with
  | schedule q =>
    rcases scheduleNextBillCycle_ok hseen h hext hok with ⟨rfl, -⟩ | hs
    · exact ⟨h, Extends.refl _⟩
    · exact ⟨h.succeeds hseen hext hs, hs.extends⟩
  | terminate t =>
    rcases terminateBillCycle_ok hseen hok with ⟨rfl, -⟩ | ht
    · exact ⟨h, Extends.refl _⟩
    · exact ⟨h.terminates hext ht, ht.extends⟩

structure HistoryInvariant (sha256 : String → String) (S : ObligationHistory) : Prop where
  tables : SuccessionInvariant sha256 S.tables
  past : ∀ T ∈ S.past, SuccessionInvariant sha256 T ∧ Extends T S.tables

variable {S : ObligationHistory}

theorem HistoryInvariant.before (h : HistoryInvariant sha256 S) (since : ℕ) :
    SuccessionInvariant sha256 (S.before since) ∧ Extends (S.before since) S.tables := by
  rw [ObligationHistory.before]
  cases hget : (S.tables :: S.past)[since]? with
  | none => exact ⟨h.tables, Extends.refl _⟩
  | some T =>
    rcases List.mem_cons.1 (List.mem_of_getElem? hget) with rfl | hmem
    · exact ⟨h.tables, Extends.refl _⟩
    · exact h.past T hmem

theorem HistoryInvariant.push (h : HistoryInvariant sha256 S)
    (hT : SuccessionInvariant sha256 T) (hext : Extends S.tables T) :
    HistoryInvariant sha256 (S.push T) where
  tables := hT
  past := by
    intro U hU
    rcases List.mem_cons.1 hU with rfl | hU
    · exact ⟨h.tables, hext⟩
    · exact ⟨(h.past U hU).1, (h.past U hU).2.trans hext⟩

theorem SuccessionInvariant.recorded (h : SuccessionInvariant sha256 T)
    (events : List ObligationAssessment) :
    SuccessionInvariant sha256 { T with assessmentEvents := events } where
  ids := h.ids
  linear := h.linear
  records := by
    intro r hr
    obtain ⟨c, hc⟩ := h.records r hr
    exact ⟨c, hc.extends ⟨List.prefix_refl _, List.prefix_refl _⟩⟩
  identities := h.identities
  owned := h.owned

theorem step_keeps (h : HistoryInvariant sha256 S) (a : Action) :
    HistoryInvariant sha256 (step sha256 zones S a) ∧
      Extends S.tables (step sha256 zones S a).tables := by
  cases a with
  | recorded events =>
    have hext : Extends S.tables { S.tables with assessmentEvents := S.tables.assessmentEvents ++
      events } := ⟨List.prefix_refl _, List.prefix_refl _⟩
    exact ⟨h.push (h.tables.recorded _) hext, hext⟩
  | command since now command =>
    obtain ⟨hseen, hext⟩ := h.before since
    have hkeeps : SuccessionInvariant sha256 (step sha256 zones S (.command since now command)).tables ∧
        Extends S.tables (step sha256 zones S (.command since now command)).tables := by
      refine committed_relates (R := fun T T' ↦ SuccessionInvariant sha256 T' ∧ Extends T T')
        ⟨h.tables, Extends.refl _⟩ ?_
      intro c T' hok
      exact Command.answer_keeps hseen h.tables hext hok
    exact ⟨h.push hkeeps.1 hkeeps.2, hkeeps.2⟩

theorem run_keeps (h : HistoryInvariant sha256 S) (as : List Action) :
    HistoryInvariant sha256 (run (step sha256 zones) S as) ∧
      Extends S.tables (run (step sha256 zones) S as).tables :=
  run_relates (R := fun S S' ↦ Extends S.tables S'.tables) h (fun _ ↦ Extends.refl _)
    (fun _ _ _ ↦ Extends.trans) (fun _ a hS ↦ step_keeps hS a) as

theorem initial_invariant (events : List ObligationAssessment) :
    HistoryInvariant sha256 (.initial events) where
  tables :=
    { ids := by simp [ObligationHistory.initial]
      linear := fun _ ↦ LinearLineage.nil
      records := by simp [ObligationHistory.initial]
      identities := List.nodup_nil
      owned := List.nodup_nil }
  past := by simp [ObligationHistory.initial]

theorem lineage_ended (hT' : LinearLineage (lineage T' ref)) (hT : LinearLineage (lineage T ref))
    (hext : Extends T T') (hc : c ∈ lineage T ref) (hterminal : c.nextAssessmentAt = none) :
    lineage T' ref = lineage T ref := by
  have hlast := hT.terminal_last c hc hterminal
  have hlast' := hT'.terminal_last c ((hext.lineage ref).subset hc) hterminal
  exact ((hext.lineage ref).eq_of_length (hlast.symm.trans hlast')).symm

end Steps

section Lineage

variable {q : ScheduleNextBillCycleRequest} {key : String} {S : ObligationHistory}

/-- An identity that a call finds recorded is answered by its cycle or refused. -/
theorem repeated_identity (hseen : SuccessionInvariant sha256 seen)
    (h : SuccessionInvariant sha256 T) (hext : Extends seen T)
    (howns : Owns seen q.classId key c) (hkey : q.idempotencyKey = some key) :
    (q.toSuccessionTerms = c.terms →
      scheduleNextBillCycle sha256 zones seen T now q = .ok (c, T)) ∧
    (¬ SameTerms sha256 q.toSuccessionTerms c.terms →
      ∃ e, scheduleNextBillCycle sha256 zones seen T now q = .error e) := by
  constructor
  · intro hterms
    obtain ⟨r, hr, hidentity, hc⟩ := howns
    obtain ⟨d, hd⟩ := hseen.records r hr
    obtain rfl := Option.some.inj (hc.symm.trans hd.cycle)
    rw [ObligationCommandReservation.identity, Prod.mk.injEq, Prod.mk.injEq] at hidentity
    obtain ⟨hclass, hcommand, hrkey⟩ := hidentity
    have hvalid : validateIdentity q = .ok key := by
      have href : q.internalRef = c.internalRef := congrArg SuccessionTerms.internalRef hterms
      rw [validateIdentity_eq_ok, ← hclass, href, ← hrkey]
      exact ⟨hrkey ▸ hkey, hd.valid⟩
    have hget := hseen.getReservation hr
    rw [hclass, hcommand, hrkey] at hget
    rw [scheduleNextBillCycle, readSuccession, hvalid, ok_bind]
    simp only [hget, replay_same hd hterms]
    rfl
  · intro hne
    cases hanswer : scheduleNextBillCycle sha256 zones seen T now q with
    | error e => exact ⟨e, rfl⟩
    | ok p =>
      exfalso
      have hT := howns.extends hext
      have hgetD : q.idempotencyKey.getD "" = key := by rw [hkey, Option.getD_some]
      rcases scheduleNextBillCycle_ok hseen h hext hanswer with ⟨-, howner, hterms⟩ | hs
      · rw [hgetD] at howner
        rw [h.owns_unique howner hT] at hterms
        exact hne hterms
      · obtain ⟨r, hr, hidentity, -⟩ := hT
        exact getObligationCommandReservation_none.1 hs.identityFree r hr (hgetD ▸ hidentity)

/-- The law of bill-cycle commands, at tables that some commands have led to. -/
structure KeepsOneLineage (sha256 : String → String) (zones : String → ClassZone)
    (S : ObligationHistory) : Prop where
  linear : ∀ ref, LinearLineage (lineage S.tables ref)
  ended : ∀ ref, (∃ c ∈ lineage S.tables ref, c.nextAssessmentAt = none) → ∀ as,
    lineage (run (step sha256 zones) S as).tables ref = lineage S.tables ref
  accepted : ∀ since now q c T',
    scheduleNextBillCycle sha256 zones (S.before since) S.tables now q = .ok (c, T') →
      Owns T' q.classId (q.idempotencyKey.getD "") c ∧
        SameTerms sha256 q.toSuccessionTerms c.terms
  owns_one : ∀ classId key c d, Owns S.tables classId key c → Owns S.tables classId key d → c = d
  one_owner : ∀ classId key classId' key' c, Owns S.tables classId key c →
    Owns S.tables classId' key' c → classId = classId' ∧ key = key'
  owns_kept : ∀ classId key c as, Owns S.tables classId key c →
    Owns (run (step sha256 zones) S as).tables classId key c
  repeated : ∀ since now q key c, q.idempotencyKey = some key →
    Owns (S.before since) q.classId key c →
      (q.toSuccessionTerms = c.terms →
        scheduleNextBillCycle sha256 zones (S.before since) S.tables now q = .ok (c, S.tables)) ∧
      (¬ SameTerms sha256 q.toSuccessionTerms c.terms →
        ∃ e, scheduleNextBillCycle sha256 zones (S.before since) S.tables now q = .error e)
  refused : ∀ since now command e,
    Command.answer sha256 zones (S.before since) S.tables now command = .error e →
      (step sha256 zones S (.command since now command)).tables = S.tables
  replayed : ∀ since now q c, Owns S.tables q.classId (q.idempotencyKey.getD "") c →
    (step sha256 zones S (.command since now (.schedule q))).tables = S.tables
  terminated : ∀ since now t, (∃ c ∈ lineage S.tables t.internalRef, c.nextAssessmentAt = none) →
    (step sha256 zones S (.command since now (.terminate t))).tables = S.tables

theorem keepsOneLineage (h : HistoryInvariant sha256 S) :
    KeepsOneLineage sha256 zones S where
  linear := h.tables.linear
  ended := by
    rintro ref ⟨c, hc, hterminal⟩ as
    have hkeeps : HistoryInvariant sha256 (run (step sha256 zones) S as) ∧ _ := run_keeps h as
    obtain ⟨h', hext⟩ := hkeeps
    exact lineage_ended (h'.tables.linear ref) (h.tables.linear ref) hext hc hterminal
  accepted := by
    intro since now q c T' hok
    obtain ⟨hseen, hext⟩ := h.before since
    rcases scheduleNextBillCycle_ok hseen h.tables hext hok with ⟨rfl, howns, hterms⟩ | hs
    · exact ⟨howns, hterms⟩
    · obtain ⟨r, hidentity, -, hid, -, hreservations⟩ := hs.reservation
      refine ⟨⟨r, ?_, hidentity, ?_⟩, fun _ ↦ hs.terms.symm⟩
      · rw [hreservations]
        exact List.mem_append_right _ (List.mem_singleton_self r)
      · rw [hid]
        exact h.tables.billCycle_concat hs.cycles hs.id
  owns_one := fun _ _ _ _ ↦ h.tables.owns_unique
  one_owner := fun _ _ _ _ _ ↦ h.tables.owner_unique
  owns_kept := by
    intro classId key c as howns
    exact howns.extends (run_keeps h as).2
  repeated := by
    intro since now q key c hkey howns
    obtain ⟨hseen, hext⟩ := h.before since
    exact repeated_identity hseen h.tables hext howns hkey
  refused := by
    intro since now command e herror
    show committed S.tables _ = S.tables
    rw [herror]
    rfl
  replayed := by
    intro since now q c howns
    obtain ⟨hseen, hext⟩ := h.before since
    refine (committed_relates (R := fun T T' ↦ T = T') rfl ?_).symm
    intro d T' hok
    rcases scheduleNextBillCycle_ok hseen h.tables hext hok with ⟨rfl, -⟩ | hs
    · rfl
    · obtain ⟨r, hr, hidentity, -⟩ := howns
      exact absurd hidentity (getObligationCommandReservation_none.1 hs.identityFree r hr)
  terminated := by
    rintro since now t ⟨c, hc, hterminal⟩
    obtain ⟨hseen, hext⟩ := h.before since
    refine (committed_relates (R := fun T T' ↦ T = T') rfl ?_).symm
    intro d T' hok
    rcases terminateBillCycle_ok hseen hok with ⟨rfl, -⟩ | ht
    · rfl
    · -- the lineage is as it was read, and that one was open
      have hsame := lineage_eq_of_free (h.tables.linear t.internalRef) hext (ht.number ▸ ht.free)
      exact absurd hterminal (ht.opens c (hsame ▸ hc)).2

/-- Successions and terminations keep each lineage one line of cycles, whatever the keys, the
boundaries and the order, and however long before their writes they read the tables. -/
theorem bill_cycle_lineage_is_linear (sha256 : String → String)
    (zones : String → ClassZone) (events : List ObligationAssessment) (as : List Action) :
    KeepsOneLineage sha256 zones (run (step sha256 zones) (.initial events) as) :=
  keepsOneLineage (run_keeps (initial_invariant events) as).1

def dayZone : ClassZone where
  localDate t := t / 86400000000
  startOfDate d := d * 86400000000
  startOfDate_localDate := dayStart_steady

def tenMicroseconds (key : String) (start : ℕ) : Command :=
  .schedule
    { internalRef := "rent", policyUuid := none, sourceVersionId := some "v1",
      cycleBoundaryAt := some start, nextAssessmentAt := some (start + 10),
      graceBoundaryAt := none, classId := "a", idempotencyKey := some key,
      referenceTimeUtc := some start,
      datetimes := by
        rintro t (ht | ht | ht)
        · obtain rfl := Option.some.inj ht
          show (1 : ℤ) ≤ start / 86400000000 + 719163
          omega
        · obtain rfl := Option.some.inj ht
          show (1 : ℤ) ≤ (start + 10) / 86400000000 + 719163
          omega
        · cases ht }

/-- Two periods, an overtaken request for the second and an end: nothing follows the end. -/
theorem bill_cycle_lineage_is_linear_ended :
    let now : Moment := ⟨0, fun _ _ ↦ none⟩
    let S := run (step id (fun _ ↦ dayZone)) (.initial []) [.command 0 now (tenMicroseconds "k1" 0),
      .command 0 now (tenMicroseconds "k2" 10), .command 1 now (tenMicroseconds "k3" 10),
      .command 0 now (.terminate ⟨"a", "rent", none, some 12⟩)]
    ((lineage S.tables "rent").map (fun c ↦ (c.cycleNumber, c.nextAssessmentAt))) =
        [(1, some 10), (2, some 20), (3, none)] ∧
      ∀ as, lineage (run (step id (fun _ ↦ dayZone)) S as).tables "rent" =
        lineage S.tables "rent" := by
  intro now S
  have hlineage : ((lineage S.tables "rent").map (fun c ↦ (c.cycleNumber, c.nextAssessmentAt))) =
      [(1, some 10), (2, some 20), (3, none)] := by decide +kernel
  refine ⟨hlineage, fun as ↦ ?_⟩
  refine (bill_cycle_lineage_is_linear id (fun _ ↦ dayZone) [] _).ended
    "rent" ?_ as
  decide +kernel

end Lineage

end TokenHub.Obligations
