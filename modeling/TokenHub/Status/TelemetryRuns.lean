import Mathlib.Data.List.Induction
import Mathlib.Data.List.Perm.Basic
import TokenHub.Status.Telemetry

set_option autoImplicit false

namespace TokenHub.Status

open Lib.Checks Lib.Runs
open Rent (Instant)

variable {S : TelemetryStore} {d : Attempt} {ds : List Attempt} {s : Snapshot} {t now : Instant}
  {schema : Schema} {c : Component} {key : String} {v : Activity}

section Counting

theorem Counters.Partition.count {counters : Counters} (h : counters.Partition)
    (state : ComponentState) : (counters.count state).Partition := by
  obtain ⟨hsampled, hmeasured⟩ := h
  constructor
  · cases state <;> simp [Counters.count, ComponentState.eligible] <;> omega
  · cases state <;> simp [Counters.count, ComponentState.eligible] <;> omega

theorem Counters.count_comm (counters : Counters) (state state' : ComponentState) :
    (counters.count state).count state' = (counters.count state').count state := by
  simp only [Counters.count, Counters.mk.injEq, true_and]
  exact ⟨Nat.add_right_comm _ _ _, Nat.add_right_comm _ _ _, Nat.add_right_comm _ _ _,
    Nat.add_right_comm _ _ _, Nat.add_right_comm _ _ _⟩

theorem DayRecord.countComponent_comm (day : DayRecord) (p q : String × ComponentState) :
    (day.countComponent p).countComponent q = (day.countComponent q).countComponent p := by
  by_cases hkey : p.1 = q.1
  · simp only [countComponent, hkey, Function.update_self, Function.update_idem, Option.getD_some]
    rw [Counters.count_comm]
  · simp only [countComponent, Function.update_of_ne hkey, Function.update_of_ne (Ne.symm hkey)]
    exact Function.update_comm hkey _ _ _

theorem DayRecord.countSnapshot_comm (day : DayRecord) (s s' : Snapshot) :
    (day.countSnapshot s).countSnapshot s' = (day.countSnapshot s').countSnapshot s := by
  have hperm : (s.states ++ s'.states).Perm (s'.states ++ s.states) := List.perm_append_comm
  have hfold := hperm.foldl_eq' (f := DayRecord.countComponent)
    (fun p _ q _ day ↦ countComponent_comm day p q) day
  rw [List.foldl_append, List.foldl_append] at hfold
  exact hfold

theorem dayOf_snoc (l : List Snapshot) (s : Snapshot) (date : ℤ) : dayOf (l ++ [s]) date =
    if dateOf s.sampledAt = date then
      some (((dayOf l date).getD fun _ ↦ none).countSnapshot s)
    else dayOf l date := by
  rw [dayOf, List.filter_append, List.foldl_append]
  split_ifs with hdate
  · rw [List.filter_cons_of_pos (by simpa using hdate)]
    rfl
  · rw [List.filter_cons_of_neg (by simpa using hdate)]
    rfl

/-- A day's record does not depend on the order in which its minutes came. -/
theorem dayOf_perm {l l' : List Snapshot} (h : l.Perm l') : dayOf l = dayOf l' := by
  funext date
  refine (h.filter _).foldl_eq' ?_ none
  intro s _ s' _ day
  rw [Option.getD_some, Option.getD_some, DayRecord.countSnapshot_comm]

def DayRecord.Partitioned (day : DayRecord) : Prop := ∀ key, ∀ counters ∈ day key, counters.Partition

theorem DayRecord.Partitioned.countSnapshot {day : DayRecord} (h : day.Partitioned) (s : Snapshot) :
    (day.countSnapshot s).Partitioned := by
  rw [DayRecord.countSnapshot]
  generalize s.states = states
  induction states generalizing day with
  | nil => exact h
  | cons p states ih =>
    refine ih ?_
    intro key counters hcounters
    by_cases hkey : key = p.1
    · rw [DayRecord.countComponent, hkey, Function.update_self] at hcounters
      obtain rfl := Option.some.inj hcounters
      cases hold : day p.1 with
      | none => exact Counters.Partition.count ⟨rfl, rfl⟩ p.2
      | some old => exact (h p.1 old hold).count p.2
    · rw [DayRecord.countComponent, Function.update_of_ne hkey] at hcounters
      exact h key counters hcounters

end Counting

section Steps

theorem telemetryStep_of_error (h : ¬ d.check = .ok ()) : telemetryStep S d = S := by
  rw [telemetryStep, appendSnapshot]
  cases hcheck : d.check with
  | error e => rfl
  | ok u => exact absurd hcheck h

theorem telemetryStep_advances (h : d.check = .ok ()) (hadvances : S.Advances d) :
    telemetryStep S d = { S.record d with current := some ⟨d, S.activityAfter d⟩ } := by
  rw [telemetryStep, appendSnapshot, h, ok_bind, if_pos hadvances]
  rfl

theorem telemetryStep_stays (h : d.check = .ok ()) (hstays : ¬ S.Advances d) :
    telemetryStep S d = S.record d := by
  rw [telemetryStep, appendSnapshot, h, ok_bind, if_neg hstays]
  rfl

theorem record_current : (S.record d).current = S.current := by
  rw [TelemetryStore.record]
  split
  · split_ifs <;> rfl
  · rfl

/-- A step leaves the current attempt or puts the delivery in its place. -/
theorem telemetryStep_current (S : TelemetryStore) (d : Attempt) :
    (telemetryStep S d).current = S.current ∨
      (d.check = .ok () ∧ S.Advances d ∧
        (telemetryStep S d).current = some ⟨d, S.activityAfter d⟩) := by
  by_cases hcheck : d.check = .ok ()
  · by_cases hadvances : S.Advances d
    · right
      rw [telemetryStep_advances hcheck hadvances]
      exact ⟨hcheck, hadvances, rfl⟩
    · left
      rw [telemetryStep_stays hcheck hadvances, record_current]
  · left
    rw [telemetryStep_of_error hcheck]

theorem telemetryStep_sources (S : TelemetryStore) (d : Attempt) :
    (telemetryStep S d).sources = if d.check = .ok () then (S.record d).sources else S.sources := by
  split_ifs with hcheck
  · by_cases hadvances : S.Advances d
    · rw [telemetryStep_advances hcheck hadvances]
    · rw [telemetryStep_stays hcheck hadvances]
  · rw [telemetryStep_of_error hcheck]

theorem telemetryStep_days (S : TelemetryStore) (d : Attempt) :
    (telemetryStep S d).days = if d.check = .ok () then (S.record d).days else S.days := by
  split_ifs with hcheck
  · by_cases hadvances : S.Advances d
    · rw [telemetryStep_advances hcheck hadvances]
    · rw [telemetryStep_stays hcheck hadvances]
  · rw [telemetryStep_of_error hcheck]

theorem neverRewinds (S : TelemetryStore) (d : Attempt) : NeverRewinds S d := by
  intro cur hcur
  rcases telemetryStep_current S d with hsame | ⟨-, hadvances, hnew⟩
  · exact ⟨cur, hsame ▸ hcur, .inl rfl⟩
  · exact ⟨_, hnew, .inr (hadvances.1 cur hcur)⟩

theorem Delivers.snoc_iff : Delivers (ds ++ [d]) s ↔
    Delivers ds s ∨ d.check = .ok () ∧ d.snapshot = some s := by
  simp only [Delivers, List.mem_append, List.mem_singleton, or_and_right, exists_or,
    exists_eq_left]

/-- A delivery that brings a new minute counts it; any other leaves what is counted. -/
theorem CountedOnce.step (h : CountedOnce S ds) (hminutes : OnePerMinute (ds ++ [d])) :
    CountedOnce (telemetryStep S d) (ds ++ [d]) := by
  by_cases hnew : d.check = .ok () ∧ ∃ s, d.snapshot = some s ∧ ¬ S.Recorded s
  · obtain ⟨hcheck, s, hs, hunrecorded⟩ := hnew
    have hrecord : S.record d =
        { S with
          sources := S.sources ++ [⟨s, d.receivedAt⟩]
          days := Function.update S.days (dateOf s.sampledAt)
            (some (((S.days (dateOf s.sampledAt)).getD fun _ ↦ none).countSnapshot s)) } := by
      rw [TelemetryStore.record, hs]
      exact if_neg hunrecorded
    have hsources : (telemetryStep S d).sources = S.sources ++ [⟨s, d.receivedAt⟩] := by
      rw [telemetryStep_sources, if_pos hcheck, hrecord]
    have hdays : (telemetryStep S d).days = Function.update S.days (dateOf s.sampledAt)
        (some (((S.days (dateOf s.sampledAt)).getD fun _ ↦ none).countSnapshot s)) := by
      rw [telemetryStep_days, if_pos hcheck, hrecord]
    constructor
    · rw [hsources, List.map_append]
      refine List.Nodup.append h.minutes (List.nodup_singleton _) ?_
      intro minute hold hminute
      obtain ⟨m, hm, rfl⟩ := List.mem_map.1 hold
      exact hunrecorded ⟨m, hm, List.mem_singleton.1 hminute⟩
    · intro s'
      rw [hsources, List.map_append, List.mem_append, h.delivered, Delivers.snoc_iff]
      refine or_congr Iff.rfl ?_
      rw [List.map_singleton, List.mem_singleton, hs, Option.some.injEq]
      exact ⟨fun heq ↦ ⟨hcheck, heq.symm⟩, fun heq ↦ heq.2.symm⟩
    · intro date
      rw [hsources, hdays, List.map_append, List.map_singleton, dayOf_snoc]
      split_ifs with hdate
      · rw [← hdate, Function.update_self, h.days]
      · rw [Function.update_of_ne (Ne.symm hdate), h.days]
  · have hrecord : d.check = .ok () → (S.record d).sources = S.sources ∧
        (S.record d).days = S.days := by
      intro hcheck
      rw [TelemetryStore.record]
      split
      · rename_i s hs
        rw [if_pos (not_not.1 fun hunrecorded ↦ hnew ⟨hcheck, s, hs, hunrecorded⟩)]
        exact ⟨rfl, rfl⟩
      · exact ⟨rfl, rfl⟩
    have hsources : (telemetryStep S d).sources = S.sources := by
      rw [telemetryStep_sources]
      split_ifs with hcheck
      · exact (hrecord hcheck).1
      · rfl
    have hdays : (telemetryStep S d).days = S.days := by
      rw [telemetryStep_days]
      split_ifs with hcheck
      · exact (hrecord hcheck).2
      · rfl
    constructor
    · rw [hsources]
      exact h.minutes
    · intro s
      rw [hsources, h.delivered, Delivers.snoc_iff, or_iff_left_of_imp]
      rintro ⟨hcheck, hs⟩
      -- its minute has its document, which carries the same snapshot
      have hrecorded : S.Recorded s := not_not.1 fun hunrecorded ↦ hnew ⟨hcheck, s, hs, hunrecorded⟩
      obtain ⟨m, hm, hminute⟩ := hrecorded
      have hdelivered := (h.delivered m.snapshot).1 (List.mem_map_of_mem hm)
      have hsame := hminutes m.snapshot s (Delivers.snoc_iff.2 (.inl hdelivered))
        (Delivers.snoc_iff.2 (.inr ⟨hcheck, hs⟩)) hminute
      exact hsame ▸ hdelivered
    · intro date
      rw [hsources, hdays]
      exact h.days date

end Steps

section Validated

theorem validateComponents_ok {seen : List String} {cs : List Component} :
    validateComponents schema seen cs = .ok () ↔
      (∀ c ∈ cs, c.http404FailureCount.isSome = schema.countsFailures ∧
        c.key ∈ schema.componentKeys ∧ c.key ∉ seen ∧ c.validate schema = .ok ()) ∧
      (cs.map (·.key)).Nodup := by
  induction cs generalizing seen with
  | nil => simp [validateComponents]
  | cons c cs ih =>
    rw [validateComponents, require_bind_eq_ok, require_bind_eq_ok, unit_bind_eq_ok, ih,
      List.map_cons, List.nodup_cons]
    constructor
    · rintro ⟨hfields, ⟨hkey, hseen⟩, hvalid, hrest, hnodup⟩
      refine ⟨List.forall_mem_cons.2 ⟨⟨hfields, hkey, hseen, hvalid⟩, ?_⟩, ?_, hnodup⟩
      · intro c' hc'
        obtain ⟨hfields', hkey', hseen', hvalid'⟩ := hrest c' hc'
        exact ⟨hfields', hkey', List.not_mem_of_not_mem_cons hseen', hvalid'⟩
      · intro hmem
        obtain ⟨c', hc', hsame⟩ := List.mem_map.1 hmem
        exact List.ne_of_not_mem_cons (hrest c' hc').2.2.1 hsame
    · rintro ⟨hall, hfresh, hnodup⟩
      obtain ⟨⟨hfields, hkey, hseen, hvalid⟩, hrest⟩ := List.forall_mem_cons.1 hall
      refine ⟨hfields, ⟨hkey, hseen⟩, hvalid, ?_, hnodup⟩
      intro c' hc'
      obtain ⟨hfields', hkey', hseen', hvalid'⟩ := hrest c' hc'
      refine ⟨hfields', hkey', List.not_mem_cons_of_ne_of_not_mem ?_ hseen', hvalid'⟩
      intro hsame
      exact hfresh (hsame ▸ List.mem_map_of_mem hc')

theorem validateSnapshot_ok {s' : Snapshot} : validateSnapshot s = .ok s' ↔ s = s' ∧
    ∃ schema, schemas s.schemaVersion = some schema ∧ s.windowSeconds = windowSeconds ∧
      (∀ latest ∈ s.sourceLatestAt, latest ≤ s.sampledAt) ∧
      s.components.length = schema.componentKeys.length ∧
      validateComponents schema [] s.components = .ok () := by
  rw [validateSnapshot, demand_bind_eq_ok]
  constructor
  · rintro ⟨schema, hschema, h⟩
    rw [Option.filter_eq_some_iff, decide_eq_true_iff] at hschema
    rw [require_bind_eq_ok, require_bind_eq_ok, unit_bind_eq_ok, pure_eq_ok] at h
    obtain ⟨hlatest, hlength, hcomponents, rfl⟩ := h
    exact ⟨rfl, schema, hschema.1, hschema.2, hlatest, hlength, hcomponents⟩
  · rintro ⟨rfl, schema, hschema, hwindow, hlatest, hlength, hcomponents⟩
    refine ⟨schema, ?_, ?_⟩
    · rw [Option.filter_eq_some_iff, decide_eq_true_iff]
      exact ⟨hschema, hwindow⟩
    · rw [require_bind_eq_ok, require_bind_eq_ok, unit_bind_eq_ok, pure_eq_ok]
      exact ⟨hlatest, hlength, hcomponents, rfl⟩

theorem check_ok (h : d.check = .ok ()) (hs : d.snapshot = some s) :
    validateSnapshot s = .ok s ∧ 0 ≤ d.receivedAt - s.sampledAt ∧
      d.receivedAt - s.sampledAt ≤ windowSeconds * second := by
  rw [Attempt.check, hs] at h
  simp only [validateFreshSnapshot, bind_eq_ok, pure_eq_ok, require_eq_ok, exists_const] at h
  obtain ⟨-, a, ⟨s', hvalid, ⟨hearlier, hfresh⟩, -⟩, -⟩ := h
  obtain ⟨rfl, -⟩ := validateSnapshot_ok.1 hvalid
  exact ⟨hvalid, hearlier, hfresh⟩

theorem schemas_cases {version : String} (h : schemas version = some schema) :
    schema = ⟨componentKeys, true⟩ ∨ schema = ⟨legacyComponentKeys, false⟩ := by
  rw [schemas] at h
  split_ifs at h
  · exact .inl (Option.some.inj h).symm
  · exact .inr (Option.some.inj h).symm

theorem unavailableComponent_validate (name : String) (schema : Schema) :
    (unavailableComponent name schema).validate schema = .ok () := by
  rw [Component.validate, if_pos (by rfl), require_eq_ok]
  refine ⟨?_, by simp [Component.latencies, unavailableComponent]⟩
  rw [Component.counts, unavailableComponent]
  cases schema.countsFailures <;> simp

theorem classifyComponent_sampled {sampledAt : Instant} {latest : Option Instant}
    (hlatest : ∀ l ∈ latest, l ≤ sampledAt) (hle : sampledAt ≤ now)
    (h : (classifyComponent c sampledAt latest now).state.uninformed = false) :
    (classifyComponent c sampledAt latest sampledAt).state.uninformed = false := by
  have hahead : ¬ (sampledAt < sampledAt ∨ ∃ l ∈ latest, sampledAt < l) := by
    rintro (hlt | ⟨l, hl, hlt⟩)
    · exact absurd hlt (lt_irrefl _)
    · exact absurd (hlatest l hl) (not_le.2 hlt)
  rw [classifyComponent] at h
  split_ifs at h with hnow hstale huncollected hidle
  · cases h
  · cases h
  · cases h
  all_goals
    have hfresh : ¬ (windowSeconds * second < sampledAt - sampledAt ∨
        ∃ l ∈ latest, 180 * second < sampledAt - l) := by
      rintro (hlt | ⟨l, hl, hlt⟩)
      · rw [sub_self] at hlt
        exact absurd hlt (by decide)
      · refine hstale (.inr ⟨l, hl, hlt.trans_le ?_⟩)
        exact sub_le_sub_right hle l
    rw [classifyComponent, if_neg hahead, if_neg hfresh, if_neg huncollected]
  · rw [if_pos hidle]
    rfl
  · rw [if_neg hidle]
    exact h

/-- The activity of a component that a fresh snapshot shows is retained as it is written. -/
theorem activity_retained (h : d.check = .ok ()) (hs : d.snapshot = some s) (hc : c ∈ s.components)
    (htraffic : c.requestCount.getD 0 ≠ 0)
    (hinformed : (classifyComponent c s.sampledAt s.sourceLatestAt d.receivedAt).state.uninformed =
      false) :
    Activity.Retained ⟨s.sampledAt, s.sourceLatestAt, c⟩ c.key d.receivedAt := by
  obtain ⟨hvalid, hearlier, hfresh⟩ := check_ok h hs
  obtain ⟨-, schema, hschema, -, hlatest, -, hcomponents⟩ := validateSnapshot_ok.1 hvalid
  obtain ⟨hfields, hkey, -, hc⟩ := (validateComponents_ok.1 hcomponents).1 c hc
  have hversion : schemas (if c.http404FailureCount.isSome then schemaVersion
      else legacySchemaVersion) = some schema := by
    rw [hfields]
    rcases schemas_cases hschema with rfl | rfl <;> rfl
  have hnodup : schema.componentKeys.Nodup := by
    rcases schemas_cases hschema with rfl | rfl <;> decide
  refine ⟨schema, hversion, hkey, ?_, hearlier, hfresh.trans (by decide), htraffic,
    classifyComponent_sampled hlatest (sub_nonneg.1 hearlier) hinformed⟩
  refine validateSnapshot_ok.2 ⟨rfl, schema, hversion, rfl, hlatest, List.length_map _, ?_⟩
  refine validateComponents_ok.2 ⟨?_, ?_⟩
  · intro c' hc'
    obtain ⟨name, hname, rfl⟩ := List.mem_map.1 hc'
    split_ifs with heq
    · exact ⟨hfields, hkey, List.not_mem_nil, hc⟩
    · refine ⟨?_, hname, List.not_mem_nil, unavailableComponent_validate name schema⟩
      rw [unavailableComponent]
      cases schema.countsFailures <;> rfl
  · have hkeys : (Activity.historical ⟨s.sampledAt, s.sourceLatestAt, c⟩ c.key
        (if c.http404FailureCount.isSome then schemaVersion else legacySchemaVersion)
        schema).components.map (·.key) = schema.componentKeys := by
      rw [Activity.historical, List.map_map]
      refine (List.map_congr_left ?_).trans (List.map_id _)
      intro name _
      rw [Function.comp_apply]
      split_ifs with heq
      · exact heq.symm
      · rfl
    rw [hkeys]
    exact hnodup

theorem Activity.Retained.later (h : v.Retained key now) {later : Instant} (hle : now ≤ later)
    (hage : later - v.sampledAt ≤ 7 * 86400 * second) : v.Retained key later := by
  obtain ⟨schema, hschema, hkey, hvalid, hearlier, -, htraffic, hinformed⟩ := h
  refine ⟨schema, hschema, hkey, hvalid, ?_, hage, htraffic, hinformed⟩
  exact hearlier.trans (sub_le_sub_right hle _)

theorem Activity.Retained.key_mem (h : v.Retained key now) : key ∈ componentKeys := by
  obtain ⟨schema, hschema, hkey, -⟩ := h
  have hsubset : schema.componentKeys ⊆ componentKeys := by
    rcases schemas_cases hschema with rfl | rfl <;> decide
  exact hsubset hkey

end Validated

section Invariant

/-- A sampling time that the current attempt leaves behind. -/
def TelemetryStore.Behind (S : TelemetryStore) (t : Instant) : Prop :=
  (∃ m ∈ S.sources, minuteOf m.snapshot.sampledAt = minuteOf t) ∧
    ∃ cur ∈ S.current, t ≤ cur.receivedAt ∧ ∀ u ∈ cur.snapshot, t ≤ u.sampledAt

theorem minuteOf_mono {t u : Instant} (h : t ≤ u) : minuteOf t ≤ minuteOf u :=
  Int.ediv_le_ediv (by decide) h

theorem minuteOf_minuteStart (t : Instant) : minuteOf (minuteStart t) = minuteOf t :=
  Int.mul_ediv_cancel _ (by decide)

/-- A snapshot that becomes current was sampled after all that were current before it. -/
theorem TelemetryStore.Behind.lt (h : S.Behind t) (hadvances : S.Advances d)
    (hs : d.snapshot = some s) : t < s.sampledAt := by
  obtain ⟨⟨m, hm, hminute⟩, cur, hcur, hreceived, hsampled⟩ := h
  obtain ⟨hunrecorded, hprecedes⟩ := hadvances.2 s hs
  have hprecedes := hprecedes cur hcur
  rw [CurrentAttempt.Precedes] at hprecedes
  split at hprecedes
  · rename_i p hp
    exact (hsampled p hp).trans_lt hprecedes
  · -- a failure is current: the new minute is not before its, and not the minute of `t`
    have hstart : minuteOf cur.receivedAt ≤ minuteOf s.sampledAt := by
      rw [← minuteOf_minuteStart cur.receivedAt]
      exact minuteOf_mono hprecedes
    by_contra hle
    have hsame : minuteOf t = minuteOf s.sampledAt :=
      le_antisymm ((minuteOf_mono hreceived).trans hstart) (minuteOf_mono (not_lt.1 hle))
    exact hunrecorded ⟨m, hm, hminute.trans hsame⟩

theorem mem_step_sources {m : SourceMinute} (h : m ∈ S.sources) :
    m ∈ (telemetryStep S d).sources := by
  rw [telemetryStep_sources]
  split_ifs
  · rw [TelemetryStore.record]
    split
    · split_ifs
      · exact h
      · exact List.mem_append_left _ h
    · exact h
  · exact h

theorem TelemetryStore.Behind.step (h : S.Behind t) : (telemetryStep S d).Behind t := by
  obtain ⟨m, hm, hminute⟩ := h.1
  refine ⟨⟨m, mem_step_sources hm, hminute⟩, ?_⟩
  rcases telemetryStep_current S d with hsame | ⟨-, hadvances, hnew⟩
  · rw [hsame]
    exact h.2
  · obtain ⟨cur, hcur, hreceived, -⟩ := h.2
    refine ⟨_, hnew, hreceived.trans (hadvances.1 cur hcur).le, ?_⟩
    intro u hu
    exact (h.lt hadvances hu).le

theorem behind_new (h : d.check = .ok ()) (hadvances : S.Advances d) (hs : d.snapshot = some s) :
    (telemetryStep S d).Behind s.sampledAt := by
  rw [telemetryStep_advances h hadvances]
  refine ⟨⟨⟨s, d.receivedAt⟩, ?_, rfl⟩, _, rfl, sub_nonneg.1 (check_ok h hs).2.1, ?_⟩
  · change _ ∈ (S.record d).sources
    rw [TelemetryStore.record, hs]
    dsimp only
    rw [if_neg (hadvances.2 s hs).1]
    exact List.mem_append_right _ List.mem_cons_self
  · intro u hu
    obtain rfl := Option.some.inj (hs.symm.trans hu)
    exact le_rfl

/-- What the current attempt retains is valid, and of a snapshot that was current. -/
def TelemetryInvariant (S : TelemetryStore) : Prop :=
  ∀ cur ∈ S.current, ∀ key, ∀ v ∈ cur.lastActivity key,
    v.Retained key cur.receivedAt ∧ S.Behind v.sampledAt

theorem foldl_activityOf {cs : List Component} {activity : String → Option Activity} :
    cs.foldl (activityOf s now) activity key = activity key ∨
      ∃ c ∈ cs, c.key = key ∧ c.requestCount.getD 0 ≠ 0 ∧
        (classifyComponent c s.sampledAt s.sourceLatestAt now).state.uninformed = false ∧
        cs.foldl (activityOf s now) activity key = some ⟨s.sampledAt, s.sourceLatestAt, c⟩ := by
  induction cs generalizing activity with
  | nil => exact .inl rfl
  | cons c cs ih =>
    rw [List.foldl_cons]
    rcases @ih (activityOf s now activity c) with hsame | ⟨c', hc', hnew⟩
    · rw [hsame, activityOf]
      split_ifs with hshown
      · by_cases hkey : key = c.key
        · refine .inr ⟨c, List.mem_cons_self, hkey.symm, hshown.1, hshown.2, ?_⟩
          rw [hkey, Function.update_self]
        · exact .inl (Function.update_of_ne hkey _ _)
      · exact .inl rfl
    · exact .inr ⟨c', List.mem_cons_of_mem c hc', hnew⟩

/-- A component's activity after a step: what was retained, or what the new snapshot shows. -/
theorem activityAfter_cases (S : TelemetryStore) (d : Attempt) (key : String) :
    S.activityAfter d key =
        retainedActivity (S.current.elim (fun _ ↦ none) (·.lastActivity)) d.receivedAt key ∨
      ∃ s c, d.snapshot = some s ∧ c ∈ s.components ∧ c.key = key ∧ c.requestCount.getD 0 ≠ 0 ∧
        (classifyComponent c s.sampledAt s.sourceLatestAt d.receivedAt).state.uninformed = false ∧
        S.activityAfter d key = some ⟨s.sampledAt, s.sourceLatestAt, c⟩ := by
  rw [TelemetryStore.activityAfter]
  cases hs : d.snapshot with
  | none => exact .inl rfl
  | some s =>
    rcases foldl_activityOf with hsame | ⟨c, hc, hnew⟩
    · exact .inl hsame
    · exact .inr ⟨s, c, rfl, hc, hnew⟩

theorem retainedActivity_some {activity : String → Option Activity}
    (h : retainedActivity activity now key = some v) : activity key = some v ∧ v.Retained key now := by
  rw [retainedActivity] at h
  split_ifs at h
  rw [Option.filter_eq_some_iff, decide_eq_true_iff] at h
  exact h

theorem TelemetryInvariant.step (h : TelemetryInvariant S) (d : Attempt) :
    TelemetryInvariant (telemetryStep S d) := by
  intro cur hcur key v hv
  rcases telemetryStep_current S d with hsame | ⟨hcheck, hadvances, hnew⟩
  · rw [hsame] at hcur
    obtain ⟨hretained, hbehind⟩ := h cur hcur key v hv
    exact ⟨hretained, hbehind.step⟩
  · obtain rfl := Option.some.inj (hnew.symm.trans hcur)
    rcases activityAfter_cases S d key with hkept | ⟨s, c, hs, hc, rfl, htraffic, hinformed, hshown⟩
    · obtain ⟨hold, hretained⟩ := retainedActivity_some (hkept.symm.trans hv)
      cases hcurrent : S.current with
      | none =>
        rw [hcurrent] at hold
        cases hold
      | some old =>
        rw [hcurrent] at hold
        exact ⟨hretained, (h old hcurrent key v hold).2.step⟩
    · obtain rfl := Option.some.inj (hshown.symm.trans hv)
      exact ⟨activity_retained hcheck hs hc htraffic hinformed, behind_new hcheck hadvances hs⟩

theorem TelemetryInvariant.keepsActivity (h : TelemetryInvariant S) (d : Attempt) :
    KeepsActivity S d := by
  intro key v hv
  rcases telemetryStep_current S d with hsame | ⟨hcheck, hadvances, hnew⟩
  · left
    refine ⟨v, ?_, .inl rfl⟩
    rw [TelemetryStore.activity, hsame]
    exact hv
  · obtain ⟨old, hold, hv⟩ := Option.bind_eq_some_iff.1 hv
    obtain ⟨hretained, hbehind⟩ := h old hold key v hv
    have hafter : (telemetryStep S d).activity key = S.activityAfter d key := by
      rw [TelemetryStore.activity, hnew]
      rfl
    rcases activityAfter_cases S d key with hkept | ⟨s, c, hs, -, -, -, -, hshown⟩
    · by_cases hage : d.receivedAt - v.sampledAt ≤ 7 * 86400 * second
      · left
        refine ⟨v, ?_, .inl rfl⟩
        rw [hafter, hkept, retainedActivity, if_pos hretained.key_mem, hold]
        refine Option.filter_eq_some_iff.2 ⟨hv, decide_eq_true ?_⟩
        exact hretained.later (hadvances.1 old hold).le hage
      · exact .inr ⟨_, hnew, not_le.1 hage⟩
    · exact .inl ⟨_, hafter.trans hshown, .inr (hbehind.lt hadvances hs)⟩

end Invariant

section Runs

theorem CountedOnce.empty : CountedOnce .empty [] where
  minutes := List.nodup_nil
  delivered s := by simp [TelemetryStore.empty, Delivers]
  days _ := rfl

theorem OnePerMinute.of_snoc (h : OnePerMinute (ds ++ [d])) : OnePerMinute ds :=
  fun s s' hs hs' ↦ h s s' (Delivers.snoc_iff.2 (.inl hs)) (Delivers.snoc_iff.2 (.inl hs'))

theorem run_countedOnce (hminutes : OnePerMinute ds) :
    CountedOnce (run telemetryStep .empty ds) ds := by
  induction ds using List.reverseRecOn with
  | nil => exact .empty
  | append_singleton ds d ih =>
    rw [run_append]
    exact (ih hminutes.of_snoc).step hminutes

theorem CountedOnce.days_eq {S' : TelemetryStore} {ds' : List Attempt} (h : CountedOnce S ds)
    (h' : CountedOnce S' ds') (hsame : ∀ s, Delivers ds s ↔ Delivers ds' s) : S'.days = S.days := by
  have hnodup : ∀ {T : TelemetryStore} {es : List Attempt}, CountedOnce T es →
      (T.sources.map (·.snapshot)).Nodup := by
    intro T es hT
    have hminutes : ((T.sources.map (·.snapshot)).map (minuteOf ·.sampledAt)).Nodup := by
      rw [List.map_map]
      exact hT.minutes
    exact List.Nodup.of_map _ hminutes
  have hperm : (S'.sources.map (·.snapshot)).Perm (S.sources.map (·.snapshot)) := by
    refine (List.perm_ext_iff_of_nodup (hnodup h') (hnodup h)).2 ?_
    intro s
    rw [h'.delivered, h.delivered, hsame]
  funext date
  rw [h'.days, h.days, dayOf_perm hperm]

def TelemetryStore.Partitioned (S : TelemetryStore) : Prop :=
  ∀ date, ∀ day ∈ S.days date, day.Partitioned

theorem TelemetryStore.Partitioned.step (h : S.Partitioned) (d : Attempt) :
    (telemetryStep S d).Partitioned := by
  intro date day hday
  rw [telemetryStep_days] at hday
  split_ifs at hday
  · rw [TelemetryStore.record] at hday
    split at hday
    · rename_i s _
      split_ifs at hday
      · exact h date day hday
      · by_cases hdate : date = dateOf s.sampledAt
        · dsimp only at hday
          rw [hdate, Function.update_self] at hday
          obtain rfl := Option.some.inj hday
          refine DayRecord.Partitioned.countSnapshot ?_ s
          cases hold : S.days (dateOf s.sampledAt) with
          | none => exact fun key counters hcounters ↦ by cases hcounters
          | some old => exact h _ old hold
        · dsimp only at hday
          rw [Function.update_of_ne hdate] at hday
          exact h date day hday
    · exact h date day hday
  · exact h date day hday

theorem newlyCurrent_some (h : newlyCurrent S d = some s) :
    d.check = .ok () ∧ S.Advances d ∧ d.snapshot = some s := by
  rw [newlyCurrent] at h
  rcases telemetryStep_current S d with hsame | ⟨hcheck, hadvances, hnew⟩
  · rw [if_pos (by rw [hsame])] at h
    cases h
  · split_ifs at h
    rw [hnew] at h
    exact ⟨hcheck, hadvances, h⟩

/-- What becomes current in a run is sampled later than what it leaves behind, and in order. -/
theorem becameCurrent_sorted (S : TelemetryStore) (ds : List Attempt) :
    (becameCurrent S ds).Pairwise (·.sampledAt < ·.sampledAt) ∧
      ∀ t, S.Behind t → ∀ s ∈ becameCurrent S ds, t < s.sampledAt := by
  induction ds generalizing S with
  | nil => exact ⟨List.Pairwise.nil, fun _ _ s hs ↦ absurd hs List.not_mem_nil⟩
  | cons d ds ih =>
    obtain ⟨hsorted, hbehind⟩ := ih (telemetryStep S d)
    rw [becameCurrent]
    cases hnew : newlyCurrent S d with
    | none => exact ⟨hsorted, fun t ht s hs ↦ hbehind t ht.step s hs⟩
    | some s =>
      obtain ⟨hcheck, hadvances, hs⟩ := newlyCurrent_some hnew
      refine ⟨List.pairwise_cons.2 ⟨?_, hsorted⟩, ?_⟩
      · exact hbehind s.sampledAt (behind_new hcheck hadvances hs)
      · intro t ht s' hs'
        rcases List.mem_cons.1 hs' with rfl | hs'
        · exact ht.lt hadvances hs
        · exact hbehind t ht.step s' hs'

/-- Every run counts each source minute once, in any order, and its current attempt and retained
activity only move forward. -/
theorem telemetry_counted_once (ds : List Attempt) (hminutes : OnePerMinute ds) :
    CountedOnce (run telemetryStep .empty ds) ds ∧
    (∀ ds', (∀ s, Delivers ds s ↔ Delivers ds' s) →
      (run telemetryStep .empty ds').days = (run telemetryStep .empty ds).days) ∧
    (∀ date, ∀ day ∈ (run telemetryStep .empty ds).days date, ∀ key, ∀ counters ∈ day key,
      counters.Partition) ∧
    AllAlong NeverRewinds telemetryStep .empty ds ∧
    (becameCurrent .empty ds).Pairwise (·.sampledAt < ·.sampledAt) ∧
    AllAlong KeepsActivity telemetryStep .empty ds := by
  have hcounted := run_countedOnce hminutes
  refine ⟨hcounted, ?_, ?_, .of_forall neverRewinds ds, (becameCurrent_sorted .empty ds).1, ?_⟩
  · intro ds' hsame
    have hminutes' : OnePerMinute ds' :=
      fun s s' hs hs' ↦ hminutes s s' ((hsame s).2 hs) ((hsame s').2 hs')
    exact hcounted.days_eq (run_countedOnce hminutes') hsame
  · have hempty : TelemetryStore.empty.Partitioned := fun _ _ hday ↦ by cases hday
    exact run_invariant hempty (fun S d h ↦ h.step d) ds
  · have hinvariant : TelemetryInvariant .empty := fun cur hcur ↦ by cases hcur
    have hall : AllAlong (fun _ _ ↦ True) telemetryStep .empty ds :=
      .of_forall (fun _ _ ↦ trivial) ds
    exact hall.of_invariant hinvariant (fun S d h _ ↦ h.step d) (fun S d h _ ↦ h.keepsActivity d)

end Runs

section Sample

def sampleComponent (key : String) (requests : ℤ) : Component :=
  { key := key, collectionState := "OK", requestCount := some requests, http1xxCount := some 0
    http2xxCount := some requests, http3xxCount := some 0, http4xxCount := some 0
    http404Count := some 0, http500Count := some 0, http5xxCount := some 0
    http404FailureCount := none, p80Ms := if requests = 0 then none else some 10
    p95Ms := if requests = 0 then none else some 20 }

def sampleSnapshot (sampledAt : Instant) (requests : ℤ) : Snapshot :=
  { schemaVersion := legacySchemaVersion, sampledAt := sampledAt, windowSeconds := windowSeconds
    sourceLatestAt := some sampledAt
    components := legacyComponentKeys.map (sampleComponent · requests) }

/-- Two minutes, of which one comes twice, and a failed attempt between them. -/
def sampleDeliveries : List Attempt :=
  [⟨some (sampleSnapshot 60000000 4), 70000000, none⟩, ⟨none, 80000000, some "ACCESS_DENIED"⟩,
    ⟨some (sampleSnapshot 60000000 4), 90000000, none⟩,
    ⟨some (sampleSnapshot 120000000 0), 125000000, none⟩]

theorem sampleDeliveries_onePerMinute : OnePerMinute sampleDeliveries := by
  have hdelivered : ∀ s, Delivers sampleDeliveries s →
      s = sampleSnapshot 60000000 4 ∨ s = sampleSnapshot 120000000 0 := by
    rintro s ⟨d, hd, -, hs⟩
    simp only [sampleDeliveries, List.mem_cons, List.not_mem_nil, or_false] at hd
    rcases hd with rfl | rfl | rfl | rfl
    · exact .inl (Option.some.inj hs).symm
    · cases hs
    · exact .inl (Option.some.inj hs).symm
    · exact .inr (Option.some.inj hs).symm
  intro s s' hs hs' hminute
  rcases hdelivered s hs with rfl | rfl <;> rcases hdelivered s' hs' with rfl | rfl
  · rfl
  · exact absurd hminute (by decide)
  · exact absurd hminute (by decide)
  · rfl

theorem telemetry_counted_once_repeated :
    ((run telemetryStep .empty sampleDeliveries).days 0).bind (· "login") =
      some { sampled := 2, measured := 1, normal := 1, other := 1 } ∧
    CountedOnce (run telemetryStep .empty sampleDeliveries) sampleDeliveries :=
  ⟨by decide +kernel, (telemetry_counted_once sampleDeliveries sampleDeliveries_onePerMinute).1⟩

end Sample

end TokenHub.Status
