import TokenHub.Economy.Evolution
import TokenHub.Lib.Runs

set_option autoImplicit false

namespace TokenHub.Economy

open Ledger Lib.Checks Lib.Runs Lib.Timeline

variable {S S' : EconomyState} {now t : Instant} {versionId traceId : String}
  {q : EvolutionRequest}

section Columns

theorem toScale_toScale (scale : ℕ) (x : ℚ) : toScale scale (toScale scale x) = toScale scale x := by
  have hpow : (10 : ℚ) ^ scale ≠ 0 := by positivity
  have hwhole : ∀ n : ℤ, ⌊(n : ℚ) + 1 / 2⌋ = n := by
    intro n
    rw [Int.floor_intCast_add]
    norm_num
  unfold toScale
  rw [div_mul_cancel₀ _ hpow, hwhole]

theorem EngineField.stored_stored (f : EngineField) (x : FieldValue) :
    f.stored (f.stored x) = f.stored x := by
  cases f <;> cases x <;> simp only [EngineField.stored, toScale_toScale]

end Columns

section Step

theorem insertEngine_ok {e : EconomicEngine} (h : insertEngine S e = .ok S') :
    S' = { S with engines := S.engines ++ [e.stored] } := by
  simp only [insertEngine, require_bind_eq_ok, pure_eq_ok] at h
  exact h.2.2.2.2.symm

theorem insertFeature_ok {r : ClassFeature} (h : insertFeature S r = .ok S') :
    featureRowAt S r.classId r.effectiveAt r.feature = none ∧
      S' = { S with features := S.features ++ [r] } := by
  rw [insertFeature, require_bind_eq_ok, pure_eq_ok] at h
  exact ⟨h.1, h.2.symm⟩

def linkRow (now effectiveAt : Instant) (classId versionId feature : String) : ClassFeature where
  classId := classId
  feature := feature
  effectiveAt := effectiveAt
  economicVersionId := some versionId
  deletedAt := none
  createdAt := now

theorem linkFeatures_ok {effectiveAt : Instant} {classId : String} {features : List String}
    (h : linkFeatures now effectiveAt classId versionId S features = .ok S') :
    S' = { S with features :=
      S.features ++ features.map (linkRow now effectiveAt classId versionId) } := by
  induction features generalizing S with
  | nil =>
    rw [linkFeatures, Except.ok.injEq] at h
    rw [← h, List.map_nil, List.append_nil]
  | cons feature rest ih =>
    rw [linkFeatures, bind_eq_ok] at h
    obtain ⟨S₁, hinsert, h⟩ := h
    obtain ⟨-, rfl⟩ := insertFeature_ok hinsert
    simp only [ih h, List.map_cons, List.append_assoc, List.singleton_append, linkRow]

theorem linkFeatures_nodup {effectiveAt : Instant} {classId : String} {features : List String}
    (h : linkFeatures now effectiveAt classId versionId S features = .ok S') :
    features.Nodup ∧ ∀ f ∈ features, featureRowAt S classId effectiveAt f = none := by
  induction features generalizing S with
  | nil => exact ⟨List.nodup_nil, fun f hf ↦ nomatch hf⟩
  | cons feature rest ih =>
    rw [linkFeatures, bind_eq_ok] at h
    obtain ⟨S₁, hinsert, h⟩ := h
    obtain ⟨hnone, rfl⟩ := insertFeature_ok hinsert
    obtain ⟨hnodup, hrest⟩ := ih h
    simp only [featureRowAt, List.find?_append, Option.or_eq_none_iff] at hrest hnone ⊢
    refine ⟨List.nodup_cons.2 ⟨fun hmem ↦ ?_, hnodup⟩, fun f hf ↦ ?_⟩
    · simpa using (hrest feature hmem).2
    · rcases List.mem_cons.1 hf with rfl | hf
      · exact hnone
      · exact (hrest f hf).1

/-- The instant that an argument names, by default the present one. -/
def EffectiveAt.resolve (now : Instant) : EffectiveAt → Instant
  | .instant t => t
  | _ => now

def EvolutionRequest.effective (q : EvolutionRequest) (now : Instant) : Instant :=
  q.effectiveAt.resolve now

theorem resolveEffectiveAt_ok {ε : Type} {effectiveAt : EffectiveAt} {refuse : String → String → ε}
    (h : resolveEffectiveAt now effectiveAt refuse = .ok t) :
    now ≤ t ∧ t = effectiveAt.resolve now := by
  cases effectiveAt with
  | omitted =>
    cases h
    exact ⟨le_rfl, rfl⟩
  | malformed => cases h
  | instant t' =>
    rw [resolveEffectiveAt] at h
    by_cases hpast : t' < now
    · rw [if_pos hpast] at h
      cases h
    · rw [if_neg hpast] at h
      cases h
      exact ⟨not_lt.1 hpast, rfl⟩

theorem verifyEvolution_ok (h : verifyEvolution S now q = .ok t) :
    q.classId ≠ "" ∧ now ≤ t ∧ t = q.effective now := by
  rw [verifyEvolution, unit_bind_eq_ok, require_bind_eq_ok, unit_bind_eq_ok, require_bind_eq_ok,
    unit_bind_eq_ok] at h
  obtain ⟨hscope, -, -, -, -, heffective⟩ := h
  refine ⟨?_, resolveEffectiveAt_ok heffective⟩
  rw [checkTeacherScope, demand_bind_eq_ok] at hscope
  obtain ⟨ctx, hctx, hscope⟩ := hscope
  rw [require_bind_eq_ok] at hscope
  rw [hscope.1]
  have hvalid := (Option.mem_filter_iff.1 hctx).2
  simp only [decide_eq_true_eq] at hvalid
  exact hvalid.2

theorem checkTeacherScope_rejects {ε : Type} {P : ε → Prop} {context : Option CanonicalContext}
    {classId unauthorized : String} {refuse : String → String → ε}
    (hrefuse : ∀ code message, P (refuse code message)) :
    Rejects P (checkTeacherScope S context classId unauthorized refuse) :=
  .bind (.demand (hrefuse _ _)) fun _ ↦ .bind (.require (hrefuse _ _)) fun _ ↦
    .bind (.require (hrefuse _ _)) fun _ ↦ .bind (.require (hrefuse _ _)) fun _ ↦
      .require (hrefuse _ _)

theorem resolveEffectiveAt_rejects {ε : Type} {P : ε → Prop} {effectiveAt : EffectiveAt}
    {refuse : String → String → ε} (hrefuse : ∀ code message, P (refuse code message)) :
    Rejects P (resolveEffectiveAt now effectiveAt refuse) := by
  unfold resolveEffectiveAt
  split
  · exact .ok now
  · exact .error (hrefuse _ _)
  · split_ifs
    · exact .error (hrefuse _ _)
    · exact .ok _

/-- A call that the read-only phase refuses reports failure. -/
theorem verifyEvolution_rejects :
    Rejects (fun r : EvolutionResult ↦ r.success = false) (verifyEvolution S now q) := by
  have hrefuse : ∀ code message, (refuseEvolution code message).success = false :=
    fun _ _ ↦ rfl
  refine .bind (checkTeacherScope_rejects hrefuse) fun _ ↦ .bind (.require (hrefuse _ _)) fun _ ↦
    .bind ?_ fun _ ↦ .bind (.require (hrefuse _ _)) fun _ ↦ .bind ?_ fun _ ↦
      resolveEffectiveAt_rejects hrefuse
  · induction q.updates with
    | nil => exact .ok ()
    | cons update rest ih =>
      rw [checkUpdates]
      split
      · exact .error (hrefuse _ _)
      · exact ih
  · induction q.featureList with
    | nil => exact .ok ()
    | cons feature rest ih =>
      rw [checkFeatures]
      exact .bind (.require (hrefuse _ _)) fun _ ↦ .bind (.require (hrefuse _ _)) fun _ ↦ ih

structure Evolved (S : EconomyState) (now : Instant) (versionId : String) (q : EvolutionRequest)
    (current : EconomicEngine) (S' : EconomyState) : Prop where
  notPast : now ≤ q.effective now
  class_ne : q.classId ≠ ""
  found : economicEngineEffectiveAt S q.classId (q.effective now) = some current
  missing : missingFeatures S q.classId (q.effective now) q.featureList ≠ []
  distinct : (missingFeatures S q.classId (q.effective now) q.featureList).Nodup
  state : S' = { S with
    engines := S.engines ++ [(evolvedEngine q now (q.effective now) versionId current).stored]
    features := S.features ++ (missingFeatures S q.classId (q.effective now) q.featureList).map
      (linkRow now (q.effective now) q.classId versionId) }

/-- A call that returns either appends a version and its links, or writes nothing; then it reports
success only where every feature has its row already. -/
theorem evolveEconomicEngine_ok {result : EvolutionResult}
    (h : evolveEconomicEngine S now versionId traceId q = .ok (result, S')) :
    (S' = S ∧ (result.success = true →
      missingFeatures S q.classId (q.effective now) q.featureList = [])) ∨
    (result.success = true ∧ ∃ current, Evolved S now versionId q current S') := by
  unfold evolveEconomicEngine at h
  split at h
  · next result' hverify =>
    rw [Except.ok.injEq, Prod.mk.injEq] at h
    obtain ⟨rfl, rfl⟩ := h
    refine .inl ⟨rfl, fun hs ↦ ?_⟩
    rw [verifyEvolution_rejects _ hverify] at hs
    cases hs
  · next effectiveAt hverify =>
    obtain ⟨hclass, hnow, rfl⟩ := verifyEvolution_ok hverify
    by_cases hmissing : missingFeatures S q.classId (q.effective now) q.featureList = []
    · rw [if_pos hmissing, Except.ok.injEq, Prod.mk.injEq] at h
      exact .inl ⟨h.2.symm, fun _ ↦ hmissing⟩
    · rw [if_neg hmissing] at h
      split at h
      · rw [Except.ok.injEq, Prod.mk.injEq] at h
        obtain ⟨rfl, rfl⟩ := h
        exact .inl ⟨rfl, fun hs ↦ by cases hs⟩
      · next current hcurrent =>
        simp only at h
        split at h
        · rw [Except.ok.injEq, Prod.mk.injEq] at h
          obtain ⟨rfl, rfl⟩ := h
          exact .inl ⟨rfl, fun hs ↦ by cases hs⟩
        · rw [bind_eq_ok] at h
          obtain ⟨S₁, hengine, h⟩ := h
          rw [bind_eq_ok] at h
          obtain ⟨S₂, hlinks, h⟩ := h
          rw [pure_eq_ok, Prod.mk.injEq] at h
          obtain ⟨rfl, rfl⟩ := h
          obtain rfl := insertEngine_ok hengine
          exact .inr ⟨rfl, current, hnow, hclass, hcurrent, hmissing,
            (linkFeatures_nodup hlinks).1, linkFeatures_ok hlinks⟩

end Step

section History

/-- A call of the command, with what the clock and the random identities give it. -/
structure EvolveCall where
  now : Instant
  versionId : String
  traceId : String
  request : EvolutionRequest
deriving DecidableEq, Repr

def evolveStep (S : EconomyState) (c : EvolveCall) : EconomyState :=
  committed S (evolveEconomicEngine S c.now c.versionId c.traceId c.request)

def accepted (S : EconomyState) (c : EvolveCall) : Bool :=
  S.engines.length < (evolveStep S c).engines.length

def acceptedCalls (classId : String) : EconomyState → List EvolveCall → List EvolveCall
  | _, [] => []
  | S, c :: cs =>
    if accepted S c ∧ c.request.classId = classId then
      c :: acceptedCalls classId (evolveStep S c) cs
    else acceptedCalls classId (evolveStep S c) cs

/-- One change of a class's terms: when it governs from, when and as which version it was
recorded, and the fields that it names. -/
structure Revision where
  effectiveAt : Instant
  recordedAt : Instant
  versionId : String
  named : EngineField → Option FieldValue

/-- Later instants of effect rank higher, then later recordings. -/
def Revision.rank (r : Revision) : ℤ ×ₗ ℤ ×ₗ String :=
  toLex (r.effectiveAt, toLex (r.recordedAt, r.versionId))

/-- The first version of a class names every field. -/
def Revision.initial (e : EconomicEngine) : Revision :=
  ⟨e.effectiveAt, e.createdAt, e.economicVersionId, fun f ↦ some (e.fields f)⟩

/-- A call names values as their columns hold them. -/
def EvolutionRequest.revision (q : EvolutionRequest) (now : Instant) (versionId : String) :
    Revision :=
  ⟨q.effective now, now, versionId, fun f ↦ (q.named f).map f.stored⟩

def EvolveCall.revision (c : EvolveCall) : Revision := c.request.revision c.now c.versionId

def EconomicEngine.InColumns (e : EconomicEngine) : Prop :=
  ∀ f, f.stored (e.fields f) = e.fields f

theorem EconomicEngine.stored_inColumns (e : EconomicEngine) : e.stored.InColumns :=
  fun f ↦ f.stored_stored (e.fields f)

theorem rank_mono (u w : EconomicEngine) (h : u.rank ≤ w.rank) : u.effectiveAt ≤ w.effectiveAt := by
  rw [EconomicEngine.rank, EconomicEngine.rank, Prod.Lex.toLex_le_toLex] at h
  rcases h with hlt | ⟨heq, -⟩
  · exact hlt.le
  · exact heq.le

/-- The versions of a class are those that its revisions recorded, each a snapshot of the terms
that it found in force. -/
def Recorded (S : EconomyState) (classId : String) (revisions : List Revision) : Prop :=
  ∃ vs : List (EconomicEngine × Revision),
    S.engines.filter (·.classId = classId) = vs.map Prod.fst ∧ revisions = vs.map Prod.snd ∧
      (∀ v ∈ vs, v.1.rank = v.2.rank ∧ v.1.effectiveAt = v.2.effectiveAt ∧ v.1.InColumns) ∧
        Snapshots (fun v : EconomicEngine × Revision ↦ v.1.rank) (fun v ↦ v.1.effectiveAt)
          (fun v ↦ v.2.named) (fun v ↦ v.1.fields) vs.reverse

variable {classId : String} {revisions : List Revision} {current : EconomicEngine}

theorem Recorded.inForce_eq {vs : List (EconomicEngine × Revision)} (hclass : classId ≠ "")
    (hvs : S.engines.filter (·.classId = classId) = vs.map Prod.fst) :
    economicEngineEffectiveAt S classId t =
      ((standing (fun v : EconomicEngine × Revision ↦ v.1.rank) (fun v ↦ v.1.effectiveAt) t
        vs.reverse).map Prod.fst).head? := by
  rw [economicEngineEffectiveAt, if_neg hclass, hvs, ← head?_standing, ← List.map_reverse,
    standing_map (fun _ _ ↦ rfl) (fun _ _ ↦ rfl)]

theorem economicEngineEffectiveAt_mem (h : economicEngineEffectiveAt S classId t = some current) :
    current ∈ S.engines.filter (·.classId = classId) := by
  unfold economicEngineEffectiveAt at h
  split_ifs at h
  exact (inForce_spec h).1

theorem Recorded.initial {e : EconomicEngine} (hcolumns : e.InColumns)
    (h : S.engines.filter (·.classId = classId) = [e]) : Recorded S classId [.initial e] := by
  refine ⟨[(e, .initial e)], h, rfl, ?_, trivial, fun f ↦ .inl rfl⟩
  intro v hv
  rw [List.mem_singleton.1 hv]
  exact ⟨rfl, rfl, hcolumns⟩

theorem Recorded.evolved (h : Recorded S q.classId revisions)
    (he : Evolved S now versionId q current S') :
    Recorded S' q.classId (revisions ++ [q.revision now versionId]) := by
  obtain ⟨vs, hvs, rfl, hsame, hsnapshots⟩ := h
  refine ⟨vs ++ [((evolvedEngine q now (q.effective now) versionId current).stored,
    q.revision now versionId)], ?_, by simp, ?_, ?_⟩
  · rw [he.state, List.filter_append, hvs]
    simp [evolvedEngine, EconomicEngine.stored]
  · intro v hv
    rcases List.mem_append.1 hv with hv | hv
    · exact hsame v hv
    · rw [List.mem_singleton.1 hv]
      exact ⟨rfl, rfl, EconomicEngine.stored_inColumns _⟩
  · rw [List.reverse_append, List.reverse_singleton, List.singleton_append]
    refine ⟨hsnapshots, fun f ↦ ?_⟩
    cases hnamed : q.named f with
    | some x =>
      exact .inl (by simp [hnamed, evolvedEngine, EconomicEngine.stored, EvolutionRequest.revision])
    | none =>
      have hfound := he.found
      have hmem := economicEngineEffectiveAt_mem hfound
      rw [inForce_eq he.class_ne hvs, List.head?_map] at hfound
      obtain ⟨p, hp, rfl⟩ := Option.map_eq_some_iff.1 hfound
      -- a carried value comes from a row, whose columns hold it as it is
      rw [hvs] at hmem
      obtain ⟨v, hv, hrow⟩ := List.mem_map.1 hmem
      have hkept := (hsame v hv).2.2 f
      rw [hrow] at hkept
      refine .inr ⟨by simp [hnamed, EvolutionRequest.revision], p, hp, ?_⟩
      simp [evolvedEngine, EconomicEngine.stored, hnamed, hkept]

theorem Recorded.other_class (h : Recorded S classId revisions) (hne : q.classId ≠ classId)
    (he : Evolved S now versionId q current S') : Recorded S' classId revisions := by
  obtain ⟨vs, hvs, hrest⟩ := h
  refine ⟨vs, ?_, hrest⟩
  rw [he.state, List.filter_append, hvs]
  simp [evolvedEngine, EconomicEngine.stored, hne]

/-- A call either is accepted, and appends a version, or leaves the state alone. -/
theorem evolveStep_cases (S : EconomyState) (c : EvolveCall) :
    (accepted S c = false ∧ evolveStep S c = S) ∨
      (accepted S c = true ∧ ∃ current,
        Evolved S c.now c.versionId c.request current (evolveStep S c)) := by
  unfold accepted evolveStep
  cases hcall : evolveEconomicEngine S c.now c.versionId c.traceId c.request with
  | error e => exact .inl ⟨by simp [committed], rfl⟩
  | ok out =>
    obtain ⟨result, S'⟩ := out
    rcases evolveEconomicEngine_ok hcall with ⟨rfl, -⟩ | ⟨-, current, he⟩
    · exact .inl ⟨by simp, rfl⟩
    · refine .inr ⟨?_, current, he⟩
      rw [committed_ok, he.state]
      simp

theorem Recorded.run (h : Recorded S classId revisions) (calls : List EvolveCall) :
    Recorded (run evolveStep S calls) classId
      (revisions ++ (acceptedCalls classId S calls).map EvolveCall.revision) := by
  induction calls generalizing S revisions with
  | nil => simpa [acceptedCalls] using h
  | cons c cs ih =>
    rw [run_cons, acceptedCalls]
    rcases evolveStep_cases S c with ⟨hrefused, hsame⟩ | ⟨haccepted, current, he⟩
    · rw [hrefused, hsame, if_neg (by simp)]
      exact ih h
    · by_cases hclass : c.request.classId = classId
      · subst hclass
        rw [if_pos ⟨haccepted, rfl⟩, List.map_cons, List.append_cons]
        exact ih (h.evolved he)
      · rw [if_neg (fun hc ↦ hclass hc.2)]
        exact ih (h.other_class hclass he)

/-- The terms in force are those of the latest standing revision that names them. -/
theorem Recorded.terms (h : Recorded S classId revisions) (hclass : classId ≠ "") (t : Instant)
    (f : EngineField) : (economicEngineEffectiveAt S classId t).map (·.fields f) =
      (standing Revision.rank (·.effectiveAt) t revisions.reverse).findSome? (·.named f) := by
  obtain ⟨vs, hvs, rfl, hsame, hsnapshots⟩ := h
  have hranks : ∀ v ∈ vs.reverse, v.2.rank = v.1.rank :=
    fun v hv ↦ (hsame v (List.mem_reverse.1 hv)).1.symm
  have hstarts : ∀ v ∈ vs.reverse, v.2.effectiveAt = v.1.effectiveAt :=
    fun v hv ↦ (hsame v (List.mem_reverse.1 hv)).2.1.symm
  rw [inForce_eq hclass hvs, ← List.map_reverse, standing_map hranks hstarts, List.findSome?_map,
    List.head?_map]
  cases hhead : (standing (fun v : EconomicEngine × Revision ↦ v.1.rank) (fun v ↦ v.1.effectiveAt)
    t vs.reverse).head? with
  | none =>
    rw [List.head?_eq_none_iff.1 hhead]
    rfl
  | some v =>
    have hvalue := hsnapshots.value_eq (fun u w ↦ rank_mono u.1 w.1) hhead f
    simpa [Function.comp_def] using hvalue.symm

/-- After any calls on a class, the version in force at an instant holds for each field what the
standing revision of it says: of the accepted calls effective by then that no earlier recorded
version effective by then outranks, the latest that names the field, else the first version. A
call that reports success is accepted where a feature that it lists has no row at its effective
instant. -/
theorem economic_updates_kept (S₀ : EconomyState) (classId : String) (hclass : classId ≠ "")
    (e₀ : EconomicEngine) (hcolumns : e₀.InColumns)
    (h₀ : S₀.engines.filter (·.classId = classId) = [e₀]) (calls : List EvolveCall) :
    let S := run evolveStep S₀ calls
    let revisions :=
      Revision.initial e₀ :: (acceptedCalls classId S₀ calls).map EvolveCall.revision
    (∀ t f, (economicEngineEffectiveAt S classId t).map (·.fields f) =
      (standing Revision.rank (·.effectiveAt) t revisions.reverse).findSome? (·.named f)) ∧
    (∀ c result S', evolveEconomicEngine S c.now c.versionId c.traceId c.request =
      .ok (result, S') → result.success = true → (∃ feature ∈ c.request.featureList,
        featureRowAt S c.request.classId (c.request.effective c.now) feature = none) →
          accepted S c = true) := by
  intro S revisions
  have hrecorded : Recorded S classId revisions := (Recorded.initial hcolumns h₀).run calls
  refine ⟨hrecorded.terms hclass, fun c result S' hok hsuccess hfeature ↦ ?_⟩
  obtain ⟨feature, hlisted, hnone⟩ := hfeature
  rcases evolveEconomicEngine_ok hok with ⟨-, hrepeat⟩ | ⟨-, current, he⟩
  · have hmissing := hrepeat hsuccess
    rw [missingFeatures, List.filter_eq_nil_iff] at hmissing
    exact absurd (decide_eq_true hnone) (hmissing feature hlisted)
  · rw [accepted, evolveStep, hok, committed_ok, he.state]
    simp

end History

section Samples

def sampleEngine : EconomicEngine where
  economicVersionId := "v0"
  classId := "c"
  previousVersionId := none
  createdAt := 0
  effectiveAt := 0
  fields
    | .economyPolicyMode => .text "default"
    | .expectedWeeklyHours => .number 5
    | _ => .null

/-- A class with its teacher, a first engine and payroll on, all from instant 0. -/
def sampleClass : EconomyState where
  classes := ["c"]
  seatClass := fun i ↦ if i = 9 then some "c" else none
  engines := [sampleEngine]
  features := [⟨"c", "payroll", 0, some "v0", none, 0⟩]

def sampleCall (now : Instant) (versionId : String) (updates : List (String × FieldValue))
    (t : Instant) : EvolveCall where
  now := now
  versionId := versionId
  traceId := versionId
  request :=
    { context := some ⟨"c", 9, "teacher"⟩, classId := "c", updates := updates,
      featureList := ["payroll"], effectiveAt := .instant t }

/-- A rate saved for instant 20, then hours saved for instant 10. -/
def outOfOrder : List EvolveCall :=
  [sampleCall 1 "v1" [("interest_rate", .number (1 / 10))] 20,
   sampleCall 2 "v2" [("expected_weekly_hours", .number 6)] 10]

def repeatedCall : EvolveCall := sampleCall 3 "v3" [("interest_rate", .number (1 / 10))] 20

/-- The hours that govern from instant 10 are lost at instant 20, and a call that is made again
reports success and appends nothing. -/
theorem later_dated_version_drops_hours :
    acceptedCalls "c" sampleClass outOfOrder = outOfOrder ∧
    (economicEngineEffectiveAt (run evolveStep sampleClass outOfOrder) "c" 15).map
      (·.fields .expectedWeeklyHours) = some (.number 6) ∧
    (economicEngineEffectiveAt (run evolveStep sampleClass outOfOrder) "c" 20).map
      (·.fields .expectedWeeklyHours) = some (.number 5) ∧
    (evolveEconomicEngine (run evolveStep sampleClass outOfOrder) 3 "v3" "v3"
      repeatedCall.request).toOption.map (·.1.success) = some true ∧
    accepted (run evolveStep sampleClass outOfOrder) repeatedCall = false := by
  decide +kernel

theorem economic_updates_kept_out_of_order : acceptedCalls "c" sampleClass outOfOrder = outOfOrder ∧
    ∀ t f, (economicEngineEffectiveAt (run evolveStep sampleClass outOfOrder) "c" t).map
        (·.fields f) =
      (standing Revision.rank (·.effectiveAt) t (.initial sampleEngine ::
          (acceptedCalls "c" sampleClass outOfOrder).map EvolveCall.revision).reverse).findSome?
            (·.named f) := by
  have hcolumns : sampleEngine.InColumns := by
    intro f
    cases f <;> rfl
  exact ⟨by decide +kernel,
    (economic_updates_kept sampleClass "c" (by decide) sampleEngine hcolumns rfl outOfOrder).1⟩

end Samples

end TokenHub.Economy
