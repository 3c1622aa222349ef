import TokenHub.Lib.Ordered
import TokenHub.Support.SystemAdmin

set_option autoImplicit false

namespace TokenHub.Support

open Rent (Instant)
open Lib.Ordered

section Withheld

def withholdable : List String := ["balances", "transaction", "recent_transactions"]

def Issue.Permits (i : Issue) (category : String) : Prop :=
  i.supportPermissions.lookup category = some true

instance (i : Issue) (category : String) : Decidable (i.Permits category) := by
  unfold Issue.Permits; infer_instance

def Issue.withhold (i : Issue) : Issue :=
  { i with
    classLabel := if i.shareClassNameWithSysadmin then i.classLabel else none
    studentExplanation := if i.Permits "student_report" then i.studentExplanation else ""
    studentExpectedOutcome :=
      if i.Permits "student_report" then i.studentExpectedOutcome else none
    contextSnapshot := i.contextSnapshot.map fun source ↦
      source.filter fun e ↦ e.1 ∉ withholdable ∨ i.Permits e.1 }

/-- The ticket without the contents that its teacher, on escalating it, did not permit. -/
def Issue.withheld (i : Issue) : Issue := if Escalated i then i.withhold else i

variable {i : Issue} {k : String}

theorem lookup_filter_key {β : Type} (q : String → Bool) (l : List (String × β)) (k : String) :
    (l.filter fun e ↦ q e.1).lookup k = if q k then l.lookup k else none := by
  induction l with
  | nil => simp
  | cons e l ih =>
    obtain ⟨k', v⟩ := e
    by_cases hk : k = k'
    · subst hk
      cases hq : q k <;> simp [hq, ih]
    · have hlookup (m : List (String × β)) : ((k', v) :: m).lookup k = m.lookup k := by
        rw [List.lookup_cons, beq_false_of_ne hk]
      cases hq : q k'
      · rw [List.filter_cons_of_neg (by simp [hq]), ih, hlookup]
      · rw [List.filter_cons_of_pos (by simp [hq]), hlookup, hlookup, ih]

theorem withheld_of_not_escalated (h : ¬ Escalated i) : i.withheld = i := if_neg h

@[simp] theorem withheld_id : i.withheld.id = i.id := by
  unfold Issue.withheld; split_ifs <;> rfl

@[simp] theorem withheld_status : i.withheld.status = i.status := by
  unfold Issue.withheld; split_ifs <;> rfl

@[simp] theorem withheld_actorPublicId : i.withheld.actorPublicId = i.actorPublicId := by
  unfold Issue.withheld; split_ifs <;> rfl

@[simp] theorem withheld_classPublicId : i.withheld.classPublicId = i.classPublicId := by
  unfold Issue.withheld; split_ifs <;> rfl

@[simp] theorem withheld_escalatedAt : i.withheld.escalatedAt = i.escalatedAt := by
  unfold Issue.withheld; split_ifs <;> rfl

@[simp] theorem withheld_submittedAt : i.withheld.submittedAt = i.submittedAt := by
  unfold Issue.withheld; split_ifs <;> rfl

@[simp] theorem withheld_statusHistory : i.withheld.statusHistory = i.statusHistory := by
  unfold Issue.withheld; split_ifs <;> rfl

@[simp] theorem withheld_correlationPack : i.withheld.correlationPack = i.correlationPack := by
  unfold Issue.withheld; split_ifs <;> rfl

@[simp] theorem withheld_supportPermissions :
    i.withheld.supportPermissions = i.supportPermissions := by
  unfold Issue.withheld; split_ifs <;> rfl

theorem lookup_withheld (h : k ∉ withholdable ∨ i.Permits k) :
    (i.withheld.contextSnapshot.getD []).lookup k = (i.contextSnapshot.getD []).lookup k := by
  unfold Issue.withheld
  split_ifs
  · have hsource : i.withhold.contextSnapshot = i.contextSnapshot.map fun source ↦
        source.filter fun e ↦ e.1 ∉ withholdable ∨ i.Permits e.1 := rfl
    rw [hsource]
    cases i.contextSnapshot with
    | none => rfl
    | some source =>
      refine (lookup_filter_key (fun k ↦ k ∉ withholdable ∨ i.Permits k) source k).trans ?_
      exact if_pos (decide_eq_true h)
  · rfl

theorem disclosedSnapshot_withheld : disclosedSnapshot i.withheld = disclosedSnapshot i := by
  unfold disclosedSnapshot
  dsimp only
  congr 1
  · refine List.filterMap_congr fun k hk ↦ ?_
    rw [lookup_withheld (Or.inl _)]
    revert k
    decide
  · refine List.filterMap_congr fun p _ ↦ ?_
    rw [withheld_supportPermissions]
    split_ifs with hpermits
    · rw [lookup_withheld (Or.inr hpermits)]
    · rfl

theorem disclosedReport_withheld : disclosedReport i.withheld = disclosedReport i := by
  unfold disclosedReport
  rw [withheld_supportPermissions]
  split_ifs with hpermits
  · unfold Issue.withheld
    split_ifs
    · have hexplanation : i.withhold.studentExplanation = i.studentExplanation := if_pos hpermits
      have houtcome : i.withhold.studentExpectedOutcome = i.studentExpectedOutcome :=
        if_pos hpermits
      rw [hexplanation, houtcome]
    · rfl
  · rfl

theorem issueToView_withheld : issueToView i.withheld = issueToView i := by
  unfold issueToView
  rw [disclosedSnapshot_withheld, disclosedReport_withheld]
  by_cases he : Escalated i
  · have hlabel : (if i.withhold.shareClassNameWithSysadmin then i.withhold.classLabel else none) =
        if i.shareClassNameWithSysadmin then i.classLabel else none := by
      cases hshare : i.shareClassNameWithSysadmin <;> simp [Issue.withhold, hshare]
    rw [Issue.withheld, if_pos he, hlabel]
    rfl
  · rw [withheld_of_not_escalated he]

end Withheld

section Disclosed

/-- The tables as system support may know them: the visible tickets, without what is withheld. -/
def Tables.disclosed (db : Tables) : Tables :=
  { db with issues := (sysadminVisibleIssues db).map Issue.withheld }

variable {E : Surroundings} {db : Tables} {i : Issue}

theorem teacherAuthored_disclosed :
    TeacherAuthored db.disclosed i.withheld ↔ TeacherAuthored db i := by
  unfold TeacherAuthored Tables.disclosed
  rw [withheld_actorPublicId, withheld_classPublicId]

theorem escalated_withheld : Escalated i.withheld ↔ Escalated i := by
  unfold Escalated
  rw [withheld_escalatedAt]

theorem visible_disclosed : Visible db.disclosed i.withheld ↔ Visible db i :=
  or_congr escalated_withheld teacherAuthored_disclosed

theorem filter_withheld {p q : Issue → Prop} [DecidablePred p] [DecidablePred q] (l : List Issue)
    (h : ∀ i, q i.withheld ↔ p i) :
    (l.map Issue.withheld).filter (fun i ↦ q i) = (l.filter fun i ↦ p i).map Issue.withheld := by
  rw [List.filter_map]
  congr 2
  funext i
  exact decide_eq_decide.2 (h i)

theorem countP_withheld {p q : Issue → Prop} [DecidablePred p] [DecidablePred q] (l : List Issue)
    (h : ∀ i, q i.withheld ↔ p i) :
    (l.map Issue.withheld).countP (fun i ↦ q i) = l.countP fun i ↦ p i := by
  rw [List.countP_map]
  congr 1
  funext i
  exact decide_eq_decide.2 (h i)

theorem find?_withheld {p q : Issue → Prop} [DecidablePred p] [DecidablePred q] (l : List Issue)
    (h : ∀ i, q i.withheld ↔ p i) :
    (l.map Issue.withheld).find? (fun i ↦ q i) = (l.find? fun i ↦ p i).map Issue.withheld := by
  rw [List.find?_map]
  congr 2
  funext i
  exact decide_eq_decide.2 (h i)

theorem visibleIssues_disclosed :
    sysadminVisibleIssues db.disclosed = (sysadminVisibleIssues db).map Issue.withheld := by
  have hall := filter_withheld (p := Visible db) (q := Visible db.disclosed)
    (sysadminVisibleIssues db) fun i ↦ visible_disclosed (i := i)
  refine hall.trans ?_
  unfold sysadminVisibleIssues
  rw [List.filter_filter]
  simp only [Bool.and_self]

theorem getVisible_disclosed (issueId : Option ℕ) :
    getSysadminVisibleIssue db.disclosed issueId =
      (getSysadminVisibleIssue db issueId).map Issue.withheld := by
  cases issueId with
  | none => rfl
  | some issueId =>
    simp only [getSysadminVisibleIssue, Option.bind_some]
    rw [visibleIssues_disclosed, find?_withheld (p := fun i ↦ i.id = issueId)]
    intro i
    rw [withheld_id]

theorem isDirect_disclosed (issueId : ℕ) :
    isSysadminDirectLifecycle db.disclosed issueId = isSysadminDirectLifecycle db issueId := by
  unfold isSysadminDirectLifecycle
  rw [visibleIssues_disclosed,
    filter_withheld (p := fun i ↦ TeacherAuthored db i ∧ ¬ Escalated i), List.any_map]
  · congr 1
    funext i
    simp
  · intro i
    exact and_congr teacherAuthored_disclosed (not_congr escalated_withheld)

theorem openTickets_disclosed : openTickets db.disclosed = openTickets db := by
  unfold openTickets
  rw [visibleIssues_disclosed, filter_withheld (p := fun i ↦ i.status ∈
    [statusOpen, statusTeacherReview, statusEscalatedToDev, "elevated", "developer_review"]),
    List.length_map]
  intro i
  rw [withheld_status]

theorem teacherReports_disclosed :
    teacherReports db.disclosed = (teacherReports db).map Issue.withheld := by
  unfold teacherReports
  rw [visibleIssues_disclosed, filter_withheld (p := fun i ↦ TeacherAuthored db i)]
  exact fun i ↦ teacherAuthored_disclosed

theorem reportsFor_disclosed (statusFilter : String) :
    reportsFor E db.disclosed statusFilter =
      (reportsFor E db statusFilter).map Issue.withheld := by
  unfold reportsFor
  rw [teacherReports_disclosed, filter_withheld (p := fun i ↦
    statusFilter = "all" ∨ i.status = E.upper statusFilter)]
  · refine (List.map_insertionSort _ _ _ _ ?_).symm
    intro i _ j _
    rw [withheld_submittedAt, withheld_submittedAt]
  · intro i
    rw [withheld_status]

theorem countOfStatus_disclosed (status : String) :
    countOfStatus db.disclosed status = countOfStatus db status := by
  unfold countOfStatus
  rw [teacherReports_disclosed, countP_withheld (p := fun i ↦ i.status = status)]
  intro i
  rw [withheld_status]

theorem escalatedIssues_disclosed :
    escalatedIssues db.disclosed = (escalatedIssues db).map Issue.withheld := by
  unfold escalatedIssues
  rw [visibleIssues_disclosed, filter_withheld (p := fun i ↦ Escalated i ∧ i.status ∈
    [statusEscalatedToDev, statusDevResolved, "elevated", "developer_review",
      "developer_resolved"])]
  · refine (List.map_insertionSort _ _ _ _ ?_).symm
    intro i _ j _
    rw [withheld_escalatedAt, withheld_escalatedAt]
  · intro i
    rw [withheld_status, escalated_withheld]

theorem escalatedWith_disclosed (statuses : List String) :
    escalatedWith E db.disclosed statuses = escalatedWith E db statuses := by
  unfold escalatedWith
  rw [escalatedIssues_disclosed, filter_withheld (p := fun i ↦ i.status ∈ statuses),
    List.map_map]
  · refine List.map_congr_left fun i _ ↦ ?_
    rw [Function.comp_apply, issueToView_withheld]
  · intro i
    rw [withheld_status]

theorem reportRow_withheld : reportRow E i.withheld = reportRow E i := by
  unfold reportRow
  rw [issueToView_withheld]
  by_cases he : Escalated i
  · rw [Issue.withheld, if_pos he]
    rfl
  · rw [withheld_of_not_escalated he]

theorem supportTickets_disclosed (tab status type : String) :
    supportTickets E db.disclosed tab status type = supportTickets E db tab status type := by
  have hreports : (reportsFor E db.disclosed status).map (reportRow E) =
      (reportsFor E db status).map (reportRow E) := by
    rw [reportsFor_disclosed, List.map_map]
    refine List.map_congr_left fun i _ ↦ ?_
    rw [Function.comp_apply, reportRow_withheld]
  simp only [supportTickets, hreports, countOfStatus_disclosed, escalatedWith_disclosed]

theorem issuePage_disclosed (issueRef : String) (tz : Option String) :
    issuePage E db.disclosed issueRef tz i.withheld = issuePage E db issueRef tz i := by
  have hcount : (sysadminVisibleIssues db.disclosed).countP
      (·.actorPublicId = i.actorPublicId) =
      (sysadminVisibleIssues db).countP (·.actorPublicId = i.actorPublicId) := by
    rw [visibleIssues_disclosed,
      countP_withheld (p := fun j ↦ j.actorPublicId = i.actorPublicId)]
    intro j
    rw [withheld_actorPublicId]
  have hclasses : db.disclosed.classes = db.classes := rfl
  simp only [issuePage, issueToView_withheld, withheld_id, withheld_classPublicId,
    withheld_actorPublicId, historyRows, packView, withheld_statusHistory,
    withheld_correlationPack, isDirect_disclosed, hcount, hclasses]

/-- Every page shows what it would show of the disclosed tables alone. -/
theorem view_disclosed (r : Read) : view E db.disclosed r = view E db r := by
  cases r with
  | dashboard => exact congrArg View.dashboard openTickets_disclosed
  | supportTickets tab status type =>
    exact congrArg View.supportTickets (supportTickets_disclosed tab status type)
  | viewIssue issueRef tz =>
    simp only [view, viewIssue, getVisible_disclosed, Option.map_map]
    congr 2
    funext i
    exact issuePage_disclosed issueRef tz

end Disclosed

section Acts

structure KeepsIdentity (f : Issue → Issue) : Prop where
  id : ∀ i, (f i).id = i.id
  actorPublicId : ∀ i, (f i).actorPublicId = i.actorPublicId
  classPublicId : ∀ i, (f i).classPublicId = i.classPublicId
  correlationPack : ∀ i, (f i).correlationPack = i.correlationPack

/-- A change that touches neither what makes a ticket visible nor what is withheld. -/
structure Routine (f : Issue → Issue) : Prop extends KeepsIdentity f where
  escalatedAt : ∀ i, (f i).escalatedAt = i.escalatedAt
  withheld : ∀ i, f i.withheld = (f i).withheld

variable {E : Surroundings} {db : Tables} {f : Issue → Issue} {issueId : ℕ}

theorem routine_directUpdate (status : String) (notes : Option String) (now : Instant) :
    Routine (.directUpdate status notes now) := by
  refine ⟨⟨fun _ ↦ rfl, fun _ ↦ rfl, fun _ ↦ rfl, fun _ ↦ rfl⟩, fun _ ↦ rfl, ?_⟩
  intro i
  by_cases he : Escalated i
  · have he' : Escalated (i.directUpdate status notes now) := he
    rw [Issue.withheld, if_pos he, Issue.withheld, if_pos he']
    rfl
  · have he' : ¬ Escalated (i.directUpdate status notes now) := he
    rw [withheld_of_not_escalated he, withheld_of_not_escalated he']

theorem routine_devResolve (note : String) (now : Instant) : Routine (.devResolve note now) := by
  refine ⟨⟨fun _ ↦ rfl, fun _ ↦ rfl, fun _ ↦ rfl, fun _ ↦ rfl⟩, fun _ ↦ rfl, ?_⟩
  intro i
  by_cases he : Escalated i
  · have he' : Escalated (i.devResolve note now) := he
    rw [Issue.withheld, if_pos he, Issue.withheld, if_pos he']
    rfl
  · have he' : ¬ Escalated (i.devResolve note now) := he
    rw [withheld_of_not_escalated he, withheld_of_not_escalated he']

def updateAt (issueId : ℕ) (f : Issue → Issue) (i : Issue) : Issue :=
  if i.id = issueId then f i else i

theorem Routine.visible_updateAt (hf : Routine f) (i : Issue) :
    Visible (db.update issueId f) (updateAt issueId f i) ↔ Visible db i := by
  unfold updateAt
  split_ifs
  · unfold Visible Escalated TeacherAuthored Tables.update
    rw [hf.escalatedAt, hf.actorPublicId, hf.classPublicId]
  · exact Iff.rfl

theorem Routine.visibleIssues_update (hf : Routine f) :
    sysadminVisibleIssues (db.update issueId f) =
      (sysadminVisibleIssues db).map (updateAt issueId f) := by
  unfold sysadminVisibleIssues
  have hissues : (db.update issueId f).issues = db.issues.map (updateAt issueId f) := rfl
  rw [hissues, List.filter_map]
  congr 2
  funext i
  exact decide_eq_decide.2 (hf.visible_updateAt i)

theorem Routine.disclosed_update (hf : Routine f) :
    (db.update issueId f).disclosed = db.disclosed.update issueId f := by
  have hcomm (i : Issue) : (updateAt issueId f i).withheld = updateAt issueId f i.withheld := by
    unfold updateAt
    rw [withheld_id]
    split_ifs
    · exact (hf.withheld i).symm
    · rfl
  have hissues : (sysadminVisibleIssues (db.update issueId f)).map Issue.withheld =
      ((sysadminVisibleIssues db).map Issue.withheld).map (updateAt issueId f) := by
    rw [hf.visibleIssues_update, List.map_map, List.map_map]
    exact List.map_congr_left fun i _ ↦ hcomm i
  unfold Tables.disclosed
  rw [hissues]
  rfl

theorem updateIssue_disclosed (issueRef : String) (status : Option String)
    (adminNotes : String) (now : Instant) :
    updateIssue E db.disclosed issueRef status adminNotes now =
      ((updateIssue E db issueRef status adminNotes now).1,
        (updateIssue E db issueRef status adminNotes now).2.disclosed) := by
  unfold updateIssue
  rw [getVisible_disclosed]
  cases getSysadminVisibleIssue db (E.resolveOpaqueRef issueRef) with
  | none => rfl
  | some issue =>
    simp only [Option.map_some, withheld_id, withheld_status, isDirect_disclosed]
    split_ifs with hdirect
    · cases status.filter (· ∈ directStatuses) with
      | none => rfl
      | some new =>
        dsimp only
        split_ifs
        · rfl
        · rw [(routine_directUpdate new _ now).disclosed_update]
    · rfl

theorem findUnderReview_disclosed (issueRef : String) :
    findUnderReview E db.disclosed issueRef = (findUnderReview E db issueRef).map .withheld := by
  unfold findUnderReview
  cases E.resolveOpaqueRef issueRef with
  | none => rfl
  | some issueId =>
    simp only [Option.bind_some]
    rw [visibleIssues_disclosed, find?_withheld (p := fun i ↦ i.id = issueId ∧ Escalated i ∧
      i.status ∈ [statusEscalatedToDev, "elevated", "developer_review"])]
    intro i
    rw [withheld_id, withheld_status, escalated_withheld]

theorem resolveEscalatedIssue_disclosed (issueRef note : String) (userId : Option ℕ)
    (now : Instant) :
    resolveEscalatedIssue E db.disclosed issueRef note userId now =
      ((resolveEscalatedIssue E db issueRef note userId now).1,
        (resolveEscalatedIssue E db issueRef note userId now).2.disclosed) := by
  unfold resolveEscalatedIssue
  rw [findUnderReview_disclosed]
  cases findUnderReview E db issueRef with
  | none => rfl
  | some issue =>
    simp only [Option.map_some, withheld_id]
    split_ifs
    · rfl
    · rfl
    · rw [(routine_devResolve _ now).disclosed_update]

/-- Every act has the outcome, and the effect on what is disclosed, that it would have on the
disclosed tables alone. -/
theorem act_disclosed (a : SystemAdminAct) :
    act E db.disclosed a = ((act E db a).1, (act E db a).2.disclosed) := by
  cases a with
  | updateIssue issueRef status adminNotes now =>
    exact updateIssue_disclosed issueRef status adminNotes now
  | startReview issueRef =>
    simp only [act, startReviewEscalatedIssue, findUnderReview_disclosed]
    cases findUnderReview E db issueRef with
    | none => rfl
    | some issue => simp only [Option.map_some, withheld_id]
  | resolveEscalatedIssue issueRef note userId now =>
    exact resolveEscalatedIssue_disclosed issueRef note userId now

/-- An act changes nothing, or routinely changes one visible ticket. -/
theorem act_cases (db : Tables) (a : SystemAdminAct) : (act E db a).2 = db ∨
    ∃ i ∈ sysadminVisibleIssues db, ∃ f, Routine f ∧ (act E db a).2 = db.update i.id f := by
  cases a with
  | updateIssue issueRef status adminNotes now =>
    simp only [act, updateIssue]
    cases hfind : getSysadminVisibleIssue db (E.resolveOpaqueRef issueRef) with
    | none => exact Or.inl rfl
    | some issue =>
      have hmem : issue ∈ sysadminVisibleIssues db := by
        obtain ⟨issueId, -, hfound⟩ := Option.bind_eq_some_iff.1 hfind
        exact List.mem_of_find?_eq_some hfound
      dsimp only
      split_ifs
      · cases status.filter (· ∈ directStatuses) with
        | none => exact Or.inl rfl
        | some new =>
          dsimp only
          split_ifs
          · exact Or.inl rfl
          · exact Or.inr ⟨issue, hmem, _, routine_directUpdate new _ now, rfl⟩
      · exact Or.inl rfl
  | startReview issueRef => exact Or.inl rfl
  | resolveEscalatedIssue issueRef note userId now =>
    simp only [act, resolveEscalatedIssue]
    cases hfind : findUnderReview E db issueRef with
    | none => exact Or.inl rfl
    | some issue =>
      have hmem : issue ∈ sysadminVisibleIssues db := by
        obtain ⟨issueId, -, hfound⟩ := Option.bind_eq_some_iff.1 hfind
        exact List.mem_of_find?_eq_some hfound
      dsimp only
      split_ifs
      · exact Or.inl rfl
      · exact Or.inl rfl
      · exact Or.inr ⟨issue, hmem, _, routine_devResolve _ now, rfl⟩

def hiddenIssues (db : Tables) : List Issue := db.issues.filter (¬ Visible db ·)

/-- Where tickets have keys of their own, the routine change of a visible one leaves the hidden
ones alone. -/
theorem Routine.hiddenIssues_update (hf : Routine f)
    (hkeys : db.issues.Pairwise (·.id < ·.id)) {i : Issue} (hi : i ∈ sysadminVisibleIssues db) :
    hiddenIssues (db.update i.id f) = hiddenIssues db := by
  obtain ⟨hmem, hvisible⟩ := List.mem_filter.1 hi
  have hissues : (db.update i.id f).issues = db.issues.map (updateAt i.id f) := rfl
  have hfilter : hiddenIssues (db.update i.id f) =
      (hiddenIssues db).map (updateAt i.id f) := by
    unfold hiddenIssues
    rw [hissues, List.filter_map]
    congr 2
    funext j
    exact decide_eq_decide.2 (not_congr (hf.visible_updateAt j))
  have hkept (j : Issue) (hj : j ∈ hiddenIssues db) : updateAt i.id f j = j := by
    obtain ⟨hjmem, hhidden⟩ := List.mem_filter.1 hj
    refine if_neg fun hid ↦ ?_
    have hsame := (find?_key_eq_some hkeys).2 ⟨hjmem, hid⟩
    rw [(find?_key_eq_some hkeys).2 ⟨hmem, rfl⟩] at hsame
    cases hsame
    exact of_decide_eq_true hhidden (of_decide_eq_true hvisible)
  rw [hfilter, List.map_congr_left hkept, List.map_id']

theorem hiddenIssues_act (hkeys : db.issues.Pairwise (·.id < ·.id)) (a : SystemAdminAct) :
    hiddenIssues (act E db a).2 = hiddenIssues db := by
  rcases act_cases (E := E) db a with h | ⟨i, hi, f, hf, h⟩
  · rw [h]
  · rw [h]
    exact hf.hiddenIssues_update hkeys hi

end Acts

end TokenHub.Support
