import TokenHub.Support.Tickets

set_option autoImplicit false

namespace TokenHub.Support

open Rent (Instant)
open Identity (strip)

/-- What the pages take from other code: the display of times, under the clock of a class or in
UTC, the reading of references and `str.upper`. -/
structure Surroundings where
  formatInstant : Option ℕ → Option Instant → String
  formatIso : Option ℕ → Option String → String
  resolveOpaqueRef : String → Option ℕ
  upper : String → String

section Views

variable (E : Surroundings)

structure IssueView where
  id : ℕ
  status : String
  statusLabel : String
  actorPublicId : ℕ
  reviewerPublicId : Option ℕ
  classPublicId : ℕ
  shareClassNameWithSysadmin : Bool
  classLabel : Option String
  categoryName : String
  issueType : String
  title : String
  submittedAt : Instant
  escalationReason : Option String
  teacherDiagnosticNote : Option String
  studentExplanation : Option String
  studentExpectedOutcome : Option String
  escalatedAt : Option Instant
  sysadminReviewedAt : Option Instant
  sysadminResolvedAt : Option Instant
  sysadminNotes : Option String
  contextSnapshot : Snapshot
  deriving DecidableEq

def issueToView (i : Issue) : IssueView where
  id := i.id
  status := i.status
  statusLabel := i.studentVisibleStatus
  actorPublicId := i.actorPublicId
  reviewerPublicId := i.reviewerPublicId
  classPublicId := i.classPublicId
  shareClassNameWithSysadmin := i.shareClassNameWithSysadmin
  classLabel := if i.shareClassNameWithSysadmin then i.classLabel else none
  categoryName := i.category.getD "Unknown"
  issueType := i.issueType
  title := i.title
  submittedAt := i.submittedAt
  escalationReason := i.escalationReason
  teacherDiagnosticNote := i.teacherDiagnosticNote
  studentExplanation := (disclosedReport i).1
  studentExpectedOutcome := (disclosedReport i).2
  escalatedAt := i.escalatedAt
  sysadminReviewedAt := i.sysadminReviewedAt
  sysadminResolvedAt := i.sysadminResolvedAt
  sysadminNotes := i.sysadminNotes
  contextSnapshot := disclosedSnapshot i

structure DisplayedIssue extends IssueView where
  submittedAtDisplay : String
  escalatedAtDisplay : String
  sysadminReviewedAtDisplay : String
  sysadminResolvedAtDisplay : String
  inReviewSinceDisplay : String
  deriving DecidableEq

def buildIssueView (v : IssueView) (context : Option ℕ) : DisplayedIssue where
  toIssueView := v
  submittedAtDisplay := E.formatInstant context (some v.submittedAt)
  escalatedAtDisplay := E.formatInstant context v.escalatedAt
  sysadminReviewedAtDisplay := E.formatInstant context v.sysadminReviewedAt
  sysadminResolvedAtDisplay := E.formatInstant context v.sysadminResolvedAt
  inReviewSinceDisplay := E.formatInstant context (v.sysadminReviewedAt <|> v.escalatedAt)

structure ReportRow where
  id : ℕ
  status : String
  statusLabel : String
  reportType : String
  submittedAt : Instant
  title : String
  description : Option String
  anonymousCode : ℕ
  classId : ℕ
  submittedAtDisplay : String
  deriving DecidableEq

def reportRow (i : Issue) : ReportRow where
  id := i.id
  status := i.status
  statusLabel := i.studentVisibleStatus
  reportType := i.category.getD "unknown"
  submittedAt := i.submittedAt
  title := if i.title = "" then "Support issue" else i.title
  description := (issueToView i).studentExplanation
  anonymousCode := i.actorPublicId
  classId := i.classPublicId
  submittedAtDisplay := E.formatInstant none (some i.submittedAt)

structure HistoryRow where
  newStatus : String
  changedByType : Actor
  changedAt : Instant
  changedAtDisplay : String
  deriving DecidableEq

/-- `_history_entry_to_view` and `build_history_rows`, newest first. -/
def historyRows (i : Issue) (context : Option ℕ) : List HistoryRow :=
  (i.statusHistory.insertionSort (fun g h ↦ h.changedAt ≤ g.changedAt)).map fun h ↦
    ⟨h.newStatus, h.changedByType, h.changedAt, E.formatInstant context (some h.changedAt)⟩

structure PackView where
  pack : TicketCorrelationPack
  requestTraceDisplays : List String
  errorRefDisplays : List String
  deriving DecidableEq

/-- `_correlation_pack_to_view` and `build_correlation_pack_view`. -/
def packView (i : Issue) (context : Option ℕ) : Option PackView :=
  i.correlationPack.map fun p ↦
    ⟨p, p.requestTraceJson.map (E.formatIso context ·.timestamp),
      p.errorRefsJson.map (E.formatIso context ·.timestamp)⟩

end Views

section Reads

variable (E : Surroundings) (db : Tables)

def openTickets : ℕ :=
  ((sysadminVisibleIssues db).filter fun i ↦ i.status ∈
    [statusOpen, statusTeacherReview, statusEscalatedToDev, "elevated", "developer_review"]).length

structure SupportPage where
  activeTab : String
  reports : List ReportRow
  statusFilter : String
  reportTypeFilter : String
  newReports : ℕ
  reviewedReports : ℕ
  issuesPending : List DisplayedIssue
  issuesInReview : List DisplayedIssue
  issuesResolved : List DisplayedIssue
  pendingIssues : ℕ
  inReviewIssues : ℕ
  deriving DecidableEq

def teacherReports : List Issue := (sysadminVisibleIssues db).filter (TeacherAuthored db ·)

def reportsFor (statusFilter : String) : List Issue :=
  ((teacherReports db).filter fun i ↦
    statusFilter = "all" ∨ i.status = E.upper statusFilter).insertionSort
      (fun i j ↦ j.submittedAt ≤ i.submittedAt)

def countOfStatus (status : String) : ℕ := (teacherReports db).countP (·.status = status)

/-- Tickets that are escalated and not yet back with the teacher, the last escalated first. -/
def escalatedIssues : List Issue :=
  ((sysadminVisibleIssues db).filter fun i ↦ Escalated i ∧ i.status ∈
    [statusEscalatedToDev, statusDevResolved, "elevated", "developer_review",
      "developer_resolved"]).insertionSort
    (fun i j ↦ j.escalatedAt.getD 0 ≤ i.escalatedAt.getD 0)

def escalatedWith (statuses : List String) : List DisplayedIssue :=
  ((escalatedIssues db).filter (·.status ∈ statuses)).map fun i ↦
    buildIssueView E (issueToView i) none

def supportTickets (activeTab statusFilter reportTypeFilter : String) : SupportPage where
  activeTab := activeTab
  reports := (reportsFor E db statusFilter).map (reportRow E)
  statusFilter := statusFilter
  reportTypeFilter := reportTypeFilter
  newReports := countOfStatus db statusOpen
  reviewedReports := countOfStatus db statusDevResolved + countOfStatus db statusClosed
  issuesPending := escalatedWith E db [statusEscalatedToDev, "elevated"]
  issuesInReview := escalatedWith E db ["developer_review"]
  issuesResolved := escalatedWith E db [statusDevResolved, "developer_resolved"]
  pendingIssues := (escalatedWith E db [statusEscalatedToDev, "elevated"]).length
  inReviewIssues := (escalatedWith E db ["developer_review"]).length

structure IssuePage where
  pageTitle : String
  issue : DisplayedIssue
  issueRef : String
  directLifecycle : Bool
  history : List HistoryRow
  correlationPack : Option PackView
  reporterTicketCount : ℕ
  tzMode : String
  classTimezone : Option String
  displayTimezone : String
  deriving DecidableEq

def issuePage (issueRef : String) (tz : Option String) (issue : Issue) : IssuePage :=
  let classRow := db.classes.find? (·.classPublicId = issue.classPublicId)
  let classTimezone := classRow.map (·.classTimezone)
  let byClass : Bool := tz = some "class" ∧ classTimezone.getD "" ≠ ""
  let context := if byClass then classRow.map (·.classId) else none
  { pageTitle := "Ticket #" ++ toString issue.id
    issue := buildIssueView E (issueToView issue) context
    issueRef := issueRef
    directLifecycle := isSysadminDirectLifecycle db issue.id
    history := historyRows E issue context
    correlationPack := packView E issue context
    reporterTicketCount :=
      (sysadminVisibleIssues db).countP (·.actorPublicId = issue.actorPublicId)
    tzMode := if byClass then "class" else "utc"
    classTimezone := classTimezone
    displayTimezone := if byClass then classTimezone.getD "" else "UTC" }

def viewIssue (issueRef : String) (tz : Option String) : Option IssuePage :=
  (getSysadminVisibleIssue db (E.resolveOpaqueRef issueRef)).map (issuePage E db issueRef tz)

inductive Read where
  | dashboard
  | supportTickets (activeTab statusFilter reportTypeFilter : String)
  | viewIssue (issueRef : String) (tz : Option String)

inductive View where
  | dashboard (openTickets : ℕ)
  | supportTickets (page : SupportPage)
  | viewIssue (page : Option IssuePage)
  deriving DecidableEq

def view : Read → View
  | .dashboard => .dashboard (openTickets db)
  | .supportTickets tab status type => .supportTickets (supportTickets E db tab status type)
  | .viewIssue issueRef tz => .viewIssue (viewIssue E db issueRef tz)

end Reads

section Acts

inductive Target where
  | viewRef (issueRef : String)
  | viewId (issueId : ℕ)
  | login
  deriving DecidableEq

inductive Outcome where
  | notFound
  | redirect (message category : String) (target : Target)
  deriving DecidableEq

inductive SystemAdminAct where
  | updateIssue (issueRef : String) (status : Option String) (adminNotes : String)
      (now : Instant)
  | startReview (issueRef : String)
  | resolveEscalatedIssue (issueRef resolutionNote : String) (userId : Option ℕ) (now : Instant)

def orNone (text : String) : Option String := if text = "" then none else some text

def directStatuses : List String := [statusOpen, statusDevResolved, statusClosed]

/-- What `update_issue` writes. -/
def Issue.directUpdate (status : String) (notes : Option String) (now : Instant) (i : Issue) :
    Issue :=
  { i.updateStatus status .sysadmin none notes now with
    sysadminNotes := notes
    sysadminReviewedAt := some now }

/-- What `resolve_escalated_issue` writes. -/
def Issue.devResolve (note : String) (now : Instant) (i : Issue) : Issue :=
  { i.recordStatusChange (some i.status) statusDevResolved .sysadmin none (some note) now with
    status := statusDevResolved
    sysadminResolvedAt := some now
    sysadminNotes := some note }

variable (E : Surroundings) (db : Tables)

def updateIssue (issueRef : String) (status : Option String) (adminNotes : String)
    (now : Instant) : Outcome × Tables :=
  match getSysadminVisibleIssue db (E.resolveOpaqueRef issueRef) with
  | none => (.notFound, db)
  | some issue =>
    if ¬ isSysadminDirectLifecycle db issue.id then
      (.redirect ("This ticket is in the escalation workflow, which this form does not " ++
        "change. Use the technical-resolution action instead.") "error" (.viewRef issueRef), db)
    else
      match status.filter (· ∈ directStatuses) with
      | none => (.redirect "Invalid status selected." "error" (.viewRef issueRef), db)
      | some new =>
        if issue.status ∉ directStatuses ∧ new ≠ issue.status then
          (.redirect ("This ticket is in a workflow state that this form does not resolve. " ++
            "Use the technical-resolution action instead.") "error" (.viewRef issueRef), db)
        else
          (.redirect ("Ticket #" ++ toString issue.id ++ " updated successfully.") "success"
            (.viewRef issueRef),
            db.update issue.id (.directUpdate new (orNone (strip adminNotes)) now))

def findUnderReview (issueRef : String) : Option Issue :=
  (E.resolveOpaqueRef issueRef).bind fun issueId ↦
    (sysadminVisibleIssues db).find? fun i ↦ i.id = issueId ∧ Escalated i ∧
      i.status ∈ [statusEscalatedToDev, "elevated", "developer_review"]

def startReviewEscalatedIssue (issueRef : String) : Outcome :=
  match findUnderReview E db issueRef with
  | none => .notFound
  | some issue =>
    .redirect "Status remains Escalated to Developer until technical resolution is recorded."
      "info" (.viewId issue.id)

def resolveEscalatedIssue (issueRef resolutionNote : String) (userId : Option ℕ)
    (now : Instant) : Outcome × Tables :=
  match findUnderReview E db issueRef with
  | none => (.notFound, db)
  | some issue =>
    if userId = none then
      (.redirect "System admin session is invalid. Please log in again." "error" .login, db)
    else if strip resolutionNote = "" then
      (.redirect "Resolution notes are required." "error" (.viewId issue.id), db)
    else
      (.redirect "Technical fix recorded. Ticket returned to the teacher for final review."
        "success" (.viewId issue.id),
        db.update issue.id (.devResolve (strip resolutionNote) now))

def act : SystemAdminAct → Outcome × Tables
  | .updateIssue issueRef status adminNotes now => updateIssue E db issueRef status adminNotes now
  | .startReview issueRef => (startReviewEscalatedIssue E db issueRef, db)
  | .resolveEscalatedIssue issueRef note userId now =>
    resolveEscalatedIssue E db issueRef note userId now

end Acts

end TokenHub.Support
