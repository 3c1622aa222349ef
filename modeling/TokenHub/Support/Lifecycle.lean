import TokenHub.Lib.Runs
import TokenHub.Support.SystemAdmin

set_option autoImplicit false

namespace TokenHub.Support

open Rent (Instant)
open Identity (strip)
open Lib.Runs

section Systems

/-- The tables with the keys that the next rows get; a random uuid is a fresh number. -/
structure System where
  db : Tables
  nextSeatId : ℕ
  nextPublicId : ℕ
  nextClassId : ℕ
  nextIssueId : ℕ

def start : System := ⟨⟨[], [], []⟩, 0, 0, 0, 0⟩

variable (s : System)

/-- `create_teacher_class`: the class and its teacher's seat. -/
def createClass (teacherUserId : ℕ) (displayName : Option String) (classTimezone : String) :
    System :=
  { s with
    db.classes := s.db.classes ++
      [⟨s.nextClassId, s.nextClassId, some teacherUserId, displayName, classTimezone⟩]
    db.seats := s.db.seats ++
      [⟨s.nextSeatId, s.nextPublicId, some teacherUserId, s.nextClassId, .teacher, none⟩]
    nextSeatId := s.nextSeatId + 1
    nextPublicId := s.nextPublicId + 1
    nextClassId := s.nextClassId + 1 }

def createSeat (classId : ℕ) : System :=
  { s with
    db.seats := s.db.seats ++ [⟨s.nextSeatId, s.nextPublicId, none, classId, .student, none⟩]
    nextSeatId := s.nextSeatId + 1
    nextPublicId := s.nextPublicId + 1 }

def updateSeat (seatId : ℕ) (f : Seat → Seat) : System :=
  { s with db.seats := s.db.seats.map fun x ↦ if x.id = seatId then f x else x }

def claimSeat (seatId userId : ℕ) (now : Instant) : System :=
  updateSeat s seatId fun x ↦
    if x.role = .student then { x with userId := some userId, claimedAt := some now } else x

def unclaimSeat (seatId : ℕ) : System :=
  updateSeat s seatId fun x ↦
    if x.role = .student then { x with userId := none, claimedAt := none } else x

def deleteSeat (seatId : ℕ) : System :=
  match s.db.seats.find? (·.id = seatId) with
  | none => s
  | some seat =>
    { s with
      db.issues := s.db.issues.filter (·.actorPublicId ≠ seat.publicId)
      db.seats := s.db.seats.filter (·.id ≠ seatId) }

def destroyClass (classId : ℕ) : System :=
  match s.db.classes.find? (·.classId = classId) with
  | none => s
  | some row =>
    { s with
      db.issues := s.db.issues.filter (·.classPublicId ≠ row.classPublicId)
      db.seats := s.db.seats.filter (·.classId ≠ classId)
      db.classes := s.db.classes.filter (·.classId ≠ classId) }

end Systems

section Submissions

/-- What a submission freezes of its request and of the class's records. -/
structure Submission where
  category : Option String
  issueType : String
  title : String
  explanation : String
  expectedOutcome : Option String
  timestamp : String
  pageUrl : String
  userAgent : String
  ipAddress : String
  balances : List (String × String)
  transaction : Option (List (String × String))
  recentTransactions : List (List (String × String))
  requestTrace : List TraceEntry
  errorRefs : List TraceEntry
  shareClassName : Bool

namespace Submission

variable (q : Submission)

def technical : Snapshot :=
  [("timestamp", .leaf q.timestamp), ("page_url", .leaf q.pageUrl),
    ("user_agent", .leaf q.userAgent), ("ip_address", .leaf q.ipAddress)]

def contextSnapshot : Snapshot :=
  q.technical ++ [("balances", .record q.balances)] ++
    (q.transaction.map fun t ↦ ("transaction", Entry.record t)).toList ++
    [("recent_transactions", .records q.recentTransactions)]

def correlationPack (actorType : Actor) (seat : Seat) (row : ClassEconomy) (now : Instant) :
    TicketCorrelationPack :=
  ⟨1, actorType, seat.publicId, some row.classPublicId, q.requestTrace, q.errorRefs, now⟩

/-- The row of `create_issue`. -/
def studentIssue (id : ℕ) (seat : Seat) (row : ClassEconomy) (now : Instant) : Issue :=
  Issue.recordStatusChange
    { id, actorPublicId := seat.publicId, reviewerPublicId := none
      classPublicId := row.classPublicId, classLabel := row.displayName, category := q.category
      issueType := q.issueType, title := "Support Ticket"
      studentExplanation := q.explanation, studentExpectedOutcome := q.expectedOutcome
      submittedAt := now, contextSnapshot := some q.contextSnapshot, status := statusOpen
      escalatedAt := none, escalationReason := none, teacherDiagnosticNote := none
      supportPermissions := [], shareClassNameWithSysadmin := false
      sysadminReviewedAt := none, sysadminNotes := none, sysadminResolvedAt := none
      statusHistory := [], correlationPack := some (q.correlationPack .student seat row now) }
    none statusOpen .student (some seat.publicId) none now

/-- The row of `create_support_ticket`. -/
def teacherIssue (id : ℕ) (seat : Seat) (row : ClassEconomy) (now : Instant) : Issue where
  id
  actorPublicId := seat.publicId
  reviewerPublicId := none
  classPublicId := row.classPublicId
  classLabel := row.displayName
  category := q.category
  issueType := "general"
  title := q.title
  studentExplanation := q.explanation
  studentExpectedOutcome := q.expectedOutcome
  submittedAt := now
  contextSnapshot := some q.technical
  status := statusOpen
  escalatedAt := none
  escalationReason := none
  teacherDiagnosticNote := none
  supportPermissions := [("student_report", true)]
  shareClassNameWithSysadmin := q.shareClassName
  sysadminReviewedAt := none
  sysadminNotes := none
  sysadminResolvedAt := none
  statusHistory := []
  correlationPack := some (q.correlationPack .teacher seat row now)

end Submission

variable (s : System)

/-- The seat of the session behind `login_required`, for students, or `admin_required`. -/
def sessionSeat (role : Role) (seatId : ℕ) : Option Seat :=
  s.db.seats.find? fun x ↦ x.id = seatId ∧ x.role = role ∧ x.userId ≠ none ∧
    (x.role = .student → x.claimedAt ≠ none)

def classOf (seat : Seat) : Option ClassEconomy := s.db.classes.find? (·.classId = seat.classId)

def System.addIssue (i : Issue) : System :=
  { s with db.issues := s.db.issues ++ [i], nextIssueId := s.nextIssueId + 1 }

def createIssue (seatId : ℕ) (q : Submission) (now : Instant) : System :=
  match sessionSeat s .student seatId with
  | none => s
  | some seat =>
    match classOf s seat with
    | none => s
    | some row => s.addIssue (q.studentIssue s.nextIssueId seat row now)

def createSupportTicket (seatId : ℕ) (q : Submission) (now : Instant) : System :=
  match sessionSeat s .teacher seatId with
  | none => s
  | some seat =>
    match classOf s seat with
    | none => s
    | some row => s.addIssue (q.teacherIssue s.nextIssueId seat row now)

end Submissions

section TeacherReview

variable (s : System)

def resolvePublicIdForUser (userId : Option ℕ) (classId : ℕ) : Option ℕ :=
  (s.db.seats.find? fun x ↦ x.userId = userId ∧ x.classId = classId).map Seat.publicId

def reviewedIssue (seat : Seat) (issueId : ℕ) : Option Issue :=
  s.db.issues.find? fun i ↦ i.id = issueId ∧ ¬ TeacherAuthored s.db i ∧
    ∀ row ∈ classOf s seat, i.classPublicId = row.classPublicId

/-- `resolve_issue`; `accepted` where its resolution action is a valid one that succeeds. -/
def resolveIssue (seatId issueId : ℕ) (accepted : Bool) (notes : String) (now : Instant) :
    System :=
  match sessionSeat s .teacher seatId with
  | none => s
  | some seat =>
    match reviewedIssue s seat issueId with
    | none => s
    | some issue =>
      if accepted ∧ issue.status ∈ [statusOpen, statusTeacherReview, statusDevResolved,
          "submitted", "teacher_review", "developer_resolved"] then
        { s with
          db := s.db.update issue.id (·.updateStatus statusTeacherFinalReview .teacher
            (resolvePublicIdForUser s seat.userId seat.classId) (some (strip notes)) now) }
      else s

def closeIssue (seatId issueId : ℕ) (summary : String) (now : Instant) : System :=
  match sessionSeat s .teacher seatId with
  | none => s
  | some seat =>
    match reviewedIssue s seat issueId with
    | none => s
    | some issue =>
      if issue.status ∈ [statusTeacherFinalReview, "teacher_resolved"] ∧ strip summary ≠ "" then
        { s with
          db := s.db.update issue.id (·.updateStatus statusClosed .teacher
            (resolvePublicIdForUser s seat.userId seat.classId) (some (strip summary)) now) }
      else s

def verifyTeacherOwnsClass (classId : ℕ) (userId : Option ℕ) : Option ClassEconomy :=
  s.db.classes.find? fun c ↦ c.classId = classId ∧ c.teacherUserId = userId

def Issue.escalate (form : Form) (teacherPublicId : ℕ) (now : Instant) (i : Issue) : Issue :=
  let reason := strip ((form.lookup "escalation_reason").getD "")
  { i.updateStatus statusEscalatedToDev .teacher (some teacherPublicId)
      (some ("Escalated: " ++ reason)) now with
    escalationReason := some reason
    teacherDiagnosticNote := some (strip ((form.lookup "diagnostic_note").getD ""))
    supportPermissions := permissionsFromForm form
    shareClassNameWithSysadmin := form.lookup "share_class_name" = some "on"
    escalatedAt := some now
    reviewerPublicId := some teacherPublicId }

def escalateIssue (seatId issueId : ℕ) (form : Form) (now : Instant) : System :=
  match sessionSeat s .teacher seatId with
  | none => s
  | some seat =>
    match verifyTeacherOwnsClass s seat.classId seat.userId,
        resolvePublicIdForUser s seat.userId seat.classId with
    | some row, some teacherPublicId =>
      match s.db.issues.find? fun i ↦ i.id = issueId ∧ i.classPublicId = row.classPublicId ∧
          ¬ TeacherAuthored s.db i with
      | none => s
      | some issue =>
        if issue.status ∈ [statusOpen, statusTeacherReview, "submitted", "teacher_review"] ∧
            strip ((form.lookup "escalation_reason").getD "") ≠ "" then
          { s with db := s.db.update issue.id (.escalate form teacherPublicId now) }
        else s
    | _, _ => s

end TeacherReview

section Steps

inductive Action where
  | createClass (teacherUserId : ℕ) (displayName : Option String) (classTimezone : String)
  | createSeat (classId : ℕ)
  | claimSeat (seatId userId : ℕ) (now : Instant)
  | unclaimSeat (seatId : ℕ)
  | deleteSeat (seatId : ℕ)
  | destroyClass (classId : ℕ)
  | createIssue (seatId : ℕ) (q : Submission) (now : Instant)
  | createSupportTicket (seatId : ℕ) (q : Submission) (now : Instant)
  | resolveIssue (seatId issueId : ℕ) (accepted : Bool) (notes : String) (now : Instant)
  | closeIssue (seatId issueId : ℕ) (summary : String) (now : Instant)
  | escalateIssue (seatId issueId : ℕ) (form : Form) (now : Instant)
  | sysadmin (a : SystemAdminAct)

def step (E : Surroundings) (s : System) : Action → System
  | .createClass user name zone => createClass s user name zone
  | .createSeat classId => createSeat s classId
  | .claimSeat seatId userId now => claimSeat s seatId userId now
  | .unclaimSeat seatId => unclaimSeat s seatId
  | .deleteSeat seatId => deleteSeat s seatId
  | .destroyClass classId => destroyClass s classId
  | .createIssue seatId q now => createIssue s seatId q now
  | .createSupportTicket seatId q now => createSupportTicket s seatId q now
  | .resolveIssue seatId issueId accepted notes now =>
    resolveIssue s seatId issueId accepted notes now
  | .closeIssue seatId issueId summary now => closeIssue s seatId issueId summary now
  | .escalateIssue seatId issueId form now => escalateIssue s seatId issueId form now
  | .sysadmin a => { s with db := (act E s.db a).2 }

end Steps

end TokenHub.Support
