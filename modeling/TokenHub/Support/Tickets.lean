import Mathlib.Data.List.Sort
import TokenHub.Identity.Rows

set_option autoImplicit false

namespace TokenHub.Support

open Rent (Instant)

section Rows

inductive Role where
  | student
  | teacher
  deriving DecidableEq

inductive Actor where
  | student
  | teacher
  | sysadmin
  deriving DecidableEq

structure Seat where
  id : ℕ
  publicId : ℕ
  userId : Option ℕ
  classId : ℕ
  role : Role
  claimedAt : Option Instant
  deriving DecidableEq

structure ClassEconomy where
  classId : ℕ
  classPublicId : ℕ
  teacherUserId : Option ℕ
  displayName : Option String
  classTimezone : String
  deriving DecidableEq

/-- A value of the frozen context: one text, a dict of them or a list of dicts, leaves as JSON. -/
inductive Entry where
  | leaf (json : String)
  | record (fields : List (String × String))
  | records (rows : List (List (String × String)))
  deriving DecidableEq

abbrev Snapshot := List (String × Entry)

/-- An entry of a correlation pack; `rest` is what it has beside its timestamp. -/
structure TraceEntry where
  timestamp : Option String
  rest : List (String × String)
  deriving DecidableEq

structure TicketCorrelationPack where
  correlationVersion : ℕ
  actorType : Actor
  actorPublicId : ℕ
  classPublicId : Option ℕ
  requestTraceJson : List TraceEntry
  errorRefsJson : List TraceEntry
  createdAt : Instant
  deriving DecidableEq

structure IssueStatusHistory where
  previousStatus : Option String
  newStatus : String
  changedByType : Actor
  changedByPublicId : Option ℕ
  changedAt : Instant
  notes : Option String
  deriving DecidableEq

/-- A ticket with the rows that refer to it. The category is its name. -/
structure Issue where
  id : ℕ
  actorPublicId : ℕ
  reviewerPublicId : Option ℕ
  classPublicId : ℕ
  classLabel : Option String
  category : Option String
  issueType : String
  title : String
  studentExplanation : String
  studentExpectedOutcome : Option String
  submittedAt : Instant
  contextSnapshot : Option Snapshot
  status : String
  escalatedAt : Option Instant
  escalationReason : Option String
  teacherDiagnosticNote : Option String
  supportPermissions : List (String × Bool)
  shareClassNameWithSysadmin : Bool
  sysadminReviewedAt : Option Instant
  sysadminNotes : Option String
  sysadminResolvedAt : Option Instant
  statusHistory : List IssueStatusHistory
  correlationPack : Option TicketCorrelationPack
  deriving DecidableEq

structure Tables where
  classes : List ClassEconomy
  seats : List Seat
  issues : List Issue
  deriving DecidableEq

def Tables.update (db : Tables) (issueId : ℕ) (f : Issue → Issue) : Tables :=
  { db with issues := db.issues.map fun i ↦ if i.id = issueId then f i else i }

end Rows

section Statuses

def statusOpen : String := "OPEN"
def statusTeacherReview : String := "TEACHER_REVIEW"
def statusEscalatedToDev : String := "ESCALATED_TO_DEV"
def statusDevResolved : String := "DEV_RESOLVED"
def statusTeacherFinalReview : String := "TEACHER_FINAL_REVIEW"
def statusClosed : String := "CLOSED"

def legacyToCanonicalStatus : List (String × String) :=
  [("submitted", statusOpen), ("teacher_review", statusTeacherReview),
    ("teacher_resolved", statusTeacherFinalReview), ("elevated", statusEscalatedToDev),
    ("developer_review", statusEscalatedToDev), ("developer_resolved", statusDevResolved)]

def statusMap : List (String × String) :=
  [(statusOpen, "Submitted"), (statusTeacherReview, "Teacher Review"),
    (statusEscalatedToDev, "Escalated to Developer"),
    (statusDevResolved, "Developer Fix Applied - Teacher Review Required"),
    (statusTeacherFinalReview, "Teacher Final Review"), (statusClosed, "Closed")]

def Issue.studentVisibleStatus (i : Issue) : String :=
  (statusMap.lookup ((legacyToCanonicalStatus.lookup i.status).getD i.status)).getD "Unknown"

def Issue.recordStatusChange (i : Issue) (previous : Option String) (new : String)
    (changedByType : Actor) (changedByPublicId : Option ℕ) (notes : Option String)
    (now : Instant) : Issue :=
  { i with
    statusHistory :=
      i.statusHistory ++ [⟨previous, new, changedByType, changedByPublicId, now, notes⟩] }

/-- `update_issue_status`. -/
def Issue.updateStatus (i : Issue) (new : String) (changedByType : Actor)
    (changedByPublicId : Option ℕ) (notes : Option String) (now : Instant) : Issue :=
  { i.recordStatusChange (some i.status) new changedByType changedByPublicId notes now with
    status := new }

end Statuses

section Access

variable (db : Tables)

def TeacherAuthored (i : Issue) : Prop :=
  ∃ s ∈ db.seats, ∃ c ∈ db.classes, s.publicId = i.actorPublicId ∧ s.role = .teacher ∧
    s.classId = c.classId ∧ c.classPublicId = i.classPublicId

instance (i : Issue) : Decidable (TeacherAuthored db i) := by
  unfold TeacherAuthored; infer_instance

def Escalated (i : Issue) : Prop := i.escalatedAt ≠ none

instance (i : Issue) : Decidable (Escalated i) := by unfold Escalated; infer_instance

def Visible (i : Issue) : Prop := Escalated i ∨ TeacherAuthored db i

instance (i : Issue) : Decidable (Visible db i) := by unfold Visible; infer_instance

def sysadminVisibleIssues : List Issue := db.issues.filter (Visible db ·)

def getSysadminVisibleIssue (issueId : Option ℕ) : Option Issue :=
  issueId.bind fun issueId ↦ (sysadminVisibleIssues db).find? (·.id = issueId)

def isSysadminDirectLifecycle (issueId : ℕ) : Bool :=
  ((sysadminVisibleIssues db).filter fun i ↦ TeacherAuthored db i ∧ ¬ Escalated i).any
    (·.id = issueId)

end Access

section Disclosure

def permissionFields : List (String × String) :=
  [("balances", "share_balances"), ("transaction", "share_transaction"),
    ("recent_transactions", "share_recent_transactions"),
    ("student_report", "share_student_report")]

abbrev Form := List (String × String)

def permissionsFromForm (form : Form) : List (String × Bool) :=
  permissionFields.map fun p ↦ (p.1, form.lookup p.2 = some "on")

def technicalFields : List String := ["timestamp", "page_url", "ip_address", "user_agent"]

def allowedFields : List (String × List String) :=
  [("balances", ["checking", "savings", "total"]),
    ("transaction",
      ["id", "amount", "account_type", "description", "type", "timestamp", "posting_state"]),
    ("recent_transactions", ["id", "amount", "description", "timestamp"])]

def pick (fields : List String) (record : List (String × String)) : List (String × String) :=
  fields.filterMap fun k ↦ (record.lookup k).map (k, ·)

/-- The writers put records and lists of them under the categories, never a leaf. -/
def Entry.project (fields : List String) : Entry → Entry
  | .leaf _ => .record []
  | .record r => .record (pick fields r)
  | .records rows => .records (rows.map (pick fields))

def disclosedSnapshot (i : Issue) : Snapshot :=
  let source := i.contextSnapshot.getD []
  technicalFields.filterMap (fun k ↦ (source.lookup k).map (k, ·)) ++
    allowedFields.filterMap fun (category, fields) ↦
      if i.supportPermissions.lookup category = some true then
        (source.lookup category).map fun v ↦ (category, v.project fields)
      else none

def disclosedReport (i : Issue) : Option String × Option String :=
  if i.supportPermissions.lookup "student_report" = some true then
    (some i.studentExplanation, i.studentExpectedOutcome)
  else (none, none)

end Disclosure

end TokenHub.Support
