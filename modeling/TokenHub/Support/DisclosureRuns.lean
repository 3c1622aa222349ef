import Mathlib.Data.List.Pairwise
import TokenHub.Support.Disclosure
import TokenHub.Support.Lifecycle

set_option autoImplicit false

namespace TokenHub.Support

open Rent (Instant)
open Identity (strip)
open Lib.Runs Lib.Ordered

section Laws

/-- The states agree on what system support may see: on every visible ticket, except in what the
teacher who escalated it did not permit. -/
structure AgreeOnVisible (s t : Tables) : Prop where
  classes : s.classes = t.classes
  seats : s.seats = t.seats
  tickets : ∀ issueId, (getSysadminVisibleIssue s (some issueId)).map Issue.withheld =
    (getSysadminVisibleIssue t (some issueId)).map Issue.withheld

/-- System support sees the same in both states, and whatever it does has the same outcome in
both, leaves them in agreement and changes no hidden ticket. -/
structure LearnsTheSame (E : Surroundings) (s t : Tables) : Prop where
  views : ∀ r, view E s r = view E t r
  outcomes : ∀ a, (act E s a).1 = (act E t a).1
  agree : ∀ a, AgreeOnVisible (act E s a).2 (act E t a).2
  hidden : ∀ a, hiddenIssues (act E s a).2 = hiddenIssues s ∧
    hiddenIssues (act E t a).2 = hiddenIssues t

def StudentTicket (i : Issue) : Prop := ∃ p ∈ i.correlationPack, p.actorType = .student

def EscalatedByOwner (s : System) (a : Action) (i : Issue) : Prop :=
  ∃ seatId form now, a = .escalateIssue seatId i.id form now ∧
    ∃ x ∈ s.db.seats, ∃ c ∈ s.db.classes, x.id = seatId ∧ x.role = .teacher ∧
      x.userId ≠ none ∧ x.classId = c.classId ∧ c.teacherUserId = x.userId ∧
      c.classPublicId = i.classPublicId

def RevealedByOwner (E : Surroundings) (s : System) (a : Action) : Prop :=
  ∀ i ∈ (step E s a).db.issues, StudentTicket i → Visible (step E s a).db i →
    (∃ j ∈ s.db.issues, j.id = i.id ∧ Visible s.db j) ∨ EscalatedByOwner s a i

end Laws

section Agreement

variable {E : Surroundings} {s t : Tables}

theorem AgreeOnVisible.of_disclosed (h : s.disclosed = t.disclosed) : AgreeOnVisible s t := by
  have hclasses : s.disclosed.classes = t.disclosed.classes := by rw [h]
  have hseats : s.disclosed.seats = t.disclosed.seats := by rw [h]
  refine ⟨hclasses, hseats, fun issueId ↦ ?_⟩
  rw [← getVisible_disclosed, ← getVisible_disclosed, h]

theorem pairwise_disclosed (hs : s.issues.Pairwise (·.id < ·.id)) :
    s.disclosed.issues.Pairwise (·.id < ·.id) := by
  refine List.pairwise_map.2 ((hs.filter _).imp fun h ↦ ?_)
  rw [withheld_id, withheld_id]
  exact h

theorem AgreeOnVisible.disclosed (h : AgreeOnVisible s t)
    (hs : s.issues.Pairwise (·.id < ·.id)) (ht : t.issues.Pairwise (·.id < ·.id)) :
    s.disclosed = t.disclosed := by
  have hfind (db : Tables) (k : ℕ) : db.disclosed.issues.find? (·.id = k) =
      (getSysadminVisibleIssue db (some k)).map Issue.withheld := by
    refine (find?_withheld (p := fun i ↦ i.id = k) (sysadminVisibleIssues db) fun i ↦ ?_)
    rw [withheld_id]
  have hissues : s.disclosed.issues = t.disclosed.issues := by
    refine eq_of_find?_key (pairwise_disclosed hs) (pairwise_disclosed ht) fun k ↦ ?_
    rw [hfind, hfind, h.tickets]
  have hclasses : s.disclosed.classes = t.disclosed.classes := h.classes
  have hseats : s.disclosed.seats = t.disclosed.seats := h.seats
  cases hs' : s.disclosed
  cases ht' : t.disclosed
  rw [hs', ht'] at hissues hclasses hseats
  simp_all

/-- Both states show and do what the tables that are disclosed in both would. -/
theorem AgreeOnVisible.learnsTheSame (h : AgreeOnVisible s t)
    (hs : s.issues.Pairwise (·.id < ·.id)) (ht : t.issues.Pairwise (·.id < ·.id)) :
    LearnsTheSame E s t := by
  have hdisclosed := h.disclosed hs ht
  constructor
  · intro r
    calc view E s r = view E s.disclosed r := (view_disclosed r).symm
      _ = view E t.disclosed r := by rw [hdisclosed]
      _ = view E t r := view_disclosed r
  · intro a
    have hsame : act E s.disclosed a = act E t.disclosed a := by rw [hdisclosed]
    rw [act_disclosed, act_disclosed] at hsame
    exact (Prod.mk.inj hsame).1
  · intro a
    have hsame : act E s.disclosed a = act E t.disclosed a := by rw [hdisclosed]
    rw [act_disclosed, act_disclosed] at hsame
    exact .of_disclosed (Prod.mk.inj hsame).2
  · intro a
    exact ⟨hiddenIssues_act hs a, hiddenIssues_act ht a⟩

end Agreement

section Moves

variable {E : Surroundings} {s : System} {a : Action}

inductive IssueMove (s : System) (a : Action) (s' : System) : Prop
  | removed (p : Issue → Bool) (issues : s'.db.issues = s.db.issues.filter p)
      (next : s'.nextIssueId = s.nextIssueId)
  | changed (issueId : ℕ) (f : Issue → Issue) (keeps : KeepsIdentity f)
      (issues : s'.db.issues = s.db.issues.map (updateAt issueId f))
      (next : s'.nextIssueId = s.nextIssueId)
      (escalated : (∀ i, (f i).escalatedAt = i.escalatedAt) ∨
        ∃ i ∈ s.db.issues, i.id = issueId ∧ EscalatedByOwner s a i)
  | added (i : Issue) (issues : s'.db.issues = s.db.issues ++ [i])
      (next : s'.nextIssueId = s.nextIssueId + 1) (id : i.id = s.nextIssueId)
      (escalatedAt : i.escalatedAt = none)
      (student : StudentTicket i →
        ∃ x ∈ s.db.seats, x.role = .student ∧ x.publicId = i.actorPublicId)

inductive SeatMove (s s' : System) : Prop
  | removed (p : Seat → Bool) (seats : s'.db.seats = s.db.seats.filter p)
      (next : s'.nextPublicId = s.nextPublicId)
  | changed (f : Seat → Seat) (keeps : ∀ x, (f x).publicId = x.publicId ∧ (f x).role = x.role)
      (seats : s'.db.seats = s.db.seats.map f) (next : s'.nextPublicId = s.nextPublicId)
  | added (x : Seat) (seats : s'.db.seats = s.db.seats ++ [x])
      (next : s'.nextPublicId = s.nextPublicId + 1) (publicId : x.publicId = s.nextPublicId)

theorem IssueMove.same {s' : System} (h : s'.db.issues = s.db.issues)
    (hnext : s'.nextIssueId = s.nextIssueId) : IssueMove s a s' :=
  .removed (fun _ ↦ true) (by rw [h, List.filter_true]) hnext

theorem SeatMove.same {s' : System} (h : s'.db.seats = s.db.seats)
    (hnext : s'.nextPublicId = s.nextPublicId) : SeatMove s s' :=
  .removed (fun _ ↦ true) (by rw [h, List.filter_true]) hnext

theorem keepsIdentity_updateStatus (new : String) (byType : Actor) (by' : Option ℕ)
    (notes : Option String) (now : Instant) :
    KeepsIdentity (·.updateStatus new byType by' notes now) :=
  ⟨fun _ ↦ rfl, fun _ ↦ rfl, fun _ ↦ rfl, fun _ ↦ rfl⟩

theorem keepsIdentity_escalate (form : Form) (teacherPublicId : ℕ) (now : Instant) :
    KeepsIdentity (.escalate form teacherPublicId now) :=
  ⟨fun _ ↦ rfl, fun _ ↦ rfl, fun _ ↦ rfl, fun _ ↦ rfl⟩

theorem sessionSeat_eq_some {role : Role} {seatId : ℕ} {x : Seat}
    (h : sessionSeat s role seatId = some x) :
    x ∈ s.db.seats ∧ x.id = seatId ∧ x.role = role ∧ x.userId ≠ none := by
  have hx := List.find?_some h
  simp only [decide_eq_true_eq] at hx
  exact ⟨List.mem_of_find?_eq_some h, hx.1, hx.2.1, hx.2.2.1⟩

theorem issueMove_create (seatId : ℕ) (q : Submission) (now : Instant) :
    IssueMove s a (createIssue s seatId q now) := by
  unfold createIssue
  cases hseat : sessionSeat s .student seatId with
  | none => exact .same rfl rfl
  | some x =>
    obtain ⟨hmem, -, hrole, -⟩ := sessionSeat_eq_some hseat
    dsimp only
    cases classOf s x with
    | none => exact .same rfl rfl
    | some row => exact .added _ rfl rfl rfl rfl fun _ ↦ ⟨x, hmem, hrole, rfl⟩

theorem issueMove_createSupport (seatId : ℕ) (q : Submission) (now : Instant) :
    IssueMove s a (createSupportTicket s seatId q now) := by
  unfold createSupportTicket
  cases sessionSeat s .teacher seatId with
  | none => exact .same rfl rfl
  | some x =>
    dsimp only
    cases classOf s x with
    | none => exact .same rfl rfl
    | some row =>
      refine .added _ rfl rfl rfl rfl ?_
      rintro ⟨p, hp, hstudent⟩
      cases hp
      cases hstudent

theorem issueMove_resolve (seatId issueId : ℕ) (accepted : Bool) (notes : String)
    (now : Instant) : IssueMove s a (resolveIssue s seatId issueId accepted notes now) := by
  unfold resolveIssue
  cases sessionSeat s .teacher seatId with
  | none => exact .same rfl rfl
  | some x =>
    dsimp only
    cases reviewedIssue s x issueId with
    | none => exact .same rfl rfl
    | some issue =>
      dsimp only
      split_ifs
      · exact .changed issue.id _ (keepsIdentity_updateStatus _ _ _ _ _) rfl rfl
          (Or.inl fun _ ↦ rfl)
      · exact .same rfl rfl

theorem issueMove_close (seatId issueId : ℕ) (summary : String) (now : Instant) :
    IssueMove s a (closeIssue s seatId issueId summary now) := by
  unfold closeIssue
  cases sessionSeat s .teacher seatId with
  | none => exact .same rfl rfl
  | some x =>
    dsimp only
    cases reviewedIssue s x issueId with
    | none => exact .same rfl rfl
    | some issue =>
      dsimp only
      split_ifs
      · exact .changed issue.id _ (keepsIdentity_updateStatus _ _ _ _ _) rfl rfl
          (Or.inl fun _ ↦ rfl)
      · exact .same rfl rfl

theorem issueMove_escalate (seatId issueId : ℕ) (form : Form) (now : Instant) :
    IssueMove s (.escalateIssue seatId issueId form now)
      (escalateIssue s seatId issueId form now) := by
  unfold escalateIssue
  cases hseat : sessionSeat s .teacher seatId with
  | none => exact .same rfl rfl
  | some x =>
    obtain ⟨hx, hid, hrole, huser⟩ := sessionSeat_eq_some hseat
    dsimp only
    cases hrow : verifyTeacherOwnsClass s x.classId x.userId with
    | none => exact .same rfl rfl
    | some row =>
      cases resolvePublicIdForUser s x.userId x.classId with
      | none => exact .same rfl rfl
      | some teacherPublicId =>
        dsimp only
        cases hissue : s.db.issues.find? fun i ↦ i.id = issueId ∧
            i.classPublicId = row.classPublicId ∧ ¬ TeacherAuthored s.db i with
        | none => exact .same rfl rfl
        | some issue =>
          dsimp only
          split_ifs
          · have hfound := List.find?_some hissue
            simp only [decide_eq_true_eq] at hfound
            have howns := List.find?_some hrow
            simp only [decide_eq_true_eq] at howns
            refine .changed issue.id _ (keepsIdentity_escalate _ _ _) rfl rfl (Or.inr ?_)
            refine ⟨issue, List.mem_of_find?_eq_some hissue, rfl, seatId, form, now, ?_, x, hx, row,
              List.mem_of_find?_eq_some hrow, hid, hrole, huser, howns.1.symm, howns.2,
              hfound.2.1.symm⟩
            rw [hfound.1]
          · exact .same rfl rfl

theorem issueMove_sysadmin (b : SystemAdminAct) :
    IssueMove s a { s with db := (act E s.db b).2 } := by
  rcases act_cases (E := E) s.db b with h | ⟨i, -, f, hf, h⟩
  · exact .same (congrArg Tables.issues h) rfl
  · exact .changed i.id f hf.toKeepsIdentity (congrArg Tables.issues h) rfl (Or.inl hf.escalatedAt)

theorem issueMove_step : IssueMove s a (step E s a) := by
  cases a with
  | createClass user name zone => exact .same rfl rfl
  | createSeat classId => exact .same rfl rfl
  | claimSeat seatId userId now => exact .same rfl rfl
  | unclaimSeat seatId => exact .same rfl rfl
  | deleteSeat seatId =>
    simp only [step, deleteSeat]
    cases s.db.seats.find? (·.id = seatId) with
    | none => exact .same rfl rfl
    | some x => exact .removed _ rfl rfl
  | destroyClass classId =>
    simp only [step, destroyClass]
    cases s.db.classes.find? (·.classId = classId) with
    | none => exact .same rfl rfl
    | some row => exact .removed _ rfl rfl
  | createIssue seatId q now => exact issueMove_create seatId q now
  | createSupportTicket seatId q now => exact issueMove_createSupport seatId q now
  | resolveIssue seatId issueId accepted notes now =>
    exact issueMove_resolve seatId issueId accepted notes now
  | closeIssue seatId issueId summary now => exact issueMove_close seatId issueId summary now
  | escalateIssue seatId issueId form now => exact issueMove_escalate seatId issueId form now
  | sysadmin b => exact issueMove_sysadmin b

theorem seats_act (b : SystemAdminAct) : (act E s.db b).2.seats = s.db.seats := by
  rcases act_cases (E := E) s.db b with h | ⟨i, -, f, -, h⟩
  · rw [h]
  · rw [h]
    rfl

theorem seatMove_step : SeatMove s (step E s a) := by
  cases a with
  | createClass user name zone => exact .added _ rfl rfl rfl
  | createSeat classId => exact .added _ rfl rfl rfl
  | claimSeat seatId userId now =>
    refine .changed _ (fun x ↦ ?_) rfl rfl
    dsimp only
    split_ifs <;> exact ⟨rfl, rfl⟩
  | unclaimSeat seatId =>
    refine .changed _ (fun x ↦ ?_) rfl rfl
    dsimp only
    split_ifs <;> exact ⟨rfl, rfl⟩
  | deleteSeat seatId =>
    simp only [step, deleteSeat]
    cases s.db.seats.find? (·.id = seatId) with
    | none => exact .same rfl rfl
    | some x => exact .removed _ rfl rfl
  | destroyClass classId =>
    simp only [step, destroyClass]
    cases s.db.classes.find? (·.classId = classId) with
    | none => exact .same rfl rfl
    | some row => exact .removed _ rfl rfl
  | createIssue seatId q now =>
    simp only [step, createIssue, System.addIssue]
    split
    · exact .same rfl rfl
    · split <;> exact .same rfl rfl
  | createSupportTicket seatId q now =>
    simp only [step, createSupportTicket, System.addIssue]
    split
    · exact .same rfl rfl
    · split <;> exact .same rfl rfl
  | resolveIssue seatId issueId accepted notes now =>
    simp only [step, resolveIssue]
    split
    · exact .same rfl rfl
    · split
      · exact .same rfl rfl
      · split_ifs <;> exact .same rfl rfl
  | closeIssue seatId issueId summary now =>
    simp only [step, closeIssue]
    split
    · exact .same rfl rfl
    · split
      · exact .same rfl rfl
      · split_ifs <;> exact .same rfl rfl
  | escalateIssue seatId issueId form now =>
    simp only [step, escalateIssue]
    split
    · exact .same rfl rfl
    · split
      · split
        · exact .same rfl rfl
        · split_ifs <;> exact .same rfl rfl
      · exact .same rfl rfl
  | sysadmin b => exact .same (seats_act b) rfl

end Moves

section Runs

variable {E : Surroundings} {s : System} {a : Action}

structure Sound (s : System) : Prop where
  keys : s.db.issues.Pairwise (·.id < ·.id)
  issueIds : ∀ i ∈ s.db.issues, i.id < s.nextIssueId
  unique : s.db.seats.Pairwise (·.publicId ≠ ·.publicId)
  publicIds : ∀ x ∈ s.db.seats, x.publicId < s.nextPublicId
  students : ∀ i ∈ s.db.issues, StudentTicket i → i.actorPublicId < s.nextPublicId ∧
    ∀ x ∈ s.db.seats, x.publicId = i.actorPublicId → x.role = .student

theorem Sound.not_teacherAuthored (h : Sound s) {i : Issue} (hi : i ∈ s.db.issues)
    (hstudent : StudentTicket i) : ¬ TeacherAuthored s.db i := by
  rintro ⟨x, hx, c, -, hpublic, hrole, -⟩
  have hstudentRole := (h.students i hi hstudent).2 x hx hpublic
  rw [hrole] at hstudentRole
  cases hstudentRole

theorem SeatMove.unique {s' : System} (h : SeatMove s s') (hs : Sound s) :
    s'.db.seats.Pairwise (·.publicId ≠ ·.publicId) ∧
      ∀ x ∈ s'.db.seats, x.publicId < s'.nextPublicId := by
  cases h with
  | removed p seats next =>
    rw [seats, next]
    exact ⟨hs.unique.filter p, fun x hx ↦ hs.publicIds x (List.mem_filter.1 hx).1⟩
  | changed f keeps seats next =>
    rw [seats, next]
    refine ⟨List.pairwise_map.2 (hs.unique.imp fun h ↦ ?_), fun x hx ↦ ?_⟩
    · rw [(keeps _).1, (keeps _).1]
      exact h
    · obtain ⟨y, hy, rfl⟩ := List.mem_map.1 hx
      rw [(keeps y).1]
      exact hs.publicIds y hy
  | added x seats next publicId =>
    rw [seats, next]
    refine ⟨List.pairwise_append.2 ⟨hs.unique, List.pairwise_singleton _ _, ?_⟩, ?_⟩
    · intro y hy z hz
      rw [List.mem_singleton.1 hz, publicId]
      exact (hs.publicIds y hy).ne
    · intro y hy
      rcases List.mem_append.1 hy with hy | hy
      · exact Nat.lt_succ_of_lt (hs.publicIds y hy)
      · rw [List.mem_singleton.1 hy, publicId]
        exact Nat.lt_succ_self _

theorem SeatMove.student {s' : System} (h : SeatMove s s') {publicId : ℕ}
    (hlt : publicId < s.nextPublicId)
    (hstudent : ∀ x ∈ s.db.seats, x.publicId = publicId → x.role = .student) :
    publicId < s'.nextPublicId ∧
      ∀ x ∈ s'.db.seats, x.publicId = publicId → x.role = .student := by
  cases h with
  | removed p seats next =>
    rw [seats, next]
    exact ⟨hlt, fun x hx ↦ hstudent x (List.mem_filter.1 hx).1⟩
  | changed f keeps seats next =>
    rw [seats, next]
    refine ⟨hlt, fun x hx hpublic ↦ ?_⟩
    obtain ⟨y, hy, rfl⟩ := List.mem_map.1 hx
    rw [(keeps y).2]
    exact hstudent y hy ((keeps y).1 ▸ hpublic)
  | added x seats next hfresh =>
    rw [seats, next]
    refine ⟨Nat.lt_succ_of_lt hlt, fun y hy hpublic ↦ ?_⟩
    rcases List.mem_append.1 hy with hy | hy
    · exact hstudent y hy hpublic
    · rw [List.mem_singleton.1 hy, hfresh] at hpublic
      exact absurd hpublic hlt.ne'

theorem IssueMove.keys {s' : System} (h : IssueMove s a s') (hs : Sound s) :
    s'.db.issues.Pairwise (·.id < ·.id) ∧ ∀ i ∈ s'.db.issues, i.id < s'.nextIssueId := by
  cases h with
  | removed p issues next =>
    rw [issues, next]
    exact ⟨hs.keys.filter p, fun i hi ↦ hs.issueIds i (List.mem_filter.1 hi).1⟩
  | changed issueId f keeps issues next escalated =>
    have hid (i : Issue) : (updateAt issueId f i).id = i.id := by
      unfold updateAt
      split_ifs
      · exact keeps.id i
      · rfl
    rw [issues, next]
    refine ⟨List.pairwise_map.2 (hs.keys.imp fun h ↦ ?_), fun i hi ↦ ?_⟩
    · rw [hid, hid]
      exact h
    · obtain ⟨j, hj, rfl⟩ := List.mem_map.1 hi
      rw [hid]
      exact hs.issueIds j hj
  | added i issues next id escalatedAt student =>
    rw [issues, next]
    refine ⟨List.pairwise_append.2 ⟨hs.keys, List.pairwise_singleton _ _, ?_⟩, ?_⟩
    · intro j hj k hk
      rw [List.mem_singleton.1 hk, id]
      exact hs.issueIds j hj
    · intro j hj
      rcases List.mem_append.1 hj with hj | hj
      · exact Nat.lt_succ_of_lt (hs.issueIds j hj)
      · rw [List.mem_singleton.1 hj, id]
        exact Nat.lt_succ_self _

theorem IssueMove.students {s' : System} (h : IssueMove s a s') (hs : Sound s) :
    ∀ i ∈ s'.db.issues, StudentTicket i → i.actorPublicId < s.nextPublicId ∧
      ∀ x ∈ s.db.seats, x.publicId = i.actorPublicId → x.role = .student := by
  cases h with
  | removed p issues next =>
    rw [issues]
    exact fun i hi ↦ hs.students i (List.mem_filter.1 hi).1
  | changed issueId f keeps issues next escalated =>
    rw [issues]
    intro i hi hstudent
    obtain ⟨j, hj, rfl⟩ := List.mem_map.1 hi
    unfold updateAt at hstudent ⊢
    split_ifs at hstudent ⊢
    · rw [StudentTicket, keeps.correlationPack] at hstudent
      rw [keeps.actorPublicId]
      exact hs.students j hj hstudent
    · exact hs.students j hj hstudent
  | added i issues next id escalatedAt student =>
    rw [issues]
    intro j hj hstudent
    rcases List.mem_append.1 hj with hj | hj
    · exact hs.students j hj hstudent
    · rw [List.mem_singleton.1 hj] at hstudent ⊢
      obtain ⟨x, hx, hrole, hpublic⟩ := student hstudent
      refine ⟨hpublic ▸ hs.publicIds x hx, fun y hy hsame ↦ ?_⟩
      by_cases hyx : y = x
      · rw [hyx]
        exact hrole
      · have hsymm : Std.Symm (fun x y : Seat ↦ x.publicId ≠ y.publicId) := ⟨fun _ _ h ↦ h.symm⟩
        exact absurd (hsame.trans hpublic.symm) (hs.unique.forall hy hx hyx)

theorem Sound.step (hs : Sound s) : Sound (step E s a) := by
  have hissues := issueMove_step (E := E) (s := s) (a := a)
  have hseats := seatMove_step (E := E) (s := s) (a := a)
  obtain ⟨hkeys, hids⟩ := hissues.keys hs
  obtain ⟨hunique, hpublic⟩ := hseats.unique hs
  refine ⟨hkeys, hids, hunique, hpublic, fun i hi hstudent ↦ ?_⟩
  obtain ⟨hlt, hrole⟩ := hissues.students hs i hi hstudent
  exact hseats.student hlt hrole

theorem sound_start : Sound start where
  keys := List.Pairwise.nil
  issueIds := fun _ hi ↦ absurd hi List.not_mem_nil
  unique := List.Pairwise.nil
  publicIds := fun _ hx ↦ absurd hx List.not_mem_nil
  students := fun _ hi ↦ absurd hi List.not_mem_nil

theorem sound_run (as : List Action) : Sound (run (step E) start as) :=
  run_invariant sound_start (fun _ _ h ↦ h.step) as

theorem IssueMove.escalated {s' : System} (h : IssueMove s a s') (hs : Sound s) {i : Issue}
    (hi : i ∈ s'.db.issues) (hescalated : Escalated i) :
    (∃ j ∈ s.db.issues, j.id = i.id ∧ Escalated j) ∨ EscalatedByOwner s a i := by
  cases h with
  | removed p issues next =>
    rw [issues] at hi
    exact Or.inl ⟨i, (List.mem_filter.1 hi).1, rfl, hescalated⟩
  | changed issueId f keeps issues next escalated =>
    rw [issues] at hi
    obtain ⟨j, hj, rfl⟩ := List.mem_map.1 hi
    by_cases hid : j.id = issueId
    · rw [updateAt, if_pos hid] at hescalated ⊢
      rcases escalated with hkept | ⟨k, hk, hkid, howner⟩
      · rw [Escalated, hkept] at hescalated
        exact Or.inl ⟨j, hj, (keeps.id j).symm, hescalated⟩
      · have hsame := (find?_key_eq_some hs.keys).2 ⟨hj, hid⟩
        rw [(find?_key_eq_some hs.keys).2 ⟨hk, hkid⟩] at hsame
        cases hsame
        unfold EscalatedByOwner at howner ⊢
        rw [keeps.id, keeps.classPublicId]
        exact Or.inr howner
    · rw [updateAt, if_neg hid] at hescalated ⊢
      exact Or.inl ⟨j, hj, rfl, hescalated⟩
  | added j issues next id escalatedAt student =>
    rw [issues] at hi
    rcases List.mem_append.1 hi with hi | hi
    · exact Or.inl ⟨i, hi, rfl, hescalated⟩
    · rw [List.mem_singleton.1 hi] at hescalated
      exact absurd escalatedAt hescalated

theorem Sound.revealedByOwner (hs : Sound s) : RevealedByOwner E s a := by
  intro i hi hstudent hvisible
  have hafter : Sound (Support.step E s a) := hs.step
  have hescalated := hvisible.resolve_right (hafter.not_teacherAuthored hi hstudent)
  rcases issueMove_step.escalated hs hi hescalated with ⟨j, hj, hid, hj'⟩ | howner
  · exact Or.inl ⟨j, hj, hid, Or.inl hj'⟩
  · exact Or.inr howner

/-- System support learns only what a teacher disclosed: in states that agree on the visible
tickets, except in what was not permitted, it sees the same and acts alike, and in every run a
student's ticket becomes visible only when the owner of its class escalates it. -/
theorem system_support_learns_only_the_disclosed (E : Surroundings) (as bs : List Action)
    (h : AgreeOnVisible (run (step E) start as).db (run (step E) start bs).db) :
    LearnsTheSame E (run (step E) start as).db (run (step E) start bs).db ∧
      AllAlong (RevealedByOwner E) (step E) start as ∧
      AllAlong (RevealedByOwner E) (step E) start bs := by
  have hrevealed (cs : List Action) : AllAlong (RevealedByOwner E) (step E) start cs :=
    (AllAlong.of_forall (fun _ _ ↦ trivial) cs : AllAlong (fun _ _ ↦ True) _ _ _).of_invariant
      (I := Sound) sound_start (fun _ _ hs _ ↦ hs.step) fun _ _ hs _ ↦ hs.revealedByOwner
  exact ⟨h.learnsTheSame (sound_run as).keys (sound_run bs).keys, hrevealed as, hrevealed bs⟩

def sampleReport (explanation balance : String) : Submission where
  category := some "Balance"
  issueType := "general"
  title := ""
  explanation := explanation
  expectedOutcome := none
  timestamp := "2026-10-01T09:00:00+00:00"
  pageUrl := "/help-support"
  userAgent := "browser"
  ipAddress := "10.0.0.1"
  balances := [("checking", balance)]
  transaction := none
  recentTransactions := []
  requestTrace := []
  errorRefs := []
  shareClassName := false

/-- A class of one student, whose first ticket its teacher escalates without permitting anything. -/
def escalatedReport (explanation balance : String) : List Action :=
  [.createClass 7 (some "Algebra") "UTC", .createSeat 0, .claimSeat 1 8 1,
    .createIssue 1 (sampleReport explanation balance) 2,
    .escalateIssue 0 0 [("escalation_reason", "unclear")] 3]

/-- Pages without times, where every reference is the first ticket's. -/
def plainPages : Surroundings := ⟨fun _ _ ↦ "", fun _ _ ↦ "", fun _ ↦ some 0, id⟩

/-- Two runs that differ in what the escalated ticket says and in a second, hidden ticket. -/
theorem system_support_learns_nothing_of_hidden_reports :
    LearnsTheSame plainPages
      (run (step plainPages) start (escalatedReport "I was short" "4.00")).db
      (run (step plainPages) start (escalatedReport "I was rich" "900.00" ++
        [.createIssue 1 (sampleReport "again" "1.00") 4])).db := by
  have hagree : AgreeOnVisible
      (run (step plainPages) start (escalatedReport "I was short" "4.00")).db
      (run (step plainPages) start (escalatedReport "I was rich" "900.00" ++
        [.createIssue 1 (sampleReport "again" "1.00") 4])).db := .of_disclosed rfl
  exact (system_support_learns_only_the_disclosed plainPages _ _ hagree).1

end Runs

end TokenHub.Support
