import TokenHub.HallPass.Lifecycle
import TokenHub.Lib.Runs

set_option autoImplicit false

namespace TokenHub.HallPass

open Ledger Attendance Store Lib.Checks Lib.Runs
open Rent (Instant ClassZone)

/-- What was done with the passes of a day: issued, left on, with whether the holder was then still
free to work that day, and returned. -/
inductive PassEvent
  | approved (passId : ℕ) (destination : String)
  | left (passId : ℕ) (atWork : Bool)
  | returned (passId : ℕ)
deriving DecidableEq, Repr

def PassEvent.passId : PassEvent → ℕ
  | .approved passId _ => passId
  | .left passId _ => passId
  | .returned passId => passId

def PassEvent.issue : PassEvent → Option (ℕ × String)
  | .approved passId destination => some (passId, destination)
  | _ => none

structure PassDay where
  state : PassState
  events : List PassEvent

/-- The teacher approves a pass, or the teacher or the holder marks one. -/
inductive PassAction
  | approve (request : PassRequest)
  | mark (own : Bool) (seatId passId : ℕ) (action : HallPassAction)
deriving DecidableEq, Repr

section Steps

variable (zone : ClassZone) (fold : String → String) (isoformat : Instant → String)
  (classId : String)

def markRoute (own : Bool) (S : PassState) (seatId : ℕ) (t : Instant) (passId : ℕ)
    (action : HallPassAction) : Except Raise (PassAnswer × PassState) :=
  if own then handleOwnPass zone fold S ⟨classId, seatId⟩ t passId action
  else handleHallPassAction zone fold S ⟨classId, seatId⟩ t passId action

/-- Whether the holder of a pass may still start work on the class day of `t`. -/
def PassState.freeToWork (S : PassState) (t : Instant) (passId : ℕ) : Bool :=
  (S.log passId).any (fun log ↦
    !isDoneForDay zone S.toAttendanceTables log.requestedBySeatId classId t)

def passStep (D : PassDay) (step : Instant × PassAction) : PassDay :=
  match step with
  | (t, .approve request) =>
    match recordHallPassLog zone fold D.state isoformat classId t request with
    | .ok (log, S) => ⟨S, D.events ++ [.approved log.id request.destination]⟩
    | .error _ => D
  | (t, .mark own seatId passId action) =>
    match markRoute zone fold classId own D.state seatId t passId action with
    | .ok (.hasLeft, S) =>
      ⟨S, D.events ++ [.left passId (D.state.freeToWork zone classId t passId)]⟩
    | .ok (.hasReturned, S) => ⟨S, D.events ++ [.returned passId]⟩
    | .ok (_, S) => ⟨S, D.events⟩
    | .error _ => D

end Steps

section Laws

variable (zone : ClassZone) (fold : String → String) (isoformat : Instant → String)
  (classId : String)

def PassDay.history (D : PassDay) (passId : ℕ) : List PassEvent :=
  D.events.filter (fun e ↦ e.passId = passId)

def PassDay.unreturned (D : PassDay) : List (ℕ × String) :=
  (D.events.filterMap (·.issue)).filter (fun issue ↦ .returned issue.1 ∉ D.events)

def PassDay.unreturnedTo (D : PassDay) (destination : String) : List (ℕ × String) :=
  D.unreturned.filter (fun issue ↦ fold issue.2 = fold destination)

/-- The seat of a claimed student has an open session of the day, and its day is not done. -/
def PassState.Works (S : PassState) (seatId : ℕ) (t : Instant) : Prop :=
  S.Claimed seatId classId ∧ isLiveSession zone t (S.latestSeatEvent seatId classId) = true ∧
    isDoneForDay zone S.toAttendanceTables seatId classId t = false

/-- An approval leaves no more passes out than the limits in force allow, and a refusal for a limit
means that so many are out. -/
def LimitLaw (D : PassDay) (t : Instant) (request : PassRequest) : Prop :=
  ∀ settings, D.state.settingsAt classId t = some settings →
    match recordHallPassLog zone fold D.state isoformat classId t request with
    | .ok _ =>
      let D' := passStep zone fold isoformat classId D (t, .approve request)
      (D'.unreturned.length : ℤ) ≤ settings.queueLimit ∧
        ∀ destination limit, settings.destinationLimit fold destination = some limit →
          ((D'.unreturnedTo fold destination).length : ℤ) ≤ limit
    | .error e =>
      (e = .valueError "Hall-pass queue limit reached." →
        settings.queueLimit ≤ D.unreturned.length) ∧
      (e = .valueError "Hall-pass destination limit reached." →
        ∃ limit, settings.destinationLimit fold request.destination = some limit ∧
          limit ≤ (D.unreturnedTo fold request.destination).length)

/-- An issued pass can be left on once while its holder works, and then returned once. -/
def PassLaw (D : PassDay) (t : Instant) (passId : ℕ) (destination : String) : Prop :=
  let marked := fun own seatId action ↦
    passStep zone fold isoformat classId D (t, .mark own seatId passId action)
  ∃ log, D.state.log passId = some log ∧
    ((D.history passId = [.approved passId destination] ∧
        ∀ seatId, (D.state.seat seatId classId).isSome →
          D.state.Works zone classId log.requestedBySeatId t →
            (marked false seatId .leave).events = D.events ++ [.left passId true]) ∨
      (∃ atWork, D.history passId = [.approved passId destination, .left passId atWork] ∧
        (∀ own seatId, marked own seatId .leave = D) ∧
        ∀ seatId, (D.state.seat seatId classId).isSome → atWork = true →
          (marked false seatId .return).events = D.events ++ [.returned passId]) ∨
      ∃ atWork, D.history passId =
          [.approved passId destination, .left passId atWork, .returned passId] ∧
        ∀ own seatId action, marked own seatId action = D)

def PassesLaw (D : PassDay) (t : Instant) : Prop :=
  ∀ passId destination, .approved passId destination ∈ D.events →
    PassLaw zone fold isoformat classId D t passId destination

def DayLaw (D : PassDay) (step : Instant × PassAction) : Prop :=
  (∀ request, step.2 = .approve request →
    LimitLaw zone fold isoformat classId D step.1 request) ∧
  PassesLaw zone fold isoformat classId D step.1

end Laws

section Days

variable (zone : ClassZone) (fold : String → String) (isoformat : Instant → String)
  (classId : String) (d : ℤ)

def InClassDay (t : Instant) : Prop :=
  zone.localDate t = d ∧ zone.startOfDate d ≤ t ∧ t < zone.startOfDate (d + 1)

instance (t : Instant) : Decidable (InClassDay zone d t) := by
  unfold InClassDay; infer_instance

/-- The steps follow each other on class day `d`, none before `now`. -/
def OnDay : Instant → List (Instant × PassAction) → Prop
  | _, [] => True
  | now, (t, _) :: steps => now ≤ t ∧ InClassDay zone d t ∧ OnDay t steps

def OnDay.decide : ∀ (now : Instant) (steps : List (Instant × PassAction)),
    Decidable (OnDay zone d now steps)
  | _, [] => isTrue trivial
  | now, (t, _) :: steps =>
    have := OnDay.decide t steps
    inferInstanceAs (Decidable (now ≤ t ∧ InClassDay zone d t ∧ _))

instance (now : Instant) (steps : List (Instant × PassAction)) :
    Decidable (OnDay zone d now steps) := OnDay.decide zone d now steps

/-- The claims of the hall-pass policy hold at every step of a run, and of the passes it leaves at
every instant of its day. -/
def PassesLimited : PassDay → List (Instant × PassAction) → Prop
  | D, [] => ∀ t, InClassDay zone d t → PassesLaw zone fold isoformat classId D t
  | D, step :: steps => DayLaw zone fold isoformat classId D step ∧
      PassesLimited (passStep zone fold isoformat classId D step) steps

/-- An accepted approval is for a destination that consumes a pass, while no destination has more
passes out than a lowered limit allows. -/
def Meets (D : PassDay) (step : Instant × PassAction) : Prop :=
  ∀ request settings issued, step.2 = .approve request →
    D.state.settingsAt classId step.1 = some settings →
      recordHallPassLog zone fold D.state isoformat classId step.1 request = .ok issued →
        settings.consumesPass fold request.destination = true ∧
          ∀ destination limit, fold destination ≠ fold request.destination →
            settings.destinationLimit fold destination = some limit →
              ((D.unreturnedTo fold destination).length : ℤ) ≤ limit

def RunMeets : PassDay → List (Instant × PassAction) → Prop
  | _, [] => True
  | D, step :: steps => Meets zone fold isoformat classId D step ∧
      RunMeets (passStep zone fold isoformat classId D step) steps

end Days

end TokenHub.HallPass
