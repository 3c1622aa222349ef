import Mathlib.Data.List.Sort
import Mathlib.Logic.Function.Basic
import TokenHub.Lib.Runs

set_option autoImplicit false

namespace TokenHub.Backup

open Lib.Runs

section Identities

/-- The keys of `IDENTITY_QUERIES`. -/
inductive Kind where
  | seats
  | classes
  | users
  deriving DecidableEq

def kinds : List Kind := [.seats, .classes, .users]

theorem Kind.mem_kinds (kind : Kind) : kind ∈ kinds := by
  cases kind <;> decide

/-- What `identity_sets` reads. -/
abbrev Identities := Kind → List String

def Identities.Within (held current : Identities) : Prop := ∀ kind, held kind ⊆ current kind

def missingIdentities (previous current : Identities) : List (Kind × ℕ) :=
  kinds.filterMap fun kind ↦
    let lost := ((previous kind).filter (· ∉ current kind)).eraseDups
    if lost = [] then none else some (kind, lost.length)

theorem missingIdentities_eq_nil {previous current : Identities} :
    missingIdentities previous current = [] ↔ previous.Within current := by
  have hlost (kind : Kind) :
      ((previous kind).filter (· ∉ current kind)).eraseDups = [] ↔
        previous kind ⊆ current kind := by
    rw [List.eq_nil_iff_forall_not_mem]
    constructor
    · intro h id hid
      by_contra hnot
      exact h id (List.mem_eraseDups.2 (List.mem_filter.2 ⟨hid, by simpa using hnot⟩))
    · intro h id hid
      obtain ⟨hprevious, hnot⟩ := List.mem_filter.1 (List.mem_eraseDups.1 hid)
      exact of_decide_eq_true hnot (h hprevious)
  rw [missingIdentities, List.filterMap_eq_nil_iff]
  constructor
  · intro h kind
    apply (hlost kind).1
    by_contra hnot
    exact absurd ((if_neg hnot).symm.trans (h kind kind.mem_kinds)) (Option.some_ne_none _)
  · intro h kind _
    exact if_pos ((hlost kind).2 (h kind))

inductive Change where
  | create (kind : Kind) (id : String)
  | delete (kind : Kind) (id : String)

def Change.apply (ids : Identities) : Change → Identities
  | .create kind id => Function.update ids kind (id :: ids kind)
  | .delete kind id => Function.update ids kind ((ids kind).filter (· ≠ id))

end Identities

section Files

inductive Reason where
  | scheduled
  | baseline
  | manual
  deriving DecidableEq

/-- `cth-db-<taken_at>-<reason>`, the instant in whole seconds as `stamp` writes it. -/
structure Stem where
  takenAt : ℕ
  reason : Reason
  deriving DecidableEq

inductive Suffix where
  | dumpAge
  | manifestJson
  deriving DecidableEq

abbrev Name := Stem × Suffix

/-- A file of a recovery point; an artifact with the identities in its encrypted dump. -/
inductive File where
  | artifact (stem : Stem) (dump : Identities)
  | manifest (stem : Stem)

def File.stem : File → Stem
  | .artifact stem _ => stem
  | .manifest stem => stem

def File.name : File → Name
  | .artifact stem _ => (stem, .dumpAge)
  | .manifest stem => (stem, .manifestJson)

@[simp] theorem File.name_stem (f : File) : f.name.1 = f.stem := by
  cases f <;> rfl

def File.Within (f : File) (ids : Identities) : Prop :=
  match f with
  | .artifact _ dump => dump.Within ids
  | .manifest _ => True

/-- The stems of `points_from_names`; a point's `files` are `filesOf`. -/
def pointsFromNames (files : List File) : List Stem := (files.map File.stem).eraseDups

def filesOf (files : List File) (stem : Stem) : List File := files.filter (·.stem = stem)

/-- The order in which a point's off-host files are deleted. -/
def artifactFirst (files : List File) : List File :=
  files.filter (·.name.2 = .dumpAge) ++ files.filter (·.name.2 ≠ .dumpAge)

end Files

section Hosts

structure Config where
  remote : Bool
  keepRemote : ℤ
  keepLocal : ℤ

structure NewestPoint where
  stem : Stem
  identities : Identities

/-- The state file, the points directory and the off-host target. `recorded` is kept for the
proofs only: the stems that were ever the newest point of a saved state. -/
structure Host where
  partials : List (Stem × Identities)
  points : List File
  remote : List File
  newestPoint : Option NewestPoint
  baselineAt : Option ℕ
  lastError : Bool
  recorded : List Stem

/-- What a run writes, one lasting change at a time. -/
inductive Effect where
  | dump (stem : Stem) (ids : Identities)
  | publish (stem : Stem) (ids : Identities)
  | writeManifest (stem : Stem)
  | copyto (f : File)
  | saveNewest (p : NewestPoint) (isBaseline : Bool)
  | deletefile (name : Name)
  | unlink (name : Name)
  | unlinkPartials
  | saveError
  | saveDone

def Effect.apply (h : Host) : Effect → Host
  | .dump stem ids => { h with partials := h.partials ++ [(stem, ids)] }
  | .publish stem ids =>
    { h with
      partials := h.partials.filter (·.1 ≠ stem)
      points := h.points ++ [.artifact stem ids] }
  | .writeManifest stem => { h with points := h.points ++ [.manifest stem] }
  | .copyto f => { h with remote := h.remote ++ [f] }
  | .saveNewest p isBaseline =>
    { h with
      newestPoint := some p
      baselineAt := if isBaseline then some p.stem.takenAt else h.baselineAt
      recorded := p.stem :: h.recorded }
  | .deletefile name => { h with remote := h.remote.filter (·.name ≠ name) }
  | .unlink name => { h with points := h.points.filter (·.name ≠ name) }
  | .unlinkPartials => { h with partials := [] }
  | .saveError => { h with lastError := true }
  | .saveDone => { h with lastError := false }

end Hosts

section Retention

/-- The points that `doomed` picks among the given ones. -/
def doomed (newest : Stem) (baselineAt : Option ℕ) (points : List Stem) (keep : ℤ) : List Stem :=
  let ordered := points.insertionSort (fun p q ↦ q.takenAt ≤ p.takenAt)
  (ordered.zipIdx.filter fun (p, i) ↦
    p ≠ newest ∧ ((∃ at' ∈ baselineAt, p.takenAt < at') ∨ keep ≤ i)).map Prod.fst

def incomplete (newest : Stem) (files : List File) : List Stem :=
  (pointsFromNames files).filter fun stem ↦ (filesOf files stem).length ≠ 2 ∧ stem ≠ newest

/-- The points that `apply_retention` deletes off-host. -/
def purgedRemote (cfg : Config) (newest : Stem) (baselineAt : Option ℕ) (files : List File) :
    List Stem :=
  incomplete newest files ++ doomed newest baselineAt
    ((pointsFromNames files).filter (· ∉ incomplete newest files)) cfg.keepRemote

def purgedLocal (cfg : Config) (newest : Stem) (baselineAt : Option ℕ) (files : List File) :
    List Stem :=
  doomed newest baselineAt (pointsFromNames files) cfg.keepLocal

def applyRetention (cfg : Config) (h : Host) : List Effect :=
  match h.newestPoint with
  | none => []
  | some p =>
    (if cfg.remote then
      (purgedRemote cfg p.stem h.baselineAt h.remote).flatMap fun stem ↦
        (artifactFirst (filesOf h.remote stem)).map (.deletefile ·.name)
    else []) ++
    (purgedLocal cfg p.stem h.baselineAt h.points).flatMap (fun stem ↦
      (filesOf h.points stem).map (.unlink ·.name)) ++
    [.unlinkPartials]

end Retention

section Backups

/-- How far a run gets. A failed one has made some of its changes, then the handler some of its
own; where an exception has a handler of its own, or the state fails to save, what is on disk
differs. -/
inductive Outcome where
  | completed
  | killed (changes : ℕ)
  | failed (changes handled : ℕ)
  | manifestRefused (copied deleted : Bool) (handled : ℕ)
  | saveFailed (saved : Bool)
  deriving DecidableEq

structure BackupRun where
  cfg : Config
  reason : Reason
  forcedBaseline : Bool
  takenAt : ℕ
  snapshot : Identities
  outcome : Outcome

namespace BackupRun

variable (r : BackupRun) (h : Host)

def unknownHistory : Bool :=
  h.newestPoint.isNone &&
    (pointsFromNames h.points ≠ [] || (r.cfg.remote && pointsFromNames h.remote ≠ []))

def gone : List (Kind × ℕ) :=
  match h.newestPoint with
  | some previous => missingIdentities previous.identities r.snapshot
  | none => []

def isBaseline : Bool := r.forcedBaseline || r.gone h ≠ [] || r.unknownHistory h

def stem : Stem :=
  ⟨r.takenAt, if r.isBaseline h ∧ r.reason = .scheduled then .baseline else r.reason⟩

def files : List File := [.artifact (r.stem h) r.snapshot, .manifest (r.stem h)]

def newest : NewestPoint := ⟨r.stem h, r.snapshot⟩

def writeLocal : List Effect :=
  [.dump (r.stem h) r.snapshot, .publish (r.stem h) r.snapshot, .writeManifest (r.stem h)]

def record : List Effect :=
  r.writeLocal h ++ (if r.cfg.remote then (r.files h).map .copyto else []) ++
    [.saveNewest (r.newest h) (r.isBaseline h)]

def whole : List Effect :=
  r.record h ++ applyRetention r.cfg (run Effect.apply h (r.record h)) ++ [.saveDone]

/-- The changes that a run of `_backup` makes on the host. -/
def effects : List Effect :=
  match r.outcome with
  | .completed => r.whole h
  | .killed changes => (r.whole h).take changes
  | .failed changes handled =>
    (r.whole h).take changes ++ [Effect.unlinkPartials, .saveError].take handled
  | .manifestRefused copied deleted handled =>
    if r.cfg.remote then
      r.writeLocal h ++ [.copyto (.artifact (r.stem h) r.snapshot)] ++
        (if copied then [.copyto (.manifest (r.stem h))] else []) ++
        (if deleted then [.deletefile (r.stem h, .dumpAge)] else []) ++
        [Effect.unlinkPartials, .saveError].take handled
    else []
  | .saveFailed saved =>
    (r.record h).dropLast ++ [.unlinkPartials] ++
      if saved then [.saveNewest (r.newest h) (r.isBaseline h), .saveError] else []

end BackupRun

/-- The branch of `_check` that finishes an earlier run. -/
def retryRetention (cfg : Config) (h : Host) (outcome : Outcome) : List Effect :=
  let whole := applyRetention cfg h ++ [.saveDone]
  match outcome with
  | .completed => whole
  | .killed changes => whole.take changes
  | .failed changes handled => whole.take changes ++ [Effect.saveError].take handled
  | .manifestRefused .. => []
  | .saveFailed .. => []

end Backups

section Systems

structure System where
  source : Identities
  clock : ℕ
  host : Host

def start (source : Identities) (clock : ℕ) : System where
  source
  clock
  host :=
    { partials := [], points := [], remote := [], newestPoint := none, baselineAt := none,
      lastError := false, recorded := [] }

/-- A change of the source, or a command under the run lock. A run's snapshot is taken `gap`
seconds after the next one; between the probe of a check and its snapshot the source changes. -/
inductive Action where
  | change (c : Change)
  | backup (cfg : Config) (reason : Reason) (gap : ℕ) (outcome : Outcome)
  | check (cfg : Config) (between : List Change) (gap : ℕ) (outcome : Outcome)

def sourceAfter (s : System) : Action → Identities
  | .change c => c.apply s.source
  | .backup .. => s.source
  | .check _ between _ _ => run Change.apply s.source between

/-- `_check` finds no verified point, or an identity gone since the newest one. -/
def needsBaseline (s : System) : Bool :=
  match s.host.newestPoint with
  | none => true
  | some previous => missingIdentities previous.identities s.source ≠ []

def backupRun (s : System) (a : Action) : Option BackupRun :=
  match a with
  | .change _ => none
  | .backup cfg reason gap outcome =>
    some ⟨cfg, reason, reason = .baseline, s.clock + 1 + gap, s.source, outcome⟩
  | .check cfg _ gap outcome =>
    if needsBaseline s then
      some ⟨cfg, .baseline, true, s.clock + 1 + gap, sourceAfter s a, outcome⟩
    else none

def effects (s : System) (a : Action) : List Effect :=
  match backupRun s a with
  | some r => r.effects s.host
  | none =>
    match a with
    | .check cfg _ _ outcome =>
      if s.host.lastError then retryRetention cfg s.host outcome else []
    | _ => []

def step (s : System) (a : Action) : System where
  source := sourceAfter s a
  clock := ((backupRun s a).map BackupRun.takenAt).getD s.clock
  host := run Effect.apply s.host (effects s a)

end Systems

end TokenHub.Backup
