import TokenHub.Backup.Points

set_option autoImplicit false

namespace TokenHub.Backup

open Lib.Runs

section Within

variable {held current later : Identities} {f : File}

theorem Identities.Within.refl (held : Identities) : held.Within held :=
  fun _ ↦ List.Subset.refl _

theorem Identities.Within.trans (h : held.Within current) (h' : current.Within later) :
    held.Within later := fun kind ↦ List.Subset.trans (h kind) (h' kind)

theorem File.Within.trans (h : f.Within current) (h' : current.Within later) :
    f.Within later := by
  cases f with
  | artifact stem dump => exact Identities.Within.trans h h'
  | manifest stem => trivial

end Within

section Removals

/-- The change adds no file and names no newest point. -/
def Removal : Effect → Prop
  | .deletefile _ => True
  | .unlink _ => True
  | .unlinkPartials => True
  | .saveError => True
  | .saveDone => True
  | _ => False

variable {h : Host} {es : List Effect} {f : File}

theorem Removal.newestPoint {e : Effect} (he : Removal e) :
    (e.apply h).newestPoint = h.newestPoint := by
  cases e with
  | dump | publish | writeManifest | copyto | saveNewest => exact he.elim
  | deletefile | unlink | unlinkPartials | saveError | saveDone => rfl

theorem mem_points_removals (hes : ∀ e ∈ es, Removal e) :
    f ∈ (run Effect.apply h es).points ↔ f ∈ h.points ∧ .unlink f.name ∉ es := by
  induction es generalizing h with
  | nil => simp
  | cons e es ih =>
    have he := hes e (by simp)
    rw [run_cons, ih fun e' he' ↦ hes e' (by simp [he'])]
    cases e with
    | dump | publish | writeManifest | copyto | saveNewest => exact he.elim
    | unlink name =>
      simp only [Effect.apply, List.mem_filter, decide_eq_true_eq, List.mem_cons, not_or,
        Effect.unlink.injEq, and_assoc]
    | deletefile | unlinkPartials | saveError | saveDone =>
      simp only [Effect.apply, List.mem_cons, not_or, reduceCtorEq, not_false_eq_true, true_and]

theorem mem_remote_removals (hes : ∀ e ∈ es, Removal e) :
    f ∈ (run Effect.apply h es).remote ↔ f ∈ h.remote ∧ .deletefile f.name ∉ es := by
  induction es generalizing h with
  | nil => simp
  | cons e es ih =>
    have he := hes e (by simp)
    rw [run_cons, ih fun e' he' ↦ hes e' (by simp [he'])]
    cases e with
    | dump | publish | writeManifest | copyto | saveNewest => exact he.elim
    | deletefile name =>
      simp only [Effect.apply, List.mem_filter, decide_eq_true_eq, List.mem_cons, not_or,
        Effect.deletefile.injEq, and_assoc]
    | unlink | unlinkPartials | saveError | saveDone =>
      simp only [Effect.apply, List.mem_cons, not_or, reduceCtorEq, not_false_eq_true, true_and]

end Removals

section Purged

variable {newest stem : Stem} {baselineAt : Option ℕ} {points : List Stem} {keep : ℤ}
  {files : List File} {cfg : Config} {f : File}

theorem mem_doomed : stem ∈ doomed newest baselineAt points keep → stem ≠ newest := by
  intro h
  obtain ⟨⟨p, i⟩, hp, rfl⟩ := List.mem_map.1 h
  exact (of_decide_eq_true (List.mem_filter.1 hp).2).1

theorem mem_doomed_of_older {at' : ℕ} (hmem : stem ∈ points) (hne : stem ≠ newest)
    (hat : at' ∈ baselineAt) (hlt : stem.takenAt < at') :
    stem ∈ doomed newest baselineAt points keep := by
  have hordered : stem ∈ points.insertionSort (fun p q ↦ q.takenAt ≤ p.takenAt) :=
    (List.perm_insertionSort _ _).mem_iff.2 hmem
  obtain ⟨i, hi⟩ := List.mem_iff_getElem?.1 hordered
  exact List.mem_map.2 ⟨(stem, i), List.mem_filter.2
    ⟨List.mk_mem_zipIdx_iff_getElem?.2 hi, decide_eq_true ⟨hne, Or.inl ⟨at', hat, hlt⟩⟩⟩, rfl⟩

theorem mem_pointsFromNames (hf : f ∈ files) : f.stem ∈ pointsFromNames files :=
  List.mem_eraseDups.2 (List.mem_map_of_mem hf)

theorem newest_notMem_purgedRemote : newest ∉ purgedRemote cfg newest baselineAt files := by
  intro h
  rcases List.mem_append.1 h with h | h
  · exact (of_decide_eq_true (List.mem_filter.1 h).2).2 rfl
  · exact mem_doomed h rfl

theorem mem_purgedRemote_of_older {at' : ℕ} (hf : f ∈ files) (hne : f.stem ≠ newest)
    (hat : at' ∈ baselineAt) (hlt : f.stem.takenAt < at') :
    f.stem ∈ purgedRemote cfg newest baselineAt files := by
  by_cases hi : f.stem ∈ incomplete newest files
  · exact List.mem_append_left _ hi
  · apply List.mem_append_right
    exact mem_doomed_of_older (List.mem_filter.2 ⟨mem_pointsFromNames hf, by simpa using hi⟩)
      hne hat hlt

theorem mem_artifactFirst : f ∈ artifactFirst files ↔ f ∈ files := by
  simp only [artifactFirst, List.mem_append, List.mem_filter, decide_eq_true_eq]
  tauto

end Purged

section Retention

variable {cfg : Config} {h : Host} {p : NewestPoint} {f : File}

/-- A change of retention removes something, and never a file of the newest point. -/
theorem applyRetention_spares (hp : h.newestPoint = some p) {e : Effect}
    (he : e ∈ applyRetention cfg h) :
    Removal e ∧ ∀ name, e = .deletefile name ∨ e = .unlink name → name.1 ≠ p.stem := by
  simp only [applyRetention, hp, List.mem_append, List.mem_flatMap, List.mem_map,
    List.mem_singleton, List.mem_ite_nil_right] at he
  rcases he with (⟨-, stem, hstem, g, hg, rfl⟩ | ⟨stem, hstem, g, hg, rfl⟩) | rfl
  · have hg' : g.stem = stem := of_decide_eq_true (List.mem_filter.1 (mem_artifactFirst.1 hg)).2
    refine ⟨trivial, ?_⟩
    rintro name (heq | heq)
    · cases heq
      rw [File.name_stem, hg']
      exact fun hnew ↦ newest_notMem_purgedRemote (hnew ▸ hstem)
    · cases heq
  · have hg' : g.stem = stem := of_decide_eq_true (List.mem_filter.1 hg).2
    refine ⟨trivial, ?_⟩
    rintro name (heq | heq)
    · cases heq
    · cases heq
      rw [File.name_stem, hg']
      exact mem_doomed hstem
  · refine ⟨trivial, ?_⟩
    rintro name (heq | heq) <;> cases heq

theorem unlink_mem_applyRetention (cfg : Config) (hp : h.newestPoint = some p)
    (hf : f ∈ h.points) :
    .unlink f.name ∈ applyRetention cfg h ↔
      f.stem ∈ purgedLocal cfg p.stem h.baselineAt h.points := by
  simp only [applyRetention, hp, List.mem_append, List.mem_flatMap, List.mem_map,
    List.mem_singleton, List.mem_ite_nil_right, reduceCtorEq, and_false, exists_false,
    Effect.unlink.injEq, false_or, or_false]
  constructor
  · rintro ⟨stem, hstem, g, hg, hname⟩
    have hg' : g.stem = stem := of_decide_eq_true (List.mem_filter.1 hg).2
    rw [← File.name_stem f, ← hname, File.name_stem, hg']
    exact hstem
  · intro hstem
    exact ⟨f.stem, hstem, f, List.mem_filter.2 ⟨hf, by simp⟩, rfl⟩

theorem deletefile_mem_applyRetention (cfg : Config) (hp : h.newestPoint = some p)
    (hf : f ∈ h.remote) :
    .deletefile f.name ∈ applyRetention cfg h ↔
      cfg.remote = true ∧ f.stem ∈ purgedRemote cfg p.stem h.baselineAt h.remote := by
  simp only [applyRetention, hp, List.mem_append, List.mem_flatMap, List.mem_map,
    List.mem_singleton, List.mem_ite_nil_right, reduceCtorEq, and_false, exists_false,
    Effect.deletefile.injEq, or_false]
  constructor
  · rintro ⟨hremote, stem, hstem, g, hg, hname⟩
    have hg' : g.stem = stem := of_decide_eq_true (List.mem_filter.1 (mem_artifactFirst.1 hg)).2
    rw [← File.name_stem f, ← hname, File.name_stem, hg']
    exact ⟨hremote, hstem⟩
  · rintro ⟨hremote, hstem⟩
    exact ⟨hremote, f.stem, hstem, f,
      mem_artifactFirst.2 (List.mem_filter.2 ⟨hf, by simp⟩), rfl⟩

theorem partials_applyRetention (hp : h.newestPoint = some p) :
    (run Effect.apply h (applyRetention cfg h)).partials = [] := by
  rw [applyRetention, hp, run_append]
  rfl

end Retention

section Completed

namespace BackupRun

variable {r : BackupRun} {h : Host} {f : File}

/-- The baseline in force once the run's state is saved. -/
def baselineAt (r : BackupRun) (h : Host) : Option ℕ :=
  if r.isBaseline h then some r.takenAt else h.baselineAt

theorem run_record : run Effect.apply h (r.record h) =
    { h with
      partials := (h.partials ++ [(r.stem h, r.snapshot)]).filter (·.1 ≠ r.stem h)
      points := h.points ++ r.files h
      remote := if r.cfg.remote then h.remote ++ r.files h else h.remote
      newestPoint := some (r.newest h)
      baselineAt := r.baselineAt h
      recorded := r.stem h :: h.recorded } := by
  cases hremote : r.cfg.remote <;>
  · simp only [record, writeLocal, files, hremote, Bool.false_eq_true, if_false, if_true,
      List.map_cons, List.map_nil, List.cons_append, List.nil_append, run_cons, run_nil,
      Effect.apply, List.append_assoc]
    rfl

theorem removal_of_mem_applyRetention :
    ∀ e ∈ applyRetention r.cfg (run Effect.apply h (r.record h)), Removal e := by
  intro e he
  exact (applyRetention_spares (p := r.newest h) (by rw [run_record]) he).1

theorem run_whole : run Effect.apply h (r.whole h) =
    Effect.apply (run Effect.apply (run Effect.apply h (r.record h))
      (applyRetention r.cfg (run Effect.apply h (r.record h)))) .saveDone := by
  rw [whole, run_append, run_append]
  rfl

theorem mem_points_whole : f ∈ (run Effect.apply h (r.whole h)).points ↔
    f ∈ h.points ++ r.files h ∧
      f.stem ∉ purgedLocal r.cfg (r.stem h) (r.baselineAt h) (h.points ++ r.files h) := by
  have hmem := mem_points_removals (f := f) (removal_of_mem_applyRetention (r := r) (h := h))
    (h := run Effect.apply h (r.record h))
  have hunlink := unlink_mem_applyRetention r.cfg (p := r.newest h) (f := f)
    (h := run Effect.apply h (r.record h)) (by rw [run_record])
  rw [run_record] at hmem hunlink
  rw [run_whole, run_record]
  exact hmem.trans (and_congr_right fun hf ↦ not_congr (hunlink hf))

theorem mem_remote_whole : f ∈ (run Effect.apply h (r.whole h)).remote ↔
    if r.cfg.remote then
      f ∈ h.remote ++ r.files h ∧
        f.stem ∉ purgedRemote r.cfg (r.stem h) (r.baselineAt h) (h.remote ++ r.files h)
    else f ∈ h.remote := by
  have hmem := mem_remote_removals (f := f) (removal_of_mem_applyRetention (r := r) (h := h))
    (h := run Effect.apply h (r.record h))
  have hdelete := deletefile_mem_applyRetention r.cfg (p := r.newest h) (f := f)
    (h := run Effect.apply h (r.record h)) (by rw [run_record])
  rw [run_record] at hmem hdelete
  rw [run_whole, run_record]
  refine hmem.trans ((and_congr_right fun hf ↦ not_congr (hdelete hf)).trans ?_)
  cases hremote : r.cfg.remote
  · simp only [Bool.false_eq_true, if_false, false_and, not_false_eq_true, and_true]
  · simp only [if_true, true_and]
    rfl

theorem partials_whole : (run Effect.apply h (r.whole h)).partials = [] := by
  rw [run_whole]
  exact partials_applyRetention (p := r.newest h) (by rw [run_record])

end BackupRun

end Completed

section Laws

/-- Nothing held, local or off-host, has an identity that is missing from the given ones. -/
structure Cleared (ids : Identities) (h : Host) : Prop where
  partials : ∀ p ∈ h.partials, p.2.Within ids
  points : ∀ f ∈ h.points, f.Within ids
  remote : ∀ f ∈ h.remote, f.Within ids

/-- The change deletes no file of the newest verified point. -/
def SparesNewest (h : Host) (e : Effect) : Prop :=
  ∀ p ∈ h.newestPoint, ∀ name, e = .deletefile name ∨ e = .unlink name → name.1 ≠ p.stem

def ForgetsDestroyed (s : System) (a : Action) : Prop :=
  (∀ r ∈ backupRun s a, r.outcome = .completed → Cleared r.snapshot (step s a).host) ∧
    AllAlong SparesNewest Effect.apply s.host (effects s a)

/-- What a completed run finds of the points that no run recorded, and off-host if it has no
remote, holds no identity missing from its snapshot, unless its retention deletes it. -/
structure BackupRun.FindsNoStray (r : BackupRun) (h : Host) : Prop where
  points : ∀ f ∈ h.points, f.stem ∉ h.recorded →
    f.stem ∉ purgedLocal r.cfg (r.stem h) (r.baselineAt h) (h.points ++ r.files h) →
    f.Within r.snapshot
  remote : r.cfg.remote = true → ∀ f ∈ h.remote, f.stem ∉ h.recorded →
    f.stem ∉ purgedRemote r.cfg (r.stem h) (r.baselineAt h) (h.remote ++ r.files h) →
    f.Within r.snapshot
  offHost : r.cfg.remote = false → ∀ f ∈ h.remote, f.Within r.snapshot

def FindsNoStray (s : System) (a : Action) : Prop :=
  ∀ r ∈ backupRun s a, r.outcome = .completed → r.FindsNoStray s.host

theorem host_of_completed {s : System} {a : Action} {r : BackupRun} (hr : r ∈ backupRun s a)
    (hcompleted : r.outcome = .completed) :
    (step s a).host = run Effect.apply s.host (r.whole s.host) := by
  have heffects : effects s a = r.whole s.host := by
    simp only [effects, Option.mem_def.1 hr, BackupRun.effects, hcompleted]
  rw [step, heffects]

theorem ForgetsDestroyed.findsNoStray {s : System} {a : Action} (h : ForgetsDestroyed s a) :
    FindsNoStray s a := by
  intro r hr hcompleted
  have hcleared := h.1 r hr hcompleted
  rw [host_of_completed hr hcompleted] at hcleared
  constructor
  · intro f hf _ hkept
    exact hcleared.points f (BackupRun.mem_points_whole.2 ⟨List.mem_append_left _ hf, hkept⟩)
  · intro hremote f hf _ hkept
    apply hcleared.remote f
    rw [BackupRun.mem_remote_whole, if_pos hremote]
    exact ⟨List.mem_append_left _ hf, hkept⟩
  · intro hremote f hf
    apply hcleared.remote f
    rw [BackupRun.mem_remote_whole, if_neg (by simp [hremote])]
    exact hf

end Laws

section Invariants

/-- A later snapshot that lacks one of the file's identities makes retention delete it. -/
def Covered (h : Host) (f : File) : Prop :=
  (∃ p ∈ h.newestPoint, f.Within p.identities) ∨ ∃ at' ∈ h.baselineAt, f.stem.takenAt < at'

def Host.files (h : Host) : List File := h.points ++ h.remote

structure Tidy (clock : ℕ) (h : Host) : Prop where
  files : ∀ f ∈ h.files, f.stem.takenAt ≤ clock
  recorded : ∀ stem ∈ h.recorded, stem.takenAt ≤ clock
  newest : ∀ p ∈ h.newestPoint, p.stem.takenAt ≤ clock
  covered : ∀ f ∈ h.files, f.stem ∈ h.recorded → Covered h f

/-- What holds while a run goes on that started on `before`. -/
structure During (clock : ℕ) (r : BackupRun) (before h : Host) : Prop where
  files : ∀ f ∈ h.files, f.stem.takenAt ≤ clock ∨ f ∈ r.files before
  recorded : ∀ stem ∈ h.recorded,
    stem.takenAt ≤ clock ∨ stem = r.stem before ∧ h.newestPoint = some (r.newest before)
  newest : h.newestPoint = before.newestPoint ∨ h.newestPoint = some (r.newest before)
  covered : ∀ f ∈ h.files, f.stem ∈ h.recorded → Covered h f

def OfRun (r : BackupRun) (before : Host) : Effect → Prop
  | .publish stem ids => stem = r.stem before ∧ ids = r.snapshot
  | .writeManifest stem => stem = r.stem before
  | .copyto f => f ∈ r.files before
  | .saveNewest p isBaseline => p = r.newest before ∧ isBaseline = r.isBaseline before
  | _ => True

variable {clock : ℕ} {r : BackupRun} {before h h' : Host} {f : File} {e : Effect}

theorem BackupRun.mem_files (hf : f ∈ r.files h) :
    f.stem = r.stem h ∧ f.Within r.snapshot := by
  simp only [BackupRun.files, List.mem_cons, List.not_mem_nil, or_false] at hf
  rcases hf with rfl | rfl
  · exact ⟨rfl, .refl _⟩
  · exact ⟨rfl, trivial⟩

theorem BackupRun.within_of_not_isBaseline {p : NewestPoint} (hbase : r.isBaseline h = false)
    (hp : p ∈ h.newestPoint) : p.identities.Within r.snapshot := by
  simp only [BackupRun.isBaseline, Bool.or_eq_false_iff, decide_eq_false_iff_not, not_not] at hbase
  have hgone := hbase.1.2
  rw [BackupRun.gone, Option.mem_def.1 hp] at hgone
  exact missingIdentities_eq_nil.1 hgone

theorem Tidy.during (h : Tidy clock before) : During clock r before before where
  files := fun f hf ↦ Or.inl (h.files f hf)
  recorded := fun stem hstem ↦ Or.inl (h.recorded stem hstem)
  newest := Or.inl rfl
  covered := h.covered

theorem During.tidy (h : During clock r before h') (hbefore : Tidy clock before)
    (hlt : clock < r.takenAt) : Tidy r.takenAt h' := by
  constructor
  · intro f hf
    rcases h.files f hf with hold | hnew
    · omega
    · rw [(BackupRun.mem_files hnew).1]
      exact le_refl r.takenAt
  · intro stem hstem
    rcases h.recorded stem hstem with hold | ⟨rfl, -⟩
    · omega
    · exact le_refl r.takenAt
  · intro p hp
    rcases h.newest with hold | hnew
    · have hle := hbefore.newest p (hold ▸ hp)
      omega
    · rw [hnew] at hp
      cases hp
      exact le_refl r.takenAt
  · exact h.covered

theorem During.of_files (h : During clock r before h') {h'' : Host} (hlt : clock < r.takenAt)
    (hfiles : ∀ f ∈ h''.files, f ∈ h'.files ∨ f ∈ r.files before)
    (hnewest : h''.newestPoint = h'.newestPoint) (hbaseline : h''.baselineAt = h'.baselineAt)
    (hrecorded : h''.recorded = h'.recorded) : During clock r before h'' := by
  constructor
  · intro f hf
    rcases hfiles f hf with hold | hnew
    · exact h.files f hold
    · exact Or.inr hnew
  · rw [hrecorded, hnewest]
    exact h.recorded
  · rw [hnewest]
    exact h.newest
  · intro f hf hin
    rw [hrecorded] at hin
    rw [Covered, hnewest, hbaseline]
    rcases hfiles f hf with hold | hnew
    · exact h.covered f hold hin
    · obtain ⟨hstem, hwithin⟩ := BackupRun.mem_files hnew
      rcases h.recorded f.stem hin with hle | ⟨-, hpoint⟩
      · rw [hstem] at hle
        exact absurd hlt (not_lt.2 hle)
      · exact Or.inl ⟨r.newest before, hpoint, hwithin⟩

/-- Saving the run's point covers what was covered: by the new identities, or as older than the
baseline that the point becomes. -/
theorem During.saveNewest (h : During clock r before h') (hlt : clock < r.takenAt) :
    During clock r before
      (Effect.apply h' (.saveNewest (r.newest before) (r.isBaseline before))) := by
  constructor
  · exact h.files
  · intro stem hstem
    rcases List.mem_cons.1 hstem with rfl | hold
    · exact Or.inr ⟨rfl, rfl⟩
    · rcases h.recorded stem hold with hle | ⟨rfl, -⟩
      · exact Or.inl hle
      · exact Or.inr ⟨rfl, rfl⟩
  · exact Or.inr rfl
  · intro f hf hin
    rcases h.files f hf with hle | hmine
    · cases hbase : r.isBaseline before
      · have hne : f.stem ≠ r.stem before := by
          intro heq
          rw [heq] at hle
          exact absurd hlt (not_lt.2 hle)
        have hold : f.stem ∈ h'.recorded := (List.mem_cons.1 hin).resolve_left hne
        rcases h.covered f hf hold with ⟨p, hp, hwithin⟩ | holder
        · rcases h.newest with hkept | hsaved
          · rw [hkept] at hp
            exact Or.inl ⟨r.newest before, rfl,
              hwithin.trans (BackupRun.within_of_not_isBaseline hbase hp)⟩
          · rw [hsaved] at hp
            cases hp
            exact Or.inl ⟨r.newest before, rfl, hwithin⟩
        · exact Or.inr holder
      · exact Or.inr ⟨r.takenAt, rfl, by omega⟩
    · exact Or.inl ⟨r.newest before, rfl, (BackupRun.mem_files hmine).2⟩

theorem During.apply (h : During clock r before h') (hlt : clock < r.takenAt)
    (he : OfRun r before e) : During clock r before (e.apply h') := by
  cases e with
  | dump stem ids =>
    exact h.of_files hlt (fun f hf ↦ Or.inl hf) rfl rfl rfl
  | publish stem ids =>
    obtain ⟨rfl, rfl⟩ := he
    refine h.of_files hlt ?_ rfl rfl rfl
    intro f hf
    simp only [Effect.apply, Host.files, List.mem_append, List.mem_singleton] at hf ⊢
    rcases hf with (hf | rfl) | hf
    · exact Or.inl (Or.inl hf)
    · exact Or.inr (by simp [BackupRun.files])
    · exact Or.inl (Or.inr hf)
  | writeManifest stem =>
    obtain rfl := he
    refine h.of_files hlt ?_ rfl rfl rfl
    intro f hf
    simp only [Effect.apply, Host.files, List.mem_append, List.mem_singleton] at hf ⊢
    rcases hf with (hf | rfl) | hf
    · exact Or.inl (Or.inl hf)
    · exact Or.inr (by simp [BackupRun.files])
    · exact Or.inl (Or.inr hf)
  | copyto g =>
    refine h.of_files hlt ?_ rfl rfl rfl
    intro f hf
    simp only [Effect.apply, Host.files, List.mem_append, List.mem_singleton] at hf ⊢
    rcases hf with hf | hf | rfl
    · exact Or.inl (Or.inl hf)
    · exact Or.inl (Or.inr hf)
    · exact Or.inr he
  | saveNewest p isBaseline =>
    obtain ⟨rfl, rfl⟩ := he
    exact h.saveNewest hlt
  | deletefile name =>
    refine h.of_files hlt ?_ rfl rfl rfl
    intro f hf
    simp only [Effect.apply, Host.files, List.mem_append, List.mem_filter] at hf ⊢
    exact Or.inl (hf.imp_right And.left)
  | unlink name =>
    refine h.of_files hlt ?_ rfl rfl rfl
    intro f hf
    simp only [Effect.apply, Host.files, List.mem_append, List.mem_filter] at hf ⊢
    exact Or.inl (hf.imp_left And.left)
  | unlinkPartials | saveError | saveDone =>
    exact h.of_files hlt (fun f hf ↦ Or.inl hf) rfl rfl rfl

end Invariants

section Steps

variable {clock : ℕ} {r : BackupRun} {before h : Host} {cfg : Config} {e : Effect}
  {es : List Effect} {outcome : Outcome}

theorem ofRun_of_removal (he : Removal e) : OfRun r before e := by
  cases e with
  | dump | publish | writeManifest | copyto | saveNewest => exact he.elim
  | deletefile | unlink | unlinkPartials | saveError | saveDone => trivial

theorem removal_of_mem_retention (he : e ∈ applyRetention cfg h) : Removal e := by
  cases hp : h.newestPoint with
  | none =>
    rw [applyRetention, hp] at he
    exact absurd he List.not_mem_nil
  | some p => exact (applyRetention_spares hp he).1

theorem ofRun_record : ∀ e ∈ r.record before, OfRun r before e := by
  intro e he
  simp only [BackupRun.record, BackupRun.writeLocal, List.mem_append, List.mem_cons,
    List.not_mem_nil, or_false, List.mem_ite_nil_right, List.mem_map] at he
  rcases he with ((rfl | rfl | rfl) | ⟨-, f, hf, rfl⟩) | rfl
  · trivial
  · exact ⟨rfl, rfl⟩
  · exact rfl
  · exact hf
  · exact ⟨rfl, rfl⟩

theorem ofRun_whole : ∀ e ∈ r.whole before, OfRun r before e := by
  intro e he
  rw [BackupRun.whole, List.mem_append, List.mem_append] at he
  rcases he with (he | he) | he
  · exact ofRun_record e he
  · exact ofRun_of_removal (removal_of_mem_retention he)
  · rw [List.mem_singleton.1 he]
    trivial

theorem ofRun_handler {n : ℕ} (he : e ∈ [Effect.unlinkPartials, .saveError].take n) :
    OfRun r before e := by
  have hmem := List.mem_of_mem_take he
  simp only [List.mem_cons, List.not_mem_nil, or_false] at hmem
  rcases hmem with rfl | rfl <;> trivial

/-- However far a run gets, it makes its own changes only. -/
theorem ofRun_effects : ∀ e ∈ r.effects before, OfRun r before e := by
  intro e he
  rw [BackupRun.effects] at he
  cases houtcome : r.outcome with
  | completed =>
    rw [houtcome] at he
    exact ofRun_whole e he
  | killed n =>
    rw [houtcome] at he
    exact ofRun_whole e (List.mem_of_mem_take he)
  | failed n m =>
    rw [houtcome] at he
    rcases List.mem_append.1 he with he | he
    · exact ofRun_whole e (List.mem_of_mem_take he)
    · exact ofRun_handler he
  | manifestRefused copied deleted m =>
    rw [houtcome] at he
    simp only [List.mem_ite_nil_right, List.mem_append, List.mem_singleton] at he
    rcases he with ⟨-, (((he | rfl) | ⟨-, rfl⟩) | ⟨-, rfl⟩) | he⟩
    · apply ofRun_record e
      rw [BackupRun.record, List.mem_append, List.mem_append]
      exact Or.inl (Or.inl he)
    · show _ ∈ r.files before
      simp [BackupRun.files]
    · show _ ∈ r.files before
      simp [BackupRun.files]
    · trivial
    · exact ofRun_handler he
  | saveFailed saved =>
    rw [houtcome] at he
    simp only [List.mem_append, List.mem_ite_nil_right, List.mem_cons, List.not_mem_nil,
      or_false] at he
    rcases he with (he | rfl) | ⟨-, rfl | rfl⟩
    · exact ofRun_record e (List.dropLast_subset _ he)
    · trivial
    · exact ⟨rfl, rfl⟩
    · trivial

theorem Tidy.run_effects (h : Tidy clock before) (hlt : clock < r.takenAt) :
    Tidy r.takenAt (run Effect.apply before (r.effects before)) := by
  have hmine : AllAlong (fun _ e ↦ OfRun r before e) Effect.apply before (r.effects before) :=
    .of_mem fun e he _ ↦ ofRun_effects e he
  have hduring := hmine.invariant (I := During clock r before) h.during
    fun _ _ hI he ↦ hI.apply hlt he
  exact hduring.tidy h hlt

theorem removal_of_mem_retryRetention (he : e ∈ retryRetention cfg h outcome) : Removal e := by
  have hwhole (e : Effect) (he : e ∈ applyRetention cfg h ++ [.saveDone]) : Removal e := by
    rcases List.mem_append.1 he with he | he
    · exact removal_of_mem_retention he
    · rw [List.mem_singleton.1 he]
      trivial
  cases outcome with
  | completed => exact hwhole e he
  | killed n => exact hwhole e (List.mem_of_mem_take he)
  | failed n m =>
    rcases List.mem_append.1 he with he | he
    · exact hwhole e (List.mem_of_mem_take he)
    · rw [List.mem_singleton.1 (List.mem_of_mem_take he)]
      trivial
  | manifestRefused | saveFailed => exact absurd he List.not_mem_nil

theorem Tidy.removal (h : Tidy clock before) (he : Removal e) :
    Tidy clock (e.apply before) := by
  have hsub (f : File) : f ∈ (e.apply before).files → f ∈ before.files := by
    intro hf
    cases e with
    | dump | publish | writeManifest | copyto | saveNewest => exact he.elim
    | unlinkPartials | saveError | saveDone => exact hf
    | deletefile name | unlink name =>
      simp only [Effect.apply, Host.files, List.mem_append, List.mem_filter] at hf ⊢
      tauto
  have hsame : (e.apply before).newestPoint = before.newestPoint ∧
      (e.apply before).baselineAt = before.baselineAt ∧
      (e.apply before).recorded = before.recorded := by
    cases e with
    | dump | publish | writeManifest | copyto | saveNewest => exact he.elim
    | unlinkPartials | saveError | saveDone | deletefile | unlink => exact ⟨rfl, rfl, rfl⟩
  obtain ⟨hnewest, hbaseline, hrecorded⟩ := hsame
  refine ⟨fun f hf ↦ h.files f (hsub f hf), ?_, ?_, ?_⟩
  · rw [hrecorded]
    exact h.recorded
  · rw [hnewest]
    exact h.newest
  · intro f hf hin
    rw [Covered, hnewest, hbaseline]
    exact h.covered f (hsub f hf) (hrecorded ▸ hin)

theorem Tidy.run_retryRetention (h : Tidy clock before) :
    Tidy clock (run Effect.apply before (retryRetention cfg before outcome)) := by
  have hremovals : AllAlong (fun _ e ↦ Removal e) Effect.apply before
      (retryRetention cfg before outcome) :=
    .of_mem fun e he _ ↦ removal_of_mem_retryRetention he
  exact hremovals.invariant h fun _ _ hI he ↦ hI.removal he

end Steps

section Spared

variable {r : BackupRun} {before h : Host} {cfg : Config} {e : Effect} {es : List Effect}
  {outcome : Outcome} {p : NewestPoint}

def Harmless (e : Effect) : Prop := ∀ name, e ≠ .deletefile name ∧ e ≠ .unlink name

theorem Harmless.spares (he : Harmless e) (h : Host) : SparesNewest h e := by
  intro p _ name hname
  rcases hname with hname | hname
  · exact absurd hname (he name).1
  · exact absurd hname (he name).2

theorem spares_of_harmless (hes : ∀ e ∈ es, Harmless e) :
    AllAlong SparesNewest Effect.apply h es :=
  .of_mem fun e he s ↦ (hes e he).spares s

theorem harmless_record : ∀ e ∈ r.record before, Harmless e := by
  intro e he name
  simp only [BackupRun.record, BackupRun.writeLocal, List.mem_append, List.mem_cons,
    List.not_mem_nil, or_false, List.mem_ite_nil_right, List.mem_map] at he
  rcases he with ((rfl | rfl | rfl) | ⟨-, f, hf, rfl⟩) | rfl <;>
    exact ⟨Effect.noConfusion, Effect.noConfusion⟩

theorem harmless_handler {n : ℕ} :
    ∀ e ∈ [Effect.unlinkPartials, .saveError].take n, Harmless e := by
  intro e he name
  have hmem := List.mem_of_mem_take he
  simp only [List.mem_cons, List.not_mem_nil, or_false] at hmem
  rcases hmem with rfl | rfl <;> exact ⟨Effect.noConfusion, Effect.noConfusion⟩

/-- Changes that keep the newest point spare all along what they spare at first. -/
theorem spares_of_kept
    (hes : ∀ e ∈ es, (∀ h : Host, (e.apply h).newestPoint = h.newestPoint) ∧ SparesNewest h e) :
    AllAlong SparesNewest Effect.apply h es := by
  have hall : AllAlong (fun _ e ↦ (∀ h : Host, (e.apply h).newestPoint = h.newestPoint) ∧
      SparesNewest h e) Effect.apply h es := .of_mem fun e he _ ↦ hes e he
  refine hall.of_invariant (I := fun h' ↦ h'.newestPoint = h.newestPoint) rfl ?_ ?_
  · intro h' e hI he
    exact (he.1 h').trans hI
  · intro h' e hI he p hp
    exact he.2 p (hI ▸ hp)

theorem spares_retention : AllAlong SparesNewest Effect.apply h (applyRetention cfg h) := by
  apply spares_of_kept
  intro e he
  refine ⟨fun _ ↦ (removal_of_mem_retention he).newestPoint, ?_⟩
  intro p hp
  exact (applyRetention_spares hp he).2

theorem spares_whole : AllAlong SparesNewest Effect.apply h (r.whole h) := by
  rw [BackupRun.whole, List.append_assoc]
  refine (spares_of_harmless harmless_record).trans (spares_retention.trans ?_)
  apply spares_of_harmless
  intro e he name
  rw [List.mem_singleton.1 he]
  exact ⟨Effect.noConfusion, Effect.noConfusion⟩

theorem spares_manifestRefused {copied deleted : Bool} {m : ℕ}
    (hnew : ∀ p ∈ before.newestPoint, p.stem ≠ r.stem before)
    (houtcome : r.outcome = .manifestRefused copied deleted m) :
    AllAlong SparesNewest Effect.apply before (r.effects before) := by
  rw [BackupRun.effects, houtcome]
  apply spares_of_kept
  intro e he
  simp only [List.mem_ite_nil_right, List.mem_append, List.mem_cons, List.not_mem_nil, or_false,
    BackupRun.writeLocal] at he
  rcases he with ⟨-, ((((rfl | rfl | rfl) | rfl) | ⟨-, rfl⟩) | ⟨-, rfl⟩) | he⟩
  case inl.inr =>
    refine ⟨fun _ ↦ rfl, ?_⟩
    intro p hp name hname
    rcases hname with hname | hname
    · cases hname
      exact (hnew p hp).symm
    · cases hname
  case inr =>
    refine ⟨fun _ ↦ ?_, (harmless_handler e he).spares before⟩
    have hmem := List.mem_of_mem_take he
    simp only [List.mem_cons, List.not_mem_nil, or_false] at hmem
    rcases hmem with rfl | rfl <;> rfl
  all_goals
    refine ⟨fun _ ↦ rfl, Harmless.spares ?_ before⟩
    exact fun name ↦ ⟨Effect.noConfusion, Effect.noConfusion⟩

theorem spares_effects (hnew : ∀ p ∈ before.newestPoint, p.stem ≠ r.stem before) :
    AllAlong SparesNewest Effect.apply before (r.effects before) := by
  cases houtcome : r.outcome with
  | completed =>
    rw [BackupRun.effects, houtcome]
    exact spares_whole
  | killed n =>
    rw [BackupRun.effects, houtcome]
    exact spares_whole.take n
  | failed n m =>
    rw [BackupRun.effects, houtcome]
    exact (spares_whole.take n).trans (spares_of_harmless harmless_handler)
  | manifestRefused copied deleted m => exact spares_manifestRefused hnew houtcome
  | saveFailed saved =>
    rw [BackupRun.effects, houtcome]
    apply spares_of_harmless
    intro e he
    simp only [List.mem_append, List.mem_ite_nil_right, List.mem_cons, List.not_mem_nil,
      or_false] at he
    rcases he with (he | rfl) | ⟨-, rfl | rfl⟩
    · exact harmless_record e (List.dropLast_subset _ he)
    all_goals exact fun name ↦ ⟨Effect.noConfusion, Effect.noConfusion⟩

theorem spares_retryRetention :
    AllAlong SparesNewest Effect.apply h (retryRetention cfg h outcome) := by
  have hwhole : AllAlong SparesNewest Effect.apply h (applyRetention cfg h ++ [.saveDone]) := by
    refine spares_retention.trans (spares_of_harmless ?_)
    intro e he name
    rw [List.mem_singleton.1 he]
    exact ⟨Effect.noConfusion, Effect.noConfusion⟩
  cases outcome with
  | completed => exact hwhole
  | killed n => exact hwhole.take n
  | failed n m =>
    refine (hwhole.take n).trans (spares_of_harmless ?_)
    intro e he name
    rw [List.mem_singleton.1 (List.mem_of_mem_take he)]
    exact ⟨Effect.noConfusion, Effect.noConfusion⟩
  | manifestRefused | saveFailed => trivial

end Spared

section Runs

variable {s : System} {a : Action} {r : BackupRun} {h : Host}

theorem takenAt_of_backupRun (hr : r ∈ backupRun s a) : s.clock < r.takenAt := by
  cases a with
  | change c => cases hr
  | backup cfg reason gap outcome =>
    cases hr
    dsimp only
    omega
  | check cfg between gap outcome =>
    simp only [backupRun, Option.mem_def] at hr
    split_ifs at hr
    cases hr
    dsimp only
    omega

theorem Tidy.step (h : Tidy s.clock s.host) : Tidy (step s a).clock (step s a).host := by
  cases hrun : backupRun s a with
  | some r =>
    simp only [Backup.step, effects, hrun, Option.map_some, Option.getD_some]
    exact h.run_effects (takenAt_of_backupRun hrun)
  | none =>
    simp only [Backup.step, effects, hrun, Option.map_none, Option.getD_none]
    split
    · split_ifs
      · exact h.run_retryRetention
      · exact h
    · exact h

theorem spares_step (h : Tidy s.clock s.host) :
    AllAlong SparesNewest Effect.apply s.host (effects s a) := by
  cases hrun : backupRun s a with
  | some r =>
    simp only [effects, hrun]
    apply spares_effects
    intro p hp heq
    have hle := h.newest p hp
    have hlt := takenAt_of_backupRun hrun
    rw [heq] at hle
    exact absurd hlt (not_lt.2 hle)
  | none =>
    simp only [effects, hrun]
    split
    · split_ifs
      · exact spares_retryRetention
      · trivial
    · trivial

/-- A recorded file that retention keeps is in the new snapshot, or it would be older than the
baseline. -/
theorem Covered.within {clock : ℕ} {f : File} {files : List File}
    {purged : Stem → Option ℕ → List File → List Stem}
    (hpurged : ∀ {newest : Stem} {baselineAt : Option ℕ} {at' : ℕ}, f.stem ≠ newest →
      at' ∈ baselineAt → f.stem.takenAt < at' → f.stem ∈ purged newest baselineAt files)
    (hcovered : Covered h f) (hle : f.stem.takenAt ≤ clock) (hlt : clock < r.takenAt)
    (hkept : f.stem ∉ purged (r.stem h) (r.baselineAt h) files) : f.Within r.snapshot := by
  have hne : f.stem ≠ r.stem h := by
    intro heq
    rw [heq] at hle
    exact absurd hlt (not_lt.2 hle)
  cases hbase : r.isBaseline h with
  | true =>
    have hat : r.takenAt ∈ r.baselineAt h := by
      rw [BackupRun.baselineAt, hbase]
      rfl
    exact absurd (hpurged hne hat (by omega)) hkept
  | false =>
    rcases hcovered with ⟨p, hp, hwithin⟩ | ⟨at', hat, hlt'⟩
    · exact hwithin.trans (BackupRun.within_of_not_isBaseline hbase hp)
    · have hat' : at' ∈ r.baselineAt h := by
        rw [BackupRun.baselineAt, hbase]
        exact hat
      exact absurd (hpurged hne hat' hlt') hkept

theorem BackupRun.FindsNoStray.cleared {clock : ℕ} (hfinds : r.FindsNoStray h)
    (htidy : Tidy clock h) (hlt : clock < r.takenAt) :
    Cleared r.snapshot (run Effect.apply h (r.whole h)) := by
  constructor
  · intro p hp
    rw [partials_whole] at hp
    exact absurd hp List.not_mem_nil
  · intro f hf
    obtain ⟨hmem, hkept⟩ := mem_points_whole.1 hf
    rcases List.mem_append.1 hmem with hold | hnew
    · by_cases hrecorded : f.stem ∈ h.recorded
      · have hin : f ∈ h.files := List.mem_append_left _ hold
        refine (htidy.covered f hin hrecorded).within ?_ (htidy.files f hin) hlt hkept
        intro newest baselineAt at' hne hat hlt'
        exact mem_doomed_of_older (mem_pointsFromNames hmem) hne hat hlt'
      · exact hfinds.points f hold hrecorded hkept
    · exact (mem_files hnew).2
  · intro f hf
    rw [mem_remote_whole] at hf
    split_ifs at hf with hremote
    · obtain ⟨hmem, hkept⟩ := hf
      rcases List.mem_append.1 hmem with hold | hnew
      · by_cases hrecorded : f.stem ∈ h.recorded
        · have hin : f ∈ h.files := List.mem_append_right _ hold
          refine (htidy.covered f hin hrecorded).within ?_ (htidy.files f hin) hlt hkept
          intro newest baselineAt at' hne hat hlt'
          exact mem_purgedRemote_of_older hmem hne hat hlt'
        · exact hfinds.remote hremote f hold hrecorded hkept
      · exact (mem_files hnew).2
    · exact hfinds.offHost (by simpa using hremote) f hf

theorem FindsNoStray.forgetsDestroyed (hfinds : FindsNoStray s a) (h : Tidy s.clock s.host) :
    ForgetsDestroyed s a := by
  refine ⟨?_, spares_step h⟩
  intro r hr hcompleted
  rw [host_of_completed hr hcompleted]
  exact (hfinds r hr hcompleted).cleared h (takenAt_of_backupRun hr)

theorem tidy_start (source : Identities) (clock : ℕ) :
    Tidy (start source clock).clock (start source clock).host where
  files := fun _ hf ↦ absurd hf List.not_mem_nil
  recorded := fun _ hstem ↦ absurd hstem List.not_mem_nil
  newest := fun _ hp ↦ nomatch hp
  covered := fun _ hf ↦ absurd hf List.not_mem_nil

/-- Along every sequence of runs, checks and changes of the source, what a completed backup leaves
held has no identity missing from its snapshot, and no run deletes the newest verified point,
exactly where no completed backup finds a stray point that it keeps. -/
theorem backups_forget_destroyed_identities (source : Identities) (clock : ℕ)
    (as : List Action) :
    AllAlong ForgetsDestroyed step (start source clock) as ↔
      AllAlong FindsNoStray step (start source clock) as := by
  constructor
  · intro h
    exact h.of_invariant (I := fun _ ↦ True) trivial (fun _ _ _ _ ↦ trivial)
      fun _ _ _ ha ↦ ha.findsNoStray
  · intro h
    exact h.of_invariant (I := fun s ↦ Tidy s.clock s.host) (tidy_start source clock)
      (fun _ _ hI _ ↦ hI.step) fun _ _ hI ha ↦ ha.forgetsDestroyed hI

/-- A run whose upload fails leaves a verified point that no state names; a seat created before it
and deleted after it stays in that point, and the next completed run does not notice. -/
theorem failed_upload_keeps_deleted_seat :
    ¬ AllAlong ForgetsDestroyed step (start (fun _ ↦ []) 0)
      [.backup ⟨true, 14, 2⟩ .scheduled 0 .completed,
        .change (.create .seats "b"),
        .backup ⟨true, 14, 2⟩ .scheduled 0 (.failed 3 2),
        .change (.delete .seats "b"),
        .backup ⟨true, 14, 2⟩ .scheduled 0 .completed] := by
  intro h
  have hcleared := h.2.2.2.2.1.1 ⟨⟨true, 14, 2⟩, .scheduled, false, 3, _, .completed⟩ rfl rfl
  have hwithin := hcleared.points (.artifact ⟨2, .scheduled⟩ _) (List.mem_cons_self ..)
  have hseat : "b" ∈ ([] : List String) := hwithin .seats (List.mem_cons_self ..)
  exact absurd hseat List.not_mem_nil

end Runs

end TokenHub.Backup
