import IntraCloud.Exports.Jobs
import IntraCloud.Exports.Proofs.AtomicityProofs
import IntraCloud.Exports.Proofs.PackageProofs
import IntraCloud.Transition.Tasks

/-!
# The end of export and restore jobs

Which attempts leave a job ended, and what a restore leaves for its retry.
-/

namespace Exports

open Python Relational Exports.Atomicity

/-! ## Exports -/

theorem exportFailed_status (a : ExportAttempt) (e : String) (s : ExportState) :
    (exportFailed a e s).1.job.status = if a.savesFailed = none then .failed else s.job.status := by
  unfold exportFailed
  cases a.savesFailed with
  | some e' => rfl
  | none =>
    cases a.recordsError with
    | some e' => rfl
    | none => rfl

theorem runExport_ended (s : ExportState) (a : ExportAttempt) :
    (runExport s a).1.job.Ended ↔ ExportEnds s a := by
  unfold runExport ExportEnds
  cases hbegins : a.begins with
  | some e => simp
  | none =>
    cases hbuilt : a.built with
    | error e =>
      have hstatus := exportFailed_status a e { s with job := { s.job with status := .running } }
      simp only [ExportJob.Ended, hstatus]
      by_cases hsaved : a.savesFailed = none
      · simp [hsaved, Except.isOk, Except.toBool]
      · simp [hsaved, Except.isOk, Except.toBool]
    | ok package =>
      obtain ⟨data, checksum⟩ := package
      cases hputs : a.puts with
      | some e => simp [ExportJob.Ended, Except.isOk, Except.toBool]
      | none =>
        cases hsaved : a.savesCompleted with
        | some e => simp [ExportJob.Ended, Except.isOk, Except.toBool]
        | none =>
          cases hrecords : a.records with
          | some e => simp [ExportJob.Ended, Except.isOk, Except.toBool]
          | none => simp [ExportJob.Ended, Except.isOk, Except.toBool]

/-! ## Restores -/

section Restore

variable {Key : Type} (r : Reading Key) {s : RestoreState} {a : RestoreAttempt} {data : Bytes}

/-- When the `try` block raises nothing, and that it leaves the job row its outcome and its key. -/
theorem restoreStaged_none :
    (restoreStaged r a data s).2 = none ↔ Restores r s a data := by
  unfold restoreStaged Restores
  cases hopens : a.opens with
  | some e => simp
  | none =>
    cases hpackage : openPackage r.primitives r.formats data r.passphrase with
    | error e => simp
    | ok package =>
      obtain ⟨archive, manifest⟩ := package
      cases hverifies : a.verifies with
      | some e => simp
      | none =>
        cases hverify : verifyChecksums r.formats archive manifest with
        | error e => simp [hverify]
        | ok _ =>
          cases hsaves : a.savesRestoring with
          | some e => simp [hverify]
          | none =>
            cases hrestored : (restored r a archive manifest s.written).2 with
            | false => simp [hverify, hrestored]
            | true => simp [hverify, hrestored]

theorem restoreStaged_kept (a : RestoreAttempt) (data : Bytes) (s : RestoreState) :
    (restoreStaged r a data s).1.objects = s.objects ∧
      (restoreStaged r a data s).1.job.sourceObjectKey = s.job.sourceObjectKey ∧
      ((restoreStaged r a data s).1.job.status = s.job.status ∨
        (restoreStaged r a data s).1.job.status = .restoring) := by
  unfold restoreStaged
  cases a.opens with
  | some e => exact ⟨rfl, rfl, .inl rfl⟩
  | none =>
    dsimp only
    split
    · exact ⟨rfl, rfl, .inl rfl⟩
    · cases a.verifies with
      | some e => exact ⟨rfl, rfl, .inl rfl⟩
      | none =>
        dsimp only
        split
        · exact ⟨rfl, rfl, .inl rfl⟩
        · cases a.savesRestoring with
          | some e => exact ⟨rfl, rfl, .inl rfl⟩
          | none =>
            dsimp only
            split
            · exact ⟨rfl, rfl, .inr rfl⟩
            · exact ⟨rfl, rfl, .inr rfl⟩

theorem restoreFailed_kept (e : JobError) :
    (restoreFailed a e s).1.objects = s.objects ∧
      (restoreFailed a e s).1.job.sourceObjectKey = s.job.sourceObjectKey ∧
      (restoreFailed a e s).1.job.status = if a.savesFailed = none then .failed else s.job.status := by
  unfold restoreFailed
  cases a.savesFailed with
  | some e' => exact ⟨rfl, rfl, rfl⟩
  | none =>
    cases a.recordsError with
    | some e' => exact ⟨rfl, rfl, rfl⟩
    | none => exact ⟨rfl, rfl, rfl⟩

theorem job_deleteStaged : (deleteStaged a s).job = s.job := by
  unfold deleteStaged
  cases a.deletes with
  | some e => rfl
  | none => rfl

theorem restoreCompleted_status :
    (restoreCompleted a s).1.job.status = if a.savesCompleted = none then .completed else s.job.status := by
  unfold restoreCompleted
  cases a.savesCompleted with
  | some e => rfl
  | none =>
    cases a.records with
    | some e => rfl
    | none => rfl

theorem runRestore_ended (s : RestoreState) (a : RestoreAttempt) :
    (runRestore r s a).1.job.Ended ↔ RestoreEnds r s a := by
  unfold runRestore RestoreEnds
  cases hbegins : a.begins with
  | some e => simp
  | none =>
    cases hstreams : a.streams with
    | some e => simp [RestoreJob.Ended]
    | none =>
      cases hstaged : s.objects.lookup s.job.sourceObjectKey with
      | none => simp [RestoreJob.Ended, hstaged]
      | some data =>
        -- `Restores` reads nothing of the job row
        have hnone : (restoreStaged r a data { s with job := { s.job with status := .validating } }).2 = none ↔
            Restores r s a data := restoreStaged_none r
        obtain ⟨-, -, hstatus⟩ := restoreStaged_kept r a data
          { s with job := { s.job with status := .validating } }
        cases hout : restoreStaged r a data { s with job := { s.job with status := .validating } } with
        | mk s' raised =>
          rw [hout] at hnone hstatus
          have hstatus' : s'.job.status = .validating ∨ s'.job.status = .restoring := hstatus
          cases raised with
          | some e =>
            have hraises : ¬ Restores r s a data := fun h => (nomatch hnone.mpr h)
            obtain ⟨-, -, hfailed⟩ := restoreFailed_kept (a := a) (s := s') e
            simp only [hstaged, hout, RestoreJob.Ended, job_deleteStaged, hfailed]
            by_cases hsaved : a.savesFailed = none
            · simp [hsaved, hraises]
            · rcases hstatus' with hstatus | hstatus <;> simp [hsaved, hraises, hstatus]
          | none =>
            have hrestores : Restores r s a data := hnone.mp rfl
            simp only [hstaged, hout, RestoreJob.Ended, restoreCompleted_status, job_deleteStaged]
            by_cases hsaved : a.savesCompleted = none
            · simp [hsaved, hrestores]
            · rcases hstatus' with hstatus | hstatus <;> simp [hsaved, hrestores, hstatus]

/-! ## A retry -/

/-- A valid package is restored by an attempt that meets no fault. -/
theorem restores_of_faultless (hvalid : ValidPackage r data) (hclean : a.Faultless) (s : RestoreState) :
    Restores r s a data := by
  obtain ⟨archive, manifest, hopen, hverify, horder⟩ := hvalid
  refine ⟨hclean.opens, hclean.verifies, hclean.savesRestoring, archive, manifest, hopen, hverify, ?_⟩
  have hsmooth : (restoreBody (r.parts archive manifest)).Smooth := smooth_restoreBody horder
  have hne : Alias.default ≠ Alias.tenant := by decide
  have hall : ∀ c : Alias, c = .default ∨ c = .tenant := by
    intro c
    cases c with
    | default => exact .inl rfl
    | tenant => exact .inr rfl
  obtain ⟨hraised, -⟩ := Program.nested_of_smooth (r := Statement.run) (x := a.steps)
    (w := (world s.written).tick) hne hall ⟨rfl, rfl, rfl⟩ ⟨rfl, rfl, rfl⟩ hsmooth hclean.fails
    (hclean.commits .tenant)
  have hbegin : a.steps.fails (world s.written).step = false := hclean.fails _
  unfold restored restorePackageSteps
  simp only [Program.eval, hbegin, Bool.not_false, if_true]
  rw [hclean.commits] at hraised
  simpa only [Program.eval] using hraised

/-- What a first attempt that fails after reading the package leaves: the staged package only where its
deletion fails. -/
theorem runRestore_of_raises (hreads : a.Reads s data) (hraises : ¬ Restores r s a data) :
    (runRestore r s a).2 ≠ none ∧
      (runRestore r s a).1.job.sourceObjectKey = s.job.sourceObjectKey ∧
      (runRestore r s a).1.objects =
        if a.deletes = none then s.objects.delete s.job.sourceObjectKey else s.objects := by
  obtain ⟨hbegins, hstreams, hstaged⟩ := hreads
  have hnone : (restoreStaged r a data { s with job := { s.job with status := .validating } }).2 = none ↔
      Restores r s a data := restoreStaged_none r
  obtain ⟨hobjects, hkey, -⟩ := restoreStaged_kept r a data
    { s with job := { s.job with status := .validating } }
  unfold runRestore
  simp only [hbegins, hstreams, hstaged]
  cases hout : restoreStaged r a data { s with job := { s.job with status := .validating } } with
  | mk s' raised =>
    rw [hout] at hnone hobjects hkey
    cases raised with
    | none => exact absurd (hnone.mp rfl) hraises
    | some e =>
      obtain ⟨hobjects', hkey', -⟩ := restoreFailed_kept (a := a) (s := s') e
      have hjob : (deleteStaged a (restoreFailed a e s').1).job = (restoreFailed a e s').1.job :=
        job_deleteStaged
      refine ⟨Option.some_ne_none _, ?_, ?_⟩
      · show (deleteStaged a (restoreFailed a e s').1).job.sourceObjectKey = _
        rw [hjob, hkey', hkey]
      · show (deleteStaged a (restoreFailed a e s').1).objects = _
        unfold deleteStaged
        cases a.deletes with
        | some e' =>
          rw [if_neg (Option.some_ne_none _)]
          exact hobjects'.trans hobjects
        | none =>
          rw [if_pos rfl, hobjects', hkey', hobjects, hkey]

theorem runRestore_noSuchKey (hbegins : a.begins = none) (hstreams : a.streams = none)
    (hgone : s.objects.lookup s.job.sourceObjectKey = none) :
    (runRestore r s a).1.job.status = .validating := by
  unfold runRestore
  simp only [hbegins, hstreams, hgone]

theorem runRestore_completed (hreads : a.Reads s data) (hrestores : Restores r s a data)
    (hsaved : a.savesCompleted = none) : (runRestore r s a).1.job.status = .completed := by
  obtain ⟨hbegins, hstreams, hstaged⟩ := hreads
  have hnone : (restoreStaged r a data { s with job := { s.job with status := .validating } }).2 = none :=
    (restoreStaged_none r).mpr hrestores
  unfold runRestore
  simp only [hbegins, hstreams, hstaged]
  cases hout : restoreStaged r a data { s with job := { s.job with status := .validating } } with
  | mk s' raised =>
    rw [hout] at hnone
    cases raised with
    | some e => cases hnone
    | none =>
      show (restoreCompleted a (deleteStaged a s')).1.job.status = .completed
      rw [restoreCompleted_status, if_pos hsaved]

theorem lookup_delete (objects : Objects) (key : String) : (objects.delete key).lookup key = none := by
  unfold Objects.delete
  induction objects with
  | nil => rfl
  | cons object objects ih =>
    by_cases hkey : object.1 = key
    · rw [List.filter_cons_of_neg (by simpa using hkey)]
      exact ih
    · rw [List.filter_cons_of_pos (by simpa using hkey), List.lookup_cons]
      have hbeq : (key == object.1) = false := by simpa using Ne.symm hkey
      rw [hbeq]
      exact ih

/-- After a fault that met the first attempt once it had read the package, a retry without faults completes
the restore of a valid package just where the deletion of the staged package has failed. -/
theorem retryCompletes_iff (s : RestoreState) (x y : RestoreAttempt) (data : Bytes)
    (hreads : x.Reads s data) (hvalid : ValidPackage r data) (hraises : ¬ Restores r s x data)
    (hclean : y.Faultless) :
    ((restoreTask r).execute 0 s [x, y]).1.job.status = .completed ↔ x.deletes ≠ none := by
  obtain ⟨hraised, hkey, hobjects⟩ := runRestore_of_raises r hreads hraises
  have hsecond : ((restoreTask r).execute 0 s [x, y]).1 = (runRestore r (runRestore r s x).1 y).1 := by
    rw [Transition.Task.execute_cons hraised Nat.one_pos]
    exact Transition.Task.execute_singleton 1 y
  rw [hsecond]
  by_cases hdeleted : x.deletes = none
  · -- the staged package is gone
    rw [if_pos hdeleted] at hobjects
    have hgone : (runRestore r s x).1.objects.lookup (runRestore r s x).1.job.sourceObjectKey = none := by
      rw [hobjects, hkey]
      exact lookup_delete _ _
    rw [runRestore_noSuchKey r hclean.begins hclean.streams hgone]
    exact ⟨fun h => (nomatch h), fun h => absurd hdeleted h⟩
  · rw [if_neg hdeleted] at hobjects
    have hstaged : y.Reads (runRestore r s x).1 data := by
      refine ⟨hclean.begins, hclean.streams, ?_⟩
      rw [hobjects, hkey]
      exact hreads.2.2
    have hcompleted := runRestore_completed r hstaged (restores_of_faultless r hvalid hclean _)
      hclean.savesCompleted
    exact ⟨fun _ => hdeleted, fun _ => hcompleted⟩

end Restore

/-! ## One job -/

/-- The forged package, with nothing in it to restore. -/
def forgedReading : Reading Bytes where
  primitives := recordingCipher zeroDraws [] []
  formats := forgedFormats []
  parts _ _ := ⟨"Acme", 0, [], [], []⟩
  passphrase := none

theorem validPackage_forged : ∃ data, ValidPackage forgedReading data := by
  obtain ⟨data, hopen⟩ := openPackage_forged writable_unlisted
  exact ⟨data, forgedArchive [], forgedMembers [], hopen, rfl, fun d hd => absurd hd List.not_mem_nil⟩

def stagedJob (data : Bytes) : RestoreState where
  job := ⟨1, .pending, "restore-staging/1.icp", none, .dict [], none, none⟩
  objects := [("restore-staging/1.icp", data)]
  written _ := []
  recorded := []

/-- An attempt whose steps on the databases raise or not, and that deletes the staged package or not. -/
def restoreAttempt (fails : Bool) (deletes : Option String) : RestoreAttempt where
  unwraps := none
  loads := none
  starts := none
  streams := none
  opens := none
  verifies := none
  savesRestoring := none
  steps := ⟨fun _ => fails, fun _ => true⟩
  raised := "the connection is closed"
  organization := 2
  report := .dict []
  savesFailed := none
  recordsError := none
  deletes
  now := 3
  savesCompleted := none
  records := none

theorem faultless_restoreAttempt : (restoreAttempt false none).Faultless :=
  ⟨rfl, rfl, rfl, rfl, rfl, fun _ => rfl, fun _ => rfl, rfl, rfl⟩

theorem not_restores_restoreAttempt (deletes : Option String) (s : RestoreState) (data : Bytes) :
    ¬ Restores forgedReading s (restoreAttempt true deletes) data := by
  rintro ⟨-, -, -, archive, manifest, -, -, hrestored⟩
  cases hrestored

theorem retryCompletes_iff_forged : ∃ data,
    ((restoreTask forgedReading).execute 0 (stagedJob data)
        [restoreAttempt true (some "unreachable"), restoreAttempt false none]).1.job.status = .completed ↔
      (restoreAttempt true (some "unreachable")).deletes ≠ none := by
  obtain ⟨data, hvalid⟩ := validPackage_forged
  exact ⟨data, retryCompletes_iff forgedReading (stagedJob data) _ _ data ⟨rfl, rfl, rfl⟩ hvalid
    (not_restores_restoreAttempt _ _ _) faultless_restoreAttempt⟩

/-- A connection breaks during the first attempt, which deletes the package; the retry has nothing left to
read. -/
theorem not_retryCompletes_of_deleted :
    ¬ ∀ (r : Reading Bytes) (s : RestoreState) (x y : RestoreAttempt) (data : Bytes),
      x.Reads s data → ValidPackage r data → ¬ Restores r s x data → y.Faultless →
        ((restoreTask r).execute 0 s [x, y]).1.job.status = .completed := by
  intro hclaim
  obtain ⟨data, hvalid⟩ := validPackage_forged
  have hreads : (restoreAttempt true none).Reads (stagedJob data) data := ⟨rfl, rfl, rfl⟩
  have hraises := not_restores_restoreAttempt none (stagedJob data) data
  have hcompleted := hclaim forgedReading (stagedJob data) (restoreAttempt true none)
    (restoreAttempt false none) data hreads hvalid hraises faultless_restoreAttempt
  obtain ⟨hraised, hkey, hobjects⟩ := runRestore_of_raises forgedReading hreads hraises
  rw [Transition.Task.execute_cons hraised Nat.one_pos, Transition.Task.execute_singleton] at hcompleted
  have hgone : (runRestore forgedReading (stagedJob data) (restoreAttempt true none)).1.objects.lookup
      (runRestore forgedReading (stagedJob data) (restoreAttempt true none)).1.job.sourceObjectKey = none := by
    rw [hobjects, hkey]
    exact lookup_delete _ _
  have hstatus := runRestore_noSuchKey forgedReading (a := restoreAttempt false none) rfl rfl hgone
  cases hcompleted.symm.trans hstatus

end Exports
