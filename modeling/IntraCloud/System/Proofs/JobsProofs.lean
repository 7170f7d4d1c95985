import IntraCloud.Exports.Proofs.JobsProofs
import IntraCloud.Imports.Proofs.FaultsProofs

/-!
# How jobs end

The retry handler that would fail a job is never reached, so a job ends in the status the body of the last
attempt of its task leaves.
-/

namespace System

open Transition

/-! ## Imports -/

/-- An attempt that does not complete the job leaves it unfinished. -/
theorem runImport_ended {codec : Imports.Codec} {body : List UInt8} {s : Imports.State}
    (h : ¬ s.job.Ended) (a : Imports.Attempt) :
    (Imports.runImport codec body a s).1.job.Ended ↔ Imports.Completes codec body s a := by
  obtain ⟨e, b, n, db, hdealt, hcompletes, hresult⟩ := Imports.runImport_dealt codec body a s
  have hbegun : ¬ (Imports.begun a s).job.Ended := by
    unfold Imports.begun
    split
    · rintro (hstatus | hstatus) <;> cases hstatus
    · exact h
  rw [← hcompletes]
  rcases hresult with ⟨hdb, hraised⟩ | ⟨total, hdb, hnone⟩
  · rw [hdb, hdealt.job]
    exact ⟨fun hended => absurd hended hbegun, fun hnone => absurd hnone hraised⟩
  · rw [hdb]
    exact ⟨fun _ => hnone, fun _ => .inl rfl⟩

/-! ## All jobs -/

/-- Once no retry is scheduled, a job has ended just where the last attempt of its
task met circumstances that leave it so. -/
theorem jobsSettle_iff (codec : Imports.Codec) (body : List UInt8) {Key : Type} (r : Exports.Reading Key)
    (i : Imports.State) (hi : i.job.status = .pending) (is : List Imports.Attempt)
    (x : Exports.ExportState) (xs : List Exports.ExportAttempt)
    (y : Exports.RestoreState) (ys : List Exports.RestoreAttempt) :
    ((Imports.importTask codec body).Settles (·.job.Ended) i is ↔
        (Imports.importTask codec body).Last (Imports.Completes codec body) 0 i is) ∧
      (Exports.exportTask.Settles (·.job.Ended) x xs ↔ Exports.exportTask.Last Exports.ExportEnds 0 x xs) ∧
      ((Exports.restoreTask r).Settles (·.job.Ended) y ys ↔
        (Exports.restoreTask r).Last (Exports.RestoreEnds r) 0 y ys) := by
  refine ⟨?_, ?_, ?_⟩
  · have hpending : ¬ i.job.Ended := by
      rintro (hstatus | hstatus) <;> cases hi.symm.trans hstatus
    refine Task.settles_iff (I := fun s : Imports.State => ¬ s.job.Ended) ?_ ?_ hpending is
    · intro s a hs hraised hended
      obtain ⟨e, b, n, db, -, hcompletes, -⟩ := Imports.runImport_dealt codec body a s
      exact hraised (hcompletes.mpr ((runImport_ended hs a).mp hended))
    · intro s a hs
      exact runImport_ended hs a
  · exact Task.settles_iff (I := fun _ => True) (fun _ _ _ _ => trivial)
      (fun s a _ => Exports.runExport_ended s a) trivial xs
  · exact Task.settles_iff (I := fun _ => True) (fun _ _ _ _ => trivial)
      (fun s a _ => Exports.runRestore_ended r s a) trivial ys

/-- An export job, and an attempt at it the package of which is stored or not. -/
def exportJob : Exports.ExportState where
  job := ⟨1, 2, false, .pending, "", none, [], none, none⟩
  objects := []
  recorded := []

def exportAttempt (puts : Option String) : Exports.ExportAttempt where
  unwraps := none
  loads := none
  starts := none
  built := .ok ([], [])
  savesFailed := none
  recordsError := none
  puts
  now := 3
  savesCompleted := none
  records := none

/-- The object store is away for the first attempt at an export and back for the second. -/
theorem jobsSettle_iff_retry :
    Exports.exportTask.Settles (·.job.Ended) exportJob [exportAttempt (some "unreachable"), exportAttempt none] := by
  refine (jobsSettle_iff Imports.latin1 Imports.threeRows Exports.forgedReading Imports.freshJob rfl []
    exportJob _ (Exports.stagedJob []) []).2.1.mpr ?_
  refine (Task.last_cons (Option.some_ne_none _) (by decide) _).mpr ?_
  refine (Task.last_of_returns rfl _ _).mpr ?_
  exact .inr ⟨rfl, .inr ⟨rfl, rfl, rfl⟩⟩

/-- The object store stays away: the import and the export are left running, and the restore validating. -/
theorem not_settles_of_storage :
    let refused := { Imports.attempt (fun _ => .committed) 0 with streamRefused := some "unreachable" }
    let unread := { Exports.restoreAttempt false none with streams := some "unreachable" }
    ¬ (Imports.importTask Imports.latin1 Imports.threeRows).Settles (·.job.Ended) Imports.freshJob
        (List.replicate 4 refused) ∧
      ¬ Exports.exportTask.Settles (·.job.Ended) exportJob
        (List.replicate 3 (exportAttempt (some "unreachable"))) ∧
      ¬ (Exports.restoreTask Exports.forgedReading).Settles (·.job.Ended) (Exports.stagedJob [])
        (List.replicate 2 unread) := by
  refine ⟨fun h => ?_, fun h => ?_, fun h => ?_⟩
  · rcases h rfl with hstatus | hstatus <;> cases hstatus
  · rcases h rfl with hstatus | hstatus <;> cases hstatus
  · rcases h rfl with hstatus | hstatus <;> cases hstatus

end System
