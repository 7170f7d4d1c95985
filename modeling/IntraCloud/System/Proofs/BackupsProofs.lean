import IntraCloud.System.Backups

/-!
# Which faults a backup survives

The three implementations have the same shape: the directory is made, a `try` with its own list of
exceptions, what follows it, and the record is saved. Only what is raised within the `try`, and listed,
ends in a record that says so.
-/

namespace Backups

open Exports Python

variable {Key : Type} {env : Env Key} {faults : Faults} {w : World}

/-! ## Outcomes -/

/-- What the file of a backup holds, before encryption. -/
def archiveBytes (env : Env Key) (objects : List (List Char × Bytes)) : Bytes :=
  env.tar.write (objects ++ [(MANIFEST, manifestBytes (objects.map fun o => (o.1, .str (env.hexdigest o.2))))])

/-- The plaintext of a backup. -/
def plaintext (env : Env Key) (bucket : Bucket) : BackupType → Bytes
  | .objectStorage => archiveBytes env bucket.objects
  | .configuration => configurationPayload env
  | t => env.dump t

/-- The file is there as a whole: the plaintext, or a container of it. -/
def Complete (env : Env Key) (r : Randomness) (plaintext : Bytes) (file : Option Bytes) : Prop :=
  if env.encryptionKey = [] then file = some plaintext
  else ∃ wrapped, writeContainer env.primitives r plaintext (some env.encryptionKey) = some wrapped ∧
    file = some wrapped

/-- A backup returns, and its row says that it failed, or that it succeeded, and then its file is complete. -/
def Ended (env : Env Key) (d : Draws) (plaintext : Bytes) (outcome : World × Except Fault BackupRecord) :
    Prop :=
  ∃ record, outcome.2 = .ok record ∧ record ∈ outcome.1.records ∧ record.id = d.id ∧
    (record.status = .failed ∨
      record.status = .success ∧ Complete env d.randomness plaintext (outcome.1.files record.filePath))

/-- `run_backup` ends in a recorded outcome. -/
def Recorded (env : Env Key) (faults : Faults) (w : World) (d : Draws) (t : BackupType) : Prop :=
  Ended env d (plaintext env w.bucket t) (runBackup env faults w d t)

/-! ## Faults by their place -/

/-- What `write_container` raises. -/
def wrapFault (env : Env Key) (faults : Faults) (r : Randomness) (plaintext : Bytes) : Option Fault :=
  match wrapPayload env faults r plaintext with
  | .error e => some e
  | .ok _ => none

/-- The steps of the `try` of an object-storage backup. -/
def archiveSteps (objects : List (List Char × Bytes)) : List Step :=
  [.getClient, .openArchive, .listKeys] ++ (objects.flatMap fun o => [.getStream o.1, .addFile o.1]) ++
    [.addManifest, .closeArchive]

/-- The first exception within the `try`. -/
def tryFault (env : Env Key) (faults : Faults) (bucket : Bucket) (d : Draws) : BackupType → Option Fault
  | .objectStorage => (archiveSteps bucket.objects).findSome? faults
  | .configuration =>
    (if env.encryptionKey = [] then none
      else wrapFault env faults d.randomness (configurationPayload env)).or (faults .writeFile)
  | _ => faults .dump

/-- The exceptions that the `except` lists. -/
def caught (e : Fault) : BackupType → Bool
  | .objectStorage => true
  | .configuration => e.kind = .osError
  | _ => e.kind.caughtByPostgres

/-- The first exception of `_maybe_encrypt_file`. -/
def encryptFault (env : Env Key) (faults : Faults) (r : Randomness) (plaintext : Bytes) : Option Fault :=
  if env.encryptionKey = [] then none
  else (faults .readPlain).or ((wrapFault env faults r plaintext).or
    ((faults .writeEncrypted).or (faults .removePlain)))

/-- The first exception between the `try` and the save. -/
def laterFault (env : Env Key) (faults : Faults) (bucket : Bucket) (d : Draws) : BackupType → Option Fault
  | .configuration => none
  | t => (encryptFault env faults d.randomness (plaintext env bucket t)).or (faults .getSize)

/-- The path of the file in the end. -/
def finalPath (env : Env Key) (d : Draws) (t : BackupType) : List Char :=
  let suffix := match t with
    | .objectStorage => ".tar"
    | .configuration => if env.encryptionKey = [] then ".json" else ".icb"
    | _ => ".dump"
  env.path d t suffix ++ (if env.encryptionKey = [] ∨ t = .configuration then [] else ".icb".toList)

/-- The directory is made and the record saved; what is raised within the `try` is listed by its `except`;
and where nothing is, nothing is raised after it, and the path fits its column. -/
def Handled (env : Env Key) (faults : Faults) (bucket : Bucket) (d : Draws) (t : BackupType) : Prop :=
  faults .makeDirs = none ∧ faults .save = none ∧
    (∀ e, tryFault env faults bucket d t = some e → caught e t = true) ∧
      (tryFault env faults bucket d t = none →
        laterFault env faults bucket d t = none ∧ (finalPath env d t).length ≤ 500)

/-! ## The steps -/

theorem attempt_of_none {step : Step} (h : faults step = none) : attempt faults step = .ok () := by
  rw [attempt, h]

theorem attempt_of_some {step : Step} {e : Fault} (h : faults step = some e) :
    attempt faults step = .error e := by
  rw [attempt, h]

/-- A record is saved, or the save raises. -/
theorem save_cases (faults : Faults) (w : World) (record : BackupRecord) :
    (faults .save = none ∧ record.filePath.length ≤ 500 ∧
        save faults w record = (w.update record, .ok record)) ∨
      (¬ (faults .save = none ∧ record.filePath.length ≤ 500) ∧
        ∃ e, save faults w record = (w, .error e)) := by
  unfold save
  cases hsave : faults .save with
  | some e =>
    rw [attempt_of_some hsave]
    exact .inr ⟨fun h => absurd h.1 (Option.some_ne_none e), e, rfl⟩
  | none =>
    rw [attempt_of_none hsave]
    dsimp only
    by_cases hlength : 500 < record.filePath.length
    · rw [if_pos hlength]
      exact .inr ⟨fun h => by omega, _, rfl⟩
    · rw [if_neg hlength]
      exact .inl ⟨rfl, by omega, rfl⟩

theorem mem_update {record row : BackupRecord} (hrow : row ∈ w.records) (hid : row.id = record.id) :
    record ∈ (w.update record).records :=
  List.mem_map.mpr ⟨row, hrow, if_pos hid⟩

theorem writeContainer_of_wrapPayload {r : Randomness} {content wrapped : Bytes}
    (h : wrapPayload env faults r content = .ok wrapped) :
    writeContainer env.primitives r content (some env.encryptionKey) = some wrapped := by
  unfold wrapPayload at h
  split at h
  · cases h
  · split at h
    · cases h
    · rename_i hcontainer
      rw [hcontainer]
      exact congrArg some (Except.ok.inj h)

/-- What a configuration backup writes, or what wrapping it raises. -/
theorem wrapped_cases (env : Env Key) (faults : Faults) (r : Randomness) (content : Bytes) :
    (∃ e, (if env.encryptionKey = [] then .ok content else wrapPayload env faults r content) = .error e ∧
        (if env.encryptionKey = [] then none else wrapFault env faults r content) = some e) ∨
      ∃ out, (if env.encryptionKey = [] then .ok content else wrapPayload env faults r content) = .ok out ∧
        (if env.encryptionKey = [] then none else wrapFault env faults r content) = none ∧
          Complete env r content (some out) := by
  unfold Complete
  by_cases hkey : env.encryptionKey = []
  · simp only [if_pos hkey]
    exact .inr ⟨content, rfl, trivial, rfl⟩
  · simp only [if_neg hkey, wrapFault]
    cases hwrap : wrapPayload env faults r content with
    | error e => exact .inl ⟨e, rfl, rfl⟩
    | ok out => exact .inr ⟨out, rfl, rfl, out, writeContainer_of_wrapPayload hwrap, rfl⟩

/-- The file that `_maybe_encrypt_file` leaves, or what it raises. -/
theorem maybeEncryptFile_cases (faults : Faults) (r : Randomness) {path : List Char} {content : Bytes}
    (hfile : w.files path = some content) :
    (encryptFault env faults r content = none ∧ ∃ w', maybeEncryptFile env faults r w path =
        (w', .ok (path ++ (if env.encryptionKey = [] then [] else ".icb".toList))) ∧
        w'.records = w.records ∧ Complete env r content
          (w'.files (path ++ (if env.encryptionKey = [] then [] else ".icb".toList)))) ∨
      ∃ e w', encryptFault env faults r content = some e ∧
        maybeEncryptFile env faults r w path = (w', .error e) := by
  unfold maybeEncryptFile encryptFault Complete
  by_cases hkey : env.encryptionKey = []
  · simp only [if_pos hkey, List.append_nil]
    exact .inl ⟨trivial, w, rfl, rfl, hfile⟩
  · simp only [if_neg hkey]
    cases hread : faults .readPlain with
    | some e =>
      rw [attempt_of_some hread]
      exact .inr ⟨e, w, rfl, rfl⟩
    | none =>
      rw [attempt_of_none hread, hfile, Option.none_or, wrapFault]
      dsimp only [Option.getD_some]
      cases hwrap : wrapPayload env faults r content with
      | error e => exact .inr ⟨e, w, rfl, rfl⟩
      | ok wrapped =>
        dsimp only
        rw [Option.none_or]
        cases hwrite : faults .writeEncrypted with
        | some e =>
          rw [attempt_of_some hwrite]
          exact .inr ⟨e, _, rfl, rfl⟩
        | none =>
          rw [attempt_of_none hwrite, Option.none_or]
          dsimp only
          cases hremove : faults .removePlain with
          | some e =>
            rw [attempt_of_some hremove]
            exact .inr ⟨e, _, rfl, rfl⟩
          | none =>
            rw [attempt_of_none hremove]
            refine .inl ⟨rfl, _, rfl, rfl, wrapped, ?_, ?_⟩
            · exact writeContainer_of_wrapPayload hwrap
            · have hne : path ++ ".icb".toList ≠ path := by simp
              show Function.update (w.write (path ++ ".icb".toList) wrapped).files path none
                (path ++ ".icb".toList) = some wrapped
              rw [Function.update_of_ne hne]
              exact Function.update_self ..

/-- The exception of the first step that raises. -/
theorem attempts_cons {α : Type} (step : Step) (rest : Except Fault α) :
    (do attempt faults step; rest) = match faults step with | some e => .error e | none => rest := by
  cases hstep : faults step with
  | some e => rw [attempt_of_some hstep]; rfl
  | none => rw [attempt_of_none hstep]; rfl

theorem addObjects_eq (objects : List (List Char × Bytes)) (manifest : List (List Char × PyJson)) :
    addObjects env faults objects manifest =
      match (objects.flatMap fun o => [.getStream o.1, .addFile o.1]).findSome? faults with
      | some e => .error e
      | none => .ok (manifest ++ objects.map fun o => (o.1, .str (env.hexdigest o.2))) := by
  induction objects generalizing manifest with
  | nil => simp [addObjects]
  | cons o rest ih =>
    obtain ⟨key, data⟩ := o
    rw [addObjects, attempts_cons, List.flatMap_cons]
    cases hget : faults (.getStream key) with
    | some e => simp [hget]
    | none =>
      dsimp only
      rw [attempts_cons]
      cases hadd : faults (.addFile key) with
      | some e => simp [hget, hadd]
      | none => simp [hget, hadd, ih]

/-- The `try` of an object-storage backup: its first exception, or the archive. -/
theorem archiveObjects_eq (objects : List (List Char × Bytes)) :
    archiveObjects env faults objects =
      match (archiveSteps objects).findSome? faults with
      | some e => .error e
      | none => .ok (archiveBytes env objects) := by
  rw [archiveObjects, archiveSteps, List.findSome?_append, List.findSome?_append, attempts_cons,
    attempts_cons, attempts_cons, addObjects_eq]
  cases hclient : faults .getClient with
  | some e => simp [hclient]
  | none =>
  cases hopen : faults .openArchive with
  | some e => simp [hclient, hopen]
  | none =>
  cases hlist : faults .listKeys with
  | some e => simp [hclient, hopen, hlist]
  | none =>
  simp only [List.findSome?_cons, List.findSome?_nil, hclient, hopen, hlist, Option.none_or]
  cases (objects.flatMap fun o => [Step.getStream o.1, Step.addFile o.1]).findSome? faults with
  | some e => rfl
  | none =>
    show (do attempt faults .addManifest; attempt faults .closeArchive; _) = _
    rw [attempts_cons, attempts_cons]
    cases hmanifest : faults .addManifest with
    | some e => simp
    | none =>
      cases hclose : faults .closeArchive with
      | some e => simp
      | none => rfl

/-! ## How they end -/

theorem not_ended_error {d : Draws} {content : Bytes} {e : Fault} : ¬ Ended env d content (w, .error e) :=
  fun ⟨_, h, _⟩ => nomatch h

/-- The failure is recorded unless the save raises. -/
theorem ended_recordFailure {d : Draws} {content : Bytes} {record : BackupRecord} (e : Fault)
    (hrow : record ∈ w.records) (hid : record.id = d.id) (hpath : record.filePath = []) :
    Ended env d content (recordFailure faults w record e) ↔ faults .save = none := by
  unfold recordFailure
  obtain ⟨hsave, _, heq⟩ | ⟨hsave, e', heq⟩ :=
    save_cases faults w { record with
      status := .failed, errorMessage := e.message.take 2000, completedAt := some w.now }
  · rw [heq]
    exact iff_of_true ⟨_, rfl, mem_update hrow rfl, hid, .inl rfl⟩ hsave
  · rw [heq]
    refine iff_of_false not_ended_error fun h => hsave ⟨h, ?_⟩
    show record.filePath.length ≤ 500
    simp [hpath]

/-- The success is recorded unless something is raised on the way, or the path does not fit. -/
theorem ended_save (faults : Faults) (record : BackupRecord) {d : Draws} {content : Bytes}
    (hrow : ∃ row ∈ w.records, row.id = d.id) (hid : record.id = d.id)
    (hstatus : record.status = .success)
    (hfile : Complete env d.randomness content (w.files record.filePath)) :
    Ended env d content (save faults w record) ↔ faults .save = none ∧ record.filePath.length ≤ 500 := by
  obtain ⟨row, hrow, hrowId⟩ := hrow
  obtain ⟨hsave, hlength, heq⟩ | ⟨hsave, e, heq⟩ := save_cases faults w record
  · rw [heq]
    exact iff_of_true ⟨record, rfl, mem_update hrow (hrowId.trans hid.symm), hid, .inr ⟨hstatus, hfile⟩⟩
      ⟨hsave, hlength⟩
  · rw [heq]
    exact iff_of_false not_ended_error hsave

theorem ended_recordSuccess {d : Draws} {content : Bytes} {record : BackupRecord} {path : List Char}
    (hrow : record ∈ w.records) (hid : record.id = d.id) (hfile : w.files path = some content) :
    Ended env d content (recordSuccess env faults d.randomness w record path) ↔
      (encryptFault env faults d.randomness content).or (faults .getSize) = none ∧ faults .save = none ∧
        (path ++ (if env.encryptionKey = [] then [] else ".icb".toList)).length ≤ 500 := by
  unfold recordSuccess
  obtain ⟨hnone, w', heq, hrecords, hcomplete⟩ | ⟨e, w', hsome, heq⟩ :=
    maybeEncryptFile_cases faults d.randomness hfile
  · rw [heq, hnone, Option.none_or]
    dsimp only
    cases hsize : faults .getSize with
    | some e =>
      rw [attempt_of_some hsize]
      exact iff_of_false not_ended_error fun h => absurd h.1 (Option.some_ne_none e)
    | none =>
      rw [attempt_of_none hsize]
      let finalPath := path ++ (if env.encryptionKey = [] then [] else ".icb".toList)
      have hended := ended_save faults { record with
          status := .success, filePath := finalPath, sizeBytes := (w'.files finalPath).map List.length,
          completedAt := some w'.now } ⟨record, hrecords ▸ hrow, hid⟩ hid rfl hcomplete
      exact hended.trans ⟨fun h => ⟨rfl, h⟩, fun h => h.2⟩
  · rw [heq, hsome, Option.some_or]
    exact iff_of_false not_ended_error fun h => absurd h.1 (Option.some_ne_none e)

/-! ## The three implementations -/

/-- The record of a new backup. -/
def newRecord (w : World) (d : Draws) (t : BackupType) : BackupRecord :=
  { id := d.id, backupType := t, startedAt := w.now }

theorem newRecord_mem {d : Draws} {t : BackupType} :
    newRecord w d t ∈ (w.create (newRecord w d t)).records :=
  List.mem_append_right _ (List.mem_singleton_self _)

@[simp] theorem records_write {path : List Char} {data : Bytes} : (w.write path data).records = w.records :=
  rfl

@[simp] theorem records_spoil {path : List Char} {e : Fault} : (w.spoil path e).records = w.records := by
  unfold World.spoil
  split <;> rfl

theorem files_write_self {path : List Char} {data : Bytes} : (w.write path data).files path = some data :=
  Function.update_self ..

/-- What follows a `try` that left its file. -/
theorem ended_written {d : Draws} {t : BackupType} {content : Bytes} {path : List Char} :
    Ended env d content (recordSuccess env faults d.randomness
        ((w.create (newRecord w d t)).write path content) (newRecord w d t) path) ↔
      (encryptFault env faults d.randomness content).or (faults .getSize) = none ∧ faults .save = none ∧
        (path ++ (if env.encryptionKey = [] then [] else ".icb".toList)).length ≤ 500 :=
  ended_recordSuccess (by rw [records_write]; exact newRecord_mem) rfl files_write_self

/-- What follows a `try` that raised what its `except` lists. -/
theorem ended_spoiled {d : Draws} {t : BackupType} {content : Bytes} {path : List Char} {e : Fault} :
    Ended env d content (recordFailure faults
        ((w.create (newRecord w d t)).spoil path e) (newRecord w d t) e) ↔ faults .save = none :=
  ended_recordFailure e (by rw [records_spoil]; exact newRecord_mem) rfl rfl

theorem recorded_postgres {d : Draws} {t : BackupType} (hpostgres : t = .controlDb ∨ t = .tenantDb) :
    Recorded env faults w d t ↔ Handled env faults w.bucket d t := by
  have hrun : runBackup env faults w d t = runPostgresBackup env faults w d t := by
    obtain rfl | rfl := hpostgres <;> rfl
  have htry : tryFault env faults w.bucket d t = faults .dump := by
    obtain rfl | rfl := hpostgres <;> rfl
  have hcaught (e : Fault) : caught e t = e.kind.caughtByPostgres := by
    obtain rfl | rfl := hpostgres <;> rfl
  have hplain : plaintext env w.bucket t = env.dump t := by
    obtain rfl | rfl := hpostgres <;> rfl
  have hlater : laterFault env faults w.bucket d t =
      (encryptFault env faults d.randomness (env.dump t)).or (faults .getSize) := by
    obtain rfl | rfl := hpostgres <;> rfl
  have hfinal : finalPath env d t =
      env.path d t ".dump" ++ (if env.encryptionKey = [] then [] else ".icb".toList) := by
    obtain rfl | rfl := hpostgres <;> simp [finalPath]
  unfold Recorded Handled
  rw [hrun, htry, hplain, hlater, hfinal, runPostgresBackup]
  cases hdirs : faults .makeDirs with
  | some e =>
    rw [attempt_of_some hdirs]
    exact iff_of_false not_ended_error fun h => absurd h.1 (Option.some_ne_none e)
  | none =>
    rw [attempt_of_none hdirs]
    dsimp only
    cases hdump : faults .dump with
    | some e =>
      rw [attempt_of_some hdump]
      dsimp only
      by_cases hkind : e.kind.caughtByPostgres = true
      · rw [if_pos hkind]
        refine ended_spoiled.trans ⟨fun h => ⟨rfl, h, ?_, ?_⟩, fun h => h.2.1⟩
        · intro e' he
          obtain rfl := Option.some.inj he
          exact (hcaught e).trans hkind
        · exact fun h => absurd h (Option.some_ne_none e)
      · rw [if_neg hkind]
        refine iff_of_false not_ended_error fun h => hkind ?_
        exact (hcaught e).symm.trans (h.2.2.1 e rfl)
    | none =>
      rw [attempt_of_none hdump]
      refine ended_written.trans ⟨fun h => ?_, fun h => ?_⟩
      · exact ⟨rfl, h.2.1, nofun, fun _ => ⟨h.1, h.2.2⟩⟩
      · exact ⟨(h.2.2.2 rfl).1, h.2.1, (h.2.2.2 rfl).2⟩

theorem recorded_objectStorage {d : Draws} :
    Recorded env faults w d .objectStorage ↔ Handled env faults w.bucket d .objectStorage := by
  have hfinal : finalPath env d .objectStorage =
      env.path d .objectStorage ".tar" ++ (if env.encryptionKey = [] then [] else ".icb".toList) := by
    simp [finalPath]
  unfold Recorded Handled
  rw [hfinal, runBackup, runObjectStorageBackup, tryFault, laterFault, archiveObjects_eq]
  · cases hdirs : faults .makeDirs with
    | some e =>
      rw [attempt_of_some hdirs]
      exact iff_of_false not_ended_error fun h => absurd h.1 (Option.some_ne_none e)
    | none =>
      rw [attempt_of_none hdirs]
      dsimp only [World.create]
      cases (archiveSteps w.bucket.objects).findSome? faults with
      | some e =>
        refine ended_spoiled.trans ⟨fun h => ⟨rfl, h, ?_, ?_⟩, fun h => h.2.1⟩
        · exact fun _ _ => rfl
        · exact fun h => absurd h (Option.some_ne_none e)
      | none =>
        refine ended_written.trans ⟨fun h => ?_, fun h => ?_⟩
        · exact ⟨rfl, h.2.1, nofun, fun _ => ⟨h.1, h.2.2⟩⟩
        · exact ⟨(h.2.2.2 rfl).1, h.2.1, (h.2.2.2 rfl).2⟩
  · exact nofun

theorem recorded_configuration {d : Draws} :
    Recorded env faults w d .configuration ↔ Handled env faults w.bucket d .configuration := by
  have hfinal : finalPath env d .configuration =
      env.path d .configuration (if env.encryptionKey = [] then ".json" else ".icb") := by
    simp [finalPath]
  unfold Recorded Handled
  rw [hfinal, runBackup, runConfigurationBackup, tryFault, laterFault]
  cases hdirs : faults .makeDirs with
  | some e =>
    rw [attempt_of_some hdirs]
    exact iff_of_false not_ended_error fun h => absurd h.1 (Option.some_ne_none e)
  | none =>
    rw [attempt_of_none hdirs]
    dsimp only
    have hcaught (e : Fault) : caught e .configuration = true ↔ e.kind = .osError := decide_eq_true_iff
    obtain ⟨e, hwrapped, hfault⟩ | ⟨out, hwrapped, hfault, hcomplete⟩ :=
      wrapped_cases env faults d.randomness (configurationPayload env)
    · rw [hwrapped, hfault, Option.some_or]
      dsimp only
      by_cases hkind : e.kind = .osError
      · rw [if_pos hkind]
        refine (ended_recordFailure e newRecord_mem rfl rfl).trans ⟨fun h => ⟨rfl, h, ?_, ?_⟩, fun h => h.2.1⟩
        · intro e' he
          obtain rfl := Option.some.inj he
          exact (hcaught e).mpr hkind
        · exact fun h => absurd h (Option.some_ne_none e)
      · rw [if_neg hkind]
        exact iff_of_false not_ended_error fun h => hkind ((hcaught e).mp (h.2.2.1 e rfl))
    · rw [hwrapped, hfault, Option.none_or]
      dsimp only
      cases hwrite : faults .writeFile with
      | some e =>
        rw [attempt_of_some hwrite]
        dsimp only
        by_cases hkind : e.kind = .osError
        · rw [if_pos hkind]
          refine ended_spoiled.trans ⟨fun h => ⟨rfl, h, ?_, ?_⟩, fun h => h.2.1⟩
          · intro e' he
            obtain rfl := Option.some.inj he
            exact (hcaught e).mpr hkind
          · exact fun h => absurd h (Option.some_ne_none e)
        · rw [if_neg hkind]
          exact iff_of_false not_ended_error fun h => hkind ((hcaught e).mp (h.2.2.1 e rfl))
      | none =>
        rw [attempt_of_none hwrite]
        let outputPath := env.path d .configuration (if env.encryptionKey = [] then ".json" else ".icb")
        have hended := ended_save faults { newRecord w d .configuration with
            status := .success, filePath := outputPath, sizeBytes := some out.length,
            completedAt := some w.now }
          (w := (w.create (newRecord w d .configuration)).write outputPath out) (d := d)
          ⟨newRecord w d .configuration, newRecord_mem, rfl⟩ rfl rfl (by rw [files_write_self]; exact hcomplete)
        exact hended.trans
          ⟨fun h => ⟨rfl, h.1, nofun, fun _ => ⟨rfl, h.2⟩⟩, fun h => ⟨h.2.1, (h.2.2.2 rfl).2⟩⟩

/-! ## When a backup ends in a recorded outcome -/

/-- A backup ends in a recorded outcome exactly where the directory is made, the record can be saved, what
is raised within the `try` is listed, and nothing is raised after it. -/
theorem recorded_iff_handled (env : Env Key) (faults : Faults) (w : World) (d : Draws) (t : BackupType) :
    Recorded env faults w d t ↔ Handled env faults w.bucket d t := by
  cases t with
  | controlDb => exact recorded_postgres (.inl rfl)
  | tenantDb => exact recorded_postgres (.inr rfl)
  | objectStorage => exact recorded_objectStorage
  | configuration => exact recorded_configuration

/-- Settings without encryption. -/
def plainEnv (tar : TarFormat) : Env Unit where
  backupDir := "/backups".toList
  encryptionKey := []
  primitives := ⟨fun _ _ _ _ _ => some (), fun _ _ data => data, fun _ _ data => some data⟩
  tar := tar
  sha256 := id
  environ := fun _ => []
  dump := fun _ => []
  accepts := fun _ => true

/-- The draws of an example. -/
def exampleDraws : Draws where
  id := 0
  stamp := "20260101T000000Z".toList
  randomness :=
    ⟨List.replicate _ 0, List.replicate _ 0, List.length_replicate, List.length_replicate⟩

/-- The directory cannot be made: the exception leaves `run_backup`, and the record is left running. -/
theorem not_recorded_of_makeDirs :
    ¬ Recorded (plainEnv ⟨fun _ => [], fun _ => none⟩)
      (fun step => if step = .makeDirs then some ⟨.osError, "No space left on device".toList, none⟩ else none)
      ⟨0, fun _ => none, ⟨[], List.nodup_nil⟩, []⟩ exampleDraws .controlDb := by
  rintro ⟨record, h, -⟩
  cases h

end Backups
