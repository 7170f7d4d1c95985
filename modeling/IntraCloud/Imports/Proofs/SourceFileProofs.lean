import IntraCloud.Imports.Proofs.FaultsProofs
import IntraCloud.Imports.SourceFile
import IntraCloud.Storage.Proofs.ConcurrentProofs

/-!
# Which content is imported
-/

namespace Imports

open Python Transition

theorem config_begun (a : Attempt) (s : State) : (begun a s).job.config = s.job.config := by
  unfold begun
  split <;> rfl

theorem config_runImportTask (codec : Codec) (body : List UInt8) (s : State) (a : Attempt) :
    (runImportTask codec body s a).job.config = s.job.config := by
  obtain ⟨e, b, n, db, hdealt, -, hresult⟩ := runImport_dealt codec body a s
  have hafter : db.job.config = s.job.config := by
    rw [hdealt.job]
    exact config_begun a s
  rw [runImportTask_eq]
  rcases hresult with ⟨hdb, -⟩ | ⟨total, hdb, -⟩
  · rw [hdb]
    exact hafter
  · rw [hdb]
    exact hafter

/-- What an attempt commits, it commits of rows it gets to. -/
theorem committed_runImportTask {codec : Codec} {body : List UInt8} {s : State} {a : Attempt}
    {entry : Nat × List Param} (h : entry ∈ (runImportTask codec body s a).committed) :
    entry ∈ s.committed ∨
      ((pass codec body s a).resumed < entry.1 ∧ (pass codec body s a).Reaches entry.1 ∧
        (pass codec body s a).commit? entry.1 = some entry) := by
  obtain ⟨e, b, n, db, hdealt, -, hresult⟩ := runImport_dealt codec body a s
  have hafter : entry ∈ db.committed := by
    rw [runImportTask_eq] at h
    rcases hresult with ⟨hdb, -⟩ | ⟨total, hdb, -⟩
    · rw [hdb] at h
      exact h
    · rw [hdb] at h
      exact h
  rw [hdealt.committed, committed_begun, List.mem_append] at hafter
  rcases hafter with hold | hnew
  · exact .inl hold
  · right
    obtain ⟨m, hm, hcommit⟩ := List.mem_filterMap.mp hnew
    obtain ⟨hlo, hhi⟩ := Pass.mem_numbers.mp hm
    have hnumber : entry.1 = m := (pass codec body s a).commit?_number hcommit
    rw [hnumber]
    exact ⟨hlo, hdealt.reached m hlo hhi, hcommit⟩

/-- The row of a commit. -/
theorem Pass.commit?_some {c : Pass} {n : Nat} {values : List Param} (h : c.commit? n = some (n, values)) :
    ∃ row, c.rows[n - 1]? = some row ∧ convertRow row c.mapping = .ok values := by
  obtain ⟨row, hrow, hfate⟩ := Option.bind_eq_some_iff.mp h
  have hrow' : c.rows[n - 1]? = some row := by
    unfold Pass.row? at hrow
    split at hrow
    · exact hrow
    · cases hrow
  refine ⟨row, hrow', ?_⟩
  unfold fate at hfate
  cases hconvert : convertRow row c.mapping with
  | error e =>
    rw [hconvert] at hfate
    cases hfate
  | ok values' =>
    rw [hconvert] at hfate
    dsimp only at hfate
    cases hinsert : c.attempt.insert n with
    | committed =>
      rw [hinsert] at hfate
      cases hfate
      rfl
    | refused message =>
      rw [hinsert] at hfate
      cases hfate
    | disconnected message =>
      rw [hinsert] at hfate
      cases hfate

/-- An attempt gets its rows from the beginning of the content it reads. -/
theorem attemptRows_prefix (codec : Codec) (body : List UInt8) (s : State) (a : Attempt) :
    attemptRows codec body s a <+: dataRows codec body s.job := by
  unfold attemptRows dataRows
  split
  · cases Csv.Dialect.of? s.job.delimiter with
    | none => exact List.prefix_refl _
    | some dialect => exact streamedRows_prefix codec s.job.encoding dialect body a.streamCut
  · exact List.nil_prefix

/-- An attempt that gets no stream gets no rows. -/
theorem attemptRows_refused (codec : Codec) (body : List UInt8) (s : State) {a : Attempt}
    (h : a.streamRefused.isSome = true) : attemptRows codec body s a = [] := by
  have hnone : a.streamRefused.isNone = false := by
    rw [← Option.not_isSome, h]
    rfl
  rw [attemptRows, hnone, Bool.and_false, Bool.false_and]
  rfl

/-! ## The key of an attempt -/

section Key

variable {cfg : Storage.Config} {codec : Codec} {original : Bytes} {x : Importing} {a : Attempt}

/-- The key that the attempt under way has read is one that has been made, and nothing but this content is stored
under it. -/
structure Holds (original : Bytes) (files : Storage.State) (key : Uuid) : Prop where
  made : key < files.nextKey
  stored : ∀ body, files.objects.lookup key = some body → body = original

/-- Uploads are stored under new keys. -/
theorem Holds.request {files files' : Storage.State} {key : Uuid} (h : Holds original files key)
    (hkeeps : Storage.KeepsObjects files files') : Holds original files' key :=
  ⟨Nat.lt_of_lt_of_le h.made hkeeps.next, fun body hbody => h.stored body (hkeeps.objects key h.made body hbody)⟩

/-- The rows of an attempt are the first ones of this content, if it gets any. -/
theorem Holds.rows (h : ∀ key, x.key = some key → Holds original x.files.state key) {body : Bytes} {a' : Attempt}
    (hopened : x.opened a = some (body, a')) :
    attemptRows codec body x.job a' <+: dataRows codec original x.job.job := by
  obtain ⟨key, hkey, hfound⟩ := Option.map_eq_some_iff.mp hopened
  cases hlookup : x.files.state.objects.lookup key with
  | some found =>
    rw [hlookup] at hfound
    obtain ⟨rfl, rfl⟩ := Prod.mk.inj hfound
    rw [(h key hkey).stored found hlookup]
    exact attemptRows_prefix codec original x.job a
  | none =>
    rw [hlookup] at hfound
    obtain ⟨rfl, rfl⟩ := Prod.mk.inj hfound
    rw [attemptRows_refused codec [] x.job rfl]
    exact List.nil_prefix

/-- The job still has the configuration it was created with, has committed rows of this content only, and its attempt
under way reads this content or nothing. -/
structure Single (codec : Codec) (original : Bytes) (job₀ : ImportJob) (x : Importing) : Prop where
  files : Storage.Numbered x.files
  key : ∀ key, x.key = some key → Holds original x.files.state key
  config : x.job.job.config = job₀.config
  commits : CommitsFrom codec original x.job

theorem Single.request {job₀ : ImportJob} (h : Single codec original job₀ x) (a : Storage.Action) :
    Single codec original job₀ (importingStep cfg codec x (.request a)) where
  files := h.files.step a
  key key hkey := (h.key key hkey).request (Storage.keepsObjects_step a)
  config := h.config
  commits := h.commits

theorem Single.load {job₀ : ImportJob} (h : Single codec original job₀ x) (hdesignates : Designates original x .load) :
    Single codec original job₀ (importingStep cfg codec x .load) where
  files := h.files
  key key hkey := by
    obtain rfl := Option.some.inj hkey
    exact ⟨h.files.file, hdesignates⟩
  config := h.config
  commits := h.commits

theorem Single.attempt {job₀ : ImportJob} (h : Single codec original job₀ x) (a : Attempt) :
    Single codec original job₀ (importingStep cfg codec x (.attempt a)) := by
  cases hopened : x.opened a with
  | none =>
    have hstep : importingStep cfg codec x (.attempt a) = x := by simp only [importingStep, hopened]
    rw [hstep]
    exact h
  | some found =>
    obtain ⟨body, a'⟩ := found
    have hstep : importingStep cfg codec x (.attempt a) =
        { x with job := runImportTask codec body x.job a', key := none } := by
      simp only [importingStep, hopened]
    rw [hstep]
    have hconfig := config_runImportTask codec body x.job a'
    have hmapping : (runImportTask codec body x.job a').job.columnMapping = x.job.job.columnMapping :=
      congrArg (fun config => config.2.2) hconfig
    have hrows : attemptRows codec body x.job a' <+: dataRows codec original x.job.job := Holds.rows h.key hopened
    obtain ⟨rest, hrest⟩ := hrows
    refine ⟨h.files, fun key hkey => ?_, hconfig.trans h.config, fun entry hentry => ?_⟩
    · cases hkey
    · show FromFile (dataRows codec original (runImportTask codec body x.job a').job)
        (runImportTask codec body x.job a').job.columnMapping entry
      rw [dataRows_congr codec original hconfig, hmapping]
      rcases committed_runImportTask hentry with hold | ⟨hlo, -, hcommit⟩
      · exact h.commits entry hold
      · obtain ⟨row, hrow, hconvert⟩ := Pass.commit?_some (c := pass codec body x.job a') hcommit
        have hrows : (attemptRows codec body x.job a')[entry.1 - 1]? = some row := hrow
        obtain ⟨hlength, -⟩ := List.getElem?_eq_some_iff.mp hrows
        refine ⟨row, by omega, ?_, hconvert⟩
        rw [← hrest, List.getElem?_append_left hlength]
        exact hrows

theorem Single.step {job₀ : ImportJob} (h : Single codec original job₀ x) {a : ImportingAction}
    (hdesignates : Designates original x a) : Single codec original job₀ (importingStep cfg codec x a) := by
  cases a with
  | request a => exact h.request a
  | load => exact h.load hdesignates
  | attempt a => exact h.attempt a

end Key

/-- However the steps of requests on the file come between those of the attempts, and between the reading of the row
and the opening of the object, every row that is committed is one of the content the file had when the job was created,
so long as no attempt reads the row while it designates another content. -/
theorem singleVersion_of_designates (cfg : Storage.Config) (codec : Codec) (folder : Option Uuid)
    (displayFilename : String) (uploaded : Bytes) (isClean : Bool) (s : Storage.State)
    (hcreated : Storage.uploadFile cfg folder displayFilename uploaded isClean = some s)
    (before : List Storage.Action) (job : State) (hfresh : Fresh job) (as : List ImportingAction) :
    let files := run (Storage.step cfg) ⟨s, fun _ => none⟩ before
    Always (importingStep cfg codec) (Designates (content files.state)) (created files job) as →
      CommitsFrom codec (content files.state) (run (importingStep cfg codec) (created files job) as).job := by
  intro files hdesignates
  have hstart : Single codec (content files.state) job.job (created files job) := by
    refine ⟨Storage.numbered_of_run hcreated before, fun key hkey => ?_, rfl, fun entry hentry => ?_⟩
    · cases hkey
    · change entry ∈ job.committed at hentry
      rw [hfresh.committed] at hentry
      cases hentry
  exact (run_invariant (fun _ _ h hdesignates => h.step hdesignates) hstart hdesignates).commits

/-! ## A file with three rows -/

def csvBucket (versioningEnabled : Bool) : Storage.Config where
  versioningEnabled
  maxUploadSizeBytes := 100
  sha256 _ := []

def csvFile : Storage.State where
  file := ⟨none, "a.csv", "text/plain", ⟨0, 8, []⟩, .active⟩
  versions := []
  objects := [(0, threeRows)]
  nextKey := 1
  uploads := [⟨0, 8, []⟩]
  unclean := []

/-- Three rows again, of which the last is another. -/
def otherRows : List UInt8 := "n\n1\nx\n9\n".toList.map fun c => c.toNat.toUInt8

/-- The first attempt breaks off at the last row. A new version is uploaded, and is committed after the second attempt
has read the row and before it opens the object. -/
theorem singleVersion_of_designates_threeRows :
    CommitsFrom latin1 threeRows (run (importingStep (csvBucket true) latin1)
      (created ⟨csvFile, fun _ => none⟩ freshJob)
      [.load, .attempt (attempt (fun n => if n = 3 then .disconnected "gone" else .committed) 0),
        .request (.receive 0 (.uploadNewVersion otherRows true)), .request (.advance 0), .load, .request (.advance 0),
        .attempt (attempt (fun _ => .committed) 1)]).job := by
  refine singleVersion_of_designates (csvBucket true) latin1 none "a.csv" threeRows true csvFile rfl [] freshJob
    ⟨rfl, rfl, rfl, rfl, rfl, rfl, rfl⟩ _ ⟨?_, trivial, trivial, trivial, ?_, trivial, trivial, trivial⟩
  · intro body hbody
    cases hbody
    rfl
  · intro body hbody
    cases hbody
    rfl

/-- The first attempt breaks off at the last row, a new version is uploaded, and the second attempt goes on
with that one. -/
def importedTwice : List ImportingAction :=
  [.load, .attempt (attempt (fun n => if n = 3 then .disconnected "gone" else .committed) 0),
    .request (.receive 0 (.uploadNewVersion otherRows true)), .request (.advance 0), .request (.advance 0),
    .request (.advance 0), .load, .attempt (attempt (fun _ => .committed) 1)]

/-- The third row is committed as the new version has it. -/
theorem not_singleVersion_of_upload :
    ¬ CommitsFrom latin1 (content csvFile) (run (importingStep (csvBucket false) latin1)
      (created ⟨csvFile, fun _ => none⟩ freshJob) importedTwice).job := by
  intro h
  have hcommitted : (run (importingStep (csvBucket false) latin1) (created ⟨csvFile, fun _ => none⟩ freshJob)
      importedTwice).job.committed = [(1, [.int 1]), (3, [.int 9])] := rfl
  obtain ⟨row, -, hrow, hconvert⟩ := h (3, [.int 9]) (by rw [hcommitted]; simp)
  have hthird : (dataRows latin1 threeRows freshJob.job)[3 - 1]? = some ⟨[['n']], [['2']]⟩ := rfl
  cases hthird.symm.trans hrow
  have htwo : convertRow ⟨[['n']], [['2']]⟩ freshJob.job.columnMapping = .ok [.int 2] := rfl
  cases htwo.symm.trans hconvert

end Imports
