import IntraCloud.Exports.Proofs.JobsProofs
import IntraCloud.System.Contents
import IntraCloud.Transition.Proofs.RunsProofs

/-!
# Two runs that differ in the bytes of a bucket

Every request answers from the databases, but for those that open an object; and what is opened of the
bucket is refused to the user, or is not opened at all. What is written is the same in both runs.
-/

namespace Contents

open Authority Organizations Permissions Python Sharing Storage Transition

variable {Key : Type} {env : Env Key} {bucket user : Uuid} {c : Content} {objects objects' : Uuid → Option Bytes}

/-! ## Lookups -/

/-- A file that a lookup finds is one, and its bucket belongs to the organization that comes with it. -/
theorem memberFile_some {id organization : Uuid} {f : StoredFile}
    (h : memberFile c user id = some (f, organization)) : f ∈ c.files ∧ OwnedBy c f.bucket organization := by
  obtain ⟨g, hg, h⟩ := Option.bind_eq_some_iff.mp h
  obtain ⟨row, hrow, h⟩ := Option.bind_eq_some_iff.mp h
  obtain ⟨owner, howner, h⟩ := Option.bind_eq_some_iff.mp h
  obtain ⟨rfl, rfl⟩ := Prod.mk.inj (Option.some.inj h)
  have hfound := List.find?_some hrow
  simp only [Bool.and_eq_true, beq_iff_eq] at hfound
  exact ⟨List.mem_of_find?_eq_some hg, row, List.mem_of_find?_eq_some hrow, hfound.1.1, hfound.1.2, howner⟩

theorem ownedBy_of_bucketOrganization {id organization : Uuid}
    (h : bucketOrganization c id = some organization) : OwnedBy c id organization := by
  obtain ⟨row, hrow, h⟩ := Option.bind_eq_some_iff.mp h
  have hfound := List.find?_some hrow
  simp only [Bool.and_eq_true, beq_iff_eq] at hfound
  exact ⟨row, List.mem_of_find?_eq_some hrow, hfound.1, hfound.2, h⟩

/-! ## Reading -/

/-- A download by the user opens no object of the bucket. -/
theorem download_eq (hagree : Agree bucket c objects objects') (hwithheld : Withheld bucket user ⟨c, objects⟩)
    (id : Uuid) : download ⟨c, objects⟩ user id = download ⟨c, objects'⟩ user id := by
  unfold download
  dsimp only
  cases hfile : memberFile c user id with
  | none => rfl
  | some found =>
    obtain ⟨f, organization⟩ := found
    obtain ⟨hmem, howned⟩ := memberFile_some hfile
    dsimp only
    by_cases hbucket : f.bucket = bucket
    · have hdenied : require c user "storage.read" organization f.bucket = false := by
        rw [hbucket] at howned ⊢
        exact (hwithheld organization howned).1
      rw [hdenied]
      rfl
    · rw [hagree f hmem hbucket]

/-- Nor does a preview, where the user may not import. -/
theorem importPreview_eq (hagree : Agree bucket c objects objects') {id : Uuid}
    (hunread : ∀ f organization, memberFile c user id = some (f, organization) → f.bucket = bucket →
      allows c user "dataset.import" organization none = false) :
    importPreview env ⟨c, objects⟩ user id = importPreview env ⟨c, objects'⟩ user id := by
  unfold importPreview
  dsimp only
  cases hfile : memberFile c user id with
  | none => rfl
  | some found =>
    obtain ⟨f, organization⟩ := found
    dsimp only
    by_cases hbucket : f.bucket = bucket
    · rw [hunread f organization hfile hbucket]
      rfl
    · rw [hagree f (memberFile_some hfile).1 hbucket]

/-! ## Writing -/

theorem SameOutside.mk_of_agree (h : Agree bucket c objects objects') :
    SameOutside bucket ⟨c, objects⟩ ⟨c, objects'⟩ := ⟨rfl, h⟩

/-- The objects stay the same when the files keep their buckets and their keys. -/
theorem Agree.of_keeps {c' : Content} (h : Agree bucket c objects objects') (hkeeps : KeepsKeys c c') :
    Agree bucket c' objects objects' := by
  intro f hf hbucket
  obtain ⟨g, hg, hsame, hkey⟩ := hkeeps f hf
  rw [← hkey]
  exact h g hg (hsame.trans_ne hbucket)

theorem Agree.of_files_eq {c' : Content} (h : Agree bucket c objects objects') (hfiles : c'.files = c.files) :
    Agree bucket c' objects objects' := fun f hf => h f (hfiles ▸ hf)

/-- A new object is the same in both. -/
theorem Agree.update (h : Agree bucket c objects objects') (key : Uuid) (data : Option Bytes) :
    Agree bucket c (Function.update objects key data) (Function.update objects' key data) := by
  intro f hf hbucket
  by_cases hkey : f.file.pointer.objectKey = key
  · rw [hkey, Function.update_self, Function.update_self]
  · rw [Function.update_of_ne hkey, Function.update_of_ne hkey]
    exact h f hf hbucket

theorem Agree.put (h : Agree bucket c objects objects') (u : Upload) :
    Agree bucket c (putObject objects u) (putObject objects' u) := h.update u.key (some u.data)

/-- A file may be added whose object is the same in both. -/
theorem Agree.of_files {c' : Content} (h : Agree bucket c objects objects')
    (hfiles : ∀ f ∈ c'.files, f ∈ c.files ∨
      objects f.file.pointer.objectKey = objects' f.file.pointer.objectKey) :
    Agree bucket c' objects objects' := fun f hf hbucket => (hfiles f hf).elim (h f · hbucket) id

theorem uploaded_key {data : Bytes} {isClean : Bool} {key : Uuid} {pointer : Pointer} {mimeType : String}
    {status : FileStatus} (h : uploaded env data isClean key = some (pointer, mimeType, status)) :
    pointer.objectKey = key := by
  obtain ⟨found, -, h⟩ := Option.map_eq_some_iff.mp h
  obtain ⟨rfl, -⟩ := Prod.mk.inj h
  rfl

theorem uploadedFile_key {id : Uuid} {u : Upload} {f : StoredFile} (h : uploadedFile env id u = some f) :
    f.file.pointer.objectKey = u.key := by
  obtain ⟨⟨pointer, mimeType, status⟩, hupload, rfl⟩ := Option.map_eq_some_iff.mp h
  exact uploaded_key hupload

theorem putObject_key (u : Upload) (objects objects' : Uuid → Option Bytes) :
    putObject objects u u.key = putObject objects' u u.key := by
  rw [putObject, putObject, Function.update_self, Function.update_self]

theorem uploadFile_same (hagree : Agree bucket c objects objects') (id : Uuid) (u : Upload) :
    (uploadFile env ⟨c, objects⟩ user id u).2 = (uploadFile env ⟨c, objects'⟩ user id u).2 ∧
      SameOutside bucket (uploadFile env ⟨c, objects⟩ user id u).1 (uploadFile env ⟨c, objects'⟩ user id u).1 := by
  unfold uploadFile
  dsimp only
  cases memberBucket c user id with
  | none => exact ⟨rfl, .mk_of_agree hagree⟩
  | some organization =>
    dsimp only
    split_ifs with hwrite hfolder
    · exact ⟨rfl, .mk_of_agree hagree⟩
    · exact ⟨rfl, .mk_of_agree hagree⟩
    · cases hupload : uploadedFile env id u with
      | none => exact ⟨rfl, .mk_of_agree hagree⟩
      | some new =>
        have hupdated := hagree.put u
        dsimp only
        split_ifs with hclash
        · exact ⟨rfl, .mk_of_agree hupdated⟩
        · refine ⟨rfl, .mk_of_agree (hupdated.of_files fun f hf => ?_)⟩
          obtain hold | hnew := List.mem_append.mp hf
          · exact .inl hold
          · obtain rfl := List.mem_singleton.mp hnew
            right
            rw [uploadedFile_key hupload]
            exact putObject_key u _ _

theorem uploadNewVersion_same (hagree : Agree bucket c objects objects') (id : Uuid) (u : Upload) :
    (uploadNewVersion env ⟨c, objects⟩ user id u).2 = (uploadNewVersion env ⟨c, objects'⟩ user id u).2 ∧
      SameOutside bucket (uploadNewVersion env ⟨c, objects⟩ user id u).1
        (uploadNewVersion env ⟨c, objects'⟩ user id u).1 := by
  unfold uploadNewVersion
  dsimp only
  cases memberFile c user id with
  | none => exact ⟨rfl, .mk_of_agree hagree⟩
  | some found =>
    obtain ⟨f, organization⟩ := found
    dsimp only
    by_cases hwrite : (!require c user "storage.write" organization f.bucket) = true
    · simp only [if_pos hwrite]
      exact ⟨trivial, .mk_of_agree hagree⟩
    · simp only [if_neg hwrite]
      cases hupload : uploaded env u.data u.isClean u.key with
      | none => exact ⟨rfl, .mk_of_agree hagree⟩
      | some result =>
        obtain ⟨pointer, mimeType, status⟩ := result
        have hupdated := hagree.put u
        dsimp only
        obtain ⟨new, hnew⟩ : ∃ new : StoredFile,
            new = { f with file := { f.file with pointer, mimeType, status } } := ⟨_, rfl⟩
        have hkey : new.file.pointer.objectKey = u.key := by
          rw [hnew]
          exact uploaded_key hupload
        simp only [← hnew]
        by_cases hclash : clashes c new = true
        · simp only [if_pos hclash]
          exact ⟨trivial, .mk_of_agree hupdated⟩
        · simp only [if_neg hclash]
          have hreplaced : Agree bucket
              { c with files := c.files.map fun g => if g.id = id then new else g }
              (putObject objects u) (putObject objects' u) := by
            refine hupdated.of_files fun g hg => ?_
            obtain ⟨old, hold, rfl⟩ := List.mem_map.mp hg
            by_cases hid : old.id = id
            · right
              rw [if_pos hid, hkey]
              exact putObject_key u _ _
            · left
              rw [if_neg hid]
              exact hold
          by_cases hversioned : c.versioned.contains f.bucket = true
          · simp only [if_pos hversioned]
            exact ⟨trivial, .mk_of_agree hreplaced⟩
          · simp only [if_neg hversioned]
            exact ⟨trivial, .mk_of_agree (hreplaced.update f.file.pointer.objectKey none)⟩

/-! ## The other requests -/

theorem startImport_same (hagree : Agree bucket c objects objects') (tableId fileId : Uuid) (encoding : String)
    (delimiter : List Char) (mapping : List Imports.ColumnMapping) (id : Uuid) :
    (startImport ⟨c, objects⟩ user tableId fileId encoding delimiter mapping id).2 =
        (startImport ⟨c, objects'⟩ user tableId fileId encoding delimiter mapping id).2 ∧
      SameOutside bucket (startImport ⟨c, objects⟩ user tableId fileId encoding delimiter mapping id).1
        (startImport ⟨c, objects'⟩ user tableId fileId encoding delimiter mapping id).1 := by
  unfold startImport
  dsimp only
  cases memberTable c user tableId with
  | none => exact ⟨rfl, .mk_of_agree hagree⟩
  | some organization =>
    cases memberFile c user fileId with
    | none => exact ⟨rfl, .mk_of_agree hagree⟩
    | some found =>
      dsimp only
      split_ifs
      · exact ⟨rfl, .mk_of_agree hagree⟩
      · exact ⟨rfl, .mk_of_agree hagree⟩
      · exact ⟨rfl, .mk_of_agree hagree⟩
      · exact ⟨rfl, .mk_of_agree (hagree.of_files_eq rfl)⟩

theorem startExport_same (hagree : Agree bucket c objects objects') (organization : Uuid) (encrypted : Bool)
    (id : Uuid) :
    (startExport ⟨c, objects⟩ user organization encrypted id).2 =
        (startExport ⟨c, objects'⟩ user organization encrypted id).2 ∧
      SameOutside bucket (startExport ⟨c, objects⟩ user organization encrypted id).1
        (startExport ⟨c, objects'⟩ user organization encrypted id).1 := by
  unfold startExport
  dsimp only
  cases getMemberOrganization c.authority.directory user organization with
  | none => exact ⟨rfl, .mk_of_agree hagree⟩
  | some found =>
    dsimp only
    split_ifs
    · exact ⟨rfl, .mk_of_agree hagree⟩
    · exact ⟨rfl, .mk_of_agree (hagree.of_files_eq rfl)⟩

theorem stageRestore_same (hagree : Agree bucket c objects objects') (package : Option Bytes) (id : Uuid) :
    (stageRestore env ⟨c, objects⟩ user package id).2 = (stageRestore env ⟨c, objects'⟩ user package id).2 ∧
      SameOutside bucket (stageRestore env ⟨c, objects⟩ user package id).1
        (stageRestore env ⟨c, objects'⟩ user package id).1 := by
  cases package with
  | none => exact ⟨rfl, .mk_of_agree hagree⟩
  | some data =>
    unfold stageRestore
    dsimp only
    split_ifs
    · exact ⟨rfl, .mk_of_agree hagree⟩
    · exact ⟨rfl, .mk_of_agree (hagree.of_files_eq rfl)⟩

/-- A request that reads none of the bucket, or not the user's, keeps the states the same but for the bucket. -/
theorem serve_same (hagree : Agree bucket c objects objects') (actor : Uuid) (r : Request) :
    SameOutside bucket (serve env ⟨c, objects⟩ actor r).1 (serve env ⟨c, objects'⟩ actor r).1 := by
  cases r with
  | uploadFile id u => exact (uploadFile_same hagree id u).2
  | uploadNewVersion id u => exact (uploadNewVersion_same hagree id u).2
  | startImport tableId fileId encoding delimiter mapping id =>
    exact (startImport_same hagree tableId fileId encoding delimiter mapping id).2
  | startExport organization encrypted id => exact (startExport_same hagree organization encrypted id).2
  | stageRestore package id => exact (stageRestore_same hagree package id).2
  | other r => exact .mk_of_agree (hagree.of_keeps (r.change.keeps c))
  | _ => exact .mk_of_agree hagree

/-- The user's requests that read none of the bucket are answered in the same way. -/
theorem response_same (hagree : Agree bucket c objects objects') (hwithheld : Withheld bucket user ⟨c, objects⟩)
    {r : Request} (hunread : Unread bucket user ⟨c, objects⟩ (.request user r)) :
    (serve env ⟨c, objects⟩ user r).2 = (serve env ⟨c, objects'⟩ user r).2 := by
  cases r with
  | download id => exact download_eq hagree hwithheld id
  | importPreview id => exact importPreview_eq hagree (hunread rfl)
  | uploadFile id u => exact (uploadFile_same hagree id u).1
  | uploadNewVersion id u => exact (uploadNewVersion_same hagree id u).1
  | startImport tableId fileId encoding delimiter mapping id =>
    exact (startImport_same hagree tableId fileId encoding delimiter mapping id).1
  | startExport organization encrypted id => exact (startExport_same hagree organization encrypted id).1
  | stageRestore package id => exact (stageRestore_same hagree package id).1
  | _ => rfl

/-! ## The tasks -/

theorem runImport_same (hagree : Agree bucket c objects objects') {jobId : Uuid} {a : Imports.Attempt}
    (hunread : Unread bucket user ⟨c, objects⟩ (.runImport jobId a)) :
    SameOutside bucket (runImport env ⟨c, objects⟩ jobId a) (runImport env ⟨c, objects'⟩ jobId a) := by
  unfold runImport
  dsimp only
  cases hjob : c.imports.find? fun job => job.id == jobId with
  | none => exact .mk_of_agree hagree
  | some job =>
    have hbody : ((c.files.find? fun f => f.id == job.file).bind fun f => objects f.file.pointer.objectKey) =
        (c.files.find? fun f => f.id == job.file).bind fun f => objects' f.file.pointer.objectKey := by
      cases hfile : c.files.find? fun f => f.id == job.file with
      | none => rfl
      | some f => exact hagree f (List.mem_of_find?_eq_some hfile) (hunread job hjob f hfile)
    dsimp only
    rw [hbody]
    exact .mk_of_agree (hagree.of_files_eq rfl)

theorem exportedFiles_eq (hagree : Agree bucket c objects objects') {organization : Uuid}
    (hother : ¬ OwnedBy c bucket organization) :
    exportedFiles ⟨c, objects⟩ organization = exportedFiles ⟨c, objects'⟩ organization := by
  refine List.map_congr_left fun f hf => ?_
  obtain ⟨hmem, hexported⟩ := List.mem_filter.mp hf
  have howner : bucketOrganization c f.bucket = some organization :=
    beq_iff_eq.mp (Bool.and_eq_true_iff.mp hexported).2
  have hbucket : f.bucket ≠ bucket := by
    rintro rfl
    exact hother (ownedBy_of_bucketOrganization howner)
  exact congrArg (Prod.mk f) (hagree f hmem hbucket)

theorem runExport_same (hagree : Agree bucket c objects objects') {jobId : Uuid} {a : Exports.ExportAttempt}
    (hunread : Unread bucket user ⟨c, objects⟩ (.runExport jobId a)) :
    SameOutside bucket (runExport env ⟨c, objects⟩ jobId a) (runExport env ⟨c, objects'⟩ jobId a) := by
  unfold runExport
  dsimp only
  cases hjob : c.exports.find? fun job => job.id == jobId with
  | none => exact .mk_of_agree hagree
  | some job =>
    dsimp only
    rw [exportedFiles_eq hagree (hunread job hjob)]
    exact .mk_of_agree (hagree.of_files_eq rfl)

/-- What a restore stores is the same in both. -/
theorem Agree.puts (h : Agree bucket c objects objects') (files : List (StoredFile × Upload)) :
    Agree bucket c (files.foldl (fun objects f => putObject objects f.2) objects)
      (files.foldl (fun objects f => putObject objects f.2) objects') := by
  induction files generalizing objects objects' with
  | nil => exact h
  | cons f files ih => exact ih (h.put f.2)

/-- The objects of the files it adds included. -/
theorem putObjects_eq {files : List (StoredFile × Upload)} {key : Uuid}
    (h : objects key = objects' key ∨ ∃ f ∈ files, f.2.key = key) :
    files.foldl (fun objects f => putObject objects f.2) objects key =
      files.foldl (fun objects f => putObject objects f.2) objects' key := by
  induction files generalizing objects objects' with
  | nil => exact h.elim id fun ⟨f, hf, _⟩ => absurd hf List.not_mem_nil
  | cons f files ih =>
    rw [List.foldl_cons, List.foldl_cons]
    by_cases hkey : f.2.key = key
    · refine ih (.inl ?_)
      rw [← hkey]
      exact putObject_key f.2 objects objects'
    · refine ih (h.imp (fun hsame => ?_) fun ⟨g, hg, hgkey⟩ => ?_)
      · rw [putObject, putObject, Function.update_of_ne (Ne.symm hkey), Function.update_of_ne (Ne.symm hkey), hsame]
      · obtain rfl | hg := List.mem_cons.mp hg
        · exact absurd hgkey hkey
        · exact ⟨g, hg, hgkey⟩

theorem restoredFiles_key {uploads : List (Uuid × Upload)} {f : StoredFile × Upload}
    (h : f ∈ restoredFiles env uploads) : f.1.file.pointer.objectKey = f.2.key := by
  obtain ⟨u, -, hupload⟩ := List.mem_filterMap.mp h
  obtain ⟨new, hnew, rfl⟩ := Option.map_eq_some_iff.mp hupload
  exact uploadedFile_key hnew

/-- The files after a restore were there before, or it has written them. -/
theorem mem_commitRestore {r : Restoration} {files : List (StoredFile × Upload)} {tenant default : Bool}
    {f : StoredFile} (h : f ∈ (commitRestore r files tenant default c).files) :
    (∃ g ∈ c.files, g.bucket = f.bucket ∧ g.file.pointer.objectKey = f.file.pointer.objectKey) ∨
      default = true ∧ f ∈ files.map Prod.fst := by
  have htenant : KeepsKeys c (if tenant then (r.change .tenant).apply c else c) := by
    cases tenant with
    | true => exact (r.change .tenant).keeps c
    | false => exact fun f hf => ⟨f, hf, rfl, rfl⟩
  cases default with
  | false => exact .inl (htenant f h)
  | true =>
    obtain hold | hnew := List.mem_append.mp h
    · obtain ⟨g, hg, hbucket, hkey⟩ := (r.change .default).keeps _ f hold
      obtain ⟨g', hg', hbucket', hkey'⟩ := htenant g hg
      exact .inl ⟨g', hg', hbucket'.trans hbucket, hkey'.trans hkey⟩
    · exact .inr ⟨rfl, hnew⟩

theorem runRestore_same (hagree : Agree bucket c objects objects') (jobId : Uuid)
    (passphrase : Option (List Char)) (a : Exports.RestoreAttempt) (puts : Nat) :
    SameOutside bucket (runRestore env ⟨c, objects⟩ jobId passphrase a puts)
      (runRestore env ⟨c, objects'⟩ jobId passphrase a puts) := by
  unfold runRestore
  dsimp only
  cases c.restores.find? fun r => r.job.id == jobId with
  | none => exact .mk_of_agree hagree
  | some started =>
    dsimp only
    cases openedPackage (env.reading passphrase) ⟨started.job, c.packages, fun _ => [], []⟩ a with
    | none => exact .mk_of_agree (hagree.of_files_eq rfl)
    | some package =>
      dsimp only
      refine .mk_of_agree fun f hf hbucket => ?_
      obtain ⟨g, hg, hsame, hkey⟩ | ⟨hcommitted, hnew⟩ := mem_commitRestore hf
      · rw [← hkey]
        exact hagree.puts _ g hg (hsame.trans_ne hbucket)
      · obtain ⟨new, hmem, rfl⟩ := List.mem_map.mp hnew
        rw [if_pos hcommitted]
        exact putObjects_eq (.inr ⟨new, hmem, (restoredFiles_key hmem).symm⟩)

/-! ## Runs -/

theorem SameOutside.step {s s' : State} (h : SameOutside bucket s s') {a : Action}
    (hunread : Unread bucket user s a) : SameOutside bucket (Contents.step env s a) (Contents.step env s' a) := by
  obtain ⟨c, objects⟩ := s
  obtain ⟨c', objects'⟩ := s'
  obtain ⟨rfl, hagree⟩ := h
  cases a with
  | request actor r => exact serve_same hagree actor r
  | runImport jobId a => exact runImport_same hagree hunread
  | runExport jobId a => exact runExport_same hagree hunread
  | runRestore jobId passphrase a puts => exact runRestore_same hagree jobId passphrase a puts

theorem SameOutside.received_eq {s s' : State} (h : SameOutside bucket s s') (hwithheld : Withheld bucket user s)
    {a : Action} (hunread : Unread bucket user s a) : received env user s a = received env user s' a := by
  obtain ⟨c, objects⟩ := s
  obtain ⟨c', objects'⟩ := s'
  obtain ⟨rfl, hagree⟩ := h
  cases a with
  | request actor r =>
    show (if actor = user then some (serve env ⟨c, objects⟩ actor r).2 else none) =
      if actor = user then some (serve env ⟨c, objects'⟩ actor r).2 else none
    by_cases hactor : actor = user
    · subst hactor
      rw [response_same hagree hwithheld hunread]
    · rw [if_neg hactor, if_neg hactor]
  | runImport jobId a => rfl
  | runExport jobId a => rfl
  | runRestore jobId passphrase a puts => rfl

/-- The user receives the same of both runs, if the bucket is withheld from the user throughout and nothing of
it is previewed, imported or exported. -/
theorem observations_eq_of_unread {s s' : State} (hsame : SameOutside bucket s s') {as : List Action}
    (h : Always (step env) (fun s a => Withheld bucket user s ∧ Unread bucket user s a) s as) :
    observations (step env) (received env user) s as = observations (step env) (received env user) s' as := by
  refine observations_eq_of_unwinding (R := SameOutside bucket) ?_ ?_ hsame h
  · exact fun _ _ _ hsame h => hsame.received_eq h.1 h.2
  · exact fun _ _ _ hsame h => hsame.step h.2

/-! ## A developer -/

/-- What is withheld depends on the memberships, the roles and the rows of the resources. -/
theorem Withheld.of_authority {s s' : State} (h : Withheld bucket user s)
    (hsame : s'.content.authority = s.content.authority) : Withheld bucket user s' := by
  unfold Withheld OwnedBy Contents.require allows at h ⊢
  rw [hsame]
  exact h

theorem startImport_authority (s : State) (user tableId fileId : Uuid) (encoding : String) (delimiter : List Char)
    (mapping : List Imports.ColumnMapping) (id : Uuid) :
    (startImport s user tableId fileId encoding delimiter mapping id).1.content.authority =
      s.content.authority := by
  unfold startImport
  cases memberTable s.content user tableId with
  | none => rfl
  | some organization =>
    cases memberFile s.content user fileId with
    | none => rfl
    | some found =>
      dsimp only
      split_ifs <;> rfl

/-- A restore whose statements change no membership and no role. -/
theorem runRestore_authority (env : Env Key) (hkeeps : ∀ c actor archive manifest connection c',
      (((env.restorePackage c actor archive manifest).change connection).apply c').authority = c'.authority)
    (s : State) (jobId : Uuid) (passphrase : Option (List Char)) (a : Exports.RestoreAttempt) (puts : Nat) :
    (runRestore env s jobId passphrase a puts).content.authority = s.content.authority := by
  unfold runRestore
  cases s.content.restores.find? fun r => r.job.id == jobId with
  | none => rfl
  | some started =>
    dsimp only
    cases openedPackage (env.reading passphrase) ⟨started.job, s.content.packages, fun _ => [], []⟩ a with
    | none => rfl
    | some package =>
      dsimp only
      unfold commitRestore
      split_ifs <;> simp only [hkeeps]

/-- An organization with a developer, 10, and a bucket, 4, with one file, 5, whose object is 6. The developer
has started a restore, 9, of a package. -/
def exampleContent (package : Bytes) : Content where
  authority := { start with
    directory := { start.directory with
      memberships := [⟨10, 1, none, .active⟩]
      tables := { start.directory.tables with
        roleAssignments := (systemRole? "developer").toList.map fun role => ⟨10, role, some 1⟩ } }
    rows := [⟨.workspace, 2, 1⟩, ⟨.project, 3, 2⟩, ⟨.bucket, 4, 3⟩] }
  files := [⟨5, 4, ⟨none, "a.csv", "text/plain", ⟨6, 1, []⟩, .active⟩⟩]
  folders := []
  versioned := []
  columns := fun _ => []
  imports := []
  exports := []
  restores := [⟨10, ⟨9, .pending, stagingKey 9, none, .dict [], none, none⟩⟩]
  packages := [(stagingKey 9, package)]

/-- Texts are ASCII, and a package has one file. -/
def exampleEnv : Env Bytes where
  codec _ bytes := some (bytes.map fun b => Char.ofNat b.toNat)
  sniff _ := none
  inferType _ := .text
  maxUploadSizeBytes := 100
  sha256 := fun _ => []
  buildExport := fun _ _ _ => .error ""
  reading passphrase := { Exports.forgedReading with passphrase }
  restorePackage _ _ _ _ :=
    ⟨fun _ => ⟨id, fun _ f hf => ⟨f, hf, rfl, rfl⟩⟩, [(11, ⟨none, "x", [0x78], true, 12, 13⟩)]⟩

theorem exampleContent_same (package : Bytes) (objects objects' : Uuid → Option Bytes) :
    SameOutside 4 ⟨exampleContent package, objects⟩ ⟨exampleContent package, objects'⟩ := by
  refine ⟨rfl, fun f hf hbucket => absurd ?_ hbucket⟩
  rw [List.mem_singleton.mp hf]

theorem exampleContent_withheld (package : Bytes) (objects : Uuid → Option Bytes) :
    Withheld 4 10 ⟨exampleContent package, objects⟩ := by
  have hempty : Withheld 4 10 ⟨exampleContent [], objects⟩ := by
    have horganization : ∀ r ∈ (exampleContent []).authority.rows, r.kind = .bucket →
        r.organization (exampleContent []).authority.rows = some 1 := by decide
    rintro organization ⟨r, hr, hkind, -, howned⟩
    obtain rfl := Option.some.inj ((horganization r hr hkind).symm.trans howned)
    show require (exampleContent []) 10 "storage.read" 1 4 = false ∧
      allows (exampleContent []) 10 "export.manage" 1 none = false
    decide
  exact hempty.of_authority rfl

/-- The developer asks for the file, starts an import of it, and restores a package, while the object is one
or the other. -/
def exampleRun : List Action :=
  [.request 10 (.download 5), .request 10 (.startImport 7 5 "utf-8" [','] [] 8),
    .runRestore 9 none (Exports.restoreAttempt false none) 0, .request 10 (.restoreJob 9)]

theorem observations_eq_of_unread_example : ∃ package,
    Exports.ValidPackage (exampleEnv.reading none) package ∧
      observations (step exampleEnv) (received exampleEnv 10) ⟨exampleContent package, fun _ => some [0x61]⟩
          exampleRun =
        observations (step exampleEnv) (received exampleEnv 10) ⟨exampleContent package, fun _ => some [0x62]⟩
          exampleRun := by
  obtain ⟨package, hvalid⟩ := Exports.validPackage_forged
  have hstart := exampleContent_withheld package fun _ => some [0x61]
  have himport := hstart.of_authority (startImport_authority _ 10 7 5 "utf-8" [','] [] 8)
  have hrestore := himport.of_authority (runRestore_authority exampleEnv (fun _ _ _ _ _ _ => rfl) _ 9 none
    (Exports.restoreAttempt false none) 0)
  exact ⟨package, hvalid, observations_eq_of_unread (exampleContent_same package _ _)
    ⟨⟨hstart, trivial⟩, ⟨hstart, trivial⟩, ⟨himport, trivial⟩, ⟨hrestore, trivial⟩, trivial⟩⟩

/-- A developer may import and not read, and the preview of an import shows the file. -/
theorem not_confidential_of_preview : ¬ Confidential exampleEnv 4 10 := by
  intro h
  have hrun := h _ _ [.request 10 (.importPreview 5)]
    (exampleContent_same [] (fun _ => some [0x61]) fun _ => some [0x62]) (fun _ _ _ => rfl)
    ⟨exampleContent_withheld [] _, trivial⟩
  have hheaders := congrArg (List.map fun | .preview p => p.headers | _ => []) hrun
  exact absurd hheaders (by decide)

end Contents
