import IntraCloud.Exports.Proofs.ContainerProofs
import IntraCloud.Python.Proofs.JsonValueProofs
import IntraCloud.System.Proofs.BackupsProofs
import Mathlib.Data.List.DropRight

/-!
# Backups of the object store and their verification

The writer adds a member for each object and last the manifest; the verifier takes the first member of the
manifest's name for it, and goes over the members, not over the manifest. So an object may take the place of
the manifest, and an entry of the manifest may have no member.
-/

namespace Backups

open Exports Python

variable {Key : Type} {env : Env Key} {faults : Faults} {w : World}

/-! ## Archives -/

/-- The name under which `tarfile` reads a member back. A name that is too long for the header, or no ASCII
text, is in a PAX record, and loses its last slashes; the others end at a NUL. -/
def readName (name : List Char) : List Char :=
  if 100 < name.length ∨ name.any (128 ≤ ·.toNat) = true then name.rdropWhile (· = '/')
  else name.takeWhile (· ≠ '\x00')

/-- What the archive of a backup is read back as. -/
def membersOf (env : Env Key) (objects : List (List Char × Bytes)) : List TarMember :=
  (objects ++ [(MANIFEST, manifestBytes (objects.map fun o => (o.1, .str (env.hexdigest o.2))))]).map
    fun e => ⟨readName e.1, .file e.2⟩

/-- The members other than the manifest. -/
def archived (members : List TarMember) : List TarMember := members.eraseP fun m => m.name = MANIFEST

/-- The archive of a record that can be verified: its members and its manifest. -/
def Opened (env : Env Key) (w : World) (record : BackupRecord) (members : List TarMember)
    (manifest : PyJson) : Prop :=
  record.status = .success ∧ record.filePath ≠ [] ∧ ∃ data, plainContent env w record.filePath = .ok data ∧
    env.tar.getmembers data = some members ∧ readManifest members = .ok manifest

/-- The hash of a name in a manifest. -/
def Listed (env : Env Key) (manifest : PyJson) (name : List Char) (data : Bytes) : Prop :=
  ∃ entries, manifest = .dict entries ∧ Json.member? name entries = some (.str (env.hexdigest data))

/-- The archive's objects are exactly the keys of its manifest, and each has the manifest's hash. -/
def Exact (env : Env Key) (members : List TarMember) (manifest : PyJson) : Prop :=
  (∃ entries, manifest = .dict entries ∧
    ∀ key ∈ entries.map (·.1), ∃ data, ⟨key, .file data⟩ ∈ archived members) ∧
  ∀ name data, ⟨name, .file data⟩ ∈ archived members → Listed env manifest name data

/-! ## What the verification checks -/

/-- What is checked of a member. -/
def MemberChecked (env : Env Key) (scratchPrefix : List Char) (manifest : PyJson) (m : TarMember) : Prop :=
  m.name = MANIFEST ∨ m.extracted = .noFile ∨ ∃ data, m.extracted = .file data ∧
    Listed env manifest m.name data ∧ env.accepts (scratchPrefix ++ m.name) = true

/-- What is checked of an archive. -/
def Checked (env : Env Key) (record : BackupRecord) (members : List TarMember) (manifest : PyJson) : Prop :=
  ∀ m ∈ members, MemberChecked env (scratchPrefix record) manifest m

theorem expectedHash_eq_iff {manifest : PyJson} {name h : List Char} :
    (∃ expected, expectedHash manifest name = .ok expected ∧ expected.bind PyJson.asStr = some h) ↔
      ∃ entries, manifest = .dict entries ∧ Json.member? name entries = some (.str h) := by
  unfold expectedHash
  constructor
  · rintro ⟨expected, hok, hstr⟩
    cases manifest with
    | dict entries =>
      obtain rfl := Except.ok.inj hok
      obtain ⟨value, hvalue, hasStr⟩ := Option.bind_eq_some_iff.mp hstr
      cases value with
      | str s =>
        obtain rfl := Option.some.inj hasStr
        exact ⟨entries, rfl, hvalue⟩
      | _ => cases hasStr
    | _ => cases hok
  · rintro ⟨entries, rfl, hmember⟩
    exact ⟨_, rfl, by rw [hmember]; rfl⟩

theorem get_put (b : Bucket) (key : List Char) (data : Bytes) : (b.put key data).get key = some data := by
  have hnone : (b.delete key).objects.find? (fun o => decide (o.1 = key)) = none := by
    refine List.find?_eq_none.mpr fun o ho heq => ?_
    exact of_decide_eq_true (List.mem_filter.mp ho).2 (of_decide_eq_true heq)
  show ((((b.delete key).objects ++ [(key, data)]).find? fun o => o.1 = key).map (·.2)) = some data
  rw [List.find?_append, hnone]
  simp

/-- A member that is a file goes through where it is listed and its key is taken. -/
theorem restoreFile_ok_iff {p : List Char} {manifest : PyJson} {s : Scratch} {name : List Char} {data : Bytes} :
    (restoreFile env p manifest (accepting env (p ++ name)) s name data).2 = .ok () ↔
      Listed env manifest name data ∧ env.accepts (p ++ name) = true := by
  unfold Listed
  rw [← expectedHash_eq_iff]
  unfold restoreFile accepting
  cases hexpected : expectedHash manifest name with
  | error e => exact iff_of_false nofun fun ⟨⟨_, h, _⟩, _⟩ => nomatch h
  | ok expected =>
    dsimp only
    by_cases hhash : expected.bind PyJson.asStr = some (env.hexdigest data)
    · rw [if_neg (not_not_intro hhash)]
      by_cases haccepts : env.accepts (p ++ name) = true
      · rw [if_pos haccepts]
        dsimp only
        rw [if_neg Bool.noConfusion, get_put, Option.map_some, if_neg (not_not_intro rfl)]
        exact iff_of_true rfl ⟨⟨expected, rfl, hhash⟩, haccepts⟩
      · rw [if_neg haccepts]
        exact iff_of_false nofun fun h => haccepts h.2
    · rw [if_pos hhash]
      refine iff_of_false nofun fun ⟨⟨expected', h, hhash'⟩, _⟩ => hhash ?_
      obtain rfl := Except.ok.inj h
      exact hhash'

/-- The loop succeeds exactly where every member passes its check. -/
theorem restoreMembers_ok_iff {p : List Char} {manifest : PyJson} {s : Scratch} {members : List TarMember} :
    (restoreMembers env p manifest s (untroubled env p members)).2 = .ok () ↔
      ∀ m ∈ members, MemberChecked env p manifest m := by
  induction members generalizing s with
  | nil => exact iff_of_true rfl nofun
  | cons m rest ih =>
    have hcons : untroubled env p (m :: rest) = (m, accepting env (p ++ m.name)) :: untroubled env p rest := rfl
    rw [List.forall_mem_cons, hcons, restoreMembers]
    by_cases hname : m.name = MANIFEST
    · rw [if_pos hname, ih]
      exact ⟨fun h => ⟨.inl hname, h⟩, fun h => h.2⟩
    · rw [if_neg hname]
      cases hextracted : m.extracted with
      | noFile =>
        dsimp only
        rw [ih]
        exact ⟨fun h => ⟨.inr (.inl hextracted), h⟩, fun h => h.2⟩
      | raises =>
        refine iff_of_false nofun fun h => ?_
        obtain h | h | ⟨data, h, -⟩ := h.1
        · exact hname h
        · exact nomatch hextracted.symm.trans h
        · exact nomatch hextracted.symm.trans h
      | file data =>
        dsimp only
        have hmember : MemberChecked env p manifest m ↔
            (restoreFile env p manifest (accepting env (p ++ m.name)) s m.name data).2 = .ok () := by
          rw [restoreFile_ok_iff]
          constructor
          · rintro (h | h | ⟨data', h, hlisted⟩)
            · exact absurd h hname
            · exact nomatch hextracted.symm.trans h
            · obtain rfl := Extracted.file.inj (hextracted.symm.trans h)
              exact hlisted
          · exact fun h => .inr (.inr ⟨data, hextracted, h⟩)
        rw [hmember]
        obtain ⟨s', e | _⟩ := restoreFile env p manifest (accepting env (p ++ m.name)) s m.name data
        · exact iff_of_false nofun fun h => nomatch h.1
        · exact ih.trans ⟨fun h => ⟨rfl, h⟩, fun h => h.2⟩

/-- A record is verified exactly where its archive opens and is checked. -/
theorem verified_iff (record : BackupRecord) :
    (verifyObjectStorageBackupRestorable env w record).2.verifiedRestorable = true ↔
      ∃ members manifest, Opened env w record members manifest ∧ Checked env record members manifest := by
  unfold verifyObjectStorageBackupRestorable Opened
  by_cases hcompleted : record.status ≠ .success ∨ record.filePath = []
  · rw [if_pos hcompleted]
    exact iff_of_false nofun fun ⟨_, _, ⟨hsuccess, hpath, _⟩, _⟩ =>
      hcompleted.elim (fun h => h hsuccess) hpath
  · rw [if_neg hcompleted]
    obtain ⟨hsuccess, hpath⟩ := not_or.mp hcompleted
    have hverified : ((verifyArchive env (untroubled env) w record).2 = .ok ()) ↔
        ∃ members manifest, (record.status = .success ∧ record.filePath ≠ [] ∧
          ∃ data, plainContent env w record.filePath = .ok data ∧ env.tar.getmembers data = some members ∧
            readManifest members = .ok manifest) ∧ Checked env record members manifest := by
      unfold verifyArchive
      dsimp only
      cases hplain : plainContent env w record.filePath with
      | error e => exact iff_of_false nofun fun ⟨_, _, ⟨_, _, _, h, _⟩, _⟩ => nomatch h
      | ok data =>
        dsimp only
        cases hmembers : env.tar.getmembers data with
        | none =>
          refine iff_of_false nofun fun ⟨_, _, ⟨_, _, data', h, hmembers', _⟩, _⟩ => ?_
          obtain rfl := Except.ok.inj h
          exact nomatch hmembers.symm.trans hmembers'
        | some members =>
          dsimp only
          cases hmanifest : readManifest members with
          | error e =>
            refine iff_of_false nofun fun ⟨members', _, ⟨_, _, data', h, hmembers', hmanifest'⟩, _⟩ => ?_
            obtain rfl := Except.ok.inj h
            obtain rfl := Option.some.inj (hmembers.symm.trans hmembers')
            exact nomatch hmanifest.symm.trans hmanifest'
          | ok manifest =>
            refine restoreMembers_ok_iff.trans ⟨fun h => ?_, fun h => ?_⟩
            · exact ⟨members, manifest, ⟨not_not.mp hsuccess, hpath, data, rfl, hmembers, hmanifest⟩, h⟩
            · obtain ⟨members', manifest', ⟨_, _, data', hdata, hmembers', hmanifest'⟩, hchecked⟩ := h
              obtain rfl := Except.ok.inj hdata
              obtain rfl := Option.some.inj (hmembers.symm.trans hmembers')
              obtain rfl := Except.ok.inj (hmanifest.symm.trans hmanifest')
              exact hchecked
    rw [← hverified]
    obtain ⟨scratch, e | _⟩ := verifyArchive env (untroubled env) w record
    · exact iff_of_false nofun nofun
    · exact iff_of_true rfl rfl

/-! ## The archive of a backup -/

/-- The content of the object store can be verified: the names that are read back are those of their
objects and can be stored again, and an object that is read back as the manifest is one. -/
def Restorable (env : Env Key) (scratchPrefix : List Char) (objects : List (List Char × Bytes)) : Prop :=
  (∀ o ∈ objects, readName o.1 ≠ MANIFEST → env.accepts (scratchPrefix ++ readName o.1) = true) ∧
  match objects.find? fun o => readName o.1 = MANIFEST with
  | none => ∀ o ∈ objects, ∃ o' ∈ objects, o'.1 = readName o.1 ∧ env.hexdigest o'.2 = env.hexdigest o.2
  | some m => ∃ manifest, Json.loadBytes m.2 = some manifest ∧
      ∀ o ∈ objects, readName o.1 ≠ MANIFEST → Listed env manifest (readName o.1) o.2

/-- The manifest that a backup writes. -/
def manifestOf (env : Env Key) (objects : List (List Char × Bytes)) : List (List Char × PyJson) :=
  objects.map fun o => (o.1, .str (env.hexdigest o.2))

theorem nodup_manifestOf (env : Env Key) (bucket : Bucket) :
    ((manifestOf env bucket.objects).map (·.1)).Nodup := by
  rw [manifestOf, List.map_map]
  exact bucket.distinct

theorem writable_manifestOf (bucket : Bucket) : Json.Writable (.dict (manifestOf env bucket.objects)) := by
  refine ⟨nodup_manifestOf env bucket, (Json.writableMembers_iff _).mpr fun m hm => ?_⟩
  obtain ⟨o, -, rfl⟩ := List.mem_map.mp hm
  exact trivial

/-- The manifest is read back with its keys in order. -/
theorem loadBytes_manifestBytes (env : Env Key) (bucket : Bucket) :
    Json.loadBytes (manifestBytes (manifestOf env bucket.objects)) =
      some (.dict (Json.sortedDict (manifestOf env bucket.objects))) :=
  loadBytes_text (some 2) (Json.writable_sorted _ (writable_manifestOf bucket))

theorem listed_manifestOf (bucket : Bucket) (name : List Char) (data : Bytes) :
    Listed env (.dict (Json.sortedDict (manifestOf env bucket.objects))) name data ↔
      ∃ o ∈ bucket.objects, o.1 = name ∧ env.hexdigest o.2 = env.hexdigest data := by
  have hnodup := nodup_manifestOf env bucket
  constructor
  · rintro ⟨entries, hentries, hmember⟩
    obtain rfl := PyJson.dict.inj hentries
    rw [Json.member?_sortedDict hnodup, Option.map_eq_some_iff] at hmember
    obtain ⟨value, hvalue, hsorted⟩ := hmember
    obtain ⟨o, ho, heq⟩ := List.mem_map.mp (Json.mem_of_member? hvalue)
    obtain ⟨rfl, rfl⟩ := Prod.mk.inj heq
    exact ⟨o, ho, rfl, PyJson.str.inj hsorted⟩
  · rintro ⟨o, ho, rfl, hhash⟩
    refine ⟨_, rfl, ?_⟩
    have hmember : Json.member? o.1 (manifestOf env bucket.objects) = some (.str (env.hexdigest o.2)) :=
      (Json.member?_eq_some_iff hnodup).mpr (List.mem_map_of_mem ho)
    rw [Json.member?_sortedDict hnodup, hmember, ← hhash]
    rfl

theorem readName_manifest : readName MANIFEST = MANIFEST := by decide

theorem checked_membersOf {p : List Char} {manifest : PyJson} (objects : List (List Char × Bytes)) :
    (∀ m ∈ membersOf env objects, MemberChecked env p manifest m) ↔
      ∀ o ∈ objects, readName o.1 ≠ MANIFEST →
        Listed env manifest (readName o.1) o.2 ∧ env.accepts (p ++ readName o.1) = true := by
  constructor
  · intro h o ho hname
    obtain hmanifest | hnoFile | ⟨data, hdata, hchecked⟩ :=
      h ⟨readName o.1, .file o.2⟩ (List.mem_map_of_mem (List.mem_append_left _ ho))
    · exact absurd hmanifest hname
    · exact nomatch hnoFile
    · obtain rfl := Extracted.file.inj hdata
      exact hchecked
  · intro h m hm
    obtain ⟨e, he, rfl⟩ := List.mem_map.mp hm
    by_cases hname : readName e.1 = MANIFEST
    · exact .inl hname
    · obtain ho | ho := List.mem_append.mp he
      · exact .inr (.inr ⟨e.2, rfl, h e ho hname⟩)
      · obtain rfl := List.mem_singleton.mp ho
        exact absurd readName_manifest hname

/-- The manifest of the archive of a backup: an object that is read back under its name comes before. -/
theorem readManifest_membersOf (bucket : Bucket) :
    readManifest (membersOf env bucket.objects) =
      match bucket.objects.find? fun o => readName o.1 = MANIFEST with
      | none => .ok (.dict (Json.sortedDict (manifestOf env bucket.objects)))
      | some o =>
        match Json.loadBytes o.2 with
        | some manifest => .ok manifest
        | none => .error .raised := by
  have hload := loadBytes_manifestBytes env bucket
  have hfind : (membersOf env bucket.objects).find? (fun m => m.name = MANIFEST) =
      match bucket.objects.find? fun o => readName o.1 = MANIFEST with
      | some o => some ⟨readName o.1, .file o.2⟩
      | none => some ⟨readName MANIFEST, .file (manifestBytes (manifestOf env bucket.objects))⟩ := by
    rw [membersOf, List.find?_map, List.find?_append]
    simp only [Function.comp_def]
    cases bucket.objects.find? fun o => readName o.1 = MANIFEST with
    | some o => rfl
    | none => simp [readName_manifest, manifestOf]
  rw [readManifest, hfind]
  cases bucket.objects.find? fun o => readName o.1 = MANIFEST with
  | some o => rfl
  | none => simp only [hload]

/-- Where the archive is read back, what is checked of it is that the content is restorable. -/
theorem restorable_iff (bucket : Bucket) (record : BackupRecord) :
    (∃ manifest, readManifest (membersOf env bucket.objects) = .ok manifest ∧
        Checked env record (membersOf env bucket.objects) manifest) ↔
      Restorable env (scratchPrefix record) bucket.objects := by
  unfold Restorable Checked
  simp only [checked_membersOf]
  rw [readManifest_membersOf]
  cases hfind : bucket.objects.find? fun o => readName o.1 = MANIFEST with
  | none =>
    have hname : ∀ o ∈ bucket.objects, readName o.1 ≠ MANIFEST := fun o ho heq =>
      List.find?_eq_none.mp hfind o ho (decide_eq_true heq)
    constructor
    · rintro ⟨manifest, hmanifest, h⟩
      obtain rfl := Except.ok.inj hmanifest
      refine ⟨fun o ho hne => (h o ho hne).2, fun o ho => ?_⟩
      exact (listed_manifestOf bucket _ _).mp (h o ho (hname o ho)).1
    · rintro ⟨haccepts, h⟩
      refine ⟨_, rfl, fun o ho hne => ⟨?_, haccepts o ho hne⟩⟩
      exact (listed_manifestOf bucket _ _).mpr (h o ho)
  | some m =>
    dsimp only
    cases Json.loadBytes m.2 with
    | none => exact iff_of_false (fun ⟨_, h, _⟩ => nomatch h) fun ⟨_, _, h, _⟩ => nomatch h
    | some manifest =>
      constructor
      · rintro ⟨manifest', hmanifest, h⟩
        obtain rfl := Except.ok.inj hmanifest
        exact ⟨fun o ho hne => (h o ho hne).2, manifest, rfl, fun o ho hne => (h o ho hne).1⟩
      · rintro ⟨haccepts, manifest', hmanifest, h⟩
        obtain rfl := Option.some.inj hmanifest
        exact ⟨manifest, rfl, fun o ho hne => ⟨h o ho hne, haccepts o ho hne⟩⟩

/-! ## From the run to the verification -/

/-- A success that is recorded names the file that `_maybe_encrypt_file` left. -/
theorem recordSuccess_ok {d : Draws} {record row : BackupRecord} {path : List Char} {content : Bytes}
    (hfile : w.files path = some content) (hok : (recordSuccess env faults d.randomness w row path).2 = .ok record) :
    record.filePath = path ++ (if env.encryptionKey = [] then [] else ".icb".toList) ∧
      Complete env d.randomness content
        ((recordSuccess env faults d.randomness w row path).1.files record.filePath) := by
  unfold recordSuccess at hok ⊢
  obtain ⟨-, w', heq, -, hcomplete⟩ | ⟨e, w', -, heq⟩ := maybeEncryptFile_cases faults d.randomness hfile
  · rw [heq] at hok ⊢
    dsimp only at hok ⊢
    cases hsize : faults .getSize with
    | some e =>
      rw [attempt_of_some hsize] at hok
      exact nomatch hok
    | none =>
      rw [attempt_of_none hsize] at hok ⊢
      dsimp only at hok ⊢
      let finalPath := path ++ (if env.encryptionKey = [] then [] else ".icb".toList)
      obtain ⟨-, -, hsave⟩ | ⟨-, e, hsave⟩ := save_cases faults w' { row with
        status := .success, filePath := finalPath, sizeBytes := (w'.files finalPath).map List.length,
        completedAt := some w'.now }
      · rw [hsave] at hok ⊢
        obtain rfl := Except.ok.inj hok
        exact ⟨rfl, hcomplete⟩
      · rw [hsave] at hok
        exact nomatch hok
  · rw [heq] at hok
    exact nomatch hok

theorem recordFailure_ok {record row : BackupRecord} {e : Fault}
    (hok : (recordFailure faults w row e).2 = .ok record) : record.status = .failed := by
  unfold recordFailure at hok
  obtain ⟨-, -, hsave⟩ | ⟨-, e', hsave⟩ := save_cases faults w { row with
    status := .failed, errorMessage := e.message.take 2000, completedAt := some w.now }
  · rw [hsave] at hok
    obtain rfl := Except.ok.inj hok
    rfl
  · rw [hsave] at hok
    exact nomatch hok

/-- The file of a successful backup of the object store. -/
theorem objectStorage_success {d : Draws} {record : BackupRecord}
    (hok : (runBackup env faults w d .objectStorage).2 = .ok record) (hsuccess : record.status = .success) :
    record.filePath =
        env.path d .objectStorage ".tar" ++ (if env.encryptionKey = [] then [] else ".icb".toList) ∧
      Complete env d.randomness (archiveBytes env w.bucket.objects)
        ((runBackup env faults w d .objectStorage).1.files record.filePath) := by
  rw [runBackup, runObjectStorageBackup, archiveObjects_eq] at hok ⊢
  cases hdirs : faults .makeDirs with
  | some e =>
    rw [attempt_of_some hdirs] at hok
    cases hok
  | none =>
    rw [attempt_of_none hdirs] at hok ⊢
    dsimp only [World.create] at hok ⊢
    cases hfault : (archiveSteps w.bucket.objects).findSome? faults with
    | some e =>
      rw [hfault] at hok
      have hfailed : record.status = .failed := recordFailure_ok hok
      rw [hsuccess] at hfailed
      cases hfailed
    | none =>
      rw [hfault] at hok
      exact recordSuccess_ok files_write_self hok

theorem not_icb_of_tar (path : List Char) : ".icb".toList.isSuffixOf (path ++ ".tar".toList) = false := by
  refine Bool.eq_false_iff.mpr fun h => ?_
  have hsuffix : ".icb".toList <:+ path ++ ".tar".toList := List.isSuffixOf_iff_suffix.mp h
  have hsame : ".icb".toList <:+ ".tar".toList :=
    List.suffix_of_suffix_length_le hsuffix (List.suffix_append path _) (Nat.le_refl _)
  exact absurd (hsame.eq_of_length rfl) (by decide)

/-- The archive is there for the verification as it was written. -/
theorem plainContent_of_complete {d : Draws} {content : Bytes} {base : List Char}
    (hdecrypts : env.encryptionKey ≠ [] → ∀ key nonce data,
      env.primitives.decrypt key nonce (env.primitives.encrypt key nonce data) = some data)
    (hcomplete : Complete env d.randomness content (w.files
      (base ++ ".tar".toList ++ (if env.encryptionKey = [] then [] else ".icb".toList)))) :
    plainContent env w (base ++ ".tar".toList ++ (if env.encryptionKey = [] then [] else ".icb".toList)) =
      .ok content := by
  unfold Complete at hcomplete
  unfold plainContent
  by_cases hkey : env.encryptionKey = []
  · simp only [if_pos hkey, List.append_nil, not_icb_of_tar] at hcomplete ⊢
    rw [hcomplete]
    rfl
  · simp only [if_neg hkey] at hcomplete ⊢
    obtain ⟨wrapped, hwrapped, hfile⟩ := hcomplete
    have hsuffix : ".icb".toList.isSuffixOf (base ++ ".tar".toList ++ ".icb".toList) = true :=
      List.isSuffixOf_iff_suffix.mpr (List.suffix_append _ _)
    obtain ⟨key, hderive, hframe⟩ := Option.bind_eq_some_iff.mp hwrapped
    have hread : readContainerPayload env.primitives wrapped (some env.encryptionKey) = .ok content := by
      rw [read_encrypted hframe hderive, decryptPayload, if_neg (nonce_in_range d.randomness),
        hdecrypts hkey key d.randomness.nonce content]
    rw [hsuffix, hfile, Option.map_some, hread]
    rfl

/-- The verification says that a backup is restorable. -/
def Verified (env : Env Key) (w : World) (record : BackupRecord) : Prop :=
  (verifyObjectStorageBackupRestorable env w record).2.verifiedRestorable = true

/-- A successful backup is verified exactly where the content of the object store is restorable. -/
theorem verified_of_backup {d : Draws} {record : BackupRecord}
    (hok : (runBackup env faults w d .objectStorage).2 = .ok record) (hsuccess : record.status = .success)
    (hreads : env.tar.getmembers (archiveBytes env w.bucket.objects) = some (membersOf env w.bucket.objects))
    (hdecrypts : env.encryptionKey ≠ [] → ∀ key nonce data,
      env.primitives.decrypt key nonce (env.primitives.encrypt key nonce data) = some data) :
    Verified env (runBackup env faults w d .objectStorage).1 record ↔
      Restorable env (scratchPrefix record) w.bucket.objects := by
  obtain ⟨hpath, hcomplete⟩ := objectStorage_success hok hsuccess
  have hplain : plainContent env (runBackup env faults w d .objectStorage).1 record.filePath =
      .ok (archiveBytes env w.bucket.objects) := by
    rw [hpath] at hcomplete ⊢
    rw [Env.path] at hcomplete ⊢
    exact plainContent_of_complete hdecrypts hcomplete
  have hne : record.filePath ≠ [] := by
    rw [hpath, Env.path]
    simp
  rw [Verified, verified_iff, ← restorable_iff]
  constructor
  · rintro ⟨members, manifest, ⟨-, -, data, hdata, hmembers, hmanifest⟩, hchecked⟩
    obtain rfl := Except.ok.inj (hplain.symm.trans hdata)
    obtain rfl := Option.some.inj (hreads.symm.trans hmembers)
    exact ⟨manifest, hmanifest, hchecked⟩
  · rintro ⟨manifest, hmanifest, hchecked⟩
    exact ⟨_, manifest, ⟨hsuccess, hne, _, hplain, hreads, hmanifest⟩, hchecked⟩

/-! ## What is not checked -/

/-- The manifest is one, each of its keys has a member, and a second member of its name is in it. -/
def Covered (env : Env Key) (members : List TarMember) (manifest : PyJson) : Prop :=
  (∃ entries, manifest = .dict entries ∧
    ∀ key ∈ entries.map (·.1), ∃ data, ⟨key, .file data⟩ ∈ archived members) ∧
  ∀ data, ⟨MANIFEST, .file data⟩ ∈ archived members → Listed env manifest MANIFEST data

/-- An archive that is checked is exact where it is covered. -/
theorem exact_iff_covered {record : BackupRecord} {members : List TarMember} {manifest : PyJson}
    (hchecked : Checked env record members manifest) : Exact env members manifest ↔ Covered env members manifest := by
  refine and_congr_right fun _ => ⟨fun h data hm => h MANIFEST data hm, fun h name data hm => ?_⟩
  by_cases hname : name = MANIFEST
  · subst hname
    exact h data hm
  · obtain hmanifest | hnoFile | ⟨data', hdata, hlisted, -⟩ := hchecked _ (List.mem_of_mem_eraseP hm)
    · exact absurd hmanifest hname
    · exact nomatch hnoFile
    · obtain rfl := Extracted.file.inj hdata
      exact hlisted

theorem opened_unique {record : BackupRecord} {members members' : List TarMember} {manifest manifest' : PyJson}
    (h : Opened env w record members manifest) (h' : Opened env w record members' manifest') :
    members' = members ∧ manifest' = manifest := by
  obtain ⟨-, -, data, hdata, hmembers, hmanifest⟩ := h
  obtain ⟨-, -, data', hdata', hmembers', hmanifest'⟩ := h'
  obtain rfl := Except.ok.inj (hdata.symm.trans hdata')
  obtain rfl := Option.some.inj (hmembers.symm.trans hmembers')
  exact ⟨rfl, Except.ok.inj (hmanifest'.symm.trans hmanifest)⟩

/-- A verified archive is exact. -/
def Sound (env : Env Key) (w : World) (record : BackupRecord) : Prop :=
  Verified env w record → ∀ members manifest, Opened env w record members manifest → Exact env members manifest

theorem sound_iff (env : Env Key) (w : World) (record : BackupRecord) :
    Sound env w record ↔ ∀ members manifest, Opened env w record members manifest →
      Checked env record members manifest → Covered env members manifest := by
  unfold Sound Verified
  rw [verified_iff]
  constructor
  · intro h members manifest hopened hchecked
    exact (exact_iff_covered hchecked).mp (h ⟨members, manifest, hopened, hchecked⟩ members manifest hopened)
  · rintro h ⟨members, manifest, hopened, hchecked⟩ members' manifest' hopened'
    obtain ⟨rfl, rfl⟩ := opened_unique hopened hopened'
    exact (exact_iff_covered hchecked).mpr (h _ _ hopened hchecked)

/-- A successful backup is verified exactly where the content of the object store is restorable; and of every
archive, what is verified is exact exactly where what is checked is covered. -/
theorem verified_iff_restorable {d : Draws} {record : BackupRecord}
    (hok : (runBackup env faults w d .objectStorage).2 = .ok record) (hsuccess : record.status = .success)
    (hreads : env.tar.getmembers (archiveBytes env w.bucket.objects) = some (membersOf env w.bucket.objects))
    (hdecrypts : env.encryptionKey ≠ [] → ∀ key nonce data,
      env.primitives.decrypt key nonce (env.primitives.encrypt key nonce data) = some data) :
    (Verified env (runBackup env faults w d .objectStorage).1 record ↔
        Restorable env (scratchPrefix record) w.bucket.objects) ∧
      ∀ (world : World) (archived : BackupRecord), Sound env world archived ↔
        ∀ members manifest, Opened env world archived members manifest →
          Checked env archived members manifest → Covered env members manifest :=
  ⟨verified_of_backup hok hsuccess hreads hdecrypts, fun world archived => sound_iff env world archived⟩

/-- Settings under which every archive is read back as the backup of the objects. -/
def exampleEnv (objects : List (List Char × Bytes)) : Env Unit :=
  plainEnv ⟨fun _ => [], fun _ => some (membersOf (plainEnv ⟨fun _ => [], fun _ => none⟩) objects)⟩

/-- Their backup. -/
def exampleRun (bucket : Bucket) : World × Except Fault BackupRecord :=
  runBackup (exampleEnv bucket.objects) (fun _ => none) ⟨0, fun _ => none, bucket, []⟩ exampleDraws .objectStorage

def exampleBucket : Bucket :=
  ⟨[("a".toList, [1]), ("org/b.csv".toList, [2, 3]), ("org/c.csv".toList, [1])], by decide⟩

/-- An archive of three objects and their manifest is verified. -/
theorem verified_iff_restorable_threeObjects :
    ∃ record, (exampleRun exampleBucket).2 = .ok record ∧
      Verified (exampleEnv exampleBucket.objects) (exampleRun exampleBucket).1 record := by
  refine ⟨_, rfl, (verified_iff_restorable rfl rfl rfl fun h => absurd rfl h).1.mpr ⟨fun _ _ _ => rfl, ?_⟩⟩
  have hnames : ∀ o ∈ exampleBucket.objects, readName o.1 = o.1 := by decide
  exact fun o ho => ⟨o, ho, (hnames o ho).symm, rfl⟩

/-- An object under the name of the manifest is read as the manifest of the archive, and its backup is not
verified. And an archive of a manifest alone is verified, whatever objects the manifest lists. -/
theorem not_verified_and_not_sound :
    (∃ record, (exampleRun ⟨[(MANIFEST, [])], List.nodup_singleton _⟩).2 = .ok record ∧ record.status = .success ∧
      ¬ Verified (exampleEnv [(MANIFEST, [])]) (exampleRun ⟨[(MANIFEST, [])], List.nodup_singleton _⟩).1 record) ∧
    ¬ Sound (plainEnv ⟨fun _ => [], fun _ => some [⟨MANIFEST, .file (manifestBytes
        (manifestOf (exampleEnv []) [("a".toList, [1])]))⟩]⟩)
      ⟨0, fun _ => some [], ⟨[], List.nodup_nil⟩, []⟩
      { id := 0, backupType := .objectStorage, status := .success, filePath := "a.tar".toList,
        startedAt := 0 } := by
  constructor
  · refine ⟨_, rfl, rfl, fun h => ?_⟩
    have hrestorable := (verified_of_backup rfl rfl rfl fun h => absurd rfl h).mp h
    obtain ⟨manifest, hload, -⟩ := hrestorable.2
    exact nomatch hload
  · rw [sound_iff]
    intro h
    have hload := loadBytes_manifestBytes (exampleEnv [])
      ⟨[("a".toList, [1])], List.nodup_singleton _⟩
    have hmanifest := h [_] _ ⟨rfl, nofun, [], rfl, rfl, by
      rw [readManifest]
      simp only [List.find?_singleton, decide_true, if_true]
      rw [hload]⟩ fun m hm => .inl (by rw [List.mem_singleton.mp hm])
    obtain ⟨entries, hentries, hkeys⟩ := hmanifest.1
    obtain rfl := PyJson.dict.inj hentries
    have hkey : "a".toList ∈ (Json.sortedDict (manifestOf (exampleEnv []) [("a".toList, [1])])).map (·.1) := by
      rw [((Json.sortedDict_perm _).map (·.1)).mem_iff]
      exact List.mem_singleton_self _
    obtain ⟨data, hdata⟩ := hkeys _ hkey
    exact nomatch hdata

end Backups
