import IntraCloud.System.Proofs.RestorableProofs
import IntraCloud.System.Proofs.ScratchObjectsProofs
import IntraCloud.System.Verification
import IntraCloud.Transition.Proofs.RunsProofs

/-!
# What backups keep to themselves, and what verifying them leaves alone

An unencrypted backup is written as if there were no secrets. The verification of a configuration reads back what the
backup wrote; that of a database works on a database of its own.
-/

namespace Backups

open Exports Python Transition

variable {Key Content Host : Type} [DecidableEq Host] {env : Env Key} {faults : Faults} {w : World}

/-! ## Secrets -/

theorem configurationPayload_of_samePublic {environ : List Char → List Char} (hkey : env.encryptionKey = [])
    (hsame : SamePublic env.environ environ) :
    configurationPayload { env with environ := environ } = configurationPayload env := by
  have hmembers : ∀ key ∈ CONFIG_BACKUP_KEYS,
      (key.toList, PyJson.str (if SECRET_CONFIG_KEYS.contains key && env.encryptionKey = [] then
        REDACTED_PLACEHOLDER.toList else environ key.toList)) =
      (key.toList, PyJson.str (if SECRET_CONFIG_KEYS.contains key && env.encryptionKey = [] then
        REDACTED_PLACEHOLDER.toList else env.environ key.toList)) := by
    intro key hmem
    by_cases hsecret : key ∈ SECRET_CONFIG_KEYS
    · have hcontains : SECRET_CONFIG_KEYS.contains key = true := List.contains_iff_mem.mpr hsecret
      simp only [hcontains, hkey, decide_true, Bool.and_self, if_true]
    · rw [hsame key hmem hsecret]
  unfold configurationPayload
  rw [List.map_congr_left hmembers]

theorem runConfigurationBackup_of_samePublic {environ : List Char → List Char} (hkey : env.encryptionKey = [])
    (hsame : SamePublic env.environ environ) (d : Draws) :
    runConfigurationBackup { env with environ := environ } faults w d = runConfigurationBackup env faults w d := by
  have hpayload := configurationPayload_of_samePublic hkey hsame
  unfold runConfigurationBackup
  rw [hpayload]
  rfl

/-- The backup of one step is the same in both deployments. -/
theorem backupStep_of_samePublic {environ : List Char → List Char} (hkey : env.encryptionKey = [])
    (hsame : SamePublic env.environ environ) (b : BackupRun) :
    backupStep { env with environ := environ } w b = backupStep env w b := by
  unfold backupStep
  cases hb : b.backupType with
  | controlDb => rfl
  | tenantDb => rfl
  | objectStorage =>
    rw [runBackup, runBackup, runObjectStorageBackup, runObjectStorageBackup, archiveObjects_eq, archiveObjects_eq]
    rfl
  | configuration => rw [runBackup, runBackup, runConfigurationBackup_of_samePublic hkey hsame]

/-- An environment with one secret. -/
def exampleEnviron (secret : List Char) (key : List Char) : List Char :=
  if key = "SECRET_KEY".toList then secret else "db".toList

/-- Settings without encryption and with one secret. -/
def secretEnv (secret : List Char) : Env Unit :=
  { plainEnv ⟨fun _ => [], fun _ => none⟩ with environ := exampleEnviron secret }

/-- The configuration that a backup writes. -/
def configurationOf (env : Env Key) : List (List Char × PyJson) :=
  CONFIG_BACKUP_KEYS.map fun key =>
    (key.toList, .str (if SECRET_CONFIG_KEYS.contains key && env.encryptionKey = [] then
      REDACTED_PLACEHOLDER.toList else env.environ key.toList))

theorem nodup_keys : CONFIG_BACKUP_KEYS.Nodup := by decide

theorem nodup_configurationOf (env : Env Key) : ((configurationOf env).map (·.1)).Nodup := by
  have hkeys : (configurationOf env).map (·.1) = CONFIG_BACKUP_KEYS.map String.toList := by
    rw [configurationOf, List.map_map]
    rfl
  rw [hkeys]
  exact nodup_keys.map fun _ _ => String.toList_injective

theorem writable_configurationOf (env : Env Key) : Json.Writable (.dict (configurationOf env)) := by
  refine ⟨nodup_configurationOf env, (Json.writableMembers_iff _).mpr fun m hm => ?_⟩
  obtain ⟨key, -, rfl⟩ := List.mem_map.mp hm
  exact trivial

theorem loadBytes_configurationPayload (env : Env Key) :
    Json.loadBytes (configurationPayload env) = some (.dict (Json.sortedDict (configurationOf env))) :=
  loadBytes_text (some 2) (Json.writable_sorted _ (writable_configurationOf env))

/-- What is read back under a key. -/
theorem member?_configurationOf (env : Env Key) {key : String} (hkey : key ∈ CONFIG_BACKUP_KEYS) :
    Json.member? key.toList (Json.sortedDict (configurationOf env)) =
      some (.str (if SECRET_CONFIG_KEYS.contains key && env.encryptionKey = [] then
        REDACTED_PLACEHOLDER.toList else env.environ key.toList)) := by
  have hnodup := nodup_configurationOf env
  rw [Json.member?_sortedDict hnodup, (Json.member?_eq_some_iff hnodup).mpr (List.mem_map_of_mem hkey)]
  rfl

theorem missingKeys_eq_nil {members : List (List Char × PyJson)} {keys : List String}
    (h : ∀ key ∈ keys, ∃ value, Json.member? key.toList members = some value) :
    missingKeys (.dict members) keys = some [] := by
  induction keys with
  | nil => rfl
  | cons key keys ih =>
    rw [List.forall_mem_cons] at h
    obtain ⟨value, hvalue⟩ := h.1
    rw [missingKeys, ih h.2, containsKey?, hvalue]
    rfl

theorem save_ok {record row : BackupRecord} (hok : (save faults w row).2 = .ok record) :
    record = row ∧ (save faults w row).1 = w.update row := by
  obtain ⟨-, -, hsave⟩ | ⟨-, e, hsave⟩ := save_cases faults w row
  · rw [hsave] at hok ⊢
    exact ⟨(Except.ok.inj hok).symm, rfl⟩
  · rw [hsave] at hok
    cases hok

/-- The file of a successful backup. -/
theorem configuration_success {d : Draws} {record : BackupRecord}
    (hok : (runBackup env faults w d .configuration).2 = .ok record) (hsuccess : record.status = .success) :
    record.filePath = env.path d .configuration (if env.encryptionKey = [] then ".json" else ".icb") ∧
      Complete env d.randomness (configurationPayload env)
        ((runBackup env faults w d .configuration).1.files record.filePath) := by
  rw [runBackup, runConfigurationBackup] at hok ⊢
  cases hdirs : faults .makeDirs with
  | some e =>
    rw [attempt_of_some hdirs] at hok
    cases hok
  | none =>
    rw [attempt_of_none hdirs] at hok ⊢
    dsimp only at hok ⊢
    obtain ⟨e, hwrapped, -⟩ | ⟨out, hwrapped, -, hcomplete⟩ :=
      wrapped_cases env faults d.randomness (configurationPayload env)
    · rw [hwrapped] at hok
      dsimp only at hok
      by_cases hkind : e.kind = .osError
      · rw [if_pos hkind] at hok
        have hfailed : record.status = .failed := recordFailure_ok hok
        rw [hsuccess] at hfailed
        cases hfailed
      · rw [if_neg hkind] at hok
        cases hok
    · rw [hwrapped] at hok ⊢
      dsimp only at hok ⊢
      cases hwrite : faults .writeFile with
      | some e =>
        rw [attempt_of_some hwrite] at hok
        dsimp only at hok
        by_cases hkind : e.kind = .osError
        · rw [if_pos hkind] at hok
          have hfailed : record.status = .failed := recordFailure_ok hok
          rw [hsuccess] at hfailed
          cases hfailed
        · rw [if_neg hkind] at hok
          cases hok
      | none =>
        rw [attempt_of_none hwrite] at hok ⊢
        dsimp only at hok ⊢
        obtain ⟨hrecord, hworld⟩ := save_ok hok
        rw [hworld, hrecord]
        refine ⟨rfl, ?_⟩
        show Complete env d.randomness (configurationPayload env)
          ((World.write _ _ out).files (env.path d .configuration (if env.encryptionKey = [] then ".json" else ".icb")))
        rw [files_write_self]
        exact hcomplete

theorem not_icb_of_json (path : List Char) : ".icb".toList.isSuffixOf (path ++ ".json".toList) = false := by
  refine Bool.eq_false_iff.mpr fun h => ?_
  have hsuffix : ".icb".toList <:+ path ++ ".json".toList := List.isSuffixOf_iff_suffix.mp h
  have hsame : ".icb".toList <:+ ".json".toList :=
    List.suffix_of_suffix_length_le hsuffix (List.suffix_append path _) (by decide)
  exact absurd hsame (by decide)

/-- A container that was written is read with its passphrase, and with no other. -/
theorem read_sealed {p : Primitives Key} {r : Randomness} {plain data : Bytes} {secret : List Char}
    (ideal : p.Ideal (SealedBy p r plain (some secret))) (hwrite : writeContainer p r plain (some secret) = some data) :
    readContainerPayload p data (some secret) = .ok plain ∧
      ∀ other, other ≠ secret → ∃ e, readContainerPayload p data (some other) = .error e := by
  obtain ⟨key, hkey⟩ := ideal.derives (utf8Encode secret) r.salt r.salt_length
  obtain ⟨data', hwrite', hframe⟩ := writeContainer_some plain hkey
  obtain rfl := Option.some.inj (hwrite'.symm.trans hwrite)
  constructor
  · have hopens := ideal.opens key r.nonce plain ⟨⟨secret, rfl, hkey⟩, rfl, rfl⟩
    rw [read_encrypted hframe hkey, decryptPayload, if_neg (nonce_in_range r), hopens]
  · intro other hother
    obtain ⟨key', hkey'⟩ := ideal.derives (utf8Encode other) r.salt r.salt_length
    have hwrong : ∀ data, ¬ SealedBy p r plain (some secret) key' r.nonce data := by
      rintro data ⟨⟨s, hsome, hsealed⟩, -⟩
      obtain rfl := Option.some.inj hsome
      have hbytes := ideal.separates _ _ _ _ hsealed hkey'
      exact hother (utf8Encode_injective hbytes).symm
    exact ⟨_, (read_encrypted hframe hkey').trans (decryptPayload_wrong ideal hwrong)⟩

theorem verified_configuration_iff (env : Env Key) (w : World) {record : BackupRecord}
    (hsuccess : record.status = .success) (hpath : record.filePath ≠ []) :
    (verifyConfigurationBackupRestorable env w record).2.verifiedRestorable = true ↔
      ∃ config, readConfiguration env w record.filePath = .ok config := by
  have hguard : ¬ (record.status ≠ .success ∨ record.filePath = []) := by
    rintro (hstatus | hnone)
    · exact hstatus hsuccess
    · exact hpath hnone
  unfold verifyConfigurationBackupRestorable
  rw [if_neg hguard]
  cases hread : readConfiguration env w record.filePath with
  | error e => simp [recordVerification]
  | ok config => simp [recordVerification]

/-- A successful backup of the configuration is verified by the deployment that made it, and what is read back has
exactly the variables of the backup, with the secrets where it is encrypted; and the file of an encrypted one is
verified by no deployment with another key. -/
theorem verified_of_configurationBackup {d : Draws} {record : BackupRecord}
    (hok : (runBackup env faults w d .configuration).2 = .ok record) (hsuccess : record.status = .success)
    (ideal : env.encryptionKey ≠ [] → env.primitives.Ideal
      (SealedBy env.primitives d.randomness (configurationPayload env) (some env.encryptionKey))) :
    let w' := (runBackup env faults w d .configuration).1
    ((verifyConfigurationBackupRestorable env w' record).2.verifiedRestorable = true ∧
      ∃ members, readConfiguration env w' record.filePath = .ok (.dict members) ∧
        (∀ m ∈ members, ∃ key ∈ CONFIG_BACKUP_KEYS, m.1 = key.toList) ∧
        ∀ key ∈ CONFIG_BACKUP_KEYS, Json.member? key.toList members =
          some (.str (if SECRET_CONFIG_KEYS.contains key && env.encryptionKey = [] then
            REDACTED_PLACEHOLDER.toList else env.environ key.toList))) ∧
      (env.encryptionKey ≠ [] → ∀ other, other ≠ env.encryptionKey →
        (verifyConfigurationBackupRestorable { env with encryptionKey := other } w' record).2.verifiedRestorable =
          false) := by
  obtain ⟨hpath, hcomplete⟩ := configuration_success hok hsuccess
  have hne : record.filePath ≠ [] := by
    rw [hpath, Env.path]
    simp
  have hmembers : ∀ m ∈ Json.sortedDict (configurationOf env), ∃ key ∈ CONFIG_BACKUP_KEYS, m.1 = key.toList := by
    intro m hm
    have hname : m.1 ∈ (Json.sortedDict (configurationOf env)).map (·.1) := List.mem_map_of_mem hm
    rw [((Json.sortedDict_perm _).map (·.1)).mem_iff] at hname
    obtain ⟨m', hm', hsame⟩ := List.mem_map.mp hname
    obtain ⟨⟨k, v⟩, hkv, rfl⟩ := List.mem_map.mp hm'
    obtain ⟨key, hkey, heq⟩ := List.mem_map.mp hkv
    refine ⟨key, hkey, ?_⟩
    rw [← hsame, ← (Prod.mk.inj heq).1]
  have hread : ∀ env' : Env Key, configurationData env' (runBackup env faults w d .configuration).1 record.filePath =
      .ok (configurationPayload env) →
      readConfiguration env' (runBackup env faults w d .configuration).1 record.filePath =
        .ok (.dict (Json.sortedDict (configurationOf env))) := by
    intro env' hdata
    have hmissing := missingKeys_eq_nil fun key hkey => ⟨_, member?_configurationOf env hkey⟩
    rw [readConfiguration, hdata]
    simp only [loadBytes_configurationPayload, hmissing]
  rw [Complete] at hcomplete
  by_cases hkey : env.encryptionKey = []
  · rw [if_pos hkey] at hcomplete
    have hplain : ".icb".toList.isSuffixOf record.filePath = false := by
      rw [hpath, if_pos hkey, Env.path]
      exact not_icb_of_json _
    have hdata : configurationData env (runBackup env faults w d .configuration).1 record.filePath =
        .ok (configurationPayload env) := by
      rw [configurationData, hcomplete]
      simp only [hplain, Bool.false_eq_true, if_false]
    refine ⟨⟨(verified_configuration_iff _ _ hsuccess hne).mpr ⟨_, hread env hdata⟩, _, hread env hdata, hmembers,
      fun key => member?_configurationOf env⟩, fun hset => absurd hkey hset⟩
  · rw [if_neg hkey] at hcomplete
    obtain ⟨wrapped, hwrapped, hfile⟩ := hcomplete
    obtain ⟨hopens, hothers⟩ := read_sealed (ideal hkey) hwrapped
    have hencrypted : ".icb".toList.isSuffixOf record.filePath = true := by
      rw [hpath, if_neg hkey, Env.path]
      exact List.isSuffixOf_iff_suffix.mpr (List.suffix_append _ _)
    have hdata : configurationData env (runBackup env faults w d .configuration).1 record.filePath =
        .ok (configurationPayload env) := by
      rw [configurationData, hfile]
      simp only [hencrypted, if_true, if_neg hkey, hopens]
    refine ⟨⟨(verified_configuration_iff _ _ hsuccess hne).mpr ⟨_, hread env hdata⟩, _, hread env hdata, hmembers,
      fun key => member?_configurationOf env⟩, fun _ other hother => ?_⟩
    rw [← Bool.not_eq_true, verified_configuration_iff _ _ hsuccess hne]
    rintro ⟨config, hconfig⟩
    rw [readConfiguration, configurationData, hfile] at hconfig
    simp only [hencrypted, if_true] at hconfig
    by_cases hnone : other = []
    · rw [if_pos hnone] at hconfig
      cases hconfig
    · obtain ⟨e, he⟩ := hothers other hother
      rw [if_neg hnone, he] at hconfig
      cases hconfig

/-- An unencrypted configuration is verified. -/
theorem verified_of_configurationBackup_plain :
    ∃ record, (runBackup (secretEnv "a".toList) (fun _ => none) exampleStore exampleDraws .configuration).2 =
        .ok record ∧
      (verifyConfigurationBackupRestorable (secretEnv "a".toList)
        (runBackup (secretEnv "a".toList) (fun _ => none) exampleStore exampleDraws .configuration).1
        record).2.verifiedRestorable = true := by
  refine ⟨_, rfl, (verified_of_configurationBackup rfl rfl fun hset => ?_).1.1⟩
  exact absurd rfl hset

/-! ## Isolation -/

variable {s : Scratch} {b : Bucket} {p : List Char} {manifest : PyJson}

/-- Only keys with the prefix have been touched. -/
def Outside (p : List Char) (b : Bucket) (s : Scratch) : Prop :=
  (∀ key, ¬ p <+: key → s.bucket.get key = b.get key) ∧ ∀ key ∈ s.restoredKeys, p <+: key

theorem outside_put {name : List Char} {data : Bytes} {keys : List (List Char)} (h : Outside p b s)
    (hkeys : ∀ key ∈ keys, p <+: key) : Outside p b ⟨s.bucket.put (p ++ name) data, keys⟩ := by
  refine ⟨fun key hkey => ?_, hkeys⟩
  have hne : key ≠ p ++ name := by
    rintro rfl
    exact hkey (List.prefix_append p name)
  exact (get_put_of_ne hne).trans (h.1 key hkey)

theorem outside_restoreFile {c : Circumstances} {name : List Char} {data : Bytes} (h : Outside p b s) :
    Outside p b (restoreFile env p manifest c s name data).1 := by
  have hput : Outside p b ⟨s.bucket.put (p ++ name) data, s.restoredKeys ++ [p ++ name]⟩ := by
    refine outside_put h fun key hkey => ?_
    rcases List.mem_append.mp hkey with hold | hnew
    · exact h.2 key hold
    · rw [List.mem_singleton.mp hnew]
      exact List.prefix_append p name
  unfold restoreFile
  cases expectedHash manifest name with
  | error e => exact h
  | ok expected =>
    dsimp only
    by_cases hsum : expected.bind PyJson.asStr ≠ some (env.hexdigest data)
    · rw [if_pos hsum]
      exact h
    · rw [if_neg hsum]
      cases c.put with
      | refused => exact h
      | failedAfter => exact outside_put h h.2
      | done =>
        dsimp only
        by_cases hrereads : c.rereads = false
        · rw [if_pos hrereads]
          exact hput
        · rw [if_neg hrereads]
          split
          · exact hput
          · exact hput

theorem outside_restoreMembers (members : List (TarMember × Circumstances)) (h : Outside p b s) :
    Outside p b (restoreMembers env p manifest s members).1 := by
  induction members generalizing s with
  | nil => exact h
  | cons m rest ih =>
    obtain ⟨m, c⟩ := m
    unfold restoreMembers
    by_cases hname : m.name = MANIFEST
    · rw [if_pos hname]
      exact ih h
    · rw [if_neg hname]
      cases m.extracted with
      | noFile => exact ih h
      | raises => exact h
      | file data =>
        have hfile : Outside p b (restoreFile env p manifest c s m.name data).1 := outside_restoreFile h
        dsimp only
        cases hrestore : restoreFile env p manifest c s m.name data with
        | mk s' outcome =>
          rw [hrestore] at hfile
          cases outcome with
          | error e => exact hfile
          | ok _ => exact ih hfile

theorem outside_restoreArchive (cs : Nat → Circumstances) (w : World) (record : BackupRecord) :
    Outside (scratchPrefix record) w.bucket (restoreArchive env cs w record).1 := by
  have hstart : Outside (scratchPrefix record) w.bucket ⟨w.bucket, []⟩ :=
    ⟨fun _ _ => rfl, fun _ h => absurd h List.not_mem_nil⟩
  unfold restoreArchive verifyArchive
  cases plainContent env w record.filePath with
  | error e => exact hstart
  | ok data =>
    dsimp only
    cases env.tar.getmembers data with
    | none => exact hstart
    | some members =>
      dsimp only
      cases readManifest members with
      | error e => exact hstart
      | ok manifest => exact outside_restoreMembers _ hstart

theorem Untouched.refl (w : World) : Untouched w w := ⟨rfl, rfl, rfl, fun _ _ => rfl⟩

theorem Untouched.trans {w₁ w₂ w₃ : World} (h : Untouched w₁ w₂) (h' : Untouched w₂ w₃) : Untouched w₁ w₃ where
  files := h'.files.trans h.files
  outcomes := h'.outcomes.trans h.outcomes
  ids := h'.ids.trans h.ids
  objects := fun key hkey => (h'.objects key hkey).trans (h.objects key hkey)

/-- A save of a row of which only the verification is new. -/
theorem untouched_update {record row : BackupRecord} (hids : (w.records.map (·.id)).Nodup) (hmem : record ∈ w.records)
    (houtcome : row.outcome = record.outcome) : Untouched w (w.update row) := by
  have hid : row.outcome.id = record.outcome.id := congrArg BackupRecord.id houtcome
  have hrow : ∀ r ∈ w.records, r.id = row.id → r = record := fun r hr heq =>
    List.inj_on_of_nodup_map hids hr hmem (heq.trans hid)
  refine ⟨rfl, ?_, ?_, fun _ _ => rfl⟩
  · show (w.records.map _).map _ = _
    rw [List.map_map]
    refine List.map_congr_left fun r hr => ?_
    by_cases heq : r.id = row.id
    · rw [Function.comp_apply, if_pos heq, houtcome, hrow r hr heq]
    · rw [Function.comp_apply, if_neg heq]
  · show (w.records.map _).map _ = _
    rw [List.map_map]
    refine List.map_congr_left fun r hr => ?_
    by_cases heq : r.id = row.id
    · rw [Function.comp_apply, if_pos heq, heq]
    · rw [Function.comp_apply, if_neg heq]

theorem untouched_recordVerification {record : BackupRecord} {w' : World} (h : Untouched w w')
    (hids : (w'.records.map (·.id)).Nodup) (hmem : record ∈ w'.records) (error : Option VerificationError) :
    Untouched w (recordVerification w' record error).1 :=
  h.trans (untouched_update hids hmem rfl)

theorem untouched_notRestorable {record : BackupRecord} (hids : (w.records.map (·.id)).Nodup)
    (hmem : record ∈ w.records) : Untouched w (notRestorable w record).1 :=
  untouched_update hids hmem rfl

theorem untouched_configuration {record : BackupRecord} (hids : (w.records.map (·.id)).Nodup)
    (hmem : record ∈ w.records) : Untouched w (verifyConfigurationBackupRestorable env w record).1 := by
  unfold verifyConfigurationBackupRestorable
  by_cases hguard : record.status ≠ .success ∨ record.filePath = []
  · rw [if_pos hguard]
    exact untouched_notRestorable hids hmem
  · rw [if_neg hguard]
    cases readConfiguration env w record.filePath with
    | error e => exact untouched_recordVerification (Untouched.refl w) hids hmem _
    | ok config => exact untouched_recordVerification (Untouched.refl w) hids hmem _

/-- Whatever is deleted of the scratch keys. -/
theorem untouched_swept {record : BackupRecord} {scratch : Scratch} (deletes : List Char → Bool)
    (h : Outside (scratchPrefix record) w.bucket scratch) :
    Untouched w { w with bucket := (scratch.restoredKeys.filter deletes).foldl Bucket.delete scratch.bucket } := by
  refine ⟨rfl, rfl, rfl, fun key hkey => ?_⟩
  have hroot : "_restore_test_".toList <+: scratchPrefix record :=
    ⟨(hexText 32 record.id).take 16 ++ ['/'], (List.append_assoc ..).symm⟩
  have hbelow : ∀ key, scratchPrefix record <+: key → "_restore_test_".toList <+: key := fun _ => hroot.trans
  show ((scratch.restoredKeys.filter deletes).foldl Bucket.delete scratch.bucket).get key = w.bucket.get key
  rw [get_foldl_delete, if_neg fun hmem => hkey (hbelow key (h.2 key (List.mem_filter.mp hmem).1))]
  exact h.1 key fun hprefix => hkey (hbelow key hprefix)

theorem untouched_objects {record : BackupRecord} {cs : Nat → Circumstances} {deletes : List Char → Bool}
    (hids : (w.records.map (·.id)).Nodup) (hmem : record ∈ w.records) :
    Untouched w (verifyObjectsRestorable env cs deletes w record).1 := by
  unfold verifyObjectsRestorable
  by_cases hguard : record.status ≠ .success ∨ record.filePath = []
  · rw [if_pos hguard]
    exact untouched_notRestorable hids hmem
  · rw [if_neg hguard]
    have houtside : Outside (scratchPrefix record) w.bucket (restoreArchive env cs w record).1 :=
      outside_restoreArchive cs w record
    cases hrestore : restoreArchive env cs w record with
    | mk scratch outcome =>
      rw [hrestore] at houtside
      have hswept := untouched_swept deletes houtside
      cases outcome with
      | error e => exact untouched_recordVerification hswept hids hmem (some e)
      | ok _ => exact untouched_recordVerification hswept hids hmem none

theorem untouched_postgres {postgres : Postgres Content} {faults : VerificationFaults} {server : Server Content}
    {record : BackupRecord} (hids : (w.records.map (·.id)).Nodup) (hmem : record ∈ w.records) :
    Untouched w (verifyPostgresBackupRestorable env postgres faults server w record).2.1 := by
  unfold verifyPostgresBackupRestorable
  by_cases hguard : record.status ≠ .success ∨ record.filePath = []
  · rw [if_pos hguard]
    exact untouched_notRestorable hids hmem
  · rw [if_neg hguard]
    by_cases hcreate : faults .createDatabase || (server (testDbName record)).isSome
    · rw [if_pos hcreate]
      exact untouched_recordVerification (Untouched.refl w) hids hmem _
    · rw [if_neg hcreate]
      exact untouched_recordVerification (Untouched.refl w) hids hmem _

/-- The database of the test was not there before, and is dropped. -/
theorem server_of_verifyPostgres {postgres : Postgres Content} {faults : VerificationFaults} {server : Server Content}
    {record : BackupRecord} (hdrop : faults .dropDatabase = false) :
    (verifyPostgresBackupRestorable env postgres faults server w record).1 = server := by
  unfold verifyPostgresBackupRestorable
  by_cases hguard : record.status ≠ .success ∨ record.filePath = []
  · rw [if_pos hguard]
  · rw [if_neg hguard]
    by_cases hcreate : faults .createDatabase || (server (testDbName record)).isSome
    · rw [if_pos hcreate]
    · rw [if_neg hcreate]
      have hnone : server (testDbName record) = none := by
        simp only [Bool.or_eq_true, not_or, Bool.not_eq_true, Option.isSome_eq_false_iff] at hcreate
        exact Option.isNone_iff_eq_none.mp hcreate.2
      show (if faults .dropDatabase then _ else _) = server
      rw [if_neg (by rw [hdrop]; exact Bool.false_ne_true), Function.update_idem, ← hnone, Function.update_eq_self]

/-- One verification, whatever it finds. -/
theorem verifyStep_isolated (env : Env Key) (postgres : Postgres Content) (host : BackupType → Host)
    {s : Installation Host Content} {v : Verification} (hdrop : v.faults .dropDatabase = false)
    (hids : (s.world.records.map (·.id)).Nodup) :
    (verifyStep env postgres host s v).servers = s.servers ∧
      Untouched s.world (verifyStep env postgres host s v).world := by
  unfold verifyStep
  cases hfind : s.world.records.find? fun r => r.id = v.id with
  | none => exact ⟨rfl, Untouched.refl _⟩
  | some record =>
    have hmem : record ∈ s.world.records := List.mem_of_find?_eq_some hfind
    have hpostgres : Function.update s.servers (host record.backupType) (verifyPostgresBackupRestorable env postgres
        v.faults (s.servers (host record.backupType)) s.world record).1 = s.servers := by
      rw [server_of_verifyPostgres hdrop, Function.update_eq_self]
    dsimp only [verifyBackupRestorable]
    cases htype : record.backupType with
    | controlDb =>
      rw [htype] at hpostgres
      exact ⟨hpostgres, untouched_postgres hids hmem⟩
    | tenantDb =>
      rw [htype] at hpostgres
      exact ⟨hpostgres, untouched_postgres hids hmem⟩
    | objectStorage => exact ⟨rfl, untouched_objects hids hmem⟩
    | configuration => exact ⟨rfl, untouched_configuration hids hmem⟩

/-- A server with one database, and a backup to be restored on it. -/
def exampleInstallation : Installation Unit Bytes :=
  ⟨fun _ name => if name = "main".toList then some [1] else none,
    { exampleStore with records := [{ exampleBackup with backupType := .tenantDb }] }⟩

end Backups
