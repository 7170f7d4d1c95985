import IntraCloud.Exports.Proofs.BuilderProofs
import IntraCloud.Python.Proofs.JsonValueProofs

/-!
# A built package is accepted

The manifest that `build_export` writes reads back with its keys in order; the paths in it are those of
members written, and the checksums are theirs.
-/

namespace Exports

open Databases Python

variable {f : Formats} {b : Building} {content : OrganizationContent}

/-! ## The manifest can be written -/

theorem writableItems_map {α : Type} {as : List α} {g : α → PyJson}
    (h : ∀ a ∈ as, Json.Writable (g a)) : Json.WritableItems (as.map g) := by
  induction as with
  | nil => trivial
  | cons a as ih =>
    obtain ⟨ha, has⟩ := List.forall_mem_cons.mp h
    exact ⟨ha, ih has⟩

theorem writableItems_strs (ss : List String) : Json.WritableItems (ss.map jsonStr) :=
  writableItems_map fun _ _ => trivial

theorem writable_jsonNat {n : Option Nat} (h : Catalog.integerFits n = true) :
    Json.Writable (jsonNat n) := by
  cases n with
  | none => trivial
  | some n =>
    have hle : n ≤ 2147483647 := of_decide_eq_true h
    have hlen : (Nat.toDigits 10 n).length ≤ 10 :=
      (Nat.length_toDigits_le_iff (by omega) (by omega)).mpr (by omega)
    have hmax : maxStrDigits = 4300 := rfl
    have hnat : natText (n : Int).natAbs = Nat.toDigits 10 n := rfl
    rw [jsonNat, Json.Writable, hnat, hmax]
    omega

theorem writable_columnDict {c : DBColumn} (hnumbers : Catalog.numbersFit c = true)
    (hdefault : Json.Writable (defaultJson c.defaultValue)) : Json.Writable (columnDict c) := by
  have hkeys : ["name".toList, "data_type".toList, "max_length".toList, "precision".toList,
      "scale".toList, "is_nullable".toList, "is_unique".toList, "default_value".toList].Nodup := by decide
  simp only [Catalog.numbersFit, Bool.and_eq_true] at hnumbers
  obtain ⟨⟨hlength, hprecision⟩, hscale⟩ := hnumbers
  exact ⟨hkeys, trivial, trivial, writable_jsonNat hlength, writable_jsonNat hprecision,
    writable_jsonNat hscale, trivial, trivial, hdefault, trivial⟩

theorem writable_foreignKeyDict (fk : ForeignKeyContent) : Json.Writable (foreignKeyDict fk) := by
  have hkeys : ["column".toList, "references_table".toList, "references_column".toList,
      "on_delete".toList].Nodup := by decide
  exact ⟨hkeys, trivial, trivial, trivial, trivial, trivial⟩

theorem writable_tableDict {d : DatabaseContent} {t : TableContent}
    (hcolumns : ∀ c ∈ t.columns, Json.Writable (columnDict c)) : Json.Writable (tableDict d t) := by
  have hkeys : ["id".toList, "name".toList, "columns".toList, "foreign_keys".toList,
      "rows_path".toList].Nodup := by decide
  exact ⟨hkeys, trivial, trivial, writableItems_map hcolumns,
    writableItems_map fun fk _ => writable_foreignKeyDict fk, trivial, trivial⟩

theorem writable_schemaDict {d : DatabaseContent}
    (hnumbers : ∀ t ∈ d.tables, ∀ c ∈ t.columns, Catalog.numbersFit c = true)
    (hdefaults : ∀ t ∈ d.tables, ∀ c ∈ t.columns, Json.Writable (defaultJson c.defaultValue)) :
    Json.Writable (schemaDict d) := by
  have hkeys : ["name".toList, "tables".toList].Nodup := by decide
  refine ⟨hkeys, trivial, writableItems_map fun t ht => ?_, trivial⟩
  exact writable_tableDict fun c hc => writable_columnDict (hnumbers t ht c hc) (hdefaults t ht c hc)

/-- `schema.json` is read back with its keys in order. -/
theorem loadBytes_schemaBytes {d : DatabaseContent}
    (hnumbers : ∀ t ∈ d.tables, ∀ c ∈ t.columns, Catalog.numbersFit c = true)
    (hdefaults : ∀ t ∈ d.tables, ∀ c ∈ t.columns, Json.Writable (defaultJson c.defaultValue)) :
    Json.loadBytes (schemaBytes d) = some (Json.sorted (schemaDict d)) :=
  loadBytes_text (some 2) (Json.writable_sorted _ (writable_schemaDict hnumbers hdefaults))

theorem writable_fileDict {file : FileContent} (contentRef : List Char)
    (hsize : (natText file.size).length ≤ maxStrDigits) : Json.Writable (fileDict file contentRef) := by
  have hkeys : ["folder_path".toList, "display_filename".toList, "original_filename".toList,
      "mime_type".toList, "size".toList, "checksum_sha256".toList, "content_ref".toList].Nodup := by decide
  exact ⟨hkeys, writableItems_strs _, trivial, trivial, trivial, hsize, trivial, trivial, trivial⟩

theorem writable_bucket {bucket : BucketContent}
    (hfiles : ∀ file ∈ bucket.files, (natText file.size).length ≤ maxStrDigits) :
    Json.Writable (bucketAdds.json bucket) := by
  have hkeys : ["name".toList, "versioning_enabled".toList, "files".toList].Nodup := by decide
  exact ⟨hkeys, trivial, trivial,
    writableItems_map fun file hfile => writable_fileDict _ (hfiles file hfile), trivial⟩

theorem writable_project {project : ProjectContent}
    (hfiles : ∀ bucket ∈ project.buckets, ∀ file ∈ bucket.files,
      (natText file.size).length ≤ maxStrDigits) : Json.Writable (projectAdds.json project) := by
  have hkeys : ["name".toList, "tenant_databases".toList, "buckets".toList].Nodup := by decide
  exact ⟨hkeys, trivial, writableItems_map fun _ _ => trivial,
    writableItems_map fun bucket hbucket => writable_bucket (hfiles bucket hbucket), trivial⟩

theorem mem_allFiles {workspaces : List WorkspaceContent} {workspace : WorkspaceContent}
    {project : ProjectContent} {bucket : BucketContent} {file : FileContent}
    (hworkspace : workspace ∈ workspaces) (hproject : project ∈ workspace.projects)
    (hbucket : bucket ∈ project.buckets) (hfile : file ∈ bucket.files) : file ∈ allFiles workspaces :=
  List.mem_flatMap.mpr ⟨workspace, hworkspace, List.mem_flatMap.mpr ⟨project, hproject,
    List.mem_flatMap.mpr ⟨bucket, hbucket, hfile⟩⟩⟩

theorem mem_allDatabases {workspaces : List WorkspaceContent} {workspace : WorkspaceContent}
    {project : ProjectContent} {d : DatabaseContent} (hworkspace : workspace ∈ workspaces)
    (hproject : project ∈ workspace.projects) (hd : d ∈ project.databases) :
    d ∈ allDatabases workspaces :=
  List.mem_flatMap.mpr ⟨workspace, hworkspace, List.mem_flatMap.mpr ⟨project, hproject, hd⟩⟩

theorem writable_membershipDict (m : MembershipEntry) : Json.Writable (membershipDict m) := by
  have hkeys : ["email".toList, "team".toList, "role_slugs".toList].Nodup := by decide
  have hteam : Json.Writable ((m.team.map jsonStr).getD .null) := by
    cases m.team with
    | none => trivial
    | some _ => trivial
  exact ⟨hkeys, trivial, hteam, writableItems_strs _, trivial⟩

theorem writable_organizationDict (content : OrganizationContent) :
    Json.Writable (organizationDict content (content.workspaces.map workspaceAdds.json)) := by
  have hkeys : ["name".toList, "slug".toList, "workspaces".toList, "teams".toList,
      "memberships".toList].Nodup := by decide
  have hworkspaceKeys : ["name".toList, "projects".toList].Nodup := by decide
  refine ⟨hkeys, trivial, trivial, writableItems_map fun workspace hworkspace => ?_,
    writableItems_strs _, writableItems_map fun m _ => writable_membershipDict m, trivial⟩
  refine ⟨hworkspaceKeys, trivial, writableItems_map fun project hproject => ?_, trivial⟩
  exact writable_project fun bucket hbucket file hfile =>
    content.sizes file (mem_allFiles hworkspace hproject hbucket hfile)

/-- The members of the manifest. -/
def manifestMembers (info : ExportInfo) (organization : PyJson) (b : Building) :
    List (List Char × PyJson) :=
  [("format".toList, jsonStr FORMAT_NAME),
    ("format_version".toList, .int FORMAT_VERSION),
    ("product_version".toList, jsonStr info.productVersion),
    ("export_id".toList, .str (uuidText info.exportId)),
    ("export_type".toList, jsonStr "organization"),
    ("organization".toList, organization),
    ("databases".toList, .dict b.databases),
    ("checksums".toList, .dict b.checksums),
    ("encryption".toList, .null),
    ("excluded".toList, .list (EXCLUDED_SCOPE.map jsonStr))]

theorem nodup_manifestMembers (info : ExportInfo) (organization : PyJson) (b : Building) :
    ((manifestMembers info organization b).map (·.1)).Nodup := by
  have hkeys : ["format".toList, "format_version".toList, "product_version".toList, "export_id".toList,
      "export_type".toList, "organization".toList, "databases".toList, "checksums".toList,
      "encryption".toList, "excluded".toList].Nodup := by decide
  exact hkeys

theorem Finished.nodup_databases (h : Finished f content b) : (b.databases.map (·.1)).Nodup := by
  rw [h.databases, List.map_map]
  exact content.databaseKeys

theorem Finished.nodup_checksums (h : Finished f content b) : (b.checksums.map (·.1)).Nodup := by
  rw [h.checksums_eq, recorded, List.map_map]
  exact h.nodup

theorem Finished.writable (h : Finished f content b) (info : ExportInfo) :
    Json.Writable (manifestDict info
      (organizationDict content (content.workspaces.map workspaceAdds.json)) b) := by
  have hversion : (natText FORMAT_VERSION.natAbs).length ≤ maxStrDigits := by decide
  have hmemberKeys : ["name".toList, "schema_path".toList].Nodup := by decide
  have hdatabases : Json.WritableMembers b.databases := by
    rw [Json.writableMembers_iff, h.databases]
    intro m hm
    obtain ⟨d, -, rfl⟩ := List.mem_map.mp hm
    exact ⟨hmemberKeys, trivial, trivial, trivial⟩
  have hchecksums : Json.WritableMembers b.checksums := by
    rw [Json.writableMembers_iff, h.checksums_eq]
    intro m hm
    obtain ⟨e, -, rfl⟩ := List.mem_map.mp hm
    trivial
  exact ⟨nodup_manifestMembers info _ b, trivial, hversion, trivial, trivial, trivial,
    writable_organizationDict content, ⟨h.nodup_databases, hdatabases⟩, ⟨h.nodup_checksums, hchecksums⟩,
    trivial, writableItems_strs _, trivial⟩

/-! ## Reading it back -/

/-- The archive that unpacking gives. -/
def unpacked (entries : List (List Char × Bytes)) : Archive := entries.map fun e => (e.1, .ok e.2)

theorem read_unpacked {entries : List (List Char × Bytes)} (h : (entries.map (·.1)).Nodup)
    {e : List Char × Bytes} (he : e ∈ entries) : (unpacked entries).read e.1 = .ok e.2 := by
  have hmem : (e.1, Except.ok e.2) ∈ (unpacked entries).reverse :=
    List.mem_reverse.mpr (List.mem_map_of_mem (f := fun e => (e.1, Except.ok e.2)) he)
  have hsome : ((unpacked entries).reverse.find? (·.1 == e.1)).isSome = true := by
    rw [List.find?_isSome]
    exact ⟨_, hmem, beq_self_eq_true _⟩
  obtain ⟨found, hfound⟩ := Option.isSome_iff_exists.mp hsome
  have hkey := List.find?_some hfound
  have hkey : found.1 = e.1 := eq_of_beq hkey
  obtain ⟨e', he', rfl⟩ := List.mem_map.mp (List.mem_reverse.mp (List.mem_of_find?_eq_some hfound))
  obtain rfl := List.inj_on_of_nodup_map h he' he hkey
  rw [Archive.read, hfound]

/-- The members of the archive with the manifest. -/
def finalEntries (info : ExportInfo) (content : OrganizationContent) (b : Building) :
    List (List Char × Bytes) :=
  b.entries ++ [("manifest.json".toList, utf8Encode (Json.dumpsSorted (manifestDict info
    (organizationDict content (content.workspaces.map workspaceAdds.json)) b)))]

theorem manifest_not_mem (h : Finished f content b) :
    "manifest.json".toList ∉ b.entries.map (·.1) := by
  intro hmem
  obtain ⟨e, he, hname⟩ := List.mem_map.mp hmem
  rcases h.mem_entries he with ⟨data, hobject⟩ | ⟨d, -, hd⟩
  · have hhead := congrArg List.head? (hname.symm.trans hobject)
    exact absurd (Option.some.inj hhead) (by decide)
  · have hbase := take_of_mem_databaseEntries hd
    rw [hname] at hbase
    have hhead := congrArg List.head? hbase
    exact absurd (Option.some.inj hhead) (by decide)

theorem Finished.nodup_final (h : Finished f content b) (info : ExportInfo) :
    ((finalEntries info content b).map (·.1)).Nodup := by
  rw [finalEntries, List.map_append, List.nodup_append]
  refine ⟨h.nodup, List.nodup_singleton _, ?_⟩
  rintro name hname _ hmanifest rfl
  rw [List.map_singleton, List.mem_singleton] at hmanifest
  rw [hmanifest] at hname
  exact manifest_not_mem h hname

theorem archiveEntries_eq {info : ExportInfo} {entries : List (List Char × Bytes)}
    (h : archiveEntries f info content = some entries) :
    ∃ b, Finished f content b ∧ entries = finalEntries info content b := by
  obtain ⟨⟨b, out⟩, hloops, rfl⟩ := Option.map_eq_some_iff.mp h
  obtain ⟨hfinished, rfl⟩ := finished_of_loops hloops
  exact ⟨b, hfinished, rfl⟩

/-- The manifest with its keys in order. -/
def readMembers (info : ExportInfo) (content : OrganizationContent) (b : Building) :
    List (List Char × PyJson) :=
  Json.sortedDict (manifestMembers info
    (organizationDict content (content.workspaces.map workspaceAdds.json)) b)

/-- A field of the manifest that was read. -/
theorem member?_readMembers (info : ExportInfo) (content : OrganizationContent) (b : Building)
    (key : List Char) : Json.member? key (readMembers info content b) =
      (Json.member? key (manifestMembers info
        (organizationDict content (content.workspaces.map workspaceAdds.json)) b)).map Json.sorted :=
  Json.member?_sortedDict (nodup_manifestMembers info _ b)

theorem validate_readMembers (info : ExportInfo) (content : OrganizationContent) (b : Building) :
    validateManifestShape (.dict (readMembers info content b)) = .ok (readMembers info content b) := by
  have hformat := member?_readMembers info content b "format".toList
  have hversion := member?_readMembers info content b "format_version".toList
  have htype := member?_readMembers info content b "export_type".toList
  have horganization := member?_readMembers info content b "organization".toList
  simp only [validateManifestShape, asDict, hformat, hversion, htype, horganization]
  rfl

theorem openArchive_built (info : ExportInfo) (hf : f.RoundTrips) (h : Finished f content b)
    (hnames : ∀ e ∈ finalEntries info content b, ArchiveName e.1) :
    openArchive f (f.pack (finalEntries info content b)) =
      .ok (unpacked (finalEntries info content b), readMembers info content b) := by
  have hunpack := hf _ (h.nodup_final info) hnames
  have hread := read_unpacked (h.nodup_final info)
    (List.mem_append_right b.entries (List.mem_singleton_self _))
  have hload : Json.loadBytes (utf8Encode (Json.dumpsSorted (manifestDict info
      (organizationDict content (content.workspaces.map workspaceAdds.json)) b))) =
      some (.dict (readMembers info content b)) :=
    loadBytes_text (some 2) (Json.writable_sorted _ (h.writable info))
  have hmanifest : readManifest (unpacked (finalEntries info content b)) =
      .ok (.dict (readMembers info content b)) := by
    unfold readManifest
    rw [hread]
    simp only [hload]
  unfold openArchive
  rw [hunpack]
  simp only []
  rw [← unpacked, hmanifest]
  simp only [validate_readMembers]

/-- The checksums pass. -/
theorem verify_built (info : ExportInfo) (h : Finished f content b) :
    verifyChecksums f (unpacked (finalEntries info content b)) (readMembers info content b) = .ok () := by
  have hchecksums : checksumsOf (readMembers info content b) = .dict (Json.sortedDict b.checksums) := by
    rw [checksumsOf, member?_readMembers]
    rfl
  unfold verifyChecksums
  rw [hchecksums]
  refine verifyEntries_of_forall fun entry hentry => ?_
  have hmem := (Json.sortedDict_perm b.checksums).mem_iff.mp hentry
  rw [h.checksums_eq, recorded, List.map_map] at hmem
  obtain ⟨e, he, rfl⟩ := List.mem_map.mp hmem
  have hread := read_unpacked (h.nodup_final info) (List.mem_append_left _ he)
  simp only [verifyEntry, Function.comp_apply, hread, Json.sorted, PyJson.asStr, if_true]

/-- A member that is not the manifest has a checksum. -/
theorem listed_of_mem (info : ExportInfo) (h : Finished f content b) {name : List Char}
    (hname : name ∈ b.entries.map (·.1)) : Listed (readMembers info content b) name := by
  refine ⟨Json.sortedDict b.checksums, ?_, ?_⟩
  · rw [checksumsOf, member?_readMembers]
    rfl
  · obtain ⟨e, he, rfl⟩ := List.mem_map.mp hname
    have hmem : (e.1, PyJson.str (f.hexdigest e.2)) ∈ b.checksums := by
      rw [h.checksums_eq]
      exact List.mem_map_of_mem (f := fun e => (e.1, PyJson.str (f.hexdigest e.2))) he
    have hsorted : (e.1, PyJson.str (f.hexdigest e.2)) ∈ Json.sortedDict b.checksums :=
      (Json.sortedDict_perm b.checksums).mem_iff.mpr
        (List.mem_map_of_mem (f := fun m => (m.1, Json.sorted m.2)) hmem)
    exact List.mem_map_of_mem (f := (·.1)) hsorted

/-! ## The paths in it -/

theorem get_sorted {ms : List (List Char × PyJson)} (h : (ms.map (·.1)).Nodup) (key : String)
    (default : PyJson) : (Json.sorted (.dict ms)).get key default =
      some (((Json.member? key.toList ms).map Json.sorted).getD default) := by
  rw [Json.sorted_dict, PyJson.get_dict, Json.member?_sortedDict h]

theorem field_sorted {ms : List (List Char × PyJson)} (h : (ms.map (·.1)).Nodup) (key : String) :
    (Json.sorted (.dict ms)).field key = (Json.member? key.toList ms).map Json.sorted := by
  rw [Json.sorted_dict, PyJson.field_dict, Json.member?_sortedDict h]

/-- The items of a list under a key. -/
theorem items_get_sorted {ms : List (List Char × PyJson)} (h : (ms.map (·.1)).Nodup) {key : String}
    {vs : List PyJson} (hmember : Json.member? key.toList ms = some (.list vs)) (default : PyJson) :
    PyJson.items ((Json.sorted (.dict ms)).get key default) = vs.map Json.sorted := by
  rw [get_sorted h, hmember, Option.map_some, Json.sorted_list]
  rfl

theorem items_field_sorted {ms : List (List Char × PyJson)} (h : (ms.map (·.1)).Nodup) {key : String}
    {vs : List PyJson} (hmember : Json.member? key.toList ms = some (.list vs)) :
    PyJson.items ((Json.sorted (.dict ms)).field key) = vs.map Json.sorted := by
  rw [field_sorted h, hmember, Option.map_some, Json.sorted_list]
  rfl

/-- A string under a key. -/
theorem str_field_sorted {ms : List (List Char × PyJson)} (h : (ms.map (·.1)).Nodup) {key : String}
    {s : List Char} (hmember : Json.member? key.toList ms = some (.str s)) :
    ((Json.sorted (.dict ms)).field key).bind PyJson.asStr = some s := by
  rw [field_sorted h, hmember]
  rfl

theorem mem_map_map {α β γ : Type} {g : α → β} {g' : β → γ} {as : List α} {c : γ}
    (h : c ∈ (as.map g).map g') : ∃ a ∈ as, g' (g a) = c := by
  rw [List.map_map] at h
  exact List.mem_map.mp h

theorem items_workspaces (content : OrganizationContent) (workspaces : List PyJson) :
    PyJson.items ((Json.sorted (organizationDict content workspaces)).get "workspaces" (.list [])) =
      workspaces.map Json.sorted := by
  have hkeys : ["name".toList, "slug".toList, "workspaces".toList, "teams".toList,
      "memberships".toList].Nodup := by decide
  refine items_get_sorted ?_ rfl _
  exact hkeys

theorem items_projects (workspace : WorkspaceContent) :
    PyJson.items ((Json.sorted (workspaceAdds.json workspace)).get "projects" (.list [])) =
      (workspace.projects.map projectAdds.json).map Json.sorted := by
  have hkeys : ["name".toList, "projects".toList].Nodup := by decide
  refine items_get_sorted ?_ rfl _
  exact hkeys

theorem nodup_projectKeys : ["name".toList, "tenant_databases".toList, "buckets".toList].Nodup := by
  decide

theorem items_tenantDatabases (project : ProjectContent) :
    PyJson.items ((Json.sorted (projectAdds.json project)).get "tenant_databases" (.list [])) =
      (project.databases.map fun d => PyJson.str (hex d.id)).map Json.sorted := by
  refine items_get_sorted ?_ rfl _
  exact nodup_projectKeys

theorem items_buckets (project : ProjectContent) :
    PyJson.items ((Json.sorted (projectAdds.json project)).get "buckets" (.list [])) =
      (project.buckets.map bucketAdds.json).map Json.sorted := by
  refine items_get_sorted ?_ rfl _
  exact nodup_projectKeys

theorem items_files (bucket : BucketContent) :
    PyJson.items ((Json.sorted (bucketAdds.json bucket)).field "files") =
      (bucket.files.map fileAdds.json).map Json.sorted := by
  have hkeys : ["name".toList, "versioning_enabled".toList, "files".toList].Nodup := by decide
  refine items_field_sorted ?_ rfl
  exact hkeys

theorem str_contentRef (file : FileContent) :
    ((Json.sorted (fileAdds.json file)).field "content_ref").bind PyJson.asStr =
      some (objectArcname file.checksumSha256) := by
  have hkeys : ["folder_path".toList, "display_filename".toList, "original_filename".toList,
      "mime_type".toList, "size".toList, "checksum_sha256".toList, "content_ref".toList].Nodup := by decide
  refine str_field_sorted ?_ rfl
  exact hkeys

theorem str_schemaPath (d : DatabaseContent) :
    ((Json.sorted (databaseMember d).2).field "schema_path").bind PyJson.asStr =
      some (schemaArcname d) := by
  have hkeys : ["name".toList, "schema_path".toList].Nodup := by decide
  refine str_field_sorted ?_ rfl
  exact hkeys

theorem items_tables (d : DatabaseContent) :
    PyJson.items ((Json.sorted (schemaDict d)).field "tables") =
      (d.tables.map (tableDict d)).map Json.sorted := by
  have hkeys : ["name".toList, "tables".toList].Nodup := by decide
  refine items_field_sorted ?_ rfl
  exact hkeys

theorem str_rowsPath (d : DatabaseContent) (t : TableContent) :
    ((Json.sorted (tableDict d t)).field "rows_path").bind PyJson.asStr = some (rowsArcname d t) := by
  have hkeys : ["id".toList, "name".toList, "columns".toList, "foreign_keys".toList,
      "rows_path".toList].Nodup := by decide
  refine str_field_sorted ?_ rfl
  exact hkeys

theorem mem_projectsOf {info : ExportInfo} {value : PyJson}
    (h : value ∈ projectsOf (readMembers info content b)) :
    ∃ workspace ∈ content.workspaces, ∃ project ∈ workspace.projects,
      value = Json.sorted (projectAdds.json project) := by
  have horganization : Json.member? "organization".toList (readMembers info content b) =
      some (Json.sorted (organizationDict content (content.workspaces.map workspaceAdds.json))) :=
    member?_readMembers info content b "organization".toList
  unfold projectsOf at h
  rw [horganization] at h
  obtain ⟨w, hw, hvalue⟩ := List.mem_flatMap.mp h
  rw [Option.bind_some, items_workspaces] at hw
  obtain ⟨workspace, hworkspace, rfl⟩ := mem_map_map hw
  rw [items_projects] at hvalue
  obtain ⟨project, hproject, rfl⟩ := mem_map_map hvalue
  exact ⟨workspace, hworkspace, project, hproject, rfl⟩

/-- Every schema path is that of a tenant database. -/
theorem mem_schemaPaths {info : ExportInfo} (h : Finished f content b) {path : List Char}
    (hpath : path ∈ schemaPaths (readMembers info content b)) :
    ∃ d ∈ allDatabases content.workspaces, path = schemaArcname d := by
  obtain ⟨value, hvalue, hpath⟩ := List.mem_flatMap.mp hpath
  obtain ⟨workspace, hworkspace, project, hproject, rfl⟩ := mem_projectsOf hvalue
  obtain ⟨id, hid, hpath⟩ := List.mem_filterMap.mp hpath
  rw [items_tenantDatabases] at hid
  obtain ⟨d, hd, rfl⟩ := mem_map_map hid
  have hall := mem_allDatabases hworkspace hproject hd
  have hentry : Json.member? (hex d.id) b.databases = some (databaseMember d).2 := by
    rw [Json.member?_eq_some_iff h.nodup_databases, h.databases]
    exact List.mem_map_of_mem (f := databaseMember) hall
  have hdatabases : Json.member? "databases".toList (readMembers info content b) =
      some (.dict (Json.sortedDict b.databases)) :=
    member?_readMembers info content b "databases".toList
  have hitem : (PyJson.dict (Json.sortedDict b.databases)).item (Json.sorted (.str (hex d.id))) =
      some (Json.sorted (databaseMember d).2) :=
    (Json.member?_sortedDict h.nodup_databases).trans (congrArg (Option.map Json.sorted) hentry)
  have hschema := str_schemaPath d
  simp only [hdatabases, hitem, Option.bind_eq_bind, Option.bind_some, hschema,
    Option.some.injEq] at hpath
  exact ⟨d, hall, hpath.symm⟩

/-- Every rows path of a schema is that of one of its tables. -/
theorem mem_rowsPaths {info : ExportInfo} (h : Finished f content b) {d : DatabaseContent}
    (hd : d ∈ allDatabases content.workspaces) {path : List Char}
    (hpath : path ∈ rowsPaths (unpacked (finalEntries info content b)) (schemaArcname d)) :
    ∃ t ∈ d.tables, path = rowsArcname d t := by
  have hentry : (schemaArcname d, schemaBytes d) ∈ finalEntries info content b :=
    List.mem_append_left _ (h.databaseEntries_subset hd _
      (List.mem_append_right _ (List.mem_singleton_self _)))
  have hread := read_unpacked (h.nodup_final info) hentry
  have hload : Json.loadBytes (schemaBytes d) = some (Json.sorted (schemaDict d)) :=
    loadBytes_schemaBytes (content.integers d hd) (content.defaults d hd)
  unfold rowsPaths at hpath
  rw [hread] at hpath
  simp only [hload, Option.bind_some, items_tables] at hpath
  obtain ⟨value, hvalue, hpath⟩ := List.mem_filterMap.mp hpath
  obtain ⟨t, ht, rfl⟩ := mem_map_map hvalue
  rw [str_rowsPath, Option.some.injEq] at hpath
  exact ⟨t, ht, hpath.symm⟩

/-- Every content reference is that of a file. -/
theorem mem_contentRefs {info : ExportInfo} {path : List Char}
    (hpath : path ∈ contentRefs (readMembers info content b)) :
    ∃ file ∈ allFiles content.workspaces, path = objectArcname file.checksumSha256 := by
  obtain ⟨value, hvalue, hpath⟩ := List.mem_flatMap.mp hpath
  obtain ⟨workspace, hworkspace, project, hproject, rfl⟩ := mem_projectsOf hvalue
  obtain ⟨bucketValue, hbucketValue, hpath⟩ := List.mem_flatMap.mp hpath
  rw [items_buckets] at hbucketValue
  obtain ⟨bucket, hbucket, rfl⟩ := mem_map_map hbucketValue
  obtain ⟨fileValue, hfileValue, hpath⟩ := List.mem_filterMap.mp hpath
  rw [items_files] at hfileValue
  obtain ⟨file, hfile, rfl⟩ := mem_map_map hfileValue
  rw [str_contentRef, Option.some.injEq] at hpath
  exact ⟨file, mem_allFiles hworkspace hproject hbucket hfile, hpath.symm⟩

/-- The members that a restore reads are among those written before the manifest. -/
theorem mem_entries_of_named {info : ExportInfo} (h : Finished f content b) {name : List Char}
    (hname : name ∈ namedMembers (unpacked (finalEntries info content b)) (readMembers info content b)) :
    name ∈ b.entries.map (·.1) := by
  rcases List.mem_append.mp hname with hname | hname
  · rcases List.mem_append.mp hname with hname | hname
    · obtain ⟨d, hd, rfl⟩ := mem_schemaPaths h hname
      exact List.mem_map_of_mem (f := (·.1)) (h.databaseEntries_subset hd (schemaArcname d, schemaBytes d)
        (List.mem_append_right _ (List.mem_singleton_self _)))
    · obtain ⟨path, hpath, hname⟩ := List.mem_flatMap.mp hname
      obtain ⟨d, hd, rfl⟩ := mem_schemaPaths h hpath
      obtain ⟨t, ht, rfl⟩ := mem_rowsPaths h hd hname
      exact List.mem_map_of_mem (f := (·.1)) (h.databaseEntries_subset hd (rowsArcname d t, rowsBytes t)
        (List.mem_append_left _ (List.mem_map_of_mem ht)))
  · obtain ⟨file, hfile, rfl⟩ := mem_contentRefs hname
    exact h.content_mem hfile

/-! ## Names the archive format keeps -/

theorem archiveName_of_literal {name : List Char} (hlen : name.length < 65536)
    (hall : name.all (fun c => ' ' ≤ c && c ≤ '~') = true) : ArchiveName name := by
  refine ⟨hlen, fun c hc => ?_⟩
  have hc := List.all_eq_true.mp hall c hc
  simp only [Bool.and_eq_true, decide_eq_true_eq] at hc
  exact hc

theorem ArchiveName.append {s t : List Char} (hs : ArchiveName s) (ht : ArchiveName t)
    (hlen : (s ++ t).length < 65536) : ArchiveName (s ++ t) :=
  ⟨hlen, List.forall_mem_append.mpr ⟨hs.2, ht.2⟩⟩

theorem archiveName_hexText {width : Nat} (n : Nat) (hwidth : width < 65536) :
    ArchiveName (hexText width n) :=
  ⟨by rw [length_hexText]; exact hwidth, fun _ => Json.printable_of_mem_hexText⟩

theorem archiveName_object (f : Formats) (data : Bytes) :
    ArchiveName (objectArcname (f.hexdigest data)) := by
  have hprefix : ArchiveName "objects/".toList := archiveName_of_literal (by decide) (by decide)
  have hdigest : ArchiveName (f.hexdigest data) := archiveName_hexText _ (by omega)
  have hlen : ("objects/".toList ++ f.hexdigest data).length < 65536 := by
    have hobject : "objects/".toList.length = 8 := by decide
    rw [List.length_append, Formats.hexdigest, length_hexText, hobject]
    omega
  exact hprefix.append hdigest hlen

theorem archiveName_base (d : DatabaseContent) : ArchiveName (databaseBase d) := by
  have hprefix : ArchiveName "databases/".toList := archiveName_of_literal (by decide) (by decide)
  have hhex : ArchiveName (hex d.id) := archiveName_hexText _ (by omega)
  have hlen := length_databaseBase d
  exact hprefix.append hhex (hlen ▸ by omega)

theorem archiveName_rows (d : DatabaseContent) (t : TableContent) : ArchiveName (rowsArcname d t) := by
  have hrows : ArchiveName "/rows/".toList := archiveName_of_literal (by decide) (by decide)
  have hcsv : ArchiveName ".csv".toList := archiveName_of_literal (by decide) (by decide)
  have hhex : ArchiveName (hex t.id) := archiveName_hexText _ (by omega)
  have hlen := length_rowsArcname d t
  refine ⟨by omega, ?_⟩
  exact List.forall_mem_append.mpr ⟨(archiveName_base d).2, List.forall_mem_append.mpr ⟨hrows.2,
    List.forall_mem_append.mpr ⟨hhex.2, hcsv.2⟩⟩⟩

theorem archiveName_schema (d : DatabaseContent) : ArchiveName (schemaArcname d) := by
  have hschema : ArchiveName "/schema.json".toList := archiveName_of_literal (by decide) (by decide)
  have hlen := length_schemaArcname d
  exact (archiveName_base d).append hschema (hlen ▸ by omega)

theorem Finished.archiveNames (h : Finished f content b) (info : ExportInfo) :
    ∀ e ∈ finalEntries info content b, ArchiveName e.1 := by
  refine List.forall_mem_append.mpr ⟨fun e he => ?_, List.forall_mem_singleton.mpr ?_⟩
  · rcases h.mem_entries he with ⟨data, hobject⟩ | ⟨d, -, hd⟩
    · rw [hobject]
      exact archiveName_object f data
    · rcases List.mem_append.mp hd with hd | hd
      · obtain ⟨t, -, rfl⟩ := List.mem_map.mp hd
        exact archiveName_rows d t
      · rw [List.mem_singleton.mp hd]
        exact archiveName_schema d
  · have hmanifest : ArchiveName "manifest.json".toList := archiveName_of_literal (by decide) (by decide)
    exact hmanifest

/-! ## Acceptance -/

/-- The package is accepted, no member name is in it twice, and what a restore reads is verified. -/
def Accepted {Key : Type} (p : Primitives Key) (f : Formats) (data : Bytes)
    (passphrase : Option (List Char)) : Prop :=
  ∃ a manifest, openPackage p f data passphrase = .ok (a, manifest) ∧
    verifyChecksums f a manifest = .ok () ∧ (a.map (·.1)).Nodup ∧ CoversReads f a manifest

theorem accepted_of_payload {Key : Type} {p : Primitives Key} {info : ExportInfo} {data : Bytes}
    {passphrase : Option (List Char)} (hf : f.RoundTrips) (h : Finished f content b)
    (hread : readContainerPayload p data passphrase = .ok (f.pack (finalEntries info content b))) :
    Accepted p f data passphrase := by
  have hverify := verify_built info h
  refine ⟨unpacked (finalEntries info content b), readMembers info content b, ?_, hverify, ?_, ?_⟩
  · unfold openPackage
    rw [hread]
    exact openArchive_built info hf h (h.archiveNames info)
  · rw [unpacked, List.map_map]
    exact h.nodup_final info
  · intro name hname
    exact verified_of_listed hverify (listed_of_mem info h (mem_entries_of_named h hname))

/-- Whatever an organization holds and whatever the passphrase, the package that is built of it is
accepted with that passphrase. -/
theorem buildExport_accepted {Key : Type} (p : Primitives Key) (f : Formats) (r : Randomness)
    (info : ExportInfo) (content : OrganizationContent) (passphrase : Option (List Char))
    (entries : List (List Char × Bytes)) (hf : f.RoundTrips)
    (hentries : archiveEntries f info content = some entries)
    (hopens : p.Opens r (f.pack entries) passphrase) :
    ∃ data checksum, buildExport p f r info content passphrase = some (data, checksum) ∧
      Accepted p f data passphrase := by
  obtain ⟨b, hfinished, rfl⟩ := archiveEntries_eq hentries
  obtain ⟨data, hwrite, hread⟩ := read_written_of_opens hopens
  refine ⟨data, f.hexdigest data, ?_, accepted_of_payload hf hfinished hread⟩
  simp only [buildExport, hentries, hwrite, Option.bind_eq_bind, Option.bind_some, Option.pure_def]

/-- The SHA-256 of some contents. -/
def knownDigests : List (Bytes × BitVec 256) :=
  [([], 0xe3b0c44298fc1c149afbf4c8996fb92427ae41e4649b934ca495991b7852b855),
    ([65], 0x559aead08264d5795d3909718cdd05abd49572e84fe55590eef31a88a08fdffd),
    ([72, 105], 0x3639efcd08abb273b1619e82e78c29a7df02c1051b1820e99fc395dcaa3326b8)]

/-- An archive as a `dict` of hexadecimal texts, with the SHA-256 of these contents. -/
def textFormats : Formats where
  unpack data := (asDict (Json.loadBytes data)).bind fun members => members.mapM fun m =>
    (m.2.asStr.bind fromHex).map fun bytes => (m.1, .ok bytes)
  pack entries := utf8Encode (Json.dumps (.dict (entries.map fun e => (e.1, .str (hexOfBytes e.2)))))
  sha256 data :=
    ((knownDigests.find? fun digest => digest.1 = data).map (·.2)).getD (BitVec.ofNat 256 (fromBytes data))

theorem roundTrips_textFormats : textFormats.RoundTrips := by
  intro entries hnodup hnames
  have hmembers : Json.WritableMembers (entries.map fun e => (e.1, PyJson.str (hexOfBytes e.2))) := by
    rw [Json.writableMembers_iff]
    intro m hm
    obtain ⟨e, -, rfl⟩ := List.mem_map.mp hm
    trivial
  have hwritable : Json.Writable (.dict (entries.map fun e => (e.1, PyJson.str (hexOfBytes e.2)))) := by
    refine ⟨?_, hmembers⟩
    rw [List.map_map]
    exact hnodup
  have hload : Json.loadBytes (textFormats.pack entries) =
      some (.dict (entries.map fun e => (e.1, PyJson.str (hexOfBytes e.2)))) :=
    loadBytes_text none hwritable
  have hunpack : textFormats.unpack (textFormats.pack entries) =
      (entries.map fun e => (e.1, PyJson.str (hexOfBytes e.2))).mapM fun m =>
        (m.2.asStr.bind fromHex).map fun bytes => (m.1, Except.ok bytes) := by
    show (asDict (Json.loadBytes (textFormats.pack entries))).bind _ = _
    rw [hload]
    rfl
  rw [hunpack]
  clear hunpack hload hwritable hmembers hnames hnodup
  induction entries with
  | nil => rfl
  | cons e entries ih =>
    rw [List.map_cons, List.mapM_cons, ih]
    simp only [PyJson.asStr, Option.bind_some, fromHex_hexOfBytes, Option.map_some,
      Option.bind_eq_bind, Option.pure_def, List.map_cons]

/-- A file that holds a text. -/
def textFile (folders : List String) (name : String) (body : Bytes) : FileContent :=
  ⟨folders, name, name, "text/plain", body.length, textFormats.hexdigest body, body⟩

/-- A table with a row. -/
def exampleTable : TableContent where
  id := 32
  name := "orders"
  columns :=
    [{ id := 33, table := 32, name := "label", dataType := .text, isNullable := false,
       defaultValue := some (.str "new") },
      { id := 34, table := 32, name := "buyer", dataType := .uuid }]
  foreignKeys := [⟨"buyer", "orders", "id", .setNull⟩]
  rows := [["id".toList, "label".toList, "buyer".toList], [uuidText 35, "pens, red".toList, []]]

/-- An organization with a tenant database and three files, two of one content and one empty. -/
def exampleOrganization : OrganizationContent where
  name := "Acme"
  slug := "acme"
  workspaces := [⟨"Main", [⟨"Site", [⟨31, "sales", [exampleTable]⟩],
    [⟨"files", false, [textFile ["a", "b"] "x.txt" [72, 105], textFile [] "y.txt" [72, 105],
      textFile ["a"] "z.txt" []]⟩]⟩]⟩]
  teams := ["Ops"]
  memberships := [⟨"ada@example.org", some "Ops", ["developer"]⟩]
  databaseKeys := List.nodup_singleton _
  tableKeys d hd := by
    obtain rfl := List.mem_singleton.mp hd
    exact List.nodup_singleton _
  integers d hd t ht := by
    obtain rfl := List.mem_singleton.mp hd
    obtain rfl := List.mem_singleton.mp ht
    decide
  defaults d hd t ht c hc := by
    obtain rfl := List.mem_singleton.mp hd
    obtain rfl := List.mem_singleton.mp ht
    rcases List.mem_pair.mp hc with rfl | rfl <;> trivial
  sizes := by decide

theorem buildExport_accepted_organization : ∃ entries,
    archiveEntries textFormats ⟨"1.0", 7⟩ exampleOrganization = some entries ∧
    ∃ data checksum, buildExport (recordingCipher zeroDraws (textFormats.pack entries) ['k']) textFormats
        zeroDraws ⟨"1.0", 7⟩ exampleOrganization (some ['k']) = some (data, checksum) ∧
      Accepted (recordingCipher zeroDraws (textFormats.pack entries) ['k']) textFormats data
        (some ['k']) := by
  have hsome : (archiveEntries textFormats ⟨"1.0", 7⟩ exampleOrganization).isSome = true := by rfl
  obtain ⟨entries, hentries⟩ := Option.isSome_iff_exists.mp hsome
  exact ⟨entries, hentries, buildExport_accepted _ textFormats zeroDraws ⟨"1.0", 7⟩ exampleOrganization
    (some ['k']) entries roundTrips_textFormats hentries (ideal_recordingCipher _ _ _).opens_written⟩

end Exports
