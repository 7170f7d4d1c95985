import IntraCloud.Exports.Builder
import IntraCloud.Exports.Proofs.PackageProofs

/-!
# What the builder writes, the verifier accepts

Each loop of `build_export` is described by what it adds to the archive: the members that are no objects,
the entries of the manifest's databases, and the checksums of the files whose content it has seen to.
-/

namespace Exports

open Databases Python

variable {f : Formats} {b b' b'' : Building}

/-! ## Names -/

/-- The member is the content of a file. -/
def isObject (name : List Char) : Bool := "objects/".toList.isPrefixOf name

theorem isObject_objectArcname (checksum : List Char) : isObject (objectArcname checksum) = true := rfl

theorem isObject_rowsArcname (d : DatabaseContent) (t : TableContent) :
    isObject (rowsArcname d t) = false := rfl

theorem isObject_schemaArcname (d : DatabaseContent) : isObject (schemaArcname d) = false := rfl

theorem objectArcname_injective {c c' : List Char} (h : objectArcname c = objectArcname c') : c = c' :=
  List.append_cancel_left h

/-- The members a tenant database adds. -/
def databaseEntries (d : DatabaseContent) : List (List Char × Bytes) :=
  d.tables.map (fun t => (rowsArcname d t, rowsBytes t)) ++ [(schemaArcname d, schemaBytes d)]

/-- The entry of `databases_manifest`. -/
def databaseMember (d : DatabaseContent) : List Char × PyJson :=
  (hex d.id, .dict [
    ("name".toList, jsonStr d.name),
    ("schema_path".toList, .str (schemaArcname d))])

/-! ## The archive under way -/

/-- The checksums of the members, as a `dict` filled in their order. -/
def recorded (f : Formats) (entries : List (List Char × Bytes)) : List (List Char × PyJson) :=
  entries.map fun e => (e.1, .str (f.hexdigest e.2))

/-- What holds of the archive throughout. -/
structure Sound (f : Formats) (b : Building) : Prop where
  checksums : b.checksums = (recorded f b.entries).foldl (fun ms e => Json.setMember e.1 e.2 ms) []
  objects : (b.entries.map (·.1)).filter isObject = b.arcnames.map fun a => objectArcname a.1
  keys : (b.arcnames.map (·.1)).Nodup
  refs : ∀ a ∈ b.arcnames, a.2 = objectArcname a.1
  digests : ∀ a ∈ b.arcnames, ∃ data, a.1 = f.hexdigest data

/-- What a part of the export adds: members that are no objects, databases, and the content of files. -/
structure Wrote (b b' : Building) (entries : List (List Char × Bytes))
    (databases : List (List Char × PyJson)) (checksums : List (List Char)) : Prop where
  entries : b'.entries.filter (fun e => !isObject e.1) =
    b.entries.filter (fun e => !isObject e.1) ++ entries
  databases : b'.databases = databases.foldl (fun ms e => Json.setMember e.1 e.2 ms) b.databases
  arcnames : ∀ c ∈ b.arcnames.map (·.1), c ∈ b'.arcnames.map (·.1)
  stored : ∀ c ∈ checksums, c ∈ b'.arcnames.map (·.1)

theorem Wrote.refl (b : Building) : Wrote b b [] [] [] :=
  ⟨(List.append_nil _).symm, rfl, fun _ h => h, List.forall_mem_nil _⟩

theorem Wrote.trans {e e' : List (List Char × Bytes)} {d d' : List (List Char × PyJson)}
    {c c' : List (List Char)} (h : Wrote b b' e d c) (h' : Wrote b' b'' e' d' c') :
    Wrote b b'' (e ++ e') (d ++ d') (c ++ c') where
  entries := by rw [h'.entries, h.entries, List.append_assoc]
  databases := by rw [h'.databases, h.databases, List.foldl_append]
  arcnames c hc := h'.arcnames c (h.arcnames c hc)
  stored := List.forall_mem_append.mpr ⟨fun c hc => h'.arcnames c (h.stored c hc), h'.stored⟩

/-- A member that is no object. -/
theorem Sound.write (h : Sound f b) {name : List Char} (data : Bytes) (hname : isObject name = false) :
    Sound f (b.write f name data) ∧ Wrote b (b.write f name data) [(name, data)] [] [] := by
  refine ⟨⟨?_, ?_, h.keys, h.refs, h.digests⟩, ⟨?_, rfl, fun _ hc => hc, List.forall_mem_nil _⟩⟩
  · simp only [Building.write, recorded, List.map_append, List.map_cons, List.map_nil, List.foldl_append,
      List.foldl_cons, List.foldl_nil]
    rw [h.checksums, recorded]
  · simp only [Building.write, List.map_append, List.map_cons, List.map_nil, List.filter_append]
    rw [h.objects, List.filter_cons_of_neg (by simp [hname]), List.filter_nil, List.append_nil]
  · simp only [Building.write, List.filter_append]
    rw [List.filter_cons_of_pos (by simp [hname]), List.filter_nil]

/-! ## Tenant databases -/

theorem exportTables_spec (d : DatabaseContent) (tables : List TableContent) (h : Sound f b) :
    Sound f (tables.foldl (fun b t => b.write f (rowsArcname d t) (rowsBytes t)) b) ∧
      Wrote b (tables.foldl (fun b t => b.write f (rowsArcname d t) (rowsBytes t)) b)
        (tables.map fun t => (rowsArcname d t, rowsBytes t)) [] [] := by
  induction tables generalizing b with
  | nil => exact ⟨h, Wrote.refl b⟩
  | cons t tables ih =>
    obtain ⟨hsound, hwrote⟩ := h.write (rowsBytes t) (isObject_rowsArcname d t)
    obtain ⟨hsound', hwrote'⟩ := ih hsound
    exact ⟨hsound', hwrote.trans hwrote'⟩

theorem exportDatabase_spec (d : DatabaseContent) (h : Sound f b) :
    Sound f (exportDatabase f b d) ∧
      Wrote b (exportDatabase f b d) (databaseEntries d) [databaseMember d] [] := by
  obtain ⟨htables, hwrote⟩ := exportTables_spec d d.tables h
  obtain ⟨hsound, hschema⟩ := htables.write (schemaBytes d) (isObject_schemaArcname d)
  have hboth := hwrote.trans hschema
  exact ⟨⟨hsound.checksums, hsound.objects, hsound.keys, hsound.refs, hsound.digests⟩,
    ⟨hboth.entries, congrArg (Json.setMember _ _) hboth.databases, hboth.arcnames, hboth.stored⟩⟩

theorem exportDatabases_spec (ds : List DatabaseContent) (h : Sound f b) :
    Sound f (ds.foldl (exportDatabase f) b) ∧
      Wrote b (ds.foldl (exportDatabase f) b) (ds.flatMap databaseEntries) (ds.map databaseMember) [] := by
  induction ds generalizing b with
  | nil => exact ⟨h, Wrote.refl b⟩
  | cons d ds ih =>
    obtain ⟨hsound, hwrote⟩ := exportDatabase_spec d h
    obtain ⟨hsound', hwrote'⟩ := ih hsound
    exact ⟨hsound', hwrote.trans hwrote'⟩

/-! ## Loops -/

/-- What a part of the export adds for an item, and the JSON it returns. -/
structure Adds (α : Type) where
  entries : α → List (List Char × Bytes)
  databases : α → List (List Char × PyJson)
  checksums : α → List (List Char)
  json : α → PyJson

/-- The body of a loop does that. -/
def ExportsAs {α : Type} (f : Formats) (g : Building → α → Option (Building × PyJson))
    (adds : Adds α) : Prop :=
  ∀ b a b' j, Sound f b → g b a = some (b', j) →
    Sound f b' ∧ Wrote b b' (adds.entries a) (adds.databases a) (adds.checksums a) ∧ j = adds.json a

/-- And so does the loop. -/
theorem ExportsAs.mapAccum {α : Type} {g : Building → α → Option (Building × PyJson)} {adds : Adds α}
    (h : ExportsAs f g adds) {as : List α} {out : List PyJson} (hsound : Sound f b)
    (hloop : mapAccum? g b as = some (b', out)) :
    Sound f b' ∧ Wrote b b' (as.flatMap adds.entries) (as.flatMap adds.databases)
      (as.flatMap adds.checksums) ∧ out = as.map adds.json := by
  induction as generalizing b out with
  | nil =>
    obtain ⟨rfl, rfl⟩ := Prod.mk.inj (Option.some.inj hloop)
    exact ⟨hsound, Wrote.refl b, rfl⟩
  | cons a as ih =>
    simp only [mapAccum?, Option.bind_eq_bind, Option.bind_eq_some_iff, Option.pure_def,
      Option.some.injEq, Prod.exists, Prod.mk.injEq] at hloop
    obtain ⟨b1, j, hbody, b2, js, hrest, rfl, rfl⟩ := hloop
    obtain ⟨hsound1, hwrote1, rfl⟩ := h b a b1 j hsound hbody
    obtain ⟨hsound2, hwrote2, rfl⟩ := ih hsound1 hrest
    exact ⟨hsound2, hwrote1.trans hwrote2, rfl⟩

/-! ## Buckets -/

def fileAdds : Adds FileContent where
  entries _ := []
  databases _ := []
  checksums file := [file.checksumSha256]
  json file := fileDict file (objectArcname file.checksumSha256)

theorem find_arcname {c : List Char} {found : List Char × List Char}
    (h : b.arcnames.find? (·.1 == c) = some found) : found ∈ b.arcnames ∧ found.1 = c := by
  have hkey := List.find?_some h
  exact ⟨List.mem_of_find?_eq_some h, eq_of_beq hkey⟩

theorem not_mem_arcnames {c : List Char} (h : b.arcnames.find? (·.1 == c) = none) :
    c ∉ b.arcnames.map (·.1) := by
  intro hmem
  obtain ⟨a, ha, rfl⟩ := List.mem_map.mp hmem
  exact absurd (beq_self_eq_true a.1) (List.find?_eq_none.mp h a ha)

theorem exportFile_spec : ExportsAs f (exportFile f) fileAdds := by
  intro b file b' j hsound h
  unfold exportFile at h
  cases hfind : b.arcnames.find? (·.1 == file.checksumSha256) with
  | some found =>
    simp only [hfind, Option.some.injEq, Prod.mk.injEq] at h
    obtain ⟨rfl, rfl⟩ := h
    obtain ⟨hmem, hkey⟩ := find_arcname hfind
    have hstored : file.checksumSha256 ∈ b.arcnames.map (·.1) := hkey ▸ List.mem_map_of_mem hmem
    refine ⟨hsound, ⟨(List.append_nil _).symm, rfl, fun _ hc => hc, ?_⟩, ?_⟩
    · exact List.forall_mem_singleton.mpr hstored
    · rw [hsound.refs found hmem, hkey]
      rfl
  | none =>
    have hnew := not_mem_arcnames hfind
    simp only [hfind] at h
    split_ifs at h with hdigest
    obtain ⟨rfl, rfl⟩ := Prod.mk.inj (Option.some.inj h)
    refine ⟨⟨?_, ?_, ?_, ?_, ?_⟩, ⟨?_, rfl, ?_, ?_⟩, rfl⟩
    · simp only [Building.write, recorded, List.map_append, List.map_cons, List.map_nil,
        List.foldl_append, List.foldl_cons, List.foldl_nil]
      rw [hsound.checksums, recorded]
    · simp only [Building.write, List.map_append, List.map_cons, List.map_nil, List.filter_append]
      rw [hsound.objects, List.filter_cons_of_pos (isObject_objectArcname _), List.filter_nil]
    · rw [List.map_append, List.nodup_append]
      refine ⟨hsound.keys, List.nodup_singleton _, ?_⟩
      intro c hc d hd heq
      rw [List.map_singleton, List.mem_singleton] at hd
      rw [heq, hd] at hc
      exact hnew hc
    · exact List.forall_mem_append.mpr ⟨hsound.refs, List.forall_mem_singleton.mpr rfl⟩
    · refine List.forall_mem_append.mpr ⟨hsound.digests, List.forall_mem_singleton.mpr ?_⟩
      exact ⟨file.body, (not_not.mp hdigest).symm⟩
    · simp only [Building.write, List.filter_append]
      rw [List.filter_cons_of_neg (by simp [isObject_objectArcname]), List.filter_nil]
      rfl
    · intro c hc
      rw [List.map_append]
      exact List.mem_append_left _ hc
    · refine List.forall_mem_singleton.mpr ?_
      rw [List.map_append]
      exact List.mem_append_right _ (List.mem_singleton_self _)

def bucketAdds : Adds BucketContent where
  entries bucket := bucket.files.flatMap fileAdds.entries
  databases bucket := bucket.files.flatMap fileAdds.databases
  checksums bucket := bucket.files.flatMap fileAdds.checksums
  json bucket := bucketDict bucket (bucket.files.map fileAdds.json)

theorem exportBucket_spec : ExportsAs f (exportBucket f) bucketAdds := by
  intro b bucket b' j hsound h
  obtain ⟨⟨b1, files⟩, hloop, heq⟩ := Option.map_eq_some_iff.mp h
  obtain ⟨rfl, rfl⟩ := Prod.mk.inj heq
  obtain ⟨hsound', hwrote, rfl⟩ := exportFile_spec.mapAccum hsound hloop
  exact ⟨hsound', hwrote, rfl⟩

/-! ## Projects and workspaces -/

def projectAdds : Adds ProjectContent where
  entries project := project.databases.flatMap databaseEntries ++
    project.buckets.flatMap bucketAdds.entries
  databases project := project.databases.map databaseMember ++
    project.buckets.flatMap bucketAdds.databases
  checksums project := project.buckets.flatMap bucketAdds.checksums
  json project := projectDict project (project.buckets.map bucketAdds.json)

theorem exportProject_spec : ExportsAs f (exportProject f) projectAdds := by
  intro b project b' j hsound h
  obtain ⟨⟨b1, buckets⟩, hloop, heq⟩ := Option.map_eq_some_iff.mp h
  obtain ⟨rfl, rfl⟩ := Prod.mk.inj heq
  obtain ⟨hdatabases, hwrote⟩ := exportDatabases_spec project.databases hsound
  obtain ⟨hsound', hwrote', rfl⟩ := exportBucket_spec.mapAccum hdatabases hloop
  exact ⟨hsound', hwrote.trans hwrote', rfl⟩

def workspaceAdds : Adds WorkspaceContent where
  entries workspace := workspace.projects.flatMap projectAdds.entries
  databases workspace := workspace.projects.flatMap projectAdds.databases
  checksums workspace := workspace.projects.flatMap projectAdds.checksums
  json workspace := workspaceDict workspace (workspace.projects.map projectAdds.json)

theorem exportWorkspace_spec : ExportsAs f (exportWorkspace f) workspaceAdds := by
  intro b workspace b' j hsound h
  obtain ⟨⟨b1, projects⟩, hloop, heq⟩ := Option.map_eq_some_iff.mp h
  obtain ⟨rfl, rfl⟩ := Prod.mk.inj heq
  obtain ⟨hsound', hwrote, rfl⟩ := exportProject_spec.mapAccum hsound hloop
  exact ⟨hsound', hwrote, rfl⟩

/-- Files add neither members that are no objects nor databases. -/
theorem bucketAdds_entries (bucket : BucketContent) : bucketAdds.entries bucket = [] :=
  List.flatMap_eq_nil_iff.mpr fun _ _ => rfl

theorem bucketAdds_databases (bucket : BucketContent) : bucketAdds.databases bucket = [] :=
  List.flatMap_eq_nil_iff.mpr fun _ _ => rfl

theorem projectAdds_entries :
    projectAdds.entries = fun project => project.databases.flatMap databaseEntries := by
  funext project
  have hbuckets : project.buckets.flatMap bucketAdds.entries = [] :=
    List.flatMap_eq_nil_iff.mpr fun bucket _ => bucketAdds_entries bucket
  exact (congrArg _ hbuckets).trans (List.append_nil _)

theorem projectAdds_databases :
    projectAdds.databases = fun project => project.databases.map databaseMember := by
  funext project
  have hbuckets : project.buckets.flatMap bucketAdds.databases = [] :=
    List.flatMap_eq_nil_iff.mpr fun bucket _ => bucketAdds_databases bucket
  exact (congrArg _ hbuckets).trans (List.append_nil _)

theorem workspaceAdds_entries (workspaces : List WorkspaceContent) :
    workspaces.flatMap workspaceAdds.entries = (allDatabases workspaces).flatMap databaseEntries := by
  simp only [workspaceAdds, allDatabases, List.flatMap_assoc, projectAdds_entries]

theorem workspaceAdds_databases (workspaces : List WorkspaceContent) :
    workspaces.flatMap workspaceAdds.databases = (allDatabases workspaces).map databaseMember := by
  simp only [workspaceAdds, allDatabases, List.map_flatMap, projectAdds_databases]

theorem fileAdds_checksums (files : List FileContent) :
    files.flatMap fileAdds.checksums = files.map (·.checksumSha256) := by
  induction files with
  | nil => rfl
  | cons file files ih => rw [List.flatMap_cons, ih, List.map_cons]; rfl

theorem workspaceAdds_checksums (workspaces : List WorkspaceContent) :
    workspaces.flatMap workspaceAdds.checksums = (allFiles workspaces).map (·.checksumSha256) := by
  simp only [workspaceAdds, projectAdds, bucketAdds, allFiles, List.map_flatMap, fileAdds_checksums]

/-! ## Names are written once -/

theorem nodup_of_filters {α : Type} {l : List α} (p : α → Bool) (h : (l.filter p).Nodup)
    (h' : (l.filter fun x => !p x).Nodup) : l.Nodup := by
  rw [← (List.filter_append_perm p l).nodup_iff, List.nodup_append]
  refine ⟨h, h', ?_⟩
  rintro x hx y hy rfl
  have htrue := (List.mem_filter.mp hx).2
  have hfalse := (List.mem_filter.mp hy).2
  rw [htrue] at hfalse
  exact Bool.noConfusion hfalse

theorem length_hex (id : Uuid) : (hex id).length = 32 := length_hexText 32 id

theorem rowsArcname_injective {d : DatabaseContent} {t t' : TableContent}
    (h : rowsArcname d t = rowsArcname d t') : hex t.id = hex t'.id := by
  have hrest := List.append_cancel_left (List.append_cancel_left h)
  exact List.append_cancel_right hrest

theorem length_databaseBase (d : DatabaseContent) : (databaseBase d).length = 42 := by
  have hprefix : "databases/".toList.length = 10 := by decide
  have hhex := length_hex d.id
  have happend : (databaseBase d).length = "databases/".toList.length + (hex d.id).length :=
    List.length_append
  omega

theorem length_rowsArcname (d : DatabaseContent) (t : TableContent) :
    (rowsArcname d t).length = 84 := by
  have hbase := length_databaseBase d
  have hrows : "/rows/".toList.length = 6 := by decide
  have hhex := length_hex t.id
  have hcsv : ".csv".toList.length = 4 := by decide
  have happend : (rowsArcname d t).length = (databaseBase d).length + ("/rows/".toList.length +
      ((hex t.id).length + ".csv".toList.length)) := by
    unfold rowsArcname
    rw [List.length_append, List.length_append, List.length_append]
  omega

theorem length_schemaArcname (d : DatabaseContent) : (schemaArcname d).length = 54 := by
  have hbase := length_databaseBase d
  have hschema : "/schema.json".toList.length = 12 := by decide
  have happend : (schemaArcname d).length = (databaseBase d).length + "/schema.json".toList.length :=
    List.length_append
  omega

theorem rowsArcname_ne_schemaArcname (d : DatabaseContent) (t : TableContent) :
    rowsArcname d t ≠ schemaArcname d := by
  intro h
  have hrows := length_rowsArcname d t
  have hschema := length_schemaArcname d
  rw [h] at hrows
  omega

/-- The names of a database start with its base. -/
theorem take_of_mem_databaseEntries {d : DatabaseContent} {e : List Char × Bytes}
    (h : e ∈ databaseEntries d) : e.1.take 42 = databaseBase d := by
  have hlen := length_databaseBase d
  rcases List.mem_append.mp h with h | h
  · obtain ⟨t, -, rfl⟩ := List.mem_map.mp h
    exact List.take_left' hlen
  · rw [List.mem_singleton.mp h]
    exact List.take_left' hlen

theorem nodup_databaseEntries {d : DatabaseContent} (h : (d.tables.map fun t => hex t.id).Nodup) :
    ((databaseEntries d).map (·.1)).Nodup := by
  rw [databaseEntries, List.map_append, List.map_map, List.nodup_append]
  refine ⟨?_, List.nodup_singleton _, ?_⟩
  · rw [List.Nodup, List.pairwise_map] at h ⊢
    exact h.imp fun hne heq => hne (rowsArcname_injective heq)
  · intro x hx y hy heq
    obtain ⟨t, -, rfl⟩ := List.mem_map.mp hx
    rw [List.map_singleton, List.mem_singleton] at hy
    exact rowsArcname_ne_schemaArcname d t (heq.trans hy)

theorem databaseBase_injective {d d' : DatabaseContent} (h : databaseBase d = databaseBase d') :
    hex d.id = hex d'.id := List.append_cancel_left h

theorem nodup_allDatabases {ds : List DatabaseContent} (hkeys : (ds.map fun d => hex d.id).Nodup)
    (htables : ∀ d ∈ ds, (d.tables.map fun t => hex t.id).Nodup) :
    ((ds.flatMap databaseEntries).map (·.1)).Nodup := by
  rw [List.map_flatMap, List.nodup_flatMap]
  refine ⟨fun d hd => nodup_databaseEntries (htables d hd), ?_⟩
  rw [List.Nodup, List.pairwise_map] at hkeys
  refine hkeys.imp ?_
  intro d d' hne name hname hname'
  obtain ⟨e, he, rfl⟩ := List.mem_map.mp hname
  obtain ⟨e', he', heq⟩ := List.mem_map.mp hname'
  have hbase := take_of_mem_databaseEntries he
  rw [← heq, take_of_mem_databaseEntries he'] at hbase
  exact hne (databaseBase_injective hbase.symm)

/-! ## The finished archive -/

/-- The archive before the manifest, at the end of all loops. -/
structure Finished (f : Formats) (content : OrganizationContent) (b : Building) : Prop where
  sound : Sound f b
  entries : b.entries.filter (fun e => !isObject e.1) =
    (allDatabases content.workspaces).flatMap databaseEntries
  databases : b.databases = (allDatabases content.workspaces).map databaseMember
  stored : ∀ file ∈ allFiles content.workspaces, file.checksumSha256 ∈ b.arcnames.map (·.1)

theorem sound_empty (f : Formats) : Sound f Building.empty :=
  ⟨rfl, rfl, List.nodup_nil, List.forall_mem_nil _, List.forall_mem_nil _⟩

theorem finished_of_loops {content : OrganizationContent} {out : List PyJson}
    (h : mapAccum? (exportWorkspace f) Building.empty content.workspaces = some (b, out)) :
    Finished f content b ∧ out = content.workspaces.map workspaceAdds.json := by
  obtain ⟨hsound, hwrote, hout⟩ := exportWorkspace_spec.mapAccum (sound_empty f) h
  refine ⟨⟨hsound, ?_, ?_, ?_⟩, hout⟩
  · rw [hwrote.entries, workspaceAdds_entries]
    rfl
  · have hkeys : (([] ++ (allDatabases content.workspaces).map databaseMember).map
        fun m : List Char × PyJson => m.1).Nodup := by
      rw [List.nil_append, List.map_map]
      exact content.databaseKeys
    rw [hwrote.databases, workspaceAdds_databases]
    exact (Json.foldl_setMember hkeys).trans (List.nil_append _)
  · intro file hfile
    apply hwrote.stored
    rw [workspaceAdds_checksums]
    exact List.mem_map_of_mem hfile

variable {content : OrganizationContent}

theorem Finished.nodup (h : Finished f content b) : (b.entries.map (·.1)).Nodup := by
  apply nodup_of_filters isObject
  · rw [h.sound.objects]
    have hkeys := h.sound.keys
    rw [List.Nodup, List.pairwise_map] at hkeys ⊢
    exact hkeys.imp fun hne heq => hne (objectArcname_injective heq)
  · have hfilter : (b.entries.map (·.1)).filter (fun name => !isObject name) =
        (b.entries.filter fun e => !isObject e.1).map (·.1) := List.filter_map ..
    rw [hfilter, h.entries]
    exact nodup_allDatabases content.databaseKeys content.tableKeys

theorem Finished.checksums_eq (h : Finished f content b) : b.checksums = recorded f b.entries := by
  have hkeys : (([] ++ recorded f b.entries).map fun m : List Char × PyJson => m.1).Nodup := by
    rw [List.nil_append, recorded, List.map_map]
    exact h.nodup
  rw [h.sound.checksums, Json.foldl_setMember hkeys, List.nil_append]

/-- Every member is an object or of a database. -/
theorem Finished.mem_entries (h : Finished f content b) {e : List Char × Bytes} (he : e ∈ b.entries) :
    (∃ data, e.1 = objectArcname (f.hexdigest data)) ∨
      ∃ d ∈ allDatabases content.workspaces, e ∈ databaseEntries d := by
  cases hobject : isObject e.1 with
  | true =>
    have hmem : e.1 ∈ (b.entries.map (·.1)).filter isObject :=
      List.mem_filter.mpr ⟨List.mem_map_of_mem he, hobject⟩
    rw [h.sound.objects] at hmem
    obtain ⟨a, ha, heq⟩ := List.mem_map.mp hmem
    obtain ⟨data, hdata⟩ := h.sound.digests a ha
    exact .inl ⟨data, by rw [← heq, hdata]⟩
  | false =>
    have hmem : e ∈ b.entries.filter fun e => !isObject e.1 :=
      List.mem_filter.mpr ⟨he, by rw [hobject]; rfl⟩
    rw [h.entries] at hmem
    exact .inr (List.mem_flatMap.mp hmem)

theorem Finished.databaseEntries_subset (h : Finished f content b) {d : DatabaseContent}
    (hd : d ∈ allDatabases content.workspaces) : ∀ e ∈ databaseEntries d, e ∈ b.entries := by
  intro e he
  have hmem : e ∈ b.entries.filter fun e => !isObject e.1 := by
    rw [h.entries]
    exact List.mem_flatMap.mpr ⟨d, hd, he⟩
  exact (List.mem_filter.mp hmem).1

/-- The content of every file is a member. -/
theorem Finished.content_mem (h : Finished f content b) {file : FileContent}
    (hfile : file ∈ allFiles content.workspaces) :
    objectArcname file.checksumSha256 ∈ b.entries.map (·.1) := by
  obtain ⟨a, ha, heq⟩ := List.mem_map.mp (h.stored file hfile)
  have hmem : objectArcname file.checksumSha256 ∈ (b.entries.map (·.1)).filter isObject := by
    rw [h.sound.objects, ← heq]
    exact List.mem_map_of_mem (f := fun a => objectArcname a.1) ha
  exact (List.mem_filter.mp hmem).1

end Exports
