import IntraCloud.Exports.Buckets
import IntraCloud.Exports.Proofs.AcceptanceProofs
import IntraCloud.Storage.Proofs.TreeProofs

/-!
# What a package keeps of a bucket

The folders of a restored bucket are the prefixes of the paths in the package, one for each: those of the
original where each of them is on the path of an active file and no two have the same path.
-/

namespace Exports

open Audit Python Relational Storage

variable {f : Formats} {cfg : Config} {r r' : RestoringBucket} {t : Tree}

/-! ## Paths in a bucket -/

/-- The names from a folder up. -/
def pathOf (t : Tree) (folder : Option Uuid) : List String := Forest.upward t.folders t.nextUuid folder

theorem pathOf_none : pathOf t none = [] := Forest.upward_none _

theorem pathOf_ne_nil (h : t.Valid cfg) {n : Folder} (hn : n ∈ t.folders) : pathOf t (some n.id) ≠ [] := by
  rw [pathOf, Forest.upward_node h.formed hn (h.folderIds n hn)]
  exact List.cons_ne_nil _ _

theorem pathOf_eq_nil_iff (h : t.Valid cfg) {o : Option Uuid} (ho : ∀ id ∈ o, ∃ n ∈ t.folders, n.id = id) :
    pathOf t o = [] ↔ o = none := Forest.upward_eq_nil_iff h.formed h.folderIds ho

/-- A new folder leaves the paths of the others, and has its name before the path of its parent. -/
theorem pathOf_createFolder (h : t.Valid cfg) {parent : Option Uuid} {name : String} {t' : Tree} {id : Uuid}
    (hparent : t.knows parent = true) (hcreate : t.createFolder parent name = some (t', id)) :
    (∀ o, (∀ id ∈ o, ∃ n ∈ t.folders, n.id = id) → pathOf t' o = pathOf t o) ∧
      pathOf t' (some id) = name :: pathOf t parent := by
  have hvalid' := h.createFolder hparent hcreate
  have hknown := Tree.knows_iff.mp hparent
  obtain ⟨rfl, rfl, -⟩ := Tree.createFolder_some hcreate
  have hfuel : ∀ n ∈ t.folders, n.id < t.nextUuid + 1 := fun n hn => Nat.lt_succ_of_lt (h.folderIds n hn)
  have hold : ∀ o, (∀ id ∈ o, ∃ n ∈ t.folders, n.id = id) →
      Forest.upward (t.folders ++ [⟨t.nextUuid, parent, name⟩]) (t.nextUuid + 1) o = pathOf t o := by
    intro o ho
    rw [Forest.upward_append h.formed _ _ ho]
    exact Forest.upward_congr h.formed ho hfuel h.folderIds
  refine ⟨hold, ?_⟩
  have hnew : (⟨t.nextUuid, parent, name⟩ : Folder) ∈ t.folders ++ [⟨t.nextUuid, parent, name⟩] :=
    List.mem_append_right _ (List.mem_singleton_self _)
  have hstep := Forest.upward_node hvalid'.formed hnew (Nat.lt_succ_self _)
  rw [← hold parent hknown]
  exact hstep

/-- Another UUID that is taken leaves the paths. -/
theorem pathOf_advance (h : t.Valid cfg) (files : List TreeFile) {n : Folder} (hn : n ∈ t.folders) :
    pathOf { t with files, nextUuid := t.nextUuid + 1 } (some n.id) = pathOf t (some n.id) :=
  Forest.upward_eq h.formed hn (Nat.lt_succ_of_lt (h.folderIds n hn)) (h.folderIds n hn)

/-! ## The folder cache -/

/-- The cache has the id of each folder under its path, and nothing else. -/
structure Cached (cfg : Config) (r : RestoringBucket) : Prop where
  valid : r.tree.Valid cfg
  numbered : r.tree.Numbered
  found : ∀ n ∈ r.tree.folders, r.cache.lookup (pathOf r.tree (some n.id)) = some n.id
  named : ∀ path id, r.cache.lookup path = some id →
    ∃ n ∈ r.tree.folders, n.id = id ∧ pathOf r.tree (some id) = path

/-- What `_get_or_create_folder` does for a path. -/
structure Extends (r r' : RestoringBucket) (path : List String) : Prop where
  files : r'.tree.files = r.tree.files
  kept : ∀ p id, r.cache.lookup p = some id → r'.cache.lookup p = some id
  keys : ∀ p, (r'.cache.lookup p).isSome = true ↔ (r.cache.lookup p).isSome = true ∨ p ≠ [] ∧ p <:+ path

theorem cached_empty : Cached cfg RestoringBucket.empty where
  valid := Tree.valid_empty
  numbered := ⟨List.nodup_nil, List.nodup_nil⟩
  found := fun _ h => absurd h List.not_mem_nil
  named := fun _ _ h => absurd h (by simp [RestoringBucket.empty])

theorem Cached.lookup_nil (h : Cached cfg r) : r.cache.lookup [] = none := by
  cases hlookup : r.cache.lookup [] with
  | none => rfl
  | some id =>
    obtain ⟨n, hn, rfl, hpath⟩ := h.named [] id hlookup
    exact absurd hpath (pathOf_ne_nil h.valid hn)

theorem Cached.known (h : Cached cfg r) (path : List String) :
    ∀ id ∈ r.cache.lookup path, ∃ n ∈ r.tree.folders, n.id = id := by
  intro id hid
  obtain ⟨n, hn, hnid, -⟩ := h.named path id hid
  exact ⟨n, hn, hnid⟩

/-- A path that is in the cache is the path of its folder. -/
theorem Cached.pathOf_lookup (h : Cached cfg r) {path : List String}
    (hpath : path = [] ∨ (r.cache.lookup path).isSome = true) : pathOf r.tree (r.cache.lookup path) = path := by
  obtain rfl | hsome := hpath
  · rw [h.lookup_nil, pathOf_none]
  · obtain ⟨id, hid⟩ := Option.isSome_iff_exists.mp hsome
    obtain ⟨-, -, -, hnamed⟩ := h.named path id hid
    rw [hid, hnamed]

/-- A file that is added leaves the cache right. -/
theorem Cached.addFile (h : Cached cfg r) {files : List TreeFile}
    (hvalid : Tree.Valid cfg { r.tree with files, nextUuid := r.tree.nextUuid + 1 })
    (hnumbered : Tree.Numbered { r.tree with files, nextUuid := r.tree.nextUuid + 1 }) :
    Cached cfg ⟨{ r.tree with files, nextUuid := r.tree.nextUuid + 1 }, r.cache⟩ where
  valid := hvalid
  numbered := hnumbered
  found n hn := by
    show r.cache.lookup (pathOf { r.tree with files, nextUuid := r.tree.nextUuid + 1 } (some n.id)) = some n.id
    rw [pathOf_advance h.valid files hn]
    exact h.found n hn
  named path id hid := by
    obtain ⟨n, hn, rfl, hnamed⟩ := h.named path id hid
    exact ⟨n, hn, rfl, (pathOf_advance h.valid files hn).trans hnamed⟩

/-- No two paths in the cache have one folder. -/
theorem Cached.lookup_injective (h : Cached cfg r) {path path' : List String} {id : Uuid}
    (hpath : r.cache.lookup path = some id) (hpath' : r.cache.lookup path' = some id) : path = path' := by
  obtain ⟨-, -, -, hnamed⟩ := h.named path id hpath
  obtain ⟨-, -, -, hnamed'⟩ := h.named path' id hpath'
  exact hnamed.symm.trans hnamed'

theorem Cached.rootsDistinct (h : Cached cfg r) : Forest.RootsDistinct r.tree.folders := by
  intro m hm n hn hmp hnp hlabel
  have hmpath : pathOf r.tree (some m.id) = m.label :: [] := by
    rw [pathOf, Forest.upward_node h.valid.formed hm (h.valid.folderIds m hm), hmp, Forest.upward_none]
  have hnpath : pathOf r.tree (some n.id) = n.label :: [] := by
    rw [pathOf, Forest.upward_node h.valid.formed hn (h.valid.folderIds n hn), hnp, Forest.upward_none]
  have hfound := h.found m hm
  rw [hmpath, hlabel, ← hnpath, h.found n hn] at hfound
  exact h.valid.formed.ids m hm n hn (Option.some.inj hfound).symm

/-- With a path, the cache has the paths above. -/
theorem Cached.suffix (h : Cached cfg r) {path p : List String} (hpath : (r.cache.lookup path).isSome = true)
    (hp : p ≠ [] ∧ p <:+ path) : (r.cache.lookup p).isSome = true := by
  rw [← h.pathOf_lookup (.inr hpath)] at hp
  obtain ⟨n, hn, -, hnpath⟩ := (Forest.suffix_upward_iff h.valid.formed h.valid.folderIds (h.known path)).mp hp
  rw [← hnpath]
  exact Option.isSome_iff_exists.mpr ⟨n.id, h.found n hn⟩

theorem lookup_concat (cache : List (List String × Uuid)) (path p : List String) (id : Uuid) :
    (cache ++ [(path, id)]).lookup p = (cache.lookup p).or (if p = path then some id else none) := by
  rw [List.lookup_append, List.lookup_cons]
  by_cases hp : p = path
  · rw [if_pos hp, beq_iff_eq.mpr hp]
  · rw [if_neg hp, beq_eq_false_iff_ne.mpr hp]
    rfl

/-- No constraint refuses a folder whose path is not in the cache. -/
theorem Cached.createFolder (h : Cached cfg r) {above : List String} {name : String}
    (habove : above = [] ∨ (r.cache.lookup above).isSome = true) (hnew : r.cache.lookup (name :: above) = none) :
    ∃ tree id, r.tree.createFolder (r.cache.lookup above) name = some (tree, id) ∧ tree.files = r.tree.files ∧
      Cached cfg ⟨tree, r.cache ++ [(name :: above, id)]⟩ := by
  have hparent : r.tree.knows (r.cache.lookup above) = true := Tree.knows_iff.mpr (h.known above)
  have hclash : ¬ ((r.cache.lookup above).isSome && r.tree.folders.any
      fun f => f.parent == r.cache.lookup above && f.label == name) = true := by
    intro hany
    simp only [Bool.and_eq_true, List.any_eq_true, beq_iff_eq] at hany
    obtain ⟨-, n, hn, hnp, hlabel⟩ := hany
    have hpath : pathOf r.tree (some n.id) = name :: above := by
      rw [pathOf, Forest.upward_node h.valid.formed hn (h.valid.folderIds n hn), hnp, hlabel]
      exact congrArg _ (h.pathOf_lookup habove)
    have hfound := h.found n hn
    rw [hpath, hnew] at hfound
    cases hfound
  have hcreate : r.tree.createFolder (r.cache.lookup above) name = some
      ({ r.tree with
          folders := r.tree.folders ++ [⟨r.tree.nextUuid, r.cache.lookup above, name⟩]
          nextUuid := r.tree.nextUuid + 1 }, r.tree.nextUuid) := if_neg hclash
  obtain ⟨hold, hpath⟩ := pathOf_createFolder h.valid hparent hcreate
  rw [h.pathOf_lookup habove] at hpath
  refine ⟨_, _, hcreate, rfl, h.valid.createFolder hparent hcreate, h.numbered.createFolder h.valid hcreate,
    ?_, ?_⟩
  · intro n hn
    rw [lookup_concat]
    obtain hn | rfl := mem_concat.mp hn
    · rw [hold (some n.id) fun id hid => ⟨n, hn, Option.some.inj hid⟩, h.found n hn]
      rfl
    · rw [hpath, hnew, if_pos rfl]
      rfl
  · intro p id hid
    rw [lookup_concat] at hid
    cases hlookup : r.cache.lookup p with
    | some id' =>
      rw [hlookup] at hid
      obtain rfl := Option.some.inj hid
      obtain ⟨n, hn, hnid, hnamed⟩ := h.named p id' hlookup
      refine ⟨n, List.mem_append_left _ hn, hnid, ?_⟩
      rw [hold (some id') fun id hid => ⟨n, hn, hnid.trans (Option.some.inj hid)⟩]
      exact hnamed
    | none =>
      rw [hlookup, Option.none_or] at hid
      by_cases hp : p = name :: above
      · rw [if_pos hp] at hid
        obtain rfl := Option.some.inj hid
        exact ⟨_, List.mem_append_right _ (List.mem_singleton_self _), rfl, hpath.trans hp.symm⟩
      · rw [if_neg hp] at hid
        cases hid

/-- `_get_or_create_folder` returns the folder of the path, and makes the folders that are missing. -/
theorem getOrCreateFolder_spec (h : Cached cfg r) (path : List String) :
    ∃ r', getOrCreateFolder r path = some (r', r'.cache.lookup path) ∧ Cached cfg r' ∧ Extends r r' path := by
  induction path with
  | nil =>
    refine ⟨r, ?_, h, rfl, fun _ _ hid => hid, fun p => ?_⟩
    · rw [getOrCreateFolder, h.lookup_nil]
    · constructor
      · exact .inl
      · rintro (hp | ⟨hne, hsuffix⟩)
        · exact hp
        · exact absurd (List.suffix_nil.mp hsuffix) hne
  | cons name above ih =>
    rw [getOrCreateFolder]
    cases hlookup : r.cache.lookup (name :: above) with
    | some id =>
      refine ⟨r, by rw [hlookup], h, rfl, fun _ _ hid => hid, fun p => ?_⟩
      constructor
      · exact .inl
      · rintro (hp | hsuffix)
        · exact hp
        · exact h.suffix (Option.isSome_iff_exists.mpr ⟨id, hlookup⟩) hsuffix
    | none =>
      obtain ⟨r1, hr1, hcached, hextends⟩ := ih
      have hnew : r1.cache.lookup (name :: above) = none := by
        rw [← Option.not_isSome_iff_eq_none, hextends.keys, hlookup]
        rintro (hsome | ⟨-, hsuffix⟩)
        · cases hsome
        · have hlength := hsuffix.length_le
          rw [List.length_cons] at hlength
          omega
      have habove : above = [] ∨ (r1.cache.lookup above).isSome = true := by
        by_cases hnil : above = []
        · exact .inl hnil
        · exact .inr ((hextends.keys above).mpr (.inr ⟨hnil, List.suffix_rfl⟩))
      obtain ⟨tree, id, hcreate, hfiles, hcached'⟩ := hcached.createFolder habove hnew
      refine ⟨⟨tree, r1.cache ++ [(name :: above, id)]⟩, ?_, hcached', hfiles.trans hextends.files, ?_, ?_⟩
      · simp only [hr1, hcreate, Option.bind_eq_bind, Option.bind_some, Option.pure_def]
        rw [lookup_concat, hnew, if_pos rfl]
        rfl
      · intro p id' hid'
        rw [lookup_concat, hextends.kept p id' hid']
        rfl
      · intro p
        rw [lookup_concat, Option.isSome_or, Bool.or_eq_true, hextends.keys, List.suffix_cons_iff]
        by_cases hp : p = name :: above
        · rw [if_pos hp]
          exact ⟨fun _ => .inr ⟨hp ▸ List.cons_ne_nil _ _, .inl hp⟩, fun _ => .inr rfl⟩
        · rw [if_neg hp]
          constructor
          · rintro ((hsome | ⟨hne, hsuffix⟩) | hnone)
            · exact .inl hsome
            · exact .inr ⟨hne, .inr hsuffix⟩
            · cases hnone
          · rintro (hsome | ⟨hne, heq | hsuffix⟩)
            · exact .inl (.inl hsome)
            · exact absurd heq hp
            · exact .inl (.inr ⟨hne, hsuffix⟩)

/-! ## What is read of a file -/

theorem mapM_asStr (names : List String) :
    ((names.map jsonStr).map Json.sorted).mapM PyJson.asStr = some (names.map String.toList) := by
  induction names with
  | nil => rfl
  | cons name names ih =>
    rw [List.map_cons, List.map_cons, List.mapM_cons, ih]
    rfl

theorem nodup_fileKeys : ["folder_path".toList, "display_filename".toList, "original_filename".toList,
    "mime_type".toList, "size".toList, "checksum_sha256".toList, "content_ref".toList].Nodup := by decide

theorem field_fileDict (file : FileContent) (contentRef : List Char) (key : String) :
    (Json.sorted (fileDict file contentRef)).field key =
      ((fileDict file contentRef).field key).map Json.sorted := by
  refine field_sorted ?_ key
  exact nodup_fileKeys

theorem strField_fileDict {file : FileContent} {contentRef : List Char} {key : String} {s : List Char}
    (h : (fileDict file contentRef).field key = some (.str s)) :
    strField (Json.sorted (fileDict file contentRef)) key = some s := by
  rw [strField, field_fileDict, h]
  rfl

/-- The entry of a file reads back. -/
theorem fileData?_fileDict (file : FileContent) (contentRef : List Char) :
    fileData? (Json.sorted (fileDict file contentRef)) =
      some ⟨file.folderPath, contentRef, file.originalFilename, file.displayFilename⟩ := by
  have hpath : (Json.sorted (fileDict file contentRef)).field "folder_path" =
      some (.list ((file.folderPath.map jsonStr).map Json.sorted)) := by
    have hfield : (fileDict file contentRef).field "folder_path" = some (.list (file.folderPath.map jsonStr)) :=
      rfl
    rw [field_fileDict, hfield, Option.map_some, Json.sorted_list]
  have hcontent : strField (Json.sorted (fileDict file contentRef)) "content_ref" = some contentRef :=
    strField_fileDict rfl
  have horiginal : strField (Json.sorted (fileDict file contentRef)) "original_filename" =
      some file.originalFilename.toList := strField_fileDict rfl
  have hdisplay : strField (Json.sorted (fileDict file contentRef)) "display_filename" =
      some file.displayFilename.toList := strField_fileDict rfl
  have hnames : (file.folderPath.map String.toList).map String.ofList = file.folderPath := by
    rw [List.map_map]
    exact List.map_id'' (fun name => String.ofList_toList) _
  unfold fileData?
  rw [hpath, hcontent, horiginal, hdisplay, Option.bind_some, PyJson.iterate, Option.bind_some, mapM_asStr]
  simp only [Option.bind_eq_bind, Option.bind_some, Option.pure_def, hnames, String.ofList_toList]

/-! ## One file -/

section RestoreFile

variable {isClean : Uuid → Bool} {read : List Char → Option Bytes} {value : PyJson} {file : FileData}
  {content : Bytes} {folder : Option Uuid}

/-- An upload that goes through. -/
theorem restoreFileData_ok {tree : Tree} {checksum : PyJson} (hfile : fileData? value = some file)
    (hget : getOrCreateFolder r file.folderPath.reverse = some (r', folder))
    (hread : read file.contentRef = some content)
    (hupload : r'.tree.uploadFile cfg folder file.displayFilename file.originalFilename content
      (isClean r'.tree.nextUuid) = .ok tree)
    (hchecksum : value.field "checksum_sha256" = some checksum) :
    restoreFileData cfg isClean read r value = some { r' with tree } := by
  unfold restoreFileData
  simp only [hfile, hget, hread, hupload, hchecksum, Option.bind_eq_bind, Option.bind_some, Option.pure_def]

/-- An upload that a constraint refuses. -/
theorem restoreFileData_error (hfile : fileData? value = some file)
    (hget : getOrCreateFolder r file.folderPath.reverse = some (r', folder))
    (hread : read file.contentRef = some content)
    (hupload : r'.tree.uploadFile cfg folder file.displayFilename file.originalFilename content
      (isClean r'.tree.nextUuid) = .error .databaseError) :
    restoreFileData cfg isClean read r value = none := by
  unfold restoreFileData
  simp only [hfile, hget, hread, hupload, Option.bind_eq_bind, Option.bind_some]

end RestoreFile

/-! ## The loop over the files -/

/-- What the bucket has after some files: the folders on their paths, and the files with the contents that
the package has for them. -/
structure Restored (cfg : Config) (t : Tree) (body : TreeFile → Bytes) (files : List TreeFile)
    (r : RestoringBucket) : Prop where
  cached : Cached cfg r
  keys : ∀ p, (r.cache.lookup p).isSome = true ↔ ∃ g ∈ files, p ≠ [] ∧ p <:+ pathOf t g.file.folder
  files : (r.tree.files.map fun f => (f.file.folder, f.file.displayFilename, f.body)) =
    files.map fun g => (r.cache.lookup (pathOf t g.file.folder), g.file.displayFilename, body g)

variable {body : TreeFile → Bytes} {files : List TreeFile} {g : TreeFile}

theorem restored_empty : Restored cfg t body [] RestoringBucket.empty where
  cached := cached_empty
  keys p := by
    constructor
    · intro h
      cases h
    · rintro ⟨g, hg, -⟩
      exact absurd hg List.not_mem_nil
  files := rfl

/-- The path of a file that was restored is in the cache, or the file is in no folder. -/
theorem Restored.lookup (h : Restored cfg t body files r) (hg : g ∈ files) :
    pathOf t g.file.folder = [] ∨ (r.cache.lookup (pathOf t g.file.folder)).isSome = true := by
  by_cases hnil : pathOf t g.file.folder = []
  · exact .inl hnil
  · exact .inr ((h.keys _).mpr ⟨g, hg, hnil, List.suffix_rfl⟩)

/-- The folders of one more file. -/
theorem Restored.extends (h : Restored cfg t body files r) (hcached : Cached cfg r')
    (hextends : Extends r r' (pathOf t g.file.folder)) :
    (∀ p, (r'.cache.lookup p).isSome = true ↔ ∃ k ∈ files ++ [g], p ≠ [] ∧ p <:+ pathOf t k.file.folder) ∧
      ∀ k ∈ files, r'.cache.lookup (pathOf t k.file.folder) = r.cache.lookup (pathOf t k.file.folder) := by
  constructor
  · intro p
    rw [hextends.keys, h.keys]
    constructor
    · rintro (⟨k, hk, hp⟩ | hp)
      · exact ⟨k, List.mem_append_left _ hk, hp⟩
      · exact ⟨g, List.mem_append_right _ (List.mem_singleton_self _), hp⟩
    · rintro ⟨k, hk, hp⟩
      obtain hk | rfl := mem_concat.mp hk
      · exact .inl ⟨k, hk, hp⟩
      · exact .inr hp
  · intro k hk
    obtain hnil | hsome := h.lookup hk
    · rw [hnil, hcached.lookup_nil, h.cached.lookup_nil]
    · obtain ⟨id, hid⟩ := Option.isSome_iff_exists.mp hsome
      rw [hid, hextends.kept _ _ hid]

/-- One more file. It is restored unless it has the name of another one with its path, and what the loop has
after it is as it should be. -/
theorem Restored.step (h : Restored cfg t body files r) (isClean : Uuid → Bool)
    {read : List Char → Option Bytes} {contentRef : List Char} (hread : read contentRef = some (body g))
    (hlimit : (body g).length ≤ cfg.maxUploadSizeBytes) (hsize : (body g).length ≤ Tree.maxBigInteger) :
    (∀ r', restoreFileData cfg isClean read r (Json.sorted (fileDict (fileContent t g) contentRef)) = some r' →
        Restored cfg t body (files ++ [g]) r') ∧
      ((∀ k ∈ files, pathOf t k.file.folder = pathOf t g.file.folder → pathOf t g.file.folder ≠ [] →
          k.file.displayFilename ≠ g.file.displayFilename) →
        ∃ r', restoreFileData cfg isClean read r (Json.sorted (fileDict (fileContent t g) contentRef)) =
          some r') := by
  obtain ⟨r1, hget, hcached, hextends⟩ := getOrCreateFolder_spec h.cached (pathOf t g.file.folder)
  obtain ⟨hkeys, hold⟩ := h.extends hcached hextends
  have hfile := fileData?_fileDict (fileContent t g) contentRef
  have hchecksum : (Json.sorted (fileDict (fileContent t g) contentRef)).field "checksum_sha256" =
      some (.str g.file.pointer.checksumSha256) := by
    rw [field_fileDict]
    rfl
  have hget' : getOrCreateFolder r (fileContent t g).folderPath.reverse =
      some (r1, r1.cache.lookup (pathOf t g.file.folder)) := by
    rw [fileContent, folderPath, List.reverse_reverse]
    exact hget
  have hknows : r1.tree.knows (r1.cache.lookup (pathOf t g.file.folder)) = true :=
    Tree.knows_iff.mpr (hcached.known _)
  obtain ⟨tree, hupload⟩ | ⟨hupload, hfolder, k, hk, hkfolder, hkname⟩ :=
    r1.tree.uploadFile_of_le (r1.cache.lookup (pathOf t g.file.folder)) g.file.displayFilename g.originalFilename
      (isClean r1.tree.nextUuid) hlimit hsize
  · have hrestore := restoreFileData_ok hfile hget' hread hupload hchecksum
    refine ⟨fun r' hr' => ?_, fun _ => ⟨_, hrestore⟩⟩
    obtain rfl := Option.some.inj (hr'.symm.trans hrestore)
    have hvalid := hcached.valid.uploadFile hknows hupload
    have hnumbered := hcached.numbered.uploadFile hcached.valid hupload
    obtain ⟨k, rfl, -, hkfolder, hkname, hkbody, -⟩ := Tree.uploadFile_ok hupload
    refine ⟨hcached.addFile hvalid hnumbered, hkeys, ?_⟩
    have hfiles : (r1.tree.files.map fun f => (f.file.folder, f.file.displayFilename, f.body)) =
        files.map fun k => (r1.cache.lookup (pathOf t k.file.folder), k.file.displayFilename, body k) := by
      rw [hextends.files, h.files]
      exact List.map_congr_left fun k hk => by rw [hold k hk]
    dsimp only
    rw [List.map_append, List.map_append, hfiles, List.map_singleton, List.map_singleton, hkfolder, hkname,
      hkbody]
  · have hrestore := restoreFileData_error hfile hget' hread hupload
    refine ⟨fun r' hr' => absurd (hr'.symm.trans hrestore) (Option.some_ne_none _), fun hnames => ?_⟩
    have hshown : (k.file.folder, k.file.displayFilename, k.body) ∈
        files.map fun g => (r.cache.lookup (pathOf t g.file.folder), g.file.displayFilename, body g) := by
      rw [← h.files, ← hextends.files]
      exact List.mem_map_of_mem (f := fun f : TreeFile => (f.file.folder, f.file.displayFilename, f.body)) hk
    obtain ⟨l, hl, heq⟩ := List.mem_map.mp hshown
    obtain ⟨hlfolder, hlname, -⟩ : r.cache.lookup (pathOf t l.file.folder) = k.file.folder ∧
        l.file.displayFilename = k.file.displayFilename ∧ body l = k.body := by
      rw [Prod.mk.injEq, Prod.mk.injEq] at heq
      exact heq
    rw [hkfolder, ← hold l hl] at hlfolder
    -- Two paths with one folder are the same path.
    obtain ⟨id, hid⟩ := Option.ne_none_iff_exists'.mp hfolder
    have hpath := hcached.lookup_injective (hlfolder.trans hid) hid
    have hne : pathOf t g.file.folder ≠ [] := by
      intro hnil
      rw [hnil, hcached.lookup_nil] at hfolder
      exact hfolder rfl
    exact absurd (hlname.trans hkname) (hnames l hl hpath hne)

/-- The entry of a file in the bucket of a package. -/
def fileEntry (t : Tree) (g : TreeFile) : PyJson := Json.sorted (fileAdds.json (fileContent t g))

/-- No two files with one path, and in a folder, have one name. -/
def NamesDistinct (t : Tree) (files : List TreeFile) : Prop :=
  files.Pairwise fun k g => pathOf t k.file.folder = pathOf t g.file.folder → pathOf t g.file.folder ≠ [] →
    k.file.displayFilename ≠ g.file.displayFilename

/-- The loop, from any point of it. -/
theorem Restored.loop (isClean : Uuid → Bool) {read : List Char → Option Bytes} {more : List TreeFile}
    (hread : ∀ g ∈ more, read (objectArcname g.file.pointer.checksumSha256) = some (body g))
    (hsize : ∀ g ∈ more, (body g).length ≤ cfg.maxUploadSizeBytes ∧ (body g).length ≤ Tree.maxBigInteger)
    (h : Restored cfg t body files r) :
    (∀ r', (more.map (fileEntry t)).foldlM (restoreFileData cfg isClean read) r = some r' →
        Restored cfg t body (files ++ more) r') ∧
      (NamesDistinct t (files ++ more) →
        ∃ r', (more.map (fileEntry t)).foldlM (restoreFileData cfg isClean read) r = some r') := by
  induction more generalizing files r with
  | nil =>
    refine ⟨fun r' hr' => ?_, fun _ => ⟨r, rfl⟩⟩
    obtain rfl := Option.some.inj hr'
    rw [List.append_nil]
    exact h
  | cons g more ih =>
    obtain ⟨hreadg, hread⟩ := List.forall_mem_cons.mp hread
    obtain ⟨⟨hlimitg, hsizeg⟩, hsize⟩ := List.forall_mem_cons.mp hsize
    obtain ⟨hstep, hexists⟩ := h.step isClean hreadg hlimitg hsizeg
    have hfold : ∀ r, ((g :: more).map (fileEntry t)).foldlM (restoreFileData cfg isClean read) r =
        (restoreFileData cfg isClean read r (fileEntry t g)).bind fun r =>
          (more.map (fileEntry t)).foldlM (restoreFileData cfg isClean read) r := fun r => rfl
    have happend : files ++ g :: more = (files ++ [g]) ++ more := (List.append_cons files g more)
    rw [hfold, happend]
    constructor
    · intro r' hr'
      obtain ⟨r1, hr1, hrest⟩ := Option.bind_eq_some_iff.mp hr'
      exact (ih hread hsize (hstep r1 hr1)).1 r' hrest
    · intro hnames
      have hbefore : NamesDistinct t (files ++ [g]) := (List.pairwise_append.mp hnames).1
      obtain ⟨r1, hr1⟩ := hexists fun k hk => (List.pairwise_append.mp hbefore).2.2 k hk g
        (List.mem_singleton_self _)
      obtain ⟨r', hr'⟩ := (ih hread hsize (hstep r1 hr1)).2 hnames
      exact ⟨r', Option.bind_eq_some_iff.mpr ⟨r1, hr1, hr'⟩⟩

/-- What `_restore_bucket` does, from the start. -/
theorem restoreBucket_spec (isClean : Uuid → Bool) (name : String) (versioningEnabled : Bool)
    {read : List Char → Option Bytes}
    (hread : ∀ g ∈ files, read (objectArcname g.file.pointer.checksumSha256) = some (body g))
    (hsize : ∀ g ∈ files, (body g).length ≤ cfg.maxUploadSizeBytes ∧ (body g).length ≤ Tree.maxBigInteger) :
    (∀ restored, restoreBucket cfg isClean read
        (Json.sorted (bucketAdds.json (bucketContent name versioningEnabled t files))) = some restored →
        ∃ r, r.tree = restored ∧ Restored cfg t body files r) ∧
      (NamesDistinct t files → ∃ restored, restoreBucket cfg isClean read
        (Json.sorted (bucketAdds.json (bucketContent name versioningEnabled t files))) = some restored) := by
  have hkeys : ["name".toList, "versioning_enabled".toList, "files".toList].Nodup := by decide
  have hfield : ∀ key, (Json.sorted (bucketAdds.json (bucketContent name versioningEnabled t files))).field key =
      ((bucketAdds.json (bucketContent name versioningEnabled t files)).field key).map Json.sorted := by
    intro key
    refine field_sorted ?_ key
    exact hkeys
  have hentries : ((Json.sorted (bucketAdds.json (bucketContent name versioningEnabled t files))).field
      "files").bind PyJson.iterate = some (files.map (fileEntry t)) := by
    have hfiles : (bucketAdds.json (bucketContent name versioningEnabled t files)).field "files" =
        some (.list ((files.map (fileContent t)).map fileAdds.json)) := rfl
    rw [hfield, hfiles, Option.map_some, Json.sorted_list, Option.bind_some, PyJson.iterate, List.map_map,
      List.map_map]
    rfl
  have hname : strField (Json.sorted (bucketAdds.json (bucketContent name versioningEnabled t files))) "name" =
      some name.toList := by
    rw [strField, hfield]
    rfl
  have hversioning : (Json.sorted (bucketAdds.json (bucketContent name versioningEnabled t files))).field
      "versioning_enabled" = some (.bool versioningEnabled) := by
    rw [hfield]
    rfl
  have hrestore : restoreBucket cfg isClean read
      (Json.sorted (bucketAdds.json (bucketContent name versioningEnabled t files))) =
      ((files.map (fileEntry t)).foldlM (restoreFileData cfg isClean read) RestoringBucket.empty).map
        (·.tree) := by
    unfold restoreBucket
    rw [hname, hversioning, hentries]
    exact Option.map_eq_bind.symm
  obtain ⟨hloop, hexists⟩ := Restored.loop isClean hread hsize
    (restored_empty : Restored cfg t body [] RestoringBucket.empty)
  rw [hrestore]
  constructor
  · intro restored hrestored
    obtain ⟨r, hr, rfl⟩ := Option.map_eq_some_iff.mp hrestored
    exact ⟨r, rfl, hloop r hr⟩
  · intro hnames
    obtain ⟨r, hr⟩ := hexists hnames
    exact ⟨r.tree, by rw [hr]; rfl⟩

/-! ## The export -/

variable {b b' : Building}

theorem entries_exportFile {file : FileContent} {j : PyJson} (h : exportFile f b file = some (b', j)) :
    ∀ e ∈ b'.entries, e ∈ b.entries ∨
      e = (objectArcname file.checksumSha256, file.body) ∧ f.hexdigest file.body = file.checksumSha256 := by
  unfold exportFile at h
  cases hfind : b.arcnames.find? (·.1 == file.checksumSha256) with
  | some found =>
    rw [hfind] at h
    obtain ⟨rfl, -⟩ := Prod.mk.inj (Option.some.inj h)
    exact fun e he => .inl he
  | none =>
    rw [hfind] at h
    by_cases hdigest : f.hexdigest file.body = file.checksumSha256
    · simp only [hdigest, ne_eq, not_true_eq_false, if_false] at h
      obtain ⟨rfl, -⟩ := Prod.mk.inj (Option.some.inj h)
      intro e he
      obtain he | he := mem_concat.mp he
      · exact .inl he
      · exact .inr ⟨he, hdigest⟩
    · simp only [ne_eq, hdigest, not_false_eq_true, if_true] at h
      cases h

/-- Every member is the content of some file with the checksum in its name. -/
theorem entries_exportFiles {fs : List FileContent} {out : List PyJson}
    (h : mapAccum? (exportFile f) b fs = some (b', out)) :
    ∀ e ∈ b'.entries, e ∈ b.entries ∨
      ∃ file ∈ fs, e = (objectArcname file.checksumSha256, file.body) ∧
        f.hexdigest file.body = file.checksumSha256 := by
  induction fs generalizing b out with
  | nil =>
    obtain ⟨rfl, -⟩ := Prod.mk.inj (Option.some.inj h)
    exact fun e he => .inl he
  | cons file fs ih =>
    simp only [mapAccum?, Option.bind_eq_bind, Option.bind_eq_some_iff, Option.pure_def, Option.some.injEq,
      Prod.exists, Prod.mk.injEq] at h
    obtain ⟨b1, j, hfile, b2, js, hrest, rfl, -⟩ := h
    intro e he
    obtain he | ⟨g, hg, heq⟩ := ih hrest e he
    · obtain he | heq := entries_exportFile hfile e he
      · exact .inl he
      · exact .inr ⟨file, List.mem_cons_self, heq⟩
    · exact .inr ⟨g, List.mem_cons_of_mem _ hg, heq⟩

/-- Contents with their checksums are exported. -/
theorem exists_exportFiles {fs : List FileContent}
    (h : ∀ file ∈ fs, f.hexdigest file.body = file.checksumSha256) (b : Building) :
    ∃ exported, mapAccum? (exportFile f) b fs = some exported := by
  induction fs generalizing b with
  | nil => exact ⟨_, rfl⟩
  | cons file fs ih =>
    obtain ⟨hfile, hfs⟩ := List.forall_mem_cons.mp h
    obtain ⟨⟨b1, j⟩, hexport⟩ : ∃ exported, exportFile f b file = some exported := by
      unfold exportFile
      split
      · exact ⟨_, rfl⟩
      · simp only [hfile, ne_eq, not_true_eq_false, if_false]
        exact ⟨_, rfl⟩
    obtain ⟨⟨b2, js⟩, hrest⟩ := ih hfs b1
    rw [mapAccum?, hexport]
    simp only [Option.bind_eq_bind, Option.bind_some, hrest]
    exact ⟨_, rfl⟩

/-- What is stored for a file is the content of a file with its checksum. -/
theorem stored_of_exportBucket {bucket : BucketContent} {payload : PyJson}
    (h : exportBucket f Building.empty bucket = some (b, payload)) :
    payload = bucketAdds.json bucket ∧ ∀ file ∈ bucket.files, ∃ source ∈ bucket.files,
      b.read (objectArcname file.checksumSha256) = some source.body ∧
        source.checksumSha256 = file.checksumSha256 ∧ f.hexdigest source.body = file.checksumSha256 := by
  obtain ⟨hsound, hwrote, hpayload⟩ := exportBucket_spec _ _ _ _ (sound_empty f) h
  refine ⟨hpayload, fun file hfile => ?_⟩
  have hstored : file.checksumSha256 ∈ b.arcnames.map (·.1) := by
    apply hwrote.stored
    exact List.mem_flatMap.mpr ⟨file, hfile, List.mem_singleton_self _⟩
  have hname : objectArcname file.checksumSha256 ∈ b.entries.map (·.1) := by
    obtain ⟨a, ha, hkey⟩ := List.mem_map.mp hstored
    have hobject : objectArcname a.1 ∈ (b.entries.map (·.1)).filter isObject := by
      rw [hsound.objects]
      exact List.mem_map_of_mem (f := fun a : List Char × List Char => objectArcname a.1) ha
    rw [← hkey]
    exact (List.mem_filter.mp hobject).1
  obtain ⟨e, he, hename⟩ := List.mem_map.mp hname
  have hsome : (b.entries.lookup (objectArcname file.checksumSha256)).isSome = true :=
    List.lookup_isSome_iff.mpr ⟨e, he, by rw [hename]; exact beq_self_eq_true _⟩
  obtain ⟨data, hdata⟩ := Option.isSome_iff_exists.mp hsome
  obtain ⟨before, after, hsplit, -⟩ := List.lookup_eq_some_iff.mp hdata
  have hmem : (objectArcname file.checksumSha256, data) ∈ b.entries := by
    rw [hsplit]
    exact List.mem_append_right _ List.mem_cons_self
  obtain ⟨⟨b1, files⟩, hloop, heq⟩ := Option.map_eq_some_iff.mp h
  obtain ⟨rfl, -⟩ := Prod.mk.inj heq
  obtain hempty | ⟨source, hsource, hentry, hdigest⟩ := entries_exportFiles hloop _ hmem
  · exact absurd hempty List.not_mem_nil
  · obtain ⟨hnames, rfl⟩ := Prod.mk.inj hentry
    have hchecksum := objectArcname_injective hnames
    exact ⟨source, hsource, hdata, hchecksum.symm, hdigest.trans hchecksum.symm⟩

/-! ## Round trips -/

section RoundTrips

variable {isClean : Uuid → Bool} {name : String} {payload : PyJson}

theorem mem_of_perm_active (hfiles : files.Perm (activeFiles t)) (hg : g ∈ files) : g ∈ t.files :=
  (List.mem_filter.mp (hfiles.mem_iff.mp hg)).1

/-- The content the package has for a file. -/
def contentOf (b : Building) (g : TreeFile) : Bytes :=
  (b.read (objectArcname g.file.pointer.checksumSha256)).getD []

theorem contentOf_spec {versioningEnabled : Bool}
    (h : exportBucket f Building.empty (bucketContent name versioningEnabled t files) = some (b, payload))
    (hg : g ∈ files) :
    b.read (objectArcname g.file.pointer.checksumSha256) = some (contentOf b g) ∧
      f.hexdigest (contentOf b g) = g.file.pointer.checksumSha256 ∧
      ∃ k ∈ files, k.file.pointer.checksumSha256 = g.file.pointer.checksumSha256 ∧ k.body = contentOf b g := by
  obtain ⟨source, hsource, hlookup, hchecksum, hdigest⟩ :=
    (stored_of_exportBucket h).2 (fileContent t g) (List.mem_map_of_mem hg)
  obtain ⟨k, hk, rfl⟩ := List.mem_map.mp hsource
  have hlookup : b.read (objectArcname g.file.pointer.checksumSha256) = some k.body := hlookup
  have hcontent : contentOf b g = k.body := by
    rw [contentOf, hlookup]
    rfl
  rw [hcontent]
  exact ⟨hlookup, hdigest, k, hk, hchecksum, rfl⟩

theorem size_contentOf {versioningEnabled : Bool} (hvalid : t.Valid cfg) (hfiles : files.Perm (activeFiles t))
    (h : exportBucket f Building.empty (bucketContent name versioningEnabled t files) = some (b, payload)) :
    ∀ g ∈ files, (contentOf b g).length ≤ cfg.maxUploadSizeBytes ∧
      (contentOf b g).length ≤ Tree.maxBigInteger := by
  intro g hg
  obtain ⟨-, -, k, hk, -, hbody⟩ := contentOf_spec h hg
  obtain ⟨-, -, hlimit, hmax⟩ := hvalid.contents k (mem_of_perm_active hfiles hk)
  exact hbody ▸ ⟨hlimit, hmax⟩

/-- The entry of the bucket reads back from the manifest. -/
theorem loads_bucket (hvalid : t.Valid cfg) (hfiles : files.Perm (activeFiles t)) (versioningEnabled : Bool) :
    Json.loads (Json.dumpsSorted (bucketAdds.json (bucketContent name versioningEnabled t files))) =
      some (Json.sorted (bucketAdds.json (bucketContent name versioningEnabled t files))) := by
  refine Json.loadsWith_text none (some 2) (Json.writable_sorted _ (writable_bucket fun file hfile => ?_))
  obtain ⟨g, hg, rfl⟩ := List.mem_map.mp hfile
  obtain ⟨-, hlength, -, hsize⟩ := hvalid.contents g (mem_of_perm_active hfiles hg)
  have hmax : Tree.maxBigInteger = 9223372036854775807 := rfl
  have hdigits : (Nat.toDigits 10 g.file.pointer.size).length ≤ 19 :=
    (Nat.length_toDigits_le_iff (by omega) (by omega)).mpr (by omega)
  have hlimit : maxStrDigits = 4300 := rfl
  show (Nat.toDigits 10 g.file.pointer.size).length ≤ maxStrDigits
  omega

/-- A folder that comes back is on the path of a file. -/
theorem used_of_isomorphic (hvalid : t.Valid cfg) (hfiles : files.Perm (activeFiles t))
    (hr : Restored cfg t body files r) {rename : Nat → Nat}
    (hrenames : Forest.Renames rename t.folders r.tree.folders)
    (hperm : (r.tree.files.map fun f => (f.file.folder, f.file.displayFilename, f.body)).Perm
      (files.map fun f => (f.file.folder.map rename, f.file.displayFilename, f.body)))
    {n : Folder} (hn : n ∈ t.folders) : ∃ g ∈ activeFiles t, Forest.Above t.folders n.id g.file.folder := by
  have hn' := hrenames.mem_iff.mpr ⟨n, hn, rfl⟩
  have hfound := hr.cached.found _ hn'
  -- Its path is on that of a file `g`, so it is above the folder that `g` is restored to.
  obtain ⟨g, hg, hsuffix⟩ := (hr.keys _).mp (Option.isSome_iff_exists.mpr ⟨_, hfound⟩)
  have hlookup := hr.cached.pathOf_lookup (hr.lookup hg)
  rw [← hlookup] at hsuffix
  obtain ⟨m, hm, habove, hmpath⟩ := (Forest.suffix_upward_iff hr.cached.valid.formed hr.cached.valid.folderIds
    (hr.cached.known _)).mp hsuffix
  have hmfound := hr.cached.found m hm
  have hmpath : pathOf r.tree (some m.id) = pathOf r.tree (some (rename n.id)) := hmpath
  rw [hmpath, hfound] at hmfound
  rw [← Option.some.inj hmfound] at habove
  -- That folder is the image of the folder of a file `k`.
  have hshown : (r.cache.lookup (pathOf t g.file.folder), g.file.displayFilename, body g) ∈
      files.map fun f => (f.file.folder.map rename, f.file.displayFilename, f.body) := by
    rw [← hperm.mem_iff, hr.files]
    exact List.mem_map_of_mem
      (f := fun g : TreeFile => (r.cache.lookup (pathOf t g.file.folder), g.file.displayFilename, body g)) hg
  obtain ⟨k, hk, heq⟩ := List.mem_map.mp hshown
  rw [← (Prod.mk.inj heq).1] at habove
  have hknown := hvalid.folders k (mem_of_perm_active hfiles hk)
  exact ⟨k, hfiles.mem_iff.mp hk, hrenames.above hvalid.formed hn hknown habove⟩

/-- A bucket that comes back is flat. -/
theorem flattens_of_roundTrips (hdigest : cfg.sha256 = f.hexdigest) (hvalid : t.Valid cfg)
    (hfiles : files.Perm (activeFiles t)) (h : BucketRoundTrips f cfg isClean name t files) : Flattens t := by
  obtain ⟨b, payload, data, restored, hexport, hloads, hrestore, rename, hrenames, hperm⟩ := h
  obtain rfl := (stored_of_exportBucket hexport).1
  rw [loads_bucket hvalid hfiles] at hloads
  obtain rfl := Option.some.inj hloads
  obtain ⟨r, rfl, hr⟩ := (restoreBucket_spec isClean name cfg.versioningEnabled
    (fun g hg => (contentOf_spec hexport hg).1) (size_contentOf hvalid hfiles hexport)).1 restored hrestore
  -- A content that comes back is the one that the package has for its checksum.
  have hcontent : ∀ g ∈ files, g.body = contentOf b g := by
    intro g hg
    have hshown : (g.file.folder.map rename, g.file.displayFilename, g.body) ∈
        r.tree.files.map fun f => (f.file.folder, f.file.displayFilename, f.body) := by
      rw [hperm.mem_iff]
      exact List.mem_map_of_mem
        (f := fun f : TreeFile => (f.file.folder.map rename, f.file.displayFilename, f.body)) hg
    rw [hr.files] at hshown
    obtain ⟨k, hk, heq⟩ := List.mem_map.mp hshown
    have hbody : contentOf b k = g.body := (Prod.mk.inj (Prod.mk.inj heq).2).2
    obtain ⟨hchecksum, -⟩ := hvalid.contents g (mem_of_perm_active hfiles hg)
    have hkdigest := (contentOf_spec hexport hk).2.1
    rw [hbody, ← hdigest, ← hchecksum] at hkdigest
    rw [← hbody, contentOf, contentOf, hkdigest]
  refine ⟨fun n hn => used_of_isomorphic hvalid hfiles hr hrenames hperm hn,
    hrenames.rootsDistinct hr.cached.rootsDistinct, fun g hg k hk hchecksum => ?_⟩
  rw [hcontent g (hfiles.mem_iff.mpr hg), hcontent k (hfiles.mem_iff.mpr hk), contentOf, contentOf, hchecksum]

/-- In a flat bucket a path is that of one folder. -/
theorem Flattens.pathOf_injective (h : Flattens t) (hvalid : t.Valid cfg) {o o' : Option Uuid}
    (ho : ∀ id ∈ o, ∃ n ∈ t.folders, n.id = id) (ho' : ∀ id ∈ o', ∃ n ∈ t.folders, n.id = id)
    (hpath : pathOf t o = pathOf t o') : o = o' := by
  cases o with
  | none =>
    rw [pathOf_none] at hpath
    exact ((pathOf_eq_nil_iff hvalid ho').mp hpath.symm).symm
  | some id =>
    cases o' with
    | none =>
      rw [pathOf_none] at hpath
      exact (pathOf_eq_nil_iff hvalid ho).mp hpath
    | some id' =>
      obtain ⟨n, hn, rfl⟩ := ho id rfl
      obtain ⟨n', hn', rfl⟩ := ho' id' rfl
      rw [Forest.upward_injective hvalid.formed h.roots hvalid.folderIds hn hn' hpath]

theorem Flattens.namesDistinct (h : Flattens t) (hvalid : t.Valid cfg) (hnumbered : t.Numbered)
    (hfiles : files.Perm (activeFiles t)) : NamesDistinct t files := by
  have hnodup : files.Nodup := hfiles.nodup_iff.mpr (hnumbered.files.of_map.filter _)
  refine hnodup.imp_of_mem fun {k g} hk hg hne hpath hfolder hname => hne ?_
  have hkfile := mem_of_perm_active hfiles hk
  have hgfile := mem_of_perm_active hfiles hg
  have hfolders : k.file.folder = g.file.folder :=
    h.pathOf_injective hvalid (hvalid.folders k hkfile) (hvalid.folders g hgfile) hpath
  have hkactive : k.file.status = .active := eq_of_beq (List.mem_filter.mp (hfiles.mem_iff.mp hk)).2
  have hgactive : g.file.status = .active := eq_of_beq (List.mem_filter.mp (hfiles.mem_iff.mp hg)).2
  have hsome : k.file.folder ≠ none := by
    rintro hnone
    rw [hfolders] at hnone
    rw [hnone, pathOf_none] at hfolder
    exact hfolder rfl
  exact hvalid.names k hkfile g hgfile ⟨hkactive, hgactive, hsome, hfolders, hname⟩

/-- The id a folder is restored under. -/
def renamed (t : Tree) (r : RestoringBucket) (id : Uuid) : Uuid :=
  (r.cache.lookup (pathOf t (some id))).getD 0

theorem lookup_pathOf (hvalid : t.Valid cfg) (hg' : g ∈ t.files) (hr : Restored cfg t body files r)
    (hg : g ∈ files) : r.cache.lookup (pathOf t g.file.folder) = g.file.folder.map (renamed t r) := by
  cases hfolder : g.file.folder with
  | none => rw [pathOf_none, hr.cached.lookup_nil]; rfl
  | some id =>
    obtain hnil | hsome := hr.lookup hg
    · have hnone := (pathOf_eq_nil_iff hvalid (hvalid.folders g hg')).mp hnil
      rw [hfolder] at hnone
      cases hnone
    · rw [hfolder] at hsome
      obtain ⟨id', hid'⟩ := Option.isSome_iff_exists.mp hsome
      rw [Option.map_some, renamed, hid']
      rfl

/-- The paths of a flat bucket are those of the restored one. -/
theorem Flattens.samePaths (h : Flattens t) (hvalid : t.Valid cfg) (hfiles : files.Perm (activeFiles t))
    (hr : Restored cfg t body files r) :
    Forest.SamePaths (renamed t r) t.folders r.tree.folders t.nextUuid r.tree.nextUuid where
  there n hn := by
    obtain ⟨g, hg, habove⟩ := h.used n hn
    have hg' := hfiles.mem_iff.mpr hg
    have hsuffix := (Forest.suffix_upward_iff hvalid.formed hvalid.folderIds
      (hvalid.folders g (mem_of_perm_active hfiles hg'))).mpr ⟨n, hn, habove, rfl⟩
    obtain ⟨id, hid⟩ := Option.isSome_iff_exists.mp ((hr.keys _).mpr ⟨g, hg', hsuffix⟩)
    obtain ⟨n', hn', rfl, hpath⟩ := hr.cached.named _ id hid
    have hid : r.cache.lookup (pathOf t (some n.id)) = some n'.id := hid
    exact ⟨n', hn', by rw [renamed, hid]; rfl, hpath⟩
  back n' hn' := by
    have hfound := hr.cached.found n' hn'
    obtain ⟨g, hg, hsuffix⟩ := (hr.keys _).mp (Option.isSome_iff_exists.mpr ⟨_, hfound⟩)
    obtain ⟨n, hn, -, hpath⟩ := (Forest.suffix_upward_iff hvalid.formed hvalid.folderIds
      (hvalid.folders g (mem_of_perm_active hfiles hg))).mp hsuffix
    exact ⟨n, hn, hpath.symm⟩

/-- A flat bucket comes back. -/
theorem roundTrips_of_flattens (hdigest : cfg.sha256 = f.hexdigest) (hvalid : t.Valid cfg)
    (hnumbered : t.Numbered) (hfiles : files.Perm (activeFiles t)) (h : Flattens t) :
    BucketRoundTrips f cfg isClean name t files := by
  have hdigests : ∀ file ∈ (bucketContent name cfg.versioningEnabled t files).files,
      f.hexdigest file.body = file.checksumSha256 := by
    intro file hfile
    obtain ⟨g, hg, rfl⟩ := List.mem_map.mp hfile
    rw [← hdigest]
    exact (hvalid.contents g (mem_of_perm_active hfiles hg)).1.symm
  obtain ⟨⟨b, entries⟩, hloop⟩ := exists_exportFiles hdigests Building.empty
  have hexport : exportBucket f Building.empty (bucketContent name cfg.versioningEnabled t files) =
      some (b, bucketDict (bucketContent name cfg.versioningEnabled t files) entries) := by
    rw [exportBucket, hloop]
    rfl
  have hpayload := (stored_of_exportBucket hexport).1
  rw [hpayload] at hexport
  obtain ⟨hrestored, hexists⟩ := restoreBucket_spec isClean name cfg.versioningEnabled
    (fun g hg => (contentOf_spec hexport hg).1) (size_contentOf hvalid hfiles hexport)
  obtain ⟨restored, hrestore⟩ := hexists (h.namesDistinct hvalid hnumbered hfiles)
  obtain ⟨r, rfl, hr⟩ := hrestored restored hrestore
  have hcontent : ∀ g ∈ files, contentOf b g = g.body := by
    intro g hg
    obtain ⟨-, -, k, hk, hchecksum, hbody⟩ := contentOf_spec hexport hg
    exact hbody.symm.trans (h.checksums k (hfiles.mem_iff.mp hk) g (hfiles.mem_iff.mp hg) hchecksum)
  refine ⟨b, _, _, _, hexport, loads_bucket hvalid hfiles cfg.versioningEnabled, hrestore, renamed t r, ?_, ?_⟩
  · exact (h.samePaths hvalid hfiles hr).renames hvalid.formed hr.cached.valid.formed h.roots
      hr.cached.rootsDistinct hvalid.folderIds hr.cached.valid.folderIds hnumbered.folders
      hr.cached.numbered.folders
  · rw [hr.files]
    refine List.Perm.of_eq (List.map_congr_left fun g hg => ?_)
    rw [lookup_pathOf hvalid (mem_of_perm_active hfiles hg) hr hg, hcontent g hg]

end RoundTrips

/-! ## Two buckets -/

def smallConfig : Config := ⟨false, 100, textFormats.hexdigest⟩

theorem sha256_smallConfig : smallConfig.sha256 = textFormats.hexdigest := rfl

/-- A folder in another one, a file in each of them and two files in neither, one of which has been deleted. -/
def nestedFolders : Tree :=
  { folders := [⟨0, none, "a"⟩, ⟨1, some 0, "b"⟩]
    files :=
      [⟨2, "x", ⟨some 1, "x", "text/plain", ⟨2, 2, textFormats.hexdigest [72, 105]⟩, .active⟩, [72, 105]⟩,
        ⟨3, "y", ⟨some 0, "y", "text/plain", ⟨3, 1, textFormats.hexdigest [65]⟩, .active⟩, [65]⟩,
        ⟨4, "x", ⟨none, "x", "text/plain", ⟨4, 2, textFormats.hexdigest [72, 105]⟩, .active⟩, [72, 105]⟩,
        ⟨5, "z", ⟨none, "z", "text/plain", ⟨5, 1, textFormats.hexdigest [65]⟩, .deleted⟩, [65]⟩]
    nextUuid := 6 }

theorem reachable_nestedFolders : nestedFolders.Reachable smallConfig :=
  ⟨[.createFolder none "a", .createFolder (some 0) "b", .uploadFile (some 1) "x" "x" [72, 105] true,
    .uploadFile (some 0) "y" "y" [65] true, .uploadFile none "x" "x" [72, 105] true,
    .uploadFile none "z" "z" [65] true, .deleteFile 5], rfl⟩

/-- A folder without files. -/
def emptyFolder : Tree := ⟨[⟨0, none, "a"⟩], [], 1⟩

theorem reachable_emptyFolder : emptyFolder.Reachable smallConfig := ⟨[.createFolder none "a"], rfl⟩

end Exports
