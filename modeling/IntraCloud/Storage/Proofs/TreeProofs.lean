import IntraCloud.Relational.Forest
import IntraCloud.Storage.Tree
import IntraCloud.Transition.Proofs.RunsProofs

/-!
# Buckets that the storage API arrives at

Every request keeps the constraints of the tables and what is recorded of the objects.
-/

namespace Storage.Tree

open Audit Python Relational Transition

variable {cfg : Config} {t : Tree}

/-! ## Folders -/

theorem valid_empty : Valid cfg empty where
  formed := ⟨.nil _, fun _ h => absurd h List.not_mem_nil, fun _ h => absurd h List.not_mem_nil⟩
  folderIds := fun _ h => absurd h List.not_mem_nil
  fileIds := .nil _
  fresh := fun _ h => absurd h List.not_mem_nil
  folders := fun _ h => absurd h List.not_mem_nil
  names := fun _ h => absurd h List.not_mem_nil
  contents := fun _ h => absurd h List.not_mem_nil

theorem hasFolder_iff {id : Uuid} : t.hasFolder id = true ↔ ∃ f ∈ t.folders, f.id = id := by
  simp only [hasFolder, List.any_eq_true, beq_iff_eq]

theorem knows_iff {folder : Option Uuid} :
    t.knows folder = true ↔ ∀ id ∈ folder, ∃ f ∈ t.folders, f.id = id := by
  cases folder with
  | none => simp [knows]
  | some id => simp [knows, hasFolder_iff]

/-- A folder that is made has a new name below its parent. -/
theorem createFolder_some {parent : Option Uuid} {name : String} {t' : Tree} {id : Uuid}
    (h : t.createFolder parent name = some (t', id)) :
    id = t.nextUuid ∧
      t' = { t with folders := t.folders ++ [⟨t.nextUuid, parent, name⟩], nextUuid := t.nextUuid + 1 } ∧
      (parent ≠ none → ∀ f ∈ t.folders, f.parent = parent → f.label ≠ name) := by
  unfold createFolder at h
  split at h
  · cases h
  · rename_i hnew
    obtain ⟨rfl, rfl⟩ := Prod.mk.inj (Option.some.inj h)
    refine ⟨rfl, rfl, fun hparent f hf hfp hname => hnew ?_⟩
    rw [Bool.and_eq_true, Option.isSome_iff_ne_none, List.any_eq_true]
    exact ⟨hparent, f, hf, by rw [hfp, hname]; simp⟩

/-- A new folder whose parent is there. -/
theorem formed_concat {folders : List Folder} {next : Uuid} (h : Forest.Formed folders)
    (hids : ∀ f ∈ folders, f.id < next) {parent : Option Uuid} {name : String}
    (hparent : ∀ id ∈ parent, ∃ f ∈ folders, f.id = id)
    (hname : parent ≠ none → ∀ f ∈ folders, f.parent = parent → f.label ≠ name) :
    Forest.Formed (folders ++ [⟨next, parent, name⟩]) where
  ids := h.ids.concat fun f hf heq => absurd heq (Nat.ne_of_lt (hids f hf))
  parents := by
    intro n hn p hp
    obtain hn | rfl := mem_concat.mp hn
    · obtain ⟨hlt, m, hm, hmp⟩ := h.parents n hn p hp
      exact ⟨hlt, m, List.mem_append_left _ hm, hmp⟩
    · obtain ⟨m, hm, hmp⟩ := hparent p hp
      exact ⟨hmp ▸ hids m hm, m, List.mem_append_left _ hm, hmp⟩
  siblings := by
    intro m hm n hn hparents hne hlabels
    obtain hm | rfl := mem_concat.mp hm
    · obtain hn | rfl := mem_concat.mp hn
      · exact h.siblings m hm n hn hparents hne hlabels
      · have hparents : m.parent = parent := hparents
        exact absurd hlabels (hname (hparents ▸ hne) m hm hparents)
    · obtain hn | rfl := mem_concat.mp hn
      · have hparents : parent = n.parent := hparents
        exact absurd hlabels.symm (hname hne n hn hparents.symm)
      · rfl

theorem Valid.createFolder (h : Valid cfg t) {parent : Option Uuid} (hparent : t.knows parent = true)
    {name : String} {t' : Tree} {id : Uuid} (hcreate : t.createFolder parent name = some (t', id)) :
    Valid cfg t' := by
  obtain ⟨-, rfl, hname⟩ := createFolder_some hcreate
  refine ⟨formed_concat h.formed h.folderIds (knows_iff.mp hparent) hname, ?_, h.fileIds, ?_, ?_, h.names,
    h.contents⟩
  · intro f hf
    obtain hf | rfl := mem_concat.mp hf
    · exact Nat.lt_succ_of_lt (h.folderIds f hf)
    · exact Nat.lt_succ_self _
  · exact fun f hf => Nat.lt_succ_of_lt (h.fresh f hf)
  · intro f hf id hid
    obtain ⟨g, hg, hgid⟩ := h.folders f hf id hid
    exact ⟨g, List.mem_append_left _ hg, hgid⟩

/-! ## Files -/

theorem not_clashes_iff {f : TreeFile} :
    t.clashes f = false ↔ ∀ g ∈ t.files, g.id ≠ f.id → ¬ SameName f g := by
  simp only [clashes, List.any_eq_false, Bool.and_eq_true, bne_iff_ne, decide_eq_true_eq, not_and]

theorem SameName.symm {f g : TreeFile} (h : SameName f g) : SameName g f :=
  ⟨h.2.1, h.1, h.2.2.2.1 ▸ h.2.2.1, h.2.2.2.1.symm, h.2.2.2.2.symm⟩

theorem readUpload_ok {data : Bytes} {pointer : Pointer} {mimeType : String}
    (h : readUpload cfg data = .ok (pointer, mimeType)) :
    pointer.checksumSha256 = cfg.sha256 data ∧ pointer.size = data.length ∧
      data.length ≤ cfg.maxUploadSizeBytes ∧ data.length ≤ maxBigInteger := by
  unfold readUpload hashAndSniff at h
  by_cases hlimit : cfg.maxUploadSizeBytes < data.length
  · rw [if_pos hlimit] at h
    cases h
  · rw [if_neg hlimit] at h
    by_cases hsize : maxBigInteger < data.length
    · simp only [if_pos hsize] at h
      cases h
    · simp only [if_neg hsize] at h
      cases h
      exact ⟨rfl, rfl, by omega, by omega⟩

/-- A small enough upload is read. -/
theorem readUpload_of_le {data : Bytes} (hlimit : data.length ≤ cfg.maxUploadSizeBytes)
    (hsize : data.length ≤ maxBigInteger) : ∃ read, readUpload cfg data = .ok read := by
  unfold readUpload hashAndSniff
  rw [if_neg (by omega)]
  simp only [if_neg (by omega : ¬ maxBigInteger < data.length)]
  exact ⟨_, rfl⟩

/-- What an upload that goes through adds. -/
theorem uploadFile_ok {folder : Option Uuid} {displayFilename originalFilename : String} {data : Bytes}
    {isClean : Bool} {t' : Tree}
    (h : t.uploadFile cfg folder displayFilename originalFilename data isClean = .ok t') :
    ∃ f : TreeFile, t' = { t with files := t.files ++ [f], nextUuid := t.nextUuid + 1 } ∧
      f.id = t.nextUuid ∧ f.file.folder = folder ∧ f.file.displayFilename = displayFilename ∧
      f.body = data ∧ f.file.pointer.checksumSha256 = cfg.sha256 data ∧
      f.file.pointer.size = data.length ∧ data.length ≤ cfg.maxUploadSizeBytes ∧
      data.length ≤ maxBigInteger ∧ ∀ g ∈ t.files, g.id ≠ f.id → ¬ SameName f g := by
  unfold uploadFile at h
  cases hread : readUpload cfg data with
  | error e =>
    rw [hread] at h
    cases h
  | ok read =>
    obtain ⟨pointer, mimeType⟩ := read
    obtain ⟨hchecksum, hlength, hlimit, hsize⟩ := readUpload_ok hread
    rw [hread] at h
    dsimp only at h
    split at h
    · cases h
    · rename_i hclash
      cases h
      exact ⟨_, rfl, rfl, rfl, rfl, rfl, hchecksum, hlength, hlimit, hsize,
        not_clashes_iff.mp (eq_false_of_ne_true hclash)⟩

/-- A small enough upload goes through, or an active file of the folder has its name. -/
theorem uploadFile_of_le (t : Tree) (folder : Option Uuid) (displayFilename originalFilename : String)
    {data : Bytes} (isClean : Bool) (hlimit : data.length ≤ cfg.maxUploadSizeBytes)
    (hsize : data.length ≤ maxBigInteger) :
    (∃ t', t.uploadFile cfg folder displayFilename originalFilename data isClean = .ok t') ∨
      t.uploadFile cfg folder displayFilename originalFilename data isClean = .error .databaseError ∧
        folder ≠ none ∧ ∃ g ∈ t.files, g.file.folder = folder ∧ g.file.displayFilename = displayFilename := by
  obtain ⟨⟨pointer, mimeType⟩, hread⟩ := readUpload_of_le hlimit hsize
  unfold uploadFile
  rw [hread]
  dsimp only
  split
  · rename_i hclash
    right
    obtain ⟨g, hg, hsame⟩ := List.any_eq_true.mp hclash
    rw [Bool.and_eq_true, decide_eq_true_eq] at hsame
    obtain ⟨-, -, -, hne, hfolder, hname⟩ := hsame
    dsimp only at hfolder hname
    exact ⟨rfl, hne, g, hg, hfolder.symm, hname.symm⟩
  · left
    exact ⟨_, rfl⟩

theorem Valid.uploadFile (h : Valid cfg t) {folder : Option Uuid} (hfolder : t.knows folder = true)
    {displayFilename originalFilename : String} {data : Bytes} {isClean : Bool} {t' : Tree}
    (hupload : t.uploadFile cfg folder displayFilename originalFilename data isClean = .ok t') :
    Valid cfg t' := by
  obtain ⟨f, rfl, hid, hf, -, hbody, hchecksum, hlength, hlimit, hsize, hnames⟩ := uploadFile_ok hupload
  have hnew : ∀ g ∈ t.files, g.id ≠ f.id := fun g hg heq =>
    absurd (heq.trans hid) (Nat.ne_of_lt (h.fresh g hg))
  refine ⟨h.formed, fun g hg => Nat.lt_succ_of_lt (h.folderIds g hg), h.fileIds.concat hnew, ?_, ?_, ?_, ?_⟩
  · intro g hg
    obtain hg | rfl := mem_concat.mp hg
    · exact Nat.lt_succ_of_lt (h.fresh g hg)
    · exact hid ▸ Nat.lt_succ_self _
  · intro g hg
    obtain hg | rfl := mem_concat.mp hg
    · exact h.folders g hg
    · rw [hf]
      exact knows_iff.mp hfolder
  · intro g hg k hk hsame
    obtain hg' | rfl := mem_concat.mp hg
    · obtain hk' | rfl := mem_concat.mp hk
      · exact h.names g hg' k hk' hsame
      · exact absurd hsame.symm (hnames g hg' (hnew g hg'))
    · obtain hk' | rfl := mem_concat.mp hk
      · exact absurd hsame (hnames k hk' (hnew k hk'))
      · rfl
  · intro g hg
    obtain hg | rfl := mem_concat.mp hg
    · exact h.contents g hg
    · rw [hbody]
      exact ⟨hchecksum, hlength, hlimit, hsize⟩

/-- An update of a row that keeps its id, with a folder of the bucket and what is recorded of the object. -/
theorem Valid.saveFile (h : Valid cfg t) (id : Uuid) {change : TreeFile → TreeFile}
    (hid : ∀ f, (change f).id = f.id)
    (hfolders : ∀ f ∈ t.files, ∀ folder ∈ (change f).file.folder, ∃ g ∈ t.folders, g.id = folder)
    (hcontents : ∀ f ∈ t.files, (change f).file.pointer.checksumSha256 = cfg.sha256 (change f).body ∧
      (change f).file.pointer.size = (change f).body.length ∧
      (change f).body.length ≤ cfg.maxUploadSizeBytes ∧ (change f).body.length ≤ maxBigInteger) :
    Valid cfg (t.saveFile id change) := by
  unfold Tree.saveFile
  cases hfind : t.files.find? fun f => f.id == id with
  | none => exact h
  | some f =>
    have hf : f ∈ t.files := List.mem_of_find?_eq_some hfind
    have hfound := List.find?_some hfind
    have hfid : f.id = id := beq_iff_eq.mp hfound
    dsimp only
    by_cases hclash : t.clashes (change f) = true
    · rw [if_pos hclash]
      exact h
    · rw [if_neg hclash]
      have hnames := not_clashes_iff.mp (eq_false_of_ne_true hclash)
      -- A row of the new table is the changed row, or an old one with another id.
      have hrow : ∀ g ∈ t.files.map (fun g => if g.id = id then change f else g),
          g = change f ∨ g ∈ t.files ∧ g.id ≠ id := by
        intro g hg
        obtain ⟨old, hold, rfl⟩ := List.mem_map.mp hg
        by_cases holdid : old.id = id
        · rw [if_pos holdid]
          exact .inl rfl
        · rw [if_neg holdid]
          exact .inr ⟨hold, holdid⟩
      have hchanged : (change f).id = id := (hid f).trans hfid
      refine ⟨h.formed, h.folderIds, ?_, ?_, ?_, ?_, ?_⟩
      · intro g hg k hk heq
        obtain rfl | ⟨hg, hgid⟩ := hrow g hg
        · obtain rfl | ⟨hk, hkid⟩ := hrow k hk
          · rfl
          · exact absurd (heq.symm.trans hchanged) hkid
        · obtain rfl | ⟨hk, hkid⟩ := hrow k hk
          · exact absurd (heq.trans hchanged) hgid
          · exact h.fileIds g hg k hk heq
      · intro g hg
        obtain rfl | ⟨hg, -⟩ := hrow g hg
        · exact hid f ▸ h.fresh f hf
        · exact h.fresh g hg
      · intro g hg
        obtain rfl | ⟨hg, -⟩ := hrow g hg
        · exact hfolders f hf
        · exact h.folders g hg
      · intro g hg k hk hsame
        obtain rfl | ⟨hg, hgid⟩ := hrow g hg
        · obtain rfl | ⟨hk, hkid⟩ := hrow k hk
          · rfl
          · exact absurd hsame (hnames k hk (hchanged ▸ hkid))
        · obtain rfl | ⟨hk, hkid⟩ := hrow k hk
          · exact absurd hsame.symm (hnames g hg (hchanged ▸ hgid))
          · exact h.names g hg k hk hsame
      · intro g hg
        obtain rfl | ⟨hg, -⟩ := hrow g hg
        · exact hcontents f hf
        · exact h.contents g hg

theorem Valid.advance (h : Valid cfg t) : Valid cfg { t with nextUuid := t.nextUuid + 1 } :=
  ⟨h.formed, fun f hf => Nat.lt_succ_of_lt (h.folderIds f hf), h.fileIds,
    fun f hf => Nat.lt_succ_of_lt (h.fresh f hf), h.folders, h.names, h.contents⟩

/-! ## Runs -/

theorem saveFile_nextUuid (id : Uuid) (change : TreeFile → TreeFile) :
    (t.saveFile id change).nextUuid = t.nextUuid := by
  unfold Tree.saveFile
  split
  · rfl
  · split
    · rfl
    · rfl

theorem Valid.step (h : Valid cfg t) (r : Request) : Valid cfg (Tree.step cfg t r) := by
  cases r with
  | createFolder parent name =>
    dsimp only [Tree.step]
    by_cases hparent : t.knows parent = true
    · rw [hparent]
      cases hcreate : t.createFolder parent name with
      | none => exact h
      | some created => exact h.createFolder hparent hcreate
    · rw [eq_false_of_ne_true hparent]
      exact h
  | uploadFile folder displayFilename originalFilename data isClean =>
    dsimp only [Tree.step]
    by_cases hfolder : t.knows folder = true
    · rw [hfolder]
      cases hupload : t.uploadFile cfg folder displayFilename originalFilename data isClean with
      | error e => exact h
      | ok t' => exact h.uploadFile hfolder hupload
    · rw [eq_false_of_ne_true hfolder]
      exact h
  | uploadNewVersion file data isClean =>
    dsimp only [Tree.step, Tree.uploadNewVersion]
    cases hread : readUpload cfg data with
    | error e => exact h
    | ok read =>
      obtain ⟨pointer, mimeType⟩ := read
      have hok := readUpload_ok hread
      have hsaved : Valid cfg (t.saveFile file fun f =>
          { f with
            file := { f.file with
              pointer := { pointer with objectKey := t.nextUuid }, mimeType, status := uploadStatus isClean }
            body := data }) := h.saveFile file (fun _ => rfl) h.folders fun _ _ => hok
      have hadvanced := hsaved.advance
      rw [saveFile_nextUuid] at hadvanced
      exact hadvanced
  | patchFile file data =>
    dsimp only [Tree.step]
    by_cases hfolder : t.knows (data.folder.getD none) = true
    · rw [hfolder]
      refine h.saveFile file (fun _ => rfl) (fun f hf => ?_) h.contents
      show ∀ folder ∈ data.folder.getD f.file.folder, ∃ g ∈ t.folders, g.id = folder
      cases hdata : data.folder with
      | none => exact h.folders f hf
      | some folder =>
        rw [hdata] at hfolder
        exact knows_iff.mp hfolder
    · rw [eq_false_of_ne_true hfolder]
      exact h
  | deleteFile file => exact h.saveFile file (fun _ => rfl) h.folders h.contents
  | restoreFile file => exact h.saveFile file (fun _ => rfl) h.folders h.contents

theorem Reachable.valid (h : Reachable cfg t) : Valid cfg t := by
  obtain ⟨requests, rfl⟩ := h
  exact run_invariant_of_forall (fun _ r hvalid => hvalid.step r) valid_empty requests

/-! ## No row twice -/

/-- Every id is that of one row. -/
structure Numbered (t : Tree) : Prop where
  folders : (t.folders.map Node.id).Nodup
  files : (t.files.map TreeFile.id).Nodup

/-- A row with a new id is added. -/
theorem nodup_map_concat {α : Type} {rows : List α} {key : α → Nat} {next : Nat} {x : α}
    (h : (rows.map key).Nodup) (hrows : ∀ a ∈ rows, key a < next) (hx : key x = next) :
    ((rows ++ [x]).map key).Nodup := by
  rw [List.map_append, List.map_singleton, List.nodup_append]
  refine ⟨h, List.nodup_singleton _, fun k hk l hl heq => ?_⟩
  obtain ⟨a, ha, rfl⟩ := List.mem_map.mp hk
  have hlt := hrows a ha
  have hl' := List.mem_singleton.mp hl
  omega

theorem Numbered.createFolder (h : Numbered t) (hvalid : Valid cfg t) {parent : Option Uuid} {name : String}
    {t' : Tree} {id : Uuid} (hcreate : t.createFolder parent name = some (t', id)) : Numbered t' := by
  obtain ⟨-, rfl, -⟩ := createFolder_some hcreate
  exact ⟨nodup_map_concat h.folders hvalid.folderIds rfl, h.files⟩

theorem Numbered.uploadFile (h : Numbered t) (hvalid : Valid cfg t) {folder : Option Uuid}
    {displayFilename originalFilename : String} {data : Bytes} {isClean : Bool} {t' : Tree}
    (hupload : t.uploadFile cfg folder displayFilename originalFilename data isClean = .ok t') :
    Numbered t' := by
  obtain ⟨f, rfl, hid, -⟩ := uploadFile_ok hupload
  exact ⟨h.folders, nodup_map_concat h.files hvalid.fresh hid⟩

theorem Numbered.saveFile (h : Numbered t) (id : Uuid) {change : TreeFile → TreeFile}
    (hid : ∀ f, (change f).id = f.id) : Numbered (t.saveFile id change) := by
  unfold Tree.saveFile
  cases hfind : t.files.find? fun f => f.id == id with
  | none => exact h
  | some f =>
    have hfound := List.find?_some hfind
    dsimp only
    by_cases hclash : t.clashes (change f) = true
    · rw [if_pos hclash]
      exact h
    · rw [if_neg hclash]
      refine ⟨h.folders, ?_⟩
      have hids : ((t.files.map fun g => if g.id = id then change f else g).map TreeFile.id) =
          t.files.map TreeFile.id := by
        rw [List.map_map]
        refine List.map_congr_left fun g _ => ?_
        show TreeFile.id (if g.id = id then change f else g) = g.id
        by_cases hg : g.id = id
        · rw [if_pos hg, hid, hg]
          exact beq_iff_eq.mp hfound
        · rw [if_neg hg]
      rw [hids]
      exact h.files

theorem Numbered.step (h : Numbered t) (hvalid : Valid cfg t) (r : Request) : Numbered (Tree.step cfg t r) := by
  cases r with
  | createFolder parent name =>
    dsimp only [Tree.step]
    by_cases hparent : t.knows parent = true
    · rw [hparent]
      cases hcreate : t.createFolder parent name with
      | none => exact h
      | some created => exact h.createFolder hvalid hcreate
    · rw [eq_false_of_ne_true hparent]
      exact h
  | uploadFile folder displayFilename originalFilename data isClean =>
    dsimp only [Tree.step]
    by_cases hfolder : t.knows folder = true
    · rw [hfolder]
      cases hupload : t.uploadFile cfg folder displayFilename originalFilename data isClean with
      | error e => exact h
      | ok t' => exact h.uploadFile hvalid hupload
    · rw [eq_false_of_ne_true hfolder]
      exact h
  | uploadNewVersion file data isClean =>
    dsimp only [Tree.step, Tree.uploadNewVersion]
    cases hread : readUpload cfg data with
    | error e => exact h
    | ok read =>
      obtain ⟨pointer, mimeType⟩ := read
      have hsaved : Numbered (t.saveFile file fun f =>
          { f with
            file := { f.file with
              pointer := { pointer with objectKey := t.nextUuid }, mimeType, status := uploadStatus isClean }
            body := data }) := h.saveFile file fun _ => rfl
      exact ⟨hsaved.folders, hsaved.files⟩
  | patchFile file data =>
    dsimp only [Tree.step]
    by_cases hfolder : t.knows (data.folder.getD none) = true
    · rw [hfolder]
      exact h.saveFile file fun _ => rfl
    · rw [eq_false_of_ne_true hfolder]
      exact h
  | deleteFile file => exact h.saveFile file fun _ => rfl
  | restoreFile file => exact h.saveFile file fun _ => rfl

theorem Reachable.numbered (h : Reachable cfg t) : Numbered t := by
  obtain ⟨requests, rfl⟩ := h
  have hboth : Valid cfg (run (step cfg) empty requests) ∧ Numbered (run (step cfg) empty requests) :=
    run_invariant_of_forall (I := fun t => Valid cfg t ∧ Numbered t)
      (fun _ r h => ⟨h.1.step r, h.2.step h.1 r⟩) ⟨valid_empty, List.nodup_nil, List.nodup_nil⟩ requests
  exact hboth.2

/-! ## Nothing is lost -/

theorem Keeps.refl (t : Tree) : Keeps t t :=
  ⟨List.prefix_rfl, fun f hf => ⟨f, hf, rfl, rfl⟩⟩

theorem Keeps.trans {t₁ t₂ t₃ : Tree} (h : Keeps t₁ t₂) (h' : Keeps t₂ t₃) : Keeps t₁ t₃ where
  folders := h.folders.trans h'.folders
  files := by
    intro f hf
    obtain ⟨g, hg, hid, hname⟩ := h.files f hf
    obtain ⟨g', hg', hid', hname'⟩ := h'.files g hg
    exact ⟨g', hg', hid'.trans hid, hname'.trans hname⟩

theorem keeps_saveFile (t : Tree) (id : Uuid) {change : TreeFile → TreeFile}
    (hchange : ∀ f, (change f).id = f.id ∧ (change f).originalFilename = f.originalFilename)
    (hids : Keyed TreeFile.id t.files) : Keeps t (t.saveFile id change) := by
  unfold Tree.saveFile
  cases hfind : t.files.find? fun f => f.id == id with
  | none => exact .refl t
  | some f =>
    have hfound := List.find?_some hfind
    have hmem := List.mem_of_find?_eq_some hfind
    dsimp only
    by_cases hclash : t.clashes (change f) = true
    · rw [if_pos hclash]
      exact .refl t
    · rw [if_neg hclash]
      refine ⟨List.prefix_rfl, fun g hg => ?_⟩
      by_cases hid : g.id = id
      · have hsame : g = f := hids g hg f hmem (hid.trans (beq_iff_eq.mp hfound).symm)
        refine ⟨change f, List.mem_map.mpr ⟨g, hg, if_pos hid⟩, ?_⟩
        rw [hsame]
        exact hchange f
      · exact ⟨g, List.mem_map.mpr ⟨g, hg, if_neg hid⟩, rfl, rfl⟩

theorem keeps_step (h : Valid cfg t) (r : Request) : Keeps t (Tree.step cfg t r) := by
  cases r with
  | createFolder parent name =>
    dsimp only [Tree.step]
    by_cases hparent : t.knows parent = true
    · rw [hparent]
      cases hcreate : t.createFolder parent name with
      | none => exact .refl t
      | some created =>
        obtain ⟨t', id⟩ := created
        obtain ⟨-, rfl, -⟩ := createFolder_some hcreate
        exact ⟨List.prefix_append _ _, fun f hf => ⟨f, hf, rfl, rfl⟩⟩
    · rw [eq_false_of_ne_true hparent]
      exact .refl t
  | uploadFile folder displayFilename originalFilename data isClean =>
    dsimp only [Tree.step]
    by_cases hfolder : t.knows folder = true
    · rw [hfolder]
      cases hupload : t.uploadFile cfg folder displayFilename originalFilename data isClean with
      | error e => exact .refl t
      | ok t' =>
        obtain ⟨f, rfl, -⟩ := uploadFile_ok hupload
        exact ⟨List.prefix_rfl, fun g hg => ⟨g, List.mem_append_left _ hg, rfl, rfl⟩⟩
    · rw [eq_false_of_ne_true hfolder]
      exact .refl t
  | uploadNewVersion file data isClean =>
    dsimp only [Tree.step, Tree.uploadNewVersion]
    cases hread : readUpload cfg data with
    | error e => exact .refl t
    | ok read =>
      obtain ⟨pointer, mimeType⟩ := read
      have hsaved : Keeps t (t.saveFile file fun f =>
          { f with
            file := { f.file with
              pointer := { pointer with objectKey := t.nextUuid }, mimeType, status := uploadStatus isClean }
            body := data }) := keeps_saveFile t file (fun _ => ⟨rfl, rfl⟩) h.fileIds
      exact ⟨hsaved.folders, hsaved.files⟩
  | patchFile file data =>
    dsimp only [Tree.step]
    by_cases hfolder : t.knows (data.folder.getD none) = true
    · rw [hfolder]
      exact keeps_saveFile t file (fun _ => ⟨rfl, rfl⟩) h.fileIds
    · rw [eq_false_of_ne_true hfolder]
      exact .refl t
  | deleteFile file => exact keeps_saveFile t file (fun _ => ⟨rfl, rfl⟩) h.fileIds
  | restoreFile file => exact keeps_saveFile t file (fun _ => ⟨rfl, rfl⟩) h.fileIds

theorem keeps_run (requests : List Request) :
    ∀ {t : Tree}, Valid cfg t → Keeps t (run (Tree.step cfg) t requests) := by
  induction requests with
  | nil =>
    intro t _
    exact .refl t
  | cons r requests ih =>
    intro t h
    exact (keeps_step h r).trans (ih (h.step r))

/-- In every run of the storage API on a bucket: folders form a forest with names that are unique below a parent,
files are in folders of the bucket, two active files of a folder have different names, every row has the checksum and
the size of its object; and no later request loses a folder or a file, also not one that deletes. -/
theorem kept_of_run (cfg : Config) (before after : List Request) :
    let t := run (Tree.step cfg) Tree.empty before
    let t' := run (Tree.step cfg) Tree.empty (before ++ after)
    Valid cfg t' ∧ Numbered t' ∧ Keeps t t' := by
  have hvalid : Valid cfg (run (Tree.step cfg) Tree.empty before) := Reachable.valid ⟨before, rfl⟩
  refine ⟨Reachable.valid ⟨before ++ after, rfl⟩, Reachable.numbered ⟨before ++ after, rfl⟩, ?_⟩
  rw [run_append]
  exact keeps_run after hvalid

end Storage.Tree
