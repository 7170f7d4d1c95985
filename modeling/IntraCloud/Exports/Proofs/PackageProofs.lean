import IntraCloud.Exports.Package
import IntraCloud.Exports.Proofs.ContainerProofs
import IntraCloud.Python.Proofs.JsonValueProofs

/-!
# What the checksums cover

`verify_checksums` goes over the checksums, `restore_package` over the paths in the manifest: a package
that passes is verified as far as the first list names what the second one reads.
-/

namespace Exports

open Python

variable {f : Formats} {a : Archive} {manifest : List (List Char × PyJson)}

/-! ## The loop -/

theorem asStr_eq_some {value : PyJson} {s : List Char} (h : value.asStr = some s) : value = .str s := by
  cases value with
  | str t => rw [Option.some.inj h]
  | _ => cases h

/-- A checksum that passes is that of the member's bytes. -/
theorem verifyEntry_ok {name : List Char} {expected : PyJson}
    (h : verifyEntry f a name expected = .ok ()) :
    ∃ data, a.read name = .ok data ∧ expected = .str (f.hexdigest data) := by
  unfold verifyEntry at h
  cases hread : a.read name with
  | error e => cases e <;> simp only [hread] at h <;> cases h
  | ok data =>
    simp only [hread] at h
    split_ifs at h with hsum
    exact ⟨data, rfl, asStr_eq_some hsum⟩

theorem verifyEntries_ok {entries : List (List Char × PyJson)}
    (h : verifyEntries f a entries = .ok ()) :
    ∀ entry ∈ entries, verifyEntry f a entry.1 entry.2 = .ok () := by
  induction entries with
  | nil => exact List.forall_mem_nil _
  | cons entry entries ih =>
    rw [verifyEntries] at h
    cases hentry : verifyEntry f a entry.1 entry.2 with
    | error e =>
      rw [hentry] at h
      cases h
    | ok u =>
      rw [hentry] at h
      exact List.forall_mem_cons.mpr ⟨hentry, ih h⟩

theorem verifyEntries_of_forall {entries : List (List Char × PyJson)}
    (h : ∀ entry ∈ entries, verifyEntry f a entry.1 entry.2 = .ok ()) :
    verifyEntries f a entries = .ok () := by
  induction entries with
  | nil => rfl
  | cons entry entries ih =>
    obtain ⟨hentry, hrest⟩ := List.forall_mem_cons.mp h
    rw [verifyEntries, hentry]
    exact ih hrest

/-! ## Coverage -/

/-- Where the checksums pass, what they list is verified. -/
theorem verified_of_listed (hverify : verifyChecksums f a manifest = .ok ()) {name : List Char}
    (hlisted : Listed manifest name) : Verified f a manifest name := by
  obtain ⟨entries, hentries, hname⟩ := hlisted
  rw [verifyChecksums, hentries] at hverify
  obtain ⟨expected, hmember⟩ := Json.member?_of_mem hname
  obtain ⟨data, hread, rfl⟩ := verifyEntry_ok (verifyEntries_ok hverify _ (Json.mem_of_member? hmember))
  exact ⟨entries, data, hentries, hread, hmember⟩

theorem listed_of_verified {name : List Char} (h : Verified f a manifest name) :
    Listed manifest name := by
  obtain ⟨entries, data, hentries, -, hmember⟩ := h
  exact ⟨entries, hentries, List.mem_map_of_mem (Json.mem_of_member? hmember)⟩

/-- An accepted package is verified exactly where its manifest has a checksum for every path that it
names. -/
theorem coversReads_iff_listed {Key : Type} (p : Primitives Key) (f : Formats) (data : Bytes)
    (passphrase : Option (List Char)) (a : Archive) (manifest : List (List Char × PyJson))
    (_hopen : openPackage p f data passphrase = .ok (a, manifest))
    (hverify : verifyChecksums f a manifest = .ok ()) :
    CoversReads f a manifest ↔ ∀ name ∈ namedMembers a manifest, Listed manifest name := by
  constructor
  · intro hcovers name hname
    exact listed_of_verified (hcovers name hname)
  · intro hlisted name hname
    exact verified_of_listed hverify (hlisted name hname)

/-! ## A package nobody exported -/

/-- The entry of a file. -/
def forgedFile (contentRef : List Char) : PyJson := .dict [("content_ref".toList, .str contentRef)]

/-- An organization of two files, the contents of which are `objects/x` and `objects/y`. -/
def forgedOrganization : PyJson :=
  .dict [("workspaces".toList, .list [.dict [("projects".toList, .list [.dict [("buckets".toList,
    .list [.dict [("files".toList,
      .list [forgedFile "objects/x".toList, forgedFile "objects/y".toList])]])]])]])]

/-- A manifest with these checksums. -/
def forgedMembers (checksums : List (List Char × PyJson)) : List (List Char × PyJson) :=
  [("format".toList, .str FORMAT_NAME.toList), ("format_version".toList, .int 1),
    ("export_type".toList, .str "organization".toList), ("organization".toList, forgedOrganization),
    ("checksums".toList, .dict checksums)]

def forgedArchive (checksums : List (List Char × PyJson)) : Archive :=
  [("manifest.json".toList, .ok (utf8Encode (Json.dumps (.dict (forgedMembers checksums))))),
    ("objects/x".toList, .ok [0x78]), ("objects/y".toList, .ok [0x79])]

/-- An archive format of one archive, with the SHA-256 of its two contents. -/
def forgedFormats (checksums : List (List Char × PyJson)) : Formats where
  unpack _ := some (forgedArchive checksums)
  pack _ := []
  sha256 data :=
    if data = [0x78] then 0x2d711642b726b04401627ca9fbac32f5c8530fb1903cc4db02258717921a4881
    else 0xa1fce4363854ff888cff4b8e7875d600c2682390412a8cf79b37d0b11148b0fa

theorem writable_forgedMembers {checksums : List (List Char × PyJson)} (h : Json.Writable (.dict checksums)) :
    Json.Writable (.dict (forgedMembers checksums)) := by
  have hkeys : ["format".toList, "format_version".toList, "export_type".toList, "organization".toList,
      "checksums".toList].Nodup := by decide
  have hversion : (natText 1).length ≤ maxStrDigits := by decide
  have hfile : ∀ contentRef, Json.Writable (forgedFile contentRef) := fun _ =>
    ⟨List.nodup_singleton _, trivial, trivial⟩
  have hbucket : Json.Writable (.dict [("files".toList,
      .list [forgedFile "objects/x".toList, forgedFile "objects/y".toList])]) :=
    ⟨List.nodup_singleton _, ⟨hfile _, hfile _, trivial⟩, trivial⟩
  have hproject : Json.Writable (.dict [("buckets".toList, .list [.dict [("files".toList,
      .list [forgedFile "objects/x".toList, forgedFile "objects/y".toList])]])]) :=
    ⟨List.nodup_singleton _, ⟨hbucket, trivial⟩, trivial⟩
  have horganization : Json.Writable forgedOrganization :=
    ⟨List.nodup_singleton _, ⟨⟨List.nodup_singleton _, ⟨hproject, trivial⟩, trivial⟩, trivial⟩, trivial⟩
  exact ⟨hkeys, trivial, hversion, trivial, horganization, h, trivial⟩

theorem openArchive_forged {checksums : List (List Char × PyJson)} (h : Json.Writable (.dict checksums))
    (zipBytes : Bytes) :
    openArchive (forgedFormats checksums) zipBytes = .ok (forgedArchive checksums, forgedMembers checksums) := by
  have hload : Json.loadBytes (utf8Encode (Json.dumps (.dict (forgedMembers checksums)))) =
      some (.dict (forgedMembers checksums)) := loadBytes_text none (writable_forgedMembers h)
  have hread : (forgedArchive checksums).read "manifest.json".toList =
      .ok (utf8Encode (Json.dumps (.dict (forgedMembers checksums)))) := rfl
  have hmanifest : readManifest (forgedArchive checksums) = .ok (.dict (forgedMembers checksums)) := by
    simp only [readManifest, hread, hload]
  have hshape : validateManifestShape (.dict (forgedMembers checksums)) = .ok (forgedMembers checksums) := rfl
  unfold openArchive
  simp only [forgedFormats, hmanifest, hshape]

theorem openPackage_forged {checksums : List (List Char × PyJson)} (h : Json.Writable (.dict checksums)) :
    ∃ data, openPackage (recordingCipher zeroDraws [] []) (forgedFormats checksums) data none =
      .ok (forgedArchive checksums, forgedMembers checksums) := by
  have hmeta : WrittenMeta zeroDraws .null := .inl rfl
  obtain ⟨data, hframe⟩ := frame_isSome [] hmeta
  have hread := read_unencrypted (p := recordingCipher zeroDraws [] []) hframe none
  refine ⟨data, ?_⟩
  rw [openPackage, hread]
  exact openArchive_forged h []

theorem writable_unlisted : Json.Writable (.dict []) := ⟨List.nodup_nil, trivial⟩

theorem namedMembers_forged (checksums : List (List Char × PyJson)) :
    namedMembers (forgedArchive checksums) (forgedMembers checksums) =
      ["objects/x".toList, "objects/y".toList] := rfl

/-- The package is accepted and its files are verified by nothing. -/
theorem not_coversReads_of_unlisted :
    ¬ ∀ (p : Primitives Bytes) (f : Formats) (data : Bytes) (passphrase : Option (List Char))
      (a : Archive) (manifest : List (List Char × PyJson)),
      openPackage p f data passphrase = .ok (a, manifest) → verifyChecksums f a manifest = .ok () →
        CoversReads f a manifest := by
  intro hclaim
  obtain ⟨data, hopen⟩ := openPackage_forged writable_unlisted
  have hcovers := hclaim _ _ _ _ _ _ hopen rfl "objects/x".toList
    (namedMembers_forged [] ▸ List.mem_cons_self)
  obtain ⟨entries, hentries, hname⟩ := listed_of_verified hcovers
  obtain rfl : ([] : List (List Char × PyJson)) = entries := PyJson.dict.inj hentries
  exact absurd hname List.not_mem_nil

/-- The checksums of the two files. -/
def listedChecksums : List (List Char × PyJson) :=
  [("objects/x".toList, .str "2d711642b726b04401627ca9fbac32f5c8530fb1903cc4db02258717921a4881".toList),
    ("objects/y".toList, .str "a1fce4363854ff888cff4b8e7875d600c2682390412a8cf79b37d0b11148b0fa".toList)]

theorem coversReads_iff_listed_twoFiles :
    ∃ data, openPackage (recordingCipher zeroDraws [] []) (forgedFormats listedChecksums) data none =
        .ok (forgedArchive listedChecksums, forgedMembers listedChecksums) ∧
      CoversReads (forgedFormats listedChecksums) (forgedArchive listedChecksums)
        (forgedMembers listedChecksums) := by
  have hwritable : Json.Writable (.dict listedChecksums) := ⟨by decide, trivial, trivial, trivial⟩
  obtain ⟨data, hopen⟩ := openPackage_forged hwritable
  refine ⟨data, hopen, (coversReads_iff_listed _ _ data none _ _ hopen rfl).mpr fun name hname => ?_⟩
  rw [namedMembers_forged] at hname
  exact ⟨listedChecksums, rfl, hname⟩

end Exports
