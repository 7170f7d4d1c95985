import IntraCloud.Storage.Concurrent
import IntraCloud.Transition.Proofs.RunsProofs
import Mathlib.Data.List.Nodup

/-!
# Requests on one file keep its pointer

Every copy of the row designates a committed upload, and no two uploads have the same key. So an upload in
a versioned bucket that does not start from the row as it is meets the version of its key, and in any other
bucket an upload never deletes the object of the row.
-/

namespace Storage

open Python Transition

variable {cfg : Config} {s : State}

/-! ## The invariant -/

/-- The keys of the committed uploads. -/
def State.keys (s : State) : List Uuid := s.uploads.map (·.objectKey)

/-- The key of the object a request has stored and not committed. -/
def Running.newKey? : Running → Option Uuid
  | .stored _ new _ _ => some new.objectKey
  | _ => none

/-- What holds of the file. -/
structure FileInv (cfg : Config) (s : State) : Prop where
  last : s.uploads.getLast? = some s.file.pointer
  nodup : s.keys.Nodup
  below : ∀ k ∈ s.keys, k < s.nextKey
  stored : Stored cfg s s.file.pointer
  versions : cfg.versioningEnabled = true →
    s.versions = s.uploads.dropLast ∧ ∀ p ∈ s.uploads.dropLast, Stored cfg s p

/-- What holds of a request. -/
def RunningInv (cfg : Config) (s : State) : Running → Prop
  | .uploading copy _ _ | .patching copy _ => copy.pointer ∈ s.uploads
  | .stored copy new _ _ =>
    copy.pointer ∈ s.uploads ∧ new.objectKey ∉ s.keys ∧ new.objectKey < s.nextKey ∧ Stored cfg s new
  | .replaced oldKey =>
    cfg.versioningEnabled = false ∧ oldKey ∈ s.uploads.dropLast.map (·.objectKey)
  | .deleting | .restoring => True

/-- What holds of the file with the requests on it. -/
structure Inv (cfg : Config) (x : Serving) : Prop where
  file : FileInv cfg x.state
  requests : ∀ i r, x.running i = some r → RunningInv cfg x.state r
  distinct : ∀ i j k, i ≠ j → (x.running i).bind Running.newKey? = some k →
    (x.running j).bind Running.newKey? ≠ some k

/-! ## Pointers -/

theorem FileInv.mem (h : FileInv cfg s) : s.file.pointer ∈ s.uploads := List.mem_of_getLast? h.last

theorem FileInv.uploads_eq (h : FileInv cfg s) : s.uploads.dropLast ++ [s.file.pointer] = s.uploads := by
  have hne : s.uploads ≠ [] := List.ne_nil_of_mem h.mem
  have hlast := h.last
  rw [List.getLast?_eq_some_getLast hne, Option.some.injEq] at hlast
  rw [← hlast]
  exact List.dropLast_append_getLast hne

/-- The key tells which upload it is. -/
theorem FileInv.eq_of_key (h : FileInv cfg s) {p q : Pointer} (hp : p ∈ s.uploads) (hq : q ∈ s.uploads)
    (hkey : p.objectKey = q.objectKey) : p = q :=
  List.inj_on_of_nodup_map h.nodup hp hq hkey

/-- The row does not designate an earlier upload. -/
theorem FileInv.key_not_mem (h : FileInv cfg s) :
    s.file.pointer.objectKey ∉ s.uploads.dropLast.map (·.objectKey) := by
  have hnodup := h.nodup
  unfold State.keys at hnodup
  rw [← h.uploads_eq, List.map_append, List.nodup_append] at hnodup
  intro hmem
  exact hnodup.2.2 _ hmem _ (List.mem_singleton_self _) rfl

/-- A copy of the row whose key is not that of an earlier upload designates what the row does. -/
theorem FileInv.eq_of_not_mem (h : FileInv cfg s) {p : Pointer} (hp : p ∈ s.uploads)
    (hearlier : p.objectKey ∉ s.uploads.dropLast.map (·.objectKey)) : p = s.file.pointer := by
  rw [← h.uploads_eq, List.mem_append] at hp
  rcases hp with hp | hp
  · exact absurd (List.mem_map_of_mem hp) hearlier
  · exact List.mem_singleton.mp hp

/-! ## Objects -/

theorem lookup_filter_ne {objects : List (Uuid × Bytes)} {key key' : Uuid} (h : key' ≠ key) :
    (objects.filter (·.1 ≠ key)).lookup key' = objects.lookup key' := by
  induction objects with
  | nil => rfl
  | cons object objects ih =>
    by_cases hkey : object.1 = key
    · have hbeq : (key' == object.1) = false := by
        rw [hkey]
        simpa using h
      rw [List.filter_cons_of_neg (by simpa using hkey), ih, List.lookup_cons, hbeq]
    · rw [List.filter_cons_of_pos (by simpa using hkey), List.lookup_cons, List.lookup_cons, ih]

theorem Stored.deleteObject {p : Pointer} (h : Stored cfg s p) {key : Uuid} (hkey : p.objectKey ≠ key) :
    Stored cfg (s.deleteObject key) p := by
  obtain ⟨content, hlookup, hsize, hchecksum⟩ := h
  exact ⟨content, (lookup_filter_ne hkey).trans hlookup, hsize, hchecksum⟩

theorem Stored.putStream {p : Pointer} (h : Stored cfg s p) (hkey : p.objectKey < s.nextKey)
    (content : Bytes) (isClean : Bool) : Stored cfg (s.putStream content isClean) p := by
  obtain ⟨old, hlookup, hsize, hchecksum⟩ := h
  refine ⟨old, ?_, hsize, hchecksum⟩
  have hbeq : (p.objectKey == s.nextKey) = false := beq_eq_false_iff_ne.mpr (Nat.ne_of_lt hkey)
  show List.lookup p.objectKey ((s.nextKey, content) :: s.objects) = some old
  rw [List.lookup_cons, hbeq]
  exact hlookup

/-- What the row of a file or its status says reads no object. -/
theorem Stored.congr {s' : State} {p : Pointer} (h : Stored cfg s p) (hobjects : s'.objects = s.objects) :
    Stored cfg s' p := by
  unfold Stored
  rw [hobjects]
  exact h

/-! ## The other requests -/

/-- A step that commits no upload and keeps the objects that are not committed. -/
theorem RunningInv.frame {s' : State} {r : Running} (h : RunningInv cfg s r) (huploads : s'.uploads = s.uploads)
    (hnext : s.nextKey ≤ s'.nextKey)
    (hstored : ∀ p : Pointer, p.objectKey ∉ s.keys → p.objectKey < s.nextKey → Stored cfg s p → Stored cfg s' p) :
    RunningInv cfg s' r := by
  have hkeys : s'.keys = s.keys := by
    unfold State.keys
    rw [huploads]
  cases r with
  | uploading copy _ _ =>
    show copy.pointer ∈ s'.uploads
    rw [huploads]
    exact h
  | patching copy _ =>
    show copy.pointer ∈ s'.uploads
    rw [huploads]
    exact h
  | stored copy new _ _ =>
    obtain ⟨hcopy, hnew, hbelow, hobject⟩ := h
    refine ⟨by rw [huploads]; exact hcopy, by rw [hkeys]; exact hnew, Nat.lt_of_lt_of_le hbelow hnext, ?_⟩
    exact hstored new hnew hbelow hobject
  | replaced oldKey =>
    obtain ⟨hversioning, hold⟩ := h
    refine ⟨hversioning, ?_⟩
    rw [huploads]
    exact hold
  | deleting => trivial
  | restoring => trivial

/-- The commit of another upload. -/
theorem RunningInv.commit {s' : State} {r : Running} (h : RunningInv cfg s r) {new : Pointer}
    (huploads : s'.uploads = s.uploads ++ [new]) (hnext : s'.nextKey = s.nextKey)
    (hobjects : s'.objects = s.objects) (hne : r.newKey? ≠ some new.objectKey) : RunningInv cfg s' r := by
  have hkeys : s'.keys = s.keys ++ [new.objectKey] := by
    unfold State.keys
    rw [huploads, List.map_append]
    rfl
  cases r with
  | uploading copy _ _ =>
    show copy.pointer ∈ s'.uploads
    rw [huploads]
    exact List.mem_append_left _ h
  | patching copy _ =>
    show copy.pointer ∈ s'.uploads
    rw [huploads]
    exact List.mem_append_left _ h
  | stored copy new' _ _ =>
    obtain ⟨hcopy, hnew, hbelow, hobject⟩ := h
    refine ⟨by rw [huploads]; exact List.mem_append_left _ hcopy, ?_, by rw [hnext]; exact hbelow,
      hobject.congr hobjects⟩
    rw [hkeys, List.mem_append, List.mem_singleton, not_or]
    exact ⟨hnew, fun heq => hne (congrArg some heq)⟩
  | replaced oldKey =>
    obtain ⟨hversioning, hold⟩ := h
    refine ⟨hversioning, ?_⟩
    rw [huploads, List.dropLast_concat]
    exact List.map_subset _ (List.dropLast_subset _) hold
  | deleting => trivial
  | restoring => trivial

/-! ## Steps -/

/-- A step of one request, from what it leaves of the file, of the request and of the others. -/
theorem Inv.update {x : Serving} (h : Inv cfg x) {i : Nat} {s' : State} {left : Option Running}
    (hfile : FileInv cfg s') (hleft : ∀ r, left = some r → RunningInv cfg s' r)
    (hothers : ∀ j r, j ≠ i → x.running j = some r → RunningInv cfg s' r)
    (hkey : ∀ j k, j ≠ i → left.bind Running.newKey? = some k →
      (x.running j).bind Running.newKey? ≠ some k) : Inv cfg (x.update i s' left) := by
  have hself : (x.update i s' left).running i = left := if_pos rfl
  have hother : ∀ j, j ≠ i → (x.update i s' left).running j = x.running j := fun j hj => if_neg hj
  refine ⟨hfile, fun j r hr => ?_, fun j j' k hne hk => ?_⟩
  · by_cases hj : j = i
    · rw [hj, hself] at hr
      exact hleft r hr
    · rw [hother j hj] at hr
      exact hothers j r hj hr
  · by_cases hj : j = i
    · rw [hj, hself] at hk
      rw [hother j' (fun heq => hne (hj.trans heq.symm))]
      exact hkey j' k (fun heq => hne (hj.trans heq.symm)) hk
    · rw [hother j hj] at hk
      by_cases hj' : j' = i
      · rw [hj', hself]
        exact fun hleft => hkey j k hj hleft hk
      · rw [hother j' hj']
        exact h.distinct j j' k hne hk

/-- The row saved with the same pointer. -/
theorem FileInv.save {file : FileObject} (h : FileInv cfg s) (hpointer : file.pointer = s.file.pointer) :
    FileInv cfg (s.save file) := by
  refine ⟨?_, h.nodup, h.below, ?_, h.versions⟩
  · show s.uploads.getLast? = some file.pointer
    rw [hpointer]
    exact h.last
  · show Stored cfg (s.save file) file.pointer
    rw [hpointer]
    exact h.stored.congr rfl

theorem FileInv.putStream (h : FileInv cfg s) (content : Bytes) (isClean : Bool) :
    FileInv cfg (s.putStream content isClean) := by
  have hbelow : ∀ p ∈ s.uploads, p.objectKey < s.nextKey := fun p hp => h.below _ (List.mem_map_of_mem hp)
  refine ⟨h.last, h.nodup, fun k hk => Nat.lt_succ_of_lt (h.below k hk),
    h.stored.putStream (hbelow _ h.mem) content isClean, fun hversioning => ?_⟩
  obtain ⟨hversions, hearlier⟩ := h.versions hversioning
  refine ⟨hversions, fun p hp => ?_⟩
  exact (hearlier p hp).putStream (hbelow p (List.dropLast_subset _ hp)) content isClean

/-- An object that no version and not the row designates. -/
theorem FileInv.deleteObject (h : FileInv cfg s) {key : Uuid} (hversioning : cfg.versioningEnabled = false)
    (hkey : s.file.pointer.objectKey ≠ key) : FileInv cfg (s.deleteObject key) := by
  refine ⟨h.last, h.nodup, h.below, h.stored.deleteObject hkey, fun hon => ?_⟩
  rw [hversioning] at hon
  cases hon

/-- The transaction of an upload whose key has no version. -/
theorem FileInv.replace (h : FileInv cfg s) {copy : FileObject} {new : Pointer} {mimeType : String}
    {isClean : Bool} {s' : State} (hcopy : copy.pointer ∈ s.uploads) (hnew : new.objectKey ∉ s.keys)
    (hbelow : new.objectKey < s.nextKey) (hstored : Stored cfg s new)
    (hs' : s.replace cfg copy new mimeType isClean = some s') :
    FileInv cfg s' ∧ s'.uploads = s.uploads ++ [new] ∧ s'.nextKey = s.nextKey ∧ s'.objects = s.objects := by
  unfold State.replace at hs'
  split at hs'
  · cases hs'
  · rename_i hfree
    cases hs'
    refine ⟨⟨?_, ?_, ?_, hstored.congr rfl, fun hversioning => ?_⟩, rfl, rfl, rfl⟩
    · exact List.getLast?_concat
    · show ((s.uploads ++ [new]).map (·.objectKey)).Nodup
      rw [List.map_append, List.nodup_append]
      refine ⟨h.nodup, List.nodup_singleton _, ?_⟩
      intro a ha b hb heq
      rw [List.mem_singleton.mp hb] at heq
      rw [heq] at ha
      exact hnew ha
    · intro k hk
      have hk' : k ∈ s.keys ++ [new.objectKey] := by
        have hmap : k ∈ (s.uploads ++ [new]).map (·.objectKey) := hk
        rw [List.map_append] at hmap
        exact hmap
      rcases List.mem_append.mp hk' with hk | hk
      · exact h.below k hk
      · rw [List.mem_singleton.mp hk]
        exact hbelow
    · obtain ⟨hversions, hearlier⟩ := h.versions hversioning
      -- the copy of the row designates what the row still does
      have hcurrent : copy.pointer = s.file.pointer := by
        refine h.eq_of_not_mem hcopy fun hmem => hfree ⟨hversioning, ?_⟩
        rw [hversions]
        exact hmem
      refine ⟨?_, fun p hp => ?_⟩
      · show (if cfg.versioningEnabled then s.versions ++ [copy.pointer] else s.versions) =
          (s.uploads ++ [new]).dropLast
        rw [if_pos hversioning, List.dropLast_concat, hversions, hcurrent, h.uploads_eq]
      · have hp' : p ∈ s.uploads := by
          have hmem : p ∈ (s.uploads ++ [new]).dropLast := hp
          rw [List.dropLast_concat] at hmem
          exact hmem
        rw [← h.uploads_eq, List.mem_append] at hp'
        rcases hp' with hp' | hp'
        · exact (hearlier p hp').congr rfl
        · rw [List.mem_singleton.mp hp']
          exact h.stored.congr rfl

section Step

variable {x : Serving} {i : Nat}

theorem step_receive_some {r : Running} (h : x.running i = some r) (request : Request) :
    step cfg x (.receive i request) = x := by
  simp only [step, h]

theorem step_receive_none (h : x.running i = none) (request : Request) :
    step cfg x (.receive i request) = x.update i x.state (some (request.start x.state.file)) := by
  simp only [step, h]

theorem step_advance_none (h : x.running i = none) : step cfg x (.advance i) = x := by
  simp only [step, h]

theorem step_advance_some {r : Running} (h : x.running i = some r) :
    step cfg x (.advance i) = x.update i (r.advance cfg x.state).1 (r.advance cfg x.state).2 := by
  simp only [step, h]

theorem advance_uploading_none {copy : FileObject} {content : Bytes} {isClean : Bool}
    (h : hashAndSniff cfg content = none) :
    (Running.uploading copy content isClean).advance cfg s = (s, none) := by
  simp only [Running.advance, h]

theorem advance_uploading_some {copy : FileObject} {content : Bytes} {isClean : Bool} {checksum : List Char}
    {size : Nat} {mimeType : String} (h : hashAndSniff cfg content = some (checksum, size, mimeType)) :
    (Running.uploading copy content isClean).advance cfg s = (s.putStream content isClean,
      some (.stored copy ⟨s.nextKey, size, checksum⟩ mimeType isClean)) := by
  simp only [Running.advance, h]

theorem advance_stored_none {copy : FileObject} {new : Pointer} {mimeType : String} {isClean : Bool}
    (h : s.replace cfg copy new mimeType isClean = none) :
    (Running.stored copy new mimeType isClean).advance cfg s = (s, none) := by
  simp only [Running.advance, h]

theorem advance_stored_some {copy : FileObject} {new : Pointer} {mimeType : String} {isClean : Bool}
    {s' : State} (h : s.replace cfg copy new mimeType isClean = some s') :
    (Running.stored copy new mimeType isClean).advance cfg s =
      (s', if cfg.versioningEnabled then none else some (.replaced copy.pointer.objectKey)) := by
  simp only [Running.advance, h]

/-- A step that commits no upload, changes no pointer, and keeps the objects that are not committed. -/
theorem Inv.frame (h : Inv cfg x) {s' : State} {left : Option Running} (hfile : FileInv cfg s')
    (huploads : s'.uploads = x.state.uploads) (hnext : x.state.nextKey ≤ s'.nextKey)
    (hstored : ∀ p : Pointer, p.objectKey ∉ x.state.keys → p.objectKey < x.state.nextKey →
      Stored cfg x.state p → Stored cfg s' p)
    (hleft : ∀ r, left = some r → RunningInv cfg s' r)
    (hkey : ∀ k, left.bind Running.newKey? = some k → x.state.nextKey ≤ k) :
    Inv cfg (x.update i s' left) := by
  refine h.update hfile hleft (fun j r _ hr => (h.requests j r hr).frame huploads hnext hstored) ?_
  intro j k _ hk hj
  have hle := hkey k hk
  -- a key that is stored already is below the next one
  cases hr : x.running j with
  | none =>
    rw [hr] at hj
    cases hj
  | some r =>
    rw [hr] at hj
    have hinv := h.requests j r hr
    cases r with
    | stored copy new mimeType isClean =>
      have hlt := hinv.2.2.1
      have heq : new.objectKey = k := Option.some.inj hj
      rw [heq] at hlt
      exact Nat.not_le_of_lt hlt hle
    | uploading _ _ _ | replaced _ | patching _ _ | deleting | restoring => cases hj

theorem Inv.receive (h : Inv cfg x) (request : Request) : Inv cfg (step cfg x (.receive i request)) := by
  cases hi : x.running i with
  | some r =>
    rw [step_receive_some hi]
    exact h
  | none =>
    rw [step_receive_none hi]
    refine h.frame h.file rfl (Nat.le_refl _) (fun p _ _ hp => hp) (fun r hr => ?_) (fun k hk => ?_)
    · cases hr
      cases request with
      | uploadNewVersion content isClean => exact h.file.mem
      | patch data => exact h.file.mem
      | delete => trivial
      | restore => trivial
    · cases request <;> cases hk

/-- The object of an upload is stored. -/
theorem Inv.put (h : Inv cfg x) {copy : FileObject} {content : Bytes} {isClean : Bool}
    (hcopy : copy.pointer ∈ x.state.uploads) :
    Inv cfg (x.update i ((Running.uploading copy content isClean).advance cfg x.state).1
      ((Running.uploading copy content isClean).advance cfg x.state).2) := by
  cases hread : hashAndSniff cfg content with
  | none =>
    rw [advance_uploading_none hread]
    exact h.frame h.file rfl (Nat.le_refl _) (fun p _ _ hp => hp) (fun r hr => (nomatch hr))
      (fun k hk => (nomatch hk))
  | some read =>
    obtain ⟨checksum, size, mimeType⟩ := read
    rw [advance_uploading_some hread]
    unfold hashAndSniff at hread
    split at hread
    · cases hread
    · cases hread
      refine h.frame (h.file.putStream content isClean) rfl (Nat.le_succ _)
        (fun p _ hbelow hp => hp.putStream hbelow content isClean) (fun r hr => ?_) (fun k hk => ?_)
      · cases hr
        refine ⟨hcopy, fun hmem => ?_, Nat.lt_succ_self _, content, ?_, rfl, rfl⟩
        · exact Nat.lt_irrefl _ (h.file.below _ hmem)
        · exact List.lookup_cons_self
      · cases hk
        exact Nat.le_refl _

/-- An upload is committed, or meets the version of its key. -/
theorem Inv.commit (h : Inv cfg x) {copy : FileObject} {new : Pointer} {mimeType : String} {isClean : Bool}
    (hi : x.running i = some (.stored copy new mimeType isClean)) :
    Inv cfg (x.update i ((Running.stored copy new mimeType isClean).advance cfg x.state).1
      ((Running.stored copy new mimeType isClean).advance cfg x.state).2) := by
  obtain ⟨hcopy, hnew, hbelow, hstored⟩ := h.requests i _ hi
  cases hreplace : x.state.replace cfg copy new mimeType isClean with
  | none =>
    rw [advance_stored_none hreplace]
    exact h.frame h.file rfl (Nat.le_refl _) (fun p _ _ hp => hp) (fun r hr => (nomatch hr))
      (fun k hk => (nomatch hk))
  | some s' =>
    rw [advance_stored_some hreplace]
    obtain ⟨hfile, huploads, hnext, hobjects⟩ := h.file.replace hcopy hnew hbelow hstored hreplace
    refine h.update hfile (fun r hr => ?_) (fun j r hj hr => ?_) (fun j k _ hk => ?_)
    · dsimp only at hr
      split at hr
      · cases hr
      · rename_i hversioning
        cases hr
        refine ⟨Bool.eq_false_iff.mpr hversioning, ?_⟩
        rw [huploads, List.dropLast_concat]
        exact List.mem_map_of_mem hcopy
    · refine (h.requests j r hr).commit huploads hnext hobjects fun hsame => ?_
      have hdistinct := h.distinct i j new.objectKey (Ne.symm hj) (by rw [hi]; rfl)
      rw [hr] at hdistinct
      exact hdistinct hsame
    · dsimp only at hk
      split at hk <;> cases hk

/-- The object an upload has replaced goes. -/
theorem Inv.remove (h : Inv cfg x) {oldKey : Uuid} (hi : x.running i = some (.replaced oldKey)) :
    Inv cfg (x.update i (x.state.deleteObject oldKey) none) := by
  obtain ⟨hversioning, hold⟩ := h.requests i _ hi
  have hne : x.state.file.pointer.objectKey ≠ oldKey := fun heq => h.file.key_not_mem (heq ▸ hold)
  refine h.frame (h.file.deleteObject hversioning hne) rfl (Nat.le_refl _) (fun p hp _ hstored => ?_)
    (fun r hr => (nomatch hr)) (fun k hk => (nomatch hk))
  refine hstored.deleteObject fun heq => hp ?_
  rw [heq]
  exact List.map_subset _ (List.dropLast_subset _) hold

/-- The row is saved with the pointer it has. -/
theorem Inv.save (h : Inv cfg x) {file : FileObject} (hpointer : file.pointer = x.state.file.pointer) :
    Inv cfg (x.update i (x.state.save file) none) :=
  h.frame (h.file.save hpointer) rfl (Nat.le_refl _) (fun _ _ _ hp => hp.congr rfl)
    (fun _ hr => (nomatch hr)) (fun _ hk => (nomatch hk))

theorem Inv.step (h : Inv cfg x) {a : Action} (hcurrent : PatchesCurrent x a) : Inv cfg (step cfg x a) := by
  cases a with
  | receive i request => exact h.receive request
  | raise i =>
    exact h.frame h.file rfl (Nat.le_refl _) (fun p _ _ hp => hp) (fun r hr => (nomatch hr))
      (fun k hk => (nomatch hk))
  | advance i =>
    cases hi : x.running i with
    | none =>
      rw [step_advance_none hi]
      exact h
    | some r =>
      rw [step_advance_some hi]
      have hr := h.requests i r hi
      cases r with
      | uploading copy content isClean => exact h.put hr
      | stored copy new mimeType isClean => exact h.commit hi
      | replaced oldKey => exact h.remove hi
      | patching copy data =>
        have hkey : copy.pointer.objectKey = x.state.file.pointer.objectKey := by
          simpa only [PatchesCurrent, hi] using hcurrent
        exact h.save (h.file.eq_of_key hr h.file.mem hkey)
      | deleting => exact h.save rfl
      | restoring => exact h.save rfl

end Step

/-! ## All runs -/

/-- What the invariant says of the row and its versions. -/
theorem FileInv.integrity (h : FileInv cfg s) : Integrity cfg s := by
  refine ⟨h.last, h.stored, fun hversioning p hp => ?_⟩
  obtain ⟨hversions, hearlier⟩ := h.versions hversioning
  refine ⟨?_, hearlier p hp⟩
  have hnodup : s.uploads.Nodup := h.nodup.of_map
  rw [hversions]
  exact List.count_eq_one_of_mem (hnodup.sublist (List.dropLast_sublist _)) hp

theorem Inv.start {folder : Option Uuid} {displayFilename : String} {content : Bytes} {isClean : Bool}
    (h : uploadFile cfg folder displayFilename content isClean = some s) :
    Inv cfg ⟨s, fun _ => none⟩ := by
  unfold uploadFile hashAndSniff at h
  split at h
  · cases h
  · rename_i hread
    split at hread
    · cases hread
    · cases hread
      cases h
      refine ⟨⟨rfl, List.nodup_singleton _, ?_, ⟨content, rfl, rfl, rfl⟩, fun _ => ⟨rfl, ?_⟩⟩,
        fun i r hr => (nomatch hr), fun i j k _ hk => (nomatch hk)⟩
      · intro k hk
        rw [List.mem_singleton.mp hk]
        exact Nat.one_pos
      · intro p hp
        cases hp

/-- In whatever order the steps of requests on a file come, its row and its versions designate what has
been uploaded, so long as no PATCH saves a row read before an upload that has been committed since. -/
theorem integrity_of_patchesCurrent (cfg : Config) (folder : Option Uuid) (displayFilename : String)
    (content : Bytes) (isClean : Bool) (s : State)
    (hcreated : uploadFile cfg folder displayFilename content isClean = some s) (as : List Action)
    (hcurrent : Always (step cfg) PatchesCurrent ⟨s, fun _ => none⟩ as) :
    Integrity cfg (run (step cfg) ⟨s, fun _ => none⟩ as).state :=
  (run_invariant (fun _ _ h hcurrent => h.step hcurrent) (Inv.start hcreated) hcurrent).file.integrity

/-! ## Keys are made once -/

section Keys

variable {x : Serving}

/-- The keys that a request goes on with. -/
def Running.keys : Running → List Uuid
  | .uploading copy _ _ | .patching copy _ => [copy.pointer.objectKey]
  | .stored copy new _ _ => [copy.pointer.objectKey, new.objectKey]
  | .replaced oldKey => [oldKey]
  | .deleting | .restoring => []

/-- No key is in use that is still to be made. -/
structure Numbered (x : Serving) : Prop where
  file : x.state.file.pointer.objectKey < x.state.nextKey
  running : ∀ i r, x.running i = some r → ∀ key ∈ r.keys, key < x.state.nextKey

/-- A step of a request, by the file and by what is left of the request. -/
theorem Numbered.update (h : Numbered x) {i : Nat} {s' : State} {left : Option Running}
    (hnext : x.state.nextKey ≤ s'.nextKey) (hfile : s'.file.pointer.objectKey < s'.nextKey)
    (hleft : ∀ r, left = some r → ∀ key ∈ r.keys, key < s'.nextKey) : Numbered (x.update i s' left) := by
  refine ⟨hfile, fun j r hr key hkey => ?_⟩
  by_cases hj : j = i
  · simp only [Serving.update, hj, if_true] at hr
    exact hleft r hr key hkey
  · simp only [Serving.update, hj, if_false] at hr
    exact Nat.lt_of_lt_of_le (h.running j r hr key hkey) hnext

theorem not_mem_left (n : Uuid) : ∀ r : Running, none = some r → ∀ key ∈ r.keys, key < n := by
  intro r hr
  cases hr

theorem Numbered.advance (h : Numbered x) {i : Nat} {r : Running} (hi : x.running i = some r) :
    Numbered (x.update i (r.advance cfg x.state).1 (r.advance cfg x.state).2) := by
  have hkeys := h.running i r hi
  cases r with
  | uploading copy content isClean =>
    cases hsniff : hashAndSniff cfg content with
    | none =>
      rw [advance_uploading_none hsniff]
      exact h.update (Nat.le_refl _) h.file (not_mem_left _)
    | some found =>
      obtain ⟨checksum, size, mimeType⟩ := found
      rw [advance_uploading_some hsniff]
      refine h.update (Nat.le_succ _) (Nat.lt_succ_of_lt h.file) fun r hr key hkey => ?_
      obtain rfl := Option.some.inj hr
      rcases List.mem_cons.mp hkey with rfl | hnew
      · exact Nat.lt_succ_of_lt (hkeys _ List.mem_cons_self)
      · rw [List.mem_singleton.mp hnew]
        exact Nat.lt_succ_self _
  | stored copy new mimeType isClean =>
    cases hreplace : x.state.replace cfg copy new mimeType isClean with
    | none =>
      rw [advance_stored_none hreplace]
      exact h.update (Nat.le_refl _) h.file (not_mem_left _)
    | some s' =>
      rw [advance_stored_some hreplace]
      unfold State.replace at hreplace
      split at hreplace
      · cases hreplace
      · obtain rfl := Option.some.inj hreplace
        refine h.update (Nat.le_refl _) (hkeys _ (List.mem_cons_of_mem _ List.mem_cons_self)) fun r hr key hkey => ?_
        split at hr
        · cases hr
        · obtain rfl := Option.some.inj hr
          rw [List.mem_singleton.mp hkey]
          exact hkeys _ List.mem_cons_self
  | replaced oldKey => exact h.update (Nat.le_refl _) h.file (not_mem_left _)
  | patching copy data => exact h.update (Nat.le_refl _) (hkeys _ List.mem_cons_self) (not_mem_left _)
  | deleting => exact h.update (Nat.le_refl _) h.file (not_mem_left _)
  | restoring => exact h.update (Nat.le_refl _) h.file (not_mem_left _)

theorem Numbered.step (h : Numbered x) (a : Action) : Numbered (step cfg x a) := by
  cases a with
  | receive i request =>
    cases hi : x.running i with
    | some r =>
      rw [step_receive_some hi]
      exact h
    | none =>
      rw [step_receive_none hi]
      refine h.update (Nat.le_refl _) h.file fun r hr key hkey => ?_
      obtain rfl := Option.some.inj hr
      cases request with
      | uploadNewVersion content isClean | patch data =>
        rw [List.mem_singleton.mp hkey]
        exact h.file
      | delete | restore => cases hkey
  | advance i =>
    cases hi : x.running i with
    | none =>
      rw [step_advance_none hi]
      exact h
    | some r =>
      rw [step_advance_some hi]
      exact h.advance hi
  | raise i => exact h.update (Nat.le_refl _) h.file (not_mem_left _)

theorem numbered_of_run {folder : Option Uuid} {displayFilename : String} {content : Bytes} {isClean : Bool}
    {s : State} (hcreated : uploadFile cfg folder displayFilename content isClean = some s) (as : List Action) :
    Numbered (run (step cfg) ⟨s, fun _ => none⟩ as) := by
  have hstart : Numbered ⟨s, fun _ => none⟩ := by
    unfold uploadFile at hcreated
    split at hcreated
    · cases hcreated
    · obtain rfl := Option.some.inj hcreated
      exact ⟨Nat.zero_lt_one, fun _ => not_mem_left _⟩
  exact run_invariant_of_forall (fun _ a h => h.step a) hstart as

/-- No key is made again, and what is stored under a key was stored under it before. -/
structure KeepsObjects (s s' : State) : Prop where
  next : s.nextKey ≤ s'.nextKey
  objects : ∀ key < s.nextKey, ∀ body, s'.objects.lookup key = some body → s.objects.lookup key = some body

theorem KeepsObjects.of_eq {s s' : State} (hnext : s'.nextKey = s.nextKey) (hobjects : s'.objects = s.objects) :
    KeepsObjects s s' :=
  ⟨Nat.le_of_eq hnext.symm, fun key _ body h => by rwa [hobjects] at h⟩

theorem keepsObjects_putStream (content : Bytes) (isClean : Bool) : KeepsObjects s (s.putStream content isClean) := by
  refine ⟨Nat.le_succ _, fun key hkey body h => ?_⟩
  have hbeq : (key == s.nextKey) = false := beq_eq_false_iff_ne.mpr (Nat.ne_of_lt hkey)
  change List.lookup key ((s.nextKey, content) :: s.objects) = some body at h
  rwa [List.lookup_cons, hbeq] at h

theorem keepsObjects_deleteObject (oldKey : Uuid) : KeepsObjects s (s.deleteObject oldKey) := by
  refine ⟨Nat.le_refl _, fun key _ body h => ?_⟩
  by_cases hkey : key = oldKey
  · have hnone : (s.objects.filter (·.1 ≠ oldKey)).lookup key = none := by
      rw [List.lookup_eq_none_iff]
      intro object hobject
      have hne : object.1 ≠ oldKey := by simpa using (List.mem_filter.mp hobject).2
      rw [hkey]
      exact bne_iff_ne.mpr hne.symm
    exact absurd (hnone.symm.trans h) (Option.some_ne_none body).symm
  · rwa [← lookup_filter_ne hkey]

theorem keepsObjects_advance (r : Running) : KeepsObjects s (r.advance cfg s).1 := by
  cases r with
  | uploading copy content isClean =>
    cases hsniff : hashAndSniff cfg content with
    | none =>
      rw [advance_uploading_none hsniff]
      exact .of_eq rfl rfl
    | some found =>
      obtain ⟨checksum, size, mimeType⟩ := found
      rw [advance_uploading_some hsniff]
      exact keepsObjects_putStream content isClean
  | stored copy new mimeType isClean =>
    cases hreplace : s.replace cfg copy new mimeType isClean with
    | none =>
      rw [advance_stored_none hreplace]
      exact .of_eq rfl rfl
    | some s' =>
      rw [advance_stored_some hreplace]
      unfold State.replace at hreplace
      split at hreplace
      · cases hreplace
      · obtain rfl := Option.some.inj hreplace
        exact .of_eq rfl rfl
  | replaced oldKey => exact keepsObjects_deleteObject oldKey
  | patching copy data => exact .of_eq rfl rfl
  | deleting => exact .of_eq rfl rfl
  | restoring => exact .of_eq rfl rfl

theorem keepsObjects_step (a : Action) : KeepsObjects x.state (step cfg x a).state := by
  cases a with
  | receive i request =>
    cases hi : x.running i with
    | some r =>
      rw [step_receive_some hi]
      exact .of_eq rfl rfl
    | none =>
      rw [step_receive_none hi]
      exact .of_eq rfl rfl
  | advance i =>
    cases hi : x.running i with
    | none =>
      rw [step_advance_none hi]
      exact .of_eq rfl rfl
    | some r =>
      rw [step_advance_some hi]
      exact keepsObjects_advance r
  | raise i => exact .of_eq rfl rfl

end Keys

/-- A bucket of empty files, with the SHA-256 of no bytes. -/
def emptyFiles (versioningEnabled : Bool) : Config where
  versioningEnabled
  maxUploadSizeBytes := 100
  sha256 _ := "e3b0c44298fc1c149afbf4c8996fb92427ae41e4649b934ca495991b7852b855".toList

def emptyFile : State where
  file := ⟨none, "a.txt", "text/plain", ⟨0, 0, (emptyFiles true).sha256 []⟩, .active⟩
  versions := []
  objects := [(0, [])]
  nextKey := 1
  uploads := [⟨0, 0, (emptyFiles true).sha256 []⟩]
  unclean := []

/-- Two uploads start from the same row, of which one is committed; the PATCH comes after it. -/
theorem integrity_of_patchesCurrent_emptyFile :
    Integrity (emptyFiles true) (run (step (emptyFiles true)) ⟨emptyFile, fun _ => none⟩
      [.receive 0 (.uploadNewVersion [] true), .receive 1 (.uploadNewVersion [] true), .advance 0, .advance 1,
        .advance 0, .receive 2 (.patch ⟨some "b.txt", none⟩), .advance 1, .advance 2]).state :=
  integrity_of_patchesCurrent (emptyFiles true) none "a.txt" [] true emptyFile rfl _ (by decide)

/-- A PATCH that has read the row before an upload brings back the pointer to the object that the upload
has deleted. -/
theorem not_integrity_of_stale_patch :
    ¬ Integrity (emptyFiles false) (run (step (emptyFiles false)) ⟨emptyFile, fun _ => none⟩
      [.receive 0 (.patch ⟨some "b.txt", none⟩), .receive 1 (.uploadNewVersion [] true), .advance 1,
        .advance 1, .advance 1, .advance 0]).state := by
  intro h
  obtain ⟨content, hlookup, -⟩ := h.stored
  cases hlookup

end Storage
