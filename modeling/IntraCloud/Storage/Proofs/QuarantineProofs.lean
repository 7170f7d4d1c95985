import IntraCloud.Storage.Proofs.ConcurrentProofs
import IntraCloud.Storage.Concurrent

/-!
# Quarantine
-/

namespace Storage

open Python Transition

variable {cfg : Config} {s : State}

/-- Between two requests: every key in use is below the next one, and the file is not active with an
unclean object. -/
structure Safe (s : State) : Prop where
  key : s.file.pointer.objectKey < s.nextKey
  unclean : ∀ k ∈ s.unclean, k < s.nextKey
  active : s.file.status = .active → ¬ s.Tainted

/-! ## Requests that run to their end -/

theorem replace_some {copy : FileObject} {new : Pointer} {mimeType : String} {isClean : Bool} {t : State}
    (h : s.replace cfg copy new mimeType isClean = some t) :
    t.file.pointer = new ∧ t.file.status = uploadStatus isClean ∧ t.unclean = s.unclean ∧
      t.nextKey = s.nextKey := by
  unfold State.replace at h
  split at h
  · cases h
  · cases h
    exact ⟨rfl, rfl, rfl, rfl⟩

/-- How an upload ends: it is refused, it stores an object and commits nothing, or it leaves the file with
its own object. -/
inductive Uploaded (s : State) (content : Bytes) (isClean : Bool) : State → Prop where
  | refused : Uploaded s content isClean s
  | stored : Uploaded s content isClean (s.putStream content isClean)
  | committed {t : State} (hkey : t.file.pointer.objectKey = s.nextKey)
    (hstatus : t.file.status = uploadStatus isClean)
    (hunclean : t.unclean = (s.putStream content isClean).unclean) (hnext : t.nextKey = s.nextKey + 1) :
    Uploaded s content isClean t

/-- One request at a time takes its steps one after the other. -/
theorem update_update {x : Serving} (i : Nat) (s s' : State) (r r' : Option Running) :
    (x.update i s r).update i s' r' = x.update i s' r' := by
  unfold Serving.update
  congr 1
  funext j
  by_cases hj : j = i
  · rw [if_pos hj, if_pos hj]
  · rw [if_neg hj, if_neg hj]
    exact if_neg hj

theorem step_update_some {x : Serving} (i : Nat) (s : State) (r : Running) :
    step cfg (x.update i s (some r)) (.advance i) = x.update i (r.advance cfg s).1 (r.advance cfg s).2 := by
  have hrunning : (x.update i s (some r)).running i = some r := if_pos rfl
  rw [step_advance_some hrunning, update_update]
  rfl

theorem step_update_none {x : Serving} (i : Nat) (s : State) :
    step cfg (x.update i s none) (.advance i) = x.update i s none :=
  step_advance_none (if_pos rfl)

theorem complete_upload (content : Bytes) (isClean : Bool) :
    Uploaded s content isClean (complete cfg s (.uploadNewVersion content isClean)) := by
  have hreceived : step cfg ⟨s, fun _ => none⟩ (.receive 0 (.uploadNewVersion content isClean)) =
      Serving.update ⟨s, fun _ => none⟩ 0 s (some (.uploading s.file content isClean)) := rfl
  unfold complete
  simp only [run_cons, run_nil, hreceived]
  rw [step_update_some]
  cases hread : hashAndSniff cfg content with
  | none =>
    rw [advance_uploading_none hread, step_update_none, step_update_none]
    exact .refused
  | some read =>
    obtain ⟨checksum, size, mimeType⟩ := read
    rw [advance_uploading_some hread, step_update_some]
    cases hreplace : (s.putStream content isClean).replace cfg s.file ⟨s.nextKey, size, checksum⟩ mimeType
        isClean with
    | none =>
      rw [advance_stored_none hreplace, step_update_none]
      exact .stored
    | some t =>
      obtain ⟨hpointer, hstatus, hunclean, hnext⟩ := replace_some hreplace
      have hkey : t.file.pointer.objectKey = s.nextKey := by rw [hpointer]
      rw [advance_stored_some hreplace]
      by_cases hversioning : cfg.versioningEnabled = true
      · rw [if_pos hversioning, step_update_none]
        exact .committed hkey hstatus hunclean hnext
      · rw [if_neg hversioning, step_update_some]
        exact .committed hkey hstatus hunclean hnext

/-! ## One request -/

theorem Safe.putStream (h : Safe s) (content : Bytes) (isClean : Bool) : Safe (s.putStream content isClean) := by
  have hunclean : ∀ k ∈ (s.putStream content isClean).unclean, k ∈ s.unclean ∨ k = s.nextKey := by
    intro k hk
    unfold State.putStream at hk
    dsimp only at hk
    split at hk
    · exact .inl hk
    · rcases List.mem_cons.mp hk with rfl | hk
      · exact .inr rfl
      · exact .inl hk
  refine ⟨Nat.lt_succ_of_lt h.key, fun k hk => ?_, fun hactive htainted => ?_⟩
  · rcases hunclean k hk with hk | rfl
    · exact Nat.lt_succ_of_lt (h.unclean k hk)
    · exact Nat.lt_succ_self _
  · rcases hunclean _ htainted with hold | hnew
    · exact h.active hactive hold
    · exact Nat.ne_of_lt h.key hnew

/-- An upload is active only where its scan came back clean. -/
theorem Safe.upload (h : Safe s) {content : Bytes} {isClean : Bool} {t : State}
    (ht : Uploaded s content isClean t) : Safe t := by
  cases ht with
  | refused => exact h
  | stored => exact h.putStream content isClean
  | committed hkey hstatus hunclean hnext =>
    have hput := h.putStream content isClean
    refine ⟨by rw [hkey, hnext]; exact Nat.lt_succ_self _, ?_, fun hactive htainted => ?_⟩
    · rw [hunclean, hnext]
      exact hput.unclean
    · rw [hstatus] at hactive
      unfold State.Tainted at htainted
      rw [hkey, hunclean] at htainted
      cases isClean with
      | false => cases hactive
      | true => exact Nat.lt_irrefl _ (h.unclean _ htainted)

/-- The file before and after a request. -/
def SafeOption (s : Option State) : Prop := ∀ t ∈ s, Safe t

theorem safe_uploadFile {folder : Option Uuid} {displayFilename : String} {content : Bytes} {isClean : Bool}
    (h : uploadFile cfg folder displayFilename content isClean = some s) : Safe s := by
  unfold uploadFile at h
  split at h
  · cases h
  · cases h
    cases isClean with
    | true =>
      refine ⟨Nat.one_pos, ?_, fun _ htainted => ?_⟩
      · intro k hk
        cases hk
      · cases htainted
    | false =>
      refine ⟨Nat.one_pos, fun k hk => ?_, fun hactive => (nomatch hactive)⟩
      rw [List.mem_singleton.mp hk]
      exact Nat.one_pos

/-- A request keeps the file safe where afterwards it is not active with an unclean object. -/
theorem Safe.complete (h : Safe s) {request : Request}
    (hafter : (Storage.complete cfg s request).file.status = .active →
      ¬ (Storage.complete cfg s request).Tainted) : Safe (Storage.complete cfg s request) := by
  cases request with
  | uploadNewVersion content isClean => exact h.upload (complete_upload content isClean)
  | patch data => exact ⟨h.key, h.unclean, hafter⟩
  | delete => exact ⟨h.key, h.unclean, hafter⟩
  | restore => exact ⟨h.key, h.unclean, hafter⟩

theorem safe_serve {x : Option State} (h : SafeOption x) {call : Call} (hquarantined : Quarantined cfg x call) :
    SafeOption (serve cfg x call) := by
  intro t ht
  have hafter := hquarantined.2 t ht
  cases x with
  | none =>
    cases call with
    | upload folder displayFilename content isClean => exact safe_uploadFile ht
    | change _ | download | preview _ | importRows => cases ht
  | some s =>
    have hs := h s rfl
    cases call with
    | change request =>
      cases ht
      exact hs.complete hafter
    | upload _ _ _ _ | download | preview _ | importRows =>
      cases ht
      exact hs

/-- Where the file is safe, a request keeps the quarantine just where it spares an unclean file. -/
theorem quarantined_iff_spared {x : Option State} (h : SafeOption x) (call : Call) :
    Quarantined cfg x call ↔ Spared x call := by
  cases x with
  | none =>
    refine ⟨fun _ => ?_, fun _ => ⟨fun t ht => (nomatch ht), fun t ht => ?_⟩⟩
    · cases call <;> trivial
    · cases call with
      | upload folder displayFilename content isClean => exact (safe_uploadFile ht).active
      | change _ | download | preview _ | importRows => cases ht
  | some s =>
    have hs := h s rfl
    cases call with
    | upload _ _ _ _ =>
      refine ⟨fun _ => trivial, fun _ => ⟨fun t _ key hkey => (nomatch hkey), fun t ht => ?_⟩⟩
      cases ht
      exact hs.active
    | change request =>
      have hnothing : ∀ t ∈ some s, ∀ key ∈ handedOut (some s) (.change request), key ∉ t.unclean :=
        fun t _ key hkey => (nomatch hkey)
      cases request with
      | uploadNewVersion content isClean =>
        refine ⟨fun _ => trivial, fun _ => ⟨hnothing, fun t ht => ?_⟩⟩
        cases ht
        exact (hs.upload (complete_upload content isClean)).active
      | patch data =>
        refine ⟨fun _ => trivial, fun _ => ⟨hnothing, fun t ht => ?_⟩⟩
        cases ht
        exact hs.active
      | delete =>
        refine ⟨fun _ => trivial, fun _ => ⟨hnothing, fun t ht hactive => ?_⟩⟩
        cases ht
        cases hactive
      | restore =>
        refine ⟨fun hkept => hkept.2 (s.saveStatus .active) rfl rfl, fun hclean => ⟨hnothing, fun t ht _ => ?_⟩⟩
        cases ht
        exact hclean
    | download =>
      constructor
      · intro hkept hdeleted
        exact hkept.1 s rfl _ (if_neg (by rw [hdeleted]; decide))
      · refine fun hspared => ⟨fun t ht key hkey => ?_, fun t ht => ?_⟩
        · cases ht
          unfold handedOut at hkey
          dsimp only at hkey
          split at hkey
          · cases hkey
          · rename_i hstatus
            cases hkey
            cases hcase : s.file.status with
            | active => exact hs.active hcase
            | deleted => exact hspared hcase
            | quarantined => exact absurd hcase hstatus
        · cases ht
          exact hs.active
    | preview accepted =>
      constructor
      · intro hkept haccepted
        exact hkept.1 s rfl _ (if_pos haccepted)
      · refine fun hspared => ⟨fun t ht key hkey => ?_, fun t ht => ?_⟩
        · cases ht
          unfold handedOut at hkey
          dsimp only at hkey
          split at hkey
          · rename_i haccepted
            cases hkey
            exact hspared haccepted
          · cases hkey
        · cases ht
          exact hs.active
    | importRows =>
      refine ⟨fun hkept => hkept.1 s rfl _ rfl, fun hspared => ⟨fun t ht key hkey => ?_, fun t ht => ?_⟩⟩
      · cases ht
        cases hkey
        exact hspared
      · cases ht
        exact hs.active

/-- Whatever requests come one after the other, what has not come back clean stays in quarantine just
where no request fails to spare it. -/
theorem quarantined_iff (cfg : Config) (calls : List Call) :
    Always (serve cfg) (Quarantined cfg) none calls ↔ Always (serve cfg) Spared none calls :=
  always_iff_of_invariant (I := SafeOption) (fun _ call h => quarantined_iff_spared h call)
    (fun _ _ h hquarantined => safe_serve h hquarantined) (fun t ht => by cases ht) calls

/-- A quarantined file is deleted and restored, and then it is active and is downloaded. -/
theorem not_quarantined_of_restore :
    ¬ Always (serve (emptyFiles true)) (Quarantined (emptyFiles true)) none
      [.upload none "a.txt" [] false, .change .delete, .change .restore, .download] := by
  intro h
  exact h.2.2.1.2 _ rfl rfl (List.mem_singleton_self _)

end Storage
