import IntraCloud.Imports.Proofs.AttemptsProofs
import IntraCloud.Imports.Proofs.LedgerProofs

/-!
# Writes to the control plane that fail

Row numbers grow over an attempt. So a row is committed twice only where the position in the job row stays
behind what has been committed, and an error is lost only where the position runs ahead of the errors.
-/

namespace Imports

open Python Python.Csv Transition

/-! ## The first save -/

theorem committed_begun (a : Attempt) (s : State) : (begun a s).committed = s.committed := by
  unfold begun
  split <;> rfl

theorem rejected_begun (a : Attempt) (s : State) : (begun a s).rejected = s.rejected := by
  unfold begun
  split <;> rfl

theorem errors_begun (a : Attempt) (s : State) : (begun a s).errors = s.errors := by
  unfold begun
  split <;> rfl

theorem rejectedRows_begun (a : Attempt) (s : State) :
    (begun a s).job.rejectedRows = s.job.rejectedRows := by
  unfold begun
  split <;> rfl

/-- The first save takes a completed job back. -/
theorem status_begun {a : Attempt} {s : State} (h : (begun a s).job.status = .completed) :
    s.job.status = .completed := by
  unfold begun at h
  split at h
  · cases h
  · exact h

/-! ## The rows of a stretch -/

namespace Pass

variable {c : Pass}

theorem committedIn_sublist (lo hi : Nat) :
    List.Sublist ((c.committedIn lo hi).map Prod.fst) (numbers lo hi) := by
  unfold committedIn
  induction numbers lo hi with
  | nil => exact List.Sublist.slnil
  | cons n ns ih =>
    cases hcommit : c.commit? n with
    | none =>
      rw [List.filterMap_cons_none hcommit]
      exact ih.cons _
    | some entry =>
      have hnumber : entry.1 = n := c.commit?_number hcommit
      rw [List.filterMap_cons_some hcommit, List.map_cons, hnumber]
      exact ih.cons_cons _

theorem errorsIn_sublist (lo hi : Nat) :
    List.Sublist ((c.errorsIn lo hi).map (·.rowNumber)) (numbers lo hi) := by
  unfold errorsIn
  induction numbers lo hi with
  | nil => exact List.Sublist.slnil
  | cons n ns ih =>
    cases herror : c.error? n with
    | none =>
      rw [List.filterMap_cons_none herror]
      exact ih.cons _
    | some e =>
      have hnumber : e.rowNumber = n := c.error?_number herror
      rw [List.filterMap_cons_some herror, List.map_cons, hnumber]
      exact ih.cons_cons _

theorem nodup_numbers (lo hi : Nat) : (numbers lo hi).Nodup := List.nodup_range'

/-- Nothing is committed where no row is. -/
theorem committedIn_eq_nil {lo hi : Nat} (h : ∀ n, lo < n → n ≤ hi → c.commit? n = none) :
    c.committedIn lo hi = [] := by
  refine List.filterMap_eq_nil_iff.mpr fun n hn => ?_
  obtain ⟨hlo, hhi⟩ := mem_numbers.mp hn
  exact h n hlo hhi

theorem errorsIn_eq_nil {lo hi : Nat} (h : ∀ n, lo < n → n ≤ hi → c.error? n = none) :
    c.errorsIn lo hi = [] := by
  refine List.filterMap_eq_nil_iff.mpr fun n hn => ?_
  obtain ⟨hlo, hhi⟩ := mem_numbers.mp hn
  exact h n hlo hhi

end Pass

/-! ## Rows committed twice -/

/-- The committed rows lie up to the position in the job row, each once. -/
structure Forward (s : State) : Prop where
  nodup : s.committedRows.Nodup
  processed : ∀ n ∈ s.committedRows, n ≤ s.job.lastProcessedRow

theorem Forward.runImportTask {codec : Codec} {body : List UInt8} {s : State} (h : Forward s)
    {a : Attempt} (hsaves : SavesCommits codec body s a) : Forward (runImportTask codec body s a) := by
  obtain ⟨e, b, n, db, hdealt, -, hresult⟩ := runImport_dealt codec body a s
  have hafter : Forward db := by
    obtain ⟨hresumed, hstored, hsaved⟩ := hdealt.order
    have hnew : (pass codec body s a).committedIn b n = [] := by
      refine (pass codec body s a).committedIn_eq_nil fun m hlo hhi => ?_
      by_contra hcommit
      have hreaches := hdealt.reached m (by omega) hhi
      exact hsaves m hreaches.1 hcommit hreaches (hdealt.unsaved m hlo hhi)
    have hrows : db.committedRows = s.committedRows ++
        ((pass codec body s a).committedIn (pass codec body s a).resumed b).map Prod.fst := by
      unfold State.committedRows
      rw [hdealt.committed, committed_begun, ← (pass codec body s a).committedIn_append (by omega) hsaved, hnew,
        List.append_nil, List.map_append]
    have hnumbers : ∀ m ∈ ((pass codec body s a).committedIn (pass codec body s a).resumed b).map Prod.fst,
        s.job.lastProcessedRow < m ∧ m ≤ b := by
      intro m hm
      exact Pass.mem_numbers.mp (((pass codec body s a).committedIn_sublist _ _).subset hm)
    refine ⟨?_, ?_⟩
    · rw [hrows, List.nodup_append]
      refine ⟨h.nodup, ((pass codec body s a).committedIn_sublist _ _).nodup (Pass.nodup_numbers _ _), ?_⟩
      intro m hm k hk heq
      have hold := h.processed m hm
      have hlow := (hnumbers k hk).1
      omega
    · intro m hm
      have hposition : db.job.lastProcessedRow = b := by rw [hdealt.job]
      rw [hposition]
      rw [hrows, List.mem_append] at hm
      rcases hm with hm | hm
      · have hold := h.processed m hm
        have hpass : (pass codec body s a).resumed = s.job.lastProcessedRow := rfl
        omega
      · exact (hnumbers m hm).2
  rw [runImportTask_eq]
  rcases hresult with ⟨hdb, -⟩ | ⟨total, hdb, -⟩
  · rw [hdb]
    exact hafter
  · rw [hdb]
    exact ⟨hafter.nodup, hafter.processed⟩

/-- Whichever writes to the control plane fail, no row is committed twice so long as every attempt saves
the position of the rows it commits. -/
theorem committedOnce_of_savesCommits (codec : Codec) (body : List UInt8) (s₀ : State) (hfresh : Fresh s₀)
    (attempts : List Attempt)
    (hsaves : Always (runImportTask codec body) (SavesCommits codec body) s₀ attempts) :
    (run (runImportTask codec body) s₀ attempts).committedRows.Nodup := by
  have hstart : Forward s₀ := by
    refine ⟨?_, ?_⟩ <;> simp [State.committedRows, hfresh.committed]
  exact (run_invariant (fun s a h hsaves => h.runImportTask hsaves) hstart hsaves).nodup

/-- The connection breaks at the third row, and the checkpoint of the handler goes through. -/
theorem committedOnce_of_savesCommits_threeRows :
    (run (runImportTask latin1 threeRows) freshJob
      [attempt (fun n => if n = 3 then .disconnected "gone" else .committed) 0,
        attempt (fun _ => .committed) 1]).committedRows.Nodup :=
  committedOnce_of_savesCommits latin1 threeRows freshJob ⟨rfl, rfl, rfl, rfl, rfl, rfl, rfl⟩ _ (by decide)

/-- An attempt whose checkpoints or error rows meet a control plane that is away. -/
def unsavedAttempt (saves stores : Bool) : Attempt :=
  { attempt (fun _ => .committed) 0 with saves := fun _ => saves, storesErrors := fun _ => stores }

/-- The last checkpoint is not saved, and the retry commits every row again. -/
theorem not_committedOnce_of_unsaved :
    ¬ (run (runImportTask latin1 threeRows) freshJob
      [unsavedAttempt false true, attempt (fun _ => .committed) 1]).committedRows.Nodup := by
  decide

/-! ## The error log -/

/-- The errors of the rejected rows up to the position in the job row are stored, each once. -/
structure Logged (s : State) : Prop where
  length : s.errors.length = s.job.rejectedRows
  distinct : (s.errors.map (·.rowNumber)).Nodup
  processed : ∀ e ∈ s.errors, e.rowNumber ≤ s.job.lastProcessedRow
  rejected : ∀ e ∈ s.errors, e.rowNumber ∈ s.rejected
  limited : s.job.status = .completed → s.job.rejectedRows ≤ maxStoredErrors

theorem Logged.runImportTask {codec : Codec} {body : List UInt8} {s : State} (h : Logged s) {a : Attempt}
    (hstores : StoresErrors codec body s a) : Logged (runImportTask codec body s a) := by
  obtain ⟨hkept, hlimit⟩ := hstores
  obtain ⟨e, b, n, db, hdealt, hcompletes, hresult⟩ := runImport_dealt codec body a s
  generalize hc : pass codec body s a = c at *
  have hresumed : c.resumed = s.job.lastProcessedRow := by
    rw [← hc]
    rfl
  obtain ⟨hstored, hsaved, hdone⟩ := hdealt.order
  -- no error lies between what is stored and what is saved
  have hnone : c.errorsIn e b = [] := by
    refine c.errorsIn_eq_nil fun m hlo hhi => ?_
    by_contra herror
    have hreaches := hdealt.reached m (by omega) (by omega)
    exact hkept m hreaches.1 herror hreaches (hdealt.unstored m hlo hhi)
  have herrors : db.errors = s.errors ++ c.errorsIn c.resumed b := by
    rw [hdealt.errors, errors_begun, ← c.errorsIn_append hstored hsaved, hnone, List.append_nil]
  have hrejected : db.rejected = s.rejected ++ (c.errorsIn c.resumed n).map (·.rowNumber) := by
    rw [hdealt.rejected, rejected_begun]
  have hcount : db.job.rejectedRows = s.job.rejectedRows + (c.errorsIn c.resumed b).length := by
    rw [hdealt.job]
    exact congrArg (· + _) (rejectedRows_begun a s)
  have hposition : db.job.lastProcessedRow = b := by rw [hdealt.job]
  have hnumbers : ∀ error ∈ c.errorsIn c.resumed b, c.resumed < error.rowNumber ∧ error.rowNumber ≤ b := by
    intro error herror
    exact Pass.mem_numbers.mp ((c.errorsIn_sublist _ _).subset (List.mem_map_of_mem herror))
  have hlength : db.errors.length = db.job.rejectedRows := by
    rw [herrors, List.length_append, h.length, hcount]
  have hdistinct : (db.errors.map (·.rowNumber)).Nodup := by
    rw [herrors, List.map_append, List.nodup_append]
    refine ⟨h.distinct, (c.errorsIn_sublist _ _).nodup (Pass.nodup_numbers _ _), ?_⟩
    intro m hm k hk heq
    obtain ⟨old, hold, rfl⟩ := List.mem_map.mp hm
    obtain ⟨new, hnew, rfl⟩ := List.mem_map.mp hk
    have hlow := (hnumbers new hnew).1
    have hhigh := h.processed old hold
    omega
  have hprocessed : ∀ error ∈ db.errors, error.rowNumber ≤ db.job.lastProcessedRow := by
    intro error herror
    rw [hposition]
    rw [herrors, List.mem_append] at herror
    rcases herror with hold | hnew
    · have hhigh := h.processed error hold
      omega
    · exact (hnumbers error hnew).2
  have hrows : ∀ error ∈ db.errors, error.rowNumber ∈ db.rejected := by
    intro error herror
    rw [herrors, List.mem_append] at herror
    rw [hrejected, List.mem_append]
    rcases herror with hold | hnew
    · exact .inl (h.rejected error hold)
    · right
      rw [← c.errorsIn_append (hstored.trans hsaved) hdone, List.map_append]
      exact List.mem_append_left _ (List.mem_map_of_mem hnew)
  rw [runImportTask_eq]
  rcases hresult with ⟨hdb, -⟩ | ⟨total, hdb, hraised⟩
  · rw [hdb]
    refine ⟨hlength, hdistinct, hprocessed, hrows, fun hstatus => ?_⟩
    -- only a job that was completed already is so without the last save
    have hbegun : (begun a s).job.status = .completed := by
      rw [hdealt.job] at hstatus
      exact hstatus
    by_cases hstarts : a.starts = true
    · unfold begun at hbegun
      rw [if_pos hstarts] at hbegun
      cases hbegun
    · have hrows : c.rows = [] := by
        rw [← hc]
        show attemptRows codec body s a = []
        unfold attemptRows
        rw [Bool.eq_false_iff.mpr hstarts]
        rfl
      have hsame : c.errorsIn c.resumed b = [] := by
        refine c.errorsIn_eq_nil fun m hlo hhi => ?_
        have hreaches := (hdealt.reached m hlo (by omega)).1
        rw [hrows] at hreaches
        have hzero : m = 0 := Nat.le_zero.mp hreaches
        omega
      have hbefore := h.limited (status_begun hbegun)
      rw [hcount, hsame]
      exact hbefore
  · rw [hdb]
    refine ⟨hlength, hdistinct, hprocessed, hrows, fun _ => ?_⟩
    have hall := hlimit (hcompletes.mp hraised)
    have hmono : (c.errorsIn c.resumed b).length ≤ (c.errorsIn c.resumed c.last).length := by
      have hb : b ≤ c.last := by
        by_cases hany : c.resumed < b
        · exact (hdealt.reached b hany hdone).1.trans (Nat.le_max_left ..)
        · have hlast : c.resumed ≤ c.last := Nat.le_max_right ..
          omega
      rw [← c.errorsIn_append (hstored.trans hsaved) hb, List.length_append]
      exact Nat.le_add_right _ _
    show db.job.rejectedRows ≤ _
    omega

/-- Whichever writes to the control plane fail, a completed job has the errors of its rejected rows, so
long as every attempt stores the errors it saves as processed and the job has no more than the limit. -/
theorem errorLog_of_storesErrors (codec : Codec) (body : List UInt8) (s₀ : State) (hfresh : Fresh s₀)
    (hempty : s₀.errors = []) (attempts : List Attempt)
    (hstores : Always (runImportTask codec body) (StoresErrors codec body) s₀ attempts) :
    (run (runImportTask codec body) s₀ attempts).job.status = .completed →
      ErrorLog (run (runImportTask codec body) s₀ attempts) := by
  have hstart : Logged s₀ := by
    refine ⟨?_, ?_, ?_, ?_, ?_⟩ <;> simp [hempty, hfresh.rejectedRows]
  have hlogged := run_invariant (fun s a h hstores => h.runImportTask hstores) hstart hstores
  intro hstatus
  have hlimited := hlogged.limited hstatus
  refine ⟨?_, hlogged.distinct, hlogged.rejected⟩
  rw [hlogged.length, Nat.min_eq_left hlimited]

theorem errorLog_of_storesErrors_threeRows :
    ErrorLog (run (runImportTask latin1 threeRows) freshJob
      [attempt (fun n => if n = 3 then .disconnected "gone" else .committed) 0,
        attempt (fun _ => .committed) 1]) :=
  errorLog_of_storesErrors latin1 threeRows freshJob ⟨rfl, rfl, rfl, rfl, rfl, rfl, rfl⟩ rfl _ (by decide)
    (by decide)

/-- The errors are not stored after the position has been saved, and the retry completes without them. -/
theorem not_errorLog_of_unstored :
    let s := run (runImportTask latin1 threeRows) freshJob
      [unsavedAttempt true false, attempt (fun _ => .committed) 1]
    s.job.status = .completed ∧ ¬ ErrorLog s := by
  refine ⟨by decide, fun h => ?_⟩
  have hlength := h.length
  revert hlength
  decide

end Imports
