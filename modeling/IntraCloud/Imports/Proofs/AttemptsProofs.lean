import IntraCloud.Imports.Attempts
import Mathlib.Data.List.Range

/-!
# What an attempt leaves behind

Up to some row everything is committed or rejected; up to an earlier one that is saved in the job row, and
up to one before that the errors are stored. What lies between these rows is due to checkpoints that failed.
-/

namespace Imports

open Python Python.Csv

namespace Pass

variable {c : Pass}

/-! ## Stretches of rows -/

theorem numbers_succ {lo hi : Nat} (h : lo ≤ hi) : numbers lo (hi + 1) = numbers lo hi ++ [hi + 1] := by
  have hlen : hi + 1 - lo = hi - lo + 1 := by omega
  have hlast : lo + 1 + 1 * (hi - lo) = hi + 1 := by omega
  rw [numbers, hlen, List.range'_concat, hlast, numbers]

theorem numbers_append {lo mid hi : Nat} (h : lo ≤ mid) (h' : mid ≤ hi) :
    numbers lo mid ++ numbers mid hi = numbers lo hi := by
  have hstart : mid + 1 = lo + 1 + (mid - lo) := by omega
  have hlen : hi - lo = mid - lo + (hi - mid) := by omega
  rw [numbers, numbers, numbers, hlen, hstart, List.range'_append_1]

theorem mem_numbers {lo hi n : Nat} : n ∈ numbers lo hi ↔ lo < n ∧ n ≤ hi := by
  rw [numbers, List.mem_range'_1]
  omega

theorem numbers_self (n : Nat) : numbers n n = [] := by
  rw [numbers, Nat.sub_self]
  rfl

theorem committedIn_append {lo mid hi : Nat} (h : lo ≤ mid) (h' : mid ≤ hi) :
    c.committedIn lo mid ++ c.committedIn mid hi = c.committedIn lo hi := by
  rw [committedIn, committedIn, ← List.filterMap_append, numbers_append h h', committedIn]

theorem errorsIn_append {lo mid hi : Nat} (h : lo ≤ mid) (h' : mid ≤ hi) :
    c.errorsIn lo mid ++ c.errorsIn mid hi = c.errorsIn lo hi := by
  rw [errorsIn, errorsIn, ← List.filterMap_append, numbers_append h h', errorsIn]

theorem committedIn_succ {lo hi : Nat} (h : lo ≤ hi) :
    c.committedIn lo (hi + 1) = c.committedIn lo hi ++ (c.commit? (hi + 1)).toList := by
  rw [committedIn, numbers_succ h, List.filterMap_append, committedIn]
  cases hcommit : c.commit? (hi + 1) <;> simp [hcommit]

theorem errorsIn_succ {lo hi : Nat} (h : lo ≤ hi) :
    c.errorsIn lo (hi + 1) = c.errorsIn lo hi ++ (c.error? (hi + 1)).toList := by
  rw [errorsIn, numbers_succ h, List.filterMap_append, errorsIn]
  cases herror : c.error? (hi + 1) <;> simp [herror]

theorem errorsIn_self (n : Nat) : c.errorsIn n n = [] := by
  rw [errorsIn, numbers_self]
  rfl

theorem committedIn_self (n : Nat) : c.committedIn n n = [] := by
  rw [committedIn, numbers_self]
  rfl

theorem length_errorsIn_le (lo hi : Nat) : (c.errorsIn lo hi).length ≤ hi - lo := by
  have hle := List.length_filterMap_le c.error? (numbers lo hi)
  rw [numbers, List.length_range'] at hle
  exact hle

theorem error?_number {n : Nat} {e : ImportJobError} (h : c.error? n = some e) : e.rowNumber = n := by
  obtain ⟨row, -, hfate⟩ := Option.bind_eq_some_iff.mp h
  split at hfate
  · rw [← Option.some.inj hfate]
  · cases hfate

theorem commit?_number {n : Nat} {entry : Nat × List Param} (h : c.commit? n = some entry) :
    entry.1 = n := by
  obtain ⟨row, -, hfate⟩ := Option.bind_eq_some_iff.mp h
  split at hfate
  · rw [← Option.some.inj hfate]
  · cases hfate

/-! ## Chunks -/

theorem resumed_le_boundary (n : Nat) : c.resumed ≤ c.boundary n := Nat.le_max_left ..

theorem boundary_le {n : Nat} (h : c.resumed ≤ n) : c.boundary n ≤ n := by
  unfold boundary
  have hchunk : chunkRows * (n / chunkRows) ≤ n := Nat.mul_div_le n chunkRows
  omega

theorem boundary_resumed : c.boundary c.resumed = c.resumed := by
  have hle := c.boundary_le (Nat.le_refl _)
  have hge := c.resumed_le_boundary c.resumed
  omega

/-- Between two boundaries the checkpoint that follows is the same. -/
theorem boundary_succ {n : Nat} (h : (n + 1) % chunkRows ≠ 0) : c.boundary (n + 1) = c.boundary n := by
  have hdiv : (n + 1) / chunkRows = n / chunkRows := by
    unfold chunkRows at h ⊢
    omega
  rw [boundary, hdiv, boundary]

theorem boundary_chunk {n : Nat} (hle : c.resumed ≤ n) (h : n % chunkRows = 0) : c.boundary n = n := by
  have hmul : chunkRows * (n / chunkRows) = n := Nat.mul_div_cancel' (Nat.dvd_of_mod_eq_zero h)
  rw [boundary, hmul]
  omega

/-- The rows after a boundary are of the chunk that comes next. -/
theorem chunk_eq {m n : Nat} (hlo : c.boundary n < m) (hhi : m ≤ n + 1) (hlast : m = n + 1 → c.resumed ≤ n) :
    (m - 1) / chunkRows = n / chunkRows := by
  unfold boundary at hlo
  unfold chunkRows at *
  omega

theorem storeNumber_succ {q : Nat} (h : c.resumed / chunkRows ≤ q) :
    c.storeNumber (q + 1) = c.storeNumber q + if c.erroneous q = true then 1 else 0 := by
  have hlen : q + 1 - c.resumed / chunkRows = q - c.resumed / chunkRows + 1 := by omega
  have hlast : c.resumed / chunkRows + 1 * (q - c.resumed / chunkRows) = q := by omega
  rw [storeNumber, hlen, List.range'_concat, hlast, List.filter_append, List.length_append, storeNumber]
  cases herroneous : c.erroneous q <;> simp [herroneous]

/-- The errors of a chunk are those since its boundary. -/
theorem erroneous_chunk {n : Nat} (h : (n + 1) % chunkRows = 0) :
    c.erroneous (n / chunkRows) = !(c.errorsIn (c.boundary n) (n + 1)).isEmpty := by
  have hend : chunkRows * (n / chunkRows) + chunkRows = n + 1 := by
    unfold chunkRows at h ⊢
    omega
  rw [erroneous, hend, boundary]

end Pass

/-! ## States of an attempt -/

/-- The databases where the attempt has dealt with the rows up to `n`, the job row says so of those up to
`b`, and the errors are stored of those up to `e`. -/
structure Left (c : Pass) (s : State) (e b n : Nat) (db : State) : Prop where
  order : c.resumed ≤ e ∧ e ≤ b ∧ b ≤ n
  committed : db.committed = s.committed ++ c.committedIn c.resumed n
  rejected : db.rejected = s.rejected ++ (c.errorsIn c.resumed n).map (·.rowNumber)
  errors : db.errors = s.errors ++ c.errorsIn c.resumed e
  job : db.job = { s.job with
    importedRows := s.job.importedRows + (c.committedIn c.resumed b).length
    rejectedRows := s.job.rejectedRows + (c.errorsIn c.resumed b).length
    lastProcessedRow := b }

/-- The local variables with them. -/
structure At (c : Pass) (s : State) (e b n : Nat) (p : Progress) : Prop
    extends Left c s e b n p.db where
  lastCompletedRow : p.lastCompletedRow = n
  pendingErrors : p.pendingErrors = c.errorsIn e n
  importedCount : p.imported = s.job.importedRows + (c.committedIn c.resumed n).length
  rejectedCount : p.rejected = s.job.rejectedRows + (c.errorsIn c.resumed n).length

theorem At.start {c : Pass} {s : State} (h : c.resumed = s.job.lastProcessedRow) :
    At c s c.resumed c.resumed c.resumed (Progress.start s) := by
  have hcommitted := c.committedIn_self c.resumed
  have herrors := c.errorsIn_self c.resumed
  refine ⟨⟨⟨Nat.le_refl _, Nat.le_refl _, Nat.le_refl _⟩, ?_, ?_, ?_, ?_⟩, ?_, ?_, ?_, ?_⟩
  · rw [hcommitted, List.append_nil]
    rfl
  · rw [herrors, List.map_nil, List.append_nil]
    rfl
  · rw [herrors, List.append_nil]
    rfl
  · rw [hcommitted, herrors, h]
    rfl
  · exact h.symm
  · rw [herrors]
    rfl
  · rw [hcommitted]
    rfl
  · rw [herrors]
    rfl

section Row

variable {c : Pass} {s : State} {e b n : Nat} {p : Progress} {row : DictRow}

/-- The next row is committed. -/
theorem At.commit (hp : At c s e b n p) (hrow : c.row? (n + 1) = some row) {values : List Param}
    (hfate : fate c.attempt c.mapping (n + 1) row = .commits values) :
    At c s e b (n + 1) { p.commit (n + 1) values with lastCompletedRow := n + 1 } := by
  obtain ⟨hresumed, hstored, hsaved⟩ := hp.order
  have hle : c.resumed ≤ n := by omega
  have hcommit : c.commit? (n + 1) = some (n + 1, values) := by
    simp only [Pass.commit?, hrow, Option.bind_some, hfate]
  have herror : c.error? (n + 1) = none := by
    simp only [Pass.error?, hrow, Option.bind_some, hfate]
  have hcommitted : c.committedIn c.resumed (n + 1) = c.committedIn c.resumed n ++ [(n + 1, values)] := by
    rw [c.committedIn_succ hle, hcommit]
    rfl
  have herrors : ∀ lo ≤ n, c.errorsIn lo (n + 1) = c.errorsIn lo n := by
    intro lo hlo
    rw [c.errorsIn_succ hlo, herror]
    exact List.append_nil _
  refine ⟨⟨⟨hresumed, hstored, by omega⟩, ?_, ?_, hp.errors, hp.job⟩, rfl, ?_, ?_, ?_⟩
  · rw [hcommitted, ← List.append_assoc, ← hp.committed]
    rfl
  · rw [herrors _ hle]
    exact hp.rejected
  · rw [herrors _ (by omega)]
    exact hp.pendingErrors
  · rw [hcommitted, List.length_append, ← Nat.add_assoc, ← hp.importedCount]
    rfl
  · rw [herrors _ hle]
    exact hp.rejectedCount

/-- The next row is rejected. -/
theorem At.reject (hp : At c s e b n p) (hrow : c.row? (n + 1) = some row) {error : RowError}
    (hfate : fate c.attempt c.mapping (n + 1) row = .rejects error) (hroom : n - e < chunkRows) :
    At c s e b (n + 1) { p.reject (n + 1) row error with lastCompletedRow := n + 1 } := by
  obtain ⟨hresumed, hstored, hsaved⟩ := hp.order
  have hle : c.resumed ≤ n := by omega
  have hcommit : c.commit? (n + 1) = none := by
    simp only [Pass.commit?, hrow, Option.bind_some, hfate]
  have herror : c.error? (n + 1) = some ⟨n + 1, error, row⟩ := by
    simp only [Pass.error?, hrow, Option.bind_some, hfate]
  have hcommitted : c.committedIn c.resumed (n + 1) = c.committedIn c.resumed n := by
    rw [c.committedIn_succ hle, hcommit]
    exact List.append_nil _
  have herrors : ∀ lo ≤ n, c.errorsIn lo (n + 1) = c.errorsIn lo n ++ [⟨n + 1, error, row⟩] := by
    intro lo hlo
    rw [c.errorsIn_succ hlo, herror]
    rfl
  have hlen : p.pendingErrors.length < maxStoredErrors := by
    have hpending := c.length_errorsIn_le e n
    rw [hp.pendingErrors]
    unfold chunkRows at hroom
    unfold maxStoredErrors
    omega
  refine ⟨⟨⟨hresumed, hstored, by omega⟩, ?_, ?_, hp.errors, hp.job⟩, rfl, ?_, ?_, ?_⟩
  · rw [hcommitted]
    exact hp.committed
  · rw [herrors _ hle, List.map_append, ← List.append_assoc, ← hp.rejected]
    rfl
  · rw [herrors _ (by omega), ← hp.pendingErrors]
    exact if_pos hlen
  · rw [hcommitted]
    exact hp.importedCount
  · rw [herrors _ hle, List.length_append, ← Nat.add_assoc, ← hp.rejectedCount]
    rfl

end Row

/-! ## One row -/

/-- What becomes of a row is what its insert does. -/
theorem insertRow_cases (a : Attempt) (mapping : List ColumnMapping) (n : Nat) (row : DictRow) (p : Progress) :
    (∃ values, fate a mapping n row = .commits values ∧
      insertRow a mapping n row p = .ok (p.commit n values)) ∨
    (∃ error, fate a mapping n row = .rejects error ∧
      insertRow a mapping n row p = .ok (p.reject n row error)) ∨
    ∃ failure, fate a mapping n row = .breaks failure ∧ insertRow a mapping n row p = .error failure := by
  unfold fate insertRow
  cases convertRow row mapping with
  | error e => exact .inr (.inl ⟨e, rfl, rfl⟩)
  | ok values =>
    cases a.insert n with
    | committed => exact .inl ⟨values, rfl, rfl⟩
    | refused message => exact .inr (.inl ⟨_, rfl, rfl⟩)
    | disconnected message => exact .inr (.inr ⟨_, rfl, rfl⟩)

/-! ## Checkpoints -/

section Checkpoint

variable {c : Pass} {s : State} {e b n : Nat} {p : Progress}

/-- The job row with the counts of a checkpoint. -/
theorem At.saved (hp : At c s e b n p) : At c s e n n p.saved := by
  obtain ⟨hresumed, hstored, hsaved⟩ := hp.order
  refine ⟨⟨⟨hresumed, by omega, Nat.le_refl _⟩, hp.committed, hp.rejected, hp.errors, ?_⟩,
    hp.lastCompletedRow, hp.pendingErrors, hp.importedCount, hp.rejectedCount⟩
  rw [← hp.importedCount, ← hp.rejectedCount, ← hp.lastCompletedRow]
  simp only [Progress.saved, hp.job]

/-- A checkpoint whose save fails. -/
theorem checkpoint_unsaved {a : Attempt} (h : a.saves p.saves = false) :
    checkpoint a p = ({ p with saves := p.saves + 1 }, some .controlPlane) := by
  unfold checkpoint
  rw [h]
  rfl

/-- A checkpoint that is saved and has no errors to store. -/
theorem checkpoint_empty {a : Attempt} (h : a.saves p.saves = true) (hempty : p.pendingErrors = []) :
    checkpoint a p = (p.saved, none) := by
  have hsaved : p.saved.pendingErrors = [] := hempty
  unfold checkpoint
  rw [h]
  simp only [Bool.not_true, Bool.false_eq_true, if_false, hsaved, if_true]

/-- A checkpoint that is saved, and whose errors are not. -/
theorem checkpoint_unstored {a : Attempt} (h : a.saves p.saves = true) (hne : p.pendingErrors ≠ [])
    (hstore : a.storesErrors p.stores = false) :
    checkpoint a p = ({ p.saved with stores := p.stores + 1 }, some .controlPlane) := by
  have hsaved : p.saved.pendingErrors ≠ [] := hne
  have hstore' : a.storesErrors p.saved.stores = false := hstore
  unfold checkpoint
  rw [h]
  simp only [Bool.not_true, Bool.false_eq_true, if_false, if_neg hsaved, hstore', Bool.not_false, if_true]
  rfl

/-- A checkpoint that is saved with its errors. -/
theorem checkpoint_stored {a : Attempt} (h : a.saves p.saves = true) (hne : p.pendingErrors ≠ [])
    (hstore : a.storesErrors p.stores = true) :
    checkpoint a p = ({ p.saved with
      stores := p.stores + 1
      db := { p.saved.db with errors := p.db.errors ++ p.pendingErrors } }, none) := by
  have hsaved : p.saved.pendingErrors ≠ [] := hne
  have hstore' : a.storesErrors p.saved.stores = true := hstore
  unfold checkpoint
  rw [h]
  simp only [Bool.not_true, Bool.false_eq_true, if_false, if_neg hsaved, hstore']
  rfl

/-- With the errors stored, and no longer pending. -/
theorem At.stored (hp : At c s e n n p) {saves stores : Nat} {db : State}
    (hdb : db = { p.db with errors := p.db.errors ++ p.pendingErrors }) {p' : Progress}
    (hp' : p' = { p with saves, stores, db, pendingErrors := [] }) : At c s n n n p' := by
  obtain ⟨hresumed, hstored, -⟩ := hp.order
  subst hp' hdb
  refine ⟨⟨⟨by omega, Nat.le_refl _, Nat.le_refl _⟩, hp.committed, hp.rejected, ?_, hp.job⟩,
    hp.lastCompletedRow, ?_, hp.importedCount, hp.rejectedCount⟩
  · have herrors := hp.errors
    rw [← c.errorsIn_append hresumed hstored, ← List.append_assoc, ← herrors, ← hp.pendingErrors]
  · rw [c.errorsIn_self]

end Checkpoint

/-! ## The loop -/

/-- Between two rows, with `n` rows dealt with and every checkpoint so far gone through. -/
structure Standing (c : Pass) (s : State) (n : Nat) (p : Progress) : Prop
    extends At c s (c.boundary n) (c.boundary n) n p where
  saves : p.saves = n / chunkRows - c.resumed / chunkRows
  stores : p.stores = c.storeNumber (n / chunkRows)
  passed : ∀ m ≤ n, c.resumed < m → c.Passes m

/-- Where the loop ends: after the last row, at a row that breaks the attempt off, or at a checkpoint of
which the save or the `bulk_create` fails. -/
inductive Ended (c : Pass) (s : State) : Progress → Option Failure → Prop where
  | through {p : Progress} (h : Standing c s c.last p) : Ended c s p none
  | broken {p : Progress} {n : Nat} {f : Failure} (h : Standing c s n p)
    (hbreak : c.break? (n + 1) = some f) (hlen : n + 1 ≤ c.rows.length) :
    Ended c s { p with rowNumber := n + 1 } (some f)
  | unsaved {p₀ p : Progress} {n : Nat} (h₀ : Standing c s n p₀)
    (h : At c s (c.boundary n) (c.boundary n) (n + 1) p) (hchunk : (n + 1) % chunkRows = 0) (hfills : c.Fills (n + 1))
    (hfail : c.attempt.saves (c.checkpointNumber (n + 1)) = false)
    (hsaves : p.saves = c.checkpointNumber (n + 1) + 1)
    (hstores : p.stores = c.storeNumber (n / chunkRows)) : Ended c s p (some .controlPlane)
  | unstored {p₀ p : Progress} {n : Nat} (h₀ : Standing c s n p₀)
    (h : At c s (c.boundary n) (n + 1) (n + 1) p) (hchunk : (n + 1) % chunkRows = 0)
    (hsome : c.erroneous (n / chunkRows) = true) (hfills : c.Fills (n + 1))
    (hsaved : c.attempt.saves (c.checkpointNumber (n + 1)) = true)
    (hfail : c.attempt.storesErrors (c.storeNumber (n / chunkRows)) = false)
    (hsaves : p.saves = c.checkpointNumber (n + 1) + 1)
    (hstores : p.stores = c.storeNumber (n / chunkRows) + 1) : Ended c s p (some .controlPlane)

section Loop

variable {c : Pass} {s : State} {n : Nat} {p : Progress}

theorem Standing.start (h : c.resumed = s.job.lastProcessedRow) :
    Standing c s c.resumed (Progress.start s) := by
  have hboundary := c.boundary_resumed
  refine ⟨by rw [hboundary]; exact At.start h, ?_, ?_, fun m hm hlt => absurd hlt (by omega)⟩
  · rw [Nat.sub_self]
    rfl
  · rw [Pass.storeNumber, Nat.sub_self]
    rfl

/-- A row inside a chunk. -/
theorem Standing.next (h : Standing c s n p) {p' : Progress}
    (hp' : At c s (c.boundary n) (c.boundary n) (n + 1) p') (hsaves : p'.saves = p.saves)
    (hstores : p'.stores = p.stores) (hchunk : (n + 1) % chunkRows ≠ 0)
    (hbreak : c.break? (n + 1) = none) : Standing c s (n + 1) p' := by
  have hdiv : (n + 1) / chunkRows = n / chunkRows := by
    unfold chunkRows at hchunk ⊢
    omega
  refine ⟨by rw [c.boundary_succ hchunk]; exact hp', ?_, ?_, fun m hm hlt => ?_⟩
  · rw [hsaves, h.saves, hdiv]
  · rw [hstores, h.stores, hdiv]
  · by_cases hlast : m = n + 1
    · rw [hlast]
      exact ⟨hbreak, fun hzero => absurd hzero hchunk⟩
    · exact h.passed m (by omega) hlt

/-- The last row of a chunk, whose checkpoint goes through. -/
theorem Standing.checked (h : Standing c s n p) {p' : Progress}
    (hp' : At c s (n + 1) (n + 1) (n + 1) p') (hsaves : p'.saves = p.saves + 1)
    (hstores : p'.stores = p.stores + if c.erroneous (n / chunkRows) = true then 1 else 0)
    (hchunk : (n + 1) % chunkRows = 0) (hbreak : c.break? (n + 1) = none) (hchecked : c.Checked (n + 1)) :
    Standing c s (n + 1) p' := by
  obtain ⟨hresumed, -, hsaved⟩ := h.order
  have hle : c.resumed ≤ n := by omega
  have hdiv : (n + 1) / chunkRows = n / chunkRows + 1 := by
    unfold chunkRows at hchunk ⊢
    omega
  have hfirst : c.resumed / chunkRows ≤ n / chunkRows := Nat.div_le_div_right hle
  refine ⟨by rw [c.boundary_chunk (by omega) hchunk]; exact hp', ?_, ?_, fun m hm hlt => ?_⟩
  · rw [hsaves, h.saves, hdiv]
    omega
  · rw [hstores, h.stores, hdiv, c.storeNumber_succ hfirst]
  · by_cases hlast : m = n + 1
    · rw [hlast]
      exact ⟨hbreak, fun _ => hchecked⟩
    · exact h.passed m (by omega) hlt

theorem Standing.fills (h : Standing c s n p) (hlen : n + 1 ≤ c.rows.length)
    (hchunk : (n + 1) % chunkRows = 0) (hbreak : c.break? (n + 1) = none) : c.Fills (n + 1) := by
  have hend : chunkRows * ((n + 1 - 1) / chunkRows) + chunkRows = n + 1 := by
    unfold chunkRows at hchunk ⊢
    omega
  unfold Pass.Fills
  rw [hend]
  exact ⟨⟨hlen, fun m hm hlt => h.passed m (by omega) hlt⟩, hbreak⟩

/-- The checkpoint after the last row of a chunk. -/
theorem Standing.checkpoint (h : Standing c s n p) {p' : Progress}
    (hp' : At c s (c.boundary n) (c.boundary n) (n + 1) p') (hsaves : p'.saves = p.saves)
    (hstores : p'.stores = p.stores) (hlen : n + 1 ≤ c.rows.length)
    (hchunk : (n + 1) % chunkRows = 0) (hbreak : c.break? (n + 1) = none) :
    (∃ q, checkpoint c.attempt p' = (q, none) ∧ Standing c s (n + 1) { q with pendingErrors := [] }) ∨
      ∃ q f, checkpoint c.attempt p' = (q, some f) ∧ Ended c s q (some f) := by
  have hfills := h.fills hlen hchunk hbreak
  have hnumber : p'.saves = c.checkpointNumber (n + 1) := by
    rw [hsaves, h.saves, Pass.checkpointNumber, Nat.add_sub_cancel]
  have hstore : p'.stores = c.storeNumber (n / chunkRows) := hstores.trans h.stores
  have herroneous := c.erroneous_chunk hchunk
  rw [← hp'.pendingErrors] at herroneous
  by_cases hsaved : c.attempt.saves p'.saves = true
  · by_cases hempty : p'.pendingErrors = []
    · -- nothing to store
      left
      refine ⟨p'.saved, checkpoint_empty hsaved hempty, ?_⟩
      have hnone : c.erroneous (n / chunkRows) = false := by
        rw [herroneous, hempty]
        rfl
      refine h.checked (hp'.saved.stored ?_ rfl) (congrArg (· + 1) hsaves) ?_ hchunk hbreak ⟨?_, ?_⟩
      · have hpending : p'.saved.pendingErrors = [] := hempty
        rw [hpending, List.append_nil]
      · rw [hnone]
        exact hstores
      · rw [← hnumber]
        exact hsaved
      · rw [Nat.add_sub_cancel, hnone]
        intro hcontra
        cases hcontra
    · have hsome : c.erroneous (n / chunkRows) = true := by
        rw [herroneous]
        simpa using hempty
      by_cases hstored : c.attempt.storesErrors p'.stores = true
      · left
        refine ⟨_, checkpoint_stored hsaved hempty hstored, ?_⟩
        refine h.checked (hp'.saved.stored rfl rfl) (congrArg (· + 1) hsaves) ?_ hchunk hbreak ⟨?_, ?_⟩
        · rw [hsome]
          exact congrArg (· + 1) hstores
        · rw [← hnumber]
          exact hsaved
        · intro _
          rw [Nat.add_sub_cancel, ← hstore]
          exact hstored
      · right
        rw [Bool.not_eq_true] at hstored
        refine ⟨_, _, checkpoint_unstored hsaved hempty hstored, .unstored h ?_ hchunk hsome hfills ?_ ?_ ?_ ?_⟩
        · exact ⟨hp'.saved.toLeft, hp'.lastCompletedRow, hp'.pendingErrors, hp'.importedCount,
            hp'.rejectedCount⟩
        · rw [← hnumber]
          exact hsaved
        · rw [← hstore]
          exact hstored
        · exact congrArg (· + 1) hnumber
        · exact congrArg (· + 1) hstore
  · right
    rw [Bool.not_eq_true] at hsaved
    refine ⟨_, _, checkpoint_unsaved hsaved, .unsaved h ?_ hchunk hfills ?_ ?_ hstore⟩
    · exact ⟨hp'.toLeft, hp'.lastCompletedRow, hp'.pendingErrors, hp'.importedCount, hp'.rejectedCount⟩
    · rw [← hnumber]
      exact hsaved
    · exact congrArg (· + 1) hnumber

/-- One row that is not passed over. -/
theorem Standing.importRow (h : Standing c s n p) {row : DictRow} (hrow : c.rows[n]? = some row) :
    (∃ q, importRow c.attempt c.mapping (n + 1) row p = (q, none) ∧ Standing c s (n + 1) q) ∨
      ∃ q f, importRow c.attempt c.mapping (n + 1) row p = (q, some f) ∧ Ended c s q (some f) := by
  obtain ⟨hresumed, -, hsaved⟩ := h.order
  have hlen : n + 1 ≤ c.rows.length := (List.getElem?_eq_some_iff.mp hrow).1
  have hskip : ¬ n + 1 ≤ p.db.job.lastProcessedRow := by
    rw [h.job]
    show ¬ n + 1 ≤ c.boundary n
    omega
  have hrow? : c.row? (n + 1) = some row := by
    rw [Pass.row?, if_pos (by omega), Nat.add_sub_cancel]
    exact hrow
  have hroom : n - c.boundary n < chunkRows := by
    have hchunk : n % chunkRows < chunkRows := Nat.mod_lt _ (by decide)
    have hdiv := Nat.div_add_mod n chunkRows
    unfold Pass.boundary
    omega
  have hat : At c s (c.boundary n) (c.boundary n) n { p with rowNumber := n + 1 } :=
    ⟨h.toLeft, h.lastCompletedRow, h.pendingErrors, h.importedCount, h.rejectedCount⟩
  -- a row that goes through, up to its checkpoint
  have hthrough : ∀ p' : Progress,
      insertRow c.attempt c.mapping (n + 1) row { p with rowNumber := n + 1 } = .ok p' →
      At c s (c.boundary n) (c.boundary n) (n + 1) { p' with lastCompletedRow := n + 1 } →
      p'.saves = p.saves → p'.stores = p.stores → c.break? (n + 1) = none →
      (∃ q, Imports.importRow c.attempt c.mapping (n + 1) row p = (q, none) ∧ Standing c s (n + 1) q) ∨
        ∃ q f, Imports.importRow c.attempt c.mapping (n + 1) row p = (q, some f) ∧
          Ended c s q (some f) := by
    intro p' hinsert hp' hsaves hstores hbreak
    unfold Imports.importRow
    simp only [if_neg hskip, hinsert]
    by_cases hchunk : (n + 1) % chunkRows = 0
    · rw [if_pos hchunk]
      rcases h.checkpoint hp' hsaves hstores hlen hchunk hbreak with ⟨q, hq, hstanding⟩ | ⟨q, f, hq, hended⟩
      · left
        rw [hq]
        exact ⟨_, rfl, hstanding⟩
      · right
        rw [hq]
        exact ⟨_, _, rfl, hended⟩
    · left
      rw [if_neg hchunk]
      exact ⟨_, rfl, h.next hp' hsaves hstores hchunk hbreak⟩
  rcases insertRow_cases c.attempt c.mapping (n + 1) row { p with rowNumber := n + 1 } with
    ⟨values, hfate, hinsert⟩ | ⟨error, hfate, hinsert⟩ | ⟨failure, hfate, hinsert⟩
  · have hbreak : c.break? (n + 1) = none := by
      simp only [Pass.break?, hrow?, Option.bind_some, hfate]
    exact hthrough _ hinsert (hat.commit hrow? hfate) rfl rfl hbreak
  · have hbreak : c.break? (n + 1) = none := by
      simp only [Pass.break?, hrow?, Option.bind_some, hfate]
    exact hthrough _ hinsert (hat.reject hrow? hfate hroom) rfl rfl hbreak
  · have hbreak : c.break? (n + 1) = some failure := by
      simp only [Pass.break?, hrow?, Option.bind_some, hfate]
    right
    refine ⟨{ p with rowNumber := n + 1 }, failure, ?_, .broken h hbreak hlen⟩
    unfold Imports.importRow
    simp only [if_neg hskip, hinsert]

/-- The loop over the rows after the first `i`. -/
theorem importRows_ended {i : Nat} {p : Progress} (h : Standing c s (max i c.resumed) p)
    (hlen : i ≤ c.rows.length) :
    ∃ q f, importRows c.attempt c.mapping (i + 1) (c.rows.drop i) p = (q, f) ∧ Ended c s q f := by
  induction hrest : c.rows.drop i generalizing i p with
  | nil =>
    have hall : c.rows.length ≤ i := List.drop_eq_nil_iff.mp hrest
    have hi : i = c.rows.length := by omega
    rw [hi] at h
    exact ⟨p, none, rfl, .through h⟩
  | cons row rest ih =>
    have hlt : i < c.rows.length := by
      by_contra hge
      rw [List.drop_eq_nil_iff.mpr (by omega)] at hrest
      cases hrest
    have hrow : c.rows[i]? = some row := by
      have hhead := congrArg (fun rows => rows[0]?) hrest
      rw [List.getElem?_drop] at hhead
      exact hhead
    have hrest' : c.rows.drop (i + 1) = rest := by
      rw [← List.tail_drop, hrest]
      rfl
    by_cases hskip : i < c.resumed
    · -- the row is passed over
      have hstay : max i c.resumed = max (i + 1) c.resumed := by omega
      have hjob : i + 1 ≤ p.db.job.lastProcessedRow := by
        have hlow := c.resumed_le_boundary (max i c.resumed)
        rw [h.job]
        show i + 1 ≤ c.boundary (max i c.resumed)
        omega
      have hnext : Standing c s (max (i + 1) c.resumed) { p with rowNumber := i + 1 } := by
        rw [← hstay]
        exact ⟨⟨h.toLeft, h.lastCompletedRow, h.pendingErrors, h.importedCount, h.rejectedCount⟩,
          h.saves, h.stores, h.passed⟩
      obtain ⟨q, f, hq, hended⟩ := ih hnext hlt hrest'
      refine ⟨q, f, ?_, hended⟩
      unfold importRows importRow
      rw [if_pos hjob]
      exact hq
    · have hi : max i c.resumed = i := by omega
      rw [hi] at h
      unfold importRows
      rcases h.importRow hrow with ⟨q, hq, hstanding⟩ | ⟨q, f, hq, hended⟩
      · have hnext : Standing c s (max (i + 1) c.resumed) q := by
          rw [show max (i + 1) c.resumed = i + 1 by omega]
          exact hstanding
        obtain ⟨q', f, hq', hended⟩ := ih hnext hlt hrest'
        refine ⟨q', f, ?_, hended⟩
        rw [hq]
        exact hq'
      · refine ⟨q, some f, ?_, hended⟩
        rw [hq]

end Loop

/-! ## The last checkpoint -/

/-- What a checkpoint leaves: nothing new, everything, or everything but the errors. -/
theorem At.finish {c : Pass} {s : State} {e b n : Nat} {p : Progress} (hp : At c s e b n p) :
    (c.attempt.saves p.saves = false ∧ Left c s e b n (checkpoint c.attempt p).1.db) ∨
      (c.attempt.saves p.saves = true ∧ Left c s n n n (checkpoint c.attempt p).1.db) ∨
      (c.attempt.saves p.saves = true ∧ c.attempt.storesErrors p.stores = false ∧
        Left c s e n n (checkpoint c.attempt p).1.db) := by
  by_cases hsaved : c.attempt.saves p.saves = true
  · right
    by_cases hempty : p.pendingErrors = []
    · left
      rw [checkpoint_empty hsaved hempty]
      have hall : At c s n n n { p.saved with pendingErrors := [] } := by
        refine hp.saved.stored ?_ rfl
        have hpending : p.saved.pendingErrors = [] := hempty
        rw [hpending, List.append_nil]
      exact ⟨hsaved, hall.toLeft⟩
    · by_cases hstored : c.attempt.storesErrors p.stores = true
      · left
        rw [checkpoint_stored hsaved hempty hstored]
        have hall : At c s n n n { p.saved with
            stores := p.stores + 1
            db := { p.saved.db with errors := p.db.errors ++ p.pendingErrors }
            pendingErrors := [] } := hp.saved.stored rfl rfl
        exact ⟨hsaved, hall.toLeft⟩
      · right
        rw [Bool.not_eq_true] at hstored
        rw [checkpoint_unstored hsaved hempty hstored]
        exact ⟨hsaved, hstored, hp.saved.toLeft⟩
  · left
    rw [Bool.not_eq_true] at hsaved
    rw [checkpoint_unsaved hsaved]
    exact ⟨hsaved, hp.toLeft⟩

/-- With what is not saved, or saved and not stored: there the checkpoints that follow have failed. -/
structure Dealt (c : Pass) (s : State) (e b n : Nat) (db : State) : Prop
    extends Left c s e b n db where
  reached : ∀ m, c.resumed < m → m ≤ n → c.Reaches m
  saved : ∀ m, c.resumed < m → m ≤ b → ¬ c.Unsaved m
  unsaved : ∀ m, b < m → m ≤ n → c.Unsaved m
  unstored : ∀ m, e < m → m ≤ b → c.Unstored m

section Dealt

variable {c : Pass} {s : State} {n : Nat} {p : Progress}

/-- The checkpoint after a row of an earlier chunk has gone through. -/
theorem Standing.saved_boundary (h : Standing c s n p) {m : Nat} (hlo : c.resumed < m)
    (hhi : m ≤ c.boundary n) : ¬ c.Unsaved m := by
  have hle : c.boundary n ≤ n := h.order.2.2
  have hend : chunkRows * ((m - 1) / chunkRows) + chunkRows ≤ c.boundary n := by
    unfold Pass.boundary at hhi ⊢
    unfold chunkRows at *
    omega
  have hpasses := (h.passed (chunkRows * ((m - 1) / chunkRows) + chunkRows) (by omega)
    (by unfold chunkRows at *; omega)).2 (by unfold chunkRows; omega)
  have hsame : c.checkpointNumber (chunkRows * ((m - 1) / chunkRows) + chunkRows) =
      c.checkpointNumber m := by
    unfold Pass.checkpointNumber chunkRows
    omega
  intro hunsaved
  have hsaved := hpasses.1
  rw [hsame, hunsaved.1] at hsaved
  cases hsaved

theorem Standing.reached (h : Standing c s n p) (hlen : n ≤ c.last) {m : Nat}
    (hlo : c.resumed < m) (hhi : m ≤ n) : c.Reaches m := by
  unfold Pass.last at hlen
  exact ⟨by omega, fun k hk hlt => h.passed k (by omega) hlt⟩

/-- The rows since the last boundary, where the attempt ends inside a chunk. -/
theorem Standing.dealt (h : Standing c s n p) (hlen : n ≤ c.last)
    (hends : ∀ m, c.boundary n < m → m ≤ n → ¬ c.Fills m) {p' : Progress}
    (hp' : At c s (c.boundary n) (c.boundary n) n p') (hsaves : p'.saves = p.saves)
    (hstores : p'.stores = p.stores) :
    ∃ e b, Dealt c s e b n (Imports.checkpoint c.attempt p').1.db := by
  have hreached := fun m hlo hhi => h.reached hlen (m := m) hlo hhi
  have hearlier := fun m hlo hhi => h.saved_boundary (m := m) hlo hhi
  have hnumber : ∀ m, c.boundary n < m → m ≤ n →
      (m - 1) / chunkRows = n / chunkRows ∧ c.checkpointNumber m = p'.saves := by
    intro m hlo hhi
    have hchunk := c.chunk_eq hlo (by omega) (fun hlast => absurd hlast (by omega))
    refine ⟨hchunk, ?_⟩
    rw [Pass.checkpointNumber, hchunk, hsaves, h.saves]
  -- the last checkpoint saves the rows since the boundary
  have hlater : c.attempt.saves p'.saves = true → ∀ m, c.resumed < m → m ≤ n → ¬ c.Unsaved m := by
    intro hsaved m hlo hhi
    by_cases hboundary : m ≤ c.boundary n
    · exact hearlier m hlo hboundary
    · intro hunsaved
      have hfail := hunsaved.1
      rw [(hnumber m (by omega) hhi).2, hsaved] at hfail
      cases hfail
  rcases hp'.finish with ⟨hfail, hleft⟩ | ⟨hsaved, hleft⟩ | ⟨hsaved, hfail, hleft⟩
  · refine ⟨_, _, hleft, hreached, hearlier, fun m hlo hhi => ?_, fun m hlo hhi => absurd hlo (by omega)⟩
    obtain ⟨-, hm⟩ := hnumber m hlo hhi
    refine ⟨?_, fun hfills => absurd hfills (hends m hlo hhi)⟩
    rw [hm]
    exact hfail
  · exact ⟨_, _, hleft, hreached, hlater hsaved, fun m hlo hhi => absurd hlo (by omega),
      fun m hlo hhi => absurd hlo (by omega)⟩
  · refine ⟨_, _, hleft, hreached, hlater hsaved, fun m hlo hhi => absurd hlo (by omega), fun m hlo hhi => ?_⟩
    obtain ⟨hchunk, hm⟩ := hnumber m hlo hhi
    refine .inl ⟨?_, ?_, fun hfills => absurd hfills (hends m hlo hhi)⟩
    · rw [hm]
      exact hsaved
    · rw [hchunk, ← h.stores, ← hstores]
      exact hfail

/-- The rows of a chunk have the checkpoint of its last row. -/
theorem Pass.checkpointNumber_chunk {m : Nat} (hresumed : c.resumed ≤ n) (hlo : c.boundary n < m)
    (hhi : m ≤ n + 1) :
    (m - 1) / chunkRows = n / chunkRows ∧ c.checkpointNumber m = c.checkpointNumber (n + 1) := by
  have hchunk := c.chunk_eq hlo hhi (fun _ => hresumed)
  refine ⟨hchunk, ?_⟩
  rw [Pass.checkpointNumber, Pass.checkpointNumber, hchunk, Nat.add_sub_cancel]

/-- A chunk that is got through is, for each of its rows. -/
theorem Pass.Fills.of_chunk {m : Nat} (hfills : c.Fills (n + 1)) (hresumed : c.resumed ≤ n)
    (hlo : c.boundary n < m) (hhi : m ≤ n + 1) : c.Fills m := by
  obtain ⟨hchunk, -⟩ := c.checkpointNumber_chunk hresumed hlo hhi
  have hsame : (n + 1 - 1) / chunkRows = n / chunkRows := by rw [Nat.add_sub_cancel]
  unfold Pass.Fills at hfills ⊢
  rw [hsame] at hfills
  rw [hchunk]
  exact hfills

/-- A chunk that is got through is reached to its end. -/
theorem Pass.Fills.reached (hfills : c.Fills (n + 1)) {m : Nat} (hhi : m ≤ n + 1) : c.Reaches m := by
  obtain ⟨⟨hlen, hpassed⟩, -⟩ := hfills
  rw [Nat.add_sub_cancel] at hlen hpassed
  have hend : n + 1 ≤ chunkRows * (n / chunkRows) + chunkRows := by
    unfold chunkRows
    omega
  exact ⟨by omega, fun k hk hlt => hpassed k (by omega) hlt⟩

/-- Whatever ended the loop, after the last checkpoint. -/
theorem Ended.dealt {f : Option Failure} (h : Ended c s p f) :
    ∃ e b n, Dealt c s e b n (checkpoint c.attempt p).1.db := by
  cases h with
  | through h =>
    have hends : ∀ m, c.boundary c.last < m → m ≤ c.last → ¬ c.Fills m := by
      intro m hlo hhi hfills
      have hresumed := c.resumed_le_boundary c.last
      have hchunk := c.chunk_eq hlo (by omega) (fun hlast => absurd hlast (by omega))
      have hlen := hfills.1.1
      rw [hchunk] at hlen
      have hend : c.last < chunkRows * (c.last / chunkRows) + chunkRows := by
        unfold chunkRows
        omega
      have hrows : c.rows.length ≤ c.last := Nat.le_max_left ..
      omega
    obtain ⟨e, b, hdealt⟩ := h.dealt (Nat.le_refl _) hends h.toAt rfl rfl
    exact ⟨e, b, _, hdealt⟩
  | broken h hbreak hlen =>
    rename_i p n f
    have hends : ∀ m, c.boundary n < m → m ≤ n → ¬ c.Fills m := by
      intro m hlo hhi hfills
      have hresumed := c.resumed_le_boundary n
      have hchunk := c.chunk_eq hlo (by omega) (fun hlast => absurd hlast (by omega))
      unfold Pass.Fills at hfills
      rw [hchunk] at hfills
      obtain ⟨⟨-, hpassed⟩, hnone⟩ := hfills
      have hend : n + 1 ≤ chunkRows * (n / chunkRows) + chunkRows := by
        unfold chunkRows
        omega
      by_cases hlast : n + 1 = chunkRows * (n / chunkRows) + chunkRows
      · rw [← hlast, hbreak] at hnone
        cases hnone
      · have hpasses := (hpassed (n + 1) (by omega) (by omega)).1
        rw [hbreak] at hpasses
        cases hpasses
    have hat : At c s (c.boundary n) (c.boundary n) n { p with rowNumber := n + 1 } :=
      ⟨h.toLeft, h.lastCompletedRow, h.pendingErrors, h.importedCount, h.rejectedCount⟩
    have hrows : c.rows.length ≤ c.last := Nat.le_max_left ..
    obtain ⟨e, b, hdealt⟩ := h.dealt (by omega) hends hat rfl rfl
    exact ⟨e, b, n, hdealt⟩
  | unsaved h₀ h hchunk hfills hfail hsaves hstores =>
    rename_i p₀ n
    have hresumed : c.resumed ≤ n := (c.resumed_le_boundary n).trans h₀.order.2.2
    have hreached := fun m (_ : c.resumed < m) hhi => hfills.reached (m := m) hhi
    have hearlier := fun m hlo hhi => h₀.saved_boundary (m := m) hlo hhi
    have hrow := fun m hlo hhi => c.checkpointNumber_chunk (m := m) hresumed hlo hhi
    have hfilled := fun m hlo hhi => hfills.of_chunk (m := m) hresumed hlo hhi
    -- the second checkpoint saves the rows since the boundary
    have hlater : c.attempt.saves p.saves = true → ∀ m, c.resumed < m → m ≤ n + 1 → ¬ c.Unsaved m := by
      intro hsaved m hlo hhi
      by_cases hboundary : m ≤ c.boundary n
      · exact hearlier m hlo hboundary
      · intro hunsaved
        have hagain := hunsaved.2 (hfilled m (by omega) hhi)
        rw [(hrow m (by omega) hhi).2, ← hsaves, hsaved] at hagain
        cases hagain
    rcases h.finish with ⟨hfail', hleft⟩ | ⟨hsaved', hleft⟩ | ⟨hsaved', hfail', hleft⟩
    · refine ⟨_, _, _, hleft, hreached, hearlier, fun m hlo hhi => ?_, fun m hlo hhi => absurd hlo (by omega)⟩
      obtain ⟨-, hm⟩ := hrow m hlo hhi
      refine ⟨?_, fun _ => ?_⟩
      · rw [hm]
        exact hfail
      · rw [hm, ← hsaves]
        exact hfail'
    · exact ⟨_, _, _, hleft, hreached, hlater hsaved', fun m hlo hhi => absurd hlo (by omega),
        fun m hlo hhi => absurd hlo (by omega)⟩
    · refine ⟨_, _, _, hleft, hreached, hlater hsaved', fun m hlo hhi => absurd hlo (by omega),
        fun m hlo hhi => ?_⟩
      obtain ⟨hq, hm⟩ := hrow m hlo hhi
      refine .inr ⟨?_, hfilled m hlo hhi, ?_, ?_⟩
      · rw [hm]
        exact hfail
      · rw [hm, ← hsaves]
        exact hsaved'
      · rw [hq, ← hstores]
        exact hfail'
  | unstored h₀ h hchunk hsome hfills hsaved hfail hsaves hstores =>
    rename_i p₀ n
    have hresumed : c.resumed ≤ n := (c.resumed_le_boundary n).trans h₀.order.2.2
    have hreached := fun m (_ : c.resumed < m) hhi => hfills.reached (m := m) hhi
    have hrow := fun m hlo hhi => c.checkpointNumber_chunk (m := m) hresumed hlo hhi
    have hall : ∀ m, c.resumed < m → m ≤ n + 1 → ¬ c.Unsaved m := by
      intro m hlo hhi
      by_cases hboundary : m ≤ c.boundary n
      · exact h₀.saved_boundary hlo hboundary
      · intro hunsaved
        have hagain := hunsaved.1
        rw [(hrow m (by omega) hhi).2, hsaved] at hagain
        cases hagain
    have hboth : ∀ m, c.boundary n < m → m ≤ n + 1 →
        (c.attempt.saves (c.checkpointNumber (n + 1) + 1) = false ∨
          c.attempt.storesErrors (c.storeNumber (n / chunkRows) + 1) = false) → c.Unstored m := by
      intro m hlo hhi hlast
      obtain ⟨hq, hm⟩ := hrow m hlo hhi
      refine .inl ⟨?_, ?_, fun _ => ?_⟩
      · rw [hm]
        exact hsaved
      · rw [hq]
        exact hfail
      · rw [hm, hq]
        exact hlast
    rcases h.finish with ⟨hfail', hleft⟩ | ⟨-, hleft⟩ | ⟨-, hfail', hleft⟩
    · refine ⟨_, _, _, hleft, hreached, hall, fun m hlo hhi => absurd hlo (by omega), fun m hlo hhi => ?_⟩
      refine hboth m hlo hhi (.inl ?_)
      rw [← hsaves]
      exact hfail'
    · exact ⟨_, _, _, hleft, hreached, hall, fun m hlo hhi => absurd hlo (by omega),
        fun m hlo hhi => absurd hlo (by omega)⟩
    · refine ⟨_, _, _, hleft, hreached, hall, fun m hlo hhi => absurd hlo (by omega), fun m hlo hhi => ?_⟩
      refine hboth m hlo hhi (.inr ?_)
      rw [← hstores]
      exact hfail'

end Dealt

/-! ## The whole attempt -/

section Attempt

variable {c : Pass} {s : State} {p : Progress}

/-- When a checkpoint goes through. -/
theorem checkpoint_eq_none {a : Attempt} :
    (checkpoint a p).2 = none ↔
      a.saves p.saves = true ∧ (p.pendingErrors ≠ [] → a.storesErrors p.stores = true) := by
  by_cases hsaved : a.saves p.saves = true
  · by_cases hempty : p.pendingErrors = []
    · rw [checkpoint_empty hsaved hempty]
      exact ⟨fun _ => ⟨hsaved, fun hne => absurd hempty hne⟩, fun _ => rfl⟩
    · by_cases hstored : a.storesErrors p.stores = true
      · rw [checkpoint_stored hsaved hempty hstored]
        exact ⟨fun _ => ⟨hsaved, fun _ => hstored⟩, fun _ => rfl⟩
      · rw [checkpoint_unstored hsaved hempty (Bool.eq_false_iff.mpr hstored)]
        exact ⟨fun hnone => (nomatch hnone), fun h => absurd (h.2 hempty) hstored⟩
  · rw [checkpoint_unsaved (Bool.eq_false_iff.mpr hsaved)]
    exact ⟨fun hnone => (nomatch hnone), fun h => absurd h.1 hsaved⟩

/-- The rows and the last checkpoint raise nothing just where the attempt gets through them. -/
theorem Ended.finishes {f : Option Failure} (h : Ended c s p f) :
    f = none ∧ (checkpoint c.attempt p).2 = none ↔ c.Finishes := by
  cases h with
  | through h =>
    have hpassed : ∀ m ≤ c.rows.length, c.resumed < m → c.Passes m := fun m hm hlt =>
      h.passed m (hm.trans (Nat.le_max_left ..)) hlt
    rw [checkpoint_eq_none, h.saves, h.stores, h.pendingErrors]
    exact ⟨fun hnone => ⟨hpassed, hnone.2⟩, fun hfinishes => ⟨rfl, hfinishes.2⟩⟩
  | broken h hbreak hlen =>
    refine ⟨fun hnone => (nomatch hnone.1), fun hfinishes => ?_⟩
    have hresumed := h.order
    have hpasses := (hfinishes.1 _ hlen (by omega)).1
    rw [hbreak] at hpasses
    cases hpasses
  | unsaved h₀ h hchunk hfills hfail hsaves hstores =>
    refine ⟨fun hnone => (nomatch hnone.1), fun hfinishes => ?_⟩
    have hresumed := h₀.order
    have hlen := (hfills.reached (Nat.le_refl _)).1
    have hchecked := ((hfinishes.1 _ hlen (by omega)).2 hchunk).1
    rw [hfail] at hchecked
    cases hchecked
  | unstored h₀ h hchunk hsome hfills hsaved hfail hsaves hstores =>
    refine ⟨fun hnone => (nomatch hnone.1), fun hfinishes => ?_⟩
    have hresumed := h₀.order
    have hlen := (hfills.reached (Nat.le_refl _)).1
    have hchecked := ((hfinishes.1 _ hlen (by omega)).2 hchunk).2
    rw [Nat.add_sub_cancel, hfail] at hchecked
    cases hchecked hsome

/-- The loop of an attempt, and the exception of its `try` block. -/
theorem importStream_ended (codec : Codec) (body : List UInt8) (d : Dialect)
    (hmapping : c.mapping = s.job.columnMapping) (hresumed : c.resumed = s.job.lastProcessedRow)
    (hrefused : c.attempt.cursorRefused ≠ none → c.rows = [])
    (hrows : c.attempt.cursorRefused = none →
      c.rows = (streamedRows codec s.job.encoding d body c.attempt.streamCut).1) :
    ∃ p f f', importStream codec body d c.attempt s = (p, f') ∧ Ended c s p f ∧
      (f' = none ↔ f = none ∧ c.attempt.cursorRefused = none ∧
        (streamedRows codec s.job.encoding d body c.attempt.streamCut).2 = none) := by
  have hstart : Standing c s (max 0 c.resumed) (Progress.start s) := by
    rw [Nat.zero_max]
    exact Standing.start hresumed
  obtain ⟨p, f, himport, hended⟩ := importRows_ended hstart (Nat.zero_le _)
  rw [List.drop_zero, Nat.zero_add] at himport
  unfold importStream
  cases hcursor : c.attempt.cursorRefused with
  | some message =>
    rw [hrefused (by rw [hcursor]; exact Option.some_ne_none _)] at himport
    cases himport
    exact ⟨_, _, _, rfl, hended, fun h => (nomatch h), fun h => (nomatch h.2.1)⟩
  | none =>
    rw [hrows hcursor, hmapping] at himport
    simp only [himport]
    cases f with
    | some e => exact ⟨p, some e, some e, rfl, hended, fun h => (nomatch h), fun h => (nomatch h.1)⟩
    | none => exact ⟨p, none, _, rfl, hended, fun h => ⟨rfl, trivial, h⟩, fun h => h.2.2⟩

/-- Nothing dealt with. -/
theorem Dealt.refl (h : c.resumed = s.job.lastProcessedRow) :
    Dealt c s c.resumed c.resumed c.resumed s := by
  refine ⟨(At.start h).toLeft, ?_, ?_, ?_, ?_⟩ <;>
  · intro m hlo hhi
    omega

/-- What an attempt leaves, whether it raises or not, and when it raises nothing. -/
theorem runImport_dealt (codec : Codec) (body : List UInt8) (a : Attempt) (s : State) :
    ∃ e b n db, Dealt (pass codec body s a) (begun a s) e b n db ∧
      ((runImport codec body a s).2 = none ↔ Completes codec body s a) ∧
      (((runImport codec body a s).1 = db ∧ (runImport codec body a s).2 ≠ none) ∨
        ∃ total, (runImport codec body a s).1 = { db with job := { db.job with
            totalRows := some total, status := .completed, completedAt := some a.completedAt } } ∧
          (runImport codec body a s).2 = none) := by
  unfold Imports.runImport
  by_cases hstarts : a.starts = true
  · have hbegun : begun a s =
        { s with job := { s.job with status := .running, startedAt := some a.startedAt } } :=
      if_pos hstarts
    have hnothing : Dealt (pass codec body s a) (begun a s) _ _ _ (begun a s) :=
      Dealt.refl (by rw [hbegun]; rfl)
    rw [if_neg (by simp [hstarts]), ← hbegun]
    cases hrefused : a.streamRefused with
    | some message =>
      refine ⟨_, _, _, _, hnothing, ⟨fun h => (nomatch h), fun h => ?_⟩, .inl ⟨rfl, Option.some_ne_none _⟩⟩
      rw [h.2.1] at hrefused
      cases hrefused
    | none =>
      have hjob : (begun a s).job.delimiter = s.job.delimiter := by rw [hbegun]
      dsimp only
      rw [hjob]
      cases hdialect : Dialect.of? s.job.delimiter with
      | none =>
        refine ⟨_, _, _, _, hnothing, ⟨fun h => (nomatch h), fun h => ?_⟩,
          .inl ⟨rfl, Option.some_ne_none _⟩⟩
        have hstream := h.2.2.2.1
        rw [hdialect] at hstream
        cases hstream
      | some d =>
        have hrows : (pass codec body s a).rows = if a.cursorRefused.isNone then
            (streamedRows codec s.job.encoding d body a.streamCut).1 else [] := by
          show attemptRows codec body s a = _
          unfold attemptRows
          rw [hstarts, hrefused, hdialect]
          rfl
        obtain ⟨p, f, f', himport, hended, hnone⟩ :=
          importStream_ended (c := pass codec body s a) (s := begun a s) codec body d (by rw [hbegun]; rfl)
            (by rw [hbegun]; rfl) (fun hcursor => by
              have hsome : a.cursorRefused ≠ none := hcursor
              rw [hrows, if_neg (by simpa using hsome)])
            (fun hcursor => by
              have hnone : a.cursorRefused = none := hcursor
              rw [hrows, hnone, hbegun]
              rfl)
        have himport' : importStream codec body d a (begun a s) = (p, f') := himport
        have hfinishes : f = none ∧ (checkpoint a p).2 = none ↔ (pass codec body s a).Finishes :=
          hended.finishes
        obtain ⟨e, b, n, hdealt⟩ := hended.dealt
        have hdealt' : Dealt (pass codec body s a) (begun a s) e b n (checkpoint a p).1.db := hdealt
        have hencoding : (begun a s).job.encoding = s.job.encoding := by rw [hbegun]
        rw [hencoding] at hnone
        simp only [himport']
        have hcompletes : Completes codec body s a ↔
            f' = none ∧ (checkpoint a p).2 = none ∧ a.completes = true := by
          unfold Completes
          rw [hdialect, ← hfinishes, hnone]
          simp only [Option.map_some, Option.some.injEq]
          constructor
          · rintro ⟨-, -, hcursor, hstream, ⟨hloop, hlast⟩, hcompletes⟩
            exact ⟨⟨hloop, hcursor, hstream⟩, hlast, hcompletes⟩
          · rintro ⟨⟨hloop, hcursor, hstream⟩, hlast, hcompletes⟩
            exact ⟨hstarts, hrefused, hcursor, hstream, ⟨hloop, hlast⟩, hcompletes⟩
        refine ⟨e, b, n, (checkpoint a p).1.db, hdealt', ?_⟩
        rw [hcompletes]
        cases hcheckpoint : checkpoint a p with
        | mk q failure =>
          cases f' with
          | some e =>
            cases failure with
            | some e' => simp [hcheckpoint]
            | none => simp [hcheckpoint]
          | none =>
            cases failure with
            | some e' => simp [hcheckpoint]
            | none =>
              by_cases hlast : a.completes = true
              · simp [hcheckpoint, hlast]
              · simp [hcheckpoint, hlast]
  · have hbegun : begun a s = s := if_neg hstarts
    rw [if_pos (by simp [hstarts]), hbegun]
    exact ⟨_, _, _, _, Dealt.refl rfl, ⟨fun h => (nomatch h), fun h => absurd h.1 hstarts⟩,
      .inl ⟨rfl, Option.some_ne_none _⟩⟩

end Attempt

end Imports
