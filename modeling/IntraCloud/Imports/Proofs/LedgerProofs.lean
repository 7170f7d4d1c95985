import IntraCloud.Imports.SourceFile
import IntraCloud.Transition.Proofs.RunsProofs
import Mathlib.Data.List.Nodup

/-!
# Exactly once

A stream that breaks off yields a prefix of the rows of the whole file. So every attempt meets the rows
the earlier ones have met, the row number says which row it is, and the ledger of committed and
rejected numbers is always `1, …, lastProcessedRow`.
-/

namespace Imports

open Python Python.Csv Transition

/-! ## A broken stream yields a prefix -/

theorem decodedLines_prefix {decode : List UInt8 → Option (List Char)} (e : Option Failure)
    {xs ys : List (List UInt8)} (h : xs <+: ys) :
    (decodedLines decode e xs).1 <+: (decodedLines decode none ys).1 := by
  induction xs generalizing ys with
  | nil => exact List.nil_prefix
  | cons x xs ih =>
    cases ys with
    | nil => cases List.prefix_nil.1 h
    | cons y ys =>
      obtain ⟨rfl, htail⟩ := List.cons_prefix_cons.1 h
      unfold decodedLines
      cases decode x with
      | none => exact List.nil_prefix
      | some text => exact List.cons_prefix_cons.2 ⟨rfl, ih htail⟩

theorem readRecords_prefix {ε : Type} {d : Dialect} (e : ε) (e' : Option ε) {r : Reader}
    {xs ys : List (List Char)} (h : xs <+: ys) :
    (readRecords d (some e) r xs).1 <+: (readRecords d e' r ys).1 := by
  induction xs generalizing ys r with
  | nil => exact List.nil_prefix
  | cons x xs ih =>
    cases ys with
    | nil => cases List.prefix_nil.1 h
    | cons y ys =>
      obtain ⟨rfl, htail⟩ := List.cons_prefix_cons.1 h
      unfold readRecords
      cases r.feed d x with
      | error e => exact List.nil_prefix
      | ok r' =>
        dsimp only
        by_cases hstate : r'.state = .startRecord
        · rw [if_pos hstate, if_pos hstate]
          exact List.cons_prefix_cons.2 ⟨rfl, ih htail⟩
        · rw [if_neg hstate, if_neg hstate]
          exact ih htail

theorem dictRows_prefix {xs ys : List Record} (h : xs <+: ys) : dictRows xs <+: dictRows ys := by
  cases xs with
  | nil => exact List.nil_prefix
  | cons x xs =>
    cases ys with
    | nil => cases List.prefix_nil.1 h
    | cons y ys =>
      obtain ⟨rfl, htail⟩ := List.cons_prefix_cons.1 h
      have hkept : xs.filter (· ≠ []) <+: ys.filter (· ≠ []) := htail.filter _
      exact hkept.map _

/-- Lines that end with an exception end with one after decoding, too. -/
theorem decodedLines_raised (decode : List UInt8 → Option (List Char)) (e : Failure)
    (xs : List (List UInt8)) : ∃ e', (decodedLines decode (some e) xs).2 = some e' := by
  induction xs with
  | nil => exact ⟨e, rfl⟩
  | cons x xs ih =>
    unfold decodedLines
    cases decode x with
    | none => exact ⟨_, rfl⟩
    | some text => exact ih

theorem readRecords_raised {ε : Type} (d : Dialect) (e : ε) (r : Reader) (xs : List (List Char)) :
    ∃ e', (readRecords d (some e) r xs).2 = some e' := by
  induction xs generalizing r with
  | nil => exact ⟨_, rfl⟩
  | cons x xs ih =>
    unfold readRecords
    cases r.feed d x with
    | error e => exact ⟨_, rfl⟩
    | ok r' =>
      dsimp only
      by_cases hstate : r'.state = .startRecord
      · rw [if_pos hstate]
        exact ih Reader.fresh
      · rw [if_neg hstate]
        exact ih r'

/-- The rows of an attempt are a prefix of the rows of the file. -/
theorem streamedRows_prefix (codec : Codec) (encoding : String) (d : Dialect) (body : List UInt8)
    (cut : Option (Nat × String)) :
    (streamedRows codec encoding d body cut).1 <+: (streamedRows codec encoding d body none).1 := by
  cases cut with
  | none => exact List.prefix_refl _
  | some c =>
    have hlines : (splitlines body).take c.1 <+: splitlines body := List.take_prefix _ _
    have htexts :
        (decodedLines (codec encoding) (some (.storage c.2)) ((splitlines body).take c.1)).1 <+:
          (decodedLines (codec encoding) none (splitlines body)).1 := decodedLines_prefix _ hlines
    obtain ⟨e, he⟩ := decodedLines_raised (codec encoding) (.storage c.2)
      ((splitlines body).take c.1)
    refine dictRows_prefix ?_
    show (readRecords d _ Reader.fresh _).1 <+: (readRecords d _ Reader.fresh _).1
    rw [Option.map_some, he]
    exact readRecords_prefix e _ htexts

/-- An attempt that meets no exception has met the whole file. -/
theorem streamedRows_whole {codec : Codec} {encoding : String} {d : Dialect} {body : List UInt8}
    {cut : Option (Nat × String)} (h : (streamedRows codec encoding d body cut).2 = none) :
    cut = none := by
  cases cut with
  | none => rfl
  | some c =>
    obtain ⟨e, he⟩ := decodedLines_raised (codec encoding) (.storage c.2)
      ((splitlines body).take c.1)
    have hraised := readRecords_raised d e Reader.fresh
      (decodedLines (codec encoding) (some (.storage c.2)) ((splitlines body).take c.1)).1
    obtain ⟨e', he'⟩ := hraised
    simp only [streamedRows, Option.map_some, he, he'] at h
    cases h

/-! ## The ledger -/

/-- The committed and the rejected numbers are together `1, …, k`, and each was a row of the file. -/
structure Ledger (rows : List DictRow) (k : Nat) (s : State) : Prop where
  fromFile : ∀ entry ∈ s.committed, FromFile rows s.job.columnMapping entry
  committedOnce : s.committedRows.Nodup
  rejectedOnce : s.rejected.Nodup
  notBoth : ∀ n ∈ s.committedRows, n ∉ s.rejected
  numbers : ∀ n, 1 ≤ n ∧ n ≤ k ↔ n ∈ s.committedRows ∨ n ∈ s.rejected
  count : s.committed.length + s.rejected.length = k
  within : k ≤ rows.length
  checkpoints : ∀ c ∈ s.checkpoints, c.importedRows + c.rejectedRows = c.lastProcessedRow

/-- What holds of an attempt between two rows. -/
structure Counted (rows : List DictRow) (p : Progress) : Prop where
  ledger : Ledger rows p.lastCompletedRow p.db
  imported : p.imported = p.db.committed.length
  rejected : p.rejected = p.db.rejected.length
  saved : p.db.job.lastProcessedRow ≤ p.lastCompletedRow
  status : p.db.job.status ≠ .completed

/-- The ledger reads nothing else of the state. -/
theorem Ledger.congr {rows : List DictRow} {k : Nat} {s s' : State} (h : Ledger rows k s)
    (hmapping : s'.job.columnMapping = s.job.columnMapping) (hcommitted : s'.committed = s.committed)
    (hrejected : s'.rejected = s.rejected)
    (hcheckpoints : ∀ c ∈ s'.checkpoints, c.importedRows + c.rejectedRows = c.lastProcessedRow) :
    Ledger rows k s' := by
  have hrows : s'.committedRows = s.committedRows := congrArg (List.map Prod.fst) hcommitted
  refine ⟨?_, ?_, ?_, ?_, ?_, ?_, h.within, hcheckpoints⟩
  · rw [hcommitted, hmapping]
    exact h.fromFile
  · rw [hrows]
    exact h.committedOnce
  · rw [hrejected]
    exact h.rejectedOnce
  · rw [hrows, hrejected]
    exact h.notBoth
  · rw [hrows, hrejected]
    exact h.numbers
  · rw [hcommitted, hrejected]
    exact h.count

/-- The next row has not been committed and not been rejected. -/
theorem Ledger.next {rows : List DictRow} {k : Nat} {s : State} (h : Ledger rows k s) :
    k + 1 ∉ s.committedRows ∧ k + 1 ∉ s.rejected := by
  have hnot : ¬ (1 ≤ k + 1 ∧ k + 1 ≤ k) := by omega
  rw [h.numbers, not_or] at hnot
  exact hnot

/-- The next row is committed. -/
theorem Ledger.commit {rows : List DictRow} {p : Progress} {row : DictRow} {values : List Param}
    (h : Ledger rows p.lastCompletedRow p.db) (hrow : rows[p.lastCompletedRow]? = some row)
    (hvalues : convertRow row p.db.job.columnMapping = .ok values) :
    Ledger rows (p.lastCompletedRow + 1) (p.commit (p.lastCompletedRow + 1) values).db := by
  obtain ⟨hcommitted, hrejected⟩ := h.next
  have hrows : (p.commit (p.lastCompletedRow + 1) values).db.committedRows =
      p.db.committedRows ++ [p.lastCompletedRow + 1] := List.map_append
  refine ⟨?_, ?_, h.rejectedOnce, ?_, ?_, ?_, ?_, h.checkpoints⟩
  · intro entry hentry
    rcases List.mem_append.1 hentry with hold | hnew
    · exact h.fromFile entry hold
    · rw [List.mem_singleton.1 hnew]
      exact ⟨row, by simp, hrow, hvalues⟩
  · rw [hrows, List.nodup_append]
    refine ⟨h.committedOnce, List.nodup_singleton _, ?_⟩
    intro a ha b hb
    rw [List.mem_singleton.1 hb]
    exact fun heq => hcommitted (heq ▸ ha)
  · intro n hn
    rw [hrows, List.mem_append, List.mem_singleton] at hn
    rcases hn with hold | rfl
    · exact h.notBoth n hold
    · exact hrejected
  · intro n
    have hold := h.numbers n
    rw [hrows, List.mem_append, List.mem_singleton]
    show _ ↔ _ ∨ n ∈ p.db.rejected
    constructor
    · rintro ⟨hlow, hhigh⟩
      by_cases hlast : n = p.lastCompletedRow + 1
      · exact Or.inl (Or.inr hlast)
      · rcases hold.1 ⟨hlow, by omega⟩ with hc | hr
        · exact Or.inl (Or.inl hc)
        · exact Or.inr hr
    · rintro ((hc | rfl) | hr)
      · have := hold.2 (Or.inl hc)
        omega
      · omega
      · have := hold.2 (Or.inr hr)
        omega
  · have hcount := h.count
    show (p.db.committed ++ [_]).length + p.db.rejected.length = _
    rw [List.length_append, List.length_singleton]
    omega
  · have hlt := (List.getElem?_eq_some_iff.1 hrow).1
    omega

/-- The next row is rejected. -/
theorem Ledger.reject {rows : List DictRow} {p : Progress} {row : DictRow}
    (h : Ledger rows p.lastCompletedRow p.db) (hrow : rows[p.lastCompletedRow]? = some row)
    (error : RowError) :
    Ledger rows (p.lastCompletedRow + 1) (p.reject (p.lastCompletedRow + 1) row error).db := by
  obtain ⟨hcommitted, hrejected⟩ := h.next
  have hrejectedRows : (p.reject (p.lastCompletedRow + 1) row error).db.rejected =
      p.db.rejected ++ [p.lastCompletedRow + 1] := rfl
  refine ⟨h.fromFile, h.committedOnce, ?_, ?_, ?_, ?_, ?_, h.checkpoints⟩
  · rw [hrejectedRows, List.nodup_append]
    refine ⟨h.rejectedOnce, List.nodup_singleton _, ?_⟩
    intro a ha b hb
    rw [List.mem_singleton.1 hb]
    exact fun heq => hrejected (heq ▸ ha)
  · intro n hn
    rw [hrejectedRows, List.mem_append, List.mem_singleton, not_or]
    exact ⟨h.notBoth n hn, fun heq => hcommitted (heq ▸ hn)⟩
  · intro n
    have hold := h.numbers n
    rw [hrejectedRows, List.mem_append, List.mem_singleton]
    show _ ↔ n ∈ p.db.committedRows ∨ _
    constructor
    · rintro ⟨hlow, hhigh⟩
      by_cases hlast : n = p.lastCompletedRow + 1
      · exact Or.inr (Or.inr hlast)
      · rcases hold.1 ⟨hlow, by omega⟩ with hc | hr
        · exact Or.inl hc
        · exact Or.inr (Or.inl hr)
    · rintro (hc | hr | rfl)
      · have := hold.2 (Or.inl hc)
        omega
      · have := hold.2 (Or.inr hr)
        omega
      · omega
  · have hcount := h.count
    show p.db.committed.length + (p.db.rejected ++ [_]).length = _
    rw [List.length_append, List.length_singleton]
    omega
  · have hlt := (List.getElem?_eq_some_iff.1 hrow).1
    omega

/-! ## One row -/

/-- What the job was created with. -/
def ImportJob.config (job : ImportJob) : String × List Char × List ColumnMapping :=
  (job.encoding, job.delimiter, job.columnMapping)

/-- The row `n` converted and inserted, or rejected: it is the next one of the ledger. -/
theorem Counted.insertRow {rows : List DictRow} {p p' : Progress} (hp : Counted rows p)
    {a : Attempt} {row : DictRow} (hrow : rows[p.lastCompletedRow]? = some row)
    (h : insertRow a p.db.job.columnMapping (p.lastCompletedRow + 1) row p = .ok p') :
    Counted rows { p' with lastCompletedRow := p.lastCompletedRow + 1 } ∧
      p'.db.job = p.db.job ∧ p'.saves = p.saves := by
  have hsaved : p.db.job.lastProcessedRow ≤ p.lastCompletedRow + 1 := Nat.le_succ_of_le hp.saved
  have hrejected : ∀ error, Counted rows
      { p.reject (p.lastCompletedRow + 1) row error with
        lastCompletedRow := p.lastCompletedRow + 1 } := by
    intro error
    refine ⟨hp.ledger.reject hrow error, hp.imported, ?_, hsaved, hp.status⟩
    show p.rejected + 1 = (p.db.rejected ++ [_]).length
    rw [hp.rejected, List.length_append, List.length_singleton]
  unfold Imports.insertRow at h
  cases hconvert : convertRow row p.db.job.columnMapping with
  | error e =>
    rw [hconvert] at h
    cases h
    exact ⟨hrejected e, rfl, rfl⟩
  | ok values =>
    rw [hconvert] at h
    dsimp only at h
    cases hinsert : a.insert (p.lastCompletedRow + 1) with
    | committed =>
      rw [hinsert] at h
      cases h
      refine ⟨⟨hp.ledger.commit hrow hconvert, ?_, hp.rejected, hsaved, hp.status⟩, rfl, rfl⟩
      show p.imported + 1 = (p.db.committed ++ [_]).length
      rw [hp.imported, List.length_append, List.length_singleton]
    | refused message =>
      rw [hinsert] at h
      cases h
      exact ⟨hrejected (.database message), rfl, rfl⟩
    | disconnected message =>
      rw [hinsert] at h
      cases h

/-- A checkpoint whose save goes through: the job row has the counts. -/
theorem Counted.checkpoint {rows : List DictRow} {p : Progress} (hp : Counted rows p)
    {a : Attempt} (hsaves : ∀ n, a.saves n = true) :
    Counted rows (checkpoint a p).1 ∧
      (checkpoint a p).1.db.job = { p.db.job with
        importedRows := p.imported, rejectedRows := p.rejected,
        lastProcessedRow := p.lastCompletedRow } ∧
      (checkpoint a p).1.lastCompletedRow = p.lastCompletedRow ∧
      (checkpoint a p).1.rowNumber = p.rowNumber := by
  have hsum : p.imported + p.rejected = p.lastCompletedRow := by
    rw [hp.imported, hp.rejected]
    exact hp.ledger.count
  have hsaved : Counted rows p.saved := by
    refine ⟨hp.ledger.congr rfl rfl rfl ?_, hp.imported, hp.rejected, Nat.le_refl _, hp.status⟩
    intro c hc
    rcases List.mem_append.1 hc with hold | hnew
    · exact hp.ledger.checkpoints c hold
    · rw [List.mem_singleton.1 hnew]
      exact hsum
  unfold Imports.checkpoint
  rw [hsaves]
  simp only [Bool.not_true, Bool.false_eq_true, if_false]
  split
  · exact ⟨hsaved, rfl, rfl, rfl⟩
  · split
    · exact ⟨⟨hsaved.ledger, hsaved.imported, hsaved.rejected, hsaved.saved, hsaved.status⟩,
        rfl, rfl, rfl⟩
    · exact ⟨⟨hsaved.ledger.congr rfl rfl rfl hsaved.ledger.checkpoints, hsaved.imported,
        hsaved.rejected, hsaved.saved, hsaved.status⟩, rfl, rfl, rfl⟩

/-- Where the loop stands before the row `n`: it is passing over rows, or at the next row. -/
def Progress.standsAt (p : Progress) (n : Nat) : Prop :=
  p.lastCompletedRow = max (n - 1) p.db.job.lastProcessedRow

/-- One row, whether it goes through or breaks the attempt off. -/
theorem Counted.importRow {rows : List DictRow} {p : Progress} (hp : Counted rows p)
    {a : Attempt} (hsaves : ∀ n, a.saves n = true) {n : Nat} (hn : 1 ≤ n) (hat : p.standsAt n)
    {row : DictRow} (hrow : rows[n - 1]? = some row) :
    Counted rows (importRow a p.db.job.columnMapping n row p).1 ∧
      (importRow a p.db.job.columnMapping n row p).1.db.job.config = p.db.job.config ∧
      ((importRow a p.db.job.columnMapping n row p).2 = none →
        (importRow a p.db.job.columnMapping n row p).1.standsAt (n + 1) ∧
          (importRow a p.db.job.columnMapping n row p).1.rowNumber = n) := by
  have hnumber : Counted rows { p with rowNumber := n } :=
    ⟨hp.ledger, hp.imported, hp.rejected, hp.saved, hp.status⟩
  unfold Progress.standsAt at hat
  unfold Imports.importRow
  dsimp only
  by_cases hskip : n ≤ p.db.job.lastProcessedRow
  · rw [if_pos hskip]
    refine ⟨hnumber, rfl, fun _ => ⟨?_, rfl⟩⟩
    show p.lastCompletedRow = max (n + 1 - 1) p.db.job.lastProcessedRow
    omega
  rw [if_neg hskip]
  have hlast : n = p.lastCompletedRow + 1 := by omega
  subst hlast
  cases hinsert : Imports.insertRow a p.db.job.columnMapping (p.lastCompletedRow + 1) row
      { p with rowNumber := p.lastCompletedRow + 1 } with
  | error e => exact ⟨hnumber, rfl, fun h => (nomatch h)⟩
  | ok p' =>
    obtain ⟨hcounted, hjob, -⟩ := hnumber.insertRow hrow hinsert
    have hconfig : p'.db.job.config = p.db.job.config := congrArg ImportJob.config hjob
    have hstep : ({ p' with lastCompletedRow := p.lastCompletedRow + 1 } : Progress).standsAt
        (p.lastCompletedRow + 1 + 1) := by
      have hsaved := hcounted.saved
      unfold Progress.standsAt
      dsimp only at hsaved ⊢
      omega
    have hrowNumber : p'.rowNumber = p.lastCompletedRow + 1 := by
      unfold Imports.insertRow at hinsert
      split at hinsert
      · cases hinsert
        rfl
      · split at hinsert
        · cases hinsert
          rfl
        · cases hinsert
          rfl
        · cases hinsert
    dsimp only
    by_cases hchunk : (p.lastCompletedRow + 1) % chunkRows = 0
    · rw [if_pos hchunk]
      obtain ⟨hafter, hjob', hlast', hnumber'⟩ := hcounted.checkpoint hsaves
      cases hcheckpoint : Imports.checkpoint a { p' with lastCompletedRow := p.lastCompletedRow + 1 }
        with
      | mk q failure =>
        rw [hcheckpoint] at hafter hjob' hlast' hnumber'
        have hconfig' : q.db.job.config = p.db.job.config :=
          (congrArg ImportJob.config hjob').trans hconfig
        cases failure with
        | some e => exact ⟨hafter, hconfig', fun h => (nomatch h)⟩
        | none =>
          refine ⟨⟨hafter.ledger, hafter.imported, hafter.rejected, hafter.saved, hafter.status⟩,
            hconfig', fun _ => ⟨?_, hnumber'.trans hrowNumber⟩⟩
          have hprocessed : q.db.job.lastProcessedRow = p.lastCompletedRow + 1 :=
            congrArg ImportJob.lastProcessedRow hjob'
          unfold Progress.standsAt
          dsimp only at hlast' ⊢
          omega
    · rw [if_neg hchunk]
      exact ⟨hcounted, hconfig, fun _ => ⟨hstep, hrowNumber⟩⟩

/-! ## One attempt -/

/-- The loop over rows that continue the ones before `n`. -/
theorem Counted.importRows {rows rest : List DictRow} {p : Progress} (hp : Counted rows p)
    {a : Attempt} (hsaves : ∀ n, a.saves n = true) {n : Nat} (hn : 1 ≤ n) (hat : p.standsAt n)
    (hrest : rest <+: rows.drop (n - 1)) :
    Counted rows (importRows a p.db.job.columnMapping n rest p).1 ∧
      (importRows a p.db.job.columnMapping n rest p).1.db.job.config = p.db.job.config ∧
      ((importRows a p.db.job.columnMapping n rest p).2 = none →
        (importRows a p.db.job.columnMapping n rest p).1.standsAt (n + rest.length) ∧
          (importRows a p.db.job.columnMapping n rest p).1.rowNumber =
            if rest = [] then p.rowNumber else n + rest.length - 1) := by
  induction rest generalizing n p with
  | nil => exact ⟨hp, rfl, fun _ => ⟨hat, rfl⟩⟩
  | cons row rest ih =>
    have hrow : rows[n - 1]? = some row := by
      obtain ⟨tail, htail⟩ := hrest
      have hhead := congrArg (fun xs => xs[0]?) htail
      rw [List.getElem?_drop, List.cons_append, List.getElem?_cons_zero] at hhead
      exact hhead.symm
    have hrest' : rest <+: rows.drop (n + 1 - 1) := by
      have hdrop : rows.drop (n - 1) = row :: rows.drop (n + 1 - 1) := by
        obtain ⟨hlt, hget⟩ := List.getElem?_eq_some_iff.1 hrow
        rw [List.drop_eq_getElem_cons hlt, hget]
        congr 2
        omega
      rw [hdrop] at hrest
      exact (List.cons_prefix_cons.1 hrest).2
    obtain ⟨hcounted, hconfig, hnext⟩ := hp.importRow hsaves hn hat hrow
    unfold Imports.importRows
    cases hstep : Imports.importRow a p.db.job.columnMapping n row p with
    | mk q failure =>
      rw [hstep] at hcounted hconfig hnext
      cases failure with
      | some e => exact ⟨hcounted, hconfig, fun h => (nomatch h)⟩
      | none =>
        obtain ⟨hat', hnumber⟩ := hnext rfl
        obtain ⟨hall, hconfig', hend⟩ := ih hcounted (by omega) hat' hrest'
        have hmapping : q.db.job.columnMapping = p.db.job.columnMapping :=
          congrArg (fun config => config.2.2) hconfig
        dsimp only at hnumber hconfig
        rw [hmapping] at hall hconfig' hend
        refine ⟨hall, hconfig'.trans hconfig, fun hnone => ?_⟩
        obtain ⟨hstands, hlast⟩ := hend hnone
        refine ⟨?_, ?_⟩
        · rw [List.length_cons]
          rw [show n + (rest.length + 1) = n + 1 + rest.length by omega]
          exact hstands
        · rw [hlast, if_neg (List.cons_ne_nil _ _), List.length_cons, hnumber]
          by_cases hempty : rest = []
          · rw [if_pos hempty, hempty]
            rfl
          · rw [if_neg hempty]
            omega

/-- What holds of a job between two attempts. -/
structure JobInv (rows : List DictRow) (s : State) : Prop where
  ledger : Ledger rows s.job.lastProcessedRow s
  imported : s.job.importedRows = s.committed.length
  rejected : s.job.rejectedRows = s.rejected.length
  completed : s.job.status = .completed →
    s.job.lastProcessedRow = rows.length ∧ s.job.totalRows = some rows.length

theorem Counted.start {rows : List DictRow} {s : State} (hs : JobInv rows s)
    (hstatus : s.job.status ≠ .completed) : Counted rows (Progress.start s) :=
  ⟨hs.ledger, hs.imported, hs.rejected, Nat.le_refl _, hstatus⟩

/-- The state an attempt breaks off in, once its checkpoint is saved. -/
theorem Counted.jobInv {rows : List DictRow} {p : Progress} (hp : Counted rows p) {a : Attempt}
    (hsaves : ∀ n, a.saves n = true) : JobInv rows (Imports.checkpoint a p).1.db := by
  obtain ⟨hcounted, hjob, hlast, -⟩ := hp.checkpoint hsaves
  have hprocessed : (Imports.checkpoint a p).1.db.job.lastProcessedRow =
      (Imports.checkpoint a p).1.lastCompletedRow := by rw [hjob, hlast]
  have hcommitted : (Imports.checkpoint a p).1.db.committed = p.db.committed := by
    unfold Imports.checkpoint
    split
    · rfl
    · dsimp only
      split
      · rfl
      · split <;> rfl
  have hrejected : (Imports.checkpoint a p).1.db.rejected = p.db.rejected := by
    unfold Imports.checkpoint
    split
    · rfl
    · dsimp only
      split
      · rfl
      · split <;> rfl
  refine ⟨?_, ?_, ?_, fun h => absurd h hcounted.status⟩
  · rw [hprocessed]
    exact hcounted.ledger
  · rw [hcommitted, hjob]
    exact hp.imported
  · rw [hrejected, hjob]
    exact hp.rejected

/-- The `try` block of an attempt: without an exception it has met all rows of the file. -/
theorem importStream_counted {codec : Codec} {body : List UInt8} {d : Dialect} {a : Attempt}
    {s : State} (hs : JobInv (streamedRows codec s.job.encoding d body none).1 s)
    (hstatus : s.job.status ≠ .completed) (hsaves : ∀ n, a.saves n = true) :
    Counted (streamedRows codec s.job.encoding d body none).1
      (importStream codec body d a s).1 ∧
      (importStream codec body d a s).1.db.job.config = s.job.config ∧
      ((importStream codec body d a s).2 = none →
        (importStream codec body d a s).1.lastCompletedRow =
          (streamedRows codec s.job.encoding d body none).1.length ∧
        (importStream codec body d a s).1.rowNumber =
          (streamedRows codec s.job.encoding d body none).1.length) := by
  have hstart := Counted.start hs hstatus
  unfold importStream
  cases hcursor : a.cursorRefused with
  | some message => exact ⟨hstart, rfl, fun h => (nomatch h)⟩
  | none =>
    have hat : (Progress.start s).standsAt 1 := by
      show s.job.lastProcessedRow = max (1 - 1) s.job.lastProcessedRow
      omega
    have hprefix := streamedRows_prefix codec s.job.encoding d body a.streamCut
    obtain ⟨hcounted, hconfig, hend⟩ :=
      hstart.importRows hsaves (Nat.le_refl 1) hat (by simpa using hprefix)
    dsimp only
    cases himport : importRows a s.job.columnMapping 1
        (streamedRows codec s.job.encoding d body a.streamCut).1 (Progress.start s) with
    | mk p failure =>
      have himport' : importRows a (Progress.start s).db.job.columnMapping 1
          (streamedRows codec s.job.encoding d body a.streamCut).1 (Progress.start s) =
            (p, failure) := himport
      rw [himport'] at hcounted hconfig hend
      cases failure with
      | some e => exact ⟨hcounted, hconfig, fun h => (nomatch h)⟩
      | none =>
        refine ⟨hcounted, hconfig, fun hnone => ?_⟩
        obtain ⟨hstands, hnumber⟩ := hend rfl
        rw [streamedRows_whole hnone] at hstands hnumber
        have hwithin := hcounted.ledger.within
        have hsaved := hcounted.saved
        have hold := hs.ledger.within
        unfold Progress.standsAt at hstands
        dsimp only at hstands hnumber hwithin hsaved ⊢
        refine ⟨by omega, ?_⟩
        rw [hnumber]
        split
        · rename_i hempty
          rw [hempty] at hold ⊢
          exact Nat.le_zero.1 hold
        · omega

/-- The file of a job is the one its configuration describes. -/
theorem dataRows_congr (codec : Codec) (body : List UInt8) {job job' : ImportJob}
    (h : job'.config = job.config) : dataRows codec body job' = dataRows codec body job := by
  have hencoding : job'.encoding = job.encoding := congrArg (fun config => config.1) h
  have hdelimiter : job'.delimiter = job.delimiter := congrArg (fun config => config.2.1) h
  unfold dataRows
  rw [hdelimiter, hencoding]

theorem checkpoint_config (a : Attempt) (p : Progress) :
    (Imports.checkpoint a p).1.db.job.config = p.db.job.config := by
  unfold Imports.checkpoint
  split
  · rfl
  · dsimp only
    split
    · rfl
    · split <;> rfl

/-- An attempt whose saves go through. -/
theorem JobInv.runImport {codec : Codec} {body : List UInt8} {a : Attempt} {s : State}
    (hs : JobInv (dataRows codec body s.job) s) (hsaves : ∀ n, a.saves n = true) :
    JobInv (dataRows codec body s.job) (runImport codec body a s).1 ∧
      (runImport codec body a s).1.job.config = s.job.config := by
  have hrunning : JobInv (dataRows codec body s.job)
      { s with job := { s.job with status := .running, startedAt := some a.startedAt } } :=
    ⟨hs.ledger.congr rfl rfl rfl hs.ledger.checkpoints, hs.imported, hs.rejected,
      fun h => (nomatch h)⟩
  unfold Imports.runImport
  split
  · exact ⟨hs, rfl⟩
  cases hrefused : a.streamRefused with
  | some message => exact ⟨hrunning, rfl⟩
  | none =>
    dsimp only
    cases hdialect : Dialect.of? s.job.delimiter with
    | none => exact ⟨hrunning, rfl⟩
    | some d =>
      have hrows : dataRows codec body s.job =
          (streamedRows codec s.job.encoding d body none).1 := by rw [dataRows, hdialect]
      rw [hrows] at hrunning ⊢
      obtain ⟨hcounted, hconfig, hend⟩ :=
        importStream_counted (a := a)
          (s := { s with job := { s.job with status := .running, startedAt := some a.startedAt } })
          hrunning (fun h => by cases h) hsaves
      dsimp only
      cases hstream : importStream codec body d a
          { s with job := { s.job with status := .running, startedAt := some a.startedAt } } with
      | mk p failure =>
        rw [hstream] at hcounted hconfig hend
        have hafter := hcounted.jobInv hsaves
        have hconfig' := (checkpoint_config a p).trans hconfig
        obtain ⟨-, hjob, hlast, hnumber⟩ := hcounted.checkpoint hsaves
        cases hcheckpoint : Imports.checkpoint a p with
        | mk q failure' =>
          rw [hcheckpoint] at hafter hconfig' hjob hlast hnumber
          cases failure with
          | some e =>
            dsimp only
            rw [hcheckpoint]
            cases failure' with
            | some e' => exact ⟨hafter, hconfig'⟩
            | none => exact ⟨hafter, hconfig'⟩
          | none =>
            dsimp only
            rw [hcheckpoint]
            cases failure' with
            | some e => exact ⟨hafter, hconfig'⟩
            | none =>
              obtain ⟨hall, hrowNumber⟩ := hend rfl
              have hprocessed := congrArg ImportJob.lastProcessedRow hjob
              dsimp only at hall hrowNumber hprocessed hnumber ⊢
              split
              · exact ⟨hafter, hconfig'⟩
              refine ⟨⟨hafter.ledger.congr rfl rfl rfl hafter.ledger.checkpoints, hafter.imported,
                hafter.rejected, fun _ => ⟨hprocessed.trans hall, ?_⟩⟩, hconfig'⟩
              exact congrArg some (hnumber.trans hrowNumber)

theorem runImportTask_eq (codec : Codec) (body : List UInt8) (s : State) (a : Attempt) :
    runImportTask codec body s a = (runImport codec body a s).1 :=
  Transition.Task.attempt_fst a.retries a

/-- A task keeps what its attempt leaves. -/
theorem JobInv.runImportTask {codec : Codec} {body : List UInt8} {a : Attempt} {s : State}
    (hs : JobInv (dataRows codec body s.job) s) (hsaves : ∀ n, a.saves n = true) :
    JobInv (dataRows codec body s.job) (runImportTask codec body s a) ∧
      (runImportTask codec body s a).job.config = s.job.config := by
  rw [runImportTask_eq]
  exact hs.runImport hsaves

theorem JobInv.exactlyOnce {rows : List DictRow} {s : State} (hs : JobInv rows s) :
    ExactlyOnce rows s := by
  refine ⟨hs.ledger.fromFile, hs.ledger.committedOnce, hs.ledger.rejectedOnce, hs.ledger.notBoth,
    ⟨hs.imported, hs.rejected⟩, hs.ledger.checkpoints, fun hstatus => ?_⟩
  obtain ⟨hall, htotal⟩ := hs.completed hstatus
  have hcount := hs.ledger.count
  have hsum : s.job.importedRows + s.job.rejectedRows = rows.length := by
    rw [hs.imported, hs.rejected]
    omega
  refine ⟨fun n => ?_, ?_, hsum⟩
  · rw [← hall]
    exact hs.ledger.numbers n
  · rw [hsum]
    exact htotal

/-- However the attempts are cut short, every data row is committed or rejected at most once, and
exactly once when the job is completed. -/
theorem exactlyOnce_of_saves (codec : Codec) (body : List UInt8) (s₀ : State) (hfresh : Fresh s₀)
    (attempts : List Attempt) (hsaves : ∀ a ∈ attempts, ∀ n, a.saves n = true) :
    ExactlyOnce (dataRows codec body s₀.job)
      (run (runImportTask codec body) s₀ attempts) := by
  have hstart : JobInv (dataRows codec body s₀.job) s₀ := by
    refine ⟨⟨?_, ?_, ?_, ?_, ?_, ?_, ?_, ?_⟩, ?_, ?_, ?_⟩ <;>
      simp [State.committedRows, hfresh.committed, hfresh.rejected, hfresh.checkpoints,
        hfresh.importedRows, hfresh.rejectedRows, hfresh.lastProcessedRow, hfresh.status]
    intro n hn
    omega
  have hinv : ∀ (attempts : List Attempt) (s : State),
      (∀ a ∈ attempts, ∀ n, a.saves n = true) → s.job.config = s₀.job.config →
      JobInv (dataRows codec body s₀.job) s →
      JobInv (dataRows codec body s₀.job) (run (runImportTask codec body) s attempts) := by
    intro attempts
    induction attempts with
    | nil => exact fun s _ _ hs => hs
    | cons a attempts ih =>
      intro s hsaves hconfig hs
      rw [← dataRows_congr codec body hconfig] at hs
      obtain ⟨hafter, hconfig'⟩ := hs.runImportTask (hsaves a (List.mem_cons_self ..))
      rw [dataRows_congr codec body hconfig] at hafter
      exact ih _ (fun b hb => hsaves b (List.mem_cons_of_mem _ hb)) (hconfig'.trans hconfig) hafter
  exact (hinv attempts s₀ hsaves rfl hstart).exactlyOnce

/-! ## One job -/

/-- Three data rows, of which the second is no integer. -/
def threeRows : List UInt8 := "n\n1\nx\n2\n".toList.map fun c => c.toNat.toUInt8

def latin1 : Codec := fun _ bytes => some (bytes.map fun b => Char.ofNat b.toNat)

def freshJob : State :=
  { job :=
      { encoding := "latin-1", delimiter := [','],
        columnMapping := [⟨['n'], ['n'], .integer⟩], status := .pending, totalRows := none,
        importedRows := 0, rejectedRows := 0, lastProcessedRow := 0, errorMessage := none,
        startedAt := none, completedAt := none }
    errors := [], committed := [], rejected := [], checkpoints := [] }

/-- An attempt that meets no fault but those of the transactions of the rows. -/
def attempt (insert : Nat → InsertOutcome) (retries : Nat) : Attempt :=
  { startedAt := 1, completedAt := 2, starts := true, saves := fun _ => true, completes := true,
    storesErrors := fun _ => true, streamRefused := none, streamCut := none, cursorRefused := none,
    insert, retries }

/-- The connection breaks at the third row; the second attempt completes the job. -/
theorem exactlyOnce_of_saves_threeRows :
    ExactlyOnce (dataRows latin1 threeRows freshJob.job)
      (run (runImportTask latin1 threeRows) freshJob
        [attempt (fun n => if n = 3 then .disconnected "gone" else .committed) 0,
          attempt (fun _ => .committed) 1]) :=
  exactlyOnce_of_saves latin1 threeRows freshJob ⟨rfl, rfl, rfl, rfl, rfl, rfl, rfl⟩ _
    (fun a ha n => by
      rcases List.mem_cons.1 ha with rfl | ha
      · rfl
      · rw [List.mem_singleton.1 ha]
        rfl)

example :
    let s := run (runImportTask latin1 threeRows) freshJob
      [attempt (fun n => if n = 3 then .disconnected "gone" else .committed) 0,
        attempt (fun _ => .committed) 1]
    s.job.status = .completed ∧ s.committedRows = [1, 3] ∧ s.rejected = [2] ∧
      s.checkpoints = [⟨1, 1, 2⟩, ⟨2, 1, 3⟩] := by
  decide

end Imports
