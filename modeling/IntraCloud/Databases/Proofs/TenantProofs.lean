import IntraCloud.Databases.Catalog
import Mathlib.Tactic.Common

/-!
# The tenant database under DDL

PostgreSQL keeps its own schema valid whatever statements it is given, and on a valid schema each
compensating statement of the services undoes the statement it belongs to.
-/

namespace Databases

open Relational

/-- `x` is the column of this schema, table and name. -/
def PhysicalColumn.At (x : PhysicalColumn) (s : SchemaName) (t n : String) : Prop :=
  x.schema = s ∧ x.table = t ∧ x.name = n

namespace Tenant

/-- Every table is in a schema, every column in a table under a name of its own, and every foreign key
is on an existing column and refers to an existing unique one that it compares with. -/
structure Valid (ten : Tenant) : Prop where
  table_schema : ∀ x ∈ ten.tables, x.1 ∈ ten.schemas
  column_table : ∀ x ∈ ten.columns, (x.schema, x.table) ∈ ten.tables
  columnKeys : Keyed (fun c => (c.schema, c.table, c.name)) ten.columns
  refersTo : ∀ fk ∈ ten.foreignKeys, ten.refersTo fk = true

theorem valid_empty : Valid Tenant.empty := by
  refine ⟨?_, ?_, ?_, ?_⟩ <;> simp [Tenant.empty, Keyed]

theorem refersTo_iff {ten : Tenant} {fk : PhysicalForeignKey} :
    ten.refersTo fk = true ↔ ∃ c ∈ ten.columns, c.At fk.schema fk.table fk.column ∧
      ∃ rc ∈ ten.columns, rc.At fk.schema fk.refTable fk.refColumn ∧ rc.unique = true ∧
        comparable c.type rc.type = true := by
  simp only [Tenant.refersTo, List.any_eq_true, Bool.and_eq_true, beq_iff_eq, PhysicalColumn.At,
    and_assoc]

/-- The columns a foreign key needs may not go while the key stays. -/
theorem refersTo_filter {ten ten' : Tenant} {fk : PhysicalForeignKey} (keep : PhysicalColumn → Bool)
    (hcols : ten'.columns = ten.columns.filter keep) (h : ten.refersTo fk = true)
    (hcol : ∀ c, c.At fk.schema fk.table fk.column → keep c = true)
    (href : ∀ c, c.At fk.schema fk.refTable fk.refColumn → keep c = true) :
    ten'.refersTo fk = true := by
  obtain ⟨c, hc, hat, rc, hrc, hrat, hrest⟩ := refersTo_iff.1 h
  rw [refersTo_iff, hcols]
  exact ⟨c, List.mem_filter.2 ⟨hc, hcol c hat⟩, hat, rc, List.mem_filter.2 ⟨hrc, href rc hrat⟩, hrat,
    hrest⟩

theorem refersTo_mono {ten ten' : Tenant} {fk : PhysicalForeignKey}
    (hcols : ∀ c ∈ ten.columns, c ∈ ten'.columns) (h : ten.refersTo fk = true) :
    ten'.refersTo fk = true := by
  obtain ⟨c, hc, hat, rc, hrc, hrest⟩ := refersTo_iff.1 h
  exact refersTo_iff.2 ⟨c, hcols c hc, hat, rc, hcols rc hrc, hrest⟩

section Valid

variable {ten : Tenant} (hv : ten.Valid)

include hv

theorem Valid.column_of_fk {fk : PhysicalForeignKey} (h : fk ∈ ten.foreignKeys) :
    ∃ c ∈ ten.columns, c.At fk.schema fk.table fk.column := by
  obtain ⟨c, hc, hat, -⟩ := refersTo_iff.1 (hv.refersTo fk h)
  exact ⟨c, hc, hat⟩

theorem Valid.refColumn_of_fk {fk : PhysicalForeignKey} (h : fk ∈ ten.foreignKeys) :
    ∃ c ∈ ten.columns, c.At fk.schema fk.refTable fk.refColumn := by
  obtain ⟨c, -, -, rc, hrc, hat, -⟩ := refersTo_iff.1 (hv.refersTo fk h)
  exact ⟨rc, hrc, hat⟩

theorem Valid.table_of_fk {fk : PhysicalForeignKey} (h : fk ∈ ten.foreignKeys) :
    (fk.schema, fk.table) ∈ ten.tables := by
  obtain ⟨c, hc, h1, h2, -⟩ := hv.column_of_fk h
  simpa [h1, h2] using hv.column_table c hc

theorem Valid.refTable_of_fk {fk : PhysicalForeignKey} (h : fk ∈ ten.foreignKeys) :
    (fk.schema, fk.refTable) ∈ ten.tables := by
  obtain ⟨c, hc, h1, h2, -⟩ := hv.refColumn_of_fk h
  simpa [h1, h2] using hv.column_table c hc

end Valid

/-! ## What an accepted statement does -/

variable {ten ten' : Tenant}

theorem exec_createSchema {s : SchemaName} (h : ten.exec (.createSchema s) = some ten') :
    s ∉ ten.schemas ∧ ten' = { ten with schemas := ten.schemas ++ [s] } := by
  simp only [exec] at h
  split at h
  · cases h
  · rename_i hs
    exact ⟨by simpa using hs, (Option.some.inj h).symm⟩

theorem exec_dropSchemaCascade {s : SchemaName} :
    ten.exec (.dropSchemaCascade s) = some ten' ↔ s ∈ ten.schemas ∧ ten' =
      { schemas := ten.schemas.filter (· != s), tables := ten.tables.filter (·.1 != s),
        columns := ten.columns.filter (·.schema != s),
        foreignKeys := ten.foreignKeys.filter (·.schema != s) } := by
  simp only [exec]
  by_cases hs : s ∈ ten.schemas
  · simp [hs, eq_comm]
  · simp [hs]

theorem exec_createTable {s : SchemaName} {t : String}
    (h : ten.exec (.createTable s t) = some ten') :
    s ∈ ten.schemas ∧ (s, t) ∉ ten.tables ∧ ten' =
      { ten with tables := ten.tables ++ [(s, t)], columns := ten.columns ++ [idColumn s t] } := by
  simp only [exec] at h
  split at h
  · cases h
  · rename_i hs
    simp only [Bool.or_eq_true, Bool.not_eq_true', List.contains_eq_mem, decide_eq_true_eq,
      decide_eq_false_iff_not, not_or, not_not] at hs
    exact ⟨hs.1, hs.2, (Option.some.inj h).symm⟩

theorem referenced_eq_false {s : SchemaName} {t : String} :
    ten.referenced s t = false ↔
      ∀ fk ∈ ten.foreignKeys, fk.schema = s → fk.refTable = t → fk.table = t := by
  simp only [referenced, List.any_eq_false, Bool.and_eq_true, beq_iff_eq, bne_iff_ne, not_and,
    not_not]
  exact ⟨fun h fk hfk h1 h2 => h fk hfk ⟨h1, h2⟩, fun h fk hfk h1 => h fk hfk h1.1 h1.2⟩

theorem exec_dropTable {s : SchemaName} {t : String} :
    ten.exec (.dropTable s t) = some ten' ↔
      ((s, t) ∈ ten.tables ∧ ∀ fk ∈ ten.foreignKeys, fk.schema = s → fk.refTable = t →
        fk.table = t) ∧ ten' =
      { schemas := ten.schemas, tables := ten.tables.filter (· != (s, t)),
        columns := ten.columns.filter fun c => (c.schema, c.table) != (s, t),
        foreignKeys := ten.foreignKeys.filter fun fk => (fk.schema, fk.table) != (s, t) } := by
  simp only [exec]
  rw [← referenced_eq_false]
  by_cases hs : (s, t) ∈ ten.tables
  · cases hr : ten.referenced s t <;> simp [hs, eq_comm]
  · simp [hs]

theorem exec_addColumn {c : PhysicalColumn} (h : ten.exec (.addColumn c) = some ten') :
    (c.schema, c.table) ∈ ten.tables ∧ (∀ x ∈ ten.columns, ¬ x.At c.schema c.table c.name) ∧
      ten' = { ten with columns := ten.columns ++ [c] } := by
  simp only [exec] at h
  split at h
  · cases h
  · rename_i hc
    simp only [Bool.or_eq_true, Bool.not_eq_true', List.contains_eq_mem, decide_eq_false_iff_not,
      List.any_eq_true, beq_iff_eq, Prod.mk.injEq, not_or, not_not, not_exists, not_and] at hc
    refine ⟨hc.1, fun x hx hat => ?_, (Option.some.inj h).symm⟩
    exact hc.2 x hx hat.1 hat.2.1 hat.2.2

theorem exec_dropColumn {s : SchemaName} {t n : String} :
    ten.exec (.dropColumn s t n) = some ten' ↔
      ((∃ x ∈ ten.columns, x.At s t n) ∧ ten.referencedColumn s t n = false) ∧ ten' =
      { ten with
        columns := ten.columns.filter fun x => (x.schema, x.table, x.name) != (s, t, n),
        foreignKeys := ten.foreignKeys.filter fun fk =>
          (fk.schema, fk.table, fk.column) != (s, t, n) } := by
  have hany : ten.columns.any (fun x => (x.schema, x.table, x.name) == (s, t, n)) = true ↔
      ∃ x ∈ ten.columns, x.At s t n := by
    simp [PhysicalColumn.At]
  simp only [exec]
  rw [← hany]
  cases ten.columns.any (fun x => (x.schema, x.table, x.name) == (s, t, n)) <;>
    cases ten.referencedColumn s t n <;> simp [eq_comm]

theorem exec_addForeignKey {fk : PhysicalForeignKey}
    (h : ten.exec (.addForeignKey fk) = some ten') :
    ten.refersTo fk = true ∧
      (∀ x ∈ ten.foreignKeys, ¬ (x.schema = fk.schema ∧ x.table = fk.table ∧ x.name = fk.name)) ∧
      ten' = { ten with foreignKeys := ten.foreignKeys ++ [fk] } := by
  simp only [exec] at h
  split at h
  · cases h
  · rename_i hc
    simp only [Bool.or_eq_true, Bool.not_eq_true', List.any_eq_true, beq_iff_eq, Prod.mk.injEq,
      not_or, Bool.not_eq_false, not_exists, not_and] at hc
    refine ⟨hc.1, fun x hx hat => ?_, (Option.some.inj h).symm⟩
    exact hc.2 x hx hat.1 hat.2.1 hat.2.2

theorem exec_dropConstraint {s : SchemaName} {t : String} {n : Uuid} :
    ten.exec (.dropConstraint s t n) = some ten' ↔
      (∃ x ∈ ten.foreignKeys, (x.schema, x.table, x.name) = (s, t, n)) ∧ ten' =
      { ten with foreignKeys := ten.foreignKeys.filter fun x =>
          (x.schema, x.table, x.name) != (s, t, n) } := by
  simp only [exec]
  by_cases hx : ∃ x ∈ ten.foreignKeys, (x.schema, x.table, x.name) = (s, t, n)
  · have hany : ten.foreignKeys.any (fun x => (x.schema, x.table, x.name) == (s, t, n)) = true := by
      simpa using hx
    rw [hany]
    simp only [hx, true_and]
    exact ⟨fun h => (Option.some.inj h).symm, fun h => by rw [h]; rfl⟩
  · have hany : ten.foreignKeys.any (fun x => (x.schema, x.table, x.name) == (s, t, n)) =
        false := by
      simpa using hx
    rw [hany]
    exact ⟨fun h => (nomatch h), fun h => absurd h.1 hx⟩

/-! ## PostgreSQL keeps the schema valid -/

theorem Valid.createTable (hv : ten.Valid) {s : SchemaName} {t : String} (hs : s ∈ ten.schemas)
    (ht : (s, t) ∉ ten.tables) :
    Valid { ten with tables := ten.tables ++ [(s, t)], columns := ten.columns ++ [idColumn s t] } := by
  have hnew : ∀ x ∈ ten.columns,
      (x.schema, x.table, x.name) ≠ ((idColumn s t).schema, (idColumn s t).table, "id") := by
    intro x hx heq
    have hmem := hv.column_table x hx
    rw [(Prod.mk.inj heq).1, (Prod.mk.inj (Prod.mk.inj heq).2).1] at hmem
    exact ht hmem
  refine ⟨fun x hx => ?_, fun x hx => ?_, hv.columnKeys.concat hnew, fun fk hfk => ?_⟩
  · rcases mem_concat.1 hx with hx | rfl
    · exact hv.table_schema x hx
    · exact hs
  · rcases mem_concat.1 hx with hx | rfl
    · exact List.mem_append_left _ (hv.column_table x hx)
    · exact List.mem_append_right _ (List.mem_singleton.2 rfl)
  · exact refersTo_mono (fun c hc => List.mem_append_left _ hc) (hv.refersTo fk hfk)

theorem Valid.dropSchemaCascade (hv : ten.Valid) (s : SchemaName) :
    Valid
      { schemas := ten.schemas.filter (· != s), tables := ten.tables.filter (·.1 != s),
        columns := ten.columns.filter (·.schema != s),
        foreignKeys := ten.foreignKeys.filter (·.schema != s) } := by
  refine ⟨fun x hx => ?_, fun x hx => ?_, hv.columnKeys.filter _, fun fk hfk => ?_⟩
  · obtain ⟨hx, hne⟩ := List.mem_filter.1 hx
    exact List.mem_filter.2 ⟨hv.table_schema x hx, hne⟩
  · obtain ⟨hx, hne⟩ := List.mem_filter.1 hx
    exact List.mem_filter.2 ⟨hv.column_table x hx, hne⟩
  · obtain ⟨hfk, hne⟩ := List.mem_filter.1 hfk
    refine refersTo_filter _ rfl (hv.refersTo fk hfk) ?_ ?_
    · rintro c ⟨h, -, -⟩
      rw [h]
      exact hne
    · rintro c ⟨h, -, -⟩
      rw [h]
      exact hne

theorem Valid.dropTable (hv : ten.Valid) {s : SchemaName} {t : String}
    (href : ∀ fk ∈ ten.foreignKeys, fk.schema = s → fk.refTable = t → fk.table = t) :
    Valid
      { schemas := ten.schemas, tables := ten.tables.filter (· != (s, t)),
        columns := ten.columns.filter fun c => (c.schema, c.table) != (s, t),
        foreignKeys := ten.foreignKeys.filter fun fk => (fk.schema, fk.table) != (s, t) } := by
  refine ⟨fun x hx => ?_, fun x hx => ?_, hv.columnKeys.filter _, fun fk hfk => ?_⟩
  · exact hv.table_schema x (List.mem_filter.1 hx).1
  · obtain ⟨hx, hne⟩ := List.mem_filter.1 hx
    exact List.mem_filter.2 ⟨hv.column_table x hx, hne⟩
  · obtain ⟨hfk, hne⟩ := List.mem_filter.1 hfk
    refine refersTo_filter _ rfl (hv.refersTo fk hfk) ?_ ?_
    · rintro c ⟨h1, h2, -⟩
      rw [h1, h2]
      exact hne
    · -- the table it refers to is another one, or it would be on that table itself
      rintro c ⟨h1, h2, -⟩
      rw [h1, h2, bne_iff_ne]
      intro heq
      obtain ⟨hs, ht⟩ := Prod.mk.inj heq
      rw [bne_iff_ne] at hne
      exact hne (by rw [href fk hfk hs ht, hs])

theorem referencedColumn_eq_false {s : SchemaName} {t n : String} :
    ten.referencedColumn s t n = false ↔ ∀ fk ∈ ten.foreignKeys, fk.schema = s → fk.refTable = t →
      fk.refColumn = n → fk.table = t ∧ fk.column = n := by
  simp only [referencedColumn, List.any_eq_false, Bool.and_eq_true, beq_iff_eq,
    Bool.not_eq_true', Bool.and_eq_false_iff, not_and, not_or, beq_eq_false_iff_ne, ne_eq,
    not_not]
  exact ⟨fun h fk hfk h1 h2 h3 => h fk hfk ⟨⟨h1, h2⟩, h3⟩,
    fun h fk hfk h1 => h fk hfk h1.1.1 h1.1.2 h1.2⟩

theorem Valid.dropColumn (hv : ten.Valid) {s : SchemaName} {t n : String}
    (href : ten.referencedColumn s t n = false) :
    Valid
      { ten with
        columns := ten.columns.filter fun x => (x.schema, x.table, x.name) != (s, t, n),
        foreignKeys := ten.foreignKeys.filter fun fk =>
          (fk.schema, fk.table, fk.column) != (s, t, n) } := by
  refine ⟨hv.table_schema, fun x hx => ?_, hv.columnKeys.filter _, fun fk hfk => ?_⟩
  · exact hv.column_table x (List.mem_filter.1 hx).1
  · obtain ⟨hfk, hne⟩ := List.mem_filter.1 hfk
    refine refersTo_filter _ rfl (hv.refersTo fk hfk) ?_ ?_
    · rintro c ⟨h1, h2, h3⟩
      rw [h1, h2, h3]
      exact hne
    · -- a key that refers to the dropped column is on that column, and is dropped with it
      rintro c ⟨h1, h2, h3⟩
      rw [h1, h2, h3, bne_iff_ne]
      intro heq
      simp only [Prod.mk.injEq] at heq
      obtain ⟨hs, ht, hn⟩ := heq
      obtain ⟨ht', hn'⟩ := referencedColumn_eq_false.1 href fk hfk hs ht hn
      rw [bne_iff_ne] at hne
      exact hne (by rw [hs, ht', hn'])

/-- Whatever statement PostgreSQL accepts, the schema stays valid. -/
theorem Valid.exec (hv : ten.Valid) {d : Ddl} (h : ten.exec d = some ten') : ten'.Valid := by
  cases d with
  | createSchema s =>
    obtain ⟨-, rfl⟩ := exec_createSchema h
    exact ⟨fun x hx => List.mem_append_left _ (hv.table_schema x hx), hv.column_table,
      hv.columnKeys, hv.refersTo⟩
  | dropSchemaCascade s =>
    obtain ⟨-, rfl⟩ := exec_dropSchemaCascade.1 h
    exact hv.dropSchemaCascade s
  | createTable s t =>
    obtain ⟨hs, ht, rfl⟩ := exec_createTable h
    exact hv.createTable hs ht
  | dropTable s t =>
    obtain ⟨⟨-, href⟩, rfl⟩ := exec_dropTable.1 h
    exact hv.dropTable href
  | addColumn c =>
    obtain ⟨ht, hnew, rfl⟩ := exec_addColumn h
    have hkey : ∀ x ∈ ten.columns, (x.schema, x.table, x.name) ≠ (c.schema, c.table, c.name) := by
      intro x hx heq
      simp only [Prod.mk.injEq] at heq
      exact hnew x hx heq
    refine ⟨hv.table_schema, fun x hx => ?_, hv.columnKeys.concat hkey, fun fk hfk => ?_⟩
    · rcases mem_concat.1 hx with hx | rfl
      · exact hv.column_table x hx
      · exact ht
    · exact refersTo_mono (fun c hc => List.mem_append_left _ hc) (hv.refersTo fk hfk)
  | dropColumn s t n =>
    obtain ⟨⟨-, href⟩, rfl⟩ := exec_dropColumn.1 h
    exact hv.dropColumn href
  | addForeignKey fk =>
    obtain ⟨href, -, rfl⟩ := exec_addForeignKey h
    refine ⟨hv.table_schema, hv.column_table, hv.columnKeys, fun x hx => ?_⟩
    rcases mem_concat.1 hx with hx | rfl
    · exact hv.refersTo x hx
    · exact href
  | dropConstraint s t n =>
    obtain ⟨-, rfl⟩ := exec_dropConstraint.1 h
    exact ⟨hv.table_schema, hv.column_table, hv.columnKeys,
      fun x hx => hv.refersTo x (List.mem_filter.1 hx).1⟩

/-! ## Compensation -/

/-- Dropping the schema undoes its creation. -/
theorem undo_createSchema (hv : ten.Valid) {s : SchemaName}
    (h : ten.exec (.createSchema s) = some ten') : ten'.exec (.dropSchemaCascade s) = some ten := by
  obtain ⟨hs, rfl⟩ := exec_createSchema h
  have htables : ∀ x ∈ ten.tables, (x.1 != s) = true := by
    intro x hx
    rw [bne_iff_ne]
    exact fun heq => hs (heq ▸ hv.table_schema x hx)
  have hschemas : (ten.schemas ++ [s]).filter (· != s) = ten.schemas := by
    refine filter_concat (fun x hx => ?_) (by simp)
    rw [bne_iff_ne]
    exact fun heq => hs (heq ▸ hx)
  have hcolumns : ten.columns.filter (·.schema != s) = ten.columns :=
    List.filter_eq_self.2 fun x hx => htables _ (hv.column_table x hx)
  have hfks : ten.foreignKeys.filter (·.schema != s) = ten.foreignKeys :=
    List.filter_eq_self.2 fun x hx => htables _ (hv.table_of_fk hx)
  refine exec_dropSchemaCascade.2 ⟨List.mem_append_right _ (List.mem_singleton.2 rfl), ?_⟩
  dsimp only
  rw [hschemas, List.filter_eq_self.2 htables, hcolumns, hfks]

/-- Dropping the table undoes its creation. -/
theorem undo_createTable (hv : ten.Valid) {s : SchemaName} {t : String}
    (h : ten.exec (.createTable s t) = some ten') : ten'.exec (.dropTable s t) = some ten := by
  obtain ⟨-, ht, rfl⟩ := exec_createTable h
  have hne : ∀ x ∈ ten.tables, (x != (s, t)) = true := by
    intro x hx
    rw [bne_iff_ne]
    exact fun heq => ht (heq ▸ hx)
  have hcolumns : (ten.columns ++ [idColumn s t]).filter (fun c => (c.schema, c.table) != (s, t)) =
      ten.columns :=
    filter_concat (fun x hx => hne _ (hv.column_table x hx)) (by simp [idColumn])
  have hfks : ten.foreignKeys.filter (fun fk => (fk.schema, fk.table) != (s, t)) =
      ten.foreignKeys :=
    List.filter_eq_self.2 fun x hx => hne _ (hv.table_of_fk hx)
  refine exec_dropTable.2 ⟨⟨List.mem_append_right _ (List.mem_singleton.2 rfl), ?_⟩, ?_⟩
  · rintro fk hfk rfl rfl
    exact absurd (hv.refTable_of_fk hfk) ht
  · dsimp only
    rw [filter_concat hne (by simp), hcolumns, hfks]

/-- Dropping the column undoes its addition. -/
theorem undo_addColumn (hv : ten.Valid) {c : PhysicalColumn}
    (h : ten.exec (.addColumn c) = some ten') :
    ten'.exec (.dropColumn c.schema c.table c.name) = some ten := by
  obtain ⟨-, hnew, rfl⟩ := exec_addColumn h
  have hcolumns : (ten.columns ++ [c]).filter
      (fun x => (x.schema, x.table, x.name) != (c.schema, c.table, c.name)) = ten.columns := by
    refine filter_concat (fun x hx => ?_) (by simp)
    rw [bne_iff_ne]
    intro heq
    simp only [Prod.mk.injEq] at heq
    exact hnew x hx heq
  have hfks : ten.foreignKeys.filter
      (fun fk => (fk.schema, fk.table, fk.column) != (c.schema, c.table, c.name)) =
        ten.foreignKeys := by
    refine List.filter_eq_self.2 fun fk hfk => ?_
    rw [bne_iff_ne]
    intro heq
    simp only [Prod.mk.injEq] at heq
    obtain ⟨x, hx, hat⟩ := hv.column_of_fk hfk
    rw [heq.1, heq.2.1, heq.2.2] at hat
    exact hnew x hx hat
  have href : referencedColumn { ten with columns := ten.columns ++ [c] } c.schema c.table c.name =
      false := by
    refine referencedColumn_eq_false.2 ?_
    intro fk hfk h1 h2 h3
    obtain ⟨x, hx, hat⟩ := hv.refColumn_of_fk hfk
    rw [h1, h2, h3] at hat
    exact absurd hat (hnew x hx)
  refine exec_dropColumn.2
    ⟨⟨⟨c, List.mem_append_right _ (List.mem_singleton.2 rfl), rfl, rfl, rfl⟩, href⟩, ?_⟩
  dsimp only
  rw [hcolumns, hfks]

/-- Dropping the constraint undoes its addition. -/
theorem undo_addForeignKey {fk : PhysicalForeignKey}
    (h : ten.exec (.addForeignKey fk) = some ten') :
    ten'.exec (.dropConstraint fk.schema fk.table fk.name) = some ten := by
  obtain ⟨-, hnew, rfl⟩ := exec_addForeignKey h
  have hfks : (ten.foreignKeys ++ [fk]).filter
      (fun x => (x.schema, x.table, x.name) != (fk.schema, fk.table, fk.name)) =
        ten.foreignKeys := by
    refine filter_concat (fun x hx => ?_) (by simp)
    rw [bne_iff_ne]
    intro heq
    simp only [Prod.mk.injEq] at heq
    exact hnew x hx heq
  refine exec_dropConstraint.2 ⟨⟨fk, List.mem_append_right _ (List.mem_singleton.2 rfl), rfl⟩, ?_⟩
  dsimp only
  rw [hfks]

end Tenant

end Databases
