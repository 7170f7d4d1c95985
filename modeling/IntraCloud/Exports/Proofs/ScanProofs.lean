import IntraCloud.Databases.Proofs.AgreementProofs
import IntraCloud.Exports.Scan
import IntraCloud.Transition.Proofs.RunsProofs

/-!
# Whether the exported rows are closed under the foreign keys

What the export has read, put together with what it would read now of the other tables, stays closed under
the foreign keys as long as no write comes in between that disturbs it; at the end this is the package.
-/

namespace Exports

open Databases Relational Transition

theorem Reachable.wellFormed {cat : Catalog} (h : Reachable cat) : ∃ fresh, WellFormed cat fresh := by
  obtain ⟨s, as, hcat, hten, rfl⟩ := h
  have hstart : Databases.Sound s := ⟨hcat ▸ wellFormed_empty _, hten ▸ Tenant.valid_empty⟩
  exact ⟨_, (run_invariant_of_forall (fun _ a => sound_step a) hstart as).wellFormed⟩

/-! ## The foreign keys of the package -/

section Catalog

variable {cat : Catalog} {fresh : Uuid}

theorem tableName_eq (hw : WellFormed cat fresh) {t : DBTable} (ht : t ∈ cat.tables) :
    tableName cat t.id = t.name := by
  rw [tableName, hw.tableIds.find?_eq ht]
  rfl

theorem tableOfColumn_eq (hw : WellFormed cat fresh) {c : DBColumn} (hc : c ∈ cat.columns) :
    tableOfColumn cat c.id = some c.table := by
  rw [tableOfColumn, hw.columnIds.find?_eq hc]
  rfl

theorem mem_exportedTables {databases : List TenantDatabase} {t : DBTable} :
    t ∈ exportedTables cat databases ↔ t ∈ cat.tables ∧ ∃ d ∈ databases, t.tenantDatabase = d.id := by
  simp only [exportedTables, List.mem_flatMap, List.mem_filter, beq_iff_eq]
  constructor
  · rintro ⟨d, hd, ht, heq⟩
    exact ⟨ht, d, hd, heq⟩
  · rintro ⟨ht, d, hd, heq⟩
    exact ⟨d, hd, ht, heq⟩

theorem mem_exportedKeys {databases : List TenantDatabase} {key : TenantKey} :
    key ∈ exportedKeys cat databases ↔ ∃ t ∈ exportedTables cat databases, ∃ fk ∈ foreignKeysOf cat t.id,
      exportedKey t (foreignKeyContent cat fk) = key := by
  simp only [exportedKeys, List.mem_flatMap, List.mem_map]

theorem exportedKeys_subset {databases databases' : List TenantDatabase}
    (hsub : ∀ d ∈ databases, d ∈ databases') {key : TenantKey} (hkey : key ∈ exportedKeys cat databases) :
    key ∈ exportedKeys cat databases' := by
  rw [mem_exportedKeys] at hkey ⊢
  obtain ⟨t, ht, fk, hfk, heq⟩ := hkey
  obtain ⟨hmem, d, hd, hdb⟩ := mem_exportedTables.mp ht
  exact ⟨t, mem_exportedTables.mpr ⟨hmem, d, hsub d hd, hdb⟩, fk, hfk, heq⟩

/-- The package has the table of an exported foreign key, and the table it references. -/
theorem tables_of_exportedKey (hw : WellFormed cat fresh) {databases : List TenantDatabase}
    {key : TenantKey} (hkey : key ∈ exportedKeys cat databases) :
    key.table ∈ (exportedTables cat databases).map (·.physical) ∧
      key.refTable ∈ (exportedTables cat databases).map (·.physical) := by
  obtain ⟨t, ht, fk, hfk, rfl⟩ := mem_exportedKeys.mp hkey
  obtain ⟨htable, d, hd, hdb⟩ := mem_exportedTables.mp ht
  obtain ⟨hfk, hcolumn⟩ := List.mem_filter.mp hfk
  obtain ⟨c, t', rt, rc, hresolves, hsame⟩ := hw.resolves fk hfk
  have htableId : t'.id = t.id := by
    rw [← hresolves.column_id, tableOfColumn_eq hw hresolves.column_mem, beq_iff_eq,
      Option.some.injEq] at hcolumn
    rw [hresolves.table_id, hcolumn]
  obtain rfl := hw.tableIds t' hresolves.table_mem t htable htableId
  have hrt : rt ∈ exportedTables cat databases :=
    mem_exportedTables.mpr ⟨hresolves.refTable_mem, d, hd, hsame.trans hdb⟩
  refine ⟨List.mem_map.mpr ⟨t', ht, rfl⟩, List.mem_map.mpr ⟨rt, hrt, ?_⟩⟩
  have hname : tableName cat fk.referencesTable = rt.name := by
    rw [← hresolves.refTable_id]
    exact tableName_eq hw hresolves.refTable_mem
  simp only [exportedKey, foreignKeyContent, hname, DBTable.physical, hsame]

end Catalog

/-! ## One step -/

section Step

variable {ν : Type} {V : ValueType ν} {cat : Catalog} {databases : List TenantDatabase}

/-- The tables are read or still to be read, all rows are closed under the foreign keys, and so are the
exported ones together with those still to be read. -/
structure ScanInv (V : ValueType ν) (cat : Catalog) (databases : List TenantDatabase)
    (s : Scan ν) : Prop where
  sound : s.rows.Sound V (exportedKeys cat cat.databases)
  covered : ∀ t ∈ (exportedTables cat databases).map (·.physical),
    (s.copied t).isSome = true ∨ t ∈ s.pending
  closed : V.values.Closed ((exportedKeys cat databases).map (·.toForeignKey))
    (patchwork s.copied s.rows.ofTable)

theorem mem_orderById {rows : List (Row ν)} {r : Row ν} : r ∈ orderById rows ↔ r ∈ rows :=
  List.mem_insertionSort _

theorem copied_read (V : ValueType ν) (cat : Catalog) {s : Scan ν} {t : TableKey} {pending : List TableKey}
    (hs : s.pending = t :: pending) (u : TableKey) :
    (s.step V cat .read).copied u =
      (s.copied u).or (if t = u then some (orderById (s.rows.ofTable t)) else none) := by
  simp only [Scan.step, hs, Scan.copied, List.find?_append, List.find?_singleton]
  by_cases htu : t = u
  · subst htu
    cases s.exported.find? (fun entry => entry.1 == t) <;> simp
  · cases s.exported.find? (fun entry => entry.1 == u) <;> simp [htu]

theorem ScanInv.read {s : Scan ν} (h : ScanInv V cat databases s) :
    ScanInv V cat databases (s.step V cat .read) := by
  cases hs : s.pending with
  | nil =>
    have heq : s.step V cat .read = s := by simp only [Scan.step, hs]
    rw [heq]
    exact h
  | cons t pending =>
    have hrows : (s.step V cat .read).rows = s.rows := by simp only [Scan.step, hs]
    have hpending : (s.step V cat .read).pending = pending := by simp only [Scan.step, hs]
    have hcopied := copied_read V cat hs
    refine ⟨?_, ?_, ?_⟩
    · rw [hrows]
      exact h.sound
    · intro u hu
      rw [hcopied, hpending]
      rcases h.covered u hu with hcopy | hmem
      · left
        rw [Option.isSome_or, hcopy, Bool.true_or]
      · rw [hs] at hmem
        rcases List.mem_cons.mp hmem with rfl | hmem
        · left
          rw [if_pos rfl, Option.isSome_or, Option.isSome_some, Bool.or_true]
        · exact .inr hmem
    · refine h.closed.congr ?_
      intro u r
      rw [hrows, patchwork, patchwork, hcopied]
      cases hu : s.copied u with
      | some copy => rfl
      | none =>
        by_cases htu : t = u
        · subst htu
          rw [if_pos rfl]
          exact mem_orderById.symm
        · rw [if_neg htu]
          rfl

theorem ScanInv.write {s : Scan ν} (h : ScanInv V cat databases s)
    (hsub : ∀ d ∈ databases, d ∈ cat.databases) {w : RowWrite ν}
    (hw : Undisturbed V cat (exportedKeys cat databases) s (.write w)) :
    ScanInv V cat databases (s.step V cat (.write w)) := by
  have hsound := RowWrite.sound_apply h.sound w
  have hclosed : V.values.Closed ((exportedKeys cat databases).map (·.toForeignKey))
      (w.apply V (exportedKeys cat cat.databases) s.rows).ofTable := by
    intro fk hfk r hr
    obtain ⟨key, hkey, rfl⟩ := List.mem_map.mp hfk
    exact hsound _ (List.mem_map.mpr ⟨key, exportedKeys_subset hsub hkey, rfl⟩) r hr
  exact ⟨hsound, h.covered, (closed_patchwork_iff hclosed h.closed).mpr hw⟩

theorem ScanInv.step {s : Scan ν} (h : ScanInv V cat databases s)
    (hsub : ∀ d ∈ databases, d ∈ cat.databases) {e : Event ν}
    (he : Undisturbed V cat (exportedKeys cat databases) s e) :
    ScanInv V cat databases (s.step V cat e) := by
  cases e with
  | read => exact h.read
  | write w => exact h.write hsub he

theorem ScanInv.start {rows : TenantRows ν} (hsound : rows.Sound V (exportedKeys cat cat.databases))
    (hsub : ∀ d ∈ databases, d ∈ cat.databases) :
    ScanInv V cat databases (Scan.start cat databases rows) := by
  refine ⟨hsound, fun t ht => .inr ht, ?_⟩
  intro fk hfk r hr
  obtain ⟨key, hkey, rfl⟩ := List.mem_map.mp hfk
  exact hsound _ (List.mem_map.mpr ⟨key, exportedKeys_subset hsub hkey, rfl⟩) r hr

theorem ScanInv.consistent {fresh : Uuid} {s : Scan ν} (h : ScanInv V cat databases s)
    (hw : WellFormed cat fresh) : s.Consistent V (exportedKeys cat databases) := by
  intro hdone fk hfk r hr
  have hcopied : ∀ t ∈ (exportedTables cat databases).map (·.physical),
      s.exportedRows t = patchwork s.copied s.rows.ofTable t := by
    intro t ht
    have hsome := (h.covered t ht).resolve_right (by rw [hdone]; exact List.not_mem_nil)
    obtain ⟨copy, hcopy⟩ := Option.isSome_iff_exists.mp hsome
    rw [patchwork_copied hcopy, Scan.exportedRows, hcopy, Option.getD_some]
  obtain ⟨key, hkey, rfl⟩ := List.mem_map.mp hfk
  obtain ⟨htable, hrefTable⟩ := tables_of_exportedKey hw hkey
  rw [hcopied _ htable] at hr
  rw [hcopied _ hrefTable]
  exact h.closed _ (List.mem_map.mpr ⟨key, hkey, rfl⟩) r hr

end Step

/-! ## Whole exports -/

/-- In every run in which no write disturbs the reads, the package is closed under its foreign keys. -/
theorem consistent_of_undisturbed {ν : Type} (V : ValueType ν) {cat : Catalog} (hcat : Reachable cat)
    (databases : List TenantDatabase) (hsub : ∀ d ∈ databases, d ∈ cat.databases) (rows : TenantRows ν)
    (hsound : rows.Sound V (exportedKeys cat cat.databases)) (events : List (Event ν))
    (h : Always (Scan.step V cat) (Undisturbed V cat (exportedKeys cat databases))
      (Scan.start cat databases rows) events) :
    (run (Scan.step V cat) (Scan.start cat databases rows) events).Consistent V
      (exportedKeys cat databases) := by
  obtain ⟨fresh, hw⟩ := hcat.wellFormed
  have hstart := ScanInv.start hsound hsub
  have hinv := run_invariant (I := ScanInv V cat databases) (fun s e hs he => hs.step hsub he) hstart h
  exact hinv.consistent hw

/-- Numbers for values. -/
def numbers : ValueType Nat := ⟨id, (· == ·), Python.natText⟩

/-- A table of people with a unique code, and one of orders whose `person` references it. -/
def peopleAndOrders : Catalog :=
  (run Databases.step emptyProject (twoTables ++ [ask (.addForeignKey 106 108 102 104 .restrict)])).catalog

theorem reachable_peopleAndOrders : Reachable peopleAndOrders :=
  ⟨emptyProject, twoTables ++ [ask (.addForeignKey 106 108 102 104 .restrict)], rfl, rfl, rfl⟩

def people : TableKey := (⟨100⟩, "people")

def orders : TableKey := (⟨100⟩, "orders")

example : (exportedTables peopleAndOrders peopleAndOrders.databases).map (·.physical) = [people, orders] := by
  decide

/-- An order that comes between the two reads refers to a person whom the export has. -/
def orderBetween : List (Event Nat) :=
  [.read, .write (.insert orders ⟨2, [("person", 7)]⟩), .read]

theorem consistent_of_undisturbed_order :
    (run (Scan.step numbers peopleAndOrders)
      (Scan.start peopleAndOrders peopleAndOrders.databases [(people, ⟨1, [("code", 7)]⟩)])
      orderBetween).Consistent numbers (exportedKeys peopleAndOrders peopleAndOrders.databases) := by
  have hharmless : Undisturbed numbers peopleAndOrders (exportedKeys peopleAndOrders peopleAndOrders.databases)
      ((Scan.start peopleAndOrders peopleAndOrders.databases [(people, ⟨1, [("code", 7)]⟩)]).step numbers
        peopleAndOrders .read) (.write (.insert orders ⟨2, [("person", 7)]⟩)) :=
    (closed_patchwork_iff (by decide) (by decide)).mp (by decide)
  exact consistent_of_undisturbed numbers reachable_peopleAndOrders _ (fun _ hd => hd) _ (by decide) orderBetween
    ⟨trivial, hharmless, trivial, trivial⟩

/-- A person and an order for that person come between the two reads: the package has the order alone. -/
theorem not_consistent_of_inserts :
    ¬ ∀ (V : ValueType Nat) (cat : Catalog), Reachable cat → ∀ (rows : TenantRows Nat),
      rows.Sound V (exportedKeys cat cat.databases) → ∀ events : List (Event Nat),
        (run (Scan.step V cat) (Scan.start cat cat.databases rows) events).Consistent V
          (exportedKeys cat cat.databases) := by
  intro h
  have hconsistent := h numbers peopleAndOrders reachable_peopleAndOrders [] (by decide)
    [.read, .write (.insert people ⟨1, [("code", 7)]⟩), .write (.insert orders ⟨2, [("person", 7)]⟩), .read]
    (by decide)
  revert hconsistent
  decide

end Exports
