import IntraCloud.Databases.Proofs.TenantProofs

/-!
# A view of the tables and columns

The tenant database matches a set of table rows and a set of column rows when its tables and columns are
those the rows describe. Each DDL statement that is accepted changes the view by the row it is about.
-/

namespace Databases

open Relational

/-- The tables and columns of the tenant database are those of the rows `T` and `C`; a column row
counts where its table does. -/
structure Matches (T : DBTable → Prop) (C : DBColumn → Prop) (ten : Tenant) : Prop where
  ids : ∀ a b, T a → T b → a.id = b.id → a = b
  names : ∀ a b, T a → T b → a.physical = b.physical → a = b
  columnNames : ∀ t a b, T t → C a → C b → a.table = t.id → b.table = t.id → a.name = b.name → a = b
  tables : ∀ y, y ∈ ten.tables ↔ ∃ t, T t ∧ t.physical = y
  columns : ∀ y, y ∈ ten.columns ↔ ∃ t c, T t ∧ C c ∧ c.table = t.id ∧ t.physicalColumn c = y

namespace Matches

variable {T : DBTable → Prop} {C : DBColumn → Prop} {ten ten' : Tenant}

theorem congr {T' : DBTable → Prop} {C' : DBColumn → Prop} (h : Matches T C ten)
    (hT : ∀ t, T' t ↔ T t) (hC : ∀ t c, T t → c.table = t.id → (C' c ↔ C c)) :
    Matches T' C' ten := by
  obtain rfl : T' = T := funext fun t => propext (hT t)
  refine ⟨h.ids, h.names, fun t a b ht ha hb hat hbt hname => ?_, h.tables, fun y => ?_⟩
  · exact h.columnNames t a b ht ((hC t a ht hat).1 ha) ((hC t b ht hbt).1 hb) hat hbt hname
  · rw [h.columns y]
    constructor
    · rintro ⟨t, c, ht, hc, hlink, rfl⟩
      exact ⟨t, c, ht, (hC t c ht hlink).2 hc, hlink, rfl⟩
    · rintro ⟨t, c, ht, hc, hlink, rfl⟩
      exact ⟨t, c, ht, (hC t c ht hlink).1 hc, hlink, rfl⟩

/-- Constraints are no part of the view. -/
theorem of_eq (h : Matches T C ten) (htables : ten'.tables = ten.tables)
    (hcolumns : ten'.columns = ten.columns) : Matches T C ten' :=
  { h with
    tables := fun y => by rw [htables]; exact h.tables y
    columns := fun y => by rw [hcolumns]; exact h.columns y }

theorem physical_mem (h : Matches T C ten) {t : DBTable} (ht : T t) : t.physical ∈ ten.tables :=
  (h.tables _).2 ⟨t, ht, rfl⟩

theorem column_mem (h : Matches T C ten) {t : DBTable} {c : DBColumn} (ht : T t) (hc : C c)
    (hlink : c.table = t.id) : t.physicalColumn c ∈ ten.columns :=
  (h.columns _).2 ⟨t, c, ht, hc, hlink, rfl⟩

theorem createTable (h : Matches T C ten) {t : DBTable} {pk : DBColumn}
    (hid : ∀ a, T a → a.id ≠ t.id) (hC : ∀ c, C c → c.table ≠ t.id) (hlink : pk.table = t.id)
    (hcol : t.physicalColumn pk = Tenant.idColumn ⟨t.tenantDatabase⟩ t.name)
    (hexec : ten.exec (.createTable ⟨t.tenantDatabase⟩ t.name) = some ten') :
    Matches (fun a => T a ∨ a = t) (fun c => C c ∨ c = pk) ten' := by
  obtain ⟨-, hnew, rfl⟩ := Tenant.exec_createTable hexec
  have hname : ∀ a, T a → a.physical ≠ t.physical := by
    intro a ha heq
    exact hnew ((h.tables _).2 ⟨a, ha, heq⟩)
  refine ⟨?_, ?_, ?_, fun y => ?_, fun y => ?_⟩
  · -- ids
    rintro a b (ha | rfl) (hb | rfl) heq
    · exact h.ids a b ha hb heq
    · exact absurd heq (hid a ha)
    · exact absurd heq.symm (hid b hb)
    · rfl
  · -- names
    rintro a b (ha | rfl) (hb | rfl) heq
    · exact h.names a b ha hb heq
    · exact absurd heq (hname a ha)
    · exact absurd heq.symm (hname b hb)
    · rfl
  · -- columnNames
    rintro x a b (hx | rfl) (ha | rfl) (hb | rfl) hax hbx heq
    · exact h.columnNames x a b hx ha hb hax hbx heq
    · exact absurd (hbx.symm.trans hlink) (hid x hx)
    · exact absurd (hax.symm.trans hlink) (hid x hx)
    · rfl
    · exact absurd hax (hC a ha)
    · exact absurd hax (hC a ha)
    · exact absurd hbx (hC b hb)
    · rfl
  · -- tables
    rw [mem_concat, h.tables y]
    constructor
    · rintro (⟨a, ha, rfl⟩ | rfl)
      · exact ⟨a, Or.inl ha, rfl⟩
      · exact ⟨t, Or.inr rfl, rfl⟩
    · rintro ⟨a, ha | rfl, rfl⟩
      · exact Or.inl ⟨a, ha, rfl⟩
      · exact Or.inr rfl
  · -- columns
    rw [mem_concat, h.columns y, ← hcol]
    constructor
    · rintro (⟨a, c, ha, hc, hac, rfl⟩ | rfl)
      · exact ⟨a, c, Or.inl ha, Or.inl hc, hac, rfl⟩
      · exact ⟨t, pk, Or.inr rfl, Or.inr rfl, hlink, rfl⟩
    · rintro ⟨a, c, ha | rfl, hc | rfl, hac, rfl⟩
      · exact Or.inl ⟨a, c, ha, hc, hac, rfl⟩
      · exact absurd (hac.symm.trans hlink) (hid a ha)
      · exact absurd hac (hC c hc)
      · exact Or.inr rfl

theorem dropTable (h : Matches T C ten) {t : DBTable} (ht : T t)
    (hexec : ten.exec (.dropTable ⟨t.tenantDatabase⟩ t.name) = some ten') :
    Matches (fun a => T a ∧ a ≠ t) C ten' := by
  obtain ⟨-, rfl⟩ := Tenant.exec_dropTable.1 hexec
  refine ⟨fun a b ha hb => h.ids a b ha.1 hb.1, fun a b ha hb => h.names a b ha.1 hb.1,
    fun x a b hx => h.columnNames x a b hx.1, fun y => ?_, fun y => ?_⟩
  · -- tables
    rw [List.mem_filter, h.tables y, bne_iff_ne]
    constructor
    · rintro ⟨⟨a, ha, rfl⟩, hne⟩
      exact ⟨a, ⟨ha, fun heq => hne (by rw [heq]; rfl)⟩, rfl⟩
    · rintro ⟨a, ⟨ha, hne⟩, rfl⟩
      exact ⟨⟨a, ha, rfl⟩, fun heq => hne (h.names a t ha ht heq)⟩
  · -- columns
    rw [List.mem_filter, h.columns y, bne_iff_ne]
    constructor
    · rintro ⟨⟨a, c, ha, hc, hac, rfl⟩, hne⟩
      exact ⟨a, c, ⟨ha, fun heq => hne (by rw [heq]; rfl)⟩, hc, hac, rfl⟩
    · rintro ⟨a, c, ⟨ha, hne⟩, hc, hac, rfl⟩
      exact ⟨⟨a, c, ha, hc, hac, rfl⟩, fun heq => hne (h.names a t ha ht heq)⟩

theorem addColumn (h : Matches T C ten) {t : DBTable} {c : DBColumn} (ht : T t)
    (hlink : c.table = t.id) (hexec : ten.exec (.addColumn (t.physicalColumn c)) = some ten') :
    Matches T (fun a => C a ∨ a = c) ten' := by
  obtain ⟨-, hnew, rfl⟩ := Tenant.exec_addColumn hexec
  have hname : ∀ x a, T x → C a → a.table = x.id → x.id = t.id → a.name ≠ c.name := by
    intro x a hx ha hax hxt heq
    obtain rfl := h.ids x t hx ht hxt
    exact hnew _ (h.column_mem hx ha hax) ⟨rfl, rfl, heq⟩
  refine ⟨h.ids, h.names, ?_, h.tables, fun y => ?_⟩
  · -- columnNames
    rintro x a b hx (ha | rfl) (hb | rfl) hax hbx heq
    · exact h.columnNames x a b hx ha hb hax hbx heq
    · exact absurd heq (hname x a hx ha hax (hbx.symm.trans hlink))
    · exact absurd heq.symm (hname x b hx hb hbx (hax.symm.trans hlink))
    · rfl
  · -- columns
    rw [mem_concat, h.columns y]
    constructor
    · rintro (⟨x, a, hx, ha, hax, rfl⟩ | rfl)
      · exact ⟨x, a, hx, Or.inl ha, hax, rfl⟩
      · exact ⟨t, c, ht, Or.inr rfl, hlink, rfl⟩
    · rintro ⟨x, a, hx, ha | rfl, hax, rfl⟩
      · exact Or.inl ⟨x, a, hx, ha, hax, rfl⟩
      · rw [h.ids x t hx ht (hax.symm.trans hlink)]
        exact Or.inr rfl

theorem dropColumn (h : Matches T C ten) {t : DBTable} {c : DBColumn} (ht : T t) (hc : C c)
    (hlink : c.table = t.id)
    (hexec : ten.exec (.dropColumn ⟨t.tenantDatabase⟩ t.name c.name) = some ten') :
    Matches T (fun a => C a ∧ a ≠ c) ten' := by
  obtain ⟨-, rfl⟩ := Tenant.exec_dropColumn.1 hexec
  refine ⟨h.ids, h.names, fun x a b hx ha hb => h.columnNames x a b hx ha.1 hb.1, h.tables,
    fun y => ?_⟩
  rw [List.mem_filter, h.columns y, bne_iff_ne]
  constructor
  · rintro ⟨⟨x, a, hx, ha, hax, rfl⟩, hne⟩
    refine ⟨x, a, hx, ⟨ha, fun heq => hne ?_⟩, hax, rfl⟩
    rw [heq, h.ids x t hx ht (hax.symm.trans (heq ▸ hlink))]
    rfl
  · rintro ⟨x, a, hx, ⟨ha, hne⟩, hax, rfl⟩
    refine ⟨⟨x, a, hx, ha, hax, rfl⟩, fun heq => hne ?_⟩
    simp only [DBTable.physicalColumn, Prod.mk.injEq] at heq
    have hxt : x = t := h.names x t hx ht (Prod.ext heq.1 heq.2.1)
    subst hxt
    exact h.columnNames x a c hx ha hc hax hlink heq.2.2

end Matches

end Databases
