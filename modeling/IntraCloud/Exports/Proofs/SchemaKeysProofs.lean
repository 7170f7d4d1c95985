import IntraCloud.Exports.Proofs.SchemaRestoreProofs

/-!
# Foreign keys of a restored schema

A foreign key comes back as it was exactly if the column it references is one of the table it references: in a
package it names its rows, and the column is looked up under the name of the table.
-/

namespace Exports

open Audit Databases Organizations Permissions Relational Transition

/-! ## Rows by name -/

section Lookup

variable {actor organization : Uuid} {s₀ s : State} {d : TenantDatabase} {placed : List (DBTable × List DBColumn)}
  {refs : Refs}

theorem Made.eq_of_columnName (h : Made actor organization s₀ d placed s refs) {p : DBTable × List DBColumn}
    (hp : p ∈ placed) {c c' : DBColumn} (hc : c ∈ p.2) (hc' : c' ∈ p.2) (hname : c.name = c'.name) : c = c' := by
  refine h.sound.wellFormed.columnNames c (h.mem_columns hp hc) c' (h.mem_columns hp hc') ?_
  show (c.table, c.name) = (c'.table, c'.name)
  rw [(h.own p hp).2 c hc, (h.own p hp).2 c' hc', hname]

theorem Made.table?_eq (h : Made actor organization s₀ d placed s refs) {p : DBTable × List DBColumn}
    (hp : p ∈ placed) : refs.table? p.1.name = some p.1 := by
  have hkeyed : Keyed (fun entry : String × DBTable => entry.1) refs.tables := by
    rw [h.refTables]
    intro a ha b hb hab
    obtain ⟨q, hq, rfl⟩ := List.mem_map.mp (List.mem_reverse.mp ha)
    obtain ⟨r, hr, rfl⟩ := List.mem_map.mp (List.mem_reverse.mp hb)
    rw [h.eq_of_name hq hr hab]
  have hmem : (p.1.name, p.1) ∈ refs.tables := by
    rw [h.refTables]
    exact List.mem_reverse.mpr (List.mem_map_of_mem hp)
  rw [Refs.table?, hkeyed.find?_eq hmem]
  rfl

theorem Made.table?_some (h : Made actor organization s₀ d placed s refs) {name : String} {t : DBTable}
    (ht : refs.table? name = some t) : ∃ p ∈ placed, p.1 = t ∧ t.name = name := by
  obtain ⟨entry, hentry, rfl⟩ := Option.map_eq_some_iff.mp ht
  have hname := List.find?_some hentry
  have hmem := List.mem_of_find?_eq_some hentry
  rw [h.refTables] at hmem
  obtain ⟨p, hp, rfl⟩ := List.mem_map.mp (List.mem_reverse.mp hmem)
  exact ⟨p, hp, rfl, eq_of_beq hname⟩

theorem Made.column?_eq (h : Made actor organization s₀ d placed s refs) {p : DBTable × List DBColumn}
    (hp : p ∈ placed) {c : DBColumn} (hc : c ∈ p.2) : refs.column? p.1.name c.name = some c := by
  have hkeyed : Keyed (fun entry : (String × String) × DBColumn => entry.1) refs.columns := by
    rw [h.refColumns]
    intro a ha b hb hab
    obtain ⟨q, hq, ha⟩ := List.mem_flatMap.mp (List.mem_reverse.mp ha)
    obtain ⟨c₁, hc₁, rfl⟩ := List.mem_map.mp ha
    obtain ⟨r, hr, hb⟩ := List.mem_flatMap.mp (List.mem_reverse.mp hb)
    obtain ⟨c₂, hc₂, rfl⟩ := List.mem_map.mp hb
    obtain ⟨htable, hname⟩ := Prod.mk.inj hab
    obtain rfl := h.eq_of_name hq hr htable
    rw [h.eq_of_columnName hq hc₁ hc₂ hname]
  have hmem : ((p.1.name, c.name), c) ∈ refs.columns := by
    rw [h.refColumns]
    exact List.mem_reverse.mpr (List.mem_flatMap.mpr ⟨p, hp, List.mem_map_of_mem hc⟩)
  have hsame : (fun entry : (String × String) × DBColumn => entry.1 == (p.1.name, c.name)) =
      fun entry => decide (entry.1 = (p.1.name, c.name)) := by
    funext entry
    rw [Bool.eq_iff_iff, beq_iff_eq, decide_eq_true_eq]
  rw [Refs.column?, hsame]
  exact congrArg (Option.map (·.2)) (hkeyed.find?_eq hmem)

theorem Made.column?_some (h : Made actor organization s₀ d placed s refs) {table name : String} {c : DBColumn}
    (hc : refs.column? table name = some c) : ∃ p ∈ placed, c ∈ p.2 ∧ p.1.name = table ∧ c.name = name := by
  obtain ⟨entry, hentry, rfl⟩ := Option.map_eq_some_iff.mp hc
  have hname := List.find?_some hentry
  have hmem := List.mem_of_find?_eq_some hentry
  rw [h.refColumns] at hmem
  obtain ⟨p, hp, hin⟩ := List.mem_flatMap.mp (List.mem_reverse.mp hmem)
  obtain ⟨c', hc', rfl⟩ := List.mem_map.mp hin
  obtain ⟨htable, hsame⟩ := Prod.mk.inj (eq_of_beq hname)
  exact ⟨p, hp, hc', htable, hsame⟩

/-- The rows that an entry of `foreign_keys` names. -/
structure Resolves (placed : List (DBTable × List DBColumn)) (entry : String × ForeignKeyContent)
    (p q : DBTable × List DBColumn) (c rc : DBColumn) : Prop where
  table_mem : p ∈ placed
  table_name : p.1.name = entry.1
  column_mem : c ∈ p.2
  column_name : c.name = entry.2.column
  refTable_mem : q ∈ placed
  refTable_name : q.1.name = entry.2.referencesTable
  refColumn_mem : rc ∈ q.2
  refColumn_name : rc.name = entry.2.referencesColumn

theorem Made.resolve_eq (h : Made actor organization s₀ d placed s refs) {entry : String × ForeignKeyContent}
    {p q : DBTable × List DBColumn} {c rc : DBColumn} (hr : Resolves placed entry p q c rc) :
    refs.resolve entry = some (p.1, c, q.1, rc) := by
  have htable := h.table?_eq hr.table_mem
  have hcolumn := h.column?_eq hr.table_mem hr.column_mem
  have hrefTable := h.table?_eq hr.refTable_mem
  have hrefColumn := h.column?_eq hr.refTable_mem hr.refColumn_mem
  rw [hr.table_name] at htable
  rw [hr.table_name, hr.column_name] at hcolumn
  rw [hr.refTable_name] at hrefTable
  rw [hr.refTable_name, hr.refColumn_name] at hrefColumn
  simp [Refs.resolve, htable, hcolumn, hrefTable, hrefColumn]

theorem Made.resolve_some (h : Made actor organization s₀ d placed s refs) {entry : String × ForeignKeyContent}
    {t rt : DBTable} {c rc : DBColumn} (hr : refs.resolve entry = some (t, c, rt, rc)) :
    ∃ p q, p.1 = t ∧ q.1 = rt ∧ Resolves placed entry p q c rc := by
  simp only [Refs.resolve, Option.bind_eq_bind, Option.bind_eq_some_iff, Option.pure_def, Option.some.injEq,
    Prod.mk.injEq] at hr
  obtain ⟨t', htable, c', hcolumn, rt', hrefTable, rc', hrefColumn, rfl, rfl, rfl, rfl⟩ := hr
  obtain ⟨p, hp, rfl, hname⟩ := h.table?_some htable
  obtain ⟨p', hp', hc, hname', hcname⟩ := h.column?_some hcolumn
  obtain ⟨q, hq, rfl, hqname⟩ := h.table?_some hrefTable
  obtain ⟨q', hq', hrc, hqname', hrcname⟩ := h.column?_some hrefColumn
  obtain rfl := h.eq_of_name hp hp' (hname.trans hname'.symm)
  obtain rfl := h.eq_of_name hq hq' (hqname.trans hqname'.symm)
  exact ⟨p, q, rfl, rfl, hp, hname, hc, hcname, hq, hqname, hrc, hrcname⟩

theorem Resolves.unique {entry : String × ForeignKeyContent} {p q p' q' : DBTable × List DBColumn}
    {c rc c' rc' : DBColumn}
    (h : Made actor organization s₀ d placed s refs) (hr : Resolves placed entry p q c rc)
    (hr' : Resolves placed entry p' q' c' rc') : p = p' ∧ q = q' ∧ c = c' ∧ rc = rc' := by
  obtain rfl := h.eq_of_name hr.table_mem hr'.table_mem (hr.table_name.trans hr'.table_name.symm)
  obtain rfl := h.eq_of_name hr.refTable_mem hr'.refTable_mem (hr.refTable_name.trans hr'.refTable_name.symm)
  exact ⟨rfl, rfl,
    h.eq_of_columnName hr.table_mem hr.column_mem hr'.column_mem (hr.column_name.trans hr'.column_name.symm),
    h.eq_of_columnName hr.refTable_mem hr.refColumn_mem hr'.refColumn_mem
      (hr.refColumn_name.trans hr'.refColumn_name.symm)⟩

/-! ## The loop -/

/-- The row that is inserted for an entry. -/
structure MadeKey (placed : List (DBTable × List DBColumn)) (entry : String × ForeignKeyContent) (k : DBForeignKey) :
    Prop where
  rows : ∃ p q c rc, Resolves placed entry p q c rc ∧ k.column = c.id ∧ k.referencesTable = q.1.id ∧
    k.referencesColumn = rc.id
  onDelete : k.onDelete = entry.2.onDelete

/-- What the restore has made after the tables: foreign keys, each with its constraint. -/
structure Linked (actor organization : Uuid) (s₁ : State) (d : TenantDatabase) (keys : List DBForeignKey) (s : State) :
    Prop where
  sound : Databases.Sound s
  mayBuild : MayBuild s actor organization
  databases : s.catalog.databases = s₁.catalog.databases
  tables : s.catalog.tables = s₁.catalog.tables
  columns : s.catalog.columns = s₁.catalog.columns
  foreignKeys : s.catalog.foreignKeys = s₁.catalog.foreignKeys ++ keys
  schemas : s.tenant.schemas = s₁.tenant.schemas
  tenantColumns : s.tenant.columns = s₁.tenant.columns
  tenantKeys : ∀ x ∈ s.tenant.foreignKeys, x.schema = ⟨d.id⟩ → ∃ k ∈ keys, k.column = x.name
  next : s₁.nextUuid ≤ s.nextUuid

theorem linked_nil (h : Made actor organization s₀ d placed s refs) : Linked actor organization s d [] s :=
  ⟨h.sound, h.mayBuild, rfl, rfl, rfl, (List.append_nil _).symm, rfl, rfl,
    fun x hx hschema => absurd hschema (h.tenantKeys x hx), Nat.le_refl _⟩

variable {s₁ s' : State} {keys : List DBForeignKey} {entry : String × ForeignKeyContent} {p q : DBTable × List DBColumn}
  {c rc : DBColumn}

theorem Linked.resolved (h : Made actor organization s₀ d placed s₁ refs) (hl : Linked actor organization s₁ d keys s)
    (hr : Resolves placed entry p q c rc) :
    SchemaRequest.Resolved s (.addForeignKey 0 c.id q.1.id rc.id entry.2.onDelete)
      (addForeignKey s.nextUuid s.catalog organization c p.1 q.1 rc entry.2.onDelete) := by
  have htables : ∀ t ∈ s₁.catalog.tables, t ∈ s.catalog.tables := by
    rw [hl.tables]
    exact fun t ht => ht
  have hcolumns : ∀ c ∈ s₁.catalog.columns, c ∈ s.catalog.columns := by
    rw [hl.columns]
    exact fun c hc => hc
  exact .addForeignKey organization c p.1 q.1 rc (hcolumns _ (h.mem_columns hr.table_mem hr.column_mem)) rfl
    (htables _ (h.mem_tables hr.table_mem)) ((h.own p hr.table_mem).2 c hr.column_mem).symm
    (htables _ (h.mem_tables hr.refTable_mem)) rfl (hcolumns _ (h.mem_columns hr.refTable_mem hr.refColumn_mem)) rfl

theorem addForeignKey_plan {fresh : Uuid} {cat : Catalog} {c rc : DBColumn} {t rt : DBTable} {onDelete : OnDelete}
    {plan : Plan} (h : (addForeignKey fresh cat organization c t rt rc onDelete).plan = .ok plan) :
    plan = .addForeignKey (newForeignKey fresh c rt rc onDelete) c t rt rc := by
  simp only [addForeignKey] at h
  split at h
  · cases h
  · exact (Except.ok.inj h).symm

/-- A call that goes through inserts the row of the entry. -/
theorem Linked.concat (h : Made actor organization s₀ d placed s₁ refs) (hl : Linked actor organization s₁ d keys s)
    (hr : Resolves placed entry p q c rc)
    (hcall : callService actor s
      (addForeignKey s.nextUuid s.catalog organization c p.1 q.1 rc entry.2.onDelete) = .ok s') :
    ∃ k, MadeKey placed entry k ∧ Linked actor organization s₁ d (keys ++ [k]) s' := by
  obtain ⟨plan, hplan, hcalled⟩ := called_of_ok hcall
  have hsound := hcalled.sound hl.sound (hl.resolved h hr) hplan
  have hmay := hcalled.mayBuild hl.mayBuild
  obtain rfl := addForeignKey_plan hplan
  obtain ⟨-, hcat⟩ := insertForeignKey_some hcalled.write
  obtain ⟨-, -, hten⟩ := Tenant.exec_addForeignKey hcalled.exec
  refine ⟨newForeignKey s.nextUuid c q.1 rc entry.2.onDelete, ⟨⟨p, q, c, rc, hr, rfl, rfl, rfl⟩, rfl⟩, ?_⟩
  constructor
  · exact hsound
  · exact hmay
  · rw [hcat]
    exact hl.databases
  · rw [hcat]
    exact hl.tables
  · rw [hcat]
    exact hl.columns
  · rw [hcat, ← List.append_assoc, ← hl.foreignKeys]
  · rw [hten]
    exact hl.schemas
  · rw [hten]
    exact hl.tenantColumns
  · rw [hten]
    refine forall_mem_concat (fun x hx hschema => ?_) fun _ =>
      ⟨_, List.mem_append_right _ (List.mem_singleton_self _), rfl⟩
    obtain ⟨k, hk, heq⟩ := hl.tenantKeys x hx hschema
    exact ⟨k, List.mem_append_left _ hk, heq⟩
  · rw [hcalled.next]
    exact Nat.le_trans hl.next (Nat.le_add_right _ 2)

theorem restoreForeignKeys_ok (h : Made actor organization s₀ d placed s₁ refs)
    {entries : List (String × ForeignKeyContent)} : ∀ {s : State} {keys : List DBForeignKey},
      Linked actor organization s₁ d keys s → restoreForeignKeys actor organization refs entries s = .ok s' →
      ∃ new, List.Forall₂ (MadeKey placed) entries new ∧ Linked actor organization s₁ d (keys ++ new) s' := by
  induction entries with
  | nil =>
    intro s keys hl hrestored
    obtain rfl := Except.ok.inj hrestored
    refine ⟨[], .nil, ?_⟩
    rwa [List.append_nil]
  | cons entry entries ih =>
    intro s keys hl hrestored
    rw [restoreForeignKeys] at hrestored
    cases hresolve : refs.resolve entry with
    | none =>
      rw [hresolve] at hrestored
      cases hrestored
    | some rows =>
      obtain ⟨t, c, rt, rc⟩ := rows
      rw [hresolve] at hrestored
      dsimp only at hrestored
      obtain ⟨p, q, rfl, rfl, hr⟩ := h.resolve_some hresolve
      cases hcall : callService actor s
          (addForeignKey s.nextUuid s.catalog organization c p.1 q.1 rc entry.2.onDelete) with
      | error e =>
        rw [hcall] at hrestored
        cases hrestored
      | ok s₂ =>
        rw [hcall] at hrestored
        obtain ⟨k, hk, hl₂⟩ := hl.concat h hr hcall
        obtain ⟨new, hnew, hl'⟩ := ih hl₂ hrestored
        refine ⟨k :: new, .cons hk hnew, ?_⟩
        rwa [List.append_assoc] at hl'

theorem comparable_sqlType (T : DataType) (maxLength precision scale maxLength' precision' scale' : Option Nat) :
    comparable (sqlType T maxLength precision scale) (sqlType T maxLength' precision' scale') = true := by
  cases T <;> rfl

/-- A foreign key that was there before is of a column of another database. -/
theorem Made.old_key_ne (hs₀ : Databases.Sound s₀) (hd : d.id = s₀.nextUuid)
    (h : Made actor organization s₀ d placed s refs)
    (hp : p ∈ placed) (hc : c ∈ p.2) {fk : DBForeignKey} (hfk : fk ∈ s₀.catalog.foreignKeys) : fk.column ≠ c.id := by
  intro hself
  obtain ⟨c₀, t₀, rt₀, rc₀, hres, -⟩ := hs₀.wellFormed.resolves fk hfk
  have hcolumn : c₀ ∈ s.catalog.columns := by
    rw [h.columns]
    exact List.mem_append_left _ hres.column_mem
  have htable : t₀ ∈ s.catalog.tables := by
    rw [h.tables]
    exact List.mem_append_left _ hres.table_mem
  obtain rfl := h.sound.wellFormed.columnIds c₀ hcolumn c (h.mem_columns hp hc) (hres.column_id.trans hself)
  have hid : t₀.id = p.1.id := hres.table_id.trans ((h.own p hp).2 _ hc)
  obtain rfl := h.sound.wellFormed.tableIds t₀ htable p.1 (h.mem_tables hp) hid
  exact Made.old_ne hs₀ hd hres.table_mem (h.own p hp).1

/-- `add_foreign_key` goes through for a column that has none yet and a unique column of its type. -/
theorem Linked.call_eq (hs₀ : Databases.Sound s₀) (hd : d.id = s₀.nextUuid)
    (h : Made actor organization s₀ d placed s₁ refs)
    (hl : Linked actor organization s₁ d keys s) (hr : Resolves placed entry p q c rc) (hunique : rc.isUnique = true)
    (htype : c.dataType = rc.dataType) (hset : entry.2.onDelete = .setNull → c.isNullable = true)
    (hnew : ∀ k ∈ keys, k.column ≠ c.id) :
    ∃ s', callService actor s
      (addForeignKey s.nextUuid s.catalog organization c p.1 q.1 rc entry.2.onDelete) = .ok s' := by
  have hresolved := hl.resolved h hr
  have hnone : ∀ fk ∈ s.catalog.foreignKeys, fk.column ≠ c.id := by
    intro fk hfk
    rw [hl.foreignKeys, h.foreignKeys] at hfk
    rcases List.mem_append.mp hfk with hold | hmade
    · exact h.old_key_ne hs₀ hd hr.table_mem hr.column_mem hold
    · exact hnew fk hmade
  have hvalid : validateForeignKey s.catalog c p.1 q.1 rc entry.2.onDelete = .ok () := by
    have hsame : q.1.tenantDatabase = p.1.tenantDatabase := by
      rw [(h.own q hr.refTable_mem).1, (h.own p hr.table_mem).1]
    have hany : s.catalog.foreignKeys.any (fun fk => fk.column == c.id) = false := by
      rw [List.any_eq_false]
      exact fun fk hfk heq => hnone fk hfk (eq_of_beq heq)
    have hnull : ¬ (entry.2.onDelete = .setNull ∧ (!c.isNullable) = true) := by
      rintro ⟨honDelete, hnot⟩
      rw [hset honDelete] at hnot
      cases hnot
    unfold validateForeignKey
    rw [if_neg (not_not.mpr hsame), if_neg (by simp [hunique]), if_neg (not_not.mpr htype), if_neg (by simp [hany]),
      if_neg hnull]
  have hplan : (addForeignKey s.nextUuid s.catalog organization c p.1 q.1 rc entry.2.onDelete).plan =
      .ok (.addForeignKey (newForeignKey s.nextUuid c q.1 rc entry.2.onDelete) c p.1 q.1 rc) := by
    simp [addForeignKey, hvalid]
  have hphysical : ∀ {r : DBTable × List DBColumn} {x : DBColumn}, r ∈ placed → x ∈ r.2 →
      r.1.physicalColumn x ∈ s.tenant.columns := by
    intro r x hrmem hx
    rw [hl.tenantColumns]
    have hschema : (r.1.physicalColumn x).schema = ⟨d.id⟩ := congrArg SchemaName.mk (h.own r hrmem).1
    exact (h.tenantColumns _ hschema).mpr ⟨r, hrmem, x, hx, rfl⟩
  have hrefers : s.tenant.refersTo (p.1.physicalForeignKey c q.1 rc entry.2.onDelete) = true := by
    refine Tenant.refersTo_iff.mpr ⟨p.1.physicalColumn c, hphysical hr.table_mem hr.column_mem, ⟨rfl, rfl, rfl⟩,
      q.1.physicalColumn rc, hphysical hr.refTable_mem hr.refColumn_mem, ⟨?_, rfl, rfl⟩, hunique, ?_⟩
    · show (⟨q.1.tenantDatabase⟩ : SchemaName) = ⟨p.1.tenantDatabase⟩
      rw [(h.own q hr.refTable_mem).1, (h.own p hr.table_mem).1]
    · show comparable (sqlType c.dataType _ _ _) (sqlType rc.dataType _ _ _) = true
      rw [htype]
      exact comparable_sqlType ..
  have hname : ∀ x ∈ s.tenant.foreignKeys,
      x.schema = (p.1.physicalForeignKey c q.1 rc entry.2.onDelete).schema → x.name ≠ c.id := by
    intro x hx hschema hself
    have hown : x.schema = ⟨d.id⟩ := hschema.trans (congrArg SchemaName.mk (h.own p hr.table_mem).1)
    obtain ⟨k, hk, heq⟩ := hl.tenantKeys x hx hown
    exact hnew k hk (heq.trans hself)
  have hcolumns : ∀ {r : DBTable × List DBColumn} {x : DBColumn}, r ∈ placed → x ∈ r.2 → x ∈ s.catalog.columns := by
    intro r x hrmem hx
    rw [hl.columns]
    exact h.mem_columns hrmem hx
  have htable : q.1 ∈ s.catalog.tables := by
    rw [hl.tables]
    exact h.mem_tables hr.refTable_mem
  have hexec := exec_addForeignKey_eq hrefers hname
  have hwrite := insertForeignKey_eq (newForeignKey s.nextUuid c q.1 rc entry.2.onDelete)
    ⟨c, hcolumns hr.table_mem hr.column_mem, rfl⟩ ⟨q.1, htable, rfl⟩
    ⟨rc, hcolumns hr.refTable_mem hr.refColumn_mem, rfl⟩ hnone
  have hfits := hresolved.done_fits actor ""
  obtain ⟨s', hcall, -⟩ := callService_eq actor hl.mayBuild.manage hplan hexec hwrite hfits
  exact ⟨s', hcall⟩

/-- An entry that `add_foreign_key` accepts, if its column has no foreign key yet. -/
structure Linkable (placed : List (DBTable × List DBColumn)) (entry : String × ForeignKeyContent) : Prop where
  rows : ∃ p q c rc, Resolves placed entry p q c rc ∧ rc.isUnique = true ∧ c.dataType = rc.dataType ∧
    (entry.2.onDelete = .setNull → c.isNullable = true)

theorem restoreForeignKeys_eq (hs₀ : Databases.Sound s₀) (hd : d.id = s₀.nextUuid)
    (h : Made actor organization s₀ d placed s₁ refs) {entries : List (String × ForeignKeyContent)}
    (hentries : ∀ entry ∈ entries, Linkable placed entry)
    (hnodup : (entries.map fun entry => (entry.1, entry.2.column)).Nodup) :
    ∀ {s : State} {keys : List DBForeignKey}, Linked actor organization s₁ d keys s →
      (∀ entry ∈ entries, ∀ {p q c rc}, Resolves placed entry p q c rc → ∀ k ∈ keys, k.column ≠ c.id) →
      ∃ s', restoreForeignKeys actor organization refs entries s = .ok s' := by
  induction entries with
  | nil =>
    intro s keys hl _
    exact ⟨s, rfl⟩
  | cons entry entries ih =>
    intro s keys hl hnew
    rw [List.forall_mem_cons] at hentries
    rw [List.map_cons, List.nodup_cons] at hnodup
    obtain ⟨p, q, c, rc, hr, hunique, htype, hset⟩ := hentries.1.rows
    obtain ⟨s₂, hcall⟩ := hl.call_eq hs₀ hd h hr hunique htype hset (hnew entry (List.mem_cons_self ..) hr)
    obtain ⟨k, hk, hl₂⟩ := hl.concat h hr hcall
    have hrest : ∀ e ∈ entries, ∀ {p' q' c' rc'}, Resolves placed e p' q' c' rc' →
        ∀ k' ∈ keys ++ [k], k'.column ≠ c'.id := by
      intro e he p' q' c' rc' hr'
      refine forall_mem_concat (hnew e (List.mem_cons_of_mem _ he) hr') ?_
      obtain ⟨p₁, q₁, c₁, rc₁, hr₁, hcolumn, -⟩ := hk.rows
      obtain ⟨-, -, rfl, -⟩ := Resolves.unique h hr₁ hr
      rw [hcolumn]
      intro hid
      -- the column of another entry has another name, or is one of another table
      have hsame := h.sound.wellFormed.columnIds _ (h.mem_columns hr.table_mem hr.column_mem) _
        (h.mem_columns hr'.table_mem hr'.column_mem) hid
      subst hsame
      have htable : p.1.id = p'.1.id := by
        rw [← (h.own p hr.table_mem).2 _ hr.column_mem, ← (h.own p' hr'.table_mem).2 _ hr'.column_mem]
      obtain rfl := h.eq_of_id hr.table_mem hr'.table_mem htable
      refine hnodup.1 (List.mem_map.mpr ⟨e, he, ?_⟩)
      rw [← hr'.table_name, ← hr'.column_name, ← hr.table_name, ← hr.column_name]
    obtain ⟨s', hrestored⟩ := ih hentries.2 hnodup.2 hl₂ hrest
    refine ⟨s', ?_⟩
    rw [restoreForeignKeys, h.resolve_eq hr]
    dsimp only
    rw [hcall]
    exact hrestored

end Lookup

/-! ## Pairs -/

theorem exists_zip_left {α β : Type} {R : α → β → Prop} {as : List α} {bs : List β} (h : List.Forall₂ R as bs) {a : α}
    (ha : a ∈ as) : ∃ b, (a, b) ∈ as.zip bs := by
  induction h with
  | nil => cases ha
  | @cons a' b' as bs hR hrest ih =>
    rcases List.mem_cons.mp ha with rfl | ha
    · exact ⟨b', List.mem_cons_self ..⟩
    · obtain ⟨b, hb⟩ := ih ha
      exact ⟨b, List.mem_cons_of_mem _ hb⟩

theorem exists_zip_right {α β : Type} {R : α → β → Prop} {as : List α} {bs : List β} (h : List.Forall₂ R as bs) {b : β}
    (hb : b ∈ bs) : ∃ a, (a, b) ∈ as.zip bs := by
  induction h with
  | nil => cases hb
  | @cons a' b' as bs hR hrest ih =>
    rcases List.mem_cons.mp hb with rfl | hb
    · exact ⟨a', List.mem_cons_self ..⟩
    · obtain ⟨a, ha⟩ := ih hb
      exact ⟨a, List.mem_cons_of_mem _ ha⟩

section Source

variable {cat : Catalog} {fresh : Uuid} {d : TenantDatabase} {records : DBTable → List Python.Csv.Record}

theorem mem_keyEntries {entry : String × ForeignKeyContent} :
    entry ∈ keyEntries (schemaTables cat records d) ↔
      ∃ t ∈ tablesOf cat d, ∃ fk ∈ foreignKeysOf cat t.id, (t.name, foreignKeyContent cat fk) = entry := by
  rw [keyEntries, schemaTables_eq, List.flatMap_map]
  simp only [List.mem_flatMap]
  constructor
  · rintro ⟨t, ht, hentry⟩
    obtain ⟨content, hcontent, rfl⟩ := List.mem_map.mp hentry
    obtain ⟨fk, hfk, rfl⟩ := List.mem_map.mp hcontent
    exact ⟨t, ht, fk, hfk, rfl⟩
  · rintro ⟨t, ht, fk, hfk, rfl⟩
    exact ⟨t, ht, List.mem_map.mpr ⟨_, List.mem_map_of_mem hfk, rfl⟩⟩

/-- The rows that a foreign key of a table refers to, and their names in the package. -/
structure KeyRows (cat : Catalog) (d : TenantDatabase) (t : DBTable) (fk : DBForeignKey) (c : DBColumn) (rt : DBTable)
    (rc : DBColumn) : Prop where
  column_mem : c ∈ cat.columnsOf t
  column_id : c.id = fk.column
  refTable_mem : rt ∈ tablesOf cat d
  refTable_id : rt.id = fk.referencesTable
  refColumn_mem : rc ∈ cat.columns
  refColumn_id : rc.id = fk.referencesColumn
  content : foreignKeyContent cat fk = ⟨c.name, rt.name, rc.name, fk.onDelete⟩

theorem columnName_eq (hw : WellFormed cat fresh) {c : DBColumn} (hc : c ∈ cat.columns) :
    columnName cat c.id = c.name := by
  rw [columnName, hw.columnIds.find?_eq hc]
  rfl

theorem exists_keyRows (hw : WellFormed cat fresh) {t : DBTable} (ht : t ∈ tablesOf cat d) {fk : DBForeignKey}
    (hfk : fk ∈ foreignKeysOf cat t.id) : ∃ c rt rc, KeyRows cat d t fk c rt rc := by
  obtain ⟨hmem, hcolumn⟩ := List.mem_filter.mp hfk
  obtain ⟨htmem, hdb⟩ := mem_tablesOf.mp ht
  obtain ⟨c, t', rt, rc, hres, hsame⟩ := hw.resolves fk hmem
  have htable : c.table = t.id := by
    rw [← hres.column_id, tableOfColumn_eq hw hres.column_mem, beq_iff_eq, Option.some.injEq] at hcolumn
    exact hcolumn
  obtain rfl := hw.tableIds t' hres.table_mem t htmem (hres.table_id.trans htable)
  refine ⟨c, rt, rc, List.mem_filter.mpr ⟨hres.column_mem, beq_iff_eq.mpr htable⟩, hres.column_id,
    mem_tablesOf.mpr ⟨hres.refTable_mem, hsame.trans hdb⟩, hres.refTable_id, hres.refColumn_mem, hres.refColumn_id, ?_⟩
  rw [foreignKeyContent, ← hres.column_id, columnName_eq hw hres.column_mem, ← hres.refTable_id,
    tableName_eq hw hres.refTable_mem, ← hres.refColumn_id, columnName_eq hw hres.refColumn_mem]

theorem nodup_keyEntries (hw : WellFormed cat fresh) (hdistinct : cat.Distinct) :
    ((keyEntries (schemaTables cat records d)).map fun entry => (entry.1, entry.2.column)).Nodup := by
  have hentries : (keyEntries (schemaTables cat records d)).map (fun entry => (entry.1, entry.2.column)) =
      (tablesOf cat d).flatMap fun t => (foreignKeysOf cat t.id).map fun fk => (t.name, columnName cat fk.column) := by
    rw [keyEntries, schemaTables_eq, List.flatMap_map, List.map_flatMap]
    refine List.flatMap_congr fun t _ => ?_
    simp only [tableEntry, tableData, tableContent, List.map_map]
    rfl
  rw [hentries, List.nodup_flatMap]
  constructor
  · intro t ht
    have hkeys : (foreignKeysOf cat t.id).Nodup := (List.Nodup.of_map _ hdistinct.foreignKeys).filter _
    refine hkeys.map_on fun fk hfk fk' hfk' heq => ?_
    obtain ⟨c, rt, rc, hrows⟩ := exists_keyRows hw ht hfk
    obtain ⟨c', rt', rc', hrows'⟩ := exists_keyRows hw ht hfk'
    obtain ⟨hcmem, hctable⟩ := List.mem_filter.mp hrows.column_mem
    obtain ⟨hcmem', hctable'⟩ := List.mem_filter.mp hrows'.column_mem
    have hname : c.name = c'.name := by
      have hnames := (Prod.mk.inj heq).2
      rwa [← hrows.column_id, ← hrows'.column_id, columnName_eq hw hcmem, columnName_eq hw hcmem'] at hnames
    have hsame : c = c' := by
      refine hw.columnNames c hcmem c' hcmem' ?_
      show (c.table, c.name) = (c'.table, c'.name)
      rw [eq_of_beq hctable, eq_of_beq hctable', hname]
    refine hw.foreignKeyColumns fk (List.mem_filter.mp hfk).1 fk' (List.mem_filter.mp hfk').1 ?_
    show fk.column = fk'.column
    rw [← hrows.column_id, ← hrows'.column_id, hsame]
  · have hnames := nodup_tableNames (d := d) hw hdistinct
    rw [List.nodup_iff_pairwise_ne, List.pairwise_map] at hnames
    refine hnames.imp fun hne => List.disjoint_left.mpr fun x hx hx' => ?_
    obtain ⟨fk, -, rfl⟩ := List.mem_map.mp hx
    obtain ⟨fk', -, heq⟩ := List.mem_map.mp hx'
    exact hne (Prod.mk.inj heq).1.symm

end Source

/-! ## Rows of the restored catalog -/

section Placed

variable {actor organization : Uuid} {s₀ s₁ s : State} {d d' : TenantDatabase} {placed : List (DBTable × List DBColumn)}
  {refs : Refs} {keys : List DBForeignKey} {cat cat' : Catalog} {fresh : Uuid}
  {records : DBTable → List Python.Csv.Record}

/-- What a catalog has of the database. -/
structure Placement (cat' : Catalog) (d' : TenantDatabase) (placed : List (DBTable × List DBColumn))
    (keys : List DBForeignKey) : Prop where
  tables : tablesOf cat' d' = placed.map (·.1)
  columns : ∀ p ∈ placed, cat'.columnsOf p.1 = p.2
  foreignKeys : ∀ p ∈ placed, ∀ k, k ∈ foreignKeysOf cat' p.1.id ↔ k ∈ keys ∧ ∃ c ∈ p.2, c.id = k.column

theorem Made.eq_of_columnId (h : Made actor organization s₀ d' placed s₁ refs) {p q : DBTable × List DBColumn}
    (hp : p ∈ placed) (hq : q ∈ placed) {c c' : DBColumn} (hc : c ∈ p.2) (hc' : c' ∈ q.2) (hid : c.id = c'.id) :
    c = c' ∧ p = q := by
  obtain rfl := h.sound.wellFormed.columnIds c (h.mem_columns hp hc) c' (h.mem_columns hq hc') hid
  refine ⟨rfl, h.eq_of_id hp hq ?_⟩
  rw [← (h.own p hp).2 c hc, ← (h.own q hq).2 c hc']

theorem Made.tablesOf_eq (hs₀ : Databases.Sound s₀) (hd : d'.id = s₀.nextUuid)
    (h : Made actor organization s₀ d' placed s₁ refs) (hcat : cat'.tables = s₁.catalog.tables) :
    tablesOf cat' d' = placed.map (·.1) := by
  rw [tablesOf, hcat, h.tables, List.filter_append]
  have hold : s₀.catalog.tables.filter (·.tenantDatabase == d'.id) = [] := by
    rw [List.filter_eq_nil_iff]
    exact fun t ht hself => Made.old_ne hs₀ hd ht (eq_of_beq hself)
  have hnew : (placed.map (·.1)).filter (·.tenantDatabase == d'.id) = placed.map (·.1) := by
    rw [List.filter_eq_self]
    intro t ht
    obtain ⟨p, hp, rfl⟩ := List.mem_map.mp ht
    exact beq_iff_eq.mpr (h.own p hp).1
  rw [hold, hnew, List.nil_append]

theorem Made.columnsOf_eq (hs₀ : Databases.Sound s₀) (hd : d'.id = s₀.nextUuid)
    (h : Made actor organization s₀ d' placed s₁ refs) (hcat : cat'.columns = s₁.catalog.columns)
    {p : DBTable × List DBColumn} (hp : p ∈ placed) : cat'.columnsOf p.1 = p.2 := by
  rw [Catalog.columnsOf, hcat, h.columns, List.filter_append]
  have hold : s₀.catalog.columns.filter (·.table == p.1.id) = [] := by
    rw [List.filter_eq_nil_iff]
    intro c hc hself
    obtain ⟨t, ht, hid⟩ := hs₀.wellFormed.columnTable c hc
    have hin : t ∈ s₁.catalog.tables := by
      rw [h.tables]
      exact List.mem_append_left _ ht
    obtain rfl := h.sound.wellFormed.tableIds t hin p.1 (h.mem_tables hp) (hid.trans (eq_of_beq hself))
    exact Made.old_ne hs₀ hd ht (h.own p hp).1
  obtain ⟨before, after, hsplit⟩ := List.append_of_mem hp
  have hothers : ∀ others : List (DBTable × List DBColumn), (∀ q ∈ others, q ∈ placed ∧ q.1.name ≠ p.1.name) →
      (others.flatMap (·.2)).filter (·.table == p.1.id) = [] := by
    intro others hsub
    rw [List.filter_eq_nil_iff]
    intro c hc hself
    obtain ⟨q, hq, hcq⟩ := List.mem_flatMap.mp hc
    obtain ⟨hmem, hne⟩ := hsub q hq
    have hid : q.1.id = p.1.id := ((h.own q hmem).2 c hcq).symm.trans (eq_of_beq hself)
    rw [h.eq_of_id hmem hp hid] at hne
    exact hne rfl
  have hnames := h.names
  rw [hsplit, List.map_append, List.map_cons, List.nodup_append, List.nodup_cons] at hnames
  have hbefore := hothers before fun q hq => by
    rw [hsplit]
    exact ⟨List.mem_append_left _ hq, hnames.2.2 _ (List.mem_map_of_mem hq) _ (List.mem_cons_self ..)⟩
  have hafter := hothers after fun q hq => by
    rw [hsplit]
    refine ⟨List.mem_append_right _ (List.mem_cons_of_mem _ hq), fun heq => hnames.2.1.1 ?_⟩
    rw [← heq]
    exact List.mem_map_of_mem (f := fun q : DBTable × List DBColumn => q.1.name) hq
  have hself : p.2.filter (·.table == p.1.id) = p.2 := by
    rw [List.filter_eq_self]
    exact fun c hc => beq_iff_eq.mpr ((h.own p hp).2 c hc)
  rw [hold, hsplit, List.flatMap_append, List.flatMap_cons, List.filter_append, List.filter_append, hbefore, hafter,
    hself, List.nil_append, List.nil_append, List.append_nil]

theorem Linked.placement (hs₀ : Databases.Sound s₀) (hd : d'.id = s₀.nextUuid)
    (h : Made actor organization s₀ d' placed s₁ refs) (hl : Linked actor organization s₁ d' keys s) :
    Placement s.catalog d' placed keys := by
  refine ⟨h.tablesOf_eq hs₀ hd hl.tables, fun p hp => h.columnsOf_eq hs₀ hd hl.columns hp, fun p hp k => ?_⟩
  rw [foreignKeysOf, List.mem_filter, beq_iff_eq]
  have hcolumns : ∀ {c}, c ∈ p.2 → c ∈ s.catalog.columns := by
    intro c hc
    rw [hl.columns]
    exact h.mem_columns hp hc
  constructor
  · rintro ⟨hk, htable⟩
    obtain ⟨c, t, rt, rc, hres, -⟩ := hl.sound.wellFormed.resolves k hk
    rw [← hres.column_id, tableOfColumn_eq hl.sound.wellFormed hres.column_mem, Option.some.injEq] at htable
    have hin : c ∈ p.2 := by
      rw [← h.columnsOf_eq hs₀ hd hl.columns hp]
      exact List.mem_filter.mpr ⟨hres.column_mem, beq_iff_eq.mpr htable⟩
    refine ⟨?_, c, hin, hres.column_id⟩
    rw [hl.foreignKeys, h.foreignKeys] at hk
    rcases List.mem_append.mp hk with hold | hmade
    · exact absurd hres.column_id.symm (h.old_key_ne hs₀ hd hp hin hold)
    · exact hmade
  · rintro ⟨hk, c, hc, hid⟩
    refine ⟨?_, ?_⟩
    · rw [hl.foreignKeys]
      exact List.mem_append_right _ hk
    · rw [← hid, tableOfColumn_eq hl.sound.wellFormed (hcolumns hc), (h.own p hp).2 c hc]

theorem mem_tablePairs (hplacement : Placement cat' d' placed keys) {t u : DBTable} :
    (t, u) ∈ tablePairs cat cat' d d' ↔ ∃ p, (t, p) ∈ (tablesOf cat d).zip placed ∧ p.1 = u := by
  rw [tablePairs, hplacement.tables, List.zip_map_right, List.mem_map]
  constructor
  · rintro ⟨⟨t', p⟩, hp, heq⟩
    obtain ⟨rfl, rfl⟩ := Prod.mk.inj heq
    exact ⟨p, hp, rfl⟩
  · rintro ⟨p, hp, rfl⟩
    exact ⟨(t, p), hp, rfl⟩

theorem mem_columnPairs (hplacement : Placement cat' d' placed keys) {c c' : DBColumn} :
    (c, c') ∈ columnPairs cat cat' d d' ↔
      ∃ t p, (t, p) ∈ (tablesOf cat d).zip placed ∧ (c, c') ∈ (cat.columnsOf t).zip p.2 := by
  rw [columnPairs, List.mem_flatMap]
  constructor
  · rintro ⟨⟨t, u⟩, htu, hc⟩
    obtain ⟨p, hp, rfl⟩ := (mem_tablePairs hplacement).mp htu
    rw [hplacement.columns p (List.of_mem_zip hp).2] at hc
    exact ⟨t, p, hp, hc⟩
  · rintro ⟨t, p, hp, hc⟩
    refine ⟨(t, p.1), (mem_tablePairs hplacement).mpr ⟨p, hp, rfl⟩, ?_⟩
    rwa [hplacement.columns p (List.of_mem_zip hp).2]

theorem eq_of_zip (hw : WellFormed cat fresh) (hdistinct : cat.Distinct)
    (hforall : List.Forall₂ (Corresponds cat) (tablesOf cat d) placed) {t t' : DBTable} {p : DBTable × List DBColumn}
    (h : (t, p) ∈ (tablesOf cat d).zip placed) (h' : (t', p) ∈ (tablesOf cat d).zip placed) : t = t' := by
  have hname := (List.forall₂_zip hforall h).name.symm.trans (List.forall₂_zip hforall h').name
  exact List.inj_on_of_nodup_map (nodup_tableNames hw hdistinct) (List.of_mem_zip h).1 (List.of_mem_zip h').1 hname

theorem exists_column_pair {t : DBTable} {p : DBTable × List DBColumn} (h : Corresponds cat t p) {c : DBColumn}
    (hc : c ∈ cat.columnsOf t) : ∃ c', (c, c') ∈ (cat.columnsOf t).zip p.2 ∧ c' ∈ p.2 ∧ SameColumn c c' := by
  obtain ⟨c', hpair⟩ := exists_zip_left h.columns hc
  exact ⟨c', hpair, (List.of_mem_zip hpair).2, List.forall₂_zip h.columns hpair⟩

theorem SameColumn.name {c c' : DBColumn} (h : SameColumn c c') : c'.name = c.name := by
  rw [h]

/-- The rows that a foreign key is restored with, if it references a column of the table. -/
theorem exists_resolves
    (hforall : List.Forall₂ (Corresponds cat) (tablesOf cat d) placed) {t : DBTable} {p : DBTable × List DBColumn}
    (hpair : (t, p) ∈ (tablesOf cat d).zip placed) {fk : DBForeignKey} {c rc : DBColumn} {rt : DBTable}
    (hrows : KeyRows cat d t fk c rt rc) (htied : rc.table = fk.referencesTable) :
    ∃ q c' rc', (rt, q) ∈ (tablesOf cat d).zip placed ∧ (c, c') ∈ (cat.columnsOf t).zip p.2 ∧
      (rc, rc') ∈ (cat.columnsOf rt).zip q.2 ∧ SameColumn c c' ∧ SameColumn rc rc' ∧
      Resolves placed (t.name, foreignKeyContent cat fk) p q c' rc' := by
  obtain ⟨q, hqpair⟩ := exists_zip_left hforall hrows.refTable_mem
  have hp := List.forall₂_zip hforall hpair
  have hq := List.forall₂_zip hforall hqpair
  obtain ⟨c', hcpair, hc', hcsame⟩ := exists_column_pair hp hrows.column_mem
  have hrc : rc ∈ cat.columnsOf rt :=
    List.mem_filter.mpr ⟨hrows.refColumn_mem, beq_iff_eq.mpr (htied.trans hrows.refTable_id.symm)⟩
  obtain ⟨rc', hrcpair, hrc', hrcsame⟩ := exists_column_pair hq hrc
  refine ⟨q, c', rc', hqpair, hcpair, hrcpair, hcsame, hrcsame, ?_⟩
  constructor
  · exact (List.of_mem_zip hpair).2
  · exact hp.name
  · exact hc'
  · rw [hrows.content]
    exact hcsame.name
  · exact (List.of_mem_zip hqpair).2
  · rw [hrows.content]
    exact hq.name
  · exact hrc'
  · rw [hrows.content]
    exact hrcsame.name

theorem linkable_of_tied (hw : WellFormed cat fresh) (hb : Buildable cat)
    (hforall : List.Forall₂ (Corresponds cat) (tablesOf cat d) placed) (htied : KeysTied cat d)
    {entry : String × ForeignKeyContent} (hentry : entry ∈ keyEntries (schemaTables cat records d)) :
    Linkable placed entry := by
  obtain ⟨t, ht, fk, hfk, rfl⟩ := mem_keyEntries.mp hentry
  obtain ⟨c, rt, rc, hrows⟩ := exists_keyRows hw ht hfk
  obtain ⟨p, hpair⟩ := exists_zip_left hforall ht
  have htable := htied t ht fk hfk rc hrows.refColumn_mem hrows.refColumn_id
  obtain ⟨q, c', rc', -, -, -, hcsame, hrcsame, hresolves⟩ := exists_resolves hforall hpair hrows htable
  obtain ⟨hcmem, -⟩ := List.mem_filter.mp hrows.column_mem
  obtain ⟨hunique, htype, hset⟩ := hb.foreignKeys fk (List.mem_filter.mp hfk).1 c hcmem hrows.column_id rc
    hrows.refColumn_mem hrows.refColumn_id
  have hcovered : rc.isUnique = true := by
    rcases hunique with hunique | hprimary
    · exact hunique
    · obtain ⟨key, others, hcolumns, hkey, hothers⟩ := hb.keyFirst rt (mem_tablesOf.mp hrows.refTable_mem).1
      have hin : rc ∈ cat.columnsOf rt :=
        List.mem_filter.mpr ⟨hrows.refColumn_mem, beq_iff_eq.mpr (htable.trans hrows.refTable_id.symm)⟩
      rw [hcolumns] at hin
      rcases List.mem_cons.mp hin with rfl | hin
      · rw [hkey]
        rfl
      · rw [hothers rc hin] at hprimary
        cases hprimary
  refine ⟨p, q, c', rc', hresolves, ?_, ?_, ?_⟩
  · rw [hrcsame]
    exact hcovered
  · rw [hcsame, hrcsame]
    exact htype
  · rw [hcsame, hrows.content]
    exact hset

theorem sameForeignKey_of_madeKey (hw : WellFormed cat fresh) (h : Made actor organization s₀ d' placed s₁ refs)
    (hforall : List.Forall₂ (Corresponds cat) (tablesOf cat d) placed) (hplacement : Placement cat' d' placed keys)
    (htied : KeysTied cat d) {t : DBTable} {p : DBTable × List DBColumn}
    (hpair : (t, p) ∈ (tablesOf cat d).zip placed) {fk k : DBForeignKey} (hfk : fk ∈ foreignKeysOf cat t.id)
    (hmade : MadeKey placed (t.name, foreignKeyContent cat fk) k) :
    SameForeignKey cat cat' d d' fk k ∧ ∃ c ∈ p.2, c.id = k.column := by
  have ht := (List.of_mem_zip hpair).1
  obtain ⟨c, rt, rc, hrows⟩ := exists_keyRows hw ht hfk
  have htable := htied t ht fk hfk rc hrows.refColumn_mem hrows.refColumn_id
  obtain ⟨q, c', rc', hqpair, hcpair, hrcpair, -, -, hresolves⟩ := exists_resolves hforall hpair hrows htable
  obtain ⟨p₁, q₁, c₁, rc₁, hresolves₁, hcolumn, hreferenced, hreferencedColumn⟩ := hmade.rows
  obtain ⟨rfl, rfl, rfl, rfl⟩ := Resolves.unique h hresolves₁ hresolves
  refine ⟨⟨?_, ?_, ?_, ?_⟩, c₁, hresolves₁.column_mem, hcolumn.symm⟩
  · rw [← hrows.column_id, hcolumn]
    exact List.mem_map.mpr ⟨(c, c₁), (mem_columnPairs hplacement).mpr ⟨t, p₁, hpair, hcpair⟩, rfl⟩
  · rw [← hrows.refTable_id, hreferenced]
    exact List.mem_map.mpr ⟨(rt, q₁.1), (mem_tablePairs hplacement).mpr ⟨q₁, hqpair, rfl⟩, rfl⟩
  · rw [← hrows.refColumn_id, hreferencedColumn]
    exact List.mem_map.mpr ⟨(rc, rc₁), (mem_columnPairs hplacement).mpr ⟨rt, q₁, hqpair, hrcpair⟩, rfl⟩
  · rw [hmade.onDelete, hrows.content]

/-- What is made of a database has its schema exactly if its foreign keys reference columns of their tables. -/
theorem sameSchema_iff (hw : WellFormed cat fresh) (hdistinct : cat.Distinct)
    (h : Made actor organization s₀ d' placed s₁ refs) (hname : d'.name = d.name)
    (hforall : List.Forall₂ (Corresponds cat) (tablesOf cat d) placed)
    (hkeys : List.Forall₂ (MadeKey placed) (keyEntries (schemaTables cat records d)) keys)
    (hplacement : Placement cat' d' placed keys) : SameSchema cat cat' d d' ↔ KeysTied cat d := by
  constructor
  · intro hsame t ht fk hfk rc hrc hid
    obtain ⟨p, hpair⟩ := exists_zip_left hforall ht
    have hp := (List.of_mem_zip hpair).2
    obtain ⟨k, hk, hkSame⟩ := hsame.foreignKeys (t, p.1) ((mem_tablePairs hplacement).mpr ⟨p, hpair, rfl⟩) fk hfk
    obtain ⟨hmem, -⟩ := (hplacement.foreignKeys p hp k).mp hk
    obtain ⟨entry, hentry⟩ := exists_zip_right hkeys hmem
    obtain ⟨p₁, q₁, c₁, rc₁, hresolves, -, hreferenced, hreferencedColumn⟩ := (List.forall₂_zip hkeys hentry).rows
    obtain ⟨⟨rt, u⟩, hrtPair, hrtIds⟩ := List.mem_map.mp hkSame.referencesTable
    obtain ⟨q, hqpair, rfl⟩ := (mem_tablePairs hplacement).mp hrtPair
    obtain ⟨hrtId, hqId⟩ := Prod.mk.inj hrtIds
    obtain ⟨⟨c₂, c₂'⟩, hcPair, hcIds⟩ := List.mem_map.mp hkSame.referencesColumn
    obtain ⟨t₂, p₂, hpair₂, hcpair₂⟩ := (mem_columnPairs hplacement).mp hcPair
    obtain ⟨hcId, hcId'⟩ := Prod.mk.inj hcIds
    obtain ⟨hc₂, hc₂'⟩ := List.of_mem_zip hcpair₂
    obtain ⟨hc₂mem, hc₂table⟩ := List.mem_filter.mp hc₂
    -- the restored foreign key references a column of the table it references
    obtain rfl : q = q₁ := h.eq_of_id (List.of_mem_zip hqpair).2 hresolves.refTable_mem (hqId.trans hreferenced)
    have hsameColumn := h.eq_of_columnId (List.of_mem_zip hpair₂).2 hresolves.refTable_mem hc₂' hresolves.refColumn_mem
      (hcId'.trans hreferencedColumn)
    obtain rfl := hsameColumn.2
    obtain rfl := eq_of_zip hw hdistinct hforall hpair₂ hqpair
    obtain rfl := hw.columnIds c₂ hc₂mem rc hrc (hcId.trans hid.symm)
    rw [← hrtId]
    exact eq_of_beq hc₂table
  · intro htied
    refine ⟨hname, ?_, ?_, ?_⟩
    · rw [hplacement.tables, List.forall₂_map_right_iff]
      refine (List.forall₂_iff_zip.mpr ⟨hforall.length_eq, fun {t p} hpair => ?_⟩)
      have hcorresponds := List.forall₂_zip hforall hpair
      refine ⟨hcorresponds.name, ?_⟩
      rw [hplacement.columns p (List.of_mem_zip hpair).2]
      exact hcorresponds.columns
    · rintro ⟨t, u⟩ htu fk hfk
      obtain ⟨p, hpair, rfl⟩ := (mem_tablePairs hplacement).mp htu
      obtain ⟨ht, hp⟩ := List.of_mem_zip hpair
      have hentry : (t.name, foreignKeyContent cat fk) ∈ keyEntries (schemaTables cat records d) :=
        mem_keyEntries.mpr ⟨t, ht, fk, hfk, rfl⟩
      obtain ⟨k, hk⟩ := exists_zip_left hkeys hentry
      obtain ⟨hsame, hcolumn⟩ :=
        sameForeignKey_of_madeKey hw h hforall hplacement htied hpair hfk (List.forall₂_zip hkeys hk)
      exact ⟨k, (hplacement.foreignKeys p hp k).mpr ⟨(List.of_mem_zip hk).2, hcolumn⟩, hsame⟩
    · rintro ⟨t, u⟩ htu k hk
      obtain ⟨p, hpair, rfl⟩ := (mem_tablePairs hplacement).mp htu
      obtain ⟨ht, hp⟩ := List.of_mem_zip hpair
      obtain ⟨hmem, c, hc, hid⟩ := (hplacement.foreignKeys p hp k).mp hk
      obtain ⟨entry, hentry⟩ := exists_zip_right hkeys hmem
      obtain ⟨t', ht', fk, hfk, rfl⟩ := mem_keyEntries.mp (List.of_mem_zip hentry).1
      obtain ⟨p', hpair'⟩ := exists_zip_left hforall ht'
      obtain ⟨hsame, c', hc', hid'⟩ :=
        sameForeignKey_of_madeKey hw h hforall hplacement htied hpair' hfk (List.forall₂_zip hkeys hentry)
      -- the column says which table it is
      obtain ⟨-, rfl⟩ := h.eq_of_columnId (List.of_mem_zip hpair').2 hp hc' hc (hid'.trans hid.symm)
      obtain rfl := eq_of_zip hw hdistinct hforall hpair' hpair
      exact ⟨fk, hfk, hsame⟩

end Placed

end Exports
