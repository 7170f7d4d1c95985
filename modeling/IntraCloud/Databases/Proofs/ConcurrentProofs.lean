import IntraCloud.Databases.Proofs.RaceProofs
import IntraCloud.Databases.Proofs.AgreementProofs

/-!
# Two clients leave the databases in agreement

A catalog write turns the rows under way into rows of the catalog, and a compensation takes back what
the DDL has added; neither changes the tables and columns there are beyond that. So once both clients
have finished the catalog describes the tenant database, unless their requests clash: then a
compensation is refused by the other client's constraint.
-/

namespace Databases

open Permissions Relational Transition

section Rows

variable {cat cat' : Catalog} {p q : Option Plan} {t a : DBTable} {c b : DBColumn}

theorem hasTable_congr (h : cat'.tables = cat.tables) :
    HasTable cat' p q a ↔ HasTable cat p q a := by
  unfold HasTable
  rw [h]

theorem hasColumn_congr (h : cat'.columns = cat.columns) :
    HasColumn cat' p q c ↔ HasColumn cat p q c := by
  unfold HasColumn
  rw [h]

theorem hasTable_concat (h : cat'.tables = cat.tables ++ [t]) (hq : q ≠ some (.deleteTable t)) :
    HasTable cat' none q a ↔ HasTable cat none q a ∨ a = t := by
  unfold HasTable
  rw [h, mem_concat]
  constructor
  · rintro (⟨ha | rfl, hrest⟩ | hrest)
    · exact Or.inl (Or.inl ⟨ha, hrest⟩)
    · exact Or.inr rfl
    · exact Or.inl (Or.inr hrest)
  · rintro ((⟨ha, hrest⟩ | hrest) | rfl)
    · exact Or.inl ⟨Or.inl ha, hrest⟩
    · exact Or.inr hrest
    · exact Or.inl ⟨Or.inr rfl, by simp, hq⟩

theorem hasColumn_concat (h : cat'.columns = cat.columns ++ [c]) :
    HasColumn cat' none q b ↔ HasColumn cat none q b ∨ b = c := by
  unfold HasColumn
  rw [h, mem_concat]
  tauto

end Rows

section Step

variable {s₀ s : State} {me you : Task} {plan : Plan}

/-! ## The catalog write -/

/-- A finished request relies on nothing but the table it created. -/
theorem Own.finish {s' : State} {done : Option Plan}
    (hdone : ∀ t pk, done = some (.createTable t pk) → t ∈ s'.catalog.tables) :
    Own s' { me with stage := .finished done } you :=
  { decided := fun _ hp => (nomatch hp)
    fresh := fun _ hp => (nomatch hp)
    adding := fun _ _ _ _ hp => (nomatch hp)
    dropping := fun _ hp => (nomatch hp)
    dropped := fun _ hp => (nomatch hp)
    referring := fun _ _ _ _ _ hp => (nomatch hp)
    created := fun _ _ hp => (nomatch hp)
    added := fun _ _ _ _ hp => (nomatch hp)
    refused := fun _ _ _ _ hp => (nomatch hp)
    deleted := fun _ hp => (nomatch hp)
    finished := fun t pk hp => Or.inl (hdone t pk (Stage.finished.inj hp)) }

/-- The other client keeps what it relies on over a catalog write. -/
theorem Own.frame_write {cat' : Catalog} (h : Own s you me) (hst : me.stage = .applied plan)
    (htables : ∀ t ∈ cat'.tables, t ∈ s.catalog.tables ∨
      ∀ p, you.stage.plan? = some p → t.id ∉ p.ids)
    (hcolumns : ∀ c ∈ cat'.columns, c ∈ s.catalog.columns ∨
      ∀ p, you.stage.plan? = some p → c.id ∉ p.ids)
    (hkept : ∀ t ∈ s.catalog.tables, plan ≠ .deleteTable t → t ∈ cat'.tables)
    (hback : me.request.deletes ≠ none →
      ∀ t ∈ cat'.tables, t ∈ s.catalog.tables ∧ plan ≠ .deleteTable t)
    (hrows : me.request.deletes = none → (∀ t, plan ≠ .deleteTable t) ∧
      ∀ c ∈ s.catalog.columns, c ∈ cat'.columns) :
    Own { s with catalog := cat' } you { me with stage := .finished (some plan) } := by
  have hmade : me.stage.made = some plan := by rw [hst]; rfl
  refine h.frame (Nat.le_refl _) htables hcolumns ?_ (fun hdel => ?_) (fun hno => ?_)
    (fun fk hfk => Or.inl hfk) ?_
  · rintro a ⟨ha, hne⟩
    rw [hmade] at hne
    exact Or.inl ⟨hkept a ha fun heq => hne (congrArg some heq), fun heq => (nomatch heq)⟩
  · refine ⟨fun _ hy => hy, fun a ha => (hback hdel a ha).1, ?_⟩
    rintro a ⟨ha, -⟩
    obtain ⟨hmem, hne⟩ := hback hdel a ha
    exact ⟨hmem, by rw [hmade]; exact fun heq => hne (Option.some.inj heq)⟩
  · obtain ⟨hne, hcols⟩ := hrows hno
    exact ⟨fun a ha => hkept a ha (hne a), hcols⟩
  · rintro a (ha | ha)
    · by_cases hp : plan = .deleteTable a
      · exact Or.inr (by rw [hp])
      · exact Or.inl (hkept a ha hp)
    · rw [hst] at ha
      cases ha

theorem Together.writeCreateTable {t : DBTable} {pk : DBColumn} {cat' : Catalog}
    (h : Together s₀ s me you) (hst : me.stage = .applied (.createTable t pk))
    (hwrite : s.catalog.insertTable t pk = some cat') :
    Together s₀ { s with catalog := cat' }
      { me with stage := .finished (some (.createTable t pk)) } you := by
  have hplan : me.stage.plan? = some (.createTable t pk) := by rw [hst]; rfl
  have hmade : me.stage.made = some (.createTable t pk) := by rw [hst]; rfl
  have hview := h.view
  rw [hmade] at hview
  obtain ⟨⟨id, name, hreq⟩, hlink, -⟩ := h.mine.decided _ hplan
  have htid : t.id ∈ (Plan.createTable t pk).ids := List.mem_cons_self
  have hpkid : pk.id ∈ (Plan.createTable t pk).ids := List.mem_cons_of_mem _ List.mem_cons_self
  obtain ⟨htlt, hnewTable, -⟩ := h.mine.fresh _ hplan _ htid
  obtain ⟨hpklt, -, hnewColumn⟩ := h.mine.fresh _ hplan _ hpkid
  have hrows := h.rows.insertTable (Nat.le_refl _) hnewTable htlt hnewColumn hpklt hlink hwrite
  obtain ⟨-, -, rfl⟩ := insertTable_some hwrite
  have hother : you.stage.made ≠ some (.deleteTable t) :=
    fun hdel => hnewTable t (h.yours.dropped t hdel).1 rfl
  refine
    { rows := hrows
      valid := h.valid
      view := hview.congr (fun a => (hasTable_concat rfl hother).trans hasTable_createTable.symm)
        (fun _ c _ _ => (hasColumn_concat rfl).trans hasColumn_createTable.symm)
      disjoint := fun p q hp => (nomatch hp)
      still := fun hme => (nomatch hme)
      mine := Own.finish fun a x heq => ?_
      yours := h.yours.frame_write hst (fun a ha => ?_) (fun c hc => ?_)
        (fun a ha _ => List.mem_append_left _ ha) (fun hdel => ?_)
        (fun _ => ⟨fun a ha => (nomatch ha), fun c hc => List.mem_append_left _ hc⟩) }
  · cases heq
    exact List.mem_append_right _ (List.mem_singleton.2 rfl)
  · rcases mem_concat.1 ha with ha | rfl
    · exact Or.inl ha
    · exact Or.inr fun p hp => h.disjoint _ p hplan hp _ htid
  · rcases mem_concat.1 hc with hc | rfl
    · exact Or.inl hc
    · exact Or.inr fun p hp => h.disjoint _ p hplan hp _ hpkid
  · exact absurd (by rw [hreq]; rfl) hdel

theorem Together.writeAddColumn {t : DBTable} {c : DBColumn} {index : Option DBIndex}
    {column : PhysicalColumn} {cat' : Catalog} (h : Together s₀ s me you)
    (hst : me.stage = .applied (.addColumn t c index column))
    (hwrite : s.catalog.insertColumn c index = some cat') :
    Together s₀ { s with catalog := cat' }
      { me with stage := .finished (some (.addColumn t c index column)) } you := by
  have hplan : me.stage.plan? = some (.addColumn t c index column) := by rw [hst]; rfl
  have hmade : me.stage.made = some (.addColumn t c index column) := by rw [hst]; rfl
  have hview := h.view
  rw [hmade] at hview
  obtain ⟨spec, hreq, hlink, -⟩ := h.mine.decided _ hplan
  have hcid : c.id ∈ (Plan.addColumn t c index column).ids := List.mem_cons_self
  obtain ⟨hclt, -, hnew⟩ := h.mine.fresh _ hplan _ hcid
  have hrows := h.rows.insertColumn (Nat.le_refl _) hnew hclt hwrite
  obtain ⟨-, -, rfl⟩ := insertColumn_some hwrite
  refine
    { rows := hrows
      valid := h.valid
      view := hview.congr (fun a => (hasTable_congr rfl).trans hasTable_addColumn.symm)
        (fun _ c _ _ => (hasColumn_concat rfl).trans hasColumn_addColumn.symm)
      disjoint := fun p q hp => (nomatch hp)
      still := fun hme => (nomatch hme)
      mine := Own.finish fun a x heq => (nomatch heq)
      yours := h.yours.frame_write hst (fun a ha => Or.inl ha) (fun b hb => ?_)
        (fun a ha _ => ha) (fun hdel => ?_)
        (fun _ => ⟨fun a ha => (nomatch ha), fun b hb => List.mem_append_left _ hb⟩) }
  · rcases mem_concat.1 hb with hb | rfl
    · exact Or.inl hb
    · exact Or.inr fun p hp => h.disjoint _ p hplan hp _ hcid
  · exact absurd (by rw [hreq]; rfl) hdel

theorem Together.writeAddForeignKey {fk : DBForeignKey} {c rc : DBColumn} {t rt : DBTable}
    {cat' : Catalog} (h : Together s₀ s me you)
    (hst : me.stage = .applied (.addForeignKey fk c t rt rc))
    (hwrite : s.catalog.insertForeignKey fk = some cat') :
    Together s₀ { s with catalog := cat' }
      { me with stage := .finished (some (.addForeignKey fk c t rt rc)) } you := by
  have hplan : me.stage.plan? = some (.addForeignKey fk c t rt rc) := by rw [hst]; rfl
  have hmade : me.stage.made = some (.addForeignKey fk c t rt rc) := by rw [hst]; rfl
  have hview := h.view
  rw [hmade] at hview
  obtain ⟨-, tableId, hreq⟩ := h.mine.decided _ hplan
  obtain ⟨-, rfl⟩ := insertForeignKey_some hwrite
  refine
    { rows := { h.rows with }
      valid := h.valid
      view := hview.congr (fun a => (hasTable_congr rfl).trans hasTable_addForeignKey.symm)
        (fun _ c _ _ => (hasColumn_congr rfl).trans hasColumn_addForeignKey.symm)
      disjoint := fun p q hp => (nomatch hp)
      still := fun hme => (nomatch hme)
      mine := Own.finish fun a x heq => (nomatch heq)
      yours := h.yours.frame_write hst (fun a ha => Or.inl ha) (fun b hb => Or.inl hb)
        (fun a ha _ => ha) (fun hdel => ?_)
        (fun _ => ⟨fun a ha => (nomatch ha), fun b hb => hb⟩) }
  exact absurd (by rw [hreq]; rfl) hdel

theorem Together.writeDeleteTable {t : DBTable} (h : Together s₀ s me you)
    (hst : me.stage = .applied (.deleteTable t)) :
    Together s₀ { s with catalog := s.catalog.deleteTable t }
      { me with stage := .finished (some (.deleteTable t)) } you := by
  have hplan : me.stage.plan? = some (.deleteTable t) := by rw [hst]; rfl
  have hmade : me.stage.made = some (.deleteTable t) := by rw [hst]; rfl
  have hview := h.view
  rw [hmade] at hview
  have hreq : me.request = .deleteTable t.id := h.mine.decided _ hplan
  obtain ⟨ht, hother⟩ := h.mine.dropped t hmade
  have hmem : ∀ {a}, a ∈ (s.catalog.deleteTable t).tables ↔ a ∈ s.catalog.tables ∧ a ≠ t := by
    intro a
    unfold Catalog.deleteTable
    rw [mem_deleteTables_tables, beq_eq_false_iff_ne]
    refine and_congr_right fun ha => not_congr ⟨fun heq => h.rows.tableIds a ha t ht heq, ?_⟩
    rintro rfl
    rfl
  have hyouTable : ∀ {a}, (∃ pk, you.stage.made = some (.createTable a pk)) → a.id ≠ t.id := by
    rintro a ⟨pk, hp⟩ heq
    exact (h.yours.fresh _ (Stage.plan?_of_made hp) a.id List.mem_cons_self).2.1 t ht heq.symm
  refine
    { rows := h.rows.deleteTables _
      valid := h.valid
      view := hview.congr (fun a => ?_) (fun a c ha hlink => ?_)
      disjoint := fun p q hp => (nomatch hp)
      still := fun hme => (nomatch hme)
      mine := Own.finish fun a x heq => (nomatch heq)
      yours := h.yours.frame_write hst (fun a ha => Or.inl (hmem.1 ha).1)
        (fun b hb => Or.inl (mem_deleteTables_columns.1 hb).1)
        (fun a ha hne => hmem.2 ⟨ha, fun heq => hne (by rw [heq])⟩) (fun _ a ha => ?_)
        (fun hdel => ?_) }
  · rw [hasTable_deleteTable fun x hx => hyouTable ⟨x, hx⟩ rfl]
    unfold HasTable
    rw [hmem]
    constructor
    · rintro (⟨⟨ha, hne⟩, hrest⟩ | ⟨_, ha⟩ | ha)
      · exact ⟨Or.inl ⟨ha, hrest⟩, hne⟩
      · cases ha
      · exact ⟨Or.inr (Or.inr ha), fun heq => hyouTable ha (by rw [heq])⟩
    · rintro ⟨⟨ha, hrest⟩ | ⟨_, ha⟩ | ha, hne⟩
      · exact Or.inl ⟨⟨ha, hne⟩, hrest⟩
      · cases ha
      · exact Or.inr (Or.inr ha)
  · -- the columns that go are those of the table
    have hkeep : s.catalog.goneTable (fun x => x.id == t.id) c.table = false := by
      rw [Bool.eq_false_iff]
      intro hgone
      obtain ⟨x, -, hx⟩ := List.any_eq_true.1 hgone
      simp only [Bool.and_eq_true, beq_iff_eq] at hx
      have hat : a.id = t.id := hlink.symm.trans (hx.1.symm.trans hx.2)
      rcases ha with ⟨ha, hne, -⟩ | ⟨_, ha⟩ | ha
      · exact hne (by rw [h.rows.tableIds a ha t ht hat])
      · cases ha
      · exact hyouTable ha hat
    rw [hasColumn_deleteTable]
    unfold HasColumn Catalog.deleteTable
    rw [mem_deleteTables_columns, hkeep]
    simp only [and_true]
    exact Iff.rfl
  · obtain ⟨ha, hne⟩ := hmem.1 ha
    refine ⟨ha, fun heq => hne ?_⟩
    cases heq
    rfl
  · rw [hreq] at hdel
    cases hdel

/-! ## The compensation -/

/-- The other client keeps what it relies on over a compensation. -/
theorem Own.frame_undo {ten' : Tenant} (h : Own s you me) (hst : me.stage = .undoing plan)
    (hne : ∀ t, plan ≠ .deleteTable t) (htables : ∀ y ∈ ten'.tables, y ∈ s.tenant.tables)
    (hfks : ∀ fk ∈ ten'.foreignKeys, fk ∈ s.tenant.foreignKeys) :
    Own { s with tenant := ten' } you { me with stage := .finished none } := by
  have hmade : me.stage.made = some plan := by rw [hst]; rfl
  refine h.frame (Nat.le_refl _) (fun a ha => Or.inl ha) (fun c hc => Or.inl hc)
    (fun a ha => Or.inl ⟨ha.1, fun heq => (nomatch heq)⟩) (fun _ => ?_)
    (fun _ => ⟨fun _ ha => ha, fun _ hc => hc⟩) (fun fk hfk => Or.inl (hfks fk hfk)) ?_
  · refine ⟨htables, fun _ ha => ha, ?_⟩
    rintro a ⟨ha, -⟩
    exact ⟨ha, by rw [hmade]; exact fun heq => hne a (Option.some.inj heq)⟩
  · rintro a (ha | ha)
    · exact Or.inl ha
    · rw [hst] at ha
      cases ha

theorem Together.undoCreateTable {t : DBTable} {pk : DBColumn} (h : Together s₀ s me you)
    (hst : me.stage = .undoing (.createTable t pk)) :
    ∃ ten', s.tenant.exec (.dropTable ⟨t.tenantDatabase⟩ t.name) = some ten' ∧
      Together s₀ { s with tenant := ten' } { me with stage := .finished none } you := by
  have hplan : me.stage.plan? = some (.createTable t pk) := by rw [hst]; rfl
  have hmade : me.stage.made = some (.createTable t pk) := by rw [hst]; rfl
  have hview := h.view
  rw [hmade] at hview
  obtain ⟨-, hlink, -⟩ := h.mine.decided _ hplan
  have ht : HasTable s.catalog (some (.createTable t pk)) you.stage.made t :=
    hasTable_createTable.2 (Or.inr rfl)
  -- nothing refers to the table, so PostgreSQL drops it
  have hnofk := h.mine.created t pk hmade
  have hexec := Tenant.exec_dropTable.2 ⟨⟨hview.physical_mem ht,
    fun fk hfk h1 h2 => absurd (by rw [h1, h2]; rfl) (hnofk fk hfk)⟩, rfl⟩
  refine ⟨_, hexec, ?_⟩
  have hview' := hview.dropTable ht hexec
  have hnew := (h.mine.fresh _ hplan t.id List.mem_cons_self).2.1
  refine
    { rows := h.rows
      valid := h.valid.exec hexec
      view := hview'.congr (fun a => ?_) (fun a c ha hlink' => ?_)
      disjoint := fun p q hp => (nomatch hp)
      still := fun hme => (nomatch hme)
      mine := Own.finish fun a x heq => (nomatch heq)
      yours := h.yours.frame_undo hst (fun a ha => (nomatch ha))
        (fun y hy => (List.mem_filter.1 hy).1) (fun fk hfk => (List.mem_filter.1 hfk).1) }
  · rw [hasTable_createTable]
    constructor
    · intro ha
      refine ⟨Or.inl ha, ?_⟩
      rintro rfl
      rcases ha with ⟨ha, -⟩ | ⟨_, ha⟩ | ⟨q, ha⟩
      · exact hnew a ha rfl
      · cases ha
      · exact (h.table_ne hplan).1 a q ha rfl
    · rintro ⟨ha | rfl, hne⟩
      · exact ha
      · exact absurd rfl hne
  · rw [hasColumn_createTable]
    refine ⟨Or.inl, ?_⟩
    rintro (hc | rfl)
    · exact hc
    · exact absurd (hview.ids a t ha.1 ht (hlink'.symm.trans hlink)) ha.2

/-- The other client inserts no column row with the id of one under way. -/
theorem Together.columnNotYours {t : DBTable} {c : DBColumn} {index : Option DBIndex}
    {column : PhysicalColumn} (h : Together s₀ s me you)
    (hplan : me.stage.plan? = some (.addColumn t c index column)) :
    ¬ Inserts you.stage.made c := by
  have hcid : c.id ∈ (Plan.addColumn t c index column).ids := List.mem_cons_self
  rintro (⟨a, hp⟩ | ⟨a, i, x, hp⟩)
  · exact h.disjoint _ _ hplan (Stage.plan?_of_made hp) _ hcid
      (List.mem_cons_of_mem _ List.mem_cons_self)
  · exact h.disjoint _ _ hplan (Stage.plan?_of_made hp) _ hcid List.mem_cons_self

/-- The column is dropped unless its table has gone before. -/
theorem Together.undoAddColumn {t : DBTable} {c : DBColumn} {index : Option DBIndex}
    {column : PhysicalColumn} (h : Together s₀ s me you)
    (hst : me.stage = .undoing (.addColumn t c index column)) :
    Together s₀
      { s with tenant :=
        (s.tenant.exec (.dropColumn ⟨t.tenantDatabase⟩ t.name c.name)).getD s.tenant }
      { me with stage := .finished none } you := by
  have hplan : me.stage.plan? = some (.addColumn t c index column) := by rw [hst]; rfl
  have hmade : me.stage.made = some (.addColumn t c index column) := by rw [hst]; rfl
  have hview := h.view
  rw [hmade] at hview
  obtain ⟨spec, -, hlink, -, -, rfl, -⟩ := h.mine.decided _ hplan
  have hcnew := (h.mine.fresh _ hplan c.id List.mem_cons_self).2.2
  have hc : HasColumn s.catalog (some (.addColumn t c index (t.physicalColumn c)))
      you.stage.made c := hasColumn_addColumn.2 (Or.inr rfl)
  rcases h.mine.adding t c index _ hplan with hk | ⟨hgone, hids, hdel⟩
  · have ht : HasTable s.catalog (some (.addColumn t c index (t.physicalColumn c)))
        you.stage.made t := Or.inl ⟨hk.1, by simp, hk.2⟩
    -- the row was refused for its numbers, and nothing refers to such a column
    have href := h.mine.added t c index _ hmade hk (h.mine.refused t c index _ hst hk)
    have hthere : ∃ x ∈ s.tenant.columns, x.At ⟨t.tenantDatabase⟩ t.name c.name :=
      ⟨_, hview.column_mem ht hc hlink, rfl, rfl, rfl⟩
    have hexec := Tenant.exec_dropColumn.2 ⟨⟨hthere, href⟩, rfl⟩
    have hview' := hview.dropColumn ht hc hlink hexec
    rw [hexec, Option.getD_some]
    refine
      { rows := h.rows
        valid := h.valid.exec hexec
        view := hview'.congr (fun a => hasTable_addColumn.symm) (fun a b _ _ => ?_)
        disjoint := fun p q hp => (nomatch hp)
        still := fun hme => (nomatch hme)
        mine := Own.finish fun a x heq => (nomatch heq)
        yours := h.yours.frame_undo hst (fun a ha => (nomatch ha)) (fun y hy => hy)
          (fun fk hfk => (List.mem_filter.1 hfk).1) }
    rw [hasColumn_addColumn]
    constructor
    · intro hb
      refine ⟨Or.inl hb, ?_⟩
      rintro rfl
      rcases hb with hb | (⟨_, hb⟩ | ⟨_, _, _, hb⟩) | hb
      · exact hcnew b hb rfl
      · cases hb
      · cases hb
      · exact h.columnNotYours hplan hb
    · rintro ⟨hb | rfl, hne⟩
      · exact hb
      · exact absurd rfl hne
  · have hexec : s.tenant.exec (.dropColumn ⟨t.tenantDatabase⟩ t.name c.name) = none := by
      rw [Option.eq_none_iff_forall_ne_some]
      intro ten' hexec
      obtain ⟨⟨⟨x, hx, h1, h2, -⟩, -⟩, -⟩ := Tenant.exec_dropColumn.1 hexec
      have hmem := h.valid.column_table x hx
      rw [h1, h2] at hmem
      exact hgone hmem
    rw [hexec, Option.getD_none]
    refine
      { rows := h.rows
        valid := h.valid
        view := hview.congr (fun a => hasTable_addColumn.symm) (fun a b ha hlink' => ?_)
        disjoint := fun p q hp => (nomatch hp)
        still := fun hme => (nomatch hme)
        mine := Own.finish fun a x heq => (nomatch heq)
        yours := h.yours.frame_undo hst (fun a ha => (nomatch ha)) (fun y hy => hy)
          (fun fk hfk => hfk) }
    rw [hasColumn_addColumn]
    refine ⟨Or.inl, ?_⟩
    rintro (hb | rfl)
    · exact hb
    · -- the table of the column is not there
      exfalso
      have hat : a.id = t.id := hlink'.symm.trans hlink
      have hmem := hview.physical_mem ha
      rw [hasTable_addColumn] at ha
      rcases ha with ⟨ha, -⟩ | ⟨_, ha⟩ | ⟨q, ha⟩
      · rw [hids a ha hat] at hmem
        exact hgone hmem
      · cases ha
      · obtain ⟨⟨id, name, hyreq⟩, -⟩ := h.yours.decided _ (Stage.plan?_of_made ha)
        exact hdel (by rw [hyreq]; rfl)

theorem Together.undoAddForeignKey {fk : DBForeignKey} {c rc : DBColumn} {t rt : DBTable}
    (h : Together s₀ s me you) (hst : me.stage = .undoing (.addForeignKey fk c t rt rc)) :
    Together s₀
      { s with tenant :=
        (s.tenant.exec (.dropConstraint ⟨t.tenantDatabase⟩ t.name c.id)).getD s.tenant }
      { me with stage := .finished none } you := by
  have hmade : me.stage.made = some (.addForeignKey fk c t rt rc) := by rw [hst]; rfl
  have hview := h.view
  rw [hmade] at hview
  have hsub : ∀ ten', (s.tenant.exec (.dropConstraint ⟨t.tenantDatabase⟩ t.name c.id)).getD
      s.tenant = ten' → ten'.Valid ∧ ten'.tables = s.tenant.tables ∧
        ten'.columns = s.tenant.columns ∧ ∀ x ∈ ten'.foreignKeys, x ∈ s.tenant.foreignKeys := by
    rintro ten' rfl
    cases hexec : s.tenant.exec (.dropConstraint ⟨t.tenantDatabase⟩ t.name c.id) with
    | none => exact ⟨h.valid, rfl, rfl, fun x hx => hx⟩
    | some ten' =>
      have hvalid := h.valid.exec hexec
      obtain ⟨-, rfl⟩ := Tenant.exec_dropConstraint.1 hexec
      exact ⟨hvalid, rfl, rfl, fun x hx => (List.mem_filter.1 hx).1⟩
  obtain ⟨hvalid, htables, hcolumns, hfks⟩ := hsub _ rfl
  exact
    { rows := h.rows
      valid := hvalid
      view := (hview.of_eq htables hcolumns).congr (fun a => hasTable_addForeignKey.symm)
        (fun _ c _ _ => hasColumn_addForeignKey.symm)
      disjoint := fun p q hp => (nomatch hp)
      still := fun hme => (nomatch hme)
      mine := Own.finish fun a x heq => (nomatch heq)
      yours := h.yours.frame_undo hst (fun a ha => (nomatch ha)) (fun y hy => htables ▸ hy) hfks }

/-! ## One step -/

/-- A request that stops before its DDL has gone through. -/
theorem Together.stop (h : Together s₀ s me you) (hmade : me.stage.made = none)
    (hst : me.stage.isFinished = false) :
    Together s₀ s { me with stage := .finished none } you := by
  have hview := h.view
  rw [hmade] at hview
  refine
    { rows := h.rows
      valid := h.valid
      view := hview
      disjoint := fun p q hp => (nomatch hp)
      still := fun hme => (nomatch hme)
      mine := Own.finish fun a x heq => (nomatch heq)
      yours := h.yours.frame_idle (Nat.le_refl _) rfl rfl hmade.symm fun t ht => ?_ }
  rw [ht] at hst
  cases hst

/-- The catalog write has failed: for the numbers of a column where its table is still there. -/
theorem Together.fail (h : Together s₀ s me you) (hst : me.stage = .applied plan)
    (hwrite : plan.change.write s.catalog = none) :
    Together s₀ s { me with stage := .undoing plan } you := by
  have hplan : me.stage.plan? = some plan := by rw [hst]; rfl
  have hmade : me.stage.made = some plan := by rw [hst]; rfl
  have hview := h.view
  rw [hmade] at hview
  refine
    { rows := h.rows
      valid := h.valid
      view := hview
      disjoint := fun p q hp hq => h.disjoint p q (hplan.trans hp) hq
      still := fun _ hy =>
        have hs := h.still (by rw [hst]; rfl) hy
        hs.advance rfl (hs.mine (by simp [hst]))
      mine :=
        { decided := fun p hp => h.mine.decided p (hplan.trans hp)
          fresh := fun p hp => h.mine.fresh p (hplan.trans hp)
          adding := fun t c index column hp => h.mine.adding t c index column (hplan.trans hp)
          dropping := fun t hp => (nomatch hp)
          dropped := fun t hp => h.mine.dropped t (hmade.trans hp)
          referring := fun fk c t rt rc hp => (nomatch hp)
          created := fun t pk hp => h.mine.created t pk (hmade.trans hp)
          added := fun t c index column hp => h.mine.added t c index column (hmade.trans hp)
          refused := fun t c index column hp hk => ?_
          deleted := fun t hp => ?_
          finished := fun t pk hp => (nomatch hp) }
      yours := h.yours.frame_idle (Nat.le_refl _) rfl rfl hmade.symm fun t ht => ?_ }
  · -- refused
    cases hp
    obtain ⟨spec, -, hlink, -⟩ := h.mine.decided _ hplan
    have hcnew := (h.mine.fresh _ hplan c.id List.mem_cons_self).2.2
    have ht : HasTable s.catalog (some (.addColumn t c index column)) you.stage.made t :=
      Or.inl ⟨hk.1, by simp, hk.2⟩
    have htable : s.catalog.tables.any (fun x => x.id == c.table) = true :=
      List.any_eq_true.2 ⟨t, hk.1, beq_iff_eq.2 hlink.symm⟩
    have hname : s.catalog.columns.any (fun x => x.table == c.table && x.name == c.name) = false := by
      rw [List.any_eq_false]
      intro x hx heq
      simp only [Bool.and_eq_true, beq_iff_eq] at heq
      have hxc : x = c := hview.columnNames t x c ht (Or.inl hx)
        (hasColumn_addColumn.2 (Or.inr rfl)) (heq.1.trans hlink) hlink heq.2
      exact hcnew x hx (by rw [hxc])
    simp only [Plan.change, Catalog.insertColumn, htable, hname] at hwrite
    cases hfit : Catalog.numbersFit c with
    | false => rfl
    | true => simp [hfit] at hwrite
  · -- deleted
    cases hp
    cases hwrite
  · rw [hst] at ht
    cases ht

/-- One step of a client keeps the invariant. -/
theorem Together.advance (h : Together s₀ s me you) (hon : me.request.onTables = true)
    (hclash : ¬ you.clashes s₀ me) (refuses : Bool) :
    Together s₀ (me.advance refuses s).1 { me with stage := (me.advance refuses s).2 } you := by
  unfold Task.advance
  cases hst : me.stage with
  | waiting =>
    have hstop := h.stop (by rw [hst]; rfl) (by rw [hst]; rfl)
    dsimp only
    split
    · exact hstop
    rename_i svc hsvc
    split
    · exact hstop
    rename_i hperm
    split
    · exact hstop
    rename_i plan hplan
    obtain ⟨hd, hids, hfound⟩ := (resolve_ok hsvc).decides hon hplan
    have hpasses : me.request.passes s me.actor = true := by
      rw [Bool.not_eq_true', Bool.not_eq_false] at hperm
      simp only [SchemaRequest.passes, hsvc, hperm, hplan, Except.toBool, Bool.and_self]
    exact h.decide hst hpasses hd hids hfound
  | planned plan =>
    have hstop := h.stop (by rw [hst]; rfl) (by rw [hst]; rfl)
    have hd := h.mine.decided plan (by rw [hst]; rfl)
    dsimp only
    split
    · exact hstop
    rename_i ten' hddl
    have hexec : s.tenant.exec plan.change.ddl = some ten' := by
      unfold executeTenantDdl at hddl
      split at hddl
      · cases hddl
      · exact hddl
    cases plan with
    | createTable t pk => exact h.applyCreateTable hst hexec
    | addColumn t c index column => exact h.applyAddColumn hst hexec
    | addForeignKey fk c t rt rc => exact h.applyAddForeignKey hst hclash hexec
    | deleteTable t => exact h.applyDeleteTable hst hexec
    | createTenantDatabase d => exact hd.elim
    | deleteTenantDatabase d => exact hd.elim
  | applied plan =>
    have hd := h.mine.decided plan (by rw [hst]; rfl)
    dsimp only
    split
    · rename_i cat' hwrite
      cases plan with
      | createTable t pk => exact h.writeCreateTable hst hwrite
      | addColumn t c index column => exact h.writeAddColumn hst hwrite
      | addForeignKey fk c t rt rc => exact h.writeAddForeignKey hst hwrite
      | deleteTable t =>
        cases hwrite
        exact h.writeDeleteTable hst
      | createTenantDatabase d => exact hd.elim
      | deleteTenantDatabase d => exact hd.elim
    · rename_i hwrite
      exact h.fail hst hwrite
  | undoing plan =>
    have hd := h.mine.decided plan (by rw [hst]; rfl)
    dsimp only
    cases plan with
    | createTable t pk =>
      obtain ⟨ten', hexec, hnext⟩ := h.undoCreateTable hst
      simp only [Plan.change, Option.bind_some, hexec]
      exact hnext
    | addColumn t c index column =>
      have hnext := h.undoAddColumn hst
      simp only [Plan.change, Option.bind_some]
      split
      · rename_i ten' hexec
        rwa [hexec] at hnext
      · rename_i hexec
        rwa [hexec] at hnext
    | addForeignKey fk c t rt rc =>
      have hnext := h.undoAddForeignKey hst
      simp only [Plan.change, Option.bind_some]
      split
      · rename_i ten' hexec
        rwa [hexec] at hnext
      · rename_i hexec
        rwa [hexec] at hnext
    | deleteTable t => exact absurd hst (h.mine.deleted t)
    | createTenantDatabase d => exact hd.elim
    | deleteTenantDatabase d => exact hd.elim
  | finished done =>
    dsimp only
    rw [← hst]
    exact h

end Step

/-! ## Whole runs -/

/-- The two requests are on tables and do not clash, and the invariant holds. -/
structure RaceInv (s₀ : State) (x : Race) : Prop where
  onTables : ∀ k, (x.task k).request.onTables = true
  noClash : ∀ k, ¬ (x.task k).clashes s₀ (x.task !k)
  together : Together s₀ x.state (x.task false) (x.task true)

theorem RaceInv.step {s₀ : State} {x : Race} (h : RaceInv s₀ x) (a : Bool × Bool) :
    RaceInv s₀ (x.step a) := by
  obtain ⟨k, refuses⟩ := a
  have hask : ∀ j, ((x.step (k, refuses)).task j).request = (x.task j).request ∧
      ((x.step (k, refuses)).task j).actor = (x.task j).actor := by
    intro j
    simp only [Race.step]
    split
    · rename_i heq
      rw [heq]
      exact ⟨rfl, rfl⟩
    · exact ⟨rfl, rfl⟩
  refine ⟨fun j => ?_, fun j => ?_, ?_⟩
  · rw [(hask j).1]
    exact h.onTables j
  · unfold Task.clashes
    rw [(hask j).1, (hask j).2, (hask !j).1, (hask !j).2]
    exact h.noClash j
  cases k with
  | false => exact h.together.advance (h.onTables false) (h.noClash true) refuses
  | true => exact (h.together.symm.advance (h.onTables true) (h.noClash false) refuses).symm

/-- Where the rows describe the tables and columns, so does the view. -/
theorem matches_of_tablesAgree {s : State} (hs : Sound s) (ha : TablesAgree s.catalog s.tenant) :
    Matches (HasTable s.catalog none none) (HasColumn s.catalog none none) s.tenant := by
  have hw := hs.wellFormed
  have hT : ∀ t, HasTable s.catalog none none t ↔ t ∈ s.catalog.tables := by simp [HasTable]
  have hC : ∀ c, HasColumn s.catalog none none c ↔ c ∈ s.catalog.columns := by
    simp [HasColumn, Inserts]
  have hview : Matches (· ∈ s.catalog.tables) (· ∈ s.catalog.columns) s.tenant := by
    refine ⟨fun a b ha hb => hw.tableIds a ha b hb, fun a b ha hb => hw.tableNames a ha b hb,
      fun t a b _ ha hb hat hbt hname => ?_, fun y => ?_, fun y => ?_⟩
    · exact hw.columnNames a ha b hb (Prod.ext (hat.trans hbt.symm) hname)
    · rw [sameMembers_iff.1 ha.1 y]
      simp only [Catalog.describes, List.mem_map]
    · rw [sameMembers_iff.1 ha.2 y]
      simp only [Catalog.describes]
      rw [mem_physicalColumns]
      constructor
      · rintro ⟨c, hc, t, ht, hid, rfl⟩
        exact ⟨t, c, ht, hc, hid.symm, rfl⟩
      · rintro ⟨t, c, ht, hc, hlink, rfl⟩
        exact ⟨c, hc, t, ht, hlink.symm, rfl⟩
  exact hview.congr hT fun _ c _ _ => hC c

theorem tablesAgree_of_matches {cat : Catalog} {ten : Tenant}
    (h : Matches (HasTable cat none none) (HasColumn cat none none) ten) : TablesAgree cat ten := by
  have hT : ∀ t, HasTable cat none none t ↔ t ∈ cat.tables := by simp [HasTable]
  have hC : ∀ c, HasColumn cat none none c ↔ c ∈ cat.columns := by simp [HasColumn, Inserts]
  refine ⟨sameMembers_iff.2 fun y => ?_, sameMembers_iff.2 fun y => ?_⟩
  · rw [h.tables y]
    simp only [hT, Catalog.describes, List.mem_map]
  · rw [h.columns y]
    simp only [hT, hC, Catalog.describes]
    rw [mem_physicalColumns]
    constructor
    · rintro ⟨t, c, ht, hc, hlink, rfl⟩
      exact ⟨c, hc, t, ht, hlink.symm, rfl⟩
    · rintro ⟨c, hc, t, ht, hid, rfl⟩
      exact ⟨t, c, ht, hc, hid.symm, rfl⟩

/-- A request that has not begun relies on nothing. -/
theorem Own.waiting {s : State} {me you : Task} (hst : me.stage = .waiting) : Own s me you := by
  have hplan : me.stage.plan? = none := by rw [hst]; rfl
  have hmade : me.stage.made = none := by rw [hst]; rfl
  exact
    { decided := fun _ hp => absurd (hplan.symm.trans hp) (fun heq => (nomatch heq))
      fresh := fun _ hp => absurd (hplan.symm.trans hp) (fun heq => (nomatch heq))
      adding := fun _ _ _ _ hp => absurd (hplan.symm.trans hp) (fun heq => (nomatch heq))
      dropping := fun _ hp => absurd (hst.symm.trans hp) (fun heq => (nomatch heq))
      dropped := fun _ hp => absurd (hmade.symm.trans hp) (fun heq => (nomatch heq))
      referring := fun _ _ _ _ _ hp => absurd (hst.symm.trans hp) (fun heq => (nomatch heq))
      created := fun _ _ hp => absurd (hmade.symm.trans hp) (fun heq => (nomatch heq))
      added := fun _ _ _ _ hp => absurd (hmade.symm.trans hp) (fun heq => (nomatch heq))
      refused := fun _ _ _ _ hp => absurd (hst.symm.trans hp) (fun heq => (nomatch heq))
      deleted := fun _ hp => absurd (hst.symm.trans hp) (fun heq => (nomatch heq))
      finished := fun _ _ hp => absurd (hst.symm.trans hp) (fun heq => (nomatch heq)) }

theorem raceInv_start {s : State} {task : Bool → Task} (hs : Sound s)
    (hagree : TablesAgree s.catalog s.tenant) (hwait : ∀ k, (task k).stage = .waiting)
    (hon : ∀ k, (task k).request.onTables = true)
    (hclash : ∀ k, ¬ (task k).clashes s (task !k)) : RaceInv s ⟨s, task⟩ := by
  refine ⟨hon, hclash, ?_⟩
  have hview := matches_of_tablesAgree hs hagree
  refine
    { rows := hs.wellFormed.toTableRows
      valid := hs.valid
      view := ?_
      disjoint := fun p q hp => ?_
      still := fun _ _ => ⟨rfl, fun hne => absurd (hwait false) hne,
        fun hne => absurd (hwait true) hne⟩
      mine := Own.waiting (hwait false)
      yours := Own.waiting (hwait true) }
  · dsimp only
    rw [hwait false, hwait true]
    exact hview
  · dsimp only at hp
    rw [hwait false] at hp
    cases hp

theorem Stage.made_of_isFinished {stage : Stage} (h : stage.isFinished = true) :
    stage.made = none := by
  cases stage with
  | finished => rfl
  | waiting | planned | applied | undoing => cases h

/-- From a reachable state in which the tables and columns agree, and for requests of two clients that
do not clash, in whatever order their steps come: once both have finished the tables and columns agree
again, and a table whose creation succeeded is there unless the other client has deleted it. -/
theorem tablesAgree_of_not_clashes (s₀ : State) (history : List Action) (task : Bool → Task)
    (schedule : List (Bool × Bool)) (hcat : s₀.catalog = Catalog.empty)
    (hten : s₀.tenant = Tenant.empty)
    (hagree : TablesAgree (run step s₀ history).catalog (run step s₀ history).tenant)
    (hwait : ∀ k, (task k).stage = .waiting) (hon : ∀ k, (task k).request.onTables = true)
    (hclash : ∀ k, ¬ (task k).clashes (run step s₀ history) (task !k))
    (hdone : ∀ k, ((run Race.step ⟨run step s₀ history, task⟩ schedule).task k).stage.isFinished =
      true) :
    let x := run Race.step ⟨run step s₀ history, task⟩ schedule
    TablesAgree x.state.catalog x.state.tenant ∧
      ∀ k t pk, (x.task k).stage = .finished (some (.createTable t pk)) →
        t.physical ∈ x.state.tenant.tables ∨
          (x.task !k).stage = .finished (some (.deleteTable t)) := by
  intro x
  have hstart : Sound s₀ := ⟨hcat ▸ wellFormed_empty _, hten ▸ Tenant.valid_empty⟩
  have hs : Sound (run step s₀ history) :=
    run_invariant_of_forall (fun _ a hs => sound_step a hs) hstart history
  have hinv : RaceInv (run step s₀ history) x :=
    run_invariant_of_forall (fun _ a h => h.step a) (raceInv_start hs hagree hwait hon hclash) schedule
  have hview := hinv.together.view
  rw [Stage.made_of_isFinished (hdone false), Stage.made_of_isFinished (hdone true)] at hview
  refine ⟨tablesAgree_of_matches hview, fun k t pk hk => ?_⟩
  have hmem : t ∈ x.state.catalog.tables → t.physical ∈ x.state.tenant.tables :=
    fun ht => hview.physical_mem (Or.inl ⟨ht, by simp, by simp⟩)
  cases k with
  | false => exact (hinv.together.mine.finished t pk hk).imp_left hmem
  | true => exact (hinv.together.yours.finished t pk hk).imp_left hmem

/-! ## Two requests on one table -/

/-- A request of the owner that has not begun. -/
def asked (request : SchemaRequest) : Task := { actor := 10, request, stage := .waiting }

/-- One client adds a column to a table that the other one deletes; the column goes with the table, and
the write of its row fails. -/
theorem tablesAgree_of_not_clashes_add_delete :
    let task := fun k => asked
      (if k then .deleteTable 102 else .addColumn 102 { name := "age", dataType := .integer })
    let x := run Race.step ⟨run step emptyProject twoTables, task⟩
      [(false, false), (true, false), (false, false), (true, false), (true, false), (false, false),
        (false, false)]
    TablesAgree x.state.catalog x.state.tenant ∧
      ∀ k t pk, (x.task k).stage = .finished (some (.createTable t pk)) →
        t.physical ∈ x.state.tenant.tables ∨
          (x.task !k).stage = .finished (some (.deleteTable t)) :=
  tablesAgree_of_not_clashes emptyProject twoTables _ _ rfl rfl (by decide) (by decide) (by decide)
    (by decide) (by decide)

/-- One client adds a unique column whose length its row cannot hold; before that write fails the other
one adds a foreign key to the column, through a column of the same name of another table. The
compensation is refused, and the column stays without a row. -/
theorem not_tablesAgree_of_clash :
    let task := fun k => asked
      (if k then .addForeignKey 106 108 106 104 .restrict
        else .addColumn 106 { name := "code", dataType := .text, maxLength := some 2147483648,
                              isUnique := true })
    let x := run Race.step ⟨run step emptyProject twoTables, task⟩
      [(false, false), (true, false), (false, false), (true, false), (true, false), (false, false),
        (false, false)]
    (∀ k, (x.task k).stage.isFinished = true) ∧ ¬ TablesAgree x.state.catalog x.state.tenant := by
  decide

end Databases
