import IntraCloud.Relational.References
import Mathlib.Data.List.Nodup

/-!
# Inserting rows one after another

After every insert the foreign keys of the new row are checked against the rows that are there, the new one
among them. Nothing waits for the end of the transaction. Closed contents go in table by table, in an order that puts
a table after the tables it references, exactly where the references within one table go backward.
-/

namespace Relational

variable {τ ρ κ ν : Type}

section Rows

variable [BEq τ]

/-- The rows of a table among those stored. -/
def rowsOf (stored : List (τ × ρ)) (t : τ) : List ρ := (stored.filter fun x => x.1 == t).map (·.2)

namespace Values

variable (m : Values ρ κ ν) (fks : List (ForeignKey τ κ))

/-- The insert is not refused. -/
def accepts (stored : List (τ × ρ)) (x : τ × ρ) : Bool :=
  fks.all fun fk => !(fk.table == x.1) || m.resolves fk x.2 (rowsOf (stored ++ [x]) fk.refTable)

/-- The inserts into stored rows, up to the first one that is refused. -/
def insertAll : (stored inserts : List (τ × ρ)) → Except (τ × ρ) (List (τ × ρ))
  | stored, [] => .ok stored
  | stored, x :: inserts =>
    if m.accepts fks stored x then insertAll (stored ++ [x]) inserts else .error x

/-- No row comes before a row it refers to. -/
def InOrder (inserts : List (τ × ρ)) : Prop :=
  ∀ before x after, inserts = before ++ x :: after → m.accepts fks before x = true

end Values

end Rows

/-- The rows of tables, one table after another. -/
def tableByTable (rows : τ → List ρ) (order : List τ) : List (τ × ρ) :=
  order.flatMap fun t => (rows t).map fun r => (t, r)

/-- The rows of one table refer to themselves or to rows before them. -/
def Values.Backward (m : Values ρ κ ν) (fk : ForeignKey τ κ) (rows : List ρ) : Prop :=
  ∀ before r after, rows = before ++ r :: after → m.resolves fk r (before ++ [r]) = true

/-- Every table comes after the other tables it references. -/
def AfterReferenced (fks : List (ForeignKey τ κ)) (order : List τ) : Prop :=
  ∀ before t after, order = before ++ t :: after → ∀ fk ∈ fks, fk.table = t → fk.refTable ≠ t →
    fk.refTable ∈ before

/-- A change of rows that keeps what is null, and keeps references unless it makes them null. -/
def Values.Keeps {ρ' ν' : Type} (m : Values ρ κ ν) (m' : Values ρ' κ ν') (fks : List (ForeignKey τ κ))
    (change : ρ → ρ') : Prop :=
  ∀ fk ∈ fks, ∀ r, (m.value r fk.column = none → m'.value (change r) fk.column = none) ∧
    ∀ r', m.refers fk r r' = true →
      m'.value (change r) fk.column = none ∨ m'.refers fk (change r) (change r') = true

/-! ## The rows of a table -/

/-- An insert, with the table it is in and the rows before it. -/
theorem tableByTable_eq_append {rows : τ → List ρ} {order : List τ} {before after : List (τ × ρ)}
    {x : τ × ρ} (h : tableByTable rows order = before ++ x :: after) :
    ∃ tables t others earlier r later, order = tables ++ t :: others ∧ rows t = earlier ++ r :: later ∧
      before = tableByTable rows tables ++ earlier.map (fun r => (t, r)) ∧ x = (t, r) := by
  induction order generalizing before with
  | nil =>
    rw [tableByTable, List.flatMap_nil] at h
    exact absurd h.symm (List.append_ne_nil_of_right_ne_nil _ (List.cons_ne_nil x after))
  | cons t order ih =>
    rw [tableByTable, List.flatMap_cons, List.append_eq_append_iff] at h
    rcases h with ⟨middle, hbefore, hrest⟩ | ⟨middle, hrows, hrest⟩
    · obtain ⟨tables, u, others, earlier, r, later, rfl, hrows, rfl, rfl⟩ := ih hrest
      refine ⟨t :: tables, u, others, earlier, r, later, rfl, hrows, ?_, rfl⟩
      rw [hbefore, tableByTable, tableByTable, List.flatMap_cons, List.append_assoc]
    · cases middle with
      | nil =>
        have hrest' : tableByTable rows order = [] ++ x :: after := hrest.symm
        obtain ⟨tables, u, others, earlier, r, later, rfl, hrows', hnil, rfl⟩ := ih hrest'
        refine ⟨t :: tables, u, others, earlier, r, later, rfl, hrows', ?_, rfl⟩
        rw [List.append_nil] at hrows
        rw [← hrows, tableByTable, List.flatMap_cons, List.append_assoc]
        exact (List.append_nil _).symm.trans (congrArg _ hnil)
      | cons y middle =>
        obtain ⟨rfl, rfl⟩ := List.cons.inj hrest
        obtain ⟨earlier, last, hrows', rfl, hlast⟩ := List.map_eq_append_iff.mp hrows
        obtain ⟨r, later, rfl, rfl, rfl⟩ := List.map_eq_cons_iff.mp hlast
        exact ⟨[], t, order, earlier, r, later, rfl, hrows', rfl, rfl⟩

section RowsOf

variable [BEq τ] [LawfulBEq τ]

omit [LawfulBEq τ] in
theorem rowsOf_append (stored more : List (τ × ρ)) (t : τ) :
    rowsOf (stored ++ more) t = rowsOf stored t ++ rowsOf more t := by
  rw [rowsOf, List.filter_append, List.map_append]
  rfl

theorem rowsOf_table (rows : List ρ) (t : τ) : rowsOf (rows.map fun r => (t, r)) t = rows := by
  have hall : (rows.map fun r => (t, r)).filter (fun x => x.1 == t) = rows.map fun r => (t, r) := by
    rw [List.filter_eq_self]
    intro x hx
    obtain ⟨r, _, rfl⟩ := List.mem_map.mp hx
    exact beq_self_eq_true t
  rw [rowsOf, hall, List.map_map]
  exact List.map_id rows

theorem rowsOf_other (rows : List ρ) {t u : τ} (h : t ≠ u) : rowsOf (rows.map fun r => (t, r)) u = [] := by
  have hnone : (rows.map fun r => (t, r)).filter (fun x => x.1 == u) = [] := by
    rw [List.filter_eq_nil_iff]
    intro x hx
    obtain ⟨r, _, rfl⟩ := List.mem_map.mp hx
    simpa using h
  rw [rowsOf, hnone]
  rfl

theorem rowsOf_tableByTable_of_not_mem (rows : τ → List ρ) {order : List τ} {t : τ} (h : t ∉ order) :
    rowsOf (tableByTable rows order) t = [] := by
  induction order with
  | nil => rfl
  | cons u order ih =>
    have hu : u ≠ t := fun heq => h (heq ▸ List.mem_cons_self ..)
    rw [tableByTable, List.flatMap_cons, rowsOf_append, rowsOf_other _ hu]
    exact ih fun hmem => h (List.mem_cons_of_mem _ hmem)

theorem rowsOf_tableByTable (rows : τ → List ρ) {order : List τ} (hnodup : order.Nodup) {t : τ}
    (h : t ∈ order) : rowsOf (tableByTable rows order) t = rows t := by
  induction order with
  | nil => cases h
  | cons u order ih =>
    obtain ⟨hu, hnodup⟩ := List.nodup_cons.mp hnodup
    rw [tableByTable, List.flatMap_cons, rowsOf_append]
    rcases List.mem_cons.mp h with rfl | h
    · have hrest := rowsOf_tableByTable_of_not_mem rows hu
      rw [rowsOf_table]
      exact (congrArg (rows t ++ ·) hrest).trans (List.append_nil _)
    · have hne : u ≠ t := fun heq => hu (heq ▸ h)
      rw [rowsOf_other _ hne]
      exact ih hnodup h

end RowsOf

/-! ## Inserting -/

section Insert

variable [BEq τ] [LawfulBEq τ] {m : Values ρ κ ν} {fks : List (ForeignKey τ κ)}

theorem accepts_iff {stored : List (τ × ρ)} {x : τ × ρ} :
    m.accepts fks stored x = true ↔
      ∀ fk ∈ fks, fk.table = x.1 → m.resolves fk x.2 (rowsOf (stored ++ [x]) fk.refTable) = true := by
  rw [Values.accepts, List.all_eq_true]
  refine forall_congr' fun fk => forall_congr' fun _ => ?_
  rw [Bool.or_eq_true, Bool.not_eq_true', beq_eq_false_iff_ne]
  constructor
  · rintro (hne | h) heq
    · exact absurd heq hne
    · exact h
  · intro h
    by_cases heq : fk.table = x.1
    · exact .inr (h heq)
    · exact .inl heq

omit [LawfulBEq τ] in
/-- All inserts go through exactly where each finds the rows it refers to. -/
theorem insertAll_eq_ok {stored inserts out : List (τ × ρ)} :
    m.insertAll fks stored inserts = .ok out ↔
      out = stored ++ inserts ∧
        ∀ before x after, inserts = before ++ x :: after → m.accepts fks (stored ++ before) x = true := by
  induction inserts generalizing stored with
  | nil =>
    rw [Values.insertAll, List.append_nil]
    constructor
    · intro h
      refine ⟨(Except.ok.inj h).symm, ?_⟩
      intro before x after heq
      exact absurd heq.symm (List.append_ne_nil_of_right_ne_nil _ (List.cons_ne_nil x after))
    · rintro ⟨rfl, _⟩
      rfl
  | cons y inserts ih =>
    rw [Values.insertAll]
    by_cases hy : m.accepts fks stored y = true
    · rw [if_pos hy, ih, List.append_assoc, List.singleton_append]
      refine and_congr_right fun _ => ?_
      constructor
      · intro h before x after heq
        cases before with
        | nil =>
          obtain ⟨rfl, _⟩ := List.cons.inj heq
          rwa [List.append_nil]
        | cons z before =>
          obtain ⟨rfl, hinserts⟩ := List.cons.inj heq
          have haccepts := h before x after hinserts
          rwa [List.append_assoc, List.singleton_append] at haccepts
      · intro h before x after heq
        have haccepts := h (y :: before) x after (by rw [heq, List.cons_append])
        rwa [List.append_assoc, List.singleton_append]
    · rw [if_neg hy]
      constructor
      · intro h
        cases h
      · rintro ⟨_, h⟩
        have haccepts := h [] y inserts rfl
        rw [List.append_nil] at haccepts
        exact absurd haccepts hy

omit [LawfulBEq τ] in
theorem insertAll_of_inOrder {inserts : List (τ × ρ)} (h : m.InOrder fks inserts) :
    m.insertAll fks [] inserts = .ok inserts :=
  insertAll_eq_ok.mpr ⟨rfl, h⟩

/-- Table by table, the order of the rows matters only within one table. -/
theorem inOrder_tableByTable_iff {rows : τ → List ρ} (hclosed : m.Closed fks rows) {order : List τ}
    (hnodup : order.Nodup) (hafter : AfterReferenced fks order) :
    m.InOrder fks (tableByTable rows order) ↔
      ∀ fk ∈ fks, fk.table ∈ order → fk.refTable = fk.table → m.Backward fk (rows fk.table) := by
  constructor
  · intro h fk hfk hmem hself earlier r later hrows
    obtain ⟨tables, others, horder⟩ := List.append_of_mem hmem
    have hinserts : tableByTable rows order =
        (tableByTable rows tables ++ earlier.map fun r => (fk.table, r)) ++
          (fk.table, r) :: (later.map (fun r => (fk.table, r)) ++ tableByTable rows others) := by
      rw [horder, tableByTable, List.flatMap_append, List.flatMap_cons, hrows]
      simp only [tableByTable, List.map_append, List.map_cons, List.append_assoc, List.cons_append]
    have haccepts := accepts_iff.mp (h _ _ _ hinserts) fk hfk rfl
    have hfresh : fk.table ∉ tables := by
      rw [horder] at hnodup
      intro hmem
      exact (List.nodup_append.mp hnodup).2.2 _ hmem _ List.mem_cons_self rfl
    rw [hself, rowsOf_append, rowsOf_append, rowsOf_tableByTable_of_not_mem rows hfresh, rowsOf_table] at haccepts
    have hlast : rowsOf [(fk.table, r)] fk.table = [r] := rowsOf_table [r] fk.table
    rwa [hlast, List.nil_append] at haccepts
  · intro h before x after hinserts
    obtain ⟨tables, t, others, earlier, r, later, horder, hrows, rfl, rfl⟩ := tableByTable_eq_append hinserts
    refine accepts_iff.mpr ?_
    rintro fk hfk rfl
    have hmem : fk.table ∈ order := by
      rw [horder]
      exact List.mem_append_right _ (List.mem_cons_self ..)
    have hlast : rowsOf [(fk.table, r)] fk.table = [r] := rowsOf_table [r] fk.table
    by_cases hself : fk.refTable = fk.table
    · have hbackward := h fk hfk hmem hself earlier r later hrows
      refine Values.resolves_mono hbackward ?_
      intro r' hr'
      rw [hself, rowsOf_append, rowsOf_append, rowsOf_table, hlast, List.append_assoc]
      exact List.mem_append_right _ hr'
    · have href := hafter tables fk.table others horder fk hfk rfl hself
      have htables : tables.Nodup := by
        rw [horder] at hnodup
        exact (List.nodup_append.mp hnodup).1
      have hr : r ∈ rows fk.table := by
        rw [hrows]
        exact List.mem_append_right _ (List.mem_cons_self ..)
      refine Values.resolves_mono (hclosed fk hfk r hr) ?_
      intro r' hr'
      rw [rowsOf_append, rowsOf_append, rowsOf_tableByTable rows htables href]
      exact List.mem_append_left _ (List.mem_append_left _ hr')

end Insert

/-! ## Changed rows -/

section Keeps

variable {ρ' ν' : Type} {m : Values ρ κ ν} {m' : Values ρ' κ ν'} {fks : List (ForeignKey τ κ)}
  {change : ρ → ρ'}

theorem Values.Keeps.resolves (h : m.Keeps m' fks change) {fk : ForeignKey τ κ} (hfk : fk ∈ fks) {r : ρ}
    {rows : List ρ} (hresolves : m.resolves fk r rows = true) :
    m'.resolves fk (change r) (rows.map change) = true := by
  rw [resolves_iff] at hresolves ⊢
  obtain ⟨hnull, hrefers⟩ := h fk hfk r
  rcases hresolves with hnone | ⟨r', hr', hr⟩
  · exact .inl (hnull hnone)
  · rcases hrefers r' hr with hnone | hr
    · exact .inl hnone
    · exact .inr ⟨change r', List.mem_map_of_mem hr', hr⟩

theorem rowsOf_map [BEq τ] (change : ρ → ρ') (stored : List (τ × ρ)) (t : τ) :
    rowsOf (stored.map fun x => (x.1, change x.2)) t = (rowsOf stored t).map change := by
  rw [rowsOf, rowsOf, List.filter_map, List.map_map, List.map_map]
  rfl

/-- Rows in order stay in order. -/
theorem Values.Keeps.inOrder [BEq τ] [LawfulBEq τ] (h : m.Keeps m' fks change) {inserts : List (τ × ρ)}
    (horder : m.InOrder fks inserts) : m'.InOrder fks (inserts.map fun x => (x.1, change x.2)) := by
  intro before x after heq
  obtain ⟨before, rest, rfl, rfl, hrest⟩ := List.map_eq_append_iff.mp heq
  obtain ⟨y, after, rfl, rfl, rfl⟩ := List.map_eq_cons_iff.mp hrest
  refine accepts_iff.mpr ?_
  intro fk hfk htable
  have hresolves := h.resolves hfk (accepts_iff.mp (horder before y after rfl) fk hfk htable)
  rw [← rowsOf_map] at hresolves
  rwa [List.map_append] at hresolves

end Keeps

end Relational
