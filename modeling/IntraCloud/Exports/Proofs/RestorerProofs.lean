import IntraCloud.Exports.Restorer
import IntraCloud.Relational.Rounds

/-!
# The order in which a restore fills tables

`_topological_order` ends, with an order in which every table comes after those it references, or with the
`RestoreError` where there is no such order.
-/

namespace Exports

open Relational

variable {α : Type} {data : α → TableData} {tables : List α}

theorem byName_eq (hnames : (tables.map fun t => (data t).name).Nodup) {t : α} (ht : t ∈ tables) :
    byName data tables t = t := by
  have hfind : tables.reverse.find? (fun u => (data u).name == (data t).name) = some t := by
    have hmem : t ∈ tables.reverse := List.mem_reverse.mpr ht
    cases h : tables.reverse.find? (fun u => (data u).name == (data t).name) with
    | none =>
      have hnone := List.find?_eq_none.mp h t hmem
      exact absurd (beq_self_eq_true _) hnone
    | some u =>
      have hu := List.mem_reverse.mp (List.mem_of_find?_eq_some h)
      have hname : (data u).name = (data t).name := by simpa using List.find?_some h
      rw [List.inj_on_of_nodup_map hnames hu ht hname]
  rw [byName, hfind, Option.getD_some]

theorem topologicalOrder_eq (hnames : (tables.map fun t => (data t).name).Nodup) :
    topologicalOrder data tables = (tableDependencies data).rounds tables.length [] tables := by
  unfold topologicalOrder
  cases h : (tableDependencies data).rounds tables.length [] tables with
  | none => rfl
  | some order =>
    obtain ⟨-, hperm⟩ := Dependencies.rounds_some h Dependencies.ordered_nil
    have hsame : order.map (byName data tables) = order.map id := by
      refine List.map_congr_left fun t ht => ?_
      exact byName_eq hnames (hperm.mem_iff.mp ht)
    rw [Option.map_some, hsame, List.map_id]

/-- An order has all tables, each after those it references. -/
theorem topologicalOrder_some (hnames : (tables.map fun t => (data t).name).Nodup) {order : List α}
    (h : topologicalOrder data tables = some order) :
    (tableDependencies data).Ordered order ∧ order.Perm tables := by
  rw [topologicalOrder_eq hnames] at h
  exact Dependencies.rounds_some h Dependencies.ordered_nil

theorem topologicalOrder_isSome_iff (hnames : (tables.map fun t => (data t).name).Nodup) :
    (topologicalOrder data tables).isSome = true ↔
      (tableDependencies data).Closed tables ∧ (tableDependencies data).Acyclic tables := by
  rw [topologicalOrder_eq hnames]
  exact Dependencies.rounds_isSome_iff hnames

theorem mem_dependencies {t : TableData} {name : String} :
    name ∈ t.dependencies ↔ (∃ fk ∈ t.foreignKeys, fk.referencesTable = name) ∧ name ≠ t.name := by
  rw [TableData.dependencies, List.mem_filter, List.mem_map, decide_eq_true_eq]

/-- A table that references itself is there, so only other tables can be missing. -/
theorem closed_iff :
    (tableDependencies data).Closed tables ↔ ∀ t ∈ tables, ∀ fk ∈ (data t).foreignKeys,
      fk.referencesTable ∈ tables.map fun u => (data u).name := by
  constructor
  · intro h t ht fk hfk
    by_cases hself : fk.referencesTable = (data t).name
    · rw [hself]
      exact List.mem_map_of_mem (f := fun u => (data u).name) ht
    · exact h t ht _ (mem_dependencies.mpr ⟨⟨fk, hfk, rfl⟩, hself⟩)
  · intro h t ht name hname
    obtain ⟨⟨fk, hfk, rfl⟩, -⟩ := mem_dependencies.mp hname
    exact h t ht fk hfk

/-- The loop ends on every list of tables that have different names; an order has each of them once, after
the other tables it references; and there is none exactly where tables reference each other in a circle or
a table is referenced that is not there. -/
theorem topologicalOrder_settles (hnames : (tables.map fun t => (data t).name).Nodup) :
    (∀ result, TopologicalOrderRuns data tables result ↔ result = topologicalOrder data tables) ∧
    (∀ order, topologicalOrder data tables = some order → order.Perm tables ∧
      ∀ before t after, order = before ++ t :: after → ∀ fk ∈ (data t).foreignKeys,
        fk.referencesTable ≠ (data t).name → ∃ u ∈ before, (data u).name = fk.referencesTable) ∧
    (topologicalOrder data tables = none ↔
      (∃ name, Relation.TransGen ((tableDependencies data).DependsOn tables) name name) ∨
        ∃ t ∈ tables, ∃ fk ∈ (data t).foreignKeys, ∀ u ∈ tables, (data u).name ≠ fk.referencesTable) := by
  refine ⟨fun result => ?_, fun order horder => ?_, ?_⟩
  · constructor
    · rintro ⟨resolved, hloop, rfl⟩
      rw [topologicalOrder, (Dependencies.loop_iff (Nat.le_refl _)).mp hloop]
    · rintro rfl
      exact ⟨_, (Dependencies.loop_iff (Nat.le_refl _)).mpr rfl, rfl⟩
  · obtain ⟨hordered, hperm⟩ := topologicalOrder_some hnames horder
    refine ⟨hperm, fun before t after heq fk hfk hother => ?_⟩
    have hneeds : fk.referencesTable ∈ (data t).dependencies := mem_dependencies.mpr ⟨⟨fk, hfk, rfl⟩, hother⟩
    exact List.mem_map.mp (hordered before t after heq _ hneeds)
  · have hsome := topologicalOrder_isSome_iff hnames
    rw [closed_iff] at hsome
    constructor
    · intro hnone
      by_contra hneither
      obtain ⟨hcycle, hmissing⟩ := not_or.mp hneither
      have hclosed : ∀ t ∈ tables, ∀ fk ∈ (data t).foreignKeys,
          fk.referencesTable ∈ tables.map fun u => (data u).name := by
        intro t ht fk hfk
        by_contra hnot
        refine hmissing ⟨t, ht, fk, hfk, fun u hu hname => hnot ?_⟩
        exact hname ▸ List.mem_map_of_mem (f := fun u => (data u).name) hu
      have hacyclic : (tableDependencies data).Acyclic tables := fun name h => hcycle ⟨name, h⟩
      have horder := hsome.mpr ⟨hclosed, hacyclic⟩
      rw [hnone] at horder
      cases horder
    · intro heither
      by_contra horder
      obtain ⟨hclosed, hacyclic⟩ := hsome.mp (Option.isSome_iff_ne_none.mpr horder)
      rcases heither with ⟨name, hcycle⟩ | ⟨t, ht, fk, hfk, hmissing⟩
      · exact hacyclic name hcycle
      · obtain ⟨u, hu, hname⟩ := List.mem_map.mp (hclosed t ht fk hfk)
        exact hmissing u hu hname

/-- A table of people with a manager among them, listed after the badges that refer to it. -/
def staffTables : List TableData :=
  [⟨"badges", [], [⟨"person", "people", "id", .cascade⟩], []⟩,
    ⟨"people", [], [⟨"manager", "people", "id", .restrict⟩], []⟩]

theorem topologicalOrder_settles_staffTables :
    (∀ result, TopologicalOrderRuns id staffTables result ↔ result = topologicalOrder id staffTables) ∧
    (∀ order, topologicalOrder id staffTables = some order → order.Perm staffTables ∧
      ∀ before t after, order = before ++ t :: after → ∀ fk ∈ t.foreignKeys,
        fk.referencesTable ≠ t.name → ∃ u ∈ before, u.name = fk.referencesTable) ∧
    (topologicalOrder id staffTables = none ↔
      (∃ name, Relation.TransGen ((tableDependencies id).DependsOn staffTables) name name) ∨
        ∃ t ∈ staffTables, ∃ fk ∈ t.foreignKeys, ∀ u ∈ staffTables, u.name ≠ fk.referencesTable) :=
  @topologicalOrder_settles TableData id staffTables (by decide)

end Exports
