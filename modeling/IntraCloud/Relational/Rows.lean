/-!
# Rows of a table

A table is the list of its rows. `Keyed f` says that `f` is a key of the rows: a primary key or a
unique constraint. `SameMembers` is equality of tables up to the order and multiplicity of rows.
-/

namespace Relational

variable {α β : Type}

/-- No two rows agree on `f`. -/
def Keyed (f : α → β) (rows : List α) : Prop := ∀ a ∈ rows, ∀ b ∈ rows, f a = f b → a = b

/-- The two lists have the same members. -/
def SameMembers (xs ys : List α) : Prop := (∀ x ∈ xs, x ∈ ys) ∧ ∀ y ∈ ys, y ∈ xs

instance [DecidableEq α] (xs ys : List α) : Decidable (SameMembers xs ys) := by
  unfold SameMembers; infer_instance

/-! ## Keys -/

theorem Keyed.filter {f : α → β} {rows : List α} (h : Keyed f rows) (p : α → Bool) :
    Keyed f (rows.filter p) := by
  intro a ha b hb
  exact h a (List.mem_filter.1 ha).1 b (List.mem_filter.1 hb).1

theorem Keyed.nil (f : α → β) : Keyed f [] := by
  intro a ha
  cases ha

/-- A row whose key is new may be added. -/
theorem Keyed.concat {f : α → β} {rows : List α} {x : α} (h : Keyed f rows)
    (hx : ∀ a ∈ rows, f a ≠ f x) : Keyed f (rows ++ [x]) := by
  intro a ha b hb hab
  rcases List.mem_append.1 ha with ha | ha <;> rcases List.mem_append.1 hb with hb | hb
  · exact h a ha b hb hab
  · rw [List.mem_singleton.1 hb] at hab
    exact absurd hab (hx a ha)
  · rw [List.mem_singleton.1 ha] at hab
    exact absurd hab.symm (hx b hb)
  · rw [List.mem_singleton.1 ha, List.mem_singleton.1 hb]

/-- The row of a key is found by it. -/
theorem Keyed.find?_eq [DecidableEq β] {f : α → β} {rows : List α} (h : Keyed f rows) {x : α}
    (hx : x ∈ rows) : rows.find? (fun a => f a == f x) = some x := by
  cases hfind : rows.find? fun a => f a == f x with
  | none =>
    have hne := List.find?_eq_none.mp hfind x hx
    exact absurd (beq_self_eq_true (f x)) hne
  | some y =>
    have hfound := List.find?_some hfind
    rw [h y (List.mem_of_find?_eq_some hfind) x hx (beq_iff_eq.mp hfound)]

/-! ## Same members -/

theorem sameMembers_iff {xs ys : List α} : SameMembers xs ys ↔ ∀ x, x ∈ xs ↔ x ∈ ys :=
  ⟨fun h x => ⟨h.1 x, h.2 x⟩, fun h => ⟨fun x => (h x).1, fun x => (h x).2⟩⟩

theorem SameMembers.mem_iff {xs ys : List α} (h : SameMembers xs ys) {x : α} :
    x ∈ xs ↔ x ∈ ys :=
  sameMembers_iff.1 h x

theorem SameMembers.refl (xs : List α) : SameMembers xs xs := ⟨fun _ h => h, fun _ h => h⟩

/-- The rows added at the end, as a condition on members. -/
theorem mem_concat {xs : List α} {x y : α} : y ∈ xs ++ [x] ↔ y ∈ xs ∨ y = x := by
  rw [List.mem_append, List.mem_singleton]

/-- A filter that keeps the old rows and drops the new one undoes the insert. -/
theorem filter_concat {xs : List α} {x : α} {p : α → Bool} (hxs : ∀ a ∈ xs, p a = true)
    (hx : p x = false) : (xs ++ [x]).filter p = xs := by
  rw [List.filter_append, List.filter_eq_self.2 hxs]
  simp [hx]

/-! ## Updates -/

/-- An update of the rows `p` holds of changes the table exactly where it changes one of them. -/
theorem map_update_ne_iff {p : α → Prop} [DecidablePred p] {f : α → α} {xs : List α} :
    xs.map (fun x => if p x then f x else x) ≠ xs ↔ ∃ x ∈ xs, p x ∧ f x ≠ x := by
  have hself : xs.map (fun x => if p x then f x else x) = xs ↔
      ∀ x ∈ xs, (if p x then f x else x) = x := by
    have hinj := List.map_inj_left (l := xs) (f := fun x => if p x then f x else x) (g := id)
    rwa [List.map_id] at hinj
  rw [ne_eq, hself, Classical.not_forall]
  constructor
  · rintro ⟨x, hx⟩
    rw [Classical.not_imp] at hx
    obtain ⟨hx, hne⟩ := hx
    by_cases hp : p x
    · rw [if_pos hp] at hne
      exact ⟨x, hx, hp, hne⟩
    · rw [if_neg hp] at hne
      exact absurd rfl hne
  · rintro ⟨x, hx, hp, hne⟩
    refine ⟨x, fun hall => hne ?_⟩
    have heq := hall hx
    rwa [if_pos hp] at heq

end Relational
