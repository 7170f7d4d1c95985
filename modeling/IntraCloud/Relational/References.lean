import Mathlib.Data.List.Forall2
import Mathlib.Logic.Basic

/-!
# Foreign keys over rows

Tables `τ` are lists of rows `ρ`, and a column `κ` of a row holds a value `ν` or nothing. Contents are
closed under foreign keys when every reference that is not null resolves. Copies of tables that are
taken at different times are put together by `patchwork`.
-/

namespace Relational

/-- A foreign key: a column, and the column of a table it references. -/
structure ForeignKey (τ κ : Type) where
  table : τ
  column : κ
  refTable : τ
  refColumn : κ
  deriving DecidableEq, Repr

/-- How the value of a column is found, and when two values count as equal. -/
structure Values (ρ κ ν : Type) where
  value : ρ → κ → Option ν
  same : ν → ν → Bool

namespace Values

variable {τ ρ κ ν : Type} (m : Values ρ κ ν)

/-- The first row refers to the second one. -/
def refers (fk : ForeignKey τ κ) (r r' : ρ) : Bool :=
  (m.value r fk.column).any fun v => (m.value r' fk.refColumn).any (m.same v)

/-- The reference of the row is null, or to one of the rows. -/
def resolves (fk : ForeignKey τ κ) (r : ρ) (rows : List ρ) : Bool :=
  (m.value r fk.column).isNone || rows.any (m.refers fk r)

/-- Every reference resolves. -/
def Closed (fks : List (ForeignKey τ κ)) (contents : τ → List ρ) : Prop :=
  ∀ fk ∈ fks, ∀ r ∈ contents fk.table, m.resolves fk r (contents fk.refTable) = true

instance (fks : List (ForeignKey τ κ)) (contents : τ → List ρ) : Decidable (m.Closed fks contents) := by
  unfold Closed; infer_instance

variable {m}

theorem resolves_iff {fk : ForeignKey τ κ} {r : ρ} {rows : List ρ} :
    m.resolves fk r rows = true ↔ m.value r fk.column = none ∨ ∃ r' ∈ rows, m.refers fk r r' = true := by
  rw [resolves, Bool.or_eq_true, Option.isNone_iff_eq_none, List.any_eq_true]

theorem resolves_mono {fk : ForeignKey τ κ} {r : ρ} {rows rows' : List ρ}
    (h : m.resolves fk r rows = true) (hsub : ∀ r' ∈ rows, r' ∈ rows') : m.resolves fk r rows' = true := by
  rw [resolves_iff] at h ⊢
  rcases h with h | ⟨r', hr', h⟩
  · exact .inl h
  · exact .inr ⟨r', hsub r' hr', h⟩

/-- Only which rows there are matters. -/
theorem Closed.congr {fks : List (ForeignKey τ κ)} {contents contents' : τ → List ρ}
    (h : m.Closed fks contents) (hmem : ∀ t r, r ∈ contents t ↔ r ∈ contents' t) :
    m.Closed fks contents' := by
  intro fk hfk r hr
  have hresolves := h fk hfk r ((hmem fk.table r).mpr hr)
  exact resolves_mono hresolves fun r' => (hmem fk.refTable r').mp

end Values

/-! ## Copies of different times -/

section Patchwork

variable {τ ρ κ ν : Type} (copied : τ → Option (List ρ))

/-- The copies of the tables that are copied, and the rows of the others. -/
def patchwork (rows : τ → List ρ) (t : τ) : List ρ := (copied t).getD (rows t)

/-- A write that comes after some tables were copied and before the others are. What it keeps in a table
that is not copied yet: the rows that copied rows refer to. And what it adds there refers, where it refers
to a copied table, to copied rows. -/
def Harmless (m : Values ρ κ ν) (fks : List (ForeignKey τ κ)) (rows rows' : τ → List ρ) : Prop :=
  (∀ fk ∈ fks, ∀ copy ∈ copied fk.table, copied fk.refTable = none → ∀ r ∈ copy,
    m.resolves fk r (rows fk.refTable) = true → m.resolves fk r (rows' fk.refTable) = true) ∧
  ∀ fk ∈ fks, copied fk.table = none → ∀ copy ∈ copied fk.refTable, ∀ r ∈ rows' fk.table,
    r ∉ rows fk.table → m.resolves fk r copy = true

variable {copied} {m : Values ρ κ ν} {fks : List (ForeignKey τ κ)} {rows rows' : τ → List ρ}

theorem patchwork_copied {t : τ} {copy : List ρ} (h : copied t = some copy) :
    patchwork copied rows t = copy := by
  rw [patchwork, h, Option.getD_some]

theorem patchwork_other {t : τ} (h : copied t = none) : patchwork copied rows t = rows t := by
  rw [patchwork, h, Option.getD_none]

/-- Between closed contents, the writes that keep the patchwork closed are the harmless ones. -/
theorem closed_patchwork_iff (hrows' : m.Closed fks rows') (h : m.Closed fks (patchwork copied rows)) :
    m.Closed fks (patchwork copied rows') ↔ Harmless copied m fks rows rows' := by
  constructor
  · intro h'
    refine ⟨?_, ?_⟩
    · intro fk hfk copy hcopy hnone r hr _
      have hr' : r ∈ patchwork copied rows' fk.table := by
        rw [patchwork_copied hcopy]
        exact hr
      have hresolves := h' fk hfk r hr'
      rwa [patchwork_other hnone] at hresolves
    · intro fk hfk hnone copy hcopy r hr _
      have hr' : r ∈ patchwork copied rows' fk.table := by
        rw [patchwork_other hnone]
        exact hr
      have hresolves := h' fk hfk r hr'
      rwa [patchwork_copied hcopy] at hresolves
  · rintro ⟨hkeeps, hadds⟩ fk hfk r hr
    cases htable : copied fk.table with
    | none =>
      rw [patchwork_other htable] at hr
      cases href : copied fk.refTable with
      | none =>
        rw [patchwork_other href]
        exact hrows' fk hfk r hr
      | some copy =>
        rw [patchwork_copied href]
        by_cases hold : r ∈ rows fk.table
        · have hresolves := h fk hfk r (by rw [patchwork_other htable]; exact hold)
          rwa [patchwork_copied href] at hresolves
        · exact hadds fk hfk htable copy href r hr hold
    | some copy =>
      rw [patchwork_copied htable] at hr
      have hresolves := h fk hfk r (by rw [patchwork_copied htable]; exact hr)
      cases href : copied fk.refTable with
      | none =>
        rw [patchwork_other href] at hresolves ⊢
        exact hkeeps fk hfk copy htable href r hr hresolves
      | some copy' =>
        rw [patchwork_copied href] at hresolves ⊢
        exact hresolves

end Patchwork

/-! ## Tables that agree on some columns

Two tables are compared row by row. Whether foreign keys hold depends on the columns they are about, and on
no other. -/

variable {α β τ ρ κ ν : Type}

/-! ### Row by row -/

theorem exists_mem_of_forall₂ {R : α → β → Prop} {xs : List α} {ys : List β} (h : List.Forall₂ R xs ys) {x : α}
    (hx : x ∈ xs) : ∃ y ∈ ys, R x y := by
  induction h with
  | nil => cases hx
  | cons hxy _ ih =>
    rcases List.mem_cons.mp hx with rfl | hx
    · exact ⟨_, List.mem_cons_self, hxy⟩
    · obtain ⟨y, hy, hR⟩ := ih hx
      exact ⟨y, List.mem_cons_of_mem _ hy, hR⟩

theorem any_eq_of_forall₂ {R : α → β → Prop} {p : α → Bool} {q : β → Bool} {xs : List α} {ys : List β}
    (h : List.Forall₂ R xs ys) (hpq : ∀ x y, R x y → p x = q y) : xs.any p = ys.any q := by
  induction h with
  | nil => rfl
  | cons hxy _ ih => rw [List.any_cons, List.any_cons, hpq _ _ hxy, ih]

theorem all_eq_of_forall₂ {R : α → β → Prop} {p : α → Bool} {q : β → Bool} {xs : List α} {ys : List β}
    (h : List.Forall₂ R xs ys) (hpq : ∀ x y, R x y → p x = q y) : xs.all p = ys.all q := by
  induction h with
  | nil => rfl
  | cons hxy _ ih => rw [List.all_cons, List.all_cons, hpq _ _ hxy, ih]

theorem map_eq_of_forall₂ {γ : Type} {R : α → β → Prop} {f : α → γ} {g : β → γ} {xs : List α} {ys : List β}
    (h : List.Forall₂ R xs ys) (hfg : ∀ x y, R x y → f x = g y) : xs.map f = ys.map g := by
  induction h with
  | nil => rfl
  | cons hxy _ ih => rw [List.map_cons, List.map_cons, hfg _ _ hxy, ih]

theorem forall₂_filter {R : α → β → Prop} {p : α → Bool} {q : β → Bool} {xs : List α} {ys : List β}
    (h : List.Forall₂ R xs ys) (hpq : ∀ x y, R x y → p x = q y) :
    List.Forall₂ R (xs.filter p) (ys.filter q) :=
  List.rel_filter (fun {x y} hxy => Bool.eq_iff_iff.mp (hpq x y hxy)) h

theorem forall₂_map {γ δ : Type} {R : α → β → Prop} {S : γ → δ → Prop} {f : α → γ} {g : β → δ} {xs : List α}
    {ys : List β} (h : List.Forall₂ R xs ys) (hfg : ∀ x y, R x y → S (f x) (g y)) :
    List.Forall₂ S (xs.map f) (ys.map g) :=
  List.rel_map (fun {x y} hxy => hfg x y hxy) h

/-- Both tables have a row that is looked for, or neither has. -/
theorem find?_forall₂ {R : α → β → Prop} {p : α → Bool} {q : β → Bool} {xs : List α} {ys : List β}
    (h : List.Forall₂ R xs ys) (hpq : ∀ x y, R x y → p x = q y) :
    (xs.find? p = none ∧ ys.find? q = none) ∨
      ∃ x y, xs.find? p = some x ∧ ys.find? q = some y ∧ R x y := by
  induction h with
  | nil => exact .inl ⟨rfl, rfl⟩
  | cons hxy _ ih =>
    rw [List.find?_cons, List.find?_cons, ← hpq _ _ hxy]
    split
    · exact .inr ⟨_, _, rfl, rfl, hxy⟩
    · exact ih

/-! ### Foreign keys -/

namespace Values

variable {m : Values ρ κ ν}

theorem refers_eq {fk : ForeignKey τ κ} {r r' x x' : ρ} (h : m.value r fk.column = m.value r' fk.column)
    (hx : m.value x fk.refColumn = m.value x' fk.refColumn) : m.refers fk r x = m.refers fk r' x' := by
  rw [refers, refers, h, hx]

theorem resolves_eq {fk : ForeignKey τ κ} {r r' : ρ} {rows rows' : List ρ}
    (h : m.value r fk.column = m.value r' fk.column)
    (hrows : List.Forall₂ (fun x x' => m.value x fk.refColumn = m.value x' fk.refColumn) rows rows') :
    m.resolves fk r rows = m.resolves fk r' rows' := by
  rw [resolves, resolves, h, any_eq_of_forall₂ hrows fun x x' hx => refers_eq h hx]

/-- The columns of the foreign keys decide whether they hold. -/
theorem closed_iff {fks : List (ForeignKey τ κ)} {contents contents' : τ → List ρ}
    (h : ∀ fk ∈ fks,
      List.Forall₂ (fun r r' => m.value r fk.column = m.value r' fk.column) (contents fk.table)
        (contents' fk.table) ∧
      List.Forall₂ (fun r r' => m.value r fk.refColumn = m.value r' fk.refColumn) (contents fk.refTable)
        (contents' fk.refTable)) : m.Closed fks contents ↔ m.Closed fks contents' := by
  refine forall₂_congr fun fk hfk => ?_
  obtain ⟨hrows, hrefs⟩ := h fk hfk
  have hall : ((contents fk.table).all fun r => m.resolves fk r (contents fk.refTable)) =
      (contents' fk.table).all fun r => m.resolves fk r (contents' fk.refTable) :=
    all_eq_of_forall₂ hrows fun r r' hr => resolves_eq hr hrefs
  rw [← List.all_eq_true, ← List.all_eq_true, hall]

end Values

end Relational
