import Mathlib.Data.Fintype.Card
import Mathlib.Data.List.Nodup
import Mathlib.Data.Set.Finite.Basic
import Mathlib.Logic.Relation
import Mathlib.Order.WellFounded

/-!
# Resolving dependencies in rounds

Items have names and need other items by name. A pass goes over the items that are left and resolves
each one whose needs are resolved already, those of the pass included; passes are made until nothing is
left or one of them resolves nothing. They give an order in which every item comes after those it needs, and they
give one exactly where no item needs itself.
-/

namespace Relational

/-- What an item is called, and what it needs. -/
structure Dependencies (α ν : Type) where
  name : α → ν
  needs : α → List ν

namespace Dependencies

variable {α ν : Type} [DecidableEq ν] (g : Dependencies α ν)

/-- One pass: what is resolved after it, and what it leaves. -/
def pass : (resolved : List α) → List α → List α × List α
  | resolved, [] => (resolved, [])
  | resolved, a :: as =>
    if (g.needs a).all fun n => (resolved.map g.name).contains n then pass (resolved ++ [a]) as
    else
      let rest := pass resolved as
      (rest.1, a :: rest.2)

/-- The passes, with fuel for as many as there are items; `none` where one resolves nothing. -/
def rounds : (fuel : Nat) → (resolved remaining : List α) → Option (List α)
  | _, resolved, [] => some resolved
  | 0, _, _ :: _ => none
  | fuel + 1, resolved, a :: as =>
    let next := g.pass resolved (a :: as)
    if next.2.length = (a :: as).length then none else rounds fuel next.1 next.2

/-- The passes without fuel: they end where nothing is left, or with `none` after one that resolves
nothing. -/
inductive Loop : (resolved remaining : List α) → Option (List α) → Prop
  | done (resolved : List α) : Loop resolved [] (some resolved)
  | stuck {resolved remaining : List α} (hleft : remaining ≠ [])
      (hsame : (g.pass resolved remaining).2.length = remaining.length) : Loop resolved remaining none
  | again {resolved remaining : List α} {result : Option (List α)} (hleft : remaining ≠ [])
      (hfewer : (g.pass resolved remaining).2.length ≠ remaining.length)
      (hrest : Loop (g.pass resolved remaining).1 (g.pass resolved remaining).2 result) :
      Loop resolved remaining result

/-- Every item comes after the items it needs. -/
def Ordered (order : List α) : Prop :=
  ∀ before a after, order = before ++ a :: after → ∀ n ∈ g.needs a, n ∈ before.map g.name

/-- The first name is that of an item that needs the second. -/
def DependsOn (items : List α) (m n : ν) : Prop := ∃ a ∈ items, g.name a = m ∧ n ∈ g.needs a

/-- Nothing needs itself, not even through others. -/
def Acyclic (items : List α) : Prop := ∀ n, ¬ Relation.TransGen (g.DependsOn items) n n

/-- What an item needs is there. -/
def Closed (items : List α) : Prop := ∀ a ∈ items, ∀ n ∈ g.needs a, n ∈ items.map g.name

open Relation

variable {g}

/-! ## One pass -/

theorem ready_iff {resolved : List α} {a : α} :
    ((g.needs a).all fun n => (resolved.map g.name).contains n) = true ↔
      ∀ n ∈ g.needs a, n ∈ resolved.map g.name := by
  simp only [List.all_eq_true, List.contains_iff_mem]

/-- A pass neither loses nor invents items. -/
theorem pass_perm (resolved remaining : List α) :
    ((g.pass resolved remaining).1 ++ (g.pass resolved remaining).2).Perm (resolved ++ remaining) := by
  induction remaining generalizing resolved with
  | nil => exact List.Perm.refl _
  | cons a as ih =>
    rw [pass]
    split
    · have hassoc : resolved ++ [a] ++ as = resolved ++ a :: as := List.append_cons .. |>.symm
      exact hassoc ▸ ih (resolved ++ [a])
    · have hrest := ih resolved
      exact List.perm_middle.trans ((hrest.cons a).trans List.perm_middle.symm)

omit [DecidableEq ν] in
theorem Ordered.concat {order : List α} {a : α} (h : g.Ordered order)
    (ha : ∀ n ∈ g.needs a, n ∈ order.map g.name) : g.Ordered (order ++ [a]) := by
  intro before b after heq n hn
  rcases List.eq_nil_or_concat after with rfl | ⟨after, c, rfl⟩
  · obtain ⟨rfl, hb⟩ := List.append_inj' heq rfl
    obtain rfl := List.cons.inj hb |>.1
    exact ha n hn
  · have heq' : order ++ [a] = (before ++ b :: after) ++ [c] := by
      rw [heq, List.concat_eq_append, List.append_assoc, List.cons_append]
    exact h before b after (List.append_inj' heq' rfl).1 n hn

theorem pass_ordered {resolved : List α} (remaining : List α) (h : g.Ordered resolved) :
    g.Ordered (g.pass resolved remaining).1 := by
  induction remaining generalizing resolved with
  | nil => exact h
  | cons a as ih =>
    rw [pass]
    split
    · rename_i hready
      exact ih (h.concat (ready_iff.mp hready))
    · exact ih h

theorem length_pass_le (resolved remaining : List α) :
    (g.pass resolved remaining).2.length ≤ remaining.length := by
  induction remaining generalizing resolved with
  | nil => exact Nat.le_refl _
  | cons a as ih =>
    rw [pass]
    split
    · exact Nat.le_succ_of_le (ih _)
    · exact Nat.succ_le_succ (ih _)

/-- A pass that resolves nothing found no item whose needs are resolved. -/
theorem blocked_of_pass {resolved remaining : List α}
    (h : (g.pass resolved remaining).2.length = remaining.length) :
    ∀ a ∈ remaining, ∃ n ∈ g.needs a, n ∉ resolved.map g.name := by
  induction remaining with
  | nil => exact fun _ ha => absurd ha List.not_mem_nil
  | cons b bs ih =>
    rw [pass] at h
    split at h
    · have hle := length_pass_le (g := g) (resolved ++ [b]) bs
      rw [List.length_cons] at h
      omega
    · rename_i hready
      intro a ha
      rcases List.mem_cons.mp ha with rfl | ha
      · rw [ready_iff] at hready
        by_contra hall
        refine hready fun n hn => ?_
        by_contra hnot
        exact hall ⟨n, hn, hnot⟩
      · exact ih (Nat.succ.inj h) a ha

/-! ## All of them -/

theorem rounds_some {fuel : Nat} {resolved remaining order : List α}
    (h : g.rounds fuel resolved remaining = some order) (hresolved : g.Ordered resolved) :
    g.Ordered order ∧ order.Perm (resolved ++ remaining) := by
  induction fuel generalizing resolved remaining with
  | zero =>
    cases remaining with
    | nil =>
      obtain rfl := Option.some.inj h
      exact ⟨hresolved, by rw [List.append_nil]⟩
    | cons a as => cases h
  | succ fuel ih =>
    cases remaining with
    | nil =>
      obtain rfl := Option.some.inj h
      exact ⟨hresolved, by rw [List.append_nil]⟩
    | cons a as =>
      rw [rounds] at h
      split at h
      · cases h
      · obtain ⟨hordered, hperm⟩ := ih h (pass_ordered _ hresolved)
        exact ⟨hordered, hperm.trans (pass_perm resolved (a :: as))⟩

/-- The fuel is enough: the passes end, and as the rounds say. -/
theorem loop_iff {fuel : Nat} {resolved remaining : List α} (hfuel : remaining.length ≤ fuel)
    {result : Option (List α)} :
    g.Loop resolved remaining result ↔ g.rounds fuel resolved remaining = result := by
  induction fuel generalizing resolved remaining with
  | zero =>
    obtain rfl := List.length_eq_zero_iff.mp (Nat.le_zero.mp hfuel)
    constructor
    · rintro (_ | ⟨hleft, -⟩ | ⟨hleft, -, -⟩)
      · rfl
      · exact absurd rfl hleft
      · exact absurd rfl hleft
    · rintro rfl
      exact Loop.done resolved
  | succ fuel ih =>
    cases remaining with
    | nil =>
      constructor
      · rintro (_ | ⟨hleft, -⟩ | ⟨hleft, -, -⟩)
        · rfl
        · exact absurd rfl hleft
        · exact absurd rfl hleft
      · rintro rfl
        exact Loop.done resolved
    | cons a as =>
      have hle := length_pass_le (g := g) resolved (a :: as)
      rw [rounds]
      by_cases hsame : (g.pass resolved (a :: as)).2.length = (a :: as).length
      · rw [if_pos hsame]
        constructor
        · rintro (_ | _ | ⟨-, hfewer, -⟩)
          · rfl
          · exact absurd hsame hfewer
        · rintro rfl
          exact Loop.stuck (List.cons_ne_nil a as) hsame
      · rw [if_neg hsame]
        have hnext : (g.pass resolved (a :: as)).2.length ≤ fuel := by omega
        constructor
        · rintro (_ | ⟨-, hstuck⟩ | ⟨-, -, hrest⟩)
          · exact absurd hstuck hsame
          · exact (ih hnext).mp hrest
        · intro hrounds
          exact Loop.again (List.cons_ne_nil a as) hsame ((ih hnext).mpr hrounds)

/-- Where something is always ready, the rounds come to an end. -/
theorem rounds_isSome {fuel : Nat} {resolved remaining items : List α} (hfuel : remaining.length ≤ fuel)
    (hperm : (resolved ++ remaining).Perm items)
    (hready : ∀ done left, (done ++ left).Perm items → left ≠ [] →
      ∃ a ∈ left, ∀ n ∈ g.needs a, n ∈ done.map g.name) :
    (g.rounds fuel resolved remaining).isSome = true := by
  induction fuel generalizing resolved remaining with
  | zero =>
    obtain rfl := List.length_eq_zero_iff.mp (Nat.le_zero.mp hfuel)
    rfl
  | succ fuel ih =>
    cases remaining with
    | nil => rfl
    | cons a as =>
      have hne : (g.pass resolved (a :: as)).2.length ≠ (a :: as).length := by
        intro heq
        obtain ⟨b, hb, hneeds⟩ := hready resolved (a :: as) hperm (List.cons_ne_nil a as)
        obtain ⟨n, hn, hnot⟩ := blocked_of_pass heq b hb
        exact hnot (hneeds n hn)
      have hle := length_pass_le (g := g) resolved (a :: as)
      rw [rounds, if_neg hne]
      exact ih (by omega) ((pass_perm resolved (a :: as)).trans hperm)

/-! ## Orders and cycles -/

section Names

variable {items : List α} (hnames : (items.map g.name).Nodup)
include hnames

/-- In an order, what is needed has a smaller place. -/
theorem idxOf_lt_of_dependsOn {order : List α} (hordered : g.Ordered order) (hperm : order.Perm items)
    {m n : ν} (h : g.DependsOn items m n) :
    (order.map g.name).idxOf n < (order.map g.name).idxOf m := by
  obtain ⟨a, ha, rfl, hn⟩ := h
  obtain ⟨before, after, rfl⟩ := List.append_of_mem (hperm.mem_iff.mpr ha)
  have hbefore := hordered before a after rfl n hn
  have hnodup : ((before ++ a :: after).map g.name).Nodup := (hperm.map g.name).nodup_iff.mpr hnames
  rw [List.map_append, List.map_cons] at hnodup ⊢
  have hfresh : g.name a ∉ before.map g.name := by
    intro hmem
    exact (List.nodup_append.mp hnodup).2.2 _ hmem _ List.mem_cons_self rfl
  have hlt := List.idxOf_lt_length_iff.mpr hbefore
  rw [List.idxOf_append_of_mem hbefore, List.idxOf_append_of_notMem hfresh]
  omega

theorem acyclic_of_ordered {order : List α} (hordered : g.Ordered order) (hperm : order.Perm items) :
    g.Acyclic items := by
  have hdecreases : ∀ m n, TransGen (g.DependsOn items) m n →
      (order.map g.name).idxOf n < (order.map g.name).idxOf m := by
    intro m n h
    induction h with
    | single h => exact idxOf_lt_of_dependsOn hnames hordered hperm h
    | tail _ h ih => exact Nat.lt_trans (idxOf_lt_of_dependsOn hnames hordered hperm h) ih
  exact fun n h => Nat.lt_irrefl _ (hdecreases n n h)

end Names

/-- Where nothing needs itself, something that is left has all it needs: descend along the needs, of
which there are finitely many. -/
theorem ready_of_acyclic {items : List α} (hclosed : g.Closed items) (hacyclic : g.Acyclic items)
    {done left : List α} (hperm : (done ++ left).Perm items) (hleft : left ≠ []) :
    ∃ a ∈ left, ∀ n ∈ g.needs a, n ∈ done.map g.name := by
  by_contra hnone
  have hnext : ∀ n ∈ left.map g.name, ∃ m ∈ left.map g.name, g.DependsOn items n m := by
    intro n hn
    obtain ⟨a, ha, rfl⟩ := List.mem_map.mp hn
    have hitem : a ∈ items := hperm.mem_iff.mp (List.mem_append_right done ha)
    have hblocked : ∃ m ∈ g.needs a, m ∉ done.map g.name := by
      by_contra hall
      refine hnone ⟨a, ha, fun m hm => ?_⟩
      by_contra hnot
      exact hall ⟨m, hm, hnot⟩
    obtain ⟨m, hm, hnot⟩ := hblocked
    have hmem := (hperm.map g.name).mem_iff.mpr (hclosed a hitem m hm)
    rw [List.map_append, List.mem_append] at hmem
    exact ⟨m, hmem.resolve_left hnot, a, hitem, rfl, hm⟩
  let r : {n // n ∈ left.map g.name} → {n // n ∈ left.map g.name} → Prop :=
    fun m n => TransGen (g.DependsOn items) n.1 m.1
  have : IsTrans _ r := ⟨fun _ _ _ hab hbc => TransGen.trans hbc hab⟩
  have : Std.Irrefl r := ⟨fun n h => hacyclic n.1 h⟩
  have : Finite {n // n ∈ left.map g.name} := (List.finite_toSet (left.map g.name)).to_subtype
  obtain ⟨a, as, rfl⟩ := List.exists_cons_of_ne_nil hleft
  have hwf : WellFounded r := Finite.wellFounded_of_trans_of_irrefl r
  obtain ⟨n, -, hmin⟩ := hwf.has_min Set.univ ⟨⟨g.name a, List.mem_map_of_mem List.mem_cons_self⟩, trivial⟩
  obtain ⟨m, hm, hdepends⟩ := hnext n.1 n.2
  exact hmin ⟨m, hm⟩ trivial (TransGen.single hdepends)

omit [DecidableEq ν] in
theorem ordered_nil : g.Ordered ([] : List α) := by
  intro before a after heq
  exact absurd heq.symm (List.append_ne_nil_of_right_ne_nil _ (List.cons_ne_nil a after))

omit [DecidableEq ν] in
theorem closed_of_ordered {order items : List α} (hordered : g.Ordered order) (hperm : order.Perm items) :
    g.Closed items := by
  intro a ha n hn
  obtain ⟨before, after, rfl⟩ := List.append_of_mem (hperm.mem_iff.mpr ha)
  have hbefore := hordered before a after rfl n hn
  refine (hperm.map g.name).mem_iff.mp ?_
  rw [List.map_append]
  exact List.mem_append_left _ hbefore

/-- The rounds find an order exactly where what the items need is there and nothing needs itself. -/
theorem rounds_isSome_iff {items : List α} (hnames : (items.map g.name).Nodup) :
    (g.rounds items.length [] items).isSome = true ↔ g.Closed items ∧ g.Acyclic items := by
  constructor
  · intro hsome
    obtain ⟨order, horder⟩ := Option.isSome_iff_exists.mp hsome
    obtain ⟨hordered, hperm⟩ := rounds_some horder ordered_nil
    exact ⟨closed_of_ordered hordered hperm, acyclic_of_ordered hnames hordered hperm⟩
  · rintro ⟨hclosed, hacyclic⟩
    exact rounds_isSome (Nat.le_refl _) (List.Perm.refl _)
      fun _ _ hperm hleft => ready_of_acyclic hclosed hacyclic hperm hleft

end Dependencies

end Relational
