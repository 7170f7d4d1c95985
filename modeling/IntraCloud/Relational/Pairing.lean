import Mathlib.Data.List.Basic
import Mathlib.Data.List.Perm.Basic
import Mathlib.Data.List.Zip

/-!
# Columns that are fetched apart

Two columns of a table, each fetched by a query of its own that says nothing of the order, and paired one value
after another once the NULLs are dropped. Where the rows can be exchanged, the pairs change with them: what is left
are columns that hold one value.
-/

namespace Relational

variable {α β γ : Type*}

/-- What a query without an order may return: as many rows as its limit lets through, in any order. -/
def Fetches (limit : Nat) (rows fetched : List α) : Prop :=
  ∃ rest, (fetched ++ rest).Perm rows ∧ fetched.length = min limit rows.length

/-- The pair of a row. -/
def pairOf (x : α → Option β) (y : α → Option γ) (r : α) : Option (β × γ) :=
  (x r).bind fun a => (y r).map fun b => (a, b)

/-- The pairs of the rows in which neither value is NULL. -/
def truePairs (x : α → Option β) (y : α → Option γ) (rows : List α) : List (β × γ) := rows.filterMap (pairOf x y)

/-- Where the first column has a value, the second has one. -/
def Covers (x : α → Option β) (y : α → Option γ) (rows : List α) : Prop :=
  ∀ r ∈ rows, (x r).isSome = true → (y r).isSome = true

/-- All values of the column are the same. -/
def Constant (x : α → Option β) (rows : List α) : Prop :=
  ∀ r ∈ rows, ∀ r' ∈ rows, ∀ a a', x r = some a → x r' = some a' → a = a'

/-- Whatever the queries return, if no column has fewer than `least` values then the pairs are the true pairs of
the rows that either query returned. -/
def PairsTrue (least limit : Nat) (x : α → Option β) (y : α → Option γ) (rows : List α) : Prop :=
  ∀ fx fy, Fetches limit rows fx → Fetches limit rows fy →
    least ≤ (fx.filterMap x).length → least ≤ (fy.filterMap y).length →
      ((fx.filterMap x).zip (fy.filterMap y)).Perm (truePairs x y fx) ∧
        ((fx.filterMap x).zip (fy.filterMap y)).Perm (truePairs x y fy)

/-- No column reaches `least` values, or the pairs do not depend on what the queries return. -/
def Paired (least limit : Nat) (x : α → Option β) (y : α → Option γ) (rows : List α) : Prop :=
  limit < least ∨ (rows.filterMap x).length < least ∨ (rows.filterMap y).length < least ∨
    (rows.length ≤ limit ∧ (Covers x y rows ∧ Constant y rows ∨ Covers y x rows ∧ Constant x rows)) ∨
    (limit < rows.length ∧ Covers x y rows ∧ Covers y x rows ∧
      (Constant x rows ∧ Constant y rows ∧ ((∀ r ∈ rows, (x r).isSome = true) ∨ limit = least) ∨
        (rows.filterMap x).length = least ∧ (Constant x rows ∨ Constant y rows)))

/-- What is fetched, with enough values in the column, has the same pairs. -/
def SamePairs (least limit : Nat) (x : α → Option β) (y : α → Option γ) (rows : List α) : Prop :=
  ∀ f f', Fetches limit rows f → Fetches limit rows f' → least ≤ (f.filterMap x).length →
    least ≤ (f'.filterMap x).length → (truePairs x y f).Perm (truePairs x y f')

variable {x : α → Option β} {y : α → Option γ} {rows f f' : List α} {least limit : Nat}

/-! ## Fetching -/

theorem fetches_of_perm (h : Fetches limit rows f) (hperm : f'.Perm f) : Fetches limit rows f' := by
  obtain ⟨rest, hrest, hlength⟩ := h
  exact ⟨rest, (hperm.append_right rest).trans hrest, hperm.length_eq.trans hlength⟩

theorem fetches_all_iff (hlimit : rows.length ≤ limit) : Fetches limit rows f ↔ f.Perm rows := by
  constructor
  · rintro ⟨rest, hrest, hlength⟩
    have htotal := hrest.length_eq
    rw [Nat.min_eq_right hlimit] at hlength
    rw [List.length_append] at htotal
    have hnone : rest = [] := List.eq_nil_of_length_eq_zero (by omega)
    rwa [hnone, List.append_nil] at hrest
  · intro hperm
    exact ⟨[], by rwa [List.append_nil], by rw [hperm.length_eq, Nat.min_eq_right hlimit]⟩

/-- A fetched row and one that was left may change places. -/
theorem fetches_exchange {u r : α} {rest : List α} (hperm : (r :: f ++ u :: rest).Perm rows)
    (hlength : (r :: f).length = limit) : Fetches limit rows (r :: f) ∧ Fetches limit rows (u :: f) := by
  have hle : limit ≤ rows.length := by
    rw [← hperm.length_eq, List.length_append, hlength]
    exact Nat.le_add_right _ _
  have hmin : min limit rows.length = limit := Nat.min_eq_left hle
  refine ⟨⟨u :: rest, hperm, hlength.trans hmin.symm⟩, ⟨r :: rest, ?_, ?_⟩⟩
  · refine List.Perm.trans ?_ hperm
    calc (u :: f ++ r :: rest).Perm (r :: (u :: f ++ rest)) := List.perm_middle
      _ |>.Perm (u :: (r :: f ++ rest)) := List.Perm.swap u r (f ++ rest)
      _ |>.Perm (r :: f ++ u :: rest) := List.perm_middle.symm
  · rw [List.length_cons] at hlength ⊢
    exact hlength.trans hmin.symm

/-- Some rows, and more, as many as the limit lets through, of a list that has more. -/
theorem exists_extension {n : Nat} {s rest : List α} (hperm : (s ++ rest).Perm rows) (hs : s.length ≤ n)
    (hn : n ≤ rows.length) :
    ∃ t rest', (s ++ t ++ rest').Perm rows ∧ (s ++ t).length = n := by
  have htotal := hperm.length_eq
  rw [List.length_append] at htotal
  refine ⟨rest.take (n - s.length), rest.drop (n - s.length), ?_, ?_⟩
  · rwa [List.append_assoc, List.take_append_drop]
  · rw [List.length_append, List.length_take]
    omega

/-! ## Pairs -/

theorem pairOf_some {r : α} {a : β} {b : γ} : pairOf x y r = some (a, b) ↔ x r = some a ∧ y r = some b := by
  unfold pairOf
  cases x r <;> cases y r <;> simp

theorem pairOf_isSome {r : α} : (pairOf x y r).isSome = true ↔ (x r).isSome = true ∧ (y r).isSome = true := by
  unfold pairOf
  cases x r <;> cases y r <;> simp

theorem pairOf_swap (r : α) : pairOf y x r = (pairOf x y r).map Prod.swap := by
  unfold pairOf
  cases x r <;> cases y r <;> rfl

theorem truePairs_swap (rows : List α) : truePairs y x rows = (truePairs x y rows).map Prod.swap := by
  unfold truePairs
  rw [List.map_filterMap]
  exact List.filterMap_congr fun r _ => pairOf_swap r

theorem truePairs_perm (h : f.Perm f') : (truePairs x y f).Perm (truePairs x y f') := h.filterMap _

theorem length_filterMap_eq_countP {δ : Type*} (g : α → Option δ) (f : List α) :
    (f.filterMap g).length = f.countP fun r => (g r).isSome := by
  induction f with
  | nil => rfl
  | cons r f ih =>
    cases hr : g r with
    | none => simp [hr, ih]
    | some a => simp [hr, ih]

theorem length_truePairs_le (f : List α) : (truePairs x y f).length ≤ (f.filterMap x).length := by
  unfold truePairs
  rw [length_filterMap_eq_countP, length_filterMap_eq_countP]
  exact List.countP_mono_left fun r _ hr => (pairOf_isSome.mp hr).1

/-- There are as many pairs as values where every value is in a pair. -/
theorem covers_of_length_eq (h : (truePairs x y f).length = (f.filterMap x).length) : Covers x y f := by
  unfold truePairs at h
  rw [length_filterMap_eq_countP, length_filterMap_eq_countP] at h
  intro r hr hx
  by_contra hy
  have hlt : f.countP (fun r => (pairOf x y r).isSome) < f.countP fun r => (x r).isSome := by
    obtain ⟨a, b, rfl⟩ := List.append_of_mem hr
    have hmono : ∀ l : List α, l.countP (fun r => (pairOf x y r).isSome) ≤ l.countP fun r => (x r).isSome :=
      fun l => List.countP_mono_left fun r _ hr => (pairOf_isSome.mp hr).1
    have hnot : ¬ (pairOf x y r).isSome = true := fun hpair => hy (pairOf_isSome.mp hpair).2
    rw [List.countP_append, List.countP_append,
      List.countP_cons_of_neg (p := fun r => (pairOf x y r).isSome) hnot,
      List.countP_cons_of_pos (p := fun r => (x r).isSome) hx]
    have := hmono a
    have := hmono b
    omega
  omega

theorem PairsTrue.symm (h : PairsTrue least limit x y rows) : PairsTrue least limit y x rows := by
  intro fy fx hfy hfx hy hx
  obtain ⟨hpairs, hpairs'⟩ := h fx fy hfx hfy hx hy
  have hzip : (fy.filterMap y).zip (fx.filterMap x) = ((fx.filterMap x).zip (fy.filterMap y)).map Prod.swap :=
    (List.zip_swap _ _).symm
  rw [hzip, truePairs_swap fy, truePairs_swap fx]
  exact ⟨hpairs'.map _, hpairs.map _⟩

theorem length_le_of_covers (h : Covers x y f) : (f.filterMap x).length ≤ (f.filterMap y).length := by
  rw [length_filterMap_eq_countP, length_filterMap_eq_countP]
  exact List.countP_mono_left fun r hr => h r hr

theorem Fetches.mem (h : Fetches limit rows f) {r : α} (hr : r ∈ f) : r ∈ rows := by
  obtain ⟨rest, hrest, -⟩ := h
  exact hrest.mem_iff.mp (List.mem_append_left rest hr)

/-! ## Columns of one value -/

theorem zip_eq_map {xs : List β} {ys : List γ} {b₀ : γ} (hys : ∀ b ∈ ys, b = b₀) (hle : xs.length ≤ ys.length) :
    xs.zip ys = xs.map fun a => (a, b₀) := by
  induction xs generalizing ys with
  | nil => rfl
  | cons a xs ih =>
    cases ys with
    | nil => cases hle
    | cons b ys =>
      rw [List.zip_cons_cons, List.map_cons, hys b (List.mem_cons_self ..),
        ih (fun b' hb' => hys b' (List.mem_cons_of_mem _ hb')) (Nat.le_of_succ_le_succ hle)]

/-- Where the second column has one value, it does not matter which rows its query returned. -/
theorem zip_eq_truePairs {fx fy : List α} (hfx : ∀ r ∈ fx, r ∈ rows) (hfy : ∀ r ∈ fy, r ∈ rows)
    (hcovers : Covers x y rows) (hconstant : Constant y rows)
    (hle : (fx.filterMap x).length ≤ (fy.filterMap y).length) :
    (fx.filterMap x).zip (fy.filterMap y) = truePairs x y fx := by
  cases hys : fy.filterMap y with
  | nil =>
    rw [hys, List.length_nil] at hle
    have hnone : (truePairs x y fx).length ≤ 0 := Nat.le_trans (length_truePairs_le fx) hle
    rw [List.zip_nil_right, List.eq_nil_of_length_eq_zero (Nat.le_zero.mp hnone)]
  | cons b₀ ys =>
    obtain ⟨r₀, hr₀, hy₀⟩ := List.mem_filterMap.mp (hys ▸ List.mem_cons_self .. : b₀ ∈ fy.filterMap y)
    have hone : ∀ r ∈ rows, ∀ b, y r = some b → b = b₀ :=
      fun r hr b hb => hconstant r hr r₀ (hfy r₀ hr₀) b b₀ hb hy₀
    have hvalues : ∀ b ∈ b₀ :: ys, b = b₀ := by
      intro b hb
      rw [← hys] at hb
      obtain ⟨r, hr, hyr⟩ := List.mem_filterMap.mp hb
      exact hone r (hfy r hr) b hyr
    rw [zip_eq_map hvalues (hys ▸ hle), List.map_filterMap]
    refine List.filterMap_congr fun r hr => ?_
    unfold pairOf
    cases hxr : x r with
    | none => rfl
    | some a =>
      obtain ⟨b, hb⟩ := Option.isSome_iff_exists.mp (hcovers r (hfx r hr) (by rw [hxr]; rfl))
      rw [hb, hone r (hfx r hr) b hb]
      rfl

/-- The same with the columns changed. -/
theorem zip_eq_truePairs' {fx fy : List α} (hfx : ∀ r ∈ fx, r ∈ rows) (hfy : ∀ r ∈ fy, r ∈ rows)
    (hcovers : Covers y x rows) (hconstant : Constant x rows)
    (hle : (fy.filterMap y).length ≤ (fx.filterMap x).length) :
    (fx.filterMap x).zip (fy.filterMap y) = truePairs x y fy := by
  have hswapped := congrArg (List.map Prod.swap) (zip_eq_truePairs hfy hfx hcovers hconstant hle)
  rwa [List.zip_swap, ← truePairs_swap fy] at hswapped

theorem pairsTrue_of_small (hlimit : rows.length ≤ limit)
    (h : Covers x y rows ∧ Constant y rows) : PairsTrue least limit x y rows := by
  intro fx fy hfx hfy _ _
  have hperm := (fetches_all_iff hlimit).mp hfx
  have hperm' := (fetches_all_iff hlimit).mp hfy
  have hle : (fx.filterMap x).length ≤ (fy.filterMap y).length := by
    rw [(hperm.filterMap x).length_eq, (hperm'.filterMap y).length_eq]
    exact length_le_of_covers h.1
  rw [zip_eq_truePairs (fun _ => hfx.mem) (fun _ => hfy.mem) h.1 h.2 hle]
  exact ⟨List.Perm.refl _, truePairs_perm (hperm.trans hperm'.symm)⟩

/-! ## Values that change places -/

theorem exists_perm_cons {r : α} (h : r ∈ f) : ∃ f', f.Perm (r :: f') := by
  obtain ⟨a, b, rfl⟩ := List.append_of_mem h
  exact ⟨a ++ b, List.perm_middle⟩

theorem exists_perm_cons₂ {r r' : α} (h : r ∈ f) (h' : r' ∈ f) (hne : r ≠ r') :
    ∃ f', f.Perm (r :: r' :: f') := by
  obtain ⟨f', hf'⟩ := exists_perm_cons h
  have hmem : r' ∈ f' := (List.mem_cons.mp (hf'.mem_iff.mp h')).resolve_left hne.symm
  obtain ⟨f'', hf''⟩ := exists_perm_cons hmem
  exact ⟨f'', hf'.trans (hf''.cons r)⟩

/-- Two rows with different values. -/
theorem exists_of_not_constant (h : ¬ Constant x f) :
    ∃ r r' a a' f', f.Perm (r :: r' :: f') ∧ x r = some a ∧ x r' = some a' ∧ a ≠ a' := by
  unfold Constant at h
  push Not at h
  obtain ⟨r, hr, r', hr', a, a', ha, ha', hne⟩ := h
  have hrows : r ≠ r' := by
    rintro rfl
    exact hne (Option.some.inj (ha.symm.trans ha'))
  obtain ⟨f', hf'⟩ := exists_perm_cons₂ hr hr' hrows
  exact ⟨r, r', a, a', f', hf', ha, ha', hne⟩

/-- Rows that are fetched in any order pair two different values of the one column with two of the other in two
ways. -/
theorem constant_or_constant (h : ∀ fx fy : List α, fx.Perm f → fy.Perm f →
    ((fx.filterMap x).zip (fy.filterMap y)).Perm (truePairs x y f)) : Constant x f ∨ Constant y f := by
  by_contra hnot
  obtain ⟨hx, hy⟩ := not_or.mp hnot
  obtain ⟨r, r', a, a', f₁, hf₁, ha, ha', hne⟩ := exists_of_not_constant hx
  obtain ⟨s, s', b, b', f₂, hf₂, hb, hb', hne'⟩ := exists_of_not_constant hy
  have hone := h (r :: r' :: f₁) (s :: s' :: f₂) hf₁.symm hf₂.symm
  have hother := h (r :: r' :: f₁) (s' :: s :: f₂) hf₁.symm ((List.Perm.swap s s' f₂).trans hf₂.symm)
  simp only [List.filterMap_cons, ha, ha', hb, hb', List.zip_cons_cons] at hone hother
  have hpairs : [(a, b), (a', b')].Perm [(a, b'), (a', b)] :=
    (List.perm_append_right_iff _).mp (hone.trans hother.symm)
  have hmem : (a, b) ∈ [(a, b'), (a', b)] := hpairs.mem_iff.mp (List.mem_cons_self ..)
  simp only [List.mem_cons, Prod.mk.injEq, List.not_mem_nil, or_false] at hmem
  rcases hmem with ⟨-, heq⟩ | ⟨heq, -⟩
  · exact hne' heq
  · exact hne heq

theorem map_snd_zip (xs : List β) (ys : List γ) : (xs.zip ys).map Prod.snd = ys.take xs.length := by
  induction xs generalizing ys with
  | nil => rfl
  | cons a xs ih =>
    cases ys with
    | nil => rfl
    | cons b ys => rw [List.zip_cons_cons, List.map_cons, ih, List.length_cons, List.take_succ_cons]

/-- A value that is dropped at the end may stand at the front. -/
theorem constant_of_shorter (h : ∀ fx fy : List α, fx.Perm f → fy.Perm f →
    ((fx.filterMap x).zip (fy.filterMap y)).Perm (truePairs x y f)) (hpos : 0 < (f.filterMap x).length)
    (hlt : (f.filterMap x).length < (f.filterMap y).length) : Constant y f := by
  by_contra hy
  obtain ⟨s, s', b, b', f₂, hf₂, hb, hb', hne⟩ := exists_of_not_constant hy
  have hrotate : ∀ u v : α, (u :: (f₂ ++ [v])).Perm (u :: v :: f₂) :=
    fun u v => (List.perm_append_singleton v f₂).cons u
  have hone := h f (s :: (f₂ ++ [s'])) (List.Perm.refl f) ((hrotate s s').trans hf₂.symm)
  have hother := h f (s' :: (f₂ ++ [s])) (List.Perm.refl f)
    ((hrotate s' s).trans ((List.Perm.swap s s' f₂).trans hf₂.symm))
  have hlength := (hf₂.filterMap y).length_eq
  simp only [List.filterMap_cons, List.filterMap_append, List.filterMap_nil, hb, hb'] at hone hother hlength
  rw [List.length_cons, List.length_cons] at hlength
  generalize f.filterMap x = xs at *
  generalize f₂.filterMap y = ys at *
  cases xs with
  | nil => cases hpos
  | cons a xs =>
    rw [List.length_cons] at hlt
    have hshort : ∀ b : γ, (xs.zip (ys ++ [b])).map Prod.snd = ys.take xs.length := by
      intro b
      rw [map_snd_zip, List.take_append_of_le_length (by omega)]
    have hsnd := (hone.trans hother.symm).map Prod.snd
    simp only [List.zip_cons_cons, List.map_cons, hshort] at hsnd
    have hsingle : [b].Perm [b'] := (List.perm_append_right_iff (ys.take xs.length)).mp hsnd
    exact hne (List.singleton_perm_singleton.mp hsingle)

/-! ## All rows are fetched -/

theorem length_truePairs_swap (f : List α) : (truePairs y x f).length = (truePairs x y f).length := by
  rw [truePairs_swap, List.length_map]

theorem columns_of_all (h : ∀ fx fy : List α, fx.Perm f → fy.Perm f →
    ((fx.filterMap x).zip (fy.filterMap y)).Perm (truePairs x y f)) (hpos : 0 < (f.filterMap x).length)
    (hle : (f.filterMap x).length ≤ (f.filterMap y).length) :
    Covers x y f ∧ Constant y f ∨ Covers y x f ∧ Constant x f := by
  have hlength : (truePairs x y f).length = (f.filterMap x).length := by
    rw [← (h f f (List.Perm.refl f) (List.Perm.refl f)).length_eq, List.length_zip, Nat.min_eq_left hle]
  by_cases hy : Constant y f
  · exact Or.inl ⟨covers_of_length_eq hlength, hy⟩
  · have heq : (f.filterMap x).length = (f.filterMap y).length := by
      refine Nat.le_antisymm hle (Nat.not_lt.mp fun hlt => hy ?_)
      exact constant_of_shorter h hpos hlt
    have hcovers : Covers y x f := by
      apply covers_of_length_eq
      rw [length_truePairs_swap, hlength, heq]
    exact Or.inr ⟨hcovers, (constant_or_constant h).resolve_right hy⟩

/-! ## Some rows are left -/

/-- Rows with as many values as are wanted, and no more. -/
theorem exists_values {k : Nat} {l : List α} (hk : k ≤ (l.filterMap x).length) :
    ∃ s rest : List α, (s ++ rest).Perm l ∧ s.length = k ∧ (s.filterMap x).length = k := by
  rw [length_filterMap_eq_countP, List.countP_eq_length_filter] at hk
  refine ⟨(l.filter fun r => (x r).isSome).take k,
    (l.filter fun r => (x r).isSome).drop k ++ l.filter fun r => !(x r).isSome, ?_, ?_, ?_⟩
  · rw [← List.append_assoc, List.take_append_drop]
    exact List.filter_append_perm (fun r => (x r).isSome) l
  · rw [List.length_take, Nat.min_eq_left hk]
  · have hall : ∀ r ∈ (l.filter fun r => (x r).isSome).take k, (x r).isSome = true :=
      fun r hr => (List.mem_filter.mp (List.mem_of_mem_take hr)).2
    rw [length_filterMap_eq_countP, List.countP_eq_length.mpr hall, List.length_take, Nat.min_eq_left hk]

theorem exists_fetches (hx : least ≤ (rows.filterMap x).length) (hleast : least ≤ limit)
    (hlimit : limit ≤ rows.length) : ∃ f, Fetches limit rows f ∧ least ≤ (f.filterMap x).length := by
  obtain ⟨s, rest, hperm, hs, hvalues⟩ := exists_values hx
  obtain ⟨t, rest', hperm', hlength⟩ := exists_extension hperm (hs ▸ hleast) hlimit
  refine ⟨s ++ t, ⟨rest', hperm', ?_⟩, ?_⟩
  · rw [hlength, Nat.min_eq_left hlimit]
  · rw [List.filterMap_append, List.length_append]
    omega

/-- Of two rows the one or the other is fetched, with enough values beside it. -/
theorem exists_exchange {m : Nat} {r u : α} {l : List α} (hperm : (r :: u :: l).Perm rows)
    (hm : m ≤ (l.filterMap x).length) (hlimit : m < limit) (hmore : limit < rows.length) :
    ∃ f, Fetches limit rows (r :: f) ∧ Fetches limit rows (u :: f) ∧ m ≤ (f.filterMap x).length := by
  obtain ⟨s, rest, hs, hlength, hvalues⟩ := exists_values hm
  have htotal := hperm.length_eq
  rw [List.length_cons, List.length_cons] at htotal
  obtain ⟨t, rest', ht, hcount⟩ :=
    exists_extension (n := limit - 1) hs (by rw [hlength]; omega) (by omega)
  have hrows : (r :: (s ++ t) ++ u :: rest').Perm rows :=
    (List.Perm.cons r (List.perm_middle.trans (ht.cons u))).trans hperm
  have hfetched : (r :: (s ++ t)).length = limit := by
    rw [List.length_cons, hcount]
    omega
  obtain ⟨hr, hu⟩ := fetches_exchange hrows hfetched
  refine ⟨s ++ t, hr, hu, ?_⟩
  rw [List.filterMap_append, List.length_append]
  omega

theorem samePairs_of_pairsTrue (h : PairsTrue least limit x y rows) (hy : least ≤ (rows.filterMap y).length)
    (hleast : least ≤ limit) (hlimit : limit ≤ rows.length) :
    SamePairs least limit x y rows ∧
      ∀ f, Fetches limit rows f → least ≤ (f.filterMap x).length → least ≤ (truePairs x y f).length := by
  obtain ⟨g, hg, hvalues⟩ := exists_fetches hy hleast hlimit
  refine ⟨?_, ?_⟩
  · intro f f' hf hf' hx hx'
    exact (h f g hf hg hx hvalues).1.symm.trans
      ((h f g hf hg hx hvalues).2.trans ((h f' g hf' hg hx' hvalues).2.symm.trans (h f' g hf' hg hx' hvalues).1))
  · intro f hf hx
    rw [← (h f g hf hg hx hvalues).1.length_eq, List.length_zip]
    exact Nat.le_min.mpr ⟨hx, hvalues⟩

theorem truePairs_cons (r : α) (f : List α) :
    truePairs x y (r :: f) = (pairOf x y r).toList ++ truePairs x y f := by
  unfold truePairs
  rw [List.filterMap_cons]
  cases pairOf x y r <;> rfl

theorem length_filterMap_cons {r : α} (hr : (x r).isSome = true) (f : List α) :
    ((r :: f).filterMap x).length = (f.filterMap x).length + 1 := by
  obtain ⟨a, ha⟩ := Option.isSome_iff_exists.mp hr
  rw [List.filterMap_cons_some ha, List.length_cons]

theorem length_filterMap_le_cons (r : α) (f : List α) :
    (f.filterMap x).length ≤ ((r :: f).filterMap x).length := by
  rw [List.filterMap_cons]
  cases x r with
  | none => exact Nat.le_refl _
  | some a => exact Nat.le_succ _

/-- A row with a value is fetched, another is left. -/
theorem exists_fetched_left {r : α} (hr : r ∈ rows) (hxr : (x r).isSome = true) (hpos : 0 < least)
    (hx : least ≤ (rows.filterMap x).length) (hleast : least ≤ limit) (hmore : limit < rows.length) :
    ∃ u f rest, (r :: f ++ u :: rest).Perm rows ∧ (r :: f).length = limit ∧
      least ≤ ((r :: f).filterMap x).length := by
  obtain ⟨l, hl⟩ := exists_perm_cons hr
  have hvalues : least - 1 ≤ (l.filterMap x).length := by
    have hcount := (hl.filterMap x).length_eq
    rw [length_filterMap_cons hxr] at hcount
    omega
  obtain ⟨s, rest, hs, hlength, hcount⟩ := exists_values hvalues
  have htotal := hl.length_eq
  rw [List.length_cons] at htotal
  obtain ⟨t, rest', ht, hsize⟩ :=
    exists_extension (n := limit - 1) hs (by rw [hlength]; omega) (by omega)
  have hleft : rest' ≠ [] := by
    rintro rfl
    have := ht.length_eq
    rw [List.append_nil] at this
    omega
  obtain ⟨u, rest', rfl⟩ := List.exists_cons_of_ne_nil hleft
  refine ⟨u, s ++ t, rest', (ht.cons r).trans hl.symm, ?_, ?_⟩
  · rw [List.length_cons, hsize]
    omega
  · rw [length_filterMap_cons hxr, List.filterMap_append, List.length_append]
    omega

/-- A row with a value in the first column only: if the row that was left has a pair then it may not take this
row's place, and if it has none then it may not take the place of a row that has one. -/
theorem covers_of_samePairs (h : SamePairs least limit x y rows)
    (hmany : ∀ f, Fetches limit rows f → least ≤ (f.filterMap x).length → least ≤ (truePairs x y f).length)
    (hpos : 0 < least) (hx : least ≤ (rows.filterMap x).length) (hleast : least ≤ limit)
    (hmore : limit < rows.length) : Covers x y rows := by
  intro r hr hxr
  by_contra hyr
  have hnot : pairOf x y r = none := by
    rw [← Option.not_isSome_iff_eq_none, pairOf_isSome]
    exact fun hboth => hyr hboth.2
  obtain ⟨u, f, rest, hperm, hlength, hvalues⟩ := exists_fetched_left hr hxr hpos hx hleast hmore
  obtain ⟨hfr, hfu⟩ := fetches_exchange hperm hlength
  have hpairs : least ≤ (truePairs x y f).length := by
    have := hmany (r :: f) hfr hvalues
    rwa [truePairs_cons, hnot] at this
  have hfirst : (pairOf x y u).toList = [] := by
    have hfew : least ≤ ((u :: f).filterMap x).length :=
      Nat.le_trans hpairs (Nat.le_trans (length_truePairs_le f) (length_filterMap_le_cons u f))
    have hsame := (h _ _ hfr hfu hvalues hfew).length_eq
    rw [truePairs_cons, truePairs_cons, hnot, Option.toList_none, List.nil_append, List.length_append] at hsame
    exact List.eq_nil_of_length_eq_zero (by omega)
  obtain ⟨⟨a, b⟩, hpair⟩ := List.exists_mem_of_length_pos (Nat.lt_of_lt_of_le hpos hpairs)
  obtain ⟨v, hv, hab⟩ := List.mem_filterMap.mp hpair
  obtain ⟨f', hf'⟩ := exists_perm_cons hv
  have hswap : (r :: f).Perm (v :: r :: f') := (hf'.cons r).trans (List.Perm.swap v r f')
  have hrows : (v :: (r :: f') ++ u :: rest).Perm rows := (hswap.symm.append_right _).trans hperm
  obtain ⟨hfv, hfu'⟩ := fetches_exchange hrows (hswap.length_eq.symm.trans hlength)
  have hvalues' : least ≤ ((v :: r :: f').filterMap x).length := by
    rwa [← (hswap.filterMap x).length_eq]
  have hxv : (x v).isSome = true := by rw [(pairOf_some.mp hab).1]; rfl
  have hfew : least ≤ ((u :: r :: f').filterMap x).length := by
    refine Nat.le_trans ?_ (length_filterMap_le_cons u (r :: f'))
    have hless := (hf'.filterMap x).length_eq
    rw [length_filterMap_cons hxv] at hless
    rw [length_filterMap_cons hxr, ← hless]
    exact Nat.le_trans hpairs (length_truePairs_le f)
  have hsame := (h _ _ hfv hfu' hvalues' hfew).length_eq
  rw [truePairs_cons, truePairs_cons u, hab, hfirst, List.length_append, List.length_append] at hsame
  simp at hsame

/-- Two rows with a value that may change places have the same pair. -/
theorem pairOf_eq_of_samePairs {r r' : α} {l : List α} (h : SamePairs least limit x y rows) (hpos : 0 < least)
    (hleast : least ≤ limit) (hmore : limit < rows.length) (hperm : (r :: r' :: l).Perm rows)
    (hr : (x r).isSome = true) (hr' : (x r').isSome = true) (hx : least < (rows.filterMap x).length) :
    (pairOf x y r).toList = (pairOf x y r').toList := by
  have hvalues : least - 1 ≤ (l.filterMap x).length := by
    have hcount := (hperm.filterMap x).length_eq
    rw [length_filterMap_cons hr, length_filterMap_cons hr'] at hcount
    omega
  obtain ⟨f, hf, hf', hm⟩ := exists_exchange hperm hvalues (by omega) hmore
  have hsame := h _ _ hf hf' (by rw [length_filterMap_cons hr]; omega)
    (by rw [length_filterMap_cons hr']; omega)
  rw [truePairs_cons, truePairs_cons] at hsame
  have hpairs := (List.perm_append_right_iff _).mp hsame
  cases hab : pairOf x y r with
  | none =>
    rw [hab] at hpairs
    exact (List.perm_nil.mp hpairs.symm).symm
  | some pair =>
    rw [hab] at hpairs
    exact (List.perm_singleton.mp hpairs.symm).symm

/-- A row without a value may not take the place of a row with a pair. -/
theorem no_null_of_samePairs (h : SamePairs least limit x y rows) (hcovers : Covers x y rows)
    (hx : least < (rows.filterMap x).length) (hleast : least < limit) (hmore : limit < rows.length) :
    ∀ r ∈ rows, (x r).isSome = true := by
  intro z hz
  by_contra hxz
  have hnull : x z = none := Option.not_isSome_iff_eq_none.mp hxz
  obtain ⟨a, ha⟩ := List.exists_mem_of_length_pos (Nat.zero_lt_of_lt hx)
  obtain ⟨u, hu, hxu⟩ := List.mem_filterMap.mp ha
  have husome : (x u).isSome = true := by rw [hxu]; rfl
  have hne : z ≠ u := by
    rintro rfl
    exact hxz husome
  obtain ⟨l, hl⟩ := exists_perm_cons₂ hz hu hne
  have hvalues : least ≤ (l.filterMap x).length := by
    have hcount := (hl.filterMap x).length_eq
    rw [List.filterMap_cons_none hnull, length_filterMap_cons husome] at hcount
    omega
  obtain ⟨f, hfz, hfu, hm⟩ := exists_exchange hl.symm hvalues hleast hmore
  have hsame := (h _ _ hfz hfu (Nat.le_trans hm (length_filterMap_le_cons z f))
    (Nat.le_trans hm (length_filterMap_le_cons u f))).length_eq
  obtain ⟨pair, hpair⟩ := Option.isSome_iff_exists.mp (pairOf_isSome.mpr ⟨husome, hcovers u hu husome⟩)
  have hnone : pairOf x y z = none := by
    unfold pairOf
    rw [hnull]
    rfl
  rw [truePairs_cons, truePairs_cons, hpair, hnone, List.length_append, List.length_append] at hsame
  simp at hsame

/-! ## All values are fetched -/

theorem left_of_all_values {rest : List α} (hperm : (f ++ rest).Perm rows)
    (hall : (rows.filterMap x).length ≤ (f.filterMap x).length) : ∀ r ∈ rest, x r = none := by
  have hcount := (hperm.filterMap x).length_eq
  rw [List.filterMap_append, List.length_append] at hcount
  have hnone : rest.filterMap x = [] := List.eq_nil_of_length_eq_zero (by omega)
  exact List.filterMap_eq_nil_iff.mp hnone

theorem constant_of_fetched (hf : Fetches limit rows f)
    (hall : (rows.filterMap x).length ≤ (f.filterMap x).length) (h : Constant x f) : Constant x rows := by
  obtain ⟨rest, hperm, -⟩ := hf
  have hnone := left_of_all_values hperm hall
  have hmem : ∀ r ∈ rows, ∀ a, x r = some a → r ∈ f := by
    intro r hr a ha
    refine (List.mem_append.mp (hperm.mem_iff.mpr hr)).resolve_right fun hleft => ?_
    rw [hnone r hleft] at ha
    cases ha
  exact fun r hr r' hr' a a' ha ha' => h r (hmem r hr a ha) r' (hmem r' hr' a' ha') a a' ha ha'

theorem truePairs_fetched (hf : Fetches limit rows f)
    (hall : (rows.filterMap x).length ≤ (f.filterMap x).length) : (truePairs x y f).Perm (truePairs x y rows) := by
  obtain ⟨rest, hperm, -⟩ := hf
  have hnone := left_of_all_values hperm hall
  have hrest : truePairs x y rest = [] := by
    refine List.filterMap_eq_nil_iff.mpr fun r hr => ?_
    unfold pairOf
    rw [hnone r hr]
    rfl
  have happend := truePairs_perm (x := x) (y := y) hperm
  unfold truePairs at happend hrest ⊢
  rwa [List.filterMap_append, hrest, List.append_nil] at happend

/-! ## The pairs are true -/

theorem values_eq_of_covers (hcovers : Covers x y f) (hcovers' : Covers y x f) :
    (f.filterMap x).length = (f.filterMap y).length :=
  Nat.le_antisymm (length_le_of_covers hcovers) (length_le_of_covers hcovers')

theorem constant_of_least (h : PairsTrue least limit x y rows) (hcovers : Covers x y rows)
    (hcovers' : Covers y x rows) (hx : (rows.filterMap x).length = least) (hleast : least ≤ limit)
    (hlimit : limit ≤ rows.length) : Constant x rows ∨ Constant y rows := by
  obtain ⟨f, hf, hvalues⟩ := exists_fetches (Nat.le_of_eq hx.symm) hleast hlimit
  have hsame := values_eq_of_covers (fun r hr => hcovers r (hf.mem hr)) fun r hr => hcovers' r (hf.mem hr)
  have hsame' := values_eq_of_covers hcovers hcovers'
  have hany : ∀ fx fy : List α, fx.Perm f → fy.Perm f →
      ((fx.filterMap x).zip (fy.filterMap y)).Perm (truePairs x y f) := by
    intro fx fy hfx hfy
    refine (h fx fy (fetches_of_perm hf hfx) (fetches_of_perm hf hfy) ?_ ?_).1.trans (truePairs_perm hfx)
    · rwa [(hfx.filterMap x).length_eq]
    · rwa [(hfy.filterMap y).length_eq, ← hsame]
  refine (constant_or_constant hany).imp (constant_of_fetched hf ?_) (constant_of_fetched hf ?_)
  · rwa [hx]
  · rwa [← hsame, ← hsame', hx]

theorem constant_of_more (h : SamePairs least limit x y rows) (hcovers : Covers x y rows)
    (hpos : 0 < least) (hx : least < (rows.filterMap x).length) (hleast : least ≤ limit)
    (hmore : limit < rows.length) :
    ∀ r ∈ rows, ∀ r' ∈ rows, (x r).isSome = true → (x r').isSome = true → pairOf x y r = pairOf x y r' := by
  intro r hr r' hr' hxr hxr'
  by_cases hne : r = r'
  · rw [hne]
  · obtain ⟨l, hl⟩ := exists_perm_cons₂ hr hr' hne
    have hpairs := pairOf_eq_of_samePairs h hpos hleast hmore hl.symm hxr hxr' hx
    obtain ⟨pair, hpair⟩ := Option.isSome_iff_exists.mp (pairOf_isSome.mpr ⟨hxr, hcovers r hr hxr⟩)
    obtain ⟨pair', hpair'⟩ := Option.isSome_iff_exists.mp (pairOf_isSome.mpr ⟨hxr', hcovers r' hr' hxr'⟩)
    rw [hpair, hpair'] at hpairs ⊢
    rw [List.head_eq_of_cons_eq hpairs]

/-- Columns whose values are always of one pair. -/
theorem constant_of_pairOf (hcovers : Covers x y rows) (hcovers' : Covers y x rows)
    (hpairs : ∀ r ∈ rows, ∀ r' ∈ rows, (x r).isSome = true → (x r').isSome = true →
      pairOf x y r = pairOf x y r') : Constant x rows ∧ Constant y rows := by
  have hboth : ∀ r ∈ rows, ∀ r' ∈ rows, (x r).isSome = true → (x r').isSome = true →
      x r = x r' ∧ y r = y r' := by
    intro r hr r' hr' hxr hxr'
    obtain ⟨⟨a, b⟩, hab⟩ := Option.isSome_iff_exists.mp (pairOf_isSome.mpr ⟨hxr, hcovers r hr hxr⟩)
    obtain ⟨ha, hb⟩ := pairOf_some.mp hab
    obtain ⟨ha', hb'⟩ := pairOf_some.mp ((hpairs r hr r' hr' hxr hxr').symm.trans hab)
    rw [ha, hb, ha', hb']
    exact ⟨rfl, rfl⟩
  constructor
  · intro r hr r' hr' a a' ha ha'
    have heq := (hboth r hr r' hr' (by rw [ha]; rfl) (by rw [ha']; rfl)).1
    rw [ha, ha'] at heq
    exact Option.some.inj heq
  · intro r hr r' hr' b b' hb hb'
    have heq := (hboth r hr r' hr' (hcovers' r hr (by rw [hb]; rfl)) (hcovers' r' hr' (by rw [hb']; rfl))).2
    rw [hb, hb'] at heq
    exact Option.some.inj heq

theorem paired_of_pairsTrue (h : PairsTrue least limit x y rows) (hpos : 0 < least) :
    Paired least limit x y rows := by
  by_cases hleast : limit < least
  · exact Or.inl hleast
  by_cases hfewx : (rows.filterMap x).length < least
  · exact Or.inr (Or.inl hfewx)
  by_cases hfewy : (rows.filterMap y).length < least
  · exact Or.inr (Or.inr (Or.inl hfewy))
  rw [Nat.not_lt] at hleast hfewx hfewy
  refine Or.inr (Or.inr (Or.inr ?_))
  by_cases hlimit : rows.length ≤ limit
  · refine Or.inl ⟨hlimit, ?_⟩
    have hany : ∀ fx fy : List α, fx.Perm rows → fy.Perm rows →
        ((fx.filterMap x).zip (fy.filterMap y)).Perm (truePairs x y rows) := by
      intro fx fy hfx hfy
      refine (h fx fy ((fetches_all_iff hlimit).mpr hfx) ((fetches_all_iff hlimit).mpr hfy) ?_ ?_).1.trans
        (truePairs_perm hfx)
      · rwa [(hfx.filterMap x).length_eq]
      · rwa [(hfy.filterMap y).length_eq]
    rcases Nat.le_total (rows.filterMap x).length (rows.filterMap y).length with hle | hle
    · exact columns_of_all hany (Nat.lt_of_lt_of_le hpos hfewx) hle
    · have hswapped : ∀ fy fx : List α, fy.Perm rows → fx.Perm rows →
          ((fy.filterMap y).zip (fx.filterMap x)).Perm (truePairs y x rows) := by
        intro fy fx hfy hfx
        have hmapped := (hany fx fy hfx hfy).map Prod.swap
        rwa [List.zip_swap, ← truePairs_swap] at hmapped
      exact (columns_of_all hswapped (Nat.lt_of_lt_of_le hpos hfewy) hle).symm
  · rw [Nat.not_le] at hlimit
    have hle := Nat.le_of_lt hlimit
    obtain ⟨hsame, hmany⟩ := samePairs_of_pairsTrue h hfewy hleast hle
    obtain ⟨hsame', hmany'⟩ := samePairs_of_pairsTrue h.symm hfewx hleast hle
    have hcovers := covers_of_samePairs hsame hmany hpos hfewx hleast hlimit
    have hcovers' := covers_of_samePairs hsame' hmany' hpos hfewy hleast hlimit
    refine Or.inr ⟨hlimit, hcovers, hcovers', ?_⟩
    rcases Nat.eq_or_lt_of_le hfewx with hx | hx
    · exact Or.inr ⟨hx.symm, constant_of_least h hcovers hcovers' hx.symm hleast hle⟩
    · obtain ⟨hone, hone'⟩ :=
        constant_of_pairOf hcovers hcovers' (constant_of_more hsame hcovers hpos hx hleast hlimit)
      refine Or.inl ⟨hone, hone', ?_⟩
      rcases Nat.eq_or_lt_of_le hleast with heq | hlt
      · exact Or.inr heq.symm
      · exact Or.inl (no_null_of_samePairs hsame hcovers hx hlt hlimit)

theorem Fetches.length (h : Fetches limit rows f) (hlimit : limit ≤ rows.length) : f.length = limit := by
  obtain ⟨-, -, hlength⟩ := h
  rw [hlength, Nat.min_eq_left hlimit]

/-- Of the rows that were fetched each one has a value, where all have one or no more are fetched than are
needed. -/
theorem values_of_fetched (hf : Fetches limit rows f) (hlimit : limit ≤ rows.length)
    (hvalues : least ≤ (f.filterMap x).length)
    (hall : (∀ r ∈ rows, (x r).isSome = true) ∨ limit = least) : (f.filterMap x).length = limit := by
  rcases hall with hall | heq
  · rw [length_filterMap_eq_countP, List.countP_eq_length.mpr fun r hr => hall r (hf.mem hr), hf.length hlimit]
  · have hle := List.length_filterMap_le x f
    rw [hf.length hlimit] at hle
    omega

theorem Fetches.values_le (hf : Fetches limit rows f) : (f.filterMap x).length ≤ (rows.filterMap x).length := by
  obtain ⟨rest, hperm, -⟩ := hf
  have hcount := (hperm.filterMap x).length_eq
  rw [List.filterMap_append, List.length_append] at hcount
  omega

theorem pairsTrue_of_constant (hlimit : limit ≤ rows.length) (hcovers : Covers x y rows)
    (hcovers' : Covers y x rows) (hx : Constant x rows) (hy : Constant y rows)
    (hall : (∀ r ∈ rows, (x r).isSome = true) ∨ limit = least) : PairsTrue least limit x y rows := by
  intro fx fy hfx hfy hvx hvy
  have hlx := values_of_fetched hfx hlimit hvx hall
  have hly := values_of_fetched hfy hlimit hvy (hall.imp_left fun h r hr => hcovers r hr (h r hr))
  constructor
  · rw [zip_eq_truePairs (fun _ => hfx.mem) (fun _ => hfy.mem) hcovers hy (by omega)]
  · rw [zip_eq_truePairs' (fun _ => hfx.mem) (fun _ => hfy.mem) hcovers' hx (by omega)]

theorem pairsTrue_of_least (hcovers : Covers x y rows) (hcovers' : Covers y x rows)
    (hx : (rows.filterMap x).length = least) (hconstant : Constant x rows ∨ Constant y rows) :
    PairsTrue least limit x y rows := by
  intro fx fy hfx hfy hvx hvy
  have hsame := values_eq_of_covers hcovers hcovers'
  have hsamex := values_eq_of_covers (fun r hr => hcovers r (hfx.mem hr)) fun r hr => hcovers' r (hfx.mem hr)
  have hsamey := values_eq_of_covers (fun r hr => hcovers r (hfy.mem hr)) fun r hr => hcovers' r (hfy.mem hr)
  have hpx : (truePairs x y fx).Perm (truePairs x y rows) := truePairs_fetched hfx (by omega)
  have hpy : (truePairs x y fy).Perm (truePairs x y rows) := truePairs_fetched hfy (by omega)
  have hlx : (fx.filterMap x).length ≤ (rows.filterMap x).length := hfx.values_le
  have hly : (fy.filterMap x).length ≤ (rows.filterMap x).length := hfy.values_le
  rcases hconstant with hone | hone
  · rw [zip_eq_truePairs' (fun _ => hfx.mem) (fun _ => hfy.mem) hcovers' hone (by omega)]
    exact ⟨hpy.trans hpx.symm, List.Perm.refl _⟩
  · rw [zip_eq_truePairs (fun _ => hfx.mem) (fun _ => hfy.mem) hcovers hone (by omega)]
    exact ⟨List.Perm.refl _, hpx.trans hpy.symm⟩

theorem pairsTrue_of_paired (h : Paired least limit x y rows) : PairsTrue least limit x y rows := by
  rcases h with hleast | hfew | hfew | ⟨hlimit, hcolumns⟩ | ⟨hmore, hcovers, hcovers', hcolumns⟩
  · intro fx fy hfx _ hvx _
    have hle := List.length_filterMap_le x fx
    have hlength : fx.length ≤ limit := by
      obtain ⟨-, -, hlength⟩ := hfx
      omega
    omega
  · intro fx fy hfx _ hvx _
    exact absurd (Nat.le_trans hvx hfx.values_le) (Nat.not_le.mpr hfew)
  · intro fx fy _ hfy _ hvy
    exact absurd (Nat.le_trans hvy hfy.values_le) (Nat.not_le.mpr hfew)
  · rcases hcolumns with hcolumns | hcolumns
    · exact pairsTrue_of_small hlimit hcolumns
    · exact (pairsTrue_of_small hlimit hcolumns).symm
  · rcases hcolumns with ⟨hx, hy, hall⟩ | ⟨hx, hconstant⟩
    · exact pairsTrue_of_constant (Nat.le_of_lt hmore) hcovers hcovers' hx hy hall
    · exact pairsTrue_of_least hcovers hcovers' hx hconstant

/-- The pairs are true, whatever the queries return, of columns that say next to nothing. -/
theorem pairsTrue_iff_paired (hpos : 0 < least) : PairsTrue least limit x y rows ↔ Paired least limit x y rows :=
  ⟨fun h => paired_of_pairsTrue h hpos, pairsTrue_of_paired⟩

end Relational
