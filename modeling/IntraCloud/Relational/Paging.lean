import Mathlib.Data.List.Nodup

/-!
# Pages

A list that is asked for page by page, and sorted anew for each page: what the order leaves tied may stand
differently each time.
-/

namespace Relational

variable {α : Type*}

/-- The elements from an offset on, as many as the limit at most. -/
def pageAt (limit offset : Nat) (l : List α) : List α := (l.drop offset).take limit

/-- The first pages, each of an arrangement of its own. -/
def pagesOf (limit n : Nat) (arranged : Nat → List α) : List α :=
  (List.range n).flatMap fun k => pageAt limit (k * limit) (arranged k)

/-- How many pages there are, the last not empty. -/
def pageCount (limit count : Nat) : Nat := (count + limit - 1) / limit

/-- `ORDER BY` may arrange the list like this. -/
structure Arranges (before : α → α → Bool) (l arranged : List α) : Prop where
  perm : arranged.Perm l
  sorted : arranged.Pairwise fun x y => before x y = true

/-- How many elements stand before this one in every arrangement. -/
def countBefore (before : α → α → Bool) (l : List α) (x : α) : Nat := l.countP fun y => !before x y

/-- How many elements stand before this one in some arrangement, with itself. -/
def countUpTo (before : α → α → Bool) (l : List α) (x : α) : Nat := l.countP fun y => before y x

/-- No page ends among elements that the order leaves tied. -/
def TiesOnOnePage (before : α → α → Bool) (limit : Nat) (l : List α) : Prop :=
  ∀ x ∈ l, ∀ k, ¬ (countBefore before l x < k * limit ∧ k * limit < countUpTo before l x)

/-! ## Pages of tied elements

Pages that are sorted anew hold every element once, whatever the arrangements, exactly where no page ends among
elements that the order leaves tied. -/

variable {before : α → α → Bool} {l l₀ l₁ l₂ : List α} {limit : Nat}

theorem pageAt_append (limit n : Nat) (l : List α) :
    l.take (n * limit) ++ pageAt limit (n * limit) l = l.take ((n + 1) * limit) := by
  rw [Nat.succ_mul, pageAt, List.take_add]

theorem pagesOf_succ (limit n : Nat) (arranged : Nat → List α) :
    pagesOf limit (n + 1) arranged = pagesOf limit n arranged ++ pageAt limit (n * limit) (arranged n) := by
  unfold pagesOf
  rw [List.range_succ, List.flatMap_append, List.flatMap_singleton]

theorem count_le_pageCount (hlimit : 0 < limit) (count : Nat) : count ≤ pageCount limit count * limit := by
  have hdiv := Nat.div_add_mod (count + limit - 1) limit
  have hmod := Nat.mod_lt (count + limit - 1) hlimit
  rw [pageCount, Nat.mul_comm]
  omega

/-! ## Counting in an arrangement -/

section Order

variable (htotal : ∀ x y, before x y = true ∨ before y x = true)
  (htrans : ∀ x y z, before x y = true → before y z = true → before x z = true)

include htotal in
theorem before_self (x : α) : before x x = true := (htotal x x).elim id id

include htotal in
/-- What stands in every arrangement before an element stands before it in this one. -/
theorem countBefore_le {a b : List α} {x : α} (hsorted : (a ++ x :: b).Pairwise fun x y => before x y = true) :
    countBefore before (a ++ x :: b) x ≤ a.length := by
  have hlater : (x :: b).countP (fun y => !before x y) = 0 := by
    refine List.countP_eq_zero.mpr fun y hy => ?_
    rcases List.mem_cons.mp hy with rfl | hb
    · simp [before_self htotal y]
    · have hx := (List.pairwise_cons.mp (List.pairwise_append.mp hsorted).2.1).1 y hb
      simp [hx]
  rw [countBefore, List.countP_append, hlater]
  exact List.countP_le_length

include htotal in
theorem length_lt_countUpTo {a b : List α} {x : α}
    (hsorted : (a ++ x :: b).Pairwise fun x y => before x y = true) :
    a.length < countUpTo before (a ++ x :: b) x := by
  have hearlier : a.countP (fun y => before y x) = a.length := by
    refine List.countP_eq_length.mpr fun y hy => ?_
    exact (List.pairwise_append.mp hsorted).2.2 y hy x (List.mem_cons_self ..)
  have hself : 0 < (x :: b).countP fun y => before y x :=
    List.countP_pos_iff.mpr ⟨x, List.mem_cons_self .., before_self htotal x⟩
  rw [countUpTo, List.countP_append, hearlier]
  omega

theorem countBefore_perm (h : l₁.Perm l₂) (x : α) : countBefore before l₁ x = countBefore before l₂ x :=
  h.countP_eq _

theorem countUpTo_perm (h : l₁.Perm l₂) (x : α) : countUpTo before l₁ x = countUpTo before l₂ x :=
  h.countP_eq _

include htotal in
/-- What stands before a position that splits no ties. -/
theorem take_eq_filter {p : Nat} (hsorted : l.Pairwise fun x y => before x y = true)
    (hties : ∀ x ∈ l, ¬ (countBefore before l x < p ∧ p < countUpTo before l x)) :
    l.take p = l.filter fun x => decide (countUpTo before l x ≤ p) := by
  have hkept : ∀ x ∈ l.take p, countUpTo before l x ≤ p := by
    intro x hx
    obtain ⟨a, b, hab⟩ := List.append_of_mem hx
    have hl : l = a ++ x :: (b ++ l.drop p) := by
      conv_lhs => rw [← List.take_append_drop p l, hab]
      rw [List.append_assoc, List.cons_append]
    have hlength : a.length < p := by
      have := congrArg List.length hab
      rw [List.length_append, List.length_cons, List.length_take] at this
      omega
    have hbefore : countBefore before l x < p := by
      rw [hl] at hsorted ⊢
      exact Nat.lt_of_le_of_lt (countBefore_le htotal hsorted) hlength
    by_contra hnot
    exact hties x (List.mem_of_mem_take hx) ⟨hbefore, Nat.lt_of_not_le hnot⟩
  have hdropped : ∀ x ∈ l.drop p, ¬ countUpTo before l x ≤ p := by
    intro x hx
    obtain ⟨a, b, hab⟩ := List.append_of_mem hx
    have hl : l = (l.take p ++ a) ++ x :: b := by
      conv_lhs => rw [← List.take_append_drop p l, hab]
      rw [List.append_assoc]
    have hlength : p ≤ (l.take p).length := by
      have := congrArg List.length hab
      rw [List.length_append, List.length_cons, List.length_drop] at this
      rw [List.length_take]
      omega
    have hupTo : (l.take p ++ a).length < countUpTo before l x := by
      have hsorted' := hsorted
      rw [hl] at hsorted'
      have hlt := length_lt_countUpTo htotal hsorted'
      rwa [← hl] at hlt
    rw [List.length_append] at hupTo
    omega
  conv_rhs => rw [← List.take_append_drop p l, List.filter_append]
  have hfirst : (l.take p).filter (fun x => decide (countUpTo before l x ≤ p)) = l.take p :=
    List.filter_eq_self.mpr fun x hx => decide_eq_true (hkept x hx)
  have hrest : (l.drop p).filter (fun x => decide (countUpTo before l x ≤ p)) = [] :=
    List.filter_eq_nil_iff.mpr fun x hx => by simpa using hdropped x hx
  rw [List.take_append_drop, hfirst, hrest, List.append_nil]

include htotal in
/-- Two arrangements have the same elements before a position that splits no ties. -/
theorem take_perm {p : Nat} (h₁ : Arranges before l l₁) (h₂ : Arranges before l l₂)
    (hties : ∀ x ∈ l, ¬ (countBefore before l x < p ∧ p < countUpTo before l x)) :
    (l₁.take p).Perm (l₂.take p) := by
  have hfilter : ∀ {l' : List α}, Arranges before l l' →
      l'.take p = l'.filter fun x => decide (countUpTo before l x ≤ p) := by
    intro l' h
    have hties' : ∀ x ∈ l', ¬ (countBefore before l' x < p ∧ p < countUpTo before l' x) := by
      intro x hx
      rw [countBefore_perm h.perm, countUpTo_perm h.perm]
      exact hties x (h.perm.mem_iff.mp hx)
    rw [take_eq_filter htotal h.sorted hties']
    refine List.filter_congr fun x _ => ?_
    rw [countUpTo_perm h.perm]
  rw [hfilter h₁, hfilter h₂]
  exact (h₁.perm.trans h₂.perm.symm).filter _

include htotal in
/-- The first pages hold what stands first in any arrangement. -/
theorem pagesOf_perm_take (h₀ : Arranges before l l₀) (hties : TiesOnOnePage before limit l)
    {arranged : Nat → List α} (harranged : ∀ k, Arranges before l (arranged k)) (n : Nat) :
    (pagesOf limit n arranged).Perm (l₀.take (n * limit)) := by
  induction n with
  | zero => simp [pagesOf]
  | succ n ih =>
    have hstart := take_perm htotal h₀ (harranged n) fun x hx => hties x hx n
    have hend := take_perm htotal (harranged n) h₀ fun x hx => hties x hx (n + 1)
    rw [pagesOf_succ]
    calc (pagesOf limit n arranged ++ pageAt limit (n * limit) (arranged n)).Perm
          ((arranged n).take (n * limit) ++ pageAt limit (n * limit) (arranged n)) :=
            (ih.trans hstart).append_right _
      _ = (arranged n).take ((n + 1) * limit) := pageAt_append limit n (arranged n)
      _ |>.Perm (l₀.take ((n + 1) * limit)) := hend

include htotal in
/-- Every element is on one page, once. -/
theorem pagesOf_perm (h₀ : Arranges before l l₀) (hties : TiesOnOnePage before limit l)
    {arranged : Nat → List α} (harranged : ∀ k, Arranges before l (arranged k)) {n : Nat}
    (hn : l.length ≤ n * limit) : (pagesOf limit n arranged).Perm l := by
  have htake := pagesOf_perm_take htotal h₀ hties harranged n
  rw [List.take_of_length_le (h₀.perm.length_eq ▸ hn)] at htake
  exact htake.trans h₀.perm

/-! ## Ties that a page splits -/

include htrans in
/-- A page that ends among ties ends between two elements that may change places. -/
theorem split_of_ties (h₀ : Arranges before l l₀) (hties : ¬ TiesOnOnePage before limit l) :
    ∃ k a u v b, l₀ = a ++ u :: v :: b ∧ before v u = true ∧ a.length + 1 = k * limit := by
  unfold TiesOnOnePage at hties
  push Not at hties
  obtain ⟨x, hx, k, hbefore, hupTo⟩ := hties
  rw [← countBefore_perm h₀.perm] at hbefore
  rw [← countUpTo_perm h₀.perm] at hupTo
  have hlength : k * limit < l₀.length := Nat.lt_of_lt_of_le hupTo List.countP_le_length
  obtain ⟨p, hp⟩ : ∃ p, k * limit = p + 1 := ⟨k * limit - 1, by omega⟩
  have hu : p < l₀.length := by omega
  have hv : p + 1 < l₀.length := by omega
  have hl : l₀ = l₀.take p ++ l₀[p] :: l₀[p + 1] :: l₀.drop (p + 2) := by
    rw [List.getElem_cons_drop, List.getElem_cons_drop, List.take_append_drop]
  have hsorted := h₀.sorted
  rw [hl] at hsorted hbefore hupTo
  have hlengthTake : (l₀.take p).length = p := by
    rw [List.length_take]
    omega
  refine ⟨k, _, _, _, _, hl, ?_, by rw [hlengthTake, hp]⟩
  generalize l₀.take p = a, l₀[p] = u, l₀[p + 1] = v, l₀.drop (p + 2) = b at *
  obtain ⟨-, hrest, hacross⟩ := List.pairwise_append.mp hsorted
  obtain ⟨hfromU, hrest⟩ := List.pairwise_cons.mp hrest
  obtain ⟨hfromV, -⟩ := List.pairwise_cons.mp hrest
  -- an element that is not after `u` leaves all up to `u` strictly before it
  have hxu : before x u = true := by
    by_contra hnot
    have hstrict : (a ++ [u]).countP (fun y => !before x y) = (a ++ [u]).length := by
      refine List.countP_eq_length.mpr fun y hy => ?_
      rw [Bool.not_eq_true']
      rcases List.mem_append.mp hy with ha | hyu
      · by_contra hxy
        exact hnot (htrans _ _ _ (Bool.not_eq_false _ ▸ hxy) (hacross y ha u (List.mem_cons_self ..)))
      · obtain rfl := List.mem_singleton.mp hyu
        exact Bool.eq_false_iff.mpr hnot
    have hsplit : a ++ u :: v :: b = (a ++ [u]) ++ v :: b := by simp
    rw [countBefore, hsplit, List.countP_append, hstrict, List.length_append, List.length_singleton] at hbefore
    omega
  have hvx : before v x = true := by
    by_contra hnot
    have hnone : (v :: b).countP (fun y => before y x) = 0 := by
      refine List.countP_eq_zero.mpr fun y hy hyx => ?_
      rcases List.mem_cons.mp hy with rfl | hb
      · exact hnot hyx
      · exact hnot (htrans _ _ _ (hfromV y hb) hyx)
    have hsplit : a ++ u :: v :: b = (a ++ [u]) ++ v :: b := by simp
    have hle := List.countP_le_length (p := fun y => before y x) (l := a ++ [u])
    rw [countUpTo, hsplit, List.countP_append, hnone] at hupTo
    rw [List.length_append, List.length_singleton] at hle
    omega
  exact htrans _ _ _ hvx hxu

theorem mem_pageAt {offset : Nat} {a b : List α} {x : α} (hfrom : offset ≤ a.length)
    (hto : a.length < offset + limit) : x ∈ pageAt limit offset (a ++ x :: b) := by
  have hget : (pageAt limit offset (a ++ x :: b))[a.length - offset]? = some x := by
    rw [pageAt, List.getElem?_take_of_lt (by omega), List.getElem?_drop, Nat.add_sub_cancel' hfrom,
      List.getElem?_append_right (Nat.le_refl _), Nat.sub_self, List.getElem?_cons_zero]
  exact List.mem_of_getElem? hget

theorem Arranges.swap {a b : List α} {u v : α} (h : Arranges before l (a ++ u :: v :: b))
    (hvu : before v u = true) : Arranges before l (a ++ v :: u :: b) := by
  obtain ⟨ha, hrest, hacross⟩ := List.pairwise_append.mp h.sorted
  obtain ⟨hfromU, hrest⟩ := List.pairwise_cons.mp hrest
  obtain ⟨hfromV, hb⟩ := List.pairwise_cons.mp hrest
  constructor
  · exact ((List.Perm.swap u v b).append_left a).trans h.perm
  · refine List.pairwise_append.mpr ⟨ha, ?_, fun x hx y hy => hacross x hx y ?_⟩
    · refine List.pairwise_cons.mpr ⟨fun y hy => ?_, ?_⟩
      · rcases List.mem_cons.mp hy with rfl | hy
        · exact hvu
        · exact hfromV y hy
      · exact List.pairwise_cons.mpr ⟨fun y hy => hfromU y (List.mem_cons_of_mem _ hy), hb⟩
    · exact (List.Perm.swap u v b).mem_iff.mp hy

include htrans in
/-- Where a page ends among ties, some arrangements put an element on two pages. -/
theorem tiesOnOnePage_of_nodup (h₀ : Arranges before l l₀) {n : Nat} (hn : l.length ≤ n * limit)
    (hnodup : ∀ arranged : Nat → List α, (∀ k, Arranges before l (arranged k)) →
      (pagesOf limit n arranged).Nodup) : TiesOnOnePage before limit l := by
  by_contra hties
  obtain ⟨k, a, u, v, b, rfl, hvu, hk⟩ := split_of_ties htrans h₀ hties
  cases k with
  | zero => omega
  | succ k =>
    have hsucc : (k + 1) * limit = k * limit + limit := Nat.succ_mul k limit
    have hlimit : 0 < limit := by
      refine Nat.pos_of_ne_zero ?_
      rintro rfl
      omega
    have hlength : a.length + 2 ≤ n * limit := by
      have := h₀.perm.length_eq
      simp only [List.length_append, List.length_cons] at this
      omega
    have hlast : k + 1 < n := by
      by_contra hge
      have := Nat.mul_le_mul_right limit (Nat.le_of_not_lt hge)
      omega
    let arranged := fun i => if i = k then a ++ v :: u :: b else a ++ u :: v :: b
    have harranged : ∀ i, Arranges before l (arranged i) := by
      intro i
      by_cases hi : i = k
      · simp only [arranged, if_pos hi]
        exact h₀.swap hvu
      · simp only [arranged, if_neg hi]
        exact h₀
    have hfirst : v ∈ pageAt limit (k * limit) (arranged k) := by
      simp only [arranged, if_pos]
      exact mem_pageAt (by omega) (by omega)
    have hsecond : v ∈ pageAt limit ((k + 1) * limit) (arranged (k + 1)) := by
      have happend : a ++ u :: v :: b = (a ++ [u]) ++ v :: b := by simp
      have hlengthU : (a ++ [u]).length = a.length + 1 := by simp
      simp only [arranged, if_neg (Nat.succ_ne_self k), happend]
      exact mem_pageAt (by omega) (by omega)
    have hpages := (List.nodup_flatMap.mp (hnodup arranged harranged)).2
    have hdisjoint := List.pairwise_iff_getElem.mp hpages k (k + 1) (by rw [List.length_range]; omega)
      (by rw [List.length_range]; exact hlast) (Nat.lt_succ_self k)
    rw [List.getElem_range, List.getElem_range] at hdisjoint
    exact hdisjoint hfirst hsecond

include htrans in
/-- An order that leaves nothing tied puts every element on one page. -/
theorem tiesOnOnePage_of_antisymm (h₀ : Arranges before l l₀) (hl : l.Nodup)
    (hantisymm : ∀ x ∈ l, ∀ y ∈ l, before x y = true → before y x = true → x = y) :
    TiesOnOnePage before limit l := by
  by_contra hties
  obtain ⟨k, a, u, v, b, rfl, hvu, -⟩ := split_of_ties htrans h₀ hties
  have hmem : ∀ x ∈ u :: v :: b, x ∈ l := fun x hx => h₀.perm.mem_iff.mp (List.mem_append_right a hx)
  have huv : before u v = true :=
    (List.pairwise_cons.mp (List.pairwise_append.mp h₀.sorted).2.1).1 v (List.mem_cons_self ..)
  have heq : u = v := hantisymm u (hmem u (by simp)) v (hmem v (by simp)) huv hvu
  have hnodup := (List.nodup_append.mp (h₀.perm.nodup_iff.mpr hl)).2.1
  exact (List.nodup_cons.mp hnodup).1 (heq ▸ List.mem_cons_self ..)

end Order

end Relational
