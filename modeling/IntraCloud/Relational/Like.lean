import Mathlib.Data.List.Infix

/-!
# `LIKE` patterns

The pattern language of `LIKE`, and of `ILIKE`, which compares in lower case. Between percent signs, a search string
that is plain finds what contains it. One that is not also finds its shortest text, which does not contain it.
-/

namespace Relational.Like

/-- What a pattern asks for, one after another. -/
inductive Item where
  | many
  | one
  | char (c : Char)

/-- `%` stands for any characters, `_` for one, and a backslash takes the next character as it is. A pattern
does not end with a backslash that takes nothing. -/
def items : List Char → Option (List Item)
  | [] => some []
  | ['\\'] => none
  | '\\' :: c :: s => (items s).map (Item.char c :: ·)
  | '%' :: s => (items s).map (Item.many :: ·)
  | '_' :: s => (items s).map (Item.one :: ·)
  | c :: s => (items s).map (Item.char c :: ·)

/-- The text is what the items ask for. -/
def accepts : List Item → List Char → Bool
  | [], text => text.isEmpty
  | .many :: items, text => text.tails.any fun rest => accepts items rest
  | .one :: items, text =>
    match text with
    | [] => false
    | _ :: rest => accepts items rest
  | .char c :: items, text =>
    match text with
    | [] => false
    | x :: rest => x == c && accepts items rest

/-- `text LIKE pattern`. -/
def likes (pattern text : List Char) : Option Bool := (items pattern).map fun items => accepts items text

/-- `text ILIKE pattern`. -/
def ilikes (lower : Char → Char) (pattern text : List Char) : Option Bool :=
  likes (pattern.map lower) (text.map lower)

/-- The characters that stand for something else. -/
def wildcards : List Char := ['%', '_', '\\']

/-- Every character stands for itself. -/
def Plain (s : List Char) : Prop := ∀ c ∈ s, c ∉ wildcards

/-- Lower case keeps the wildcards, and makes none. -/
def Folds (lower : Char → Char) : Prop := ∀ w ∈ wildcards, ∀ c, lower c = w ↔ c = w

/-- A shortest text that `%s%` asks for. -/
def shortest : List Char → List Char
  | [] => []
  | ['\\'] => ['%']
  | '\\' :: c :: s => c :: shortest s
  | '%' :: s => shortest s
  | '_' :: s => 'x' :: shortest s
  | c :: s => c :: shortest s

variable {lower : Char → Char} {s : List Char}

/-! ## Items -/

theorem accepts_many {is : List Item} {text : List Char} :
    accepts (.many :: is) text = true ↔ ∃ rest, rest <:+ text ∧ accepts is rest = true := by
  simp only [accepts, List.any_eq_true, List.mem_tails]

theorem accepts_chars {is : List Item} (s : List Char) {text : List Char} :
    accepts (s.map Item.char ++ is) text = true ↔ ∃ rest, text = s ++ rest ∧ accepts is rest = true := by
  induction s generalizing text with
  | nil => simp
  | cons c s ih =>
    cases text with
    | nil => simp [accepts]
    | cons x text =>
      rw [List.map_cons, List.cons_append, accepts, Bool.and_eq_true, beq_iff_eq, ih]
      constructor
      · rintro ⟨rfl, rest, rfl, haccepts⟩
        exact ⟨rest, rfl, haccepts⟩
      · rintro ⟨rest, heq, haccepts⟩
        obtain ⟨rfl, rfl⟩ := List.cons.inj heq
        exact ⟨rfl, rest, rfl, haccepts⟩

theorem items_char {c : Char} (hc : c ∉ wildcards) (s : List Char) :
    items (c :: s) = (items s).map (Item.char c :: ·) := by
  rw [items]
  all_goals
    intros
    subst_vars
    exact hc (by decide)

theorem items_plain {s : List Char} (hs : Plain s) (p : List Char) :
    items (s ++ p) = (items p).map (s.map Item.char ++ ·) := by
  induction s with
  | nil => simp
  | cons c s ih =>
    have hc := hs c (List.mem_cons_self ..)
    have htail := ih fun x hx => hs x (List.mem_cons_of_mem _ hx)
    rw [List.cons_append, items_char hc, htail, Option.map_map]
    rfl

theorem Plain.map (hlower : Folds lower) (hs : Plain s) : Plain (s.map lower) := by
  intro x hx hwildcard
  obtain ⟨c, hc, rfl⟩ := List.mem_map.mp hx
  have hkept := (hlower _ hwildcard c).mp rfl
  exact hs c hc (hkept ▸ hwildcard)

/-- A plain search string finds what contains it. -/
theorem ilikes_plain (hlower : Folds lower) (hs : Plain s) (text : List Char) :
    ilikes lower ('%' :: s ++ ['%']) text = some (decide (s.map lower <:+: text.map lower)) := by
  have hpercent : lower '%' = '%' := (hlower '%' (by decide) '%').mpr rfl
  have hitems : items ('%' :: (s.map lower ++ ['%'])) =
      some (.many :: ((s.map lower).map Item.char ++ [.many])) := by
    rw [items, items_plain (hs.map hlower)]
    rfl
  unfold ilikes likes
  rw [List.cons_append, List.map_cons, List.map_append, List.map_singleton, hpercent, hitems]
  refine congrArg some ?_
  rw [Bool.eq_iff_iff, decide_eq_true_iff, accepts_many]
  constructor
  · rintro ⟨rest, ⟨before, hrest⟩, haccepts⟩
    obtain ⟨after, rfl, -⟩ := (accepts_chars _).mp haccepts
    exact ⟨before, after, by rw [List.append_assoc, hrest]⟩
  · rintro ⟨before, after, htext⟩
    refine ⟨s.map lower ++ after, ⟨before, by rw [← List.append_assoc, htext]⟩, ?_⟩
    refine (accepts_chars _).mpr ⟨after, rfl, accepts_many.mpr ⟨[], List.nil_suffix, rfl⟩⟩

/-! ## The shortest text -/

/-- The last case of `shortest`. -/
theorem not_mem_wildcards {c : Char} {s : List Char} (hlast : c = '\\' → s = [] → False)
    (hescape : ∀ x t, c = '\\' → s = x :: t → False) (hmany : c = '%' → False) (hone : c = '_' → False) :
    c ∉ wildcards := by
  intro hc
  simp only [wildcards, List.mem_cons, List.not_mem_nil, or_false] at hc
  rcases hc with hc | hc | hc
  · exact hmany hc
  · exact hone hc
  · cases s with
    | nil => exact hlast hc rfl
    | cons x t => exact hescape x t hc rfl

theorem shortest_length_le (s : List Char) : (shortest s).length ≤ s.length := by
  induction s using shortest.induct with
  | case1 => exact Nat.le_refl _
  | case2 => exact Nat.le_refl _
  | case3 c s ih =>
    simp only [shortest, List.length_cons]
    omega
  | case4 s ih =>
    simp only [shortest, List.length_cons]
    omega
  | case5 s ih =>
    simp only [shortest, List.length_cons]
    omega
  | case6 c s h₁ h₂ h₃ h₄ ih =>
    simp only [shortest, List.length_cons]
    omega

theorem mem_shortest {x : Char} (h : x ∈ shortest s) : x ∈ s ∨ x = 'x' ∨ x = '%' := by
  induction s using shortest.induct with
  | case1 => cases h
  | case2 => exact Or.inr (Or.inr (List.mem_singleton.mp h))
  | case3 c s ih =>
    rw [shortest] at h
    rcases List.mem_cons.mp h with rfl | hmem
    · exact Or.inl (by simp)
    · exact (ih hmem).imp_left fun hs => List.mem_cons_of_mem _ (List.mem_cons_of_mem _ hs)
  | case4 s ih =>
    rw [shortest] at h
    exact (ih h).imp_left (List.mem_cons_of_mem _)
  | case5 s ih =>
    rw [shortest] at h
    rcases List.mem_cons.mp h with rfl | hmem
    · exact Or.inr (Or.inl rfl)
    · exact (ih hmem).imp_left (List.mem_cons_of_mem _)
  | case6 c s h₁ h₂ h₃ h₄ ih =>
    rw [shortest] at h
    · rcases List.mem_cons.mp h with rfl | hmem
      · exact Or.inl (List.mem_cons_self ..)
      · exact (ih hmem).imp_left (List.mem_cons_of_mem _)
    all_goals assumption

/-- Only a plain search string is as long as its shortest text, and the same in lower case. -/
theorem plain_of_map_eq (hlower : Folds lower) (h : (shortest s).map lower = s.map lower) : Plain s := by
  have hlength : (shortest s).length = s.length := by
    rw [← List.length_map (f := lower), h, List.length_map]
  induction s using shortest.induct with
  | case1 => exact fun c hc => absurd hc List.not_mem_nil
  | case2 =>
    have hpercent := (List.cons.inj h).1
    rw [(hlower '%' (by decide) '%').mpr rfl] at hpercent
    exact absurd ((hlower '%' (by decide) '\\').mp hpercent.symm) (by decide)
  | case3 c s ih =>
    have hle := shortest_length_le s
    simp only [shortest, List.length_cons] at hlength
    omega
  | case4 s ih =>
    have hle := shortest_length_le s
    simp only [shortest, List.length_cons] at hlength
    omega
  | case5 s ih =>
    have hone := (List.cons.inj h).1
    rw [(hlower '_' (by decide) '_').mpr rfl] at hone
    exact absurd ((hlower '_' (by decide) 'x').mp hone) (by decide)
  | case6 c s h₁ h₂ h₃ h₄ ih =>
    rw [shortest] at h hlength
    · intro x hx
      rcases List.mem_cons.mp hx with rfl | hmem
      · exact not_mem_wildcards h₁ h₂ h₃ h₄
      · exact ih (List.cons.inj h).2 (Nat.succ.inj hlength) x hmem
    all_goals assumption

/-- A search string that is not plain finds its shortest text, which does not contain it. -/
theorem not_infix_shortest (hlower : Folds lower) (hs : ¬ Plain s) :
    ¬ s.map lower <:+: (shortest s).map lower := by
  intro hinside
  have hle := hinside.length_le
  rw [List.length_map, List.length_map] at hle
  have hlength : (s.map lower).length = ((shortest s).map lower).length := by
    rw [List.length_map, List.length_map]
    exact Nat.le_antisymm hle (shortest_length_le s)
  exact hs (plain_of_map_eq hlower (hinside.eq_of_length hlength).symm)

/-- The pattern of a search string finds its shortest text, and no shorter one. -/
theorem items_shortest (hlower : Folds lower) (s : List Char) :
    ∃ is, items (s.map lower ++ ['%']) = some is ∧ accepts is ((shortest s).map lower) = true ∧
      ∀ text, accepts is text = true → (shortest s).length ≤ text.length := by
  have hpercent : lower '%' = '%' := (hlower '%' (by decide) '%').mpr rfl
  have hone : lower '_' = '_' := (hlower '_' (by decide) '_').mpr rfl
  have hescape : lower '\\' = '\\' := (hlower '\\' (by decide) '\\').mpr rfl
  have hchar : ∀ {c : Char} {is : List Item} {t : List Char},
      accepts is (t.map lower) = true → (∀ text, accepts is text = true → t.length ≤ text.length) →
      accepts (.char (lower c) :: is) ((c :: t).map lower) = true ∧
        ∀ text, accepts (.char (lower c) :: is) text = true → (c :: t).length ≤ text.length := by
    intro c is t haccepts hshort
    refine ⟨?_, fun text htext => ?_⟩
    · rw [List.map_cons, accepts, haccepts, Bool.and_true, beq_self_eq_true]
    · cases text with
      | nil => cases htext
      | cons x text =>
        rw [accepts, Bool.and_eq_true] at htext
        exact Nat.succ_le_succ (hshort text htext.2)
  induction s using shortest.induct with
  | case1 =>
    refine ⟨[.many], rfl, rfl, fun text _ => Nat.zero_le _⟩
  | case2 =>
    refine ⟨[.char '%'], ?_, ?_, fun text htext => ?_⟩
    · rw [List.map_singleton, hescape]
      rfl
    · rw [shortest, List.map_singleton, hpercent]
      rfl
    · cases text with
      | nil => cases htext
      | cons x text => exact Nat.succ_le_succ (Nat.zero_le _)
  | case3 c s ih =>
    obtain ⟨is, his, haccepts, hshort⟩ := ih
    refine ⟨.char (lower c) :: is, ?_, ?_⟩
    · rw [List.map_cons, List.map_cons, hescape, List.cons_append, List.cons_append, items, his]
      rfl
    · rw [shortest]
      exact hchar haccepts hshort
  | case4 s ih =>
    obtain ⟨is, his, haccepts, hshort⟩ := ih
    refine ⟨.many :: is, ?_, ?_, fun text htext => ?_⟩
    · rw [List.map_cons, hpercent, List.cons_append, items, his]
      rfl
    · rw [shortest]
      exact accepts_many.mpr ⟨_, List.suffix_refl _, haccepts⟩
    · obtain ⟨rest, hrest, htext⟩ := accepts_many.mp htext
      rw [shortest]
      exact (hshort rest htext).trans hrest.length_le
  | case5 s ih =>
    obtain ⟨is, his, haccepts, hshort⟩ := ih
    refine ⟨.one :: is, ?_, ?_, fun text htext => ?_⟩
    · rw [List.map_cons, hone, List.cons_append, items, his]
      rfl
    · rw [shortest, List.map_cons, accepts]
      exact haccepts
    · cases text with
      | nil => cases htext
      | cons x text =>
        rw [accepts] at htext
        rw [shortest]
        exact Nat.succ_le_succ (hshort text htext)
  | case6 c s h₁ h₂ h₃ h₄ ih =>
    obtain ⟨is, his, haccepts, hshort⟩ := ih
    have hc : lower c ∉ wildcards := by
      intro hwildcard
      have hkept := (hlower _ hwildcard c).mp rfl
      exact not_mem_wildcards h₁ h₂ h₃ h₄ (hkept ▸ hwildcard)
    refine ⟨.char (lower c) :: is, ?_, ?_⟩
    · rw [List.map_cons, List.cons_append, items_char hc, his]
      rfl
    · rw [shortest]
      · exact hchar haccepts hshort
      all_goals assumption

/-- A search string finds its shortest text, and no shorter one. -/
theorem ilikes_shortest (hlower : Folds lower) (s : List Char) :
    ilikes lower ('%' :: s ++ ['%']) (shortest s) = some true ∧
      ∀ text, ilikes lower ('%' :: s ++ ['%']) text = some true → (shortest s).length ≤ text.length := by
  obtain ⟨is, his, haccepts, hshort⟩ := items_shortest hlower s
  have hpercent : lower '%' = '%' := (hlower '%' (by decide) '%').mpr rfl
  have hitems : items (('%' :: s ++ ['%']).map lower) = some (.many :: is) := by
    rw [List.cons_append, List.map_cons, List.map_append, List.map_singleton, hpercent, items, his]
    rfl
  unfold ilikes likes
  rw [hitems]
  constructor
  · exact congrArg some (accepts_many.mpr ⟨_, List.suffix_refl _, haccepts⟩)
  · intro text htext
    obtain ⟨rest, hrest, htext⟩ := accepts_many.mp (Option.some.inj htext)
    rw [← text.length_map (f := lower)]
    exact (hshort rest htext).trans hrest.length_le

/-- The pattern of a search string never ends with a backslash that takes nothing. -/
theorem ilikes_isSome (hlower : Folds lower) (s text : List Char) :
    (ilikes lower ('%' :: s ++ ['%']) text).isSome = true := by
  have hshortest := congrArg Option.isSome (ilikes_shortest hlower s).1
  unfold ilikes likes at *
  rwa [Option.isSome_map] at *

end Relational.Like
