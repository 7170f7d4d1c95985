import Mathlib.Data.List.Basic
import Mathlib.Data.List.Induction
import Mathlib.Data.List.Nodup
import Mathlib.Data.List.Permutation
import Mathlib.Data.List.Sort
import Mathlib.Tactic.ByContra

/-!
# Groups in the order of their first members

What a dictionary of lists collects and what a counter counts: the keys stand in the order in which they first
occur. Equality of keys is an argument. The keys are those of a set, whatever is collected under them.
-/

namespace Relational

variable {κ β γ : Type}

/-- `groups.setdefault(key, []).append(value)`. -/
def collect (same : κ → κ → Bool) : List (κ × List β) → κ × β → List (κ × List β)
  | [], (key, value) => [(key, [value])]
  | (key', values) :: groups, (key, value) =>
    if same key' key then (key', values ++ [value]) :: groups
    else (key', values) :: collect same groups (key, value)

/-- The values by their keys. -/
def groups (same : κ → κ → Bool) (pairs : List (κ × β)) : List (κ × List β) := pairs.foldl (collect same) []

/-- The different values. -/
def distinct (same : κ → κ → Bool) (values : List κ) : List κ :=
  (groups same (values.map fun v => (v, ()))).map (·.1)

/-- `Counter(values)`. -/
def counter (same : κ → κ → Bool) (values : List κ) : List (κ × Nat) :=
  (groups same (values.map fun v => (v, ()))).map fun g => (g.1, g.2.length)

/-- `counts.most_common(n)`: of values that are equally common, the first one comes first. -/
def mostCommon (n : Nat) (counts : List (κ × Nat)) : List (κ × Nat) :=
  (counts.mergeSort fun a b => decide (b.2 ≤ a.2)).take n

/-- The keys after one more value. -/
def insertKey (same : κ → κ → Bool) : List κ → κ → List κ
  | [], key => [key]
  | key' :: keys, key => if same key' key then key' :: keys else key' :: insertKey same keys key

/-- Items that are equally common are the same, as far as the list goes. -/
def NoTies (n : Nat) (counts : List (κ × Nat)) : Prop :=
  ∀ a ∈ counts, ∀ b ∈ counts, a.2 = b.2 → a ≠ b → n ≤ counts.countP fun c => decide (a.2 < c.2)

/-! ## Keys -/

theorem keys_collect (same : κ → κ → Bool) (gs : List (κ × List β)) (pair : κ × β) :
    (collect same gs pair).map (·.1) = insertKey same (gs.map (·.1)) pair.1 := by
  induction gs with
  | nil => rfl
  | cons g gs ih =>
    simp only [collect, List.map_cons, insertKey]
    split
    · rfl
    · rw [List.map_cons, ih]

theorem keys_foldl_collect (same : κ → κ → Bool) (pairs : List (κ × β)) (gs : List (κ × List β)) :
    (pairs.foldl (collect same) gs).map (·.1) = (pairs.map (·.1)).foldl (insertKey same) (gs.map (·.1)) := by
  induction pairs generalizing gs with
  | nil => rfl
  | cons pair pairs ih =>
    rw [List.foldl_cons, List.map_cons, List.foldl_cons, ih, keys_collect]

theorem keys_groups (same : κ → κ → Bool) (pairs : List (κ × β)) :
    (groups same pairs).map (·.1) = (pairs.map (·.1)).foldl (insertKey same) [] :=
  keys_foldl_collect same pairs []

theorem distinct_eq (same : κ → κ → Bool) (values : List κ) :
    distinct same values = values.foldl (insertKey same) [] := by
  rw [distinct, keys_groups, List.map_map]
  exact congrArg (List.foldl (insertKey same) []) (List.map_id values)

/-- The keys of the groups are the different keys. -/
theorem keys_groups_eq_distinct (same : κ → κ → Bool) (pairs : List (κ × β)) :
    (groups same pairs).map (·.1) = distinct same (pairs.map (·.1)) := by
  rw [distinct_eq, keys_groups]

theorem mem_insertKey {same : κ → κ → Bool} {keys : List κ} {key k : κ} (h : k ∈ insertKey same keys key) :
    k ∈ keys ∨ k = key := by
  induction keys with
  | nil => exact .inr (List.mem_singleton.mp h)
  | cons key' keys ih =>
    simp only [insertKey] at h
    split at h
    · exact .inl h
    · rcases List.mem_cons.mp h with rfl | h
      · exact .inl (List.mem_cons_self ..)
      · exact (ih h).imp (List.mem_cons_of_mem _) id

theorem mem_insertKey_of_mem {same : κ → κ → Bool} {keys : List κ} {key k : κ} (h : k ∈ keys) :
    k ∈ insertKey same keys key := by
  induction keys with
  | nil => cases h
  | cons key' keys ih =>
    simp only [insertKey]
    split
    · exact h
    · rcases List.mem_cons.mp h with rfl | h
      · exact List.mem_cons_self ..
      · exact List.mem_cons_of_mem _ (ih h)

theorem exists_same_insertKey {same : κ → κ → Bool} {key : κ} (hkey : same key key = true) (keys : List κ) :
    ∃ k ∈ insertKey same keys key, same k key = true := by
  induction keys with
  | nil => exact ⟨key, List.mem_singleton_self key, hkey⟩
  | cons key' keys ih =>
    simp only [insertKey]
    split
    next h => exact ⟨key', List.mem_cons_self .., h⟩
    next =>
      obtain ⟨k, hk, hsame⟩ := ih
      exact ⟨k, List.mem_cons_of_mem _ hk, hsame⟩

/-- The different values are values. -/
theorem mem_of_mem_distinct {same : κ → κ → Bool} {values : List κ} {k : κ} (h : k ∈ distinct same values) :
    k ∈ values := by
  suffices hkeys : ∀ keys : List κ, k ∈ values.foldl (insertKey same) keys → k ∈ keys ∨ k ∈ values by
    rw [distinct_eq] at h
    exact (hkeys [] h).resolve_left List.not_mem_nil
  clear h
  induction values with
  | nil => exact fun _ => .inl
  | cons value values ih =>
    intro keys h
    rcases ih _ h with h | h
    · rcases mem_insertKey h with h | rfl
      · exact .inl h
      · exact .inr (List.mem_cons_self ..)
    · exact .inr (List.mem_cons_of_mem _ h)

/-- Every value that is the same as itself is the same as one of the different ones. -/
theorem exists_same_distinct {same : κ → κ → Bool} {values : List κ} (hsame : ∀ v ∈ values, same v v = true) {v : κ}
    (hv : v ∈ values) : ∃ k ∈ distinct same values, same k v = true := by
  suffices hkeys : ∀ keys : List κ, (v ∈ values ∨ ∃ k ∈ keys, same k v = true) →
      ∃ k ∈ values.foldl (insertKey same) keys, same k v = true by
    rw [distinct_eq]
    exact hkeys [] (.inl hv)
  clear hv
  induction values with
  | nil =>
    intro keys h
    exact h.resolve_left List.not_mem_nil
  | cons value values ih =>
    intro keys h
    refine ih (fun w hw => hsame w (List.mem_cons_of_mem _ hw)) _ ?_
    rcases h with h | ⟨k, hk, hkv⟩
    · rcases List.mem_cons.mp h with rfl | h
      · exact .inr (exists_same_insertKey (hsame _ (List.mem_cons_self ..)) keys)
      · exact .inl h
    · exact .inr ⟨k, mem_insertKey_of_mem hk, hkv⟩

/-! ## The keys are all there, once -/

section Equality

variable {same : κ → κ → Bool} (hsame : ∀ a b, same a b = true ↔ a = b)

include hsame

theorem nodup_insertKey {keys : List κ} (h : keys.Nodup) (key : κ) : (insertKey same keys key).Nodup := by
  induction keys with
  | nil => exact List.nodup_singleton key
  | cons k keys ih =>
    obtain ⟨hk, hkeys⟩ := List.nodup_cons.mp h
    rw [insertKey]
    by_cases hkey : same k key = true
    · rw [if_pos hkey]
      exact h
    · rw [if_neg hkey]
      refine List.nodup_cons.mpr ⟨fun hmem => ?_, ih hkeys⟩
      obtain hmem | rfl := mem_insertKey hmem
      · exact hk hmem
      · exact hkey ((hsame k k).mpr rfl)

theorem nodup_distinct (values : List κ) : (distinct same values).Nodup := by
  rw [distinct_eq]
  suffices h : ∀ keys : List κ, keys.Nodup → (values.foldl (insertKey same) keys).Nodup from h [] List.nodup_nil
  induction values with
  | nil => exact fun _ h => h
  | cons v values ih => exact fun keys h => ih _ (nodup_insertKey hsame h v)

theorem mem_distinct {values : List κ} {k : κ} : k ∈ distinct same values ↔ k ∈ values := by
  constructor
  · exact mem_of_mem_distinct
  · intro hk
    obtain ⟨k', hk', hkk'⟩ := exists_same_distinct (fun v _ => (hsame v v).mpr rfl) hk
    rw [← (hsame k' k).mp hkk']
    exact hk'

/-- In another order, the different values are the same. -/
theorem distinct_perm {values values' : List κ} (h : values.Perm values') :
    (distinct same values).Perm (distinct same values') := by
  refine (List.perm_ext_iff_of_nodup (nodup_distinct hsame values) (nodup_distinct hsame values')).mpr fun k => ?_
  rw [mem_distinct hsame, mem_distinct hsame]
  exact h.mem_iff

end Equality

theorem distinct_concat (same : κ → κ → Bool) (values : List κ) (v : κ) :
    distinct same (values ++ [v]) = insertKey same (distinct same values) v := by
  rw [distinct_eq, distinct_eq, List.foldl_append]
  rfl

/-- The first value is the first key. -/
theorem distinct_cons (same : κ → κ → Bool) (v : κ) (values : List κ) :
    ∃ keys, distinct same (v :: values) = v :: keys := by
  rw [distinct_eq, List.foldl_cons]
  suffices h : ∀ keys : List κ, ∃ keys', values.foldl (insertKey same) (v :: keys) = v :: keys' from h []
  induction values with
  | nil => exact fun keys => ⟨keys, rfl⟩
  | cons w values ih =>
    intro keys
    rw [List.foldl_cons, insertKey]
    split
    · exact ih keys
    · exact ih _

/-! ## The groups by their keys -/

section Equality

variable {same : κ → κ → Bool} (hsame : ∀ a b, same a b = true ↔ a = b)

include hsame

/-- One more value is added to the group of its key, which is empty if the key is new. -/
theorem collect_map {keys : List κ} (hkeys : keys.Nodup) {f : κ → List β} {key : κ}
    (hnew : key ∉ keys → f key = []) (value : β) :
    collect same (keys.map fun k => (k, f k)) (key, value) =
      (insertKey same keys key).map fun k => (k, if same k key then f k ++ [value] else f k) := by
  induction keys with
  | nil =>
    have hself : same key key = true := (hsame key key).mpr rfl
    rw [insertKey, List.map_nil, collect, List.map_singleton, if_pos hself, hnew List.not_mem_nil, List.nil_append]
  | cons k keys ih =>
    obtain ⟨hk, hkeys⟩ := List.nodup_cons.mp hkeys
    rw [List.map_cons, collect, insertKey]
    by_cases hkey : same k key = true
    · have hrest : keys.map (fun k => (k, if same k key then f k ++ [value] else f k)) =
          keys.map fun k => (k, f k) := by
        refine List.map_congr_left fun l hl => ?_
        have hl : ¬ same l key = true := by
          intro hlkey
          rw [(hsame l key).mp hlkey, ← (hsame k key).mp hkey] at hl
          exact hk hl
        rw [if_neg hl]
      rw [if_pos hkey, if_pos hkey, List.map_cons, if_pos hkey, hrest]
    · rw [if_neg hkey, if_neg hkey, List.map_cons, if_neg hkey, ih hkeys]
      intro hmem
      refine hnew fun hcons => ?_
      obtain rfl | hcons := List.mem_cons.mp hcons
      · exact hkey ((hsame key key).mpr rfl)
      · exact hmem hcons

/-- Each key, with the values of the pairs that have it. -/
theorem groups_eq (pairs : List (κ × β)) : groups same pairs =
    (distinct same (pairs.map (·.1))).map fun k => (k, (pairs.filter fun p => same k p.1).map (·.2)) := by
  induction pairs using List.reverseRecOn with
  | nil => rfl
  | append_singleton pairs p ih =>
    have hgroups : groups same (pairs ++ [p]) = collect same (groups same pairs) p := by
      rw [groups, List.foldl_append]
      rfl
    have hnew : p.1 ∉ distinct same (pairs.map (·.1)) →
        (pairs.filter fun q => same p.1 q.1).map (·.2) = [] := by
      intro hp
      rw [List.map_eq_nil_iff, List.filter_eq_nil_iff]
      intro q hq hpq
      rw [(hsame p.1 q.1).mp hpq, mem_distinct hsame] at hp
      exact hp (List.mem_map_of_mem hq)
    rw [hgroups, ih, List.map_append, List.map_singleton, distinct_concat]
    refine (collect_map hsame (nodup_distinct hsame _) hnew p.2).trans (List.map_congr_left fun k _ => ?_)
    rw [List.filter_append, List.map_append]
    by_cases hk : same k p.1 = true
    · have hone : ([p].filter fun q => same k q.1) = [p] :=
        List.filter_eq_self.mpr (List.forall_mem_singleton.mpr hk)
      rw [if_pos hk, hone]
      rfl
    · have hnone : ([p].filter fun q => same k q.1) = [] :=
        List.filter_eq_nil_iff.mpr (List.forall_mem_singleton.mpr hk)
      rw [if_neg hk, hnone, List.map_nil, List.append_nil]

theorem counter_eq (values : List κ) :
    counter same values = (distinct same values).map fun k => (k, values.countP fun v => same k v) := by
  rw [counter, groups_eq hsame, List.map_map, List.map_map]
  have hvalues : values.map (Prod.fst ∘ fun v => (v, ())) = values := List.map_id values
  rw [hvalues]
  refine List.map_congr_left fun k _ => ?_
  simp [List.countP_eq_length_filter, List.filter_map, Function.comp_def]

theorem counter_perm {values values' : List κ} (h : values.Perm values') :
    (counter same values).Perm (counter same values') := by
  rw [counter_eq hsame, counter_eq hsame]
  have hcounts : (fun k => (k, values.countP fun v => same k v)) =
      fun k => (k, values'.countP fun v => same k v) := by
    funext k
    rw [h.countP_eq]
  rw [hcounts]
  exact (distinct_perm hsame h).map _

/-- The sizes of the groups are counts. -/
theorem sizes_groups (pairs : List (κ × β)) :
    (groups same pairs).map (fun g => (g.1, g.2.length)) = counter same (pairs.map (·.1)) := by
  rw [groups_eq hsame, counter_eq hsame, List.map_map]
  refine List.map_congr_left fun k _ => ?_
  simp [List.countP_eq_length_filter, List.filter_map, Function.comp_def]

theorem length_groups (pairs : List (κ × β)) :
    (groups same pairs).length = (distinct same (pairs.map (·.1))).length := by
  rw [groups_eq hsame, List.length_map]

theorem length_groups_perm {pairs pairs' : List (κ × β)} (h : pairs.Perm pairs') :
    (groups same pairs).length = (groups same pairs').length := by
  rw [length_groups hsame, length_groups hsame, (distinct_perm hsame (h.map _)).length_eq]

/-- The key of the first pair comes first, with its size. -/
theorem counter_cons (k : κ) (values : List κ) :
    ∃ sizes, counter same (k :: values) = (k, (k :: values).countP fun v => same k v) :: sizes := by
  obtain ⟨keys, hkeys⟩ := distinct_cons same k values
  rw [counter_eq hsame, hkeys]
  exact ⟨_, rfl⟩

/-- Each key comes first in some order. -/
theorem exists_counter_first {pairs : List (κ × β)} {c : κ × Nat} (hc : c ∈ counter same (pairs.map (·.1))) :
    ∃ pairs' : List (κ × β), pairs'.Perm pairs ∧ ∃ sizes, counter same (pairs'.map (·.1)) = c :: sizes := by
  rw [counter_eq hsame] at hc
  obtain ⟨k, hk, rfl⟩ := List.mem_map.mp hc
  obtain ⟨p, hp, rfl⟩ := List.mem_map.mp ((mem_distinct hsame).mp hk)
  obtain ⟨before, after, rfl⟩ := List.append_of_mem hp
  have hfirst : (p :: (before ++ after)).Perm (before ++ p :: after) := List.perm_middle.symm
  obtain ⟨sizes, hsizes⟩ := counter_cons hsame p.1 ((before ++ after).map Prod.fst)
  refine ⟨_, hfirst, sizes, ?_⟩
  rw [← (hfirst.map Prod.fst).countP_eq]
  exact hsizes

theorem nodup_keys_counter (values : List κ) : ((counter same values).map (·.1)).Nodup := by
  rw [counter_eq hsame, List.map_map]
  exact (List.map_id (distinct same values)).symm ▸ nodup_distinct hsame values

/-- No group is empty. -/
theorem ne_nil_of_mem_groups {pairs : List (κ × β)} {g : κ × List β} (hg : g ∈ groups same pairs) : g.2 ≠ [] := by
  rw [groups_eq hsame] at hg
  obtain ⟨k, hk, rfl⟩ := List.mem_map.mp hg
  obtain ⟨p, hp, hkey⟩ := List.mem_map.mp ((mem_distinct hsame).mp hk)
  have hmem : p.2 ∈ (pairs.filter fun p => same k p.1).map (·.2) :=
    List.mem_map_of_mem (List.mem_filter.mpr ⟨hp, (hsame k p.1).mpr hkey.symm⟩)
  exact List.ne_nil_of_mem hmem

/-- Two groups are two groups in every order, one or the other first. -/
theorem groups_pair {pairs pairs' : List (κ × β)} {a b : κ × List β} (hpairs : groups same pairs = [a, b])
    (h : pairs'.Perm pairs) : ∃ as bs, as.Perm a.2 ∧ bs.Perm b.2 ∧
      (groups same pairs' = [(a.1, as), (b.1, bs)] ∨ groups same pairs' = [(b.1, bs), (a.1, as)]) := by
  have hkeys : distinct same (pairs.map (·.1)) = [a.1, b.1] := by
    rw [← keys_groups_eq_distinct, hpairs]
    rfl
  have hvalues := groups_eq hsame pairs
  rw [hkeys, hpairs, List.map_cons, List.map_singleton, List.cons.injEq, List.cons.injEq] at hvalues
  have hperm : ∀ k, ((pairs'.filter fun p => same k p.1).map (·.2)).Perm
      ((pairs.filter fun p => same k p.1).map (·.2)) := fun k => (h.filter _).map _
  have ha : a.2 = (pairs.filter fun p => same a.1 p.1).map (·.2) := congrArg Prod.snd hvalues.1
  have hb : b.2 = (pairs.filter fun p => same b.1 p.1).map (·.2) := congrArg Prod.snd hvalues.2.1
  have horder := distinct_perm hsame (h.map (·.1))
  rw [hkeys] at horder
  refine ⟨_, _, ha ▸ hperm a.1, hb ▸ hperm b.1, ?_⟩
  rw [groups_eq hsame pairs']
  rcases List.perm_pair.mp horder with horder | horder
  · rw [horder]
    exact .inl rfl
  · rw [horder]
    exact .inr rfl

/-- And each of the two comes first in some order. -/
theorem exists_groups_second {pairs : List (κ × β)} {a b : κ × List β} (hpairs : groups same pairs = [a, b]) :
    ∃ pairs' as bs, pairs'.Perm pairs ∧ as.Perm a.2 ∧ bs.Perm b.2 ∧
      groups same pairs' = [(b.1, bs), (a.1, as)] := by
  have hkeys : distinct same (pairs.map (·.1)) = [a.1, b.1] := by
    rw [← keys_groups_eq_distinct, hpairs]
    rfl
  have hne : a.1 ≠ b.1 := by
    have hnodup := nodup_distinct hsame (pairs.map (·.1))
    rw [hkeys] at hnodup
    simpa using hnodup
  have hmem : b.1 ∈ pairs.map (·.1) := by
    rw [← mem_distinct hsame, hkeys]
    exact List.mem_cons_of_mem _ List.mem_cons_self
  obtain ⟨p, hp, hkey⟩ := List.mem_map.mp hmem
  obtain ⟨before, after, rfl⟩ := List.append_of_mem hp
  have hfirst : (p :: (before ++ after)).Perm (before ++ p :: after) := List.perm_middle.symm
  obtain ⟨as, bs, has, hbs, hgroups⟩ := groups_pair hsame hpairs hfirst
  refine ⟨_, as, bs, hfirst, has, hbs, hgroups.resolve_left fun hgroups => ?_⟩
  obtain ⟨keys, hcons⟩ : ∃ keys, distinct same ((p :: (before ++ after)).map (·.1)) = p.1 :: keys :=
    distinct_cons same p.1 ((before ++ after).map Prod.fst)
  have hhead := keys_groups_eq_distinct same (p :: (before ++ after))
  rw [hgroups, hcons, List.map_cons, List.cons.injEq] at hhead
  exact hne (hhead.1.trans hkey)

end Equality

/-! ## Stable sorting -/

section Sorting

variable {before : β → β → Bool} (htrans : ∀ a b c, before a b = true → before b c = true → before a c = true)
  (htotal : ∀ a b, (before a b || before b a) = true)

include htrans htotal

/-- The first item comes right after the items that go before it strictly. -/
theorem getElem?_mergeSort_cons (a : β) (items : List β) :
    ((a :: items).mergeSort before)[items.countP fun b => !before a b]? = some a := by
  obtain ⟨strict, rest, hsort, hsort', hstrict⟩ := List.mergeSort_cons htrans htotal a items
  have hsorted := List.pairwise_mergeSort htrans htotal (a :: items)
  rw [hsort, List.pairwise_append] at hsorted
  have hrest : ∀ b ∈ rest, before a b = true := (List.pairwise_cons.mp hsorted.2.1).1
  have hcount : (items.countP fun b => !before a b) = strict.length := by
    rw [← (List.mergeSort_perm items before).countP_eq, hsort', List.countP_append,
      List.countP_eq_length.mpr hstrict, List.countP_eq_zero.mpr]
    · rfl
    · intro b hb
      rw [hrest b hb]
      exact Bool.false_ne_true
  rw [hcount, hsort, List.getElem?_append_right (Nat.le_refl _), Nat.sub_self]
  rfl

end Sorting

/-! ## The most common values -/

/-- Sorted lists of the same items have the same start where there are no ties. -/
theorem take_eq_of_noTies {n : Nat} {counts counts' : List (κ × Nat)}
    (hsorted : counts.Pairwise fun a b => b.2 ≤ a.2) (hsorted' : counts'.Pairwise fun a b => b.2 ≤ a.2)
    (hperm : counts.Perm counts') (hties : NoTies n counts) : counts.take n = counts'.take n := by
  induction n generalizing counts counts' with
  | zero => rfl
  | succ n ih =>
    cases counts with
    | nil => rw [hperm.nil_eq]
    | cons a counts =>
      cases counts' with
      | nil => exact absurd hperm.symm.nil_eq (List.cons_ne_nil _ _).symm
      | cons b counts' =>
        obtain ⟨ha, hrest⟩ := List.pairwise_cons.mp hsorted
        obtain ⟨hb, hrest'⟩ := List.pairwise_cons.mp hsorted'
        -- Nothing is more common than the first item.
        have hfirst : ∀ c ∈ a :: counts, c.2 ≤ a.2 := List.forall_mem_cons.mpr ⟨Nat.le_refl _, ha⟩
        have hfirst' : ∀ c ∈ b :: counts', c.2 ≤ b.2 := List.forall_mem_cons.mpr ⟨Nat.le_refl _, hb⟩
        have hnone : ∀ m, a.2 ≤ m → (a :: counts).countP (fun c => decide (m < c.2)) = 0 := by
          intro m hm
          refine List.countP_eq_zero.mpr fun c hc => ?_
          have hc := hfirst c hc
          rw [decide_eq_true_eq]
          omega
        have hmem : b ∈ a :: counts := hperm.mem_iff.mpr List.mem_cons_self
        have hmem' : a ∈ b :: counts' := hperm.mem_iff.mp List.mem_cons_self
        have hcount : a.2 = b.2 := Nat.le_antisymm (hfirst' a hmem') (hfirst b hmem)
        have hab : a = b := by
          by_contra hne
          have hle := hties a List.mem_cons_self b hmem hcount hne
          rw [hnone a.2 (Nat.le_refl _)] at hle
          omega
        subst hab
        rw [List.take_succ_cons, List.take_succ_cons]
        refine congrArg (a :: ·) (ih hrest hrest' hperm.cons_inv ?_)
        intro c hc d hd hcd hne
        have hle := hties c (List.mem_cons_of_mem _ hc) d (List.mem_cons_of_mem _ hd) hcd hne
        rw [List.countP_cons] at hle
        by_cases hlt : c.2 < a.2
        · rw [decide_eq_true hlt, if_pos rfl] at hle
          omega
        · have hzero := hnone c.2 (by omega)
          rw [List.countP_cons] at hzero
          omega

theorem moreCommon_trans (a b c : κ × Nat) (hab : decide (b.2 ≤ a.2) = true) (hbc : decide (c.2 ≤ b.2) = true) :
    decide (c.2 ≤ a.2) = true := by
  rw [decide_eq_true_eq] at hab hbc ⊢
  omega

theorem moreCommon_total (a b : κ × Nat) : (decide (b.2 ≤ a.2) || decide (a.2 ≤ b.2)) = true := by
  rw [Bool.or_eq_true, decide_eq_true_eq, decide_eq_true_eq]
  omega

theorem pairwise_mostCommon (counts : List (κ × Nat)) :
    (counts.mergeSort fun a b => decide (b.2 ≤ a.2)).Pairwise fun a b => b.2 ≤ a.2 :=
  (List.pairwise_mergeSort moreCommon_trans moreCommon_total counts).imp fun h => of_decide_eq_true h

theorem mostCommon_perm {n : Nat} {counts counts' : List (κ × Nat)} (hperm : counts.Perm counts')
    (hties : NoTies n counts) : mostCommon n counts = mostCommon n counts' := by
  have hsort := List.mergeSort_perm counts fun a b => decide (b.2 ≤ a.2)
  have hsort' := List.mergeSort_perm counts' fun a b => decide (b.2 ≤ a.2)
  refine take_eq_of_noTies (pairwise_mostCommon counts) (pairwise_mostCommon counts')
    (hsort.trans (hperm.trans hsort'.symm)) fun a ha b hb hab hne => ?_
  rw [hsort.countP_eq]
  exact hties a (hsort.mem_iff.mp ha) b (hsort.mem_iff.mp hb) hab hne

/-- The first of the items that are equally common is listed. -/
theorem getElem?_mostCommon_cons (a : κ × Nat) (counts : List (κ × Nat)) {n : Nat}
    (hn : (counts.countP fun c => decide (a.2 < c.2)) < n) :
    (mostCommon n (a :: counts))[counts.countP fun c => decide (a.2 < c.2)]? = some a := by
  have hcount : (counts.countP fun c => decide (a.2 < c.2)) = counts.countP fun c => !decide (c.2 ≤ a.2) := by
    refine List.countP_congr fun c _ => ?_
    simp
  rw [mostCommon, List.getElem?_take_of_lt hn, hcount]
  exact getElem?_mergeSort_cons moreCommon_trans moreCommon_total a counts

end Relational
