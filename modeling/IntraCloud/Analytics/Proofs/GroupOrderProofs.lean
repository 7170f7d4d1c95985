import IntraCloud.Analytics.Proofs.RowOrderProofs

/-!
# Groups and points in the order of rows

Groups stand in the order of their first rows, and points of one date in the order of theirs. What an operation returns
tells that order, unless the groups or the points are alike.
-/

namespace Analytics

open Databases Python Relational Statistics

variable {ν K : Type} [Arithmetic K] {E : Environment ν K} {src : Source ν (Double K)} {params : PyJson}

/-! ## Two samples -/

variable {F : Functions K} (hdocumented : Documented E.toLibraries F)

omit [Arithmetic K] in
theorem tTest_few {a b : List (Double K)} (ha : a.length < 2) (truncated : Bool) :
    tTest E a b truncated = .error (.invalid (.tooFew "group A" a.length 2)) := by
  rw [tTest, requireMinN, if_pos ha]
  rfl

omit [Arithmetic K] in
theorem tTest_few_second {a b : List (Double K)} (ha : ¬ a.length < 2) (hb : b.length < 2) (truncated : Bool) :
    tTest E a b truncated = .error (.invalid (.tooFew "group B" b.length 2)) := by
  rw [tTest, requireMinN, requireMinN, if_neg ha, if_pos hb]
  rfl

section Documented

include hdocumented

theorem tTest_perm {a a' b b' : List K} (ha : a.Perm a') (hb : b.Perm b') (truncated : Bool) :
    tTest E (a.map .finite) (b.map .finite) truncated = tTest E (a'.map .finite) (b'.map .finite) truncated := by
  have halength : (a.map (Double.finite : K → Double K)).length = (a'.map (Double.finite : K → Double K)).length := by
    rw [List.length_map, List.length_map, ha.length_eq]
  have hblength : (b.map (Double.finite : K → Double K)).length = (b'.map (Double.finite : K → Double K)).length := by
    rw [List.length_map, List.length_map, hb.length_eq]
  by_cases hafew : (a'.map (Double.finite : K → Double K)).length < 2
  · rw [tTest_few (halength.symm ▸ hafew), tTest_few hafew, halength]
  · by_cases hbfew : (b'.map (Double.finite : K → Double K)).length < 2
    · rw [tTest_few_second (halength.symm ▸ hafew) (hblength.symm ▸ hbfew), tTest_few_second hafew hbfew, hblength]
    · rw [List.length_map] at hafew hbfew
      have hstatistic : E.ttestInd (a.map .finite) (b.map .finite) = E.ttestInd (a'.map .finite) (b'.map .finite) := by
        have hasize := ha.length_eq
        have hbsize := hb.length_eq
        rw [hdocumented.ttestInd a b (by omega) (by omega), hdocumented.ttestInd a' b' (by omega) (by omega),
          ttestInd_perm ha hb]
      rw [tTest, tTest, halength, hblength, hstatistic]

/-- The test tells the first sample from the second by their sizes, and by the sign of the statistic. -/
theorem tTest_comm_iff {xs ys : List K} (hx : xs ≠ []) (hy : ys ≠ []) (truncated : Bool) :
    tTest E (xs.map .finite) (ys.map .finite) truncated = tTest E (ys.map .finite) (xs.map .finite) truncated ↔
      xs.length = ys.length ∧ (xs.length = 1 ∨ mean xs = mean ys) := by
  have hxpos := List.length_pos_iff.mpr hx
  have hypos := List.length_pos_iff.mpr hy
  have hxlength : (xs.map (Double.finite : K → Double K)).length = xs.length := List.length_map _
  have hylength : (ys.map (Double.finite : K → Double K)).length = ys.length := List.length_map _
  by_cases hxfew : xs.length < 2
  · rw [tTest_few (hxlength ▸ hxfew)]
    by_cases hyfew : ys.length < 2
    · rw [tTest_few (hylength ▸ hyfew), hxlength, hylength]
      have hxone : xs.length = 1 := by omega
      have hyone : ys.length = 1 := by omega
      simp [hxone, hyone]
    · rw [tTest_few_second (hylength ▸ hyfew) (hxlength ▸ hxfew)]
      constructor
      · intro h
        simp at h
      · rintro ⟨hlength, -⟩
        omega
  · by_cases hyfew : ys.length < 2
    · rw [tTest_few_second (hxlength ▸ hxfew) (hylength ▸ hyfew), tTest_few (hylength ▸ hyfew)]
      constructor
      · intro h
        simp at h
      · rintro ⟨hlength, -⟩
        omega
    · have hcomm := ttestInd_comm_iff hdocumented.root (Nat.le_of_not_lt hxfew) (Nat.le_of_not_lt hyfew)
      have hxy := hdocumented.ttestInd xs ys (Nat.le_of_not_lt hxfew) (Nat.le_of_not_lt hyfew)
      have hyx := hdocumented.ttestInd ys xs (Nat.le_of_not_lt hyfew) (Nat.le_of_not_lt hxfew)
      simp only [tTest, hxlength, hylength, requireMinN, if_neg hxfew, if_neg hyfew, orRaise, ok_bind, hxy, hyx,
        orValueError]
      constructor
      · intro h
        have hresults := pure_eq_ok.mp h
        simp only [List.cons.injEq, Prod.mk.injEq, Datum.number, Datum.field.injEq, Field.number.injEq,
          Datum.counts.injEq, true_and, and_true] at hresults
        obtain ⟨hstatistic, hp, hlength, -⟩ := hresults
        exact ⟨hlength.symm, .inr (hcomm.mp (Prod.ext hstatistic hp).symm)⟩
      · rintro ⟨hlength, hone | hmean⟩
        · omega
        · rw [hcomm.mpr hmean, hlength]

end Documented

/-! ## Two groups -/

/-- What `op_t_test` does with the groups. -/
def tTestGroups (E : Environment ν K) (groupCol : DBColumn) (truncated : Bool) :
    List (ν × List (Double K)) → Except (Raised ν) (Result ν K)
  | [(_, a), (_, b)] => tTest E a b truncated
  | groups => .error (.notTwoGroups groupCol.name groups.length)

omit [Arithmetic K] in
theorem tTestGroups_pair (groupCol : DBColumn) (truncated : Bool) (a b : ν × List (Double K)) :
    tTestGroups E groupCol truncated [a, b] = tTest E a.2 b.2 truncated := rfl

omit [Arithmetic K] in
theorem tTestGroups_other {groups : List (ν × List (Double K))} (h : groups.length ≠ 2) (groupCol : DBColumn)
    (truncated : Bool) :
    tTestGroups E groupCol truncated groups = .error (.notTwoGroups groupCol.name groups.length) := by
  match groups, h with
  | [], _ => rfl
  | [_], _ => rfl
  | [_, _], h => exact absurd rfl h
  | _ :: _ :: _ :: _, _ => rfl

/-- The two groups are of one size, and of one mean if this is not 1. -/
def Alike (E : Environment ν K) (a b : List (Double K)) : Prop :=
  a.length = b.length ∧ (a.length = 1 ∨ E.mean a = E.mean b)

/-- The values of the groups are those of the pairs. -/
theorem mem_of_mem_groups {κ β : Type} {same : κ → κ → Bool} (hsame : ∀ a b, same a b = true ↔ a = b)
    {pairs : List (κ × β)} {g : κ × List β} (hg : g ∈ groups same pairs) {v : β} (hv : v ∈ g.2) :
    (g.1, v) ∈ pairs := by
  rw [groups_eq hsame] at hg
  obtain ⟨k, -, rfl⟩ := List.mem_map.mp hg
  obtain ⟨p, hp, rfl⟩ := List.mem_map.mp hv
  obtain ⟨hmem, hkey⟩ := List.mem_filter.mp hp
  rw [(hsame k p.1).mp hkey]
  exact hmem

omit [Arithmetic K] in
/-- The groups of numbers. -/
theorem numbers_of_mem_groups (hexact : Exact E src) {pairs : List (ν × Double K)}
    (hnumbers : ∀ p ∈ pairs, p.2.Defined) {g : ν × List (Double K)} (hg : g ∈ groups E.same pairs) :
    ∃ zs : List K, zs ≠ [] ∧ g.2 = zs.map .finite := by
  obtain ⟨zs, hzs⟩ := exists_of_allDefined
    fun v (hv : v ∈ g.2) => hnumbers _ (mem_of_mem_groups hexact.same hg hv)
  refine ⟨zs, fun hnil => ?_, hzs⟩
  rw [hnil] at hzs
  exact ne_nil_of_mem_groups hexact.same hg hzs

section Documented

include hdocumented

theorem tTest_comm_groups_iff (hexact : Exact E src) {pairs : List (ν × Double K)}
    (hnumbers : ∀ p ∈ pairs, p.2.Defined) {a b : ν × List (Double K)} (hgroups : groups E.same pairs = [a, b])
    (truncated : Bool) : tTest E a.2 b.2 truncated = tTest E b.2 a.2 truncated ↔ Alike E a.2 b.2 := by
  obtain ⟨xs, hxne, hxs⟩ := numbers_of_mem_groups hexact hnumbers (hgroups ▸ List.mem_cons_self : a ∈ _)
  obtain ⟨ys, hyne, hys⟩ := numbers_of_mem_groups hexact hnumbers
    (hgroups ▸ List.mem_cons_of_mem _ List.mem_cons_self : b ∈ _)
  rw [hxs, hys, tTest_comm_iff hdocumented hxne hyne, Alike, List.length_map, List.length_map,
    hdocumented.mean xs hxne, hdocumented.mean ys hyne]
  simp only [Double.finite.injEq]

/-- The groups in another order of the rows hold the same numbers. -/
theorem tTest_groups_perm (hexact : Exact E src) {pairs : List (ν × Double K)}
    (hnumbers : ∀ p ∈ pairs, p.2.Defined) {a b : ν × List (Double K)} (ha : a ∈ groups E.same pairs)
    (hb : b ∈ groups E.same pairs) {as bs : List (Double K)} (has : as.Perm a.2) (hbs : bs.Perm b.2)
    (truncated : Bool) : tTest E as bs truncated = tTest E a.2 b.2 truncated := by
  obtain ⟨xs, -, hxs⟩ := numbers_of_mem_groups hexact hnumbers ha
  obtain ⟨ys, -, hys⟩ := numbers_of_mem_groups hexact hnumbers hb
  rw [hxs] at has
  rw [hys] at hbs
  obtain ⟨xs', rfl, hxperm⟩ := exists_map_of_perm has
  obtain ⟨ys', rfl, hyperm⟩ := exists_map_of_perm hbs
  rw [hxs, hys]
  exact tTest_perm hdocumented hxperm hyperm truncated

theorem tTestGroups_sameForAll_iff (hexact : Exact E src) {pairs : List (ν × Double K)}
    (hnumbers : ∀ p ∈ pairs, p.2.Defined) (groupCol : DBColumn) (truncated : Bool) :
    SameForAll (fun l => tTestGroups E groupCol truncated (groups E.same l)) pairs ↔
      ∀ a b, groups E.same pairs = [a, b] → Alike E a.2 b.2 := by
  have hmem : ∀ {a b : ν × List (Double K)}, groups E.same pairs = [a, b] →
      a ∈ groups E.same pairs ∧ b ∈ groups E.same pairs := by
    intro a b hgroups
    rw [hgroups]
    exact ⟨List.mem_cons_self, List.mem_cons_of_mem _ List.mem_cons_self⟩
  constructor
  · intro h a b hgroups
    obtain ⟨ha, hb⟩ := hmem hgroups
    rw [← tTest_comm_groups_iff hdocumented hexact hnumbers hgroups truncated]
    obtain ⟨l, as, bs, hl, has, hbs, hswapped⟩ := exists_groups_second hexact.same hgroups
    have hresult : tTestGroups E groupCol truncated (groups E.same pairs) =
        tTestGroups E groupCol truncated (groups E.same l) := h pairs l (.refl _) hl
    rw [hgroups, hswapped, tTestGroups_pair, tTestGroups_pair] at hresult
    exact hresult.trans (tTest_groups_perm hdocumented hexact hnumbers hb ha hbs has truncated)
  · intro h
    suffices hbase : ∀ l, l.Perm pairs → tTestGroups E groupCol truncated (groups E.same l) =
        tTestGroups E groupCol truncated (groups E.same pairs) from
      fun l l' hl hl' => (hbase l hl).trans (hbase l' hl').symm
    intro l hl
    by_cases htwo : (groups E.same pairs).length = 2
    · obtain ⟨a, b, hgroups⟩ := List.length_eq_two.mp htwo
      obtain ⟨ha, hb⟩ := hmem hgroups
      have hcomm := (tTest_comm_groups_iff hdocumented hexact hnumbers hgroups truncated).mpr (h a b hgroups)
      obtain ⟨as, bs, has, hbs, horder | horder⟩ := groups_pair hexact.same hgroups hl
      · rw [horder, hgroups, tTestGroups_pair, tTestGroups_pair]
        exact tTest_groups_perm hdocumented hexact hnumbers ha hb has hbs truncated
      · rw [horder, hgroups, tTestGroups_pair, tTestGroups_pair, hcomm]
        exact tTest_groups_perm hdocumented hexact hnumbers hb ha hbs has truncated
    · have hlength := length_groups_perm hexact.same hl
      rw [tTestGroups_other htwo, tTestGroups_other (hlength ▸ htwo), hlength]

end Documented

/-- The groups and the values of the rows. -/
def groupPairs (src : Source ν (Double K)) (fetched : List (Row ν)) (column group : DBColumn) :
    List (ν × Double K) :=
  (pairsOf (rowsOf src fetched column group)).map fun p => (p.2, src.float p.1)

omit [Arithmetic K] in
theorem pairsOf_rowsOf_eq (fetched : List (Row ν)) (column group : DBColumn) :
    pairsOf (rowsOf src fetched column group) = fetched.filterMap fun r =>
      (r.value src.valueType column.name).bind fun a => (r.value src.valueType group.name).map fun b => (a, b) := by
  rw [pairsOf, rowsOf, List.filterMap_map]
  refine List.filterMap_congr fun r _ => ?_
  dsimp only [Function.comp]
  cases r.value src.valueType column.name with
  | none => rfl
  | some a =>
    cases r.value src.valueType group.name with
    | none => rfl
    | some b => rfl

omit [Arithmetic K] in
theorem groupPairs_eq (fetched : List (Row ν)) (column group : DBColumn) :
    groupPairs src fetched column group = fetched.filterMap fun r =>
      ((r.value src.valueType column.name).bind fun a => (r.value src.valueType group.name).map fun b =>
        (a, b)).map fun p => (p.2, src.float p.1) := by
  rw [groupPairs, pairsOf_rowsOf_eq, List.map_filterMap]

omit [Arithmetic K] in
theorem defined_groupPairs (hexact : Exact E src) {column : DBColumn} {key : String}
    (hcolumn : NamesNumeric src params key column) (group : DBColumn) :
    ∀ p ∈ groupPairs src src.rows column group, p.2.Defined := by
  obtain ⟨name, ⟨-, hname⟩, hnumeric⟩ := hcolumn
  intro p hp
  rw [groupPairs_eq] at hp
  obtain ⟨r, hr, hmapped⟩ := List.mem_filterMap.mp hp
  obtain ⟨pair, hpair, rfl⟩ := Option.map_eq_some_iff.mp hmapped
  obtain ⟨a, ha, hb⟩ := Option.bind_eq_some_iff.mp hpair
  obtain ⟨b, -, rfl⟩ := Option.map_eq_some_iff.mp hb
  exact hexact.numbers column (mem_columns_of_columnOf hname) hnumeric r hr a ha

include hdocumented in
theorem free_tTest_iff (hexact : Exact E src) :
    Free src (fun q => opTTest E src q params) ↔ GroupsAlike E src params := by
  have hcore : ∀ (column groupCol : DBColumn) (truncated : Bool), NamesNumeric src params "column" column →
      (Free src (fun q => tTestGroups E groupCol truncated (groups E.same (groupPairs src (q 1) column groupCol))) ↔
        ∀ a b, groups E.same (groupPairs src src.rows column groupCol) = [a, b] → Alike E a.2 b.2) := by
    intro column groupCol truncated hcolumn
    rw [← tTestGroups_sameForAll_iff hdocumented hexact (defined_groupPairs hexact hcolumn groupCol) groupCol truncated]
    simp only [groupPairs_eq]
    exact free_one _ (fun l => tTestGroups E groupCol truncated (groups E.same l)) 1
  simp only [opTTest, free_bind, series_eq, bind_assoc, ok_bind, orRaise_eq_ok, requireTypes_eq_ok]
  constructor
  · rintro h column nameB groupCol ⟨name, ⟨hname, hcolumn⟩, hnumeric⟩ hnameB hfalse
      ⟨groupName, ⟨hgroupName, hgroup⟩, hcategorical⟩
    have hfree := h name hname column hcolumn () hnumeric nameB hnameB
    simp only [hfalse, Bool.false_eq_true, if_false, free_bind, fetch_two, ok_bind, rows_fetchColumns, orRaise_eq_ok,
      requireTypes_eq_ok] at hfree
    exact (hcore column groupCol (isTruncated src) ⟨name, ⟨hname, hcolumn⟩, hnumeric⟩).mp
      (hfree groupName hgroupName groupCol hgroup () hcategorical column hcolumn)
  · intro h name hname column hcolumn _ hnumeric nameB hnameB
    by_cases htruthy : truthy E nameB = true
    · simp only [htruthy, if_true, free_bind]
      intro columnB hcolumnB _ hnumericB q q' hq hq'
      have hnumericB := requireTypes_eq_ok.mp (orRaise_eq_ok.mp hnumericB)
      obtain ⟨as, as', has, has', haperm⟩ := numbers_fetched hexact hcolumn hnumeric (hq 0) (hq' 0)
      obtain ⟨bs, bs', hbs, hbs', hbperm⟩ := numbers_fetched hexact hcolumnB hnumericB (hq 1) (hq' 1)
      dsimp only
      rw [has, has', hbs, hbs']
      exact tTest_perm hdocumented haperm hbperm _
    · have hfalse : truthy E nameB = false := Bool.eq_false_of_not_eq_true htruthy
      simp only [hfalse, Bool.false_eq_true, if_false, free_bind, fetch_two, ok_bind, rows_fetchColumns,
        orRaise_eq_ok, requireTypes_eq_ok]
      intro groupName hgroupName groupCol hgroup _ hcategorical valueCol hvalue
      have hnames : NamesNumeric src params "column" column := ⟨name, ⟨hname, hcolumn⟩, hnumeric⟩
      obtain rfl : column = valueCol := Except.ok.inj (hcolumn.symm.trans hvalue)
      exact (hcore column groupCol (isTruncated src) hnames).mpr
        (h column nameB groupCol hnames hnameB hfalse ⟨groupName, ⟨hgroupName, hgroup⟩, hcategorical⟩)

/-! ## Several groups -/

/-- What `op_anova` returns with this statistic. -/
def anovaResult (valueCol groupCol : DBColumn) (truncated : Bool) (groups : List (ν × List (Double K)))
    (statistic : Double K × Double K) : Result ν K :=
  [("operation", .text "anova"), ("method", .text "One-way ANOVA"),
    ("value_column", .text valueCol.name), ("group_column", .text groupCol.name),
    ("groups", .labels (groups.map (·.1))), ("statistic", .number statistic.1), ("p_value", .number statistic.2),
    ("sample_size", .count (groups.map (·.2.length)).sum),
    ("assumptions", .field (.texts ["each group is approximately normally distributed",
      "groups have similar variances", "observations are independent"])),
    ("interpretation_note",
      .text "A significant result means at least one group's mean differs, not which one or why."),
    ("truncated", .flag truncated)]

/-- What `op_anova` does with the groups. -/
def anovaGroups (E : Environment ν K) (valueCol groupCol : DBColumn) (truncated : Bool)
    (groups : List (ν × List (Double K))) : Except (Raised ν) (Result ν K) :=
  if groups.length < 2 then .error (.fewGroups groupCol.name)
  else
    match groups.find? fun g => decide (g.2.length < 2) with
    | some g => .error (.smallGroup g.1 g.2.length)
    | none => (orValueError (E.fOneway (groups.map (·.2)))).map (anovaResult valueCol groupCol truncated groups)

omit [Arithmetic K] in
theorem labels_of_anovaResult {valueCol groupCol : DBColumn} {truncated : Bool}
    {groups groups' : List (ν × List (Double K))} {statistic statistic' : Double K × Double K}
    (h : anovaResult valueCol groupCol truncated groups statistic =
      anovaResult valueCol groupCol truncated groups' statistic') : groups.map (·.1) = groups'.map (·.1) := by
  simp only [anovaResult, List.cons.injEq, Prod.mk.injEq, Datum.labels.injEq, true_and] at h
  exact h.1

section Groups

variable {valueCol groupCol : DBColumn} {truncated : Bool} {pairs l : List (ν × Double K)}

/-- A group of less than two values. -/
def isSmall (c : ν × Nat) : Bool := decide (c.2 < 2)

omit [Arithmetic K] in
theorem anovaGroups_few {groups : List (ν × List (Double K))} (h : groups.length < 2) :
    anovaGroups E valueCol groupCol truncated groups = .error (.fewGroups groupCol.name) := if_pos h

omit [Arithmetic K] in
theorem find?_groups (hsame : ∀ a b, E.same a b = true ↔ a = b) (l : List (ν × Double K)) :
    ((groups E.same l).find? fun g => decide (g.2.length < 2)).map (fun g => (g.1, g.2.length)) =
      (counter E.same (l.map (·.1))).find? isSmall := by
  rw [← sizes_groups hsame, List.find?_map]
  rfl

omit [Arithmetic K] in
/-- The first small group is the one that is told. -/
theorem anovaGroups_small (hsame : ∀ a b, E.same a b = true ↔ a = b) (htwo : ¬ (groups E.same l).length < 2)
    {c : ν × Nat} (hc : (counter E.same (l.map (·.1))).find? isSmall = some c) :
    anovaGroups E valueCol groupCol truncated (groups E.same l) = .error (.smallGroup c.1 c.2) := by
  rw [← find?_groups hsame] at hc
  obtain ⟨g, hg, rfl⟩ := Option.map_eq_some_iff.mp hc
  rw [anovaGroups, if_neg htwo, hg]

include hdocumented in
theorem anovaGroups_ok (hsame : ∀ a b, E.same a b = true ↔ a = b) (htwo : ¬ (groups E.same l).length < 2)
    (hnone : (counter E.same (l.map (·.1))).find? isSmall = none) :
    ∃ statistic, anovaGroups E valueCol groupCol truncated (groups E.same l) =
      .ok (anovaResult valueCol groupCol truncated (groups E.same l) statistic) := by
  rw [← find?_groups hsame, Option.map_eq_none_iff] at hnone
  have hsizes : ∀ xs ∈ (groups E.same l).map (·.2), 2 ≤ xs.length := by
    rw [List.forall_mem_map]
    intro g hg
    have hsize := List.find?_eq_none.mp hnone g hg
    exact Nat.le_of_not_lt fun hlt => hsize (decide_eq_true hlt)
  obtain ⟨f, p, hstatistic, -⟩ := hdocumented.fOneway_defined
    (by rw [List.length_map]; exact Nat.le_of_not_lt htwo) hsizes
  refine ⟨(f, p), ?_⟩
  rw [anovaGroups, if_neg htwo, hnone]
  dsimp only
  rw [hstatistic]
  rfl

omit [Arithmetic K] in
theorem exists_cons_cons {β : Type} {items : List β} (h : 2 ≤ items.length) :
    ∃ a b rest, items = a :: b :: rest := by
  match items, h with
  | a :: b :: rest, _ => exact ⟨a, b, rest, rfl⟩

omit [Arithmetic K] in
/-- One small group is told in every order. -/
theorem anovaGroups_sameForAll (hsame : ∀ a b, E.same a b = true ↔ a = b)
    (h : 2 ≤ (groups E.same pairs).length → (counter E.same (pairs.map (·.1))).countP isSmall = 1) :
    SameForAll (fun l => anovaGroups E valueCol groupCol truncated (groups E.same l)) pairs := by
  by_cases htwo : (groups E.same pairs).length < 2
  · have hfew : ∀ l, l.Perm pairs →
        anovaGroups E valueCol groupCol truncated (groups E.same l) = .error (.fewGroups groupCol.name) := by
      intro l hl
      refine anovaGroups_few ?_
      rw [length_groups_perm hsame hl]
      exact htwo
    exact fun l l' hl hl' => (hfew l hl).trans (hfew l' hl').symm
  · have hone := h (Nat.le_of_not_lt htwo)
    rw [List.countP_eq_length_filter] at hone
    obtain ⟨c, hc⟩ := List.length_eq_one_iff.mp hone
    have hsmall : ∀ l, l.Perm pairs →
        anovaGroups E valueCol groupCol truncated (groups E.same l) = .error (.smallGroup c.1 c.2) := by
      intro l hl
      refine anovaGroups_small hsame (by rwa [length_groups_perm hsame hl]) ?_
      have hfilter := (counter_perm hsame (hl.map (·.1))).filter isSmall
      rw [hc, List.perm_singleton] at hfilter
      rw [← List.head?_filter, hfilter]
      rfl
    exact fun l l' hl hl' => (hsmall l hl).trans (hsmall l' hl').symm

include hdocumented in
/-- Two small groups, or none among several, are told in the order of the rows. -/
theorem countP_isSmall_eq_one (hsame : ∀ a b, E.same a b = true ↔ a = b)
    (h : SameForAll (fun l => anovaGroups E valueCol groupCol truncated (groups E.same l)) pairs)
    (htwo : 2 ≤ (groups E.same pairs).length) : (counter E.same (pairs.map (·.1))).countP isSmall = 1 := by
  have hlength : ∀ {l}, l.Perm pairs → ¬ (groups E.same l).length < 2 := by
    intro l hl
    rw [length_groups_perm hsame hl]
    omega
  have hnodup := nodup_keys_counter hsame (pairs.map (·.1))
  have hsize : (counter E.same (pairs.map (·.1))).length = (groups E.same pairs).length := by
    rw [← sizes_groups hsame, List.length_map]
  by_contra hone
  by_cases hzero : (counter E.same (pairs.map (·.1))).countP isSmall = 0
  · -- No group is small: the labels are in the order of the rows.
    have hnone : ∀ {l : List (ν × Double K)}, l.Perm pairs →
        (counter E.same (l.map (·.1))).find? isSmall = none := by
      intro l hl
      rw [List.find?_eq_none]
      have hcount := (counter_perm hsame (hl.map (·.1))).countP_eq isSmall
      rw [hzero, List.countP_eq_zero] at hcount
      exact hcount
    obtain ⟨c, c', rest, hcounter⟩ := exists_cons_cons (hsize.symm ▸ htwo)
    have hmem : c ∈ counter E.same (pairs.map (·.1)) := by
      rw [hcounter]
      exact List.mem_cons_self
    have hmem' : c' ∈ counter E.same (pairs.map (·.1)) := by
      rw [hcounter]
      exact List.mem_cons_of_mem _ List.mem_cons_self
    obtain ⟨l, hl, sizes, hsizes⟩ := exists_counter_first hsame hmem
    obtain ⟨l', hl', sizes', hsizes'⟩ := exists_counter_first hsame hmem'
    have hresult := h l l' hl hl'
    dsimp only at hresult
    obtain ⟨statistic, hstatistic⟩ := anovaGroups_ok hdocumented hsame (hlength hl) (hnone hl)
    obtain ⟨statistic', hstatistic'⟩ := anovaGroups_ok hdocumented hsame (hlength hl') (hnone hl')
    rw [hstatistic, hstatistic'] at hresult
    have hlabels := labels_of_anovaResult (Except.ok.inj hresult)
    have hkeys : ∀ l : List (ν × Double K),
        (groups E.same l).map (·.1) = (counter E.same (l.map (·.1))).map (·.1) := by
      intro l
      rw [← sizes_groups hsame, List.map_map]
      rfl
    rw [hkeys, hkeys, hsizes, hsizes', List.map_cons, List.map_cons, List.cons.injEq] at hlabels
    rw [hcounter, List.map_cons, List.map_cons, List.nodup_cons] at hnodup
    exact hnodup.1 (hlabels.1 ▸ List.mem_cons_self)
  · rw [List.countP_eq_length_filter] at hone hzero
    obtain ⟨c, c', rest, hfilter⟩ := exists_cons_cons
      (by omega : 2 ≤ ((counter E.same (pairs.map (·.1))).filter isSmall).length)
    have htold : ∀ c ∈ (counter E.same (pairs.map (·.1))).filter isSmall, ∃ l : List (ν × Double K), l.Perm pairs ∧
        anovaGroups E valueCol groupCol truncated (groups E.same l) = .error (.smallGroup c.1 c.2) := by
      intro c hc
      obtain ⟨hmem, hsmall⟩ := List.mem_filter.mp hc
      obtain ⟨l, hl, sizes, hsizes⟩ := exists_counter_first hsame hmem
      refine ⟨l, hl, anovaGroups_small hsame (hlength hl) ?_⟩
      rw [hsizes, List.find?_cons_of_pos hsmall]
    rw [hfilter] at htold
    obtain ⟨l, hl, htold₁⟩ := htold c List.mem_cons_self
    obtain ⟨l', hl', htold₂⟩ := htold c' (List.mem_cons_of_mem _ List.mem_cons_self)
    have hresult := h l l' hl hl'
    dsimp only at hresult
    rw [htold₁, htold₂] at hresult
    have hlabel : c.1 = c'.1 := (Raised.smallGroup.inj (Except.error.inj hresult)).1
    have hsub : ((counter E.same (pairs.map (·.1))).filter isSmall).map (·.1) |>.Nodup :=
      hnodup.sublist (List.filter_sublist.map _)
    rw [hfilter, List.map_cons, List.map_cons, List.nodup_cons] at hsub
    exact hsub.1 (hlabel ▸ List.mem_cons_self)

include hdocumented in
theorem anovaGroups_sameForAll_iff (hsame : ∀ a b, E.same a b = true ↔ a = b) :
    SameForAll (fun l => anovaGroups E valueCol groupCol truncated (groups E.same l)) pairs ↔
      (2 ≤ (groups E.same pairs).length →
        ((groups E.same pairs).countP fun g => decide (g.2.length < 2)) = 1) := by
  have hcount : ((groups E.same pairs).countP fun g => decide (g.2.length < 2)) =
      (counter E.same (pairs.map (·.1))).countP isSmall := by
    rw [← sizes_groups hsame, List.countP_map]
    rfl
  rw [hcount]
  exact ⟨countP_isSmall_eq_one hdocumented hsame, anovaGroups_sameForAll hsame⟩

end Groups

include hdocumented in
theorem free_anova_iff (hsame : ∀ a b, E.same a b = true ↔ a = b) :
    Free src (fun q => opAnova E src q params) ↔ OneSmallGroup E src params := by
  have hcore : ∀ (valueCol groupCol : DBColumn) (truncated : Bool),
      Free src (fun q => anovaGroups E valueCol groupCol truncated
        (groups E.same (groupPairs src (q 0) valueCol groupCol))) ↔
          (2 ≤ (groups E.same (groupPairs src src.rows valueCol groupCol)).length →
            ((groups E.same (groupPairs src src.rows valueCol groupCol)).countP
              fun g => decide (g.2.length < 2)) = 1) := by
    intro valueCol groupCol truncated
    have hgroups : SameForAll (fun l => anovaGroups E valueCol groupCol truncated (groups E.same l))
        (groupPairs src src.rows valueCol groupCol) ↔ _ :=
      anovaGroups_sameForAll_iff hdocumented hsame
    rw [← hgroups]
    simp only [groupPairs_eq]
    exact free_one _ (fun l => anovaGroups E valueCol groupCol truncated (groups E.same l)) 0
  simp only [opAnova, free_bind, fetch_two, ok_bind, rows_fetchColumns, orRaise_eq_ok, requireTypes_eq_ok]
  constructor
  · rintro h valueCol groupCol ⟨valueName, ⟨hvalueName, hvalue⟩, hnumeric⟩
      ⟨groupName, ⟨hgroupName, hgroup⟩, hcategorical⟩
    exact (hcore valueCol groupCol (isTruncated src)).mp
      (h valueName hvalueName valueCol hvalue groupName hgroupName groupCol hgroup () hnumeric () hcategorical)
  · intro h valueName hvalueName valueCol hvalue groupName hgroupName groupCol hgroup _ hnumeric _ hcategorical
    exact (hcore valueCol groupCol (isTruncated src)).mpr (h valueCol groupCol
      ⟨valueName, ⟨hvalueName, hvalue⟩, hnumeric⟩ ⟨groupName, ⟨hgroupName, hgroup⟩, hcategorical⟩)

/-! ## Points -/

section Points

variable {dateCol valueCol : DBColumn} {window : Int} {truncated : Bool} {points : List (ν × Double K)}

/-- The points by their dates. -/
def byDate (E : Environment ν K) (points : List (ν × Double K)) : List (ν × Double K) :=
  points.mergeSort fun p p' => E.before p.1 p'.1

omit [Arithmetic K] in
theorem byDate_perm (hexact : Exact E src) {l l' : List (ν × Double K)} (h : l.Perm l')
    (hdates : ∀ p ∈ l, ∀ p' ∈ l, p.1 = p'.1 → p.2 = p'.2) : byDate E l = byDate E l' := by
  have htrans : ∀ a b c : ν × Double K, E.before a.1 b.1 = true → E.before b.1 c.1 = true →
      E.before a.1 c.1 = true := fun a b c => hexact.trans a.1 b.1 c.1
  have htotal : ∀ a b : ν × Double K, (E.before a.1 b.1 || E.before b.1 a.1) = true := fun a b =>
    hexact.total a.1 b.1
  refine List.Perm.eq_of_pairwise (fun p p' hp hp' hle hle' => ?_) (List.pairwise_mergeSort htrans htotal _)
    (List.pairwise_mergeSort htrans htotal _) ?_
  · have hmem : p ∈ l := (List.mergeSort_perm _ _).mem_iff.mp hp
    have hmem' : p' ∈ l := h.mem_iff.mpr ((List.mergeSort_perm _ _).mem_iff.mp hp')
    have hdate := hexact.antisymm p.1 p'.1 hle hle'
    exact Prod.ext hdate (hdates p hmem p' hmem' hdate)
  · exact (List.mergeSort_perm _ _).trans (h.trans (List.mergeSort_perm _ _).symm)

omit [Arithmetic K] in
/-- A point that comes first in the rows is the first one of its date. -/
theorem getElem?_byDate (hexact : Exact E src) (p : ν × Double K) {l : List (ν × Double K)}
    (h : (p :: l).Perm points) :
    (byDate E (p :: l))[points.countP fun p' => !E.before p.1 p'.1]? = some p := by
  have hself : E.before p.1 p.1 = true := by
    have htotal := hexact.total p.1 p.1
    rwa [Bool.or_self] at htotal
  have hcount : (points.countP fun p' => !E.before p.1 p'.1) = l.countP fun p' => !E.before p.1 p'.1 := by
    rw [← h.countP_eq, List.countP_cons_of_neg]
    simp [hself]
  rw [hcount]
  exact getElem?_mergeSort_cons (fun a b c => hexact.trans a.1 b.1 c.1) (fun a b => hexact.total a.1 b.1) p l

theorem timeSeries_few (h : points.length < 2) : timeSeries E src dateCol valueCol window points truncated =
    .error (.invalid (.tooFew "time series" points.length 2)) := by
  rw [timeSeries, requireMinN, if_pos h]
  rfl

theorem timeSeries_window (h : ¬ points.length < 2) (hwindow : window ≤ 0) :
    timeSeries E src dateCol valueCol window points truncated = .error .valueError := by
  rw [timeSeries, requireMinN, if_neg h, if_pos hwindow]
  rfl

/-- The result lists the values. -/
theorem values_of_timeSeries {points' : List (ν × Double K)} (h : ¬ points.length < 2) (h' : ¬ points'.length < 2)
    (hwindow : ¬ window ≤ 0) (heq : timeSeries E src dateCol valueCol window points truncated =
      timeSeries E src dateCol valueCol window points' truncated) : points.map (·.2) = points'.map (·.2) := by
  simp only [timeSeries, requireMinN, if_neg h, if_neg h', if_neg hwindow, orRaise, ok_bind] at heq
  have hresults := pure_eq_ok.mp heq
  simp only [List.cons.injEq, Prod.mk.injEq, Datum.points.injEq, true_and] at hresults
  have hpoints := congrArg (List.map Prod.snd) hresults.1
  simp only [List.map_map, Function.comp_def] at hpoints
  exact hpoints.symm

theorem timeSeries_sameForAll_iff (hexact : Exact E src) :
    SameForAll (fun l => timeSeries E src dateCol valueCol window (byDate E l) truncated) points ↔
      (0 < window → 2 ≤ points.length → ∀ p ∈ points, ∀ p' ∈ points, p.1 = p'.1 → p.2 = p'.2) := by
  have hlength : ∀ {l}, l.Perm points → (byDate E l).length = points.length := fun hl =>
    (List.length_mergeSort _).trans hl.length_eq
  constructor
  · intro h hwindow htwo p hp p' hp' hdate
    obtain ⟨rest, hrest⟩ := exists_perm_cons hp
    obtain ⟨rest', hrest'⟩ := exists_perm_cons hp'
    have hvalues := values_of_timeSeries (by rw [hlength hrest.symm]; omega) (by rw [hlength hrest'.symm]; omega)
      (by omega) (h _ _ hrest.symm hrest'.symm)
    have hfirst := getElem?_byDate hexact p hrest.symm
    have hfirst' := getElem?_byDate hexact p' hrest'.symm
    rw [← hdate] at hfirst'
    have hvalue := congrArg (fun l => l[points.countP fun q => !E.before p.1 q.1]?) hvalues
    simp only [List.getElem?_map, hfirst, hfirst', Option.map_some, Option.some.injEq] at hvalue
    exact hvalue
  · intro h
    suffices hbase : ∀ l, l.Perm points → timeSeries E src dateCol valueCol window (byDate E l) truncated =
        timeSeries E src dateCol valueCol window (byDate E points) truncated from
      fun l l' hl hl' => (hbase l hl).trans (hbase l' hl').symm
    intro l hl
    have hself := hlength (List.Perm.refl points)
    by_cases hfew : points.length < 2
    · rw [timeSeries_few (hlength hl ▸ hfew), timeSeries_few (hself ▸ hfew), hlength hl, hself]
    · by_cases hwindow : window ≤ 0
      · rw [timeSeries_window (hlength hl ▸ hfew) hwindow, timeSeries_window (hself ▸ hfew) hwindow]
      · have hdates := h (by omega) (by omega)
        rw [← byDate_perm hexact hl.symm hdates]

end Points

/-- The dates and the values of the rows. -/
def datedPairs (src : Source ν (Double K)) (fetched : List (Row ν)) (date value : DBColumn) : List (ν × Double K) :=
  (pairsOf (rowsOf src fetched date value)).map fun p => (p.1, src.float p.2)

omit [Arithmetic K] in
theorem datedPairs_eq (fetched : List (Row ν)) (date value : DBColumn) :
    datedPairs src fetched date value = fetched.filterMap fun r =>
      ((r.value src.valueType date.name).bind fun a => (r.value src.valueType value.name).map fun b =>
        (a, b)).map fun p => (p.1, src.float p.2) := by
  rw [datedPairs, pairsOf_rowsOf_eq, List.map_filterMap]

theorem free_timeSeries_iff (hexact : Exact E src) :
    Free src (fun q => opTimeSeriesSummary E src q params) ↔ DatesDetermine E src params := by
  have hcore : ∀ (dateCol valueCol : DBColumn) (window : Int) (truncated : Bool),
      Free src (fun q => timeSeries E src dateCol valueCol (min window 365)
        (byDate E (datedPairs src (q 0) dateCol valueCol)) truncated) ↔
          (0 < window → 2 ≤ (pairsOf (rowsOf src src.rows dateCol valueCol)).length →
            ∀ p ∈ pairsOf (rowsOf src src.rows dateCol valueCol),
              ∀ p' ∈ pairsOf (rowsOf src src.rows dateCol valueCol), p.1 = p'.1 → src.float p.2 = src.float p'.2) := by
    intro dateCol valueCol window truncated
    have hpoints : SameForAll (fun l => timeSeries E src dateCol valueCol (min window 365) (byDate E l) truncated)
        (datedPairs src src.rows dateCol valueCol) ↔ _ := timeSeries_sameForAll_iff hexact
    have hwindow : 0 < min window 365 ↔ 0 < window := by omega
    have hbase : datedPairs src src.rows dateCol valueCol =
      (pairsOf (rowsOf src src.rows dateCol valueCol)).map fun p => (p.1, src.float p.2) := rfl
    rw [hwindow, hbase, List.length_map, List.forall_mem_map] at hpoints
    simp only [List.forall_mem_map] at hpoints
    rw [← hpoints, ← hbase]
    simp only [datedPairs_eq]
    exact free_one _ (fun l => timeSeries E src dateCol valueCol (min window 365) (byDate E l) truncated) 0
  simp only [opTimeSeriesSummary, free_bind, fetch_two, ok_bind, rows_fetchColumns, orRaise_eq_ok,
    requireTypes_eq_ok]
  constructor
  · rintro h dateCol valueCol window ⟨⟨dateName, ⟨hdateName, hdate⟩, htemporal⟩,
      ⟨valueName, ⟨hvalueName, hvalue⟩, hnumeric⟩⟩ ⟨value, hwindowName, hwindow⟩
    exact (hcore dateCol valueCol window (isTruncated src)).mp (h dateName hdateName dateCol hdate valueName
      hvalueName valueCol hvalue () htemporal () hnumeric value hwindowName window hwindow)
  · intro h dateName hdateName dateCol hdate valueName hvalueName valueCol hvalue _ htemporal _ hnumeric value
      hwindowName window hwindow
    exact (hcore dateCol valueCol window (isTruncated src)).mpr (h dateCol valueCol window
      ⟨⟨dateName, ⟨hdateName, hdate⟩, htemporal⟩, ⟨valueName, ⟨hvalueName, hvalue⟩, hnumeric⟩⟩
      ⟨value, hwindowName, hwindow⟩)

/-! ## All operations -/

theorem settled_of_none {name : String} (h : (CONDITIONS : List (String × Condition ν K)).lookup name = none) :
    Settled name E src params := by
  intro condition hcondition
  rw [h] at hcondition
  cases hcondition

theorem settled_iff {name : String} {condition : Condition ν K} (h : CONDITIONS.lookup name = some condition) :
    Settled name E src params ↔ condition E src params := by
  constructor
  · intro hsettled
    exact hsettled condition h
  · intro hcondition condition' h'
    rw [h] at h'
    exact Option.some.inj h' ▸ hcondition

omit [Arithmetic K] in
/-- An operation that reduces the numbers to a statistic of them that is documented. -/
theorem free_reduced (hexact : Exact E src) {op : Operation ν K} {opName label : String} {least : Nat}
    {reducer : Environment ν K → List (Double K) → Double K} {statistic : List K → K}
    (hop : op = descriptiveNumeric opName label least reducer)
    (hreducer : ∀ zs : List K, least ≤ zs.length → reducer E (zs.map .finite) = .finite (statistic zs))
    (hstatistic : ∀ zs zs' : List K, zs.Perm zs' → statistic zs = statistic zs') :
    Free src fun q => op E src q params := by
  rw [hop]
  refine free_descriptiveNumeric hexact fun zs zs' hlength hperm => ?_
  rw [hreducer zs hlength, hreducer zs' (hperm.length_eq ▸ hlength), hstatistic zs zs' hperm]

omit [Arithmetic K] in
theorem ne_nil_of_one_le {zs : List K} (h : 1 ≤ zs.length) : zs ≠ [] := List.ne_nil_of_length_pos h

include hdocumented in
/-- The operations of which nothing is asked. -/
theorem free_of_none (hexact : Exact E src) : ∀ entry ∈ (OPERATIONS : List (String × Operation ν K)),
    (CONDITIONS : List (String × Condition ν K)).lookup entry.1 = none →
      Free src fun q => entry.2 E src q params := by
  intro entry hentry hnone
  simp only [OPERATIONS, List.mem_cons, List.not_mem_nil, or_false] at hentry
  rcases hentry with rfl | rfl | rfl | rfl | rfl | rfl | rfl | rfl | rfl | rfl | rfl | rfl | rfl | rfl | rfl | rfl |
    rfl | rfl | rfl | rfl | rfl
  · exact free_opCount
  · exact free_opDistinctCount hexact.same
  · exact free_opMissing
  · exact free_opDuplicateCount hexact.same
  · cases hnone
  · exact free_reduced hexact rfl (fun zs _ => hdocumented.sum zs) fun _ _ h => h.sum_eq
  · exact free_reduced hexact rfl (fun zs h => hdocumented.mean zs (ne_nil_of_one_le h)) fun _ _ => mean_perm
  · exact free_reduced hexact rfl (fun zs h => hdocumented.median zs (ne_nil_of_one_le h)) fun _ _ => median_perm
  · exact free_reduced hexact rfl (fun zs h => hdocumented.min zs (ne_nil_of_one_le h)) fun _ _ => minimum_perm
  · exact free_reduced hexact rfl (fun zs h => hdocumented.max zs (ne_nil_of_one_le h)) fun _ _ => maximum_perm
  · exact free_reduced hexact rfl hdocumented.std fun _ _ h => congrArg F.sqrt (variance_perm h)
  · exact free_reduced hexact rfl hdocumented.var fun _ _ => variance_perm
  · exact free_opPercentiles hdocumented hexact
  · cases hnone
  · cases hnone
  · cases hnone
  · cases hnone
  · cases hnone
  · exact free_opChiSquare hexact
  · cases hnone
  · cases hnone

include hdocumented in
/-- And those of which something is. -/
theorem free_iff_condition (hexact : Exact E src) : ∀ entry ∈ (CONDITIONS : List (String × Condition ν K)),
    ∀ operation, OPERATIONS.lookup entry.1 = some operation →
      ((Free src fun q => operation E src q params) ↔ entry.2 E src params) := by
  intro entry hentry operation hoperation
  simp only [CONDITIONS, List.mem_cons, List.not_mem_nil, or_false] at hentry
  rcases hentry with rfl | rfl | rfl | rfl | rfl | rfl | rfl | rfl
  · obtain rfl := Option.some.inj hoperation
    exact free_frequency_iff hexact.same
  · obtain rfl := Option.some.inj hoperation
    exact free_outliers_iff hdocumented hexact
  · obtain rfl := Option.some.inj hoperation
    exact free_pearson_iff hdocumented hexact
  · obtain rfl := Option.some.inj hoperation
    exact free_spearman_iff hdocumented hexact
  · obtain rfl := Option.some.inj hoperation
    exact free_linearRegression_iff hdocumented hexact
  · obtain rfl := Option.some.inj hoperation
    exact free_tTest_iff hdocumented hexact
  · obtain rfl := Option.some.inj hoperation
    exact free_anova_iff hdocumented hexact.same
  · obtain rfl := Option.some.inj hoperation
    exact free_timeSeries_iff hexact

theorem lookup_of_mem_operations : ∀ entry ∈ (OPERATIONS : List (String × Operation ν K)),
    OPERATIONS.lookup entry.1 = some entry.2 := by
  intro entry hentry
  simp only [OPERATIONS, List.mem_cons, List.not_mem_nil, or_false] at hentry
  rcases hentry with rfl | rfl | rfl | rfl | rfl | rfl | rfl | rfl | rfl | rfl | rfl | rfl | rfl | rfl | rfl | rfl |
    rfl | rfl | rfl | rfl | rfl <;> rfl

theorem mem_of_lookup_eq_some {κ β : Type} [BEq κ] [LawfulBEq κ] {items : List (κ × β)} {key : κ} {value : β}
    (h : items.lookup key = some value) : (key, value) ∈ items := by
  obtain ⟨before, after, rfl, -⟩ := List.lookup_eq_some_iff.mp h
  simp

/-- Below the cap, an operation does not depend on the order in which its queries return the rows exactly if its
condition is met. -/
theorem orderFree_iff {F : Functions K} (hdocumented : Documented E.toLibraries F) (hexact : Exact E src)
    (hcap : src.rows.length ≤ src.cap) (params : PyJson) :
    ∀ entry ∈ (OPERATIONS : List (String × Operation ν K)),
      OrderFree E src params entry.2 ↔ Settled entry.1 E src params := by
  intro entry hentry
  rw [orderFree_iff_free hcap]
  cases hcondition : (CONDITIONS : List (String × Condition ν K)).lookup entry.1 with
  | none => exact iff_of_true (free_of_none hdocumented hexact entry hentry hcondition) (settled_of_none hcondition)
  | some condition =>
    rw [settled_iff hcondition]
    exact free_iff_condition hdocumented hexact (entry.1, condition) (mem_of_lookup_eq_some hcondition) entry.2
      (lookup_of_mem_operations entry hentry)

/-! ## Values that are equally common -/

theorem exact_plain {columns : List DBColumn} {rows : List (Row (Int ⊕ String))}
    (hnumbers : ∀ column ∈ columns, column.dataType ∈ NUMERIC_TYPES → ∀ r ∈ rows, ∀ v,
      r.value (plainSource columns rows).valueType column.name = some v → v.isLeft = true) :
    Exact plainEnvironment (plainSource columns rows) where
  numbers column hcolumn hnumeric r hr v hv := by
    cases v with
    | inl n => trivial
    | inr s => exact absurd (hnumbers column hcolumn hnumeric r hr _ hv) Bool.false_ne_true
  same a b := decide_eq_true_iff
  trans a b c hab hbc := by
    cases a <;> cases b <;> cases c <;> simp_all [plainEnvironment]
    · exact le_trans hab hbc
    · exact String.le_trans hab hbc
  total a b := by
    cases a <;> cases b <;> simp [plainEnvironment]
    · exact le_total _ _
    · exact String.le_total _ _
  antisymm a b hab hba := by
    cases a <;> cases b <;> simp_all [plainEnvironment]
    · exact le_antisymm hab hba
    · exact String.le_antisymm hab hba

theorem exact_sales : Exact plainEnvironment sales :=
  exact_plain (by decide)

/-- The sales of each quantity. -/
def perQuantity : PyJson := .dict [("column".toList, .str "quantity".toList)]

theorem orderFree_iff_sales : OrderFree plainEnvironment sales perQuantity opFrequencyDistribution ↔
    Settled "frequency_distribution" plainEnvironment sales perQuantity :=
  orderFree_iff documented_plain exact_sales (by decide) perQuantity ("frequency_distribution", opFrequencyDistribution)
    (by simp [OPERATIONS])

/-- Each quantity is there once, and the quantities are listed in the order of the rows. -/
theorem not_orderFree_sales : Exact plainEnvironment sales ∧ sales.rows.length ≤ sales.cap ∧
    ¬ OrderFree plainEnvironment sales perQuantity opFrequencyDistribution := by
  have hcap : sales.rows.length ≤ sales.cap := by decide
  refine ⟨exact_sales, hcap, fun h => ?_⟩
  rw [orderFree_iff_free hcap, free_frequency_iff exact_sales.same] at h
  have hlisted := h (.str "quantity".toList) quantity 10 ⟨rfl, rfl⟩ (by decide) ⟨.int 10, rfl, rfl⟩
  have hvalues : presentOf sales quantity = [.inl 1, .inl 2, .inl 3] := rfl
  have hone : .inl 1 ∈ presentOf sales quantity := hvalues ▸ List.mem_cons_self
  have htwo : .inl 2 ∈ presentOf sales quantity := hvalues ▸ List.mem_cons_of_mem _ List.mem_cons_self
  have hcommon := hlisted _ hone _ htwo rfl (by decide)
  exact absurd hcommon (by decide)

end Analytics
