import IntraCloud.Analytics.Paired
import IntraCloud.Relational.Pairing

/-!
# The pairs of the paired operations

What the operations make of two queries is what `Relational.PairsTrue` is about, with the three values that they
ask for and the row cap.
-/

namespace Analytics

open Databases Relational

variable {ν φ : Type} {src : Source ν φ} {columnX columnY : String} {fetchedX fetchedY : List (Row ν)}

/-! ## The series -/

theorem numericSeries_numeric (hx : src.IsNumeric columnX) (fetched : List (Row ν)) :
    numericSeries src fetched columnX =
      .ok (fetched.filterMap (src.number columnX), src.rows.length, decide (src.cap < src.rows.length)) := by
  obtain ⟨c, hc, htype⟩ := hx
  have hname : c.name = columnX := by
    unfold getColumn at hc
    split at hc
    · cases hc
    · next c' hfind =>
      cases hc
      exact eq_of_beq (List.find?_some (p := fun c : DBColumn => c.name == columnX) hfind)
  have hvalues : (fetched.map fun r => [c.name].map (r.value src.valueType)).filterMap
      (fun row => (row.head?.join).map src.float) = fetched.filterMap (src.number columnX) := by
    rw [List.filterMap_map, hname]
    rfl
  unfold numericSeries
  rw [hc]
  simp only [requireTypes, htype, if_true, fetchColumns, hvalues]

theorem pairedSample_numeric (hx : src.IsNumeric columnX) (hy : src.IsNumeric columnY) (sample : Sample φ) :
    pairedSample src fetchedX fetchedY columnX columnY = .ok sample ↔
      3 ≤ min (fetchedX.filterMap (src.number columnX)).length (fetchedY.filterMap (src.number columnY)).length ∧
        sample =
          let xs := fetchedX.filterMap (src.number columnX)
          let ys := fetchedY.filterMap (src.number columnY)
          ⟨xs.take (min xs.length ys.length), ys.take (min xs.length ys.length),
            decide (src.cap < src.rows.length)⟩ := by
  unfold pairedSample
  rw [numericSeries_numeric hx, numericSeries_numeric hy]
  simp only [requireMinN, Bool.or_self]
  split
  · next hfew =>
    split at hfew
    · next hlt =>
      constructor
      · intro h
        cases h
      · intro h
        exact absurd h.1 (Nat.not_le.mpr hlt)
    · cases hfew
  · next hmany =>
    split at hmany
    · cases hmany
    · next hle =>
      rw [Except.ok.injEq]
      exact ⟨fun h => ⟨Nat.not_lt.mp hle, h.symm⟩, fun h => h.2.symm⟩

/-! ## The pairs -/

theorem zip_sample (xs ys : List φ) :
    (xs.take (min xs.length ys.length)).zip (ys.take (min xs.length ys.length)) = xs.zip ys :=
  List.zip_eq_zip_take_min.symm

theorem pairsTrue_of_usesTruePairs {op : PairedOperation φ} (hx : src.IsNumeric columnX)
    (hy : src.IsNumeric columnY) (h : op.UsesTruePairs src columnX columnY) :
    PairsTrue 3 src.cap (src.number columnX) (src.number columnY) src.rows := by
  intro fx fy hfx hfy hvx hvy
  have hsample := (pairedSample_numeric hx hy _).mpr ⟨Nat.le_min.mpr ⟨hvx, hvy⟩, rfl⟩
  have hused := h fx fy hfx hfy _ hsample
  simp only [zip_sample] at hused
  exact ⟨(hused fx (List.mem_cons_self ..)).2.1, (hused fy (List.mem_cons_of_mem _ (List.mem_cons_self ..))).2.1⟩

/-- `sample_size` in the results of the three operations. -/
theorem sampleSize_of_run {stats : ScipyStats φ} {op : PairedOperation φ} (hop : op ∈ pairedOperations stats)
    {sample : Sample φ} {result : List (String × Field φ)}
    (hsample : pairedSample src fetchedX fetchedY columnX columnY = .ok sample)
    (hrun : op.run src fetchedX fetchedY columnX columnY = .ok result) :
    result.lookup "sample_size" = some (.count sample.x.length) := by
  unfold PairedOperation.run at hrun
  rw [hsample] at hrun
  simp only at hrun
  cases hnumbers : op.statistic sample.x sample.y with
  | none =>
    rw [hnumbers] at hrun
    cases hrun
  | some numbers =>
    rw [hnumbers] at hrun
    obtain rfl := Except.ok.inj hrun
    simp only [pairedOperations, List.mem_cons, List.not_mem_nil, or_false] at hop
    rcases hop with rfl | rfl | rfl
    · obtain ⟨⟨r, p⟩, -, rfl⟩ := Option.map_eq_some_iff.mp hnumbers
      rfl
    · obtain ⟨⟨r, p⟩, -, rfl⟩ := Option.map_eq_some_iff.mp hnumbers
      rfl
    · obtain ⟨fit, -, rfl⟩ := Option.map_eq_some_iff.mp hnumbers
      rfl

theorem usesTruePairs_of_pairsTrue {stats : ScipyStats φ} {op : PairedOperation φ}
    (hop : op ∈ pairedOperations stats) (hx : src.IsNumeric columnX) (hy : src.IsNumeric columnY)
    (h : PairsTrue 3 src.cap (src.number columnX) (src.number columnY) src.rows) :
    op.UsesTruePairs src columnX columnY := by
  intro fx fy hfx hfy sample hsample fetched hfetched
  obtain ⟨hmany, hsampled⟩ := (pairedSample_numeric hx hy sample).mp hsample
  obtain ⟨hvx, hvy⟩ := Nat.le_min.mp hmany
  obtain ⟨hpx, hpy⟩ := h fx fy hfx hfy hvx hvy
  have hzip : sample.x.zip sample.y =
      (fx.filterMap (src.number columnX)).zip (fy.filterMap (src.number columnY)) := by
    rw [hsampled]
    exact zip_sample _ _
  have hlength : sample.x.length = sample.y.length := by
    rw [hsampled, List.length_take, List.length_take]
    omega
  have hperm : (sample.x.zip sample.y).Perm (truePairs (src.number columnX) (src.number columnY) fetched) := by
    rw [hzip]
    rcases List.mem_cons.mp hfetched with rfl | hfetched
    · exact hpx
    · rw [List.mem_singleton] at hfetched
      rwa [hfetched]
  refine ⟨hlength, hperm, fun result hrun => ?_⟩
  rw [sampleSize_of_run hop hsample hrun, ← hperm.length_eq, List.length_zip, ← hlength, Nat.min_self]

/-- The operations use true pairs of columns that leave nothing to pair, and of no others. -/
theorem usesTruePairs_iff (stats : ScipyStats φ) (src : Source ν φ) (columnX columnY : String)
    (hx : src.IsNumeric columnX) (hy : src.IsNumeric columnY) :
    (∀ op ∈ pairedOperations stats, op.UsesTruePairs src columnX columnY) ↔
      Paired 3 src.cap (src.number columnX) (src.number columnY) src.rows := by
  rw [← pairsTrue_iff_paired (by omega)]
  constructor
  · intro h
    exact pairsTrue_of_usesTruePairs hx hy (h (opPearsonCorrelation stats) (List.mem_cons_self ..))
  · intro h op hop
    exact usesTruePairs_of_pairsTrue hop hx hy h

/-! ## A column with a NULL -/

/-- Four orders, the first of which has no amount yet. -/
def orders : Source Int Int where
  valueType := ⟨fun n => n, fun m n => m == n, fun n => (toString n).toList⟩
  cap := 200000
  columns := [⟨2, 1, "quantity", .integer, none, none, none, false, true, false, none⟩,
    ⟨3, 1, "amount", .bigint, none, none, none, false, true, false, none⟩]
  rows := [⟨11, [("quantity", 1)]⟩, ⟨12, [("quantity", 2), ("amount", 2)]⟩, ⟨13, [("quantity", 3), ("amount", 3)]⟩,
    ⟨14, [("quantity", 4), ("amount", 4)]⟩]
  float := id

/-- The statistics of points on a line that rises by one. -/
def lineStats : ScipyStats Int where
  pearsonr _ _ := some (1, 0)
  spearmanr _ _ := some (1, 0)
  linregress x y := some ⟨1, y.headD 0 - x.headD 0, 1, 0, 0⟩
  square r := r * r

theorem isNumeric_orders : orders.IsNumeric "quantity" ∧ orders.IsNumeric "amount" :=
  ⟨⟨_, rfl, by decide⟩, ⟨_, rfl, by decide⟩⟩

theorem usesTruePairs_iff_orders :
    (∀ op ∈ pairedOperations lineStats, op.UsesTruePairs orders "quantity" "amount") ↔
      Paired 3 orders.cap (orders.number "quantity") (orders.number "amount") orders.rows :=
  usesTruePairs_iff lineStats orders "quantity" "amount" isNumeric_orders.1 isNumeric_orders.2

/-- The amount of the second order is paired with the quantity of the first. -/
theorem not_usesTruePairs_orders :
    ¬ ∀ op ∈ pairedOperations lineStats, op.UsesTruePairs orders "quantity" "amount" := by
  intro h
  have hall : Fetches orders.cap orders.rows orders.rows := ⟨[], List.Perm.refl _, rfl⟩
  have hsample : pairedSample orders orders.rows orders.rows "quantity" "amount" =
      .ok ⟨[1, 2, 3], [2, 3, 4], false⟩ := rfl
  have hused := h (opPearsonCorrelation lineStats) (List.mem_cons_self ..) _ _ hall hall _ hsample orders.rows
    (List.mem_cons_self ..)
  have hpairs : truePairs (orders.number "quantity") (orders.number "amount") orders.rows =
      [(2, 2), (3, 3), (4, 4)] := rfl
  rw [hpairs] at hused
  have hfirst : ((1, 2) : Int × Int) ∈ [((2, 2) : Int × Int), (3, 3), (4, 4)] :=
    hused.2.1.mem_iff.mp (List.mem_cons_self ..)
  revert hfirst
  decide

end Analytics
