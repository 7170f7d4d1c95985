import IntraCloud.Statistics.Libraries
import IntraCloud.Statistics.Proofs.SamplesProofs

/-!
# Functions that are as documented

A statistic by ranks is one of the order of the values, infinite ones among them. The exact functions are as
documented.
-/

namespace Statistics

variable {K : Type} {xs ys : List (Double K)}

/-! ## Arrays of numbers -/

/-- An array of numbers, and one that holds something else. -/
theorem finites_cases (xs : List (Double K)) :
    (∃ zs, xs = zs.map .finite ∧ finites xs = some zs) ∨ (¬ AllDefined xs ∧ finites xs = none) := by
  induction xs with
  | nil => exact .inl ⟨[], rfl, rfl⟩
  | cons x xs ih =>
    cases x with
    | finite x =>
      rcases ih with ⟨zs, rfl, hzs⟩ | ⟨hxs, hnone⟩
      · exact .inl ⟨x :: zs, rfl, by simp [finites, hzs]⟩
      · exact .inr ⟨fun h => hxs fun y hy => h y (List.mem_cons_of_mem _ hy), by simp [finites, hnone]⟩
    | infinite negative => exact .inr ⟨fun h => h _ List.mem_cons_self, rfl⟩
    | nan => exact .inr ⟨fun h => h _ List.mem_cons_self, rfl⟩

theorem finites_map (zs : List K) : finites (zs.map .finite) = some zs := by
  rcases finites_cases (zs.map (Double.finite : K → Double K)) with ⟨zs', heq, hzs⟩ | ⟨hnot, -⟩
  · rw [hzs, map_finite_injective heq]
  · exact absurd (allDefined_map zs) hnot

theorem finiteSamples_cases (samples : List (List (Double K))) :
    (∃ zss : List (List K), samples = zss.map (List.map .finite) ∧ finiteSamples samples = some zss) ∨
      (¬ ∀ xs ∈ samples, AllDefined xs) ∧ finiteSamples samples = none := by
  induction samples with
  | nil => exact .inl ⟨[], rfl, rfl⟩
  | cons xs samples ih =>
    rcases finites_cases xs with ⟨zs, rfl, hzs⟩ | ⟨hxs, hnone⟩
    · rcases ih with ⟨zss, rfl, hzss⟩ | ⟨hsamples, hnone⟩
      · exact .inl ⟨zs :: zss, rfl, by simp [finiteSamples, hzs, hzss]⟩
      · exact .inr ⟨fun h => hsamples fun ys hys => h ys (List.mem_cons_of_mem _ hys),
          by simp [finiteSamples, hzs, hnone]⟩
    · exact .inr ⟨fun h => hxs (h _ List.mem_cons_self), by simp [finiteSamples, hnone]⟩

theorem ofSample_map (statistic : List K → K) (zs : List K) :
    ofSample statistic (zs.map .finite) = .finite (statistic zs) := by
  rw [ofSample, finites_map]

theorem ofSamples_map {α : Type} (statistic : List K → List K → α) (undefined : α) (zs ws : List K) :
    ofSamples statistic undefined (zs.map .finite) (ws.map .finite) = statistic zs ws := by
  rw [ofSamples, finites_map, finites_map]

/-- Nothing is computed of arrays that hold something else. -/
theorem ofSamples_undefined {α : Type} (statistic : List K → List K → α) (undefined : α)
    (h : ¬ (AllDefined xs ∧ AllDefined ys)) : ofSamples statistic undefined xs ys = undefined := by
  rw [ofSamples]
  rcases finites_cases xs with ⟨zs, rfl, -⟩ | ⟨-, hnone⟩
  · rcases finites_cases ys with ⟨ws, rfl, -⟩ | ⟨-, hnone⟩
    · exact absurd ⟨allDefined_map zs, allDefined_map ws⟩ h
    · rw [hnone, finites_map]
  · rw [hnone]

/-! ## Places -/

section Places

variable [Arithmetic K] {F : Functions K} {L : Libraries K}

theorem strictMono_place : StrictMono fun x : K => (Double.finite x).place := fun x y h => by
  show ((x : WithTop K) : WithBot (WithTop K)) < ((y : WithTop K) : WithBot (WithTop K))
  exact WithBot.coe_lt_coe.mpr (WithTop.coe_lt_coe.mpr h)

theorem spearmanr_place (zs ws : List K) :
    spearmanr F ((zs.map Double.finite).map Double.place) ((ws.map Double.finite).map Double.place) =
      spearmanr F zs ws := by
  rw [List.map_map, List.map_map]
  exact spearmanr_map strictMono_place zs ws

theorem allEqual_place_iff (h : Ranked xs) : AllEqual (xs.map Double.place) ↔ AllEqual xs := by
  constructor
  · intro hall x hx y hy
    exact place_inj (h x hx) (h y hy) (hall _ (List.mem_map_of_mem hx) _ (List.mem_map_of_mem hy))
  · intro hall _ hx _ hy
    obtain ⟨x, hxs, rfl⟩ := List.mem_map.mp hx
    obtain ⟨y, hys, rfl⟩ := List.mem_map.mp hy
    rw [hall x hxs y hys]

/-- Of numbers, the coefficient is that of their ranks. -/
theorem Documented.spearmanr_numbers (h : Documented L F) {zs ws : List K} (hlength : zs.length = ws.length)
    (hthree : 3 ≤ zs.length) :
    L.spearmanr (zs.map .finite) (ws.map .finite) = some (Statistics.spearmanr F zs ws) := by
  rw [h.spearmanr _ _ (by simpa using hlength) (by simpa using hthree) (ranked_of_allDefined (allDefined_map zs))
    (ranked_of_allDefined (allDefined_map ws)), spearmanr_place]

/-! ## Statistics that are numbers -/

section Defined

variable (h : Documented L F)

include h

theorem Documented.pearsonr_defined (hlength : xs.length = ys.length) (hthree : 3 ≤ xs.length) :
    ∃ r p, L.pearsonr xs ys = some (r, p) ∧ (BothDefined (r, p) ↔ Varies xs ∧ Varies ys) := by
  by_cases hdefined : AllDefined xs ∧ AllDefined ys
  · obtain ⟨zs, rfl⟩ := exists_of_allDefined hdefined.1
    obtain ⟨ws, rfl⟩ := exists_of_allDefined hdefined.2
    refine ⟨_, _, h.pearsonr zs ws (by simpa using hlength) (by simpa using hthree), ?_⟩
    rw [varies_map, varies_map]
    exact bothDefined_pearsonr_iff
  · obtain ⟨r, p, hresult, hr⟩ := h.pearsonr_undefined xs ys hlength hthree hdefined
    exact ⟨r, p, hresult, iff_of_false (fun hboth => hr hboth.1) fun hvary => hdefined ⟨hvary.1.1, hvary.2.1⟩⟩

theorem Documented.spearmanr_defined (hlength : xs.length = ys.length) (hthree : 3 ≤ xs.length) :
    ∃ rho p, L.spearmanr xs ys = some (rho, p) ∧ (BothDefined (rho, p) ↔ RanksVary xs ∧ RanksVary ys) := by
  by_cases hranked : Ranked xs ∧ Ranked ys
  · refine ⟨_, _, h.spearmanr xs ys hlength hthree hranked.1 hranked.2, ?_⟩
    have hvary : ∀ {zs : List (Double K)}, Ranked zs → (RanksVary zs ↔ ¬ AllEqual (zs.map Double.place)) := by
      intro zs hzs
      rw [allEqual_place_iff hzs, not_allEqual_iff]
      exact and_iff_right hzs
    rw [hvary hranked.1, hvary hranked.2]
    exact bothDefined_spearmanr_iff
  · obtain ⟨rho, p, hresult, hrho⟩ := h.spearmanr_undefined xs ys hlength hthree hranked
    exact ⟨rho, p, hresult, iff_of_false (fun hboth => hrho hboth.1) fun hvary => hranked ⟨hvary.1.1, hvary.2.1⟩⟩

theorem Documented.linregress_defined (hlength : xs.length = ys.length) (hthree : 3 ≤ xs.length) :
    (∀ line, L.linregress xs ys = some line → line.Defined) ↔
      L.constantRaises = true ∧ Constant xs ∨ Varies xs ∧ Varies ys := by
  by_cases hraises : L.constantRaises = true ∧ Constant xs
  · refine iff_of_true (fun line hline => ?_) (.inl hraises)
    rw [h.linregress_raises hraises.1 xs ys hlength hthree hraises.2] at hline
    cases hline
  · rw [or_iff_right hraises]
    by_cases hdefined : AllDefined xs ∧ AllDefined ys
    · obtain ⟨zs, rfl⟩ := exists_of_allDefined hdefined.1
      obtain ⟨ws, rfl⟩ := exists_of_allDefined hdefined.2
      rw [List.length_map, List.length_map] at hlength
      rw [List.length_map] at hthree
      rw [varies_map, varies_map]
      rw [constant_map_iff] at hraises
      by_cases hequal : AllEqual zs
      · have hfalse : L.constantRaises = false := Bool.eq_false_of_not_eq_true fun htrue => hraises ⟨htrue, hequal⟩
        refine iff_of_false (fun hall => ?_) fun hvary => hvary.1 hequal
        exact (hall _ (h.linregress_constant hfalse zs ws hlength hthree hequal)).slope
      · rw [h.linregress zs ws hlength hthree hequal]
        constructor
        · intro hall
          exact ⟨hequal, defined_linregress_iff.mp (hall _ rfl)⟩
        · rintro ⟨-, hvary⟩ line hline
          rw [← Option.some.inj hline]
          exact defined_linregress_iff.mpr hvary
    · have hcase : L.constantRaises = false ∨ ¬ Constant xs := by
        by_contra hnot
        obtain ⟨htrue, hconstant⟩ := not_or.mp hnot
        exact hraises ⟨Bool.eq_true_of_not_eq_false htrue, not_not.mp hconstant⟩
      obtain ⟨line, hresult, hslope⟩ := h.linregress_undefined xs ys hlength hthree hcase hdefined
      exact iff_of_false (fun hall => hslope (hall line hresult).slope) fun hvary =>
        hdefined ⟨hvary.1.1, hvary.2.1⟩

theorem Documented.ttestInd_defined (hx : 2 ≤ xs.length) (hy : 2 ≤ ys.length) :
    ∃ t p, L.ttestInd xs ys = some (t, p) ∧
      (BothDefined (t, p) ↔ AllDefined xs ∧ AllDefined ys ∧ (Varies xs ∨ Varies ys)) := by
  by_cases hdefined : AllDefined xs ∧ AllDefined ys
  · obtain ⟨zs, rfl⟩ := exists_of_allDefined hdefined.1
    obtain ⟨ws, rfl⟩ := exists_of_allDefined hdefined.2
    rw [List.length_map] at hx hy
    refine ⟨_, _, h.ttestInd zs ws hx hy, ?_⟩
    rw [varies_map, varies_map, and_iff_right hdefined.1, and_iff_right hdefined.2, ← not_and_or]
    exact bothDefined_ttestInd_iff hx hy
  · obtain ⟨t, p, hresult, ht⟩ := h.ttestInd_undefined xs ys hx hy hdefined
    exact ⟨t, p, hresult, iff_of_false (fun hboth => ht hboth.1) fun hall => hdefined ⟨hall.1, hall.2.1⟩⟩

theorem Documented.convolve_defined {window : Nat} (hpositive : 0 < window) (hlength : window ≤ xs.length)
    (hdefined : AllDefined xs) : AllDefined (L.convolve xs window) := by
  obtain ⟨zs, rfl⟩ := exists_of_allDefined hdefined
  rw [h.convolve zs window hpositive (by simpa using hlength)]
  intro x hx
  obtain ⟨i, -, rfl⟩ := List.mem_map.mp hx
  trivial

omit [Arithmetic K] h in
/-- Samples of at least two values hold more values than there are samples. -/
theorem length_lt_flatten {zss : List (List K)} (hne : zss ≠ []) (hsize : ∀ zs ∈ zss, 2 ≤ zs.length) :
    zss.length < zss.flatten.length := by
  have hdouble : 2 * zss.length ≤ zss.flatten.length := by
    clear hne
    induction zss with
    | nil => exact Nat.le_refl 0
    | cons zs zss ih =>
      have hhead := hsize zs List.mem_cons_self
      have htail := ih fun ws hws => hsize ws (List.mem_cons_of_mem _ hws)
      rw [List.flatten_cons, List.length_append, List.length_cons]
      omega
  have hpos : 0 < zss.length := List.length_pos_iff.mpr hne
  omega

theorem Documented.fOneway_defined {samples : List (List (Double K))} (hmany : 2 ≤ samples.length)
    (hsize : ∀ xs ∈ samples, 2 ≤ xs.length) : ∃ f p, L.fOneway samples = some (f, p) ∧
      (BothDefined (f, p) ↔ (∀ xs ∈ samples, AllDefined xs) ∧ ∃ xs ∈ samples, Varies xs) := by
  by_cases hdefined : ∀ xs ∈ samples, AllDefined xs
  · obtain ⟨zss, rfl⟩ : ∃ zss : List (List K), samples = zss.map (List.map .finite) := by
      rcases finiteSamples_cases samples with ⟨zss, heq, -⟩ | ⟨hnot, -⟩
      · exact ⟨zss, heq⟩
      · exact absurd hdefined hnot
    rw [List.length_map] at hmany
    have hsizes : ∀ zs ∈ zss, 2 ≤ zs.length := fun zs hzs => by simpa using hsize _ (List.mem_map_of_mem hzs)
    have hne : zss ≠ [] := List.ne_nil_of_length_pos (by omega)
    refine ⟨_, _, h.fOneway zss hmany hsizes, ?_⟩
    rw [and_iff_right hdefined]
    refine (bothDefined_fOneway_iff (length_lt_flatten hne hsizes)).trans ?_
    simp only [List.mem_map, exists_exists_and_eq_and, varies_map]
    push Not
    exact Iff.rfl
  · obtain ⟨f, p, hresult, hf⟩ := h.fOneway_undefined samples hmany hsize hdefined
    exact ⟨f, p, hresult, iff_of_false (fun hboth => hf hboth.1) fun hall => hdefined hall.1⟩

theorem Documented.chi2Contingency_defined {table : List (List Nat)} (hfilled : Filled table) :
    ∃ statistic p dof, L.chi2Contingency table = some (statistic, p, dof) ∧ statistic.Defined ∧ p.Defined :=
  ⟨_, _, _, h.chi2Contingency table fun _ hc => expected_ne_zero hfilled hc, defined_chi2Contingency⟩

end Defined

/-! ## The exact functions -/

variable {constantRaises : Bool}

theorem constant_iff_all (xs : List (Double K)) :
    (xs.all fun x => x != .nan && xs.all fun y => x == y) = true ↔ Constant xs := by
  simp only [List.all_eq_true, Bool.and_eq_true, bne_iff_ne, beq_iff_eq, Constant, Ranked]
  exact ⟨fun h => ⟨fun x hx => (h x hx).1, fun x hx => (h x hx).2⟩, fun h x hx => ⟨h.1 x hx, h.2 x hx⟩⟩

theorem documented_exact (hroot : ∀ x, 0 < x → F.sqrt x ≠ 0) : Documented (exactLibraries F constantRaises) F where
  root := hroot
  sum xs := ofSample_map _ xs
  mean xs _ := ofSample_map _ xs
  median xs _ := ofSample_map _ xs
  min xs _ := ofSample_map _ xs
  max xs _ := ofSample_map _ xs
  std xs _ := ofSample_map _ xs
  var xs _ := ofSample_map _ xs
  percentile xs _ _ _ _ := ofSample_map _ xs
  convolve xs window _ _ := by
    show (List.range ((xs.map Double.finite).length - window + 1)).map _ = _
    rw [List.length_map]
    refine List.map_congr_left fun i _ => ?_
    rw [← List.map_drop, ← List.map_take, ofSample_map]
  pearsonr xs ys _ _ := congrArg some (ofSamples_map _ _ xs ys)
  pearsonr_undefined xs ys _ _ h := ⟨.nan, .nan, congrArg some (ofSamples_undefined _ _ h), id⟩
  spearmanr xs ys _ _ hx hy := by
    have hnone : ¬ ((xs ++ ys).any fun x => x == .nan) = true := by
      simp only [List.any_eq_true, List.mem_append, beq_iff_eq, exists_eq_right]
      rintro (h | h)
      · exact hx _ h rfl
      · exact hy _ h rfl
    exact if_neg hnone
  spearmanr_undefined xs ys _ _ h := by
    refine ⟨.nan, .nan, if_pos ?_, id⟩
    simp only [List.any_eq_true, List.mem_append, beq_iff_eq, exists_eq_right]
    by_contra hnot
    obtain ⟨hx, hy⟩ := not_or.mp hnot
    exact h ⟨fun x hmem heq => hx (heq ▸ hmem), fun y hmem heq => hy (heq ▸ hmem)⟩
  linregress xs ys _ _ h := by
    have hvaries : ¬ (constantRaises && ((xs.map Double.finite).all fun x => x != .nan &&
        (xs.map Double.finite).all fun y => x == y)) = true := by
      rw [Bool.and_eq_true, constant_iff_all, constant_map_iff]
      exact fun hall => h hall.2
    refine (if_neg hvaries).trans (congrArg some ?_)
    rw [ofSamples_map, if_neg fun heq => h (minimum_eq_maximum_iff.mp heq)]
  linregress_raises hraises xs ys _ _ h := by
    refine if_pos ?_
    rw [Bool.and_eq_true, constant_iff_all]
    exact ⟨hraises, h⟩
  linregress_constant hraises xs ys _ _ h := by
    have hnot : ¬ (constantRaises && ((xs.map Double.finite).all fun x => x != .nan &&
        (xs.map Double.finite).all fun y => x == y)) = true := by
      rw [Bool.and_eq_true]
      intro hall
      exact absurd (hraises.symm.trans hall.1) Bool.false_ne_true
    refine (if_neg hnot).trans (congrArg some ?_)
    rw [ofSamples_map, if_pos (minimum_eq_maximum_iff.mpr h)]
  linregress_undefined xs ys _ _ hcase h := by
    have hnot : ¬ (constantRaises && (xs.all fun x => x != .nan && xs.all fun y => x == y)) = true := by
      rw [Bool.and_eq_true, constant_iff_all]
      rintro ⟨hraises, hconstant⟩
      rcases hcase with hcase | hcase
      · exact absurd (hcase.symm.trans hraises) Bool.false_ne_true
      · exact hcase hconstant
    exact ⟨_, (if_neg hnot).trans (congrArg some (ofSamples_undefined _ _ h)), id⟩
  ttestInd xs ys _ _ := congrArg some (ofSamples_map _ _ xs ys)
  ttestInd_undefined xs ys _ _ h := ⟨.nan, .nan, congrArg some (ofSamples_undefined _ _ h), id⟩
  chi2Contingency table h := by
    refine if_neg ?_
    rw [List.any_eq_true]
    rintro ⟨c, hc, hzero⟩
    exact h c hc (of_decide_eq_true hzero)
  fOneway samples _ _ := by
    rcases finiteSamples_cases (samples.map (List.map (Double.finite (K := K)))) with ⟨zss, heq, hzss⟩ | ⟨hnot, -⟩
    · have hsame : samples = zss := List.map_injective_iff.mpr map_finite_injective heq
      show some (((finiteSamples _).map (Statistics.fOneway F)).getD (.nan, .nan)) = _
      rw [hzss, hsame]
      rfl
    · refine absurd (fun xs hxs => ?_) hnot
      obtain ⟨zs, -, rfl⟩ := List.mem_map.mp hxs
      exact allDefined_map zs
  fOneway_undefined samples _ _ h := by
    rcases finiteSamples_cases samples with ⟨zss, rfl, -⟩ | ⟨-, hnone⟩
    · refine absurd (fun xs hxs => ?_) h
      obtain ⟨zs, -, rfl⟩ := List.mem_map.mp hxs
      exact allDefined_map zs
    · refine ⟨.nan, .nan, ?_, id⟩
      show some (((finiteSamples samples).map (Statistics.fOneway F)).getD (.nan, .nan)) = _
      rw [hnone]
      rfl

end Places

end Statistics
