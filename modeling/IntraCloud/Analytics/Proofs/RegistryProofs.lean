import IntraCloud.Analytics.Registry
import IntraCloud.Python.Proofs.JsonValueProofs
import Mathlib.Data.List.Forall2
import Mathlib.Tactic.ByContra
import Mathlib.Tactic.SplitIfs

/-!
# Which widgets abort a dashboard

Every operation indexes its parameters first, which fails with an error that is caught, but for the two that begin
with `params.get`. Of these the one that takes several columns may ask for more than the server returns.
-/

namespace Analytics

open Audit Databases Python Statistics

variable {ν K : Type}

/-! ## Exceptions that are caught -/

/-- Whatever is raised is caught. -/
def Tame {α : Type} (x : Except (Raised ν) α) : Prop := ∀ e, x = .error e → e.caught = true

section Tame

variable {α β : Type} {E : Environment ν K} {src : Source ν (Double K)}

theorem tame_ok (a : α) : Tame (.ok a : Except (Raised ν) α) := fun _ h => by cases h

theorem tame_error {e : Raised ν} (h : e.caught = true) : Tame (.error e : Except (Raised ν) α) := by
  intro e' he
  rwa [← Except.error.inj he]

theorem tame_bind {x : Except (Raised ν) α} {f : α → Except (Raised ν) β} (hx : Tame x)
    (hf : ∀ a, x = .ok a → Tame (f a)) : Tame (x >>= f) := by
  cases x with
  | error e => exact tame_error (hx e rfl)
  | ok a => exact hf a rfl

theorem tame_orRaise (x : Except OperationError α) : Tame (orRaise x : Except (Raised ν) α) := by
  cases x with
  | error e => exact tame_error rfl
  | ok a => exact tame_ok a

theorem tame_orValueError (x : Option α) : Tame (orValueError x : Except (Raised ν) α) := by
  cases x with
  | none => exact tame_error rfl
  | some a => exact tame_ok a

theorem tame_requireHashable (E : Environment ν K) (values : List (Option ν)) :
    Tame (requireHashable E values) := by
  unfold requireHashable
  split
  · exact tame_ok _
  · exact tame_error rfl

theorem tame_subscript (params : PyJson) (key : String) : Tame (subscript params key : Except (Raised ν) PyJson) := by
  unfold subscript
  split
  · split
    · exact tame_ok _
    · exact tame_error rfl
  · exact tame_error rfl

/-- What is indexed by a name is an object. -/
theorem dict_of_subscript {params value : PyJson} {key : String}
    (h : (subscript params key : Except (Raised ν) PyJson) = .ok value) : ∃ members, params = .dict members := by
  cases params with
  | dict members => exact ⟨members, rfl⟩
  | _ => cases h

theorem tame_getParam {params : PyJson} (h : ∃ members, params = .dict members) (key : String) (default : PyJson) :
    Tame (getParam params key default : Except (Raised ν) PyJson) := by
  obtain ⟨members, rfl⟩ := h
  exact tame_ok _

theorem tame_columnOf (columns : List DBColumn) (name : PyJson) :
    Tame (columnOf columns name : Except (Raised ν) DBColumn) := by
  cases name with
  | str s => exact tame_orRaise _
  | _ => exact tame_error rfl

theorem tame_series (fetched : List (Row ν)) (name : PyJson) : Tame (series src fetched name) := by
  cases name with
  | str s =>
    show Tame ((orRaise (numericSeries src fetched (String.ofList s))).map _)
    cases numericSeries src fetched (String.ofList s) with
    | error e => exact tame_error rfl
    | ok r => exact tame_ok _
  | _ => exact tame_error rfl

theorem tame_fetch (fetched : List (Row ν)) {names : List String} (h : names.length ≤ MAX_TARGETS) :
    Tame (fetch src fetched names) := by
  unfold fetch
  rw [if_neg (Nat.not_lt.mpr h)]
  exact tame_ok _

/-- `int` of what is not an infinite `float`. -/
theorem tame_toInt {value : PyJson} (h : ∀ literal, value = .float literal → (E.truncate literal).isSome = true) :
    Tame (toInt E value) := by
  cases value with
  | bool b => exact tame_ok _
  | int n => exact tame_ok _
  | float literal =>
    obtain ⟨n, hn⟩ := Option.isSome_iff_exists.mp (h literal rfl)
    have hint : toInt E (.float literal) = .ok n := by
      unfold toInt
      dsimp only
      rw [hn]
    rw [hint]
    exact tame_ok n
  | str s =>
    unfold toInt
    dsimp only
    split
    · exact tame_ok _
    · exact tame_error rfl
  | _ => exact tame_error rfl

end Tame

/-! ## The operations -/

section Operations

variable {E : Environment ν K} {src : Source ν (Double K)} {q : Answers ν} {params : PyJson}

theorem tame_distinctCount : Tame (opDistinctCount E src q params) := by
  refine tame_bind (tame_subscript _ _) fun name _ => ?_
  refine tame_bind (tame_columnOf _ _) fun column _ => ?_
  refine tame_bind (tame_fetch _ (show 1 ≤ MAX_TARGETS by decide)) fun fetched _ => ?_
  exact tame_bind (tame_requireHashable _ _) fun _ _ => tame_ok _

theorem tame_descriptiveNumeric (opName label : String) (minimum : Nat)
    (reducer : Environment ν K → List (Double K) → Double K) :
    Tame (descriptiveNumeric opName label minimum reducer E src q params) := by
  refine tame_bind (tame_subscript _ _) fun name _ => ?_
  refine tame_bind (tame_series _ _) fun values _ => ?_
  exact tame_bind (tame_orRaise _) fun _ _ => tame_ok _

/-- No `float` among the parameters is infinite. -/
def FiniteParams (E : Environment ν K) (params : PyJson) : Prop :=
  ∀ members, params = .dict members → ∀ m ∈ members, ∀ literal, m.2 = .float literal →
    (E.truncate literal).isSome = true

/-- `int` of a parameter that is left out or no infinite `float`. -/
theorem tame_intParam (hfinite : FiniteParams E params) {key : String} {default : Int} {value : PyJson}
    (h : getParam params key (.int default) = (.ok value : Except (Raised ν) PyJson)) : Tame (toInt E value) := by
  refine tame_toInt fun literal hliteral => ?_
  cases params with
  | dict members =>
    have hvalue : (Json.member? key.toList members).getD (.int default) = value := Except.ok.inj h
    cases hmember : Json.member? key.toList members with
    | none =>
      rw [hmember, hliteral] at hvalue
      cases hvalue
    | some v =>
      rw [hmember, Option.getD_some] at hvalue
      exact hfinite members rfl _ (Json.mem_of_member? hmember) literal (hvalue.trans hliteral)
  | _ => cases h

theorem tame_frequencyDistribution (hfinite : FiniteParams E params) :
    Tame (opFrequencyDistribution E src q params) := by
  refine tame_bind (tame_subscript _ _) fun name hname => ?_
  refine tame_bind (tame_columnOf _ _) fun column _ => ?_
  refine tame_bind (tame_orRaise _) fun _ _ => ?_
  refine tame_bind (tame_getParam (dict_of_subscript hname) _ _) fun value hvalue => ?_
  refine tame_bind (tame_intParam hfinite hvalue) fun topN _ => ?_
  exact tame_bind (tame_fetch _ (show 1 ≤ MAX_TARGETS by decide)) fun fetched _ => tame_ok _

theorem tame_tTest (a b : List (Double K)) (truncated : Bool) : Tame (tTest E a b truncated) := by
  refine tame_bind (tame_orRaise _) fun _ _ => ?_
  refine tame_bind (tame_orRaise _) fun _ _ => ?_
  exact tame_bind (tame_orValueError _) fun _ _ => tame_ok _

theorem tame_chiSquare : Tame (opChiSquare E src q params) := by
  refine tame_bind (tame_subscript _ _) fun nameA _ => ?_
  refine tame_bind (tame_columnOf _ _) fun colA _ => ?_
  refine tame_bind (tame_subscript _ _) fun nameB _ => ?_
  refine tame_bind (tame_columnOf _ _) fun colB _ => ?_
  refine tame_bind (tame_orRaise _) fun _ _ => ?_
  refine tame_bind (tame_orRaise _) fun _ _ => ?_
  refine tame_bind (tame_fetch _ (show 2 ≤ MAX_TARGETS by decide)) fun fetched _ => ?_
  refine tame_bind (tame_orRaise _) fun _ _ => ?_
  exact tame_bind (tame_orValueError _) fun _ _ => tame_ok _

theorem tame_anova : Tame (opAnova E src q params) := by
  refine tame_bind (tame_subscript _ _) fun valueName _ => ?_
  refine tame_bind (tame_columnOf _ _) fun valueCol _ => ?_
  refine tame_bind (tame_subscript _ _) fun groupName _ => ?_
  refine tame_bind (tame_columnOf _ _) fun groupCol _ => ?_
  refine tame_bind (tame_orRaise _) fun _ _ => ?_
  refine tame_bind (tame_orRaise _) fun _ _ => ?_
  refine tame_bind (tame_fetch _ (show 2 ≤ MAX_TARGETS by decide)) fun fetched _ => ?_
  dsimp only
  split
  · exact tame_error rfl
  · split
    · exact tame_error rfl
    · exact tame_bind (tame_orValueError _) fun _ _ => tame_ok _

variable [Arithmetic K]

theorem tame_missing : Tame (opMissing E src q params) := by
  refine tame_bind (tame_subscript _ _) fun name _ => ?_
  refine tame_bind (tame_columnOf _ _) fun column _ => ?_
  exact tame_bind (tame_fetch _ (show 1 ≤ MAX_TARGETS by decide)) fun fetched _ => tame_ok _

theorem tame_percentiles : Tame (opPercentiles E src q params) := by
  refine tame_bind (tame_subscript _ _) fun name hname => ?_
  refine tame_bind (tame_series _ _) fun values _ => ?_
  refine tame_bind (tame_orRaise _) fun _ _ => ?_
  refine tame_bind (tame_getParam (dict_of_subscript hname) _ _) fun percentiles _ => ?_
  split
  · exact tame_error rfl
  · split
    · exact tame_error rfl
    · split
      · exact tame_ok _
      · exact tame_error rfl

theorem tame_outlierDetection : Tame (opOutlierDetection E src q params) := by
  refine tame_bind (tame_subscript _ _) fun name _ => ?_
  refine tame_bind (tame_series _ _) fun values _ => ?_
  exact tame_bind (tame_orRaise _) fun _ _ => tame_ok _

theorem tame_paired (op : ScipyStats (Double K) → PairedOperation (Double K)) :
    Tame (paired op E src q params) := by
  refine tame_bind (tame_subscript _ _) fun nameX _ => ?_
  refine tame_bind (tame_series _ _) fun x _ => ?_
  refine tame_bind (tame_subscript _ _) fun nameY _ => ?_
  refine tame_bind (tame_series _ _) fun y _ => ?_
  exact tame_bind (tame_orRaise _) fun _ _ => tame_ok _

theorem tame_opTTest : Tame (opTTest E src q params) := by
  refine tame_bind (tame_subscript _ _) fun name hname => ?_
  refine tame_bind (tame_series _ _) fun a _ => ?_
  refine tame_bind (tame_getParam (dict_of_subscript hname) _ _) fun nameB _ => ?_
  dsimp only
  split
  · exact tame_bind (tame_series _ _) fun b _ => tame_tTest _ _ _
  · refine tame_bind (tame_subscript _ _) fun groupName _ => ?_
    refine tame_bind (tame_columnOf _ _) fun groupCol _ => ?_
    refine tame_bind (tame_orRaise _) fun _ _ => ?_
    refine tame_bind (tame_columnOf _ _) fun valueCol _ => ?_
    refine tame_bind (tame_fetch _ (show 2 ≤ MAX_TARGETS by decide)) fun fetched _ => ?_
    split
    · exact tame_tTest _ _ _
    · exact tame_error rfl

theorem tame_timeSeries {dateCol valueCol : DBColumn} {window : Int} {points : List (ν × Double K)}
    {truncated : Bool} : Tame (timeSeries E src dateCol valueCol window points truncated) := by
  refine tame_bind (tame_orRaise _) fun _ _ => ?_
  dsimp only
  split
  · exact tame_error rfl
  · exact tame_ok _

theorem tame_timeSeriesSummary (hfinite : FiniteParams E params) : Tame (opTimeSeriesSummary E src q params) := by
  refine tame_bind (tame_subscript _ _) fun dateName hname => ?_
  refine tame_bind (tame_columnOf _ _) fun dateCol _ => ?_
  refine tame_bind (tame_subscript _ _) fun valueName _ => ?_
  refine tame_bind (tame_columnOf _ _) fun valueCol _ => ?_
  refine tame_bind (tame_orRaise _) fun _ _ => ?_
  refine tame_bind (tame_orRaise _) fun _ _ => ?_
  refine tame_bind (tame_getParam (dict_of_subscript hname) _ _) fun value hvalue => ?_
  refine tame_bind (tame_intParam hfinite hvalue) fun window _ => ?_
  exact tame_bind (tame_fetch _ (show 2 ≤ MAX_TARGETS by decide)) fun fetched _ => tame_timeSeries

/-! ## The two operations that begin with `params.get` -/

theorem tame_count (hcolumns : src.columns ≠ []) (hparams : ∃ members, params = .dict members) :
    Tame (opCount E src q params) := by
  refine tame_bind (tame_getParam hparams _ _) fun name _ => ?_
  split
  · refine tame_bind (tame_columnOf _ _) fun column _ => ?_
    exact tame_bind (tame_fetch _ (show 1 ≤ MAX_TARGETS by decide)) fun fetched _ => tame_ok _
  · split
    · rename_i hempty
      exact absurd hempty hcolumns
    · exact tame_bind (tame_fetch _ (show 1 ≤ MAX_TARGETS by decide)) fun fetched _ => tame_ok _

theorem not_tame_count (hparams : ∀ members, params ≠ .dict members) : ¬ Tame (opCount E src q params) := by
  intro h
  have hraised : opCount E src q params = .error .attributeError := by
    cases params with
    | dict members => exact absurd rfl (hparams members)
    | _ => rfl
  have hcaught := h _ hraised
  cases hcaught

theorem tame_columnNames (hparams : ∃ members, params = .dict members) : Tame (columnNames E params) := by
  refine tame_bind (tame_getParam hparams _ _) fun names _ => ?_
  split
  · split
    · exact tame_ok _
    · exact tame_error rfl
  · exact tame_bind (tame_subscript _ _) fun name _ => tame_ok _

theorem tame_mapM_columnOf (columns : List DBColumn) (names : List PyJson) :
    Tame (names.mapM (columnOf columns) : Except (Raised ν) (List DBColumn)) := by
  induction names with
  | nil => exact tame_ok _
  | cons name names ih =>
    rw [List.mapM_cons]
    refine tame_bind (tame_columnOf _ _) fun column _ => ?_
    exact tame_bind ih fun columns _ => tame_ok _

/-- The names that name columns. -/
theorem columnOf_ok_iff {columns : List DBColumn} {name : PyJson} :
    (∃ c, columnOf columns name = (.ok c : Except (Raised ν) DBColumn)) ↔
      ∃ s, name = .str s ∧ ∃ c ∈ columns, c.name.toList = s := by
  cases name with
  | str s =>
    have hcolumn : columnOf columns (.str s) = (orRaise (getColumn columns (String.ofList s)) :
      Except (Raised ν) DBColumn) := rfl
    rw [hcolumn]
    unfold getColumn
    cases hfind : columns.find? fun c => c.name == String.ofList s with
    | none =>
      constructor
      · rintro ⟨c, hc⟩
        cases hc
      · rintro ⟨s', hs', c, hc, hname⟩
        obtain rfl := PyJson.str.inj hs'
        have hnone := List.find?_eq_none.mp hfind c hc
        rw [← hname, String.ofList_toList, beq_self_eq_true] at hnone
        exact absurd rfl hnone
    | some c =>
      have hfound := List.find?_some hfind
      have hname : c.name = String.ofList s := eq_of_beq hfound
      constructor
      · intro _
        refine ⟨s, rfl, c, List.mem_of_find?_eq_some hfind, ?_⟩
        rw [hname, String.toList_ofList]
      · intro _
        exact ⟨c, rfl⟩
  | _ =>
    constructor
    · rintro ⟨c, hc⟩
      cases hc
    · rintro ⟨s, hs, -⟩
      cases hs

theorem mapM_columnOf_ok {columns : List DBColumn} {names : List PyJson} :
    (∃ cs, names.mapM (columnOf columns) = (.ok cs : Except (Raised ν) (List DBColumn))) ↔
      ∀ name ∈ names, ∃ c, columnOf columns name = (.ok c : Except (Raised ν) DBColumn) := by
  induction names with
  | nil => exact ⟨fun _ name hname => absurd hname List.not_mem_nil, fun _ => ⟨[], rfl⟩⟩
  | cons name names ih =>
    rw [List.forall_mem_cons, ← ih, List.mapM_cons]
    cases hc : (columnOf columns name : Except (Raised ν) DBColumn) with
    | error e =>
      constructor
      · rintro ⟨cs, hcs⟩
        cases hcs
      · rintro ⟨⟨c, hc'⟩, -⟩
        cases hc'
    | ok c =>
      cases hcs : (names.mapM (columnOf columns) : Except (Raised ν) (List DBColumn)) with
      | error e =>
        constructor
        · rintro ⟨cs, hall⟩
          cases hall
        · rintro ⟨-, cs, hall⟩
          cases hall
      | ok cs =>
        constructor
        · intro _
          exact ⟨⟨c, rfl⟩, cs, rfl⟩
        · intro _
          exact ⟨c :: cs, rfl⟩

theorem length_of_mapM {columns : List DBColumn} {names : List PyJson} {cs : List DBColumn}
    (h : names.mapM (columnOf columns) = (.ok cs : Except (Raised ν) (List DBColumn))) : cs.length = names.length := by
  induction names generalizing cs with
  | nil =>
    obtain rfl := Except.ok.inj h
    rfl
  | cons name names ih =>
    rw [List.mapM_cons] at h
    cases hc : (columnOf columns name : Except (Raised ν) DBColumn) with
    | error e =>
      rw [hc] at h
      cases h
    | ok c =>
      cases hrest : (names.mapM (columnOf columns) : Except (Raised ν) (List DBColumn)) with
      | error e =>
        rw [hc, hrest] at h
        cases h
      | ok rest =>
        rw [hc, hrest] at h
        obtain rfl := Except.ok.inj h
        rw [List.length_cons, List.length_cons, ih hrest]

/-- The operation on several columns raises what is not caught where it has no object, or too many columns. -/
theorem tame_duplicateCount_iff : Tame (opDuplicateCount E src q params) ↔
    (∃ members, params = .dict members) ∧
      ∀ names, columnNames E params = .ok names →
        (∀ name ∈ names, ∃ c, columnOf src.columns name = (.ok c : Except (Raised ν) DBColumn)) →
          names.length ≤ MAX_TARGETS := by
  constructor
  · intro h
    refine ⟨?_, fun names hnames hall => ?_⟩
    · by_contra hparams
      have hraised : opDuplicateCount E src q params = .error .attributeError := by
        cases params with
        | dict members => exact absurd ⟨members, rfl⟩ hparams
        | _ => rfl
      have hcaught := h _ hraised
      cases hcaught
    · by_contra hmany
      obtain ⟨cs, hcs⟩ := mapM_columnOf_ok.mpr hall
      have hlength : MAX_TARGETS < (cs.map (·.name)).length := by
        rw [List.length_map, length_of_mapM hcs]
        exact Nat.lt_of_not_le hmany
      have hraised : opDuplicateCount E src q params = .error .databaseError := by
        unfold opDuplicateCount
        rw [hnames]
        show names.mapM (columnOf src.columns) >>= _ = _
        rw [hcs]
        show fetch src (q 0) (cs.map (·.name)) >>= _ = _
        unfold fetch
        rw [if_pos hlength]
        rfl
      have hcaught := h _ hraised
      cases hcaught
  · rintro ⟨hparams, hfew⟩
    refine tame_bind (tame_columnNames hparams) fun names hnames => ?_
    refine tame_bind (tame_mapM_columnOf _ _) fun cs hcs => ?_
    refine tame_bind (tame_fetch _ ?_) fun fetched _ =>
      tame_bind (tame_requireHashable _ _) fun _ _ => tame_ok _
    rw [List.length_map, length_of_mapM hcs]
    exact hfew names hnames (mapM_columnOf_ok.mp ⟨cs, hcs⟩)

/-- The two ways in which an operation escapes. -/
theorem tame_operation_iff {name : String} {op : Operation ν K} (hop : (name, op) ∈ OPERATIONS)
    (hcolumns : src.columns ≠ []) (hfinite : FiniteParams E params) :
    Tame (op E src q params) ↔
      (name = "count" ∨ name = "duplicate_count" → ∃ members, params = .dict members) ∧
        (name = "duplicate_count" → ∀ names, columnNames E params = .ok names →
          (∀ n ∈ names, ∃ c, columnOf src.columns n = (.ok c : Except (Raised ν) DBColumn)) →
            names.length ≤ MAX_TARGETS) := by
  have hother : ∀ {name : String} {x : Except (Raised ν) (Result ν K)}, Tame x → name ≠ "count" →
      name ≠ "duplicate_count" →
        (Tame x ↔ (name = "count" ∨ name = "duplicate_count" → ∃ members, params = .dict members) ∧
          (name = "duplicate_count" → ∀ names, columnNames E params = .ok names →
            (∀ n ∈ names, ∃ c, columnOf src.columns n = (.ok c : Except (Raised ν) DBColumn)) →
              names.length ≤ MAX_TARGETS)) :=
    fun htame hcount hduplicate => ⟨fun _ => ⟨fun h => (h.elim hcount hduplicate).elim, fun h => absurd h hduplicate⟩,
      fun _ => htame⟩
  simp only [OPERATIONS, List.mem_cons, Prod.mk.injEq, List.not_mem_nil, or_false] at hop
  rcases hop with ⟨rfl, rfl⟩ | ⟨rfl, rfl⟩ | ⟨rfl, rfl⟩ | ⟨rfl, rfl⟩ | ⟨rfl, rfl⟩ | ⟨rfl, rfl⟩ | ⟨rfl, rfl⟩ |
    ⟨rfl, rfl⟩ | ⟨rfl, rfl⟩ | ⟨rfl, rfl⟩ | ⟨rfl, rfl⟩ | ⟨rfl, rfl⟩ | ⟨rfl, rfl⟩ | ⟨rfl, rfl⟩ | ⟨rfl, rfl⟩ |
    ⟨rfl, rfl⟩ | ⟨rfl, rfl⟩ | ⟨rfl, rfl⟩ | ⟨rfl, rfl⟩ | ⟨rfl, rfl⟩ | ⟨rfl, rfl⟩
  · constructor
    · intro h
      refine ⟨fun _ => ?_, fun hname => absurd hname (by decide)⟩
      by_contra hparams
      exact not_tame_count (fun members hdict => hparams ⟨members, hdict⟩) h
    · intro h
      exact tame_count hcolumns (h.1 (.inl rfl))
  · exact hother tame_distinctCount (by decide) (by decide)
  · exact hother tame_missing (by decide) (by decide)
  · rw [tame_duplicateCount_iff]
    exact ⟨fun h => ⟨fun _ => h.1, fun _ => h.2⟩, fun h => ⟨h.1 (.inr rfl), h.2 rfl⟩⟩
  · exact hother (tame_frequencyDistribution hfinite) (by decide) (by decide)
  · exact hother (tame_descriptiveNumeric _ _ _ _) (by decide) (by decide)
  · exact hother (tame_descriptiveNumeric _ _ _ _) (by decide) (by decide)
  · exact hother (tame_descriptiveNumeric _ _ _ _) (by decide) (by decide)
  · exact hother (tame_descriptiveNumeric _ _ _ _) (by decide) (by decide)
  · exact hother (tame_descriptiveNumeric _ _ _ _) (by decide) (by decide)
  · exact hother (tame_descriptiveNumeric _ _ _ _) (by decide) (by decide)
  · exact hother (tame_descriptiveNumeric _ _ _ _) (by decide) (by decide)
  · exact hother tame_percentiles (by decide) (by decide)
  · exact hother tame_outlierDetection (by decide) (by decide)
  · exact hother (tame_paired _) (by decide) (by decide)
  · exact hother (tame_paired _) (by decide) (by decide)
  · exact hother (tame_paired _) (by decide) (by decide)
  · exact hother tame_opTTest (by decide) (by decide)
  · exact hother tame_chiSquare (by decide) (by decide)
  · exact hother tame_anova (by decide) (by decide)
  · exact hother (tame_timeSeriesSummary hfinite) (by decide) (by decide)

end Operations

/-! ## Widgets -/

section Widgets

variable [Arithmetic K] {B : Backend ν K} {access : Uuid → Option (Access ν)} {belongs : Uuid → Bool}

theorem attempt_ne_crash_iff {op : Operation ν K} {columns : List DBColumn} {rows : List (Row ν)} {params : PyJson} :
    B.attempt op columns rows params ≠ .crash ↔
      Tame (op B.env (B.source columns rows) (fun k => B.answers k rows) (orEmpty B.env params)) := by
  unfold Backend.attempt
  cases op B.env (B.source columns rows) (fun k => B.answers k rows) (orEmpty B.env params) with
  | ok result => exact ⟨fun _ => tame_ok _, fun _ h => (by cases h)⟩
  | error e =>
    dsimp only
    cases hcaught : e.caught with
    | true => exact ⟨fun _ => tame_error hcaught, fun _ h => (by cases h)⟩
    | false =>
      constructor
      · intro h
        exact absurd rfl h
      · intro h
        rw [h e rfl] at hcaught
        cases hcaught

theorem orEmpty_dict_iff {E : Environment ν K} {params : PyJson} :
    (∃ members, orEmpty E params = .dict members) ↔ ¬ (truthy E params = true ∧ ∀ members, params ≠ .dict members) := by
  unfold orEmpty
  by_cases htruthy : truthy E params = true
  · rw [if_pos htruthy]
    constructor
    · rintro ⟨members, hmembers⟩ ⟨-, hnot⟩
      exact hnot members hmembers
    · intro h
      by_contra hnot
      exact h ⟨htruthy, fun members hmembers => hnot ⟨members, hmembers⟩⟩
  · rw [if_neg htruthy]
    exact ⟨fun _ h => htruthy h.1, fun _ => ⟨[], rfl⟩⟩

theorem documentHolds_member {floatText : List Char → List Char} {members : List (List Char × PyJson)}
    (h : membersHold floatText members = true) : ∀ m ∈ members, documentHolds floatText m.2 = true := by
  induction members with
  | nil => exact fun m hm => absurd hm List.not_mem_nil
  | cons m members ih =>
    obtain ⟨key, v⟩ := m
    rw [membersHold, Bool.and_eq_true, Bool.and_eq_true] at h
    exact List.forall_mem_cons.mpr ⟨h.1.2, ih h.2⟩

/-- The numbers of a stored widget are finite. -/
theorem finiteParams_of_held (htruncate : ∀ literal, finiteFloat B.env.floatText literal = true →
      (B.env.truncate literal).isSome = true) {widget params : PyJson}
    (hheld : documentHolds B.env.floatText widget = true)
    (hparams : widget.get "params" (.dict []) = some params) : FiniteParams B.env (orEmpty B.env params) := by
  have hdocument : documentHolds B.env.floatText params = true := by
    cases widget with
    | dict members =>
      have hvalue : (Json.member? "params".toList members).getD (.dict []) = params := Option.some.inj hparams
      cases hmember : Json.member? "params".toList members with
      | none =>
        rw [hmember] at hvalue
        rw [← hvalue]
        rfl
      | some v =>
        rw [hmember, Option.getD_some] at hvalue
        rw [← hvalue]
        exact documentHolds_member hheld _ (Json.mem_of_member? hmember)
    | _ => cases hparams
  intro members hmembers m hm literal hliteral
  unfold orEmpty at hmembers
  split_ifs at hmembers with htruthy
  · rw [hmembers] at hdocument
    have hvalue := documentHolds_member hdocument m hm
    rw [hliteral] at hvalue
    exact htruncate literal hvalue
  · cases hmembers
    cases hm

/-- What the validation knows of a widget. -/
structure ValidWidget (widget : PyJson) (members : List (List Char × PyJson)) (id : Uuid) (name : List Char)
    (op : Operation ν K) : Prop where
  dict : widget = .dict members
  table : (widget.field "table_id").bind tableIdOf = some (some id)
  operation : widget.field "operation" = some (.str name)
  registered : OPERATIONS.lookup (String.ofList name) = some op

theorem validWidget_of_validate {widgets : List PyJson} (h : validateWidgets B.registry belongs widgets = .ok ())
    (hobjects : ∀ widget ∈ widgets, ∃ members, widget = .dict members) :
    ∀ widget ∈ widgets, ∃ members id name, ∃ op : Operation ν K, ValidWidget widget members id name op := by
  induction widgets with
  | nil => exact fun widget hwidget => absurd hwidget List.not_mem_nil
  | cons widget widgets ih =>
    obtain ⟨⟨members, hmembers⟩, hrest⟩ := List.forall_mem_cons.mp hobjects
    rw [validateWidgets] at h
    cases htable : widget.field "table_id" with
    | none =>
      rw [htable] at h
      cases h
    | some tableId =>
      cases hoperation : widget.field "operation" with
      | none =>
        rw [htable, hoperation] at h
        cases h
      | some operation =>
        rw [htable, hoperation] at h
        cases operation with
        | str name =>
          dsimp only at h
          split_ifs at h with hnone
          cases hid : tableIdOf tableId with
          | none =>
            rw [hid] at h
            cases h
          | some id =>
            rw [hid] at h
            dsimp only at h
            split_ifs at h with hbelongs
            cases id with
            | none => cases hbelongs
            | some id =>
              refine List.forall_mem_cons.mpr ⟨?_, ih h hrest⟩
              have hsome : ((OPERATIONS.lookup (String.ofList name)).map
                  fun (op : Operation ν K) (_ : DBTable) columns rows params =>
                    B.attempt op columns rows params).isNone = false := Bool.eq_false_iff.mpr hnone
              cases hlookup : (OPERATIONS.lookup (String.ofList name) : Option (Operation ν K)) with
              | none =>
                rw [hlookup] at hsome
                cases hsome
              | some op =>
                refine ⟨members, id, name, op, hmembers, ?_, hoperation, hlookup⟩
                rw [htable, Option.bind_some, hid]
        | _ => cases h

/-- What a widget comes to. -/
def outcomeOf (ops : Operations ν) (access : Uuid → Option (Access ν)) (widget : PyJson) (name : List Char)
    (params : PyJson) : Except Failure PyJson :=
  match tableOf access widget with
  | none => .error .notFound
  | some a => runAnalysis ops a (.str name) params

/-- A widget has a result unless it comes to an error that is not caught. -/
theorem renderWidget_valid (access : Uuid → Option (Access ν)) {widget : PyJson}
    {members : List (List Char × PyJson)} {id : Uuid} {name : List Char}
    {op : Operation ν K} (h : ValidWidget widget members id name op) :
    ∃ params, widget.get "params" (.dict []) = some params ∧
      (outcomeOf B.registry access widget name params = .error .serverError →
        renderWidget B.registry access widget = none) ∧
      (outcomeOf B.registry access widget name params ≠ .error .serverError →
        ∃ result, renderWidget B.registry access widget = some result ∧ result.outcome ≠ .error .serverError) := by
  obtain ⟨rfl, htable, hoperation, -⟩ := h
  refine ⟨_, rfl, ?_⟩
  unfold renderWidget outcomeOf tableOf
  rw [htable, hoperation]
  simp only [PyJson.get, Option.bind_eq_bind, Option.bind_some, Option.join_some]
  cases access id with
  | none => exact ⟨fun h => (by cases h), fun _ => ⟨_, rfl, fun h => (by cases h)⟩⟩
  | some a =>
    dsimp only
    split
    · rename_i herror
      exact ⟨fun _ => rfl, fun hne => absurd herror hne⟩
    · rename_i hother
      exact ⟨fun herror => absurd herror (hother), fun hne => ⟨_, rfl, hne⟩⟩

theorem exists_mapM_iff {α β : Type} {f : α → Option β} {P : β → Prop} (xs : List α) :
    (∃ ys, xs.mapM f = some ys ∧ List.Forall₂ (fun x y => f x = some y ∧ P y) xs ys) ↔
      ∀ x ∈ xs, ∃ y, f x = some y ∧ P y := by
  induction xs with
  | nil => exact ⟨fun _ x hx => absurd hx List.not_mem_nil, fun _ => ⟨[], rfl, .nil⟩⟩
  | cons x xs ih =>
    rw [List.forall_mem_cons, ← ih, List.mapM_cons]
    constructor
    · rintro ⟨ys, hys, hall⟩
      cases hall with
      | cons hx hrest =>
        rename_i y ys
        obtain ⟨hy, hP⟩ := hx
        refine ⟨⟨y, hy, hP⟩, ys, ?_, hrest⟩
        rw [hy] at hys
        obtain ⟨zs, hzs, heq⟩ := Option.bind_eq_some_iff.mp hys
        obtain ⟨ws, hws, heq⟩ := Option.bind_eq_some_iff.mp heq
        obtain ⟨-, rfl⟩ := List.cons.inj (Option.some.inj heq)
        exact hws
    · rintro ⟨⟨y, hy, hP⟩, ys, hys, hall⟩
      refine ⟨y :: ys, ?_, .cons ⟨hy, hP⟩ hall⟩
      rw [hy, hys]
      rfl

theorem renderDashboard_single {ops : Operations ν} {dashboard : Dashboard} {widget : PyJson} {result : WidgetResult} :
    renderDashboard ops access { dashboard with widgets := [widget] } = some [result] ↔
      renderWidget ops access widget = some result := by
  have hsingle : renderDashboard ops access { dashboard with widgets := [widget] } =
      (renderWidget ops access widget).bind fun r => some [r] := rfl
  rw [hsingle]
  cases renderWidget ops access widget with
  | none => exact ⟨fun h => (by cases h), fun h => (by cases h)⟩
  | some r =>
    constructor
    · intro h
      rw [(List.cons.inj (Option.some.inj h)).1]
    · intro h
      rw [Option.some.inj h]
      rfl

/-- A dashboard is rendered where every widget of it is. -/
theorem rendersEach_iff_forall {ops : Operations ν} {dashboard : Dashboard} :
    RendersEach ops access dashboard ↔ ∀ widget ∈ dashboard.widgets, ∃ result,
      renderWidget ops access widget = some result ∧ result.outcome ≠ .error .serverError := by
  rw [← exists_mapM_iff]
  unfold RendersEach
  simp only [renderDashboard_single]
  rfl

theorem outcome_eq_serverError_iff {x : Analysis} : x.outcome = .error .serverError ↔ x = .crash := by
  cases x with
  | result data => exact ⟨fun h => (by cases h), fun h => (by cases h)⟩
  | invalid detail => exact ⟨fun h => (by cases h), fun h => (by cases h)⟩
  | crash => exact ⟨fun _ => rfl, fun _ => rfl⟩

theorem runAnalysis_denied {ops : Operations ν} {a : Access ν} (h : a.allowed = false) (operation params : PyJson) :
    runAnalysis ops a operation params = .error .denied := by
  unfold runAnalysis
  rw [h]
  rfl

theorem runAnalysis_registry {a : Access ν} (h : a.allowed = true) {name : List Char} {op : Operation ν K}
    (hlookup : OPERATIONS.lookup (String.ofList name) = some op) (params : PyJson) :
    runAnalysis B.registry a (.str name) params = (B.attempt op a.columns a.rows params).outcome := by
  have hget : B.registry.get (String.ofList name) =
      some fun _ columns rows params => B.attempt op columns rows params := by
    show (OPERATIONS.lookup (String.ofList name)).map _ = _
    rw [hlookup]
    rfl
  unfold runAnalysis
  simp only [h, Bool.not_true, Bool.false_eq_true, if_false, hget]

/-- An error that is not caught comes from an operation on a table that the actor may read. -/
theorem outcomeOf_eq_serverError_iff {widget params : PyJson} {name : List Char} {op : Operation ν K}
    (hlookup : OPERATIONS.lookup (String.ofList name) = some op) :
    outcomeOf B.registry access widget name params = .error .serverError ↔
      ∃ a, tableOf access widget = some a ∧ a.allowed = true ∧ B.attempt op a.columns a.rows params = .crash := by
  unfold outcomeOf
  cases htable : tableOf access widget with
  | none =>
    constructor
    · intro h
      cases h
    · rintro ⟨a, ha, -⟩
      cases ha
  | some a =>
    dsimp only
    cases hallowed : a.allowed with
    | false =>
      rw [runAnalysis_denied hallowed]
      constructor
      · intro h
        cases h
      · rintro ⟨a', ha', hallowed', -⟩
        obtain rfl := Option.some.inj ha'
        rw [hallowed] at hallowed'
        cases hallowed'
    | true =>
      rw [runAnalysis_registry hallowed hlookup, outcome_eq_serverError_iff]
      constructor
      · intro h
        exact ⟨a, rfl, hallowed, h⟩
      · rintro ⟨a', ha', -, h⟩
        obtain rfl := Option.some.inj ha'
        exact h

/-- An operation of a widget raises what is not caught where it escapes. -/
theorem crash_iff_escapes {widget params : PyJson} {members : List (List Char × PyJson)} {id : Uuid} {name : List Char}
    {op : Operation ν K} (h : ValidWidget widget members id name op)
    (hparams : widget.get "params" (.dict []) = some params) {columns : List DBColumn} (hcolumns : columns ≠ [])
    (hfinite : FiniteParams B.env (orEmpty B.env params)) (rows : List (Row ν)) :
    B.attempt op columns rows params = .crash ↔ Escapes B.env columns widget := by
  have hmem : (String.ofList name, op) ∈ OPERATIONS := by
    obtain ⟨before, after, heq, -⟩ := List.lookup_eq_some_iff.mp h.registered
    rw [heq]
    exact List.mem_append_right _ (List.mem_cons_self ..)
  have hname : ∀ s : String, widget.field "operation" = some (.str s.toList) ↔ String.ofList name = s := by
    intro s
    rw [h.operation, Option.some.injEq, PyJson.str.injEq]
    constructor
    · rintro rfl
      exact String.ofList_toList
    · rintro rfl
      exact String.toList_ofList.symm
  have htame : Tame (op B.env (B.source columns rows) (fun k => B.answers k rows) (orEmpty B.env params)) ↔ _ :=
    tame_operation_iff hmem hcolumns hfinite
  rw [← not_iff_not, ← ne_eq, attempt_ne_crash_iff, htame]
  constructor
  · rintro ⟨hdict, hfew⟩ ⟨params', hparams', hescapes⟩
    obtain rfl := Option.some.inj (hparams.symm.trans hparams')
    rcases hescapes with ⟨hoperation, htruthy, hnot⟩ | ⟨hoperation, names, hnames, hknown, hmany⟩
    · rw [hname, hname] at hoperation
      exact orEmpty_dict_iff.mp (hdict hoperation) ⟨htruthy, hnot⟩
    · rw [hname] at hoperation
      exact absurd (hfew hoperation names hnames fun n hn => columnOf_ok_iff.mpr (hknown n hn)) (Nat.not_le.mpr hmany)
  · intro hnot
    refine ⟨fun hoperation => orEmpty_dict_iff.mpr fun h => hnot ⟨params, hparams, .inl ⟨?_, h⟩⟩,
      fun hoperation names hnames hknown => ?_⟩
    · rw [hname, hname]
      exact hoperation
    · by_contra hmany
      refine hnot ⟨params, hparams, .inr ⟨(hname _).mpr hoperation, names, hnames, fun n hn => ?_, ?_⟩⟩
      · exact columnOf_ok_iff.mp (hknown n hn)
      · exact Nat.lt_of_not_le hmany

end Widgets

/-- A stored dashboard is rendered with one result for each widget, of its own, exactly where no widget on a table
that the actor may read asks `count` or `duplicate_count` for something else than an object, or for too many
columns. -/
theorem rendersEach_iff [Arithmetic K] (B : Backend ν K)
    (htruncate : ∀ literal, finiteFloat B.env.floatText literal = true → (B.env.truncate literal).isSome = true)
    (belongs : Uuid → Bool) (dashboard : Dashboard) (hstored : StoredDashboard B belongs dashboard)
    (access : Uuid → Option (Access ν)) (hcolumns : ∀ id a, access id = some a → a.columns ≠ []) :
    RendersEach B.registry access dashboard ↔
      ∀ widget ∈ dashboard.widgets, ∀ a, tableOf access widget = some a → a.allowed = true →
        ¬ Escapes B.env a.columns widget := by
  rw [rendersEach_iff_forall]
  refine forall₂_congr fun widget hwidget => ?_
  obtain ⟨members, id, name, op, hvalid⟩ := validWidget_of_validate hstored.valid hstored.objects widget hwidget
  obtain ⟨params, hparams, hcrash, hfine⟩ := renderWidget_valid (B := B) access hvalid
  have hfinite := finiteParams_of_held htruncate (hstored.held widget hwidget) hparams
  have houtcome : outcomeOf B.registry access widget name params = .error .serverError ↔
      ∃ a, tableOf access widget = some a ∧ a.allowed = true ∧ Escapes B.env a.columns widget := by
    rw [outcomeOf_eq_serverError_iff hvalid.registered]
    refine exists_congr fun a => and_congr_right fun ha => and_congr_right fun _ => ?_
    obtain ⟨id, -, hid⟩ := Option.bind_eq_some_iff.mp ha
    exact crash_iff_escapes hvalid hparams (hcolumns id a hid) hfinite a.rows
  constructor
  · rintro ⟨result, hresult, -⟩ a ha hallowed hescapes
    rw [hcrash (houtcome.mpr ⟨a, ha, hallowed, hescapes⟩)] at hresult
    cases hresult
  · intro hsafe
    refine hfine fun herror => ?_
    obtain ⟨a, ha, hallowed, hescapes⟩ := houtcome.mp herror
    exact hsafe a ha hallowed hescapes

/-! ## A dashboard of counts -/

/-- Whole numbers, without statistics. -/
def countBackend : Backend Int ℚ where
  env :=
    { toLibraries := exactLibraries ⟨id, fun _ _ => 0, fun _ _ => 0, fun _ _ => 0, fun _ _ => 0, fun _ _ _ => 0,
        fun _ _ => 0⟩ true
      same := fun m n => m == n, before := fun m n => decide (m ≤ n), hashable := fun _ => true
      literal := fun _ => 0, truncate := fun _ => some 0, floatText := id, round := id }
  valueType := ⟨fun n => n, fun m n => m == n, fun n => (toString n).toList⟩
  cap := 200000
  float n := .finite n
  answers _ rows := rows
  message _ := "invalid params"
  json _ := .null
  profile _ _ _ := .result .null

/-- The table 102, of one row. -/
def countAccess (id : Uuid) : Option (Access Int) :=
  if id = 102 then
    some ⟨⟨102, 100, "sales"⟩, [⟨2, 102, "id", .uuid, none, none, none, false, true, true, none⟩], [⟨11, []⟩], true⟩
  else none

/-- A dashboard of one widget, which counts the rows. -/
def countDashboard (params : PyJson) : Dashboard :=
  ⟨1, 100, "overview", [.dict [("table_id".toList, .int 102), ("operation".toList, .str "count".toList),
    ("params".toList, params)]]⟩

theorem storedDashboard_count {params : PyJson} (h : documentHolds id params = true) :
    StoredDashboard countBackend (fun id => id == 102) (countDashboard params) := by
  refine ⟨?_, rfl, ?_⟩
  · intro widget hwidget
    exact ⟨_, List.mem_singleton.mp hwidget⟩
  · intro widget hwidget
    rw [List.mem_singleton.mp hwidget]
    simp [documentHolds, membersHold, countBackend, h]

theorem rendersEach_iff_count :
    RendersEach countBackend.registry countAccess (countDashboard (.dict [])) ↔
      ∀ widget ∈ (countDashboard (.dict [])).widgets, ∀ a, tableOf countAccess widget = some a → a.allowed = true →
        ¬ Escapes countBackend.env a.columns widget :=
  rendersEach_iff countBackend (fun _ _ => rfl) _ _ (storedDashboard_count rfl) countAccess
    fun id a ha => by
      unfold countAccess at ha
      split_ifs at ha
      rw [← Option.some.inj ha]
      exact List.cons_ne_nil _ _

/-- `params` is the string `all`. -/
theorem not_rendersEach_count :
    StoredDashboard countBackend (fun id => id == 102) (countDashboard (.str "all".toList)) ∧
      ¬ RendersEach countBackend.registry countAccess (countDashboard (.str "all".toList)) := by
  refine ⟨storedDashboard_count rfl, ?_⟩
  rintro ⟨results, hresults, -⟩
  have hnone : renderDashboard countBackend.registry countAccess (countDashboard (.str "all".toList)) = none := rfl
  rw [hnone] at hresults
  cases hresults

end Analytics
