import IntraCloud.Databases.Values
import IntraCloud.Python.Proofs.JsonProofs
import Mathlib.Tactic.SplitIfs

/-!
# Where the two converters agree

For every type but JSON the import hands the driver the parameter that the row API hands it. A JSON
document leaves the import as the Python value it was decoded to, without the `Jsonb` of the row API, and
no column holds it afterwards.
-/

namespace Databases

open Python

variable {floatText : List Char → List Char} {raw : List Char}

/-! ## The converters -/

/-- Both refuse a value, or both pass the same Python value on. -/
inductive Alike : Except Imports.ConvertError Imports.Param → Except RowValueError QueryParam → Prop where
  | refused (e : Imports.ConvertError) (e' : RowValueError) : Alike (.error e) (.error e')
  | passed (p : Imports.Param) : Alike (.ok p) (.ok (.plain p))

theorem convertValue_eq (hstrip : strip raw = raw) (hne : raw ≠ []) (T : DataType) :
    Imports.convertValue raw T = Imports.convertStripped raw T := by
  simp only [Imports.convertValue, hstrip]
  exact if_neg hne

theorem alike_integer (raw : List Char) : Alike (Imports.convertStripped raw .integer)
    (validateInteger (((parseInt? raw).map .int).getD (.str raw))) := by
  simp only [Imports.convertStripped]
  cases h : parseInt? raw with
  | none => exact .refused _ _
  | some n => exact .passed _

theorem alike_decimal :
    Alike (Imports.convertStripped raw .decimal) (validateDecimal floatText (.str raw)) := by
  simp only [Imports.convertStripped, validateDecimal, strText?, Option.bind_some]
  cases h : parseDecimal? raw with
  | none => exact .refused _ _
  | some d => exact .passed _

theorem alike_boolean : Alike (Imports.convertStripped raw .boolean) (validateBoolean (.str raw)) := by
  simp only [Imports.convertStripped, validateBoolean, List.contains_iff_mem, List.mem_append]
  by_cases htrue : lower raw ∈ Imports.booleanTrueValues
  · rw [if_pos htrue, if_pos (.inl htrue), List.contains_iff_mem.mpr htrue]
    exact .passed _
  · rw [if_neg htrue]
    by_cases hfalse : lower raw ∈ Imports.booleanFalseValues
    · have hcontains : Imports.booleanTrueValues.contains (lower raw) = false := by
        rw [← Bool.not_eq_true, List.contains_iff_mem]
        exact htrue
      rw [if_pos hfalse, if_pos (.inr hfalse), hcontains]
      exact .passed _
    · rw [if_neg hfalse, if_neg (not_or.mpr ⟨htrue, hfalse⟩)]
      exact .refused _ _

theorem alike_date : Alike (Imports.convertStripped raw .date) (validateDate (.str raw)) := by
  simp only [Imports.convertStripped, validateDate, strOf?, Option.bind_some]
  cases h : strptime Imports.dateFormat raw with
  | none => exact .refused _ _
  | some d => exact .passed _

theorem alike_datetime : Alike (Imports.convertStripped raw .datetime) (validateDatetime (.str raw)) := by
  simp only [Imports.convertStripped, validateDatetime, strOf?, Option.bind_some]
  cases h : Imports.datetimeFormats.findSome? (strptime · raw) with
  | none => exact .refused _ _
  | some d => exact .passed _

theorem alike_uuid : Alike (Imports.convertStripped raw .uuid) (validateUuid floatText (.str raw)) := by
  simp only [Imports.convertStripped, validateUuid, strText?, Option.bind_some]
  cases h : parseUuid? raw with
  | none => exact .refused _ _
  | some n => exact .passed _

/-- The native value of a cell of another type than JSON, and what becomes of it. -/
theorem alike_native (floatText : List Char → List Char) (raw : List Char) {T : DataType}
    (hT : T ≠ .json) :
    ∃ v, jsonNative? raw T = some v ∧
      Alike (Imports.convertStripped raw T) (validateAndConvert floatText v T) := by
  have hinteger : ∃ v, jsonNative? raw .integer = some v ∧
      Alike (Imports.convertStripped raw .integer) (validateAndConvert floatText v .integer) := by
    have halike := alike_integer raw
    cases h : parseInt? raw with
    | none =>
      rw [h] at halike
      exact ⟨.str raw, by simp only [jsonNative?, h], halike⟩
    | some n =>
      rw [h] at halike
      exact ⟨.int n, by simp only [jsonNative?, h], halike⟩
  cases T with
  | json => exact absurd rfl hT
  | integer => exact hinteger
  | bigint => exact hinteger
  | decimal => exact ⟨.str raw, rfl, alike_decimal⟩
  | boolean => exact ⟨.str raw, rfl, alike_boolean⟩
  | date => exact ⟨.str raw, rfl, alike_date⟩
  | datetime => exact ⟨.str raw, rfl, alike_datetime⟩
  | uuid => exact ⟨.str raw, rfl, alike_uuid⟩
  | text => exact ⟨.str raw, rfl, .passed _⟩
  | varchar => exact ⟨.str raw, rfl, .passed _⟩

theorem agree_of_alike {D : Driver} {T : DataType} {v : PyJson} (hnative : jsonNative? raw T = some v)
    (halike : Alike (Imports.convertValue raw T) (validateAndConvert floatText v T)) :
    ConvertersAgree D floatText raw T := by
  unfold ConvertersAgree
  rw [hnative]
  generalize Imports.convertValue raw T = x at halike ⊢
  generalize hy : validateAndConvert floatText v T = y at halike
  cases halike with
  | refused e e' =>
    refine ⟨⟨?_, ?_⟩, ?_⟩
    · rintro ⟨p, hp⟩
      cases hp
    · rintro ⟨w, q, hw, hq⟩
      obtain rfl := Option.some.inj hw
      rw [hy] at hq
      cases hq
    · intro p w q hp
      cases hp
  | passed p =>
    refine ⟨⟨fun _ => ⟨v, .plain p, rfl, hy⟩, fun _ => ⟨p, rfl⟩⟩, ?_⟩
    intro p' w q hp hw hq
    obtain rfl := Option.some.inj hw
    obtain rfl := Except.ok.inj hp
    obtain rfl := Except.ok.inj (hy.symm.trans hq)
    rfl

/-! ## A JSON column -/

section Json

variable {D : Driver} (hD : D.Documented)
include hD

/-- No column holds a document that was sent as the Python value it stands for. -/
theorem store_plain_ne {v : PyJson} {x : D.Value} (hv : v ≠ .null)
    (hstore : D.store .json (.plain (Imports.jsonParam v)) = some x) : D.document v ≠ some x := by
  intro hdocument
  cases v with
  | null => exact hv rfl
  | bool b => exact absurd (hstore.symm.trans (hD.bool b)) (Option.some_ne_none x)
  | int n => exact absurd (hstore.symm.trans (hD.int n)) (Option.some_ne_none x)
  | float literal => exact absurd (hstore.symm.trans (hD.float literal)) (Option.some_ne_none x)
  | str s =>
    -- the text of a string is longer than the string
    have hlength := Json.loads_str_length (hD.str s s x hstore hdocument)
    exact Nat.lt_irrefl _ hlength
  | list items =>
    obtain ⟨rfl, hempty⟩ := hD.list items x hstore
    exact hD.empty (hempty.trans hdocument.symm)
  | dict members => exact absurd (hstore.symm.trans (hD.dict members)) (Option.some_ne_none x)

/-- What no column can hold is not stored either way. -/
theorem store_plain_none {v : PyJson} (hv : v ≠ .null) (hdocument : D.document v = none) :
    D.store .json (.plain (Imports.jsonParam v)) = none := by
  cases v with
  | null => exact absurd rfl hv
  | bool b => exact hD.bool b
  | int n => exact hD.int n
  | float literal => exact hD.float literal
  | str s =>
    by_cases hzero : '\x00' ∈ s
    · exact hD.zero s hzero
    · obtain ⟨x, hx⟩ := hD.string s hzero
      exact absurd (hx.symm.trans hdocument) (Option.some_ne_none x)
  | list items =>
    cases hstore : D.store .json (.plain (Imports.jsonParam (.list items))) with
    | none => rfl
    | some x =>
      obtain ⟨rfl, _⟩ := hD.list items x hstore
      obtain ⟨y, hy⟩ := hD.array
      exact absurd (hy.symm.trans hdocument) (Option.some_ne_none y)
  | dict members => exact hD.dict members

theorem store_plain_iff {v : PyJson} (hv : v ≠ .null) :
    D.store .json (.plain (Imports.jsonParam v)) = D.store .json (.jsonb v) ↔ D.document v = none := by
  rw [hD.jsonb v]
  constructor
  · intro h
    cases hdocument : D.document v with
    | none => rfl
    | some x => exact absurd hdocument (store_plain_ne hD hv (h.trans hdocument))
  · intro hdocument
    rw [store_plain_none hD hv hdocument, hdocument]

end Json

theorem convertStripped_json {v : PyJson} (hv : Json.loads raw = some v) :
    Imports.convertStripped raw .json = .ok (Imports.jsonParam v) := by
  simp only [Imports.convertStripped, hv]

theorem validateAndConvert_json (floatText : List Char → List Char) {v : PyJson} (hv : v ≠ .null) :
    validateAndConvert floatText v .json = .ok (.jsonb v) := by
  cases v <;> first | rfl | exact absurd rfl hv

/-- The converters agree on a cell unless it is one of a JSON column and denotes a document that the
column can hold and that is not null. -/
theorem convertersAgree_iff {D : Driver} (hD : D.Documented) (floatText : List Char → List Char)
    {raw : List Char} (hstrip : strip raw = raw) (hne : raw ≠ []) (T : DataType) :
    ConvertersAgree D floatText raw T ↔
      (T = .json → ∀ v, Json.loads raw = some v → v = .null ∨ D.document v = none) := by
  have hconvert := convertValue_eq hstrip hne T
  by_cases hT : T = .json
  · subst hT
    cases hload : Json.loads raw with
    | none =>
      have herror : Imports.convertValue raw .json = .error (.notJson raw) := by
        rw [hconvert]
        simp only [Imports.convertStripped, hload]
      refine iff_of_true ⟨⟨?_, ?_⟩, ?_⟩ ?_
      · rintro ⟨p, hp⟩
        rw [herror] at hp
        cases hp
      · rintro ⟨v, q, hv, _⟩
        exact absurd (hv.symm.trans hload) (Option.some_ne_none v)
      · intro p v q hp
        rw [herror] at hp
        cases hp
      · intro _ v hv
        cases hv
    | some v =>
      rw [convertStripped_json hload] at hconvert
      by_cases hv : v = .null
      · subst hv
        refine iff_of_true (agree_of_alike hload ?_) fun _ w hw => .inl (Option.some.inj hw).symm
        rw [hconvert]
        exact .passed _
      · have hvalidate := validateAndConvert_json floatText hv
        constructor
        · intro h _ w hw
          obtain rfl := Option.some.inj hw
          exact .inr ((store_plain_iff hD hv).mp (h.2 _ v _ hconvert hload hvalidate))
        · intro h
          have hdocument := (h rfl v rfl).resolve_left hv
          refine ⟨⟨fun _ => ⟨v, _, hload, hvalidate⟩, fun _ => ⟨_, hconvert⟩⟩, ?_⟩
          intro p w q hp hw hq
          obtain rfl := Option.some.inj (hload.symm.trans hw)
          obtain rfl := Except.ok.inj (hconvert.symm.trans hp)
          obtain rfl := Except.ok.inj (hvalidate.symm.trans hq)
          exact (store_plain_iff hD hv).mpr hdocument
  · obtain ⟨v, hnative, halike⟩ := alike_native floatText raw hT
    refine iff_of_true (agree_of_alike hnative ?_) fun h => absurd h hT
    rw [hconvert]
    exact halike

/-- The documents that a column holds, where there are no numbers but finite ones. -/
def jsonbDocument (v : PyJson) : Option QueryParam :=
  match v with
  | .str s => if '\x00' ∈ s then none else some (.jsonb v)
  | _ => some (.jsonb v)

/-- A driver that keeps what it is sent. -/
def jsonbDriver : Driver where
  Value := QueryParam
  store
    | .json, .jsonb v => jsonbDocument v
    | .json, .plain .none => some (.plain .none)
    | .json, .plain (.str s) => if '\x00' ∈ s then none else (Json.loads s).bind jsonbDocument
    | .json, .plain (.json (.list [])) => jsonbDocument (.dict [])
    | .json, .plain _ => none
    | _, q => some q
  document := jsonbDocument

theorem eq_of_jsonbDocument {v : PyJson} {x : QueryParam} (h : jsonbDocument v = some x) :
    x = .jsonb v := by
  unfold jsonbDocument at h
  split at h
  · split_ifs at h
    exact (Option.some.inj h).symm
  · exact (Option.some.inj h).symm

theorem jsonbDriver_documented : jsonbDriver.Documented where
  jsonb _ := rfl
  str s t x hstore hdocument := by
    have hx := eq_of_jsonbDocument (v := .str t) hdocument
    have hstore : (if '\x00' ∈ s then none else (Json.loads s).bind jsonbDocument) = some x := hstore
    split_ifs at hstore
    obtain ⟨v, hload, hv⟩ := Option.bind_eq_some_iff.mp hstore
    have hv := eq_of_jsonbDocument hv
    rw [hx] at hv
    rw [hload, QueryParam.jsonb.inj hv]
  zero s hzero := if_pos hzero
  string s hzero := ⟨.jsonb (.str s), if_neg hzero⟩
  bool _ := rfl
  int _ := rfl
  float _ := rfl
  dict _ := rfl
  list items x hstore := by
    cases items with
    | nil => exact ⟨rfl, hstore⟩
    | cons v items => cases hstore
  array := ⟨.jsonb (.list []), rfl⟩
  empty h := by
    have h : (some (.jsonb (.dict [])) : Option QueryParam) = some (.jsonb (.list [])) := h
    cases h

/-- The text of the object with the one member `a`, which is 1. -/
def objectText : List Char := Json.text none 0 (.dict [(['a'], .int 1)])

theorem loads_object : Json.loads objectText = some (.dict [(['a'], .int 1)]) := by
  have hdigits : (natText (1 : Int).natAbs).length ≤ maxStrDigits := by decide
  have hwritable : Json.Writable (.dict [(['a'], .int 1)]) := ⟨by decide, hdigits, trivial⟩
  exact Json.loadsWith_text none none hwritable

/-- An object, and null. -/
theorem convertersAgree_object_null :
    ¬ ConvertersAgree jsonbDriver id objectText .json ∧
      ConvertersAgree jsonbDriver id "null".toList .json := by
  have hnull : Json.loads "null".toList = some .null := rfl
  constructor
  · intro h
    have hstrip : strip objectText = objectText := rfl
    have hiff := convertersAgree_iff jsonbDriver_documented id hstrip (by decide) .json
    cases hiff.mp h rfl _ loads_object with
    | inl h => cases h
    | inr h => cases h
  · refine (convertersAgree_iff jsonbDriver_documented id rfl (by decide) .json).mpr ?_
    intro _ v hv
    exact .inl (Option.some.inj (hv.symm.trans hnull))

/-- The import cannot even send an object. -/
theorem not_convertersAgree_object :
    ¬ ∀ (D : Driver), D.Documented → ∀ (floatText : List Char → List Char) (raw : List Char) (T : DataType),
      strip raw = raw → raw ≠ [] → ConvertersAgree D floatText raw T := by
  intro h
  have hagree := h jsonbDriver jsonbDriver_documented id objectText .json rfl (by decide)
  have hconvert : Imports.convertValue objectText .json =
      .ok (.json (.dict [(['a'], .int 1)])) := by
    rw [convertValue_eq rfl (by decide) .json, convertStripped_json loads_object]
    rfl
  have hstored := hagree.2 _ _ (.jsonb (.dict [(['a'], .int 1)])) hconvert loads_object rfl
  cases hstored

end Databases
