import IntraCloud.Python.JsonValue
import IntraCloud.Python.Proofs.JsonProofs
import Mathlib.Data.List.Nodup

/-!
# Values read back

Lookup in the members of a `dict`, and the fields and items of a value that was written with its keys
in order.
-/

namespace Python

namespace Json

/-! ## Lookup -/

theorem mem_of_member? {key : List Char} {members : List (List Char × PyJson)} {value : PyJson}
    (h : member? key members = some value) : (key, value) ∈ members := by
  obtain ⟨m, hfind, rfl⟩ := Option.map_eq_some_iff.mp h
  have hkey := List.find?_some hfind
  have hkey : m.1 = key := eq_of_beq hkey
  rw [← hkey]
  exact List.mem_of_find?_eq_some hfind

theorem member?_of_mem {key : List Char} {members : List (List Char × PyJson)}
    (h : key ∈ members.map (·.1)) : ∃ value, member? key members = some value := by
  obtain ⟨m, hm, rfl⟩ := List.mem_map.mp h
  have hsome : (members.find? (·.1 == m.1)).isSome = true := by
    rw [List.find?_isSome]
    exact ⟨m, hm, beq_self_eq_true _⟩
  obtain ⟨found, hfound⟩ := Option.isSome_iff_exists.mp hsome
  exact ⟨found.2, by rw [member?, hfound]; rfl⟩

theorem member?_eq_some_iff {key : List Char} {members : List (List Char × PyJson)} {value : PyJson}
    (h : (members.map (·.1)).Nodup) : member? key members = some value ↔ (key, value) ∈ members := by
  refine ⟨mem_of_member?, fun hmem => ?_⟩
  obtain ⟨found, hfound⟩ := member?_of_mem (List.mem_map_of_mem (f := (·.1)) hmem)
  have heq := List.inj_on_of_nodup_map h (mem_of_member? hfound) hmem rfl
  rw [hfound, (Prod.mk.inj heq).2]

/-! ## Keys in order -/

theorem sortedItems_eq (vs : List PyJson) : sortedItems vs = vs.map sorted := by
  induction vs with
  | nil => rfl
  | cons v vs ih => rw [sortedItems, ih, List.map_cons]

theorem sortedMembers_eq (ms : List (List Char × PyJson)) :
    sortedMembers ms = ms.map fun m => (m.1, sorted m.2) := by
  induction ms with
  | nil => rfl
  | cons m ms ih => rw [sortedMembers, ih, List.map_cons]

/-- The members of a `dict` in order. -/
def sortedDict (ms : List (List Char × PyJson)) : List (List Char × PyJson) :=
  (sortedMembers ms).mergeSort fun m n => textLe m.1 n.1

theorem sorted_dict (ms : List (List Char × PyJson)) : sorted (.dict ms) = .dict (sortedDict ms) := rfl

theorem sorted_list (vs : List PyJson) : sorted (.list vs) = .list (vs.map sorted) := by
  rw [sorted, sortedItems_eq]

theorem sortedDict_perm (ms : List (List Char × PyJson)) :
    (sortedDict ms).Perm (ms.map fun m => (m.1, sorted m.2)) := by
  rw [← sortedMembers_eq]
  exact List.mergeSort_perm _ _

theorem nodup_sortedDict {ms : List (List Char × PyJson)} (h : (ms.map (·.1)).Nodup) :
    ((sortedDict ms).map (·.1)).Nodup := by
  rw [((sortedDict_perm ms).map (·.1)).nodup_iff, List.map_map]
  exact h

/-- Sorting the keys keeps what is under them. -/
theorem member?_sortedDict {key : List Char} {ms : List (List Char × PyJson)}
    (h : (ms.map (·.1)).Nodup) : member? key (sortedDict ms) = (member? key ms).map sorted := by
  cases hmember : member? key ms with
  | some value =>
    rw [Option.map_some, member?_eq_some_iff (nodup_sortedDict h), (sortedDict_perm ms).mem_iff]
    exact List.mem_map_of_mem (f := fun m => (m.1, sorted m.2)) (mem_of_member? hmember)
  | none =>
    cases hsorted : member? key (sortedDict ms) with
    | none => rfl
    | some value =>
      have hmem := (sortedDict_perm ms).mem_iff.mp (mem_of_member? hsorted)
      obtain ⟨m, hm, heq⟩ := List.mem_map.mp hmem
      obtain ⟨rfl, -⟩ := Prod.mk.inj heq
      obtain ⟨found, hfound⟩ := member?_of_mem (List.mem_map_of_mem (f := (·.1)) hm)
      rw [hmember] at hfound
      cases hfound

/-- A `dict` filled with different keys has them in the order they came in. -/
theorem foldl_setMember {entries members : List (List Char × PyJson)}
    (h : ((members ++ entries).map (·.1)).Nodup) :
    entries.foldl (fun ms e => setMember e.1 e.2 ms) members = members ++ entries := by
  induction entries generalizing members with
  | nil => rw [List.foldl_nil, List.append_nil]
  | cons e entries ih =>
    have hassoc : (members ++ [e]) ++ entries = members ++ e :: entries := (List.append_cons ..).symm
    have hkey : e.1 ∉ members.map (·.1) := by
      intro hmem
      rw [List.map_append, List.map_cons] at h
      exact (List.nodup_append.mp h).2.2 _ hmem _ (List.mem_cons_self ..) rfl
    rw [List.foldl_cons, setMember_of_not_mem e.2 hkey, ih (hassoc ▸ h), hassoc]

end Json

namespace PyJson

theorem field_dict (ms : List (List Char × PyJson)) (key : String) :
    (PyJson.dict ms).field key = Json.member? key.toList ms := rfl

theorem get_dict (ms : List (List Char × PyJson)) (key : String) (default : PyJson) :
    (PyJson.dict ms).get key default = some ((Json.member? key.toList ms).getD default) := rfl

end PyJson

end Python
