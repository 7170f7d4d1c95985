import IntraCloud.Relational.Rows
import Mathlib.Data.List.Infix
import Mathlib.Data.List.Nodup

/-!
# Forests as tables

An adjacency list: rows with a label and the id of their parent. Ids grow, and a parent is there before its
children; labels are distinct below one parent, and need not be among the roots. A path names one node where the
roots have distinct labels, and its suffixes are the paths of the nodes above.
-/

namespace Relational

/-- A row of the table. -/
structure Node (α : Type) where
  id : Nat
  parent : Option Nat
  label : α
  deriving DecidableEq, Repr

namespace Forest

variable {α : Type}

/-- The labels from a node up to its root. Ids bound the number of steps. -/
def upward (nodes : List (Node α)) : Nat → Option Nat → List α
  | 0, _ => []
  | _ + 1, none => []
  | fuel + 1, some id =>
    match nodes.find? fun n => n.id == id with
    | none => []
    | some n => n.label :: upward nodes fuel n.parent

/-- The node is on the way up. -/
inductive Above (nodes : List (Node α)) (id : Nat) : Option Nat → Prop where
  | self : Above nodes id (some id)
  | up {n : Node α} (hn : n ∈ nodes) (h : Above nodes id n.parent) : Above nodes id (some n.id)

/-- What the constraints of the table and the order of inserts give. -/
structure Formed (nodes : List (Node α)) : Prop where
  ids : Keyed Node.id nodes
  parents : ∀ n ∈ nodes, ∀ p ∈ n.parent, p < n.id ∧ ∃ m ∈ nodes, m.id = p
  siblings : ∀ m ∈ nodes, ∀ n ∈ nodes, m.parent = n.parent → m.parent ≠ none → m.label = n.label → m = n

/-- The labels of the roots are distinct. -/
def RootsDistinct (nodes : List (Node α)) : Prop :=
  ∀ m ∈ nodes, ∀ n ∈ nodes, m.parent = none → n.parent = none → m.label = n.label → m = n

/-- The forests are the same but for their ids, which `rename` takes to each other. -/
structure Renames (rename : Nat → Nat) (nodes nodes' : List (Node α)) : Prop where
  distinct : ∀ m ∈ nodes, ∀ n ∈ nodes, rename m.id = rename n.id → m = n
  nodes : nodes'.Perm (nodes.map fun n => ⟨rename n.id, n.parent.map rename, n.label⟩)

variable {nodes : List (Node α)}

/-! ## One step up -/

theorem upward_none (fuel : Nat) : upward nodes fuel none = [] := by
  cases fuel with
  | zero => rfl
  | succ fuel => rfl

theorem find?_node (h : Keyed Node.id nodes) {n : Node α} (hn : n ∈ nodes) :
    (nodes.find? fun m => m.id == n.id) = some n := h.find?_eq hn

theorem upward_succ (h : Keyed Node.id nodes) {n : Node α} (hn : n ∈ nodes) (fuel : Nat) :
    upward nodes (fuel + 1) (some n.id) = n.label :: upward nodes fuel n.parent := by
  rw [upward, find?_node h hn]

/-- Any bound above the id gives the same path. -/
theorem upward_eq (h : Formed nodes) {n : Node α} (hn : n ∈ nodes) {fuel fuel' : Nat} (hfuel : n.id < fuel)
    (hfuel' : n.id < fuel') : upward nodes fuel (some n.id) = upward nodes fuel' (some n.id) := by
  induction fuel generalizing n fuel' with
  | zero => omega
  | succ fuel ih =>
    obtain ⟨bound, rfl⟩ : ∃ bound, fuel' = bound + 1 := ⟨fuel' - 1, by omega⟩
    rw [upward_succ h.ids hn, upward_succ h.ids hn]
    cases hparent : n.parent with
    | none => rw [upward_none, upward_none]
    | some p =>
      obtain ⟨hlt, m, hm, rfl⟩ := h.parents n hn p hparent
      have hfuel : m.id < fuel := by omega
      have hbound : m.id < bound := by omega
      rw [ih hm hfuel hbound]

/-- The path of a node is its label and the path of its parent. -/
theorem upward_node (h : Formed nodes) {n : Node α} (hn : n ∈ nodes) {fuel : Nat} (hfuel : n.id < fuel) :
    upward nodes fuel (some n.id) = n.label :: upward nodes fuel n.parent := by
  obtain ⟨bound, rfl⟩ : ∃ bound, fuel = bound + 1 := ⟨fuel - 1, by omega⟩
  rw [upward_succ h.ids hn]
  cases hparent : n.parent with
  | none => rw [upward_none, upward_none]
  | some p =>
    obtain ⟨hlt, m, hm, rfl⟩ := h.parents n hn p hparent
    have hbound : m.id < bound := by omega
    have hsucc : m.id < bound + 1 := by omega
    rw [upward_eq h hm hbound hsucc]

/-! ## Paths name nodes -/

/-- Where the roots have distinct labels, so do all nodes have distinct paths. -/
theorem upward_injective (h : Formed nodes) (hroots : RootsDistinct nodes) {fuel : Nat}
    (hfuel : ∀ n ∈ nodes, n.id < fuel) {m n : Node α} (hm : m ∈ nodes) (hn : n ∈ nodes)
    (heq : upward nodes fuel (some m.id) = upward nodes fuel (some n.id)) : m = n := by
  -- The induction is on the path of `m`.
  generalize hpath : upward nodes fuel (some m.id) = path at heq
  induction path generalizing m n with
  | nil =>
    rw [upward_node h hm (hfuel m hm)] at hpath
    exact absurd hpath (List.cons_ne_nil _ _)
  | cons label path ih =>
    rw [upward_node h hm (hfuel m hm)] at hpath
    rw [upward_node h hn (hfuel n hn)] at heq
    obtain ⟨hlabel, hparent⟩ := List.cons.inj hpath
    obtain ⟨hlabel', hparent'⟩ := List.cons.inj heq
    have hlabels : m.label = n.label := hlabel.trans hlabel'
    cases hmp : m.parent with
    | none =>
      cases hnp : n.parent with
      | none => exact hroots m hm n hn hmp hnp hlabels
      | some q =>
        obtain ⟨-, y, hy, rfl⟩ := h.parents n hn q hnp
        rw [hmp, upward_none] at hparent
        rw [hnp, upward_node h hy (hfuel y hy), ← hparent] at hparent'
        exact absurd hparent'.symm (List.cons_ne_nil _ _)
    | some p =>
      obtain ⟨-, x, hx, rfl⟩ := h.parents m hm p hmp
      cases hnp : n.parent with
      | none =>
        rw [hnp, upward_none] at hparent'
        rw [hmp, upward_node h hx (hfuel x hx), hparent'] at hparent
        exact absurd hparent (List.cons_ne_nil _ _)
      | some q =>
        obtain ⟨-, y, hy, rfl⟩ := h.parents n hn q hnp
        rw [hmp] at hparent
        rw [hnp] at hparent'
        have hxy : x = y := ih hx hy hparent hparent'
        subst hxy
        exact h.siblings m hm n hn (hmp.trans hnp.symm) (by rw [hmp]; exact Option.some_ne_none _) hlabels

/-- A node is above itself, and what is above its parent is above it. -/
theorem above_node_iff (h : Keyed Node.id nodes) {n : Node α} (hn : n ∈ nodes) {id : Nat} :
    Above nodes id (some n.id) ↔ id = n.id ∨ Above nodes id n.parent := by
  constructor
  · intro habove
    generalize hid : some n.id = o at habove
    cases habove with
    | self =>
      left
      exact (Option.some.inj hid).symm
    | @up m hm habove =>
      right
      rw [h n hn m hm (Option.some.inj hid)]
      exact habove
  · rintro (rfl | habove)
    · exact .self
    · exact .up hn habove

theorem not_above_none {id : Nat} : ¬ Above nodes id none := by
  intro h
  cases h

/-- The suffixes of a path are the paths of the nodes above. -/
theorem suffix_upward_iff (h : Formed nodes) {fuel : Nat} (hfuel : ∀ n ∈ nodes, n.id < fuel) {o : Option Nat}
    (ho : ∀ id ∈ o, ∃ n ∈ nodes, n.id = id) {path : List α} :
    (path ≠ [] ∧ path <:+ upward nodes fuel o) ↔
      ∃ n ∈ nodes, Above nodes n.id o ∧ upward nodes fuel (some n.id) = path := by
  -- The induction is on the path from `o`.
  generalize hup : upward nodes fuel o = up
  induction up generalizing o with
  | nil =>
    constructor
    · rintro ⟨hne, hsuffix⟩
      exact absurd (List.suffix_nil.mp hsuffix) hne
    · rintro ⟨n, hn, habove, -⟩
      cases o with
      | none => exact absurd habove not_above_none
      | some id =>
        obtain ⟨m, hm, rfl⟩ := ho id rfl
        rw [upward_node h hm (hfuel m hm)] at hup
        exact absurd hup (List.cons_ne_nil _ _)
  | cons label up ih =>
    cases o with
    | none =>
      rw [upward_none] at hup
      exact absurd hup.symm (List.cons_ne_nil _ _)
    | some id =>
      obtain ⟨m, hm, rfl⟩ := ho id rfl
      have hstep := upward_node h hm (hfuel m hm)
      have hparent : upward nodes fuel m.parent = up := (List.cons.inj (hstep.symm.trans hup)).2
      have hup' := ih (fun p hp => (h.parents m hm p hp).2) hparent
      rw [List.suffix_cons_iff]
      constructor
      · rintro ⟨hne, rfl | hsuffix⟩
        · exact ⟨m, hm, .self, hup⟩
        · obtain ⟨n, hn, habove, hpath⟩ := hup'.mp ⟨hne, hsuffix⟩
          exact ⟨n, hn, .up hm habove, hpath⟩
      · rintro ⟨n, hn, habove, hpath⟩
        obtain heq | habove := (above_node_iff h.ids hm).mp habove
        · have hnode : n = m := h.ids n hn m hm heq
          subst hnode
          rw [hup] at hpath
          exact ⟨hpath ▸ List.cons_ne_nil _ _, .inl hpath.symm⟩
        · obtain ⟨hne, hsuffix⟩ := hup'.mpr ⟨n, hn, habove, hpath⟩
          exact ⟨hne, .inr hsuffix⟩

/-! ## A further node -/

/-- Paths stay as they are. -/
theorem upward_append (h : Formed nodes) (more : List (Node α)) (fuel : Nat) {o : Option Nat}
    (ho : ∀ id ∈ o, ∃ n ∈ nodes, n.id = id) : upward (nodes ++ more) fuel o = upward nodes fuel o := by
  induction fuel generalizing o with
  | zero => rfl
  | succ fuel ih =>
    cases o with
    | none => rfl
    | some id =>
      obtain ⟨n, hn, rfl⟩ := ho id rfl
      have hfind : ((nodes ++ more).find? fun m => m.id == n.id) = some n := by
        rw [List.find?_append, find?_node h.ids hn]
        rfl
      rw [upward_succ h.ids hn, upward, hfind]
      dsimp only
      rw [ih fun p hp => (h.parents n hn p hp).2]

/-- Any bound above the ids gives the same path. -/
theorem upward_congr (h : Formed nodes) {o : Option Nat} (ho : ∀ id ∈ o, ∃ n ∈ nodes, n.id = id)
    {fuel fuel' : Nat} (hfuel : ∀ n ∈ nodes, n.id < fuel) (hfuel' : ∀ n ∈ nodes, n.id < fuel') :
    upward nodes fuel o = upward nodes fuel' o := by
  cases o with
  | none => rw [upward_none, upward_none]
  | some id =>
    obtain ⟨n, hn, rfl⟩ := ho id rfl
    exact upward_eq h hn (hfuel n hn) (hfuel' n hn)

/-! ## Renaming -/

variable {nodes' : List (Node α)} {rename : Nat → Nat}

/-- A node with its ids renamed. -/
theorem Renames.mem_iff (h : Renames rename nodes nodes') {n' : Node α} :
    n' ∈ nodes' ↔ ∃ n ∈ nodes, (⟨rename n.id, n.parent.map rename, n.label⟩ : Node α) = n' :=
  h.nodes.mem_iff.trans List.mem_map

theorem Renames.id_eq (h : Renames rename nodes nodes') {m n : Node α} (hm : m ∈ nodes) (hn : n ∈ nodes)
    (heq : rename m.id = rename n.id) : m.id = n.id := congrArg Node.id (h.distinct m hm n hn heq)

/-- What is above after renaming was above before. -/
theorem Renames.above (h : Renames rename nodes nodes') (hformed : Formed nodes) {m : Node α} (hm : m ∈ nodes)
    {o : Option Nat} (ho : ∀ id ∈ o, ∃ n ∈ nodes, n.id = id)
    (habove : Above nodes' (rename m.id) (o.map rename)) : Above nodes m.id o := by
  generalize htarget : o.map rename = target at habove
  induction habove generalizing o with
  | self =>
    obtain ⟨id, rfl, hid⟩ := Option.map_eq_some_iff.mp htarget
    obtain ⟨n, hn, rfl⟩ := ho id rfl
    rw [h.id_eq hn hm hid]
    exact .self
  | @up n' hn' _ ih =>
    obtain ⟨id, rfl, hid⟩ := Option.map_eq_some_iff.mp htarget
    obtain ⟨k, hk, rfl⟩ := ho id rfl
    obtain ⟨n, hn, rfl⟩ := h.mem_iff.mp hn'
    rw [h.id_eq hk hn hid]
    exact .up hn (ih (fun p hp => (hformed.parents n hn p hp).2) rfl)

/-- Roots that are distinct after renaming were so before. -/
theorem Renames.rootsDistinct (h : Renames rename nodes nodes') (hroots : RootsDistinct nodes') :
    RootsDistinct nodes := by
  intro m hm n hn hmp hnp hlabel
  have hm' := h.mem_iff.mpr ⟨m, hm, rfl⟩
  have hn' := h.mem_iff.mpr ⟨n, hn, rfl⟩
  rw [hmp] at hm'
  rw [hnp] at hn'
  exact h.distinct m hm n hn (congrArg Node.id (hroots _ hm' _ hn' rfl rfl hlabel))

/-- The paths of the forests correspond. -/
structure SamePaths (rename : Nat → Nat) (nodes nodes' : List (Node α)) (fuel fuel' : Nat) : Prop where
  there : ∀ n ∈ nodes, ∃ n' ∈ nodes', n'.id = rename n.id ∧
    upward nodes' fuel' (some n'.id) = upward nodes fuel (some n.id)
  back : ∀ n' ∈ nodes', ∃ n ∈ nodes, upward nodes' fuel' (some n'.id) = upward nodes fuel (some n.id)

theorem upward_eq_nil_iff (h : Formed nodes) {fuel : Nat} (hfuel : ∀ n ∈ nodes, n.id < fuel) {o : Option Nat}
    (ho : ∀ id ∈ o, ∃ n ∈ nodes, n.id = id) : upward nodes fuel o = [] ↔ o = none := by
  cases o with
  | none => rw [upward_none]; exact ⟨fun _ => rfl, fun _ => rfl⟩
  | some id =>
    obtain ⟨n, hn, rfl⟩ := ho id rfl
    rw [upward_node h hn (hfuel n hn)]
    exact ⟨fun hnil => absurd hnil (List.cons_ne_nil _ _), fun hnone => absurd hnone (Option.some_ne_none _)⟩

/-- The image of a node is the renamed node. -/
theorem SamePaths.image {fuel fuel' : Nat} (h : SamePaths rename nodes nodes' fuel fuel')
    (hformed : Formed nodes) (hformed' : Formed nodes') (hroots' : RootsDistinct nodes')
    (hfuel : ∀ n ∈ nodes, n.id < fuel) (hfuel' : ∀ n ∈ nodes', n.id < fuel') {n n' : Node α} (hn : n ∈ nodes)
    (hn' : n' ∈ nodes') (hid : n'.id = rename n.id)
    (hpath : upward nodes' fuel' (some n'.id) = upward nodes fuel (some n.id)) :
    n' = ⟨rename n.id, n.parent.map rename, n.label⟩ := by
  rw [upward_node hformed' hn' (hfuel' n' hn'), upward_node hformed hn (hfuel n hn)] at hpath
  obtain ⟨hlabel, hparents⟩ := List.cons.inj hpath
  have hparent : n'.parent = n.parent.map rename := by
    cases hp : n.parent with
    | none =>
      rw [hp, upward_none] at hparents
      exact (upward_eq_nil_iff hformed' hfuel' fun p hp => (hformed'.parents n' hn' p hp).2).mp hparents
    | some p =>
      obtain ⟨-, m, hm, rfl⟩ := hformed.parents n hn p hp
      obtain ⟨m', hm', hmid, hmpath⟩ := h.there m hm
      rw [hp, ← hmpath] at hparents
      cases hp' : n'.parent with
      | none =>
        rw [hp', upward_none, upward_node hformed' hm' (hfuel' m' hm')] at hparents
        exact absurd hparents.symm (List.cons_ne_nil _ _)
      | some p' =>
        obtain ⟨-, k, hk, rfl⟩ := hformed'.parents n' hn' p' hp'
        rw [hp'] at hparents
        have hkm : k = m' := upward_injective hformed' hroots' hfuel' hk hm' hparents
        rw [hkm, hmid]
        rfl
  obtain ⟨id', parent', label'⟩ := n'
  dsimp only at hid hparent hlabel
  rw [hid, hparent, hlabel]

/-- Forests with the same paths are the same but for their ids. -/
theorem SamePaths.renames {fuel fuel' : Nat} (h : SamePaths rename nodes nodes' fuel fuel')
    (hformed : Formed nodes) (hformed' : Formed nodes') (hroots : RootsDistinct nodes)
    (hroots' : RootsDistinct nodes') (hfuel : ∀ n ∈ nodes, n.id < fuel) (hfuel' : ∀ n ∈ nodes', n.id < fuel')
    (hids : (nodes.map Node.id).Nodup) (hids' : (nodes'.map Node.id).Nodup) :
    Renames rename nodes nodes' := by
  have hdistinct : ∀ m ∈ nodes, ∀ n ∈ nodes, rename m.id = rename n.id → m = n := by
    intro m hm n hn heq
    obtain ⟨m', hm', hmid, hmpath⟩ := h.there m hm
    obtain ⟨n', hn', hnid, hnpath⟩ := h.there n hn
    have hsame : m' = n' := hformed'.ids m' hm' n' hn' (by rw [hmid, hnid, heq])
    rw [hsame] at hmpath
    exact upward_injective hformed hroots hfuel hm hn (hmpath.symm.trans hnpath)
  refine ⟨hdistinct, (List.perm_ext_iff_of_nodup (List.Nodup.of_map _ hids') ?_).mpr fun n' => ?_⟩
  · refine (List.nodup_map_iff_inj_on (List.Nodup.of_map _ hids)).mpr fun m hm n hn heq => ?_
    exact hdistinct m hm n hn (congrArg Node.id heq)
  · rw [List.mem_map]
    constructor
    · intro hn'
      obtain ⟨n, hn, hpath⟩ := h.back n' hn'
      obtain ⟨k, hk, hkid, hkpath⟩ := h.there n hn
      have hsame : n' = k := upward_injective hformed' hroots' hfuel' hn' hk (hpath.trans hkpath.symm)
      rw [← hsame] at hk hkid hkpath
      exact ⟨n, hn, (h.image hformed hformed' hroots' hfuel hfuel' hn hk hkid hkpath).symm⟩
    · rintro ⟨n, hn, rfl⟩
      obtain ⟨k, hk, hkid, hkpath⟩ := h.there n hn
      rw [← h.image hformed hformed' hroots' hfuel hfuel' hn hk hkid hkpath]
      exact hk

end Forest

end Relational
