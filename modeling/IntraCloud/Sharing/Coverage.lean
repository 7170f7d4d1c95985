import IntraCloud.Sharing.Services
import IntraCloud.Transition.Runs

/-!
# What sharing promises

Completeness: whoever a live share covers can do what its level says. Soundness: every grant row is
backed by a share that has not been revoked, or was made directly. `Permitted` and `Stable` are the
conditions on the steps of a run under which the two hold.
-/

namespace Sharing

open Audit Organizations Permissions

/-- `share` is neither revoked nor expired. -/
def ShareGrant.live (now : Nat) (share : ShareGrant) : Bool :=
  share.revokedAt == none &&
    match share.expiresAt with
    | none => true
    | some e => now < e

/-- Every user a live share has covered since its creation has each permission of its level. -/
def Complete (s : State) : Prop :=
  ∀ share ∈ s.shareGrants, share.live s.now = true → ∀ user ∈ share.covered,
    ∀ code ∈ levelCodes share.resourceType share.level,
      hasResourcePermission s.tables s.now user code share.organization share.resourceType
        share.resourceId = true

instance : DecidablePred Complete := fun s => by unfold Complete; infer_instance

/-- A grant that expires at `e` lasts as long as a share that expires at `e'`. -/
def Outlasts (e e' : Option Nat) : Prop :=
  e = none ∨ ∃ a ∈ e, ∃ b ∈ e', b ≤ a

instance : DecidableRel Outlasts := fun e e' =>
  match e, e' with
  | none, _ => isTrue (Or.inl rfl)
  | some a, none => isFalse (by simp [Outlasts])
  | some a, some b => decidable_of_iff (b ≤ a) (by simp [Outlasts])

/-- The row is one the share stands for: on its resource, with a permission of its level, for one of
`users`. -/
def ShareGrant.Covers (share : ShareGrant) (users : List Uuid) (g : ResourceGrant) : Prop :=
  g.user ∈ users ∧ g.permission ∈ levelCodes share.resourceType share.level ∧
    g.organization = share.organization ∧ g.resourceType = share.resourceType ∧
    g.resourceId = share.resourceId

instance (share : ShareGrant) (users : List Uuid) (g : ResourceGrant) :
    Decidable (share.Covers users g) := by
  unfold ShareGrant.Covers; infer_instance

/-- The request passes every check of the view and the service, and the codes of its level are known
permissions. -/
def Accepts (s : State) (r : ShareRequest) : Prop :=
  isMember s.memberships r.actor r.organization = true ∧
    r.user.any (fun u => !s.users.contains u) = false ∧
    r.team.any (fun t => !s.memberTeam r.actor t r.organization) = false ∧
    hasPermission s.tables s.now r.actor "sharing.manage" r.organization none = true ∧
    (validateShare s r).isOk = true ∧
    ∀ code ∈ levelCodes r.resourceType r.level, code ∈ s.tables.permissions

instance (s : State) (r : ShareRequest) : Decidable (Accepts s r) := by
  unfold Accepts; infer_instance

/-- The revocation finds its share and passes `_require`. -/
def Revokes (s : State) (actor : Uuid) (share : ShareGrant) : Prop :=
  getMemberShare s actor share.id = some share ∧
    hasPermission s.tables s.now actor "sharing.manage" share.organization none = true

instance (s : State) (actor : Uuid) (share : ShareGrant) : Decidable (Revokes s actor share) := by
  unfold Revokes; infer_instance

/-- No live share other than the one with this id needs the row. -/
def Unneeded (s : State) (shareId : Option Uuid) (g : ResourceGrant) : Prop :=
  ∀ share ∈ s.shareGrants, some share.id ≠ shareId → share.live s.now = true →
    ¬ share.Covers share.covered g

instance (s : State) (shareId : Option Uuid) (g : ResourceGrant) :
    Decidable (Unneeded s shareId g) := by
  unfold Unneeded; infer_instance

/-- The step keeps sharing complete: where a new share meets a row that is already there, the row is
of the same organization and lasts as long as the share; and no row is deleted that another live
share needs. -/
def Permitted (s : State) : Action → Prop
  | .create r =>
    Accepts s r → (r.shareGrant s.nextUuid []).live s.now = true →
      ∀ g ∈ s.tables.resourceGrants, g.user ∈ targetUsers s r →
        g.permission ∈ levelCodes r.resourceType r.level → g.resourceType = r.resourceType →
        g.resourceId = r.resourceId →
          g.organization = r.organization ∧ Outlasts g.expiresAt r.expiresAt
  | .revoke actor shareId _ =>
    ∀ share ∈ s.shareGrants, share.id = shareId → Revokes s actor share →
      ∀ g ∈ s.tables.resourceGrants, share.deletes s.memberships g = true →
        Unneeded s (some shareId) g
  | .removeDirectly user permission resourceType resourceId =>
    ∀ g ∈ s.tables.resourceGrants, g.key = (user, permission, resourceType, resourceId) →
      Unneeded s none g
  | .grantDirectly _ | .advance _ | .changeMemberships _ => True

instance (s : State) : DecidablePred (Permitted s) := fun a => by
  cases a with
  | create r =>
    unfold Permitted
    exact @instDecidableForall _ _ inferInstance (@instDecidableForall _ _ inferInstance inferInstance)
  | _ => unfold Permitted; infer_instance

/-- The row was granted directly, or by a share that is not revoked and covers it. -/
def Backed (s : State) (g : ResourceGrant) : Prop :=
  g.origin = .direct ∨
    ∃ share ∈ s.shareGrants, g.origin = .share share.id ∧ share.revokedAt = none ∧
      share.Covers (share.userIds s.memberships) g

instance (s : State) : DecidablePred (Backed s) := fun g => by unfold Backed; infer_instance

/-- Memberships take nobody out of a share between its creation and its revocation. -/
def Stable (s : State) : Action → Prop
  | .changeMemberships memberships =>
    ∀ share ∈ s.shareGrants, share.revokedAt = none →
      ∀ user ∈ share.userIds s.memberships, user ∈ share.userIds memberships
  | _ => True

instance (s : State) : DecidablePred (Stable s) := fun a => by
  cases a <;> unfold Stable <;> infer_instance

end Sharing
