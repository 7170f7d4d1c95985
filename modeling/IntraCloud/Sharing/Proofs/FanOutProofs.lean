import IntraCloud.Sharing.Coverage
import Mathlib.Tactic.Tauto

/-!
# What the two sharing requests can do

One inversion lemma for each request: it leaves the rows alone (at most an audit event is added),
or it went through and the rows changed exactly as its transaction says.
-/

namespace Sharing

open Audit Organizations Permissions

/-- `s'` differs from `s` at most in the audit log. -/
def Recorded (s s' : State) : Prop :=
  ∃ audit, s' = { s with tables := { s.tables with audit } }

namespace Recorded

variable {s s' : State}

theorem refl (s : State) : Recorded s s := ⟨s.tables.audit, rfl⟩

end Recorded

theorem recorded_of_record {s s' : State} {e : AuditEvent} (h : s.record e = some s') :
    Recorded s s' := by
  simp only [State.record, Option.map_eq_some_iff] at h
  obtain ⟨audit, -, rfl⟩ := h
  exact ⟨audit, rfl⟩

/-- `_require` either lets the call go on from the same state, or raises after at most a record. -/
theorem requirePermission_cases (s : State) (actor : Uuid) (code : String) (organization : Uuid)
    (action : String) (resourceId : Option Uuid) (requestId : String) :
    (hasPermission s.tables s.now actor code organization none = true ∧
      requirePermission s actor code organization action resourceId requestId = (s, .ok ())) ∨
    ∃ s' e, Recorded s s' ∧
      requirePermission s actor code organization action resourceId requestId = (s', .error e) := by
  unfold requirePermission
  split
  · rename_i h
    exact Or.inl ⟨h, rfl⟩
  · right
    split
    · exact ⟨s, _, Recorded.refl s, rfl⟩
    · rename_i s' h
      exact ⟨s', _, recorded_of_record h, rfl⟩

theorem validateShare_codes {s : State} {r : ShareRequest} {codes : List String}
    (h : validateShare s r = .ok codes) : levelCodes r.resourceType r.level = codes := by
  unfold validateShare at h
  split at h
  · cases h
  rename_i levels hlevels
  split at h
  · cases h
  rename_i codes' hcodes
  have hcodes' : levelCodes r.resourceType r.level = codes' := by
    simp [levelCodes, hlevels, hcodes]
  rw [hcodes']
  repeat' split at h
  all_goals cases h
  all_goals rfl

/-! ## The fan-out -/

/-- The nested loops keep every row there was and add only rows they were asked for. -/
theorem grantAll_rows {t t' : Tables} {gs : List ResourceGrant} (h : grantAll t gs = .ok t') :
    (∀ g ∈ t.resourceGrants, g ∈ t'.resourceGrants) ∧
      ∀ g ∈ t'.resourceGrants, g ∈ t.resourceGrants ∨ g ∈ gs := by
  induction gs generalizing t with
  | nil => cases h; exact ⟨fun _ hg => hg, fun _ hg => Or.inl hg⟩
  | cons g gs ih =>
    unfold grantAll at h
    split at h
    · rename_i t1 h1
      obtain ⟨hrows, -⟩ := grantResourcePermission_ok h1
      obtain ⟨hkeep, hnew⟩ := ih h
      rw [hrows] at hkeep hnew
      refine ⟨fun x hx => hkeep x (List.mem_append_left _ hx), fun x hx => ?_⟩
      rcases hnew x hx with hx | hx
      · rcases List.mem_append.1 hx with hx | hx
        · exact Or.inl hx
        · rw [List.mem_singleton.1 hx]
          exact Or.inr List.mem_cons_self
      · exact Or.inr (List.mem_cons_of_mem _ hx)
    · obtain ⟨hkeep, hnew⟩ := ih h
      exact ⟨hkeep, fun x hx => (hnew x hx).imp id (List.mem_cons_of_mem _)⟩
    · cases h
    · cases h

/-- After the loops every requested key has a row: one that was there before, or a requested one. -/
theorem grantAll_served {t t' : Tables} {gs : List ResourceGrant} (h : grantAll t gs = .ok t') :
    ∀ g ∈ gs, ∃ x ∈ t'.resourceGrants, x.key = g.key ∧ (x ∈ t.resourceGrants ∨ x ∈ gs) := by
  induction gs generalizing t with
  | nil => simp
  | cons g gs ih =>
    intro y hy
    unfold grantAll at h
    split at h
    · rename_i t1 h1
      obtain ⟨hrows, -⟩ := grantResourcePermission_ok h1
      rcases List.mem_cons.1 hy with rfl | hy
      · exact ⟨y, (grantAll_rows h).1 y (by simp [hrows]), rfl, Or.inr List.mem_cons_self⟩
      · obtain ⟨x, hx, hkey, hor⟩ := ih h y hy
        refine ⟨x, hx, hkey, ?_⟩
        rw [hrows] at hor
        simp only [List.mem_append, List.mem_cons] at hor ⊢
        tauto
    · rename_i h1
      rcases List.mem_cons.1 hy with rfl | hy
      · obtain ⟨x, hx, hkey⟩ := grantResourcePermission_integrityError h1
        exact ⟨x, (grantAll_rows h).1 x hx, hkey, Or.inl hx⟩
      · obtain ⟨x, hx, hkey, hor⟩ := ih h y hy
        exact ⟨x, hx, hkey, hor.imp id (List.mem_cons_of_mem _)⟩
    · cases h
    · cases h

/-- The loops assign no roles. -/
theorem grantAll_roleAssignments {t t' : Tables} {gs : List ResourceGrant}
    (h : grantAll t gs = .ok t') : t'.roleAssignments = t.roleAssignments := by
  induction gs generalizing t with
  | nil =>
    cases h
    rfl
  | cons g gs ih =>
    unfold grantAll at h
    split at h
    · rename_i t1 h1
      obtain ⟨-, -, hroles, -⟩ := grantResourcePermission_ok h1
      rw [← hroles]
      exact ih h
    · exact ih h
    · cases h
    · cases h

theorem mem_fanOut {r : ShareRequest} {shareId : Uuid} {codes : List String} {targets : List Uuid}
    {g : ResourceGrant} :
    g ∈ r.fanOut shareId codes targets ↔
      ∃ code ∈ codes, ∃ user ∈ targets, r.grant shareId code user = g := by
  simp [ShareRequest.fanOut]

/-- The loops go through only where every code is a known permission. -/
theorem grantAll_known {t t' : Tables} {gs : List ResourceGrant} (h : grantAll t gs = .ok t') :
    ∀ g ∈ gs, g.permission ∈ t.permissions := by
  induction gs generalizing t with
  | nil => simp
  | cons g gs ih =>
    intro y hy
    have hg : g.permission ∈ t.permissions := by
      by_contra hmem
      rw [grantAll, grantResourcePermission_unknown hmem] at h
      cases h
    unfold grantAll at h
    split at h
    · rename_i t1 h1
      obtain ⟨-, hperms, -⟩ := grantResourcePermission_ok h1
      rcases List.mem_cons.1 hy with rfl | hy
      · exact hg
      · rw [← hperms]
        exact ih h y hy
    · rcases List.mem_cons.1 hy with rfl | hy
      · exact hg
      · exact ih h y hy
    · cases h
    · cases h

/-! ## The two requests -/

theorem createShareGrant_cases (s : State) (r : ShareRequest) :
    Recorded s (createShareGrant s r).1 ∨
    ∃ tables, hasPermission s.tables s.now r.actor "sharing.manage" r.organization none = true ∧
      (validateShare s r).isOk = true ∧
      grantAll s.tables (r.fanOut s.nextUuid (levelCodes r.resourceType r.level)
        (targetUsers s r)) = .ok tables ∧
      Recorded (s.withShare (r.shareGrant s.nextUuid (targetUsers s r)) tables)
        (createShareGrant s r).1 := by
  unfold createShareGrant
  obtain ⟨hperm, h⟩ | ⟨s', e, hs', h⟩ := requirePermission_cases s r.actor "sharing.manage"
    r.organization "sharing.create" (some r.resourceId) r.requestId
  · rw [h]
    dsimp only
    split
    · exact Or.inl (Recorded.refl s)
    rename_i codes hcodes
    split
    · exact Or.inl (Recorded.refl s)
    rename_i tables htables
    right
    rw [validateShare_codes hcodes]
    refine ⟨tables, hperm, by rw [hcodes]; rfl, htables, ?_⟩
    split
    · exact Recorded.refl _
    · rename_i s' hrec
      exact recorded_of_record hrec
  · rw [h]
    exact Or.inl hs'

/-- A sharing request at most records an event, or it adds one share and the rows of its fan-out. -/
theorem postShareGrant_cases (s : State) (r : ShareRequest) :
    Recorded s (postShareGrant s r).1 ∨
    ∃ tables, (∀ user ∈ targetUsers s r, Accepts s r) ∧
      grantAll s.tables (r.fanOut s.nextUuid (levelCodes r.resourceType r.level)
        (targetUsers s r)) = .ok tables ∧
      Recorded (s.withShare (r.shareGrant s.nextUuid (targetUsers s r)) tables)
        (postShareGrant s r).1 := by
  unfold postShareGrant
  split
  · exact Or.inl (Recorded.refl s)
  rename_i hmember
  split
  · exact Or.inl (Recorded.refl s)
  rename_i huser
  split
  · exact Or.inl (Recorded.refl s)
  rename_i hteam
  refine (createShareGrant_cases s r).imp id ?_
  rintro ⟨tables, hperm, hvalid, hgrants, hrec⟩
  refine ⟨tables, fun user hu => ?_, hgrants, hrec⟩
  refine ⟨by simpa using hmember, by simpa using huser, by simpa using hteam, hperm, hvalid,
    fun code hcode => ?_⟩
  exact grantAll_known hgrants (r.grant s.nextUuid code user)
    (mem_fanOut.2 ⟨code, hcode, user, hu, rfl⟩)

theorem getMemberShare_mem {s : State} {user shareId : Uuid} {share : ShareGrant}
    (h : getMemberShare s user shareId = some share) : share ∈ s.shareGrants ∧ share.id = shareId := by
  have hp := List.find?_some h
  simp only [Bool.and_eq_true, beq_iff_eq] at hp
  exact ⟨List.mem_of_find?_eq_some h, hp.1⟩

/-- A revocation at most records an event, or it makes its two writes for a share it found. -/
theorem deleteShareGrant_cases (s : State) (actor shareId : Uuid) (requestId : String) :
    Recorded s (deleteShareGrant s actor shareId requestId).1 ∨
    ∃ share ∈ s.shareGrants, share.id = shareId ∧ Revokes s actor share ∧
      Recorded (s.withoutShare share) (deleteShareGrant s actor shareId requestId).1 := by
  unfold deleteShareGrant
  split
  · exact Or.inl (Recorded.refl s)
  rename_i share hshare
  unfold revokeShareGrant
  obtain ⟨hperm, h⟩ | ⟨s', e, hs', h⟩ := requirePermission_cases s actor "sharing.manage"
    share.organization "sharing.revoke" (some share.resourceId) requestId
  · rw [h]
    right
    obtain ⟨hmem, hid⟩ := getMemberShare_mem hshare
    refine ⟨share, hmem, hid, ⟨hid ▸ hshare, hperm⟩, ?_⟩
    dsimp only
    split
    · exact Recorded.refl _
    · rename_i s' hrec
      exact recorded_of_record hrec
  · rw [h]
    exact Or.inl hs'

end Sharing
