import IntraCloud.Sharing.Proofs.CompletenessProofs
import Mathlib.Data.List.Nodup

/-!
# Soundness of sharing

The invariant: share ids are unique and below the next fresh one, and every grant row is backed.
A revocation deletes the rows of the principal's users for the codes of the level, which are all
those the share backs, so nothing it granted outlives it while memberships keep its users.
-/

namespace Sharing

open Audit Organizations Permissions Transition

/-- What holds of the shares and the grant rows in every reachable state. -/
structure Sound (s : State) : Prop where
  /-- a share is known by its id -/
  nodup : (s.shareGrants.map (·.id)).Nodup
  /-- the next id is fresh -/
  fresh : ∀ share ∈ s.shareGrants, share.id < s.nextUuid
  /-- every row was granted directly or is backed by a share -/
  backed : ∀ g ∈ s.tables.resourceGrants, Backed s g

namespace Sound

variable {s : State}

theorem eq_of_id (h : Sound s) {a b : ShareGrant} (ha : a ∈ s.shareGrants) (hb : b ∈ s.shareGrants)
    (hid : a.id = b.id) : a = b :=
  List.inj_on_of_nodup_map h.nodup ha hb hid

/-- Nothing a revoked share granted is left. -/
theorem nothing_remains (h : Sound s) {share : ShareGrant} (hshare : share ∈ s.shareGrants)
    (hrev : share.revokedAt ≠ none) {g : ResourceGrant} (hg : g ∈ s.tables.resourceGrants) :
    g.origin ≠ .share share.id := by
  intro horigin
  rcases h.backed g hg with hd | ⟨sh, hsh, ho, hlive, -⟩
  · rw [hd] at horigin
    cases horigin
  · have hid : sh.id = share.id := by
      rw [ho] at horigin
      exact Origin.share.inj horigin
    exact hrev (h.eq_of_id hsh hshare hid ▸ hlive)

theorem of_recorded {s' : State} (h : Sound s) (hrec : Recorded s s') : Sound s' := by
  obtain ⟨audit, rfl⟩ := hrec
  exact ⟨h.nodup, h.fresh, h.backed⟩

end Sound

theorem deletes_iff {share : ShareGrant} {memberships : List Membership} {g : ResourceGrant} :
    share.deletes memberships g = true ↔ share.Covers (share.userIds memberships) g := by
  simp only [ShareGrant.deletes, ShareGrant.Covers, Bool.and_eq_true, List.contains_iff_mem,
    beq_iff_eq, and_assoc]

/-- A target of a sharing request is a user of the share it creates. -/
theorem mem_userIds_of_target {s : State} {r : ShareRequest} {user : Uuid} {covered : List Uuid}
    (h : user ∈ targetUsers s r) :
    user ∈ (r.shareGrant s.nextUuid covered).userIds s.memberships := by
  have hp := (List.mem_filter.1 h).2
  exact List.contains_iff_mem.1 hp

/-! ## One lemma per action -/

theorem sound_withShare {s : State} {r : ShareRequest} {tables : Tables} (hs : Sound s)
    (hgrants : grantAll s.tables (r.fanOut s.nextUuid (levelCodes r.resourceType r.level)
      (targetUsers s r)) = .ok tables) :
    Sound (s.withShare (r.shareGrant s.nextUuid (targetUsers s r)) tables) := by
  refine ⟨?_, ?_, ?_⟩
  · -- nodup
    simp only [State.withShare, List.map_append, List.map_cons, List.map_nil]
    refine List.nodup_append.2 ⟨hs.nodup, List.nodup_singleton _, ?_⟩
    intro id hid id' hid'
    obtain ⟨share, hshare, rfl⟩ := List.mem_map.1 hid
    obtain rfl := List.mem_singleton.1 hid'
    exact Nat.ne_of_lt (hs.fresh share hshare)
  · -- fresh
    intro share hshare
    rcases List.mem_append.1 hshare with hshare | hshare
    · exact Nat.lt_succ_of_lt (hs.fresh share hshare)
    · obtain rfl := List.mem_singleton.1 hshare
      exact Nat.lt_succ_self _
  · -- backed
    intro g hg
    rcases (grantAll_rows hgrants).2 g hg with hg | hg
    · refine (hs.backed g hg).imp id ?_
      rintro ⟨share, hshare, h⟩
      exact ⟨share, List.mem_append_left _ hshare, h⟩
    · obtain ⟨code, hcode, user, huser, rfl⟩ := mem_fanOut.1 hg
      refine Or.inr ⟨r.shareGrant s.nextUuid (targetUsers s r),
        List.mem_append_right _ (List.mem_singleton.2 rfl), rfl, rfl, ?_⟩
      exact ⟨mem_userIds_of_target huser, hcode, rfl, rfl, rfl⟩

theorem sound_withoutShare {s : State} {share : ShareGrant} (hs : Sound s)
    (hmem : share ∈ s.shareGrants) : Sound (s.withoutShare share) := by
  refine ⟨?_, ?_, ?_⟩
  · -- nodup
    have hids : (s.withoutShare share).shareGrants.map (·.id) = s.shareGrants.map (·.id) := by
      simp only [State.withoutShare, List.map_map]
      refine List.map_congr_left fun sh _ => ?_
      dsimp only [Function.comp]
      split <;> rfl
    rw [hids]
    exact hs.nodup
  · -- fresh
    intro sh hsh
    obtain ⟨sh₀, hmem₀, rfl⟩ := List.mem_map.1 hsh
    have hlt := hs.fresh sh₀ hmem₀
    split <;> exact hlt
  · -- backed
    intro g hg
    obtain ⟨hg, hkeep⟩ := List.mem_filter.1 hg
    refine (hs.backed g hg).imp id ?_
    rintro ⟨sh, hsh, horigin, hlive, hcov⟩
    by_cases hid : sh.id = share.id
    · -- a row this share backs is among the deleted ones
      obtain rfl := hs.eq_of_id hsh hmem hid
      rw [deletes_iff.2 hcov] at hkeep
      cases hkeep
    · exact ⟨sh, List.mem_map.2 ⟨sh, hsh, if_neg hid⟩, horigin, hlive, hcov⟩

theorem sound_grantDirectly {s : State} {g : ResourceGrant} (hs : Sound s) :
    Sound (grantDirectly s g) := by
  unfold grantDirectly
  split
  · rename_i tables h
    obtain ⟨hrows, -⟩ := grantResourcePermission_ok h
    refine ⟨hs.nodup, hs.fresh, fun x hx => ?_⟩
    rw [hrows] at hx
    rcases List.mem_append.1 hx with hx | hx
    · exact hs.backed x hx
    · exact Or.inl (by rw [List.mem_singleton.1 hx])
  · exact hs

theorem sound_changeMemberships {s : State} {memberships : List Membership} (hs : Sound s)
    (h : Stable s (.changeMemberships memberships)) : Sound (changeMemberships s memberships) := by
  refine ⟨?_, ?_, ?_⟩
  · -- nodup
    have hids : (changeMemberships s memberships).shareGrants.map (·.id) =
        s.shareGrants.map (·.id) := by
      simp only [changeMemberships, List.map_map]
      rfl
    rw [hids]
    exact hs.nodup
  · -- fresh
    intro sh hsh
    obtain ⟨sh₀, hmem₀, rfl⟩ := List.mem_map.1 hsh
    exact hs.fresh sh₀ hmem₀
  · -- backed
    intro g hg
    refine (hs.backed g hg).imp id ?_
    rintro ⟨share, hshare, horigin, hlive, huser, hcov⟩
    exact ⟨_, List.mem_map.2 ⟨share, hshare, rfl⟩, horigin, hlive,
      h share hshare hlive g.user huser, hcov⟩

/-- A step that leaves the users of unrevoked shares in place keeps every row backed. -/
theorem sound_step {s : State} {a : Action} (hs : Sound s) (hst : Stable s a) :
    Sound (step s a) := by
  cases a with
  | create r =>
    rcases postShareGrant_cases s r with h | ⟨tables, -, hgrants, hrec⟩
    · exact hs.of_recorded h
    · exact (sound_withShare hs hgrants).of_recorded hrec
  | revoke actor shareId requestId =>
    rcases deleteShareGrant_cases s actor shareId requestId with h | ⟨share, hmem, -, -, hrec⟩
    · exact hs.of_recorded h
    · exact (sound_withoutShare hs hmem).of_recorded hrec
  | grantDirectly g => exact sound_grantDirectly hs
  | removeDirectly user permission resourceType resourceId =>
    exact ⟨hs.nodup, hs.fresh, fun g hg => hs.backed g (List.mem_filter.1 hg).1⟩
  | advance seconds => exact ⟨hs.nodup, hs.fresh, hs.backed⟩
  | changeMemberships memberships => exact sound_changeMemberships hs hst

/-- From a state whose rows were all granted directly, in every run that takes nobody out of an
unrevoked share: every row is backed, and nothing a revoked share granted is left. -/
theorem backed_of_stable (s : State) (as : List Action) (h0 : s.shareGrants = [])
    (hd : ∀ g ∈ s.tables.resourceGrants, g.origin = .direct) (hst : Always step Stable s as) :
    (∀ g ∈ (run step s as).tables.resourceGrants, Backed (run step s as) g) ∧
      ∀ share ∈ (run step s as).shareGrants, share.revokedAt ≠ none →
        ∀ g ∈ (run step s as).tables.resourceGrants, g.origin ≠ .share share.id := by
  have hs : Sound (run step s as) := by
    refine run_invariant (I := Sound) (fun _ _ => sound_step) ⟨?_, ?_, ?_⟩ hst
    · simp [h0]
    · simp [h0]
    · exact fun g hg => Or.inl (hd g hg)
  exact ⟨hs.backed, fun share hshare hrev g hg => hs.nothing_remains hshare hrev hg⟩

/-- The bucket of the organization, a database, 8, and a team, 3, of two members. -/
def oneTeam : State :=
  { oneBucket with
    users := [10, 11, 12, 13]
    teams := [⟨3, 1⟩]
    memberships := [⟨10, 1, none, .active⟩, ⟨11, 1, some 3, .active⟩, ⟨12, 1, some 3, .active⟩]
    resources := [⟨RESOURCE_TYPE_BUCKET, 7, 1⟩, ⟨RESOURCE_TYPE_TENANT_DATABASE, 8, 1⟩]
    tables := { oneBucket.tables with
      permissions := ["sharing.manage", "storage.read", "storage.write", "database.read"] } }

/-- The owner shares the bucket with the team for writing, and the database with the organization for a time;
another member joins the team, and the first share is revoked. -/
def teamRun : List Action :=
  [.create { readShare none with principalType := .team, level := .write, user := none, team := some 3 },
    .create { readShare (some 400) with
      resourceType := RESOURCE_TYPE_TENANT_DATABASE, resourceId := 8, principalType := .organization, user := none },
    .changeMemberships (oneTeam.memberships ++ [⟨13, 1, some 3, .active⟩]), .advance 50, .revoke 10 20 ""]

theorem backed_of_stable_team :
    let s := run step oneTeam teamRun
    (∀ g ∈ s.tables.resourceGrants, Backed s g) ∧
      ∀ share ∈ s.shareGrants, share.revokedAt ≠ none →
        ∀ g ∈ s.tables.resourceGrants, g.origin ≠ .share share.id :=
  backed_of_stable oneTeam teamRun rfl (by decide) (by decide)

end Sharing
