import IntraCloud.Sharing.Proofs.FanOutProofs
import IntraCloud.Transition.Proofs.RunsProofs

/-!
# Completeness of sharing

The invariant: each live share has, for every user it covers and every code of its level, a row of
its organization that lasts at least as long as the share. Creating a share breaks it where an older
row with the same key ends sooner, since the `IntegrityError` is passed over; revoking one breaks it
where another share needs the rows.
-/

namespace Sharing

open Audit Organizations Permissions Transition

/-- The row serves `user` with `code` for as long as the share lasts. -/
def ShareGrant.Serves (share : ShareGrant) (user : Uuid) (code : String) (g : ResourceGrant) :
    Prop :=
  g.key = (user, code, share.resourceType, share.resourceId) ∧
    g.organization = share.organization ∧ Outlasts g.expiresAt share.expiresAt

/-- Every live share has a row that serves each covered user with each code of its level. -/
def Served (s : State) : Prop :=
  ∀ share ∈ s.shareGrants, share.live s.now = true → ∀ user ∈ share.covered,
    ∀ code ∈ levelCodes share.resourceType share.level,
      ∃ g ∈ s.tables.resourceGrants, share.Serves user code g

section Rows

variable {share : ShareGrant} {user : Uuid} {code : String} {g : ResourceGrant} {now : Nat}

/-- A row that lasts as long as a live share has not expired. -/
theorem unexpired_of_outlasts (hlive : share.live now = true)
    (h : Outlasts g.expiresAt share.expiresAt) : g.unexpired now = true := by
  unfold ResourceGrant.unexpired
  rcases h with h | ⟨a, ha, b, hb, hle⟩
  · rw [h]
  · have hexp : share.expiresAt = some b := hb
    have hnow : now < b := by
      simp only [ShareGrant.live, hexp, Bool.and_eq_true, decide_eq_true_eq] at hlive
      exact hlive.2
    have hrow : g.expiresAt = some a := ha
    rw [hrow]
    exact decide_eq_true (by omega)

theorem live_of_le {now' : Nat} (hle : now ≤ now') (h : share.live now' = true) :
    share.live now = true := by
  unfold ShareGrant.live at h ⊢
  rw [Bool.and_eq_true] at h ⊢
  refine ⟨h.1, ?_⟩
  cases he : share.expiresAt with
  | none => rfl
  | some e =>
    have hlt : now' < e := by simpa [he] using h.2
    exact decide_eq_true (by omega)

theorem covers_of_serves (hu : user ∈ share.covered)
    (hc : code ∈ levelCodes share.resourceType share.level) (h : share.Serves user code g) :
    share.Covers share.covered g := by
  obtain ⟨hkey, horg, -⟩ := h
  simp only [ResourceGrant.key, Prod.mk.injEq] at hkey
  obtain ⟨rfl, rfl, htype, hid⟩ := hkey
  exact ⟨hu, hc, horg, htype, hid⟩

end Rows

theorem complete_of_served {s : State} (h : Served s) : Complete s := by
  intro share hshare hlive user hu code hc
  obtain ⟨g, hg, hkey, horg, hexp⟩ := h share hshare hlive user hu code hc
  exact hasResourcePermission_iff.2 ⟨g, hg, unexpired_of_outlasts hlive hexp, horg, hkey⟩

theorem Recorded.served {s s' : State} (h : Recorded s s') (hs : Served s) : Served s' := by
  obtain ⟨audit, rfl⟩ := h
  exact hs

/-! ## One lemma per action -/

/-- Rows may go where no live share needs them. -/
theorem Served.of_filter {s s' : State} (hs : Served s) (keep : ResourceGrant → Bool)
    (hnow : s'.now = s.now)
    (hrows : s'.tables.resourceGrants = s.tables.resourceGrants.filter keep)
    (hshares : ∀ share ∈ s'.shareGrants, share.live s.now = true → share ∈ s.shareGrants ∧
      ∀ g ∈ s.tables.resourceGrants, share.Covers share.covered g → keep g = true) : Served s' := by
  intro share hshare hlive user hu code hc
  rw [hnow] at hlive
  obtain ⟨hmem, hkeep⟩ := hshares share hshare hlive
  obtain ⟨g, hg, hserves⟩ := hs share hmem hlive user hu code hc
  refine ⟨g, ?_, hserves⟩
  rw [hrows, List.mem_filter]
  exact ⟨hg, hkeep g hg (covers_of_serves hu hc hserves)⟩

theorem served_withoutShare {s : State} {share : ShareGrant} (hs : Served s)
    (h : ∀ g ∈ s.tables.resourceGrants, share.deletes s.memberships g = true →
      Unneeded s (some share.id) g) : Served (s.withoutShare share) := by
  refine hs.of_filter _ rfl rfl fun sh hsh hlive => ?_
  obtain ⟨sh₀, hmem, rfl⟩ := List.mem_map.1 hsh
  split at hlive
  · -- the revoked share itself is not live
    simp [ShareGrant.live] at hlive
  rename_i hne
  rw [if_neg hne]
  refine ⟨hmem, fun g hg hcov => ?_⟩
  by_contra hdel
  have hdel' : share.deletes s.memberships g = true := by simpa using hdel
  exact h g hg hdel' sh₀ hmem (by simpa using hne) hlive hcov

theorem served_removeDirectly {s : State} {key : Uuid × String × String × Uuid} (hs : Served s)
    (h : ∀ g ∈ s.tables.resourceGrants, g.key = key → Unneeded s none g) :
    Served (removeDirectly s key) := by
  refine hs.of_filter _ rfl rfl fun share hshare hlive => ⟨hshare, fun g hg hcov => ?_⟩
  by_contra hdel
  have hkey : g.key = key := by simpa using hdel
  exact h g hg hkey share hshare (by simp) hlive hcov

/-- More rows and the same shares keep every share served. -/
theorem served_of_rows {s : State} {tables : Tables} (hs : Served s)
    (h : ∀ g ∈ s.tables.resourceGrants, g ∈ tables.resourceGrants) :
    Served { s with tables } := by
  intro share hshare hlive user hu code hc
  obtain ⟨g, hg, hserves⟩ := hs share hshare hlive user hu code hc
  exact ⟨g, h g hg, hserves⟩

theorem served_grantDirectly {s : State} {g : ResourceGrant} (hs : Served s) :
    Served (grantDirectly s g) := by
  unfold grantDirectly
  split
  · rename_i tables h
    obtain ⟨hrows, -⟩ := grantResourcePermission_ok h
    exact served_of_rows hs fun x hx => by rw [hrows]; exact List.mem_append_left _ hx
  · exact hs

theorem served_changeMemberships {s : State} {memberships : List Membership} (hs : Served s) :
    Served (changeMemberships s memberships) := by
  intro share hshare hlive user hu code hc
  obtain ⟨sh, hmem, rfl⟩ := List.mem_map.1 hshare
  exact hs sh hmem hlive user (List.mem_filter.1 hu).1 code hc

theorem served_withShare {s : State} {r : ShareRequest} {tables : Tables} (hs : Served s)
    (hgrants : grantAll s.tables (r.fanOut s.nextUuid (levelCodes r.resourceType r.level)
      (targetUsers s r)) = .ok tables)
    (hold : (r.shareGrant s.nextUuid []).live s.now = true →
      ∀ g ∈ s.tables.resourceGrants, g.user ∈ targetUsers s r →
        g.permission ∈ levelCodes r.resourceType r.level → g.resourceType = r.resourceType →
        g.resourceId = r.resourceId →
          g.organization = r.organization ∧ Outlasts g.expiresAt r.expiresAt) :
    Served (s.withShare (r.shareGrant s.nextUuid (targetUsers s r)) tables) := by
  intro share hshare hlive user hu code hc
  rcases List.mem_append.1 hshare with hshare | hshare
  · obtain ⟨g, hg, hserves⟩ := hs share hshare hlive user hu code hc
    exact ⟨g, (grantAll_rows hgrants).1 g hg, hserves⟩
  -- the new share: its row is one the loops inserted, or the one they found in the way
  obtain rfl := List.mem_singleton.1 hshare
  obtain ⟨g, hg, hkey, hor⟩ := grantAll_served hgrants (r.grant s.nextUuid code user)
    (mem_fanOut.2 ⟨code, hc, user, hu, rfl⟩)
  refine ⟨g, hg, hkey, ?_⟩
  rcases hor with hin | hin
  · simp only [ResourceGrant.key, ShareRequest.grant, Prod.mk.injEq] at hkey
    obtain ⟨h1, h2, h3, h4⟩ := hkey
    exact hold hlive g hin (h1 ▸ hu) (h2 ▸ hc) h3 h4
  · obtain ⟨code', -, user', -, rfl⟩ := mem_fanOut.1 hin
    refine ⟨rfl, ?_⟩
    show Outlasts r.expiresAt r.expiresAt
    cases r.expiresAt with
    | none => exact Or.inl rfl
    | some e => exact Or.inr ⟨e, rfl, e, rfl, Nat.le_refl e⟩

/-- A permitted step keeps every live share served. -/
theorem served_step {s : State} {a : Action} (hs : Served s) (hp : Permitted s a) :
    Served (step s a) := by
  cases a with
  | create r =>
    rcases postShareGrant_cases s r with h | ⟨tables, hacc, hgrants, hrec⟩
    · exact h.served hs
    · exact hrec.served (served_withShare hs hgrants fun hlive g hg hu =>
        hp (hacc _ hu) hlive g hg hu)
  | revoke actor shareId requestId =>
    rcases deleteShareGrant_cases s actor shareId requestId with h | ⟨share, hmem, rfl, hrev, hrec⟩
    · exact h.served hs
    · exact hrec.served (served_withoutShare hs (hp share hmem rfl hrev))
  | grantDirectly g => exact served_grantDirectly hs
  | removeDirectly user permission resourceType resourceId => exact served_removeDirectly hs hp
  | advance seconds =>
    intro share hshare hlive
    exact hs share hshare (live_of_le (Nat.le_add_right _ _) hlive)
  | changeMemberships memberships => exact served_changeMemberships hs

/-- From a state without shares, in every run whose steps are all permitted, sharing is complete in
every state the run goes through. -/
theorem complete_of_permitted (s : State) (as : List Action) (h0 : s.shareGrants = [])
    (hp : Always step Permitted s as) :
    Always step (fun s a => Complete s ∧ Complete (step s a)) s as := by
  refine Always.mono_of_invariant (I := Served) ?_ (fun _ _ => served_step) ?_ hp
  · intro s a hs hpa
    exact ⟨complete_of_served hs, complete_of_served (served_step hs hpa)⟩
  · intro share hshare
    simp [h0] at hshare

/-! ## Two shares of one bucket -/

/-- Organization 1 with a bucket 7, an owner 10 and a member 11. -/
def oneBucket : State :=
  { now := 100
    users := [10, 11]
    teams := []
    memberships := [⟨10, 1, none, .active⟩, ⟨11, 1, none, .active⟩]
    resources := [⟨RESOURCE_TYPE_BUCKET, 7, 1⟩]
    tables :=
      { permissions := ["sharing.manage", "storage.read"]
        roleAssignments := [⟨10, ⟨"owner", ["sharing.manage"]⟩, some 1⟩]
        resourceGrants := []
        audit := [] }
    shareGrants := []
    nextUuid := 20 }

/-- The owner shares the bucket with the member for reading. -/
def readShare (expiresAt : Option Nat) : ShareRequest :=
  { actor := 10, organization := 1, resourceType := RESOURCE_TYPE_BUCKET, resourceId := 7,
    principalType := .user, level := .read, user := some 11, team := none, expiresAt := expiresAt,
    requestId := "" }

theorem complete_of_permitted_share_revoke :
    Always step (fun s a => Complete s ∧ Complete (step s a)) oneBucket
      [.create (readShare (some 500)), .advance 50, .create (readShare (some 400)), .advance 300,
        .revoke 10 20 ""] :=
  complete_of_permitted oneBucket _ rfl (by decide)

/-- Two shares give the same member the same permission. Revoking the second deletes the one row
both rely on, and the first, which is live, is left without it; and a share that outlasts the row
already there is incomplete as soon as that row expires. -/
theorem not_complete_of_overlapping_shares :
    ¬ Complete (run step oneBucket
      [.create (readShare none), .create (readShare none), .revoke 10 21 ""]) ∧
    ¬ Complete (run step oneBucket
      [.create (readShare (some 200)), .create (readShare none), .advance 100]) := by
  decide

end Sharing
