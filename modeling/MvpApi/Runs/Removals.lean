import MvpApi.Runs.Steps

/-!
# What the transactions that give up files return

The transactions that replace or remove a logo or an avatar, and those of a purge, return the keys
of the files that the rows no longer refer to.
-/

set_option autoImplicit false

namespace MvpApi

open Exec Tx

variable {env : Env} {s s' : Session}

/-- The logo is set on a live workspace, and the key that it replaces is returned. -/
theorem WorkspaceTx.returns_replaceLogo {workspaceId userId : String} {key url : Option String}
    {result : WorkspaceView × Option String}
    (h : Returns (replaceLogo workspaceId key url userId) env s result s') :
  ∃ workspace, s.db.live workspaceId = some workspace
    ∧ s.db.Allows userId "workspace.update" workspaceId ∧ result.2 = workspace.logoKey
    ∧ ((s.touch [.workspace workspaceId]).write fun db => { db with
        workspaces := db.workspaces.put (workspace.replaceLogo key url) }) = s'
  := by
  unfold replaceLogo Workspaces.save at h
  simp only [returns_bind, returns_locked, returns_require, returns_write,
    returns_workspaceView, returns_pure] at h
  obtain ⟨workspace, _, ⟨hlive, rfl⟩, _, _, ⟨hallowed, rfl⟩, _, _, rfl, _, _, ⟨_, _, rfl, _⟩, rfl,
    rfl⟩ := h
  exact ⟨workspace, hlive, hallowed, rfl, rfl⟩

namespace AccountTx

/-- The avatar is set, and the key that it replaces is returned. -/
theorem returns_replaceAvatar {userId : String} {key url : Option String}
    {result : User × Option String} (h : Returns (replaceAvatar userId key url) env s result s') :
  ∃ user, s.db.users.get userId = some user ∧ result.2 = user.avatarKey
    ∧ (s.write fun db => { db with users := db.users.put (user.replaceAvatar key url) }) = s'
  := by
  unfold replaceAvatar Users.get Users.save at h
  simp only [returns_bind, returns_select, returns_check, existing_eq_ok, returns_write,
    returns_pure] at h
  obtain ⟨_, _, ⟨rfl, rfl⟩, user, _, ⟨huser, rfl⟩, _, _, rfl, rfl, rfl⟩ := h
  exact ⟨user, huser, rfl, rfl⟩

/-- The account that is deleted owns no live workspace, and is returned. -/
theorem returns_delete {userId : String} {user : User} (h : Returns (delete userId) env s user s') :
  s.db.Allows userId "profile.delete" userId
    ∧ (∀ workspace ∈ s.db.workspaces, workspace.deletedAt = none → workspace.ownerId ≠ userId)
    ∧ s.db.users.get userId = some user
    ∧ (s.write fun db => { db with
        members := db.members.filter (·.userId ≠ userId)
        invitations := db.invitations.filter (·.invitedBy ≠ userId)
        users := db.users.erase userId }) = s'
  := by
  unfold delete ensureDeletable Workspaces.anyOwnedBy Users.get Members.removeUser
    Invitations.deleteSentBy Users.delete at h
  simp only [returns_bind, returns_require, returns_select, returns_refuseUnless, returns_check,
    existing_eq_ok, returns_write, returns_pure] at h
  obtain ⟨_, _, ⟨_, _, ⟨hallowed, rfl⟩, owns, _, ⟨howns, rfl⟩, hfalse, rfl⟩, _, _, ⟨rfl, rfl⟩,
    found, _, ⟨huser, rfl⟩, _, _, rfl, _, _, rfl, _, _, rfl, rfl, rfl⟩ := h
  rw [hfalse, Table.any_eq_false] at howns
  refine ⟨hallowed, fun workspace hworkspace hlive howner => ?_, huser, ?_⟩
  · simpa [Workspace.isDeleted, hlive, howner] using howns workspace hworkspace
  · rw [← (Table.get_eq_some_iff.mp huser).2]
    rfl

end AccountTx

/-- The storage keys of the images of some products. -/
def Db.keysOf (db : Db) (ids : List String) : List String :=
  (db.images.rows.filter (·.productId ∈ ids)).flatMap ProductImage.storageKeys

namespace PurgeTx

/-- A batch deletes the first products with their images, and returns their number and keys. -/
theorem returns_deleteBatch {workspaceId : String} {limit : ℕ} {result : ℕ × List String} :
  Returns (deleteBatch workspaceId limit) env s result s'
    ↔ result = ((s.db.firstProducts env workspaceId limit).length,
        s.db.keysOf (s.db.firstProducts env workspaceId limit))
      ∧ s.write (·.deleteProducts (s.db.firstProducts env workspaceId limit)) = s'
  := by
  unfold deleteBatch
  simp only [returns_bind, returns_platform, returns_select, returns_write, returns_pure]
  constructor
  · rintro ⟨_, _, ⟨rfl, rfl⟩, _, _, ⟨rfl, rfl⟩, _, _, ⟨rfl, rfl⟩, _, _, rfl, rfl, rfl⟩
    exact ⟨rfl, rfl⟩
  · rintro ⟨rfl, rfl⟩
    exact ⟨_, _, ⟨rfl, rfl⟩, _, _, ⟨rfl, rfl⟩, _, _, ⟨rfl, rfl⟩, (), _, rfl, rfl, rfl⟩

/-- The rows of a workspace are purged if it is soft-deleted, and the key of its logo is
returned. -/
theorem returns_purgeRows {workspaceId : String} {key : Option String} :
  Returns (purgeRows workspaceId) env s key s'
    ↔ ((∀ workspace, s.db.workspaces.get workspaceId = some workspace →
          workspace.deletedAt = none) ∧ key = none ∧ s = s')
      ∨ ∃ workspace, s.db.workspaces.get workspaceId = some workspace
          ∧ workspace.deletedAt ≠ none ∧ key = workspace.logoKey ∧ s.write (·.purge workspace) = s'
  := by
  unfold purgeRows Workspaces.getDeleted Workspaces.purge
  simp only [returns_bind, returns_select]
  have isDeleted : ∀ workspace : Workspace, workspace.isDeleted = true
      ↔ workspace.deletedAt ≠ none := by
    intro workspace
    rw [Workspace.isDeleted, Option.isSome_iff_ne_none]
  cases hget : (s.db.workspaces.get workspaceId).filter (·.isDeleted) with
  | none =>
      have hnone : ∀ workspace, s.db.workspaces.get workspaceId = some workspace →
          workspace.deletedAt = none := by
        intro workspace hworkspace
        rw [hworkspace, Option.filter_eq_none_iff] at hget
        by_contra hne
        exact hget workspace rfl ((isDeleted workspace).mpr hne)
      constructor
      · rintro ⟨_, _, ⟨rfl, rfl⟩, h⟩
        obtain ⟨rfl, rfl⟩ := returns_pure.mp h
        exact Or.inl ⟨hnone, rfl, rfl⟩
      · rintro (⟨_, rfl, rfl⟩ | ⟨workspace, hworkspace, hne, _⟩)
        · exact ⟨_, _, ⟨rfl, rfl⟩, returns_pure.mpr ⟨rfl, rfl⟩⟩
        · exact absurd (hnone workspace hworkspace) hne
  | some workspace =>
      obtain ⟨hworkspace, hdeleted⟩ := Option.filter_eq_some_iff.mp hget
      have hne := (isDeleted workspace).mp hdeleted
      constructor
      · rintro ⟨_, _, ⟨rfl, rfl⟩, h⟩
        simp only [returns_bind, returns_write, returns_pure] at h
        obtain ⟨_, _, rfl, rfl, rfl⟩ := h
        exact Or.inr ⟨workspace, hworkspace, hne, rfl, rfl⟩
      · rintro (⟨hnone, _⟩ | ⟨other, hother, _, rfl, rfl⟩)
        · exact absurd (hnone workspace hworkspace) hne
        · obtain rfl := Option.some.inj (hworkspace.symm.trans hother)
          refine ⟨_, _, ⟨rfl, rfl⟩, ?_⟩
          exact returns_bind.mpr ⟨(), _, returns_write.mpr rfl, returns_pure.mpr ⟨rfl, rfl⟩⟩

end PurgeTx

end MvpApi
