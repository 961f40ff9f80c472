import MvpApi.Runs.System

/-!
# References between the rows

The database has no foreign keys, so it is the transactions that keep the rows referring to
rows that exist. `Db.References` lists the references, and for each way a transaction
changes a table there is a rule that says what the new rows have to refer to.
-/

set_option autoImplicit false

namespace MvpApi

/-- What a membership refers to: an account, a live workspace, and a role of it. -/
structure Db.MemberRefs (db : Db) (member : Member) : Prop where
  user : (db.users.get member.userId).isSome
  workspace : (db.live member.workspaceId).isSome
  role : ∃ role ∈ db.roles, role.id = member.roleId ∧ role.workspaceId = member.workspaceId

/-- What an invitation refers to: a workspace, a role of it that is not protected, and the
account that sent it. It is not pending if the workspace is deleted. -/
structure Db.InvitationRefs (db : Db) (invitation : Invitation) : Prop where
  workspace : (db.workspaces.get invitation.workspaceId).isSome
  role : ∃ role ∈ db.roles, role.id = invitation.roleId
    ∧ role.workspaceId = invitation.workspaceId ∧ role.isProtected = false
  inviter : (db.users.get invitation.invitedBy).isSome
  closed : ∀ workspace ∈ db.workspaces, workspace.id = invitation.workspaceId →
    workspace.deletedAt ≠ none → invitation.status ≠ .pending

/-- All rows refer to rows that exist. -/
structure Db.References (db : Db) : Prop where
  member : ∀ member ∈ db.members, db.MemberRefs member
  role : ∀ role ∈ db.roles, (db.workspaces.get role.workspaceId).isSome
  permission : ∀ row ∈ db.rolePermissions, (db.roles.get row.roleId).isSome
  invitation : ∀ invitation ∈ db.invitations, db.InvitationRefs invitation
  owner : ∀ workspace ∈ db.workspaces, workspace.deletedAt = none →
    (db.users.get workspace.ownerId).isSome

theorem Db.References.empty :
  Db.empty.References
  := ⟨by simp [Db.empty], by simp [Db.empty], by simp [Db.empty], by simp [Db.empty],
    by simp [Db.empty]⟩

/-- A live workspace exists. -/
theorem isSome_of_live {db : Db} {w : String} {workspace : Workspace}
    (live : db.live w = some workspace) :
  (db.workspaces.get w).isSome
  := by
  obtain ⟨hmem, hid, _⟩ := Db.live_eq_some.mp live
  exact Option.isSome_of_mem (Table.get_eq_some_iff.mpr ⟨hmem, hid⟩)

namespace Db.References

variable {db : Db}

/-! ### One rule for each way of changing a table -/

/-- Accounts may change as long as none goes. -/
theorem users (h : db.References) (users' : Table User.id)
    (kept : ∀ id, (db.users.get id).isSome → (users'.get id).isSome) :
  References { db with users := users' }
  where
  member member hm := { h.member member hm with user := kept _ (h.member member hm).user }
  role := h.role
  permission := h.permission
  invitation invitation hi :=
    { h.invitation invitation hi with inviter := kept _ (h.invitation invitation hi).inviter }
  owner workspace hw hlive := kept _ (h.owner workspace hw hlive)

/-- A live workspace with an owner may be written in place of none or of a live one. -/
theorem put_workspace (h : db.References) (workspace : Workspace)
    (live : workspace.deletedAt = none)
    (before : ∀ old, db.workspaces.get workspace.id = some old → old.deletedAt = none)
    (owner : (db.users.get workspace.ownerId).isSome) :
  References { db with workspaces := db.workspaces.put workspace }
  where
  member member hm := by
    have hrefs := h.member member hm
    refine { hrefs with workspace := ?_ }
    obtain ⟨old, hold⟩ := Option.isSome_iff_exists.mp hrefs.workspace
    obtain ⟨hmem, hid, hdeleted⟩ := Db.live_eq_some.mp hold
    by_cases hw : member.workspaceId = workspace.id
    · exact Option.isSome_iff_exists.mpr
        ⟨workspace, Db.live_eq_some.mpr ⟨Table.mem_put.mpr (Or.inl rfl), hw.symm, live⟩⟩
    · exact Option.isSome_iff_exists.mpr ⟨old, Db.live_eq_some.mpr
        ⟨Table.mem_put.mpr (Or.inr ⟨hmem, fun h => hw (hid.symm.trans h)⟩), hid, hdeleted⟩⟩
  role role hr := Table.isSome_get_put _ (h.role role hr)
  permission := h.permission
  invitation invitation hi := by
    have hrefs := h.invitation invitation hi
    refine { hrefs with workspace := Table.isSome_get_put _ hrefs.workspace, closed := ?_ }
    intro workspace' hw hid hdeleted
    rcases Table.mem_put.mp hw with rfl | ⟨hw, _⟩
    · exact absurd live hdeleted
    · exact hrefs.closed workspace' hw hid hdeleted
  owner workspace' hw hlive := by
    rcases Table.mem_put.mp hw with rfl | ⟨hw, _⟩
    · exact owner
    · exact h.owner workspace' hw hlive

/-- A live workspace may change as long as it keeps its owner. -/
theorem rewrite_workspace (h : db.References) {w : String} {workspace workspace' : Workspace}
    (live : db.live w = some workspace) (id : workspace'.id = workspace.id)
    (ownerId : workspace'.ownerId = workspace.ownerId)
    (deletedAt : workspace'.deletedAt = workspace.deletedAt) :
  References { db with workspaces := db.workspaces.put workspace' }
  := by
  obtain ⟨hmem, _, hlive⟩ := Db.live_eq_some.mp live
  refine h.put_workspace workspace' (deletedAt.trans hlive) (fun old hold => ?_) ?_
  · obtain ⟨hold, hoid⟩ := Table.get_eq_some_iff.mp hold
    obtain rfl : old = workspace := Table.eq_of_key hold hmem (hoid.trans id)
    exact hlive
  · rw [ownerId]
    exact h.owner workspace hmem hlive

/-- Roles may change as long as each stays in its workspace and none becomes protected. -/
theorem roles (h : db.References) (roles' : Table Role.id)
    (kept : ∀ role ∈ db.roles, ∃ role' ∈ roles', role'.id = role.id
      ∧ role'.workspaceId = role.workspaceId
      ∧ (role.isProtected = false → role'.isProtected = false))
    (named : ∀ role ∈ roles', (db.workspaces.get role.workspaceId).isSome) :
  References { db with roles := roles' }
  where
  member member hm := by
    have hrefs := h.member member hm
    obtain ⟨role, hr, hid, hw⟩ := hrefs.role
    obtain ⟨role', hr', hid', hw', _⟩ := kept role hr
    exact { hrefs with role := ⟨role', hr', hid'.trans hid, hw'.trans hw⟩ }
  role := named
  permission row hrow := by
    obtain ⟨role, hrole⟩ := Option.isSome_iff_exists.mp (h.permission row hrow)
    obtain ⟨hr, hid⟩ := Table.get_eq_some_iff.mp hrole
    obtain ⟨role', hr', hid', _⟩ := kept role hr
    exact Option.isSome_iff_exists.mpr
      ⟨role', Table.get_eq_some_iff.mpr ⟨hr', hid'.trans hid⟩⟩
  invitation invitation hi := by
    have hrefs := h.invitation invitation hi
    obtain ⟨role, hr, hid, hw, hp⟩ := hrefs.role
    obtain ⟨role', hr', hid', hw', hp'⟩ := kept role hr
    exact { hrefs with role := ⟨role', hr', hid'.trans hid, hw'.trans hw, hp' hp⟩ }
  owner := h.owner

/-- A role that is written keeps the workspace, and the protection, of the one before. -/
theorem put_role (h : db.References) (role : Role)
    (workspace : (db.workspaces.get role.workspaceId).isSome)
    (before : ∀ old, db.roles.get role.id = some old → role.workspaceId = old.workspaceId
      ∧ (old.isProtected = false → role.isProtected = false)) :
  References { db with roles := db.roles.put role }
  := by
  refine h.roles _ (fun old hold => ?_) fun role' hr => ?_
  · by_cases hid : old.id = role.id
    · have hbefore := before old (Table.get_eq_some_iff.mpr ⟨hold, hid⟩)
      exact ⟨role, Table.mem_put.mpr (Or.inl rfl), hid.symm, hbefore⟩
    · exact ⟨old, Table.mem_put.mpr (Or.inr ⟨hold, hid⟩), rfl, rfl, id⟩
  · rcases Table.mem_put.mp hr with rfl | ⟨hr, _⟩
    · exact workspace
    · exact h.role role' hr

theorem permissions (h : db.References) (permissions' : Table RolePermission.key)
    (named : ∀ row ∈ permissions', (db.roles.get row.roleId).isSome) :
  References { db with rolePermissions := permissions' }
  :=
  { h with
    member := fun member hm => { h.member member hm with }
    permission := named
    invitation := fun invitation hi => { h.invitation invitation hi with } }

theorem members (h : db.References) (members' : Table Member.key)
    (named : ∀ member ∈ members', db.MemberRefs member) :
  References { db with members := members' }
  :=
  { h with
    member := fun member hm => { named member hm with }
    invitation := fun invitation hi => { h.invitation invitation hi with } }

theorem put_member (h : db.References) (member : Member) (named : db.MemberRefs member) :
  References { db with members := db.members.put member }
  := by
  apply h.members _
  intro member' hm
  rcases Table.mem_put.mp hm with rfl | ⟨hm, _⟩
  · exact named
  · exact h.member member' hm

theorem invitations (h : db.References) (invitations' : Table Invitation.id)
    (named : ∀ invitation ∈ invitations', db.InvitationRefs invitation) :
  References { db with invitations := invitations' }
  :=
  { h with
    member := fun member hm => { h.member member hm with }
    invitation := fun invitation hi => { named invitation hi with } }

theorem put_invitation (h : db.References) (invitation : Invitation)
    (named : db.InvitationRefs invitation) :
  References { db with invitations := db.invitations.put invitation }
  := by
  apply h.invitations _
  intro invitation' hi
  rcases Table.mem_put.mp hi with rfl | ⟨hi, _⟩
  · exact named
  · exact h.invitation invitation' hi

/-- Products and their images refer to nothing here. -/
theorem products (h : db.References) {products' : Table ProductRow.id}
    {images' : Table ProductImage.id} :
  References { db with products := products', images := images' }
  :=
  { h with
    member := fun member hm => { h.member member hm with }
    invitation := fun invitation hi => { h.invitation invitation hi with } }

/-! ### Deletions -/

theorem erase_member (h : db.References) {k : Pair} :
  References { db with members := db.members.erase k }
  := h.members _ fun member hm => h.member member (Table.mem_erase.mp hm).1

/-- A role that nobody holds goes with its permissions and the invitations that offer it. -/
theorem delete_role (h : db.References) {roleId : String}
    (unassigned : ∀ member ∈ db.members, member.roleId ≠ roleId) :
  References { db with
    invitations := db.invitations.filter (·.roleId ≠ roleId)
    rolePermissions := db.rolePermissions.filter (·.roleId ≠ roleId)
    roles := db.roles.erase roleId }
  where
  member member hm := by
    have hrefs := h.member member hm
    obtain ⟨role, hr, hid, hw⟩ := hrefs.role
    have hne : role.id ≠ roleId := hid ▸ unassigned member hm
    exact { hrefs with role := ⟨role, Table.mem_erase.mpr ⟨hr, hne⟩, hid, hw⟩ }
  role role hr := h.role role (Table.mem_erase.mp hr).1
  permission row hrow := by
    obtain ⟨hrow, hne⟩ := Table.mem_filter.mp hrow
    rw [Table.get_erase_of_ne _ (of_decide_eq_true hne)]
    exact h.permission row hrow
  invitation invitation hi := by
    obtain ⟨hi, hne⟩ := Table.mem_filter.mp hi
    have hrefs := h.invitation invitation hi
    obtain ⟨role, hr, hid, hw, hp⟩ := hrefs.role
    have hne' : role.id ≠ roleId := hid ▸ of_decide_eq_true hne
    exact { hrefs with role := ⟨role, Table.mem_erase.mpr ⟨hr, hne'⟩, hid, hw, hp⟩ }
  owner := h.owner

/-- A workspace is deleted with its members, and its pending invitations are revoked. -/
theorem soft_delete (h : db.References) {w : String} {workspace : Workspace} {now : Time}
    {newId : String} (live : db.live w = some workspace) :
  References { db with
    workspaces := db.workspaces.put (workspace.softDelete now newId)
    members := db.members.filter (·.workspaceId ≠ w)
    invitations := db.invitations.map (·.revokePending w) (Invitation.revokePending_id w) }
  := by
  obtain ⟨hmem, hid, hlive⟩ := Db.live_eq_some.mp live
  constructor
  · intro member hm
    obtain ⟨hm, hne⟩ := Table.mem_filter.mp hm
    have hrefs := h.member member hm
    refine { hrefs with workspace := ?_ }
    obtain ⟨old, hold⟩ := Option.isSome_iff_exists.mp hrefs.workspace
    obtain ⟨hold, hoid, hdeleted⟩ := Db.live_eq_some.mp hold
    refine Option.isSome_iff_exists.mpr ⟨old, Db.live_eq_some.mpr
      ⟨Table.mem_put.mpr (Or.inr ⟨hold, fun h => ?_⟩), hoid, hdeleted⟩⟩
    exact of_decide_eq_true hne (hoid.symm.trans (h.trans hid))
  · intro role hr
    exact Table.isSome_get_put _ (h.role role hr)
  · exact h.permission
  · intro invitation hi
    have hmap : invitation ∈ db.invitations.map _ (Invitation.revokePending_id w) := hi
    obtain ⟨old, hold, rfl⟩ := Table.mem_map.mp hmap
    have hrefs := h.invitation old hold
    unfold Invitation.revokePending
    split
    · exact ⟨Table.isSome_get_put _ hrefs.workspace, hrefs.role, hrefs.inviter, by simp⟩
    · next hne =>
        refine { hrefs with workspace := Table.isSome_get_put _ hrefs.workspace, closed := ?_ }
        intro workspace' hw hwid hdeleted hpending
        rcases Table.mem_put.mp hw with rfl | ⟨hw, _⟩
        · exact hne ⟨hwid.symm.trans hid, hpending⟩
        · exact hrefs.closed workspace' hw hwid hdeleted hpending
  · intro workspace' hw hlive'
    rcases Table.mem_put.mp hw with rfl | ⟨hw, _⟩
    · cases hlive'
    · exact h.owner workspace' hw hlive'

/-- An account that owns no live workspace goes with its memberships and the invitations it
sent. -/
theorem delete_account (h : db.References) {userId : String}
    (owns_none : ∀ workspace ∈ db.workspaces, workspace.deletedAt = none →
      workspace.ownerId ≠ userId) :
  References { db with
    members := db.members.filter (·.userId ≠ userId)
    invitations := db.invitations.filter (·.invitedBy ≠ userId)
    users := db.users.erase userId }
  where
  member member hm := by
    obtain ⟨hm, hne⟩ := Table.mem_filter.mp hm
    have hrefs := h.member member hm
    refine { hrefs with user := ?_ }
    rw [Table.get_erase_of_ne _ (of_decide_eq_true hne)]
    exact hrefs.user
  role := h.role
  permission := h.permission
  invitation invitation hi := by
    obtain ⟨hi, hne⟩ := Table.mem_filter.mp hi
    have hrefs := h.invitation invitation hi
    refine { hrefs with inviter := ?_ }
    rw [Table.get_erase_of_ne _ (of_decide_eq_true hne)]
    exact hrefs.inviter
  owner workspace hw hlive := by
    rw [Table.get_erase_of_ne _ (owns_none workspace hw hlive)]
    exact h.owner workspace hw hlive

/-- A deleted workspace goes with all that belongs to it. -/
theorem purge (h : db.References) {workspace : Workspace} :
  References (db.purge workspace)
  where
  member member hm := by
    obtain ⟨hm, hne⟩ := Table.mem_filter.mp hm
    have hne' : member.workspaceId ≠ workspace.id := of_decide_eq_true hne
    have hrefs := h.member member hm
    obtain ⟨role, hr, hid, hw⟩ := hrefs.role
    refine ⟨hrefs.user, ?_, role, Table.mem_filter.mpr ⟨hr, ?_⟩, hid, hw⟩
    · rw [Db.live, Db.purge, Table.get_erase_of_ne _ hne']
      exact hrefs.workspace
    · rw [hw]
      exact hne
  role role hr := by
    obtain ⟨hr, hne⟩ := Table.mem_filter.mp hr
    rw [Db.purge, Table.get_erase_of_ne _ (of_decide_eq_true hne)]
    exact h.role role hr
  permission row hrow := by
    obtain ⟨hrow, hne⟩ := Table.mem_filter.mp hrow
    obtain ⟨role, hrole⟩ := Option.isSome_iff_exists.mp (h.permission row hrow)
    obtain ⟨hr, hid⟩ := Table.get_eq_some_iff.mp hrole
    rw [hrole] at hne
    refine Option.isSome_iff_exists.mpr
      ⟨role, Table.get_eq_some_iff.mpr ⟨Table.mem_filter.mpr ⟨hr, ?_⟩, hid⟩⟩
    simpa using hne
  invitation invitation hi := by
    obtain ⟨hi, hne⟩ := Table.mem_filter.mp hi
    have hrefs := h.invitation invitation hi
    obtain ⟨role, hr, hid, hw, hp⟩ := hrefs.role
    refine ⟨?_, ⟨role, Table.mem_filter.mpr ⟨hr, ?_⟩, hid, hw, hp⟩, hrefs.inviter, ?_⟩
    · rw [Db.purge, Table.get_erase_of_ne _ (of_decide_eq_true hne)]
      exact hrefs.workspace
    · rw [hw]
      exact hne
    · intro workspace' hw' hwid hdeleted
      exact hrefs.closed workspace' (Table.mem_erase.mp hw').1 hwid hdeleted
  owner workspace' hw hlive := h.owner workspace' (Table.mem_erase.mp hw).1 hlive

/-! ### Accounts -/

theorem put_user (h : db.References) {user : User} :
  References { db with users := db.users.put user }
  := h.users _ fun _ => Table.isSome_get_put user

theorem addUnlessTaken (h : db.References) {user : User} :
  References (db.addUnlessTaken user)
  := by
  unfold Db.addUnlessTaken
  split
  · exact h
  · exact h.put_user

theorem returned (h : db.References) {userIds : List String} :
  References (db.returned userIds)
  := by
  refine h.users _ fun id hid => ?_
  rw [Table.get_map, Option.isSome_map]
  exact hid

end Db.References

/-! ### One transaction -/

variable {env : Env} {s s' : Session}

theorem Joins.references {token userId : String} (h : Joins env token userId s s')
    (refs : s.db.References) :
  s'.db.References
  := by
  obtain ⟨user, invitation, workspace, role, _, joinedAt, _, account, stored, _, _, _, _, _, live,
    assigned, own, unprotected, _, _, db⟩ := h
  obtain ⟨hrole, hid⟩ := Table.get_eq_some_iff.mp assigned
  rw [db]
  have accepted := refs.put_invitation
    { invitation with status := .accepted, acceptedBy := some userId }
    { refs.invitation invitation stored with closed := by simp }
  have joined := accepted.put_member
    ⟨invitation.workspaceId, userId, invitation.roleId, joinedAt⟩
    ⟨Option.isSome_of_mem account, Option.isSome_of_mem live, role, hrole, hid, own⟩
  exact joined.put_user

/-- Every transaction keeps the references. -/
theorem Effect.references {work : Work} (h : Effect env s s' work) (refs : s.db.References) :
  s'.db.References
  := by
  cases h with
  | @create _ _ userId user workspace new roles' permissions' owner joinedAt _ account _ shape fresh
      added roles _ granted owner_mem _ _ _ db _ =>
      obtain ⟨_, created, hshape⟩ := shape
      have hnew : ∀ role ∈ new, role.workspaceId = workspace.id := by
        intro role hrole
        rw [added.system role hrole]
        rfl
      have hlive : workspace.deletedAt = none := by rw [hshape]
      have hworkspace := refs.put_workspace workspace hlive (by simp [fresh])
        (by rw [hshape]; exact Option.isSome_of_mem account)
      have hroles : Db.References { s.db with
          workspaces := s.db.workspaces.put workspace, roles := roles' } := by
        refine hworkspace.roles _ (fun role hr => ?_) fun role hr => ?_
        · exact ⟨role, (roles role).mpr (Or.inl hr), rfl, rfl, fun h => h⟩
        · rcases (roles role).mp hr with hr | hr
          · exact hworkspace.role role hr
          · simp [hnew role hr]
      have hpermissions := hroles.permissions permissions' fun row hrow => by
        rcases granted row hrow with hrow | ⟨role, hrole, hid, _⟩
        · exact hroles.permission row hrow
        · exact Option.isSome_of_mem
            (Table.get_eq_some_iff.mpr ⟨(roles role).mpr (Or.inr hrole), hid.symm⟩)
      have howner := hpermissions.put_member ⟨workspace.id, userId, owner.id, joinedAt⟩
        ⟨Option.isSome_of_mem account, Option.isSome_of_mem (Db.live_eq_some.mpr
          ⟨Table.mem_put.mpr (Or.inl rfl), rfl, hlive⟩), owner,
          (roles owner).mpr (Or.inr owner_mem), rfl, hnew owner owner_mem⟩
      rw [db]
      exact howner.put_user
  | update workspace live _ _ db =>
      rw [db]
      exact refs.rewrite_workspace live rfl rfl rfl
  | replaceLogo workspace live _ _ db =>
      rw [db]
      exact refs.rewrite_workspace live rfl rfl rfl
  | delete workspace now newId memberIds live _ _ _ db =>
      rw [db]
      exact (refs.soft_delete live).returned
  | addRole workspace roleId live _ _ fresh _ db =>
      rw [db]
      refine refs.put_role _ (isSome_of_live live) ?_
      simp [fresh]
  | renameRole workspace role _ _ _ stored _ unprotected _ db =>
      obtain ⟨hrole, hid⟩ := Table.get_eq_some_iff.mp stored
      rw [db]
      refine refs.put_role _ (refs.role role hrole) ?_
      intro old hold
      rw [hid, stored] at hold
      cases hold
      exact ⟨rfl, fun h => h⟩
  | deleteRole workspace role now live _ stored _ _ unassigned _ _ db =>
      rw [db]
      exact refs.delete_role unassigned
  | setPermissions workspace role _ _ stored _ _ _ _ db =>
      rw [db]
      refine refs.permissions _ fun row hrow => ?_
      rcases mem_granted.mp hrow with hrow | ⟨hid, _⟩
      · exact refs.permission row (Table.mem_filter.mp hrow).1
      · rw [hid]
        exact Option.isSome_of_mem stored
  | @setMemberRole w memberId roleId _ workspace role member _ _ stored own _ _ belongs _ db =>
      obtain ⟨hrole, hid⟩ := Table.get_eq_some_iff.mp stored
      obtain ⟨hmember, hkey⟩ := Table.get_eq_some_iff.mp belongs
      have hrefs := refs.member member hmember
      rw [db]
      exact refs.put_member _
        { hrefs with role := ⟨role, hrole, hid, own.trans (pair_inj.mp hkey).1.symm⟩ }
  | removeMember workspace member _ _ _ _ _ db =>
      rw [db]
      exact refs.erase_member.returned
  | @transfer w targetId userId workspace target previous admin roles' permissions' live _ _ belongs
      belongs' admin_shape admin_mem _ db _ =>
      obtain ⟨htarget, htkey⟩ := Table.get_eq_some_iff.mp belongs
      obtain ⟨htw, htu⟩ := pair_inj.mp htkey
      obtain ⟨hprevious, hpkey⟩ := Table.get_eq_some_iff.mp belongs'
      obtain ⟨hpw, hpu⟩ := pair_inj.mp hpkey
      obtain ⟨hworkspace, hid, hlive⟩ := Db.live_eq_some.mp live
      have hadmin : Db.References { s.db with roles := roles', rolePermissions := permissions' }
          ∧ (∀ role ∈ s.db.roles, role ∈ roles') ∧ admin ∈ roles' := by
        rcases admin_mem with ⟨hadmin, rfl, rfl⟩ | ⟨hfree, _, rfl, rfl⟩
        · exact ⟨refs, fun role hr => hr, hadmin⟩
        · have hput := refs.put_role admin
            (admin_shape.1 ▸ isSome_of_live live) (by simp [hfree])
          refine ⟨hput.permissions _ fun row hrow => ?_, fun role hr =>
            (Table.mem_put_of_get hfree).mpr (Or.inr hr), Table.mem_put.mpr (Or.inl rfl)⟩
          rcases mem_granted.mp hrow with hrow | ⟨hid, _⟩
          · exact hput.permission row hrow
          · rw [hid]
            simp
      obtain ⟨hrefs, hkept, hadmin⟩ := hadmin
      obtain ⟨ownerRole, hownerRole, horid, horw⟩ := (refs.member previous hprevious).role
      have howned := hrefs.put_workspace { workspace with ownerId := targetId } hlive
        (by
          intro old hold
          rw [hid, (Table.get_eq_some_iff.mpr ⟨hworkspace, hid⟩)] at hold
          cases hold
          exact hlive)
        (htu ▸ (hrefs.member target htarget).user)
      have htargetRefs := howned.member target htarget
      have hpreviousRefs := howned.member previous hprevious
      have hgiven := howned.put_member { target with roleId := previous.roleId }
        { htargetRefs with
          role := ⟨ownerRole, hkept ownerRole hownerRole, horid, horw.trans (hpw.trans htw.symm)⟩ }
      rw [db]
      exact hgiven.put_member { previous with roleId := admin.id }
        { hpreviousRefs with role := ⟨admin, hadmin, rfl, admin_shape.1.trans hpw.symm⟩ }
  | issue workspace role invitation _ _ _ _ live allowed stored own unprotected _ _ _ _ _ _ _ shape _
      _ db =>
      obtain ⟨hrole, hid⟩ := Table.get_eq_some_iff.mp stored
      obtain ⟨hworkspace, hwid, hlive⟩ := Db.live_eq_some.mp live
      obtain ⟨⟨user, account, _⟩, _⟩ := allowed
      rw [db]
      refine refs.put_invitation invitation ?_
      rw [shape]
      refine ⟨isSome_of_live live, ⟨role, hrole, hid, own, unprotected⟩,
        Option.isSome_of_mem account, ?_⟩
      intro workspace' hw hid' hdeleted
      obtain rfl := Table.eq_of_key hw hworkspace (hid'.trans hwid.symm)
      exact absurd hlive hdeleted
  | revoke workspace invitation tick _ _ stored _ _ _ db =>
      obtain ⟨hinvitation, _⟩ := Table.get_eq_some_iff.mp stored
      rw [db]
      exact refs.put_invitation _ { refs.invitation invitation hinvitation with closed := by simp }
  | accept joins => exact joins.references refs
  | register now _ db =>
      rw [db]
      exact refs.addUnlessTaken
  | registerAndJoin now s₁ db _ _ joins =>
      exact joins.references (by rw [db]; exact refs.addUnlessTaken)
  | ensureAccount now _ db =>
      rw [db]
      exact refs.addUnlessTaken
  | rename user _ _ _ db =>
      rw [db]
      exact refs.put_user
  | replaceAvatar user _ _ db =>
      rw [db]
      exact refs.put_user
  | deleteAccount user _ _ owns_none _ db =>
      rw [db]
      exact refs.delete_account owns_none
  | deleteBatch _ db =>
      rw [db]
      exact refs.products
  | purgeNothing _ same => exact same ▸ refs
  | purgeRows workspace _ _ _ db =>
      rw [db]
      exact refs.purge
  | createProduct _ _ _ _ db =>
      rw [db]
      exact refs.products
  | updateProduct _ _ _ _ _ _ db =>
      rw [db]
      exact refs.products
  | deleteProduct _ _ _ _ db =>
      rw [db]
      exact refs.products
  | attachImage _ _ _ _ _ _ _ _ db =>
      rw [db]
      exact refs.products
  | removeImage _ _ _ _ _ _ db =>
      rw [db]
      exact refs.products
  | reorderImages _ _ _ _ _ _ db =>
      rw [db]
      exact refs.products

/-! ### All runs -/

theorem Reachable.references {ok : Work → Prop} (h : Reachable env ok s) :
  s.db.References
  := h.invariant .empty fun _ refs _ effect _ => effect.references refs

/-- A deleted workspace has no members. -/
theorem Db.References.no_member {db : Db} (h : db.References) {workspace : Workspace}
    (hw : workspace ∈ db.workspaces) (deleted : workspace.deletedAt ≠ none) :
  ∀ member ∈ db.members, member.workspaceId ≠ workspace.id
  := by
  intro member hm hid
  obtain ⟨live, hlive⟩ := Option.isSome_iff_exists.mp (h.member member hm).workspace
  obtain ⟨hmem, hlid, hdeleted⟩ := Db.live_eq_some.mp hlive
  obtain rfl : live = workspace := Table.eq_of_key hmem hw (hlid.trans hid)
  exact deleted hdeleted

/-- Transactions that run one at a time leave every row referring to rows that exist, and a
deleted workspace without members and without pending invitations. -/
theorem referential_integrity (h : Reachable env (fun _ => True) s) :
  s.db.References
    ∧ ∀ workspace ∈ s.db.workspaces, workspace.deletedAt ≠ none →
        (∀ member ∈ s.db.members, member.workspaceId ≠ workspace.id)
        ∧ ∀ invitation ∈ s.db.invitations, invitation.workspaceId = workspace.id →
            invitation.status ≠ .pending
  := by
  have refs := h.references
  refine ⟨refs, fun workspace hw deleted => ⟨refs.no_member hw deleted, ?_⟩⟩
  intro invitation hi hid
  exact (refs.invitation invitation hi).closed workspace hw hid.symm deleted

/-- A run in which a workspace with a member and a pending invitation is deleted. -/
theorem referential_integrity_of_delete :
  ∃ s, s = Session.after .sample [.register "ada" "ada@acme.test" "Ada" none,
      .register "bob" "bob@acme.test" "Bob" none, .create "Acme" "acme" "ada",
      .issue "i" "bob@acme.test" "iiii" "ada", .accept "t" "bob",
      .issue "i" "cid@acme.test" "iiii" "ada", .delete "i" "ada"]
    ∧ s.db.References
    ∧ ∃ workspace ∈ s.db.workspaces, workspace.deletedAt ≠ none
      ∧ (∀ member ∈ s.db.members, member.workspaceId ≠ workspace.id)
      ∧ ∀ invitation ∈ s.db.invitations, invitation.workspaceId = workspace.id →
          invitation.status ≠ .pending
  := by
  refine ⟨_, rfl, (referential_integrity (.after (by simp))).1,
    Exists.imp (fun workspace h => ⟨h.1, of_decide_eq_true h.2, ?_⟩)
      (Table.any_eq_true.mp (?_ : Table.any _ (·.deletedAt ≠ none) = true))⟩
  · exact (referential_integrity (.after (by simp))).2 workspace h.1
      (of_decide_eq_true h.2)
  · decide +kernel

end MvpApi
