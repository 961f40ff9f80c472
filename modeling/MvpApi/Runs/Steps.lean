import MvpApi.Application.Accounts
import MvpApi.Application.Products

/-!
# What the shared parts of the transactions do

For each program that several transactions run, when it returns and what it has changed
by then.
-/

set_option autoImplicit false

namespace MvpApi

open Exec Tx

variable {env : Env} {s s' : Session}

/-! ### Time -/

/-- In `s'` the clock was read, and ids and tokens were drawn, at least as often as in
`s`. -/
structure Later (s s' : Session) : Prop where
  ticks : s.ticks ≤ s'.ticks
  ids : s.ids ≤ s'.ids
  tokens : s.tokens ≤ s'.tokens

theorem Later.refl (s : Session) :
  Later s s
  := ⟨le_refl _, le_refl _, le_refl _⟩

theorem Later.trans {s s' s'' : Session} (h : Later s s') (h' : Later s' s'') :
  Later s s''
  := ⟨h.ticks.trans h'.ticks, h.ids.trans h'.ids, h.tokens.trans h'.tokens⟩

/-! ### Locks and views -/

/-- What is found, and must be found, is locked. -/
theorem Tx.returns_found {α : Type} {find : Db → Option α} {row : RowId} {message : String}
    {a : α} :
  Returns ((select find >>= fun x => touch (if x.isSome then [row] else []) >>= fun _ => pure x)
      >>= fun x => check (found x message)) env s a s'
    ↔ find s.db = some a ∧ s.touch [row] = s'
  := by
  simp only [returns_bind, returns_select, returns_touch, returns_pure, returns_check,
    found_eq_ok]
  constructor
  · rintro ⟨_, _, ⟨_, _, ⟨rfl, rfl⟩, _, _, rfl, rfl, rfl⟩, h, rfl⟩
    rw [h]
    exact ⟨rfl, rfl⟩
  · rintro ⟨h, rfl⟩
    refine ⟨_, _, ⟨_, _, ⟨rfl, rfl⟩, (), _, rfl, rfl, rfl⟩, h, ?_⟩
    rw [h]
    rfl

namespace WorkspaceTx

@[simp]
theorem returns_locked {workspaceId : String} {workspace : Workspace} :
  Returns (locked workspaceId) env s workspace s'
    ↔ s.db.live workspaceId = some workspace
      ∧ s.touch [.workspace workspaceId] = s'
  := Tx.returns_found

@[simp]
theorem returns_roleView {role : Role} {view : RoleView} :
  Returns (roleView role) env s view s'
    ↔ (⟨role, s.db.permissions role.id,
        (s.db.members.rows.filter (·.roleId = role.id)).length⟩ : RoleView) = view ∧ s = s'
  := by
  unfold roleView Roles.permissions Roles.memberCount
  simp only [returns_bind, returns_select, returns_pure]
  constructor
  · rintro ⟨_, _, ⟨rfl, rfl⟩, _, _, ⟨rfl, rfl⟩, rfl, rfl⟩
    exact ⟨rfl, rfl⟩
  · rintro ⟨rfl, rfl⟩
    exact ⟨_, _, ⟨rfl, rfl⟩, _, _, ⟨rfl, rfl⟩, rfl, rfl⟩

end WorkspaceTx

@[simp]
theorem workspaceView.member?_eq_ok {member : Option Member} {m : Member} :
  workspaceView.member? member = .ok m ↔ member = some m
  := by
  cases member with
  | none => simp [workspaceView.member?]
  | some member => simp [workspaceView.member?]

/-- A member sees the workspace with the permissions of their role, or all of them. -/
@[simp]
theorem returns_workspaceView {workspace : Workspace} {userId : String} {view : WorkspaceView} :
  Returns (workspaceView workspace userId) env s view s'
    ↔ ∃ member, s.db.member workspace.id userId = some member ∧ s = s'
      ∧ (⟨workspace, member.roleId, workspace.permissionsFor userId
          (if workspace.ownerId = userId then [] else s.db.permissions member.roleId)⟩
          : WorkspaceView) = view
  := by
  unfold workspaceView Members.get Roles.permissions
  by_cases ho : workspace.ownerId = userId
  · simp [ho, and_assoc]
  · simp [ho]

@[simp]
theorem returns_configurableRole {workspaceId roleId : String} {role : Role} :
  Returns (configurableRole workspaceId roleId) env s role s'
    ↔ s.db.roles.get roleId = some role ∧ role.workspaceId = workspaceId
      ∧ role.isProtected = false ∧ s = s'
  := by
  unfold configurableRole Roles.get
  simp only [returns_bind, returns_select, returns_check, found_eq_ok,
    Option.filter_eq_some_iff, decide_eq_true_eq, Role.ensureConfigurable_eq_ok, returns_pure]
  constructor
  · rintro ⟨_, _, ⟨rfl, rfl⟩, _, _, ⟨⟨hr, hw⟩, rfl⟩, _, _, ⟨hp, rfl⟩, rfl, rfl⟩
    exact ⟨hr, hw, hp, rfl⟩
  · rintro ⟨hr, hw, hp, rfl⟩
    exact ⟨_, _, ⟨rfl, rfl⟩, _, _, ⟨⟨hr, hw⟩, rfl⟩, (), _, ⟨hp, rfl⟩, rfl, rfl⟩

@[simp]
theorem usableInvitation.invitation?_eq_ok {invitation : Option Invitation} {i : Invitation} :
  usableInvitation.invitation? invitation = .ok i ↔ invitation = some i
  := by
  cases invitation with
  | none => simp [usableInvitation.invitation?]
  | some invitation => simp [usableInvitation.invitation?]

@[simp]
theorem returns_usableInvitation {token : String} {invitation : Invitation} :
  Returns (usableInvitation token) env s invitation s'
    ↔ s.db.invitations.find? (·.tokenHash = env.sha256 token) = some invitation
      ∧ invitation.Usable (env.clock s.ticks) ∧ s.tick = s'
  := by
  unfold usableInvitation Invitations.byToken
  simp only [returns_bind, returns_platform, returns_select, returns_check,
    usableInvitation.invitation?_eq_ok, returns_now, Invitation.ensureUsable_eq_ok,
    returns_pure]
  constructor
  · rintro ⟨_, _, ⟨_, _, ⟨rfl, rfl⟩, rfl, rfl⟩, _, _, ⟨hi, rfl⟩, _, _, ⟨rfl, rfl⟩, _, _,
      ⟨hu, rfl⟩, rfl, rfl⟩
    exact ⟨hi, hu, rfl⟩
  · rintro ⟨hi, hu, rfl⟩
    exact ⟨_, _, ⟨_, _, ⟨rfl, rfl⟩, rfl, rfl⟩, _, _, ⟨hi, rfl⟩, _, _, ⟨rfl, rfl⟩, (), _,
      ⟨hu, rfl⟩, rfl, rfl⟩

/-! ### Inserting rows -/

@[simp]
theorem Members.returns_add {member : Member} {u : Unit} :
  Returns (Members.add member) env s u s'
    ↔ s.db.members.get member.key = none
      ∧ s.write (fun db => { db with members := db.members.put member }) = s'
  := by
  unfold Members.add
  simp

@[simp]
theorem Workspaces.returns_add {workspace : Workspace} {u : Unit} :
  Returns (Workspaces.add workspace) env s u s'
    ↔ s.db.workspaces.get workspace.id = none
      ∧ s.write (fun db => { db with workspaces := db.workspaces.put workspace }) = s'
  := by
  unfold Workspaces.add
  simp

@[simp]
theorem Invitations.returns_add {invitation : Invitation} {u : Unit} :
  Returns (Invitations.add invitation) env s u s'
    ↔ s.db.invitations.get invitation.id = none
      ∧ s.write (fun db => { db with invitations := db.invitations.put invitation }) = s'
  := by
  unfold Invitations.add
  simp

@[simp]
theorem Products.returns_add {product : Product} {u : Unit} :
  Returns (Products.add product) env s u s'
    ↔ s.db.products.get product.id = none
      ∧ s.write (fun db => { db with products := db.products.put product.toProductRow }) = s'
  := by
  unfold Products.add
  simp

@[simp]
theorem Products.returns_addImage {image : ProductImage} {u : Unit} :
  Returns (Products.addImage image) env s u s'
    ↔ s.db.images.get image.id = none
      ∧ s.write (fun db => { db with images := db.images.put image }) = s'
  := by
  unfold Products.addImage
  simp

/-! ### Roles -/

/-- The permissions of a table after granting some to a role. -/
def granted (permissions : Table RolePermission.key) (roleId : String) (granted : List String) :
    Table RolePermission.key :=
  granted.foldl (fun table permission => table.put ⟨roleId, permission⟩) permissions

@[simp]
theorem mem_granted {permissions : Table RolePermission.key} {roleId : String} {l : List String}
    {row : RolePermission} :
  row ∈ granted permissions roleId l
    ↔ row ∈ permissions ∨ (row.roleId = roleId ∧ row.permission ∈ l)
  := by
  unfold granted
  induction l generalizing permissions with
  | nil => simp
  | cons permission l ih =>
      rw [List.foldl_cons, ih, Table.mem_put, List.mem_cons]
      constructor
      · rintro ((rfl | ⟨h, _⟩) | ⟨h, h'⟩)
        · exact Or.inr ⟨rfl, Or.inl rfl⟩
        · exact Or.inl h
        · exact Or.inr ⟨h, Or.inr h'⟩
      · rintro (h | ⟨h, rfl | h'⟩)
        · by_cases hk : row.key = RolePermission.key ⟨roleId, permission⟩
          · left; left
            obtain ⟨h₁, h₂⟩ := pair_inj.mp hk
            cases row
            simp_all
          · exact Or.inl (Or.inr ⟨h, hk⟩)
        · left; left
          cases row
          simp_all
        · exact Or.inr ⟨h, h'⟩

namespace Roles

theorem returns_grant {roleId : String} {permissions : List String} {u : Unit}
    (h : Returns (grant roleId permissions) env s u s') :
  s' = s.write fun db =>
    { db with rolePermissions := granted db.rolePermissions roleId permissions }
  := by
  unfold grant at h
  simp only [returns_bind, returns_select, returns_ensure, returns_write] at h
  obtain ⟨_, _, ⟨rfl, rfl⟩, _, _, ⟨_, rfl⟩, rfl⟩ := h
  rfl

theorem returns_add {role : Role} {permissions : List String} {u : Unit}
    (h : Returns (add role permissions) env s u s') :
  s.db.roles.get role.id = none
    ∧ s' = s.write fun db =>
        { db with
          roles := db.roles.put role
          rolePermissions := granted db.rolePermissions role.id permissions }
  := by
  unfold add at h
  simp only [returns_bind, returns_select, returns_ensure, returns_write] at h
  obtain ⟨_, _, ⟨rfl, rfl⟩, _, _, ⟨hr, rfl⟩, _, _, rfl, h⟩ := h
  exact ⟨Option.isNone_iff_eq_none.mp (Option.isSome_eq_false_iff.mp hr), returns_grant h⟩

end Roles

/-! ### Leaving and creating workspaces -/

/-- The account, sent back to the workspace step if it is one of a list and belongs to no
workspace. -/
def User.returned (user : User) (belongs : String → Bool) (userIds : List String) : User :=
  if user.id ∈ userIds ∧ belongs user.id = false then user.leftEveryWorkspace else user

@[simp]
theorem User.returned_id (user : User) (belongs : String → Bool) (userIds : List String) :
  (user.returned belongs userIds).id = user.id
  := by
  unfold User.returned
  split
  · rfl
  · rfl

/-- The accounts, with those of a list that belong to no workspace sent back to the
workspace step. -/
def Db.returned (db : Db) (userIds : List String) : Db :=
  { db with
    users := db.users.map (·.returned db.belongsToAny userIds) fun user =>
      user.returned_id db.belongsToAny userIds }

theorem User.leftEveryWorkspace_idem (user : User) :
  user.leftEveryWorkspace.leftEveryWorkspace = user.leftEveryWorkspace
  := by
  unfold User.leftEveryWorkspace
  cases user.onboardingStatus with
  | profilePending => rfl
  | workspacePending => rfl
  | completed => rfl

theorem User.returned_cons (user : User) (belongs : String → Bool) (memberId : String)
    (userIds : List String) :
  (user.returned belongs [memberId]).returned belongs userIds
    = user.returned belongs (memberId :: userIds)
  := by
  unfold User.returned
  by_cases hb : belongs user.id = false
  · by_cases hm : user.id = memberId
    · by_cases hu : user.id ∈ userIds
      · simp [hm ▸ hb, hm, hm ▸ hu, leftEveryWorkspace_idem]
      · simp [hm ▸ hb, hm, hm ▸ hu]
    · simp [hb, hm]
  · simp [hb]

/-- Sending one account back, if it belongs to no workspace. -/
theorem Db.returned_singleton {db : Db} {user : User} (hu : user ∈ db.users)
    (hb : db.belongsToAny user.id = false) :
  db.returned [user.id] = { db with users := db.users.put user.leftEveryWorkspace }
  := by
  apply Db.ext
  case users =>
    apply Table.ext
    intro k
    rw [returned, Table.get_map, Table.get_put]
    by_cases hk : k = user.id
    · subst hk
      rw [Table.mem_def.mp hu]
      simp [User.returned, hb]
    · rw [User.leftEveryWorkspace_id, if_neg hk]
      cases h : db.users.get k with
      | none => rfl
      | some user' =>
          have hk' : user'.id = k := (Table.get_eq_some_iff.mp h).2
          simp [User.returned, hk', hk]
  all_goals rfl

/-- Sending back an account that does not exist, or belongs to a workspace, changes
nothing. -/
theorem Db.returned_singleton_self {db : Db} {userId : String}
    (h : db.users.get userId = none ∨ db.belongsToAny userId = true) :
  db.returned [userId] = db
  := by
  apply Db.ext
  case users =>
    apply Table.ext
    intro k
    rw [returned, Table.get_map]
    cases hk : db.users.get k with
    | none => rfl
    | some user =>
        have hid : user.id = k := (Table.get_eq_some_iff.mp hk).2
        have hne : ¬ (user.id ∈ [userId] ∧ db.belongsToAny user.id = false) := by
          rintro ⟨hmem, hb⟩
          obtain rfl := List.mem_singleton.mp hmem
          rcases h with h | h
          · rw [hid, hk] at h
            cases h
          · rw [hb] at h
            cases h
        rw [Option.map_some, User.returned, if_neg hne]
  all_goals rfl

namespace WorkspaceTx

@[simp]
theorem returns_returnToWorkspaceStep {userIds : List String} {u : Unit} :
  Returns (returnToWorkspaceStep userIds) env s u s' ↔ s.write (·.returned userIds) = s'
  := by
  induction userIds generalizing s with
  | nil =>
      have h : s.db.returned [] = s.db := by
        apply Db.ext
        case users =>
          apply Table.ext
          intro k
          simp [Db.returned, User.returned]
        all_goals rfl
      rw [Session.write_self h]
      simp [returnToWorkspaceStep]
  | cons memberId userIds ih =>
      have step : s.db.returned (memberId :: userIds)
          = (s.db.returned [memberId]).returned userIds := by
        apply Db.ext
        case users =>
          apply Table.ext
          intro k
          simp only [Db.returned, Table.get_map, Option.map_map]
          congr 1
          funext user
          exact (user.returned_cons s.db.belongsToAny memberId userIds).symm
        all_goals rfl
      unfold returnToWorkspaceStep Users.get Members.belongsToAny Users.save
      simp only [returns_bind, returns_select]
      cases hu : s.db.users.get memberId with
      | none =>
          have h : s.write (·.returned (memberId :: userIds)) = s.write (·.returned userIds) := by
            apply Session.write_congr
            rw [step, Db.returned_singleton_self (Or.inl hu)]
          rw [h]
          simp [ih]
      | some user =>
          obtain ⟨hmem, rfl⟩ := Table.get_eq_some_iff.mp hu
          cases hb : s.db.belongsToAny user.id with
          | true =>
              have h : s.write (·.returned (user.id :: userIds)) = s.write (·.returned userIds) := by
                apply Session.write_congr
                rw [step, Db.returned_singleton_self (Or.inr hb)]
              rw [h]
              simp [ih, hb]
          | false =>
              have h : s.write (·.returned (user.id :: userIds))
                  = (s.write fun db =>
                      { db with users := db.users.put user.leftEveryWorkspace }).write
                        (·.returned userIds) := by
                rw [Session.write, Session.write, Session.write, step,
                  Db.returned_singleton hmem hb]
              rw [h]
              simp [ih, hb]

/-- Roles added to a workspace for the system roles of a list. -/
structure NewRoles (stored : Table Role.id) (workspaceId : String) (roles : List (String × List String))
    (new : List Role) : Prop where
  names : new.map Role.name = roles.map Prod.fst
  system : ∀ role ∈ new, role = Role.system role.id workspaceId role.name
  fresh : ∀ role ∈ new, stored.get role.id = none

theorem NewRoles.cons {stored stored' : Table Role.id} {workspaceId id roleName : String}
    {permissions : List String} {roles : List (String × List String)} {new : List Role}
    (h : NewRoles stored' workspaceId roles new) (free : stored.get id = none)
    (put : stored' = stored.put (.system id workspaceId roleName)) :
  NewRoles stored workspaceId ((roleName, permissions) :: roles)
    (.system id workspaceId roleName :: new)
  where
  names := by
    simp [h.names, Role.system]
  system := by
    rintro role (_ | ⟨_, hr⟩)
    · rfl
    · exact h.system role hr
  fresh := by
    rintro role (_ | ⟨_, hr⟩)
    · exact free
    · have hrole := h.fresh role hr
      rw [put, Table.get_put] at hrole
      split at hrole
      · cases hrole
      · exact hrole

theorem mem_put_roles {db db' : Db} {workspaceId id roleName : String}
    {roles' : Table Role.id} {new : List Role} (free : db.roles.get id = none)
    (put : db'.roles = db.roles.put (.system id workspaceId roleName))
    (h : ∀ role, role ∈ roles' ↔ role ∈ db'.roles ∨ role ∈ new) (role : Role) :
  role ∈ roles' ↔ role ∈ db.roles ∨ role ∈ Role.system id workspaceId roleName :: new
  := by
  rw [h, put, Table.mem_put_of_get free, List.mem_cons]
  tauto

theorem mem_granted_cons {db db' : Db} {role : Role} {roleName : String}
    {permissions : List String} {roles : List (String × List String)}
    {permissions' : Table RolePermission.key} {new : List Role} (name : roleName = role.name)
    (put : db'.rolePermissions = granted db.rolePermissions role.id permissions)
    (h : ∀ row ∈ permissions', row ∈ db'.rolePermissions
      ∨ ∃ role ∈ new, row.roleId = role.id
        ∧ ∃ entry ∈ roles, entry.1 = role.name ∧ row.permission ∈ entry.2) :
  ∀ row ∈ permissions', row ∈ db.rolePermissions
    ∨ ∃ role' ∈ role :: new, row.roleId = role'.id
      ∧ ∃ entry ∈ (roleName, permissions) :: roles,
          entry.1 = role'.name ∧ row.permission ∈ entry.2
  := by
  intro row hrow
  rcases h row hrow with h | ⟨role', hrole, hid, entry, hentry, hname, hp⟩
  · rw [put, mem_granted] at h
    rcases h with h | ⟨hid, hp⟩
    · exact Or.inl h
    · exact Or.inr ⟨role, List.mem_cons_self, hid, _, List.mem_cons_self, name, hp⟩
  · exact Or.inr ⟨role', List.mem_cons_of_mem _ hrole, hid, entry,
      List.mem_cons_of_mem _ hentry, hname, hp⟩

/-- The owner that is added with the system roles of a list: one if the list has the owner
role, and none otherwise. -/
inductive NewOwner (workspaceId userId : String) (new : List Role) :
    Table Member.key → Table Member.key → Prop
  | none (members : Table Member.key) (h : ∀ role ∈ new, role.name ≠ ownerRole) :
      NewOwner workspaceId userId new members members
  | add (members : Table Member.key) (role : Role) (joinedAt : Time) (mem : role ∈ new)
      (name : role.name = ownerRole) (free : members.get (pair workspaceId userId) = Option.none) :
      NewOwner workspaceId userId new members
        (members.put ⟨workspaceId, userId, role.id, joinedAt⟩)

/-- The list of the system roles has the owner role, so an owner is added with it. -/
theorem NewOwner.exists {stored : Table Role.id} {workspaceId userId : String} {new : List Role}
    {members members' : Table Member.key} (h : NewOwner workspaceId userId new members members')
    (added : NewRoles stored workspaceId systemRoles new) :
  ∃ owner ∈ new, owner.name = ownerRole ∧ members.get (pair workspaceId userId) = Option.none
    ∧ ∃ joinedAt, members' = members.put ⟨workspaceId, userId, owner.id, joinedAt⟩
  := by
  cases h with
  | none h =>
      have howner : ownerRole ∈ new.map Role.name := by
        rw [added.names]
        decide
      obtain ⟨role, hrole, hname⟩ := List.mem_map.mp howner
      exact absurd hname (h role hrole)
  | add owner joinedAt mem name free => exact ⟨owner, mem, name, free, joinedAt, rfl⟩

/-- What adding system roles changes: the roles, their permissions and the members. -/
theorem returns_addSystemRoles {workspaceId userId : String} {roles : List (String × List String)}
    {u : Unit} (h : Returns (addSystemRoles workspaceId userId roles) env s u s') :
  ∃ new roles' rolePermissions' members',
    NewRoles s.db.roles workspaceId roles new
    ∧ (∀ role, role ∈ roles' ↔ role ∈ s.db.roles ∨ role ∈ new)
    ∧ (∀ row ∈ s.db.rolePermissions, row ∈ rolePermissions')
    ∧ (∀ row ∈ rolePermissions', row ∈ s.db.rolePermissions
        ∨ ∃ role ∈ new, row.roleId = role.id
          ∧ ∃ entry ∈ roles, entry.1 = role.name ∧ row.permission ∈ entry.2)
    ∧ NewOwner workspaceId userId new s.db.members members'
    ∧ s'.db = { s.db with
        roles := roles', rolePermissions := rolePermissions', members := members' }
    ∧ s'.touched = s.touched ∧ Later s s'
  := by
  induction roles generalizing s with
  | nil =>
      obtain ⟨rfl, rfl⟩ := returns_pure.mp h
      refine ⟨[], s.db.roles, s.db.rolePermissions, s.db.members, ⟨rfl, by simp, by simp⟩,
        by simp, by simp, ?_, .none _ (by simp), rfl, rfl, .refl s⟩
      intro row hrow
      exact Or.inl hrow
  | cons entry roles ih =>
      obtain ⟨roleName, permissions⟩ := entry
      unfold addSystemRoles at h
      simp only [returns_bind, returns_newId] at h
      obtain ⟨_, _, ⟨rfl, rfl⟩, _, s₁, hadd, h⟩ := h
      obtain ⟨hfree, rfl⟩ := Roles.returns_add hadd
      split at h
      · next hname =>
          simp only [returns_bind, returns_now, Members.returns_add] at h
          obtain ⟨_, _, ⟨rfl, rfl⟩, _, _, ⟨hmember, rfl⟩, h⟩ := h
          obtain ⟨new, roles', permissions', members', hnew, hroles, hkept, hperms, howner, hdb, ht,
            hl⟩ := ih h
          refine ⟨_ :: new, roles', permissions', members', hnew.cons hfree rfl,
            mem_put_roles hfree rfl hroles, fun row hrow => hkept row (mem_granted.mpr (Or.inl hrow)),
            mem_granted_cons rfl rfl hperms, ?_, hdb,
            ht, .trans ?_ hl⟩
          · cases howner with
            | none h' => exact .add _ _ _ List.mem_cons_self hname hmember
            | add role joinedAt mem name free =>
                have htaken := Table.get_put_self s.db.members ⟨workspaceId, userId,
                  (Role.system (env.uuid7 s.ids) workspaceId roleName).id, env.clock s.ticks⟩
                exact absurd (htaken.symm.trans free) (by simp)
          · exact ⟨Nat.le_succ _, Nat.le_succ _, le_refl _⟩
      · next hname =>
          obtain ⟨new, roles', permissions', members', hnew, hroles, hkept, hperms, howner, hdb, ht,
            hl⟩ := ih h
          refine ⟨_ :: new, roles', permissions', members', hnew.cons hfree rfl,
            mem_put_roles hfree rfl hroles, fun row hrow => hkept row (mem_granted.mpr (Or.inl hrow)),
            mem_granted_cons rfl rfl hperms, ?_, hdb,
            ht, .trans ?_ hl⟩
          · cases howner with
            | none h' => exact .none _ (List.forall_mem_cons.mpr ⟨hname, h'⟩)
            | add role joinedAt mem name free =>
                exact .add _ _ _ (List.mem_cons_of_mem _ mem) name free
          · exact ⟨le_refl _, Nat.le_succ _, le_refl _⟩

end WorkspaceTx

end MvpApi
