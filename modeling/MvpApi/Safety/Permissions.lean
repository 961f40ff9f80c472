import MvpApi.Safety.Ownership

/-!
# What a client is shown is what the server allows

A client is sent the permissions of an account in a workspace, and a transaction asks
whether an action is permitted. The two are computed from different data, and they agree
because of what the rows of role permissions satisfy: each gives a permission of the catalog
that is not reserved for the owner, to a role that is not protected.
-/

set_option autoImplicit false

namespace MvpApi

open Exec

/-- A permission that a role may hold: one of the catalog, not reserved for the owner. -/
def IsAssignable (action : String) : Prop := action ∈ catalogActions ∧ action ∉ ownerActions

/-- Every row of role permissions gives an assignable permission to an unprotected role. -/
def Db.Granted (db : Db) : Prop :=
  ∀ row ∈ db.rolePermissions, IsAssignable row.permission
    ∧ ∃ role ∈ db.roles, role.id = row.roleId ∧ role.isProtected = false

/-! ### The permissions of the system roles -/

/-- The admin role holds assignable permissions only. -/
theorem isAssignable_of_mem_adminPermissions {action : String} (h : action ∈ adminPermissions) :
  IsAssignable action
  := by
  have hall : ∀ action ∈ adminPermissions, action ∈ catalogActions ∧ action ∉ ownerActions := by
    decide +kernel
  exact hall action h

/-- So does every system role, and the owner role holds none. -/
theorem systemRoles_assignable {entry : String × List String} (h : entry ∈ systemRoles)
    {action : String} (ha : action ∈ entry.2) :
  entry.1 ≠ ownerRole ∧ IsAssignable action
  := by
  have hall : ∀ entry ∈ systemRoles, ∀ action ∈ entry.2,
      entry.1 ≠ ownerRole ∧ action ∈ catalogActions ∧ action ∉ ownerActions := by
    decide +kernel
  exact hall entry h action ha

/-- A system role with a name other than `owner` is not protected. -/
theorem Role.system_isProtected {id workspaceId name : String} (h : name ≠ ownerRole) :
  (Role.system id workspaceId name).isProtected = false
  := beq_eq_false_iff_ne.mpr h

/-! ### One rule for each way of changing the two tables -/

namespace Db.Granted

variable {db : Db}

/-- Changes of other tables do not matter. -/
theorem of_same {db' : Db} (h : db.Granted) (roles : db'.roles = db.roles)
    (permissions : db'.rolePermissions = db.rolePermissions) :
  db'.Granted
  := by
  intro row hrow
  rw [permissions] at hrow
  rw [roles]
  exact h row hrow

/-- Nor does an account that is added. -/
theorem addUnlessTaken (h : db.Granted) (user : User) :
  (db.addUnlessTaken user).Granted
  := by
  obtain ⟨_, hdb, _⟩ := db.addUnlessTaken_eq user
  exact h.of_same (by rw [hdb]) (by rw [hdb])

/-- A role may be written as long as it stays unprotected. -/
theorem put_role (h : db.Granted) (role : Role)
    (before : ∀ old, db.roles.get role.id = some old → role.isProtected = false) :
  Granted { db with roles := db.roles.put role }
  := by
  intro row hrow
  obtain ⟨hp, old, hold, hid, hprot⟩ := h row hrow
  refine ⟨hp, ?_⟩
  by_cases heq : old.id = role.id
  · have hget : db.roles.get role.id = some old := Table.get_eq_some_iff.mpr ⟨hold, heq⟩
    exact ⟨role, Table.mem_put.mpr (Or.inl rfl), heq.symm.trans hid, before old hget⟩
  · exact ⟨old, Table.mem_put.mpr (Or.inr ⟨hold, heq⟩), hid, hprot⟩

/-- A role may go together with its permissions. -/
theorem delete_role (h : db.Granted) (roleId : String) :
  Granted { db with
    rolePermissions := db.rolePermissions.filter (·.roleId ≠ roleId)
    roles := db.roles.erase roleId }
  := by
  intro row hrow
  obtain ⟨hrow, hne⟩ := Table.mem_filter.mp hrow
  obtain ⟨hp, role, hrole, hid, hprot⟩ := h row hrow
  have hkept : role.id ≠ roleId := fun heq => of_decide_eq_true hne (hid.symm.trans heq)
  exact ⟨hp, role, Table.mem_erase.mpr ⟨hrole, hkept⟩, hid, hprot⟩

/-- An unprotected role may be given assignable permissions. -/
theorem grant (h : db.Granted) {role : Role} (mem : role ∈ db.roles)
    (unprotected : role.isProtected = false) {permissions : List String}
    (assignable : ∀ action ∈ permissions, IsAssignable action)
    {rows : Table RolePermission.key} (sub : ∀ row ∈ rows, row ∈ db.rolePermissions) :
  Granted { db with rolePermissions := MvpApi.granted rows role.id permissions }
  := by
  intro row hrow
  rcases mem_granted.mp hrow with hrow | ⟨hid, hp⟩
  · exact h row (sub row hrow)
  · exact ⟨assignable _ hp, role, mem, hid.symm, unprotected⟩

/-- The roles of a workspace may go together with their permissions. -/
theorem purge (h : db.Granted) (workspace : Workspace) :
  (db.purge workspace).Granted
  := by
  intro row hrow
  obtain ⟨hrow, hkept⟩ := Table.mem_filter.mp hrow
  obtain ⟨hp, role, hrole, hid, hprot⟩ := h row hrow
  have hget : db.roles.get row.roleId = some role := Table.get_eq_some_iff.mpr ⟨hrole, hid⟩
  refine ⟨hp, role, Table.mem_filter.mpr ⟨hrole, ?_⟩, hid, hprot⟩
  simpa [hget] using hkept

end Db.Granted

/-! ### All runs -/

variable {env : Env} {s s' : Session}

/-- Joining leaves the roles and their permissions. -/
theorem Joins.granted {token userId : String} (h : Joins env token userId s s')
    (granted : s.db.Granted) :
  s'.db.Granted
  := by
  obtain ⟨_, _, _, _, _, _, _, _, _, _, _, _, _, _, _, _, _, _, _, _, db⟩ := h
  exact granted.of_same (by rw [db]) (by rw [db])

/-- Every transaction keeps what the rows of role permissions satisfy. -/
theorem Effect.granted {work : Work} (h : Effect env s s' work) (granted : s.db.Granted) :
  s'.db.Granted
  := by
  cases h with
  | create user workspace new roles' permissions' owner joinedAt _ _ _ _ _ added roles _ given _ _ _
      _ db _ =>
      rw [db]
      intro row hrow
      rcases given row hrow with hrow | ⟨role, hrole, hid, entry, hentry, hname, hp⟩
      · obtain ⟨hp, role, hrole, hid, hprot⟩ := granted row hrow
        exact ⟨hp, role, (roles role).mpr (Or.inl hrole), hid, hprot⟩
      · obtain ⟨hne, hassignable⟩ := systemRoles_assignable hentry hp
        refine ⟨hassignable, role, (roles role).mpr (Or.inr hrole), hid.symm, ?_⟩
        rw [added.system role hrole]
        exact Role.system_isProtected (hname ▸ hne)
  | addRole workspace roleId _ _ _ fresh _ db =>
      rw [db]
      refine granted.put_role _ ?_
      simp [fresh]
  | renameRole workspace role _ _ _ stored _ unprotected _ db =>
      rw [db]
      exact granted.put_role _ fun _ _ => unprotected
  | deleteRole workspace role now _ _ _ _ _ _ _ _ db =>
      rw [db]
      exact (granted.delete_role _).of_same rfl rfl
  | setPermissions workspace role _ _ stored _ unprotected valid _ db =>
      obtain ⟨hrole, hid⟩ := Table.get_eq_some_iff.mp stored
      rw [db, ← hid]
      refine granted.grant hrole unprotected (fun action ha => ?_) fun row hrow =>
        (Table.mem_filter.mp hrow).1
      exact valid action (List.mem_toFinset.mp (Table.mem_ascending.mp ha))
  | @transfer w _ _ workspace target previous admin roles' permissions' _ _ _ _ _ _ admin_mem _ db
      _ =>
      rcases admin_mem with ⟨_, hroles, hpermissions⟩ | ⟨fresh, hadmin, hroles, hpermissions⟩
      · exact granted.of_same (by rw [db]; exact hroles) (by rw [db]; exact hpermissions)
      · have hunprotected : admin.isProtected = false := by
          rw [hadmin]
          exact Role.system_isProtected (by decide)
        have hput : Db.Granted { s.db with roles := s.db.roles.put admin } :=
          granted.put_role admin (by simp [fresh])
        have hgrant := hput.grant (Table.mem_put.mpr (Or.inl rfl)) hunprotected
          (fun _ ha => isAssignable_of_mem_adminPermissions ha) fun _ hrow => hrow
        exact hgrant.of_same (by rw [db]; exact hroles) (by rw [db]; exact hpermissions)
  | purgeRows workspace _ _ _ db =>
      rw [db]
      exact granted.purge workspace
  | purgeNothing _ same => exact same ▸ granted
  | accept joins => exact joins.granted granted
  | registerAndJoin now s₁ db _ _ joins =>
      exact joins.granted (db ▸ granted.addUnlessTaken _)
  | update _ _ _ _ db => exact granted.of_same (by rw [db]) (by rw [db])
  | replaceLogo _ _ _ _ db => exact granted.of_same (by rw [db]) (by rw [db])
  | delete _ _ _ _ _ _ _ _ db => exact granted.of_same (by rw [db]; rfl) (by rw [db]; rfl)
  | setMemberRole _ _ _ _ _ _ _ _ _ _ _ db => exact granted.of_same (by rw [db]) (by rw [db])
  | removeMember _ _ _ _ _ _ _ db => exact granted.of_same (by rw [db]; rfl) (by rw [db]; rfl)
  | issue _ _ _ _ _ _ _ _ _ _ _ _ _ _ _ _ _ _ _ _ _ _ db =>
      exact granted.of_same (by rw [db]) (by rw [db])
  | revoke _ _ _ _ _ _ _ _ _ db => exact granted.of_same (by rw [db]) (by rw [db])
  | register now _ db => exact db ▸ granted.addUnlessTaken _
  | ensureAccount now _ db => exact db ▸ granted.addUnlessTaken _
  | rename _ _ _ _ db => exact granted.of_same (by rw [db]) (by rw [db])
  | replaceAvatar _ _ _ db => exact granted.of_same (by rw [db]) (by rw [db])
  | deleteAccount _ _ _ _ _ db => exact granted.of_same (by rw [db]) (by rw [db])
  | deleteBatch _ db => exact granted.of_same (by rw [db]; rfl) (by rw [db]; rfl)
  | createProduct _ _ _ _ db => exact granted.of_same (by rw [db]) (by rw [db])
  | updateProduct _ _ _ _ _ _ db => exact granted.of_same (by rw [db]) (by rw [db])
  | deleteProduct _ _ _ _ db => exact granted.of_same (by rw [db]) (by rw [db])
  | attachImage _ _ _ _ _ _ _ _ db => exact granted.of_same (by rw [db]) (by rw [db])
  | removeImage _ _ _ _ _ _ db => exact granted.of_same (by rw [db]) (by rw [db])
  | reorderImages _ _ _ _ _ _ db => exact granted.of_same (by rw [db]) (by rw [db])

theorem Db.Granted.empty :
  Db.empty.Granted
  := by
  simp [Db.Granted, Db.empty]

/-- In every reachable session each row of role permissions gives an assignable permission to
an unprotected role. -/
theorem Reachable.granted {ok : Work → Prop} (h : Reachable env ok s) :
  s.db.Granted
  := h.invariant .empty fun _ granted _ effect _ => effect.granted granted

/-! ### The two ways of deciding what is permitted -/

/-- The permissions of a role, as they are listed, have no repetitions. -/
theorem Db.nodup_permissions {db : Db} {roleId : String} :
  (db.permissions roleId).Nodup
  := by
  refine (List.perm_insertionSort _ _).nodup_iff.mpr ?_
  refine List.Nodup.map_on ?_ (db.rolePermissions.nodup_rows.filter _)
  intro row hrow row' hrow' heq
  have hid := of_decide_eq_true (List.mem_filter.mp hrow).2
  have hid' := of_decide_eq_true (List.mem_filter.mp hrow').2
  cases row
  cases row'
  simp_all

/-- No action that a client may be shown is a read, or is on an account. -/
theorem shown_actions {action : String} (h : action ∈ catalogActions ∨ action ∈ ownerActions) :
  isOnOwnAccount action = false ∧ endswith action ".read" = false
  := by
  have hall : ∀ action ∈ catalogActions ++ ownerActions,
      isOnOwnAccount action = false ∧ endswith action ".read" = false := by
    decide +kernel
  exact hall action (List.mem_append.mpr h)

/-- The owner is shown every permission of the catalog and every owner action, once. -/
theorem Workspace.permissionsFor_owner {workspace : Workspace} {rolePermissions : List String} :
  (workspace.permissionsFor workspace.ownerId rolePermissions).Nodup
    ∧ ∀ action, action ∈ workspace.permissionsFor workspace.ownerId rolePermissions
        ↔ action ∈ catalogActions ∨ action ∈ ownerActions
  := by
  have hlist : workspace.permissionsFor workspace.ownerId rolePermissions
      = catalogActions ++ (ownerActions.filter (· ∉ catalogActions)).insertionSort (· ≤ ·) := by
    simp [Workspace.permissionsFor]
  rw [hlist]
  constructor
  · decide +kernel
  · intro action
    rw [List.mem_append, List.mem_insertionSort, List.mem_filter, decide_eq_true_eq]
    tauto

/-- To a member other than the owner, whose role has assignable permissions, an action is
permitted exactly if it is one of these. -/
theorem Workspace.grants_of_not_owner {workspace : Workspace} {userId action : String}
    {rolePermissions : List String} (hne : userId ≠ workspace.ownerId)
    (assignable : ∀ action ∈ rolePermissions, IsAssignable action)
    (notRead : endswith action ".read" = false) :
  (workspace.grants userId action).getD (action ∈ rolePermissions) = true
    ↔ action ∈ rolePermissions
  := by
  rw [Workspace.grants, if_neg hne]
  by_cases hreserved : action ∈ ownerActions
  · rw [if_pos hreserved, Option.getD_some]
    constructor
    · intro h
      cases h
    · intro h
      exact absurd hreserved (assignable action h).2
  · rw [if_neg hreserved, if_neg (by simp [notRead]), Option.getD_none, decide_eq_true_eq]

/-- In every reachable session, what a client is shown to be permitted to a member of a live
workspace is what the server permits, and is listed once. Rows of role permissions are within
the catalog, none is reserved for the owner, and the protected owner role has none. -/
theorem permissions_shown (h : Reachable env (fun _ => True) s) {w : String}
    {workspace : Workspace} (live : s.db.live w = some workspace) :
  (∀ userId, (s.db.member w userId).isSome →
    ∃ view, Returns (workspaceView workspace userId) env s view s ∧ view.permissions.Nodup
      ∧ ∀ action, action ∈ catalogActions ∨ action ∈ ownerActions →
          ∃ permitted, Returns (permits userId action w) env s permitted s
            ∧ (action ∈ view.permissions ↔ permitted = true))
    ∧ ∀ role ∈ s.db.roles, role.workspaceId = w →
        ∀ row ∈ s.db.rolePermissions, row.roleId = role.id →
          row.permission ∈ catalogActions ∧ row.permission ∉ ownerActions
            ∧ role.isProtected = false ∧ role.name ≠ ownerRole
  := by
  have granted := h.granted
  obtain ⟨_, hid, _⟩ := Db.live_eq_some.mp live
  constructor
  · intro userId hmember
    obtain ⟨member, hmember⟩ := Option.isSome_iff_exists.mp hmember
    refine ⟨_, returns_workspaceView.mpr ⟨member, hid ▸ hmember, rfl, rfl⟩, ?_⟩
    have permitted (action : String) (ha : action ∈ catalogActions ∨ action ∈ ownerActions) :
        s.db.permits userId action w = true ↔ (workspace.grants userId action).getD
          (action ∈ s.db.permissions member.roleId) = true := by
      rw [Db.permits_eq_true (shown_actions ha).1]
      simp [live, hmember]
    by_cases howner : userId = workspace.ownerId
    · subst howner
      refine ⟨Workspace.permissionsFor_owner.1, fun action ha => ?_⟩
      refine ⟨_, returns_permits.mpr ⟨rfl, rfl⟩, ?_⟩
      rw [permitted action ha, Workspace.permissionsFor_owner.2]
      simp [Workspace.grants, ha]
    · have hshown : workspace.permissionsFor userId
          (if workspace.ownerId = userId then [] else s.db.permissions member.roleId)
          = s.db.permissions member.roleId := by
        rw [Workspace.permissionsFor, if_pos howner, if_neg (Ne.symm howner)]
      have assignable : ∀ action ∈ s.db.permissions member.roleId, IsAssignable action :=
        fun action ha => (granted _ (Db.mem_permissions.mp ha)).1
      simp only [hshown]
      refine ⟨Db.nodup_permissions, fun action ha => ?_⟩
      refine ⟨_, returns_permits.mpr ⟨rfl, rfl⟩, ?_⟩
      rw [permitted action ha,
        Workspace.grants_of_not_owner howner assignable (shown_actions ha).2]
  · intro role hrole hw row hrow hrid
    obtain ⟨⟨hcatalog, howner⟩, role', hrole', hid', hprot⟩ := granted row hrow
    obtain rfl : role' = role := Table.eq_of_key hrole' hrole (hid'.trans hrid)
    refine ⟨hcatalog, howner, hprot, fun hname => ?_⟩
    rw [(h.owned w).protected_iff role' hrole hw |>.mpr hname] at hprot
    cases hprot

/-- A run in which a workspace is handed over: the previous owner is an admin then, and is
shown, and permitted, to invite but not to delete the workspace. -/
theorem permissions_shown_of_transfer :
  ∃ s workspace view, Reachable .sample (fun _ => True) s ∧ s.db.live "i" = some workspace
    ∧ workspace.ownerId = "bob"
    ∧ Returns (workspaceView workspace "ada") .sample s view s ∧ view.permissions.Nodup
    ∧ "members.invite" ∈ view.permissions ∧ "workspace.delete" ∉ view.permissions
  := by
  obtain ⟨s, h, hlive, hmember, hinvite, hdelete⟩ :
      ∃ s, Reachable .sample (fun _ => True) s
        ∧ (s.db.live "i").any (·.ownerId = "bob") = true ∧ (s.db.member "i" "ada").isSome
        ∧ s.db.permits "ada" "members.invite" "i" = true
        ∧ s.db.permits "ada" "workspace.delete" "i" = false :=
    ⟨.after .sample [.register "ada" "ada@acme.test" "Ada" none,
      .register "bob" "bob@acme.test" "Bob" none, .create "Acme" "acme" "ada",
      .issue "i" "bob@acme.test" "iiii" "ada", .accept "t" "bob", .transfer "i" "bob" "ada"],
      .after (by simp), by decide +kernel, by decide +kernel, by decide +kernel, by decide +kernel⟩
  obtain ⟨workspace, live, howner⟩ := (Option.any_eq_true _ _).mp hlive
  obtain ⟨view, hview, nodup, agree⟩ := (permissions_shown h live).1 "ada" hmember
  refine ⟨s, workspace, view, h, live, of_decide_eq_true howner, hview, nodup, ?_, ?_⟩
  · obtain ⟨permitted, hpermitted, hiff⟩ := agree "members.invite" (by decide)
    exact hiff.mpr ((returns_permits.mp hpermitted).1.symm.trans hinvite)
  · obtain ⟨permitted, hpermitted, hiff⟩ := agree "workspace.delete" (by decide)
    intro hshown
    rw [(returns_permits.mp hpermitted).1, hiff.mp hshown] at hdelete
    cases hdelete

end MvpApi
