import MvpApi.Safety.References
import MvpApi.Safety.Standing

/-!
# What is listed

The lists of the API join tables that no constraint holds together. Here they are shown to be
complete in every session that transactions reach one at a time: they never fail for whom the
access check lets in, and hold whatever they are about exactly once.
-/

set_option autoImplicit false

namespace MvpApi

open Exec Tx

variable {env : Env} {s s' : Session}

/-! ### Workspaces of an account -/

/-- The views of workspaces that an account belongs to can all be read. -/
theorem returns_workspaceViews {userId : String} {workspaces : List Workspace}
    (belongs : ∀ workspace ∈ workspaces, (s.db.member workspace.id userId).isSome) :
  ∃ views, Returns (WorkspaceTx.workspaceViews userId workspaces) env s views s
    ∧ views.map WorkspaceView.workspace = workspaces
  := by
  induction workspaces with
  | nil => exact ⟨[], returns_pure.mpr ⟨rfl, rfl⟩, rfl⟩
  | cons workspace workspaces ih =>
      obtain ⟨views, hviews, hmap⟩ := ih fun ws hws => belongs ws (List.mem_cons_of_mem _ hws)
      obtain ⟨member, hmember⟩ := Option.isSome_iff_exists.mp (belongs workspace List.mem_cons_self)
      obtain ⟨view, hview, hsame⟩ : ∃ view, Returns (workspaceView workspace userId) env s view s
          ∧ view.workspace = workspace :=
        ⟨_, returns_workspaceView.mpr ⟨member, hmember, rfl, rfl⟩, rfl⟩
      refine ⟨view :: views, ?_, ?_⟩
      · exact returns_bind.mpr ⟨view, s, hview,
          returns_bind.mpr ⟨views, s, hviews, returns_pure.mpr ⟨rfl, rfl⟩⟩⟩
      · rw [List.map_cons, hmap, hsame]

/-- A row is listed exactly once among the rows, in whatever order. -/
theorem nodup_of_perm_rows {κ ρ : Type} [LinearOrder κ] {key : ρ → κ} {t : Table key}
    {p : ρ → Bool} {listed : List ρ} (perm : listed.Perm (t.rows.filter p)) :
  (listed.map key).Nodup
  := by
  refine (perm.map key).nodup_iff.mpr ?_
  refine List.Nodup.map_on ?_ (t.nodup_rows.filter p)
  intro r h r' h' hkey
  rw [List.mem_filter, Table.mem_rows] at h h'
  exact Table.eq_of_key h.1 h'.1 hkey

/-- Whom the access check lets into the workspace at a slug. -/
theorem returns_accessWorkspace {userId slug : String} {workspace : Workspace} :
  Returns (AccessService.workspace userId slug none) env s workspace s'
    ↔ (∃ user, s.db.users.get userId = some user ∧ user.onboardingStatus ∈ onboarded)
      ∧ s.db.workspaces.find? (fun ws => ws.slug = slug && !ws.isDeleted) = some workspace
      ∧ (s.db.member workspace.id userId).isSome ∧ s = s'
  := by
  unfold AccessService.workspace Users.get Workspaces.bySlug Members.get
  simp only [returns_bind, returns_select, returns_check, returns_refuseUnless, existing_eq_ok,
    User.ensureOnboarded_eq_ok, found_eq_ok, returns_pure]
  constructor
  · rintro ⟨_, _, ⟨rfl, rfl⟩, user, _, ⟨account, rfl⟩, _, _, ⟨complete, rfl⟩, _, _, ⟨rfl, rfl⟩,
      found, _, ⟨hfind, rfl⟩, _, _, ⟨rfl, rfl⟩, _, _, ⟨belongs, rfl⟩, _, _, ⟨rfl, rfl⟩, _, _,
      ⟨_, rfl⟩, rfl, rfl⟩
    exact ⟨⟨user, account, complete⟩, hfind, belongs, rfl⟩
  · rintro ⟨⟨user, account, complete⟩, hfind, belongs, rfl⟩
    exact ⟨_, _, ⟨rfl, rfl⟩, user, _, ⟨account, rfl⟩, (), _, ⟨complete, rfl⟩, _, _, ⟨rfl, rfl⟩,
      workspace, _, ⟨hfind, rfl⟩, _, _, ⟨rfl, rfl⟩, (), _, ⟨belongs, rfl⟩, _, _, ⟨rfl, rfl⟩, (), _,
      ⟨rfl, rfl⟩, rfl, rfl⟩

/-- The workspaces that are listed for an account are those that it is let into at their slugs,
each of them once. -/
theorem listMine_complete (unique : s.db.Unique) {userId : String}
    (allowed : s.db.Allows userId "workspaces.list" userId) :
  ∃ views, Returns (WorkspaceTx.listMine userId) env s views s
    ∧ (views.map (·.workspace.slug)).Nodup
    ∧ ∀ slug, slug ∈ views.map (·.workspace.slug)
        ↔ ∃ workspace s', Returns (AccessService.workspace userId slug none) env s workspace s'
  := by
  let mine := orderByTexts env (fun ws : Workspace => [ws.name])
    (s.db.workspaces.rows.filter fun ws =>
      (s.db.members.get (pair ws.id userId)).isSome && !ws.isDeleted)
  have mem_mine {ws : Workspace} : ws ∈ mine ↔ ws ∈ s.db.workspaces
      ∧ (s.db.member ws.id userId).isSome ∧ ws.isDeleted = false := by
    rw [perm_orderByTexts.mem_iff, List.mem_filter, Table.mem_rows, Bool.and_eq_true,
      Bool.not_eq_true']
    rfl
  have belongs : ∀ ws ∈ mine, (s.db.member ws.id userId).isSome :=
    fun ws hws => (mem_mine.mp hws).2.1
  obtain ⟨views, hviews, hmap⟩ := returns_workspaceViews belongs
  have slugs : views.map (·.workspace.slug) = mine.map Workspace.slug := by
    rw [← hmap, List.map_map]
    rfl
  refine ⟨views, ?_, ?_, fun slug => ?_⟩
  · exact returns_bind.mpr ⟨(), s, returns_require.mpr ⟨allowed, rfl⟩,
      returns_bind.mpr ⟨mine, s, returns_bind.mpr ⟨env, s, returns_platform.mpr ⟨rfl, rfl⟩,
        returns_select.mpr ⟨rfl, rfl⟩⟩, hviews⟩⟩
  · rw [slugs]
    refine List.Nodup.map_on ?_ (nodup_of_perm_rows perm_orderByTexts).of_map
    intro ws hws ws' hws' hslug
    have hmem := (mem_mine.mp hws).1
    have hmem' := (mem_mine.mp hws').1
    exact Table.eq_of_key hmem hmem' (unique.slug ws hmem ws' hmem' hslug)
  · obtain ⟨⟨user, account, complete⟩, _⟩ := allowed
    rw [slugs, List.mem_map]
    constructor
    · rintro ⟨ws, hws, rfl⟩
      obtain ⟨hmem, belongs, live⟩ := mem_mine.mp hws
      refine ⟨ws, s, returns_accessWorkspace.mpr ⟨⟨user, account, complete⟩, ?_, belongs, rfl⟩⟩
      refine Table.find?_eq_some_of_unique hmem (by simp [live]) fun ws' hmem' hws' => ?_
      simp only [Bool.and_eq_true, decide_eq_true_eq] at hws'
      exact Table.eq_of_key hmem' hmem (unique.slug ws' hmem' ws hmem hws'.1)
    · rintro ⟨ws, s', entered⟩
      obtain ⟨_, hfind, belongs, _⟩ := returns_accessWorkspace.mp entered
      obtain ⟨hmem, hslug⟩ := Table.mem_of_find?_eq_some hfind
      simp only [Bool.and_eq_true, decide_eq_true_eq, Bool.not_eq_true'] at hslug
      exact ⟨ws, mem_mine.mpr ⟨hmem, belongs, hslug.2⟩, hslug.1⟩

/-! ### Members and roles of a workspace -/

/-- Each member of the workspace is listed once, with the account and with the name of a role of
the workspace. -/
structure ListsMembers (db : Db) (workspaceId : String) (views : List MemberView) : Prop where
  nodup : (views.map (·.user.id)).Nodup
  complete : ∀ id, id ∈ views.map (·.user.id) ↔ (db.member workspaceId id).isSome
  joined : ∀ view ∈ views, db.member workspaceId view.user.id = some view.member
    ∧ db.users.get view.member.userId = some view.user
    ∧ ∃ role, db.roles.get view.member.roleId = some role ∧ role.workspaceId = workspaceId
      ∧ role.name = view.roleName

/-- Each role of the workspace is listed once, with what it permits and how many members have it. -/
structure ListsRoles (db : Db) (workspaceId : String) (views : List RoleView) : Prop where
  nodup : (views.map (·.role.id)).Nodup
  complete : ∀ role, role ∈ views.map (·.role) ↔ role ∈ db.roles ∧ role.workspaceId = workspaceId
  permissions : ∀ view ∈ views, ∀ permission, permission ∈ view.permissions
    ↔ ⟨view.role.id, permission⟩ ∈ db.rolePermissions

/-- A member row with its account and its role, where there are both. -/
def Db.joined (db : Db) (member : Member) : Option (Member × User × Role) :=
  match db.users.get member.userId, db.roles.get member.roleId with
  | some user, some role => some (member, user, role)
  | _, _ => none

theorem Db.joined_eq_some {db : Db} {member member' : Member} {user : User} {role : Role} :
  db.joined member = some (member', user, role)
    ↔ member' = member ∧ db.users.get member.userId = some user
      ∧ db.roles.get member.roleId = some role
  := by
  unfold Db.joined
  split
  · next huser hrole => simp [huser, hrole, eq_comm]
  · next none =>
      refine iff_of_false nofun fun h => ?_
      exact none _ _ h.2.1 h.2.2

/-- No member is lost in the join. -/
theorem Db.References.joined {db : Db} (references : db.References) {member : Member}
    (hmem : member ∈ db.members) :
  ∃ user role, db.joined member = some (member, user, role)
    ∧ role.workspaceId = member.workspaceId
  := by
  have refs := references.member member hmem
  obtain ⟨user, huser⟩ := Option.isSome_iff_exists.mp refs.user
  obtain ⟨role, hrole, hid, hown⟩ := refs.role
  exact ⟨user, role, Db.joined_eq_some.mpr ⟨rfl, huser, Table.get_eq_some_iff.mpr ⟨hrole, hid⟩⟩,
    hown⟩

/-- The rows of a join of which none is lost. -/
theorem map_fst_filterMap {α β : Type} {f : α → Option (α × β)} {l : List α}
    (h : ∀ a ∈ l, ∃ b, f a = some (a, b)) :
  (l.filterMap f).map Prod.fst = l
  := by
  induction l with
  | nil => rfl
  | cons a l ih =>
      obtain ⟨b, hb⟩ := h a List.mem_cons_self
      rw [List.filterMap_cons_some hb, List.map_cons,
        ih fun a' ha' => h a' (List.mem_cons_of_mem a ha')]

theorem returns_members {workspaceId userId : String} (references : s.db.References)
    (allowed : s.db.Allows userId "workspace.read" workspaceId) :
  ∃ views, Returns (WorkspaceTx.members workspaceId userId) env s views s
    ∧ ListsMembers s.db workspaceId views
    ∧ views.length = (s.db.members.rows.filter (·.workspaceId = workspaceId)).length
  := by
  let rows := s.db.members.rows.filter (·.workspaceId = workspaceId)
  let listed := orderByTexts env (fun (joined : Member × User × Role) =>
    [joined.2.1.displayName, joined.2.1.email]) (rows.filterMap s.db.joined)
  have mem_rows {member : Member} : member ∈ rows
      ↔ member ∈ s.db.members ∧ member.workspaceId = workspaceId := by
    rw [List.mem_filter, Table.mem_rows, decide_eq_true_eq]
  have mem_listed {joined : Member × User × Role} : joined ∈ listed
      ↔ joined.1 ∈ rows ∧ s.db.joined joined.1 = some joined := by
    rw [perm_orderByTexts.mem_iff, List.mem_filterMap]
    constructor
    · rintro ⟨member, hmember, hjoined⟩
      obtain ⟨rfl, _⟩ := Db.joined_eq_some.mp hjoined
      exact ⟨hmember, hjoined⟩
    · exact fun h => ⟨joined.1, h.1, h.2⟩
  have perm : (listed.map Prod.fst).Perm rows := by
    have rest : (rows.filterMap s.db.joined).map Prod.fst = rows :=
      map_fst_filterMap fun member hmember => by
        obtain ⟨user, role, hjoined, _⟩ := references.joined (mem_rows.mp hmember).1
        exact ⟨(user, role), hjoined⟩
    exact (perm_orderByTexts.map _).trans (.of_eq rest)
  have account {joined : Member × User × Role} (h : joined ∈ listed) :
      joined.2.1.id = joined.1.userId :=
    (Table.get_eq_some_iff.mp (Db.joined_eq_some.mp (mem_listed.mp h).2).2.1).2
  have ids : (listed.map fun joined => joined.2.1.id)
      = (listed.map Prod.fst).map Member.userId := by
    rw [List.map_map]
    exact List.map_congr_left fun joined h => account h
  let views : List MemberView := listed.map fun joined => ⟨joined.1, joined.2.1, joined.2.2.name⟩
  have viewed : views.map (·.user.id) = (listed.map Prod.fst).map Member.userId := by
    rw [← ids, List.map_map]
    rfl
  refine ⟨views, ?_, ⟨?_, fun id => ?_, ?_⟩, ?_⟩
  · exact returns_bind.mpr ⟨(), s, returns_require.mpr ⟨allowed, rfl⟩,
      returns_bind.mpr ⟨listed, s, returns_bind.mpr ⟨env, s, returns_platform.mpr ⟨rfl, rfl⟩,
        returns_select.mpr ⟨rfl, rfl⟩⟩, returns_pure.mpr ⟨rfl, rfl⟩⟩⟩
  · rw [viewed, (perm.map _).nodup_iff]
    exact s.db.nodup_userIds _
  · rw [viewed, (perm.map _).mem_iff]
    exact Db.mem_userIds
  · intro view hview
    obtain ⟨joined, hlisted, rfl⟩ := List.mem_map.mp hview
    obtain ⟨hrow, hjoined⟩ := mem_listed.mp hlisted
    obtain ⟨hmem, hown⟩ := mem_rows.mp hrow
    obtain ⟨_, huser, hrole⟩ := Db.joined_eq_some.mp hjoined
    obtain ⟨_, role, hjoined', hsame⟩ := references.joined hmem
    obtain ⟨_, _, hrole'⟩ := Db.joined_eq_some.mp hjoined'
    obtain rfl : joined.2.2 = role := Option.some.inj (hrole.symm.trans hrole')
    refine ⟨?_, huser, joined.2.2, hrole, hsame.trans hown, rfl⟩
    exact Table.get_eq_some_iff.mpr ⟨hmem, by rw [Member.key, hown, account hlisted]⟩
  · rw [List.length_map, ← List.length_map (f := Prod.fst), perm.length_eq]

/-- The views of roles can all be read. -/
theorem returns_roleViews (roles : List Role) :
  Returns (WorkspaceTx.roleViews roles) env s (roles.map fun role => ⟨role,
    s.db.permissions role.id, (s.db.members.rows.filter (·.roleId = role.id)).length⟩) s
  := by
  induction roles with
  | nil => exact returns_pure.mpr ⟨rfl, rfl⟩
  | cons role roles ih =>
      exact returns_bind.mpr ⟨_, s, WorkspaceTx.returns_roleView.mpr ⟨rfl, rfl⟩,
        returns_bind.mpr ⟨_, s, ih, returns_pure.mpr ⟨rfl, rfl⟩⟩⟩

theorem sum_indicator {β : Type} [DecidableEq β] (groups : List β) (b : β) :
  (groups.map fun b' => if b = b' then 1 else 0).sum = groups.count b
  := by
  induction groups with
  | nil => rfl
  | cons b' groups ih =>
      rw [List.map_cons, List.sum_cons, ih, List.count_cons]
      by_cases h : b = b'
      · simp [h, add_comm]
      · simp [h, Ne.symm h]

/-- Rows that each belong to one of the groups of a list are as many as there are in the groups. -/
theorem sum_length_filter {α β : Type} [DecidableEq β] {groups : List β} (nodup : groups.Nodup)
    {f : α → β} {l : List α} (h : ∀ a ∈ l, f a ∈ groups) :
  (groups.map fun b => (l.filter (f · = b)).length).sum = l.length
  := by
  induction l with
  | nil => simp
  | cons a l ih =>
      have own : (groups.map fun b => if f a = b then 1 else 0).sum = 1 := by
        rw [sum_indicator, List.count_eq_one_of_mem nodup (h a List.mem_cons_self)]
      have rest := ih fun a' ha' => h a' (List.mem_cons_of_mem a ha')
      have split : ∀ b, ((a :: l).filter (f · = b)).length
          = (if f a = b then 1 else 0) + (l.filter (f · = b)).length := by
        intro b
        by_cases hb : f a = b
        · simp [hb, add_comm]
        · simp [hb]
      simp only [split, List.sum_map_add, own, rest, List.length_cons]
      exact add_comm _ _

theorem returns_roles {workspaceId userId : String} (references : s.db.References)
    (allowed : s.db.Allows userId "workspace.read" workspaceId) :
  ∃ views, Returns (WorkspaceTx.roles workspaceId userId) env s views s
    ∧ ListsRoles s.db workspaceId views
    ∧ (views.map RoleView.memberCount).sum
      = (s.db.members.rows.filter (·.workspaceId = workspaceId)).length
  := by
  let listed := orderBy (fun (role : Role) => if role.name = ownerRole then 0 else 1)
    (orderByTexts env (fun role => [role.name])
      (s.db.roles.rows.filter (·.workspaceId = workspaceId)))
  have perm : listed.Perm (s.db.roles.rows.filter (·.workspaceId = workspaceId)) :=
    (List.perm_insertionSort _ _).trans perm_orderByTexts
  have mem_listed {role : Role} : role ∈ listed
      ↔ role ∈ s.db.roles ∧ role.workspaceId = workspaceId := by
    rw [perm.mem_iff, List.mem_filter, Table.mem_rows, decide_eq_true_eq]
  let view := fun role : Role => (⟨role, s.db.permissions role.id,
    (s.db.members.rows.filter (·.roleId = role.id)).length⟩ : RoleView)
  refine ⟨listed.map view, ?_, ⟨?_, fun role => ?_, ?_⟩, ?_⟩
  · exact returns_bind.mpr ⟨(), s, returns_require.mpr ⟨allowed, rfl⟩,
      returns_bind.mpr ⟨listed, s, returns_bind.mpr ⟨env, s, returns_platform.mpr ⟨rfl, rfl⟩,
        returns_select.mpr ⟨rfl, rfl⟩⟩, returns_roleViews listed⟩⟩
  · rw [List.map_map]
    exact nodup_of_perm_rows perm
  · have same : (listed.map view).map (·.role) = listed := by
      rw [List.map_map]
      exact List.map_id _
    rw [same]
    exact mem_listed
  · intro role hview permission
    obtain ⟨role, _, rfl⟩ := List.mem_map.mp hview
    exact Db.mem_permissions
  · have counted : (listed.map view).map RoleView.memberCount
        = (listed.map Role.id).map fun roleId => ((s.db.members.rows.filter
            (·.workspaceId = workspaceId)).filter (·.roleId = roleId)).length := by
      rw [List.map_map, List.map_map]
      refine List.map_congr_left fun role hrole => ?_
      obtain ⟨hmem, hown⟩ := mem_listed.mp hrole
      rw [Function.comp_apply, Function.comp_apply, List.filter_filter]
      refine congrArg List.length (List.filter_congr fun member hmember => ?_)
      rw [Bool.eq_iff_iff, Bool.and_eq_true, decide_eq_true_eq, decide_eq_true_eq]
      refine ⟨fun hid => ⟨hid, ?_⟩, And.left⟩
      obtain ⟨role', hrole', hid', hown'⟩ :=
        (references.member member (Table.mem_rows.mp hmember)).role
      obtain rfl : role = role' := Table.eq_of_key hmem hrole' (hid.symm.trans hid'.symm)
      exact hown'.symm.trans hown
    rw [counted]
    refine sum_length_filter (nodup_of_perm_rows perm) fun member hmember => ?_
    rw [List.mem_filter, Table.mem_rows, decide_eq_true_eq] at hmember
    obtain ⟨hmem, rfl⟩ := hmember
    obtain ⟨role, hrole, hid, hown⟩ := (references.member member hmem).role
    exact List.mem_map.mpr ⟨role, mem_listed.mpr ⟨hrole, hown⟩, hid⟩

/-- Whoever may read a workspace is shown all its members and all its roles, and the roles are shown
to have as many members as there are. -/
theorem people_complete {ok : Work → Prop} (reachable : Reachable env ok s)
    {workspaceId userId : String} (allowed : s.db.Allows userId "workspace.read" workspaceId) :
  ∃ members roles, Returns (WorkspaceTx.members workspaceId userId) env s members s
    ∧ Returns (WorkspaceTx.roles workspaceId userId) env s roles s
    ∧ ListsMembers s.db workspaceId members ∧ ListsRoles s.db workspaceId roles
    ∧ (roles.map RoleView.memberCount).sum = members.length
  := by
  obtain ⟨members, hmembers, listsMembers, hlength⟩ := returns_members reachable.references allowed
  obtain ⟨roles, hroles, listsRoles, hsum⟩ := returns_roles reachable.references allowed
  exact ⟨members, roles, hmembers, hroles, listsMembers, listsRoles, hsum.trans hlength.symm⟩

/-! ### The workspace of Ada -/

/-- Ada has signed up and created a workspace. -/
def Session.withAcme : Session :=
  .after .sample [.register "ada" "ada@acme.test" "Ada" none, .create "Acme" "acme" "ada"]

/-- Ada sees herself in her workspace. -/
theorem people_complete_of_acme :
  ∃ members roles, Returns (WorkspaceTx.members "i" "ada") .sample .withAcme members .withAcme
    ∧ Returns (WorkspaceTx.roles "i" "ada") .sample .withAcme roles .withAcme
    ∧ ListsMembers Session.withAcme.db "i" members ∧ ListsRoles Session.withAcme.db "i" roles
    ∧ (roles.map RoleView.memberCount).sum = members.length
  := by
  have allowed : Returns (require "ada" "workspace.read" "i") .sample .withAcme ()
      ((require "ada" "workspace.read" "i").run .sample .withAcme).2 :=
    .of_run (by decide +kernel)
  have reachable : Reachable .sample (fun _ => True) .withAcme := .after (by simp)
  exact people_complete reachable (returns_require.mp allowed).1

/-- Ada sees her workspace in the list of her workspaces. -/
theorem listMine_complete_of_acme :
  ∃ views, Returns (WorkspaceTx.listMine "ada") .sample .withAcme views .withAcme
    ∧ (views.map (·.workspace.slug)).Nodup
    ∧ ∀ slug, slug ∈ views.map (·.workspace.slug)
        ↔ ∃ workspace s', Returns (AccessService.workspace "ada" slug none) .sample .withAcme
            workspace s'
  := by
  have allowed : Returns (require "ada" "workspaces.list" "ada") .sample .withAcme ()
      ((require "ada" "workspaces.list" "ada").run .sample .withAcme).2 :=
    .of_run (by decide +kernel)
  have reachable : Reachable .sample (fun _ => True) .withAcme := .after (by simp)
  exact listMine_complete reachable.unique (returns_require.mp allowed).1

end MvpApi
