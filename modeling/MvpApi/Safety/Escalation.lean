import MvpApi.Safety.Isolation
import MvpApi.Runs.Accounts

/-!
# No escalation of privileges

Some accounts, of which none owns a workspace or may manage its roles, act together, and
register more accounts, which act with them. Whatever they do, the roles of the workspace and
their permissions stay the same, and so does its owner. Nobody's role is changed, except by
leaving and joining again; and whoever joins does so with a role that was offered to one of
them before, or with the role that invitations hand out by default.

`Within` says what a transaction of theirs may do to the workspace, and `Powerless` is what
every state they lead to has in common.
-/

set_option autoImplicit false

namespace MvpApi

open Exec

/-- Accounts that act together: their ids, also of the accounts they will register, and their
emails. -/
structure Coalition where
  ids : Set String
  emails : Set String

/-- The transaction is one that accounts of the coalition can bring about. Those on products
carry no account: the routes have checked access before. A purge runs when an account is
deleted. -/
def Work.By (env : Env) (c : Coalition) : Work → Prop
  | .create _ _ userId => userId ∈ c.ids
  | .update _ _ _ userId => userId ∈ c.ids
  | .replaceLogo _ _ _ userId => userId ∈ c.ids
  | .delete _ userId => userId ∈ c.ids
  | .saveRole _ _ _ userId => userId ∈ c.ids
  | .deleteRole _ _ userId => userId ∈ c.ids
  | .setPermissions _ _ _ userId => userId ∈ c.ids
  | .setMemberRole _ _ _ userId => userId ∈ c.ids
  | .removeMember _ _ userId => userId ∈ c.ids
  | .transfer _ _ userId => userId ∈ c.ids
  | .issue _ _ _ userId => userId ∈ c.ids
  | .revoke _ _ userId => userId ∈ c.ids
  | .accept _ userId => userId ∈ c.ids
  | .register sub email _ _ => sub ∈ c.ids ∧ env.lower email ∈ c.emails
  | .ensureAccount sub email => sub ∈ c.ids ∧ env.lower email ∈ c.emails
  | .rename userId _ => userId ∈ c.ids
  | .replaceAvatar userId _ _ => userId ∈ c.ids
  | .deleteAccount userId => userId ∈ c.ids
  | _ => True

/-! ### What may happen -/

/-- From `db` to `db'` the roles of the workspace `w`, their permissions and the owner stay the
same. Nobody's role changes, and accounts of the coalition join with an offered role; and the
coalition is offered no other role. -/
structure Within (w : String) (c : Coalition) (offer : Set String) (db db' : Db) : Prop where
  roles : Table.Same (·.workspaceId = w) db.roles db'.roles
  permissions : ∀ role ∈ db.roles, role.workspaceId = w →
    Table.Same (·.roleId = role.id) db.rolePermissions db'.rolePermissions
  workspace : ∀ workspace, db.live w = some workspace →
    ∃ workspace', db'.live w = some workspace' ∧ workspace'.ownerId = workspace.ownerId
  members : ∀ member ∈ db'.members, member.workspaceId = w →
    (∃ old ∈ db.members, old.key = member.key ∧ old.roleId = member.roleId)
    ∨ (db.members.get member.key = none ∧ member.userId ∈ c.ids ∧ member.roleId ∈ offer)
  invitations : ∀ invitation ∈ db'.invitations, invitation.workspaceId = w →
    invitation.status = .pending → invitation.email ∈ c.emails →
      (∃ old ∈ db.invitations, old.workspaceId = w ∧ old.status = .pending
        ∧ old.email = invitation.email ∧ old.roleId = invitation.roleId)
      ∨ invitation.roleId ∈ offer

section Within

variable {w : String} {c : Coalition} {offer : Set String} {db db' : Db}

theorem Within.refl (w : String) (c : Coalition) (offer : Set String) (db : Db) :
  Within w c offer db db
  where
  roles := .refl _ _
  permissions _ _ _ := .refl _ _
  workspace workspace hw := ⟨workspace, hw, rfl⟩
  members member hm _ := Or.inl ⟨member, hm, rfl, rfl⟩
  invitations invitation hi hw hp _ := Or.inl ⟨invitation, hi, hw, hp, rfl, rfl⟩

/-- What happens to another workspace is no matter. -/
theorem Agree.within {v : String} (h : Agree v db db') (hv : v ≠ w) :
  Within w c offer db db'
  := by
  have other : ∀ {id : String}, id = w → id ≠ v := fun hid hid' => hv (hid'.symm.trans hid)
  constructor
  · exact fun role hr => h.roles role (other hr)
  · exact fun role hr hw => h.permissions role hr (other hw)
  · intro workspace hlive
    obtain ⟨hmem, hid, hdeleted⟩ := Db.live_eq_some.mp hlive
    have hmem' := (h.workspaces workspace (other hid)).mpr hmem
    exact ⟨workspace, Db.live_eq_some.mpr ⟨hmem', hid, hdeleted⟩, rfl⟩
  · intro member hm hw
    exact Or.inl ⟨member, (h.members member (other hw)).mp hm, rfl, rfl⟩
  · intro invitation hi hw hp _
    exact Or.inl ⟨invitation, (h.invitations invitation (other hw)).mp hi, hw, hp, rfl, rfl⟩

/-- The members and the invitations become fewer, and the accounts change. -/
theorem Within.of_subset (workspaces : db'.workspaces = db.workspaces)
    (roles : db'.roles = db.roles) (permissions : db'.rolePermissions = db.rolePermissions)
    (members : ∀ member ∈ db'.members, member ∈ db.members)
    (invitations : ∀ invitation ∈ db'.invitations, invitation ∈ db.invitations) :
  Within w c offer db db'
  where
  roles := roles ▸ .refl _ _
  permissions _ _ _ := permissions ▸ .refl _ _
  workspace workspace hlive := by
    refine ⟨workspace, ?_, rfl⟩
    rw [Db.live, workspaces]
    exact hlive
  members member hm _ := Or.inl ⟨member, members member hm, rfl, rfl⟩
  invitations invitation hi hw hp _ :=
    Or.inl ⟨invitation, invitations invitation hi, hw, hp, rfl, rfl⟩

/-- Only accounts, products and images change. -/
theorem Within.of_same (workspaces : db'.workspaces = db.workspaces)
    (roles : db'.roles = db.roles) (permissions : db'.rolePermissions = db.rolePermissions)
    (members : db'.members = db.members) (invitations : db'.invitations = db.invitations) :
  Within w c offer db db'
  := .of_subset workspaces roles permissions (fun _ hm => members ▸ hm)
    fun _ hi => invitations ▸ hi

/-- The row of the workspace is written with the owner it had. -/
theorem Within.put_workspace {workspace : Workspace} (workspace' : Workspace)
    (live : db.live w = some workspace) (id : workspace'.id = workspace.id)
    (deletedAt : workspace'.deletedAt = workspace.deletedAt)
    (ownerId : workspace'.ownerId = workspace.ownerId)
    (rest : db' = { db with workspaces := db.workspaces.put workspace' }) :
  Within w c offer db db'
  := by
  subst rest
  refine { Within.refl w c offer db with workspace := fun workspace'' hlive => ?_ }
  obtain rfl : workspace = workspace'' := Option.some.inj (live.symm.trans hlive)
  obtain ⟨_, hid, hdeleted⟩ := Db.live_eq_some.mp live
  exact ⟨workspace', Db.live_eq_some.mpr ⟨Table.mem_put.mpr (Or.inl rfl), id.trans hid,
    deletedAt.trans hdeleted⟩, ownerId⟩

end Within

/-! ### What stays so -/

/-- No account of the coalition owns the workspace `w`, or may manage its roles; and it has been
offered no role that would let it. -/
structure Powerless (w : String) (c : Coalition) (offer : Set String) (db : Db) : Prop where
  owner : ∃ workspace, db.live w = some workspace ∧ workspace.ownerId ∉ c.ids
  accounts : ∀ user ∈ db.users, user.id ∈ c.ids → user.email ∈ c.emails
  held : ∀ member ∈ db.members, member.workspaceId = w → member.userId ∈ c.ids →
    "roles.manage" ∉ db.permissions member.roleId
  offered : ∀ invitation ∈ db.invitations, invitation.workspaceId = w →
    invitation.status = .pending → invitation.email ∈ c.emails → invitation.roleId ∈ offer
  byDefault : ∀ role ∈ db.roles, role.workspaceId = w → role.IsDefaultMember → role.id ∈ offer
  harmless : ∀ roleId ∈ offer, "roles.manage" ∉ db.permissions roleId
  own : ∀ roleId ∈ offer, ∃ role ∈ db.roles, role.id = roleId ∧ role.workspaceId = w

section Powerless

variable {w : String} {c : Coalition} {offer : Set String} {db db' : Db}

/-- The permissions of the roles of the workspace are the same. -/
theorem Within.permissions_eq (h : Within w c offer db db') {role : Role} (hr : role ∈ db.roles)
    (own : role.workspaceId = w) {permission : String} :
  permission ∈ db'.permissions role.id ↔ permission ∈ db.permissions role.id
  := by
  rw [Db.mem_permissions, Db.mem_permissions]
  exact h.permissions role hr own _ rfl

/-- The coalition stays powerless. -/
theorem Powerless.within (h : Powerless w c offer db) (refs : db.References)
    (step : Within w c offer db db')
    (accounts : ∀ user ∈ db'.users, user.id ∈ c.ids → user.email ∈ c.emails) :
  Powerless w c offer db'
  := by
  have harmless : ∀ roleId ∈ offer, "roles.manage" ∉ db'.permissions roleId := by
    intro roleId ho
    obtain ⟨role, hr, rfl, hw⟩ := h.own roleId ho
    rw [step.permissions_eq hr hw]
    exact h.harmless role.id ho
  constructor
  · obtain ⟨workspace, hlive, howner⟩ := h.owner
    obtain ⟨workspace', hlive', hsame⟩ := step.workspace workspace hlive
    exact ⟨workspace', hlive', hsame ▸ howner⟩
  · exact accounts
  · intro member hm hw hc
    rcases step.members member hm hw with ⟨old, hold, hkey, hrole⟩ | ⟨_, _, hoffer⟩
    · obtain ⟨hw', hu⟩ := pair_inj.mp hkey
      obtain ⟨role, hr, hid, hrw⟩ := (refs.member old hold).role
      have hown : role.workspaceId = w := hrw.trans (hw'.trans hw)
      rw [← hrole, ← hid, step.permissions_eq hr hown, hid]
      exact h.held old hold (hw'.trans hw) (hu ▸ hc)
    · exact harmless _ hoffer
  · intro invitation hi hw hp he
    rcases step.invitations invitation hi hw hp he with ⟨old, hold, how, hop, hoe, hor⟩ | hoffer
    · rw [← hor]
      exact h.offered old hold how hop (hoe ▸ he)
    · exact hoffer
  · intro role hr hw hd
    exact h.byDefault role ((step.roles role hw).mp hr) hw hd
  · exact harmless
  · intro roleId ho
    obtain ⟨role, hr, hid, hw⟩ := h.own roleId ho
    exact ⟨role, (step.roles role hw).mpr hr, hid, hw⟩

/-- The coalition may not manage the roles. -/
theorem Powerless.no_manage (h : Powerless w c offer db) {userId : String}
    (hu : userId ∈ c.ids) :
  ¬ db.permits userId "roles.manage" w = true
  := by
  intro permitted
  obtain ⟨workspace, member, hlive, hm, hgrants⟩ :=
    (Db.permits_eq_true (by decide +kernel)).mp permitted
  obtain ⟨workspace', hlive', howner⟩ := h.owner
  obtain rfl : workspace = workspace' := Option.some.inj (hlive.symm.trans hlive')
  have hne : userId ≠ workspace.ownerId := fun heq => howner (heq ▸ hu)
  rw [Workspace.grants, if_neg hne, if_neg (by decide +kernel), if_neg (by decide +kernel),
    Option.getD_none, decide_eq_true_eq] at hgrants
  obtain ⟨hmem, hkey⟩ := Table.get_eq_some_iff.mp hm
  obtain ⟨hw, huser⟩ := pair_inj.mp hkey
  exact h.held member hmem hw (huser ▸ hu) hgrants

/-- The coalition may not do what is reserved for the owner. -/
theorem Powerless.no_owner_action (h : Powerless w c offer db) {userId action : String}
    (hu : userId ∈ c.ids) (own : isOnOwnAccount action = false)
    (reserved : action ∈ ownerActions) :
  ¬ db.Allows userId action w
  := by
  intro allows
  obtain ⟨workspace, hlive, howner⟩ := h.owner
  exact howner (allows.owner own reserved hlive ▸ hu)

end Powerless

/-! ### One transaction of the coalition -/

section Step

variable {env : Env} {s s' : Session} {work : Work} {w : String} {c : Coalition}
  {offer : Set String}

/-- A transaction that the coalition brings about opens accounts of the coalition only. -/
theorem Work.By.accounts (by' : work.By env c) (h : Effect env s s' work)
    (accounts : ∀ user ∈ s.db.users, user.id ∈ c.ids → user.email ∈ c.emails) :
  ∀ user ∈ s'.db.users, user.id ∈ c.ids → user.email ∈ c.emails
  := by
  intro user hu hc
  rcases h.accounts user hu with ⟨old, hold, hid, hemail⟩ | ⟨_, email, opens, hemail⟩
  · rw [← hemail]
    exact accounts old hold (hid ▸ hc)
  · rw [hemail]
    generalize user.id = sub at opens
    cases opens with
    | register => exact by'.2
    | ensureAccount => exact by'.2

/-- An account of the coalition joins the workspace with a role it was offered. -/
theorem Joins.within {token userId : String}
    (h : Joins env token userId s s') (hc : userId ∈ c.ids)
    (lower : ∀ user ∈ s.db.users, env.lower user.email = user.email)
    (powerless : Powerless w c offer s.db) :
  Within w c offer s.db s'.db
  := by
  obtain ⟨user, invitation, _, _, _, joinedAt, _, account, stored, _, _, _, usable, addressed, _, _,
    _, _, outside, _, db⟩ := h
  obtain ⟨hu, huid⟩ := Table.get_eq_some_iff.mp account
  have hemail : invitation.email ∈ c.emails := by
    rw [← addressed, lower user hu]
    exact powerless.accounts user hu (huid ▸ hc)
  rw [db]
  refine { Within.refl w c offer s.db with
    members := fun member hm hw => ?_
    invitations := fun other hi hw hp _ => ?_ }
  · rcases Table.mem_put.mp hm with rfl | ⟨hm, _⟩
    · exact Or.inr ⟨outside, hc, powerless.offered invitation stored hw usable.1 hemail⟩
    · exact Or.inl ⟨member, hm, rfl, rfl⟩
  · rcases Table.mem_put.mp hi with rfl | ⟨hi, _⟩
    · cases hp
    · exact Or.inl ⟨other, hi, hw, hp, rfl, rfl⟩

/-- What a transaction of the coalition does to the workspace. -/
theorem Effect.within (lawful : env.Lawful) (h : Effect env s s' work) (by' : work.By env c)
    (refs : s.db.References) (catalogued : s.db.Catalogued)
    (lower : ∀ user ∈ s.db.users, env.lower user.email = user.email)
    (powerless : Powerless w c offer s.db) :
  Within w c offer s.db s'.db
  := by
  -- A transaction on another workspace does not matter, so let it be on `w` if it is on one.
  by_cases elsewhere : ∃ v, work.scope = some v ∧ v ≠ w
  · obtain ⟨v, hscope, hv⟩ := elsewhere
    exact (h.isolated hscope refs catalogued).rows.within hv
  have here : ∀ {v}, work.scope = some v → v = w := fun hscope => by
    by_contra hv
    exact elsewhere ⟨_, hscope, hv⟩
  have denied : ∀ {userId : String}, userId ∈ c.ids → ¬ s.db.Allows userId "roles.manage" w :=
    fun hc allows => powerless.no_manage hc allows.2
  cases h with
  | create _ workspace new _ _ _ _ _ _ _ _ fresh added roles kept granted _ _ _ _ db _ =>
      obtain ⟨held, hlive, _⟩ := powerless.owner
      have hne : workspace.id ≠ w := fun hid => by
        have hsome := isSome_of_live hlive
        rw [← hid, fresh] at hsome
        cases hsome
      rw [db]
      refine { Within.refl w c offer s.db with
        roles := fun role hr => (roles role).trans (or_iff_left fun hnew => hne ?_)
        permissions := fun role hr _ row hrow => ⟨fun hin => ?_, kept row⟩
        workspace := fun workspace' hlive' => ⟨workspace', ?_, rfl⟩
        members := fun member hm hw => ?_ }
      · have hshape := congrArg Role.workspaceId (added.system role hnew)
        exact hshape.symm.trans hr
      · refine (granted row hin).resolve_right fun ⟨role', hnew, hid, _⟩ => ?_
        exact Table.get_eq_none_iff.mp (added.fresh role' hnew) role hr (hrow.symm.trans hid)
      · obtain ⟨hmem, hid, hdeleted⟩ := Db.live_eq_some.mp hlive'
        exact Db.live_eq_some.mpr
          ⟨Table.mem_put.mpr (Or.inr ⟨hmem, fun h => hne (h.symm.trans hid)⟩), hid, hdeleted⟩
      · rcases Table.mem_put.mp hm with rfl | ⟨hm, _⟩
        · exact absurd hw hne
        · exact Or.inl ⟨member, hm, rfl, rfl⟩
  | @update _ name slug _ workspace live _ _ db =>
      obtain rfl := here rfl
      exact .put_workspace (workspace.rename name slug) live rfl rfl rfl db
  | @replaceLogo _ _ key url workspace live _ _ db =>
      obtain rfl := here rfl
      exact .put_workspace (workspace.replaceLogo key url) live rfl rfl rfl db
  | delete _ _ _ _ _ allowed =>
      obtain rfl := here rfl
      exact absurd allowed (powerless.no_owner_action by' (by decide +kernel) (by decide))
  | addRole _ _ _ allowed =>
      obtain rfl := here rfl
      exact absurd allowed (denied by')
  | renameRole _ _ _ allowed =>
      obtain rfl := here rfl
      exact absurd allowed (denied by')
  | deleteRole _ _ _ _ allowed =>
      obtain rfl := here rfl
      exact absurd allowed (denied by')
  | setPermissions _ _ _ allowed =>
      obtain rfl := here rfl
      exact absurd allowed (denied by')
  | setMemberRole _ _ _ _ allowed =>
      obtain rfl := here rfl
      exact absurd allowed (denied by')
  | removeMember _ _ _ _ _ _ _ db =>
      refine .of_subset (by rw [db]; rfl) (by rw [db]; rfl) (by rw [db]; rfl) ?_ ?_
      · intro member hm
        rw [db] at hm
        exact (Table.mem_erase.mp hm).1
      · intro invitation hi
        rw [db] at hi
        exact hi
  | transfer _ _ _ _ _ _ _ allowed =>
      obtain rfl := here rfl
      exact absurd allowed (powerless.no_owner_action by' (by decide +kernel) (by decide))
  | issue workspace role invitation _ _ _ _ live _ stored own _ invitable _ _ _ _ _ _ shape _ _ db =>
      obtain rfl := here rfl
      have hdefault : role.IsDefaultMember :=
        invitable.resolve_right (powerless.no_manage by')
      obtain ⟨hrole, hid⟩ := Table.get_eq_some_iff.mp stored
      rw [db]
      refine { Within.refl _ c offer s.db with invitations := fun other hi hw hp _ => ?_ }
      rcases Table.mem_put.mp hi with rfl | ⟨hi, _⟩
      · right
        rw [shape]
        show _ ∈ offer
        rw [Invitation.issue, ← hid]
        exact powerless.byDefault role hrole own hdefault
      · exact Or.inl ⟨other, hi, hw, hp, rfl, rfl⟩
  | revoke _ _ _ _ _ _ _ _ _ db =>
      rw [db]
      refine { Within.refl _ c offer s.db with invitations := fun other hi hw hp _ => ?_ }
      rcases Table.mem_put.mp hi with rfl | ⟨hi, _⟩
      · cases hp
      · exact Or.inl ⟨other, hi, hw, hp, rfl, rfl⟩
  | accept joins => exact joins.within by' lower powerless
  | register _ _ db =>
      obtain ⟨_, hdb, _⟩ := s.db.addUnlessTaken_eq _
      rw [db, hdb]
      exact .of_same rfl rfl rfl rfl rfl
  | @registerAndJoin sub email displayName _ now s₁ db touched _ joins =>
      obtain ⟨_, hdb, _⟩ := s.db.addUnlessTaken_eq (.new env.lower sub email displayName now)
      have hopened : Within w c offer s.db s₁.db := by
        rw [db, hdb]
        exact .of_same rfl rfl rfl rfl rfl
      have haccounts : ∀ user ∈ s₁.db.users, user.id ∈ c.ids → user.email ∈ c.emails :=
        by'.accounts (.register now (Or.inl touched) db) powerless.accounts
      have hlower : ∀ user ∈ s₁.db.users, env.lower user.email = user.email := by
        intro user hu
        rw [db] at hu
        exact lower_email_of_account lawful lower (account_addUnlessTaken .ensureAccount user hu)
      have hjoined := joins.within by'.1 hlower (powerless.within refs hopened haccounts)
      rw [db, hdb] at hjoined
      exact ⟨hjoined.roles, hjoined.permissions, hjoined.workspace, hjoined.members,
        hjoined.invitations⟩
  | ensureAccount _ _ db =>
      obtain ⟨_, hdb, _⟩ := s.db.addUnlessTaken_eq _
      rw [db, hdb]
      exact .of_same rfl rfl rfl rfl rfl
  | rename _ _ _ _ db =>
      exact .of_subset (by rw [db]) (by rw [db]) (by rw [db]) (fun _ h => by rwa [db] at h)
        fun _ h => by rwa [db] at h
  | replaceAvatar _ _ _ db =>
      exact .of_subset (by rw [db]) (by rw [db]) (by rw [db]) (fun _ h => by rwa [db] at h)
        fun _ h => by rwa [db] at h
  | deleteAccount _ _ _ _ _ db =>
      refine .of_subset (by rw [db]) (by rw [db]) (by rw [db]) ?_ ?_
      · intro member hm
        rw [db] at hm
        exact (Table.mem_filter.mp hm).1
      · intro invitation hi
        rw [db] at hi
        exact (Table.mem_filter.mp hi).1
  | deleteBatch _ db => exact db ▸ .of_same rfl rfl rfl rfl rfl
  | purgeNothing _ same => exact same ▸ .refl w c offer s.db
  | purgeRows workspace stored deleted _ db =>
      obtain ⟨held, hlive, _⟩ := powerless.owner
      obtain ⟨hheld, hid, hundeleted⟩ := Db.live_eq_some.mp hlive
      obtain ⟨hmem, _⟩ := Table.get_eq_some_iff.mp stored
      have hne : workspace.id ≠ w := fun hw => by
        rw [Table.eq_of_key hmem hheld (hw.trans hid.symm)] at deleted
        exact deleted hundeleted
      rw [db]
      constructor
      · exact .filter fun role _ hr => decide_eq_true fun h => hne (h.symm.trans hr)
      · refine fun role hr hw => .filter fun row _ hrow => ?_
        rw [hrow, Table.mem_def.mp hr]
        simpa using fun h => hne (h.symm.trans hw)
      · intro workspace' hlive'
        obtain ⟨hmem', hid', hdeleted'⟩ := Db.live_eq_some.mp hlive'
        exact ⟨workspace', Db.live_eq_some.mpr
          ⟨Table.mem_erase.mpr ⟨hmem', fun h => hne (h.symm.trans hid')⟩, hid', hdeleted'⟩, rfl⟩
      · exact fun member hm _ => Or.inl ⟨member, (Table.mem_filter.mp hm).1, rfl, rfl⟩
      · exact fun invitation hi hw hp _ =>
          Or.inl ⟨invitation, (Table.mem_filter.mp hi).1, hw, hp, rfl, rfl⟩
  | createProduct _ _ _ _ db => exact db ▸ .of_same rfl rfl rfl rfl rfl
  | updateProduct _ _ _ _ _ _ db => exact db ▸ .of_same rfl rfl rfl rfl rfl
  | deleteProduct _ _ _ _ db => exact db ▸ .of_same rfl rfl rfl rfl rfl
  | attachImage _ _ _ _ _ _ _ _ db => exact db ▸ .of_same rfl rfl rfl rfl rfl
  | removeImage _ _ _ _ _ _ db => exact db ▸ .of_same rfl rfl rfl rfl rfl
  | reorderImages _ _ _ _ _ _ db => exact db ▸ .of_same rfl rfl rfl rfl rfl

/-- What a run of the coalition leaves of the workspace `w`: its roles and their permissions, its
owner, and members with the role they had or with one that was offered. -/
structure Retains (w : String) (offer : Set String) (db db' : Db) : Prop where
  roles : Table.Same (·.workspaceId = w) db.roles db'.roles
  permissions : ∀ role ∈ db.roles, role.workspaceId = w →
    Table.Same (·.roleId = role.id) db.rolePermissions db'.rolePermissions
  workspace : ∀ workspace, db.live w = some workspace →
    ∃ workspace', db'.live w = some workspace' ∧ workspace'.ownerId = workspace.ownerId
  members : ∀ member ∈ db'.members, member.workspaceId = w →
    (∃ old ∈ db.members, old.key = member.key ∧ old.roleId = member.roleId)
    ∨ member.roleId ∈ offer

theorem Retains.refl (w : String) (offer : Set String) (db : Db) :
  Retains w offer db db
  where
  roles := .refl _ _
  permissions _ _ _ := .refl _ _
  workspace workspace hw := ⟨workspace, hw, rfl⟩
  members member hm _ := Or.inl ⟨member, hm, rfl, rfl⟩

theorem Retains.within {db db' db'' : Db} (h : Retains w offer db db')
    (step : Within w c offer db' db'') :
  Retains w offer db db''
  where
  roles := h.roles.trans step.roles
  permissions role hr hw :=
    (h.permissions role hr hw).trans (step.permissions role ((h.roles role hw).mpr hr) hw)
  workspace workspace hlive := by
    obtain ⟨workspace', hlive', howner⟩ := h.workspace workspace hlive
    obtain ⟨workspace'', hlive'', howner'⟩ := step.workspace workspace' hlive'
    exact ⟨workspace'', hlive'', howner'.trans howner⟩
  members member hm hw := by
    rcases step.members member hm hw with ⟨mid, hmid, hkey, hrole⟩ | ⟨_, _, hoffer⟩
    · obtain ⟨hmw, _⟩ := pair_inj.mp hkey
      rcases h.members mid hmid (hmw.trans hw) with ⟨old, hold, hkey', hrole'⟩ | hoffer
      · exact Or.inl ⟨old, hold, hkey'.trans hkey, hrole'.trans hrole⟩
      · exact Or.inr (hrole ▸ hoffer)
    · exact Or.inr hoffer

/-- Along every run of its transactions the coalition stays powerless. -/
theorem Reaches.powerless (lawful : env.Lawful) {s₀ : Session}
    (reachable : Reachable env (fun _ => True) s₀) (run : Reaches env (Work.By env c) s₀ s)
    (powerless : Powerless w c offer s₀.db) :
  Reachable env (fun _ => True) s ∧ Powerless w c offer s.db ∧ Retains w offer s₀.db s.db
  := by
  induction run with
  | refl => exact ⟨reachable, powerless, .refl w offer s₀.db⟩
  | @commit s s' work u _ allowed returns unique ih =>
      obtain ⟨here, powerless, retains⟩ := ih
      have effect := (Work.effect returns).1
      have within : Within w c offer s.db s'.db := effect.within lawful allowed here.references
        here.catalogued (here.lower_email lawful) powerless
      have accounts := Work.By.accounts allowed effect powerless.accounts
      exact ⟨.commit here trivial returns unique, powerless.within here.references within accounts,
        retains.within within⟩
  | wait _ later same clean ih =>
      exact ⟨.wait ih.1 later same clean, same ▸ ih.2.1, same ▸ ih.2.2⟩

end Step

/-- The roles that the coalition was offered in a workspace: those of the pending invitations of
its addresses, and the system role named `member`. -/
def Db.offers (db : Db) (w : String) (c : Coalition) : Set String := { roleId |
  (∃ invitation ∈ db.invitations, invitation.workspaceId = w ∧ invitation.status = .pending
    ∧ invitation.email ∈ c.emails ∧ invitation.roleId = roleId)
  ∨ ∃ role ∈ db.roles, role.workspaceId = w ∧ role.IsDefaultMember ∧ role.id = roleId }

/-- If no account of a coalition owns a live workspace, and neither a role that one of them
holds there, nor one that was offered to them, grants the management of roles, then after any
run of their transactions the roles of the workspace and their permissions are the same, and so
is the owner; whoever belongs to it has the role they had at the start or one that was offered;
and still no account of the coalition owns the workspace or holds such a role. The next
transaction of theirs changes nobody's role, and lets in only accounts of theirs with a role that
was offered. -/
theorem no_escalation {env : Env} (lawful : env.Lawful) {s₀ s : Session} {w : String}
    {c : Coalition} {workspace : Workspace}
    (reachable : Reachable env (fun _ => True) s₀) (run : Reaches env (Work.By env c) s₀ s)
    (live : s₀.db.live w = some workspace)
    (emails : ∀ user ∈ s₀.db.users, user.id ∈ c.ids → user.email ∈ c.emails)
    (not_owner : workspace.ownerId ∉ c.ids)
    (held : ∀ member ∈ s₀.db.members, member.workspaceId = w → member.userId ∈ c.ids →
      "roles.manage" ∉ s₀.db.permissions member.roleId)
    (offered : ∀ invitation ∈ s₀.db.invitations, invitation.workspaceId = w →
      invitation.status = .pending → invitation.email ∈ c.emails →
        "roles.manage" ∉ s₀.db.permissions invitation.roleId)
    (byDefault : ∀ role ∈ s₀.db.roles, role.workspaceId = w → role.IsDefaultMember →
      "roles.manage" ∉ s₀.db.permissions role.id) :
  (∀ role, role.workspaceId = w → (role ∈ s.db.roles ↔ role ∈ s₀.db.roles))
  ∧ (∀ role ∈ s₀.db.roles, role.workspaceId = w →
      ∀ row, row.roleId = role.id → (row ∈ s.db.rolePermissions ↔ row ∈ s₀.db.rolePermissions))
  ∧ (∃ workspace', s.db.live w = some workspace' ∧ workspace'.ownerId = workspace.ownerId)
  ∧ (∀ member ∈ s.db.members, member.workspaceId = w →
      (∃ old ∈ s₀.db.members, old.key = member.key ∧ old.roleId = member.roleId)
      ∨ member.roleId ∈ s₀.db.offers w c)
  ∧ (∀ member ∈ s.db.members, member.workspaceId = w → member.userId ∈ c.ids →
      "roles.manage" ∉ s.db.permissions member.roleId)
  ∧ ∀ (work : Work) (s' : Session), work.By env c → Returns work.body env s () s' →
      ∀ member ∈ s'.db.members, member.workspaceId = w →
        (∃ old ∈ s.db.members, old.key = member.key ∧ old.roleId = member.roleId)
        ∨ (s.db.members.get member.key = none ∧ member.userId ∈ c.ids
          ∧ member.roleId ∈ s₀.db.offers w c)
  := by
  have refs : s₀.db.References := reachable.references
  have powerless : Powerless w c (s₀.db.offers w c) s₀.db := by
    refine ⟨⟨workspace, live, not_owner⟩, emails, held, ?_, ?_, ?_, ?_⟩
    · exact fun invitation hi hw hp he => Or.inl ⟨invitation, hi, hw, hp, he, rfl⟩
    · exact fun role hr hw hd => Or.inr ⟨role, hr, hw, hd, rfl⟩
    · rintro roleId (⟨invitation, hi, hw, hp, he, rfl⟩ | ⟨role, hr, hw, hd, rfl⟩)
      · exact offered invitation hi hw hp he
      · exact byDefault role hr hw hd
    · rintro roleId (⟨invitation, hi, hw, _, _, rfl⟩ | ⟨role, hr, hw, _, rfl⟩)
      · obtain ⟨role, hr, hid, hrw, _⟩ := (refs.invitation invitation hi).role
        exact ⟨role, hr, hid, hrw.trans hw⟩
      · exact ⟨role, hr, rfl, hw⟩
  obtain ⟨here, powerless', retains⟩ := run.powerless lawful reachable powerless
  refine ⟨retains.roles, retains.permissions, retains.workspace workspace live, retains.members,
    powerless'.held, fun work s' by' returns => ?_⟩
  exact ((Work.effect returns).1.within lawful by' here.references here.catalogued
    (here.lower_email lawful) powerless').members

/-- Bob, who was invited, registers and joins, and may not manage the roles. -/
theorem no_escalation_of_register :
  ∃ s₀ s, s = [Work.register "bob" "Bob@acme.test" "Bob" (some "t")].foldl (Work.step .sample) s₀
    ∧ (s.db.member "i" "bob").isSome
    ∧ ∀ member ∈ s.db.members, member.workspaceId = "i" → member.userId = "bob" →
        "roles.manage" ∉ s.db.permissions member.roleId
  := by
  obtain ⟨s₀, workspace, reachable, live, not_owner, nobody, outside, offered, byDefault, joined⟩ :
      ∃ s₀ workspace, Reachable .sample (fun _ => True) s₀ ∧ s₀.db.live "i" = some workspace
        ∧ workspace.ownerId ≠ "bob" ∧ s₀.db.users.get "bob" = none
        ∧ s₀.db.members.any (·.userId = "bob") = false
        ∧ (s₀.db.invitations.any fun invitation =>
            "roles.manage" ∈ s₀.db.permissions invitation.roleId) = false
        ∧ (s₀.db.roles.any fun role => decide role.IsDefaultMember
            && decide ("roles.manage" ∈ s₀.db.permissions role.id)) = false
        ∧ (([Work.register "bob" "Bob@acme.test" "Bob" (some "t")].foldl (Work.step .sample)
            s₀).db.member "i" "bob").isSome :=
    ⟨.after .sample [.register "ada" "ada@acme.test" "Ada" none, .create "Acme" "acme" "ada",
        .issue "i" "bob@acme.test" "iiii" "ada"],
      ⟨"i", "Acme", "acme", "ada", none, none, 1, none⟩, .after (by simp), by decide +kernel,
      by decide, by decide +kernel, by decide +kernel, by decide +kernel, by decide +kernel,
      by decide +kernel⟩
  rw [Table.any_eq_false] at outside offered byDefault
  have lower : Env.sample.lower "Bob@acme.test" = "bob@acme.test" := by decide +kernel
  have run : Reaches .sample (Work.By .sample ⟨{"bob"}, {"bob@acme.test"}⟩) s₀
      ([Work.register "bob" "Bob@acme.test" "Bob" (some "t")].foldl (Work.step .sample) s₀) :=
    .tried .refl (by simp [Work.By, lower])
  refine ⟨s₀, _, rfl, joined, ?_⟩
  refine (no_escalation Env.sample_lawful reachable run live ?_ not_owner ?_ ?_ ?_).2.2.2.2.1
  · intro user hu hid
    exact absurd hid (Table.get_eq_none_iff.mp nobody user hu)
  · intro member hm _ hid
    exact absurd hid (of_decide_eq_false (outside member hm))
  · intro invitation hi _ _ _
    exact of_decide_eq_false (offered invitation hi)
  · intro role hr _ hd
    have hbyDefault := byDefault role hr
    rw [decide_eq_true hd, Bool.true_and] at hbyDefault
    exact of_decide_eq_false hbyDefault

end MvpApi
