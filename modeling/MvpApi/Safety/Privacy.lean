import MvpApi.Safety.Isolation

/-!
# Privacy of the workspaces

An account that is not a member of the workspace `w` cannot tell apart, by what it reads, two
states of the database that differ only in the rows of `w`. A program that answers the same in
both is `Indistinct`, and so is one that is composed of such programs.
-/

set_option autoImplicit false

namespace MvpApi

open Tx Exec

/-- The program answers the same in two states of the database, and leaves both as they are. -/
def Indistinct {α : Type} (env : Env) (db db' : Db) (x : Tx α) : Prop :=
  ∀ s s', s.db = db → s'.db = db' →
    (x.run env s).1 = (x.run env s').1 ∧ (x.run env s).2.db = db ∧ (x.run env s').2.db = db'

/-! ### Composing programs -/

section Compose

variable {env : Env} {db db' : Db} {α β : Type}

theorem Indistinct.pure (a : α) :
  Indistinct env db db' (pure a)
  := fun _ _ hs hs' => ⟨rfl, hs, hs'⟩

/-- Of the second program one only has to know what the first one has returned. -/
theorem Indistinct.bind_returns {x : Tx α} {f : α → Tx β} (hx : Indistinct env db db' x)
    (hf : ∀ a s s₁, s.db = db → Returns x env s a s₁ → Indistinct env db db' (f a)) :
  Indistinct env db db' (x >>= f)
  := by
  intro s s' hs hs'
  obtain ⟨hsame, hleft, hleft'⟩ := hx s s' hs hs'
  rw [run_bind, run_bind]
  rcases hr : x.run env s with ⟨e | a, s₁⟩
  · rcases hr' : x.run env s' with ⟨e' | a', s₁'⟩
    · rw [hr] at hsame hleft
      rw [hr'] at hsame hleft'
      obtain rfl : e = e' := Except.error.inj hsame
      exact ⟨rfl, hleft, hleft'⟩
    · rw [hr, hr'] at hsame
      cases hsame
  · rcases hr' : x.run env s' with ⟨e' | a', s₁'⟩
    · rw [hr, hr'] at hsame
      cases hsame
    · rw [hr] at hsame hleft
      rw [hr'] at hsame hleft'
      obtain rfl : a = a' := Except.ok.inj hsame
      exact hf a s s₁ hs hr s₁ s₁' hleft hleft'

theorem Indistinct.bind {x : Tx α} {f : α → Tx β} (hx : Indistinct env db db' x)
    (hf : ∀ a, Indistinct env db db' (f a)) :
  Indistinct env db db' (x >>= f)
  := hx.bind_returns fun a _ _ _ _ => hf a

/-- A program that returns a value that is the same for both states. -/
theorem Indistinct.of_returns {x : Tx α} (f : Db → α) (hx : ∀ s, Returns x env s (f s.db) s)
    (h : f db' = f db) :
  Indistinct env db db' x
  := by
  rintro s s' rfl rfl
  rw [show x.run env s = _ from hx s, show x.run env s' = _ from hx s', h]
  exact ⟨rfl, rfl, rfl⟩

theorem Indistinct.select {f : Db → α} (h : f db' = f db) :
  Indistinct env db db' (select f)
  := .of_returns f (fun _ => returns_select.mpr ⟨rfl, rfl⟩) h

/-- A program that fails with the same error in both states. -/
theorem Indistinct.of_raises {x : Tx α} (e : Failure)
    (hx : ∀ s, s.db = db ∨ s.db = db' → Raises x env s e s) :
  Indistinct env db db' x
  := by
  rintro s s' rfl rfl
  rw [show x.run env s = _ from hx s (Or.inl rfl), show x.run env s' = _ from hx s' (Or.inr rfl)]
  exact ⟨rfl, rfl, rfl⟩

theorem Indistinct.platform :
  Indistinct env db db' platform
  := fun _ _ hs hs' => ⟨rfl, hs, hs'⟩

theorem Indistinct.touch (rows : List RowId) :
  Indistinct env db db' (touch rows)
  := fun _ _ hs hs' => ⟨rfl, hs, hs'⟩

theorem Indistinct.raise (e : Failure) :
  Indistinct env db db' (raise e : Tx α)
  := fun _ _ hs hs' => ⟨rfl, hs, hs'⟩

theorem Indistinct.check (x : Except DomainError α) :
  Indistinct env db db' (check x)
  := by
  cases x with
  | ok a => exact .pure a
  | error e => exact .raise _

theorem Indistinct.refuseUnless (p : Prop) [Decidable p] (e : DomainError) :
  Indistinct env db db' (refuseUnless p e)
  := by
  unfold Tx.refuseUnless ensure
  split
  · exact .pure ()
  · exact .raise _

end Compose

/-! ### What an outsider sees -/

/-- Two states of the database that differ in the rows of a workspace only, of which an account
is not a member. -/
structure Hidden (w userId : String) (db db' : Db) : Prop where
  agree : Agree w db db'
  users : db'.users = db.users
  outside : db.member w userId = none
  outside' : db'.member w userId = none
  refs : db.References
  refs' : db'.References
  unique : db.Unique
  unique' : db'.Unique
  catalogued : db.Catalogued
  catalogued' : db'.Catalogued

namespace Hidden

variable {w userId v : String} {db db' : Db}

theorem symm (h : Hidden w userId db db') :
  Hidden w userId db' db
  := ⟨h.agree.symm, h.users.symm, h.outside', h.outside, h.refs', h.refs, h.unique', h.unique,
    h.catalogued', h.catalogued⟩

/-- The account is a member of other workspaces only. -/
theorem ne_of_member (h : Hidden w userId db db') {member : Member} (hm : member ∈ db.members)
    (hid : member.userId = userId) :
  member.workspaceId ≠ w
  := by
  rintro rfl
  have hnone := h.outside
  rw [Db.member, ← hid] at hnone
  exact Table.get_eq_none_iff.mp hnone member hm rfl

theorem live (h : Hidden w userId db db') (hv : v ≠ w) :
  db'.live v = db.live v
  := by
  have hq : ∀ ws : Workspace, (ws.id = v && !ws.isDeleted) = true → ws.id ≠ w := by
    intro ws hws
    rw [Bool.and_eq_true, decide_eq_true_eq] at hws
    rw [hws.1]
    exact hv
  have key := h.agree.workspaces.get_filter v (fun ws _ => hq ws) fun ws _ => hq ws
  have hlive : ∀ d : Db, d.live v
      = (d.workspaces.get v).filter fun ws => ws.id = v && !ws.isDeleted := by
    intro d
    rw [Db.live]
    cases hget : d.workspaces.get v with
    | none => rfl
    | some ws => simp [Option.filter_some, (Table.get_eq_some_iff.mp hget).2]
  rw [hlive, hlive, key]

theorem member (h : Hidden w userId db db') (hv : v ≠ w) (id : String) :
  db'.member v id = db.member v id
  := by
  rw [Db.member, Db.member]
  refine Option.ext fun m => ?_
  rw [Table.get_eq_some_iff, Table.get_eq_some_iff]
  refine and_congr_left fun hk => h.agree.members m fun hw => hv ?_
  rw [← (pair_inj.mp hk).1, hw]

/-- A role of another workspace is the same. -/
theorem role (h : Hidden w userId db db') {role : Role} (hr : role ∈ db.roles)
    (hw : role.workspaceId ≠ w) :
  db'.roles.get role.id = db.roles.get role.id
  := (Table.mem_def.mp ((h.agree.roles role hw).mpr hr)).trans (Table.mem_def.mp hr).symm

/-- The role of a member of another workspace has the same permissions. -/
theorem permissions (h : Hidden w userId db db') {role : Role} (hr : role ∈ db.roles)
    (hw : role.workspaceId ≠ w) :
  db'.permissions role.id = db.permissions role.id
  := by
  rw [Db.permissions, Db.permissions]
  have key := (h.agree.permissions role hr hw).rows_filter (q := fun row => row.roleId = role.id)
    (fun _ _ => of_decide_eq_true) fun _ _ => of_decide_eq_true
  rw [key]

theorem permits_eq (h : Hidden w userId db db') (action resource : String) :
  db'.permits userId action resource = db.permits userId action resource
  := by
  unfold Db.permits
  split
  · rfl
  · by_cases hv : resource = w
    · rw [hv, h.outside, h.outside']
      cases db.live w <;> cases db'.live w <;> rfl
    · rw [h.live hv, h.member hv]
      cases db.live resource with
      | none => rfl
      | some workspace =>
      cases hm : db.member resource userId with
      | none => rfl
      | some member =>
          obtain ⟨hmem, hk⟩ := Table.get_eq_some_iff.mp hm
          obtain ⟨role, hr, hid, hrw⟩ := (h.refs.member member hmem).role
          have hne : role.workspaceId ≠ w := by
            rw [hrw, (pair_inj.mp hk).1]
            exact hv
          simp only [← hid, h.permissions hr hne]

/-- The permissions of the role of a member of another workspace. -/
theorem permissions_of_member (h : Hidden w userId db db') (hv : v ≠ w) {id : String}
    {member : Member} (hm : db.member v id = some member) :
  db'.permissions member.roleId = db.permissions member.roleId
  := by
  obtain ⟨hmem, hk⟩ := Table.get_eq_some_iff.mp hm
  obtain ⟨role, hr, hid, hrw⟩ := (h.refs.member member hmem).role
  rw [← hid]
  refine h.permissions hr fun hw => hv ?_
  rw [← hw, hrw, (pair_inj.mp hk).1]

variable {env : Env}

/-! ### The reads -/

theorem permits (h : Hidden w userId db db') (action resource : String) :
  Indistinct env db db' (permits userId action resource)
  := .of_returns (·.permits userId action resource) (fun _ => returns_permits.mpr ⟨rfl, rfl⟩)
    (h.permits_eq action resource)

theorem require (h : Hidden w userId db db') (action resource : String) :
  Indistinct env db db' (require userId action resource)
  := by
  unfold MvpApi.require
  exact .bind (.select (by rw [h.users])) fun user => .bind (.check _) fun user =>
    .bind (.check _) fun _ => .bind (h.permits action resource) fun _ => .refuseUnless _ _

/-- Who may perform an action on a workspace is a member of it. -/
theorem ne_of_require (h : Hidden w userId db db') {action : String}
    (own : isOnOwnAccount action = false) {s s₁ : Session} {u : Unit} (hs : s.db = db)
    (returns : Returns (MvpApi.require userId action v) env s u s₁) :
  v ≠ w
  := by
  rintro rfl
  obtain ⟨⟨_, permitted⟩, _⟩ := returns_require.mp returns
  obtain ⟨_, member, _, hm, _⟩ := (Db.permits_eq_true own).mp permitted
  rw [hs, h.outside] at hm
  cases hm

theorem workspaceView (h : Hidden w userId db db') {workspace : Workspace} (hv : workspace.id ≠ w) :
  Indistinct env db db' (workspaceView workspace userId)
  := by
  unfold MvpApi.workspaceView
  refine .bind_returns (.select (h.member hv userId)) fun found s s₁ hs hfound => ?_
  refine .bind_returns (.check _) fun member _ _ _ hmember => ?_
  obtain ⟨hfound, _⟩ := returns_select.mp hfound
  obtain ⟨hmember, _⟩ := returns_check.mp hmember
  rw [hs, workspaceView.member?_eq_ok.mp hmember] at hfound
  dsimp only
  split
  · exact .bind (.pure []) fun _ => .pure _
  · exact .bind (.select (h.permissions_of_member hv hfound)) fun _ => .pure _

theorem get (h : Hidden w userId db db') (workspaceId : String) :
  Indistinct env db db' (WorkspaceTx.get workspaceId userId)
  := by
  unfold WorkspaceTx.get
  refine .bind_returns (h.require _ _) fun _ s s₁ hs returns => ?_
  have hv := h.ne_of_require (by decide) hs returns
  refine .bind_returns (.select (h.live hv)) fun stored t t₁ ht hstored => ?_
  refine .bind_returns (.check _) fun workspace _ _ _ hworkspace => h.workspaceView ?_
  obtain ⟨hstored, _⟩ := returns_select.mp hstored
  obtain ⟨hworkspace, _⟩ := returns_check.mp hworkspace
  rw [found_eq_ok.mp hworkspace] at hstored
  rw [(Db.live_eq_some.mp hstored).2.1]
  exact hv

/-- The workspaces that the account belongs to are others. -/
theorem ofMember (h : Hidden w userId db db') :
  Indistinct env db db' (Workspaces.ofMember userId)
  := by
  have only : ∀ {d : Db} (ws : Workspace), d.member w userId = none →
      ((d.members.get (pair ws.id userId)).isSome && !ws.isDeleted) = true → ws.id ≠ w := by
    intro d ws outside hq hid
    rw [hid, show d.members.get (pair w userId) = none from outside] at hq
    cases hq
  have hmember : ∀ ws : Workspace, (db'.members.get (pair ws.id userId)).isSome
      = (db.members.get (pair ws.id userId)).isSome := by
    intro ws
    by_cases hw : ws.id = w
    · rw [hw, show db'.members.get (pair w userId) = none from h.outside',
        show db.members.get (pair w userId) = none from h.outside]
    · exact congrArg Option.isSome (h.member hw userId)
  unfold Workspaces.ofMember
  refine .bind .platform fun env => .select (congrArg (orderByTexts env _) ?_)
  simp only [hmember]
  exact h.agree.workspaces.rows_filter (fun ws _ => only ws h.outside) fun ws _ => only ws h.outside

theorem workspaceViews (h : Hidden w userId db db') {workspaces : List Workspace}
    (others : ∀ workspace ∈ workspaces, workspace.id ≠ w) :
  Indistinct env db db' (WorkspaceTx.workspaceViews userId workspaces)
  := by
  induction workspaces with
  | nil => exact .pure []
  | cons workspace workspaces ih =>
      have rest := ih fun other hother => others other (List.mem_cons_of_mem _ hother)
      exact .bind (h.workspaceView (others workspace List.mem_cons_self)) fun _ =>
        .bind rest fun _ => .pure _

theorem listMine (h : Hidden w userId db db') :
  Indistinct env db db' (WorkspaceTx.listMine userId)
  := by
  unfold WorkspaceTx.listMine
  refine .bind (h.require _ _) fun _ => .bind_returns h.ofMember fun workspaces s s₁ hs returns =>
    h.workspaceViews fun workspace hw hid => ?_
  obtain ⟨_, _, hplatform, hlist⟩ := returns_bind.mp returns
  obtain ⟨rfl, rfl⟩ := returns_platform.mp hplatform
  obtain ⟨rfl, rfl⟩ := returns_select.mp hlist
  obtain ⟨_, hmember⟩ := List.mem_filter.mp (perm_orderByTexts.mem_iff.mp hw)
  rw [hid, hs, show db.members.get (pair w userId) = none from h.outside] at hmember
  cases hmember

theorem roleViews (h : Hidden w userId db db') {roles : List Role}
    (others : ∀ role ∈ roles, role ∈ db.roles ∧ role.workspaceId ≠ w) :
  Indistinct env db db' (WorkspaceTx.roleViews roles)
  := by
  induction roles with
  | nil => exact .pure []
  | cons role roles ih =>
      have rest := ih fun other hother => others other (List.mem_cons_of_mem _ hother)
      obtain ⟨hr, hw⟩ := others role List.mem_cons_self
      -- Who holds a role of a workspace is a member of that workspace.
      have holds : ∀ {d : Db}, d.References → role ∈ d.roles → ∀ member ∈ d.members,
          decide (member.roleId = role.id) = true → member.workspaceId ≠ w := by
        intro d refs hrole member hm hid
        obtain ⟨role', hrole', hid', hrw⟩ := (refs.member member hm).role
        rw [← hrw, Table.eq_of_key hrole' hrole (hid'.trans (of_decide_eq_true hid))]
        exact hw
      have count := h.agree.members.rows_filter (holds h.refs hr)
        (holds h.refs' ((h.agree.roles role hw).mpr hr))
      refine .bind ?_ fun _ => .bind rest fun _ => .pure _
      exact .bind (.select (h.permissions hr hw)) fun _ =>
        .bind (.select (congrArg List.length count)) fun _ => .pure _

/-- The rows of another workspace, by the name of the workspace. -/
theorem only_of_ne {ρ : Type} {workspaceId : ρ → String} {v : String} (hv : v ≠ w) (r : ρ)
    (hr : decide (workspaceId r = v) = true) :
  workspaceId r ≠ w
  := by
  rw [of_decide_eq_true hr]
  exact hv

theorem roles (h : Hidden w userId db db') (workspaceId : String) :
  Indistinct env db db' (WorkspaceTx.roles workspaceId userId)
  := by
  unfold WorkspaceTx.roles
  refine .bind_returns (h.require _ _) fun _ s s₁ hs returns => ?_
  have hv := h.ne_of_require (by decide) hs returns
  have rows := h.agree.roles.rows_filter (fun r _ => only_of_ne hv r) fun r _ => only_of_ne hv r
  have listed : Indistinct env db db' (Roles.ofWorkspace workspaceId) := by
    unfold Roles.ofWorkspace
    refine .bind .platform fun env => .select ?_
    rw [rows]
  refine .bind_returns listed fun roles t t₁ ht returns => h.roleViews fun role hr => ?_
  obtain ⟨_, _, hplatform, hlist⟩ := returns_bind.mp returns
  obtain ⟨rfl, rfl⟩ := returns_platform.mp hplatform
  obtain ⟨rfl, rfl⟩ := returns_select.mp hlist
  rw [mem_orderBy, perm_orderByTexts.mem_iff] at hr
  obtain ⟨hrole, hw⟩ := List.mem_filter.mp hr
  exact ⟨ht ▸ Table.mem_rows.mp hrole, only_of_ne hv role hw⟩

theorem permissionCatalog (h : Hidden w userId db db') (workspaceId : String) :
  Indistinct env db db' (WorkspaceTx.permissionCatalog workspaceId userId)
  := by
  unfold WorkspaceTx.permissionCatalog
  exact .bind (h.require _ _) fun _ => .pure _

theorem members (h : Hidden w userId db db') (workspaceId : String) :
  Indistinct env db db' (WorkspaceTx.members workspaceId userId)
  := by
  unfold WorkspaceTx.members
  refine .bind_returns (h.require _ _) fun _ s s₁ hs returns => ?_
  have hv := h.ne_of_require (by decide) hs returns
  have rows := h.agree.members.rows_filter (fun r _ => only_of_ne hv r) fun r _ => only_of_ne hv r
  refine .bind (.bind .platform fun env => .select (congrArg (orderByTexts env _) ?_)) fun _ =>
    .pure _
  rw [rows, h.users]
  refine List.filterMap_congr fun member hm => ?_
  obtain ⟨hmem, hw⟩ := List.mem_filter.mp hm
  obtain ⟨role, hr, hid, hrw⟩ := (h.refs.member member (Table.mem_rows.mp hmem)).role
  have hrole := h.role hr (hrw ▸ only_of_ne hv member hw)
  rw [hid] at hrole
  rw [hrole]

theorem invitations (h : Hidden w userId db db') (workspaceId : String) :
  Indistinct env db db' (WorkspaceTx.invitations workspaceId userId)
  := by
  unfold WorkspaceTx.invitations
  refine .bind_returns (h.require _ _) fun _ s s₁ hs returns => ?_
  have hv := h.ne_of_require (by decide) hs returns
  have rows := h.agree.invitations.rows_filter (fun r _ => only_of_ne hv r)
    fun r _ => only_of_ne hv r
  refine .bind (.select ?_) fun _ => .pure _
  rw [rows, h.users]

theorem belongsToAny (h : Hidden w userId db db') :
  db'.belongsToAny userId = db.belongsToAny userId
  := h.agree.members.any (fun _ hm hid => h.ne_of_member hm (of_decide_eq_true hid))
    fun _ hm hid => h.symm.ne_of_member hm (of_decide_eq_true hid)

theorem profile (h : Hidden w userId db db') :
  Indistinct env db db' (AccountTx.profile userId)
  := by
  unfold AccountTx.profile AccountTx.view
  refine .bind (h.require _ _) fun _ => .bind_returns (.select (by rw [h.users])) ?_
  intro stored s s₁ hs hstored
  refine .bind_returns (.check _) fun user _ _ _ huser => .bind (.select ?_) fun _ => .pure _
  obtain ⟨hstored, _⟩ := returns_select.mp hstored
  obtain ⟨huser, _⟩ := returns_check.mp huser
  rw [existing_eq_ok.mp huser] at hstored
  rw [(Table.get_eq_some_iff.mp hstored).2]
  exact h.belongsToAny

/-! ### Entering a workspace -/

/-- Where there is a workspace other than `w` at a slug, it is the one that is found. -/
theorem bySlug (h : Hidden w userId db db') {slug : String} {workspace : Workspace}
    (hfind : db.workspaces.find? (fun ws => ws.slug = slug && !ws.isDeleted) = some workspace)
    (hw : workspace.id ≠ w) :
  db'.workspaces.find? (fun ws => ws.slug = slug && !ws.isDeleted) = some workspace
  := by
  obtain ⟨hmem, hq⟩ := Table.mem_of_find?_eq_some hfind
  have hmem' := (h.agree.workspaces workspace hw).mpr hmem
  refine Table.find?_eq_some_of_unique hmem' hq fun other hother hother' => ?_
  rw [Bool.and_eq_true, decide_eq_true_eq] at hq hother'
  exact Table.eq_of_key hother hmem'
    (h.unique'.slug other hother workspace hmem' (hother'.1.trans hq.1.symm))

/-- At a slug there is a workspace other than `w`. -/
def Taken (w slug : String) (db : Db) (workspace : Workspace) : Prop :=
  db.workspaces.find? (fun ws => ws.slug = slug && !ws.isDeleted) = some workspace
    ∧ workspace.id ≠ w

/-- Nobody enters through a slug at which there is no workspace other than `w`, from outside of
`w`. -/
theorem raises_of_not_taken {slug : String} {d : Db} (outside : d.member w userId = none)
    (free : ∀ workspace, ¬ Taken w slug d workspace) {β : Type} {rest : Workspace → Tx β}
    {s : Session} (hs : s.db = d) :
  Raises (do
    let workspace ← check (found (← Workspaces.bySlug slug) workspaceNotFound)
    let member ← Members.get workspace.id userId
    MvpApi.Tx.refuseUnless (member.isSome = true) (.notFound workspaceNotFound)
    rest workspace) env s (.domain (.notFound workspaceNotFound)) s
  := by
  simp only [Workspaces.bySlug, Members.get, raises_bind, not_raises_select, returns_select,
    raises_check, returns_check, found_eq_ok, found_eq_error, raises_refuseUnless, false_or]
  refine ⟨_, s, ⟨rfl, rfl⟩, ?_⟩
  cases hfind : s.db.workspaces.find? fun ws => ws.slug = slug && !ws.isDeleted with
  | none => exact Or.inl ⟨_, ⟨rfl, rfl⟩, rfl, rfl⟩
  | some workspace =>
      have hid : workspace.id = w := by
        by_contra hne
        exact free workspace ⟨hs ▸ hfind, hne⟩
      refine Or.inr ⟨workspace, s, ⟨rfl, rfl⟩, none, s, ⟨?_, rfl⟩,
        Or.inl ⟨Bool.false_ne_true, trivial, rfl⟩⟩
      rw [hid, hs]
      exact outside

theorem workspace (h : Hidden w userId db db') (slug : String) (action : Option String) :
  Indistinct env db db' (AccessService.workspace userId slug action)
  := by
  unfold AccessService.workspace
  refine .bind (.select (by rw [h.users])) fun user => .bind (.check _) fun user =>
    .bind (.check _) fun _ => ?_
  by_cases taken : ∃ workspace, Taken w slug db workspace
  · obtain ⟨workspace, hfind, hw⟩ := taken
    refine .bind_returns (.select ((h.bySlug hfind hw).trans hfind.symm)) ?_
    intro stored s s₁ hs hstored
    obtain ⟨rfl, _⟩ := returns_select.mp hstored
    rw [hs, hfind]
    refine .bind_returns (.check _) fun entered _ _ _ hentered => ?_
    obtain rfl : workspace = entered :=
      Option.some.inj (found_eq_ok.mp (returns_check.mp hentered).1)
    refine .bind (.select (h.member hw userId)) fun member => .bind (.refuseUnless _ _) fun _ => ?_
    cases action with
    | none => exact .bind (.pure true) fun _ => .bind (.refuseUnless _ _) fun _ => .pure _
    | some action =>
        exact .bind (h.permits action workspace.id) fun _ =>
          .bind (.refuseUnless _ _) fun _ => .pure _
  · have free : ∀ workspace, ¬ Taken w slug db workspace := not_exists.mp taken
    have free' : ∀ workspace, ¬ Taken w slug db' workspace :=
      fun workspace ⟨hfind, hw⟩ => free workspace ⟨h.symm.bySlug hfind hw, hw⟩
    refine .of_raises (.domain (.notFound workspaceNotFound)) fun s hs => ?_
    rcases hs with hs | hs
    · exact raises_of_not_taken h.outside free hs
    · exact raises_of_not_taken h.outside' free' hs

/-- Who is let into a workspace is a member of it. -/
theorem ne_of_workspace (h : Hidden w userId db db') {slug : String} {action : Option String}
    {entered : Workspace} {s s₁ : Session} (hs : s.db = db)
    (returns : Returns (AccessService.workspace userId slug action) env s entered s₁) :
  entered.id ≠ w
  := by
  unfold AccessService.workspace Users.get Workspaces.bySlug Members.get at returns
  simp only [returns_bind, returns_select, returns_check, returns_refuseUnless] at returns
  obtain ⟨_, _, ⟨_, rfl⟩, _, _, ⟨_, rfl⟩, _, _, ⟨_, rfl⟩, _, _, ⟨_, rfl⟩, workspace, _, ⟨_, rfl⟩,
    member, _, ⟨hmember, rfl⟩, _, _, ⟨hsome, rfl⟩, rest⟩ := returns
  obtain rfl : workspace = entered := by
    cases action with
    | none =>
        simp only [returns_bind, returns_pure, returns_refuseUnless] at rest
        obtain ⟨_, _, _, _, _, _, hentered, _⟩ := rest
        exact hentered
    | some action =>
        simp only [returns_bind, returns_pure, returns_refuseUnless] at rest
        obtain ⟨_, _, _, _, _, _, hentered, _⟩ := rest
        exact hentered
  intro hid
  rw [← hmember, hid, hs, h.outside] at hsome
  cases hsome

/-! ### Products -/

/-- A product of another workspace has the same images. -/
theorem withImages (h : Hidden w userId db db') {row : ProductRow} (hr : row ∈ db.products)
    (hw : row.workspaceId ≠ w) :
  db'.withImages row = db.withImages row
  := by
  have only : ∀ {d : Db}, d.Catalogued → row ∈ d.products → ∀ image ∈ d.images,
      decide (image.productId = row.id) = true → image.workspaceId ≠ w := by
    intro d catalogued hrow image hi hid
    rw [catalogued.own (Table.mem_def.mp hrow) hi (of_decide_eq_true hid)]
    exact hw
  have rows := h.agree.images.rows_filter (only h.catalogued hr)
    (only h.catalogued' ((h.agree.products row hw).mpr hr))
  rw [Db.withImages, Db.withImages, Db.imagesOf, Db.imagesOf, rows]

theorem product (h : Hidden w userId db db') (hv : v ≠ w) (productId : String) :
  Indistinct env db db' (ProductTx.get v productId)
  := by
  have same : db'.product v productId = db.product v productId := by
    have row := h.agree.products.get_filter productId (fun r _ => only_of_ne hv r)
      fun r _ => only_of_ne hv r
    rw [Db.product, Db.product, row]
    refine Option.map_congr fun r hr => ?_
    obtain ⟨hget, hw⟩ := Option.filter_eq_some_iff.mp hr
    exact h.withImages (Table.get_eq_some_iff.mp hget).1 (only_of_ne hv r hw)
  unfold ProductTx.get Products.get
  exact .bind (.bind (.select same) fun _ => .bind (.touch _) fun _ => .pure _) fun _ => .check _

/-- The list of the products of another workspace. -/
theorem filtered (h : Hidden w userId db db') (hv : v ≠ w) (query : ProductFilter) :
  db'.filtered env v query = db.filtered env v query
  := by
  have only : ∀ row : ProductRow,
      (row.workspaceId = v && query.accepts env.foldCase row) = true → row.workspaceId ≠ w :=
    fun row hrow => only_of_ne hv row (Bool.and_eq_true_iff.mp hrow).1
  exact h.agree.products.rows_filter (fun row _ => only row) fun row _ => only row

/-- The products of another workspace, some of them listed with their images. -/
theorem map_withImages (h : Hidden w userId db db') (hv : v ≠ w) (query : ProductFilter)
    {rows : List ProductRow} (hrows : ∀ row ∈ rows, row ∈ db.filtered env v query) :
  rows.map db'.withImages = rows.map db.withImages
  := by
  refine List.map_congr_left fun row hr => ?_
  obtain ⟨hmem, hq⟩ := List.mem_filter.mp (hrows row hr)
  exact h.withImages (Table.mem_rows.mp hmem)
    (only_of_ne hv row (Bool.and_eq_true_iff.mp hq).1)

theorem page (h : Hidden w userId db db') (hv : v ≠ w) (query : ProductFilter) (page size : ℕ) :
  Indistinct env db db' (Products.page v query page size)
  := by
  unfold Products.page
  refine .bind .platform fun env => .select ?_
  dsimp only
  rw [h.filtered hv]
  cases Products.offsetSent (db.filtered env v query).length page size with
  | none => rfl
  | some offset =>
      have listed : ∀ row ∈
          ((ordered env query (db.filtered env v query)).drop offset.toNat).take size,
          row ∈ db.filtered env v query := fun row hr =>
        (List.perm_insertionSort _ _).mem_iff.mp (List.mem_of_mem_drop (List.mem_of_mem_take hr))
      exact congrArg (·, (db.filtered env v query).length) (h.map_withImages hv query listed)

theorem after (h : Hidden w userId db db') (hv : v ≠ w) (codec : CursorCodec)
    (query : ProductFilter) (cursor : Option String) (size : ℕ) :
  Indistinct env db db' (Products.after codec v query cursor size)
  := by
  -- What is listed is a part of the products of the workspace, whatever the cursor says.
  have listed : ∀ (env : Env) (p : ProductRow → Bool) (n : ℕ),
      ∀ row ∈ (ordered env query ((db.filtered env v query).filter p)).take n,
        row ∈ db.filtered env v query := fun env p n row hr =>
    (List.mem_filter.mp ((List.perm_insertionSort _ _).mem_iff.mp (List.mem_of_mem_take hr))).1
  unfold Products.after
  refine .bind .platform fun env => ?_
  cases cursor.filter (· ≠ "") with
  | none =>
      refine .bind (.pure none) fun boundary => .select ?_
      dsimp only
      rw [h.filtered hv, h.map_withImages hv query (listed env _ (size + 1)),
        h.map_withImages hv query fun row hr => listed env _ (size + 1) row (List.mem_of_mem_take hr)]
  | some cursor =>
      refine .bind (.check _) fun boundary => .bind (.pure (some boundary)) fun boundary => .select ?_
      dsimp only
      rw [h.filtered hv, h.map_withImages hv query (listed env _ (size + 1)),
        h.map_withImages hv query fun row hr => listed env _ (size + 1) row (List.mem_of_mem_take hr)]

end Hidden

/-- What an account may read: the workspaces that it can enter, those it belongs to, a workspace
of any id, its own profile, and the products of a workspace that it was let into. -/
inductive Read (env : Env) (s : Session) (userId : String) : {α : Type} → Tx α → Prop
  | workspace (slug : String) (action : Option String) :
      Read env s userId (AccessService.workspace userId slug action)
  | listMine : Read env s userId (WorkspaceTx.listMine userId)
  | get (workspaceId : String) : Read env s userId (WorkspaceTx.get workspaceId userId)
  | roles (workspaceId : String) : Read env s userId (WorkspaceTx.roles workspaceId userId)
  | members (workspaceId : String) : Read env s userId (WorkspaceTx.members workspaceId userId)
  | invitations (workspaceId : String) :
      Read env s userId (WorkspaceTx.invitations workspaceId userId)
  | permissionCatalog (workspaceId : String) :
      Read env s userId (WorkspaceTx.permissionCatalog workspaceId userId)
  | profile : Read env s userId (AccountTx.profile userId)
  | product {slug : String} {action : Option String} {workspace : Workspace} {s₁ : Session}
      (entered : Returns (AccessService.workspace userId slug action) env s workspace s₁)
      (productId : String) :
      Read env s userId (ProductTx.get workspace.id productId)
  | page {slug : String} {action : Option String} {workspace : Workspace} {s₁ : Session}
      (entered : Returns (AccessService.workspace userId slug action) env s workspace s₁)
      (query : ProductFilter) (page size : ℕ) :
      Read env s userId (Products.page workspace.id query page size)
  | after {slug : String} {action : Option String} {workspace : Workspace} {s₁ : Session}
      (entered : Returns (AccessService.workspace userId slug action) env s workspace s₁)
      (codec : CursorCodec) (query : ProductFilter) (cursor : Option String) (size : ℕ) :
      Read env s userId (Products.after codec workspace.id query cursor size)

section Privacy

variable {env : Env} {ok ok' : Work → Prop} {s s' : Session} {w userId : String}

/-- Reachable sessions that differ in the rows of a workspace only. -/
theorem Reachable.hidden (reachable : Reachable env ok s) (reachable' : Reachable env ok' s')
    (agree : Agree w s.db s'.db) (users : s'.db.users = s.db.users)
    (outside : s.db.member w userId = none) (outside' : s'.db.member w userId = none) :
  Hidden w userId s.db s'.db
  := ⟨agree, users, outside, outside', reachable.references, reachable'.references,
    reachable.unique, reachable'.unique, reachable.catalogued, reachable'.catalogued⟩

/-- Whatever an account reads, it has the same answer, or the same error, in two reachable
sessions that differ only in the rows of a workspace that it is not a member of. -/
theorem read_private (reachable : Reachable env ok s) (reachable' : Reachable env ok' s')
    (agree : Agree w s.db s'.db) (users : s'.db.users = s.db.users)
    (outside : s.db.member w userId = none) (outside' : s'.db.member w userId = none)
    {α : Type} {x : Tx α} (read : Read env s userId x) :
  (x.run env s).1 = (x.run env s').1
  := by
  have h := reachable.hidden reachable' agree users outside outside'
  have indistinct : Indistinct env s.db s'.db x := by
    cases read with
    | workspace slug action => exact h.workspace slug action
    | listMine => exact h.listMine
    | get workspaceId => exact h.get workspaceId
    | roles workspaceId => exact h.roles workspaceId
    | members workspaceId => exact h.members workspaceId
    | invitations workspaceId => exact h.invitations workspaceId
    | permissionCatalog workspaceId => exact h.permissionCatalog workspaceId
    | profile => exact h.profile
    | product entered productId => exact h.product (h.ne_of_workspace rfl entered) productId
    | page entered query page size => exact h.page (h.ne_of_workspace rfl entered) query page size
    | after entered codec query cursor size =>
        exact h.after (h.ne_of_workspace rfl entered) codec query cursor size
  exact (indistinct s s' rfl rfl).1

/-- Eve, who belongs to no workspace, looks for a workspace at the slug that another workspace
has given itself meanwhile. -/
theorem read_private_of_rename :
  ∃ s s', Agree "i" s.db s'.db ∧ s'.db.workspaces.get "i" ≠ s.db.workspaces.get "i"
    ∧ ((AccessService.workspace "eve" "zeta" none).run .sample s).1
      = ((AccessService.workspace "eve" "zeta" none).run .sample s').1
  := by
  let work : Work := .update "i" "Zeta" "zeta" "ada"
  obtain ⟨s, s₁, reachable, returns, unique, changed, outside, outside'⟩ :
      ∃ s s₁, Reachable .sample (fun _ => True) s ∧ Returns work.body .sample s () s₁
        ∧ s₁.db.Unique ∧ s₁.db.workspaces.get "i" ≠ s.db.workspaces.get "i"
        ∧ s.db.member "i" "eve" = none ∧ s₁.db.member "i" "eve" = none :=
    ⟨.after .sample [.register "ada" "ada@acme.test" "Ada" none,
      .register "eve" "eve@acme.test" "Eve" none, .create "Acme" "acme" "ada"], _,
      .after (by simp), Work.returns_of_ok (by decide +kernel), by decide +kernel,
      by decide +kernel, by decide +kernel, by decide +kernel⟩
  have reachable' : Reachable .sample (fun _ => True) s₁.done :=
    .commit reachable trivial returns unique
  have effect : Effect .sample s s₁ (.update "i" "Zeta" "zeta" "ada") := (Work.effect returns).1
  have agree : Agree "i" s.db s₁.db :=
    (effect.isolated rfl reachable.references reachable.catalogued).rows
  have users : s₁.db.users = s.db.users := by
    cases effect with
    | update _ _ _ _ db => rw [db]
  exact ⟨s, s₁.done, agree, changed, read_private reachable reachable' agree users outside outside'
    (.workspace "zeta" none)⟩

end Privacy

end MvpApi
