import MvpApi.Runs.Catalogue
import MvpApi.Runs.Removals
import MvpApi.Runs.Work

/-!
# Taking the transactions apart

A transaction that returns has the effect `Effect` says. The bodies are taken apart one
step at a time, from the first on: each step that has returned leaves the fact it has
checked, and the session it has ended in. What the transactions on products return, and those
that give up files, has been said before.
-/

set_option autoImplicit false

namespace MvpApi

open Exec Tx

variable {env : Env} {s s' : Session}

@[simp]
theorem Tx.returns_run' {α : Type} {x : Tx α} {u : Unit} :
  Returns x.run' env s u s' ↔ ∃ a, Returns x env s a s'
  := by
  simp [Tx.run']

/-- Joining with an invitation that can be accepted. -/
theorem joinWithInvitation_effect {token userId : String} {view : WorkspaceView}
    (h : Returns (joinWithInvitation token userId) env s view s') :
  Joins env token userId s s' ∧ Later s s'
  := by
  unfold joinWithInvitation Users.get Workspaces.lock Workspaces.get Members.get Invitations.save
    Users.save at h
  simp only [returns_bind, returns_require, returns_usableInvitation, returns_platform,
    returns_select, returns_check, existing_eq_ok, Invitation.ensureAddressedTo_eq_ok,
    returns_touch, returns_pure, found_eq_ok, returns_configurableRole, returns_refuseUnless,
    returns_now, Invitation.accept_eq_ok, returns_write, Members.returns_add, returns_flush,
    returns_workspaceView] at h
  obtain ⟨_, _, ⟨hallowed, rfl⟩, invitation, _, ⟨hfind, _, rfl⟩, h⟩ := h
  obtain ⟨_, _, ⟨rfl, rfl⟩, _, _, ⟨rfl, rfl⟩, user, _, ⟨huser, rfl⟩, h⟩ := h
  obtain ⟨_, _, ⟨haddressed, rfl⟩, _, _, ⟨_, _, ⟨rfl, rfl⟩, _, _, rfl, rfl, rfl⟩, h⟩ := h
  obtain ⟨workspace, _, ⟨hlive, rfl⟩, role, _, ⟨hrole, hown, hprotected, rfl⟩, h⟩ := h
  obtain ⟨_, _, ⟨rfl, rfl⟩, _, _, ⟨houtside, rfl⟩, _, _, ⟨rfl, rfl⟩, h⟩ := h
  obtain ⟨_, _, ⟨⟨husable, _, rfl⟩, rfl⟩, _, _, rfl, _, _, ⟨rfl, rfl⟩, h⟩ := h
  obtain ⟨_, _, ⟨_, rfl⟩, _, _, rfl, _, _, ⟨_, rfl⟩, _, _, rfl, _⟩ := h
  obtain ⟨hmem, htoken⟩ := Table.mem_of_find?_eq_some hfind
  have hid : workspace.id = invitation.workspaceId := (Db.live_eq_some.mp hlive).2.1
  rw [hid] at hown houtside
  have hlocked : (s.db.live invitation.workspaceId).isSome = true := by
    rw [show s.db.live invitation.workspaceId = some workspace from hlive]
    rfl
  refine ⟨.intro user invitation workspace role (s.ticks + 1) (env.clock (s.ticks + 2)) hallowed
    huser hmem (of_decide_eq_true htoken) (Nat.le_succ _) ?_ husable haddressed hlive hrole hown
    hprotected houtside ?_ ?_, ?_, le_refl _, le_refl _⟩
  · show s.ticks + 1 < s.ticks + 1 + 1 + 1
    omega
  · show s.touched ++ (if (s.db.live invitation.workspaceId).isSome then _ else _) = _
    rw [if_pos hlocked]
  · rw [← hid]
    rfl
  · show s.ticks ≤ s.ticks + 1 + 1 + 1
    omega

/-- The unique constraints hold after joining. -/
theorem Joins.unique {token userId : String} (h : Joins env token userId s s')
    (unique : s.db.Unique) :
  s'.db.Unique
  := by
  obtain ⟨user, invitation, _, _, _, _, _, account, stored, _, _, _, _, _, _, _, _, _, _, _, db⟩ := h
  rw [db]
  refine unique.rewrite (fun other hother => ?_) fun other hother => ?_
  · rcases Table.mem_put.mp hother with rfl | ⟨hother, _⟩
    · exact ⟨user, (Table.get_eq_some_iff.mp account).1, rfl, rfl⟩
    · exact ⟨other, hother, rfl, rfl⟩
  · rcases Table.mem_put.mp hother with rfl | ⟨hother, _⟩
    · exact ⟨invitation, stored, rfl, rfl⟩
    · exact ⟨other, hother, rfl, rfl⟩

/-! ### Joining that fails -/

/-- Somebody who is no member of a workspace can be added to it. -/
theorem not_raises_addMember {member : Member} {e : Failure}
    (free : s.db.members.get member.key = none) :
  ¬ Raises (Members.add member) env s e s'
  := ((Members.returns_add (u := ())).mpr ⟨free, rfl⟩).not_raises

theorem raises_usableInvitation {token : String} {e : Failure}
    (h : Raises (usableInvitation token) env s e s') :
  (∃ error, e = .domain error) ∧ s'.db = s.db ∧ s'.touched = s.touched ∧ Later s s'
  := by
  unfold usableInvitation Invitations.byToken at h
  simp only [raises_bind, not_raises_platform, not_raises_select, returns_bind, returns_platform,
    returns_select, raises_check, returns_check, not_raises_now, returns_now, not_raises_pure,
    false_or, and_false, exists_false, or_false] at h
  obtain ⟨_, _, ⟨_, _, ⟨rfl, rfl⟩, rfl, rfl⟩, ⟨_, _, he, rfl⟩ | ⟨_, _, ⟨_, rfl⟩, _, _, ⟨rfl, rfl⟩,
    _, _, he, rfl⟩⟩ := h
  · exact ⟨⟨_, he⟩, rfl, rfl, .refl s⟩
  · exact ⟨⟨_, he⟩, rfl, rfl, Nat.le_succ _, le_refl _, le_refl _⟩

theorem raises_configurableRole {workspaceId roleId : String} {e : Failure}
    (h : Raises (configurableRole workspaceId roleId) env s e s') :
  (∃ error, e = .domain error) ∧ s' = s
  := by
  unfold configurableRole Roles.get at h
  simp only [raises_bind, not_raises_select, returns_select, raises_check, returns_check,
    not_raises_pure, false_or, and_false, exists_false, or_false] at h
  obtain ⟨_, _, ⟨rfl, rfl⟩, ⟨_, _, he, rfl⟩ | ⟨_, _, ⟨_, rfl⟩, _, _, he, rfl⟩⟩ := h
  · exact ⟨⟨_, he⟩, rfl⟩
  · exact ⟨⟨_, he⟩, rfl⟩

/-- Only who does not belong to a workspace cannot see it. -/
theorem raises_workspaceView {workspace : Workspace} {userId : String} {e : Failure}
    (h : Raises (workspaceView workspace userId) env s e s') :
  s.db.member workspace.id userId = none ∧ s' = s
  := by
  cases hm : s.db.member workspace.id userId with
  | none =>
      unfold workspaceView Members.get at h
      simp only [raises_bind, not_raises_select, returns_select, hm, raises_check, returns_check,
        workspaceView.member?_eq_ok, false_or] at h
      obtain ⟨_, _, ⟨rfl, rfl⟩, ⟨_, _, _, rfl⟩ | ⟨_, _, ⟨hnone, _⟩, _⟩⟩ := h
      · exact ⟨rfl, rfl⟩
      · cases hnone
  | some member =>
      exact absurd h (returns_workspaceView.mpr ⟨member, hm, rfl, rfl⟩).not_raises

/-- Joining that fails does so with an error of the domain, and leaves the rows as they were, if
the unique constraints hold. -/
theorem joinWithInvitation_raises {token userId : String} {e : Failure}
    (h : Raises (joinWithInvitation token userId) env s e s') :
  ((∃ error, e = .domain error) ∧ s'.db = s.db
      ∧ (s'.touched = s.touched ∨ ∃ id, s'.touched = s.touched ++ [.workspace id]) ∧ Later s s')
    ∨ e = .duplicate ∧ ¬ s.db.Unique
  := by
  have locked : ∀ (b : Bool) (id : String),
      (s.touched ++ if b = true then [RowId.workspace id] else []) = s.touched
        ∨ ∃ id', (s.touched ++ if b = true then [RowId.workspace id] else [])
            = s.touched ++ [.workspace id'] := by
    intro b id
    cases b with
    | false => exact Or.inl (List.append_nil _)
    | true => exact Or.inr ⟨id, rfl⟩
  unfold joinWithInvitation Users.get Workspaces.lock Workspaces.get Members.get Invitations.save
    Users.save at h
  simp only [raises_bind, returns_bind, returns_require, returns_usableInvitation,
    returns_platform, not_raises_platform, returns_select, not_raises_select, returns_check,
    raises_check, existing_eq_ok, Invitation.ensureAddressedTo_eq_ok, returns_touch,
    not_raises_touch, returns_pure, not_raises_pure, found_eq_ok, returns_configurableRole,
    returns_refuseUnless, raises_refuseUnless, returns_now, not_raises_now,
    Invitation.accept_eq_ok, returns_write, not_raises_write, Members.returns_add,
    returns_flush, raises_flush, false_or, or_false, and_false, exists_false] at h
  obtain h | ⟨_, _, ⟨_, rfl⟩, h⟩ := h
  · obtain ⟨rfl, error, he, _⟩ := raises_require h
    exact Or.inl ⟨⟨error, he⟩, rfl, Or.inl rfl, .refl _⟩
  obtain h | ⟨invitation, _, ⟨hfind, _, rfl⟩, _, _, ⟨rfl, rfl⟩, _, _, ⟨rfl, rfl⟩, h⟩ := h
  · obtain ⟨he, hdb, ht, hl⟩ := raises_usableInvitation h
    exact Or.inl ⟨he, hdb, Or.inl ht, hl⟩
  obtain ⟨_, _, he, rfl⟩ | ⟨user, _, ⟨huser, rfl⟩, h⟩ := h
  · exact Or.inl ⟨⟨_, he⟩, rfl, Or.inl rfl, Nat.le_succ _, le_refl _, le_refl _⟩
  obtain ⟨_, _, he, rfl⟩ | ⟨_, _, ⟨_, rfl⟩, _, _, ⟨_, _, ⟨rfl, rfl⟩, _, _, rfl, rfl, rfl⟩, h⟩ := h
  · exact Or.inl ⟨⟨_, he⟩, rfl, Or.inl rfl, Nat.le_succ _, le_refl _, le_refl _⟩
  obtain ⟨_, _, he, rfl⟩ | ⟨workspace, _, ⟨hlive, rfl⟩, h⟩ := h
  · exact Or.inl ⟨⟨_, he⟩, rfl, locked _ _, Nat.le_succ _, le_refl _, le_refl _⟩
  obtain h | ⟨role, _, ⟨_, _, _, rfl⟩, _, _, ⟨rfl, rfl⟩, h⟩ := h
  · obtain ⟨he, rfl⟩ := raises_configurableRole h
    exact Or.inl ⟨he, rfl, locked _ _, Nat.le_succ _, le_refl _, le_refl _⟩
  obtain ⟨_, he, rfl⟩ | ⟨_, _, ⟨houtside, rfl⟩, _, _, ⟨rfl, rfl⟩, h⟩ := h
  · exact Or.inl ⟨⟨_, he.symm⟩, rfl, locked _ _, Nat.le_succ _, le_refl _, le_refl _⟩
  obtain ⟨_, _, he, rfl⟩ | ⟨accepted, _, ⟨⟨_, _, haccepted⟩, rfl⟩, _, _, rfl, _, _, ⟨rfl, rfl⟩, h⟩ :=
    h
  · refine Or.inl ⟨⟨_, he⟩, rfl, locked _ _, ?_, le_refl _, le_refl _⟩
    show s.ticks ≤ s.ticks + 1 + 1
    omega
  -- Once the member is added, what fails is the database, or nothing.
  obtain h | ⟨_, _, ⟨_, rfl⟩, _, _, rfl, ⟨hviolates, he, _⟩ | ⟨_, _, ⟨_, rfl⟩, h⟩⟩ := h
  · exact absurd h (not_raises_addMember (by exact houtside))
  · refine Or.inr ⟨he.symm, fun unique => hviolates ?_⟩
    obtain ⟨hstored, _⟩ := Table.mem_of_find?_eq_some hfind
    refine unique.rewrite (fun other hother => ?_) fun other hother => ?_
    · rcases Table.mem_put.mp hother with rfl | ⟨hother, _⟩
      · exact ⟨user, (Table.get_eq_some_iff.mp huser).1, rfl, rfl⟩
      · exact ⟨other, hother, rfl, rfl⟩
    · rcases Table.mem_put.mp hother with rfl | ⟨hother, _⟩
      · exact ⟨invitation, hstored, by rw [haccepted], by rw [haccepted]⟩
      · exact ⟨other, hother, rfl, rfl⟩
  · obtain ⟨hnone, _⟩ := raises_workspaceView h
    have hadded := Table.get_put_self s.db.members
      (Member.join workspace.id userId invitation.roleId (env.clock (s.ticks + 1 + 1)))
    exact absurd (hadded.symm.trans hnone) (by simp)

namespace WorkspaceTx

theorem create_effect {name slug userId : String} {view : WorkspaceView}
    (h : Returns (create name slug userId) env s view s') :
  Effect env s s' (.create name slug userId) ∧ Later s s'
  := by
  unfold create Users.get Users.save Members.ownerIds at h
  simp only [returns_bind, returns_require, returns_select, returns_check, existing_eq_ok,
    returns_newId, returns_now, Workspace.create_eq_ok, Workspaces.returns_add, returns_write,
    returns_flush, Workspace.ensureSingleOwner_eq_ok, returns_workspaceView] at h
  obtain ⟨_, _, ⟨hallowed, rfl⟩, _, _, ⟨rfl, rfl⟩, user, _, ⟨huser, rfl⟩, h⟩ := h
  obtain ⟨_, _, ⟨rfl, rfl⟩, _, _, ⟨rfl, rfl⟩, workspace, _, ⟨⟨hnamed, hshape⟩, rfl⟩, h⟩ := h
  obtain ⟨_, _, ⟨hfresh, rfl⟩, _, s₁, hadd, _, _, rfl, h⟩ := h
  obtain ⟨_, _, ⟨hunique, rfl⟩, _, _, ⟨rfl, rfl⟩, _, _, ⟨_, rfl⟩, _, _, rfl, _⟩ := h
  obtain ⟨new, roles', rolePermissions', members', hnew, hroles, hkept, hgranted, howner, hdb, ht,
    hlater⟩ := returns_addSystemRoles hadd
  have hlater' : Later s s₁ :=
    ⟨(Nat.le_succ _).trans hlater.ticks, (Nat.le_succ _).trans hlater.ids, hlater.tokens⟩
  obtain ⟨owner, hmem, hname, hfree, joinedAt, rfl⟩ := howner.exists hnew
  refine ⟨.create user workspace new roles' rolePermissions' owner joinedAt hallowed huser hnamed
    ⟨_, _, hshape⟩ hfresh hnew hroles hkept hgranted hmem hname hfree ht ?_ hunique,
    hlater'.ticks, hlater'.ids, hlater'.tokens⟩
  rw [Session.write_db, hdb]
  rfl

theorem update_effect {workspaceId name slug userId : String} {view : WorkspaceView}
    (h : Returns (update workspaceId name slug userId) env s view s') :
  Effect env s s' (.update workspaceId name slug userId) ∧ Later s s'
  := by
  unfold update Workspaces.save at h
  simp only [returns_bind, returns_locked, returns_require, returns_write, returns_flush,
    returns_workspaceView] at h
  obtain ⟨workspace, _, ⟨hlive, rfl⟩, _, _, ⟨hallowed, rfl⟩, _, _, rfl, _, _, ⟨_, rfl⟩, _, _,
    rfl, _⟩ := h
  exact ⟨.update workspace hlive hallowed rfl rfl, le_refl _, le_refl _, le_refl _⟩

theorem replaceLogo_effect {workspaceId userId : String} {key url : Option String}
    {result : WorkspaceView × Option String}
    (h : Returns (replaceLogo workspaceId key url userId) env s result s') :
  Effect env s s' (.replaceLogo workspaceId key url userId) ∧ Later s s'
  := by
  obtain ⟨workspace, hlive, hallowed, _, rfl⟩ := returns_replaceLogo h
  exact ⟨.replaceLogo workspace hlive hallowed rfl rfl, le_refl _, le_refl _, le_refl _⟩

theorem delete_effect {workspaceId userId : String} {u : Unit}
    (h : Returns (delete workspaceId userId) env s u s') :
  Effect env s s' (.delete workspaceId userId) ∧ Later s s'
  := by
  unfold delete Members.userIds Members.removeAll Invitations.revokePending Workspaces.save at h
  simp only [returns_bind, returns_locked, returns_require, returns_select, returns_write,
    returns_now, returns_newId, returns_flush, returns_returnToWorkspaceStep] at h
  obtain ⟨workspace, _, ⟨hlive, rfl⟩, _, _, ⟨hallowed, rfl⟩, _, _, ⟨rfl, rfl⟩, h⟩ := h
  obtain ⟨_, _, rfl, _, _, rfl, _, _, ⟨rfl, rfl⟩, _, _, ⟨rfl, rfl⟩, h⟩ := h
  obtain ⟨_, _, rfl, _, _, ⟨_, rfl⟩, rfl⟩ := h
  refine ⟨.delete workspace _ _ _ hlive hallowed ?_ rfl rfl, Nat.le_succ _, Nat.le_succ _,
    le_refl _⟩
  intro id
  simp only [List.mem_map, List.mem_filter, Table.mem_rows, decide_eq_true_eq]
  rw [Db.member, Option.isSome_iff_exists]
  simp only [Table.get_eq_some_iff, Member.key, pair_inj]
  constructor
  · rintro ⟨member, ⟨hm, hw⟩, hu⟩
    exact ⟨member, hm, hw, hu⟩
  · rintro ⟨member, hm, hw, hu⟩
    exact ⟨member, ⟨hm, hw⟩, hu⟩

theorem saveRole_effect {workspaceId name userId : String} {roleId : Option String}
    {view : RoleView} (h : Returns (saveRole workspaceId roleId name userId) env s view s') :
  Effect env s s' (.saveRole workspaceId roleId name userId) ∧ Later s s'
  := by
  unfold saveRole Roles.save at h
  cases roleId with
  | none =>
      simp only [returns_bind, returns_locked, returns_require, returns_check,
        ensureAssignableRoleName_eq_ok, returns_newId, Role.custom_eq_ok, returns_pure,
        returns_flush, returns_roleView] at h
      obtain ⟨workspace, _, ⟨hlive, rfl⟩, _, _, ⟨hallowed, rfl⟩, _, _, ⟨hname, rfl⟩, _, _,
        ⟨rfl, rfl⟩, _, _, ⟨⟨_, rfl⟩, rfl⟩, _, _, hadd, _, _, ⟨rfl, rfl⟩, _, _, ⟨_, rfl⟩, _, rfl⟩ := h
      obtain ⟨hfresh, rfl⟩ := Roles.returns_add hadd
      exact ⟨.addRole workspace _ hlive hallowed hname hfresh rfl rfl, le_refl _, Nat.le_succ _,
        le_refl _⟩
  | some roleId =>
      simp only [returns_bind, returns_locked, returns_require, returns_check,
        ensureAssignableRoleName_eq_ok, returns_configurableRole, Role.rename_eq_ok, returns_pure,
        returns_write, returns_flush, returns_roleView] at h
      obtain ⟨workspace, _, ⟨hlive, rfl⟩, _, _, ⟨hallowed, rfl⟩, _, _, ⟨hname, rfl⟩, role, _,
        ⟨hrole, hown, hprotected, rfl⟩, _, _, ⟨⟨_, rfl⟩, rfl⟩, _, _, rfl, _, _, ⟨rfl, rfl⟩, _, _,
        ⟨_, rfl⟩, _, rfl⟩ := h
      exact ⟨.renameRole workspace role hlive hallowed hname hrole hown hprotected rfl rfl,
        le_refl _, le_refl _, le_refl _⟩

theorem deleteRole_effect {workspaceId roleId userId : String} {u : Unit}
    (h : Returns (deleteRole workspaceId roleId userId) env s u s') :
  Effect env s s' (.deleteRole workspaceId roleId userId) ∧ Later s s'
  := by
  unfold deleteRole Roles.isInUse Invitations.deleteForRole Roles.delete at h
  simp only [returns_bind, returns_locked, returns_require, returns_configurableRole,
    returns_now, returns_select, returns_refuseUnless, returns_write] at h
  obtain ⟨workspace, _, ⟨hlive, rfl⟩, _, _, ⟨hallowed, rfl⟩, role, _, ⟨hrole, hown, hprotected, rfl⟩,
    inUse, _, ⟨_, _, ⟨rfl, rfl⟩, hinUse, rfl⟩, _, _, ⟨hfree, rfl⟩, _, _, rfl, rfl⟩ := h
  obtain rfl : role.id = roleId := (Table.get_eq_some_iff.mp hrole).2
  rw [hfree, Bool.or_eq_false_iff, Table.any_eq_false, Table.any_eq_false] at hinUse
  refine ⟨.deleteRole workspace role (env.clock s.ticks) hlive hallowed hrole hown hprotected ?_ ?_
    rfl rfl, Nat.le_succ _, le_refl _, le_refl _⟩
  · intro member hmember
    simpa using hinUse.1 member hmember
  · intro invitation hinvitation hid husable
    simpa [hid, husable.1, husable.2] using hinUse.2 invitation hinvitation

theorem setPermissions_effect {workspaceId roleId userId : String} {permissions : List String}
    {u : Unit} (h : Returns (setPermissions workspaceId roleId permissions userId) env s u s') :
  Effect env s s' (.setPermissions workspaceId roleId permissions userId) ∧ Later s s'
  := by
  unfold setPermissions Roles.replacePermissions at h
  simp only [returns_bind, returns_locked, returns_require, returns_configurableRole,
    returns_check, validatePermissions_eq_ok, returns_select, returns_touch, returns_write] at h
  obtain ⟨workspace, _, ⟨hlive, rfl⟩, _, _, ⟨hallowed, rfl⟩, role, _, ⟨hrole, hown, hprotected, rfl⟩,
    _, _, ⟨⟨howner, hcatalog, rfl⟩, rfl⟩, _, _, ⟨rfl, rfl⟩, _, _, rfl, _, _, rfl, hgrant⟩ := h
  obtain rfl := Roles.returns_grant hgrant
  refine ⟨.setPermissions workspace role hlive hallowed hrole hown hprotected ?_ rfl rfl,
    le_refl _, le_refl _, le_refl _⟩
  intro action haction
  exact ⟨hcatalog action haction, fun ho => howner action ho haction⟩

theorem setMemberRole_effect {workspaceId memberId roleId userId : String} {u : Unit}
    (h : Returns (setMemberRole workspaceId memberId roleId userId) env s u s') :
  Effect env s s' (.setMemberRole workspaceId memberId roleId userId) ∧ Later s s'
  := by
  unfold setMemberRole Members.get Members.save Members.ownerIds at h
  simp only [returns_bind, returns_locked, returns_require, returns_configurableRole,
    returns_check, Workspace.ensureNotTheOwner_eq_ok, returns_select, found_eq_ok, returns_write,
    returns_flush, Workspace.ensureSingleOwner_eq_ok] at h
  obtain ⟨workspace, _, ⟨hlive, rfl⟩, _, _, ⟨hallowed, rfl⟩, role, _,
    ⟨hrole, hown, hprotected, rfl⟩, h⟩ := h
  obtain ⟨_, _, ⟨hnot, rfl⟩, _, _, ⟨rfl, rfl⟩, member, _, ⟨hmember, rfl⟩, h⟩ := h
  obtain ⟨_, _, rfl, _, _, ⟨_, rfl⟩, _, _, ⟨_, rfl⟩, _, rfl⟩ := h
  obtain rfl : role.id = roleId := (Table.get_eq_some_iff.mp hrole).2
  exact ⟨.setMemberRole workspace role member hlive hallowed hrole hown hprotected hnot hmember
    rfl rfl, le_refl _, le_refl _, le_refl _⟩

theorem removeMember_effect {workspaceId memberId userId : String} {u : Unit}
    (h : Returns (removeMember workspaceId memberId userId) env s u s') :
  Effect env s s' (.removeMember workspaceId memberId userId) ∧ Later s s'
  := by
  unfold removeMember Members.get Members.delete Members.ownerIds at h
  simp only [returns_bind, returns_locked, returns_require, returns_check,
    Workspace.ensureNotTheOwner_eq_ok, returns_select, found_eq_ok, returns_write,
    returns_flush, Workspace.ensureSingleOwner_eq_ok, returns_returnToWorkspaceStep] at h
  obtain ⟨workspace, _, ⟨hlive, rfl⟩, _, _, ⟨hallowed, rfl⟩, _, _, ⟨hnot, rfl⟩, h⟩ := h
  obtain ⟨_, _, ⟨rfl, rfl⟩, member, _, ⟨hmember, rfl⟩, _, _, rfl, h⟩ := h
  obtain ⟨_, _, ⟨_, rfl⟩, _, _, ⟨_, rfl⟩, _, _, ⟨_, rfl⟩, rfl⟩ := h
  have hkey : member.key = pair workspaceId memberId := (Table.get_eq_some_iff.mp hmember).2
  refine ⟨.removeMember workspace member hlive hallowed hnot hmember rfl ?_,
    le_refl _, le_refl _, le_refl _⟩
  rw [← hkey]
  rfl

/-- The role named `admin` is one of the workspace, or is added to it. -/
theorem returns_admin {workspaceId : String} {role : Role}
    (h : Returns (admin workspaceId) env s role s') :
  ∃ roles' rolePermissions',
    (role.workspaceId = workspaceId ∧ role.name = adminRole)
    ∧ ((role ∈ s.db.roles ∧ roles' = s.db.roles ∧ rolePermissions' = s.db.rolePermissions)
      ∨ (s.db.roles.get role.id = none ∧ role = .system role.id workspaceId adminRole
        ∧ roles' = s.db.roles.put role
        ∧ rolePermissions' = granted s.db.rolePermissions role.id adminPermissions))
    ∧ s'.db = { s.db with roles := roles', rolePermissions := rolePermissions' }
    ∧ s'.touched = s.touched ∧ Later s s'
  := by
  unfold admin Roles.byName at h
  simp only [returns_bind, returns_select] at h
  obtain ⟨found, _, ⟨hfound, rfl⟩, h⟩ := h
  cases found with
  | some role' =>
      obtain ⟨rfl, rfl⟩ := returns_pure.mp h
      obtain ⟨hmem, hp⟩ := Table.mem_of_find?_eq_some hfound
      simp only [Bool.and_eq_true, decide_eq_true_eq] at hp
      exact ⟨_, _, hp, Or.inl ⟨hmem, rfl, rfl⟩, rfl, rfl, .refl _⟩
  | none =>
      simp only [returns_bind, returns_newId, returns_pure] at h
      obtain ⟨_, _, ⟨rfl, rfl⟩, _, _, hadd, rfl, rfl⟩ := h
      obtain ⟨hfree, rfl⟩ := Roles.returns_add hadd
      exact ⟨_, _, ⟨rfl, rfl⟩, Or.inr ⟨hfree, rfl, rfl, rfl⟩, rfl, rfl, le_refl _, Nat.le_succ _,
        le_refl _⟩

theorem transfer_effect {workspaceId targetId userId : String} {u : Unit}
    (h : Returns (transfer workspaceId targetId userId) env s u s') :
  Effect env s s' (.transfer workspaceId targetId userId) ∧ Later s s'
  := by
  unfold transfer Members.get Members.save Workspaces.save Members.ownerIds at h
  simp only [returns_bind, returns_locked, returns_require, returns_refuseUnless,
    returns_select, returns_check, found_eq_ok, returns_write, returns_flush,
    Workspace.ensureSingleOwner_eq_ok] at h
  obtain ⟨workspace, _, ⟨hlive, rfl⟩, _, _, ⟨hallowed, rfl⟩, _, _, ⟨hdistinct, rfl⟩, h⟩ := h
  obtain ⟨_, _, ⟨rfl, rfl⟩, _, _, ⟨rfl, rfl⟩, target, _, ⟨htarget, rfl⟩, h⟩ := h
  obtain ⟨previous, _, ⟨hprevious, rfl⟩, role, s₁, hadmin, _, _, rfl, h⟩ := h
  obtain ⟨_, _, rfl, _, _, rfl, _, _, ⟨hunique, rfl⟩, _, _, ⟨_, rfl⟩, _, rfl⟩ := h
  obtain ⟨roles', rolePermissions', hshape, hmem, hdb, ht, hlater⟩ := returns_admin hadmin
  refine ⟨.transfer workspace target previous role roles' rolePermissions' hlive hallowed hdistinct
    htarget hprevious hshape hmem ht ?_ hunique, hlater.ticks, hlater.ids, hlater.tokens⟩
  simp only [Session.write_db, hdb]
  rfl

/-- What an invitation that is issued was issued for, and what it is. -/
structure Issued (env : Env) (s : Session) (workspaceId email roleId userId : String)
    (workspace : Workspace) (invitation : Invitation) (token : String) (s' : Session) : Prop where
  live : s.db.live workspaceId = some workspace
  allowed : s.db.Allows userId "members.invite" workspaceId
  role : ∃ role, s.db.roles.get roleId = some role ∧ role.workspaceId = workspaceId
    ∧ role.isProtected = false
    ∧ (role.IsDefaultMember ∨ s.db.permits userId "roles.manage" workspaceId = true)
  not_member : ∀ member ∈ s.db.members, member.workspaceId = workspaceId →
    ∀ user, s.db.users.get member.userId = some user → user.email ≠ env.lower email
  not_invited : ∀ invitation ∈ s.db.invitations, invitation.workspaceId = workspaceId →
    invitation.email = env.lower email → ¬ invitation.Usable (env.clock s.ticks)
  shape : invitation = .issue env (env.uuid7 s.ids) token workspaceId email roleId userId
    (env.clock (s.ticks + 1))
  fresh : s.db.invitations.get invitation.id = none
  locked : s'.touched = s.touched ++ [.workspace workspaceId]
  db : s'.db = { s.db with invitations := s.db.invitations.put invitation }
  ticks : s'.ticks = s.ticks + 2
  ids : s'.ids = s.ids + 1
  tokens : s'.tokens = s.tokens + 1

theorem issued {workspaceId email roleId userId token : String} {workspace : Workspace}
    {invitation : Invitation}
    (h : Returns (issue workspaceId email roleId userId) env s (workspace, invitation, token) s') :
  Issued env s workspaceId email roleId userId workspace invitation token s'
  := by
  unfold issue Members.hasEmail Invitations.hasPending at h
  simp only [returns_bind, returns_locked, returns_require, returns_configurableRole,
    returns_permits, returns_check, Role.ensureInvitable_eq_ok, returns_platform,
    returns_select] at h
  obtain ⟨workspace, _, ⟨hlive, rfl⟩, _, _, ⟨hallowed, rfl⟩, role, _, ⟨hrole, hown, hprotected, rfl⟩,
    mayManage, _, ⟨rfl, rfl⟩, _, _, ⟨hinvitable, rfl⟩, hasEmail, _,
    ⟨_, _, ⟨rfl, rfl⟩, hmembers, rfl⟩, h⟩ := h
  split at h
  · simp only [returns_bind, returns_pure, returns_refuseUnless] at h
    obtain ⟨_, _, ⟨rfl, rfl⟩, _, _, ⟨hk, _⟩, _⟩ := h
    cases hk
  · next hno =>
      simp only [returns_bind, returns_platform, returns_select, returns_refuseUnless,
        returns_newToken, returns_now, returns_newId, Invitations.returns_add, returns_pure] at h
      obtain ⟨_, _, ⟨_, _, ⟨rfl, rfl⟩, _, _, ⟨rfl, rfl⟩, hpending, rfl⟩, h⟩ := h
      obtain ⟨_, _, ⟨rfl, rfl⟩, _, _, ⟨rfl, rfl⟩, token, _, ⟨_, rfl⟩, h⟩ := h
      obtain ⟨_, _, ⟨rfl, rfl⟩, _, _, ⟨rfl, rfl⟩, _, _, ⟨hfresh, rfl⟩, same, rfl⟩ := h
      cases same
      rw [Bool.not_eq_true] at hno
      subst hno
      refine ⟨hlive, hallowed, ⟨role, hrole, hown, hprotected, hinvitable⟩, ?_, ?_, rfl, hfresh, rfl,
        rfl, rfl, rfl, rfl⟩
      · intro member hmember hw user huser
        simpa [hw, huser] using Table.any_eq_false.mp hmembers member hmember
      · intro invitation hinvitation hw hemail husable
        simpa [hw, hemail, husable.1, husable.2] using
          Table.any_eq_false.mp hpending invitation hinvitation

theorem issue_effect {workspaceId email roleId userId : String}
    {result : Workspace × Invitation × String}
    (h : Returns (issue workspaceId email roleId userId) env s result s') :
  Effect env s s' (.issue workspaceId email roleId userId) ∧ Later s s'
  := by
  obtain ⟨workspace, invitation, token⟩ := result
  have h := issued h
  obtain ⟨role, hrole, hown, hprotected, hinvitable⟩ := h.role
  have ids : s.ids < s'.ids := by rw [h.ids]; exact Nat.lt_succ_self _
  have ticks : s.ticks + 1 < s'.ticks := by rw [h.ticks]; exact Nat.lt_succ_self _
  refine ⟨.issue workspace role invitation s.ids s.ticks (s.ticks + 1) token h.live h.allowed hrole
    hown hprotected hinvitable h.not_member h.not_invited (le_refl _) ⟨Nat.lt_succ_self _, ticks⟩
    (le_refl _) ids h.shape h.fresh h.locked h.db, (Nat.le_succ _).trans ticks.le, ids.le, ?_⟩
  rw [h.tokens]
  exact Nat.le_succ _

theorem revoke_effect {workspaceId invitationId userId : String} {u : Unit}
    (h : Returns (revoke workspaceId invitationId userId) env s u s') :
  Effect env s s' (.revoke workspaceId invitationId userId) ∧ Later s s'
  := by
  unfold revoke Invitations.get Invitations.save at h
  simp only [returns_bind, returns_locked, returns_require, returns_select, returns_check,
    found_eq_ok, Option.filter_eq_some_iff, decide_eq_true_eq, returns_now,
    Invitation.revoke_eq_ok, returns_write] at h
  obtain ⟨workspace, _, ⟨hlive, rfl⟩, _, _, ⟨hallowed, rfl⟩, _, _, ⟨rfl, rfl⟩, invitation, _,
    ⟨⟨hinvitation, hown⟩, rfl⟩, _, _, ⟨rfl, rfl⟩, _, _, ⟨⟨husable, rfl⟩, rfl⟩, rfl⟩ := h
  exact ⟨.revoke workspace invitation s.ticks hlive hallowed hinvitation hown husable rfl rfl,
    Nat.le_succ _, le_refl _, le_refl _⟩

end WorkspaceTx

namespace AccountTx

theorem rename_effect {userId displayName : String} {user : User}
    (h : Returns (rename userId displayName) env s user s') :
  Effect env s s' (.rename userId displayName) ∧ Later s s'
  := by
  unfold rename Users.get Members.belongsToAny Users.save at h
  simp only [returns_bind, returns_require, returns_select, returns_check, existing_eq_ok,
    returns_write, returns_pure] at h
  obtain ⟨_, _, ⟨hallowed, rfl⟩, _, _, ⟨rfl, rfl⟩, user, _, ⟨huser, rfl⟩, _, _, ⟨rfl, rfl⟩, _, _,
    rfl, _, rfl⟩ := h
  exact ⟨.rename user hallowed huser rfl rfl, le_refl _, le_refl _, le_refl _⟩

theorem replaceAvatar_effect {userId : String} {key url : Option String}
    {result : User × Option String} (h : Returns (replaceAvatar userId key url) env s result s') :
  Effect env s s' (.replaceAvatar userId key url) ∧ Later s s'
  := by
  obtain ⟨user, huser, _, rfl⟩ := returns_replaceAvatar h
  exact ⟨.replaceAvatar user huser rfl rfl, le_refl _, le_refl _, le_refl _⟩

theorem register_effect {sub email displayName : String} {invitationToken : Option String}
    {u : Unit} (h : Returns (register sub email displayName invitationToken) env s u s') :
  Effect env s s' (.register sub email displayName invitationToken) ∧ Later s s'
  := by
  unfold register Users.addUnlessTaken at h
  simp only [returns_bind, returns_platform, returns_now, returns_write, returns_flush] at h
  obtain ⟨_, _, ⟨rfl, rfl⟩, _, _, ⟨rfl, rfl⟩, _, _, rfl, _, _, ⟨_, rfl⟩, h⟩ := h
  have hlater : s.ticks ≤ s.ticks + 1 := Nat.le_succ _
  split at h
  · obtain ⟨_, rfl⟩ := returns_pure.mp h
    exact ⟨.register _ (Or.inl rfl) rfl, hlater, le_refl _, le_refl _⟩
  · next token htoken =>
      obtain ⟨rfl, _⟩ := Option.filter_eq_some_iff.mp htoken
      unfold swallowDomainErrors at h
      rcases returns_handle.mp h with h | ⟨e, s₁, y, hraises, hy, hreturns⟩
      · simp only [returns_bind, returns_pure] at h
        obtain ⟨view, _, hjoin, _, rfl⟩ := h
        obtain ⟨hjoins, hl⟩ := joinWithInvitation_effect hjoin
        refine ⟨.registerAndJoin (env.clock s.ticks) _ ?_ ?_ ⟨?_, ?_, ?_⟩ hjoins,
          hlater.trans hl.ticks, hl.ids, hl.tokens⟩
        · rfl
        · rfl
        · exact hlater
        · exact le_refl s.ids
        · exact le_refl s.tokens
      · -- A join that failed has not changed the rows.
        cases e with
        | domain error =>
            obtain rfl := Option.some.inj hy
            obtain ⟨_, rfl⟩ := returns_pure.mp hreturns
            simp only [raises_bind, not_raises_pure, and_false, exists_false, or_false] at hraises
            rcases joinWithInvitation_raises hraises with ⟨_, hdb, ht, hl⟩ | ⟨hdup, _⟩
            · exact ⟨.register _ ht hdb, hlater.trans hl.ticks, hl.ids, hl.tokens⟩
            · cases hdup
        | _ => cases hy

theorem ensureAccount_effect {sub email : String} {u : Unit}
    (h : Returns (ensureAccount sub email) env s u s') :
  Effect env s s' (.ensureAccount sub email) ∧ Later s s'
  := by
  unfold ensureAccount Users.addUnlessTaken at h
  simp only [returns_bind, returns_platform, returns_now, returns_write] at h
  obtain ⟨_, _, ⟨rfl, rfl⟩, _, _, ⟨rfl, rfl⟩, rfl⟩ := h
  exact ⟨.ensureAccount _ rfl rfl, Nat.le_succ _, le_refl _, le_refl _⟩

theorem delete_effect {userId : String} {user : User}
    (h : Returns (delete userId) env s user s') :
  Effect env s s' (.deleteAccount userId) ∧ Later s s'
  := by
  obtain ⟨hallowed, owns_none, huser, rfl⟩ := returns_delete h
  exact ⟨.deleteAccount user hallowed huser owns_none rfl rfl, le_refl _, le_refl _, le_refl _⟩

end AccountTx

namespace PurgeTx

theorem deleteBatch_effect {workspaceId : String} {result : ℕ × List String}
    (h : Returns (deleteBatch workspaceId productBatch) env s result s') :
  Effect env s s' (.deleteBatch workspaceId) ∧ Later s s'
  := by
  obtain ⟨_, rfl⟩ := returns_deleteBatch.mp h
  exact ⟨.deleteBatch rfl rfl, le_refl _, le_refl _, le_refl _⟩

theorem purgeRows_effect {workspaceId : String} {key : Option String}
    (h : Returns (purgeRows workspaceId) env s key s') :
  Effect env s s' (.purgeRows workspaceId) ∧ Later s s'
  := by
  obtain ⟨absent, _, rfl⟩ | ⟨workspace, hget, hdeleted, _, rfl⟩ := returns_purgeRows.mp h
  · refine ⟨.purgeNothing (fun workspace hmem hid => ?_) rfl, .refl s⟩
    exact absent workspace (Table.get_eq_some_iff.mpr ⟨hmem, hid⟩)
  · exact ⟨.purgeRows workspace hget hdeleted rfl rfl, le_refl _, le_refl _, le_refl _⟩

end PurgeTx

namespace ProductTx

theorem create_effect {quotas : ProductQuotas} {workspaceId name : String}
    {sku : Option String} {price : Price} {status : ProductStatus}
    {description : Option String} {product : Product}
    (h : Returns (create quotas workspaceId name sku price status description) env s product s') :
  Effect env s s' (.createProduct quotas workspaceId name sku price status description)
    ∧ Later s s'
  := by
  obtain ⟨_, _, fresh, _, rfl⟩ := returns_create.mp h
  exact ⟨.createProduct _ rfl fresh rfl rfl, Nat.le_succ _, Nat.le_succ _, le_refl _⟩

theorem update_effect {workspaceId productId : String} {changes : ProductChanges}
    {ifMatch : Option Time} {product : Product}
    (h : Returns (update workspaceId productId changes ifMatch) env s product s') :
  Effect env s s' (.updateProduct workspaceId productId changes ifMatch) ∧ Later s s'
  := by
  obtain ⟨row, hrow, hown, _, ⟨_, _, rfl⟩ | ⟨_, _, _, rfl⟩⟩ := returns_update.mp h
  · have hput : s.db.products.put row = s.db.products :=
      Table.put_of_mem (Table.get_eq_some_iff.mp hrow).1
    refine ⟨.updateProduct row row hrow hown ⟨rfl, rfl⟩ rfl ?_, le_refl _, le_refl _, le_refl _⟩
    exact congrArg (fun products => { s.db with products := products }) hput.symm
  · refine ⟨.updateProduct row _ hrow hown ?_ rfl rfl, Nat.le_succ _, le_refl _, le_refl _⟩
    exact ⟨rfl, rfl⟩

theorem delete_effect {workspaceId productId : String} {product : Product}
    (h : Returns (delete workspaceId productId) env s product s') :
  Effect env s s' (.deleteProduct workspaceId productId) ∧ Later s s'
  := by
  obtain ⟨row, hrow, hown, _, rfl⟩ := returns_delete.mp h
  exact ⟨.deleteProduct row hrow hown rfl rfl, le_refl _, le_refl _, le_refl _⟩

theorem attach_effect {quotas : ProductQuotas} {workspaceId productId uploadKey : String}
    {stored : StoredImage} {image : ProductImage}
    (h : Returns (attach quotas workspaceId productId stored uploadKey) env s image s') :
  Effect env s s' (.attachImage quotas workspaceId productId stored uploadKey) ∧ Later s s'
  := by
  obtain ⟨⟨row, hrow, hown⟩, _, _, fresh, _, rfl⟩ := returns_attach.mp h
  exact ⟨.attachImage row _ hrow hown rfl rfl fresh rfl rfl, Nat.le_succ _, Nat.le_succ _,
    le_refl _⟩

theorem removeImage_effect {workspaceId productId imageId : String} {image : ProductImage}
    (h : Returns (removeImage workspaceId productId imageId) env s image s') :
  Effect env s s' (.removeImage workspaceId productId imageId) ∧ Later s s'
  := by
  obtain ⟨⟨row, hrow, hown⟩, _, rfl⟩ := returns_removeImage.mp h
  have moved := Moved.of_subperm (List.erase_subperm image (s.db.imagesOf productId))
  exact ⟨.removeImage row _ hrow hown moved.moved rfl rfl, le_refl _, le_refl _, le_refl _⟩

theorem reorderImages_effect {workspaceId productId : String} {imageIds : List String}
    {product : Product}
    (h : Returns (reorderImages workspaceId productId imageIds) env s product s') :
  Effect env s s' (.reorderImages workspaceId productId imageIds) ∧ Later s s'
  := by
  obtain ⟨⟨row, hrow, hown⟩, images, perm, rfl⟩ := returns_reorderImages h
  have moved := Moved.of_subperm perm.subperm
  exact ⟨.reorderImages row _ hrow hown moved.moved rfl rfl, le_refl _, le_refl _, le_refl _⟩

end ProductTx

/-! ### All the transactions -/

/-- A transaction that returns has its effect, and time has not gone back. -/
theorem Work.effect {work : Work} {u : Unit} (h : Returns work.body env s u s') :
  Effect env s s' work ∧ Later s s'
  := by
  cases work with
  | delete => exact WorkspaceTx.delete_effect h
  | deleteRole => exact WorkspaceTx.deleteRole_effect h
  | setPermissions => exact WorkspaceTx.setPermissions_effect h
  | setMemberRole => exact WorkspaceTx.setMemberRole_effect h
  | removeMember => exact WorkspaceTx.removeMember_effect h
  | transfer => exact WorkspaceTx.transfer_effect h
  | revoke => exact WorkspaceTx.revoke_effect h
  | register => exact AccountTx.register_effect h
  | ensureAccount => exact AccountTx.ensureAccount_effect h
  | create =>
      obtain ⟨_, h⟩ := Tx.returns_run'.mp h
      exact WorkspaceTx.create_effect h
  | update =>
      obtain ⟨_, h⟩ := Tx.returns_run'.mp h
      exact WorkspaceTx.update_effect h
  | replaceLogo =>
      obtain ⟨_, h⟩ := Tx.returns_run'.mp h
      exact WorkspaceTx.replaceLogo_effect h
  | saveRole =>
      obtain ⟨_, h⟩ := Tx.returns_run'.mp h
      exact WorkspaceTx.saveRole_effect h
  | issue =>
      obtain ⟨_, h⟩ := Tx.returns_run'.mp h
      exact WorkspaceTx.issue_effect h
  | accept =>
      obtain ⟨_, h⟩ := Tx.returns_run'.mp h
      obtain ⟨hjoins, hlater⟩ := joinWithInvitation_effect h
      exact ⟨.accept hjoins, hlater⟩
  | rename =>
      obtain ⟨_, h⟩ := Tx.returns_run'.mp h
      exact AccountTx.rename_effect h
  | replaceAvatar =>
      obtain ⟨_, h⟩ := Tx.returns_run'.mp h
      exact AccountTx.replaceAvatar_effect h
  | deleteAccount =>
      obtain ⟨_, h⟩ := Tx.returns_run'.mp h
      exact AccountTx.delete_effect h
  | deleteBatch =>
      obtain ⟨_, h⟩ := Tx.returns_run'.mp h
      exact PurgeTx.deleteBatch_effect h
  | purgeRows =>
      obtain ⟨_, h⟩ := Tx.returns_run'.mp h
      exact PurgeTx.purgeRows_effect h
  | createProduct =>
      obtain ⟨_, h⟩ := Tx.returns_run'.mp h
      exact ProductTx.create_effect h
  | updateProduct =>
      obtain ⟨_, h⟩ := Tx.returns_run'.mp h
      exact ProductTx.update_effect h
  | deleteProduct =>
      obtain ⟨_, h⟩ := Tx.returns_run'.mp h
      exact ProductTx.delete_effect h
  | attachImage =>
      obtain ⟨_, h⟩ := Tx.returns_run'.mp h
      exact ProductTx.attach_effect h
  | removeImage =>
      obtain ⟨_, h⟩ := Tx.returns_run'.mp h
      exact ProductTx.removeImage_effect h
  | reorderImages =>
      obtain ⟨_, h⟩ := Tx.returns_run'.mp h
      exact ProductTx.reorderImages_effect h

end MvpApi
