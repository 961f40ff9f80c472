import MvpApi.Runs.System

/-!
# Every workspace has one owner

A live workspace has one protected role, which is named `owner` and held by one member,
the owner of the workspace. `OwnedIn db w` is what the rows of one workspace have to
satisfy for that, and `Covers db db' w` says that on the way from `db` to `db'` the
workspace `w` only lost members that are not its owner.

Transactions on one workspace lock its row, so each sees all that the one before has done.
The deletion of an account locks nothing, but only removes members that own no workspace.
-/

set_option autoImplicit false

namespace MvpApi

open Optimistic

/-! ### The owner of a workspace -/

/-- The owner of a live workspace. -/
def ownerOf (workspaces : Table Workspace.id) (workspaceId : String) : Option String :=
  ((workspaces.get workspaceId).filter fun workspace => !workspace.isDeleted).map
    Workspace.ownerId

theorem ownerOf_eq_some {workspaces : Table Workspace.id} {workspaceId userId : String} :
  ownerOf workspaces workspaceId = some userId
    ↔ ∃ workspace ∈ workspaces, workspace.id = workspaceId ∧ workspace.deletedAt = none
      ∧ workspace.ownerId = userId
  := by
  simp [ownerOf, Option.filter_eq_some_iff, Table.get_eq_some_iff, Workspace.isDeleted,
    and_assoc]

theorem ownerOf_of_live {db : Db} {workspaceId : String} {workspace : Workspace}
    (h : db.live workspaceId = some workspace) :
  ownerOf db.workspaces workspaceId = some workspace.ownerId
  := by
  obtain ⟨hmem, hid, hlive⟩ := Db.live_eq_some.mp h
  exact ownerOf_eq_some.mpr ⟨workspace, hmem, hid, hlive, rfl⟩

theorem ownerOf_congr {workspaces workspaces' : Table Workspace.id} {workspaceId : String}
    (h : workspaces'.get workspaceId = workspaces.get workspaceId) :
  ownerOf workspaces' workspaceId = ownerOf workspaces workspaceId
  := by
  rw [ownerOf, ownerOf, h]

/-- Writing a workspace sets its owner. -/
theorem ownerOf_put {workspaces : Table Workspace.id} {workspace : Workspace}
    {workspaceId : String} :
  ownerOf (workspaces.put workspace) workspaceId
    = if workspaceId = workspace.id then
        if workspace.deletedAt = none then some workspace.ownerId else none
      else ownerOf workspaces workspaceId
  := by
  by_cases h : workspaceId = workspace.id
  · subst h
    rw [if_pos rfl, ownerOf, Table.get_put_self]
    cases hd : workspace.deletedAt with
    | none => simp [Workspace.isDeleted, hd, Option.filter_some]
    | some time => simp [Workspace.isDeleted, hd, Option.filter_some]
  · rw [if_neg h]
    exact ownerOf_congr (workspaces.get_put_of_ne h)

/-! ### The rows of one workspace -/

/-- The rows of the workspace `w`: a role is protected exactly when it is named `owner`, the
workspace of a member is live and has the member's role, and the owner of the workspace
holds a protected role and nobody else does. -/
structure OwnedIn (db : Db) (w : String) : Prop where
  protected_iff : ∀ role ∈ db.roles, role.workspaceId = w →
    (role.isProtected = true ↔ role.name = ownerRole)
  belongs : ∀ member ∈ db.members, member.workspaceId = w →
    (ownerOf db.workspaces w).isSome
      ∧ ∃ role ∈ db.roles, role.id = member.roleId ∧ role.workspaceId = w
  holds : ∀ userId, ownerOf db.workspaces w = some userId →
    ∃ member ∈ db.members, member.workspaceId = w ∧ member.userId = userId
      ∧ ∃ role ∈ db.roles, role.id = member.roleId ∧ role.isProtected = true
  only : ∀ member ∈ db.members, member.workspaceId = w →
    ∀ role ∈ db.roles, role.id = member.roleId → role.isProtected = true →
      ownerOf db.workspaces w = some member.userId

/-- From `db` to `db'` the workspace `w` keeps its owner and its roles, and only loses
members other than its owner. -/
structure Covers (db db' : Db) (w : String) : Prop where
  ownerOf : ownerOf db'.workspaces w = ownerOf db.workspaces w
  roles : ∀ role, role.workspaceId = w → (role ∈ db'.roles ↔ role ∈ db.roles)
  joins : ∀ member, member.workspaceId = w → member ∈ db'.members → member ∈ db.members
  stays : ∀ member, member.workspaceId = w → member ∈ db.members →
    MvpApi.ownerOf db.workspaces w = some member.userId → member ∈ db'.members

theorem Covers.refl (db : Db) (w : String) :
  Covers db db w
  := ⟨rfl, fun _ _ => Iff.rfl, fun _ _ h => h, fun _ _ h _ => h⟩

theorem Covers.trans {db db' db'' : Db} {w : String} (h : Covers db db' w)
    (h' : Covers db' db'' w) :
  Covers db db'' w
  where
  ownerOf := h'.ownerOf.trans h.ownerOf
  roles role hw := (h'.roles role hw).trans (h.roles role hw)
  joins member hw hm := h.joins member hw (h'.joins member hw hm)
  stays member hw hm ho :=
    h'.stays member hw (h.stays member hw hm ho) (h.ownerOf.trans ho)

/-- Changes of other tables, and of the members of other workspaces, do not concern `w`. -/
theorem Covers.of_eq {db db' : Db} {w : String}
    (workspaces : MvpApi.ownerOf db'.workspaces w = MvpApi.ownerOf db.workspaces w)
    (roles : ∀ role, role.workspaceId = w → (role ∈ db'.roles ↔ role ∈ db.roles))
    (members : ∀ member, member.workspaceId = w → (member ∈ db'.members ↔ member ∈ db.members)) :
  Covers db db' w
  where
  ownerOf := workspaces
  roles := roles
  joins member hw hm := (members member hw).mp hm
  stays member hw hm _ := (members member hw).mpr hm

/-- What the rows of a workspace satisfy they satisfy after it lost some members. -/
theorem OwnedIn.covers {db db' : Db} {w : String} (h : OwnedIn db w) (hc : Covers db db' w) :
  OwnedIn db' w
  where
  protected_iff role hrole hw := h.protected_iff role ((hc.roles role hw).mp hrole) hw
  belongs member hmember hw := by
    obtain ⟨hlive, role, hrole, hid, hrw⟩ := h.belongs member (hc.joins member hw hmember) hw
    rw [hc.ownerOf]
    exact ⟨hlive, role, (hc.roles role hrw).mpr hrole, hid, hrw⟩
  holds userId ho := by
    rw [hc.ownerOf] at ho
    obtain ⟨member, hmember, hw, hu, role, hrole, hid, hp⟩ := h.holds userId ho
    obtain ⟨_, role', hrole', hid', hrw⟩ := h.belongs member hmember hw
    obtain rfl : role = role' := Table.eq_of_key hrole hrole' (hid.trans hid'.symm)
    exact ⟨member, hc.stays member hw hmember (hu ▸ ho), hw, hu, role,
      (hc.roles role hrw).mpr hrole, hid, hp⟩
  only member hmember hw role hrole hid hp := by
    have hmember' := hc.joins member hw hmember
    obtain ⟨_, role', hrole', hid', hrw⟩ := h.belongs member hmember' hw
    obtain rfl : role = role' :=
      Table.eq_of_key hrole ((hc.roles role' hrw).mpr hrole') (hid.trans hid'.symm)
    rw [hc.ownerOf]
    exact h.only member hmember' hw role hrole' hid hp

/-- A workspace that is not live has no members, and its rows satisfy all that is asked. -/
theorem OwnedIn.of_not_live {db : Db} {w : String} (hw : ownerOf db.workspaces w = none)
    (members : ∀ member ∈ db.members, member.workspaceId ≠ w)
    (protected_iff : ∀ role ∈ db.roles, role.workspaceId = w →
      (role.isProtected = true ↔ role.name = ownerRole)) :
  OwnedIn db w
  where
  protected_iff := protected_iff
  belongs member hmember hw' := absurd hw' (members member hmember)
  holds userId ho := by
    rw [hw] at ho
    cases ho
  only member hmember hw' := absurd hw' (members member hmember)

/-! ### Overlapping transactions -/

/-- What a transaction does to the workspaces, as the others see it: a workspace whose row
is not in the footprint is only deprived of members that are not its owner, a role or
membership not in the footprint is not changed, and nobody becomes the owner of a workspace
without a change of their membership. -/
structure Disciplined (footprint : Set RowId) (db db' : Db) : Prop where
  quiet : ∀ w, .workspace w ∉ footprint → Covers db db' w
  role : ∀ id, .role id ∉ footprint → db'.roles.get id = db.roles.get id
  member : ∀ w userId, .member w userId ∉ footprint →
    db'.members.get (pair w userId) = db.members.get (pair w userId)
  owner : ∀ w userId, .member w userId ∉ footprint →
    ownerOf db'.workspaces w = some userId → ownerOf db.workspaces w = some userId

/-- What a transaction finds done to the rows of its footprint when it commits. -/
structure Undisturbed (footprint : Set RowId) (db db' : Db) : Prop where
  quiet : ∀ w, .workspace w ∈ footprint → Covers db db' w
  role : ∀ id, .role id ∈ footprint → db'.roles.get id = db.roles.get id
  member : ∀ w userId, .member w userId ∈ footprint →
    db'.members.get (pair w userId) = db.members.get (pair w userId)
  owner : ∀ w userId, .member w userId ∈ footprint →
    ownerOf db'.workspaces w = some userId → ownerOf db.workspaces w = some userId

/-- Commits that keep the discipline do not disturb a transaction with another footprint. -/
theorem undisturbed_of_meanwhile {P : Db → Prop} {footprint : Set RowId} {db db' : Db}
    (h : Meanwhile P (fun (_ : Work) => Disciplined) footprint db db') :
  Undisturbed footprint db db'
  := by
  induction h with
  | refl => exact ⟨fun w _ => .refl db w, fun _ _ => rfl, fun _ _ _ => rfl, fun _ _ _ h => h⟩
  | tail _ step ih =>
      obtain ⟨_, _, _, other, hdisciplined, hdisjoint⟩ := step
      have apart : ∀ {row}, row ∈ footprint → row ∉ other :=
        fun hrow hother => Set.disjoint_left.mp hdisjoint hrow hother
      constructor
      · intro w hw
        exact (ih.quiet w hw).trans (hdisciplined.quiet w (apart hw))
      · intro id hid
        exact (hdisciplined.role id (apart hid)).trans (ih.role id hid)
      · intro w userId hm
        exact (hdisciplined.member w userId (apart hm)).trans (ih.member w userId hm)
      · intro w userId hm ho
        exact ih.owner w userId hm (hdisciplined.owner w userId (apart hm) ho)

section Merge

variable {base final now : Db} {footprint : Set RowId}

/-- To a workspace that the transaction has not locked it does now what it did to its
snapshot. -/
theorem Covers.merge_of_quiet {w : String} (done : Disciplined footprint base final)
    (seen : Undisturbed footprint base now)
    (changed : ∀ row ∈ base.changed final, row ∈ footprint) (hw : .workspace w ∉ footprint) :
  Covers now (Db.merge base final now) w
  := by
  have quiet := done.quiet w hw
  have hworkspace : final.workspaces.get w = base.workspaces.get w := by
    by_contra h
    exact hw (changed (.workspace w) h)
  constructor
  · apply ownerOf_congr
    exact (Table.get_merge _ _ _ w).trans (if_pos hworkspace)
  · intro role hrw
    refine Table.mem_merge.trans ?_
    by_cases h : final.roles.get role.id = base.roles.get role.id
    · simp [h]
    · -- No role of `w` was changed, so this one is in neither table.
      have hrow := seen.role role.id (changed (.role role.id) h)
      have hsame := quiet.roles role hrw
      simp only [Table.mem_def, hrow] at hsame ⊢
      constructor
      · rintro (⟨h', _⟩ | ⟨_, hf⟩)
        · exact absurd h' h
        · exact absurd (hf.trans (hsame.mp hf).symm) h
      · intro hb
        exact absurd ((hsame.mpr hb).trans hb.symm) h
  · intro member hmw hm
    rcases Table.mem_merge.mp hm with ⟨_, h⟩ | ⟨hne, hf⟩
    · exact h
    · exact absurd ((Table.mem_def.mp hf).trans
        (Table.mem_def.mp (quiet.joins member hmw hf)).symm) hne
  · intro member hmw hm ho
    apply Table.mem_merge.mpr
    by_cases h : final.members.get member.key = base.members.get member.key
    · exact Or.inl ⟨h, hm⟩
    · -- The owner's membership would be in the footprint, and so unchanged since.
      have hin : RowId.member w member.userId ∈ footprint := by
        rw [← hmw]
        exact changed (.member member.workspaceId member.userId) h
      have hbase : member ∈ base.members := by
        rw [Table.mem_def, Member.key, hmw, ← seen.member w member.userId hin]
        rw [Table.mem_def, Member.key, hmw] at hm
        exact hm
      have hfinal := quiet.stays member hmw hbase (seen.owner w member.userId hin ho)
      exact absurd ((Table.mem_def.mp hfinal).trans (Table.mem_def.mp hbase).symm) h

/-- In a workspace that the transaction has locked only what it saw is there now, but for
members that have left since. -/
theorem Covers.merge_of_locked {w : String} (done : Disciplined footprint base final)
    (seen : Undisturbed footprint base now) (hw : .workspace w ∈ footprint) :
  Covers final (Db.merge base final now) w
  := by
  have quiet := seen.quiet w hw
  constructor
  · by_cases h : final.workspaces.get w = base.workspaces.get w
    · have hmerge : (Db.merge base final now).workspaces.get w = now.workspaces.get w :=
        (Table.get_merge _ _ _ w).trans (if_pos h)
      rw [ownerOf_congr hmerge, quiet.ownerOf, ownerOf_congr h]
    · exact ownerOf_congr ((Table.get_merge _ _ _ w).trans (if_neg h))
  · intro role hrw
    refine Table.mem_merge.trans ?_
    by_cases h : final.roles.get role.id = base.roles.get role.id
    · simp only [h, true_and, ne_eq, not_true_eq_false, false_and, or_false, quiet.roles role hrw]
      rw [Table.mem_def, Table.mem_def, h]
    · simp [h]
  · intro member hmw hm
    rcases Table.mem_merge.mp hm with ⟨h, hm⟩ | ⟨_, hf⟩
    · rw [Table.mem_def, h]
      exact quiet.joins member hmw hm
    · exact hf
  · intro member hmw hm ho
    apply Table.mem_merge.mpr
    by_cases h : final.members.get member.key = base.members.get member.key
    · have hbase : member ∈ base.members := by
        rw [Table.mem_def, ← h]
        exact hm
      refine Or.inl ⟨h, ?_⟩
      by_cases hin : RowId.member w member.userId ∈ footprint
      · have hrow := seen.member w member.userId hin
        rw [← hmw] at hrow
        exact hrow.trans hbase
      · exact quiet.stays member hmw hbase (done.owner w member.userId hin ho)
    · exact Or.inr ⟨h, hm⟩

/-- A transaction that kept the discipline on its snapshot keeps it when it commits. -/
theorem Disciplined.merge (done : Disciplined footprint base final)
    (seen : Undisturbed footprint base now)
    (changed : ∀ row ∈ base.changed final, row ∈ footprint) :
  Disciplined footprint now (Db.merge base final now)
  where
  quiet _ hw := .merge_of_quiet done seen changed hw
  role id hid := by
    have h : final.roles.get id = base.roles.get id := done.role id hid
    exact (Table.get_merge _ _ _ id).trans (if_pos h)
  member w userId hm := by
    have h := done.member w userId hm
    exact (Table.get_merge _ _ _ _).trans (if_pos h)
  owner w userId hm ho := by
    by_cases hw : .workspace w ∈ footprint
    · rw [(Covers.merge_of_locked done seen hw).ownerOf] at ho
      rw [(seen.quiet w hw).ownerOf]
      exact done.owner w userId hm ho
    · rw [← (Covers.merge_of_quiet done seen changed hw).ownerOf]
      exact ho

/-- The rows of each workspace satisfy what they have to after a commit. -/
theorem OwnedIn.merge {w : String} (done : Disciplined footprint base final)
    (seen : Undisturbed footprint base now)
    (changed : ∀ row ∈ base.changed final, row ∈ footprint) (hfinal : OwnedIn final w)
    (hnow : OwnedIn now w) :
  OwnedIn (Db.merge base final now) w
  := by
  by_cases hw : .workspace w ∈ footprint
  · exact hfinal.covers (.merge_of_locked done seen hw)
  · exact hnow.covers (.merge_of_quiet done seen changed hw)

end Merge

/-! ### One transaction -/

/-- Writing a membership does not concern the members of another workspace. -/
theorem mem_put_member {members : Table Member.key} {written member : Member} {w : String}
    (hw : member.workspaceId = w) (hne : written.workspaceId ≠ w) :
  member ∈ members.put written ↔ member ∈ members
  := by
  have hkey : member.key ≠ written.key := by
    intro h
    exact hne ((pair_inj.mp h).1.symm.trans hw)
  rw [Table.mem_put]
  constructor
  · rintro (rfl | ⟨hmember, _⟩)
    · exact absurd rfl hkey
    · exact hmember
  · intro hmember
    exact Or.inr ⟨hmember, hkey⟩

/-- From `db` to `db'` only the workspace `w₀`, if there is one, does more than lose
members; its rows satisfy what they have to, and if its owner is a new one, their
membership was changed. -/
structure ActsOn (db db' : Db) (w₀ : Option String) : Prop where
  elsewhere : ∀ w, w₀ ≠ some w → Covers db db' w
  here : ∀ w, w₀ = some w → OwnedIn db' w
  owner : ∀ w userId, w₀ = some w → ownerOf db'.workspaces w = some userId →
    ownerOf db.workspaces w = some userId
      ∨ db'.members.get (pair w userId) ≠ db.members.get (pair w userId)

theorem ActsOn.nowhere {db db' : Db} (h : ∀ w, Covers db db' w) :
  ActsOn db db' none
  where
  elsewhere w _ := h w
  here w hw := by cases hw
  owner w _ hw := by cases hw

/-- Tables that say nothing about the ownership of workspaces may change. -/
theorem ActsOn.of_same {db db₁ db' : Db} {w₀ : Option String}
    (workspaces : db₁.workspaces = db.workspaces) (roles : db₁.roles = db.roles)
    (members : db₁.members = db.members) (h : ActsOn db₁ db' w₀) :
  ActsOn db db' w₀
  where
  elsewhere w hw := by
    have h' := h.elsewhere w hw
    exact ⟨workspaces ▸ h'.ownerOf, roles ▸ h'.roles, members ▸ h'.joins,
      members ▸ workspaces ▸ h'.stays⟩
  here := h.here
  owner := workspaces ▸ members ▸ h.owner

/-- The rows of all workspaces satisfy what they have to. -/
def Owned (db : Db) : Prop := ∀ w, OwnedIn db w

theorem Owned.of_same {db db₁ : Db} (owned : Owned db)
    (workspaces : db₁.workspaces = db.workspaces) (roles : db₁.roles = db.roles)
    (members : db₁.members = db.members) :
  Owned db₁
  := by
  intro w
  have h := owned w
  exact ⟨roles ▸ h.protected_iff, roles ▸ members ▸ workspaces ▸ h.belongs,
    roles ▸ members ▸ workspaces ▸ h.holds, roles ▸ members ▸ workspaces ▸ h.only⟩

theorem ActsOn.owned {db db' : Db} {w₀ : Option String} (h : ActsOn db db' w₀)
    (owned : Owned db) :
  Owned db'
  := by
  intro w
  by_cases hw : w₀ = some w
  · exact h.here w hw
  · exact (owned w).covers (h.elsewhere w hw)

/-- A transaction that acts on a workspace in its footprint keeps the discipline. -/
theorem ActsOn.disciplined {db db' : Db} {w₀ : Option String} {footprint : Set RowId}
    (h : ActsOn db db' w₀) (locked : ∀ w, w₀ = some w → .workspace w ∈ footprint)
    (changed : ∀ row ∈ db.changed db', row ∈ footprint) :
  Disciplined footprint db db'
  where
  quiet w hw := h.elsewhere w fun hw₀ => hw (locked w hw₀)
  role id hid := by
    by_contra hne
    exact hid (changed (.role id) hne)
  member w userId hm := by
    by_contra hne
    exact hm (changed (.member w userId) hne)
  owner w userId hm ho := by
    by_cases hw : w₀ = some w
    · rcases h.owner w userId hw ho with h' | h'
      · exact h'
      · exact absurd (changed (.member w userId) h') hm
    · rw [← (h.elsewhere w hw).ownerOf]
      exact ho

section Changes

variable {db : Db}

/-- Writing a role that is not protected, in place of none or of one that is not either. -/
theorem OwnedIn.put_role {w : String} (h : OwnedIn db w) {role : Role}
    (unprotected : role.isProtected = false) (name : role.name ≠ ownerRole)
    (before : ∀ old, db.roles.get role.id = some old →
      old.isProtected = false ∧ old.workspaceId = role.workspaceId) :
  OwnedIn { db with roles := db.roles.put role } w
  where
  protected_iff role' hrole hw := by
    rcases Table.mem_put.mp hrole with rfl | ⟨hrole, _⟩
    · simp [unprotected, name]
    · exact h.protected_iff role' hrole hw
  belongs member hmember hw := by
    obtain ⟨hlive, role', hrole, hid, hrw⟩ := h.belongs member hmember hw
    refine ⟨hlive, ?_⟩
    by_cases hr : role'.id = role.id
    · have hold := before role' (Table.get_eq_some_iff.mpr ⟨hrole, hr⟩)
      exact ⟨role, Table.mem_put.mpr (Or.inl rfl), hr ▸ hid, hold.2 ▸ hrw⟩
    · exact ⟨role', Table.mem_put.mpr (Or.inr ⟨hrole, hr⟩), hid, hrw⟩
  holds userId ho := by
    obtain ⟨member, hmember, hw, hu, role', hrole, hid, hp⟩ := h.holds userId ho
    refine ⟨member, hmember, hw, hu, role', Table.mem_put.mpr (Or.inr ⟨hrole, ?_⟩), hid, hp⟩
    intro hr
    have hold := before role' (Table.get_eq_some_iff.mpr ⟨hrole, hr⟩)
    rw [hold.1] at hp
    cases hp
  only member hmember hw role' hrole hid hp := by
    rcases Table.mem_put.mp hrole with rfl | ⟨hrole, _⟩
    · rw [unprotected] at hp
      cases hp
    · exact h.only member hmember hw role' hrole hid hp

/-- Deleting a role that nobody holds. -/
theorem OwnedIn.erase_role {w : String} (h : OwnedIn db w) {roleId : String}
    (unassigned : ∀ member ∈ db.members, member.roleId ≠ roleId) :
  OwnedIn { db with roles := db.roles.erase roleId } w
  where
  protected_iff role hrole hw := h.protected_iff role (Table.mem_erase.mp hrole).1 hw
  belongs member hmember hw := by
    obtain ⟨hlive, role, hrole, hid, hrw⟩ := h.belongs member hmember hw
    have hne : role.id ≠ roleId := hid ▸ unassigned member hmember
    exact ⟨hlive, role, Table.mem_erase.mpr ⟨hrole, hne⟩, hid, hrw⟩
  holds userId ho := by
    obtain ⟨member, hmember, hw, hu, role, hrole, hid, hp⟩ := h.holds userId ho
    have hne : role.id ≠ roleId := hid ▸ unassigned member hmember
    exact ⟨member, hmember, hw, hu, role, Table.mem_erase.mpr ⟨hrole, hne⟩, hid, hp⟩
  only member hmember hw role hrole hid hp :=
    h.only member hmember hw role (Table.mem_erase.mp hrole).1 hid hp

/-- Giving a role that is not protected to who is not the owner. -/
theorem OwnedIn.put_member {w : String} (h : OwnedIn db w) (member : Member) {role : Role}
    (hw : member.workspaceId = w) (hrole : db.roles.get member.roleId = some role)
    (own : role.workspaceId = w) (unprotected : role.isProtected = false)
    (live : (ownerOf db.workspaces w).isSome)
    (not_owner : ownerOf db.workspaces w ≠ some member.userId) :
  OwnedIn { db with members := db.members.put member } w
  := by
  obtain ⟨hmem, hid⟩ := Table.get_eq_some_iff.mp hrole
  constructor
  · exact h.protected_iff
  · intro member' hmember hw'
    rcases Table.mem_put.mp hmember with rfl | ⟨hmember, _⟩
    · exact ⟨live, role, hmem, hid, own⟩
    · exact h.belongs member' hmember hw'
  · intro userId ho
    obtain ⟨member', hmember, hw', hu, hholds⟩ := h.holds userId ho
    refine ⟨member', Table.mem_put.mpr (Or.inr ⟨hmember, ?_⟩), hw', hu, hholds⟩
    intro hkey
    have hu' : member'.userId = member.userId := (pair_inj.mp hkey).2
    exact not_owner (hu' ▸ hu ▸ ho)
  · intro member' hmember hw' role' hrole' hid' hp
    rcases Table.mem_put.mp hmember with rfl | ⟨hmember, _⟩
    · obtain rfl : role' = role := Table.eq_of_key hrole' hmem (hid'.trans hid.symm)
      rw [unprotected] at hp
      cases hp
    · exact h.only member' hmember hw' role' hrole' hid' hp

end Changes

variable {env : Env} {s s' : Session}

/-- Joining acts on the workspace of the invitation. -/
theorem Joins.actsOn {token userId : String} (h : Joins env token userId s s')
    (owned : Owned s.db) :
  ∃ w, ActsOn s.db s'.db (some w) ∧ .workspace w ∈ s'.touched
  := by
  obtain ⟨user, invitation, workspace, role, _, joinedAt, _, _, _, _, _, _, _, _, hlive, hrole,
    hown, hunprotected, houtside, hlocked, hdb⟩ := h
  refine ⟨invitation.workspaceId, ?_, by rw [hlocked]; simp⟩
  rw [hdb]
  have howner := ownerOf_of_live hlive
  constructor
  · intro w hw
    exact .of_eq rfl (fun _ _ => Iff.rfl) fun member hm =>
      mem_put_member hm fun h => hw (congrArg some h)
  · rintro w ⟨⟩
    have hput := (owned invitation.workspaceId).put_member
      ⟨invitation.workspaceId, userId, invitation.roleId, joinedAt⟩ rfl hrole hown
      hunprotected (by rw [howner]; rfl) ?_
    · exact ⟨hput.protected_iff, hput.belongs, hput.holds, hput.only⟩
    · -- The owner is a member, and who joins was none.
      intro ho
      obtain ⟨member, hmember, hw, hu, _⟩ := (owned invitation.workspaceId).holds userId ho
      have hkey : member.key = pair invitation.workspaceId userId := by
        rw [Member.key, hw, hu]
      rw [Db.member, Table.get_eq_some_iff.mpr ⟨hmember, hkey⟩] at houtside
      cases houtside
  · rintro w userId' ⟨⟩ ho
    exact Or.inl ho

/-- A new workspace is owned by its creator. -/
theorem ActsOn.create {db : Db} {workspace : Workspace} {new : List Role}
    {roles' : Table Role.id} {owner : Role} {userId : String} {db' : Db} (joinedAt : Time)
    (owned : Owned db) (live : workspace.deletedAt = none) (ownerId : workspace.ownerId = userId)
    (fresh : db.workspaces.get workspace.id = none)
    (added : WorkspaceTx.NewRoles db.roles workspace.id systemRoles new)
    (roles : ∀ role, role ∈ roles' ↔ role ∈ db.roles ∨ role ∈ new)
    (owner_mem : owner ∈ new) (owner_name : owner.name = ownerRole)
    (outside : db.member workspace.id userId = none)
    (workspaces_eq : db'.workspaces = db.workspaces.put workspace)
    (roles_eq : db'.roles = roles')
    (members_eq : db'.members = db.members.put ⟨workspace.id, userId, owner.id, joinedAt⟩) :
  ActsOn db db' (some workspace.id)
  := by
  have hnone : ownerOf db.workspaces workspace.id = none := by
    rw [ownerOf, fresh]
    rfl
  have hnew : ownerOf db'.workspaces workspace.id = some userId := by
    rw [workspaces_eq, ownerOf_put, if_pos rfl, if_pos live, ownerId]
  have hsystem : ∀ role ∈ new, role.workspaceId = workspace.id
      ∧ (role.isProtected = true ↔ role.name = ownerRole) := by
    intro role hrole
    rw [added.system role hrole]
    simp [Role.system]
  have howner : owner ∈ db'.roles := roles_eq ▸ (roles owner).mpr (Or.inr owner_mem)
  have members : ∀ member ∈ db'.members, member.workspaceId = workspace.id →
      member = ⟨workspace.id, userId, owner.id, joinedAt⟩ := by
    intro member hmember hw
    rw [members_eq] at hmember
    rcases Table.mem_put.mp hmember with rfl | ⟨hmember, _⟩
    · rfl
    · have hlive := ((owned workspace.id).belongs member hmember hw).1
      rw [hnone] at hlive
      cases hlive
  have hmem : (⟨workspace.id, userId, owner.id, joinedAt⟩ : Member) ∈ db'.members := by
    rw [members_eq]
    exact Table.mem_put.mpr (Or.inl rfl)
  constructor
  · intro w hw
    have hne : w ≠ workspace.id := fun h => hw (congrArg some h.symm)
    refine .of_eq ?_ (fun role hrw => ?_) fun member hmw => ?_
    · rw [workspaces_eq, ownerOf_put, if_neg hne]
    · rw [roles_eq, roles]
      constructor
      · rintro (hrole | hrole)
        · exact hrole
        · exact absurd (hrw.symm.trans (hsystem role hrole).1) hne
      · exact Or.inl
    · rw [members_eq]
      exact mem_put_member hmw hne.symm
  · rintro w ⟨⟩
    constructor
    · intro role hrole hrw
      rcases (roles role).mp (roles_eq ▸ hrole) with hrole | hrole
      · exact (owned workspace.id).protected_iff role hrole hrw
      · exact (hsystem role hrole).2
    · intro member hmember hmw
      obtain rfl := members member hmember hmw
      exact ⟨by rw [hnew]; rfl, owner, howner, rfl, (hsystem owner owner_mem).1⟩
    · intro userId' ho
      obtain rfl : userId = userId' := Option.some.inj (hnew.symm.trans ho)
      exact ⟨_, hmem, rfl, rfl, owner, howner, rfl, (hsystem owner owner_mem).2.mpr owner_name⟩
    · intro member hmember hmw role _ _ _
      obtain rfl := members member hmember hmw
      exact hnew
  · rintro w userId' ⟨⟩ ho
    obtain rfl : userId = userId' := Option.some.inj (hnew.symm.trans ho)
    right
    rw [show db.members.get (pair workspace.id userId) = none from outside, members_eq]
    rw [show pair workspace.id userId = Member.key ⟨workspace.id, userId, owner.id, joinedAt⟩ from
      rfl, Table.get_put_self]
    simp

/-- A transfer swaps the owner's role with the target's. -/
theorem ActsOn.transfer {db db' : Db} {w targetId userId : String} {workspace : Workspace}
    {target previous : Member} {admin : Role} {roles' : Table Role.id}
    (owned : Owned db)
    (live : db.live w = some workspace) (ownerId : workspace.ownerId = userId)
    (distinct : targetId ≠ userId)
    (belongs : db.member w targetId = some target)
    (belongs' : db.member w userId = some previous)
    (admin_shape : admin.workspaceId = w ∧ admin.name = adminRole)
    (admin_mem : (admin ∈ db.roles ∧ roles' = db.roles)
      ∨ (db.roles.get admin.id = none ∧ admin = .system admin.id w adminRole
        ∧ roles' = db.roles.put admin))
    (workspaces_eq : db'.workspaces = db.workspaces.put { workspace with ownerId := targetId })
    (roles_eq : db'.roles = roles')
    (members_eq : db'.members = (db.members.put { target with roleId := previous.roleId }).put
      { previous with roleId := admin.id }) :
  ActsOn db db' (some w)
  := by
  obtain ⟨hworkspace, hid, hlive⟩ := Db.live_eq_some.mp live
  have hbefore : ownerOf db.workspaces w = some userId := ownerId ▸ ownerOf_of_live live
  have hafter : ownerOf db'.workspaces w = some targetId := by
    rw [workspaces_eq, ownerOf_put, if_pos hid.symm, if_pos hlive]
  obtain ⟨htarget, htkey⟩ := Table.get_eq_some_iff.mp belongs
  obtain ⟨htw, htu⟩ := pair_inj.mp htkey
  obtain ⟨hprevious, hpkey⟩ := Table.get_eq_some_iff.mp belongs'
  obtain ⟨hpw, hpu⟩ := pair_inj.mp hpkey
  -- The owner role is the one the previous owner holds.
  obtain ⟨member, hmember, hmw, hmu, ownerR, howner, hownerId, hprotected⟩ :=
    (owned w).holds userId hbefore
  obtain rfl : member = previous := by
    apply Table.eq_of_key hmember hprevious
    rw [Member.key, hmw, hmu, hpkey]
  have hownerW : ownerR.workspaceId = w := by
    obtain ⟨_, role, hrole, hrid, hrw⟩ := (owned w).belongs member hmember hmw
    obtain rfl : ownerR = role := Table.eq_of_key howner hrole (hownerId.trans hrid.symm)
    exact hrw
  have hkept : ∀ role ∈ db.roles, role ∈ roles' := by
    intro role hrole
    rcases admin_mem with ⟨_, rfl⟩ | ⟨hfree, _, rfl⟩
    · exact hrole
    · exact (Table.mem_put_of_get hfree).mpr (Or.inr hrole)
  have hroles : ∀ role ∈ roles', role ∈ db.roles ∨ (role = admin ∧ role.isProtected = false) := by
    intro role hrole
    rcases admin_mem with ⟨_, rfl⟩ | ⟨hfree, hadmin, rfl⟩
    · exact Or.inl hrole
    · rcases (Table.mem_put_of_get hfree).mp hrole with rfl | hrole
      · exact Or.inr ⟨rfl, by rw [hadmin]; rfl⟩
      · exact Or.inl hrole
  have hadminMem : admin ∈ roles' := by
    rcases admin_mem with ⟨hadmin, rfl⟩ | ⟨hfree, _, rfl⟩
    · exact hadmin
    · exact Table.mem_put.mpr (Or.inl rfl)
  have hprotectedIff : ∀ role ∈ roles', role.workspaceId = w →
      (role.isProtected = true ↔ role.name = ownerRole) := by
    intro role hrole hrw
    rcases hroles role hrole with hrole | ⟨rfl, hu⟩
    · exact (owned w).protected_iff role hrole hrw
    · simp [hu, admin_shape.2, adminRole, ownerRole]
  have hunprotected : admin.isProtected = false := by
    rw [← Bool.not_eq_true, hprotectedIff admin hadminMem admin_shape.1, admin_shape.2]
    decide
  have hmembers : ∀ m, m ∈ db'.members ↔ m = { member with roleId := admin.id }
      ∨ m = { target with roleId := member.roleId }
      ∨ (m ∈ db.members ∧ m.key ≠ target.key ∧ m.key ≠ member.key) := by
    intro m
    have hkeys : target.key ≠ member.key := by
      rw [htkey, hpkey]
      intro h
      exact distinct (pair_inj.mp h).2
    rw [members_eq, Table.mem_put, Table.mem_put]
    constructor
    · rintro (rfl | ⟨rfl | ⟨hm, hne⟩, hne'⟩)
      · exact Or.inl rfl
      · exact Or.inr (Or.inl rfl)
      · exact Or.inr (Or.inr ⟨hm, hne, hne'⟩)
    · rintro (rfl | rfl | ⟨hm, hne, hne'⟩)
      · exact Or.inl rfl
      · exact Or.inr ⟨Or.inl rfl, hkeys⟩
      · exact Or.inr ⟨Or.inr ⟨hm, hne⟩, hne'⟩
  constructor
  · intro w' hw'
    have hne : w ≠ w' := fun h => hw' (congrArg some h)
    refine .of_eq ?_ (fun role hrw => ?_) fun m hm => ?_
    · rw [workspaces_eq, ownerOf_put, if_neg fun h => hne (hid.symm.trans h.symm)]
    · rw [roles_eq]
      constructor
      · intro hrole
        rcases hroles role hrole with hrole | ⟨rfl, _⟩
        · exact hrole
        · exact absurd (admin_shape.1.symm.trans hrw) hne
      · exact hkept role
    · rw [members_eq, mem_put_member hm, mem_put_member hm]
      · exact fun h => hne (htw.symm.trans h)
      · exact fun h => hne (hpw.symm.trans h)
  · rintro w' ⟨⟩
    constructor
    · rw [roles_eq]
      exact hprotectedIff
    · intro m hm hw'
      rw [hafter, roles_eq]
      refine ⟨rfl, ?_⟩
      rcases (hmembers m).mp hm with rfl | rfl | ⟨hm, _, _⟩
      · exact ⟨admin, hadminMem, rfl, admin_shape.1⟩
      · exact ⟨ownerR, hkept _ howner, hownerId, hownerW⟩
      · obtain ⟨_, role, hrole, hrid, hrw⟩ := (owned w).belongs m hm hw'
        exact ⟨role, hkept role hrole, hrid, hrw⟩
    · intro userId' ho
      obtain rfl : targetId = userId' := Option.some.inj (hafter.symm.trans ho)
      rw [roles_eq]
      exact ⟨_, (hmembers _).mpr (Or.inr (Or.inl rfl)), htw, htu, ownerR, hkept _ howner, hownerId,
        hprotected⟩
    · intro m hm hw' role hrole hrid hp
      rw [roles_eq] at hrole
      rw [hafter]
      rcases (hmembers m).mp hm with rfl | rfl | ⟨hm, _, hne⟩
      · obtain rfl : role = admin := by
          apply Table.eq_of_key hrole hadminMem
          exact hrid
        rw [hunprotected] at hp
        cases hp
      · exact congrArg some htu.symm
      · -- Only the previous owner held a protected role.
        rcases hroles role hrole with hrole | ⟨rfl, hu⟩
        · have howner' := (owned w).only m hm hw' role hrole hrid hp
          rw [hbefore] at howner'
          apply absurd _ hne
          rw [hpkey, Member.key, hw', ← Option.some.inj howner']
        · rw [hu] at hp
          cases hp
  · rintro w' userId' ⟨⟩ ho
    obtain rfl : targetId = userId' := Option.some.inj (hafter.symm.trans ho)
    right
    have hget : db'.members.get (pair w targetId) = some { target with roleId := member.roleId } :=
      Table.get_eq_some_iff.mpr ⟨(hmembers _).mpr (Or.inr (Or.inl rfl)), htkey⟩
    rw [hget, show db.members.get (pair w targetId) = some target from belongs]
    intro hsame
    have hroleId : member.roleId = target.roleId := by
      have h := congrArg Member.roleId (Option.some.inj hsame)
      exact h
    have howner' := (owned w).only target htarget htw ownerR howner (hownerId.trans hroleId)
      hprotected
    rw [hbefore, htu] at howner'
    exact distinct (Option.some.inj howner').symm

/-- Replacing the row of a workspace by one with the same owner. -/
theorem ActsOn.put_workspace {db : Db} {w : String} {workspace workspace' : Workspace}
    (live : db.live w = some workspace) (id : workspace'.id = workspace.id)
    (ownerId : workspace'.ownerId = workspace.ownerId)
    (deletedAt : workspace'.deletedAt = workspace.deletedAt) :
  ActsOn db { db with workspaces := db.workspaces.put workspace' } none
  := by
  obtain ⟨_, hid, hlive⟩ := Db.live_eq_some.mp live
  refine .nowhere fun w' => .of_eq ?_ (fun _ _ => Iff.rfl) fun _ _ => Iff.rfl
  rw [ownerOf_put, id, hid, deletedAt, hlive, ownerId]
  split
  · next h => rw [if_pos rfl, h, ownerOf_of_live live]
  · rfl

/-- Writing a role of a workspace that is not protected. -/
theorem ActsOn.put_role {db : Db} {role : Role} (owned : Owned db)
    (unprotected : role.isProtected = false) (name : role.name ≠ ownerRole)
    (before : ∀ old, db.roles.get role.id = some old →
      old.isProtected = false ∧ old.workspaceId = role.workspaceId) :
  ActsOn db { db with roles := db.roles.put role } (some role.workspaceId)
  where
  elsewhere w hw := by
    refine .of_eq rfl (fun role' hrw => ?_) fun _ _ => Iff.rfl
    rw [Table.mem_put]
    constructor
    · rintro (rfl | ⟨hrole, _⟩)
      · exact absurd (congrArg some hrw) hw
      · exact hrole
    · intro hrole
      refine Or.inr ⟨hrole, fun hid => hw ?_⟩
      have hold := before role' (Table.get_eq_some_iff.mpr ⟨hrole, hid⟩)
      rw [← hold.2, hrw]
  here w hw := (owned w).put_role unprotected name before
  owner w userId _ ho := Or.inl ho

/-- Giving another role of the workspace to a member who is not the owner. -/
theorem ActsOn.set_member_role {db : Db} {w memberId : String} {workspace : Workspace}
    {role : Role} {member : Member} (owned : Owned db) (live : db.live w = some workspace)
    (stored : db.roles.get role.id = some role) (own : role.workspaceId = w)
    (unprotected : role.isProtected = false) (not_owner : memberId ≠ workspace.ownerId)
    (belongs : db.member w memberId = some member) :
  ActsOn db { db with members := db.members.put { member with roleId := role.id } } (some w)
  := by
  obtain ⟨_, hkey⟩ := Table.get_eq_some_iff.mp belongs
  obtain ⟨hmw, hmu⟩ := pair_inj.mp hkey
  have howner := ownerOf_of_live live
  constructor
  · intro w' hw'
    exact .of_eq rfl (fun _ _ => Iff.rfl) fun m hm =>
      mem_put_member hm fun h => hw' (congrArg some (hmw.symm.trans h))
  · rintro w' ⟨⟩
    refine (owned w).put_member _ hmw stored own unprotected (by rw [howner]; rfl) ?_
    rw [howner]
    intro h
    exact not_owner ((Option.some.inj h).trans hmu).symm
  · intro w' userId _ ho
    exact Or.inl ho

/-- Removing a member who is not the owner. -/
theorem Covers.remove_member {db : Db} {w memberId : String} {workspace : Workspace}
    (live : db.live w = some workspace) (not_owner : memberId ≠ workspace.ownerId) (w' : String) :
  Covers db { db with members := db.members.erase (pair w memberId) } w'
  where
  ownerOf := rfl
  roles _ _ := Iff.rfl
  joins m _ hm := (Table.mem_erase.mp hm).1
  stays m hm hmem ho := by
    refine Table.mem_erase.mpr ⟨hmem, fun hkey => ?_⟩
    obtain ⟨hmw, hmu⟩ := pair_inj.mp hkey
    rw [← hm, hmw, ownerOf_of_live live, hmu] at ho
    exact not_owner (Option.some.inj ho).symm

/-- Every transaction acts on one workspace at most, which is in its footprint. -/
theorem Effect.actsOn {work : Work} (h : Effect env s s' work) (owned : Owned s.db) :
  ∃ w₀, ActsOn s.db s'.db w₀
    ∧ ∀ w, w₀ = some w → .workspace w ∈ s'.touched ∨ .workspace w ∈ s.db.changed s'.db
  := by
  have same : ∀ {db db' : Db}, db'.workspaces = db.workspaces → db'.roles = db.roles →
      db'.members = db.members → ActsOn db db' none := by
    intro db db' hw hr hm
    exact .nowhere fun w => .of_eq (by rw [hw]) (by simp [hr]) (by simp [hm])
  cases h with
  | create user workspace new roles' permissions' owner joinedAt _ _ _ shape fresh added roles _ _
      owner_mem owner_name outside _ db _ =>
      obtain ⟨id, created, hshape⟩ := shape
      refine ⟨some workspace.id, .create joinedAt owned (by rw [hshape]) (by rw [hshape]) fresh added
        roles owner_mem owner_name outside (by rw [db]) (by rw [db]) (by rw [db]), ?_⟩
      rintro w ⟨⟩
      right
      show s'.db.workspaces.get workspace.id ≠ s.db.workspaces.get workspace.id
      rw [fresh, db, Table.get_put_self]
      simp
  | update workspace live _ _ db =>
      rw [db]
      exact ⟨none, .put_workspace live rfl rfl rfl, by simp⟩
  | replaceLogo workspace live _ _ db =>
      rw [db]
      exact ⟨none, .put_workspace live rfl rfl rfl, by simp⟩
  | @delete w _ workspace now newId memberIds live _ _ locked db =>
      obtain ⟨hworkspace, hid, hlive⟩ := Db.live_eq_some.mp live
      refine ⟨some w, ?_, ?_⟩
      · rw [db]
        have hdead : ownerOf (s.db.workspaces.put (workspace.softDelete now newId)) w = none := by
          simp [ownerOf_put, Workspace.softDelete, hid]
        constructor
        · intro w' hw'
          have hne : w' ≠ w := fun h => hw' (congrArg some h.symm)
          refine .of_eq ?_ (fun _ _ => Iff.rfl) fun member hm => ?_
          · exact ownerOf_put.trans (if_neg fun h => hne (h.trans hid))
          · simp [Db.returned, hm, hne]
        · rintro w' ⟨⟩
          exact .of_not_live hdead (by simp [Db.returned]) (owned w).protected_iff
        · rintro w' userId ⟨⟩ ho
          exact absurd (hdead.symm.trans ho) (by simp)
      · rintro w' ⟨⟩
        left
        rw [locked]
        simp
  | @addRole w _ _ workspace roleId _ _ assignable fresh locked db =>
      rw [db]
      refine ⟨some w, .put_role owned rfl assignable ?_, ?_⟩
      · intro old hold
        rw [fresh] at hold
        cases hold
      · rintro w' ⟨⟩
        left
        rw [locked]
        simp
  | @renameRole w _ _ _ workspace role _ _ assignable stored own unprotected locked db =>
      rw [db]
      refine ⟨some role.workspaceId, .put_role owned unprotected assignable ?_, ?_⟩
      · intro old hold
        have hid : role.id = _ := (Table.get_eq_some_iff.mp stored).2
        rw [hid, stored] at hold
        cases hold
        exact ⟨unprotected, rfl⟩
      · rintro w' ⟨⟩
        left
        rw [locked, own]
        simp
  | @deleteRole w roleId _ workspace role now _ _ stored own _ unassigned _ locked db =>
      rw [db]
      refine ⟨some w, ⟨?_, ?_, ?_⟩, ?_⟩
      · intro w' hw'
        refine .of_eq rfl (fun role' hrw => ?_) fun _ _ => Iff.rfl
        rw [Table.mem_erase]
        constructor
        · exact And.left
        · intro hrole
          refine ⟨hrole, fun hid => hw' ?_⟩
          obtain ⟨hmem, hid'⟩ := Table.get_eq_some_iff.mp stored
          obtain rfl : role' = role := Table.eq_of_key hrole hmem (hid.trans hid'.symm)
          rw [← own, hrw]
      · intro w' _
        have h := (owned w').erase_role unassigned
        exact ⟨h.protected_iff, h.belongs, h.holds, h.only⟩
      · intro w' userId _ ho
        exact Or.inl ho
      · rintro w' ⟨⟩
        left
        rw [locked]
        simp
  | setPermissions _ _ _ _ _ _ _ _ _ db =>
      exact ⟨none, same (by rw [db]) (by rw [db]) (by rw [db]), by simp⟩
  | @setMemberRole w memberId roleId _ workspace role member live _ stored own unprotected not_owner
      belongs locked db =>
      rw [db]
      obtain rfl : role.id = roleId := (Table.get_eq_some_iff.mp stored).2
      refine ⟨some w, .set_member_role owned live stored own unprotected not_owner belongs, ?_⟩
      rintro w' ⟨⟩
      left
      rw [locked]
      simp
  | removeMember workspace member live _ not_owner _ _ db =>
      rw [db]
      refine ⟨none, .nowhere fun w' => ?_, by simp⟩
      have h := Covers.remove_member live not_owner w'
      exact ⟨h.ownerOf, h.roles, h.joins, h.stays⟩
  | @transfer w targetId userId workspace target previous admin roles' permissions' live allowed
      distinct belongs belongs' admin_shape admin_mem locked db _ =>
      have hmem : (admin ∈ s.db.roles ∧ roles' = s.db.roles)
          ∨ (s.db.roles.get admin.id = none ∧ admin = .system admin.id w adminRole
            ∧ roles' = s.db.roles.put admin) :=
        admin_mem.imp (fun h => ⟨h.1, h.2.1⟩) fun h => ⟨h.1, h.2.1, h.2.2.1⟩
      refine ⟨some w, .transfer owned live (allowed.owner (by decide) (by decide) live) distinct
        belongs belongs' admin_shape hmem (by rw [db]) (by rw [db]) (by rw [db]), ?_⟩
      rintro w' ⟨⟩
      left
      rw [locked]
      simp
  | issue _ _ _ _ _ _ _ _ _ _ _ _ _ _ _ _ _ _ _ _ _ _ db =>
      exact ⟨none, same (by rw [db]) (by rw [db]) (by rw [db]), by simp⟩
  | revoke _ _ _ _ _ _ _ _ _ db =>
      exact ⟨none, same (by rw [db]) (by rw [db]) (by rw [db]), by simp⟩
  | accept joins =>
      obtain ⟨w, hacts, hlocked⟩ := joins.actsOn owned
      exact ⟨some w, hacts, by rintro w' ⟨⟩; exact Or.inl hlocked⟩
  | register now _ db =>
      exact ⟨none, same (by rw [db]; simp) (by rw [db]; simp) (by rw [db]; simp), by simp⟩
  | registerAndJoin now s₁ db _ _ joins =>
      have hw : s₁.db.workspaces = s.db.workspaces := by rw [db]; simp
      have hr : s₁.db.roles = s.db.roles := by rw [db]; simp
      have hm : s₁.db.members = s.db.members := by rw [db]; simp
      obtain ⟨w, hacts, hlocked⟩ := joins.actsOn (owned.of_same hw hr hm)
      exact ⟨some w, hacts.of_same hw hr hm, by rintro w' ⟨⟩; exact Or.inl hlocked⟩
  | ensureAccount now _ db =>
      exact ⟨none, same (by rw [db]; simp) (by rw [db]; simp) (by rw [db]; simp), by simp⟩
  | rename _ _ _ _ db => exact ⟨none, same (by rw [db]) (by rw [db]) (by rw [db]), by simp⟩
  | replaceAvatar _ _ _ db => exact ⟨none, same (by rw [db]) (by rw [db]) (by rw [db]), by simp⟩
  | deleteAccount user _ _ owns_none _ db =>
      rw [db]
      refine ⟨none, .nowhere fun w => ⟨rfl, fun _ _ => Iff.rfl, ?_, ?_⟩, by simp⟩
      · intro m _ hm
        exact (Table.mem_filter.mp hm).1
      · intro m _ hm ho
        obtain ⟨workspace, hworkspace, _, hlive, howner⟩ := ownerOf_eq_some.mp ho
        refine Table.mem_filter.mpr ⟨hm, decide_eq_true fun hu => ?_⟩
        exact owns_none workspace hworkspace hlive (howner.trans hu)
  | deleteBatch _ db =>
      exact ⟨none, same (by rw [db]; rfl) (by rw [db]; rfl) (by rw [db]; rfl), by simp⟩
  | purgeNothing _ same' =>
      rw [same']
      exact ⟨none, same rfl rfl rfl, by simp⟩
  | @purgeRows w workspace stored deleted _ db =>
      obtain ⟨hmem, hid⟩ := Table.get_eq_some_iff.mp stored
      have hdead : ownerOf s'.db.workspaces w = none := by
        rw [db, Db.purge, ownerOf, hid, Table.get_erase_self]
        rfl
      refine ⟨some w, ⟨?_, ?_, ?_⟩, ?_⟩
      · intro w' hw'
        have hne : w' ≠ w := fun h => hw' (congrArg some h.symm)
        rw [db]
        refine .of_eq ?_ (fun role hrw => ?_) fun member hm => ?_
        · exact ownerOf_congr (Table.get_erase_of_ne _ fun h => hne (h.trans hid))
        · simp [Db.purge, hrw, hid, hne]
        · simp [Db.purge, hm, hid, hne]
      · rintro w' ⟨⟩
        refine .of_not_live hdead ?_ ?_
        · rw [db]
          simp [Db.purge, hid]
        · intro role hrole
          rw [db] at hrole
          exact (owned w).protected_iff role (Table.mem_filter.mp hrole).1
      · rintro w' userId ⟨⟩ ho
        rw [hdead] at ho
        cases ho
      · rintro w' ⟨⟩
        right
        show s'.db.workspaces.get w ≠ s.db.workspaces.get w
        rw [db, Db.purge, stored, hid, Table.get_erase_self]
        simp
  | createProduct _ _ _ _ db => exact ⟨none, same (by rw [db]) (by rw [db]) (by rw [db]), by simp⟩
  | updateProduct _ _ _ _ _ _ db =>
      exact ⟨none, same (by rw [db]) (by rw [db]) (by rw [db]), by simp⟩
  | deleteProduct _ _ _ _ db => exact ⟨none, same (by rw [db]) (by rw [db]) (by rw [db]), by simp⟩
  | attachImage _ _ _ _ _ _ _ _ db =>
      exact ⟨none, same (by rw [db]) (by rw [db]) (by rw [db]), by simp⟩
  | removeImage _ _ _ _ _ _ db =>
      exact ⟨none, same (by rw [db]) (by rw [db]) (by rw [db]), by simp⟩
  | reorderImages _ _ _ _ _ _ db =>
      exact ⟨none, same (by rw [db]) (by rw [db]) (by rw [db]), by simp⟩

/-! ### All runs -/

theorem Owned.empty :
  Owned Db.empty
  := by
  intro w
  exact ⟨by simp [Db.empty], by simp [Db.empty], by simp [Db.empty, ownerOf],
    by simp [Db.empty]⟩

/-- However transactions overlap, after each commit the rows of every workspace satisfy what
they have to. -/
theorem history_owned {commits : List (Commit Db RowId Work)}
    (history : History (system env) .empty commits) :
  Kept (fun db => Owned db ∧ db.Unique) (fun _ => Disciplined) .empty commits
  := by
  apply history.kept ⟨.empty, Db.empty_unique⟩
  rintro work base final footprint now ⟨hbase, _⟩ ⟨hnow, _⟩ runs meanwhile valid
  obtain ⟨s, s', heffect, rfl, rfl, _, hfootprint⟩ := Runs.effect runs
  obtain ⟨w₀, hacts, hlocked⟩ := heffect.actsOn hbase
  have hchanged : ∀ row ∈ s.db.changed s'.db, row ∈ footprint :=
    fun row hrow => (hfootprint row).mpr (Or.inl hrow)
  have hdone : Disciplined footprint s.db s'.db :=
    hacts.disciplined (fun w hw => (hfootprint _).mpr (hlocked w hw).symm) hchanged
  have hseen := undisturbed_of_meanwhile meanwhile
  exact ⟨⟨fun w => .merge hdone hseen hchanged (hacts.owned hbase w) (hnow w), valid⟩,
    hdone.merge hseen hchanged⟩

/-- The rows of every workspace satisfy what they have to in every reachable session. -/
theorem Reachable.owned {ok : Work → Prop} (h : Reachable env ok s) :
  Owned s.db
  := by
  obtain ⟨commits, history, hcurrent, _⟩ := h.history
  exact hcurrent ▸ (history_owned history).current.1

end MvpApi
