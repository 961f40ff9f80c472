import MvpApi.Safety.Onboarding
import MvpApi.Safety.Ownership
import MvpApi.Safety.Purges

/-!
# An account can be erased

The deletion of an account is refused while it owns a workspace, the deletion of a workspace is
refused to an account that is not onboarded, and an account that was given a workspace before it had
a name is not. So whoever wants to leave takes a name first, then deletes the workspaces, and then
the account, and all workspaces that it has ever deleted are purged on the way. No step of this is
ever refused, whatever has happened before, as long as the ids that are drawn on the way were not
foreseen in the slugs that others have chosen. The limit on the rows that one transaction may change
is left out of account here.
-/

set_option autoImplicit false

namespace MvpApi

open Program Exec

variable {env : Env} {s s' : Session}

/-! ### Transactions in a row -/

/-- Transactions of a list succeed, one after the other. -/
inductive Accepts (env : Env) : Session → List Work → Session → Prop
  | nil (s : Session) : Accepts env s [] s
  | cons {s s₁ s' : Session} {work : Work} {works : List Work}
      (returns : Returns work.body env s () s₁) (unique : s₁.db.Unique)
      (rest : Accepts env s₁.done works s') : Accepts env s (work :: works) s'

/-- Transactions that are allowed lead on. -/
theorem Accepts.reaches {ok : Work → Prop} {s₀ : Session} {works : List Work}
    (h : Accepts env s works s') (run : Reaches env ok s₀ s) (allowed : ∀ work ∈ works, ok work) :
  Reaches env ok s₀ s'
  := by
  induction h with
  | nil => exact run
  | cons returns unique _ ih =>
      obtain ⟨first, rest⟩ := List.forall_mem_cons.mp allowed
      exact ih (.commit run first returns unique) rest

/-! ### What is left alone -/

/-- An account owns a workspace, which may be deleted. -/
def Db.Owns (db : Db) (userId workspaceId : String) : Prop :=
  ∃ workspace ∈ db.workspaces, workspace.id = workspaceId ∧ workspace.ownerId = userId

/-- From `db` to `db'`, of the rows that are not of an account or of some workspaces, nothing has
changed but the onboarding status of other accounts. -/
structure Db.LeavesAlone (db db' : Db) (userId : String) (gone : String → Prop) : Prop where
  workspaces : Table.Same (fun row => ¬ gone row.id) db.workspaces db'.workspaces
  roles : Table.Same (fun row => ¬ gone row.workspaceId) db.roles db'.roles
  permissions : ∀ role ∈ db.roles, ¬ gone role.workspaceId →
    Table.Same (·.roleId = role.id) db.rolePermissions db'.rolePermissions
  members : Table.Same (fun row => ¬ gone row.workspaceId ∧ row.userId ≠ userId)
    db.members db'.members
  invitations : Table.Same (fun row => ¬ gone row.workspaceId ∧ row.invitedBy ≠ userId)
    db.invitations db'.invitations
  products : Table.Same (fun row => ¬ gone row.workspaceId) db.products db'.products
  images : Table.Same (fun row => ¬ gone row.workspaceId) db.images db'.images
  users : ∀ other ≠ userId, ∃ status : User → OnboardingStatus,
    db'.users.get other = (db.users.get other).map fun user =>
      { user with onboardingStatus := status user }

section LeavesAlone

variable {db db₁ db' : Db} {userId : String} {gone gone' : String → Prop}

namespace Db.LeavesAlone

theorem refl :
  db.LeavesAlone db userId gone
  := ⟨.refl _ _, .refl _ _, fun _ _ _ => .refl _ _, .refl _ _, .refl _ _, .refl _ _, .refl _ _,
    fun _ _ => ⟨User.onboardingStatus, Option.map_id'.symm⟩⟩

theorem mono (h : db.LeavesAlone db' userId gone) (more : ∀ id, gone id → gone' id) :
  db.LeavesAlone db' userId gone'
  where
  workspaces := h.workspaces.mono fun row stays => mt (more row.id) stays
  roles := h.roles.mono fun row stays => mt (more row.workspaceId) stays
  permissions role hrole stays := h.permissions role hrole (mt (more role.workspaceId) stays)
  members := h.members.mono fun row stays => stays.imp_left (mt (more row.workspaceId))
  invitations := h.invitations.mono fun row stays => stays.imp_left (mt (more row.workspaceId))
  products := h.products.mono fun row stays => mt (more row.workspaceId) stays
  images := h.images.mono fun row stays => mt (more row.workspaceId) stays
  users := h.users

theorem trans (h : db.LeavesAlone db₁ userId gone) (h' : db₁.LeavesAlone db' userId gone) :
  db.LeavesAlone db' userId gone
  where
  workspaces := h.workspaces.trans h'.workspaces
  roles := h.roles.trans h'.roles
  permissions role hrole stays :=
    (h.permissions role hrole stays).trans
      (h'.permissions role ((h.roles role stays).mpr hrole) stays)
  members := h.members.trans h'.members
  invitations := h.invitations.trans h'.invitations
  products := h.products.trans h'.products
  images := h.images.trans h'.images
  users other hother := by
    obtain ⟨status, heq⟩ := h.users other hother
    obtain ⟨status', heq'⟩ := h'.users other hother
    refine ⟨fun user => status' { user with onboardingStatus := status user }, ?_⟩
    rw [heq', heq, Option.map_map]
    rfl

end Db.LeavesAlone

/-- What leaves the other workspaces alone leaves alone what is of others. -/
theorem Isolated.leavesAlone {workspaceId : String} (h : Isolated workspaceId db db')
    (userId : String) (isGone : gone workspaceId) :
  db.LeavesAlone db' userId gone
  := by
  have apart : ∀ id, ¬ gone id → id ≠ workspaceId := fun id stays same => stays (same ▸ isGone)
  refine ⟨?_, ?_, ?_, ?_, ?_, ?_, ?_, ?_⟩
  · exact h.rows.workspaces.mono fun row stays => apart row.id stays
  · exact h.rows.roles.mono fun row stays => apart row.workspaceId stays
  · exact fun role hrole stays => h.rows.permissions role hrole (apart role.workspaceId stays)
  · exact h.rows.members.mono fun row stays => apart row.workspaceId stays.1
  · exact h.rows.invitations.mono fun row stays => apart row.workspaceId stays.1
  · exact h.rows.products.mono fun row stays => apart row.workspaceId stays
  · exact h.rows.images.mono fun row stays => apart row.workspaceId stays
  · intro other _
    by_cases same : db'.users.get other = db.users.get other
    · exact ⟨User.onboardingStatus, same.trans Option.map_id'.symm⟩
    · obtain ⟨_, user, status, before, after⟩ := h.users other same
      refine ⟨fun _ => status, ?_⟩
      rw [after, before]
      rfl

/-- Where a row of the account is written, everything else is left alone. -/
theorem Db.LeavesAlone.of_users {user : User} (own : user.id = userId) :
  db.LeavesAlone { db with users := db.users.put user } userId gone
  := by
  refine { Db.LeavesAlone.refl with users := fun other hother => ⟨User.onboardingStatus, ?_⟩ }
  rw [← own] at hother
  exact (db.users.get_put_of_ne hother).trans Option.map_id'.symm

/-- The rows without an account, its memberships and the invitations that it has sent. -/
def Db.withoutAccount (db : Db) (userId : String) : Db :=
  { db with
    members := db.members.filter (·.userId ≠ userId)
    invitations := db.invitations.filter (·.invitedBy ≠ userId)
    users := db.users.erase userId }

theorem Db.LeavesAlone.withoutAccount :
  db.LeavesAlone (db.withoutAccount userId) userId gone
  := { (Db.LeavesAlone.refl : db.LeavesAlone db userId gone) with
    members := .filter fun _ _ stays => decide_eq_true stays.2
    invitations := .filter fun _ _ stays => decide_eq_true stays.2
    users := fun _ hother =>
      ⟨User.onboardingStatus, (db.users.get_erase_of_ne hother).trans Option.map_id'.symm⟩ }

/-- Removing an account keeps the unique constraints. -/
theorem Db.Unique.withoutAccount (h : db.Unique) :
  (db.withoutAccount userId).Unique
  := by
  refine h.mono (fun row hrow => ?_) (fun _ hrow => hrow) (fun _ hrow => hrow) (fun row hrow => ?_)
    fun _ hrow => hrow
  · exact (Table.mem_erase.mp hrow).1
  · exact (Table.mem_filter.mp hrow).1

end LeavesAlone

/-- No row names the account any more, but for the invitations of others. -/
structure Db.Erased (db : Db) (userId : String) : Prop where
  account : db.users.get userId = none
  memberships : ∀ member ∈ db.members, member.userId ≠ userId
  invitations : ∀ invitation ∈ db.invitations, invitation.invitedBy ≠ userId
  workspaces : ∀ workspace ∈ db.workspaces, workspace.ownerId ≠ userId

/-! ### Deleting a workspace -/

/-- The slug of a workspace that is deleted. -/
def deletedSlug (newId : String) : String := truncate ("deleted-" ++ newId) 50

/-- The slugs of workspaces that are deleted with the next `n` ids are new, and differ. -/
structure Session.Unforeseen (env : Env) (s : Session) (n : ℕ) : Prop where
  unused : ∀ i < n, ∀ workspace ∈ s.db.workspaces,
    workspace.slug ≠ deletedSlug (env.uuid7 (s.ids + i))
  distinct : ∀ i < n, ∀ j < n,
    deletedSlug (env.uuid7 (s.ids + i)) = deletedSlug (env.uuid7 (s.ids + j)) → i = j

/-- For one deletion only the next id counts. -/
theorem Session.Unforeseen.one
    (unused : ∀ workspace ∈ s.db.workspaces, workspace.slug ≠ deletedSlug (env.uuid7 s.ids)) :
  s.Unforeseen env 1
  where
  unused i hi := by
    rw [Nat.lt_one_iff.mp hi]
    exact unused
  distinct i hi j hj _ := (Nat.lt_one_iff.mp hi).trans (Nat.lt_one_iff.mp hj).symm

/-- The rows once a workspace is deleted, before its members are sent back. -/
def Db.closed (db : Db) (workspace : Workspace) (now : Time) (newId : String) : Db :=
  { db with
    workspaces := db.workspaces.put (workspace.softDelete now newId)
    members := db.members.filter (·.workspaceId ≠ workspace.id)
    invitations := db.invitations.map (·.revokePending workspace.id)
      (Invitation.revokePending_id workspace.id) }

/-- The accounts that belong to a workspace. -/
def Db.memberIds (db : Db) (workspaceId : String) : List String :=
  (db.members.rows.filter (·.workspaceId = workspaceId)).map Member.userId

/-- Sending an account back changes its status only. -/
theorem User.returned_eq (user : User) (belongs : String → Bool) (userIds : List String) :
  user.returned belongs userIds
    = { user with onboardingStatus := (user.returned belongs userIds).onboardingStatus }
  := by
  unfold User.returned
  split
  · rfl
  · rfl

namespace Db

variable {db : Db} {workspace : Workspace} {now : Time} {newId : String}

/-- Deleting a workspace with a new slug keeps the unique constraints. -/
theorem Unique.closed (h : db.Unique)
    (unused : ∀ other ∈ db.workspaces, other.slug ≠ deletedSlug newId) :
  (db.closed workspace now newId).Unique
  := by
  have rewritten : Unique { db with
      members := (db.closed workspace now newId).members
      invitations := (db.closed workspace now newId).invitations } := by
    refine h.rewrite (fun user huser => ⟨user, huser, rfl, rfl⟩) fun invitation hinvitation => ?_
    have hinvitation : invitation ∈ db.invitations.map (·.revokePending workspace.id)
      (Invitation.revokePending_id workspace.id) := hinvitation
    obtain ⟨old, hold, rfl⟩ := Table.mem_map.mp hinvitation
    obtain ⟨status, heq, _⟩ := old.revokePending_eq workspace.id
    exact ⟨old, hold, by rw [heq], by rw [heq]⟩
  refine ⟨rewritten.email, fun ws hws ws' hws' same => ?_, rewritten.roleName, rewritten.tokenHash,
    rewritten.uploadKey⟩
  rcases Table.mem_put.mp hws with rfl | ⟨hws, _⟩
  · rcases Table.mem_put.mp hws' with rfl | ⟨hws', _⟩
    · rfl
    · exact absurd same.symm (unused ws' hws')
  · rcases Table.mem_put.mp hws' with rfl | ⟨hws', _⟩
    · exact absurd same (unused ws hws)
    · exact h.slug ws hws ws' hws' same

/-- Sending accounts back keeps the unique constraints. -/
theorem Unique.returned (h : db.Unique) (userIds : List String) :
  (db.returned userIds).Unique
  := by
  refine h.rewrite (fun user huser => ?_) fun invitation hinvitation =>
    ⟨invitation, hinvitation, rfl, rfl⟩
  have huser : user ∈ db.users.map (·.returned db.belongsToAny userIds) fun user =>
    user.returned_id db.belongsToAny userIds := huser
  obtain ⟨old, hold, rfl⟩ := Table.mem_map.mp huser
  exact ⟨old, hold, (old.returned_id _ _).symm, by rw [old.returned_eq]⟩

/-- Of the accounts that are sent back only the status changes. -/
theorem users_returned (userIds : List String) (id : String) :
  (db.returned userIds).users.get id = (db.users.get id).map fun user =>
    { user with onboardingStatus := (user.returned db.belongsToAny userIds).onboardingStatus }
  := by
  rw [Db.returned, Table.get_map]
  congr 1
  funext user
  exact user.returned_eq _ _

end Db

open Tx in
/-- Who may delete a workspace deletes it. -/
theorem WorkspaceTx.returns_delete {workspaceId userId : String} {workspace : Workspace}
    (live : s.db.live workspaceId = some workspace)
    (allowed : s.db.Allows userId "workspace.delete" workspaceId)
    (unique : (s.db.closed workspace (env.clock s.ticks) (env.uuid7 s.ids)).Unique) :
  ∃ s', Returns (WorkspaceTx.delete workspaceId userId) env s () s'
    ∧ s'.db = (s.db.closed workspace (env.clock s.ticks) (env.uuid7 s.ids)).returned
        (s.db.memberIds workspaceId)
    ∧ s'.ids = s.ids + 1
  := by
  obtain ⟨_, rfl, _⟩ := Db.live_eq_some.mp live
  unfold WorkspaceTx.delete Members.userIds Members.removeAll Invitations.revokePending
    Workspaces.save
  simp only [returns_bind, WorkspaceTx.returns_locked, returns_require, returns_select,
    returns_write, returns_now, returns_newId, returns_flush,
    WorkspaceTx.returns_returnToWorkspaceStep]
  exact ⟨_, ⟨workspace, _, ⟨live, rfl⟩, (), _, ⟨allowed, rfl⟩, _, _, ⟨rfl, rfl⟩, (), _, rfl, (), _,
    rfl, _, _, ⟨rfl, rfl⟩, _, _, ⟨rfl, rfl⟩, (), _, rfl, (), _, ⟨unique, rfl⟩, rfl⟩, rfl, rfl⟩

/-! ### What an account may do -/

/-- No transaction takes a blank name for an account. -/
def Work.Named (work : Work) : Prop :=
  ∀ userId displayName, work = .rename userId displayName → ¬ Blank displayName

/-- An onboarded account has come far enough for any action. -/
theorem completed_mem_onboardingNeededFor (action : String) :
  .completed ∈ onboardingNeededFor action
  := by
  unfold onboardingNeededFor
  split
  · decide
  · split
    · decide
    · decide

/-- An account has a status that any action on itself is open to. -/
theorem OnboardingStatus.mem_anyStatus (status : OnboardingStatus) :
  status ∈ anyStatus
  := by
  cases status with
  | profilePending => decide
  | workspacePending => decide
  | completed => decide

/-- What an account may always do. -/
theorem Db.allows_profile {db : Db} {action userId : String} {user : User}
    (account : db.users.get userId = some user) (own : isOnOwnAccount action = true)
    (open_ : onboardingNeededFor action = anyStatus) :
  db.Allows userId action userId
  := by
  refine ⟨⟨user, account, open_ ▸ user.onboardingStatus.mem_anyStatus⟩, ?_⟩
  rw [Db.permits, if_pos own]
  exact decide_eq_true rfl

/-- The owner of a workspace may do anything with it, once the account has a name. -/
theorem Reachable.owner_allowed (reachable : Reachable env Work.Named s) {workspaceId : String}
    {workspace : Workspace} (live : s.db.live workspaceId = some workspace) {user : User}
    (account : s.db.users.get workspace.ownerId = some user) (named : ¬ Blank user.displayName)
    {action : String} (own : isOnOwnAccount action = false) :
  s.db.Allows workspace.ownerId action workspaceId
  := by
  obtain ⟨member, hmember, hworkspace, huser, _⟩ :=
    (reachable.owned workspaceId).holds _ (ownerOf_of_live live)
  have belongs : s.db.member workspaceId workspace.ownerId = some member :=
    Table.get_eq_some_iff.mpr ⟨hmember, by rw [Member.key, hworkspace, huser]⟩
  refine ⟨⟨user, account, ?_⟩, (Db.permits_eq_true own).mpr ⟨workspace, member, live, belongs, ?_⟩⟩
  · obtain ⟨stored, hid⟩ := Table.get_eq_some_iff.mp account
    have complete : user.onboardingStatus = .completed := by
      rw [Reachable.truthful reachable user stored, User.due_eq_completed]
      exact ⟨named, Db.belongsToAny_eq_true.mpr ⟨member, hmember, huser.trans hid.symm⟩⟩
    rw [complete]
    exact completed_mem_onboardingNeededFor action
  · rw [Workspace.grants, if_pos rfl]
    rfl

/-- An account takes a name. -/
theorem AccountTx.returns_rename {userId displayName : String} {user : User}
    (account : s.db.users.get userId = some user) :
  Returns (AccountTx.rename userId displayName) env s
    (user.rename displayName (s.db.belongsToAny userId))
    (s.write fun db => { db with
      users := db.users.put (user.rename displayName (s.db.belongsToAny userId)) })
  := by
  unfold AccountTx.rename Users.get Users.save Members.belongsToAny
  simp only [returns_bind, returns_require, Tx.returns_select, Tx.returns_check, existing_eq_ok,
    Tx.returns_write, returns_pure]
  exact ⟨(), _, ⟨Db.allows_profile account (by decide) (by decide), rfl⟩, _, _, ⟨rfl, rfl⟩, user, _,
    ⟨account, rfl⟩, _, _, ⟨rfl, rfl⟩, (), _, rfl, rfl, rfl⟩

/-- The live workspaces are all of others. -/
def Db.OwnsNone (db : Db) (userId : String) : Prop :=
  ∀ workspace ∈ db.workspaces, workspace.deletedAt = none → workspace.ownerId ≠ userId

/-- An account that owns no live workspace may be deleted. -/
theorem AccountTx.returns_ensureDeletable {userId : String} {user : User}
    (account : s.db.users.get userId = some user) (owns_none : s.db.OwnsNone userId) :
  Returns (AccountTx.ensureDeletable userId) env s () s
  := by
  unfold AccountTx.ensureDeletable Workspaces.anyOwnedBy
  simp only [returns_bind, returns_require, Tx.returns_select, Tx.returns_refuseUnless]
  refine ⟨(), _, ⟨Db.allows_profile account (by decide) (by decide), rfl⟩, _, _, ⟨rfl, rfl⟩, ?_, rfl⟩
  refine Table.any_eq_false.mpr fun workspace hworkspace => ?_
  cases hdeleted : workspace.deletedAt with
  | none => simp [owns_none workspace hworkspace hdeleted]
  | some deletedAt => simp [Workspace.isDeleted, hdeleted]

/-- An account that owns no live workspace is deleted. -/
theorem AccountTx.returns_delete_of {userId : String} {user : User}
    (account : s.db.users.get userId = some user) (owns_none : s.db.OwnsNone userId) :
  ∃ s', Returns (AccountTx.delete userId) env s user s' ∧ s'.db = s.db.withoutAccount userId
  := by
  have returns : ∃ s', Returns (AccountTx.delete userId) env s user s' := by
    unfold AccountTx.delete Users.get Members.removeUser Invitations.deleteSentBy Users.delete
    simp only [returns_bind, Tx.returns_select, Tx.returns_check, existing_eq_ok, Tx.returns_write,
      returns_pure]
    exact ⟨_, (), _, AccountTx.returns_ensureDeletable account owns_none, _, _, ⟨rfl, rfl⟩, user, _,
      ⟨account, rfl⟩, (), _, rfl, (), _, rfl, (), _, rfl, rfl, rfl⟩
  obtain ⟨s', returns⟩ := returns
  obtain ⟨_, _, _, rfl⟩ := AccountTx.returns_delete returns
  exact ⟨_, returns, rfl⟩

/-! ### Leaving for good -/

/-- A list has the live workspaces that an account owns. -/
def Db.OwnedBy (db : Db) (userId : String) (owned : List String) : Prop :=
  ∀ id, id ∈ owned ↔ ∃ workspace, db.live id = some workspace ∧ workspace.ownerId = userId

/-- Of the workspaces that an account owns one is left out when it is deleted. -/
theorem Db.OwnedBy.closed {db : Db} {userId : String} {workspace : Workspace} {now : Time}
    {newId : String} {owned : List String} (h : db.OwnedBy userId (workspace.id :: owned))
    (nodup : (workspace.id :: owned).Nodup) (userIds : List String) :
  ((db.closed workspace now newId).returned userIds).OwnedBy userId owned
  := by
  intro id
  have hget : ((db.closed workspace now newId).returned userIds).workspaces.get id
      = if id = workspace.id then some (workspace.softDelete now newId)
        else db.workspaces.get id := rfl
  rw [Db.live, hget]
  by_cases hid : id = workspace.id
  · rw [if_pos hid, hid]
    refine iff_of_false (List.nodup_cons.mp nodup).1 ?_
    rintro ⟨other, hother, _⟩
    cases hother
  · rw [if_neg hid]
    exact (h id).symm.trans (List.mem_cons.trans (or_iff_right hid)) |>.symm

/-- After one workspace is deleted, those that are deleted next are deleted with new slugs. -/
theorem Session.Unforeseen.closed {n : ℕ} {workspace : Workspace} {now : Time}
    {userIds : List String} (h : s.Unforeseen env (n + 1))
    (db : s'.db = (s.db.closed workspace now (env.uuid7 s.ids)).returned userIds)
    (ids : s'.ids = s.ids + 1) :
  s'.Unforeseen env n
  where
  unused i hi other hother := by
    rw [ids, add_right_comm, add_assoc]
    rw [db] at hother
    rcases Table.mem_put.mp hother with rfl | ⟨hother, _⟩
    · intro same
      have hzero := h.distinct 0 (Nat.succ_pos n) (i + 1) (Nat.succ_lt_succ hi) same
      exact absurd hzero (Nat.succ_ne_zero i).symm
    · exact h.unused (i + 1) (Nat.succ_lt_succ hi) other hother
  distinct i hi j hj same := by
    rw [ids, add_right_comm, add_assoc, add_right_comm s.ids 1 j, add_assoc] at same
    exact Nat.succ_injective
      (h.distinct (i + 1) (Nat.succ_lt_succ hi) (j + 1) (Nat.succ_lt_succ hj) same)

/-- An account with a name deletes the workspaces that it owns one after the other. -/
theorem Reachable.deletes_owned (reachable : Reachable env Work.Named s) {userId : String}
    {user : User} (account : s.db.users.get userId = some user) (named : ¬ Blank user.displayName)
    {owned : List String} (nodup : owned.Nodup) (all : s.db.OwnedBy userId owned)
    (unforeseen : s.Unforeseen env owned.length) {gone : String → Prop}
    (allGone : ∀ id ∈ owned, gone id) :
  ∃ s', Accepts env s (owned.map (.delete · userId)) s'
    ∧ (∃ user', s'.db.users.get userId = some user') ∧ s'.db.OwnedBy userId []
    ∧ s'.db.products = s.db.products ∧ s.db.LeavesAlone s'.db userId gone
  := by
  induction owned generalizing s user with
  | nil => exact ⟨s, .nil s, ⟨user, account⟩, all, rfl, .refl⟩
  | cons id owned ih =>
      obtain ⟨workspace, live, rfl⟩ := (all id).mp List.mem_cons_self
      obtain ⟨_, rfl, _⟩ := Db.live_eq_some.mp live
      have unused := unforeseen.unused 0 (Nat.succ_pos _)
      obtain ⟨s₁, returns, db, ids⟩ := WorkspaceTx.returns_delete live
        (reachable.owner_allowed live account named (by decide)) (reachable.unique.closed unused)
      have returns : Returns (Work.delete workspace.id workspace.ownerId).body env s () s₁ :=
        returns
      have unique : s₁.db.Unique := db ▸ (reachable.unique.closed unused).returned _
      obtain ⟨user₁, account₁, named₁⟩ : ∃ user₁, s₁.db.users.get workspace.ownerId = some user₁
          ∧ ¬ Blank user₁.displayName := by
        rw [db, Db.users_returned]
        show ∃ user₁, (s.db.users.get workspace.ownerId).map _ = some user₁ ∧ _
        rw [account]
        exact ⟨_, rfl, named⟩
      have reached : Reachable env Work.Named s₁.done :=
        .commit reachable (fun _ _ h => by cases h) returns unique
      have unforeseen₁ : s₁.done.Unforeseen env owned.length :=
        Session.Unforeseen.closed unforeseen db ids
      obtain ⟨isGone, othersGone⟩ := List.forall_mem_cons.mp allGone
      obtain ⟨s', accepts, account', none', products, alone⟩ := ih reached account₁ named₁
        (List.nodup_cons.mp nodup).2 (show s₁.db.OwnedBy _ _ from db ▸ all.closed nodup _)
        unforeseen₁ othersGone
      have isolated : Isolated workspace.id s.db s₁.db :=
        (Work.effect returns).1.isolated rfl reachable.references reachable.catalogued
      have sold : s₁.db.products = s.db.products := by rw [db]; rfl
      exact ⟨s', .cons returns unique accepts, account', none', products.trans sold,
        (isolated.leavesAlone _ isGone).trans alone⟩

/-! ### What a purge leaves alone -/

/-- Deleting products of one workspace leaves the others alone. -/
theorem Db.isolated_deleteProducts {db : Db} (catalogued : db.Catalogued) {ids : List String}
    {workspaceId : String}
    (own : ∀ row ∈ db.products, row.id ∈ ids → row.workspaceId = workspaceId) :
  Isolated workspaceId db (db.deleteProducts ids)
  := by
  refine Agree.isolated { Agree.refl workspaceId db with
    products := .filter fun row hrow stays => decide_eq_true fun hid => stays (own row hrow hid)
    images := .filter fun image himage stays => decide_eq_true fun hid => stays ?_ } rfl
  obtain ⟨row, hrow, hproduct, hworkspace⟩ := catalogued image himage
  exact hworkspace.symm.trans (own row hrow (hproduct ▸ hid))

/-- Removing the rows of one workspace leaves the others alone. -/
theorem Db.isolated_purge (db : Db) (workspace : Workspace) :
  Isolated workspace.id db (db.purge workspace)
  := by
  refine Agree.isolated { Agree.refl workspace.id db with
    workspaces := .erase fun other _ hid => not_not.mpr hid
    roles := .filter fun role _ stays => decide_eq_true stays
    permissions := fun role hrole stays => .filter fun row _ hrow => ?_
    members := .filter fun member _ stays => decide_eq_true stays
    invitations := .filter fun invitation _ stays => decide_eq_true stays } rfl
  rw [hrow, Table.mem_def.mp hrole, Option.any_some, decide_eq_false stays, Bool.not_false]

/-- A transaction of a purge leaves the other workspaces alone. -/
theorem Request.RunsPurge.isolated {α : Type} {body : Tx α} {a : α} {workspaceId : String}
    (runs : (Request.attempt (μ := MediaRequest) body).RunsPurge workspaceId)
    (catalogued : s.db.Catalogued) (returns : Returns body env s a s') :
  Isolated workspaceId s.db s'.db ∧ s'.db.Catalogued
  := by
  have returns' : Returns (Tx.run' body) env s () s' := Tx.returns_run'.mpr ⟨a, returns⟩
  rcases runs with hbody | hbody
  · rw [hbody] at returns'
    have effect := (Work.effect returns').1
    refine ⟨?_, effect.catalogued catalogued⟩
    cases effect with
    | deleteBatch _ db =>
        rw [db]
        apply Db.isolated_deleteProducts catalogued
        intro row hrow hid
        obtain ⟨row', hrow', same, own⟩ := Db.mem_firstProducts hid
        obtain rfl := Table.eq_of_key hrow' hrow same
        exact own
  · rw [hbody] at returns'
    have effect := (Work.effect returns').1
    refine ⟨?_, effect.catalogued catalogued⟩
    cases effect with
    | purgeNothing _ same =>
        rw [same]
        exact .refl workspaceId s.db
    | purgeRows workspace stored _ _ db =>
        rw [db]
        obtain ⟨_, rfl⟩ := Table.get_eq_some_iff.mp stored
        exact Db.isolated_purge s.db workspace

/-! ### The deletion of an account -/

/-- A call runs alone. The keys that the storage is told to delete are kept, the latest first, and
the user pool may refuse to delete an account. -/
def departing (env : Env) : Setting MediaRequest (List String) :=
  .alone env fun request keys y keys' => match request, y with
    | .media (.delete key), .ok _ => keys' = key :: keys
    | .deleteAccount _, _ => keys' = keys
    | _, _ => False

section Departing

variable {w w' : World (List String)} {α β : Type} {userId : String} {urlFor : String → String}

/-- What a purge asks for is answered as it is when the purge runs alone. -/
theorem departing_answers_iff {request : Request MediaRequest β} {y : Except Failure β}
    (h : request.OfPurge) :
  (departing env).machine.Answers request w y w' ↔ (purging env).machine.Answers request w y w'
  := by
  have outside : ∀ keys keys', (departing env).Outside request keys y keys'
      ↔ (purging env).Outside request keys y keys' := by
    intro keys keys'
    cases request with
    | media request =>
        cases request with
        | delete key => cases y with | ok _ => exact Iff.rfl | error _ => exact Iff.rfl
        | _ => exact h.elim
    | read => exact Iff.rfl
    | attempt => exact Iff.rfl
    | _ => exact h.elim
  refine and_congr_right fun _ => ⟨fun answer => ?_, fun answer => ?_⟩
  · cases answer with
    | read meanwhile => exact .read meanwhile
    | commit meanwhile returns unique => exact .commit meanwhile returns unique
    | raise meanwhile raises => exact .raise meanwhile raises
    | violate meanwhile returns violates => exact .violate meanwhile returns violates
    | outside meanwhile other answer => exact .outside meanwhile other ((outside _ _).mp answer)
    | fault _ fails => exact fails.elim
  · cases answer with
    | read meanwhile => exact .read meanwhile
    | commit meanwhile returns unique => exact .commit meanwhile returns unique
    | raise meanwhile raises => exact .raise meanwhile raises
    | violate meanwhile returns violates => exact .violate meanwhile returns violates
    | outside meanwhile other answer => exact .outside meanwhile other ((outside _ _).mpr answer)
    | fault _ fails => exact fails.elim

/-- A query reads the rows as they are. -/
theorem departing_read {query : Tx α} {post : α → Prop}
    (h : ∀ s : Session, s.db = w.db → ∃ a, (query.run env s).1 = .ok a ∧ post a) :
  Leads (departing env).machine (read query) w
    fun y w' => ∃ a, y = .ok a ∧ post a ∧ w'.db = w.db
  := by
  apply Always.perform trivial
  intro y w' answer
  obtain ⟨s, idle, rfl, rfl | ⟨fails, _⟩⟩ := Setting.answers_read answer
  · have same : s.db = w.db := idle.idle fun _ => not_false
    obtain ⟨a, hrun, holds⟩ := h s same
    exact ⟨a, hrun, holds, same⟩
  · exact fails.elim

/-- A transaction of which the body returns on the rows as they are is committed. -/
theorem departing_transaction {body : Tx α} (post : α → Db → Prop)
    (h : ∀ s : Session, s.db = w.db →
      ∃ a s', Returns body env s a s' ∧ s'.db.Unique ∧ post a s'.db) :
  Leads (departing env).machine (transaction body) w fun y w' => ∃ a, y = .ok a ∧ post a w'.db
  := by
  apply Always.of_ends
  intro y w' run
  have same : ∀ {s}, Reaches env (departing env).Others w.session s → s.db = w.db :=
    fun idle => idle.idle fun _ => not_false
  obtain ⟨b, rfl⟩ := Setting.ends_transaction_ok run not_false fun s idle => by
    obtain ⟨a, s', returns, unique, _⟩ := h s (same idle)
    exact ⟨a, s', returns, unique⟩
  cases Setting.ends_transaction run with
  | commit idle returns' unique' =>
      obtain ⟨a, s', returns, _, holds⟩ := h _ (same idle)
      obtain ⟨rfl, rfl⟩ := returns.unique returns'
      exact ⟨a, rfl, holds⟩

/-- A file is deleted, if there is one. -/
theorem departing_deleteSome (key : Option String) :
  Leads (departing env).machine ((MediaStorage.port urlFor).deleteSome key) w
    fun y w' => (∃ u, y = .ok u) ∧ w'.db = w.db
  := by
  unfold MediaStorage.deleteSome
  cases key.filter (· ≠ "") with
  | none => exact ⟨⟨(), rfl⟩, rfl⟩
  | some key =>
      apply Always.perform trivial
      intro y w' answer
      have outside : ¬ (Request.media (MediaRequest.delete key)).OfDatabase := not_false
      obtain ⟨_, s, idle, ⟨_, answered, rfl⟩ | ⟨fails, _⟩⟩ :=
        Setting.answers_outside outside answer
      · cases y with
        | ok u => exact ⟨⟨u, rfl⟩, idle.idle fun _ => not_false⟩
        | error e => exact answered.elim
      · exact fails.elim

/-- Whatever the user pool answers, the rows stay as they are. -/
theorem departing_deleteAccount :
  Leads (departing env).machine (perform (.deleteAccount userId)) w fun _ w' => w'.db = w.db
  := by
  apply Always.perform trivial
  intro y w' answer
  have outside : ¬ (Request.deleteAccount (μ := MediaRequest) userId).OfDatabase := not_false
  obtain ⟨_, s, idle, ⟨_, _, rfl⟩ | ⟨fails, _⟩⟩ := Setting.answers_outside outside answer
  · exact idle.idle fun _ => not_false
  · exact fails.elim

/-- A purge of workspaces of an account leaves alone what is of others. -/
theorem departing_leavesAlone {rounds : ℕ} {workspaceIds : List String} {gone : String → Prop}
    (allGone : ∀ id ∈ workspaceIds, gone id) (catalogued : w.db.Catalogued) :
  Leads (departing env).machine (WorkspacePurge.purgeEach (.port urlFor) rounds workspaceIds) w
    fun _ w' => w.db.LeavesAlone w'.db userId gone ∧ w'.db.Catalogued
  := by
  have asks : (WorkspacePurge.purgeEach (.port urlFor) rounds workspaceIds).Asks
      fun request => ∃ id, gone id ∧ request.RunsPurge id :=
    asks_purgeEach fun id hid =>
      (asks_runsPurge (MediaStorage.port_proper urlFor) rounds id).mono fun runs =>
        ⟨id, allGone id hid, runs⟩
  refine Always.of_asks asks (fun _ _ => trivial) ?_ ⟨.refl, catalogued⟩
  rintro β request y w₁ w₂ ⟨id, isGone, runs⟩ ⟨alone, catalogued₁⟩ answer
  have still : w₂.db = w₁.db → w.db.LeavesAlone w₂.db userId gone ∧ w₂.db.Catalogued := by
    intro same
    rw [same]
    exact ⟨alone, catalogued₁⟩
  by_cases attempts : request.Attempts
  · cases request with
    | attempt body =>
        obtain ⟨_, s, idle, ⟨a, s', rfl, returns, _, rfl⟩ | ⟨_, _, rfl, _⟩⟩ :=
          Setting.answers_attempt answer
        · have same : s.db = w₁.db := idle.idle fun _ => not_false
          obtain ⟨isolated, catalogued'⟩ := runs.isolated (same ▸ catalogued₁) returns
          rw [same] at isolated
          exact ⟨alone.trans (isolated.leavesAlone userId isGone), catalogued'⟩
        · exact still (idle.idle fun _ => not_false)
    | _ => exact attempts.elim
  · obtain ⟨idle, _⟩ := Setting.answers_quiet attempts answer
    exact still (idle.idle fun _ => not_false)

/-- The account is deleted when nothing that it has deleted is left, and what is of others is left
alone. -/
theorem departing_removal {user : User} (account : w.db.users.get userId = some user)
    (owns_none : w.db.OwnsNone userId) (unique : w.db.Unique) :
  Leads (departing env).machine
    (do
      let user ← transaction (AccountTx.delete userId)
      (MediaStorage.port urlFor).deleteSome user.avatarKey
      let _ ← (perform (.deleteAccount user.id)).outcome
      return () : Service MediaRequest Unit) w
    fun y w' => y = .ok () ∧ w'.db = w.db.withoutAccount userId
  := by
  have deleted : ∀ s : Session, s.db = w.db → ∃ found s',
      Returns (AccountTx.delete userId) env s found s' ∧ s'.db.Unique
        ∧ s'.db = w.db.withoutAccount userId := by
    intro s same
    rw [← same] at account owns_none unique ⊢
    obtain ⟨s', returns, db⟩ := AccountTx.returns_delete_of account owns_none
    exact ⟨user, s', returns, db ▸ unique.withoutAccount, db⟩
  apply Always.bind_value (departing_transaction (fun _ db => db = w.db.withoutAccount userId) deleted)
  intro found w₁ gone
  apply Always.bind_ok (departing_deleteSome found.avatarKey)
  intro _ w₂ same₂
  apply Always.outcome_bind departing_deleteAccount
  intro _ w₃ same₃
  exact ⟨rfl, same₃.trans (same₂.trans gone)⟩

/-- What an account has deleted is purged, and what is of others is left alone. -/
theorem departing_purge {rounds : ℕ} {workspaceIds : List String} (nodup : workspaceIds.Nodup)
    (mem_ids : ∀ id, id ∈ workspaceIds ↔ w.db.deleted id = true ∧ w.db.Owns userId id)
    (catalogued : w.db.Catalogued) (unique : w.db.Unique)
    (few : ∀ v, (w.db.productsOf v).length < rounds) (owns_none : w.db.OwnsNone userId) :
  Leads (departing env).machine (WorkspacePurge.purgeEach (.port urlFor) rounds workspaceIds) w
    fun y w' => (∃ u, y = .ok u) ∧ w'.db.users = w.db.users ∧ w'.db.Unique
      ∧ (∀ workspace ∈ w'.db.workspaces, workspace.ownerId ≠ userId)
      ∧ w.db.LeavesAlone w'.db userId (w.db.Owns userId)
  := by
  have accounts : Accounts w.db rounds (↑w.outside + w.db.deletedKeys) [] w :=
    ⟨⟨rfl, catalogued, unique, few⟩, by rw [Multiset.coe_nil, add_zero]⟩
  have soft : ∀ id ∈ workspaceIds, w.db.deleted id = true := fun id hid => ((mem_ids id).mp hid).1
  have asks : (WorkspacePurge.purgeEach (.port urlFor) rounds workspaceIds).Asks
      Request.OfPurge :=
    asks_purgeEach fun workspaceId _ => asks_purge rounds workspaceId
  apply Always.of_ends
  intro y w' run
  obtain ⟨returned, left, deleted⟩ := ((accounts.purgeEach nodup soft).transfer asks
    fun asked => (departing_answers_iff asked).mp).ends run
  have alone : w.db.LeavesAlone w'.db userId (w.db.Owns userId) :=
    (Always.ends (departing_leavesAlone (fun id hid => ((mem_ids id).mp hid).2) catalogued) run).1
  have users : w'.db.purged.users = w.db.purged.users := by rw [left.toward.purged]
  refine ⟨returned, users, left.toward.unique, fun workspace hworkspace own => ?_, alone⟩
  cases hsoft : workspace.isDeleted with
  | false =>
      have kept : workspace ∈ w'.db.purged.workspaces :=
        Table.mem_filter.mpr ⟨hworkspace, by rw [hsoft, Bool.not_false]⟩
      rw [left.toward.purged] at kept
      exact owns_none workspace (Table.mem_filter.mp kept).1 (Option.isSome_eq_false_iff.mp hsoft |>
        Option.isNone_iff_eq_none.mp) own
  | true =>
      have still : w'.db.deleted workspace.id = true :=
        (Db.deleted_of_mem hworkspace).trans hsoft
      rw [deleted, Bool.and_eq_true, decide_eq_true_eq] at still
      refine still.2 ((mem_ids workspace.id).mpr ⟨still.1, ?_⟩)
      by_contra stays
      exact stays ⟨workspace, (alone.workspaces workspace stays).mp hworkspace, rfl, own⟩

/-- The deletion of an account that owns no live workspace removes the workspaces that it has
deleted before, and then the account. -/
theorem departing_delete {services : Services MediaRequest}
    (port : services.media = .port urlFor) (reachable : Reachable env (fun _ => True) w.session)
    {user : User} (account : w.db.users.get userId = some user)
    (owns_none : w.db.OwnsNone userId)
    (enough : w.db.products.rows.length < services.rounds) :
  Leads (departing env).machine ((Call.deleteAccount userId).program services) w
    fun y w' => y = .ok () ∧ w'.db.Erased userId
      ∧ w.db.LeavesAlone w'.db userId (w.db.Owns userId)
  := by
  obtain ⟨media, _, _, _, rounds⟩ := services
  obtain rfl : media = .port urlFor := port
  -- the checks before the purge
  have deletable : ∀ s : Session, s.db = w.db →
      ∃ u, ((AccountTx.ensureDeletable userId).run env s).1 = .ok u ∧ True := by
    intro s same
    rw [← same] at account owns_none
    exact ⟨(), congrArg Prod.fst (AccountTx.returns_ensureDeletable account owns_none), trivial⟩
  apply Always.bind_value (departing_read deletable)
  rintro _ w₁ ⟨_, same₁⟩
  have listed : ∀ s : Session, s.db = w₁.db →
      ∃ ids, ((Workspaces.deletedIds (some userId)).run env s).1 = .ok ids
        ∧ ids.Nodup ∧ ∀ id, id ∈ ids ↔ w.db.deleted id = true ∧ w.db.Owns userId id := by
    intro s same
    obtain ⟨ids, hrun, nodup, mem_ids⟩ := Workspaces.deletedIds_eq env s (some userId)
    refine ⟨ids, hrun, nodup, fun id => (mem_ids id).trans ?_⟩
    rw [same.trans same₁, Db.deleted, Option.any_eq_true]
    constructor
    · rintro ⟨workspace, stored, soft, own⟩
      obtain ⟨hworkspace, hid⟩ := Table.get_eq_some_iff.mp stored
      exact ⟨⟨workspace, stored, soft⟩, workspace, hworkspace, hid, (of_decide_eq_true own).symm⟩
    · rintro ⟨⟨workspace, stored, soft⟩, other, hother, hid, own⟩
      obtain ⟨hworkspace, hid'⟩ := Table.get_eq_some_iff.mp stored
      obtain rfl := Table.eq_of_key hother hworkspace (hid.trans hid'.symm)
      exact ⟨other, stored, soft, decide_eq_true own.symm⟩
  apply Always.bind_value (departing_read listed)
  rintro workspaceIds w₂ ⟨⟨nodup, mem_ids⟩, same₂⟩
  have start : w₂.db = w.db := same₂.trans same₁
  rw [← start] at mem_ids account owns_none ⊢
  -- the purge of what the account has deleted
  apply Always.bind_ok (departing_purge nodup mem_ids (start ▸ reachable.catalogued)
    (start ▸ Reachable.unique reachable)
    (fun v => lt_of_le_of_lt (List.length_filter_le _ _) (start ▸ enough)) owns_none)
  rintro _ w₃ ⟨users, unique, none_left, alone⟩
  rw [← users] at account
  apply Always.mono (departing_removal account (fun workspace hworkspace _ =>
    none_left workspace hworkspace) unique)
  rintro y w' ⟨hy, db⟩
  rw [db]
  refine ⟨hy, ⟨?_, ?_, ?_, none_left⟩, alone.trans .withoutAccount⟩
  · exact w₃.db.users.get_erase_self userId
  · exact fun member hmember => of_decide_eq_true (Table.mem_filter.mp hmember).2
  · exact fun invitation hinvitation => of_decide_eq_true (Table.mem_filter.mp hinvitation).2

end Departing

/-! ### Leaving for good -/

/-- What the deletion of an account asks for: what a purge asks for, and the user pool. -/
def Request.OfDeparture {β : Type} : Request MediaRequest β → Prop
  | .deleteAccount _ => True
  | request => request.OfPurge

theorem Request.OfPurge.ofDeparture {β : Type} {request : Request MediaRequest β}
    (h : request.OfPurge) :
  request.OfDeparture
  := by
  cases request with
  | deleteAccount userId => trivial
  | _ => exact h

/-- All that the deletion of an account asks for is answered. -/
theorem Request.OfDeparture.answered {β : Type} {request : Request MediaRequest β}
    (w : World (List String)) (h : request.OfDeparture) :
  ∃ z w', (departing env).machine.Answers request w z w'
  := by
  have purge : request.OfPurge → ∃ z w', (departing env).machine.Answers request w z w' := by
    intro asked
    obtain ⟨z, w', answer⟩ := Request.OfPurge.answered w asked
    exact ⟨z, w', (departing_answers_iff asked).mpr answer⟩
  cases request with
  | deleteAccount userId => exact ⟨.ok (), w, trivial, .outside .refl not_false rfl⟩
  | _ => exact purge h

theorem asks_deleteAccount {services : Services MediaRequest} {urlFor : String → String}
    (port : services.media = .port urlFor) (userId : String) :
  ((Call.deleteAccount userId).program services).Asks Request.OfDeparture
  := by
  obtain ⟨media, _, _, _, rounds⟩ := services
  obtain rfl : media = .port urlFor := port
  refine Asks.bind (.perform trivial) fun _ => Asks.bind (.perform trivial) fun workspaceIds => ?_
  refine Asks.bind (asks_purgeEach fun workspaceId _ => ?_) fun _ => ?_
  · exact (asks_purge rounds workspaceId).mono Request.OfPurge.ofDeparture
  · refine (asks_transaction trivial).bind fun user => Asks.bind ?_ fun _ => ?_
    · exact (asks_deleteSome user.avatarKey).mono Request.OfPurge.ofDeparture
    · exact (Asks.outcome (.perform trivial)).bind fun _ => trivial

/-- The transactions that an account runs before it is deleted. -/
def leaving (userId displayName : String) (owned : List String) : List Work :=
  .rename userId displayName :: owned.map (.delete · userId)

/-- An account takes a name and deletes what it owns. -/
theorem Reachable.accepts_leaving (reachable : Reachable env Work.Named s)
    {userId displayName : String} (account : (s.db.users.get userId).isSome)
    (named : ¬ Blank displayName) {owned : List String} (nodup : owned.Nodup)
    (all : s.db.OwnedBy userId owned) (unforeseen : s.Unforeseen env owned.length) :
  ∃ s', Accepts env s (leaving userId displayName owned) s' ∧ Reachable env Work.Named s'
    ∧ (∃ user, s'.db.users.get userId = some user) ∧ s'.db.OwnsNone userId
    ∧ s'.db.products = s.db.products ∧ s.db.LeavesAlone s'.db userId (s.db.Owns userId)
  := by
  obtain ⟨user, account⟩ := Option.isSome_iff_exists.mp account
  obtain ⟨stored, rfl⟩ := Table.get_eq_some_iff.mp account
  let renamed := user.rename displayName (s.db.belongsToAny user.id)
  let s₁ := s.write fun db => { db with users := db.users.put renamed }
  have returns : Returns (Work.rename user.id displayName).body env s () s₁ :=
    Tx.returns_run'.mpr ⟨_, AccountTx.returns_rename account⟩
  have unique : s₁.db.Unique := by
    refine reachable.unique.rewrite (fun other hother => ?_) fun invitation hinvitation =>
      ⟨invitation, hinvitation, rfl, rfl⟩
    rcases Table.mem_put.mp hother with rfl | ⟨hother, _⟩
    · exact ⟨user, stored, rfl, rfl⟩
    · exact ⟨other, hother, rfl, rfl⟩
  have reached : Reachable env Work.Named s₁.done :=
    .commit reachable (fun _ _ h => by cases h; exact named) returns unique
  have first : s.db.LeavesAlone s₁.db user.id (s.db.Owns user.id) := .of_users rfl
  have allGone : ∀ id ∈ owned, s.db.Owns user.id id := by
    intro id hid
    obtain ⟨workspace, live, own⟩ := (all id).mp hid
    obtain ⟨hworkspace, same, _⟩ := Db.live_eq_some.mp live
    exact ⟨workspace, hworkspace, same, own⟩
  obtain ⟨s', deleted, account', none_left, products, second⟩ :=
    reached.deletes_owned (s.db.users.get_put_self renamed) named nodup all
      ⟨unforeseen.unused, unforeseen.distinct⟩ allGone
  refine ⟨s', .cons returns unique deleted, ?_, account', ?_, products, first.trans second⟩
  · apply deleted.reaches reached
    intro work hwork userId' displayName' heq
    obtain ⟨id, _, rfl⟩ := List.mem_map.mp hwork
    cases heq
  · intro workspace hworkspace live own
    apply List.not_mem_nil
    exact (none_left workspace.id).mpr
      ⟨workspace, Db.live_eq_some.mpr ⟨hworkspace, rfl, live⟩, own⟩

/-- Whoever has an account can leave for good: a name and the deletion of the workspaces that the
account owns, in any order, are accepted one after the other, and the deletion of the account, with
the purge of all that it has deleted, returns. No row that counts names the account in the end, and
what is of others is left alone. -/
theorem account_erasable {services : Services MediaRequest} {urlFor : String → String}
    (port : services.media = .port urlFor) (reachable : Reachable env Work.Named s)
    {userId displayName : String} (account : (s.db.users.get userId).isSome)
    (named : ¬ Blank displayName) {owned : List String} (nodup : owned.Nodup)
    (all : s.db.OwnedBy userId owned) (unforeseen : s.Unforeseen env owned.length)
    (enough : s.db.products.rows.length < services.rounds) :
  let m := (departing env).machine
  let delete : Service MediaRequest Unit := (Call.deleteAccount userId).program services
  ∃ s', Accepts env s (leaving userId displayName owned) s'
    ∧ (∃ y w', Ends m delete ⟨s', [], []⟩ y w')
    ∧ ∀ y w', Ends m delete ⟨s', [], []⟩ y w' →
        y = .ok () ∧ w'.db.Erased userId ∧ s.db.LeavesAlone w'.db userId (s.db.Owns userId)
  := by
  intro m delete
  obtain ⟨s', accepts, reachable', ⟨user, account'⟩, owns_none, products, alone⟩ :=
    reachable.accepts_leaving account named nodup all unforeseen
  let w : World (List String) := ⟨s', [], []⟩
  have reached : Reachable env (fun _ => True) w.session := reachable'.mono fun _ _ => trivial
  have answered := exists_ends (m := m) (asks_deleteAccount port userId)
    Request.OfDeparture.answered w
  refine ⟨s', accepts, answered, fun y w' run => ?_⟩
  obtain ⟨hy, erased, alone'⟩ :=
    (departing_delete port reached account' owns_none (products ▸ enough)).ends run
  refine ⟨hy, erased, alone.trans (alone'.mono ?_)⟩
  rintro id ⟨workspace, hworkspace, rfl, own⟩
  by_contra stays
  exact stays ⟨workspace, (alone.workspaces workspace stays).mp hworkspace, rfl, own⟩

/-- The only workspace there is is all that its owner owns. -/
theorem Db.ownedBy_singleton {db : Db} {userId workspaceId : String}
    (owner : ownerOf db.workspaces workspaceId = some userId)
    (only : ∀ workspace ∈ db.workspaces, workspace.id = workspaceId) :
  db.OwnedBy userId [workspaceId]
  := by
  intro id
  obtain ⟨workspace, hworkspace, hid, live, own⟩ := ownerOf_eq_some.mp owner
  rw [List.mem_singleton]
  constructor
  · rintro rfl
    exact ⟨workspace, Db.live_eq_some.mpr ⟨hworkspace, hid, live⟩, own⟩
  · rintro ⟨other, live', _⟩
    obtain ⟨hother, hid', _⟩ := Db.live_eq_some.mp live'
    exact hid'.symm.trans (only other hother)

/-- Ada has given her workspace to Bob, who has joined it before he had a name. -/
def Session.givenAway : Session :=
  .after .sample [.register "ada" "ada@acme.test" "Ada" none, .create "Acme" "acme" "ada",
    .issue "i" "bob@acme.test" "iiii" "ada", .register "bob" "bob@acme.test" "" (some "t"),
    .transfer "i" "bob" "ada"]

/-- Bob may not delete the workspace yet, and still can leave for good. -/
theorem account_erasable_of_transfer :
  ¬ Session.givenAway.db.Allows "bob" "workspace.delete" "i"
    ∧ ∃ s', Accepts .sample Session.givenAway (leaving "bob" "Bob" ["i"]) s'
      ∧ ∃ y w', Ends (departing .sample).machine
          ((Call.deleteAccount "bob").program portServices) ⟨s', [], []⟩ y w'
        ∧ y = .ok () ∧ w'.db.Erased "bob"
        ∧ Session.givenAway.db.LeavesAlone w'.db "bob" (Session.givenAway.db.Owns "bob")
  := by
  constructor
  · have status : ∀ user ∈ Session.givenAway.db.users, user.id = "bob" →
        user.onboardingStatus ∉ onboardingNeededFor "workspace.delete" := by
      decide +kernel
    rintro ⟨⟨user, account, complete⟩, _⟩
    obtain ⟨stored, hid⟩ := Table.get_eq_some_iff.mp account
    exact status user stored hid complete
  · have reachable : Reachable .sample Work.Named Session.givenAway := by
      apply Reachable.after
      simp only [List.forall_mem_cons]
      exact ⟨nofun, nofun, nofun, nofun, nofun, nofun⟩
    have all : Session.givenAway.db.OwnedBy "bob" ["i"] :=
      Db.ownedBy_singleton (by decide +kernel) (by decide +kernel)
    have named : ¬ Blank "Bob" := by decide +kernel
    obtain ⟨s', accepts, ⟨y, w', run⟩, ends⟩ := account_erasable
      (rfl : portServices.media = .port id) reachable (by decide +kernel) named
      (List.nodup_singleton "i") all (.one (by decide +kernel)) (by decide +kernel)
    exact ⟨s', accepts, y, w', run, ends y w' run⟩

end MvpApi
