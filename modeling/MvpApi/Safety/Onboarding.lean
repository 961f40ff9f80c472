import MvpApi.Safety.References

/-!
# The onboarding status tells the truth

The stored status of an account is a function of its display name and of whether it is a
member of some workspace, `User.due`. Each event that concerns one of the two moves the
status by its own rule, and the rules agree with the function.
-/

set_option autoImplicit false

namespace MvpApi

/-! ### The status that is due -/

/-- The status that is due to an account, by its name and whether it belongs to a
workspace. -/
def User.due (user : User) (belongs : Bool) : OnboardingStatus :=
  if Blank user.displayName then .profilePending
  else if belongs then .completed
  else .workspacePending

namespace User

theorem due_eq_profilePending {user : User} {belongs : Bool} :
  user.due belongs = .profilePending ↔ Blank user.displayName
  := by
  unfold due
  split
  · simp [*]
  · split
    · simp [*]
    · simp [*]

theorem due_eq_completed {user : User} {belongs : Bool} :
  user.due belongs = .completed ↔ ¬ Blank user.displayName ∧ belongs = true
  := by
  unfold due
  split
  · simp [*]
  · split
    · simp [*]
    · simp [*]

theorem due_eq_workspacePending {user : User} {belongs : Bool} :
  user.due belongs = .workspacePending ↔ ¬ Blank user.displayName ∧ belongs = false
  := by
  unfold due
  split
  · simp [*]
  · split
    · simp [*]
    · simp [*]

/-- A new account gets the status due to one that belongs nowhere. -/
theorem new_due (lower : String → String) (userId email displayName : String) (now : Time) :
  (new lower userId email displayName now).onboardingStatus
    = (new lower userId email displayName now).due false
  := by
  have hblank : Blank (strip displayName) ↔ strip displayName = "" := blank_strip
  by_cases h : strip displayName = ""
  · rw [h] at hblank
    simp [new, due, hblank, h]
  · simp [new, due, hblank, h]

variable {user : User} {belongs : Bool}

/-- Who joins a workspace gets the status due to a member. -/
theorem joinedAWorkspace_due (h : user.onboardingStatus = user.due belongs) :
  user.joinedAWorkspace.onboardingStatus = user.joinedAWorkspace.due true
  := by
  by_cases hb : Blank user.displayName
  · simp [joinedAWorkspace, due, h, hb]
  · cases belongs with
    | false => simp [joinedAWorkspace, due, h, hb]
    | true => simp [joinedAWorkspace, due, h, hb]

/-- Who may create a workspace gets the status due to a member. -/
theorem createdAWorkspace_due (h : user.onboardingStatus = user.due belongs)
    (ready : user.onboardingStatus ∈ readyForAWorkspace) :
  user.createdAWorkspace.onboardingStatus = user.createdAWorkspace.due true
  := by
  have hb : ¬ Blank user.displayName := by
    rw [← due_eq_profilePending, ← h]
    intro hpending
    rw [hpending] at ready
    simp [readyForAWorkspace] at ready
  simp [createdAWorkspace, due, hb]

/-- Who leaves the last workspace gets the status due to one that belongs nowhere. -/
theorem leftEveryWorkspace_due (h : user.onboardingStatus = user.due true) :
  user.leftEveryWorkspace.onboardingStatus = user.leftEveryWorkspace.due false
  := by
  by_cases hb : Blank user.displayName
  · simp [leftEveryWorkspace, due, h, hb]
  · simp [leftEveryWorkspace, due, h, hb]

/-- Who takes a name that is not blank gets the status due to them with that name. -/
theorem rename_due {displayName : String} (h : user.onboardingStatus = user.due belongs)
    (named : ¬ Blank displayName) :
  (user.rename displayName belongs).onboardingStatus
    = (user.rename displayName belongs).due belongs
  := by
  by_cases hb : Blank user.displayName
  · simp [rename, due, h, hb, named]
  · cases belongs with
    | false => simp [rename, due, h, hb, named]
    | true => simp [rename, due, h, hb, named]

end User

/-! ### All accounts -/

/-- Every account has the status that is due to it. -/
def Db.Truthful (db : Db) : Prop :=
  ∀ user ∈ db.users, user.onboardingStatus = user.due (db.belongsToAny user.id)

theorem Db.belongsToAny_eq_true {db : Db} {userId : String} :
  db.belongsToAny userId = true ↔ ∃ member ∈ db.members, member.userId = userId
  := by
  simp [Db.belongsToAny, Table.any_eq_true]

/-- Writing a membership makes its account belong somewhere, and no other. -/
theorem belongsToAny_put_member {db db' : Db} {member : Member}
    (members : db'.members = db.members.put member) (userId : String) :
  db'.belongsToAny userId = (decide (userId = member.userId) || db.belongsToAny userId)
  := by
  rw [Bool.eq_iff_iff, Bool.or_eq_true, decide_eq_true_eq, Db.belongsToAny_eq_true,
    Db.belongsToAny_eq_true, members]
  constructor
  · rintro ⟨other, hother, rfl⟩
    rcases Table.mem_put.mp hother with rfl | ⟨hother, _⟩
    · exact Or.inl rfl
    · exact Or.inr ⟨other, hother, rfl⟩
  · rintro (rfl | ⟨other, hother, rfl⟩)
    · exact ⟨member, Table.mem_put.mpr (Or.inl rfl), rfl⟩
    · by_cases hkey : other.key = member.key
      · exact ⟨member, Table.mem_put.mpr (Or.inl rfl), (pair_inj.mp hkey).2.symm⟩
      · exact ⟨other, Table.mem_put.mpr (Or.inr ⟨hother, hkey⟩), rfl⟩

/-- Writing a membership of an account that belongs somewhere changes nothing about where
accounts belong. -/
theorem belongsToAny_put_of_belongs {db db' : Db} (member : Member)
    (belongs : db.belongsToAny member.userId = true)
    (members : db'.members = db.members.put member) (userId : String) :
  db'.belongsToAny userId = db.belongsToAny userId
  := by
  rw [belongsToAny_put_member members]
  by_cases hu : userId = member.userId
  · simp [hu, belongs]
  · simp [hu]

/-- An account belongs where it did, as long as none of its memberships changes. -/
theorem belongsToAny_congr {db db' : Db} {userId : String}
    (h : ∀ member, member.userId = userId → (member ∈ db'.members ↔ member ∈ db.members)) :
  db'.belongsToAny userId = db.belongsToAny userId
  := by
  rw [Bool.eq_iff_iff, Db.belongsToAny_eq_true, Db.belongsToAny_eq_true]
  constructor
  · rintro ⟨member, hm, hu⟩
    exact ⟨member, (h member hu).mp hm, hu⟩
  · rintro ⟨member, hm, hu⟩
    exact ⟨member, (h member hu).mpr hm, hu⟩

namespace Db.Truthful

variable {db db' : Db}

theorem empty :
  Db.empty.Truthful
  := by
  simp [Db.Truthful, Db.empty]

/-- Nothing is due to accounts that neither change nor join or leave. -/
theorem same (h : db.Truthful) (users : db'.users = db.users)
    (belongs : ∀ user ∈ db.users, db'.belongsToAny user.id = db.belongsToAny user.id) :
  db'.Truthful
  := by
  intro user hu
  rw [users] at hu
  rw [belongs user hu]
  exact h user hu

/-- One account is written with the status that is due to it. -/
theorem put_user (h : db.Truthful) (user : User) (users : db'.users = db.users.put user)
    (due : user.onboardingStatus = user.due (db'.belongsToAny user.id))
    (belongs : ∀ other ∈ db.users, other.id ≠ user.id →
      db'.belongsToAny other.id = db.belongsToAny other.id) :
  db'.Truthful
  := by
  intro other hother
  rw [users] at hother
  rcases Table.mem_put.mp hother with rfl | ⟨hother, hne⟩
  · exact due
  · rw [belongs other hother hne]
    exact h other hother

/-- The accounts of a list, which were members, leave; those that now belong nowhere go back
to the workspace step. -/
theorem returned (h : db.Truthful) {userIds : List String} (users : db'.users = db.users)
    (left : ∀ id ∈ userIds, db.belongsToAny id = true)
    (belongs : ∀ id, id ∉ userIds → db'.belongsToAny id = db.belongsToAny id) :
  (db'.returned userIds).Truthful
  := by
  intro user hu
  have hmap : user ∈ db'.users.map _ fun user => user.returned_id db'.belongsToAny userIds := hu
  obtain ⟨old, hold, rfl⟩ := Table.mem_map.mp hmap
  rw [users] at hold
  have hdue := h old hold
  show (old.returned db'.belongsToAny userIds).onboardingStatus
    = (old.returned db'.belongsToAny userIds).due (db'.belongsToAny (old.returned _ _).id)
  rw [User.returned_id, User.returned]
  by_cases hid : old.id ∈ userIds
  · rw [left old.id hid] at hdue
    cases hb : db'.belongsToAny old.id with
    | false =>
        rw [if_pos ⟨hid, rfl⟩]
        exact User.leftEveryWorkspace_due hdue
    | true =>
        rw [if_neg (by simp)]
        exact hdue
  · rw [if_neg fun h => hid h.1, hdue, belongs old.id hid]

/-- A member is removed. -/
theorem remove_member (h : db.Truthful) {w memberId : String} {member : Member}
    (belongs : db.member w memberId = some member) :
  (Db.returned { db with members := db.members.erase (pair w memberId) } [memberId]).Truthful
  := by
  obtain ⟨hmember, hkey⟩ := Table.get_eq_some_iff.mp belongs
  refine h.returned rfl (fun id hid => ?_) fun id hid => belongsToAny_congr fun m hm => ?_
  · obtain rfl := List.mem_singleton.mp hid
    exact Db.belongsToAny_eq_true.mpr ⟨member, hmember, (pair_inj.mp hkey).2⟩
  · rw [Table.mem_erase]
    refine ⟨And.left, fun hmem => ⟨hmem, fun hk => hid ?_⟩⟩
    exact List.mem_singleton.mpr (hm.symm.trans (pair_inj.mp hk).2)

/-- All members of a workspace are removed. -/
theorem delete_workspace (h : db.Truthful) {w : String} {memberIds : List String}
    {workspaces' : Table Workspace.id} {invitations' : Table Invitation.id}
    (memberIds_iff : ∀ id, id ∈ memberIds ↔ (db.member w id).isSome) :
  (Db.returned { db with
    workspaces := workspaces'
    members := db.members.filter (·.workspaceId ≠ w)
    invitations := invitations' } memberIds).Truthful
  := by
  refine h.returned rfl (fun id hid => ?_) fun id hid => belongsToAny_congr fun m hm => ?_
  · obtain ⟨member, hmember⟩ := Option.isSome_iff_exists.mp ((memberIds_iff id).mp hid)
    obtain ⟨hmem, hkey⟩ := Table.get_eq_some_iff.mp hmember
    exact Db.belongsToAny_eq_true.mpr ⟨member, hmem, (pair_inj.mp hkey).2⟩
  · rw [Table.mem_filter, decide_eq_true_eq]
    refine ⟨And.left, fun hmem => ⟨hmem, fun hw => hid ?_⟩⟩
    have hkey : m.key = pair w id := by rw [Member.key, hw, hm]
    exact (memberIds_iff id).mpr
      (Option.isSome_of_mem (Table.get_eq_some_iff.mpr ⟨hmem, hkey⟩))

/-- An account that belongs nowhere is added. -/
theorem addUnlessTaken (h : db.Truthful) (refs : db.References) {lower : String → String}
    {sub email displayName : String} {now : Time} :
  (db.addUnlessTaken (.new lower sub email displayName now)).Truthful
  := by
  obtain ⟨users', hdb, husers⟩ := db.addUnlessTaken_eq (.new lower sub email displayName now)
  rw [hdb]
  rcases husers with rfl | ⟨hfree, _, rfl⟩
  · exact h
  · refine h.put_user _ rfl ?_ fun _ _ _ => rfl
    have hnone : db.belongsToAny sub = false := by
      rw [← Bool.not_eq_true, Db.belongsToAny_eq_true]
      rintro ⟨member, hm, rfl⟩
      have huser := (refs.member member hm).user
      rw [User.new_id] at hfree
      rw [hfree] at huser
      cases huser
    have hdue := User.new_due lower sub email displayName now
    rw [← hnone] at hdue
    exact hdue

end Db.Truthful

/-! ### One transaction -/

variable {env : Env} {s s' : Session}

theorem Joins.truthful {token userId : String} (h : Joins env token userId s s')
    (truthful : s.db.Truthful) :
  s'.db.Truthful
  := by
  obtain ⟨user, invitation, workspace, role, _, joinedAt, _, account, _, _, _, _, _, _, _, _, _, _,
    _, _, db⟩ := h
  obtain ⟨hu, hid⟩ := Table.get_eq_some_iff.mp account
  have hmembers : s'.db.members
      = s.db.members.put ⟨invitation.workspaceId, userId, invitation.roleId, joinedAt⟩ := by rw [db]
  have hbelongs := belongsToAny_put_member hmembers
  refine truthful.put_user user.joinedAWorkspace (by rw [db]) ?_ ?_
  · rw [hbelongs]
    simpa [hid] using User.joinedAWorkspace_due (truthful user hu)
  · intro other _ hne
    rw [User.joinedAWorkspace_id, hid] at hne
    simp [hbelongs, hne]

/-- Every transaction keeps the statuses truthful, unless it takes a blank name. -/
theorem Effect.truthful {work : Work} (h : Effect env s s' work)
    (named : ∀ userId displayName, work = .rename userId displayName → ¬ Blank displayName)
    (refs : s.db.References) (truthful : s.db.Truthful) :
  s'.db.Truthful
  := by
  have same : s'.db.users = s.db.users → s'.db.members = s.db.members → s'.db.Truthful := by
    intro hu hm
    exact truthful.same hu fun user _ => belongsToAny_congr (by simp [hm])
  cases h with
  | @create _ _ userId user workspace new roles' permissions' owner joinedAt allowed account _ _ _ _
      _ _ _ _ _ _ _ db _ =>
      obtain ⟨hu, hid⟩ := Table.get_eq_some_iff.mp account
      obtain ⟨⟨user', account', ready⟩, _⟩ := allowed
      obtain rfl : user = user' := Option.some.inj (account.symm.trans account')
      have hmembers : s'.db.members
          = s.db.members.put ⟨workspace.id, userId, owner.id, joinedAt⟩ := by rw [db]
      have hbelongs := belongsToAny_put_member hmembers
      refine truthful.put_user user.createdAWorkspace (by rw [db]) ?_ ?_
      · rw [hbelongs]
        simpa [hid] using User.createdAWorkspace_due (truthful user hu) ready
      · intro other _ hne
        rw [User.createdAWorkspace_id, hid] at hne
        simp [hbelongs, hne]
  | update _ _ _ _ db => exact same (by rw [db]) (by rw [db])
  | replaceLogo _ _ _ _ db => exact same (by rw [db]) (by rw [db])
  | delete _ _ _ _ _ _ memberIds_iff _ db =>
      rw [db]
      exact truthful.delete_workspace memberIds_iff
  | addRole _ _ _ _ _ _ _ db => exact same (by rw [db]) (by rw [db])
  | renameRole _ _ _ _ _ _ _ _ _ db => exact same (by rw [db]) (by rw [db])
  | deleteRole _ _ _ _ _ _ _ _ _ _ _ db => exact same (by rw [db]) (by rw [db])
  | setPermissions _ _ _ _ _ _ _ _ _ db => exact same (by rw [db]) (by rw [db])
  | @setMemberRole _ _ roleId _ workspace role member _ _ _ _ _ _ belongs _ db =>
      obtain ⟨hmember, _⟩ := Table.get_eq_some_iff.mp belongs
      exact truthful.same (by rw [db]) fun user _ =>
        belongsToAny_put_of_belongs { member with roleId := roleId }
          (Db.belongsToAny_eq_true.mpr ⟨member, hmember, rfl⟩) (by rw [db]) user.id
  | removeMember _ _ _ _ _ belongs _ db =>
      rw [db]
      exact truthful.remove_member belongs
  | transfer workspace target previous admin _ _ _ _ _ belongs belongs' _ _ _ db _ =>
      obtain ⟨htarget, _⟩ := Table.get_eq_some_iff.mp belongs
      obtain ⟨hprevious, _⟩ := Table.get_eq_some_iff.mp belongs'
      let given : Db := { s.db with
        members := s.db.members.put { target with roleId := previous.roleId } }
      have hgiven : ∀ id, given.belongsToAny id = s.db.belongsToAny id :=
        belongsToAny_put_of_belongs { target with roleId := previous.roleId }
          (Db.belongsToAny_eq_true.mpr ⟨target, htarget, rfl⟩) rfl
      have hboth : ∀ id, s'.db.belongsToAny id = given.belongsToAny id :=
        belongsToAny_put_of_belongs { previous with roleId := admin.id }
          ((hgiven _).trans (Db.belongsToAny_eq_true.mpr ⟨previous, hprevious, rfl⟩)) (by rw [db])
      exact truthful.same (by rw [db]) fun user _ => (hboth user.id).trans (hgiven user.id)
  | issue _ _ _ _ _ _ _ _ _ _ _ _ _ _ _ _ _ _ _ _ _ _ db => exact same (by rw [db]) (by rw [db])
  | revoke _ _ _ _ _ _ _ _ _ db => exact same (by rw [db]) (by rw [db])
  | accept joins => exact joins.truthful truthful
  | register now _ db =>
      rw [db]
      exact truthful.addUnlessTaken refs
  | registerAndJoin now s₁ db _ _ joins =>
      exact joins.truthful (by rw [db]; exact truthful.addUnlessTaken refs)
  | ensureAccount now _ db =>
      rw [db]
      exact truthful.addUnlessTaken refs
  | @rename userId displayName user _ account _ db =>
      obtain ⟨hu, hid⟩ := Table.get_eq_some_iff.mp account
      rw [db]
      refine truthful.put_user _ rfl ?_ fun _ _ _ => rfl
      have hdue := truthful user hu
      rw [hid] at hdue
      have hrenamed := User.rename_due hdue (named userId displayName rfl)
      rw [← hid] at hrenamed ⊢
      exact hrenamed
  | replaceAvatar user account _ db =>
      obtain ⟨hu, hid⟩ := Table.get_eq_some_iff.mp account
      rw [db]
      exact truthful.put_user _ rfl (truthful user hu) fun _ _ _ => rfl
  | @deleteAccount userId user _ _ _ _ db =>
      intro user' hu
      rw [db] at hu
      obtain ⟨hu, hne⟩ := Table.mem_erase.mp hu
      rw [truthful user' hu]
      congr 1
      symm
      refine belongsToAny_congr fun member hm => ?_
      rw [db, Table.mem_filter, decide_eq_true_eq, hm]
      exact and_iff_left hne
  | deleteBatch _ db => exact same (by rw [db]; rfl) (by rw [db]; rfl)
  | purgeNothing _ same => exact same ▸ truthful
  | purgeRows workspace stored deleted _ db =>
      obtain ⟨hw, _⟩ := Table.get_eq_some_iff.mp stored
      refine truthful.same (by rw [db]; rfl) fun user _ => belongsToAny_congr fun member _ => ?_
      rw [db, Db.purge, Table.mem_filter, decide_eq_true_eq]
      exact and_iff_left_of_imp (refs.no_member hw deleted member)
  | createProduct _ _ _ _ db => exact same (by rw [db]) (by rw [db])
  | updateProduct _ _ _ _ _ _ db => exact same (by rw [db]) (by rw [db])
  | deleteProduct _ _ _ _ db => exact same (by rw [db]) (by rw [db])
  | attachImage _ _ _ _ _ _ _ _ db => exact same (by rw [db]) (by rw [db])
  | removeImage _ _ _ _ _ _ db => exact same (by rw [db]) (by rw [db])
  | reorderImages _ _ _ _ _ _ db => exact same (by rw [db]) (by rw [db])

/-! ### All runs -/

theorem Reachable.truthful
    (h : Reachable env
      (fun work => ∀ userId displayName, work = .rename userId displayName → ¬ Blank displayName) s) :
  s.db.Truthful
  := by
  have both : s.db.References ∧ s.db.Truthful :=
    h.invariant (P := fun db => db.References ∧ db.Truthful) ⟨.empty, .empty⟩
      fun named ih _ effect _ => ⟨effect.references ih.1, effect.truthful named ih.1 ih.2⟩
  exact both.2

/-- Transactions that run one at a time and take no blank names leave every account with the
status that tells the truth about it. -/
theorem onboarding_truthful
    (h : Reachable env
      (fun work => ∀ userId displayName, work = .rename userId displayName → ¬ Blank displayName) s) :
  ∀ user ∈ s.db.users,
    (user.onboardingStatus = .profilePending ↔ Blank user.displayName)
    ∧ (user.onboardingStatus = .completed
        ↔ ¬ Blank user.displayName ∧ ∃ member ∈ s.db.members, member.userId = user.id)
    ∧ (user.onboardingStatus = .workspacePending
        ↔ ¬ Blank user.displayName ∧ ¬ ∃ member ∈ s.db.members, member.userId = user.id)
  := by
  intro user hu
  rw [h.truthful user hu, User.due_eq_profilePending, User.due_eq_completed,
    User.due_eq_workspacePending, ← Bool.not_eq_true, Db.belongsToAny_eq_true]
  exact ⟨Iff.rfl, Iff.rfl, Iff.rfl⟩

/-- A run in which an account without a name joins a workspace, takes a name, and is removed:
in the end the status says that it belongs nowhere, and so it is. -/
theorem onboarding_truthful_of_remove :
  ∃ s, s = Session.after .sample [.register "ada" "ada@acme.test" "Ada" none,
      .create "Acme" "acme" "ada", .issue "i" "bob@acme.test" "iiii" "ada",
      .register "bob" "bob@acme.test" "" (some "t"), .rename "bob" "Bob",
      .removeMember "i" "bob" "ada"]
    ∧ ∃ user ∈ s.db.users, user.onboardingStatus = .workspacePending ∧ ¬ Blank user.displayName
      ∧ ¬ ∃ member ∈ s.db.members, member.userId = user.id
  := by
  refine ⟨_, rfl, Exists.imp (fun user h => ⟨h.1, of_decide_eq_true h.2, ?_⟩)
    (Table.any_eq_true.mp (?_ : Table.any _ (·.onboardingStatus = .workspacePending) = true))⟩
  · have truthful := onboarding_truthful (.after (by
      simp only [List.forall_mem_cons]
      simp +contextual [show ¬ Blank "Bob" by decide +kernel])) user h.1
    exact truthful.2.2.mp (of_decide_eq_true h.2)
  · decide +kernel

end MvpApi
