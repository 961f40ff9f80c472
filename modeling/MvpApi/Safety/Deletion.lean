import MvpApi.Safety.References

/-!
# Deleting an account

The deletion of an account removes the memberships it sees, and refuses if it sees a workspace
that the account owns. A transaction by which the same account creates a workspace or accepts
an invitation, and which the deletion does not see, leaves rows that name an account which is
gone, unless the two conflict. They conflict when both write the row of the account, or a row
of an invitation that it has sent: then the transaction is `Careful`.
-/

set_option autoImplicit false

namespace MvpApi

open Optimistic Exec

/-- The accounts that members and owners of live workspaces are named by exist. -/
structure Db.Intact (db : Db) : Prop where
  member : ∀ member ∈ db.members, (db.users.get member.userId).isSome
  owner : ∀ workspace ∈ db.workspaces, workspace.deletedAt = none →
    (db.users.get workspace.ownerId).isSome

theorem Db.References.intact {db : Db} (h : db.References) :
  db.Intact
  := ⟨fun member hm => (h.member member hm).user, h.owner⟩

/-! ### The transactions -/

/-- The account creates a workspace, or accepts an invitation. -/
inductive Work.Enters (userId : String) : Work → Prop
  | create (name slug : String) : Enters userId (.create name slug userId)
  | accept (token : String) : Enters userId (.accept token userId)

/-- A transaction of the deletion of an account, or one by which an account enters a workspace
and writes a row that its deletion removes. -/
def Work.Careful (env : Env) (base : Db) : Work → Prop
  | .create _ _ userId =>
      ∀ user, base.users.get userId = some user → user.onboardingStatus = .workspacePending
  | .accept token userId =>
      (∀ user, base.users.get userId = some user → user.onboardingStatus = .workspacePending)
        ∨ ∀ invitation ∈ base.invitations, invitation.tokenHash = env.sha256 token →
            invitation.invitedBy = userId
  | .deleteAccount _ => True
  | .deleteBatch _ => True
  | .purgeRows _ => True
  | _ => False

/-- The careful transactions, overlapping in any way. -/
def careful (env : Env) : System Db RowId Work :=
  { system env with
    Runs := fun work base final footprint =>
      Runs env work base final footprint ∧ work.Careful env base }

/-! ### What overlapping transactions guarantee each other -/

/-- A row that the deletion of the account removes is in the footprint. -/
def Meets (footprint : Set RowId) (db : Db) (userId : String) : Prop :=
  .user userId ∈ footprint
    ∨ ∃ invitation ∈ db.invitations, invitation.invitedBy = userId
        ∧ .invitation invitation.id ∈ footprint

/-- All these rows are in the footprint. -/
def Clears (footprint : Set RowId) (db : Db) (userId : String) : Prop :=
  .user userId ∈ footprint
    ∧ ∀ invitation ∈ db.invitations, invitation.invitedBy = userId →
        .invitation invitation.id ∈ footprint

/-- A transaction clears the accounts that it removes, meets those that it makes a member, and
writes those that it makes an owner. It does not add invitations. -/
structure Guarded (footprint : Set RowId) (db db' : Db) : Prop where
  changed : ∀ row ∈ db.changed db', row ∈ footprint
  removed : ∀ id, (db.users.get id).isSome → db'.users.get id = none → Clears footprint db id
  joined : ∀ member ∈ db'.members, member ∉ db.members → Meets footprint db member.userId
  owned : ∀ workspace ∈ db'.workspaces, workspace.deletedAt = none →
    workspace ∉ db.workspaces → .user workspace.ownerId ∈ footprint
  sent : ∀ invitation ∈ db'.invitations, ∃ old ∈ db.invitations,
    old.id = invitation.id ∧ old.invitedBy = invitation.invitedBy

/-- What a transaction finds of the accounts that matter to it when it commits. -/
structure Unharmed (footprint : Set RowId) (db db' : Db) : Prop where
  same : ∀ row ∈ footprint, row ∉ db.changed db'
  kept : ∀ id, Meets footprint db id → (db.users.get id).isSome → (db'.users.get id).isSome
  joined : ∀ member ∈ db'.members, Clears footprint db member.userId → member ∈ db.members
  owned : ∀ workspace ∈ db'.workspaces, workspace.deletedAt = none →
    .user workspace.ownerId ∈ footprint → workspace ∈ db.workspaces
  sent : ∀ invitation ∈ db'.invitations, ∃ old ∈ db.invitations,
    old.id = invitation.id ∧ old.invitedBy = invitation.invitedBy

section Unharmed

variable {footprint : Set RowId} {db db' : Db}

theorem Unharmed.invitation (h : Unharmed footprint db db') {id : String}
    (hid : .invitation id ∈ footprint) :
  db'.invitations.get id = db.invitations.get id
  := not_not.mp (h.same (.invitation id) hid)

/-- An account that the transaction meets it meets still. -/
theorem Unharmed.meets (h : Unharmed footprint db db') {id : String}
    (meets : Meets footprint db id) :
  Meets footprint db' id
  := by
  rcases meets with hid | ⟨invitation, hi, hby, hin⟩
  · exact Or.inl hid
  · refine Or.inr ⟨invitation, ?_, hby, hin⟩
    rw [Table.mem_def, h.invitation hin]
    exact hi

/-- An account that the transaction clears it clears still. -/
theorem Unharmed.clears (h : Unharmed footprint db db') {id : String}
    (clears : Clears footprint db id) :
  Clears footprint db' id
  := by
  refine ⟨clears.1, fun invitation hi hby => ?_⟩
  obtain ⟨old, hold, hid, hby'⟩ := h.sent invitation hi
  rw [← hid]
  exact clears.2 old hold (hby'.trans hby)

/-- One transaction cannot meet an account that another clears, if their footprints are
apart. -/
theorem Meets.not_clears {other : Set RowId} {id : String} (meets : Meets footprint db id)
    (clears : Clears other db id) :
  ¬ Disjoint footprint other
  := by
  intro apart
  rcases meets with hid | ⟨invitation, hi, hby, hin⟩
  · exact Set.disjoint_left.mp apart hid clears.1
  · exact Set.disjoint_left.mp apart hin (clears.2 invitation hi hby)

/-- Commits with footprints apart do no harm. -/
theorem unharmed_of_meanwhile {P : Db → Prop}
    (h : Meanwhile P (fun (_ : Work) => Guarded) footprint db db') :
  Unharmed footprint db db'
  := by
  induction h with
  | refl =>
      constructor
      · intro row _ hrow
        cases row <;> exact hrow rfl
      · exact fun _ _ h => h
      · exact fun _ h _ => h
      · exact fun _ h _ _ => h
      · exact fun invitation hi => ⟨invitation, hi, rfl, rfl⟩
  | @tail mid _ _ step ih =>
      obtain ⟨_, _, _, other, guarded, apart⟩ := step
      constructor
      · intro row hrow hchanged
        have hmid : row ∉ mid.changed _ :=
          fun h => Set.disjoint_left.mp apart hrow (guarded.changed row h)
        have hdb := ih.same row hrow
        cases row <;> exact hchanged ((not_not.mp hmid).trans (not_not.mp hdb))
      · intro id meets hsome
        by_contra hnone
        rw [Bool.not_eq_true, Option.isSome_eq_false_iff, Option.isNone_iff_eq_none] at hnone
        have clears := guarded.removed id (ih.kept id meets hsome) hnone
        exact (ih.meets meets).not_clears clears apart
      · intro member hm clears
        by_cases hmid : member ∈ mid.members
        · exact ih.joined member hmid clears
        · exact absurd apart.symm
            ((guarded.joined member hm hmid).not_clears (ih.clears clears))
      · intro workspace hw hlive hin
        by_cases hmid : workspace ∈ mid.workspaces
        · exact ih.owned workspace hmid hlive hin
        · exact absurd (guarded.owned workspace hw hlive hmid) (Set.disjoint_left.mp apart hin)
      · intro invitation hi
        obtain ⟨middle, hmiddle, hid, hby⟩ := guarded.sent invitation hi
        obtain ⟨old, hold, hid', hby'⟩ := ih.sent middle hmiddle
        exact ⟨old, hold, hid'.trans hid, hby'.trans hby⟩

end Unharmed

section Merge

variable {base final now : Db} {footprint : Set RowId}

/-- A row that the transaction has changed is new in `final`. -/
theorem not_mem_of_changed {κ ρ : Type} {key : ρ → κ} {t t' : Table key} {r : ρ} (h : r ∈ t)
    (hne : t.get (key r) ≠ t'.get (key r)) :
  r ∉ t'
  := fun h' => hne ((Table.mem_def.mp h).trans (Table.mem_def.mp h').symm)

/-- An account whose row the merge takes away is one that the transaction has removed. -/
theorem removed_of_merge {id : String} (hnow : (now.users.get id).isSome)
    (hmerge : (Db.merge base final now).users.get id = none) :
  (base.users.get id).isSome ∧ final.users.get id = none
  := by
  have hget : (Db.merge base final now).users.get id
      = if final.users.get id = base.users.get id then now.users.get id
        else final.users.get id := Table.get_merge _ _ _ _
  rw [hget] at hmerge
  split at hmerge
  · rw [hmerge] at hnow
    cases hnow
  · next hne =>
      refine ⟨?_, hmerge⟩
      rw [← Option.ne_none_iff_isSome]
      exact fun hbase => hne (hmerge.trans hbase.symm)

/-- An account that is in both states that are merged is there after the merge. -/
theorem isSome_merge {id : String} (hfinal : (final.users.get id).isSome)
    (hnow : (now.users.get id).isSome) :
  ((Db.merge base final now).users.get id).isSome
  := by
  rw [← Option.ne_none_iff_isSome]
  intro hnone
  have hremoved := (removed_of_merge hnow hnone).2
  rw [hremoved] at hfinal
  cases hfinal

/-- What the transaction leaves at its commit is intact, if what it left of its snapshot and
what it found are. -/
theorem Db.Intact.merge (done : Guarded footprint base final) (seen : Unharmed footprint base now)
    (users : ∀ id, (final.users.get id).isSome → (base.users.get id).isSome)
    (hfinal : final.Intact) (hnow : now.Intact) :
  (Db.merge base final now).Intact
  where
  member member hm := by
    rcases Table.mem_merge.mp hm with ⟨hsame, hm⟩ | ⟨hne, hm⟩
    · -- A member that is there now: the transaction would have removed one it saw, and one it
      -- did not see cannot have joined since.
      have huser := hnow.member member hm
      by_contra hnone
      rw [Bool.not_eq_true, Option.isSome_eq_false_iff, Option.isNone_iff_eq_none] at hnone
      obtain ⟨hbase, hremoved⟩ := removed_of_merge huser hnone
      have hold := seen.joined member hm (done.removed _ hbase hremoved)
      have hkept : member ∈ final.members := hsame.trans hold
      have := hfinal.member member hkept
      rw [hremoved] at this
      cases this
    · -- A member whom the transaction has added: its account cannot have been removed since.
      have huser := hfinal.member member hm
      have meets := done.joined member hm (not_mem_of_changed hm hne)
      exact isSome_merge huser (seen.kept _ meets (users _ huser))
  owner workspace hw hlive := by
    rcases Table.mem_merge.mp hw with ⟨hsame, hw⟩ | ⟨hne, hw⟩
    · have huser := hnow.owner workspace hw hlive
      by_contra hnone
      rw [Bool.not_eq_true, Option.isSome_eq_false_iff, Option.isNone_iff_eq_none] at hnone
      obtain ⟨hbase, hremoved⟩ := removed_of_merge huser hnone
      have hold := seen.owned workspace hw hlive (done.removed _ hbase hremoved).1
      have hkept : workspace ∈ final.workspaces := hsame.trans hold
      have := hfinal.owner workspace hkept hlive
      rw [hremoved] at this
      cases this
    · have huser := hfinal.owner workspace hw hlive
      have hin := done.owned workspace hw hlive (not_mem_of_changed hw hne)
      exact isSome_merge huser (seen.kept _ (Or.inl hin) (users _ huser))

/-- What the transaction guarantees on its snapshot it guarantees when it commits. -/
theorem Guarded.merge (done : Guarded footprint base final) (seen : Unharmed footprint base now) :
  Guarded footprint now (Db.merge base final now)
  where
  changed row hrow := by
    apply done.changed row
    cases row <;> exact fun hsame => hrow ((Table.get_merge _ _ _ _).trans (if_pos hsame))
  removed id hnow hmerge := by
    obtain ⟨hbase, hremoved⟩ := removed_of_merge hnow hmerge
    exact seen.clears (done.removed id hbase hremoved)
  joined member hm hnew := by
    rcases Table.mem_merge.mp hm with ⟨_, hm⟩ | ⟨hne, hm⟩
    · exact absurd hm hnew
    · exact seen.meets (done.joined member hm (not_mem_of_changed hm hne))
  owned workspace hw hlive hnew := by
    rcases Table.mem_merge.mp hw with ⟨_, hw⟩ | ⟨hne, hw⟩
    · exact absurd hw hnew
    · exact done.owned workspace hw hlive (not_mem_of_changed hw hne)
  sent invitation hi := by
    rcases Table.mem_merge.mp hi with ⟨_, hi⟩ | ⟨hne, hi⟩
    · exact ⟨invitation, hi, rfl, rfl⟩
    · -- The row is in the footprint, so it is still the one that the transaction saw.
      obtain ⟨old, hold, hid, hby⟩ := done.sent invitation hi
      refine ⟨old, ?_, hid, hby⟩
      have hin := done.changed (.invitation invitation.id) hne
      rw [Table.mem_def, hid, seen.invitation hin, ← hid]
      exact hold

end Merge

/-! ### What the careful transactions do -/

section Effects

variable {env : Env} {s s' : Session} {work : Work} {footprint : Set RowId}

/-- No account is added. -/
theorem Effect.no_new_user (h : Effect env s s' work) (careful : work.Careful env s.db) (id : String)
    (hid : (s'.db.users.get id).isSome) :
  (s.db.users.get id).isSome
  := by
  have put : ∀ {userId : String} {user user' : User}, s.db.users.get userId = some user →
      user'.id = user.id → s'.db.users = s.db.users.put user' →
      (s.db.users.get id).isSome := by
    intro userId user user' account hid' husers
    obtain ⟨hu, _⟩ := Table.get_eq_some_iff.mp account
    by_cases hsame : id = user'.id
    · rw [hsame, hid']
      exact Option.isSome_of_mem (Table.mem_def.mp hu)
    · rw [husers, Table.get_put_of_ne _ hsame] at hid
      exact hid
  cases h with
  | create user _ _ _ _ _ _ _ account _ _ _ _ _ _ _ _ _ _ _ db _ =>
      exact put account user.createdAWorkspace_id (by rw [db])
  | accept joins =>
      obtain ⟨user, _, _, _, _, _, _, account, _, _, _, _, _, _, _, _, _, _, _, _, db⟩ := joins
      exact put account user.joinedAWorkspace_id (by rw [db])
  | deleteAccount _ _ _ _ _ db =>
      rw [db] at hid
      obtain ⟨user, hu⟩ := Option.isSome_iff_exists.mp hid
      obtain ⟨hmem, rfl⟩ := Table.get_eq_some_iff.mp hu
      exact Option.isSome_of_mem (Table.mem_def.mp (Table.mem_erase.mp hmem).1)
  | deleteBatch _ db =>
      rw [db] at hid
      exact hid
  | purgeNothing _ same =>
      rw [same] at hid
      exact hid
  | purgeRows _ _ _ _ db =>
      rw [db] at hid
      exact hid
  | _ => exact careful.elim

/-- A member who joins, and a workspace that is founded, by an account that stays. -/
theorem Db.Intact.entered {db db' : Db} {userId : String} (h : db.Intact)
    (users : ∀ id, (db.users.get id).isSome → (db'.users.get id).isSome)
    (account : (db.users.get userId).isSome)
    (members : ∀ member ∈ db'.members, member ∈ db.members ∨ member.userId = userId)
    (workspaces : ∀ workspace ∈ db'.workspaces, workspace ∈ db.workspaces
      ∨ workspace.ownerId = userId) :
  db'.Intact
  where
  member member hm := by
    rcases members member hm with hm | hby
    · exact users _ (h.member member hm)
    · rw [hby]
      exact users _ account
  owner workspace hw hlive := by
    rcases workspaces workspace hw with hw | hby
    · exact users _ (h.owner workspace hw hlive)
    · rw [hby]
      exact users _ account

/-- A careful transaction leaves its snapshot intact. -/
theorem Effect.intact (h : Effect env s s' work) (careful : work.Careful env s.db)
    (intact : s.db.Intact) :
  s'.db.Intact
  := by
  cases h with
  | create user workspace new _ _ owner joinedAt _ account _ shape _ _ _ _ _ _ _ _ _ db _ =>
      obtain ⟨id, created, rfl⟩ := shape
      rw [db]
      refine intact.entered (fun id hid => Table.isSome_get_put _ hid)
        (Option.isSome_of_mem account) (fun member hm => ?_) fun workspace hw => ?_
      · rcases Table.mem_put.mp hm with rfl | ⟨hm, _⟩
        · exact Or.inr rfl
        · exact Or.inl hm
      · rcases Table.mem_put.mp hw with rfl | ⟨hw, _⟩
        · exact Or.inr rfl
        · exact Or.inl hw
  | accept joins =>
      obtain ⟨user, _, _, _, _, _, _, account, _, _, _, _, _, _, _, _, _, _, _, _, db⟩ := joins
      rw [db]
      refine intact.entered (fun id hid => Table.isSome_get_put _ hid)
        (Option.isSome_of_mem account) (fun member hm => ?_) fun workspace hw => Or.inl hw
      rcases Table.mem_put.mp hm with rfl | ⟨hm, _⟩
      · exact Or.inr rfl
      · exact Or.inl hm
  | @deleteAccount userId user _ _ owns_none _ db =>
      have others : ∀ id, id ≠ userId → (s.db.users.get id).isSome →
          ((s.db.users.erase userId).get id).isSome := by
        intro id hne hid
        rw [Table.get_erase_of_ne _ hne]
        exact hid
      rw [db]
      constructor
      · intro member hm
        obtain ⟨hm, hne⟩ := Table.mem_filter.mp hm
        exact others _ (of_decide_eq_true hne) (intact.member member hm)
      · intro workspace hw hlive
        exact others _ (owns_none workspace hw hlive) (intact.owner workspace hw hlive)
  | deleteBatch _ db =>
      rw [db]
      exact ⟨intact.member, intact.owner⟩
  | purgeNothing _ same => exact same ▸ intact
  | purgeRows _ _ _ _ db =>
      rw [db]
      exact ⟨fun member hm => intact.member member (Table.mem_filter.mp hm).1,
        fun workspace hw => intact.owner workspace (Table.mem_erase.mp hw).1⟩
  | _ => exact careful.elim

/-- A transaction that removes no account, and neither joins nor founds a workspace. -/
theorem Guarded.of_removals {db db' : Db} (changed : ∀ row ∈ db.changed db', row ∈ footprint)
    (users : db'.users = db.users) (members : ∀ member ∈ db'.members, member ∈ db.members)
    (workspaces : ∀ workspace ∈ db'.workspaces, workspace ∈ db.workspaces)
    (invitations : ∀ invitation ∈ db'.invitations, invitation ∈ db.invitations) :
  Guarded footprint db db'
  where
  changed := changed
  removed id hid hnone := by
    rw [users] at hnone
    rw [hnone] at hid
    cases hid
  joined member hm hnew := absurd (members member hm) hnew
  owned workspace hw _ hnew := absurd (workspaces workspace hw) hnew
  sent invitation hi := ⟨invitation, invitations invitation hi, rfl, rfl⟩

/-- An account whose status changes is written. -/
theorem mem_changed_user {db db' : Db} {userId : String} {user user' : User}
    (account : db.users.get userId = some user) (id : user'.id = user.id)
    (status : user'.onboardingStatus ≠ user.onboardingStatus)
    (users : db'.users = db.users.put user') :
  .user userId ∈ db.changed db'
  := by
  obtain ⟨_, rfl⟩ := Table.get_eq_some_iff.mp account
  change db'.users.get user.id ≠ db.users.get user.id
  rw [users, ← id, Table.get_put_self, id, account]
  intro h
  exact status (congrArg User.onboardingStatus (Option.some.inj h))

theorem Joins.guarded {token userId : String} (h : Joins env token userId s s')
    (careful : Work.Careful env s.db (.accept token userId))
    (changed : ∀ row ∈ s.db.changed s'.db, row ∈ footprint) :
  Guarded footprint s.db s'.db
  := by
  obtain ⟨user, invitation, workspace, role, tick, joinedAt, _, account, stored, hash, _, _, usable,
    _, _, _, _, _, _, _, db⟩ := h
  have meets : Meets footprint s.db userId := by
    rcases careful with pending | sent
    · left
      refine changed _ (mem_changed_user account user.joinedAWorkspace_id ?_ (by rw [db]))
      rw [User.joinedAWorkspace, if_pos (pending user account), pending user account]
      exact nofun
    · right
      refine ⟨invitation, stored, sent invitation stored hash, changed (.invitation _) ?_⟩
      change s'.db.invitations.get invitation.id ≠ s.db.invitations.get invitation.id
      rw [db, Table.mem_def.mp stored]
      intro hsame
      have hput := (Table.get_put_self s.db.invitations
        { invitation with status := .accepted, acceptedBy := some userId }).symm.trans hsame
      have hstatus := congrArg Invitation.status (Option.some.inj hput)
      rw [usable.1] at hstatus
      cases hstatus
  constructor
  · exact changed
  · intro id hid hnone
    rw [db] at hnone
    have := Table.isSome_get_put user.joinedAWorkspace hid
    rw [hnone] at this
    cases this
  · intro member hm hnew
    rw [db] at hm
    rcases Table.mem_put.mp hm with rfl | ⟨hm, _⟩
    · exact meets
    · exact absurd hm hnew
  · intro workspace hw _ hnew
    rw [db] at hw
    exact absurd hw hnew
  · intro other hother
    rw [db] at hother
    rcases Table.mem_put.mp hother with rfl | ⟨hother, _⟩
    · exact ⟨invitation, stored, rfl, rfl⟩
    · exact ⟨other, hother, rfl, rfl⟩

/-- A careful transaction keeps the guarantee. -/
theorem Effect.guarded (h : Effect env s s' work) (careful : work.Careful env s.db)
    (changed : ∀ row ∈ s.db.changed s'.db, row ∈ footprint) :
  Guarded footprint s.db s'.db
  := by
  cases h with
  | create user workspace new _ _ owner joinedAt _ account _ shape _ _ _ _ _ _ _ _ _ db _ =>
      obtain ⟨id, created, rfl⟩ := shape
      have hpending := careful user account
      have hin := changed _ (mem_changed_user account user.createdAWorkspace_id
        (by rw [hpending]; exact nofun) (by rw [db]))
      constructor
      · exact changed
      · intro id hid hnone
        rw [db] at hnone
        have := Table.isSome_get_put user.createdAWorkspace hid
        rw [hnone] at this
        cases this
      · intro member hm hnew
        rw [db] at hm
        rcases Table.mem_put.mp hm with rfl | ⟨hm, _⟩
        · exact Or.inl hin
        · exact absurd hm hnew
      · intro workspace hw _ hnew
        rw [db] at hw
        rcases Table.mem_put.mp hw with rfl | ⟨hw, _⟩
        · exact hin
        · exact absurd hw hnew
      · intro invitation hi
        rw [db] at hi
        exact ⟨invitation, hi, rfl, rfl⟩
  | accept joins => exact joins.guarded careful changed
  | @deleteAccount userId user _ account owns_none _ db =>
      constructor
      · exact changed
      · intro id hid hnone
        obtain rfl : id = userId := by
          by_contra hne
          rw [db] at hnone
          rw [← Table.get_erase_of_ne _ hne, hnone] at hid
          cases hid
        refine ⟨changed (.user id) ?_, fun invitation hi hby => changed (.invitation _) ?_⟩
        · change s'.db.users.get id ≠ s.db.users.get id
          rw [hnone, account]
          exact nofun
        · change s'.db.invitations.get invitation.id ≠ s.db.invitations.get invitation.id
          rw [db, Table.mem_def.mp hi]
          intro hsame
          exact of_decide_eq_true (Table.mem_filter.mp (Table.mem_def.mpr hsame)).2 hby
      · intro member hm hnew
        rw [db] at hm
        exact absurd (Table.mem_filter.mp hm).1 hnew
      · intro workspace hw _ hnew
        rw [db] at hw
        exact absurd hw hnew
      · intro invitation hi
        rw [db] at hi
        exact ⟨invitation, (Table.mem_filter.mp hi).1, rfl, rfl⟩
  | deleteBatch _ db =>
      rw [db] at changed ⊢
      exact .of_removals changed rfl (fun _ h => h) (fun _ h => h) fun _ h => h
  | purgeNothing _ same =>
      subst same
      exact .of_removals changed rfl (fun _ h => h) (fun _ h => h) fun _ h => h
  | purgeRows _ _ _ _ db =>
      rw [db] at changed ⊢
      exact .of_removals changed rfl (fun _ hm => (Table.mem_filter.mp hm).1)
        (fun _ hw => (Table.mem_erase.mp hw).1) fun _ hi => (Table.mem_filter.mp hi).1
  | _ => exact careful.elim

end Effects

/-- However careful transactions overlap, what they leave is intact. -/
theorem careful_intact {env : Env} {base : Db} (intact : base.Intact)
    {commits : List (Commit Db RowId Work)} (history : History (careful env) base commits) :
  (current base commits).Intact
  := by
  refine (history.kept (G := fun _ => Guarded) intact ?_).current
  rintro work snapshot final footprint now hsnapshot hnow ⟨runs, hcareful⟩ meanwhile _
  obtain ⟨s, s', effect, rfl, rfl, _, hfootprint⟩ := runs.effect
  have done := effect.guarded hcareful fun row hrow => (hfootprint row).mpr (Or.inl hrow)
  have seen := unharmed_of_meanwhile meanwhile
  exact ⟨.merge done seen (effect.no_new_user hcareful) (effect.intact hcareful hsnapshot) hnow,
    done.merge seen⟩

/-! ### What a transaction that is not careful leaves behind -/

/-- The rows without an account, its memberships and the invitations it has sent. -/
def Db.without (db : Db) (userId : String) : Db :=
  { db with
    members := db.members.filter (·.userId ≠ userId)
    invitations := db.invitations.filter (·.invitedBy ≠ userId)
    users := db.users.erase userId }

section Careless

variable {env : Env} {base final : Db} {userId : String} {work : Work} {footprint : Set RowId}

/-- An account that owns no live workspace can be deleted. -/
theorem runs_deleteAccount {user : User} (account : base.users.get userId = some user)
    (free : ∀ workspace ∈ base.workspaces, workspace.ownerId ≠ userId) :
  Runs env (.deleteAccount userId) base (base.without userId)
    (base.changed (base.without userId))
  := by
  have hid : user.id = userId := (Table.get_eq_some_iff.mp account).2
  have allowed : base.Allows userId "profile.delete" userId := by
    refine ⟨⟨user, account, ?_⟩, ?_⟩
    · cases user.onboardingStatus <;> decide
    · rw [Db.permits, if_pos (by decide)]
      exact decide_eq_true rfl
  have owns : (base.workspaces.any fun ws => ws.ownerId = userId && !ws.isDeleted) = false := by
    rw [Table.any_eq_false]
    intro workspace hw
    rw [decide_eq_false (free workspace hw)]
    rfl
  have returns : Returns (AccountTx.delete userId) env ⟨base, [], 0, 0, 0⟩ user
      ⟨base.without userId, [], 0, 0, 0⟩ := by
    unfold AccountTx.delete AccountTx.ensureDeletable Workspaces.anyOwnedBy Users.get
      Members.removeUser Invitations.deleteSentBy Users.delete
    simp only [returns_bind, Tx.returns_select, Tx.returns_refuseUnless, Tx.returns_check,
      existing_eq_ok, Tx.returns_write, returns_pure, returns_require]
    exact ⟨(), _, ⟨(), _, ⟨allowed, rfl⟩, false, _, ⟨owns, rfl⟩, rfl, rfl⟩, some user, _,
      ⟨account, rfl⟩, user, _, ⟨rfl, rfl⟩, (), _, rfl, (), _, rfl, (), _, rfl, rfl,
      by rw [hid]; rfl⟩
  exact ⟨_, _, (), rfl, rfl, Tx.returns_run'.mpr ⟨_, returns⟩, rfl, by simp⟩

/-- What the deletion of an account writes. -/
theorem changed_without {row : RowId} (h : row ∈ base.changed (base.without userId)) :
  row = .user userId ∨ (∃ w, row = .member w userId ∧ (base.member w userId).isSome)
    ∨ ∃ invitation ∈ base.invitations, invitation.invitedBy = userId
        ∧ row = .invitation invitation.id
  := by
  cases row with
  | user id =>
      left
      by_contra hne
      exact h (Table.get_erase_of_ne _ fun hid => hne (congrArg RowId.user hid))
  | member w id =>
      right; left
      have hne : (base.members.filter (·.userId ≠ userId)).get (pair w id)
          ≠ base.members.get (pair w id) := h
      rw [Table.get_filter] at hne
      cases hm : base.members.get (pair w id) with
      | none =>
          rw [hm] at hne
          exact absurd rfl hne
      | some member =>
          obtain ⟨_, hkey⟩ := Table.get_eq_some_iff.mp hm
          have hid : member.userId = id := (pair_inj.mp hkey).2
          rw [hm, Option.filter_some, hid] at hne
          obtain rfl : id = userId := by
            by_contra hid
            simp [hid] at hne
          exact ⟨w, rfl, Option.isSome_of_mem hm⟩
  | invitation id =>
      right; right
      have hne : (base.invitations.filter (·.invitedBy ≠ userId)).get id
          ≠ base.invitations.get id := h
      rw [Table.get_filter] at hne
      cases hi : base.invitations.get id with
      | none =>
          rw [hi] at hne
          exact absurd rfl hne
      | some invitation =>
          obtain ⟨hmem, rfl⟩ := Table.get_eq_some_iff.mp hi
          refine ⟨invitation, hmem, ?_, rfl⟩
          by_contra hby
          simp [hi, Option.filter_some, hby] at hne
  | _ => exact absurd rfl h

/-- A transaction that is not careful writes none of the rows that the deletion of the account
writes, and leaves a membership that the deletion does not see. -/
structure Careless (base final : Db) (footprint : Set RowId) (userId : String) : Prop where
  account : (base.users.get userId).isSome
  joined : ∃ w, base.member w userId = none ∧ (final.member w userId).isSome
  user : .user userId ∉ footprint
  member : ∀ w, (base.member w userId).isSome → .member w userId ∉ footprint
  invitation : ∀ invitation ∈ base.invitations, invitation.invitedBy = userId →
    .invitation invitation.id ∉ footprint

/-- A transaction that writes no account, and one membership that is new. -/
theorem Careless.of_changes {s s' : Session} {member : Member}
    (hfootprint : ∀ row, row ∈ footprint ↔ row ∈ s.db.changed s'.db ∨ row ∈ s'.touched)
    (locked : ∀ row ∈ s'.touched, ∃ w, row = .workspace w)
    (account : (s.db.users.get userId).isSome) (users : s'.db.users = s.db.users)
    (members : s'.db.members = s.db.members.put member) (joins : member.userId = userId)
    (outside : s.db.member member.workspaceId userId = none)
    (invitations : ∀ invitation ∈ s.db.invitations, invitation.invitedBy = userId →
      s'.db.invitations.get invitation.id = s.db.invitations.get invitation.id) :
  Careless s.db s'.db footprint userId
  where
  account := account
  joined := by
    refine ⟨member.workspaceId, outside, ?_⟩
    rw [Db.member, members, ← joins]
    exact Option.isSome_of_mem (Table.get_put_self _ _)
  user := by
    rw [hfootprint]
    rintro (h | h)
    · exact h (by rw [users])
    · obtain ⟨_, h⟩ := locked _ h
      cases h
  member w hw := by
    rw [hfootprint]
    rintro (h | h)
    · refine h ?_
      rw [members]
      refine Table.get_put_of_ne _ fun hkey => ?_
      obtain ⟨rfl, _⟩ := pair_inj.mp hkey
      rw [outside] at hw
      cases hw
    · obtain ⟨_, h⟩ := locked _ h
      cases h
  invitation invitation hi hby := by
    rw [hfootprint]
    rintro (h | h)
    · exact h (invitations invitation hi hby)
    · obtain ⟨_, h⟩ := locked _ h
      cases h

theorem Runs.careless (runs : Runs env work base final footprint) (unique : final.Unique)
    (enters : work.Enters userId) (careless : ¬ work.Careful env base) :
  Careless base final footprint userId
  := by
  obtain ⟨s, s', effect, rfl, rfl, htouched, hfootprint⟩ := runs.effect
  cases enters with
  | create name slug =>
      cases effect with
      | create user workspace new _ _ owner joinedAt allowed account _ shape _ _ _ _ _ _ _ outside
          locked db _ =>
          obtain ⟨hu, _⟩ := Table.get_eq_some_iff.mp account
          have completed : user.onboardingStatus = .completed := by
            obtain ⟨⟨user', account', hstatus⟩, _⟩ := allowed
            obtain rfl := Option.some.inj (account.symm.trans account')
            have hready : user.onboardingStatus ∈ readyForAWorkspace := hstatus
            by_contra hne
            refine careless fun user' account' => ?_
            obtain rfl := Option.some.inj (account.symm.trans account')
            simpa [readyForAWorkspace, hne] using hready
          have same : user.createdAWorkspace = user := by
            rw [User.createdAWorkspace, ← completed]
          refine .of_changes hfootprint (by simp [locked, htouched])
            (Option.isSome_of_mem account) ?_ (congrArg Db.members db) rfl outside
            fun invitation _ _ => by rw [db]
          rw [db, same]
          exact Table.put_of_mem hu
  | accept token =>
      cases effect with
      | accept joins =>
          obtain ⟨user, invitation, _, _, _, _, _, account, stored, hash, _, _, _, _, _, _, _, _,
            outside, locked, db⟩ := joins
          obtain ⟨hu, _⟩ := Table.get_eq_some_iff.mp account
          obtain ⟨hpending, hsent⟩ := not_or.mp careless
          have same : user.joinedAWorkspace = user := by
            rw [User.joinedAWorkspace, if_neg]
            intro pending
            refine hpending fun user' account' => ?_
            obtain rfl := Option.some.inj (account.symm.trans account')
            exact pending
          refine .of_changes hfootprint (by simp [locked, htouched])
            (Option.isSome_of_mem account) ?_ (congrArg Db.members db) rfl outside
            fun other hother hby => ?_
          · rw [db, same]
            exact Table.put_of_mem hu
          · -- The invitation that is accepted is not one that the account has sent.
            rw [db]
            refine Table.get_put_of_ne _ fun hid => hsent fun another hanother hash' => ?_
            obtain rfl := Table.eq_of_key hother stored hid
            have hids : another.id = other.id := by
              by_contra hne
              have haccepted : { other with status := .accepted, acceptedBy := some userId }
                  ∈ s'.db.invitations := by
                rw [db]
                exact Table.mem_put.mpr (Or.inl rfl)
              have hanother' : another ∈ s'.db.invitations := by
                rw [db]
                exact Table.mem_put.mpr (Or.inr ⟨hanother, hne⟩)
              have hids := unique.tokenHash another hanother' _ haccepted
              exact hne (hids (hash'.trans hash.symm))
            rw [Table.eq_of_key hanother hother hids]
            exact hby

/-- Merging into a state changes that took rows away only takes rows away. -/
theorem mem_of_merge {κ ρ : Type} [DecidableEq κ] [DecidableEq ρ] {key : ρ → κ}
    {t t' now : Table key} (fewer : ∀ r ∈ t', r ∈ t) {r : ρ} (h : r ∈ Table.merge t t' now) :
  r ∈ now
  := by
  rcases Table.mem_merge.mp h with ⟨_, h⟩ | ⟨hne, h⟩
  · exact h
  · exact absurd (fewer r h) (not_mem_of_changed h hne)

/-- A transaction that is not careful and the deletion of the account can both commit, and then
a member is left without an account. -/
theorem careless_overlap (runs : Runs env work base final footprint) (unique : final.Unique)
    (enters : work.Enters userId) (careless : ¬ work.Careful env base)
    (free : ∀ workspace ∈ base.workspaces, workspace.ownerId ≠ userId) :
  ∃ state, Overlap (system env) work (.deleteAccount userId) base state ∧ ¬ state.Intact
  := by
  obtain ⟨account, ⟨w, outside, joined⟩, huser, hmember, hinvitation⟩ :=
    runs.careless unique enters careless
  obtain ⟨user, haccount⟩ := Option.isSome_iff_exists.mp account
  have apart : Disjoint (base.changed (base.without userId)) footprint := by
    refine Set.disjoint_left.mpr fun row hrow hin => ?_
    rcases changed_without hrow with rfl | ⟨w', rfl, hw'⟩ | ⟨invitation, hi, hby, rfl⟩
    · exact huser hin
    · exact hmember w' hw' hin
    · exact hinvitation invitation hi hby hin
  have valid : (Db.merge base (base.without userId) final).Unique :=
    unique.mono (fun _ => mem_of_merge fun _ hr => (Table.mem_erase.mp hr).1)
      (fun _ => mem_of_merge fun _ hr => hr) (fun _ => mem_of_merge fun _ hr => hr)
      (fun _ => mem_of_merge fun _ hr => (Table.mem_filter.mp hr).1)
      fun _ => mem_of_merge fun _ hr => hr
  refine ⟨_, .merged runs (runs_deleteAccount haccount free) apart unique valid, ?_⟩
  change ¬ (Db.merge base (base.without userId) final).Intact
  intro intact
  obtain ⟨member, hm⟩ := Option.isSome_iff_exists.mp joined
  obtain ⟨hmem, hkey⟩ := Table.get_eq_some_iff.mp hm
  have hid : member.userId = userId := (pair_inj.mp hkey).2
  have hbase : base.members.get member.key = none := by
    rw [hkey]
    exact outside
  have hstays : member ∈ (Db.merge base (base.without userId) final).members := by
    refine Table.mem_merge.mpr (Or.inl ⟨?_, hmem⟩)
    refine (Table.get_filter _ _ _).trans ?_
    rw [hbase]
    rfl
  have hgone : (Db.merge base (base.without userId) final).users.get member.userId = none := by
    have herased : (base.without userId).users.get userId = none := Table.get_erase_self _ _
    rw [hid]
    refine (Table.get_merge _ _ _ _).trans ?_
    rw [if_neg, herased]
    rw [herased, haccount]
    exact nofun
  have hsome := intact.member member hstays
  rw [hgone] at hsome
  cases hsome

/-- A transaction of an account that overlaps with its deletion is careful whenever it runs, if
it is careful in the state that both have started from. -/
theorem careful_overlap {state : Db} (enters : work.Enters userId)
    (hcareful : work.Careful env base)
    (overlap : Overlap (system env) work (.deleteAccount userId) base state
      ∨ Overlap (system env) (.deleteAccount userId) work base state) :
  Overlap (careful env) work (.deleteAccount userId) base state
    ∨ Overlap (careful env) (.deleteAccount userId) work base state
  := by
  rcases overlap with h | h
  · cases h with
    | merged runs₁ runs₂ apart valid₁ valid₂ =>
        exact Or.inl (.merged ⟨runs₁, hcareful⟩ ⟨runs₂, trivial⟩ apart valid₁ valid₂)
    | rerun runs₁ runs₂ conflict valid₁ runs₃ valid₃ =>
        exact Or.inl (.rerun ⟨runs₁, hcareful⟩ ⟨runs₂, trivial⟩ conflict valid₁
          ⟨runs₃, trivial⟩ valid₃)
  · cases h with
    | merged runs₁ runs₂ apart valid₁ valid₂ =>
        exact Or.inr (.merged ⟨runs₁, trivial⟩ ⟨runs₂, hcareful⟩ apart valid₁ valid₂)
    | rerun runs₁ runs₂ conflict valid₁ runs₃ valid₃ =>
        -- After the deletion there is no account whose status could be wrong.
        refine Or.inr (.rerun ⟨runs₁, trivial⟩ ⟨runs₂, hcareful⟩ conflict valid₁
          ⟨runs₃, ?_⟩ valid₃)
        obtain ⟨s, s', effect, rfl, rfl, _⟩ := runs₁.effect
        cases effect with
        | deleteAccount _ _ _ _ _ db =>
            have gone : s'.db.users.get userId = none := by
              rw [db]
              exact Table.get_erase_self _ _
            have none : ∀ user, s'.db.users.get userId = some user →
                user.onboardingStatus = .workspacePending := by
              intro user hu
              rw [gone] at hu
              cases hu
            cases enters with
            | create => exact none
            | accept => exact Or.inl none

end Careless

/-- Careful transactions leave rows that are intact, however many of them overlap in whatever
way. When an account creates a workspace or accepts an invitation while it is deleted, and both
can be done, the rows are always intact afterwards exactly when the transaction is careful. -/
theorem deletion_intact_iff {env : Env} {base : Db} (refs : base.References) :
  (∀ commits, History (careful env) base commits → (current base commits).Intact)
  ∧ ∀ userId work final footprint, work.Enters userId → Runs env work base final footprint →
      final.Unique → (∀ workspace ∈ base.workspaces, workspace.ownerId ≠ userId) →
      ((∀ state, Overlap (system env) work (.deleteAccount userId) base state
          ∨ Overlap (system env) (.deleteAccount userId) work base state → state.Intact)
        ↔ work.Careful env base)
  := by
  refine ⟨fun commits history => careful_intact refs.intact history, ?_⟩
  intro userId work final footprint enters runs unique free
  constructor
  · intro intact
    by_contra careless
    obtain ⟨state, overlap, hdangling⟩ := careless_overlap runs unique enters careless free
    exact hdangling (intact state (Or.inl overlap))
  · intro hcareful state overlap
    have merge_base : ∀ base final, (careful env).merge base final base = final := Db.merge_base
    rcases careful_overlap enters hcareful overlap with h | h
    · obtain ⟨_, _, history, _, _, rfl⟩ := h.history merge_base
      exact careful_intact refs.intact history
    · obtain ⟨_, _, history, _, _, rfl⟩ := h.history merge_base
      exact careful_intact refs.intact history

/-- A creation that is not careful. Bob belongs to a workspace, and creates another one. -/
theorem creation_careless :
  ∃ base userId work final footprint,
    base.References ∧ work.Enters userId ∧ ¬ work.Careful .sample base
      ∧ Runs .sample work base final footprint ∧ final.Unique
      ∧ ∀ workspace ∈ base.workspaces, workspace.ownerId ≠ userId
  := by
  let s := Session.after .sample [.register "ada" "ada@acme.test" "Ada" none,
    .create "Acme" "acme" "ada", .issue "i" "bob@acme.test" "iiii" "ada",
    .register "bob" "bob@acme.test" "Bob" (some "t")]
  let work : Work := .create "Beta" "beta" "bob"
  have reachable : Reachable .sample (fun _ => True) s := .after (by simp)
  have careless : ¬ work.Careful .sample s.db := by
    have completed : (s.db.users.get "bob").map User.onboardingStatus = some .completed := by
      decide +kernel
    obtain ⟨user, account, hstatus⟩ := Option.map_eq_some_iff.mp completed
    intro hcareful
    have pending := hcareful user account
    rw [hstatus] at pending
    cases pending
  have runs := Runs.of_run .sample work reachable.touched (by decide +kernel)
  have unique : (work.body.run .sample s).2.db.Unique := by decide +kernel
  have free : ∀ workspace ∈ s.db.workspaces, workspace.ownerId ≠ "bob" := by decide +kernel
  exact ⟨s.db, "bob", work, _, _, reachable.references, .create "Beta" "beta", careless, runs, unique,
    free⟩

/-- Who creates a workspace and deletes the account at once may stay a member of it, or its owner,
without being there. -/
theorem deletion_not_intact :
  ∃ base state userId work, base.References ∧ work.Enters userId
    ∧ Overlap (system .sample) work (.deleteAccount userId) base state
    ∧ ¬ ((∀ member ∈ state.members, (state.users.get member.userId).isSome)
      ∧ ∀ workspace ∈ state.workspaces, workspace.deletedAt = none →
        (state.users.get workspace.ownerId).isSome)
  := by
  obtain ⟨base, userId, work, final, footprint, refs, enters, careless, runs, unique, free⟩ :=
    creation_careless
  obtain ⟨state, overlap, hdangling⟩ := careless_overlap runs unique enters careless free
  exact ⟨base, state, userId, work, refs, enters, overlap, fun h => hdangling ⟨h.1, h.2⟩⟩

/-- There is an account whose creation of a workspace is not careful, and may leave what is not
intact. -/
theorem deletion_intact_iff_of_create :
  ∃ base userId work, base.References ∧ work.Enters userId
    ∧ ¬ ∀ state, Overlap (system .sample) work (.deleteAccount userId) base state
        ∨ Overlap (system .sample) (.deleteAccount userId) work base state → state.Intact
  := by
  obtain ⟨base, userId, work, final, footprint, refs, enters, careless, runs, unique, free⟩ :=
    creation_careless
  have iff := (deletion_intact_iff refs).2 userId work final footprint enters runs unique free
  exact ⟨base, userId, work, refs, enters, fun intact => careless (iff.mp intact)⟩

end MvpApi
