import MvpApi.Safety.Onboarding

/-!
# Races between workspaces

Removing a member, deleting a workspace and accepting an invitation each lock one workspace,
and write an account only when its onboarding status changes. Two of them that concern
different workspaces may therefore both commit although each has decided about the same
account from a membership that the other ends or begins. `Races` says for which accounts
that goes wrong, and it goes wrong for no others.
-/

set_option autoImplicit false

namespace MvpApi

open Optimistic

/-! ### The transactions -/

/-- The transaction removes a member of the workspace `w`, deletes it, or accepts an invitation
to it. -/
inductive Work.On (env : Env) (db : Db) (w : String) : Work → Prop
  | removeMember (memberId userId : String) : On env db w (.removeMember w memberId userId)
  | delete (userId : String) : On env db w (.delete w userId)
  | accept (token userId : String)
      (addressed : ∀ invitation ∈ db.invitations, invitation.tokenHash = env.sha256 token →
        invitation.workspaceId = w) :
      On env db w (.accept token userId)

/-- The transaction ends the membership of the account in its workspace, if there is one. -/
def Work.Ends (userId : String) : Work → Prop
  | .removeMember _ memberId _ => memberId = userId
  | .delete _ _ => True
  | _ => False

/-- The transaction accepts an invitation for the account. -/
def Work.Accepts (userId : String) : Work → Prop
  | .accept _ accepting => accepting = userId
  | _ => False

/-- The rows of a workspace that its transactions lock or change. -/
def rowsOf (db : Db) (w : String) : Set RowId := fun row =>
  row = .workspace w ∨ (∃ userId, row = .member w userId)
    ∨ ∃ invitation ∈ db.invitations, invitation.workspaceId = w ∧ row = .invitation invitation.id

/-- What a transaction on the workspace `w` does: in that workspace accounts leave or enter,
each account gets the status then due to it, and nothing else is locked or changed. -/
structure Shifts (base final : Db) (footprint : Set RowId) (w : String) (work : Work) : Prop where
  users : ∀ id, final.users.get id = (base.users.get id).map fun user =>
    { user with onboardingStatus := user.due (final.belongsToAny id) }
  elsewhere : ∀ w' id, w' ≠ w → final.member w' id = base.member w' id
  ends : ∀ id, work.Ends id → final.member w id = none
  accepts : ∀ id, work.Accepts id → base.member w id = none ∧ (final.member w id).isSome
  stays : ∀ id, ¬ work.Ends id → ¬ work.Accepts id → final.member w id = base.member w id
  within : ∀ row ∈ footprint, row ∈ rowsOf base w
    ∨ ∃ id, row = .user id ∧ final.users.get id ≠ base.users.get id

/-- Accounts that change in their status only have the status that is due to them, when all
have. -/
theorem users_due {base final : Db} (truthful : final.Truthful)
    (none : ∀ id, base.users.get id = none → final.users.get id = none)
    (some : ∀ id user, base.users.get id = some user →
      ∃ status, final.users.get id = some { user with onboardingStatus := status }) (id : String) :
  final.users.get id = (base.users.get id).map fun user =>
    { user with onboardingStatus := user.due (final.belongsToAny id) }
  := by
  cases hu : base.users.get id with
  | none => exact none id hu
  | some user =>
      obtain ⟨status, hstatus⟩ := some id user hu
      obtain ⟨hmem, hid⟩ := Table.get_eq_some_iff.mp hstatus
      have hdue := truthful _ hmem
      rw [hid] at hdue
      rw [hstatus, Option.map_some]
      exact congrArg (fun status => Option.some { user with onboardingStatus := status }) hdue

/-- Sending accounts back to the workspace step changes their status only. -/
theorem users_returned {db db' : Db} (users : db'.users = db.users) (userIds : List String)
    (truthful : (db'.returned userIds).Truthful) (id : String) :
  (db'.returned userIds).users.get id = (db.users.get id).map fun user =>
    { user with onboardingStatus := user.due ((db'.returned userIds).belongsToAny id) }
  := by
  refine users_due truthful (fun id hu => ?_) (fun id user hu => ?_) id
  · rw [Db.returned, Table.get_map, users, hu]
    rfl
  · rw [Db.returned, Table.get_map, users, hu, Option.map_some, User.returned]
    split
    · exact ⟨_, rfl⟩
    · exact ⟨user.onboardingStatus, rfl⟩

/-- What a transaction on the workspace `w` changes is of that workspace, or an account. -/
theorem changed_within {base final : Db} {w : String}
    (workspaces : ∀ id, id ≠ w → final.workspaces.get id = base.workspaces.get id)
    (roles : final.roles = base.roles) (permissions : final.rolePermissions = base.rolePermissions)
    (elsewhere : ∀ w' id, w' ≠ w → final.member w' id = base.member w' id)
    (invitations : ∀ id, final.invitations.get id ≠ base.invitations.get id →
      ∃ invitation ∈ base.invitations, invitation.workspaceId = w ∧ invitation.id = id)
    (products : final.products = base.products) (images : final.images = base.images) :
  ∀ row ∈ base.changed final, row ∈ rowsOf base w
    ∨ ∃ id, row = .user id ∧ final.users.get id ≠ base.users.get id
  := by
  intro row hrow
  cases row with
  | user id => exact Or.inr ⟨id, rfl, hrow⟩
  | workspace id =>
      left; left
      by_contra hne
      exact hrow (workspaces id fun h => hne (congrArg _ h))
  | role id => exact absurd (by rw [roles]) hrow
  | permission roleId permission => exact absurd (by rw [permissions]) hrow
  | member w' userId =>
      left; right; left
      by_contra hne
      exact hrow (elsewhere w' userId fun h => hne ⟨userId, by rw [h]⟩)
  | invitation id =>
      obtain ⟨invitation, hi, hw, hid⟩ := invitations id hrow
      exact Or.inl (Or.inr (Or.inr ⟨invitation, hi, hw, by rw [hid]⟩))
  | product id => exact absurd (by rw [products]) hrow
  | image id => exact absurd (by rw [images]) hrow

/-- Removing all members of a workspace leaves those of the others. -/
theorem member_of_filter {db db' : Db} {w : String}
    (members : db'.members = db.members.filter (·.workspaceId ≠ w)) (w' id : String) :
  db'.member w' id = if w' = w then none else db.member w' id
  := by
  rw [Db.member, members, Table.get_filter]
  cases hm : db.members.get (pair w' id) with
  | none => simp [Db.member, hm]
  | some member =>
      have hw : member.workspaceId = w' := (pair_inj.mp (Table.get_eq_some_iff.mp hm).2).1
      by_cases h : w' = w
      · simp [hw, h, Option.filter_some]
      · simp [Db.member, hm, hw, h, Option.filter_some]

/-- Revoking the pending invitations of a workspace changes only invitations to it. -/
theorem changed_revokePending {invitations : Table Invitation.id} {w id : String}
    (h : (invitations.map (·.revokePending w) (Invitation.revokePending_id w)).get id
      ≠ invitations.get id) :
  ∃ invitation ∈ invitations, invitation.workspaceId = w ∧ invitation.id = id
  := by
  rw [Table.get_map] at h
  cases hi : invitations.get id with
  | none =>
      rw [hi] at h
      exact absurd rfl h
  | some invitation =>
      obtain ⟨hmem, hid⟩ := Table.get_eq_some_iff.mp hi
      refine ⟨invitation, hmem, ?_, hid⟩
      by_contra hne
      rw [hi, Option.map_some, Invitation.revokePending, if_neg fun h => hne h.1] at h
      exact h rfl

variable {env : Env}

/-- One of the transactions keeps the statuses truthful. -/
theorem Runs.truthful {work : Work} {base final db : Db} {footprint : Set RowId} {w : String}
    (h : Runs env work base final footprint) (on : work.On env db w) (truthful : base.Truthful) :
  final.Truthful
  := by
  obtain ⟨s, s', effect, rfl, rfl, _⟩ := h.effect
  cases on with
  | removeMember memberId userId =>
      cases effect with
      | removeMember _ _ _ _ _ belongs _ db =>
          rw [db]
          exact truthful.remove_member belongs
  | delete userId =>
      cases effect with
      | delete _ _ _ _ _ _ memberIds_iff _ db =>
          rw [db]
          exact truthful.delete_workspace memberIds_iff
  | accept token userId _ =>
      cases effect with
      | accept joins => exact joins.truthful truthful

/-- The transactions shift accounts in their workspace. -/
theorem Runs.shifts {work : Work} {base final : Db} {footprint : Set RowId} {w : String}
    (h : Runs env work base final footprint) (on : work.On env base w) (truthful : base.Truthful) :
  Shifts base final footprint w work
  := by
  have hfinal := h.truthful on truthful
  obtain ⟨s, s', effect, rfl, rfl, htouched, hfootprint⟩ := h.effect
  have within : (∀ row ∈ s.db.changed s'.db, row ∈ rowsOf s.db w
      ∨ ∃ id, row = .user id ∧ s'.db.users.get id ≠ s.db.users.get id) →
      s'.touched = s.touched ++ [.workspace w] →
      ∀ row ∈ footprint, row ∈ rowsOf s.db w
        ∨ ∃ id, row = .user id ∧ s'.db.users.get id ≠ s.db.users.get id := by
    intro hchanged hlocked row hrow
    rcases (hfootprint row).mp hrow with hrow | hrow
    · exact hchanged row hrow
    · rw [hlocked, htouched] at hrow
      exact Or.inl (Or.inl (List.mem_singleton.mp hrow))
  cases on with
  | removeMember memberId userId =>
      cases effect with
      | removeMember workspace member live allowed not_owner belongs locked db =>
          have hget : ∀ w' id, s'.db.member w' id
              = if pair w' id = pair w memberId then none else s.db.member w' id := by
            intro w' id
            rw [db]
            exact Table.get_erase _ _ _
          have elsewhere : ∀ w' id, w' ≠ w → s'.db.member w' id = s.db.member w' id := by
            intro w' id hne
            rw [hget, if_neg fun h => hne (pair_inj.mp h).1]
          constructor
          · rw [db] at hfinal ⊢
            exact users_returned rfl _ hfinal
          · exact elsewhere
          · rintro id rfl
            rw [hget, if_pos rfl]
          · intro id h
            cases h
          · intro id hne _
            rw [hget, if_neg fun h => hne (pair_inj.mp h).2.symm]
          · refine within (changed_within ?_ ?_ ?_ elsewhere ?_ ?_ ?_) locked
            all_goals simp [db, Db.returned]
  | delete userId =>
      cases effect with
      | delete workspace now newId memberIds live allowed memberIds_iff locked db =>
          obtain ⟨_, hid, _⟩ := Db.live_eq_some.mp live
          have hget := member_of_filter (congrArg Db.members db)
          have elsewhere : ∀ w' id, w' ≠ w → s'.db.member w' id = s.db.member w' id := by
            intro w' id hne
            rw [hget, if_neg hne]
          constructor
          · rw [db] at hfinal ⊢
            exact users_returned rfl _ hfinal
          · exact elsewhere
          · intro id _
            rw [hget, if_pos rfl]
          · intro id h
            cases h
          · intro id hne
            exact absurd trivial hne
          · refine within (changed_within ?_ ?_ ?_ elsewhere ?_ ?_ ?_) locked
            · intro id hne
              rw [db]
              exact Table.get_put_of_ne _ fun h => hne (h.trans hid)
            · rw [db]
              rfl
            · rw [db]
              rfl
            · intro id hchanged
              rw [db] at hchanged
              exact changed_revokePending hchanged
            · rw [db]
              rfl
            · rw [db]
              rfl
  | accept token userId addressed =>
      cases effect with
      | accept joins =>
          obtain ⟨user, invitation, workspace, role, _, joinedAt, _, account, stored, hash, _, _, _,
            _, _, _, _, _, outside, locked, db⟩ := joins
          obtain rfl := addressed invitation stored hash
          obtain ⟨hu, huid⟩ := Table.get_eq_some_iff.mp account
          have hget : ∀ w' id, pair w' id ≠ pair invitation.workspaceId userId →
              s'.db.member w' id = s.db.member w' id := by
            intro w' id hne
            rw [db]
            exact Table.get_put_of_ne _ hne
          have elsewhere : ∀ w' id, w' ≠ invitation.workspaceId →
              s'.db.member w' id = s.db.member w' id :=
            fun w' id hne => hget w' id fun h => hne (pair_inj.mp h).1
          constructor
          · refine users_due hfinal (fun id hid => ?_) fun id old hold => ?_
            · rw [db]
              refine (Table.get_put_of_ne _ fun h => ?_).trans hid
              rw [h, User.joinedAWorkspace_id, huid, account] at hid
              cases hid
            · by_cases h : id = user.joinedAWorkspace.id
              · rw [h, User.joinedAWorkspace_id, huid, account] at hold
                obtain rfl := Option.some.inj hold
                rw [db, h]
                exact ⟨_, Table.get_put_self _ user.joinedAWorkspace⟩
              · rw [db]
                exact ⟨old.onboardingStatus, (Table.get_put_of_ne _ h).trans hold⟩
          · exact elsewhere
          · intro id h
            cases h
          · rintro id rfl
            refine ⟨outside, ?_⟩
            rw [db]
            exact Option.isSome_of_mem (Table.get_put_self _ _)
          · intro id _ hne
            exact hget _ id fun h => hne (pair_inj.mp h).2.symm
          · refine within (changed_within ?_ ?_ ?_ elsewhere ?_ ?_ ?_) locked
            · simp [db]
            · rw [db]
            · rw [db]
            · intro id hchanged
              by_contra hne
              refine hchanged ?_
              rw [db]
              exact Table.get_put_of_ne _ fun h => hne ⟨invitation, stored, rfl, h.symm⟩
            · rw [db]
            · rw [db]

namespace Shifts

variable {base final : Db} {footprint : Set RowId} {w : String} {work : Work}

/-- Who leaves the workspace is one whose membership ends. -/
theorem ends_of_left (h : Shifts base final footprint w work) {id : String}
    (before : (base.member w id).isSome = true) (after : (final.member w id).isSome = false) :
  work.Ends id
  := by
  by_contra hends
  by_cases haccepts : work.Accepts id
  · rw [(h.accepts id haccepts).1] at before
    cases before
  · rw [h.stays id hends haccepts, before] at after
    cases after

/-- Who enters the workspace is one who accepts. -/
theorem accepts_of_entered (h : Shifts base final footprint w work) {id : String}
    (before : (base.member w id).isSome = false) (after : (final.member w id).isSome = true) :
  work.Accepts id
  := by
  by_contra haccepts
  by_cases hends : work.Ends id
  · rw [h.ends id hends] at after
    cases after
  · rw [h.stays id hends haccepts, before] at after
    cases after

end Shifts

/-! ### Where an account belongs -/

theorem Db.belongsToAny_iff_member {db : Db} {id : String} :
  db.belongsToAny id = true ↔ ∃ w, (db.member w id).isSome = true
  := by
  rw [Db.belongsToAny_eq_true]
  constructor
  · rintro ⟨member, hm, rfl⟩
    exact ⟨member.workspaceId, Option.isSome_of_mem (Table.get_eq_some_iff.mpr ⟨hm, rfl⟩)⟩
  · rintro ⟨w, hw⟩
    obtain ⟨member, hmember⟩ := Option.isSome_iff_exists.mp hw
    obtain ⟨hm, hkey⟩ := Table.get_eq_some_iff.mp hmember
    exact ⟨member, hm, (pair_inj.mp hkey).2⟩

/-- The account belongs to a workspace other than two. -/
def Db.BelongsElsewhere (db : Db) (A B id : String) : Prop :=
  ∃ w, w ≠ A ∧ w ≠ B ∧ (db.member w id).isSome = true

/-- Where the memberships are those of `base` but in two workspaces. -/
theorem belongsToAny_of_elsewhere {base db : Db} {A B id : String} {elsewhere : Bool}
    (helsewhere : elsewhere = true ↔ base.BelongsElsewhere A B id)
    (same : ∀ w, w ≠ A → w ≠ B → db.member w id = base.member w id) :
  db.belongsToAny id = ((db.member A id).isSome || (db.member B id).isSome || elsewhere)
  := by
  rw [Bool.eq_iff_iff, Db.belongsToAny_iff_member, Bool.or_eq_true, Bool.or_eq_true, helsewhere]
  constructor
  · rintro ⟨w, hw⟩
    by_cases hA : w = A
    · exact Or.inl (Or.inl (hA ▸ hw))
    · by_cases hB : w = B
      · exact Or.inl (Or.inr (hB ▸ hw))
      · exact Or.inr ⟨w, hA, hB, same w hA hB ▸ hw⟩
  · rintro ((hA | hB) | ⟨w, hA, hB, hw⟩)
    · exact ⟨A, hA⟩
    · exact ⟨B, hB⟩
    · exact ⟨w, (same w hA hB).symm ▸ hw⟩

/-- The account belongs to exactly the workspaces of a list. -/
def Db.BelongsOnly (db : Db) (id : String) (workspaces : List String) : Prop :=
  ∀ w, (db.member w id).isSome = true ↔ w ∈ workspaces

/-- The account loses what it has in one workspace while the other transaction decides from it:
both end its only two memberships, or one ends the only one and the other begins another. -/
def Races (db : Db) (A B : String) (first second : Work) (id : String) : Prop :=
  (first.Ends id ∧ second.Ends id ∧ db.BelongsOnly id [A, B])
    ∨ (first.Ends id ∧ second.Accepts id ∧ db.BelongsOnly id [A])
    ∨ (first.Accepts id ∧ second.Ends id ∧ db.BelongsOnly id [B])

/-! ### Two transactions on one snapshot -/

section Both

variable {base final₁ final₂ : Db} {footprint₁ footprint₂ : Set RowId} {A B : String}
  {first second : Work}

/-- In the merged state the memberships in `B` are those of the second transaction, and all
others those of the first. -/
theorem member_merge (h₁ : Shifts base final₁ footprint₁ A first)
    (h₂ : Shifts base final₂ footprint₂ B second) (distinct : A ≠ B) (w id : String) :
  (Db.merge base final₂ final₁).member w id
    = if w = B then final₂.member B id else final₁.member w id
  := by
  have hmerge : (Db.merge base final₂ final₁).member w id
      = if final₂.member w id = base.member w id then final₁.member w id
        else final₂.member w id := Table.get_merge _ _ _ _
  rw [hmerge]
  by_cases hw : w = B
  · subst hw
    rw [if_pos rfl, h₁.elsewhere w id distinct.symm]
    split
    · next h => exact h.symm
    · rfl
  · rw [if_pos (h₂.elsewhere w id hw), if_neg hw]

/-- Where the account belongs, in the snapshot, after each transaction, and after both. -/
theorem belongs_both (h₁ : Shifts base final₁ footprint₁ A first)
    (h₂ : Shifts base final₂ footprint₂ B second) (distinct : A ≠ B) (id : String) :
  ∃ elsewhere : Bool, (elsewhere = true ↔ base.BelongsElsewhere A B id)
    ∧ base.belongsToAny id
        = ((base.member A id).isSome || (base.member B id).isSome || elsewhere)
    ∧ final₁.belongsToAny id
        = ((final₁.member A id).isSome || (base.member B id).isSome || elsewhere)
    ∧ final₂.belongsToAny id
        = ((base.member A id).isSome || (final₂.member B id).isSome || elsewhere)
    ∧ (Db.merge base final₂ final₁).belongsToAny id
        = ((final₁.member A id).isSome || (final₂.member B id).isSome || elsewhere)
  := by
  obtain ⟨elsewhere, helsewhere⟩ : ∃ elsewhere : Bool,
      elsewhere = true ↔ base.BelongsElsewhere A B id := by
    by_cases h : base.BelongsElsewhere A B id
    · exact ⟨true, by simp [h]⟩
    · exact ⟨false, by simp [h]⟩
  refine ⟨elsewhere, helsewhere, belongsToAny_of_elsewhere helsewhere fun _ _ _ => rfl, ?_, ?_, ?_⟩
  · rw [belongsToAny_of_elsewhere helsewhere fun w hA _ => h₁.elsewhere w id hA,
      h₁.elsewhere B id distinct.symm]
  · rw [belongsToAny_of_elsewhere helsewhere fun w _ hB => h₂.elsewhere w id hB,
      h₂.elsewhere A id distinct]
  · rw [@belongsToAny_of_elsewhere base (Db.merge base final₂ final₁) A B id elsewhere helsewhere
        fun w hA hB => ?_,
      member_merge h₁ h₂ distinct, member_merge h₁ h₂ distinct, if_neg distinct, if_pos rfl]
    rw [member_merge h₁ h₂ distinct, if_neg hB, h₁.elsewhere w id hA]

/-- The account belongs to exactly the given ones of two workspaces. -/
theorem belongsOnly_iff {elsewhere : Bool} {id : String} (distinct : A ≠ B)
    (helsewhere : elsewhere = true ↔ base.BelongsElsewhere A B id) (inA inB : Bool) :
  base.BelongsOnly id ((if inA then [A] else []) ++ (if inB then [B] else []))
    ↔ (base.member A id).isSome = inA ∧ (base.member B id).isSome = inB ∧ elsewhere = false
  := by
  rw [← Bool.not_eq_true, helsewhere]
  constructor
  · intro h
    refine ⟨?_, ?_, ?_⟩
    · rw [Bool.eq_iff_iff, h A]
      cases inA <;> cases inB <;> simp [distinct]
    · rw [Bool.eq_iff_iff, h B]
      cases inA <;> cases inB <;> simp [distinct.symm]
    · rintro ⟨w, hA, hB, hw⟩
      rw [h w] at hw
      cases inA <;> cases inB <;> simp [hA, hB] at hw
  · rintro ⟨hA, hB, hnone⟩ w
    by_cases hwA : w = A
    · subst hwA
      rw [hA]
      cases inA <;> cases inB <;> simp [distinct]
    · by_cases hwB : w = B
      · subst hwB
        rw [hB]
        cases inA <;> cases inB <;> simp [hwA]
      · have hw : ¬ (base.member w id).isSome = true := fun hw => hnone ⟨w, hwA, hwB, hw⟩
        cases inA <;> cases inB <;> simp [hwA, hwB, hw]

/-- The account is raced for exactly when the status that the merge leaves it with is wrong. -/
theorem races_iff (h₁ : Shifts base final₁ footprint₁ A first)
    (h₂ : Shifts base final₂ footprint₂ B second) (distinct : A ≠ B) (id : String) :
  Races base A B first second id
    ↔ (if final₂.belongsToAny id = base.belongsToAny id then final₁.belongsToAny id
        else final₂.belongsToAny id) ≠ (Db.merge base final₂ final₁).belongsToAny id
  := by
  obtain ⟨elsewhere, helsewhere, hbase, hfinal₁, hfinal₂, hmerge⟩ := belongs_both h₁ h₂ distinct id
  have both := @belongsOnly_iff base A B elsewhere id distinct helsewhere true true
  have onlyA := @belongsOnly_iff base A B elsewhere id distinct helsewhere true false
  have onlyB := @belongsOnly_iff base A B elsewhere id distinct helsewhere false true
  have left₁ : _ → _ → first.Ends id := h₁.ends_of_left
  have left₂ : _ → _ → second.Ends id := h₂.ends_of_left
  have entered₁ : _ → _ → first.Accepts id := h₁.accepts_of_entered
  have entered₂ : _ → _ → second.Accepts id := h₂.accepts_of_entered
  have ends₁ : first.Ends id → (final₁.member A id).isSome = false := fun h => by
    rw [h₁.ends id h]
    rfl
  have ends₂ : second.Ends id → (final₂.member B id).isSome = false := fun h => by
    rw [h₂.ends id h]
    rfl
  have outside₁ : first.Accepts id → (base.member A id).isSome = false := fun h => by
    rw [(h₁.accepts id h).1]
    rfl
  have outside₂ : second.Accepts id → (base.member B id).isSome = false := fun h => by
    rw [(h₂.accepts id h).1]
    rfl
  have inside₁ := fun h => (h₁.accepts id h).2
  have inside₂ := fun h => (h₂.accepts id h).2
  simp only [if_true, Bool.false_eq_true, if_false, List.append_nil, List.nil_append,
    List.singleton_append] at both onlyA onlyB
  rw [Races, both, onlyA, onlyB, hbase, hfinal₁, hfinal₂, hmerge]
  -- What is left is a matter of who was a member of `A` and `B` before and after.
  generalize (base.member A id).isSome = a at *
  generalize (base.member B id).isSome = b at *
  generalize (final₁.member A id).isSome = a' at *
  generalize (final₂.member B id).isSome = b' at *
  cases elsewhere with
  | true => simp
  | false => cases a <;> cases b <;> cases a' <;> cases b' <;> simp_all

/-- The accounts of the merged state. -/
theorem users_merge (h₁ : Shifts base final₁ footprint₁ A first)
    (h₂ : Shifts base final₂ footprint₂ B second) (truthful : base.Truthful) (id : String) :
  (Db.merge base final₂ final₁).users.get id = (base.users.get id).map fun user =>
    { user with onboardingStatus :=
        if user.due (final₂.belongsToAny id) = user.due (base.belongsToAny id) then
          user.due (final₁.belongsToAny id)
        else user.due (final₂.belongsToAny id) }
  := by
  have hmerge : (Db.merge base final₂ final₁).users.get id
      = if final₂.users.get id = base.users.get id then final₁.users.get id
        else final₂.users.get id := Table.get_merge _ _ _ _
  rw [hmerge, h₁.users, h₂.users]
  cases hu : base.users.get id with
  | none => simp
  | some user =>
      obtain ⟨hmem, hid⟩ := Table.get_eq_some_iff.mp hu
      have hdue := truthful user hmem
      rw [hid] at hdue
      have hsame : ({ user with onboardingStatus := user.due (final₂.belongsToAny id) } : User) = user
          ↔ user.due (final₂.belongsToAny id) = user.due (base.belongsToAny id) := by
        rw [← hdue]
        constructor
        · intro h
          exact congrArg User.onboardingStatus h
        · intro h
          rw [h]
      simp only [Option.map_some, Option.some.injEq, hsame]
      split
      · rfl
      · rfl

/-- The status that is due does not depend on the one that is stored. -/
theorem User.due_status (user : User) (status : OnboardingStatus) (belongs : Bool) :
  ({ user with onboardingStatus := status } : User).due belongs = user.due belongs
  := rfl

/-- The status due to a named account tells whether it belongs to a workspace. -/
theorem due_inj {user : User} (named : ¬ Blank user.displayName) {belongs belongs' : Bool} :
  user.due belongs = user.due belongs' ↔ belongs = belongs'
  := by
  constructor
  · intro h
    cases belongs <;> cases belongs' <;> simp_all [User.due]
  · rintro rfl
    rfl

end Both

/-- A status is the one due to a named account when it says whether the account belongs to a
workspace. -/
theorem due_eq_iff {user : User} (named : ¬ Blank user.displayName) {belongs : Bool} :
  user.onboardingStatus = user.due belongs
    ↔ (user.onboardingStatus = .completed ↔ belongs = true)
      ∧ (user.onboardingStatus = .workspacePending ↔ belongs = false)
  := by
  cases belongs <;> cases user.onboardingStatus <;> simp [User.due, named]

/-- Every named account has the status that is due to it. -/
def Db.NamedTruthful (db : Db) : Prop :=
  ∀ user ∈ db.users, ¬ Blank user.displayName →
    user.onboardingStatus = user.due (db.belongsToAny user.id)

theorem Db.Truthful.named {db : Db} (h : db.Truthful) :
  db.NamedTruthful
  := fun user hu _ => h user hu

section Both

variable {base final₁ final₂ : Db} {footprint₁ footprint₂ : Set RowId} {A B : String}
  {first second : Work}

/-- What the merge leaves is truthful exactly when no named account is raced for. -/
theorem merge_namedTruthful_iff (h₁ : Shifts base final₁ footprint₁ A first)
    (h₂ : Shifts base final₂ footprint₂ B second) (distinct : A ≠ B) (truthful : base.Truthful) :
  (Db.merge base final₂ final₁).NamedTruthful
    ↔ ¬ ∃ user ∈ base.users, ¬ Blank user.displayName ∧ Races base A B first second user.id
  := by
  have key : ∀ user ∈ base.users, ¬ Blank user.displayName →
      (Races base A B first second user.id
        ↔ (if user.due (final₂.belongsToAny user.id) = user.due (base.belongsToAny user.id) then
            user.due (final₁.belongsToAny user.id) else user.due (final₂.belongsToAny user.id))
          ≠ user.due ((Db.merge base final₂ final₁).belongsToAny user.id)) := by
    intro user _ named
    rw [races_iff h₁ h₂ distinct]
    by_cases hb : final₂.belongsToAny user.id = base.belongsToAny user.id
    · rw [if_pos hb, if_pos ((due_inj named).mpr hb), ne_eq, ne_eq, due_inj named]
    · rw [if_neg hb, if_neg (mt (due_inj named).mp hb), ne_eq, ne_eq, due_inj named]
  constructor
  · rintro h ⟨user, hu, named, races⟩
    have hget := users_merge h₁ h₂ truthful user.id
    rw [Table.mem_def.mp hu, Option.map_some] at hget
    have hdue := h _ (Table.get_eq_some_iff.mp hget).1 named
    simp only [User.due_status] at hdue
    exact (key user hu named).mp races hdue
  · intro h user' hu' named
    have hget := users_merge h₁ h₂ truthful user'.id
    rw [Table.mem_def.mp hu'] at hget
    obtain ⟨user, hget', heq⟩ := Option.map_eq_some_iff.mp hget.symm
    obtain ⟨hu, hid⟩ := Table.get_eq_some_iff.mp hget'
    rw [← hid] at heq
    subst heq
    simp only [User.due_status]
    by_contra hne
    exact h ⟨user, hu, named, (key user hu named).mpr hne⟩

/-- The rows of one workspace are not those of another. -/
theorem rowsOf_disjoint (distinct : A ≠ B) {row : RowId} (hA : row ∈ rowsOf base A)
    (hB : row ∈ rowsOf base B) :
  False
  := by
  rcases hA with rfl | ⟨id, rfl⟩ | ⟨invitation, hi, hw, rfl⟩
  · rcases hB with h | ⟨_, h⟩ | ⟨_, _, _, h⟩
    · exact distinct (RowId.workspace.inj h)
    · cases h
    · cases h
  · rcases hB with h | ⟨_, h⟩ | ⟨_, _, _, h⟩
    · cases h
    · exact distinct (RowId.member.inj h).1
    · cases h
  · rcases hB with h | ⟨_, h⟩ | ⟨invitation', hi', hw', h⟩
    · cases h
    · cases h
    · obtain rfl := Table.eq_of_key hi hi' (RowId.invitation.inj h)
      exact distinct (hw.symm.trans hw')

/-- An account that both transactions change is one that enters both workspaces. -/
theorem accepts_of_changed (h₁ : Shifts base final₁ footprint₁ A first)
    (h₂ : Shifts base final₂ footprint₂ B second) (distinct : A ≠ B) (truthful : base.Truthful)
    {id : String} (changed₁ : final₁.users.get id ≠ base.users.get id)
    (changed₂ : final₂.users.get id ≠ base.users.get id) :
  first.Accepts id ∧ second.Accepts id
  := by
  have differs : ∀ {final : Db} {footprint : Set RowId} {w : String} {work : Work},
      Shifts base final footprint w work → final.users.get id ≠ base.users.get id →
        final.belongsToAny id ≠ base.belongsToAny id := by
    intro final footprint w work h hne hsame
    refine hne ?_
    rw [h.users, hsame]
    cases hu : base.users.get id with
    | none => rfl
    | some user =>
        obtain ⟨hmem, hid⟩ := Table.get_eq_some_iff.mp hu
        rw [Option.map_some, ← hid, ← truthful user hmem]
  have hdiffers₁ := differs h₁ changed₁
  have hdiffers₂ := differs h₂ changed₂
  obtain ⟨elsewhere, _, hbase, hfinal₁, hfinal₂, _⟩ := belongs_both h₁ h₂ distinct id
  rw [hbase, hfinal₁] at hdiffers₁
  rw [hbase, hfinal₂] at hdiffers₂
  have hmembers : (base.member A id).isSome = false ∧ (base.member B id).isSome = false
      ∧ (final₁.member A id).isSome = true ∧ (final₂.member B id).isSome = true := by
    generalize (base.member A id).isSome = a at *
    generalize (base.member B id).isSome = b at *
    generalize (final₁.member A id).isSome = a' at *
    generalize (final₂.member B id).isSome = b' at *
    cases elsewhere with
    | true => simp at hdiffers₁
    | false => cases a <;> cases b <;> simp_all
  exact ⟨h₁.accepts_of_entered hmembers.1 hmembers.2.2.1,
    h₂.accepts_of_entered hmembers.2.1 hmembers.2.2.2⟩

/-- Transactions on different workspaces do not conflict, unless some account accepts an
invitation in both. -/
theorem Shifts.disjoint (h₁ : Shifts base final₁ footprint₁ A first)
    (h₂ : Shifts base final₂ footprint₂ B second) (distinct : A ≠ B) (truthful : base.Truthful)
    (apart : ∀ id, ¬ (first.Accepts id ∧ second.Accepts id)) :
  Disjoint footprint₂ footprint₁
  := by
  refine Set.disjoint_left.mpr fun row hrow₂ hrow₁ => ?_
  rcases h₁.within row hrow₁ with hA | ⟨id₁, rfl, changed₁⟩
  · rcases h₂.within row hrow₂ with hB | ⟨id₂, rfl, _⟩
    · exact rowsOf_disjoint distinct hA hB
    · rcases hA with h | ⟨_, h⟩ | ⟨_, _, _, h⟩ <;> cases h
  · rcases h₂.within _ hrow₂ with hB | ⟨id₂, hid, changed₂⟩
    · rcases hB with h | ⟨_, h⟩ | ⟨_, _, _, h⟩ <;> cases h
    · cases hid
      exact apart id₁ (accepts_of_changed h₁ h₂ distinct truthful changed₁ changed₂)

theorem Work.Ends.not_accepts {work : Work} {id id' : String} (h : work.Ends id) :
  ¬ work.Accepts id'
  := by
  intro h'
  cases work with
  | accept => exact h
  | _ => exact h'

/-- When there is a race for an account, not both transactions accept invitations. -/
theorem Races.apart {id : String} (races : Races base A B first second id) (id' : String) :
  ¬ (first.Accepts id' ∧ second.Accepts id')
  := by
  rintro ⟨haccepts₁, haccepts₂⟩
  rcases races with ⟨hends, _, _⟩ | ⟨hends, _, _⟩ | ⟨_, hends, _⟩
  · exact hends.not_accepts haccepts₁
  · exact hends.not_accepts haccepts₁
  · exact hends.not_accepts haccepts₂

end Both

/-! ### Two transactions that overlap -/

/-- After two overlapping transactions on different workspaces the status of every named
account tells the truth exactly when none was raced for. -/
theorem overlap_truthful_iff {base state : Db} {A B : String} {first second : Work}
    (truthful : base.Truthful) (distinct : A ≠ B) (on₁ : first.On env base A)
    (on₂ : second.On env base B) (overlap : Overlap (system env) first second base state) :
  (∀ user ∈ state.users, ¬ Blank user.displayName →
      (user.onboardingStatus = .completed ↔ ∃ member ∈ state.members, member.userId = user.id)
      ∧ (user.onboardingStatus = .workspacePending
        ↔ ¬ ∃ member ∈ state.members, member.userId = user.id))
    ↔ ¬ ∃ user ∈ base.users, ¬ Blank user.displayName ∧ Races base A B first second user.id
  := by
  have hnamed : state.NamedTruthful ↔ ∀ user ∈ state.users, ¬ Blank user.displayName →
      (user.onboardingStatus = .completed ↔ ∃ member ∈ state.members, member.userId = user.id)
      ∧ (user.onboardingStatus = .workspacePending
        ↔ ¬ ∃ member ∈ state.members, member.userId = user.id) := by
    refine forall₃_congr fun user _ named => ?_
    rw [← Db.belongsToAny_eq_true, Bool.not_eq_true, ← due_eq_iff named]
  rw [← hnamed]
  cases overlap with
  | merged runs₁ runs₂ apart _ _ =>
      exact merge_namedTruthful_iff (runs₁.shifts on₁ truthful) (runs₂.shifts on₂ truthful)
        distinct truthful
  | rerun runs₁ runs₂ conflict _ runs₃ _ =>
      have hshifts₁ := Runs.shifts runs₁ on₁ truthful
      have hshifts₂ := Runs.shifts runs₂ on₂ truthful
      have htruthful := Runs.truthful runs₃ on₂ (Runs.truthful runs₁ on₁ truthful)
      refine iff_of_true htruthful.named ?_
      rintro ⟨user, _, _, races⟩
      exact conflict (hshifts₁.disjoint hshifts₂ distinct truthful races.apart)

/-- Two removals that overlap. Bob belongs to two workspaces, and is removed from both at once;
each removal sees the other membership, and neither sends him back to the workspace step. -/
theorem removals_overlap :
  ∃ base state A B first second,
    base.Truthful ∧ A ≠ B ∧ first.On .sample base A ∧ second.On .sample base B
      ∧ Overlap (system .sample) first second base state
      ∧ ∃ user ∈ state.users, ¬ Blank user.displayName ∧ user.onboardingStatus = .completed
        ∧ ¬ ∃ member ∈ state.members, member.userId = user.id
  := by
  let s := Session.after .sample [.register "ada" "ada@acme.test" "Ada" none,
    .register "cid" "cid@beta.test" "Cid" none, .create "Acme" "acme" "ada",
    .create "Beta" "beta" "cid", .issue "i" "bob@acme.test" "iiii" "ada",
    .issue "iiiiii" "bob@acme.test" "iiiiiiiii" "cid",
    .register "bob" "bob@acme.test" "Bob" (some "t"), .accept "tt" "bob"]
  let first : Work := .removeMember "i" "bob" "ada"
  let second : Work := .removeMember "iiiiii" "bob" "cid"
  let state := Db.merge s.db (second.body.run .sample s).2.db (first.body.run .sample s).2.db
  have reachable : Reachable .sample
      (fun work => ∀ userId displayName, work = .rename userId displayName → ¬ Blank displayName) s :=
    .after (by simp)
  have on₁ : first.On .sample s.db "i" := .removeMember "bob" "ada"
  have on₂ : second.On .sample s.db "iiiiii" := .removeMember "bob" "cid"
  have runs₁ := Runs.of_run .sample first reachable.touched (by decide +kernel)
  have runs₂ := Runs.of_run .sample second reachable.touched (by decide +kernel)
  have apart := (runs₁.shifts on₁ reachable.truthful).disjoint
    (runs₂.shifts on₂ reachable.truthful) (by decide) reachable.truthful fun _ h => h.1
  have overlap : Overlap (system .sample) first second s.db state :=
    .merged runs₁ runs₂ apart (show Db.Unique _ by decide +kernel)
      (show Db.Unique state by decide +kernel)
  have stranded : (state.users.any fun user => ¬ Blank user.displayName
      ∧ user.onboardingStatus = .completed ∧ state.belongsToAny user.id = false) = true := by
    decide +kernel
  obtain ⟨user, hu, h⟩ := Table.any_eq_true.mp stranded
  obtain ⟨named, completed, nowhere⟩ := of_decide_eq_true h
  rw [← Bool.not_eq_true, Db.belongsToAny_eq_true] at nowhere
  exact ⟨s.db, state, "i", "iiiiii", first, second, reachable.truthful, by decide, on₁, on₂,
    overlap, user, hu, named, completed, nowhere⟩

/-- The status does not always tell the truth after two transactions that overlap. -/
theorem overlap_not_truthful :
  ∃ base state A B first second,
    base.Truthful ∧ A ≠ B ∧ first.On .sample base A ∧ second.On .sample base B
      ∧ Overlap (system .sample) first second base state
      ∧ ¬ ∀ user ∈ state.users, ¬ Blank user.displayName →
        (user.onboardingStatus = .completed ↔ ∃ member ∈ state.members, member.userId = user.id)
        ∧ (user.onboardingStatus = .workspacePending
          ↔ ¬ ∃ member ∈ state.members, member.userId = user.id)
  := by
  obtain ⟨base, state, A, B, first, second, truthful, distinct, on₁, on₂, overlap, user, hu, named,
    completed, nowhere⟩ := removals_overlap
  exact ⟨base, state, A, B, first, second, truthful, distinct, on₁, on₂, overlap,
    fun h => nowhere ((h user hu named).1.mp completed)⟩

/-- In the overlap of two removals there is a race for an account. -/
theorem overlap_truthful_iff_of_removals :
  ∃ base state A B first second,
    base.Truthful ∧ A ≠ B ∧ Overlap (system .sample) first second base state
      ∧ ∃ user ∈ base.users, ¬ Blank user.displayName ∧ Races base A B first second user.id
  := by
  obtain ⟨base, state, A, B, first, second, truthful, distinct, on₁, on₂, overlap, user, hu, named,
    completed, nowhere⟩ := removals_overlap
  refine ⟨base, state, A, B, first, second, truthful, distinct, overlap, ?_⟩
  by_contra norace
  have h := (overlap_truthful_iff truthful distinct on₁ on₂ overlap).mpr norace
  exact nowhere ((h user hu named).1.mp completed)

end MvpApi
