import MvpApi.Runs.Accounts

/-!
# The life of an invitation

An invitation is issued as pending and moves once, to accepted or to revoked, and nothing
else about it ever changes. Nobody becomes a member of a workspace except its creator, and
those who accept an invitation to it; and no invitation is accepted twice.
-/

set_option autoImplicit false

namespace MvpApi

open Exec

/-! ### How an invitation moves -/

/-- What may become of a stored invitation. -/
inductive Invitation.Moves : Invitation → Invitation → Prop
  | stay (invitation : Invitation) : Moves invitation invitation
  | accept (invitation : Invitation) (pending : invitation.status = .pending) (userId : String) :
      Moves invitation { invitation with status := .accepted, acceptedBy := some userId }
  | revoke (invitation : Invitation) (pending : invitation.status = .pending) :
      Moves invitation { invitation with status := .revoked }

theorem Invitation.Moves.trans {invitation invitation' invitation'' : Invitation}
    (h : invitation.Moves invitation') (h' : invitation'.Moves invitation'') :
  invitation.Moves invitation''
  := by
  cases h with
  | stay => exact h'
  | accept pending userId =>
      cases h' with
      | stay => exact .accept _ pending userId
      | accept pending' _ => cases pending'
      | revoke pending' => cases pending'
  | revoke pending =>
      cases h' with
      | stay => exact .revoke _ pending
      | accept pending' _ => cases pending'
      | revoke pending' => cases pending'

/-- An invitation has been accepted by someone exactly when its status says so. -/
def Invitation.Settled (invitation : Invitation) : Prop :=
  invitation.acceptedBy.isSome ↔ invitation.status = .accepted

theorem Invitation.Moves.settled {invitation invitation' : Invitation}
    (h : invitation.Moves invitation') (settled : invitation.Settled) :
  invitation'.Settled
  := by
  cases h with
  | stay => exact settled
  | accept pending userId => simp [Settled]
  | revoke pending =>
      rw [Settled, pending] at settled
      simpa [Settled] using settled

/-! ### One transaction -/

/-- From `s` to `s'` the stored invitations move, and new ones are issued with ids drawn in
between. -/
structure Advances (env : Env) (s s' : Session) : Prop where
  moves : ∀ id before after, s.db.invitations.get id = some before →
    s'.db.invitations.get id = some after → before.Moves after
  issued : ∀ id after, s.db.invitations.get id = none →
    s'.db.invitations.get id = some after → after.status = .pending ∧ after.acceptedBy = none
      ∧ ∃ idx, s.ids ≤ idx ∧ idx < s'.ids ∧ env.uuid7 idx = id

variable {env : Env} {s s' : Session} {work : Work}

/-- Invitations that are all kept, or deleted, do not move. -/
theorem Advances.of_subset
    (h : ∀ invitation ∈ s'.db.invitations, invitation ∈ s.db.invitations) :
  Advances env s s'
  where
  moves id before after hb ha := by
    obtain ⟨ha, hid⟩ := Table.get_eq_some_iff.mp ha
    rw [← hid, Table.mem_def.mp (h after ha)] at hb
    cases hb
    exact .stay _
  issued id after hb ha := by
    obtain ⟨ha, hid⟩ := Table.get_eq_some_iff.mp ha
    rw [← hid, Table.mem_def.mp (h after ha)] at hb
    cases hb

theorem Advances.of_filter {p : Invitation → Bool}
    (h : s'.db.invitations = s.db.invitations.filter p) :
  Advances env s s'
  := .of_subset fun _ hi => (Table.mem_filter.mp (h ▸ hi)).1

/-- A stored invitation that is written has moved. -/
theorem Advances.of_put {invitation : Invitation} (invitation' : Invitation)
    (stored : invitation ∈ s.db.invitations) (id : invitation'.id = invitation.id)
    (moves : invitation.Moves invitation')
    (invitations : s'.db.invitations = s.db.invitations.put invitation') :
  Advances env s s'
  where
  moves id' before after hb ha := by
    rw [invitations, Table.get_put] at ha
    split at ha
    · next h =>
        rw [h, id, Table.mem_def.mp stored] at hb
        cases hb
        cases ha
        exact moves
    · rw [hb] at ha
      cases ha
      exact .stay _
  issued id' after hb ha := by
    rw [invitations, Table.get_put] at ha
    split at ha
    · next h =>
        rw [h, id, Table.mem_def.mp stored] at hb
        cases hb
    · rw [hb] at ha
      cases ha

/-- Revoking the pending invitations of a workspace moves each of them. -/
theorem Advances.of_revokePending {w : String}
    (invitations : s'.db.invitations = s.db.invitations.map (·.revokePending w)
      (Invitation.revokePending_id w)) :
  Advances env s s'
  where
  moves id before after hb ha := by
    rw [invitations, Table.get_map, hb] at ha
    obtain rfl := Option.some.inj ha
    show before.Moves (before.revokePending w)
    unfold Invitation.revokePending
    split
    · next h => exact .revoke before h.2
    · exact .stay before
  issued id after hb ha := by
    rw [invitations, Table.get_map, hb] at ha
    cases ha

theorem Joins.advances {token userId : String} {s₁ : Session} (h : Joins env token userId s₁ s')
    (invitations : s₁.db.invitations = s.db.invitations) :
  Advances env s s'
  := by
  obtain ⟨_, invitation, _, _, _, _, _, _, stored, _, _, _, usable, _, _, _, _, _, _, _, db⟩ := h
  rw [invitations] at stored
  exact .of_put { invitation with status := .accepted, acceptedBy := some userId } stored rfl
    (.accept invitation usable.1 userId) (by rw [db, ← invitations])

/-- Every transaction only moves invitations and issues new ones. -/
theorem Effect.advances (h : Effect env s s' work) :
  Advances env s s'
  := by
  have same : s'.db.invitations = s.db.invitations → Advances env s s' := fun hi =>
    .of_subset fun invitation h => hi ▸ h
  cases h with
  | create _ _ _ _ _ _ _ _ _ _ _ _ _ _ _ _ _ _ _ _ db _ => exact same (by rw [db])
  | update _ _ _ _ db => exact same (by rw [db])
  | replaceLogo _ _ _ _ db => exact same (by rw [db])
  | delete _ _ _ _ _ _ _ _ db => exact .of_revokePending (by rw [db]; rfl)
  | addRole _ _ _ _ _ _ _ db => exact same (by rw [db])
  | renameRole _ _ _ _ _ _ _ _ _ db => exact same (by rw [db])
  | deleteRole _ _ _ _ _ _ _ _ _ _ _ db =>
      exact .of_filter (congrArg Db.invitations db)
  | setPermissions _ _ _ _ _ _ _ _ _ db => exact same (by rw [db])
  | setMemberRole _ _ _ _ _ _ _ _ _ _ _ db => exact same (by rw [db])
  | removeMember _ _ _ _ _ _ _ db => exact same (by rw [db]; rfl)
  | transfer _ _ _ _ _ _ _ _ _ _ _ _ _ _ db _ => exact same (by rw [db])
  | issue _ _ invitation idx _ _ token _ _ _ _ _ _ _ _ _ _ id_ge id_lt shape fresh _ db =>
      constructor
      · intro id before after hb ha
        rw [db, Table.get_put] at ha
        split at ha
        · next h =>
            rw [h, fresh] at hb
            cases hb
        · rw [hb] at ha
          cases ha
          exact .stay _
      · intro id after hb ha
        rw [db, Table.get_put] at ha
        split at ha
        · next h =>
            cases ha
            rw [h, shape]
            exact ⟨rfl, rfl, idx, id_ge, id_lt, rfl⟩
        · rw [hb] at ha
          cases ha
  | revoke workspace invitation tick _ _ stored _ usable _ db =>
      obtain ⟨hi, _⟩ := Table.get_eq_some_iff.mp stored
      exact .of_put { invitation with status := .revoked } hi rfl
        (.revoke invitation usable.1) (by rw [db])
  | accept joins => exact joins.advances rfl
  | register now _ db =>
      exact same (by rw [db]; simp)
  | registerAndJoin now s₁ db _ _ joins =>
      exact joins.advances (by rw [db]; simp)
  | ensureAccount now _ db =>
      exact same (by rw [db]; simp)
  | rename _ _ _ _ db => exact same (by rw [db])
  | replaceAvatar _ _ _ db => exact same (by rw [db])
  | deleteAccount _ _ _ _ _ db =>
      exact .of_filter (congrArg Db.invitations db)
  | deleteBatch _ db => exact same (by rw [db]; rfl)
  | purgeNothing _ same' => exact same (by rw [same'])
  | purgeRows _ _ _ _ db =>
      exact .of_filter (congrArg Db.invitations db)
  | createProduct _ _ _ _ db => exact same (by rw [db])
  | updateProduct _ _ _ _ _ _ db => exact same (by rw [db])
  | deleteProduct _ _ _ _ db => exact same (by rw [db])
  | attachImage _ _ _ _ _ _ _ _ db => exact same (by rw [db])
  | removeImage _ _ _ _ _ _ db => exact same (by rw [db])
  | reorderImages _ _ _ _ _ _ db => exact same (by rw [db])

/-! ### Entering a workspace -/

/-- The account creates the workspace. -/
def Founds (work : Work) (s s' : Session) (w userId : String) : Prop :=
  (∃ name slug, work = .create name slug userId) ∧ s.db.workspaces.get w = none
    ∧ ∃ workspace, s'.db.workspaces.get w = some workspace ∧ workspace.ownerId = userId

/-- The account enters the workspace with an invitation, which was pending, and had not
expired from the start until it was accepted, and which no other change of an invitation goes
along with. -/
structure Consumes (env : Env) (s s' : Session) (w userId roleId : String)
    (invitation : Invitation) : Prop where
  stored : invitation ∈ s.db.invitations
  workspace : invitation.workspaceId = w
  role : invitation.roleId = roleId
  addressed : ∃ user, s'.db.users.get userId = some user ∧ user.email = invitation.email
  usable : ∃ tick, s.ticks ≤ tick ∧ tick < s'.ticks ∧ ∀ i ≤ tick, invitation.Usable (env.clock i)
  accepted : { invitation with status := .accepted, acceptedBy := some userId }
    ∈ s'.db.invitations
  others : ∀ id, id ≠ invitation.id → s'.db.invitations.get id = s.db.invitations.get id

/-- In the step from `s` to `s'` the member enters its workspace, and nobody else enters one. -/
structure Enters (env : Env) (work : Work) (s s' : Session) (member : Member) : Prop where
  how : Founds work s s' member.workspaceId member.userId
    ∨ ∃ invitation, Consumes env s s' member.workspaceId member.userId member.roleId invitation
  alone : ∀ other ∈ s'.db.members, s.db.members.get other.key = none → other = member

/-- The members after a transaction that writes one. -/
theorem eq_of_put_member {members : Table Member.key} {member other : Member}
    (h : other ∈ members.put member) (new : members.get other.key = none) :
  other = member
  := by
  rcases Table.mem_put.mp h with rfl | ⟨h, _⟩
  · rfl
  · rw [Table.mem_def.mp h] at new
    cases new

theorem Joins.enters (lawful : env.Lawful) {token userId : String} {s₁ : Session}
    (h : Joins env token userId s₁ s') (lower : ∀ user ∈ s₁.db.users, env.lower user.email = user.email)
    (ticks : s.ticks ≤ s₁.ticks) (invitations : s₁.db.invitations = s.db.invitations)
    (members : s₁.db.members = s.db.members) {member : Member} (hm : member ∈ s'.db.members)
    (new : s.db.members.get member.key = none) :
  Enters env work s s' member
  := by
  obtain ⟨user, invitation, _, _, tick, joinedAt, _, account, stored, _, tick_ge, tick_lt, usable,
    addressed, _, _, _, _, _, _, db⟩ := h
  have hmember : ∀ other ∈ s'.db.members, s.db.members.get other.key = none →
      other = ⟨invitation.workspaceId, userId, invitation.roleId, joinedAt⟩ := by
    intro other hother hnew
    rw [db] at hother
    exact eq_of_put_member hother (members ▸ hnew)
  obtain rfl := hmember member hm new
  refine ⟨Or.inr ⟨invitation, ?_⟩, hmember⟩
  constructor
  · exact invitations ▸ stored
  · rfl
  · rfl
  · obtain ⟨hu, hid⟩ := Table.get_eq_some_iff.mp account
    refine ⟨user.joinedAWorkspace, ?_, (lower user hu).symm.trans addressed⟩
    rw [db]
    exact Table.get_eq_some_iff.mpr ⟨Table.mem_put.mpr (Or.inl rfl), hid⟩
  · refine ⟨tick, ticks.trans tick_ge, tick_lt, fun i hi => ⟨usable.1, ?_⟩⟩
    exact (lawful.clock_mono hi).trans_lt usable.2
  · rw [db]
    exact Table.mem_put.mpr (Or.inl rfl)
  · intro id hid
    rw [db, ← invitations]
    exact Table.get_put_of_ne _ hid

/-- Whoever is a member after a transaction and was none before has created the workspace, or
has accepted an invitation to it. -/
theorem Effect.enters (lawful : env.Lawful) (h : Effect env s s' work)
    (lower : ∀ user ∈ s.db.users, env.lower user.email = user.email) {member : Member}
    (hm : member ∈ s'.db.members) (new : s.db.members.get member.key = none) :
  Enters env work s s' member
  := by
  have nobody : (∀ other ∈ s'.db.members, ∃ old ∈ s.db.members, old.key = other.key) →
      Enters env work s s' member := by
    intro hold
    obtain ⟨old, hold, hkey⟩ := hold member hm
    rw [← hkey, Table.mem_def.mp hold] at new
    cases new
  have same : s'.db.members = s.db.members → Enters env work s s' member :=
    fun hs => nobody fun other hother => ⟨other, hs ▸ hother, rfl⟩
  have filtered : ∀ {p}, s'.db.members = s.db.members.filter p → Enters env work s s' member :=
    fun hs => nobody fun other hother => ⟨other, (Table.mem_filter.mp (hs ▸ hother)).1, rfl⟩
  cases h with
  | @create name slug userId user workspace _ _ _ owner joinedAt _ _ _ shape fresh _ _ _ _ _ _ _ _
      db _ =>
      have hmember : ∀ other ∈ s'.db.members, s.db.members.get other.key = none →
          other = ⟨workspace.id, userId, owner.id, joinedAt⟩ := by
        intro other hother hnew
        rw [db] at hother
        exact eq_of_put_member hother hnew
      obtain rfl := hmember member hm new
      obtain ⟨id, created, hshape⟩ := shape
      refine ⟨Or.inl ⟨⟨name, slug, rfl⟩, fresh, workspace, ?_, by rw [hshape]⟩, hmember⟩
      rw [db]
      exact Table.get_put_self _ workspace
  | update _ _ _ _ db => exact same (by rw [db])
  | replaceLogo _ _ _ _ db => exact same (by rw [db])
  | delete _ _ _ _ _ _ _ _ db =>
      exact filtered (congrArg Db.members db)
  | addRole _ _ _ _ _ _ _ db => exact same (by rw [db])
  | renameRole _ _ _ _ _ _ _ _ _ db => exact same (by rw [db])
  | deleteRole _ _ _ _ _ _ _ _ _ _ _ db => exact same (by rw [db])
  | setPermissions _ _ _ _ _ _ _ _ _ db => exact same (by rw [db])
  | setMemberRole _ _ old _ _ _ _ _ _ belongs _ db =>
      obtain ⟨hold, _⟩ := Table.get_eq_some_iff.mp belongs
      refine nobody fun other hother => ?_
      rw [db] at hother
      rcases Table.mem_put.mp hother with rfl | ⟨hother, _⟩
      · exact ⟨old, hold, rfl⟩
      · exact ⟨other, hother, rfl⟩
  | removeMember _ _ _ _ _ _ _ db =>
      refine nobody fun other hother => ?_
      rw [db] at hother
      exact ⟨other, (Table.mem_erase.mp hother).1, rfl⟩
  | transfer _ target previous _ _ _ _ _ _ belongs belongs' _ _ _ db _ =>
      obtain ⟨htarget, _⟩ := Table.get_eq_some_iff.mp belongs
      obtain ⟨hprevious, _⟩ := Table.get_eq_some_iff.mp belongs'
      refine nobody fun other hother => ?_
      rw [db] at hother
      rcases Table.mem_put.mp hother with rfl | ⟨hother, _⟩
      · exact ⟨previous, hprevious, rfl⟩
      · rcases Table.mem_put.mp hother with rfl | ⟨hother, _⟩
        · exact ⟨target, htarget, rfl⟩
        · exact ⟨other, hother, rfl⟩
  | issue _ _ _ _ _ _ _ _ _ _ _ _ _ _ _ _ _ _ _ _ _ _ db => exact same (by rw [db])
  | revoke _ _ _ _ _ _ _ _ _ db => exact same (by rw [db])
  | accept joins => exact joins.enters lawful lower le_rfl rfl rfl hm new
  | register now _ db => exact same (by rw [db]; simp)
  | registerAndJoin now s₁ db _ later joins =>
      refine joins.enters lawful ?_ later.ticks (by rw [db]; simp) (by rw [db]; simp) hm new
      intro user hu
      rw [db] at hu
      exact lower_email_of_account lawful lower (account_addUnlessTaken .ensureAccount user hu)
  | ensureAccount now _ db => exact same (by rw [db]; simp)
  | rename _ _ _ _ db => exact same (by rw [db])
  | replaceAvatar _ _ _ db => exact same (by rw [db])
  | deleteAccount _ _ _ _ _ db => exact filtered (congrArg Db.members db)
  | deleteBatch _ db => exact same (by rw [db]; rfl)
  | purgeNothing _ same' => exact same (by rw [same'])
  | purgeRows _ _ _ _ db => exact filtered (congrArg Db.members db)
  | createProduct _ _ _ _ db => exact same (by rw [db])
  | updateProduct _ _ _ _ _ _ db => exact same (by rw [db])
  | deleteProduct _ _ _ _ db => exact same (by rw [db])
  | attachImage _ _ _ _ _ _ _ _ db => exact same (by rw [db])
  | removeImage _ _ _ _ _ _ db => exact same (by rw [db])
  | reorderImages _ _ _ _ _ _ db => exact same (by rw [db])

/-! ### Runs -/

/-- The ids of all stored invitations were drawn, and they are accepted by someone exactly when
their status says so. -/
theorem Reachable.invitations {ok : Work → Prop} (h : Reachable env ok s) :
  ∀ invitation ∈ s.db.invitations, s.Drawn env invitation.id ∧ invitation.Settled
  := by
  induction h with
  | refl => simp [Session.start, Db.empty]
  | @commit s s' work u run allowed returns unique ih =>
      intro invitation hi
      obtain ⟨effect, later⟩ := Work.effect returns
      have hget : s'.db.invitations.get invitation.id = some invitation := Table.mem_def.mp hi
      cases hold : s.db.invitations.get invitation.id with
      | none =>
          obtain ⟨hpending, hnobody, idx, _, hidx, hid⟩ := effect.advances.issued _ _ hold hget
          exact ⟨⟨idx, hidx, hid⟩, by simp [Invitation.Settled, hpending, hnobody]⟩
      | some before =>
          obtain ⟨hmem, hid⟩ := Table.get_eq_some_iff.mp hold
          obtain ⟨hdrawn, hsettled⟩ := ih before hmem
          rw [hid] at hdrawn
          exact ⟨hdrawn.mono later.done,
            (effect.advances.moves _ _ _ hold hget).settled hsettled⟩
  | wait run later same _ ih =>
      intro invitation hi
      rw [same] at hi
      exact ⟨(ih invitation hi).1.mono later, (ih invitation hi).2⟩

/-- An invitation that is stored at two points of a run has moved in between. -/
theorem Reaches.moves {ok : Work → Prop} (lawful : env.Lawful) {s₀ : Session}
    (run : Reaches env ok s₀ s) {id : String} (drawn : s₀.Drawn env id) {after : Invitation}
    (ha : s.db.invitations.get id = some after) :
  ∃ before, s₀.db.invitations.get id = some before ∧ before.Moves after
  := by
  induction run generalizing after with
  | refl => exact ⟨after, ha, .stay after⟩
  | @commit s s' work u run allowed returns unique ih =>
      have advances := (Work.effect returns).1.advances
      cases hmid : s.db.invitations.get id with
      | none =>
          -- The id would have been drawn twice.
          obtain ⟨_, _, idx, hge, _, hid⟩ := advances.issued id after hmid ha
          obtain ⟨idx', hlt, hid'⟩ := drawn
          have heq : idx = idx' := lawful.uuid7_injective (hid.trans hid'.symm)
          have hids := run.later.ids
          omega
      | some mid =>
          obtain ⟨before, hb, hmoves⟩ := ih hmid
          exact ⟨before, hb, hmoves.trans (advances.moves id mid after hmid ha)⟩
  | wait _ _ same _ ih => exact ih (same ▸ ha)

/-- What was accepted stays so. -/
theorem Invitation.Moves.of_accepted {invitation invitation' : Invitation}
    (h : invitation.Moves invitation') (accepted : invitation.status = .accepted) :
  invitation' = invitation
  := by
  cases h with
  | stay => rfl
  | accept pending => rw [pending] at accepted; cases accepted
  | revoke pending => rw [pending] at accepted; cases accepted

/-- Along a run, from `s₀` to `s`, invitations only move from pending to accepted or to revoked,
and keep all else; they are accepted by someone exactly when they are accepted. The next
transaction adds a member only who creates the workspace, or with an invitation to it; and an
invitation that it consumes is not consumed again. -/
theorem invitation_life_cycle (lawful : env.Lawful) {s₀ : Session}
    (reachable : Reachable env (fun _ => True) s₀) (run : Reaches env (fun _ => True) s₀ s) :
  (∀ invitation ∈ s.db.invitations,
      invitation.acceptedBy.isSome ↔ invitation.status = .accepted)
    ∧ (∀ before ∈ s₀.db.invitations, ∀ after ∈ s.db.invitations, after.id = before.id →
        before.Moves after)
    ∧ ∀ (work : Work) (s' : Session), Returns work.body env s () s' → s'.db.Unique →
        (∀ member ∈ s'.db.members, s.db.members.get member.key = none →
          Enters env work s s' member)
        ∧ ∀ w userId roleId invitation, Consumes env s s' w userId roleId invitation →
            ∀ s₁ s₂ w' userId' roleId' invitation', Reaches env (fun _ => True) s'.done s₁ →
              Consumes env s₁ s₂ w' userId' roleId' invitation' →
                invitation'.id ≠ invitation.id
  := by
  have here := reachable.trans run
  refine ⟨fun invitation hi => (here.invitations invitation hi).2, ?_, ?_⟩
  · intro before hb after ha hid
    obtain ⟨before', hb', hmoves⟩ := run.moves lawful (reachable.invitations before hb).1
      (Table.get_eq_some_iff.mpr ⟨ha, hid⟩)
    rw [Table.mem_def.mp hb] at hb'
    cases hb'
    exact hmoves
  · intro work s' returns unique
    constructor
    · intro member hm new
      exact (Work.effect returns).1.enters lawful (here.lower_email lawful) hm new
    · intro w userId roleId invitation hconsumes s₁ s₂ w' userId' roleId' invitation' later
        hconsumes' hid
      have hnext : Reachable env (fun _ => True) s'.done := .commit here trivial returns unique
      have hdrawn := (hnext.invitations _ hconsumes.accepted).1
      obtain ⟨before, hb, hmoves⟩ := later.moves lawful hdrawn
        (Table.get_eq_some_iff.mpr ⟨hconsumes'.stored, hid⟩)
      have haccepted : before = { invitation with status := .accepted, acceptedBy := some userId } :=
        Option.some.inj (hb.symm.trans (Table.mem_def.mp hconsumes.accepted))
      obtain ⟨_, _, _, husable⟩ := hconsumes'.usable
      have hpending := (husable 0 (Nat.zero_le _)).1
      rw [hmoves.of_accepted (by rw [haccepted]), haccepted] at hpending
      cases hpending

/-- A run in which an invitation is issued, and then accepted. -/
theorem invitation_life_cycle_of_accept :
  ∃ s₀ s, s₀ = Session.after .sample [.register "ada" "ada@acme.test" "Ada" none,
      .create "Acme" "acme" "ada", .issue "i" "Bob@acme.test" "iiii" "ada"]
    ∧ s = [.register "bob" "bob@acme.test" "Bob" (some "t")].foldl (Work.step .sample) s₀
    ∧ (s₀.db.invitations.any (·.status = .pending)) = true
    ∧ (s.db.members.any (·.userId = "bob")) = true
    ∧ (∀ invitation ∈ s.db.invitations,
        invitation.acceptedBy.isSome ↔ invitation.status = .accepted)
    ∧ ∀ before ∈ s₀.db.invitations, ∀ after ∈ s.db.invitations, after.id = before.id →
        before.Moves after
  := by
  refine ⟨_, _, rfl, rfl, ?_, ?_, ?_, ?_⟩
  · decide +kernel
  · decide +kernel
  · exact (invitation_life_cycle Env.sample_lawful (.after (by simp)) (.tried .refl (by simp))).1
  · exact (invitation_life_cycle Env.sample_lawful (.after (by simp)) (.tried .refl (by simp))).2.1

end MvpApi
