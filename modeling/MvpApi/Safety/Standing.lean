import MvpApi.Safety.References
import MvpApi.Safety.Invitations

/-!
# Invitations that can still be accepted

An expired invitation stays stored as pending, so which invitations can be accepted depends on
the time. At no time after the last transaction can two invitations of one address to one
workspace be accepted, or one of an address that already belongs to the workspace. The
workspace of an invitation that can be accepted is live, and its role is there and is not
protected. So whoever the invitation is addressed to can preview it, and accept it, as long as
it has not expired.
-/

set_option autoImplicit false

namespace MvpApi

open Exec Tx

/-- All the readings of the clock so far are in the past. -/
def Session.Past (env : Env) (s : Session) (t : Time) : Prop :=
  ∀ i < s.ticks, env.clock i ≤ t

theorem Session.Past.mono {env : Env} {s s' : Session} {t : Time} (h : s'.Past env t)
    (ticks : s.ticks ≤ s'.ticks) :
  s.Past env t
  := fun i hi => h i (hi.trans_le ticks)

/-- An invitation that is usable at a time was so at any time before. -/
theorem Invitation.Usable.earlier {invitation : Invitation} {t t' : Time}
    (h : invitation.Usable t) (le : t' ≤ t) :
  invitation.Usable t'
  := ⟨h.1, le.trans_lt h.2⟩

/-- At the time `t` an address has at most one usable invitation to each workspace, and none to
a workspace it belongs to. -/
structure Db.Honours (db : Db) (t : Time) : Prop where
  single : ∀ invitation ∈ db.invitations, ∀ invitation' ∈ db.invitations,
    invitation.workspaceId = invitation'.workspaceId → invitation.email = invitation'.email →
      invitation.Usable t → invitation'.Usable t → invitation = invitation'
  outside : ∀ invitation ∈ db.invitations, invitation.Usable t →
    ∀ member ∈ db.members, member.workspaceId = invitation.workspaceId →
      ∀ user, db.users.get member.userId = some user → user.email ≠ invitation.email

/-! ### Issuing an invitation -/

/-- In the step from `s` to `s'` the invitation is issued, at some reading of the clock: its
address has no usable invitation to the workspace then, and does not belong to it. -/
structure Issues (env : Env) (s s' : Session) (invitation : Invitation) : Prop where
  members : s'.db.members = s.db.members
  others : ∀ other ∈ s'.db.invitations, other = invitation ∨ other ∈ s.db.invitations
  stranger : ∀ member ∈ s.db.members, member.workspaceId = invitation.workspaceId →
    ∀ user, s.db.users.get member.userId = some user → user.email ≠ invitation.email
  uninvited : ∃ tick < s'.ticks, ∀ other ∈ s.db.invitations,
    other.workspaceId = invitation.workspaceId → other.email = invitation.email →
      ¬ other.Usable (env.clock tick)

variable {env : Env} {s s' : Session} {work : Work}

/-- An invitation that was not there before a transaction was issued by it. -/
theorem Effect.issues (h : Effect env s s' work) {invitation : Invitation}
    (hi : invitation ∈ s'.db.invitations)
    (new : s.db.invitations.get invitation.id = none) :
  Issues env s s' invitation
  := by
  have old : (∀ other ∈ s'.db.invitations, ∃ before ∈ s.db.invitations, before.id = other.id) →
      Issues env s s' invitation := by
    intro hold
    obtain ⟨before, hbefore, hid⟩ := hold invitation hi
    rw [← hid, Table.mem_def.mp hbefore] at new
    cases new
  have same : s'.db.invitations = s.db.invitations → Issues env s s' invitation :=
    fun hs => old fun other hother => ⟨other, hs ▸ hother, rfl⟩
  have filtered : ∀ {p}, s'.db.invitations = s.db.invitations.filter p →
      Issues env s s' invitation :=
    fun hs => old fun other hother => ⟨other, (Table.mem_filter.mp (hs ▸ hother)).1, rfl⟩
  have joined : ∀ {token userId : String} {s₁ : Session}, Joins env token userId s₁ s' →
      s₁.db.invitations = s.db.invitations → Issues env s s' invitation := by
    intro token userId s₁ joins hs
    obtain ⟨_, before, _, _, _, _, _, _, stored, _, _, _, _, _, _, _, _, _, _, _, db⟩ := joins
    refine old fun other hother => ?_
    rw [db] at hother
    rcases Table.mem_put.mp hother with rfl | ⟨hother, _⟩
    · exact ⟨before, hs ▸ stored, rfl⟩
    · exact ⟨other, hs ▸ hother, rfl⟩
  cases h with
  | create _ _ _ _ _ _ _ _ _ _ _ _ _ _ _ _ _ _ _ _ db _ => exact same (by rw [db])
  | update _ _ _ _ db => exact same (by rw [db])
  | replaceLogo _ _ _ _ db => exact same (by rw [db])
  | @delete workspaceId _ _ _ _ _ _ _ _ _ db =>
      have hmap : s'.db.invitations = s.db.invitations.map (·.revokePending workspaceId)
          (Invitation.revokePending_id workspaceId) := by rw [db]; rfl
      refine old fun other hother => ?_
      rw [hmap] at hother
      obtain ⟨before, hbefore, rfl⟩ := Table.mem_map.mp hother
      exact ⟨before, hbefore, (before.revokePending_id workspaceId).symm⟩
  | addRole _ _ _ _ _ _ _ db => exact same (by rw [db])
  | renameRole _ _ _ _ _ _ _ _ _ db => exact same (by rw [db])
  | deleteRole _ _ _ _ _ _ _ _ _ _ _ db => exact filtered (congrArg Db.invitations db)
  | setPermissions _ _ _ _ _ _ _ _ _ db => exact same (by rw [db])
  | setMemberRole _ _ _ _ _ _ _ _ _ _ _ db => exact same (by rw [db])
  | removeMember _ _ _ _ _ _ _ db => exact same (by rw [db]; rfl)
  | transfer _ _ _ _ _ _ _ _ _ _ _ _ _ _ db _ => exact same (by rw [db])
  | issue _ _ issued _ tick₀ _ _ _ _ _ _ _ _ not_member not_invited _ tick_lt _ _ shape _ _ db =>
      have hissued : invitation = issued := by
        rw [db] at hi
        rcases Table.mem_put.mp hi with h | ⟨h, _⟩
        · exact h
        · rw [Table.mem_def.mp h] at new
          cases new
      subst hissued
      have hw := congrArg Invitation.workspaceId shape
      have hemail := congrArg Invitation.email shape
      refine ⟨by rw [db], fun other hother => ?_, ?_, tick₀, tick_lt.1.trans tick_lt.2, ?_⟩
      · rw [db] at hother
        rcases Table.mem_put.mp hother with h | ⟨h, _⟩
        · exact Or.inl h
        · exact Or.inr h
      · intro member hm hmw user hu
        rw [hemail]
        exact not_member member hm (hmw.trans hw) user hu
      · intro other hother how hoe
        exact not_invited other hother (how.trans hw) (hoe.trans hemail)
  | revoke _ before _ _ _ stored _ _ _ db =>
      refine old fun other hother => ?_
      rw [db] at hother
      rcases Table.mem_put.mp hother with rfl | ⟨hother, _⟩
      · exact ⟨before, (Table.get_eq_some_iff.mp stored).1, rfl⟩
      · exact ⟨other, hother, rfl⟩
  | accept joins => exact joined joins rfl
  | register _ _ db => exact same (by rw [db]; simp)
  | registerAndJoin _ s₁ db _ _ joins => exact joined joins (by rw [db]; simp)
  | ensureAccount _ _ db => exact same (by rw [db]; simp)
  | rename _ _ _ _ db => exact same (by rw [db])
  | replaceAvatar _ _ _ db => exact same (by rw [db])
  | deleteAccount _ _ _ _ _ db => exact filtered (congrArg Db.invitations db)
  | deleteBatch _ db => exact same (by rw [db]; rfl)
  | purgeNothing _ same' => exact same (by rw [same'])
  | purgeRows _ _ _ _ db => exact filtered (congrArg Db.invitations db)
  | createProduct _ _ _ _ db => exact same (by rw [db])
  | updateProduct _ _ _ _ _ _ db => exact same (by rw [db])
  | deleteProduct _ _ _ _ db => exact same (by rw [db])
  | attachImage _ _ _ _ _ _ _ _ db => exact same (by rw [db])
  | removeImage _ _ _ _ _ _ db => exact same (by rw [db])
  | reorderImages _ _ _ _ _ _ db => exact same (by rw [db])

/-! ### One transaction -/

/-- An invitation that is usable after a transaction was there before, or is issued by it. -/
theorem Effect.usable (h : Effect env s s' work) {invitation : Invitation} {t : Time}
    (hi : invitation ∈ s'.db.invitations) (usable : invitation.Usable t) :
  invitation ∈ s.db.invitations
    ∨ (s.db.invitations.get invitation.id = none ∧ Issues env s s' invitation)
  := by
  cases hold : s.db.invitations.get invitation.id with
  | none => exact Or.inr ⟨rfl, h.issues hi hold⟩
  | some before =>
      obtain ⟨hmem, _⟩ := Table.get_eq_some_iff.mp hold
      have hpending := usable.1
      cases h.advances.moves _ before invitation hold (Table.mem_def.mp hi) with
      | stay => exact Or.inl hmem
      | accept => cases hpending
      | revoke => cases hpending

/-- What was usable after an invitation was issued is not an invitation it would repeat. -/
theorem Issues.not_repeated {invitation other : Invitation} {t : Time}
    (h : Issues env s s' invitation) (past : s'.Past env t) (ho : other ∈ s.db.invitations)
    (workspace : other.workspaceId = invitation.workspaceId)
    (email : other.email = invitation.email) :
  ¬ other.Usable t
  := by
  intro usable
  obtain ⟨tick, htick, huninvited⟩ := h.uninvited
  exact huninvited other ho workspace email (usable.earlier (past tick htick))

/-- The account of someone who was a member before a transaction is the one it was. -/
theorem Effect.account_of_member (h : Effect env s s' work) (refs : s.db.References)
    {member : Member} (hm : member ∈ s.db.members) {user : User}
    (hu : s'.db.users.get member.userId = some user) :
  ∃ old, s.db.users.get member.userId = some old ∧ old.email = user.email
  := by
  obtain ⟨hmem, hid⟩ := Table.get_eq_some_iff.mp hu
  rcases h.accounts user hmem with ⟨old, hold, hoid, hemail⟩ | ⟨hnone, _⟩
  · exact ⟨old, Table.get_eq_some_iff.mpr ⟨hold, hoid.trans hid⟩, hemail⟩
  · have hsome := (refs.member member hm).user
    rw [← hid, hnone] at hsome
    cases hsome

/-- Someone who enters a workspace has no other usable invitation to it. -/
theorem Consumes.outside (lawful : env.Lawful) {w userId roleId : String}
    {consumed invitation : Invitation} {t : Time}
    (h : Consumes env s s' w userId roleId consumed)
    (honours : ∀ t, s.Past env t → s.db.Honours t) (past : s'.Past env t)
    (hi : invitation ∈ s'.db.invitations) (usable : invitation.Usable t)
    (workspace : invitation.workspaceId = w) {user : User}
    (hu : s'.db.users.get userId = some user) :
  user.email ≠ invitation.email
  := by
  intro hemail
  have hother : invitation.id ≠ consumed.id := by
    intro hid
    have heq : invitation = { consumed with status := .accepted, acceptedBy := some userId } :=
      Table.eq_of_key hi h.accepted hid
    have hpending := usable.1
    rw [heq] at hpending
    cases hpending
  have hstored : invitation ∈ s.db.invitations := by
    rw [Table.mem_def, ← h.others _ hother]
    exact Table.mem_def.mp hi
  obtain ⟨user', hu', haddressed⟩ := h.addressed
  obtain rfl : user = user' := Option.some.inj (hu.symm.trans hu')
  -- The two invitations were both usable when the clock was read for the one accepted.
  obtain ⟨tick, hge, hlt, husable⟩ := h.usable
  have hbefore : s.Past env (env.clock tick) :=
    fun i hi => lawful.clock_mono (hi.le.trans hge)
  have heq := (honours _ hbefore).single invitation hstored consumed h.stored
    (workspace.trans h.workspace.symm) (hemail.symm.trans haddressed)
    (usable.earlier (past tick hlt)) (husable tick le_rfl)
  exact hother (congrArg Invitation.id heq)

/-- Every transaction keeps the usable invitations honourable. -/
theorem Effect.honours (lawful : env.Lawful) (h : Effect env s s' work)
    (ticks : s.ticks ≤ s'.ticks) (refs : s.db.References)
    (lower : ∀ user ∈ s.db.users, env.lower user.email = user.email)
    (honours : ∀ t, s.Past env t → s.db.Honours t) {t : Time} (past : s'.Past env t) :
  s'.db.Honours t
  where
  single invitation hi invitation' hi' hw hemail usable usable' := by
    rcases h.usable hi usable with hold | ⟨hnew, hissues⟩
    · rcases h.usable hi' usable' with hold' | ⟨_, hissues'⟩
      · exact (honours t (past.mono ticks)).single _ hold _ hold' hw hemail usable usable'
      · exact absurd usable (hissues'.not_repeated past hold hw hemail)
    · rcases hissues.others invitation' hi' with heq | hold'
      · exact heq.symm
      · exact absurd usable' (hissues.not_repeated past hold' hw.symm hemail.symm)
  outside invitation hi usable member hm hw user hu := by
    cases hold : s.db.members.get member.key with
    | some old =>
        obtain ⟨hmem, hkey⟩ := Table.get_eq_some_iff.mp hold
        obtain ⟨hsame, hsame'⟩ := pair_inj.mp hkey
        obtain ⟨account, haccount, hemail⟩ := h.account_of_member refs hmem (hsame' ▸ hu)
        rw [← hemail]
        rcases h.usable hi usable with hi' | ⟨_, hissues⟩
        · exact (honours t (past.mono ticks)).outside _ hi' usable old hmem (hsame.trans hw) account
            haccount
        · exact hissues.stranger old hmem (hsame.trans hw) account haccount
    | none =>
        have hentered := h.enters lawful lower hm hold
        rcases h.usable hi usable with hi' | ⟨_, hissues⟩
        · rcases hentered.how with ⟨_, hfresh, _⟩ | ⟨consumed, hconsumes⟩
          · have hsome := (refs.invitation invitation hi').workspace
            rw [← hw, hfresh] at hsome
            cases hsome
          · exact hconsumes.outside lawful honours past hi usable hw.symm hu
        · rw [hissues.members] at hm
          rw [Table.mem_def.mp hm] at hold
          cases hold

/-- In every reachable session the usable invitations are honourable, at any time from the last
reading of the clock on. -/
theorem Reachable.honours {ok : Work → Prop} (lawful : env.Lawful) (h : Reachable env ok s) :
  ∀ t, s.Past env t → s.db.Honours t
  := by
  induction h with
  | refl =>
      intro t _
      constructor
      · simp [Session.start, Db.empty]
      · simp [Session.start, Db.empty]
  | @commit s s' work u run allowed returns unique ih =>
      intro t past
      obtain ⟨effect, later⟩ := Work.effect returns
      exact effect.honours lawful later.ticks (Reachable.references run)
        (Reachable.lower_email lawful run) ih past
  | wait run later same _ ih =>
      intro t past
      rw [same]
      exact ih t (past.mono later.ticks)

/-! ### Previewing and accepting -/

/-- The workspace of a pending invitation is live, and its role is there and can be assigned. -/
theorem Db.References.honours (refs : s.db.References) {invitation : Invitation}
    (hi : invitation ∈ s.db.invitations) (pending : invitation.status = .pending) :
  ∃ workspace role, s.db.live invitation.workspaceId = some workspace
    ∧ s.db.roles.get invitation.roleId = some role
    ∧ role.workspaceId = invitation.workspaceId ∧ role.isProtected = false
  := by
  have hrefs := refs.invitation invitation hi
  obtain ⟨workspace, hworkspace⟩ := Option.isSome_iff_exists.mp hrefs.workspace
  obtain ⟨hmem, hid⟩ := Table.get_eq_some_iff.mp hworkspace
  obtain ⟨role, hrole, hrid, hrw, hunprotected⟩ := hrefs.role
  refine ⟨workspace, role, Db.live_eq_some.mpr ⟨hmem, hid, ?_⟩,
    Table.get_eq_some_iff.mpr ⟨hrole, hrid⟩, hrw, hunprotected⟩
  by_contra hdeleted
  exact hrefs.closed workspace hmem hid hdeleted pending

/-- An invitation is unusable when there is none with the token, or when it is not usable at
the time it is looked at. -/
theorem raises_usableInvitation_gone {token : String} {e : Failure}
    (h : Raises (usableInvitation token) env s e s') :
  e = .domain (.gone invitationUnusable)
    ∧ ∀ invitation, s.db.invitations.find? (·.tokenHash = env.sha256 token) = some invitation →
      ¬ invitation.Usable (env.clock s.ticks) ∧ s' = s.tick
  := by
  unfold usableInvitation Invitations.byToken usableInvitation.invitation? Invitation.ensureUsable
    at h
  simp only [raises_bind, not_raises_platform, not_raises_select, returns_bind, returns_platform,
    returns_select, raises_check, returns_check, not_raises_now, returns_now, not_raises_pure,
    false_or, and_false, exists_false, or_false] at h
  obtain ⟨found, _, ⟨_, _, ⟨rfl, rfl⟩, hfound, rfl⟩, h⟩ := h
  cases found with
  | none =>
      rcases h with ⟨_, herror, rfl, rfl⟩ | ⟨_, _, ⟨hok, _⟩, _⟩
      · obtain rfl := Except.error.inj herror
        exact ⟨rfl, fun invitation hi => by rw [hfound] at hi; cases hi⟩
      · cases hok
  | some invitation =>
      rcases h with ⟨_, herror, _⟩ | ⟨_, _, ⟨hok, rfl⟩, _, _, ⟨rfl, rfl⟩, _, herror, rfl, rfl⟩
      · cases herror
      · obtain rfl := Except.ok.inj hok
        split at herror
        · next hstatus =>
            obtain rfl := Except.error.inj herror
            refine ⟨rfl, fun invitation' hi => ?_⟩
            obtain rfl : invitation = invitation' := Option.some.inj (hfound.symm.trans hi)
            exact ⟨fun usable => hstatus (Invitation.currentStatus_eq_pending.mpr usable), rfl⟩
        · cases herror

/-- A role of the workspace that is not protected can be configured. -/
theorem not_raises_configurableRole {w roleId : String} {role : Role} {e : Failure}
    (stored : s.db.roles.get roleId = some role) (own : role.workspaceId = w)
    (unprotected : role.isProtected = false) :
  ¬ Raises (configurableRole w roleId) env s e s'
  := (returns_configurableRole.mpr ⟨stored, own, unprotected, rfl⟩).not_raises

/-- A preview fails only for an invitation that cannot be accepted. -/
theorem raises_previewInvitation (refs : s.db.References) {token : String} {e : Failure}
    (h : Raises (WorkspaceTx.previewInvitation token) env s e s') :
  e = .domain (.gone invitationUnusable)
  := by
  unfold WorkspaceTx.previewInvitation Workspaces.get at h
  simp only [raises_bind, returns_usableInvitation, not_raises_select, returns_select,
    raises_check, returns_check, found_eq_error, found_eq_ok, not_raises_pure, and_false,
    exists_false, or_false, false_or] at h
  rcases h with h | ⟨invitation, _, ⟨hfind, usable, rfl⟩, h⟩
  · exact (raises_usableInvitation_gone h).1
  · obtain ⟨hmem, _⟩ := Table.mem_of_find?_eq_some hfind
    obtain ⟨workspace, role, hlive, hrole, hown, hunprotected⟩ := refs.honours hmem usable.1
    have hlive' : s.tick.db.live invitation.workspaceId = some workspace := hlive
    rcases h with ⟨_, _, ⟨rfl, rfl⟩, ⟨_, ⟨hnone, _⟩, _⟩ | ⟨_, _, ⟨_, rfl⟩, hrefused⟩⟩
    · rw [hlive'] at hnone
      cases hnone
    · exact absurd hrefused (not_raises_configurableRole hrole hown hunprotected)

/-- The session has an account, and a pending invitation that is addressed to it. -/
structure Session.Invited (env : Env) (s : Session) (token : String) (user : User)
    (invitation : Invitation) : Prop where
  account : user ∈ s.db.users
  stored : invitation ∈ s.db.invitations
  hash : invitation.tokenHash = env.sha256 token
  addressed : user.email = invitation.email
  pending : invitation.status = .pending

section Accept

variable {token : String} {user : User} {invitation : Invitation}

/-- The invitation of a token is the one found by it. -/
theorem Session.Invited.find (h : s.Invited env token user invitation) (unique : s.db.Unique) :
  s.db.invitations.find? (·.tokenHash = env.sha256 token) = some invitation
  := by
  refine Table.find?_eq_some_of_unique h.stored (decide_eq_true h.hash) fun other ho hhash => ?_
  have hsame : other.tokenHash = invitation.tokenHash := (of_decide_eq_true hhash).trans h.hash.symm
  exact Table.eq_of_key ho h.stored (unique.tokenHash other ho invitation h.stored hsame)

/-- Whoever is invited may accept invitations. -/
theorem Session.Invited.allowed (h : s.Invited env token user invitation) :
  s.db.Allows user.id "invitations.accept" user.id
  := by
  have hown : isOnOwnAccount "invitations.accept" = true := by decide +kernel
  have hneeded : onboardingNeededFor "invitations.accept" = anyStatus := by decide +kernel
  refine ⟨⟨user, Table.mem_def.mp h.account, ?_⟩, ?_⟩
  · rw [hneeded]
    cases user.onboardingStatus with
    | profilePending => decide
    | workspacePending => decide
    | completed => decide
  · rw [Db.permits, if_pos hown, decide_eq_true_eq]

/-- Whoever is invited does not belong to the workspace yet. -/
theorem Session.Invited.outside (h : s.Invited env token user invitation) {t : Time}
    (honours : s.db.Honours t) (usable : invitation.Usable t) :
  s.db.member invitation.workspaceId user.id = none
  := by
  by_contra hmember
  obtain ⟨member, hm⟩ := Option.ne_none_iff_exists'.mp hmember
  obtain ⟨hmem, hkey⟩ := Table.get_eq_some_iff.mp hm
  obtain ⟨hw, huser⟩ := pair_inj.mp hkey
  exact honours.outside invitation h.stored usable member hmem hw user
    (huser ▸ Table.mem_def.mp h.account) h.addressed

/-- Accepting an invitation succeeds if it has not expired at any reading of the clock. -/
theorem Session.Invited.accept (lawful : env.Lawful) (h : s.Invited env token user invitation)
    (refs : s.db.References) (unique : s.db.Unique)
    (lower : ∀ user ∈ s.db.users, env.lower user.email = user.email)
    (honours : ∀ t, s.Past env t → s.db.Honours t) {result : Except Failure WorkspaceView}
    (run : (WorkspaceTx.accept token user.id).run env s = (result, s'))
    (unexpired : ∀ i, s.ticks ≤ i → i < s'.ticks → env.clock i < invitation.expiresAt) :
  ∃ view, result = .ok view ∧ s'.db.Unique
  := by
  cases result with
  | ok view => exact ⟨view, rfl, (joinWithInvitation_effect run).1.unique unique⟩
  | error e =>
      exfalso
      have hraises : Raises (joinWithInvitation token user.id) env s e s' := run
      have hfind := h.find unique
      have haddressed : env.lower user.email = invitation.email :=
        (lower user h.account).trans h.addressed
      obtain ⟨workspace, role, hlive, hrole, hown, hunprotected⟩ := refs.honours h.stored h.pending
      have hid : workspace.id = invitation.workspaceId := (Db.live_eq_some.mp hlive).2.1
      have outside : env.clock s.ticks < invitation.expiresAt →
          s.db.member invitation.workspaceId user.id = none := fun hexpires =>
        h.outside (honours _ fun i hi => lawful.clock_mono hi.le) ⟨h.pending, hexpires⟩
      unfold joinWithInvitation Users.get Workspaces.lock Workspaces.get Members.get
        Invitations.save Users.save at hraises
      simp only [raises_bind, returns_bind, returns_require, returns_usableInvitation,
        returns_platform, not_raises_platform, returns_select, not_raises_select, returns_check,
        raises_check, existing_eq_ok, existing_eq_error, Invitation.ensureAddressedTo_eq_ok,
        returns_touch, not_raises_touch, returns_pure, not_raises_pure, found_eq_ok,
        found_eq_error, returns_configurableRole, returns_refuseUnless, raises_refuseUnless,
        returns_now, not_raises_now, Invitation.accept_eq_ok, returns_write, not_raises_write,
        Members.returns_add, returns_flush, raises_flush, false_or, or_false, and_false,
        exists_false] at hraises
      obtain hraises | ⟨_, _, ⟨_, rfl⟩, hraises⟩ := hraises
      · exact (returns_require (u := ()) |>.mpr ⟨h.allowed, rfl⟩).not_raises hraises
      obtain hraises | ⟨found, _, ⟨hfound, usable, rfl⟩, hraises⟩ := hraises
      · obtain ⟨_, hgone⟩ := raises_usableInvitation_gone hraises
        obtain ⟨hexpired, rfl⟩ := hgone invitation hfind
        exact hexpired ⟨h.pending, unexpired s.ticks le_rfl (Nat.lt_succ_self _)⟩
      obtain rfl : invitation = found := Option.some.inj (hfind.symm.trans hfound)
      have hfirst : env.clock s.ticks < invitation.expiresAt := usable.2
      have huser : s.tick.db.users.get user.id = some user := Table.mem_def.mp h.account
      have hlive' : s.tick.db.live invitation.workspaceId = some workspace := hlive
      have hrole' : s.tick.db.roles.get invitation.roleId = some role := hrole
      have hnobody : s.tick.db.member workspace.id user.id = none := by
        rw [hid]
        exact outside hfirst
      obtain ⟨_, _, ⟨rfl, rfl⟩, _, _, ⟨rfl, rfl⟩, ⟨_, ⟨hnone, _⟩, _⟩ | ⟨account, _, ⟨haccount, rfl⟩,
        hraises⟩⟩ := hraises
      · rw [huser] at hnone
        cases hnone
      obtain rfl : user = account := Option.some.inj (huser.symm.trans haccount)
      have haddressed' := (Invitation.ensureAddressedTo_eq_ok (u := ())).mpr haddressed
      obtain ⟨_, hrefused, _⟩ | ⟨_, _, ⟨_, rfl⟩, _, _, ⟨_, _, ⟨rfl, rfl⟩, _, _, rfl, rfl, rfl⟩,
        hraises⟩ := hraises
      · rw [haddressed'] at hrefused
        cases hrefused
      obtain ⟨_, ⟨hnone, _⟩, _⟩ | ⟨workspace', _, ⟨hfound', rfl⟩, hraises⟩ := hraises
      · rw [hlive'] at hnone
        cases hnone
      obtain rfl : workspace = workspace' := Option.some.inj (hlive'.symm.trans hfound')
      obtain hrefused | ⟨_, _, ⟨_, _, _, rfl⟩, _, _, ⟨rfl, rfl⟩, hraises⟩ := hraises
      · refine absurd hrefused (not_raises_configurableRole ?_ (hown.trans hid.symm) hunprotected)
        exact hrole'
      obtain ⟨hsome, _⟩ | ⟨_, _, ⟨_, rfl⟩, _, _, ⟨rfl, rfl⟩, hraises⟩ := hraises
      · exact hsome hnobody
      obtain ⟨_, hrefused, _, rfl⟩ | ⟨accepted, _, ⟨⟨_, _, haccepted⟩, rfl⟩, _, _, rfl, hraises⟩ :=
        hraises
      · have hsecond := unexpired (s.ticks + 1) (Nat.le_succ _) (Nat.lt_succ_self _)
        have haccepted := @Invitation.accept_eq_ok invitation _ env.lower user.id user.email _ |>.mpr
          ⟨⟨h.pending, hsecond⟩, haddressed, rfl⟩
        exact absurd (haccepted.symm.trans hrefused) (by simp)
      -- From here on what could fail is the database, or the view of someone who has just joined.
      obtain ⟨joinedAt, _, ⟨_, rfl⟩, hrefused | ⟨_, _, ⟨_, rfl⟩, _, _, rfl, hraises⟩⟩ := hraises
      · exact absurd hrefused (not_raises_addMember (by exact hnobody))
      obtain ⟨hduplicate, _⟩ | ⟨_, _, ⟨_, rfl⟩, hrefused⟩ := hraises
      · apply hduplicate
        refine unique.rewrite (fun other hother => ?_) fun other hother => ?_
        · rcases Table.mem_put.mp hother with rfl | ⟨hother, _⟩
          · exact ⟨user, h.account, rfl, rfl⟩
          · exact ⟨other, hother, rfl, rfl⟩
        · rcases Table.mem_put.mp hother with rfl | ⟨hother, _⟩
          · exact ⟨invitation, h.stored, by rw [haccepted], by rw [haccepted]⟩
          · exact ⟨other, hother, rfl, rfl⟩
      · obtain ⟨hnone, _⟩ := raises_workspaceView hrefused
        have hadded := Table.get_put_self s.db.members
          (Member.join workspace.id user.id invitation.roleId joinedAt)
        exact absurd (hadded.symm.trans hnone) (by simp)

end Accept

/-- In every reachable session, from the last reading of the clock on: an address has at most one
usable invitation to each workspace, and none to a workspace it belongs to; and the workspace of
a usable invitation is live, and its role is there and is not protected. So a preview fails only
for an invitation that is not usable, and whoever a pending invitation is addressed to can
accept it, if it has not expired at any reading of the clock. -/
theorem invitations_honourable (lawful : env.Lawful) (h : Reachable env (fun _ => True) s) :
  (∀ t, s.Past env t →
    (∀ invitation ∈ s.db.invitations, ∀ invitation' ∈ s.db.invitations,
      invitation.workspaceId = invitation'.workspaceId → invitation.email = invitation'.email →
        invitation.Usable t → invitation'.Usable t → invitation = invitation')
    ∧ (∀ invitation ∈ s.db.invitations, invitation.Usable t →
      ∀ member ∈ s.db.members, member.workspaceId = invitation.workspaceId →
        ∀ user, s.db.users.get member.userId = some user → user.email ≠ invitation.email)
    ∧ ∀ invitation ∈ s.db.invitations, invitation.Usable t →
      ∃ workspace role, s.db.live invitation.workspaceId = some workspace
        ∧ s.db.roles.get invitation.roleId = some role
        ∧ role.workspaceId = invitation.workspaceId ∧ role.isProtected = false)
  ∧ (∀ token e s', Raises (WorkspaceTx.previewInvitation token) env s e s' →
      e = .domain (.gone invitationUnusable))
  ∧ ∀ token user invitation, s.Invited env token user invitation →
      ∀ result s', (WorkspaceTx.accept token user.id).run env s = (result, s') →
        (∀ i, s.ticks ≤ i → i < s'.ticks → env.clock i < invitation.expiresAt) →
          ∃ view, result = .ok view ∧ s'.db.Unique
  := by
  have refs : s.db.References := h.references
  have honours := h.honours lawful
  refine ⟨fun t past => ⟨(honours t past).single, (honours t past).outside, ?_⟩, ?_, ?_⟩
  · intro invitation hi usable
    exact refs.honours hi usable.1
  · intro token e s' raises
    exact raises_previewInvitation refs raises
  · intro token user invitation invited result s' run unexpired
    exact invited.accept lawful refs h.unique (h.lower_email lawful) honours run unexpired

/-- An address is invited, and accepts once it has an account. -/
theorem invitations_honourable_of_accept :
  ∃ s s' user invitation result, s = Session.after .sample
      [.register "ada" "ada@acme.test" "Ada" none, .create "Acme" "acme" "ada",
        .issue "i" "Bob@acme.test" "iiii" "ada", .register "bob" "bob@acme.test" "Bob" none]
    ∧ s.Invited .sample "t" user invitation
    ∧ (WorkspaceTx.accept "t" user.id).run .sample s = (result, s')
    ∧ ∃ view, result = .ok view ∧ s'.db.Unique
  := by
  obtain ⟨s, hs, haccount, hstored, hticks⟩ : ∃ s, s = Session.after .sample
      [.register "ada" "ada@acme.test" "Ada" none, .create "Acme" "acme" "ada",
        .issue "i" "Bob@acme.test" "iiii" "ada", .register "bob" "bob@acme.test" "Bob" none]
      ∧ s.db.users.get "bob"
        = some ⟨"bob", "bob@acme.test", "Bob", none, none, .workspacePending, 5⟩
      ∧ s.db.invitations.get "iiiiii" = some ⟨"iiiiii", "i", "bob@acme.test", "iiii", "t",
          .pending, "ada", none, 604800000004, 4⟩
      ∧ ((WorkspaceTx.accept "t" "bob").run .sample s).2.ticks = 9 :=
    ⟨_, rfl, by decide +kernel, by decide +kernel, by decide +kernel⟩
  have invited : s.Invited .sample "t"
      ⟨"bob", "bob@acme.test", "Bob", none, none, .workspacePending, 5⟩
      ⟨"iiiiii", "i", "bob@acme.test", "iiii", "t", .pending, "ada", none, 604800000004, 4⟩ :=
    ⟨haccount, hstored, rfl, rfl, rfl⟩
  have reachable : Reachable .sample (fun _ => True) s := by
    rw [hs]
    exact .after (by simp)
  obtain ⟨⟨result, s'⟩, hrun⟩ : ∃ x, (WorkspaceTx.accept "t" "bob").run .sample s = x := ⟨_, rfl⟩
  rw [hrun] at hticks
  refine ⟨s, s', _, _, result, hs, invited, hrun, ?_⟩
  refine (invitations_honourable Env.sample_lawful reachable).2.2 "t" _ _ invited result s' hrun ?_
  intro i _ hi
  rw [hticks] at hi
  show (i : ℤ) < 604800000004
  omega

end MvpApi
