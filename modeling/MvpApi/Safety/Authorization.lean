import MvpApi.Application.Storage
import MvpApi.Runs.Scoped

/-!
# Authorized or unchanged

A call that changes a workspace changes rows only when the caller was authorized to in the state
its transaction started from. A call that raises an error has changed no row, unless the bucket
fails otherwise than by refusing when a replaced logo is deleted: the transaction has been
committed by then.
-/

set_option autoImplicit false

namespace MvpApi

open Program Exec

variable {X α : Type}

/-- The account has completed the onboarding and is a member of the workspace, which is live; it
owns the workspace, or its role has the permission and the action is not the owner's. -/
structure Db.Authorizes (db : Db) (userId action workspaceId : String) (workspace : Workspace)
    (user : User) (member : Member) : Prop where
  live : db.live workspaceId = some workspace
  account : db.users.get userId = some user
  completed : user.onboardingStatus = .completed
  belongs : db.member workspaceId userId = some member
  granted : workspace.ownerId = userId
    ∨ (action ∉ ownerActions ∧ ⟨member.roleId, action⟩ ∈ db.rolePermissions)

/-- Somebody is authorized. -/
def Db.Authorized (db : Db) (userId action workspaceId : String) : Prop :=
  ∃ workspace user member, db.Authorizes userId action workspaceId workspace user member

/-- The mutating calls on a workspace, with the account that calls and the action it needs. -/
inductive Call.Needs : Call → String → String → String → Prop
  | update {workspaceId name slug userId : String} :
      Needs (.updateWorkspace workspaceId name slug userId) workspaceId userId "workspace.update"
  | setLogo {workspaceId userId : String} {uploadKey : Option String} :
      Needs (.setLogo workspaceId uploadKey userId) workspaceId userId "workspace.update"
  | delete {workspaceId userId : String} :
      Needs (.deleteWorkspace workspaceId userId) workspaceId userId "workspace.delete"
  | saveRole {workspaceId name userId : String} {roleId : Option String} :
      Needs (.saveRole workspaceId roleId name userId) workspaceId userId "roles.manage"
  | deleteRole {workspaceId roleId userId : String} :
      Needs (.deleteRole workspaceId roleId userId) workspaceId userId "roles.manage"
  | setPermissions {workspaceId roleId userId : String} {permissions : List String} :
      Needs (.setPermissions workspaceId roleId permissions userId) workspaceId userId
        "roles.manage"
  | setMemberRole {workspaceId memberId roleId userId : String} :
      Needs (.setMemberRole workspaceId memberId roleId userId) workspaceId userId "roles.manage"
  | removeMember {workspaceId memberId userId : String} :
      Needs (.removeMember workspaceId memberId userId) workspaceId userId "members.remove"
  | transfer {workspaceId targetId userId : String} :
      Needs (.transfer workspaceId targetId userId) workspaceId userId "workspace.transfer"
  | invite {workspaceId email roleId userId : String} :
      Needs (.invite workspaceId email roleId userId) workspaceId userId "members.invite"
  | revokeInvitation {workspaceId invitationId userId : String} :
      Needs (.revokeInvitation workspaceId invitationId userId) workspaceId userId
        "invitations.revoke"

/-- Inviting with a role other than the default one takes the permission to manage roles too. -/
def Call.MayInvite (db : Db) : Call → Prop
  | .invite workspaceId _ roleId userId => ∀ role, db.roles.get roleId = some role →
      ¬ role.IsDefaultMember → db.Authorized userId "roles.manage" workspaceId
  | _ => True

/-! ### What the access check says -/

/-- Who is permitted an action that is not a read is authorized. -/
theorem Db.Allows.authorized {db : Db} {userId action workspaceId : String}
    (h : db.Allows userId action workspaceId) (own : isOnOwnAccount action = false)
    (onboarding : onboardingNeededFor action = onboarded)
    (reads : endswith action ".read" = false) :
  db.Authorized userId action workspaceId
  := by
  obtain ⟨⟨user, account, status⟩, permitted⟩ := h
  obtain ⟨workspace, member, live, belongs, grants⟩ := (Db.permits_eq_true own).mp permitted
  rw [onboarding] at status
  refine ⟨workspace, user, member, live, account, List.mem_singleton.mp status, belongs, ?_⟩
  by_cases howner : userId = workspace.ownerId
  · exact Or.inl howner.symm
  · by_cases haction : action ∈ ownerActions
    · rw [Workspace.grants, if_neg howner, if_pos haction] at grants
      cases grants
    · rw [Workspace.grants, if_neg howner, if_neg haction, reads] at grants
      exact Or.inr ⟨haction, Db.mem_permissions.mp (of_decide_eq_true grants)⟩

/-- A call is authorized whose caller may perform its action, and may invite. -/
theorem Call.Needs.authorized {call : Call} {workspaceId userId action : String} {db : Db}
    (needs : call.Needs workspaceId userId action) (h : db.Allows userId action workspaceId) :
  db.Authorized userId action workspaceId
  := by
  cases needs
  all_goals exact h.authorized (by decide +kernel) (by decide +kernel) (by decide +kernel)

/-- Who may manage roles as far as the rows go, and is onboarded to invite, is authorized to. -/
theorem Db.Allows.manages {db : Db} {userId workspaceId : String}
    (h : db.Allows userId "members.invite" workspaceId)
    (permitted : db.permits userId "roles.manage" workspaceId = true) :
  db.Authorized userId "roles.manage" workspaceId
  := by
  obtain ⟨user, account, status⟩ := h.1
  have same : onboardingNeededFor "roles.manage" = onboardingNeededFor "members.invite" := by
    decide +kernel
  have both : db.Allows userId "roles.manage" workspaceId :=
    ⟨⟨user, account, same ▸ status⟩, permitted⟩
  exact both.authorized (by decide +kernel) (by decide +kernel) (by decide +kernel)

/-- A transaction of a call has changed rows only if the call was authorized. -/
theorem Effect.authorized {env : Env} {s s' : Session} {call : Call} {work : Work}
    {workspaceId userId action : String} (h : Effect env s s' work) (runs : call.Runs work)
    (needs : call.Needs workspaceId userId action) :
  s.db.Authorized userId action workspaceId ∧ call.MayInvite s.db
  := by
  have authorized : s.db.Allows userId action workspaceId →
      s.db.Authorized userId action workspaceId := needs.authorized
  cases needs with
  | update =>
      cases runs
      cases h with
      | update _ _ allowed => exact ⟨authorized allowed, trivial⟩
  | setLogo =>
      cases runs
      cases h with
      | replaceLogo _ _ allowed => exact ⟨authorized allowed, trivial⟩
  | delete =>
      cases runs
      cases h with
      | delete _ _ _ _ _ allowed => exact ⟨authorized allowed, trivial⟩
  | saveRole =>
      cases runs
      cases h with
      | addRole _ _ _ allowed => exact ⟨authorized allowed, trivial⟩
      | renameRole _ _ _ allowed => exact ⟨authorized allowed, trivial⟩
  | deleteRole =>
      cases runs
      cases h with
      | deleteRole _ _ _ _ allowed => exact ⟨authorized allowed, trivial⟩
  | setPermissions =>
      cases runs
      cases h with
      | setPermissions _ _ _ allowed => exact ⟨authorized allowed, trivial⟩
  | setMemberRole =>
      cases runs
      cases h with
      | setMemberRole _ _ _ _ allowed =>
          exact ⟨authorized allowed, trivial⟩
  | removeMember =>
      cases runs
      cases h with
      | removeMember _ _ _ allowed => exact ⟨authorized allowed, trivial⟩
  | transfer =>
      cases runs
      cases h with
      | transfer _ _ _ _ _ _ _ allowed => exact ⟨authorized allowed, trivial⟩
  | invite =>
      cases runs
      cases h with
      | issue _ role _ _ _ _ _ _ allowed stored _ _ invitable =>
          refine ⟨authorized allowed, fun role' stored' other => ?_⟩
          obtain rfl : role' = role := Option.some.inj (stored'.symm.trans stored)
          exact allowed.manages (invitable.resolve_left other)
  | revokeInvitation =>
      cases runs
      cases h with
      | revoke _ _ _ _ allowed => exact ⟨authorized allowed, trivial⟩

/-! ### The bucket -/

namespace S3MediaStorage

variable {storage : S3MediaStorage}

theorem asks_delete (key : String) :
  (delete key).Asks Request.OfMedia
  := by
  refine (Asks.outcome (.perform trivial)).bind fun z => ?_
  split <;> trivial

theorem asks_pendingSize (uploadKey : String) :
  (storage.pendingSize uploadKey).Asks Request.OfMedia
  := by
  refine Asks.ofExcept.bind fun key => (Asks.outcome (.perform trivial)).bind fun z => ?_
  split
  · trivial
  · split
    · exact (asks_delete key).bind fun _ => trivial
    · trivial

theorem asks_readPending (uploadKey : String) :
  (storage.readPending uploadKey).Asks Request.OfMedia
  := by
  refine (asks_pendingSize uploadKey).bind fun _ => Asks.ofExcept.bind fun key =>
    (Asks.outcome (.perform trivial)).bind fun z => ?_
  split <;> trivial

theorem asks_drop (uploadKey : String) :
  (storage.drop uploadKey).Asks Request.OfMedia
  := Asks.ofExcept.bind fun key => asks_delete key

/-- The bucket is asked for nothing but media. -/
theorem media_proper (storage : S3MediaStorage) :
  storage.media.Proper
  where
  pendingSize := asks_pendingSize
  storeImage uploadKey := by
    refine (asks_readPending uploadKey).bind fun _ => Asks.ofExcept.bind fun _ =>
      (Asks.perform trivial).bind fun _ => (Asks.perform trivial).bind fun _ =>
        (Asks.perform trivial).bind fun _ => (asks_drop uploadKey).bind fun _ => trivial
  storeSquare uploadKey := by
    refine (asks_readPending uploadKey).bind fun _ => Asks.ofExcept.bind fun _ =>
      (Asks.perform trivial).bind fun _ => (Asks.perform trivial).bind fun _ =>
        (asks_drop uploadKey).bind fun _ => trivial
  delete := asks_delete

end S3MediaStorage

/-! ### Calls -/

/-- Once a call has committed, a deletion that the bucket is asked for succeeds or is refused by
the bucket. -/
def Setting.DeletesQuietly (m : Setting BucketRequest X) : Prop :=
  ∀ (w : World X) (key : String) (e : Failure), w.commits ≠ [] →
    m.Allows (.media (.deleteObject key)) w (.error e) → ∃ code, e = .client code

section Calls

variable {m : Setting BucketRequest X} {w w' : World X}

/-- Deleting a file then raises no error. -/
theorem S3MediaStorage.ends_delete (quiet : m.DeletesQuietly) (committed : w.commits ≠ [])
    {key : String} {y : Except Failure Unit} (run : Ends m.machine (delete key) w y w') :
  y = .ok ()
  := by
  unfold delete at run
  rw [ends_bind] at run
  simp only [ends_outcome, ends_perform] at run
  obtain ⟨z, w₁, ⟨z', answer, hz⟩, run⟩ | ⟨_, ⟨_, _, hz⟩, _⟩ := run
  · obtain rfl := Except.ok.inj hz
    cases z with
    | ok u => exact (ends_done.mp run).1
    | error e =>
        obtain ⟨code, rfl⟩ := quiet w key e committed answer.1
        exact (ends_done.mp run).1
  · cases hz

/-- Setting the logo raises an error only if it has not committed, unless a deletion after the
commit fails. -/
theorem WorkspaceService.undone_setLogo {service : WorkspaceService BucketRequest}
    {storage : S3MediaStorage} (media : service.media = storage.media) (quiet : m.DeletesQuietly)
    {workspaceId userId : String} {uploadKey : Option String} {e : Failure}
    (run : Ends m.machine (service.setLogo workspaceId uploadKey userId) w (.error e) w') :
  Reaches m.env m.Others w.session w'.session ∧ w'.commits = w.commits
  := by
  have proper : service.media.Proper := media ▸ storage.media_proper
  obtain ⟨_, w₁, checked, run⟩ | ⟨_, checked, _⟩ := ends_bind.mp run
  · obtain ⟨s₁, meanwhile₁, rfl, _⟩ := Setting.ends_read checked
    have stores := (proper.storeSome uploadKey).mono Request.OfMedia.quiet
    obtain ⟨newKey, w₂, stored, run⟩ | ⟨_, stored, _⟩ := ends_bind.mp run
    · obtain ⟨meanwhile₂, same⟩ := Setting.ends_quiet stores stored
      have meanwhile := meanwhile₁.trans meanwhile₂
      obtain ⟨_, w₃, transacted, run⟩ | ⟨_, transacted, _⟩ := ends_bind.mp run
      · obtain ⟨z, transacted, hz⟩ := ends_outcome.mp transacted
        obtain rfl := Except.ok.inj hz
        cases Setting.ends_transaction transacted with
        | @commit s s' result before returns unique =>
            -- What raises the error is the deletion of the replaced logo.
            obtain ⟨_, _, _, run⟩ | ⟨_, deleted, _⟩ := ends_bind.mp run
            · cases (ends_done.mp run).1
            · unfold MediaStorage.deleteSome at deleted
              rw [media] at deleted
              split at deleted
              · cases S3MediaStorage.ends_delete quiet (List.cons_ne_nil _ _) deleted
              · cases (ends_done.mp deleted).1
        | @fail s e' before =>
            have undoes : (service.media.deleteSome newKey >>= fun _ =>
                (.fail e' : Service BucketRequest WorkspaceView)).Asks Request.OfMedia :=
              (proper.deleteSome newKey).bind fun _ => trivial
            obtain ⟨after, same'⟩ := Setting.ends_quiet (undoes.mono Request.OfMedia.quiet) run
            exact ⟨(meanwhile.trans before).trans after, same'.trans same⟩
      · obtain ⟨_, _, hz⟩ := ends_outcome.mp transacted
        cases hz
    · obtain ⟨meanwhile₂, same⟩ := Setting.ends_quiet stores stored
      exact ⟨meanwhile₁.trans meanwhile₂, same⟩
  · obtain ⟨s₁, meanwhile₁, rfl, _⟩ := Setting.ends_read checked
    exact ⟨meanwhile₁, rfl⟩

/-- The call is on the workspace. -/
theorem Call.Needs.scope {call : Call} {workspaceId userId action : String}
    (needs : call.Needs workspaceId userId action) :
  call.scope = some workspaceId
  := by
  cases needs <;> rfl

/-- A mutating call on a workspace raises an error only if it has not committed, or if a deletion
after the commit fails. -/
theorem Call.Needs.undone {storage : S3MediaStorage} {quotas : ProductQuotas}
    {webBaseUrl : String} {lower : String → String} {rounds : ℕ} {call : Call}
    {workspaceId userId action : String} (needs : call.Needs workspaceId userId action)
    (quiet : m.DeletesQuietly) {e : Failure}
    (run : Ends m.machine (call.program ⟨storage.media, quotas, webBaseUrl, lower, rounds⟩) w
      (.error e) w') :
  Reaches m.env m.Others w.session w'.session ∧ w'.commits = w.commits
  := by
  cases needs with
  | update => exact (Setting.settles_duplicateAs run Call.Runs.update rfl).undone e rfl
  | delete => exact (Setting.settles_transaction run Call.Runs.delete rfl).undone e rfl
  | saveRole => exact (Setting.settles_duplicateAs run Call.Runs.saveRole rfl).undone e rfl
  | deleteRole => exact (Setting.settles_transaction run Call.Runs.deleteRole rfl).undone e rfl
  | setPermissions =>
      exact (Setting.settles_transaction run Call.Runs.setPermissions rfl).undone e rfl
  | setMemberRole =>
      exact (Setting.settles_transaction run Call.Runs.setMemberRole rfl).undone e rfl
  | removeMember => exact (Setting.settles_transaction run Call.Runs.removeMember rfl).undone e rfl
  | transfer => exact (Setting.settles_transaction run Call.Runs.transfer rfl).undone e rfl
  | revokeInvitation =>
      exact (Setting.settles_transaction run Call.Runs.revokeInvitation rfl).undone e rfl
  | invite =>
      exact (WorkspaceService.settles_invite (Setting.ends_discarded_error run)).undone e rfl
  | setLogo => exact WorkspaceService.undone_setLogo rfl quiet (Setting.ends_discarded_error run)

/-- A call that changes rows of a workspace was authorized in the state its transaction started
from. A call that raises an error has committed nothing, provided that once it has committed, no
deletion fails otherwise than by the bucket's refusal. -/
theorem authorized_or_unchanged {storage : S3MediaStorage} {quotas : ProductQuotas}
    {webBaseUrl : String} {lower : String → String} {rounds : ℕ} {call : Call}
    {workspaceId userId action : String} (needs : call.Needs workspaceId userId action)
    {y : Except Failure Unit} (start : w.commits = [])
    (run : Ends m.machine (call.program ⟨storage.media, quotas, webBaseUrl, lower, rounds⟩) w y w') :
  (∀ base final, (base, final) ∈ w'.commits → base ≠ final →
      base.Authorized userId action workspaceId ∧ call.MayInvite base)
    ∧ (m.DeletesQuietly → ∀ e, y = .error e →
      w'.commits = [] ∧ Reaches m.env m.Others w.session w'.session)
  := by
  constructor
  · intro base final hcommit _
    cases Call.once storage.media_proper needs.scope run with
    | never _ same =>
        rw [same, start] at hcommit
        cases hcommit
    | once runs _ returns _ _ commits =>
        rw [commits, start] at hcommit
        obtain ⟨rfl, rfl⟩ := Prod.mk.inj (List.mem_singleton.mp hcommit)
        exact (Work.effect returns).1.authorized runs needs
  · rintro quiet e rfl
    obtain ⟨reaches, same⟩ := needs.undone quiet run
    exact ⟨same.trans start, reaches⟩

end Calls

/-! ### A logo that cannot be deleted -/

/-- A call runs alone, and each deletion that the bucket is asked for ends with `y`. -/
def deleting (y : Except Failure Unit) : Setting BucketRequest Unit :=
  .alone .sample fun request _ z _ => match request, z with
    | .media (.deleteObject _), z => z = y
    | _, _ => False

/-- A storage to try the calls on. -/
def S3MediaStorage.sample : S3MediaStorage where
  baseUrl := "https://media.test"
  maxBytes := 1000
  isalnum _ := true
  renderImage body := .ok (body, body)
  renderSquare body := .ok body

/-- What these try the calls with. -/
def sampleServices : Services BucketRequest :=
  ⟨S3MediaStorage.sample.media, ⟨1, 1⟩, "https://app.test", id, 1⟩

/-- The owner of a workspace removes its logo, and the call ends with what the deletion of the file
ends with. -/
theorem removes_logo {d y : Except Failure Unit}
    (deletes : ∀ w : World Unit, Ends (deleting d).machine
      (S3MediaStorage.delete "media/logo.webp") w y w) :
  ∃ w w' : World Unit, Reachable .sample (fun _ => True) w.session ∧ w.commits = []
    ∧ Ends (deleting d).machine ((Call.setLogo "i" none "ada").program sampleServices) w y w'
    ∧ (w.db.live "i").bind Workspace.logoKey = some "media/logo.webp"
    ∧ (w'.db.live "i").bind Workspace.logoKey = none
  := by
  obtain ⟨s, reachable, checked, returned, unique, before, after⟩ :
      ∃ s, Reachable .sample (fun _ => True) s
        ∧ ((require "ada" "workspace.update" "i").run .sample s).1 = .ok ()
        ∧ ((WorkspaceTx.replaceLogo "i" none none "ada").run .sample s).1.map Prod.snd
            = .ok (some "media/logo.webp")
        ∧ ((WorkspaceTx.replaceLogo "i" none none "ada").run .sample s).2.db.Unique
        ∧ (s.db.live "i").bind Workspace.logoKey = some "media/logo.webp"
        ∧ ((((WorkspaceTx.replaceLogo "i" none none "ada").run .sample s).2.db.live "i").bind
            Workspace.logoKey) = none :=
    ⟨.after .sample [.register "ada" "ada@acme.test" "Ada" none, .create "Acme" "acme" "ada",
        .replaceLogo "i" (some "media/logo.webp") (some "https://media.test/logo") "ada"],
      .after (by simp), by decide +kernel, by decide +kernel, by decide +kernel,
      by decide +kernel, by decide +kernel⟩
  obtain ⟨⟨view, previous⟩, hresult, rfl⟩ := Except.map_eq_ok.mp returned
  let w : World Unit := ⟨s, (), []⟩
  refine ⟨w, w.commit s _, reachable, rfl, ?_, before, after⟩
  have checks := Setting.reads (μ := BucketRequest) (m := deleting d) (w := w) checked trivial .refl
  have commits := Setting.commits (μ := BucketRequest) (m := deleting d) (w := w.wait s) trivial
    .refl (.of_run hresult) unique
  have deleted : ∀ w₁, Ends (deleting d).machine
      (sampleServices.media.deleteSome (some "media/logo.webp")) w₁ y w₁ := by
    intro w₁
    rw [MediaStorage.deleteSome_some (by decide)]
    exact deletes w₁
  refine Setting.ends_discarded.mpr ⟨y.map fun _ => view, ?_, by cases y <;> rfl⟩
  refine ends_bind.mpr (Or.inl ⟨(), w.wait s, checks, ?_⟩)
  refine ends_bind.mpr (Or.inl ⟨none, w.wait s, .done none _, ?_⟩)
  refine ends_bind.mpr (Or.inl ⟨_, w.commit s _, ends_outcome.mpr ⟨_, commits, rfl⟩, ?_⟩)
  cases y with
  | ok u => exact ends_bind.mpr (Or.inl ⟨u, _, deleted _, .done view _⟩)
  | error e => exact ends_bind.mpr (Or.inr ⟨e, deleted _, rfl⟩)

/-- A deletion ends with the error that the bucket fails with, unless the bucket refuses. -/
theorem deletes_of_error {d : Except Failure Unit} {key : String} {y : Except Failure Unit}
    (w : World Unit)
    (reported : y = match d with
      | .ok _ => .ok ()
      | .error (.client _) => .ok ()
      | .error e => .error e) :
  Ends (deleting d).machine (S3MediaStorage.delete key) w y w
  := by
  have answered : Ends (deleting d).machine
      (perform (.media (.deleteObject key)) : Service BucketRequest Unit) w d w :=
    ends_perform.mpr ⟨trivial, .outside .refl not_false rfl⟩
  refine ends_bind.mpr (Or.inl ⟨d, w, ends_outcome.mpr ⟨_, answered, rfl⟩, ?_⟩)
  subst reported
  cases d with
  | ok u => exact .done () w
  | error e =>
      cases e with
      | client code => exact .done () w
      | _ => exact .fail _ w

/-- The call raises an error, and the logo is gone. -/
theorem logo_removed_though_raised :
  ∃ (w w' : World Unit) (e : Failure), Reachable .sample (fun _ => True) w.session
    ∧ w.commits = []
    ∧ Ends (deleting (.error e)).machine ((Call.setLogo "i" none "ada").program sampleServices) w
        (.error e) w'
    ∧ (w.db.live "i").bind Workspace.logoKey = some "media/logo.webp"
    ∧ (w'.db.live "i").bind Workspace.logoKey = none
  := by
  let e : Failure := .other "Could not connect to the endpoint URL"
  obtain ⟨w, w', reachable, start, run, before, after⟩ :=
    removes_logo (d := .error e) (y := .error e) fun w => deletes_of_error w rfl
  exact ⟨w, w', e, reachable, start, run, before, after⟩

/-- The owner removes the logo; the bucket refuses to delete the file, and no error is raised. -/
theorem authorized_or_unchanged_of_setLogo :
  ∃ w w' : World Unit, Ends (deleting (.error (.client "AccessDenied"))).machine
      ((Call.setLogo "i" none "ada").program sampleServices) w (.ok ()) w'
    ∧ (w.db.live "i").bind Workspace.logoKey = some "media/logo.webp"
    ∧ (w'.db.live "i").bind Workspace.logoKey = none
    ∧ ∀ base final, (base, final) ∈ w'.commits → base ≠ final →
        base.Authorized "ada" "workspace.update" "i"
  := by
  obtain ⟨w, w', reachable, start, run, before, after⟩ :=
    removes_logo (d := .error (.client "AccessDenied")) (y := .ok ()) fun w => deletes_of_error w rfl
  refine ⟨w, w', run, before, after, fun base final hcommit hne => ?_⟩
  exact ((authorized_or_unchanged .setLogo start run).1 base final hcommit hne).1

end MvpApi
