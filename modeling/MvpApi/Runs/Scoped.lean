import MvpApi.Runs.Calls

/-!
# Calls on one workspace

A call on one workspace runs at most one transaction, and that is one on the workspace. `Once`
says so of the worlds before and after; most calls settle besides: they raise an error only if
they have not committed.
-/

set_option autoImplicit false

namespace MvpApi

open Program Exec

variable {μ : Type → Type} {X α β : Type}

/-- The transactions that a call on one workspace runs. -/
inductive Call.Runs : Call → Work → Prop
  | update {workspaceId name slug userId : String} :
      Runs (.updateWorkspace workspaceId name slug userId) (.update workspaceId name slug userId)
  | setLogo {workspaceId userId : String} {uploadKey key url : Option String} :
      Runs (.setLogo workspaceId uploadKey userId) (.replaceLogo workspaceId key url userId)
  | delete {workspaceId userId : String} :
      Runs (.deleteWorkspace workspaceId userId) (.delete workspaceId userId)
  | saveRole {workspaceId name userId : String} {roleId : Option String} :
      Runs (.saveRole workspaceId roleId name userId) (.saveRole workspaceId roleId name userId)
  | deleteRole {workspaceId roleId userId : String} :
      Runs (.deleteRole workspaceId roleId userId) (.deleteRole workspaceId roleId userId)
  | setPermissions {workspaceId roleId userId : String} {permissions : List String} :
      Runs (.setPermissions workspaceId roleId permissions userId)
        (.setPermissions workspaceId roleId permissions userId)
  | setMemberRole {workspaceId memberId roleId userId : String} :
      Runs (.setMemberRole workspaceId memberId roleId userId)
        (.setMemberRole workspaceId memberId roleId userId)
  | removeMember {workspaceId memberId userId : String} :
      Runs (.removeMember workspaceId memberId userId) (.removeMember workspaceId memberId userId)
  | transfer {workspaceId targetId userId : String} :
      Runs (.transfer workspaceId targetId userId) (.transfer workspaceId targetId userId)
  | invite {workspaceId email roleId userId : String} :
      Runs (.invite workspaceId email roleId userId) (.issue workspaceId email roleId userId)
  | revokeInvitation {workspaceId invitationId userId : String} :
      Runs (.revokeInvitation workspaceId invitationId userId)
        (.revoke workspaceId invitationId userId)
  | createProduct {quotas : ProductQuotas} {workspaceId name : String} {sku : Option String}
      {price : Price} {status : ProductStatus} {description : Option String} :
      Runs (.createProduct workspaceId name sku price status description)
        (.createProduct quotas workspaceId name sku price status description)
  | updateProduct {workspaceId productId : String} {changes : ProductChanges}
      {ifMatch : Option Time} :
      Runs (.updateProduct workspaceId productId changes ifMatch)
        (.updateProduct workspaceId productId changes ifMatch)
  | deleteProduct {workspaceId productId : String} :
      Runs (.deleteProduct workspaceId productId) (.deleteProduct workspaceId productId)
  | confirmImage {quotas : ProductQuotas} {workspaceId productId uploadKey : String}
      {stored : StoredImage} :
      Runs (.confirmImage workspaceId productId uploadKey)
        (.attachImage quotas workspaceId productId stored uploadKey)
  | removeImage {workspaceId productId imageId : String} :
      Runs (.removeImage workspaceId productId imageId) (.removeImage workspaceId productId imageId)
  | reorderImages {workspaceId productId : String} {imageIds : List String} :
      Runs (.reorderImages workspaceId productId imageIds)
        (.reorderImages workspaceId productId imageIds)

namespace Setting

variable {m : Setting μ X} {w w₁ w' : World X} {ok : Work → Prop}

/-- Between two worlds a call has committed at most one transaction, which is one of `ok`. -/
inductive Once (m : Setting μ X) (ok : Work → Prop) (w w' : World X) : Prop
  | never (reaches : Reaches m.env m.Others w.session w'.session)
      (same : w'.commits = w.commits) : Once m ok w w'
  | once {s s' : Session} {work : Work} (works : ok work)
      (before : Reaches m.env m.Others w.session s) (returns : Returns work.body m.env s () s')
      (unique : s'.db.Unique) (after : Reaches m.env m.Others s'.done w'.session)
      (commits : w'.commits = (s.db, s'.db) :: w.commits) : Once m ok w w'

theorem Once.after (h : m.Once ok w w₁) (reaches : Reaches m.env m.Others w₁.session w'.session)
    (same : w'.commits = w₁.commits) :
  m.Once ok w w'
  := by
  cases h with
  | never before commits => exact .never (before.trans reaches) (same.trans commits)
  | once works before returns unique after commits =>
      exact .once works before returns unique (after.trans reaches) (same.trans commits)

theorem Once.before (h : m.Once ok w₁ w') (reaches : Reaches m.env m.Others w.session w₁.session)
    (same : w₁.commits = w.commits) :
  m.Once ok w w'
  := by
  cases h with
  | never after commits => exact .never (reaches.trans after) (commits.trans same)
  | once works before returns unique after commits =>
      rw [same] at commits
      exact .once works (reaches.trans before) returns unique after commits

/-- What attempts no transaction goes on without a commit. -/
theorem Once.quiet {x : Service μ α} {y : Except Failure α} (h : m.Once ok w w₁)
    (quiet : x.Asks fun request => ¬ request.Attempts) (run : Ends m.machine x w₁ y w') :
  m.Once ok w w'
  := by
  obtain ⟨reaches, same⟩ := ends_quiet quiet run
  exact h.after reaches same

/-- A program of which only the first part may commit. -/
theorem once_bind_quiet {x : Service μ α} {f : α → Service μ β} {y : Except Failure β}
    (run : Ends m.machine (x >>= f) w y w')
    (first : ∀ {z w₁}, Ends m.machine x w z w₁ → m.Once ok w w₁)
    (quiet : ∀ a, (f a).Asks fun request => ¬ request.Attempts) :
  m.Once ok w w'
  := by
  obtain ⟨a, w₁, hx, hf⟩ | ⟨e, hx, rfl⟩ := ends_bind.mp run
  · exact (first hx).quiet (quiet a) hf
  · exact first hx

/-- A program of which only the second part may commit. -/
theorem once_quiet_bind {x : Service μ α} {f : α → Service μ β} {y : Except Failure β}
    (run : Ends m.machine (x >>= f) w y w') (quiet : x.Asks fun request => ¬ request.Attempts)
    (second : ∀ {a w₁}, Ends m.machine (f a) w₁ y w' → m.Once ok w₁ w') :
  m.Once ok w w'
  := by
  obtain ⟨a, w₁, hx, hf⟩ | ⟨e, hx, rfl⟩ := ends_bind.mp run
  · obtain ⟨reaches, same⟩ := ends_quiet quiet hx
    exact (second hf).before reaches same
  · obtain ⟨reaches, same⟩ := ends_quiet quiet hx
    exact .never reaches same

/-- What a call does that raises an error only if it has not committed. -/
structure Settles (m : Setting μ X) (ok : Work → Prop) (w : World X) (y : Except Failure α)
    (w' : World X) : Prop where
  once : m.Once ok w w'
  undone : ∀ e, y = .error e →
    Reaches m.env m.Others w.session w'.session ∧ w'.commits = w.commits

/-- A transaction of a body that returns a value. -/
theorem Transacts.once {body : Tx α} {z : Except Failure α} {work : Work}
    (h : m.Transacts body w z w') (works : ok work) (does : work.body = body.run') :
  m.Once ok w w'
  := by
  cases h with
  | commit before returns unique =>
      exact .once works before (does ▸ Tx.returns_run'.mpr ⟨_, returns⟩) unique .refl rfl
  | fail reaches => exact .never reaches rfl

/-- A transaction settles, and a call that does nothing else does. -/
theorem Transacts.settles {body : Tx α} {z : Except Failure α} {y : Except Failure β} {work : Work}
    (h : m.Transacts body w z w') (works : ok work)
    (does : ∀ {s s' a}, Returns body m.env s a s' → Returns work.body m.env s () s')
    (raised : ∀ e, y = .error e → ∃ e', z = .error e') :
  m.Settles ok w y w'
  := by
  cases h with
  | commit before returns unique =>
      refine ⟨.once works before (does returns) unique .refl rfl, fun e he => ?_⟩
      obtain ⟨_, hz⟩ := raised e he
      cases hz
  | fail reaches => exact ⟨.never reaches rfl, fun _ _ => ⟨reaches, rfl⟩⟩

/-- A call that runs a transaction. -/
theorem settles_transaction {body : Tx Unit} {y : Except Failure Unit} {work : Work}
    (run : Ends m.machine (transaction body : Service μ Unit) w y w') (works : ok work)
    (does : work.body = body) :
  m.Settles ok w y w'
  := (ends_transaction run).settles works (fun h => does ▸ h) fun e he => ⟨e, he⟩

/-- A call that runs a transaction and reports unique violations as conflicts. -/
theorem settles_duplicateAs {body : Tx α} {message : String} {y : Except Failure Unit} {work : Work}
    (run : Ends m.machine (Call.program.discarded (duplicateAs message (transaction body)) :
      Service μ Unit) w y w')
    (works : ok work) (does : work.body = body.run') :
  m.Settles ok w y w'
  := by
  obtain ⟨z, run', rfl⟩ := ends_discarded.mp run
  obtain ⟨z', run'', same⟩ := ends_duplicateAs run'
  refine (ends_transaction run'').settles works (fun h => does ▸ Tx.returns_run'.mpr ⟨_, h⟩) ?_
  intro e he
  cases z' with
  | ok a =>
      rw [(same a).mpr rfl] at he
      cases he
  | error e' => exact ⟨e', rfl⟩

end Setting

/-! ### The calls -/

section Calls

variable {m : Setting μ X} {w w' : World X} {y : Except Failure Unit} {services : Services μ}

/-- Announcing a change attempts no transaction. -/
theorem ProductService.quiet_notify (action productId workspaceId : String) :
  (notify action productId workspaceId : Service μ Unit).Asks fun request => ¬ request.Attempts
  := by
  refine Asks.bind ?_ fun recipients => Asks.bind ?_ fun now => ?_
  · exact .perform not_false
  · exact .perform not_false
  · exact .perform not_false

/-- Attaching an image runs one transaction. -/
theorem ProductService.once_attach {service : ProductService μ} (proper : service.media.Proper)
    {workspaceId productId uploadKey : String} {stored : StoredImage}
    {z : Except Failure ProductImage}
    (run : Ends m.machine (service.attach workspaceId productId stored uploadKey) w z w') :
  m.Once (Call.confirmImage workspaceId productId uploadKey).Runs w w'
  := by
  have discards : (service.discard stored).Asks fun request => ¬ request.Attempts :=
    ((proper.delete _).bind fun _ => proper.delete _).mono Request.OfMedia.quiet
  refine Setting.once_bind_quiet run (fun first => ?_) fun outcome => ?_
  · obtain ⟨_, transacted, rfl⟩ := ends_outcome.mp first
    exact (Setting.ends_transaction transacted).once .confirmImage rfl
  · split
    · exact (quiet_notify _ _ _).bind fun _ => trivial
    · refine discards.bind fun _ => Asks.bind ?_ fun winner => ?_
      · exact .perform not_false
      · split <;> trivial
    · exact discards.bind fun _ => trivial

/-- Confirming an upload runs one transaction, after all else was read and stored. -/
theorem ProductService.once_confirmImage {service : ProductService μ}
    (proper : service.media.Proper) {workspaceId productId uploadKey : String}
    {z : Except Failure ProductImage}
    (run : Ends m.machine (service.confirmImage workspaceId productId uploadKey) w z w') :
  m.Once (Call.confirmImage workspaceId productId uploadKey).Runs w w'
  := by
  refine Setting.once_quiet_bind run (.perform not_false) fun run => ?_
  refine Setting.once_quiet_bind run .ofExcept fun run => ?_
  refine Setting.once_quiet_bind run (.perform not_false) fun {existing _} run => ?_
  cases existing with
  | some existing =>
      obtain ⟨rfl, rfl⟩ := ends_done.mp run
      exact .never .refl rfl
  | none =>
      refine Setting.once_quiet_bind run ((proper.pendingSize _).mono Request.OfMedia.quiet)
        fun run => ?_
      refine Setting.once_quiet_bind run (.perform not_false) fun run => ?_
      refine Setting.once_quiet_bind run .ofExcept fun run => ?_
      refine Setting.once_quiet_bind run (.perform not_false) fun run => ?_
      refine Setting.once_quiet_bind run .ofExcept fun run => ?_
      refine Setting.once_quiet_bind run ((proper.storeImage _).mono Request.OfMedia.quiet)
        fun run => ?_
      exact once_attach proper run

/-- Setting the logo runs one transaction. -/
theorem WorkspaceService.once_setLogo {service : WorkspaceService μ} (proper : service.media.Proper)
    {workspaceId userId : String} {uploadKey : Option String} {z : Except Failure WorkspaceView}
    (run : Ends m.machine (service.setLogo workspaceId uploadKey userId) w z w') :
  m.Once (Call.setLogo workspaceId uploadKey userId).Runs w w'
  := by
  refine Setting.once_quiet_bind run (.perform not_false) fun run => ?_
  refine Setting.once_quiet_bind run ((proper.storeSome uploadKey).mono Request.OfMedia.quiet)
    fun run => ?_
  refine Setting.once_bind_quiet run (fun first => ?_) fun outcome => ?_
  · obtain ⟨_, transacted, rfl⟩ := ends_outcome.mp first
    exact (Setting.ends_transaction transacted).once .setLogo rfl
  · split
    · exact ((proper.deleteSome _).mono Request.OfMedia.quiet).bind fun _ => trivial
    · exact ((proper.deleteSome _).mono Request.OfMedia.quiet).bind fun _ => trivial

/-- An invitation settles: the mail comes after the commit, and no error of it is raised. -/
theorem WorkspaceService.settles_invite {service : WorkspaceService μ}
    {workspaceId email roleId userId : String} {z : Except Failure CreatedInvitation}
    (run : Ends m.machine (service.invite workspaceId email roleId userId) w z w') :
  m.Settles (Call.invite workspaceId email roleId userId).Runs w z w'
  := by
  obtain ⟨⟨workspace, invitation, token⟩, w₁, transacted, run⟩ | ⟨e, transacted, rfl⟩ :=
    ends_bind.mp run
  · have once : m.Once (Call.invite workspaceId email roleId userId).Runs w w₁ :=
      (Setting.ends_transaction transacted).once .invite rfl
    obtain ⟨_, w₂, mailed, run⟩ | ⟨_, mailed, _⟩ := ends_bind.mp run
    · obtain ⟨rfl, rfl⟩ := ends_done.mp run
      refine ⟨once.quiet (Asks.outcome ?_) mailed, fun e he => by cases he⟩
      exact .perform not_false
    · obtain ⟨_, _, hz⟩ := ends_outcome.mp mailed
      cases hz
  · exact (Setting.ends_transaction transacted).settles .invite
      (fun h => Tx.returns_run'.mpr ⟨_, h⟩) fun e he => ⟨_, rfl⟩

/-- The workspace that a call is on, where it is on one. -/
def Call.scope : Call → Option String
  | updateWorkspace workspaceId _ _ _ => some workspaceId
  | setLogo workspaceId _ _ => some workspaceId
  | deleteWorkspace workspaceId _ => some workspaceId
  | saveRole workspaceId _ _ _ => some workspaceId
  | deleteRole workspaceId _ _ => some workspaceId
  | setPermissions workspaceId _ _ _ => some workspaceId
  | setMemberRole workspaceId _ _ _ => some workspaceId
  | removeMember workspaceId _ _ => some workspaceId
  | transfer workspaceId _ _ => some workspaceId
  | invite workspaceId _ _ _ => some workspaceId
  | revokeInvitation workspaceId _ _ => some workspaceId
  | createProduct workspaceId _ _ _ _ _ => some workspaceId
  | updateProduct workspaceId _ _ _ => some workspaceId
  | deleteProduct workspaceId _ => some workspaceId
  | confirmImage workspaceId _ _ => some workspaceId
  | removeImage workspaceId _ _ => some workspaceId
  | reorderImages workspaceId _ _ => some workspaceId
  | _ => none

/-- A call on one workspace commits at most one transaction. -/
theorem Call.once (proper : services.media.Proper) {call : Call} {workspaceId : String}
    (on : call.scope = some workspaceId)
    (run : Ends m.machine (call.program services) w y w') :
  m.Once call.Runs w w'
  := by
  cases call with
  | updateWorkspace => exact (Setting.settles_duplicateAs run .update rfl).once
  | deleteWorkspace => exact (Setting.settles_transaction run .delete rfl).once
  | saveRole => exact (Setting.settles_duplicateAs run .saveRole rfl).once
  | deleteRole => exact (Setting.settles_transaction run .deleteRole rfl).once
  | setPermissions => exact (Setting.settles_transaction run .setPermissions rfl).once
  | setMemberRole => exact (Setting.settles_transaction run .setMemberRole rfl).once
  | removeMember => exact (Setting.settles_transaction run .removeMember rfl).once
  | transfer => exact (Setting.settles_transaction run .transfer rfl).once
  | revokeInvitation => exact (Setting.settles_transaction run .revokeInvitation rfl).once
  | setLogo =>
      obtain ⟨z, run, _⟩ := Setting.ends_discarded.mp run
      exact WorkspaceService.once_setLogo proper run
  | invite =>
      obtain ⟨z, run, _⟩ := Setting.ends_discarded.mp run
      exact (WorkspaceService.settles_invite run).once
  | createProduct =>
      obtain ⟨z, run, _⟩ := Setting.ends_discarded.mp run
      refine Setting.once_bind_quiet run (fun first => ?_) fun product => ?_
      · exact (Setting.ends_transaction first).once .createProduct rfl
      · exact (ProductService.quiet_notify _ _ _).bind fun _ => trivial
  | updateProduct =>
      obtain ⟨z, run, _⟩ := Setting.ends_discarded.mp run
      refine Setting.once_bind_quiet run (fun first => ?_) fun product => ?_
      · exact (Setting.ends_transaction first).once .updateProduct rfl
      · exact (ProductService.quiet_notify _ _ _).bind fun _ => trivial
  | deleteProduct =>
      refine Setting.once_bind_quiet run (fun first => ?_) fun product => ?_
      · exact (Setting.ends_transaction first).once .deleteProduct rfl
      · exact (ProductService.quiet_notify _ _ _).bind fun _ =>
          (proper.deleteAll _).mono Request.OfMedia.quiet
  | confirmImage =>
      obtain ⟨z, run, _⟩ := Setting.ends_discarded.mp run
      exact ProductService.once_confirmImage proper run
  | removeImage =>
      refine Setting.once_bind_quiet run (fun first => ?_) fun image => ?_
      · exact (Setting.ends_transaction first).once .removeImage rfl
      · exact (ProductService.quiet_notify _ _ _).bind fun _ =>
          (proper.deleteAll _).mono Request.OfMedia.quiet
  | reorderImages =>
      obtain ⟨z, run, _⟩ := Setting.ends_discarded.mp run
      refine Setting.once_bind_quiet run (fun first => ?_) fun product => ?_
      · exact (Setting.ends_transaction first).once .reorderImages rfl
      · exact (ProductService.quiet_notify _ _ _).bind fun _ => trivial
  | _ => cases on

end Calls

end MvpApi
