import MvpApi.Runs.Steps

/-!
# What the transactions do

`Work` lists the transactions of the program with their arguments, and `Work.body` is the
body of each. `Effect env s s' work` says what `work` has found in the session `s` when it
returns, and what it has changed by then: it has one case for each kind of transaction,
with the checks that passed, the rows locked, and the rows afterwards. All that is proved
about runs of the program is proved from it.
-/

set_option autoImplicit false

namespace MvpApi

/-- The transactions of the program. -/
inductive Work where
  | create (name slug userId : String)
  | update (workspaceId name slug userId : String)
  | replaceLogo (workspaceId : String) (key url : Option String) (userId : String)
  | delete (workspaceId userId : String)
  | saveRole (workspaceId : String) (roleId : Option String) (name userId : String)
  | deleteRole (workspaceId roleId userId : String)
  | setPermissions (workspaceId roleId : String) (permissions : List String) (userId : String)
  | setMemberRole (workspaceId memberId roleId userId : String)
  | removeMember (workspaceId memberId userId : String)
  | transfer (workspaceId targetId userId : String)
  | issue (workspaceId email roleId userId : String)
  | revoke (workspaceId invitationId userId : String)
  | accept (token userId : String)
  | register (sub email displayName : String) (invitationToken : Option String)
  | ensureAccount (sub email : String)
  | rename (userId displayName : String)
  | replaceAvatar (userId : String) (key url : Option String)
  | deleteAccount (userId : String)
  | deleteBatch (workspaceId : String)
  | purgeRows (workspaceId : String)
  | createProduct (quotas : ProductQuotas) (workspaceId name : String) (sku : Option String)
      (price : Price) (status : ProductStatus) (description : Option String)
  | updateProduct (workspaceId productId : String) (changes : ProductChanges)
      (ifMatch : Option Time)
  | deleteProduct (workspaceId productId : String)
  | attachImage (quotas : ProductQuotas) (workspaceId productId : String) (stored : StoredImage)
      (uploadKey : String)
  | removeImage (workspaceId productId imageId : String)
  | reorderImages (workspaceId productId : String) (imageIds : List String)
deriving DecidableEq, Repr

/-- A program without its result. -/
def Tx.run' {α : Type} (x : Tx α) : Tx Unit := do
  let _ ← x
  pure ()

/-- The body of a transaction. -/
def Work.body : Work → Tx Unit
  | create name slug userId => (WorkspaceTx.create name slug userId).run'
  | update workspaceId name slug userId => (WorkspaceTx.update workspaceId name slug userId).run'
  | replaceLogo workspaceId key url userId =>
      (WorkspaceTx.replaceLogo workspaceId key url userId).run'
  | delete workspaceId userId => WorkspaceTx.delete workspaceId userId
  | saveRole workspaceId roleId name userId =>
      (WorkspaceTx.saveRole workspaceId roleId name userId).run'
  | deleteRole workspaceId roleId userId => WorkspaceTx.deleteRole workspaceId roleId userId
  | setPermissions workspaceId roleId permissions userId =>
      WorkspaceTx.setPermissions workspaceId roleId permissions userId
  | setMemberRole workspaceId memberId roleId userId =>
      WorkspaceTx.setMemberRole workspaceId memberId roleId userId
  | removeMember workspaceId memberId userId =>
      WorkspaceTx.removeMember workspaceId memberId userId
  | transfer workspaceId targetId userId => WorkspaceTx.transfer workspaceId targetId userId
  | issue workspaceId email roleId userId =>
      (WorkspaceTx.issue workspaceId email roleId userId).run'
  | revoke workspaceId invitationId userId => WorkspaceTx.revoke workspaceId invitationId userId
  | accept token userId => (WorkspaceTx.accept token userId).run'
  | register sub email displayName invitationToken =>
      AccountTx.register sub email displayName invitationToken
  | ensureAccount sub email => AccountTx.ensureAccount sub email
  | rename userId displayName => (AccountTx.rename userId displayName).run'
  | replaceAvatar userId key url => (AccountTx.replaceAvatar userId key url).run'
  | deleteAccount userId => (AccountTx.delete userId).run'
  | deleteBatch workspaceId => (PurgeTx.deleteBatch workspaceId PurgeTx.productBatch).run'
  | purgeRows workspaceId => (PurgeTx.purgeRows workspaceId).run'
  | createProduct quotas workspaceId name sku price status description =>
      (ProductTx.create quotas workspaceId name sku price status description).run'
  | updateProduct workspaceId productId changes ifMatch =>
      (ProductTx.update workspaceId productId changes ifMatch).run'
  | deleteProduct workspaceId productId => (ProductTx.delete workspaceId productId).run'
  | attachImage quotas workspaceId productId stored uploadKey =>
      (ProductTx.attach quotas workspaceId productId stored uploadKey).run'
  | removeImage workspaceId productId imageId =>
      (ProductTx.removeImage workspaceId productId imageId).run'
  | reorderImages workspaceId productId imageIds =>
      (ProductTx.reorderImages workspaceId productId imageIds).run'

/-! ### Effects -/

/-- What joining with an invitation changes. -/
inductive Joins (env : Env) (token userId : String) (s s' : Session) : Prop
  | intro (user : User) (invitation : Invitation) (workspace : Workspace) (role : Role)
      (tick : ℕ) (joinedAt : Time)
      (allowed : s.db.Allows userId "invitations.accept" userId)
      (account : s.db.users.get userId = some user)
      (stored : invitation ∈ s.db.invitations)
      (hash : invitation.tokenHash = env.sha256 token)
      (tick_ge : s.ticks ≤ tick) (tick_lt : tick < s'.ticks)
      (usable : invitation.Usable (env.clock tick))
      (addressed : env.lower user.email = invitation.email)
      (live : s.db.live invitation.workspaceId = some workspace)
      (assigned : s.db.roles.get invitation.roleId = some role)
      (own : role.workspaceId = invitation.workspaceId)
      (unprotected : role.isProtected = false)
      (outside : s.db.member invitation.workspaceId userId = none)
      (locked : s'.touched = s.touched ++ [.workspace invitation.workspaceId])
      (db : s'.db = { s.db with
        users := s.db.users.put user.joinedAWorkspace
        members := s.db.members.put
          ⟨invitation.workspaceId, userId, invitation.roleId, joinedAt⟩
        invitations := s.db.invitations.put
          { invitation with status := .accepted, acceptedBy := some userId } })

/-- What a transaction that returns in `s'` has found in `s`, and what it has changed. -/
inductive Effect (env : Env) (s s' : Session) : Work → Prop
  | create {name slug userId : String} (user : User) (workspace : Workspace) (new : List Role)
      (roles' : Table Role.id) (rolePermissions' : Table RolePermission.key) (owner : Role)
      (joinedAt : Time)
      (allowed : s.db.Allows userId "workspaces.create" userId)
      (account : s.db.users.get userId = some user)
      (named : ¬ Blank name)
      (shape : ∃ id created,
        workspace = ⟨id, strip name, slug, userId, none, none, created, none⟩)
      (fresh : s.db.workspaces.get workspace.id = none)
      (added : WorkspaceTx.NewRoles s.db.roles workspace.id systemRoles new)
      (roles : ∀ role, role ∈ roles' ↔ role ∈ s.db.roles ∨ role ∈ new)
      (kept : ∀ row ∈ s.db.rolePermissions, row ∈ rolePermissions')
      (granted : ∀ row ∈ rolePermissions', row ∈ s.db.rolePermissions
        ∨ ∃ role ∈ new, row.roleId = role.id
          ∧ ∃ entry ∈ systemRoles, entry.1 = role.name ∧ row.permission ∈ entry.2)
      (owner_mem : owner ∈ new) (owner_name : owner.name = ownerRole)
      (outside : s.db.member workspace.id userId = none)
      (locked : s'.touched = s.touched)
      (db : s'.db = { s.db with
        users := s.db.users.put user.createdAWorkspace
        workspaces := s.db.workspaces.put workspace
        roles := roles'
        rolePermissions := rolePermissions'
        members := s.db.members.put ⟨workspace.id, userId, owner.id, joinedAt⟩ })
      (unique : s'.db.Unique) :
      Effect env s s' (.create name slug userId)
  | update {workspaceId name slug userId : String} (workspace : Workspace)
      (live : s.db.live workspaceId = some workspace)
      (allowed : s.db.Allows userId "workspace.update" workspaceId)
      (locked : s'.touched = s.touched ++ [.workspace workspaceId])
      (db : s'.db = { s.db with
        workspaces := s.db.workspaces.put (workspace.rename name slug) }) :
      Effect env s s' (.update workspaceId name slug userId)
  | replaceLogo {workspaceId userId : String} {key url : Option String} (workspace : Workspace)
      (live : s.db.live workspaceId = some workspace)
      (allowed : s.db.Allows userId "workspace.update" workspaceId)
      (locked : s'.touched = s.touched ++ [.workspace workspaceId])
      (db : s'.db = { s.db with
        workspaces := s.db.workspaces.put (workspace.replaceLogo key url) }) :
      Effect env s s' (.replaceLogo workspaceId key url userId)
  | delete {workspaceId userId : String} (workspace : Workspace) (now : Time) (newId : String)
      (memberIds : List String)
      (live : s.db.live workspaceId = some workspace)
      (allowed : s.db.Allows userId "workspace.delete" workspaceId)
      (memberIds_iff : ∀ id, id ∈ memberIds ↔ (s.db.member workspaceId id).isSome)
      (locked : s'.touched = s.touched ++ [.workspace workspaceId])
      (db : s'.db = Db.returned { s.db with
        workspaces := s.db.workspaces.put (workspace.softDelete now newId)
        members := s.db.members.filter (·.workspaceId ≠ workspaceId)
        invitations := s.db.invitations.map (·.revokePending workspaceId)
          (Invitation.revokePending_id workspaceId) } memberIds) :
      Effect env s s' (.delete workspaceId userId)
  | addRole {workspaceId name userId : String} (workspace : Workspace) (roleId : String)
      (live : s.db.live workspaceId = some workspace)
      (allowed : s.db.Allows userId "roles.manage" workspaceId)
      (assignable : strip name ≠ ownerRole)
      (fresh : s.db.roles.get roleId = none)
      (locked : s'.touched = s.touched ++ [.workspace workspaceId])
      (db : s'.db = { s.db with
        roles := s.db.roles.put ⟨roleId, workspaceId, strip name, false, false⟩ }) :
      Effect env s s' (.saveRole workspaceId none name userId)
  | renameRole {workspaceId roleId name userId : String} (workspace : Workspace) (role : Role)
      (live : s.db.live workspaceId = some workspace)
      (allowed : s.db.Allows userId "roles.manage" workspaceId)
      (assignable : strip name ≠ ownerRole)
      (stored : s.db.roles.get roleId = some role)
      (own : role.workspaceId = workspaceId) (unprotected : role.isProtected = false)
      (locked : s'.touched = s.touched ++ [.workspace workspaceId])
      (db : s'.db = { s.db with roles := s.db.roles.put { role with name := strip name } }) :
      Effect env s s' (.saveRole workspaceId (some roleId) name userId)
  | deleteRole {workspaceId roleId userId : String} (workspace : Workspace) (role : Role)
      (now : Time)
      (live : s.db.live workspaceId = some workspace)
      (allowed : s.db.Allows userId "roles.manage" workspaceId)
      (stored : s.db.roles.get roleId = some role)
      (own : role.workspaceId = workspaceId) (unprotected : role.isProtected = false)
      (unassigned : ∀ member ∈ s.db.members, member.roleId ≠ roleId)
      (unoffered : ∀ invitation ∈ s.db.invitations, invitation.roleId = roleId →
        ¬ invitation.Usable now)
      (locked : s'.touched = s.touched ++ [.workspace workspaceId])
      (db : s'.db = { s.db with
        invitations := s.db.invitations.filter (·.roleId ≠ roleId)
        rolePermissions := s.db.rolePermissions.filter (·.roleId ≠ roleId)
        roles := s.db.roles.erase roleId }) :
      Effect env s s' (.deleteRole workspaceId roleId userId)
  | setPermissions {workspaceId roleId userId : String} {permissions : List String}
      (workspace : Workspace) (role : Role)
      (live : s.db.live workspaceId = some workspace)
      (allowed : s.db.Allows userId "roles.manage" workspaceId)
      (stored : s.db.roles.get roleId = some role)
      (own : role.workspaceId = workspaceId) (unprotected : role.isProtected = false)
      (valid : ∀ action ∈ permissions, action ∈ catalogActions ∧ action ∉ ownerActions)
      (locked : s'.touched = s.touched ++ [.workspace workspaceId]
        ++ (s.db.permissions roleId ++ Table.ascending permissions.toFinset).map
            (.permission roleId))
      (db : s'.db = { s.db with
        rolePermissions := granted (s.db.rolePermissions.filter (·.roleId ≠ roleId)) roleId
          (Table.ascending permissions.toFinset) }) :
      Effect env s s' (.setPermissions workspaceId roleId permissions userId)
  | setMemberRole {workspaceId memberId roleId userId : String} (workspace : Workspace)
      (role : Role) (member : Member)
      (live : s.db.live workspaceId = some workspace)
      (allowed : s.db.Allows userId "roles.manage" workspaceId)
      (stored : s.db.roles.get roleId = some role)
      (own : role.workspaceId = workspaceId) (unprotected : role.isProtected = false)
      (not_owner : memberId ≠ workspace.ownerId)
      (belongs : s.db.member workspaceId memberId = some member)
      (locked : s'.touched = s.touched ++ [.workspace workspaceId])
      (db : s'.db = { s.db with members := s.db.members.put { member with roleId := roleId } }) :
      Effect env s s' (.setMemberRole workspaceId memberId roleId userId)
  | removeMember {workspaceId memberId userId : String} (workspace : Workspace) (member : Member)
      (live : s.db.live workspaceId = some workspace)
      (allowed : s.db.Allows userId "members.remove" workspaceId)
      (not_owner : memberId ≠ workspace.ownerId)
      (belongs : s.db.member workspaceId memberId = some member)
      (locked : s'.touched = s.touched ++ [.workspace workspaceId])
      (db : s'.db = Db.returned
        { s.db with members := s.db.members.erase (pair workspaceId memberId) } [memberId]) :
      Effect env s s' (.removeMember workspaceId memberId userId)
  | transfer {workspaceId targetId userId : String} (workspace : Workspace)
      (target previous : Member) (admin : Role) (roles' : Table Role.id)
      (rolePermissions' : Table RolePermission.key)
      (live : s.db.live workspaceId = some workspace)
      (allowed : s.db.Allows userId "workspace.transfer" workspaceId)
      (distinct : targetId ≠ userId)
      (belongs : s.db.member workspaceId targetId = some target)
      (belongs' : s.db.member workspaceId userId = some previous)
      (admin_shape : admin.workspaceId = workspaceId ∧ admin.name = adminRole)
      (admin_mem : (admin ∈ s.db.roles ∧ roles' = s.db.roles
          ∧ rolePermissions' = s.db.rolePermissions)
        ∨ (s.db.roles.get admin.id = none ∧ admin = .system admin.id workspaceId adminRole
          ∧ roles' = s.db.roles.put admin
          ∧ rolePermissions' = granted s.db.rolePermissions admin.id adminPermissions))
      (locked : s'.touched = s.touched ++ [.workspace workspaceId])
      (db : s'.db = { s.db with
        workspaces := s.db.workspaces.put { workspace with ownerId := targetId }
        roles := roles'
        rolePermissions := rolePermissions'
        members := (s.db.members.put { target with roleId := previous.roleId }).put
          { previous with roleId := admin.id } })
      (unique : s'.db.Unique) :
      Effect env s s' (.transfer workspaceId targetId userId)
  | issue {workspaceId email roleId userId : String} (workspace : Workspace) (role : Role)
      (invitation : Invitation) (idx tick₀ tick : ℕ) (token : String)
      (live : s.db.live workspaceId = some workspace)
      (allowed : s.db.Allows userId "members.invite" workspaceId)
      (stored : s.db.roles.get roleId = some role)
      (own : role.workspaceId = workspaceId) (unprotected : role.isProtected = false)
      (invitable : role.IsDefaultMember ∨ s.db.permits userId "roles.manage" workspaceId = true)
      (not_member : ∀ member ∈ s.db.members, member.workspaceId = workspaceId →
        ∀ user, s.db.users.get member.userId = some user → user.email ≠ env.lower email)
      (not_invited : ∀ invitation ∈ s.db.invitations, invitation.workspaceId = workspaceId →
        invitation.email = env.lower email → ¬ invitation.Usable (env.clock tick₀))
      (tick_ge : s.ticks ≤ tick₀) (tick_lt : tick₀ < tick ∧ tick < s'.ticks)
      (id_ge : s.ids ≤ idx) (id_lt : idx < s'.ids)
      (shape : invitation = .issue env (env.uuid7 idx) token workspaceId email roleId userId
        (env.clock tick))
      (fresh : s.db.invitations.get invitation.id = none)
      (locked : s'.touched = s.touched ++ [.workspace workspaceId])
      (db : s'.db = { s.db with invitations := s.db.invitations.put invitation }) :
      Effect env s s' (.issue workspaceId email roleId userId)
  | revoke {workspaceId invitationId userId : String} (workspace : Workspace)
      (invitation : Invitation) (tick : ℕ)
      (live : s.db.live workspaceId = some workspace)
      (allowed : s.db.Allows userId "invitations.revoke" workspaceId)
      (stored : s.db.invitations.get invitationId = some invitation)
      (own : invitation.workspaceId = workspaceId)
      (usable : invitation.Usable (env.clock tick))
      (locked : s'.touched = s.touched ++ [.workspace workspaceId])
      (db : s'.db = { s.db with
        invitations := s.db.invitations.put { invitation with status := .revoked } }) :
      Effect env s s' (.revoke workspaceId invitationId userId)
  | accept {token userId : String} (joins : Joins env token userId s s') :
      Effect env s s' (.accept token userId)
  | register {sub email displayName : String} {invitationToken : Option String} (now : Time)
      (locked : s'.touched = s.touched ∨ ∃ id, s'.touched = s.touched ++ [.workspace id])
      (db : s'.db = s.db.addUnlessTaken (.new env.lower sub email displayName now)) :
      Effect env s s' (.register sub email displayName invitationToken)
  | registerAndJoin {sub email displayName token : String} (now : Time) (s₁ : Session)
      (db : s₁.db = s.db.addUnlessTaken (.new env.lower sub email displayName now))
      (touched : s₁.touched = s.touched)
      (later : Later s s₁)
      (joins : Joins env token sub s₁ s') :
      Effect env s s' (.register sub email displayName (some token))
  | ensureAccount {sub email : String} (now : Time)
      (locked : s'.touched = s.touched)
      (db : s'.db = s.db.addUnlessTaken (.new env.lower sub email "" now)) :
      Effect env s s' (.ensureAccount sub email)
  | rename {userId displayName : String} (user : User)
      (allowed : s.db.Allows userId "profile.update" userId)
      (account : s.db.users.get userId = some user)
      (locked : s'.touched = s.touched)
      (db : s'.db = { s.db with
        users := s.db.users.put (user.rename displayName (s.db.belongsToAny userId)) }) :
      Effect env s s' (.rename userId displayName)
  | replaceAvatar {userId : String} {key url : Option String} (user : User)
      (account : s.db.users.get userId = some user)
      (locked : s'.touched = s.touched)
      (db : s'.db = { s.db with users := s.db.users.put (user.replaceAvatar key url) }) :
      Effect env s s' (.replaceAvatar userId key url)
  | deleteAccount {userId : String} (user : User)
      (allowed : s.db.Allows userId "profile.delete" userId)
      (account : s.db.users.get userId = some user)
      (owns_none : ∀ workspace ∈ s.db.workspaces, workspace.deletedAt = none →
        workspace.ownerId ≠ userId)
      (locked : s'.touched = s.touched)
      (db : s'.db = { s.db with
        members := s.db.members.filter (·.userId ≠ userId)
        invitations := s.db.invitations.filter (·.invitedBy ≠ userId)
        users := s.db.users.erase userId }) :
      Effect env s s' (.deleteAccount userId)
  | deleteBatch {workspaceId : String}
      (locked : s'.touched = s.touched)
      (db : s'.db = s.db.deleteProducts (s.db.firstProducts env workspaceId PurgeTx.productBatch)) :
      Effect env s s' (.deleteBatch workspaceId)
  | purgeNothing {workspaceId : String}
      (absent : ∀ workspace ∈ s.db.workspaces, workspace.id = workspaceId →
        workspace.deletedAt = none)
      (same : s' = s) :
      Effect env s s' (.purgeRows workspaceId)
  | purgeRows {workspaceId : String} (workspace : Workspace)
      (stored : s.db.workspaces.get workspaceId = some workspace)
      (deleted : workspace.deletedAt ≠ none)
      (locked : s'.touched = s.touched)
      (db : s'.db = s.db.purge workspace) :
      Effect env s s' (.purgeRows workspaceId)
  | createProduct {quotas : ProductQuotas} {workspaceId name : String} {sku : Option String}
      {price : Price} {status : ProductStatus} {description : Option String} (row : ProductRow)
      (own : row.workspaceId = workspaceId)
      (fresh : s.db.products.get row.id = none)
      (locked : s'.touched = s.touched
        ++ if (s.db.live workspaceId).isSome then [.workspace workspaceId] else [])
      (db : s'.db = { s.db with products := s.db.products.put row }) :
      Effect env s s' (.createProduct quotas workspaceId name sku price status description)
  | updateProduct {workspaceId productId : String} {changes : ProductChanges}
      {ifMatch : Option Time} (row row' : ProductRow)
      (stored : s.db.products.get productId = some row) (own : row.workspaceId = workspaceId)
      (same : row'.id = row.id ∧ row'.workspaceId = row.workspaceId)
      (locked : s'.touched = s.touched ++ [.product productId])
      (db : s'.db = { s.db with products := s.db.products.put row' }) :
      Effect env s s' (.updateProduct workspaceId productId changes ifMatch)
  | deleteProduct {workspaceId productId : String} (row : ProductRow)
      (stored : s.db.products.get productId = some row) (own : row.workspaceId = workspaceId)
      (locked : s'.touched = s.touched ++ [.product productId])
      (db : s'.db = { s.db with
        images := s.db.images.filter (·.productId ≠ productId)
        products := s.db.products.erase productId }) :
      Effect env s s' (.deleteProduct workspaceId productId)
  | attachImage {quotas : ProductQuotas} {workspaceId productId : String} {stored' : StoredImage}
      {uploadKey : String} (row : ProductRow) (image : ProductImage)
      (stored : s.db.products.get productId = some row) (own : row.workspaceId = workspaceId)
      (of_product : image.productId = productId) (of_workspace : image.workspaceId = workspaceId)
      (fresh : s.db.images.get image.id = none)
      (locked : s'.touched = s.touched
        ++ (if (s.db.live workspaceId).isSome then [.workspace workspaceId] else [])
        ++ [.product productId])
      (db : s'.db = { s.db with images := s.db.images.put image }) :
      Effect env s s' (.attachImage quotas workspaceId productId stored' uploadKey)
  | removeImage {workspaceId productId imageId : String} (row : ProductRow)
      (images : List ProductImage)
      (stored : s.db.products.get productId = some row) (own : row.workspaceId = workspaceId)
      (moved : ∀ image ∈ images, ∃ old ∈ s.db.images, old.productId = productId
        ∧ image = { old with position := image.position })
      (locked : s'.touched = s.touched ++ [.product productId])
      (db : s'.db = { s.db with
        images := images.foldl Table.put (s.db.images.filter (·.productId ≠ productId)) }) :
      Effect env s s' (.removeImage workspaceId productId imageId)
  | reorderImages {workspaceId productId : String} {imageIds : List String} (row : ProductRow)
      (images : List ProductImage)
      (stored : s.db.products.get productId = some row) (own : row.workspaceId = workspaceId)
      (moved : ∀ image ∈ images, ∃ old ∈ s.db.images, old.productId = productId
        ∧ image = { old with position := image.position })
      (locked : s'.touched = s.touched ++ [.product productId])
      (db : s'.db = { s.db with
        images := images.foldl Table.put (s.db.images.filter (·.productId ≠ productId)) }) :
      Effect env s s' (.reorderImages workspaceId productId imageIds)

end MvpApi
