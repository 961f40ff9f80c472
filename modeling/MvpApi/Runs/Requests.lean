import MvpApi.Presentation.Routes
import MvpApi.Safety.Authorization
import MvpApi.Safety.Isolation
import MvpApi.Safety.Orphans
import MvpApi.Runs.Scoped

/-!
# What requests do with the database

A request runs transactions with arguments that the schemas have let through, for the account of
its token. `x.Runs ok good` says that whatever the requests of `x` are answered, each transaction
that `x` attempts is one of `ok`, and what `x` returns is `good`. It is proved of all routes, and
from it follows what many requests that are served at once can make of the rows.
-/

set_option autoImplicit false

namespace MvpApi

open Program

/-! ### Transactions that the API runs -/

/-- A name of a workspace as the schemas leave it. -/
structure IsWorkspaceName (name : String) : Prop where
  length : HasLength 0 100 name
  named : ¬ Blank name

/-- The name of an object that the storage of media has made. -/
def IsMediaKey (key : String) : Prop := startswith key mediaPrefix = true

/-- The values of a partial update are within their bounds. -/
structure ProductChanges.Valid (changes : ProductChanges) : Prop where
  name : ∀ name ∈ changes.name, HasLength 1 200 name
  sku : ∀ sku, changes.sku = some (some sku) → HasLength 0 64 sku
  price : ∀ price ∈ changes.price, 0 ≤ price ∧ price < 10 ^ 10
  description : ∀ description, changes.description = some (some description) →
    HasLength 0 2000 description

/-- A picture that the storage of media has made and where it is served, or none. -/
structure IsPicture (api : Api) (key url : Option String) : Prop where
  stored : ∀ newKey ∈ key, IsMediaKey newKey
  served : url = key.map api.urlFor

/-- The files of an upload, as the storage of media leaves them. -/
structure StoredImage.Proper (stored : StoredImage) : Prop where
  key : IsMediaKey stored.key
  thumbKey : IsMediaKey stored.thumbKey
  contentType : stored.contentType = "image/webp"

/-- The arguments of a transaction are such that the API lets them through. -/
def Work.Accepted (api : Api) : Work → Prop
  | .create name slug _ => IsWorkspaceName name ∧ isValidSlug slug = true
  | .update _ name slug _ => IsWorkspaceName name ∧ isValidSlug slug = true
  | .replaceLogo _ key url _ => IsPicture api key url
  | .saveRole _ _ name _ => HasLength 2 50 name ∧ matchesRole name.toList = true
  | .setPermissions _ _ permissions _ => permissions.length ≤ 100
  | .register _ _ displayName _ => HasLength 0 100 displayName
  | .rename _ displayName => HasLength 0 100 displayName ∧ ¬ Blank displayName
  | .replaceAvatar _ key url => IsPicture api key url
  | .createProduct quotas _ name sku price status description =>
      quotas = api.quotas ∧ ProductInput.Valid ⟨name, sku, price, status, description⟩
  | .updateProduct _ _ changes _ => changes.Valid
  | .attachImage quotas _ _ stored uploadKey =>
      quotas = api.quotas ∧ stored.Proper ∧ api.isalnum uploadKey = true
  | .reorderImages _ _ imageIds =>
      1 ≤ imageIds.length ∧ imageIds.length ≤ maxImagesPerProduct
  | _ => True

/-- The transactions of a route on products of a workspace, with the values of its valid body. -/
inductive ProductRoute.Commits (api : Api) (workspaceId : String) : ProductRoute → Work → Prop
  | create {body : ProductCreate} {input : ProductInput} (valid : body.validate = some input) :
      Commits api workspaceId (.create body)
        (.createProduct api.quotas workspaceId input.name input.sku input.price input.status
          input.description)
  | update {productId : String} {body : ProductPatch} {ifMatch : Option Time}
      {input : ProductUpdate} (valid : body.validate = some input) :
      Commits api workspaceId (.update productId body ifMatch)
        (.updateProduct workspaceId productId input.changes ifMatch)
  | delete {productId : String} :
      Commits api workspaceId (.delete productId) (.deleteProduct workspaceId productId)
  | confirmImage {productId : String} {body input : UploadConfirm} {stored : StoredImage}
      (valid : body.validate = some input) (proper : stored.Proper)
      (isalnum : api.isalnum input.key = true) :
      Commits api workspaceId (.confirmImage productId body)
        (.attachImage api.quotas workspaceId productId stored input.key)
  | deleteImage {productId imageId : String} :
      Commits api workspaceId (.deleteImage productId imageId)
        (.removeImage workspaceId productId imageId)
  | reorderImages {productId : String} {body input : ProductImageOrder}
      (valid : body.validate = some input) :
      Commits api workspaceId (.reorderImages productId body)
        (.reorderImages workspaceId productId input.imageIds)

/-- The transactions of a route on a workspace, for an account and with the values of its valid
body. -/
inductive WorkspaceRoute.Commits (api : Api) (workspaceId userId : String) :
    WorkspaceRoute → Work → Prop
  | update {body input : WorkspaceInput} (valid : body.validate = some input) :
      Commits api workspaceId userId (.update body)
        (.update workspaceId input.name input.slug userId)
  | confirmLogo {body input : UploadConfirm} {key url : Option String}
      (valid : body.validate = some input) (picture : IsPicture api key url) :
      Commits api workspaceId userId (.confirmLogo body) (.replaceLogo workspaceId key url userId)
  | deleteLogo :
      Commits api workspaceId userId .deleteLogo (.replaceLogo workspaceId none none userId)
  | delete : Commits api workspaceId userId .delete (.delete workspaceId userId)
  | createRole {body input : RoleInput} (valid : body.validate = some input) :
      Commits api workspaceId userId (.createRole body)
        (.saveRole workspaceId none input.name userId)
  | updateRole {roleId : String} {body input : RoleInput} (valid : body.validate = some input) :
      Commits api workspaceId userId (.updateRole roleId body)
        (.saveRole workspaceId (some roleId) input.name userId)
  | deleteRole {roleId : String} :
      Commits api workspaceId userId (.deleteRole roleId) (.deleteRole workspaceId roleId userId)
  | setPermissions {roleId : String} {body input : PermissionsInput}
      (valid : body.validate = some input) :
      Commits api workspaceId userId (.setPermissions roleId body)
        (.setPermissions workspaceId roleId input.permissions userId)
  | setMemberRole {memberId : String} {body : MemberRoleInput} :
      Commits api workspaceId userId (.setMemberRole memberId body)
        (.setMemberRole workspaceId memberId body.roleId userId)
  | removeMember {memberId : String} :
      Commits api workspaceId userId (.removeMember memberId)
        (.removeMember workspaceId memberId userId)
  | transferOwnership {body : TransferInput} :
      Commits api workspaceId userId (.transferOwnership body)
        (.transfer workspaceId body.userId userId)
  | invite {body input : InvitationInput} (valid : body.validate api.emailStr = some input) :
      Commits api workspaceId userId (.invite body)
        (.issue workspaceId input.email input.roleId userId)
  | revokeInvitation {invitationId : String} :
      Commits api workspaceId userId (.revokeInvitation invitationId)
        (.revoke workspaceId invitationId userId)

/-- The transactions of the other routes that need an account, with the values of their valid
bodies. -/
inductive AccountRoute.Commits (api : Api) (userId : String) : AccountRoute → Work → Prop
  | updateMe {body input : ProfileUpdate} (valid : body.validate = some input) :
      Commits api userId (.updateMe body) (.rename userId input.displayName)
  | confirmAvatar {body input : UploadConfirm} {key url : Option String}
      (valid : body.validate = some input) (picture : IsPicture api key url) :
      Commits api userId (.confirmAvatar body) (.replaceAvatar userId key url)
  | deleteAvatar : Commits api userId .deleteAvatar (.replaceAvatar userId none none)
  | deleteMe : Commits api userId .deleteMe (.deleteAccount userId)
  | createWorkspace {body input : WorkspaceInput} (valid : body.validate = some input) :
      Commits api userId (.createWorkspace body) (.create input.name input.slug userId)
  | acceptInvitation {body input : AcceptInvitationInput} (valid : body.validate = some input) :
      Commits api userId (.acceptInvitation body) (.accept input.token userId)

/-- The transactions of a route, for an account that the token of the request speaks for. To
delete an account takes the purge of workspaces, and any request that needs an account may be the
first of its account. -/
inductive Route.Commits (api : Api) (incoming : Incoming) : Route → Work → Prop
  | register {body input : RegisterInput} {sub : String}
      (valid : body.validate api.emailStr api.lower = some input) :
      Commits api incoming (.register body)
        (.register sub (api.lower input.email) input.displayName input.invitationToken)
  | ensureAccount {route : Route} {token sub email : String} (needsAccount : route.needsAccount)
      (sent : incoming.credentials = some token)
      (speaks : SpeaksFor api.settings incoming.decode token sub) :
      Commits api incoming route (.ensureAccount sub email)
  | account {route : AccountRoute} {token sub : String} {work : Work}
      (sent : incoming.credentials = some token)
      (speaks : SpeaksFor api.settings incoming.decode token sub)
      (commits : route.Commits api sub work) : Commits api incoming (.account route) work
  | purgeProducts {token sub workspaceId : String} (sent : incoming.credentials = some token)
      (speaks : SpeaksFor api.settings incoming.decode token sub) :
      Commits api incoming (.account .deleteMe) (.deleteBatch workspaceId)
  | purgeRows {token sub workspaceId : String} (sent : incoming.credentials = some token)
      (speaks : SpeaksFor api.settings incoming.decode token sub) :
      Commits api incoming (.account .deleteMe) (.purgeRows workspaceId)
  | workspace {slug workspaceId token sub : String} {route : WorkspaceRoute} {work : Work}
      (sent : incoming.credentials = some token)
      (speaks : SpeaksFor api.settings incoming.decode token sub)
      (commits : route.Commits api workspaceId sub work) :
      Commits api incoming (.workspace slug route) work
  | products {slug workspaceId token sub : String} {route : ProductRoute} {work : Work}
      (sent : incoming.credentials = some token)
      (speaks : SpeaksFor api.settings incoming.decode token sub)
      (commits : route.Commits api workspaceId work) :
      Commits api incoming (.products slug route) work

/-! ### What the schemas let through -/

theorem length_strip_le (s : String) :
  (strip s).toList.length ≤ s.toList.length
  := by
  rw [strip, String.toList_ofList, List.length_reverse]
  refine (List.dropWhile_sublist _).length_le.trans ?_
  rw [List.length_reverse]
  exact (List.dropWhile_sublist _).length_le

/-- A slug that matches the pattern of the schema is one that the domain accepts. -/
theorem isValidSlug_of_matches {slug : String} (length : HasLength 3 50 slug)
    (pattern : matchesSlug slug.toList = true) (free : slug ∉ reservedSlugs) :
  isValidSlug slug = true
  := by
  simp only [matchesSlug, Bool.and_eq_true, decide_eq_true_eq] at pattern
  obtain ⟨⟨⟨_, first⟩, last⟩, letters⟩ := pattern
  rw [isValidSlug, letters]
  simp [length.1, length.2, first, last, free]

theorem WorkspaceInput.accepted {body input : WorkspaceInput} (h : body.validate = some input) :
  IsWorkspaceName input.name ∧ isValidSlug input.slug = true
  := by
  unfold WorkspaceInput.validate at h
  split at h
  · next valid =>
      cases h
      obtain ⟨name, slug, pattern, free, named⟩ := valid
      exact ⟨⟨⟨Nat.zero_le _, (length_strip_le _).trans name.2⟩, mt blank_strip.mp named⟩,
        isValidSlug_of_matches slug pattern free⟩
  · cases h

theorem ProductCreate.accepted {body : ProductCreate} {input : ProductInput}
    (h : body.validate = some input) :
  input.Valid
  := by
  unfold ProductCreate.validate at h
  obtain ⟨price, _, h⟩ := Option.bind_eq_some_iff.mp h
  dsimp only at h
  split at h
  · cases h
    assumption
  · cases h

theorem priceOf_eq_some {value : Decimal} {price : Price} (h : priceOf value = some price) :
  0 ≤ price ∧ price < 10 ^ 10
  := by
  unfold priceOf at h
  split at h
  · split at h
    · next bounds =>
        cases h
        exact bounds.2
    · cases h
  · cases h

theorem ProductPatch.accepted {body : ProductPatch} {update : ProductUpdate}
    (h : body.validate = some update) :
  update.changes.Valid
  := by
  unfold ProductPatch.validate at h
  obtain ⟨price, hprice, h⟩ := Option.bind_eq_some_iff.mp h
  split at h
  · next valid =>
      cases h
      obtain ⟨_, _, _, name, sku, description⟩ := valid
      refine ⟨fun value hvalue => ?_, fun value hvalue => ?_, fun value hvalue => ?_,
        fun value hvalue => ?_⟩
      · unfold ProductUpdate.changes at hvalue
        dsimp only at hvalue
        split at hvalue
        · exact name value hvalue
        · cases hvalue
      · unfold ProductUpdate.changes at hvalue
        dsimp only at hvalue
        split at hvalue
        · exact sku value (Option.some.inj hvalue)
        · cases hvalue
      · unfold ProductUpdate.changes at hvalue
        dsimp only at hvalue
        split at hvalue
        · cases hvalue
          unfold ProductPatch.price? at hprice
          split at hprice
          · obtain ⟨sent, hsent, hsame⟩ := Option.map_eq_some_iff.mp hprice
            cases hsame
            exact priceOf_eq_some hsent
          · cases hprice
        · cases hvalue
      · unfold ProductUpdate.changes at hvalue
        dsimp only at hvalue
        split at hvalue
        · exact description value (Option.some.inj hvalue)
        · cases hvalue
  · cases h

theorem RoleInput.accepted {body input : RoleInput} (h : body.validate = some input) :
  HasLength 2 50 input.name ∧ matchesRole input.name.toList = true
  := by
  unfold RoleInput.validate at h
  split at h
  · cases h
    assumption
  · cases h

theorem PermissionsInput.accepted {body input : PermissionsInput} (h : body.validate = some input) :
  input.permissions.length ≤ 100
  := by
  unfold PermissionsInput.validate at h
  split at h
  · cases h
    assumption
  · cases h

theorem ProfileUpdate.accepted {body input : ProfileUpdate} (h : body.validate = some input) :
  HasLength 0 100 input.displayName ∧ ¬ Blank input.displayName
  := by
  unfold ProfileUpdate.validate at h
  split at h
  · next valid =>
      cases h
      exact ⟨⟨Nat.zero_le _, (length_strip_le _).trans valid.1.2⟩, mt blank_strip.mp valid.2⟩
  · cases h

theorem RegisterInput.accepted {emailStr : String → Option String} {lower : String → String}
    {body input : RegisterInput} (h : body.validate emailStr lower = some input) :
  HasLength 0 100 input.displayName
  := by
  unfold RegisterInput.validate at h
  obtain ⟨email, _, h⟩ := Option.bind_eq_some_iff.mp h
  split at h
  · next valid =>
      cases h
      exact valid.2.1
  · cases h

theorem ProductImageOrder.accepted {body input : ProductImageOrder}
    (h : body.validate = some input) :
  1 ≤ input.imageIds.length ∧ input.imageIds.length ≤ maxImagesPerProduct
  := by
  unfold ProductImageOrder.validate at h
  split at h
  · cases h
    assumption
  · cases h

theorem ProductRoute.Commits.accepted {api : Api} {workspaceId : String} {route : ProductRoute}
    {work : Work} (h : route.Commits api workspaceId work) :
  work.Accepted api
  := by
  cases h with
  | create valid => exact ⟨rfl, ProductCreate.accepted valid⟩
  | update valid => exact ProductPatch.accepted valid
  | confirmImage _ proper isalnum => exact ⟨rfl, proper, isalnum⟩
  | reorderImages valid => exact ProductImageOrder.accepted valid
  | _ => trivial

theorem WorkspaceRoute.Commits.accepted {api : Api} {workspaceId userId : String}
    {route : WorkspaceRoute} {work : Work} (h : route.Commits api workspaceId userId work) :
  work.Accepted api
  := by
  cases h with
  | update valid => exact WorkspaceInput.accepted valid
  | confirmLogo _ picture => exact picture
  | deleteLogo => exact ⟨nofun, rfl⟩
  | createRole valid => exact RoleInput.accepted valid
  | updateRole valid => exact RoleInput.accepted valid
  | setPermissions valid => exact PermissionsInput.accepted valid
  | _ => trivial

theorem AccountRoute.Commits.accepted {api : Api} {userId : String} {route : AccountRoute}
    {work : Work} (h : route.Commits api userId work) :
  work.Accepted api
  := by
  cases h with
  | updateMe valid => exact ProfileUpdate.accepted valid
  | confirmAvatar _ picture => exact picture
  | deleteAvatar => exact ⟨nofun, rfl⟩
  | createWorkspace valid => exact WorkspaceInput.accepted valid
  | _ => trivial

/-- What a route commits has arguments that the API lets through. -/
theorem Route.Commits.accepted {api : Api} {incoming : Incoming} {route : Route} {work : Work}
    (h : route.Commits api incoming work) :
  work.Accepted api
  := by
  cases h with
  | register valid => exact RegisterInput.accepted valid
  | account _ _ commits => exact commits.accepted
  | workspace _ _ commits => exact commits.accepted
  | products _ _ commits => exact commits.accepted
  | _ => trivial

/-! ### Attempts -/

variable {μ : Type → Type} {ok : Work → Prop} {α β : Type}

/-- A request that attempts nothing but transactions of `ok`. -/
def Request.Within (ok : Work → Prop) : Request μ β → Prop
  | .attempt body => ∃ work, ok work ∧ Tx.run' body = work.body
  | _ => True

/-- Whatever its requests are answered, the use case attempts nothing but transactions of `ok`,
and what it returns is `good`. -/
def Service.Runs (x : Service μ α) (ok : Work → Prop) (good : α → Prop) : Prop :=
  x.Ensures (Request.Within ok) fun y => ∀ a, y = .ok a → good a

theorem Request.within_of_quiet {request : Request μ β} (quiet : ¬ request.Attempts) :
  request.Within ok
  := by
  cases request with
  | attempt body => exact absurd trivial quiet
  | _ => trivial

namespace Service.Runs

variable {good : α → Prop} {x : Service μ α}

theorem mono {good' : α → Prop} {ok' : Work → Prop} (h : x.Runs ok good)
    (more : ∀ work, ok work → ok' work) (weaker : ∀ a, good a → good' a) :
  x.Runs ok' good'
  := by
  refine Ensures.mono h (fun {β} {request} hr => ?_) fun y hy a ha => weaker a (hy a ha)
  cases request with
  | attempt body =>
      obtain ⟨work, hok, hbody⟩ := hr
      exact ⟨work, more work hok, hbody⟩
  | _ => trivial

theorem done {a : α} (h : good a) :
  Service.Runs (.done a : Service μ α) ok good
  := fun a' ha => by cases ha; exact h

theorem fail {e : Failure} :
  Service.Runs (.fail e : Service μ α) ok good
  := fun a ha => by cases ha

theorem ofExcept {z : Except Failure α} (h : ∀ a, z = .ok a → good a) :
  Service.Runs (Program.ofExcept z : Service μ α) ok good
  := by
  cases z with
  | ok a => exact done (h a rfl)
  | error e => exact fail

/-- A value, whatever it is, or an error. -/
theorem anyOf {z : Except Failure α} :
  Service.Runs (Program.ofExcept z : Service μ α) ok fun _ => True
  := ofExcept fun _ _ => trivial

theorem bind {f : α → Service μ β} {good' : β → Prop} (h : x.Runs ok good)
    (next : ∀ a, good a → (f a).Runs ok good') :
  Service.Runs (x >>= f) ok good'
  := Ensures.bind h (fun a ha => next a (ha a rfl)) fun e _ a ha => by cases ha

/-- Go on with what a program ends with, be it an error. -/
theorem outcome {g : Except Failure α → Service μ β} {good' : β → Prop} (h : x.Runs ok good)
    (returned : ∀ a, good a → (g (.ok a)).Runs ok good')
    (failed : ∀ e, (g (.error e)).Runs ok good') :
  Service.Runs (x.outcome >>= g) ok good'
  := by
  refine Ensures.outcome_bind h fun y hy => ?_
  cases y with
  | ok a => exact returned a (hy a rfl)
  | error e => exact failed e

/-- A request that is no attempt. -/
theorem perform {request : Request μ α} (quiet : ¬ request.Attempts) :
  Service.Runs (Program.perform request) ok fun _ => True
  := Ensures.perform (Request.within_of_quiet quiet) fun _ _ _ => trivial

theorem read {query : Tx α} :
  Service.Runs (read query : Service μ α) ok fun _ => True
  := perform nofun

/-- Programs that attempt nothing. -/
theorem quiet (h : x.Asks fun request => ¬ request.Attempts) :
  x.Runs ok fun _ => True
  := Ensures.of_asks (h.mono Request.within_of_quiet) fun _ _ _ => trivial

theorem transaction {body : Tx α} (work : Work) (h : ok work) (does : work.body = body.run') :
  Service.Runs (transaction body : Service μ α) ok fun _ => True
  := Ensures.of_asks (asks_transaction ⟨work, h, does.symm⟩) fun _ _ _ => trivial

/-- A transaction that returns nothing. -/
theorem transaction' {body : Tx Unit} (work : Work) (h : ok work) (does : work.body = body) :
  Service.Runs (MvpApi.transaction body : Service μ Unit) ok fun _ => True
  := Ensures.of_asks (asks_transaction ⟨work, h, (bind_pure body).trans does.symm⟩) fun _ _ _ => trivial

theorem duplicateAs {message : String} (h : x.Runs ok good) :
  Service.Runs (duplicateAs message x) ok good
  := by
  refine outcome h (fun a ha => done ha) fun e => ?_
  cases e with
  | _ => exact fail

end Service.Runs

/-! ### The storage of media -/

theorem isMediaKey_named (name suffix : String) :
  IsMediaKey (mediaPrefix ++ name ++ suffix)
  := ((keys_of_stem name).1 suffix).2

namespace S3MediaStorage

variable (storage : S3MediaStorage)

/-- What is asked of the bucket attempts nothing. -/
theorem quiet {x : Service BucketRequest α} (h : x.Asks Request.OfMedia) :
  x.Runs ok fun _ => True
  := .quiet (h.mono Request.OfMedia.quiet)

/-- An upload is found only if its key has none but letters and digits. -/
theorem runs_readPending (uploadKey : String) :
  (storage.readPending uploadKey).Runs ok fun _ => storage.isalnum uploadKey = true
  := by
  have found : (storage.pendingSize uploadKey).Runs ok fun _ => storage.isalnum uploadKey = true := by
    have known : Service.Runs (ofExcept (storage.pending uploadKey) : Service BucketRequest String)
        ok fun _ => storage.isalnum uploadKey = true := by
      refine .ofExcept fun key hkey => ?_
      unfold pending at hkey
      split at hkey
      · assumption
      · cases hkey
    refine .bind known fun key isalnum => .outcome (.perform nofun) (fun size _ => ?_) fun e => .fail
    dsimp only
    split
    · exact .bind (quiet (asks_delete key)) fun _ _ => .fail
    · exact .done isalnum
  refine .bind found fun _ isalnum => .bind (.ofExcept fun _ _ => isalnum) fun key _ => ?_
  exact .outcome (.perform nofun) (fun body _ => .done isalnum) fun e => .fail

theorem runs_storeImage (uploadKey : String) :
  (storage.storeImage uploadKey).Runs ok fun stored =>
    stored.Proper ∧ storage.isalnum uploadKey = true
  := by
  refine .bind (storage.runs_readPending uploadKey) fun original isalnum =>
    .bind .anyOf fun rendered _ => ?_
  refine .bind (.perform nofun) fun name _ => .bind (.perform nofun) fun _ _ =>
    .bind (.perform nofun) fun _ _ => .bind (quiet (asks_drop uploadKey)) fun _ _ => .done ?_
  exact ⟨⟨isMediaKey_named name _, isMediaKey_named name _, rfl⟩, isalnum⟩

theorem runs_storeSquare (uploadKey : String) :
  (storage.storeSquare uploadKey).Runs ok IsMediaKey
  := by
  refine .bind (storage.runs_readPending uploadKey) fun original isalnum =>
    .bind .anyOf fun square _ => ?_
  refine .bind (.perform nofun) fun name _ => .bind (.perform nofun) fun _ _ =>
    .bind (quiet (asks_drop uploadKey)) fun _ _ => .done (isMediaKey_named name _)

/-- Without an upload nothing is stored. -/
theorem runs_storeSome (uploadKey : Option String) :
  (storage.media.storeSome uploadKey).Runs ok fun newKey =>
    (∀ key ∈ newKey, IsMediaKey key) ∧ (uploadKey = none → newKey = none)
  := by
  unfold MediaStorage.storeSome
  split
  · next sent =>
      refine .bind (storage.runs_storeSquare _) fun key isMediaKey => .done ⟨?_, ?_⟩
      · intro key' hkey
        cases hkey
        exact isMediaKey
      · rintro rfl
        cases sent
  · exact .done ⟨nofun, fun _ => rfl⟩

theorem runs_deleteSome (key : Option String) :
  (storage.media.deleteSome key).Runs ok fun _ => True
  := quiet (storage.media_proper.deleteSome key)

theorem runs_deleteAll (keys : List String) :
  (storage.media.deleteAll keys).Runs ok fun _ => True
  := quiet (storage.media_proper.deleteAll keys)

theorem runs_presign (signer : PostSigner) (contentType : String) (allowed : List String) :
  (storage.presign signer contentType allowed).Runs ok fun _ => True
  := .bind .anyOf fun _ _ =>
    .bind (.perform nofun) fun _ _ => .done trivial

end S3MediaStorage

/-- The address of a picture is that of its object. -/
theorem isPicture {api : Api} {key : Option String} (h : ∀ newKey ∈ key, IsMediaKey newKey) :
  IsPicture api key ((key.filter (· ≠ "")).map api.urlFor)
  := by
  refine ⟨h, ?_⟩
  cases key with
  | none => rfl
  | some newKey =>
      have named : newKey ≠ "" := by
        rintro rfl
        exact absurd (show startswith "" mediaPrefix = true from h "" rfl) (by decide)
      rw [Option.filter_some, if_pos (decide_eq_true named)]

/-! ### The use cases -/

namespace Service.Runs

variable {good : β → Prop}

/-- A valid body is one that the schema has let through. -/
theorem validated {body : Option α} {next : α → Handler} {good : Response Reply → Prop}
    (unprocessable : good .unprocessable) (valid : ∀ a, body = some a → (next a).Runs ok good) :
  Service.Runs (Route.validated body next) ok good
  := by
  unfold Route.validated
  cases body with
  | some a => exact valid a rfl
  | none => exact done unprocessable

/-- Go on after a program, whatever it returns. -/
theorem andThen {x : Service μ α} {f : α → Service μ β} (h : x.Runs ok fun _ => True)
    (next : ∀ a, (f a).Runs ok good) :
  Service.Runs (x >>= f) ok good
  := h.bind fun a _ => next a

end Service.Runs

section Products

variable (api : Api)

theorem runs_notify (workspaceId action productId : String) :
  (ProductService.notify action productId workspaceId : Service μ Unit).Runs ok fun _ => True
  := .quiet (ProductService.quiet_notify action productId workspaceId)

/-- An upload that is confirmed is attached with the files that it was stored as. -/
theorem runs_confirmImage (workspaceId productId uploadKey : String)
    (attaches : ∀ stored : StoredImage, stored.Proper → api.isalnum uploadKey = true →
      ok (.attachImage api.quotas workspaceId productId stored uploadKey)) :
  (api.services.products.confirmImage workspaceId productId uploadKey).Runs ok fun _ => True
  := by
  refine .andThen .read fun known => .andThen .anyOf fun _ => .andThen .read fun existing => ?_
  cases existing with
  | some existing => exact .done trivial
  | none =>
      refine .andThen (S3MediaStorage.quiet (S3MediaStorage.asks_pendingSize _)) fun size =>
        .andThen .read fun used => .andThen .anyOf fun _ => .andThen .read fun count =>
          .andThen .anyOf fun _ => .bind (api.storage.runs_storeImage uploadKey)
            fun stored proper => ?_
      have discard : (api.services.products.discard stored).Runs ok fun _ => True :=
        .andThen (S3MediaStorage.quiet (S3MediaStorage.asks_delete _)) fun _ =>
          S3MediaStorage.quiet (S3MediaStorage.asks_delete _)
      refine .outcome (.transaction (.attachImage api.quotas workspaceId productId stored uploadKey)
        (attaches stored proper.1 proper.2) rfl) (fun image _ => ?_) fun e => ?_
      · exact .andThen (runs_notify ..) fun _ => .done trivial
      · cases e with
        | duplicate =>
            refine .andThen discard fun _ => .andThen .read fun winner => ?_
            cases winner with
            | some winner => exact .done trivial
            | none => exact .fail
        | _ => exact .andThen discard fun _ => .fail

/-- A route on products runs its transactions in the workspace. -/
theorem runs_productRoute (scope : CurrentWorkspace) (route : ProductRoute) :
  Service.Runs (Route.productRoute api scope route) (route.Commits api scope.id) fun _ => True
  := by
  have shown {ok : Work → Prop} (product : Product) (status : ℕ) :
      Service.Runs
        (do return Route.reply status (.product (← ofExcept (ProductRead.of product api.urlFor))) :
          Handler) ok fun _ => True :=
    .bind .anyOf fun _ _ => .done trivial
  cases route with
  | list query =>
      refine .validated trivial fun query _ => .andThen .anyOf fun filter => ?_
      dsimp only
      split
      · exact .andThen .read fun page => .andThen .anyOf fun items => .done trivial
      · exact .andThen .read fun page => .andThen .anyOf fun items => .done trivial
  | create body =>
      refine .validated trivial fun input valid => .andThen ?_ fun product => shown product 201
      exact .andThen (.transaction _ (.create valid) rfl) fun _ =>
        .andThen (runs_notify ..) fun _ => .done trivial
  | get productId => exact .andThen .read fun product => shown product 200
  | update productId body ifMatch =>
      refine .validated trivial fun update valid => .andThen ?_ fun product => shown product 200
      exact .andThen (.transaction _ (.update valid) rfl) fun _ =>
        .andThen (runs_notify ..) fun _ => .done trivial
  | delete productId =>
      refine .andThen ?_ fun _ => .done trivial
      exact .andThen (.transaction _ .delete rfl) fun _ =>
        .andThen (runs_notify ..) fun _ => api.storage.runs_deleteAll _
  | presignImage productId body =>
      refine .validated trivial fun body _ => .andThen ?_ fun ticket => .done trivial
      exact .andThen .read fun known => .andThen .anyOf fun _ => .andThen .read fun count =>
        .andThen .anyOf fun _ => api.storage.runs_presign ..
  | confirmImage productId body =>
      refine .validated trivial fun input valid => .andThen ?_ fun image => .done trivial
      apply runs_confirmImage
      intro stored proper isalnum
      exact .confirmImage valid proper isalnum
  | deleteImage productId imageId =>
      refine .andThen ?_ fun _ => .done trivial
      exact .andThen (.transaction _ .deleteImage rfl) fun _ =>
        .andThen (runs_notify ..) fun _ => api.storage.runs_deleteAll _
  | reorderImages productId body =>
      refine .validated trivial fun order valid => .andThen ?_ fun product => shown product 200
      exact .andThen (.transaction _ (.reorderImages valid) rfl) fun _ =>
        .andThen (runs_notify ..) fun _ => .done trivial

end Products

section Workspaces

variable (api : Api)

theorem runs_readInvitations (views : List InvitationView) :
  (Route.readInvitations views).Runs ok fun _ => True
  := by
  induction views with
  | nil => exact .done trivial
  | cons view views ih => exact .andThen (.perform nofun) fun _ => .andThen ih fun _ => .done trivial

/-- A logo is replaced by the picture that the upload was stored as. -/
theorem runs_setLogo (workspaceId : String) (uploadKey : Option String) (userId : String)
    (replaces : ∀ key url, IsPicture api key url → (uploadKey = none → key = none) →
      ok (.replaceLogo workspaceId key url userId)) :
  (api.services.workspaces.setLogo workspaceId uploadKey userId).Runs ok fun _ => True
  := by
  refine .andThen .read fun _ => .bind (api.storage.runs_storeSome uploadKey) fun newKey stored => ?_
  refine .outcome (.transaction (.replaceLogo workspaceId newKey _ userId)
    (replaces _ _ (isPicture stored.1) stored.2) rfl) (fun replaced _ => ?_) fun e => ?_
  · exact .andThen (api.storage.runs_deleteSome _) fun _ => .done trivial
  · exact .andThen (api.storage.runs_deleteSome _) fun _ => .fail

/-- A route on a workspace runs its transactions for the account that asks. -/
theorem runs_workspaceRoute (workspace : CurrentWorkspace) (user : CurrentUser)
    (route : WorkspaceRoute) :
  Service.Runs (Route.workspaceRoute api workspace user route)
    (route.Commits api workspace.id user.id) fun _ => True
  := by
  cases route with
  | get => exact .andThen .read fun view => .done trivial
  | update body =>
      refine .validated trivial fun body valid => .andThen (.duplicateAs ?_) fun view => .done trivial
      exact .transaction _ (.update valid) rfl
  | presignLogo body =>
      refine .validated trivial fun body _ => .andThen ?_ fun ticket => .done trivial
      exact .andThen .read fun _ => api.storage.runs_presign ..
  | confirmLogo body =>
      refine .validated trivial fun input valid => .andThen ?_ fun view => .done trivial
      apply runs_setLogo
      intro key url picture _
      exact .confirmLogo valid picture
  | deleteLogo =>
      refine .andThen ?_ fun view => .done trivial
      apply runs_setLogo
      intro key url picture removed
      obtain rfl := removed rfl
      obtain rfl := picture.served
      exact .deleteLogo
  | delete => exact .andThen (.transaction' _ .delete rfl) fun _ => .done trivial
  | roles => exact .andThen .read fun views => .done trivial
  | createRole body =>
      refine .validated trivial fun body valid => .andThen (.duplicateAs ?_) fun view => .done trivial
      exact .transaction _ (.createRole valid) rfl
  | updateRole roleId body =>
      refine .validated trivial fun body valid => .andThen (.duplicateAs ?_) fun view => .done trivial
      exact .transaction _ (.updateRole valid) rfl
  | deleteRole roleId => exact .andThen (.transaction' _ .deleteRole rfl) fun _ => .done trivial
  | setPermissions roleId body =>
      refine .validated trivial fun body valid => .andThen ?_ fun _ => .done trivial
      exact .transaction' _ (.setPermissions valid) rfl
  | permissions => exact .andThen .read fun entries => .done trivial
  | members => exact .andThen .read fun views => .done trivial
  | setMemberRole memberId body =>
      exact .andThen (.transaction' _ .setMemberRole rfl) fun _ => .done trivial
  | removeMember memberId => exact .andThen (.transaction' _ .removeMember rfl) fun _ => .done trivial
  | transferOwnership body =>
      exact .andThen (.transaction' _ .transferOwnership rfl) fun _ => .done trivial
  | invitations =>
      exact .andThen .read fun views => .andThen (runs_readInvitations views) fun _ => .done trivial
  | invite body =>
      refine .validated trivial fun body valid => .andThen ?_ fun created =>
        .andThen (.perform nofun) fun _ => .done trivial
      refine .andThen (.transaction _ (.invite valid) rfl) fun issued => ?_
      exact .outcome (.perform nofun) (fun _ _ => .done trivial) fun _ => .done trivial
  | revokeInvitation invitationId =>
      exact .andThen (.transaction' _ .revokeInvitation rfl) fun _ => .done trivial

end Workspaces

section Accounts

variable (api : Api)

/-- An avatar is replaced by the picture that the upload was stored as. -/
theorem runs_setAvatar (userId : String) (uploadKey : Option String)
    (replaces : ∀ key url, IsPicture api key url → (uploadKey = none → key = none) →
      ok (.replaceAvatar userId key url)) :
  (api.services.accounts.setAvatar userId uploadKey).Runs ok fun _ => True
  := by
  refine .andThen .read fun _ => .bind (api.storage.runs_storeSome uploadKey) fun newKey stored => ?_
  refine .outcome (.transaction (.replaceAvatar userId newKey _)
    (replaces _ _ (isPicture stored.1) stored.2) rfl) (fun replaced _ => ?_) fun e => ?_
  · exact .andThen (api.storage.runs_deleteSome _) fun _ => .read
  · exact .andThen (api.storage.runs_deleteSome _) fun _ => .fail

/-- A purge deletes batches of products, and then the rows. -/
theorem runs_purgeEach (batch : ∀ workspaceId, ok (.deleteBatch workspaceId))
    (rows : ∀ workspaceId, ok (.purgeRows workspaceId)) (rounds : ℕ) (workspaceIds : List String) :
  (WorkspacePurge.purgeEach api.storage.media rounds workspaceIds).Runs ok fun _ => True
  := by
  have products (workspaceId : String) (rounds : ℕ) :
      (WorkspacePurge.purgeProducts api.storage.media workspaceId rounds).Runs ok
        fun _ => True := by
    induction rounds with
    | zero => exact .fail
    | succ rounds ih =>
        refine .andThen (.transaction _ (batch workspaceId) rfl) fun batch =>
          .andThen (api.storage.runs_deleteAll _) fun _ => ?_
        split
        · exact .done trivial
        · exact ih
  induction workspaceIds with
  | nil => exact .done trivial
  | cons workspaceId workspaceIds ih =>
      refine .andThen (.andThen (products workspaceId rounds) fun _ => ?_) fun _ => ih
      exact .andThen (.transaction _ (rows workspaceId) rfl) fun _ => api.storage.runs_deleteSome _

/-- A route on an account runs its transactions for the account that asks, and purges workspaces
if that account is to go. -/
theorem runs_accountRoute (user : CurrentUser) (route : AccountRoute)
    (commits : ∀ work, route.Commits api user.id work → ok work)
    (batch : route = .deleteMe → ∀ workspaceId, ok (.deleteBatch workspaceId))
    (rows : route = .deleteMe → ∀ workspaceId, ok (.purgeRows workspaceId)) :
  Service.Runs (Route.accountRoute api user route) ok fun _ => True
  := by
  cases route with
  | me => exact .andThen .read fun view => .done trivial
  | updateMe body =>
      refine .validated trivial fun body valid => .andThen ?_ fun view => .done trivial
      exact .andThen (.transaction _ (commits _ (.updateMe valid)) rfl) fun _ => .read
  | presignAvatar body =>
      refine .validated trivial fun body _ => .andThen ?_ fun ticket => .done trivial
      exact .andThen .read fun _ => api.storage.runs_presign ..
  | confirmAvatar body =>
      refine .validated trivial fun input valid => .andThen ?_ fun view => .done trivial
      apply runs_setAvatar
      intro key url picture _
      exact commits _ (.confirmAvatar valid picture)
  | deleteAvatar =>
      refine .andThen ?_ fun view => .done trivial
      apply runs_setAvatar
      intro key url picture removed
      obtain rfl := removed rfl
      obtain rfl := picture.served
      exact commits _ .deleteAvatar
  | deleteMe =>
      refine .andThen ?_ fun _ => .done trivial
      refine .andThen .read fun _ => .andThen .read fun workspaceIds =>
        .andThen (runs_purgeEach api (batch rfl) (rows rfl) ..) fun _ =>
          .andThen (.transaction _ (commits _ .deleteMe) rfl) fun user =>
            .andThen (api.storage.runs_deleteSome _) fun _ => ?_
      exact .outcome (.perform nofun) (fun _ _ => .done trivial) fun _ => .done trivial
  | workspaces => exact .andThen .read fun views => .done trivial
  | createWorkspace body =>
      refine .validated trivial fun body valid => .andThen (.duplicateAs ?_) fun view => .done trivial
      exact .transaction _ (commits _ (.createWorkspace valid)) rfl
  | slugAvailability slug => exact .andThen .read fun available => .done trivial
  | acceptInvitation body =>
      refine .validated trivial fun body valid => .andThen ?_ fun view => .done trivial
      exact .transaction _ (commits _ (.acceptInvitation valid)) rfl

end Accounts

/-! ### Requests -/

/-- A transaction that a request of a route may run: the request has come by the network, and the
transaction is one that the route commits. -/
structure Work.Requested (api : Api) (incoming : Incoming) (route : Route) (work : Work) :
    Prop where
  commits : route.Commits api incoming work
  origin : ∀ secret, api.settings.originGuard = some secret →
    incoming.path ∈ unguardedPaths ∨ incoming.origin = secret

section Requests

variable {api : Api} {incoming : Incoming}

theorem runs_gated {check : Except HttpException α} {next : α → Handler}
    (passed : ∀ a, check = .ok a → (next a).Runs ok fun _ => True) :
  Service.Runs (Route.gated check next) ok fun _ => True
  := by
  unfold Route.gated
  cases check with
  | ok a => exact passed a rfl
  | error exception => exact .done trivial

/-- A token that is verified is one that was sent, and speaks for its subject. -/
theorem Incoming.verifiedToken_eq_ok {settings : Settings} {token : VerifiedToken}
    (h : incoming.verifiedToken settings = .ok token) :
  incoming.credentials = some token.raw
    ∧ SpeaksFor settings incoming.decode token.raw token.sub
  := by
  unfold Incoming.verifiedToken at h
  split at h
  · cases h
  · next credentials sent =>
      obtain ⟨speaks, raw⟩ := verifyToken_eq_ok.mp h
      rw [raw]
      exact ⟨sent, speaks⟩

/-- Behind the check of the token an account may be created, and what runs there runs for the
subject of the token. -/
theorem runs_authenticated
    (creates : ∀ token sub email, incoming.credentials = some token →
      SpeaksFor api.settings incoming.decode token sub → ok (.ensureAccount sub email))
    {next : CurrentUser → Handler}
    (passed : ∀ user token, incoming.credentials = some token →
      SpeaksFor api.settings incoming.decode token user.id → (next user).Runs ok fun _ => True) :
  Service.Runs (Route.authenticated api.settings incoming next) ok fun _ => True
  := by
  refine runs_gated fun token htoken => ?_
  obtain ⟨sent, speaks⟩ := Incoming.verifiedToken_eq_ok htoken
  have known : Service.Runs
      (AccountService.ensureAccount token.sub token.raw : Service BucketRequest String) ok
      fun _ => True := by
    refine .andThen .read fun user => ?_
    cases user with
    | some user => exact .done trivial
    | none =>
        refine .andThen (.perform nofun) fun known => .andThen .anyOf fun _ =>
          .andThen (.transaction' _ (creates _ _ known.2 sent speaks) rfl) fun _ =>
            .andThen .read fun user => ?_
        cases user with
        | some user => exact .done trivial
        | none => exact .fail
  refine .outcome known (fun email _ => ?_) fun e => ?_
  · exact passed ⟨token.sub, email⟩ token.raw sent speaks
  · cases e with
    | accountLookup message => exact .done trivial
    | _ => exact .fail

/-- What is limited runs what it does when it is within the limit. -/
theorem runs_limited {bucket identity : String} {next : Handler}
    (passed : next.Runs ok fun _ => True) :
  Service.Runs (Route.limited incoming bucket identity next) ok fun _ => True
  := runs_gated fun _ _ => passed

variable (api incoming)

/-- A route commits nothing but its own transactions. -/
theorem runs_program (route : Route) :
  Service.Runs (route.program api incoming) (route.Commits api incoming) fun _ => True
  := by
  cases route with
  | health => exact .done trivial
  | ready => exact .outcome .read (fun _ _ => .done trivial) fun _ => .done trivial
  | register body =>
      refine runs_limited (.validated trivial fun body valid => .andThen ?_ fun _ => .done trivial)
      refine .outcome (.perform nofun) (fun sub _ => ?_) fun e => ?_
      · exact .transaction' _ (.register valid) rfl
      · cases e with
        | emailTaken => exact .done trivial
        | _ => exact .fail
  | invitationPreview token => exact .andThen .read fun preview => .done trivial
  | account route =>
      unfold Route.program
      apply runs_authenticated
      · intro token sub email sent speaks
        exact .ensureAccount rfl sent speaks
      · intro user token sent speaks
        apply runs_accountRoute
        · intro work commits
          exact .account sent speaks commits
        · rintro rfl workspaceId
          exact .purgeProducts sent speaks
        · rintro rfl workspaceId
          exact .purgeRows sent speaks
  | workspace slug route =>
      unfold Route.program
      apply runs_authenticated
      · intro token sub email sent speaks
        exact .ensureAccount rfl sent speaks
      · intro user token sent speaks
        refine .andThen .read fun workspace => ?_
        refine (runs_workspaceRoute api ⟨workspace.id, workspace.slug⟩ user route).mono
          (fun work commits => ?_) fun _ => id
        exact .workspace sent speaks commits
  | products slug route =>
      unfold Route.program
      apply runs_authenticated
      · intro token sub email sent speaks
        exact .ensureAccount rfl sent speaks
      · intro user token sent speaks
        have passed : Service.Runs (Route.workspaceAccess (some (Route.productAction route)) slug
            user fun scope => Route.productRoute api scope route)
            ((Route.products slug route).Commits api incoming) fun _ => True := by
          refine .andThen .read fun workspace => ?_
          refine (runs_productRoute api ⟨workspace.id, workspace.slug⟩ route).mono
            (fun work commits => ?_) fun _ => id
          exact .products sent speaks commits
        unfold Route.limitedIn
        split
        · exact runs_limited passed
        · exact passed

/-- Whatever its requests are answered, a request that is served runs transactions that it may
run. -/
theorem runs_serve (route : Route) :
  Service.Runs (route.serve api incoming) (Work.Requested api incoming route) fun _ => True
  := by
  have handled (origin : ∀ secret, api.settings.originGuard = some secret →
      incoming.path ∈ unguardedPaths ∨ incoming.origin = secret) :
      Service.Runs (Route.handled (route.program api incoming))
        (Work.Requested api incoming route) fun _ => True := by
    have program : Service.Runs (route.program api incoming) (Work.Requested api incoming route)
        fun _ => True :=
      (runs_program api incoming route).mono (fun _ commits => ⟨commits, origin⟩) fun _ => id
    exact .outcome program (fun _ _ => .done trivial) fun _ => .done trivial
  unfold Route.serve Route.verifyOrigin
  split
  · next guard => exact handled fun secret hsecret => by rw [guard] at hsecret; cases hsecret
  · next secret guard =>
      split
      · exact .done trivial
      · next passed =>
          refine handled fun secret' hsecret => ?_
          obtain rfl : secret = secret' := Option.some.inj (guard.symm.trans hsecret)
          by_contra neither
          obtain ⟨guarded, other⟩ := not_or.mp neither
          exact passed ⟨guarded, other⟩

end Requests

/-! ### Requests that are served at once -/

section Served

variable {X : Type} {m : Setting μ X} {w w' : World X}

/-- A request of a use case leads from one session to another by transactions of its own or of
others. -/
theorem Request.Within.reaches {request : Request μ β} (within : request.Within ok)
    {y : Except Failure β} (answer : m.machine.Answers request w y w') :
  Reaches m.env (fun work => m.Others work ∨ ok work) w.session w'.session
  := by
  have others {s s' : Session} (h : Reaches m.env m.Others s s') :
      Reaches m.env (fun work => m.Others work ∨ ok work) s s' := h.mono fun _ => Or.inl
  by_cases attempts : request.Attempts
  · cases request with
    | attempt body =>
        obtain ⟨work, hok, hbody⟩ := within
        obtain ⟨_, s, meanwhile, ⟨a, s', rfl, returns, unique, rfl⟩ | ⟨e, rfl, rfl, _⟩⟩ :=
          Setting.answers_attempt answer
        · have returns' : Exec.Returns work.body m.env s () s' :=
            hbody ▸ Tx.returns_run'.mpr ⟨a, returns⟩
          exact .commit (others meanwhile) (Or.inr hok) returns' unique
        · exact others meanwhile
    | _ => exact attempts.elim
  · exact others (Setting.answers_quiet attempts answer).1

/-- However requests are served at once, the rows are reached by transactions that the requests
may run, and by those of others. -/
theorem Interleaved.reaches {ι : Type} [DecidableEq ι] {x₀ x : ι → Service μ α}
    (runs : ∀ i, (x₀ i).Runs ok fun _ => True)
    (run : Interleaved (fun _ => m.machine) x₀ w x w') :
  Reaches m.env (fun work => m.Others work ∨ ok work) w.session w'.session
    ∧ ∀ i, (x i).Runs ok fun _ => True
  := by
  induction run with
  | start => exact ⟨.refl, runs⟩
  | @step x w₁ w₂ i _ request next z run turn answer ih =>
      obtain ⟨reaches, left⟩ := ih
      have asks := left i
      rw [turn] at asks
      refine ⟨reaches.trans (asks.1.reaches answer), fun j => ?_⟩
      by_cases hj : j = i
      · subst hj
        rw [Function.update_self]
        exact asks.2 z
      · rw [Function.update_of_ne hj]
        exact left j

end Served

end MvpApi
