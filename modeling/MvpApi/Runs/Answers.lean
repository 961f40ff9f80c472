import MvpApi.Application.Refusals
import MvpApi.Application.Uploads
import MvpApi.Database.Cursors
import MvpApi.Infrastructure.Images
import MvpApi.Runs.Calls
import MvpApi.Safety.Standing

/-!
# What the use cases end with, whatever they are answered

`Answering` lets each request of a use case be answered on its own: a query or an attempt at a
transaction by what its body makes of any reachable rows, a service outside in any way, and all
of them by failures that are no `DomainError`s. `x.Meets good statuses` says that however the
requests of `x` are answered, `x` returns a value that is `good`, or fails; and that if it fails
with a `DomainError`, its status is in the list. There is one rule for each way of composing
programs, and one lemma for each use case.
-/

set_option autoImplicit false

namespace MvpApi

open Program Exec

variable {μ : Type → Type} {env : Env} {α β : Type}

/-! ### Answers -/

/-- What a request may be answered with. -/
inductive MayAnswer (env : Env) : {β : Type} → Request μ β → Except Failure β → Prop
  | read {β : Type} {query : Tx β} {s : Session} (rows : Reachable env (fun _ => True) s) :
      MayAnswer env (.read query) (query.run env s).1
  | attempt {β : Type} {body : Tx β} {s : Session} (rows : Reachable env (fun _ => True) s) :
      MayAnswer env (.attempt body) (body.run env s).1
  | outside {β : Type} {request : Request μ β} (outside : ¬ request.OfDatabase) (b : β) :
      MayAnswer env request (.ok b)
  | fault {β : Type} {request : Request μ β} {e : Failure} (fault : ∀ error, e ≠ .domain error) :
      MayAnswer env request (.error e)

/-- Each request is answered on its own. -/
def answering (μ : Type → Type) (env : Env) : Machine (Request μ) Failure Unit where
  Answers request _ y _ := MayAnswer env request y

/-- However far a program has come, it goes on to an end. -/
theorem answering_goesOn (x : Service μ α) :
  ∃ y, Ends (answering μ env) x () y ()
  := by
  have asks : x.Asks fun _ => True := by
    induction x with
    | ask request next ih => exact ⟨trivial, ih⟩
    | _ => trivial
  have answered : ∀ {β : Type} {request : Request μ β} (w : Unit), True →
      ∃ z w', (answering μ env).Answers request w z w' :=
    fun w _ => ⟨.error .concurrencyConflict, w, .fault fun _ heq => by cases heq⟩
  obtain ⟨y, _, run⟩ := exists_ends asks answered ()
  exact ⟨y, run⟩

/-- However its requests are answered, the use case returns what is `good`, or fails, and then
its `DomainError` has a status of the list. -/
def Service.Meets (env : Env) (x : Service μ α) (good : α → Prop) (statuses : List ℕ) : Prop :=
  Leads (answering μ env) x () fun y _ =>
    match y with
    | .ok a => good a
    | .error e => e.Within statuses

/-- A failure that is no `DomainError` has no status. -/
theorem Failure.Within.of_fault {statuses : List ℕ} {e : Failure} (h : ∀ error, e ≠ .domain error) :
  e.Within statuses
  := fun error he => absurd he (h error)

/-- The `DomainError`s that a request to the database is answered with are those of its body. -/
theorem MayAnswer.within {body : Tx β} {statuses : List ℕ} (refuses : body.Refuses statuses)
    {s : Session} {e : Failure} (h : (body.run env s).1 = .error e) :
  e.Within statuses
  := refuses env s e (body.run env s).2 (Prod.ext h rfl)

namespace Service.Meets

variable {good : α → Prop} {statuses : List ℕ} {x : Service μ α}

theorem mono {good' : α → Prop} {statuses' : List ℕ} (h : x.Meets env good statuses)
    (weaker : ∀ a, good a → good' a) (more : statuses ⊆ statuses') :
  x.Meets env good' statuses'
  := by
  refine Always.mono h fun y _ hy => ?_
  cases y with
  | ok a => exact weaker a hy
  | error e => exact hy.mono more

/-- More statuses. -/
theorem more {statuses' : List ℕ} (h : x.Meets env good statuses) (more : statuses ⊆ statuses') :
  x.Meets env good statuses'
  := h.mono (fun _ => id) more

theorem done {a : α} (h : good a) :
  Service.Meets env (.done a : Service μ α) good statuses
  := h

theorem fail {e : Failure} (h : e.Within statuses) :
  Service.Meets env (.fail e : Service μ α) good statuses
  := h

theorem ofExcept {z : Except Failure α} (returned : ∀ a, z = .ok a → good a)
    (failed : ∀ e, z = .error e → e.Within statuses) :
  Service.Meets env (Program.ofExcept z : Service μ α) good statuses
  := by
  cases z with
  | ok a => exact returned a rfl
  | error e => exact failed e rfl

/-- A check of the domain. -/
theorem checked {z : Except DomainError α}
    (h : ∀ error, z = .error error → statusFor error ∈ statuses) :
  Service.Meets env (Program.ofExcept (z.mapError Failure.domain) : Service μ α) (fun _ => True)
    statuses
  := by
  refine ofExcept (fun _ _ => trivial) fun e he error herror => ?_
  obtain ⟨error', hz, rfl⟩ := Except.mapError_eq_error.mp he
  obtain rfl := Failure.domain.inj herror
  exact h error' hz

theorem bind {f : α → Service μ β} {good' : β → Prop} (h : x.Meets env good statuses)
    (next : ∀ a, good a → (f a).Meets env good' statuses) :
  Service.Meets env (x >>= f) good' statuses
  := Always.bind h (fun a _ ha => next a ha) fun _ _ he => he

/-- Go on after a program of which it does not matter what it returns. -/
theorem andThen {f : α → Service μ β} {good' : β → Prop} (h : x.Meets env good statuses)
    (next : ∀ a, (f a).Meets env good' statuses) :
  Service.Meets env (x >>= f) good' statuses
  := h.bind fun a _ => next a

/-- A program that refuses nothing, before one that may. -/
theorem before {f : α → Service μ β} {p : DomainError → Prop} (h : x.Meets env good [])
    (next : ∀ a, Leads (answering μ env) (f a) () fun y _ =>
      ∀ error, y = .error (.domain error) → p error) :
  Leads (answering μ env) (x >>= f) () fun y _ => ∀ error, y = .error (.domain error) → p error
  := by
  refine Always.bind h (fun a _ _ => next a) fun e _ he error herror => ?_
  cases herror
  exact absurd (he error rfl) List.not_mem_nil

/-- Go on with what a program ends with, be it an error. -/
theorem outcome {g : Except Failure α → Service μ β} {good' : β → Prop} {statuses' : List ℕ}
    (h : x.Meets env good statuses) (returned : ∀ a, good a → (g (.ok a)).Meets env good' statuses')
    (failed : ∀ e, e.Within statuses → (g (.error e)).Meets env good' statuses') :
  Service.Meets env (x.outcome >>= g) good' statuses'
  := by
  refine Always.outcome_bind h fun y _ hy => ?_
  cases y with
  | ok a => exact returned a hy
  | error e => exact failed e hy

/-- What a request is answered with. -/
theorem answered {request : Request μ α}
    (h : ∀ y, MayAnswer env request y → match y with
      | .ok a => good a
      | .error e => e.Within statuses) :
  Service.Meets env (Program.perform request) good statuses
  := by
  refine ⟨trivial, fun y _ answer => ?_⟩
  cases y with
  | ok a => exact h _ answer
  | error e => exact h _ answer

theorem read {query : Tx α} (refuses : query.Refuses statuses) :
  Service.Meets env (read query : Service μ α) (fun _ => True) statuses
  := by
  refine answered fun y answer => ?_
  cases answer with
  | read rows =>
      cases h : (query.run env _).1 with
      | ok a => trivial
      | error e => exact MayAnswer.within refuses h
  | outside outside b => trivial
  | fault fault => exact .of_fault fault

theorem attempt {body : Tx α} (refuses : body.Refuses statuses) :
  Service.Meets env (Program.perform (.attempt body) : Service μ α) (fun _ => True) statuses
  := by
  refine answered fun y answer => ?_
  cases answer with
  | attempt rows =>
      cases h : (body.run env _).1 with
      | ok a => trivial
      | error e => exact MayAnswer.within refuses h
  | outside outside b => trivial
  | fault fault => exact .of_fault fault

/-- A service outside fails with no `DomainError`. -/
theorem perform {request : Request μ α} (outside : ¬ request.OfDatabase) :
  Service.Meets env (Program.perform request) (fun _ => True) statuses
  := by
  refine answered fun y answer => ?_
  cases answer with
  | read => exact absurd trivial outside
  | attempt => exact absurd trivial outside
  | outside outside b => trivial
  | fault fault => exact .of_fault fault

/-- Go on with what a service outside answers, be it an error. -/
theorem asked {request : Request μ α} {g : Except Failure α → Service μ β} {good' : β → Prop}
    (outside : ¬ request.OfDatabase) (returned : ∀ a, (g (.ok a)).Meets env good' statuses)
    (failed : ∀ e, e.Within [] → (g (.error e)).Meets env good' statuses) :
  Service.Meets env ((Program.perform request).outcome >>= g) good' statuses
  := outcome (perform outside) (fun a _ => returned a) failed

/-- A transaction refuses with what its body refuses with, in whichever attempt. -/
theorem transaction {body : Tx α} (refuses : body.Refuses statuses) :
  Service.Meets env (transaction body : Service μ α) (fun _ => True) statuses
  := by
  unfold MvpApi.transaction
  generalize UnitOfWork.attempts = left
  induction left with
  | zero => exact .fail (.of_fault nofun)
  | succ left ih =>
      refine outcome (.attempt refuses) (fun a _ => .done trivial) fun e he => ?_
      cases e with
      | integrity => exact .fail (.of_fault nofun)
      | database sqlstate cause =>
          dsimp only
          split
          · exact .fail he
          · split
            · exact .fail (.of_fault nofun)
            · exact ih
      | _ => exact .fail he

/-- What a unique violation is reported as is a conflict. -/
theorem duplicateAs {message : String} (h : x.Meets env good statuses) (conflict : 409 ∈ statuses) :
  Service.Meets env (duplicateAs message x) good statuses
  := by
  refine outcome h (fun a ha => .done ha) fun e he => ?_
  cases e with
  | duplicate =>
      refine .fail fun error herror => ?_
      cases herror
      exact conflict
  | _ => exact .fail he

end Service.Meets

/-! ### The storage of media -/

/-- A storage of media that refuses uploads as the API does. -/
structure MediaStorage.Sound (env : Env) (media : MediaStorage μ) : Prop where
  pendingSize : ∀ key, (media.pendingSize key).Meets env (fun _ => True) [404, 413]
  storeImage : ∀ key, (media.storeImage key).Meets env (fun _ => True) [404, 413, 415, 422]
  storeSquare : ∀ key, (media.storeSquare key).Meets env (fun _ => True) [404, 413, 415, 422]
  delete : ∀ key, (media.delete key).Meets env (fun _ => True) []

namespace Pillow

variable (pillow : Pillow) {data : List UInt8} {e : Failure}

theorem within_refused (error : PillowError) :
  error.refused.Within [415, 422]
  := by
  intro error' he
  cases error with
  | other message => cases he
  | _ =>
      cases he
      decide

theorem within_raised {statuses : List ℕ} (error : PillowError) :
  error.raised.Within statuses
  := by
  intro error' he
  cases error with
  | _ => cases he

/-- An upload that cannot be decoded is refused as no image, or for its type. -/
theorem within_openImage (h : pillow.openImage data = .error e) :
  e.Within [415, 422]
  := by
  unfold Pillow.openImage at h
  obtain h | ⟨⟨width, height⟩, _, h⟩ := Except.bind_eq_error.mp h
  · obtain ⟨error, _, rfl⟩ := Except.mapError_eq_error.mp h
    exact within_refused error
  · dsimp only at h
    split at h
    · cases h
      exact fun error' he => by cases he; decide
    · obtain h | ⟨image, _, h⟩ := Except.bind_eq_error.mp h
      · obtain ⟨error, _, rfl⟩ := Except.mapError_eq_error.mp h
        exact within_refused error
      · split at h
        · cases h
          exact fun error' he => by cases he; decide
        · obtain ⟨error, _, rfl⟩ := Except.mapError_eq_error.mp h
          exact within_raised error

theorem within_webp {statuses : List ℕ} {image : pillow.Image} (h : pillow.webp image = .error e) :
  e.Within statuses
  := by
  unfold Pillow.webp at h
  obtain ⟨error, _, rfl⟩ := Except.mapError_eq_error.mp h
  exact within_raised error

theorem within_renderImage {thumbnailSize : ℕ} (h : pillow.renderImage thumbnailSize data = .error e) :
  e.Within [415, 422]
  := by
  unfold Pillow.renderImage at h
  obtain h | ⟨image, _, h⟩ := Except.bind_eq_error.mp h
  · exact pillow.within_openImage h
  · obtain h | ⟨full, _, h⟩ := Except.bind_eq_error.mp h
    · exact pillow.within_webp h
    · obtain h | ⟨thumb, _, h⟩ := Except.bind_eq_error.mp h
      · exact pillow.within_webp h
      · exact absurd h Except.pure_ne_error

theorem within_renderSquare (h : pillow.renderSquare data = .error e) :
  e.Within [415, 422]
  := by
  unfold Pillow.renderSquare at h
  obtain h | ⟨image, _, h⟩ := Except.bind_eq_error.mp h
  · exact pillow.within_openImage h
  · exact pillow.within_webp h

end Pillow

namespace S3MediaStorage

variable (storage : S3MediaStorage)

theorem meets_delete (key : String) :
  (delete key).Meets env (fun _ => True) []
  := by
  refine .asked nofun (fun _ => .done trivial) fun e he => ?_
  cases e with
  | client code => exact .done trivial
  | _ => exact .fail he

/-- What the bucket refuses is at most a missing upload. -/
theorem within_raiseIfMissing {e : Failure} (h : e.Within []) :
  (raiseIfMissing e).Within [404]
  := by
  unfold raiseIfMissing
  split
  · split
    · exact fun error he => by cases he; decide
    · exact h.mono (List.nil_subset _)
  · exact h.mono (List.nil_subset _)

theorem meets_pending (uploadKey : String) :
  Service.Meets env (ofExcept (storage.pending uploadKey) : Service BucketRequest String)
    (fun _ => True) [404]
  := by
  refine .ofExcept (fun _ _ => trivial) fun e he => ?_
  unfold pending at he
  split at he
  · cases he
  · cases he
    exact fun error he => by cases he; decide

theorem meets_pendingSize (uploadKey : String) :
  (storage.pendingSize uploadKey).Meets env (fun _ => True) [404, 413]
  := by
  refine .andThen ((storage.meets_pending uploadKey).more (by decide)) fun key => ?_
  refine .asked nofun (fun size => ?_) fun e he => ?_
  · dsimp only
    split
    · refine .andThen ((meets_delete key).more (List.nil_subset _)) fun _ => .fail ?_
      exact fun error he => by cases he; decide
    · exact .done trivial
  · exact .fail ((within_raiseIfMissing he).mono (by decide))

theorem meets_readPending (uploadKey : String) :
  (storage.readPending uploadKey).Meets env (fun _ => True) [404, 413]
  := by
  refine .andThen (storage.meets_pendingSize uploadKey) fun _ => ?_
  refine .andThen ((storage.meets_pending uploadKey).more (by decide)) fun key => ?_
  refine .asked nofun (fun body => .done trivial) fun e he => ?_
  exact .fail ((within_raiseIfMissing he).mono (by decide))

theorem meets_drop (uploadKey : String) :
  (storage.drop uploadKey).Meets env (fun _ => True) [404]
  := .andThen (storage.meets_pending uploadKey) fun key => (meets_delete key).more (List.nil_subset _)

/-- The bucket is such a storage if uploads are refused by their contents with these statuses. -/
theorem sound
    (renderImage : ∀ data e, storage.renderImage data = .error e → e.Within [415, 422])
    (renderSquare : ∀ data e, storage.renderSquare data = .error e → e.Within [415, 422]) :
  storage.media.Sound env
  where
  pendingSize := storage.meets_pendingSize
  delete := meets_delete
  storeImage uploadKey := by
    refine .andThen ((storage.meets_readPending uploadKey).more (by decide)) fun original => ?_
    refine .andThen (.ofExcept (fun _ _ => trivial) fun e he =>
      (renderImage original e he).mono (by decide)) fun rendered => ?_
    refine .andThen (.perform nofun) fun name => .andThen (.perform nofun) fun _ => ?_
    refine .andThen (.perform nofun) fun _ => ?_
    exact .andThen ((storage.meets_drop uploadKey).more (by decide)) fun _ => .done trivial
  storeSquare uploadKey := by
    refine .andThen ((storage.meets_readPending uploadKey).more (by decide)) fun original => ?_
    refine .andThen (.ofExcept (fun _ _ => trivial) fun e he =>
      (renderSquare original e he).mono (by decide)) fun square => ?_
    refine .andThen (.perform nofun) fun name => .andThen (.perform nofun) fun _ => ?_
    exact .andThen ((storage.meets_drop uploadKey).more (by decide)) fun _ => .done trivial

theorem meets_presign (signer : PostSigner) (contentType : String) (allowed : List String) :
  (storage.presign signer contentType allowed).Meets env (fun _ => True) [415]
  := by
  refine .andThen (.ofExcept (fun _ _ => trivial) fun e he => ?_) fun _ =>
    .andThen (.perform nofun) fun _ => .done trivial
  split at he
  · cases he
  · cases he
    exact fun error he => by cases he; simp [statusFor_eq]

end S3MediaStorage

namespace MediaStorage

variable {media : MediaStorage μ} (sound : media.Sound env)

include sound

theorem meets_deleteAll (keys : List String) :
  (media.deleteAll keys).Meets env (fun _ => True) []
  := by
  induction keys with
  | nil => exact .done trivial
  | cons key keys ih => exact .andThen (sound.delete key) fun _ => ih

theorem meets_deleteSome (key : Option String) :
  (media.deleteSome key).Meets env (fun _ => True) []
  := by
  unfold deleteSome
  split
  · exact sound.delete _
  · exact .done trivial

theorem meets_storeSome (uploadKey : String) :
  (media.storeSome (some uploadKey)).Meets env (fun _ => True) [404, 413, 415, 422]
  := by
  unfold storeSome
  split
  · exact .andThen (sound.storeSquare _) fun _ => .done trivial
  · exact .done trivial

end MediaStorage

/-! ### Products -/

namespace ProductService

variable (service : ProductService μ) (sound : service.media.Sound env)

theorem meets_notify (action productId workspaceId : String) :
  (notify action productId workspaceId : Service μ Unit).Meets env (fun _ => True) []
  := .andThen (.read (.query _)) fun _ => .andThen (.perform nofun) fun _ => .perform nofun

theorem meets_update (workspaceId productId : String) (changes : ProductChanges)
    (ifMatch : Option Time) :
  (update workspaceId productId changes ifMatch : Service μ Product).Meets env (fun _ => True)
    [404, 412, 422]
  := .andThen (.transaction (ProductTx.refuses_update _ _ _ _)) fun _ =>
    .andThen ((meets_notify ..).more (List.nil_subset _)) fun _ => .done trivial

theorem meets_reorderImages (workspaceId productId : String) (imageIds : List String) :
  (reorderImages workspaceId productId imageIds : Service μ Product).Meets env (fun _ => True)
    [404, 422]
  := .andThen (.transaction (ProductTx.refuses_reorderImages _ _ _)) fun _ =>
    .andThen ((meets_notify ..).more (List.nil_subset _)) fun _ => .done trivial

theorem meets_get (workspaceId productId : String) :
  (get workspaceId productId : Service μ Product).Meets env (fun _ => True) [404]
  := .read (ProductTx.refuses_get _ _)

theorem meets_page (workspaceId : String) (query : ProductFilter) (number size : ℕ) :
  (page workspaceId query number size : Service μ (List Product × ℕ)).Meets env (fun _ => True) []
  := .read (.bind (.draw _) fun _ => .query _)

/-- A list from a cursor on is refused if the cursor is not valid. -/
theorem meets_after (python : Conversions) (workspaceId : String) (query : ProductFilter)
    (cursor : Option String) (size : ℕ) :
  (after (cursors python) workspaceId query cursor size
      : Service μ (List Product × Option String)).Meets env (fun _ => True) [422]
  := by
  refine .read (.bind (.draw _) fun env => ?_)
  dsimp only
  split
  · refine .bind (.check fun error herror => ?_) fun _ => .bind (.pure _) fun _ => .query _
    unfold cursors decodeCursor at herror
    dsimp only at herror
    split at herror
    · cases herror
    · cases herror
      decide
  · exact .bind (.pure _) fun _ => .query _

theorem meets_create (workspaceId name : String) (sku : Option String) (price : Price)
    (status : ProductStatus) (description : Option String) :
  (service.create workspaceId name sku price status description).Meets env (fun _ => True)
    [409, 422]
  := .andThen (.transaction (ProductTx.refuses_create _ _ _ _ _ _ _)) fun _ =>
    .andThen ((meets_notify ..).more (List.nil_subset _)) fun _ => .done trivial

/-- A ticket is refused for a product that is not there or has all its images, and for a type
that is not that of an image. -/
theorem meets_requestImageUpload (storage : S3MediaStorage) (signer : PostSigner)
    (workspaceId productId contentType : String) :
  (requestImageUpload storage signer workspaceId productId contentType).Meets env
    (fun _ => True) [404, 409, 415]
  := by
  refine .andThen (.read (.query _)) fun known => .andThen (.ofExcept (fun _ _ => trivial) ?_)
    fun _ => .andThen (.read (.query _)) fun count => .andThen (.checked fun error hroom => ?_)
      fun _ => (storage.meets_presign ..).more (by decide)
  · intro e he
    split at he
    · cases he
    · cases he
      exact fun error he => by cases he; decide
  · rw [ProductTx.refuses_ensureRoomForImageCount hroom]
    decide

include sound

theorem meets_discard (stored : StoredImage) :
  (service.discard stored).Meets env (fun _ => True) []
  := .andThen (sound.delete _) fun _ => sound.delete _

theorem meets_delete (workspaceId productId : String) :
  (service.delete workspaceId productId).Meets env (fun _ => True) [404]
  := .andThen (.transaction (ProductTx.refuses_delete _ _)) fun _ =>
    .andThen ((meets_notify ..).more (List.nil_subset _)) fun _ =>
      (MediaStorage.meets_deleteAll sound _).more (List.nil_subset _)

theorem meets_removeImage (workspaceId productId imageId : String) :
  (service.removeImage workspaceId productId imageId).Meets env (fun _ => True) [404]
  := .andThen (.transaction (ProductTx.refuses_removeImage _ _ _)) fun _ =>
    .andThen ((meets_notify ..).more (List.nil_subset _)) fun _ =>
      (MediaStorage.meets_deleteAll sound _).more (List.nil_subset _)

theorem meets_attach (workspaceId productId : String) (stored : StoredImage) (uploadKey : String) :
  (service.attach workspaceId productId stored uploadKey).Meets env (fun _ => True) [404, 409]
  := by
  have discard := (service.meets_discard sound stored).more (List.nil_subset [404, 409])
  refine .outcome (.transaction (ProductTx.refuses_attach _ _ _ _ _)) (fun image _ => ?_) fun e he => ?_
  · exact .andThen ((meets_notify ..).more (List.nil_subset _)) fun _ => .done trivial
  · cases e with
    | duplicate =>
        refine .andThen discard fun _ => .andThen (.read (.query _)) fun winner => ?_
        cases winner with
        | some winner => exact .done trivial
        | none => exact .fail he
    | _ => exact .andThen discard fun _ => .fail he

theorem meets_confirmImage (workspaceId productId uploadKey : String) :
  (service.confirmImage workspaceId productId uploadKey).Meets env (fun _ => True)
    [404, 409, 413, 415, 422]
  := by
  refine .andThen (.read (.query _)) fun known => .andThen (.ofExcept (fun _ _ => trivial) ?_)
    fun _ => .andThen (.read (.query _)) fun existing => ?_
  · intro e he
    split at he
    · cases he
    · cases he
      exact fun error he => by cases he; decide
  · cases existing with
    | some existing => exact .done trivial
    | none =>
        refine .andThen ((sound.pendingSize _).more (by decide)) fun size =>
          .andThen (.read (.query _)) fun used => .andThen (.checked fun error hroom => ?_)
            fun _ => .andThen (.read (.query _)) fun count =>
              .andThen (.checked fun error hroom => ?_) fun _ =>
                .andThen ((sound.storeImage _).more (by decide)) fun stored =>
                  (service.meets_attach sound ..).more (by decide)
        · rw [ProductTx.refuses_ensureRoomForBytes hroom]
          decide
        · rw [ProductTx.refuses_ensureRoomForImageCount hroom]
          decide

end ProductService

/-! ### Workspaces -/

namespace WorkspaceService

variable (service : WorkspaceService μ)

theorem meets_create (name slug userId : String) :
  (create name slug userId : Service μ WorkspaceView).Meets env (fun _ => True)
    [401, 403, 409, 422]
  := .duplicateAs (.transaction (WorkspaceTx.refuses_create _ _ _)) (by decide)

theorem meets_update (workspaceId name slug userId : String) :
  (update workspaceId name slug userId : Service μ WorkspaceView).Meets env (fun _ => True)
    [401, 403, 404, 409]
  := .duplicateAs ((Service.Meets.transaction (WorkspaceTx.refuses_update _ _ _ _)).more (by decide))
    (by decide)

theorem meets_saveRole (workspaceId : String) (roleId : Option String) (name userId : String) :
  (saveRole workspaceId roleId name userId : Service μ RoleView).Meets env (fun _ => True)
    [401, 403, 404, 409]
  := .duplicateAs
    ((Service.Meets.transaction (WorkspaceTx.refuses_saveRole _ _ _ _)).more (by decide))
    (by decide)

theorem meets_invite (workspaceId email roleId userId : String) :
  (service.invite workspaceId email roleId userId).Meets env (fun _ => True) [401, 403, 404, 409]
  := by
  refine .andThen (.transaction (WorkspaceTx.refuses_issue _ _ _ _)) fun issued => ?_
  exact .asked nofun (fun _ => .done trivial) fun _ _ => .done trivial

theorem meets_requestLogoUpload (storage : S3MediaStorage) (signer : PostSigner)
    (workspaceId userId contentType : String) :
  (requestLogoUpload storage signer workspaceId userId contentType).Meets env (fun _ => True)
    [401, 403, 415]
  := .andThen (.read ((refuses_require _ _ _).more (by decide))) fun _ =>
    (storage.meets_presign ..).more (by decide)

variable (sound : service.media.Sound env)

include sound

/-- A logo is refused for what its upload is refused for; to have none is not. -/
theorem meets_setLogo (workspaceId : String) (uploadKey : Option String) (userId : String)
    {statuses : List ℕ}
    (stored : (service.media.storeSome uploadKey).Meets env (fun _ => True) statuses)
    (denied : [401, 403, 404] ⊆ statuses) :
  (service.setLogo workspaceId uploadKey userId).Meets env (fun _ => True) statuses
  := by
  refine .andThen (.read ((refuses_require _ _ _).more
    (List.Subset.trans (by decide) denied))) fun _ => .andThen stored fun newKey => ?_
  refine .outcome (.transaction (WorkspaceTx.refuses_replaceLogo _ _ _ _)) (fun replaced _ => ?_)
    fun e he => ?_
  · exact .andThen ((MediaStorage.meets_deleteSome sound _).more (List.nil_subset _)) fun _ =>
      .done trivial
  · exact .andThen ((MediaStorage.meets_deleteSome sound _).more (List.nil_subset _)) fun _ =>
      .fail (he.mono denied)

end WorkspaceService

/-- A page for an invitation is refused only if the invitation is of no use. -/
theorem WorkspaceTx.meets_previewInvitation (token : String) :
  (read (WorkspaceTx.previewInvitation token) : Service μ InvitationPreview).Meets env
    (fun _ => True) [410]
  := by
  refine .answered fun y answer => ?_
  cases answer with
  | @read _ s rows =>
      cases h : ((WorkspaceTx.previewInvitation token).run env s).1 with
      | ok preview => trivial
      | error e =>
          obtain rfl := raises_previewInvitation rows.references (Prod.ext h rfl)
          exact fun error he => by cases he; simp [statusFor_eq]
  | outside outside b => trivial
  | fault fault => exact .of_fault fault

/-! ### Accounts -/

namespace WorkspacePurge

variable {media : MediaStorage μ} (sound : media.Sound env)

include sound

theorem meets_purgeProducts (workspaceId : String) (rounds : ℕ) :
  (purgeProducts media workspaceId rounds).Meets env (fun _ => True) []
  := by
  induction rounds with
  | zero => exact .fail (.of_fault nofun)
  | succ rounds ih =>
      refine .andThen (.transaction (PurgeTx.refuses_deleteBatch _ _)) fun batch =>
        .andThen (MediaStorage.meets_deleteAll sound _) fun _ => ?_
      split
      · exact .done trivial
      · exact ih

theorem meets_purge (rounds : ℕ) (workspaceId : String) :
  (purge media rounds workspaceId).Meets env (fun _ => True) []
  := .andThen (meets_purgeProducts sound workspaceId rounds) fun _ =>
    .andThen (.transaction (PurgeTx.refuses_purgeRows _)) fun logoKey =>
      MediaStorage.meets_deleteSome sound logoKey

theorem meets_purgeEach (rounds : ℕ) (workspaceIds : List String) :
  (purgeEach media rounds workspaceIds).Meets env (fun _ => True) []
  := by
  induction workspaceIds with
  | nil => exact .done trivial
  | cons workspaceId workspaceIds ih =>
      exact .andThen (meets_purge sound rounds workspaceId) fun _ => ih

end WorkspacePurge

namespace AccountService

variable (service : AccountService μ)

/-- The answer of the user pool is refused at most for the password. -/
theorem meets_register (email password displayName : String) (invitationToken : Option String) :
  (service.register email password displayName invitationToken).Meets env (fun _ => True) [422]
  := by
  refine .asked nofun (fun sub => ?_) fun e he => ?_
  · exact (Service.Meets.transaction (AccountTx.refuses_register _ _ _ _)).more (by decide)
  · cases e with
    | emailTaken => exact .done trivial
    | passwordRejected message =>
        exact .fail fun error he => by cases he; simp [statusFor_eq]
    | _ => exact .fail (he.mono (List.nil_subset _))

/-- An account is refused only if another account holds its email. -/
theorem leads_ensureAccount (sub accessToken : String) :
  Leads (answering μ env) (ensureAccount sub accessToken) () fun y _ =>
    ∀ error, y = .error (.domain error) → error = .conflict emailHeldByAnotherAccount
  := by
  refine Service.Meets.before (.read (.query _)) fun user => ?_
  cases user with
  | some user => exact fun error he => by cases he
  | none =>
      refine Service.Meets.before (.perform nofun) fun known =>
        Service.Meets.before (.ofExcept (fun _ _ => trivial) ?_) fun _ =>
          Service.Meets.before (.transaction (AccountTx.refuses_ensureAccount _ _)) fun _ =>
            Service.Meets.before (.read (.query _)) fun user => ?_
      · intro e he error herror
        split at he
        · cases he
        · cases he
          cases herror
      · cases user with
        | some user => exact fun error he => by cases he
        | none => exact fun error he => by cases he; rfl

theorem meets_rename (userId displayName : String) :
  (rename userId displayName : Service μ ProfileView).Meets env (fun _ => True) [401]
  := .andThen (.transaction (AccountTx.refuses_rename _ _)) fun _ =>
    .read ((AccountTx.refuses_view _).more (List.nil_subset _))

theorem meets_requestAvatarUpload (storage : S3MediaStorage) (signer : PostSigner)
    (userId contentType : String) :
  (requestAvatarUpload storage signer userId contentType).Meets env (fun _ => True) [401, 415]
  := .andThen (.read ((refuses_require_own userId (by decide) (by decide)).more (by decide)))
    fun _ => (storage.meets_presign ..).more (by decide)

variable (sound : service.media.Sound env)

include sound

/-- An avatar is refused for what its upload is refused for; to have none is not. -/
theorem meets_setAvatar (userId : String) (uploadKey : Option String) {statuses : List ℕ}
    (stored : (service.media.storeSome uploadKey).Meets env (fun _ => True) statuses)
    (denied : [401] ⊆ statuses) :
  (service.setAvatar userId uploadKey).Meets env (fun _ => True) statuses
  := by
  refine .andThen (.read ((refuses_require_own userId (by decide) (by decide)).more denied))
    fun _ => .andThen stored fun newKey => ?_
  refine .outcome (.transaction (AccountTx.refuses_replaceAvatar _ _ _)) (fun replaced _ => ?_)
    fun e he => ?_
  · exact .andThen ((MediaStorage.meets_deleteSome sound _).more (List.nil_subset _)) fun _ =>
      .read ((AccountTx.refuses_view _).more (List.nil_subset _))
  · exact .andThen ((MediaStorage.meets_deleteSome sound _).more (List.nil_subset _)) fun _ =>
      .fail (he.mono denied)

theorem meets_delete (rounds : ℕ) (userId : String) :
  (service.delete rounds userId).Meets env (fun _ => True) [401, 409]
  := by
  refine .andThen (.read (AccountTx.refuses_ensureDeletable _)) fun _ =>
    .andThen (.read (.query _)) fun workspaceIds =>
      .andThen ((WorkspacePurge.meets_purgeEach sound _ _).more (List.nil_subset _)) fun _ =>
        .andThen (.transaction (AccountTx.refuses_delete _)) fun user =>
          .andThen ((MediaStorage.meets_deleteSome sound _).more (List.nil_subset _)) fun _ => ?_
  exact .asked nofun (fun _ => .done trivial) fun _ _ => .done trivial

end AccountService

end MvpApi
