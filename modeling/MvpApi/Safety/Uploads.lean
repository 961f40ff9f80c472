import MvpApi.Application.Uploads
import MvpApi.Safety.Orphans

/-!
# The life of an upload

A client asks for a ticket, posts the form of the ticket to the bucket, and confirms the key of
the ticket. The keys that tickets are for are those that confirmations look for, and the sizes that
forms allow are those that confirmations accept: what was posted is found, it is turned into
objects under `media/`, and then it is gone, so that the ticket is of no more use.
-/

set_option autoImplicit false

namespace MvpApi

open Program Exec

/-! ### A bucket without faults -/

/-- The names of `uuid4().hex`. -/
def IsHex (name : String) : Prop :=
  name.toList.length = 32 ∧ ∀ c ∈ name.toList, c ∈ "0123456789abcdef".toList

instance (name : String) : Decidable (IsHex name) :=
  @instDecidableAnd _ _ inferInstance (List.decidableBAll _ name.toList)

/-- The objects of a bucket, and the names that have been drawn. -/
structure Depot where
  objects : Bucket
  drawn : List String

/-- How a bucket answers. A new name is hexadecimal, and nobody has drawn it before. -/
def Depot.Answers {β : Type} (request : Request BucketRequest β) (depot : Depot)
    (y : Except Failure β) (depot' : Depot) : Prop :=
  match β, request, y with
  | _, .media .uuid4, y => ∃ name, y = .ok name ∧ IsHex name ∧ name ∉ depot.drawn
      ∧ depot' = { depot with drawn := name :: depot.drawn }
  | _, request, y => depot'.drawn = depot.drawn
      ∧ Bucket.Answers request depot.objects y depot'.objects

/-- A bucket answers, and no request fails but as it does. -/
def uploading (env : Env) : Setting BucketRequest Depot := .alone env Depot.Answers

/-- A name that has been drawn stays drawn. -/
theorem uploading_drawn {env : Env} {β : Type} {request : Request BucketRequest β}
    {y : Except Failure β} {w w' : World Depot}
    (answer : (uploading env).machine.Answers request w y w') :
  w.outside.drawn ⊆ w'.outside.drawn
  := by
  by_cases outside : request.OfDatabase
  · obtain ⟨_, answer⟩ := answer
    cases answer with
    | outside _ elsewhere => exact absurd outside elsewhere
    | _ => exact List.Subset.refl _
  · obtain ⟨_, s, _, ⟨depot, answered, rfl⟩ | ⟨failed, _⟩⟩ :=
      Setting.answers_outside outside answer
    · revert answered
      cases request with
      | media request =>
          cases request with
          | uuid4 =>
              rintro ⟨name, _, _, _, rfl⟩
              exact List.subset_cons_self _ _
          | _ => exact fun answered => answered.1 ▸ List.Subset.refl _
      | _ => exact fun answered => answered.1 ▸ List.Subset.refl _
    · exact failed.elim

section Bucket

variable {env : Env} {β : Type} {w w' : World Depot}

/-- What the bucket answers. -/
theorem ends_media {request : BucketRequest β} {y : Except Failure β}
    (run : Ends (uploading env).machine (perform (.media request)) w y w') :
  Depot.Answers (.media request) w.outside y w'.outside
  := by
  obtain ⟨_, s, _, ⟨x, answer, rfl⟩ | ⟨failed, _⟩⟩ :=
    Setting.answers_outside id (ends_perform.mp run)
  · exact answer
  · exact failed.elim

/-- A program goes on with a new name. -/
theorem ends_uuid4 {α : Type} {f : String → Service BucketRequest α} {y : Except Failure α}
    (run : Ends (uploading env).machine (perform (.media .uuid4) >>= f) w y w') :
  ∃ name w₁, IsHex name ∧ name ∉ w.outside.drawn
    ∧ w₁.outside = { w.outside with drawn := name :: w.outside.drawn }
    ∧ Ends (uploading env).machine (f name) w₁ y w'
  := by
  obtain ⟨name, w₁, asked, rest⟩ | ⟨_, asked, _⟩ := ends_bind.mp run
  · obtain ⟨name', hname, hex, fresh, same⟩ := ends_media asked
    cases hname
    exact ⟨name, w₁, hex, fresh, same, rest⟩
  · obtain ⟨_, hname, _⟩ := ends_media asked
    cases hname

/-- A program goes on when an object is stored. -/
theorem ends_put {α : Type} {f : Unit → Service BucketRequest α} {key : String}
    {body : List UInt8} {y : Except Failure α}
    (run : Ends (uploading env).machine (S3MediaStorage.put key body >>= f) w y w') :
  ∃ w₁, w₁.outside.objects = Function.update w.outside.objects key (some body)
    ∧ Ends (uploading env).machine (f ()) w₁ y w'
  := by
  obtain ⟨_, w₁, asked, rest⟩ | ⟨_, asked, _⟩ := ends_bind.mp run
  · exact ⟨w₁, (ends_media asked).2.2, rest⟩
  · cases (ends_media asked).2.1

variable {storage : S3MediaStorage} {uploadKey : String} {body : List UInt8}

/-- An object is deleted. -/
theorem ends_deleted {key : String} {y : Except Failure Unit}
    (run : Ends (uploading env).machine (S3MediaStorage.delete key) w y w') :
  y = .ok () ∧ w'.outside.objects = Function.update w.outside.objects key none
  := by
  obtain ⟨z, w₁, asked, rest⟩ := ends_outcome_bind.mp run
  obtain ⟨rfl, deleted⟩ := (ends_media asked).2
  obtain ⟨rfl, rfl⟩ := ends_done.mp rest
  exact ⟨rfl, deleted⟩

/-- A program goes on when an upload is dropped. -/
theorem ends_dropped (isalnum : storage.isalnum uploadKey = true) {α : Type}
    {a : α} {y : Except Failure α}
    (run : Ends (uploading env).machine (storage.drop uploadKey >>= fun _ => .done a) w y w') :
  w'.outside.objects = Function.update w.outside.objects (uploadPrefix ++ uploadKey) none
    ∧ y = .ok a
  := by
  have drop : storage.drop uploadKey = S3MediaStorage.delete (uploadPrefix ++ uploadKey) := by
    unfold S3MediaStorage.drop S3MediaStorage.pending
    rw [if_pos isalnum]
    rfl
  rw [drop] at run
  obtain ⟨_, w₁, deleted, rest⟩ | ⟨_, deleted, _⟩ := ends_bind.mp run
  · obtain ⟨rfl, rfl⟩ := ends_done.mp rest
    exact ⟨(ends_deleted deleted).2, rfl⟩
  · cases (ends_deleted deleted).1

/-- The size of an upload that is there and not too large. -/
theorem ends_pendingSize (isalnum : storage.isalnum uploadKey = true)
    (stored : w.outside.objects (uploadPrefix ++ uploadKey) = some body)
    (small : body.length ≤ storage.maxBytes) {y : Except Failure ℕ}
    (run : Ends (uploading env).machine (storage.pendingSize uploadKey) w y w') :
  y = .ok body.length ∧ w'.outside.objects = w.outside.objects
  := by
  unfold S3MediaStorage.pendingSize S3MediaStorage.pending at run
  rw [if_pos isalnum] at run
  obtain ⟨z, w₁, asked, rest⟩ := ends_outcome_bind.mp run
  obtain ⟨rfl, same⟩ := (ends_media asked).2
  rw [stored] at rest
  dsimp only [Option.elim] at rest
  rw [if_neg (not_lt.mpr small)] at rest
  obtain ⟨rfl, rfl⟩ := ends_done.mp rest
  exact ⟨rfl, same⟩

/-- An upload that is not there. -/
theorem ends_pendingSize_missing (isalnum : storage.isalnum uploadKey = true)
    (missing : w.outside.objects (uploadPrefix ++ uploadKey) = none) {y : Except Failure ℕ}
    (run : Ends (uploading env).machine (storage.pendingSize uploadKey) w y w') :
  y = .error (.domain (.notFound uploadNotFound)) ∧ w'.outside.objects = w.outside.objects
  := by
  unfold S3MediaStorage.pendingSize S3MediaStorage.pending at run
  rw [if_pos isalnum] at run
  obtain ⟨z, w₁, asked, rest⟩ := ends_outcome_bind.mp run
  obtain ⟨rfl, same⟩ := (ends_media asked).2
  rw [missing] at rest
  obtain ⟨rfl, rfl⟩ := ends_fail.mp rest
  exact ⟨rfl, same⟩

/-- A program goes on with an upload that is there. -/
theorem ends_readPending {α : Type} {f : List UInt8 → Service BucketRequest α}
    (isalnum : storage.isalnum uploadKey = true)
    (stored : w.outside.objects (uploadPrefix ++ uploadKey) = some body)
    (small : body.length ≤ storage.maxBytes) {y : Except Failure α}
    (run : Ends (uploading env).machine (storage.readPending uploadKey >>= f) w y w') :
  ∃ w₁, w₁.outside.objects = w.outside.objects ∧ Ends (uploading env).machine (f body) w₁ y w'
  := by
  have found {z : Except Failure (List UInt8)} {w₁ : World Depot}
      (read : Ends (uploading env).machine (storage.readPending uploadKey) w z w₁) :
      z = .ok body ∧ w₁.outside.objects = w.outside.objects := by
    unfold S3MediaStorage.readPending S3MediaStorage.pending at read
    rw [if_pos isalnum] at read
    obtain ⟨size, w₂, sized, rest⟩ | ⟨_, sized, _⟩ := ends_bind.mp read
    · obtain ⟨_, same⟩ := ends_pendingSize isalnum stored small sized
      obtain ⟨z, w₃, asked, rest⟩ := ends_outcome_bind.mp rest
      obtain ⟨rfl, same'⟩ := (ends_media asked).2
      rw [same, stored] at rest
      obtain ⟨rfl, rfl⟩ := ends_done.mp rest
      exact ⟨rfl, same'.trans same⟩
    · cases (ends_pendingSize isalnum stored small sized).1
  obtain ⟨original, w₁, read, rest⟩ | ⟨_, read, _⟩ := ends_bind.mp run
  · obtain ⟨hread, same⟩ := found read
    cases hread
    exact ⟨w₁, same, rest⟩
  · cases (found read).1

/-- An upload that is not there is refused, and nothing changes. -/
theorem ends_readPending_missing {α : Type} {f : List UInt8 → Service BucketRequest α}
    (isalnum : storage.isalnum uploadKey = true)
    (missing : w.outside.objects (uploadPrefix ++ uploadKey) = none) {y : Except Failure α}
    (run : Ends (uploading env).machine (storage.readPending uploadKey >>= f) w y w') :
  y = .error (.domain (.notFound uploadNotFound)) ∧ w'.outside.objects = w.outside.objects
  := by
  obtain ⟨_, _, read, _⟩ | ⟨_, read, rfl⟩ := ends_bind.mp run
  · obtain ⟨_, _, sized, _⟩ | ⟨_, _, failed⟩ := ends_bind.mp read
    · cases (ends_pendingSize_missing isalnum missing sized).1
    · cases failed
  · obtain ⟨_, _, sized, _⟩ | ⟨_, sized, failed⟩ := ends_bind.mp read
    · cases (ends_pendingSize_missing isalnum missing sized).1
    · obtain ⟨hmissing, same⟩ := ends_pendingSize_missing isalnum missing sized
      cases failed
      cases hmissing
      exact ⟨rfl, same⟩

/-- An upload that cannot be rendered is refused, and nothing changes. -/
theorem ends_render_refused {α γ : Type} {f : γ → Service BucketRequest α}
    {render : List UInt8 → Except Failure γ} (isalnum : storage.isalnum uploadKey = true)
    (stored : w.outside.objects (uploadPrefix ++ uploadKey) = some body)
    (small : body.length ≤ storage.maxBytes) {e : Failure} (refused : render body = .error e)
    {y : Except Failure α}
    (run : Ends (uploading env).machine
      (storage.readPending uploadKey >>= fun original => ofExcept (render original) >>= f) w y w') :
  y = .error e ∧ w'.outside.objects = w.outside.objects
  := by
  obtain ⟨w₁, same, rest⟩ := ends_readPending isalnum stored small run
  rw [refused] at rest
  obtain ⟨rfl, rfl⟩ := ends_fail.mp rest
  exact ⟨rfl, same⟩

end Bucket

/-! ### From the ticket to the objects -/

@[simp]
theorem removeprefix_append (p s : String) :
  removeprefix (p ++ s) p = s
  := by
  have starts : startswith (p ++ s) p = true := by
    rw [startswith, String.toList_append, List.isPrefixOf_iff_prefix]
    exact List.prefix_append _ _
  rw [ removeprefix, if_pos starts, String.toList_append, List.drop_left, String.ofList_toList]

/-- The objects of a bucket after an upload has been turned into an image. -/
def Bucket.imageStored (bucket : Bucket) (uploadKey name : String) (full thumb : List UInt8) :
    Bucket :=
  Function.update (Function.update (Function.update bucket
    (mediaPrefix ++ name ++ ".webp") (some full))
    (mediaPrefix ++ name ++ "_thumb.webp") (some thumb)) (uploadPrefix ++ uploadKey) none

/-- The objects of a bucket after an upload has been turned into an avatar or a logo. -/
def Bucket.squareStored (bucket : Bucket) (uploadKey name : String) (square : List UInt8) :
    Bucket :=
  Function.update (Function.update bucket (mediaPrefix ++ name ++ ".webp") (some square))
    (uploadPrefix ++ uploadKey) none

/-- What a key is good for to store what is posted for an object of the policy, in any bucket. -/
structure Redeems (env : Env) (storage : S3MediaStorage) (policy : PostPolicy) (key : String) :
    Prop where
  /-- What has been posted is found, stored as an image and dropped. -/
  image {body full thumb : List UInt8} (allowed : body.length ≤ policy.most)
      (rendered : storage.renderImage body = .ok (full, thumb))
      {w w' : World Depot} (posted : w.outside.objects policy.key = some body)
      {y : Except Failure StoredImage}
      (run : Ends (uploading env).machine (storage.storeImage key) w y w') :
    ∃ name, y = .ok ⟨mediaPrefix ++ name ++ ".webp", mediaPrefix ++ name ++ "_thumb.webp",
        "image/webp", full.length⟩
      ∧ w'.outside.objects = w.outside.objects.imageStored key name full thumb
  /-- Or it is stored as an avatar or a logo. -/
  square {body square : List UInt8} (allowed : body.length ≤ policy.most)
      (rendered : storage.renderSquare body = .ok square)
      {w w' : World Depot} (posted : w.outside.objects policy.key = some body)
      {y : Except Failure String}
      (run : Ends (uploading env).machine (storage.storeSquare key) w y w') :
    ∃ name, y = .ok (mediaPrefix ++ name ++ ".webp")
      ∧ w'.outside.objects = w.outside.objects.squareStored key name square
  /-- What has been posted and is no image is refused, and stays until it expires. -/
  refused {body : List UInt8} (allowed : body.length ≤ policy.most) {e : Failure}
      {w w' : World Depot} (posted : w.outside.objects policy.key = some body) :
    (∀ y, storage.renderImage body = .error e →
        Ends (uploading env).machine (storage.storeImage key) w y w' →
          y = .error e ∧ w'.outside.objects = w.outside.objects)
      ∧ ∀ y, storage.renderSquare body = .error e →
        Ends (uploading env).machine (storage.storeSquare key) w y w' →
          y = .error e ∧ w'.outside.objects = w.outside.objects
  /-- If nothing has been posted, or no more is there, nothing is stored. -/
  missing {w w' : World Depot} (missing : w.outside.objects policy.key = none) :
    (∀ y, Ends (uploading env).machine (storage.storeImage key) w y w' →
        y = .error (.domain (.notFound uploadNotFound))
          ∧ w'.outside.objects = w.outside.objects)
      ∧ ∀ y, Ends (uploading env).machine (storage.storeSquare key) w y w' →
        y = .error (.domain (.notFound uploadNotFound))
          ∧ w'.outside.objects = w.outside.objects

/-- A key of letters and digits is good for the object of its name under `uploads/`. -/
theorem S3MediaStorage.redeems {env : Env} {storage : S3MediaStorage} {key : String}
    (isalnum : storage.isalnum key = true) {policy : PostPolicy}
    (hkey : policy.key = uploadPrefix ++ key) (most : policy.most = storage.maxBytes) :
  Redeems env storage policy key
  := by
  constructor
  · intro body full thumb allowed rendered w w' posted y run
    unfold S3MediaStorage.storeImage at run
    obtain ⟨w₁, same, rest⟩ := ends_readPending isalnum (hkey ▸ posted) (most ▸ allowed) run
    rw [rendered] at rest
    obtain ⟨name, w₂, _, _, same', rest⟩ := ends_uuid4 rest
    obtain ⟨w₃, full', rest⟩ := ends_put rest
    obtain ⟨w₄, thumb', rest⟩ := ends_put rest
    obtain ⟨gone, rfl⟩ := ends_dropped isalnum rest
    refine ⟨name, rfl, ?_⟩
    rw [gone, thumb', full', same', same]
    rfl
  · intro body square allowed rendered w w' posted y run
    unfold S3MediaStorage.storeSquare at run
    obtain ⟨w₁, same, rest⟩ := ends_readPending isalnum (hkey ▸ posted) (most ▸ allowed) run
    rw [rendered] at rest
    obtain ⟨name, w₂, _, _, same', rest⟩ := ends_uuid4 rest
    obtain ⟨w₃, square', rest⟩ := ends_put rest
    obtain ⟨gone, rfl⟩ := ends_dropped isalnum rest
    refine ⟨name, rfl, ?_⟩
    rw [gone, square', same', same]
    rfl
  · intro body allowed e w w' posted
    constructor
    · intro y refused run
      exact ends_render_refused isalnum (hkey ▸ posted) (most ▸ allowed) refused run
    · intro y refused run
      exact ends_render_refused isalnum (hkey ▸ posted) (most ▸ allowed) refused run
  · intro w w' missing
    constructor
    · intro y run
      exact ends_readPending_missing isalnum (hkey ▸ missing) run
    · intro y run
      exact ends_readPending_missing isalnum (hkey ▸ missing) run

/-- What is given with a ticket, in a run from `w` to `w'`. -/
structure UploadTicket.Issued (env : Env) (storage : S3MediaStorage) (signer : PostSigner)
    (contentType : String) (w w' : World Depot) (policy : PostPolicy) (ticket : UploadTicket) :
    Prop where
  /-- The form is for one object of the bucket that is configured, of the type that was asked for,
  with a byte at least and at most as many as the ticket says. -/
  form : (ticket.url, ticket.fields) = signer.generatePresignedPost policy
  bucket : policy.bucket = signer.bucket
  contentType : policy.contentType = contentType
  expiresIn : policy.expiresIn = ticket.expiresIn
  least : policy.least = 1
  most : policy.most = ticket.maxBytes
  /-- Nothing has changed, but the name of the object is drawn, and nobody has drawn it before. -/
  same : w'.outside.objects = w.outside.objects
  fresh : ticket.key ∉ w.outside.drawn
  drawn : ticket.key ∈ w'.outside.drawn
  /-- The key of the ticket is good for what is posted with the form, and when that has been stored
  there is no such object any more. -/
  redeems : Redeems env storage policy ticket.key
  imageSpent (bucket : Bucket) (name : String) (full thumb : List UInt8) :
    bucket.imageStored ticket.key name full thumb policy.key = none
  squareSpent (bucket : Bucket) (name : String) (square : List UInt8) :
    bucket.squareStored ticket.key name square policy.key = none

section Tickets

variable {env : Env} {storage : S3MediaStorage} {signer : PostSigner} {contentType : String}
  {allowed : List String} {w w' : World Depot}

/-- A ticket that is asked for is issued, for a type that is allowed. -/
theorem presign_issues (names : ∀ name, IsHex name → storage.isalnum name = true)
    {ticket : UploadTicket}
    (run : Ends (uploading env).machine (storage.presign signer contentType allowed) w
      (.ok ticket) w') :
  contentType ∈ allowed ∧ ∃ policy, ticket.Issued env storage signer contentType w w' policy
  := by
  unfold S3MediaStorage.presign at run
  by_cases htype : contentType ∈ allowed
  · rw [if_pos htype] at run
    obtain ⟨name, w₁, hex, fresh, same, rest⟩ := ends_uuid4 run
    obtain ⟨hticket, rfl⟩ := ends_done.mp rest
    cases hticket
    have key : removeprefix (uploadPrefix ++ name) uploadPrefix = name := removeprefix_append _ _
    refine ⟨htype, storage.policy signer (uploadPrefix ++ name) contentType, ?_⟩
    constructor
    case same => rw [same]
    case fresh => rwa [key]
    case drawn =>
      rw [key, same]
      exact List.mem_cons_self
    case redeems =>
      rw [key]
      exact S3MediaStorage.redeems (names name hex) rfl rfl
    case imageSpent =>
      intro bucket name' full thumb
      rw [key]
      exact Function.update_self _ _ _
    case squareSpent =>
      intro bucket name' square
      rw [key]
      exact Function.update_self _ _ _
    all_goals rfl
  · rw [if_neg htype] at run
    cases (ends_fail.mp run).1

/-- What a call that asks for a ticket is about to do: it has not drawn the name yet, it has been
refused, or it has its ticket. -/
inductive S3MediaStorage.Presigning (storage : S3MediaStorage) (signer : PostSigner)
    (drawn : List String) : Service BucketRequest UploadTicket → Prop
  | asking (contentType : String) (allowed : List String) :
      Presigning storage signer drawn (storage.presign signer contentType allowed)
  | refused (e : Failure) : Presigning storage signer drawn (.fail e)
  | issued (ticket : UploadTicket) (key : ticket.key ∈ drawn) :
      Presigning storage signer drawn (.done ticket)

/-- A ticket is not issued before its name is drawn. -/
theorem S3MediaStorage.presign_ne_done {ticket : UploadTicket} :
  storage.presign signer contentType allowed ≠ .done ticket
  := by
  intro h
  unfold S3MediaStorage.presign at h
  by_cases htype : contentType ∈ allowed
  · rw [if_pos htype] at h
    cases h
  · rw [if_neg htype] at h
    cases h

theorem S3MediaStorage.Presigning.key_mem {drawn : List String} {ticket : UploadTicket}
    (h : storage.Presigning signer drawn (.done ticket)) :
  ticket.key ∈ drawn
  := by
  generalize hx : Program.done ticket = x at h
  cases h with
  | asking => exact absurd hx.symm S3MediaStorage.presign_ne_done
  | refused => cases hx
  | issued ticket' key =>
      cases hx
      exact key

theorem S3MediaStorage.Presigning.mono {drawn drawn' : List String}
    {x : Service BucketRequest UploadTicket} (h : storage.Presigning signer drawn x)
    (more : drawn ⊆ drawn') :
  storage.Presigning signer drawn' x
  := by
  cases h with
  | asking contentType allowed => exact .asking contentType allowed
  | refused e => exact .refused e
  | issued ticket key => exact .issued ticket (more key)

/-- A call that goes on has drawn a new name, and has its ticket then. -/
theorem S3MediaStorage.Presigning.step {β : Type} {request : Request BucketRequest β}
    {next : Except Failure β → Service BucketRequest UploadTicket} {z : Except Failure β}
    (h : storage.Presigning signer w.outside.drawn (.ask request next))
    (answer : (uploading env).machine.Answers request w z w') :
  ∃ ticket : UploadTicket, next z = .done ticket ∧ ticket.key ∉ w.outside.drawn
    ∧ ticket.key ∈ w'.outside.drawn
  := by
  generalize hx : Program.ask request next = x at h
  cases h with
  | asking contentType allowed =>
      unfold S3MediaStorage.presign at hx
      by_cases htype : contentType ∈ allowed
      · rw [if_pos htype] at hx
        cases hx
        obtain ⟨_, s, _, ⟨x, ⟨name, rfl, _, fresh, rfl⟩, rfl⟩ | ⟨failed, _⟩⟩ :=
          Setting.answers_outside id answer
        · have key : removeprefix (uploadPrefix ++ name) uploadPrefix = name :=
            removeprefix_append _ _
          refine ⟨_, rfl, ?_, ?_⟩
          · show removeprefix (uploadPrefix ++ name) uploadPrefix ∉ w.outside.drawn
            rwa [key]
          · show removeprefix (uploadPrefix ++ name) uploadPrefix ∈ name :: w.outside.drawn
            rw [key]
            exact List.mem_cons_self
        · exact failed.elim
      · rw [if_neg htype] at hx
        cases hx
  | refused => cases hx
  | issued => cases hx

/-- However two tickets are asked for at once, among any other calls, their keys differ. -/
theorem tickets_differ {ι : Type} [DecidableEq ι] {x₀ x : ι → Service BucketRequest UploadTicket}
    {i j : ι} (apart : i ≠ j) {typeᵢ typeⱼ : String} {allowedᵢ allowedⱼ : List String}
    (asks : x₀ i = storage.presign signer typeᵢ allowedᵢ)
    (asks' : x₀ j = storage.presign signer typeⱼ allowedⱼ)
    (run : Interleaved (fun _ => (uploading env).machine) x₀ w x w')
    {ticket ticket' : UploadTicket} (issued : x i = .done ticket) (issued' : x j = .done ticket') :
  ticket.key ≠ ticket'.key
  := by
  have invariant : storage.Presigning signer w'.outside.drawn (x i)
      ∧ storage.Presigning signer w'.outside.drawn (x j)
      ∧ ∀ ticket ticket', x i = .done ticket → x j = .done ticket' →
          ticket.key ≠ ticket'.key := by
    clear issued issued'
    induction run with
    | start =>
        refine ⟨asks ▸ .asking _ _, asks' ▸ .asking _ _, fun ticket ticket' issued _ => ?_⟩
        exact absurd (asks.symm.trans issued) S3MediaStorage.presign_ne_done
    | @step x w₁ w₂ k _ request next z run turn answer ih =>
        obtain ⟨first, second, differ⟩ := ih
        have more : w₁.outside.drawn ⊆ w₂.outside.drawn := uploading_drawn answer
        by_cases hi : k = i
        · subst hi
          rw [turn] at first
          obtain ⟨ticket, hticket, fresh, drawn⟩ := first.step answer
          rw [Function.update_self, Function.update_of_ne apart.symm, hticket]
          refine ⟨.issued ticket drawn, second.mono more, fun t t' issued issued' same => ?_⟩
          cases issued
          rw [issued'] at second
          exact fresh (same ▸ second.key_mem)
        · rw [Function.update_of_ne (Ne.symm hi)]
          by_cases hj : k = j
          · subst hj
            rw [turn] at second
            obtain ⟨ticket, hticket, fresh, drawn⟩ := second.step answer
            rw [Function.update_self, hticket]
            refine ⟨first.mono more, .issued ticket drawn, fun t t' issued issued' same => ?_⟩
            cases issued'
            rw [issued] at first
            exact fresh (same ▸ first.key_mem)
          · rw [Function.update_of_ne (Ne.symm hj)]
            exact ⟨first.mono more, second.mono more, differ⟩
  exact invariant.2.2 _ _ issued issued'

/-- A ticket that is asked for changes nothing, and is for one object that is fresh: however tickets
are asked for at once, no two have the same key. What is posted with its form is stored with its
key, as an image or as a square, and is gone then. -/
theorem upload_lifecycle (names : ∀ name, IsHex name → storage.isalnum name = true) :
  (∀ {w w' : World Depot} {ticket : UploadTicket},
      Ends (uploading env).machine (storage.presign signer contentType allowed) w (.ok ticket) w' →
      contentType ∈ allowed ∧ ∃ policy, ticket.Issued env storage signer contentType w w' policy)
    ∧ ∀ {ι : Type} [DecidableEq ι] {x₀ x : ι → Service BucketRequest UploadTicket} {i j : ι}
        {typeᵢ typeⱼ : String} {allowedᵢ allowedⱼ : List String} {w w' : World Depot}
        {ticket ticket' : UploadTicket}, i ≠ j →
        x₀ i = storage.presign signer typeᵢ allowedᵢ →
        x₀ j = storage.presign signer typeⱼ allowedⱼ →
        Interleaved (fun _ => (uploading env).machine) x₀ w x w' →
        x i = .done ticket → x j = .done ticket' → ticket.key ≠ ticket'.key
  := by
  constructor
  · exact presign_issues names
  · intro ι _ x₀ x i j typeᵢ typeⱼ allowedᵢ allowedⱼ w w' ticket ticket' apart asks asks' run
    exact tickets_differ apart asks asks' run

end Tickets

/-- Two tickets, for a picture each. -/
theorem upload_lifecycle_of_png :
  ∃ (storage : S3MediaStorage) (signer : PostSigner) (w w₁ w₂ : World Depot)
    (policy : PostPolicy) (x : Bool → Service BucketRequest UploadTicket)
    (ticket ticket' : UploadTicket),
    ticket.Issued .sample storage signer "image/png" w w₁ policy
      ∧ policy.key = "uploads/0123456789abcdef0123456789abcdef" ∧ ticket.maxBytes = 1000
      ∧ Interleaved (fun _ => (uploading .sample).machine)
          (fun _ => storage.presign signer "image/png" productImageTypes) w x w₂
      ∧ x true = .done ticket ∧ x false = .done ticket' ∧ ticket.key ≠ ticket'.key
  := by
  let storage : S3MediaStorage :=
    { S3MediaStorage.sample with isalnum := fun s => s.toList.all Char.isAlphanum }
  let signer : PostSigner := ⟨"media", fun policy => (policy.key, [])⟩
  let name := "0123456789abcdef0123456789abcdef"
  let name' := "fedcba9876543210fedcba9876543210"
  let w : World Depot := ⟨.start, ⟨fun _ => none, []⟩, []⟩
  let w₁ : World Depot := ⟨.start, ⟨fun _ => none, [name]⟩, []⟩
  let w₂ : World Depot := ⟨.start, ⟨fun _ => none, [name', name]⟩, []⟩
  let ticketOf (name : String) : UploadTicket :=
    ⟨"uploads/" ++ name, [], removeprefix ("uploads/" ++ name) uploadPrefix, 1000, 600⟩
  have names : ∀ name, IsHex name → storage.isalnum name = true := by
    intro name hex
    have digits : "0123456789abcdef".toList.all Char.isAlphanum = true := by decide
    exact List.all_eq_true.mpr fun c hc => List.all_eq_true.mp digits c (hex.2 c hc)
  have draws : (uploading .sample).machine.Answers (Request.media .uuid4) w (.ok name) w₁ :=
    ⟨trivial, .outside .refl id ⟨name, rfl, by decide, by decide, rfl⟩⟩
  have draws' : (uploading .sample).machine.Answers (Request.media .uuid4) w₁ (.ok name') w₂ :=
    ⟨trivial, .outside .refl id ⟨name', rfl, by decide, by decide, rfl⟩⟩
  have run : Ends (uploading .sample).machine
      (storage.presign signer "image/png" productImageTypes) w (.ok (ticketOf name)) w₁ :=
    .ask draws (.done _ _)
  have run' : Ends (uploading .sample).machine
      (storage.presign signer "image/png" productImageTypes) w₁ (.ok (ticketOf name')) w₂ :=
    .ask draws' (.done _ _)
  have first : Interleaved (fun _ => (uploading .sample).machine)
      (fun _ => storage.presign signer "image/png" productImageTypes) w
      (Function.update (fun _ => storage.presign signer "image/png" productImageTypes) true
        (ofExcept (.ok (ticketOf name)))) w₁ :=
    Interleaved.start.ends (i := true) rfl run
  have both := first.ends (i := false) rfl run'
  obtain ⟨_, policy, issued⟩ := (upload_lifecycle names).1 run
  have key : policy.key = "uploads/" ++ name := (Prod.mk.inj issued.form).1.symm
  refine ⟨storage, signer, w, w₁, w₂, policy, _, _, _, issued, key, rfl, both, rfl, rfl, ?_⟩
  have asks : storage.presign signer "image/png" productImageTypes
      = storage.presign signer "image/png" productImageTypes := rfl
  have issues := @upload_lifecycle .sample storage signer "image/png" productImageTypes names
  exact issues.2 (i := true) (j := false) Bool.noConfusion asks asks both rfl rfl

end MvpApi
