import MvpApi.Library.Faults
import MvpApi.Safety.Authorization

/-!
# What a failed confirmation leaves behind

An upload is confirmed by a program that stores two objects, drops the upload, inserts a row, and
tells the members of the workspace. It deletes the objects again if the insertion fails. So there
are three places where a single fault leaves something behind: when the second object is stored,
when the upload is dropped, and when the members are looked up; a fault anywhere else leaves the
images and their objects as they were.
-/

set_option autoImplicit false

namespace MvpApi

open Program Exec

/-! ### The bucket -/

/-- The objects of a bucket, by their keys. -/
abbrev Bucket := String → Option (List UInt8)

/-- How a bucket answers, and what else is asked outside the database. A new name is one that no
object has. -/
def Bucket.Answers {β : Type} (request : Request BucketRequest β) (bucket : Bucket)
    (y : Except Failure β) (bucket' : Bucket) : Prop :=
  match β, request, y with
  | _, .media (.headObject key), y =>
      y = (bucket key).elim (.error (.client "404")) (.ok ·.length) ∧ bucket' = bucket
  | _, .media (.getObject key), y =>
      y = (bucket key).elim (.error (.client "NoSuchKey")) .ok ∧ bucket' = bucket
  | _, .media (.putObject key body), y =>
      y = .ok () ∧ bucket' = Function.update bucket key (some body)
  | _, .media (.deleteObject key), y => y = .ok () ∧ bucket' = Function.update bucket key none
  | _, .media .uuid4, y => ∃ name, y = .ok name ∧ bucket' = bucket
      ∧ ∀ key, startswith key (mediaPrefix ++ name) = true → bucket key = none
  | _, .now, y => (∃ time, y = .ok time) ∧ bucket' = bucket
  | _, .publish _ _, y => y = .ok () ∧ bucket' = bucket
  | _, _, _ => False

/-- The kinds of requests of a confirmation. -/
inductive RequestKind where
  | read
  | attempt
  | head
  | get
  | put
  | delete
  | other
deriving DecidableEq, Repr

def Request.kind {β : Type} : Request BucketRequest β → RequestKind
  | .read _ => .read
  | .attempt _ => .attempt
  | .media (.headObject _) => .head
  | .media (.getObject _) => .get
  | .media (.putObject _ _) => .put
  | .media (.deleteObject _) => .delete
  | _ => .other

/-- The requests that may fail: those to the database, and those to the bucket except to delete an
object under `media/`. -/
def Request.MayFail {β : Type} : Request BucketRequest β → Prop
  | .read _ => True
  | .attempt _ => True
  | .media (.headObject _) => True
  | .media (.getObject _) => True
  | .media (.putObject _ _) => True
  | .media (.deleteObject key) => startswith key mediaPrefix = false
  | _ => False

/-- A call runs alone with a bucket, and one of its requests may fail. -/
def confirming (env : Env) : Machine (Request BucketRequest) Failure
    (Faulty RequestKind Failure (World Bucket)) :=
  (Setting.alone env Bucket.Answers).machine.withFault Request.kind Request.MayFail

/-! ### What a fault leaves behind -/

/-- A fault that nobody undoes: the second object cannot be stored; the upload cannot be dropped
for another reason than that the bucket refuses; or the image is inserted, and the members cannot
be looked up. -/
def Fault.Uncompensated (fault : Fault RequestKind Failure) : Prop :=
  (fault.after = some .put
    ∧ (fault.kind = .put ∨ fault.kind = .delete ∧ ∀ code, fault.error ≠ .client code))
  ∨ fault.after = some .attempt ∧ fault.kind = .read

/-- The images are the same, and so are the objects under `media/`. -/
def Unchanged (w w' : World Bucket) : Prop :=
  w'.db.images = w.db.images
    ∧ ∀ key, startswith key mediaPrefix = true → w'.outside key = w.outside key

section Confirmation

variable {env : Env} {storage : S3MediaStorage} {w : World Bucket}
  {v v' : Faulty RequestKind Failure (World Bucket)}

/-- What has failed so far was undone. -/
def Compensated (v : Faulty RequestKind Failure (World Bucket)) : Prop :=
  ∀ fault ∈ v.fault, ¬ Fault.Uncompensated fault

/-- Something is left behind exactly if a fault was not undone. -/
def Settled (w : World Bucket) (v : Faulty RequestKind Failure (World Bucket)) : Prop :=
  Unchanged w v.world ↔ Compensated v

/-- Nothing has happened that had to be undone. -/
structure Untouched (w : World Bucket) (v : Faulty RequestKind Failure (World Bucket)) : Prop where
  unchanged : Unchanged w v.world
  compensated : Compensated v
  last : v.last ≠ some .put ∧ v.last ≠ some .attempt

theorem Untouched.settled (h : Untouched w v) :
  Settled w v
  := ⟨fun _ => h.compensated, fun _ => h.unchanged⟩

/-- The bucket answers, and the rows stay. -/
theorem answers_bucket {β : Type} {request : Request BucketRequest β} {y : Except Failure β}
    {w w' : World Bucket} (outside : ¬ request.OfDatabase)
    (h : (Setting.alone env Bucket.Answers).machine.Answers request w y w') :
  w'.db = w.db ∧ Bucket.Answers request w.outside y w'.outside
  := by
  obtain ⟨_, s, alone, ⟨x, answer, rfl⟩ | ⟨fails, _⟩⟩ := Setting.answers_outside outside h
  · exact ⟨alone.idle fun _ => id, answer⟩
  · exact fails.elim

/-- Uploads are not under `media/`. -/
theorem startswith_uploads (uploadKey : String) :
  startswith (uploadPrefix ++ uploadKey) mediaPrefix = false
  := by
  rw [startswith, String.toList_append]
  rfl

/-! ### Requests that leave everything as it is -/

/-- The requests that change neither the images nor the objects under `media/`. -/
def Request.Prepares {β : Type} : Request BucketRequest β → Prop
  | .read _ => True
  | .media (.headObject _) => True
  | .media (.getObject _) => True
  | .media (.deleteObject key) => startswith key mediaPrefix = false
  | _ => False

/-- A fault at a request that follows neither an attempt nor the storing of an object leaves
nothing behind. -/
theorem Untouched.fail (h : Untouched w v) {kind : RequestKind} {e : Failure}
    {fault : Option (Fault RequestKind Failure)} (fails : fault = some ⟨v.last, kind, e⟩) :
  ∀ f ∈ fault, ¬ Fault.Uncompensated f
  := by
  subst fails
  rintro f ⟨⟩
  exact not_or.mpr ⟨fun h' => h.last.1 h'.1, fun h' => h.last.2 h'.1⟩

theorem Untouched.answers (h : Untouched w v) {β : Type} {request : Request BucketRequest β}
    {y : Except Failure β} (prepares : request.Prepares)
    (answer : (confirming env).Answers request v y v') :
  Untouched w v'
  := by
  have last : some request.kind ≠ some .put ∧ some request.kind ≠ some .attempt := by
    cases request with
    | read => exact ⟨by simp [Request.kind], by simp [Request.kind]⟩
    | media request =>
        cases request with
        | putObject => exact prepares.elim
        | _ => exact ⟨by simp [Request.kind], by simp [Request.kind]⟩
    | _ => exact prepares.elim
  obtain ⟨w', hanswer, rfl⟩ | ⟨e, _, _, _, rfl⟩ := Machine.answers_withFault answer
  · refine ⟨?_, h.compensated, last⟩
    cases request with
    | read query =>
        obtain ⟨s, alone, rfl, _⟩ := Setting.answers_read hanswer
        have hdb : s.db = v.world.db := alone.idle fun _ => id
        exact ⟨by rw [← h.unchanged.1, ← hdb]; rfl, h.unchanged.2⟩
    | media request =>
        obtain ⟨hdb, hbucket⟩ := answers_bucket id hanswer
        refine ⟨by rw [hdb]; exact h.unchanged.1, fun key hkey => ?_⟩
        rw [← h.unchanged.2 key hkey]
        show w'.outside key = v.world.outside key
        cases request with
        | deleteObject key' =>
            rw [hbucket.2, Function.update_of_ne]
            rintro rfl
            rw [Request.Prepares, hkey] at prepares
            cases prepares
        | headObject => rw [hbucket.2]
        | getObject => rw [hbucket.2]
        | _ => exact prepares.elim
    | _ => exact prepares.elim
  · exact ⟨h.unchanged, h.fail rfl, last⟩

/-- A program that asks for nothing else leaves nothing behind. -/
theorem leads_untouched {α : Type} {x : Service BucketRequest α} (asks : x.Asks Request.Prepares)
    (h : Untouched w v) :
  x.Leads (confirming env) v fun _ v' => Untouched w v'
  := Always.of_asks asks (fun _ _ => trivial) (fun prepares h answer => h.answers prepares answer) h

/-- To delete an upload leaves nothing behind. -/
theorem asks_deleteUpload (uploadKey : String) :
  (S3MediaStorage.delete (uploadPrefix ++ uploadKey)).Asks Request.Prepares
  := by
  refine (Asks.outcome (Asks.perform (startswith_uploads uploadKey))).bind fun y => ?_
  rcases y with e | _
  · cases e with
    | _ => trivial
  · trivial

theorem asks_pendingSize (uploadKey : String) :
  (storage.pendingSize uploadKey).Asks Request.Prepares
  := by
  unfold S3MediaStorage.pendingSize S3MediaStorage.pending
  split
  · simp only [Program.ofExcept, done_bind]
    refine (Asks.outcome (Asks.perform trivial)).bind fun y => ?_
    rcases y with e | size
    · trivial
    · dsimp only
      split
      · exact (asks_deleteUpload uploadKey).bind fun _ => trivial
      · trivial
  · trivial

theorem asks_readPending (uploadKey : String) :
  (storage.readPending uploadKey).Asks Request.Prepares
  := by
  unfold S3MediaStorage.readPending
  refine (asks_pendingSize uploadKey).bind fun _ => Asks.ofExcept.bind fun key => ?_
  refine (Asks.outcome (Asks.perform trivial)).bind fun y => ?_
  rcases y with e | body
  · trivial
  · trivial

/-! ### Storing the objects -/

/-- The two objects of an image are stored, and nothing else has changed. -/
structure Staged (w : World Bucket) (stored : StoredImage)
    (v : Faulty RequestKind Failure (World Bucket)) : Prop where
  images : v.world.db.images = w.db.images
  media : startswith stored.key mediaPrefix = true ∧ startswith stored.thumbKey mediaPrefix = true
  fresh : w.outside stored.key = none ∧ w.outside stored.thumbKey = none
  others : ∀ key, startswith key mediaPrefix = true → key ≠ stored.key → key ≠ stored.thumbKey →
    v.world.outside key = w.outside key
  compensated : Compensated v

/-- An object is stored, or the request fails. -/
theorem answers_put {key : String} {body : List UInt8} {y : Except Failure Unit}
    (h : (confirming env).Answers (.media (.putObject key body)) v y v') :
  (y = .ok () ∧ v'.world.db = v.world.db
      ∧ v'.world.outside = Function.update v.world.outside key (some body)
      ∧ v'.last = some .put ∧ v'.fault = v.fault)
    ∨ ∃ e, y = .error e ∧ v'.world = v.world ∧ v'.fault = some ⟨v.last, .put, e⟩
  := by
  obtain ⟨w', answer, rfl⟩ | ⟨e, _, _, rfl, rfl⟩ := Machine.answers_withFault h
  · obtain ⟨hdb, hbucket⟩ := answers_bucket id answer
    exact Or.inl ⟨hbucket.1, hdb, hbucket.2, rfl, rfl⟩
  · exact Or.inr ⟨e, rfl, rfl, rfl⟩

/-- A new name is one that no object has. -/
theorem answers_uuid4 {y : Except Failure String}
    (h : (confirming env).Answers (.media .uuid4) v y v') :
  ∃ name, y = .ok name ∧ v'.world.db = v.world.db ∧ v'.world.outside = v.world.outside
    ∧ v'.last = some .other ∧ v'.fault = v.fault
    ∧ ∀ key, startswith key (mediaPrefix ++ name) = true → v.world.outside key = none
  := by
  obtain ⟨w', answer, rfl⟩ | ⟨e, may, _, _, _⟩ := Machine.answers_withFault h
  · obtain ⟨hdb, name, rfl, houtside, fresh⟩ := answers_bucket id answer
    exact ⟨name, rfl, hdb, houtside, rfl, rfl, fresh⟩
  · exact may.elim

/-- An object is deleted, or the request fails, which only one for an upload does. -/
theorem answers_delete {key : String} {y : Except Failure Unit}
    (h : (confirming env).Answers (.media (.deleteObject key)) v y v') :
  (y = .ok () ∧ v'.world.db = v.world.db
      ∧ v'.world.outside = Function.update v.world.outside key none
      ∧ v'.last = some .delete ∧ v'.fault = v.fault)
    ∨ startswith key mediaPrefix = false ∧ ∃ e, y = .error e ∧ v'.world = v.world
        ∧ v'.fault = some ⟨v.last, .delete, e⟩
  := by
  obtain ⟨w', answer, rfl⟩ | ⟨e, may, _, rfl, rfl⟩ := Machine.answers_withFault h
  · obtain ⟨hdb, hbucket⟩ := answers_bucket id answer
    exact Or.inl ⟨hbucket.1, hdb, hbucket.2, rfl, rfl⟩
  · exact Or.inr ⟨may, e, rfl, rfl, rfl⟩

theorem startswith_append (s t : String) :
  startswith (s ++ t) s = true
  := by
  rw [startswith, String.toList_append, List.isPrefixOf_iff_prefix]
  exact List.prefix_append _ _

/-- A text that begins with one that begins with `p` begins with `p`. -/
theorem startswith_trans {s t p : String} (h : startswith s t = true)
    (h' : startswith t p = true) :
  startswith s p = true
  := by
  rw [startswith, List.isPrefixOf_iff_prefix] at h h' ⊢
  exact h'.trans h

/-- The two objects of an image have different keys, and both are under `media/`. -/
theorem keys_of_stem (name : String) :
  (∀ suffix, startswith (mediaPrefix ++ name ++ suffix) (mediaPrefix ++ name) = true
      ∧ startswith (mediaPrefix ++ name ++ suffix) mediaPrefix = true)
    ∧ mediaPrefix ++ name ++ "_thumb.webp" ≠ mediaPrefix ++ name ++ ".webp"
  := by
  refine ⟨fun suffix => ⟨startswith_append _ _, ?_⟩, fun h => ?_⟩
  · exact startswith_trans (startswith_append _ _) (startswith_append _ _)
  · have hchars : (mediaPrefix ++ name).toList ++ "_thumb.webp".toList
        = (mediaPrefix ++ name).toList ++ ".webp".toList := by
      rw [← String.toList_append, h, String.toList_append]
    exact absurd (List.append_cancel_left hchars) (by decide)

/-- A new name is drawn, and nothing else happens. -/
theorem leads_uuid4 (h : Untouched w v) :
  (perform (.media .uuid4) : Service BucketRequest String).Leads (confirming env) v fun y v' =>
    ∃ name, y = .ok name ∧ Untouched w v'
      ∧ ∀ key, startswith key (mediaPrefix ++ name) = true → w.outside key = none
  := by
  refine Always.perform trivial fun y v' answer => ?_
  obtain ⟨name, rfl, hdb, houtside, hlast, hfault, fresh⟩ := answers_uuid4 answer
  refine ⟨name, rfl, ⟨⟨by rw [hdb, h.unchanged.1], by rw [houtside]; exact h.unchanged.2⟩, ?_, ?_⟩,
    fun key hkey => ?_⟩
  · rw [Compensated, hfault]
    exact h.compensated
  · rw [hlast]
    decide
  · rw [← h.unchanged.2 key (startswith_trans hkey (startswith_append _ _))]
    exact fresh key hkey

/-- One object is stored, and nothing else has changed. -/
structure HalfStaged (w : World Bucket) (key : String)
    (v : Faulty RequestKind Failure (World Bucket)) : Prop where
  images : v.world.db.images = w.db.images
  stored : v.world.outside key ≠ none
  others : ∀ key', startswith key' mediaPrefix = true → key' ≠ key →
    v.world.outside key' = w.outside key'
  compensated : Compensated v
  last : v.last = some .put

/-- When the first object cannot be stored, nothing is left behind. -/
theorem leads_putFirst (h : Untouched w v) {key : String} {body : List UInt8} :
  (S3MediaStorage.put key body).Leads (confirming env) v fun y v' => match y with
    | .ok _ => HalfStaged w key v'
    | .error _ => Settled w v'
  := by
  refine Always.perform trivial fun y v' answer => ?_
  obtain ⟨rfl, hdb, houtside, hlast, hfault⟩ | ⟨e, rfl, hworld, hfault⟩ := answers_put answer
  · refine ⟨by rw [hdb, h.unchanged.1], by rw [houtside, Function.update_self]; simp, ?_, ?_, hlast⟩
    · intro key' hkey' hne
      rw [houtside, Function.update_of_ne hne, h.unchanged.2 key' hkey']
    · rw [Compensated, hfault]
      exact h.compensated
  · have hcompensated : Compensated v' := h.fail hfault
    exact ⟨fun _ => hcompensated, fun _ => by rw [hworld]; exact h.unchanged⟩

/-- When the second object cannot be stored, the first one is left behind. -/
theorem leads_putSecond {stored : StoredImage} {body : List UInt8} (h : HalfStaged w stored.key v)
    (media : startswith stored.key mediaPrefix = true
      ∧ startswith stored.thumbKey mediaPrefix = true)
    (fresh : w.outside stored.key = none ∧ w.outside stored.thumbKey = none)
    (distinct : stored.thumbKey ≠ stored.key) :
  (S3MediaStorage.put stored.thumbKey body).Leads (confirming env) v fun y v' => match y with
    | .ok _ => Staged w stored v' ∧ v'.world.outside stored.key ≠ none ∧ v'.last = some .put
    | .error _ => Settled w v'
  := by
  refine Always.perform trivial fun y v' answer => ?_
  obtain ⟨rfl, hdb, houtside, hlast, hfault⟩ | ⟨e, rfl, hworld, hfault⟩ := answers_put answer
  · refine ⟨⟨by rw [hdb, h.images], media, fresh, ?_, ?_⟩, ?_, hlast⟩
    · intro key hkey hne hne'
      rw [houtside, Function.update_of_ne hne', h.others key hkey hne]
    · rw [Compensated, hfault]
      exact h.compensated
    · rw [houtside, Function.update_of_ne (Ne.symm distinct)]
      exact h.stored
  · constructor
    · rintro ⟨_, same⟩
      have hsame := same stored.key media.1
      rw [fresh.1, hworld] at hsame
      exact absurd hsame h.stored
    · intro compensated
      refine absurd (Or.inl ⟨?_, Or.inl rfl⟩) (compensated _ hfault)
      exact h.last

/-- When the upload cannot be dropped, both objects are left behind, unless the bucket refuses. -/
theorem leads_deleteUpload {stored : StoredImage} {uploadKey : String} (h : Staged w stored v)
    (present : v.world.outside stored.key ≠ none) (last : v.last = some .put) :
  (S3MediaStorage.delete (uploadPrefix ++ uploadKey)).Leads (confirming env) v fun y v' =>
    match y with
    | .ok _ => Staged w stored v'
    | .error _ => Settled w v'
  := by
  have deletes : (perform (.media (.deleteObject (uploadPrefix ++ uploadKey))) :
      Service BucketRequest Unit).Leads (confirming env) v
        ((confirming env).Answers (.media (.deleteObject (uploadPrefix ++ uploadKey))) v) :=
    Always.perform trivial fun _ _ answer => answer
  refine Always.outcome_bind deletes fun y v' answer => ?_
  obtain ⟨rfl, hdb, houtside, hlast, hfault⟩ | ⟨_, e, rfl, hworld, hfault⟩ := answers_delete answer
  · refine ⟨by rw [hdb, h.images], h.media, h.fresh, fun key hkey hne hne' => ?_, ?_⟩
    · rw [houtside, Function.update_of_ne, h.others key hkey hne hne']
      rintro rfl
      rw [startswith_uploads] at hkey
      cases hkey
    · rw [Compensated, hfault]
      exact h.compensated
  · have hsettled : (∀ code, e ≠ .client code) → Settled w v' := by
      intro other
      constructor
      · rintro ⟨_, same⟩
        have hsame := same stored.key h.media.1
        rw [h.fresh.1, hworld] at hsame
        exact absurd hsame present
      · intro compensated
        refine absurd (Or.inl ⟨?_, Or.inr ⟨rfl, other⟩⟩) (compensated _ hfault)
        exact last
    cases e with
    | client code =>
        refine ⟨by rw [hworld]; exact h.images, h.media, h.fresh, by rw [hworld]; exact h.others,
          ?_⟩
        intro fault hmem
        rw [hfault, Option.mem_some_iff] at hmem
        subst hmem
        rintro (⟨_, hkind | ⟨_, hother⟩⟩ | ⟨_, hkind⟩)
        · cases hkind
        · exact hother code rfl
        · cases hkind
    | _ => exact hsettled (by simp)

/-- The name of an upload is the same whenever it is asked for. -/
theorem pending_cases (uploadKey : String) :
  (∃ e, storage.pending uploadKey = .error e)
    ∨ storage.pending uploadKey = .ok (uploadPrefix ++ uploadKey)
  := by
  unfold S3MediaStorage.pending
  split
  · exact Or.inr rfl
  · exact Or.inl ⟨_, rfl⟩

/-- Storing an image ends with both objects stored, or is settled. -/
theorem leads_storeImage (uploadKey : String) (h : Untouched w v) :
  (storage.storeImage uploadKey).Leads (confirming env) v fun y v' => match y with
    | .ok stored => Staged w stored v'
    | .error _ => Settled w v'
  := by
  obtain ⟨e, pending⟩ | pending := @pending_cases storage uploadKey
  · unfold S3MediaStorage.storeImage S3MediaStorage.readPending S3MediaStorage.pendingSize
    rw [pending]
    exact h.settled
  unfold S3MediaStorage.storeImage
  refine (leads_untouched (asks_readPending uploadKey) h).bind (fun original v₁ h₁ => ?_)
    fun e v₁ h₁ => h₁.settled
  cases storage.renderImage original with
  | error e => exact h₁.settled
  | ok rendered =>
      obtain ⟨full, thumb⟩ := rendered
      rw [Program.ofExcept, done_bind]
      refine (leads_uuid4 h₁).bind (fun name v₂ hname => ?_) fun e v₂ hname => ?_
      · obtain ⟨_, hname, h₂, fresh⟩ := hname
        obtain rfl := Except.ok.inj hname
        obtain ⟨keys, distinct⟩ := keys_of_stem name
        let stored : StoredImage := ⟨mediaPrefix ++ name ++ ".webp",
          mediaPrefix ++ name ++ "_thumb.webp", "image/webp", full.length⟩
        have media : startswith stored.key mediaPrefix = true
            ∧ startswith stored.thumbKey mediaPrefix = true := ⟨(keys _).2, (keys _).2⟩
        have hfresh : w.outside stored.key = none ∧ w.outside stored.thumbKey = none :=
          ⟨fresh _ (keys _).1, fresh _ (keys _).1⟩
        refine (leads_putFirst h₂).bind (fun _ v₃ h₃ => ?_) fun e v₃ h₃ => h₃
        have second := @leads_putSecond env w v₃ stored thumb h₃ media hfresh distinct
        refine second.bind (fun _ v₄ h₄ => ?_) fun e v₄ h₄ => h₄
        obtain ⟨h₄, present, hlast⟩ := h₄
        unfold S3MediaStorage.drop
        rw [pending, Program.ofExcept, done_bind]
        exact (leads_deleteUpload h₄ present hlast).bind (fun _ v₅ h₅ => h₅) fun e v₅ h₅ => h₅
      · obtain ⟨_, hname, _⟩ := hname
        cases hname

/-! ### Inserting the image -/

/-- A fault at an attempt is undone. -/
theorem compensated_attempt (h : Compensated v) (hfault : v'.fault = v.fault
      ∨ ∃ fault, v'.fault = some fault ∧ fault.kind = .attempt) :
  Compensated v'
  := by
  obtain hfault | ⟨fault, hfault, hkind⟩ := hfault
  · rwa [Compensated, hfault]
  · intro fault' hmem
    rw [hfault, Option.mem_some_iff] at hmem
    subst hmem
    rintro (⟨_, hput | ⟨hdelete, _⟩⟩ | ⟨_, hread⟩)
    · rw [hkind] at hput
      cases hput
    · rw [hkind] at hdelete
      cases hdelete
    · rw [hkind] at hread
      cases hread

/-- What a transaction ends with: it is committed, or the rows are as they were. -/
inductive Attempted {α : Type} (env : Env) (body : Tx α)
    (v v' : Faulty RequestKind Failure (World Bucket)) : Except Failure α → Prop
  | commit {a : α} {s s' : Session} (same : s.db = v.world.db) (returns : Returns body env s a s')
      (db : v'.world.db = s'.db) (last : v'.last = some .attempt) : Attempted env body v v' (.ok a)
  | fail {e : Failure} (db : v'.world.db = v.world.db) : Attempted env body v v' (.error e)

/-- What happens at attempts: nothing to the objects, and what fails there is undone. -/
structure Attempting {α : Type} (env : Env) (body : Tx α)
    (v : Faulty RequestKind Failure (World Bucket)) (y : Except Failure α)
    (v' : Faulty RequestKind Failure (World Bucket)) : Prop where
  attempted : Attempted env body v v' y
  outside : v'.world.outside = v.world.outside
  fault : v'.fault = v.fault ∨ ∃ fault, v'.fault = some fault ∧ fault.kind = .attempt

/-- A failed attempt ends as another failure would. -/
theorem Attempting.fail {α : Type} {body : Tx α} {e e' : Failure}
    (h : Attempting env body v (.error e) v') :
  Attempting env body v (.error e') v'
  := by
  obtain ⟨attempted, outside, fault⟩ := h
  cases attempted with
  | fail db => exact ⟨.fail db, outside, fault⟩

/-- A failed attempt, and what comes after it. -/
theorem Attempting.trans {α : Type} {body : Tx α} {e : Failure} {y : Except Failure α}
    {v'' : Faulty RequestKind Failure (World Bucket)} (h : Attempting env body v (.error e) v')
    (h' : Attempting env body v' y v'') :
  Attempting env body v y v''
  := by
  obtain ⟨attempted, outside, fault⟩ := h
  have db : v'.world.db = v.world.db := by
    cases attempted with
    | fail db => exact db
  refine ⟨?_, h'.outside.trans outside, ?_⟩
  · cases h'.attempted with
    | commit same returns db' last => exact .commit (Eq.trans same db) returns db' last
    | fail db' => exact .fail (db'.trans db)
  · obtain hfault | later := h'.fault
    · rw [hfault]
      exact fault
    · exact Or.inr later

theorem answers_attempt {α : Type} {body : Tx α} {y : Except Failure α}
    (h : (confirming env).Answers (.attempt body) v y v') :
  Attempting env body v y v'
  := by
  obtain ⟨w', answer, rfl⟩ | ⟨e, _, _, rfl, rfl⟩ := Machine.answers_withFault h
  · obtain ⟨_, s, alone, ⟨a, s', rfl, returns, _, rfl⟩ | ⟨e, rfl, rfl, _⟩⟩ :=
      Setting.answers_attempt answer
    · exact ⟨.commit (alone.idle fun _ => id) returns rfl rfl, rfl, Or.inl rfl⟩
    · exact ⟨.fail (alone.idle fun _ => id), rfl, Or.inl rfl⟩
  · exact ⟨.fail rfl, rfl, Or.inr ⟨_, rfl, rfl⟩⟩

theorem leads_transaction {α : Type} (body : Tx α) :
  (transaction body : Service BucketRequest α).Leads (confirming env) v
    (Attempting env body v)
  := by
  unfold transaction
  generalize UnitOfWork.attempts = left
  induction left generalizing v with
  | zero => exact ⟨.fail rfl, rfl, Or.inl rfl⟩
  | succ left ih =>
      unfold UnitOfWork.transactionIn
      have attempt : (perform (.attempt body) : Service BucketRequest α).Leads (confirming env) v
          (Attempting env body v) := Always.perform trivial fun _ _ answer => answers_attempt answer
      refine Always.outcome_bind attempt fun y v₁ h₁ => ?_
      cases y with
      | ok a => exact h₁
      | error e =>
          cases e with
          | integrity => exact h₁.fail
          | database sqlstate cause =>
              dsimp only
              split
              · exact h₁
              · split
                · exact h₁.fail
                · exact ih.mono fun y v₂ h₂ => h₁.trans h₂
          | _ => exact h₁

/-! ### The confirmation -/

/-- An object under `media/` is deleted. -/
theorem leads_deleteMedia {key : String} (media : startswith key mediaPrefix = true) :
  (S3MediaStorage.delete key).Leads (confirming env) v fun y v' =>
    (∃ a, y = .ok a) ∧ v'.world.db = v.world.db
      ∧ v'.world.outside = Function.update v.world.outside key none
      ∧ v'.last = some .delete ∧ v'.fault = v.fault
  := by
  have deletes : (perform (.media (.deleteObject key)) : Service BucketRequest Unit).Leads
      (confirming env) v ((confirming env).Answers (.media (.deleteObject key)) v) :=
    Always.perform trivial fun _ _ answer => answer
  refine Always.outcome_bind deletes fun y v' answer => ?_
  obtain ⟨rfl, hdb, houtside, hlast, hfault⟩ | ⟨upload, _⟩ := answers_delete answer
  · exact ⟨⟨(), rfl⟩, hdb, houtside, hlast, hfault⟩
  · rw [media] at upload
    cases upload

/-- Deleting both objects undoes that they were stored. -/
theorem leads_discard {quotas : ProductQuotas} {stored : StoredImage} (h : Staged w stored v) :
  (ProductService.discard ⟨storage.media, quotas⟩ stored).Leads (confirming env) v
    fun y v' => (∃ a, y = .ok a) ∧ Untouched w v'
  := by
  unfold ProductService.discard
  refine Always.bind_ok (leads_deleteMedia h.media.1) fun _ v₁ h₁ => ?_
  obtain ⟨hdb₁, houtside₁, _, hfault₁⟩ := h₁
  refine Always.mono (leads_deleteMedia h.media.2) fun y v₂ h₂ => ?_
  obtain ⟨ok, hdb, houtside, hlast, hfault⟩ := h₂
  refine ⟨ok, ⟨by rw [hdb, hdb₁, h.images], fun key hkey => ?_⟩, ?_, ?_⟩
  · rw [houtside, houtside₁]
    by_cases hthumb : key = stored.thumbKey
    · rw [hthumb, Function.update_self, h.fresh.2]
    · rw [Function.update_of_ne hthumb]
      by_cases hfull : key = stored.key
      · rw [hfull, Function.update_self, h.fresh.1]
      · rw [Function.update_of_ne hfull, h.others key hkey hfull hthumb]
  · rw [Compensated, hfault, hfault₁]
    exact h.compensated
  · rw [hlast]
    decide

/-- Announcing a change fails only when the members are looked up. -/
theorem leads_notify {action productId workspaceId : String} (h : Compensated v)
    (inserted : v.world.db.images ≠ w.db.images) (last : v.last = some .attempt) :
  (ProductService.notify action productId workspaceId : Service BucketRequest Unit).Leads
    (confirming env) v fun y v' => match y with
      | .ok _ => Compensated v'
      | .error _ => Settled w v'
  := by
  have lookup : (read (Members.userIds workspaceId) : Service BucketRequest (List String)).Leads
      (confirming env) v fun y v' => match y with
        | .ok _ => v'.fault = v.fault
        | .error _ => Settled w v' := by
    refine Always.perform trivial fun y v' answer => ?_
    obtain ⟨w', hread, rfl⟩ | ⟨e, _, _, rfl, rfl⟩ := Machine.answers_withFault answer
    · obtain ⟨s, _, _, rfl | ⟨fails, _⟩⟩ := Setting.answers_read hread
      · rfl
      · exact fails.elim
    · constructor
      · exact fun unchanged => absurd unchanged.1 inserted
      · intro compensated
        refine absurd (Or.inr ⟨?_, rfl⟩) (compensated _ rfl)
        exact last
  have answered : ∀ {β : Type} {request : Request BucketRequest β} {v₁ : Faulty RequestKind Failure
      (World Bucket)}, ¬ request.OfDatabase → ¬ request.MayFail →
      (∀ bucket y bucket', Bucket.Answers request bucket y bucket' → ∃ b, y = .ok b) →
      Compensated v₁ → (perform request : Service BucketRequest β).Leads (confirming env) v₁
        fun y v' => (∃ b, y = .ok b) ∧ Compensated v' := by
    intro β request v₁ outside never ok h₁
    refine Always.perform trivial fun y v' answer => ?_
    obtain ⟨w', hanswer, rfl⟩ | ⟨e, may, _⟩ := Machine.answers_withFault answer
    · exact ⟨ok _ _ _ (answers_bucket outside hanswer).2, h₁⟩
    · exact absurd may never
  unfold ProductService.notify
  refine Always.bind lookup (fun recipients v₁ hfault => ?_) fun e v₁ h₁ => h₁
  have h₁ : Compensated v₁ := by
    rw [Compensated, hfault]
    exact h
  refine Always.bind_ok (answered id id (fun _ _ _ hy => hy.1) h₁) fun now v₂ h₂ => ?_
  refine Always.mono (answered id id (fun _ _ _ hy => ⟨(), hy.1⟩) h₂) ?_
  rintro y v₃ ⟨⟨_, rfl⟩, h₃⟩
  exact h₃

/-- What an attempt to insert an image ends with. -/
theorem leads_attach {quotas : ProductQuotas} {workspaceId productId uploadKey : String}
    {stored : StoredImage} (h : Staged w stored v) :
  (ProductService.attach ⟨storage.media, quotas⟩ workspaceId productId stored uploadKey).Leads
    (confirming env) v fun y v' => match y with
      | .ok _ => Compensated v'
      | .error _ => Settled w v'
  := by
  unfold ProductService.attach
  refine Always.outcome_bind (leads_transaction _) fun y v₁ h₁ => ?_
  have compensated : Compensated v₁ := compensated_attempt h.compensated h₁.fault
  cases y with
  | ok image =>
      cases h₁.attempted with
      | @commit _ s _ same returns db last =>
          have inserted : v₁.world.db.images ≠ w.db.images := by
            cases (ProductTx.attach_effect returns).1 with
            | attachImage row image' _ _ _ _ fresh _ hdb =>
                intro heq
                rw [db, hdb, ← h.images, ← same] at heq
                have hput := Table.get_put_self s.db.images image'
                rw [show s.db.images.put image' = s.db.images from heq, fresh] at hput
                cases hput
          exact Always.bind (leads_notify compensated inserted last) (fun _ v₂ h₂ => h₂)
            fun e v₂ h₂ => h₂
  | error e =>
      have staged : Staged w stored v₁ := by
        cases h₁.attempted with
        | fail db =>
            exact ⟨by rw [db, h.images], h.media, h.fresh, by rw [h₁.outside]; exact h.others,
              compensated⟩
      have discards := @leads_discard env storage w v₁ quotas stored staged
      cases e with
      | duplicate =>
          refine Always.bind_ok discards fun _ v₂ h₂ => ?_
          refine Always.bind (leads_untouched (Asks.perform trivial) h₂) (fun winner v₃ h₃ => ?_)
            fun e v₃ h₃ => h₃.settled
          cases winner with
          | some image => exact h₃.compensated
          | none => exact h₃.settled
      | _ => exact Always.bind_ok discards fun _ v₂ h₂ => h₂.settled

/-- What a confirmation ends with. -/
theorem leads_confirmImage {quotas : ProductQuotas} {workspaceId productId uploadKey : String}
    (h : Untouched w v) :
  (ProductService.confirmImage ⟨storage.media, quotas⟩ workspaceId productId uploadKey).Leads
    (confirming env) v fun y v' => match y with
      | .ok _ => Compensated v'
      | .error _ => Settled w v'
  := by
  have reads : ∀ {α : Type} (query : Tx α) {v₁ : Faulty RequestKind Failure (World Bucket)},
      Untouched w v₁ → (read query : Service BucketRequest α).Leads (confirming env) v₁
        fun _ v' => Untouched w v' :=
    fun query _ h₁ => leads_untouched (Asks.perform trivial) h₁
  have checks : ∀ {α : Type} (z : Except Failure α)
      {v₁ : Faulty RequestKind Failure (World Bucket)}, Untouched w v₁ →
      (Program.ofExcept z : Service BucketRequest α).Leads (confirming env) v₁
        fun _ v' => Untouched w v' :=
    fun z _ h₁ => leads_untouched Asks.ofExcept h₁
  unfold ProductService.confirmImage
  refine Always.bind (reads _ h) (fun known v₁ h₁ => ?_) fun _ _ h₁ => h₁.settled
  refine Always.bind (checks _ h₁) (fun _ v₂ h₂ => ?_) fun _ _ h₂ => h₂.settled
  refine Always.bind (reads _ h₂) (fun existing v₃ h₃ => ?_) fun _ _ h₃ => h₃.settled
  cases existing with
  | some existing => exact h₃.compensated
  | none =>
      refine Always.bind (leads_untouched (asks_pendingSize uploadKey) h₃) (fun size v₄ h₄ => ?_)
        fun _ _ h₄ => h₄.settled
      refine Always.bind (reads _ h₄) (fun used v₅ h₅ => ?_) fun _ _ h₅ => h₅.settled
      refine Always.bind (checks _ h₅) (fun _ v₆ h₆ => ?_) fun _ _ h₆ => h₆.settled
      refine Always.bind (reads _ h₆) (fun count v₇ h₇ => ?_) fun _ _ h₇ => h₇.settled
      refine Always.bind (checks _ h₇) (fun _ v₈ h₈ => ?_) fun _ _ h₈ => h₈.settled
      exact Always.bind (leads_storeImage uploadKey h₈) (fun stored v₉ h₉ => leads_attach h₉)
        fun _ _ h₉ => h₉

/-- A confirmation of which one request fails, and that raises, leaves the images and their objects
as they were, exactly if the fault is not one of those that nobody undoes. -/
theorem failed_confirmation_iff {quotas : ProductQuotas}
    {workspaceId productId uploadKey : String} {y : Except Failure ProductImage}
    (run : Ends (confirming env) (ProductService.confirmImage ⟨storage.media, quotas⟩ workspaceId
      productId uploadKey) ⟨w, none, none⟩ y v') :
  ((∃ e, y = .error e) → Unchanged w v'.world)
    ↔ ∀ fault, v'.fault = some fault → ¬ Fault.Uncompensated fault
  := by
  have start : Untouched w ⟨w, none, none⟩ :=
    ⟨⟨rfl, fun _ _ => rfl⟩, by rintro _ ⟨⟩, by simp⟩
  have settled := (leads_confirmImage start).ends run
  cases y with
  | ok image => exact ⟨fun _ => settled, by rintro _ ⟨_, ⟨⟩⟩⟩
  | error e => exact ⟨fun h => settled.mp (h ⟨e, rfl⟩), fun h _ => settled.mpr h⟩

end Confirmation

/-! ### An object that is left behind -/

/-- A bucket with an upload. -/
def Bucket.sample : Bucket := fun key => if key = "uploads/k" then some [1] else none

/-- What Ada confirms her upload with. -/
def sampleConfirmation : Service BucketRequest ProductImage :=
  ProductService.confirmImage ⟨S3MediaStorage.sample.media, ⟨1, 100⟩⟩ "i" "iiiiii" "k"

/-- Ada has a product without an image. -/
theorem exists_imageless :
  ∃ s : Session, Reachable .sample (fun _ => True) s
    ∧ ((Products.exists? "i" "iiiiii").run .sample s).1 = .ok true
    ∧ ((Products.imageByUploadKey "iiiiii" "k").run .sample s).1 = .ok none
    ∧ ((Products.storageBytes "i").run .sample s).1 = .ok 0
    ∧ ((Products.countImages "iiiiii").run .sample s).1 = .ok 0
  := by
  refine ⟨.after .sample [.register "ada" "ada@acme.test" "Ada" none, .create "Acme" "acme" "ada",
    .createProduct ⟨1, 100⟩ "i" "Pen" none 100 .active none], .after (by simp), ?_, ?_, ?_, ?_⟩
  · decide +kernel
  · decide +kernel
  · decide +kernel
  · decide +kernel

/-- A query is answered with what it reads. -/
theorem confirming_reads {α : Type} {env : Env} {query : Tx α} {a : α} {w : World Bucket}
    {last : Option RequestKind} {fault : Option (Fault RequestKind Failure)}
    (h : (query.run env w.session).1 = .ok a) :
  (confirming env).Answers (.read query) ⟨w, last, fault⟩ (.ok a) ⟨w, some .read, fault⟩
  := by
  rw [← h]
  exact .answer ⟨trivial, .read .refl⟩

/-- Ada confirms her upload, and the second object cannot be stored. -/
theorem exists_orphaned :
  ∃ (w : World Bucket) (v' : Faulty RequestKind Failure (World Bucket)),
    Reachable .sample (fun _ => True) w.session
    ∧ Ends (confirming .sample) sampleConfirmation ⟨w, none, none⟩ (.error (.other "timeout")) v'
    ∧ v'.fault = some ⟨some .put, .put, .other "timeout"⟩ ∧ ¬ Unchanged w v'.world
  := by
  obtain ⟨s, reachable, known, lookup, used, count⟩ := exists_imageless
  let w : World Bucket := ⟨s, .sample, []⟩
  let stored : Bucket := Function.update Bucket.sample "media/x.webp" (some [1])
  let v' : Faulty RequestKind Failure (World Bucket) :=
    ⟨⟨s, stored, []⟩, some .put, some ⟨some .put, .put, .other "timeout"⟩⟩
  have fresh : ∀ key, startswith key (mediaPrefix ++ "x") = true → w.outside key = none := by
    intro key hkey
    refine if_neg ?_
    rintro rfl
    exact absurd hkey (by decide)
  refine ⟨w, v', reachable, ?_, rfl, ?_⟩
  · refine .ask (confirming_reads known) ?_
    refine .ask (confirming_reads lookup) ?_
    refine .ask (.answer ⟨trivial, .outside .refl id ⟨rfl, rfl⟩⟩) ?_
    refine .ask (confirming_reads used) ?_
    refine .ask (confirming_reads count) ?_
    refine .ask (.answer ⟨trivial, .outside .refl id ⟨rfl, rfl⟩⟩) ?_
    refine .ask (.answer ⟨trivial, .outside .refl id ⟨rfl, rfl⟩⟩) ?_
    refine .ask (.answer ⟨trivial, .outside .refl id ⟨"x", rfl, rfl, fresh⟩⟩) ?_
    refine .ask (.answer ⟨trivial, .outside .refl id ⟨rfl, rfl⟩⟩) ?_
    exact .ask (.fail trivial) (.fail _ _)
  · intro unchanged
    have hsame : Function.update Bucket.sample "media/x.webp" (some [1]) "media/x.webp"
        = Bucket.sample "media/x.webp" := unchanged.2 "media/x.webp" (by decide)
    exact absurd hsame (by decide)

/-- The confirmation has raised, and the first object is left behind. -/
theorem orphan_left_behind :
  ∃ (w : World Bucket) (v' : Faulty RequestKind Failure (World Bucket)),
    Reachable .sample (fun _ => True) w.session
    ∧ Ends (confirming .sample) sampleConfirmation ⟨w, none, none⟩ (.error (.other "timeout")) v'
    ∧ ¬ Unchanged w v'.world
  := by
  obtain ⟨w, v', reachable, run, _, changed⟩ := exists_orphaned
  exact ⟨w, v', reachable, run, changed⟩

/-- The first object is left behind by a fault that nobody undoes. -/
theorem failed_confirmation_iff_of_timeout :
  ∃ (w : World Bucket) (v' : Faulty RequestKind Failure (World Bucket))
    (y : Except Failure ProductImage),
    Ends (confirming .sample) sampleConfirmation ⟨w, none, none⟩ y v'
    ∧ (((∃ e, y = .error e) → Unchanged w v'.world)
      ↔ ∀ fault, v'.fault = some fault → ¬ Fault.Uncompensated fault)
  := by
  obtain ⟨w, v', _, run, _⟩ := exists_orphaned
  exact ⟨w, v', _, run, failed_confirmation_iff run⟩

end MvpApi
