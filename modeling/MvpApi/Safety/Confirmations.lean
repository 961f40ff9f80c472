import MvpApi.Safety.Orphans
import MvpApi.Runs.Images
import MvpApi.Runs.Threads

/-!
# Two confirmations of one upload

Two calls confirm the same upload at once, one request at a time. The first to insert its row wins;
the other one breaks the unique constraint on upload keys, deletes the objects it has stored, and
returns the image of the winner. But the upload itself is dropped by the first call that has stored
its objects, and a call that looks for it after that fails, although the upload was confirmed; so
does one that finds no room for a second copy of the image. In all runs without such a step both
calls return the same image, and nothing else is left of them.
-/

set_option autoImplicit false

namespace MvpApi

open Program Exec

/-! ### The bucket of two calls -/

/-- The objects of a bucket, and the names that each of two calls has drawn. -/
structure Desk where
  objects : Bucket
  drawn : Bool → List String

/-- How the bucket answers a call. A new name has 32 characters, and neither call has drawn it. -/
def Desk.Answers {β : Type} (i : Bool) (request : Request BucketRequest β) (desk : Desk)
    (y : Except Failure β) (desk' : Desk) : Prop :=
  match β, request, y with
  | _, .media .uuid4, y => ∃ name, y = .ok name ∧ name.length = 32 ∧ (∀ j, name ∉ desk.drawn j)
      ∧ (∀ key, startswith key (mediaPrefix ++ name) = true → desk.objects key = none)
      ∧ desk' = { desk with drawn := Function.update desk.drawn i (name :: desk.drawn i) }
  | _, request, y => desk'.drawn = desk.drawn
      ∧ Bucket.Answers request desk.objects y desk'.objects

/-- One of two calls, which are the only ones; no request fails but as the bucket answers it. -/
def racing (env : Env)
    (Allows : {β : Type} → Request BucketRequest β → World Desk → Except Failure β → Prop)
    (i : Bool) : Setting BucketRequest Desk where
  env := env
  Others _ := False
  Fails _ := False
  Outside := Desk.Answers i
  Allows := Allows

def fullKey (name : String) : String := mediaPrefix ++ name ++ ".webp"
def thumbKey (name : String) : String := mediaPrefix ++ name ++ "_thumb.webp"

/-- The keys of the objects of an image. -/
def keysOf (name : String) : List String := [fullKey name, thumbKey name]

theorem mem_keysOf {name key : String} :
  key ∈ keysOf name ↔ key = fullKey name ∨ key = thumbKey name
  := by
  rw [keysOf, List.mem_cons, List.mem_singleton]

theorem startswith_keysOf {name key : String} (h : key ∈ keysOf name) :
  startswith key (mediaPrefix ++ name) = true ∧ startswith key mediaPrefix = true
  := by
  obtain rfl | rfl := mem_keysOf.mp h
  · exact (keys_of_stem name).1 _
  · exact (keys_of_stem name).1 _

/-- Names of the same length have different keys. -/
theorem keysOf_inj {name name' key : String} (length : name.length = name'.length)
    (h : key ∈ keysOf name) (h' : key ∈ keysOf name') :
  name = name'
  := by
  have cancel : ∀ suffix : String,
      mediaPrefix ++ name ++ suffix = mediaPrefix ++ name' ++ suffix → name = name' := by
    intro suffix heq
    have chars := congrArg String.toList heq
    simp only [String.toList_append, List.append_assoc] at chars
    exact String.toList_inj.mp (List.append_cancel_right (List.append_cancel_left chars))
  have apart : ∀ {name name' : String}, name.length = name'.length →
      fullKey name ≠ thumbKey name' := by
    intro name name' length heq
    have chars := congrArg String.length heq
    rw [fullKey, thumbKey, String.length_append, String.length_append, String.length_append,
      String.length_append, length] at chars
    exact absurd (Nat.add_left_cancel chars) (by decide)
  obtain rfl | rfl := mem_keysOf.mp h
  · obtain heq | heq := mem_keysOf.mp h'
    · exact cancel _ heq
    · exact absurd heq (apart length)
  · obtain heq | heq := mem_keysOf.mp h'
    · exact absurd heq.symm (apart length.symm)
    · exact cancel _ heq

theorem fullKey_ne_thumbKey (name : String) :
  thumbKey name ≠ fullKey name
  := (keys_of_stem name).2

/-! ### An upload to confirm -/

/-- An upload to confirm, what it is encoded to, and the world in which two calls begin. -/
structure Confirmation where
  env : Env
  storage : S3MediaStorage
  quotas : ProductQuotas
  workspaceId : String
  productId : String
  uploadKey : String
  body : List UInt8
  full : List UInt8
  thumb : List UInt8
  start : World Desk

namespace Confirmation

variable (c : Confirmation)

/-- Each of the two calls. -/
def program : Service BucketRequest ProductImage :=
  ProductService.confirmImage ⟨c.storage.media, c.quotas⟩ c.workspaceId c.productId c.uploadKey

/-- The key of the upload. -/
def pendingKey : String := uploadPrefix ++ c.uploadKey

/-- There is room for some more bytes, and for one more image of the product. -/
def Room (db : Db) (bytes : ℕ) : Prop :=
  db.storageUsed c.workspaceId + bytes ≤ c.quotas.maxStorageBytes

def Slot (db : Db) : Prop := (db.imagesOf c.productId).length < maxImagesPerProduct

/-- The product exists and has no image of the upload, the upload is pending, not too large, and
can be decoded, and there is room for it and for what it is encoded to. -/
structure Proper : Prop where
  lawful : c.env.Lawful
  reachable : Reachable c.env (fun _ => True) c.start.session
  product : ∃ row, c.start.db.products.get c.productId = some row ∧ row.workspaceId = c.workspaceId
  unconfirmed : ∀ image ∈ c.start.db.images, image.productId = c.productId →
    image.uploadKey ≠ some c.uploadKey
  isalnum : c.storage.isalnum c.uploadKey = true
  pending : c.start.outside.objects c.pendingKey = some c.body
  admissible : c.body.length ≤ c.storage.maxBytes
  decodes : c.storage.renderImage c.body = .ok (c.full, c.thumb)
  room : c.Room c.start.db c.body.length ∧ c.Room c.start.db c.full.length
  slot : c.Slot c.start.db
  drawn : ∀ i, c.start.outside.drawn i = []

/-- The upload is only looked for while it is pending, and the limits are only checked, before
the image work or at the insertion, while there is room. -/
def InTime {β : Type} (request : Request BucketRequest β) (w : World Desk) : Prop :=
  match request with
  | .media (.headObject key) => w.outside.objects key ≠ none
  | .media (.getObject key) => w.outside.objects key ≠ none
  | .read query => (HEq query (Products.storageBytes c.workspaceId) → c.Room w.db c.body.length)
      ∧ (HEq query (Products.countImages c.productId) → c.Slot w.db)
  | .attempt body => (∃ stored,
      HEq body (ProductTx.attach c.quotas c.workspaceId c.productId stored c.uploadKey)) →
        c.Room w.db c.full.length ∧ c.Slot w.db
  | _ => True

/-- The call `i` in a run in which every step is in time. -/
def timely (i : Bool) : Setting BucketRequest Desk :=
  racing c.env (fun request w _ => c.InTime request w) i

/-! ### What the calls know -/

/-- The call `i` has inserted the row of an image, of which both objects are stored. -/
structure Won (i : Bool) (name : String) (image : ProductImage) (w : World Desk) : Prop where
  images : w.db.images = c.start.db.images.put image
  fresh : c.start.db.images.get image.id = none
  drawn : name ∈ w.outside.drawn i
  product : image.productId = c.productId
  upload : image.uploadKey = some c.uploadKey
  full : image.key = fullKey name
  thumb : image.thumbKey = some (thumbKey name)
  stored : w.outside.objects (fullKey name) = some c.full
    ∧ w.outside.objects (thumbKey name) = some c.thumb

/-- Nothing has changed but that a call may have won, that objects are stored under names that the
calls have drawn, and that the upload may be dropped. -/
structure Sound (w : World Desk) : Prop where
  reachable : Reachable c.env (fun _ => True) w.session
  rows : w.db = { c.start.db with images := w.db.images }
  images : w.db.images = c.start.db.images ∨ ∃ i name image, c.Won i name image w
  length : ∀ i, ∀ name ∈ w.outside.drawn i, name.length = 32
  new : ∀ i, ∀ name ∈ w.outside.drawn i, ∀ key ∈ keysOf name, c.start.outside.objects key = none
  apart : ∀ i j name, name ∈ w.outside.drawn i → name ∈ w.outside.drawn j → i = j
  media : ∀ key, startswith key mediaPrefix = true →
    (∀ i, ∀ name ∈ w.outside.drawn i, key ∉ keysOf name) →
      w.outside.objects key = c.start.outside.objects key
  pending : ∀ body, w.outside.objects c.pendingKey = some body → body = c.body

/-- What the other call keeps of the call `i`: its names and its objects, and who has won. -/
structure Keeps (i : Bool) (w w' : World Desk) : Prop where
  sound : c.Sound w'
  drawn : w'.outside.drawn i = w.outside.drawn i
  objects : ∀ name ∈ w.outside.drawn i, ∀ key ∈ keysOf name,
    w'.outside.objects key = w.outside.objects key
  winner : ∀ j name image, c.Won j name image w → c.Won j name image w'
  loser : ∀ name image, c.Won i name image w' → c.Won i name image w

/-- What the call `i` may rely on, from a sound world on. -/
def Relies (i : Bool) (w w' : World Desk) : Prop := c.Sound w → c.Keeps i w w'

variable {c} {i j : Bool} {w w' : World Desk} {name name' : String} {image image' : ProductImage}

theorem relies_stable (i : Bool) :
  Stable (c.Relies i)
  where
  refl w sound := ⟨sound, rfl, fun _ _ _ _ => rfl, fun _ _ _ h => h, fun _ _ h => h⟩
  trans {w w₁ w₂} h h' sound := by
    have first := h sound
    have second := h' first.sound
    refine ⟨second.sound, second.drawn.trans first.drawn, fun name hname key hkey => ?_,
      fun j name image won => second.winner j name image (first.winner j name image won),
      fun name image won => first.loser name image (second.loser name image won)⟩
    rw [← first.objects name hname key hkey]
    exact second.objects name (first.drawn ▸ hname) key hkey

/-- Only one call wins. -/
theorem Won.same (sound : c.Sound w) (h : c.Won i name image w) (h' : c.Won j name' image' w) :
  i = j ∧ name = name' ∧ image = image'
  := by
  have himage : image' ∈ c.start.db.images.put image := by
    rw [← h.images, h'.images]
    exact (Table.mem_put_of_get h'.fresh).mpr (Or.inl rfl)
  obtain rfl | hold := (Table.mem_put_of_get h.fresh).mp himage
  · have hkey : fullKey name = fullKey name' := h.full.symm.trans h'.full
    have length : name.length = name'.length :=
      (sound.length i name h.drawn).trans (sound.length j name' h'.drawn).symm
    obtain rfl := keysOf_inj length (mem_keysOf.mpr (Or.inl rfl)) (mem_keysOf.mpr (Or.inl hkey))
    exact ⟨sound.apart i j name h.drawn h'.drawn, rfl, rfl⟩
  · exact absurd rfl (Table.get_eq_none_iff.mp h'.fresh image' hold)

/-- Once a call has won the images are not those at the beginning. -/
theorem Won.changed (h : c.Won i name image w) :
  w.db.images ≠ c.start.db.images
  := by
  intro same
  have hmem : image ∈ c.start.db.images := by
    rw [← same, h.images]
    exact (Table.mem_put_of_get h.fresh).mpr (Or.inl rfl)
  exact absurd rfl (Table.get_eq_none_iff.mp h.fresh image hmem)

theorem Won.congr (h : c.Won i name image w) (images : w'.db.images = w.db.images)
    (drawn : name ∈ w'.outside.drawn i)
    (stored : ∀ key ∈ keysOf name, w'.outside.objects key = w.outside.objects key) :
  c.Won i name image w'
  := by
  refine ⟨images.trans h.images, h.fresh, drawn, h.product, h.upload, h.full, h.thumb, ?_, ?_⟩
  · exact (stored _ (mem_keysOf.mpr (Or.inl rfl))).trans h.stored.1
  · exact (stored _ (mem_keysOf.mpr (Or.inr rfl))).trans h.stored.2

/-! ### What a step keeps -/

/-- The rows, the objects and the names stay. -/
structure Quiet (w w' : World Desk) : Prop where
  reachable : Reachable c.env (fun _ => True) w'.session
  db : w'.db = w.db
  outside : w'.outside = w.outside

theorem Quiet.relies (h : Quiet (c := c) w w') (i : Bool) :
  c.Relies i w w'
  := by
  intro sound
  have images : w'.db.images = w.db.images := by rw [h.db]
  have winner : ∀ j name image, c.Won j name image w ↔ c.Won j name image w' := by
    intro j name image
    constructor
    · exact fun won => won.congr images (h.outside ▸ won.drawn) fun _ _ => by rw [h.outside]
    · exact fun won => won.congr images.symm (h.outside ▸ won.drawn) fun _ _ => by rw [h.outside]
  refine ⟨?_, by rw [h.outside], fun _ _ _ _ => by rw [h.outside],
    fun j name image => (winner j name image).mp, fun name image => (winner i name image).mpr⟩
  refine ⟨h.reachable, ?_, ?_, ?_, ?_, ?_, ?_, ?_⟩
  · rw [h.db]
    exact sound.rows
  · rw [images]
    refine sound.images.imp_right ?_
    rintro ⟨j, name, image, won⟩
    exact ⟨j, name, image, (winner j name image).mp won⟩
  · rw [h.outside]
    exact sound.length
  · rw [h.outside]
    exact sound.new
  · rw [h.outside]
    exact sound.apart
  · rw [h.outside]
    exact sound.media
  · rw [h.outside]
    exact sound.pending

/-- The call `i` changes objects: its own that are not those of a winner, or the upload, which it
drops. -/
structure Stores (i : Bool) (w w' : World Desk) : Prop where
  reachable : Reachable c.env (fun _ => True) w'.session
  db : w'.db = w.db
  drawn : w'.outside.drawn = w.outside.drawn
  media : ∀ key, startswith key mediaPrefix = true →
    (∀ name ∈ w.outside.drawn i, key ∉ keysOf name) →
      w'.outside.objects key = w.outside.objects key
  winner : ∀ name image, c.Won i name image w → ∀ key ∈ keysOf name,
    w'.outside.objects key = w.outside.objects key
  pending : ∀ body, w'.outside.objects c.pendingKey = some body →
    w.outside.objects c.pendingKey = some body

theorem Stores.relies (h : Stores (c := c) i w w') :
  c.Relies (!i) w w'
  := by
  intro sound
  have images : w'.db.images = w.db.images := by rw [h.db]
  have others : ∀ name ∈ w.outside.drawn (!i), ∀ key ∈ keysOf name,
      w'.outside.objects key = w.outside.objects key := by
    intro name hname key hkey
    refine h.media key (startswith_keysOf hkey).2 fun name' hname' hkey' => ?_
    have length : name.length = name'.length :=
      (sound.length _ name hname).trans (sound.length _ name' hname').symm
    obtain rfl := keysOf_inj length hkey hkey'
    exact absurd (sound.apart _ _ name hname hname') (by cases i <;> decide)
  have winner : ∀ j name image, c.Won j name image w → c.Won j name image w' := by
    intro j name image won
    refine won.congr images (h.drawn ▸ won.drawn) ?_
    by_cases hj : j = i
    · subst hj
      exact h.winner name image won
    · obtain rfl := Bool.eq_not_of_ne hj
      exact others name won.drawn
  refine ⟨?_, by rw [h.drawn], others, winner, fun name image won => ?_⟩
  · refine ⟨h.reachable, by rw [h.db]; exact sound.rows, ?_, h.drawn ▸ sound.length,
      h.drawn ▸ sound.new, h.drawn ▸ sound.apart, fun key hkey free => ?_, fun body hbody => ?_⟩
    · rw [images]
      refine sound.images.imp_right ?_
      rintro ⟨j, name, image, won⟩
      exact ⟨j, name, image, winner j name image won⟩
    · rw [h.drawn] at free
      rw [h.media key hkey (free i)]
      exact sound.media key hkey free
    · exact sound.pending body (h.pending body hbody)
  · have hname : name ∈ w.outside.drawn (!i) := h.drawn ▸ won.drawn
    exact won.congr images.symm hname fun key hkey => (others name hname key hkey).symm

/-- The call `i` draws a name. -/
theorem relies_draw (reachable : Reachable c.env (fun _ => True) w'.session) (db : w'.db = w.db)
    (answer : Desk.Answers i (.media .uuid4) w.outside (.ok name) w'.outside) :
  c.Relies (!i) w w'
  := by
  intro sound
  obtain ⟨_, hname, length, undrawn, free, outside⟩ := answer
  obtain rfl := Except.ok.inj hname
  have images : w'.db.images = w.db.images := by rw [db]
  have objects : w'.outside.objects = w.outside.objects := by rw [outside]
  have mem : ∀ j n, n ∈ w'.outside.drawn j ↔ (j = i ∧ n = name) ∨ n ∈ w.outside.drawn j := by
    intro j n
    rw [outside]
    by_cases hj : j = i
    · subst hj
      simp
    · simp [hj]
  have winner : ∀ j n image, c.Won j n image w → c.Won j n image w' := fun j n image won =>
    won.congr images ((mem j n).mpr (Or.inr won.drawn)) fun _ _ => by rw [objects]
  have new : ∀ key ∈ keysOf name, c.start.outside.objects key = none := by
    intro key hkey
    rw [← sound.media key (startswith_keysOf hkey).2, free key (startswith_keysOf hkey).1]
    intro j n hn hkey'
    obtain rfl := keysOf_inj (length.trans (sound.length j n hn).symm) hkey hkey'
    exact undrawn j hn
  refine ⟨⟨reachable, by rw [db]; exact sound.rows, ?_, fun j n hn => ?_, fun j n hn => ?_,
    fun j j' n hn hn' => ?_, fun key hkey unused => ?_, objects ▸ sound.pending⟩, ?_,
    fun _ _ _ _ => by rw [objects], winner, fun n image won => ?_⟩
  · rw [images]
    refine sound.images.imp_right ?_
    rintro ⟨j, n, image, won⟩
    exact ⟨j, n, image, winner j n image won⟩
  · obtain ⟨rfl, rfl⟩ | hn := (mem j n).mp hn
    · exact length
    · exact sound.length j n hn
  · obtain ⟨rfl, rfl⟩ | hn := (mem j n).mp hn
    · exact new
    · exact sound.new j n hn
  · obtain ⟨rfl, rfl⟩ | hn := (mem j n).mp hn
    · obtain ⟨rfl, _⟩ | hn' := (mem j' n).mp hn'
      · rfl
      · exact absurd hn' (undrawn j')
    · obtain ⟨_, rfl⟩ | hn' := (mem j' n).mp hn'
      · exact absurd hn (undrawn j)
      · exact sound.apart j j' n hn hn'
  · rw [objects]
    exact sound.media key hkey fun j n hn => unused j n ((mem j n).mpr (Or.inr hn))
  · rw [outside]
    exact Function.update_of_ne (by cases i <;> decide) _ _
  · obtain ⟨heq, _⟩ | hn := (mem (!i) n).mp won.drawn
    · exact absurd heq (by cases i <;> decide)
    · exact won.congr images.symm hn fun _ _ => by rw [objects]

/-! ### The insertion -/

/-- The images of the upload, before a call has won. -/
theorem Proper.unique_put (proper : c.Proper) {db : Db} (rows : db = { c.start.db with
      images := db.images }) (same : db.images = c.start.db.images)
    (product : image.productId = c.productId) (upload : image.uploadKey = some c.uploadKey) :
  Db.Unique { db with images := db.images.put image }
  := by
  have start := Reachable.unique proper.reachable
  have unique : db.Unique := by
    rw [rows, same]
    exact start
  refine ⟨unique.email, unique.slug, unique.roleName, unique.tokenHash, ?_⟩
  intro a (ha : a ∈ db.images.put image) b (hb : b ∈ db.images.put image) same_key
  obtain ⟨hsome, hproduct, hupload⟩ := same_key
  have other : ∀ {a b : ProductImage}, a ∈ db.images → a.productId = b.productId →
      a.uploadKey = b.uploadKey → b ≠ image := by
    intro x y hx hproduct hupload heq
    rw [heq] at hproduct hupload
    exact proper.unconfirmed x (same ▸ hx) (hproduct.trans product) (hupload.trans upload)
  obtain hnew | ⟨hold, _⟩ := Table.mem_put.mp ha
  · obtain hnew' | ⟨hold', _⟩ := Table.mem_put.mp hb
    · rw [hnew, hnew']
    · exact absurd hnew (other hold' hproduct.symm hupload.symm)
  · obtain hnew' | ⟨hold', _⟩ := Table.mem_put.mp hb
    · exact absurd hnew' (other hold hproduct hupload)
    · exact unique.uploadKey a hold b hold' ⟨hsome, hproduct, hupload⟩

/-- An upload that a call has confirmed is not confirmed again. -/
theorem Won.not_unique (h : c.Won i name image w)
    (fresh : w.db.images.get image'.id = none) (product : image'.productId = c.productId)
    (upload : image'.uploadKey = some c.uploadKey) {db : Db}
    (put : db.images = w.db.images.put image') :
  ¬ db.Unique
  := by
  intro unique
  have hmem : image ∈ w.db.images := by
    rw [h.images]
    exact (Table.mem_put_of_get h.fresh).mpr (Or.inl rfl)
  have hid : image.id = image'.id := by
    apply unique.uploadKey
    · rw [put]
      exact (Table.mem_put_of_get fresh).mpr (Or.inr hmem)
    · rw [put]
      exact (Table.mem_put_of_get fresh).mpr (Or.inl rfl)
    · refine ⟨?_, h.product.trans product.symm, h.upload.trans upload.symm⟩
      rw [h.upload]
      exact Option.some_ne_none _
  exact Table.get_eq_none_iff.mp fresh image hmem hid

/-- What the call `i` knows: which names it has drawn, what stands under their keys, and that it has
not won. -/
structure Stage (c : Confirmation) (i : Bool) (names : List String)
    (full thumb : Option (List UInt8)) (w : World Desk) : Prop where
  sound : c.Sound w
  drawn : w.outside.drawn i = names
  objects : ∀ name ∈ names, w.outside.objects (fullKey name) = full
    ∧ w.outside.objects (thumbKey name) = thumb
  lost : ∀ name image, ¬ c.Won i name image w

variable {names : List String} {full thumb : Option (List UInt8)}

/-- What a call knows it still knows when the other one has gone on. -/
theorem Stage.later (h : c.Stage i names full thumb w) (relies : c.Relies i w w') :
  c.Stage i names full thumb w'
  := by
  have keeps := relies h.sound
  refine ⟨keeps.sound, keeps.drawn.trans h.drawn, fun name hname => ?_,
    fun name image won => h.lost name image (keeps.loser name image won)⟩
  have own : name ∈ w.outside.drawn i := h.drawn ▸ hname
  rw [keeps.objects name own _ (mem_keysOf.mpr (Or.inl rfl)),
    keeps.objects name own _ (mem_keysOf.mpr (Or.inr rfl))]
  exact h.objects name hname

/-- A step of the call that leaves the rows as they are does not make it win. -/
theorem Stage.still_lost (h : c.Stage i names full thumb w) (relies : c.Relies (!i) w w')
    (db : w'.db = w.db) (name : String) (image : ProductImage) :
  ¬ c.Won i name image w'
  := by
  intro won
  have keeps := relies h.sound
  obtain same | ⟨j, name', image', won'⟩ := h.sound.images
  · exact won.changed (by rw [db, same])
  · obtain rfl := (Won.same keeps.sound won (keeps.winner j name' image' won')).1
    exact h.lost name' image' won'

/-- What a call knows it still knows when nothing has happened. -/
theorem Stage.quiet (h : c.Stage i names full thumb w) (quiet : Quiet (c := c) w w') :
  c.Stage i names full thumb w'
  := h.later (quiet.relies i)

/-- The rows after the insertion of an image that has won. -/
theorem Stage.won (h : c.Stage i [name] (some c.full) (some c.thumb) w)
    (same : w.db.images = c.start.db.images)
    (reachable : Reachable c.env (fun _ => True) w'.session)
    (db : w'.db = { w.db with images := w.db.images.put image }) (outside : w'.outside = w.outside)
    (fresh : w.db.images.get image.id = none) (product : image.productId = c.productId)
    (upload : image.uploadKey = some c.uploadKey) (full : image.key = fullKey name)
    (thumb : image.thumbKey = some (thumbKey name)) :
  c.Relies (!i) w w' ∧ c.Won i name image w'
  := by
  have images : w'.db.images = c.start.db.images.put image := by rw [db, same]
  have drawn : name ∈ w'.outside.drawn i := by
    rw [outside, h.drawn]
    exact List.mem_singleton_self name
  have won : c.Won i name image w' := by
    refine ⟨images, same ▸ fresh, drawn, product, upload, full, thumb, ?_⟩
    rw [outside]
    exact h.objects name (List.mem_singleton_self name)
  have sound : c.Sound w' := by
    refine ⟨reachable, ?_, Or.inr ⟨i, name, image, won⟩, outside ▸ h.sound.length,
      outside ▸ h.sound.new, outside ▸ h.sound.apart, outside ▸ h.sound.media,
      outside ▸ h.sound.pending⟩
    rw [db, h.sound.rows]
  refine ⟨fun _ => ⟨sound, by rw [outside], fun _ _ _ _ => by rw [outside],
    fun _ _ _ won' => absurd same won'.changed, fun _ _ won' => ?_⟩, won⟩
  have own := (Won.same sound won won').1
  exact absurd own (by cases i <;> decide)

/-- The call `i` has won with the only name it has drawn. -/
structure Winner (c : Confirmation) (i : Bool) (name : String) (image : ProductImage)
    (w : World Desk) : Prop where
  sound : c.Sound w
  drawn : w.outside.drawn i = [name]
  won : c.Won i name image w

/-- An attempt to insert the row of an image whose objects are stored: the call wins, or the other
one has won and the row breaks the unique constraint. -/
theorem Stage.attach (h : c.Stage i [name] (some c.full) (some c.thumb) w) (proper : c.Proper)
    {y : Except Failure ProductImage}
    (answer : (c.timely i).machine.Answers (.attempt (ProductTx.attach c.quotas c.workspaceId
      c.productId ⟨fullKey name, thumbKey name, "image/webp", c.full.length⟩ c.uploadKey)) w y w') :
  c.Relies (!i) w w'
    ∧ ((∃ image, y = .ok image ∧ c.Winner i name image w')
      ∨ y = .error .integrity ∧ c.Stage i [name] (some c.full) (some c.thumb) w'
        ∧ ∃ name' image, c.Won (!i) name' image w')
  := by
  obtain ⟨allows, s, meanwhile, answered⟩ := Setting.answers_attempt answer
  have db : s.db = w.db := meanwhile.idle fun _ => id
  have reachable : Reachable c.env (fun _ => True) s :=
    h.sound.reachable.trans (meanwhile.mono fun _ _ => trivial)
  obtain ⟨room, slot⟩ := allows ⟨_, HEq.rfl⟩
  have fresh : s.db.images.get (c.env.uuid7 s.ids) = none := reachable.image_fresh proper.lawful
  obtain ⟨row, hrow, hown⟩ := proper.product
  have product : ∃ row, s.db.products.get c.productId = some row
      ∧ row.workspaceId = c.workspaceId := by
    refine ⟨row, ?_, hown⟩
    rw [db, h.sound.rows]
    exact hrow
  obtain ⟨image, s', returns, changed, hid, hproduct, hupload, hfull, hthumb⟩ :
      ∃ image s', Returns (ProductTx.attach c.quotas c.workspaceId c.productId
          ⟨fullKey name, thumbKey name, "image/webp", c.full.length⟩ c.uploadKey) c.env s image s'
        ∧ s'.db = { s.db with images := s.db.images.put image }
        ∧ image.id = c.env.uuid7 s.ids ∧ image.productId = c.productId
        ∧ image.uploadKey = some c.uploadKey ∧ image.key = fullKey name
        ∧ image.thumbKey = some (thumbKey name) :=
    ⟨_, _, ProductTx.returns_attach.mpr ⟨product, db ▸ slot, db ▸ room, fresh, rfl, rfl⟩, rfl, rfl,
      rfl, rfl, rfl, rfl⟩
  have free : w.db.images.get image.id = none := by
    rw [← db, hid]
    exact fresh
  have put : s'.db = { w.db with images := w.db.images.put image } := by rw [changed, db]
  obtain ⟨image', s'', rfl, returns', unique, rfl⟩ | ⟨e, rfl, rfl, refused⟩ := answered
  · obtain ⟨rfl, rfl⟩ := returns.unique returns'
    have same : w.db.images = c.start.db.images := by
      obtain same | ⟨j, name', image', won⟩ := h.sound.images
      · exact same
      · exact absurd unique (won.not_unique free hproduct hupload (congrArg Db.images put))
    have runs : Returns (Work.attachImage c.quotas c.workspaceId c.productId
        ⟨fullKey name, thumbKey name, "image/webp", c.full.length⟩ c.uploadKey).body c.env s ()
          s' :=
      Tx.returns_run'.mpr ⟨image, returns⟩
    have committed : Reachable c.env (fun _ => True) (w.commit s s').session :=
      .commit reachable trivial runs unique
    obtain ⟨relies, won⟩ := h.won same committed put rfl free hproduct hupload hfull hthumb
    exact ⟨relies, Or.inl ⟨image, rfl, (relies h.sound).sound, h.drawn, won⟩⟩
  · have quiet : Quiet (c := c) w (w.wait s) := ⟨reachable, db, rfl⟩
    refine ⟨quiet.relies _, Or.inr ?_⟩
    cases refused with
    | raise raises => exact absurd raises returns.not_raises
    | fault failed => exact failed.elim
    | violate returns' violates =>
        obtain ⟨rfl, rfl⟩ := returns.unique returns'
        refine ⟨rfl, h.quiet quiet, ?_⟩
        obtain same | ⟨j, name', image', won⟩ := h.sound.images
        · have unique := proper.unique_put h.sound.rows same hproduct hupload
          exact absurd (put ▸ unique) violates
        · have hj : j ≠ i := by
            rintro rfl
            exact h.lost name' image' won
          obtain rfl := Bool.eq_not_of_ne hj
          exact ⟨name', image', ((quiet.relies i) h.sound).winner _ _ _ won⟩

/-! ### The steps of a call -/

variable {α β : Type}

/-- What a program of the call `i` does while the other call goes on. -/
abbrev Does (c : Confirmation) (i : Bool) (x : Service BucketRequest α) (w : World Desk)
    (post : Except Failure α → World Desk → Prop) : Prop :=
  x.Holds (c.timely i).machine (c.Relies i) (c.Relies (!i)) post w

/-- What the call `i` knows in sound worlds, and still knows when the other call has gone on. -/
structure Known (c : Confirmation) (i : Bool) (P : World Desk → Prop) : Prop where
  sound : ∀ w, P w → c.Sound w
  later : ∀ w w', P w → c.Relies i w w' → P w'

theorem known_stage :
  c.Known i (c.Stage i names full thumb)
  := ⟨fun _ h => h.sound, fun _ _ h relies => h.later relies⟩

/-- Who has won stays the winner. -/
theorem Known.won {P : World Desk → Prop} (known : c.Known i P) (j : Bool) (name : String)
    (image : ProductImage) :
  c.Known i fun w => P w ∧ c.Won j name image w
  where
  sound w h := known.sound w h.1
  later w w' h relies :=
    ⟨known.later w w' h.1 relies, (relies (known.sound w h.1)).winner j name image h.2⟩

theorem known_sound :
  c.Known i c.Sound
  := ⟨fun _ h => h, fun _ _ h relies => (relies h).sound⟩

theorem known_winner :
  c.Known i (c.Winner i name image)
  where
  sound _ h := h.sound
  later _ _ h relies :=
    ⟨(relies h.sound).sound, (relies h.sound).drawn.trans h.drawn,
      (relies h.sound).winner _ _ _ h.won⟩

section Known

variable {P : World Desk → Prop}

/-- A query reads the rows as they are. -/
theorem Known.does_select (known : c.Known i P) (h : P w) {f : Db → α} {mid : α → World Desk → Prop}
    (later : ∀ a, c.Known i fun w => P w ∧ mid a w)
    (reads : ∀ w, P w → c.InTime (.read (Tx.select f) : Request BucketRequest α) w →
      mid (f w.db) w) :
  c.Does i (read (Tx.select f)) w fun y w' => ∃ a, y = .ok a ∧ P w' ∧ mid a w'
  := by
  refine Holds.perform_stable (fun w w' relies h => known.later w w' h relies) ?_ ?_ h
  · rintro z w₁ w₂ relies ⟨a, rfl, h₁⟩
    exact ⟨a, rfl, (later a).later w₁ w₂ h₁ relies⟩
  · intro w₁ z w₂ h₁ answer
    have intime := answer.1
    obtain ⟨s, meanwhile, rfl, hz | ⟨fails, _⟩⟩ := Setting.answers_read answer
    · have db : s.db = w₁.db := meanwhile.idle fun _ => id
      have quiet : Quiet (c := c) w₁ (w₁.wait s) :=
        ⟨(known.sound w₁ h₁).reachable.trans (meanwhile.mono fun _ _ => trivial), db, rfl⟩
      have hz' : z = .ok (f w₁.db) := by
        rw [hz, ← db]
        rfl
      have read := reads w₁ h₁ intime
      exact ⟨quiet.relies _, f w₁.db, hz', (later _).later w₁ _ ⟨h₁, read⟩ (quiet.relies i)⟩
    · exact fails.elim

end Known

/-- What else is asked is answered by the bucket, and leaves the rows as they are. -/
theorem answers_desk {request : Request BucketRequest β} (outside : ¬ request.OfDatabase)
    (sound : c.Sound w) {y : Except Failure β}
    (answer : (c.timely i).machine.Answers request w y w') :
  c.InTime request w ∧ Desk.Answers i request w.outside y w'.outside ∧ w'.db = w.db
    ∧ Reachable c.env (fun _ => True) w'.session
  := by
  obtain ⟨intime, s, meanwhile, ⟨x, answered, rfl⟩ | ⟨fails, _⟩⟩ :=
    Setting.answers_outside outside answer
  · exact ⟨intime, answered, meanwhile.idle fun _ => id,
      sound.reachable.trans (meanwhile.mono fun _ _ => trivial)⟩
  · exact fails.elim

/-- A request that leaves the bucket as it is. -/
theorem Known.does_quiet {P : World Desk → Prop} (known : c.Known i P) (h : P w)
    {request : Request BucketRequest β} (outside : ¬ request.OfDatabase) {mid : β → Prop}
    (answered : ∀ w y desk, P w → c.InTime request w → Desk.Answers i request w.outside y desk →
      desk = w.outside ∧ ∃ a, y = .ok a ∧ mid a) :
  c.Does i (perform request) w fun y w' => ∃ a, y = .ok a ∧ P w' ∧ mid a
  := by
  refine Holds.perform_stable (fun w w' relies h => known.later w w' h relies) ?_ ?_ h
  · rintro z w₁ w₂ relies ⟨a, rfl, h₁, hmid⟩
    exact ⟨a, rfl, known.later w₁ w₂ h₁ relies, hmid⟩
  · intro w₁ z w₂ h₁ answer
    obtain ⟨intime, hanswer, db, reachable⟩ := answers_desk outside (known.sound w₁ h₁) answer
    obtain ⟨hdesk, a, rfl, hmid⟩ := answered w₁ z w₂.outside h₁ intime hanswer
    have quiet : Quiet (c := c) w₁ w₂ := ⟨reachable, db, hdesk⟩
    exact ⟨quiet.relies _, a, rfl, known.later w₁ w₂ h₁ (quiet.relies i), hmid⟩

/-- A desk on which nothing has changed. -/
theorem desk_eq {desk desk' : Desk} (drawn : desk'.drawn = desk.drawn)
    (objects : desk'.objects = desk.objects) :
  desk' = desk
  := by
  cases desk
  cases desk'
  rw [Desk.mk.injEq]
  exact ⟨objects, drawn⟩

/-- In time, the upload that is looked for is the one to confirm. -/
theorem Sound.upload (h : c.Sound w) (pending : w.outside.objects c.pendingKey ≠ none) :
  w.outside.objects c.pendingKey = some c.body
  := by
  obtain ⟨body, found⟩ := Option.ne_none_iff_exists'.mp pending
  rw [found, h.pending body found]

theorem Stage.does_head (h : c.Stage i names full thumb w) :
  c.Does i (perform (.media (.headObject c.pendingKey))) w fun y w' =>
    ∃ a, y = .ok a ∧ c.Stage i names full thumb w' ∧ a = c.body.length
  := by
  apply known_stage.does_quiet h id
  rintro w₁ y desk h₁ intime ⟨drawn, hy, objects⟩
  rw [h₁.sound.upload intime] at hy
  exact ⟨desk_eq drawn objects, _, hy, rfl⟩

theorem Stage.does_get (h : c.Stage i names full thumb w) :
  c.Does i (perform (.media (.getObject c.pendingKey))) w fun y w' =>
    ∃ a, y = .ok a ∧ c.Stage i names full thumb w' ∧ a = c.body
  := by
  apply known_stage.does_quiet h id
  rintro w₁ y desk h₁ intime ⟨drawn, hy, objects⟩
  rw [h₁.sound.upload intime] at hy
  exact ⟨desk_eq drawn objects, _, hy, rfl⟩

theorem Proper.pending_eq (proper : c.Proper) :
  c.storage.pending c.uploadKey = .ok c.pendingKey
  := if_pos proper.isalnum

theorem Stage.does_pendingSize (h : c.Stage i names full thumb w) (proper : c.Proper) :
  c.Does i (c.storage.pendingSize c.uploadKey) w fun y w' =>
    ∃ a, y = .ok a ∧ c.Stage i names full thumb w' ∧ a = c.body.length
  := by
  unfold S3MediaStorage.pendingSize
  rw [proper.pending_eq, Program.ofExcept, done_bind]
  refine Holds.bind (relies_stable i) (Holds.outcome (h.does_head.mono ?_))
  rintro y w₁ ⟨a, rfl, h₁, rfl⟩
  dsimp only
  rw [if_neg (Nat.not_lt.mpr proper.admissible)]
  exact fun w₂ relies => ⟨_, rfl, h₁.later relies, rfl⟩

theorem Stage.does_readPending (h : c.Stage i names full thumb w) (proper : c.Proper) :
  c.Does i (c.storage.readPending c.uploadKey) w fun y w' =>
    ∃ a, y = .ok a ∧ c.Stage i names full thumb w' ∧ a = c.body
  := by
  unfold S3MediaStorage.readPending
  refine Holds.bind_ok (relies_stable i) (h.does_pendingSize proper) ?_
  rintro _ w₁ ⟨h₁, _⟩
  rw [proper.pending_eq, Program.ofExcept, done_bind]
  refine Holds.bind (relies_stable i) (Holds.outcome (h₁.does_get.mono ?_))
  rintro y w₂ ⟨a, rfl, h₂, rfl⟩
  exact fun w₃ relies => ⟨_, rfl, h₂.later relies, rfl⟩

/-- After a request to the bucket the call knows which names it has drawn, and what stands under
their keys; it has not won by it. -/
theorem Stage.does_step (h : c.Stage i names full thumb w) {request : Request BucketRequest β}
    (outside : ¬ request.OfDatabase) {names' : β → List String}
    {full' thumb' : Option (List UInt8)}
    (step : ∀ w₁ y w₂, c.Stage i names full thumb w₁ →
      Desk.Answers i request w₁.outside y w₂.outside → w₂.db = w₁.db →
      Reachable c.env (fun _ => True) w₂.session →
      c.Relies (!i) w₁ w₂ ∧ ∃ a, y = .ok a ∧ w₂.outside.drawn i = names' a
        ∧ ∀ name ∈ names' a, w₂.outside.objects (fullKey name) = full'
          ∧ w₂.outside.objects (thumbKey name) = thumb') :
  c.Does i (perform request) w fun y w' => ∃ a, y = .ok a ∧ c.Stage i (names' a) full' thumb' w'
  := by
  refine Holds.perform_stable (fun _ _ relies h => Stage.later h relies) ?_ ?_ h
  · rintro z w₁ w₂ relies ⟨a, rfl, h₁⟩
    exact ⟨a, rfl, h₁.later relies⟩
  · intro w₁ z w₂ h₁ answer
    obtain ⟨_, hanswer, db, reachable⟩ := answers_desk outside h₁.sound answer
    obtain ⟨relies, a, rfl, drawn, objects⟩ := step w₁ z w₂ h₁ hanswer db reachable
    exact ⟨relies, a, rfl, (relies h₁.sound).sound, drawn, objects, h₁.still_lost relies db⟩

theorem Stage.does_draw (h : c.Stage i [] full thumb w) :
  c.Does i (perform (.media .uuid4)) w fun y w' =>
    ∃ name, y = .ok name ∧ c.Stage i [name] none none w'
  := by
  apply h.does_step id
  rintro w₁ y w₂ h₁ ⟨name, rfl, length, undrawn, free, outside⟩ db reachable
  refine ⟨relies_draw reachable db ⟨name, rfl, length, undrawn, free, outside⟩, name, rfl, ?_,
    fun name' hname => ?_⟩
  · rw [outside]
    exact (Function.update_self _ _ _).trans (congrArg (name :: ·) h₁.drawn)
  · obtain rfl := List.mem_singleton.mp hname
    have none : ∀ key ∈ keysOf name', w₂.outside.objects key = none := by
      intro key hkey
      rw [outside]
      exact free key (startswith_keysOf hkey).1
    exact ⟨none _ (mem_keysOf.mpr (Or.inl rfl)), none _ (mem_keysOf.mpr (Or.inr rfl))⟩

/-- No object under `media/` is the upload. -/
theorem ne_pendingKey {key : String} (hkey : startswith key mediaPrefix = true) :
  key ≠ c.pendingKey
  := by
  rintro rfl
  rw [pendingKey, startswith_uploads] at hkey
  exact Bool.false_ne_true hkey

/-- An object of the call is stored or deleted. -/
theorem Stage.does_object (h : c.Stage i [name] full thumb w)
    (request : Request BucketRequest Unit) {key : String} (value : Option (List UInt8))
    (outside : ¬ request.OfDatabase) (own : key ∈ keysOf name)
    (answered : ∀ desk y desk', Desk.Answers i request desk y desk' →
      y = .ok () ∧ desk'.drawn = desk.drawn
        ∧ desk'.objects = Function.update desk.objects key value) :
  c.Does i (perform request) w fun y w' => ∃ a, y = .ok a
    ∧ c.Stage i [name] (if key = fullKey name then value else full)
        (if key = thumbKey name then value else thumb) w'
  := by
  apply h.does_step outside
  intro w₁ y w₂ h₁ hanswer db reachable
  obtain ⟨rfl, drawn, objects⟩ := answered _ _ _ hanswer
  have stores : Stores (c := c) i w₁ w₂ := by
    refine ⟨reachable, db, drawn, fun key' _ free => ?_,
      fun name' image won => absurd won (h₁.lost name' image), fun body hbody => ?_⟩
    · rw [objects, Function.update_of_ne]
      rintro rfl
      exact free name (h₁.drawn ▸ List.mem_singleton_self name) own
    · rw [objects, Function.update_of_ne (ne_pendingKey (startswith_keysOf own).2).symm] at hbody
      exact hbody
  refine ⟨stores.relies, (), rfl, by rw [drawn, h₁.drawn], fun name' hname => ?_⟩
  obtain rfl := List.mem_singleton.mp hname
  obtain ⟨hfull, hthumb⟩ := h₁.objects name' (List.mem_singleton_self name')
  rw [objects, Function.update_apply, Function.update_apply, hfull, hthumb]
  exact ⟨if_congr eq_comm rfl rfl, if_congr eq_comm rfl rfl⟩

/-- An object that the bucket deletes is deleted. -/
theorem does_delete_of_deleteObject {key : String}
    (deletes : c.Does i (perform (.media (.deleteObject key))) w fun y w' =>
      ∃ a, y = .ok a ∧ c.Stage i names full thumb w') :
  c.Does i (S3MediaStorage.delete key) w fun y w' =>
    ∃ a, y = .ok a ∧ c.Stage i names full thumb w'
  := by
  refine Holds.bind (relies_stable i) (Holds.outcome (deletes.mono ?_))
  rintro y w₁ ⟨a, rfl, h₁⟩
  exact fun w₂ relies => ⟨(), rfl, h₁.later relies⟩

/-- Deleting one of its own objects. -/
theorem Stage.does_delete (h : c.Stage i [name] full thumb w) {key : String}
    (own : key ∈ keysOf name) :
  c.Does i (S3MediaStorage.delete key) w fun y w' => ∃ a, y = .ok a
    ∧ c.Stage i [name] (if key = fullKey name then none else full)
        (if key = thumbKey name then none else thumb) w'
  := by
  apply does_delete_of_deleteObject
  exact h.does_object (.media (.deleteObject key)) none id own
    fun _ _ _ answer => ⟨answer.2.1, answer.1, answer.2.2⟩

/-- The objects of an image that was not inserted are deleted. -/
theorem Stage.does_discard (h : c.Stage i [name] full thumb w) (quotas : ProductQuotas) (size : ℕ) :
  c.Does i (ProductService.discard ⟨c.storage.media, quotas⟩
      ⟨fullKey name, thumbKey name, "image/webp", size⟩) w fun y w' =>
    ∃ a, y = .ok a ∧ c.Stage i [name] none none w'
  := by
  unfold ProductService.discard
  refine Holds.bind_ok (relies_stable i) (h.does_delete (mem_keysOf.mpr (Or.inl rfl))) ?_
  intro _ w₁ h₁
  rw [if_pos rfl, if_neg (Ne.symm (fullKey_ne_thumbKey name))] at h₁
  refine Holds.mono (h₁.does_delete (mem_keysOf.mpr (Or.inr rfl))) ?_
  rintro y w₂ ⟨a, rfl, h₂⟩
  rw [if_neg (fullKey_ne_thumbKey name), if_pos rfl] at h₂
  exact ⟨a, rfl, h₂⟩

/-- The upload is dropped. -/
theorem Stage.does_drop (h : c.Stage i [name] full thumb w) (proper : c.Proper) :
  c.Does i (c.storage.drop c.uploadKey) w fun y w' =>
    ∃ a, y = .ok a ∧ c.Stage i [name] full thumb w'
  := by
  unfold S3MediaStorage.drop
  rw [proper.pending_eq, Program.ofExcept, done_bind]
  apply does_delete_of_deleteObject
  apply h.does_step id
  rintro w₁ y w₂ h₁ ⟨drawn, rfl, objects⟩ db reachable
  have other : ∀ key, startswith key mediaPrefix = true →
      w₂.outside.objects key = w₁.outside.objects key := fun key hkey => by
    rw [objects, Function.update_of_ne (ne_pendingKey hkey)]
  have stores : Stores (c := c) i w₁ w₂ := by
    refine ⟨reachable, db, drawn, fun key hkey _ => other key hkey,
      fun name' image won => absurd won (h₁.lost name' image), fun body hbody => ?_⟩
    rw [objects, Function.update_self] at hbody
    cases hbody
  refine ⟨stores.relies, (), rfl, by rw [drawn, h₁.drawn], fun name' hname => ?_⟩
  rw [other _ (startswith_keysOf (mem_keysOf.mpr (Or.inl rfl))).2,
    other _ (startswith_keysOf (mem_keysOf.mpr (Or.inr rfl))).2]
  exact h₁.objects name' hname

/-- The upload is encoded and both objects are stored, and it is dropped. -/
theorem Stage.does_storeImage (h : c.Stage i [] full thumb w) (proper : c.Proper) :
  c.Does i (c.storage.storeImage c.uploadKey) w fun y w' => ∃ stored, y = .ok stored ∧ ∃ name,
    stored = ⟨fullKey name, thumbKey name, "image/webp", c.full.length⟩
      ∧ c.Stage i [name] (some c.full) (some c.thumb) w'
  := by
  unfold S3MediaStorage.storeImage
  refine Holds.bind_ok (relies_stable i) (h.does_readPending proper) ?_
  rintro _ w₁ ⟨h₁, rfl⟩
  rw [proper.decodes, Program.ofExcept, done_bind]
  refine Holds.bind_ok (relies_stable i) h₁.does_draw ?_
  intro name w₂ h₂
  have first := h₂.does_object (.media (.putObject (fullKey name) c.full)) (some c.full) id
    (mem_keysOf.mpr (Or.inl rfl))
    fun _ _ _ answer => ⟨answer.2.1, answer.1, answer.2.2⟩
  refine Holds.bind_ok (relies_stable i) first ?_
  intro _ w₃ h₃
  rw [if_pos rfl, if_neg (Ne.symm (fullKey_ne_thumbKey name))] at h₃
  have second := h₃.does_object (.media (.putObject (thumbKey name) c.thumb)) (some c.thumb) id
    (mem_keysOf.mpr (Or.inr rfl))
    fun _ _ _ answer => ⟨answer.2.1, answer.1, answer.2.2⟩
  refine Holds.bind_ok (relies_stable i) second ?_
  intro _ w₄ h₄
  rw [if_neg (fullKey_ne_thumbKey name), if_pos rfl] at h₄
  refine Holds.bind_ok (relies_stable i) (h₄.does_drop proper) ?_
  intro _ w₅ h₅ w₆ relies
  exact ⟨_, rfl, name, rfl, h₅.later relies⟩

/-- The image of the upload is that of the winner. -/
theorem Sound.lookup (h : c.Sound w) (proper : c.Proper) :
  w.db.images.find? (fun image =>
      image.productId = c.productId && image.uploadKey = some c.uploadKey) = some image
    ↔ ∃ j name, c.Won j name image w
  := by
  have start : ∀ old ∈ c.start.db.images,
      ¬ (old.productId = c.productId && old.uploadKey = some c.uploadKey) = true := by
    intro old hold hp
    simp only [Bool.and_eq_true, decide_eq_true_eq] at hp
    exact proper.unconfirmed old hold hp.1 hp.2
  have only : ∀ {j name image image'}, c.Won j name image w → image' ∈ w.db.images →
      (image'.productId = c.productId && image'.uploadKey = some c.uploadKey) = true →
      image' = image := by
    intro j name image image' won hmem hp
    rw [won.images] at hmem
    obtain rfl | hold := (Table.mem_put_of_get won.fresh).mp hmem
    · rfl
    · exact absurd hp (start image' hold)
  constructor
  · intro found
    obtain ⟨hmem, hp⟩ := Table.mem_of_find?_eq_some found
    obtain same | ⟨j, name, image', won⟩ := h.images
    · exact absurd hp (start image (same ▸ hmem))
    · obtain rfl := only won hmem hp
      exact ⟨j, name, won⟩
  · rintro ⟨j, name, won⟩
    apply Table.find?_eq_some_of_unique
    · rw [won.images]
      exact (Table.mem_put_of_get won.fresh).mpr (Or.inl rfl)
    · simp only [won.product, won.upload, decide_true, Bool.and_self]
    · exact fun image' hmem hp => only won hmem hp

/-- Announcing a change changes nothing. -/
theorem Known.does_notify {P : World Desk → Prop} (known : c.Known i P) (h : P w)
    (action productId workspaceId : String) :
  c.Does i (ProductService.notify action productId workspaceId) w fun y w' =>
    ∃ a, y = .ok a ∧ P w'
  := by
  have still : ∀ a : List String, c.Known i fun w => P w ∧ True :=
    fun _ => ⟨fun w h => known.sound w h.1,
      fun w w' h relies => ⟨known.later w w' h.1 relies, trivial⟩⟩
  unfold ProductService.notify
  refine Holds.bind_ok (relies_stable i) (known.does_select h still fun _ _ _ => trivial) ?_
  rintro recipients w₁ ⟨h₁, _⟩
  have reads_clock : c.Does i (perform .now) w₁ fun y w' => ∃ a, y = .ok a ∧ P w' ∧ True := by
    apply known.does_quiet h₁ id
    rintro w₂ y desk _ _ ⟨drawn, ⟨time, hy⟩, objects⟩
    exact ⟨desk_eq drawn objects, time, hy, trivial⟩
  refine Holds.bind_ok (relies_stable i) reads_clock ?_
  rintro time w₂ ⟨h₂, _⟩
  have publishes : c.Does i (perform (.publish ⟨action, productId, workspaceId, time⟩ recipients))
      w₂ fun y w' => ∃ a, y = .ok a ∧ P w' ∧ True := by
    apply known.does_quiet h₂ id
    rintro w₃ y desk _ _ ⟨drawn, hy, objects⟩
    exact ⟨desk_eq drawn objects, (), hy, trivial⟩
  refine Holds.mono publishes ?_
  rintro y w₃ ⟨a, rfl, h₃, _⟩
  exact ⟨a, rfl, h₃⟩

/-- A call ends with the image that has won, and but for that image nothing is left of its own. -/
structure Ended (c : Confirmation) (i : Bool) (image : ProductImage) (w : World Desk) : Prop where
  sound : c.Sound w
  won : ∃ j name, c.Won j name image w ∧ ∀ own ∈ w.outside.drawn i,
    own = name ∨ ∀ key ∈ keysOf own, w.outside.objects key = none

/-- The row of an image whose objects are stored is inserted, or the other call has won. -/
theorem Stage.does_transaction (h : c.Stage i [name] (some c.full) (some c.thumb) w)
    (proper : c.Proper) :
  c.Does i (transaction (ProductTx.attach c.quotas c.workspaceId c.productId
      ⟨fullKey name, thumbKey name, "image/webp", c.full.length⟩ c.uploadKey)) w fun y w' =>
    (∃ image, y = .ok image ∧ c.Winner i name image w')
      ∨ y = .error .duplicate ∧ ∃ name' image, c.Stage i [name] (some c.full) (some c.thumb) w'
        ∧ c.Won (!i) name' image w'
  := by
  unfold transaction UnitOfWork.attempts UnitOfWork.transactionIn
  have attempts : c.Does i (perform (.attempt (ProductTx.attach c.quotas c.workspaceId c.productId
      ⟨fullKey name, thumbKey name, "image/webp", c.full.length⟩ c.uploadKey))) w fun y w' =>
      (∃ image, y = .ok image ∧ c.Winner i name image w')
        ∨ y = .error .integrity ∧ ∃ name' image, c.Stage i [name] (some c.full) (some c.thumb) w'
          ∧ c.Won (!i) name' image w' := by
    refine Holds.perform_stable (fun _ _ relies h => Stage.later h relies) ?_ ?_ h
    · rintro z w₁ w₂ relies (⟨image, rfl, known⟩ | ⟨rfl, name', image, known⟩)
      · exact Or.inl ⟨image, rfl, known_winner.later w₁ w₂ known relies⟩
      · exact Or.inr ⟨rfl, name', image,
          (known_stage.won (!i) name' image).later w₁ w₂ known relies⟩
    · intro w₁ z w₂ h₁ answer
      obtain ⟨relies, ⟨image, rfl, won⟩ | ⟨rfl, h₂, name', image, won⟩⟩ := h₁.attach proper answer
      · exact ⟨relies, Or.inl ⟨image, rfl, won⟩⟩
      · exact ⟨relies, Or.inr ⟨rfl, name', image, h₂, won⟩⟩
  refine Holds.bind (relies_stable i) (Holds.outcome (attempts.mono ?_))
  rintro y w₁ (⟨image, rfl, known⟩ | ⟨rfl, name', image, known⟩)
  · intro w₂ relies
    exact Or.inl ⟨image, rfl, known_winner.later w₁ w₂ known relies⟩
  · intro w₂ relies
    exact Or.inr ⟨rfl, name', image,
      (known_stage.won (!i) name' image).later w₁ w₂ known relies⟩

/-- The call whose row breaks the unique constraint returns the image of the other one. -/
theorem Stage.does_attach (h : c.Stage i [name] (some c.full) (some c.thumb) w)
    (proper : c.Proper) :
  c.Does i (ProductService.attach ⟨c.storage.media, c.quotas⟩ c.workspaceId c.productId
      ⟨fullKey name, thumbKey name, "image/webp", c.full.length⟩ c.uploadKey) w fun y w' =>
    ∃ image, y = .ok image ∧ c.Ended i image w'
  := by
  unfold ProductService.attach
  refine Holds.bind (relies_stable i) (Holds.outcome ((h.does_transaction proper).mono ?_))
  rintro y w₁ (⟨image, rfl, known⟩ | ⟨rfl, name', image, h₁, won⟩)
  · refine Holds.bind_ok (relies_stable i) (known_winner.does_notify known _ _ _) ?_
    intro _ w₂ known₂ w₃ relies
    obtain ⟨sound, drawn, won⟩ := known_winner.later w₂ w₃ known₂ relies
    refine ⟨image, rfl, sound, i, name, won, fun own hown => Or.inl ?_⟩
    rw [drawn] at hown
    exact List.mem_singleton.mp hown
  · have discards : c.Does i (ProductService.discard ⟨c.storage.media, c.quotas⟩
        ⟨fullKey name, thumbKey name, "image/webp", c.full.length⟩) w₁ fun y w' =>
        ∃ a, y = .ok a ∧ c.Stage i [name] none none w' ∧ c.Won (!i) name' image w' := by
      refine Holds.mono (Holds.frame (known_sound.won (!i) name' image).later
        (known_sound.won (!i) name' image).later (h₁.does_discard c.quotas c.full.length)
        ⟨h₁.sound, won⟩) ?_
      rintro y w₂ ⟨⟨a, rfl, h₂⟩, _, won₂⟩
      exact ⟨a, rfl, h₂, won₂⟩
    have other : c.Known i fun w => c.Stage i [name] none none w ∧ c.Won (!i) name' image w :=
      known_stage.won (!i) name' image
    refine Holds.bind_ok (relies_stable i) discards ?_
    intro _ w₂ known₂
    have lookup : c.Does i (read (Products.imageByUploadKey c.productId c.uploadKey)) w₂
        fun y w' => ∃ a, y = .ok a ∧ (c.Stage i [name] none none w' ∧ c.Won (!i) name' image w')
          ∧ a = some image := by
      apply other.does_select known₂
      · exact fun a => ⟨fun w h => other.sound w h.1,
          fun w w' h relies => ⟨other.later w w' h.1 relies, h.2⟩⟩
      · exact fun w h _ => (h.1.sound.lookup proper).mpr ⟨_, name', h.2⟩
    refine Holds.bind_ok (relies_stable i) lookup ?_
    rintro _ w₃ ⟨known₃, rfl⟩ w₄ relies
    obtain ⟨h₄, won₄⟩ := other.later w₃ w₄ known₃ relies
    refine ⟨image, rfl, h₄.sound, !i, name', won₄, fun own hown => Or.inr fun key hkey => ?_⟩
    rw [h₄.drawn] at hown
    obtain ⟨hfull, hthumb⟩ := h₄.objects own hown
    obtain rfl | rfl := mem_keysOf.mp hkey
    · exact hfull
    · exact hthumb

/-- A call in time returns the image that has won. -/
theorem Stage.does_program (h : c.Stage i [] full thumb w) (proper : c.Proper) :
  c.Does i c.program w fun y w' => ∃ image, y = .ok image ∧ c.Ended i image w'
  := by
  have pure_known : ∀ {α : Type} (q : α → Prop) (a : α),
      c.Known i fun w => c.Stage i [] full thumb w ∧ q a := fun q a =>
    ⟨fun w h => h.1.sound, fun w w' h relies => ⟨h.1.later relies, h.2⟩⟩
  unfold program ProductService.confirmImage
  have exists_ : c.Does i (read (Products.exists? c.workspaceId c.productId)) w fun y w' =>
      ∃ a, y = .ok a ∧ c.Stage i [] full thumb w' ∧ a = true := by
    apply known_stage.does_select h (pure_known (· = true))
    intro w₁ h₁ _
    obtain ⟨row, hrow, hown⟩ := proper.product
    rw [h₁.sound.rows, hrow]
    simpa using hown
  refine Holds.bind_ok (relies_stable i) exists_ ?_
  rintro _ w₁ ⟨h₁, rfl⟩
  rw [if_pos rfl, Program.ofExcept, done_bind]
  have lookup : c.Does i (read (Products.imageByUploadKey c.productId c.uploadKey)) w₁ fun y w' =>
      ∃ a, y = .ok a ∧ c.Stage i [] full thumb w'
        ∧ ∀ image, a = some image → ∃ j name, c.Won j name image w' := by
    apply known_stage.does_select h₁
    · refine fun a => ⟨fun w h => h.1.sound, fun w w' h relies => ⟨h.1.later relies, ?_⟩⟩
      intro image ha
      obtain ⟨j, name, won⟩ := h.2 image ha
      exact ⟨j, name, (relies h.1.sound).winner j name image won⟩
    · exact fun w h _ image found => (h.sound.lookup proper).mp found
  refine Holds.bind_ok (relies_stable i) lookup ?_
  rintro a w₂ ⟨h₂, found⟩
  cases a with
  | some image =>
      intro w₃ relies
      obtain ⟨j, name, won⟩ := found image rfl
      have h₃ := h₂.later relies
      refine ⟨image, rfl, h₃.sound, j, name, (relies h₂.sound).winner j name image won,
        fun own hown => ?_⟩
      rw [h₃.drawn] at hown
      cases hown
  | none =>
      refine Holds.bind_ok (relies_stable i) (h₂.does_pendingSize proper) ?_
      rintro _ w₃ ⟨h₃, rfl⟩
      have used : c.Does i (read (Products.storageBytes c.workspaceId)) w₃ fun y w' =>
          ∃ a, y = .ok a ∧ c.Stage i [] full thumb w'
            ∧ c.quotas.ensureRoomForBytes a c.body.length = .ok () := by
        apply known_stage.does_select h₃
          (pure_known fun a => c.quotas.ensureRoomForBytes a c.body.length = .ok ())
        intro w h intime
        rw [ProductQuotas.ensureRoomForBytes_eq_ok, Table.sum_filter_rows]
        exact intime.1 HEq.rfl
      refine Holds.bind_ok (relies_stable i) used ?_
      rintro bytes w₄ ⟨h₄, room⟩
      rw [room, Except.mapError, Program.ofExcept, done_bind]
      have count : c.Does i (read (Products.countImages c.productId)) w₄ fun y w' =>
          ∃ a, y = .ok a ∧ c.Stage i [] full thumb w' ∧ ensureRoomForImageCount a = .ok () := by
        apply known_stage.does_select h₄ (pure_known fun a => ensureRoomForImageCount a = .ok ())
        intro w h intime
        rw [ensureRoomForImageCount_eq_ok]
        have slot := intime.2 HEq.rfl
        rw [Slot, Db.imagesOf, orderBy, List.length_insertionSort] at slot
        exact slot
      refine Holds.bind_ok (relies_stable i) count ?_
      rintro images w₅ ⟨h₅, slot⟩
      rw [slot, Except.mapError, Program.ofExcept, done_bind]
      refine Holds.bind_ok (relies_stable i) (h₅.does_storeImage proper) ?_
      rintro _ w₆ ⟨name, rfl, h₆⟩
      exact h₆.does_attach proper

/-! ### Both calls -/

theorem Proper.stage (proper : c.Proper) (i : Bool) :
  c.Stage i [] none none c.start
  := by
  have undrawn : ∀ j name, name ∉ c.start.outside.drawn j := fun j name h => by
    rw [proper.drawn j] at h
    cases h
  refine ⟨⟨proper.reachable, rfl, Or.inl rfl, fun j name h => absurd h (undrawn j name),
    fun j name h => absurd h (undrawn j name), fun j j' name h => absurd h (undrawn j name),
    fun _ _ _ => rfl, fun body hbody => ?_⟩, proper.drawn i, fun _ h => absurd h List.not_mem_nil,
    fun _ _ won => won.changed rfl⟩
  exact Option.some.inj (hbody.symm.trans proper.pending)

/-- If two calls that confirm the same upload are in time, none of them fails. When both have
returned they have returned the same image; it is the only one of the upload, and its two objects
are all that has been added under `media/`. -/
theorem same_image (proper : c.Proper) {x : Bool → Service BucketRequest ProductImage}
    (run : Interleaved (fun i => (c.timely i).machine) (fun _ => c.program) c.start x w) :
  (∀ i e, x i ≠ .fail e)
    ∧ ∀ image image', x false = .done image → x true = .done image' → image = image'
      ∧ (∀ other, other ∈ w.db.images ∧ other.productId = c.productId
          ∧ other.uploadKey = some c.uploadKey ↔ other = image)
      ∧ ∀ key, startswith key mediaPrefix = true →
        (w.outside.objects key ≠ c.start.outside.objects key
          ↔ key = image.key ∨ some key = image.thumbKey)
  := by
  obtain ⟨holds, sound⟩ : (∀ i, c.Does i (x i) w fun y w' => ∃ image, y = .ok image
      ∧ c.Ended i image w') ∧ c.Sound w := by
    apply run.holds relies_stable _ (fun i => (proper.stage i).does_program proper)
      (proper.stage false).sound fun i w w' relies sound => (relies sound).sound
    intro i j hne w w' relies
    obtain rfl := Bool.eq_not_of_ne hne
    exact relies
  have ended : ∀ {i image}, x i = .done image → c.Ended i image w := by
    intro i image done
    have hi := holds i
    rw [done] at hi
    obtain ⟨image', same, ended⟩ := hi w ((relies_stable i).refl w)
    exact Except.ok.inj same ▸ ended
  constructor
  · intro i e failed
    have hi := holds i
    rw [failed] at hi
    obtain ⟨_, impossible, _⟩ := hi w ((relies_stable i).refl w)
    cases impossible
  · intro image image' done done'
    obtain ⟨_, j, name, won, own⟩ := ended done
    obtain ⟨_, j', name', won', own'⟩ := ended done'
    obtain ⟨rfl, rfl, rfl⟩ := Won.same sound won won'
    refine ⟨rfl, fun other => ?_, fun key hkey => ?_⟩
    · rw [won.images, Table.mem_put_of_get won.fresh]
      constructor
      · rintro ⟨heq | hold, hproduct, hupload⟩
        · exact heq
        · exact absurd hupload (proper.unconfirmed other hold hproduct)
      · rintro rfl
        exact ⟨Or.inl rfl, won.product, won.upload⟩
    · have new := sound.new j name won.drawn
      have key_iff : key ∈ keysOf name ↔ key = image.key ∨ some key = image.thumbKey := by
        rw [mem_keysOf, won.full, won.thumb, Option.some_inj]
      rw [← key_iff]
      constructor
      · intro changed
        by_contra other
        have nothing : ∀ i, (∀ own ∈ w.outside.drawn i, own = name
              ∨ ∀ key ∈ keysOf own, w.outside.objects key = none) →
            ∀ own ∈ w.outside.drawn i, key ∉ keysOf own := by
          intro i left n hn hkey'
          obtain rfl | none := left n hn
          · exact other hkey'
          · exact changed ((none key hkey').trans (sound.new i n hn key hkey').symm)
        apply changed
        apply sound.media key hkey
        intro i
        cases i with
        | false => exact nothing false own
        | true => exact nothing true own'
      · intro hkey
        rw [new key hkey]
        obtain rfl | rfl := mem_keysOf.mp hkey
        · rw [won.stored.1]
          exact Option.some_ne_none _
        · rw [won.stored.2]
          exact Option.some_ne_none _

end Confirmation

/-! ### An upload that is confirmed -/

def sampleName : String := "0123456789abcdef0123456789abcdef"

/-- What Ada's upload is stored as. -/
def sampleStored : StoredImage :=
  ⟨"media/0123456789abcdef0123456789abcdef.webp",
    "media/0123456789abcdef0123456789abcdef_thumb.webp", "image/webp", 1⟩

theorem sampleStored_eq :
  sampleStored = ⟨fullKey sampleName, thumbKey sampleName, "image/webp", 1⟩
  := by
  decide +kernel

/-- Ada has a product without an image, and inserts one. -/
theorem exists_inserted :
  ∃ (s s' : Session) (image winner : ProductImage) (members : List String),
    Reachable .sample (fun _ => True) s
    ∧ ((Products.exists? "i" "iiiiii").run .sample s).1 = .ok true
    ∧ ((Products.imageByUploadKey "iiiiii" "k").run .sample s).1 = .ok none
    ∧ ((Products.storageBytes "i").run .sample s).1 = .ok 0
    ∧ ((Products.countImages "iiiiii").run .sample s).1 = .ok 0
    ∧ Returns (ProductTx.attach ⟨1, 100⟩ "i" "iiiiii" sampleStored "k") .sample s image s'
    ∧ s'.db.Unique
    ∧ ((Members.userIds "i").run .sample s'.done).1 = .ok members
    ∧ ((Products.exists? "i" "iiiiii").run .sample s'.done).1 = .ok true
    ∧ ((Products.imageByUploadKey "iiiiii" "k").run .sample s'.done).1 = .ok (some winner)
    ∧ ((Products.storageBytes "i").run .sample s'.done).1 = .ok 1
    ∧ ((Products.countImages "iiiiii").run .sample s'.done).1 = .ok 1
  := by
  let s : Session := .after .sample [.register "ada" "ada@acme.test" "Ada" none,
    .create "Acme" "acme" "ada", .createProduct ⟨1, 100⟩ "i" "Pen" none 100 .active none]
  let attach := ProductTx.attach ⟨1, 100⟩ "i" "iiiiii" sampleStored "k"
  let s' := (attach.run .sample s).2
  obtain ⟨image, attached, _⟩ := Except.map_eq_ok.mp (show (fun _ => ()) <$>
    (attach.run .sample s).1 = .ok () by decide +kernel)
  have lookup : Option.isSome <$> ((Products.imageByUploadKey "iiiiii" "k").run .sample s'.done).1
      = .ok true := by decide +kernel
  obtain ⟨found, looked, hfound⟩ := Except.map_eq_ok.mp lookup
  obtain ⟨winner, rfl⟩ := Option.isSome_iff_exists.mp hfound
  refine ⟨s, s', image, winner, ["ada"], .after (by simp), ?_, ?_, ?_, ?_, .of_run attached, ?_, ?_,
    ?_, looked, ?_, ?_⟩
  all_goals decide +kernel

/-- Ada's upload, to be confirmed by two calls. -/
def sampleUpload (s : Session) : Confirmation where
  env := .sample
  storage := S3MediaStorage.sample
  quotas := ⟨1, 100⟩
  workspaceId := "i"
  productId := "iiiiii"
  uploadKey := "k"
  body := [1]
  full := [1]
  thumb := [1]
  start := ⟨s, ⟨.sample, fun _ => []⟩, []⟩

/-- What is counted and added up is read by queries. -/
theorem room_and_slot {s s₁ : Session} {bytes count : ℕ}
    (used : ((Products.storageBytes "i").run .sample s₁).1 = .ok bytes)
    (images : ((Products.countImages "iiiiii").run .sample s₁).1 = .ok count) (small : bytes ≤ 1)
    (few : count ≤ 1) :
  ((sampleUpload s).Room s₁.db 1) ∧ (sampleUpload s).Slot s₁.db
  := by
  have hused : ((s₁.db.images.rows.filter (·.workspaceId = "i")).map ProductImage.sizeBytes).sum
      = bytes := Except.ok.inj used
  have himages : (s₁.db.images.rows.filter (·.productId = "iiiiii")).length = count :=
    Except.ok.inj images
  constructor
  · rw [Table.sum_filter_rows] at hused
    show s₁.db.storageUsed "i" + 1 ≤ 100
    rw [Db.storageUsed, hused]
    omega
  · show (s₁.db.imagesOf "iiiiii").length < maxImagesPerProduct
    rw [Db.imagesOf, orderBy, List.length_insertionSort, himages]
    exact Nat.lt_of_le_of_lt few (by decide)

theorem sampleUpload_proper {s : Session} (reachable : Reachable .sample (fun _ => True) s)
    (product : ((Products.exists? "i" "iiiiii").run .sample s).1 = .ok true)
    (lookup : ((Products.imageByUploadKey "iiiiii" "k").run .sample s).1 = .ok none)
    (used : ((Products.storageBytes "i").run .sample s).1 = .ok 0)
    (images : ((Products.countImages "iiiiii").run .sample s).1 = .ok 0) :
  (sampleUpload s).Proper
  := by
  obtain ⟨room, slot⟩ := @room_and_slot s s 0 0 used images (by decide) (by decide)
  have pending : Bucket.sample ("uploads/" ++ "k") = some [1] := by decide +kernel
  have admissible : [(1 : UInt8)].length ≤ 1000 := by decide
  refine ⟨Env.sample_lawful, reachable, ?_, ?_, rfl, pending, admissible, rfl, ⟨room, room⟩, slot,
    fun _ => rfl⟩
  · have known : (s.db.products.get "iiiiii").any (·.workspaceId = "i") = true :=
      Except.ok.inj product
    obtain ⟨row, hrow, hown⟩ := (Option.any_eq_true _ _).mp known
    exact ⟨row, hrow, of_decide_eq_true hown⟩
  · intro image himage hproduct hupload
    have none := Table.find?_eq_none_iff.mp (Except.ok.inj lookup) image himage
    rw [show image.productId = "iiiiii" from hproduct, show image.uploadKey = some "k" from hupload]
      at none
    exact none (by decide)

/-- A call that nobody disturbs confirms the upload. -/
theorem sampleUpload_ends {s s' : Session} {image : ProductImage} {members : List String}
    (product : ((Products.exists? "i" "iiiiii").run .sample s).1 = .ok true)
    (lookup : ((Products.imageByUploadKey "iiiiii" "k").run .sample s).1 = .ok none)
    (used : ((Products.storageBytes "i").run .sample s).1 = .ok 0)
    (images : ((Products.countImages "iiiiii").run .sample s).1 = .ok 0)
    (returns : Returns (ProductTx.attach ⟨1, 100⟩ "i" "iiiiii" sampleStored "k") .sample s image s')
    (unique : s'.db.Unique)
    (announced : ((Members.userIds "i").run .sample s'.done).1 = .ok members)
    (used' : ((Products.storageBytes "i").run .sample s'.done).1 = .ok 1)
    (images' : ((Products.countImages "iiiiii").run .sample s'.done).1 = .ok 1)
    {Allows : {β : Type} → Request BucketRequest β → World Desk → Except Failure β → Prop}
    (allows : ∀ {β : Type} (request : Request BucketRequest β) (w : World Desk)
      (y : Except Failure β), (sampleUpload s).InTime request w → Allows request w y) (i : Bool) :
  ∃ w, Ends (racing .sample Allows i).machine (sampleUpload s).program (sampleUpload s).start
      (.ok image) w
    ∧ w.session = s'.done ∧ w.outside.objects (sampleUpload s).pendingKey = none
  := by
  obtain ⟨room, slot⟩ := @room_and_slot s s 0 0 used images (by decide) (by decide)
  obtain ⟨room', slot'⟩ := @room_and_slot s s'.done 1 1 used' images' (by decide) (by decide)
  rw [sampleStored_eq] at returns
  have reads : ∀ {α : Type} {query : Tx α} {a : α} {w : World Desk},
      (query.run .sample w.session).1 = .ok a → (sampleUpload s).Room w.db 1 →
      (sampleUpload s).Slot w.db →
      (racing .sample Allows i).machine.Answers (.read query) w (.ok a) w :=
    fun hy room slot => Setting.answers_of_run hy (allows _ _ _ ⟨fun _ => room, fun _ => slot⟩)
  have asks : ∀ {β : Type} {request : Request BucketRequest β} {y : Except Failure β}
      {w : World Desk} {desk : Desk}, ¬ request.OfDatabase → (sampleUpload s).InTime request w →
      Desk.Answers i request w.outside y desk →
      (racing .sample Allows i).machine.Answers request w y ⟨w.session, desk, w.commits⟩ :=
    fun outside intime answer => Setting.answers_of_outside outside answer (allows _ _ _ intime)
  have present : Bucket.sample ("uploads/" ++ "k") = some [1] := by decide +kernel
  have free : ∀ key, startswith key (mediaPrefix ++ sampleName) = true →
      Bucket.sample key = none := by
    intro key hkey
    refine if_neg ?_
    rintro rfl
    exact absurd hkey (by decide +kernel)
  have there : (sampleUpload s).start.outside.objects (uploadPrefix ++ "k") ≠ none :=
    Option.ne_none_iff_exists'.mpr ⟨_, present⟩
  have sized : Desk.Answers i (.media (.headObject (uploadPrefix ++ "k")))
      (sampleUpload s).start.outside (.ok 1) (sampleUpload s).start.outside :=
    ⟨rfl, rfl, rfl⟩
  have puts : ∀ {key : String} {body : List UInt8} {s : Session} {objects : Bucket}
      {drawn : Bool → List String},
      (racing .sample Allows i).machine.Answers (.media (.putObject key body))
        ⟨s, ⟨objects, drawn⟩, []⟩ (.ok ())
        ⟨s, ⟨Function.update objects key (some body), drawn⟩, []⟩ :=
    asks id trivial ⟨rfl, rfl, rfl⟩
  have deletes : ∀ {key : String} {s : Session} {objects : Bucket} {drawn : Bool → List String},
      (racing .sample Allows i).machine.Answers (.media (.deleteObject key))
        ⟨s, ⟨objects, drawn⟩, []⟩ (.ok ()) ⟨s, ⟨Function.update objects key none, drawn⟩, []⟩ :=
    asks id trivial ⟨rfl, rfl, rfl⟩
  have draws : (racing .sample Allows i).machine.Answers (.media .uuid4) (sampleUpload s).start
      (.ok sampleName) ⟨s, ⟨.sample, Function.update (fun _ => []) i [sampleName]⟩, []⟩ :=
    asks id trivial ⟨sampleName, rfl, by decide +kernel, fun _ => List.not_mem_nil, free, rfl⟩
  let objects : Bucket := Function.update (Function.update (Function.update Bucket.sample
    (fullKey sampleName) (some [1])) (thumbKey sampleName) (some [1])) (uploadPrefix ++ "k") none
  let stored : World Desk := ⟨s, ⟨objects, Function.update (fun _ => []) i [sampleName]⟩, []⟩
  have dropped : objects (uploadPrefix ++ "k") = none := Function.update_self ..
  refine ⟨stored.commit s s', ?_, rfl, dropped⟩
  refine .ask (reads product room slot) ?_
  refine .ask (reads lookup room slot) ?_
  refine .ask (asks id there sized) ?_
  refine .ask (reads used room slot) ?_
  refine .ask (reads images room slot) ?_
  refine .ask (asks id there sized) ?_
  refine .ask (asks id there ⟨rfl, rfl, rfl⟩) ?_
  refine .ask draws ?_
  refine .ask puts ?_
  refine .ask puts ?_
  refine .ask deletes ?_
  refine .ask (Setting.answers_of_returns returns unique (allows _ _ _ fun _ => ⟨room, slot⟩)) ?_
  refine .ask (reads announced room' slot') ?_
  refine .ask (asks id trivial ⟨rfl, ⟨0, rfl⟩, rfl⟩) ?_
  refine .ask (asks id trivial ⟨rfl, rfl, rfl⟩) ?_
  exact .done _ _

/-- Both calls confirm Ada's upload, and one of them begins before the other one and ends after
it. -/
theorem same_image_confirmed_again :
  ∃ (s : Session) (image : ProductImage) (x : Bool → Service BucketRequest ProductImage)
      (w : World Desk),
    Interleaved (fun i => ((sampleUpload s).timely i).machine) (fun _ => (sampleUpload s).program)
        (sampleUpload s).start x w
    ∧ x false = .done image ∧ x true = .done image
    ∧ (∀ i e, x i ≠ .fail e)
    ∧ (∀ other, other ∈ w.db.images ∧ other.productId = "iiiiii" ∧ other.uploadKey = some "k"
      ↔ other = image)
    ∧ ∀ key, startswith key mediaPrefix = true →
      (w.outside.objects key ≠ Bucket.sample key ↔ key = image.key ∨ some key = image.thumbKey)
  := by
  obtain ⟨s, s', image, winner, members, reachable, product, lookup, used, images, returns, unique,
    announced, product', lookup', used', images'⟩ := exists_inserted
  let c := sampleUpload s
  have proper : c.Proper := sampleUpload_proper reachable product lookup used images
  obtain ⟨w, ends, hsession, _⟩ := sampleUpload_ends product lookup used images returns unique
    announced used' images' (fun _ _ _ intime => intime) false
  obtain ⟨room', slot'⟩ := @room_and_slot s s'.done 1 1 used' images' (by decide) (by decide)
  obtain ⟨room, slot⟩ := @room_and_slot s s 0 0 used images (by decide) (by decide)
  have known : Interleaved (fun i => (c.timely i).machine) (fun _ => c.program) c.start _ c.start :=
    .step (i := true) .start rfl (Setting.answers_of_run product ⟨fun _ => room, fun _ => slot⟩)
  have first : Interleaved (fun i => (c.timely i).machine) (fun _ => c.program) c.start _ w :=
    known.ends rfl ends
  have intime : ∀ {α : Type} (query : Tx α), c.InTime (.read query) w := by
    intro α query
    have hdb : w.db = s'.done.db := congrArg Session.db hsession
    exact ⟨fun _ => hdb ▸ room', fun _ => hdb ▸ slot'⟩
  have found : Interleaved (fun i => (c.timely i).machine) (fun _ => c.program) c.start _ w :=
    .step (i := true) first rfl (Setting.answers_of_run (hsession ▸ lookup')
      (intime (Products.imageByUploadKey "iiiiii" "k")))
  obtain ⟨never, same⟩ := Confirmation.same_image proper found
  obtain ⟨rfl, row, objects⟩ := same image winner rfl rfl
  exact ⟨s, image, _, w, found, rfl, rfl, never, row, objects⟩

/-! ### A call that comes too late -/

/-- A call has found no image of the upload, the other one confirms it and drops it, and the first
is answered that it was never uploaded. -/
theorem confirmed_upload_not_found :
  ∃ (s : Session) (image : ProductImage) (x : Bool → Service BucketRequest ProductImage)
      (w : World Desk),
    (sampleUpload s).Proper
    ∧ Interleaved (fun i => (racing .sample (fun _ _ _ => True) i).machine)
        (fun _ => (sampleUpload s).program) (sampleUpload s).start x w
    ∧ x false = .done image ∧ x true = .fail (.domain (.notFound uploadNotFound))
  := by
  obtain ⟨s, s', image, winner, members, reachable, product, lookup, used, images, returns, unique,
    announced, product', lookup', used', images'⟩ := exists_inserted
  let c := sampleUpload s
  let ms : Bool → Machine (Request BucketRequest) Failure (World Desk) :=
    fun i => (racing .sample (fun _ _ _ => True) i).machine
  obtain ⟨w, ends, _, dropped⟩ := sampleUpload_ends product lookup used images returns unique
    announced used' images' (fun _ _ _ _ => trivial) false
  have known : Interleaved ms (fun _ => c.program) c.start _ c.start :=
    .step (i := true) .start rfl (Setting.answers_of_run product trivial)
  have missing : Interleaved ms (fun _ => c.program) c.start _ c.start :=
    .step (i := true) known rfl (Setting.answers_of_run lookup trivial)
  have confirmed : Interleaved ms (fun _ => c.program) c.start _ w := missing.ends rfl ends
  have absent : Desk.Answers true (.media (.headObject c.pendingKey)) w.outside
      (.error (.client "404")) w.outside :=
    ⟨rfl, by rw [dropped]; rfl, rfl⟩
  have late : Interleaved ms (fun _ => c.program) c.start _ w :=
    .step (i := true) confirmed rfl (Setting.answers_of_outside id absent trivial)
  exact ⟨s, image, _, w, sampleUpload_proper reachable product lookup used images, late, rfl, rfl⟩

end MvpApi
