import MvpApi.Runs.System

/-!
# Products and images along runs

The transactions that are not about products leave products and images as they are, and only one
attaches images. So the ids of the images in a reachable session were all drawn.
-/

set_option autoImplicit false

namespace MvpApi

open Exec Tx

/-! ### The transactions on products -/

/-- The transactions on products and images, and those of a purge. -/
def Work.OnProducts : Work → Prop
  | .createProduct .. | .updateProduct .. | .deleteProduct .. | .attachImage .. => True
  | .removeImage .. | .reorderImages .. | .deleteBatch .. | .purgeRows .. => True
  | _ => False

/-- The other transactions leave the products and their images alone. -/
theorem Effect.same_products {env : Env} {s s' : Session} {work : Work}
    (h : Effect env s s' work) (other : ¬ work.OnProducts) :
  s'.db.products = s.db.products ∧ s'.db.images = s.db.images
  := by
  have unless_taken : ∀ {db : Db} {user : User},
      (db.addUnlessTaken user).products = db.products
        ∧ (db.addUnlessTaken user).images = db.images := by
    intro db user
    obtain ⟨_, hdb, _⟩ := db.addUnlessTaken_eq user
    rw [hdb]
    exact ⟨rfl, rfl⟩
  have joined : ∀ {token userId : String} {s₁ : Session}, Joins env token userId s₁ s' →
      s'.db.products = s₁.db.products ∧ s'.db.images = s₁.db.images := by
    rintro token userId s₁ ⟨_, _, _, _, _, _, _, _, _, _, _, _, _, _, _, _, _, _, _, _, db⟩
    rw [db]
    exact ⟨rfl, rfl⟩
  cases h with
  | create _ _ _ _ _ _ _ _ _ _ _ _ _ _ _ _ _ _ _ _ db _ => exact ⟨by rw [db], by rw [db]⟩
  | update _ _ _ _ db => exact ⟨by rw [db], by rw [db]⟩
  | replaceLogo _ _ _ _ db => exact ⟨by rw [db], by rw [db]⟩
  | delete _ _ _ _ _ _ _ _ db => exact ⟨by rw [db]; rfl, by rw [db]; rfl⟩
  | addRole _ _ _ _ _ _ _ db => exact ⟨by rw [db], by rw [db]⟩
  | renameRole _ _ _ _ _ _ _ _ _ db => exact ⟨by rw [db], by rw [db]⟩
  | deleteRole _ _ _ _ _ _ _ _ _ _ _ db => exact ⟨by rw [db], by rw [db]⟩
  | setPermissions _ _ _ _ _ _ _ _ _ db => exact ⟨by rw [db], by rw [db]⟩
  | setMemberRole _ _ _ _ _ _ _ _ _ _ _ db => exact ⟨by rw [db], by rw [db]⟩
  | removeMember _ _ _ _ _ _ _ db => exact ⟨by rw [db]; rfl, by rw [db]; rfl⟩
  | transfer _ _ _ _ _ _ _ _ _ _ _ _ _ _ db _ => exact ⟨by rw [db], by rw [db]⟩
  | issue _ _ _ _ _ _ _ _ _ _ _ _ _ _ _ _ _ _ _ _ _ _ db => exact ⟨by rw [db], by rw [db]⟩
  | revoke _ _ _ _ _ _ _ _ _ db => exact ⟨by rw [db], by rw [db]⟩
  | accept joins => exact joined joins
  | register _ _ db => rw [db]; exact unless_taken
  | registerAndJoin _ _ db _ _ joins =>
      have hjoined := joined joins
      rw [db, unless_taken.1, unless_taken.2] at hjoined
      exact hjoined
  | ensureAccount _ _ db => rw [db]; exact unless_taken
  | rename _ _ _ _ db => exact ⟨by rw [db], by rw [db]⟩
  | replaceAvatar _ _ _ db => exact ⟨by rw [db], by rw [db]⟩
  | deleteAccount _ _ _ _ _ db => exact ⟨by rw [db], by rw [db]⟩
  | _ => exact absurd trivial other

/-! ### The ids of images -/

/-- The images after a transaction have the ids of images before it, but for one that it attaches. -/
theorem Effect.images_old {env : Env} {s s' : Session} {work : Work} (h : Effect env s s' work)
    (other : ∀ quotas workspaceId productId stored uploadKey,
      work ≠ .attachImage quotas workspaceId productId stored uploadKey) :
  ∀ image ∈ s'.db.images, ∃ old ∈ s.db.images, old.id = image.id
  := by
  have same : s'.db.images = s.db.images →
      ∀ image ∈ s'.db.images, ∃ old ∈ s.db.images, old.id = image.id :=
    fun himages image himage => ⟨image, himages ▸ himage, rfl⟩
  have moved : ∀ {productId : String} {images : List ProductImage},
      (∀ image ∈ images, ∃ old ∈ s.db.images, old.productId = productId
        ∧ image = { old with position := image.position }) →
      s'.db.images = images.foldl Table.put (s.db.images.filter (·.productId ≠ productId)) →
      ∀ image ∈ s'.db.images, ∃ old ∈ s.db.images, old.id = image.id := by
    intro productId images hmoved himages image himage
    rw [himages] at himage
    rcases Table.mem_foldl_put himage with himage | himage
    · obtain ⟨old, hold, _, heq⟩ := hmoved image himage
      exact ⟨old, hold, by rw [heq]⟩
    · exact ⟨image, (Table.mem_filter.mp himage).1, rfl⟩
  by_cases on : work.OnProducts
  · cases h with
    | createProduct _ _ _ _ db => exact same (by rw [db])
    | updateProduct _ _ _ _ _ _ db => exact same (by rw [db])
    | deleteProduct _ _ _ _ db =>
        rw [db]
        exact fun image himage => ⟨image, (Table.mem_filter.mp himage).1, rfl⟩
    | attachImage => exact absurd rfl (other _ _ _ _ _)
    | removeImage _ _ _ _ hmoved _ db => exact moved hmoved (by rw [db])
    | reorderImages _ _ _ _ hmoved _ db => exact moved hmoved (by rw [db])
    | deleteBatch _ db =>
        rw [db]
        exact fun image himage => ⟨image, (Table.mem_filter.mp himage).1, rfl⟩
    | purgeNothing _ same' => exact same (by rw [same'])
    | purgeRows _ _ _ _ db => exact same (by rw [db]; rfl)
    | _ => exact on.elim
  · exact same (h.same_products on).2

/-- In every reachable session the ids of the images were drawn. -/
theorem Reachable.image_drawn {env : Env} {ok : Work → Prop} {s : Session}
    (h : Reachable env ok s) :
  ∀ image ∈ s.db.images, s.Drawn env image.id
  := by
  induction h with
  | refl => exact fun image himage => by cases himage
  | @commit s s' work u run _ returns _ ih =>
      obtain ⟨effect, later⟩ := Work.effect returns
      intro image himage
      by_cases attaches : ∃ quotas workspaceId productId stored uploadKey,
          work = .attachImage quotas workspaceId productId stored uploadKey
      · obtain ⟨quotas, workspaceId, productId, stored, uploadKey, rfl⟩ := attaches
        obtain ⟨new, returns'⟩ := Tx.returns_run'.mp returns
        obtain ⟨_, _, _, _, rfl, rfl⟩ := ProductTx.returns_attach.mp returns'
        rcases Table.mem_put.mp himage with rfl | ⟨himage, _⟩
        · exact ⟨s.ids, Nat.lt_succ_self _, rfl⟩
        · exact (ih image himage).mono later.done
      · obtain ⟨old, hold, hid⟩ := effect.images_old
          (fun quotas workspaceId productId stored uploadKey heq =>
            attaches ⟨quotas, workspaceId, productId, stored, uploadKey, heq⟩) image himage
        rw [← hid]
        exact (ih old hold).mono later.done
  | wait _ later same _ ih =>
      intro image himage
      rw [same] at himage
      exact (ih image himage).mono later

/-- The id that is drawn next is not that of an image. -/
theorem Reachable.image_fresh {env : Env} {ok : Work → Prop} {s : Session} (lawful : env.Lawful)
    (h : Reachable env ok s) :
  s.db.images.get (env.uuid7 s.ids) = none
  := by
  cases hget : s.db.images.get (env.uuid7 s.ids) with
  | none => rfl
  | some image =>
      obtain ⟨himage, hid⟩ := Table.get_eq_some_iff.mp hget
      obtain ⟨idx, hidx, heq⟩ := h.image_drawn image himage
      obtain rfl := lawful.uuid7_injective (heq.trans hid)
      exact absurd hidx (lt_irrefl _)

end MvpApi
