import MvpApi.Runs.Calls
import MvpApi.Runs.Removals
import MvpApi.Safety.Isolation

/-!
# The purge

A purge removes the rows of the soft-deleted workspaces, and deletes the files that these refer
to: the products go in batches, each with the files of its images, and then the row of the
workspace with what else belongs to it, and the logo. `Db.purged` and `Db.deletedKeys` say what
the rows are after that, and which files go.

No step of a purge changes what the rows are after it: wherever a purge is cut off, another one
ends in the same rows. The files are another matter. While a purge is about to delete files, no
row refers to these any more, and a purge that is cut off there leaves them behind.
-/

set_option autoImplicit false

namespace MvpApi

open Program Exec

/-! ### What a purge removes -/

/-- The workspace of an id is soft-deleted. -/
def Db.deleted (db : Db) (workspaceId : String) : Bool :=
  (db.workspaces.get workspaceId).any Workspace.isDeleted

/-- The rows without those of the soft-deleted workspaces. -/
def Db.purged (db : Db) : Db :=
  { db with
    workspaces := db.workspaces.filter (!·.isDeleted)
    roles := db.roles.filter (!db.deleted ·.workspaceId)
    rolePermissions := db.rolePermissions.filter fun row =>
      !(db.roles.get row.roleId).any (db.deleted ·.workspaceId)
    members := db.members.filter (!db.deleted ·.workspaceId)
    invitations := db.invitations.filter (!db.deleted ·.workspaceId)
    products := db.products.filter (!db.deleted ·.workspaceId)
    images := db.images.filter (!db.deleted ·.workspaceId) }

/-- The storage key of a logo, if it has one that is not empty. -/
def Workspace.storageKeys (workspace : Workspace) : List String :=
  (workspace.logoKey.filter (· ≠ "")).toList

/-- The storage keys in the rows of the soft-deleted workspaces. -/
def Db.deletedKeys (db : Db) : Multiset String :=
  (db.images.filter (db.deleted ·.workspaceId)).sum (fun image => ↑image.storageKeys)
    + (db.workspaces.filter Workspace.isDeleted).sum fun workspace => ↑workspace.storageKeys

section Rows

variable {db : Db}

theorem Db.deleted_of_mem {workspace : Workspace} (h : workspace ∈ db.workspaces) :
  db.deleted workspace.id = workspace.isDeleted
  := by
  rw [Db.deleted, Table.mem_def.mp h, Option.any_some]

/-- Without soft-deleted workspaces there is nothing to purge. -/
theorem Db.purged_eq_self (none : ∀ w, db.deleted w = false) :
  db.purged = db
  := by
  have hnot : ∀ w, (!db.deleted w) = true := fun w => by rw [none w, Bool.not_false]
  refine Db.ext rfl ?_ ?_ ?_ ?_ ?_ ?_ ?_
  · refine Table.filter_eq_self fun workspace h => ?_
    rw [← Db.deleted_of_mem h]
    exact hnot _
  · exact Table.filter_eq_self fun _ _ => hnot _
  · refine Table.filter_eq_self fun row _ => ?_
    rw [Bool.not_eq_true', Option.any_eq_false]
    exact fun role _ => none _
  · exact Table.filter_eq_self fun _ _ => hnot _
  · exact Table.filter_eq_self fun _ _ => hnot _
  · exact Table.filter_eq_self fun _ _ => hnot _
  · exact Table.filter_eq_self fun _ _ => hnot _

/-- Deleting products of soft-deleted workspaces does not change what is left after a purge. -/
theorem Db.purged_deleteProducts (catalogued : db.Catalogued) {ids : List String}
    (deleted : ∀ row ∈ db.products, row.id ∈ ids → db.deleted row.workspaceId = true) :
  (db.deleteProducts ids).purged = db.purged
  := by
  refine Db.ext rfl rfl rfl rfl rfl rfl ?_ ?_
  · refine Table.ext_mem fun row => ?_
    show row ∈ (db.products.filter (·.id ∉ ids)).filter (!db.deleted ·.workspaceId)
      ↔ row ∈ db.products.filter (!db.deleted ·.workspaceId)
    rw [Table.mem_filter, Table.mem_filter, Table.mem_filter]
    constructor
    · rintro ⟨⟨h, _⟩, kept⟩
      exact ⟨h, kept⟩
    · rintro ⟨h, kept⟩
      refine ⟨⟨h, decide_eq_true fun hid => ?_⟩, kept⟩
      rw [deleted row h hid] at kept
      cases kept
  · refine Table.ext_mem fun image => ?_
    show image ∈ (db.images.filter (·.productId ∉ ids)).filter (!db.deleted ·.workspaceId)
      ↔ image ∈ db.images.filter (!db.deleted ·.workspaceId)
    rw [Table.mem_filter, Table.mem_filter, Table.mem_filter]
    constructor
    · rintro ⟨⟨h, _⟩, kept⟩
      exact ⟨h, kept⟩
    · rintro ⟨h, kept⟩
      refine ⟨⟨h, decide_eq_true fun hid => ?_⟩, kept⟩
      obtain ⟨row, hrow, hproduct, hworkspace⟩ := catalogued image h
      rw [← hworkspace, deleted row hrow (hproduct ▸ hid)] at kept
      cases kept

/-- Removing the row of a workspace leaves the other ones as they were. -/
theorem Db.deleted_purge {workspace : Workspace} (w : String) :
  (db.purge workspace).deleted w = (db.deleted w && w ≠ workspace.id)
  := by
  show ((db.workspaces.erase workspace.id).get w).any _ = _
  rw [Table.get_erase]
  split
  · simp_all
  · simp_all [Db.deleted]

/-- The rows of other workspaces that are kept are those of workspaces that are not soft-deleted. -/
theorem Db.kept_purge {workspace : Workspace} (hdeleted : db.deleted workspace.id = true)
    (w : String) :
  (w ≠ workspace.id ∧ (!(db.purge workspace).deleted w) = true) ↔ (!db.deleted w) = true
  := by
  rw [Db.deleted_purge]
  by_cases hw : w = workspace.id
  · subst hw
    simp [hdeleted]
  · simp [hw]

/-- Removing the row of a soft-deleted workspace that has no products left does not change what
is left after a purge. -/
theorem Db.purged_purge {workspace : Workspace} (h : workspace ∈ db.workspaces)
    (soft : workspace.isDeleted = true)
    (products : ∀ row ∈ db.products, row.workspaceId ≠ workspace.id)
    (images : ∀ image ∈ db.images, image.workspaceId ≠ workspace.id) :
  (db.purge workspace).purged = db.purged
  := by
  have hdeleted : db.deleted workspace.id = true := (Db.deleted_of_mem h).trans soft
  have hkept := Db.kept_purge hdeleted
  -- the tables of which the rows of the workspace are removed
  have removed : ∀ {κ ρ : Type} [DecidableEq κ] {key : ρ → κ} (t : Table key) (of : ρ → String),
      (t.filter (of · ≠ workspace.id)).filter (fun r => !(db.purge workspace).deleted (of r))
        = t.filter fun r => !db.deleted (of r) := by
    intro κ ρ _ key t of
    refine Table.ext_mem fun r => ?_
    rw [Table.mem_filter, Table.mem_filter, Table.mem_filter, and_assoc, decide_eq_true_eq, hkept]
  -- the tables that have no rows of the workspace any more
  have missing : ∀ {κ ρ : Type} [DecidableEq κ] {key : ρ → κ} {t : Table key} {of : ρ → String},
      (∀ r ∈ t, of r ≠ workspace.id) →
      t.filter (fun r => !(db.purge workspace).deleted (of r))
        = t.filter fun r => !db.deleted (of r) := by
    intro κ ρ _ key t of none
    refine Table.ext_mem fun r => ?_
    rw [Table.mem_filter, Table.mem_filter]
    refine and_congr_right fun hr => ?_
    rw [← hkept, and_iff_right (none r hr)]
  refine Db.ext rfl ?_ (removed db.roles _) ?_ (removed db.members _) (removed db.invitations _)
    (missing products) (missing images)
  · refine Table.ext_mem fun other => ?_
    show other ∈ (db.workspaces.erase workspace.id).filter (!·.isDeleted)
      ↔ other ∈ db.workspaces.filter (!·.isDeleted)
    rw [Table.mem_filter, Table.mem_erase, Table.mem_filter, and_right_comm]
    refine and_iff_left_of_imp fun ⟨hother, live⟩ hid => ?_
    rw [Table.eq_of_key hother h hid, soft] at live
    cases live
  · refine Table.ext_mem fun row => ?_
    show row ∈ (db.rolePermissions.filter fun row =>
          !(db.roles.get row.roleId).any (·.workspaceId = workspace.id)).filter (fun row =>
          !((db.roles.filter (·.workspaceId ≠ workspace.id)).get row.roleId).any
            ((db.purge workspace).deleted ·.workspaceId))
      ↔ row ∈ db.rolePermissions.filter fun row =>
          !(db.roles.get row.roleId).any (db.deleted ·.workspaceId)
    rw [Table.mem_filter, Table.mem_filter, Table.mem_filter, and_assoc, Table.get_filter]
    refine and_congr_right fun _ => ?_
    cases db.roles.get row.roleId with
    | none => simp
    | some role =>
        rw [Option.any_some, Option.any_some]
        by_cases hw : role.workspaceId = workspace.id
        · simp [hw, hdeleted]
        · have hrole := hkept role.workspaceId
          rw [and_iff_right hw] at hrole
          simpa [hw] using hrole

/-- The keys of a flattened list. -/
theorem coe_flatMap {α β : Type} (l : List α) (f : α → List β) :
  (l.flatMap f : Multiset β) = (l.map fun a => (f a : Multiset β)).sum
  := by
  rw [← Multiset.coe_bind, Multiset.bind, Multiset.join, Multiset.map_coe, Multiset.sum_coe]

/-- The keys of a batch are no longer in the rows. -/
theorem Db.deletedKeys_deleteProducts (catalogued : db.Catalogued) {ids : List String}
    (deleted : ∀ row ∈ db.products, row.id ∈ ids → db.deleted row.workspaceId = true) :
  (db.deleteProducts ids).deletedKeys + db.keysOf ids = db.deletedKeys
  := by
  have hkeys : (db.keysOf ids : Multiset String)
      = ((db.images.filter (db.deleted ·.workspaceId)).filter fun image => image.productId ∈ ids).sum
          fun image => ↑image.storageKeys := by
    rw [Db.keysOf, coe_flatMap, Table.sum_filter_rows]
    congr 1
    refine Table.ext_mem fun image => ?_
    rw [Table.mem_filter, Table.mem_filter, Table.mem_filter, and_assoc]
    refine and_congr_right fun himage => (and_iff_right_of_imp fun hin => ?_).symm
    obtain ⟨row, hrow, hproduct, hworkspace⟩ := catalogued image himage
    rw [← hworkspace]
    exact deleted row hrow (hproduct ▸ of_decide_eq_true hin)
  have hrest : (db.deleteProducts ids).images.filter (db.deleted ·.workspaceId)
      = (db.images.filter (db.deleted ·.workspaceId)).filter fun image =>
          !decide (image.productId ∈ ids) := by
    refine Table.ext_mem fun image => ?_
    rw [Table.mem_filter, Db.deleteProducts, Table.mem_filter, Table.mem_filter,
      Table.mem_filter, ← decide_not, and_right_comm]
  show ((db.deleteProducts ids).images.filter (db.deleted ·.workspaceId)).sum _ + _ + _ = _
  rw [hrest, hkeys, add_right_comm, add_comm (Table.sum _ _), Table.sum_filter_add]
  rfl

/-- The key of the logo is no longer in the rows. -/
theorem Db.deletedKeys_purge {workspace : Workspace} (h : workspace ∈ db.workspaces)
    (soft : workspace.isDeleted = true)
    (images : ∀ image ∈ db.images, image.workspaceId ≠ workspace.id) :
  (db.purge workspace).deletedKeys + workspace.storageKeys = db.deletedKeys
  := by
  have himages : db.images.filter ((db.purge workspace).deleted ·.workspaceId)
      = db.images.filter (db.deleted ·.workspaceId) := by
    refine Table.ext_mem fun image => ?_
    rw [Table.mem_filter, Table.mem_filter]
    refine and_congr_right fun himage => ?_
    rw [Db.deleted_purge, Bool.and_eq_true, decide_eq_true_eq]
    exact and_iff_left (images image himage)
  have herase : (db.workspaces.erase workspace.id).filter Workspace.isDeleted
      = (db.workspaces.filter Workspace.isDeleted).erase workspace.id := by
    refine Table.ext_mem fun other => ?_
    rw [Table.mem_filter, Table.mem_erase, Table.mem_erase, Table.mem_filter, and_right_comm]
  have hget : (db.workspaces.filter Workspace.isDeleted).get workspace.id = some workspace :=
    Table.mem_def.mp (Table.mem_filter.mpr ⟨h, soft⟩)
  have hsum := Table.sum_erase (t := db.workspaces.filter Workspace.isDeleted)
    (f := fun workspace => (workspace.storageKeys : Multiset String)) workspace.id
  rw [hget, Option.elim_some] at hsum
  show (db.images.filter ((db.purge workspace).deleted ·.workspaceId)).sum _
    + ((db.workspaces.erase workspace.id).filter Workspace.isDeleted).sum _ + _ = _
  rw [himages, herase, add_assoc, hsum, Db.deletedKeys]

/-- Without soft-deleted workspaces no keys are to be deleted. -/
theorem Db.deletedKeys_eq_zero (none : ∀ w, db.deleted w = false) :
  db.deletedKeys = 0
  := by
  refine Multiset.eq_zero_of_forall_notMem fun key hkey => ?_
  rw [Db.deletedKeys, Multiset.mem_add, Table.mem_sum, Table.mem_sum] at hkey
  rcases hkey with ⟨image, himage, _⟩ | ⟨workspace, hworkspace, _⟩
  · exact absurd (Table.mem_filter.mp himage).2 (Bool.eq_false_iff.mp (none _))
  · obtain ⟨hmem, soft⟩ := Table.mem_filter.mp hworkspace
    rw [← Db.deleted_of_mem hmem, none] at soft
    cases soft

end Rows

/-! ### Batches of products -/

section Batches

variable {env : Env} {db : Db} {w : String}

/-- The products of a workspace. -/
def Db.productsOf (db : Db) (workspaceId : String) : List ProductRow :=
  db.products.rows.filter (·.workspaceId = workspaceId)

theorem Db.mem_productsOf {row : ProductRow} :
  row ∈ db.productsOf w ↔ row ∈ db.products ∧ row.workspaceId = w
  := by
  rw [Db.productsOf, List.mem_filter, Table.mem_rows, decide_eq_true_eq]

/-- The products of a workspace that are left when some products are deleted. -/
theorem Db.productsOf_deleteProducts (ids : List String) :
  (db.deleteProducts ids).productsOf w = (db.productsOf w).filter (·.id ∉ ids)
  := by
  show (db.products.filter (·.id ∉ ids)).rows.filter _ = _
  rw [Table.rows_filter, Db.productsOf, List.filter_comm]

theorem Db.length_firstProducts {limit : ℕ} :
  (db.firstProducts env w limit).length = min limit (db.productsOf w).length
  := by
  rw [Db.firstProducts, List.length_take, orderBy, List.length_insertionSort, List.length_map]
  rfl

/-- What is left of a list when its first elements are taken out. -/
theorem filter_notMem_take {α : Type} [DecidableEq α] {l : List α} (distinct : l.Nodup) (n : ℕ) :
  l.filter (· ∉ l.take n) = l.drop n
  := by
  induction l generalizing n with
  | nil => simp
  | cons a l ih =>
      cases n with
      | zero => simp
      | succ n =>
          rw [List.nodup_cons] at distinct
          have hrest : ∀ b ∈ l, decide (b ∉ (a :: l).take (n + 1)) = decide (b ∉ l.take n) := by
            intro b hb
            have hne : b ≠ a := fun h => distinct.1 (h ▸ hb)
            simp [hne]
          rw [List.filter_cons_of_neg (by simp), List.filter_congr hrest, ih distinct.2,
            List.drop_succ_cons]

/-- A batch deletes products of the workspace, as many as it may. -/
theorem Db.length_productsOf_batch {limit : ℕ} :
  ((db.deleteProducts (db.firstProducts env w limit)).productsOf w).length
    = (db.productsOf w).length - limit
  := by
  let ids := (db.productsOf w).map ProductRow.id
  let found := orderBy (env.place ids) ids
  have perm : found.Perm ids := List.perm_insertionSort _ _
  have distinct : found.Nodup := by
    refine perm.nodup_iff.mpr (List.Nodup.map_on ?_ (db.products.nodup_rows.filter _))
    intro row h row' h' hid
    exact Table.eq_of_key (Db.mem_productsOf.mp h).1 (Db.mem_productsOf.mp h').1 hid
  have left : ((db.productsOf w).filter fun row => row.id ∉ found.take limit).map ProductRow.id
      = ids.filter (· ∉ found.take limit) := by
    rw [List.filter_map]
    rfl
  rw [Db.productsOf_deleteProducts]
  calc ((db.productsOf w).filter fun row => row.id ∉ found.take limit).length
      = (ids.filter (· ∉ found.take limit)).length := by rw [← left, List.length_map]
    _ = (found.filter (· ∉ found.take limit)).length := (perm.filter _).length_eq.symm
    _ = (found.drop limit).length := by rw [filter_notMem_take distinct]
    _ = (db.productsOf w).length - limit := by
      rw [List.length_drop, perm.length_eq, List.length_map]

end Batches

/-! ### A purge step by step -/

/-- A purge runs alone. The keys that the storage is told to delete are kept, the latest first. -/
def purging (env : Env) : Setting MediaRequest (List String) :=
  .alone env fun request keys y keys' => match request, y with
    | .media (.delete key), .ok _ => keys' = key :: keys
    | _, _ => False

/-- The storage is asked to delete a file. -/
def Request.DeletesFile {β : Type} : Request MediaRequest β → Prop
  | .media (.delete _) => True
  | _ => False

/-- What every step of a purge keeps of the rows: what they are after it, and that there are
enough rounds for the products of each workspace. -/
structure Db.Toward (start : Db) (rounds : ℕ) (db : Db) : Prop where
  purged : db.purged = start.purged
  catalogued : db.Catalogued
  unique : db.Unique
  few : ∀ w, (db.productsOf w).length < rounds

/-- What every step of a purge keeps: the keys that were deleted, those that are to be deleted
next and those in the rows of the soft-deleted workspaces are the ones there were at the start. -/
structure Accounts (start : Db) (rounds : ℕ) (keys : Multiset String) (next : List String)
    (w : World (List String)) : Prop where
  toward : start.Toward rounds w.db
  keys : ↑w.outside + ↑next + w.db.deletedKeys = keys

/-- Where a purge can be cut off: it is about to delete the files of `next`, if there are any. -/
def Watched (start : Db) (rounds : ℕ) (keys : Multiset String) {β : Type}
    (request : Request MediaRequest β) (w : World (List String)) : Prop :=
  ∃ next : List String, (request.DeletesFile ↔ next ≠ []) ∧ Accounts start rounds keys next w

section Steps

variable {env : Env} {start : Db} {rounds : ℕ} {keys : Multiset String} {next : List String}
  {w w' : World (List String)} {α β : Type}

/-- While nobody runs a transaction the rows are as they were. -/
theorem Accounts.wait (h : Accounts start rounds keys next w) {s : Session}
    (idle : Reaches (purging env).env (purging env).Others w.session s) :
  (w.wait s).db = w.db ∧ Accounts start rounds keys next (w.wait s)
  := by
  have same : (w.wait s).db = w.db := idle.idle fun _ => not_false
  refine ⟨same, ?_, ?_⟩
  · rw [same]
    exact h.toward
  · rw [same]
    exact h.keys

/-- A file is deleted. -/
theorem Accounts.delete {key : String} (h : Accounts start rounds keys (key :: next) w) :
  (perform (.media (.delete key))).Always (purging env).machine (Watched start rounds keys)
    (fun y w' => (∃ u, y = .ok u) ∧ w'.db = w.db ∧ Accounts start rounds keys next w') w
  := by
  refine Always.perform ⟨key :: next, by simp [Request.DeletesFile], h⟩ fun y w' answer => ?_
  have outside : ¬ (Request.media (MediaRequest.delete key)).OfDatabase := not_false
  obtain ⟨_, s, idle, ⟨deleted, answered, rfl⟩ | ⟨fails, _⟩⟩ :=
    Setting.answers_outside outside answer
  · cases y with
    | ok u =>
        obtain rfl : deleted = key :: w.outside := answered
        obtain ⟨same, hs⟩ := h.wait idle
        refine ⟨⟨u, rfl⟩, same, hs.toward, ?_⟩
        rw [← hs.keys, ← Multiset.cons_coe, ← Multiset.cons_coe, Multiset.cons_add,
          Multiset.add_cons]
        rfl
    | error e => exact answered.elim
  · exact fails.elim

/-- Files are deleted one after another. -/
theorem Accounts.deleteAll {urlFor : String → String} {files : List String}
    (h : Accounts start rounds keys files w) :
  ((MediaStorage.port urlFor).deleteAll files).Always (purging env).machine
    (Watched start rounds keys)
    (fun y w' => (∃ u, y = .ok u) ∧ w'.db = w.db ∧ Accounts start rounds keys [] w') w
  := by
  induction files generalizing w with
  | nil => exact ⟨⟨(), rfl⟩, rfl, h⟩
  | cons key files ih =>
      refine h.delete.bind_ok fun _ w₁ ⟨same, h₁⟩ => ?_
      rw [← same]
      exact ih h₁

/-- The file of a logo is deleted, if there is one. -/
theorem Accounts.deleteSome {urlFor : String → String} {workspace : Workspace}
    (h : Accounts start rounds keys workspace.storageKeys w) :
  ((MediaStorage.port urlFor).deleteSome workspace.logoKey).Always (purging env).machine
    (Watched start rounds keys)
    (fun y w' => (∃ u, y = .ok u) ∧ w'.db = w.db ∧ Accounts start rounds keys [] w') w
  := by
  unfold Workspace.storageKeys at h
  unfold MediaStorage.deleteSome
  cases hkey : workspace.logoKey.filter (· ≠ "") with
  | none =>
      rw [hkey] at h
      exact ⟨⟨(), rfl⟩, rfl, h⟩
  | some key =>
      rw [hkey] at h
      exact h.delete

/-- A transaction of which the body returns on the rows as they are is committed. -/
theorem Accounts.transacts {body : Tx α} (h : Accounts start rounds keys [] w)
    (post : α → Db → Prop)
    (returns : ∀ s : Session, s.db = w.db → ∃ a s', Returns body env s a s' ∧ s'.db.Unique
      ∧ post a s'.db) :
  (transaction body).Always (purging env).machine (Watched start rounds keys)
    (fun y w' => ∃ a, y = .ok a ∧ w'.outside = w.outside ∧ post a w'.db) w
  := by
  have attempted : (perform (.attempt body)).Always (purging env).machine
      (Watched start rounds keys)
      (fun y w' => ∃ a, y = .ok a ∧ w'.outside = w.outside ∧ post a w'.db) w := by
    refine Always.perform ⟨[], by simp [Request.DeletesFile], h⟩ fun y w' answer => ?_
    obtain ⟨_, s, idle, answered⟩ := Setting.answers_attempt answer
    obtain ⟨a, s', hreturns, unique, holds⟩ := returns s (idle.idle fun _ => not_false)
    rcases answered with ⟨b, s₁, rfl, hreturns', _, rfl⟩ | ⟨e, rfl, rfl, refused⟩
    · obtain ⟨rfl, rfl⟩ := hreturns.unique hreturns'
      exact ⟨a, rfl, rfl, holds⟩
    · cases refused with
      | raise raises => exact absurd raises hreturns.not_raises
      | violate hreturns' violates =>
          obtain ⟨rfl, rfl⟩ := hreturns.unique hreturns'
          exact absurd unique violates
      | fault fault => exact fault.elim
  refine attempted.outcome_bind ?_
  rintro y w₁ ⟨a, rfl, outside, holds⟩
  exact ⟨a, rfl, outside, holds⟩

/-- The products of a soft-deleted workspace are its own. -/
theorem Db.deleted_of_firstProducts {env : Env} {db : Db} {workspaceId : String} {limit : ℕ}
    (soft : db.deleted workspaceId = true) {row : ProductRow} (hrow : row ∈ db.products)
    (hid : row.id ∈ db.firstProducts env workspaceId limit) :
  db.deleted row.workspaceId = true
  := by
  obtain ⟨row', hrow', hsame, hworkspace⟩ := Db.mem_firstProducts hid
  obtain rfl := Table.eq_of_key hrow' hrow hsame
  rwa [hworkspace]

theorem Db.Unique.deleteProducts {db : Db} (h : db.Unique) (ids : List String) :
  (db.deleteProducts ids).Unique
  := h.mono (fun _ => id) (fun _ => id) (fun _ => id) (fun _ => id)
    fun _ himage => (Table.mem_filter.mp himage).1

theorem Db.Unique.purge {db : Db} (h : db.Unique) (workspace : Workspace) :
  (db.purge workspace).Unique
  := h.mono (fun _ => id) (fun _ hrow => (Table.mem_erase.mp hrow).1)
    (fun _ hrow => (Table.mem_filter.mp hrow).1) (fun _ hrow => (Table.mem_filter.mp hrow).1)
    fun _ => id

/-- A batch of products of a soft-deleted workspace is deleted, and its files are next. -/
theorem Accounts.batch {workspaceId : String} {limit : ℕ} (h : Accounts start rounds keys [] w)
    (soft : w.db.deleted workspaceId = true) (outside : w'.outside = w.outside)
    (db : w'.db = w.db.deleteProducts (w.db.firstProducts env workspaceId limit)) :
  Accounts start rounds keys (w.db.keysOf (w.db.firstProducts env workspaceId limit)) w'
  := by
  have deleted : ∀ row ∈ w.db.products, row.id ∈ w.db.firstProducts env workspaceId limit →
      w.db.deleted row.workspaceId = true :=
    fun row hrow hid => Db.deleted_of_firstProducts soft hrow hid
  refine ⟨⟨?_, ?_, ?_, fun v => ?_⟩, ?_⟩
  · rw [db, Db.purged_deleteProducts h.toward.catalogued deleted, h.toward.purged]
  · rw [db]
    refine h.toward.catalogued.delete (fun id => id ∈ w.db.firstProducts env workspaceId limit) ?_ ?_
    · intro image himage
      obtain ⟨hmem, hout⟩ := Table.mem_filter.mp himage
      exact ⟨hmem, decide_eq_false (of_decide_eq_true hout)⟩
    · exact fun row hrow hout =>
        Table.mem_filter.mpr ⟨hrow, decide_eq_true (of_decide_eq_false hout)⟩
  · rw [db]
    exact h.toward.unique.deleteProducts _
  · rw [db, Db.productsOf_deleteProducts]
    exact lt_of_le_of_lt (List.length_filter_le _ _) (h.toward.few v)
  · rw [outside, db, ← h.keys, ← Db.deletedKeys_deleteProducts h.toward.catalogued deleted]
    rw [Multiset.coe_nil, add_zero, add_assoc, add_comm (Multiset.ofList (w.db.keysOf _))]

/-- The products of a soft-deleted workspace are purged, in as many batches as it takes. -/
theorem Accounts.purgeProducts {urlFor : String → String} {workspaceId : String} {left : ℕ}
    (h : Accounts start rounds keys [] w) (soft : w.db.deleted workspaceId = true)
    (enough : (w.db.productsOf workspaceId).length < left) :
  (WorkspacePurge.purgeProducts (.port urlFor) workspaceId left).Always (purging env).machine
    (Watched start rounds keys)
    (fun y w' => (∃ u, y = .ok u) ∧ Accounts start rounds keys [] w'
      ∧ w'.db.workspaces = w.db.workspaces ∧ w'.db.productsOf workspaceId = []) w
  := by
  induction left generalizing w with
  | zero => exact absurd enough (Nat.not_lt_zero _)
  | succ left ih =>
      let ids := w.db.firstProducts env workspaceId PurgeTx.productBatch
      have returns : ∀ s : Session, s.db = w.db → ∃ a s',
          Returns (PurgeTx.deleteBatch workspaceId PurgeTx.productBatch) env s a s'
            ∧ s'.db.Unique ∧ a = (ids.length, w.db.keysOf ids) ∧ s'.db = w.db.deleteProducts ids := by
        intro s hs
        refine ⟨(ids.length, w.db.keysOf ids), s.write (·.deleteProducts ids),
          PurgeTx.returns_deleteBatch.mpr ⟨by rw [hs], by rw [hs]⟩, ?_, rfl, ?_⟩
        · exact (hs ▸ h.toward.unique : s.db.Unique).deleteProducts ids
        · show s.db.deleteProducts ids = _
          rw [hs]
      apply Always.bind_value (h.transacts (fun a db => a = (ids.length, w.db.keysOf ids)
        ∧ db = w.db.deleteProducts ids) returns)
      rintro _ w₁ ⟨outside, rfl, hdb⟩
      apply Always.bind_ok (h.batch soft outside hdb).deleteAll
      rintro _ w₂ ⟨same, h₂⟩
      have hleft : (w₂.db.productsOf workspaceId).length
          = (w.db.productsOf workspaceId).length - PurgeTx.productBatch := by
        rw [same, hdb, Db.length_productsOf_batch]
      have hlength : ids.length = min PurgeTx.productBatch (w.db.productsOf workspaceId).length :=
        Db.length_firstProducts
      have hworkspaces : w₂.db.workspaces = w.db.workspaces := by rw [same, hdb]; rfl
      split
      · next last =>
          refine ⟨⟨(), rfl⟩, h₂, hworkspaces, ?_⟩
          rw [← List.length_eq_zero_iff, hleft]
          omega
      · next full =>
          have soft₂ : w₂.db.deleted workspaceId = true := by
            rw [Db.deleted, hworkspaces]
            exact soft
          have fewer : (w₂.db.productsOf workspaceId).length < left := by
            rw [hleft]
            have : 0 < PurgeTx.productBatch := by decide
            omega
          refine (ih h₂ soft₂ fewer).mono fun y w' ⟨hy, h', hsame, hnone⟩ => ?_
          exact ⟨hy, h', hsame.trans hworkspaces, hnone⟩

/-- The row of a soft-deleted workspace without products is removed, and its logo is next. -/
theorem Accounts.remove {workspace : Workspace} (h : Accounts start rounds keys [] w)
    (mem : workspace ∈ w.db.workspaces) (soft : workspace.isDeleted = true)
    (empty : w.db.productsOf workspace.id = []) (outside : w'.outside = w.outside)
    (db : w'.db = w.db.purge workspace) :
  Accounts start rounds keys workspace.storageKeys w'
  := by
  have products : ∀ row ∈ w.db.products, row.workspaceId ≠ workspace.id := by
    intro row hrow hid
    exact List.not_mem_nil (empty ▸ Db.mem_productsOf.mpr ⟨hrow, hid⟩)
  have images : ∀ image ∈ w.db.images, image.workspaceId ≠ workspace.id := by
    intro image himage hid
    obtain ⟨row, hrow, _, hworkspace⟩ := h.toward.catalogued image himage
    exact products row hrow (hworkspace.trans hid)
  refine ⟨⟨?_, ?_, ?_, ?_⟩, ?_⟩
  · rw [db, Db.purged_purge mem soft products images, h.toward.purged]
  · rw [db]
    exact h.toward.catalogued.same rfl rfl
  · rw [db]
    exact h.toward.unique.purge workspace
  · rw [db]
    exact h.toward.few
  · rw [outside, db, ← h.keys, ← Db.deletedKeys_purge mem soft images, Multiset.coe_nil, add_zero,
      add_assoc, add_comm (Multiset.ofList workspace.storageKeys)]

/-- A soft-deleted workspace is purged. -/
theorem Accounts.purge {urlFor : String → String} {workspaceId : String}
    (h : Accounts start rounds keys [] w) (soft : w.db.deleted workspaceId = true) :
  (WorkspacePurge.purge (.port urlFor) rounds workspaceId).Always (purging env).machine
    (Watched start rounds keys)
    (fun y w' => (∃ u, y = .ok u) ∧ Accounts start rounds keys [] w'
      ∧ ∀ v, w'.db.deleted v = (w.db.deleted v && v ≠ workspaceId)) w
  := by
  apply Always.bind_ok (h.purgeProducts soft (h.toward.few workspaceId))
  rintro _ w₁ ⟨h₁, same, empty⟩
  obtain ⟨workspace, hget, hsoft⟩ := (Option.any_eq_true _ _).mp soft
  rw [← same] at hget
  obtain ⟨mem, rfl⟩ := Table.get_eq_some_iff.mp hget
  have returns : ∀ s : Session, s.db = w₁.db → ∃ key s',
      Returns (PurgeTx.purgeRows workspace.id) env s key s' ∧ s'.db.Unique
        ∧ key = workspace.logoKey ∧ s'.db = w₁.db.purge workspace := by
    intro s hs
    refine ⟨workspace.logoKey, s.write (·.purge workspace), PurgeTx.returns_purgeRows.mpr
      (Or.inr ⟨workspace, hs ▸ hget, ?_, rfl, rfl⟩), ?_, rfl, ?_⟩
    · exact Option.isSome_iff_ne_none.mp hsoft
    · exact (hs ▸ h₁.toward.unique : s.db.Unique).purge workspace
    · show s.db.purge workspace = _
      rw [hs]
  apply Always.bind_value (h₁.transacts
    (fun key db => key = workspace.logoKey ∧ db = w₁.db.purge workspace) returns)
  rintro _ w₂ ⟨outside, rfl, hdb⟩
  apply Always.mono (h₁.remove mem hsoft empty outside hdb).deleteSome
  rintro y w₃ ⟨hy, hsame, h₃⟩
  refine ⟨hy, h₃, fun v => ?_⟩
  rw [hsame, hdb, Db.deleted_purge, Db.deleted, same]
  rfl

/-- Soft-deleted workspaces are purged one after another. -/
theorem Accounts.purgeEach {urlFor : String → String} {workspaceIds : List String}
    (h : Accounts start rounds keys [] w) (distinct : workspaceIds.Nodup)
    (soft : ∀ v ∈ workspaceIds, w.db.deleted v = true) :
  (WorkspacePurge.purgeEach (.port urlFor) rounds workspaceIds).Always (purging env).machine
    (Watched start rounds keys)
    (fun y w' => (∃ u, y = .ok u) ∧ Accounts start rounds keys [] w'
      ∧ ∀ v, w'.db.deleted v = (w.db.deleted v && v ∉ workspaceIds)) w
  := by
  induction workspaceIds generalizing w with
  | nil => exact ⟨⟨(), rfl⟩, h, fun v => by simp⟩
  | cons workspaceId workspaceIds ih =>
      obtain ⟨hnew, distinct⟩ := List.nodup_cons.mp distinct
      apply Always.bind_ok (h.purge (soft _ List.mem_cons_self))
      rintro _ w₁ ⟨h₁, hdeleted⟩
      have soft₁ : ∀ v ∈ workspaceIds, w₁.db.deleted v = true := by
        intro v hv
        have hne : v ≠ workspaceId := fun heq => hnew (heq ▸ hv)
        rw [hdeleted, soft v (List.mem_cons_of_mem _ hv)]
        simp [hne]
      apply Always.mono (ih h₁ distinct soft₁)
      rintro y w₂ ⟨hy, h₂, hdeleted₂⟩
      refine ⟨hy, h₂, fun v => ?_⟩
      rw [hdeleted₂, hdeleted, Bool.and_assoc]
      simp

/-- The ids of the soft-deleted workspaces, or of those of one owner. -/
theorem Workspaces.deletedIds_eq (env : Env) (s : Session) (owner : Option String) :
  ∃ ids, ((deletedIds owner).run env s).1 = .ok ids ∧ ids.Nodup
    ∧ ∀ v, v ∈ ids ↔ ∃ workspace, s.db.workspaces.get v = some workspace
        ∧ workspace.isDeleted = true ∧ owner.all (· = workspace.ownerId) = true
  := by
  refine ⟨_, rfl, ?_, fun v => ?_⟩
  · refine List.Nodup.map_on ?_ ((List.perm_insertionSort _ _).nodup_iff.mpr
      (s.db.workspaces.nodup_rows.filter _))
    intro workspace h workspace' h' hid
    rw [mem_orderBy, List.mem_filter, Table.mem_rows] at h h'
    exact Table.eq_of_key h.1 h'.1 hid
  · rw [List.mem_map]
    constructor
    · rintro ⟨workspace, hmem, rfl⟩
      rw [mem_orderBy, List.mem_filter, Table.mem_rows, Bool.and_eq_true] at hmem
      exact ⟨workspace, Table.mem_def.mp hmem.1, hmem.2⟩
    · rintro ⟨workspace, hget, hsoft⟩
      obtain ⟨hmem, rfl⟩ := Table.get_eq_some_iff.mp hget
      refine ⟨workspace, ?_, rfl⟩
      rw [mem_orderBy, List.mem_filter, Table.mem_rows, Bool.and_eq_true]
      exact ⟨hmem, hsoft⟩

/-- All soft-deleted workspaces are purged. -/
theorem Accounts.purgeAll {urlFor : String → String} (h : Accounts start rounds keys [] w) :
  (WorkspacePurge.purgeAll (.port urlFor) rounds).Always (purging env).machine
    (Watched start rounds keys)
    (fun y w' => (∃ n, y = .ok n) ∧ Accounts start rounds keys [] w'
      ∧ ∀ v, w'.db.deleted v = false) w
  := by
  have ids : (read (Workspaces.deletedIds none)).Always (purging env).machine
      (Watched start rounds keys) (fun y w' => ∃ ids, y = .ok ids ∧ ids.Nodup
        ∧ (∀ v, v ∈ ids ↔ w'.db.deleted v = true) ∧ Accounts start rounds keys [] w') w := by
    refine Always.perform ⟨[], by simp [Request.DeletesFile], h⟩ fun y w' answer => ?_
    obtain ⟨s, idle, rfl, rfl | ⟨fails, _⟩⟩ := Setting.answers_read answer
    · obtain ⟨ids, hrun, distinct, hmem⟩ := Workspaces.deletedIds_eq env s none
      refine ⟨ids, hrun, distinct, fun v => ?_, (h.wait idle).2⟩
      rw [hmem, World.db, World.wait_session, Db.deleted, Option.any_eq_true]
      exact exists_congr fun workspace => and_congr_right fun _ => and_iff_left rfl
    · exact fails.elim
  apply Always.bind_value ids
  rintro workspaceIds w₁ ⟨distinct, hmem, h₁⟩
  apply Always.bind_ok (h₁.purgeEach distinct fun v hv => (hmem v).mp hv)
  rintro _ w₂ ⟨h₂, hdeleted⟩
  refine ⟨⟨_, rfl⟩, h₂, fun v => ?_⟩
  rw [hdeleted]
  cases hv : w₁.db.deleted v with
  | false => rfl
  | true => simp [(hmem v).mpr hv]

end Steps

/-! ### Runs of a purge -/

/-- The calls that purge soft-deleted workspaces: all of them, or a given one. -/
def Call.Purges (db : Db) : Call → Prop
  | .purgeAll => True
  | .purge workspaceId => db.deleted workspaceId = true
  | _ => False

/-- The program is about to ask for the deletion of a file. -/
def DeletesNext {α : Type} : Service MediaRequest α → Prop
  | .ask request _ => request.DeletesFile
  | _ => False

section Runs

variable {env : Env} {services : Services MediaRequest} {urlFor : String → String} {start : Db}
  {keys : Multiset String} {w w' : World (List String)} {y : Except Failure Unit}
  {x : Service MediaRequest Unit} {call : Call}

/-- What a purge asks for. -/
def Request.OfPurge {β : Type} : Request MediaRequest β → Prop
  | .read _ => True
  | .attempt _ => True
  | .media (.delete _) => True
  | _ => False

/-- All that a purge asks for is answered. -/
theorem Request.OfPurge.answered {β : Type} {request : Request MediaRequest β}
    (w : World (List String)) (h : request.OfPurge) :
  ∃ z w', (purging env).machine.Answers request w z w'
  := by
  cases request with
  | read query => exact ⟨_, _, trivial, .read .refl⟩
  | attempt body =>
      cases hrun : body.run env w.session with
      | mk result s' =>
          cases result with
          | ok a =>
              by_cases unique : s'.db.Unique
              · exact ⟨_, _, trivial, .commit .refl hrun unique⟩
              · exact ⟨_, _, trivial, .violate .refl hrun unique⟩
          | error e => exact ⟨_, _, trivial, .raise .refl hrun⟩
  | media request =>
      cases request with
      | delete key => exact ⟨.ok (), ⟨w.session, key :: w.outside, w.commits⟩, trivial,
          .outside .refl not_false rfl⟩
      | _ => exact h.elim
  | _ => exact h.elim

theorem asks_deleteSome (key : Option String) :
  ((MediaStorage.port urlFor).deleteSome key).Asks Request.OfPurge
  := by
  unfold MediaStorage.deleteSome
  split
  · exact .perform trivial
  · trivial

theorem asks_purge (rounds : ℕ) (workspaceId : String) :
  (WorkspacePurge.purge (.port urlFor) rounds workspaceId).Asks Request.OfPurge
  := by
  refine Asks.bind ?_ fun _ => (asks_transaction trivial).bind fun key => asks_deleteSome key
  induction rounds with
  | zero => trivial
  | succ rounds ih =>
      refine (asks_transaction trivial).bind fun result => Asks.bind ?_ fun _ => ?_
      · generalize result.2 = files
        induction files with
        | nil => trivial
        | cons key files ih => exact Asks.bind (.perform trivial) fun _ => ih
      · split
        · trivial
        · exact ih

theorem asks_purgeAll (port : services.media = .port urlFor) :
  (Call.purgeAll.program services).Asks Request.OfPurge
  := by
  obtain ⟨media, _, _, _, rounds⟩ := services
  obtain rfl : media = .port urlFor := port
  refine asks_discarded (Asks.bind (.perform trivial) fun workspaceIds => ?_)
  exact (asks_purgeEach fun workspaceId _ => asks_purge rounds workspaceId).bind fun _ => trivial

/-- What a purge of all workspaces ends with. -/
theorem Accounts.ends (port : services.media = .port urlFor)
    (h : Accounts start services.rounds keys [] w)
    (run : Ends (purging env).machine (Call.purgeAll.program services) w y w') :
  y = .ok () ∧ w'.db = start.purged ∧ ↑w'.outside = keys ∧ Accounts start services.rounds keys [] w'
  := by
  obtain ⟨media, _, _, _, rounds⟩ := services
  obtain rfl : media = .port urlFor := port
  obtain ⟨z, ended, rfl⟩ := Setting.ends_discarded.mp run
  obtain ⟨⟨n, rfl⟩, h', none⟩ := h.purgeAll.ends ended
  refine ⟨rfl, ?_, ?_, h'⟩
  · rw [← h'.toward.purged, Db.purged_eq_self none]
  · rw [← h'.keys, Db.deletedKeys_eq_zero none, Multiset.coe_nil, add_zero, add_zero]

/-- Wherever a purge is cut off: it is about to delete the files of `next`, or there are none. -/
theorem Accounts.cut (port : services.media = .port urlFor)
    (h : Accounts start services.rounds keys [] w) (purges : call.Purges w.db)
    (cut : Steps (purging env).machine (call.program services) w x w') :
  ∃ next, (DeletesNext x ↔ next ≠ []) ∧ Accounts start services.rounds keys next w'
  := by
  have always : (call.program services).Always (purging env).machine
      (Watched start services.rounds keys) (fun _ => Accounts start services.rounds keys []) w := by
    obtain ⟨media, _, _, _, rounds⟩ := services
    obtain rfl : media = .port urlFor := port
    cases call with
    | purgeAll =>
        exact h.purgeAll.bind_ok fun _ _ h' => h'.1
    | purge workspaceId => exact (h.purge purges).mono fun _ _ h' => h'.2.1
    | _ => exact purges.elim
  have here := always.steps cut
  cases x with
  | done a => exact ⟨[], by simp [DeletesNext], here⟩
  | fail e => exact ⟨[], by simp [DeletesNext], here⟩
  | ask request next => exact here.1

/-- A purge may start in any reachable state. -/
theorem Accounts.init {s : Session} (reachable : Reachable env (fun _ => True) s) {rounds : ℕ}
    (enough : s.db.products.rows.length < rounds) :
  Accounts s.db rounds s.db.deletedKeys [] ⟨s, [], []⟩
  where
  toward := ⟨rfl, reachable.catalogued, Reachable.unique reachable,
    fun _ => lt_of_le_of_lt (List.length_filter_le _ _) enough⟩
  keys := by rw [Multiset.coe_nil, add_zero, zero_add]; rfl

/-- Another purge may start wherever one was cut off. -/
theorem Accounts.again {rounds : ℕ} {next : List String} (h : Accounts start rounds keys next w) :
  Accounts start rounds (↑w.outside + w.db.deletedKeys) [] w
  := ⟨h.toward, by rw [Multiset.coe_nil, add_zero]⟩

/-- A purge ends, has removed all rows of the soft-deleted workspaces and no others, and has
deleted their files; a second one changes nothing. Wherever it is cut off, another one ends in the
same rows. -/
theorem purge_complete (port : services.media = .port urlFor) {s : Session}
    (reachable : Reachable env (fun _ => True) s)
    (enough : s.db.products.rows.length < services.rounds) :
  let m := (purging env).machine
  let purgeAll : Service MediaRequest Unit := Call.purgeAll.program services
  let w : World (List String) := ⟨s, [], []⟩
  (∃ y w', Ends m purgeAll w y w')
    ∧ (∀ y w', Ends m purgeAll w y w' →
        y = .ok () ∧ w'.db = s.db.purged ∧ (↑w'.outside : Multiset String) = s.db.deletedKeys
          ∧ ∀ y' w'', Ends m purgeAll w' y' w'' →
              y' = .ok () ∧ w''.db = w'.db ∧ (↑w''.outside : Multiset String) = ↑w'.outside)
    ∧ ∀ x w', Steps m purgeAll w x w' →
        (∃ y w'', Ends m purgeAll w' y w'')
          ∧ ∀ y w'', Ends m purgeAll w' y w'' → y = .ok () ∧ w''.db = s.db.purged
  := by
  intro m purgeAll w
  have ends := exists_ends (m := m) (asks_purgeAll port) Request.OfPurge.answered
  have start := Accounts.init reachable enough
  refine ⟨ends w, fun y w' run => ?_, fun x w' cut => ⟨ends w', fun y w'' later => ?_⟩⟩
  · obtain ⟨hy, hdb, hkeys, h'⟩ := start.ends port run
    refine ⟨hy, hdb, hkeys, fun y' w'' again => ?_⟩
    obtain ⟨hy', hdb', hkeys', _⟩ := h'.ends port again
    exact ⟨hy', hdb'.trans hdb.symm, hkeys'.trans hkeys.symm⟩
  · have purges : Call.purgeAll.Purges s.db := trivial
    obtain ⟨next, _, h'⟩ := start.cut port purges cut
    obtain ⟨hy, hdb, _⟩ := h'.again.ends port later
    exact ⟨hy, hdb⟩

/-- Of the files that the rows of the soft-deleted workspaces refer to, all but those that a purge
was about to delete when it was cut off are deleted by then, or by another purge. -/
theorem Accounts.interrupted (port : services.media = .port urlFor)
    (h : Accounts start services.rounds keys [] w) (purges : call.Purges w.db)
    (cut : Steps (purging env).machine (call.program services) w x w') {w'' : World (List String)}
    (later : Ends (purging env).machine (Call.purgeAll.program services) w' y w'') :
  ∃ next : List String, (DeletesNext x ↔ next ≠ [])
    ∧ (↑w''.outside + ↑next : Multiset String) = keys
  := by
  obtain ⟨next, hnext, h'⟩ := h.cut port purges cut
  obtain ⟨_, _, hkeys, _⟩ := h'.again.ends port later
  refine ⟨next, hnext, ?_⟩
  rw [hkeys, ← h'.keys, add_right_comm]

/-- Unless a purge is cut off when it is about to delete a file, all files that the rows of the
soft-deleted workspaces referred to at its start are deleted by then, or by another purge. -/
theorem purge_leaves_no_file (port : services.media = .port urlFor) {s : Session}
    (reachable : Reachable env (fun _ => True) s)
    (enough : s.db.products.rows.length < services.rounds) (purges : call.Purges s.db)
    (cut : Steps (purging env).machine (call.program services) ⟨s, [], []⟩ x w')
    {w'' : World (List String)}
    (later : Ends (purging env).machine (Call.purgeAll.program services) w' y w'') :
  (¬ DeletesNext x → ∀ key ∈ s.db.deletedKeys, key ∈ w''.outside)
    ∧ (s.db.deletedKeys.Nodup → DeletesNext x → ∃ key ∈ s.db.deletedKeys, key ∉ w''.outside)
  := by
  obtain ⟨next, hnext, hkeys⟩ := (Accounts.init reachable enough).interrupted port purges cut later
  rw [← hkeys]
  refine ⟨fun still key hkey => ?_, fun distinct deletes => ?_⟩
  · obtain rfl : next = [] := of_not_not fun hne => still (hnext.mpr hne)
    rwa [Multiset.coe_nil, add_zero, Multiset.mem_coe] at hkey
  · obtain ⟨key, hkey⟩ := List.exists_mem_of_ne_nil next (hnext.mp deletes)
    have apart := (Multiset.nodup_add.mp distinct).2.2
    refine ⟨key, Multiset.mem_add.mpr (Or.inr hkey), fun hdeleted => ?_⟩
    exact Multiset.disjoint_left.mp apart (Multiset.mem_coe.mpr hdeleted) hkey

end Runs

/-! ### A soft-deleted shop -/

/-- Ada has deleted her workspace with a product and its image. -/
theorem deleted_shop :
  ∃ s : Session, Reachable .sample (fun _ => True) s
    ∧ s.db.products.rows.length < portServices.rounds ∧ (s.db.users.get "ada").isSome = true
    ∧ s.db.deleted "i" = true ∧ s.db.deletedKeys = {"media/pen", "media/pen_thumb"}
    ∧ ((Workspaces.deletedIds none).run .sample s).1 = .ok ["i"]
    ∧ (s.db.firstProducts .sample "i" PurgeTx.productBatch) = ["iiiiii"]
    ∧ s.db.keysOf ["iiiiii"] = ["media/pen", "media/pen_thumb"]
  := by
  refine ⟨.after .sample [.register "ada" "ada@acme.test" "Ada" none, .create "Acme" "acme" "ada",
    .createProduct ⟨1, 100⟩ "i" "Pen" none 100 .active none,
    .attachImage ⟨1, 100⟩ "i" "iiiiii" ⟨"media/pen", "media/pen_thumb", "image/webp", 60⟩ "k",
    .delete "i" "ada"], .after (by simp), ?_, ?_, ?_, ?_, ?_, ?_, ?_⟩
  · decide +kernel
  · decide +kernel
  · decide +kernel
  · decide +kernel
  · decide +kernel
  · decide +kernel
  · decide +kernel

/-- The workspace of the shop is purged, and its files are deleted. -/
theorem purge_complete_of_shop :
  ∃ (s : Session) (y : Except Failure Unit) (w' : World (List String)),
    Ends (purging .sample).machine (Call.purgeAll.program portServices) ⟨s, [], []⟩ y w'
    ∧ s.db.deleted "i" = true ∧ y = .ok () ∧ w'.db.deleted "i" = false ∧ "media/pen" ∈ w'.outside
    ∧ (w'.db.users.get "ada").isSome = true
  := by
  obtain ⟨s, reachable, enough, account, soft, hkeys, _⟩ := deleted_shop
  obtain ⟨⟨y, w', run⟩, complete, _⟩ := purge_complete rfl reachable enough
  obtain ⟨hy, hdb, houtside, _⟩ := complete y w' run
  refine ⟨s, y, w', run, soft, hy, ?_, ?_, ?_⟩
  · rw [hdb]
    show ((s.db.workspaces.get "i").filter (!·.isDeleted)).any _ = false
    cases s.db.workspaces.get "i" with
    | none => rfl
    | some workspace => cases h : workspace.isDeleted <;> simp [Option.filter, h]
  · rw [← Multiset.mem_coe, houtside, hkeys]
    simp
  · rw [hdb]
    exact account

/-- The purge is cut off after its first batch, and the files of the batch are left behind. -/
theorem files_left_behind :
  ∃ (s : Session) (x : Service MediaRequest Unit) (w' w'' : World (List String))
    (y : Except Failure Unit), Reachable .sample (fun _ => True) s
    ∧ Steps (purging .sample).machine (Call.purgeAll.program portServices) ⟨s, [], []⟩ x w'
    ∧ Ends (purging .sample).machine (Call.purgeAll.program portServices) w' y w''
    ∧ ∃ key ∈ s.db.deletedKeys, key ∉ w''.outside
  := by
  obtain ⟨s, reachable, enough, _, soft, hkeys, hids, hfirst, hbatch⟩ := deleted_shop
  let m := purging .sample
  let w : World (List String) := ⟨s, [], []⟩
  have reads := Setting.reads (m := m) (w := w) hids trivial .refl
  obtain ⟨s', batch, unique⟩ : ∃ s', Returns (PurgeTx.deleteBatch "i" PurgeTx.productBatch) .sample s
      (1, ["media/pen", "media/pen_thumb"]) s' ∧ s'.db.Unique :=
    ⟨_, PurgeTx.returns_deleteBatch.mpr ⟨by rw [hfirst, hbatch]; rfl, rfl⟩,
      (Reachable.unique reachable).deleteProducts _⟩
  have commits := Setting.commits (m := m) (w := w.wait s) trivial .refl batch unique
  -- the program goes on with the files of the batch
  obtain ⟨x, steps, deletes⟩ : ∃ x, Steps m.machine (Call.purgeAll.program portServices) w x
      ((w.wait s).commit s s') ∧ DeletesNext x := by
    refine ⟨_, steps_bind.mpr (Or.inl ⟨_, steps_bind.mpr (Or.inr ⟨["i"], w.wait s, reads,
      steps_bind.mpr (Or.inl ⟨_, steps_bind.mpr (Or.inl ⟨_, steps_bind.mpr (Or.inl ⟨_,
        steps_bind.mpr (Or.inr ⟨_, _, commits, .here _ _⟩), rfl⟩), rfl⟩), rfl⟩)⟩), rfl⟩), ?_⟩
    trivial
  obtain ⟨y, w'', later⟩ := exists_ends (m := m.machine)
    (asks_purgeAll (rfl : portServices.media = .port id)) Request.OfPurge.answered
    ((w.wait s).commit s s')
  have purges : Call.purgeAll.Purges s.db := trivial
  obtain ⟨next, hnext, houtside⟩ := (Accounts.init reachable enough).interrupted rfl purges steps
    later
  refine ⟨s, x, _, w'', y, reachable, steps, later, ?_⟩
  obtain ⟨key, hkey⟩ := List.exists_mem_of_ne_nil next (hnext.mp deletes)
  have distinct : s.db.deletedKeys.Nodup := by
    rw [hkeys]
    decide
  rw [← houtside] at distinct ⊢
  refine ⟨key, Multiset.mem_add.mpr (Or.inr hkey), fun hdeleted => ?_⟩
  exact Multiset.disjoint_left.mp (Multiset.nodup_add.mp distinct).2.2 (Multiset.mem_coe.mpr hdeleted)
    hkey

/-- The purge is cut off before it has begun, and another one deletes the files. -/
theorem purge_leaves_no_file_of_shop :
  ∃ (s : Session) (y : Except Failure Unit) (w'' : World (List String)),
    Ends (purging .sample).machine (Call.purgeAll.program portServices) ⟨s, [], []⟩ y w''
    ∧ "media/pen" ∈ s.db.deletedKeys ∧ "media/pen" ∈ w''.outside
  := by
  obtain ⟨s, reachable, enough, _, _, hkeys, _⟩ := deleted_shop
  obtain ⟨y, w'', later⟩ := exists_ends (m := (purging .sample).machine)
    (asks_purgeAll (rfl : portServices.media = .port id)) Request.OfPurge.answered ⟨s, [], []⟩
  have purges : Call.purgeAll.Purges s.db := trivial
  have hkey : "media/pen" ∈ s.db.deletedKeys := by
    rw [hkeys]
    simp
  refine ⟨s, y, w'', later, hkey, ?_⟩
  exact (purge_leaves_no_file rfl reachable enough purges (.here _ _) later).1 not_false _ hkey

end MvpApi
