import MvpApi.Database.Cursors
import MvpApi.Safety.Purges
import MvpApi.Safety.Quotas

/-!
# How many rows a purge changes at once

A transaction may change 3000 rows. A batch of products stays below that, since a product has ten
images at most. The last transaction of a purge removes the row of the workspace with its members,
roles, permissions and invitations, and nothing limits how many of these a workspace has: it stays
below the limit exactly if they are few enough.
-/

set_option autoImplicit false

namespace MvpApi

open Program Exec Tx

/-! ### Counting rows -/

/-- How many rows a transaction may change. -/
def rowLimit : ℕ := 3000

/-- The number of rows, of all tables, in which two states of the database differ. -/
def Db.changes (db db' : Db) : ℕ :=
  db.users.changes db'.users + db.workspaces.changes db'.workspaces + db.roles.changes db'.roles
    + db.rolePermissions.changes db'.rolePermissions + db.members.changes db'.members
    + db.invitations.changes db'.invitations + db.products.changes db'.products
    + db.images.changes db'.images

/-- The number of the rows that are removed with a workspace: its own, and those of its roles,
their permissions, its members and its invitations. -/
def Db.rowsOf (db : Db) (workspaceId : String) : ℕ :=
  1 + (db.roles.filter (·.workspaceId = workspaceId)).keys.card
    + (db.rolePermissions.filter fun row =>
        (db.roles.get row.roleId).any (·.workspaceId = workspaceId)).keys.card
    + (db.members.filter (·.workspaceId = workspaceId)).keys.card
    + (db.invitations.filter (·.workspaceId = workspaceId)).keys.card

section Counts

variable {db : Db}

@[simp]
theorem Db.changes_self (db : Db) :
  db.changes db = 0
  := by
  simp [Db.changes]

/-- The rows that are changed when a workspace is removed. -/
theorem Db.changes_purge {workspace : Workspace} (h : workspace ∈ db.workspaces) :
  db.changes (db.purge workspace) = db.rowsOf workspace.id
  := by
  have hrow : (db.workspaces.get workspace.id).isSome := by
    rw [Table.mem_def.mp h]
    rfl
  simp only [Db.changes, Db.purge, Table.changes_self, Table.changes_erase hrow,
    Table.changes_filter, Bool.not_not, ← decide_not, Db.rowsOf, ne_eq, not_not]
  omega

/-- The images of a product are few. -/
theorem Db.card_images_le {p : String} (few : (db.imagesOf p).length ≤ maxImagesPerProduct) :
  (db.images.filter (·.productId = p)).keys.card ≤ maxImagesPerProduct
  := by
  rw [Table.card_keys, ← Table.length_filter_rows]
  rwa [Db.imagesOf, orderBy, List.length_insertionSort] at few

/-- A batch changes a row for each product and for each of its images. -/
theorem Db.changes_deleteProducts (ids : List String)
    (few : ∀ p, (db.imagesOf p).length ≤ maxImagesPerProduct) :
  db.changes (db.deleteProducts ids) ≤ ids.length * (1 + maxImagesPerProduct)
  := by
  have himages := Table.card_filter_mem_le (t := db.images) ids fun p _ => Db.card_images_le (few p)
  have hproducts := Table.card_filter_key_le (t := db.products) ids
  simp only [Db.changes, Db.deleteProducts, Table.changes_self, Table.changes_filter,
    ← decide_not, not_not]
  rw [Nat.mul_add, Nat.mul_one]
  omega

/-- A batch is below the limit. -/
theorem Db.changes_batch {env : Env} {workspaceId : String}
    (few : ∀ p, (db.imagesOf p).length ≤ maxImagesPerProduct) :
  db.changes (db.deleteProducts (db.firstProducts env workspaceId PurgeTx.productBatch)) ≤ rowLimit
  := by
  refine (Db.changes_deleteProducts _ few).trans ?_
  rw [Db.length_firstProducts]
  have hmin := Nat.min_le_left PurgeTx.productBatch (db.productsOf workspaceId).length
  have hle := Nat.mul_le_mul_right (1 + maxImagesPerProduct) hmin
  exact hle.trans (by decide)

end Counts

/-! ### The transactions of a purge -/

section Runs

variable {μ : Type → Type} {X α : Type} {m : Setting μ X} {media : MediaStorage μ}
  {quotas : ProductQuotas} {workspaceId : String} {w w' : World X}

/-- What a transaction of a purge commits, from a reachable state: nothing, a batch, or the removal
of the workspace. -/
inductive PurgeCommit (env : Env) (workspaceId : String) (db : Db) : Db → Prop
  | nothing : PurgeCommit env workspaceId db db
  | batch (few : ∀ p, (db.imagesOf p).length ≤ maxImagesPerProduct) :
      PurgeCommit env workspaceId db
        (db.deleteProducts (db.firstProducts env workspaceId PurgeTx.productBatch))
  | rows {workspace : Workspace} (stored : workspace ∈ db.workspaces) :
      PurgeCommit env workspaceId db (db.purge workspace)

theorem purgeCommit_of_returns {env : Env} {s s' : Session} {body : Tx α} {a : α}
    (reachable : Reachable env (Work.Under quotas) s)
    (runs : (Request.attempt (μ := μ) body).RunsPurge workspaceId)
    (returns : Returns body env s a s') :
  ∃ work : Work, work.Under quotas ∧ Returns work.body env s () s'
    ∧ PurgeCommit env workspaceId s.db s'.db
  := by
  have returns' : Returns (Tx.run' body) env s () s' := by
    rw [Tx.run', returns_bind]
    exact ⟨a, s', returns, returns_pure.mpr ⟨rfl, rfl⟩⟩
  rcases runs with h | h
  · rw [h] at returns'
    refine ⟨.deleteBatch workspaceId, trivial, returns', ?_⟩
    cases (Work.effect returns').1 with
    | deleteBatch _ db =>
        rw [db]
        exact .batch fun p => (reachable.orderly.arranged p).few
  · rw [h] at returns'
    refine ⟨.purgeRows workspaceId, trivial, returns', ?_⟩
    cases (Work.effect returns').1 with
    | purgeNothing _ same =>
        rw [same]
        exact .nothing
    | purgeRows workspace stored _ _ db =>
        rw [db]
        exact .rows (Table.get_eq_some_iff.mp stored).1

/-- A transaction of a purge stays below the limit exactly if the rows of the workspace do that it
removes. -/
theorem PurgeCommit.fits_iff {env : Env} {db db' : Db} (h : PurgeCommit env workspaceId db db') :
  db.changes db' ≤ rowLimit
    ↔ ∀ workspace ∈ db.workspaces, db' = db.purge workspace → db.rowsOf workspace.id ≤ rowLimit
  := by
  constructor
  · rintro hle workspace hworkspace rfl
    rwa [Db.changes_purge hworkspace] at hle
  · intro hfew
    cases h with
    | nothing =>
        rw [Db.changes_self]
        exact Nat.zero_le _
    | batch few => exact Db.changes_batch few
    | rows stored =>
        rw [Db.changes_purge stored]
        exact hfew _ stored rfl

/-- What a purge has committed wherever it is cut off. -/
theorem purge_commits {x x' : Service μ α} (asks : x.Asks (Request.RunsPurge workspaceId))
    (others : ∀ work, m.Others work → work.Under quotas)
    (reachable : Reachable m.env (Work.Under quotas) w.session)
    (run : Steps m.machine x w x' w') :
  ∃ new, w'.commits = new ++ w.commits
    ∧ ∀ commit ∈ new, PurgeCommit m.env workspaceId commit.1 commit.2
  := by
  induction run with
  | here => exact ⟨[], rfl, by simp⟩
  | @ask _ request _ _ w w₁ _ _ answer _ ih =>
      have reach : ∀ {s}, Reaches m.env m.Others w.session s →
          Reachable m.env (Work.Under quotas) s :=
        fun h => reachable.trans (h.mono others)
      obtain ⟨new₁, hreach₁, hcommits₁, hnew₁⟩ : ∃ new₁,
          Reachable m.env (Work.Under quotas) w₁.session ∧ w₁.commits = new₁ ++ w.commits
          ∧ ∀ commit ∈ new₁, PurgeCommit m.env workspaceId commit.1 commit.2 := by
        obtain ⟨_, answer⟩ := answer
        cases answer with
        | read meanwhile => exact ⟨[], reach meanwhile, rfl, by simp⟩
        | @commit body _ s s' a meanwhile returns unique =>
            obtain ⟨work, under, returns', commits⟩ :=
              purgeCommit_of_returns (reach meanwhile) asks.1 returns
            exact ⟨[(s.db, s'.db)], .commit (reach meanwhile) under returns' unique, rfl,
              by simpa using commits⟩
        | raise meanwhile => exact ⟨[], reach meanwhile, rfl, by simp⟩
        | violate meanwhile => exact ⟨[], reach meanwhile, rfl, by simp⟩
        | outside meanwhile => exact ⟨[], reach meanwhile, rfl, by simp⟩
        | fault meanwhile => exact ⟨[], reach meanwhile, rfl, by simp⟩
      obtain ⟨new, hcommits, hnew⟩ := ih (asks.2 _) hreach₁
      refine ⟨new ++ new₁, by rw [hcommits, hcommits₁, List.append_assoc], ?_⟩
      intro commit hcommit
      rcases List.mem_append.mp hcommit with h | h
      · exact hnew commit h
      · exact hnew₁ commit h

/-- Whatever else runs, and wherever it is cut off, a purge has changed not more rows in one
transaction than it may, exactly if no workspace that it has removed had more rows. -/
theorem purge_fits_iff (proper : media.Proper)
    (others : ∀ work, m.Others work → work.Under quotas)
    (reachable : Reachable m.env (Work.Under quotas) w.session) {rounds : ℕ}
    {x : Service μ Unit}
    (run : Steps m.machine (WorkspacePurge.purge media rounds workspaceId) w x w') :
  ∃ new, w'.commits = new ++ w.commits
    ∧ ((∀ commit ∈ new, commit.1.changes commit.2 ≤ rowLimit)
      ↔ ∀ commit ∈ new, ∀ workspace ∈ commit.1.workspaces, commit.2 = commit.1.purge workspace →
          commit.1.rowsOf workspace.id ≤ rowLimit)
  := by
  have asks := asks_runsPurge proper rounds workspaceId
  obtain ⟨new, hcommits, hnew⟩ := purge_commits asks others reachable run
  refine ⟨new, hcommits, ?_⟩
  constructor
  · intro h commit hcommit
    exact (hnew commit hcommit).fits_iff.mp (h commit hcommit)
  · intro h commit hcommit
    exact (hnew commit hcommit).fits_iff.mpr (h commit hcommit)

end Runs

/-! ### A workspace with many roles -/

section Forward

variable {env : Env} {s : Session}

/-- The unique constraints hold when a role is added of which the name is new. -/
theorem Db.Unique.addRole {db : Db} (h : db.Unique) {role : Role}
    (named : ∀ other ∈ db.roles, other.name ≠ role.name) :
  Unique { db with roles := db.roles.put role }
  where
  email := h.email
  slug := h.slug
  roleName other hother other' hother' := by
    rintro ⟨hworkspace, hname⟩
    rcases Table.mem_put.mp hother with rfl | ⟨hold, _⟩
    · rcases Table.mem_put.mp hother' with rfl | ⟨hold', _⟩
      · rfl
      · exact absurd hname.symm (named other' hold')
    · rcases Table.mem_put.mp hother' with rfl | ⟨hold', _⟩
      · exact absurd hname (named other hold)
      · exact h.roleName other hold other' hold' ⟨hworkspace, hname⟩
  tokenHash := h.tokenHash
  uploadKey := h.uploadKey

/-- The unique constraints hold when the only workspace is deleted, and accounts are written again
with the email they had. -/
theorem Db.Unique.softDelete {db : Db} (h : db.Unique) {workspace : Workspace}
    (only : ∀ other ∈ db.workspaces, other.id = workspace.id) {users' : Table User.id}
    (users : ∀ user ∈ users', ∃ old ∈ db.users, old.id = user.id ∧ old.email = user.email)
    (members' : Table Member.key) (now : Time) (newId workspaceId : String) :
  Unique { db with
    users := users'
    workspaces := db.workspaces.put (workspace.softDelete now newId)
    members := members'
    invitations := db.invitations.map (·.revokePending workspaceId)
      (Invitation.revokePending_id workspaceId) }
  := by
  have rewritten : Unique { db with
      users := users'
      members := members'
      invitations := db.invitations.map (·.revokePending workspaceId)
        (Invitation.revokePending_id workspaceId) } := by
    refine h.rewrite users fun invitation hinvitation => ?_
    obtain ⟨old, hold, rfl⟩ := Table.mem_map.mp hinvitation
    obtain ⟨status, heq, _⟩ := old.revokePending_eq workspaceId
    exact ⟨old, hold, by rw [heq], by rw [heq]⟩
  have same : ∀ other ∈ db.workspaces.put (workspace.softDelete now newId),
      other.id = workspace.id := by
    intro other hother
    rcases Table.mem_put.mp hother with rfl | ⟨hold, _⟩
    · rfl
    · exact only other hold
  exact { rewritten with
    slug := fun ws hws ws' hws' _ => (same ws hws).trans (same ws' hws').symm }

/-- Who may manage the roles of a workspace adds one with a new name. -/
theorem returns_addRole {workspaceId name userId : String} {workspace : Workspace}
    (live : s.db.live workspaceId = some workspace)
    (allowed : s.db.Allows userId "roles.manage" workspaceId) (assignable : strip name ≠ ownerRole)
    (fresh : s.db.roles.get (env.uuid7 s.ids) = none)
    (unique : Db.Unique { s.db with
      roles := s.db.roles.put ⟨env.uuid7 s.ids, workspaceId, strip name, false, false⟩ }) :
  Returns (Work.saveRole workspaceId none name userId).body env s ()
    { s with
      db := { s.db with
        roles := s.db.roles.put ⟨env.uuid7 s.ids, workspaceId, strip name, false, false⟩ }
      touched := s.touched ++ [.workspace workspaceId]
      ids := s.ids + 1 }
  := by
  rw [Work.body, returns_run']
  unfold WorkspaceTx.saveRole Roles.add Roles.grant
  simp only [returns_bind, WorkspaceTx.returns_locked, returns_require, returns_check,
    ensureAssignableRoleName_eq_ok, returns_newId, Role.custom_eq_ok, returns_pure, returns_flush,
    WorkspaceTx.returns_roleView, returns_select, returns_ensure, returns_write]
  refine ⟨_, workspace, _, ⟨live, rfl⟩, (), _, ⟨allowed, rfl⟩, (), _, ⟨assignable, rfl⟩, _, _,
    ⟨rfl, rfl⟩, _, _, ⟨⟨assignable, rfl⟩, rfl⟩, (), _, ⟨_, _, ⟨rfl, rfl⟩, (), _, ⟨?_, rfl⟩, (), _,
      rfl, _, _, ⟨rfl, rfl⟩, (), _, ⟨⟨List.nodup_nil, rfl⟩, rfl⟩, rfl⟩, _, _, ⟨rfl, rfl⟩, (), _,
    ⟨unique, rfl⟩, rfl, rfl⟩
  show (s.db.roles.get (env.uuid7 s.ids)).isSome = false
  rw [fresh]
  rfl

/-- Who may delete a workspace deletes it. -/
theorem returns_deleteWorkspace {workspaceId userId : String} {workspace : Workspace}
    (live : s.db.live workspaceId = some workspace)
    (allowed : s.db.Allows userId "workspace.delete" workspaceId)
    (unique : Db.Unique { s.db with
      workspaces := s.db.workspaces.put
        (workspace.softDelete (env.clock s.ticks) (env.uuid7 s.ids))
      members := s.db.members.filter (·.workspaceId ≠ workspaceId)
      invitations := s.db.invitations.map (·.revokePending workspaceId)
        (Invitation.revokePending_id workspaceId) }) :
  ∃ s', Returns (Work.delete workspaceId userId).body env s () s'
  := by
  rw [Work.body]
  unfold WorkspaceTx.delete Members.userIds Members.removeAll Invitations.revokePending
    Workspaces.save
  simp only [returns_bind, WorkspaceTx.returns_locked, returns_require, returns_select,
    returns_write, returns_now, returns_newId, returns_flush,
    WorkspaceTx.returns_returnToWorkspaceStep]
  exact ⟨_, workspace, _, ⟨live, rfl⟩, (), _, ⟨allowed, rfl⟩, _, _, ⟨rfl, rfl⟩, (), _, rfl, (), _,
    rfl, _, _, ⟨rfl, rfl⟩, _, _, ⟨rfl, rfl⟩, (), _, rfl, (), _, ⟨unique, rfl⟩, rfl⟩

end Forward

/-- The name of the role that is added when there are `n`. -/
def roleName (n : ℕ) : String := String.ofList ('r' :: Numeral.natural n)

theorem strip_roleName (n : ℕ) :
  strip (roleName n) = roleName n
  := by
  apply strip_eq_self
  intro c hc
  rcases List.mem_cons.mp hc with rfl | hc
  · decide
  · have hdigit := Numeral.toNat_of_isSome (Numeral.isSome_value_natural hc)
    simp only [isSpace]
    grind

theorem roleName_injective : Function.Injective roleName
  := by
  intro n n' h
  have hdigits := (List.cons_injective (String.ofList_injective h))
  have hnumber := Numeral.number_natural n
  rw [hdigits, Numeral.number_natural] at hnumber
  exact (Option.some.inj hnumber).symm

theorem roleName_ne_owner (n : ℕ) :
  roleName n ≠ ownerRole
  := by
  intro h
  have hchars := congrArg String.toList h
  rw [roleName, String.toList_ofList] at hchars
  have hhead : some 'r' = some 'o' := congrArg List.head? hchars
  exact absurd hhead (by decide)

/-- Ada has added so many roles to her workspace, which is the only one, and may add more. -/
structure Roomy (n : ℕ) (s : Session) : Prop where
  live : (s.db.live "i").isSome
  only : ∀ workspace ∈ s.db.workspaces, workspace.id = "i"
  manages : s.db.Allows "ada" "roles.manage" "i"
  deletes : s.db.Allows "ada" "workspace.delete" "i"
  ids : ∀ role ∈ s.db.roles, role.id.length ≤ s.ids
  names : ∀ role ∈ s.db.roles, ∀ k, n ≤ k → role.name ≠ roleName k
  many : n ≤ (s.db.roles.filter (·.workspaceId = "i")).keys.card
  no_products : s.db.firstProducts .sample "i" PurgeTx.productBatch = []

/-- Ada can add a role more. -/
theorem Roomy.add {n : ℕ} {s : Session} (roomy : Roomy n s) (unique : s.db.Unique) :
  ∃ s', Returns (Work.saveRole "i" none (roleName n) "ada").body .sample s () s'
    ∧ s'.db.Unique ∧ Roomy (n + 1) s'.done
  := by
  obtain ⟨workspace, live⟩ := Option.isSome_iff_exists.mp roomy.live
  let role : Role := ⟨Env.sample.uuid7 s.ids, "i", roleName n, false, false⟩
  have hid : role.id.length = s.ids + 1 := by simp [role, Env.sample]
  have fresh : s.db.roles.get role.id = none := by
    rw [Table.get_eq_none_iff]
    intro other hother heq
    have := roomy.ids other hother
    rw [heq, hid] at this
    omega
  have unique' := @Db.Unique.addRole _ unique role fun other hother =>
    roomy.names other hother n le_rfl
  have returns := @returns_addRole .sample s "i" (roleName n) "ada" workspace live roomy.manages
  rw [strip_roleName] at returns
  specialize returns (roleName_ne_owner n) fresh unique'
  refine ⟨_, returns, unique', roomy.live, roomy.only, roomy.manages, roomy.deletes, ?_, ?_, ?_,
    roomy.no_products⟩
  · intro other hother
    rcases Table.mem_put.mp hother with rfl | ⟨hold, _⟩
    · exact hid.le
    · exact (roomy.ids other hold).trans (Nat.le_succ _)
  · intro other hother k hk
    rcases Table.mem_put.mp hother with rfl | ⟨hold, _⟩
    · exact fun heq => absurd (roleName_injective heq) (by omega)
    · exact roomy.names other hold k (by omega)
  · show n + 1 ≤ ((s.db.roles.put role).filter (·.workspaceId = "i")).keys.card
    rw [Table.card_keys, Table.sum_filter, Table.sum_put_of_get fresh, ← Table.sum_filter,
      ← Table.card_keys]
    exact Nat.add_le_add_right roomy.many 1

/-- Ada can add any number of roles. -/
theorem exists_roomy (n : ℕ) :
  ∃ s, Reachable .sample (Work.Under portServices.quotas) s ∧ Roomy n s
  := by
  induction n with
  | zero =>
      obtain ⟨s, reachable, live, manages, deletes, only, ids, names, products⟩ :
          ∃ s, Reachable .sample (Work.Under portServices.quotas) s
            ∧ (s.db.live "i").isSome = true
            ∧ ((require "ada" "roles.manage" "i").run .sample s).1 = .ok ()
            ∧ ((require "ada" "workspace.delete" "i").run .sample s).1 = .ok ()
            ∧ (∀ workspace ∈ s.db.workspaces, workspace.id = "i")
            ∧ (∀ role ∈ s.db.roles, role.id.length ≤ s.ids)
            ∧ (∀ role ∈ s.db.roles, role.name.toList.head? ≠ some 'r')
            ∧ s.db.firstProducts .sample "i" PurgeTx.productBatch = [] :=
        ⟨.after .sample [.register "ada" "ada@acme.test" "Ada" none, .create "Acme" "acme" "ada"],
          .after (by simp [Work.Under]), by decide +kernel, by decide +kernel, by decide +kernel,
          by decide +kernel, by decide +kernel, by decide +kernel, by decide +kernel⟩
      refine ⟨s, reachable, live, only, (returns_require.mp (.of_run manages)).1,
        (returns_require.mp (.of_run deletes)).1, ids, ?_, Nat.zero_le _, products⟩
      rintro role hrole k - hname
      apply names role hrole
      rw [hname, roleName, String.toList_ofList]
      rfl
  | succ n ih =>
      obtain ⟨s, reachable, roomy⟩ := ih
      obtain ⟨s', returns, unique, roomy'⟩ := roomy.add (Reachable.unique reachable)
      have under : Work.Under portServices.quotas (.saveRole "i" none (roleName n) "ada") := trivial
      exact ⟨s'.done, .commit reachable under returns unique, roomy'⟩

/-- Ada can delete her workspace, and its roles are still there. -/
theorem Roomy.delete {n : ℕ} {s : Session} (roomy : Roomy n s) (unique : s.db.Unique) :
  ∃ s', Returns (Work.delete "i" "ada").body .sample s () s' ∧ s'.db.Unique
    ∧ (∃ workspace, s'.db.workspaces.get "i" = some workspace ∧ workspace.deletedAt ≠ none)
    ∧ n ≤ (s'.db.roles.filter (·.workspaceId = "i")).keys.card
    ∧ s'.db.firstProducts .sample "i" PurgeTx.productBatch = []
  := by
  obtain ⟨workspace, live⟩ := Option.isSome_iff_exists.mp roomy.live
  obtain ⟨hmem, hid, _⟩ := Db.live_eq_some.mp live
  have only : ∀ other ∈ s.db.workspaces, other.id = workspace.id := by
    intro other hother
    rw [hid]
    exact roomy.only other hother
  obtain ⟨s', returns⟩ := returns_deleteWorkspace live roomy.deletes
    (unique.softDelete only (fun user huser => ⟨user, huser, rfl, rfl⟩) _ (Env.sample.clock s.ticks)
      (Env.sample.uuid7 s.ids) "i")
  cases (Work.effect returns).1 with
  | delete workspace' now newId memberIds live' _ _ _ db =>
      obtain rfl : workspace = workspace' := Option.some.inj (live.symm.trans live')
      refine ⟨s', returns, ?_, ⟨workspace.softDelete now newId, ?_, ?_⟩, ?_, ?_⟩
      · rw [db]
        refine unique.softDelete only (fun user huser => ?_) _ now newId "i"
        obtain ⟨old, hold, rfl⟩ := Table.mem_map.mp huser
        refine ⟨old, hold, (old.returned_id _ _).symm, ?_⟩
        unfold User.returned
        split
        · exact rfl
        · rfl
      · rw [db]
        show (s.db.workspaces.put _).get "i" = _
        rw [← hid]
        exact Table.get_put_self s.db.workspaces (workspace.softDelete now newId)
      · exact Option.some_ne_none _
      · rw [db]
        exact roomy.many
      · rw [db]
        exact roomy.no_products

/-- A purge of a soft-deleted workspace without products removes its rows in one transaction. -/
theorem steps_purge {s : Session} {workspace : Workspace} (unique : s.db.Unique)
    (stored : s.db.workspaces.get "i" = some workspace) (deleted : workspace.deletedAt ≠ none)
    (no_products : s.db.firstProducts .sample "i" PurgeTx.productBatch = []) :
  ∃ (x : Service MediaRequest Unit) (w' : World (List String)),
    Steps (purging .sample).machine
      (WorkspacePurge.purge portServices.media portServices.rounds "i") ⟨s, [], []⟩ x w'
    ∧ w'.commits = [(s.db.deleteProducts [], (s.db.deleteProducts []).purge workspace),
        (s.db, s.db.deleteProducts [])]
  := by
  let m := purging .sample
  let s' := s.write (·.deleteProducts [])
  let w : World (List String) := ⟨s, [], []⟩
  have batch : Returns (PurgeTx.deleteBatch "i" PurgeTx.productBatch) .sample s (0, []) s' := by
    refine PurgeTx.returns_deleteBatch.mpr ⟨?_, ?_⟩
    · rw [no_products]
      simp [Db.keysOf]
    · rw [no_products]
  have batches : Ends m.machine
      (WorkspacePurge.purgeProducts portServices.media "i" portServices.rounds) w (.ok ())
      (w.commit s s') := by
    have commits := Setting.commits (m := m) (w := w) trivial .refl batch
      (unique.deleteProducts [])
    exact ends_bind.mpr (Or.inl ⟨(0, []), _, commits, ends_bind.mpr (Or.inl ⟨(), _, .done () _,
      .done () _⟩)⟩)
  have rows : Returns (PurgeTx.purgeRows "i") .sample s'.done workspace.logoKey
      (s'.done.write (·.purge workspace)) :=
    PurgeTx.returns_purgeRows.mpr (Or.inr ⟨workspace, stored, deleted, rfl, rfl⟩)
  have commits := Setting.commits (m := m) (w := w.commit s s') trivial .refl rows
    ((unique.deleteProducts []).purge workspace)
  exact ⟨_, _, steps_bind.mpr (Or.inr ⟨(), _, batches,
    steps_bind.mpr (Or.inr ⟨_, _, commits, .here _ _⟩)⟩), rfl⟩

/-- Ada deletes a workspace to which she has added that many roles. -/
theorem exists_deleted (n : ℕ) :
  ∃ s workspace, Reachable .sample (Work.Under portServices.quotas) s
    ∧ s.db.workspaces.get "i" = some workspace ∧ workspace.deletedAt ≠ none
    ∧ n ≤ (s.db.roles.filter (·.workspaceId = "i")).keys.card
    ∧ s.db.firstProducts .sample "i" PurgeTx.productBatch = []
  := by
  obtain ⟨s, reachable, roomy⟩ := exists_roomy n
  obtain ⟨s', deletes, unique, ⟨workspace, stored, deleted⟩, many, products⟩ :=
    roomy.delete (Reachable.unique reachable)
  have under : Work.Under portServices.quotas (.delete "i" "ada") := trivial
  exact ⟨s'.done, workspace, .commit reachable under deletes unique, stored, deleted, many,
    products⟩

/-- Ada has deleted a workspace with more roles than a transaction may change rows, and all of
them are removed in one. -/
theorem purge_exceeds_limit :
  ∃ (s : Session) (x : Service MediaRequest Unit) (w' : World (List String)),
    Reachable .sample (Work.Under portServices.quotas) s
    ∧ Steps (purging .sample).machine
        (WorkspacePurge.purge portServices.media portServices.rounds "i") ⟨s, [], []⟩ x w'
    ∧ ∃ commit ∈ w'.commits, rowLimit < commit.1.changes commit.2
  := by
  obtain ⟨s, workspace, reachable, stored, deleted, many, products⟩ := exists_deleted rowLimit
  obtain ⟨x, w', run, commits⟩ := steps_purge (Reachable.unique reachable) stored deleted products
  refine ⟨s, x, w', reachable, run, _, by rw [commits]; exact List.mem_cons_self, ?_⟩
  obtain ⟨hmem, hid⟩ := Table.get_eq_some_iff.mp stored
  have hrow : workspace ∈ (s.db.deleteProducts []).workspaces := hmem
  have hroles : (s.db.deleteProducts []).roles = s.db.roles := rfl
  rw [Db.changes_purge hrow, hid, Db.rowsOf, hroles]
  omega

/-- A purge that is watched from the deletion of a workspace on. -/
theorem purge_fits_iff_of_shop :
  ∃ (s : Session) (x : Service MediaRequest Unit) (w' : World (List String)),
    Reachable .sample (Work.Under portServices.quotas) s
    ∧ Steps (purging .sample).machine
        (WorkspacePurge.purge portServices.media portServices.rounds "i") ⟨s, [], []⟩ x w'
    ∧ w'.commits.length = 2
    ∧ ((∀ commit ∈ w'.commits, commit.1.changes commit.2 ≤ rowLimit)
      ↔ ∀ commit ∈ w'.commits, ∀ workspace ∈ commit.1.workspaces,
          commit.2 = commit.1.purge workspace → commit.1.rowsOf workspace.id ≤ rowLimit)
  := by
  obtain ⟨s, workspace, reachable, stored, deleted, _, products⟩ := exists_deleted 0
  obtain ⟨x, w', run, commits⟩ := steps_purge (Reachable.unique reachable) stored deleted products
  obtain ⟨new, hnew, fits⟩ :=
    purge_fits_iff (MediaStorage.port_proper id) (fun _ => False.elim) reachable run
  rw [List.append_nil] at hnew
  exact ⟨s, x, w', reachable, run, by rw [commits]; rfl, by rw [hnew]; exact fits⟩

end MvpApi
