import MvpApi.Runs.Threads
import MvpApi.Safety.Purges

/-!
# Products that outlive their workspace

A request on a product passes the access check of its route, and runs its transaction later. The
transaction locks the row of the workspace if it is there, and goes on if it is not. So a product
may be created in a workspace that has been purged meanwhile, and no later purge finds it.

If products are only created in workspaces that are live then, no product outlives its workspace,
however such requests, deletions of workspaces and purges overlap: once a workspace is
soft-deleted it gets no more products, so a purge that has found none left finds none when it
removes the row of the workspace.
-/

set_option autoImplicit false

namespace MvpApi

open Program Exec

/-! ### What is kept -/

/-- Every product is of a workspace that exists. -/
def Db.Housed (db : Db) : Prop :=
  ∀ row ∈ db.products, (db.workspaces.get row.workspaceId).isSome

/-- Images are of workspaces that exist, if their products are. -/
theorem Db.Housed.images {db : Db} (h : db.Housed) (catalogued : db.Catalogued) :
  ∀ image ∈ db.images, (db.workspaces.get image.workspaceId).isSome
  := by
  intro image himage
  obtain ⟨row, hrow, _, hworkspace⟩ := catalogued image himage
  rw [← hworkspace]
  exact h row hrow

/-- The transaction creates a product in the workspace. -/
def Work.CreatesIn (workspaceId : String) : Work → Prop
  | .createProduct _ workspaceId' _ _ _ _ _ => workspaceId' = workspaceId
  | _ => False

/-- The transactions on products and workspaces that run at once, apart from the one that removes
the row of a workspace. -/
def Work.Shared : Work → Prop
  | .createProduct .. => True
  | .attachImage .. => True
  | .delete .. => True
  | .deleteBatch _ => True
  | _ => False

/-- Products stay housed, and workspaces that are not live stay so and get no products. -/
structure Db.Keeps (db db' : Db) : Prop where
  housed : db.Catalogued → db.Housed → db'.Catalogued ∧ db'.Housed
  closed : ∀ w, db.live w = none →
    db'.live w = none ∧ ∀ row ∈ db'.products, row.workspaceId = w → row ∈ db.products

section Keeps

variable {db db' : Db} {env : Env} {s s' : Session} {work : Work}

theorem Db.Keeps.refl (db : Db) :
  db.Keeps db
  := ⟨fun catalogued housed => ⟨catalogued, housed⟩, fun _ dead => ⟨dead, fun _ h _ => h⟩⟩

theorem Db.Keeps.trans {db'' : Db} (h : db.Keeps db') (h' : db'.Keeps db'') :
  db.Keeps db''
  := by
  constructor
  · intro catalogued housed
    obtain ⟨catalogued', housed'⟩ := h.housed catalogued housed
    exact h'.housed catalogued' housed'
  · intro w dead
    obtain ⟨dead', rows⟩ := h.closed w dead
    obtain ⟨dead'', rows'⟩ := h'.closed w dead'
    exact ⟨dead'', fun row hrow hw => rows row (rows' row hrow hw) hw⟩

/-- A workspace that is not live has no products from when it has none. -/
theorem Db.Keeps.productsOf {w : String} (h : db.Keeps db') (dead : db.live w = none)
    (none_left : db.productsOf w = []) :
  db'.live w = none ∧ db'.productsOf w = []
  := by
  obtain ⟨dead', rows⟩ := h.closed w dead
  refine ⟨dead', List.eq_nil_iff_forall_not_mem.mpr fun row hrow => ?_⟩
  obtain ⟨hmem, hw⟩ := Db.mem_productsOf.mp hrow
  have hold := Db.mem_productsOf.mpr ⟨rows row hmem hw, hw⟩
  rw [none_left] at hold
  cases hold

/-- The transactions that run at once keep products housed if none is created in a workspace that
is not live. -/
theorem Effect.keeps (h : Effect env s s' work) (shared : work.Shared)
    (creates : ∀ w, work.CreatesIn w → (s.db.live w).isSome) :
  s.db.Keeps s'.db
  := by
  refine ⟨fun catalogued housed => ⟨h.catalogued catalogued, ?_⟩, ?_⟩
  · cases h with
    | @createProduct _ workspaceId _ _ _ _ _ row own _ _ db =>
        have live := creates workspaceId rfl
        rw [db]
        intro row' hrow'
        rcases Table.mem_put.mp hrow' with rfl | ⟨hrow', _⟩
        · rw [own]
          obtain ⟨workspace, hlive⟩ := Option.isSome_iff_exists.mp live
          obtain ⟨hmem, hid, _⟩ := Db.live_eq_some.mp hlive
          rw [Table.get_eq_some_iff.mpr ⟨hmem, hid⟩]
          rfl
        · exact housed row' hrow'
    | attachImage _ _ _ _ _ _ _ _ db =>
        rw [db]
        exact housed
    | delete workspace now newId memberIds live _ _ _ db =>
        rw [db]
        intro row hrow
        exact Table.isSome_get_put _ (housed row hrow)
    | deleteBatch _ db =>
        rw [db]
        exact fun row hrow => housed row (Table.mem_filter.mp hrow).1
    | _ => exact shared.elim
  · intro w dead
    cases h with
    | @createProduct _ workspaceId _ _ _ _ _ row own _ _ db =>
        have live := creates workspaceId rfl
        rw [db]
        refine ⟨dead, fun row' hrow' hw => ?_⟩
        rcases Table.mem_put.mp hrow' with rfl | ⟨hrow', _⟩
        · rw [own] at hw
          rw [hw, dead] at live
          cases live
        · exact hrow'
    | attachImage _ _ _ _ _ _ _ _ db =>
        rw [db]
        exact ⟨dead, fun row hrow _ => hrow⟩
    | @delete workspaceId _ workspace now newId memberIds live _ _ _ db =>
        rw [db]
        refine ⟨?_, fun row hrow _ => hrow⟩
        have hid := (Db.live_eq_some.mp live).2.1
        have hne : w ≠ (workspace.softDelete now newId).id := by
          rintro rfl
          rw [show (workspace.softDelete now newId).id = workspaceId from hid, live] at dead
          cases dead
        show ((s.db.workspaces.put (workspace.softDelete now newId)).get w).filter _ = none
        rw [Table.get_put_of_ne _ hne]
        exact dead
    | deleteBatch _ db =>
        rw [db]
        exact ⟨dead, fun row hrow _ => (Table.mem_filter.mp hrow).1⟩
    | _ => exact shared.elim

/-- Removing the row of a workspace without products. -/
theorem Db.Keeps.purge {workspace : Workspace} (none_left : db.productsOf workspace.id = []) :
  db.Keeps (db.purge workspace)
  := by
  constructor
  · intro catalogued housed
    refine ⟨catalogued.same rfl rfl, fun row hrow => ?_⟩
    have hne : row.workspaceId ≠ workspace.id := by
      intro heq
      have hof : row ∈ db.productsOf workspace.id := Db.mem_productsOf.mpr ⟨hrow, heq⟩
      rw [none_left] at hof
      cases hof
    show ((db.workspaces.erase workspace.id).get row.workspaceId).isSome
    rw [Table.get_erase_of_ne _ hne]
    exact housed row hrow
  · intro w dead
    refine ⟨?_, fun row hrow _ => hrow⟩
    show ((db.workspaces.erase workspace.id).get w).filter _ = none
    rw [Table.get_erase]
    split
    · rfl
    · exact dead

end Keeps

/-! ### What runs at once -/

/-- What runs at once: requests that create a product or confirm an image, deletions of workspaces,
and purges. -/
inductive Visit where
  | createProduct (userId slug name : String) (sku : Option String) (price : Price)
      (status : ProductStatus) (description : Option String)
  | confirmImage (userId slug productId uploadKey : String)
  | deleteWorkspace (workspaceId userId : String)
  | purgeAll
deriving DecidableEq, Repr

variable {μ : Type → Type} {X : Type}

/-- The access check of a route, and the call for the workspace that it has found. -/
def workspaceAccess {α : Type} (userId slug action : String) (call : String → Service μ α) :
    Service μ Unit := do
  let workspace ← read (AccessService.workspace userId slug (some action))
  let _ ← call workspace.id
  return ()

def Visit.program (services : Services μ) : Visit → Service μ Unit
  | createProduct userId slug name sku price status description =>
      workspaceAccess userId slug "products.create" fun workspaceId =>
        services.products.create workspaceId name sku price status description
  | confirmImage userId slug productId uploadKey =>
      workspaceAccess userId slug "products.update" fun workspaceId =>
        services.products.confirmImage workspaceId productId uploadKey
  | deleteWorkspace workspaceId userId => WorkspaceService.delete workspaceId userId
  | purgeAll => (Call.purgeAll).program services

/-- Products are only created in workspaces that are live then. -/
def Setting.CreatesInLive (m : Setting μ X) : Prop :=
  ∀ {α : Type} {body : Tx α} {w : World X} {a : α},
    m.Allows (Request.attempt (μ := μ) body) w (.ok a) →
      ∀ (work : Work) (workspaceId : String), Tx.run' body = work.body →
        work.CreatesIn workspaceId → (w.db.live workspaceId).isSome

/-- The attempts that are asked for are at transactions that run at once. -/
def Request.Shares {β : Type} : Request μ β → Prop
  | .attempt body => ∃ work : Work, work.Shared ∧ Tx.run' body = work.body
  | _ => True

section Runs

variable {m : Setting μ X} {services : Services μ} {w : World X}

/-- What the programs rely on and guarantee. -/
def Houses (w w' : World X) : Prop := w.db.Keeps w'.db

theorem houses_common : Setting.Common (Houses (X := X))
  where
  refl w := .refl w.db
  trans h h' := Db.Keeps.trans h h'
  idle {w w'} same _ := by
    rw [Houses, same]
    exact .refl w.db

/-- What does not attempt a transaction shares. -/
theorem Request.shares_of_quiet {β : Type} {request : Request μ β} (quiet : ¬ request.Attempts) :
  request.Shares
  := by
  cases request with
  | attempt body => exact absurd trivial quiet
  | _ => trivial

/-- A committed transaction keeps what the programs rely on. -/
theorem houses_commit (guarded : m.CreatesInLive) {α : Type} {body : Tx α} (work : Work)
    (shared : work.Shared) (runs : Tx.run' body = work.body) {s s' : Session} {a : α}
    (same : s.db = w.db) (allows : m.Allows (Request.attempt (μ := μ) body) w (.ok a))
    (returns : Returns body m.env s a s') :
  Houses w (w.commit s s')
  := by
  have returns' : Returns work.body m.env s () s' := by
    rw [← runs, Tx.returns_run']
    exact ⟨a, returns⟩
  rw [Houses, ← same]
  refine (Work.effect returns').1.keeps shared fun workspaceId creates => ?_
  rw [same]
  exact guarded allows work workspaceId runs creates

/-- A program that asks for nothing else keeps what the programs rely on. -/
theorem holds_shared (closed : m.Closed) (guarded : m.CreatesInLive) {α : Type} {x : Service μ α}
    (asks : x.Asks Request.Shares) :
  x.Holds m.machine Houses Houses (fun _ _ => True) w
  := by
  refine Holds.of_asks houses_common.toStable asks (fun _ _ h => h) ?_ fun _ _ _ => trivial
  intro β request y w₁ w₂ shares _ answer
  by_cases attempts : request.Attempts
  · cases request with
    | attempt body =>
        obtain ⟨work, shared, runs⟩ := shares
        obtain ⟨allows, s, meanwhile, ⟨a, s', rfl, returns, _, rfl⟩ | ⟨_, _, rfl, _⟩⟩ :=
          Setting.answers_attempt answer
        · exact houses_commit guarded work shared runs (meanwhile.idle closed) allows returns
        · exact houses_common.idle (meanwhile.idle closed) rfl
    | _ => exact attempts.elim
  · obtain ⟨same, commits⟩ := closed.quiet attempts answer
    exact houses_common.idle same commits

/-! ### Requests and deletions -/

theorem asks_notify_shares (action productId workspaceId : String) :
  (ProductService.notify action productId workspaceId : Service μ Unit).Asks Request.Shares
  := (Asks.perform trivial).bind fun _ => (Asks.perform trivial).bind fun _ => .perform trivial

theorem asks_media_shares {α : Type} {x : Service μ α} (asks : x.Asks Request.OfMedia) :
  x.Asks Request.Shares
  := asks.mono fun media => Request.shares_of_quiet media.quiet

theorem asks_createProduct_shares {workspaceId name : String} {sku : Option String} {price : Price}
    {status : ProductStatus} {description : Option String} :
  (services.products.create workspaceId name sku price status description).Asks Request.Shares
  := by
  unfold ProductService.create
  refine Asks.bind (asks_transaction ?_) fun _ => (asks_notify_shares _ _ _).bind fun _ => trivial
  exact ⟨.createProduct services.quotas workspaceId name sku price status description, trivial, rfl⟩

theorem asks_confirmImage_shares (proper : services.media.Proper)
    {workspaceId productId uploadKey : String} :
  (services.products.confirmImage workspaceId productId uploadKey).Asks Request.Shares
  := by
  have reads : ∀ {α : Type} (query : Tx α), (read query : Service μ α).Asks Request.Shares :=
    fun _ => .perform trivial
  unfold ProductService.confirmImage
  refine (reads _).bind fun _ => Asks.ofExcept.bind fun _ => (reads _).bind fun existing => ?_
  cases existing with
  | some _ => trivial
  | none =>
      refine (asks_media_shares (proper.pendingSize _)).bind fun _ => (reads _).bind fun _ => ?_
      refine Asks.ofExcept.bind fun _ => (reads _).bind fun _ => Asks.ofExcept.bind fun _ => ?_
      refine (asks_media_shares (proper.storeImage _)).bind fun stored => ?_
      have discards : (services.products.discard stored).Asks Request.Shares :=
        (asks_media_shares (proper.delete _)).bind fun _ => asks_media_shares (proper.delete _)
      unfold ProductService.attach
      refine (Asks.outcome (asks_transaction ?_)).bind fun outcome => ?_
      · exact ⟨.attachImage services.quotas workspaceId productId stored uploadKey, trivial, rfl⟩
      · split
        · exact (asks_notify_shares _ _ _).bind fun _ => trivial
        · refine discards.bind fun _ => (reads _).bind fun winner => ?_
          cases winner with
          | some _ => trivial
          | none => trivial
        · exact discards.bind fun _ => trivial

/-! ### Purges -/

/-- The workspaces of a list are not live. -/
def Db.AllDead (db : Db) (workspaceIds : List String) : Prop :=
  ∀ id ∈ workspaceIds, db.live id = none

theorem Db.Keeps.allDead {db db' : Db} (h : db.Keeps db') {workspaceIds : List String}
    (dead : db.AllDead workspaceIds) :
  db'.AllDead workspaceIds
  := fun id hid => (h.closed id (dead id hid)).1

/-- When the batches end, no product of the workspace is left. -/
theorem holds_purgeProducts (closed : m.Closed) (guarded : m.CreatesInLive)
    (proper : services.media.Proper) {workspaceId : String} (dead : w.db.live workspaceId = none)
    (rounds : ℕ) :
  (WorkspacePurge.purgeProducts services.media workspaceId rounds).Holds m.machine Houses Houses
    (fun y w' => ∀ u, y = .ok u →
      w'.db.live workspaceId = none ∧ w'.db.productsOf workspaceId = []) w
  := by
  induction rounds generalizing w with
  | zero => exact fun w' _ u hu => by cases hu
  | succ rounds ih =>
      unfold WorkspacePurge.purgeProducts
      refine Holds.bind houses_common.toStable (closed.holds_transaction houses_common ?_ ?_)
      · intro w₁ s s' result later same allows returns _
        have kept : Houses w₁ (w₁.commit s s') :=
          houses_commit guarded (.deleteBatch workspaceId) trivial rfl same allows returns
        refine ⟨kept, fun w₂ later' => ?_⟩
        obtain ⟨rfl, hs'⟩ := PurgeTx.returns_deleteBatch.mp returns
        have dead₁ : w₁.db.live workspaceId = none := (later.closed _ dead).1
        have dead₂ : w₂.db.live workspaceId = none :=
          (later'.closed _ (kept.closed _ dead₁).1).1
        dsimp only
        refine Holds.bind houses_common.toStable (closed.holds_quiet houses_common
          ((proper.deleteAll _).mono Request.OfMedia.quiet) fun y w₃ later'' => ?_)
        cases y with
        | error e => exact fun u hu => by cases hu
        | ok u =>
            dsimp only
            split
            · next few =>
                -- the batch was not full, so it has deleted all products that were left
                have all : (w₁.commit s s').db.productsOf workspaceId = [] := by
                  rw [← hs']
                  show (s.db.deleteProducts _).productsOf workspaceId = []
                  rw [Db.length_firstProducts] at few
                  rw [← List.length_eq_zero_iff, Db.length_productsOf_batch]
                  omega
                have dead' : (w₁.commit s s').db.live workspaceId = none := (kept.closed _ dead₁).1
                intro w₄ later''' _ _
                exact ((later'.trans later'').trans later''').productsOf dead' all
            · exact ih (later''.closed _ dead₂).1
      · exact fun e w' _ u hu => by cases hu

theorem holds_purge (closed : m.Closed) (guarded : m.CreatesInLive)
    (proper : services.media.Proper) {workspaceId : String} (dead : w.db.live workspaceId = none)
    (rounds : ℕ) :
  (WorkspacePurge.purge services.media rounds workspaceId).Holds m.machine Houses Houses
    (fun _ _ => True) w
  := by
  unfold WorkspacePurge.purge
  refine Holds.bind houses_common.toStable
    ((holds_purgeProducts closed guarded proper dead rounds).mono fun y w₁ none_left => ?_)
  cases y with
  | error e => trivial
  | ok u =>
      obtain ⟨dead₁, none₁⟩ := none_left u rfl
      refine Holds.bind houses_common.toStable (closed.holds_transaction houses_common ?_ ?_)
      · intro w₂ s s' key later same _ returns _
        obtain ⟨_, none₂⟩ := later.productsOf dead₁ none₁
        rw [← same] at none₂
        have kept : s.db.Keeps s'.db := by
          obtain ⟨_, _, rfl⟩ | ⟨workspace, hget, _, _, rfl⟩ := PurgeTx.returns_purgeRows.mp returns
          · exact .refl _
          · refine Db.Keeps.purge ?_
            rw [(Table.get_eq_some_iff.mp hget).2]
            exact none₂
        refine ⟨by rw [Houses, ← same]; exact kept, fun w₃ _ => ?_⟩
        exact closed.holds_quiet houses_common
          ((proper.deleteSome _).mono Request.OfMedia.quiet) fun _ _ _ => trivial
      · exact fun _ _ _ => trivial

theorem holds_purgeEach (closed : m.Closed) (guarded : m.CreatesInLive)
    (proper : services.media.Proper) {workspaceIds : List String} (dead : w.db.AllDead workspaceIds)
    (rounds : ℕ) :
  (WorkspacePurge.purgeEach services.media rounds workspaceIds).Holds m.machine Houses Houses
    (fun _ _ => True) w
  := by
  induction workspaceIds generalizing w with
  | nil => exact fun _ _ => trivial
  | cons workspaceId workspaceIds ih =>
      have first := holds_purge closed guarded proper (dead workspaceId List.mem_cons_self) rounds
      refine Holds.bind houses_common.toStable ((first.since houses_common.toStable
        (houses_common.refl w)).mono fun y w₁ since => ?_)
      cases y with
      | error e => trivial
      | ok u => exact ih (since.1.allDead fun id hid => dead id (List.mem_cons_of_mem _ hid))

/-- A purge only removes workspaces that were soft-deleted when it began. -/
theorem holds_purgeAll (closed : m.Closed) (guarded : m.CreatesInLive)
    (proper : services.media.Proper) (rounds : ℕ) :
  (WorkspacePurge.purgeAll services.media rounds).Holds m.machine Houses Houses (fun _ _ => True) w
  := by
  unfold WorkspacePurge.purgeAll
  refine Holds.bind houses_common.toStable (closed.holds_read houses_common ?_ fun _ _ _ => trivial)
  intro w₁ s later same w₂ later'
  have dead : w₁.db.AllDead ((orderBy (fun ws => ws.deletedAt.getD 0) <|
      s.db.workspaces.rows.filter fun ws => ws.isDeleted && none.all (· = ws.ownerId)).map
        Workspace.id) := by
    intro id hid
    obtain ⟨workspace, hworkspace, rfl⟩ := List.mem_map.mp hid
    obtain ⟨hmem, hdeleted⟩ := List.mem_filter.mp (mem_orderBy.mp hworkspace)
    rw [same, Table.mem_rows] at hmem
    rw [Db.live, Table.mem_def.mp hmem, Option.filter_some, if_neg]
    rw [Bool.and_eq_true] at hdeleted
    rw [hdeleted.1]
    decide
  refine Holds.bind houses_common.toStable
    ((holds_purgeEach closed guarded proper (later'.allDead dead) rounds).mono fun y _ _ => ?_)
  cases y with
  | ok u => exact fun _ _ => trivial
  | error e => trivial

/-- The access check of a route asks for no transaction. -/
theorem asks_workspaceAccess {α : Type} {userId slug action : String}
    {call : String → Service μ α} (asks : ∀ workspaceId, (call workspaceId).Asks Request.Shares) :
  (workspaceAccess userId slug action call).Asks Request.Shares
  := by
  unfold workspaceAccess
  exact Asks.bind (Asks.perform trivial) fun workspace =>
    (asks workspace.id).bind fun _ => trivial

theorem Visit.holds (visit : Visit) (closed : m.Closed) (guarded : m.CreatesInLive)
    (proper : services.media.Proper) :
  (visit.program services).Holds m.machine Houses Houses (fun _ _ => True) w
  := by
  cases visit with
  | createProduct userId slug name sku price status description =>
      apply holds_shared closed guarded
      unfold Visit.program
      apply asks_workspaceAccess
      intro workspaceId
      exact asks_createProduct_shares
  | confirmImage userId slug productId uploadKey =>
      apply holds_shared closed guarded
      unfold Visit.program
      apply asks_workspaceAccess
      intro workspaceId
      exact asks_confirmImage_shares proper
  | deleteWorkspace workspaceId userId =>
      apply holds_shared closed guarded
      unfold Visit.program WorkspaceService.delete
      apply asks_transaction
      exact ⟨.delete workspaceId userId, trivial, bind_pure_unit⟩
  | purgeAll =>
      refine Holds.bind houses_common.toStable
        ((holds_purgeAll closed guarded proper services.rounds).mono fun y w' _ => ?_)
      cases y with
      | ok n => exact fun _ _ => trivial
      | error e => trivial

/-- No product outlives its workspace, if products are only created in workspaces that are live:
however requests, deletions of workspaces and purges overlap, products and images are of
workspaces that exist. -/
theorem products_housed (closed : m.Closed) (guarded : m.CreatesInLive)
    (proper : services.media.Proper) {ok : Work → Prop} {w₀ : World X}
    (reachable : Reachable m.env ok w₀.session) (housed : w₀.db.Housed) {ι : Type} [DecidableEq ι]
    (visits : ι → Visit) {x : ι → Service μ Unit}
    (run : Interleaved (fun _ => m.machine) (fun i => (visits i).program services) w₀ x w) :
  (∀ row ∈ w.db.products, (w.db.workspaces.get row.workspaceId).isSome)
    ∧ ∀ image ∈ w.db.images, (w.db.workspaces.get image.workspaceId).isSome
  := by
  have start : w₀.db.Catalogued ∧ w₀.db.Housed := ⟨reachable.catalogued, housed⟩
  obtain ⟨_, catalogued, housed⟩ := run.holds (fun _ => houses_common.toStable)
    (fun _ _ _ _ _ h => h) (fun i => (visits i).holds closed guarded proper) start
    fun _ _ _ kept h => kept.housed h.1 h.2
  exact ⟨housed, housed.images catalogued⟩

end Runs

/-! ### A product in a workspace that is deleted -/

/-- Ada creates a product while her workspace is deleted and purged. -/
def crossing : Fin 3 → Visit
  | 0 => .createProduct "ada" "acme" "Pen" none 100 .active none
  | 1 => .deleteWorkspace "i" "ada"
  | 2 => .purgeAll

/-- Products are only created in workspaces that are live, and the keys that the storage is told to
delete are kept. -/
def locking (env : Env) : Setting MediaRequest (List String) where
  env := env
  Others _ := False
  Fails _ := False
  Outside := (purging env).Outside
  Allows {_} request w y := match request, y with
    | .attempt body, .ok _ => ∀ (work : Work) (workspaceId : String), Tx.run' body = work.body →
        work.CreatesIn workspaceId → (w.db.live workspaceId).isSome
    | _, _ => True

/-- A transaction that leaves no products but those of live workspaces creates none in others. -/
theorem live_of_createsIn {α : Type} {body : Tx α} {env : Env} {s s' : Session} {a : α} {db : Db}
    (returns : Returns body env s a s')
    (live : ∀ row ∈ s'.db.products, (db.live row.workspaceId).isSome) {work : Work}
    {workspaceId : String} (runs : Tx.run' body = work.body) (creates : work.CreatesIn workspaceId) :
  (db.live workspaceId).isSome
  := by
  have returns' : Returns work.body env s () s' := by
    rw [← runs, Tx.returns_run']
    exact ⟨a, returns⟩
  cases (Work.effect returns').1 with
  | @createProduct _ _ _ _ _ _ _ row own _ _ changed =>
      have hrow : row ∈ s'.db.products := by
        rw [changed]
        exact Table.mem_put.mpr (Or.inl rfl)
      have hown : row.workspaceId = workspaceId := own.trans creates
      rw [← hown]
      exact live row hrow
  | _ => exact creates.elim

/-- Ada creates a product in her workspace, and deletes the workspace after that. -/
theorem exists_locking :
  ∃ (s s₁ s₂ : Session) (workspace : Workspace) (product : Product),
    Reachable .sample (fun _ => True) s ∧ s.db.Housed
    ∧ ((AccessService.workspace "ada" "acme" (some "products.create")).run .sample s).1
        = .ok workspace ∧ workspace.id = "i"
    ∧ Returns (ProductTx.create ⟨1, 100⟩ "i" "Pen" none 100 .active none) .sample s product s₁
    ∧ s₁.db.Unique ∧ (∀ row ∈ s₁.db.products, (s.db.live row.workspaceId).isSome)
    ∧ Returns (WorkspaceTx.delete "i" "ada") .sample s₁.done () s₂
    ∧ s₂.db.Unique ∧ (∀ row ∈ s₂.db.products, (s₁.db.live row.workspaceId).isSome)
    ∧ s₂.db.live "i" = none ∧ s₂.db.productsOf "i" ≠ []
  := by
  let s : Session :=
    .after .sample [.register "ada" "ada@acme.test" "Ada" none, .create "Acme" "acme" "ada"]
  let create := ProductTx.create ⟨1, 100⟩ "i" "Pen" none 100 .active none
  let s₁ := (create.run .sample s).2
  let s₂ := ((WorkspaceTx.delete "i" "ada").run .sample s₁.done).2
  obtain ⟨workspace, entered, hid⟩ := Except.map_eq_ok.mp (show Workspace.id <$>
    ((AccessService.workspace "ada" "acme" (some "products.create")).run .sample s).1 = .ok "i"
    by decide +kernel)
  obtain ⟨product, created, _⟩ := Except.map_eq_ok.mp (show (fun _ => ()) <$>
    (create.run .sample s).1 = .ok () by decide +kernel)
  refine ⟨s, s₁, s₂, workspace, product, .after (by simp), ?_, entered, hid, .of_run created, ?_,
    ?_, .of_run ?_, ?_, ?_, ?_, ?_⟩
  · unfold Db.Housed
    decide +kernel
  all_goals decide +kernel

/-- A product is created in a workspace before the workspace is deleted. -/
theorem products_housed_of_locking :
  ∃ (s : Session) (x : Fin 3 → Service MediaRequest Unit) (w : World (List String)),
    Interleaved (fun _ => (locking .sample).machine) (fun i => (crossing i).program portServices)
        ⟨s, [], []⟩ x w
    ∧ w.db.live "i" = none ∧ w.db.productsOf "i" ≠ []
    ∧ (∀ row ∈ w.db.products, (w.db.workspaces.get row.workspaceId).isSome)
    ∧ ∀ image ∈ w.db.images, (w.db.workspaces.get image.workspaceId).isSome
  := by
  obtain ⟨s, s₁, s₂, workspace, product, reachable, housed, entered, hid, created, unique₁, live₁,
    deleted, unique₂, live₂, dead, some_left⟩ := exists_locking
  let m := locking .sample
  let w : World (List String) := ⟨s, [], []⟩
  let w₁ := w.commit s s₁
  rw [← hid] at created
  have checked : Interleaved (fun _ => m.machine) (fun i => (crossing i).program portServices) w _
      w := .step (i := 0) .start rfl (Setting.answers_of_run entered trivial)
  have first : Interleaved (fun _ => m.machine) (fun i => (crossing i).program portServices) w _
      w₁ := .step (i := 0) checked rfl (Setting.answers_of_returns created unique₁
        fun _ _ => live_of_createsIn created live₁)
  have last : Interleaved (fun _ => m.machine) (fun i => (crossing i).program portServices) w _
      (w₁.commit s₁.done s₂) := .step (i := 1) first rfl
        (Setting.answers_of_returns deleted unique₂ fun _ _ => live_of_createsIn deleted live₂)
  have start : w.db.Housed := housed
  exact ⟨s, _, _, last, dead, some_left, products_housed (fun _ h => h) (fun allows => allows)
    (MediaStorage.port_proper _) reachable start crossing last⟩

/-! ### A product without a workspace -/

/-- Ada's workspace is deleted and purged, and a product is created in it after that. -/
theorem exists_stray :
  ∃ (s s₁ s₂ s₃ s₄ : Session) (workspace : Workspace) (product : Product),
    Reachable .sample (fun _ => True) s ∧ s.db.Housed
    ∧ ((AccessService.workspace "ada" "acme" (some "products.create")).run .sample s).1
        = .ok workspace ∧ workspace.id = "i"
    ∧ Returns (WorkspaceTx.delete "i" "ada") .sample s () s₁ ∧ s₁.db.Unique
    ∧ ((Workspaces.deletedIds none).run .sample s₁.done).1 = .ok ["i"]
    ∧ Returns (PurgeTx.deleteBatch "i" PurgeTx.productBatch) .sample s₁.done (0, []) s₂
    ∧ s₂.db.Unique
    ∧ Returns (PurgeTx.purgeRows "i") .sample s₂.done none s₃ ∧ s₃.db.Unique
    ∧ Returns (ProductTx.create ⟨1, 100⟩ "i" "Pen" none 100 .active none) .sample s₃.done product s₄
    ∧ s₄.db.Unique ∧ ¬ s₄.db.Housed
  := by
  let s : Session :=
    .after .sample [.register "ada" "ada@acme.test" "Ada" none, .create "Acme" "acme" "ada"]
  let s₁ := ((WorkspaceTx.delete "i" "ada").run .sample s).2
  let s₂ := ((PurgeTx.deleteBatch "i" PurgeTx.productBatch).run .sample s₁.done).2
  let s₃ := ((PurgeTx.purgeRows "i").run .sample s₂.done).2
  let create := ProductTx.create ⟨1, 100⟩ "i" "Pen" none 100 .active none
  obtain ⟨workspace, entered, hid⟩ := Except.map_eq_ok.mp (show Workspace.id <$>
    ((AccessService.workspace "ada" "acme" (some "products.create")).run .sample s).1 = .ok "i"
    by decide +kernel)
  obtain ⟨product, created, _⟩ := Except.map_eq_ok.mp (show (fun _ => ()) <$>
    (create.run .sample s₃.done).1 = .ok () by decide +kernel)
  refine ⟨s, s₁, s₂, s₃, (create.run .sample s₃.done).2, workspace, product, ?_, ?_, entered, hid,
    .of_run ?_, ?_, ?_, .of_run ?_, ?_, .of_run ?_, ?_, .of_run created, ?_, ?_⟩
  · exact .after (by simp)
  · unfold Db.Housed
    decide +kernel
  · decide +kernel
  · decide +kernel
  · decide +kernel
  · decide +kernel
  · decide +kernel
  · decide +kernel
  · decide +kernel
  · decide +kernel
  · unfold Db.Housed
    decide +kernel

/-- The access check of the request is made while the workspace is live, and its transaction runs
when the workspace is purged: the product has no workspace. -/
theorem product_outlives_workspace :
  ∃ (s : Session) (x : Fin 3 → Service MediaRequest Unit) (w : World (List String)),
    Reachable .sample (fun _ => True) s ∧ s.db.Housed
    ∧ Interleaved (fun _ => (purging .sample).machine) (fun i => (crossing i).program portServices)
        ⟨s, [], []⟩ x w
    ∧ ∃ row ∈ w.db.products, w.db.workspaces.get row.workspaceId = none
  := by
  obtain ⟨s, s₁, s₂, s₃, s₄, workspace, product, reachable, housed, entered, hid, deleted, unique₁,
    listed, emptied, unique₂, removed, unique₃, created, unique₄, stray⟩ := exists_stray
  let m := purging .sample
  let w : World (List String) := ⟨s, [], []⟩
  let w₁ := w.commit s s₁
  let w₂ := w₁.commit s₁.done s₂
  let w₃ := w₂.commit s₂.done s₃
  rw [← hid] at created
  have checked : Interleaved (fun _ => m.machine) (fun i => (crossing i).program portServices) w _
      w := .step (i := 0) .start rfl (Setting.answers_of_run entered trivial)
  have gone : Interleaved (fun _ => m.machine) (fun i => (crossing i).program portServices) w _
      w₁ := .step (i := 1) checked rfl (Setting.answers_of_returns deleted unique₁ trivial)
  have found : Interleaved (fun _ => m.machine) (fun i => (crossing i).program portServices) w _
      w₁ := .step (i := 2) gone rfl (Setting.answers_of_run listed trivial)
  have cleared : Interleaved (fun _ => m.machine) (fun i => (crossing i).program portServices) w _
      w₂ := .step (i := 2) found rfl (Setting.answers_of_returns emptied unique₂ trivial)
  have purged : Interleaved (fun _ => m.machine) (fun i => (crossing i).program portServices) w _
      w₃ := .step (i := 2) cleared rfl (Setting.answers_of_returns removed unique₃ trivial)
  have late : Interleaved (fun _ => m.machine) (fun i => (crossing i).program portServices) w _
      (w₃.commit s₃.done s₄) :=
    .step (i := 0) purged rfl (Setting.answers_of_returns created unique₄ trivial)
  refine ⟨s, _, _, reachable, housed, late, ?_⟩
  by_contra none_stray
  apply stray
  intro row hrow
  rw [Option.isSome_iff_ne_none]
  exact fun gone => none_stray ⟨row, hrow, gone⟩

end MvpApi
