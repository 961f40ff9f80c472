import MvpApi.Runs.Images

/-!
# Versions of products

The time at which a product was last changed is its version. An update locks the row of the
product and reads the version again, so an update that overlaps with others starts over or
sees what they have done. Each change of a field stores the time that the clock shows: as
long as the clock never shows a time twice, a version that comes back is the same product.
-/

set_option autoImplicit false

namespace MvpApi

open Optimistic Exec

/-- An update of a product, and which reading of the clock is the next one when it starts. -/
structure Edit where
  workspaceId : String
  productId : String
  changes : ProductChanges
  ifMatch : Option Time
  tick : ℕ

/-- The updates of products, overlapping in any way. -/
def edits (env : Env) : System Db RowId Edit where
  merge := Db.merge
  Runs edit base final footprint := ∃ s s' product, s.db = base ∧ s.touched = []
    ∧ s.ticks = edit.tick
    ∧ Returns (ProductTx.update edit.workspaceId edit.productId edit.changes edit.ifMatch) env s
        product s'
    ∧ s'.db = final ∧ footprint = base.changed final ∪ { row | row ∈ s'.touched }
  Valid := Db.Unique

/-- The fields of a product that an update can change. -/
def ProductRow.fields (row : ProductRow) :
    String × Option String × Price × ProductStatus × Option String :=
  (row.name, row.sku, row.price, row.status, row.description)

/-- The version of a product. -/
def Db.version (db : Db) (productId : String) : Option Time :=
  (db.products.get productId).map ProductRow.updatedAt

/-- A field of the product differs. -/
def Db.FieldsDiffer (db db' : Db) (productId : String) : Prop :=
  (db'.products.get productId).map ProductRow.fields
    ≠ (db.products.get productId).map ProductRow.fields

/-! ### What an update does -/

/-- Setting fields changes the row exactly when it changes a field. -/
theorem fields_edited {row : ProductRow} {changes : ProductChanges} :
  (ProductTx.edited row changes).fields = row.fields ↔ ProductTx.edited row changes = row
  := by
  constructor
  · intro h
    simp only [ProductRow.fields, ProductTx.edited, Prod.mk.injEq] at h
    obtain ⟨h₁, h₂, h₃, h₄, h₅⟩ := h
    cases row
    simp_all [ProductTx.edited]
  · intro h
    rw [h]

/-- The update found the version it was sent with, if any. Either it has left the rows as they
were, or it has changed a field of its product and stored its reading of the clock. -/
structure Edited (env : Env) (edit : Edit) (db db' : Db) : Prop where
  matched : ∀ v, edit.ifMatch = some v → db.version edit.productId = some v
  others : ∀ p, p ≠ edit.productId → db'.products.get p = db.products.get p
  changed : db'.products.get edit.productId = db.products.get edit.productId
    ∨ ∃ row row' : ProductRow, db.products.get edit.productId = some row
      ∧ db'.products.get edit.productId = some row' ∧ row'.fields ≠ row.fields
      ∧ row'.updatedAt = env.clock edit.tick

section Updates

variable {env : Env} {edit : Edit} {s s' : Session}

/-- What an update has done when it returns. -/
theorem edited_of_returns {product : Product}
    (h : Returns (ProductTx.update edit.workspaceId edit.productId edit.changes edit.ifMatch) env s
      product s') (tick : s.ticks = edit.tick) :
  Edited env edit s.db s'.db ∧ .product edit.productId ∈ s'.touched
  := by
  obtain ⟨row, hrow, _, hmatch, h⟩ := ProductTx.returns_update.mp h
  have matched : ∀ v, edit.ifMatch = some v → s.db.version edit.productId = some v := by
    intro v hv
    rw [Db.version, hrow, hmatch v hv]
    rfl
  obtain ⟨_, hid⟩ := Table.get_eq_some_iff.mp hrow
  rcases h with ⟨_, _, rfl⟩ | ⟨hne, _, _, rfl⟩
  · exact ⟨⟨matched, fun _ _ => rfl, Or.inl rfl⟩, by simp⟩
  · let row' : ProductRow :=
      { ProductTx.edited row edit.changes with updatedAt := env.clock s.ticks }
    refine ⟨⟨matched, fun p hp => ?_, Or.inr ⟨row, row', hrow, ?_, ?_, congrArg env.clock tick⟩⟩,
      by simp⟩
    · exact Table.get_put_of_ne _ fun h => hp (h.trans hid)
    · rw [← hid]
      exact Table.get_put_self _ _
    · exact fun h => hne (fields_edited.mp h)

/-- An update that is refused leaves the rows as they were. -/
theorem raises_update {workspaceId productId : String} {changes : ProductChanges}
    {ifMatch : Option Time} {e : Failure}
    (h : Raises (ProductTx.update workspaceId productId changes ifMatch) env s e s') :
  s'.db = s.db
  := by
  unfold ProductTx.update ProductTx.get Products.get Products.save at h
  simp only [raises_bind, returns_bind, Tx.not_raises_select, Tx.returns_select,
    Tx.not_raises_touch, Tx.returns_touch, Tx.raises_check, Tx.returns_check, returns_pure,
    not_raises_pure, false_or, and_false, exists_false, or_false] at h
  obtain ⟨_, _, ⟨_, _, ⟨rfl, rfl⟩, _, _, rfl, rfl, rfl⟩, _, _, _, rfl⟩ |
    ⟨_, _, ⟨_, _, ⟨_, _, ⟨rfl, rfl⟩, _, _, rfl, rfl, rfl⟩, _, rfl⟩, h⟩ := h
  · rfl
  obtain ⟨_, _, _, rfl⟩ | ⟨_, _, ⟨_, rfl⟩, h⟩ := h
  · rfl
  split at h
  · simp at h
  · simp only [raises_bind, Tx.raises_check, Tx.returns_check, Tx.not_raises_now, Tx.returns_now,
      not_raises_pure, returns_pure, Tx.not_raises_write, and_false, exists_false, or_false] at h
    obtain ⟨_, _, _, rfl⟩ := h
    rfl

end Updates

/-! ### Overlapping updates -/

section Overlap

variable {env : Env} {init : Db}

/-- What a commit of an update has done to the rows as they were just before. -/
structure Commits (env : Env) (edit : Edit) (footprint : Set RowId) (db db' : Db) : Prop where
  changed : ∀ row ∈ db.changed db', row ∈ footprint
  edited : Edited env edit db db'

/-- The rows of a footprint are not changed meanwhile. -/
theorem unchanged_meanwhile {P : Db → Prop} {footprint : Set RowId} {base now : Db}
    (h : Meanwhile P (Commits env) footprint base now) :
  ∀ row ∈ footprint, row ∉ base.changed now
  := by
  induction h with
  | refl =>
      intro row _ hrow
      cases row with
      | _ => exact hrow rfl
  | tail _ step ih =>
      obtain ⟨_, _, _, other, commits, apart⟩ := step
      intro row hin hrow
      rcases Db.changed_trans hrow with hrow | hrow
      · exact ih row hin hrow
      · exact Set.disjoint_left.mp apart hin (commits.changed row hrow)

/-- An update commits as if it had started just before. -/
theorem Edited.merge {edit : Edit} {base final now : Db} (h : Edited env edit base final)
    (same : now.products.get edit.productId = base.products.get edit.productId) :
  Edited env edit now (Db.merge base final now)
  where
  matched v hv := by
    rw [Db.version, same]
    exact h.matched v hv
  others p hp := if_pos (h.others p hp)
  changed := by
    rcases h.changed with hsame | ⟨row, row', hrow, hrow', hfields, htime⟩
    · exact Or.inl (if_pos hsame)
    · refine Or.inr ⟨row, row', same.trans hrow, (if_neg ?_).trans hrow', hfields, htime⟩
      rw [hrow, hrow', Option.some_inj]
      rintro rfl
      exact hfields rfl

/-- Every commit has edited the rows as they were just before. -/
theorem history_commits {commits : List (Commit Db RowId Edit)}
    (history : History (edits env) init commits) :
  Kept (fun _ => True) (Commits env) init commits
  := by
  refine history.kept trivial ?_
  rintro edit base final footprint now - - ⟨s, s', product, rfl, _, tick, returns, rfl, rfl⟩
    meanwhile _
  obtain ⟨edited, locked⟩ := edited_of_returns returns tick
  have same := unchanged_meanwhile meanwhile (.product edit.productId) (Or.inr locked)
  exact ⟨trivial, fun row hrow => Or.inl (Db.changed_merge hrow), edited.merge (not_not.mp same)⟩

/-- The version of a product is an older reading of the clock than those of some updates. -/
def Stamped (env : Env) (first : ℕ) (commits : List (Commit Db RowId Edit)) (version : Time) :
    Prop :=
  ∃ t, version = env.clock t ∧ (t < first ∨ t ∈ commits.map fun commit => commit.work.tick)

/-- The commits read the clock at different times, all after the start. -/
structure Clocked (first : ℕ) (commits : List (Commit Db RowId Edit)) : Prop where
  distinct : (commits.map fun commit => commit.work.tick).Nodup
  later : ∀ commit ∈ commits, first ≤ commit.work.tick

theorem Clocked.older {first : ℕ} {newer older : List (Commit Db RowId Edit)}
    (h : Clocked first (newer ++ older)) :
  Clocked first older
  where
  distinct := by
    have := h.distinct
    rw [List.map_append] at this
    exact this.of_append_right
  later commit hc := h.later commit (List.mem_append_right _ hc)

variable {first : ℕ} {commits mid older : List (Commit Db RowId Edit)} {p : String}

/-- Versions come from the start or from the commits. -/
theorem stamped_current (kept : Kept (fun _ => True) (Commits env) init commits)
    (start : ∀ p v, init.version p = some v → ∃ t < first, v = env.clock t) {v : Time}
    (hv : (current init commits).version p = some v) :
  Stamped env first commits v
  := by
  induction commits with
  | nil =>
      obtain ⟨t, hlt, hclock⟩ := start p v hv
      exact ⟨t, hclock, Or.inl hlt⟩
  | cons commit older ih =>
      have older_stamped : (current init older).version p = some v →
          Stamped env first (commit :: older) v := by
        intro h
        obtain ⟨t, hclock, ht⟩ := ih kept.2.2 h
        exact ⟨t, hclock, ht.imp id (List.mem_cons_of_mem _)⟩
      have edited := kept.2.1.edited
      by_cases hp : p = commit.work.productId
      · subst hp
        rcases edited.changed with hsame | ⟨_, row', _, hrow', _, htime⟩
        · refine older_stamped ?_
          rw [Db.version, ← hsame]
          exact hv
        · refine ⟨commit.work.tick, ?_, Or.inr List.mem_cons_self⟩
          have hversion : commit.state.version commit.work.productId = some v := hv
          rw [Db.version, hrow', Option.map_some, Option.some_inj] at hversion
          rw [← hversion, htime]
      · refine older_stamped ?_
        rw [Db.version, ← edited.others p hp]
        exact hv

/-- While a version stays or comes back, the product stays as it is. -/
theorem unchanged_of_version (clock : Function.Injective env.clock)
    (start : ∀ p v, init.version p = some v → ∃ t < first, v = env.clock t)
    (kept : Kept (fun _ => True) (Commits env) init (mid ++ older))
    (clocked : Clocked first (mid ++ older)) {v : Time}
    (hold : (current init older).version p = some v)
    (hnew : (current init (mid ++ older)).version p = some v) :
  (current init (mid ++ older)).products.get p = (current init older).products.get p
    ∧ ∀ later commit earlier, mid = later ++ commit :: earlier →
        commit.state.products.get p = (current init (earlier ++ older)).products.get p
  := by
  induction mid with
  | nil => exact ⟨rfl, by simp⟩
  | cons commit mid ih =>
      have edited : Edited env commit.work (current init (mid ++ older)) commit.state :=
        kept.2.1.edited
      have same : commit.state.products.get p = (current init (mid ++ older)).products.get p := by
        by_cases hp : p = commit.work.productId
        · subst hp
          rcases edited.changed with hsame | ⟨_, row', _, hrow', _, htime⟩
          · exact hsame
          · -- The commit would have stored a time that the clock has shown before.
            exfalso
            have kept' : Kept (fun _ => True) (Commits env) init older :=
              Kept.older (show Kept _ _ init ((commit :: mid) ++ older) from kept)
            obtain ⟨t, hclock, ht⟩ := stamped_current kept' start hold
            have hversion : commit.state.version commit.work.productId = some v := hnew
            rw [Db.version, hrow', Option.map_some, Option.some_inj] at hversion
            obtain rfl : commit.work.tick = t := clock (htime.symm.trans (hversion.trans hclock))
            rcases ht with hlt | hmem
            · exact absurd (clocked.later commit List.mem_cons_self) (not_le.mpr hlt)
            · have hdistinct := clocked.distinct
              rw [List.cons_append, List.map_cons, List.nodup_cons, List.map_append] at hdistinct
              exact hdistinct.1 (List.mem_append_right _ hmem)
        · exact edited.others p hp
      have hmid : (current init (mid ++ older)).version p = some v := by
        rw [Db.version, ← same]
        exact hnew
      obtain ⟨hsame, hall⟩ := ih kept.2.2
        (Clocked.older (show Clocked first ([commit] ++ (mid ++ older)) from clocked)) hmid
      refine ⟨same.trans hsame, fun later commit' earlier hsplit => ?_⟩
      rcases List.cons_eq_append_iff.mp hsplit with ⟨rfl, hcons⟩ | ⟨later', rfl, hrest⟩
      · obtain ⟨rfl, rfl⟩ := List.cons.inj hcons
        exact same
      · exact hall later' commit' earlier hrest

end Overlap

/-! ### Versions along a run -/

section Stamps

variable {env : Env} {s s' : Session}

/-- A product after a transaction was there before, or has a version that the clock has shown
meanwhile. -/
theorem Work.stamped {work : Work} {u : Unit} (h : Returns work.body env s u s') :
  ∀ row ∈ s'.db.products, row ∈ s.db.products
    ∨ ∃ t < s'.ticks, row.updatedAt = env.clock t
  := by
  have same : s'.db.products = s.db.products → ∀ row ∈ s'.db.products, row ∈ s.db.products
      ∨ ∃ t < s'.ticks, row.updatedAt = env.clock t :=
    fun hdb row hrow => Or.inl (hdb ▸ hrow)
  by_cases hon : work.OnProducts
  · have effect := (Work.effect h).1
    cases effect with
    | createProduct =>
        obtain ⟨_, h⟩ := Tx.returns_run'.mp h
        obtain ⟨_, _, _, _, rfl⟩ := ProductTx.returns_create.mp h
        intro row hrow
        rcases Table.mem_put.mp hrow with rfl | ⟨hrow, _⟩
        · exact Or.inr ⟨s.ticks, Nat.lt_succ_self _, rfl⟩
        · exact Or.inl hrow
    | updateProduct =>
        obtain ⟨_, h⟩ := Tx.returns_run'.mp h
        obtain ⟨_, _, _, _, ⟨_, _, rfl⟩ | ⟨_, _, _, rfl⟩⟩ := ProductTx.returns_update.mp h
        · exact same rfl
        · intro row hrow
          rcases Table.mem_put.mp hrow with rfl | ⟨hrow, _⟩
          · exact Or.inr ⟨s.ticks, Nat.lt_succ_self _, rfl⟩
          · exact Or.inl hrow
    | deleteProduct _ _ _ _ db =>
        intro row hrow
        rw [db] at hrow
        exact Or.inl (Table.mem_erase.mp hrow).1
    | deleteBatch _ db =>
        intro row hrow
        rw [db] at hrow
        exact Or.inl (Table.mem_filter.mp hrow).1
    | purgeNothing _ hsame => exact same (by rw [hsame])
    | purgeRows _ _ _ _ db => exact same (by rw [db]; rfl)
    | attachImage _ _ _ _ _ _ _ _ db => exact same (by rw [db])
    | removeImage _ _ _ _ _ _ db => exact same (by rw [db])
    | reorderImages _ _ _ _ _ _ db => exact same (by rw [db])
    | _ => exact hon.elim
  · exact same ((Work.effect h).1.same_products hon).1

/-- In every reachable session the versions of products are times that the clock has shown. -/
theorem Reachable.stamped {ok : Work → Prop} (h : Reachable env ok s) :
  ∀ row ∈ s.db.products, ∃ t < s.ticks, row.updatedAt = env.clock t
  := by
  induction h with
  | refl => exact fun _ hrow => absurd hrow (Table.not_mem_empty _)
  | commit _ _ returns _ ih =>
      intro row hrow
      rcases Work.stamped returns row hrow with hrow | hstamp
      · obtain ⟨t, hlt, htime⟩ := ih row hrow
        exact ⟨t, lt_of_lt_of_le hlt (Work.effect returns).2.ticks, htime⟩
      · exact hstamp
  | wait _ later same _ ih =>
      intro row hrow
      obtain ⟨t, hlt, htime⟩ := ih row (same ▸ hrow)
      exact ⟨t, lt_of_lt_of_le hlt later.ticks, htime⟩

end Stamps

/-! ### All updates -/

/-- No update of the product is lost among some commits. -/
structure UpdatesKept (init : Db) (commits : List (Commit Db RowId Edit)) (p : String) : Prop where
  /-- An update that was sent with a version and has changed a field found that version, and
  nothing was changed since that version was stored. -/
  current : ∀ newer commit older v, commits = newer ++ commit :: older →
    commit.work.productId = p → commit.work.ifMatch = some v →
    (current init older).FieldsDiffer commit.state p →
      (current init older).version p = some v
      ∧ ∀ mid first, older = mid ++ first → (Optimistic.current init first).version p = some v →
        ∀ later other earlier, mid = later ++ other :: earlier →
          ¬ (Optimistic.current init (earlier ++ first)).FieldsDiffer other.state p
  /-- Of the updates that were sent with a version one has changed a field, or none. -/
  once : ∀ newer commit mid commit' older v, commits = newer ++ commit :: (mid ++ commit' :: older) →
    commit.work.productId = p → commit.work.ifMatch = some v →
    commit'.work.productId = p → commit'.work.ifMatch = some v →
      ¬ ((Optimistic.current init (mid ++ commit' :: older)).FieldsDiffer commit.state p
        ∧ (Optimistic.current init older).FieldsDiffer commit'.state p)
  /-- The version moves when a field changes, and only then. -/
  moves : ∀ newer commit older, commits = newer ++ commit :: older →
    ((Optimistic.current init older).FieldsDiffer commit.state p
      ↔ commit.state.version p ≠ (Optimistic.current init older).version p)

/-- However updates of products overlap, none is lost, if the clock shows no time twice; and an
update that is refused for its version changes nothing. -/
theorem no_lost_updates {env : Env} (clock : Function.Injective env.clock) {ok : Work → Prop}
    {s : Session} (reachable : Reachable env ok s) {commits : List (Commit Db RowId Edit)}
    (history : History (edits env) s.db commits) (clocked : Clocked s.ticks commits) :
  (∀ p, UpdatesKept s.db commits p)
    ∧ ∀ s₁ s₂ workspaceId productId changes ifMatch message,
        Raises (ProductTx.update workspaceId productId changes ifMatch) env s₁
          (.domain (.preconditionFailed message)) s₂ → s₂.db = s₁.db
  := by
  have kept := history_commits history
  have start : ∀ p v, s.db.version p = some v → ∃ t < s.ticks, v = env.clock t := by
    intro p v hv
    obtain ⟨row, hrow, rfl⟩ := Option.map_eq_some_iff.mp hv
    exact reachable.stamped row (Table.get_eq_some_iff.mp hrow).1
  refine ⟨fun p => ?_, fun _ _ _ _ _ _ _ h => raises_update h⟩
  -- A commit that has changed a field has stored its own time, which was not a version before.
  have moved : ∀ {newer : List (Commit Db RowId Edit)} {commit older},
      commits = newer ++ commit :: older →
      (current s.db older).FieldsDiffer commit.state p →
        commit.state.version p = some (env.clock commit.work.tick)
        ∧ (current s.db older).version p ≠ some (env.clock commit.work.tick) := by
    intro newer commit older hsplit hdiffer
    have kept' : Kept (fun _ => True) (Commits env) s.db (commit :: older) :=
      Kept.older (hsplit ▸ kept)
    have clocked' : Clocked s.ticks (commit :: older) := Clocked.older (hsplit ▸ clocked)
    have edited := kept'.2.1.edited
    obtain rfl : p = commit.work.productId := by
      by_contra hp
      exact hdiffer (by rw [edited.others p hp])
    rcases edited.changed with hsame | ⟨_, row', _, hrow', _, htime⟩
    · exact absurd (by rw [hsame]) hdiffer
    · refine ⟨by rw [Db.version, hrow', Option.map_some, htime], fun hversion => ?_⟩
      obtain ⟨t, hclock, ht⟩ := stamped_current kept'.2.2 start hversion
      obtain rfl := clock hclock
      rcases ht with hlt | hmem
      · exact absurd (clocked'.later commit List.mem_cons_self) (not_le.mpr hlt)
      · exact (List.nodup_cons.mp clocked'.distinct).1 hmem
  have matched : ∀ {newer : List (Commit Db RowId Edit)} {commit older v},
      commits = newer ++ commit :: older → commit.work.productId = p →
      commit.work.ifMatch = some v → (current s.db older).version p = some v := by
    intro newer commit older v hsplit hp hv
    have kept' : Kept (fun _ => True) (Commits env) s.db (commit :: older) :=
      Kept.older (hsplit ▸ kept)
    exact hp ▸ kept'.2.1.edited.matched v hv
  have unchanged : ∀ {newer : List (Commit Db RowId Edit)} {mid older v},
      commits = newer ++ (mid ++ older) → (current s.db older).version p = some v →
      (current s.db (mid ++ older)).version p = some v →
        ∀ later commit earlier, mid = later ++ commit :: earlier →
          commit.state.products.get p = (current s.db (earlier ++ older)).products.get p := by
    intro newer mid older v hsplit hold hnew
    exact (unchanged_of_version clock start (Kept.older (hsplit ▸ kept))
      (Clocked.older (hsplit ▸ clocked)) hold hnew).2
  constructor
  · rintro newer commit older v hsplit hp hv -
    have hversion := matched hsplit hp hv
    refine ⟨hversion, ?_⟩
    rintro mid first rfl hfirst later other earlier hmid hdiffer
    have hsplit' : commits = (newer ++ [commit]) ++ (mid ++ first) := by
      rw [hsplit, List.append_assoc, List.singleton_append]
    exact hdiffer (by rw [unchanged hsplit' hfirst hversion later other earlier hmid])
  · rintro newer commit mid commit' older v hsplit hp hv hp' hv' ⟨-, hdiffer⟩
    have hsplit' : commits = (newer ++ commit :: mid) ++ commit' :: older := by
      rw [hsplit, List.append_assoc, List.cons_append]
    have hversion := matched hsplit hp hv
    have hversion' := matched hsplit' hp' hv'
    have hsplit'' : commits = (newer ++ [commit]) ++ ((mid ++ [commit']) ++ older) := by
      rw [hsplit]
      simp
    have hnew : (current s.db ((mid ++ [commit']) ++ older)).version p = some v := by
      rw [List.append_assoc, List.singleton_append]
      exact hversion
    exact hdiffer (by rw [unchanged hsplit'' hversion' hnew mid commit' [] rfl, List.nil_append])
  · intro newer commit older hsplit
    constructor
    · intro hdiffer hversion
      obtain ⟨hnew, hold⟩ := moved hsplit hdiffer
      exact hold (hversion ▸ hnew)
    · intro hversion hsame
      have kept' : Kept (fun _ => True) (Commits env) s.db (commit :: older) :=
        Kept.older (hsplit ▸ kept)
      have edited := kept'.2.1.edited
      by_cases hp : p = commit.work.productId
      · subst hp
        rcases edited.changed with hrow | ⟨row, row', hrow, hrow', hfields, _⟩
        · exact hversion (by rw [Db.version, hrow]; rfl)
        · rw [hrow, hrow'] at hsame
          exact hfields (Option.some.inj hsame)
      · exact hversion (by rw [Db.version, edited.others p hp]; rfl)

/-- Two updates overlap, each sent with the version of its product, and both prices change. -/
theorem no_lost_updates_of_update :
  ∃ (s : Session) (first second : Edit) (commits : List (Commit Db RowId Edit)),
    Reachable .sample (fun _ => True) s ∧ History (edits .sample) s.db commits
    ∧ commits.map Commit.work = [second, first]
    ∧ ∀ edit ∈ [second, first], edit.ifMatch = s.db.version edit.productId ∧ edit.ifMatch ≠ none
        ∧ s.db.FieldsDiffer (current s.db commits) edit.productId
        ∧ UpdatesKept s.db commits edit.productId
  := by
  let changes : ProductChanges := ⟨none, none, some 250, none, none⟩
  let x₁ := ProductTx.update "i" "iiiiii" changes (some 3)
  let x₂ := ProductTx.update "i" "iiiiiii" changes (some 4)
  obtain ⟨s, s₁, s₂, reachable, versions, updates₁, updates₂, apart, unique₁, unique₂, differ⟩ :
      ∃ s s₁ s₂ : Session, Reachable .sample (fun _ => True) s
        ∧ (s.db.version "iiiiii" = some 3 ∧ s.db.version "iiiiiii" = some 4)
        ∧ Returns x₁.run' .sample s () s₁
        ∧ Returns x₂.run' .sample { s with ticks := s.ticks + 1 } () s₂
        ∧ Disjoint (s.db.changed s₂.db ∪ { row | row ∈ s₂.touched })
          (s.db.changed s₁.db ∪ { row | row ∈ s₁.touched })
        ∧ s₁.db.Unique ∧ (Db.merge s.db s₂.db s₁.db).Unique
        ∧ s.db.FieldsDiffer (Db.merge s.db s₂.db s₁.db) "iiiiii"
        ∧ s.db.FieldsDiffer (Db.merge s.db s₂.db s₁.db) "iiiiiii" := by
    refine ⟨.after .sample [.register "ada" "ada@acme.test" "Ada" none,
      .create "Acme" "acme" "ada", .createProduct ⟨2, 100⟩ "i" "Pen" none 100 .active none,
      .createProduct ⟨2, 100⟩ "i" "Pad" none 100 .active none], _, _, .after fun _ _ => trivial, ?_,
      Returns.of_run ?_, Returns.of_run ?_, Db.footprints_disjoint ?_, ?_, ?_, ?_, ?_⟩
    · decide +kernel
    · decide +kernel
    · decide +kernel
    · decide +kernel
    · decide +kernel
    · decide +kernel
    · rw [Db.FieldsDiffer]
      decide +kernel
    · rw [Db.FieldsDiffer]
      decide +kernel
  obtain ⟨product₁, returns₁⟩ := Tx.returns_run'.mp updates₁
  obtain ⟨product₂, returns₂⟩ := Tx.returns_run'.mp updates₂
  let first : Edit := ⟨"i", "iiiiii", changes, some 3, s.ticks⟩
  let second : Edit := ⟨"i", "iiiiiii", changes, some 4, s.ticks + 1⟩
  have clean := Reachable.touched reachable
  have runs₁ : (edits .sample).Runs first s.db _ _ :=
    ⟨s, _, product₁, rfl, clean, rfl, returns₁, rfl, rfl⟩
  have runs₂ : (edits .sample).Runs second s.db _ _ :=
    ⟨{ s with ticks := s.ticks + 1 }, _, product₂, rfl, clean, rfl, returns₂, rfl, rfl⟩
  have history : History (edits .sample) s.db [⟨second, _, _⟩, ⟨first, _, _⟩] :=
    .both Db.merge_base .start rfl runs₁ runs₂ apart unique₁ unique₂
  have kept := (no_lost_updates (fun i j h => Int.ofNat.inj h) reachable history
    ⟨by simp [first, second], by simp [first, second]⟩).1
  refine ⟨s, first, second, _, reachable, history, rfl, ?_⟩
  intro edit hedit
  rcases List.mem_pair.mp hedit with rfl | rfl
  · exact ⟨versions.2.symm, Option.some_ne_none _, differ.2, kept "iiiiiii"⟩
  · exact ⟨versions.1.symm, Option.some_ne_none _, differ.1, kept "iiiiii"⟩

end MvpApi
