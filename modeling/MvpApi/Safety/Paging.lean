import MvpApi.Database.Cursors

/-!
# Reading the products from cursor to cursor

A client reads the products of a workspace with `Products.after`, one page after another, and
passes each cursor back until there is none. The products may change between two pages. What it
reads is in the order it asked for, a product that keeps its place is read exactly once, and
when nothing changes it reads all there is in as many pages as it takes.

Each page is one of `Paging.Walk`: the boundary that a cursor stands for is the place of the
last product of the page before.
-/

set_option autoImplicit false

namespace MvpApi

open Tx Exec

/-! ### The order of the database -/

/-- The order of the database on text is total. -/
abbrev Env.Ordered (env : Env) : Prop := IsStrictTotalOrder String fun a b => env.textLt a b = true

/-- Pairs are compared by the column and then by the id. -/
theorem before_iff {env : Env} {b b' : SortValue × String} :
  before env b b' = true
    ↔ Prod.Lex (fun a a' => a.lt env a' = true) (fun a a' => env.textLt a a' = true) b b'
  := by
  obtain ⟨a, id⟩ := b
  obtain ⟨a', id'⟩ := b'
  rw [before, Prod.lex_def, Bool.or_eq_true, Bool.and_eq_true, beq_iff_eq]

section Order

variable {env : Env} [order : env.Ordered]

theorem SortValue.lt_irrefl (a : SortValue) :
  ¬ a.lt env a = true
  := by
  cases a with
  | time t => simp [SortValue.lt]
  | number d => exact d.lt_irrefl
  | text s => exact order.toIrrefl.irrefl s

theorem SortValue.lt_trans {a b c : SortValue} (hab : a.lt env b = true)
    (hbc : b.lt env c = true) :
  a.lt env c = true
  := by
  cases a with
  | time t => cases b with
    | time t' => cases c with
      | time t'' =>
          simp only [SortValue.lt, decide_eq_true_eq] at *
          exact hab.trans hbc
      | _ => rfl
    | number d => cases c with
      | time => cases hbc
      | _ => rfl
    | text s => cases c with
      | text => rfl
      | _ => cases hbc
  | number d => cases b with
    | time => cases hab
    | number d' => cases c with
      | time => cases hbc
      | number d'' => exact d.lt_trans hab hbc
      | text => rfl
    | text s => cases c with
      | text => rfl
      | _ => cases hbc
  | text s => cases b with
    | text s' => cases c with
      | text s'' => exact order.toIsTrans.trans _ _ _ hab hbc
      | _ => cases hbc
    | _ => cases hab

theorem SortValue.lt_trichotomous {a b : SortValue} (hab : ¬ a.lt env b = true)
    (hba : ¬ b.lt env a = true) :
  a = b
  := by
  cases a with
  | time t => cases b with
    | time t' =>
        simp only [SortValue.lt, decide_eq_true_eq, not_lt] at *
        rw [le_antisymm hba hab]
    | _ => exact absurd rfl hab
  | number d => cases b with
    | time => exact absurd rfl hba
    | number d' => rw [d.lt_trichotomous hab hba]
    | text => exact absurd rfl hab
  | text s => cases b with
    | text s' => rw [order.toTrichotomous.trichotomous s s' hab hba]
    | _ => exact absurd rfl hba

instance : IsStrictTotalOrder SortValue fun a b => a.lt env b = true where
  irrefl a := a.lt_irrefl
  trans _ _ _ := SortValue.lt_trans
  trichotomous _ _ := SortValue.lt_trichotomous

/-- The order a list asks for is total. -/
instance (query : ProductFilter) :
    IsStrictTotalOrder (SortValue × String) (query.Precedes env) := by
  have hbefore : IsStrictTotalOrder (SortValue × String) fun b b' => before env b b' = true := by
    simp only [before_iff]
    exact {}
  unfold ProductFilter.Precedes
  cases query.descending with
  | true =>
      exact inferInstanceAs (IsStrictTotalOrder _
        (Function.swap fun b b' => before env b b' = true))
  | false => exact hbefore

end Order

/-! ### Pages -/

/-- The boundary that a cursor stands for. -/
def CursorCodec.boundary (codec : CursorCodec) (query : ProductFilter) (cursor : Option String) :
    Except DomainError (Option (SortValue × String)) :=
  match cursor.filter (· ≠ "") with
  | some cursor => (codec.decode cursor query.orderBy).map some
  | none => .ok none

/-- The rows of a page, and the place of its last one if there are more. -/
def Db.page (db : Db) (env : Env) (workspaceId : String) (query : ProductFilter) (size : ℕ)
    (boundary : Option (SortValue × String)) : List ProductRow × Option (SortValue × String) :=
  Paging.page (query.Precedes env) (·.position query) size (db.filtered env workspaceId query)
    boundary

variable {env : Env} {codec : CursorCodec} {workspaceId : String} {query : ProductFilter}
  {size : ℕ} {cursor : Option String} {s s' : Session}

/-- One row more than the page is read, to know whether there are more. -/
theorem take_succ_eq_page {db : Db} {boundary : Option (SortValue × String)} :
  (let filtered := (db.filtered env workspaceId query).filter fun row =>
      boundary.all fun boundary =>
        if query.descending then before env (row.position query) boundary
        else before env boundary (row.position query)
    let rows := (ordered env query filtered).take (size + 1)
    if rows.length ≤ size then (rows.map db.withImages, none)
    else
      ((rows.take size).map db.withImages, (rows.take size).getLast?.map fun last =>
        codec.encode (last.column query.orderBy) last.id))
    = ((db.page env workspaceId query size boundary).1.map db.withImages,
        (db.page env workspaceId query size boundary).2.map fun b => codec.encode b.1 b.2)
  := by
  have hfilter : ((db.filtered env workspaceId query).filter fun row =>
      boundary.all fun boundary =>
        if query.descending then before env (row.position query) boundary
        else before env boundary (row.position query))
      = (db.filtered env workspaceId query).filter fun row =>
          boundary.all fun b => query.Precedes env b (row.position query) := by
    refine List.filter_congr fun row _ => ?_
    congr 1
    funext b
    exact Bool.eq_iff_iff.mpr decide_eq_true_iff.symm
  simp only [hfilter, Db.page, Paging.page, ordered]
  generalize Paging.sorted (query.Precedes env) (fun row : ProductRow => row.position query) _ = rows
  simp only [List.length_take, List.take_take, Nat.min_eq_left (Nat.le_succ size)]
  by_cases hfew : rows.length ≤ size
  · have hmin : min (size + 1) rows.length ≤ size := (Nat.min_le_right _ _).trans hfew
    rw [if_pos hmin, if_pos hfew, List.take_of_length_le (hfew.trans (Nat.le_succ size))]
    rfl
  · have hmin : ¬ min (size + 1) rows.length ≤ size := by omega
    rw [if_neg hmin, if_neg hfew, Option.map_map]
    rfl

/-- Reading from a cursor on reads the page after the boundary. -/
theorem Products.returns_after {answer : List Product × Option String} :
  Returns (Products.after codec workspaceId query cursor size) env s answer s'
    ↔ ∃ boundary, codec.boundary query cursor = .ok boundary
      ∧ ((s.db.page env workspaceId query size boundary).1.map s.db.withImages,
          (s.db.page env workspaceId query size boundary).2.map fun b => codec.encode b.1 b.2)
        = answer
      ∧ s = s'
  := by
  unfold Products.after
  rw [CursorCodec.boundary]
  cases cursor.filter (· ≠ "") with
  | none =>
      simp only [returns_bind, returns_platform, returns_pure, returns_select, take_succ_eq_page]
      constructor
      · rintro ⟨_, _, ⟨rfl, rfl⟩, _, _, ⟨rfl, rfl⟩, rfl, rfl⟩
        exact ⟨none, rfl, rfl, rfl⟩
      · rintro ⟨_, ⟨⟩, rfl, rfl⟩
        exact ⟨_, _, ⟨rfl, rfl⟩, _, _, ⟨rfl, rfl⟩, rfl, rfl⟩
  | some cursor =>
      simp only [returns_bind, returns_platform, returns_check, returns_pure, returns_select,
        take_succ_eq_page]
      constructor
      · rintro ⟨_, _, ⟨rfl, rfl⟩, b, _, ⟨hb, rfl⟩, _, _, ⟨rfl, rfl⟩, rfl, rfl⟩
        exact ⟨some b, by rw [hb]; rfl, rfl, rfl⟩
      · rintro ⟨boundary, hboundary, rfl, rfl⟩
        cases hb : codec.decode cursor query.orderBy with
        | error e =>
            rw [hb] at hboundary
            cases hboundary
        | ok b =>
            rw [hb] at hboundary
            cases hboundary
            exact ⟨_, _, ⟨rfl, rfl⟩, _, _, ⟨rfl, rfl⟩, _, _, ⟨rfl, rfl⟩, rfl, rfl⟩

/-- The places of the products of a list are different. -/
theorem Db.nodup_positions (db : Db) (env : Env) (workspaceId : String) (query : ProductFilter) :
  ((db.filtered env workspaceId query).map (·.position query)).Nodup
  := by
  refine List.Nodup.of_map Prod.snd ?_
  rw [List.map_map]
  refine List.pairwise_map.mpr ?_
  exact (db.products.sorted_rows.sublist List.filter_sublist).imp fun hlt => ne_of_lt hlt

/-- What is read from a cursor on is a page. -/
theorem Db.isPage_page [env.Ordered] (hsize : 1 ≤ size) (db : Db)
    (boundary : Option (SortValue × String)) :
  Paging.IsPage (query.Precedes env) (·.position query) size (db.filtered env workspaceId query)
    boundary (db.page env workspaceId query size boundary).1
    (db.page env workspaceId query size boundary).2
  := Paging.isPage_page hsize (db.nodup_positions env workspaceId query) boundary

/-- A cursor that was given out stands for the place of the last product of its page. -/
theorem boundary_of_next [env.Ordered] (python : Conversions) (hsize : 1 ≤ size) {db : Db}
    (range : ∀ row ∈ db.products, Calendar.InRange row.createdAt)
    {boundary : Option (SortValue × String)} {b : SortValue × String}
    (h : (db.page env workspaceId query size boundary).2 = some b) :
  (cursors python).boundary query (some (encodeCursor b.1 b.2)) = .ok (some b)
  := by
  have page := @Db.isPage_page env workspaceId query size _ hsize db boundary
  obtain ⟨_, hlast, _⟩ := page.more b h
  obtain ⟨row, hrow, rfl⟩ := Option.mem_map.mp hlast
  have hmem : row ∈ db.products :=
    Table.mem_rows.mp (List.mem_filter.mp (page.mem row (List.mem_of_getLast? hrow)).1).1
  have hdecode : decodeCursor python (encodeCursor (row.column query.orderBy) row.id) query.orderBy
      = .ok (row.column query.orderBy, row.id) :=
    decodeCursor_encodeCursor python fun _ => range row hmem
  have hsome : (some (encodeCursor (row.column query.orderBy) row.id)).filter (· ≠ "")
      = some (encodeCursor (row.column query.orderBy) row.id) :=
    (Option.filter_some).trans (if_pos (decide_eq_true (encodeCursor_ne_empty _ _)))
  rw [CursorCodec.boundary, ProductRow.position, hsome]
  have hcodec : (cursors python).decode = decodeCursor python := rfl
  dsimp only
  rw [hcodec, hdecode, Except.map]

/-! ### Reading from page to page -/

/-- Reading page by page from a cursor: the rows at each call and the products of its page, and
the cursor that was given out last. -/
inductive Reading (env : Env) (codec : CursorCodec) (workspaceId : String) (query : ProductFilter)
    (size : ℕ) : Option String → List (Db × List Product) → Option String → Prop
  | call {cursor next : Option String} {s s' : Session} {products : List Product}
      (answer : Returns (Products.after codec workspaceId query cursor size) env s
        (products, next) s') :
      Reading env codec workspaceId query size cursor [(s.db, products)] next
  | turn {cursor final : Option String} {next : String} {s s' : Session}
      {products : List Product} {calls : List (Db × List Product)}
      (answer : Returns (Products.after codec workspaceId query cursor size) env s
        (products, some next) s')
      (rest : Reading env codec workspaceId query size (some next) calls final) :
      Reading env codec workspaceId query size cursor ((s.db, products) :: calls) final

/-- The list that a call reads from, and the rows of its page. -/
def pageOf (env : Env) (workspaceId : String) (query : ProductFilter) (call : Db × List Product) :
    List ProductRow × List ProductRow :=
  (call.1.filtered env workspaceId query, call.2.map Product.toProductRow)

/-- An answer is the page after the boundary that its cursor stands for, and the next cursor. -/
theorem page_of_answer {s s' : Session} {products : List Product} {next : Option String}
    (answer : Returns (Products.after codec workspaceId query cursor size) env s
      (products, next) s') {boundary : Option (SortValue × String)}
    (hboundary : codec.boundary query cursor = .ok boundary) :
  products.map Product.toProductRow = (s.db.page env workspaceId query size boundary).1
    ∧ ((s.db.page env workspaceId query size boundary).2.map fun b => codec.encode b.1 b.2) = next
  := by
  obtain ⟨_, hb, heq, _⟩ := Products.returns_after.mp answer
  obtain rfl := Except.ok.inj (hboundary.symm.trans hb)
  obtain ⟨hproducts, hnext⟩ := Prod.mk.inj heq
  refine ⟨?_, hnext⟩
  rw [← hproducts, List.map_map]
  exact List.map_id _

/-- Reading page by page is a walk. -/
theorem Reading.walk [env.Ordered] {python : Conversions} (hsize : 1 ≤ size)
    {calls : List (Db × List Product)} {final : Option String}
    (reading : Reading env (cursors python) workspaceId query size cursor calls final)
    (range : ∀ call ∈ calls, ∀ row ∈ call.1.products, Calendar.InRange row.createdAt)
    {boundary : Option (SortValue × String)}
    (hboundary : (cursors python).boundary query cursor = .ok boundary) :
  ∃ last, Paging.Walk (query.Precedes env) (·.position query) size boundary
      (calls.map (pageOf env workspaceId query)) last
    ∧ final = last.map (fun b => encodeCursor b.1 b.2)
    ∧ ∀ b, last = some b →
      (cursors python).boundary query (some (encodeCursor b.1 b.2)) = .ok (some b)
  := by
  induction reading generalizing boundary with
  | @call cursor next s _ products answer =>
      obtain ⟨hrows, hnext⟩ := page_of_answer answer hboundary
      refine ⟨(s.db.page env workspaceId query size boundary).2, ?_, hnext.symm, fun b h => ?_⟩
      · refine .page ?_
        rw [hrows]
        exact s.db.isPage_page hsize boundary
      · exact boundary_of_next python hsize (range _ List.mem_cons_self) h
  | @turn cursor final next s _ products calls answer rest ih =>
      obtain ⟨hrows, hnext⟩ := page_of_answer answer hboundary
      obtain ⟨b, hsome, hencode⟩ := Option.map_eq_some_iff.mp hnext
      have hboundary' := boundary_of_next python hsize (range _ List.mem_cons_self) hsome
      have hcursor : encodeCursor b.1 b.2 = next := hencode
      rw [hcursor] at hboundary'
      obtain ⟨last, walk, hfinal, hlast⟩ :=
        ih (fun call hc => range call (List.mem_cons_of_mem _ hc)) hboundary'
      refine ⟨last, ?_, hfinal, hlast⟩
      refine Paging.Walk.turn ?_ walk
      rw [hrows, ← hsome]
      exact s.db.isPage_page hsize boundary

/-- A product that is read is one of the list that it was read from. -/
theorem mem_filtered_of_walk [env.Ordered] {calls : List (Db × List Product)}
    {last : Option (SortValue × String)}
    (walk : Paging.Walk (query.Precedes env) (·.position query) size none
      (calls.map (pageOf env workspaceId query)) last)
    {call : Db × List Product} (hcall : call ∈ calls) {product : Product} (h : product ∈ call.2) :
  product.toProductRow ∈ call.1.filtered env workspaceId query
  := walk.mem_page _ (List.mem_map_of_mem hcall) _ (List.mem_map_of_mem h)

/-- The rows of the products that are read are those of the pages of the walk. -/
theorem flatMap_pageOf (calls : List (Db × List Product)) :
  (calls.map (pageOf env workspaceId query)).flatMap Prod.snd
    = (calls.flatMap Prod.snd).map Product.toProductRow
  := by
  rw [List.flatMap_map, List.map_flatMap]
  rfl

/-- Whatever happens to the products between the calls, what is read is in order, and reading
can go on from each cursor that was given out. When reading has come to its end, each product
that was asked for with the same value at each call has been read exactly once. If the products
do not change, each page but the last is full, there are not more pages than it takes, and at
the end all has been read in order. -/
theorem cursors_read_once [env.Ordered] {python : Conversions} (hsize : 1 ≤ size)
    {calls : List (Db × List Product)} {final : Option String}
    (reading : Reading env (cursors python) workspaceId query size none calls final)
    (range : ∀ call ∈ calls, ∀ row ∈ call.1.products, Calendar.InRange row.createdAt) :
  (calls.flatMap Prod.snd).Pairwise (fun product product' =>
      query.Precedes env (product.position query) (product'.position query))
    ∧ (∀ next, final = some next → ∀ s, ∃ answer s',
        Returns (Products.after (cursors python) workspaceId query (some next) size) env s answer s')
    ∧ (final = none → ∀ id value,
        (∀ call ∈ calls, ∃ row ∈ call.1.filtered env workspaceId query,
          row.id = id ∧ row.column query.orderBy = value) →
        (calls.flatMap Prod.snd).countP (·.id = id) = 1)
    ∧ ∀ db : Db, (∀ call ∈ calls, call.1.products = db.products) →
        (∀ call ∈ calls.dropLast, call.2.length = size)
        ∧ calls.length ≤ Paging.pageCount size (db.filtered env workspaceId query).length
        ∧ (final = none →
          (calls.flatMap Prod.snd).map Product.toProductRow
            = ordered env query (db.filtered env workspaceId query)
          ∧ calls.length = Paging.pageCount size (db.filtered env workspaceId query).length)
  := by
  obtain ⟨last, walk, hfinal, hlast⟩ := reading.walk hsize range
    (show (cursors python).boundary query none = .ok none from rfl)
  refine ⟨?_, ?_, ?_, ?_⟩
  · have increasing := walk.increasing
    rwa [flatMap_pageOf, List.pairwise_map] at increasing
  · rintro next rfl s
    obtain ⟨b, rfl, rfl⟩ := Option.map_eq_some_iff.mp hfinal.symm
    exact ⟨_, s, Products.returns_after.mpr ⟨some b, hlast b rfl, rfl, rfl⟩⟩
  · rintro rfl id value hsame
    obtain rfl : last = none := Option.map_eq_none_iff.mp hfinal.symm
    have occupied : ∀ page ∈ calls.map (pageOf env workspaceId query), ∃ row ∈ page.1,
        row.position query = (value, id) := by
      intro page hpage
      obtain ⟨call, hcall, rfl⟩ := List.mem_map.mp hpage
      obtain ⟨row, hrow, rfl, rfl⟩ := hsame call hcall
      exact ⟨row, hrow, rfl⟩
    have once := walk.reads_once occupied fun _ h => by cases h
    rw [flatMap_pageOf, List.map_map, List.count_eq_countP, List.countP_map] at once
    rw [← once]
    refine List.countP_congr fun product hproduct => ?_
    -- The place of a product that is read is that of the product of its id at that call.
    obtain ⟨call, hcall, hmem⟩ := List.mem_flatMap.mp hproduct
    obtain ⟨row, hrow, hid, hvalue⟩ := hsame call hcall
    have hread := List.mem_filter.mp (mem_filtered_of_walk walk hcall hmem)
    rw [decide_eq_true_eq, Function.comp_apply, beq_iff_eq]
    constructor
    · intro heq
      have hrow' : product.toProductRow = row :=
        Table.eq_of_key (Table.mem_rows.mp hread.1)
          (Table.mem_rows.mp (List.mem_filter.mp hrow).1) (heq.trans hid.symm)
      show product.toProductRow.position query = _
      rw [hrow', ProductRow.position, hvalue, hid]
    · exact fun heq => (Prod.mk.inj heq).2
  · intro db static
    have static' : ∀ page ∈ calls.map (pageOf env workspaceId query),
        page.1 = db.filtered env workspaceId query := by
      intro page hpage
      obtain ⟨call, hcall, rfl⟩ := List.mem_map.mp hpage
      rw [pageOf, Db.filtered, Db.filtered, static call hcall]
    have distinct := db.nodup_positions env workspaceId query
    refine ⟨fun call hcall => ?_, ?_, ?_⟩
    · have hfull := walk.full (pageOf env workspaceId query call)
        (List.map_dropLast ▸ List.mem_map_of_mem hcall)
      rwa [pageOf, List.length_map] at hfull
    · rw [← List.length_map (f := pageOf env workspaceId query)]
      cases last with
      | none => exact (walk.length_eq hsize static' distinct).le
      | some b => exact (walk.length_lt hsize static').le
    · rintro rfl
      obtain rfl : last = none := Option.map_eq_none_iff.mp hfinal.symm
      refine ⟨?_, ?_⟩
      · rw [← flatMap_pageOf]
        exact walk.eq_sorted static' distinct
      · rw [← List.length_map (f := pageOf env workspaceId query)]
        exact walk.length_eq hsize static' distinct

/-- Products are read by name, one on each page. Between the pages the product that was read is
deleted and another one is added. -/
theorem cursors_read_once_of_two :
  ∃ calls : List (Db × List Product),
    calls.map (fun call => call.1.products.rows.map (·.id)) = [["pad", "pen"], ["ink", "pen"]]
    ∧ (calls.flatMap Prod.snd).map (·.id) = ["pad", "pen"]
    ∧ (calls.flatMap Prod.snd).countP (·.id = "pen") = 1
  := by
  let ink : ProductRow := ⟨"ink", "acme", "Ink", none, 300, .active, none, 3, 3⟩
  let pad : ProductRow := ⟨"pad", "acme", "Pad", none, 200, .active, none, 2, 2⟩
  let pen : ProductRow := ⟨"pen", "acme", "Pen", none, 100, .active, none, 1, 1⟩
  let db : Db := { Db.empty with products := (Table.empty.put pen).put pad }
  let db' : Db := { Db.empty with products := (Table.empty.put pen).put ink }
  let query : ProductFilter := ⟨none, none, "name", false⟩
  let python : Conversions := .sample
  have order : Env.sample.Ordered := by
    show IsStrictTotalOrder String fun a b => decide (a < b) = true
    simp only [decide_eq_true_eq]
    infer_instance
  have first : Returns (Products.after (cursors python) "acme" query none 1) .sample
      ⟨db, [], 0, 0, 0⟩ ([db.withImages pad], some (encodeCursor (.text "Pad") "pad"))
      ⟨db, [], 0, 0, 0⟩ :=
    Prod.ext (by decide +kernel) rfl
  have second : Returns (Products.after (cursors python) "acme" query
      (some (encodeCursor (.text "Pad") "pad")) 1) .sample ⟨db', [], 0, 0, 0⟩
      ([db'.withImages pen], none) ⟨db', [], 0, 0, 0⟩ :=
    Prod.ext (by decide +kernel) rfl
  have reading := Reading.turn first (.call second)
  have once := cursors_read_once (le_refl 1) reading (by decide +kernel)
  refine ⟨_, ?_, ?_, once.2.2.1 rfl "pen" (.text "Pen") (by decide +kernel)⟩
  · decide +kernel
  · decide +kernel

/-! ### Numbered pages -/

/-- An OFFSET that is sent is not negative, and smaller than the number of products. -/
theorem offsetSent_range {total page : ℕ} {offset : ℤ} (hpage : 1 ≤ page)
    (h : Products.offsetSent total page size = some offset) :
  0 ≤ offset ∧ offset < total
  := by
  unfold Products.offsetSent at h
  split at h
  · cases h
  · next hlt =>
      obtain rfl := Option.some.inj h
      refine ⟨mul_nonneg ?_ (Int.natCast_nonneg size), not_le.mp hlt⟩
      omega

/-- A page is what the database answers from the OFFSET on, or empty if none is sent. -/
theorem slice_eq_offsetSent {l : List Product} {page : ℕ} (hpage : 1 ≤ page) :
  Paging.slice size l page
    = match Products.offsetSent l.length page size with
      | none => []
      | some offset => (l.drop offset.toNat).take size
  := by
  have hcast : ((page : ℤ) - 1) * size = (((page - 1) * size : ℕ) : ℤ) := by
    rw [Nat.cast_mul, Nat.cast_sub hpage, Nat.cast_one]
  unfold Products.offsetSent
  rw [hcast]
  by_cases hle : l.length ≤ (page - 1) * size
  · rw [if_pos (Int.ofNat_le.mpr hle), Paging.slice_eq_nil hle]
  · rw [if_neg fun h => hle (Int.ofNat_le.mp h)]
    rfl

/-- The products of a workspace that a list asks for, in its order. -/
def Db.listed (db : Db) (env : Env) (workspaceId : String) (query : ProductFilter) :
    List Product :=
  (ordered env query (db.filtered env workspaceId query)).map db.withImages

theorem Db.length_listed {db : Db} :
  (db.listed env workspaceId query).length = (db.filtered env workspaceId query).length
  := by
  rw [Db.listed, List.length_map, ordered]
  exact (Paging.perm_sorted _).length_eq

/-- Reading a page reads a slice of the list, and the number of all products in it. -/
theorem Products.returns_page {page : ℕ} (hpage : 1 ≤ page) :
  Returns (Products.page workspaceId query page size) env s
    (Paging.slice size (s.db.listed env workspaceId query) page,
      (s.db.listed env workspaceId query).length) s
  := by
  unfold Products.page
  simp only [returns_bind, returns_platform, returns_select]
  refine ⟨_, _, ⟨rfl, rfl⟩, ?_, rfl⟩
  rw [slice_eq_offsetSent hpage, Db.length_listed]
  cases Products.offsetSent (s.db.filtered env workspaceId query).length page size with
  | none => rfl
  | some offset =>
      dsimp only
      rw [Db.listed, List.map_take, List.map_drop]

/-! ### Reading to the end -/

/-- The products that are read have the images they had at the call. -/
theorem Reading.images {codec : CursorCodec} {calls : List (Db × List Product)}
    {final : Option String}
    (reading : Reading env codec workspaceId query size cursor calls final) :
  ∀ call ∈ calls, ∀ product ∈ call.2, call.1.withImages product.toProductRow = product
  := by
  have page {cursor : Option String} {s s' : Session} {products : List Product}
      {next : Option String} (answer : Returns (Products.after codec workspaceId query cursor size)
        env s (products, next) s') :
      ∀ product ∈ products, s.db.withImages product.toProductRow = product := by
    obtain ⟨_, _, heq, _⟩ := Products.returns_after.mp answer
    intro product hproduct
    rw [← (Prod.mk.inj heq).1] at hproduct
    obtain ⟨row, _, rfl⟩ := List.mem_map.mp hproduct
    rfl
  induction reading with
  | call answer =>
      rintro _ hc
      obtain rfl := List.mem_singleton.mp hc
      exact page answer
  | turn answer rest ih =>
      intro call hc
      rcases List.mem_cons.mp hc with rfl | hc
      · exact page answer
      · exact ih call hc

/-- From every cursor that stands for a boundary the products can be read to the end, if they do
not change. -/
theorem exists_reading [env.Ordered] (python : Conversions) (hsize : 1 ≤ size)
    (range : ∀ row ∈ s.db.products, Calendar.InRange row.createdAt)
    {boundary : Option (SortValue × String)}
    (hboundary : (cursors python).boundary query cursor = .ok boundary) :
  ∃ calls, Reading env (cursors python) workspaceId query size cursor calls none
    ∧ ∀ call ∈ calls, call.1 = s.db
  := by
  -- The induction is on how many products are beyond the boundary.
  generalize hleft : ((s.db.filtered env workspaceId query).filter fun row =>
    boundary.all fun b => query.Precedes env b (row.position query)).length = left
  induction left using Nat.strong_induction_on generalizing cursor boundary with
  | h left ih =>
      have page := @Db.isPage_page env workspaceId query size _ hsize s.db boundary
      cases hnext : (s.db.page env workspaceId query size boundary).2 with
      | none =>
          have answer : Returns (Products.after (cursors python) workspaceId query cursor size) env
              s ((s.db.page env workspaceId query size boundary).1.map s.db.withImages, none) s :=
            Products.returns_after.mpr ⟨boundary, hboundary, by rw [hnext]; rfl, rfl⟩
          refine ⟨_, .call answer, ?_⟩
          rintro _ hc
          rw [List.mem_singleton.mp hc]
      | some b =>
          have answer : Returns (Products.after (cursors python) workspaceId query cursor size) env
              s ((s.db.page env workspaceId query size boundary).1.map s.db.withImages,
                some (encodeCursor b.1 b.2)) s :=
            Products.returns_after.mpr ⟨boundary, hboundary, by rw [hnext]; rfl, rfl⟩
          rw [hnext] at page
          obtain ⟨calls, reading, static⟩ := ih _ (hleft ▸ page.left_lt)
            (boundary_of_next python hsize range hnext) rfl
          refine ⟨_, .turn answer reading, ?_⟩
          intro call hc
          rcases List.mem_cons.mp hc with rfl | hc
          · rfl
          · exact static call hc

/-- The products can be read from cursor to cursor to the end, and however they are read so, what
is read is the list that the numbered pages give, of the number of products that each page
reports. A page past the last is empty, and no OFFSET is sent that is negative, or as large as
the number of products. -/
theorem pages_agree [env.Ordered] {python : Conversions} (hsize : 1 ≤ size)
    (range : ∀ row ∈ s.db.products, Calendar.InRange row.createdAt) :
  ∃ (total : ℕ) (page : ℕ → List Product),
    (∀ n, 1 ≤ n → Returns (Products.page workspaceId query n size) env s (page n, total) s)
    ∧ (∀ n, (total + size - 1) / size < n → page n = [])
    ∧ (∀ n, 1 ≤ n →
        (page n = match Products.offsetSent total n size with
          | none => []
          | some offset => ((s.db.listed env workspaceId query).drop offset.toNat).take size)
        ∧ ∀ offset, Products.offsetSent total n size = some offset → 0 ≤ offset ∧ offset < total)
    ∧ (∃ calls, Reading env (cursors python) workspaceId query size none calls none
        ∧ ∀ call ∈ calls, call.1 = s.db)
    ∧ ∀ calls, Reading env (cursors python) workspaceId query size none calls none →
        (∀ call ∈ calls, call.1 = s.db) →
        (List.range ((total + size - 1) / size)).flatMap (fun i => page (i + 1))
            = calls.flatMap Prod.snd
          ∧ total = (calls.flatMap Prod.snd).length
  := by
  refine ⟨(s.db.listed env workspaceId query).length,
    Paging.slice size (s.db.listed env workspaceId query), fun n hn => Products.returns_page hn,
    fun n hn => ?_, fun n hn => ⟨slice_eq_offsetSent hn, fun offset => offsetSent_range hn⟩,
    exists_reading python hsize range rfl, fun calls reading static => ?_⟩
  · apply Paging.slice_eq_nil
    refine (Paging.length_le_ceil hsize _).trans (Nat.mul_le_mul_right size ?_)
    exact Nat.le_sub_one_of_lt hn
  · have hrows := ((cursors_read_once hsize reading fun call hc => static call hc ▸ range).2.2.2
      s.db fun call hc => by rw [static call hc]).2.2 rfl
    have hlisted : calls.flatMap Prod.snd = s.db.listed env workspaceId query := by
      rw [Db.listed, ← hrows.1, List.map_map]
      refine (List.map_id' _).symm.trans (List.map_congr_left fun product hproduct => ?_)
      obtain ⟨call, hc, hmem⟩ := List.mem_flatMap.mp hproduct
      rw [Function.comp_apply, ← static call hc, reading.images call hc product hmem]
    rw [hlisted]
    exact ⟨Paging.flatMap_slice_ceil hsize, rfl⟩

/-- Two products, read by name on two pages, by number and by cursor. -/
theorem pages_agree_of_two :
  ∃ (s : Session) (python : Conversions) (page : ℕ → List Product)
    (calls : List (Db × List Product)),
    Returns (Products.page "acme" ⟨none, none, "name", false⟩ 2 1) .sample s (page 2, 2) s
    ∧ Reading .sample (cursors python) "acme" ⟨none, none, "name", false⟩ 1 none calls none
    ∧ page 1 ++ page 2 = calls.flatMap Prod.snd ∧ (calls.flatMap Prod.snd).length = 2
  := by
  obtain ⟨s, order, range, htotal⟩ : ∃ s : Session, Env.sample.Ordered
      ∧ (∀ row ∈ s.db.products, Calendar.InRange row.createdAt)
      ∧ ((Products.page "acme" ⟨none, none, "name", false⟩ 2 1).run .sample s).1.toOption.map
          Prod.snd = some 2 := by
    let pad : ProductRow := ⟨"pad", "acme", "Pad", none, 200, .active, none, 2, 2⟩
    let pen : ProductRow := ⟨"pen", "acme", "Pen", none, 100, .active, none, 1, 1⟩
    let db : Db := { Db.empty with products := (Table.empty.put pen).put pad }
    refine ⟨⟨db, [], 0, 0, 0⟩, ?_, ?_, ?_⟩
    · show IsStrictTotalOrder String fun a b => decide (a < b) = true
      simp only [decide_eq_true_eq]
      infer_instance
    · decide +kernel
    · decide +kernel
  let python : Conversions := .sample
  obtain ⟨total, page, hpage, _, _, ⟨calls, reading, static⟩, agree⟩ :=
    @pages_agree .sample "acme" ⟨none, none, "name", false⟩ 1 s order python (le_refl 1) range
  have h := hpage 2 (by decide)
  rw [show (Products.page "acme" ⟨none, none, "name", false⟩ 2 1).run .sample s
    = (.ok (page 2, total), s) from h] at htotal
  obtain rfl : total = 2 := Option.some.inj htotal
  obtain ⟨hall, hlength⟩ := agree calls reading static
  refine ⟨s, python, page, calls, h, reading, ?_, hlength.symm⟩
  rw [← hall]
  simp [List.range_succ]

end MvpApi
