import MvpApi.Database.Repositories
import MvpApi.Library.Numeral
import MvpApi.Library.Paging

/-!
# The repository of products

The queries and statements on products and their images, and the two ways of listing the
products of a workspace: by the number of a page, and from a cursor on. The product of an
id is read together with its images, in the order of their positions, and its row is
locked.
-/

set_option autoImplicit false

namespace MvpApi

open Tx

/-! ### Searching -/

/-- The text with each occurrence of the character `c` replaced by the text `by'`. -/
def replaceChar (c : Char) (by' : List Char) (s : List Char) : List Char :=
  s.flatMap fun d => if d = c then by' else [d]

/-- The pattern of a search: the text with the characters that have a meaning escaped,
between two signs that stand for any text. -/
def searchPattern (search : String) : List Char :=
  let escaped := replaceChar '_' ['\\', '_'] <| replaceChar '%' ['\\', '%'] <|
    replaceChar '\\' ['\\', '\\'] search.toList
  '%' :: escaped ++ ['%']

/-- Whether a text matches a pattern, by the rules of `LIKE` with the escape character `\`. -/
def like : List Char → List Char → Bool
  | [], text => text.isEmpty
  | '%' :: pattern, text => text.tails.any fun rest => like pattern rest
  | '_' :: pattern, text =>
      match text with
      | [] => false
      | _ :: rest => like pattern rest
  | '\\' :: c :: pattern, text =>
      match text with
      | [] => false
      | d :: rest => d = c && like pattern rest
  | c :: pattern, text =>
      match text with
      | [] => false
      | d :: rest => d = c && like pattern rest

/-- `ILIKE`: matching after the case of the pattern and of the text is folded. -/
def ilike (foldCase : Char → Char) (text : String) (pattern : List Char) : Bool :=
  like (pattern.map foldCase) (text.toList.map foldCase)

/-! ### Ordering -/

/-- What a list of products asks for. -/
structure ProductFilter where
  search : Option String
  status : Option ProductStatus
  orderBy : String
  descending : Bool
deriving DecidableEq, Repr

/-- A value of a column that a list can be ordered by. -/
inductive SortValue where
  | time (time : Time)
  | number (number : Decimal)
  | text (text : String)
deriving DecidableEq

/-- The kind of a value; those of one column are of one kind. -/
def SortValue.kind : SortValue → ℕ
  | .time _ => 0
  | .number _ => 1
  | .text _ => 2

/-- The order of the database on the values of a column. -/
def SortValue.lt (env : Env) : SortValue → SortValue → Bool
  | .time a, .time b => a < b
  | .number a, .number b => a.lt b
  | .text a, .text b => env.textLt a b
  | a, b => a.kind < b.kind

/-- The order of the database on pairs of a column and an id. -/
def before (env : Env) : SortValue × String → SortValue × String → Bool
  | (a, id), (a', id') => a.lt env a' || (a == a' && env.textLt id id')

def ProductStatus.value : ProductStatus → String
  | .active => "active"
  | .draft => "draft"
  | .archived => "archived"

/-- The value of the column of a product that a list is ordered by. -/
def ProductRow.column (row : ProductRow) (orderBy : String) : SortValue :=
  if orderBy = "created_at" then .time row.createdAt
  else if orderBy = "price" then .number (.finite (row.price / 100))
  else if orderBy = "status" then .text row.status.value
  else .text row.name

/-- Where a product stands in a list. -/
def ProductRow.position (row : ProductRow) (query : ProductFilter) : SortValue × String :=
  (row.column query.orderBy, row.id)

/-- The order a list asks for. -/
def ProductFilter.Precedes (query : ProductFilter) (env : Env) (b b' : SortValue × String) : Prop :=
  (if query.descending then before env b' b else before env b b') = true

instance (query : ProductFilter) (env : Env) : DecidableRel (query.Precedes env) := fun _ _ =>
  inferInstanceAs (Decidable (_ = true))

/-- The products in the order a list asks for. -/
def ordered (env : Env) (query : ProductFilter) (rows : List ProductRow) : List ProductRow :=
  Paging.sorted (query.Precedes env) (·.position query) rows

/-- Whether a product is one a list asks for. -/
def ProductFilter.accepts (query : ProductFilter) (foldCase : Char → Char) (row : ProductRow) :
    Bool :=
  query.status.all (· = row.status) &&
  (query.search.filter (· ≠ "")).all fun search =>
    ilike foldCase row.name (searchPattern search) ||
    row.sku.any fun sku => ilike foldCase sku (searchPattern search)

/-- How a cursor is written and read back. -/
structure CursorCodec where
  encode : SortValue → String → String
  decode : String → String → Except DomainError (SortValue × String)

/-! ### Queries and statements -/

/-- The images of a product, in the order of their positions. -/
def Db.imagesOf (db : Db) (productId : String) : List ProductImage :=
  orderBy ProductImage.position (db.images.rows.filter (·.productId = productId))

/-- A product row with its images. -/
def Db.withImages (db : Db) (row : ProductRow) : Product :=
  { row with images := db.imagesOf row.id }

/-- The product of an id in a workspace. -/
def Db.product (db : Db) (workspaceId productId : String) : Option Product :=
  ((db.products.get productId).filter (·.workspaceId = workspaceId)).map db.withImages

theorem Db.product_eq_some {db : Db} {workspaceId productId : String} {product : Product} :
  db.product workspaceId productId = some product
    ↔ ∃ row, db.products.get productId = some row ∧ row.workspaceId = workspaceId
      ∧ db.withImages row = product
  := by
  simp only [Db.product, Option.map_eq_some_iff, Option.filter_eq_some_iff, decide_eq_true_eq,
    and_assoc]

theorem Db.mem_imagesOf {db : Db} {productId : String} {image : ProductImage} :
  image ∈ db.imagesOf productId ↔ image ∈ db.images ∧ image.productId = productId
  := by
  rw [Db.imagesOf, mem_orderBy, List.mem_filter, Table.mem_rows, decide_eq_true_eq]

/-- The products of a workspace that a list asks for. -/
def Db.filtered (db : Db) (env : Env) (workspaceId : String) (query : ProductFilter) :
    List ProductRow :=
  db.products.rows.filter fun row => row.workspaceId = workspaceId && query.accepts env.foldCase row

namespace Products

/-- The product with its images, locked until the transaction ends. -/
def get (workspaceId productId : String) : Tx (Option Product) := do
  let product ← select fun db => db.product workspaceId productId
  touch (if product.isSome then [.product productId] else [])
  return product

def exists? (workspaceId productId : String) : Tx Bool :=
  select fun db => (db.products.get productId).any (·.workspaceId = workspaceId)

def count (workspaceId : String) : Tx ℕ :=
  select fun db => (db.products.rows.filter (·.workspaceId = workspaceId)).length

def countImages (productId : String) : Tx ℕ :=
  select fun db => (db.images.rows.filter (·.productId = productId)).length

def storageBytes (workspaceId : String) : Tx ℕ :=
  select fun db =>
    ((db.images.rows.filter (·.workspaceId = workspaceId)).map ProductImage.sizeBytes).sum

def imageByUploadKey (productId uploadKey : String) : Tx (Option ProductImage) :=
  select fun db => db.images.find? fun image =>
    image.productId = productId && image.uploadKey = some uploadKey

/-- The OFFSET that is sent to the database for a page; past the last row none is. -/
def offsetSent (total page size : ℕ) : Option ℤ :=
  if (total : ℤ) ≤ ((page : ℤ) - 1) * size then none else some (((page : ℤ) - 1) * size)

/-- The products of a page, numbered from 1, and how many there are in all. -/
def page (workspaceId : String) (query : ProductFilter) (page size : ℕ) :
    Tx (List Product × ℕ) := do
  let env ← platform
  select fun db =>
    let filtered := db.filtered env workspaceId query
    match offsetSent filtered.length page size with
    | none => ([], filtered.length)
    | some offset =>
        ((((ordered env query filtered).drop offset.toNat).take size).map db.withImages,
          filtered.length)

/-- The products from a cursor on, and the cursor to go on from if there are more. -/
def after (codec : CursorCodec) (workspaceId : String) (query : ProductFilter)
    (cursor : Option String) (size : ℕ) : Tx (List Product × Option String) := do
  let env ← platform
  let boundary ← match cursor.filter (· ≠ "") with
    | some cursor => do
        let boundary ← check (codec.decode cursor query.orderBy)
        pure (some boundary)
    | none => pure none
  select fun db =>
    let filtered := (db.filtered env workspaceId query).filter fun row =>
      boundary.all fun boundary =>
        if query.descending then before env (row.position query) boundary
        else before env boundary (row.position query)
    let rows := (ordered env query filtered).take (size + 1)
    if rows.length ≤ size then (rows.map db.withImages, none)
    else
      ((rows.take size).map db.withImages, (rows.take size).getLast?.map fun last =>
        codec.encode (last.column query.orderBy) last.id)

def add (product : Product) : Tx Unit := do
  let taken ← select fun db => (db.products.get product.id).isSome
  .ensure (taken = false) .duplicate
  write fun db => { db with products := db.products.put product.toProductRow }

/-- Write the fields of a product. -/
def save (product : Product) : Tx Unit :=
  write fun db => { db with products := db.products.put product.toProductRow }

/-- Write the images of a product, and delete those it no longer has. -/
def saveImages (product : Product) : Tx Unit :=
  write fun db => { db with
    images := product.images.foldl Table.put (db.images.filter (·.productId ≠ product.id)) }

/-- Insert a new image of a product. -/
def addImage (image : ProductImage) : Tx Unit := do
  let taken ← select fun db => (db.images.get image.id).isSome
  .ensure (taken = false) .duplicate
  write fun db => { db with images := db.images.put image }

/-- Delete a product with its images. -/
def delete (product : Product) : Tx Unit :=
  write fun db => { db with
    images := db.images.filter (·.productId ≠ product.id)
    products := db.products.erase product.id }

end Products

end MvpApi
