import MvpApi.Database.Products
import MvpApi.Library.Base64
import MvpApi.Library.Json
import MvpApi.Library.Calendar

/-!
# Cursors

A cursor is the last row's sort value and id, opaque to clients: the two are written as a
list of texts in JSON, and that in base 64 without the padding. A client may send anything, and
`decodeCursor` refuses what it cannot read; a cursor that was given out is read back.
-/

set_option autoImplicit false

namespace MvpApi

/-- What the platform makes of cursors that were not given out. -/
structure Conversions where
  /-- The text of a JSON value that is no text. -/
  str : Json → String
  /-- The decimal number of a JSON value that is no text. -/
  decimal : Json → Option Decimal
  /-- The characters of bytes that are not all of ASCII. -/
  decodeBytes : List UInt8 → Option (List Char)
  /-- What stands for a half of a character when it is alone. -/
  half : ℕ → Char
  /-- The digit of ASCII for a digit of another script; other characters stay. -/
  digit : Char → Char

/-- Conversions to try cursors with. -/
def Conversions.sample : Conversions where
  str _ := ""
  decimal _ := none
  decodeBytes _ := none
  half _ := Char.ofNat 0xfffd
  digit c := c

/-! ### Writing -/

def SortValue.str : SortValue → List Char
  | .time t => Calendar.isoformat t
  | .number d => d.str
  | .text s => s.toList

/-- The bytes of characters of ASCII. -/
def asciiBytes (cs : List Char) : List UInt8 := cs.map fun c => UInt8.ofNat c.toNat

/-- The cursor of two texts. -/
def cursorOf (text : List Char) (rowId : String) : String :=
  let raw := Json.dumps [text, rowId.toList]
  String.ofList ((Base64.encode (asciiBytes raw)).reverse.dropWhile (· = '=')).reverse

def encodeCursor (value : SortValue) (rowId : String) : String := cursorOf value.str rowId

/-! ### Reading -/

/-- The characters of some bytes. -/
def Conversions.chars (python : Conversions) (bytes : List UInt8) : Option (List Char) :=
  if bytes.all fun b => 0 < b.toNat && b.toNat < 128 then
    some (bytes.map fun b => Char.ofNat b.toNat)
  else python.decodeBytes bytes

/-- The two parts of a value that has two of them: the items of a list, the characters of a
text, or the keys of an object. -/
def unpack : Json → Option (Json × Json)
  | .array [a, b] => some (a, b)
  | .text [a, b] => some (.text [a], .text [b])
  | .object fields =>
      match (fields.map Prod.fst).eraseDups with
      | [a, b] => some (.text a, .text b)
      | _ => none
  | _ => none

/-- The text of a JSON value. -/
def Conversions.text (python : Conversions) : Json → String
  | .text s => String.ofList s
  | value => python.str value

/-- A character of a numeral. -/
def Conversions.ascii (python : Conversions) (c : Char) : Char :=
  if c.toNat < 128 then c else python.digit c

/-- The decimal number that a JSON value stands for; in a text, blanks at the ends and
underscores do not count. -/
def Conversions.number (python : Conversions) : Json → Option Decimal
  | .text s =>
      Decimal.parse (((strip (String.ofList s)).toList.filter (· ≠ '_')).map python.ascii)
  | value => python.decimal value

/-- The point in time that a JSON value stands for. -/
def readTime : Json → Option Time
  | .text s => Calendar.fromisoformat s
  | _ => none

/-- The value of a column that a JSON value stands for. -/
def Conversions.parse (python : Conversions) (field : String) (value : Json) : Option SortValue :=
  if field = "created_at" then (readTime value).map .time
  else if field = "price" then (python.number value).map .number
  else some (.text (python.text value))

/-- The JSON value that a cursor denotes. -/
def Conversions.json (python : Conversions) (cursor : String) : Option Json := do
  let bytes ← Base64.decode (cursor.toList ++ Base64.padding cursor.toList.length)
  let raw ← python.chars bytes
  Json.loads python.half raw

def decodeCursor (python : Conversions) (cursor field : String) :
    Except DomainError (SortValue × String) :=
  let decoded : Option (SortValue × String) := do
    let (value, rowId) ← (python.json cursor).bind unpack
    let parsed ← python.parse field value
    return (parsed, python.text rowId)
  match decoded with
  | some boundary => .ok boundary
  | none => .error (.invalid "Invalid cursor")

/-- The cursors of the program. -/
def cursors (python : Conversions) : CursorCodec where
  encode := encodeCursor
  decode := decodeCursor python

/-! ### Reading what was written -/

variable (python : Conversions)

/-- The cursor of two texts denotes the list of them. -/
theorem json_cursorOf (text : List Char) (rowId : String) :
  python.json (cursorOf text rowId) = some (.array [.text text, .text rowId.toList])
  := by
  have hprintable := Json.isPrintable_dumps [text, rowId.toList]
  have hbytes : ∀ c ∈ Json.dumps [text, rowId.toList],
      (UInt8.ofNat c.toNat).toNat = c.toNat := by
    intro c hc
    have hlt : c.toNat < 2 ^ 8 := lt_of_le_of_lt (hprintable c hc).2 (by decide)
    exact UInt8.toNat_ofNat_of_lt' hlt
  have hchars : python.chars (asciiBytes (Json.dumps [text, rowId.toList]))
      = some (Json.dumps [text, rowId.toList]) := by
    rw [Conversions.chars, if_pos]
    · congr 1
      rw [asciiBytes, List.map_map]
      refine (List.map_congr_left fun c hc => ?_).trans (List.map_id _)
      show Char.ofNat (UInt8.ofNat c.toNat).toNat = c
      rw [hbytes c hc, Char.ofNat_toNat]
    · rw [List.all_eq_true]
      intro b hb
      obtain ⟨c, hc, rfl⟩ := List.mem_map.mp hb
      have hbounds := hprintable c hc
      rw [hbytes c hc, Bool.and_eq_true, decide_eq_true_eq, decide_eq_true_eq]
      exact ⟨lt_of_lt_of_le (by decide) hbounds.1, lt_of_le_of_lt hbounds.2 (by decide)⟩
  rw [Conversions.json, cursorOf, Base64.strip_encode, String.toList_ofList, ← Base64.encode,
    Base64.decode_encode]
  simp only [Option.bind_eq_bind, Option.bind_some, hchars, Json.loads_dumps, List.map_cons,
    List.map_nil]

/-- The cursor of two texts is read as the value of the one, and the other. -/
theorem decodeCursor_cursorOf (text : List Char) (rowId field : String) :
  decodeCursor python (cursorOf text rowId) field
    = match python.parse field (.text text) with
      | some parsed => .ok (parsed, rowId)
      | none => .error (.invalid "Invalid cursor")
  := by
  rw [decodeCursor, json_cursorOf]
  simp only [Option.bind_eq_bind, Option.bind_some, unpack, Conversions.text,
    String.ofList_toList]
  cases python.parse field (.text text) with
  | _ => rfl

/-- A cursor that is given out is not empty. -/
theorem encodeCursor_ne_empty (value : SortValue) (rowId : String) :
  encodeCursor value rowId ≠ ""
  := by
  rw [encodeCursor, cursorOf, Base64.strip_encode, ne_eq, String.ofList_eq_empty_iff]
  exact Base64.body_ne_nil (List.cons_ne_nil _ _)

/-- Stripping leaves a text without blanks as it is. -/
theorem strip_eq_self {s : List Char} (h : ∀ c ∈ s, isSpace c = false) :
  strip (String.ofList s) = String.ofList s
  := by
  have hdrop : ∀ {l : List Char}, (∀ c ∈ l, isSpace c = false) → l.dropWhile isSpace = l := by
    intro l hl
    cases l with
    | nil => rfl
    | cons c l => rw [List.dropWhile_cons_of_neg (by simp [hl c List.mem_cons_self])]
  rw [strip, String.toList_ofList, hdrop h, hdrop fun c hc => h c (List.mem_reverse.mp hc),
    List.reverse_reverse]

/-- The price of a row is read back. -/
theorem number_price (price : Price) :
  python.number (.text (Decimal.str (.finite (price / 100)))) = some (.finite (price / 100))
  := by
  have hdigit : ∀ c, (Numeral.value c).isSome → isSpace c = false ∧ c ≠ '_' ∧ c.toNat < 128 := by
    intro c hc
    obtain ⟨hlow, hhigh⟩ := Numeral.toNat_of_isSome hc
    refine ⟨?_, ?_, by omega⟩
    · simp only [isSpace, Bool.or_eq_false_iff, Bool.and_eq_false_iff, decide_eq_false_iff_not,
        beq_eq_false_iff_ne]
      omega
    · rintro rfl
      exact absurd hhigh (by decide)
  have hplain : ∀ c ∈ Decimal.showHundredths price,
      isSpace c = false ∧ c ≠ '_' ∧ c.toNat < 128 := by
    intro c hc
    rcases Decimal.mem_showHundredths hc with hc | rfl | rfl
    · exact hdigit c hc
    · decide
    · decide
  have hfilter : (Decimal.showHundredths price).filter (· ≠ '_')
      = Decimal.showHundredths price := by
    rw [List.filter_eq_self]
    intro c hc
    exact decide_eq_true (hplain c hc).2.1
  have hascii : (Decimal.showHundredths price).map python.ascii = Decimal.showHundredths price :=
    (List.map_congr_left fun c hc => if_pos (hplain c hc).2.2).trans (List.map_id _)
  rw [Decimal.str_hundredths, Conversions.number, strip_eq_self fun c hc => (hplain c hc).1,
    String.toList_ofList, hfilter, hascii, Decimal.parse_showHundredths]

/-- The cursor of a row is read back. -/
theorem decodeCursor_encodeCursor {row : ProductRow} {field : String}
    (range : field = "created_at" → Calendar.InRange row.createdAt) :
  decodeCursor python (encodeCursor (row.column field) row.id) field
    = .ok (row.column field, row.id)
  := by
  have hparse : python.parse field (.text (row.column field).str) = some (row.column field) := by
    rw [ProductRow.column, Conversions.parse]
    split
    · next htime =>
        rw [SortValue.str, readTime, Calendar.fromisoformat_isoformat (range htime)]
        rfl
    · split
      · rw [SortValue.str, number_price]
        rfl
      · split
        · rw [SortValue.str, Conversions.text, String.ofList_toList]
        · rw [SortValue.str, Conversions.text, String.ofList_toList]
  rw [encodeCursor, decodeCursor_cursorOf, hparse]

end MvpApi
