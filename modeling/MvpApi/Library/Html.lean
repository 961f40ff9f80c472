import Mathlib.Data.List.Basic
import Mathlib.Data.Char
import Mathlib.Tactic.Common

/-!
# HTML

A part of HTML: tags with attributes between quotes, the text between them, and the references
that the characters of markup are written as. The reader goes through a document character by
character, and gives up where it leaves this part. Whatever text is escaped, it is read back as
it was, and neither begins a tag nor ends an attribute.
-/

set_option autoImplicit false

namespace Html

/-- A tag: of an element that begins, or of one that ends. -/
structure Tag where
  closing : Bool
  name : List Char
  attributes : List (List Char × List Char)
deriving DecidableEq, Repr

/-- A document: each of its tags with the text before it, and the text after the last one. -/
structure Document where
  pieces : List (List Char × Tag)
  last : List Char
deriving DecidableEq, Repr

/-! ### Text -/

/-- What a character of a text is written as. -/
def escapeChar (c : Char) : List Char :=
  if c = '&' then ['&', 'a', 'm', 'p', ';']
  else if c = '<' then ['&', 'l', 't', ';']
  else if c = '>' then ['&', 'g', 't', ';']
  else if c = '"' then ['&', 'q', 'u', 'o', 't', ';']
  else if c = '\x27' then ['&', '#', 'x', '2', '7', ';']
  else [c]

def escape (text : List Char) : List Char := text.flatMap escapeChar

/-- What a text is read as. -/
def unescape : List Char → List Char
  | '&' :: 'a' :: 'm' :: 'p' :: ';' :: rest => '&' :: unescape rest
  | '&' :: 'l' :: 't' :: ';' :: rest => '<' :: unescape rest
  | '&' :: 'g' :: 't' :: ';' :: rest => '>' :: unescape rest
  | '&' :: 'q' :: 'u' :: 'o' :: 't' :: ';' :: rest => '"' :: unescape rest
  | '&' :: '#' :: 'x' :: '2' :: '7' :: ';' :: rest => '\x27' :: unescape rest
  | c :: rest => c :: unescape rest
  | [] => []

theorem unescape_escapeChar (c : Char) (rest : List Char) :
  unescape (escapeChar c ++ rest) = c :: unescape rest
  := by
  unfold escapeChar
  split_ifs with amp lt gt quot apos
  · rw [amp]; rfl
  · rw [lt]; rfl
  · rw [gt]; rfl
  · rw [quot]; rfl
  · rw [apos]; rfl
  · exact unescape.eq_6 c rest (fun _ h => absurd h amp) (fun _ h => absurd h amp)
      (fun _ h => absurd h amp) (fun _ h => absurd h amp) fun _ h => absurd h amp

/-- A text that is written is read back. -/
theorem unescape_escape (text : List Char) :
  unescape (escape text) = text
  := by
  induction text with
  | nil => rfl
  | cons c text ih =>
      have split : escape (c :: text) = escapeChar c ++ escape text := List.flatMap_cons
      rw [split, unescape_escapeChar, ih]

/-- What a text is written as has none of the characters of markup. -/
theorem escape_inert {text : List Char} {c : Char} (h : c ∈ escape text) :
  c ≠ '<' ∧ c ≠ '"'
  := by
  obtain ⟨d, _, hc⟩ := List.mem_flatMap.mp h
  unfold escapeChar at hc
  split_ifs at hc with amp lt gt quot apos
  all_goals simp only [List.mem_cons, List.not_mem_nil, or_false] at hc
  case neg =>
    rw [hc]
    exact ⟨lt, quot⟩
  all_goals
    constructor
    · rintro rfl
      simp at hc
    · rintro rfl
      simp at hc

/-! ### Tags -/

def writeAttribute (entry : List Char × List Char) : List Char :=
  ' ' :: (entry.1 ++ '=' :: '"' :: (escape entry.2 ++ ['"']))

def Tag.write (tag : Tag) : List Char :=
  '<' :: ((if tag.closing then ['/'] else []) ++ tag.name ++ tag.attributes.flatMap writeAttribute
    ++ ['>'])

/-- The letters of names. -/
def isName (c : Char) : Bool := c.isAlphanum

/-- The names in a tag are names. -/
structure Tag.Clean (tag : Tag) : Prop where
  nonempty : tag.name ≠ []
  name : ∀ c ∈ tag.name, isName c = true
  keys : ∀ entry ∈ tag.attributes, ∀ c ∈ entry.1, isName c = true

/-! ### Reading -/

/-- Where in a document the reader is. -/
inductive State where
  /-- In a text, of which so much has been read. -/
  | data (text : List Char)
  | tagOpen (text : List Char)
  | tagName (text : List Char) (closing : Bool) (name : List Char)
  | key (text : List Char) (tag : Tag) (key : List Char)
  | beforeValue (text : List Char) (tag : Tag) (key : List Char)
  | value (text : List Char) (tag : Tag) (key value : List Char)
  | afterValue (text : List Char) (tag : Tag)
  /-- Out of the part of HTML that is read. -/
  | lost

/-- A tag and the text before it have been read. -/
def emit (pieces : List (List Char × Tag)) (text : List Char) (tag : Tag) :
    List (List Char × Tag) × State :=
  (pieces ++ [(unescape text, tag)], .data [])

def step : List (List Char × Tag) × State → Char → List (List Char × Tag) × State
  | (pieces, .data text), c =>
      if c = '<' then (pieces, .tagOpen text) else (pieces, .data (text ++ [c]))
  | (pieces, .tagOpen text), c =>
      if c = '/' then (pieces, .tagName text true [])
      else if isName c then (pieces, .tagName text false [c]) else (pieces, .lost)
  | (pieces, .tagName text closing name), c =>
      if c = '>' then emit pieces text ⟨closing, name, []⟩
      else if c = ' ' then (pieces, .key text ⟨closing, name, []⟩ [])
      else if isName c then (pieces, .tagName text closing (name ++ [c])) else (pieces, .lost)
  | (pieces, .key text tag key), c =>
      if c = '=' then (pieces, .beforeValue text tag key)
      else if isName c then (pieces, .key text tag (key ++ [c])) else (pieces, .lost)
  | (pieces, .beforeValue text tag key), c =>
      if c = '"' then (pieces, .value text tag key []) else (pieces, .lost)
  | (pieces, .value text tag key value), c =>
      if c = '"' then
        (pieces, .afterValue text
          { tag with attributes := tag.attributes ++ [(key, unescape value)] })
      else (pieces, .value text tag key (value ++ [c]))
  | (pieces, .afterValue text tag), c =>
      if c = '>' then emit pieces text tag
      else if c = ' ' then (pieces, .key text tag []) else (pieces, .lost)
  | (pieces, .lost), _ => (pieces, .lost)

/-- The document that is written, if it keeps to the part of HTML that is read. -/
def read (written : List Char) : Option Document :=
  match written.foldl step ([], .data []) with
  | (pieces, .data text) => some ⟨pieces, unescape text⟩
  | _ => none

section Reading

variable {pieces : List (List Char × Tag)} {text : List Char}

theorem isName_inert {c : Char} (h : isName c = true) :
  c ≠ '>' ∧ c ≠ ' ' ∧ c ≠ '=' ∧ c ≠ '/'
  := by
  refine ⟨?_, ?_, ?_, ?_⟩
  all_goals
    rintro rfl
    exact absurd h (by decide)

/-- A text goes on until a tag begins. -/
theorem foldl_data {written : List Char} (inert : ∀ c ∈ written, c ≠ '<') :
  written.foldl step (pieces, .data text) = (pieces, .data (text ++ written))
  := by
  induction written generalizing text with
  | nil => rw [List.append_nil]; rfl
  | cons c written ih =>
      obtain ⟨hc, rest⟩ := List.forall_mem_cons.mp inert
      have first : step (pieces, .data text) c = (pieces, .data (text ++ [c])) := if_neg hc
      rw [List.foldl_cons, first, ih rest, List.append_assoc]
      rfl

theorem foldl_tagName {closing : Bool} {name more : List Char}
    (letters : ∀ c ∈ more, isName c = true) :
  more.foldl step (pieces, .tagName text closing name)
    = (pieces, .tagName text closing (name ++ more))
  := by
  induction more generalizing name with
  | nil => rw [List.append_nil]; rfl
  | cons c more ih =>
      obtain ⟨hc, rest⟩ := List.forall_mem_cons.mp letters
      obtain ⟨gt, blank, _⟩ := isName_inert hc
      have first : step (pieces, .tagName text closing name) c
          = (pieces, .tagName text closing (name ++ [c])) :=
        (if_neg gt).trans ((if_neg blank).trans (if_pos hc))
      rw [List.foldl_cons, first, ih rest, List.append_assoc]
      rfl

theorem foldl_key {tag : Tag} {key more : List Char} (letters : ∀ c ∈ more, isName c = true) :
  more.foldl step (pieces, .key text tag key) = (pieces, .key text tag (key ++ more))
  := by
  induction more generalizing key with
  | nil => rw [List.append_nil]; rfl
  | cons c more ih =>
      obtain ⟨hc, rest⟩ := List.forall_mem_cons.mp letters
      have first : step (pieces, .key text tag key) c = (pieces, .key text tag (key ++ [c])) :=
        (if_neg (isName_inert hc).2.2.1).trans (if_pos hc)
      rw [List.foldl_cons, first, ih rest, List.append_assoc]
      rfl

theorem foldl_value {tag : Tag} {key value more : List Char} (inert : ∀ c ∈ more, c ≠ '"') :
  more.foldl step (pieces, .value text tag key value)
    = (pieces, .value text tag key (value ++ more))
  := by
  induction more generalizing value with
  | nil => rw [List.append_nil]; rfl
  | cons c more ih =>
      obtain ⟨hc, rest⟩ := List.forall_mem_cons.mp inert
      have first : step (pieces, .value text tag key value) c
          = (pieces, .value text tag key (value ++ [c])) := if_neg hc
      rw [List.foldl_cons, first, ih rest, List.append_assoc]
      rfl

/-- An attribute is read, whatever its value is. -/
theorem foldl_attribute {tag : Tag} {entry : List Char × List Char}
    (letters : ∀ c ∈ entry.1, isName c = true) :
  (writeAttribute entry).foldl step (pieces, .afterValue text tag)
    = (pieces, .afterValue text { tag with attributes := tag.attributes ++ [entry] })
  := by
  have begins : step (pieces, .afterValue text tag) ' ' = (pieces, .key text tag []) := rfl
  have equals : step (pieces, .key text tag entry.1) '=' = (pieces, .beforeValue text tag entry.1) :=
    rfl
  have opens : step (pieces, .beforeValue text tag entry.1) '"'
      = (pieces, .value text tag entry.1 []) := rfl
  have inert : ∀ c ∈ escape entry.2, c ≠ '"' := fun c hc => (escape_inert hc).2
  have closes : step (pieces, .value text tag entry.1 (escape entry.2)) '"'
      = (pieces, .afterValue text
          { tag with attributes := tag.attributes ++ [(entry.1, unescape (escape entry.2))] }) :=
    rfl
  rw [writeAttribute, List.foldl_cons, begins, List.foldl_append, foldl_key letters, List.nil_append,
    List.foldl_cons, equals, List.foldl_cons, opens, List.foldl_append, foldl_value inert,
    List.nil_append, List.foldl_cons, closes, unescape_escape]
  rfl

theorem foldl_attributes {tag : Tag} {entries : List (List Char × List Char)}
    (letters : ∀ entry ∈ entries, ∀ c ∈ entry.1, isName c = true) :
  (entries.flatMap writeAttribute).foldl step (pieces, .afterValue text tag)
    = (pieces, .afterValue text { tag with attributes := tag.attributes ++ entries })
  := by
  induction entries generalizing tag with
  | nil =>
      rw [List.append_nil]
      rfl
  | cons entry entries ih =>
      obtain ⟨hentry, rest⟩ := List.forall_mem_cons.mp letters
      rw [List.flatMap_cons, List.foldl_append, foldl_attribute hentry, ih rest]
      simp

/-- After the name of a tag the reader goes on as after a value. -/
theorem foldl_named {closing : Bool} {name : List Char} (entries : List (List Char × List Char)) :
  (entries.flatMap writeAttribute ++ ['>']).foldl step (pieces, .tagName text closing name)
    = (entries.flatMap writeAttribute ++ ['>']).foldl step
      (pieces, .afterValue text ⟨closing, name, []⟩)
  := by
  cases entries with
  | nil => rfl
  | cons entry entries => rfl

/-- A tag is read. -/
theorem foldl_tag {tag : Tag} (clean : tag.Clean) :
  tag.write.foldl step (pieces, .data text) = emit pieces text tag
  := by
  have opens : step (pieces, .data text) '<' = (pieces, .tagOpen text) := rfl
  have named : ((if tag.closing then ['/'] else []) ++ tag.name).foldl step (pieces, .tagOpen text)
      = (pieces, .tagName text tag.closing tag.name) := by
    cases hclosing : tag.closing with
    | true =>
        have slash : step (pieces, .tagOpen text) '/' = (pieces, .tagName text true []) := rfl
        rw [if_pos rfl, List.foldl_append, List.foldl_cons, slash, List.foldl_nil,
          foldl_tagName clean.name, List.nil_append]
    | false =>
        obtain ⟨c, name, hname⟩ := List.exists_cons_of_ne_nil clean.nonempty
        have letters := clean.name
        rw [hname] at letters ⊢
        obtain ⟨hc, rest⟩ := List.forall_mem_cons.mp letters
        have first : step (pieces, .tagOpen text) c = (pieces, .tagName text false [c]) :=
          (if_neg (isName_inert hc).2.2.2).trans (if_pos hc)
        rw [if_neg Bool.false_ne_true, List.nil_append, List.foldl_cons, first, foldl_tagName rest]
        rfl
  have ends : step (pieces, .afterValue text tag) '>' = emit pieces text tag := rfl
  rw [Tag.write, List.foldl_cons, opens, List.append_assoc, List.foldl_append, named, foldl_named,
    List.foldl_append, foldl_attributes clean.keys]
  exact ends

/-- Texts without the beginning of a tag and tags, written one after the other, are read as they
are. -/
theorem foldl_pieces {written : List (List Char × Tag)}
    (inert : ∀ piece ∈ written, ∀ c ∈ piece.1, c ≠ '<') (clean : ∀ piece ∈ written, piece.2.Clean) :
  (written.flatMap fun piece => piece.1 ++ piece.2.write).foldl step (pieces, .data [])
    = (pieces ++ written.map (Prod.map unescape id), .data [])
  := by
  induction written generalizing pieces with
  | nil =>
      rw [List.map_nil, List.append_nil]
      rfl
  | cons piece written ih =>
      obtain ⟨hinert, inerts⟩ := List.forall_mem_cons.mp inert
      obtain ⟨hclean, cleans⟩ := List.forall_mem_cons.mp clean
      rw [List.flatMap_cons, List.foldl_append, List.foldl_append, foldl_data hinert,
        foldl_tag hclean, emit, ih inerts cleans, List.map_cons, List.append_assoc]
      rfl

end Reading

/-- A document is read back, whatever its texts and the values of its attributes are. -/
theorem read_written {written : List (List Char × Tag)} {last : List Char}
    (inert : ∀ piece ∈ written, ∀ c ∈ piece.1, c ≠ '<') (clean : ∀ piece ∈ written, piece.2.Clean)
    (inertLast : ∀ c ∈ last, c ≠ '<') :
  read ((written.flatMap fun piece => piece.1 ++ piece.2.write) ++ last)
    = some ⟨written.map (Prod.map unescape id), unescape last⟩
  := by
  rw [read, List.foldl_append, foldl_pieces inert clean, foldl_data inertLast]
  rfl

example :
  read "<p>1 &lt; 2</p>".toList = some ⟨[([], ⟨false, ['p'], []⟩), ("1 < 2".toList,
    ⟨true, ['p'], []⟩)], []⟩
  := by decide

end Html
