import Mathlib.Data.String.Basic
import Mathlib.Data.List.TakeWhile
import Mathlib.Data.Int.ConditionallyCompleteOrder
import Mathlib.Order.ConditionallyCompleteLattice.Basic
import Mathlib.Order.Monotone.Basic
import Mathlib.Logic.Function.Basic

/-!
# What the program is given from outside

An `Env` holds what the program takes from the platform it runs on: the clock, the
sources of ids and tokens, and the functions on text whose tables are not spelled out
here, lower-casing, the token digest, and the folding of case and the order of the database.
The clock is the sequence of its readings: the `i`-th call of `now` reads `clock i`, and so
for ids and tokens.

The functions on text that are spelled out follow those of the source language: stripping
blanks on both sides, and testing a prefix or a suffix.
-/

set_option autoImplicit false

namespace MvpApi

/-- A point in time, in microseconds since the epoch. -/
abbrev Time := ℤ

/-- The clock, the sources of ids and tokens, and the text functions of a platform. -/
structure Env where
  /-- `str.lower`. -/
  lower : String → String
  /-- The hexadecimal SHA-256 digest of a token. -/
  sha256 : String → String
  /-- The folding of case, one character at a time, of the `ILIKE` of the database. -/
  foldCase : Char → Char
  /-- The order of the database on text. -/
  textLt : String → String → Bool
  /-- Where the database comes across a row, of rows with the given ids, when a query asks for no
  order. -/
  place : List String → String → ℕ
  /-- The successive readings of the clock. -/
  clock : ℕ → Time
  /-- The successive ids of `uuid.uuid7`. -/
  uuid7 : ℕ → String
  /-- The successive tokens of `secrets.token_urlsafe`. -/
  tokenUrlsafe : ℕ → String

/-- What the platform promises: lower-casing twice is lower-casing once, the clock does
not go back, and no id is given out twice. -/
structure Env.Lawful (env : Env) : Prop where
  lower_lower : ∀ s, env.lower (env.lower s) = env.lower s
  clock_mono : Monotone env.clock
  uuid7_injective : Function.Injective env.uuid7

/-- A platform to try the program on: it lowers the case of ASCII letters, its clock advances
by a microsecond at each reading, and its ids and tokens are texts of growing length. -/
def Env.sample : Env where
  lower s := String.ofList (s.toList.map Char.toLower)
  sha256 token := token
  foldCase := Char.toLower
  textLt a b := a < b
  place _ _ := 0
  clock i := i
  uuid7 i := String.ofList (List.replicate (i + 1) 'i')
  tokenUrlsafe i := String.ofList (List.replicate (i + 1) 't')

/-- Lower-casing an ASCII letter twice is lower-casing it once. -/
theorem toLower_toLower (c : Char) :
  c.toLower.toLower = c.toLower
  := by
  delta Char.toLower
  grind

theorem Env.sample_lawful :
  Env.sample.Lawful
  where
  lower_lower s := by
    simp only [Env.sample, String.toList_ofList, List.map_map, Function.comp_def, toLower_toLower]
  clock_mono _ _ h := Int.ofNat_le.mpr h
  uuid7_injective i j h := by
    have hlength := congrArg List.length (String.ofList_injective h)
    simpa using hlength

/-! ### Text -/

/-- The characters that `str.strip` removes. -/
def isSpace (c : Char) : Bool :=
  (0x09 ≤ c.toNat && c.toNat ≤ 0x0d) || (0x1c ≤ c.toNat && c.toNat ≤ 0x20) ||
  c.toNat == 0x85 || c.toNat == 0xa0 || c.toNat == 0x1680 ||
  (0x2000 ≤ c.toNat && c.toNat ≤ 0x200a) || c.toNat == 0x2028 || c.toNat == 0x2029 ||
  c.toNat == 0x202f || c.toNat == 0x205f || c.toNat == 0x3000

/-- The text without the blanks at its two ends. -/
def strip (s : String) : String :=
  String.ofList ((s.toList.dropWhile isSpace).reverse.dropWhile isSpace).reverse

/-- Whether the text begins with `p`. -/
def startswith (s p : String) : Bool := p.toList.isPrefixOf s.toList

/-- Whether the text ends with `p`. -/
def endswith (s p : String) : Bool := p.toList.isSuffixOf s.toList

/-- The first `n` characters of the text. -/
def truncate (s : String) (n : ℕ) : String := String.ofList (s.toList.take n)

/-! ### Blank texts -/

/-- A text is blank when stripping it leaves nothing. -/
def Blank (s : String) : Prop := strip s = ""

instance (s : String) : Decidable (Blank s) := inferInstanceAs (Decidable (strip s = ""))

/-- Dropping a prefix keeps the elements that are not dropped. -/
theorem mem_dropWhile {α : Type} {p : α → Bool} {l : List α} {a : α} (h : a ∈ l) (hp : ¬ p a) :
  a ∈ l.dropWhile p
  := by
  induction l with
  | nil => exact h
  | cons b l ih =>
      rw [List.dropWhile_cons]
      split
      · next hb =>
          rcases List.mem_cons.mp h with rfl | h'
          · exact absurd hb hp
          · exact ih h'
      · exact h

/-- A text is blank exactly when it has only blanks. -/
theorem blank_iff {s : String} :
  Blank s ↔ ∀ c ∈ s.toList, isSpace c
  := by
  rw [Blank, strip, String.ofList_eq_empty_iff, List.reverse_eq_nil_iff]
  constructor
  · intro h c hc
    by_contra hs
    have hc' := mem_dropWhile (List.mem_reverse.mpr (mem_dropWhile hc hs)) hs
    rw [h] at hc'
    cases hc'
  · intro h
    have hnil : s.toList.dropWhile isSpace = [] := List.dropWhile_eq_nil_iff.mpr h
    rw [hnil]
    rfl

/-- Stripping makes no text blank that was not. -/
theorem blank_strip {s : String} :
  Blank (strip s) ↔ Blank s
  := by
  rw [blank_iff, blank_iff, strip, String.toList_ofList]
  constructor
  · intro h c hc
    by_contra hs
    apply hs
    apply h c
    rw [List.mem_reverse]
    exact mem_dropWhile (List.mem_reverse.mpr (mem_dropWhile hc hs)) hs
  · intro h c hc
    apply h c
    have h' := (List.dropWhile_sublist isSpace).mem (List.mem_reverse.mp hc)
    exact (List.dropWhile_sublist isSpace).mem (List.mem_reverse.mp h')

end MvpApi
