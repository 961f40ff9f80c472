import Mathlib.Data.List.Basic
import Mathlib.Data.Char
import Mathlib.Tactic.Common

/-!
# JSON

The values of JSON, a reader of them, and a writer. Numbers are kept as they are written. In a
text all characters but the printable ones of ASCII are written as escapes; a character beyond the
first 65536 is written as two halves. A half alone is no character: what it is read as is given to
the reader. A value without numbers is read back as it was written, whatever comes after it.
-/

set_option autoImplicit false

/-- A value of JSON; the keys of an object are in the order in which they appear. -/
inductive Json where
  | null
  | bool (value : Bool)
  | number (literal : List Char)
  | text (text : List Char)
  | array (items : List Json)
  | object (fields : List (List Char × Json))

namespace Json

/-- Whether a value is a text. -/
def IsText : Json → Prop
  | .text _ => True
  | _ => False

theorem IsText.eq_text {value : Json} (h : value.IsText) :
  ∃ s, value = .text s
  := by
  cases value with
  | text s => exact ⟨s, rfl⟩
  | null | bool | number | array | object => cases h

/-- The value at a key of an object: of those with the same key, the last. -/
def field (key : List Char) : Json → Option Json
  | .object fields => (fields.reverse.find? (·.1 = key)).map Prod.snd
  | _ => none

/-! ### Writing a text -/

def hexDigits : List Char := "0123456789abcdef".toList

/-- The escape of a number of 16 bits. -/
def unit (n : ℕ) : List Char :=
  ['\\', 'u', hexDigits.getD (n / 4096 % 16) '0', hexDigits.getD (n / 256 % 16) '0',
    hexDigits.getD (n / 16 % 16) '0', hexDigits.getD (n % 16) '0']

/-- A character of a text. -/
def escape (c : Char) : List Char :=
  let n := c.toNat
  if n = 0x22 then ['\\', '"']
  else if n = 0x5c then ['\\', '\\']
  else if 0x20 ≤ n ∧ n ≤ 0x7e then [c]
  else if n = 0x08 then ['\\', 'b']
  else if n = 0x09 then ['\\', 't']
  else if n = 0x0a then ['\\', 'n']
  else if n = 0x0c then ['\\', 'f']
  else if n = 0x0d then ['\\', 'r']
  else if n < 0x10000 then unit n
  else unit (0xd800 + (n - 0x10000) / 0x400) ++ unit (0xdc00 + (n - 0x10000) % 0x400)

/-- A text between quotes. -/
def quote (text : List Char) : List Char := '"' :: (text.flatMap escape ++ ['"'])

/-- A list of texts. -/
def dumps (texts : List (List Char)) : List Char :=
  '[' :: (List.intercalate [',', ' '] (texts.map quote) ++ [']'])

/-! ### Reading -/

-- What a half of a character is read as when it stands alone.
variable (half : ℕ → Char)

/-- The number that a digit in base 16 stands for. -/
def hexValue (c : Char) : Option ℕ := hexDigits.findIdx? (· = c.toLower)

/-- Read four digits in base 16. -/
def readUnit : List Char → Option (ℕ × List Char)
  | a :: b :: c :: d :: cs => do
      let a ← hexValue a
      let b ← hexValue b
      let c ← hexValue c
      let d ← hexValue d
      return (((a * 16 + b) * 16 + c) * 16 + d, cs)
  | _ => none

/-- Read the character of an escape, after the backslash. -/
def readEscape : List Char → Option (Char × List Char)
  | '"' :: cs => some ('"', cs)
  | '\\' :: cs => some ('\\', cs)
  | '/' :: cs => some ('/', cs)
  | 'b' :: cs => some (Char.ofNat 0x08, cs)
  | 't' :: cs => some (Char.ofNat 0x09, cs)
  | 'n' :: cs => some (Char.ofNat 0x0a, cs)
  | 'f' :: cs => some (Char.ofNat 0x0c, cs)
  | 'r' :: cs => some (Char.ofNat 0x0d, cs)
  | 'u' :: cs => do
      let (n, cs) ← readUnit cs
      if 0xd800 ≤ n ∧ n < 0xdc00 then
        match cs with
        | '\\' :: 'u' :: cs' => do
            let (n', rest) ← readUnit cs'
            if 0xdc00 ≤ n' ∧ n' < 0xe000 then
              return (Char.ofNat (0x10000 + (n - 0xd800) * 0x400 + (n' - 0xdc00)), rest)
            else return (half n, cs)
        | _ => return (half n, cs)
      else if 0xdc00 ≤ n ∧ n < 0xe000 then return (half n, cs)
      else return (Char.ofNat n, cs)
  | _ => none

/-- Read one character of a text. -/
def readChar : List Char → Option (Char × List Char)
  | [] => none
  | c :: cs =>
      if c = '\\' then readEscape half cs
      else if c = '"' ∨ c.toNat < 0x20 then none
      else some (c, cs)

/-- Read a text, after the opening quote. -/
def readText : ℕ → List Char → Option (List Char × List Char)
  | 0, _ => none
  | fuel + 1, cs =>
      if cs.head? = some '"' then some ([], cs.tail)
      else do
        let (c, cs) ← readChar half cs
        let (s, cs) ← readText fuel cs
        return (c :: s, cs)

def skipBlanks (cs : List Char) : List Char :=
  cs.dropWhile fun c => c = ' ' ∨ c = '\t' ∨ c = '\n' ∨ c = '\r'

/-- Take digits, of which there must be one. -/
def takeDigits (cs : List Char) : Option (List Char × List Char) :=
  if cs.takeWhile Char.isDigit = [] then none
  else some (cs.takeWhile Char.isDigit, cs.dropWhile Char.isDigit)

/-- Take the digits before the point, where a zero stands alone. -/
def takeWhole : List Char → Option (List Char × List Char)
  | '0' :: cs => some (['0'], cs)
  | cs => takeDigits cs

/-- Take a fraction, if there is one. -/
def takeFraction : List Char → List Char × List Char
  | '.' :: cs =>
      match takeDigits cs with
      | some (digits, cs) => ('.' :: digits, cs)
      | none => ([], '.' :: cs)
  | cs => ([], cs)

/-- Take an exponent, if there is one. -/
def takeExponent : List Char → List Char × List Char
  | c :: cs =>
      let sign := cs.take 1 |>.filter fun c => c = '-' ∨ c = '+'
      match takeDigits (cs.drop sign.length) with
      | some (digits, rest) =>
          if c = 'e' ∨ c = 'E' then (c :: sign ++ digits, rest) else ([], c :: cs)
      | none => ([], c :: cs)
  | [] => ([], [])

/-- The digits that a whole number can have. -/
def maxDigits : ℕ := 4300

/-- Read a number. -/
def readNumber (cs : List Char) : Option (Json × List Char) := do
  let sign := cs.take 1 |>.filter (· = '-')
  let (whole, cs) ← takeWhole (cs.drop sign.length)
  let (fraction, cs) := takeFraction cs
  let (exponent, cs) := takeExponent cs
  if fraction = [] ∧ exponent = [] ∧ maxDigits < whole.length then none
  else return (.number (sign ++ whole ++ fraction ++ exponent), cs)

/-- The values that are words. -/
def words : List (List Char × Json) :=
  [("null".toList, .null), ("true".toList, .bool true), ("false".toList, .bool false),
    ("NaN".toList, .number "NaN".toList), ("Infinity".toList, .number "Infinity".toList),
    ("-Infinity".toList, .number "-Infinity".toList)]

/-- Read a word. -/
def readWord (cs : List Char) : Option (Json × List Char) :=
  (words.find? fun word => word.1.isPrefixOf cs).map fun word =>
    (word.2, cs.drop word.1.length)

mutual

/-- Read a value. -/
def readValue : ℕ → List Char → Option (Json × List Char)
  | 0, _ => none
  | fuel + 1, cs =>
      match cs with
      | '"' :: cs => (readText half cs.length cs).map fun (s, cs) => (.text s, cs)
      | '[' :: cs =>
          match skipBlanks cs with
          | ']' :: cs => some (.array [], cs)
          | cs => (readItems fuel cs).map fun (items, cs) => (.array items, cs)
      | '{' :: cs =>
          match skipBlanks cs with
          | '}' :: cs => some (.object [], cs)
          | cs => (readFields fuel cs).map fun (fields, cs) => (.object fields, cs)
      | cs => (readWord cs).or (readNumber cs)

/-- Read the items of an array. -/
def readItems : ℕ → List Char → Option (List Json × List Char)
  | 0, _ => none
  | fuel + 1, cs => do
      let (item, cs) ← readValue fuel cs
      match skipBlanks cs with
      | ',' :: cs => do
          let (items, cs) ← readItems fuel (skipBlanks cs)
          return (item :: items, cs)
      | ']' :: cs => return ([item], cs)
      | _ => none

/-- Read the fields of an object. -/
def readFields : ℕ → List Char → Option (List (List Char × Json) × List Char)
  | 0, _ => none
  | fuel + 1, '"' :: cs => do
      let (key, cs) ← readText half cs.length cs
      match skipBlanks cs with
      | ':' :: cs => do
          let (item, cs) ← readValue fuel (skipBlanks cs)
          match skipBlanks cs with
          | ',' :: cs => do
              let (fields, cs) ← readFields fuel (skipBlanks cs)
              return ((key, item) :: fields, cs)
          | '}' :: cs => return ([(key, item)], cs)
          | _ => none
      | _ => none
  | _ + 1, _ => none

end

/-- Read a value, with nothing after it. -/
def loads (cs : List Char) : Option Json := do
  let (value, cs) ← readValue half (cs.length + 1) (skipBlanks cs)
  if skipBlanks cs = [] then return value else none

/-! ### Reading what was written -/

theorem hexValue_hexDigits {n : ℕ} (h : n < 16) :
  hexValue (hexDigits.getD n '0') = some n
  := by
  have all : ∀ m < 16, hexValue (hexDigits.getD m '0') = some m := by decide
  exact all n h

theorem unit_append (n : ℕ) (rest : List Char) :
  unit n ++ rest = '\\' :: 'u' :: ((unit n).drop 2 ++ rest)
  := rfl

theorem readUnit_unit {n : ℕ} (h : n < 65536) (rest : List Char) :
  readUnit ((unit n).drop 2 ++ rest) = some (n, rest)
  := by
  show readUnit (_ :: _ :: _ :: _ :: rest) = _
  rw [readUnit, hexValue_hexDigits (Nat.mod_lt _ (by decide)),
    hexValue_hexDigits (Nat.mod_lt _ (by decide)), hexValue_hexDigits (Nat.mod_lt _ (by decide)),
    hexValue_hexDigits (Nat.mod_lt _ (by decide))]
  have hn : ((n / 4096 % 16 * 16 + n / 256 % 16) * 16 + n / 16 % 16) * 16 + n % 16 = n := by omega
  exact congrArg (fun n => some (n, rest)) hn

/-- A character is read back. -/
theorem readChar_escape (c : Char) (rest : List Char) :
  readChar half (escape c ++ rest) = some (c, rest)
  := by
  have ofNat : ∀ n, c.toNat = n → Char.ofNat n = c := by
    rintro n rfl
    exact Char.ofNat_toNat c
  rw [escape]
  split_ifs with h₁ h₂ h₃ h₄ h₅ h₆ h₇ h₈ h₉
  · rw [← ofNat _ h₁]; rfl
  · rw [← ofNat _ h₂]; rfl
  · rw [List.singleton_append, readChar, if_neg, if_neg]
    · rintro (rfl | hlt)
      · exact h₁ rfl
      · omega
    · rintro rfl
      exact h₂ rfl
  · rw [← ofNat _ h₄]; rfl
  · rw [← ofNat _ h₅]; rfl
  · rw [← ofNat _ h₆]; rfl
  · rw [← ofNat _ h₇]; rfl
  · rw [← ofNat _ h₈]; rfl
  · -- A character of one unit is no half of another one.
    have hhalf : c.toNat < 0xd800 ∨ 0xdfff < c.toNat := by
      rcases c.valid with h | h
      · exact Or.inl h
      · exact Or.inr h.1
    rw [unit_append, readChar, if_pos rfl, readEscape, readUnit_unit h₉]
    simp only [Option.bind_eq_bind, Option.bind_some]
    rw [if_neg (by omega), if_neg (by omega), Char.ofNat_toNat]
    rfl
  · have hlt : c.toNat < 0x110000 := by
      rcases c.valid with h | h
      · exact lt_trans h (by decide)
      · exact h.2
    obtain ⟨high, hhigh⟩ : ∃ n, n = 0xd800 + (c.toNat - 0x10000) / 0x400 := ⟨_, rfl⟩
    obtain ⟨low, hlow⟩ : ∃ n, n = 0xdc00 + (c.toNat - 0x10000) % 0x400 := ⟨_, rfl⟩
    have hhalf : 0xd800 ≤ high ∧ high < 0xdc00 := by omega
    have hhalf' : 0xdc00 ≤ low ∧ low < 0xe000 := by omega
    have hsum : c.toNat = 0x10000 + (high - 0xd800) * 0x400 + (low - 0xdc00) := by omega
    rw [← hhigh, ← hlow, List.append_assoc, unit_append, unit_append, readChar, if_pos rfl,
      readEscape, readUnit_unit (by omega)]
    simp only [Option.bind_eq_bind, Option.bind_some]
    rw [if_pos hhalf, readUnit_unit (by omega), Option.bind_some, if_pos hhalf', ofNat _ hsum]
    rfl

/-- No escape begins with a quote. -/
theorem head?_escape (c : Char) (rest : List Char) :
  ∃ d ds, escape c ++ rest = d :: ds ∧ d ≠ '"'
  := by
  rw [escape]
  split_ifs with h₁
  · exact ⟨'\\', _, rfl, by decide⟩
  · exact ⟨'\\', _, rfl, by decide⟩
  · refine ⟨c, _, rfl, ?_⟩
    rintro rfl
    exact h₁ rfl
  all_goals exact ⟨'\\', _, rfl, by decide⟩

/-- A text is read back up to the closing quote. -/
theorem readText_escape (s : List Char) (rest : List Char) {fuel : ℕ} (h : s.length < fuel) :
  readText half fuel (s.flatMap escape ++ '"' :: rest) = some (s, rest)
  := by
  induction s generalizing fuel with
  | nil =>
      obtain ⟨fuel, rfl⟩ := Nat.exists_eq_succ_of_ne_zero (Nat.ne_of_gt h)
      exact if_pos rfl
  | cons c s ih =>
      obtain ⟨fuel, rfl⟩ := Nat.exists_eq_succ_of_ne_zero (Nat.ne_of_gt (Nat.zero_lt_of_lt h))
      have hhead : ¬ (escape c ++ (s.flatMap escape ++ '"' :: rest)).head? = some '"' := by
        obtain ⟨d, ds, hd, hne⟩ := head?_escape c (s.flatMap escape ++ '"' :: rest)
        rw [hd, List.head?_cons, Option.some.injEq]
        exact hne
      rw [List.flatMap_cons, List.append_assoc, readText, if_neg hhead, readChar_escape]
      simp only [Option.bind_eq_bind, Option.bind_some, ih (Nat.lt_of_succ_lt_succ h)]
      rfl

/-- A text is not longer than what is written for it. -/
theorem length_le_escape (s : List Char) :
  s.length ≤ (s.flatMap escape).length
  := by
  induction s with
  | nil => exact Nat.zero_le _
  | cons c s ih =>
      obtain ⟨d, ds, hd, _⟩ := head?_escape c []
      rw [List.append_nil] at hd
      rw [List.flatMap_cons, List.length_append, hd, List.length_cons, List.length_cons]
      omega

theorem readValue_quote (fuel : ℕ) (s rest : List Char) :
  readValue half (fuel + 1) (quote s ++ rest) = some (.text s, rest)
  := by
  have hle := length_le_escape s
  have hcons : quote s ++ rest = '"' :: (s.flatMap escape ++ '"' :: rest) := by
    rw [quote, List.cons_append, List.append_assoc, List.singleton_append]
  rw [hcons, readValue, readText_escape]
  · rfl
  · rw [List.length_append, List.length_cons]
    omega

/-- The items of a list of texts are read back. -/
theorem readItems_quote (s : List Char) (texts : List (List Char)) (rest : List Char) {fuel : ℕ}
    (h : texts.length + 2 ≤ fuel) :
  readItems half fuel (List.intercalate [',', ' '] ((s :: texts).map quote) ++ ']' :: rest)
    = some ((s :: texts).map text, rest)
  := by
  obtain ⟨fuel, rfl⟩ : ∃ n, fuel = n + 2 := ⟨fuel - 2, by omega⟩
  induction texts generalizing s fuel with
  | nil =>
      rw [List.map_singleton, List.intercalate_singleton, readItems, readValue_quote]
      rfl
  | cons s' texts ih =>
      rw [List.length_cons] at h
      obtain ⟨fuel, rfl⟩ : ∃ n, fuel = n + 1 := ⟨fuel - 1, by omega⟩
      have hnext : skipBlanks (' ' :: (List.intercalate [',', ' '] ((s' :: texts).map quote)
            ++ ']' :: rest))
          = List.intercalate [',', ' '] ((s' :: texts).map quote) ++ ']' :: rest := by
        rw [List.map_cons, quote, List.intercalate_cons_cons_left]
        rfl
      rw [List.map_cons, List.map_cons, List.intercalate_cons_cons, ← List.map_cons,
        List.append_assoc, List.append_assoc, List.cons_append, List.cons_append, List.nil_append,
        readItems, readValue_quote]
      simp only [Option.bind_eq_bind, Option.bind_some]
      show ((readItems half (fuel + 2) (skipBlanks (' ' :: _))).bind _) = _
      rw [hnext, ih s' fuel (by omega)]
      rfl

/-- There are not more texts than characters written for them. -/
theorem length_le_intercalate (s : List Char) (texts : List (List Char)) :
  texts.length + 1 ≤ (List.intercalate [',', ' '] ((s :: texts).map quote)).length
  := by
  induction texts generalizing s with
  | nil =>
      rw [List.map_singleton, List.intercalate_singleton, quote, List.length_cons]
      exact Nat.succ_le_succ (Nat.zero_le _)
  | cons s' texts ih =>
      have hrest := ih s'
      rw [List.map_cons] at hrest
      rw [List.map_cons, List.map_cons, List.intercalate_cons_cons, List.length_append,
        List.length_append]
      simp only [List.length_cons, List.length_nil]
      omega

/-- A list of texts is read back. -/
theorem loads_dumps (texts : List (List Char)) :
  loads half (dumps texts) = some (.array (texts.map text))
  := by
  cases texts with
  | nil => rfl
  | cons s texts =>
      have hlength : texts.length + 2 ≤ (dumps (s :: texts)).length := by
        have hle := length_le_intercalate s texts
        rw [dumps, List.length_cons, List.length_append]
        omega
      have hitems : skipBlanks (List.intercalate [',', ' '] ((s :: texts).map quote) ++ [']'])
          = List.intercalate [',', ' '] ((s :: texts).map quote) ++ [']'] := by
        rw [List.map_cons, quote, List.intercalate_cons_cons_left]
        rfl
      have hhead : ∀ cs, List.intercalate [',', ' '] ((s :: texts).map quote) ++ [']']
          ≠ ']' :: cs := by
        intro cs
        rw [List.map_cons, quote, List.intercalate_cons_cons_left]
        exact fun heq => absurd (List.cons.inj heq).1 (by decide)
      have hvalue : readValue half ((dumps (s :: texts)).length + 1) (dumps (s :: texts))
          = some (.array ((s :: texts).map text), []) := by
        generalize (dumps (s :: texts)).length = fuel at hlength
        rw [dumps, readValue, hitems]
        split
        · next heq => exact absurd heq (hhead _)
        · rw [readItems_quote half s texts [] hlength]
          rfl
      have hblank : skipBlanks (dumps (s :: texts)) = dumps (s :: texts) := rfl
      rw [loads, hblank, hvalue]
      rfl

/-! ### What is written is ASCII -/

/-- The printable characters of ASCII. -/
def IsPrintable (c : Char) : Prop := 0x20 ≤ c.toNat ∧ c.toNat ≤ 0x7e

instance : DecidablePred IsPrintable := fun _ => inferInstanceAs (Decidable (_ ∧ _))

theorem isPrintable_unit (n : ℕ) :
  ∀ c ∈ unit n, IsPrintable c
  := by
  have hdigit : ∀ n < 16, IsPrintable (hexDigits.getD n '0') := by decide
  intro c hc
  simp only [unit, List.mem_cons, List.not_mem_nil, or_false] at hc
  rcases hc with rfl | rfl | rfl | rfl | rfl | rfl
  · decide
  · decide
  all_goals exact hdigit _ (Nat.mod_lt _ (by decide))

theorem isPrintable_escape (a : Char) :
  ∀ c ∈ escape a, IsPrintable c
  := by
  have all : ['"', '\\', 'b', 't', 'n', 'f', 'r'].all (IsPrintable ·) = true := by decide
  have short := fun c hc => of_decide_eq_true (List.all_eq_true.mp all c hc)
  intro c hc
  rw [escape] at hc
  split_ifs at hc with h₁ h₂ h₃ h₄ h₅ h₆ h₇ h₈ h₉
  · exact short c (by grind)
  · exact short c (by grind)
  · rw [List.mem_singleton.mp hc]
    exact h₃
  · exact short c (by grind)
  · exact short c (by grind)
  · exact short c (by grind)
  · exact short c (by grind)
  · exact short c (by grind)
  · exact isPrintable_unit _ c hc
  · rcases List.mem_append.mp hc with hc | hc
    · exact isPrintable_unit _ c hc
    · exact isPrintable_unit _ c hc

/-- A list of texts is written with printable characters of ASCII. -/
theorem isPrintable_dumps (texts : List (List Char)) :
  ∀ c ∈ dumps texts, IsPrintable c
  := by
  have hquote : ∀ s, ∀ c ∈ quote s, IsPrintable c := by
    intro s c hc
    simp only [quote, List.mem_cons, List.mem_append, List.mem_flatMap, List.not_mem_nil,
      or_false] at hc
    rcases hc with rfl | ⟨a, _, hc⟩ | rfl
    · decide
    · exact isPrintable_escape a c hc
    · decide
  have hlist : ∀ c ∈ List.intercalate [',', ' '] (texts.map quote), IsPrintable c := by
    induction texts with
    | nil => exact fun c hc => by cases hc
    | cons s texts ih =>
        cases texts with
        | nil =>
            rw [List.map_singleton, List.intercalate_singleton]
            exact hquote s
        | cons s' texts =>
            rw [List.map_cons, List.map_cons, List.intercalate_cons_cons, ← List.map_cons]
            intro c hc
            rw [List.mem_append, List.mem_append] at hc
            rcases hc with (hc | hc) | hc
            · exact hquote s c hc
            · have separator : [',', ' '].all (IsPrintable ·) = true := by decide
              exact of_decide_eq_true (List.all_eq_true.mp separator c hc)
            · exact ih c hc
  intro c hc
  simp only [dumps, List.mem_cons, List.mem_append, List.not_mem_nil, or_false] at hc
  rcases hc with rfl | hc | rfl
  · decide
  · exact hlist c hc
  · decide

/-! ### Writing a value -/

mutual

/-- A value, with a blank after each separator. -/
def write : Json → List Char
  | .null => "null".toList
  | .bool true => "true".toList
  | .bool false => "false".toList
  | .number literal => literal
  | .text s => quote s
  | .array items => '[' :: (writeItems items ++ [']'])
  | .object fields => '{' :: (writeFields fields ++ ['}'])

def writeItems : List Json → List Char
  | [] => []
  | [item] => write item
  | item :: items => write item ++ ',' :: ' ' :: writeItems items

def writeFields : List (List Char × Json) → List Char
  | [] => []
  | [(key, item)] => quote key ++ ':' :: ' ' :: write item
  | (key, item) :: fields =>
      quote key ++ ':' :: ' ' :: (write item ++ ',' :: ' ' :: writeFields fields)

end

/-- A value without numbers. -/
inductive Numberless : Json → Prop
  | null : Numberless .null
  | bool (value : Bool) : Numberless (.bool value)
  | text (s : List Char) : Numberless (.text s)
  | array {items : List Json} (h : ∀ item ∈ items, Numberless item) : Numberless (.array items)
  | object {fields : List (List Char × Json)} (h : ∀ field ∈ fields, Numberless field.2) :
      Numberless (.object fields)

/-- What is written for a value begins with neither a blank nor a closing bracket. -/
theorem Numberless.head_write {value : Json} (h : value.Numberless) :
  ∃ c cs, write value = c :: cs ∧ c ≠ ']' ∧ ∀ rest, skipBlanks (c :: rest) = c :: rest
  := by
  cases h with
  | null => exact ⟨'n', _, rfl, by decide, fun _ => rfl⟩
  | bool value =>
      cases value with
      | false => exact ⟨'f', _, rfl, by decide, fun _ => rfl⟩
      | true => exact ⟨'t', _, rfl, by decide, fun _ => rfl⟩
  | text s => exact ⟨'"', _, rfl, by decide, fun _ => rfl⟩
  | array => exact ⟨'[', _, by rw [write], by decide, fun _ => rfl⟩
  | object => exact ⟨'{', _, by rw [write], by decide, fun _ => rfl⟩

/-- There are no blanks before a value. -/
theorem Numberless.skipBlanks_write {value : Json} (h : value.Numberless) (rest : List Char) :
  skipBlanks (write value ++ rest) = write value ++ rest
  := by
  obtain ⟨c, cs, hwrite, _, hskip⟩ := h.head_write
  rw [hwrite, List.cons_append, hskip]

/-- A value is read back, whatever comes after it. -/
def ReadBack (value : Json) : Prop :=
  ∀ (fuel : ℕ) (rest : List Char), (write value).length < fuel →
    readValue half fuel (write value ++ rest) = some (value, rest)

theorem writeItems_cons_cons (item item' : Json) (items : List Json) :
  writeItems (item :: item' :: items) = write item ++ ',' :: ' ' :: writeItems (item' :: items)
  := by
  rw [writeItems]
  nofun

theorem writeFields_cons_cons (key : List Char) (item : Json) (field : List Char × Json)
    (fields : List (List Char × Json)) :
  writeFields ((key, item) :: field :: fields)
    = quote key ++ ':' :: ' ' :: (write item ++ ',' :: ' ' :: writeFields (field :: fields))
  := by
  rw [writeFields]
  nofun

/-- There are no blanks before the items of an array. -/
theorem skipBlanks_writeItems {item : Json} {items : List Json} (h : item.Numberless)
    (rest : List Char) :
  skipBlanks (writeItems (item :: items) ++ rest) = writeItems (item :: items) ++ rest
  := by
  cases items with
  | nil => exact h.skipBlanks_write rest
  | cons =>
      rw [writeItems_cons_cons, List.append_assoc]
      exact h.skipBlanks_write _

/-- The fields of an object begin with a key. -/
theorem writeFields_cons (field : List Char × Json) (fields : List (List Char × Json)) :
  ∃ cs, writeFields (field :: fields) = '"' :: cs
  := by
  cases fields with
  | nil => exact ⟨_, rfl⟩
  | cons => exact ⟨_, by rw [writeFields_cons_cons]; rfl⟩

variable {half}

/-- The items of an array are read back, if each of them is. -/
theorem readItems_write {item : Json} {items : List Json}
    (plain : ∀ value ∈ item :: items, value.Numberless)
    (back : ∀ value ∈ item :: items, ReadBack half value) {fuel : ℕ} (rest : List Char)
    (h : (writeItems (item :: items)).length + 1 < fuel) :
  readItems half fuel (writeItems (item :: items) ++ ']' :: rest) = some (item :: items, rest)
  := by
  induction items generalizing item fuel with
  | nil =>
      obtain ⟨fuel, rfl⟩ := Nat.exists_eq_succ_of_ne_zero (Nat.ne_of_gt (Nat.zero_lt_of_lt h))
      rw [writeItems] at h ⊢
      rw [readItems, back item List.mem_cons_self fuel _ (by omega)]
      rfl
  | cons item' items ih =>
      obtain ⟨fuel, rfl⟩ := Nat.exists_eq_succ_of_ne_zero (Nat.ne_of_gt (Nat.zero_lt_of_lt h))
      rw [writeItems_cons_cons, List.length_append, List.length_cons, List.length_cons] at h
      rw [writeItems_cons_cons, List.append_assoc, List.cons_append, List.cons_append, readItems,
        back item List.mem_cons_self fuel _ (by omega)]
      simp only [Option.bind_eq_bind, Option.bind_some]
      have hskip : skipBlanks (' ' :: (writeItems (item' :: items) ++ ']' :: rest))
          = writeItems (item' :: items) ++ ']' :: rest :=
        skipBlanks_writeItems (plain item' (by simp)) _
      show ((readItems half fuel (skipBlanks (' ' :: _))).bind _) = _
      rw [hskip, ih (fun value hvalue => plain value (List.mem_cons_of_mem _ hvalue))
        (fun value hvalue => back value (List.mem_cons_of_mem _ hvalue)) (by omega)]
      rfl

/-- A key is read back up to the value. -/
theorem readFields_quote (key : List Char) {item : Json} (plain : item.Numberless)
    (fuel : ℕ) (rest : List Char) :
  readFields half (fuel + 1) (quote key ++ ':' :: ' ' :: (write item ++ rest))
    = (readValue half fuel (write item ++ rest)).bind fun (item, cs) =>
        match skipBlanks cs with
        | ',' :: cs => (readFields half fuel (skipBlanks cs)).bind fun (fields, cs) =>
            some ((key, item) :: fields, cs)
        | '}' :: cs => some ([(key, item)], cs)
        | _ => none
  := by
  have hle := length_le_escape key
  have hskip : skipBlanks (' ' :: (write item ++ rest)) = write item ++ rest :=
    plain.skipBlanks_write rest
  rw [quote, List.cons_append, List.append_assoc, List.singleton_append, readFields,
    readText_escape]
  · simp only [Option.bind_eq_bind, Option.bind_some]
    show ((readValue half fuel (skipBlanks (' ' :: _))).bind _) = _
    rw [hskip]
    rfl
  · rw [List.length_append, List.length_cons]
    omega

/-- The fields of an object are read back, if each of their values is. -/
theorem readFields_write {field : List Char × Json} {fields : List (List Char × Json)}
    (plain : ∀ field' ∈ field :: fields, field'.2.Numberless)
    (back : ∀ field' ∈ field :: fields, ReadBack half field'.2) {fuel : ℕ} (rest : List Char)
    (h : (writeFields (field :: fields)).length + 1 < fuel) :
  readFields half fuel (writeFields (field :: fields) ++ '}' :: rest)
    = some (field :: fields, rest)
  := by
  induction fields generalizing field fuel with
  | nil =>
      obtain ⟨fuel, rfl⟩ := Nat.exists_eq_succ_of_ne_zero (Nat.ne_of_gt (Nat.zero_lt_of_lt h))
      obtain ⟨key, item⟩ := field
      rw [writeFields, List.length_append, List.length_cons, List.length_cons] at h
      have hitem : ReadBack half item := back (key, item) List.mem_cons_self
      rw [writeFields, List.append_assoc, List.cons_append, List.cons_append,
        readFields_quote key (plain _ List.mem_cons_self), hitem fuel _ (by omega)]
      rfl
  | cons field' fields ih =>
      obtain ⟨fuel, rfl⟩ := Nat.exists_eq_succ_of_ne_zero (Nat.ne_of_gt (Nat.zero_lt_of_lt h))
      obtain ⟨key, item⟩ := field
      rw [writeFields_cons_cons] at h ⊢
      simp only [List.length_append, List.length_cons] at h
      have hitem : ReadBack half item := back (key, item) List.mem_cons_self
      rw [List.append_assoc, List.cons_append, List.cons_append, List.append_assoc,
        List.cons_append, List.cons_append, readFields_quote key (plain _ List.mem_cons_self),
        hitem fuel _ (by omega)]
      have hskip : skipBlanks (' ' :: (writeFields (field' :: fields) ++ '}' :: rest))
          = writeFields (field' :: fields) ++ '}' :: rest := by
        obtain ⟨cs, hcs⟩ := writeFields_cons field' fields
        rw [hcs]
        rfl
      show ((readFields half fuel (skipBlanks (' ' :: _))).bind _) = _
      rw [hskip, ih (fun value hvalue => plain value (List.mem_cons_of_mem _ hvalue))
        (fun value hvalue => back value (List.mem_cons_of_mem _ hvalue)) (by omega)]
      rfl

/-- A value is read back, whatever comes after it. -/
theorem Numberless.readBack {value : Json} (h : value.Numberless) :
  ReadBack half value
  := by
  induction h with
  | null =>
      intro fuel rest h
      obtain ⟨fuel, rfl⟩ := Nat.exists_eq_succ_of_ne_zero (Nat.ne_of_gt (Nat.zero_lt_of_lt h))
      rfl
  | bool value =>
      intro fuel rest h
      obtain ⟨fuel, rfl⟩ := Nat.exists_eq_succ_of_ne_zero (Nat.ne_of_gt (Nat.zero_lt_of_lt h))
      cases value <;> rfl
  | text s =>
      intro fuel rest h
      obtain ⟨fuel, rfl⟩ := Nat.exists_eq_succ_of_ne_zero (Nat.ne_of_gt (Nat.zero_lt_of_lt h))
      exact readValue_quote half fuel s rest
  | @array items plain back =>
      intro fuel rest h
      obtain ⟨fuel, rfl⟩ := Nat.exists_eq_succ_of_ne_zero (Nat.ne_of_gt (Nat.zero_lt_of_lt h))
      rw [write] at h ⊢
      cases items with
      | nil => rfl
      | cons item items =>
          obtain ⟨c, cs, hwrite, hne, _⟩ := (plain item List.mem_cons_self).head_write
          have hhead : ∃ cs', writeItems (item :: items) ++ ']' :: rest = c :: cs' := by
            cases items with
            | nil => exact ⟨_, by rw [writeItems, hwrite]; rfl⟩
            | cons => exact ⟨_, by rw [writeItems_cons_cons, hwrite]; rfl⟩
          rw [List.length_cons, List.length_append, List.length_singleton] at h
          have hread := @readItems_write half _ _ plain back fuel rest (by omega)
          rw [List.cons_append, List.append_assoc, List.singleton_append, readValue,
            skipBlanks_writeItems (plain item List.mem_cons_self)]
          split
          · next heq =>
              obtain ⟨cs', hcs⟩ := hhead
              rw [hcs] at heq
              exact absurd (List.cons.inj heq).1 hne
          · rw [hread]
            rfl
  | @object fields plain back =>
      intro fuel rest h
      obtain ⟨fuel, rfl⟩ := Nat.exists_eq_succ_of_ne_zero (Nat.ne_of_gt (Nat.zero_lt_of_lt h))
      rw [write] at h ⊢
      cases fields with
      | nil => rfl
      | cons field fields =>
          obtain ⟨cs, hcs⟩ := writeFields_cons field fields
          rw [List.length_cons, List.length_append, List.length_singleton] at h
          have hread := @readFields_write half _ _ plain back fuel rest (by omega)
          rw [List.cons_append, List.append_assoc, List.singleton_append]
          rw [hcs, List.cons_append] at hread
          rw [hcs, List.cons_append]
          show (readFields half fuel ('"' :: (cs ++ '}' :: rest))).map _ = _
          rw [hread]
          rfl

/-- A value is read back. -/
theorem loads_write {value : Json} (h : value.Numberless) :
  loads half (write value) = some value
  := by
  have hskip := h.skipBlanks_write []
  have back : readValue half ((write value).length + 1) (write value ++ []) = some (value, []) :=
    h.readBack _ [] (Nat.lt_succ_self _)
  rw [List.append_nil] at hskip back
  rw [loads, hskip, back]
  rfl

end Json
