import MvpApi.Database.Products

/-!
# Searching is literal

The pattern of a search matches the texts that contain what was searched for, whichever
characters that has: those with a meaning in a pattern are escaped. The case of the pattern and
of the texts is folded alike before they are compared, and folding keeps apart the characters
with a meaning and all others.
-/

set_option autoImplicit false

namespace MvpApi

/-- The characters with a meaning in a pattern. -/
def IsWildcard (c : Char) : Prop := c = '\\' ∨ c = '%' ∨ c = '_'

instance (c : Char) : Decidable (IsWildcard c) := inferInstanceAs (Decidable (_ ∨ _))

/-- Folding the case fixes the characters with a meaning and maps nothing else to them. -/
structure KeepsWildcards (foldCase : Char → Char) : Prop where
  fixes : ∀ c, IsWildcard c → foldCase c = c
  only : ∀ c, IsWildcard (foldCase c) → IsWildcard c

/-! ### Escaping -/

/-- A character as it stands in a pattern that matches it alone. -/
def escapeChar (c : Char) : List Char := if IsWildcard c then ['\\', c] else [c]

/-- A text as it stands in a pattern that matches it alone. -/
def escape (s : List Char) : List Char := s.flatMap escapeChar

/-- Replacing in a text that goes on replaces in each part. -/
theorem replaceChar_append {c : Char} {by' s t : List Char} :
  replaceChar c by' (s ++ t) = replaceChar c by' s ++ replaceChar c by' t
  := List.flatMap_append

/-- The three replacements, in their order, escape each character once. -/
theorem replaceChar_escape {s : List Char} :
  replaceChar '_' ['\\', '_'] (replaceChar '%' ['\\', '%'] (replaceChar '\\' ['\\', '\\'] s))
    = escape s
  := by
  induction s with
  | nil => rfl
  | cons c s ih =>
      have hsplit : c :: s = [c] ++ s := rfl
      rw [hsplit, replaceChar_append, replaceChar_append, replaceChar_append, ih, escape, escape,
        List.flatMap_append]
      congr 1
      by_cases hb : c = '\\'
      · subst hb
        decide
      by_cases hp : c = '%'
      · subst hp
        decide
      by_cases hu : c = '_'
      · subst hu
        decide
      simp [replaceChar, escapeChar, IsWildcard, hb, hp, hu]

/-- The pattern of a search is the escaped text between two signs for any text. -/
theorem searchPattern_eq {search : String} :
  searchPattern search = '%' :: escape search.toList ++ ['%']
  := by
  rw [searchPattern, replaceChar_escape]

/-! ### Matching -/

/-- The sign for any text matches it, whatever precedes what the rest of the pattern matches. -/
theorem like_percent {pattern text : List Char} :
  like ('%' :: pattern) text = true
    ↔ ∃ before rest, text = before ++ rest ∧ like pattern rest = true
  := by
  rw [like, List.any_eq_true]
  constructor
  · rintro ⟨rest, hrest, hlike⟩
    obtain ⟨before, rfl⟩ := (List.mem_tails _ _).mp hrest
    exact ⟨before, rest, rfl, hlike⟩
  · rintro ⟨before, rest, rfl, hlike⟩
    exact ⟨rest, (List.mem_tails _ _).mpr ⟨before, rfl⟩, hlike⟩

/-- An escaped character matches itself. -/
theorem like_escaped {c : Char} {pattern text : List Char} :
  like ('\\' :: c :: pattern) text = true
    ↔ ∃ rest, text = c :: rest ∧ like pattern rest = true
  := by
  cases text with
  | nil => simp [like]
  | cons d rest =>
      simp only [like, Bool.and_eq_true, decide_eq_true_eq, List.cons.injEq]
      constructor
      · rintro ⟨rfl, h⟩
        exact ⟨rest, ⟨rfl, rfl⟩, h⟩
      · rintro ⟨_, ⟨rfl, rfl⟩, h⟩
        exact ⟨rfl, h⟩

/-- A character without a meaning matches itself. -/
theorem like_literal {c : Char} {pattern text : List Char} (h : ¬ IsWildcard c) :
  like (c :: pattern) text = true
    ↔ ∃ rest, text = c :: rest ∧ like pattern rest = true
  := by
  have hb : c ≠ '\\' := fun heq => h (Or.inl heq)
  have hp : c ≠ '%' := fun heq => h (Or.inr (Or.inl heq))
  have hu : c ≠ '_' := fun heq => h (Or.inr (Or.inr heq))
  cases text with
  | nil => simp [like, hb]
  | cons d rest => simp [like, hb]

/-- An escaped text, folded, matches the folded text. -/
theorem like_escape {foldCase : Char → Char} (keeps : KeepsWildcards foldCase)
    {s pattern text : List Char} :
  like ((escape s).map foldCase ++ pattern) text = true
    ↔ ∃ rest, text = s.map foldCase ++ rest ∧ like pattern rest = true
  := by
  induction s generalizing text with
  | nil => simp [escape]
  | cons c s ih =>
      have hcons : (escape (c :: s)).map foldCase ++ pattern
          = (escapeChar c).map foldCase ++ ((escape s).map foldCase ++ pattern) := by
        simp [escape]
      have hchar : like ((escapeChar c).map foldCase ++ ((escape s).map foldCase ++ pattern)) text
          = true ↔ ∃ rest, text = foldCase c :: rest
            ∧ like ((escape s).map foldCase ++ pattern) rest = true := by
        unfold escapeChar
        split
        · next h =>
            have hb : foldCase '\\' = '\\' := keeps.fixes _ (Or.inl rfl)
            rw [List.map_cons, List.map_singleton, hb]
            exact like_escaped
        · next h => exact like_literal fun hc => h (keeps.only c hc)
      rw [hcons, hchar]
      constructor
      · rintro ⟨rest, rfl, h⟩
        obtain ⟨rest', rfl, h'⟩ := ih.mp h
        exact ⟨rest', rfl, h'⟩
      · rintro ⟨rest, rfl, h⟩
        exact ⟨_, rfl, ih.mpr ⟨rest, rfl, h⟩⟩

/-! ### Dangling escapes -/

/-- Whether a pattern ends in an escape with nothing to escape. -/
def dangling : List Char → Bool
  | [] => false
  | ['\\'] => true
  | '\\' :: _ :: pattern => dangling pattern
  | _ :: pattern => dangling pattern

/-- Only an escape can be left open. -/
theorem dangling_cons {c : Char} {pattern : List Char} (h : c ≠ '\\') :
  dangling (c :: pattern) = dangling pattern
  := by
  rw [dangling]
  · rintro rfl
    exact absurd rfl h
  · rintro d rest rfl
    exact absurd rfl h

/-- An escaped text leaves no escape open. -/
theorem dangling_escape {foldCase : Char → Char} (keeps : KeepsWildcards foldCase)
    {s pattern : List Char} :
  dangling ((escape s).map foldCase ++ pattern) = dangling pattern
  := by
  induction s with
  | nil => rfl
  | cons c s ih =>
      have hcons : (escape (c :: s)).map foldCase ++ pattern
          = (escapeChar c).map foldCase ++ ((escape s).map foldCase ++ pattern) := by
        simp [escape]
      rw [hcons, ← ih]
      unfold escapeChar
      split
      · next h =>
          have hb : foldCase '\\' = '\\' := keeps.fixes _ (Or.inl rfl)
          rw [List.map_cons, List.map_singleton, hb]
          rfl
      · next h =>
          have hb : foldCase c ≠ '\\' := fun heq => h (keeps.only c (Or.inl heq))
          rw [List.map_singleton, List.singleton_append, dangling_cons hb]

/-! ### Search -/

/-- A text matches the pattern of a search exactly if it contains what was searched for, up to
the case of both, and the pattern does not end in a dangling escape. -/
theorem search_literal {foldCase : Char → Char} (keeps : KeepsWildcards foldCase)
    (search text : String) :
  (ilike foldCase text (searchPattern search) = true
      ↔ search.toList.map foldCase <:+: text.toList.map foldCase)
    ∧ dangling (searchPattern search) = false
    ∧ dangling ((searchPattern search).map foldCase) = false
  := by
  have hp : foldCase '%' = '%' := keeps.fixes _ (Or.inr (Or.inl rfl))
  have hpattern : (searchPattern search).map foldCase
      = '%' :: ((escape search.toList).map foldCase ++ ['%']) := by
    simp [searchPattern_eq, hp]
  have hid : KeepsWildcards id := ⟨fun _ _ => rfl, fun _ h => h⟩
  refine ⟨?_, ?_, ?_⟩
  · rw [ilike, hpattern, like_percent]
    constructor
    · rintro ⟨before, rest, htext, hlike⟩
      obtain ⟨after, rfl, _⟩ := (like_escape keeps).mp hlike
      exact ⟨before, after, by rw [htext, List.append_assoc]⟩
    · rintro ⟨before, after, htext⟩
      have hafter : like ['%'] after = true := like_percent.mpr ⟨after, [], by simp, rfl⟩
      exact ⟨before, search.toList.map foldCase ++ after, by rw [← htext, List.append_assoc],
        (like_escape keeps).mpr ⟨after, rfl, hafter⟩⟩
  · have h : dangling ((escape search.toList).map id ++ ['%']) = dangling ['%'] :=
      dangling_escape hid
    rw [List.map_id] at h
    rw [searchPattern_eq, List.cons_append, dangling_cons (by decide), h]
    rfl
  · rw [hpattern, dangling_cons (by decide), dangling_escape keeps]
    rfl

/-- Writing letters small keeps the characters with a meaning. -/
theorem keepsWildcards_toLower :
  KeepsWildcards Char.toLower
  where
  fixes := by
    rintro c (rfl | rfl | rfl) <;> decide
  only c h := by
    have hvals : '\\'.val = 92 ∧ '%'.val = 37 ∧ '_'.val = 95 := by decide
    simp only [IsWildcard, Char.ext_iff] at *
    delta Char.toLower at h
    grind

/-- A search for `\% off` finds `50\% OFF`, and does not find `50% OFF`. -/
theorem search_literal_of_percent :
  ilike Char.toLower "50\\% OFF" (searchPattern "\\% off") = true
    ∧ ¬ ilike Char.toLower "50% OFF" (searchPattern "\\% off") = true
  := by
  constructor
  · exact (search_literal keepsWildcards_toLower _ _).1.mpr (by decide +kernel)
  · intro h
    exact absurd ((search_literal keepsWildcards_toLower _ _).1.mp h) (by decide +kernel)

end MvpApi
