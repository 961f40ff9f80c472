import Mathlib.Data.Nat.Digits.Defs
import Mathlib.Data.Rat.Init
import Mathlib.Algebra.Order.Ring.Unbundled.Rat
import Mathlib.Algebra.Field.Rat
import Mathlib.Tactic.Common
import Mathlib.Tactic.NormNum
import Mathlib.Tactic.Ring

/-!
# Decimal numerals

Natural numbers are written with as many digits as they need, or with a fixed number of
them, and read digit by digit. A decimal number has a sign, digits before and after a point,
and an exponent; it can also be infinite, or not a number. The numbers of a database, with
these two, are in a total order. Numbers with two digits after the point are read back as they
were written.
-/

set_option autoImplicit false

namespace Numeral

/-! ### Digits -/

def digit (n : ℕ) : Char := ['0', '1', '2', '3', '4', '5', '6', '7', '8', '9'].getD n '0'

/-- The value of a digit. -/
def value (c : Char) : Option ℕ :=
  if c.isDigit then some (c.toNat - '0'.toNat) else none

theorem value_digit {n : ℕ} (h : n < 10) :
  value (digit n) = some n
  := by
  have all : ∀ m < 10, value (digit m) = some m := by decide
  exact all n h

/-- The digits are ten characters in a row. -/
theorem toNat_of_isSome {c : Char} (h : (value c).isSome) :
  48 ≤ c.toNat ∧ c.toNat ≤ 57
  := by
  rw [value] at h
  split at h
  · next hdigit =>
      simp only [Char.isDigit, Bool.and_eq_true, decide_eq_true_eq] at hdigit
      exact hdigit
  · cases h

/-- The number that some digits stand for, after the number `first`. -/
def number (first : ℕ) : List Char → Option ℕ
  | [] => some first
  | c :: cs => (value c).bind fun d => number (10 * first + d) cs

/-- Read as many digits as there are. -/
def span (cs : List Char) : List Char × List Char :=
  (cs.takeWhile fun c => (value c).isSome, cs.dropWhile fun c => (value c).isSome)

/-- Read a given number of digits. -/
def take : ℕ → List Char → Option (ℕ × List Char)
  | w, cs => if w ≤ cs.length then (number 0 (cs.take w)).map fun n => (n, cs.drop w) else none

/-! ### A fixed number of digits -/

/-- The last `w` digits of a number. -/
def fixed : ℕ → ℕ → List Char
  | 0, _ => []
  | w + 1, n => fixed w (n / 10) ++ [digit (n % 10)]

@[simp]
theorem length_fixed (w n : ℕ) :
  (fixed w n).length = w
  := by
  induction w generalizing n with
  | zero => rfl
  | succ w ih => rw [fixed, List.length_append, ih, List.length_singleton]

theorem number_append (first : ℕ) (cs cs' : List Char) :
  number first (cs ++ cs') = (number first cs).bind fun n => number n cs'
  := by
  induction cs generalizing first with
  | nil => rfl
  | cons c cs ih =>
      rw [List.cons_append, number, number]
      cases value c with
      | none => rfl
      | some d => exact ih _

theorem number_fixed {w n : ℕ} (h : n < 10 ^ w) :
  number 0 (fixed w n) = some n
  := by
  induction w generalizing n with
  | zero =>
      obtain rfl : n = 0 := by simpa using h
      rfl
  | succ w ih =>
      have hn : n / 10 < 10 ^ w := by
        rw [Nat.div_lt_iff_lt_mul (by decide), ← Nat.pow_succ]
        exact h
      rw [fixed, number_append, ih hn, Option.bind_some, number,
        value_digit (Nat.mod_lt _ (by decide))]
      exact congrArg some (Nat.div_add_mod n 10)

/-- Reading as many digits as were written. -/
theorem take_fixed {w n : ℕ} (h : n < 10 ^ w) (rest : List Char) :
  take w (fixed w n ++ rest) = some (n, rest)
  := by
  have hle : w ≤ (fixed w n ++ rest).length := by simp
  rw [take, if_pos hle, List.take_left' (length_fixed w n), number_fixed h,
    List.drop_left' (length_fixed w n)]
  rfl

theorem isSome_value_fixed {w n : ℕ} {c : Char} (h : c ∈ fixed w n) :
  (value c).isSome
  := by
  induction w generalizing n with
  | zero => cases h
  | succ w ih =>
      rw [fixed, List.mem_append, List.mem_singleton] at h
      rcases h with h | rfl
      · exact ih h
      · rw [value_digit (Nat.mod_lt _ (by decide))]
        rfl

/-! ### As many digits as needed -/

/-- The digits of a natural number. -/
def natural (n : ℕ) : List Char :=
  if n = 0 then ['0'] else (Nat.digits 10 n).reverse.map digit

theorem number_natural (n : ℕ) :
  number 0 (natural n) = some n
  := by
  have key : ∀ ds : List ℕ, (∀ d ∈ ds, d < 10) →
      number 0 (ds.reverse.map digit) = some (Nat.ofDigits 10 ds) := by
    intro ds
    induction ds with
    | nil => exact fun _ => rfl
    | cons d ds ih =>
        intro hlt
        rw [List.reverse_cons, List.map_append, number_append,
          ih fun d' hd' => hlt d' (List.mem_cons_of_mem d hd'), Option.bind_some,
          List.map_singleton, number, value_digit (hlt d List.mem_cons_self), Nat.ofDigits_cons]
        exact congrArg some (Nat.add_comm _ _)
  rw [natural]
  split
  · next h => rw [h]; rfl
  · rw [key _ fun d hd => Nat.digits_lt_base (by decide) hd, Nat.ofDigits_digits]

theorem isSome_value_natural {n : ℕ} {c : Char} (h : c ∈ natural n) :
  (value c).isSome
  := by
  rw [natural] at h
  split at h
  · rw [List.mem_singleton.mp h]
    rfl
  · obtain ⟨d, hd, rfl⟩ := List.mem_map.mp h
    rw [value_digit (Nat.digits_lt_base (by decide) (List.mem_reverse.mp hd))]
    rfl

theorem natural_ne_nil (n : ℕ) :
  natural n ≠ []
  := by
  rw [natural]
  split
  · exact List.cons_ne_nil _ _
  · next h =>
      rw [ne_eq, List.map_eq_nil_iff, List.reverse_eq_nil_iff]
      exact fun hnil => h (Nat.digits_eq_nil_iff_eq_zero.mp hnil)

/-- Reading as many digits as there are stops where something else begins. -/
theorem span_append {cs : List Char} (digits : ∀ c ∈ cs, (value c).isSome) {rest : List Char}
    (stop : ∀ c ∈ rest.head?, value c = none) :
  span (cs ++ rest) = (cs, rest)
  := by
  have htake : (cs ++ rest).takeWhile (fun c => (value c).isSome) = cs := by
    rw [List.takeWhile_append_of_pos digits]
    cases rest with
    | nil => simp
    | cons c rest => rw [List.takeWhile_cons_of_neg (by simp [stop c rfl]), List.append_nil]
  have hdrop : (cs ++ rest).dropWhile (fun c => (value c).isSome) = rest := by
    rw [List.dropWhile_append_of_pos digits]
    cases rest with
    | nil => rfl
    | cons c rest => rw [List.dropWhile_cons_of_neg (by simp [stop c rfl])]
  rw [span, htake, hdrop]

end Numeral

/-! ### Decimal numbers -/

/-- A decimal number as a database column stores it. -/
inductive Decimal where
  | finite (value : ℚ)
  | infinite (negative : Bool)
  | nan
deriving DecidableEq

namespace Decimal

open Numeral

/-! ### The order -/

/-- The kinds of numbers in order: a number that is none comes last. -/
def rank : Decimal → ℕ
  | .infinite true => 0
  | .finite _ => 1
  | .infinite false => 2
  | .nan => 3

/-- The order of a database on decimal numbers. -/
def lt : Decimal → Decimal → Bool
  | .finite a, .finite b => a < b
  | a, b => a.rank < b.rank

theorem lt_irrefl (a : Decimal) :
  ¬ a.lt a = true
  := by
  cases a with
  | finite a => simp [lt]
  | infinite negative => cases negative with
    | _ => decide
  | nan => decide

theorem lt_trans {a b c : Decimal} (hab : a.lt b = true) (hbc : b.lt c = true) :
  a.lt c = true
  := by
  rcases a with a | (_ | _) | _
  all_goals rcases b with b | (_ | _) | _
  all_goals rcases c with c | (_ | _) | _
  all_goals simp_all [lt, rank]
  exact hab.trans hbc

theorem lt_trichotomous {a b : Decimal} (hab : ¬ a.lt b = true) (hba : ¬ b.lt a = true) :
  a = b
  := by
  rcases a with a | (_ | _) | _
  all_goals rcases b with b | (_ | _) | _
  all_goals simp_all [lt, rank]
  exact le_antisymm hba hab

/-! ### Writing and reading -/

/-- The digits of a number of hundredths, with a point before the last two. -/
def showHundredths (n : ℤ) : List Char :=
  (if n < 0 then ['-'] else [])
    ++ (natural (n.natAbs / 100) ++ '.' :: fixed 2 (n.natAbs % 100))

/-- A number with two digits after the point. -/
def str : Decimal → List Char
  | .finite value => showHundredths (value * 100).floor
  | .infinite negative => if negative then "-Infinity".toList else "Infinity".toList
  | .nan => "NaN".toList

/-- Whether a text has the sign of a negative number, and what comes after the sign. -/
def splitSign : List Char → Bool × List Char
  | '-' :: cs => (true, cs)
  | '+' :: cs => (false, cs)
  | cs => (false, cs)

/-- The exponent of a numeral, and nothing after it. -/
def exponent : List Char → Option ℤ
  | [] => some 0
  | c :: cs =>
      let (negative, digits) := splitSign cs
      if (c = 'e' ∨ c = 'E') ∧ digits ≠ [] then
        (number 0 digits).map fun n => if negative then -n else n
      else none

/-- Whether there is a number with `n` for its digits and the exponent `e`. -/
def Fits (n : ℕ) (e : ℤ) : Prop :=
  -1999999999999999997 ≤ e ∧ e + (natural n).length ≤ 1000000000000000000

instance (n : ℕ) (e : ℤ) : Decidable (Fits n e) := inferInstanceAs (Decidable (_ ∧ _))

/-- A numeral without a sign. An exponent that is written can be too large or too small. -/
def unsigned (cs : List Char) : Option ℚ :=
  let (whole, rest) := span cs
  let (fraction, rest) := match rest with
    | '.' :: rest => span rest
    | rest => ([], rest)
  if whole = [] ∧ fraction = [] then none
  else do
    let n ← number 0 (whole ++ fraction)
    let e ← exponent rest
    if rest ≠ [] ∧ ¬ Fits n (e - fraction.length) then none
    else return n * 10 ^ (e - fraction.length)

/-- What comes after the sign: a numeral, an infinity, or no number. -/
def magnitude (negative : Bool) (cs : List Char) : Option Decimal :=
  let lower := cs.map Char.toLower
  if lower = "inf".toList ∨ lower = "infinity".toList then some (.infinite negative)
  else
    let quiet := if lower.head? = some 's' then lower.drop 1 else lower
    if quiet.take 3 = "nan".toList ∧ (quiet.drop 3).all Char.isDigit then some .nan
    else (unsigned cs).map fun value => .finite (if negative then -value else value)

/-- The number that a text stands for. -/
def parse (cs : List Char) : Option Decimal :=
  magnitude (splitSign cs).1 (splitSign cs).2

theorem unsigned_hundredths (m : ℕ) :
  unsigned (natural (m / 100) ++ '.' :: fixed 2 (m % 100)) = some (m / 100 : ℚ)
  := by
  have hwhole : span (natural (m / 100) ++ '.' :: fixed 2 (m % 100))
      = (natural (m / 100), '.' :: fixed 2 (m % 100)) := by
    refine span_append (fun c hc => isSome_value_natural hc) fun c hc => ?_
    obtain rfl : c = '.' := by simpa [eq_comm] using hc
    rfl
  have hfraction : span (fixed 2 (m % 100)) = (fixed 2 (m % 100), []) := by
    have : span (fixed 2 (m % 100) ++ []) = (fixed 2 (m % 100), []) :=
      span_append (fun c hc => isSome_value_fixed hc) (fun c hc => by cases hc)
    rwa [List.append_nil] at this
  have hnumber : number 0 (natural (m / 100) ++ fixed 2 (m % 100)) = some m := by
    have hdigits : ∀ first, number first (fixed 2 (m % 100))
        = some (100 * first + m % 100) := by
      intro first
      have h₁ : m % 100 / 10 % 10 < 10 := Nat.mod_lt _ (by decide)
      have h₂ : m % 100 % 10 < 10 := Nat.mod_lt _ (by decide)
      simp only [fixed, List.nil_append, List.cons_append, number, value_digit h₁,
        value_digit h₂, Option.bind_some, Option.some.injEq]
      omega
    rw [number_append, number_natural, Option.bind_some, hdigits, Nat.div_add_mod]
  have hne : ¬ (natural (m / 100) = [] ∧ fixed 2 (m % 100) = []) :=
    fun h => natural_ne_nil _ h.1
  rw [unsigned, hwhole]
  simp only [hfraction, if_neg hne, hnumber, exponent, length_fixed]
  simp only [Option.bind_eq_bind, Option.bind_some, Option.pure_def]
  rw [div_eq_mul_inv]
  norm_num

/-- A numeral that begins with a digit is read as a number. -/
theorem parse_digit {c : Char} (digit : (value c).isSome) (cs : List Char) (sign : List Char)
    (negative : Bool) (hsign : sign = if negative then ['-'] else []) :
  parse (sign ++ c :: cs)
    = (unsigned (c :: cs)).map fun value => .finite (if negative then -value else value)
  := by
  have hdigit : c.isDigit = true := by
    by_contra h
    rw [value, if_neg h] at digit
    cases digit
  have hlower : c.toLower = c := by
    simp only [Char.isDigit, Bool.and_eq_true, decide_eq_true_eq] at hdigit
    delta Char.toLower
    grind
  have hcases : ∀ d : Char, d.isDigit = false → c ≠ d := by
    rintro d hd rfl
    rw [hdigit] at hd
    cases hd
  have hi := hcases 'i' rfl
  have hn := hcases 'n' rfl
  have hs := hcases 's' rfl
  have hminus := hcases '-' rfl
  have hplus := hcases '+' rfl
  have hsplit : splitSign (sign ++ c :: cs) = (negative, c :: cs) := by
    subst hsign
    cases negative with
    | true => rfl
    | false =>
        rw [if_neg Bool.false_ne_true, List.nil_append, splitSign]
        · rintro _ ⟨⟩
          exact hminus rfl
        · rintro _ ⟨⟩
          exact hplus rfl
  rw [parse, hsplit, magnitude]
  simp [hlower, hi, hn, hs]

/-- A number with two digits after the point is read back. -/
theorem parse_showHundredths (n : ℤ) :
  parse (showHundredths n) = some (.finite (n / 100 : ℚ))
  := by
  obtain ⟨c, cs, hcs⟩ := List.exists_cons_of_ne_nil (natural_ne_nil (n.natAbs / 100))
  have hdigit : (value c).isSome := isSome_value_natural (hcs ▸ List.mem_cons_self)
  have hunsigned := unsigned_hundredths n.natAbs
  rw [hcs, List.cons_append] at hunsigned
  rw [showHundredths, hcs, List.cons_append,
    parse_digit hdigit _ _ (decide (n < 0)) (by simp only [decide_eq_true_eq]), hunsigned,
    Option.map_some]
  congr 2
  rcases lt_or_ge n 0 with hneg | hpos
  · have habs : (n.natAbs : ℚ) = -n := by
      rw [← Int.cast_natCast, Int.ofNat_natAbs_of_nonpos hneg.le, Int.cast_neg]
    rw [if_pos (decide_eq_true hneg), habs]
    ring
  · have habs : (n.natAbs : ℚ) = n := by
      rw [← Int.cast_natCast, Int.natAbs_of_nonneg hpos]
    rw [if_neg (by simpa using hpos), habs]

/-- A number of hundredths is written as its numeral. -/
theorem str_hundredths (n : ℤ) :
  str (.finite (n / 100)) = showHundredths n
  := by
  rw [str, div_mul_cancel₀ _ (by norm_num), Rat.floor_intCast]

/-- A numeral has digits, a sign and a point. -/
theorem mem_showHundredths {n : ℤ} {c : Char} (h : c ∈ showHundredths n) :
  (value c).isSome ∨ c = '-' ∨ c = '.'
  := by
  rw [showHundredths, List.mem_append, List.mem_append, List.mem_cons] at h
  rcases h with h | h | rfl | h
  · split at h
    · exact Or.inr (Or.inl (List.mem_singleton.mp h))
    · cases h
  · exact Or.inl (isSome_value_natural h)
  · exact Or.inr (Or.inr rfl)
  · exact Or.inl (isSome_value_fixed h)

end Decimal
