import Mathlib.Data.List.Basic
import Mathlib.Tactic.Common

/-!
# Base 64 for URLs

Bytes are written in base 64 with an alphabet that is safe in a URL: three bytes make four
characters, and what is left over is padded with `=` to a multiple of four. The reader skips
characters that are not in the alphabet, and stops at the padding. Whoever strips the padding
can put it back, because the length tells how much it was.
-/

set_option autoImplicit false

namespace Base64

/-! ### Digits -/

def alphabet : List Char :=
  "ABCDEFGHIJKLMNOPQRSTUVWXYZabcdefghijklmnopqrstuvwxyz0123456789-_".toList

/-- The character of a digit. -/
def digit (n : ℕ) : Char := alphabet.getD n '='

/-- The digit of a character; the ordinary alphabet is read as well. -/
def value (c : Char) : Option ℕ :=
  if c = '+' then some 62
  else if c = '/' then some 63
  else alphabet.findIdx? (· = c)

/-- The 64 digits are read as what they are written for, and are not the padding. -/
theorem value_digit {n : ℕ} (h : n < 64) :
  value (digit n) = some n ∧ digit n ≠ '='
  := by
  have all : ∀ m < 64, value (digit m) = some m ∧ digit m ≠ '=' := by decide +kernel
  exact all n h

/-! ### Writing -/

/-- The characters of some bytes, without the padding. -/
def body : List UInt8 → List Char
  | [] => []
  | [a] => [digit (a.toNat / 4), digit (a.toNat % 4 * 16)]
  | [a, b] =>
      [digit (a.toNat / 4), digit (a.toNat % 4 * 16 + b.toNat / 16), digit (b.toNat % 16 * 4)]
  | a :: b :: c :: rest =>
      digit (a.toNat / 4) :: digit (a.toNat % 4 * 16 + b.toNat / 16)
        :: digit (b.toNat % 16 * 4 + c.toNat / 64) :: digit (c.toNat % 64) :: body rest

/-- The padding that brings a length to a multiple of four. -/
def padding (length : ℕ) : List Char := List.replicate ((4 - length % 4) % 4) '='

/-- The characters of some bytes. -/
def encode (bytes : List UInt8) : List Char :=
  body bytes ++ padding (body bytes).length

/-! ### Reading -/

/-- Read characters when `quad` of a group of four are read already, `pads` signs of padding
were seen after them, and `left` is what is left over of them. -/
def scan (quad pads left : ℕ) : List Char → Option (List UInt8)
  | [] => if quad = 0 then some [] else none
  | c :: cs =>
      if c = '=' then
        if 2 ≤ quad ∧ 4 ≤ quad + (pads + 1) then some []
        else scan quad (if 2 ≤ quad then pads + 1 else pads) left cs
      else
        match value c with
        | none => scan quad pads left cs
        | some v =>
            match quad with
            | 0 => scan 1 0 v cs
            | 1 => (UInt8.ofNat (left * 4 + v / 16) :: ·) <$> scan 2 0 (v % 16) cs
            | 2 => (UInt8.ofNat (left * 16 + v / 4) :: ·) <$> scan 3 0 (v % 4) cs
            | _ => (UInt8.ofNat (left * 64 + v) :: ·) <$> scan 0 0 0 cs

/-- The bytes that some characters stand for, if they are characters of ASCII. -/
def decode (cs : List Char) : Option (List UInt8) :=
  if cs.all fun c => c.toNat < 128 then scan 0 0 0 cs else none

/-! ### Reading what was written -/

section Scan

variable {left pads v : ℕ} {cs : List Char}

theorem scan_zero (h : v < 64) :
  scan 0 pads left (digit v :: cs) = scan 1 0 v cs
  := by
  rw [scan, if_neg (value_digit h).2, (value_digit h).1]
  rfl

theorem scan_one (h : v < 64) :
  scan 1 pads left (digit v :: cs)
    = (UInt8.ofNat (left * 4 + v / 16) :: ·) <$> scan 2 0 (v % 16) cs
  := by
  rw [scan, if_neg (value_digit h).2, (value_digit h).1]
  rfl

theorem scan_two (h : v < 64) :
  scan 2 pads left (digit v :: cs)
    = (UInt8.ofNat (left * 16 + v / 4) :: ·) <$> scan 3 0 (v % 4) cs
  := by
  rw [scan, if_neg (value_digit h).2, (value_digit h).1]
  rfl

theorem scan_three (h : v < 64) :
  scan 3 pads left (digit v :: cs) = (UInt8.ofNat (left * 64 + v) :: ·) <$> scan 0 0 0 cs
  := by
  rw [scan, if_neg (value_digit h).2, (value_digit h).1]
  rfl

theorem ofNat_eq {a : UInt8} {n : ℕ} (h : n = a.toNat) :
  UInt8.ofNat n = a
  := by
  rw [h, UInt8.ofNat_toNat]

end Scan

/-- Reading what was written gives the bytes back. -/
theorem scan_encode (bytes : List UInt8) :
  scan 0 0 0 (encode bytes) = some bytes
  := by
  induction bytes using body.induct with
  | case1 => rfl
  | case2 a =>
      have ha := a.toNat_lt
      have hpad : padding (body [a]).length = ['=', '='] := rfl
      rw [encode, hpad, body, List.cons_append, List.cons_append, scan_zero (by omega),
        scan_one (by omega), ofNat_eq (a := a) (by omega)]
      rfl
  | case3 a b =>
      have ha := a.toNat_lt
      have hb := b.toNat_lt
      have hpad : padding (body [a, b]).length = ['='] := rfl
      rw [encode, hpad, body, List.cons_append, List.cons_append, List.cons_append,
        scan_zero (by omega), scan_one (by omega), scan_two (by omega), ofNat_eq (a := a) (by omega),
        ofNat_eq (a := b) (by omega)]
      rfl
  | case4 a b c rest ih =>
      have ha := a.toNat_lt
      have hb := b.toNat_lt
      have hc := c.toNat_lt
      have hpad : padding (body (a :: b :: c :: rest)).length = padding (body rest).length := by
        simp only [body, List.length_cons, padding]
        rw [show (body rest).length + 1 + 1 + 1 + 1 = (body rest).length + 4 by rfl,
          Nat.add_mod_right]
      rw [encode, hpad, body, List.cons_append, List.cons_append, List.cons_append,
        List.cons_append, scan_zero (by omega), scan_one (by omega), scan_two (by omega),
        scan_three (by omega), ofNat_eq (a := a) (by omega), ofNat_eq (a := b) (by omega),
        ofNat_eq (a := c) (by omega)]
      rw [encode] at ih
      rw [ih]
      rfl

/-- Some bytes make some characters. -/
theorem body_ne_nil {bytes : List UInt8} (h : bytes ≠ []) :
  body bytes ≠ []
  := by
  cases bytes using body.induct with
  | case1 => exact absurd rfl h
  | case2 | case3 | case4 => exact List.cons_ne_nil _ _

/-- All characters that are written are in the alphabet. -/
theorem mem_body {bytes : List UInt8} {c : Char} (h : c ∈ body bytes) :
  c ∈ alphabet
  := by
  have mem : ∀ n < 64, digit n ∈ alphabet := by decide +kernel
  induction bytes using body.induct with
  | case1 => cases h
  | case2 a =>
      have ha := a.toNat_lt
      simp only [body, List.mem_cons, List.not_mem_nil, or_false] at h
      rcases h with rfl | rfl
      · exact mem _ (by omega)
      · exact mem _ (by omega)
  | case3 a b =>
      have ha := a.toNat_lt
      have hb := b.toNat_lt
      simp only [body, List.mem_cons, List.not_mem_nil, or_false] at h
      rcases h with rfl | rfl | rfl
      · exact mem _ (by omega)
      · exact mem _ (by omega)
      · exact mem _ (by omega)
  | case4 a b c rest ih =>
      have ha := a.toNat_lt
      have hb := b.toNat_lt
      have hc := c.toNat_lt
      simp only [body, List.mem_cons] at h
      rcases h with rfl | rfl | rfl | rfl | h
      · exact mem _ (by omega)
      · exact mem _ (by omega)
      · exact mem _ (by omega)
      · exact mem _ (by omega)
      · exact ih h

/-- The bytes are read back. -/
theorem decode_encode (bytes : List UInt8) :
  decode (encode bytes) = some bytes
  := by
  have ascii : alphabet.all (·.toNat < 128) = true := by decide +kernel
  rw [decode, if_pos, scan_encode]
  rw [List.all_eq_true]
  intro c hc
  rw [decide_eq_true_eq]
  rw [encode, List.mem_append] at hc
  rcases hc with hc | hc
  · exact of_decide_eq_true (List.all_eq_true.mp ascii c (mem_body hc))
  · rw [padding, List.mem_replicate] at hc
    rw [hc.2]
    decide

/-- Stripping the padding leaves the characters of the bytes. -/
theorem strip_encode (bytes : List UInt8) :
  ((encode bytes).reverse.dropWhile (· = '=')).reverse = body bytes
  := by
  have none : ∀ c ∈ body bytes, c ≠ '=' := by
    intro c hc heq
    have hmem := mem_body hc
    rw [heq] at hmem
    exact absurd hmem (by decide)
  have stop : (body bytes).reverse.dropWhile (· = '=') = (body bytes).reverse := by
    cases hrev : (body bytes).reverse with
    | nil => rfl
    | cons c cs =>
        have hc : c ∈ body bytes := by
          rw [← List.mem_reverse, hrev]
          exact List.mem_cons_self
        rw [List.dropWhile_cons_of_neg (by simpa using none c hc)]
  have drop : ∀ n, (List.replicate n '=' ++ (body bytes).reverse).dropWhile (· = '=')
      = (body bytes).reverse := by
    intro n
    induction n with
    | zero => rw [List.replicate_zero, List.nil_append, stop]
    | succ n ih => rw [List.replicate_succ, List.cons_append, List.dropWhile_cons_of_pos rfl, ih]
  rw [encode, List.reverse_append, padding, List.reverse_replicate, drop, List.reverse_reverse]

end Base64
