import MvpApi.Library.Numeral

/-!
# Dates and times in ISO 8601

A point in time is a number of microseconds since the beginning of 1970, UTC. Dates are those
of the Gregorian calendar extended to the past, from the year 1 to the year 9999; the ordinal
of a date counts the days, and is 1 on the first day of the year 1. `isoformat` writes a point
in time, and `fromisoformat` reads the formats of ISO 8601: dates with a month or a week, with
or without separators, a time of the day and an offset from UTC. What was written is read back.
-/

set_option autoImplicit false

namespace Calendar

open Numeral

/-! ### Ordinals -/

def isLeap (year : ℕ) : Bool := year % 4 = 0 && (year % 100 ≠ 0 || year % 400 = 0)

def monthLengths (leap : Bool) : List ℕ :=
  [31, if leap then 29 else 28, 31, 30, 31, 30, 31, 31, 30, 31, 30, 31]

/-- The number of days before a year. -/
def daysBeforeYear (year : ℕ) : ℕ :=
  (year - 1) * 365 + (year - 1) / 4 - (year - 1) / 100 + (year - 1) / 400

/-- A date: the year, the month and the day, all counted from 1. -/
structure Date where
  year : ℕ
  month : ℕ
  day : ℕ
deriving DecidableEq, Repr

/-- The number of days before a month of the months of a list. -/
def daysBefore (lengths : List ℕ) (month : ℕ) : ℕ := (lengths.take (month - 1)).sum

/-- The ordinal of a date, if there is such a date. -/
def ordinal (date : Date) : Option ℕ :=
  let lengths := monthLengths (isLeap date.year)
  if 1 ≤ date.year ∧ date.year ≤ 9999 ∧ 1 ≤ date.month ∧ date.month ≤ 12 ∧ 1 ≤ date.day
      ∧ date.day ≤ lengths.getD (date.month - 1) 0 then
    some (daysBeforeYear date.year + daysBefore lengths date.month + date.day)
  else none

/-- The month and the day of a day of the year, counted from 0. -/
def monthDay : ℕ → List ℕ → ℕ → ℕ × ℕ
  | month, [], day => (month, day + 1)
  | month, length :: lengths, day =>
      if day < length then (month, day + 1) else monthDay (month + 1) lengths (day - length)

/-- The year of an ordinal, and the day of the year, counted from 0. -/
def yearDay (n : ℕ) : ℕ × ℕ :=
  let n := n - 1
  let n400 := n / 146097
  let n := n % 146097
  let n100 := n / 36524
  let n := n % 36524
  let n4 := n / 1461
  let n := n % 1461
  let n1 := n / 365
  let day := n % 365
  let year := n400 * 400 + n100 * 100 + n4 * 4 + n1 + 1
  -- The last day of a leap year is counted as a day of the year after.
  if n100 = 4 ∨ n1 = 4 then (year - 1, 365) else (year, day)

/-- The date of an ordinal. -/
def date (n : ℕ) : Date :=
  let year := (yearDay n).1
  let monthDay := monthDay 1 (monthLengths (isLeap year)) (yearDay n).2
  ⟨year, monthDay.1, monthDay.2⟩

/-- The ordinals of the dates. -/
def lastOrdinal : ℕ := 3652059

/-- The days before a year, counted by centuries and by groups of four years. -/
theorem daysBeforeYear_eq (n400 n100 n4 n1 : ℕ) (h100 : n100 ≤ 3) (h4 : n4 ≤ 24)
    (h1 : n1 ≤ 3) :
  daysBeforeYear (n400 * 400 + n100 * 100 + n4 * 4 + n1 + 1)
    = n400 * 146097 + n100 * 36524 + n4 * 1461 + n1 * 365
  := by
  have hquarter : (n400 * 400 + n100 * 100 + n4 * 4 + n1) / 4 = n400 * 100 + n100 * 25 + n4 := by
    omega
  have hcentury : (n400 * 400 + n100 * 100 + n4 * 4 + n1) / 100 = n400 * 4 + n100 := by omega
  have hfour : (n400 * 400 + n100 * 100 + n4 * 4 + n1) / 400 = n400 := by omega
  rw [daysBeforeYear, Nat.add_sub_cancel, hquarter, hcentury, hfour]
  omega

/-- The days of a year. -/
theorem sum_monthLengths (leap : Bool) :
  (monthLengths leap).sum = if leap then 366 else 365
  := by
  cases leap with
  | _ => rfl

/-- The year of an ordinal begins before it, and is long enough. -/
theorem yearDay_spec {n : ℕ} (first : 1 ≤ n) (last : n ≤ lastOrdinal) :
  1 ≤ (yearDay n).1 ∧ (yearDay n).1 ≤ 9999
    ∧ daysBeforeYear (yearDay n).1 + (yearDay n).2 + 1 = n
    ∧ (yearDay n).2 < (monthLengths (isLeap (yearDay n).1)).sum
  := by
  rw [lastOrdinal] at last
  generalize h400 : (n - 1) / 146097 = n400
  generalize h400' : (n - 1) % 146097 = m
  generalize h100 : m / 36524 = n100
  generalize h100' : m % 36524 = m'
  generalize h4 : m' / 1461 = n4
  generalize h4' : m' % 1461 = m''
  generalize h1 : m'' / 365 = n1
  generalize h1' : m'' % 365 = day
  have hyearDay : yearDay n = if n100 = 4 ∨ n1 = 4 then
      (n400 * 400 + n100 * 100 + n4 * 4 + n1 + 1 - 1, 365)
      else (n400 * 400 + n100 * 100 + n4 * 4 + n1 + 1, day) := by
    simp only [yearDay, h400, h400', h100, h100', h4, h4', h1, h1']
  have hle : n400 ≤ 24 ∧ n100 ≤ 4 ∧ n4 ≤ 24 ∧ n1 ≤ 4 := by omega
  obtain ⟨hle400, hle100, hle4, hle1⟩ := hle
  rw [hyearDay]
  split
  · next hend =>
      rw [Nat.add_sub_cancel]
      -- The year that ends is a multiple of four, and one of a century only of four centuries.
      have hleap : isLeap (n400 * 400 + n100 * 100 + n4 * 4 + n1) = true := by
        simp only [isLeap, Bool.and_eq_true, Bool.or_eq_true, decide_eq_true_eq]
        omega
      have hdays : daysBeforeYear (n400 * 400 + n100 * 100 + n4 * 4 + n1) + 365 + 1 = n := by
        rcases hend with rfl | rfl
        · have heq : n400 * 400 + 4 * 100 + n4 * 4 + n1
              = n400 * 400 + 3 * 100 + 24 * 4 + 3 + 1 := by omega
          have hyear := daysBeforeYear_eq n400 3 24 3 (le_refl 3) (le_refl 24) (le_refl 3)
          rw [← heq] at hyear
          omega
        · have hlt : n100 ≤ 3 := by omega
          have heq : n400 * 400 + n100 * 100 + n4 * 4 + 4
              = n400 * 400 + n100 * 100 + n4 * 4 + 3 + 1 := by omega
          have hyear := daysBeforeYear_eq n400 n100 n4 3 hlt hle4 (le_refl 3)
          rw [← heq] at hyear
          omega
      refine ⟨by omega, by omega, hdays, ?_⟩
      rw [hleap, sum_monthLengths]
      exact Nat.lt_succ_self 365
  · next hend =>
      obtain ⟨hne100, hne1⟩ := not_or.mp hend
      have hlt100 : n100 ≤ 3 := by omega
      have hlt1 : n1 ≤ 3 := by omega
      have hday : day < 365 := by omega
      refine ⟨by omega, by omega, ?_, ?_⟩
      · rw [daysBeforeYear_eq n400 n100 n4 n1 hlt100 hle4 hlt1]
        omega
      · rw [sum_monthLengths]
        split
        · exact Nat.lt_succ_of_lt hday
        · exact hday

/-- The month of a day begins before it, and is long enough. -/
theorem monthDay_spec {lengths : List ℕ} {day : ℕ} (h : day < lengths.sum) (month : ℕ) :
  ∃ i < lengths.length, (monthDay month lengths day).1 = month + i
    ∧ 1 ≤ (monthDay month lengths day).2
    ∧ (monthDay month lengths day).2 ≤ lengths.getD i 0
    ∧ (lengths.take i).sum + (monthDay month lengths day).2 = day + 1
  := by
  induction lengths generalizing day month with
  | nil => cases h
  | cons length lengths ih =>
      rw [monthDay]
      split
      · next hlt => exact ⟨0, Nat.succ_pos _, rfl, Nat.succ_pos _, hlt, Nat.zero_add _⟩
      · next hge =>
          have hrest : day - length < lengths.sum := by
            rw [List.sum_cons] at h
            omega
          obtain ⟨i, hi, hmonth, hpos, hle, hsum⟩ := ih hrest (month + 1)
          refine ⟨i + 1, Nat.succ_lt_succ hi, by omega, hpos, by simpa using hle, ?_⟩
          rw [List.take_succ_cons, List.sum_cons]
          omega

/-- The ordinal of the date of an ordinal. -/
theorem ordinal_date {n : ℕ} (first : 1 ≤ n) (last : n ≤ lastOrdinal) :
  ordinal (date n) = some n
  := by
  obtain ⟨hyear, hyear', hdays, hlt⟩ := yearDay_spec first last
  obtain ⟨i, hi, hmonth, hpos, hle, hsum⟩ := monthDay_spec hlt 1
  have hi' : i < 12 := hi
  have hindex : (date n).month - 1 = i := by
    show (monthDay 1 _ _).1 - 1 = i
    rw [hmonth]
    omega
  rw [ordinal, if_pos]
  · rw [daysBefore, hindex]
    show some (daysBeforeYear (yearDay n).1
      + (List.take i (monthLengths (isLeap (yearDay n).1))).sum + (monthDay 1 _ _).2) = some n
    rw [Nat.add_assoc, hsum, ← Nat.add_assoc, hdays]
  · refine ⟨hyear, hyear', ?_, ?_, hpos, ?_⟩
    · show 1 ≤ (monthDay 1 _ _).1
      omega
    · show (monthDay 1 _ _).1 ≤ 12
      omega
    · rw [hindex]
      exact hle

/-! ### Writing a point in time -/

/-- The number of microseconds of a day. -/
def dayLength : ℤ := 86400000000

/-- The ordinal of the first day of 1970. -/
def epoch : ℤ := 719163

/-- The ordinal of the day of a point in time. -/
def dayOf (t : ℤ) : ℕ := (t / dayLength + epoch).toNat

/-- The microseconds since the beginning of the day. -/
def sinceMidnight (t : ℤ) : ℕ := (t % dayLength).toNat

/-- The hours, minutes and seconds, and the fraction of a second if there is one. -/
def showClock (microseconds : ℕ) : List Char :=
  let seconds := microseconds / 1000000
  fixed 2 (seconds / 3600) ++ ':' :: (fixed 2 (seconds / 60 % 60) ++ ':' :: (fixed 2 (seconds % 60)
    ++ if microseconds % 1000000 = 0 then [] else '.' :: fixed 6 (microseconds % 1000000)))

def showDate (date : Date) : List Char :=
  fixed 4 date.year ++ '-' :: (fixed 2 date.month ++ '-' :: fixed 2 date.day)

/-- A point in time, with the offset of UTC. -/
def isoformat (t : ℤ) : List Char :=
  showDate (date (dayOf t)) ++ 'T' :: (showClock (sinceMidnight t) ++ "+00:00".toList)

/-- An offset from UTC: the hours and the minutes, and the rest of the clock if it is not zero. -/
def showOffset (offset : ℤ) : List Char :=
  let seconds := offset.natAbs / 1000000
  (if offset < 0 then '-' else '+')
    :: if offset.natAbs % 60000000 = 0 then
        fixed 2 (seconds / 3600) ++ ':' :: fixed 2 (seconds / 60 % 60)
      else showClock offset.natAbs

/-- A point in time, on a clock that is ahead of UTC by an offset. -/
def isoformatAt (offset t : ℤ) : List Char :=
  showDate (date (dayOf (t + offset)))
    ++ 'T' :: (showClock (sinceMidnight (t + offset)) ++ showOffset offset)

theorem isoformat_eq (t : ℤ) :
  isoformat t = isoformatAt 0 t
  := by
  have hoffset : showOffset 0 = "+00:00".toList := by decide
  rw [isoformat, isoformatAt, hoffset, add_zero]

/-! ### Reading a point in time -/

/-- Skip a separator, which must be there exactly if there was one before. -/
def skip (separator : Bool) (c : Char) (cs : List Char) : Option (List Char) :=
  if separator then
    match cs with
    | c' :: cs => if c' = c then some cs else none
    | [] => none
  else if cs.head? = some c then none else some cs

/-- The ordinal of the Monday of the first week of a year, which has its first Thursday. -/
def firstMonday (year : ℕ) : ℕ :=
  let first := daysBeforeYear year + 1
  let weekday := (first + 6) % 7
  if 3 < weekday then first - weekday + 7 else first - weekday

/-- The ordinal of a day of a week of a year. -/
def weekOrdinal (year week day : ℕ) : Option ℕ :=
  let weekday := (daysBeforeYear year + 1) % 7
  let weeks := if weekday = 4 ∨ (weekday = 3 ∧ isLeap year) then 53 else 52
  let n := firstMonday year + (week - 1) * 7 + (day - 1)
  if 1 ≤ year ∧ year ≤ 9999 ∧ 1 ≤ week ∧ week ≤ weeks ∧ 1 ≤ day ∧ day ≤ 7 ∧ n ≤ lastOrdinal then
    some n
  else none

/-- Read the ordinal of a date. -/
def readDate (cs : List Char) : Option ℕ := do
  let (year, cs) ← take 4 cs
  let separator := cs.head? = some '-'
  let cs ← skip separator '-' cs
  match cs with
  | 'W' :: cs => do
      let (week, cs) ← take 2 cs
      if cs = [] then weekOrdinal year week 1
      else do
        let cs ← skip separator '-' cs
        let (day, _) ← take 1 cs
        weekOrdinal year week day
  | cs => do
      let (month, cs) ← take 2 cs
      let cs ← skip separator '-' cs
      let (day, _) ← take 2 cs
      ordinal ⟨year, month, day⟩

/-- Where the date ends: a date with a week may be shorter than one with a month. -/
def dateLength (cs : List Char) : ℕ :=
  if cs.length = 7 then 7
  else
    match cs.drop 4 with
    | '-' :: 'W' :: cs =>
        match cs.drop 2 with
        | '-' :: _ :: c :: _ => if c.isDigit then 8 else 10
        | '-' :: _ => 10
        | _ => 8
    | '-' :: _ => 10
    | 'W' :: cs =>
        let digits := ((cs.drop 2).takeWhile Char.isDigit).length
        if digits < 2 then 7 + digits else if digits % 2 = 1 then 7 else 8
    | _ => 8

/-- Read one more part of a time of the day, if there is one. -/
def part (separator : Bool) (cs : List Char) : Option (ℕ × List Char) :=
  if cs = [] then some (0, [])
  else do
    let cs ← skip separator ':' cs
    take 2 cs

/-- Read the fraction of a second, of which six digits count. -/
def fraction : List Char → Option ℕ
  | [] => some 0
  | c :: cs =>
      if (c = '.' ∨ c = ',') ∧ cs ≠ [] ∧ cs.all Char.isDigit then
        (number 0 (cs.take 6)).map fun n => n * 10 ^ (6 - cs.length)
      else none

/-- Read the hours, minutes, seconds and microseconds of a time of the day. -/
def readClock (cs : List Char) : Option (ℕ × ℕ × ℕ × ℕ) := do
  let (hour, cs) ← take 2 cs
  let separator := cs.head? = some ':'
  let (minute, cs) ← part separator cs
  let (second, cs) ← part separator cs
  let microsecond ← fraction cs
  return (hour, minute, second, microsecond)

/-- The microseconds of a time of the day. -/
def microseconds : ℕ × ℕ × ℕ × ℕ → Option ℕ
  | (hour, minute, second, microsecond) =>
      if hour < 24 ∧ minute < 60 ∧ second < 60 then
        some (((hour * 60 + minute) * 60 + second) * 1000000 + microsecond)
      else none

/-- Read the offset from UTC, in microseconds; a time without one is one of UTC. -/
def readOffset : List Char → Option ℤ
  | [] => some 0
  | 'Z' :: cs => if cs = [] then some 0 else none
  | c :: cs => do
      let offset ← (readClock cs).bind microseconds
      return if c = '-' then -offset else offset

/-- Read a time of the day: the days to go on, and the microseconds since midnight, UTC. The
hour 24 is the midnight of the next day. -/
def readTime (cs : List Char) : Option (ℕ × ℤ) := do
  let zone := fun c => c = '+' ∨ c = '-' ∨ c = 'Z'
  let time ← readClock (cs.takeWhile fun c => ¬ zone c)
  let offset ← readOffset (cs.dropWhile fun c => ¬ zone c)
  if time = (24, 0, 0, 0) then return (1, -offset)
  else do
    let time ← microseconds time
    return (0, time - offset)

/-- Read a point in time. -/
def fromisoformat (cs : List Char) : Option ℤ :=
  if cs.length < 7 then none
  else do
    let day ← readDate (cs.take (dateLength cs))
    let rest := cs.drop (dateLength cs + 1)
    let (days, time) ← if rest = [] then some (0, 0) else readTime rest
    if day + days ≤ lastOrdinal then
      return ((day + days : ℕ) - epoch) * dayLength + time
    else none

/-! ### Reading what was written -/

/-- What begins with a number does not begin with a separator. -/
theorem head?_fixed_ne {w n : ℕ} {c : Char} (hc : value c = none) (rest : List Char) :
  (fixed (w + 1) n ++ rest).head? ≠ some c
  := by
  have hne : fixed (w + 1) n ≠ [] := by
    rw [← List.length_pos_iff, length_fixed]
    exact Nat.succ_pos w
  obtain ⟨d, ds, hds⟩ := List.exists_cons_of_ne_nil hne
  have hdigit : (value d).isSome := isSome_value_fixed (hds ▸ List.mem_cons_self)
  rw [hds, List.cons_append, List.head?_cons, ne_eq, Option.some.injEq]
  rintro rfl
  rw [hc] at hdigit
  cases hdigit

@[simp]
theorem skip_separator (c : Char) (cs : List Char) :
  skip true c (c :: cs) = some cs
  := by
  rw [skip, if_pos rfl]
  exact if_pos rfl

theorem take_two {n : ℕ} (h : n < 100) (rest : List Char) :
  take 2 (fixed 2 n ++ rest) = some (n, rest)
  := take_fixed (w := 2) h rest

theorem part_separator {n : ℕ} (h : n < 100) (rest : List Char) :
  part true (':' :: (fixed 2 n ++ rest)) = some (n, rest)
  := by
  rw [part, if_neg (List.cons_ne_nil _ _), skip_separator]
  exact take_two h rest

/-- A date is read back. -/
theorem readDate_showDate {date : Date} (year : date.year < 10000) (month : date.month < 100)
    (day : date.day < 100) :
  readDate (showDate date) = ordinal date
  := by
  have hday := take_two day []
  rw [List.append_nil] at hday
  have hmonth := take_two month ('-' :: fixed 2 date.day)
  obtain ⟨m, ms, hms⟩ : ∃ m ms, fixed 2 date.month ++ '-' :: fixed 2 date.day = m :: ms :=
    List.exists_cons_of_ne_nil (by simp)
  have hne : m ≠ 'W' := by
    rintro rfl
    exact head?_fixed_ne (w := 1) (c := 'W') rfl _ (by rw [hms]; rfl)
  rw [readDate, showDate, take_fixed (w := 4) year]
  simp only [Option.bind_eq_bind, Option.bind_some, List.head?_cons, decide_true, skip_separator]
  rw [hms]
  split
  · next heq => exact absurd (List.cons.inj heq).1 hne
  · next heq =>
      rw [← hms, hmonth]
      simp only [Option.bind_some, skip_separator, hday]

/-- A time of the day is read back. -/
theorem readClock_showClock {n : ℕ} (h : n < 86400000000) :
  (readClock (showClock n)).bind microseconds = some n
  := by
  have hfraction : fraction (if n % 1000000 = 0 then [] else '.' :: fixed 6 (n % 1000000))
      = some (n % 1000000) := by
    have hlt : n % 1000000 < 10 ^ 6 := Nat.mod_lt _ (by decide)
    split
    · next hzero => rw [hzero]; rfl
    · have hdigits : (fixed 6 (n % 1000000)).all Char.isDigit = true := by
        rw [List.all_eq_true]
        intro c hc
        by_contra hnot
        have hsome := isSome_value_fixed hc
        rw [value, if_neg hnot] at hsome
        cases hsome
      have hne : fixed 6 (n % 1000000) ≠ [] := by
        rw [← List.length_pos_iff, length_fixed]
        decide
      have htake : (fixed 6 (n % 1000000)).take 6 = fixed 6 (n % 1000000) :=
        List.take_of_length_le (length_fixed 6 _).le
      rw [fraction, if_pos ⟨Or.inl rfl, hne, hdigits⟩, htake, number_fixed hlt, length_fixed]
      exact congrArg some (Nat.mul_one _)
  have hhour : n / 1000000 / 3600 < 100 := by omega
  have hminute : n / 1000000 / 60 % 60 < 100 := by omega
  have hsecond : n / 1000000 % 60 < 100 := by omega
  rw [readClock, showClock]
  simp only [take_two hhour, Option.bind_eq_bind, Option.bind_some, List.head?_cons,
    decide_true, part_separator hminute, part_separator hsecond, hfraction, Option.pure_def]
  rw [microseconds, if_pos (by omega)]
  congr 1
  omega

/-- No character of a time of the day begins an offset. -/
theorem mem_showClock {n : ℕ} {c : Char} (h : c ∈ showClock n) :
  (value c).isSome ∨ c = ':' ∨ c = '.'
  := by
  rw [showClock] at h
  simp only [List.mem_append, List.mem_cons] at h
  rcases h with h | rfl | h | rfl | h | h
  · exact Or.inl (isSome_value_fixed h)
  · exact Or.inr (Or.inl rfl)
  · exact Or.inl (isSome_value_fixed h)
  · exact Or.inr (Or.inl rfl)
  · exact Or.inl (isSome_value_fixed h)
  · split at h
    · cases h
    · rcases List.mem_cons.mp h with rfl | h
      · exact Or.inr (Or.inr rfl)
      · exact Or.inl (isSome_value_fixed h)

/-- The offsets of a clock from UTC are of less than a day. -/
def IsOffset (offset : ℤ) : Prop := offset.natAbs < 86400000000

instance (offset : ℤ) : Decidable (IsOffset offset) :=
  inferInstanceAs (Decidable (offset.natAbs < 86400000000))

/-- An offset is read back. -/
theorem readOffset_showOffset {offset : ℤ} (h : IsOffset offset) :
  readOffset (showOffset offset) = some offset
  := by
  rw [IsOffset] at h
  have hclock : (readClock (showOffset offset).tail).bind microseconds = some offset.natAbs := by
    rw [showOffset, List.tail_cons]
    split
    · next hwhole =>
        have hhour : offset.natAbs / 1000000 / 3600 < 100 := by omega
        have hminute : offset.natAbs / 1000000 / 60 % 60 < 100 := by omega
        have hpart := part_separator hminute []
        rw [List.append_nil] at hpart
        have hrest : part true [] = some (0, []) := rfl
        simp only [readClock, take_two hhour, Option.bind_eq_bind, Option.bind_some,
          List.head?_cons, decide_true, hpart, hrest, fraction, Option.pure_def]
        rw [microseconds, if_pos (by omega)]
        congr 1
        omega
    · exact readClock_showClock h
  have hcons : showOffset offset = (if offset < 0 then '-' else '+') :: (showOffset offset).tail :=
    rfl
  have hne : (if offset < 0 then '-' else '+') ≠ 'Z' := by
    split
    · decide
    · decide
  rw [hcons, readOffset]
  · rw [hclock]
    simp only [Option.bind_eq_bind, Option.bind_some, Option.pure_def]
    split
    · next hneg =>
        rw [if_pos rfl, Int.ofNat_natAbs_of_nonpos hneg.le, neg_neg]
    · next hpos =>
        rw [if_neg (by decide), Int.natAbs_of_nonneg (not_lt.mp hpos)]
  · exact hne

/-- A time of the day is read back, with its offset from UTC. -/
theorem readTime_showClock {n : ℕ} (h : n < 86400000000) {offset : ℤ}
    (hoffset : IsOffset offset) :
  readTime (showClock n ++ showOffset offset) = some (0, (n : ℤ) - offset)
  := by
  have hclock : ∀ c ∈ showClock n, decide (¬ (c = '+' ∨ c = '-' ∨ c = 'Z')) = true := by
    intro c hc
    rw [decide_eq_true_eq]
    rintro (rfl | rfl | rfl)
    all_goals rcases mem_showClock hc with h | h | h
    all_goals cases h
  have hcons : showOffset offset = (if offset < 0 then '-' else '+') :: (showOffset offset).tail :=
    rfl
  have hsign : decide (¬ ((if offset < 0 then '-' else '+') = '+'
      ∨ (if offset < 0 then '-' else '+') = '-' ∨ (if offset < 0 then '-' else '+') = 'Z'))
        = false := by
    split
    · decide
    · decide
  have htake : (showClock n ++ showOffset offset).takeWhile
      (fun c => decide (¬ (c = '+' ∨ c = '-' ∨ c = 'Z'))) = showClock n := by
    rw [List.takeWhile_append_of_pos hclock, hcons,
      List.takeWhile_cons_of_neg (by rw [hsign]; decide)]
    exact List.append_nil _
  have hdrop : (showClock n ++ showOffset offset).dropWhile
      (fun c => decide (¬ (c = '+' ∨ c = '-' ∨ c = 'Z'))) = showOffset offset := by
    rw [List.dropWhile_append_of_pos hclock, hcons,
      List.dropWhile_cons_of_neg (by rw [hsign]; decide)]
  obtain ⟨time, htime, hn⟩ := Option.bind_eq_some_iff.mp (readClock_showClock h)
  have hhour : time ≠ (24, 0, 0, 0) := by
    rintro rfl
    cases hn
  rw [readTime]
  simp only [htake, hdrop, readOffset_showOffset hoffset, htime, if_neg hhour, hn,
    Option.bind_eq_bind, Option.bind_some, Option.pure_def]

/-- The fields of a date have at most four and two digits. -/
theorem lt_of_ordinal {date : Date} {n : ℕ} (h : ordinal date = some n) :
  date.year < 10000 ∧ date.month < 100 ∧ date.day < 100
  := by
  have short : ∀ leap, ∀ i < 12, (monthLengths leap).getD i 0 ≤ 31 := by decide
  simp only [ordinal] at h
  split at h
  · next hdate =>
      obtain ⟨_, hyear, hpos, hmonth, _, hday⟩ := hdate
      have hle := short (isLeap date.year) (date.month - 1) (by omega)
      exact ⟨by omega, by omega, by omega⟩
  · cases h

/-- The date takes the first ten characters. -/
theorem dateLength_showDate (date : Date) (rest : List Char) :
  dateLength (showDate date ++ rest) = 10
  := by
  have hlength : (showDate date ++ rest).length ≠ 7 := by
    simp only [showDate, List.length_append, List.length_cons, length_fixed]
    omega
  obtain ⟨m, ms, hms⟩ : ∃ m ms, fixed 2 date.month ++ ('-' :: fixed 2 date.day ++ rest) = m :: ms :=
    List.exists_cons_of_ne_nil (by simp)
  have hne : m ≠ 'W' := by
    rintro rfl
    exact head?_fixed_ne (w := 1) (c := 'W') rfl _ (by rw [hms]; rfl)
  have hdrop : (showDate date ++ rest).drop 4 = '-' :: m :: ms := by
    rw [showDate, List.append_assoc, List.drop_left' (length_fixed 4 _), List.cons_append,
      List.append_assoc, hms]
  rw [dateLength, if_neg hlength, hdrop]
  split
  · next heq => exact absurd (List.cons.inj (List.cons.inj heq).2).1 hne
  · rfl
  · next heq => exact absurd (List.cons.inj heq).1 (by decide)
  · next _ hnot _ => exact absurd rfl (hnot (m :: ms))

/-- The points in time from the year 1 to the year 9999. -/
def InRange (t : ℤ) : Prop := 1 ≤ t / dayLength + epoch ∧ t / dayLength + epoch ≤ lastOrdinal

instance (t : ℤ) : Decidable (InRange t) := inferInstanceAs (Decidable (_ ∧ _))

/-- A point in time is read back, whichever clock shows it. -/
theorem fromisoformat_isoformatAt {offset t : ℤ} (hoffset : IsOffset offset)
    (h : InRange (t + offset)) :
  fromisoformat (isoformatAt offset t) = some t
  := by
  obtain ⟨first, last⟩ := h
  have hshown : t = t + offset - offset := (add_sub_cancel_right t offset).symm
  rw [isoformatAt]
  generalize t + offset = shown at *
  have hday : (dayOf shown : ℤ) = shown / dayLength + epoch := Int.toNat_of_nonneg (by omega)
  have hmod := Int.emod_nonneg shown (show dayLength ≠ 0 by decide)
  have hlt := Int.emod_lt_of_pos shown (show 0 < dayLength by decide)
  have htime : (sinceMidnight shown : ℤ) = shown % dayLength := Int.toNat_of_nonneg hmod
  have hmidnight : sinceMidnight shown < 86400000000 := by
    have : (sinceMidnight shown : ℤ) < dayLength := htime ▸ hlt
    rw [dayLength] at this
    omega
  have hordinal := ordinal_date (n := dayOf shown) (by omega) (by omega)
  obtain ⟨hyear, hmonth, hday'⟩ := lt_of_ordinal hordinal
  have hlength : (showDate (date (dayOf shown))).length = 10 := by
    simp only [showDate, List.length_append, List.length_cons, length_fixed]
  obtain ⟨clock, hclock⟩ : ∃ clock, clock = showClock (sinceMidnight shown) ++ showOffset offset :=
    ⟨_, rfl⟩
  have hne : clock ≠ [] := by
    rw [hclock]
    exact List.append_ne_nil_of_right_ne_nil _ (List.cons_ne_nil _ _)
  rw [← hclock]
  have hlong : ¬ (showDate (date (dayOf shown)) ++ 'T' :: clock).length < 7 := by
    rw [List.length_append, hlength]
    omega
  have hrest : (showDate (date (dayOf shown)) ++ 'T' :: clock).drop 11 = clock := by
    rw [show (11 : ℕ) = 10 + 1 by rfl, ← List.drop_drop, List.drop_left' hlength]
    rfl
  have htake : (showDate (date (dayOf shown)) ++ 'T' :: clock).take 10
      = showDate (date (dayOf shown)) := List.take_left' hlength
  have hten : dateLength (showDate (date (dayOf shown)) ++ 'T' :: clock) = 10 :=
    dateLength_showDate _ _
  have hle : dayOf shown ≤ lastOrdinal := by omega
  have hread : readTime clock = some (0, (sinceMidnight shown : ℤ) - offset) := by
    rw [hclock, readTime_showClock hmidnight hoffset]
  rw [fromisoformat, if_neg hlong, hten, htake, readDate_showDate hyear hmonth hday', hordinal]
  simp only [Option.bind_eq_bind, Option.bind_some, hrest, if_neg hne,
    hread, if_pos hle, Nat.add_zero, hday, htime, Option.pure_def]
  congr 1
  rw [add_sub_cancel_right, hshown, ← add_sub_assoc, mul_comm, Int.mul_ediv_add_emod]

/-- A point in time is read back. -/
theorem fromisoformat_isoformat {t : ℤ} (h : InRange t) :
  fromisoformat (isoformat t) = some t
  := by
  rw [isoformat_eq]
  apply fromisoformat_isoformatAt (by decide)
  rw [add_zero]
  exact h

end Calendar
