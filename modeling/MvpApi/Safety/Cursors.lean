import MvpApi.Database.Cursors

/-!
# What cursors stand for

A cursor that was given out is read as the value and the id it was made of, is written in the
alphabet that is safe in a URL, and no other value and id make it. A client may send any text:
what is accepted is always read as a position, but not only what was given out is accepted, and
the values that are read in spite of it are listed.
-/

set_option autoImplicit false

namespace MvpApi

/-! ### What is given out -/

/-- The values that products are sorted by, for each field. -/
inductive Sorts : String → SortValue → Prop where
  | name (text : String) : Sorts "name" (.text text)
  | status (status : ProductStatus) : Sorts "status" (.text status.value)
  | price (price : Price) : Sorts "price" (.number (.finite (price / 100)))
  | createdAt {time : Time} (range : Calendar.InRange time) : Sorts "created_at" (.time time)

variable (python : Conversions)

theorem parse_createdAt (value : Json) :
  python.parse "created_at" value = (readTime value).map .time
  := by
  rw [Conversions.parse, if_pos rfl]

theorem parse_price (value : Json) :
  python.parse "price" value = (python.number value).map .number
  := by
  rw [Conversions.parse, if_neg (by decide), if_pos rfl]

theorem parse_name (value : Json) :
  python.parse "name" value = some (.text (python.text value))
  := by
  rw [Conversions.parse, if_neg (by decide), if_neg (by decide)]

theorem parse_status (value : Json) :
  python.parse "status" value = some (.text (python.text value))
  := by
  rw [Conversions.parse, if_neg (by decide), if_neg (by decide)]

/-- What is written for a value of a field is read as that value. -/
theorem parse_str {field : String} {value : SortValue} (h : Sorts field value) :
  python.parse field (.text value.str) = some value
  := by
  cases h with
  | name text => rw [parse_name, SortValue.str, Conversions.text, String.ofList_toList]
  | status status => rw [parse_status, SortValue.str, Conversions.text, String.ofList_toList]
  | price price =>
      rw [parse_price, SortValue.str, number_price]
      rfl
  | createdAt range =>
      rw [parse_createdAt, SortValue.str, readTime, Calendar.fromisoformat_isoformat range]
      rfl

/-- The point in time that a clock shows is read, whatever its offset from UTC. -/
theorem parse_isoformatAt {offset : ℤ} {time : Time} (hoffset : Calendar.IsOffset offset)
    (range : Calendar.InRange (time + offset)) :
  python.parse "created_at" (.text (Calendar.isoformatAt offset time)) = some (.time time)
  := by
  rw [parse_createdAt, readTime, Calendar.fromisoformat_isoformatAt hoffset range]
  rfl

/-- The characters of a cursor are those of the alphabet, and no padding is among them. -/
theorem mem_cursorOf {text : List Char} {rowId : String} {c : Char}
    (h : c ∈ (cursorOf text rowId).toList) :
  c ∈ Base64.alphabet ∧ c ≠ '='
  := by
  rw [cursorOf, Base64.strip_encode, String.toList_ofList] at h
  have hmem := Base64.mem_body h
  refine ⟨hmem, ?_⟩
  rintro rfl
  exact absurd hmem (by decide)

/-- A cursor is read as the value and the id that it was made of, its characters are those that
are safe in a URL, and those of another value or another id are other cursors. The clock that a
timestamp is written by does not matter. -/
theorem cursor_round_trip {field : String} {value : SortValue} (sorts : Sorts field value)
    (rowId : String) :
  decodeCursor python (encodeCursor value rowId) field = .ok (value, rowId)
    ∧ (∀ c ∈ (encodeCursor value rowId).toList, c ∈ Base64.alphabet ∧ c ≠ '=')
    ∧ (∀ value' rowId', Sorts field value' →
        encodeCursor value' rowId' = encodeCursor value rowId → value' = value ∧ rowId' = rowId)
    ∧ ∀ offset time, field = "created_at" → value = .time time → Calendar.IsOffset offset →
        Calendar.InRange (time + offset) →
        decodeCursor python (cursorOf (Calendar.isoformatAt offset time) rowId) field
          = .ok (value, rowId)
  := by
  have decoded : ∀ {value} (rowId : String), Sorts field value →
      decodeCursor python (encodeCursor value rowId) field = .ok (value, rowId) := by
    intro value rowId sorts
    rw [encodeCursor, decodeCursor_cursorOf, parse_str python sorts]
  refine ⟨decoded rowId sorts, fun c hc => mem_cursorOf hc, ?_, ?_⟩
  · intro value' rowId' sorts' heq
    have hread := decoded rowId' sorts'
    rw [heq, decoded rowId sorts] at hread
    exact Prod.mk.inj (Except.ok.inj hread).symm
  · rintro offset time rfl rfl hoffset range
    rw [decodeCursor_cursorOf, parse_isoformatAt python hoffset range]

/-- The cursor of a price, and of the beginning of 1970 on a clock ahead of UTC. -/
theorem cursor_round_trip_of_price :
  let python : Conversions := .sample
  decodeCursor python (encodeCursor (.number (.finite ((999 : ℤ) / 100))) "0199") "price"
      = .ok (.number (.finite ((999 : ℤ) / 100)), "0199")
    ∧ decodeCursor python (cursorOf (Calendar.isoformatAt 19800000000 0) "0199") "created_at"
      = .ok (.time 0, "0199")
  := by
  intro python
  have hrange : Calendar.InRange 0 := by decide +kernel
  have price := cursor_round_trip python (.price 999) "0199"
  have time := cursor_round_trip python (.createdAt hrange) "0199"
  exact ⟨price.1, time.2.2.2 19800000000 0 rfl rfl (by decide +kernel) (by decide +kernel)⟩

/-! ### What is accepted -/

/-- The texts that a cursor of a field is made of: any name, a status, a price with two digits
after the point, or a point in time with its offset from UTC. -/
inductive Written : String → List Char → Prop where
  | name (text : List Char) : Written "name" text
  | status (status : ProductStatus) : Written "status" status.value.toList
  | price (hundredths : ℕ) : Written "price" (Decimal.showHundredths hundredths)
  | createdAt {offset : ℤ} {time : Time} (hoffset : Calendar.IsOffset offset)
      (range : Calendar.InRange (time + offset)) :
      Written "created_at" (Calendar.isoformatAt offset time)

/-- What a cursor is made of, field by field. -/
theorem Written.spec {field : String} {text : List Char} (h : Written field text) :
  (field = "status" → ∃ status : ProductStatus, text = status.value.toList)
    ∧ (field = "price" → ∃ hundredths : ℕ, text = Decimal.showHundredths hundredths)
    ∧ (field = "created_at" → ∃ offset time, Calendar.IsOffset offset
        ∧ Calendar.InRange (time + offset) ∧ text = Calendar.isoformatAt offset time)
  := by
  cases h with
  | name text => simp
  | status status => exact ⟨fun _ => ⟨status, rfl⟩, by simp, by simp⟩
  | price hundredths => exact ⟨by simp, fun _ => ⟨hundredths, rfl⟩, by simp⟩
  | createdAt hoffset range => exact ⟨by simp, by simp, fun _ => ⟨_, _, hoffset, range, rfl⟩⟩

/-- A cursor is refused, or denotes what cursors of the field are made of. -/
def AcceptsOwn (cursor field : String) : Prop :=
  decodeCursor python cursor field = .error (.invalid "Invalid cursor")
    ∨ ∃ text rowId, python.json cursor = some (.array [.text text, .text rowId])
        ∧ Written field text

/-- The values that are read as a position of a list, though no cursor is made of them. -/
inductive Foreign : String → Json → Prop where
  /-- A text of two characters. -/
  | characters {field : String} {a b : Char} (read : (python.parse field (.text [a])).isSome) :
      Foreign field (.text [a, b])
  /-- An object of two keys. -/
  | keys {field : String} {fields : List (List Char × Json)} {a b : List Char}
      (keys : (fields.map Prod.fst).eraseDups = [a, b])
      (read : (python.parse field (.text a)).isSome) :
      Foreign field (.object fields)
  /-- A list of two values that are not both texts. -/
  | items {field : String} {a b : Json} (items : ¬ (a.IsText ∧ b.IsText))
      (read : (python.parse field a).isSome) :
      Foreign field (.array [a, b])
  /-- A text that is no status. -/
  | status {text rowId : List Char}
      (unknown : ∀ status : ProductStatus, text ≠ status.value.toList) :
      Foreign "status" (.array [.text text, .text rowId])
  /-- A price that is infinite or no number. -/
  | unbounded {text rowId : List Char} {number : Decimal}
      (read : python.number (.text text) = some number) (unbounded : ∀ q, number ≠ .finite q) :
      Foreign "price" (.array [.text text, .text rowId])
  /-- A price below zero. -/
  | negative {text rowId : List Char} {q : ℚ}
      (read : python.number (.text text) = some (.finite q)) (negative : q < 0) :
      Foreign "price" (.array [.text text, .text rowId])
  /-- A price that is not written with two digits after the point. -/
  | respelled {text rowId : List Char} {q : ℚ}
      (read : python.number (.text text) = some (.finite q)) (positive : 0 ≤ q)
      (respelled : ∀ hundredths : ℕ, text ≠ Decimal.showHundredths hundredths) :
      Foreign "price" (.array [.text text, .text rowId])
  /-- A point in time without an offset, or written in another format. -/
  | timestamp {text rowId : List Char} {time : Time}
      (read : Calendar.fromisoformat text = some time)
      (respelled : ∀ offset time', Calendar.IsOffset offset → Calendar.InRange (time' + offset) →
        text ≠ Calendar.isoformatAt offset time') :
      Foreign "created_at" (.array [.text text, .text rowId])

variable {python}

/-- What has two parts. -/
theorem unpack_eq_some {value a b : Json} (h : unpack value = some (a, b)) :
  value = .array [a, b]
    ∨ (∃ c d, value = .text [c, d] ∧ a = .text [c])
    ∨ ∃ fields k l, value = .object fields ∧ (fields.map Prod.fst).eraseDups = [k, l]
        ∧ a = .text k
  := by
  unfold unpack at h
  split at h
  · cases h
    exact Or.inl rfl
  · cases h
    exact Or.inr (Or.inl ⟨_, _, rfl, rfl⟩)
  · next fields =>
      split at h
      · next k l hkeys =>
          cases h
          exact Or.inr (Or.inr ⟨fields, k, l, rfl, hkeys, rfl⟩)
      · exact absurd h (by simp)
  · exact absurd h (by simp)

/-- What is read of a cursor whose value has two parts. -/
theorem decodeCursor_of_parts {cursor field : String} {value a b : Json}
    (json : python.json cursor = some value) (parts : unpack value = some (a, b)) :
  decodeCursor python cursor field
    = match python.parse field a with
      | some parsed => .ok (parsed, python.text b)
      | none => .error (.invalid "Invalid cursor")
  := by
  rw [decodeCursor]
  simp only [json, Option.bind_eq_bind, Option.bind_some, parts]
  cases python.parse field a with
  | _ => rfl

/-- A cursor is refused, or its value has two parts, of which the first is read. -/
theorem refused_or_read (python : Conversions) (cursor field : String) :
  decodeCursor python cursor field = .error (.invalid "Invalid cursor")
    ∨ ∃ value a b, python.json cursor = some value ∧ unpack value = some (a, b)
        ∧ (python.parse field a).isSome
  := by
  cases hjson : python.json cursor with
  | none =>
      apply Or.inl
      rw [decodeCursor, hjson]
      rfl
  | some value =>
      cases hunpack : unpack value with
      | none =>
          apply Or.inl
          rw [decodeCursor, hjson, Option.bind_some, hunpack]
          rfl
      | some parts =>
          cases hparse : python.parse field parts.1 with
          | none =>
              apply Or.inl
              rw [decodeCursor_of_parts hjson hunpack, hparse]
          | some parsed => exact Or.inr ⟨value, parts.1, parts.2, rfl, hunpack, by rw [hparse]; rfl⟩

/-- What is read is not refused. -/
theorem decodeCursor_ne_error {cursor field : String} {value a b : Json}
    (json : python.json cursor = some value) (parts : unpack value = some (a, b))
    (read : (python.parse field a).isSome) :
  decodeCursor python cursor field ≠ .error (.invalid "Invalid cursor")
  := by
  obtain ⟨parsed, hparsed⟩ := Option.isSome_iff_exists.mp read
  rw [decodeCursor_of_parts json parts, hparsed]
  exact fun h => by cases h

/-- What has a foreign value has two parts, of which the first is read. -/
theorem Foreign.read {field : String} {value : Json} (h : Foreign python field value) :
  ∃ a b, unpack value = some (a, b) ∧ (python.parse field a).isSome
  := by
  cases h with
  | characters read => exact ⟨_, _, rfl, read⟩
  | @keys _ _ a b keys read =>
      refine ⟨.text a, .text b, ?_, read⟩
      rw [unpack, keys]
  | items _ read => exact ⟨_, _, rfl, read⟩
  | status _ => exact ⟨_, _, rfl, by rw [parse_status]; rfl⟩
  | unbounded read _ => exact ⟨_, _, rfl, by rw [parse_price, read]; rfl⟩
  | negative read _ => exact ⟨_, _, rfl, by rw [parse_price, read]; rfl⟩
  | respelled read _ _ => exact ⟨_, _, rfl, by rw [parse_price, read]; rfl⟩
  | timestamp read _ => exact ⟨_, _, rfl, by rw [parse_createdAt, readTime, read]; rfl⟩

/-- No cursor is made of a foreign value. -/
theorem Foreign.not_written {field : String} {text rowId : List Char}
    (h : Foreign python field (.array [.text text, .text rowId])) :
  ¬ Written field text
  := by
  have price : ∀ hundredths : ℕ, python.number (.text (Decimal.showHundredths hundredths))
      = some (.finite (hundredths / 100)) := by
    intro hundredths
    have h := number_price python hundredths
    rw [Decimal.str_hundredths] at h
    exact h
  intro hwritten
  obtain ⟨hstatus, hprice, htime⟩ := hwritten.spec
  cases h with
  | items items _ => exact items ⟨trivial, trivial⟩
  | status unknown =>
      obtain ⟨status, rfl⟩ := hstatus rfl
      exact unknown status rfl
  | unbounded read unbounded =>
      obtain ⟨hundredths, rfl⟩ := hprice rfl
      rw [price] at read
      exact unbounded _ (Option.some.inj read).symm
  | negative read negative =>
      obtain ⟨hundredths, rfl⟩ := hprice rfl
      rw [price] at read
      cases read
      exact absurd negative (not_lt.mpr (div_nonneg (Nat.cast_nonneg _) (by norm_num)))
  | respelled _ _ respelled =>
      obtain ⟨hundredths, rfl⟩ := hprice rfl
      exact respelled hundredths rfl
  | timestamp _ respelled =>
      obtain ⟨offset, time, hoffset, range, rfl⟩ := htime rfl
      exact respelled _ _ hoffset range rfl

/-- What is read as a position of the list is foreign, or a cursor is made of it. -/
theorem written_or_foreign {field : String} (hfield : field ∈ sortableFields)
    {text rowId : List Char} (read : (python.parse field (.text text)).isSome) :
  Written field text ∨ Foreign python field (.array [.text text, .text rowId])
  := by
  by_contra hnot
  obtain ⟨hwritten, hforeign⟩ := not_or.mp hnot
  simp only [sortableFields, List.mem_cons, List.not_mem_nil, or_false] at hfield
  rcases hfield with rfl | rfl | rfl | rfl
  · rw [parse_createdAt, Option.isSome_map] at read
    obtain ⟨time, htime⟩ := Option.isSome_iff_exists.mp read
    apply hforeign (.timestamp htime _)
    rintro offset time' hoffset range rfl
    exact hwritten (.createdAt hoffset range)
  · exact hwritten (.name text)
  · rw [parse_price, Option.isSome_map] at read
    obtain ⟨number, hnumber⟩ := Option.isSome_iff_exists.mp read
    cases number with
    | finite q =>
        rcases lt_or_ge q 0 with hneg | hpos
        · exact hforeign (.negative hnumber hneg)
        · apply hforeign (.respelled hnumber hpos _)
          rintro hundredths rfl
          exact hwritten (.price hundredths)
    | infinite negative => exact hforeign (.unbounded hnumber (fun q h => by cases h))
    | nan => exact hforeign (.unbounded hnumber (fun q h => by cases h))
  · apply hforeign (.status _)
    rintro status rfl
    exact hwritten (.status status)

/-- A foreign value is accepted, though no cursor is made of it. -/
theorem Foreign.not_acceptsOwn {cursor field : String} {value : Json}
    (json : python.json cursor = some value) (foreign : Foreign python field value) :
  ¬ AcceptsOwn python cursor field
  := by
  rintro (hrefused | ⟨text, rowId, hjson, hwritten⟩)
  · obtain ⟨a, b, hparts, hread⟩ := foreign.read
    exact decodeCursor_ne_error json hparts hread hrefused
  · rw [json, Option.some.injEq] at hjson
    rw [hjson] at foreign
    exact foreign.not_written hwritten

/-- The length of a date and a clock. -/
theorem length_isoformatAt (offset time : ℤ) :
  11 ≤ (Calendar.isoformatAt offset time).length
  := by
  simp only [Calendar.isoformatAt, Calendar.showDate, List.length_append, List.length_cons,
    Numeral.length_fixed]
  omega

end MvpApi
