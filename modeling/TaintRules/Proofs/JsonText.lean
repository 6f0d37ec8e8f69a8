import TaintRules.Json.Basic
import TaintRules.Json.Reader

/-!
# JSON texts are read as they were written

A value without doubles whose numbers are words is read back from its compact form, except that the
fields of its objects come out in ascending order. So the compact form determines such a value up to
the order of fields.
-/

namespace TaintRules.Json

/-! ### Strings -/

/-- The hexadecimal digits of a number below 16 are read back. -/
private theorem hexValue?_digitChar : ∀ n, n < 16 → Text.hexValue? (Nat.digitChar n) = some n := by
  decide

private theorem fourHex?_twoHexDigits {n : Nat} (h : n < 0x20) (rest : List Char) :
    fourHex? ('0' :: '0' :: (twoHexDigits n ++ rest)) = some (n, rest) := by
  have hz : Text.hexValue? '0' = some 0 := by decide
  have hn : ((0 * 16 + 0) * 16 + n / 16) * 16 + n % 16 = n := by omega
  simp only [twoHexDigits, List.cons_append, List.nil_append, fourHex?, hz,
    hexValue?_digitChar _ (by omega : n / 16 < 16), hexValue?_digitChar _ (by omega : n % 16 < 16),
    Option.bind_eq_bind, Option.bind_some, hn]
  rfl

private theorem unicodeEscape?_of_lt {c : Char} (h : c.toNat < 0x20) (rest : List Char) :
    unicodeEscape? ('0' :: '0' :: (twoHexDigits c.toNat ++ rest)) = some (c, rest) := by
  have hlow : ¬ (0xD800 ≤ c.toNat ∧ c.toNat < 0xDC00) := by omega
  have hhigh : ¬ (0xDC00 ≤ c.toNat ∧ c.toNat < 0xE000) := by omega
  simp only [unicodeEscape?, fourHex?_twoHexDigits h, Option.bind_eq_bind, Option.bind_some,
    if_neg hlow, if_neg hhigh, Char.ofNat_toNat]
  rfl

/-- What stands for a character is read as this character. -/
theorem readString_escapeChar (fuel : Nat) (read : List Char) (c : Char) (rest : List Char) :
    readString (fuel + 1) read (escapeChar c ++ rest) = readString fuel (c :: read) rest := by
  unfold escapeChar
  -- the characters that have an escape of one letter
  iterate 7
    split
    · next h => simp [readString, letterEscape?, h]
  split
  · next h => simp [readString, unicodeEscape?_of_lt h]
  · next hquote hslash _ _ _ _ _ hctl =>
    rw [List.singleton_append, readString]
    · rw [if_neg hctl]
    · simpa using hquote
    · simp [hslash]
    · simp [hslash]

/-- A text is read from the characters that stand for it, up to the closing quote. -/
theorem readString_flatMap (cs rest : List Char) (read : List Char) {fuel : Nat}
    (hf : cs.length < fuel) :
    readString fuel read (cs.flatMap escapeChar ++ '"' :: rest) =
      some (String.ofList (read.reverse ++ cs), rest) := by
  induction cs generalizing fuel read with
  | nil =>
    obtain ⟨fuel, rfl⟩ := Nat.exists_eq_add_of_lt hf
    simp [readString]
  | cons c cs ih =>
    obtain ⟨fuel, rfl⟩ := Nat.exists_eq_add_of_lt hf
    rw [List.flatMap_cons, List.append_assoc, readString_escapeChar, ih]
    · simp
    · simp
      omega

/-- No character is left out. -/
private theorem length_le_length_flatMap (cs : List Char) :
    cs.length ≤ (cs.flatMap escapeChar).length := by
  induction cs with
  | nil => exact Nat.le_refl _
  | cons c cs ih =>
    have hc : 0 < (escapeChar c).length := by grind [escapeChar]
    rw [List.flatMap_cons, List.length_append, List.length_cons]
    omega

/-! ### Whole numbers -/

/-- What comes after a number does not go on with it. -/
def EndsNumber (rest : List Char) : Prop :=
  ∀ c ∈ rest.head?, c.isDigit = false ∧ c ≠ '.' ∧ c ≠ 'e' ∧ c ≠ 'E'

private theorem digitChar_ne_zero : ∀ n, n < 10 → 0 < n → Nat.digitChar n ≠ '0' := by decide

/-- No number but zero is written with a zero in front. -/
private theorem head?_toDigits_ne {n : Nat} (h : 0 < n) :
    (Nat.toDigits 10 n).head? ≠ some '0' := by
  induction n using Nat.strongRecOn with
  | ind n ih =>
    by_cases hn : n < 10
    · rw [Nat.toDigits_of_lt_base hn]
      simpa using digitChar_ne_zero n hn h
    · rw [Nat.toDigits_of_base_le (by decide) (by omega), List.head?_append]
      obtain ⟨c, tail, he⟩ := List.exists_cons_of_ne_nil (@Nat.toDigits_ne_nil (n / 10) 10)
      have hi := ih (n / 10) (by omega) (by omega)
      rw [he] at hi ⊢
      exact hi

/-- The digits of a number are there, and no zero in front could be left out. -/
theorem exists_toDigits (n : Nat) :
    ∃ first rest, Nat.toDigits 10 n = first :: rest ∧ (first ≠ '0' ∨ rest = []) ∧
      ∀ c ∈ first :: rest, c.isDigit = true := by
  obtain ⟨first, rest, he⟩ := List.exists_cons_of_ne_nil (@Nat.toDigits_ne_nil n 10)
  refine ⟨first, rest, he, ?_, ?_⟩
  · by_cases hn : n = 0
    · subst hn
      exact .inr (List.cons.inj he).2.symm
    · have hh := head?_toDigits_ne (Nat.pos_of_ne_zero hn)
      rw [he] at hh
      exact .inl fun h ↦ hh (congrArg some h)
  · intro c hc
    exact Nat.isDigit_of_mem_toDigits (by decide) (by decide) (he ▸ hc)

private theorem spanDigits_append {digits rest : List Char}
    (hd : ∀ c ∈ digits, c.isDigit = true) (hr : EndsNumber rest) :
    Decimal.spanDigits (digits ++ rest) = (digits, rest) := by
  have htake : rest.takeWhile Char.isDigit = [] ∧ rest.dropWhile Char.isDigit = rest := by
    cases rest with
    | nil => exact ⟨rfl, rfl⟩
    | cons c more => simp [(hr c rfl).1]
  rw [Decimal.spanDigits, List.takeWhile_append_of_pos hd, List.dropWhile_append_of_pos hd,
    htake.1, htake.2, List.append_nil]

private theorem readFraction_of_ends {rest : List Char} (h : EndsNumber rest) :
    readFraction rest = some (([], false), rest) := by
  cases rest with
  | nil => rfl
  | cons c more =>
    obtain ⟨-, hp, -⟩ := h c rfl
    unfold readFraction
    split
    · next he => exact absurd (List.cons.inj he).1 hp
    · rfl

private theorem readExponent_of_ends {rest : List Char} (h : EndsNumber rest) :
    readExponent rest = some ((0, false), rest) := by
  cases rest with
  | nil => rfl
  | cons c more =>
    obtain ⟨-, -, hs, hl⟩ := h c rfl
    simp [readExponent, hs, hl]

/-- A digit is no sign. -/
private theorem ne_minus_of_isDigit {c : Char} (h : c.isDigit = true) : c ≠ '-' := by
  rintro rfl
  cases h

/-- A word is read from its digits. -/
theorem readNumber_toDigits {n : Nat} (hn : n < UInt64.size) {rest : List Char}
    (hr : EndsNumber rest) :
    readNumber (Nat.toDigits 10 n ++ rest) = some (.int n, rest) := by
  have hv : Decimal.digitsValue (Nat.toDigits 10 n) = n := Nat.ofDigitChars_ten_toDigits
  obtain ⟨first, tail, he, hzero, hd⟩ := exists_toDigits n
  have hw : ((first :: tail).isEmpty ||
      ((first :: tail).head? = some '0' && 1 < (first :: tail).length)) = false := by
    rcases hzero with h | rfl
    · simp [h]
    · simp
  rw [he] at hv ⊢
  unfold readNumber
  split
  next negative cs hs =>
  split at hs
  · next hminus =>
    exact absurd (List.cons.inj hminus).1 (ne_minus_of_isDigit (hd first List.mem_cons_self))
  · obtain ⟨rfl, rfl⟩ := Prod.mk.inj hs
    simp only [spanDigits_append hd hr, hw, readFraction_of_ends hr, hv]
    simp [readExponent_of_ends hr, Nat.not_le.mpr hn]

/-! ### Values -/

mutual

/-- The value has no doubles, and its numbers are words. -/
def IsExact : Json → Prop
  | .null | .bool _ | .text _ => True
  | .int n => 0 ≤ n ∧ n < UInt64.size
  | .float _ => False
  | .array items => AreExact items
  | .object fields => FieldsAreExact fields

/-- The items have no doubles, and their numbers are words. -/
def AreExact : List Json → Prop
  | [] => True
  | item :: rest => item.IsExact ∧ AreExact rest

/-- The fields have no doubles, and their numbers are words. -/
def FieldsAreExact : List (String × Json) → Prop
  | [] => True
  | (_, value) :: rest => value.IsExact ∧ FieldsAreExact rest

end

theorem areExact_iff {items : List Json} : AreExact items ↔ ∀ item ∈ items, item.IsExact := by
  induction items with
  | nil => simp [AreExact]
  | cons item rest ih => rw [AreExact, ih, List.forall_mem_cons]

theorem fieldsAreExact_iff {fields : List (String × Json)} :
    FieldsAreExact fields ↔ ∀ field ∈ fields, field.2.IsExact := by
  induction fields with
  | nil => simp [FieldsAreExact]
  | cons field rest ih => rw [FieldsAreExact, ih, List.forall_mem_cons]

theorem isExact_word (n : UInt64) : (word n).IsExact :=
  ⟨Int.natCast_nonneg _, Int.ofNat_lt.mpr n.toNat_lt⟩

@[simp] theorem word_inj {m n : UInt64} : word m = word n ↔ m = n := by
  rw [word, word, int.injEq, Int.natCast_inj, UInt64.toNat_inj]

mutual

/-- The value with the fields of its objects in ascending order, as it is read. -/
def asRead : Json → Json
  | .array items => .array (itemsAsRead items)
  | .object fields => .object (fieldsAsRead [] fields)
  | value => value

/-- The items as they are read. -/
def itemsAsRead : List Json → List Json
  | [] => []
  | item :: rest => item.asRead :: itemsAsRead rest

/-- The fields as they are read after others. -/
def fieldsAsRead (read : List (String × Json)) : List (String × Json) → List (String × Json)
  | [] => read
  | (name, value) :: rest => fieldsAsRead (setField name value.asRead read) rest

end

/-- The character is none of the blanks that are skipped. -/
private abbrev IsSolid (c : Char) : Prop := c ≠ ' ' ∧ c ≠ '\n' ∧ c ≠ '\r' ∧ c ≠ '\t'

private theorem skipBlanks_cons {c : Char} (h : IsSolid c) (rest : List Char) :
    skipBlanks (c :: rest) = c :: rest := by
  obtain ⟨hs, hn, hr, ht⟩ := h
  simp [skipBlanks, hs, hn, hr, ht]

/-- The characters that a value may start with. -/
private def Opens (c : Char) : Prop := c ∈ ['n', 't', 'f', '"', '[', '\x7b'] ∨ c.isDigit = true

private theorem isSolid_of_opens {c : Char} (h : Opens c) : IsSolid c ∧ c ≠ ']' := by
  refine ⟨⟨?_, ?_, ?_, ?_⟩, ?_⟩
  all_goals
    rintro rfl
    simp [Opens] at h

private theorem endsNumber_cons {c : Char} (rest : List Char)
    (h : c = ',' ∨ c = ']' ∨ c = '\x7d') : EndsNumber (c :: rest) := by
  rintro _ ⟨⟩
  obtain rfl | rfl | rfl := h <;> decide

/-- The characters of a word are its digits. -/
theorem chars_int (n : Nat) : chars (.int n) = Nat.toDigits 10 n := by
  rw [chars]
  exact Nat.toList_repr

private theorem exists_chars {v : Json} (h : v.IsExact) :
    ∃ c rest, chars v = c :: rest ∧ Opens c := by
  cases v with
  | null => exact ⟨_, _, rfl, by simp [Opens]⟩
  | bool b =>
    cases b with
    | false => exact ⟨_, _, rfl, by simp [Opens]⟩
    | true => exact ⟨_, _, rfl, by simp [Opens]⟩
  | int n =>
    obtain ⟨k, rfl⟩ := Int.eq_ofNat_of_zero_le h.1
    rw [chars_int]
    obtain ⟨c, tail, ht, -, hd⟩ := exists_toDigits k
    exact ⟨c, tail, ht, .inr (hd c List.mem_cons_self)⟩
  | float x => cases h
  | text s => exact ⟨'"', _, rfl, by simp [Opens]⟩
  | array items => exact ⟨'[', _, rfl, by simp [Opens]⟩
  | object fields => exact ⟨'\x7b', _, rfl, by simp [Opens]⟩

/-! One step of the reader for each kind of value. -/

private theorem readString_quote (s : String) (rest : List Char) :
    readString ((s.toList.flatMap escapeChar ++ '"' :: rest).length + 1) []
      (s.toList.flatMap escapeChar ++ '"' :: rest) = some (s, rest) := by
  rw [readString_flatMap]
  · rw [List.reverse_nil, List.nil_append, String.ofList_toList]
  · have h := length_le_length_flatMap s.toList
    rw [List.length_append]
    omega

private theorem quote_append (s : String) (rest : List Char) :
    quote s ++ rest = '"' :: (s.toList.flatMap escapeChar ++ '"' :: rest) := by
  simp [quote]

private theorem readValue_text (fuel : Nat) (s : String) (rest : List Char) :
    readValue (fuel + 1) (quote s ++ rest) = some (.text s, rest) := by
  rw [quote_append, readValue, skipBlanks_cons (by decide)]
  simp only [readString_quote]
  rfl

private theorem readValue_int (fuel : Nat) {n : Nat} (hn : n < UInt64.size) {rest : List Char}
    (hr : EndsNumber rest) :
    readValue (fuel + 1) (Nat.toDigits 10 n ++ rest) = some (.int n, rest) := by
  have hread := readNumber_toDigits hn hr
  obtain ⟨c, tail, ht, -, hd⟩ := exists_toDigits n
  have hc : c.isDigit = true := hd c List.mem_cons_self
  rw [ht, List.cons_append] at hread ⊢
  rw [readValue, skipBlanks_cons (isSolid_of_opens (.inr hc)).1]
  have other {k : Char} {more : List Char} (hk : k.isDigit = false) :
      c :: (tail ++ rest) ≠ k :: more := by
    intro he
    rw [(List.cons.inj he).1, hk] at hc
    cases hc
  -- a digit starts no value of another kind
  split
  iterate 6
    next he => exact absurd he (other (by decide))
  exact hread

private theorem readValue_array (fuel : Nat) {c : Char} (h : Opens c) (rest : List Char) :
    readValue (fuel + 1) ('[' :: c :: rest) = readItems fuel [] (c :: rest) := by
  obtain ⟨hsolid, hclose⟩ := isSolid_of_opens h
  rw [readValue, skipBlanks_cons (by decide)]
  simp only [skipBlanks_cons hsolid]
  split
  · next he => exact absurd (List.cons.inj he).1 hclose
  · rfl

private theorem readValue_object (fuel : Nat) (rest : List Char) :
    readValue (fuel + 1) ('\x7b' :: '"' :: rest) = readFields fuel [] ('"' :: rest) := by
  rw [readValue, skipBlanks_cons (by decide)]
  simp only [skipBlanks_cons (by decide : IsSolid '"')]
  rfl

private theorem readItems_last {fuel : Nat} {cs rest : List Char} {item : Json} (read : List Json)
    (h : readValue fuel cs = some (item, ']' :: rest)) :
    readItems (fuel + 1) read cs = some (.array (read.reverse ++ [item]), rest) := by
  simp [readItems, h, skipBlanks]

private theorem readItems_next {fuel : Nat} {cs rest : List Char} {item : Json} (read : List Json)
    (h : readValue fuel cs = some (item, ',' :: rest)) :
    readItems (fuel + 1) read cs = readItems fuel (item :: read) rest := by
  simp [readItems, h, skipBlanks]

private theorem readFields_last {fuel : Nat} {name : String} {cs rest : List Char} {value : Json}
    (read : List (String × Json)) (h : readValue fuel cs = some (value, '\x7d' :: rest)) :
    readFields (fuel + 1) read (quote name ++ ':' :: cs) =
      some (.object (setField name value read), rest) := by
  rw [quote_append, readFields, skipBlanks_cons (by decide)]
  simp only [readString_quote, skipBlanks_cons (by decide : IsSolid ':'), h,
    skipBlanks_cons (by decide : IsSolid '\x7d')]

private theorem readFields_next {fuel : Nat} {name : String} {cs rest : List Char} {value : Json}
    (read : List (String × Json)) (h : readValue fuel cs = some (value, ',' :: rest)) :
    readFields (fuel + 1) read (quote name ++ ':' :: cs) =
      readFields fuel (setField name value read) rest := by
  rw [quote_append, readFields, skipBlanks_cons (by decide)]
  simp only [readString_quote, skipBlanks_cons (by decide : IsSolid ':'), h,
    skipBlanks_cons (by decide : IsSolid ',')]

private theorem exists_itemsChars {items : List Json} (h : AreExact items) (hn : items ≠ []) :
    ∃ c rest, itemsChars items = c :: rest ∧ Opens c := by
  match items, h with
  | [item], h => exact exists_chars h.1
  | item :: next :: more, h =>
    obtain ⟨c, rest, hc, ho⟩ := exists_chars h.1
    exact ⟨c, _, by rw [itemsChars, hc, List.cons_append]; simp, ho⟩

private theorem exists_fieldsChars {fields : List (String × Json)} (hn : fields ≠ []) :
    ∃ rest, fieldsChars fields = '"' :: rest := by
  match fields with
  | [(name, value)] => exact ⟨_, rfl⟩
  | (name, value) :: next :: more => exact ⟨_, rfl⟩

private theorem chars_array_append (items : List Json) (rest : List Char) :
    chars (.array items) ++ rest = '[' :: (itemsChars items ++ ']' :: rest) := by
  simp [chars]

private theorem chars_object_append (fields : List (String × Json)) (rest : List Char) :
    chars (.object fields) ++ rest = '\x7b' :: (fieldsChars fields ++ '\x7d' :: rest) := by
  simp [chars]

private theorem itemsChars_cons_append (item next : Json) (more : List Json) (rest : List Char) :
    itemsChars (item :: next :: more) ++ rest =
      chars item ++ ',' :: (itemsChars (next :: more) ++ rest) := by
  simp [itemsChars]

private theorem fieldsChars_cons_append (name : String) (value : Json) (next : String × Json)
    (more : List (String × Json)) (rest : List Char) :
    fieldsChars ((name, value) :: next :: more) ++ rest =
      quote name ++ ':' :: (chars value ++ ',' :: (fieldsChars (next :: more) ++ rest)) := by
  simp [fieldsChars]

-- The characters of a value bound the fuel that reading it takes: each item and each field has at
-- least one character beside its own value.
mutual

/-- A value is read from its characters. -/
theorem readValue_chars (v : Json) (h : v.IsExact) {rest : List Char} (hr : EndsNumber rest)
    (fuel : Nat) (hf : (chars v).length ≤ fuel) :
    readValue (fuel + 1) (chars v ++ rest) = some (v.asRead, rest) := by
  match v, h with
  | .null, _ | .bool true, _ | .bool false, _ => rfl
  | .int n, h =>
    obtain ⟨k, rfl⟩ := Int.eq_ofNat_of_zero_le h.1
    rw [chars_int]
    exact readValue_int fuel (Int.ofNat_lt.mp h.2) hr
  | .text s, _ => exact readValue_text fuel s rest
  | .array [], _ => rfl
  | .array (item :: more), h =>
    obtain ⟨c, tail, hc, ho⟩ := exists_itemsChars h (List.cons_ne_nil item more)
    have hl := congrArg List.length (chars_array_append (item :: more) [])
    simp only [List.append_nil, List.length_append, List.length_cons, List.length_nil] at hl
    rw [chars_array_append, hc, List.cons_append, readValue_array fuel ho, ← List.cons_append, ← hc]
    exact readItems_chars (item :: more) h (List.cons_ne_nil item more) rest [] fuel (by omega)
  | .object [], _ => rfl
  | .object (field :: more), h =>
    obtain ⟨tail, hc⟩ := exists_fieldsChars (List.cons_ne_nil field more)
    have hl := congrArg List.length (chars_object_append (field :: more) [])
    simp only [List.append_nil, List.length_append, List.length_cons, List.length_nil] at hl
    rw [chars_object_append, hc, List.cons_append, readValue_object, ← List.cons_append, ← hc]
    exact readFields_chars (field :: more) h (List.cons_ne_nil field more) rest [] fuel (by omega)

/-- The items of an array are read from their characters. -/
theorem readItems_chars (items : List Json) (h : AreExact items) (hn : items ≠ [])
    (rest : List Char) (read : List Json) (fuel : Nat)
    (hf : (itemsChars items).length + 2 ≤ fuel) :
    readItems fuel read (itemsChars items ++ ']' :: rest) =
      some (.array (read.reverse ++ itemsAsRead items), rest) := by
  obtain ⟨fuel, rfl⟩ : ∃ n, fuel = n + 2 := ⟨fuel - 2, by omega⟩
  match items, h with
  | [item], h =>
    have hend : EndsNumber (']' :: rest) := endsNumber_cons rest (.inr (.inl rfl))
    exact readItems_last read (readValue_chars item h.1 hend fuel (Nat.le_of_add_le_add_right hf))
  | item :: next :: more, h =>
    have hl := congrArg List.length (itemsChars_cons_append item next more [])
    simp only [List.append_nil, List.length_append, List.length_cons] at hl
    have hend : EndsNumber (',' :: (itemsChars (next :: more) ++ ']' :: rest)) :=
      endsNumber_cons _ (.inl rfl)
    have hv := readValue_chars item h.1 hend fuel (by omega)
    rw [itemsChars_cons_append, readItems_next read hv,
      readItems_chars (next :: more) h.2 (List.cons_ne_nil next more) rest (item.asRead :: read)
        (fuel + 1) (by omega)]
    simp [itemsAsRead]

/-- The fields of an object are read from their characters. -/
theorem readFields_chars (fields : List (String × Json)) (h : FieldsAreExact fields)
    (hn : fields ≠ []) (rest : List Char) (read : List (String × Json)) (fuel : Nat)
    (hf : (fieldsChars fields).length + 2 ≤ fuel) :
    readFields fuel read (fieldsChars fields ++ '\x7d' :: rest) =
      some (.object (fieldsAsRead read fields), rest) := by
  obtain ⟨fuel, rfl⟩ : ∃ n, fuel = n + 2 := ⟨fuel - 2, by omega⟩
  match fields, h with
  | [(name, value)], h =>
    have hl : (fieldsChars [(name, value)]).length =
        (quote name).length + ((chars value).length + 1) := by
      simp [fieldsChars]
    have hend : EndsNumber ('\x7d' :: rest) := endsNumber_cons rest (.inr (.inr rfl))
    have hv := readValue_chars value h.1 hend fuel (by omega)
    rw [fieldsChars, List.append_assoc, List.cons_append, readFields_last read hv]
    rfl
  | (name, value) :: next :: more, h =>
    have hl := congrArg List.length (fieldsChars_cons_append name value next more [])
    simp only [List.append_nil, List.length_append, List.length_cons] at hl
    have hend : EndsNumber (',' :: (fieldsChars (next :: more) ++ '\x7d' :: rest)) :=
      endsNumber_cons _ (.inl rfl)
    have hv := readValue_chars value h.1 hend fuel (by omega)
    rw [fieldsChars_cons_append, readFields_next read hv]
    exact readFields_chars (next :: more) h.2 (List.cons_ne_nil next more) rest _ (fuel + 1)
      (by omega)

end

/-- A whole text is read as the value that was written. -/
theorem read?_write {v : Json} (h : v.IsExact) : read? v.write = some v.asRead := by
  have hends : EndsNumber [] := by simp [EndsNumber]
  have hv := readValue_chars v h hends (chars v).length (Nat.le_refl _)
  rw [List.append_nil] at hv
  simp only [read?, write, String.toList_ofList, hv]
  rfl

/-- The text determines the value up to the order of fields. -/
theorem asRead_eq_of_write_eq {v w : Json} (hv : v.IsExact) (hw : w.IsExact)
    (h : v.write = w.write) : v.asRead = w.asRead := by
  have hr := read?_write hv
  rw [h, read?_write hw] at hr
  exact (Option.some.inj hr).symm

/-! ### Values as they are read -/

@[simp] theorem asRead_text (s : String) : (text s).asRead = text s := rfl

@[simp] theorem asRead_word (n : UInt64) : (word n).asRead = word n := rfl

theorem itemsAsRead_eq_map (items : List Json) : itemsAsRead items = items.map asRead := by
  induction items with
  | nil => rfl
  | cons item rest ih => rw [itemsAsRead, ih, List.map_cons]

@[simp] theorem asRead_texts (values : List String) : (texts values).asRead = texts values := by
  simp [texts, asRead, itemsAsRead_eq_map]

theorem isExact_texts (values : List String) : (texts values).IsExact := by
  simp [texts, IsExact, areExact_iff]

section Fields

variable {name : String} {value : Json} {fields read : List (String × Json)}

/-- A new field is put among the others. -/
theorem setField_perm (h : name ∉ fields.map (·.1)) :
    (setField name value fields).Perm ((name, value) :: fields) := by
  induction fields with
  | nil => exact .refl _
  | cons field rest ih =>
    obtain ⟨other, old⟩ := field
    obtain ⟨hne, hrest⟩ := not_or.mp (mt List.mem_cons.mpr h)
    rw [setField, if_neg hne]
    split
    · exact .refl _
    · exact ((ih hrest).cons _).trans (.swap _ _ _)

/-- Fields of different names are read as they were written, but for their order. -/
theorem fieldsAsRead_perm (h : (fields.map (·.1) ++ read.map (·.1)).Nodup) :
    (fieldsAsRead read fields).Perm
      (fields.map (fun field ↦ (field.1, field.2.asRead)) ++ read) := by
  induction fields generalizing read with
  | nil => exact .refl _
  | cons field rest ih =>
    obtain ⟨name, value⟩ := field
    rw [List.map_cons, List.cons_append, List.nodup_cons, List.mem_append, not_or] at h
    obtain ⟨⟨hrest, hread⟩, hnodup⟩ := h
    have hset := @setField_perm name value.asRead read hread
    have hnames : (rest.map (·.1) ++ (setField name value.asRead read).map (·.1)).Nodup := by
      refine ((hset.map (·.1)).append_left _).nodup_iff.mpr ?_
      rw [List.map_cons, List.perm_middle.nodup_iff, List.nodup_cons, List.mem_append, not_or]
      exact ⟨⟨hrest, hread⟩, hnodup⟩
    exact (ih hnames).trans ((hset.append_left _).trans List.perm_middle)

end Fields

end TaintRules.Json
