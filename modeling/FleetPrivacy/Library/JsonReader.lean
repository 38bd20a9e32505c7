import FleetPrivacy.Library.Json

/-!
# Reading JSON texts

`Json.loads` reads what the two writers produce: `Json.dumps`, and
`Json.dumpsAscii` with non-ASCII characters escaped.  Both round trips
(`loads_dumps`, `loads_dumpsAscii`) come from one argument about a writer whose
literals can be read back character by character.  Mappings come back with
sorted keys, `sorted`.
-/

namespace Json

/-! ## Escaped characters -/

/-- `\uXXXX`. -/
def unicodeEscape (unit : Nat) : List Char :=
  [backslash, 'u', Nat.digitChar (unit / 4096),
    Nat.digitChar (unit / 256 % 16), Nat.digitChar (unit / 16 % 16),
    Nat.digitChar (unit % 16)]

/-- One character inside a string literal that is written with
`ensure_ascii=True`; from U+10000 on it takes two surrogates. -/
def escapeAscii (character : Char) : List Char :=
  match escapeLetter character.toNat with
  | some letter => [backslash, letter]
  | none =>
      if 32 ≤ character.toNat ∧ character.toNat < 127 then [character]
      else if character.toNat < 65536 then unicodeEscape character.toNat
      else
        unicodeEscape (55296 + (character.toNat - 65536) / 1024) ++
          unicodeEscape (56320 + (character.toNat - 65536) % 1024)

def hexDigit? (digit : Char) : Option Nat :=
  if digit.isDigit then some (digit.toNat - 48)
  else if 97 ≤ digit.toNat ∧ digit.toNat ≤ 102 then some (digit.toNat - 87)
  else if 65 ≤ digit.toNat ∧ digit.toNat ≤ 70 then some (digit.toNat - 55)
  else none

/-- Four hexadecimal digits. -/
def readUnit : List Char → Option (Nat × List Char)
  | first :: second :: third :: fourth :: rest => do
      let first ← hexDigit? first
      let second ← hexDigit? second
      let third ← hexDigit? third
      let fourth ← hexDigit? fourth
      some (4096 * first + 256 * second + 16 * third + fourth, rest)
  | _ => none

/-- The second half of a surrogate pair. -/
def readLow (high : Nat) : List Char → Option (Char × List Char)
  | first :: 'u' :: text =>
      if first = backslash then
        match readUnit text with
        | some (low, rest) =>
            if 56320 ≤ low ∧ low < 57344 then
              some (Char.ofNat
                (65536 + 1024 * (high - 55296) + (low - 56320)), rest)
            else none
        | none => none
      else none
  | _ => none

/-- The character of a two-character escape. -/
def escapedBy? (letter : Char) : Option Char :=
  match letter with
  | 'b' => some (Char.ofNat 8)
  | 't' => some (Char.ofNat 9)
  | 'n' => some (Char.ofNat 10)
  | 'f' => some (Char.ofNat 12)
  | 'r' => some (Char.ofNat 13)
  | _ =>
      if letter = quote ∨ letter = backslash ∨ letter = '/' then some letter
      else none

/-- What follows a backslash.  A surrogate without its other half is no
character. -/
def readEscape : List Char → Option (Char × List Char)
  | 'u' :: text =>
      match readUnit text with
      | some (unit, rest) =>
          if 55296 ≤ unit ∧ unit < 56320 then readLow unit rest
          else if 56320 ≤ unit ∧ unit < 57344 then none
          else some (Char.ofNat unit, rest)
      | none => none
  | letter :: rest => (escapedBy? letter).map fun character => (character, rest)
  | [] => none

/-- One character of a string literal. -/
def readCharacter : List Char → Option (Char × List Char)
  | [] => none
  | first :: rest =>
      if first = backslash then readEscape rest
      else if first = quote ∨ first.toNat < 32 then none
      else some (first, rest)

/-- The characters up to the closing quote. -/
def readLiteral : Nat → List Char → Option (List Char × List Char)
  | 0, _ => none
  | fuel + 1, text =>
      if text.head? = some quote then some ([], text.tail)
      else
        match readCharacter text with
        | none => none
        | some (character, rest) =>
            match readLiteral fuel rest with
            | none => none
            | some (characters, rest) => some (character :: characters, rest)

/-! ## Values -/

/-- Whitespace between tokens. -/
def skip (text : List Char) : List Char :=
  text.dropWhile fun character => [32, 9, 10, 13].contains character.toNat

def readNat (text : List Char) : Option (Nat × List Char) :=
  match text with
  | '0' :: rest => some (0, rest)
  | _ =>
      match text.takeWhile Char.isDigit with
      | [] => none
      | digit :: digits =>
          some (Nat.ofDigitChars 10 (digit :: digits) 0,
            text.dropWhile Char.isDigit)

/-- Integers.  A number with a fraction or an exponent is a float, which `Json`
does not have. -/
def readInt (text : List Char) : Option (Int × List Char) :=
  match text with
  | '-' :: text =>
      match readNat text with
      | none => none
      | some (value, rest) => some (-(value : Int), rest)
  | _ =>
      match readNat text with
      | none => none
      | some (value, rest) => some ((value : Int), rest)

def fractional (text : List Char) : Bool :=
  text.head?.any fun character => ['.', 'e', 'E'].contains character

def readNumber (text : List Char) : Option (Json × List Char) :=
  match readInt text with
  | none => none
  | some (value, rest) =>
      if fractional rest then none else some (.int value, rest)

def readConstant : List Char → Option (Json × List Char)
  | 'n' :: 'u' :: 'l' :: 'l' :: rest => some (.null, rest)
  | 't' :: 'r' :: 'u' :: 'e' :: rest => some (.bool true, rest)
  | 'f' :: 'a' :: 'l' :: 's' :: 'e' :: rest => some (.bool false, rest)
  | _ => none

/-- `mapping[key] = value`: a key keeps its place. -/
def setField (key : String) (value : Json) :
    List (String × Json) → List (String × Json)
  | [] => [(key, value)]
  | field :: fields =>
      if field.1 = key then (key, value) :: fields
      else field :: setField key value fields

/-- `dict(pairs)`. -/
def dict (pairs : List (String × Json)) : List (String × Json) :=
  pairs.foldl (fun fields pair => setField pair.1 pair.2 fields) []

mutual

/-- The value at the start of a text.  The fuel bounds the depth of the
calls. -/
def readValue : Nat → List Char → Option (Json × List Char)
  | 0, _ => none
  | fuel + 1, text =>
      match text with
      | [] => none
      | first :: tail =>
          if first = quote then
            match readLiteral (tail.length + 1) tail with
            | none => none
            | some (characters, rest) =>
                some (.str (String.ofList characters), rest)
          else if first = '[' then
            if (skip tail).head? = some ']' then
              some (.arr [], (skip tail).tail)
            else
              match readItems fuel (skip tail) with
              | none => none
              | some (items, rest) => some (.arr items, rest)
          else if first = '{' then
            if (skip tail).head? = some '}' then
              some (.obj [], (skip tail).tail)
            else
              match readFields fuel (skip tail) with
              | none => none
              | some (fields, rest) => some (.obj (dict fields), rest)
          else (readConstant text).or (readNumber text)

/-- The items up to the closing bracket. -/
def readItems : Nat → List Char → Option (List Json × List Char)
  | 0, _ => none
  | fuel + 1, text =>
      match readValue fuel text with
      | none => none
      | some (item, rest) =>
          match skip rest with
          | ',' :: rest =>
              match readItems fuel (skip rest) with
              | none => none
              | some (items, rest) => some (item :: items, rest)
          | ']' :: rest => some ([item], rest)
          | _ => none

/-- The fields up to the closing brace. -/
def readFields : Nat → List Char → Option (List (String × Json) × List Char)
  | 0, _ => none
  | fuel + 1, text =>
      if text.head? = some quote then
        match readLiteral (text.length + 1) text.tail with
        | none => none
        | some (key, rest) =>
            match skip rest with
            | ':' :: rest =>
                match readValue fuel (skip rest) with
                | none => none
                | some (value, rest) =>
                    match skip rest with
                    | ',' :: rest =>
                        match readFields fuel (skip rest) with
                        | none => none
                        | some (fields, rest) =>
                            some ((String.ofList key, value) :: fields, rest)
                    | '}' :: rest => some ([(String.ofList key, value)], rest)
                    | _ => none
            | _ => none
      else none

end

/-- `json.loads`. -/
def loads (text : String) : Option Json :=
  match readValue (2 * text.toList.length + 1) (skip text.toList) with
  | none => none
  | some (value, rest) => if skip rest = [] then some value else none

/-! ## Reading back one character -/

private theorem hexDigit_digitChar (digit : Nat) (small : digit < 16) :
    hexDigit? (Nat.digitChar digit) = some digit := by
  interval_cases digit <;> rfl

private theorem readUnit_unicodeEscape (unit : Nat) (small : unit < 65536)
    (rest : List Char) :
    readUnit ((unicodeEscape unit).drop 2 ++ rest) = some (unit, rest) := by
  have first := hexDigit_digitChar (unit / 4096) (by omega)
  have second := hexDigit_digitChar (unit / 256 % 16) (by omega)
  have third := hexDigit_digitChar (unit / 16 % 16) (by omega)
  have fourth := hexDigit_digitChar (unit % 16) (by omega)
  have total : 4096 * (unit / 4096) + 256 * (unit / 256 % 16) +
      16 * (unit / 16 % 16) + unit % 16 = unit := by
    omega
  simp [unicodeEscape, readUnit, first, second, third, fourth, total]

/-- A code unit outside the surrogates stands for its character. -/
private theorem readCharacter_unit {unit : Nat} (small : unit < 65536)
    (plain : unit < 55296 ∨ 57344 ≤ unit) (rest : List Char) :
    readCharacter (unicodeEscape unit ++ rest) =
      some (Char.ofNat unit, rest) := by
  have high : ¬ (55296 ≤ unit ∧ unit < 56320) := by omega
  have low : ¬ (56320 ≤ unit ∧ unit < 57344) := by omega
  have read := readUnit_unicodeEscape unit small rest
  have opened : unicodeEscape unit ++ rest =
      backslash :: 'u' :: ((unicodeEscape unit).drop 2 ++ rest) := rfl
  rw [opened, readCharacter, if_pos rfl, readEscape, read]
  simp only [high, low, if_false]

private theorem readCharacter_pair {offset : Nat} (bound : offset < 1048576)
    (rest : List Char) :
    readCharacter (unicodeEscape (55296 + offset / 1024) ++
        (unicodeEscape (56320 + offset % 1024) ++ rest)) =
      some (Char.ofNat (65536 + offset), rest) := by
  have high := readUnit_unicodeEscape (55296 + offset / 1024)
    (by omega) (unicodeEscape (56320 + offset % 1024) ++ rest)
  have low := readUnit_unicodeEscape (56320 + offset % 1024)
    (by omega) rest
  have inHigh : 55296 ≤ 55296 + offset / 1024 ∧
      55296 + offset / 1024 < 56320 := by
    omega
  have inLow : 56320 ≤ 56320 + offset % 1024 ∧
      56320 + offset % 1024 < 57344 := by
    omega
  have code : 65536 + 1024 * (55296 + offset / 1024 - 55296) +
      (56320 + offset % 1024 - 56320) = 65536 + offset := by
    omega
  have opened : ∀ (unit : Nat) (text : List Char),
      unicodeEscape unit ++ text =
        backslash :: 'u' :: ((unicodeEscape unit).drop 2 ++ text) :=
    fun _ _ => rfl
  rw [opened (55296 + offset / 1024), readCharacter, if_pos rfl, readEscape,
    high]
  simp only [inHigh, and_self, if_true]
  rw [opened (56320 + offset % 1024), readLow, if_pos rfl, low]
  simp only [inLow, and_self, if_true, code]

/-- The letters that `escapeLetter` writes. -/
private theorem readCharacter_letter {character letter : Char}
    (escaped : escapeLetter character.toNat = some letter)
    (rest : List Char) :
    readCharacter ([backslash, letter] ++ rest) = some (character, rest) := by
  have restored : Char.ofNat character.toNat = character :=
    Char.ofNat_toNat character
  rw [← restored]
  unfold escapeLetter at escaped
  split at escaped <;> rename_i code <;> cases escaped <;> rw [code] <;> rfl

private theorem readCharacter_plain {character : Char}
    (unescaped : escapeLetter character.toNat = none)
    (printable : ¬ character.toNat < 32) (rest : List Char) :
    readCharacter ([character] ++ rest) = some (character, rest) := by
  have notBackslash : character ≠ backslash := by
    rintro rfl
    cases unescaped
  have notQuote : character ≠ quote := by
    rintro rfl
    cases unescaped
  simp [readCharacter, notBackslash, notQuote, printable]

/-- A writer of characters whose literals can be read back. -/
def Readable (write : Char → List Char) : Prop :=
  ∀ character rest,
    readCharacter (write character ++ rest) = some (character, rest)

theorem readable_escape : Readable escape := by
  intro character rest
  unfold escape
  split
  next letter escaped => exact readCharacter_letter escaped rest
  next unescaped =>
    split
    next control =>
      have written : [backslash, 'u', '0', '0',
          Nat.digitChar (character.toNat / 16),
          Nat.digitChar (character.toNat % 16)] =
            unicodeEscape character.toNat := by
        have first : character.toNat / 4096 = 0 := by omega
        have second : character.toNat / 256 % 16 = 0 := by omega
        have third : character.toNat / 16 % 16 = character.toNat / 16 := by
          omega
        rw [unicodeEscape, first, second, third]
        rfl
      rw [written, readCharacter_unit (by omega) (.inl (by omega)),
        Char.ofNat_toNat]
    next printable => exact readCharacter_plain unescaped printable rest

theorem readable_escapeAscii : Readable escapeAscii := by
  intro character rest
  unfold escapeAscii
  split
  next letter escaped => exact readCharacter_letter escaped rest
  next unescaped =>
    have valid : character.toNat < 55296 ∨
        57343 < character.toNat ∧ character.toNat < 1114112 := character.valid
    split
    next printable =>
      exact readCharacter_plain unescaped (by omega) rest
    next =>
      split
      next small =>
        rw [readCharacter_unit small (by omega), Char.ofNat_toNat]
      next large =>
        have code : 65536 + (character.toNat - 65536) = character.toNat := by
          omega
        rw [List.append_assoc, readCharacter_pair (by omega), code,
          Char.ofNat_toNat]

/-! ## Reading back numbers -/

/-- What follows a value is no part of a number. -/
def EndsNumber (rest : List Char) : Prop :=
  ∀ character ∈ rest.head?,
    character.isDigit = false ∧ ['.', 'e', 'E'].contains character = false

private theorem isDigit_toDigits {value : Nat} :
    ∀ digit ∈ Nat.toDigits 10 value, digit.isDigit = true := by
  intro digit member
  exact Nat.isDigit_of_mem_toDigits (by decide) (by decide) member

private theorem head_toDigits {value : Nat} (positive : 0 < value) :
    ∃ digit digits, Nat.toDigits 10 value = digit :: digits ∧ digit ≠ '0' := by
  induction value using Nat.strongRecOn with
  | ind value induction =>
      by_cases small : value < 10
      · refine ⟨Nat.digitChar value, [], Nat.toDigits_of_lt_base small, ?_⟩
        interval_cases value <;> decide
      · obtain ⟨digit, digits, split, nonzero⟩ :=
          induction (value / 10) (by omega) (by omega)
        refine ⟨digit, digits ++ [Nat.digitChar (value % 10)], ?_, nonzero⟩
        rw [Nat.toDigits_of_base_le (by decide) (by omega), split]
        rfl

private theorem readNat_toDigits (value : Nat) {rest : List Char}
    (ends : EndsNumber rest) :
    readNat (Nat.toDigits 10 value ++ rest) = some (value, rest) := by
  have stops : rest.takeWhile Char.isDigit = [] ∧
      rest.dropWhile Char.isDigit = rest := by
    cases rest with
    | nil => exact ⟨rfl, rfl⟩
    | cons first tail =>
        have notDigit := (ends first rfl).1
        constructor
        · rw [List.takeWhile_cons_of_neg (by simp [notDigit])]
        · rw [List.dropWhile_cons_of_neg (by simp [notDigit])]
  rcases Nat.eq_zero_or_pos value with zero | positive
  · subst zero
    rfl
  · obtain ⟨digit, digits, split, nonzero⟩ := head_toDigits positive
    have digitsOnly := @isDigit_toDigits value
    have taken : (Nat.toDigits 10 value ++ rest).takeWhile Char.isDigit =
        digit :: digits := by
      rw [List.takeWhile_append_of_pos digitsOnly, stops.1, List.append_nil,
        split]
    have left : (Nat.toDigits 10 value ++ rest).dropWhile Char.isDigit =
        rest := by
      rw [List.dropWhile_append_of_pos digitsOnly, stops.2]
    have total : Nat.ofDigitChars 10 (digit :: digits) 0 = value := by
      rw [← split]
      exact Nat.ofDigitChars_ten_toDigits
    unfold readNat
    split
    next tail zero =>
      rw [split, List.cons_append, List.cons.injEq] at zero
      exact absurd zero.1 nonzero
    next =>
      rw [taken, left]
      simp only [total]

private theorem readInt_integer (value : Int) {rest : List Char}
    (ends : EndsNumber rest) :
    readInt (integer value ++ rest) = some (value, rest) := by
  cases value with
  | ofNat value =>
      have read := readNat_toDigits value ends
      rw [integer]
      unfold readInt
      split
      next tail minus =>
        obtain ⟨digit, digits, split⟩ : ∃ digit digits,
            Nat.toDigits 10 value = digit :: digits :=
          List.exists_cons_of_ne_nil Nat.toDigits_ne_nil
        have isDigit := @isDigit_toDigits value digit (by simp [split])
        rw [split, List.cons_append, List.cons.injEq] at minus
        rw [minus.1] at isDigit
        cases isDigit
      next =>
        rw [read]
        rfl
  | negSucc value =>
      have read := readNat_toDigits (value + 1) ends
      simp only [integer, List.cons_append, readInt, read]
      rfl

private theorem readNumber_integer (value : Int) {rest : List Char}
    (ends : EndsNumber rest) :
    readNumber (integer value ++ rest) = some (.int value, rest) := by
  have whole : fractional rest = false := by
    cases rest with
    | nil => rfl
    | cons first tail => exact (ends first rfl).2
  rw [readNumber, readInt_integer value ends]
  simp only [whole, Bool.false_eq_true, if_false]

/-! ## The writers -/

section Writer

variable (write : Char → List Char)

def literalWith (text : String) : List Char :=
  quote :: (text.toList.flatMap write ++ [quote])

mutual

/-- `json.dumps(value, separators=(",", ":"), sort_keys=True)` with characters
written by `write`. -/
def textWith : Json → List Char
  | .null => "null".toList
  | .bool value => if value then "true".toList else "false".toList
  | .int value => integer value
  | .str value => literalWith write value
  | .arr items => '[' :: (joined ',' (itemTextsWith items) ++ [']'])
  | .obj fields =>
      '{' :: (joined ','
        (((fieldTextsWith fields).insertionSort
          fun left right => left.1 ≤ right.1).map Prod.snd) ++ ['}'])
termination_by structural value => value

def itemTextsWith : List Json → List (List Char)
  | [] => []
  | item :: items => textWith item :: itemTextsWith items
termination_by structural items => items

def fieldTextsWith : List (String × Json) → List (String × List Char)
  | [] => []
  | (key, value) :: fields =>
      (key, literalWith write key ++ ':' :: textWith value) ::
        fieldTextsWith fields
termination_by structural fields => fields

end

end Writer

/-- `json.dumps(value, separators=(",", ":"), sort_keys=True)`, with its
default `ensure_ascii=True`. -/
def dumpsAscii (value : Json) : String :=
  String.ofList (textWith escapeAscii value)

mutual

private theorem textWith_escape : (value : Json) →
    textWith escape value = text value
  | .null | .bool _ | .int _ | .str _ => rfl
  | .arr items => by rw [textWith, text, itemTextsWith_escape items]
  | .obj fields => by rw [textWith, text, fieldTextsWith_escape fields]

private theorem itemTextsWith_escape : (items : List Json) →
    itemTextsWith escape items = itemTexts items
  | [] => rfl
  | item :: items => by
      rw [itemTextsWith, itemTexts, textWith_escape item,
        itemTextsWith_escape items]

private theorem fieldTextsWith_escape : (fields : List (String × Json)) →
    fieldTextsWith escape fields = fieldTexts fields
  | [] => rfl
  | (key, value) :: fields => by
      rw [fieldTextsWith, fieldTexts, textWith_escape value,
        fieldTextsWith_escape fields]
      rfl

end

/-! ## Mappings -/

mutual

/-- Every mapping inside has pairwise distinct keys, as a `dict` has. -/
def keysDistinct : Json → Bool
  | .null | .bool _ | .int _ | .str _ => true
  | .arr items => itemsDistinct items
  | .obj fields =>
      decide (fields.map Prod.fst).Nodup && fieldsDistinct fields
termination_by structural value => value

def itemsDistinct : List Json → Bool
  | [] => true
  | item :: items => keysDistinct item && itemsDistinct items
termination_by structural items => items

def fieldsDistinct : List (String × Json) → Bool
  | [] => true
  | (_, value) :: fields => keysDistinct value && fieldsDistinct fields
termination_by structural fields => fields

end

mutual

/-- The same value with the keys of every mapping in order.  Two values with
distinct keys are equal for Python if these are equal. -/
def sorted : Json → Json
  | .null => .null
  | .bool value => .bool value
  | .int value => .int value
  | .str value => .str value
  | .arr items => .arr (itemsSorted items)
  | .obj fields =>
      .obj ((fieldsSorted fields).insertionSort
        fun left right => left.1 ≤ right.1)
termination_by structural value => value

def itemsSorted : List Json → List Json
  | [] => []
  | item :: items => sorted item :: itemsSorted items
termination_by structural items => items

def fieldsSorted : List (String × Json) → List (String × Json)
  | [] => []
  | (key, value) :: fields => (key, sorted value) :: fieldsSorted fields
termination_by structural fields => fields

end

private theorem fieldsSorted_eq_map (fields : List (String × Json)) :
    fieldsSorted fields =
      fields.map fun field => (field.1, sorted field.2) := by
  induction fields with
  | nil => rfl
  | cons field fields induction => rw [fieldsSorted, induction, List.map_cons]

theorem itemsSorted_eq_map (items : List Json) :
    itemsSorted items = items.map sorted := by
  induction items with
  | nil => rfl
  | cons item items induction => rw [itemsSorted, induction, List.map_cons]

private theorem itemTextsWith_eq_map (write : Char → List Char)
    (items : List Json) :
    itemTextsWith write items = items.map (textWith write) := by
  induction items with
  | nil => rfl
  | cons item items induction => rw [itemTextsWith, induction, List.map_cons]

def fieldText (write : Char → List Char) (field : String × Json) :
    List Char :=
  literalWith write field.1 ++ ':' :: textWith write field.2

private theorem fieldTextsWith_eq_map (write : Char → List Char)
    (fields : List (String × Json)) :
    fieldTextsWith write fields =
      fields.map fun field => (field.1, fieldText write field) := by
  induction fields with
  | nil => rfl
  | cons field fields induction =>
      rw [fieldTextsWith, induction, List.map_cons, fieldText]

/-- The fields of a mapping in the order of their keys. -/
def ordered (fields : List (String × Json)) : List (String × Json) :=
  fields.insertionSort fun left right => left.1 ≤ right.1

private theorem sorted_obj (fields : List (String × Json)) :
    sorted (.obj fields) =
      .obj ((ordered fields).map fun field => (field.1, sorted field.2)) := by
  rw [sorted, fieldsSorted_eq_map, ordered, ← List.map_insertionSort
    (fun left right : String × Json => left.1 ≤ right.1)]
  intro left _ right _
  exact Iff.rfl

private theorem textWith_obj (write : Char → List Char)
    (fields : List (String × Json)) :
    textWith write (.obj fields) =
      '{' :: (joined ',' ((ordered fields).map (fieldText write)) ++
        ['}']) := by
  rw [textWith, fieldTextsWith_eq_map, ordered, ← List.map_insertionSort
    (fun left right : String × Json => left.1 ≤ right.1), List.map_map]
  · rfl
  · intro left _ right _
    exact Iff.rfl

theorem itemsDistinct_iff (items : List Json) :
    itemsDistinct items = true ↔ ∀ item ∈ items, keysDistinct item = true := by
  induction items with
  | nil => simp [itemsDistinct]
  | cons item items induction => simp [itemsDistinct, induction]

theorem fieldsDistinct_iff (fields : List (String × Json)) :
    fieldsDistinct fields = true ↔
      ∀ field ∈ fields, keysDistinct field.2 = true := by
  induction fields with
  | nil => simp [fieldsDistinct]
  | cons field fields induction =>
      rw [fieldsDistinct, Bool.and_eq_true, induction, List.forall_mem_cons]

private theorem lookup_eq_some_iff_mem {fields : List (String × Json)}
    (distinct : (fields.map Prod.fst).Nodup) {key : String} {value : Json} :
    fields.lookup key = some value ↔ (key, value) ∈ fields := by
  rw [List.lookup_eq_some_iff]
  constructor
  · rintro ⟨before, after, split, _⟩
    rw [split]
    exact List.mem_append_right before List.mem_cons_self
  · intro member
    obtain ⟨before, after, split⟩ := List.append_of_mem member
    refine ⟨before, after, split, ?_⟩
    intro pair earlier
    rw [split, List.map_append, List.nodup_append] at distinct
    rw [bne_iff_ne]
    intro same
    exact distinct.2.2 pair.1 (List.mem_map_of_mem earlier) key
      List.mem_cons_self same.symm

/-- Sorting the keys changes no lookup. -/
theorem get?_sorted {value : Json} (distinct : value.keysDistinct = true)
    (key : String) : value.sorted.get? key = (value.get? key).map sorted := by
  cases value with
  | obj fields =>
      rw [keysDistinct, Bool.and_eq_true, decide_eq_true_iff] at distinct
      have permuted : (ordered fields).Perm fields :=
        List.perm_insertionSort _ fields
      have keys : (((ordered fields).map fun field =>
          (field.1, sorted field.2)).map Prod.fst).Nodup := by
        rw [List.map_map]
        exact (permuted.map Prod.fst).nodup_iff.mpr distinct.1
      rw [sorted_obj]
      apply Option.ext
      intro found
      rw [get?, lookup_eq_some_iff_mem keys, get?, Option.map_eq_some_iff,
        List.mem_map]
      constructor
      · rintro ⟨field, member, same⟩
        rw [Prod.mk.injEq] at same
        refine ⟨field.2, ?_, same.2⟩
        rw [lookup_eq_some_iff_mem distinct.1, ← same.1]
        exact permuted.mem_iff.mp member
      · rintro ⟨inner, located, same⟩
        rw [lookup_eq_some_iff_mem distinct.1] at located
        exact ⟨(key, inner), permuted.mem_iff.mpr located, by rw [same]⟩
  | null | bool _ | int _ | str _ | arr _ => rfl

/-! ## Round trip -/

section RoundTrip

variable {write : Char → List Char}

private theorem Readable.cons (readable : Readable write)
    (character : Char) (rest : List Char) :
    ∃ first tail, write character ++ rest = first :: tail ∧
      first ≠ quote := by
  have read := readable character rest
  cases written : write character ++ rest with
  | nil =>
      rw [written] at read
      cases read
  | cons first tail =>
      refine ⟨first, tail, rfl, ?_⟩
      rintro rfl
      rw [written] at read
      cases read

private theorem Readable.length_le (readable : Readable write)
    (characters : List Char) :
    characters.length ≤ (characters.flatMap write).length := by
  induction characters with
  | nil => exact Nat.le_refl 0
  | cons character characters induction =>
      obtain ⟨first, tail, written, _⟩ := readable.cons character []
      have positive := congrArg List.length written
      rw [List.flatMap_cons, List.length_append, List.length_cons]
      rw [List.length_append, List.length_nil, List.length_cons] at positive
      omega

private theorem readLiteral_flatMap (readable : Readable write)
    (characters : List Char) (rest : List Char) (fuel : Nat)
    (enough : characters.length < fuel) :
    readLiteral fuel (characters.flatMap write ++ quote :: rest) =
      some (characters, rest) := by
  induction characters generalizing fuel with
  | nil =>
      cases fuel with
      | zero => cases enough
      | succ fuel => rfl
  | cons character characters induction =>
      cases fuel with
      | zero => cases enough
      | succ fuel =>
          have read := readable character
            (characters.flatMap write ++ quote :: rest)
          obtain ⟨first, tail, written, notQuote⟩ := readable.cons character
            (characters.flatMap write ++ quote :: rest)
          have opened : (first :: tail).head? ≠ some quote := by
            simpa using notQuote
          rw [List.flatMap_cons, List.append_assoc, readLiteral, read, written,
            if_neg opened]
          dsimp only
          rw [induction fuel (Nat.lt_of_succ_lt_succ enough)]

/-- A literal, after its opening quote. -/
private theorem readLiteral_literalWith (readable : Readable write)
    (text : String) (rest : List Char) (fuel : Nat)
    (enough : (literalWith write text ++ rest).length ≤ fuel + 1) :
    readLiteral fuel (literalWith write text ++ rest).tail =
      some (text.toList, rest) := by
  have opened : (literalWith write text ++ rest).tail =
      text.toList.flatMap write ++ quote :: rest := by
    simp [literalWith]
  have shorter := readable.length_le text.toList
  rw [opened]
  apply readLiteral_flatMap readable
  simp only [literalWith, List.cons_append, List.append_assoc,
    List.length_cons, List.length_append] at enough
  omega

/-- What the first character of a value is not. -/
def StartsValue (first : Char) : Prop :=
  [' ', ']', '}', Char.ofNat 9, Char.ofNat 10, Char.ofNat 13].contains first =
    false

instance (first : Char) : Decidable (StartsValue first) :=
  inferInstanceAs (Decidable (List.contains _ first = false))

private theorem skip_cons {first : Char} (starts : StartsValue first)
    (tail : List Char) : skip (first :: tail) = first :: tail := by
  have restored : Char.ofNat first.toNat = first := Char.ofNat_toNat first
  apply List.dropWhile_cons_of_neg
  intro blank
  rw [List.contains_iff_mem] at blank
  rw [← restored] at starts
  simp only [List.mem_cons, List.not_mem_nil, or_false] at blank
  rcases blank with code | code | code | code <;> rw [code] at starts <;>
    exact absurd starts (by decide)

private theorem integer_cons (value : Int) :
    ∃ first tail, integer value = first :: tail ∧
      (first = '-' ∨ first.isDigit = true) := by
  cases value with
  | ofNat value =>
      obtain ⟨digit, digits, written⟩ :=
        List.exists_cons_of_ne_nil (@Nat.toDigits_ne_nil value 10)
      refine ⟨digit, digits, written, .inr ?_⟩
      exact @isDigit_toDigits value digit (by simp [written])
  | negSucc value => exact ⟨'-', _, rfl, .inl rfl⟩

private theorem isDigit_ne {digit other : Char} (isDigit : digit.isDigit = true)
    (outside : other.isDigit = false) : digit ≠ other := by
  rintro rfl
  rw [isDigit] at outside
  cases outside

private theorem nonDigits : ([' ', ']', '}', Char.ofNat 9, Char.ofNat 10,
    Char.ofNat 13].all fun other => !other.isDigit) = true := by
  decide

/-- The first character of a number opens nothing else. -/
private theorem number_first {first : Char}
    (number : first = '-' ∨ first.isDigit = true) :
    StartsValue first ∧ first ≠ quote ∧ first ≠ '[' ∧ first ≠ '{' ∧
      first ≠ 'n' ∧ first ≠ 't' ∧ first ≠ 'f' := by
  rcases number with rfl | isDigit
  · decide
  · refine ⟨?_, isDigit_ne isDigit rfl, isDigit_ne isDigit rfl,
      isDigit_ne isDigit rfl, isDigit_ne isDigit rfl, isDigit_ne isDigit rfl,
      isDigit_ne isDigit rfl⟩
    refine Bool.eq_false_iff.mpr fun listed => ?_
    have outside := List.all_eq_true.mp nonDigits first
      (List.contains_iff_mem.mp listed)
    rw [isDigit] at outside
    cases outside

private theorem textWith_cons (write : Char → List Char) (value : Json) :
    ∃ first tail, textWith write value = first :: tail ∧
      StartsValue first := by
  cases value with
  | null => exact ⟨_, _, rfl, by decide⟩
  | bool value =>
      cases value with
      | false => exact ⟨_, _, rfl, by decide⟩
      | true => exact ⟨_, _, rfl, by decide⟩
  | int value =>
      obtain ⟨first, tail, written, number⟩ := integer_cons value
      exact ⟨first, tail, written, (number_first number).1⟩
  | str value => exact ⟨_, _, rfl, by decide⟩
  | arr items => exact ⟨_, _, rfl, by decide⟩
  | obj fields => exact ⟨_, _, rfl, by decide⟩

private theorem skip_textWith (write : Char → List Char) (value : Json)
    (rest : List Char) :
    skip (textWith write value ++ rest) = textWith write value ++ rest := by
  obtain ⟨first, tail, written, starts⟩ := textWith_cons write value
  rw [written, List.cons_append]
  exact skip_cons starts _

private theorem skip_literalWith (text : String) (rest : List Char) :
    skip (literalWith write text ++ rest) = literalWith write text ++ rest :=
  skip_textWith write (.str text) rest

/-- The text of a value is read back, whatever follows. -/
def Reads (write : Char → List Char) (value : Json) : Prop :=
  ∀ (rest : List Char) (fuel : Nat), EndsNumber rest →
    2 * (textWith write value ++ rest).length < fuel →
    readValue fuel (textWith write value ++ rest) = some (sorted value, rest)

private theorem endsNumber_cons {first : Char}
    (separator : first = ',' ∨ first = ']' ∨ first = '}') (rest : List Char) :
    EndsNumber (first :: rest) := by
  intro character isFirst
  cases isFirst
  rcases separator with rfl | rfl | rfl
  · decide
  · decide
  · decide

private theorem joined_cons_cons (separator : Char) (part next : List Char)
    (parts : List (List Char)) :
    joined separator (part :: next :: parts) =
      part ++ separator :: joined separator (next :: parts) :=
  rfl

private theorem readItems_comma {text rest last : List Char} {fuel : Nat}
    {item : Json} {items : List Json}
    (first : readValue fuel text = some (item, ',' :: rest))
    (more : readItems fuel (skip rest) = some (items, last)) :
    readItems (fuel + 1) text = some (item :: items, last) := by
  have comma : skip (',' :: rest) = ',' :: rest := rfl
  simp [readItems, first, comma, more]

private theorem readItems_bracket {text rest : List Char} {fuel : Nat}
    {item : Json} (first : readValue fuel text = some (item, ']' :: rest)) :
    readItems (fuel + 1) text = some ([item], rest) := by
  have bracket : skip (']' :: rest) = ']' :: rest := rfl
  simp [readItems, first, bracket]

private theorem readItems_joined (items : List Json) (nonempty : items ≠ [])
    (reads : ∀ item ∈ items, Reads write item) (rest : List Char) (fuel : Nat)
    (enough : 2 * (joined ',' (items.map (textWith write)) ++
      ']' :: rest).length + 1 < fuel) :
    readItems fuel (joined ',' (items.map (textWith write)) ++ ']' :: rest) =
      some (items.map sorted, rest) := by
  induction items generalizing fuel with
  | nil => exact absurd rfl nonempty
  | cons item items induction =>
      have readsItem := reads item List.mem_cons_self
      cases fuel with
      | zero => cases enough
      | succ fuel =>
          cases items with
          | nil =>
              have read := readsItem (']' :: rest) fuel
                (endsNumber_cons (.inr (.inl rfl)) rest)
                (by simpa [joined] using Nat.lt_of_succ_lt_succ enough)
              exact readItems_bracket read
          | cons other items =>
              rw [List.map_cons, List.map_cons, joined_cons_cons,
                List.append_assoc, List.cons_append] at enough ⊢
              have read := readsItem (',' :: (joined ','
                  (textWith write other :: items.map (textWith write)) ++
                    ']' :: rest)) fuel (endsNumber_cons (.inl rfl) _)
                (by omega)
              have opened : skip (joined ','
                  (textWith write other :: items.map (textWith write)) ++
                    ']' :: rest) =
                  joined ','
                    (textWith write other :: items.map (textWith write)) ++
                      ']' :: rest := by
                cases items with
                | nil => exact skip_textWith write other _
                | cons next items =>
                    rw [List.map_cons, joined_cons_cons, List.append_assoc]
                    exact skip_textWith write other _
              have later := induction (List.cons_ne_nil other items)
                (fun value member => reads value (.tail item member)) fuel
                (by
                  simp only [List.length_append, List.length_cons,
                    List.map_cons] at enough ⊢
                  omega)
              rw [List.map_cons, ← opened] at later
              exact readItems_comma read later

private theorem readFields_comma {text after rest last key : List Char}
    {fuel : Nat} {value : Json} {fields : List (String × Json)}
    (opened : text.head? = some quote)
    (literal : readLiteral (text.length + 1) text.tail =
      some (key, ':' :: after))
    (first : readValue fuel (skip after) = some (value, ',' :: rest))
    (more : readFields fuel (skip rest) = some (fields, last)) :
    readFields (fuel + 1) text =
      some ((String.ofList key, value) :: fields, last) := by
  have colon : skip (':' :: after) = ':' :: after := rfl
  have comma : skip (',' :: rest) = ',' :: rest := rfl
  simp [readFields, opened, literal, colon, first, comma, more]

private theorem readFields_brace {text after rest key : List Char} {fuel : Nat}
    {value : Json} (opened : text.head? = some quote)
    (literal : readLiteral (text.length + 1) text.tail =
      some (key, ':' :: after))
    (first : readValue fuel (skip after) = some (value, '}' :: rest)) :
    readFields (fuel + 1) text = some ([(String.ofList key, value)], rest) := by
  have colon : skip (':' :: after) = ':' :: after := rfl
  have brace : skip ('}' :: rest) = '}' :: rest := rfl
  simp [readFields, opened, literal, colon, first, brace]

private theorem readFields_joined (readable : Readable write)
    (fields : List (String × Json)) (nonempty : fields ≠ [])
    (reads : ∀ field ∈ fields, Reads write field.2) (rest : List Char)
    (fuel : Nat)
    (enough : 2 * (joined ',' (fields.map (fieldText write)) ++
      '}' :: rest).length + 1 < fuel) :
    readFields fuel (joined ',' (fields.map (fieldText write)) ++
        '}' :: rest) =
      some (fields.map fun field => (field.1, sorted field.2), rest) := by
  induction fields generalizing fuel with
  | nil => exact absurd rfl nonempty
  | cons field fields induction =>
      have readsField := reads field List.mem_cons_self
      have literal := fun following => readLiteral_literalWith readable
        field.1 (':' :: (textWith write field.2 ++ following)) _
        (Nat.le_succ_of_le (Nat.le_succ _))
      cases fuel with
      | zero => cases enough
      | succ fuel =>
          cases fields with
          | nil =>
              simp only [List.map_cons, List.map_nil, joined, fieldText,
                List.append_assoc, List.cons_append] at enough ⊢
              have read := readsField ('}' :: rest) fuel
                (endsNumber_cons (.inr (.inr rfl)) rest)
                (by
                  simp only [List.length_append, List.length_cons] at enough ⊢
                  omega)
              rw [← skip_textWith] at read
              have result := readFields_brace rfl (literal ('}' :: rest)) read
              rw [String.ofList_toList] at result
              exact result
          | cons other fields =>
              rw [List.map_cons, List.map_cons, joined_cons_cons, fieldText,
                List.append_assoc, List.append_assoc, List.cons_append,
                List.cons_append] at enough ⊢
              have read := readsField (',' :: (joined ','
                  (fieldText write other :: fields.map (fieldText write)) ++
                    '}' :: rest)) fuel (endsNumber_cons (.inl rfl) _)
                (by
                  simp only [List.length_append, List.length_cons] at enough ⊢
                  omega)
              rw [← skip_textWith] at read
              have opened : skip (joined ','
                  (fieldText write other :: fields.map (fieldText write)) ++
                    '}' :: rest) =
                  joined ','
                    (fieldText write other :: fields.map (fieldText write)) ++
                      '}' :: rest := by
                cases fields with
                | nil =>
                    rw [List.map_nil, joined, fieldText, List.append_assoc]
                    exact skip_literalWith other.1 _
                | cons next fields =>
                    rw [List.map_cons, joined_cons_cons, fieldText,
                      List.append_assoc, List.append_assoc]
                    exact skip_literalWith other.1 _
              have later := induction (List.cons_ne_nil other fields)
                (fun value member => reads value (.tail field member)) fuel
                (by
                  simp only [List.length_append, List.length_cons,
                    List.map_cons] at enough ⊢
                  omega)
              rw [List.map_cons, ← opened] at later
              have result := readFields_comma rfl (literal _) read later
              rw [String.ofList_toList] at result
              exact result

/-! ## Building mappings -/

private theorem setField_of_not_mem {key : String} {value : Json}
    {fields : List (String × Json)} (absent : key ∉ fields.map Prod.fst) :
    setField key value fields = fields ++ [(key, value)] := by
  induction fields with
  | nil => rfl
  | cons field fields induction =>
      rw [List.map_cons, List.mem_cons, not_or] at absent
      rw [setField, if_neg (Ne.symm absent.1), induction absent.2]
      rfl

private theorem dict_foldl (fields pairs : List (String × Json))
    (distinct : ((fields ++ pairs).map Prod.fst).Nodup) :
    pairs.foldl (fun fields pair => setField pair.1 pair.2 fields) fields =
      fields ++ pairs := by
  induction pairs generalizing fields with
  | nil => simp
  | cons pair pairs induction =>
      have absent : pair.1 ∉ fields.map Prod.fst := by
        rw [List.map_append, List.nodup_append] at distinct
        intro present
        exact distinct.2.2 pair.1 present pair.1 List.mem_cons_self rfl
      rw [List.foldl_cons, setField_of_not_mem absent, induction]
      · simp
      · simpa using distinct

/-- Pairs with distinct keys are the items of their mapping. -/
theorem dict_eq_self {pairs : List (String × Json)}
    (distinct : (pairs.map Prod.fst).Nodup) : dict pairs = pairs :=
  dict_foldl [] pairs distinct

/-! ## Reading back values -/

private theorem readConstant_eq_none {first : Char}
    (notN : first ≠ 'n') (notT : first ≠ 't') (notF : first ≠ 'f')
    (tail : List Char) : readConstant (first :: tail) = none := by
  unfold readConstant
  split
  next matched =>
    cases matched
    exact absurd rfl notN
  next matched =>
    cases matched
    exact absurd rfl notT
  next matched =>
    cases matched
    exact absurd rfl notF
  next => rfl

private theorem reads_int (value : Int) : Reads write (.int value) := by
  intro rest fuel ends enough
  obtain ⟨first, tail, written, number⟩ := integer_cons value
  obtain ⟨_, notQuote, notBracket, notBrace, notN, notT, notF⟩ :=
    number_first number
  have read := readNumber_integer value ends
  have opened : textWith write (.int value) ++ rest =
      first :: (tail ++ rest) := by
    rw [textWith, written, List.cons_append]
  rw [written, List.cons_append] at read
  rw [opened] at enough ⊢
  cases fuel with
  | zero => cases enough
  | succ fuel =>
      simp only [readValue]
      rw [if_neg notQuote, if_neg notBracket, if_neg notBrace,
        readConstant_eq_none notN notT notF, read]
      rfl

private theorem reads_str (readable : Readable write) (value : String) :
    Reads write (.str value) := by
  intro rest fuel _ enough
  have literal := readLiteral_literalWith readable value rest
    ((literalWith write value ++ rest).tail.length + 1) (by simp; omega)
  cases fuel with
  | zero => cases enough
  | succ fuel =>
      have opened : textWith write (.str value) ++ rest =
          quote :: (literalWith write value ++ rest).tail := rfl
      rw [opened]
      simp only [readValue, if_true]
      rw [literal]
      simp only [String.ofList_toList]
      rfl

private theorem joined_first (texts : List (List Char)) (rest : List Char)
    (nonempty : texts ≠ [])
    (starts : ∀ text ∈ texts, ∃ first tail,
      text = first :: tail ∧ StartsValue first) :
    skip (joined ',' texts ++ rest) = joined ',' texts ++ rest ∧
      (joined ',' texts ++ rest).head? ≠ some ']' ∧
      (joined ',' texts ++ rest).head? ≠ some '}' := by
  have opened : ∃ first tail, joined ',' texts ++ rest = first :: tail ∧
      StartsValue first := by
    cases texts with
    | nil => exact absurd rfl nonempty
    | cons text texts =>
        obtain ⟨first, tail, written, start⟩ := starts text List.mem_cons_self
        cases texts with
        | nil => exact ⟨first, tail ++ rest, by rw [joined, written]; rfl, start⟩
        | cons next texts =>
            refine ⟨first, tail ++ ',' :: joined ',' (next :: texts) ++ rest,
              ?_, start⟩
            rw [joined_cons_cons, written]
            rfl
  obtain ⟨first, tail, written, start⟩ := opened
  rw [written]
  refine ⟨skip_cons start tail, ?_, ?_⟩
  · intro bracket
    rw [Option.some.inj bracket] at start
    exact absurd start (by decide)
  · intro brace
    rw [Option.some.inj brace] at start
    exact absurd start (by decide)

private theorem reads_arr (items : List Json)
    (reads : ∀ item ∈ items, Reads write item) : Reads write (.arr items) := by
  intro rest fuel _ enough
  have opened : textWith write (.arr items) ++ rest =
      '[' :: (joined ',' (items.map (textWith write)) ++ ']' :: rest) := by
    simp [textWith, itemTextsWith_eq_map]
  rw [opened] at enough ⊢
  cases fuel with
  | zero => cases enough
  | succ fuel =>
      have first : ('[' : Char) ≠ quote := by decide
      simp only [readValue]
      rw [if_neg first, if_pos trivial, sorted, itemsSorted_eq_map]
      by_cases empty : items = []
      · subst empty
        rfl
      · obtain ⟨start, notBracket, _⟩ := joined_first
          (items.map (textWith write)) (']' :: rest)
          (by simpa using empty)
          (by
            intro text member
            obtain ⟨item, _, rfl⟩ := List.mem_map.mp member
            exact textWith_cons write item)
        rw [start, if_neg notBracket, readItems_joined items empty reads rest
          fuel (by rw [List.length_cons] at enough; omega)]

private theorem reads_obj (readable : Readable write)
    (fields : List (String × Json))
    (distinct : (fields.map Prod.fst).Nodup)
    (reads : ∀ field ∈ fields, Reads write field.2) :
    Reads write (.obj fields) := by
  intro rest fuel _ enough
  have permuted : (ordered fields).Perm fields :=
    List.perm_insertionSort _ fields
  have opened : textWith write (.obj fields) ++ rest =
      '{' :: (joined ',' ((ordered fields).map (fieldText write)) ++
        '}' :: rest) := by
    simp [textWith_obj]
  rw [opened] at enough ⊢
  cases fuel with
  | zero => cases enough
  | succ fuel =>
      have first : ('{' : Char) ≠ quote := by decide
      have second : ('{' : Char) ≠ '[' := by decide
      simp only [readValue]
      rw [if_neg first, if_neg second, if_pos trivial, sorted_obj]
      by_cases empty : ordered fields = []
      · rw [empty]
        rfl
      · obtain ⟨start, _, notBrace⟩ := joined_first
          ((ordered fields).map (fieldText write)) ('}' :: rest)
          (by simpa using empty)
          (by
            intro text member
            obtain ⟨field, _, rfl⟩ := List.mem_map.mp member
            exact ⟨quote, _, rfl, by decide⟩)
        have keys : (((ordered fields).map fun field =>
            (field.1, sorted field.2)).map Prod.fst).Nodup := by
          rw [List.map_map]
          exact (permuted.map Prod.fst).nodup_iff.mpr distinct
        rw [start, if_neg notBrace, readFields_joined readable
          (ordered fields) empty
          (fun field member => reads field (permuted.mem_iff.mp member)) rest
          fuel (by rw [List.length_cons] at enough; omega)]
        simp only [dict_eq_self keys]

mutual

private theorem reads (readable : Readable write) : (value : Json) →
    keysDistinct value = true → Reads write value
  | .null, _ => by
      intro rest fuel _ enough
      cases fuel with
      | zero => cases enough
      | succ fuel => rfl
  | .bool true, _ => by
      intro rest fuel _ enough
      cases fuel with
      | zero => cases enough
      | succ fuel => rfl
  | .bool false, _ => by
      intro rest fuel _ enough
      cases fuel with
      | zero => cases enough
      | succ fuel => rfl
  | .int value, _ => reads_int value
  | .str value, _ => reads_str readable value
  | .arr items, distinct => reads_arr items (readsEach readable items distinct)
  | .obj fields, distinct => by
      rw [keysDistinct, Bool.and_eq_true, decide_eq_true_iff] at distinct
      exact reads_obj readable fields distinct.1
        (readsFields readable fields distinct.2)

private theorem readsEach (readable : Readable write) :
    (items : List Json) → itemsDistinct items = true →
      ∀ item ∈ items, Reads write item
  | [], _ => by
      intro item member
      cases member
  | item :: items, distinct => by
      rw [itemsDistinct, Bool.and_eq_true] at distinct
      rw [List.forall_mem_cons]
      exact ⟨reads readable item distinct.1,
        readsEach readable items distinct.2⟩

private theorem readsFields (readable : Readable write) :
    (fields : List (String × Json)) → fieldsDistinct fields = true →
      ∀ field ∈ fields, Reads write field.2
  | [], _ => by
      intro field member
      cases member
  | (key, value) :: fields, distinct => by
      rw [fieldsDistinct, Bool.and_eq_true] at distinct
      rw [List.forall_mem_cons]
      exact ⟨reads readable value distinct.1,
        readsFields readable fields distinct.2⟩

end

private theorem loads_textWith (readable : Readable write) {value : Json}
    (distinct : value.keysDistinct = true) :
    loads (String.ofList (textWith write value)) = some value.sorted := by
  have read := reads readable value distinct [] (2 *
    (textWith write value).length + 1) (fun _ absent => by cases absent)
    (by rw [List.append_nil]; omega)
  have opened := skip_textWith write value []
  rw [List.append_nil] at read opened
  rw [loads, String.toList_ofList, opened, read]
  rfl

/-- What `json.dumps` wrote is read back. -/
theorem loads_dumps {value : Json} (distinct : value.keysDistinct = true) :
    loads value.dumps = some value.sorted := by
  rw [dumps, ← textWith_escape]
  exact loads_textWith readable_escape distinct

theorem loads_dumpsAscii {value : Json}
    (distinct : value.keysDistinct = true) :
    loads value.dumpsAscii = some value.sorted :=
  loads_textWith readable_escapeAscii distinct

end RoundTrip

end Json
