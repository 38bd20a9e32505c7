import Mathlib.Data.List.Sort
import Mathlib.Data.String.Basic
import Mathlib.Tactic.IntervalCases

/-!
# JSON values and their canonical text

`Json.dumps` is the compact text with sorted keys and unescaped non-ASCII
characters.  String literals are a prefix code: the text of a literal decides
the string and where the literal ends (`quoted_append_inj`), and so does the
text of a number in front of a separator (`integer_append_inj`).
-/

/-- JSON documents.  Numbers are integers. -/
inductive Json where
  | null
  | bool (value : Bool)
  | int (value : Int)
  | str (value : String)
  | arr (items : List Json)
  | obj (fields : List (String × Json))
  deriving Repr, Inhabited

namespace Json

mutual

/-- Structural equality test. -/
def same : Json → Json → Bool
  | .null, .null => true
  | .bool left, .bool right => left == right
  | .int left, .int right => left == right
  | .str left, .str right => left == right
  | .arr left, .arr right => sameItems left right
  | .obj left, .obj right => sameFields left right
  | _, _ => false
termination_by structural value => value

def sameItems : List Json → List Json → Bool
  | [], [] => true
  | left :: lefts, right :: rights =>
      same left right && sameItems lefts rights
  | _, _ => false
termination_by structural values => values

def sameFields : List (String × Json) → List (String × Json) → Bool
  | [], [] => true
  | (leftKey, left) :: lefts, (rightKey, right) :: rights =>
      leftKey == rightKey && same left right && sameFields lefts rights
  | _, _ => false
termination_by structural fields => fields

end

mutual

theorem same_iff : (left right : Json) →
    (same left right = true ↔ left = right)
  | .null, right => by cases right <;> simp [same]
  | .bool _, right => by cases right <;> simp [same]
  | .int _, right => by cases right <;> simp [same]
  | .str _, right => by cases right <;> simp [same]
  | .arr items, right => by cases right <;> simp [same, sameItems_iff items]
  | .obj fields, right => by
      cases right <;> simp [same, sameFields_iff fields]

theorem sameItems_iff : (lefts rights : List Json) →
    (sameItems lefts rights = true ↔ lefts = rights)
  | [], rights => by cases rights <;> simp [sameItems]
  | left :: lefts, rights => by
      cases rights with
      | nil => simp [sameItems]
      | cons right rights =>
          simp [sameItems, same_iff left right, sameItems_iff lefts rights]

theorem sameFields_iff : (lefts rights : List (String × Json)) →
    (sameFields lefts rights = true ↔ lefts = rights)
  | [], rights => by cases rights <;> simp [sameFields]
  | (leftKey, left) :: lefts, rights => by
      cases rights with
      | nil => simp [sameFields]
      | cons right rights =>
          obtain ⟨rightKey, right⟩ := right
          simp [sameFields, same_iff left right, sameFields_iff lefts rights]

end

instance : DecidableEq Json := fun left right =>
  decidable_of_iff _ (same_iff left right)

/-- Python's `value.get(key)` on a mapping. -/
def get? (key : String) : Json → Option Json
  | .obj fields => fields.lookup key
  | _ => none

/-! ## Canonical text -/

def quote : Char := Char.ofNat 34

def backslash : Char := Char.ofNat 92

/-- The letter of a two-character escape. -/
def escapeLetter (code : Nat) : Option Char :=
  match code with
  | 34 => some quote
  | 92 => some backslash
  | 8 => some 'b'
  | 9 => some 't'
  | 10 => some 'n'
  | 12 => some 'f'
  | 13 => some 'r'
  | _ => none

/-- One character inside a string literal. -/
def escape (character : Char) : List Char :=
  match escapeLetter character.toNat with
  | some letter => [backslash, letter]
  | none =>
      if character.toNat < 32 then
        [backslash, 'u', '0', '0', Nat.digitChar (character.toNat / 16),
          Nat.digitChar (character.toNat % 16)]
      else [character]

/-- A string literal. -/
def quoted (text : String) : List Char :=
  quote :: (text.toList.flatMap escape ++ [quote])

/-- A decimal number. -/
def integer : Int → List Char
  | .ofNat value => Nat.toDigits 10 value
  | .negSucc value => '-' :: Nat.toDigits 10 (value + 1)

/-- `separator.join(parts)`. -/
def joined (separator : Char) : List (List Char) → List Char
  | [] => []
  | [part] => part
  | part :: parts => part ++ separator :: joined separator parts

mutual

/-- `json.dumps(value, ensure_ascii=False, separators=(",", ":"),
sort_keys=True)`, as characters. -/
def text : Json → List Char
  | .null => "null".toList
  | .bool value => if value then "true".toList else "false".toList
  | .int value => integer value
  | .str value => quoted value
  | .arr items => '[' :: (joined ',' (itemTexts items) ++ [']'])
  | .obj fields =>
      '{' :: (joined ','
        (((fieldTexts fields).insertionSort
          fun left right => left.1 ≤ right.1).map Prod.snd) ++ ['}'])
termination_by structural value => value

def itemTexts : List Json → List (List Char)
  | [] => []
  | item :: items => text item :: itemTexts items
termination_by structural items => items

def fieldTexts : List (String × Json) → List (String × List Char)
  | [] => []
  | (key, value) :: fields =>
      (key, quoted key ++ ':' :: text value) :: fieldTexts fields
termination_by structural fields => fields

end

def dumps (value : Json) : String :=
  String.ofList (text value)

/-! ## Unique readability -/

/-- The value of a hexadecimal digit as `escape` writes it. -/
private def hexValue (digit : Char) : Nat :=
  if digit.toNat < 97 then digit.toNat - 48 else digit.toNat - 87

/-- Read back one character of a string literal. -/
private def unescape : List Char → Option (Char × List Char)
  | [] => none
  | head :: tail =>
      if head = backslash then
        match tail with
        | 'b' :: rest => some (Char.ofNat 8, rest)
        | 't' :: rest => some (Char.ofNat 9, rest)
        | 'n' :: rest => some (Char.ofNat 10, rest)
        | 'f' :: rest => some (Char.ofNat 12, rest)
        | 'r' :: rest => some (Char.ofNat 13, rest)
        | 'u' :: '0' :: '0' :: high :: low :: rest =>
            some (Char.ofNat (16 * hexValue high + hexValue low), rest)
        | letter :: rest => some (letter, rest)
        | [] => none
      else some (head, tail)

private theorem unescape_control (code : Nat) (control : code < 32)
    (rest : List Char) :
    unescape (escape (Char.ofNat code) ++ rest) =
      some (Char.ofNat code, rest) := by
  interval_cases code <;> rfl

private theorem escapeLetter_eq_none {code : Nat} (printable : ¬ code < 32)
    (notQuote : code ≠ 34) (notBackslash : code ≠ 92) :
    escapeLetter code = none := by
  unfold escapeLetter
  split <;> first | rfl | omega

private theorem unescape_escape (character : Char) (rest : List Char) :
    unescape (escape character ++ rest) = some (character, rest) := by
  have restored : Char.ofNat character.toNat = character :=
    Char.ofNat_toNat character
  by_cases control : character.toNat < 32
  · have result := unescape_control character.toNat control rest
    rwa [restored] at result
  by_cases isQuote : character.toNat = 34
  · rw [isQuote] at restored
    rw [← restored]
    rfl
  by_cases isBackslash : character.toNat = 92
  · rw [isBackslash] at restored
    rw [← restored]
    rfl
  have plain : character ≠ backslash := by
    intro equality
    exact isBackslash (by rw [equality]; rfl)
  simp [escape, escapeLetter_eq_none control isQuote isBackslash, control,
    unescape, plain]

private theorem escape_append_inj {left right : Char}
    {leftRest rightRest : List Char}
    (equality : escape left ++ leftRest = escape right ++ rightRest) :
    left = right ∧ leftRest = rightRest := by
  have read := congrArg unescape equality
  rw [unescape_escape, unescape_escape] at read
  simpa using read

/-- No character of a literal looks like its closing quote. -/
private theorem escape_ne_quote (character : Char) (first second : List Char) :
    escape character ++ first ≠ quote :: second := by
  intro equality
  have read := congrArg unescape equality
  have closing : unescape (quote :: second) = some (quote, second) := rfl
  rw [unescape_escape, closing] at read
  simp only [Option.some.injEq, Prod.mk.injEq] at read
  obtain ⟨isQuote, rest⟩ := read
  subst isQuote rest
  have lengths := congrArg List.length equality
  simp [escape, escapeLetter, quote] at lengths

private theorem escaped_append_inj :
    (left right leftRest rightRest : List Char) →
    left.flatMap escape ++ quote :: leftRest =
      right.flatMap escape ++ quote :: rightRest →
    left = right ∧ leftRest = rightRest
  | [], [], leftRest, rightRest, equality => by
      simpa using equality
  | [], right :: rights, leftRest, rightRest, equality => by
      simp only [List.flatMap_nil, List.nil_append, List.flatMap_cons,
        List.append_assoc] at equality
      exact absurd equality.symm (escape_ne_quote right _ _)
  | left :: lefts, [], leftRest, rightRest, equality => by
      simp only [List.flatMap_nil, List.nil_append, List.flatMap_cons,
        List.append_assoc] at equality
      exact absurd equality (escape_ne_quote left _ _)
  | left :: lefts, right :: rights, leftRest, rightRest, equality => by
      simp only [List.flatMap_cons, List.append_assoc] at equality
      obtain ⟨head, tail⟩ := escape_append_inj equality
      obtain ⟨tails, rest⟩ :=
        escaped_append_inj lefts rights leftRest rightRest tail
      exact ⟨by rw [head, tails], rest⟩

theorem quoted_append_inj {left right : String}
    {leftRest rightRest : List Char}
    (equality : quoted left ++ leftRest = quoted right ++ rightRest) :
    left = right ∧ leftRest = rightRest := by
  have inner : left.toList.flatMap escape ++ quote :: leftRest =
      right.toList.flatMap escape ++ quote :: rightRest := by
    simpa [quoted] using equality
  obtain ⟨texts, rest⟩ := escaped_append_inj _ _ _ _ inner
  exact ⟨String.toList_inj.mp texts, rest⟩

private theorem digits_append_inj (separator : Char)
    (outside : separator.isDigit = false) :
    (left right leftRest rightRest : List Char) →
    (∀ digit ∈ left, digit.isDigit = true) →
    (∀ digit ∈ right, digit.isDigit = true) →
    left ++ separator :: leftRest = right ++ separator :: rightRest →
    left = right ∧ leftRest = rightRest
  | [], [], leftRest, rightRest, _, _, equality => by simpa using equality
  | [], right :: rights, leftRest, rightRest, _, rightDigits, equality => by
      simp only [List.nil_append, List.cons_append, List.cons.injEq] at equality
      have digit := rightDigits right (by simp)
      rw [← equality.1, outside] at digit
      cases digit
  | left :: lefts, [], leftRest, rightRest, leftDigits, _, equality => by
      simp only [List.nil_append, List.cons_append, List.cons.injEq] at equality
      have digit := leftDigits left (by simp)
      rw [equality.1, outside] at digit
      cases digit
  | left :: lefts, right :: rights, leftRest, rightRest, leftDigits,
      rightDigits, equality => by
      simp only [List.cons_append, List.cons.injEq] at equality
      obtain ⟨tails, rest⟩ := digits_append_inj separator outside lefts rights
        leftRest rightRest
        (fun digit member => leftDigits digit (by simp [member]))
        (fun digit member => rightDigits digit (by simp [member])) equality.2
      exact ⟨by rw [equality.1, tails], rest⟩

private theorem isDigit_of_mem_toDigits {value : Nat} :
    ∀ digit ∈ Nat.toDigits 10 value, digit.isDigit = true :=
  fun _ member => Nat.isDigit_of_mem_toDigits (by decide) (by decide) member

private theorem toDigits_injective {left right : Nat}
    (equality : Nat.toDigits 10 left = Nat.toDigits 10 right) :
    left = right := by
  have read := congrArg (fun digits => Nat.ofDigitChars 10 digits 0) equality
  simpa using read

private theorem minus_append_ne_toDigits (value : Nat)
    (first second : List Char) :
    '-' :: first ≠ Nat.toDigits 10 value ++ second := by
  intro equality
  cases digits : Nat.toDigits 10 value with
  | nil => exact absurd digits Nat.toDigits_ne_nil
  | cons digit rest =>
      have isDigit : digit.isDigit = true :=
        (@isDigit_of_mem_toDigits value) digit (by simp [digits])
      rw [digits] at equality
      simp only [List.cons_append, List.cons.injEq] at equality
      rw [← equality.1] at isDigit
      exact absurd isDigit (by decide)

theorem integer_append_inj {separator : Char}
    (outside : separator.isDigit = false) {left right : Int}
    {leftRest rightRest : List Char}
    (equality : integer left ++ separator :: leftRest =
      integer right ++ separator :: rightRest) :
    left = right ∧ leftRest = rightRest := by
  cases left with
  | ofNat left =>
      cases right with
      | ofNat right =>
          obtain ⟨digits, rest⟩ := digits_append_inj separator outside _ _ _ _
            isDigit_of_mem_toDigits isDigit_of_mem_toDigits equality
          exact ⟨by rw [toDigits_injective digits], rest⟩
      | negSucc right =>
          exact absurd equality.symm (minus_append_ne_toDigits left _ _)
  | negSucc left =>
      cases right with
      | ofNat right => exact absurd equality (minus_append_ne_toDigits right _ _)
      | negSucc right =>
          simp only [integer, List.cons_append, List.cons.injEq,
            true_and] at equality
          obtain ⟨digits, rest⟩ := digits_append_inj separator outside _ _ _ _
            isDigit_of_mem_toDigits isDigit_of_mem_toDigits equality
          have values := toDigits_injective digits
          exact ⟨by rw [Nat.succ.inj values], rest⟩

end Json
