import Batchwork.Json.Cursor

/-!
# The grammar of JSON texts

Which texts are JSON, over bytes: numbers, strings as UTF-8 with their escapes, and values of any
nesting. Below them, the documents whose value is an array, with their elements told apart.
-/

namespace Batchwork.Json

/-- White space between the parts of a text. -/
def Blank (bytes : List UInt8) : Prop := ∀ byte ∈ bytes, isBlank byte = true

theorem Blank.append {first second : List UInt8} (blank : Blank first) (blank' : Blank second) :
    Blank (first ++ second) := List.forall_mem_append.mpr ⟨blank, blank'⟩

/-- Blanks end at the first byte that is none. -/
theorem Blank.unique {gap gap' rest rest' : List UInt8} {byte byte' : UInt8} (blank : Blank gap)
    (blank' : Blank gap') (solid : isBlank byte = false) (solid' : isBlank byte' = false)
    (same : gap ++ byte :: rest = gap' ++ byte' :: rest') :
    gap = gap' ∧ byte = byte' ∧ rest = rest' := by
  induction gap generalizing gap' with
  | nil =>
    cases gap' with
    | nil => exact ⟨rfl, List.cons.inj same⟩
    | cons first gap' =>
      obtain ⟨rfl, -⟩ := List.cons.inj same
      rw [blank' byte List.mem_cons_self] at solid
      cases solid
  | cons first gap ih =>
    cases gap' with
    | nil =>
      obtain ⟨rfl, -⟩ := List.cons.inj same
      rw [blank first List.mem_cons_self] at solid'
      cases solid'
    | cons first' gap' =>
      obtain ⟨rfl, behind⟩ := List.cons.inj same
      obtain ⟨rfl, parts⟩ := ih (fun byte member => blank byte (List.mem_cons_of_mem _ member))
        (fun byte member => blank' byte (List.mem_cons_of_mem _ member)) behind
      exact ⟨rfl, parts⟩

/-! ## Numbers -/

/-- Any digits, or none. -/
def Digits (bytes : List UInt8) : Prop := ∀ byte ∈ bytes, isDigit byte = true

/-- The part of a number before its point. Only zero itself begins with a zero. -/
inductive IntegerText : List UInt8 → Prop
  | zero : IntegerText [48]
  | positive {first : UInt8} {rest : List UInt8} (digit : isDigit first = true)
      (nonzero : first ≠ 48) (digits : Digits rest) : IntegerText (first :: rest)

inductive FractionText : List UInt8 → Prop
  | absent : FractionText []
  | present {run : List UInt8} (nonempty : run ≠ []) (digits : Digits run) :
      FractionText (46 :: run)

inductive ExponentText : List UInt8 → Prop
  | absent : ExponentText []
  | present {mark : UInt8} {sign run : List UInt8} (marked : mark = 101 ∨ mark = 69)
      (signed : sign = [] ∨ sign = [43] ∨ sign = [45]) (nonempty : run ≠ [])
      (digits : Digits run) : ExponentText (mark :: (sign ++ run))

inductive NumberText : List UInt8 → Prop
  | mk {sign whole fraction exponent : List UInt8} (signed : sign = [] ∨ sign = [45])
      (integer : IntegerText whole) (fractional : FractionText fraction)
      (scaled : ExponentText exponent) : NumberText (sign ++ whole ++ fraction ++ exponent)

/-! ## Strings -/

def isHexDigit (byte : UInt8) : Bool :=
  isDigit byte || (65 ≤ byte && byte ≤ 70) || (97 ≤ byte && byte ≤ 102)

/-- The letters that may stand behind a backslash, apart from the `u` of a code point. -/
def escapeLetters : List UInt8 := [34, 92, 47, 98, 102, 110, 114, 116]

/-- A character of a string as it is written. -/
inductive CharacterText : List UInt8 → Prop
  | plain {c : Char} (printable : 32 ≤ c.toNat) (noQuote : c ≠ '"') (noBackslash : c ≠ '\\') :
      CharacterText (String.utf8EncodeChar c)
  | escape {letter : UInt8} (known : letter ∈ escapeLetters) : CharacterText [92, letter]
  | codePoint {digits : List UInt8} (four : digits.length = 4)
      (hex : ∀ digit ∈ digits, isHexDigit digit = true) : CharacterText (92 :: 117 :: digits)

inductive CharactersText : List UInt8 → Prop
  | nil : CharactersText []
  | cons {text rest : List UInt8} (first : CharacterText text) (later : CharactersText rest) :
      CharactersText (text ++ rest)

inductive StringText : List UInt8 → Prop
  | mk {body : List UInt8} (characters : CharactersText body) : StringText (34 :: (body ++ [34]))

/-! ## Values -/

/-- What the texts of a value are made of. -/
inductive Symbol where
  | value
  /-- A value with the white space around it. -/
  | element
  | elements
  /-- A member of an object: its name, a colon and an element. -/
  | member
  | members

inductive Derives : Symbol → List UInt8 → Prop
  | null : Derives .value [110, 117, 108, 108]
  | true : Derives .value [116, 114, 117, 101]
  | false : Derives .value [102, 97, 108, 115, 101]
  | number {text : List UInt8} (number : NumberText text) : Derives .value text
  | string {text : List UInt8} (string : StringText text) : Derives .value text
  | emptyArray {gap : List UInt8} (blank : Blank gap) : Derives .value (91 :: (gap ++ [93]))
  | array {body : List UInt8} (elements : Derives .elements body) :
      Derives .value (91 :: (body ++ [93]))
  | emptyObject {gap : List UInt8} (blank : Blank gap) : Derives .value (123 :: (gap ++ [125]))
  | object {body : List UInt8} (members : Derives .members body) :
      Derives .value (123 :: (body ++ [125]))
  | element {before text after : List UInt8} (leading : Blank before) (value : Derives .value text)
      (trailing : Blank after) : Derives .element (before ++ text ++ after)
  | lastElement {text : List UInt8} (last : Derives .element text) : Derives .elements text
  | elements {text rest : List UInt8} (first : Derives .element text)
      (later : Derives .elements rest) : Derives .elements (text ++ 44 :: rest)
  | member {before name between text : List UInt8} (leading : Blank before)
      (string : StringText name) (trailing : Blank between) (element : Derives .element text) :
      Derives .member (before ++ name ++ between ++ 58 :: text)
  | lastMember {text : List UInt8} (last : Derives .member text) : Derives .members text
  | members {text rest : List UInt8} (first : Derives .member text)
      (later : Derives .members rest) : Derives .members (text ++ 44 :: rest)

/-! ## Documents -/

/-- An element of a top-level array. The white space in front of it is that of `gap`. -/
structure Element (gap : UInt8 → Bool) where
  before : List UInt8
  text : List UInt8
  after : List UInt8
  leading : ∀ byte ∈ before, gap byte = true
  value : Derives .value text
  trailing : Blank after

/-- A text whose value is an array. In front of its bracket and of its elements stands the white
space of `gap`; with `isBlank` for it, these are the JSON texts of arrays. -/
structure ArrayDocument (gap : UInt8 → Bool) where
  lead : List UInt8
  /-- What stands between the opening bracket and the first element or the closing bracket. -/
  opening : List UInt8
  elements : List (Element gap)
  leading : ∀ byte ∈ lead, gap byte = true
  trailing : ∀ byte ∈ opening, gap byte = true

namespace Element

variable {gap : UInt8 → Bool}

/-- The element without the white space in front. -/
def content (element : Element gap) : List UInt8 := element.text ++ element.after

def bytes (element : Element gap) : List UInt8 := element.before ++ element.content

end Element

/-- Parts of a list, each with a comma in front. -/
def following (parts : List (List UInt8)) : List UInt8 := parts.flatMap fun part => 44 :: part

@[simp] theorem following_nil : following [] = [] := rfl

@[simp] theorem following_cons (part : List UInt8) (later : List (List UInt8)) :
    following (part :: later) = 44 :: (part ++ following later) := rfl

/-- All parts of a list but the first one have a comma in front. -/
theorem intercalate_cons (first : List UInt8) (later : List (List UInt8)) :
    [44].intercalate (first :: later) = first ++ following later := by
  induction later generalizing first with
  | nil => simp
  | cons second later ih =>
    rw [List.intercalate_cons_cons, ih]
    simp

theorem length_le_following (parts : List (List UInt8)) :
    parts.length ≤ (following parts).length := by
  induction parts with
  | nil => exact Nat.le_refl 0
  | cons part later ih =>
    rw [following_cons, List.length_cons, List.length_cons, List.length_append]
    omega

namespace ArrayDocument

variable {gap : UInt8 → Bool}

/-- The elements with the commas between them. -/
def listed (elements : List (Element gap)) : List UInt8 :=
  [44].intercalate (elements.map Element.bytes)

@[simp] theorem listed_nil : listed ([] : List (Element gap)) = [] := rfl

@[simp] theorem listed_singleton (element : Element gap) : listed [element] = element.bytes :=
  List.intercalate_singleton

theorem listed_cons (element : Element gap) (later : List (Element gap)) :
    listed (element :: later) = element.bytes ++ following (later.map Element.bytes) :=
  intercalate_cons _ _

theorem listed_cons_cons (first second : Element gap) (later : List (Element gap)) :
    listed (first :: second :: later) = first.bytes ++ 44 :: listed (second :: later) := by
  rw [listed_cons, listed_cons, List.map_cons, following_cons]

/-- The document up to its closing bracket. -/
def unclosed (document : ArrayDocument gap) : List UInt8 :=
  document.lead ++ 91 :: (document.opening ++ listed document.elements)

def bytes (document : ArrayDocument gap) : List UInt8 := document.unclosed ++ [93]

end ArrayDocument

end Batchwork.Json
