import Batchwork.Json.Cursor

/-!
# Characters of JSON strings

Decoding of strings: escapes, surrogate pairs, and the check that the bytes of a string are UTF-8.
`Decoder.skipCharacters` passes over a string without decoding it and does not look at surrogates.
-/

namespace Batchwork.Json

def hexValue? (byte : UInt8) : Option Nat :=
  if 48 ≤ byte ∧ byte ≤ 57 then some (byte.toNat - 48)
  else if 97 ≤ byte ∧ byte ≤ 102 then some (byte.toNat - 87)
  else if 65 ≤ byte ∧ byte ≤ 70 then some (byte.toNat - 55)
  else none

/-- What an escape stands for, or why it is none, and how many bytes behind the backslash have been
looked at. -/
structure Escape where
  content : Except Cause (List UInt8)
  used : Nat

namespace Escape

def fault (cause : Cause) (used : Nat) : Escape := ⟨.error cause, used⟩

def code (n used : Nat) : Escape := ⟨.ok (String.singleton (Char.ofNat n)).toUTF8.toList, used⟩

/-- The number in the next four bytes, which end `used` bytes behind the backslash. -/
def fourDigits (used : Nat) : List UInt8 → Except Escape Nat
  | a :: b :: c :: d :: _ =>
    match hexValue? a, hexValue? b, hexValue? c, hexValue? d with
    | some a, some b, some c, some d => .ok (((a * 16 + b) * 16 + c) * 16 + d)
    | _, _, _, _ => .error (fault .invalidEscape used)
  | short => .error (fault .eofInString (used - 4 + short.length))

def isTrailing (n : Nat) : Bool := 0xDC00 ≤ n && n ≤ 0xDFFF

def isLeading (n : Nat) : Bool := 0xD800 ≤ n && n ≤ 0xDBFF

/-- The second half of a surrogate pair, which must be an escape itself. -/
def trailing (leading : Nat) : List UInt8 → Escape
  | [] => fault .eofInString 5
  | 92 :: [] => fault .eofInString 6
  | 92 :: 117 :: rest =>
    match fourDigits 11 rest with
    | .error escape => escape
    | .ok n =>
      if isTrailing n then code ((leading - 0xD800) * 0x400 + (n - 0xDC00) + 0x10000) 11
      else fault .loneSurrogate 11
  | 92 :: _ => fault .halfSurrogatePair 7
  | _ => fault .halfSurrogatePair 6

def unicode (rest : List UInt8) : Escape :=
  match fourDigits 5 rest with
  | .error escape => escape
  | .ok n =>
    if isTrailing n then fault .loneSurrogate 5
    else if isLeading n then trailing n (rest.drop 4)
    else code n 5

/-- The bytes that a letter behind a backslash stands for. -/
def simple? (letter : UInt8) : Option UInt8 :=
  match letter with
  | 34 => some 34
  | 92 => some 92
  | 47 => some 47
  | 98 => some 8
  | 102 => some 12
  | 110 => some 10
  | 114 => some 13
  | 116 => some 9
  | _ => none

/-- The escape behind a backslash. -/
def read : List UInt8 → Escape
  | [] => fault .eofInString 0
  | 117 :: rest => unicode rest
  | letter :: _ =>
    match simple? letter with
    | some byte => ⟨.ok [byte], 1⟩
    | none => fault .invalidEscape 1

/-- The escape behind a backslash, passed over without a look at surrogates. -/
def skip : List UInt8 → Escape
  | [] => fault .eofInString 0
  | 117 :: rest =>
    match fourDigits 5 rest with
    | .error escape => escape
    | .ok _ => ⟨.ok [], 5⟩
  | letter :: _ =>
    match simple? letter with
    | some _ => ⟨.ok [], 1⟩
    | none => fault .invalidEscape 1

end Escape

namespace Decoder

/-- Reads up to the closing quote. The bytes gathered are the last ones first. -/
def characters : (fuel : Nat) → (gathered : List UInt8) → Decoder (List UInt8)
  | 0, _ => fail .eofInString
  | fuel + 1, gathered => do
    match (← get).rest with
    | [] => fail .eofInString
    | 34 :: _ =>
      advance
      return gathered.reverse
    | 92 :: rest =>
      let escape := Escape.read rest
      modify (Cursor.advanceBy (escape.used + 1))
      match escape.content with
      | .ok bytes => characters fuel (bytes.reverse ++ gathered)
      | .error cause => fail cause
    | byte :: _ =>
      advance
      if byte < 32 then fail .controlCharacter else characters fuel (byte :: gathered)

/-- Moves over the characters up to the first byte that starts none. -/
def toBadByte : (fuel : Nat) → Cursor → Cursor
  | 0, cursor => cursor
  | fuel + 1, cursor =>
    match (⟨(cursor.rest.take 4).toArray⟩ : ByteArray).utf8DecodeChar? 0 with
    | some c => toBadByte fuel (cursor.advanceBy c.utf8Size)
    | none => cursor

/-- Reads a string whose opening quote has been read. A string that is not UTF-8 is faulty at the
first byte of it that starts no character. -/
def stringBody : Decoder String := do
  let start ← get
  let bytes ← characters (start.size + 1) []
  match String.fromUTF8? ⟨bytes.toArray⟩ with
  | some text => return text
  | none => throw ⟨.invalidUnicode, some (toBadByte start.size start).advance.position⟩

/-- Passes over a string whose opening quote has been read. -/
def skipCharacters : (fuel : Nat) → Decoder Unit
  | 0 => fail .eofInString
  | fuel + 1 => do
    match (← get).rest with
    | [] => fail .eofInString
    | 34 :: _ => advance
    | 92 :: rest =>
      let escape := Escape.skip rest
      modify (Cursor.advanceBy (escape.used + 1))
      match escape.content with
      | .ok _ => skipCharacters fuel
      | .error cause => fail cause
    | byte :: _ =>
      if byte < 32 then fail .controlCharacter
      else
        advance
        skipCharacters fuel

end Decoder

end Batchwork.Json
