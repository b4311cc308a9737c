import Batchwork.Text.Extender

/-!
# Quoted text

Text in double quotes with everything escaped that a reader of it could not see or would take for
something else: the quote, the backslash, unprintable characters and combining marks.
-/

namespace Batchwork.Text

def hexDigits (n : Nat) : List Char := Nat.toDigits 16 n

def escapeCode (c : Char) : List Char := ['\\', 'u', '\x7b'] ++ hexDigits c.toNat ++ ['\x7d']

def escapeChar (c : Char) : List Char :=
  match c with
  | '\x00' => ['\\', '0']
  | '\t' => ['\\', 't']
  | '\r' => ['\\', 'r']
  | '\n' => ['\\', 'n']
  | '"' => ['\\', '"']
  | '\\' => ['\\', '\\']
  | c =>
    if ' ' ≤ c ∧ c ≤ '~' then [c]
    else if isExtender c || isUnprintable c then escapeCode c
    else [c]

def quoted (s : String) : String := "\"" ++ String.ofList (s.toList.flatMap escapeChar) ++ "\""

/-- A byte as a printable ASCII character or as an escape. -/
def escapeByte (b : UInt8) : String :=
  match b with
  | 9 => "\\t"
  | 10 => "\\n"
  | 13 => "\\r"
  | 34 => "\\\""
  | 39 => "\\'"
  | 92 => "\\\\"
  | b =>
    if 32 ≤ b ∧ b < 127 then String.singleton (Char.ofNat b.toNat)
    else
      let digits := hexDigits b.toNat
      "\\x" ++ String.ofList (List.replicate (2 - digits.length) '0' ++ digits)

end Batchwork.Text
