import StepScope.Text.Quoted
import StepScope.Word

/-!
Hexadecimal input as a person types it: white space around it, an optional mark in front, and an odd
number of digits read with a leading zero. Bytes and words are read by the same rules.
-/

namespace StepScope.HexInput

/-- Why an input is refused. -/
inductive Error
  | invalidHex (flaw : Hex.Flaw)
  /-- A word was given more than 32 bytes. -/
  | wordTooLong (count : Nat)
  deriving DecidableEq, Repr

/-- The digits of an input as bytes, in an even number. -/
def digits (t : Text) : Bytes :=
  let bytes := Text.utf8 (Hex.dropMark (Text.trim t))
  if bytes.length % 2 = 1 then 48 :: bytes else bytes

def bytes (t : Text) : Except Error Bytes := (Hex.read (digits t)).mapError .invalidHex

/-- Reads a word; fewer than 32 bytes stand for its low end. -/
def word (t : Text) : Except Error Word := do
  let bytes ← bytes t
  if bytes.length > 32 then .error (.wordTooLong bytes.length) else .ok (Word.ofBytes bytes)

/-- A flaw in words; a byte is shown as the character with its code. -/
def flawMessage : Hex.Flaw → Text
  | .oddCount => "Odd number of digits".toList
  | .badDigit byte position =>
    "Invalid character ".toList ++ Text.quoteChar (Char.ofNat byte.toNat) ++ " at position ".toList ++
      Text.decimal position

def Error.message : Error → Text
  | .invalidHex flaw => "invalid hex input: ".toList ++ flawMessage flaw
  | .wordTooLong count =>
    "word is ".toList ++ Text.decimal count ++ " bytes long, at most 32 are allowed".toList

end StepScope.HexInput
