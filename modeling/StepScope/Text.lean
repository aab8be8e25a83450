/-!
Text is a list of characters, so that whatever is written can be taken apart again by recursion.
Here are its UTF-8 bytes and the numerals it is built from.
-/

namespace StepScope

abbrev Text := List Char

/-- The bytes of a file, a program or a buffer. -/
abbrev Bytes := List UInt8

namespace Text

/-- The UTF-8 form of a text. -/
def utf8 (t : Text) : Bytes := t.flatMap String.utf8EncodeChar

/-- Reads UTF-8; bytes of no text are refused. -/
def ofUtf8? (bytes : Bytes) : Option Text :=
  (String.fromUTF8? bytes.toByteArray).map String.toList

/-- The decimal numeral of `n`, without leading zeros. -/
def decimal (n : Nat) : Text := Nat.toDigits 10 n

/-- The lower-case hexadecimal numeral of `n`, without leading zeros. -/
def hexadecimal (n : Nat) : Text := Nat.toDigits 16 n

/-- The hexadecimal numeral of `n` on at least four digits. -/
def offset (n : Nat) : Text := (hexadecimal n).leftpad 4 '0'

/-- The decimal numeral of an integer, with a minus sign below zero. -/
def signedDecimal (n : Int) : Text :=
  if n < 0 then '-' :: decimal n.natAbs else decimal n.natAbs

/-- What stands before the first line break. A carriage return right before it is part of the break. -/
def firstLine (t : Text) : Text :=
  let line := t.takeWhile (· ≠ '\n')
  match line.getLast? with
  | some '\r' => line.dropLast
  | _ => line

/-- The parts of a text between marks, one more than there are marks. -/
def split (mark : Char) : Text → List Text
  | [] => [[]]
  | c :: s =>
    if c = mark then [] :: split mark s
    else
      match split mark s with
      | [] => [[c]]
      | part :: parts => (c :: part) :: parts

end Text

end StepScope
