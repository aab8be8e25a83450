import StepScope.Json.Token

/-!
Where reading halts in front of a scalar that is at fault, for those who pass over the fault and read on.
A character that is refused has been taken off the text, as far as reading goes byte by byte. There is no
such place where nothing could go on: inside a character, and inside a row of digits.
-/

namespace StepScope.Json

/-- Takes bytes off the front, all that there are if they are fewer. -/
def dropBytes : (count : Nat) → Text → Option Text
  | 0, s => some s
  | _ + 1, [] => some []
  | count + 1, c :: s =>
    if c.utf8Size ≤ count + 1 then dropBytes (count + 1 - c.utf8Size) s else none

/-- Takes the letters of a keyword off the front, up to the first that differs. -/
def haltLetters : Text → Text → Option Text
  | [], s => some s
  | _ :: _, [] => some []
  | letter :: letters, c :: s =>
    if c = letter then haltLetters letters s else dropBytes 1 (c :: s)

/-- After the first half of a pair of code units. -/
def haltLowHalf : Text → Option Text
  | '\\' :: 'u' :: s => dropBytes 4 s
  | '\\' :: s => dropBytes 1 s
  | s => dropBytes 1 s

/-- After a backslash with an escape that is refused. -/
def haltEscape : Text → Option Text
  | 'u' :: s =>
    match readUnit s with
    | .error _ => dropBytes 4 s
    | .ok (unit, rest) => if 0xd800 ≤ unit ∧ unit ≤ 0xdbff then haltLowHalf rest else some rest
  | s => dropBytes 1 s

/-- After the opening quotation mark of a string. -/
def haltText (s : Text) : Option Text :=
  match s with
  | [] => some []
  | c :: s =>
    if c = '"' then some s
    else if c = '\\' then
      match h : readEscape s with
      | .error _ => haltEscape s
      | .ok (_, rest) =>
        have := length_readEscape h
        haltText rest
    else if c.toNat < 0x20 then some s
    else haltText s
termination_by s.length
decreasing_by all_goals simp only [List.length_cons]; omega

/-- Behind the letter of an exponent, where a sign may stand but no digit does. -/
def haltExponent : Text → Option Text
  | [] => some []
  | c :: s => dropBytes 1 (if c = '+' ∨ c = '-' then s else c :: s)

/-- Behind the digits of a mantissa. -/
def haltScale : Text → Option Text
  | 'e' :: s => haltExponent s
  | 'E' :: s => haltExponent s
  | s => some s

/-- Behind the whole part of a number. A point without digits is the end. -/
def haltFraction : Text → Option Text
  | '.' :: s => if s.head?.any Char.isDigit then haltScale (s.dropWhile Char.isDigit) else some s
  | s => haltScale s

/-- In front of a number without its sign that is not spelled as one. -/
def haltUnsigned : Text → Option Text
  | '0' :: s => if s.head?.any Char.isDigit then some s else haltFraction s
  | s =>
    if s.head?.any Char.isDigit then haltFraction (s.dropWhile Char.isDigit) else dropBytes 1 s

/-- The greatest exponent that is read to its last digit in a number that is too large. -/
def maxExponent : Int := Int.ofNat (10 * 1 <<< 31 - 1)

/-- In front of a number that is refused, be it for its spelling or for its size. -/
def haltNumber (s : Text) : Option Text :=
  match readLiteral s with
  | .ok (literal, rest) => if literal.exponent.getD 0 ≤ maxExponent then some rest else none
  | .error _ => haltUnsigned (if s.head? = some '-' then s.tail else s)

/-- In front of any value: behind a scalar, but before an opening bracket. -/
def halt (s : Text) : Option Text :=
  match readToken s with
  | .ok (.openArray, _) => some s
  | .ok (.openObject, _) => some s
  | .ok (_, rest) => some rest
  | .error _ =>
    match skipBlank s with
    | '"' :: s => haltText s
    | 'n' :: s => haltLetters "ull".toList s
    | 't' :: s => haltLetters "rue".toList s
    | 'f' :: s => haltLetters "alse".toList s
    | c :: s => if c = '-' ∨ c.isDigit then haltNumber (c :: s) else some (c :: s)
    | [] => some []

end StepScope.Json
