import StepScope.Text

/-!
What a TOML text holds between its values: spaces, comments and line breaks.
-/

namespace StepScope.Toml

def isSpace (c : Char) : Bool := c = ' ' || c = '\t'

/-- The characters that may stand in a comment or, unless they delimit it, in a string: everything
but controls, a tab excepted. -/
def isPlain (c : Char) : Bool := c = '\t' || (0x20 ≤ c.toNat && c.toNat ≠ 0x7f)

def skipSpace (s : Text) : Text := s.dropWhile isSpace

/-- Passes over spaces and line breaks. A carriage return counts only before a line feed. -/
def skipLines : Text → Text
  | [] => []
  | c :: s =>
    if isSpace c ∨ c = '\n' then skipLines s
    else if c = '\r' then
      match s with
      | '\n' :: _ => skipLines s
      | _ => c :: s
    else c :: s

/-- Passes over spaces, line breaks and comments; `comment` says that one has begun. -/
def skipTrivia : (comment : Bool) → Text → Text
  | _, [] => []
  | comment, c :: s =>
    if c = '\n' then skipTrivia false s
    else if c = '\r' then
      match s with
      | '\n' :: _ => skipTrivia false s
      | _ => c :: s
    else if comment then if isPlain c then skipTrivia true s else c :: s
    else if isSpace c then skipTrivia false s
    else if c = '#' then skipTrivia true s
    else c :: s

/-- A line break, or the end of the text. -/
def readBreak : Text → Option Text
  | [] => some []
  | '\n' :: rest => some rest
  | '\r' :: '\n' :: rest => some rest
  | _ => none

/-- The rest of a line: spaces and perhaps a comment. -/
def readLineEnd (s : Text) : Option Text :=
  match skipSpace s with
  | '#' :: rest => readBreak (rest.dropWhile isPlain)
  | rest => readBreak rest

end StepScope.Toml
