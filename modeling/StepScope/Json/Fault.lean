import StepScope.Text

/-!
What can be wrong with a JSON text. The text is read from left to right, and the first fault found
on the way decides.
-/

namespace StepScope.Json

inductive Fault
  /-- The text ends too early. -/
  | truncated
  /-- The text is not JSON. -/
  | malformed
  /-- The text is JSON so far, but not of the kind or range asked for. -/
  | mistyped
  deriving DecidableEq, Repr

/-- A reader takes a value off the front of a text and hands back the rest. -/
abbrev Reader (α : Type) := Text → Except Fault (α × Text)

def isBlank (c : Char) : Bool := c = ' ' || c = '\n' || c = '\t' || c = '\r'

def skipBlank (s : Text) : Text := s.dropWhile isBlank

/-- Takes the letters of a keyword off the front. -/
def readLetters : Text → Text → Except Fault Text
  | [], s => .ok s
  | _ :: _, [] => .error .truncated
  | letter :: letters, c :: s => if c = letter then readLetters letters s else .error .malformed

end StepScope.Json
