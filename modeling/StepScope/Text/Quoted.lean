import StepScope.Text.Blank
import StepScope.Text.Printable

/-!
Characters and texts in quotation marks, as messages show them: what cannot be seen is written by
its code.
-/

namespace StepScope.Text

/-- A character by its code: a backslash, `u` and the hexadecimal code in braces. -/
def byCode (c : Char) : Text := '\\' :: 'u' :: '\x7b' :: (hexadecimal c.toNat ++ ['\x7d'])

/-- A character as it stands between the given quotation marks. -/
def shown (mark c : Char) : Text :=
  if c = '\x00' then ['\\', '0']
  else if c = '\t' then ['\\', 't']
  else if c = '\r' then ['\\', 'r']
  else if c = '\n' then ['\\', 'n']
  else if c = '\\' ∨ c = mark then ['\\', c]
  else if isPrintable c then [c]
  else byCode c

/-- A character in single quotation marks. -/
def quoteChar (c : Char) : Text := '\'' :: (shown '\'' c ++ ['\''])

/-- A text in double quotation marks. -/
def quote (t : Text) : Text := '"' :: (t.flatMap (shown '"') ++ ['"'])

end StepScope.Text
