import StepScope.Word

/-!
Words as numerals: decimal, or in the base that a mark in front tells. Underscores may stand anywhere
after the mark, and no digit at all is zero.
-/

namespace StepScope.WordText

/-- The value of a digit or letter in any base up to 36. -/
def digit? (c : Char) : Option Nat :=
  let n := c.toNat
  if 48 ≤ n ∧ n ≤ 57 then some (n - 48)
  else if 97 ≤ n ∧ n ≤ 122 then some (n - 87)
  else if 65 ≤ n ∧ n ≤ 90 then some (n - 55)
  else none

/-- The base that the mark tells, and what follows the mark. -/
def base : Text → Nat × Text
  | '0' :: 'x' :: rest => (16, rest)
  | '0' :: 'X' :: rest => (16, rest)
  | '0' :: 'o' :: rest => (8, rest)
  | '0' :: 'O' :: rest => (8, rest)
  | '0' :: 'b' :: rest => (2, rest)
  | '0' :: 'B' :: rest => (2, rest)
  | t => (10, t)

/-- The number that digits write, after those read so far wrote `n`. -/
def number? (base : Nat) (n : Nat) : Text → Option Nat
  | [] => some n
  | c :: rest =>
    match digit? c with
    | some d => if d < base then number? base (base * n + d) rest else none
    | none => none

/-- Reads a word; numbers of more than 256 bits are refused. -/
def read? (t : Text) : Option Word :=
  let (base, digits) := base t
  match number? base 0 (digits.filter (· ≠ '_')) with
  | some n => if n < Word.size then some (BitVec.ofNat 256 n) else none
  | none => none

end StepScope.WordText
