import StepScope.Json.Fault

/-!
JSON numbers. Only whole numbers from zero to the greatest of 64 bits have a value of their own here;
every other number is merely a number, as long as a binary64 float can hold it.
-/

namespace StepScope.Json

/-- A number as it is written. -/
structure Literal where
  negative : Bool
  whole : Text
  /-- The digits after the point; empty when there is no point. -/
  fraction : Text
  /-- The power of ten; none when there is no exponent. -/
  exponent : Option Int
  deriving DecidableEq, Repr

/-- Takes the digits off the front; there has to be one at least. -/
def readDigits (s : Text) : Except Fault (Text × Text) :=
  match s.takeWhile Char.isDigit, s.dropWhile Char.isDigit with
  | [], [] => .error .truncated
  | [], _ :: _ => .error .malformed
  | digits, rest => .ok (digits, rest)

/-- The digits before the point: a zero stands alone. -/
def readWhole : Reader Text
  | '0' :: rest =>
    match rest with
    | c :: _ => if c.isDigit then .error .malformed else .ok (['0'], rest)
    | [] => .ok (['0'], rest)
  | s => readDigits s

/-- The value of a row of decimal digits. -/
def value (digits : Text) : Nat := digits.foldl (fun n c => 10 * n + (c.toNat - 48)) 0

def readExponent : Reader Int
  | '-' :: s => (readDigits s).map fun (digits, rest) => (-(value digits : Int), rest)
  | '+' :: s => (readDigits s).map fun (digits, rest) => ((value digits : Int), rest)
  | s => (readDigits s).map fun (digits, rest) => ((value digits : Int), rest)

def readFraction : Reader Text
  | '.' :: s => readDigits s
  | s => .ok ([], s)

def readScale : Reader (Option Int)
  | 'e' :: s => (readExponent s).map fun (e, rest) => (some e, rest)
  | 'E' :: s => (readExponent s).map fun (e, rest) => (some e, rest)
  | s => .ok (none, s)

def readUnsigned (negative : Bool) (s : Text) : Except Fault (Literal × Text) := do
  let (whole, s) ← readWhole s
  let (fraction, s) ← readFraction s
  let (exponent, s) ← readScale s
  return ({ negative, whole, fraction, exponent }, s)

def readLiteral : Reader Literal
  | '-' :: s => readUnsigned true s
  | s => readUnsigned false s

/-- The greatest number of 64 bits. -/
def greatest : Nat := UInt64.size - 1

/-- `n` to the 53 bits of a binary64 significand, the nearest such number, of two the even one. -/
def significand (n : Nat) : Nat :=
  let unit := 1 <<< (n.log2 + 1 - 53)
  let quotient := n / unit
  let twice := 2 * (n % unit)
  if twice < unit ∨ (twice = unit ∧ quotient % 2 = 0) then quotient * unit else (quotient + 1) * unit

/-- Digits gathered into a significand of 64 bits, with a power of ten. -/
structure Gathered where
  digits : Nat
  power : Int
  /-- A digit did not fit any more. -/
  full : Bool
  deriving DecidableEq, Repr

namespace Gathered

/-- Takes a digit before the point; the power counts those that do not fit. -/
def before (g : Gathered) (c : Char) : Gathered :=
  let next := 10 * g.digits + (c.toNat - 48)
  if g.full ∨ next > greatest then { g with power := g.power + 1, full := true }
  else { g with digits := next }

/-- Takes a digit behind the point; those that do not fit are dropped. -/
def behind (g : Gathered) (c : Char) : Gathered :=
  let next := 10 * g.digits + (c.toNat - 48)
  if g.full ∨ next > greatest then { g with full := true }
  else { g with digits := next, power := g.power - 1 }

def ofDigits (whole fraction : Text) : Gathered :=
  fraction.foldl behind { whole.foldl before ⟨0, 0, false⟩ with full := false }

end Gathered

/-- No binary64 float is that large. -/
def Literal.tooLarge (l : Literal) : Bool :=
  let g := Gathered.ofDigits l.whole l.fraction
  let power := g.power + l.exponent.getD 0
  g.digits ≠ 0 && 0 < power &&
    (308 < power ||
      1 <<< 1024 - 1 <<< 970 ≤ significand g.digits * significand (Nat.pow 10 power.toNat))

/-- The value of a whole number from zero to the greatest of 64 bits. -/
def Literal.natural? (l : Literal) : Option Nat :=
  if l.negative ∨ l.fraction ≠ [] ∨ l.exponent ≠ none ∨ value l.whole > greatest then none
  else some (value l.whole)

end StepScope.Json
