import StepScope.Text.Hex

/-!
The numbers of TOML. Settings hold none, so all that matters is whether a text is one and, where a number
is looked at, whether it has a value: an integer of 128 bits, or a float that does not overflow. The
spelling of a number admits more than that. Of the groups of a decimal number only the ends are looked
at, for digits of sixteen values, and no digit at all may stand behind the mark of a base.
-/

namespace StepScope.Toml

/-- The digits of a base, by their value. -/
def isDigitOf (base : Nat) (c : Char) : Bool :=
  match Hex.digit? c.toNat with
  | some d => d < base
  | none => false

/-- Drops the underscores of a row of digits. Each of them stands between two digits. -/
def ungroup? (base : Nat) : Text → Option Text
  | [] => none
  | [c] => if isDigitOf base c then some [c] else none
  | c :: '_' :: s => if isDigitOf base c then (ungroup? base s).map (c :: ·) else none
  | c :: s => if isDigitOf base c then (ungroup? base s).map (c :: ·) else none

def numberOf (base : Nat) (digits : Text) : Nat :=
  digits.foldl (fun n c => base * n + (Hex.digit? c.toNat).getD 0) 0

/-- The digits of a whole number. A zero in front stands alone. -/
def whole? (t : Text) : Option Text :=
  match ungroup? 10 t with
  | some ('0' :: _ :: _) => none
  | digits => digits

/-- Drops a sign, and tells whether it was a minus. -/
def dropSign : Text → Bool × Text
  | '+' :: t => (false, t)
  | '-' :: t => (true, t)
  | t => (false, t)

/-- A row of digits and a power of ten is below the numbers that no binary64 float holds. The number
of digits decides unless it is close. -/
def holdsFloat (digits : Text) (power : Int) : Bool :=
  let digits := digits.dropWhile (· = '0')
  let places := power + digits.length
  if digits = [] ∨ places ≤ 308 then true
  else if places > 309 then false
  else
    numberOf 10 digits * Nat.pow 10 power.toNat <
      (1 <<< 1024 - 1 <<< 970) * Nat.pow 10 (-power).toNat

def exponent? (t : Text) : Option Int :=
  let (negative, t) := dropSign t
  (ungroup? 10 t).map fun digits =>
    if negative then -(numberOf 10 digits : Int) else numberOf 10 digits

/-- A float without its sign, as its digits and the power of ten of the last one: a whole part, which
`whole` reads, then a fraction, an exponent or both. -/
def float? (whole : Text → Option Text) (t : Text) : Option (Text × Int) := do
  let (mantissa, scale) := t.span fun c => c ≠ 'e' && c ≠ 'E'
  let (front, behind) := mantissa.span (· ≠ '.')
  let whole ← whole front
  let fraction ← match behind with
    | [] => if scale = [] then none else some []
    | _ :: digits => ungroup? 10 digits
  let power ← match scale with
    | [] => some 0
    | _ :: digits => exponent? digits
  some (whole ++ fraction, power - fraction.length)

/-- A point or the letter of an exponent makes a number a float. -/
def isScaled (t : Text) : Bool := t.any fun c => c = '.' || c = 'e' || c = 'E'

/-- The groups of digits behind the first underscore. The first character of each is looked at, and the
last one of all but the last. No blank may be among them, but a tab may. -/
def areGroups (groups : Text) : Bool :=
  let parts := Text.split '_' groups
  !groups.contains ' ' && parts.all (fun g => g.head?.any (isDigitOf 16)) &&
    parts.dropLast.all fun g => g.getLast?.any (isDigitOf 16)

/-- The spelling of a decimal number without its sign. -/
def isDecimal (t : Text) : Bool :=
  let (digits, rest) := t.span Char.isDigit
  if t = "inf".toList ∨ t = "nan".toList then true
  else if isScaled rest then (float? whole? t).isSome
  else
    match digits, rest with
    | [], _ => false
    | first :: more, [] => first ≠ '0' || more = []
    | first :: _, '_' :: groups => first ≠ '0' && areGroups groups
    | _, _ => false

/-- The spelling of a decimal number behind its sign. An underscore may follow the sign, and zeros in
front pass behind it. -/
def isSigned : Text → Bool
  | '_' :: t => if isScaled t then (float? (ungroup? 10) t).isSome else areGroups t
  | t => isDecimal t

/-- The spelling of a number whose base is marked, behind the mark. -/
def isMarked (base : Nat) (t : Text) : Bool := t = [] || (ungroup? base t).isSome

def isNumber : Text → Bool
  | '0' :: 'x' :: t => isMarked 16 t
  | '0' :: 'o' :: t => isMarked 8 t
  | '0' :: 'b' :: t => isMarked 2 t
  | '+' :: t => isSigned t
  | '-' :: t => isSigned t
  | t => isDecimal t

/-- A number in a base is at most 128 bits wide. -/
def hasWidth (base : Nat) (t : Text) : Bool := (ungroup? base t).any (numberOf base · < 1 <<< 128)

/-- A text spelled as a number, its underscores dropped, has a value. -/
def ungroupedHasValue : Text → Bool
  | '0' :: 'x' :: t => hasWidth 16 t
  | '0' :: 'o' :: t => hasWidth 8 t
  | '0' :: 'b' :: t => hasWidth 2 t
  | t =>
    let (negative, t) := dropSign t
    if t = "inf".toList ∨ t = "nan".toList then true
    else
      match ungroup? 10 t with
      | some digits => if negative then numberOf 10 digits ≤ 1 <<< 127 else numberOf 10 digits < 1 <<< 128
      | none => (float? (ungroup? 10) t).any fun (digits, power) => holdsFloat digits power

def hasValue (t : Text) : Bool := ungroupedHasValue (t.filter (· ≠ '_'))

end StepScope.Toml
