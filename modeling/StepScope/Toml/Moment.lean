import StepScope.Text

/-!
The dates and times of TOML: a date, a time of day, or both, and then perhaps the distance from
universal time. Seconds may be left out.
-/

namespace StepScope.Toml

structure Date where
  year : Nat
  month : Nat
  day : Nat
  deriving DecidableEq, Repr

structure Clock where
  hour : Nat
  minute : Nat
  second : Nat
  nanosecond : Nat
  deriving DecidableEq, Repr

inductive Zone
  | universal
  | ahead (minutes : Int)
  deriving DecidableEq, Repr

inductive Moment
  | onDate (d : Date)
  | onClock (c : Clock)
  | onBoth (d : Date) (c : Clock) (zone : Option Zone)
  deriving DecidableEq, Repr

namespace Moment

/-- Reads a number of two digits. -/
def readPair : Text → Option (Nat × Text)
  | a :: b :: rest =>
    if a.isDigit ∧ b.isDigit then some (10 * (a.toNat - 48) + (b.toNat - 48), rest) else none
  | _ => none

def isLeap (year : Nat) : Bool := year % 4 = 0 && (year % 100 ≠ 0 || year % 400 = 0)

def daysOf (year month : Nat) : Nat :=
  if month = 2 then if isLeap year then 29 else 28
  else if month = 4 ∨ month = 6 ∨ month = 9 ∨ month = 11 then 30
  else 31

def readDate (s : Text) : Option (Date × Text) := do
  let (century, s) ← readPair s
  let (year, s) ← readPair s
  let '-' :: s := s | none
  let (month, s) ← readPair s
  let '-' :: s := s | none
  let (day, s) ← readPair s
  let year := 100 * century + year
  if 1 ≤ month ∧ month ≤ 12 ∧ 1 ≤ day ∧ day ≤ daysOf year month then
    some (⟨year, month, day⟩, s)
  else none

/-- The billionths that digits behind a point write; those after the ninth do not count. -/
def billionths (digits : Text) : Nat :=
  (digits.take 9).foldl (fun n c => 10 * n + (c.toNat - 48)) 0 * Nat.pow 10 (9 - digits.length)

/-- Reads the fraction of a second, which may be left out. -/
def readFraction (s : Text) : Option (Nat × Text) :=
  match s with
  | '.' :: s =>
    let (digits, rest) := s.span Char.isDigit
    if digits = [] then none else some (billionths digits, rest)
  | s => some (0, s)

/-- Reads a time of day; the second may be left out, and may be a leap second. -/
def readClock (s : Text) : Option (Clock × Text) := do
  let (hour, s) ← readPair s
  let ':' :: s := s | none
  let (minute, s) ← readPair s
  if hour ≤ 23 ∧ minute ≤ 59 then
    match s with
    | ':' :: s =>
      let (second, s) ← readPair s
      let (nanosecond, s) ← readFraction s
      if second ≤ 60 then some (⟨hour, minute, second, nanosecond⟩, s) else none
    | s => some (⟨hour, minute, 0, 0⟩, s)
  else none

/-- Reads hours and minutes of distance. -/
def readDistance (s : Text) : Option (Nat × Text) := do
  let (hours, s) ← readPair s
  let ':' :: s := s | none
  let (minutes, s) ← readPair s
  if hours ≤ 23 ∧ minutes ≤ 59 then some (60 * hours + minutes, s) else none

def readZone : Text → Option (Option Zone × Text)
  | 'Z' :: s => some (some .universal, s)
  | 'z' :: s => some (some .universal, s)
  | '+' :: s => (readDistance s).map fun (n, s) => (some (.ahead n), s)
  | '-' :: s => (readDistance s).map fun (n, s) => (some (.ahead (-n)), s)
  | s => some (none, s)

/-- Reads a time of day and perhaps the distance from universal time, up to the end. -/
def readRest (d : Date) (s : Text) : Option Moment := do
  let (c, s) ← readClock s
  let (zone, s) ← readZone s
  if s = [] then some (.onBoth d c zone) else none

/-- Reads a date, a time of day, or both with a letter or a blank between them. -/
def ofText? (t : Text) : Option Moment :=
  match readDate t with
  | some (d, []) => some (.onDate d)
  | some (d, c :: s) => if c = 'T' ∨ c = 't' ∨ c = ' ' then readRest d s else none
  | none =>
    match readClock t with
    | some (c, []) => some (.onClock c)
    | _ => none

/-- A number on `width` digits at least. -/
def padded (width n : Nat) : Text := (Text.decimal n).leftpad width '0'

def dateText (d : Date) : Text :=
  padded 4 d.year ++ '-' :: padded 2 d.month ++ '-' :: padded 2 d.day

/-- The fraction of a second without zeros at its end, nothing if it is zero. -/
def fractionText (nanosecond : Nat) : Text :=
  if nanosecond = 0 then []
  else '.' :: ((padded 9 nanosecond).reverse.dropWhile (· = '0')).reverse

def clockText (c : Clock) : Text :=
  padded 2 c.hour ++ ':' :: padded 2 c.minute ++ ':' :: padded 2 c.second ++
    fractionText c.nanosecond

def zoneText : Zone → Text
  | .universal => ['Z']
  | .ahead minutes =>
    (if minutes < 0 then '-' else '+') ::
      (padded 2 (minutes.natAbs / 60) ++ ':' :: padded 2 (minutes.natAbs % 60))

/-- A moment in its usual spelling. -/
def text : Moment → Text
  | .onDate d => dateText d
  | .onClock c => clockText c
  | .onBoth d c zone =>
    dateText d ++ 'T' :: clockText c ++ match zone with
      | some z => zoneText z
      | none => []

end Moment

end StepScope.Toml
