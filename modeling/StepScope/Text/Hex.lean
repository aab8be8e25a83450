import StepScope.Text

/-!
Bytes as pairs of hexadecimal digits. Writing uses lower case; reading takes either case and
names the first thing that is wrong.
-/

namespace StepScope.Hex

/-- The two digits of a byte, the high one first. -/
def ofByte (b : UInt8) : Text := [Nat.digitChar (b.toNat / 16), Nat.digitChar (b.toNat % 16)]

def ofBytes (bytes : Bytes) : Text := bytes.flatMap ofByte

/-- The value of the digit with the given code, of either case. -/
def digit? (code : Nat) : Option Nat :=
  if 48 ≤ code ∧ code ≤ 57 then some (code - 48)
  else if 65 ≤ code ∧ code ≤ 70 then some (code - 55)
  else if 97 ≤ code ∧ code ≤ 102 then some (code - 87)
  else none

/-- Why bytes are not a row of digit pairs. -/
inductive Flaw
  /-- The last digit has no partner. -/
  | oddCount
  /-- The byte at a position, counted from zero, is not a digit. -/
  | badDigit (byte : UInt8) (position : Nat)
  deriving DecidableEq, Repr

/-- Reads digit pairs; `position` is that of the first byte. -/
def readPairs (position : Nat) : Bytes → Except Flaw Bytes
  | [] => .ok []
  | [_] => .error .oddCount
  | high :: low :: rest =>
    match digit? high.toNat, digit? low.toNat with
    | none, _ => .error (.badDigit high position)
    | some _, none => .error (.badDigit low (position + 1))
    | some h, some l => (readPairs (position + 2) rest).map (UInt8.ofNat (16 * h + l) :: ·)

/-- Reads a row of digit pairs. An odd count is noticed before any digit is looked at. -/
def read (digits : Bytes) : Except Flaw Bytes :=
  if digits.length % 2 = 1 then .error .oddCount else readPairs 0 digits

/-- The number that a row of digits writes. -/
def number? (digits : Text) : Option Nat :=
  (digits.mapM fun c => digit? c.toNat).map fun values => values.foldl (fun n d => 16 * n + d) 0

/-- Drops one leading `0x` or `0X`. -/
def dropMark : Text → Text
  | '0' :: 'x' :: rest => rest
  | '0' :: 'X' :: rest => rest
  | t => t

theorem length_ofBytes (bytes : Bytes) : (ofBytes bytes).length = 2 * bytes.length := by
  induction bytes with
  | nil => rfl
  | cons b bytes ih =>
    simp only [ofBytes, ofByte, List.flatMap_cons, List.length_append, List.length_cons,
      List.length_nil] at ih ⊢
    omega

end StepScope.Hex
