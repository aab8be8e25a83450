import StepScope.Checked
import StepScope.Keyed
import StepScope.Listing
import StepScope.Saturated

/-!
The listing as a machine with positions of 64 bits makes it, turn by turn. Where bounds may lie behind the
code they are saturated and clamped; all other sums are taken as they are, and so are the slices.
-/

namespace StepScope

instance : KeyOrder UInt64 where
  before a b := a < b
  irrefl a := decide_eq_false (UInt64.lt_irrefl a)
  trans _ _ _ hab hbc := decide_eq_true (UInt64.lt_trans (of_decide_eq_true hab) (of_decide_eq_true hbc))
  connected _ _ hab hba :=
    UInt64.le_antisymm (UInt64.not_lt.1 (of_decide_eq_false hba)) (UInt64.not_lt.1 (of_decide_eq_false hab))

namespace Bounded

open Checked (Breach extent add slice)

/-- Where the operand behind the opcode at `offset` starts in code of the given length. -/
def operandStart (length offset : UInt64) : UInt64 := min (Saturated.add offset 1) length

/-- Where that operand stops if its opcode announces so many bytes. -/
def operandStop (length offset announced : UInt64) : UInt64 :=
  min (Saturated.add (operandStart length offset) announced) length

/-- Reads the instruction at `offset`. -/
def decode? (code : Bytes) (offset : UInt64) : Except Breach (Option Instruction) :=
  let opcode := code[offset.toNat]?.getD Opcode.stop
  match Opcode.mnemonic? opcode with
  | none => .ok none
  | some mnemonic =>
    let announced := UInt64.ofNat (Opcode.immediateSize opcode)
    let start := operandStart (extent code) offset
    let stop := operandStop (extent code) offset announced
    (slice code start.toNat stop.toNat).map fun immediate =>
      some { offset := offset.toNat, opcode, mnemonic, immediate }

/-- Distance to the next instruction. -/
def stride (i : Instruction) : Except Breach UInt64 := add 1 (UInt64.ofNat i.announced)

/-- The bytes that an instruction occupies in code of the given length. -/
def size (i : Instruction) (length : UInt64) : Except Breach UInt64 :=
  if length.toNat ≤ i.offset then .ok 0 else add 1 (extent i.immediate)

/-- One line of a listing. -/
structure Line where
  offset : UInt64
  size : UInt64
  text : Text
  deriving DecidableEq, Repr

def Line.entry (l : Line) : Entry := { offset := l.offset.toNat, size := l.size.toNat, text := l.text }

/-- How far the scan of a piece of code has come. -/
structure Scan where
  position : UInt64 := 0
  lines : List Line := []
  /-- The positions where the instructions start, with their lines. -/
  starts : Keyed UInt64 Nat := Keyed.empty
  deriving DecidableEq

/-- Lists an instruction of the given size that starts at the position, and goes on to the next position. -/
def Scan.enter (s : Scan) (length : UInt64) (i : Instruction) (size next : UInt64) : Scan where
  position := next
  lines := s.lines ++ [{ offset := s.position, size, text := i.line }]
  starts := if s.position < length then s.starts.insert s.position s.lines.length else s.starts

/-- One turn of the scan: the instruction at the position is listed, and the next position is behind it. At an
undefined opcode there is nothing to list. -/
def turn (code : Bytes) (s : Scan) : Except Breach (Option Scan) := do
  match ← decode? code s.position with
  | none => return none
  | some i =>
    let size ← size i (extent code)
    let next ← add s.position (← stride i)
    return some (s.enter (extent code) i size next)

/-- Takes turns while the position is not behind the end of the code, up to an undefined opcode. None if that
needs more than `limit` turns. -/
def run (code : Bytes) (limit : Nat) (s : Scan) : Except Breach (Option Scan) :=
  if s.position ≤ extent code then
    match limit with
    | 0 => .ok none
    | limit + 1 => do
      match ← turn code s with
      | none => return some s
      | some s' => run code limit s'
  else .ok (some s)

/-- The scan of the code comes to this state after so many turns. -/
inductive After (code : Bytes) : Nat → Scan → Prop
  | start : After code 0 {}
  | turn {turns : Nat} {s s' : Scan} : After code turns s → s.position ≤ extent code →
      turn code s = .ok (some s') → After code (turns + 1) s'

/-- The line of the instruction whose opcode or operand covers `position`. -/
def lineContaining? (s : Scan) (position : UInt64) : Except Breach (Option Nat) :=
  match (s.starts.entries.takeWhile fun e => e.1 ≤ position).getLast? with
  | none => .ok none
  | some (start, line) =>
    match s.lines[line]? with
    | none => .ok none
    | some l => (add start l.size).map fun stop => if position < stop then some line else none

end Bounded

end StepScope
