import StepScope.Instruction

/-!
The listing of a piece of code: its instructions in order, closed by a `STOP` one past the end, and
the index from positions to lines. The scan stops at an undefined opcode, since what follows is data,
and after an operand that the end of the code cuts short.
-/

namespace StepScope

/-- One line of a listing. -/
structure Entry where
  /-- Position of the opcode in the code. -/
  offset : Nat
  /-- Bytes of the code that the line stands for. -/
  size : Nat
  text : Text
  deriving DecidableEq, Repr

/-- Lines in code order. -/
structure Listing where
  entries : List Entry
  deriving DecidableEq, Repr

/-- The line of an instruction in code of the given length. -/
def Instruction.entry (i : Instruction) (length : Nat) : Entry :=
  { offset := i.offset, size := i.size length, text := i.line }

namespace Listing

/-- Adds the lines for `rest`, the code from `offset` on, to those already `done`, the last of which
comes first. -/
def scan (length : Nat) (done : List Entry) (offset : Nat) (rest : Bytes) : List Entry :=
  match Instruction.ofRest? offset rest, rest with
  | none, _ => done.reverse
  | some i, [] => (i.entry length :: done).reverse
  | some i, _ :: after =>
    if i.immediate.length < i.announced then (i.entry length :: done).reverse
    else scan length (i.entry length :: done) (offset + i.stride) (after.drop i.announced)
termination_by rest.length
decreasing_by simp only [List.length_drop, List.length_cons]; omega

def ofCode (code : Bytes) : Listing := ⟨scan code.length [] 0 code⟩

/-- Every position where an instruction of the code starts, with its line. The closing `STOP` has a
line but no place in the code. A scan that enters the positions into a table one by one has this index at
its end (`Bounded.Scan.Shows`). -/
def index (l : Listing) : List (Nat × Nat) :=
  (l.entries.zipIdx.filter fun (e, _) => e.size ≠ 0).map fun (e, line) => (e.offset, line)

/-- The line of the instruction that starts exactly at `position`. -/
def lineOf? (l : Listing) (position : Nat) : Option Nat :=
  (l.index.find? fun (start, _) => start = position).map (·.2)

/-- The line of the instruction whose opcode or operand covers `position`. -/
def lineContaining? (l : Listing) (position : Nat) : Option Nat := do
  let (start, line) ← (l.index.takeWhile fun (start, _) => start ≤ position).getLast?
  let entry ← l.entries[line]?
  if position < start + entry.size then some line else none

/-- The texts of the lines. -/
def lines (l : Listing) : List Text := l.entries.map (·.text)

/-- All lines, each ended by a line break. -/
def text (l : Listing) : Text := l.lines.flatMap (· ++ ['\n'])

end Listing

end StepScope
