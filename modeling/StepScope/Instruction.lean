import StepScope.Opcode
import StepScope.Text.Hex

/-!
One decoded instruction: its opcode and the immediate bytes that are really there.
-/

namespace StepScope

structure Instruction where
  /-- Position of the opcode in the code. -/
  offset : Nat
  opcode : UInt8
  mnemonic : Text
  /-- The operand, shorter than announced where the code ends early. -/
  immediate : Bytes
  deriving DecidableEq, Repr

namespace Instruction

/-- Reads the instruction at the head of `rest`, the code from `offset` on. Past the end of the code
there is a `STOP`; an undefined opcode is no instruction. -/
def ofRest? (offset : Nat) (rest : Bytes) : Option Instruction :=
  let opcode := rest.headD Opcode.stop
  (Opcode.mnemonic? opcode).map fun mnemonic =>
    { offset, opcode, mnemonic, immediate := rest.tail.take (Opcode.immediateSize opcode) }

/-- Reads the instruction at `offset`. -/
def decode? (code : Bytes) (offset : Nat) : Option Instruction :=
  ofRest? offset (code.drop offset)

/-- The number of immediate bytes that the opcode announces. -/
def announced (i : Instruction) : Nat := Opcode.immediateSize i.opcode

/-- Distance to the next instruction, as the opcode announces it. -/
def stride (i : Instruction) : Nat := 1 + i.announced

/-- The bytes that the instruction occupies in code of the given length. -/
def size (i : Instruction) (length : Nat) : Nat :=
  if length ≤ i.offset then 0 else 1 + i.immediate.length

/-- The line of a listing: offset, mnemonic and, if there is one, the operand. -/
def line (i : Instruction) : Text :=
  Text.offset i.offset ++ ' ' :: ' ' :: i.mnemonic ++
    if i.immediate = [] then [] else " 0x".toList ++ Hex.ofBytes i.immediate

theorem opcode_ofRest? {offset : Nat} {rest : Bytes} {i : Instruction}
    (h : ofRest? offset rest = some i) : i.opcode = rest.headD Opcode.stop := by
  obtain ⟨_, _, rfl⟩ := Option.map_eq_some_iff.1 h
  rfl

end Instruction

end StepScope
