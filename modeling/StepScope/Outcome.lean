import StepScope.HexDump
import StepScope.Opcode
import StepScope.Saturated
import StepScope.Snapshot

/-!
How the step under the cursor ends an execution, if it does.
-/

namespace StepScope

inductive Outcome
  /-- The step costs more gas than there is. -/
  | outOfGas
  /-- `RETURN` with the bytes it returns. -/
  | returned (data : Bytes)
  | stopped
  /-- `SELFDESTRUCT` with the account that receives the balance. -/
  | selfDestructed (beneficiary : Address)
  /-- Anything else. -/
  | exception
  deriving DecidableEq, Repr

namespace Outcome

/-- Where the bytes from `offset` on start in a buffer of the given length. -/
def windowStart (length : Nat) (offset : Word) : Nat := min (Saturated.ofNat offset.toNat).toNat length

/-- Where `size` bytes from `offset` on stop in a buffer of the given length. Positions are numbers of 64
bits, and what is beyond them lies behind every buffer. -/
def windowStop (length : Nat) (offset size : Word) : Nat :=
  min (Saturated.add (Saturated.ofNat offset.toNat) (Saturated.ofNat size.toNat)).toNat length

/-- The bytes of a buffer from `offset` on, `size` of them as far as the buffer goes. -/
def window (bytes : Bytes) (offset size : Word) : Bytes :=
  (bytes.take (windowStop bytes.length offset size)).drop (windowStart bytes.length offset)

/-- Judges the step of a snapshot. Gas comes first; then the opcode decides, if the stack holds its
operands. -/
def ofSnapshot (x : Snapshot) : Outcome :=
  if x.gas < x.gasCost then .outOfGas
  else if x.instruction = Opcode.returnData then
    match x.peek? 0, x.peek? 1 with
    | some offset, some size => .returned (window x.memory offset size)
    | _, _ => .exception
  else if x.instruction = Opcode.stop then .stopped
  else if x.instruction = Opcode.selfDestruct then
    match x.peek? 0 with
    | some beneficiary => .selfDestructed beneficiary.toAddress
    | none => .exception
  else .exception

def text : Outcome → Text
  | .outOfGas => "OUT-OF-GAS".toList
  | .returned data => "RETURN ".toList ++ HexDump.text data
  | .stopped => "STOP".toList
  | .selfDestructed beneficiary => "SUICIDE ".toList ++ beneficiary.text
  | .exception => "EXCEPTION".toList

end Outcome

end StepScope
