import StepScope.Keyed

/-!
The state of a machine right before one step.
-/

namespace StepScope

structure Snapshot where
  /-- Position of `instruction` in the code. -/
  pc : UInt64 := 0
  /-- The opcode that is about to run. -/
  instruction : UInt8 := 0
  /-- Gas that is left. -/
  gas : UInt64 := 0
  gasCost : UInt64 := 0
  /-- Steps taken so far. -/
  steps : UInt64 := 0
  /-- Words by which the step makes the memory grow. -/
  newMemSize : UInt64 := 0
  /-- The stack, its top last. -/
  stack : List Word := []
  storage : Keyed Word Word := Keyed.empty
  memory : Bytes := []
  callData : Bytes := []
  address : Address := 0
  /-- The calling frames, the innermost last. -/
  levels : List Snapshot := []

namespace Snapshot

/-- The word at a depth of the stack, zero being the top. -/
def peek? (s : Snapshot) (depth : Nat) : Option Word := s.stack.reverse[depth]?

/-- The number of frames, this one included. -/
def depth (s : Snapshot) : Nat := s.levels.length + 1

end Snapshot

end StepScope
