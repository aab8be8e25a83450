import StepScope.Snapshot

/-!
The fields of a snapshot's written forms, and their order where a form goes without names.
-/

namespace StepScope.Snapshot

inductive Field
  | pc
  | instruction
  | gas
  | gasCost
  | steps
  | newMemSize
  | stack
  | storage
  | memory
  | callData
  | address
  | levels
  deriving DecidableEq, Repr

namespace Field

/-- All fields in their order. -/
def all : List Field :=
  [pc, instruction, gas, gasCost, steps, newMemSize, stack, storage, memory, callData, address,
    levels]

def name : Field → Text
  | pc => "pc".toList
  | instruction => "instruction".toList
  | gas => "gas".toList
  | gasCost => "gasCost".toList
  | steps => "steps".toList
  | newMemSize => "newMemSize".toList
  | stack => "stack".toList
  | storage => "storage".toList
  | memory => "memory".toList
  | callData => "callData".toList
  | address => "address".toList
  | levels => "levels".toList

def ofName? (t : Text) : Option Field := all.find? fun f => f.name = t

theorem mem_all (f : Field) : f ∈ all := by
  cases f <;> decide

theorem ofName?_name (f : Field) : ofName? f.name = some f := by
  cases f <;> decide

end Field

end StepScope.Snapshot
