import StepScope.Snapshot.Field

/-!
Writing a snapshot as a JSON object of all its fields in their order. Counters are numbers, words are
numerals with a mark, bytes are digit pairs with a mark.
-/

namespace StepScope.Snapshot

/-- A text without quotation marks, backslashes and controls as a JSON string. -/
def stringJson (t : Text) : Text := '"' :: (t ++ ['"'])

def bytesJson (bytes : Bytes) : Text := stringJson ('0' :: 'x' :: Hex.ofBytes bytes)

def wordJson (w : Word) : Text := stringJson w.text

/-- Items in the given brackets, with commas between them. -/
def enclosed (opening closing : Char) (items : List Text) : Text :=
  opening :: ((items.intersperse [',']).flatten ++ [closing])

def slotJson (slot : Word × Word) : Text := wordJson slot.1 ++ ':' :: wordJson slot.2

def storageJson (slots : List (Word × Word)) : Text := enclosed '\x7b' '\x7d' (slots.map slotJson)

/-- A field with its name. -/
def memberJson (f : Field) (value : Text) : Text := stringJson f.name ++ ':' :: value

/-- The value of a field, where the slots of the storage and the calling frames come as given. -/
def valueJson (x : Snapshot) (slots : List (Word × Word)) (frames : List Text) : Field → Text
  | .pc => Text.decimal x.pc.toNat
  | .instruction => Text.decimal x.instruction.toNat
  | .gas => Text.decimal x.gas.toNat
  | .gasCost => Text.decimal x.gasCost.toNat
  | .steps => Text.decimal x.steps.toNat
  | .newMemSize => Text.decimal x.newMemSize.toNat
  | .stack => enclosed '[' ']' (x.stack.map wordJson)
  | .storage => storageJson slots
  | .memory => bytesJson x.memory
  | .callData => bytesJson x.callData
  | .address => stringJson x.address.text
  | .levels => enclosed '[' ']' frames

def membersJson (x : Snapshot) (slots : List (Word × Word)) (frames : List Text) : List Text :=
  Field.all.map fun f => memberJson f (valueJson x slots frames f)

/-- The object of all fields. -/
def objectJson (x : Snapshot) (slots : List (Word × Word)) (frames : List Text) : Text :=
  enclosed '\x7b' '\x7d' (membersJson x slots frames)

mutual

/-- The JSON text of a snapshot; the slots of its storage come in ascending order. -/
def toJson : Snapshot → Text
  | ⟨pc, instruction, gas, gasCost, steps, newMemSize, stack, storage, memory, callData, address,
      levels⟩ =>
    objectJson ⟨pc, instruction, gas, gasCost, steps, newMemSize, stack, storage, memory, callData,
      address, []⟩ storage.entries (framesJson levels)

def framesJson : List Snapshot → List Text
  | [] => []
  | x :: levels => toJson x :: framesJson levels

end

theorem framesJson_eq_map (levels : List Snapshot) : framesJson levels = levels.map toJson := by
  induction levels with
  | nil => simp only [framesJson, List.map_nil]
  | cons x levels ih => simp only [framesJson, ih, List.map_cons]

theorem toJson_eq (x : Snapshot) :
    toJson x = objectJson x x.storage.entries (x.levels.map toJson) := by
  cases x
  rw [toJson, framesJson_eq_map]
  rfl

end StepScope.Snapshot
