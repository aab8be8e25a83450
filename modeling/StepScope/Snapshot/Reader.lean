import StepScope.Json.Halt
import StepScope.Json.Sequence
import StepScope.Json.Skip
import StepScope.Snapshot.Field
import StepScope.Snapshot.WordText

/-!
Reading a snapshot from JSON. It is written as an object of named fields in any order, where unknown
names are passed over and no field comes twice, or as an array of the values of the first fields in
their order. Fields that are not written have their defaults. At most 127 brackets may be open at a
time; `depth` counts how many more may be opened, and `limit` is above the length of the text.
-/

namespace StepScope.Snapshot

open Json

def readBelow (bound : Nat) : Reader Nat := fun s => do
  match ← readToken s with
  | (.natural n, rest) => if n < bound then .ok (n, rest) else .error .mistyped
  | _ => .error .mistyped

def readCounter (s : Text) : Except Fault (UInt64 × Text) :=
  (readBelow UInt64.size s).map fun (n, rest) => (UInt64.ofNat n, rest)

def readByte (s : Text) : Except Fault (UInt8 × Text) :=
  (readBelow UInt8.size s).map fun (n, rest) => (UInt8.ofNat n, rest)

/-- The fault of a bracket where none is asked for: it may also be one too many. -/
def bracketFault (depth : Nat) : Fault := if depth = 0 then .malformed else .mistyped

/-- Reads a word: a whole number, or a numeral in a string. -/
def readWord (depth : Nat) : Reader Word := fun s => do
  match ← readToken s with
  | (.natural n, rest) => .ok (BitVec.ofNat 256 n, rest)
  | (.text t, rest) =>
    match WordText.read? t with
    | some w => .ok (w, rest)
    | none => .error .mistyped
  | (.openArray, _) => .error (bracketFault depth)
  | (.openObject, _) => .error (bracketFault depth)
  | _ => .error .mistyped

/-- Reads an array; `item` reads an item inside it, where one bracket less may be opened. -/
def readArray (limit depth : Nat) (item : Reader α) : Reader (List α) := fun s => do
  match ← readToken s with
  | (.openArray, rest) =>
    if depth = 0 then .error .malformed else readItems item limit true rest
  | _ => .error .mistyped

def slotKey (name : Text) : Except Fault Word :=
  match WordText.read? name with
  | some w => .ok w
  | none => .error .mistyped

/-- Reads the slots of the storage; a later one replaces an earlier one of the same key. -/
def readStorage (limit depth : Nat) : Reader (Keyed Word Word) := fun s => do
  match ← readToken s with
  | (.openObject, rest) =>
    if depth = 0 then .error .malformed
    else
      let (slots, rest) ← readMembers slotKey (readWord (depth - 1)) limit true rest
      .ok (Keyed.ofList slots, rest)
  | _ => .error .mistyped

/-- Reads bytes: digit pairs in a string, with or without a mark, or an array of numbers. -/
def readBytes (limit depth : Nat) : Reader Bytes := fun s => do
  match ← readToken s with
  | (.text t, rest) =>
    match Hex.read (Text.utf8 (Hex.dropMark t)) with
    | .ok bytes => .ok (bytes, rest)
    | .error _ => .error .mistyped
  | (.openArray, rest) =>
    if depth = 0 then .error .malformed else readItems readByte limit true rest
  | (.openObject, _) => .error (bracketFault depth)
  | _ => .error .mistyped

/-- Reads `count` bytes of an open array. -/
def readCount : (count : Nat) → (first : Bool) → Reader Bytes
  | 0, _, s => .ok ([], s)
  | count + 1, first, s => do
    match ← nextItem first s with
    | .close _ => .error .mistyped
    | .value s =>
      let (b, s) ← readByte s
      let (bytes, rest) ← readCount count false s
      .ok (b :: bytes, rest)

/-- Closes the array of an address. One more byte is a fault, but one more value that is no byte is
passed over as far as reading it goes, and so is a comma in front of the bracket. -/
def closeAddress (s : Text) : Except Fault Text :=
  match skipBlank s with
  | ',' :: rest =>
    match skipBlank rest with
    | ']' :: rest => .ok rest
    | rest =>
      match readByte rest with
      | .ok _ => .error .mistyped
      | .error _ => (halt rest).elim (.error .malformed) closeArray
  | s => closeArray s

/-- Reads an address: its text, or an array of twenty bytes. -/
def readAddress (depth : Nat) : Reader Address := fun s => do
  match ← readToken s with
  | (.text t, rest) =>
    match Address.read t with
    | .ok a => .ok (a, rest)
    | .error _ => .error .mistyped
  | (.openArray, rest) =>
    if depth = 0 then .error .malformed
    else
      let (bytes, rest) ← readCount 20 true rest
      let rest ← closeAddress rest
      .ok (Address.ofBytes bytes, rest)
  | (.openObject, _) => .error (bracketFault depth)
  | _ => .error .mistyped

/-- Reads the value of a field as what it makes of a snapshot. `frames` reads the calling frames. -/
def readField (limit depth : Nat) (frames : Reader (List Snapshot)) :
    Field → Reader (Snapshot → Snapshot)
  | .pc, s => (readCounter s).map fun (n, rest) => (fun x => { x with pc := n }, rest)
  | .instruction, s => (readByte s).map fun (b, rest) => (fun x => { x with instruction := b }, rest)
  | .gas, s => (readCounter s).map fun (n, rest) => (fun x => { x with gas := n }, rest)
  | .gasCost, s => (readCounter s).map fun (n, rest) => (fun x => { x with gasCost := n }, rest)
  | .steps, s => (readCounter s).map fun (n, rest) => (fun x => { x with steps := n }, rest)
  | .newMemSize, s => (readCounter s).map fun (n, rest) => (fun x => { x with newMemSize := n }, rest)
  | .stack, s =>
    (readArray limit depth (readWord (depth - 1)) s).map fun (words, rest) =>
      (fun x => { x with stack := words }, rest)
  | .storage, s =>
    (readStorage limit depth s).map fun (slots, rest) => (fun x => { x with storage := slots }, rest)
  | .memory, s =>
    (readBytes limit depth s).map fun (bytes, rest) => (fun x => { x with memory := bytes }, rest)
  | .callData, s =>
    (readBytes limit depth s).map fun (bytes, rest) => (fun x => { x with callData := bytes }, rest)
  | .address, s =>
    (readAddress depth s).map fun (a, rest) => (fun x => { x with address := a }, rest)
  | .levels, s => (frames s).map fun (levels, rest) => (fun x => { x with levels := levels }, rest)

/-- Reads the values of the given fields, as far as they are written, in an open array. -/
def readPositional (field : Field → Reader (Snapshot → Snapshot)) :
    List Field → (first : Bool) → Snapshot → Reader Snapshot
  | [], _, x, s => (closeArray s).map fun rest => (x, rest)
  | f :: fields, first, x, s => do
    match ← nextItem first s with
    | .close rest => .ok (x, rest)
    | .value s =>
      let (assign, s) ← field f s
      readPositional field fields false (assign x) s

/-- Reads the members of an open object; `seen` are the fields that were there before. -/
def readNamed (skipped : Text → Except Fault Text) (field : Field → Reader (Snapshot → Snapshot)) :
    (limit : Nat) → (seen : List Field) → (first : Bool) → Snapshot → Reader Snapshot
  | 0, _, _, _, _ => .error .malformed
  | limit + 1, seen, first, x, s => do
    match ← nextMember first s with
    | .close rest => .ok (x, rest)
    | .key name s =>
      match Field.ofName? name with
      | none =>
        let s ← readColon s
        let s ← skipped s
        readNamed skipped field limit seen false x s
      | some f =>
        if f ∈ seen then .error .mistyped
        else
          let s ← readColon s
          let (assign, s) ← field f s
          readNamed skipped field limit (f :: seen) false (assign x) s

/-- Reads a snapshot whose own bracket may be opened; `depth` counts how many more inside it. -/
def readWith (limit depth : Nat) (frames : Reader (List Snapshot)) : Reader Snapshot := fun s => do
  let field := readField limit depth frames
  match ← readToken s with
  | (.openArray, rest) => readPositional field Field.all true {} rest
  | (.openObject, rest) => readNamed (skipValue limit) field limit [] true {} rest
  | _ => .error .mistyped

def readNone : Reader Snapshot := fun s => do
  match ← readToken s with
  | (.openArray, _) => .error .malformed
  | (.openObject, _) => .error .malformed
  | _ => .error .mistyped

/-- Reads a snapshot; its calling frames stand two brackets further inside. -/
def read (limit : Nat) : (depth : Nat) → Reader Snapshot
  | 0 => readNone
  | 1 => readWith limit 0 (readArray limit 0 readNone)
  | depth + 2 => readWith limit (depth + 1) (readArray limit (depth + 1) (read limit depth))

/-- The number of brackets that may be open at a time. -/
def maxDepth : Nat := 127

/-- Reads the snapshot that a JSON text holds. -/
def ofJson (t : Text) : Except Fault Snapshot := do
  let (x, rest) ← read (t.length + 1) maxDepth t
  readEnd rest
  return x

end StepScope.Snapshot
