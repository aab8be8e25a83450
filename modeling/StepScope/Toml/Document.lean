import StepScope.Toml.Value.Reader

/-!
A TOML text as a whole: lines that assign a value, open a table or grow an array of tables.
-/

namespace StepScope.Toml

/-- Reads the remaining lines; `current` is the path of the table that was opened last. -/
def readLinesInto : (limit : Nat) → (current : List Text) → Entries → Text → Option Entries
  | 0, _, _, _ => none
  | limit + 1, current, root, s =>
    match skipSpace s with
    | [] => some root
    | '[' :: '[' :: s => do
      let (path, s) ← readPath maxDepth s
      let ']' :: ']' :: s := s | none
      let s ← readLineEnd s
      let root ← root.growArray path
      readLinesInto limit path root s
    | '[' :: s => do
      let (path, s) ← readPath maxDepth s
      let ']' :: s := s | none
      let s ← readLineEnd s
      let root ← root.openTable path
      readLinesInto limit path root s
    | s =>
      match readLineEnd s with
      | some rest => readLinesInto limit current root rest
      | none => do
        let (parts, v, s) ← readAssignment skipSpace (readValue (s.length + 1) maxDepth) s
        let s ← readLineEnd s
        let root ← root.assignAt current parts v
        readLinesInto limit current root s

/-- Reads a text; a byte order mark at its start does not count. -/
def read (t : Text) : Option Entries :=
  let t := match t with
    | '\ufeff' :: rest => rest
    | t => t
  readLinesInto (t.length + 1) [] [] t

end StepScope.Toml
