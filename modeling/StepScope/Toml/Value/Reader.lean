import StepScope.Toml.Quoted
import StepScope.Toml.Value

/-!
Reading the keys and values of TOML. Brackets and braces nest at most eighty deep, and a key has at
most eighty parts. `limit` is above the length of the text.
-/

namespace StepScope.Toml

/-- How deep values nest, and how many parts a key has. -/
def maxDepth : Nat := 80

/-- Reads one part of a key. -/
def readKey (s : Text) : Option (Text × Text) :=
  match readLine? s with
  | some found => some found
  | none =>
    let (bare, rest) := s.span isBare
    if bare = [] then none else some (bare, rest)

/-- Reads the parts of a key, with points between them, and the spaces around them. -/
def readPath : (limit : Nat) → Text → Option (List Text × Text)
  | 0, _ => none
  | limit + 1, s => do
    let (part, s) ← readKey (skipSpace s)
    match skipSpace s with
    | '.' :: s => (readPath limit s).map fun (path, rest) => (part :: path, rest)
    | s => some ([part], s)

/-- The characters of a value without quotation marks: all but those that set values apart. -/
def isAtom (c : Char) : Bool := !("=,[]\x7b\x7d #\t\r\n".toList.contains c)

/-- The characters with which such a value goes on behind spaces. -/
def resumesAtom (c : Char) : Bool := isAtom c && c ≠ '.' && c ≠ '"' && c ≠ '\''

/-- Takes a value without quotation marks off the front. Spaces belong to it where it goes on behind
them; `gap` are those that were passed last. -/
def takeAtom : (gap : Text) → Text → Text × Text
  | gap, [] => ([], gap)
  | gap, c :: s =>
    if isSpace c then takeAtom (gap ++ [c]) s
    else if (gap = [] ∧ isAtom c) ∨ resumesAtom c then
      let (atom, rest) := takeAtom [] s
      (gap ++ c :: atom, rest)
    else ([], gap ++ c :: s)

/-- Reads a value without quotation marks. -/
def readAtom (s : Text) : Option (Value × Text) :=
  let (atom, rest) := takeAtom [] s
  if atom = "true".toList then some (.truth true, rest)
  else if atom = "false".toList then some (.truth false, rest)
  else if isNumber atom then some (.number atom, rest)
  else (Moment.ofText? atom).map fun m => (.moment m, rest)

/-- Reads the items of an open array. -/
def readItems (item : Text → Option (Value × Text)) :
    (limit : Nat) → Text → Option (List Value × Text)
  | 0, _ => none
  | limit + 1, s =>
    match skipTrivia false s with
    | ']' :: rest => some ([], rest)
    | s => do
      let (v, s) ← item s
      match skipTrivia false s with
      | ',' :: s => (readItems item limit s).map fun (vs, rest) => (v :: vs, rest)
      | ']' :: rest => some ([v], rest)
      | _ => none

/-- Reads a key, an equals sign and a value, with what `skip` passes over between them. -/
def readAssignment (skip : Text → Text) (value : Text → Option (Value × Text)) (s : Text) :
    Option (List Text × Value × Text) := do
  let (parts, s) ← readPath maxDepth s
  let '=' :: s := skip s | none
  let (v, s) ← value (skip s)
  some (parts, v, s)

/-- Reads the entries of an open table, after those that are there. -/
def readEntries (value : Text → Option (Value × Text)) :
    (limit : Nat) → Entries → Text → Option (Entries × Text)
  | 0, _, _ => none
  | limit + 1, entries, s =>
    match skipTrivia false s with
    | '\x7d' :: rest => some (entries, rest)
    | s => do
      let (parts, v, s) ← readAssignment (skipTrivia false) value s
      let entries ← entries.assign parts v .closed
      match skipTrivia false s with
      | ',' :: s => readEntries value limit entries s
      | '\x7d' :: rest => some (entries, rest)
      | _ => none

/-- Reads a value that holds no others. -/
def readScalar (s : Text) : Option (Value × Text) :=
  match readQuoted? s with
  | some (t, rest) => some (.text t, rest)
  | none => readAtom s

/-- Reads a value; `depth` brackets and braces may be open at a time. -/
def readValue (limit : Nat) : (depth : Nat) → Text → Option (Value × Text)
  | 0, s => readScalar s
  | depth + 1, s =>
    match s with
    | '[' :: s =>
      (readItems (readValue limit depth) limit s).map fun (items, rest) => (.array false items, rest)
    | '\x7b' :: s =>
      (readEntries (readValue limit depth) limit [] s).map fun (entries, rest) =>
        (.table .closed entries, rest)
    | s => readScalar s

end StepScope.Toml
