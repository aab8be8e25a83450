import StepScope.Toml.Moment
import StepScope.Toml.Number

/-!
The values of a TOML text and how its statements build them up. A table remembers how it came to be,
since that decides which later statements may add to it.
-/

namespace StepScope.Toml

/-- How a table came to be. -/
inductive TableKind
  /-- It stands above a table with a header and has none itself so far. -/
  | implied
  /-- It stands above a value whose key has several parts. -/
  | dotted
  /-- It has a header. -/
  | headed
  /-- It is written between braces, and nothing can be added to it. -/
  | closed
  deriving DecidableEq, Repr

inductive Value
  | text (t : Text)
  | moment (m : Moment)
  /-- A number, as it is spelled. -/
  | number (t : Text)
  | truth (b : Bool)
  /-- An array; one that `grows` consists of tables with headers. -/
  | array (grows : Bool) (items : List Value)
  | table (kind : TableKind) (entries : List (Text × Value))

abbrev Entries := List (Text × Value)

mutual

/-- Every number in a value has a value of its own. -/
def Value.isSound : Value → Bool
  | .number t => hasValue t
  | .array _ items => Value.areSound items
  | .table _ entries => Value.haveSound entries
  | _ => true

def Value.areSound : List Value → Bool
  | [] => true
  | v :: rest => v.isSound && Value.areSound rest

def Value.haveSound : List (Text × Value) → Bool
  | [] => true
  | (_, v) :: rest => v.isSound && Value.haveSound rest

end

namespace Entries

def find? (entries : Entries) (key : Text) : Option Value :=
  (List.find? (fun e => e.1 = key) entries).map (·.2)

/-- Puts a value in the place of the one with the same key, or at the end. -/
def put (key : Text) (value : Value) : Entries → Entries
  | [] => [(key, value)]
  | e :: rest => if e.1 = key then (key, value) :: rest else e :: put key value rest

/-- Changes the table at a path. Tables that the path lacks are made, of the given kind; a path of a
key with several parts goes through no table that has a header. -/
def modifyAt (made : TableKind) (edit : TableKind → Entries → Option Entries) :
    (path : List Text) → TableKind → Entries → Option Entries
  | [], kind, entries => edit kind entries
  | key :: path, _, entries =>
    match entries.find? key with
    | none =>
      (modifyAt made edit path made []).map fun inner => entries.put key (.table made inner)
    | some (.table kind inner) =>
      if kind = .closed ∨ (made = .dotted ∧ kind = .headed) then none
      else
        (modifyAt made edit path kind inner).map fun inner => entries.put key (.table kind inner)
    | some (.array true items) =>
      match items.getLast? with
      | some (.table kind inner) =>
        (modifyAt made edit path kind inner).map fun inner =>
          entries.put key (.array true (items.dropLast ++ [.table kind inner]))
      | _ => none
    | some _ => none

/-- Adds a value under a key of one or several parts. The last table on the way was made by such a
key exactly if there is one on the way. -/
def assign (parts : List Text) (value : Value) (kind : TableKind) (entries : Entries) :
    Option Entries :=
  match parts.getLast? with
  | none => none
  | some key =>
    modifyAt .dotted (fun kind entries =>
      if (kind = .dotted ↔ parts.dropLast ≠ []) ∧ (entries.find? key).isNone then
        some (entries.put key value)
      else none) parts.dropLast kind entries

/-- Gives a table its header. It is new, or stands above tables with headers. -/
def openTable (path : List Text) (root : Entries) : Option Entries :=
  match path.getLast? with
  | none => none
  | some key =>
    modifyAt .implied (fun _ entries =>
      match entries.find? key with
      | none => some (entries.put key (.table .headed []))
      | some (.table .implied inner) => some (entries.put key (.table .headed inner))
      | some _ => none) path.dropLast .headed root

/-- Adds a table to the array at a path. -/
def growArray (path : List Text) (root : Entries) : Option Entries :=
  match path.getLast? with
  | none => none
  | some key =>
    modifyAt .implied (fun _ entries =>
      match entries.find? key with
      | none => some (entries.put key (.array true [.table .headed []]))
      | some (.array true items) =>
        some (entries.put key (.array true (items ++ [.table .headed []])))
      | some _ => none) path.dropLast .headed root

/-- Adds a value below the table at a path. -/
def assignAt (path parts : List Text) (value : Value) (root : Entries) : Option Entries :=
  modifyAt .implied (assign parts value) path .headed root

end Entries

end StepScope.Toml
