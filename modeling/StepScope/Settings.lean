import StepScope.Keyed
import StepScope.Surface
import StepScope.Toml.Document

/-!
Settings: the surface that values are rendered for and the names of known addresses. They are kept
as TOML, in the tables `display` and `names`.
-/

namespace StepScope

structure Settings where
  surface : Surface := .plain
  /-- Labels by address, as it is spelled in the settings. -/
  names : Keyed Text Text := Keyed.empty
  deriving DecidableEq

namespace Settings

open Toml (Value Entries)

/-- The settings as TOML, the names in the order of their keys. -/
def toToml (s : Settings) : Text :=
  "[display]\nsurface = ".toList ++ Toml.quoted s.surface.name ++ "\n\n[names]\n".toList ++
    s.names.entries.flatMap fun (key, label) =>
      Toml.quotedKey key ++ " = ".toList ++ Toml.quoted label ++ ['\n']

/-- A surface by its name, which may also be the only key of a table with nothing in it. -/
def surfaceOf? : Value → Option Surface
  | .text t => Surface.ofName? t
  | .table _ [(name, .table _ [])] => Surface.ofName? name
  | .table _ [(name, .array _ [])] => Surface.ofName? name
  | _ => none

/-- Keys without a meaning are passed over, but the numbers under them have to have values. -/
def passesOver (known : List Text) (entries : Entries) : Bool :=
  entries.all fun (key, value) => known.contains key || value.isSound

/-- The surface of the display settings. They may also be the array of their values, of which only the
first is looked at, and a moment counts as a table without any of them. -/
def displayOf? : Value → Option Surface
  | .table _ entries =>
    if passesOver ["surface".toList] entries then
      (Entries.find? entries "surface".toList).elim (some .plain) surfaceOf?
    else none
  | .array _ [] => some .plain
  | .array _ (v :: _) => surfaceOf? v
  | .moment _ => some .plain
  | _ => none

def labelOf? : Text × Value → Option (Text × Text)
  | (key, .text label) => some (key, label)
  | _ => none

/-- The names. A moment counts as a table of one entry, under the key reserved for moments. -/
def namesOf? : Value → Option (Keyed Text Text)
  | .table _ entries => (entries.mapM labelOf?).map Keyed.ofList
  | .moment m => some (Keyed.ofList [("$__toml_private_datetime".toList, m.text)])
  | _ => none

/-- Reads settings from TOML. What is not written has its default. -/
def ofToml? (t : Text) : Option Settings := do
  let entries ← Toml.read t
  if passesOver ["display".toList, "names".toList] entries then
    let surface ← (entries.find? "display".toList).elim (some .plain) displayOf?
    let names ← (entries.find? "names".toList).elim (some Keyed.empty) namesOf?
    some { surface, names }
  else none

def setName (s : Settings) (key label : Text) : Settings := { s with names := s.names.insert key label }

def removeName (s : Settings) (key : Text) : Settings := { s with names := s.names.erase key }

end Settings

end StepScope
