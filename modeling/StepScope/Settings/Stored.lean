import StepScope.Report
import StepScope.Settings

/-!
Settings in a file. The file that is used when no other is named stands in the home folder, and need
not exist.
-/

namespace StepScope.Settings

/-- The path of the file that is used when no other is named. -/
def defaultPath (home : Text) : Text := Files.join home ".edb-inspect.toml".toList

/-- Reads the settings in a file. -/
def load (files : Files) (path : Text) : Except Report Settings :=
  match files.readText? path with
  | none => .error (.unreadableSettings path)
  | some t =>
    match ofToml? t with
    | none => .error .malformedSettings
    | some s => .ok s

/-- Reads the settings in a file, or takes the defaults if there is none. -/
def loadIfAny (files : Files) (path : Text) : Except Report Settings :=
  if files.contains path then load files path else .ok {}

/-- Writes the settings into a file. -/
def save (s : Settings) (files : Files) (path : Text) (refusals : Refusals := Refusals.none) :
    Except Stopped Files :=
  match files.write? path (Text.utf8 s.toToml) refusals with
  | some files => .ok files
  | none => .error ⟨.unwritableSettings path, files⟩

end StepScope.Settings
