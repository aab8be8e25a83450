import StepScope.Listing
import StepScope.Settings.Stored
import StepScope.Snapshot.Reader
import StepScope.View

/-!
The commands: list a program, render a word, show a snapshot, show the settings. Each answers with the
text it prints.
-/

namespace StepScope.Command

/-- Where a program is given. -/
inductive Source
  | inline (code : Text)
  | file (path : Text)
  deriving DecidableEq, Repr

/-- The text of a program. -/
def sourceText (files : Files) : Source → Except Report Text
  | .inline code => .ok code
  | .file path =>
    match files.readText? path with
    | some t => .ok t
    | none => .error (.unreadableCode path)

/-- Lists a program, one instruction a line. -/
def list (files : Files) (source : Option Source) : Except Report Text :=
  match source with
  | none => .error .noCode
  | some source => do
    let code ← (HexInput.bytes (← sourceText files source)).mapError .invalidInput
    return (Listing.ofCode code).text

/-- Renders a word. -/
def value (r : Renderer) (t : Text) : Except Report Text := do
  let w ← (HexInput.word t).mapError .invalidInput
  return r.word w ++ ['\n']

/-- Shows the snapshot in a file. -/
def snapshot (r : Renderer) (files : Files) (path : Text) : Except Report Text :=
  match files.readText? path with
  | none => .error (.unreadableSnapshot path)
  | some t =>
    match Snapshot.ofJson t with
    | .error fault => .error (.malformedSnapshot path fault)
    | .ok x => .ok (View.text { snapshot := x, renderer := r })

/-- The settings under the path they belong to. -/
def settingsText (s : Settings) (path : Text) : Text :=
  '#' :: ' ' :: path ++ '\n' :: s.toToml

/-- Shows the settings; with `create` they are written to their path first if nothing is there. -/
def settings (s : Settings) (files : Files) (path : Text) (create : Bool)
    (refusals : Refusals := Refusals.none) : Except Stopped (Text × Files) := do
  let files ← if create ∧ !files.contains path then s.save files path refusals else .ok files
  return (settingsText s path, files)

end StepScope.Command
