import StepScope.Files
import StepScope.HexInput
import StepScope.Json.Fault

/-!
Why a command does not give an answer. Each cause has one message; some have a closer reason below it. Files
may have been written by the time a report ends a command, so they come with it.
-/

namespace StepScope

inductive Report
  /-- No path is given for the settings, and there is no home folder to look for them. -/
  | noHome
  | unreadableSettings (path : Text)
  | malformedSettings
  | unwritableSettings (path : Text)
  /-- A key of the names is no address. -/
  | invalidName (key : Text) (flaw : Address.Flaw)
  | noCode
  | unreadableCode (path : Text)
  | unreadableSnapshot (path : Text)
  | malformedSnapshot (path : Text) (fault : Json.Fault)
  | invalidInput (e : HexInput.Error)
  /-- There is no place for the logs. -/
  | noLogFolder (obstacle : Files.Obstacle)
  deriving DecidableEq, Repr

namespace Report

/-- What is wrong with the text of an address. -/
def flawMessage : Address.Flaw → Text
  | .length => "invalid string length".toList
  | .digits .oddCount => "odd number of digits".toList
  | .digits (.badDigit byte position) =>
    "invalid character ".toList ++ Text.quoteChar (Char.ofNat byte.toNat) ++ " at position ".toList ++
      Text.decimal position

def obstacleMessage : Files.Obstacle → Text
  | .absent => "No such file or directory (os error 2)".toList
  | .there => "File exists (os error 17)".toList
  | .notFolder => "Not a directory (os error 20)".toList
  | .tooLong => "File name too long (os error 36)".toList
  | .unspeakable => "file name contained an unexpected NUL byte".toList
  | .refused reason => reason

/-- The message of a report. Paths stand in it in quotation marks, keys as they are. -/
def message : Report → Text
  | .noHome => "Unable to determine home directory".toList
  | .unreadableSettings path => "Failed to read config file: ".toList ++ Text.quote path
  | .malformedSettings => "Failed to parse config file as TOML".toList
  | .unwritableSettings path => "Failed to write config file: ".toList ++ Text.quote path
  | .invalidName key _ => "Invalid address in [names]: ".toList ++ key
  | .noCode => "No bytecode given".toList
  | .unreadableCode path => "Failed to read bytecode file: ".toList ++ Text.quote path
  | .unreadableSnapshot path => "Failed to read snapshot file: ".toList ++ Text.quote path
  | .malformedSnapshot path _ => "Failed to parse snapshot file: ".toList ++ Text.quote path
  | .invalidInput e => e.message
  | .noLogFolder obstacle => obstacleMessage obstacle

end Report

/-- A report that ends a command, and the files as they are by then. -/
structure Stopped where
  report : Report
  files : Files
  deriving DecidableEq, Repr

instance : Coe Stopped Report := ⟨Stopped.report⟩

/-- What comes of something that leaves the files alone. -/
def Files.unchanged {α : Type} (files : Files) : Except Report α → Except Stopped (α × Files)
  | .ok a => .ok (a, files)
  | .error report => .error ⟨report, files⟩

end StepScope
