import StepScope.CommandLine
import StepScope.DotEnv
import StepScope.LogFilter
import StepScope.Settings.AddressBook

/-!
A run of the program: from its arguments, its environment, the files of its working folder and what the
machine gives and refuses to the text it prints, its exit code and the files it leaves.
-/

namespace StepScope

inductive Ended
  | answered (text : Text)
  | reported (report : Report)
  | misused
  | explained
  /-- A variable could not be set, or the logs could not be set up. -/
  | aborted
  deriving DecidableEq

structure Run where
  ended : Ended
  files : Files
  deriving DecidableEq

/-- What a run finds on its machine besides the variables and the files. -/
structure Host where
  /-- The home folder of the account, if it has one. -/
  home? : Option Text := none
  refusals : Refusals := Refusals.none

namespace Run

open CommandLine (Action Request)

def version : Text := "edb-inspect 0.0.2\n".toList

def code (r : Run) : Nat :=
  match r.ended with
  | .answered _ => 0
  | .reported _ => 1
  | .misused => 2
  | .explained => 0
  | .aborted => 101

def output (r : Run) : Text :=
  match r.ended with
  | .answered t => t
  | _ => []

def report? (r : Run) : Option Report :=
  match r.ended with
  | .reported report => some report
  | _ => none

/-- The files in which variables may be set for the program: in the working folder and those above. -/
def envPaths (files : Files) : List Text :=
  files.ancestors.map fun p => Files.pathOf (p ++ [".env".toList])

/-- The variables as the program sees them, with those of the nearest file that sets some. -/
def environment (env : Environment) (files : Files) : Option Environment :=
  match (envPaths files).findSome? files.read? with
  | some bytes => DotEnv.load env bytes
  | none => some env

/-- The home folder; that of the account stands in for one that is not set, or empty. -/
def home? (env : Environment) (host : Host) : Option Text :=
  match env.get? "HOME".toList with
  | none => host.home?
  | some [] => host.home?
  | some folder => some folder

def logFolder (env : Environment) : Text :=
  Files.join ((env.get? "TMPDIR".toList).getD "/tmp".toList) "edb-inspect-logs/edb-inspect".toList

/-- The file of the logs has a name that ends in a date, and a path that may be too long. -/
def opensLog (env : Environment) : Bool :=
  let name := "edb-inspect.log.YYYY-MM-DD".toList
  (Text.utf8 (Files.join (logFolder env) name)).length ≤ Files.maxPath

def logFilter (env : Environment) : Text := (env.get? "RUST_LOG".toList).getD []

/-- The file of the settings that a request uses: the one that is named, or the one in the home
folder. -/
def settingsPath (env : Environment) (request : Request) (host : Host) : Except Report Text :=
  match request.config, home? env host with
  | some path, _ => .ok path
  | none, some folder => .ok (Settings.defaultPath folder)
  | none, none => .error .noHome

/-- What all commands start from. -/
structure Prepared where
  /-- The path of the settings, which need not lead anywhere. -/
  path : Text
  settings : Settings
  renderer : Renderer

/-- Reads the settings of a request, the defaults standing in for a file that is not there, and makes the
renderer from them. -/
def prepare (env : Environment) (files : Files) (request : Request) (host : Host) :
    Except Report Prepared := do
  let path ← settingsPath env request host
  let settings ← Settings.loadIfAny files path
  let renderer ← settings.renderer request.html
  return { path, settings, renderer }

/-- Carries out a command. -/
def command (files : Files) (p : Prepared) (action : Action) (host : Host) : Except Stopped (Text × Files) :=
  match action with
  | .list source => files.unchanged (Command.list files (some source))
  | .value word => files.unchanged (Command.value p.renderer word)
  | .snapshot path => files.unchanged (Command.snapshot p.renderer files path)
  | .settings create => Command.settings p.settings files p.path create host.refusals

/-- Carries out the command of a request, whatever its command needs being read first. -/
def act (env : Environment) (files : Files) (request : Request) (host : Host) :
    Except Stopped (Text × Files) := do
  let (p, files) ← files.unchanged (prepare env files request host)
  command files p request.action host

def perform (env : Environment) (files : Files) (request : Request) (host : Host) : Run :=
  match act env files request host with
  | .error stopped => ⟨.reported stopped.report, stopped.files⟩
  | .ok (text, files) => ⟨.answered text, files⟩

/-- Carries out a request, after the logs are set up: their filter is read and, if they are kept in a
file, the folder of that is made and the filter is read once more, with what is wrong in it passed
over. -/
def ofRequest (env : Environment) (files : Files) (request : Request) (host : Host) : Run :=
  if LogFilter.breaks (logFilter env) then ⟨.aborted, files⟩
  else if request.logFile then
    match files.makeFolder (logFolder env) host.refusals with
    | (files, some obstacle) => ⟨.reported (.noLogFolder obstacle), files⟩
    | (files, none) =>
      if opensLog env && !LogFilter.breaksAnywhere (logFilter env) then perform env files request host
      else ⟨.aborted, files⟩
  else perform env files request host

/-- The paths that a run with these arguments may look at. -/
def paths (env : Environment) (args : List Text) (host : Host) : List Text :=
  ((home? env host).map Settings.defaultPath).toList ++ logFolder env ::
    (env.get? "EDB_INSPECT_CONFIG".toList).toList ++ args ++
    args.map fun arg => (arg.dropWhile (· ≠ '=')).drop 1

/-- The variables that a run looks at by name. -/
def watched : List Text :=
  ["HOME".toList, "TMPDIR".toList, "EDB_INSPECT_CONFIG".toList, "RUST_LOG".toList]

/-- Runs the program with the variables as it sees them. -/
def withEnvironment (env : Environment) (files : Files) (args : List Text) (host : Host) : Run :=
  match CommandLine.read (env.get? "EDB_INSPECT_CONFIG".toList) args with
  | .error .misuse => ⟨.misused, files⟩
  | .error .version => ⟨.answered version, files⟩
  | .error .help => ⟨.explained, files⟩
  | .ok request => ofRequest env files request host

def ofArguments (env : Environment) (files : Files) (args : List Text) (host : Host := {}) : Run :=
  match environment env files with
  | some env => withEnvironment env files args host
  | none => ⟨.aborted, files⟩

end Run

end StepScope
