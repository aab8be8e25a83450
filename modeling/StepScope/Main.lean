import StepScope.Run

/-!
The program itself: it takes in what a run looks at, writes what the run adds, and prints what the run
prints.
-/

namespace StepScope

/-- Takes in what stands at a place, with the symbolic links on the way followed. -/
def takePlace (files : Files) (p : Place) : IO Files := do
  if (files.node? p).isSome then return files
  let path := String.ofList (Files.pathOf p)
  match ← (IO.FS.readBinFile path).toBaseIO with
  | .ok bytes => return files.put p (.file bytes.toList)
  | .error _ =>
    match ← (IO.FS.realPath (path ++ "/.")).toBaseIO with
    | .ok _ => return files.put p .folder
    | .error _ => return files

def takePaths (files : Files) (paths : List Text) : IO Files :=
  (paths.flatMap files.along).foldlM takePlace files

def takeVariables (env : Environment) (names : List Text) : IO Environment :=
  names.foldlM (fun env name => do
    match ← IO.getEnv (String.ofList name) with
    | some value => return env.insert name value.toList
    | none => return env) env

/-- The number of the user that a process runs for, from the lines that describe the process. -/
def userOf? (status : Text) : Option Text :=
  ((Text.split '\n' status).map (Text.split '\t')).findSome? fun fields =>
    if fields.head? = some "Uid:".toList then fields[1]? else none

/-- The home folder of a user, from the lines of all accounts. -/
def homeOf? (accounts user : Text) : Option Text :=
  ((Text.split '\n' accounts).map (Text.split ':')).findSome? fun fields =>
    if fields[2]? = some user then fields[5]? else none

def readLines (path : String) : IO Text := do
  match ← (IO.FS.readFile path).toBaseIO with
  | .ok lines => return lines.toList
  | .error _ => return []

def takeHost : IO Host := do
  let user? := userOf? (← readLines "/proc/self/status")
  return { home? := user?.bind (homeOf? (← readLines "/etc/passwd")) }

/-- Writes down a node. -/
def give (place : Place) : Node → IO Unit
  | .folder => IO.FS.createDirAll (String.ofList (Files.pathOf place))
  | .file bytes => IO.FS.writeBinFile (String.ofList (Files.pathOf place)) bytes.toByteArray

/-- Writes down what a run adds, up to the first place that is refused; such a refusal ends the run. -/
def carryOut (files : Files) (host : Host) (run : Host → Run) : IO Run := do
  for (place, node) in ((run host).files.since files).reverse do
    if let .error refusal ← (give place node).toBaseIO then
      let reason := s!"{refusal}".toList
      return run { host with refusals := fun p => if p = place then some reason else host.refusals p }
  return run host

def runHere (args : List Text) : IO UInt32 := do
  let host ← takeHost
  let here := s!"{← IO.currentDir}".toList
  let files : Files := { working := (Text.split '/' here).filter (· ≠ []) }
  let files ← takePaths files (Run.envPaths files)
  let held := (((Run.envPaths files).findSome? files.read?).map DotEnv.names).getD []
  let env ← takeVariables Keyed.empty (Run.watched ++ held)
  let files ← takePaths files (Run.paths ((Run.environment env files).getD env) args host)
  let run ← carryOut files host fun host => Run.ofArguments env files args host
  IO.print (String.ofList run.output)
  if let some report := run.report? then
    IO.eprintln ("Error: " ++ String.ofList report.message)
  return UInt32.ofNat run.code

end StepScope

def main (args : List String) : IO UInt32 := StepScope.runHere (args.map String.toList)
