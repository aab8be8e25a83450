import StepScope.Command

/-!
The command line: options that stand before or after the name of a command, the name, and what the
command needs. It is read from left to right, and the first thing that is wrong ends the reading, as a
question for the version or for help does.
-/

namespace StepScope.CommandLine

inductive Verb
  | disasm
  | value
  | snapshot
  | config
  deriving DecidableEq, Repr

/-- Options without a value. Only `verbose` may be repeated. -/
inductive Flag
  | html
  | logFile
  | verbose
  | create
  deriving DecidableEq, Repr

/-- Options with a value, which is a path. -/
inductive Setting
  | config
  | file
  deriving DecidableEq, Repr

inductive Switch
  | flag (f : Flag)
  | setting (s : Setting)
  | help
  | version
  deriving DecidableEq, Repr

/-- Why the reading ends early. -/
inductive Ending
  | misuse
  | version
  | help
  deriving DecidableEq, Repr

/-- What is given before the name of a command, or after it. -/
structure Given where
  config : Option Text := none
  file : Option Text := none
  flags : List Flag := []
  operand : Option Text := none
  /-- The last option is wrong, which counts only after the command that follows is read. -/
  late : Bool := false
  deriving DecidableEq, Repr

def verbOf? (t : Text) : Option Verb :=
  if t = "disasm".toList then some .disasm
  else if t = "value".toList then some .value
  else if t = "snapshot".toList then some .snapshot
  else if t = "config".toList then some .config
  else none

/-- The option of a long name, before a command is named or after. -/
def long? (verb : Option Verb) (name : Text) : Option Switch :=
  if name = "config".toList then some (.setting .config)
  else if name = "html".toList then some (.flag .html)
  else if name = "log-file".toList then some (.flag .logFile)
  else if name = "verbose".toList then some (.flag .verbose)
  else if name = "help".toList then some .help
  else if name = "version".toList ∧ verb = none then some .version
  else if name = "file".toList ∧ verb = some .disasm then some (.setting .file)
  else if name = "init".toList ∧ verb = some .config then some (.flag .create)
  else none

def short? (verb : Option Verb) (letter : Char) : Option Switch :=
  if letter = 'v' then some (.flag .verbose)
  else if letter = 'h' then some .help
  else if letter = 'V' ∧ verb = none then some .version
  else none

/-- An argument that can only be an option. A dash alone is none. -/
def isOption (t : Text) : Bool := t.head? = some '-' && t ≠ ['-']

namespace Given

def addFlag (g : Given) (f : Flag) : Except Ending Given :=
  if f ≠ .verbose ∧ f ∈ g.flags then .error .misuse else .ok { g with flags := f :: g.flags }

/-- A path is given once, and it is not empty. -/
def addSetting (g : Given) (s : Setting) (path : Text) : Except Ending Given :=
  match s with
  | .config => if path = [] ∨ g.config ≠ none then .error .misuse else .ok { g with config := some path }
  | .file => if path = [] ∨ g.file ≠ none then .error .misuse else .ok { g with file := some path }

def addSwitch (g : Given) : Switch → Except Ending Given
  | .flag f => g.addFlag f
  | .setting _ => .error .misuse
  | .help => .error .help
  | .version => .error .version

def addLetters (verb : Option Verb) : Given → Text → Except Ending Given
  | g, [] => .ok g
  | g, letter :: letters =>
    match short? verb letter with
    | none => .error .misuse
    | some s => do addLetters verb (← g.addSwitch s) letters

/-- Takes the one argument of a command. A path is not empty. -/
def addOperand (verb : Option Verb) (g : Given) (t : Text) : Except Ending Given :=
  match verb with
  | none => .error .misuse
  | some .config => .error .misuse
  | some v =>
    if g.operand ≠ none ∨ (v = .snapshot ∧ t = []) then .error .misuse
    else .ok { g with operand := some t }

def addOperands (verb : Option Verb) : Given → List Text → Except Ending Given
  | g, [] => .ok g
  | g, t :: rest => do addOperands verb (← g.addOperand verb t) rest

end Given

/-- The name of a command, or the word that asks for help, is next. -/
def isNamed (args : List Text) : Bool :=
  args.head?.any fun arg => (verbOf? arg).isSome || arg = "help".toList

/-- Reads arguments up to the name of a command, if none is named yet, or up to the end. -/
def readLevel (verb : Option Verb) : Given → List Text → Except Ending (Given × List Text)
  | g, [] => .ok (g, [])
  | g, arg :: args =>
    if verb = none ∧ isNamed (arg :: args) then .ok (g, arg :: args)
    else
      match arg with
      | ['-', '-'] => (g.addOperands verb args).map fun g => (g, [])
      | '-' :: '-' :: option =>
        let (name, attached) := option.span (· ≠ '=')
        match long? verb name, attached, args with
        | none, _, _ => .error .misuse
        | some (.setting s), _ :: path, args => do readLevel verb (← g.addSetting s path) args
        | some (.setting _), [], [] => .error .misuse
        | some (.setting s), [], path :: args =>
          if isOption path then .error .misuse
          else
            match g.addSetting s path with
            | .ok g => readLevel verb g args
            | .error e =>
              if verb = none ∧ isNamed args then .ok ({ g with late := true }, args) else .error e
        | some _, _ :: _, _ => .error .misuse
        | some s, [], args => do readLevel verb (← g.addSwitch s) args
      | '-' :: letter :: letters => do
        readLevel verb (← g.addLetters verb (letter :: letters)) args
      | _ => do readLevel verb (← g.addOperand verb arg) args

inductive Action
  | list (source : Command.Source)
  | value (word : Text)
  | snapshot (path : Text)
  | settings (create : Bool)
  deriving DecidableEq, Repr

structure Request where
  /-- The file of the settings, if one is named. -/
  config : Option Text
  html : Bool
  logFile : Bool
  action : Action
  deriving DecidableEq, Repr

/-- The command with what is given after its name. A program is listed from one source only. -/
def action? (verb : Verb) (g : Given) : Option Action :=
  match verb, g.operand, g.file with
  | .disasm, some code, none => some (.list (.inline code))
  | .disasm, none, some path => some (.list (.file path))
  | .disasm, _, _ => none
  | .value, some word, _ => some (.value word)
  | .value, none, _ => none
  | .snapshot, some path, _ => some (.snapshot path)
  | .snapshot, none, _ => none
  | .config, _, _ => some (.settings (.create ∈ g.flags))

/-- The file of the settings: named after the command, before it, or else by the environment, where
an empty name is wrong as soon as it would count on either side. -/
def config? (outer inner fallback : Option Text) : Except Ending (Option Text) :=
  if fallback = some [] ∧ (outer = none ∨ inner = none) then .error .misuse
  else .ok ((inner <|> outer) <|> fallback)

/-- What a question for help is about is known, or the arguments are wrong. -/
def helpOn : List Text → Ending
  | [] => .help
  | [topic] => if (verbOf? topic).isSome ∨ topic = "help".toList then .help else .misuse
  | _ => .misuse

/-- Reads a command line; `fallback` is the file of the settings that the environment names. -/
def read (fallback : Option Text) (args : List Text) : Except Ending Request := do
  let (outer, rest) ← readLevel none {} args
  match rest with
  | [] => .error .misuse
  | name :: args =>
    match verbOf? name with
    | none => .error (helpOn args)
    | some verb =>
      let (inner, _) ← readLevel (some verb) {} args
      let config ← config? outer.config inner.config fallback
      match outer.late, action? verb inner with
      | true, _ => .error .misuse
      | false, none => .error .misuse
      | false, some action =>
        let flags := outer.flags ++ inner.flags
        .ok { config, html := .html ∈ flags, logFile := .logFile ∈ flags, action }

end StepScope.CommandLine
