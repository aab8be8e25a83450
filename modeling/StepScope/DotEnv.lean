import StepScope.Keyed
import StepScope.Text.Alphanumeric
import StepScope.Text.Blank

/-!
Variables in a file. A line assigns one of them; quotation marks let a value go on over several lines,
and `$` brings in what is set already. Variables that are set keep their values, and nothing counts
from the first line on that is wrong.
-/

namespace StepScope

abbrev Environment := Keyed Text Text

namespace DotEnv

/-- The lines of a file, each with its line break. -/
def rawLines : Bytes → List Bytes
  | [] => []
  | b :: rest =>
    if b = 10 then [b] :: rawLines rest
    else
      match rawLines rest with
      | [] => [[b]]
      | line :: lines => (b :: line) :: lines

/-- Where the search for the end of an assignment is. -/
inductive Scan
  | plain
  | escaped
  | blank
  | weak
  | weakEscaped
  | strong
  | strongEscaped
  | comment
  deriving DecidableEq, Repr

/-- The search after a character that no state of its own takes. -/
def Scan.ofChar (c : Char) : Scan :=
  if c = '\\' then .escaped
  else if c = '"' then .weak
  else if c = '\'' then .strong
  else .plain

/-- The search after one more character. White space has to stand before a comment. -/
def Scan.next (c : Char) : Scan → Scan
  | .plain => if Text.isBlank c ∧ c ≠ '\n' ∧ c ≠ '\r' then .blank else Scan.ofChar c
  | .blank => if c = '#' then .comment else Scan.ofChar c
  | .escaped => .plain
  | .weak => if c = '\\' then .weakEscaped else if c = '"' then .plain else .weak
  | .weakEscaped => .weak
  | .strong => if c = '\\' then .strongEscaped else if c = '\'' then .plain else .strong
  | .strongEscaped => .strong
  | .comment => .comment

/-- Searches a line up to a comment; what stands before that, and where the search is then. -/
def scanLine : Scan → Text → Text × Scan
  | state, [] => ([], state)
  | state, c :: s =>
    match state.next c with
    | .comment => ([], .comment)
    | next =>
      let (kept, final) := scanLine next s
      (c :: kept, final)

def dropBreak (t : Text) : Text :=
  match t.reverse with
  | '\n' :: '\r' :: rest => rest.reverse
  | '\n' :: rest => rest.reverse
  | _ => t

/-- An assignment may take several lines: those without a line that ends it are wrong, as are those
that are no text. `held` are the lines before that belong to it. -/
def statements (state : Scan) (held : Text) : List Bytes → List (Option Text)
  | [] => if state = .plain then [] else [none]
  | line :: lines =>
    match Text.ofUtf8? line with
    | none => [none]
    | some line =>
      if (Text.trimStart (held ++ line)).head? = some '#' then some [] :: statements .plain [] lines
      else
        match scanLine state line with
        | (kept, .comment) => some (held ++ kept) :: statements .plain [] lines
        | (_, .plain) => some (dropBreak (held ++ line)) :: statements .plain [] lines
        | (_, state) => statements state (held ++ line) lines

/-- How a character of a value is read. -/
inductive Mode
  | bare
  | weak
  | strong
  | escaped (weak : Bool)
  | name (weak : Bool) (name : Text)
  /-- In the name of a variable in braces. -/
  | braced (weak : Bool) (name : Text)
  /-- After the end, where only a comment may follow. -/
  | ended
  deriving DecidableEq, Repr

def Mode.within (weak : Bool) : Mode := if weak then .weak else .bare

/-- The value of a variable, empty if it is not set. Variables are kept as their names and values with
equals signs between them, so a name may go on into the value up to an equals sign there. -/
def valueOf (env : Environment) (name : Text) : Text :=
  let (key, more) := name.span (· ≠ '=')
  let value := (env.get? key).getD []
  match more with
  | [] => value
  | _ :: more => if (more ++ ['=']).isPrefixOf value then value.drop (more.length + 1) else []

def unescape? (c : Char) : Option Char :=
  if c = '\\' ∨ c = '\'' ∨ c = '"' ∨ c = '$' ∨ c = ' ' then some c
  else if c = 'n' then some '\n'
  else none

/-- Reads a value. The name of a variable consists of letters and digits; whatever ends it, a
quotation mark too, is taken as it is. -/
def readValue (env : Environment) : Mode → Text → Option Text
  | .bare, [] => some []
  | .weak, [] => none
  | .strong, [] => none
  | .escaped weak, [] => if weak then none else some []
  | .name weak name, [] => if weak then none else some (valueOf env name)
  | .braced _ _, [] => none
  | .ended, [] => some []
  | .bare, c :: s =>
    if c = '$' then readValue env (.name false []) s
    else if c = '\'' then readValue env .strong s
    else if c = '"' then readValue env .weak s
    else if c = '\\' then readValue env (.escaped false) s
    else if c = ' ' ∨ c = '\t' then readValue env .ended s
    else (readValue env .bare s).map (c :: ·)
  | .weak, c :: s =>
    if c = '$' then readValue env (.name true []) s
    else if c = '"' then readValue env .bare s
    else if c = '\\' then readValue env (.escaped true) s
    else (readValue env .weak s).map (c :: ·)
  | .strong, c :: s =>
    if c = '\'' then readValue env .bare s else (readValue env .strong s).map (c :: ·)
  | .escaped weak, c :: s =>
    match unescape? c with
    | some x => (readValue env (.within weak) s).map (x :: ·)
    | none => none
  | .name weak name, c :: s =>
    if Text.isAlphanumeric c then readValue env (.name weak (name ++ [c])) s
    else if c = '\x7b' ∧ name = [] then readValue env (.braced weak []) s
    else if c = '$' then (readValue env (.name weak []) s).map (valueOf env name ++ ·)
    else (readValue env (.within weak) s).map fun t => valueOf env name ++ c :: t
  | .braced weak name, c :: s =>
    if c = '\x7d' then (readValue env (.within weak) s).map (valueOf env name ++ ·)
    else readValue env (.braced weak (name ++ [c])) s
  | .ended, c :: s =>
    if c = ' ' ∨ c = '\t' then readValue env .ended s
    else if c = '#' then some []
    else none

def isKey (c : Char) : Bool := c.isAlphanum || c = '_' || c = '.'

def readKey (s : Text) : Option (Text × Text) :=
  match s with
  | [] => none
  | c :: _ => if c.isAlpha ∨ c = '_' then some (s.span isKey) else none

/-- Reads the name in front of an equals sign. The word `export` may stand before it. -/
def readTarget (s : Text) : Option (Text × Text) := do
  let (key, s) ← readKey s
  match Text.trimStart s with
  | '=' :: s => some (key, s)
  | s =>
    if key = "export".toList then
      let (key, s) ← readKey s
      let '=' :: s := Text.trimStart s | none
      some (key, s)
    else none

/-- What an assignment says; an empty line and a comment say nothing. -/
inductive Line
  | nothing
  | assignment (key value : Text)
  | wrong
  deriving DecidableEq, Repr

def Line.ofText (env : Environment) (t : Text) : Line :=
  let s := Text.trim t
  if s = [] ∨ s.head? = some '#' then .nothing
  else
    match readTarget s with
    | none => .wrong
    | some (key, s) =>
      let s := Text.trimStart s
      if s = [] ∨ s.head? = some '#' then .assignment key []
      else
        match readValue env .bare s with
        | some value => .assignment key value
        | none => .wrong

/-- Sets variables that are not set yet, up to the first statement that is wrong. No variable can be set
to a value with a null character; there is no environment after that. -/
def apply (env : Environment) : List (Option Text) → Option Environment
  | [] => some env
  | none :: _ => some env
  | some t :: rest =>
    match Line.ofText env t with
    | .nothing => apply env rest
    | .assignment key value =>
      if (env.get? key).isSome then apply env rest
      else if '\x00' ∈ value then none
      else apply (env.insert key value) rest
    | .wrong => some env

/-- The bytes that may stand at the start of a file and do not count. -/
def dropMark : Bytes → Bytes
  | 0xef :: 0xbb :: 0xbf :: rest => rest
  | bytes => bytes

/-- The names behind the marks that bring a variable in. -/
def mentioned : Text → List Text
  | [] => []
  | c :: s =>
    if c ≠ '$' then mentioned s
    else
      match s with
      | '\x7b' :: name => name.takeWhile (fun c => c ≠ '\x7d' && c ≠ '=') :: mentioned s
      | name => name.takeWhile Text.isAlphanumeric :: mentioned s

/-- The names of all variables that count in reading a file: those in it, and those that are assigned. -/
def names (bytes : Bytes) : List Text :=
  let t := ((rawLines bytes).filterMap Text.ofUtf8?).flatten
  mentioned t ++ (Text.split '=' t).map fun part =>
    ((Text.trimEnd part).reverse.takeWhile isKey).reverse

/-- Sets the variables of a file that are not set yet. -/
def load (env : Environment) (bytes : Bytes) : Option Environment :=
  apply env (statements .plain [] (rawLines (dropMark bytes)))

end DotEnv

end StepScope
