import StepScope.Text

/-!
Files and folders, and the folder that a program works in. A path starts at the working folder or, with
a slash in front, at the root; it is followed part by part as it is written, so every folder on the
way has to be there. Names and paths have a greatest length. Making something at a good place may still be
refused, and then all stays as it was.
-/

namespace StepScope

/-- A place below the root: the names on the way to it. -/
abbrev Place := List Text

inductive Node
  | folder
  | file (bytes : Bytes)
  deriving DecidableEq, Repr

structure Files where
  working : Place := []
  nodes : List (Place × Node) := []
  deriving DecidableEq, Repr

/-- Why nothing can be made at a place, for places where that is so although a path leads there: for want of
a right, or of room. -/
abbrev Refusals := Place → Option Text

def Refusals.none : Refusals := fun _ => Option.none

namespace Files

/-- Why a path leads nowhere, or nothing can be made there. -/
inductive Obstacle
  /-- A folder on the way is not there. -/
  | absent
  /-- Something is there already. -/
  | there
  /-- A file stands where a folder on the way would be. -/
  | notFolder
  /-- A name, or the path as a whole, is too long. -/
  | tooLong
  /-- The path has a null character in it. -/
  | unspeakable
  /-- The place is good, and it is refused. -/
  | refused (reason : Text)
  deriving DecidableEq, Repr

/-- What stands at a place. The working folder and those above it are always there. -/
def node? (f : Files) (p : Place) : Option Node :=
  if p <+: f.working then some .folder else (f.nodes.find? fun e => e.1 = p).map (·.2)

def isFolder (f : Files) (p : Place) : Bool := f.node? p = some .folder

/-- Puts a node at a place, whatever was there. -/
def put (f : Files) (p : Place) (node : Node) : Files :=
  { f with nodes := (p, node) :: f.nodes.filter fun e => e.1 ≠ p }

def maxName : Nat := 255

def maxPath : Nat := 4095

def start (f : Files) (path : Text) : Except Obstacle Place :=
  if '\x00' ∈ path then .error .unspeakable
  else if (Text.utf8 path).length > maxPath then .error .tooLong
  else
    match path with
    | [] => .error .absent
    | c :: _ => .ok (if c = '/' then [] else f.working)

/-- A part of a path that leads no further. -/
def isStill (part : Text) : Bool := part = [] || part = ['.']

/-- The place one part further, as far as the names go. -/
def step (p : Place) (part : Text) : Place :=
  if isStill part then p
  else if part = ['.', '.'] then p.dropLast
  else p ++ [part]

/-- Goes one part further. Only folders can be gone through. -/
def enter (f : Files) (p : Place) (part : Text) : Except Obstacle Place :=
  match f.node? p with
  | none => .error .absent
  | some (.file _) => .error .notFolder
  | some .folder =>
    if (Text.utf8 part).length > maxName then .error .tooLong else .ok (step p part)

/-- The place that a path means; there may be nothing so far. -/
def place (f : Files) (path : Text) : Except Obstacle Place := do
  let p ← f.start path
  (Text.split '/' path).foldlM f.enter p

def find? (f : Files) (path : Text) : Option Node := (f.place path).toOption.bind f.node?

def contains (f : Files) (path : Text) : Bool := (f.find? path).isSome

def read? (f : Files) (path : Text) : Option Bytes :=
  match f.find? path with
  | some (.file bytes) => some bytes
  | _ => none

def readText? (f : Files) (path : Text) : Option Text := (f.read? path).bind Text.ofUtf8?

/-- Writes a file, in a folder that is there, over the file of that name if there is one. -/
def write? (f : Files) (path : Text) (bytes : Bytes) (refusals : Refusals := Refusals.none) : Option Files :=
  match f.place path with
  | .ok p => if f.isFolder p || (refusals p).isSome then none else some (f.put p (.file bytes))
  | .error _ => none

/-- Makes the folder at a path, which ends in a name, in one that is there. -/
def makeOne (f : Files) (path : Text) (refusals : Refusals := Refusals.none) : Except Obstacle Files := do
  let p ← f.place path
  if (f.node? p).isSome then .error .there
  else
    match refusals p with
    | some reason => .error (.refused reason)
    | none => .ok (f.put p .folder)

/-- The paths that lead to the folders above a path and to itself, the longest first. Each of them ends
in a name; a point at the very start counts as one. -/
def upward (path : Text) : List Text :=
  let parts := Text.split '/' path
  let ends (n : Nat) : Bool := (parts[n]?).any fun part => !isStill part || (n = 0 && part ≠ [])
  ((List.range parts.length).filter ends).reverse.map fun n =>
    ['/'].intercalate (parts.take (n + 1))

/-- What is left of an attempt to make the folder at a path: one that is there already is as good. -/
def settle (f : Files) (path : Text) : Except Obstacle Files → Files × Option Obstacle
  | .ok f => (f, none)
  | .error .there => (f, if f.find? path = some .folder then none else some .there)
  | .error obstacle => (f, some obstacle)

/-- Makes the folder at the first path; where the one above it is missing, those at the other paths come
before it. The files after that, and what has stood in the way. -/
def makeAll (f : Files) (paths : List Text) (refusals : Refusals := Refusals.none) : Files × Option Obstacle :=
  match paths with
  | [] => (f, none)
  | path :: above =>
    match f.makeOne path refusals with
    | .error .absent =>
      match f.makeAll above refusals with
      | (f, none) => f.settle path (f.makeOne path refusals)
      | stopped => stopped
    | made => f.settle path made

/-- Makes the folder at a path and those above it. Those that are made stay if another one cannot be. -/
def makeFolder (f : Files) (path : Text) (refusals : Refusals := Refusals.none) : Files × Option Obstacle :=
  f.makeAll (upward path) refusals

def join (path name : Text) : Text :=
  if path = [] ∨ path.getLast? = some '/' then path ++ name else path ++ '/' :: name

/-- Writes a file after the folders above it are made. -/
def provide? (f : Files) (path : Text) (bytes : Bytes) : Option Files :=
  match f.makeAll (upward (['/'].intercalate (Text.split '/' path).dropLast)) with
  | (f, none) => f.write? path bytes
  | (_, some _) => none

/-- The nodes that are not those of other files. -/
def since (f earlier : Files) : List (Place × Node) :=
  f.nodes.filter fun e => earlier.node? e.1 ≠ some e.2

/-- The places that the parts of a path lead through. -/
def along (f : Files) (path : Text) : List Place :=
  match f.start path with
  | .ok p =>
    (Text.split '/' path).foldl (fun places part => places ++ [step (places.getLast?.getD p) part]) []
  | .error _ => []

def pathOf (p : Place) : Text := p.flatMap fun name => '/' :: name

/-- The working folder and those above it, the nearest first. -/
def ancestors (f : Files) : List Place :=
  (List.range (f.working.length + 1)).map fun n => f.working.take (f.working.length - n)

end Files

end StepScope
