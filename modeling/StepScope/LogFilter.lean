import StepScope.Text.Alphanumeric
import StepScope.Text.Blank

/-!
The filter of the logs: directives with commas between them. No answer depends on what a filter lets
through, so all that matters is whether it can be read. A directive is gone through without the white
space around it, but its parts are taken, by their places in bytes, from the directive with the white
space. A part that would begin or end inside a character breaks the reading off.
-/

namespace StepScope.LogFilter

/-- What stands behind some bytes, unless that is inside a character. -/
def behind? : (count : Nat) → Text → Option Text
  | 0, s => some s
  | _ + 1, [] => none
  | count + 1, c :: s =>
    if c.utf8Size ≤ count + 1 then behind? (count + 1 - c.utf8Size) s else none

/-- What the first bytes hold, unless they end inside a character. -/
def front? : (count : Nat) → Text → Option Text
  | 0, _ => some []
  | _ + 1, [] => none
  | count + 1, c :: s =>
    if c.utf8Size ≤ count + 1 then (front? (count + 1 - c.utf8Size) s).map (c :: ·) else none

def part? (directive : Text) (first last : Nat) : Option Text :=
  (behind? first directive).bind (front? (last - first))

inductive Verdict
  | accepted
  | refused
  /-- A part begins or ends inside a character. -/
  | broken
  deriving DecidableEq, Repr

/-- What is being read; `first` is the place where it begins. -/
inductive Stage
  | start
  /-- A target from the start on, or a level without one. -/
  | target
  | span (first : Nat)
  | field (first : Nat)
  | fields
  | named
  | level (first : Nat)
  deriving DecidableEq, Repr

/-- Takes a part, and goes on at a stage that may depend on it. -/
def take (part : Option Text) (next : Text → Except Verdict Stage) : Except Verdict Stage :=
  match part with
  | none => .error .broken
  | some t => next t

/-- The stage after a character at a place. The name of a field is not empty, others may be. -/
def Stage.next (directive : Text) (place : Nat) (c : Char) : Stage → Except Verdict Stage
  | .start =>
    if c = '[' then .ok (.span (place + 1))
    else if c = '-' ∨ c = ':' ∨ c = '_' ∨ Text.isAlphanumeric c then .ok .target
    else .error .refused
  | .target =>
    if c = '=' then take (part? directive 0 place) fun _ => .ok (.level (place + 1))
    else if c = '[' then take (part? directive 0 place) fun _ => .ok (.span (place + 1))
    else .ok .target
  | .span first =>
    if c = ']' then take (part? directive first place) fun _ => .ok .named
    else if c = '\x7b' then take (part? directive first place) fun _ => .ok (.field (place + 1))
    else .ok (.span first)
  | .field first =>
    if c = '\x7d' then
      take (part? directive first place) fun t => if t = [] then .error .refused else .ok .fields
    else .ok (.field first)
  | .fields => if c = ']' then .ok .named else .error .refused
  | .named => if c = '=' then .ok (.level (place + 1)) else .error .refused
  | .level first => .ok (.level first)

/-- Levels are numbered and have names, in letters of either case. -/
def levels : List Text := ["off", "error", "warn", "info", "debug", "trace"].map String.toList

/-- A level is given by its name, or by its number, on any number of digits; or it is left out. -/
def isLevel (t : Text) : Bool :=
  let digits := match t with
    | '+' :: t => t
    | t => t
  t = [] || levels.contains (t.map Char.toLower) ||
    (digits ≠ [] && digits.all Char.isDigit &&
      digits.foldl (fun n c => 10 * n + (c.toNat - 48)) 0 < levels.length)

def Stage.verdict (directive : Text) : Stage → Verdict
  | .target => .accepted
  | .named => .accepted
  | .level first =>
    match behind? first directive with
    | none => .broken
    | some t => if isLevel t then .accepted else .refused
  | _ => .refused

def readFrom (directive : Text) : (place : Nat) → Stage → Text → Verdict
  | _, stage, [] => stage.verdict directive
  | place, stage, c :: s =>
    match stage.next directive place c with
    | .error verdict => verdict
    | .ok stage => readFrom directive (place + c.utf8Size) stage s

def read (directive : Text) : Verdict := readFrom directive 0 .start (Text.trim directive)

/-- The directives of a filter. Nothing between two commas is none. -/
def directives (filter : Text) : List Text := (Text.split ',' filter).filter (· ≠ [])

/-- Directives are read up to the first that is refused, and the reading breaks off before that. -/
def breaksBeforeRefusal : List Text → Bool
  | [] => false
  | d :: rest =>
    match read d with
    | .accepted => breaksBeforeRefusal rest
    | .refused => false
    | .broken => true

/-- Reading a filter breaks off. One with a directive that is refused is read no further, since another
filter takes its place. -/
def breaks (filter : Text) : Bool := breaksBeforeRefusal (directives filter)

/-- Reading a filter breaks off if the directives that are refused are merely left out. -/
def breaksAnywhere (filter : Text) : Bool := (directives filter).any fun d => read d = .broken

end StepScope.LogFilter
