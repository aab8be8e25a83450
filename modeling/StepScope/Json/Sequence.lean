import StepScope.Json.Token

/-!
Walking through an open array or object: where the next item or key stands, and where the bracket
closes. A comma belongs between two items and nowhere else.
-/

namespace StepScope.Json

inductive Item
  /-- Nothing: the text goes on after the closing bracket. -/
  | close (rest : Text)
  /-- A value at the front of the text. -/
  | value (rest : Text)
  deriving DecidableEq, Repr

/-- Finds the next item; `first` says that none came before. -/
def nextItem (first : Bool) (s : Text) : Except Fault Item :=
  match skipBlank s with
  | [] => .error .truncated
  | c :: rest =>
    if c = ']' then .ok (.close rest)
    else if first then .ok (.value (c :: rest))
    else if c = ',' then
      match skipBlank rest with
      | [] => .error .truncated
      | c :: rest => if c = ']' then .error .malformed else .ok (.value (c :: rest))
    else .error .malformed

def closeArray (s : Text) : Except Fault Text :=
  match skipBlank s with
  | [] => .error .truncated
  | c :: rest => if c = ']' then .ok rest else .error .malformed

/-- Reads the items of an open array to its closing bracket. `limit` is above their number. -/
def readItems (item : Reader α) : (limit : Nat) → (first : Bool) → Reader (List α)
  | 0, _, _ => .error .malformed
  | limit + 1, first, s => do
    match ← nextItem first s with
    | .close rest => .ok ([], rest)
    | .value s =>
      let (a, s) ← item s
      let (items, rest) ← readItems item limit false s
      .ok (a :: items, rest)

inductive Member
  /-- Nothing: the text goes on after the closing bracket. -/
  | close (rest : Text)
  /-- A key, which the colon and the value follow. -/
  | key (name : Text) (rest : Text)
  deriving DecidableEq, Repr

/-- Reads a key after its opening quotation mark has been looked for. -/
def readKey : Text → Except Fault Member
  | [] => .error .truncated
  | c :: s =>
    if c = '"' then (readText s).map fun (name, rest) => .key name rest else .error .malformed

/-- Finds and reads the next key; `first` says that no member came before. -/
def nextMember (first : Bool) (s : Text) : Except Fault Member :=
  match skipBlank s with
  | [] => .error .truncated
  | c :: rest =>
    if c = '\x7d' then .ok (.close rest)
    else if first then readKey (c :: rest)
    else if c = ',' then readKey (skipBlank rest)
    else .error .malformed

/-- The colon between a key and its value. -/
def readColon (s : Text) : Except Fault Text :=
  match skipBlank s with
  | [] => .error .truncated
  | c :: rest => if c = ':' then .ok rest else .error .malformed

/-- Reads the members of an open object to its closing bracket: first what the key means, then the
value. `limit` is above their number. -/
def readMembers (key : Text → Except Fault κ) (item : Reader α) :
    (limit : Nat) → (first : Bool) → Reader (List (κ × α))
  | 0, _, _ => .error .malformed
  | limit + 1, first, s => do
    match ← nextMember first s with
    | .close rest => .ok ([], rest)
    | .key name s =>
      let k ← key name
      let s ← readColon s
      let (a, s) ← item s
      let (members, rest) ← readMembers key item limit false s
      .ok ((k, a) :: members, rest)

/-- Nothing but blanks may follow the value of a text. -/
def readEnd (s : Text) : Except Fault Unit :=
  if skipBlank s = [] then .ok () else .error .malformed

end StepScope.Json
