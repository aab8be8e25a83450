import StepScope.Json.Token

/-!
Passing over a value that nobody asked for. Its brackets and commas have to be right, but numbers may
have any size, strings may hold halves of pairs, and nesting has no limit.
-/

namespace StepScope.Json

/-- Passes over what follows a backslash. -/
def skipEscape : Text → Except Fault Text
  | [] => .error .truncated
  | c :: s =>
    if (escaped? c).isSome then .ok s
    else if c = 'u' then (readUnit s).map (·.2)
    else .error .malformed

theorem length_skipEscape {s rest : Text} (h : skipEscape s = .ok rest) :
    rest.length < s.length := by
  unfold skipEscape at h
  split at h
  · cases h
  · split at h
    · cases h
      exact Nat.lt_succ_self _
    · split at h
      · rename_i s' _ _
        cases hu : readUnit s' with
        | error f => simp [hu, Except.map] at h
        | ok found =>
          simp only [hu, Except.map, Except.ok.injEq] at h
          subst h
          exact Nat.lt_succ_of_lt (length_readUnit hu)
      · cases h

/-- Passes over the rest of a string, after its opening quotation mark. -/
def skipText (s : Text) : Except Fault Text :=
  match s with
  | [] => .error .truncated
  | c :: s =>
    if c = '"' then .ok s
    else if c = '\\' then
      match h : skipEscape s with
      | .error f => .error f
      | .ok rest =>
        have := length_skipEscape h
        skipText rest
    else if c.toNat < 0x20 then .error .malformed
    else skipText s
termination_by s.length
decreasing_by all_goals simp only [List.length_cons]; omega

/-- Passes over a number; one that the text cuts short is no number. -/
def skipNumber (s : Text) : Except Fault Text :=
  match readLiteral s with
  | .ok (_, rest) => .ok rest
  | .error _ => .error .malformed

/-- The brackets that a value in progress has open, the innermost first. -/
inductive Bracket
  | array
  | object
  deriving DecidableEq, Repr

def Bracket.closing : Bracket → Char
  | .array => ']'
  | .object => '\x7d'

/-- Passes over the key of a member and its colon. -/
def skipKey (s : Text) : Except Fault Text := do
  match skipBlank s with
  | [] => .error .truncated
  | c :: s =>
    if c = '"' then
      let s ← skipText s
      match skipBlank s with
      | [] => .error .truncated
      | c :: s => if c = ':' then .ok s else .error .malformed
    else .error .malformed

/-- Goes to the value of the next item inside a bracket. -/
def skipToValue : Bracket → Text → Except Fault Text
  | .array, s => .ok s
  | .object, s => skipKey s

/-- A place in a value in progress. -/
inductive Place
  /-- Before a value. -/
  | value
  /-- Right after an opening bracket. -/
  | opened
  /-- After a value. -/
  | after
  deriving DecidableEq, Repr

/-- Passes over what is left of a value. `limit` is above twice the length of the text. -/
def skip : (limit : Nat) → Place → List Bracket → Text → Except Fault Text
  | 0, _, _, _ => .error .malformed
  | _ + 1, .after, [], s => .ok s
  | limit + 1, .after, bracket :: outer, s =>
    match skipBlank s with
    | [] => .error .truncated
    | c :: rest =>
      if c = bracket.closing then skip limit .after outer rest
      else if c = ',' then do
        let rest ← skipToValue bracket rest
        skip limit .value (bracket :: outer) rest
      else .error .malformed
  | _ + 1, .opened, [], s => .ok s
  | limit + 1, .opened, bracket :: outer, s =>
    match skipBlank s with
    | [] => .error .truncated
    | c :: rest =>
      if c = bracket.closing then skip limit .after outer rest
      else do
        let rest ← skipToValue bracket (c :: rest)
        skip limit .value (bracket :: outer) rest
  | limit + 1, .value, outer, s =>
    match skipBlank s with
    | [] => .error .truncated
    | '[' :: rest => skip limit .opened (.array :: outer) rest
    | '\x7b' :: rest => skip limit .opened (.object :: outer) rest
    | '"' :: rest => do skip limit .after outer (← skipText rest)
    | 'n' :: rest => do skip limit .after outer (← readLetters "ull".toList rest)
    | 't' :: rest => do skip limit .after outer (← readLetters "rue".toList rest)
    | 'f' :: rest => do skip limit .after outer (← readLetters "alse".toList rest)
    | c :: rest => do
      if c = '-' ∨ c.isDigit then skip limit .after outer (← skipNumber (c :: rest))
      else .error .malformed

/-- Passes over the value at the front of a text; `limit` is above the length of the text. -/
def skipValue (limit : Nat) (s : Text) : Except Fault Text := skip (2 * limit) .value [] s

end StepScope.Json
