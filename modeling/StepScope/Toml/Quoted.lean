import StepScope.Text.Hex
import StepScope.Toml.Layout

/-!
The strings of TOML. They are basic, with escapes, or literal, without; each kind is written on one
line between single delimiters or over several lines between triple ones.
-/

namespace StepScope.Toml

/-- Reads `count` hexadecimal digits after those that wrote `n`. -/
def readCode : (count : Nat) → (n : Nat) → Text → Option (Nat × Text)
  | 0, n, s => some (n, s)
  | _ + 1, _, [] => none
  | count + 1, n, c :: s =>
    match Hex.digit? c.toNat with
    | some d => readCode count (16 * n + d) s
    | none => none

/-- The character with a code of `count` digits; surrogates and codes out of range have none. -/
def readCodePoint (count : Nat) (s : Text) : Option (Char × Text) :=
  match readCode count 0 s with
  | some (n, rest) => if n.isValidChar then some (Char.ofNat n, rest) else none
  | none => none

def escaped? (c : Char) : Option Char :=
  if c = '"' ∨ c = '\\' then some c
  else if c = 'b' then some '\x08'
  else if c = 't' then some '\t'
  else if c = 'n' then some '\n'
  else if c = 'f' then some '\x0c'
  else if c = 'r' then some '\r'
  else if c = 'e' then some '\x1b'
  else none

def readEscape : Text → Option (Char × Text)
  | [] => none
  | c :: s =>
    match escaped? c with
    | some x => some (x, s)
    | none =>
      if c = 'x' then readCodePoint 2 s
      else if c = 'u' then readCodePoint 4 s
      else if c = 'U' then readCodePoint 8 s
      else none

theorem length_readCode {count n : Nat} {s : Text} {m : Nat} {rest : Text}
    (h : readCode count n s = some (m, rest)) : rest.length ≤ s.length := by
  induction count generalizing n s with
  | zero =>
    cases h
    exact Nat.le_refl _
  | succ count ih =>
    cases s with
    | nil => cases h
    | cons c s =>
      simp only [readCode] at h
      split at h
      · exact Nat.le_succ_of_le (ih h)
      · cases h

theorem length_readCodePoint {count : Nat} {s : Text} {c : Char} {rest : Text}
    (h : readCodePoint count s = some (c, rest)) : rest.length ≤ s.length := by
  unfold readCodePoint at h
  split at h
  · rename_i hc
    split at h
    · simp only [Option.some.injEq, Prod.mk.injEq] at h
      exact h.2 ▸ length_readCode hc
    · cases h
  · cases h

theorem length_readEscape {s : Text} {c : Char} {rest : Text}
    (h : readEscape s = some (c, rest)) : rest.length < s.length := by
  unfold readEscape at h
  split at h
  · cases h
  · split at h
    · cases h
      exact Nat.lt_succ_self _
    · split at h
      · exact Nat.lt_succ_of_le (length_readCodePoint h)
      · split at h
        · exact Nat.lt_succ_of_le (length_readCodePoint h)
        · split at h
          · exact Nat.lt_succ_of_le (length_readCodePoint h)
          · cases h

theorem length_skipLines (s : Text) : (skipLines s).length ≤ s.length := by
  induction s with
  | nil => exact Nat.le_refl _
  | cons c s ih =>
    unfold skipLines
    split
    · exact Nat.le_succ_of_le ih
    · split
      · split
        · exact Nat.le_succ_of_le ih
        · exact Nat.le_refl _
      · exact Nat.le_refl _

def readBasic (s : Text) : Option (Text × Text) :=
  match s with
  | [] => none
  | c :: s =>
    if c = '"' then some ([], s)
    else if c = '\\' then
      match h : readEscape s with
      | none => none
      | some (x, rest) =>
        have := length_readEscape h
        (readBasic rest).map fun (t, rest) => (x :: t, rest)
    else if isPlain c then (readBasic s).map fun (t, rest) => (c :: t, rest)
    else none
termination_by s.length
decreasing_by all_goals simp only [List.length_cons]; omega

def readLiteral : Text → Option (Text × Text)
  | [] => none
  | c :: s =>
    if c = '\'' then some ([], s)
    else if isPlain c then (readLiteral s).map fun (t, rest) => (c :: t, rest)
    else none

/-- The end of a string between triple delimiters. Up to two more of them in front of the last
three belong to the string. -/
def readTriple? (mark : Char) : Text → Option (Text × Text)
  | a :: b :: c :: rest =>
    if a = mark ∧ b = mark ∧ c = mark then
      let more := (rest.take 2).takeWhile (· = mark)
      some (more, rest.drop more.length)
    else none
  | _ => none

/-- A line break after the opening delimiter does not count. -/
def dropBreak : Text → Text
  | '\n' :: rest => rest
  | '\r' :: '\n' :: rest => rest
  | s => s

/-- The rest of a basic string over several lines. A backslash at the end of a line takes the
breaks and spaces after it away. -/
def readBasicLines (s : Text) : Option (Text × Text) :=
  match readTriple? '"' s with
  | some found => some found
  | none =>
    match s with
    | [] => none
    | c :: s =>
      if c = '\\' then
        match skipSpace s with
        | '\n' :: _ =>
          have := length_skipLines s
          readBasicLines (skipLines s)
        | '\r' :: '\n' :: _ =>
          have := length_skipLines s
          readBasicLines (skipLines s)
        | _ =>
          match h : readEscape s with
          | none => none
          | some (x, rest) =>
            have := length_readEscape h
            (readBasicLines rest).map fun (t, rest) => (x :: t, rest)
      else if c = '\r' then
        match s with
        | '\n' :: rest => (readBasicLines rest).map fun (t, rest) => ('\r' :: '\n' :: t, rest)
        | _ => none
      else if isPlain c ∨ c = '\n' then (readBasicLines s).map fun (t, rest) => (c :: t, rest)
      else none
termination_by s.length
decreasing_by all_goals simp only [List.length_cons]; omega

def readLiteralLines (s : Text) : Option (Text × Text) :=
  match readTriple? '\'' s with
  | some found => some found
  | none =>
    match s with
    | [] => none
    | '\r' :: '\n' :: rest =>
      (readLiteralLines rest).map fun (t, rest) => ('\r' :: '\n' :: t, rest)
    | c :: rest =>
      if isPlain c ∨ c = '\n' then (readLiteralLines rest).map fun (t, rest) => (c :: t, rest)
      else none
termination_by s.length
decreasing_by all_goals simp only [List.length_cons]; omega

def readLine? : Text → Option (Text × Text)
  | '"' :: rest => readBasic rest
  | '\'' :: rest => readLiteral rest
  | _ => none

def readQuoted? : Text → Option (Text × Text)
  | '"' :: '"' :: '"' :: rest => readBasicLines (dropBreak rest)
  | '\'' :: '\'' :: '\'' :: rest => readLiteralLines (dropBreak rest)
  | s => readLine? s

/-! Writing takes the first kind, of a fixed order, that does without escapes, a tab's aside. -/

/-- The characters that no string holds as they are, a line break excepted. -/
def isControl (c : Char) : Bool := c ≠ '\n' && c ≠ '\t' && (c.toNat < 0x20 || c.toNat = 0x7f)

/-- A character for which another kind of string is preferred to a basic one. -/
def isAwkward (c : Char) : Bool := isControl c || c = '\\'

/-- A character that basic strings write by its escape, even if they run over several lines. -/
def needsEscape (c : Char) : Bool := isAwkward c || c = '\t'

/-- No three marks in a row, after `run` of them. -/
def fewInRow (mark : Char) : (run : Nat) → Text → Bool
  | _, [] => true
  | run, c :: s => if c = mark then run < 2 && fewInRow mark (run + 1) s else fewInRow mark 0 s

def escape (c : Char) : Text :=
  if c = '\x08' then ['\\', 'b']
  else if c = '\t' then ['\\', 't']
  else if c = '\n' then ['\\', 'n']
  else if c = '\x0c' then ['\\', 'f']
  else if c = '\r' then ['\\', 'r']
  else if c = '"' ∨ c = '\\' then ['\\', c]
  else '\\' :: 'u' :: ((Text.hexadecimal c.toNat).map Char.toUpper).leftpad 4 '0'

def basic (t : Text) : Text :=
  '"' :: (t.flatMap fun c => if needsEscape c ∨ c = '"' ∨ c = '\n' then escape c else [c]) ++ ['"']

/-- The inside of a basic string over several lines, after `run` quotation marks in a row: a third one
is escaped. -/
def basicLines : (run : Nat) → Text → Text
  | _, [] => []
  | run, c :: s =>
    if c = '"' then
      if run < 2 then c :: basicLines (run + 1) s else escape c ++ basicLines 0 s
    else if needsEscape c then escape c ++ basicLines 0 s
    else c :: basicLines 0 s

/-- A text between triple delimiters; one of several lines starts on a line of its own. -/
def tripled (mark : Char) (t inside : Text) : Text :=
  [mark, mark, mark] ++ (if '\n' ∈ t then ['\n'] else []) ++ inside ++ [mark, mark, mark]

def suitsBasic (t : Text) : Bool := !t.any fun c => isAwkward c || c = '"' || c = '\n'

def suitsLiteral (t : Text) : Bool := !t.any fun c => isControl c || c = '\'' || c = '\n'

def quoted (t : Text) : Text :=
  if suitsBasic t then basic t
  else if suitsLiteral t then '\'' :: t ++ ['\'']
  else if !t.any isAwkward && fewInRow '"' 0 t then tripled '"' t (basicLines 0 t)
  else if !t.any isControl && fewInRow '\'' 0 t then tripled '\'' t t
  else if '\n' ∈ t then tripled '"' t (basicLines 0 t)
  else basic t

def isBare (c : Char) : Bool := c.isAlphanum || c = '_' || c = '-'

def quotedKey (t : Text) : Text :=
  if t ≠ [] ∧ t.all isBare then t
  else if suitsBasic t then basic t
  else if suitsLiteral t then '\'' :: t ++ ['\'']
  else basic t

end StepScope.Toml
