import StepScope.Json.Number
import StepScope.Text.Hex

/-!
The front of a JSON value: a scalar as a whole, or the bracket that opens an array or an object.
-/

namespace StepScope.Json

def hexDigit? (c : Char) : Option Nat := Hex.digit? c.toNat

/-- The four digits of a code unit. Four bytes have to be there before any is looked at. -/
def readUnit : Reader Nat
  | a :: b :: c :: d :: rest =>
    match hexDigit? a, hexDigit? b, hexDigit? c, hexDigit? d with
    | some a, some b, some c, some d => .ok (((a * 16 + b) * 16 + c) * 16 + d, rest)
    | _, _, _, _ => .error .malformed
  | s => if (Text.utf8 s).length < 4 then .error .truncated else .error .malformed

/-- The second half of a pair of code units, after its first half `high`. -/
def readLowHalf (high : Nat) : Reader Char
  | [] | ['\\'] => .error .truncated
  | '\\' :: 'u' :: s => do
    let (low, rest) ← readUnit s
    if 0xdc00 ≤ low ∧ low ≤ 0xdfff then
      .ok (Char.ofNat (0x10000 + (high - 0xd800) * 0x400 + (low - 0xdc00)), rest)
    else .error .malformed
  | _ => .error .malformed

/-- The character of a `\u` escape: a code unit, or two that form a pair. -/
def readCode (s : Text) : Except Fault (Char × Text) := do
  let (unit, rest) ← readUnit s
  if 0xdc00 ≤ unit ∧ unit ≤ 0xdfff then .error .malformed
  else if 0xd800 ≤ unit ∧ unit ≤ 0xdbff then readLowHalf unit rest
  else .ok (Char.ofNat unit, rest)

/-- The character that stands for itself or for a control after a backslash. -/
def escaped? (c : Char) : Option Char :=
  if c = '"' ∨ c = '\\' ∨ c = '/' then some c
  else if c = 'b' then some '\x08'
  else if c = 'f' then some '\x0c'
  else if c = 'n' then some '\n'
  else if c = 'r' then some '\r'
  else if c = 't' then some '\t'
  else none

def readEscape : Reader Char
  | [] => .error .truncated
  | c :: s =>
    match escaped? c with
    | some x => .ok (x, s)
    | none => if c = 'u' then readCode s else .error .malformed

theorem length_readUnit {s rest : Text} {n : Nat} (h : readUnit s = .ok (n, rest)) :
    rest.length < s.length := by
  unfold readUnit at h
  split at h
  · split at h
    · cases h
      simp only [List.length_cons]
      omega
    · cases h
  · split at h <;> cases h

theorem length_readLowHalf {high : Nat} {s rest : Text} {c : Char}
    (h : readLowHalf high s = .ok (c, rest)) : rest.length < s.length := by
  unfold readLowHalf at h
  split at h
  · cases h
  · cases h
  · rename_i s'
    match hu : readUnit s' with
    | .error f => simp [hu, bind, Except.bind] at h
    | .ok (n, s'') =>
      simp only [hu, bind, Except.bind] at h
      have := length_readUnit hu
      split at h
      · simp only [Except.ok.injEq, Prod.mk.injEq] at h
        obtain ⟨_, rfl⟩ := h
        simp only [List.length_cons]
        omega
      · cases h
  · cases h

theorem length_readCode {s rest : Text} {c : Char} (h : readCode s = .ok (c, rest)) :
    rest.length < s.length := by
  unfold readCode at h
  match hu : readUnit s with
  | .error f => simp [hu, bind, Except.bind] at h
  | .ok (n, s') =>
    have hp := length_readUnit hu
    simp only [hu, bind, Except.bind] at h
    split at h
    · cases h
    · split at h
      · exact Nat.lt_trans (length_readLowHalf h) hp
      · simp only [Except.ok.injEq, Prod.mk.injEq] at h
        exact h.2 ▸ hp

theorem length_readEscape {s rest : Text} {c : Char} (h : readEscape s = .ok (c, rest)) :
    rest.length < s.length := by
  unfold readEscape at h
  split at h
  · cases h
  · split at h
    · cases h
      exact Nat.lt_succ_self _
    · split at h
      · exact Nat.lt_succ_of_lt (length_readCode h)
      · cases h

/-- The rest of a string, after its opening quotation mark. -/
def readText (s : Text) : Except Fault (Text × Text) :=
  match s with
  | [] => .error .truncated
  | c :: s =>
    if c = '"' then .ok ([], s)
    else if c = '\\' then
      match h : readEscape s with
      | .error f => .error f
      | .ok (x, rest) =>
        have := length_readEscape h
        (readText rest).map fun (t, rest) => (x :: t, rest)
    else if c.toNat < 0x20 then .error .malformed
    else (readText s).map fun (t, rest) => (c :: t, rest)
termination_by s.length
decreasing_by all_goals simp only [List.length_cons]; omega

inductive Token
  | null
  | flag (b : Bool)
  /-- A whole number from zero to the greatest of 64 bits. -/
  | natural (n : Nat)
  /-- Any other number. -/
  | number
  | text (t : Text)
  | openArray
  | openObject
  deriving DecidableEq, Repr

/-- A number counts unless no float can hold it. -/
def readNumber (s : Text) : Except Fault (Token × Text) := do
  let (literal, rest) ← readLiteral s
  match literal.natural? with
  | some n => .ok (.natural n, rest)
  | none => if literal.tooLarge then .error .malformed else .ok (.number, rest)

/-- Reads a scalar, or the opening bracket of an array or an object. -/
def readToken (s : Text) : Except Fault (Token × Text) :=
  match skipBlank s with
  | [] => .error .truncated
  | '"' :: rest => (readText rest).map fun (t, rest) => (.text t, rest)
  | '[' :: rest => .ok (.openArray, rest)
  | '\x7b' :: rest => .ok (.openObject, rest)
  | 'n' :: rest => (readLetters "ull".toList rest).map fun rest => (.null, rest)
  | 't' :: rest => (readLetters "rue".toList rest).map fun rest => (.flag true, rest)
  | 'f' :: rest => (readLetters "alse".toList rest).map fun rest => (.flag false, rest)
  | c :: rest => if c = '-' ∨ c.isDigit then readNumber (c :: rest) else .error .malformed

end StepScope.Json
