import StepScope.Listing

/-!
The way back from a listing to the code. A line says at which position an instruction starts and which
bytes it consists of; the closing `STOP` stands for no byte.
-/

namespace StepScope

/-- Reads the operand of a line, if there is one. -/
def Entry.operand? : Text → Option Bytes
  | [] => some []
  | ' ' :: '0' :: 'x' :: digits => (Hex.read (Text.utf8 digits)).toOption
  | _ => none

/-- Reads a line back as its position and its bytes. -/
def Entry.read? (t : Text) : Option (Nat × Bytes) := do
  let (digits, rest) := t.span (· ≠ ' ')
  let offset ← Hex.number? digits
  let ' ' :: ' ' :: rest := rest | none
  let (mnemonic, rest) := rest.span (· ≠ ' ')
  let opcode ← Opcode.ofMnemonic? mnemonic
  let operand ← operand? rest
  some (offset, opcode :: operand)

namespace Listing

/-- The code that the lines of a listing stand for. -/
def assemble? (l : Listing) : Option Bytes :=
  ((l.entries.filter fun e => e.size ≠ 0).mapM fun e => (Entry.read? e.text).map (·.2)).map
    List.flatten

/-- The number of bytes that the lines stand for. -/
def covered (l : Listing) : Nat := l.entries.foldr (fun e n => e.size + n) 0

end Listing

end StepScope
