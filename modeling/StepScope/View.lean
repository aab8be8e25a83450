import StepScope.Outcome
import StepScope.Renderer

/-!
What a debugger shows of one step: a header line and six panels.
-/

namespace StepScope

/-- A snapshot as one renderer shows it. -/
structure View where
  snapshot : Snapshot
  renderer : Renderer

namespace View

/-- The status line of the step. -/
def header (v : View) : Text :=
  let x := v.snapshot
  " STEP: ".toList ++ Text.decimal x.steps.toNat ++
    "  |  PC: 0x".toList ++ Text.hexadecimal x.pc.toNat ++
    "  :  ".toList ++ Opcode.name x.instruction ++
    "  |  ADDMEM: ".toList ++ Text.decimal x.newMemSize.toNat ++
    " words  |  COST: ".toList ++ Text.decimal x.gasCost.toNat ++
    "  |  GAS: ".toList ++ Text.decimal x.gas.toNat

def stack (v : View) : Text := v.renderer.stack v.snapshot.stack

def storage (v : View) : Text := v.renderer.storage v.snapshot.storage

def memory (v : View) : Text := HexDump.text v.snapshot.memory

def callData (v : View) : Text := HexDump.text v.snapshot.callData

/-- The frames, the current one first and the outermost caller last. A caller is shown by its
address; the instruction and the position beside it are those of the current step. -/
def levels (v : View) : List Text :=
  let x := v.snapshot
  x.address.abridged :: x.levels.reverse.map fun caller =>
    caller.address.abridged ++ ' ' :: Opcode.name x.instruction ++ " @0x".toList ++
      Text.hexadecimal x.pc.toNat

def outcome (v : View) : Outcome := Outcome.ofSnapshot v.snapshot

/-- A text with a line break at its end, added if there is none. -/
def closed (body : Text) : Text := if body.getLast? = some '\n' then body else body ++ ['\n']

/-- A panel under its title. -/
def panel (title : String) (body : Text) : Text :=
  '[' :: title.toList ++ "]\n".toList ++ closed body

/-- The header and all panels. -/
def text (v : View) : Text :=
  v.header ++ ['\n'] ++
    panel "stack" v.stack ++
    panel "storage" v.storage ++
    panel "memory" v.memory ++
    panel "call data" v.callData ++
    panel "levels" (v.levels.intersperse ['\n']).flatten ++
    panel "outcome" v.outcome.text

end View

end StepScope
