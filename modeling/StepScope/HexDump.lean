import StepScope.Text.Hex

/-!
Hex dumps: sixteen bytes a row, each row headed by its offset.
-/

namespace StepScope.HexDump

/-- Bytes per row. -/
def width : Nat := 16

/-- A row: the offset, then every byte, each followed by a space. -/
def row (offset : Nat) (bytes : Bytes) : Text :=
  Text.offset offset ++ ' ' :: (bytes.flatMap fun b => Hex.ofByte b ++ [' ']) ++ ['\n']

/-- The rows of `bytes`, the first of which has the given offset. -/
def rows (offset : Nat) (bytes : Bytes) : List Text :=
  match bytes with
  | [] => []
  | b :: rest =>
    row offset ((b :: rest).take width) :: rows (offset + width) ((b :: rest).drop width)
termination_by bytes.length
decreasing_by simp only [width, List.length_drop, List.length_cons]; omega

/-- The dump of a buffer; an empty buffer has no row. -/
def text (bytes : Bytes) : Text := (rows 0 bytes).flatten

/-- Reads the bytes of a row, each followed by a space. -/
def readGroups? : Text → Option Bytes
  | [] => some []
  | high :: low :: ' ' :: rest =>
    match Hex.digit? high.toNat, Hex.digit? low.toNat with
    | some h, some l => (readGroups? rest).map (UInt8.ofNat (16 * h + l) :: ·)
    | _, _ => none
  | _ => none

/-- Reads the bytes of a row, past its offset. -/
def readRow? (t : Text) : Option Bytes := readGroups? ((t.dropWhile (· ≠ ' ')).drop 1)

/-- Reads the buffer back from its dump. -/
def read? (t : Text) : Option Bytes :=
  ((Text.split '\n' t).dropLast.mapM readRow?).map List.flatten

end StepScope.HexDump
