import StepScope.Text

/-!
The instruction set: the mnemonic of every defined opcode byte, and the number of immediate bytes
that an opcode announces.
-/

namespace StepScope.Opcode

/-- Ends the execution; also what is read past the end of the code. -/
def stop : UInt8 := 0x00

def returnData : UInt8 := 0xf3

def selfDestruct : UInt8 := 0xff

/-- The mnemonics outside the numbered families. -/
def named? : Nat → Option String
  | 0x00 => some "STOP"
  | 0x01 => some "ADD"
  | 0x02 => some "MUL"
  | 0x03 => some "SUB"
  | 0x04 => some "DIV"
  | 0x05 => some "SDIV"
  | 0x06 => some "MOD"
  | 0x07 => some "SMOD"
  | 0x08 => some "ADDMOD"
  | 0x09 => some "MULMOD"
  | 0x0a => some "EXP"
  | 0x0b => some "SIGNEXTEND"
  | 0x10 => some "LT"
  | 0x11 => some "GT"
  | 0x12 => some "SLT"
  | 0x13 => some "SGT"
  | 0x14 => some "EQ"
  | 0x15 => some "ISZERO"
  | 0x16 => some "AND"
  | 0x17 => some "OR"
  | 0x18 => some "XOR"
  | 0x19 => some "NOT"
  | 0x1a => some "BYTE"
  | 0x1b => some "SHL"
  | 0x1c => some "SHR"
  | 0x1d => some "SAR"
  | 0x1e => some "CLZ"
  | 0x20 => some "KECCAK256"
  | 0x30 => some "ADDRESS"
  | 0x31 => some "BALANCE"
  | 0x32 => some "ORIGIN"
  | 0x33 => some "CALLER"
  | 0x34 => some "CALLVALUE"
  | 0x35 => some "CALLDATALOAD"
  | 0x36 => some "CALLDATASIZE"
  | 0x37 => some "CALLDATACOPY"
  | 0x38 => some "CODESIZE"
  | 0x39 => some "CODECOPY"
  | 0x3a => some "GASPRICE"
  | 0x3b => some "EXTCODESIZE"
  | 0x3c => some "EXTCODECOPY"
  | 0x3d => some "RETURNDATASIZE"
  | 0x3e => some "RETURNDATACOPY"
  | 0x3f => some "EXTCODEHASH"
  | 0x40 => some "BLOCKHASH"
  | 0x41 => some "COINBASE"
  | 0x42 => some "TIMESTAMP"
  | 0x43 => some "NUMBER"
  | 0x44 => some "DIFFICULTY"
  | 0x45 => some "GASLIMIT"
  | 0x46 => some "CHAINID"
  | 0x47 => some "SELFBALANCE"
  | 0x48 => some "BASEFEE"
  | 0x49 => some "BLOBHASH"
  | 0x4a => some "BLOBBASEFEE"
  | 0x4b => some "SLOTNUM"
  | 0x50 => some "POP"
  | 0x51 => some "MLOAD"
  | 0x52 => some "MSTORE"
  | 0x53 => some "MSTORE8"
  | 0x54 => some "SLOAD"
  | 0x55 => some "SSTORE"
  | 0x56 => some "JUMP"
  | 0x57 => some "JUMPI"
  | 0x58 => some "PC"
  | 0x59 => some "MSIZE"
  | 0x5a => some "GAS"
  | 0x5b => some "JUMPDEST"
  | 0x5c => some "TLOAD"
  | 0x5d => some "TSTORE"
  | 0x5e => some "MCOPY"
  | 0xe6 => some "DUPN"
  | 0xe7 => some "SWAPN"
  | 0xe8 => some "EXCHANGE"
  | 0xf0 => some "CREATE"
  | 0xf1 => some "CALL"
  | 0xf2 => some "CALLCODE"
  | 0xf3 => some "RETURN"
  | 0xf4 => some "DELEGATECALL"
  | 0xf5 => some "CREATE2"
  | 0xfa => some "STATICCALL"
  | 0xfd => some "REVERT"
  | 0xfe => some "INVALID"
  | 0xff => some "SELFDESTRUCT"
  | _ => none

/-- The mnemonic of an opcode byte; none if the byte is not defined. -/
def mnemonic? (opcode : UInt8) : Option Text :=
  let n := opcode.toNat
  if 0x5f ≤ n ∧ n ≤ 0x7f then some ("PUSH".toList ++ Text.decimal (n - 0x5f))
  else if 0x80 ≤ n ∧ n ≤ 0x8f then some ("DUP".toList ++ Text.decimal (n - 0x7f))
  else if 0x90 ≤ n ∧ n ≤ 0x9f then some ("SWAP".toList ++ Text.decimal (n - 0x8f))
  else if 0xa0 ≤ n ∧ n ≤ 0xa4 then some ("LOG".toList ++ Text.decimal (n - 0xa0))
  else (named? n).map String.toList

/-- The opcode byte with a mnemonic. -/
def ofMnemonic? (t : Text) : Option UInt8 :=
  ((List.range 256).map UInt8.ofNat).find? fun opcode => mnemonic? opcode = some t

/-- A name for every byte: the mnemonic, or the byte itself when it is not defined. -/
def name (opcode : UInt8) : Text :=
  (mnemonic? opcode).getD
    ("UNKNOWN(0x".toList ++ (Text.hexadecimal opcode.toNat).leftpad 2 '0' ++ [')'])

/-- The number of immediate bytes of a push opcode; none for every other byte. -/
def pushSize? (opcode : UInt8) : Option Nat :=
  if 0x60 ≤ opcode.toNat ∧ opcode.toNat ≤ 0x7f then some (opcode.toNat - 0x5f) else none

/-- The number of bytes that follow an opcode as its operand. -/
def immediateSize (opcode : UInt8) : Nat := (pushSize? opcode).getD 0

theorem immediateSize_le (opcode : UInt8) : immediateSize opcode ≤ 32 := by
  unfold immediateSize pushSize?
  split
  · simp only [Option.getD_some]
    omega
  · simp only [Option.getD_none, Nat.zero_le]

end StepScope.Opcode
