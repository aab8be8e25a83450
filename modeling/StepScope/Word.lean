import StepScope.Text.Hex

/-!
Words of 256 bits and addresses of 160 bits, with their big-endian bytes.
-/

namespace StepScope

/-- A stack slot, a storage key or a storage value. -/
abbrev Word := BitVec 256

/-- An account address. -/
abbrev Address := BitVec 160

namespace BigEndian

/-- The last `count` bytes of `n`, the most significant first. -/
def bytes : (count : Nat) → (n : Nat) → Bytes
  | 0, _ => []
  | count + 1, n => UInt8.ofNat (n >>> (8 * count)) :: bytes count n

/-- The number that bytes write, the first being the most significant. -/
def number (bytes : Bytes) : Nat := bytes.foldl (fun n b => 256 * n + b.toNat) 0

@[simp] theorem length_bytes (count n : Nat) : (bytes count n).length = count := by
  induction count with
  | zero => rfl
  | succ count ih => simp only [bytes, List.length_cons, ih]

end BigEndian

namespace Word

/-- The number of words. -/
def size : Nat := 1 <<< 256

def toBytes (w : Word) : Bytes := BigEndian.bytes 32 w.toNat

def ofBytes (bytes : Bytes) : Word := BitVec.ofNat 256 (BigEndian.number bytes)

/-- The address in the low 160 bits. -/
def toAddress (w : Word) : Address := w.setWidth 160

/-- The word as `0x` and its digits without leading zeros. -/
def text (w : Word) : Text := '0' :: 'x' :: Text.hexadecimal w.toNat

end Word

namespace Address

/-- The number of addresses. -/
def size : Nat := 1 <<< 160

def toBytes (a : Address) : Bytes := BigEndian.bytes 20 a.toNat

def ofBytes (bytes : Bytes) : Address := BitVec.ofNat 160 (BigEndian.number bytes)

/-- The address as `0x` and forty digits. -/
def text (a : Address) : Text := '0' :: 'x' :: Hex.ofBytes a.toBytes

/-- The first two and the last two bytes around an ellipsis. -/
def abridged (a : Address) : Text :=
  Hex.ofBytes (a.toBytes.take 2) ++ '…' :: Hex.ofBytes (a.toBytes.drop 18)

/-- Why a text is not an address. -/
inductive Flaw
  /-- There are not exactly forty digits. -/
  | length
  /-- The digits themselves are wrong. -/
  | digits (flaw : Hex.Flaw)
  deriving DecidableEq, Repr

/-- A way of reading addresses. -/
abbrev Reader := Text → Except Flaw Address

/-- Reads forty digits after an optional mark. An odd count is noticed first, then the length, then
the digits. -/
def read (t : Text) : Except Flaw Address :=
  let digits := Text.utf8 (Hex.dropMark t)
  if digits.length % 2 = 1 then .error (.digits .oddCount)
  else if digits.length ≠ 40 then .error .length
  else ((Hex.read digits).map ofBytes).mapError .digits

end Address

end StepScope
