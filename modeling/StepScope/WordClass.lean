import StepScope.PackedText
import StepScope.Word

/-!
What a word is taken for. A slot carries no type, so the kinds are tried in a fixed order: a small
number, a small number below zero, an address, a packed text; what is left stays raw.
-/

namespace StepScope

inductive WordClass
  /-- The high 192 bits are clear. -/
  | unsigned (n : UInt64)
  /-- The high 192 bits are set; the number is in the low 64. -/
  | signed (n : Int64)
  /-- Nothing above the low 160 bits. -/
  | address (a : Address)
  | packed (p : PackedText)
  | raw (w : Word)
  deriving DecidableEq, Repr

namespace WordClass

def ofWord (w : Word) : WordClass :=
  let n := w.toNat
  if n < UInt64.size then .unsigned (UInt64.ofNat n)
  else if Word.size - UInt64.size ≤ n then .signed (UInt64.ofNat n).toInt64
  else if n < Address.size then .address w.toAddress
  else match PackedText.decode? w.toBytes with
    | some p => .packed p
    | none => .raw w

/-- The word that a value stands for. -/
def toWord : WordClass → Word
  | .unsigned n => BitVec.ofNat 256 n.toNat
  | .signed n => BitVec.ofNat 256 (Word.size - UInt64.size + n.toUInt64.toNat)
  | .address a => a.setWidth 256
  | .packed p => Word.ofBytes p.encode
  | .raw w => w

end WordClass

end StepScope
