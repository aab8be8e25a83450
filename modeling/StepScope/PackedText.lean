import StepScope.Text

/-!
Short texts packed into the high bytes of a word, as a contract keeps a symbol or a name, with an
optional counter in the last byte.
-/

namespace StepScope

structure PackedText where
  text : Text
  /-- The last byte of the word; zero when there is no counter. -/
  increment : UInt8
  deriving DecidableEq, Repr

namespace PackedText

/-- The bytes that a packed text may hold. -/
def isCharacter (b : UInt8) : Bool := 0x20 ≤ b.toNat && b.toNat ≤ 0x7f

/-- Reads a packed text. It runs up to the first zero byte; from there on only the last byte may
be other than zero. Without any zero byte the whole word is text. -/
def decode? (bytes : Bytes) : Option PackedText :=
  let text := bytes.takeWhile (· ≠ 0)
  let rest := bytes.dropWhile (· ≠ 0)
  if text = [] then none
  else if rest.dropLast.any (· ≠ 0) then none
  else if !text.all isCharacter then none
  else some { text := text.map fun b => Char.ofNat b.toNat, increment := rest.getLastD 0 }

/-- The word's bytes: the text, zeros, and the counter in the last place unless it is zero. -/
def encode (p : PackedText) : Bytes :=
  let filled := p.text.map (fun c => UInt8.ofNat c.toNat) ++ List.replicate (32 - p.text.length) 0
  if p.increment = 0 then filled else filled.take 31 ++ [p.increment]

end PackedText

end StepScope
