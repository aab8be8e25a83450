import StepScope.Keyed
import StepScope.Surface
import StepScope.WordClass

/-!
Words as text for one surface, with addresses by name where an address book knows them.
-/

namespace StepScope

/-- Labels of addresses. -/
abbrev AddressBook := Keyed Address Text

/-- Renders words for a surface; without a book no address has a name. -/
structure Renderer where
  surface : Surface
  book : Option AddressBook
  deriving DecidableEq

namespace Renderer

def nameOf? (r : Renderer) (a : Address) : Option Text := r.book.bind (·.get? a)

/-- An address by its label and its abridged form, or in full when it has no label. -/
def address (r : Renderer) (a : Address) : Text :=
  match r.nameOf? a with
  | some label => r.surface.escape label ++ "(0x".toList ++ a.abridged ++ [')']
  | none => a.text

/-- A number with the hexadecimal numeral of its 64 bits. -/
def number (decimal : Text) (bits : UInt64) : Text :=
  ' ' :: decimal ++ " (0x".toList ++ Text.hexadecimal bits.toNat ++ [')']

/-- A packed text in quotation marks, with its counter if there is one. -/
def packed (r : Renderer) (p : PackedText) : Text :=
  '"' :: r.surface.escape p.text ++ '"' ::
    if p.increment = 0 then [] else " + ".toList ++ Text.decimal p.increment.toNat

def value (r : Renderer) : WordClass → Text
  | .unsigned n => number (Text.decimal n.toNat) n
  | .signed n => number (Text.signedDecimal n.toInt) n.toUInt64
  | .address a => r.address a
  | .packed p => r.packed p
  | .raw w => Hex.ofBytes w.toBytes

/-- A word as what it is taken for. -/
def word (r : Renderer) (w : Word) : Text := r.value (WordClass.ofWord w)

/-- The stack, one word a line, the top first. -/
def stack (r : Renderer) (words : List Word) : Text :=
  words.reverse.flatMap fun w => r.word w ++ ['\n']

/-- A slot of the storage. -/
def slot (r : Renderer) (e : Word × Word) : Text := '@' :: r.word e.1 ++ r.surface.gap ++ r.word e.2

/-- Slots that come in any order, one after the other in ascending order of their keys. -/
def sortedSlots (r : Renderer) (order : List (Word × Word)) : Text :=
  (order.mergeSort fun e f => e.1.toNat ≤ f.1.toNat).flatMap r.slot

def storage (r : Renderer) (slots : Keyed Word Word) : Text := r.sortedSlots slots.entries

/-- The entries of a table are sorted as they are. -/
theorem storage_eq (r : Renderer) (slots : Keyed Word Word) :
    r.storage slots = slots.entries.flatMap r.slot := by
  have hsorted : slots.entries.Pairwise fun e f => decide (e.1.toNat ≤ f.1.toNat) = true :=
    slots.ascending.imp fun h => decide_eq_true (Nat.le_of_lt (of_decide_eq_true h))
  rw [storage, sortedSlots, List.mergeSort_of_pairwise hsorted]

/-- A summary for a log: the surface, and whether there is a book. -/
def summary (r : Renderer) : Text :=
  "ValueRenderer \x7b surface: ".toList ++
    (match r.surface with
      | .plain => "Plain".toList
      | .html => "Html".toList) ++
    ", names: ".toList ++
    (match r.book with
      | none => "None".toList
      | some _ => "Some(\"<address book>\")".toList) ++
    " \x7d".toList

end Renderer

end StepScope
