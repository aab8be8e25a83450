import StepScope.Proofs.Rendering

/-!
The numbers that words are taken for. A number without a sign is the word itself. A signed number is the
word in two's complement from `2 ^ 256 - 2 ^ 63` on; the words of the band below, whose high bits are set
as well, are taken for numbers that are not below zero, and none of these is what the word denotes.
-/

namespace StepScope

namespace WordClass

/-- The value is the number that the word denotes, if it is a number: the word itself, or what the word
is in two's complement, below zero. -/
def IsNumberOf (w : Word) : WordClass → Prop
  | .unsigned n => w.toNat = n.toNat
  | .signed n => n.toInt < 0 ∧ (w.toNat : Int) = 2 ^ 256 + n.toInt
  | _ => True

instance (w : Word) : (v : WordClass) → Decidable (IsNumberOf w v)
  | .unsigned n => inferInstanceAs (Decidable (w.toNat = n.toNat))
  | .signed n => inferInstanceAs (Decidable (n.toInt < 0 ∧ (w.toNat : Int) = 2 ^ 256 + n.toInt))
  | .address _ | .packed _ | .raw _ => inferInstanceAs (Decidable True)

/-- The words with their high 192 bits set and the sign bit of the low 64 clear. -/
def InBand (w : Word) : Prop := 2 ^ 256 - 2 ^ 64 ≤ w.toNat ∧ w.toNat < 2 ^ 256 - 2 ^ 63

instance : DecidablePred InBand := fun w =>
  inferInstanceAs (Decidable (2 ^ 256 - 2 ^ 64 ≤ w.toNat ∧ w.toNat < 2 ^ 256 - 2 ^ 63))

variable {w : Word}

theorem Classified.isNumberOf_iff {v : WordClass} (h : Classified w v) : IsNumberOf w v ↔ ¬ InBand w := by
  rw [InBand]
  cases h with
  | @unsigned n hn =>
    have hlt := n.toNat_lt
    exact iff_of_true hn (by omega)
  | @signed n hn =>
    have hlt := n.toUInt64.toNat_lt
    rw [IsNumberOf, toInt_eq]
    split <;> omega
  | address _ hhigh => exact iff_of_true trivial (by omega)
  | packed _ hhigh _ => exact iff_of_true trivial (by omega)
  | raw _ hhigh _ => exact iff_of_true trivial (by omega)

/-- In the band a word is taken for the number that its low bits are without a sign. -/
theorem ofWord_of_inBand (h : InBand w) :
    ∃ n : Int64, ofWord w = .signed n ∧ (w.toNat : Int) = 2 ^ 256 - 2 ^ 64 + n.toInt ∧ 0 ≤ n.toInt := by
  obtain ⟨hlow, hhigh⟩ := h
  have hclassified := ofWord_classified w
  generalize ofWord w = v at hclassified ⊢
  cases hclassified with
  | @unsigned n hn =>
    have hlt := n.toNat_lt
    omega
  | @signed n hn =>
    refine ⟨n, rfl, ?_⟩
    rw [toInt_eq]
    split <;> omega
  | address _ haddress => omega
  | packed _ hnumber _ => omega
  | raw _ hnumber _ => omega

/-- Below zero the number that a word denotes is the word in two's complement. -/
theorem IsNumberOf.toInt_eq {n : Int64} (h : IsNumberOf w (.signed n)) : n.toInt = w.toInt := by
  obtain ⟨hneg, hword⟩ := h
  have hn := WordClass.toInt_eq n
  rw [BitVec.toInt_eq_toNat_cond]
  split <;> omega

end WordClass

namespace Renderer

open WordClass (ofWord IsNumberOf InBand)

/-- The number that is shown for a word is the one that the word denotes, without a sign or in two's
complement, exactly if the word is not in the band. -/
theorem number_shown (r : Renderer) (w : Word) :
    (IsNumberOf w (ofWord w) ↔ ¬ InBand w) ∧
      (∀ n, ofWord w = .unsigned n → r.word w = number (Text.decimal w.toNat) n) ∧
      (∀ n, ofWord w = .signed n → ¬ InBand w →
        r.word w = number (Text.signedDecimal w.toInt) n.toUInt64) ∧
      (InBand w → ∃ n : Int64, ofWord w = .signed n ∧
        (w.toNat : Int) = 2 ^ 256 - 2 ^ 64 + n.toInt ∧ 0 ≤ n.toInt) := by
  have hnumber := (WordClass.ofWord_classified w).isNumberOf_iff
  refine ⟨hnumber, fun n hn => ?_, fun n hn hband => ?_, WordClass.ofWord_of_inBand⟩
  · cases WordClass.ofWord_eq_iff.1 hn with
    | unsigned hword => rw [word, hn, value, hword]
  · have hdenotes := hnumber.2 hband
    rw [hn] at hdenotes
    rw [word, hn, value, hdenotes.toInt_eq]

end Renderer

namespace WordClass

/-- The lowest word of the band is taken for zero. -/
theorem not_isNumberOf_lowest :
    ofWord (BitVec.ofNat 256 (2 ^ 256 - 2 ^ 64)) = .signed 0 ∧
      ¬ IsNumberOf (BitVec.ofNat 256 (2 ^ 256 - 2 ^ 64)) (.signed 0) := by
  decide +kernel

end WordClass

end StepScope
