import Mathlib.Algebra.Group.Nat.Defs
import StepScope.Keyed
import StepScope.Proofs.Text

/-!
The order of texts is that of their bytes. The first byte of a character announces those that follow, and one
that announces more is greater; the others are the digits of the code to the base 64, of which the first that
is not the same in two codes tells which of them is less.
-/

namespace StepScope.Text

/-- Bytes in front of others: where they first differ they have the lesser byte, or they end there. -/
def BytesBefore : Bytes → Bytes → Prop := List.Lex fun (a b : UInt8) => a.toNat < b.toNat

theorem not_bytesBefore_self (bytes : Bytes) : ¬ BytesBefore bytes bytes :=
  List.lex_irrefl (fun (b : UInt8) => Nat.lt_irrefl b.toNat) bytes

theorem BytesBefore.asymm {a b : Bytes} (h : BytesBefore a b) : ¬ BytesBefore b a :=
  List.lex_asymm (r := fun (a b : UInt8) => a.toNat < b.toNat) (fun h => Nat.lt_asymm h) h

theorem BytesBefore.append_left {a b : Bytes} (h : BytesBefore a b) (front : Bytes) :
    BytesBefore (front ++ a) (front ++ b) := by
  induction front with
  | nil => exact h
  | cons c front ih => exact .cons ih

theorem bytesBefore_of_lt {m n : Nat} (h : m < n) (hn : n < 256) (s t : Bytes) :
    BytesBefore (UInt8.ofNat m :: s) (UInt8.ofNat n :: t) := by
  refine .rel ?_
  rwa [UInt8.toNat_ofNat_of_lt' (Nat.lt_trans h hn), UInt8.toNat_ofNat_of_lt' hn]

/-- The number of bytes behind the first of a character. -/
def trailingCount (code : Nat) : Nat :=
  if code ≤ 0x7f then 0 else if code ≤ 0x7ff then 1 else if code ≤ 0xffff then 2 else 3

/-- The first byte of a character. -/
def leading (code : Nat) : Nat :=
  if code ≤ 0x7f then code
  else if code ≤ 0x7ff then code / 64 + 0xc0
  else if code ≤ 0xffff then code / 64 ^ 2 + 0xe0
  else code / 64 ^ 3 + 0xf0

/-- The last digits of a code to the base 64, as the bytes behind the first. -/
def trailing : (count : Nat) → (code : Nat) → Bytes
  | 0, _ => []
  | count + 1, code => UInt8.ofNat (code / 64 ^ count % 64 + 128) :: trailing count code

theorem toNat_lt (c : Char) : c.toNat < 0x110000 := by
  rcases c.valid with h | h
  · exact Nat.lt_trans h (by decide)
  · exact h.2

theorem utf8EncodeChar_eq (c : Char) :
    String.utf8EncodeChar c = UInt8.ofNat (leading c.toNat) :: trailing (trailingCount c.toNat) c.toNat := by
  have hcode := toNat_lt c
  have hval : c.val.toNat = c.toNat := rfl
  simp only [String.utf8EncodeChar, leading, trailingCount, hval]
  by_cases h₁ : c.toNat ≤ 0x7f
  · simp only [if_pos h₁, trailing]
  by_cases h₂ : c.toNat ≤ 0x7ff
  · have hfirst : c.toNat / 64 % 32 = c.toNat / 64 := by omega
    simp only [if_neg h₁, if_pos h₂, hfirst, trailing, Nat.pow_zero, Nat.div_one]
  by_cases h₃ : c.toNat ≤ 0xffff
  · have hfirst : c.toNat / 4096 % 16 = c.toNat / 4096 := by omega
    simp only [if_neg h₁, if_neg h₂, if_pos h₃, hfirst, trailing, Nat.pow_zero, Nat.div_one, Nat.pow_one,
      Nat.reducePow]
  · have hfirst : c.toNat / 262144 % 8 = c.toNat / 262144 := by omega
    simp only [if_neg h₁, if_neg h₂, if_neg h₃, hfirst, trailing, Nat.pow_zero, Nat.div_one, Nat.pow_one,
      Nat.reducePow]

/-- Of two codes the greater has the greater first byte, unless only their last digits are not the same. -/
theorem leading_lt {m n : Nat} (h : m < n) (hn : n < 0x110000) :
    leading m < leading n ∨ leading m = leading n ∧ trailingCount m = trailingCount n ∧
      m / 64 ^ trailingCount m = n / 64 ^ trailingCount n := by
  unfold leading trailingCount
  (repeat' split) <;> omega

theorem leading_lt_size {n : Nat} (hn : n < 0x110000) : leading n < 256 := by
  unfold leading
  split
  · omega
  split
  · omega
  split
  · omega
  · omega

/-- Codes whose other digits are the same are told apart by their last ones. -/
theorem trailing_before {count m n : Nat} (hlt : m < n) (hsame : m / 64 ^ count = n / 64 ^ count)
    (s t : Bytes) : BytesBefore (trailing count m ++ s) (trailing count n ++ t) := by
  induction count with
  | zero =>
    rw [Nat.pow_zero, Nat.div_one, Nat.div_one] at hsame
    exact absurd hsame (Nat.ne_of_lt hlt)
  | succ count ih =>
    rw [Nat.pow_succ, ← Nat.div_div_eq_div_mul, ← Nat.div_div_eq_div_mul] at hsame
    rcases Nat.lt_or_ge (m / 64 ^ count) (n / 64 ^ count) with hdigit | hdigit
    · exact bytesBefore_of_lt (by omega) (by omega) _ _
    · have hle : m / 64 ^ count ≤ n / 64 ^ count := Nat.div_le_div_right (Nat.le_of_lt hlt)
      have hdigits : m / 64 ^ count = n / 64 ^ count := Nat.le_antisymm hle hdigit
      rw [trailing, trailing, hdigits]
      exact .cons (ih hdigits)

theorem utf8EncodeChar_before {c d : Char} (h : c.toNat < d.toNat) (s t : Bytes) :
    BytesBefore (String.utf8EncodeChar c ++ s) (String.utf8EncodeChar d ++ t) := by
  rw [utf8EncodeChar_eq, utf8EncodeChar_eq, List.cons_append, List.cons_append]
  rcases leading_lt h (toNat_lt d) with hfirst | ⟨hfirst, hcount, hsame⟩
  · exact bytesBefore_of_lt hfirst (leading_lt_size (toNat_lt d)) _ _
  · rw [hfirst, ← hcount]
    rw [← hcount] at hsame
    exact .cons (trailing_before h hsame s t)

theorem bytesBefore_of_before {s t : Text} (h : before s t = true) : BytesBefore (utf8 s) (utf8 t) := by
  induction s generalizing t with
  | nil =>
    cases t with
    | nil => cases h
    | cons d t =>
      rw [utf8, utf8, List.flatMap_cons, utf8EncodeChar_eq]
      exact .nil
  | cons c s ih =>
    cases t with
    | nil => cases h
    | cons d t =>
      simp only [before, Bool.or_eq_true, Bool.and_eq_true, decide_eq_true_eq] at h
      rw [utf8, utf8, List.flatMap_cons, List.flatMap_cons]
      rcases h with hcode | ⟨rfl, hrest⟩
      · exact utf8EncodeChar_before hcode _ _
      · exact (ih hrest).append_left _

/-- A text comes before another exactly if its bytes do. -/
theorem before_iff {s t : Text} : before s t = true ↔ BytesBefore (utf8 s) (utf8 t) := by
  refine ⟨bytesBefore_of_before, fun h => ?_⟩
  cases hst : before s t with
  | true => rfl
  | false =>
    cases hts : before t s with
    | true => exact absurd (bytesBefore_of_before hts) h.asymm
    | false =>
      obtain rfl := before_connected s t hst hts
      exact absurd h (not_bytesBefore_self _)

end StepScope.Text
