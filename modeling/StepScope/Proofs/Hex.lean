import Mathlib.Algebra.Group.Nat.Defs
import Mathlib.Data.List.Forall2
import Mathlib.Data.List.Induction
import StepScope.Proofs.Text
import StepScope.Text.Blank
import StepScope.Word

/-!
Bytes as pairs of digits. An even number of digits, of either case, are the bytes that their pairs write, and
the first byte that is no digit is what others are refused for. So bytes that are written are read back, and
their pairs determine them. The same goes for the big-endian bytes of a word or an address.
-/

namespace StepScope.Hex

theorem isHexDigit_of_mem_ofByte {b : UInt8} {c : Char} (h : c ∈ ofByte b) : Text.IsHexDigit c := by
  have hb := b.toNat_lt
  simp only [ofByte, List.mem_cons, List.not_mem_nil, or_false] at h
  rcases h with rfl | rfl
  · exact ⟨b.toNat / 16, by omega, rfl⟩
  · exact ⟨b.toNat % 16, by omega, rfl⟩

theorem isHexDigit_of_mem_ofBytes {bytes : Bytes} {c : Char} (h : c ∈ ofBytes bytes) :
    Text.IsHexDigit c := by
  obtain ⟨b, _, hc⟩ := List.mem_flatMap.1 h
  exact isHexDigit_of_mem_ofByte hc

theorem not_mem_ofBytes {c : Char} (h : ¬ Text.IsHexDigit c) (bytes : Bytes) : c ∉ ofBytes bytes :=
  fun hmem => h (isHexDigit_of_mem_ofBytes hmem)

/-- The byte is that of an ASCII hexadecimal digit, of either case. -/
def IsDigit (b : UInt8) : Prop :=
  48 ≤ b.toNat ∧ b.toNat ≤ 57 ∨ 65 ≤ b.toNat ∧ b.toNat ≤ 70 ∨ 97 ≤ b.toNat ∧ b.toNat ≤ 102

instance : DecidablePred IsDigit := fun b =>
  inferInstanceAs (Decidable (48 ≤ b.toNat ∧ b.toNat ≤ 57 ∨ 65 ≤ b.toNat ∧ b.toNat ≤ 70 ∨
    97 ≤ b.toNat ∧ b.toNat ≤ 102))

theorem IsDigit.exists_value {b : UInt8} (h : IsDigit b) : ∃ d < 16, digit? b.toNat = some d := by
  unfold digit?
  rcases h with h | h | h
  · exact ⟨b.toNat - 48, by omega, if_pos h⟩
  · exact ⟨b.toNat - 55, by omega, by rw [if_neg (by omega), if_pos h]⟩
  · exact ⟨b.toNat - 87, by omega, by rw [if_neg (by omega), if_neg (by omega), if_pos h]⟩

theorem digit?_eq_none {b : UInt8} (h : ¬ IsDigit b) : digit? b.toNat = none := by
  rw [IsDigit, not_or, not_or] at h
  rw [digit?, if_neg h.1, if_neg h.2.1, if_neg h.2.2]

theorem isDigit_of_digit? {b : UInt8} {d : Nat} (h : digit? b.toNat = some d) : IsDigit b := by
  by_contra hdigit
  rw [digit?_eq_none hdigit] at h
  cases h

theorem IsDigit.lt {b : UInt8} (h : IsDigit b) : b.toNat < 128 := by
  unfold IsDigit at h
  omega

theorem lt_of_digit? {code d : Nat} (h : digit? code = some d) : code < 128 ∧ d < 16 := by
  unfold digit? at h
  split at h
  · cases h
    omega
  split at h
  · cases h
    omega
  split at h
  · cases h
    omega
  · cases h

/-- Pairs of digits and the bytes they write, in order. -/
inductive Pairs : Bytes → Bytes → Prop
  | nil : Pairs [] []
  | cons {high low b : UInt8} {h l : Nat} {digits bytes : Bytes} (hhigh : digit? high.toNat = some h)
      (hlow : digit? low.toNat = some l) (hb : b.toNat = 16 * h + l) (hrest : Pairs digits bytes) :
      Pairs (high :: low :: digits) (b :: bytes)

/-- The first byte that is no digit, at a position. -/
def FirstFlaw (digits : Bytes) (b : UInt8) (position : Nat) : Prop :=
  ∃ front back, digits = front ++ b :: back ∧ front.length = position ∧ (∀ c ∈ front, IsDigit c) ∧ ¬ IsDigit b

theorem exists_firstFlaw {digits : Bytes} (h : ¬ ∀ b ∈ digits, IsDigit b) :
    ∃ b position, FirstFlaw digits b position := by
  induction digits with
  | nil => exact absurd (List.forall_mem_nil _) h
  | cons c digits ih =>
    by_cases hc : IsDigit c
    · obtain ⟨b, _, front, back, rfl, _, hfront, hb⟩ := ih fun hall => h (List.forall_mem_cons.2 ⟨hc, hall⟩)
      exact ⟨b, _, c :: front, back, rfl, rfl, List.forall_mem_cons.2 ⟨hc, hfront⟩, hb⟩
    · exact ⟨c, _, [], digits, rfl, rfl, List.forall_mem_nil _, hc⟩

variable {digits bytes : Bytes}

theorem Pairs.readPairs (h : Pairs digits bytes) (position : Nat) :
    readPairs position digits = .ok bytes := by
  induction h generalizing position with
  | nil => rfl
  | cons hhigh hlow hb _ ih =>
    simp only [Hex.readPairs, hhigh, hlow, ih, ← hb, UInt8.ofNat_toNat]
    rfl

theorem Pairs.length_eq (h : Pairs digits bytes) : digits.length = 2 * bytes.length := by
  induction h with
  | nil => rfl
  | cons _ _ _ _ ih =>
    rw [List.length_cons, List.length_cons, List.length_cons, ih]
    omega

theorem Pairs.read (h : Pairs digits bytes) : read digits = .ok bytes := by
  have heven : ¬ digits.length % 2 = 1 := by
    rw [h.length_eq]
    omega
  rw [Hex.read, if_neg heven, h.readPairs]

theorem Pairs.isDigit (h : Pairs digits bytes) : ∀ b ∈ digits, IsDigit b := by
  induction h with
  | nil => exact List.forall_mem_nil _
  | cons hhigh hlow _ _ ih =>
    exact List.forall_mem_cons.2 ⟨isDigit_of_digit? hhigh, List.forall_mem_cons.2 ⟨isDigit_of_digit? hlow, ih⟩⟩

theorem exists_pairs {count : Nat} (hlength : digits.length = 2 * count) (h : ∀ b ∈ digits, IsDigit b) :
    ∃ bytes, Pairs digits bytes := by
  induction count generalizing digits with
  | zero =>
    obtain rfl := List.length_eq_zero_iff.1 hlength
    exact ⟨[], .nil⟩
  | succ count ih =>
    match digits, hlength with
    | high :: low :: digits, hlength =>
      rw [List.forall_mem_cons, List.forall_mem_cons] at h
      obtain ⟨x, hx, hhigh⟩ := h.1.exists_value
      obtain ⟨y, hy, hlow⟩ := h.2.1.exists_value
      have hrest : digits.length = 2 * count := by
        simp only [List.length_cons] at hlength
        omega
      obtain ⟨bytes, hpairs⟩ := ih hrest h.2.2
      refine ⟨UInt8.ofNat (16 * x + y) :: bytes, .cons hhigh hlow ?_ hpairs⟩
      exact UInt8.toNat_ofNat_of_lt' (show 16 * x + y < UInt8.size by simp only [UInt8.size]; omega)

/-- In an even number the bytes are read up to the first that is no digit. -/
theorem readPairs_of_flaw {front : Bytes} (hfront : ∀ b ∈ front, IsDigit b) {b : UInt8} (hb : ¬ IsDigit b)
    (back : Bytes) (heven : (front ++ b :: back).length % 2 = 0) (position : Nat) :
    readPairs position (front ++ b :: back) = .error (.badDigit b (position + front.length)) := by
  have hflaw := digit?_eq_none hb
  match front with
  | [] =>
    cases back with
    | nil => exact absurd heven (by simp)
    | cons low back => simp only [List.nil_append, readPairs, hflaw, List.length_nil, Nat.add_zero]
  | [high] =>
    obtain ⟨x, _, hhigh⟩ := (hfront high List.mem_cons_self).exists_value
    simp only [List.singleton_append, readPairs, hhigh, hflaw, List.length_singleton]
  | high :: low :: front =>
    rw [List.forall_mem_cons, List.forall_mem_cons] at hfront
    obtain ⟨x, _, hhigh⟩ := hfront.1.exists_value
    obtain ⟨y, _, hlow⟩ := hfront.2.1.exists_value
    have heven' : (front ++ b :: back).length % 2 = 0 := by
      simp only [List.cons_append, List.length_cons] at heven
      omega
    simp only [List.cons_append, readPairs, hhigh, hlow,
      readPairs_of_flaw hfront.2.2 hb back heven' (position + 2)]
    rw [List.length_cons, List.length_cons, show position + (front.length + 1 + 1) = position + 2 + front.length by omega]
    rfl

theorem FirstFlaw.read {b : UInt8} {position : Nat} (h : FirstFlaw digits b position)
    (heven : digits.length % 2 = 0) : read digits = .error (.badDigit b position) := by
  obtain ⟨front, back, rfl, rfl, hfront, hb⟩ := h
  rw [Hex.read, if_neg (by omega), readPairs_of_flaw hfront hb back heven, Nat.zero_add]

/-! Digits of either case -/

/-- A digit and the same digit, perhaps as a capital letter. -/
def SameDigit (c d : Char) : Prop := d = c ∨ d = c.toUpper

instance (c d : Char) : Decidable (SameDigit c d) := inferInstanceAs (Decidable (d = c ∨ d = c.toUpper))

theorem SameDigit.ascii {n : Nat} (hn : n < 16) {d : Char} (h : SameDigit (Nat.digitChar n) d) :
    d.toNat < 128 ∧ digit? d.toNat = some n ∧ d ≠ 'x' ∧ d ≠ 'X' ∧ Text.isBlank d = false := by
  rcases h with rfl | rfl
  all_goals
    revert n
    decide

theorem SameDigit.utf8_cons {n : Nat} (hn : n < 16) {d : Char} (h : SameDigit (Nat.digitChar n) d)
    (t : Text) : ∃ b, Text.utf8 (d :: t) = b :: Text.utf8 t ∧ digit? b.toNat = some n := by
  obtain ⟨hascii, hdigit, _⟩ := h.ascii hn
  refine ⟨UInt8.ofNat d.toNat, ?_, ?_⟩
  · rw [Text.utf8, List.flatMap_cons, Text.utf8EncodeChar_of_lt hascii]
    rfl
  · rwa [UInt8.toNat_ofNat_of_lt' (Nat.lt_trans hascii (by decide))]

theorem pairs_utf8 {code : Bytes} {digits : Text} (h : List.Forall₂ SameDigit (ofBytes code) digits) :
    Pairs (Text.utf8 digits) code := by
  induction code generalizing digits with
  | nil =>
    cases h
    exact .nil
  | cons b code ih =>
    have hb := b.toNat_lt
    obtain _ | ⟨hhigh, _ | ⟨hlow, h⟩⟩ := h
    obtain ⟨x, hx, hhigh⟩ := hhigh.utf8_cons (by omega) _
    obtain ⟨y, hy, hlow⟩ := hlow.utf8_cons (by omega) _
    rw [hx, hy]
    exact .cons hhigh hlow (by omega) (ih h)

theorem sameDigit_of_digit? {b : UInt8} {d : Nat} (h : digit? b.toNat = some d) :
    SameDigit (Nat.digitChar d) (Char.ofNat b.toNat) := by
  have hall : ∀ code < 128,
      ((digit? code).all fun d => SameDigit (Nat.digitChar d) (Char.ofNat code)) = true := by
    decide
  have hb := hall _ (lt_of_digit? h).1
  rw [h] at hb
  exact of_decide_eq_true hb

/-- Pairs of digits are those of the bytes, but for the case of the letters. -/
theorem Pairs.sameDigits {digits code : Bytes} (h : Pairs digits code) :
    List.Forall₂ SameDigit (ofBytes code) (digits.map fun b => Char.ofNat b.toNat) := by
  induction h with
  | nil => exact .nil
  | cons hhigh hlow hb _ ih =>
    have hx := (lt_of_digit? hhigh).2
    have hy := (lt_of_digit? hlow).2
    refine .cons ?_ (.cons ?_ ih)
    · rw [hb, Nat.mul_add_div (by decide), Nat.div_eq_of_lt hy, Nat.add_zero]
      exact sameDigit_of_digit? hhigh
    · rw [hb, Nat.mul_add_mod, Nat.mod_eq_of_lt hy]
      exact sameDigit_of_digit? hlow

theorem forall_of_sameDigit {cs ds : Text} (hcs : ∀ c ∈ cs, Text.IsHexDigit c)
    (h : List.Forall₂ SameDigit cs ds) : ∀ d ∈ ds, d ≠ 'x' ∧ d ≠ 'X' ∧ Text.isBlank d = false := by
  induction h with
  | nil => exact List.forall_mem_nil _
  | cons hsame _ ih =>
    rw [List.forall_mem_cons] at hcs
    obtain ⟨⟨n, hn, rfl⟩, hcs⟩ := hcs
    exact List.forall_mem_cons.2 ⟨(hsame.ascii hn).2.2, ih hcs⟩

/-! Bytes as they are written -/

theorem pairs_ofBytes (bytes : Bytes) : Pairs (Text.utf8 (ofBytes bytes)) bytes :=
  pairs_utf8 (List.forall₂_same.2 fun _ _ => .inl rfl)

theorem length_utf8_ofBytes (bytes : Bytes) : (Text.utf8 (ofBytes bytes)).length = 2 * bytes.length :=
  (pairs_ofBytes bytes).length_eq

/-- Bytes are read back from their pairs of digits. -/
@[simp] theorem read_utf8_ofBytes (bytes : Bytes) : read (Text.utf8 (ofBytes bytes)) = .ok bytes :=
  (pairs_ofBytes bytes).read

theorem ofBytes_injective : Function.Injective ofBytes := by
  intro a b h
  have hread := congrArg (fun t => read (Text.utf8 t)) h
  simp only [read_utf8_ofBytes, Except.ok.injEq] at hread
  exact hread

end StepScope.Hex

namespace StepScope.BigEndian

theorem number_append_singleton (bytes : Bytes) (b : UInt8) :
    number (bytes ++ [b]) = 256 * number bytes + b.toNat := by
  simp only [number, List.foldl_append, List.foldl_cons, List.foldl_nil]

/-- The number of bytes that follow others. -/
theorem number_append (front back : Bytes) :
    number (front ++ back) = 256 ^ back.length * number front + number back := by
  induction back using List.reverseRecOn with
  | nil => simp [number]
  | append_singleton back b ih =>
    rw [← List.append_assoc, number_append_singleton, ih, number_append_singleton,
      List.length_append, List.length_singleton, Nat.pow_succ, Nat.mul_add, Nat.mul_comm _ 256,
      Nat.mul_assoc, Nat.add_assoc]

/-- As many bytes as a number needs write the number. -/
theorem number_bytes (count n : Nat) : number (bytes count n) = n % 256 ^ count := by
  induction count with
  | zero => simp [bytes, number, Nat.mod_one]
  | succ count ih =>
    have hshift : n >>> (8 * count) = n / 256 ^ count := by
      rw [Nat.shiftRight_eq_div_pow, Nat.pow_mul]
    have hhead : number [UInt8.ofNat (n >>> (8 * count))] = n / 256 ^ count % 256 := by
      simp [number, hshift]
    rw [bytes, ← List.singleton_append, number_append, length_bytes, ih, hhead, Nat.pow_succ,
      Nat.mod_mul, Nat.add_comm]

theorem number_cons (b : UInt8) (bytes : Bytes) :
    number (b :: bytes) = 256 ^ bytes.length * b.toNat + number bytes := by
  rw [← List.singleton_append, number_append]
  simp [number]

theorem number_lt (bytes : Bytes) : number bytes < 256 ^ bytes.length := by
  induction bytes with
  | nil => exact Nat.one_pos
  | cons b bytes ih =>
    have hb := b.toNat_lt
    have hhead : 256 ^ bytes.length * (b.toNat + 1) ≤ 256 ^ bytes.length * 256 :=
      Nat.mul_le_mul_left _ (by omega)
    rw [number_cons, List.length_cons, Nat.pow_succ]
    rw [Nat.mul_add_one] at hhead
    omega

/-- Equally many bytes are told apart by their number. -/
theorem eq_of_number_eq {a b : Bytes} (hlength : a.length = b.length) (h : number a = number b) :
    a = b := by
  induction a generalizing b with
  | nil => exact (List.length_eq_zero_iff.1 hlength.symm).symm
  | cons x a ih =>
    cases b with
    | nil => cases hlength
    | cons y b =>
      have hrest : a.length = b.length := Nat.succ.inj hlength
      have ha := number_lt a
      have hb := number_lt b
      rw [number_cons, number_cons, hrest] at h
      rw [hrest] at ha
      have hxy : x.toNat = y.toNat := by
        have hquotient := congrArg (· / 256 ^ b.length) h
        simpa [Nat.mul_add_div (Nat.pow_pos (by decide : 0 < 256)), Nat.div_eq_of_lt ha,
          Nat.div_eq_of_lt hb] using hquotient
      rw [hxy] at h
      rw [UInt8.toNat_inj.1 hxy, ih hrest (Nat.add_left_cancel h)]

end StepScope.BigEndian

namespace StepScope

theorem Word.length_toBytes (w : Word) : w.toBytes.length = 32 := BigEndian.length_bytes 32 _

@[simp] theorem Word.ofBytes_toBytes (w : Word) : Word.ofBytes w.toBytes = w := by
  apply BitVec.eq_of_toNat_eq
  have hlt : w.toNat < 256 ^ 32 := w.isLt
  rw [ofBytes, toBytes, BigEndian.number_bytes, BitVec.toNat_ofNat, Nat.mod_eq_of_lt hlt,
    Nat.mod_eq_of_lt w.isLt]

theorem Word.toBytes_injective : Function.Injective Word.toBytes :=
  Function.LeftInverse.injective Word.ofBytes_toBytes

theorem Word.toNat_ofBytes {bytes : Bytes} (h : bytes.length ≤ 32) :
    (Word.ofBytes bytes).toNat = BigEndian.number bytes := by
  have hlt : BigEndian.number bytes < 256 ^ 32 :=
    Nat.lt_of_lt_of_le (BigEndian.number_lt bytes) (Nat.pow_le_pow_right (by decide) h)
  rw [ofBytes, BitVec.toNat_ofNat]
  exact Nat.mod_eq_of_lt hlt

theorem Word.toBytes_ofBytes {bytes : Bytes} (h : bytes.length = 32) :
    (Word.ofBytes bytes).toBytes = bytes := by
  have hlt : BigEndian.number bytes < 256 ^ 32 := h ▸ BigEndian.number_lt bytes
  refine BigEndian.eq_of_number_eq ((length_toBytes _).trans h.symm) ?_
  rw [toBytes, BigEndian.number_bytes, toNat_ofBytes (Nat.le_of_eq h), Nat.mod_eq_of_lt hlt]

theorem Address.length_toBytes (a : Address) : a.toBytes.length = 20 := BigEndian.length_bytes 20 _

@[simp] theorem Address.ofBytes_toBytes (a : Address) : Address.ofBytes a.toBytes = a := by
  apply BitVec.eq_of_toNat_eq
  have hlt : a.toNat < 256 ^ 20 := a.isLt
  rw [ofBytes, toBytes, BigEndian.number_bytes, BitVec.toNat_ofNat, Nat.mod_eq_of_lt hlt,
    Nat.mod_eq_of_lt a.isLt]

theorem Address.toBytes_ofBytes {bytes : Bytes} (h : bytes.length = 20) :
    (Address.ofBytes bytes).toBytes = bytes := by
  have hlt : BigEndian.number bytes < 256 ^ 20 := h ▸ BigEndian.number_lt bytes
  have hnumber : (Address.ofBytes bytes).toNat = BigEndian.number bytes := by
    rw [ofBytes, BitVec.toNat_ofNat]
    exact Nat.mod_eq_of_lt hlt
  refine BigEndian.eq_of_number_eq ((length_toBytes _).trans h.symm) ?_
  rw [toBytes, BigEndian.number_bytes, hnumber, Nat.mod_eq_of_lt hlt]

theorem Address.toBytes_injective : Function.Injective Address.toBytes :=
  Function.LeftInverse.injective Address.ofBytes_toBytes

end StepScope
