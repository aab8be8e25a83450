import StepScope.Proofs.HexInput

/-!
Words by the number that is written. Bytes that are all digits are those of a text of digits, the pairs of
such a text write its number to the base 256, and a zero in front does not change it. So an input of at most
64 digits is read as its number, and one of more is refused for its length even if they are zeros.
-/

namespace StepScope

namespace Hex

/-- Two digits at a time to the base 16 are one byte at a time to the base 256. -/
theorem Pairs.values {digits bytes : Bytes} (h : Pairs digits bytes) :
    ∃ values, (digits.map fun b => Char.ofNat b.toNat).mapM (fun c => digit? c.toNat) = some values ∧
      ∀ n, values.foldl (fun n d => 16 * n + d) n = bytes.foldl (fun n b => 256 * n + b.toNat) n := by
  induction h with
  | nil => exact ⟨[], rfl, fun _ => rfl⟩
  | cons hhigh hlow hb _ ih =>
    rename_i high low b x y digits bytes _
    obtain ⟨values, hvalues, hfold⟩ := ih
    refine ⟨x :: y :: values, ?_, fun n => ?_⟩
    · simp only [List.map_cons, List.mapM_cons, Text.toNat_ofNat_toNat, hhigh, hlow, hvalues,
        Option.pure_def, Option.bind_eq_bind, Option.bind_some]
    · have hstep : 16 * (16 * n + x) + y = 256 * n + b.toNat := by omega
      rw [List.foldl_cons, List.foldl_cons, List.foldl_cons, hstep, hfold]

theorem Pairs.number?_eq {s : Text} {code : Bytes} (h : Pairs (Text.utf8 s) code) :
    number? s = some (BigEndian.number code) := by
  obtain ⟨values, hvalues, hfold⟩ := h.values
  rw [Text.eq_map_of_ascii fun b hb => (h.isDigit b hb).lt, number?, hvalues, Option.map_some, hfold]
  rfl

/-- A text that writes a number has no other bytes than digits. -/
theorem isDigit_of_number? {s : Text} {n : Nat} (h : number? s = some n) :
    ∀ b ∈ Text.utf8 s, IsDigit b := by
  obtain ⟨values, hvalues, -⟩ := Option.map_eq_some_iff.1 h
  clear h
  induction s generalizing values with
  | nil => exact List.forall_mem_nil _
  | cons c s ih =>
    simp only [List.mapM_cons, Option.bind_eq_bind, Option.bind_eq_some_iff] at hvalues
    obtain ⟨d, hd, rest, hrest, -⟩ := hvalues
    have hascii := (lt_of_digit? hd).1
    rw [Text.utf8, List.flatMap_cons, Text.utf8EncodeChar_of_lt hascii, List.singleton_append, ← Text.utf8]
    refine List.forall_mem_cons.2 ⟨isDigit_of_digit? (d := d) ?_, ih rest hrest⟩
    rwa [UInt8.toNat_ofNat_of_lt' (Nat.lt_trans hascii (by decide))]

/-- A text that writes a number has as many digits as bytes. -/
theorem length_of_number? {s : Text} {n : Nat} (h : number? s = some n) : (Text.utf8 s).length = s.length := by
  have htext := Text.eq_map_of_ascii fun b hb => (isDigit_of_number? h b hb).lt
  rw [← List.length_map (fun b : UInt8 => Char.ofNat b.toNat), ← htext]

/-- Capital letters write the same number. -/
theorem number?_of_sameDigit {cs ds : Text} (hcs : ∀ c ∈ cs, Text.IsHexDigit c)
    (h : List.Forall₂ SameDigit cs ds) : number? ds = number? cs := by
  have hvalues : ds.mapM (fun c => digit? c.toNat) = cs.mapM fun c => digit? c.toNat := by
    induction h with
    | nil => rfl
    | cons hsame _ ih =>
      rw [List.forall_mem_cons] at hcs
      obtain ⟨⟨n, hn, rfl⟩, hcs⟩ := hcs
      rw [List.mapM_cons, List.mapM_cons, ih hcs, (hsame.ascii hn).2.1, digit?_digitChar hn]
  rw [number?, hvalues, number?]

end Hex

namespace HexInput

/-- What is read of digits has the number they write. -/
theorem number?_of_pairs {s : Text} {code : Bytes} (h : Hex.Pairs (evened (Text.utf8 s)) code) :
    Hex.number? s = some (BigEndian.number code) := by
  rw [evened] at h
  split at h
  · have hzero : Text.utf8 ('0' :: s) = 48 :: Text.utf8 s := rfl
    rw [← hzero] at h
    rw [← h.number?_eq]
    exact (Hex.number?_zeros_append 1 s).symm
  · exact h.number?_eq

theorem length_of_pairs {digits code : Bytes} (h : Hex.Pairs (evened digits) code) :
    code.length = (digits.length + 1) / 2 := by
  have hlength := h.length_eq
  rw [length_evened] at hlength
  omega

/-- Digits are read as the number they write, unless they are too many. -/
theorem Holds.word_of_digits {t s : Text} (h : Holds t s) (hdigits : ∀ b ∈ Text.utf8 s, Hex.IsDigit b) :
    ∃ n, Hex.number? s = some n ∧
      ((Text.utf8 s).length ≤ 64 → ∃ w, word t = .ok w ∧ w.toNat = n) ∧
      (64 < (Text.utf8 s).length → word t = .error (.wordTooLong (((Text.utf8 s).length + 1) / 2))) := by
  obtain ⟨code, hpairs⟩ := Hex.exists_pairs (length_evened _) (forall_evened.2 hdigits)
  have hlength := length_of_pairs hpairs
  have hword : word t = if code.length > 32 then .error (.wordTooLong code.length) else
      .ok (Word.ofBytes code) := by
    rw [word, h.bytes_eq_ok hpairs]
    rfl
  refine ⟨BigEndian.number code, number?_of_pairs hpairs, fun hfew => ?_, fun hmany => ?_⟩
  · have hfits : code.length ≤ 32 := by omega
    rw [if_neg (Nat.not_lt.2 hfits)] at hword
    exact ⟨_, hword, Word.toNat_ofBytes hfits⟩
  · rw [hword, if_pos (show code.length > 32 by omega), hlength]

/-- An input that holds the number of a word is read as the word. -/
theorem Holds.word_of_number {t s : Text} (h : Holds t s) {w : Word}
    (hnumber : Hex.number? s = some w.toNat) (hfew : s.length ≤ 64) : word t = .ok w := by
  obtain ⟨n, hn, hword, _⟩ := h.word_of_digits (Hex.isDigit_of_number? hnumber)
  obtain ⟨w', hw', hvalue⟩ := hword (Hex.length_of_number? hnumber ▸ hfew)
  rw [hnumber] at hn
  rw [hw', BitVec.eq_of_toNat_eq (hvalue.trans (Option.some.inj hn).symm)]

/-- The numeral of a word, with zeros in front and perhaps in capital letters, is read as the word. -/
theorem Holds.word_of_numeral {t digits : Text} (h : Holds t digits) {w : Word} {zeros : Nat}
    (hdigits : List.Forall₂ Hex.SameDigit (List.replicate zeros '0' ++ Text.hexadecimal w.toNat) digits)
    (hfew : digits.length ≤ 64) : word t = .ok w := by
  have hnumeral : ∀ c ∈ List.replicate zeros '0' ++ Text.hexadecimal w.toNat, Text.IsHexDigit c := by
    intro c hc
    rcases List.mem_append.1 hc with hc | hc
    · rw [List.eq_of_mem_replicate hc]
      decide
    · exact Text.isHexDigit_of_mem_hexadecimal hc
  have hnumber : Hex.number? digits = some w.toNat := by
    rw [Hex.number?_of_sameDigit hnumeral hdigits, Hex.number?_zeros_append, Hex.number?_hexadecimal]
  exact h.word_of_number hnumber hfew

/-- An input of digits is read as the number they write to the base 16, which is zero for none, if they are
at most 64; of more only their bytes are counted. If there is anything else the input is refused as bytes
are, whatever its length. Zeros in front make no difference up to 64 digits, and a word is read from
whatever writes its number in at most 64 digits: its numeral, zeros in front of it, capital letters. -/
theorem word_exact :
    (∀ t s, Holds t s → (∀ b ∈ Text.utf8 s, Hex.IsDigit b) → ∃ n, Hex.number? s = some n ∧
      ((Text.utf8 s).length ≤ 64 → ∃ w, word t = .ok w ∧ w.toNat = n) ∧
      (64 < (Text.utf8 s).length → word t = .error (.wordTooLong (((Text.utf8 s).length + 1) / 2)))) ∧
    (∀ t, Holds t [] → word t = .ok 0) ∧
    (∀ t s, Holds t s → (¬ ∀ b ∈ Text.utf8 s, Hex.IsDigit b) → ∃ b position,
      Hex.FirstFlaw (evened (Text.utf8 s)) b position ∧
      bytes t = .error (.invalidHex (.badDigit b position)) ∧
      word t = .error (.invalidHex (.badDigit b position))) ∧
    (∀ t t' s zeros, Holds t s → Holds t' (List.replicate zeros '0' ++ s) →
      (∀ b ∈ Text.utf8 s, Hex.IsDigit b) → zeros + (Text.utf8 s).length ≤ 64 → word t' = word t) ∧
    (∀ (w : Word) t s, Holds t s → Hex.number? s = some w.toNat → s.length ≤ 64 → word t = .ok w) ∧
    ∀ (w : Word) t zeros digits, Holds t digits →
      List.Forall₂ Hex.SameDigit (List.replicate zeros '0' ++ Text.hexadecimal w.toNat) digits →
      digits.length ≤ 64 → word t = .ok w := by
  refine ⟨fun t s h => h.word_of_digits, fun t h => ?_, fun t s h hdigits => ?_,
    fun t t' s zeros h h' hdigits hfew => ?_, fun w t s h => h.word_of_number,
    fun w t zeros digits h => h.word_of_numeral⟩
  · exact h.word_of_number rfl (Nat.zero_le _)
  · obtain ⟨b, position, hflaw⟩ := Hex.exists_firstFlaw fun hall => hdigits (forall_evened.1 hall)
    have hbytes := h.bytes_eq_error hflaw
    refine ⟨b, position, hflaw, hbytes, ?_⟩
    rw [word, hbytes]
    rfl
  · obtain ⟨n, hn, hword, _⟩ := h.word_of_digits hdigits
    obtain ⟨w, hw, rfl⟩ := hword (by omega)
    rw [hw]
    refine h'.word_of_number ?_ ?_
    · rw [Hex.number?_zeros_append, hn]
    · rwa [List.length_append, List.length_replicate, ← Hex.length_of_number? hn]

/-- A numeral in digits of both cases, with zeros in front and white space around. -/
def padded : Text := "\u2003 0X00fF\n".toList

/-- Zeros, one more than a word can have. -/
def manyZeros : Text := List.replicate 65 '0'

theorem word_exact_padded :
    word padded = .ok 255 ∧ word padded = word "0xfF".toList ∧ word "0xfF".toList = .ok 255 ∧
      word "0x".toList = .ok 0 ∧ word manyZeros = .error (.wordTooLong 33) ∧
      ∃ b position, Hex.FirstFlaw [48, 53, 0xc3, 0xa9] b position ∧
        word accented = .error (.invalidHex (.badDigit b position)) := by
  obtain ⟨hdigits, hnone, hflaw, hzeros, hwords, hnumerals⟩ := word_exact
  have hpadded : Holds padded "00fF".toList := holds_iff.2 (by decide)
  have hplain : Holds "0xfF".toList "fF".toList := holds_iff.2 (by decide)
  have hempty : Holds "0x".toList [] := holds_iff.2 (by decide)
  have hmany : Holds manyZeros manyZeros := holds_iff.2 (by decide)
  have haccented : Holds accented "5é".toList := holds_iff.2 (by decide)
  refine ⟨hwords _ _ _ hpadded (by decide) (by decide), ?_, ?_, hnone _ hempty, ?_, ?_⟩
  · have hnumber : Hex.number? "fF".toList = some 255 := by decide
    exact hzeros _ _ "fF".toList 2 hplain hpadded (Hex.isDigit_of_number? hnumber) (by decide)
  · exact hnumerals 255 _ 0 _ hplain (.cons (.inl rfl) (.cons (.inr (by decide)) .nil)) (by decide)
  · have hnumber : Hex.number? manyZeros = some 0 := Hex.number?_zeros_append 65 []
    obtain ⟨n, _, _, hlong⟩ := hdigits _ _ hmany (Hex.isDigit_of_number? hnumber)
    exact hlong (by decide)
  · have hletter : ¬ ∀ b ∈ Text.utf8 "5é".toList, Hex.IsDigit b := fun hall =>
      absurd (hall 0xc3 (by decide)) (by decide)
    obtain ⟨b, position, hfirst, _, hword⟩ := hflaw _ _ haccented hletter
    exact ⟨b, position, hfirst, hword⟩

end HexInput

end StepScope
