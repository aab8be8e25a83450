import StepScope.Proofs.Text
import StepScope.Toml.Value.Reader

/-!
Texts are read back from the strings on one line that write them, and from the keys that write them. An
escape stands for one character, and every other character inside a string for itself.
-/

namespace StepScope.Hex

theorem digit?_toUpper {c : Char} (h : Text.IsHexDigit c) : digit? c.toUpper.toNat = digit? c.toNat := by
  obtain ⟨d, hd, rfl⟩ := h
  revert d
  decide

/-- Digits in capital letters write the same number. -/
theorem number?_map_toUpper {t : Text} (h : ∀ c ∈ t, Text.IsHexDigit c) :
    number? (t.map Char.toUpper) = number? t := by
  rw [number?, number?, List.mapM_map]
  congr 1
  induction t with
  | nil => rfl
  | cons c t ih =>
    rw [List.mapM_cons, List.mapM_cons, ih fun d hd => h d (List.mem_cons_of_mem c hd),
      Function.comp_apply, digit?_toUpper (h c List.mem_cons_self)]

end StepScope.Hex

namespace StepScope.Toml

/-! Characters -/

theorem isPlain_of_isControl {c : Char} (h : isControl c = false) : isPlain c = true ∨ c = '\n' := by
  by_cases hbreak : c = '\n'
  · exact .inr hbreak
  · by_cases htab : c = '\t'
    · subst htab
      exact .inl rfl
    · simp only [isControl, hbreak, htab, ne_eq, not_false_eq_true, decide_true, Bool.true_and,
        Bool.or_eq_false_iff, decide_eq_false_iff_not, Nat.not_lt] at h
      simp only [isPlain, htab, decide_false, Bool.false_or, Bool.and_eq_true, decide_eq_true_eq]
      exact .inl h

/-- The characters with an escape are ASCII. -/
theorem toNat_lt_of_needsEscape {c : Char} (h : needsEscape c = true ∨ c = '"' ∨ c = '\n') :
    c.toNat < 128 := by
  rcases h with h | rfl | rfl
  · simp only [needsEscape, isAwkward, isControl, Bool.or_eq_true, Bool.and_eq_true,
      decide_eq_true_eq] at h
    rcases h with (⟨_, h | h⟩ | rfl) | rfl
    · omega
    · omega
    · decide
    · decide
  · decide
  · decide

theorem isPlain_of_not_needsEscape {c : Char} (h : needsEscape c = false) :
    isPlain c = true ∨ c = '\n' := by
  refine isPlain_of_isControl ?_
  simp only [needsEscape, isAwkward, Bool.or_eq_false_iff] at h
  exact h.1.1

theorem ne_backslash_of_not_needsEscape {c : Char} (h : needsEscape c = false) : c ≠ '\\' := by
  rintro rfl
  cases h

theorem ne_return_of_isControl {c : Char} (h : isControl c = false) : c ≠ '\r' := by
  rintro rfl
  cases h

theorem ne_return_of_not_needsEscape {c : Char} (h : needsEscape c = false) : c ≠ '\r' := by
  rintro rfl
  cases h

/-! Escapes -/

/-- Reading a code is reading its digits as a number. -/
theorem readCode_append {t : Text} {n m : Nat}
    (h : ((t.mapM fun c => Hex.digit? c.toNat).map fun values =>
      values.foldl (fun n d => 16 * n + d) n) = some m) (rest : Text) :
    readCode t.length n (t ++ rest) = some (m, rest) := by
  induction t generalizing n with
  | nil =>
    cases h
    rfl
  | cons c t ih =>
    cases hdigit : Hex.digit? c.toNat with
    | none =>
      rw [List.mapM_cons, hdigit] at h
      cases h
    | some d =>
      rw [List.length_cons, List.cons_append, readCode]
      simp only [hdigit]
      apply ih
      simpa only [List.mapM_cons, hdigit, Option.pure_def, Option.bind_eq_bind, Option.bind_some,
        Option.map_bind, Option.map_eq_bind, Option.bind_assoc, Function.comp_def,
        List.foldl_cons] using h

/-- The four digits of a code read back as the character. -/
theorem readCodePoint_digits {c : Char} (h : c.toNat < 65536) (rest : Text) :
    readCodePoint 4 (((Text.hexadecimal c.toNat).map Char.toUpper).leftpad 4 '0' ++ rest) =
      some (c, rest) := by
  have hnumber : Hex.number? (((Text.hexadecimal c.toNat).map Char.toUpper).leftpad 4 '0') =
      some c.toNat := by
    rw [List.leftpad, Hex.number?_zeros_append,
      Hex.number?_map_toUpper fun d hd => Text.isHexDigit_of_mem_hexadecimal hd,
      Hex.number?_hexadecimal]
  have hlength : (((Text.hexadecimal c.toNat).map Char.toUpper).leftpad 4 '0').length = 4 := by
    have hdigits := (Nat.length_toDigits_le_iff (by decide : 1 < 16) (by decide : 0 < 4)).2 h
    rw [List.length_leftpad, List.length_map, Text.hexadecimal]
    exact Nat.max_eq_left hdigits
  have hcode := readCode_append hnumber rest
  rw [hlength] at hcode
  have hvalid : c.toNat.isValidChar := c.valid
  simp only [readCodePoint, hcode]
  rw [if_pos hvalid, Char.ofNat_toNat]

/-- The escape of a character is a backslash, `d` and `tail`, and reads back as the character. -/
structure Escaped (c d : Char) (tail : Text) : Prop where
  spelled : escape c = '\\' :: d :: tail
  /-- The backslash does not stand at the end of a line. -/
  visible : isSpace d = false ∧ d ≠ '\n' ∧ d ≠ '\r'
  read : ∀ rest, readEscape (d :: (tail ++ rest)) = some (c, rest)

theorem exists_escaped {c : Char} (h : needsEscape c = true ∨ c = '"' ∨ c = '\n') :
    ∃ d tail, Escaped c d tail := by
  have hsmall : c.toNat < 65536 := Nat.lt_trans (toNat_lt_of_needsEscape h) (by decide)
  by_cases hspecial : c ∈ ['\x08', '\t', '\n', '\x0c', '\r', '"', '\\']
  · simp only [List.mem_cons, List.not_mem_nil, or_false] at hspecial
    rcases hspecial with rfl | rfl | rfl | rfl | rfl | rfl | rfl
    · exact ⟨'b', [], rfl, by decide, fun _ => rfl⟩
    · exact ⟨'t', [], rfl, by decide, fun _ => rfl⟩
    · exact ⟨'n', [], rfl, by decide, fun _ => rfl⟩
    · exact ⟨'f', [], rfl, by decide, fun _ => rfl⟩
    · exact ⟨'r', [], rfl, by decide, fun _ => rfl⟩
    · exact ⟨'"', [], rfl, by decide, fun _ => rfl⟩
    · exact ⟨'\\', [], rfl, by decide, fun _ => rfl⟩
  · refine ⟨'u', ((Text.hexadecimal c.toNat).map Char.toUpper).leftpad 4 '0', ?_, by decide, ?_⟩
    · simp only [List.mem_cons, List.not_mem_nil, or_false, not_or] at hspecial
      simp only [escape, hspecial, or_false, if_false]
    · intro rest
      exact readCodePoint_digits hsmall rest

/-! Strings on one line -/

theorem readBasic_quote (s : Text) : readBasic ('"' :: s) = some ([], s) := by
  rw [readBasic]
  rfl

theorem readBasic_escape {s rest : Text} {c : Char} (h : readEscape s = some (c, rest)) :
    readBasic ('\\' :: s) = (readBasic rest).map fun (t, rest) => (c :: t, rest) := by
  rw [readBasic, if_neg (by decide), if_pos rfl]
  split
  · rename_i hnone
    rw [hnone] at h
    cases h
  · rename_i hsome
    rw [hsome] at h
    cases h
    rfl

theorem readBasic_plain {c : Char} (hquote : c ≠ '"') (hslash : c ≠ '\\') (h : isPlain c = true)
    (s : Text) : readBasic (c :: s) = (readBasic s).map fun (t, rest) => (c :: t, rest) := by
  rw [readBasic, if_neg hquote, if_neg hslash, if_pos h]

theorem readBasic_basic (t rest : Text) :
    readBasic ((t.flatMap fun c => if needsEscape c ∨ c = '"' ∨ c = '\n' then escape c else [c]) ++
      '"' :: rest) = some (t, rest) := by
  induction t with
  | nil => exact readBasic_quote rest
  | cons c t ih =>
    rw [List.flatMap_cons, List.append_assoc]
    by_cases h : needsEscape c = true ∨ c = '"' ∨ c = '\n'
    · obtain ⟨d, tail, hescaped⟩ := exists_escaped h
      rw [if_pos h, hescaped.spelled, List.cons_append, List.cons_append,
        readBasic_escape (hescaped.read _), ih]
      rfl
    · rw [if_neg h, List.singleton_append]
      simp only [not_or, Bool.not_eq_true] at h
      obtain ⟨hraw, hquote, hbreak⟩ := h
      have hplain := (isPlain_of_not_needsEscape hraw).resolve_right hbreak
      rw [readBasic_plain hquote (ne_backslash_of_not_needsEscape hraw) hplain, ih]
      rfl

theorem readLiteral_append {t : Text} (h : ∀ c ∈ t, c ≠ '\'' ∧ isPlain c = true) (rest : Text) :
    readLiteral (t ++ '\'' :: rest) = some (t, rest) := by
  induction t with
  | nil => rfl
  | cons c t ih =>
    obtain ⟨hmark, hplain⟩ := h c List.mem_cons_self
    rw [List.cons_append, readLiteral, if_neg hmark, if_pos hplain,
      ih fun d hd => h d (List.mem_cons_of_mem c hd)]
    rfl

/-- A text that suits a literal string holds plain characters only. -/
theorem isPlain_of_suitsLiteral {t : Text} (h : suitsLiteral t = true) :
    ∀ c ∈ t, c ≠ '\'' ∧ isPlain c = true := by
  intro c hc
  simp only [suitsLiteral, Bool.not_eq_true', List.any_eq_false] at h
  have hchar := h c hc
  simp only [Bool.or_eq_true, decide_eq_true_eq, not_or, Bool.not_eq_true] at hchar
  obtain ⟨⟨hcontrol, hmark⟩, hbreak⟩ := hchar
  exact ⟨hmark, (isPlain_of_isControl hcontrol).resolve_right hbreak⟩

/-- A string on one line reads back as its text. -/
theorem readLine?_basic (t rest : Text) : readLine? (basic t ++ rest) = some (t, rest) := by
  rw [basic, List.cons_append, List.cons_append, List.append_assoc]
  exact readBasic_basic t rest

theorem readLine?_literal {t : Text} (h : suitsLiteral t = true) (rest : Text) :
    readLine? ('\'' :: t ++ ['\''] ++ rest) = some (t, rest) := by
  rw [List.cons_append, List.cons_append, List.append_assoc]
  exact readLiteral_append (isPlain_of_suitsLiteral h) rest

/-! Keys -/

theorem readLine?_bare {c : Char} (h : isBare c = true) (t : Text) : readLine? (c :: t) = none := by
  unfold readLine?
  split
  · rename_i heq
    cases heq
    cases h
  · rename_i heq
    cases heq
    cases h
  · rfl

theorem readKey_of_readLine? {s : Text} {found : Text × Text} (h : readLine? s = some found) :
    readKey s = some found := by
  rw [readKey, h]

/-- A text reads back from the key that writes it, in front of a character that ends a bare key. -/
theorem readKey_quotedKey (t : Text) {rest : Text} (hrest : ∀ c, rest.head? = some c → isBare c = false) :
    readKey (quotedKey t ++ rest) = some (t, rest) := by
  unfold quotedKey
  split
  · rename_i hbare
    obtain ⟨hne, hall⟩ := hbare
    obtain ⟨c, s, rfl⟩ := List.exists_cons_of_ne_nil hne
    have hspan := Text.span_append (List.all_eq_true.1 hall) hrest
    have hline : readLine? (c :: s ++ rest) = none :=
      readLine?_bare (List.all_eq_true.1 hall c List.mem_cons_self) (s ++ rest)
    simp only [readKey, hline, hspan]
    rw [if_neg hne]
  split
  · exact readKey_of_readLine? (readLine?_basic t rest)
  split
  · rename_i hliteral
    exact readKey_of_readLine? (readLine?_literal hliteral rest)
  · exact readKey_of_readLine? (readLine?_basic t rest)

end StepScope.Toml
