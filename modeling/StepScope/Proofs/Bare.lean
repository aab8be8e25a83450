import StepScope.Proofs.Hex
import StepScope.Proofs.Mnemonics
import StepScope.View

/-!
Text without markup. Numerals, mnemonics, addresses and hex dumps hold none of the characters that an
HTML display takes for markup, and neither do the panels that are made of them alone.
-/

namespace StepScope

/-- The characters that an HTML display takes for markup. -/
def markup : List Char := ['&', '<', '>', '"', '\'']

/-- A text that holds no markup. -/
def Text.Bare (t : Text) : Prop := ∀ c ∈ t, c ∉ markup

namespace Text

instance (t : Text) : Decidable (Bare t) := List.decidableBAll _ t

/-- A class of characters without markup makes bare text. -/
theorem bare_of_forall {p : Char → Bool} {t : Text} (hmarkup : markup.all (!p ·) = true)
    (h : ∀ c ∈ t, p c = true) : Bare t := by
  intro c hc hmem
  have hnot := List.all_eq_true.1 hmarkup c hmem
  rw [h c hc] at hnot
  cases hnot

@[simp] theorem bare_append {s t : Text} : Bare (s ++ t) ↔ Bare s ∧ Bare t := List.forall_mem_append

@[simp] theorem bare_cons {c : Char} {t : Text} : Bare (c :: t) ↔ c ∉ markup ∧ Bare t :=
  List.forall_mem_cons

@[simp] theorem bare_nil : Bare [] := List.forall_mem_nil _

theorem bare_flatten {parts : List Text} (h : ∀ t ∈ parts, Bare t) : Bare parts.flatten := by
  intro c hc
  obtain ⟨t, ht, hct⟩ := List.mem_flatten.1 hc
  exact h t ht c hct

theorem bare_flatMap {α : Type} {xs : List α} {f : α → Text} (h : ∀ x ∈ xs, Bare (f x)) :
    Bare (xs.flatMap f) := by
  intro c hc
  obtain ⟨x, hx, hcx⟩ := List.mem_flatMap.1 hc
  exact h x hx c hcx

theorem bare_of_isHexDigit {t : Text} (h : ∀ c ∈ t, IsHexDigit c) : Bare t :=
  bare_of_forall (p := fun c => decide (IsHexDigit c)) (by decide) fun c hc =>
    decide_eq_true (h c hc)

@[simp] theorem bare_decimal (n : Nat) : Bare (decimal n) :=
  bare_of_forall (p := Char.isDigit) (by decide) fun _ hc => isDigit_of_mem_decimal hc

@[simp] theorem bare_signedDecimal (n : Int) : Bare (signedDecimal n) := by
  rw [signedDecimal]
  split
  · exact bare_cons.2 ⟨by decide, bare_decimal _⟩
  · exact bare_decimal _

@[simp] theorem bare_hexadecimal (n : Nat) : Bare (hexadecimal n) :=
  bare_of_isHexDigit fun _ hc => isHexDigit_of_mem_hexadecimal hc

@[simp] theorem bare_offset (n : Nat) : Bare (offset n) :=
  bare_of_isHexDigit fun _ hc => isHexDigit_of_mem_offset hc

end Text

open Text (Bare)

@[simp] theorem Hex.bare_ofByte (b : UInt8) : Bare (Hex.ofByte b) :=
  Text.bare_of_isHexDigit fun _ hc => Hex.isHexDigit_of_mem_ofByte hc

@[simp] theorem Hex.bare_ofBytes (bytes : Bytes) : Bare (Hex.ofBytes bytes) :=
  Text.bare_of_isHexDigit fun _ hc => Hex.isHexDigit_of_mem_ofBytes hc

@[simp] theorem Address.bare_text (a : Address) : Bare a.text := by
  simp [Address.text, markup]

@[simp] theorem Address.bare_abridged (a : Address) : Bare a.abridged := by
  simp [Address.abridged, markup]

@[simp] theorem Opcode.bare_name (opcode : UInt8) : Bare (Opcode.name opcode) := by
  rw [Opcode.name]
  cases hname : Opcode.mnemonic? opcode with
  | none =>
    have hpad : Bare (List.replicate (2 - (Text.hexadecimal opcode.toNat).length) '0') := by
      intro c hc
      rw [List.eq_of_mem_replicate hc]
      decide
    simp [List.leftpad, hpad, markup]
  | some m =>
    exact Text.bare_of_forall (p := Opcode.isLetter) (by decide)
      fun _ hc => Opcode.isLetter_of_mem_mnemonic hname hc

theorem Renderer.bare_number {decimal : Text} (h : Bare decimal) (bits : UInt64) :
    Bare (Renderer.number decimal bits) := by
  simp [Renderer.number, h, markup]

theorem Renderer.bare_counter (n : UInt8) :
    Bare (if n = 0 then [] else " + ".toList ++ Text.decimal n.toNat) := by
  split
  · exact Text.bare_nil
  · simp [markup]

/-! Dumps and panels -/

theorem HexDump.bare_row (offset : Nat) (bytes : Bytes) : Bare (HexDump.row offset bytes) := by
  have hbytes : Bare (bytes.flatMap fun b => Hex.ofByte b ++ [' ']) :=
    Text.bare_flatMap fun b _ => by simp [markup]
  simp [HexDump.row, hbytes, markup]

theorem HexDump.bare_of_mem_rows {offset : Nat} {bytes : Bytes} {row : Text}
    (h : row ∈ HexDump.rows offset bytes) : Bare row := by
  fun_induction HexDump.rows offset bytes with
  | case1 offset => cases h
  | case2 offset b rest ih =>
    rcases List.mem_cons.1 h with rfl | h
    · exact HexDump.bare_row _ _
    · exact ih h

@[simp] theorem HexDump.bare_text (bytes : Bytes) : Bare (HexDump.text bytes) :=
  Text.bare_flatten fun _ hrow => HexDump.bare_of_mem_rows hrow

@[simp] theorem Outcome.bare_text (o : Outcome) : Bare o.text := by
  cases o with
  | outOfGas =>
    change Bare "OUT-OF-GAS".toList
    simp [markup]
  | returned data =>
    change Bare ("RETURN ".toList ++ HexDump.text data)
    simp [markup]
  | stopped =>
    change Bare "STOP".toList
    simp [markup]
  | selfDestructed beneficiary =>
    change Bare ("SUICIDE ".toList ++ beneficiary.text)
    simp [markup]
  | exception =>
    change Bare "EXCEPTION".toList
    simp [markup]

namespace View

variable (v : View)

@[simp] theorem bare_header : Bare v.header := by
  unfold header
  simp [markup]

@[simp] theorem bare_memory : Bare v.memory := HexDump.bare_text _

@[simp] theorem bare_callData : Bare v.callData := HexDump.bare_text _

theorem bare_of_mem_levels {line : Text} (h : line ∈ v.levels) : Bare line := by
  rcases List.mem_cons.1 h with rfl | h
  · exact Address.bare_abridged _
  · obtain ⟨caller, _, rfl⟩ := List.mem_map.1 h
    simp [markup]

@[simp] theorem bare_levels : Bare (v.levels.intersperse ['\n']).flatten := by
  have hlines : ∀ line ∈ v.levels, Bare line := fun _ hline => v.bare_of_mem_levels hline
  rw [levels] at hlines ⊢
  rw [Text.flatten_intersperse_cons, Text.bare_append]
  obtain ⟨hfirst, hcallers⟩ := List.forall_mem_cons.1 hlines
  refine ⟨hfirst, Text.bare_flatMap fun line hline => ?_⟩
  exact Text.bare_append.2 ⟨by decide, hcallers line hline⟩

end View

end StepScope
