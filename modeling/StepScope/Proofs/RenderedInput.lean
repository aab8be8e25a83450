import StepScope.Proofs.Rendering
import StepScope.Proofs.WordInput

/-!
Values as they are shown, taken for input. Digits, with a mark in front or without, are read as the word that is
shown; every other form has a parenthesis or a quotation mark in it, which no white space and no mark takes
away, and is refused for it. So no text is read as another word than the one it shows.
-/

namespace StepScope

namespace HexInput

variable {t s : Text} {c : Char}

/-- A character that is no white space and in no mark is part of what an input holds. -/
theorem Holds.mem (h : Holds t s) (hc : c ∈ t) (hblank : Text.isBlank c = false) (hmark : c ∉ ['0', 'x', 'X']) :
    c ∈ s := by
  obtain ⟨hfront, hback, hcore, hunmarked⟩ := h
  rename_i front core back
  have hcore : c ∈ core := by
    rcases List.mem_append.1 hc with hc | hc
    · exact absurd (hfront c hc) (by rw [hblank]; decide)
    rcases List.mem_append.1 hc with hc | hc
    · exact hc
    · exact absurd (hback c hc) (by rw [hblank]; decide)
  cases hunmarked with
  | plain => exact hcore
  | marked hletter =>
    simp only [List.mem_cons, List.not_mem_nil, or_false, not_or] at hmark hcore
    rcases hcore with rfl | rfl | hrest
    · exact absurd rfl hmark.1
    · exact absurd hletter (not_or.2 hmark.2)
    · exact hrest

/-- The input is refused for some byte that is no digit. -/
def Refused (t : Text) : Prop := ∃ b position, word t = .error (.invalidHex (.badDigit b position))

theorem Holds.refused (h : Holds t s) (hdigits : ¬ ∀ b ∈ Text.utf8 s, Hex.IsDigit b) : Refused t := by
  obtain ⟨b, position, hflaw⟩ := Hex.exists_firstFlaw fun hall => hdigits (forall_evened.1 hall)
  refine ⟨b, position, ?_⟩
  rw [word, h.bytes_eq_error hflaw]
  rfl

/-- A parenthesis or a quotation mark anywhere makes an input refused. -/
theorem refused_of_mem (hc : c ∈ t) (hforeign : c = ')' ∨ c = '"') : Refused t := by
  have hkind : c.toNat < 128 ∧ Text.isBlank c = false ∧ c ∉ ['0', 'x', 'X'] ∧
      ¬ Hex.IsDigit (UInt8.ofNat c.toNat) := by
    rcases hforeign with rfl | rfl <;> decide
  obtain ⟨hascii, hblank, hmark, hdigit⟩ := hkind
  have hholds : Holds t (Hex.dropMark (Text.trim t)) := holds_iff.2 rfl
  exact hholds.refused fun hall =>
    hdigit (hall _ (Text.mem_utf8_of_ascii (hholds.mem hc hblank hmark) hascii))

theorem Writes.word_eq {code : Bytes} (h : Writes code t) (hfits : code.length ≤ 32) :
    word t = .ok (Word.ofBytes code) := by
  rw [word, h.bytes_eq]
  exact if_neg (Nat.not_lt.2 hfits)

theorem writes_digits (code : Bytes) : Writes code (Hex.ofBytes code) := by
  have hwrites : Writes code ([] ++ ([] ++ Hex.ofBytes code ++ [])) :=
    .intro (List.forall_mem_nil _) (List.forall_mem_nil _) (by decide)
      (List.forall₂_same.2 fun _ _ => .inl rfl)
  rwa [List.append_nil] at hwrites

end HexInput

theorem Word.ofBytes_address (a : Address) : Word.ofBytes a.toBytes = a.setWidth 256 := by
  apply BitVec.eq_of_toNat_eq
  have hlength : a.toBytes.length ≤ 32 := by
    rw [a.length_toBytes]
    decide
  have hlt : a.toNat < 256 ^ 20 := a.isLt
  rw [Word.toNat_ofBytes hlength, Address.toBytes, BigEndian.number_bytes, Nat.mod_eq_of_lt hlt,
    BitVec.toNat_setWidth, Nat.mod_eq_of_lt (Nat.lt_trans a.isLt (by decide))]

namespace Renderer

open HexInput (Refused refused_of_mem)

variable {r : Renderer} {v : WordClass}

/-- The value is shown in digits: it is raw, or an address without a label. -/
inductive InDigits (r : Renderer) : WordClass → Prop
  | raw (w : Word) : InDigits r (.raw w)
  | address {a : Address} : r.nameOf? a = none → InDigits r (.address a)

theorem InDigits.read (h : r.InDigits v) : HexInput.word (r.value v) = .ok v.toWord := by
  cases h with
  | raw w =>
    have hlength : w.toBytes.length ≤ 32 := Nat.le_of_eq w.length_toBytes
    rw [value, (HexInput.writes_digits w.toBytes).word_eq hlength, Word.ofBytes_toBytes, WordClass.toWord]
  | @address a hname =>
    have hlength : a.toBytes.length ≤ 32 := by
      rw [a.length_toBytes]
      decide
    rw [value, address_of_nameless hname]
    exact ((HexInput.writes_ofBytes a.toBytes).word_eq hlength).trans (congrArg _ (Word.ofBytes_address a))

theorem parenthesis_mem_number (decimal : Text) (bits : UInt64) : ')' ∈ number decimal bits :=
  List.mem_append_right _ (List.mem_singleton_self _)

theorem refused_of_not_inDigits (h : ¬ r.InDigits v) : Refused (r.value v) := by
  cases v with
  | unsigned n => exact refused_of_mem (parenthesis_mem_number _ n) (.inl rfl)
  | signed n => exact refused_of_mem (parenthesis_mem_number _ n.toUInt64) (.inl rfl)
  | address a =>
    obtain ⟨label, hname⟩ := Option.ne_none_iff_exists'.1 fun hname => h (.address hname)
    rw [value, address_of_nameOf? hname]
    exact refused_of_mem (List.mem_append_right _ (List.mem_singleton_self _)) (.inl rfl)
  | packed p => exact refused_of_mem (c := '"') List.mem_cons_self (.inr rfl)
  | raw w => exact absurd (.raw w) h

/-- What is shown of a word is read as the word if it is shown in digits, and is refused for a byte that is no
digit if it is not: it is never read as another word, and never too long. -/
theorem read_of_shown (r : Renderer) (w : Word) :
    (∀ w', HexInput.word (r.word w) = .ok w' ↔ r.InDigits (.ofWord w) ∧ w' = w) ∧
    (Refused (r.word w) ↔ ¬ r.InDigits (.ofWord w)) ∧
    ∀ count, HexInput.word (r.word w) ≠ .error (.wordTooLong count) := by
  by_cases h : r.InDigits (.ofWord w)
  · have hread : HexInput.word (r.word w) = .ok w := h.read.trans (congrArg _ (WordClass.toWord_ofWord w))
    refine ⟨fun w' => ?_, iff_of_false ?_ (not_not_intro h), fun count => ?_⟩
    · rw [hread, Except.ok.injEq]
      exact ⟨fun heq => ⟨h, heq.symm⟩, fun h' => h'.2.symm⟩
    · rintro ⟨b, position, hrefused⟩
      rw [hread] at hrefused
      cases hrefused
    · rw [hread]
      nofun
  · have hrefused : Refused (r.word w) := refused_of_not_inDigits h
    refine ⟨fun w' => ?_, iff_of_true hrefused h, fun count => ?_⟩
    · obtain ⟨b, position, hread⟩ := hrefused
      rw [hread]
      exact ⟨nofun, fun h' => absurd h'.1 h⟩
    · obtain ⟨b, position, hread⟩ := hrefused
      rw [hread]
      nofun

/-- A label that reads like a word does not make its address one. -/
example : HexInput.word (word ⟨.plain, some (Keyed.ofList
    [(0x100000000000000000000000000000000000beef, "0x2a".toList)])⟩ 0x100000000000000000000000000000000000beef) =
      .error (.invalidHex (.badDigit 0x28 3)) := by
  decide +kernel

end Renderer

end StepScope
