import StepScope.Proofs.Mnemonics
import StepScope.Proofs.Rendering
import StepScope.View

/-!
Texts of lines. A word, a row of a dump and a frame take one line each, if no label of an address has a
line break in it, and lines are read off the text that is made of them.
-/

namespace StepScope

namespace Text

/-- Lines, each ended by a line break. -/
def ofLines (lines : List Text) : Text := lines.flatMap (· ++ ['\n'])

@[simp] theorem ofLines_nil : ofLines [] = [] := rfl

@[simp] theorem ofLines_cons (line : Text) (lines : List Text) :
    ofLines (line :: lines) = line ++ '\n' :: ofLines lines := by
  simp [ofLines]

theorem ofLines_append (ls ms : List Text) : ofLines (ls ++ ms) = ofLines ls ++ ofLines ms :=
  List.flatMap_append

/-- Rows of lines that are followed by the same line are told apart there, unless the line is in one of
them. -/
theorem ofLines_append_inj {mark s t : Text} {ls ms : List Text} (hmark : '\n' ∉ mark)
    (hls : ∀ l ∈ ls, '\n' ∉ l ∧ l ≠ mark) (hms : ∀ m ∈ ms, '\n' ∉ m ∧ m ≠ mark)
    (h : ofLines ls ++ (mark ++ '\n' :: s) = ofLines ms ++ (mark ++ '\n' :: t)) : ls = ms ∧ s = t := by
  induction ls generalizing ms with
  | nil =>
    cases ms with
    | nil => exact ⟨rfl, (append_mark_inj hmark hmark h).2⟩
    | cons m ms =>
      obtain ⟨⟨hm, hne⟩, _⟩ := List.forall_mem_cons.1 hms
      rw [ofLines_cons, List.append_assoc] at h
      exact absurd (append_mark_inj hmark hm h).1.symm hne
  | cons l ls ih =>
    obtain ⟨⟨hl, hne⟩, hls⟩ := List.forall_mem_cons.1 hls
    rw [ofLines_cons, List.append_assoc, List.cons_append] at h
    cases ms with
    | nil => exact absurd (append_mark_inj hl hmark h).1 hne
    | cons m ms =>
      obtain ⟨⟨hm, _⟩, hrows⟩ := List.forall_mem_cons.1 hms
      rw [ofLines_cons, List.append_assoc, List.cons_append] at h
      obtain ⟨rfl, hrest⟩ := append_mark_inj hl hm h
      obtain ⟨rfl, hst⟩ := ih hls hrows hrest
      exact ⟨rfl, hst⟩

/-- Lines are read off their text. -/
theorem ofLines_inj {ls ms : List Text} (hls : ∀ l ∈ ls, '\n' ∉ l) (hms : ∀ m ∈ ms, '\n' ∉ m)
    (h : ofLines ls = ofLines ms) : ls = ms := by
  induction ls generalizing ms with
  | nil =>
    cases ms with
    | nil => rfl
    | cons m ms => simp at h
  | cons l ls ih =>
    obtain ⟨hl, hls⟩ := List.forall_mem_cons.1 hls
    cases ms with
    | nil => simp at h
    | cons m ms =>
      obtain ⟨hm, hrows⟩ := List.forall_mem_cons.1 hms
      rw [ofLines_cons, ofLines_cons] at h
      obtain ⟨rfl, hrest⟩ := append_mark_inj hl hm h
      rw [ih hls hrows hrest]

theorem split_append_mark {mark : Char} {t : Text} (h : mark ∉ t) (s : Text) :
    split mark (t ++ mark :: s) = t :: split mark s := by
  induction t with
  | nil => rw [List.nil_append, split, if_pos rfl]
  | cons c t ih =>
    rw [List.mem_cons, not_or] at h
    rw [List.cons_append, split, if_neg (Ne.symm h.1), ih h.2]

/-- Splitting at line breaks gives the lines, and what follows the last line break is empty. -/
theorem split_ofLines {lines : List Text} (h : ∀ l ∈ lines, '\n' ∉ l) :
    split '\n' (ofLines lines) = lines ++ [[]] := by
  induction lines with
  | nil => rfl
  | cons l lines ih =>
    obtain ⟨hl, hlines⟩ := List.forall_mem_cons.1 h
    rw [ofLines_cons, split_append_mark hl, ih hlines, List.cons_append]

theorem getLast?_ofLines {lines : List Text} (h : lines ≠ []) :
    (ofLines lines).getLast? = some '\n' := by
  obtain ⟨ls, l, rfl⟩ := (List.eq_nil_or_concat' lines).resolve_left h
  rw [ofLines_append, ofLines_cons, ofLines_nil, ← List.append_assoc, List.getLast?_concat]

@[simp] theorem newline_not_mem_decimal (n : Nat) : '\n' ∉ decimal n :=
  not_mem_decimal (by decide) n

@[simp] theorem newline_not_mem_hexadecimal (n : Nat) : '\n' ∉ hexadecimal n :=
  not_mem_hexadecimal (by decide) n

end Text

open Text (ofLines)

@[simp] theorem Hex.newline_not_mem_ofBytes (bytes : Bytes) : '\n' ∉ Hex.ofBytes bytes :=
  Hex.not_mem_ofBytes (by decide) bytes

@[simp] theorem Address.newline_not_mem_abridged (a : Address) : '\n' ∉ a.abridged := by
  simp [abridged]

@[simp] theorem Address.newline_not_mem_text (a : Address) : '\n' ∉ a.text := by
  simp [text]

/-- The text of an address consists of digits behind its mark. -/
theorem Address.getLast?_text_ne (a : Address) : a.text.getLast? ≠ some ']' := by
  intro hlast
  have hmem := List.mem_of_getLast? hlast
  simp only [text, List.mem_cons] at hmem
  rcases hmem with hmem | hmem | hmem
  · exact absurd hmem (by decide)
  · exact absurd hmem (by decide)
  · exact absurd (Hex.isHexDigit_of_mem_ofBytes hmem) (by decide)

@[simp] theorem Opcode.newline_not_mem_name (opcode : UInt8) : '\n' ∉ Opcode.name opcode := by
  rw [Opcode.name]
  cases hname : Opcode.mnemonic? opcode with
  | none =>
    simp [List.leftpad, List.mem_replicate]
  | some m =>
    exact fun h => absurd (Opcode.isLetter_of_mem_mnemonic hname h) (by decide)

namespace Surface

theorem newline_not_mem_escape (s : Surface) {t : Text} (h : '\n' ∉ t) : '\n' ∉ s.escape t := by
  cases s with
  | plain => exact h
  | html =>
    intro hmem
    obtain ⟨c, hc, hentity⟩ := List.mem_flatMap.1 hmem
    have hne : c ≠ '\n' := fun heq => h (heq ▸ hc)
    unfold entity at hentity
    split at hentity
    · exact absurd hentity (by decide)
    split at hentity
    · exact absurd hentity (by decide)
    split at hentity
    · exact absurd hentity (by decide)
    split at hentity
    · exact absurd hentity (by decide)
    split at hentity
    · exact absurd hentity (by decide)
    · exact hne (List.mem_singleton.1 hentity).symm

theorem newline_not_mem_gap (s : Surface) : '\n' ∉ s.gap := by
  cases s <;> decide

end Surface

namespace Renderer

variable {r : Renderer}

/-- No label of the address book has a line break in it. -/
def OneLine (r : Renderer) : Prop := ∀ book ∈ r.book, ∀ e ∈ book.entries, '\n' ∉ e.2

theorem OneLine.label (h : r.OneLine) {a : Address} {label : Text} (hname : r.nameOf? a = some label) :
    '\n' ∉ label := by
  obtain ⟨book, hbook, hget⟩ := Option.bind_eq_some_iff.1 hname
  obtain ⟨e, hfind, rfl⟩ := Option.map_eq_some_iff.1 hget
  exact h book hbook e (List.mem_of_find?_eq_some hfind)

theorem newline_not_mem_number {decimal : Text} (h : '\n' ∉ decimal) (bits : UInt64) :
    '\n' ∉ number decimal bits := by
  simp [number, h]

theorem newline_not_mem_word (h : r.OneLine) (w : Word) : '\n' ∉ r.word w := by
  have hcanonical := (WordClass.ofWord_classified w).canonical
  rw [word]
  cases hclass : WordClass.ofWord w with
  | unsigned n => exact newline_not_mem_number (by simp) n
  | signed n => exact newline_not_mem_number (Text.not_mem_signedDecimal (by decide) _) _
  | address a =>
    rw [value]
    cases hname : r.nameOf? a with
    | none =>
      rw [address_of_nameless hname]
      exact a.newline_not_mem_text
    | some label =>
      rw [address_of_nameOf? hname]
      simp [r.surface.newline_not_mem_escape (h.label hname)]
  | packed p =>
    -- The characters of a packed text are printable, whatever the surface makes of them.
    rw [hclass] at hcanonical
    have htext : '\n' ∉ p.text := fun hmem => absurd (hcanonical.printable _ hmem).1 (by decide)
    rw [value, packed]
    simp [r.surface.newline_not_mem_escape htext]
  | raw w => exact Hex.newline_not_mem_ofBytes _

/-- A value ends in a parenthesis, a quotation mark or a digit. -/
theorem getLast?_value_ne (r : Renderer) (v : WordClass) : (r.value v).getLast? ≠ some ']' := by
  cases v with
  | unsigned n =>
    rw [value, number, List.getLast?_concat]
    decide
  | signed n =>
    rw [value, number, List.getLast?_concat]
    decide
  | address a =>
    rw [value]
    cases hname : r.nameOf? a with
    | none =>
      rw [address_of_nameless hname]
      exact a.getLast?_text_ne
    | some label =>
      rw [address_of_nameOf? hname, List.getLast?_concat]
      decide
  | packed p =>
    rw [value, packed, List.getLast?_append_of_ne_nil _ (List.cons_ne_nil _ _)]
    intro hlast
    rcases List.mem_cons.1 (List.mem_of_getLast? hlast) with hmem | hmem
    · exact absurd hmem (by decide)
    · exact absurd (isDigit_of_mem_counter hmem) (by decide)
  | raw w =>
    intro hlast
    exact absurd (Hex.isHexDigit_of_mem_ofBytes (List.mem_of_getLast? hlast)) (by decide)

theorem word_ne_nil (r : Renderer) (w : Word) : r.word w ≠ [] := by
  rw [word]
  cases WordClass.ofWord w with
  | unsigned n => simp [value, number]
  | signed n => simp [value, number]
  | address a =>
    rw [value, address]
    split <;> simp [Address.text]
  | packed p => simp [value, packed]
  | raw w =>
    refine List.ne_nil_of_length_pos ?_
    rw [value, Hex.length_ofBytes, Word.length_toBytes]
    decide

theorem stack_eq_ofLines (r : Renderer) (words : List Word) :
    r.stack words = ofLines (words.reverse.map r.word) := by
  rw [stack, ofLines, List.flatMap_map]

end Renderer

end StepScope
