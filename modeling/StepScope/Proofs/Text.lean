import Mathlib.Data.List.TakeDrop
import StepScope.Text.Hex

/-!
Texts that are put together can be taken apart: at a mark that the front does not hold, at the end of a
numeral, and from their UTF-8 bytes. A reading that goes well goes well at each of its steps.
-/

namespace StepScope.Text

/-- A front that satisfies a test is taken off whole, up to something that fails it. -/
theorem span_append {α : Type} {p : α → Bool} {front rest : List α}
    (hfront : ∀ c ∈ front, p c = true) (hrest : ∀ c, rest.head? = some c → p c = false) :
    (front ++ rest).span p = (front, rest) := by
  rw [List.span_eq_takeWhile_dropWhile, List.takeWhile_append_of_pos hfront,
    List.dropWhile_append_of_pos hfront]
  cases rest with
  | nil => simp only [List.takeWhile_nil, List.append_nil, List.dropWhile_nil]
  | cons c rest =>
    have hc := hrest c rfl
    simp only [List.takeWhile_cons, List.dropWhile_cons, hc, Bool.false_eq_true, if_false,
      List.append_nil]

theorem span_of_forall {p : Char → Bool} {t : Text} (h : ∀ c ∈ t, p c = true) :
    t.span p = (t, []) := by
  have hspan : (t ++ []).span p = (t, []) := span_append h (fun c hc => by cases hc)
  rwa [List.append_nil] at hspan

/-- What satisfies a test is told apart from what follows, if that fails the test from the start. -/
theorem append_stop_inj {α : Type} {p : α → Bool} {a b s t : List α} (ha : ∀ c ∈ a, p c = true)
    (hb : ∀ c ∈ b, p c = true) (hs : ∀ c, s.head? = some c → p c = false)
    (ht : ∀ c, t.head? = some c → p c = false) (h : a ++ s = b ++ t) : a = b ∧ s = t := by
  have hparts := congrArg (List.span p) h
  rw [span_append ha hs, span_append hb ht, Prod.mk.injEq] at hparts
  exact hparts

/-- Texts are told apart at the first mark, and so are rows of other things. -/
theorem append_mark_inj {α : Type} [DecidableEq α] {mark : α} {a b s t : List α} (ha : mark ∉ a)
    (hb : mark ∉ b) (h : a ++ mark :: s = b ++ mark :: t) : a = b ∧ s = t := by
  have hfront : ∀ {front : List α}, mark ∉ front → ∀ c ∈ front, decide (c ≠ mark) = true :=
    fun hfront c hc => decide_eq_true fun heq => hfront (heq ▸ hc)
  have hmark : ∀ (rest : List α) (c : α), (mark :: rest).head? = some c → decide (c ≠ mark) = false := by
    intro rest c hc
    cases hc
    exact decide_eq_false fun hne => hne rfl
  obtain ⟨hab, hst⟩ := append_stop_inj (hfront ha) (hfront hb) (hmark s) (hmark t) h
  exact ⟨hab, List.tail_eq_of_cons_eq hst⟩

/-- Texts are told apart at the last mark. -/
theorem append_last_mark_inj {mark : Char} {a b s t : Text} (hs : mark ∉ s) (ht : mark ∉ t)
    (h : a ++ mark :: s = b ++ mark :: t) : a = b ∧ s = t := by
  have hreversed := congrArg List.reverse h
  simp only [List.reverse_append, List.reverse_cons, List.append_assoc, List.singleton_append]
    at hreversed
  obtain ⟨hst, hab⟩ := append_mark_inj (by rwa [List.mem_reverse]) (by rwa [List.mem_reverse]) hreversed
  exact ⟨List.reverse_inj.1 hab, List.reverse_inj.1 hst⟩

/-- Texts with a separator between them: each but the first has the separator in front. -/
theorem flatten_intersperse_cons (separator t : Text) (ts : List Text) :
    ((t :: ts).intersperse separator).flatten = t ++ ts.flatMap (separator ++ ·) := by
  induction ts generalizing t with
  | nil => simp
  | cons u ts ih => rw [List.intersperse_cons_cons, List.flatten_cons, List.flatten_cons, ih,
      List.flatMap_cons, List.append_assoc]

/-! Numerals -/

theorem mem_toDigits {b n : Nat} (hb : 1 < b) {c : Char} (h : c ∈ Nat.toDigits b n) :
    ∃ d < b, Nat.digitChar d = c := by
  induction n using Nat.base_induction b hb with
  | single m hm =>
    rw [Nat.toDigits_of_lt_base hm, List.mem_singleton] at h
    exact ⟨m, hm, h.symm⟩
  | digit m k hk hm ih =>
    rw [← Nat.toDigits_append_toDigits hb hm hk, Nat.toDigits_of_lt_base hk, List.mem_append,
      List.mem_singleton] at h
    rcases h with h | h
    · exact ih h
    · exact ⟨k, hk, h.symm⟩

theorem isDigit_of_mem_decimal {n : Nat} {c : Char} (h : c ∈ decimal n) : c.isDigit = true :=
  Nat.isDigit_of_mem_toDigits (by decide) (by decide) h

theorem not_mem_decimal {c : Char} (h : ¬ c.isDigit) (n : Nat) : c ∉ decimal n :=
  fun hmem => h (isDigit_of_mem_decimal hmem)

theorem decimal_injective : Function.Injective decimal := by
  intro m n h
  have hread := congrArg (fun t => Nat.ofDigitChars 10 t 0) h
  simpa only [decimal, Nat.ofDigitChars_toDigits (by decide : 1 < 10) (Nat.le_refl 10)] using hread

/-- A lower-case digit of base sixteen. -/
def IsHexDigit (c : Char) : Prop := ∃ d < 16, Nat.digitChar d = c

instance : DecidablePred IsHexDigit := fun c =>
  inferInstanceAs (Decidable (∃ d < 16, Nat.digitChar d = c))

theorem isHexDigit_of_mem_hexadecimal {n : Nat} {c : Char} (h : c ∈ hexadecimal n) : IsHexDigit c :=
  mem_toDigits (by decide) h

theorem not_mem_hexadecimal {c : Char} (h : ¬ IsHexDigit c) (n : Nat) : c ∉ hexadecimal n :=
  fun hmem => h (isHexDigit_of_mem_hexadecimal hmem)

theorem isHexDigit_of_mem_offset {n : Nat} {c : Char} (h : c ∈ offset n) : IsHexDigit c := by
  rw [offset, List.leftpad, List.mem_append] at h
  rcases h with h | h
  · rw [List.eq_of_mem_replicate h]
    decide
  · exact isHexDigit_of_mem_hexadecimal h

end StepScope.Text

namespace StepScope.Hex

theorem digit?_digitChar {d : Nat} (h : d < 16) : digit? (Nat.digitChar d).toNat = some d := by
  revert d
  decide

/-- A digit at the end of a numeral counts once, all before it sixteen times. -/
theorem number?_append_digit {t : Text} {n d : Nat} (ht : number? t = some n) (hd : d < 16) :
    number? (t ++ [Nat.digitChar d]) = some (16 * n + d) := by
  obtain ⟨values, hvalues, rfl⟩ := Option.map_eq_some_iff.1 ht
  simp only [number?, List.mapM_append, hvalues, List.mapM_cons, List.mapM_nil, digit?_digitChar hd,
    Option.pure_def, Option.bind_eq_bind, Option.bind_some, Option.map_some, List.foldl_append,
    List.foldl_cons, List.foldl_nil]

@[simp] theorem number?_hexadecimal (n : Nat) : number? (Text.hexadecimal n) = some n := by
  rw [Text.hexadecimal]
  induction n using Nat.base_induction 16 (by decide) with
  | single m hm =>
    rw [Nat.toDigits_of_lt_base hm]
    simpa using number?_append_digit (t := []) rfl hm
  | digit m k hk hm ih =>
    rw [← Nat.toDigits_append_toDigits (by decide) hm hk, Nat.toDigits_of_lt_base hk]
    exact number?_append_digit ih hk

/-- Zeros in front of a numeral do not count. -/
theorem number?_zeros_append (count : Nat) (t : Text) :
    number? (List.replicate count '0' ++ t) = number? t := by
  induction count with
  | zero => rfl
  | succ count ih =>
    have hzero : digit? '0'.toNat = some 0 := rfl
    rw [← ih, List.replicate_succ, List.cons_append]
    simp only [number?, List.mapM_cons, hzero, Option.pure_def, Option.bind_eq_bind,
      Option.bind_some, Option.map_eq_bind, Option.bind_assoc, Function.comp_def]
    rfl

/-- A numeral reads back as the number on however many digits it is. -/
@[simp] theorem number?_leftpad (count n : Nat) :
    number? ((Text.hexadecimal n).leftpad count '0') = some n := by
  rw [List.leftpad, number?_zeros_append, number?_hexadecimal]

@[simp] theorem number?_offset (n : Nat) : number? (Text.offset n) = some n := number?_leftpad 4 n

end StepScope.Hex

namespace StepScope.Text

theorem hexadecimal_injective : Function.Injective hexadecimal := by
  intro m n h
  have hread := congrArg Hex.number? h
  rw [Hex.number?_hexadecimal, Hex.number?_hexadecimal] at hread
  exact Option.some.inj hread

/-! Bytes -/

/-- A character below 128 is one byte. -/
theorem utf8EncodeChar_of_lt {c : Char} (h : c.toNat < 128) :
    String.utf8EncodeChar c = [UInt8.ofNat c.toNat] := by
  apply String.utf8EncodeChar_eq_singleton
  rw [Char.utf8Size_eq_one_iff]
  exact Nat.le_of_lt_succ h

/-- The character with the code of a byte. -/
theorem toNat_ofNat_toNat (b : UInt8) : (Char.ofNat b.toNat).toNat = b.toNat := by
  have hb := b.toNat_lt
  have hvalid : b.toNat.isValidChar := .inl (by omega)
  rw [Char.ofNat, dif_pos hvalid]
  rfl

/-- The bytes of a text are read back as the text. -/
@[simp] theorem ofUtf8?_utf8 (t : Text) : ofUtf8? (utf8 t) = some t := by
  have hbytes : (utf8 t).toByteArray = (String.ofList t).toByteArray := by
    rw [String.toByteArray_ofList]
    rfl
  have hvalid : (utf8 t).toByteArray.IsValidUTF8 := hbytes ▸ (String.ofList t).isValidUTF8
  rw [ofUtf8?, String.fromUTF8?, dif_pos hvalid, Option.map_some, Option.some.injEq]
  have hstring : String.fromUTF8 (utf8 t).toByteArray hvalid = String.ofList t :=
    String.toByteArray_inj.1 hbytes
  rw [hstring, String.toList_ofList]

theorem utf8_of_ascii {bytes : Bytes} (h : ∀ b ∈ bytes, b.toNat < 128) :
    utf8 (bytes.map fun b => Char.ofNat b.toNat) = bytes := by
  induction bytes with
  | nil => rfl
  | cons b bytes ih =>
    rw [List.forall_mem_cons] at h
    have hencode := utf8EncodeChar_of_lt ((toNat_ofNat_toNat b).symm ▸ h.1)
    rw [toNat_ofNat_toNat, UInt8.ofNat_toNat] at hencode
    rw [List.map_cons, utf8, List.flatMap_cons, hencode, ← utf8, ih h.2]
    rfl

theorem mem_utf8_of_ascii {t : Text} {c : Char} (hc : c ∈ t) (hascii : c.toNat < 128) :
    UInt8.ofNat c.toNat ∈ utf8 t := by
  refine List.mem_flatMap.2 ⟨c, hc, ?_⟩
  rw [utf8EncodeChar_of_lt hascii]
  exact List.mem_singleton_self _

/-- If the bytes of a text are all ASCII, it is their characters. -/
theorem eq_map_of_ascii {t : Text} (h : ∀ b ∈ utf8 t, b.toNat < 128) :
    t = (utf8 t).map fun b => Char.ofNat b.toNat := by
  have hread := congrArg ofUtf8? (utf8_of_ascii h)
  rw [ofUtf8?_utf8, ofUtf8?_utf8] at hread
  exact (Option.some.inj hread).symm

end StepScope.Text

namespace StepScope

/-! Steps of a reading -/

theorem bind_eq_ok {ε α β : Type} {x : Except ε α} {f : α → Except ε β} {b : β}
    (h : x >>= f = .ok b) : ∃ a, x = .ok a ∧ f a = .ok b := by
  cases x with
  | error e => cases h
  | ok a => exact ⟨a, rfl, h⟩

theorem bind_eq_error {ε α β : Type} {x : Except ε α} {f : α → Except ε β} {e : ε}
    (h : x >>= f = .error e) : x = .error e ∨ ∃ a, x = .ok a ∧ f a = .error e := by
  cases x with
  | error e' =>
    cases h
    exact .inl rfl
  | ok a => exact .inr ⟨a, rfl, h⟩

theorem map_eq_ok {ε α β : Type} {x : Except ε α} {f : α → β} {b : β} (h : x.map f = .ok b) :
    ∃ a, x = .ok a ∧ f a = b := by
  cases x with
  | error e => cases h
  | ok a => exact ⟨a, rfl, Except.ok.inj h⟩

end StepScope
