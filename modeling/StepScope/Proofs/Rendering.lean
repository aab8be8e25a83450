import StepScope.Proofs.Classification
import StepScope.Renderer

/-!
When two values look the same. The text of a value tells its form, and within a form it tells the value,
but for a number that is written without a sign either way and for addresses that share a label and
both ends.
-/

namespace StepScope

namespace Surface

@[simp] theorem unescape_escape (t : Text) : unescape (escape .html t) = t := by
  rw [escape]
  induction t with
  | nil => rfl
  | cons c t ih => rw [List.flatMap_cons, unescape_entity_append, ih]

theorem escape_injective (s : Surface) : Function.Injective s.escape := by
  cases s with
  | plain => exact fun _ _ h => h
  | html => exact Function.LeftInverse.injective unescape_escape

end Surface

namespace Text

theorem isDigit_or_minus_of_mem_signedDecimal {n : Int} {c : Char} (h : c ∈ signedDecimal n) :
    c.isDigit = true ∨ c = '-' := by
  rw [signedDecimal] at h
  split at h
  · rcases List.mem_cons.1 h with h | h
    · exact .inr h
    · exact .inl (isDigit_of_mem_decimal h)
  · exact .inl (isDigit_of_mem_decimal h)

theorem not_mem_signedDecimal {c : Char} (h : ¬ (c.isDigit ∨ c = '-')) (n : Int) : c ∉ signedDecimal n :=
  fun hmem => h (isDigit_or_minus_of_mem_signedDecimal hmem)

/-- A numeral without a sign is that of the number itself. -/
theorem decimal_eq_signedDecimal_iff {m : Nat} {n : Int} :
    decimal m = signedDecimal n ↔ (m : Int) = n := by
  rw [signedDecimal]
  split
  · rename_i hneg
    constructor
    · intro h
      have hminus : '-' ∈ decimal m := h ▸ List.mem_cons_self
      exact absurd (isDigit_of_mem_decimal hminus) (by decide)
    · intro h
      omega
  · rename_i hnonneg
    rw [decimal_injective.eq_iff]
    omega

end Text

/-- The forms that the text of a value can have. -/
inductive Form
  | number
  /-- An address with a label. -/
  | named
  /-- An address in full. -/
  | full
  | packed
  | raw
  deriving DecidableEq

/-- The form of a text. A parenthesis closes numbers and names, and only names have an ellipsis; of the
other forms one begins with a quotation mark, and one has the length of an address. -/
def Form.ofText (t : Text) : Form :=
  if t.getLast? = some ')' then if '…' ∈ t then .named else .number
  else if t.head? = some '"' then .packed
  else if t.length = 42 then .full
  else .raw

namespace Renderer

variable {r : Renderer}

/-- The form in which a value is written. -/
inductive Formed (r : Renderer) : WordClass → Form → Prop
  | unsigned (n : UInt64) : Formed r (.unsigned n) .number
  | signed (n : Int64) : Formed r (.signed n) .number
  | named {a : Address} {label : Text} : r.nameOf? a = some label → Formed r (.address a) .named
  | full {a : Address} : r.nameOf? a = none → Formed r (.address a) .full
  | packed (p : PackedText) : Formed r (.packed p) .packed
  | raw (w : Word) : Formed r (.raw w) .raw

/-! The text of a value tells its form. -/

theorem ofText_number {decimal : Text} (h : ∀ c ∈ decimal, c.isDigit = true ∨ c = '-') (bits : UInt64) :
    Form.ofText (number decimal bits) = .number := by
  have hlast : (number decimal bits).getLast? = some ')' := by rw [number, List.getLast?_concat]
  have hellipsis : '…' ∉ number decimal bits := by
    intro hmem
    simp only [number, List.mem_append, List.mem_cons, List.not_mem_nil, or_false] at hmem
    rcases hmem with (((hmem | hmem) | hmem) | hmem) | hmem
    · exact absurd hmem (by decide)
    · exact absurd (h _ hmem) (by decide)
    · exact absurd hmem (by decide)
    · exact absurd (Text.isHexDigit_of_mem_hexadecimal hmem) (by decide)
    · exact absurd hmem (by decide)
  rw [Form.ofText, if_pos hlast, if_neg hellipsis]

theorem address_of_nameOf? {a : Address} {label : Text} (h : r.nameOf? a = some label) :
    r.address a = r.surface.escape label ++ "(0x".toList ++ a.abridged ++ [')'] := by
  rw [address, h]

theorem address_of_nameless {a : Address} (h : r.nameOf? a = none) : r.address a = a.text := by
  rw [address, h]

theorem ofText_named {a : Address} {label : Text} (h : r.nameOf? a = some label) :
    Form.ofText (r.address a) = .named := by
  have hellipsis : '…' ∈ a.abridged := List.mem_append_right _ List.mem_cons_self
  rw [address_of_nameOf? h, Form.ofText, List.getLast?_concat, if_pos rfl,
    if_pos (List.mem_append_left _ (List.mem_append_right _ hellipsis))]

/-- Digits never end in a parenthesis. -/
theorem getLast?_ne_of_forall {t : Text} (h : ∀ c ∈ t, Text.IsHexDigit c ∨ c = 'x') :
    t.getLast? ≠ some ')' :=
  fun hlast => absurd (h _ (List.mem_of_getLast? hlast)) (by decide)

theorem ofText_full (a : Address) : Form.ofText a.text = .full := by
  have hlast : a.text.getLast? ≠ some ')' := by
    refine getLast?_ne_of_forall fun c hc => ?_
    simp only [Address.text, List.mem_cons] at hc
    rcases hc with rfl | rfl | hc
    · exact .inl (by decide)
    · exact .inr rfl
    · exact .inl (Hex.isHexDigit_of_mem_ofBytes hc)
  have hlength : a.text.length = 42 := by
    rw [Address.text, List.length_cons, List.length_cons, Hex.length_ofBytes, a.length_toBytes]
  rw [Form.ofText, if_neg hlast, if_neg (by rw [Address.text, List.head?_cons]; decide),
    if_pos hlength]

/-- What follows the text of a packed value. -/
theorem isDigit_of_mem_counter {n : UInt8} {c : Char}
    (h : c ∈ if n = 0 then [] else " + ".toList ++ Text.decimal n.toNat) :
    c.isDigit = true ∨ c = ' ' ∨ c = '+' := by
  split at h
  · cases h
  · rcases List.mem_append.1 h with h | h
    · have hmark : ∀ c ∈ [' ', '+', ' '], c = ' ' ∨ c = '+' := by simp
      exact .inr (hmark c h)
    · exact .inl (Text.isDigit_of_mem_decimal h)

theorem ofText_packed (p : PackedText) : Form.ofText (r.packed p) = .packed := by
  have hlast : (r.packed p).getLast? ≠ some ')' := by
    rw [packed, List.getLast?_append_of_ne_nil _ (List.cons_ne_nil _ _)]
    intro hlast
    rcases List.mem_cons.1 (List.mem_of_getLast? hlast) with hmem | hmem
    · exact absurd hmem (by decide)
    · exact absurd (isDigit_of_mem_counter hmem) (by decide)
  rw [Form.ofText, if_neg hlast, packed, List.cons_append, List.head?_cons, if_pos rfl]

theorem ofText_raw (w : Word) : Form.ofText (Hex.ofBytes w.toBytes) = .raw := by
  have hdigits : ∀ c ∈ Hex.ofBytes w.toBytes, Text.IsHexDigit c :=
    fun c hc => Hex.isHexDigit_of_mem_ofBytes hc
  have hhead : (Hex.ofBytes w.toBytes).head? ≠ some '"' :=
    fun hhead => absurd (hdigits _ (List.mem_of_mem_head? hhead)) (by decide)
  have hlength : (Hex.ofBytes w.toBytes).length = 64 := by
    rw [Hex.length_ofBytes, w.length_toBytes]
  rw [Form.ofText, if_neg (getLast?_ne_of_forall fun c hc => .inl (hdigits c hc)), if_neg hhead,
    if_neg (by rw [hlength]; decide)]

theorem value_formed (r : Renderer) (v : WordClass) : Formed r v (Form.ofText (r.value v)) := by
  cases v with
  | unsigned n =>
    rw [value, ofText_number fun c hc => .inl (Text.isDigit_of_mem_decimal hc)]
    exact .unsigned n
  | signed n =>
    rw [value, ofText_number fun c hc => Text.isDigit_or_minus_of_mem_signedDecimal hc]
    exact .signed n
  | address a =>
    rw [value]
    cases hname : r.nameOf? a with
    | none =>
      rw [address_of_nameless hname, ofText_full]
      exact .full hname
    | some label =>
      rw [ofText_named hname]
      exact .named hname
  | packed p =>
    rw [value, ofText_packed]
    exact .packed p
  | raw w =>
    rw [value, ofText_raw]
    exact .raw w

/-! Within a form the text of a value tells the value, as far as it can. -/

theorem number_inj {d e : Text} {m n : UInt64} (hd : ' ' ∉ d) (he : ' ' ∉ e)
    (h : number d m = number e n) : d = e ∧ m = n := by
  have hblank : ∀ (t : Text) (k : UInt64), number t k =
      ' ' :: (t ++ ' ' :: ("(0x".toList ++ Text.hexadecimal k.toNat ++ [')'])) := by
    intro t k
    simp [number]
  rw [hblank, hblank, List.cons.injEq] at h
  obtain ⟨hde, hbits⟩ := Text.append_mark_inj hd he h.2
  have hmn := List.append_cancel_left (List.append_cancel_right hbits)
  exact ⟨hde, UInt64.toNat_inj.1 (Text.hexadecimal_injective hmn)⟩

/-- The signed reading of 64 bits is the unsigned one as long as the highest bit is clear. -/
theorem toNat_eq_toInt_iff (n : Int64) : (n.toUInt64.toNat : Int) = n.toInt ↔ n.toUInt64.toNat < 2 ^ 63 := by
  rw [WordClass.toInt_eq]
  split <;> omega

theorem address_inj {a b : Address} {label label' : Text} (ha : r.nameOf? a = some label)
    (hb : r.nameOf? b = some label') (h : r.address a = r.address b) :
    label = label' ∧ a.toBytes.take 2 = b.toBytes.take 2 ∧ a.toBytes.drop 18 = b.toBytes.drop 18 := by
  rw [address_of_nameOf? ha, address_of_nameOf? hb] at h
  have hlength : ∀ c : Address, (Hex.ofBytes (c.toBytes.take 2)).length = 4 ∧
      (Hex.ofBytes (c.toBytes.drop 18)).length = 4 := by
    intro c
    simp [Hex.length_ofBytes, Address.toBytes]
  have hclosed := List.append_cancel_right h
  have habridged : a.abridged.length = b.abridged.length := by
    simp only [Address.abridged, List.length_append, List.length_cons, (hlength a).1, (hlength a).2,
      (hlength b).1, (hlength b).2]
  obtain ⟨hfront, hends⟩ := List.append_inj' hclosed habridged
  rw [Address.abridged, Address.abridged] at hends
  obtain ⟨hfirst, hlast⟩ := List.append_inj hends ((hlength a).1.trans (hlength b).1.symm)
  rw [List.cons.injEq] at hlast
  exact ⟨r.surface.escape_injective (List.append_cancel_right hfront), Hex.ofBytes_injective hfirst,
    Hex.ofBytes_injective hlast.2⟩

theorem text_injective : Function.Injective Address.text := by
  intro a b h
  rw [Address.text, Address.text, List.cons.injEq, List.cons.injEq] at h
  exact Address.toBytes_injective (Hex.ofBytes_injective h.2.2)

theorem counter_inj {m n : UInt8}
    (h : (if m = 0 then [] else " + ".toList ++ Text.decimal m.toNat) =
      if n = 0 then [] else " + ".toList ++ Text.decimal n.toNat) : m = n := by
  split at h
  · rename_i hm
    split at h
    · rename_i hn
      rw [hm, hn]
    · cases h
  · split at h
    · cases h
    · exact UInt8.toNat_inj.1 (Text.decimal_injective (List.append_cancel_left h))

/-- A text may hold quotation marks of its own, but no counter does, so the last one ends the text. -/
theorem packed_injective (r : Renderer) : Function.Injective r.packed := by
  rintro ⟨t, m⟩ ⟨u, n⟩ h
  have hmark : ∀ k : UInt8, '"' ∉ if k = 0 then [] else " + ".toList ++ Text.decimal k.toNat :=
    fun k hmem => absurd (isDigit_of_mem_counter hmem) (by decide)
  rw [packed, packed] at h
  obtain ⟨htext, hcounter⟩ := Text.append_last_mark_inj (hmark m) (hmark n) h
  rw [List.cons.injEq] at htext
  exact PackedText.mk.injEq t m u n ▸ ⟨r.surface.escape_injective htext.2, counter_inj hcounter⟩

/-- The values are one number below `2 ^ 63`, once in a word of its own and once in one whose high bits
are set. -/
def SameNumber (v₁ v₂ : WordClass) : Prop :=
  ∃ n : Int64, n.toUInt64.toNat < 2 ^ 63 ∧
    (v₁ = .unsigned n.toUInt64 ∧ v₂ = .signed n ∨ v₁ = .signed n ∧ v₂ = .unsigned n.toUInt64)

/-- The values are addresses with the same label and the same ends. -/
def SameName (r : Renderer) (v₁ v₂ : WordClass) : Prop :=
  ∃ a b label, v₁ = .address a ∧ v₂ = .address b ∧ r.nameOf? a = some label ∧
    r.nameOf? b = some label ∧ a.toBytes.take 2 = b.toBytes.take 2 ∧
    a.toBytes.drop 18 = b.toBytes.drop 18

theorem number_unsigned_eq_signed_iff {m : UInt64} {n : Int64} :
    number (Text.decimal m.toNat) m = number (Text.signedDecimal n.toInt) n.toUInt64 ↔
      m = n.toUInt64 ∧ n.toUInt64.toNat < 2 ^ 63 := by
  constructor
  · intro h
    obtain ⟨hdecimal, rfl⟩ :=
      number_inj (Text.not_mem_decimal (by decide) _) (Text.not_mem_signedDecimal (by decide) _) h
    exact ⟨rfl, (toNat_eq_toInt_iff n).1 (Text.decimal_eq_signedDecimal_iff.1 hdecimal)⟩
  · rintro ⟨rfl, hlt⟩
    rw [Text.decimal_eq_signedDecimal_iff.2 ((toNat_eq_toInt_iff n).2 hlt)]

/-- Two values look the same exactly if they are the same, one number with and without its high bits
set, or addresses whose label and ends agree. -/
theorem value_eq_iff {v₁ v₂ : WordClass} :
    r.value v₁ = r.value v₂ ↔ v₁ = v₂ ∨ SameNumber v₁ v₂ ∨ r.SameName v₁ v₂ := by
  constructor
  · intro h
    have hform₁ := value_formed r v₁
    have hform₂ := value_formed r v₂
    rw [← h] at hform₂
    -- Both values have the form of the one text, so only the pairs of one form are left.
    generalize Form.ofText (r.value v₁) = form at hform₁ hform₂
    cases hform₁ with
    | unsigned m =>
      cases hform₂ with
      | unsigned n =>
        have hbits := number_inj (Text.not_mem_decimal (by decide) _) (Text.not_mem_decimal (by decide) _) h
        exact .inl (congrArg WordClass.unsigned hbits.2)
      | signed n =>
        obtain ⟨rfl, hlt⟩ := number_unsigned_eq_signed_iff.1 h
        exact .inr (.inl ⟨n, hlt, .inl ⟨rfl, rfl⟩⟩)
    | signed m =>
      cases hform₂ with
      | unsigned n =>
        obtain ⟨rfl, hlt⟩ := number_unsigned_eq_signed_iff.1 h.symm
        exact .inr (.inl ⟨m, hlt, .inr ⟨rfl, rfl⟩⟩)
      | signed n =>
        have hbits :=
          number_inj (Text.not_mem_signedDecimal (by decide) _) (Text.not_mem_signedDecimal (by decide) _) h
        exact .inl (congrArg WordClass.signed (congrArg UInt64.toInt64 hbits.2))
    | @named a label ha =>
      cases hform₂ with
      | @named b label' hb =>
        obtain ⟨rfl, hends⟩ := address_inj ha hb h
        exact .inr (.inr ⟨a, b, label, rfl, rfl, ha, hb, hends⟩)
    | full ha =>
      cases hform₂ with
      | full hb =>
        rw [value, value, address_of_nameless ha, address_of_nameless hb] at h
        exact .inl (congrArg WordClass.address (text_injective h))
    | packed p =>
      cases hform₂ with
      | packed q => exact .inl (congrArg WordClass.packed (r.packed_injective h))
    | raw w =>
      cases hform₂ with
      | raw x => exact .inl (congrArg WordClass.raw (Word.toBytes_injective (Hex.ofBytes_injective h)))
  · rintro (rfl | ⟨n, hlt, ⟨rfl, rfl⟩ | ⟨rfl, rfl⟩⟩ | ⟨a, b, label, rfl, rfl, ha, hb, hfirst, hlast⟩)
    · rfl
    · exact number_unsigned_eq_signed_iff.2 ⟨rfl, hlt⟩
    · exact (number_unsigned_eq_signed_iff.2 ⟨rfl, hlt⟩).symm
    · rw [value, value, address_of_nameOf? ha, address_of_nameOf? hb, Address.abridged,
        Address.abridged, hfirst, hlast]

/-- Words are one number once without and once with their high bits set. -/
theorem sameNumber_ofWord_iff {w₁ w₂ : Word} :
    SameNumber (.ofWord w₁) (.ofWord w₂) ↔ ∃ n < 2 ^ 63,
      w₁.toNat = n ∧ w₂.toNat = 2 ^ 256 - 2 ^ 64 + n ∨
        w₁.toNat = 2 ^ 256 - 2 ^ 64 + n ∧ w₂.toNat = n := by
  constructor
  · rintro ⟨n, hlt, ⟨h₁, h₂⟩ | ⟨h₁, h₂⟩⟩
    · cases WordClass.ofWord_eq_iff.1 h₁ with
      | unsigned hn₁ =>
        cases WordClass.ofWord_eq_iff.1 h₂ with
        | signed hn₂ => exact ⟨_, hlt, .inl ⟨hn₁, hn₂⟩⟩
    · cases WordClass.ofWord_eq_iff.1 h₁ with
      | signed hn₁ =>
        cases WordClass.ofWord_eq_iff.1 h₂ with
        | unsigned hn₂ => exact ⟨_, hlt, .inr ⟨hn₁, hn₂⟩⟩
  · rintro ⟨n, hlt, h⟩
    have hbits : (UInt64.ofNat n).toInt64.toUInt64.toNat = n :=
      UInt64.toNat_ofNat_of_lt' (Nat.lt_trans hlt (by decide))
    refine ⟨(UInt64.ofNat n).toInt64, hbits.symm ▸ hlt, h.imp ?_ ?_⟩
    · rintro ⟨h₁, h₂⟩
      exact ⟨WordClass.ofWord_eq_iff.2 (.unsigned (h₁.trans hbits.symm)),
        WordClass.ofWord_eq_iff.2 (.signed (by rw [h₂, hbits]))⟩
    · rintro ⟨h₁, h₂⟩
      exact ⟨WordClass.ofWord_eq_iff.2 (.signed (by rw [h₁, hbits])),
        WordClass.ofWord_eq_iff.2 (.unsigned (h₂.trans hbits.symm))⟩

theorem sameName_ofWord_iff {w₁ w₂ : Word} :
    r.SameName (.ofWord w₁) (.ofWord w₂) ↔
      (2 ^ 64 ≤ w₁.toNat ∧ w₁.toNat < 2 ^ 160) ∧ (2 ^ 64 ≤ w₂.toNat ∧ w₂.toNat < 2 ^ 160) ∧
        ∃ label, r.nameOf? w₁.toAddress = some label ∧ r.nameOf? w₂.toAddress = some label ∧
          w₁.toAddress.toBytes.take 2 = w₂.toAddress.toBytes.take 2 ∧
          w₁.toAddress.toBytes.drop 18 = w₂.toAddress.toBytes.drop 18 := by
  constructor
  · rintro ⟨a, b, label, h₁, h₂, hname⟩
    cases WordClass.ofWord_eq_iff.1 h₁ with
    | address hlow₁ hhigh₁ =>
      cases WordClass.ofWord_eq_iff.1 h₂ with
      | address hlow₂ hhigh₂ => exact ⟨⟨hlow₁, hhigh₁⟩, ⟨hlow₂, hhigh₂⟩, label, hname⟩
  · rintro ⟨⟨hlow₁, hhigh₁⟩, ⟨hlow₂, hhigh₂⟩, label, hname⟩
    exact ⟨_, _, label, WordClass.ofWord_eq_iff.2 (.address hlow₁ hhigh₁),
      WordClass.ofWord_eq_iff.2 (.address hlow₂ hhigh₂), hname⟩

/-- Two words look the same exactly if they are the same, one number below `2 ^ 63` once without and
once with its high bits set, or words of the size of an address whose label and ends agree. No label
makes an address look like a value of another kind, or like an address without one. -/
theorem word_eq_iff (r : Renderer) :
    (∀ w₁ w₂ : Word, r.word w₁ = r.word w₂ ↔
      w₁ = w₂ ∨
      (∃ n < 2 ^ 63, w₁.toNat = n ∧ w₂.toNat = 2 ^ 256 - 2 ^ 64 + n ∨
        w₁.toNat = 2 ^ 256 - 2 ^ 64 + n ∧ w₂.toNat = n) ∨
      (2 ^ 64 ≤ w₁.toNat ∧ w₁.toNat < 2 ^ 160) ∧ (2 ^ 64 ≤ w₂.toNat ∧ w₂.toNat < 2 ^ 160) ∧
        ∃ label, r.nameOf? w₁.toAddress = some label ∧ r.nameOf? w₂.toAddress = some label ∧
          w₁.toAddress.toBytes.take 2 = w₂.toAddress.toBytes.take 2 ∧
          w₁.toAddress.toBytes.drop 18 = w₂.toAddress.toBytes.drop 18) ∧
    ∀ a label v, r.nameOf? a = some label → r.value v = r.value (.address a) →
      ∃ b, v = .address b ∧ r.nameOf? b = some label := by
  constructor
  · intro w₁ w₂
    rw [word, word, value_eq_iff, WordClass.ofWord_injective.eq_iff, sameNumber_ofWord_iff,
      sameName_ofWord_iff]
  · intro a label v ha h
    rcases value_eq_iff.1 h with rfl | ⟨n, _, ⟨_, hn⟩ | ⟨_, hn⟩⟩ | ⟨b, a', label', rfl, ha', hb, hlabel, _⟩
    · exact ⟨a, rfl, ha⟩
    · cases hn
    · cases hn
    · cases ha'
      exact ⟨b, rfl, hb.trans (hlabel.symm.trans ha)⟩

end Renderer

end StepScope
