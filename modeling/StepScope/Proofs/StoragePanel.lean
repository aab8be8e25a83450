import Mathlib.Data.List.Forall2
import StepScope.Proofs.Keyed
import StepScope.Proofs.Markup
import StepScope.Proofs.Numbers

/-!
Storage panels. Nothing separates the slots, but for HTML and without an address book a value holds the
signs that begin a slot and a gap only between quotation marks, and there an ampersand and a quotation mark
are entities. So the keys and the values are read off the panel one after the other.
-/

namespace StepScope

namespace Text

/-- A text in which no slot, no gap and no quotation begins. -/
def Undelimited (t : Text) : Prop := t.Bare ∧ '@' ∉ t

/-- What can stand behind a key or a value: a gap, a slot or nothing. -/
def Follows (t : Text) : Prop := ∀ c, t.head? = some c → c = '@' ∨ c = '&'

/-- A text that tells where it ends: one in which nothing begins, or one in quotation marks with such a
text behind it. -/
inductive Delimited : Text → Prop
  | plain {t : Text} : Undelimited t → Delimited t
  | quoted {body tail : Text} : '"' ∉ body → Undelimited tail → Delimited ('"' :: body ++ '"' :: tail)

variable {a b s t : Text}

theorem Undelimited.append_inj (ha : Undelimited a) (hb : Undelimited b) (hs : Follows s) (ht : Follows t)
    (h : a ++ s = b ++ t) : a = b ∧ s = t := by
  have hinside : ∀ {u : Text}, Undelimited u → ∀ c ∈ u, decide (c ∉ '@' :: markup) = true := by
    intro u hu c hc
    refine decide_eq_true fun hmem => ?_
    rcases List.mem_cons.1 hmem with rfl | hmem
    · exact hu.2 hc
    · exact hu.1 c hc hmem
  have hbehind : ∀ {u : Text}, Follows u → ∀ c, u.head? = some c → decide (c ∉ '@' :: markup) = false := by
    intro u hu c hc
    rcases hu c hc with rfl | rfl <;> decide
  exact append_stop_inj (hinside ha) (hinside hb) (hbehind hs) (hbehind ht) h

theorem Undelimited.append_ne_quoted (ha : Undelimited a) (hs : Follows s) : a ++ s ≠ '"' :: t := by
  intro h
  cases a with
  | nil => rcases hs '"' (congrArg List.head? h) with hc | hc <;> cases hc
  | cons c a =>
    obtain ⟨rfl, _⟩ := List.cons.inj h
    exact ha.1 '"' List.mem_cons_self (by decide)

/-- Texts that tell where they end are told apart from what follows. -/
theorem Delimited.append_inj (ha : Delimited a) (hb : Delimited b) (hs : Follows s) (ht : Follows t)
    (h : a ++ s = b ++ t) : a = b ∧ s = t := by
  cases ha with
  | plain ha =>
    cases hb with
    | plain hb => exact ha.append_inj hb hs ht h
    | quoted _ _ => exact absurd h (ha.append_ne_quoted hs)
  | quoted hbody htail =>
    cases hb with
    | plain hb => exact absurd h.symm (hb.append_ne_quoted ht)
    | quoted hbody' htail' =>
      simp only [List.cons_append, List.append_assoc, List.cons.injEq, true_and] at h
      obtain ⟨rfl, hrest⟩ := append_mark_inj hbody hbody' h
      obtain ⟨rfl, rfl⟩ := htail.append_inj htail' hs ht hrest
      exact ⟨rfl, rfl⟩

end Text

open Text (Undelimited Follows Delimited)

theorem Surface.quote_not_mem_escape (t : Text) : '"' ∉ escape .html t := by
  cases (Inert.of_escape t).quotes with
  | done hnone => exact hnone

namespace Renderer

theorem undelimited_number {decimal : Text} (hbare : decimal.Bare) (hat : '@' ∉ decimal) (bits : UInt64) :
    Undelimited (number decimal bits) := by
  have hbits : '@' ∉ Text.hexadecimal bits.toNat := Text.not_mem_hexadecimal (by decide) _
  exact ⟨bare_number hbare bits, by simp [number, hat, hbits]⟩

theorem undelimited_counter (n : UInt8) :
    Undelimited (if n = 0 then [] else " + ".toList ++ Text.decimal n.toNat) :=
  ⟨bare_counter n, fun h => absurd (isDigit_of_mem_counter h) (by decide)⟩

theorem delimited_value (v : WordClass) : Delimited (value ⟨.html, none⟩ v) := by
  cases v with
  | unsigned n => exact .plain (undelimited_number (Text.bare_decimal _) (Text.not_mem_decimal (by decide) _) n)
  | signed n =>
    exact .plain (undelimited_number (Text.bare_signedDecimal _) (Text.not_mem_signedDecimal (by decide) _) _)
  | address a =>
    rw [value, address_of_nameless rfl]
    have hdigits : '@' ∉ Hex.ofBytes a.toBytes := Hex.not_mem_ofBytes (by decide) _
    exact .plain ⟨a.bare_text, by simp [Address.text, hdigits]⟩
  | packed p => exact .quoted (Surface.quote_not_mem_escape p.text) (undelimited_counter p.increment)
  | raw w => exact .plain ⟨Hex.bare_ofBytes _, Hex.not_mem_ofBytes (by decide) _⟩

/-! Slots -/

variable {r r' : Renderer}

theorem storage_congr {slots : Keyed Word Word} (hsurface : r'.surface = r.surface)
    (h : ∀ e ∈ slots.entries, r.word e.1 = r'.word e.1 ∧ r.word e.2 = r'.word e.2) :
    r.storage slots = r'.storage slots := by
  rw [storage_eq, storage_eq]
  refine List.flatMap_congr fun e he => ?_
  rw [slot, slot, hsurface, (h e he).1, (h e he).2]

/-- The slots of two tables are shown in the same way, one after the other in the order of their keys. -/
def SameTexts (r : Renderer) (slots slots' : Keyed Word Word) : Prop :=
  List.Forall₂ (fun e f => r.word e.1 = r.word f.1 ∧ r.word e.2 = r.word f.2) slots.entries slots'.entries

variable {slots slots' : Keyed Word Word}

theorem SameTexts.storage_eq (h : SameTexts r slots slots') : r.storage slots = r.storage slots' := by
  rw [Renderer.storage_eq, Renderer.storage_eq]
  rw [SameTexts] at h
  generalize slots.entries = es at h
  generalize slots'.entries = fs at h
  induction h with
  | nil => rfl
  | cons hslot _ ih => rw [List.flatMap_cons, List.flatMap_cons, slot, slot, hslot.1, hslot.2, ih]

/-- The slots of a panel for HTML, each from its sign on. -/
def htmlSlots (es : List (Word × Word)) : Text := es.flatMap (slot ⟨.html, none⟩)

theorem htmlSlots_cons (e : Word × Word) (es : List (Word × Word)) :
    htmlSlots (e :: es) =
      '@' :: (word ⟨.html, none⟩ e.1 ++ (Surface.gap .html ++ (word ⟨.html, none⟩ e.2 ++ htmlSlots es))) := by
  simp only [htmlSlots, List.flatMap_cons, slot, List.cons_append, List.append_assoc]

theorem follows_htmlSlots (es : List (Word × Word)) : Follows (htmlSlots es) := by
  intro c hc
  cases es with
  | nil => cases hc
  | cons e es =>
    cases hc
    exact .inl rfl

theorem htmlSlots_inj {es fs : List (Word × Word)} (h : htmlSlots es = htmlSlots fs) :
    List.Forall₂ (fun e f => word ⟨.html, none⟩ e.1 = word ⟨.html, none⟩ f.1 ∧
      word ⟨.html, none⟩ e.2 = word ⟨.html, none⟩ f.2) es fs := by
  have hgap : ∀ rest, Follows (Surface.gap .html ++ rest) := by
    intro rest c hc
    cases hc
    exact .inr rfl
  have hword : ∀ w, Delimited (word ⟨.html, none⟩ w) := fun w => delimited_value (.ofWord w)
  induction es generalizing fs with
  | nil =>
    cases fs with
    | nil => exact .nil
    | cons f fs => cases h
  | cons e es ih =>
    cases fs with
    | nil => cases h
    | cons f fs =>
      rw [htmlSlots_cons, htmlSlots_cons, List.cons.injEq] at h
      -- The key ends at the gap, and the value at the next slot or the end.
      obtain ⟨hkey, hbehind⟩ := (hword e.1).append_inj (hword f.1) (hgap _) (hgap _) h.2
      obtain ⟨hvalue, hrest⟩ := (hword e.2).append_inj (hword f.2) (follows_htmlSlots es)
        (follows_htmlSlots fs) (List.append_cancel_left hbehind)
      exact .cons ⟨hkey, hvalue⟩ (ih hrest)

/-- Without names two words that look the same are the same, unless one of them is in the band. -/
theorem word_inj_of_not_inBand {w w' : Word} (hbook : r.book = none) (hw : ¬ WordClass.InBand w)
    (hw' : ¬ WordClass.InBand w') (h : r.word w = r.word w') : w = w' := by
  rcases value_eq_iff.1 h with hclass | hnumber | ⟨_, _, _, _, _, hname, _⟩
  · exact WordClass.ofWord_injective hclass
  · obtain ⟨n, hn, ⟨_, hband⟩ | ⟨hband, _⟩⟩ := sameNumber_ofWord_iff.1 hnumber
    · exact absurd ⟨by omega, by omega⟩ hw'
    · exact absurd ⟨by omega, by omega⟩ hw
  · rw [nameOf?, hbook] at hname
    cases hname

theorem SameTexts.eq (h : SameTexts r slots slots') (hbook : r.book = none)
    (hband : ∀ e ∈ slots.entries ++ slots'.entries, ¬ WordClass.InBand e.1 ∧ ¬ WordClass.InBand e.2) :
    slots = slots' := by
  obtain ⟨hlength, hpairs⟩ := List.forall₂_iff_zip.1 h
  have hsame : List.Forall₂ Eq slots.entries slots'.entries := by
    refine List.forall₂_iff_zip.2 ⟨hlength, fun {e f} hmem => ?_⟩
    obtain ⟨hkey, hvalue⟩ := hpairs hmem
    obtain ⟨he, hf⟩ := List.of_mem_zip hmem
    obtain ⟨hkey₁, hvalue₁⟩ := hband e (List.mem_append_left _ he)
    obtain ⟨hkey₂, hvalue₂⟩ := hband f (List.mem_append_right _ hf)
    exact Prod.ext (word_inj_of_not_inBand hbook hkey₁ hkey₂ hkey)
      (word_inj_of_not_inBand hbook hvalue₁ hvalue₂ hvalue)
  rw [List.forall₂_eq_eq_eq] at hsame
  exact Keyed.eq_of_perm (hsame ▸ .refl _)

/-- For HTML and without names two storage panels are the same exactly if they have the same number of slots
and show the same keys and values in the same order. If none of the words is in the band, the tables are
the same. -/
theorem storage_html_eq_iff (slots slots' : Keyed Word Word) :
    (storage ⟨.html, none⟩ slots = storage ⟨.html, none⟩ slots' ↔
      SameTexts ⟨.html, none⟩ slots slots') ∧
    ((∀ e ∈ slots.entries ++ slots'.entries, ¬ WordClass.InBand e.1 ∧ ¬ WordClass.InBand e.2) →
      storage ⟨.html, none⟩ slots = storage ⟨.html, none⟩ slots' → slots = slots') := by
  have hsame : storage ⟨.html, none⟩ slots = storage ⟨.html, none⟩ slots' →
      SameTexts ⟨.html, none⟩ slots slots' := by
    intro h
    rw [Renderer.storage_eq, Renderer.storage_eq] at h
    exact htmlSlots_inj h
  exact ⟨⟨hsame, fun h => h.storage_eq⟩, fun hband h => (hsame h).eq rfl hband⟩

/-- The packed text `@ 1 (0x1)"`, which reads like the next slot, behind one slot and in front of another. -/
def imitating : List (Word × Word) :=
  [(2, 0x4020312028307831292200000000000000000000000000000000000000000000), (1, 5)]

theorem storage_html_eq_iff_imitating :
    (∀ e ∈ (Keyed.ofList imitating).entries ++ (Keyed.ofList imitating.reverse).entries,
      ¬ WordClass.InBand e.1 ∧ ¬ WordClass.InBand e.2) ∧
    storage ⟨.html, none⟩ (Keyed.ofList imitating) =
      storage ⟨.html, none⟩ (Keyed.ofList imitating.reverse) ∧
    Keyed.ofList imitating = Keyed.ofList imitating.reverse := by
  have hall : (((Keyed.ofList imitating).entries ++ (Keyed.ofList imitating.reverse).entries).all
      fun e => ¬ WordClass.InBand e.1 ∧ ¬ WordClass.InBand e.2) = true := by
    decide +kernel
  have hband : ∀ e ∈ (Keyed.ofList imitating).entries ++ (Keyed.ofList imitating.reverse).entries,
      ¬ WordClass.InBand e.1 ∧ ¬ WordClass.InBand e.2 :=
    fun e he => of_decide_eq_true (List.all_eq_true.1 hall e he)
  have htext : storage ⟨.html, none⟩ (Keyed.ofList imitating) =
      storage ⟨.html, none⟩ (Keyed.ofList imitating.reverse) := by
    rw [Renderer.storage_eq, Renderer.storage_eq]
    decide +kernel
  exact ⟨hband, htext, (storage_html_eq_iff _ _).2 hband htext⟩

end Renderer

end StepScope
