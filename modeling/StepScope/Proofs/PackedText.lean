import Mathlib.Data.List.Basic
import StepScope.WordClass
import StepScope.Proofs.Hex

/-!
Packed texts and the bytes of words determine each other: packing a decoded text restores the bytes, and
a text that fits a word is decoded from it.
-/

namespace StepScope.PackedText

/-- Bytes that are read as characters are written as the same bytes. -/
theorem bytes_of_text (text : Bytes) :
    (text.map fun b => Char.ofNat b.toNat).map (fun c => UInt8.ofNat c.toNat) = text := by
  rw [List.map_map]
  refine (List.map_congr_left fun b _ => ?_).trans (List.map_id text)
  rw [Function.comp_apply, Text.toNat_ofNat_toNat, UInt8.ofNat_toNat]
  rfl

/-- All of the text that is read is in the bytes in front of the first zero. -/
structure Decoded (bytes : Bytes) (p : PackedText) : Prop where
  ne_nil : bytes.takeWhile (· ≠ 0) ≠ []
  zeros : ∀ b ∈ (bytes.dropWhile (· ≠ 0)).dropLast, b = 0
  printable : ∀ b ∈ bytes.takeWhile (· ≠ 0), isCharacter b = true
  text : p.text = (bytes.takeWhile (· ≠ 0)).map fun b => Char.ofNat b.toNat
  increment : p.increment = (bytes.dropWhile (· ≠ 0)).getLastD 0

theorem decode?_eq_some_iff {bytes : Bytes} {p : PackedText} :
    decode? bytes = some p ↔ Decoded bytes p := by
  constructor
  · intro h
    unfold decode? at h
    dsimp only at h
    split at h
    · cases h
    · rename_i hne
      split at h
      · cases h
      · rename_i hzeros
        split at h
        · cases h
        · rename_i hprintable
          cases h
          refine ⟨hne, ?_, ?_, rfl, rfl⟩
          · simpa using hzeros
          · simpa using hprintable
  · rintro ⟨hne, hzeros, hprintable, htext, hincrement⟩
    have hany : (bytes.dropWhile (· ≠ 0)).dropLast.any (· ≠ 0) = false := by
      simpa using hzeros
    have hall : (bytes.takeWhile (· ≠ 0)).all isCharacter = true := List.all_eq_true.2 hprintable
    rw [decode?, if_neg hne, if_neg (by rw [hany]; exact Bool.false_ne_true),
      if_neg (by rw [hall]; exact Bool.false_ne_true), ← htext, ← hincrement]

/-- Packing the text that is read from a word's bytes restores them. -/
theorem encode_of_decode? {bytes : Bytes} {p : PackedText} (hlen : bytes.length = 32)
    (h : decode? bytes = some p) : p.encode = bytes := by
  obtain ⟨_, hzeros, _, htext, hincrement⟩ := decode?_eq_some_iff.1 h
  have hsplit := List.takeWhile_append_dropWhile (p := (· ≠ 0)) (l := bytes)
  generalize bytes.takeWhile (· ≠ 0) = text at *
  generalize bytes.dropWhile (· ≠ 0) = rest at *
  have hlength : p.text.length = text.length := by rw [htext, List.length_map]
  have htotal : text.length + rest.length = 32 := by rw [← List.length_append, hsplit, hlen]
  have hfilled : p.text.map (fun c => UInt8.ofNat c.toNat) ++ List.replicate (32 - p.text.length) 0 =
      text ++ List.replicate rest.length 0 := by
    rw [hlength, htext, bytes_of_text, show 32 - text.length = rest.length by omega]
  rw [encode, hfilled, ← hsplit]
  rcases List.eq_nil_or_concat' rest with rfl | ⟨front, last, rfl⟩
  · rw [if_pos (show p.increment = 0 from hincrement)]
    rfl
  · rw [List.dropLast_concat] at hzeros
    rw [List.getLastD_concat] at hincrement
    have hfront : front = List.replicate front.length 0 := List.eq_replicate_of_mem hzeros
    rw [List.length_append, List.length_singleton] at htotal ⊢
    split
    · rename_i hnone
      rw [List.replicate_succ', ← hfront, ← hincrement, hnone]
    · rw [List.replicate_succ', ← hfront, ← List.append_assoc, ← hincrement,
        List.take_left' (by rw [List.length_append]; omega), List.append_assoc]

/-! Which packed texts a word has room for -/

/-- A packed text that fits a word: a counter takes the last byte, and a zero has to stand before it. -/
structure Fits (p : PackedText) : Prop where
  ne_nil : p.text ≠ []
  printable : ∀ c ∈ p.text, 0x20 ≤ c.toNat ∧ c.toNat ≤ 0x7f
  length_le : p.text.length ≤ 32
  room : p.increment ≠ 0 → p.text.length ≤ 30

theorem fits_of_decode? {bytes : Bytes} {p : PackedText} (hlen : bytes.length = 32)
    (h : decode? bytes = some p) : p.Fits := by
  obtain ⟨hne, _, hprintable, htext, hincrement⟩ := decode?_eq_some_iff.1 h
  have hsplit := List.takeWhile_append_dropWhile (p := (· ≠ 0)) (l := bytes)
  have hhead := List.head?_dropWhile_not (· ≠ 0) bytes
  generalize bytes.takeWhile (· ≠ 0) = text at *
  generalize bytes.dropWhile (· ≠ 0) = rest at *
  have hlength : p.text.length = text.length := by rw [htext, List.length_map]
  have htotal : text.length + rest.length = 32 := by rw [← List.length_append, hsplit, hlen]
  refine ⟨by simpa [htext] using hne, ?_, by omega, fun hcounter => ?_⟩
  · rw [htext]
    refine List.forall_mem_map.2 fun b hb => ?_
    have hcharacter := hprintable b hb
    simp only [isCharacter, Bool.and_eq_true, decide_eq_true_eq] at hcharacter
    rwa [Text.toNat_ofNat_toNat]
  · -- The zero that ends the text is not the counter.
    match rest with
    | [] => exact absurd hincrement hcounter
    | [b] =>
      simp at hhead
      exact absurd (hincrement.trans hhead) hcounter
    | _ :: _ :: _ =>
      simp only [List.length_cons] at htotal
      omega

theorem isCharacter_ofNat {c : Char} (h : 0x20 ≤ c.toNat ∧ c.toNat ≤ 0x7f) :
    isCharacter (UInt8.ofNat c.toNat) = true := by
  simp only [isCharacter, Bool.and_eq_true, decide_eq_true_eq]
  rw [UInt8.toNat_ofNat_of_lt' (show c.toNat < UInt8.size by simp only [UInt8.size]; omega)]
  exact h

theorem ne_zero_of_isCharacter {b : UInt8} (h : isCharacter b = true) : b ≠ 0 := by
  rintro rfl
  cases h

theorem char_ofNat {c : Char} (h : c.toNat ≤ 0x7f) :
    Char.ofNat (UInt8.ofNat c.toNat).toNat = c := by
  rw [UInt8.toNat_ofNat_of_lt' (show c.toNat < UInt8.size by simp only [UInt8.size]; omega)]
  exact Char.ofNat_toNat c

/-- The text of a word that it fits, followed by zeros and the counter. -/
theorem Fits.encode_eq {p : PackedText} (h : p.Fits) :
    ∃ count, p.encode = p.text.map (fun c => UInt8.ofNat c.toNat) ++
        (List.replicate count 0 ++ if p.increment = 0 then [] else [p.increment]) ∧
      (p.increment ≠ 0 → 0 < count) := by
  have hlength := h.length_le
  rw [encode]
  by_cases hcounter : p.increment = 0
  · refine ⟨32 - p.text.length, ?_, absurd hcounter⟩
    rw [if_pos hcounter, if_pos hcounter, List.append_nil]
  · have hroom := h.room hcounter
    refine ⟨31 - p.text.length, ?_, fun _ => by omega⟩
    have htake : min (31 - p.text.length) (32 - p.text.length) = 31 - p.text.length := by omega
    rw [if_neg hcounter, if_neg hcounter, List.take_append, List.length_map, List.take_of_length_le,
      List.take_replicate, htake, List.append_assoc]
    rw [List.length_map]
    omega

theorem Fits.length_encode {p : PackedText} (h : p.Fits) : p.encode.length = 32 := by
  have hlength := h.length_le
  rw [encode]
  split <;> simp <;> omega

/-- What fits a word is read back from it. -/
theorem Fits.decode?_encode {p : PackedText} (h : p.Fits) : decode? p.encode = some p := by
  obtain ⟨count, hencode, hcount⟩ := h.encode_eq
  have hcharacter : ∀ b ∈ p.text.map (fun c => UInt8.ofNat c.toNat), isCharacter b = true :=
    List.forall_mem_map.2 fun c hc => isCharacter_ofNat (h.printable c hc)
  have htext : (p.text.map fun c => UInt8.ofNat c.toNat).map (fun b => Char.ofNat b.toNat) = p.text := by
    rw [List.map_map]
    exact (List.map_congr_left fun c hc => char_ofNat (h.printable c hc).2).trans (List.map_id _)
  have hzero : ∀ b, (List.replicate count (0 : UInt8) ++
      if p.increment = 0 then [] else [p.increment]).head? = some b → decide (b ≠ 0) = false := by
    intro b hb
    cases count with
    | zero =>
      have hcounter : p.increment = 0 := by
        by_contra hcounter
        exact absurd (hcount hcounter) (Nat.lt_irrefl 0)
      rw [if_pos hcounter] at hb
      cases hb
    | succ count =>
      cases hb
      rfl
  have hspan := Text.span_append
    (fun b hb => decide_eq_true (ne_zero_of_isCharacter (hcharacter b hb))) hzero
  rw [← hencode, List.span_eq_takeWhile_dropWhile, Prod.mk.injEq] at hspan
  refine decode?_eq_some_iff.2 ⟨?_, ?_, ?_, ?_, ?_⟩
  · rw [hspan.1]
    simpa using h.ne_nil
  · rw [hspan.2]
    intro b hb
    split at hb
    · rw [List.append_nil] at hb
      exact List.eq_of_mem_replicate (List.dropLast_subset _ hb)
    · rw [List.dropLast_concat] at hb
      exact List.eq_of_mem_replicate hb
  · rw [hspan.1]
    exact hcharacter
  · rw [hspan.1, htext]
  · rw [hspan.2]
    split
    · rename_i hcounter
      rw [List.append_nil, hcounter]
      cases count with
      | zero => rfl
      | succ count => rw [List.replicate_succ', List.getLastD_concat]
    · rw [List.getLastD_concat]

/-- The bytes of a word hold a packed text exactly if they are how it is written. -/
theorem decode?_eq_some_iff_encode {bytes : Bytes} {p : PackedText} (hlen : bytes.length = 32) :
    decode? bytes = some p ↔ p.Fits ∧ p.encode = bytes := by
  constructor
  · intro h
    exact ⟨fits_of_decode? hlen h, encode_of_decode? hlen h⟩
  · rintro ⟨hfits, rfl⟩
    exact hfits.decode?_encode

/-! The packing format -/

/-- The bytes of a text, one for each character. -/
def textBytes (text : Text) : Bytes := text.map fun c => UInt8.ofNat c.toNat

/-- How a text is packed into the 32 bytes of a word. -/
inductive Packs : PackedText → Bytes → Prop
  /-- Without a counter zeros take all the places that the text leaves. -/
  | plain {text : Text} {zeros : Nat} : text ≠ [] →
      (∀ c ∈ text, 0x20 ≤ c.toNat ∧ c.toNat ≤ 0x7f) → text.length + zeros = 32 →
      Packs ⟨text, 0⟩ (textBytes text ++ List.replicate zeros 0)
  /-- A counter takes the last place, and at least one zero stands between it and the text. -/
  | counted {text : Text} {zeros : Nat} {increment : UInt8} : text ≠ [] →
      (∀ c ∈ text, 0x20 ≤ c.toNat ∧ c.toNat ≤ 0x7f) → increment ≠ 0 → 0 < zeros →
      text.length + zeros = 31 →
      Packs ⟨text, increment⟩ (textBytes text ++ (List.replicate zeros 0 ++ [increment]))

theorem length_textBytes (text : Text) : (textBytes text).length = text.length := List.length_map _

theorem Packs.fits {bytes : Bytes} {p : PackedText} (h : Packs p bytes) : p.Fits := by
  cases h with
  | plain hne hprintable hlength =>
    exact { ne_nil := hne, printable := hprintable, length_le := by dsimp only; omega, room := absurd rfl }
  | counted hne hprintable _ hzeros hlength =>
    exact {
      ne_nil := hne
      printable := hprintable
      length_le := by dsimp only; omega
      room := fun _ => by dsimp only; omega }

theorem Packs.encode_eq {bytes : Bytes} {p : PackedText} (h : Packs p bytes) : p.encode = bytes := by
  cases h with
  | @plain text zeros _ _ hlength =>
    have hfilled : 32 - text.length = zeros := by omega
    rw [encode, if_pos rfl, ← textBytes, hfilled]
  | @counted text zeros increment _ _ hcounter hzeros hlength =>
    have hfilled : 32 - text.length = zeros + 1 := by omega
    have htake : (textBytes text ++ List.replicate (zeros + 1) 0).take 31 =
        textBytes text ++ List.replicate zeros 0 := by
      rw [List.replicate_succ', ← List.append_assoc, List.take_left']
      rw [List.length_append, length_textBytes, List.length_replicate, hlength]
    rw [encode, if_neg hcounter, ← textBytes, hfilled, htake, List.append_assoc]

theorem Fits.packs {p : PackedText} (h : p.Fits) : Packs p p.encode := by
  obtain ⟨count, hencode, hcount⟩ := h.encode_eq
  have hlength := h.length_encode
  obtain ⟨text, increment⟩ := p
  rw [← textBytes] at hencode
  dsimp only at hencode hcount
  rw [hencode, List.length_append, length_textBytes] at hlength
  rw [hencode]
  by_cases hcounter : increment = 0
  · subst hcounter
    rw [if_pos rfl, List.append_nil] at hlength ⊢
    rw [List.length_replicate] at hlength
    exact .plain h.ne_nil h.printable hlength
  · rw [if_neg hcounter] at hlength ⊢
    rw [List.length_append, List.length_replicate, List.length_singleton] at hlength
    exact .counted h.ne_nil h.printable hcounter (hcount hcounter) (by omega)

theorem packs_iff {bytes : Bytes} {p : PackedText} : Packs p bytes ↔ p.Fits ∧ p.encode = bytes := by
  constructor
  · intro h
    exact ⟨h.fits, h.encode_eq⟩
  · rintro ⟨hfits, rfl⟩
    exact hfits.packs

/-- A packed text is decoded from exactly those 32 bytes that the format gives for it. So no bytes have two
readings, bytes of no such form have none, and packing and decoding undo each other. -/
theorem decode?_iff_packs {bytes : Bytes} (hlen : bytes.length = 32) :
    (∀ p, decode? bytes = some p ↔ Packs p bytes) ∧
    (decode? bytes = none ↔ ¬ ∃ p, Packs p bytes) ∧
    (∀ p q, Packs p bytes → Packs q bytes → p = q) ∧
    (∀ p, decode? bytes = some p → p.encode = bytes) ∧
    ∀ p, Packs p bytes → decode? p.encode = some p := by
  have hdecode : ∀ p, decode? bytes = some p ↔ Packs p bytes :=
    fun p => (decode?_eq_some_iff_encode hlen).trans packs_iff.symm
  refine ⟨hdecode, ?_, ?_, fun p => encode_of_decode? hlen, fun p h => h.fits.decode?_encode⟩
  · rw [Option.eq_none_iff_forall_ne_some]
    exact ⟨fun h ⟨p, hp⟩ => h p ((hdecode p).2 hp), fun h p hp => h ⟨p, (hdecode p).1 hp⟩⟩
  · intro p q hp hq
    exact Option.some.inj (((hdecode p).2 hp).symm.trans ((hdecode q).2 hq))

/-- The longest text that leaves room for a counter. -/
theorem decode?_iff_packs_thirty :
    (List.replicate 30 0x61 ++ [0, 5]).length = 32 ∧
      decode? (List.replicate 30 0x61 ++ [0, 5]) = some ⟨List.replicate 30 'a', 5⟩ := by
  have hlen : (List.replicate 30 0x61 ++ [0, 5]).length = 32 := rfl
  have hprintable : ∀ c ∈ List.replicate 30 'a', 0x20 ≤ c.toNat ∧ c.toNat ≤ 0x7f := by
    intro c hc
    rw [List.eq_of_mem_replicate hc]
    decide
  refine ⟨hlen, ((decode?_iff_packs hlen).1 _).2 ?_⟩
  exact @Packs.counted (List.replicate 30 'a') 1 5 (List.cons_ne_nil _ _) hprintable (by decide)
    Nat.one_pos rfl

end StepScope.PackedText
