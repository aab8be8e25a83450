import Mathlib.Algebra.Group.Int.Defs
import StepScope.Proofs.PackedText

/-!
The kinds of words, each with the range of the words that are taken for it. Whatever a word is taken
for, the word is known from it.
-/

namespace StepScope.WordClass

/-- What a word is taken for, with what decides it. -/
inductive Classified (w : Word) : WordClass → Prop
  | unsigned {n : UInt64} : w.toNat = n.toNat → Classified w (.unsigned n)
  | signed {n : Int64} : w.toNat = 2 ^ 256 - 2 ^ 64 + n.toUInt64.toNat → Classified w (.signed n)
  | address : 2 ^ 64 ≤ w.toNat → w.toNat < 2 ^ 160 → Classified w (.address w.toAddress)
  | packed {p : PackedText} : 2 ^ 160 ≤ w.toNat → w.toNat < 2 ^ 256 - 2 ^ 64 →
      PackedText.decode? w.toBytes = some p → Classified w (.packed p)
  | raw : 2 ^ 160 ≤ w.toNat → w.toNat < 2 ^ 256 - 2 ^ 64 →
      PackedText.decode? w.toBytes = none → Classified w (.raw w)

/-- The signed reading of 64 bits. -/
theorem toInt_eq (n : Int64) :
    n.toInt = if n.toUInt64.toNat < 2 ^ 63 then (n.toUInt64.toNat : Int) else n.toUInt64.toNat - 2 ^ 64 := by
  have hbits : n.toUInt64.toNat = n.toBitVec.toNat := rfl
  have hlt := n.toBitVec.isLt
  rw [hbits, Int64.toInt, BitVec.toInt_eq_toNat_cond]
  split <;> split <;> omega

theorem ofWord_eq (w : Word) :
    ofWord w =
      if w.toNat < 2 ^ 64 then .unsigned (UInt64.ofNat w.toNat)
      else if 2 ^ 256 - 2 ^ 64 ≤ w.toNat then .signed (UInt64.ofNat w.toNat).toInt64
      else if w.toNat < 2 ^ 160 then .address w.toAddress
      else match PackedText.decode? w.toBytes with
        | some p => .packed p
        | none => .raw w := rfl

theorem ofWord_classified (w : Word) : Classified w (ofWord w) := by
  have hw := w.isLt
  rw [ofWord_eq]
  split
  · rename_i hsmall
    refine .unsigned ?_
    rw [UInt64.toNat_ofNat_of_lt' hsmall]
  · rename_i hsmall
    split
    · rename_i hlarge
      refine .signed ?_
      have hbits : (UInt64.ofNat w.toNat).toInt64.toUInt64.toNat = w.toNat % 2 ^ 64 :=
        UInt64.toNat_ofNat'
      rw [hbits]
      omega
    · rename_i hlarge
      split
      · rename_i haddress
        exact .address (Nat.le_of_not_lt hsmall) haddress
      · rename_i haddress
        have hlow := Nat.le_of_not_lt haddress
        have hhigh := Nat.lt_of_not_le hlarge
        split
        · rename_i hdecode
          exact .packed hlow hhigh hdecode
        · rename_i hdecode
          exact .raw hlow hhigh hdecode

variable {w : Word} {v : WordClass}

/-- The rules decide what a word is taken for. -/
theorem ofWord_eq_iff : ofWord w = v ↔ Classified w v := by
  constructor
  · rintro rfl
    exact ofWord_classified w
  · intro h
    rw [ofWord_eq]
    cases h with
    | @unsigned n hn =>
      have hlt := n.toNat_lt
      rw [if_pos (by omega), hn, UInt64.ofNat_toNat]
    | @signed n hn =>
      have hlt := n.toUInt64.toNat_lt
      have hbits : UInt64.ofNat w.toNat = n.toUInt64 := by
        apply UInt64.toNat_inj.1
        rw [UInt64.toNat_ofNat']
        omega
      rw [if_neg (by omega), if_pos (by omega), hbits]
      rfl
    | address hlow hhigh => rw [if_neg (by omega), if_neg (by omega), if_pos hhigh]
    | packed hlow hhigh hdecode =>
      rw [if_neg (by omega), if_neg (by omega), if_neg (by omega), hdecode]
    | raw hlow hhigh hdecode =>
      rw [if_neg (by omega), if_neg (by omega), if_neg (by omega), hdecode]

/-- A small word is its own address. -/
theorem toNat_toAddress (h : w.toNat < 2 ^ 160) : w.toAddress.toNat = w.toNat := by
  rw [Word.toAddress, BitVec.toNat_setWidth, Nat.mod_eq_of_lt h]

theorem Classified.toWord_eq (h : Classified w v) : v.toWord = w := by
  have hw := w.isLt
  cases h with
  | @unsigned n hn =>
    apply BitVec.eq_of_toNat_eq
    rw [toWord, BitVec.toNat_ofNat, ← hn, Nat.mod_eq_of_lt hw]
  | @signed n hn =>
    have hword : (toWord (.signed n)) = BitVec.ofNat 256 (2 ^ 256 - 2 ^ 64 + n.toUInt64.toNat) := rfl
    apply BitVec.eq_of_toNat_eq
    rw [hword, BitVec.toNat_ofNat, ← hn, Nat.mod_eq_of_lt hw]
  | address _ hhigh =>
    apply BitVec.eq_of_toNat_eq
    rw [toWord, BitVec.toNat_setWidth, toNat_toAddress hhigh, Nat.mod_eq_of_lt hw]
  | packed _ _ hdecode =>
    rw [toWord, PackedText.encode_of_decode? w.length_toBytes hdecode, Word.ofBytes_toBytes]
  | raw _ _ _ => rfl

@[simp] theorem toWord_ofWord (w : Word) : (ofWord w).toWord = w := (ofWord_classified w).toWord_eq

theorem ofWord_injective : Function.Injective ofWord := Function.LeftInverse.injective toWord_ofWord

/-! The values that words are taken for -/

/-- A value that some word is taken for, the kinds tried before it being ruled out. -/
def Canonical : WordClass → Prop
  | .unsigned _ => True
  | .signed _ => True
  | .address a => 2 ^ 64 ≤ a.toNat
  | .packed p => p.Fits
  | .raw w => 2 ^ 160 ≤ w.toNat ∧ w.toNat < 2 ^ 256 - 2 ^ 64 ∧
      ¬ ∃ p : PackedText, p.Fits ∧ p.encode = w.toBytes

theorem Classified.canonical (h : Classified w v) : v.Canonical := by
  cases h with
  | unsigned => trivial
  | signed => trivial
  | address hlow hhigh => rwa [Canonical, toNat_toAddress hhigh]
  | packed _ _ hdecode => exact PackedText.fits_of_decode? w.length_toBytes hdecode
  | raw hlow hhigh hdecode =>
    refine ⟨hlow, hhigh, ?_⟩
    rintro ⟨p, hp⟩
    rw [(PackedText.decode?_eq_some_iff_encode w.length_toBytes).2 hp] at hdecode
    cases hdecode

/-- The first character keeps a word with a packed text between the addresses and the numbers below
zero. -/
theorem toNat_toWord_packed {p : PackedText} (h : p.Fits) :
    2 ^ 160 ≤ (toWord (.packed p)).toNat ∧ (toWord (.packed p)).toNat < 2 ^ 256 - 2 ^ 64 := by
  obtain ⟨count, hencode, _⟩ := h.encode_eq
  obtain ⟨c, text, htext⟩ := List.exists_cons_of_ne_nil h.ne_nil
  have hc := h.printable c (htext ▸ List.mem_cons_self)
  obtain ⟨rest, hrest⟩ : ∃ rest, p.encode = UInt8.ofNat c.toNat :: rest :=
    ⟨_, by rw [hencode, htext, List.map_cons, List.cons_append]⟩
  have hlength : rest.length = 31 := by
    have hlen := h.length_encode
    rw [hrest, List.length_cons] at hlen
    omega
  have hlt := BigEndian.number_lt rest
  have hbyte : (UInt8.ofNat c.toNat).toNat = c.toNat :=
    UInt8.toNat_ofNat_of_lt' (show c.toNat < UInt8.size by simp only [UInt8.size]; omega)
  rw [toWord, Word.toNat_ofBytes (Nat.le_of_eq h.length_encode), hrest, BigEndian.number_cons, hbyte, hlength]
  rw [hlength] at hlt
  omega

theorem Canonical.classified (h : v.Canonical) : Classified v.toWord v := by
  cases v with
  | unsigned n =>
    have hlt := n.toNat_lt
    refine .unsigned ?_
    rw [toWord, BitVec.toNat_ofNat, Nat.mod_eq_of_lt (by omega)]
  | signed n =>
    have hlt := n.toUInt64.toNat_lt
    have hword : toWord (.signed n) = BitVec.ofNat 256 (2 ^ 256 - 2 ^ 64 + n.toUInt64.toNat) := rfl
    refine .signed ?_
    rw [hword, BitVec.toNat_ofNat, Nat.mod_eq_of_lt (by omega)]
  | address a =>
    have hlt := a.isLt
    have hword : (toWord (.address a)).toNat = a.toNat := by
      rw [toWord, BitVec.toNat_setWidth, Nat.mod_eq_of_lt (by omega)]
    have haddress : (toWord (.address a)).toAddress = a := by
      apply BitVec.eq_of_toNat_eq
      rw [toNat_toAddress (by rwa [hword]), hword]
    have hclass : Classified (toWord (.address a)) (.address (toWord (.address a)).toAddress) :=
      .address (by rwa [hword]) (by rwa [hword])
    rwa [haddress] at hclass
  | packed p =>
    obtain ⟨hlow, hhigh⟩ := toNat_toWord_packed h
    refine .packed hlow hhigh ?_
    rw [toWord, Word.toBytes_ofBytes (PackedText.Fits.length_encode h),
      PackedText.Fits.decode?_encode h]
  | raw w =>
    obtain ⟨hlow, hhigh, hnone⟩ := h
    refine .raw hlow hhigh ?_
    rw [toWord, Option.eq_none_iff_forall_ne_some]
    intro p hdecode
    exact hnone ⟨p, (PackedText.decode?_eq_some_iff_encode w.length_toBytes).1 hdecode⟩

theorem ofWord_toWord_iff : ofWord v.toWord = v ↔ v.Canonical :=
  ⟨fun h => (ofWord_eq_iff.1 h).canonical, fun h => ofWord_eq_iff.2 h.classified⟩

/-- Nothing of a word is lost in what it is taken for, and the word that a value stands for is taken for
this value again exactly if no other kind comes first. -/
theorem words_and_canonical_values :
    (∀ w : Word, (ofWord w).toWord = w) ∧
      ∀ v : WordClass, ofWord v.toWord = v ↔ v.Canonical :=
  ⟨toWord_ofWord, fun _ => ofWord_toWord_iff⟩

end StepScope.WordClass
