import StepScope.Opcode

/-!
The mnemonics consist of capital letters and digits, and no two opcodes share one. So an opcode is found
again by its mnemonic.
-/

namespace StepScope.Opcode

/-- The characters of mnemonics. -/
def isLetter (c : Char) : Bool :=
  48 ≤ c.toNat && c.toNat ≤ 57 || 65 ≤ c.toNat && c.toNat ≤ 90

/-- A mnemonic as one number. It is what the opcodes are told apart by, since numbers are compared in
one step. -/
def spelling (m : Text) : Nat := m.foldl (fun n c => 128 * n + c.toNat) 0

theorem mnemonics_letters :
    ∀ n < 256, (mnemonic? (UInt8.ofNat n)).all (fun m => m.all isLetter) = true := by
  decide +kernel

theorem spellings_nodup :
    ((List.range 256).filterMap fun n => (mnemonic? (UInt8.ofNat n)).map spelling).Nodup := by
  decide +kernel

variable {a b : UInt8} {m : Text}

theorem isLetter_of_mem_mnemonic (h : mnemonic? a = some m) {c : Char} (hc : c ∈ m) :
    isLetter c = true := by
  have hall := mnemonics_letters a.toNat a.toNat_lt
  rw [UInt8.ofNat_toNat, h] at hall
  exact List.all_eq_true.1 hall c hc

theorem space_not_mem_mnemonic (h : mnemonic? a = some m) : ' ' ∉ m := by
  intro hc
  exact absurd (isLetter_of_mem_mnemonic h hc) (by decide)

theorem mnemonic?_ne_of_lt (ha : mnemonic? a = some m) (hlt : a.toNat < b.toNat) :
    mnemonic? b ≠ some m := by
  intro hb
  have hpairs := spellings_nodup
  rw [List.Nodup, List.pairwise_filterMap, List.pairwise_iff_getElem] at hpairs
  have hbound := b.toNat_lt
  have hpair := hpairs a.toNat b.toNat (by rw [List.length_range]; omega)
    (by rw [List.length_range]; exact hbound) hlt
  simp only [List.getElem_range, UInt8.ofNat_toNat, ha, hb, Option.map_some] at hpair
  exact hpair _ rfl _ rfl rfl

theorem eq_of_mnemonic? (ha : mnemonic? a = some m) (hb : mnemonic? b = some m) : a = b := by
  rcases Nat.lt_trichotomy a.toNat b.toNat with hlt | heq | hgt
  · exact absurd hb (mnemonic?_ne_of_lt ha hlt)
  · exact UInt8.toNat_inj.1 heq
  · exact absurd ha (mnemonic?_ne_of_lt hb hgt)

theorem mem_opcodes (a : UInt8) : a ∈ (List.range 256).map UInt8.ofNat :=
  List.mem_map.2 ⟨a.toNat, List.mem_range.2 a.toNat_lt, UInt8.ofNat_toNat⟩

/-- An opcode is found again by its mnemonic. -/
theorem ofMnemonic?_mnemonic (h : mnemonic? a = some m) : ofMnemonic? m = some a := by
  cases hfind : ofMnemonic? m with
  | none =>
    have hnone := List.find?_eq_none.1 hfind a (mem_opcodes a)
    simp only [h, decide_true, not_true_eq_false] at hnone
  | some b =>
    have hb := List.find?_some hfind
    rw [eq_of_mnemonic? h (of_decide_eq_true hb)]

end StepScope.Opcode
