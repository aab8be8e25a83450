import StepScope.Proofs.Lines

/-!
The status line of a step. Every byte has a name of its own, defined or not, and no field of the line has a
blank in it while each but the last has one behind it. So the line tells all that is on it.
-/

namespace StepScope

namespace Opcode

variable {a b : UInt8} {m : Text}

theorem name_of_mnemonic (h : mnemonic? a = some m) : name a = m := by
  rw [name, h, Option.getD_some]

theorem name_of_undefined (h : mnemonic? a = none) :
    name a = "UNKNOWN(0x".toList ++ (Text.hexadecimal a.toNat).leftpad 2 '0' ++ [')'] := by
  rw [name, h, Option.getD_none]

/-- A name tells whether its byte is defined: mnemonics have no parenthesis. -/
theorem parenthesis_mem_name_iff : '(' ∈ name a ↔ mnemonic? a = none := by
  cases h : mnemonic? a with
  | none =>
    refine iff_of_true ?_ rfl
    rw [name_of_undefined h]
    exact List.mem_append_left _ (List.mem_append_left _ (by decide))
  | some m =>
    refine iff_of_false (fun hmem => ?_) nofun
    rw [name_of_mnemonic h] at hmem
    exact absurd (isLetter_of_mem_mnemonic h hmem) (by decide)

theorem name_injective : Function.Injective name := by
  intro a b h
  have hdefined : mnemonic? a = none ↔ mnemonic? b = none := by
    rw [← parenthesis_mem_name_iff, ← parenthesis_mem_name_iff, h]
  cases ha : mnemonic? a with
  | none =>
    rw [name_of_undefined ha, name_of_undefined (hdefined.1 ha)] at h
    have hdigits := List.append_cancel_left (List.append_cancel_right h)
    have hnumber := congrArg Hex.number? hdigits
    rw [Hex.number?_leftpad, Hex.number?_leftpad] at hnumber
    exact UInt8.toNat_inj.1 (Option.some.inj hnumber)
  | some m =>
    obtain ⟨m', hb⟩ := Option.ne_none_iff_exists'.1 fun hb => absurd (ha.symm.trans (hdefined.2 hb)) nofun
    rw [name_of_mnemonic ha, name_of_mnemonic hb] at h
    exact eq_of_mnemonic? ha (h ▸ hb)

theorem space_not_mem_name (opcode : UInt8) : ' ' ∉ name opcode := by
  cases h : mnemonic? opcode with
  | none =>
    have hdigits : ' ' ∉ Text.hexadecimal opcode.toNat := Text.not_mem_hexadecimal (by decide) _
    rw [name_of_undefined h, List.leftpad]
    simp [List.mem_replicate, hdigits]
  | some m =>
    rw [name_of_mnemonic h]
    exact space_not_mem_mnemonic h

end Opcode

namespace View

/-- The snapshots agree on what the status line is made of. -/
structure SameStatus (x y : Snapshot) : Prop where
  steps : x.steps = y.steps
  pc : x.pc = y.pc
  instruction : x.instruction = y.instruction
  newMemSize : x.newMemSize = y.newMemSize
  gasCost : x.gasCost = y.gasCost
  gas : x.gas = y.gas

/-- A field and what follows are told apart by a label that begins with a blank. -/
theorem field_inj {label a b s t : Text} (ha : ' ' ∉ a) (hb : ' ' ∉ b) (hlabel : label.head? = some ' ')
    (h : a ++ (label ++ s) = b ++ (label ++ t)) : a = b ∧ s = t := by
  obtain ⟨rest, rfl⟩ := List.head?_eq_some_iff.1 hlabel
  obtain ⟨hab, hrest⟩ := Text.append_mark_inj ha hb h
  exact ⟨hab, List.append_cancel_left hrest⟩

theorem header_eq (v : View) :
    v.header =
      " STEP: ".toList ++ (Text.decimal v.snapshot.steps.toNat ++
        ("  |  PC: 0x".toList ++ (Text.hexadecimal v.snapshot.pc.toNat ++
        ("  :  ".toList ++ (Opcode.name v.snapshot.instruction ++
        ("  |  ADDMEM: ".toList ++ (Text.decimal v.snapshot.newMemSize.toNat ++
        (" words  |  COST: ".toList ++ (Text.decimal v.snapshot.gasCost.toNat ++
        ("  |  GAS: ".toList ++ Text.decimal v.snapshot.gas.toNat)))))))))) := by
  unfold header
  simp only [List.append_assoc]

theorem counter_inj {m n : UInt64} (h : Text.decimal m.toNat = Text.decimal n.toNat) : m = n :=
  UInt64.toNat_inj.1 (Text.decimal_injective h)

/-- Two steps have the same status line exactly if they agree on the number of steps, the position, the
instruction, the growth of the memory, the cost and the gas. -/
theorem header_eq_iff (v u : View) : v.header = u.header ↔ SameStatus v.snapshot u.snapshot := by
  constructor
  · intro h
    rw [header_eq, header_eq] at h
    have hdecimal : ∀ n, ' ' ∉ Text.decimal n := Text.not_mem_decimal (by decide)
    have hhexadecimal : ∀ n, ' ' ∉ Text.hexadecimal n := Text.not_mem_hexadecimal (by decide)
    -- Each field ends at the first blank, and the same label stands behind it in both lines.
    obtain ⟨hsteps, h⟩ := field_inj (hdecimal _) (hdecimal _) rfl (List.append_cancel_left h)
    obtain ⟨hpc, h⟩ := field_inj (hhexadecimal _) (hhexadecimal _) rfl h
    obtain ⟨hinstruction, h⟩ := field_inj (Opcode.space_not_mem_name _) (Opcode.space_not_mem_name _) rfl h
    obtain ⟨hnewMemSize, h⟩ := field_inj (hdecimal _) (hdecimal _) rfl h
    obtain ⟨hgasCost, hgas⟩ := field_inj (hdecimal _) (hdecimal _) rfl h
    exact {
      steps := counter_inj hsteps
      pc := UInt64.toNat_inj.1 (Text.hexadecimal_injective hpc)
      instruction := Opcode.name_injective hinstruction
      newMemSize := counter_inj hnewMemSize
      gasCost := counter_inj hgasCost
      gas := counter_inj hgas }
  · rintro ⟨hsteps, hpc, hinstruction, hnewMemSize, hgasCost, hgas⟩
    rw [header_eq, header_eq, hsteps, hpc, hinstruction, hnewMemSize, hgasCost, hgas]

end View

end StepScope
