import StepScope.Listing.Assembly
import StepScope.Proofs.Hex
import StepScope.Proofs.Mnemonics
import StepScope.Proofs.Scan

/-!
A listing loses no byte: every line reads back as its position and the bytes it stands for, and these
bytes, put together, are the code as far as the listing goes.
-/

namespace StepScope

namespace Entry

theorem operand?_of_digits (bytes : Bytes) :
    operand? (" 0x".toList ++ Hex.ofBytes bytes) = some bytes := by
  have hmark : " 0x".toList ++ Hex.ofBytes bytes = ' ' :: '0' :: 'x' :: Hex.ofBytes bytes := rfl
  rw [hmark, operand?, Hex.read_utf8_ofBytes]
  rfl

/-- The line of an instruction reads back as its position, its opcode and its operand. -/
theorem read?_line {i : Instruction} (h : Opcode.mnemonic? i.opcode = some i.mnemonic) :
    read? i.line = some (i.offset, i.opcode :: i.immediate) := by
  have hoffset : ∀ c ∈ Text.offset i.offset, decide (c ≠ ' ') = true := by
    intro c hc
    refine decide_eq_true fun hspace => ?_
    exact absurd (hspace ▸ Text.isHexDigit_of_mem_offset hc) (by decide)
  have hmnemonic : ∀ c ∈ i.mnemonic, decide (c ≠ ' ') = true := by
    intro c hc
    exact decide_eq_true fun hspace => Opcode.space_not_mem_mnemonic h (hspace ▸ hc)
  have hopcode := Opcode.ofMnemonic?_mnemonic h
  rw [Instruction.line, List.append_assoc, List.cons_append, List.cons_append, read?,
    Text.span_append hoffset (fun c hc => by cases hc; rfl)]
  simp only [Hex.number?_offset, Option.bind_eq_bind, Option.bind_some]
  by_cases hnone : i.immediate = []
  · rw [if_pos hnone, List.append_nil, Text.span_of_forall hmnemonic, hnone]
    simp only [hopcode, operand?, Option.bind_some]
  · rw [if_neg hnone, Text.span_append hmnemonic (fun c hc => by cases hc; rfl)]
    simp only [hopcode, operand?_of_digits, Option.bind_some]

end Entry

namespace Instruction

variable {code : Bytes} {offset : Nat} {i : Instruction}

/-- The opcode and the operand of an instruction are the bytes of the code that it occupies. -/
theorem bytes_of_decode? (hlt : offset < code.length) (h : decode? code offset = some i) :
    i.opcode :: i.immediate = (code.drop offset).take (1 + i.immediate.length) := by
  have hopcode := opcode_of_decode? h
  rw [List.drop_eq_getElem_cons hlt] at hopcode ⊢
  have himmediate : i.immediate = (code.drop (offset + 1)).take i.immediate.length := by
    rw [immediate_of_decode? h]
    exact List.prefix_iff_eq_take.1 (List.take_prefix _ _)
  rw [Nat.add_comm, List.take_succ_cons, hopcode, List.headD_cons, ← himmediate]

end Instruction

namespace Listing

/-- A line in front adds the bytes that it reads back as. -/
theorem assemble?_cons {e : Entry} {entries : List Entry} {position : Nat} {bytes rest : Bytes}
    (hsize : e.size ≠ 0) (hread : Entry.read? e.text = some (position, bytes))
    (hrest : assemble? ⟨entries⟩ = some rest) : assemble? ⟨e :: entries⟩ = some (bytes ++ rest) := by
  obtain ⟨parts, hparts, rfl⟩ := Option.map_eq_some_iff.1 hrest
  have hkept : decide (e.size ≠ 0) = true := decide_eq_true hsize
  simp only [assemble?, List.filter_cons, hkept, if_true, List.mapM_cons, hread, hparts]
  rfl

/-- The line of an instruction in the code stands for bytes and reads back as these. -/
theorem read?_entry {code : Bytes} {offset : Nat} {i : Instruction} (hlt : offset < code.length)
    (h : Instruction.decode? code offset = some i) :
    (i.entry code.length).size = 1 + i.immediate.length ∧
      Entry.read? (i.entry code.length).text =
        some (offset, (code.drop offset).take (1 + i.immediate.length)) := by
  rw [Instruction.entry_size_of_decode? h, if_neg (Nat.not_le.2 hlt),
    ← Instruction.bytes_of_decode? hlt h, ← Instruction.offset_of_decode? h]
  exact ⟨rfl, Entry.read?_line (Instruction.mnemonic_of_decode? h)⟩

/-- The lines of a scan read back as the code from its start on, as far as they cover it. -/
theorem Scanned.assemble?_eq {code : Bytes} {offset : Nat} {entries : List Entry}
    (h : Scanned code offset entries) :
    assemble? ⟨entries⟩ = some ((code.drop offset).take (covered ⟨entries⟩)) := by
  induction h with
  | undefined _ _ => rfl
  | @closed i hi =>
    have hsize : (i.entry code.length).size = 0 := by
      rw [Instruction.entry_size_of_decode? hi, if_pos (Nat.le_refl _)]
    simp [assemble?, covered, hsize]
  | cut hlt hi _ =>
    obtain ⟨hsize, hread⟩ := read?_entry hlt hi
    have hnone : assemble? ⟨[]⟩ = some [] := rfl
    rw [assemble?_cons (by omega) hread hnone, covered_cons, hsize, List.append_nil]
    rfl
  | @step offset i entries hlt hi hwhole _ ih =>
    obtain ⟨hsize, hread⟩ := read?_entry hlt hi
    rw [hwhole, ← Instruction.stride] at hsize hread
    rw [assemble?_cons (hsize ▸ Nat.ne_of_gt i.stride_pos) hread ih, covered_cons, hsize,
      List.take_add, List.drop_drop]

/-- The lines of a listing read back as the front of the code that they cover, and each of them as its
position and its bytes. They cover the code up to its end, or to an undefined opcode. -/
theorem assemble?_ofCode (code : Bytes) :
    (ofCode code).assemble? = some (code.take (ofCode code).covered) ∧
      (ofCode code).covered ≤ code.length ∧ Complete code (ofCode code) ∧
      ∀ e ∈ (ofCode code).entries, ∃ opcode operand,
        Entry.read? e.text = some (e.offset, opcode :: operand) ∧
          (e.size ≠ 0 → opcode :: operand = (code.drop e.offset).take e.size) := by
  have hscan := ofCode_scanned code
  have hcomplete := ofCode_complete code
  refine ⟨hscan.assemble?_eq, hcomplete.elim Nat.le_of_eq fun h => Nat.le_of_lt h.1, hcomplete, ?_⟩
  intro e he
  obtain ⟨_, _, i, hi, heq⟩ := hscan.mem_decode? he
  have hread := Entry.read?_line (Instruction.mnemonic_of_decode? hi)
  rw [Instruction.offset_of_decode? hi] at hread
  rw [congrArg Entry.text heq, congrArg Entry.size heq]
  refine ⟨i.opcode, i.immediate, hread, fun hsize => ?_⟩
  rw [Instruction.entry_size_of_decode? hi] at hsize ⊢
  split at hsize
  · exact absurd rfl hsize
  · rename_i hlt
    rw [if_neg hlt]
    exact Instruction.bytes_of_decode? (Nat.lt_of_not_le hlt) hi

end Listing

end StepScope
