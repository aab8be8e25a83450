import StepScope.Listing.Assembly

/-!
The scan behind a listing as a relation. Its four rules say all that a scan can do at a position, and
what holds of every listing is shown by induction over them. The first such fact is how far a listing goes: to
the end of the code, or to an undefined opcode.
-/

namespace StepScope

namespace Instruction

variable {code : Bytes} {offset : Nat} {i : Instruction}

theorem offset_of_decode? (h : decode? code offset = some i) : i.offset = offset := by
  obtain ⟨_, _, rfl⟩ := Option.map_eq_some_iff.1 h
  rfl

theorem opcode_of_decode? (h : decode? code offset = some i) :
    i.opcode = (code.drop offset).headD Opcode.stop := opcode_ofRest? h

theorem mnemonic_of_decode? (h : decode? code offset = some i) :
    Opcode.mnemonic? i.opcode = some i.mnemonic := by
  obtain ⟨_, hm, rfl⟩ := Option.map_eq_some_iff.1 h
  exact hm

/-- The operand is cut out of the code right behind the opcode. -/
theorem immediate_of_decode? (h : decode? code offset = some i) :
    i.immediate = (code.drop (offset + 1)).take i.announced := by
  obtain ⟨_, _, rfl⟩ := Option.map_eq_some_iff.1 h
  simp only [announced, List.tail_drop]

theorem length_immediate_of_decode? (h : decode? code offset = some i) :
    i.immediate.length = min i.announced (code.length - (offset + 1)) := by
  rw [immediate_of_decode? h, List.length_take, List.length_drop]

theorem entry_offset_of_decode? (h : decode? code offset = some i) :
    (i.entry code.length).offset = offset := offset_of_decode? h

theorem entry_size_of_decode? (h : decode? code offset = some i) :
    (i.entry code.length).size = if code.length ≤ offset then 0 else 1 + i.immediate.length := by
  simp only [entry, size, offset_of_decode? h]

/-- The line of an instruction inside the code does not tell how long the code is. -/
theorem entry_congr {length length' : Nat} (h : i.offset < length) (h' : i.offset < length') :
    i.entry length = i.entry length' := by
  simp only [entry, size, if_neg (Nat.not_le.2 h), if_neg (Nat.not_le.2 h')]

theorem stride_pos (i : Instruction) : 0 < i.stride := Nat.lt_of_lt_of_le Nat.one_pos (Nat.le_add_right 1 _)

theorem size_eq_zero_iff {length : Nat} : i.size length = 0 ↔ length ≤ i.offset := by
  rw [size]
  split <;> omega

/-- Past the end of the code there is nothing but a `STOP`. -/
theorem exists_decode?_of_le (h : code.length ≤ offset) : ∃ i, decode? code offset = some i := by
  rw [decode?, List.drop_eq_nil_of_le h]
  exact ⟨_, rfl⟩

end Instruction

namespace Listing

/-- The scan of the code from a position on yields these lines. -/
inductive Scanned (code : Bytes) : Nat → List Entry → Prop
  /-- An undefined opcode ends the listing without a line. -/
  | undefined {offset : Nat} : offset < code.length → Instruction.decode? code offset = none →
      Scanned code offset []
  /-- The end of the code has the line of a `STOP`. -/
  | closed {i : Instruction} : Instruction.decode? code code.length = some i →
      Scanned code code.length [i.entry code.length]
  /-- An operand that is not all there ends the listing. -/
  | cut {offset : Nat} {i : Instruction} : offset < code.length →
      Instruction.decode? code offset = some i → i.immediate.length < i.announced →
      Scanned code offset [i.entry code.length]
  /-- After a whole instruction the scan goes on. -/
  | step {offset : Nat} {i : Instruction} {entries : List Entry} : offset < code.length →
      Instruction.decode? code offset = some i → i.immediate.length = i.announced →
      Scanned code (offset + i.stride) entries →
      Scanned code offset (i.entry code.length :: entries)

variable {code : Bytes}

theorem scan_scanned (code : Bytes) (done : List Entry) (offset : Nat) (hle : offset ≤ code.length) :
    ∃ entries, scan code.length done offset (code.drop offset) = done.reverse ++ entries ∧
      Scanned code offset entries := by
  rw [scan.eq_def]
  cases hi : Instruction.ofRest? offset (code.drop offset) with
  | none =>
    refine ⟨[], (List.append_nil _).symm, .undefined ?_ hi⟩
    rcases Nat.lt_or_ge offset code.length with hlt | hge
    · exact hlt
    · obtain ⟨i, hi'⟩ := Instruction.exists_decode?_of_le hge
      exact absurd (hi.symm.trans hi') (by simp)
  | some i =>
    cases hrest : code.drop offset with
    | nil =>
      have hend : offset = code.length := Nat.le_antisymm hle (List.drop_eq_nil_iff.1 hrest)
      subst hend
      exact ⟨[i.entry code.length], List.reverse_cons, .closed hi⟩
    | cons b after =>
      have hlt : offset < code.length := by
        have h := congrArg List.length hrest
        simp only [List.length_drop, List.length_cons] at h
        omega
      have hafter : after = code.drop (offset + 1) := by
        rw [← List.tail_drop, hrest, List.tail_cons]
      have hlen := Instruction.length_immediate_of_decode? hi
      dsimp only
      split
      · rename_i hcut
        exact ⟨[i.entry code.length], List.reverse_cons, .cut hlt hi hcut⟩
      · rename_i hwhole
        have hnext : after.drop i.announced = code.drop (offset + i.stride) := by
          rw [hafter, List.drop_drop, Nat.add_assoc, Instruction.stride]
        have hle' : offset + i.stride ≤ code.length := by
          rw [Instruction.stride]
          omega
        have hpos := i.stride_pos
        obtain ⟨entries, heq, hscan⟩ := scan_scanned code (i.entry code.length :: done) (offset + i.stride) hle'
        refine ⟨i.entry code.length :: entries, ?_, .step hlt hi (by omega) hscan⟩
        rw [hnext, heq, List.reverse_cons, List.append_assoc, List.singleton_append]
termination_by code.length - offset

/-- A listing is the scan of the code from its start. -/
theorem ofCode_scanned (code : Bytes) : Scanned code 0 (ofCode code).entries := by
  obtain ⟨entries, heq, hscan⟩ := scan_scanned code [] 0 (Nat.zero_le _)
  rw [ofCode, show scan code.length [] 0 code = entries from heq]
  exact hscan

variable {offset : Nat} {entries : List Entry}

namespace Scanned

/-- Every line of a scan is that of the instruction at its position. -/
theorem mem_decode? (h : Scanned code offset entries) {e : Entry} (he : e ∈ entries) :
    offset ≤ e.offset ∧ e.offset ≤ code.length ∧
      ∃ i, Instruction.decode? code e.offset = some i ∧ e = i.entry code.length := by
  induction h with
  | undefined _ _ => cases he
  | closed hi =>
    obtain rfl := List.mem_singleton.1 he
    rw [Instruction.entry_offset_of_decode? hi]
    exact ⟨Nat.le_refl _, Nat.le_refl _, _, hi, rfl⟩
  | cut hlt hi _ =>
    obtain rfl := List.mem_singleton.1 he
    rw [Instruction.entry_offset_of_decode? hi]
    exact ⟨Nat.le_refl _, Nat.le_of_lt hlt, _, hi, rfl⟩
  | @step offset i entries hlt hi hwhole _ ih =>
    rcases List.mem_cons.1 he with rfl | he
    · rw [Instruction.entry_offset_of_decode? hi]
      exact ⟨Nat.le_refl _, Nat.le_of_lt hlt, _, hi, rfl⟩
    · obtain ⟨hge, hrest⟩ := ih he
      exact ⟨Nat.le_trans (Nat.le_add_right _ _) hge, hrest⟩

/-- The first line of a scan starts where the scan does. -/
theorem offset_of_head? (h : Scanned code offset entries) {e : Entry} (he : entries.head? = some e) :
    e.offset = offset := by
  cases h with
  | undefined _ _ => cases he
  | closed hi => exact Option.some.inj he ▸ Instruction.entry_offset_of_decode? hi
  | cut _ hi _ => exact Option.some.inj he ▸ Instruction.entry_offset_of_decode? hi
  | step _ hi _ _ => exact Option.some.inj he ▸ Instruction.entry_offset_of_decode? hi

end Scanned

theorem covered_cons (e : Entry) (entries : List Entry) :
    covered ⟨e :: entries⟩ = e.size + covered ⟨entries⟩ := rfl

theorem Scanned.add_covered (h : Scanned code offset entries) :
    offset + covered ⟨entries⟩ = code.length ∨
      offset + covered ⟨entries⟩ < code.length ∧
        Instruction.decode? code (offset + covered ⟨entries⟩) = none := by
  induction h with
  | undefined hlt hnone => exact .inr ⟨hlt, hnone⟩
  | closed hi =>
    rw [covered_cons, Instruction.entry_size_of_decode? hi, if_pos (Nat.le_refl _)]
    exact .inl rfl
  | cut hlt hi hcut =>
    have hlength := Instruction.length_immediate_of_decode? hi
    rw [covered_cons, Instruction.entry_size_of_decode? hi, if_neg (Nat.not_le.2 hlt),
      show covered ⟨[]⟩ = 0 from rfl]
    omega
  | step hlt hi hwhole _ ih =>
    rw [covered_cons, Instruction.entry_size_of_decode? hi, if_neg (Nat.not_le.2 hlt), hwhole,
      ← Instruction.stride, ← Nat.add_assoc]
    exact ih

/-- The lines go on to the end of the code, or to an undefined opcode in it. -/
def Complete (code : Bytes) (l : Listing) : Prop :=
  l.covered = code.length ∨ l.covered < code.length ∧ Instruction.decode? code l.covered = none

theorem ofCode_complete (code : Bytes) : Complete code (ofCode code) := by
  have hcovered := (ofCode_scanned code).add_covered
  rwa [Nat.zero_add] at hcovered

end Listing

end StepScope
