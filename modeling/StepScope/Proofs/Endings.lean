import Mathlib.Logic.ExistsUnique
import StepScope.Proofs.Composition

/-!
How listings end. All of the code is covered and the closing `STOP` follows, or an undefined opcode stands
where the lines end, or the last line is a push whose operand the end of the code cuts short. A listing
that ends at an undefined opcode is the same whatever follows that opcode.
-/

namespace StepScope

/-- The line of the `STOP` that closes a listing. -/
def Entry.closing (length : Nat) : Entry :=
  { offset := length, size := 0, text := Text.offset length ++ "  STOP".toList }

/-- A push with fewer bytes behind its opcode than it announces. -/
def Instruction.IsCut (i : Instruction) : Prop :=
  ∃ announced, Opcode.pushSize? i.opcode = some announced ∧ i.immediate.length < announced

/-- The ways in which a listing can end. -/
inductive Ending
  | closed
  | undefined
  | cut
  deriving DecidableEq, Repr

namespace Listing

/-- Lines for the code up to `reached` end in a certain way. -/
inductive Ends (code : Bytes) (entries : List Entry) (reached : Nat) : Ending → Prop
  /-- All bytes are covered, none of the pushes is cut short, and a `STOP` closes the listing. -/
  | closed : reached = code.length → entries.getLast? = some (.closing code.length) →
      (∀ e ∈ entries, ∀ i, Instruction.decode? code e.offset = some i → ¬ i.IsCut) →
      Ends code entries reached .closed
  /-- An undefined opcode stands where the lines end, and nothing closes the listing. -/
  | undefined {opcode : UInt8} : reached < code.length → code[reached]? = some opcode →
      Opcode.mnemonic? opcode = none → (∀ e ∈ entries, e.offset ≠ code.length) →
      Ends code entries reached .undefined
  /-- The last push lacks bytes that it announces, and nothing closes the listing. -/
  | cut {i : Instruction} : reached = code.length → 0 < code.length →
      Instruction.decode? code i.offset = some i → i.IsCut →
      entries.getLast? = some (i.entry code.length) → (∀ e ∈ entries, e.offset ≠ code.length) →
      Ends code entries reached .cut

end Listing

namespace Instruction

variable {code : Bytes} {offset : Nat} {i : Instruction}

/-- At the end of the code there is a `STOP` without an operand. -/
theorem decode?_length (code : Bytes) :
    decode? code code.length =
      some { offset := code.length, opcode := Opcode.stop, mnemonic := "STOP".toList, immediate := [] } := by
  rw [decode?, List.drop_length]
  rfl

/-- Only a push announces bytes, so an instruction that lacks some is a push. -/
theorem isCut_iff : i.IsCut ↔ i.immediate.length < i.announced := by
  rw [IsCut, announced, Opcode.immediateSize]
  cases Opcode.pushSize? i.opcode with
  | none => simp
  | some announced => simp

/-- Inside the code only an undefined opcode is no instruction. -/
theorem opcode_of_decode?_eq_none (hlt : offset < code.length) (h : decode? code offset = none) :
    ∃ opcode, code[offset]? = some opcode ∧ Opcode.mnemonic? opcode = none := by
  rw [decode?, ofRest?, Option.map_eq_none_iff, List.drop_eq_getElem_cons hlt, List.headD_cons] at h
  exact ⟨code[offset], List.getElem?_eq_getElem hlt, h⟩

end Instruction

namespace Listing

variable {code : Bytes} {offset reached : Nat} {entries : List Entry} {ending : Ending}

theorem getLast?_cons_of_some {α : Type} {a b : α} {l : List α} (h : l.getLast? = some b) :
    (a :: l).getLast? = some b := by
  rw [List.getLast?_cons, h, Option.getD_some]

/-- A whole instruction in front does not change how lines end. -/
theorem Ends.cons {i : Instruction} (h : Ends code entries reached ending) (hlt : offset < code.length)
    (hi : Instruction.decode? code offset = some i) (hwhole : i.immediate.length = i.announced) :
    Ends code (i.entry code.length :: entries) reached ending := by
  have hoffset := Instruction.entry_offset_of_decode? hi
  have hinside : (∀ e ∈ entries, e.offset ≠ code.length) →
      ∀ e ∈ i.entry code.length :: entries, e.offset ≠ code.length :=
    fun hrest => List.forall_mem_cons.2 ⟨hoffset ▸ Nat.ne_of_lt hlt, hrest⟩
  cases h with
  | closed hreached hlast hnone =>
    refine .closed hreached (getLast?_cons_of_some hlast) (List.forall_mem_cons.2 ⟨fun i' hi' => ?_, hnone⟩)
    rw [hoffset, hi] at hi'
    obtain rfl := Option.some.inj hi'
    rw [Instruction.isCut_iff]
    omega
  | undefined hreached hopcode hundefined hopen =>
    exact .undefined hreached hopcode hundefined (hinside hopen)
  | cut hreached hpos hlastInstruction hcut hlast hopen =>
    exact .cut hreached hpos hlastInstruction hcut (getLast?_cons_of_some hlast) (hinside hopen)

theorem Scanned.exists_ends (h : Scanned code offset entries) :
    ∃ ending, Ends code entries (offset + covered ⟨entries⟩) ending := by
  induction h with
  | undefined hlt hnone =>
    obtain ⟨opcode, hopcode, hundefined⟩ := Instruction.opcode_of_decode?_eq_none hlt hnone
    exact ⟨.undefined, .undefined hlt hopcode hundefined (fun _ he => absurd he List.not_mem_nil)⟩
  | @closed i hi =>
    have hstop := Option.some.inj (hi.symm.trans (Instruction.decode?_length code))
    have hentry : i.entry code.length = .closing code.length := by
      simp [hstop, Instruction.entry, Instruction.size, Instruction.line, Entry.closing]
    rw [hentry]
    refine ⟨.closed, .closed rfl rfl (List.forall_mem_singleton.2 fun i' hi' => ?_)⟩
    obtain rfl := Option.some.inj (hi'.symm.trans (Instruction.decode?_length code))
    rw [Instruction.isCut_iff]
    exact Nat.not_lt_zero _
  | @cut offset i hlt hi hcut =>
    have hoffset := Instruction.offset_of_decode? hi
    have himmediate := Instruction.length_immediate_of_decode? hi
    refine ⟨.cut, .cut ?_ (Nat.zero_lt_of_lt hlt) (hoffset.symm ▸ hi) (Instruction.isCut_iff.2 hcut) rfl ?_⟩
    · rw [covered_cons, (read?_entry hlt hi).1, covered, List.foldr_nil]
      omega
    · rw [List.forall_mem_singleton, Instruction.entry_offset_of_decode? hi]
      exact Nat.ne_of_lt hlt
  | @step offset i entries hlt hi hwhole _ ih =>
    obtain ⟨ending, hends⟩ := ih
    rw [covered_cons, (read?_entry hlt hi).1, hwhole, ← Nat.add_assoc]
    exact ⟨ending, hends.cons hlt hi hwhole⟩

theorem Ends.unique {ending' : Ending} (h : Ends code entries reached ending)
    (h' : Ends code entries reached ending') : ending = ending' := by
  have hclosing : entries.getLast? = some (.closing code.length) →
      ¬ ∀ e ∈ entries, e.offset ≠ code.length :=
    fun hlast hopen => hopen _ (List.mem_of_getLast? hlast) rfl
  cases h with
  | closed hreached hlast hnone =>
    cases h' with
    | closed => rfl
    | undefined hlt _ _ _ => omega
    | cut _ _ _ _ _ hopen => exact absurd hopen (hclosing hlast)
  | undefined hlt hopcode hundefined hopen =>
    cases h' with
    | closed hreached _ _ => omega
    | undefined => rfl
    | cut hreached _ _ _ _ _ => omega
  | cut hreached _ _ _ _ hopen =>
    cases h' with
    | closed _ hlast _ => exact absurd hopen (hclosing hlast)
    | undefined hlt _ _ _ => omega
    | cut => rfl

/-- The listing of any code ends in exactly one way, and where it ends at an undefined opcode it is also
the listing of all code with the same bytes up to that opcode. -/
theorem ofCode_ends (code : Bytes) :
    (∃! ending, Ends code (ofCode code).entries (ofCode code).covered ending) ∧
      (Ends code (ofCode code).entries (ofCode code).covered .undefined →
        ∀ code' : Bytes, code'.take ((ofCode code).covered + 1) = code.take ((ofCode code).covered + 1) →
          ofCode code' = ofCode code) := by
  have hscan := ofCode_scanned code
  have hcovered : 0 + covered ⟨(ofCode code).entries⟩ = (ofCode code).covered := Nat.zero_add _
  constructor
  · obtain ⟨ending, hends⟩ := hscan.exists_ends
    rw [hcovered] at hends
    exact ⟨ending, hends, fun _ hends' => hends'.unique hends⟩
  · intro hends code' htake
    cases hends with
    | undefined hlt _ _ _ =>
      have hscan' := hscan.congr_take htake (by omega) (by omega)
      have hentries := (ofCode_scanned code').unique hscan'
      exact congrArg Listing.mk hentries

/-- An undefined opcode after two instructions, with nothing behind it and with a push. -/
theorem ofCode_ends_data :
    Ends [0x60, 0x01, 0x00, 0x0c] (ofCode [0x60, 0x01, 0x00, 0x0c]).entries
        (ofCode [0x60, 0x01, 0x00, 0x0c]).covered .undefined ∧
      ofCode [0x60, 0x01, 0x00, 0x0c, 0x60, 0xff] = ofCode [0x60, 0x01, 0x00, 0x0c] := by
  have hends : Ends [0x60, 0x01, 0x00, 0x0c] (ofCode [0x60, 0x01, 0x00, 0x0c]).entries
      (ofCode [0x60, 0x01, 0x00, 0x0c]).covered .undefined :=
    .undefined (by decide +kernel) (show _ = some 0x0c by decide +kernel) (by decide +kernel)
      (by decide +kernel)
  exact ⟨hends, (ofCode_ends _).2 hends _ (by decide +kernel)⟩

end Listing

end StepScope
