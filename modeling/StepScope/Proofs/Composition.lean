import Mathlib.Data.List.Basic
import StepScope.Proofs.Locality
import StepScope.Proofs.Text
import StepScope.Proofs.Tiling

/-!
Code that is put together is listed part by part: where the listing of the first part reaches its end,
the lines of the second part follow, moved behind it. So do the entries of the index, which a scan makes one
by one together with the lines (`Bounded.turn_shows`).
-/

namespace StepScope

/-- An instruction behind other code of the given length. -/
def Instruction.shift (distance : Nat) (i : Instruction) : Instruction :=
  { i with offset := distance + i.offset }

/-- A line behind other code of the given length. Only what it says about its position changes. -/
def Entry.shift (distance : Nat) (e : Entry) : Entry :=
  { offset := distance + e.offset
    size := e.size
    text := Text.offset (distance + e.offset) ++ e.text.dropWhile (· ≠ ' ') }

namespace Instruction

/-- Behind the offset column a line is made of the mnemonic and the operand alone. -/
theorem exists_column (i : Instruction) :
    ∃ column, ∀ offset, line { i with offset } = Text.offset offset ++ ' ' :: column := by
  by_cases hnone : i.immediate = []
  · exact ⟨' ' :: i.mnemonic, fun _ => by simp [line, hnone]⟩
  · exact ⟨' ' :: i.mnemonic ++ " 0x".toList ++ Hex.ofBytes i.immediate,
      fun _ => by simp [line, hnone]⟩

theorem shift_line (i : Instruction) (distance : Nat) :
    (i.shift distance).line =
      Text.offset (distance + i.offset) ++ i.line.dropWhile (· ≠ ' ') := by
  obtain ⟨column, hcolumn⟩ := i.exists_column
  have hdigits : ∀ c ∈ Text.offset i.offset, decide (c ≠ ' ') = true := by
    intro c hc
    refine decide_eq_true fun hspace => ?_
    subst hspace
    exact absurd (Text.isHexDigit_of_mem_offset hc) (by decide)
  have hself : i.line = Text.offset i.offset ++ ' ' :: column := hcolumn i.offset
  rw [hself, List.dropWhile_append_of_pos hdigits, shift, hcolumn]
  simp

theorem shift_entry (i : Instruction) (distance length : Nat) :
    (i.shift distance).entry (distance + length) = (i.entry length).shift distance := by
  have hsize : (i.shift distance).size (distance + length) = i.size length := by
    simp only [size, shift, Nat.add_le_add_iff_left]
  simp only [entry, Entry.shift, hsize, shift_line]
  rfl

variable {a b : Bytes} {offset : Nat} {i : Instruction}

/-- A whole instruction does not depend on the code that follows. -/
theorem decode?_append_left (hlt : offset < a.length) (h : decode? a offset = some i)
    (hwhole : i.immediate.length = i.announced) : decode? (a ++ b) offset = some i := by
  have hlength := length_immediate_of_decode? h
  have htake : (a ++ b).take a.length = a.take a.length := by rw [List.take_left, List.take_length]
  exact decode?_congr htake h (by rw [stride]; omega)

/-- Behind other code the same instructions are read, at later positions. -/
theorem decode?_append_right (a b : Bytes) (offset : Nat) :
    decode? (a ++ b) (a.length + offset) = (decode? b offset).map (shift a.length) := by
  rw [decode?, decode?, List.drop_length_add_append, ofRest?, ofRest?, Option.map_map]
  rfl

end Instruction

namespace Listing

namespace Scanned

variable {a b : Bytes} {offset : Nat} {entries rest : List Entry}

/-- The rules leave no choice, so a scan has one result. -/
theorem unique {entries' : List Entry} (h : Scanned a offset entries)
    (h' : Scanned a offset entries') : entries = entries' := by
  induction h generalizing entries' with
  | undefined hlt hnone =>
    cases h' with
    | undefined _ _ => rfl
    | closed _ => exact absurd hlt (Nat.lt_irrefl _)
    | cut _ hi _ => cases hnone.symm.trans hi
    | step _ hi _ _ => cases hnone.symm.trans hi
  | closed hi =>
    cases h' with
    | undefined hlt _ => exact absurd hlt (Nat.lt_irrefl _)
    | closed hi' => cases hi.symm.trans hi'; rfl
    | cut hlt _ _ => exact absurd hlt (Nat.lt_irrefl _)
    | step hlt _ _ _ => exact absurd hlt (Nat.lt_irrefl _)
  | cut hlt hi hcut =>
    cases h' with
    | undefined _ hnone => cases hnone.symm.trans hi
    | closed _ => exact absurd hlt (Nat.lt_irrefl _)
    | cut _ hi' _ => cases hi.symm.trans hi'; rfl
    | step _ hi' hwhole _ =>
      cases hi.symm.trans hi'
      exact absurd hwhole (Nat.ne_of_lt hcut)
  | step hlt hi hwhole _ ih =>
    cases h' with
    | undefined _ hnone => cases hnone.symm.trans hi
    | closed _ => exact absurd hlt (Nat.lt_irrefl _)
    | cut _ hi' hcut =>
      cases hi.symm.trans hi'
      exact absurd hwhole (Nat.ne_of_lt hcut)
    | step _ hi' _ hrest =>
      cases hi.symm.trans hi'
      rw [ih hrest]

/-- Behind other code a scan goes on as it did, at later positions. -/
theorem append_right (a : Bytes) (h : Scanned b offset entries) :
    Scanned (a ++ b) (a.length + offset) (entries.map (Entry.shift a.length)) := by
  have hlength : (a ++ b).length = a.length + b.length := List.length_append
  have hdecode : ∀ {offset : Nat} {i : Instruction}, Instruction.decode? b offset = some i →
      Instruction.decode? (a ++ b) (a.length + offset) = some (i.shift a.length) := by
    intro offset i hi
    rw [Instruction.decode?_append_right, hi, Option.map_some]
  induction h with
  | undefined hlt hnone =>
    refine .undefined (by omega) ?_
    rw [Instruction.decode?_append_right, hnone, Option.map_none]
  | closed hi =>
    rw [List.map_singleton, ← Instruction.shift_entry, ← hlength]
    exact .closed (hlength ▸ hdecode hi)
  | cut hlt hi hcut =>
    rw [List.map_singleton, ← Instruction.shift_entry, ← hlength]
    exact .cut (by omega) (hdecode hi) hcut
  | @step offset i entries hlt hi hwhole _ ih =>
    rw [List.map_cons, ← Instruction.shift_entry, ← hlength]
    refine .step (by omega) (hdecode hi) hwhole ?_
    rw [Nat.add_assoc]
    exact ih

/-- A scan that reaches the end of the code gives way there to the scan of what follows. -/
theorem append (h : Scanned a offset entries)
    (hclosed : entries.getLast?.map Entry.offset = some a.length) (hrest : Scanned b 0 rest) :
    Scanned (a ++ b) offset (entries.dropLast ++ rest.map (Entry.shift a.length)) := by
  have hlength : (a ++ b).length = a.length + b.length := List.length_append
  induction h with
  | undefined _ _ => cases hclosed
  | closed _ => exact hrest.append_right a
  | cut hlt hi _ =>
    have hoffset : (Instruction.entry _ a.length).offset = a.length := Option.some.inj hclosed
    rw [Instruction.entry_offset_of_decode? hi] at hoffset
    exact absurd hlt (by omega)
  | @step offset i entries hlt hi hwhole _ ih =>
    have hoffset := Instruction.offset_of_decode? hi
    have hentry : i.entry a.length = i.entry (a ++ b).length :=
      Instruction.entry_congr (hoffset ▸ hlt) (by omega)
    cases entries with
    | nil =>
      have hoffset : (i.entry a.length).offset = a.length := Option.some.inj hclosed
      rw [Instruction.entry_offset_of_decode? hi] at hoffset
      exact absurd hlt (by omega)
    | cons e entries =>
      rw [List.getLast?_cons_cons] at hclosed
      rw [List.dropLast_cons_cons, List.cons_append, hentry]
      exact .step (by omega) (Instruction.decode?_append_left hlt hi hwhole) hwhole (ih hclosed)

end Scanned

/-! The index of lines that are put together -/

theorem index_append (front back : List Entry) :
    index ⟨front ++ back⟩ =
      index ⟨front⟩ ++ (index ⟨back⟩).map fun (position, line) => (position, front.length + line) := by
  simp only [index, List.zipIdx_append, List.filter_append, List.map_append, Nat.zero_add]
  rw [List.zipIdx_eq_map_add (l := back) (i := front.length)]
  simp [List.filter_map, Function.comp_def]

theorem index_map_shift (distance : Nat) (entries : List Entry) :
    index ⟨entries.map (Entry.shift distance)⟩ =
      (index ⟨entries⟩).map fun (position, line) => (distance + position, line) := by
  simp [index, List.zipIdx_map, List.filter_map, Function.comp_def, Entry.shift]

/-! The bytes that they cover -/

theorem covered_append (front back : List Entry) :
    covered ⟨front ++ back⟩ = covered ⟨front⟩ + covered ⟨back⟩ := by
  induction front with
  | nil => exact (Nat.zero_add _).symm
  | cons e front ih => rw [List.cons_append, covered_cons, covered_cons, ih, Nat.add_assoc]

theorem covered_map_shift (distance : Nat) (entries : List Entry) :
    covered ⟨entries.map (Entry.shift distance)⟩ = covered ⟨entries⟩ := by
  simp only [covered, List.foldr_map, Entry.shift]

theorem Scanned.add_covered_of_closed {code : Bytes} {offset : Nat} {entries : List Entry}
    (h : Scanned code offset entries) (hclosed : entries.getLast?.map Entry.offset = some code.length) :
    offset + covered ⟨entries⟩ = code.length := by
  obtain ⟨last, hlast, hoffset⟩ := Option.map_eq_some_iff.1 hclosed
  have hbounds := h.row.bounds (List.mem_of_getLast? hlast)
  have hcovered := h.add_covered
  omega

/-- Code behind code whose listing reaches the closing `STOP`: the lines are those of the first part
without the `STOP`, then those of the second part moved behind it, and the index is put together in
the same way. All of the first part is covered, and as much of the second as by itself. -/
theorem ofCode_append (a b : Bytes)
    (hclosed : (ofCode a).entries.getLast?.map Entry.offset = some a.length) :
    (ofCode (a ++ b)).entries =
      (ofCode a).entries.dropLast ++ (ofCode b).entries.map (Entry.shift a.length) ∧
    (ofCode (a ++ b)).index =
      (ofCode a).index ++ ((ofCode b).index.map fun (position, line) =>
        (a.length + position, (ofCode a).entries.dropLast.length + line)) ∧
    (ofCode (a ++ b)).covered = a.length + (ofCode b).covered := by
  have hscan := ofCode_scanned a
  have hentries := (ofCode_scanned (a ++ b)).unique (hscan.append hclosed (ofCode_scanned b))
  obtain ⟨last, hlast, hoffset⟩ := Option.map_eq_some_iff.1 hclosed
  -- The closing line stands for nothing, so the index does not miss it.
  have hsize : last.size = 0 := (hscan.size_eq_zero_iff (List.mem_of_getLast? hlast)).2 hoffset
  have hsplit : ofCode a = ⟨(ofCode a).entries.dropLast ++ [last]⟩ := by
    rw [List.dropLast_append_getLast? last hlast]
  have hfront : (ofCode a).index = index ⟨(ofCode a).entries.dropLast⟩ := by
    rw [hsplit, index_append]
    simp [index, hsize]
  have hcovered : covered ⟨(ofCode a).entries.dropLast⟩ = a.length := by
    have hall := hscan.add_covered_of_closed hclosed
    rwa [Nat.zero_add, show covered ⟨(ofCode a).entries⟩ = covered (ofCode a) from rfl, hsplit, covered_append,
      covered_cons, hsize] at hall
  refine ⟨hentries, ?_, ?_⟩
  · rw [show ofCode (a ++ b) = ⟨(ofCode (a ++ b)).entries⟩ from rfl, hentries, index_append,
      index_map_shift, hfront, List.map_map]
    rfl
  · rw [show ofCode (a ++ b) = ⟨(ofCode (a ++ b)).entries⟩ from rfl, hentries, covered_append,
      covered_map_shift, hcovered]

/-- A whole push in front of one that the end of the code cuts short. -/
theorem ofCode_append_push :
    (ofCode [0x60, 0x42]).entries.getLast?.map Entry.offset = some 2 ∧
    (ofCode ([0x60, 0x42] ++ [0x61, 0x01])).entries =
      (ofCode [0x60, 0x42]).entries.dropLast ++ (ofCode [0x61, 0x01]).entries.map (Entry.shift 2) ∧
    (ofCode ([0x60, 0x42] ++ [0x61, 0x01])).index =
      (ofCode [0x60, 0x42]).index ++ ((ofCode [0x61, 0x01]).index.map fun (position, line) =>
        (2 + position, (ofCode [0x60, 0x42]).entries.dropLast.length + line)) ∧
    (ofCode ([0x60, 0x42] ++ [0x61, 0x01])).covered = 2 + (ofCode [0x61, 0x01]).covered := by
  have hclosed : (ofCode [0x60, 0x42]).entries.getLast?.map Entry.offset = some 2 := by
    decide +kernel
  exact ⟨hclosed, ofCode_append [0x60, 0x42] [0x61, 0x01] hclosed⟩

end Listing

end StepScope
