import Mathlib.Data.List.Chain
import StepScope.Proofs.Scan

/-!
The lines of a listing lie side by side from the start of the code on, each is that of the instruction
at its position, and the index is made of exactly the lines that start inside the code. That the scan builds
the same index entry by entry is shown where it is taken turn by turn (`Bounded.turn_shows`).
-/

namespace StepScope.Listing

/-- A listing whose lines tile the front of the code, with an index that is their exact companion. -/
structure Tiles (code : Bytes) (l : Listing) : Prop where
  /-- The first line starts where the code does. -/
  first : ∀ e, l.entries.head? = some e → e.offset = 0
  /-- A line starts where the one before it ends. -/
  adjacent : l.entries.IsChain fun a b => b.offset = a.offset + a.size
  /-- No line reaches past the end of the code. -/
  inside : ∀ e ∈ l.entries, e.offset + e.size ≤ code.length
  /-- Only the last line may stand for nothing. -/
  positive : ∀ e ∈ l.entries.dropLast, 1 ≤ e.size
  /-- The line that stands for nothing is at the end of the code. -/
  empty : ∀ e ∈ l.entries, (e.size = 0 ↔ e.offset = code.length)
  /-- A line is that of the instruction at its position. -/
  decoded : ∀ e ∈ l.entries, ∃ i, Instruction.decode? code e.offset = some i ∧
    e.size = i.size code.length ∧ e.text = i.line
  /-- The index has the lines that start inside the code and nothing else. -/
  indexed : ∀ position line, (position, line) ∈ l.index ↔
    position < code.length ∧ ∃ e, l.entries[line]? = some e ∧ e.offset = position
  /-- Later lines start at later positions. -/
  ascending : l.index.Pairwise fun a b => a.1 < b.1 ∧ a.2 < b.2
  /-- A position has one line, and a line has one position. -/
  injective : ∀ a ∈ l.index, ∀ b ∈ l.index, (a.1 = b.1 ↔ a.2 = b.2)
  complete : Complete code l

theorem mem_index {l : Listing} {position line : Nat} :
    (position, line) ∈ l.index ↔
      ∃ e, l.entries[line]? = some e ∧ e.size ≠ 0 ∧ e.offset = position := by
  simp only [index, List.mem_map, List.mem_filter, decide_eq_true_eq, Prod.exists, Prod.mk.injEq,
    List.mk_mem_zipIdx_iff_getElem?]
  constructor
  · rintro ⟨e, n, ⟨he, hsize⟩, hoffset, rfl⟩
    exact ⟨e, he, hsize, hoffset⟩
  · rintro ⟨e, he, hsize, hoffset⟩
    exact ⟨e, line, ⟨he, hsize⟩, hoffset, rfl⟩

/-- An index ascends if the lines it is made from do. -/
theorem index_ascending {l : Listing} (h : l.entries.Pairwise fun a b => a.offset < b.offset) :
    l.index.Pairwise fun a b => a.1 < b.1 ∧ a.2 < b.2 := by
  rw [index, List.pairwise_map]
  apply List.Pairwise.filter
  rw [List.pairwise_iff_getElem] at h ⊢
  intro m n hm hn hlt
  rw [List.length_zipIdx] at hm hn
  simp only [List.getElem_zipIdx, Nat.zero_add]
  exact ⟨h m n hm hn hlt, hlt⟩

/-- In an ascending index each side of a pair fixes the other one. -/
theorem index_injective {index : List (Nat × Nat)}
    (h : index.Pairwise fun a b => a.1 < b.1 ∧ a.2 < b.2) {a b : Nat × Nat} (ha : a ∈ index)
    (hb : b ∈ index) : a.1 = b.1 ↔ a.2 = b.2 := by
  induction h with
  | nil => cases ha
  | cons hhead _ ih =>
    rcases List.mem_cons.1 ha with rfl | ha'
    · rcases List.mem_cons.1 hb with rfl | hb'
      · exact ⟨fun _ => rfl, fun _ => rfl⟩
      · have := hhead b hb'
        omega
    · rcases List.mem_cons.1 hb with rfl | hb'
      · have := hhead a ha'
        omega
      · exact ih ha' hb'

namespace Scanned

variable {code : Bytes} {offset : Nat} {entries : List Entry}

/-- Among the lines of a scan those that stand for nothing are at the end of the code. -/
theorem size_eq_zero_iff (h : Scanned code offset entries) {e : Entry} (he : e ∈ entries) :
    e.size = 0 ↔ e.offset = code.length := by
  obtain ⟨_, hle, i, hi, heq⟩ := h.mem_decode? he
  rw [heq, Instruction.entry_offset_of_decode? hi, Instruction.entry_size_of_decode? hi]
  split <;> omega

theorem offset_add_size_le (h : Scanned code offset entries) {e : Entry} (he : e ∈ entries) :
    e.offset + e.size ≤ code.length := by
  obtain ⟨_, hle, i, hi, heq⟩ := h.mem_decode? he
  have hlen := Instruction.length_immediate_of_decode? hi
  rw [heq, Instruction.entry_offset_of_decode? hi, Instruction.entry_size_of_decode? hi]
  split <;> omega

theorem adjacent (h : Scanned code offset entries) :
    entries.IsChain fun a b => b.offset = a.offset + a.size := by
  induction h with
  | undefined _ _ => exact .nil
  | closed _ => exact .singleton _
  | cut _ _ _ => exact .singleton _
  | @step offset i entries hlt hi hwhole hrest ih =>
    refine List.isChain_cons.2 ⟨fun b hb => ?_, ih⟩
    rw [hrest.offset_of_head? (Option.mem_def.1 hb), Instruction.entry_offset_of_decode? hi,
      Instruction.entry_size_of_decode? hi, if_neg (Nat.not_le.2 hlt), hwhole, Instruction.stride]

theorem ascending (h : Scanned code offset entries) :
    entries.Pairwise fun a b => a.offset < b.offset := by
  induction h with
  | undefined _ _ => exact .nil
  | closed _ => exact List.pairwise_singleton _ _
  | cut _ _ _ => exact List.pairwise_singleton _ _
  | @step offset i entries hlt hi hwhole hrest ih =>
    refine List.pairwise_cons.2 ⟨fun b hb => ?_, ih⟩
    have hge := (hrest.mem_decode? hb).1
    rw [Instruction.entry_offset_of_decode? hi]
    rw [Instruction.stride] at hge
    omega

theorem one_le_size (h : Scanned code offset entries) {e : Entry} (he : e ∈ entries.dropLast) :
    1 ≤ e.size := by
  induction h with
  | undefined _ _ => cases he
  | closed _ => cases he
  | cut _ _ _ => cases he
  | @step offset i entries hlt hi hwhole hrest ih =>
    rcases eq_or_ne entries [] with rfl | hne
    · cases he
    · rw [List.dropLast_cons_of_ne_nil hne] at he
      rcases List.mem_cons.1 he with rfl | he
      · rw [Instruction.entry_size_of_decode? hi, if_neg (Nat.not_le.2 hlt)]
        exact Nat.le_add_right 1 _
      · exact ih he

end Scanned

/-! Lines side by side -/

/-- Lines that lie side by side from a position on. -/
structure Row (start : Nat) (entries : List Entry) : Prop where
  first : ∀ e, entries.head? = some e → e.offset = start
  adjacent : entries.IsChain fun a b => b.offset = a.offset + a.size

theorem Scanned.row {code : Bytes} {offset : Nat} {entries : List Entry} (h : Scanned code offset entries) :
    Row offset entries :=
  ⟨fun _ he => h.offset_of_head? he, h.adjacent⟩

namespace Row

variable {start : Nat} {e : Entry} {entries : List Entry}

theorem offset_eq (h : Row start (e :: entries)) : e.offset = start := h.first e rfl

theorem tail (h : Row start (e :: entries)) : Row (start + e.size) entries := by
  obtain ⟨hnext, hrest⟩ := List.isChain_cons.1 h.adjacent
  refine ⟨fun next he => ?_, hrest⟩
  rw [hnext next (Option.mem_def.2 he), h.offset_eq]

/-- Every line of a row is between its ends. -/
theorem bounds (h : Row start entries) (he : e ∈ entries) :
    start ≤ e.offset ∧ e.offset + e.size ≤ start + covered ⟨entries⟩ := by
  induction entries generalizing start with
  | nil => cases he
  | cons front rest ih =>
    rw [covered_cons]
    rcases List.mem_cons.1 he with rfl | he
    · rw [h.offset_eq]
      omega
    · have hrest := ih h.tail he
      omega

end Row

/-- The listing of any code tiles a front of the code, up to the end or to an undefined opcode, and its index
is made of the lines inside. -/
theorem ofCode_tiles (code : Bytes) : Tiles code (ofCode code) := by
  have hscan := ofCode_scanned code
  have hascending := index_ascending hscan.ascending
  refine {
    first := fun e he => hscan.offset_of_head? he
    adjacent := hscan.adjacent
    inside := fun e he => hscan.offset_add_size_le he
    positive := fun e he => hscan.one_le_size he
    empty := fun e he => hscan.size_eq_zero_iff he
    decoded := ?_
    indexed := ?_
    ascending := hascending
    injective := fun a ha b hb => index_injective hascending ha hb
    complete := ofCode_complete code }
  · intro e he
    obtain ⟨_, _, i, hi, heq⟩ := hscan.mem_decode? he
    exact ⟨i, hi, congrArg Entry.size heq, congrArg Entry.text heq⟩
  · intro position line
    rw [mem_index]
    constructor
    · rintro ⟨e, he, hsize, rfl⟩
      have hmem := List.mem_of_getElem? he
      have hle := (hscan.mem_decode? hmem).2.1
      exact ⟨Nat.lt_of_le_of_ne hle fun heq => hsize ((hscan.size_eq_zero_iff hmem).2 heq), e, he, rfl⟩
    · rintro ⟨hlt, e, he, rfl⟩
      have hmem := List.mem_of_getElem? he
      exact ⟨e, he, fun hsize => Nat.ne_of_lt hlt ((hscan.size_eq_zero_iff hmem).1 hsize), rfl⟩

end StepScope.Listing
