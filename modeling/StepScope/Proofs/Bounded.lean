import Mathlib.Algebra.Group.Nat.Defs
import StepScope.Listing.Bounded
import StepScope.Proofs.Composition
import StepScope.Proofs.Endings
import StepScope.Proofs.Keyed
import StepScope.Proofs.Outcomes

/-!
64 bits are enough. As long as the length of the code is a signed number of 64 bits, no slice has its bounds
out of order or behind the end, and no sum that is taken as it is wraps. So the machine with positions of 64
bits never stops early, and it finds what is found with positions of any magnitude.
-/

namespace StepScope.Bounded

open Checked

theorem lt_size {n : Nat} (h : n ≤ 2 ^ 63 - 1) : n < UInt64.size := Nat.lt_of_le_of_lt h (by decide)

variable {code : Bytes}

/-! One instruction -/

theorem toNat_operandStart (length offset : UInt64) :
    (operandStart length offset).toNat = min (offset.toNat + 1) length.toNat := by
  have hlength := length.toNat_lt_size
  rw [operandStart, UInt64.toNat_min, Saturated.toNat_add, show (1 : UInt64).toNat = 1 from rfl]
  omega

theorem toNat_operandStop (length offset announced : UInt64) :
    (operandStop length offset announced).toNat =
      min (offset.toNat + 1 + announced.toNat) length.toNat := by
  have hlength := length.toNat_lt_size
  rw [operandStop, UInt64.toNat_min, Saturated.toNat_add, toNat_operandStart]
  omega

theorem operandStart_le_operandStop (length offset announced : UInt64) :
    operandStart length offset ≤ operandStop length offset announced := by
  rw [UInt64.le_iff_toNat_le, toNat_operandStart, toNat_operandStop]
  omega

theorem slice_operand (h : code.length < UInt64.size) (offset announced : UInt64) :
    slice code (operandStart (extent code) offset).toNat (operandStop (extent code) offset announced).toNat =
      .ok ((code.drop (offset.toNat + 1)).take announced.toNat) := by
  rw [toNat_operandStart, toNat_operandStop, toNat_extent h, slice_eq_ok (by omega) (by omega), drop_take_min]

theorem toNat_immediateSize (opcode : UInt8) :
    (UInt64.ofNat (Opcode.immediateSize opcode)).toNat = Opcode.immediateSize opcode :=
  UInt64.toNat_ofNat_of_lt' (Nat.lt_of_le_of_lt (Opcode.immediateSize_le opcode) (by decide))

/-- With a position of 64 bits the same instruction is read as with any other. -/
theorem decode?_eq (h : code.length < UInt64.size) (offset : UInt64) :
    decode? code offset = .ok (Instruction.decode? code offset.toNat) := by
  rw [Instruction.decode?, Instruction.ofRest?, List.headD_eq_head?_getD, List.head?_drop, decode?]
  dsimp only
  cases Opcode.mnemonic? (code[offset.toNat]?.getD Opcode.stop) with
  | none => rfl
  | some mnemonic =>
    dsimp only
    rw [slice_operand h, toNat_immediateSize, ← List.tail_drop]
    rfl

-- The byte behind the greatest position has no position of its own.
example : decode? [0x60] Saturated.greatest = .ok (some ⟨UInt64.size - 1, Opcode.stop, "STOP".toList, []⟩) := rfl

theorem stride_le (i : Instruction) : i.stride ≤ 33 :=
  Nat.add_le_add_left (Opcode.immediateSize_le i.opcode) 1

theorem exists_stride (i : Instruction) : ∃ n, stride i = .ok n ∧ n.toNat = i.stride := by
  have hannounced : (UInt64.ofNat i.announced).toNat = i.announced := toNat_immediateSize i.opcode
  have hfits : (1 : UInt64).toNat + (UInt64.ofNat i.announced).toNat < UInt64.size := by
    rw [hannounced]
    exact Nat.lt_of_le_of_lt (stride_le i) (by decide)
  obtain ⟨n, hadd, hn⟩ := exists_add hfits
  rw [hannounced] at hn
  exact ⟨n, hadd, hn⟩

/-- The operand that has been read is a part of the code, so that its size fits, too. -/
theorem exists_size (h : code.length < UInt64.size) {offset : Nat} {i : Instruction}
    (hi : Instruction.decode? code offset = some i) :
    ∃ n, size i (extent code) = .ok n ∧ n.toNat = i.size code.length := by
  have hlength := Instruction.length_immediate_of_decode? hi
  have hoffset := Instruction.offset_of_decode? hi
  rw [size, Instruction.size, toNat_extent h]
  split
  · exact ⟨0, rfl, rfl⟩
  · have hextent : (extent i.immediate).toNat = i.immediate.length := toNat_extent (by omega)
    have hfits : (1 : UInt64).toNat + (extent i.immediate).toNat < UInt64.size := by
      rw [hextent, show (1 : UInt64).toNat = 1 from rfl]
      omega
    obtain ⟨n, hadd, hn⟩ := exists_add hfits
    rw [hextent] at hn
    exact ⟨n, hadd, hn⟩

/-! One turn -/

variable {s s' : Scan} {i : Instruction}

theorem turn_of_undefined (h : code.length ≤ 2 ^ 63 - 1)
    (hi : Instruction.decode? code s.position.toNat = none) : turn code s = .ok none := by
  rw [turn, decode?_eq (lt_size h), hi]
  rfl

/-- The sums of a turn are exact if its position is not behind the end of the code. -/
theorem turn_of_decode? (h : code.length ≤ 2 ^ 63 - 1) (hs : s.position ≤ extent code)
    (hi : Instruction.decode? code s.position.toNat = some i) :
    ∃ bytes next, turn code s = .ok (some (s.enter (extent code) i bytes next)) ∧
      bytes.toNat = i.size code.length ∧ next.toNat = s.position.toNat + i.stride := by
  obtain ⟨bytes, hsize, hbytes⟩ := exists_size (lt_size h) hi
  obtain ⟨distance, hstride, hdistance⟩ := exists_stride i
  have hfits : s.position.toNat + distance.toNat < UInt64.size := by
    have hposition := (le_extent_iff (lt_size h)).1 hs
    have hle := stride_le i
    rw [hdistance, UInt64.size]
    omega
  obtain ⟨next, hadd, hnext⟩ := exists_add hfits
  rw [hdistance] at hnext
  refine ⟨bytes, next, ?_, hbytes, hnext⟩
  -- The three sums come one after the other, and none of them breaks the turn off.
  rw [turn, decode?_eq (lt_size h), hi]
  change (size i (extent code)).bind _ = _
  rw [hsize]
  change (stride i).bind _ = _
  rw [hstride]
  change (add s.position distance).bind _ = _
  rw [hadd]
  rfl

/-- What a turn can do. -/
theorem turn_cases (h : code.length ≤ 2 ^ 63 - 1) (hs : s.position ≤ extent code) :
    turn code s = .ok none ∨ ∃ i s', Instruction.decode? code s.position.toNat = some i ∧
      turn code s = .ok (some s') ∧ s'.position.toNat = s.position.toNat + i.stride := by
  cases hi : Instruction.decode? code s.position.toNat with
  | none => exact .inl (turn_of_undefined h hi)
  | some i =>
    obtain ⟨bytes, next, hturn, -, hnext⟩ := turn_of_decode? h hs hi
    exact .inr ⟨i, _, rfl, hturn, hnext⟩

/-! What has been listed -/

/-- A position of 64 bits with its line. -/
def place (e : UInt64 × Nat) : Nat × Nat := (e.1.toNat, e.2)

/-- The scan has listed these lines, all of them in front of its position. -/
structure Scan.Shows (s : Scan) (entries : List Entry) : Prop where
  lines : s.lines.map Line.entry = entries
  starts : s.starts.entries.map place = Listing.index ⟨entries⟩
  before : ∀ e ∈ s.starts.entries, e.1 < s.position

theorem index_append_singleton (entries : List Entry) (e : Entry) :
    Listing.index ⟨entries ++ [e]⟩ =
      Listing.index ⟨entries⟩ ++ if e.size = 0 then [] else [(e.offset, entries.length)] := by
  rw [Listing.index_append]
  by_cases hsize : e.size = 0 <;> simp [Listing.index, hsize]

namespace Scan.Shows

variable {entries : List Entry}

theorem empty : Shows {} [] := ⟨rfl, rfl, nofun⟩

theorem length_lines (h : s.Shows entries) : s.lines.length = entries.length := by
  rw [← h.lines, List.length_map]

theorem enter (h : s.Shows entries) {length bytes next : UInt64} (hoffset : i.offset = s.position.toNat)
    (hbytes : bytes.toNat = i.size length.toNat) (hnext : s.position < next) :
    (s.enter length i bytes next).Shows (entries ++ [i.entry length.toNat]) := by
  have hlast : ∀ e ∈ s.starts.entries, KeyOrder.before e.1 s.position = true := fun e he =>
    decide_eq_true (h.before e he)
  refine ⟨?_, ?_, ?_⟩
  · rw [Scan.enter, List.map_append, h.lines, List.map_singleton, Line.entry, hbytes, ← hoffset]
    rfl
  · have hsize : (i.entry length.toNat).size = 0 ↔ length ≤ s.position := by
      rw [UInt64.le_iff_toNat_le, ← hoffset]
      exact Instruction.size_eq_zero_iff
    rw [index_append_singleton, ← h.starts, Scan.enter]
    dsimp only
    -- Inside the code the position becomes a start, and there the line stands for something.
    by_cases hlt : s.position < length
    · rw [if_pos hlt, if_neg (mt hsize.1 (UInt64.not_le.2 hlt)), Keyed.entries_insert_of_last hlast,
        List.map_append, ← h.length_lines, Instruction.entry, hoffset]
      rfl
    · rw [if_neg hlt, if_pos (hsize.2 (UInt64.not_lt.1 hlt)), List.append_nil]
  · intro e he
    rw [Scan.enter] at he ⊢
    dsimp only at he ⊢
    split at he
    · rw [Keyed.entries_insert_of_last hlast] at he
      rcases List.mem_append.1 he with he | he
      · exact UInt64.lt_trans (h.before e he) hnext
      · obtain rfl := List.mem_singleton.1 he
        exact hnext
    · exact UInt64.lt_trans (h.before e he) hnext

end Scan.Shows

/-- A turn adds the line of the instruction at its position. -/
theorem turn_shows (h : code.length ≤ 2 ^ 63 - 1) {done : List Entry} (hshows : s.Shows done)
    (hs : s.position ≤ extent code) (hi : Instruction.decode? code s.position.toNat = some i) :
    ∃ s', turn code s = .ok (some s') ∧ s'.position.toNat = s.position.toNat + i.stride ∧
      s'.Shows (done ++ [i.entry code.length]) := by
  have hextent := toNat_extent (lt_size h)
  obtain ⟨bytes, next, hturn, hbytes, hnext⟩ := turn_of_decode? h hs hi
  have hlt : s.position < next := by
    rw [UInt64.lt_iff_toNat_lt, hnext]
    exact Nat.lt_add_of_pos_right i.stride_pos
  have henter := hshows.enter (Instruction.offset_of_decode? hi) (hextent.symm ▸ hbytes) hlt
  rw [hextent] at henter
  exact ⟨_, hturn, hnext, henter⟩

/-! The whole scan -/

section Run

variable {limit : Nat}

theorem run_of_lt (hs : extent code < s.position) : run code limit s = .ok (some s) := by
  rw [run.eq_def, if_neg (UInt64.not_le.2 hs)]

theorem run_of_turn_none (hlimit : 0 < limit) (hs : s.position ≤ extent code)
    (hturn : turn code s = .ok none) : run code limit s = .ok (some s) := by
  obtain ⟨later, rfl⟩ := Nat.exists_eq_add_one_of_ne_zero (Nat.ne_of_gt hlimit)
  rw [run.eq_def, if_pos hs]
  change (turn code s).bind _ = _
  rw [hturn]
  rfl

theorem run_of_turn_some (hlimit : 0 < limit) (hs : s.position ≤ extent code)
    (hturn : turn code s = .ok (some s')) : run code limit s = run code (limit - 1) s' := by
  obtain ⟨later, rfl⟩ := Nat.exists_eq_add_one_of_ne_zero (Nat.ne_of_gt hlimit)
  rw [run.eq_def, if_pos hs]
  change (turn code s).bind _ = _
  rw [hturn]
  rfl

end Run

/-- The turn of an instruction that is not followed by another one ends the scan. -/
theorem exists_run_last (h : code.length ≤ 2 ^ 63 - 1) {done : List Entry} (hshows : s.Shows done)
    (hs : s.position ≤ extent code) (hi : Instruction.decode? code s.position.toNat = some i)
    (hend : code.length < s.position.toNat + i.stride) :
    ∃ s', (∀ limit, 0 < limit → run code limit s = .ok (some s')) ∧
      s'.Shows (done ++ [i.entry code.length]) := by
  obtain ⟨s', hturn, hposition, hshows'⟩ := turn_shows h hshows hs hi
  have hbehind : extent code < s'.position := (extent_lt_iff (lt_size h)).2 (hposition ▸ hend)
  exact ⟨s', fun limit hlimit => (run_of_turn_some hlimit hs hturn).trans (run_of_lt hbehind), hshows'⟩

/-- A scan that may take a turn for every position that is left, that of the end included, lists all that there
is. -/
theorem exists_run (h : code.length ≤ 2 ^ 63 - 1) {offset : Nat} {entries done : List Entry}
    (hscan : Listing.Scanned code offset entries) (hoffset : s.position.toNat = offset)
    (hshows : s.Shows done) :
    ∃ s', (∀ limit, code.length < offset + limit → run code limit s = .ok (some s')) ∧
      s'.Shows (done ++ entries) := by
  have hopen : ∀ {s : Scan}, s.position.toNat ≤ code.length → s.position ≤ extent code :=
    (le_extent_iff (lt_size h)).2
  -- Every rule of the scan is one turn, and what a rule leaves to be scanned is behind the next position.
  induction hscan generalizing s done with
  | @undefined offset hlt hnone =>
    subst hoffset
    refine ⟨s, fun limit hlimit => ?_, (List.append_nil done).symm ▸ hshows⟩
    exact run_of_turn_none (by omega) (hopen (Nat.le_of_lt hlt)) (turn_of_undefined h hnone)
  | @closed i hi =>
    rw [← hoffset] at hi
    have hend : code.length < s.position.toNat + i.stride := hoffset ▸ Nat.lt_add_of_pos_right i.stride_pos
    obtain ⟨s', hrun, hshows'⟩ := exists_run_last h hshows (hopen (Nat.le_of_eq hoffset)) hi hend
    exact ⟨s', fun limit hlimit => hrun limit (by omega), hshows'⟩
  | @cut offset i hlt hi hshort =>
    subst hoffset
    have hlength := Instruction.length_immediate_of_decode? hi
    have hend : code.length < s.position.toNat + i.stride := by
      rw [Instruction.stride]
      omega
    obtain ⟨s', hrun, hshows'⟩ := exists_run_last h hshows (hopen (Nat.le_of_lt hlt)) hi hend
    exact ⟨s', fun limit hlimit => hrun limit (by omega), hshows'⟩
  | @step offset i entries hlt hi hwhole hrest ih =>
    subst hoffset
    have hpos := i.stride_pos
    obtain ⟨next, hturn, hposition, hnext⟩ := turn_shows h hshows (hopen (Nat.le_of_lt hlt)) hi
    obtain ⟨s', hrun, hshows'⟩ := ih hposition hnext
    rw [List.append_assoc, List.singleton_append] at hshows'
    refine ⟨s', fun limit hlimit => ?_, hshows'⟩
    rw [run_of_turn_some (by omega) (hopen (Nat.le_of_lt hlt)) hturn]
    exact hrun (limit - 1) (by omega)

/-! Every state of the scan -/

/-- The longest operand is announced inside the code; at its end there is a `STOP`. -/
theorem add_stride_le {offset : Nat} (hle : offset ≤ code.length)
    (hi : Instruction.decode? code offset = some i) : offset + i.stride ≤ code.length + 32 := by
  rcases Nat.lt_or_eq_of_le hle with hlt | rfl
  · have hstride := stride_le i
    omega
  · have hstop := Option.some.inj (hi.symm.trans (Instruction.decode?_length code))
    have hstride : i.stride = 1 := by
      rw [hstop]
      rfl
    omega

theorem After.bounds (h : code.length ≤ 2 ^ 63 - 1) {turns : Nat} (hafter : After code turns s) :
    turns ≤ s.position.toNat ∧ s.position.toNat ≤ code.length + 32 := by
  induction hafter with
  | start => exact ⟨Nat.le_refl _, Nat.zero_le _⟩
  | @turn turns s s' _ hs hturn ih =>
    obtain hnone | ⟨i, s'', hi, hturn', hposition⟩ := turn_cases h hs
    · cases hturn.symm.trans hnone
    · cases hturn.symm.trans hturn'
      have hpos := i.stride_pos
      have hnext := add_stride_le ((le_extent_iff (lt_size h)).1 hs) hi
      omega

/-! Look-up -/

namespace Scan.Shows

/-- The line that a start leads to ends inside the code. -/
theorem inside (h : s.Shows (Listing.ofCode code).entries) {e : UInt64 × Nat} (he : e ∈ s.starts.entries) :
    ∃ l, s.lines[e.2]? = some l ∧ e.1.toNat + l.size.toNat ≤ code.length := by
  have hmem : place e ∈ (Listing.ofCode code).index := h.starts ▸ List.mem_map_of_mem he
  obtain ⟨entry, hentry, -, hoffset⟩ := Listing.mem_index.1 hmem
  have hle := (Listing.ofCode_scanned code).offset_add_size_le (List.mem_of_getElem? hentry)
  rw [← h.lines, List.getElem?_map] at hentry
  obtain ⟨l, hl, rfl⟩ := Option.map_eq_some_iff.1 hentry
  rw [hoffset] at hle
  exact ⟨l, hl, hle⟩

/-- The last start up to a position is the same as in the index. -/
theorem getLast?_takeWhile (h : s.Shows entries) (position : UInt64) :
    ((Listing.index ⟨entries⟩).takeWhile fun start => start.1 ≤ position.toNat).getLast? =
      (s.starts.entries.takeWhile fun e => e.1 ≤ position).getLast?.map place := by
  have htest : (fun start : Nat × Nat => decide (start.1 ≤ position.toNat)) ∘ place =
      fun e : UInt64 × Nat => decide (e.1 ≤ position) := by
    funext e
    exact decide_eq_decide.2 UInt64.le_iff_toNat_le.symm
  rw [← h.starts, List.takeWhile_map, htest, List.getLast?_map]

/-- The same line is found as with positions of any magnitude. -/
theorem lineContaining?_eq (h : s.Shows (Listing.ofCode code).entries) (hcode : code.length < UInt64.size)
    (position : UInt64) :
    lineContaining? s position = .ok ((Listing.ofCode code).lineContaining? position.toNat) := by
  change _ = Except.ok ((((Listing.ofCode code).index.takeWhile fun start =>
    start.1 ≤ position.toNat).getLast?).bind _)
  rw [h.getLast?_takeWhile, lineContaining?]
  cases hfound : (s.starts.entries.takeWhile fun e => e.1 ≤ position).getLast? with
  | none => rfl
  | some e =>
    obtain ⟨l, hl, hle⟩ := h.inside ((List.takeWhile_prefix _).subset (List.mem_of_getLast? hfound))
    obtain ⟨stop, hadd, hstop⟩ := exists_add (Nat.lt_of_le_of_lt hle hcode)
    have hentry : (Listing.ofCode code).entries[e.2]? = some l.entry := by
      rw [← h.lines, List.getElem?_map, hl]
      rfl
    have hcovers : position < stop ↔ position.toNat < e.1.toNat + l.entry.size := by
      rw [UInt64.lt_iff_toNat_lt, hstop]
      rfl
    dsimp only
    rw [hl]
    dsimp only
    rw [hadd, Option.map_some, Option.bind_some]
    change _ = Except.ok (((Listing.ofCode code).entries[e.2]?).bind _)
    rw [hentry]
    exact congrArg Except.ok (if_congr hcovers rfl rfl)

end Scan.Shows

/-! The main result -/

/-- The scan of the code is over in this state, and what it has listed is the listing of the code. -/
structure Finished (code : Bytes) (s : Scan) : Prop where
  /-- There are no more turns than positions in the code, that of its end included. -/
  ends : ∀ limit, code.length + 1 ≤ limit → run code limit {} = .ok (some s)
  lines : s.lines.map Line.entry = (Listing.ofCode code).entries
  starts : s.starts.entries.map place = (Listing.ofCode code).index
  /-- Every start leads to a line that ends inside the code. -/
  inside : ∀ e ∈ s.starts.entries, ∃ l, s.lines[e.2]? = some l ∧ e.1.toNat + l.size.toNat ≤ code.length
  /-- At every position the look-up finds what it finds in the listing. -/
  found : ∀ position, lineContaining? s position = .ok ((Listing.ofCode code).lineContaining? position.toNat)

/-- Whatever is done with the code, every sum fits and every slice is inside. -/
structure Fits (code : Bytes) : Prop where
  /-- Wherever an operand starts, and whatever is announced of it, its bounds are in order and in the code. -/
  operand : ∀ offset announced : UInt64,
    operandStart (extent code) offset ≤ operandStop (extent code) offset announced ∧
      (operandStop (extent code) offset announced).toNat ≤ code.length
  /-- At every offset the same instruction is read as with offsets of any magnitude. -/
  decoded : ∀ offset : UInt64, decode? code offset = .ok (Instruction.decode? code offset.toNat)
  /-- The scan does not come further behind the end of the code than the longest operand. -/
  reached : ∀ turns s, After code turns s → s.position.toNat ≤ code.length + 32
  /-- No turn comes after as many turns as there are positions, that of the end included; and a turn either is
  at an undefined opcode or comes to a later position, by the exact sum. -/
  advances : ∀ turns s, After code turns s → s.position ≤ extent code → turns + 1 ≤ code.length + 1 ∧
    (turn code s = .ok none ∨ ∃ i s', Instruction.decode? code s.position.toNat = some i ∧
      turn code s = .ok (some s') ∧ s.position < s'.position ∧
      s'.position.toNat = s.position.toNat + i.stride)
  finishes : ∃ s, Finished code s

theorem fits (h : code.length ≤ 2 ^ 63 - 1) : Fits code := by
  refine {
    operand := fun offset announced => ⟨operandStart_le_operandStop _ _ _, ?_⟩
    decoded := decode?_eq (lt_size h)
    reached := fun _ _ hafter => (hafter.bounds h).2
    advances := fun turns s hafter hs => ⟨?_, ?_⟩
    finishes := ?_ }
  · rw [toNat_operandStop, toNat_extent (lt_size h)]
    exact Nat.min_le_right _ _
  · exact Nat.succ_le_succ (Nat.le_trans (hafter.bounds h).1 ((le_extent_iff (lt_size h)).1 hs))
  · refine (turn_cases h hs).imp_right ?_
    rintro ⟨i, s', hi, hturn, hposition⟩
    refine ⟨i, s', hi, hturn, ?_, hposition⟩
    rw [UInt64.lt_iff_toNat_lt, hposition]
    exact Nat.lt_add_of_pos_right i.stride_pos
  · obtain ⟨s, hrun, hshows⟩ := exists_run h (Listing.ofCode_scanned code) rfl Scan.Shows.empty
    rw [List.nil_append] at hshows
    refine ⟨s, fun limit hlimit => hrun limit ?_, hshows.lines, hshows.starts, fun e he => hshows.inside he,
      hshows.lineContaining?_eq (lt_size h)⟩
    omega

theorem windowStart_le_windowStop (length : Nat) (offset size : Word) :
    Outcome.windowStart length offset ≤ Outcome.windowStop length offset size := by
  have hoffset := (Saturated.ofNat offset.toNat).toNat_lt_size
  rw [Outcome.windowStart, Outcome.windowStop, Saturated.toNat_add]
  omega

/-- Code fits into 64 bits if its length is a signed number of 64 bits, and in memory of any length the bounds of
what a step returns are in order and inside. -/
theorem code_and_memory_fit (code : Bytes) (h : code.length ≤ 2 ^ 63 - 1) : Fits code ∧
    ∀ (memory : Bytes) (offset size : Word),
      Outcome.windowStart memory.length offset ≤ Outcome.windowStop memory.length offset size ∧
      Outcome.windowStop memory.length offset size ≤ memory.length ∧
      slice memory (Outcome.windowStart memory.length offset) (Outcome.windowStop memory.length offset size) =
        .ok (Outcome.window memory offset size) := by
  refine ⟨fits h, fun memory offset size => ?_⟩
  have hstart := windowStart_le_windowStop memory.length offset size
  have hstop : Outcome.windowStop memory.length offset size ≤ memory.length := Nat.min_le_right _ _
  exact ⟨hstart, hstop, slice_eq_ok hstart hstop⟩

/-- A push, and another one whose operand is not there at all. -/
def pushes : Bytes := [0x60, 0x01, 0x7f]

def afterOne : Scan where
  position := 2
  lines := [⟨0, 2, "0000  PUSH1 0x01".toList⟩]
  starts := Keyed.ofList [(0, 0)]

def afterBoth : Scan where
  position := 35
  lines := [⟨0, 2, "0000  PUSH1 0x01".toList⟩, ⟨2, 1, "0002  PUSH32".toList⟩]
  starts := Keyed.ofList [(0, 0), (2, 1)]

/-- The scan comes as far behind the code as it can. -/
theorem code_and_memory_fit_pushes :
    pushes.length ≤ 2 ^ 63 - 1 ∧ After pushes 1 afterOne ∧ afterOne.position ≤ extent pushes ∧ 1 + 1 ≤ 3 + 1 ∧
      After pushes 2 afterBoth ∧ afterBoth.position.toNat ≤ 3 + 32 ∧ afterBoth.position = 35 ∧
      run pushes 4 {} = .ok (some afterBoth) ∧
      (∃ l, afterBoth.lines[1]? = some l ∧ 2 + l.size.toNat ≤ 3) ∧
      lineContaining? afterBoth 1 = .ok ((Listing.ofCode pushes).lineContaining? 1) ∧
      slice [1, 2, 3] 1 3 = .ok (Outcome.window [1, 2, 3] 1 (0 - 1)) := by
  have hlength : pushes.length ≤ 2 ^ 63 - 1 := by decide
  obtain ⟨hfits, hmemory⟩ := code_and_memory_fit pushes hlength
  have hone : After pushes 1 afterOne := .turn .start (by decide) rfl
  have hopen : afterOne.position ≤ extent pushes := by decide
  have hboth : After pushes 2 afterBoth := .turn hone hopen rfl
  obtain ⟨s, hs⟩ := hfits.finishes
  have hrun : run pushes 4 {} = .ok (some s) := hs.ends 4 (by decide)
  obtain rfl : afterBoth = s := Option.some.inj (Except.ok.inj hrun)
  exact ⟨hlength, hone, hopen, (hfits.advances 1 afterOne hone hopen).1, hboth, hfits.reached 2 afterBoth hboth,
    rfl, hrun, hs.inside (2, 1) (by decide), hs.found 1, (hmemory [1, 2, 3] 1 (0 - 1)).2.2⟩

end StepScope.Bounded
