import StepScope.Proofs.Panels

/-!
A dump tells its buffer. Its rows are lines, each with sixteen bytes behind its offset and the last with those
that are left, and they are read back one by one. So the text of an outcome tells the outcome, with all the
bytes that are returned.
-/

namespace StepScope

open Text (ofLines)

namespace HexDump

/-- The number of rows, the last of which may be short. -/
def count (bytes : Bytes) : Nat := (bytes.length + (width - 1)) / width

/-- The bytes of a row. -/
def block (bytes : Bytes) (k : Nat) : Bytes :=
  (bytes.take (min (width * k + width) bytes.length)).drop (width * k)

theorem row_eq (offset : Nat) (bytes : Bytes) : row offset bytes = line offset bytes ++ ['\n'] := by
  rw [row, line, List.append_assoc, List.cons_append]

theorem newline_not_mem_line (offset : Nat) (bytes : Bytes) : '\n' ∉ line offset bytes :=
  fun h => absurd (isHexDigit_or_space_of_mem_line h) (by decide)

theorem block_eq (bytes : Bytes) (k : Nat) : block bytes k = (bytes.drop (width * k)).take width := by
  rw [block, List.drop_take, List.take_eq_take_iff, List.length_drop]
  omega

theorem block_zero (bytes : Bytes) : block bytes 0 = bytes.take width := by
  rw [block_eq, Nat.mul_zero, List.drop_zero]

theorem block_succ (bytes : Bytes) (k : Nat) : block bytes (k + 1) = block (bytes.drop width) k := by
  rw [block_eq, block_eq, List.drop_drop, Nat.mul_succ, Nat.add_comm]

theorem count_cons (b : UInt8) (rest : Bytes) :
    count (b :: rest) = count ((b :: rest).drop width) + 1 := by
  simp only [count, width, List.length_drop, List.length_cons]
  omega

theorem range_count_cons (b : UInt8) (rest : Bytes) :
    List.range (count (b :: rest)) = 0 :: (List.range (count ((b :: rest).drop width))).map (· + 1) := by
  rw [count_cons, List.range_succ_eq_map]

theorem rows_eq (offset : Nat) (bytes : Bytes) :
    rows offset bytes =
      (List.range (count bytes)).map fun k => row (offset + width * k) (block bytes k) := by
  fun_induction rows offset bytes with
  | case1 offset => rfl
  | case2 offset b rest ih =>
    rw [range_count_cons, List.map_cons, List.map_map, ih, Nat.mul_zero, Nat.add_zero, block_zero]
    congr 1
    refine List.map_congr_left fun k _ => ?_
    rw [Function.comp_apply, block_succ, Nat.mul_succ, Nat.add_assoc, Nat.add_comm width]

/-- The dump is the lines of its rows. -/
theorem text_eq_ofLines (bytes : Bytes) :
    text bytes = ofLines ((List.range (count bytes)).map fun k => line (width * k) (block bytes k)) := by
  rw [text, rows_eq, ofLines, List.flatMap_map, List.flatMap_def]
  refine congrArg List.flatten (List.map_congr_left fun k _ => ?_)
  rw [Nat.zero_add, row_eq]

/-- No byte is left out and none comes twice. -/
theorem flatten_blocks (offset : Nat) (bytes : Bytes) :
    ((List.range (count bytes)).map (block bytes)).flatten = bytes := by
  induction offset, bytes using rows.induct with
  | case1 offset => rfl
  | case2 offset b rest ih =>
    have hrest : block (b :: rest) ∘ (· + 1) = block ((b :: rest).drop width) := funext (block_succ _)
    rw [range_count_cons, List.map_cons, List.map_map, hrest, List.flatten_cons, ih, block_zero,
      List.take_append_drop]

/-! Reading -/

theorem readGroups?_flatMap (bytes : Bytes) :
    readGroups? (bytes.flatMap fun b => Hex.ofByte b ++ [' ']) = some bytes := by
  induction bytes with
  | nil => rfl
  | cons b bytes ih =>
    have hb := b.toNat_lt
    have hhigh := Hex.digit?_digitChar (show b.toNat / 16 < 16 by omega)
    have hlow := Hex.digit?_digitChar (show b.toNat % 16 < 16 by omega)
    have hvalue : 16 * (b.toNat / 16) + b.toNat % 16 = b.toNat := by omega
    rw [List.flatMap_cons, Hex.ofByte]
    simp only [List.cons_append, List.nil_append, readGroups?, hhigh, hlow, ih, Option.map_some, hvalue,
      UInt8.ofNat_toNat]

theorem readRow?_line (offset : Nat) (bytes : Bytes) : readRow? (line offset bytes) = some bytes := by
  have hoffset : ∀ c ∈ Text.offset offset, decide (c ≠ ' ') = true := by
    intro c hc
    refine decide_eq_true ?_
    rintro rfl
    exact absurd (Text.isHexDigit_of_mem_offset hc) (by decide)
  rw [readRow?, line, List.dropWhile_append_of_pos hoffset]
  exact readGroups?_flatMap bytes

/-- The buffer is read back from its dump. -/
@[simp] theorem read?_text (bytes : Bytes) : read? (text bytes) = some bytes := by
  have hlines : ∀ l ∈ (List.range (count bytes)).map fun k => line (width * k) (block bytes k), '\n' ∉ l :=
    List.forall_mem_map.2 fun k _ => newline_not_mem_line _ _
  have hrows : ((List.range (count bytes)).map fun k => line (width * k) (block bytes k)).mapM readRow? =
      some ((List.range (count bytes)).map (block bytes)) := by
    rw [List.mapM_map, show readRow? ∘ _ = fun k => pure (block bytes k) from funext fun k => readRow?_line _ _]
    exact List.mapM_pure
  rw [read?, text_eq_ofLines, Text.split_ofLines hlines, List.dropLast_concat, hrows, Option.map_some,
    flatten_blocks 0]

theorem text_injective : Function.Injective text := by
  intro a b h
  have hread := congrArg read? h
  rw [read?_text, read?_text] at hread
  exact Option.some.inj hread

end HexDump

namespace Outcome

/-- The text of an outcome begins with two letters of its own. -/
def initials : Outcome → Text
  | .outOfGas => ['O', 'U']
  | .returned _ => ['R', 'E']
  | .stopped => ['S', 'T']
  | .selfDestructed _ => ['S', 'U']
  | .exception => ['E', 'X']

theorem take_text (o : Outcome) : o.text.take 2 = o.initials := by
  cases o <;> rfl

/-- Outcomes are told apart by their text. -/
theorem text_injective : Function.Injective text := by
  intro o o' h
  have hinitials : o.initials = o'.initials := by rw [← take_text, ← take_text, h]
  cases o <;> cases o' <;> try cases hinitials
  case outOfGas.outOfGas => rfl
  case stopped.stopped => rfl
  case exception.exception => rfl
  case returned.returned a b =>
    rw [HexDump.text_injective (List.append_cancel_left h)]
  case selfDestructed.selfDestructed a b =>
    rw [Renderer.text_injective (List.append_cancel_left h)]

/-- A dump is made of as many lines as sixteen bytes a line take, each with its offset and the bytes from there
on, and the buffer is read back from it. The text of an outcome tells the outcome. -/
theorem dumps_and_outcomes_told :
    (∀ bytes, HexDump.read? (HexDump.text bytes) = some bytes) ∧
    (∀ bytes, HexDump.text bytes = ofLines ((List.range (HexDump.count bytes)).map fun k =>
      HexDump.line (HexDump.width * k) (HexDump.block bytes k))) ∧
    (∀ offset bytes, '\n' ∉ HexDump.line offset bytes ∧ 4 ≤ (Text.offset offset).length ∧
      Hex.number? (Text.offset offset) = some offset) ∧
    ∀ o o' : Outcome, o.text = o'.text ↔ o = o' := by
  refine ⟨HexDump.read?_text, HexDump.text_eq_ofLines, fun offset bytes => ?_, fun o o' => ?_⟩
  · refine ⟨HexDump.newline_not_mem_line offset bytes, ?_, Hex.number?_offset offset⟩
    rw [Text.offset, List.length_leftpad]
    exact Nat.le_max_left 4 _
  · exact ⟨fun h => text_injective h, congrArg text⟩

end Outcome

end StepScope
