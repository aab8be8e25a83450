import StepScope.Proofs.Lines

/-!
Stack panels by depth. The panel has a line for every word of the stack, the line at a depth shows the word that
is seen there, and there are no others. The operands of an outcome are the words of the first lines.
-/

namespace StepScope

namespace Snapshot

variable {x : Snapshot} {depth : Nat}

theorem peek?_eq_none_iff : x.peek? depth = none ↔ x.stack.length ≤ depth := by
  rw [peek?, List.getElem?_eq_none_iff, List.length_reverse]

theorem exists_peek? (h : depth < x.stack.length) : ∃ w, x.peek? depth = some w :=
  Option.ne_none_iff_exists'.1 fun hnone => absurd (peek?_eq_none_iff.1 hnone) (Nat.not_le.2 h)

end Snapshot

namespace View

variable {v u : View}

/-- The lines of the stack, the top first. -/
def stackLines (v : View) : List Text := v.snapshot.stack.reverse.map v.renderer.word

theorem length_stackLines (v : View) : v.stackLines.length = v.snapshot.stack.length := by
  rw [stackLines, List.length_map, List.length_reverse]

theorem getElem?_stackLines (v : View) (depth : Nat) :
    v.stackLines[depth]? = (v.snapshot.peek? depth).map v.renderer.word :=
  List.getElem?_map

theorem newline_not_mem_stackLines (h : v.renderer.OneLine) : ∀ l ∈ v.stackLines, '\n' ∉ l :=
  List.forall_mem_map.2 fun w _ => Renderer.newline_not_mem_word h w

theorem stack_eq (v : View) : v.stack = Text.ofLines v.stackLines := v.renderer.stack_eq_ofLines _

theorem split_stack (h : v.renderer.OneLine) : Text.split '\n' v.stack = v.stackLines ++ [[]] := by
  rw [stack_eq, Text.split_ofLines (newline_not_mem_stackLines h)]

theorem stackLines_eq_iff :
    v.stackLines = u.stackLines ↔
      v.snapshot.stack.length = u.snapshot.stack.length ∧ ∀ depth < v.snapshot.stack.length,
        (v.snapshot.peek? depth).map v.renderer.word = (u.snapshot.peek? depth).map u.renderer.word := by
  constructor
  · intro h
    refine ⟨?_, fun depth _ => ?_⟩
    · rw [← length_stackLines, ← length_stackLines, h]
    · rw [← getElem?_stackLines, ← getElem?_stackLines, h]
  · rintro ⟨hlength, hwords⟩
    refine List.ext_getElem? fun depth => ?_
    rw [getElem?_stackLines, getElem?_stackLines]
    rcases Nat.lt_or_ge depth v.snapshot.stack.length with hinside | hbehind
    · exact hwords depth hinside
    · rw [Snapshot.peek?_eq_none_iff.2 hbehind, Snapshot.peek?_eq_none_iff.2 (hlength ▸ hbehind)]
      rfl

theorem stack_eq_iff (hv : v.renderer.OneLine) (hu : u.renderer.OneLine) :
    v.stack = u.stack ↔ v.stackLines = u.stackLines := by
  rw [stack_eq, stack_eq]
  exact ⟨Text.ofLines_inj (newline_not_mem_stackLines hv) (newline_not_mem_stackLines hu),
    congrArg Text.ofLines⟩

/-- An outcome with operands has them from the words that the first lines show. -/
def OperandsShown (v : View) (lines : List Text) : Outcome → Prop
  | .returned data => ∃ offset size, lines[0]? = some (v.renderer.word offset) ∧
      lines[1]? = some (v.renderer.word size) ∧ v.snapshot.peek? 0 = some offset ∧
      v.snapshot.peek? 1 = some size ∧ data = Outcome.window v.snapshot.memory offset size
  | .selfDestructed beneficiary => ∃ w, lines[0]? = some (v.renderer.word w) ∧
      v.snapshot.peek? 0 = some w ∧ beneficiary = w.toAddress
  | .outOfGas | .stopped | .exception => True

theorem operandsShown (v : View) : v.OperandsShown v.stackLines v.outcome := by
  have hline : ∀ {depth w}, v.snapshot.peek? depth = some w →
      v.stackLines[depth]? = some (v.renderer.word w) := by
    intro depth w h
    rw [getElem?_stackLines, h, Option.map_some]
  rw [outcome, Outcome.ofSnapshot]
  split
  · trivial
  split
  · split
    · rename_i offset size hoffset hsize
      exact ⟨offset, size, hline hoffset, hline hsize, hoffset, hsize, rfl⟩
    · trivial
  split
  · trivial
  split
  · split
    · rename_i w hw
      exact ⟨w, hline hw, hw, rfl⟩
    · trivial
  · trivial

/-- The stack panel is a line for each word, and the line at a depth shows the word that is seen at this depth;
at other depths nothing is seen. The operands of the outcome are the words of the first lines. So two
stacks have the same panel exactly if they have the same number of words and these look the same at
every depth. -/
theorem stack_by_depth (hv : v.renderer.OneLine) (hu : u.renderer.OneLine) :
    (∃ lines, Text.split '\n' v.stack = lines ++ [[]] ∧ lines.length = v.snapshot.stack.length ∧
      (∀ depth < v.snapshot.stack.length, ∃ w, v.snapshot.peek? depth = some w ∧
        lines[depth]? = some (v.renderer.word w)) ∧
      v.OperandsShown lines v.outcome) ∧
    (∀ depth, v.snapshot.peek? depth = none ↔ v.snapshot.stack.length ≤ depth) ∧
    (v.stack = u.stack ↔ v.snapshot.stack.length = u.snapshot.stack.length ∧
      ∀ depth < v.snapshot.stack.length,
        (v.snapshot.peek? depth).map v.renderer.word = (u.snapshot.peek? depth).map u.renderer.word) := by
  refine ⟨⟨v.stackLines, split_stack hv, v.length_stackLines, fun depth hdepth => ?_, v.operandsShown⟩,
    fun depth => Snapshot.peek?_eq_none_iff, (stack_eq_iff hv hu).trans stackLines_eq_iff⟩
  obtain ⟨w, hw⟩ := Snapshot.exists_peek? hdepth
  refine ⟨w, hw, ?_⟩
  rw [getElem?_stackLines, hw, Option.map_some]

/-- A step that destroys a contract in favour of a named account, above some word. -/
def destroying (surface : Surface) (below : Word) : View where
  snapshot := {
    instruction := Opcode.selfDestruct
    stack := [below, 0x100000000000000000000000000000000000beef] }
  renderer := ⟨surface, some (Keyed.ofList
    [(0x100000000000000000000000000000000000beef, "heir".toList)])⟩

theorem stack_by_depth_destroying :
    (destroying .plain 5).renderer.OneLine ∧ (destroying .html (5 - 0x10000000000000000)).renderer.OneLine ∧
      (∃ lines, Text.split '\n' (destroying .plain 5).stack = lines ++ [[]] ∧ lines.length = 2 ∧
        lines[0]? = some "heir(0x1000…beef)".toList ∧ lines[1]? = some " 5 (0x5)".toList) ∧
      (destroying .plain 5).snapshot.peek? 2 = none ∧
      (destroying .plain 5).stack = (destroying .html (5 - 0x10000000000000000)).stack ∧
      (destroying .plain 5).stack ≠ (destroying .html 6).stack := by
  have honeLine : ∀ s w, (destroying s w).renderer.OneLine := by
    intro s w book hbook e he
    cases hbook
    cases he with
    | head => decide
    | tail _ he => cases he
  obtain ⟨⟨lines, hsplit, hlength, hlines, -⟩, hnone, hsame⟩ :=
    stack_by_depth (honeLine .plain 5) (honeLine .html (5 - 0x10000000000000000))
  have hother := (stack_by_depth (honeLine .plain 5) (honeLine .html 6)).2.2
  refine ⟨honeLine _ _, honeLine _ _, ⟨lines, hsplit, hlength, ?_, ?_⟩, (hnone 2).2 (by decide),
    hsame.2 (by decide), fun h => absurd (hother.1 h) (by decide)⟩
  · obtain ⟨w, hw, hline⟩ := hlines 0 (by decide)
    cases hw
    exact hline.trans (by decide)
  · obtain ⟨w, hw, hline⟩ := hlines 1 (by decide)
    cases hw
    exact hline.trans (by decide)

end View

end StepScope
