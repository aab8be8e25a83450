import Mathlib.Algebra.Group.Nat.Defs
import Mathlib.Data.List.Basic
import StepScope.Checked
import StepScope.Outcome

/-!
How steps end, in numbers without a bound. No buffer is so long that a position of 64 bits misses a part
of it, so the bytes that a step returns are those at the positions that its operands name, as far as
there is memory, and of the stack no more than the two top words decide.
-/

namespace StepScope.Outcome

/-! The bytes that are returned -/

/-- The bytes of a buffer at the positions from `offset` up to `offset + size`, this one excluded. -/
def between (bytes : Bytes) (offset size : Nat) : Bytes :=
  (bytes.zipIdx.filter fun e => offset ≤ e.2 ∧ e.2 < offset + size).map Prod.fst

theorem filter_zipIdx_eq (bytes : Bytes) (first offset size : Nat) :
    ((bytes.zipIdx first).filter fun e => offset ≤ e.2 ∧ e.2 < offset + size).map Prod.fst =
      (bytes.drop (offset - first)).take (offset + size - (first + (offset - first))) := by
  induction bytes generalizing first with
  | nil => simp
  | cons b bytes ih =>
    have hrest := ih (first + 1)
    rw [List.zipIdx_cons]
    by_cases hbefore : first < offset
    · have hskip : offset - first = offset - (first + 1) + 1 := by omega
      rw [List.filter_cons_of_neg (by simp; omega), hrest, hskip, List.drop_succ_cons]
      congr 1
      omega
    · have hfirst : offset - first = 0 := by omega
      have hnext : offset - (first + 1) = 0 := by omega
      simp only [hnext, Nat.add_zero, List.drop_zero] at hrest
      simp only [hfirst, Nat.add_zero, List.drop_zero]
      by_cases hinside : first < offset + size
      · have hcount : offset + size - first = offset + size - (first + 1) + 1 := by omega
        rw [List.filter_cons_of_pos (by simp; omega), List.map_cons, hrest, hcount, List.take_succ_cons]
      · rw [List.filter_cons_of_neg (by simp; omega), hrest, Nat.sub_eq_zero_of_le (by omega),
          Nat.sub_eq_zero_of_le (by omega), List.take_zero, List.take_zero]

theorem between_eq (bytes : Bytes) (offset size : Nat) :
    between bytes offset size = (bytes.drop offset).take size := by
  rw [between, filter_zipIdx_eq, Nat.sub_zero, Nat.zero_add, Nat.add_sub_cancel_left]

theorem length_between (bytes : Bytes) (offset size : Nat) :
    (between bytes offset size).length = min size (bytes.length - min offset bytes.length) := by
  rw [between_eq, List.length_take, List.length_drop]
  omega

theorem windowStart_eq (length : Nat) (offset : Word) (h : length < UInt64.size) :
    windowStart length offset = min offset.toNat length := by
  rw [windowStart, Saturated.toNat_ofNat]
  omega

theorem windowStop_eq (length : Nat) (offset size : Word) (h : length < UInt64.size) :
    windowStop length offset size = min (offset.toNat + size.toNat) length := by
  rw [windowStop, Saturated.toNat_add, Saturated.toNat_ofNat, Saturated.toNat_ofNat]
  omega

/-- A buffer whose length is a number of 64 bits does not tell whether positions are. -/
theorem window_eq (bytes : Bytes) (offset size : Word) (h : bytes.length < UInt64.size) :
    window bytes offset size = between bytes offset.toNat size.toNat := by
  rw [window, windowStart_eq _ _ h, windowStop_eq _ _ _ h, Checked.drop_take_min, between_eq]

/-! What decides the outcome -/

inductive Judged (x : Snapshot) : Outcome → Prop
  | outOfGas : x.gas < x.gasCost → Judged x .outOfGas
  /-- The operands are the two top words, the offset above the size. -/
  | returned {below : List Word} {offset size : Word} : x.gasCost ≤ x.gas →
      x.instruction = Opcode.returnData → x.stack = below ++ [size, offset] →
      Judged x (.returned (between x.memory offset.toNat size.toNat))
  | stopped : x.gasCost ≤ x.gas → x.instruction = Opcode.stop → Judged x .stopped
  /-- The beneficiary is the top word without what goes beyond an address. -/
  | selfDestructed {below : List Word} {top : Word} {beneficiary : Address} : x.gasCost ≤ x.gas →
      x.instruction = Opcode.selfDestruct → x.stack = below ++ [top] →
      beneficiary.toNat = top.toNat % 2 ^ 160 → Judged x (.selfDestructed beneficiary)
  | exception : x.gasCost ≤ x.gas → (x.instruction = Opcode.returnData → x.stack.length < 2) →
      x.instruction ≠ Opcode.stop → (x.instruction = Opcode.selfDestruct → x.stack = []) →
      Judged x .exception

variable {x y : Snapshot}

theorem peek?_append_singleton {below : List Word} {top : Word} (h : x.stack = below ++ [top]) :
    x.peek? 0 = some top := by
  rw [Snapshot.peek?, h, List.reverse_append]
  rfl

theorem peek?_append_pair {below : List Word} {offset size : Word}
    (h : x.stack = below ++ [size, offset]) : x.peek? 0 = some offset ∧ x.peek? 1 = some size := by
  rw [Snapshot.peek?, Snapshot.peek?, h, List.reverse_append]
  exact ⟨rfl, rfl⟩

theorem peek?_eq_none (depth : Nat) (h : x.stack.length ≤ depth) : x.peek? depth = none := by
  rw [Snapshot.peek?, List.getElem?_eq_none_iff, List.length_reverse]
  exact h

theorem Judged.ofSnapshot_eq {o : Outcome} (h : Judged x o) (hmemory : x.memory.length < UInt64.size) :
    ofSnapshot x = o := by
  rw [ofSnapshot]
  cases h with
  | outOfGas hgas => rw [if_pos hgas]
  | returned hgas hinstruction hstack =>
    obtain ⟨hoffset, hsize⟩ := peek?_append_pair hstack
    rw [if_neg (UInt64.not_lt.2 hgas), if_pos hinstruction, hoffset, hsize, ← window_eq _ _ _ hmemory]
  | stopped hgas hinstruction =>
    rw [if_neg (UInt64.not_lt.2 hgas), if_neg (by rw [hinstruction]; decide), if_pos hinstruction]
  | @selfDestructed _ top beneficiary hgas hinstruction hstack hbeneficiary =>
    have haddress : top.toAddress = beneficiary := by
      apply BitVec.eq_of_toNat_eq
      rw [Word.toAddress, BitVec.toNat_setWidth, hbeneficiary]
    rw [if_neg (UInt64.not_lt.2 hgas), if_neg (by rw [hinstruction]; decide),
      if_neg (by rw [hinstruction]; decide), if_pos hinstruction, peek?_append_singleton hstack, ← haddress]
  | exception hgas hreturn hstop hdestruct =>
    rw [if_neg (UInt64.not_lt.2 hgas), if_neg hstop]
    by_cases hinstruction : x.instruction = Opcode.returnData
    · rw [if_pos hinstruction, peek?_eq_none 1 (Nat.le_of_lt_succ (hreturn hinstruction))]
      cases x.peek? 0 <;> rfl
    rw [if_neg hinstruction]
    by_cases hinstruction' : x.instruction = Opcode.selfDestruct
    · have hnone : x.stack.length ≤ 0 := by
        rw [hdestruct hinstruction']
        exact Nat.le_refl 0
      rw [if_pos hinstruction', peek?_eq_none 0 hnone]
    · rw [if_neg hinstruction']

theorem exists_judged (x : Snapshot) : ∃ o, Judged x o := by
  rcases UInt64.lt_or_le x.gas x.gasCost with hgas | hgas
  · exact ⟨_, .outOfGas hgas⟩
  by_cases hreturn : x.instruction = Opcode.returnData
  · have hother : ∀ opcode, Opcode.returnData ≠ opcode → x.instruction ≠ opcode :=
      fun opcode hne heq => hne (hreturn.symm.trans heq)
    rcases List.eq_nil_or_concat' x.stack with hnone | ⟨rest, offset, hstack⟩
    · refine ⟨_, .exception hgas (fun _ => ?_) (hother _ (by decide)) fun _ => hnone⟩
      rw [hnone]
      decide
    rcases List.eq_nil_or_concat' rest with rfl | ⟨below, size, rfl⟩
    · refine ⟨_, .exception hgas (fun _ => ?_) (hother _ (by decide)) fun h => absurd h (hother _ (by decide))⟩
      rw [hstack]
      exact Nat.one_lt_two
    · rw [List.append_assoc] at hstack
      exact ⟨_, .returned hgas hreturn hstack⟩
  by_cases hstop : x.instruction = Opcode.stop
  · exact ⟨_, .stopped hgas hstop⟩
  by_cases hdestruct : x.instruction = Opcode.selfDestruct
  · rcases List.eq_nil_or_concat' x.stack with hnone | ⟨below, top, hstack⟩
    · exact ⟨_, .exception hgas (absurd · hreturn) hstop fun _ => hnone⟩
    · exact ⟨_, .selfDestructed hgas hdestruct hstack (BitVec.toNat_ofNat _ _)⟩
  · exact ⟨_, .exception hgas (absurd · hreturn) hstop (absurd · hdestruct)⟩

theorem ofSnapshot_eq_iff {o : Outcome} (hmemory : x.memory.length < UInt64.size) :
    ofSnapshot x = o ↔ Judged x o := by
  refine ⟨?_, fun h => h.ofSnapshot_eq hmemory⟩
  -- Some rule applies, and what it gives is the outcome.
  rintro rfl
  obtain ⟨o, h⟩ := exists_judged x
  rwa [h.ofSnapshot_eq hmemory]

/-- The snapshots are the same as far as the gas, the opcode, the memory and the two top words go. -/
structure SameStep (x y : Snapshot) : Prop where
  gas : x.gas = y.gas
  gasCost : x.gasCost = y.gasCost
  instruction : x.instruction = y.instruction
  memory : x.memory = y.memory
  stack : x.stack.reverse.take 2 = y.stack.reverse.take 2

theorem SameStep.peek?_eq (h : SameStep x y) {depth : Nat} (hdepth : depth < 2) :
    x.peek? depth = y.peek? depth := by
  rw [Snapshot.peek?, Snapshot.peek?, ← List.getElem?_take_of_lt hdepth, h.stack,
    List.getElem?_take_of_lt hdepth]

theorem SameStep.ofSnapshot_eq (h : SameStep x y) : ofSnapshot x = ofSnapshot y := by
  rw [ofSnapshot, ofSnapshot, h.gas, h.gasCost, h.instruction, h.memory, h.peek?_eq (by decide),
    h.peek?_eq (by decide)]

/-- The outcome of a step is the one that the rules give, with positions and sizes of any magnitude; what
is returned is exact for all operands, as long as the length of the memory is a number of 64 bits; and
nothing else in a snapshot has a part in the outcome. -/
theorem ofSnapshot_exact :
    (∀ x : Snapshot, x.memory.length < UInt64.size → ∀ o, ofSnapshot x = o ↔ Judged x o) ∧
    (∀ (memory : Bytes) (offset size : Word), memory.length < UInt64.size →
      window memory offset size = between memory offset.toNat size.toNat ∧
        (window memory offset size).length =
          min size.toNat (memory.length - min offset.toNat memory.length)) ∧
    ∀ x y : Snapshot, SameStep x y → ofSnapshot x = ofSnapshot y := by
  refine ⟨fun x hmemory o => ofSnapshot_eq_iff hmemory, fun memory offset size hmemory => ?_,
    fun x y h => h.ofSnapshot_eq⟩
  rw [window_eq memory offset size hmemory]
  exact ⟨rfl, length_between memory offset.toNat size.toNat⟩

/-- A `RETURN` of all that there is from the second byte of three on, and much more. -/
def returning (below : Word) : Snapshot where
  instruction := Opcode.returnData
  gas := 1
  stack := [below, 0 - 1, 1]
  memory := [1, 2, 3]

theorem ofSnapshot_exact_returning :
    (returning 7).memory.length < UInt64.size ∧ Judged (returning 7) (.returned [2, 3]) ∧
      window [1, 2, 3] 1 (0 - 1) = between [1, 2, 3] 1 (2 ^ 256 - 1) ∧
      SameStep (returning 7) { returning 8 with pc := 9 } ∧
      ofSnapshot (returning 7) = ofSnapshot { returning 8 with pc := 9 } := by
  have hlength : [1, 2, 3].length < UInt64.size := by decide
  have hsame : SameStep (returning 7) { returning 8 with pc := 9 } := ⟨rfl, rfl, rfl, rfl, rfl⟩
  exact ⟨hlength, (ofSnapshot_exact.1 (returning 7) hlength _).1 (by decide),
    (ofSnapshot_exact.2.1 [1, 2, 3] 1 (0 - 1) hlength).1, hsame, ofSnapshot_exact.2.2 _ _ hsame⟩

end StepScope.Outcome
