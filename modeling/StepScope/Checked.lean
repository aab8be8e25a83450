import StepScope.Text

/-!
Sums of 64 bits and slices of bytes as they are taken by a machine that goes on only as long as every sum
fits and every slice lies inside its bytes.
-/

namespace StepScope.Checked

/-- Why the machine does not go on. -/
inductive Breach
  /-- A sum does not fit into 64 bits. -/
  | sum
  /-- A slice stops before it starts, or behind the end of the bytes. -/
  | slice
  deriving DecidableEq, Repr

/-- The length of bytes as a number of 64 bits. -/
def extent (bytes : Bytes) : UInt64 := UInt64.ofNat bytes.length

def add (a b : UInt64) : Except Breach UInt64 :=
  if a.toNat + b.toNat < UInt64.size then .ok (a + b) else .error .sum

/-- The bytes from `start` up to `stop`, this one excluded. -/
def slice (bytes : Bytes) (start stop : Nat) : Except Breach Bytes :=
  if start ≤ stop ∧ stop ≤ bytes.length then .ok ((bytes.take stop).drop start) else .error .slice

theorem toNat_extent {bytes : Bytes} (h : bytes.length < UInt64.size) :
    (extent bytes).toNat = bytes.length := UInt64.toNat_ofNat_of_lt' h

theorem le_extent_iff {bytes : Bytes} (h : bytes.length < UInt64.size) {n : UInt64} :
    n ≤ extent bytes ↔ n.toNat ≤ bytes.length := by
  rw [UInt64.le_iff_toNat_le, toNat_extent h]

theorem extent_lt_iff {bytes : Bytes} (h : bytes.length < UInt64.size) {n : UInt64} :
    extent bytes < n ↔ bytes.length < n.toNat := by
  rw [UInt64.lt_iff_toNat_lt, toNat_extent h]

/-- A sum that fits is exact. -/
theorem exists_add {a b : UInt64} (h : a.toNat + b.toNat < UInt64.size) :
    ∃ c, add a b = .ok c ∧ c.toNat = a.toNat + b.toNat :=
  ⟨a + b, if_pos h, (UInt64.toNat_add a b).trans (Nat.mod_eq_of_lt h)⟩

example : add (UInt64.ofNat (UInt64.size - 1)) 1 = .error .sum := rfl

theorem slice_eq_ok {bytes : Bytes} {start stop : Nat} (hstart : start ≤ stop)
    (hstop : stop ≤ bytes.length) : slice bytes start stop = .ok ((bytes.take stop).drop start) :=
  if_pos ⟨hstart, hstop⟩

example : slice [1, 2, 3] 3 2 = .error .slice := rfl

/-- Bounds that are clamped to the length cut out what there is of `size` bytes from `offset` on. -/
theorem drop_take_min (bytes : Bytes) (offset size : Nat) :
    (bytes.take (min (offset + size) bytes.length)).drop (min offset bytes.length) =
      (bytes.drop offset).take size := by
  rw [List.drop_take]
  rcases Nat.le_total bytes.length offset with hbehind | hinside
  · rw [Nat.min_eq_right hbehind, List.drop_length, List.drop_eq_nil_of_le hbehind, List.take_nil,
      List.take_nil]
  · rw [Nat.min_eq_left hinside, List.take_eq_take_iff, List.length_drop]
    omega

end StepScope.Checked
