/-!
Numbers of 64 bits that stop at the greatest one: a number or a sum that is larger counts as it.
-/

namespace StepScope.Saturated

def greatest : UInt64 := UInt64.ofNat (UInt64.size - 1)

def ofNat (n : Nat) : UInt64 := if n < UInt64.size then UInt64.ofNat n else greatest

def add (a b : UInt64) : UInt64 := if a.toNat + b.toNat < UInt64.size then a + b else greatest

theorem toNat_ofNat (n : Nat) : (ofNat n).toNat = min n (UInt64.size - 1) := by
  unfold ofNat
  split
  · rename_i hlt
    rw [UInt64.toNat_ofNat_of_lt' hlt]
    omega
  · rw [show greatest.toNat = UInt64.size - 1 from rfl]
    omega

theorem toNat_add (a b : UInt64) : (add a b).toNat = min (a.toNat + b.toNat) (UInt64.size - 1) := by
  unfold add
  split
  · rename_i hlt
    have hsum : (a + b).toNat = a.toNat + b.toNat :=
      (UInt64.toNat_add a b).trans (Nat.mod_eq_of_lt hlt)
    omega
  · rw [show greatest.toNat = UInt64.size - 1 from rfl]
    omega

end StepScope.Saturated
