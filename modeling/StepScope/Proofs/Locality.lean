import StepScope.Proofs.Reassembly

/-!
What is read of code that is cut short. An instruction in front of the cut is the same but for the bytes
of its operand behind the cut, so a scan that ends before the cut does not depend on what follows.
-/

namespace StepScope

namespace Instruction

/-- An instruction with only so many bytes of its operand. -/
def cutTo (count : Nat) (i : Instruction) : Instruction := { i with immediate := i.immediate.take count }

variable {code code' : Bytes} {limit offset : Nat} {i : Instruction}

theorem ofRest?_take (offset count : Nat) (rest : Bytes) :
    ofRest? offset (rest.take (count + 1)) = (ofRest? offset rest).map (cutTo count) := by
  have hhead : (rest.take (count + 1)).headD Opcode.stop = rest.headD Opcode.stop := by
    cases rest <;> rfl
  have htail : (rest.take (count + 1)).tail = rest.tail.take count := by
    cases rest with
    | nil => simp
    | cons b rest => rfl
  rw [ofRest?, ofRest?, hhead, htail, Option.map_map]
  congr 1
  funext mnemonic
  simp only [Function.comp_apply, cutTo, List.take_take, Nat.min_comm]

/-- Code that is cut behind the opcode of an instruction only loses the operand behind the cut. -/
theorem decode?_take (code : Bytes) (hlt : offset < limit) :
    decode? (code.take limit) offset = (decode? code offset).map (cutTo (limit - (offset + 1))) := by
  rw [decode?, decode?, List.drop_take, show limit - offset = limit - (offset + 1) + 1 by omega,
    ofRest?_take]

theorem cutTo_of_decode? (h : decode? code offset = some i) {count : Nat} (hcount : i.announced ≤ count) :
    i.cutTo count = i := by
  have hlength := length_immediate_of_decode? h
  rw [cutTo, List.take_of_length_le (by omega)]

/-- An instruction that ends before the cut is the same whatever stands behind it. -/
theorem decode?_congr (htake : code'.take limit = code.take limit) (h : decode? code offset = some i)
    (hend : offset + i.stride ≤ limit) : decode? code' offset = some i := by
  rw [stride] at hend
  have hlt : offset < limit := by omega
  have hcut := decode?_take code' hlt
  rw [htake, decode?_take code hlt, h, Option.map_some, cutTo_of_decode? h (by omega)] at hcut
  obtain ⟨i', hi', heq⟩ := Option.map_eq_some_iff.1 hcut.symm
  have hannounced : i'.announced = i.announced := by rw [← heq]; rfl
  rw [cutTo_of_decode? hi' (by omega)] at heq
  rw [hi', heq]

theorem decode?_eq_none_congr (htake : code'.take limit = code.take limit) (hlt : offset < limit)
    (h : decode? code offset = none) : decode? code' offset = none := by
  have hcut := decode?_take code' hlt
  rw [htake, decode?_take code hlt, h] at hcut
  exact Option.map_eq_none_iff.1 hcut.symm

end Instruction

namespace Listing

/-- A scan that ends in front of the cut, and of the end of the code, does not depend on what stands
behind the cut. -/
theorem Scanned.congr_take {code code' : Bytes} {limit offset : Nat} {entries : List Entry}
    (htake : code'.take limit = code.take limit) (h : Scanned code offset entries)
    (hinside : offset + covered ⟨entries⟩ < code.length) (hlimit : offset + covered ⟨entries⟩ < limit) :
    Scanned code' offset entries := by
  have hlength : ∀ position < code.length, position < limit → position < code'.length := by
    have htaken := congrArg List.length htake
    simp only [List.length_take] at htaken
    omega
  induction h with
  | undefined hlt hnone =>
    rw [show covered ⟨[]⟩ = 0 from rfl] at hlimit
    exact .undefined (hlength _ hlt hlimit) (Instruction.decode?_eq_none_congr htake hlimit hnone)
  | closed hi => exact absurd hinside (by omega)
  | @cut offset i hlt hi hcut =>
    rw [covered_cons, (read?_entry hlt hi).1] at hinside
    have himmediate := Instruction.length_immediate_of_decode? hi
    omega
  | @step offset i entries hlt hi hwhole hrest ih =>
    rw [covered_cons, (read?_entry hlt hi).1, hwhole] at hinside hlimit
    have hnext : offset + i.stride ≤ limit := by
      rw [Instruction.stride]
      omega
    have hlt' := hlength offset hlt (by omega)
    have hoffset := Instruction.offset_of_decode? hi
    have hstride : i.stride = 1 + i.announced := rfl
    rw [Instruction.entry_congr (hoffset ▸ hlt) (hoffset ▸ hlt')]
    exact .step hlt' (Instruction.decode?_congr htake hi hnext) hwhole (ih (by omega) (by omega))

end Listing

end StepScope
