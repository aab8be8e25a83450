import StepScope.Proofs.Endings

/-!
Listings of code that is cut short. The lines in front of the cut stay as they are, and at most one more
follows them: the `STOP` that closes the listing, or the push that the cut goes through.
-/

namespace StepScope

/-- The line stands for bytes of the code, none of which is behind the cut. -/
def Entry.InFront (limit : Nat) (e : Entry) : Prop := 0 < e.size ∧ e.offset + e.size ≤ limit

instance (limit : Nat) : DecidablePred (Entry.InFront limit) :=
  fun e => inferInstanceAs (Decidable (0 < e.size ∧ e.offset + e.size ≤ limit))

theorem Entry.not_inFront_of_lt {limit : Nat} {e : Entry} (h : limit < e.offset + e.size) :
    ¬ e.InFront limit := fun hfront => absurd h (Nat.not_lt.2 hfront.2)

namespace Instruction

variable {code : Bytes} {limit offset : Nat} {i : Instruction}

theorem getElem?_of_decode? (hlt : offset < code.length) (h : decode? code offset = some i) :
    code[offset]? = some i.opcode := by
  rw [opcode_of_decode? h, List.drop_eq_getElem_cons hlt, List.headD_cons, List.getElem?_eq_getElem hlt]

/-- A cut through an operand leaves all bytes between the opcode and the cut, fewer than announced. -/
theorem immediate_of_cut (hlt : offset < limit) (hlimit : limit ≤ code.length)
    (h : decode? (code.take limit) offset = some i) (hcut : limit < offset + i.stride) :
    i.immediate = (code.take limit).drop (offset + 1) ∧ i.immediate.length < i.announced := by
  have himmediate := immediate_of_decode? h
  have hlength : ((code.take limit).drop (offset + 1)).length = limit - (offset + 1) := by
    rw [List.length_drop, List.length_take_of_le hlimit]
  rw [stride] at hcut
  rw [List.take_of_length_le (by omega)] at himmediate
  exact ⟨himmediate, by rw [himmediate]; omega⟩

end Instruction

namespace Listing

/-- What the listing of code that is cut has behind the lines in front of the cut. -/
inductive Leftover (code : Bytes) (limit : Nat) : List Entry → Prop
  | nothing : Leftover code limit []
  /-- The listing reaches the cut and is closed there. -/
  | closing : Leftover code limit [.closing limit]
  /-- A push that starts in front of the cut has the bytes between its opcode and the cut, and these are
  fewer than it announces. -/
  | push {i : Instruction} : i.offset < limit → code[i.offset]? = some i.opcode →
      Opcode.mnemonic? i.opcode = some i.mnemonic → i.IsCut →
      i.immediate = (code.take limit).drop (i.offset + 1) → Leftover code limit [i.entry limit]

namespace Scanned

variable {code : Bytes} {limit offset : Nat} {entries : List Entry}

theorem closing (code : Bytes) : Scanned code code.length [.closing code.length] := by
  have hclosed := Scanned.closed (Instruction.decode?_length code)
  simpa [Instruction.entry, Instruction.size, Instruction.line, Entry.closing] using hclosed

/-- From the cut on no line is in front of it. -/
theorem filter_inFront_eq_nil (h : Scanned code offset entries) (hle : limit ≤ offset) :
    entries.filter (fun e => e.InFront limit) = [] := by
  rw [List.filter_eq_nil_iff]
  intro e he
  have hge := (h.mem_decode? he).1
  rw [decide_eq_true_eq]
  intro hfront
  obtain ⟨hsize, hend⟩ := hfront
  omega

/-- A scan that comes to the cut between two instructions closes the listing there. -/
theorem take_self (h : Scanned code limit entries) (hlimit : limit ≤ code.length) :
    ∃ rest, Leftover code limit rest ∧
      Scanned (code.take limit) limit (entries.filter (fun e => e.InFront limit) ++ rest) := by
  refine ⟨[.closing limit], .closing, ?_⟩
  have hclosing := closing (code.take limit)
  rw [List.length_take_of_le hlimit] at hclosing
  rwa [h.filter_inFront_eq_nil (Nat.le_refl _), List.nil_append]

/-- A scan that comes to an instruction which goes beyond the cut ends with what is left of it. -/
theorem take_through {i : Instruction} (hlt : offset < limit) (hlimit : limit ≤ code.length)
    (hi : Instruction.decode? code offset = some i) (hcut : limit < offset + i.stride) :
    ∃ rest, Leftover code limit rest ∧ Scanned (code.take limit) offset rest := by
  have hlength : (code.take limit).length = limit := List.length_take_of_le hlimit
  obtain ⟨left, hleft, hstride⟩ : ∃ left, Instruction.decode? (code.take limit) offset = some left ∧
      left.stride = i.stride := by
    refine ⟨i.cutTo (limit - (offset + 1)), ?_, rfl⟩
    rw [Instruction.decode?_take code hlt, hi, Option.map_some]
  obtain ⟨himmediate, hshort⟩ := Instruction.immediate_of_cut hlt hlimit hleft (hstride ▸ hcut)
  have hopcode := Instruction.getElem?_of_decode? (hlength.symm ▸ hlt) hleft
  rw [List.getElem?_take_of_lt hlt] at hopcode
  have hscan := Scanned.cut (hlength.symm ▸ hlt) hleft hshort
  rw [hlength] at hscan
  obtain rfl := Instruction.offset_of_decode? hleft
  exact ⟨_, .push hlt hopcode (Instruction.mnemonic_of_decode? hleft) (Instruction.isCut_iff.2 hshort)
    himmediate, hscan⟩

/-- The scan of code that is cut is the same up to the cut. -/
theorem take_of_lt (h : Scanned code offset entries) (hlt : offset < limit) (hlimit : limit ≤ code.length) :
    ∃ rest, Leftover code limit rest ∧
      Scanned (code.take limit) offset (entries.filter (fun e => e.InFront limit) ++ rest) := by
  have hlength : (code.take limit).length = limit := List.length_take_of_le hlimit
  induction h with
  | undefined _ hnone =>
    refine ⟨[], .nothing, .undefined (hlength.symm ▸ hlt) ?_⟩
    rw [Instruction.decode?_take code hlt, hnone, Option.map_none]
  | closed _ => omega
  | @cut offset i hinside hi hshort =>
    have hsize := (read?_entry hinside hi).1
    have hoffset := Instruction.entry_offset_of_decode? hi
    have himmediate := Instruction.length_immediate_of_decode? hi
    rcases Nat.eq_or_lt_of_le hlimit with rfl | hbefore
    · -- The cut is the end of the code, where the operand ends anyway.
      have hkept : (i.entry code.length).InFront code.length := ⟨by omega, by omega⟩
      refine ⟨[], .nothing, ?_⟩
      rw [List.take_length, List.filter_singleton, decide_eq_true hkept, List.append_nil]
      exact .cut hinside hi hshort
    · have hgone : ¬ (i.entry code.length).InFront limit := Entry.not_inFront_of_lt (by omega)
      rw [List.filter_singleton, decide_eq_false hgone]
      exact take_through hlt hlimit hi (by rw [Instruction.stride]; omega)
  | @step offset i entries hinside hi hwhole hrest ih =>
    have hsize := (read?_entry hinside hi).1
    have hstart := Instruction.offset_of_decode? hi
    have hoffset := Instruction.entry_offset_of_decode? hi
    have hstride : i.stride = 1 + i.announced := rfl
    rcases Nat.lt_or_ge limit (offset + i.stride) with hbeyond | hwithin
    · have hgone : ¬ (i.entry code.length).InFront limit := Entry.not_inFront_of_lt (by omega)
      rw [List.filter_cons_of_neg (by simpa using hgone), hrest.filter_inFront_eq_nil (Nat.le_of_lt hbeyond)]
      exact take_through hlt hlimit hi hbeyond
    · have hkept : (i.entry code.length).InFront limit := ⟨by omega, by omega⟩
      have hnext : ∃ rest, Leftover code limit rest ∧ Scanned (code.take limit) (offset + i.stride)
          (entries.filter (fun e => e.InFront limit) ++ rest) := by
        rcases Nat.eq_or_lt_of_le hwithin with heq | hlt'
        · subst heq
          exact hrest.take_self hlimit
        · exact ih hlt'
      obtain ⟨rest, hleft, hscan⟩ := hnext
      have hsame : (code.take limit).take limit = code.take limit := by rw [List.take_take, Nat.min_self]
      have hentry : i.entry code.length = i.entry (code.take limit).length :=
        Instruction.entry_congr (hstart ▸ hinside) (hstart ▸ hlength.symm ▸ hlt)
      refine ⟨rest, hleft, ?_⟩
      rw [List.filter_cons_of_pos (by simpa using hkept), List.cons_append, hentry]
      exact .step (by omega) (Instruction.decode?_congr hsame hi hwithin) hwhole hscan

end Scanned

/-- The listing of code that is cut short: the lines in front of the cut as they were, and at most one
line more, the closing `STOP` or what is left of a push. The lines go on to the cut, or to an undefined opcode
in front of it. -/
theorem ofCode_take (code : Bytes) {limit : Nat} (hlimit : limit ≤ code.length) :
    ∃ rest, Leftover code limit rest ∧
      (ofCode (code.take limit)).entries =
        (ofCode code).entries.filter (fun e => e.InFront limit) ++ rest ∧
      ((ofCode (code.take limit)).covered = limit ∨ (ofCode (code.take limit)).covered < limit ∧
        Instruction.decode? code (ofCode (code.take limit)).covered = none) := by
  have hscan := ofCode_scanned code
  have htaken : ∃ rest, Leftover code limit rest ∧ Scanned (code.take limit) 0
      ((ofCode code).entries.filter (fun e => e.InFront limit) ++ rest) := by
    rcases Nat.eq_zero_or_pos limit with rfl | hpos
    · exact hscan.take_self hlimit
    · exact hscan.take_of_lt hpos hlimit
  obtain ⟨rest, hleft, htake⟩ := htaken
  refine ⟨rest, hleft, (ofCode_scanned (code.take limit)).unique htake, ?_⟩
  obtain hall | ⟨hlt, hnone⟩ := ofCode_complete (code.take limit)
  · exact .inl (hall.trans (List.length_take_of_le hlimit))
  · rw [List.length_take_of_le hlimit] at hlt
    rw [Instruction.decode?_take code hlt, Option.map_eq_none_iff] at hnone
    exact .inr ⟨hlt, hnone⟩

/-- A cut through the operand of the second of two pushes: the line of the first is kept, and one is left for
the second. -/
theorem ofCode_take_push :
    4 ≤ [0x60, 0x01, 0x61, 0x02, 0x03, 0x00].length ∧
      Entry.InFront 4 ⟨0, 2, "0000  PUSH1 0x01".toList⟩ ∧
      Leftover [0x60, 0x01, 0x61, 0x02, 0x03, 0x00] 4 [⟨2, 2, "0002  PUSH2 0x02".toList⟩] ∧
      (ofCode ([0x60, 0x01, 0x61, 0x02, 0x03, 0x00].take 4)).entries =
        [⟨0, 2, "0000  PUSH1 0x01".toList⟩] ++ [⟨2, 2, "0002  PUSH2 0x02".toList⟩] := by
  obtain ⟨rest, hleft, hentries, -⟩ := @ofCode_take [0x60, 0x01, 0x61, 0x02, 0x03, 0x00] 4 (by decide)
  have hkept : (ofCode [0x60, 0x01, 0x61, 0x02, 0x03, 0x00]).entries.filter (fun e => e.InFront 4) =
      [⟨0, 2, "0000  PUSH1 0x01".toList⟩] := by
    decide +kernel
  have hlisted : (ofCode ([0x60, 0x01, 0x61, 0x02, 0x03, 0x00].take 4)).entries =
      [⟨0, 2, "0000  PUSH1 0x01".toList⟩, ⟨2, 2, "0002  PUSH2 0x02".toList⟩] := by
    decide +kernel
  rw [hkept, hlisted] at hentries
  obtain rfl := (List.cons.inj hentries).2
  exact ⟨by decide, by decide, hleft, hlisted⟩

end Listing

end StepScope
