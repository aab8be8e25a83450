import Mathlib.Data.List.TakeWhile
import StepScope.Proofs.Reassembly
import StepScope.Proofs.Tiling

/-!
The cursor in a listing. The lines share out the covered front of the code, so every position there has
one line, and the search through the index finds it. The search through the table that a scan fills finds
the same (`Bounded.lineContaining?_eq`).
-/

namespace StepScope

/-- The opcode or the operand of the line is at the position. -/
def Entry.Covers (e : Entry) (position : Nat) : Prop :=
  e.offset ≤ position ∧ position < e.offset + e.size

/-- The start of a line is covered by it exactly if the line stands for something. -/
theorem Entry.covers_offset_iff {e : Entry} : e.Covers e.offset ↔ e.size ≠ 0 := by
  rw [Covers]
  omega

theorem Entry.Covers.size_ne_zero {e : Entry} {position : Nat} (h : e.Covers position) : e.size ≠ 0 := by
  have hlow := h.1
  have hhigh := h.2
  omega

namespace Listing

namespace Scanned

variable {code : Bytes} {offset : Nat} {entries : List Entry}

/-- The lines that stand for something are those that start inside the code. -/
theorem size_ne_zero_iff (h : Scanned code offset entries) {e : Entry} (he : e ∈ entries) :
    e.size ≠ 0 ↔ e.offset < code.length := by
  have hle := (h.mem_decode? he).2.1
  have hsize := h.size_eq_zero_iff he
  omega

end Scanned

namespace Row

variable {start position : Nat} {e : Entry} {entries : List Entry}

/-- A line of a row ends before the later ones start. -/
theorem separate (h : Row start entries) {line line' : Nat} {e' : Entry}
    (he : entries[line]? = some e) (he' : entries[line']? = some e') (hlt : line < line') :
    e.offset + e.size ≤ e'.offset := by
  induction entries generalizing start line line' with
  | nil => cases he
  | cons front rest ih =>
    obtain ⟨later, rfl⟩ := Nat.exists_eq_succ_of_ne_zero (Nat.ne_zero_of_lt hlt)
    rw [List.getElem?_cons_succ] at he'
    cases line with
    | zero =>
      obtain rfl : front = e := Option.some.inj he
      rw [h.offset_eq]
      exact (h.tail.bounds (List.mem_of_getElem? he')).1
    | succ line => exact ih h.tail he he' (Nat.lt_of_succ_lt_succ hlt)

/-- There is no gap in a row. -/
theorem exists_covers (h : Row start entries) (hlow : start ≤ position)
    (hhigh : position < start + covered ⟨entries⟩) : ∃ e ∈ entries, e.Covers position := by
  induction entries generalizing start with
  | nil => exact absurd hhigh (Nat.not_lt.2 hlow)
  | cons front rest ih =>
    rw [covered_cons] at hhigh
    have hfront := h.offset_eq
    rcases Nat.lt_or_ge position (start + front.size) with hlt | hge
    · exact ⟨front, List.mem_cons_self, by omega, by omega⟩
    · obtain ⟨e, he, hcovers⟩ := ih h.tail hge (by omega)
      exact ⟨e, List.mem_cons_of_mem _ he, hcovers⟩

section Lines

variable {line line' position' : Nat} {e' : Entry} (he : entries[line]? = some e)
  (he' : entries[line']? = some e')
include he he'

/-- Lines come in the order of the positions that they cover. -/
theorem line_le (h : Row start entries) (hcovers : e.Covers position) (hcovers' : e'.Covers position')
    (hle : position ≤ position') : line ≤ line' := by
  by_contra hgt
  have hseparate := h.separate he' he (Nat.lt_of_not_le hgt)
  have hlow := hcovers.1
  have hhigh := hcovers'.2
  omega

/-- No line starts between the start of another one and a position that this one covers. -/
theorem offset_le (h : Row start entries) (hcovers : e.Covers position) (hle : e'.offset ≤ position) :
    e'.offset ≤ e.offset := by
  rcases Nat.lt_trichotomy line line' with hlt | rfl | hgt
  · have hseparate := h.separate he he' hlt
    have hhigh := hcovers.2
    omega
  · rw [Option.some.inj (he.symm.trans he')]
  · have hseparate := h.separate he' he hgt
    omega

end Lines

end Row

/-! Look-up in an index -/

section Index

variable {pairs : List (Nat × Nat)} {position : Nat} {x : Nat × Nat}

/-- In an ascending row of pairs the search for the last one that starts no later than a position finds
the greatest of these. -/
theorem getLast?_takeWhile_of_greatest (h : pairs.Pairwise fun a b => a.1 < b.1) (hmem : x ∈ pairs)
    (hle : x.1 ≤ position) (hgreatest : ∀ y ∈ pairs, y.1 ≤ position → y.1 ≤ x.1) :
    (pairs.takeWhile fun a => a.1 ≤ position).getLast? = some x := by
  obtain ⟨front, back, rfl⟩ := List.append_of_mem hmem
  obtain ⟨_, hback, hfront⟩ := List.pairwise_append.1 h
  have hbefore : ∀ a ∈ front, decide (a.1 ≤ position) = true := by
    intro a ha
    have hlt := hfront a ha x List.mem_cons_self
    exact decide_eq_true (by omega)
  have hbehind : back.takeWhile (fun a => decide (a.1 ≤ position)) = [] := by
    cases back with
    | nil => rfl
    | cons y back =>
      have hlt := (List.pairwise_cons.1 hback).1 y List.mem_cons_self
      have hnot : ¬ y.1 ≤ position := by
        intro hy
        have := hgreatest y (by simp) hy
        omega
      rw [List.takeWhile_cons, decide_eq_false hnot]
      rfl
  rw [List.takeWhile_append_of_pos hbefore, List.takeWhile_cons, decide_eq_true hle, if_pos rfl, hbehind,
    List.getLast?_concat]

theorem mem_of_getLast?_takeWhile
    (h : (pairs.takeWhile fun a => a.1 ≤ position).getLast? = some x) :
    x ∈ pairs ∧ x.1 ≤ position := by
  have hmem := List.mem_of_getLast? h
  have hle := List.all_eq_true.1 List.all_takeWhile x hmem
  exact ⟨(List.takeWhile_prefix _).subset hmem, of_decide_eq_true hle⟩

end Index

/-! Look-up in a listing -/

variable {code : Bytes} {position line : Nat}

/-- The search for the line at a position finds the one that covers it. -/
theorem lineContaining?_eq_some_iff :
    (ofCode code).lineContaining? position = some line ↔
      ∃ e, (ofCode code).entries[line]? = some e ∧ e.Covers position := by
  have hscan := ofCode_scanned code
  constructor
  · intro h
    obtain ⟨⟨start, line'⟩, hlast, h⟩ := Option.bind_eq_some_iff.1 h
    obtain ⟨e, he, h⟩ := Option.bind_eq_some_iff.1 h
    obtain ⟨hmem, hle⟩ := mem_of_getLast?_takeWhile hlast
    obtain ⟨e', he', _, rfl⟩ := mem_index.1 hmem
    obtain rfl := Option.some.inj (he.symm.trans he')
    obtain ⟨hlt, hline⟩ := Option.ite_none_right_eq_some.1 h
    obtain rfl := Option.some.inj hline
    exact ⟨e, he, hle, hlt⟩
  · rintro ⟨e, he, hcovers⟩
    have hmem : (e.offset, line) ∈ (ofCode code).index := mem_index.2 ⟨e, he, hcovers.size_ne_zero, rfl⟩
    have hgreatest : ∀ y ∈ (ofCode code).index, y.1 ≤ position → y.1 ≤ e.offset := by
      rintro ⟨start, line'⟩ hy hle
      obtain ⟨e', he', _, rfl⟩ := mem_index.1 hy
      exact hscan.row.offset_le he he' hcovers hle
    have hascending := (index_ascending hscan.ascending).imp And.left
    have hlast := getLast?_takeWhile_of_greatest hascending hmem hcovers.1 hgreatest
    exact Option.bind_eq_some_iff.2 ⟨_, hlast,
      Option.bind_eq_some_iff.2 ⟨e, he, if_pos hcovers.2⟩⟩

/-- The search for a start finds what the index has for it. -/
theorem lineOf?_eq_some_iff :
    (ofCode code).lineOf? position = some line ↔ (position, line) ∈ (ofCode code).index := by
  constructor
  · intro h
    obtain ⟨⟨start, line'⟩, hfind, rfl⟩ := Option.map_eq_some_iff.1 h
    have hstart := List.find?_some hfind
    obtain rfl : start = position := of_decide_eq_true hstart
    exact List.mem_of_find?_eq_some hfind
  · intro hmem
    have hascending := index_ascending (ofCode_scanned code).ascending
    obtain ⟨⟨start, line'⟩, hfind⟩ :
        ∃ x, (ofCode code).index.find? (fun a => a.1 = position) = some x :=
      Option.isSome_iff_exists.1 (List.find?_isSome.2 ⟨_, hmem, decide_eq_true rfl⟩)
    have hstart := List.find?_some hfind
    obtain rfl : start = position := of_decide_eq_true hstart
    have hline := (index_injective hascending (List.mem_of_find?_eq_some hfind) hmem).1 rfl
    exact Option.map_eq_some_iff.2 ⟨_, hfind, hline⟩

theorem exists_line_of_lt (h : position < (ofCode code).covered) :
    ∃ line, (ofCode code).lineContaining? position = some line := by
  have hrow := (ofCode_scanned code).row
  obtain ⟨e, he, hcovers⟩ := hrow.exists_covers (Nat.zero_le position) ((Nat.zero_add _).symm ▸ h)
  obtain ⟨line, hline⟩ := List.mem_iff_getElem?.1 he
  exact ⟨line, lineContaining?_eq_some_iff.2 ⟨e, hline, hcovers⟩⟩

/-- A listing in which the line at a position is found, and only that. -/
structure Locates (code : Bytes) (l : Listing) : Prop where
  /-- The line that is found at a position is the one with its opcode or operand there. -/
  containing : ∀ position line, l.lineContaining? position = some line ↔
    ∃ e, l.entries[line]? = some e ∧ e.Covers position
  /-- No position is covered by two lines. -/
  single : ∀ (position line line' : Nat) (e e' : Entry), l.entries[line]? = some e →
    l.entries[line']? = some e' → e.Covers position → e'.Covers position → line = line'
  /-- Nothing is found exactly from the end of the covered bytes on. -/
  missing : ∀ position, l.lineContaining? position = none ↔ l.covered ≤ position
  /-- The line that is found by its start is the one that starts there, inside the code. -/
  starting : ∀ position line, l.lineOf? position = some line ↔
    position < code.length ∧ ∃ e, l.entries[line]? = some e ∧ e.offset = position
  /-- At the start of a line both ways find it. -/
  agrees : ∀ position line, l.lineOf? position = some line →
    l.lineOf? position = l.lineContaining? position
  /-- A later position has no earlier line. -/
  monotone : ∀ position position', position ≤ position' → position' < l.covered →
    ∃ line line', l.lineContaining? position = some line ∧
      l.lineContaining? position' = some line' ∧ line ≤ line'
  complete : Complete code l

/-- The look-ups by position are exact in the listing of any code. -/
theorem ofCode_locates (code : Bytes) : Locates code (ofCode code) := by
  have hscan := ofCode_scanned code
  have hrow := hscan.row
  refine {
    containing := fun _ _ => lineContaining?_eq_some_iff
    single := fun _ _ _ e e' he he' hcovers hcovers' => ?_
    missing := fun position => ?_
    starting := fun position line => ?_
    agrees := fun position line h => ?_
    monotone := fun position position' hle hlt => ?_
    complete := ofCode_complete code }
  · exact Nat.le_antisymm (hrow.line_le he he' hcovers hcovers' (Nat.le_refl _))
      (hrow.line_le he' he hcovers' hcovers (Nat.le_refl _))
  · constructor
    · intro hnone
      by_contra hlt
      obtain ⟨line, hline⟩ := exists_line_of_lt (Nat.lt_of_not_le hlt)
      cases hnone.symm.trans hline
    · intro hle
      refine Option.eq_none_iff_forall_ne_some.2 fun line hline => ?_
      obtain ⟨e, he, hcovers⟩ := lineContaining?_eq_some_iff.1 hline
      have hend : e.offset + e.size ≤ 0 + (ofCode code).covered :=
        (hrow.bounds (List.mem_of_getElem? he)).2
      have hhigh := hcovers.2
      omega
  · rw [lineOf?_eq_some_iff, mem_index]
    constructor
    · rintro ⟨e, he, hsize, rfl⟩
      exact ⟨(hscan.size_ne_zero_iff (List.mem_of_getElem? he)).1 hsize, e, he, rfl⟩
    · rintro ⟨hlt, e, he, rfl⟩
      exact ⟨e, he, (hscan.size_ne_zero_iff (List.mem_of_getElem? he)).2 hlt, rfl⟩
  · obtain ⟨e, he, hsize, rfl⟩ := mem_index.1 (lineOf?_eq_some_iff.1 h)
    rw [h, lineContaining?_eq_some_iff.2 ⟨e, he, Entry.covers_offset_iff.2 hsize⟩]
  · obtain ⟨line, hline⟩ := exists_line_of_lt (Nat.lt_of_le_of_lt hle hlt)
    obtain ⟨line', hline'⟩ := exists_line_of_lt hlt
    obtain ⟨e, he, hcovers⟩ := lineContaining?_eq_some_iff.1 hline
    obtain ⟨e', he', hcovers'⟩ := lineContaining?_eq_some_iff.1 hline'
    exact ⟨line, line', hline, hline', hrow.line_le he he' hcovers hcovers' hle⟩

end Listing

end StepScope
