import Mathlib.Data.List.DropRight
import StepScope.Command
import StepScope.Proofs.Hex

/-!
Hexadecimal input by its grammar. What an input holds is the text between the white space around it, behind
one mark if there is one. Its digits, with a zero in front if they are in an odd number, are read pair by
pair. So the digits of bytes are read as the bytes, whatever the case and whatever is around them, and every
word has an input.
-/

namespace StepScope

namespace Text

/-- There is no white space at either end. -/
structure Trimmed (t : Text) : Prop where
  head : ∀ c, t.head? = some c → isBlank c = false
  last : ∀ c, t.getLast? = some c → isBlank c = false

theorem trimmed_of_forall {t : Text} (h : ∀ c ∈ t, isBlank c = false) : Trimmed t :=
  ⟨fun c hc => h c (List.mem_of_head? hc), fun c hc => h c (List.mem_of_getLast? hc)⟩

theorem trimEnd_eq (t : Text) : trimEnd t = t.rdropWhile isBlank := rfl

/-- White space around a text is trimmed, and no more. -/
theorem trim_append {front core back : Text} (hfront : ∀ c ∈ front, isBlank c = true)
    (hback : ∀ c ∈ back, isBlank c = true) (hcore : Trimmed core) : trim (front ++ (core ++ back)) = core := by
  have hreverse : ∀ c ∈ back.reverse, isBlank c = true := fun c hc => hback c (List.mem_reverse.1 hc)
  rw [trim, trimStart, List.dropWhile_append_of_pos hfront]
  cases hempty : core with
  | nil => rw [List.nil_append, List.dropWhile_eq_nil_iff.2 hback]; rfl
  | cons c rest =>
    rw [← hempty]
    have hhead : (core ++ back).dropWhile isBlank = core ++ back := by
      have hc : isBlank c = false := hcore.head c (by rw [hempty]; rfl)
      rw [hempty, List.cons_append, List.dropWhile_cons_of_neg (by rw [hc]; decide)]
    have hlast : core.rdropWhile isBlank = core := by
      refine List.rdropWhile_eq_self_iff.2 fun hne => ?_
      rw [hcore.last _ (List.getLast?_eq_getLast_of_ne_nil hne)]
      decide
    rw [hhead, trimEnd, List.reverse_append, List.dropWhile_append_of_pos hreverse]
    exact hlast

theorem trimmed_trim (t : Text) : Trimmed (trim t) := by
  constructor
  · intro c hc
    obtain ⟨rest, hrest⟩ := List.rdropWhile_prefix isBlank (t.dropWhile isBlank)
    have hhead : (t.dropWhile isBlank).head? = some c := by
      rw [← hrest, List.head?_append]
      exact congrArg (Option.or · rest.head?) hc
    have hnot := List.head?_dropWhile_not isBlank t
    rw [hhead] at hnot
    simpa using hnot
  · intro c hc
    rw [trim, trimEnd, List.getLast?_reverse] at hc
    have hnot := List.head?_dropWhile_not isBlank (trimStart t).reverse
    rw [hc] at hnot
    simpa using hnot

/-- What is trimmed is white space. -/
theorem exists_trimmed (t : Text) :
    ∃ front back, t = front ++ (trim t ++ back) ∧ (∀ c ∈ front, isBlank c = true) ∧
      ∀ c ∈ back, isBlank c = true := by
  refine ⟨t.takeWhile isBlank, (trimStart t).rtakeWhile isBlank, ?_, ?_, ?_⟩
  · rw [trim, trimEnd_eq, List.rdropWhile_append_rtakeWhile, trimStart, List.takeWhile_append_dropWhile]
  · exact fun c hc => List.mem_takeWhile_imp hc
  · exact fun c hc => List.mem_rtakeWhile_imp hc

end Text

namespace HexInput

open Text (isBlank)

/-- One mark is taken off the front, if there is one. -/
inductive Unmarked : Text → Text → Prop
  | marked {mark : Char} {s : Text} (h : mark = 'x' ∨ mark = 'X') : Unmarked ('0' :: mark :: s) s
  | plain {s : Text} (h : ∀ rest, s ≠ '0' :: 'x' :: rest ∧ s ≠ '0' :: 'X' :: rest) : Unmarked s s

theorem unmarked_iff {t s : Text} : Unmarked t s ↔ Hex.dropMark t = s := by
  constructor
  · intro h
    cases h with
    | marked h => rcases h with rfl | rfl <;> rfl
    | plain h =>
      unfold Hex.dropMark
      split
      · exact absurd rfl (h _).1
      · exact absurd rfl (h _).2
      · rfl
  · rintro rfl
    unfold Hex.dropMark
    split
    · exact .marked (.inl rfl)
    · exact .marked (.inr rfl)
    · rename_i hx hX
      exact .plain fun rest => ⟨hx rest, hX rest⟩

/-- What an input holds: the text between the white space around it, without one mark in front. -/
inductive Holds : Text → Text → Prop
  | intro {front core back s : Text} (hfront : ∀ c ∈ front, isBlank c = true)
      (hback : ∀ c ∈ back, isBlank c = true) (hcore : Text.Trimmed core) (hmark : Unmarked core s) :
      Holds (front ++ (core ++ back)) s

theorem holds_iff {t s : Text} : Holds t s ↔ Hex.dropMark (Text.trim t) = s := by
  constructor
  · rintro ⟨hfront, hback, hcore, hmark⟩
    rw [Text.trim_append hfront hback hcore]
    exact unmarked_iff.1 hmark
  · rintro rfl
    obtain ⟨front, back, ht, hfront, hback⟩ := Text.exists_trimmed t
    have hholds := Holds.intro hfront hback (Text.trimmed_trim t) (unmarked_iff.2 rfl)
    rwa [← ht] at hholds

/-- The bytes with a zero in front if they are in an odd number. -/
def evened (digits : Bytes) : Bytes := if digits.length % 2 = 1 then 48 :: digits else digits

theorem Holds.digits_eq {t s : Text} (h : Holds t s) : digits t = evened (Text.utf8 s) := by
  rw [digits, holds_iff.1 h]
  rfl

theorem length_evened (digits : Bytes) : (evened digits).length = 2 * ((digits.length + 1) / 2) := by
  rw [evened]
  split
  · rw [List.length_cons]
    omega
  · omega

/-- The inputs that write bytes: their digits, each of either case, behind a mark or none, with white space
around. -/
inductive Writes (code : Bytes) : Text → Prop
  | intro {front mark digits back : Text} (hfront : ∀ c ∈ front, isBlank c = true)
      (hback : ∀ c ∈ back, isBlank c = true) (hmark : mark ∈ [[], ['0', 'x'], ['0', 'X']])
      (hdigits : List.Forall₂ Hex.SameDigit (Hex.ofBytes code) digits) :
      Writes code (front ++ (mark ++ digits ++ back))

/-- A mark is taken off what has no letter of a mark in it. -/
theorem unmarked_append {mark digits : Text} (hmark : mark ∈ [[], ['0', 'x'], ['0', 'X']])
    (hdigits : ∀ c ∈ digits, c ≠ 'x' ∧ c ≠ 'X') : Unmarked (mark ++ digits) digits := by
  simp only [List.mem_cons, List.not_mem_nil, or_false] at hmark
  rcases hmark with rfl | rfl | rfl
  · refine .plain fun rest => ⟨?_, ?_⟩
    · rintro rfl
      exact (hdigits 'x' (by simp)).1 rfl
    · rintro rfl
      exact (hdigits 'X' (by simp)).2 rfl
  · exact .marked (.inl rfl)
  · exact .marked (.inr rfl)

theorem Unmarked.exists_mark {t s : Text} (h : Unmarked t s) :
    ∃ mark ∈ [[], ['0', 'x'], ['0', 'X']], t = mark ++ s := by
  cases h with
  | @marked mark s h => exact ⟨['0', mark], by rcases h with rfl | rfl <;> decide, rfl⟩
  | plain _ => exact ⟨[], List.mem_cons_self, rfl⟩

theorem Writes.holds {code : Bytes} {t : Text} (h : Writes code t) :
    ∃ s, Holds t s ∧ Hex.Pairs (Text.utf8 s) code := by
  obtain ⟨hfront, hback, hmark, hdigits⟩ := h
  rename_i mark digits _
  have hall := Hex.forall_of_sameDigit (fun c hc => Hex.isHexDigit_of_mem_ofBytes hc) hdigits
  refine ⟨digits, .intro hfront hback (Text.trimmed_of_forall ?_) ?_, Hex.pairs_utf8 hdigits⟩
  · intro c hc
    rcases List.mem_append.1 hc with hc | hc
    · simp only [List.mem_cons, List.not_mem_nil, or_false] at hmark
      rcases hmark with rfl | rfl | rfl
      · cases hc
      all_goals
        rcases List.mem_pair.1 hc with rfl | rfl <;> decide
    · exact (hall c hc).2.2
  · exact unmarked_append hmark fun c hc => ⟨(hall c hc).1, (hall c hc).2.1⟩

/-- An input writes bytes if what it holds are their pairs of digits. -/
theorem writes_iff {code : Bytes} {t : Text} :
    Writes code t ↔ Hex.Pairs (Text.utf8 (Hex.dropMark (Text.trim t))) code := by
  constructor
  · intro h
    obtain ⟨s, hs, hpairs⟩ := h.holds
    rwa [holds_iff.1 hs]
  · intro hpairs
    have hholds : Holds t (Hex.dropMark (Text.trim t)) := holds_iff.2 rfl
    have hdigits := hpairs.sameDigits
    rw [← Text.eq_map_of_ascii fun b hb => (hpairs.isDigit b hb).lt] at hdigits
    obtain ⟨hfront, hback, hcore, hunmarked⟩ := hholds
    obtain ⟨mark, hmark, hcore⟩ := hunmarked.exists_mark
    rw [hcore]
    exact .intro hfront hback hmark hdigits

theorem Holds.bytes_eq_ok {t s : Text} (h : Holds t s) {code : Bytes}
    (hpairs : Hex.Pairs (evened (Text.utf8 s)) code) : bytes t = .ok code := by
  rw [bytes, h.digits_eq, hpairs.read]
  rfl

theorem Holds.bytes_eq_error {t s : Text} (h : Holds t s) {b : UInt8} {position : Nat}
    (hflaw : Hex.FirstFlaw (evened (Text.utf8 s)) b position) :
    bytes t = .error (.invalidHex (.badDigit b position)) := by
  have heven : (evened (Text.utf8 s)).length % 2 = 0 := by
    rw [length_evened]
    omega
  rw [bytes, h.digits_eq, hflaw.read heven]
  rfl

theorem forall_evened {digits : Bytes} : (∀ b ∈ evened digits, Hex.IsDigit b) ↔ ∀ b ∈ digits, Hex.IsDigit b := by
  rw [evened]
  split
  · rw [List.forall_mem_cons]
    exact and_iff_right (by decide)
  · rfl

/-- Either the bytes are digits, and pairs of them, or there is a first one that is not. -/
theorem pairs_or_firstFlaw (s : Text) :
    ((∀ b ∈ Text.utf8 s, Hex.IsDigit b) ∧ ∃ code, Hex.Pairs (evened (Text.utf8 s)) code) ∨
      (¬ ∀ b ∈ Text.utf8 s, Hex.IsDigit b) ∧ ∃ b position, Hex.FirstFlaw (evened (Text.utf8 s)) b position := by
  by_cases h : ∀ b ∈ Text.utf8 s, Hex.IsDigit b
  · exact .inl ⟨h, Hex.exists_pairs (length_evened _) (forall_evened.2 h)⟩
  · exact .inr ⟨h, Hex.exists_firstFlaw fun hall => h (forall_evened.1 hall)⟩

/-! Bytes as they are written -/

theorem Writes.bytes_eq {code : Bytes} {t : Text} (h : Writes code t) : bytes t = .ok code := by
  obtain ⟨s, hs, hpairs⟩ := h.holds
  have heven : ¬ (Text.utf8 s).length % 2 = 1 := by
    rw [hpairs.length_eq]
    omega
  refine hs.bytes_eq_ok ?_
  rwa [evened, if_neg heven]

/-- Bytes as input: a mark and their digits. -/
def ofBytes (bytes : Bytes) : Text := '0' :: 'x' :: Hex.ofBytes bytes

theorem writes_ofBytes (b : Bytes) : Writes b (ofBytes b) := by
  have hwrites : Writes b ([] ++ (['0', 'x'] ++ Hex.ofBytes b ++ [])) :=
    .intro (List.forall_mem_nil _) (List.forall_mem_nil _) (by decide)
      (List.forall₂_same.2 fun _ _ => .inl rfl)
  rwa [List.append_nil] at hwrites

@[simp] theorem bytes_ofBytes (b : Bytes) : bytes (ofBytes b) = .ok b := (writes_ofBytes b).bytes_eq

@[simp] theorem word_ofBytes (w : Word) : word (ofBytes w.toBytes) = .ok w := by
  have hlength : ¬ w.toBytes.length > 32 := by
    rw [w.length_toBytes]
    decide
  simp only [word, bytes_ofBytes, bind, Except.bind, if_neg hlength, Word.ofBytes_toBytes]

/-- Every text holds one input. It is accepted if it has no other bytes than digits, and then what is read are
its pairs of digits; otherwise it is refused for the first byte that is no digit, and never for an odd
number. Every way to write bytes is read as the bytes and gives the listing of the program that they are. -/
theorem bytes_exact :
    (∀ t, ∃! s, Holds t s) ∧
    (∀ t s, Holds t s →
      ((∃ code, bytes t = .ok code) ↔ ∀ b ∈ Text.utf8 s, Hex.IsDigit b) ∧
      (∀ code, bytes t = .ok code ↔ Hex.Pairs (evened (Text.utf8 s)) code) ∧
      (∀ error, bytes t = .error error ↔ ∃ b position,
        Hex.FirstFlaw (evened (Text.utf8 s)) b position ∧ error = .invalidHex (.badDigit b position)) ∧
      bytes t ≠ .error (.invalidHex .oddCount)) ∧
    ∀ code t, Writes code t → bytes t = .ok code ∧
      ∀ files source, Command.sourceText files source = .ok t →
        Command.list files (some source) = .ok (Listing.ofCode code).text := by
  refine ⟨fun t => ?_, fun t s h => ?_, fun code t h => ⟨h.bytes_eq, fun files source hsource => ?_⟩⟩
  · exact ⟨_, holds_iff.2 rfl, fun s h => (holds_iff.1 h).symm⟩
  · rcases pairs_or_firstFlaw s with ⟨hdigits, code, hpairs⟩ | ⟨hdigits, b, position, hflaw⟩
    · have hbytes := h.bytes_eq_ok hpairs
      refine ⟨⟨fun _ => hdigits, fun _ => ⟨code, hbytes⟩⟩, fun code' => ?_, fun error => ?_, ?_⟩
      · exact ⟨fun h' => Except.ok.inj (hbytes.symm.trans h') ▸ hpairs, h.bytes_eq_ok⟩
      · rw [hbytes]
        refine ⟨nofun, ?_⟩
        rintro ⟨b, position, hflaw, rfl⟩
        exact hbytes.symm.trans (h.bytes_eq_error hflaw)
      · rw [hbytes]
        nofun
    · have hbytes := h.bytes_eq_error hflaw
      refine ⟨⟨?_, fun hall => absurd hall hdigits⟩, fun code' => ⟨?_, h.bytes_eq_ok⟩, fun error => ?_, ?_⟩
      · rintro ⟨code, hcode⟩
        rw [hbytes] at hcode
        cases hcode
      · rw [hbytes]
        nofun
      · rw [hbytes]
        constructor
        · rintro ⟨⟩
          exact ⟨b, position, hflaw, rfl⟩
        · rintro ⟨b', position', hflaw', rfl⟩
          exact hbytes.symm.trans (h.bytes_eq_error hflaw')
      · rw [hbytes]
        nofun
  · simp only [Command.list, hsource, bind, Except.bind, h.bytes_eq, Except.mapError]
    rfl

/-- An odd number of bytes with a character of two bytes, between blanks that are not ASCII. -/
def accented : Text := "\u3000 0x5é\u00a0".toList

/-- A program in digits of both cases. -/
def mixedCase : Text := "\t0X60aB5b\n".toList

theorem bytes_exact_accented :
    Holds accented "5é".toList ∧ Hex.FirstFlaw [48, 53, 0xc3, 0xa9] 0xc3 2 ∧
      bytes accented = .error (.invalidHex (.badDigit 0xc3 2)) ∧
      Writes [0x60, 0xab, 0x5b] mixedCase ∧
      Command.list {} (some (.inline mixedCase)) = .ok (Listing.ofCode [0x60, 0xab, 0x5b]).text := by
  have hholds : Holds accented "5é".toList := holds_iff.2 (by decide)
  have hfront : ∀ b ∈ [48, 53], Hex.IsDigit b :=
    List.forall_mem_cons.2 ⟨by decide, List.forall_mem_singleton.2 (by decide)⟩
  have hflaw : Hex.FirstFlaw [48, 53, 0xc3, 0xa9] 0xc3 2 := ⟨[48, 53], [0xa9], rfl, rfl, hfront, by decide⟩
  have hwrites : Writes [0x60, 0xab, 0x5b] ("\t".toList ++ (['0', 'X'] ++ "60aB5b".toList ++ "\n".toList)) := by
    refine .intro (List.all_eq_true.1 (by decide)) (List.all_eq_true.1 (by decide)) (by decide) ?_
    exact .cons (.inl rfl) (.cons (.inl rfl) (.cons (.inl rfl) (.cons (.inr (by decide))
      (.cons (.inl rfl) (.cons (.inl rfl) .nil)))))
  refine ⟨hholds, hflaw, ?_, hwrites, ?_⟩
  · exact ((bytes_exact.2.1 _ _ hholds).2.2.1 _).2 ⟨_, _, hflaw, rfl⟩
  · exact (bytes_exact.2.2 _ _ hwrites).2 {} (.inline mixedCase) rfl

end HexInput

end StepScope
