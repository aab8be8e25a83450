import StepScope.Proofs.TomlStrings

/-!
Every text is read back from the string that writes it, whichever kind of string that is. Between triple
delimiters the reader looks for the end at every character, so what matters there is how many marks stand
in a row.
-/

namespace StepScope.Toml

/-! Strings over several lines -/

theorem fewInRow_of_le {mark : Char} {m n : Nat} {s : Text} (hmn : m ≤ n)
    (h : fewInRow mark n s = true) : fewInRow mark m s = true := by
  induction s generalizing m n with
  | nil => rfl
  | cons c s ih =>
    unfold fewInRow at h ⊢
    split at h
    · rename_i hc
      simp only [Bool.and_eq_true, decide_eq_true_eq] at h
      rw [if_pos hc, ih (Nat.succ_le_succ hmn) h.2, Bool.and_true, decide_eq_true_eq]
      exact Nat.lt_of_le_of_lt hmn h.1
    · rename_i hc
      rw [if_neg hc]
      exact h

theorem not_prefix_of_fewInRow {mark : Char} {s : Text} (h : fewInRow mark 0 s = true) :
    ¬ List.replicate 3 mark <+: s := by
  rintro ⟨t, rfl⟩
  simp [List.replicate_succ, fewInRow] at h

theorem not_prefix_nil (mark : Char) : ¬ List.replicate 3 mark <+: [] := by
  rintro ⟨s, hs⟩
  cases hs

/-- Up to two marks in front of the end belong to the string. -/
theorem readTriple?_of_forall {mark : Char} {s rest : Text} (hfew : ¬ List.replicate 3 mark <+: s)
    (hrest : rest.head? ≠ some mark) (h : ∀ c ∈ s, c = mark) :
    readTriple? mark (s ++ mark :: mark :: mark :: rest) = some (s, rest) := by
  have hmore : (rest.take 1).takeWhile (· = mark) = [] ∧ (rest.take 2).takeWhile (· = mark) = [] := by
    cases rest with
    | nil => exact ⟨rfl, rfl⟩
    | cons c rest =>
      have hc : ¬ c = mark := fun heq => hrest (congrArg some heq)
      simp [hc]
  obtain ⟨n, rfl⟩ : ∃ n, s = List.replicate n mark := ⟨s.length, List.eq_replicate_of_mem h⟩
  match n with
  | 0 => simp [readTriple?, hmore]
  | 1 => simp [readTriple?, hmore, List.replicate_succ]
  | 2 => simp [readTriple?, List.replicate_succ]
  | n + 3 =>
    rw [Nat.add_comm, ← List.replicate_append_replicate] at hfew
    exact absurd (List.prefix_append _ _) hfew

/-- The end is not found where something else than marks stands before it. -/
theorem readTriple?_of_not_forall {mark : Char} {s : Text} (hfew : ¬ List.replicate 3 mark <+: s)
    (h : ¬ ∀ c ∈ s, c = mark) (rest : Text) :
    readTriple? mark (s ++ mark :: mark :: mark :: rest) = none := by
  match s with
  | [] => exact absurd (List.forall_mem_nil _) h
  | [a] =>
    have ha : ¬ a = mark := fun ha => h (List.forall_mem_singleton.2 ha)
    simp [readTriple?, ha]
  | [a, b] =>
    have hab : ¬ (a = mark ∧ b = mark) := fun hab =>
      h (List.forall_mem_cons.2 ⟨hab.1, List.forall_mem_singleton.2 hab.2⟩)
    exact if_neg fun hthree => hab ⟨hthree.1, hthree.2.1⟩
  | a :: b :: c :: s =>
    refine if_neg ?_
    rintro ⟨rfl, rfl, rfl⟩
    exact hfew (List.prefix_append _ s)

theorem readBasicLines_found {s t rest : Text} (h : readTriple? '"' s = some (t, rest)) :
    readBasicLines s = some (t, rest) := by
  rw [readBasicLines.eq_def, h]

theorem readBasicLines_escape {s rest : Text} {c d : Char}
    (hd : isSpace d = false ∧ d ≠ '\n' ∧ d ≠ '\r')
    (hnone : readTriple? '"' ('\\' :: d :: s) = none) (h : readEscape (d :: s) = some (c, rest)) :
    readBasicLines ('\\' :: d :: s) = (readBasicLines rest).map fun (t, rest) => (c :: t, rest) := by
  have hskip : skipSpace (d :: s) = d :: s := by
    rw [skipSpace, List.dropWhile_cons, hd.1]
    rfl
  rw [readBasicLines.eq_def, hnone]
  simp only [if_true, hskip]
  split
  · rename_i heq
    exact absurd (List.cons.inj heq).1 hd.2.1
  · rename_i heq
    exact absurd (List.cons.inj heq).1 hd.2.2
  · split
    · rename_i hfail
      rw [hfail] at h
      cases h
    · rename_i hsome
      rw [hsome] at h
      cases h
      rfl

theorem readBasicLines_plain {c : Char} {s : Text} (hnone : readTriple? '"' (c :: s) = none)
    (hslash : c ≠ '\\') (hreturn : c ≠ '\r') (h : isPlain c = true ∨ c = '\n') :
    readBasicLines (c :: s) = (readBasicLines s).map fun (t, rest) => (c :: t, rest) := by
  rw [readBasicLines.eq_def, hnone]
  simp only
  rw [if_neg hslash, if_neg hreturn, if_pos h]

/-- How a character stands inside a basic string over several lines, in front of the rest. -/
inductive Inside (run : Nat) (c : Char) (t : Text) : Prop
  /-- A quotation mark, at most the second in a row. -/
  | mark : c = '"' → run < 2 → basicLines run (c :: t) = c :: basicLines (run + 1) t → Inside run c t
  | escaped {d : Char} {tail : Text} : Escaped c d tail →
      basicLines run (c :: t) = '\\' :: d :: (tail ++ basicLines 0 t) → Inside run c t
  | plain : c ≠ '"' → needsEscape c = false → basicLines run (c :: t) = c :: basicLines 0 t →
      Inside run c t

theorem inside (run : Nat) (c : Char) (t : Text) : Inside run c t := by
  by_cases hquote : c = '"'
  · by_cases hrun : run < 2
    · refine .mark hquote hrun ?_
      rw [basicLines, if_pos hquote, if_pos hrun]
    · obtain ⟨d, tail, hescaped⟩ := exists_escaped (.inr (.inl hquote))
      refine .escaped hescaped ?_
      rw [basicLines, if_pos hquote, if_neg hrun, hescaped.spelled]
      rfl
  · by_cases hraw : needsEscape c = true
    · obtain ⟨d, tail, hescaped⟩ := exists_escaped (.inl hraw)
      refine .escaped hescaped ?_
      rw [basicLines, if_neg hquote, if_pos hraw, hescaped.spelled]
      rfl
    · refine .plain hquote (Bool.eq_false_iff.2 hraw) ?_
      rw [basicLines, if_neg hquote, if_neg hraw]

/-- After `run` quotation marks, a third one in a row is never raw. -/
theorem not_replicate_prefix_basicLines {run : Nat} (hrun : run ≤ 2) (t : Text) :
    ¬ List.replicate (3 - run) '"' <+: basicLines run t := by
  have hsucc : 3 - run = (2 - run) + 1 := by omega
  rw [hsucc, List.replicate_succ]
  induction t generalizing run with
  | nil => simp [basicLines]
  | cons c t ih =>
    cases inside run c t with
    | mark _ hlt hlines =>
      have hnext : 2 - run = (2 - (run + 1)) + 1 := by omega
      rw [hlines, List.cons_prefix_cons, hnext, List.replicate_succ]
      rintro ⟨-, h⟩
      exact ih hlt (by omega) h
    | escaped _ hlines =>
      rw [hlines, List.cons_prefix_cons]
      rintro ⟨heq, -⟩
      exact absurd heq (by decide)
    | plain hquote _ hlines =>
      rw [hlines, List.cons_prefix_cons]
      rintro ⟨heq, -⟩
      exact hquote heq.symm

/-- An inside of quotation marks alone is the text itself. -/
theorem basicLines_of_forall {run : Nat} {t : Text} (h : ∀ c ∈ basicLines run t, c = '"') :
    basicLines run t = t := by
  induction t generalizing run with
  | nil => rfl
  | cons c t ih =>
    cases inside run c t with
    | mark _ _ hlines =>
      rw [hlines] at h ⊢
      rw [ih fun d hd => h d (List.mem_cons_of_mem c hd)]
    | escaped _ hlines =>
      rw [hlines] at h
      exact absurd (h '\\' List.mem_cons_self) (by decide)
    | plain hquote _ hlines =>
      rw [hlines] at h
      exact absurd (h c List.mem_cons_self) hquote

theorem not_prefix_basicLines {run : Nat} (hrun : run ≤ 2) (t : Text) :
    ¬ List.replicate 3 '"' <+: basicLines run t := by
  intro hprefix
  have hshort : List.replicate (3 - run) '"' <+: List.replicate 3 '"' := by
    rw [List.prefix_replicate_iff, List.length_replicate]
    exact ⟨by omega, rfl⟩
  exact not_replicate_prefix_basicLines hrun t (hshort.trans hprefix)

theorem readBasicLines_basicLines {run : Nat} (hrun : run ≤ 2) (t : Text) {rest : Text}
    (hrest : rest.head? ≠ some '"') :
    readBasicLines (basicLines run t ++ '"' :: '"' :: '"' :: rest) = some (t, rest) := by
  induction t generalizing run with
  | nil =>
    exact readBasicLines_found
      (readTriple?_of_forall (not_prefix_nil '"') hrest (List.forall_mem_nil _))
  | cons c t ih =>
    have hfew := not_prefix_basicLines hrun (c :: t)
    by_cases hall : ∀ d ∈ basicLines run (c :: t), d = '"'
    · rw [readBasicLines_found (readTriple?_of_forall hfew hrest hall), basicLines_of_forall hall]
    · have htriple := readTriple?_of_not_forall hfew hall rest
      cases inside run c t with
      | mark hquote hlt hlines =>
        subst hquote
        rw [hlines, List.cons_append] at htriple ⊢
        rw [readBasicLines_plain htriple (by decide) (by decide) (.inl rfl), ih hlt]
        rfl
      | escaped hescaped hlines =>
        rw [hlines] at htriple ⊢
        simp only [List.cons_append, List.append_assoc] at htriple ⊢
        rw [readBasicLines_escape hescaped.visible htriple (hescaped.read _), ih (by decide)]
        rfl
      | plain hquote hraw hlines =>
        rw [hlines, List.cons_append] at htriple ⊢
        rw [readBasicLines_plain htriple (ne_backslash_of_not_needsEscape hraw)
          (ne_return_of_not_needsEscape hraw) (isPlain_of_not_needsEscape hraw), ih (by decide)]
        rfl

theorem readLiteralLines_found {s t rest : Text} (h : readTriple? '\'' s = some (t, rest)) :
    readLiteralLines s = some (t, rest) := by
  rw [readLiteralLines.eq_def, h]

theorem readLiteralLines_plain {c : Char} {s : Text} (hnone : readTriple? '\'' (c :: s) = none)
    (hreturn : c ≠ '\r') (h : isPlain c = true ∨ c = '\n') :
    readLiteralLines (c :: s) = (readLiteralLines s).map fun (t, rest) => (c :: t, rest) := by
  rw [readLiteralLines.eq_def, hnone]
  split
  · rename_i heq
    cases heq
  · split
    · rename_i heq
      cases heq
    · rename_i heq
      exact absurd (List.cons.inj heq).1 hreturn
    · rename_i heq
      cases heq
      rw [if_pos h]

theorem readLiteralLines_append {t rest : Text} (hplain : ∀ c ∈ t, isControl c = false)
    (hfew : fewInRow '\'' 0 t = true) (hrest : rest.head? ≠ some '\'') :
    readLiteralLines (t ++ '\'' :: '\'' :: '\'' :: rest) = some (t, rest) := by
  induction t with
  | nil =>
    exact readLiteralLines_found
      (readTriple?_of_forall (not_prefix_nil '\'') hrest (List.forall_mem_nil _))
  | cons c t ih =>
    have hprefix := not_prefix_of_fewInRow hfew
    by_cases hall : ∀ d ∈ c :: t, d = '\''
    · exact readLiteralLines_found (readTriple?_of_forall hprefix hrest hall)
    · have htriple := readTriple?_of_not_forall hprefix hall rest
      have hc := hplain c List.mem_cons_self
      have htail : fewInRow '\'' 0 t = true := by
        unfold fewInRow at hfew
        split at hfew
        · exact fewInRow_of_le (Nat.zero_le 1) (Bool.and_eq_true_iff.1 hfew).2
        · exact hfew
      rw [List.cons_append] at htriple ⊢
      rw [readLiteralLines_plain htriple (ne_return_of_isControl hc) (isPlain_of_isControl hc),
        ih (fun d hd => hplain d (List.mem_cons_of_mem c hd)) htail]
      rfl

theorem dropBreak_of_head {s : Text} (h : ∀ c, s.head? = some c → c ≠ '\n' ∧ c ≠ '\r') :
    dropBreak s = s := by
  unfold dropBreak
  split
  · exact absurd rfl (h '\n' rfl).1
  · exact absurd rfl (h '\r' rfl).2
  · rfl

/-- The break that follows the opening marks of several lines does not count, and there is none to drop
where the text is one line. -/
theorem dropBreak_opening {t s : Text} (h : '\n' ∉ t → ∀ c, s.head? = some c → c ≠ '\n' ∧ c ≠ '\r') :
    dropBreak ((if '\n' ∈ t then ['\n'] else []) ++ s) = s := by
  by_cases hbreak : '\n' ∈ t
  · rw [if_pos hbreak]
    rfl
  · rw [if_neg hbreak]
    exact dropBreak_of_head (h hbreak)

theorem head_basicLines {t : Text} (h : '\n' ∉ t) (rest : Text) :
    ∀ c, (basicLines 0 t ++ '"' :: rest).head? = some c → c ≠ '\n' ∧ c ≠ '\r' := by
  intro c hc
  cases t with
  | nil =>
    cases hc
    decide
  | cons d t =>
    cases inside 0 d t with
    | mark hquote _ hlines =>
      rw [hlines] at hc
      cases hc
      subst hquote
      decide
    | escaped _ hlines =>
      rw [hlines] at hc
      cases hc
      decide
    | plain _ hraw hlines =>
      rw [hlines] at hc
      cases hc
      exact ⟨fun heq => h (heq ▸ List.mem_cons_self), ne_return_of_not_needsEscape hraw⟩

/-! Strings of any kind -/

theorem readQuoted?_basicLines (t : Text) {rest : Text} (hrest : rest.head? ≠ some '"') :
    readQuoted? (tripled '"' t (basicLines 0 t) ++ rest) = some (t, rest) := by
  simp only [tripled, List.append_assoc, List.cons_append, List.nil_append]
  rw [readQuoted?, dropBreak_opening fun h => head_basicLines h _]
  exact readBasicLines_basicLines (by decide) t hrest

theorem readQuoted?_literalLines {t rest : Text} (hplain : ∀ c ∈ t, isControl c = false)
    (hfew : fewInRow '\'' 0 t = true) (hrest : rest.head? ≠ some '\'') :
    readQuoted? (tripled '\'' t t ++ rest) = some (t, rest) := by
  simp only [tripled, List.append_assoc, List.cons_append, List.nil_append]
  rw [readQuoted?, dropBreak_opening]
  · exact readLiteralLines_append hplain hfew hrest
  · intro hbreak c hc
    cases t with
    | nil =>
      cases hc
      decide
    | cons d t =>
      cases hc
      exact ⟨fun heq => hbreak (heq ▸ List.mem_cons_self),
        ne_return_of_isControl (hplain c List.mem_cons_self)⟩

theorem readQuoted?_eq_readLine? {s : Text} (hquote : ¬ List.replicate 3 '"' <+: s)
    (hmark : ¬ List.replicate 3 '\'' <+: s) : readQuoted? s = readLine? s := by
  unfold readQuoted?
  split
  · exact absurd (List.prefix_append _ _) hquote
  · exact absurd (List.prefix_append _ _) hmark
  · rfl

theorem not_prefix_basic (t : Text) {rest : Text} (hrest : rest.head? ≠ some '"') :
    ¬ List.replicate 3 '"' <+: basic t ++ rest := by
  cases t with
  | nil =>
    rintro ⟨s, hs⟩
    cases hs
    exact hrest rfl
  | cons c t =>
    rw [basic, List.flatMap_cons]
    split
    · rename_i hescape
      obtain ⟨d, tail, hescaped⟩ := exists_escaped hescape
      simp [hescaped.spelled, List.replicate_succ]
    · rename_i hraw
      simp only [List.cons_append, List.nil_append, List.replicate_succ, List.cons_prefix_cons]
      rintro ⟨-, heq, -⟩
      exact hraw (.inr (.inl heq.symm))

theorem readQuoted?_basic (t : Text) {rest : Text} (hrest : rest.head? ≠ some '"') :
    readQuoted? (basic t ++ rest) = some (t, rest) := by
  have hmark : ¬ List.replicate 3 '\'' <+: basic t ++ rest := by
    rintro ⟨s, hs⟩
    cases hs
  rw [readQuoted?_eq_readLine? (not_prefix_basic t hrest) hmark, readLine?_basic]

theorem readQuoted?_literal {t rest : Text} (h : suitsLiteral t = true)
    (hrest : rest.head? ≠ some '\'') :
    readQuoted? ('\'' :: t ++ ['\''] ++ rest) = some (t, rest) := by
  have hquote : ¬ List.replicate 3 '"' <+: '\'' :: t ++ ['\''] ++ rest := by
    rintro ⟨s, hs⟩
    cases hs
  have hmark : ¬ List.replicate 3 '\'' <+: '\'' :: t ++ ['\''] ++ rest := by
    cases t with
    | nil =>
      rintro ⟨s, hs⟩
      cases hs
      exact hrest rfl
    | cons c t =>
      simp only [List.cons_append, List.replicate_succ, List.cons_prefix_cons]
      rintro ⟨-, heq, -⟩
      exact (isPlain_of_suitsLiteral h c List.mem_cons_self).1 heq.symm
  rw [readQuoted?_eq_readLine? hquote hmark, readLine?_literal h]

/-- A text reads back from the string that writes it, if no further mark follows. -/
theorem readQuoted?_quoted (t : Text) {rest : Text}
    (hrest : rest.head? ≠ some '"' ∧ rest.head? ≠ some '\'') :
    readQuoted? (quoted t ++ rest) = some (t, rest) := by
  unfold quoted
  split
  · exact readQuoted?_basic t hrest.1
  split
  · rename_i hliteral
    exact readQuoted?_literal hliteral hrest.2
  split
  · exact readQuoted?_basicLines t hrest.1
  split
  · rename_i hlines
    simp only [Bool.and_eq_true, Bool.not_eq_true', List.any_eq_false, Bool.not_eq_true] at hlines
    exact readQuoted?_literalLines hlines.1 hlines.2 hrest.2
  split
  · exact readQuoted?_basicLines t hrest.1
  · exact readQuoted?_basic t hrest.1

end StepScope.Toml
