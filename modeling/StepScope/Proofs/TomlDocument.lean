import StepScope.Proofs.TomlQuoted
import StepScope.Toml.Document

/-!
What a line of a TOML text does to the tables before it: a comment and an empty line nothing, a header
opens a table, and a string assigned to a key goes to the end of the open table.
-/

namespace StepScope.Toml

namespace Entries

variable {entries : Entries} {key : Text}

theorem find?_eq_none (h : key ∉ entries.map Prod.fst) : entries.find? key = none := by
  rw [find?, Option.map_eq_none_iff, List.find?_eq_none]
  intro e he heq
  exact h (List.mem_map.2 ⟨e, he, of_decide_eq_true heq⟩)

theorem put_of_not_mem (h : key ∉ entries.map Prod.fst) (value : Value) :
    entries.put key value = entries ++ [(key, value)] := by
  induction entries with
  | nil => rfl
  | cons e rest ih =>
    rw [List.map_cons, List.mem_cons, not_or] at h
    rw [put, if_neg (Ne.symm h.1), ih h.2, List.cons_append]

@[simp] theorem find?_put_self (entries : Entries) (key : Text) (value : Value) :
    (entries.put key value).find? key = some value := by
  induction entries with
  | nil => simp [put, find?]
  | cons e rest ih =>
    unfold put
    split
    · simp [find?]
    · rename_i hne
      rw [find?, List.find?_cons, decide_eq_false hne]
      exact ih

@[simp] theorem put_put_self (entries : Entries) (key : Text) (first second : Value) :
    (entries.put key first).put key second = entries.put key second := by
  induction entries with
  | nil => simp [put]
  | cons e rest ih =>
    by_cases he : e.1 = key
    · simp [put, he]
    · simp [put, he, ih]

theorem put_of_find? {value : Value} (h : entries.find? key = some value) :
    entries.put key value = entries := by
  induction entries with
  | nil => cases h
  | cons e rest ih =>
    by_cases he : e.1 = key
    · simp only [find?, List.find?_cons, he, decide_true, Option.map_some, Option.some.injEq] at h
      subst he h
      rw [put, if_pos rfl]
    · rw [find?, List.find?_cons, decide_eq_false he] at h
      rw [put, if_neg he, ih h]

/-- A header opens a table that is new. -/
theorem openTable_new (h : entries.find? key = none) :
    openTable [key] entries = some (entries.put key (.table .headed [])) := by
  simp only [openTable, List.getLast?_singleton, List.dropLast_singleton, modifyAt, h]

/-- A value under a new key goes to the end of the open table. -/
theorem assignAt_new {table : Text} {inner : Entries}
    (htable : entries.find? table = some (.table .headed inner)) (hkey : key ∉ inner.map Prod.fst)
    (value : Value) :
    assignAt [table] [key] value entries =
      some (entries.put table (.table .headed (inner ++ [(key, value)]))) := by
  simp [assignAt, modifyAt, htable, assign, find?_eq_none hkey, put_of_not_mem hkey]

end Entries

/-! The ends of lines -/

theorem readLineEnd_break (s : Text) : readLineEnd ('\n' :: s) = some s := rfl

theorem readLineEnd_comment {t : Text} (h : ∀ c ∈ t, isPlain c = true) (s : Text) :
    readLineEnd ('#' :: t ++ '\n' :: s) = some s := by
  have hdrop : (t ++ '\n' :: s).dropWhile isPlain = '\n' :: s := by
    rw [List.dropWhile_append_of_pos h]
    rfl
  rw [List.cons_append, readLineEnd]
  change readBreak ((t ++ '\n' :: s).dropWhile isPlain) = some s
  rw [hdrop]
  rfl

/-- The characters that a key, as it is written, starts with. -/
def StartsKey (c : Char) : Prop := isBare c = true ∨ c = '"' ∨ c = '\''

theorem quotedKey_eq_cons (t : Text) : ∃ c s, quotedKey t = c :: s ∧ StartsKey c := by
  unfold quotedKey
  split
  · rename_i hbare
    obtain ⟨c, s, rfl⟩ := List.exists_cons_of_ne_nil hbare.1
    exact ⟨c, s, rfl, .inl (List.all_eq_true.1 hbare.2 c List.mem_cons_self)⟩
  split
  · exact ⟨'"', _, rfl, .inr (.inl rfl)⟩
  split
  · exact ⟨'\'', _, rfl, .inr (.inr rfl)⟩
  · exact ⟨'"', _, rfl, .inr (.inl rfl)⟩

theorem StartsKey.ne {c d : Char} (h : StartsKey c) (hd : ¬ StartsKey d) : c ≠ d := by
  rintro rfl
  exact hd h

instance : DecidablePred StartsKey := fun c =>
  inferInstanceAs (Decidable (isBare c = true ∨ c = '"' ∨ c = '\''))

theorem StartsKey.skipSpace {c : Char} (h : StartsKey c) (s : Text) :
    skipSpace (c :: s) = c :: s := by
  have hblank := h.ne (d := ' ') (by decide)
  have htab := h.ne (d := '\t') (by decide)
  simp [Toml.skipSpace, isSpace, hblank, htab]

theorem StartsKey.readLineEnd {c : Char} (h : StartsKey c) (s : Text) : readLineEnd (c :: s) = none := by
  unfold Toml.readLineEnd
  rw [h.skipSpace]
  split
  · rename_i heq
    cases heq
    exact absurd h (by decide)
  · unfold readBreak
    split
    · rename_i heq
      cases heq
    · rename_i heq
      cases heq
      exact absurd h (by decide)
    · rename_i heq
      cases heq
      exact absurd h (by decide)
    · rfl

theorem readPath_quotedKey (key : Text) {rest : Text} (hbare : ∀ c, rest.head? = some c → isBare c = false)
    (hpoint : ∀ s, skipSpace rest ≠ '.' :: s) :
    readPath maxDepth (quotedKey key ++ rest) = some ([key], skipSpace rest) := by
  obtain ⟨c, s, hkey, hc⟩ := quotedKey_eq_cons key
  have hskip : skipSpace (quotedKey key ++ rest) = quotedKey key ++ rest := by
    rw [hkey, List.cons_append, hc.skipSpace]
  rw [maxDepth, readPath, hskip, readKey_quotedKey key hbare]
  simp only [Option.bind_eq_bind, Option.bind_some]

/-! Lines -/

variable (limit : Nat) (current : List Text) (root : Entries)

theorem readLinesInto_nil : readLinesInto (limit + 1) current root [] = some root := rfl

theorem readLinesInto_break (s : Text) :
    readLinesInto (limit + 1) current root ('\n' :: s) = readLinesInto limit current root s := rfl

/-- A line that is no header is empty, a comment or an assignment. -/
theorem readLinesInto_cons {c : Char} {s : Text} (hskip : skipSpace (c :: s) = c :: s) (hc : c ≠ '[') :
    readLinesInto (limit + 1) current root (c :: s) =
      match readLineEnd (c :: s) with
      | some rest => readLinesInto limit current root rest
      | none =>
        (readAssignment skipSpace (readValue ((c :: s).length + 1) maxDepth) (c :: s)).bind
          fun (parts, v, s) => (readLineEnd s).bind fun s =>
            (root.assignAt current parts v).bind fun root => readLinesInto limit current root s := by
  rw [readLinesInto, hskip]
  split
  · rename_i heq
    cases heq
  · rename_i heq
    exact absurd (List.cons.inj heq).1 hc
  · rename_i heq
    exact absurd (List.cons.inj heq).1 hc
  · rfl

theorem readLinesInto_comment {t : Text} (h : ∀ c ∈ t, isPlain c = true) (s : Text) :
    readLinesInto (limit + 1) current root ('#' :: t ++ '\n' :: s) =
      readLinesInto limit current root s := by
  have hend := readLineEnd_comment h s
  rw [List.cons_append] at hend ⊢
  rw [readLinesInto_cons limit current root rfl (by decide), hend]

theorem readLinesInto_header (name s : Text) :
    readLinesInto (limit + 1) current root ('[' :: (quotedKey name ++ ']' :: '\n' :: s)) =
      (root.openTable [name]).bind fun root => readLinesInto limit [name] root s := by
  have hpath : readPath maxDepth (quotedKey name ++ ']' :: '\n' :: s) =
      some ([name], ']' :: '\n' :: s) :=
    readPath_quotedKey name (by rintro c ⟨⟩; decide) (by rintro t ⟨⟩)
  obtain ⟨c, t, hname, hc⟩ := quotedKey_eq_cons name
  have hskip : skipSpace ('[' :: (quotedKey name ++ ']' :: '\n' :: s)) =
      '[' :: (quotedKey name ++ ']' :: '\n' :: s) := rfl
  rw [readLinesInto, hskip]
  split
  · rename_i heq
    cases heq
  · rename_i heq
    rw [hname] at heq
    cases heq
    exact absurd hc (by decide)
  · rename_i heq
    obtain rfl := (List.cons.inj heq).2
    rw [hpath]
    rfl
  · rename_i hother
    exact absurd rfl (hother _)

/-- The head of a string as it is written. -/
theorem quoted_eq_cons (t : Text) : ∃ c s, quoted t = c :: s ∧ (c = '"' ∨ c = '\'') := by
  unfold quoted
  split
  · exact ⟨'"', _, rfl, .inl rfl⟩
  split
  · exact ⟨'\'', _, rfl, .inr rfl⟩
  split
  · exact ⟨'"', _, rfl, .inl rfl⟩
  split
  · exact ⟨'\'', _, rfl, .inr rfl⟩
  split
  · exact ⟨'"', _, rfl, .inl rfl⟩
  · exact ⟨'"', _, rfl, .inl rfl⟩

/-- A string is read as a value, at any depth. -/
theorem readValue_quoted (depth : Nat) (t : Text) {rest : Text}
    (hrest : rest.head? ≠ some '"' ∧ rest.head? ≠ some '\'') :
    readValue limit depth (quoted t ++ rest) = some (.text t, rest) := by
  have hscalar : readScalar (quoted t ++ rest) = some (.text t, rest) := by
    rw [readScalar, readQuoted?_quoted t hrest]
  cases depth with
  | zero => exact hscalar
  | succ depth =>
    obtain ⟨c, s, hquoted, hc⟩ := quoted_eq_cons t
    rw [hquoted] at hscalar ⊢
    rcases hc with rfl | rfl
    · exact hscalar
    · exact hscalar

theorem readAssignment_quoted (key t s : Text) :
    readAssignment skipSpace (readValue limit maxDepth)
        (quotedKey key ++ " = ".toList ++ quoted t ++ '\n' :: s) =
      some ([key], .text t, '\n' :: s) := by
  have hpath : readPath maxDepth (quotedKey key ++ ' ' :: '=' :: ' ' :: (quoted t ++ '\n' :: s)) =
      some ([key], '=' :: ' ' :: (quoted t ++ '\n' :: s)) :=
    readPath_quotedKey key (by rintro c ⟨⟩; decide) (by rintro t ⟨⟩)
  have hskip : skipSpace (' ' :: (quoted t ++ '\n' :: s)) = quoted t ++ '\n' :: s := by
    obtain ⟨c, u, hquoted, hc⟩ := quoted_eq_cons t
    rw [hquoted]
    rcases hc with rfl | rfl
    · rfl
    · rfl
  have hvalue : readValue limit maxDepth (quoted t ++ '\n' :: s) = some (.text t, '\n' :: s) :=
    readValue_quoted limit maxDepth t ⟨by simp, by simp⟩
  have hline : quotedKey key ++ " = ".toList ++ quoted t ++ '\n' :: s =
      quotedKey key ++ ' ' :: '=' :: ' ' :: (quoted t ++ '\n' :: s) := by
    simp
  rw [hline, readAssignment, hpath]
  change (readValue limit maxDepth (skipSpace (' ' :: (quoted t ++ '\n' :: s)))).bind
    (fun found => some ([key], found.1, found.2)) = _
  rw [hskip, hvalue]
  rfl

theorem readLinesInto_assignment (key t s : Text) :
    readLinesInto (limit + 1) current root
        (quotedKey key ++ " = ".toList ++ quoted t ++ '\n' :: s) =
      (root.assignAt current [key] (.text t)).bind fun root => readLinesInto limit current root s := by
  have hread := fun limit => readAssignment_quoted limit key t s
  obtain ⟨c, u, hkey, hc⟩ := quotedKey_eq_cons key
  simp only [hkey, List.cons_append] at hread ⊢
  rw [readLinesInto_cons limit current root (hc.skipSpace _) (hc.ne (by decide)), hc.readLineEnd]
  simp only [hread, Option.bind_some, readLineEnd_break]

end StepScope.Toml
